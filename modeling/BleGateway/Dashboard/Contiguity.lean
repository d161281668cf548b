import BleGateway.Dashboard.Events

/-! # What the dashboard applies is contiguous

Since `goLive` the events that were applied are numbered without a gap, and the first event that
leaves one ends the live mode. Number `0` stands for a snapshot whose number is not known: the first
event behind it is taken as it comes.
-/

namespace BleGateway.Dashboard

/-! ## The property -/

/-- The events applied since a `goLive` with `snapshot`, when the client has come to `lastSeq`: they
are numbered from `first` to `lastSeq`. The first of them follows the snapshot, if that has a
number. -/
def Contiguous (snapshot lastSeq : Nat) (applied : List Event) : Prop :=
  ∃ first, 0 < first ∧ (snapshot ≠ 0 → first = snapshot + 1) ∧
    applied.map Event.seq = List.range' first applied.length ∧
    lastSeq = if applied = [] then snapshot else first + applied.length - 1

/-- What has happened since a `goLive` with `snapshot`: some events were applied, contiguously, and
then nothing but requests for a resync went out. A live client has asked for none and has come past
all events that it received; one that is not live has asked for a resync, or the socket was
closed. -/
def Sound (snapshot : Nat) (c : Client) (outs : List Out) (received : List Event) (closed : Bool) :
    Prop :=
  ∃ applied rest, outs = applied.map Out.apply ++ rest ∧ (∀ o ∈ rest, o = .resync) ∧
    Contiguous snapshot c.lastSeq applied ∧
    (c.live = true → rest = [] ∧ ∀ e ∈ received, e.seq ≤ c.lastSeq) ∧
    (c.live = false → rest ≠ [] ∨ closed = true)

/-! ## One event -/

theorem Contiguous.nil (snapshot : Nat) : Contiguous snapshot snapshot [] :=
  ⟨snapshot + 1, Nat.succ_pos _, fun _ => rfl, rfl, rfl⟩

theorem Contiguous.snapshot_le {snapshot lastSeq : Nat} {applied : List Event}
    (h : Contiguous snapshot lastSeq applied) : snapshot ≤ lastSeq := by
  obtain ⟨first, hpos, hfirst, _, hlast⟩ := h
  by_cases he : applied = []
  · simp [hlast, he]
  · have hlen : 0 < applied.length := List.length_pos_iff.mpr he
    rw [hlast, if_neg he]
    by_cases hs : snapshot = 0
    · omega
    · have := hfirst hs
      omega

/-- The event after the last one is applied, or any event while no number is known. -/
theorem Contiguous.next {snapshot lastSeq : Nat} {applied : List Event} {e : Event}
    (h : Contiguous snapshot lastSeq applied) (hlt : lastSeq < e.seq)
    (hnext : lastSeq ≠ 0 → e.seq = lastSeq + 1) :
    Contiguous snapshot e.seq (applied ++ [e]) := by
  obtain ⟨first, hpos, hfirst, hrange, hlast⟩ := h
  by_cases he : applied = []
  · rw [if_pos he] at hlast
    refine ⟨e.seq, by omega, fun hs => ?_, by simp [he], by simp [he]⟩
    have := hnext (by omega)
    omega
  · have hlen : 0 < applied.length := List.length_pos_iff.mpr he
    rw [if_neg he] at hlast
    have hseq : e.seq = first + applied.length := by
      have := hnext (by omega)
      omega
    refine ⟨first, hpos, hfirst, ?_, ?_⟩
    · rw [List.map_append, hrange, List.length_append, List.length_singleton,
        List.range'_concat]
      simp [hseq]
    · rw [if_neg (by simp), List.length_append, List.length_singleton]
      omega

/-- A live client goes on soundly, whatever event it accepts. -/
theorem Sound.accept {snapshot : Nat} {c : Client} {outs : List Out} {received : List Event}
    {closed : Bool} (h : Sound snapshot c outs received closed) (hlive : c.live = true)
    (e : Event) :
    Sound snapshot (acceptSequencedEvent c e).1 (outs ++ (acceptSequencedEvent c e).2)
      (received ++ [e]) closed := by
  obtain ⟨applied, rest, rfl, _, hcont, hl, _⟩ := h
  obtain ⟨rfl, hreceived⟩ := hl hlive
  have hresync : Sound snapshot c.resync ((applied.map Out.apply ++ []) ++ [.resync])
      (received ++ [e]) closed :=
    ⟨applied, [.resync], by simp, by simp, hcont, fun hf => by simp [Client.resync] at hf,
      fun _ => Or.inl (by simp)⟩
  unfold acceptSequencedEvent
  split
  · exact hresync
  · split
    · -- a duplicate
      rename_i hle
      refine ⟨applied, [], by simp, by simp, hcont, fun _ => ⟨rfl, fun d hd => ?_⟩, fun hf => ?_⟩
      · rcases List.mem_append.mp hd with hd | hd
        · exact hreceived d hd
        · rw [List.mem_singleton.mp hd]
          exact hle
      · simp [hlive] at hf
    · rename_i hgt
      split
      · exact hresync
      · -- the next event
        rename_i hgap
        have hlt : c.lastSeq < e.seq := Nat.lt_of_not_le hgt
        have hnext : c.lastSeq ≠ 0 → e.seq = c.lastSeq + 1 := by
          intro hne
          by_contra hno
          exact hgap ⟨hne, hno⟩
        refine ⟨applied ++ [e], [], by simp, by simp, hcont.next hlt hnext,
          fun _ => ⟨rfl, fun d hd => ?_⟩, fun hf => ?_⟩
        · rcases List.mem_append.mp hd with hd | hd
          · exact Nat.le_trans (hreceived d hd) (Nat.le_of_lt hlt)
          · rw [List.mem_singleton.mp hd]
        · simp [hlive] at hf

/-! ## The replay -/

/-- Behind a gap every event of the replay is behind it too, so none is applied. -/
theorem replay_stuck {c : Client} (hlive : c.live = false) (hne : c.lastSeq ≠ 0) :
    ∀ {events : List Event}, (∀ e ∈ events, c.lastSeq + 1 < e.seq) →
      (replay c events).1.live = false ∧ (replay c events).1.lastSeq = c.lastSeq ∧
        ∀ o ∈ (replay c events).2, o = .resync := by
  intro events
  induction events generalizing c with
  | nil => exact fun _ => ⟨hlive, rfl, by simp [replay]⟩
  | cons e events ih =>
      intro hall
      have hgap : c.lastSeq + 1 < e.seq := hall e (by simp)
      have haccept : acceptSequencedEvent c e = (c.resync, [.resync]) := by
        have hdup : ¬e.seq ≤ c.lastSeq := by omega
        have hjump : c.lastSeq ≠ 0 ∧ e.seq ≠ c.lastSeq + 1 := ⟨hne, by omega⟩
        simp [acceptSequencedEvent, hdup, hjump]
      have hrest := @ih c.resync rfl hne fun d hd => hall d (by simp [hd])
      simp only [replay, haccept]
      refine ⟨hrest.1, hrest.2.1, fun o ho => ?_⟩
      rcases List.mem_append.mp ho with ho | ho
      · simpa using ho
      · exact hrest.2.2 o ho

/-- A replay in the order of the numbers is sound. -/
theorem Sound.replay {snapshot : Nat} {closed : Bool} : ∀ {events received : List Event}
    {c : Client} {outs : List Out}, Sound snapshot c outs received closed → c.live = true →
    (∀ e ∈ events, e.type ≠ "resync.required") → events.Pairwise (fun a b => a.seq ≤ b.seq) →
    Sound snapshot (Dashboard.replay c events).1 (outs ++ (Dashboard.replay c events).2)
      (received ++ events) closed := by
  intro events
  induction events with
  | nil =>
      intro received c outs h _ _ _
      simpa [Dashboard.replay] using h
  | cons e events ih =>
      intro received c outs h hlive htype hsorted
      have hone := h.accept hlive e
      obtain ⟨hfirst, hrest⟩ := List.pairwise_cons.mp hsorted
      have hout : outs ++ (Dashboard.replay c (e :: events)).2 =
          (outs ++ (acceptSequencedEvent c e).2) ++
            (Dashboard.replay (acceptSequencedEvent c e).1 events).2 := by
        simp [Dashboard.replay]
      have hrec : received ++ e :: events = (received ++ [e]) ++ events := by simp
      rw [hout, hrec]
      cases hl : (acceptSequencedEvent c e).1.live with
      | true => exact ih hone hl (fun d hd => htype d (by simp [hd])) hrest
      | false =>
          -- `e` has left a gap, and what follows has no smaller number
          have hgap : (acceptSequencedEvent c e).1.lastSeq ≠ 0 ∧
              (acceptSequencedEvent c e).1.lastSeq + 1 < e.seq := by
            unfold acceptSequencedEvent at hl ⊢
            rw [if_neg (htype e (by simp))] at hl ⊢
            split at hl
            · simp [hlive] at hl
            · split at hl
              · rename_i hgt hg
                rw [if_neg hgt, if_pos hg]
                exact ⟨hg.1, by have := hg.2; show c.lastSeq + 1 < e.seq; omega⟩
              · simp [hlive] at hl
          have hstuck := @replay_stuck _ hl hgap.1 events fun d hd =>
            Nat.lt_of_lt_of_le hgap.2 (hfirst d hd)
          obtain ⟨applied, rest, heq, hall, hcont, _, hno⟩ := hone
          refine ⟨applied, rest ++ (Dashboard.replay (acceptSequencedEvent c e).1 events).2,
            ?_, ?_, ?_, ?_, ?_⟩
          · rw [heq, List.append_assoc]
          · intro o ho
            rcases List.mem_append.mp ho with ho | ho
            · exact hall o ho
            · exact hstuck.2.2 o ho
          · show Contiguous snapshot (Dashboard.replay _ events).1.lastSeq applied
            rw [hstuck.2.1]
            exact hcont
          · intro hf
            exact absurd (hstuck.1.symm.trans hf) (by simp)
          · intro _
            rcases hno hl with hne | hc
            · exact Or.inl (by simp [hne])
            · exact Or.inr hc

/-! ## Whole runs -/

/-- What is buffered came as an event, and what has happened since the last `goLive` is sound. -/
structure Inv (s : Sys) : Prop where
  buffer : ∀ e ∈ s.client.buffer, e.type ≠ "resync.required"
  before : s.snapshot = none → s.client.live = false ∧ ∀ o ∈ s.outs, o = .resync
  since : ∀ n, s.snapshot = some n → Sound n s.client s.outs s.received s.closed

/-- A client that is not live applies nothing. -/
theorem Sound.idle {snapshot : Nat} {c c' : Client} {outs more : List Out}
    {received arrived : List Event} {closed closed' : Bool}
    (h : Sound snapshot c outs received closed) (hseq : c'.lastSeq = c.lastSeq)
    (hlive : c'.live = false) (hmore : ∀ o ∈ more, o = .resync)
    (hend : c.live = true → more ≠ [] ∨ closed' = true)
    (hclosed : closed = true → closed' = true) :
    Sound snapshot c' (outs ++ more) (received ++ arrived) closed' := by
  obtain ⟨applied, rest, rfl, hall, hcont, _, hno⟩ := h
  refine ⟨applied, rest ++ more, by simp, fun o ho => ?_, by rwa [hseq], fun hf => ?_, fun _ => ?_⟩
  · rcases List.mem_append.mp ho with ho | ho
    · exact hall o ho
    · exact hmore o ho
  · simp [hlive] at hf
  · cases hl : c.live with
    | true => exact (hend hl).imp_left fun hne => by simp [hne]
    | false =>
        rcases hno hl with hne | hc
        · exact Or.inl (by simp [hne])
        · exact Or.inr (hclosed hc)

theorem replay_buffer (c : Client) (events : List Event) :
    (replay c events).1.buffer = c.buffer := by
  induction events generalizing c with
  | nil => rfl
  | cons e events ih =>
      have hone : (acceptSequencedEvent c e).1.buffer = c.buffer := by
        unfold acceptSequencedEvent
        split
        · rfl
        · split
          · rfl
          · split <;> rfl
      exact (ih _).trans hone

/-- `goLive` begins anew with what was buffered. -/
theorem sound_goLive {c : Client} (hbuffer : ∀ e ∈ c.buffer, e.type ≠ "resync.required")
    (snapshotSeq : Nat) :
    Sound snapshotSeq (goLive c snapshotSeq).1 (goLive c snapshotSeq).2 c.buffer false := by
  have hstart : ∀ c' : Client, c'.lastSeq = snapshotSeq → c'.live = true →
      Sound snapshotSeq c' [] [] false := fun c' hseq hlive =>
    ⟨[], [], rfl, by simp, hseq ▸ Contiguous.nil _, fun _ => ⟨rfl, by simp⟩,
      fun hf => by simp [hlive] at hf⟩
  unfold goLive replayBuffered
  split
  · rename_i hempty
    have hnil : c.buffer = [] := by simpa using hempty
    rw [hnil]
    exact hstart _ rfl rfl
  · have hmem : ∀ e, e ∈ toReplay { c with
        lastSeq := snapshotSeq, live := true, resyncPending := false,
        sessionId := c.sessionId + 1 } ↔ e ∈ c.buffer ∧ snapshotSeq < e.seq := by
      intro e
      simp [toReplay]
    have hsorted : (toReplay { c with
        lastSeq := snapshotSeq, live := true, resyncPending := false,
        sessionId := c.sessionId + 1 }).Pairwise (fun a b => a.seq ≤ b.seq) :=
      List.pairwise_insertionSort Event.before _
    have hsound := @Sound.replay snapshotSeq false _ [] _ [] (hstart { c with
        lastSeq := snapshotSeq, live := true, resyncPending := false,
        sessionId := c.sessionId + 1, buffer := [] } rfl rfl) rfl
      (fun e he => hbuffer e ((hmem e).mp he).1) hsorted
    obtain ⟨applied, rest, heq, hall, hcont, hlive, hno⟩ := hsound
    refine ⟨applied, rest, heq, hall, hcont, fun hl => ⟨(hlive hl).1, fun e he => ?_⟩, hno⟩
    -- what was not replayed is in the snapshot
    by_cases hgt : snapshotSeq < e.seq
    · exact (hlive hl).2 e (by simpa using (hmem e).mpr ⟨he, hgt⟩)
    · exact Nat.le_trans (Nat.le_of_not_lt hgt) hcont.snapshot_le

theorem goLive_buffer (c : Client) (snapshotSeq : Nat) :
    ∀ e ∈ (goLive c snapshotSeq).1.buffer, e ∈ c.buffer := by
  unfold goLive replayBuffered
  split
  · exact fun e he => he
  · intro e he
    rw [replay_buffer] at he
    simp at he

theorem Inv.onEvent {s : Sys} (h : Inv s) (e : Event) :
    Inv { s with
      client := (onEvent s.client e).1
      outs := s.outs ++ (onEvent s.client e).2
      received := s.received ++ [e] } := by
  by_cases htype : e.type = "resync.required"
  · -- the gateway asks for a resync
    have heq : Dashboard.onEvent s.client e = (s.client.resync, [.resync]) := by
      simp [Dashboard.onEvent, htype]
    rw [heq]
    refine ⟨h.buffer, fun hn => ⟨rfl, fun o ho => ?_⟩, fun n hn => ?_⟩
    · rcases List.mem_append.mp ho with ho | ho
      · exact (h.before hn).2 o ho
      · simpa using ho
    · exact (h.since n hn).idle rfl rfl (by simp) (fun _ => Or.inl (by simp)) id
  · cases hlive : s.client.live with
    | true =>
        have heq : Dashboard.onEvent s.client e = acceptSequencedEvent s.client e := by
          simp [Dashboard.onEvent, htype, hlive]
        rw [heq]
        have hbuffer : (acceptSequencedEvent s.client e).1.buffer = s.client.buffer := by
          have hone := replay_buffer s.client [e]
          simpa [replay] using hone
        refine ⟨fun d hd => h.buffer d (hbuffer ▸ hd), fun hn => ?_, fun n hn => ?_⟩
        · simp [(h.before hn).1] at hlive
        · exact (h.since n hn).accept hlive e
    | false =>
        -- the event is buffered; a buffer that runs over is cut and a resync is asked for
        have hkept : ∀ d ∈ (Dashboard.onEvent s.client e).1.buffer, d ∈ s.client.buffer ++ [e] := by
          simp only [Dashboard.onEvent, if_neg htype, hlive, Bool.false_eq_true, if_false]
          intro d hd
          split at hd
          · exact List.mem_of_mem_drop hd
          · exact hd
        have hrest : (Dashboard.onEvent s.client e).1.lastSeq = s.client.lastSeq ∧
            (Dashboard.onEvent s.client e).1.live = false ∧
            ∀ o ∈ (Dashboard.onEvent s.client e).2, o = .resync := by
          simp only [Dashboard.onEvent, if_neg htype, hlive, Bool.false_eq_true, if_false]
          split <;> simp
        obtain ⟨hseq, hidle, houts⟩ := hrest
        refine ⟨fun d hd => ?_, fun hn => ⟨hidle, fun o ho => ?_⟩, fun n hn => ?_⟩
        · rcases List.mem_append.mp (hkept d hd) with hd | hd
          · exact h.buffer d hd
          · rw [List.mem_singleton.mp hd]
            exact htype
        · rcases List.mem_append.mp ho with ho | ho
          · exact (h.before hn).2 o ho
          · exact houts o ho
        · exact (h.since n hn).idle hseq hidle houts (fun hl => by simp [hlive] at hl) id

theorem Inv.step {s : Sys} (h : Inv s) (l : Label) : Inv (step s l) := by
  cases l with
  | message m =>
      cases hm : m.event with
      | none =>
          have heq : Dashboard.step s (.message m) = s := by
            simp [Dashboard.step, onMessage, hm]
          rw [heq]
          exact h
      | some e =>
          have heq : Dashboard.step s (.message m) = { s with
              client := (Dashboard.onEvent s.client e).1
              outs := s.outs ++ (Dashboard.onEvent s.client e).2
              received := s.received ++ [e] } := by
            simp [Dashboard.step, onMessage, hm]
          rw [heq]
          exact h.onEvent e
  | close =>
      refine ⟨by simp [Dashboard.step, onClose], fun hn => ⟨rfl, (h.before hn).2⟩, fun n hn => ?_⟩
      have hidle := @Sound.idle n s.client (onClose s.client) s.outs [] s.received [] s.closed true
        (h.since n hn) rfl rfl (by simp) (fun _ => Or.inr rfl) fun _ => rfl
      simpa [Dashboard.step] using hidle
  | goLive n =>
      refine ⟨fun e he => h.buffer e (goLive_buffer s.client n e he), fun hn => ?_, fun m hm => ?_⟩
      · simp [Dashboard.step] at hn
      · cases hm
        exact sound_goLive h.buffer n

/-- **The dashboard's stream is contiguous.** While the client is live, the events applied since
`goLive(n)` are numbered from `n + 1` to `lastSeq` (from any number on, if `n = 0`), and no event
that was received lies behind `lastSeq`. When one does, a resync has been asked for since, or the
socket was closed; and nothing has been applied after the first such request. -/
theorem stream_contiguous {s : Sys} (h : machine.Reachable s) :
    (s.snapshot = none → s.client.live = false ∧ ∀ e, .apply e ∉ s.outs) ∧
    ∀ n, s.snapshot = some n →
      ∃ applied rest, s.outs = applied.map Out.apply ++ rest ∧ (∀ o ∈ rest, o = .resync) ∧
        Contiguous n s.client.lastSeq applied ∧
        (s.client.live = true → rest = []) ∧
        ((∃ e ∈ s.received, s.client.lastSeq < e.seq) →
          s.client.live = false ∧ (.resync ∈ s.outs ∨ s.closed = true)) := by
  have hinv : Inv s := by
    refine h.invariant (fun t h0 => ?_) fun t l t' ht hstep => ?_
    · rw [show t = {} from h0]
      exact ⟨by simp, fun _ => ⟨rfl, by simp⟩, fun n hn => by simp at hn⟩
    · rw [← Option.some.inj hstep]
      exact ht.step l
  refine ⟨fun hn => ⟨(hinv.before hn).1, fun e he => ?_⟩, fun n hn => ?_⟩
  · simpa using (hinv.before hn).2 _ he
  · obtain ⟨applied, rest, heq, hall, hcont, hlive, hno⟩ := hinv.since n hn
    refine ⟨applied, rest, heq, hall, hcont, fun hl => (hlive hl).1, fun ⟨e, he, hlt⟩ => ?_⟩
    cases hl : s.client.live with
    | true => exact absurd ((hlive hl).2 e he) (Nat.not_le_of_lt hlt)
    | false =>
        refine ⟨rfl, ?_⟩
        rcases hno hl with hne | hc
        · obtain ⟨o, ho⟩ := List.exists_mem_of_ne_nil rest hne
          have hmem : o ∈ s.outs := heq ▸ List.mem_append_right _ ho
          exact Or.inl (hall o ho ▸ hmem)
        · exact Or.inr hc

/-- A snapshot numbered `3` that comes after the events `4` and `5`, and then event `6`. -/
def deltaRun : List Label :=
  [.message ⟨true, some "feature.state", some 5⟩, .message ⟨true, some "feature.state", some 4⟩,
    .goLive 3, .message ⟨true, some "device.changed", some 6⟩]

theorem stream_contiguous_deltaRun : ∃ s, machine.Reachable s ∧ s.client.live = true ∧
    s.client.lastSeq = 6 ∧ s.snapshot = some 3 ∧
    ∃ applied rest, s.outs = applied.map Out.apply ++ rest ∧
      Contiguous 3 s.client.lastSeq applied := by
  have hrun : ((machine.run {} deltaRun).map fun s =>
      decide (s.client.live = true ∧ s.client.lastSeq = 6 ∧ s.snapshot = some 3)) = some true := by
    decide
  obtain ⟨s, hs, hp⟩ := Machine.exists_reachable_of_run rfl hrun
  obtain ⟨hlive, hseq, hsnap⟩ := of_decide_eq_true hp
  obtain ⟨applied, rest, heq, _, hcont, _⟩ := (stream_contiguous hs).2 3 hsnap
  exact ⟨s, hs, hlive, hseq, hsnap, applied, rest, heq, hcont⟩

/-- Behind a snapshot numbered `0` the event `5` is applied, though `1` to `4` are missing, and no
resync is asked for. -/
theorem stream_skips : ∃ s, machine.Reachable s ∧ s.client.live = true ∧ s.snapshot = some 0 ∧
    s.client.lastSeq = 5 ∧ s.outs = [.apply ⟨"device.changed", 5⟩] := by
  have hrun : ((machine.run {} [.goLive 0, .message ⟨true, some "device.changed", some 5⟩]).map
      fun s => decide (s.client.live = true ∧ s.snapshot = some 0 ∧ s.client.lastSeq = 5 ∧
        s.outs = [.apply ⟨"device.changed", 5⟩])) = some true := by decide
  obtain ⟨s, hs, hp⟩ := Machine.exists_reachable_of_run rfl hrun
  exact ⟨s, hs, of_decide_eq_true hp⟩

end BleGateway.Dashboard
