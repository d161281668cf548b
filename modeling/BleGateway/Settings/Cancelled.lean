import Mathlib
import BleGateway.Settings.Numbering
import BleGateway.Settings.Handback

/-! # Cancelled work

When the actor has taken an event that cancels the work of a device, nothing that was asked for the
device before should be left, and no command of it should be submitted any more. That is so as long
as such an event finds every operation of its device: it is the active one, or it is refused at
once. An operation that waits behind another one is not found.
-/

namespace BleGateway.Settings

/-! ## Events behind a request -/

/-- No event is taken among the entries. -/
def Eventless (entries : List Entry) : Prop := ∀ e ∈ entries, ∀ event, e ≠ .handled event

/-- The actor has taken an event that meets `p` after the request. -/
def Behind (log : List Entry) (request : Entry) (p : ActorEvent → Prop) : Prop :=
  ∃ before event, before ++ [.handled event] <+: log ∧ p event ∧ request ∈ before

variable {log : List Entry} {request : Entry} {p : ActorEvent → Prop}

theorem behind_append_last (e : Entry) : Behind (log ++ [e]) request p ↔
    Behind log request p ∨ ∃ event, e = .handled event ∧ p event ∧ request ∈ log := by
  constructor
  · rintro ⟨before, event, hprefix, hp, hmem⟩
    rcases List.prefix_concat_iff.mp hprefix with heq | hprefix
    · obtain ⟨rfl, hlast⟩ := List.append_inj' heq rfl
      exact Or.inr ⟨event, (List.singleton_inj.mp hlast).symm, hp, hmem⟩
    · exact Or.inl ⟨before, event, hprefix, hp, hmem⟩
  · rintro (⟨before, event, hprefix, hp, hmem⟩ | ⟨event, rfl, hp, hmem⟩)
    · exact ⟨before, event, hprefix.trans (List.prefix_append log [e]), hp, hmem⟩
    · exact ⟨log, event, List.prefix_refl _, hp, hmem⟩

variable {entries : List Entry} {event : ActorEvent} {n : Nat}

/-- Nothing but events matters. -/
theorem behind_append_quiet (hquiet : Eventless entries) :
    Behind (log ++ entries) request p ↔ Behind log request p := by
  induction entries using List.reverseRecOn with
  | nil => rw [List.append_nil]
  | append_singleton entries e ih =>
      rw [← List.append_assoc, behind_append_last]
      refine ⟨fun h => ?_, fun h => Or.inl ?_⟩
      · rcases h with h | ⟨event, heq, -⟩
        · exact (ih fun e' he' => hquiet e' (List.mem_append_left _ he')).mp h
        · exact absurd heq (hquiet e (List.mem_append_right _ List.mem_cons_self) event)
      · exact (ih fun e' he' => hquiet e' (List.mem_append_left _ he')).mpr h

theorem Behind.mem (h : Behind log request p) : request ∈ log := by
  obtain ⟨before, event, hprefix, -, hmem⟩ := h
  exact hprefix.subset (List.mem_append_left _ hmem)

/-! ## Submitted commands -/

section

/-- No entry that `submits` names something cancelled by then. -/
def NoneLate (submits : Entry → Option Nat) (cancelled : List Entry → Nat → Prop)
    (log : List Entry) : Prop :=
  ∀ before e, before ++ [e] <+: log → ∀ n, submits e = some n → ¬ cancelled before n

variable {submits : Entry → Option Nat} {cancelled : List Entry → Nat → Prop}

theorem NoneLate.append_last (h : NoneLate submits cancelled log) {e : Entry}
    (he : ∀ n, submits e = some n → ¬ cancelled log n) :
    NoneLate submits cancelled (log ++ [e]) := by
  intro before e' hprefix n hn
  rcases List.prefix_concat_iff.mp hprefix with heq | hprefix
  · obtain ⟨rfl, hlast⟩ := List.append_inj' heq rfl
    exact he n (List.singleton_inj.mp hlast ▸ hn)
  · exact h before e' hprefix n hn

/-- A list of entries without events. -/
theorem NoneLate.append (h : NoneLate submits cancelled log)
    (hquiet : Eventless entries)
    (hsame : ∀ entries, Eventless entries → ∀ n, cancelled (log ++ entries) n → cancelled log n)
    (hsubmits : ∀ e ∈ entries, ∀ n, submits e = some n → ¬ cancelled log n) :
    NoneLate submits cancelled (log ++ entries) := by
  induction entries using List.reverseRecOn with
  | nil =>
      rw [List.append_nil]
      exact h
  | append_singleton entries e ih =>
      have hbefore : Eventless entries :=
        fun e' he' => hquiet e' (List.mem_append_left _ he')
      rw [← List.append_assoc]
      refine (ih hbefore fun e' he' => hsubmits e' (List.mem_append_left _ he')).append_last ?_
      intro n hn hcancelled
      exact hsubmits e (List.mem_append_right _ List.mem_cons_self) n hn
        (hsame entries hbefore n hcancelled)

end

/-! ## The property -/

/-- The operation with the number was asked for before an event that cancels it. -/
def OpCancelled (log : List Entry) (n : Nat) : Prop :=
  ∃ id, Behind log (.opRequested n id) fun event => event.cancels id = true

/-- The transaction with the number was asked for before an event that cancels it. -/
def TxCancelled (log : List Entry) (n : Nat) : Prop :=
  ∃ id m, Behind log (.txRequested n id m) fun event => event.cancels id = true

/-- As before, and the device has not just been disconnected. -/
def TxEnded (log : List Entry) (n : Nat) : Prop :=
  ∃ id m, Behind log (.txRequested n id m) fun event =>
    event.cancels id = true ∧ event ≠ .disconnected id

theorem opCancelled_quiet (hquiet : Eventless entries) (n : Nat) :
    OpCancelled (log ++ entries) n ↔ OpCancelled log n :=
  exists_congr fun _ => behind_append_quiet hquiet

theorem txCancelled_quiet (hquiet : Eventless entries) (n : Nat) :
    TxCancelled (log ++ entries) n ↔ TxCancelled log n :=
  exists_congr fun _ => exists_congr fun _ => behind_append_quiet hquiet

theorem txEnded_quiet (hquiet : Eventless entries) (n : Nat) :
    TxEnded (log ++ entries) n ↔ TxEnded log n :=
  exists_congr fun _ => exists_congr fun _ => behind_append_quiet hquiet

theorem behind_append_event {event : ActorEvent} (h : Behind (log ++ [.handled event]) request p) :
    Behind log request p ∨ p event ∧ request ∈ log := by
  refine ((behind_append_last _).mp h).imp_right fun hnow => ?_
  obtain ⟨event', heq, hnow⟩ := hnow
  obtain rfl := Entry.handled.inj heq
  exact hnow

theorem opCancelled_event (h : OpCancelled (log ++ [.handled event]) n) :
    OpCancelled log n ∨ ∃ id, event.cancels id = true ∧ .opRequested n id ∈ log := by
  obtain ⟨id, h⟩ := h
  exact (behind_append_event h).imp (⟨id, ·⟩) (⟨id, ·⟩)

theorem txCancelled_event (h : TxCancelled (log ++ [.handled event]) n) :
    TxCancelled log n ∨ ∃ id m, event.cancels id = true ∧ .txRequested n id m ∈ log := by
  obtain ⟨id, m, h⟩ := h
  exact (behind_append_event h).imp (⟨id, m, ·⟩) (⟨id, m, ·⟩)

theorem txEnded_event (h : TxEnded (log ++ [.handled event]) n) :
    TxEnded log n ∨ ∃ id m, event.cancels id = true ∧ event ≠ .disconnected id ∧
      .txRequested n id m ∈ log := by
  obtain ⟨id, m, h⟩ := h
  exact (behind_append_event h).imp (⟨id, m, ·⟩) fun hnow => ⟨id, m, and_assoc.mp hnow⟩

theorem TxEnded.cancelled (h : TxEnded log n) : TxCancelled log n := by
  obtain ⟨id, m, before, event, hprefix, hp, hmem⟩ := h
  exact ⟨id, m, before, event, hprefix, hp.1, hmem⟩

theorem prefix_take_concat {i : Nat} {e : Entry} (h : log[i]? = some e) :
    log.take i ++ [e] <+: log := by
  have hnext : log.take (i + 1) = log.take i ++ [e] := by
    rw [List.take_add_one, h]
    rfl
  rw [← hnext]
  exact List.take_prefix _ log

/-- A request and a later event, by their places in the log. -/
theorem opCancelled_of_log {i j n : Nat} {id : DeviceId} {event : ActorEvent} (hij : i < j)
    (hrequest : log[i]? = some (.opRequested n id)) (hevent : log[j]? = some (.handled event))
    (hcancels : event.cancels id = true) : OpCancelled log n := by
  refine ⟨id, log.take j, event, prefix_take_concat hevent, hcancels, ?_⟩
  refine List.mem_of_getElem? (i := i) ?_
  rw [List.getElem?_take_of_lt hij]
  exact hrequest

def Entry.opSubmit? : Entry → Option Nat
  | .op n (.submit ..) => some n
  | _ => none

def Entry.txSubmit? : Entry → Option Nat
  | .tx n (.submit ..) => some n
  | _ => none

theorem Entry.aside.plain {e : Entry} (h : e.aside) :
    (∀ event, e ≠ .handled event) ∧ e.opSubmit? = none ∧ e.txSubmit? = none := by
  cases e with
  | granted | gone => simp [Entry.opSubmit?, Entry.txSubmit?]
  | answered job status => simp [Entry.opSubmit?, Entry.txSubmit?]
  | _ => exact h.elim

namespace Worker

/-- Nothing that was cancelled is queued or running, or has a command submitted. A disconnect leaves
a transaction whose commit was sent waiting for the device. -/
structure Stopped (w : Worker) : Prop where
  ops : ∀ i, (w.actor.ops i).active = true → ¬ OpCancelled w.log (w.opSerial i)
  opSubmits : NoneLate Entry.opSubmit? OpCancelled w.log
  ended : ∀ k, (w.store.tx k).active = true → ¬ TxEnded w.log (w.txSerial k)
  waits : ∀ k, (w.store.tx k).active = true → TxCancelled w.log (w.txSerial k) →
    (w.store.tx k).state.working = false
  txSubmits : NoneLate Entry.txSubmit? TxCancelled w.log

/-- The event finds all operations of the device that it cancels, and no lease begins a transaction
that waits for its device. -/
def Admits (w : Worker) (acquired : Bool) : ActorEvent → Prop
  | .disconnected id | .cancelDevice id | .forgetDevice id => w.actor.Finds acquired id
  | .txLeaseResult generation owner ok lease origin =>
      ∀ k, w.turns (.txLeaseResult generation owner ok lease origin) k →
        (w.store.tx k).state.working = true
  | _ => True

/-- The condition on a step. -/
def Reaches (w : Worker) : Act → Prop
  | .actor acquired _ _ =>
      match w.actor.events with
      | [] => True
      | event :: _ => w.Admits acquired event
  | _ => True

instance (w : Worker) (acquired : Bool) (event : ActorEvent) :
    Decidable (w.Admits acquired event) := by
  apply ActorEvent.casesOn (motive := fun event => Decidable (w.Admits acquired event)) event <;>
    intros <;> unfold Admits <;> infer_instance

instance (w : Worker) (l : Act) : Decidable (w.Reaches l) := by
  cases l with
  | actor acquired submitted armed =>
      unfold Reaches
      cases w.actor.events <;> infer_instance
  | _ => exact isTrue trivial

/-! ## One step -/

variable {w w' : Worker}

/-- Nothing is taken from the queue; what is in use was in use before, or is new. -/
theorem Stopped.quiet (h : w.Stopped) (hlog : w'.log = w.log ++ entries)
    (hquiet : Eventless entries) (hop : ∀ e ∈ entries, e.opSubmit? = none)
    (htx : ∀ e ∈ entries, e.txSubmit? = none)
    (hops : ∀ i, (w'.actor.ops i).active = true →
      ((w.actor.ops i).active = true ∧ w'.opSerial i = w.opSerial i) ∨
        ¬ OpCancelled w.log (w'.opSerial i))
    (htxs : ∀ k, (w'.store.tx k).active = true →
      ((w.store.tx k).active = true ∧ w'.txSerial k = w.txSerial k ∧
        (w.store.tx k).Stays (w'.store.tx k)) ∨ ¬ TxCancelled w.log (w'.txSerial k)) :
    w'.Stopped := by
  refine ⟨fun i hi hc => ?_, ?_, fun k hk hc => ?_, fun k hk hc => ?_, ?_⟩
  · rw [hlog, opCancelled_quiet hquiet] at hc
    rcases hops i hi with hold | hnew
    · exact h.ops i hold.1 (hold.2 ▸ hc)
    · exact hnew hc
  · rw [hlog]
    exact h.opSubmits.append hquiet (fun _ hq n => (opCancelled_quiet hq n).mp) fun e he n hn => by
      rw [hop e he] at hn
      cases hn
  · rw [hlog, txEnded_quiet hquiet] at hc
    rcases htxs k hk with hold | hnew
    · exact h.ended k hold.1 (hold.2.1 ▸ hc)
    · exact hnew hc.cancelled
  · rw [hlog, txCancelled_quiet hquiet] at hc
    rcases htxs k hk with hold | hnew
    · have hwaits := h.waits k hold.1 (hold.2.1 ▸ hc)
      exact hold.2.2.elim (fun hsame => hsame.1 ▸ hwaits) id
    · exact absurd hc hnew
  · rw [hlog]
    exact h.txSubmits.append hquiet (fun _ hq n => (txCancelled_quiet hq n).mp) fun e he n hn => by
      rw [htx e he] at hn
      cases hn

/-- The operations that an event cancels are ended. -/
theorem handle_ends (h : w.Numbered) {acquired submitted : Bool} (hadmits : w.Admits acquired event)
    {rest : List ActorEvent} {id : DeviceId} (hcancels : event.cancels id = true) {i : OpIx}
    (hi : (({ w.actor with events := rest }.handle acquired submitted
      event).1.ops i).active = true) :
    (({ w.actor with events := rest }.handle acquired submitted event).1.ops i).deviceId ≠ id := by
  have hsound : ({ w.actor with events := rest } : Actor).Sound := h.sound
  have hends (hfinds : w.actor.Finds acquired id) (hi : (({ w.actor with
      events := rest }.cancelDevice id acquired).1.ops i).active = true) :
      (({ w.actor with events := rest }.cancelDevice id acquired).1.ops i).deviceId ≠ id :=
    Actor.cancelDevice_ends hsound hfinds hi
  cases event with
  | disconnected k | cancelDevice k | forgetDevice k =>
      obtain rfl : k = id := of_decide_eq_true hcancels
      exact hends hadmits hi
  | _ => cases hcancels

/-- The transaction that an event cancels is ended, or waits for the device. -/
theorem txRound_ends (h : w.Numbered) {acquired submitted armed : Bool} {id : DeviceId}
    (hcancels : event.cancels id = true) {k : Tx}
    (hk : ((w.txRound acquired submitted armed event).1.tx k).active = true)
    (hid : (w.store.tx k).deviceId = id) :
    event = .disconnected id ∧
      ((w.txRound acquired submitted armed event).1.tx k).state = .waitingReboot := by
  have hbefore := ((w.txRound_moves acquired submitted armed event).slot hk).1.active.symm.trans hk
  have hnamed : id.text ≠ [] := hid ▸ h.named k hbefore
  cases event with
  | disconnected k' =>
      obtain rfl : k' = id := of_decide_eq_true hcancels
      exact ⟨rfl, Transactions.actorDisconnect_ends h.distinct hnamed armed hk hid⟩
  | cancelDevice k' | forgetDevice k' =>
      obtain rfl : k' = id := of_decide_eq_true hcancels
      exact absurd hid (Transactions.actorAbort_ends h.distinct hnamed hk)
  | _ => cases hcancels

/-- A transaction that sends a command is not one that waits for its device. -/
theorem working_of_turns {acquired : Bool} (hadmits : w.Admits acquired event) {k : Tx}
    (hturn : w.turns event k) :
    (w.store.tx k).state.working = true ∧ ∀ id, event.cancels id = false := by
  cases event with
  | txLeaseResult generation owner ok lease origin => exact ⟨hadmits k hturn, fun _ => rfl⟩
  | txCommandComplete id result origin =>
      obtain ⟨-, -, hgoes⟩ := hturn
      refine ⟨?_, fun _ => rfl⟩
      cases hstate : (w.store.tx k).state <;> rw [hstate] at hgoes <;> first | rfl | cases hgoes
  | _ => exact hturn.elim

theorem eventless_opEntries (w : Worker) (ops : List OpAction) :
    Eventless (ops.map w.opEntry) := by
  intro e he
  obtain ⟨action, -, rfl⟩ := List.mem_map.mp he
  cases action <;> exact fun _ heq => by cases heq

theorem eventless_txEntries (w : Worker) (txs : List TxAction) :
    Eventless (txs.map w.txEntry) := by
  intro e he
  obtain ⟨action, -, rfl⟩ := List.mem_map.mp he
  cases action <;> exact fun _ heq => by cases heq

theorem txSubmit?_opEntry (w : Worker) (action : OpAction) :
    (w.opEntry action).txSubmit? = none := by
  cases action <;> rfl

theorem opSubmit?_txEntry (w : Worker) (action : TxAction) :
    (w.txEntry action).opSubmit? = none := by
  cases action <;> rfl

/-- Operations and transactions are as they were. -/
theorem Stopped.same (h : w.Stopped) (hsame : w.SameWork w') (hlog : w'.log = w.log ++ entries)
    (hquiet : Eventless entries) (hop : ∀ e ∈ entries, e.opSubmit? = none)
    (htx : ∀ e ∈ entries, e.txSubmit? = none) : w'.Stopped := by
  refine h.quiet hlog hquiet hop htx (fun i hi => Or.inl ?_) fun k hk => Or.inl ?_
  · rw [hsame.ops] at hi
    exact ⟨hi, by rw [hsame.opSerial]⟩
  · have hsame' := hsame.table k (Or.inr hk)
    refine ⟨(congrArg Transaction.active hsame').symm.trans hk, by rw [hsame.txSerial], Or.inl ?_⟩
    exact ⟨congrArg Transaction.state hsame', congrArg Transaction.nextChangeIndex hsame'⟩

/-- A new operation has a number that nothing cancelled has. -/
theorem Stopped.requested (hn : w.Numbered) (h : w.Stopped) {id : DeviceId} {slot : OpIx}
    (haccepts : w.actor.Accepts id slot w'.actor) (hstore : w'.store = w.store)
    (hopSerial : w'.opSerial = Function.update w.opSerial slot w.clock)
    (htxSerial : w'.txSerial = w.txSerial) (hlog : w'.log = w.log ++ [.opRequested w.clock id]) :
    w'.Stopped := by
  obtain ⟨r, hops, -, -⟩ := haccepts.record
  refine h.quiet hlog (by simp [Eventless]) (by simp [Entry.opSubmit?]) (by simp [Entry.txSubmit?])
    (fun i hi => ?_) fun k hk => Or.inl ?_
  · rw [hopSerial]
    by_cases hslot : i = slot
    · rw [hslot, Function.update_self]
      exact Or.inr fun ⟨id', hc⟩ => Nat.lt_irrefl _ (hn.opBelow _ id' hc.mem)
    · rw [hops, Function.update_of_ne hslot] at hi
      exact Or.inl ⟨hi, by rw [Function.update_of_ne hslot]⟩
  · rw [hstore] at hk ⊢
    exact ⟨hk, by rw [htxSerial], Or.inl ⟨rfl, rfl⟩⟩

/-- As before, for a new transaction. -/
theorem Stopped.saved (hn : w.Numbered) (h : w.Stopped) {id : DeviceId}
    {changes : List ChangeRequest} {k : Tx}
    (haccepts : w.store.table.Accepts id changes k w'.store.table)
    (hops : w'.actor.ops = w.actor.ops) (hopSerial : w'.opSerial = w.opSerial)
    (htxSerial : w'.txSerial = Function.update w.txSerial k w.clock)
    (hlog : w'.log = w.log ++ [.txRequested w.clock id changes.length]) : w'.Stopped := by
  obtain ⟨tx, htxns, -⟩ := haccepts.record
  refine h.quiet hlog (by simp [Eventless]) (by simp [Entry.opSubmit?]) (by simp [Entry.txSubmit?])
    (fun i hi => Or.inl ?_) fun j hj => ?_
  · rw [hops] at hi
    exact ⟨hi, by rw [hopSerial]⟩
  · rw [htxSerial]
    by_cases hjk : j = k
    · rw [hjk, Function.update_self]
      exact Or.inr fun ⟨id', m, hc⟩ => Nat.lt_irrefl _ (hn.txBelow _ id' m hc.mem)
    · have hother : w'.store.tx j = w.store.tx j := by
        show w'.store.table.txns j = w.store.table.txns j
        rw [htxns, Function.update_of_ne hjk]
      rw [hother] at hj ⊢
      exact Or.inl ⟨hj, by rw [Function.update_of_ne hjk], Or.inl ⟨rfl, rfl⟩⟩

/-- Transactions move, and none of them sends a command. -/
theorem Stopped.moved (h : w.Stopped) {r : TxStep}
    (hmoves : Transactions.Moves (fun _ => False) w.store r) (hstore : w'.store = r.1)
    (hactor : w'.actor = w.actor) (hopSerial : w'.opSerial = w.opSerial)
    (htxSerial : w'.txSerial = w.txSerial) (hlog : w'.log = w.log ++ r.2.map w.txEntry) :
    w'.Stopped := by
  refine h.quiet hlog (w.eventless_txEntries r.2) (fun e he => ?_) (fun e he => ?_)
    (fun i hi => Or.inl ?_) fun k hk => Or.inl ?_
  · obtain ⟨action, -, rfl⟩ := List.mem_map.mp he
    exact w.opSubmit?_txEntry action
  · obtain ⟨action, haction, rfl⟩ := List.mem_map.mp he
    cases action with
    | submit slot command accepted => exact (hmoves.turns_of_submit haction).elim
    | _ => rfl
  · rw [hactor] at hi
    exact ⟨hi, by rw [hopSerial]⟩
  · rw [hstore] at hk ⊢
    obtain ⟨hsame, hstays⟩ := hmoves.slot hk
    exact ⟨hsame.active.symm.trans hk, by rw [htxSerial], hstays.resolve_left id⟩

section

variable {acquired submitted armed : Bool} {rest : List ActorEvent}

/-- What an event leaves of the operations has not been cancelled. -/
theorem Stopped.round_ops (hn : w.Numbered) (h : w.Stopped) (hadmits : w.Admits acquired event)
    {i : OpIx} (hi : (({ w.actor with events := rest }.handle acquired submitted
      event).1.ops i).active = true) :
    ¬ OpCancelled (w.log ++ [.handled event]) (w.opSerial i) := by
  intro hc
  have hsound : ({ w.actor with events := rest } : Actor).Sound := hn.sound
  obtain ⟨hused, hid⟩ := (Actor.follows_handle hsound acquired submitted event).tame i hi
  rcases opCancelled_event hc with hbefore | ⟨id, hcancels, hmem⟩
  · exact h.ops i hused hbefore
  · have hdevice := hn.opUnique _ _ _ hmem (hn.opKnown i hused)
    exact handle_ends hn hadmits hcancels hi (hid.trans hdevice.symm)

/-- The operation of a submitted command is the active one, and the event cancels nothing. -/
theorem Stopped.round_opSubmit (hn : w.Numbered) (h : w.Stopped) {action : OpAction}
    (hmem : action ∈ ({ w.actor with events := rest }.handle acquired submitted event).2)
    (hsome : (w.opEntry action).opSubmit? = some n) :
    ¬ OpCancelled (w.log ++ [.handled event]) n := by
  intro hc
  cases action with
  | submit slot id kind accepted =>
      obtain ⟨hof, hnot⟩ := Actor.handle_of acquired submitted event _ hmem
      obtain rfl : w.opSerial slot = n := Option.some.inj hsome
      rcases opCancelled_event hc with hbefore | ⟨id', hcancels, -⟩
      · obtain ⟨op, hop, rfl⟩ := Option.map_eq_some_iff.mp hof
        exact h.ops _ (hn.sound op hop) hbefore
      · exact hnot ⟨id', hcancels⟩
  | _ => cases hsome

/-- What an event leaves of the transactions has not been ended. -/
theorem Stopped.round_ended (hn : w.Numbered) (h : w.Stopped) {k : Tx}
    (hk : ((w.txRound acquired submitted armed event).1.tx k).active = true) :
    ¬ TxEnded (w.log ++ [.handled event]) (w.txSerial k) := by
  intro hc
  have hused := ((w.txRound_moves acquired submitted armed event).slot hk).1.active.symm.trans hk
  rcases txEnded_event hc with hbefore | ⟨id, m, hcancels, hne, hmem⟩
  · exact h.ended k hused hbefore
  · have hdevice := (hn.txUnique _ _ _ _ _ hmem (hn.txKnown k hused)).1
    exact hne (txRound_ends hn hcancels hk hdevice.symm).1

/-- A cancelled transaction waits, and goes on waiting. -/
theorem Stopped.round_waits (hn : w.Numbered) (h : w.Stopped) (hadmits : w.Admits acquired event)
    {k : Tx} (hk : ((w.txRound acquired submitted armed event).1.tx k).active = true)
    (hc : TxCancelled (w.log ++ [.handled event]) (w.txSerial k)) :
    ((w.txRound acquired submitted armed event).1.tx k).state.working = false := by
  obtain ⟨hsame, hstays⟩ := (w.txRound_moves acquired submitted armed event).slot hk
  have hused := hsame.active.symm.trans hk
  rcases txCancelled_event hc with hbefore | ⟨id, m, hcancels, hmem⟩
  · have hwaits := h.waits k hused hbefore
    rcases hstays with hturn | hstays
    · rw [(working_of_turns hadmits hturn).1] at hwaits
      cases hwaits
    · exact hstays.elim (fun hsame => hsame.1 ▸ hwaits) id
  · have hdevice := (hn.txUnique _ _ _ _ _ hmem (hn.txKnown k hused)).1
    rw [(txRound_ends hn hcancels hk hdevice.symm).2]
    rfl

/-- The transaction of a submitted command is at work, and the event cancels nothing. -/
theorem Stopped.round_txSubmit (h : w.Stopped) (hadmits : w.Admits acquired event)
    {action : TxAction} (hmem : action ∈ (w.txRound acquired submitted armed event).2)
    (hsome : (w.txEntry action).txSubmit? = some n) :
    ¬ TxCancelled (w.log ++ [.handled event]) n := by
  intro hc
  cases action with
  | submit k command accepted =>
      have hturn := (w.txRound_moves acquired submitted armed event).turns_of_submit hmem
      obtain ⟨hworks, hnot⟩ := working_of_turns hadmits hturn
      obtain rfl : w.txSerial k = n := Option.some.inj hsome
      rcases txCancelled_event hc with hbefore | ⟨id', m, hcancels, -⟩
      · rw [h.waits k (active_of_turns hturn) hbefore] at hworks
        cases hworks
      · rw [hnot id'] at hcancels
        cases hcancels
  | _ => cases hsome

/-- The actor takes an event. -/
theorem Stopped.round (hn : w.Numbered) (h : w.Stopped) (hadmits : w.Admits acquired event)
    (hstore : w'.store = (w.txRound acquired submitted armed event).1)
    (hactor : w'.actor = ({ w.actor with events := rest }.handle acquired submitted event).1)
    (hopSerial : w'.opSerial = w.opSerial) (htxSerial : w'.txSerial = w.txSerial)
    (hlog : w'.log = w.log ++ [.handled event] ++
      (({ w.actor with events := rest }.handle acquired submitted event).2.map w.opEntry ++
        (w.txRound acquired submitted armed event).2.map w.txEntry)) : w'.Stopped := by
  have hquiet (ops : List OpAction) (txs : List TxAction) :
      Eventless (ops.map w.opEntry ++ txs.map w.txEntry) := fun e he =>
    (List.mem_append.mp he).elim (w.eventless_opEntries ops e) (w.eventless_txEntries txs e)
  refine ⟨fun i hi hc => ?_, ?_, fun k hk hc => ?_, fun k hk hc => ?_, ?_⟩
  · rw [hlog, opCancelled_quiet (hquiet _ _), hopSerial] at hc
    rw [hactor] at hi
    exact h.round_ops hn hadmits hi hc
  · rw [hlog]
    refine (h.opSubmits.append_last fun n hnone => by cases hnone).append (hquiet _ _)
      (fun _ hq n => (opCancelled_quiet hq n).mp) fun e he n hsome => ?_
    rcases List.mem_append.mp he with he | he
    · obtain ⟨action, haction, rfl⟩ := List.mem_map.mp he
      exact h.round_opSubmit hn haction hsome
    · obtain ⟨action, -, rfl⟩ := List.mem_map.mp he
      cases (w.opSubmit?_txEntry action).symm.trans hsome
  · rw [hlog, txEnded_quiet (hquiet _ _), htxSerial] at hc
    rw [hstore] at hk
    exact h.round_ended hn hk hc
  · rw [hlog, txCancelled_quiet (hquiet _ _), htxSerial] at hc
    rw [hstore] at hk ⊢
    exact h.round_waits hn hadmits hk hc
  · rw [hlog]
    refine (h.txSubmits.append_last fun n hnone => by cases hnone).append (hquiet _ _)
      (fun _ hq n => (txCancelled_quiet hq n).mp) fun e he n hsome => ?_
    rcases List.mem_append.mp he with he | he
    · obtain ⟨action, -, rfl⟩ := List.mem_map.mp he
      cases (w.txSubmit?_opEntry action).symm.trans hsome
    · obtain ⟨action, haction, rfl⟩ := List.mem_map.mp he
      exact h.round_txSubmit hadmits haction hsome

end

/-- **One step** stops what it should. -/
theorem Stopped.step (hn : w.Numbered) (h : w.Stopped) {l : Act} (hok : w.Reaches l)
    (hstep : w.step l = some w') : w'.Stopped := by
  cases step_cases hn.calls hstep with
  | quiet same jobs events log =>
      obtain ⟨entries, hlog, haside⟩ := log
      exact h.same same hlog (fun e he => (haside e he).plain.1)
        (fun e he => (haside e he).plain.2.1) fun e he => (haside e he).plain.2.2
  | answered n job status same found jobs events log =>
      exact h.same same log (by simp [Eventless]) (by simp [Entry.opSubmit?])
        (by simp [Entry.txSubmit?])
  | requested id slot accepts store opSerial txSerial clock jobs log =>
      exact h.requested hn accepts store opSerial txSerial log
  | saved id changes k accepts ops active events opSerial txSerial clock jobs log =>
      exact h.saved hn accepts ops opSerial txSerial log
  | moved r moves store actor opSerial txSerial clock jobs log =>
      exact h.moved moves store actor opSerial txSerial log
  | round acquired submitted armed event rest r events did moves store actor opSerial txSerial
      clock jobs log =>
      subst did
      have hadmits : w.Admits acquired event := by
        rw [Reaches, events] at hok
        exact hok
      exact h.round hn hadmits store actor opSerial txSerial (log.trans (List.append_assoc ..))

/-! ## Runs -/

theorem Stopped.init : ({} : Worker).Stopped where
  ops _ h := by cases h
  opSubmits before e h := absurd (List.prefix_nil.mp h) (by simp)
  ended _ h := by cases h
  waits _ h := by cases h
  txSubmits before e h := absurd (List.prefix_nil.mp h) (by simp)

/-- **Cancelled work is stopped** in every run in which the cancelling events find it. -/
theorem cancelled_stopped (h : machine.ReachableWhen Reaches w) : w.Stopped := by
  suffices hboth : w.Numbered ∧ w.Stopped from hboth.2
  refine Machine.ReachableWhen.invariant (I := fun w => w.Numbered ∧ w.Stopped) (fun w hw => ?_)
    (fun w l w' hI hok hstep => ?_) h
  · rw [hw]
    exact ⟨.init, .init⟩
  · exact ⟨hI.1.step hstep, hI.2.step hI.1 hok hstep⟩

/-- The operation of the lamp is cancelled while its command is under way. -/
def foundRun : List Act := askRun ++ [.cancel lamp, .actor true true true]

theorem cancelled_stopped_found : ∃ w : Worker, OpCancelled w.log 0 ∧ w.Stopped := by
  have hrun : ((machine.runWhen Reaches {} foundRun).map fun w =>
      decide (w.log[0]? = some (.opRequested 0 lamp) ∧
        w.log[6]? = some (.handled (.cancelDevice lamp)))) = some true := by
    decide +kernel
  obtain ⟨w, hw, hp⟩ := Machine.exists_reachableWhen_of_run (M := machine) rfl hrun
  obtain ⟨hrequest, hevent⟩ := of_decide_eq_true hp
  exact ⟨w, opCancelled_of_log (by decide) hrequest hevent (by decide), cancelled_stopped hw⟩

/-- The operation of the fan waits behind that of the lamp when it is cancelled. -/
def behindRun : List Act :=
  [.describe lamp, .actor true true true, .describe fan, .actor true true true, .cancel fan,
    .actor true true true]

/-- The operation of the lamp ends, and that of the fan is cancelled once more. -/
def resumedRun : List Act :=
  behindRun ++ [.leaseDone 0 false 0, .actor true true true, .cancel fan, .actor true true true,
    .leaseDone 0 true 1, .actor true true true]

/-- The cancelled operation of the fan is still queued; later it submits its command. -/
theorem cancelled_not_stopped :
    (∃ w, machine.Reachable w ∧ ¬ w.Stopped ∧ OpCancelled w.log 1 ∧
      (w.actor.ops 1).active = true ∧ (w.actor.ops 1).deviceId = fan ∧
      (w.actor.ops 1).state = .queued) ∧
    ∃ w before, machine.Reachable w ∧ OpCancelled before 1 ∧
      before ++ [.op 1 (.submit 1 fan .describe true)] <+: w.log := by
  have hbehind : ((machine.run {} behindRun).map fun w =>
      decide (w.log[3]? = some (.opRequested 1 fan) ∧
        w.log[5]? = some (.handled (.cancelDevice fan)) ∧ w.opSerial 1 = 1 ∧
        (w.actor.ops 1).active = true ∧ (w.actor.ops 1).deviceId = fan ∧
        (w.actor.ops 1).state = .queued)) = some true := by
    decide +kernel
  have hresumed : ((machine.run {} resumedRun).map fun w =>
      decide (w.log[3]? = some (.opRequested 1 fan) ∧
        w.log[5]? = some (.handled (.cancelDevice fan)) ∧
        w.log[14]? = some (.op 1 (.submit 1 fan .describe true)))) = some true := by
    decide +kernel
  constructor
  · obtain ⟨w, hw, hp⟩ := Machine.exists_reachable_of_run (M := machine) rfl hbehind
    obtain ⟨hrequest, hevent, hserial, hactive, hid, hstate⟩ := of_decide_eq_true hp
    have hc : OpCancelled w.log 1 := opCancelled_of_log (by decide) hrequest hevent (by decide)
    exact ⟨w, hw, fun h => h.ops 1 hactive (hserial ▸ hc), hc, hactive, hid, hstate⟩
  · obtain ⟨w, hw, hp⟩ := Machine.exists_reachable_of_run (M := machine) rfl hresumed
    obtain ⟨hrequest, hevent, hsubmit⟩ := of_decide_eq_true hp
    refine ⟨w, w.log.take 14, hw, ?_, prefix_take_concat hsubmit⟩
    refine @opCancelled_of_log _ 3 5 1 fan (.cancelDevice fan) (by decide) ?_ ?_ (by decide)
    · rw [List.getElem?_take_of_lt (by decide)]
      exact hrequest
    · rw [List.getElem?_take_of_lt (by decide)]
      exact hevent

end Worker

end BleGateway.Settings
