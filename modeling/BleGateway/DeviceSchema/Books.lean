import BleGateway.DeviceSchema.Refreshing
import BleGateway.DeviceSchema.Waiting

/-! # The books of the refreshes

A generation that `device_schema_refresh` hands out is in progress until it is recorded as
completed, given up by a failing call or forgotten with its device. Several branches lose a
generation, record another one or record one twice; in a run that takes none of them the books
balance.
-/

namespace BleGateway.DeviceSchema

open Scheduler (nextId nextId_ne_zero)

/-! ## The books -/

namespace Entry

def device : Entry → DeviceId
  | .reserved id _ | .refused id _ | .withdrawn id _ | .completed id _ _ | .forgotten id _
  | .revived id _ => id

/-- The entry puts the generation in progress. -/
def opens (id : DeviceId) (generation : UInt32) : Entry → Bool
  | .reserved id' generation' | .revived id' generation' => id' = id && generation' = generation
  | _ => false

/-- The entry ends the progress of the generation. -/
def closes (id : DeviceId) (generation : UInt32) : Entry → Bool
  | .completed id' outcome _ => id' = id && outcome.generation = generation
  | .withdrawn id' generation' | .forgotten id' generation' =>
      id' = id && generation' = generation
  | _ => false

/-- The entry records the generation as completed. -/
def completes (id : DeviceId) (generation : UInt32) : Entry → Bool
  | .completed id' outcome _ => id' = id && outcome.generation = generation
  | _ => false

variable {e : Entry}

theorem opens_of_ne {id : DeviceId} {generation : UInt32} (h : e.device ≠ id) :
    e.opens id generation = false := by
  cases e <;> simp_all [opens, device]

theorem closes_of_ne {id : DeviceId} {generation : UInt32} (h : e.device ≠ id) :
    e.closes id generation = false := by
  cases e <;> simp_all [closes, device]

variable {log : List Entry} {id : DeviceId} {generation : UInt32}

/-- Where nothing is revived, a generation is in progress after it is handed out. -/
theorem countP_opens (h : .revived id generation ∉ log) :
    log.countP (opens id generation) = log.count (.reserved id generation) := by
  rw [List.count]
  refine List.countP_congr fun e he => ?_
  cases e with
  | reserved id' generation' => simp [opens]
  | revived id' generation' =>
      simp only [opens, Bool.and_eq_true, decide_eq_true_eq, beq_iff_eq, reduceCtorEq, iff_false]
      rintro ⟨rfl, rfl⟩
      exact h he
  | _ => simp [opens]

/-- Where nothing is forgotten or withdrawn, a refresh ends when it is recorded. -/
theorem countP_closes (hf : .forgotten id generation ∉ log)
    (hw : .withdrawn id generation ∉ log) :
    log.countP (closes id generation) = log.countP (completes id generation) := by
  refine List.countP_congr fun e he => ?_
  cases e with
  | withdrawn id' generation' =>
      simp only [closes, completes, Bool.and_eq_true, decide_eq_true_eq, Bool.false_eq_true,
        iff_false]
      rintro ⟨rfl, rfl⟩
      exact hw he
  | forgotten id' generation' =>
      simp only [closes, completes, Bool.and_eq_true, decide_eq_true_eq, Bool.false_eq_true,
        iff_false]
      rintro ⟨rfl, rfl⟩
      exact hf he
  | _ => rfl

end Entry

/-- One for the refresh in progress. -/
def Sys.open (s : Sys) (id : DeviceId) (generation : UInt32) : Nat :=
  if s.refreshing id = some generation then 1 else 0

/-- What was put in progress has ended or is in progress. -/
def Sys.Balanced (s : Sys) : Prop := ∀ id generation, generation ≠ 0 →
  s.history.log.countP (Entry.opens id generation) =
    s.history.log.countP (Entry.closes id generation) + s.open id generation

namespace Sys.Balanced

variable {s s' : Sys} {id : DeviceId}

/-- **The books after a step** that is about one device. -/
theorem step (h : s.Balanced) (id : DeviceId) (entries : List Entry)
    (hlog : s'.history.log = entries ++ s.history.log)
    (hdev : ∀ e ∈ entries, e.device = id)
    (hother : ∀ x, x ≠ id → s'.refreshing x = s.refreshing x)
    (hself : ∀ generation, generation ≠ 0 →
      entries.countP (Entry.opens id generation) + s.open id generation =
        entries.countP (Entry.closes id generation) + s'.open id generation) : s'.Balanced := by
  intro x generation hg
  have hbefore := h x generation hg
  rw [hlog, List.countP_append, List.countP_append]
  by_cases hx : x = id
  · subst hx
    have := hself generation hg
    omega
  · have hopens : entries.countP (Entry.opens x generation) = 0 := by
      refine List.countP_eq_zero.mpr fun e he => ?_
      rw [Entry.opens_of_ne (by rw [hdev e he]; exact Ne.symm hx)]
      simp
    have hcloses : entries.countP (Entry.closes x generation) = 0 := by
      refine List.countP_eq_zero.mpr fun e he => ?_
      rw [Entry.closes_of_ne (by rw [hdev e he]; exact Ne.symm hx)]
      simp
    have hopen : s'.open x generation = s.open x generation := by
      rw [Sys.open, Sys.open, hother x hx]
    omega

/-- Nothing is entered, and every refresh stays as it is. -/
theorem silent (h : s.Balanced) (hlog : s'.history.log = s.history.log)
    (hsame : ∀ x, s'.refreshing x = s.refreshing x) : s'.Balanced := by
  refine h.step .empty [] hlog (by simp) (fun x _ => hsame x) fun g _ => ?_
  simp [Sys.open, hsame]

/-- The refresh of a device ends, or stays as it is. -/
theorem ended (h : s.Balanced) {mk : UInt32 → Entry} (first : List Entry)
    (hmk : mk = .withdrawn id ∨ mk = .forgotten id)
    (hfirst : ∀ e ∈ first, ∃ generation, e = .refused id generation)
    (hlog : s'.history.log =
      first ++ Sys.endedEntries mk (s.refreshing id) (s'.refreshing id) ++ s.history.log)
    (hother : ∀ x, x ≠ id → s'.refreshing x = s.refreshing x)
    (hself : s'.refreshing id = none ∨ s'.refreshing id = s.refreshing id) : s'.Balanced := by
  have hzero : ∀ generation, first.countP (Entry.opens id generation) = 0 ∧
      first.countP (Entry.closes id generation) = 0 := by
    intro generation
    constructor <;> refine List.countP_eq_zero.mpr fun e he => ?_ <;>
      obtain ⟨g, rfl⟩ := hfirst e he <;> simp [Entry.opens, Entry.closes]
  have hdevice : ∀ e ∈ Sys.endedEntries mk (s.refreshing id) (s'.refreshing id),
      e.device = id := by
    intro e he
    unfold Sys.endedEntries at he
    split at he
    · obtain rfl := List.mem_singleton.mp he
      rcases hmk with rfl | rfl <;> rfl
    · cases he
  refine h.step id _ hlog (fun e he => ?_) hother fun generation hg => ?_
  · rcases List.mem_append.mp he with he | he
    · obtain ⟨g, rfl⟩ := hfirst e he
      rfl
    · exact hdevice e he
  · rw [List.countP_append, List.countP_append, (hzero generation).1, (hzero generation).2]
    unfold Sys.open
    rcases hself with hnone | hsame
    · rw [hnone]
      cases hbefore : s.refreshing id with
      | none => simp [Sys.endedEntries]
      | some g =>
          rcases hmk with rfl | rfl <;>
            simp [Sys.endedEntries, Entry.opens, Entry.closes, List.countP_cons]
    · rw [hsame]
      cases hbefore : s.refreshing id <;> simp [Sys.endedEntries]

/-- The refresh of a device is in progress again, or stays as it is. -/
theorem revived (h : s.Balanced)
    (hlog : s'.history.log =
      Sys.revivedEntries id (s.refreshing id) (s'.refreshing id) ++ s.history.log)
    (hother : ∀ x, x ≠ id → s'.refreshing x = s.refreshing x)
    (hself : s.refreshing id = none ∨ s'.refreshing id = s.refreshing id) : s'.Balanced := by
  refine h.step id _ hlog (fun e he => ?_) hother fun generation hg => ?_
  · unfold Sys.revivedEntries at he
    split at he
    · rw [List.mem_singleton.mp he]
      rfl
    · cases he
  · unfold Sys.open
    rcases hself with hnone | hsame
    · rw [hnone]
      cases hafter : s'.refreshing id with
      | none => simp [Sys.revivedEntries]
      | some g => simp [Sys.revivedEntries, Entry.opens, Entry.closes, List.countP_cons]
    · rw [hsame]
      cases hbefore : s.refreshing id <;> simp [Sys.revivedEntries]

/-- A generation is handed out. -/
theorem reserved (h : s.Balanced) {generation : UInt32}
    (hlog : s'.history.log = .reserved id generation :: s.history.log)
    (hother : ∀ x, x ≠ id → s'.refreshing x = s.refreshing x) (hbefore : s.refreshing id = none)
    (hafter : s'.refreshing id = some generation) : s'.Balanced := by
  refine h.step id [.reserved id generation] hlog (by simp [Entry.device])
    hother fun g _ => ?_
  simp [Sys.open, hbefore, hafter, Entry.opens, Entry.closes, List.countP_cons]

/-- The refresh in progress is recorded as completed. -/
theorem completed (h : s.Balanced) {outcome : RefreshCompleted} {op : Nat}
    (hlog : s'.history.log = .completed id outcome op :: s.history.log)
    (hother : ∀ x, x ≠ id → s'.refreshing x = s.refreshing x)
    (hbefore : s.refreshing id = genOf outcome.generation) (hafter : s'.refreshing id = none) :
    s'.Balanced := by
  refine h.step id [.completed id outcome op] hlog (by simp [Entry.device])
    hother fun g hg => ?_
  unfold Sys.open
  rw [hbefore, hafter]
  unfold genOf
  by_cases hzero : outcome.generation = 0
  · have hne : outcome.generation ≠ g := fun heq => hg (heq.symm.trans hzero)
    simp [hzero, Ne.symm hg, Entry.opens, Entry.closes]
  · simp [hzero, Entry.opens, Entry.closes, List.countP_cons]

end Sys.Balanced

/-! ## The condition -/

namespace Sys

variable (s : Sys)

/-- The refresh of the device is in progress through the owner alone. -/
def runsRefresh (id : DeviceId) : Bool :=
  (s.find id).any fun i =>
    let r := s.records i
    r.operationKind = .manual && r.operationState ≠ .queued && s.owns r &&
      r.refreshActive.generation ≠ 0

/-- The refresh of the device is in progress through its place among the waiting records alone. -/
def waitsRefresh (id : DeviceId) : Bool :=
  (s.find id).any fun i =>
    let r := s.records i
    r.operationKind = .manual && r.operationState = .queued && !s.owns r &&
      r.refreshActive.generation ≠ 0

/-- A disconnect of the device ends a refresh. -/
def disconnectsRefresh (id : DeviceId) : Bool :=
  (s.find id).any fun i =>
    let r := s.records i
    r.operationKind = .manual &&
      (r.operationState = .queued || (r.operationState = .running && s.owns r))

/-- A completion ends the refresh that its command was sent for. A completion with `ok` finds the
snapshot that the stream of this operation has left, or none; a completion for a device without a
record does not end the refresh of another one. -/
def CompletesOwn (context : Context) (result : SubmitResult) : Prop :=
  match s.find context.deviceId with
  | none => s.runsRefresh s.owner.deviceId = false
  | some i =>
      s.finishes context = true → (s.records i).operationKind = .manual →
        s.owns (s.records i) = true ∧
          (s.records i).refreshActive.generation = context.refreshGeneration ∧
          (result = .ok → (s.records i).hasCommitted = true →
            (s.records i).committed.state = .ready)

/-- The generation that `start_discovery` puts in progress for a device without a refresh in
progress. -/
def revives (id : DeviceId) (kind : OperationKind) (generation : UInt32) : Option UInt32 :=
  if s.refreshing id ≠ none then none
  else
    (s.findOrCreate id).bind fun (s₁, i) =>
      let r := s₁.records i
      if s.owner.active then
        if r.operationKind = .manual then genOf r.refreshActive.generation else none
      else if kind = .manual then genOf generation
      else none

end Sys

def Event.KeepsBooks (s : Sys) : Event → Prop
  | .disconnect id => s.disconnectsRefresh id = false
  | .notify id msg => s.breaks id msg = true → s.waitsRefresh id = false
  | .completion context result => s.CompletesOwn context result
  | _ => True

/-- A step that keeps the books. A refresh is accepted only while the owner does not name its
device, and taken back only while it is the one in progress; the completion that the owner waits
for finds room in the queue; no disconnect ends a refresh, no submission of one fails, and no
frame breaks the stream of a waiting one; a completion is as `Sys.CompletesOwn` says; and a
discovery that is started goes on with the refresh in progress, or with one that has been
forgotten. -/
def KeepsBooks (s : Sys) : Label → Prop
  | .refresh id => s.isQueued id = false → s.isRunning id = false → s.owner.active = true →
      s.owner.deviceId ≠ id
  | .call k _ =>
      match s.calls[k]? with
      | some (.rollback id generation) => ∀ g ∈ s.refreshing id, g = generation
      | _ => True
  | .post k => ∀ c ∈ s.done[k]?, s.finishes c.1 = true → s.queue.length < SCHEMA_EVENT_QUEUE_DEPTH
  | .worker _ =>
      match s.worker with
      | .idle => ∀ e ∈ s.queue.head?, e.KeepsBooks s
      | .start id kind generation =>
          (s.owner.active = false → ∀ g ∈ s.refreshing id, kind = .manual ∧ g = generation) ∧
            ∀ g ∈ s.revives id kind generation, .forgotten id g ∈ s.history.log
      | .failed id => s.refreshing id = none ∧ s.runsRefresh s.owner.deviceId = false
      | _ => True
  | _ => True

/-! ## The books balance -/

section Books

variable {s s' s₁ : Sys} {i j : Ix} {id x : DeviceId} {r : Record}

theorem keepsBooks_event {ok : Bool} {e : Event} {rest : List Event}
    (hk : KeepsBooks s (.worker ok)) (hw : s.worker = .idle) (hq : s.queue = e :: rest) :
    e.KeepsBooks s := by
  simp only [KeepsBooks, hw, hq, List.head?_cons, Option.mem_def, Option.some.injEq] at hk
  exact hk e rfl

theorem progress_owner (ho : s'.owner = s.owner) (r : Record) (_ : r.deviceId ≠ id) :
    progress s'.owner r = progress s.owner r := by
  rw [ho]

/-- A record without an operation of its own is not named. -/
theorem names_of_device (hd : s.owner.active = true → s.owner.deviceId ≠ r.deviceId) :
    s.owner.names r = false := by
  by_contra h
  simp only [Owner.names, Bool.not_eq_false, Bool.and_eq_true, decide_eq_true_eq] at h
  exact hd h.1.1 h.1.2

/-- A released owner ends no refresh, if the one of its device does not depend on it. -/
theorem refreshing_release_all (hr : s'.records = s.records) (ho : s'.owner = s.owner.release)
    (hruns : s.runsRefresh s.owner.deviceId = false) (x : DeviceId) :
    s'.refreshing x = s.refreshing x := by
  by_cases hx : x = s.owner.deviceId
  · subst hx
    have hfind : s'.find s.owner.deviceId = s.find s.owner.deviceId := by
      unfold Sys.find
      rw [hr]
    cases hf : s.find s.owner.deviceId with
    | none => rw [Sys.refreshing_of_none hf, Sys.refreshing_of_none (hfind.trans hf)]
    | some i =>
        rw [Sys.refreshing_of_find hf, Sys.refreshing_of_find (hfind.trans hf), hr, ho]
        have hno : ¬((s.records i).operationKind = .manual ∧
            (s.records i).operationState ≠ .queued ∧ s.owner.names (s.records i) = true ∧
            (s.records i).refreshActive.generation ≠ 0) := by
          rintro ⟨hk, hs, hn, hg⟩
          have hn : s.owns (s.records i) = true := hn
          simp [Sys.runsRefresh, hf, hk, hs, hn, hg] at hruns
        unfold progress
        rw [names_release]
        grind
  · refine Sys.refreshing_release hr ho fun _ => Ne.symm hx

/-- While the owner names a device, no refresh of it is accepted. -/
theorem owner_of_accepted (hfc : s.findOrCreate id = some (s₁, i))
    (hidle : (s₁.records i).operationState = .idle) (hk : KeepsBooks s (.refresh id))
    (ho : s.owner.active = true) : s.owner.deviceId ≠ id := by
  have hstate : s.isQueued id = false ∧ s.isRunning id = false := by
    rcases Sys.findOrCreate_cases hfc with ⟨rfl, hf⟩ | ⟨hnone, -, -⟩
    · simp [Sys.isQueued, Sys.isRunning, hf, hidle]
    · simp [Sys.isQueued, Sys.isRunning, hnone]
  exact hk hstate.1 hstate.2 ho

/-- The refresh of the device whose record is accepted for a new one. -/
theorem refreshing_of_accepted (hfc : s.findOrCreate id = some (s₁, i))
    (hidle : (s₁.records i).operationState = .idle)
    (hk : KeepsBooks s (.refresh id)) : s₁.refreshing id = none := by
  have hfound := Sys.findOrCreate_find hfc
  have howner : s₁.owner = s.owner := by rw [Sys.findOrCreate_eq hfc]
  rw [Sys.refreshing_of_find hfound]
  refine progress_none_of_idle (by simp [hidle]) (names_of_device fun ho => ?_)
  rw [howner, (Sys.find_spec hfound).2]
  exact owner_of_accepted hfc hidle hk (howner ▸ ho)

variable {r' : Record} {kind : OperationKind} {op : UInt32} {after before : Option UInt32}
  {e : Entry}

theorem balanced_disconnect (h : s.Balanced) (hw : s.Writes s' id i r')
    (ho : s'.owner = s.owner ∨ s'.owner = s.owner.release ∧ s.owner.deviceId = id)
    (hkind : r'.operationKind = (s.records i).operationKind)
    (hno : (s.records i).operationKind ≠ .manual)
    (hlog : s'.history = s.history.add (completedEntries s id i r')) : s'.Balanced := by
  have hentries : completedEntries s id i r' = [] := if_neg hno
  refine h.silent (by rw [hlog, hentries]; rfl) fun x => ?_
  by_cases hx : x = id
  · subst hx
    rw [hw.self, Sys.refreshing_of_find hw.found, progress_none_of_kind hno,
      progress_none_of_kind (by rwa [hkind])]
  · refine hw.other hx fun r hr => ?_
    rcases ho with ho | ⟨ho, hd⟩
    · rw [ho]
    · rw [ho]
      exact progress_release (fun _ => hd) hr

/-- The operation of the record is as before, so the refresh is too. -/
theorem balanced_sameOperation (h : s.Balanced) (hw : s.Writes s' id i r')
    (hs : (s.records i).SameOperation r') (ho : s'.owner = s.owner)
    (hlog : s'.history.log = s.history.log) : s'.Balanced := by
  refine h.silent hlog fun x => ?_
  by_cases hx : x = id
  · subst hx
    rw [hw.self, Sys.refreshing_of_find hw.found, ho, SameOperation.progress hs hw.device]
  · exact hw.other hx (progress_owner ho)

theorem balanced_finished {context : Context} {result : SubmitResult} (h : s.Balanced)
    (hw : s.Writes s' context.deviceId i ((s.records i).complete context.refreshGeneration result))
    (hd : s.owner.deviceId = context.deviceId) (ho : s'.owner = s.owner.release)
    (hk : (s.records i).operationKind = .manual → s.owns (s.records i) = true ∧
      (s.records i).refreshActive.generation = context.refreshGeneration)
    (hlog : s'.history = s.history.add (completedEntries s context.deviceId i
      ((s.records i).complete context.refreshGeneration result))) : s'.Balanced := by
  by_cases hkind : (s.records i).operationKind = .manual
  · obtain ⟨howns, hgen⟩ := hk hkind
    obtain ⟨hzero, hout⟩ := (s.records i).complete_of_manual hkind context.refreshGeneration result
    have hentries : completedEntries s context.deviceId i
        ((s.records i).complete context.refreshGeneration result) =
        [.completed context.deviceId ((s.records i).complete context.refreshGeneration
          result).refreshLastCompleted (s.history.opNo i)] := if_pos hkind
    refine h.completed (by rw [hlog, hentries]; rfl) (fun x hx => hw.other hx fun r hr => ?_) ?_ ?_
    · rw [ho]
      exact progress_release (fun _ => hd) hr
    · rw [Sys.refreshing_of_find hw.found, progress_of_named hkind (.inr howns), hgen, hout]
    · rw [hw.self]
      exact progress_none_of_zero hzero
  · exact balanced_disconnect h hw (.inr ⟨ho, hd⟩) (by simp) hkind hlog

/-- A write that breaks a stream, or gives it up, leaves the refresh while the owner names it. -/
theorem balanced_broken (h : s.Balanced) (hw : s.Writes s' id i (s.records i).resetError)
    (ho : s'.owner = s.owner) (hlog : s'.history.log = s.history.log)
    (hwaits : s.waitsRefresh id = false) : s'.Balanced := by
  refine h.silent hlog fun x => ?_
  by_cases hx : x = id
  · subst hx
    rw [hw.self, Sys.refreshing_of_find hw.found, ho]
    have hnames : s.owner.names (s.records i).resetError = s.owner.names (s.records i) :=
      names_congr (by simp) (by simp)
    have hno : ¬((s.records i).operationKind = .manual ∧
        (s.records i).operationState = .queued ∧ s.owner.names (s.records i) = false ∧
        (s.records i).refreshActive.generation ≠ 0) := by
      rintro ⟨hk, hs, hn, hg⟩
      have hn : s.owns (s.records i) = false := hn
      simp [Sys.waitsRefresh, hw.found, hk, hs, hn, hg] at hwaits
    unfold progress
    rw [hnames]
    simp only [Record.resetError_operationKind, Record.resetError_operationState,
      Record.resetError_refreshActive]
    grind
  · exact hw.other hx (progress_owner ho)

theorem balanced_failed (h : s.Balanced) (hw : s.Writes s' id i (s.records i).resetError)
    (ho : s'.owner = s.owner.release) (hlog : s'.history.log = s.history.log)
    (hnone : s.refreshing id = none) (hruns : s.runsRefresh s.owner.deviceId = false) :
    s'.Balanced := by
  -- first the owner is released, then the record is written
  let s₁ : Sys := { s with owner := s.owner.release }
  have hrelease : ∀ x, s₁.refreshing x = s.refreshing x := refreshing_release_all rfl rfl hruns
  have hw' : s₁.Writes s' id i (s.records i).resetError :=
    ⟨hw.found, hw.records, hw.used, hw.device⟩
  have ho' : s'.owner = s₁.owner := ho
  refine h.silent hlog fun x => ?_
  by_cases hx : x = id
  · subst hx
    rw [hnone, hw.self, ho]
    exact progress_none_of_idle (by simp) names_release
  · exact (hw'.other hx (progress_owner ho')).trans (hrelease x)

theorem balanced_abandoned (h : s.Balanced) (hw : s.Writes s' id i (s.records i).abandon)
    (ho : s'.owner = if ((s.records i).operationState = .queued ∨
      (s.records i).operationState = .running) ∧ s.owns (s.records i) then s.owner.release
      else s.owner)
    (hlog : s'.history = s.history.add
      (Sys.endedEntries (.forgotten id) (s.refreshing id) (s'.refreshing id))) : s'.Balanced := by
  have hdev := (Sys.find_spec hw.found).2
  have hnames (o : Owner) : o.names (s.records i).abandon = o.names (s.records i) :=
    names_congr rfl rfl
  have howns_device (howns : s.owns (s.records i) = true) : s.owner.deviceId = id :=
    (owns_iff.mp howns).2.1.trans hdev
  refine h.ended [] (.inr rfl) (by simp) (by rw [hlog]; rfl) (fun x hx => ?_) ?_
  · refine hw.other hx fun r hr => ?_
    rw [ho]
    split
    · rename_i hrel
      exact progress_release (fun _ => howns_device hrel.2) hr
    · rfl
  · rw [hw.self, Sys.refreshing_of_find hw.found, ho]
    by_cases hstate : (s.records i).operationState = .queued ∨
        (s.records i).operationState = .running
    · -- an operation ends: the owner does not name the record any more
      refine .inl (progress_none_of_idle (by simp) ?_)
      rw [hnames]
      by_cases howns : s.owns (s.records i) = true
      · rw [if_pos ⟨hstate, howns⟩]
        exact names_release
      · rw [if_neg fun h => howns h.2]
        exact Bool.not_eq_true _ ▸ howns
    · rw [if_neg fun h => hstate h.1]
      have hidle : (s.records i).operationState ≠ .queued := fun hq => hstate (.inl hq)
      refine .inr ?_
      unfold progress
      rw [hnames]
      simp only [Record.abandon_operationKind, Record.abandon_operationState]
      simp [hidle]
      rfl

/-! ### Discoveries that wait or start -/

theorem refreshing_waits (hfc : s.findOrCreate id = some (s₁, i))
    (hr : s'.records = Function.update s₁.records i (s₁.records i).enqueue) :
    s'.refreshing id = if (s₁.records i).operationKind = .manual then
      genOf (s₁.records i).refreshActive.generation else none := by
  have hw : s₁.Writes s' id i (s₁.records i).enqueue := ⟨Sys.findOrCreate_find hfc, hr, rfl, rfl⟩
  rw [hw.self]
  split
  · rename_i hkind
    exact progress_of_named hkind (.inl rfl)
  · rename_i hkind
    exact progress_none_of_kind hkind

theorem refreshing_started {generation : UInt32} (hfc : s.findOrCreate id = some (s₁, i))
    (hr : s'.records = Function.update s₁.records i ((s₁.records i).run op kind generation))
    (ho : s'.owner = ⟨true, id, op⟩) :
    s'.refreshing id = if kind = .manual then genOf generation else none := by
  have hfound := Sys.findOrCreate_find hfc
  have hw : s₁.Writes s' id i ((s₁.records i).run op kind generation) := ⟨hfound, hr, rfl, rfl⟩
  rw [hw.self, ho]
  split
  · rename_i hkind
    subst hkind
    refine progress_of_named rfl (.inr ?_)
    simp [Owner.names, (Sys.find_spec hfound).2]
  · rename_i hkind
    exact progress_none_of_kind hkind

/-- The entries of a discovery that waits or starts: what it puts in progress is what
`Sys.revives` says. -/
theorem revives_waits {generation : UInt32} (hfc : s.findOrCreate id = some (s₁, i))
    (ho : s.owner.active = true)
    (hr : s'.records = Function.update s₁.records i (s₁.records i).enqueue)
    (hnone : s.refreshing id = none) : s'.refreshing id = s.revives id kind generation := by
  rw [refreshing_waits hfc hr]
  simp [Sys.revives, hnone, hfc, ho]

theorem revives_started {generation : UInt32} (hfc : s.findOrCreate id = some (s₁, i))
    (hfree : s.owner.active = false)
    (hr : s'.records = Function.update s₁.records i ((s₁.records i).run op kind generation))
    (ho : s'.owner = ⟨true, id, op⟩) (hnone : s.refreshing id = none) :
    s'.refreshing id = s.revives id kind generation := by
  rw [refreshing_started hfc hr ho]
  simp [Sys.revives, hnone, hfc, hfree]

theorem balanced_waits (h : s.Balanced) (hfc : s.findOrCreate id = some (s₁, i))
    (hr : s'.records = Function.update s₁.records i (s₁.records i).enqueue)
    (ho : s'.owner = s.owner)
    (hlog : s'.history = s.history.add
      (Sys.revivedEntries id (s.refreshing id) (s'.refreshing id))) : s'.Balanced := by
  have hfound := Sys.findOrCreate_find hfc
  have howner : s₁.owner = s.owner := by rw [Sys.findOrCreate_eq hfc]
  have hw : s₁.Writes s' id i (s₁.records i).enqueue := ⟨hfound, hr, rfl, rfl⟩
  have hsame := Sys.findOrCreate_refreshing hfc
  refine h.revived (by rw [hlog]; rfl) (fun x hx => ?_) ?_
  · rw [hw.other hx (progress_owner (ho.trans howner.symm)), hsame]
  · rw [refreshing_waits hfc hr, ← hsame, Sys.refreshing_of_find hfound]
    unfold progress genOf
    grind

theorem balanced_started {generation : UInt32} (h : s.Balanced)
    (hfc : s.findOrCreate id = some (s₁, i)) (hfree : s.owner.active = false)
    (hr : s'.records = Function.update s₁.records i ((s₁.records i).run op kind generation))
    (ho : s'.owner = ⟨true, id, op⟩)
    (hgoes : ∀ g ∈ s.refreshing id, kind = .manual ∧ g = generation)
    (hlog : s'.history.log = Sys.revivedEntries id (s.refreshing id) (s'.refreshing id) ++
      s.history.log) :
    s'.Balanced := by
  have hfound := Sys.findOrCreate_find hfc
  have howner : s₁.owner = s.owner := by rw [Sys.findOrCreate_eq hfc]
  have hw : s₁.Writes s' id i ((s₁.records i).run op kind generation) := ⟨hfound, hr, rfl, rfl⟩
  have hsame := Sys.findOrCreate_refreshing hfc
  refine h.revived hlog (fun x hx => ?_) ?_
  · rw [hw.other hx fun r hd => ?_, hsame]
    rw [ho, howner]
    exact progress_take hfree hd
  · cases hbefore : s.refreshing id with
    | none => exact .inl rfl
    | some g =>
        obtain ⟨rfl, rfl⟩ := hgoes g hbefore
        have hne : g ≠ 0 := by
          rw [← hsame, Sys.refreshing_of_find hfound] at hbefore
          obtain ⟨hp, hbefore⟩ := Option.ite_none_right_eq_some.mp hbefore
          exact Option.some.inj hbefore ▸ hp.2.2
        rw [refreshing_started hfc hr ho, if_pos rfl, genOf, if_pos hne]
        exact .inr rfl

/-! ### Every step -/

/-- **A step that keeps the books keeps them balanced.** -/
theorem balanced_step {l : Label} (h : s.Balanced) (hrest : s.TwinsRest)
    (hform : s.records.Formed) (hk : KeepsBooks s l) (hs : s.step l = some s') : s'.Balanced := by
  cases Sys.step_change hs with
  | same hr ho hh => exact h.silent (by rw [hh]) (congrFun (Sys.refreshing_congr hr ho))
  | reserved hfc hidle hne hr ho hh =>
      have hfound := Sys.findOrCreate_find hfc
      have hsame := Sys.findOrCreate_refreshing hfc
      have howner := congrArg Sys.owner (Sys.findOrCreate_eq hfc)
      have hw := Sys.Writes.mk hfound hr rfl rfl
      refine h.reserved (by rw [hh]; rfl) (fun x hx => ?_) ?_ ?_
      · rw [hw.other hx (progress_owner (ho.trans howner.symm)), hsame]
      · rw [← hsame]
        exact refreshing_of_accepted hfc hidle hk
      · rw [hw.self, progress_of_named rfl (.inl rfl)]
        exact if_pos hne
  | @rolledBack _ _ id generation _ i hc hf hr ho hh =>
      have hw : s.Writes s' id i (s.records i).unreserve := ⟨hf, hr, rfl, rfl⟩
      have hfirst : ∀ e ∈ [Entry.refused id generation], ∃ g, e = .refused id g := by simp
      refine h.ended _ (.inl rfl) hfirst (by rw [hh]; rfl)
        (fun x hx => hw.other hx (progress_owner ho)) (.inl ?_)
      rw [hw.self]
      exact progress_none_of_zero rfl
  | @refused _ _ id generation _ hc hf hr ho hh =>
      have hsame := congrFun (Sys.refreshing_congr hr ho)
      refine h.step id [.refused id generation] (by rw [hh]; rfl)
        (by simp [Entry.device]) (fun x _ => hsame x) fun g _ => ?_
      simp [Sys.open, hsame, Entry.opens, Entry.closes]
  | abandoned hf hr ho hh => exact balanced_abandoned h ⟨hf, hr, rfl, rfl⟩ ho hh
  | cleared hc hf hr ho hh =>
      exact h.ended [] (.inr rfl) (by simp) (by rw [hh]; rfl)
        (fun x hx => Sys.refreshing_clear_other hf hr ho hx) (.inl (hrest.refreshing_clear hf hr))
  | @dropped _ _ _ _ i hwk hq hf hrun howns hr ho hh =>
      obtain ⟨hu, hd, -⟩ := (s.records i).disconnectRunning_frame
      have hdisc : s.disconnectsRefresh _ = false := keepsBooks_event hk hwk hq
      refine balanced_disconnect h ⟨hf, hr, hu, hd⟩ (.inr ⟨ho, ?_⟩) (by simp) (fun hkind => ?_) hh
      · exact (owns_iff.mp howns).2.1.trans (Sys.find_spec hf).2
      · simp [Sys.disconnectsRefresh, hf, hkind, hrun, howns] at hdisc
  | @unqueued _ _ _ _ i hwk hq hf hqueued hr ho hh =>
      obtain ⟨hu, hd, -, -⟩ := (s.records i).disconnectQueued_frame
      have hdisc : s.disconnectsRefresh _ = false := keepsBooks_event hk hwk hq
      refine balanced_disconnect h ⟨hf, hr, hu, hd⟩ (.inl ho) (by simp) (fun hkind => ?_) hh
      simp [Sys.disconnectsRefresh, hf, hkind, hqueued] at hdisc
  | orphaned hwk hq hf hr ho hh =>
      have hown : s.CompletesOwn _ _ := keepsBooks_event hk hwk hq
      simp only [Sys.CompletesOwn, hf] at hown
      exact h.silent (by rw [hh]) (refreshing_release_all hr ho hown)
  | @finished _ context result _ _ i hwk hq hf hact hd hop hr ho hh =>
      obtain ⟨hu, hdev, -, -⟩ := (s.records i).complete_frame context.refreshGeneration result
      have hown : s.CompletesOwn _ _ := keepsBooks_event hk hwk hq
      simp only [Sys.CompletesOwn, hf] at hown
      refine balanced_finished h ⟨hf, hr, hu, hdev⟩ hd ho (fun hkind => ?_) hh
      have hfin : s.finishes context = true := by simp [Sys.finishes, hact, hd, hop]
      obtain ⟨howns, hgen, -⟩ := hown hfin hkind
      exact ⟨howns, hgen⟩
  | stored hwk hq hf hv hr ho hh =>
      have hst := handleMessage_stored hv
      refine balanced_sameOperation h
        ⟨hf, hr, hst.same.used, congrArg Snapshot.deviceId hst.committed⟩
        hst.same ho ?_
      rw [hh]
      unfold History.stored
      split <;> rfl
  | broken hwk hq hf hv hr ho hh =>
      have hev : s.breaks _ _ = true → s.waitsRefresh _ = false := keepsBooks_event hk hwk hq
      refine balanced_broken h ⟨hf, hr, by simp, by simp⟩ ho (by rw [hh]) (hev ?_)
      simp [Sys.breaks, hf, hv]
  | @committed _ _ _ _ _ i hwk hq hf hactive hr ho hh =>
      exact balanced_sameOperation h ⟨hf, hr, rfl, (hform i).staging hactive⟩
        Record.commit_sameOperation ho (by rw [hh])
  | waits hwk hfc hact hr ho hh => exact balanced_waits h hfc hr ho hh
  | started hwk hfc hfree hr ho hh =>
      simp only [KeepsBooks, hwk] at hk
      exact balanced_started h hfc hfree hr ho (hk.1 hfree) (by rw [hh]; rfl)
  | failed hwk hf hr ho hh =>
      simp only [KeepsBooks, hwk] at hk
      exact balanced_failed h ⟨hf, hr, by simp, by simp⟩ ho (by rw [hh]) hk.1 hk.2
  | failedGone hwk hf hr ho hh =>
      simp only [KeepsBooks, hwk] at hk
      exact h.silent (by rw [hh]) (refreshing_release_all hr ho hk.2)
  | marked hf hr ho hh =>
      exact balanced_sameOperation h ⟨hf, hr, rfl, rfl⟩ ⟨rfl, rfl, rfl, rfl, rfl⟩ ho (by rw [hh])

/-! ## Excuses -/

/-- A refresh is only in progress again after it was forgotten, and only withdrawn by the call that
is refused; no generation is zero. -/
structure Sys.Excused (s : Sys) : Prop where
  reserved : ∀ id generation, .reserved id generation ∈ s.history.log → generation ≠ 0
  revived : ∀ id generation, .revived id generation ∈ s.history.log →
    .forgotten id generation ∈ s.history.log
  withdrawn : ∀ id generation, .withdrawn id generation ∈ s.history.log →
    .refused id generation ∈ s.history.log

/-- The entry needs no excuse. -/
def Entry.Plain : Entry → Prop
  | .reserved .. | .revived .. | .withdrawn .. => False
  | _ => True

namespace Sys.Excused

variable {entries : List Entry}

/-- New entries with their excuses. -/
theorem add (h : s.Excused) (hlog : s'.history.log = entries ++ s.history.log)
    (hreserved : ∀ id generation, .reserved id generation ∈ entries → generation ≠ 0)
    (hrevived : ∀ id generation, .revived id generation ∈ entries →
      .forgotten id generation ∈ s.history.log)
    (hwithdrawn : ∀ id generation, .withdrawn id generation ∈ entries →
      .refused id generation ∈ entries) : s'.Excused where
  reserved x generation he := by
    rw [hlog, List.mem_append] at he
    rcases he with he | he
    · exact hreserved x generation he
    · exact h.reserved x generation he
  revived x generation he := by
    rw [hlog, List.mem_append] at he ⊢
    rcases he with he | he
    · exact .inr (hrevived x generation he)
    · exact .inr (h.revived x generation he)
  withdrawn x generation he := by
    rw [hlog, List.mem_append] at he ⊢
    rcases he with he | he
    · exact .inl (hwithdrawn x generation he)
    · exact .inr (h.withdrawn x generation he)

/-- No entry needs an excuse. -/
theorem plain (h : s.Excused) (entries : List Entry)
    (hlog : s'.history.log = entries ++ s.history.log)
    (hplain : ∀ e ∈ entries, e.Plain) : s'.Excused :=
  h.add hlog (fun _ _ he => (hplain _ he).elim) (fun _ _ he => (hplain _ he).elim)
    fun _ _ he => (hplain _ he).elim

end Sys.Excused

theorem forgotten_plain :
    ∀ e ∈ Sys.endedEntries (.forgotten id) before after, e.Plain := by
  intro e he
  unfold Sys.endedEntries at he
  split at he
  · rw [List.mem_singleton.mp he]
    trivial
  · cases he

theorem completed_plain :
    ∀ e ∈ completedEntries s id i r', e.Plain := by
  intro e he
  unfold completedEntries at he
  split at he
  · rw [List.mem_singleton.mp he]
    trivial
  · cases he

/-- What is revived was not in progress, and is after the step. -/
theorem of_mem_revivedEntries {generation : UInt32}
    (he : .revived x generation ∈ Sys.revivedEntries id before after) :
    x = id ∧ before = none ∧ after = some generation := by
  unfold Sys.revivedEntries at he
  split at he
  · rename_i g
    obtain ⟨rfl, rfl⟩ := Entry.revived.inj (List.mem_singleton.mp he)
    exact ⟨rfl, rfl, rfl⟩
  · cases he

theorem of_mem_endedEntries {mk : UInt32 → Entry} (he : e ∈ Sys.endedEntries mk before after) :
    ∃ g, before = some g ∧ e = mk g := by
  unfold Sys.endedEntries at he
  split at he
  · rename_i g
    exact ⟨g, rfl, List.mem_singleton.mp he⟩
  · cases he

/-- **A step that keeps the books enters nothing without an excuse.** -/
theorem excused_step {l : Label} (h : s.Excused) (hk : KeepsBooks s l)
    (hs : s.step l = some s') : s'.Excused := by
  cases Sys.step_change hs with
  | same _ _ hh | orphaned _ _ _ _ _ hh | broken _ _ _ _ _ _ hh | committed _ _ _ _ _ _ hh
  | failed _ _ _ _ hh | failedGone _ _ _ _ hh | marked _ _ _ hh =>
      exact h.plain [] (by rw [hh]; rfl) (by simp)
  | reserved _ _ hne _ _ hh => exact h.add (by rw [hh]; rfl) (by simp [hne]) (by simp) (by simp)
  | refused _ _ _ _ hh => exact h.plain _ (by rw [hh]; rfl) (by simp [Entry.Plain])
  | abandoned _ _ _ hh => exact h.plain _ (by rw [hh]; rfl) forgotten_plain
  | cleared _ _ _ _ hh => exact h.plain _ (by rw [hh]; rfl) forgotten_plain
  | dropped _ _ _ _ _ _ _ hh => exact h.plain _ (by rw [hh]; rfl) completed_plain
  | unqueued _ _ _ _ _ _ hh => exact h.plain _ (by rw [hh]; rfl) completed_plain
  | finished _ _ _ _ _ _ _ _ hh => exact h.plain _ (by rw [hh]; rfl) completed_plain
  | stored _ _ _ _ _ _ hh =>
      refine h.plain [] ?_ (by simp)
      rw [hh]
      unfold History.stored
      split <;> rfl
  | rolledBack hc _ _ _ hh =>
      simp only [KeepsBooks, hc] at hk
      refine h.add (by rw [hh]; rfl) (fun x g he => ?_) (fun x g he => ?_) fun x g he => ?_
      · rcases List.mem_cons.mp he with he | he
        · cases he
        · obtain ⟨_, _, he⟩ := of_mem_endedEntries he
          cases he
      · rcases List.mem_cons.mp he with he | he
        · cases he
        · obtain ⟨_, _, he⟩ := of_mem_endedEntries he
          cases he
      · -- the refresh that the call ends is its own
        rcases List.mem_cons.mp he with he | he
        · cases he
        · obtain ⟨g', hbefore, he⟩ := of_mem_endedEntries he
          obtain ⟨rfl, rfl⟩ := Entry.withdrawn.inj he
          rw [hk g hbefore]
          exact List.mem_cons_self
  | waits hw hfc hact hr ho hh =>
      simp only [KeepsBooks, hw] at hk
      refine h.add (by rw [hh]; rfl) (fun x g he => ?_) (fun x g he => ?_) fun x g he => ?_
      · exact absurd he (by unfold Sys.revivedEntries; split <;> simp)
      · obtain ⟨rfl, hbefore, hafter⟩ := of_mem_revivedEntries he
        rw [revives_waits hfc hact hr hbefore] at hafter
        exact hk.2 g hafter
      · exact absurd he (by unfold Sys.revivedEntries; split <;> simp)
  | started hw hfc hfree hr ho hh =>
      simp only [KeepsBooks, hw] at hk
      refine h.add (by rw [hh]; rfl) (fun x g he => ?_) (fun x g he => ?_) fun x g he => ?_
      · exact absurd he (by unfold Sys.revivedEntries; split <;> simp)
      · obtain ⟨rfl, hbefore, hafter⟩ := of_mem_revivedEntries he
        rw [revives_started hfc hfree hr ho hbefore] at hafter
        exact hk.2 g hafter
      · exact absurd he (by unfold Sys.revivedEntries; split <;> simp)

end Books

end BleGateway.DeviceSchema
