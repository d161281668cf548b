import BleGateway.Settings.ActorSteps
import BleGateway.Settings.WorkerSteps
import BleGateway.Settings.Builders

/-! # Builders after the end of an operation

A device has nothing under way when its last operation has ended, or when it has been disconnected
or forgotten, until it is asked for something again. The builders and the marked records agree, and
such a device owns no builder, as long as the handlers get the mutex and no operation ends while its
device owns a builder. The actor itself never gives a builder back.
-/

namespace BleGateway.Settings

/-- The device whose operation ends. -/
def OpAction.ended? : OpAction → Option DeviceId
  | .complete _ id _ => some id
  | _ => none

/-- What an entry of the log says about the work of a device: that it has ended, or that there is
some. -/
def Entry.ending (id : DeviceId) : Entry → Option Bool
  | .opRequested _ k => if k = id then some false else none
  | .gone k => if k = id then some true else none
  | .op _ action => if action.ended? = some id then some true else none
  | _ => none

/-- By the log the device has nothing under way. -/
def workEnded (log : List Entry) (id : DeviceId) : Bool :=
  log.foldl (fun b e => (e.ending id).getD b) false

/-! ## The history -/

variable {log : List Entry} {id : DeviceId}

theorem workEnded_append_last (log : List Entry) (e : Entry) (id : DeviceId) :
    workEnded (log ++ [e]) id = (e.ending id).getD (workEnded log id) := by
  rw [workEnded, List.foldl_append, workEnded]
  rfl

/-- Entries that say nothing about work. -/
theorem workEnded_same (log : List Entry) {entries : List Entry}
    (hnone : ∀ e ∈ entries, e.ending id = none) :
    workEnded (log ++ entries) id = workEnded log id := by
  induction entries using List.reverseRecOn with
  | nil => rw [List.append_nil]
  | append_singleton entries e ih =>
      rw [← List.append_assoc, workEnded_append_last,
        hnone e (List.mem_append_right _ List.mem_cons_self)]
      exact ih fun e' he' => hnone e' (List.mem_append_left _ he')

/-- The entries of the transactions say nothing about work. -/
theorem ending_txEntry (w : Worker) (action : TxAction) : (w.txEntry action).ending id = none := by
  cases action <;> rfl

/-- The actions of a round end the work of the devices that they name. -/
theorem workEnded_ops (w : Worker) (actions : List OpAction) :
    workEnded (log ++ actions.map w.opEntry) id = true ↔
      workEnded log id = true ∨ id ∈ actions.filterMap OpAction.ended? := by
  have hentry : ∀ action, (w.opEntry action).ending id =
      if action.ended? = some id then some true else none := by
    intro action
    cases action <;> rfl
  induction actions using List.reverseRecOn with
  | nil => simp
  | append_singleton actions action ih =>
      rw [List.map_append, List.filterMap_append, List.mem_append, ← or_assoc,
        ← List.append_assoc, List.map_singleton, workEnded_append_last, hentry]
      refine Iff.trans ?_ (or_congr_left ih)
      cases hend : action.ended? with
      | none => simp [hend]
      | some k =>
          by_cases hk : k = id
          · simp [hend, hk]
          · simp [hend, hk, Ne.symm hk]

variable {r : TxStep} {s : Transactions} {turns : Tx → Prop}

/-- The transactions leave the streams alone. -/
theorem Transactions.Moves.streams (h : Transactions.Moves turns s r) :
    r.1.protocol.schemaOwner = s.protocol.schemaOwner ∧
      r.1.protocol.valuesOwner = s.protocol.valuesOwner := by
  induction h with
  | say | edit | mark | finish => exact ⟨rfl, rfl⟩
  | next h h' ih ih' => exact ⟨ih'.1.trans ih.1, ih'.2.trans ih.2⟩

theorem Transactions.Moves.owned (h : Transactions.Moves turns s r) (howned : s.protocol.Owned) :
    r.1.protocol.Owned := by
  induction h with
  | say | edit | finish => exact howned
  | mark hi pending expectedRev oldRev =>
      obtain ⟨-, hu, hk⟩ := Protocol.findRecord_spec hi
      exact howned.write hi rfl hu hk (.same rfl rfl) (.same rfl rfl)
  | next h h' ih ih' => exact ih' (ih howned)

theorem Transactions.Moves.kept (h : Transactions.Moves turns s r) (howned : s.protocol.Owned) :
    s.protocol.Kept r.1.protocol :=
  ⟨h.owned howned, fun _ hk => h.streams.1 ▸ hk, fun _ hk => h.streams.2 ▸ hk⟩

/-! ## Ends of operations -/

/-- No retry is left for the command of the operation. -/
def ActiveOp.Exhausted (op : ActiveOp) : Prop := DS_WORK_RETRY_MAX ≤ op.retryCount

/-- The command of the operation, which has the record `r`, ends with this status, and so does the
operation: a described device is read next unless that cannot be asked for, and values that are read
wait for their end. -/
def ActiveOp.EndedBy (op : ActiveOp) (r : OpRecord) (submitted : Bool) : DeviceCommandStatus → Prop
  | .ok =>
      if r.kind = .describe then submitted = false ∧ op.Exhausted else op.valuesEnd = true
  | .busy => op.Exhausted
  | _ => True

/-- The event ends the active operation, which has the record `r`: the lease is refused, or its
command cannot be sent and no retry is left, or the command ends it, or the end of the values comes
behind their acknowledgement, or the work of the device is cancelled. -/
def ActorEvent.Ends (op : ActiveOp) (r : OpRecord) (submitted : Bool) : ActorEvent → Prop
  | .leaseResult cookie ok lease _ => op.cookie = cookie ∧ (ok = false ∨ lease = 0 ∨
      (r.kind = .none ∨ submitted = false) ∧ op.Exhausted)
  | .commandComplete cookie status _ => op.cookie = cookie ∧ op.EndedBy r submitted status
  | .valuesStreamComplete id _ => r.kind = .get ∧ r.deviceId = id ∧ op.readAck = true
  | .retryTimer cookie _ =>
      op.cookie = cookie ∧ (r.kind = .none ∨ submitted = false) ∧ op.Exhausted
  | .disconnected id | .cancelDevice id | .forgetDevice id => r.deviceId = id
  | _ => False

namespace Actor

variable {a : Actor} {op : ActiveOp} {acquired submitted : Bool}

/-- The first queued operation that is not the active one. -/
def next (a : Actor) : Option OpIx :=
  Fin.find? fun i => decide (a.active.map (·.slot) ≠ some i) &&
    ((a.ops i).active && decide ((a.ops i).state = .queued))

/-- The next operation is started behind the event. -/
def Starts (a : Actor) : ActorEvent → Prop
  | .startOperation => a.active = none
  | .disconnected id | .cancelDevice id | .forgetDevice id =>
      ∀ op ∈ a.active, (a.ops op.slot).deviceId = id
  | _ => False

/-- The active operation is one of the device. -/
def Serves (a : Actor) (id : DeviceId) : Prop :=
  ∃ op ∈ a.active, (a.ops op.slot).active = true ∧ (a.ops op.slot).deviceId = id

/-- The event ends an operation of the device: the active one, or the next one, whose lease cannot
be asked for. -/
def Ends (a : Actor) (acquired submitted : Bool) (event : ActorEvent) (id : DeviceId) : Prop :=
  ((∃ op ∈ a.active, event.Ends op (a.ops op.slot) submitted) ∧ a.Serves id) ∨
  (acquired = false ∧ a.Starts event ∧ ∃ i ∈ a.next, (a.ops i).deviceId = id)

theorem serves_iff (hop : a.active = some op) :
    a.Serves id ↔ (a.ops op.slot).active = true ∧ (a.ops op.slot).deviceId = id := by
  simp [Serves, hop]

theorem serves_setActive {op' : ActiveOp} (hop : a.active = some op) (hslot : op'.slot = op.slot) :
    (a.setActive op').Serves id ↔ a.Serves id := by
  refine (serves_iff (a := a.setActive op') rfl).trans ?_
  rw [serves_iff hop, hslot]
  rfl

theorem exists_matching_iff {cookie : Cookie} {p : ActiveOp → Prop} :
    (∃ op ∈ a.active, op.cookie = cookie ∧ p op) ↔ ∃ op ∈ a.matching cookie, p op := by
  simp [matching, and_assoc]

/-- The devices whose operations end. -/
def ended (actions : List OpAction) : List DeviceId := actions.filterMap OpAction.ended?

theorem ended_append (actions actions' : List OpAction) :
    ended (actions ++ actions') = ended actions ++ ended actions' := List.filterMap_append

theorem mem_ended_finishActive (result : OpResult) :
    id ∈ ended (a.finishActive result).2 ↔ a.Serves id := by
  cases hop : a.active with
  | none => simp [finishActive, ended, Serves, hop]
  | some op =>
      have hrelease : ended (releaseLease op) = [] := by
        unfold releaseLease
        split <;> rfl
      rw [serves_iff hop, finishActive, hop]
      dsimp only
      rw [ended_append]
      change id ∈ ended (releaseLease op) ++ _ ↔ _
      rw [hrelease, List.nil_append]
      cases (a.ops op.slot).active <;> simp [ended, OpAction.ended?, eq_comm]

theorem mem_ended_scheduleRetry :
    id ∈ ended (a.scheduleRetry op).2 ↔ op.Exhausted ∧ a.Serves id := by
  unfold scheduleRetry
  split
  · rename_i hmax
    rw [mem_ended_finishActive]
    exact ⟨fun h => ⟨hmax, h⟩, And.right⟩
  · rename_i hmax
    exact ⟨fun h => by simp [ended, OpAction.ended?] at h, fun h => absurd h.1 hmax⟩

/-- A command is not submitted without a kind, or when the scheduler does not take it. -/
theorem submitCommand_spec (a : Actor) (op : ActiveOp) (submitted : Bool) :
    ended (a.submitCommand op submitted).2 = [] ∧
    ((a.submitCommand op submitted).1 = false ↔
      (a.ops op.slot).kind = .none ∨ submitted = false) := by
  unfold submitCommand
  dsimp only
  cases hkind : (a.ops op.slot).kind <;> simp [ended, OpAction.ended?]

theorem mem_ended_submitOrRetry : id ∈ ended (a.submitOrRetry op submitted).2 ↔
    ((a.ops op.slot).kind = .none ∨ submitted = false) ∧ op.Exhausted ∧ a.Serves id := by
  obtain ⟨hquiet, hfails⟩ := submitCommand_spec a op submitted
  rw [← hfails]
  unfold submitOrRetry
  cases hcommand : a.submitCommand op submitted with
  | mk done actions =>
      rw [hcommand] at hquiet
      cases done with
      | true => simp [hquiet]
      | false => simp [ended_append, hquiet, mem_ended_scheduleRetry]

theorem mem_ended_handleStart : id ∈ ended (a.handleStart acquired).2 ↔
    acquired = false ∧ a.active = none ∧ ∃ i, a.queued = some i ∧ (a.ops i).deviceId = id := by
  unfold handleStart
  split
  · rename_i i hnone hi
    cases acquired with
    | true => simp [ended, OpAction.ended?]
    | false =>
        dsimp only
        rw [if_neg Bool.false_ne_true]
        change id ∈ ended (finishActive _ .internal).2 ↔ _
        have hused := (queued_spec hi).1
        rw [mem_ended_finishActive, serves_iff rfl, hnone, hi]
        exact ⟨fun h => ⟨rfl, rfl, i, rfl, h.2⟩, fun ⟨_, _, _, hsame, hid⟩ => by
          cases hsame
          exact ⟨hused, hid⟩⟩
  · rename_i hother
    refine ⟨fun h => (by cases h), fun ⟨_, hnone, i, hi, _⟩ => ?_⟩
    exact (hother i hnone hi).elim

theorem mem_ended_completeReadIfReady {op' : ActiveOp} (hop : a.active = some op)
    (hslot : op'.slot = op.slot) : id ∈ ended (a.completeReadIfReady op').2 ↔
      (op'.readAck = true ∧ op'.valuesEnd = true) ∧ a.Serves id := by
  unfold completeReadIfReady
  dsimp only
  split
  · rename_i hready
    rw [mem_ended_finishActive, serves_setActive hop hslot]
    exact ⟨fun h => ⟨Bool.and_eq_true_iff.mp hready, h⟩, And.right⟩
  · rename_i hready
    exact ⟨fun h => (by cases h), fun h => absurd (Bool.and_eq_true_iff.mpr h.1) hready⟩

theorem mem_ended_handleLease {cookie : Cookie} {ok : Bool} {lease : UInt32} {origin : Nat} :
    id ∈ ended (a.handleLease cookie ok lease submitted).2 ↔
      a.Ends acquired submitted (.leaseResult cookie ok lease origin) id := by
  simp only [Ends, Starts, ActorEvent.Ends, exists_matching_iff, false_and, and_false, or_false]
  unfold handleLease
  cases hmatch : a.matching cookie with
  | none => by_cases hlease : lease = 0 <;> simp [ended, OpAction.ended?, hlease]
  | some op =>
      obtain ⟨hop, -⟩ := matching_spec hmatch
      dsimp only
      by_cases hrefused : ok = false ∨ lease = 0
      · rw [if_pos (by simpa using hrefused), mem_ended_finishActive]
        simp [← or_assoc, hrefused]
      · rw [if_neg (by simpa using hrefused)]
        simp only [Option.mem_def, Option.some.injEq, exists_eq_left', ← or_assoc, hrefused,
          false_or]
        have hserves : (a.setActive { op with lease := lease }).Serves id ↔ a.Serves id :=
          serves_setActive hop rfl
        rw [and_assoc, ← hserves]
        refine Iff.trans ?_ (@mem_ended_submitOrRetry id (a.setActive { op with lease := lease })
          { op with lease := lease } submitted)
        unfold submitOrRetry
        cases (a.setActive { op with lease := lease }).submitCommand
            { op with lease := lease } submitted with
        | mk done actions => cases done <;> rfl

theorem mem_ended_handleCommand {cookie : Cookie} {status : DeviceCommandStatus} {origin : Nat} :
    id ∈ ended (a.handleCommand cookie status submitted).2 ↔
      a.Ends acquired submitted (.commandComplete cookie status origin) id := by
  simp only [Ends, Starts, ActorEvent.Ends, exists_matching_iff, false_and, and_false, or_false]
  unfold handleCommand
  cases hmatch : a.matching cookie with
  | none => simp [ended]
  | some op =>
      obtain ⟨hop, -⟩ := matching_spec hmatch
      simp only [Option.mem_def, Option.some.injEq, exists_eq_left', ActiveOp.EndedBy]
      cases status with
      | ok =>
          dsimp only
          by_cases hkind : (a.ops op.slot).kind = .describe
          · have hserves : (a.setOp op.slot { a.ops op.slot with kind := .get }).Serves id ↔
                a.Serves id := by
              refine (serves_iff (a := a.setOp op.slot _) hop).trans ?_
              rw [serves_iff hop, setOp_self]
            rw [if_pos hkind, if_pos hkind, mem_ended_submitOrRetry, setOp_self, hserves]
            simp [and_assoc]
          · rw [if_neg hkind, if_neg hkind, mem_ended_completeReadIfReady hop]
            · simp
            · rfl
      | busy => exact mem_ended_scheduleRetry
      | _ => simp [mem_ended_finishActive]

theorem mem_ended_handleValues {success : Bool} {k : DeviceId} :
    id ∈ ended (a.handleValues k success).2 ↔
      a.Ends acquired submitted (.valuesStreamComplete k success) id := by
  simp only [Ends, Starts, ActorEvent.Ends, false_and, and_false, or_false]
  unfold handleValues
  cases hop : a.active with
  | none => simp [ended]
  | some op =>
      simp only [Option.mem_def, Option.some.injEq, exists_eq_left']
      by_cases hget : (a.ops op.slot).kind = .get ∧ (a.ops op.slot).deviceId = k
      · rw [if_pos hget, mem_ended_completeReadIfReady hop]
        · simp [hget]
        · rfl
      · rw [if_neg hget, ← and_assoc (b := _ = k)]
        simp only [hget, false_and]
        exact iff_of_false (fun h => (by cases h)) fun h => h

theorem mem_ended_handleRetry {cookie : Cookie} {origin : Nat} :
    id ∈ ended (a.handleRetry cookie submitted).2 ↔
      a.Ends acquired submitted (.retryTimer cookie origin) id := by
  simp only [Ends, Starts, ActorEvent.Ends, exists_matching_iff, false_and, and_false, or_false]
  unfold handleRetry
  cases hmatch : a.matching cookie with
  | none => simp [ended]
  | some op =>
      simp only [Option.mem_def, Option.some.injEq, exists_eq_left', and_assoc]
      exact mem_ended_submitOrRetry

/-- The cancelled operation is over, and the next one is first in the queue. -/
theorem cancelActive_spec (id : DeviceId) {k : DeviceId} (hop : a.active = some op)
    (hk : (a.ops op.slot).deviceId = k) :
    (id ∈ ended (a.cancelActive k).2 ↔ a.Serves id) ∧ (a.cancelActive k).1.active = none ∧
      (a.cancelActive k).1.queued = a.next ∧
        ∀ i ≠ op.slot, (a.cancelActive k).1.ops i = a.ops i := by
  generalize hb : a.setOp op.slot { a.ops op.slot with
    generation := (a.ops op.slot).generation + 1 } = b
  have hactive : b.active = some op := by rw [← hb]; exact hop
  have hcancel : a.cancelActive k = b.finishActive .internal := by
    rw [cancelActive, hop, ← hb]
    exact if_pos hk
  have hended := finishActive_slot hactive .internal
  have hother (i : OpIx) (hi : i ≠ op.slot) : (b.finishActive .internal).1.ops i = a.ops i := by
    rw [finishActive, hactive, ← setOp_of_ne a hi, hb]
    exact setOp_of_ne _ hi _
  have hnone : (b.finishActive .internal).1.active = none := by
    rw [finishActive, hactive]
    rfl
  rw [hcancel]
  refine ⟨?_, hnone, ?_, hother⟩
  · rw [mem_ended_finishActive, serves_iff hactive, serves_iff hop, ← hb, setOp_self]
  · unfold queued next
    congr 1
    funext i
    by_cases hi : i = op.slot
    · simp [hi, hended, hop]
    · simp [hother i hi, hop, Ne.symm hi]

/-- The active operation is ended, and then the next one is started. -/
theorem mem_ended_cancelDevice {k : DeviceId} : id ∈ ended (a.cancelDevice k acquired).2 ↔
    ((∃ op ∈ a.active, (a.ops op.slot).deviceId = k) ∧ a.Serves id) ∨
      (acquired = false ∧ (∀ op ∈ a.active, (a.ops op.slot).deviceId = k) ∧
        ∃ i ∈ a.next, (a.ops i).deviceId = id) := by
  have hsplit : ended (a.cancelDevice k acquired).2 =
      ended (a.cancelActive k).2 ++ ended ((a.cancelActive k).1.handleStart acquired).2 :=
    ended_append _ _
  rw [hsplit, List.mem_append, mem_ended_handleStart]
  cases hop : a.active with
  | none =>
      have hsame : a.cancelActive k = (a, []) := by rw [cancelActive, hop]
      have hnext : a.next = a.queued := by simp [next, queued, hop]
      simp [hsame, hop, hnext, ended]
  | some op =>
      simp only [Option.mem_def, Option.some.injEq, exists_eq_left', forall_eq']
      by_cases hk : (a.ops op.slot).deviceId = k
      · obtain ⟨hended, hnone, hqueued, hother⟩ := cancelActive_spec id hop hk
        rw [hended, hnone, hqueued]
        simp only [hk, true_and]
        refine or_congr_right (and_congr_right fun _ => exists_congr fun i =>
          and_congr_right fun hi => ?_)
        have hne : i ≠ op.slot := by
          rintro rfl
          simpa [hop] using (Fin.find?_eq_some_iff.mp hi).1
        rw [hother i hne]
      · have hsame : a.cancelActive k = (a, []) := by
          rw [cancelActive, hop]
          exact if_neg hk
        simp [hsame, hop, hk, ended]

theorem mem_ended_handle (event : ActorEvent) :
    id ∈ ended (a.handle acquired submitted event).2 ↔ a.Ends acquired submitted event id := by
  cases event with
  | startOperation =>
      rw [handle, mem_ended_handleStart, Ends]
      simp only [ActorEvent.Ends, Starts, and_false, exists_false, false_and, false_or]
      refine and_congr_right fun _ => and_congr_right fun hnone => ?_
      have hnext : a.next = a.queued := by simp [next, queued, hnone]
      simp [hnext]
  | leaseResult => exact mem_ended_handleLease
  | commandComplete => exact mem_ended_handleCommand
  | valuesStreamComplete => exact mem_ended_handleValues
  | retryTimer => exact mem_ended_handleRetry
  | disconnected | cancelDevice | forgetDevice => exact mem_ended_cancelDevice
  | txLeaseResult | txCommandComplete | transactionStart | transactionAbort | transactionTimeout =>
      simp [Ends, Starts, ActorEvent.Ends, handle, ended]

end Actor

namespace Worker

variable (w : Worker)

/-- The device has nothing under way. -/
def ended (id : DeviceId) : Bool := workEnded w.log id

/-! ## The property and the condition -/

/-- The builders and the marks agree, and a device that has nothing under way owns no builder. -/
structure GivenBack : Prop where
  owned : w.store.protocol.Owned
  idle : ∀ id, w.ended id = true → ¬ w.store.protocol.Owns id

/-- No device that has nothing under way opens a stream, no device that owns a builder is
disconnected or forgotten without the mutex or has its record purged, and no event ends an operation
while the device is in the middle of a stream. -/
def Settles : Act → Prop
  | .notify id msg alloc _ =>
      OpensSchema w.store.protocol id msg alloc ∨ OpensValues w.store.protocol id msg alloc →
        w.ended id = false
  | .disconnect id locked | .forget id locked =>
      id.text ≠ [] → locked = false → ¬ w.store.protocol.Owns id
  | .proceed call locked =>
      ∀ id more, w.calls[call]? = some (.purge id :: more) → locked = true → id.text ≠ [] →
        ¬ w.store.protocol.Owns id
  | .actor acquired submitted _ => ∀ event ∈ w.actor.events.head?, ∀ id,
      w.actor.Ends acquired submitted event id → ¬ w.store.protocol.Owns id
  | _ => True

/-! ## One step -/

variable {w} {w' : Worker} {id : DeviceId}

/-- No device becomes an owner, and none is given up on. -/
theorem GivenBack.kept (h : w.GivenBack) (hk : w.store.protocol.Kept w'.store.protocol)
    (hended : ∀ k, w'.ended k = true → w.ended k = true) : w'.GivenBack :=
  ⟨hk.owned, fun k hk' hown => h.idle k (hended k hk') (hk.owns hown)⟩

theorem notify_givenBack_iff (h : w.GivenBack) {msg : Message} {alloc : Bool} (locked : Bool)
    (more : List Rest) :
    (w.handled (w.store.protocol.onNotify id msg alloc locked) more).GivenBack ↔
      (OpensSchema w.store.protocol id msg alloc ∨ OpensValues w.store.protocol id msg alloc →
        w.ended id = false) := by
  by_cases hopen : OpensSchema w.store.protocol id msg alloc ∨
      OpensValues w.store.protocol id msg alloc
  · obtain ⟨howned, hown, hother⟩ := Protocol.onNotify_opens h.owned hopen locked
    refine ⟨fun h' _ => ?_, fun hended => ⟨howned, fun k hk hown' => ?_⟩⟩
    · cases hended : w.ended id with
      | false => rfl
      | true => exact absurd hown (h'.idle id hended)
    · rcases hother k hown' with heq | hown
      · exact absurd (hk.symm.trans (heq ▸ hended hopen)) (by simp)
      · exact h.idle k hk hown
  · refine ⟨fun _ hopen' => absurd hopen' hopen, fun _ => h.kept ?_ fun _ hk => hk⟩
    exact Protocol.onNotify_kept h.owned (fun hs => hopen (Or.inl hs)) (fun hv => hopen (Or.inr hv))
      locked

theorem gone_givenBack_iff (h : w.GivenBack) (hid : id.text ≠ []) (locked : Bool)
    (more : List Rest) :
    GivenBack { w.handled (w.store.protocol.onDisconnect id locked) more with
      log := w.log ++ [.gone id] } ↔ (locked = false → ¬ w.store.protocol.Owns id) := by
  have howned := Protocol.onDisconnect_owned_iff h.owned hid locked
  refine ⟨fun h' => howned.mp h'.owned, fun hok => ⟨howned.mpr hok, fun k hk hown => ?_⟩⟩
  obtain ⟨hbefore, hne⟩ := Protocol.onDisconnect_owns hid hown
  refine h.idle k ?_ hbefore
  rw [ended, workEnded_append_last, Entry.ending, if_neg (Ne.symm hne)] at hk
  exact hk

theorem request_givenBack (h : w.GivenBack) (r : Except EspErr Actor) :
    (w.request id r).GivenBack := by
  unfold request
  cases r with
  | error e => exact h
  | ok actor =>
      cases w.actor.freeOp with
      | none => exact h
      | some slot =>
          refine h.kept h.owned.kept fun k hk => ?_
          rw [ended, workEnded_append_last, Entry.ending] at hk
          split at hk
          · cases hk
          · exact hk

/-- Clearing the record of an owner loses the mark of its builder. -/
theorem purge_givenBack_iff (h : w.GivenBack) :
    GivenBack { w with store := { w.store with protocol := w.store.protocol.purge id } } ↔
      (id.text ≠ [] → ¬ w.store.protocol.Owns id) := by
  cases hi : w.store.protocol.findRecord id with
  | none =>
      have hsame : w.store.protocol.purge id = w.store.protocol := by
        rw [Protocol.purge, hi]
      rw [hsame]
      exact ⟨fun _ hid => Protocol.not_owns_of_absent h.owned hid hi, fun _ => h⟩
  | some i =>
      obtain ⟨hid, hu, hk⟩ := Protocol.findRecord_spec hi
      have hpurge : w.store.protocol.purge id = w.store.protocol.setRecord i {} := by
        rw [Protocol.purge, hi]
      have hschema := h.owned.schema.erase_iff (v := {}) h.owned.distinct hu rfl rfl
      have hvalues := h.owned.values.erase_iff (v := {}) h.owned.distinct hu rfl rfl
      rw [hk] at hschema hvalues
      rw [hpurge]
      refine ⟨fun h' _ hown => ?_, fun hnot => ⟨⟨?_, ?_, ?_⟩, fun k hk' hown => h.idle k hk' hown⟩⟩
      · exact hown.elim (hschema.mp h'.owned.schema) (hvalues.mp h'.owned.values)
      · exact (Protocol.recordOf_clear h.owned.distinct hi).1
      · exact hschema.mpr fun hown => hnot hid (Or.inl hown)
      · exact hvalues.mpr fun hown => hnot hid (Or.inr hown)

theorem perform_givenBack_iff (h : w.GivenBack) (locked : Bool) (rest : Rest) :
    (w.perform locked rest).1.GivenBack ↔
      ∀ id, rest = .purge id → locked = true → id.text ≠ [] → ¬ w.store.protocol.Owns id := by
  have hother {w' : Worker} (h' : w'.GivenBack) (hne : ∀ id, rest ≠ .purge id) : w'.GivenBack ↔
      ∀ id, rest = .purge id → locked = true → id.text ≠ [] → ¬ w.store.protocol.Owns id :=
    ⟨fun _ id hrest => absurd hrest (hne id), fun _ => h'⟩
  cases rest with
  | post event => exact hother (h.kept h.owned.kept fun _ hk => hk) (by simp)
  | cancel id => exact hother (h.kept h.owned.kept fun _ hk => hk) (by simp)
  | txCancel id =>
      refine hother ?_ (by simp)
      rw [perform]
      split
      · exact h.kept h.owned.kept fun _ hk => hk
      · exact h
  | describe | get => exact hother (request_givenBack h _) (by simp)
  | purge id =>
      rw [perform]
      cases locked with
      | false => exact ⟨fun _ _ _ hlocked => Bool.noConfusion hlocked, fun _ => h⟩
      | true =>
          rw [if_pos rfl, purge_givenBack_iff h]
          refine ⟨fun hnot id' heq _ => ?_, fun hnot => hnot id rfl rfl⟩
          obtain rfl := Rest.purge.inj heq
          exact hnot
  | reconcile id =>
      have hmoves : Transactions.Moves (fun _ => False) w.store
          ((w.store.reconcileBegin id locked).1, []) := Transactions.reconcileBegin_moves id locked
      exact hother (h.kept (hmoves.kept h.owned) fun _ hk => hk) (by simp)
  | resolve res =>
      refine hother ?_ (by simp)
      rw [perform, withTxs_eq]
      have hmoves : Transactions.Moves (fun _ => False) w.store (w.store.reconcileEnd res) :=
        Transactions.reconcileEnd_moves res
      refine h.kept (hmoves.kept h.owned) fun k hk => ?_
      rwa [ended, workEnded_same] at hk
      intro e he
      obtain ⟨action, -, rfl⟩ := List.mem_map.mp he
      exact ending_txEntry w action

theorem actor_givenBack_iff (h : w.GivenBack) {event : ActorEvent} {rest : List ActorEvent}
    (acquired submitted armed : Bool) :
    (handleEvent { w with actor := { w.actor with events := rest } } acquired submitted armed
      event).GivenBack ↔
        ∀ id, w.actor.Ends acquired submitted event id → ¬ w.store.protocol.Owns id := by
  obtain ⟨retry, heq⟩ := handleEvent_spec
    { w with actor := { w.actor with events := rest } } acquired submitted armed event
  have hmoves := w.txRound_moves acquired submitted armed event
  generalize hw' : handleEvent { w with actor := { w.actor with events := rest } }
    acquired submitted armed event = w' at heq
  have howns (id : DeviceId) : w'.store.protocol.Owns id ↔ w.store.protocol.Owns id := by
    have hstore : w'.store = (w.txRound acquired submitted armed event).1 := by
      rw [heq]
      rfl
    rw [hstore, Protocol.Owns, Protocol.Owns, hmoves.streams.1, hmoves.streams.2]
  -- only the operations end
  have hended (id : DeviceId) : w'.ended id = true ↔
      w.ended id = true ∨ w.actor.Ends acquired submitted event id := by
    have hlog : w'.log = w.log ++ [.handled event] ++
        ({ w.actor with events := rest }.handle acquired submitted event).2.map w.opEntry ++
        (w.txRound acquired submitted armed event).2.map w.txEntry := by
      rw [heq]
      rfl
    rw [ended, hlog, workEnded_same _ fun e he => ?_, workEnded_ops, workEnded_append_last]
    · exact or_congr_right (Actor.mem_ended_handle event)
    · obtain ⟨action, -, rfl⟩ := List.mem_map.mp he
      exact ending_txEntry w action
  have howned : w'.store.protocol.Owned := by
    rw [heq]
    exact hmoves.owned h.owned
  refine ⟨fun h' id hid hown => ?_, fun hok => ⟨howned, fun id hid hown => ?_⟩⟩
  · exact h'.idle id ((hended id).mpr (Or.inr hid)) ((howns id).mpr hown)
  · rcases (hended id).mp hid with hbefore | hnow
    · exact h.idle id hbefore ((howns id).mp hown)
    · exact hok id hnow ((howns id).mp hown)

/-- **One step** keeps the property exactly when it settles. -/
theorem step_givenBack_iff (h : w.GivenBack) (l : Act) (hstep : w.step l = some w') :
    w'.GivenBack ↔ w.Settles l := by
  -- steps that leave the streams and the history alone
  have hquiet {w' : Worker} (hprotocol : w'.store.protocol = w.store.protocol)
      (hended : ∀ k, w'.ended k = w.ended k) : w'.GivenBack ↔ True := by
    refine iff_true_intro ⟨hprotocol ▸ h.owned, fun k hk hown => ?_⟩
    rw [hprotocol] at hown
    exact h.idle k (hended k ▸ hk) hown
  cases l with
  | notify id msg alloc locked =>
      cases hstep
      exact notify_givenBack_iff h locked []
  | disconnect id locked | forget id locked =>
      rw [step] at hstep
      split at hstep <;> cases hstep
      · rename_i hid
        exact ⟨fun _ hne => absurd hid hne, fun _ => h⟩
      · rename_i hid
        exact (gone_givenBack_iff h hid locked _).trans ⟨fun hok _ => hok, fun hok => hok hid⟩
  | capability id supported schemaRevision locked =>
      cases hstep
      exact iff_true_intro (h.kept (Protocol.onCapability_kept h.owned ..) fun _ hk => hk)
  | describe | get =>
      cases hstep
      exact iff_true_intro (request_givenBack h _)
  | cancel | reconcile =>
      cases hstep
      exact hquiet rfl fun _ => rfl
  | save id changes expectedConfigRev completion context alloc =>
      cases hstep
      rw [save]
      dsimp only
      split
      · exact hquiet rfl fun k => workEnded_append_last _ _ k
      · exact hquiet rfl fun _ => rfl
  | txCancel id =>
      cases hstep
      rw [perform_givenBack_iff h true (.txCancel id)]
      exact iff_true_intro fun _ heq => by cases heq
  | proceed call locked =>
      obtain ⟨rest, more, hcall, rfl⟩ := step_proceed hstep
      have hcalls : GivenBack { (w.perform locked rest).1 with
          calls := (w.perform locked rest).1.calls.set call ((w.perform locked rest).2 ++ more) } ↔
            (w.perform locked rest).1.GivenBack :=
        ⟨fun h' => ⟨h'.1, h'.2⟩, fun h' => ⟨h'.1, h'.2⟩⟩
      rw [hcalls, perform_givenBack_iff h locked rest, Settles, hcall]
      refine forall_congr' fun id => ⟨fun hok more' heq => ?_, fun hok heq => ?_⟩
      · exact hok (List.cons.inj (Option.some.inj heq)).1
      · exact hok more (by rw [heq])
  | leaseDone n ok lease =>
      obtain ⟨request, -, rfl⟩ := Option.map_eq_some_iff.mp hstep
      cases request <;> exact hquiet rfl fun k => workEnded_append_last _ _ k
  | jobDone n result =>
      obtain ⟨job, -, rfl⟩ := Option.map_eq_some_iff.mp hstep
      cases job <;> exact hquiet rfl fun k => workEnded_append_last _ _ k
  | retryTimer =>
      obtain ⟨serial, -, rfl⟩ := Option.map_eq_some_iff.mp hstep
      exact hquiet rfl fun _ => rfl
  | reconTimer slot =>
      obtain ⟨-, ⟨⟩⟩ := Option.ite_none_right_eq_some.mp hstep
      split <;> exact hquiet rfl fun _ => rfl
  | actor acquired submitted armed =>
      obtain ⟨event, rest, hevents, rfl⟩ := step_actor hstep
      rw [Settles, hevents, List.head?_cons]
      simpa using actor_givenBack_iff h acquired submitted armed

/-! ## Runs -/

theorem init_givenBack : ({} : Worker).GivenBack where
  owned := {
    distinct := fun _ _ hi => Bool.noConfusion hi
    schema := Ownership.held_free fun _ => rfl
    values := Ownership.held_free fun _ => rfl }
  idle _ hk := Bool.noConfusion hk

/-- **Builders given back.** Along a run the builders and the marks agree, and devices with nothing
under way own no builder, exactly as long as every step settles. -/
theorem givenBack_iff_settles {w : Worker} {ls : List Act} (h : machine.run {} ls = some w) :
    (∀ ks w', ks <+: ls → machine.run {} ks = some w' → w'.GivenBack) ↔
      ∀ ks l w', ks ++ [l] <+: ls → machine.run {} ks = some w' → w'.Settles l :=
  Machine.run_holds_iff (I := fun _ => True) (fun _ _ _ _ _ => trivial)
    (fun _ l _ _ hw hstep => step_givenBack_iff hw l hstep) trivial init_givenBack h

/-! ## An operation that times out in the middle of its stream -/

def fan : DeviceId := strlcpy _ [2]

def Act.ofLabel : Label → Option Act
  | .notify id msg alloc locked => some (.notify id msg alloc locked)
  | .disconnect id locked => some (.disconnect id locked)
  | .forget .. | .capability .. | .reconciliation .. => none

/-- The actor asks the lamp to describe its settings. -/
def askRun : List Act :=
  [.describe lamp, .actor true true true, .leaseDone 0 true 1, .actor true true true]

/-- The command of the lamp ends, and the actor takes note. -/
def endRun (status : DeviceCommandStatus) : List Act :=
  [.jobDone 0 { status }, .actor true true true]

/-- The stream of the lamp ends before its operation does. -/
def wholeRun : List Act := askRun ++ describeRun.filterMap Act.ofLabel ++ endRun .timeout

theorem givenBack_iff_settles_wholeRun : ∃ w : Worker, w.ended lamp = true ∧
    ((∀ ks w', ks <+: wholeRun → machine.run {} ks = some w' → w'.GivenBack) ↔
      ∀ ks l w', ks ++ [l] <+: wholeRun → machine.run {} ks = some w' → w'.Settles l) := by
  have hrun : ((machine.run {} wholeRun).map fun w => w.ended lamp) = some true := by
    decide +kernel
  obtain ⟨w, hw, hp⟩ := Option.map_eq_some_iff.mp hrun
  exact ⟨w, hp, givenBack_iff_settles hw⟩

/-- Its operation ends when the stream has begun. -/
def cutRun : List Act := askRun ++ [.notify lamp (beginFrame 2) true true] ++ endRun .timeout

/-- The operation of the lamp has ended, the lamp still owns the builder, and the fan cannot begin a
stream that it could begin were the builder free. -/
theorem builder_kept_after_timeout :
    ∃ w, machine.Reachable w ∧ w.ended lamp = true ∧ w.store.protocol.Owns lamp ∧
      ¬ OpensSchema w.store.protocol fan (beginFrame 1) true ∧
      OpensSchema { w.store.protocol with schemaStream := none } fan (beginFrame 1) true := by
  have hrun : ((machine.run {} cutRun).map fun w =>
      decide (w.ended lamp = true ∧ w.store.protocol.Owns lamp ∧
        ¬ OpensSchema w.store.protocol fan (beginFrame 1) true ∧
        OpensSchema { w.store.protocol with schemaStream := none } fan (beginFrame 1) true)) =
      some true := by
    decide +kernel
  obtain ⟨w, hw, hp⟩ := Machine.exists_reachable_of_run (M := machine) rfl hrun
  exact ⟨w, hw, of_decide_eq_true hp⟩

end Worker

end BleGateway.Settings
