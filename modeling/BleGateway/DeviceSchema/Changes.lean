import BleGateway.DeviceSchema.Formed

/-! # What a step changes

Every step writes at most one record. The cases of `Change` list the sections that write a record,
the owner or the history, each with what it found and what it left; all other steps leave the
three alone.
-/

namespace BleGateway.DeviceSchema

open Scheduler (nextId nextId_ne_zero)

/-- The history with new entries. -/
def History.add (h : History) (entries : List Entry) : History := { h with log := entries ++ h.log }

@[simp] theorem History.add_opNo (h : History) (entries : List Entry) :
    (h.add entries).opNo = h.opNo := rfl
@[simp] theorem History.add_streamNo (h : History) (entries : List Entry) :
    (h.add entries).streamNo = h.streamNo := rfl
@[simp] theorem History.add_commits (h : History) (entries : List Entry) :
    (h.add entries).commits = h.commits := rfl
@[simp] theorem History.add_log (h : History) (entries : List Entry) :
    (h.add entries).log = entries ++ h.log := rfl

/-- The entry that a refresh of the device is recorded as completed. -/
def completedEntries (s : Sys) (id : DeviceId) (i : Ix) (r' : Record) : List Entry :=
  if (s.records i).operationKind = .manual then
    [.completed id r'.refreshLastCompleted (s.history.opNo i)]
  else []

/-- The owner without its discovery. -/
def Owner.release (o : Owner) : Owner := { o with active := false }

/-- The history after a stored frame. -/
def History.stored (h : History) (msg : Message) (i : Ix) : History :=
  if msg.type = cstr "capabilities_begin" then
    { h with streamNo := Function.update h.streamNo i (h.opNo i) }
  else h

/-- The history after a discovery has taken the owner. -/
def History.start (h : History) (i : Ix) : History :=
  { h with
    started := h.started + 1
    opNo := Function.update h.opNo i (h.started + 1) }

/-- What the step with this label changes. -/
inductive Change (s : Sys) : Label → Sys → Prop
  | same {l : Label} {s' : Sys} (records : s'.records = s.records) (owner : s'.owner = s.owner)
      (history : s'.history = s.history) : Change s l s'
  | reserved {id : DeviceId} {s₁ s' : Sys} {i : Ix} {generation : UInt32}
      (found : s.findOrCreate id = some (s₁, i))
      (idle : (s₁.records i).operationState = .idle) (ne : generation ≠ 0)
      (records : s'.records = Function.update s₁.records i
        ((s₁.records i).reserve (nextId s.nextOperationId) generation))
      (owner : s'.owner = s.owner)
      (history : s'.history = s.history.add [.reserved id generation]) : Change s (.refresh id) s'
  | rolledBack {k : Nat} {ok : Bool} {id : DeviceId} {generation : UInt32} {s' : Sys} {i : Ix}
      (call : s.calls[k]? = some (.rollback id generation)) (found : s.find id = some i)
      (records : s'.records = Function.update s.records i (s.records i).unreserve)
      (owner : s'.owner = s.owner)
      (history : s'.history = s.history.add (.refused id generation ::
        Sys.endedEntries (.withdrawn id) (s.refreshing id) (s'.refreshing id))) :
      Change s (.call k ok) s'
  | refused {k : Nat} {ok : Bool} {id : DeviceId} {generation : UInt32} {s' : Sys}
      (call : s.calls[k]? = some (.rollback id generation)) (missing : s.find id = none)
      (records : s'.records = s.records) (owner : s'.owner = s.owner)
      (history : s'.history = s.history.add [.refused id generation]) : Change s (.call k ok) s'
  | abandoned {id : DeviceId} {s' : Sys} {i : Ix} (found : s.find id = some i)
      (records : s'.records = Function.update s.records i (s.records i).abandon)
      (owner : s'.owner = if ((s.records i).operationState = .queued ∨
          (s.records i).operationState = .running) ∧ s.owns (s.records i) then s.owner.release
        else s.owner)
      (history : s'.history = s.history.add
        (Sys.endedEntries (.forgotten id) (s.refreshing id) (s'.refreshing id))) :
      Change s (.forget id) s'
  | cleared {k : Nat} {id : DeviceId} {s' : Sys} {i : Ix}
      (call : s.calls[k]? = some (.erasing id)) (found : s.find id = some i)
      (records : s'.records = Function.update s.records i {}) (owner : s'.owner = s.owner)
      (history : s'.history = s.history.add
        (Sys.endedEntries (.forgotten id) (s.refreshing id) (s'.refreshing id))) :
      Change s (.call k true) s'
  | dropped {ok : Bool} {id : DeviceId} {rest : List Event} {s' : Sys} {i : Ix}
      (worker : s.worker = .idle) (queue : s.queue = .disconnect id :: rest)
      (found : s.find id = some i) (running : (s.records i).operationState = .running)
      (owns : s.owns (s.records i) = true)
      (records : s'.records = Function.update s.records i (s.records i).disconnectRunning)
      (owner : s'.owner = s.owner.release)
      (history : s'.history = s.history.add
        (completedEntries s id i (s.records i).disconnectRunning)) : Change s (.worker ok) s'
  | unqueued {ok : Bool} {id : DeviceId} {rest : List Event} {s' : Sys} {i : Ix}
      (worker : s.worker = .idle) (queue : s.queue = .disconnect id :: rest)
      (found : s.find id = some i) (queued : (s.records i).operationState = .queued)
      (records : s'.records = Function.update s.records i (s.records i).disconnectQueued)
      (owner : s'.owner = s.owner)
      (history : s'.history = s.history.add
        (completedEntries s id i (s.records i).disconnectQueued)) : Change s (.worker ok) s'
  | orphaned {ok : Bool} {context : Context} {result : SubmitResult} {rest : List Event} {s' : Sys}
      (worker : s.worker = .idle) (queue : s.queue = .completion context result :: rest)
      (missing : s.find context.deviceId = none) (records : s'.records = s.records)
      (owner : s'.owner = s.owner.release) (history : s'.history = s.history) :
      Change s (.worker ok) s'
  | finished {ok : Bool} {context : Context} {result : SubmitResult} {rest : List Event} {s' : Sys}
      {i : Ix} (worker : s.worker = .idle) (queue : s.queue = .completion context result :: rest)
      (found : s.find context.deviceId = some i) (active : s.owner.active = true)
      (device : s.owner.deviceId = context.deviceId)
      (operation : s.owner.operationId = context.operationId)
      (records : s'.records = Function.update s.records i
        ((s.records i).complete context.refreshGeneration result))
      (owner : s'.owner = s.owner.release)
      (history : s'.history = s.history.add (completedEntries s context.deviceId i
        ((s.records i).complete context.refreshGeneration result))) : Change s (.worker ok) s'
  | stored {ok : Bool} {id : DeviceId} {msg : Message} {rest : List Event} {s' : Sys} {i : Ix}
      {r' : Record} (worker : s.worker = .idle) (queue : s.queue = .notify id msg :: rest)
      (found : s.find id = some i) (verdict : handleMessage id msg (s.records i) = .stored r')
      (records : s'.records = Function.update s.records i r') (owner : s'.owner = s.owner)
      (history : s'.history = s.history.stored msg i) : Change s (.worker ok) s'
  | broken {ok : Bool} {id : DeviceId} {msg : Message} {rest : List Event} {s' : Sys} {i : Ix}
      (worker : s.worker = .idle) (queue : s.queue = .notify id msg :: rest)
      (found : s.find id = some i) (verdict : handleMessage id msg (s.records i) = .rejected)
      (records : s'.records = Function.update s.records i (s.records i).resetError)
      (owner : s'.owner = s.owner) (history : s'.history = s.history) : Change s (.worker ok) s'
  | committed {ok : Bool} {id : DeviceId} {msg : Message} {rest : List Event} {s' : Sys} {i : Ix}
      (worker : s.worker = .idle) (queue : s.queue = .notify id msg :: rest)
      (found : s.find id = some i) (active : (s.records i).stagingActive = true)
      (records : s'.records = Function.update s.records i (s.records i).commit)
      (owner : s'.owner = s.owner)
      (history : s'.history =
        { s.history with commits := s.history.streamNo i :: s.history.commits }) :
      Change s (.worker ok) s'
  | waits {ok : Bool} {id : DeviceId} {kind : OperationKind} {generation : UInt32} {s₁ s' : Sys}
      {i : Ix} (worker : s.worker = .start id kind generation)
      (found : s.findOrCreate id = some (s₁, i)) (active : s.owner.active = true)
      (records : s'.records = Function.update s₁.records i (s₁.records i).enqueue)
      (owner : s'.owner = s.owner)
      (history : s'.history = s.history.add
        (Sys.revivedEntries id (s.refreshing id) (s'.refreshing id))) : Change s (.worker ok) s'
  | started {ok : Bool} {id : DeviceId} {kind : OperationKind} {generation : UInt32} {s₁ s' : Sys}
      {i : Ix} (worker : s.worker = .start id kind generation)
      (found : s.findOrCreate id = some (s₁, i)) (free : s.owner.active = false)
      (records : s'.records = Function.update s₁.records i
        ((s₁.records i).run (nextId s.nextOperationId) kind generation))
      (owner : s'.owner = ⟨true, id, nextId s.nextOperationId⟩)
      (history : s'.history = (s.history.start i).add
        (Sys.revivedEntries id (s.refreshing id) (s'.refreshing id))) : Change s (.worker ok) s'
  | failed {ok : Bool} {id : DeviceId} {s' : Sys} {i : Ix} (worker : s.worker = .failed id)
      (found : s.find id = some i)
      (records : s'.records = Function.update s.records i (s.records i).resetError)
      (owner : s'.owner = s.owner.release) (history : s'.history = s.history) :
      Change s (.worker ok) s'
  | failedGone {ok : Bool} {id : DeviceId} {s' : Sys} (worker : s.worker = .failed id)
      (missing : s.find id = none) (records : s'.records = s.records)
      (owner : s'.owner = s.owner.release) (history : s'.history = s.history) :
      Change s (.worker ok) s'
  | marked {ok dirty : Bool} {id : DeviceId} {s' : Sys} {i : Ix} (found : s.find id = some i)
      (records :
        s'.records = Function.update s.records i { s.records i with persistDirty := dirty })
      (owner : s'.owner = s.owner) (history : s'.history = s.history) : Change s (.worker ok) s'

namespace Sys

variable {s s' : Sys}

/-- The queue has no part in what a handler writes: it goes into the handler without the event. -/
theorem handle_change {e : Event} {rest : List Event} {ok : Bool} (hw : s.worker = .idle)
    (hq : s.queue = e :: rest) : Change s (.worker ok) ({ s with queue := rest }.handle e) := by
  cases e with
  | refresh id generation => exact .same rfl rfl rfl
  | ready id =>
      show Change s _ ({ s with queue := rest }.handleReady id)
      unfold handleReady
      split
      · exact .same rfl rfl rfl
      · simp only
        split
        · exact .same rfl rfl rfl
        · split
          · exact .same rfl rfl rfl
          · split <;> exact .same rfl rfl rfl
  | disconnect id =>
      show Change s _ ({ s with queue := rest }.handleDisconnect id)
      unfold handleDisconnect
      split
      · exact .same rfl rfl rfl
      · rename_i i hf
        simp only
        split
        · rename_i hrun
          exact .dropped hw hq hf hrun.1 hrun.2 rfl rfl rfl
        · split
          · rename_i hqueued
            exact .unqueued hw hq hf hqueued rfl rfl rfl
          · exact .same rfl rfl rfl
  | notify id msg =>
      show Change s _ ({ s with queue := rest }.handleNotify id msg)
      unfold handleNotify
      split
      · exact .same rfl rfl rfl
      · rename_i i hf
        simp only
        split
        · exact .same rfl rfl rfl
        · rename_i r' hv
          exact .stored hw hq hf hv rfl rfl rfl
        · rename_i hv
          exact .broken hw hq hf hv rfl rfl rfl
        · rename_i r' changed hv
          obtain ⟨hactive, rfl⟩ := handleMessage_committed hv
          exact .committed hw hq hf hactive rfl rfl rfl
  | completion context result =>
      show Change s _ ({ s with queue := rest }.handleCompletion context result)
      unfold handleCompletion
      split
      · rename_i hf
        exact .orphaned hw hq hf rfl rfl rfl
      · rename_i i hf
        simp only
        split
        · exact .same rfl rfl rfl
        · rename_i hmatch
          simp only [Bool.not_eq_true', not_or, Bool.not_eq_false, ne_eq, not_not] at hmatch
          obtain ⟨ho, hd, hop⟩ := hmatch
          exact .finished hw hq hf ho hd hop rfl rfl rfl

theorem startDiscovery_change {id : DeviceId} {kind : OperationKind} {generation : UInt32}
    {ok : Bool} (hw : s.worker = .start id kind generation) :
    Change s (.worker ok) (s.startDiscovery id kind generation) := by
  unfold startDiscovery
  split
  · exact .same rfl rfl rfl
  · rename_i s₁ i hfc
    have heq := findOrCreate_eq hfc
    have howner : s₁.owner = s.owner := by rw [heq]
    have hhistory : s₁.history = s.history := by rw [heq]
    have hnext : s₁.nextOperationId = s.nextOperationId := by rw [heq]
    split
    · rename_i ho
      refine .waits hw hfc ho rfl howner ?_
      show s₁.history.add _ = s.history.add _
      rw [hhistory]
      rfl
    · rename_i ho
      refine .started hw hfc (by simpa using ho) ?_ ?_ ?_
      · rw [← hnext]
        rfl
      · rw [← hnext]
        rfl
      · rw [← hhistory]
        rfl

theorem workerStep_change {ok : Bool} (hs : s.workerStep ok = some s') :
    Change s (.worker ok) s' := by
  unfold workerStep at hs
  split at hs
  · rename_i hw
    split at hs
    · cases hs
    · rename_i e rest hq
      cases hs
      exact handle_change hw hq
  · rename_i id kind generation hw
    cases hs
    exact startDiscovery_change hw
  · cases hs
    unfold submit
    split <;> exact .same rfl rfl rfl
  · rename_i id hw
    cases hs
    unfold submitFailed
    split
    · rename_i hf
      exact .failedGone hw hf rfl rfl rfl
    · rename_i i hf
      exact .failed hw hf rfl rfl rfl
  · cases hs
    unfold startNextPending
    split
    · exact .same rfl rfl rfl
    · simp only
      split <;> exact .same rfl rfl rfl
  · cases hs
    unfold persist
    split
    · exact .same rfl rfl rfl
    · rename_i i hf
      simp only
      split <;> split <;> first
        | exact .same rfl rfl rfl
        | exact .marked hf rfl rfl rfl

theorem refresh_change (s : Sys) (id : DeviceId) : Change s (.refresh id) (s.refresh id) := by
  unfold refresh
  split
  · exact .same rfl rfl rfl
  · rename_i s₁ i hfc
    have heq := findOrCreate_eq hfc
    have howner : s₁.owner = s.owner := by rw [heq]
    have hhistory : s₁.history = s.history := by rw [heq]
    simp only
    split
    · exact .same rfl rfl rfl
    · rename_i hstate
      have hidle : (s₁.records i).operationState = .idle := by
        cases hst : (s₁.records i).operationState with
        | idle => rfl
        | queued => exact absurd (.inl hst) hstate
        | running => exact absurd (.inr hst) hstate
      refine .reserved hfc hidle (nextId_ne_zero s.nextGeneration) rfl howner ?_
      show s₁.history.add _ = s.history.add _
      rw [hhistory]

theorem callStep_change {k : Nat} {ok : Bool} {c : Call} (hc : s.calls[k]? = some c) :
    Change s (.call k ok) (({ s with calls := s.calls.eraseIdx k } : Sys).callStep ok c) := by
  cases c with
  | posting id generation =>
      simp only [callStep]
      split
      · exact .same (by simp) (by simp) (by simp)
      · exact .same rfl rfl rfl
  | rollback id generation =>
      simp only [callStep]
      unfold refreshRollback
      split
      · rename_i hf
        exact .refused hc hf rfl rfl rfl
      · rename_i i hf
        exact .rolledBack hc hf rfl rfl rfl
  | erasing id =>
      simp only [callStep]
      cases ok with
      | false => exact .same rfl rfl rfl
      | true =>
          unfold forgetRecord
          simp only [if_true]
          split
          · exact .same rfl rfl rfl
          · rename_i i hf
            exact .cleared hc hf rfl rfl rfl

/-- **Every step is one of the changes.** -/
theorem step_change {l : Label} (hs : s.step l = some s') : Change s l s' := by
  cases l with
  | ready id | disconnect id | refresh id | forget id =>
      obtain ⟨-, ⟨⟩⟩ := Option.ite_none_right_eq_some.mp hs
      first
        | exact .same (by simp) (by simp) (by simp)
        | exact refresh_change s _
        | unfold forget
          split
          · exact .same rfl rfl rfl
          · rename_i i hf
            exact .abandoned hf rfl rfl rfl
  | notify id msg =>
      cases hs
      exact .same (by simp) (by simp) (by simp)
  | call k ok =>
      simp only [step] at hs
      split at hs
      · rename_i c hc
        cases hs
        exact callStep_change hc
      · cases hs
  | jobDone result =>
      simp only [step] at hs
      split at hs
      · cases hs
        exact .same rfl rfl rfl
      · cases hs
  | post k =>
      simp only [step] at hs
      split at hs
      · cases hs
        exact .same (by simp) (by simp) (by simp)
      · cases hs
  | worker ok => exact workerStep_change hs

end Sys

end BleGateway.DeviceSchema
