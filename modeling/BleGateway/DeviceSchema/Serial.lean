import BleGateway.DeviceSchema.Formed

/-! # One discovery at a time

The owner and the record table are kept in step by every handler but in five branches. In a run
that takes none of them, the owner is active exactly while one record runs, and it names that
record.
-/

namespace BleGateway.DeviceSchema

/-! ## The owner and the table -/

/-- The owner is active exactly while a record runs. It names that record, which the search for
its device finds. -/
structure Serial (t : Records) (o : Owner) : Prop where
  running : ∀ i, (t i).operationState = .running →
    (t i).used = true ∧ Directory.lookup Record.used Record.deviceId t (t i).deviceId = some i ∧
      o.active = true ∧ o.deviceId = (t i).deviceId ∧ o.operationId = (t i).operationId
  owned : o.active = true → ∃ i, (t i).operationState = .running

namespace Serial

variable {t : Records} {o : Owner} {i j : Ix} {r : Record} {id : DeviceId}

/-- At most one record runs. -/
theorem unique (h : Serial t o) (hi : (t i).operationState = .running)
    (hj : (t j).operationState = .running) : i = j := by
  obtain ⟨-, hfi, -, hdi, -⟩ := h.running i hi
  obtain ⟨-, hfj, -, hdj, -⟩ := h.running j hj
  have hsame : (t i).deviceId = (t j).deviceId := hdi.symm.trans hdj
  rw [hsame, hfj] at hfi
  exact (Option.some.inj hfi).symm

/-- The record that the owner's device has is the one that runs. -/
theorem found (h : Serial t o) (ho : o.active = true)
    (hf : Directory.lookup Record.used Record.deviceId t o.deviceId = some i) :
    (t i).operationState = .running := by
  obtain ⟨j, hj⟩ := h.owned ho
  obtain ⟨-, hfj, -, hdj, -⟩ := h.running j hj
  rw [hdj, hfj] at hf
  exact Option.some.inj hf ▸ hj

/-- Without an owner no record runs. -/
theorem none_running (h : Serial t o) (ho : o.active = false) (i : Ix) :
    (t i).operationState ≠ .running := by
  intro hi
  cases ho.symm.trans (h.running i hi).2.2.1

theorem of_idle (hrun : ∀ i, (t i).operationState ≠ .running) (ho : o.active = false) :
    Serial t o :=
  ⟨fun i hi => absurd hi (hrun i), fun hact => absurd (ho.symm.trans hact) (by simp)⟩

/-- A record is changed in place, and goes on running or not running. -/
theorem modify (h : Serial t o) (hused : r.used = (t i).used)
    (hdev : r.deviceId = (t i).deviceId)
    (hrun : r.operationState = .running ↔ (t i).operationState = .running)
    (hid : r.operationState = .running → r.operationId = (t i).operationId) :
    Serial (Function.update t i r) o where
  running j hj := by
    rw [Directory.lookup_update_same hused hdev]
    by_cases hji : j = i
    · subst hji
      rw [Function.update_self] at hj ⊢
      obtain ⟨hu, hf, ho, hd, hop⟩ := h.running j (hrun.mp hj)
      exact ⟨hused.trans hu, hdev ▸ hf, ho, hd.trans hdev.symm, hop.trans (hid hj).symm⟩
    · rw [Function.update_of_ne hji] at hj ⊢
      exact h.running j hj
  owned ho := by
    obtain ⟨j, hj⟩ := h.owned ho
    refine ⟨j, ?_⟩
    by_cases hji : j = i
    · subst hji
      rw [Function.update_self]
      exact hrun.mpr hj
    · rwa [Function.update_of_ne hji]

/-- A record that does not run is changed in place. -/
theorem modify_idle (h : Serial t o) (hused : r.used = (t i).used)
    (hdev : r.deviceId = (t i).deviceId) (hold : (t i).operationState ≠ .running)
    (hnew : r.operationState ≠ .running) : Serial (Function.update t i r) o :=
  h.modify hused hdev ⟨fun hr => absurd hr hnew, fun ht => absurd ht hold⟩
    fun hr => absurd hr hnew

/-- A place that no running record has is written with a record that does not run, for a device
that has no running record. -/
theorem replace (h : Serial t o) (hold : (t i).operationState ≠ .running)
    (hnew : r.operationState ≠ .running)
    (hothers : ∀ j, (t j).operationState = .running →
      ((t i).used = true → (t i).deviceId ≠ (t j).deviceId) ∧
        (r.used = true → r.deviceId ≠ (t j).deviceId)) :
    Serial (Function.update t i r) o where
  running j hj := by
    by_cases hji : j = i
    · subst hji
      rw [Function.update_self] at hj
      exact absurd hj hnew
    · rw [Function.update_of_ne hji] at hj ⊢
      obtain ⟨hu, hf, hrest⟩ := h.running j hj
      obtain ⟨hbefore, hafter⟩ := hothers j hj
      rw [Directory.lookup_update_of_ne hbefore hafter]
      exact ⟨hu, hf, hrest⟩
  owned ho := by
    obtain ⟨j, hj⟩ := h.owned ho
    have hji : j ≠ i := by
      rintro rfl
      exact hold hj
    exact ⟨j, by rwa [Function.update_of_ne hji]⟩

/-- A device that has no record gets one. -/
theorem create (h : Serial t o)
    (hnone : Directory.lookup Record.used Record.deviceId t id = none)
    (hunused : (t i).used = false) : Serial (Function.update t i (.fresh id)) o := by
  have hold : (t i).operationState ≠ .running := fun hrun =>
    absurd (hunused.symm.trans (h.running i hrun).1) (by simp)
  refine h.replace hold (by simp) fun j hj => ⟨fun hu => ?_, fun _ heq => ?_⟩
  · cases hunused.symm.trans hu
  · exact Directory.lookup_eq_none.mp hnone j (h.running j hj).1 heq.symm

/-- The record that a device has is cleared while it does not run. -/
theorem clear (h : Serial t o)
    (hf : Directory.lookup Record.used Record.deviceId t (t i).deviceId = some i)
    (hidle : (t i).operationState ≠ .running) : Serial (Function.update t i {}) o := by
  refine h.replace hidle (by simp) fun j hj => ⟨fun _ heq => ?_, by simp⟩
  have hfj := (h.running j hj).2.1
  rw [← heq, hf] at hfj
  exact hidle (Option.some.inj hfj ▸ hj)

/-- A discovery takes the free owner. -/
theorem start (h : Serial t o) (ho : o.active = false)
    (hf : Directory.lookup Record.used Record.deviceId t id = some i)
    (hused : r.used = (t i).used) (hdev : r.deviceId = (t i).deviceId)
    (hrun : r.operationState = .running) :
    Serial (Function.update t i r) ⟨true, id, r.operationId⟩ where
  running j hj := by
    rw [Directory.lookup_update_same hused hdev]
    by_cases hji : j = i
    · subst hji
      rw [Function.update_self]
      obtain ⟨hu, hid⟩ := Directory.lookup_spec hf
      exact ⟨hused.trans hu, by rw [hdev, hid]; exact hf, rfl, (hdev.trans hid).symm, rfl⟩
    · rw [Function.update_of_ne hji] at hj
      exact absurd hj (h.none_running ho j)
  owned _ := ⟨i, by rwa [Function.update_self]⟩

/-- The record of the owner's device stops, and the owner is released. -/
theorem stop (h : Serial t o) (ho : o.active = true)
    (hf : Directory.lookup Record.used Record.deviceId t o.deviceId = some i)
    (hnew : r.operationState ≠ .running) :
    Serial (Function.update t i r) { o with active := false } := by
  refine of_idle (fun j => ?_) rfl
  by_cases hji : j = i
  · subst hji
    rwa [Function.update_self]
  · rw [Function.update_of_ne hji]
    intro hj
    exact hji (h.unique hj (h.found ho hf))

end Serial

/-! ## The condition -/

/-- The record of the device runs. -/
def Sys.isRunning (s : Sys) (id : DeviceId) : Bool :=
  (s.find id).any fun i => decide ((s.records i).operationState = .running)

/-- The frame breaks the stream of the device. -/
def Sys.breaks (s : Sys) (id : DeviceId) (msg : Message) : Bool :=
  (s.find id).any fun i => decide (handleMessage id msg (s.records i) = .rejected)

/-- The worker takes an event where the owner and the table stay in step: no frame breaks the
stream of a running discovery, and a completion for a device without a record finds no owner. -/
def Event.KeepsStep (s : Sys) : Event → Prop
  | .notify id msg => s.breaks id msg = true → s.isRunning id = false
  | .completion context _ => s.find context.deviceId = none → s.owner.active = false
  | _ => True

/-- A step where the owner and the table stay in step. Beside `Event.KeepsStep`: no discovery is
started for a record that runs already, and no refresh that takes its reservation back and no
forget that clears a record finds the record running. -/
def KeepsStep (s : Sys) : Label → Prop
  | .worker _ =>
      match s.worker with
      | .idle => ∀ e ∈ s.queue.head?, e.KeepsStep s
      | .start id _ _ => s.isRunning id = false
      | _ => True
  | .call k ok =>
      match s.calls[k]? with
      | some (.rollback id _) => s.isRunning id = false
      | some (.erasing id) => ok = true → s.isRunning id = false
      | _ => True
  | _ => True

/-! ## The invariant -/

/-- The device whose discovery the worker submits. -/
def Worker.submitted : Worker → Option DeviceId
  | .submit context => some context.deviceId
  | .failed id => some id
  | _ => none

/-- The owner and the table are in step, and an owner that stands while the worker submits is the
one of the submitted discovery. -/
structure Sys.InStep (s : Sys) : Prop where
  serial : Serial s.records s.owner
  worker : ∀ id, s.worker.submitted = some id → s.owner.active = true → s.owner.deviceId = id

section InStep

variable {s s' s₁ : Sys} {i : Ix} {id : DeviceId} {e : Event}

theorem isRunning_eq_false (h : s.isRunning id = false) (hf : s.find id = some i) :
    (s.records i).operationState ≠ .running := by
  simpa [Sys.isRunning, hf] using h

theorem breaks_eq_true {msg : Message} (hf : s.find id = some i)
    (hv : handleMessage id msg (s.records i) = .rejected) : s.breaks id msg = true := by
  simp [Sys.breaks, hf, hv]

theorem owns_iff {r : Record} : s.owns r = true ↔
    s.owner.active = true ∧ s.owner.deviceId = r.deviceId ∧
      s.owner.operationId = r.operationId := by
  simp [Sys.owns, and_assoc]

namespace Sys.InStep

/-- The table and the owner stay, and the worker does not submit. -/
theorem next (h : Serial s'.records s'.owner) (hw : s'.worker.submitted = none) : s'.InStep :=
  ⟨h, fun id hid => absurd (hw.symm.trans hid) (by simp)⟩

theorem congr (h : s.InStep) (hr : s'.records = s.records) (ho : s'.owner = s.owner)
    (hw : s'.worker = s.worker) : s'.InStep := by
  refine ⟨?_, ?_⟩
  · rw [hr, ho]
    exact h.serial
  · rw [ho, hw]
    exact h.worker

/-- The owner's record is the one that the search for the owner's device finds. -/
theorem running_of_owned (h : s.InStep) (ho : s.owner.active = true)
    (hf : s.find s.owner.deviceId = some i) : (s.records i).operationState = .running :=
  h.serial.found ho hf

/-- The record of a device that runs is the owner's. -/
theorem owned_of_running (h : s.InStep) (hrun : (s.records i).operationState = .running) :
    s.owns (s.records i) = true :=
  owns_iff.mpr (h.serial.running i hrun).2.2

/-- A waiting record is not the owner's. -/
theorem not_owned_of_queued (h : s.InStep) (hf : s.find id = some i)
    (hq : (s.records i).operationState = .queued) : s.owns (s.records i) = false := by
  by_contra howns
  obtain ⟨ho, hd, -⟩ := owns_iff.mp (by simpa using howns)
  have hrun := h.running_of_owned (i := i) ho (by rw [hd, (find_spec hf).2]; exact hf)
  cases hq.symm.trans hrun

theorem handleDisconnect (h : s.InStep) (hw : s.worker = .idle) :
    (s.handleDisconnect id).InStep := by
  have hidle : s.worker.submitted = none := by rw [hw]; rfl
  unfold Sys.handleDisconnect
  split
  · exact h
  · rename_i i hf
    obtain ⟨hused, hdev⟩ := find_spec hf
    simp only
    split
    · rename_i hrun
      obtain ⟨ho, hd, -⟩ := owns_iff.mp hrun.2
      refine next (h.serial.stop ho (i := i) ?_ (by simp)) rfl
      rw [hd, hdev]
      exact hf
    · split
      · rename_i hq
        obtain ⟨hu, hd, -, -⟩ := (s.records i).disconnectQueued_frame
        exact next (h.serial.modify_idle hu hd (by simp [hq]) (by simp)) rfl
      · exact next h.serial rfl

theorem handleCompletion {context : Context} {result : SubmitResult} (h : s.InStep)
    (hk : s.find context.deviceId = none → s.owner.active = false) :
    (s.handleCompletion context result).InStep := by
  unfold Sys.handleCompletion
  split
  · rename_i hnone
    have ho := hk hnone
    exact next (Serial.of_idle (h.serial.none_running ho) rfl) rfl
  · rename_i i hf
    simp only
    split
    · exact h
    · rename_i hmatch
      simp only [Bool.not_eq_true', not_or, Bool.not_eq_false, ne_eq, not_not] at hmatch
      obtain ⟨ho, hd, -⟩ := hmatch
      refine next (h.serial.stop ho (i := i) ?_ (by simp)) rfl
      rw [hd]
      exact hf

theorem handleNotify {msg : Message} (h : s.InStep) (hform : s.records.Formed)
    (hk : s.breaks id msg = true → s.isRunning id = false) (hw : s.worker = .idle) :
    (s.handleNotify id msg).InStep := by
  have hidle : s.worker.submitted = none := by rw [hw]; rfl
  unfold Sys.handleNotify
  split
  · exact h
  · rename_i i hf
    simp only
    split
    · exact h
    · rename_i r' hv
      have hs := handleMessage_stored hv
      have hdev : r'.deviceId = (s.records i).deviceId := congrArg Snapshot.deviceId hs.committed
      exact next (h.serial.modify hs.same.used hdev (by rw [hs.same.state]) fun _ => hs.same.id)
        hidle
    · rename_i hv
      have hrun := isRunning_eq_false (hk (breaks_eq_true hf hv)) hf
      exact next (h.serial.modify_idle (by simp) (by simp) hrun (by simp)) hidle
    · rename_i r' changed hv
      obtain ⟨hactive, rfl⟩ := handleMessage_committed hv
      have hs := Record.commit_sameOperation (r := s.records i)
      refine next (h.serial.modify hs.used ?_ (by rw [hs.state]) fun _ => hs.id) rfl
      rw [Record.commit_deviceId]
      exact (hform i).staging hactive

theorem handle (h : s.InStep) (hform : s.records.Formed) (hk : e.KeepsStep s)
    (hw : s.worker = .idle) : (s.handle e).InStep := by
  cases e with
  | ready id =>
      show (s.handleReady id).InStep
      unfold Sys.handleReady
      split
      · exact next h.serial rfl
      · simp only
        split
        · exact h
        · split
          · exact h
          · split
            · exact h
            · exact next h.serial rfl
  | refresh id generation => exact next h.serial rfl
  | disconnect id => exact h.handleDisconnect hw
  | notify id msg => exact h.handleNotify hform hk hw
  | completion context result => exact h.handleCompletion hk

theorem findOrCreate (h : s.InStep) (hfc : s.findOrCreate id = some (s₁, i)) :
    Serial s₁.records s.owner := by
  rcases findOrCreate_cases hfc with ⟨rfl, -⟩ | ⟨hnone, hunused, rfl⟩
  · exact h.serial
  · exact h.serial.create hnone hunused

/-- The record that the search finds or creates does not run, if the device's does not. -/
theorem findOrCreate_idle (hk : s.isRunning id = false)
    (hfc : s.findOrCreate id = some (s₁, i)) : (s₁.records i).operationState ≠ .running := by
  rcases findOrCreate_cases hfc with ⟨rfl, hf⟩ | ⟨-, -, rfl⟩
  · exact isRunning_eq_false hk hf
  · simp

theorem startDiscovery {kind : OperationKind} {generation : UInt32} (h : s.InStep)
    (hk : s.isRunning id = false) : (s.startDiscovery id kind generation).InStep := by
  unfold Sys.startDiscovery
  split
  · exact next h.serial rfl
  · rename_i s₁ i hfc
    have hserial := h.findOrCreate hfc
    have hf := findOrCreate_find hfc
    have howner : s₁.owner = s.owner := by rw [findOrCreate_eq hfc]
    split
    · refine next ?_ rfl
      show Serial _ s₁.owner
      rw [howner]
      exact hserial.modify_idle rfl rfl (findOrCreate_idle hk hfc) (by simp)
    · rename_i ho
      refine ⟨hserial.start (by simpa using ho) hf rfl rfl rfl, fun id' hid' _ => ?_⟩
      exact Option.some.inj hid'

theorem submitFailed (h : s.InStep) (hw : s.worker = .failed id) : (s.submitFailed id).InStep := by
  have hown := h.worker id (by rw [hw]; rfl)
  unfold Sys.submitFailed
  by_cases ho : s.owner.active = true
  · have hd := hown ho
    obtain ⟨j, hj⟩ := h.serial.owned ho
    obtain ⟨-, hfj, -, hdj, -⟩ := h.serial.running j hj
    have hf : s.find id = some j := by
      rw [← hd, hdj]
      exact hfj
    rw [hf]
    refine next (h.serial.stop ho (i := j) ?_ (by simp)) rfl
    rw [hd]
    exact hf
  · have hnone := h.serial.none_running (by simpa using ho)
    split
    · exact next (Serial.of_idle hnone rfl) rfl
    · rename_i i hf
      refine next (Serial.of_idle (fun j => ?_) rfl) rfl
      show (Function.update s.records i _ j).operationState ≠ _
      by_cases hji : j = i
      · subst hji
        simp
      · rw [Function.update_of_ne hji]
        exact hnone j

theorem persist {changed stored : Bool} (h : s.InStep) : (s.persist id changed stored).InStep := by
  have hdirty (i : Ix) (dirty : Bool) : Serial
      (Function.update s.records i { s.records i with persistDirty := dirty }) s.owner :=
    h.serial.modify rfl rfl Iff.rfl fun _ => rfl
  unfold Sys.persist
  split
  · exact next h.serial rfl
  · simp only
    split <;> split <;> first
      | exact next h.serial rfl
      | exact next (hdirty _ _) rfl

theorem workerStep {ok : Bool} (h : s.InStep) (hform : s.records.Formed)
    (hk : KeepsStep s (.worker ok)) (hs : s.workerStep ok = some s') : s'.InStep := by
  unfold Sys.workerStep at hs
  unfold KeepsStep at hk
  split at hs
  · rename_i hw
    split at hs
    · cases hs
    · rename_i e rest hq
      cases hs
      simp only [hw, hq, List.head?_cons, Option.mem_def, Option.some.injEq] at hk
      have hk := hk e rfl
      have hk' : e.KeepsStep { s with queue := rest } := by
        cases e <;> exact hk
      exact handle (s := { s with queue := rest }) (h.congr rfl rfl rfl) hform hk' hw
  · rename_i id kind generation hw
    cases hs
    simp only [hw] at hk
    exact h.startDiscovery hk
  · rename_i context hw
    cases hs
    have hown := h.worker context.deviceId (by rw [hw]; rfl)
    unfold Sys.submit
    split
    · exact next h.serial rfl
    · exact ⟨h.serial, fun id hid ho => Option.some.inj hid ▸ hown ho⟩
  · rename_i id hw
    cases hs
    exact h.submitFailed hw
  · cases hs
    unfold Sys.startNextPending
    split
    · exact next h.serial rfl
    · simp only
      split <;> exact next h.serial rfl
  · cases hs
    exact h.persist

theorem refresh (h : s.InStep) : (s.refresh id).InStep := by
  unfold Sys.refresh
  split
  · exact h
  · rename_i s₁ i hfc
    have hserial := h.findOrCreate hfc
    have heq := findOrCreate_eq hfc
    simp only
    split
    · exact h
    · rename_i hstate
      rw [not_or] at hstate
      refine ⟨?_, ?_⟩
      · show Serial _ s₁.owner
        rw [heq]
        exact hserial.modify_idle rfl rfl hstate.2 (by simp)
      · show ∀ id', s₁.worker.submitted = some id' → s₁.owner.active = true → _
        rw [heq]
        exact h.worker

theorem forget (h : s.InStep) : (s.forget id).InStep := by
  unfold Sys.forget
  split
  · exact h
  · rename_i i hf
    have hdev := (find_spec hf).2
    simp only
    by_cases hrun : (s.records i).operationState = .running
    · have howns := h.owned_of_running hrun
      obtain ⟨ho, hd, -⟩ := owns_iff.mp howns
      rw [if_pos ⟨.inr hrun, howns⟩]
      refine ⟨h.serial.stop ho (i := i) ?_ (by simp),
        fun _ _ hact => absurd hact Bool.false_ne_true⟩
      rw [hd, hdev]
      exact hf
    · have hno : ¬(((s.records i).operationState = .queued ∨
          (s.records i).operationState = .running) ∧ s.owns (s.records i) = true) := by
        rintro ⟨hq | hr, howns⟩
        · rw [h.not_owned_of_queued hf hq] at howns
          cases howns
        · exact hrun hr
      rw [if_neg hno]
      exact ⟨h.serial.modify_idle rfl rfl hrun (by simp), h.worker⟩

theorem callStep {ok : Bool} {c : Call} (h : s.InStep)
    (hroll : ∀ id generation, c = .rollback id generation → s.isRunning id = false)
    (herase : ∀ id, c = .erasing id → ok = true → s.isRunning id = false) :
    (s.callStep ok c).InStep := by
  cases c with
  | posting id generation =>
      show (if _ then s.post (.refresh id generation) else _ : Sys).InStep
      split
      · exact h.congr (by simp) (by simp) (by simp)
      · exact h.congr rfl rfl rfl
  | rollback id generation =>
      show (s.refreshRollback id generation).InStep
      unfold Sys.refreshRollback
      split
      · exact h.congr rfl rfl rfl
      · rename_i i hf
        have hidle := isRunning_eq_false (hroll id generation rfl) hf
        exact ⟨h.serial.modify_idle rfl rfl hidle (by simp), h.worker⟩
  | erasing id =>
      show (if ok then s.forgetRecord id else s : Sys).InStep
      split
      · rename_i hok
        unfold Sys.forgetRecord
        split
        · exact h
        · rename_i i hf
          have hidle := isRunning_eq_false (herase id rfl hok) hf
          refine ⟨h.serial.clear ?_ hidle, h.worker⟩
          rw [(find_spec hf).2]
          exact hf
      · exact h

theorem step {l : Label} (h : s.InStep) (hform : s.Formed) (hk : KeepsStep s l)
    (hs : s.step l = some s') : s'.InStep := by
  have hpost (e : Event) : (s.post e).InStep := h.congr (by simp) (by simp) (by simp)
  cases l with
  | ready id | disconnect id | refresh id | forget id =>
      obtain ⟨-, ⟨⟩⟩ := Option.ite_none_right_eq_some.mp hs
      first
        | exact hpost _
        | exact h.refresh
        | exact h.forget
  | notify id msg =>
      cases hs
      exact hpost _
  | call k ok =>
      simp only [Sys.step] at hs
      split at hs
      · rename_i c hc
        cases hs
        unfold KeepsStep at hk
        refine callStep (s := { s with calls := s.calls.eraseIdx k }) (h.congr rfl rfl rfl) ?_ ?_
        · rintro id generation rfl
          simp only [hc] at hk
          exact hk
        · rintro id rfl
          simp only [hc] at hk
          exact hk
      · cases hs
  | jobDone result =>
      simp only [Sys.step] at hs
      split at hs
      · cases hs
        exact h.congr rfl rfl rfl
      · cases hs
  | post k =>
      simp only [Sys.step] at hs
      split at hs
      · cases hs
        exact h.congr (by simp) (by simp) (by simp)
      · cases hs
  | worker ok => exact h.workerStep hform.records hk hs

end Sys.InStep

theorem inStep_reachable (h : machine.ReachableWhen KeepsStep s) : s.InStep := by
  have hboth : s.InStep ∧ s.Formed := by
    refine Machine.ReachableWhen.invariant (M := machine) (I := fun s => s.InStep ∧ s.Formed)
      (fun s₀ h0 => ⟨?_, h0.formed⟩) (fun s l s' hI hk hs => ?_) h
    · have hidle : ∀ i, (s₀.records i).operationState ≠ .running := by
        intro i
        cases hu : (s₀.records i).used with
        | false => simp [h0.vacant i hu]
        | true =>
            obtain ⟨snapshot, -, heq⟩ := h0.loaded i hu
            simp [heq, Record.loaded]
      refine Sys.InStep.next (Serial.of_idle hidle ?_) ?_ <;> rw [h0.rest]
      rfl
    · exact ⟨hI.1.step hI.2 hk hs, hI.2.step hs⟩
  exact hboth.1

end InStep

/-! ## The result -/

/-- At most one record runs; the owner is active exactly while one does, and then names its
device and its operation. -/
structure Sys.Serialized (s : Sys) : Prop where
  single : ∀ i j, (s.records i).operationState = .running →
    (s.records j).operationState = .running → i = j
  owner : s.owner.active = true ↔ ∃ i, (s.records i).operationState = .running
  names : ∀ i, (s.records i).operationState = .running →
    s.owner.deviceId = (s.records i).deviceId ∧ s.owner.operationId = (s.records i).operationId

/-- From `s` to `s'` the records of other devices stay as they are, and so does an owner that
names another device. -/
def Sys.SparesOthers (s s' : Sys) (id : DeviceId) : Prop :=
  (∀ i, (s.records i).deviceId ≠ id → s'.records i = s.records i) ∧
    (s.owner.active = true → s.owner.deviceId ≠ id → s'.owner = s.owner)

/-- The worker goes on with the completion of this command. -/
def Sys.Completes (s : Sys) (context : Context) : Prop :=
  s.worker = .idle ∧ ∃ result rest, s.queue = .completion context result :: rest

theorem Sys.InStep.serialized {s : Sys} (h : s.InStep) : s.Serialized where
  single _ _ := h.serial.unique
  owner := ⟨h.serial.owned, fun ⟨i, hi⟩ => (h.serial.running i hi).2.2.1⟩
  names i hi := (h.serial.running i hi).2.2.2

theorem completion_spares {s s' : Sys} {context : Context} {ok : Bool}
    (hc : s.Completes context) (hk : KeepsStep s (.worker ok))
    (hs : s.step (.worker ok) = some s') : s.SparesOthers s' context.deviceId := by
  obtain ⟨hw, result, rest, hq⟩ := hc
  simp only [KeepsStep, hw, hq, List.head?_cons, Option.mem_def, Option.some.injEq] at hk
  have hk := hk _ rfl
  simp only [Sys.step, Sys.workerStep, hw, hq, Option.some.injEq] at hs
  obtain rfl := hs
  show s.SparesOthers ({ s with queue := rest, worker := .idle }.handleCompletion context result) _
  unfold Sys.handleCompletion
  split
  · rename_i hnone
    have hno : s.owner.active = false := hk hnone
    exact ⟨fun _ _ => rfl, fun ho => absurd (hno.symm.trans ho) (by simp)⟩
  · rename_i i hf
    have hdev : (s.records i).deviceId = context.deviceId := (Sys.find_spec (s := s) hf).2
    simp only
    split
    · exact ⟨fun _ _ => rfl, fun _ _ => rfl⟩
    · rename_i hmatch
      simp only [Bool.not_eq_true', not_or, Bool.not_eq_false, ne_eq, not_not] at hmatch
      refine ⟨fun j hj => ?_, fun _ hne => absurd hmatch.2.1 hne⟩
      have hji : j ≠ i := by
        rintro rfl
        exact hj hdev
      exact Function.update_of_ne hji _ _

/-- **Discovery is serialized** in every run whose steps keep the owner and the table in step, and
there a completion of one device touches neither the record nor the owner of another one. -/
theorem discovery_serialized {s : Sys} (h : machine.ReachableWhen KeepsStep s) :
    s.Serialized ∧ ∀ ok context s', s.Completes context → KeepsStep s (.worker ok) →
      s.step (.worker ok) = some s' → s.SparesOthers s' context.deviceId :=
  ⟨(inStep_reachable h).serialized, fun _ _ _ hc hk hs => completion_spares hc hk hs⟩

/-! ## A run that clears another device's owner -/

def lamp : DeviceId := strlcpy _ [1]

def plug : DeviceId := strlcpy _ [2]

/-- The first place of the record table. -/
def first : Ix := ⟨0, Nat.zero_lt_succ _⟩

theorem initial_boot : Sys.Initial {} := ⟨by simp, fun _ _ => rfl, rfl⟩

instance (s : Sys) : (e : Event) → Decidable (e.KeepsStep s)
  | .notify id msg => inferInstanceAs (Decidable (s.breaks id msg = true → s.isRunning id = false))
  | .completion context _ =>
      inferInstanceAs (Decidable (s.find context.deviceId = none → s.owner.active = false))
  | .ready _ | .refresh .. | .disconnect _ => inferInstanceAs (Decidable True)

instance (s : Sys) (l : Label) : Decidable (KeepsStep s l) := by
  unfold KeepsStep
  cases l with
  | worker ok => exact (by simp only; split <;> infer_instance)
  | call k ok => exact (by simp only; split <;> infer_instance)
  | _ => exact inferInstanceAs (Decidable True)

/-- A discovery from the event to the command at the scheduler. -/
def discover (id : DeviceId) : List Label := .ready id :: List.replicate 3 (.worker true)

/-- The lamp is forgotten while its command is out. The command ends, the discovery of the plug
starts, and then the completion of the lamp is handled. -/
def forgottenRun : List Label :=
  discover lamp ++ [.forget lamp, .call 0 true, .jobDone .busy] ++ discover plug ++
    [.post 0, .worker true]

theorem discovery_not_serialized : ¬ ∀ s, machine.Reachable s → s.Serialized := by
  intro h
  have hrun : (machine.run {} forgottenRun).map (fun s =>
      !s.owner.active && decide ((s.records first).operationState = .running)) = some true := by
    decide +kernel
  obtain ⟨s, hs, hp⟩ := Machine.exists_reachable_of_run initial_boot hrun
  simp only [Bool.and_eq_true, Bool.not_eq_true', decide_eq_true_eq] at hp
  have hact := (h s hs).owner.mpr ⟨first, hp.2⟩
  exact absurd (hp.1.symm.trans hact) (by simp)

/-- The discovery of the lamp, up to its command's completion. -/
theorem discovery_serialized_lamp : ∃ s : Sys, s.owner.active = true ∧ s.Serialized := by
  have hrun : (machine.runWhen KeepsStep {} (discover lamp)).map (fun s => s.owner.active) =
      some true := by
    decide +kernel
  obtain ⟨s, hs, hp⟩ := Machine.exists_reachableWhen_of_run initial_boot hrun
  exact ⟨s, hp, (discovery_serialized hs).1⟩

end BleGateway.DeviceSchema
