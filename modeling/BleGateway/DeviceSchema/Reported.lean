import BleGateway.DeviceSchema.Accounting

/-! # What an idle record reports

A discovery overwrites the state of the committed snapshot when it starts or is made to wait. Only
the commit of a stream makes it ready again; the ends of an operation leave it as it is.
-/

namespace BleGateway.DeviceSchema

/-! ## Ends of operations -/

namespace Record

/-- A committed snapshot is reported as ready. -/
def Ready (r : Record) : Prop := r.hasCommitted = true → r.committed.state = .ready

/-- The committed snapshot and its state are kept. -/
def KeepsReport (r r' : Record) : Prop :=
  r'.hasCommitted = r.hasCommitted ∧
    (r.hasCommitted = true → r'.committed.state = r.committed.state)

variable {r r' : Record}

instance (r : Record) : Decidable r.Ready := by
  unfold Ready
  infer_instance

theorem KeepsReport.of_eq (hhas : r'.hasCommitted = r.hasCommitted)
    (hcommitted : r'.committed = r.committed) : r.KeepsReport r' :=
  ⟨hhas, fun _ => congrArg Snapshot.state hcommitted⟩

theorem KeepsReport.ready_iff (h : r.KeepsReport r') : r'.Ready ↔ r.Ready := by
  obtain ⟨hhas, hstate⟩ := h
  constructor
  · intro hready hcommitted
    exact (hstate hcommitted).symm.trans (hready (hhas.trans hcommitted))
  · intro hready hcommitted'
    have hcommitted := hhas.symm.trans hcommitted'
    exact (hstate hcommitted).trans (hready hcommitted)

/-- An error is reported only without a committed snapshot. -/
theorem keepsReport_reportError (r : Record) : r.KeepsReport r.reportError := by
  unfold reportError
  split
  · exact .of_eq rfl rfl
  · rename_i hnone
    exact ⟨rfl, fun hsome => absurd hsome hnone⟩

theorem keepsReport_resetError (r : Record) : r.KeepsReport r.resetError :=
  r.clearStaging.keepsReport_reportError

theorem keepsReport_disconnectRunning (r : Record) : r.KeepsReport r.disconnectRunning := by
  unfold disconnectRunning
  dsimp only
  split
  · exact .of_eq rfl rfl
  · exact r.clearStaging.keepsReport_reportError

theorem keepsReport_disconnectQueued (r : Record) : r.KeepsReport r.disconnectQueued := by
  unfold disconnectQueued
  dsimp only
  split
  · exact .of_eq rfl rfl
  · exact r.keepsReport_reportError

theorem keepsReport_complete (r : Record) (generation : UInt32) (completion : SubmitResult) :
    r.KeepsReport (r.complete generation completion) := by
  have hresult (r₁ : Record) (h : r.KeepsReport r₁) : r.KeepsReport
      { (if r₁.operationKind = .manual then
        { r₁ with
          refreshActive := ⟨0, .idle⟩
          refreshLastCompleted := ⟨generation, r₁.refreshResult completion⟩ }
        else r₁) with operationState := .idle } := by
    split <;> exact h
  unfold complete
  by_cases hok : completion = .ok
  · rw [if_pos hok]
    exact hresult r (.of_eq rfl rfl)
  · rw [if_neg hok]
    exact hresult r.reportError r.keepsReport_reportError

/-- The record is left idle, with the snapshot and its state as they were. -/
structure Left (r r' : Record) : Prop where
  used : r'.used = r.used
  idle : r'.operationState = .idle
  keeps : r.KeepsReport r'

theorem left_resetError (r : Record) : Left r r.resetError :=
  ⟨r.resetError_used, rfl, r.keepsReport_resetError⟩

theorem left_disconnectRunning (r : Record) : Left r r.disconnectRunning :=
  ⟨r.disconnectRunning_frame.1, rfl, r.keepsReport_disconnectRunning⟩

theorem left_disconnectQueued (r : Record) : Left r r.disconnectQueued :=
  ⟨r.disconnectQueued_frame.1, rfl, r.keepsReport_disconnectQueued⟩

theorem left_complete (r : Record) (generation : UInt32) (completion : SubmitResult) :
    Left r (r.complete generation completion) :=
  ⟨(r.complete_frame generation completion).1, rfl, r.keepsReport_complete generation completion⟩

theorem left_unreserve (r : Record) : Left r r.unreserve := ⟨rfl, rfl, .of_eq rfl rfl⟩

theorem left_abandon (r : Record) : Left r r.abandon := ⟨rfl, rfl, .of_eq rfl rfl⟩

end Record

/-- The event ends the operation of the record: its device disconnects, its command completes, or a
frame breaks its stream. -/
def Event.Ends (s : Sys) (i : Ix) : Event → Prop
  | .disconnect id => s.find id = some i ∧
      ((s.records i).operationState = .running ∧ s.owns (s.records i) = true ∨
        (s.records i).operationState = .queued)
  | .completion context _ => s.find context.deviceId = some i ∧ s.owner.active = true ∧
      s.owner.deviceId = context.deviceId ∧ s.owner.operationId = context.operationId
  | .notify id msg => s.find id = some i ∧ handleMessage id msg (s.records i) = .rejected
  | .ready _ | .refresh .. => False

namespace Sys

variable {s s' : Sys} {i : Ix}

/-- The step ends the operation of the record. Beside the events of the worker that is a submission
that fails, a refresh that is taken back, and a forget. -/
def Ends (s : Sys) (i : Ix) : Label → Prop
  | .worker _ =>
      match s.worker with
      | .idle => ∃ e ∈ s.queue.head?, e.Ends s i
      | .failed id => s.find id = some i
      | _ => False
  | .call k _ =>
      match s.calls[k]? with
      | some (.rollback id _) => s.find id = some i
      | _ => False
  | .forget id => s.find id = some i
  | _ => False

/-- Where the step ends an operation, the snapshot of the record is ready already: its stream has
been committed, or there is none. -/
def Restores (s : Sys) (l : Label) : Prop := ∀ i, s.Ends i l → (s.records i).Ready

/-- An idle record reports its committed snapshot as ready. -/
def ReadyWhenIdle (s : Sys) : Prop :=
  ∀ i, (s.records i).used = true → (s.records i).operationState = .idle → (s.records i).Ready

/-- The end of an operation leaves its record so. -/
theorem Ends.left {l : Label} (h : s.Ends i l) (hs : s.step l = some s') :
    (s.records i).used = true ∧ (s.records i).Left (s'.records i) := by
  have written {id : DeviceId} {r : Record} (hf : s.find id = some i) (hr : (s.records i).Left r)
      (hrecords : s'.records = Function.update s.records i r) :
      (s.records i).used = true ∧ (s.records i).Left (s'.records i) := by
    rw [hrecords, Function.update_self]
    exact ⟨(find_spec hf).1, hr⟩
  cases l with
  | worker ok =>
      unfold Ends at h
      dsimp only at h
      have hstep : s.workerStep ok = some s' := hs
      cases hw : s.worker with
      | idle =>
          rw [hw] at h
          obtain ⟨e, hhead, hends⟩ := h
          obtain ⟨rest, hq⟩ := List.head?_eq_some_iff.mp hhead
          have hnext : s.workerStep ok = some (({ s with queue := rest } : Sys).handle e) := by
            unfold workerStep
            rw [hw, hq]
          obtain rfl := Option.some.inj (hnext.symm.trans hstep)
          cases e with
          | disconnect id =>
              obtain ⟨hf, hstate⟩ := hends
              have hf' : ({ s with queue := rest } : Sys).find id = some i := hf
              by_cases hrun : (s.records i).operationState = .running ∧
                  ({ s with queue := rest } : Sys).owns (s.records i) = true
              · refine written hf (Record.left_disconnectRunning _) ?_
                show (handleDisconnect { s with queue := rest } id).records = _
                unfold handleDisconnect
                rw [hf']
                dsimp only
                rw [if_pos hrun]
                rfl
              · have hqueued := hstate.resolve_left hrun
                refine written hf (Record.left_disconnectQueued _) ?_
                show (handleDisconnect { s with queue := rest } id).records = _
                unfold handleDisconnect
                rw [hf']
                dsimp only
                rw [if_neg hrun, if_pos hqueued]
                rfl
          | completion context result =>
              obtain ⟨hf, hactive, hdevice, hoperation⟩ := hends
              have hf' : ({ s with queue := rest } : Sys).find context.deviceId = some i := hf
              refine written hf (Record.left_complete _ context.refreshGeneration result) ?_
              show (handleCompletion { s with queue := rest } context result).records = _
              unfold handleCompletion
              rw [hf']
              dsimp only
              rw [if_neg (by simp [hactive, hdevice, hoperation])]
              rfl
          | notify id msg =>
              obtain ⟨hf, hverdict⟩ := hends
              have hf' : ({ s with queue := rest } : Sys).find id = some i := hf
              refine written hf (Record.left_resetError _) ?_
              show (handleNotify { s with queue := rest } id msg).records = _
              unfold handleNotify
              rw [hf']
              dsimp only
              rw [hverdict]
              rfl
          | ready | refresh => exact absurd hends not_false
      | failed id =>
          rw [hw] at h
          have hnext : s.workerStep ok = some (s.submitFailed id) := by
            unfold workerStep
            rw [hw]
          obtain rfl := Option.some.inj (hnext.symm.trans hstep)
          have hf : s.find id = some i := h
          refine written hf (Record.left_resetError _) ?_
          unfold submitFailed
          rw [hf]
          rfl
      | start | submit | startNext | persist =>
          rw [hw] at h
          exact absurd h not_false
  | call k ok =>
      unfold Ends at h
      unfold step at hs
      dsimp only at h hs
      cases hc : s.calls[k]? with
      | none =>
          rw [hc] at h
          exact absurd h not_false
      | some c =>
          rw [hc] at h hs
          cases hs
          cases c with
          | rollback id generation =>
              have hf : s.find id = some i := h
              refine written hf (Record.left_unreserve _) ?_
              have hf' : ({ s with calls := s.calls.eraseIdx k } : Sys).find id = some i := hf
              unfold callStep refreshRollback
              dsimp only
              rw [hf']
              rfl
          | posting | erasing => exact absurd h not_false
  | forget id =>
      have hf : s.find id = some i := h
      unfold step at hs
      obtain ⟨-, ⟨⟩⟩ := Option.ite_none_right_eq_some.mp hs
      refine written hf (Record.left_abandon _) ?_
      unfold forget
      rw [hf]
      rfl
  | ready | disconnect | notify | refresh | jobDone | post => exact absurd h not_false

/-! ## One step -/

/-- A record that is written is ready when it is left idle; the others are as they were. -/
theorem ReadyWhenIdle.update {s₁ : Sys} (h : s₁.ReadyWhenIdle) {r : Record}
    (hr : s'.records = Function.update s₁.records i r)
    (hready : r.used = true → r.operationState = .idle → r.Ready) : s'.ReadyWhenIdle := by
  intro j hused hidle
  rw [hr] at hused hidle ⊢
  by_cases hji : j = i
  · rw [hji, Function.update_self] at hused hidle ⊢
    exact hready hused hidle
  · rw [Function.update_of_ne hji] at hused hidle ⊢
    exact h j hused hidle

theorem ReadyWhenIdle.same (h : s.ReadyWhenIdle) (hr : s'.records = s.records) :
    s'.ReadyWhenIdle := by
  intro i hused hidle
  rw [hr] at hused hidle ⊢
  exact h i hused hidle

/-- A new record has no committed snapshot. -/
theorem ReadyWhenIdle.findOrCreate (h : s.ReadyWhenIdle) {id : DeviceId} {s₁ : Sys}
    (hfc : s.findOrCreate id = some (s₁, i)) : s₁.ReadyWhenIdle := by
  rcases findOrCreate_cases hfc with ⟨rfl, -⟩ | ⟨-, -, rfl⟩
  · exact h
  · exact h.update rfl fun _ _ hcommitted => by cases hcommitted

/-- An ended operation leaves a ready snapshot ready. -/
theorem ReadyWhenIdle.ended (h : s.ReadyWhenIdle) {l : Label} (hrestores : s.Restores l)
    (hends : s.Ends i l) {r : Record} (hr : s'.records = Function.update s.records i r)
    (hleft : (s.records i).Left r) : s'.ReadyWhenIdle :=
  h.update hr fun _ _ => hleft.keeps.ready_iff.mpr (hrestores i hends)

/-- **One step** leaves an idle record that does not report its committed snapshot as ready exactly
if it ends an operation that has not committed its stream. -/
theorem readyWhenIdle_step_iff {l : Label} (h : s.ReadyWhenIdle) (hs : s.step l = some s') :
    s'.ReadyWhenIdle ↔ s.Restores l := by
  constructor
  · intro h' i hends
    obtain ⟨hused, hleft⟩ := hends.left hs
    exact hleft.keeps.ready_iff.mp (h' i (hleft.used.trans hused) hleft.idle)
  · intro hrestores
    cases step_change hs with
    | same hr _ _ | refused _ _ hr _ _ | orphaned _ _ _ hr _ _ | failedGone _ _ hr _ _ =>
        exact h.same hr
    | reserved hfc _ _ hr _ _ | waits _ hfc _ hr _ _ | started _ hfc _ hr _ _ =>
        exact (h.findOrCreate hfc).update hr fun _ hidle => by cases hidle
    | @rolledBack k ok id generation _ i hcall hf hr _ _ =>
        refine h.ended hrestores ?_ hr (Record.left_unreserve _)
        unfold Ends
        dsimp only
        rw [hcall]
        exact hf
    | abandoned hf hr _ _ => exact h.ended hrestores hf hr (Record.left_abandon _)
    | cleared _ _ hr _ _ => exact h.update hr fun hused => by cases hused
    | dropped hw hq hf hrun howns hr _ _ =>
        refine h.ended hrestores ?_ hr (Record.left_disconnectRunning _)
        unfold Ends
        dsimp only
        rw [hw, hq]
        exact ⟨_, rfl, hf, Or.inl ⟨hrun, howns⟩⟩
    | unqueued hw hq hf hqueued hr _ _ =>
        refine h.ended hrestores ?_ hr (Record.left_disconnectQueued _)
        unfold Ends
        dsimp only
        rw [hw, hq]
        exact ⟨_, rfl, hf, Or.inr hqueued⟩
    | finished hw hq hf hactive hdevice hoperation hr _ _ =>
        refine h.ended hrestores ?_ hr (Record.left_complete _ _ _)
        unfold Ends
        dsimp only
        rw [hw, hq]
        exact ⟨_, rfl, hf, hactive, hdevice, hoperation⟩
    | @stored _ id msg _ _ i r' hw hq hf hverdict hr _ _ =>
        have hst := handleMessage_stored hverdict
        refine h.update hr fun hused hidle => ?_
        have hkeeps : (s.records i).KeepsReport r' := .of_eq hst.hasCommitted hst.committed
        exact hkeeps.ready_iff.mpr (h i (hst.same.used ▸ hused) (hst.same.state ▸ hidle))
    | broken hw hq hf hverdict hr _ _ =>
        refine h.ended hrestores ?_ hr (Record.left_resetError _)
        unfold Ends
        dsimp only
        rw [hw, hq]
        exact ⟨_, rfl, hf, hverdict⟩
    | committed _ _ _ _ hr _ _ => exact h.update hr fun _ _ _ => rfl
    | failed hw hf hr _ _ =>
        refine h.ended hrestores ?_ hr (Record.left_resetError _)
        unfold Ends
        dsimp only
        rw [hw]
        exact hf
    | @marked _ dirty id _ i hf hr _ _ =>
        refine h.update hr fun hused hidle => ?_
        exact h i hused hidle

theorem Initial.readyWhenIdle (h : s.Initial) : s.ReadyWhenIdle := by
  intro i hused _ _
  obtain ⟨snapshot, -, hloaded⟩ := h.loaded i hused
  rw [hloaded]
  rfl

end Sys

/-! ## Runs -/

/-- **The published status.** Along a run every idle record with a committed snapshot reports it as
ready exactly if no step of the run ends an operation whose record reports its committed snapshot
otherwise. -/
theorem readyWhenIdle_run_iff {s t : Sys} {ls : List Label} (h0 : machine.init s)
    (h : machine.run s ls = some t) :
    (∀ ks u, ks <+: ls → machine.run s ks = some u → u.ReadyWhenIdle) ↔
      ∀ ks l u, ks ++ [l] <+: ls → machine.run s ks = some u → u.Restores l :=
  Machine.run_holds_iff (I := fun _ => True) (fun _ _ _ _ _ => trivial)
    (fun _ _ _ _ hP hstep => Sys.readyWhenIdle_step_iff hP hstep) trivial
    (Sys.Initial.readyWhenIdle h0) h

/-- The lamp with a saved schema sends a new one before it acknowledges the command. -/
theorem readyWhenIdle_run_iff_refreshedRun : ∃ t, machine.run savedLamp refreshedRun = some t ∧
    (t.records first).operationState = .idle ∧ (t.records first).Ready ∧
    ((∀ ks u, ks <+: refreshedRun → machine.run savedLamp ks = some u → u.ReadyWhenIdle) ↔
      ∀ ks l u, ks ++ [l] <+: refreshedRun → machine.run savedLamp ks = some u →
        u.Restores l) := by
  have hrun : ((machine.run savedLamp refreshedRun).map fun t => decide (
      (t.records first).operationState = .idle ∧ (t.records first).Ready)) = some true := by
    decide +kernel
  obtain ⟨t, ht, hp⟩ := Option.map_eq_some_iff.mp hrun
  obtain ⟨hidle, hready⟩ := of_decide_eq_true hp
  exact ⟨t, ht, hidle, hready, readyWhenIdle_run_iff initial_savedLamp ht⟩

/-- It disconnects while the command is out: its record is idle, and the saved schema is reported as
being discovered. -/
theorem discovering_idle : ∃ s, machine.Reachable s ∧ (s.records first).used = true ∧
    (s.records first).operationState = .idle ∧ (s.records first).hasCommitted = true ∧
    (s.records first).committed.state = .discovering ∧ ¬ s.ReadyWhenIdle := by
  have hrun : ((machine.run savedLamp disconnectedRun).map fun s => decide (
      (s.records first).used = true ∧ (s.records first).operationState = .idle ∧
        (s.records first).hasCommitted = true ∧
        (s.records first).committed.state = .discovering)) = some true := by
    decide +kernel
  obtain ⟨s, hs, hp⟩ := Machine.exists_reachable_of_run initial_savedLamp hrun
  obtain ⟨hused, hidle, hcommitted, hstate⟩ := of_decide_eq_true hp
  refine ⟨s, hs, hused, hidle, hcommitted, hstate, fun h => ?_⟩
  have hready := h first hused hidle hcommitted
  rw [hstate] at hready
  cases hready

end BleGateway.DeviceSchema
