import BleGateway.DeviceSchema.Discovery

/-! # What the handlers do to a record

A record stays the one of its device: no handler changes which device it is for, but the two that
create and clear it. A frame changes the operation of its record only where it breaks the stream.
-/

namespace BleGateway.DeviceSchema

namespace Record

/-- The records agree but for the snapshots and the stream. -/
structure SameOperation (r r' : Record) : Prop where
  used : r'.used = r.used
  kind : r'.operationKind = r.operationKind
  state : r'.operationState = r.operationState
  id : r'.operationId = r.operationId
  refresh : r'.refreshActive = r.refreshActive

/-- The stream that a record collects is for its device, and only used records have a name and an
operation. -/
structure Formed (r : Record) : Prop where
  staging : r.stagingActive = true → r.staging.deviceId = r.deviceId
  named : r.used = true → r.deviceId.text ≠ []
  unused : r.used = false → r.operationState = .idle

theorem formed_empty : ({} : Record).Formed := ⟨by simp, by simp, by simp⟩

variable {r r' : Record}

/-- A used record keeps its form when it keeps its device and collects no stream. -/
theorem Formed.of_inactive (h : r.Formed) (hr : r.used = true) (hused : r'.used = r.used)
    (hdev : r'.deviceId = r.deviceId) (hstaging : r'.stagingActive = false) : r'.Formed where
  staging hs := absurd (hstaging.symm.trans hs) (by simp)
  named _ := by
    rw [hdev]
    exact h.named hr
  unused hu := absurd (hr.symm.trans (hused.symm.trans hu)) (by simp)

/-- A used record keeps its form when it keeps its device and its stream. -/
theorem Formed.of_stream (h : r.Formed) (hr : r.used = true) (hused : r'.used = r.used)
    (hdev : r'.deviceId = r.deviceId) (hactive : r'.stagingActive = r.stagingActive)
    (hstaging : r'.staging = r.staging) : r'.Formed where
  staging hs := by
    rw [hstaging, hdev]
    exact h.staging (hactive ▸ hs)
  named _ := by
    rw [hdev]
    exact h.named hr
  unused hu := absurd (hr.symm.trans (hused.symm.trans hu)) (by simp)

/-! ## The small steps -/

section Fields

variable (r) (id generation : UInt32) (kind : OperationKind) (completion : SubmitResult)

@[simp] theorem fresh_used (dev : DeviceId) : (fresh dev).used = true := rfl
@[simp] theorem fresh_deviceId (dev : DeviceId) : (fresh dev).deviceId = dev := rfl
@[simp] theorem fresh_operationState (dev : DeviceId) : (fresh dev).operationState = .idle := rfl
@[simp] theorem fresh_operationKind (dev : DeviceId) : (fresh dev).operationKind = .none := rfl
@[simp] theorem fresh_stagingActive (dev : DeviceId) : (fresh dev).stagingActive = false := rfl

@[simp] theorem enqueue_used : r.enqueue.used = r.used := rfl
@[simp] theorem enqueue_deviceId : r.enqueue.deviceId = r.deviceId := rfl
@[simp] theorem enqueue_operationState : r.enqueue.operationState = .queued := rfl

@[simp] theorem run_used : (r.run id kind generation).used = r.used := rfl
@[simp] theorem run_deviceId : (r.run id kind generation).deviceId = r.deviceId := rfl
@[simp] theorem run_operationState : (r.run id kind generation).operationState = .running := rfl
@[simp] theorem run_operationId : (r.run id kind generation).operationId = id := rfl
@[simp] theorem run_operationKind : (r.run id kind generation).operationKind = kind := rfl
@[simp] theorem run_stagingActive : (r.run id kind generation).stagingActive = false := rfl

@[simp] theorem reserve_used : (r.reserve id generation).used = r.used := rfl
@[simp] theorem reserve_deviceId : (r.reserve id generation).deviceId = r.deviceId := rfl
@[simp] theorem reserve_operationState : (r.reserve id generation).operationState = .queued := rfl
@[simp] theorem reserve_operationKind : (r.reserve id generation).operationKind = .manual := rfl

@[simp] theorem unreserve_used : r.unreserve.used = r.used := rfl
@[simp] theorem unreserve_deviceId : r.unreserve.deviceId = r.deviceId := rfl
@[simp] theorem unreserve_operationState : r.unreserve.operationState = .idle := rfl

@[simp] theorem abandon_used : r.abandon.used = r.used := rfl
@[simp] theorem abandon_deviceId : r.abandon.deviceId = r.deviceId := rfl
@[simp] theorem abandon_operationState : r.abandon.operationState = .idle := rfl
@[simp] theorem abandon_operationKind : r.abandon.operationKind = r.operationKind := rfl
@[simp] theorem abandon_stagingActive : r.abandon.stagingActive = false := rfl

@[simp] theorem disconnectRunning_operationState : r.disconnectRunning.operationState = .idle := rfl

theorem disconnectRunning_frame : r.disconnectRunning.used = r.used ∧
    r.disconnectRunning.deviceId = r.deviceId ∧ r.disconnectRunning.stagingActive = false := by
  have hused := r.clearStaging.reportError_used
  have hdev := r.clearStaging.reportError_deviceId
  have hactive := r.clearStaging.reportError_stagingActive
  unfold disconnectRunning
  simp only
  split
  · exact ⟨rfl, rfl, rfl⟩
  · exact ⟨hused, hdev, hactive⟩

@[simp] theorem disconnectQueued_operationState : r.disconnectQueued.operationState = .idle := rfl

theorem disconnectQueued_frame : r.disconnectQueued.used = r.used ∧
    r.disconnectQueued.deviceId = r.deviceId ∧
    r.disconnectQueued.stagingActive = r.stagingActive ∧
    r.disconnectQueued.staging = r.staging := by
  unfold disconnectQueued
  simp only
  split
  · exact ⟨rfl, rfl, rfl, rfl⟩
  · exact ⟨r.reportError_used, r.reportError_deviceId, r.reportError_stagingActive,
      r.reportError_staging⟩

@[simp] theorem complete_operationState :
    (r.complete generation completion).operationState = .idle := rfl

theorem complete_frame : (r.complete generation completion).used = r.used ∧
    (r.complete generation completion).deviceId = r.deviceId ∧
    (r.complete generation completion).stagingActive = r.stagingActive ∧
    (r.complete generation completion).staging = r.staging := by
  have hframe (r' : Record) : (if r'.operationKind = .manual then
      { r' with
        refreshActive := ⟨0, .idle⟩
        refreshLastCompleted := ⟨generation, r'.refreshResult completion⟩ }
      else r').deviceId = r'.deviceId := by
    split <;> rfl
  unfold complete
  simp only
  by_cases hok : completion = .ok
  · simp only [if_pos hok]
    refine ⟨?_, hframe r, ?_, ?_⟩ <;> split <;> rfl
  · simp only [if_neg hok]
    refine ⟨?_, (hframe r.reportError).trans r.reportError_deviceId, ?_, ?_⟩
    · rw [← r.reportError_used]
      split <;> rfl
    · rw [← r.reportError_stagingActive]
      split <;> rfl
    · rw [← r.reportError_staging]
      split <;> rfl

end Fields

@[simp] theorem commit_deviceId : r.commit.deviceId = r.staging.deviceId := rfl
@[simp] theorem commit_stagingActive : r.commit.stagingActive = false := rfl

theorem commit_sameOperation : r.SameOperation r.commit := ⟨rfl, rfl, rfl, rfl, rfl⟩

end Record

/-! ## Frames -/

section Frames

variable {id : DeviceId} {msg : Message} {r r' : Record}

/-- What a frame that is stored leaves: `capabilities_begin` opens a stream for the device, and an
item continues the one that is open. -/
structure Stored (id : DeviceId) (msg : Message) (r r' : Record) : Prop where
  same : r.SameOperation r'
  committed : r'.committed = r.committed
  hasCommitted : r'.hasCommitted = r.hasCommitted
  opens : msg.type = cstr "capabilities_begin" →
    r.operationState = .running ∧ r'.staging.deviceId = id
  continues : msg.type ≠ cstr "capabilities_begin" →
    r.stagingActive = true ∧ r'.staging.deviceId = r.staging.deviceId

theorem handleBegin_stored (h : handleBegin id msg r = .stored r') :
    r.SameOperation r' ∧ r'.committed = r.committed ∧ r'.hasCommitted = r.hasCommitted ∧
      r.operationState = .running ∧ r'.staging.deviceId = id := by
  unfold handleBegin at h
  split at h
  · split at h
    · cases h
    · rename_i hok
      obtain rfl := Verdict.stored.inj h
      have hrun : r.operationState = .running := by
        by_contra hne
        exact hok (.inr (.inr (.inr hne)))
      exact ⟨⟨rfl, rfl, rfl, rfl, rfl⟩, rfl, rfl, hrun, rfl⟩
  · cases h

theorem handleToolItem_stored (h : handleToolItem id msg r = .stored r') :
    r.SameOperation r' ∧ r'.committed = r.committed ∧ r'.hasCommitted = r.hasCommitted ∧
      r.stagingActive = true ∧ r'.staging.deviceId = r.staging.deviceId := by
  unfold handleToolItem at h
  split at h
  · simp only at h
    split at h
    · cases h
    · split at h
      · cases h
      · split at h
        · cases h
        · split at h
          · rename_i hseq
            obtain rfl := Verdict.stored.inj h
            exact ⟨⟨rfl, rfl, rfl, rfl, rfl⟩, rfl, rfl, hseq.1, rfl⟩
          · cases h
  · cases h

theorem handleFeatureItem_stored (h : handleFeatureItem id msg r = .stored r') :
    r.SameOperation r' ∧ r'.committed = r.committed ∧ r'.hasCommitted = r.hasCommitted ∧
      r.stagingActive = true ∧ r'.staging.deviceId = r.staging.deviceId := by
  unfold handleFeatureItem at h
  split at h
  · simp only at h
    split at h
    · cases h
    · split at h
      · rename_i hseq
        split at h
        · obtain rfl := Verdict.stored.inj h
          exact ⟨⟨rfl, rfl, rfl, rfl, rfl⟩, rfl, rfl, hseq.1, rfl⟩
        · cases h
      · cases h
  · cases h

theorem handleEnd_committed {changed : Bool} (h : handleEnd id msg r = .committed r' changed) :
    r.stagingActive = true ∧ r' = r.commit := by
  unfold handleEnd at h
  split at h
  · split at h
    · cases h
    · split at h
      · rename_i hcomplete
        exact ⟨hcomplete.1, (Verdict.committed.inj h).1.symm⟩
      · cases h
  · cases h

/-- Only the end of a stream commits, and the end of a stream stores nothing. -/
theorem handleEnd_ne_stored : handleEnd id msg r ≠ .stored r' := by
  unfold handleEnd
  grind

theorem handleMessage_stored (h : handleMessage id msg r = .stored r') : Stored id msg r r' := by
  unfold handleMessage at h
  split at h
  · rename_i hbegin
    obtain ⟨hsame, hcommitted, hhas, hrun, hdev⟩ := handleBegin_stored h
    exact ⟨hsame, hcommitted, hhas, fun _ => ⟨hrun, hdev⟩, fun hne => absurd hbegin hne⟩
  · rename_i hbegin
    have hitem : r.SameOperation r' ∧ r'.committed = r.committed ∧
        r'.hasCommitted = r.hasCommitted ∧ r.stagingActive = true ∧
        r'.staging.deviceId = r.staging.deviceId := by
      split at h
      · exact handleToolItem_stored h
      · split at h
        · exact handleFeatureItem_stored h
        · exact absurd h handleEnd_ne_stored
    obtain ⟨hsame, hcommitted, hhas, hactive, hdev⟩ := hitem
    exact ⟨hsame, hcommitted, hhas, fun heq => absurd heq hbegin, fun _ => ⟨hactive, hdev⟩⟩

/-- Only the end of a stream commits. -/
theorem handleMessage_end {changed : Bool} (h : handleMessage id msg r = .committed r' changed) :
    handleEnd id msg r = .committed r' changed := by
  unfold handleMessage at h
  split at h
  · unfold handleBegin at h
    grind
  · split at h
    · unfold handleToolItem at h
      grind
    · split at h
      · unfold handleFeatureItem at h
        grind
      · exact h

theorem handleMessage_committed {changed : Bool}
    (h : handleMessage id msg r = .committed r' changed) :
    r.stagingActive = true ∧ r' = r.commit := handleEnd_committed (handleMessage_end h)

end Frames

end BleGateway.DeviceSchema
