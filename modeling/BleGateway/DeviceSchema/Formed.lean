import BleGateway.DeviceSchema.RecordSteps

/-! # Records stay well formed

What the bookkeeping of the system leaves alone, the search in the record table, and an invariant
of all runs: the stream that a record collects is for the record's device, and a record without a
device has no operation.
-/

namespace BleGateway.DeviceSchema

/-! ## What the bookkeeping leaves alone -/

namespace Sys

variable (s s' : Sys) (id : DeviceId) (i : Ix) (r : Record) (e : Event) (entries : List Entry)

@[simp] theorem setRecord_records : (s.setRecord i r).records = Function.update s.records i r := rfl
@[simp] theorem setRecord_owner : (s.setRecord i r).owner = s.owner := rfl
@[simp] theorem setRecord_worker : (s.setRecord i r).worker = s.worker := rfl
@[simp] theorem setRecord_queue : (s.setRecord i r).queue = s.queue := rfl
@[simp] theorem setRecord_calls : (s.setRecord i r).calls = s.calls := rfl
@[simp] theorem setRecord_history : (s.setRecord i r).history = s.history := rfl
@[simp] theorem note_records : (s.note entries).records = s.records := rfl
@[simp] theorem note_owner : (s.note entries).owner = s.owner := rfl
@[simp] theorem note_worker : (s.note entries).worker = s.worker := rfl
@[simp] theorem note_queue : (s.note entries).queue = s.queue := rfl
@[simp] theorem note_calls : (s.note entries).calls = s.calls := rfl

@[simp] theorem post_records : (s.post e).records = s.records := by
  unfold post
  split <;> rfl

@[simp] theorem post_owner : (s.post e).owner = s.owner := by
  unfold post
  split <;> rfl

@[simp] theorem post_worker : (s.post e).worker = s.worker := by
  unfold post
  split <;> rfl

@[simp] theorem post_calls : (s.post e).calls = s.calls := by
  unfold post
  split <;> rfl

@[simp] theorem post_history : (s.post e).history = s.history := by
  unfold post
  split <;> rfl

variable {s s' id i}

/-! ## Searching the table -/

theorem find_spec (h : s.find id = some i) :
    (s.records i).used = true ∧ (s.records i).deviceId = id :=
  Directory.lookup_spec h

theorem findOrCreate_cases {s₁ : Sys} (h : s.findOrCreate id = some (s₁, i)) :
    (s₁ = s ∧ s.find id = some i) ∨
      (s.find id = none ∧ (s.records i).used = false ∧ s₁ = s.setRecord i (.fresh id)) := by
  unfold findOrCreate at h
  cases hf : s.find id with
  | some j =>
      simp only [hf, Option.some.injEq, Prod.mk.injEq] at h
      obtain ⟨rfl, rfl⟩ := h
      exact .inl ⟨rfl, rfl⟩
  | none =>
      simp only [hf, Option.map_eq_some_iff, Prod.mk.injEq] at h
      obtain ⟨j, hvacant, rfl, rfl⟩ := h
      exact .inr ⟨rfl, Directory.vacant_spec hvacant, rfl⟩

theorem findOrCreate_find {s₁ : Sys} (h : s.findOrCreate id = some (s₁, i)) :
    s₁.find id = some i := by
  rcases findOrCreate_cases h with ⟨rfl, hf⟩ | ⟨hnone, -, rfl⟩
  · exact hf
  · exact Directory.lookup_update_new hnone rfl rfl

/-- Entering a record changes nothing but the table. -/
theorem findOrCreate_eq {s₁ : Sys} (h : s.findOrCreate id = some (s₁, i)) :
    s₁ = { s with records := s₁.records } := by
  rcases findOrCreate_cases h with ⟨rfl, -⟩ | ⟨-, -, rfl⟩ <;> rfl

end Sys

/-! ## Records keep their form -/

/-- Every record of the table is well formed. -/
def Records.Formed (t : Records) : Prop := ∀ i, (t i).Formed

section Formed

variable {s s' s₁ : Sys} {t : Records} {i : Ix} {id : DeviceId} {r : Record}

theorem Records.Formed.update (h : t.Formed) (hr : r.Formed) :
    Records.Formed (Function.update t i r) := by
  intro j
  by_cases hji : j = i
  · subst hji
    rwa [Function.update_self]
  · rw [Function.update_of_ne hji]
    exact h j

theorem Record.formed_fresh (hid : id.text ≠ []) : (Record.fresh id).Formed :=
  ⟨by simp, fun _ => hid, by simp⟩

theorem Records.Formed.findOrCreate (h : s.records.Formed) (hid : id.text ≠ [])
    (hfc : s.findOrCreate id = some (s₁, i)) : s₁.records.Formed := by
  rcases Sys.findOrCreate_cases hfc with ⟨rfl, -⟩ | ⟨-, -, rfl⟩
  · exact h
  · exact h.update (Record.formed_fresh hid)

theorem Record.Formed.resetError (h : r.Formed) (hr : r.used = true) : r.resetError.Formed :=
  h.of_inactive hr r.resetError_used r.resetError_deviceId r.resetError_stagingActive

/-- A frame for the device of the record. -/
theorem Record.Formed.frame (h : r.Formed) (hr : r.used = true)
    (hid : r.deviceId = id) (msg : Message) : ((handleMessage id msg r).record r).Formed := by
  cases hv : handleMessage id msg r with
  | ignored => exact h
  | rejected => exact h.resetError hr
  | stored r' =>
      have hs := handleMessage_stored hv
      have hdev : r'.deviceId = r.deviceId := congrArg Snapshot.deviceId hs.committed
      refine ⟨fun _ => ?_, fun _ => ?_, fun hu => ?_⟩
      · show r'.staging.deviceId = r'.deviceId
        by_cases hbegin : msg.type = cstr "capabilities_begin"
        · rw [(hs.opens hbegin).2, hdev, hid]
        · obtain ⟨hactive, hstaging⟩ := hs.continues hbegin
          rw [hstaging, hdev]
          exact h.staging hactive
      · show r'.deviceId.text ≠ []
        rw [hdev]
        exact h.named hr
      · exact absurd (hr.symm.trans (hs.same.used.symm.trans hu)) (by simp)
  | committed r' changed =>
      obtain ⟨hactive, rfl⟩ := handleMessage_committed hv
      exact h.of_inactive hr rfl (h.staging hactive) rfl

theorem formed_handle {e : Event} (h : s.records.Formed) : (s.handle e).records.Formed := by
  cases e with
  | ready id =>
      show (s.handleReady id).records.Formed
      unfold Sys.handleReady
      split
      · exact h
      · simp only
        split
        · exact h
        · split
          · exact h
          · split <;> exact h
  | refresh id generation => exact h
  | disconnect id =>
      show (s.handleDisconnect id).records.Formed
      unfold Sys.handleDisconnect
      split
      · exact h
      · rename_i i hf
        have hused := (Sys.find_spec hf).1
        simp only
        split
        · obtain ⟨hu, hd, ha⟩ := (s.records i).disconnectRunning_frame
          exact h.update ((h i).of_inactive hused hu hd ha)
        · split
          · obtain ⟨hu, hd, ha, hst⟩ := (s.records i).disconnectQueued_frame
            exact h.update ((h i).of_stream hused hu hd ha hst)
          · exact h
  | notify id msg =>
      show (s.handleNotify id msg).records.Formed
      unfold Sys.handleNotify
      split
      · exact h
      · rename_i i hf
        obtain ⟨hused, hdev⟩ := Sys.find_spec hf
        have hframe := (h i).frame hused hdev msg
        simp only
        split <;> rename_i hv <;> rw [hv] at hframe
        · exact h
        · exact h.update hframe
        · exact h.update hframe
        · exact h.update hframe
  | completion context result =>
      show (s.handleCompletion context result).records.Formed
      unfold Sys.handleCompletion
      split
      · exact h
      · rename_i i hf
        have hused := (Sys.find_spec hf).1
        simp only
        split
        · exact h
        · obtain ⟨hu, hd, ha, hst⟩ :=
            (s.records i).complete_frame context.refreshGeneration result
          exact h.update ((h i).of_stream hused hu hd ha hst)

/-- The handler of an event changes the worker, and leaves the queue and the calls. -/
theorem Sys.handle_queue (s : Sys) (e : Event) :
    (s.handle e).queue = s.queue ∧ (s.handle e).calls = s.calls := by
  cases e with
  | refresh id generation => exact ⟨rfl, rfl⟩
  | ready id =>
      show (s.handleReady id).queue = _ ∧ (s.handleReady id).calls = _
      unfold Sys.handleReady
      grind
  | disconnect id =>
      show (s.handleDisconnect id).queue = _ ∧ (s.handleDisconnect id).calls = _
      unfold Sys.handleDisconnect Sys.setRecord Sys.note
      grind
  | notify id msg =>
      show (s.handleNotify id msg).queue = _ ∧ (s.handleNotify id msg).calls = _
      unfold Sys.handleNotify Sys.setRecord
      grind
  | completion context result =>
      show (s.handleCompletion context result).queue = _ ∧
        (s.handleCompletion context result).calls = _
      unfold Sys.handleCompletion Sys.setRecord Sys.note
      grind

/-- The event is for a device with a name, where it can create a record. -/
def Event.Named : Event → Prop
  | .ready id | .refresh id _ => id.text ≠ []
  | _ => True

def Worker.Named : Worker → Prop
  | .start id _ _ => id.text ≠ []
  | _ => True

def Call.Named : Call → Prop
  | .posting id _ => id.text ≠ []
  | _ => True

/-- Records are only created for devices with a name. -/
structure Sys.Formed (s : Sys) : Prop where
  records : s.records.Formed
  queue : ∀ e ∈ s.queue, e.Named
  worker : s.worker.Named
  calls : ∀ c ∈ s.calls, c.Named

namespace Sys.Formed

variable {e : Event}

theorem post (h : s.Formed) (he : e.Named) : (s.post e).Formed where
  records := by rw [post_records]; exact h.records
  queue := by
    unfold Sys.post
    split
    · intro e' he'
      rcases List.mem_append.mp he' with he' | he'
      · exact h.queue e' he'
      · exact List.mem_singleton.mp he' ▸ he
    · exact h.queue
  worker := by rw [post_worker]; exact h.worker
  calls := by rw [post_calls]; exact h.calls

/-- The worker goes on with something else. -/
theorem next (h : s.Formed) (ht : s'.records.Formed) (hq : s'.queue = s.queue)
    (hc : s'.calls = s.calls) (hw : s'.worker.Named) : s'.Formed where
  records := ht
  queue := hq ▸ h.queue
  worker := hw
  calls := hc ▸ h.calls

theorem handle (h : s.Formed) (he : e.Named) : (s.handle e).Formed := by
  obtain ⟨hq, hc⟩ := s.handle_queue e
  refine h.next (formed_handle h.records) hq hc ?_
  cases e with
  | refresh id generation => exact he
  | ready id =>
      show (s.handleReady id).worker.Named
      have hw := h.worker
      unfold Sys.handleReady
      split
      · exact he
      · simp only
        split
        · exact hw
        · split
          · exact hw
          · split
            · exact hw
            · exact he
  | disconnect id =>
      show (s.handleDisconnect id).worker.Named
      have hw := h.worker
      unfold Sys.handleDisconnect
      split
      · exact hw
      · simp only
        split
        · trivial
        · split <;> trivial
  | notify id msg =>
      show (s.handleNotify id msg).worker.Named
      have hw := h.worker
      unfold Sys.handleNotify
      split
      · exact hw
      · simp only
        split
        · exact hw
        · exact hw
        · exact hw
        · trivial
  | completion context result =>
      show (s.handleCompletion context result).worker.Named
      have hw := h.worker
      unfold Sys.handleCompletion
      split
      · trivial
      · simp only
        split
        · exact hw
        · trivial

theorem startDiscovery (h : s.Formed) {kind : OperationKind} {generation : UInt32}
    (hid : id.text ≠ []) : (s.startDiscovery id kind generation).Formed := by
  unfold Sys.startDiscovery
  split
  · exact h.next h.records rfl rfl trivial
  · rename_i s₁ i hfc
    have hrec := h.records.findOrCreate hid hfc
    have hused := (Sys.find_spec (Sys.findOrCreate_find hfc)).1
    have heq := Sys.findOrCreate_eq hfc
    have hq : s₁.queue = s.queue := by rw [heq]
    have hc : s₁.calls = s.calls := by rw [heq]
    split
    · exact h.next (hrec.update (r := (s₁.records i).enqueue)
        ((hrec i).of_stream hused rfl rfl rfl rfl)) hq hc trivial
    · exact h.next (hrec.update (r := (s₁.records i).run _ kind generation)
        ((hrec i).of_inactive hused rfl rfl rfl)) hq hc trivial

theorem startNextPending (h : s.Formed) : s.startNextPending.Formed := by
  unfold Sys.startNextPending
  split
  · exact h.next h.records rfl rfl trivial
  · simp only
    split
    · rename_i hname
      exact h.next h.records rfl rfl hname
    · exact h.next h.records rfl rfl trivial

theorem submitFailed (h : s.Formed) : (s.submitFailed id).Formed := by
  unfold Sys.submitFailed
  split
  · exact h.next h.records rfl rfl trivial
  · rename_i i hf
    exact h.next (h.records.update ((h.records i).resetError (Sys.find_spec hf).1)) rfl rfl trivial

theorem persist (h : s.Formed) {changed stored : Bool} : (s.persist id changed stored).Formed := by
  unfold Sys.persist
  split
  · exact h.next h.records rfl rfl trivial
  · rename_i i hf
    have hused := (Sys.find_spec hf).1
    have hdirty (dirty : Bool) : ({ s.records i with persistDirty := dirty } : Record).Formed :=
      (h.records i).of_stream hused rfl rfl rfl rfl
    simp only
    split <;> split <;> first
      | exact h.next h.records rfl rfl trivial
      | exact h.next (h.records.update (hdirty _)) rfl rfl trivial

theorem workerStep (h : s.Formed) {ok : Bool} (hs : s.workerStep ok = some s') : s'.Formed := by
  have hw := h.worker
  unfold Sys.workerStep at hs
  split at hs
  · split at hs
    · cases hs
    · rename_i e rest hq
      cases hs
      have he : e.Named := h.queue e (by rw [hq]; exact List.mem_cons_self)
      refine handle ⟨h.records, fun e' he' => h.queue e' ?_, h.worker, h.calls⟩ he
      rw [hq]
      exact List.mem_cons_of_mem _ he'
  · rename_i id kind generation hstart
    cases hs
    rw [hstart] at hw
    exact h.startDiscovery hw
  · cases hs
    unfold Sys.submit
    split <;> exact h.next h.records rfl rfl trivial
  · cases hs
    exact h.submitFailed
  · cases hs
    exact h.startNextPending
  · cases hs
    exact h.persist

/-- The calls grow by one that is named. -/
theorem call (h : s.Formed) {c : Call} (ht : s'.records.Formed) (hc : c.Named)
    (hq : s'.queue = s.queue) (hcalls : s'.calls = s.calls ++ [c]) (hw : s'.worker = s.worker) :
    s'.Formed where
  records := ht
  queue := hq ▸ h.queue
  worker := hw ▸ h.worker
  calls := by
    rw [hcalls]
    intro c' hc'
    rcases List.mem_append.mp hc' with hc' | hc'
    · exact h.calls c' hc'
    · exact List.mem_singleton.mp hc' ▸ hc

theorem refresh (h : s.Formed) (hid : id.text ≠ []) : (s.refresh id).Formed := by
  unfold Sys.refresh
  split
  · exact h
  · rename_i s₁ i hfc
    have hrec := h.records.findOrCreate hid hfc
    have hused := (Sys.find_spec (Sys.findOrCreate_find hfc)).1
    have heq := Sys.findOrCreate_eq hfc
    simp only
    split
    · exact h
    · refine h.call (c := .posting id _)
        (hrec.update (r := (s₁.records i).reserve _ _) ((hrec i).of_stream hused rfl rfl rfl rfl))
        hid ?_ rfl ?_
      · show s₁.queue = s.queue
        rw [heq]
      · show s₁.worker = s.worker
        rw [heq]

theorem forget (h : s.Formed) : (s.forget id).Formed := by
  unfold Sys.forget
  split
  · exact h
  · rename_i i hf
    have hused := (Sys.find_spec hf).1
    simp only
    exact h.call (c := .erasing id) (h.records.update (r := (s.records i).abandon)
      ((h.records i).of_inactive hused rfl rfl rfl)) trivial rfl rfl rfl

theorem callStep (h : s.Formed) (ok : Bool) {c : Call} (hc : c.Named) :
    (s.callStep ok c).Formed := by
  cases c with
  | posting id generation =>
      show (if s.queue.length < SCHEMA_EVENT_QUEUE_DEPTH then s.post (.refresh id generation)
        else _ : Sys).Formed
      split
      · exact h.post hc
      · exact h.call (c := .rollback id generation) h.records trivial rfl rfl rfl
  | rollback id generation =>
      show (s.refreshRollback id generation).Formed
      unfold Sys.refreshRollback
      split
      · exact h.next h.records rfl rfl h.worker
      · rename_i i hf
        have hused := (Sys.find_spec hf).1
        exact h.next (h.records.update (r := (s.records i).unreserve)
          ((h.records i).of_stream hused rfl rfl rfl rfl)) rfl rfl h.worker
  | erasing id =>
      show (if ok then s.forgetRecord id else s : Sys).Formed
      split
      · unfold Sys.forgetRecord
        split
        · exact h
        · exact h.next (h.records.update Record.formed_empty) rfl rfl h.worker
      · exact h

theorem step (h : s.Formed) {l : Label} (hs : s.step l = some s') : s'.Formed := by
  cases l with
  | ready id | disconnect id | refresh id | forget id =>
      obtain ⟨hid, ⟨⟩⟩ := Option.ite_none_right_eq_some.mp hs
      first
        | exact h.post hid
        | exact h.post trivial
        | exact h.refresh hid
        | exact h.forget
  | notify id msg =>
      cases hs
      exact h.post trivial
  | call k ok =>
      simp only [Sys.step] at hs
      split at hs
      · rename_i c hc
        cases hs
        refine callStep (s := { s with calls := s.calls.eraseIdx k })
          ⟨h.records, h.queue, h.worker, fun c' hc' => ?_⟩ ok (h.calls c (List.mem_of_getElem? hc))
        exact h.calls c' (List.mem_of_mem_eraseIdx hc')
      · cases hs
  | jobDone result =>
      simp only [Sys.step] at hs
      split at hs
      · cases hs
        exact ⟨h.records, h.queue, h.worker, h.calls⟩
      · cases hs
  | post k =>
      simp only [Sys.step] at hs
      split at hs
      · cases hs
        exact post (s := { s with done := s.done.eraseIdx k })
          ⟨h.records, h.queue, h.worker, h.calls⟩ trivial
      · cases hs
  | worker ok => exact h.workerStep hs

end Sys.Formed

theorem Sys.Initial.formed (h : s.Initial) : s.Formed := by
  rw [h.rest]
  refine ⟨fun i => ?_, by simp, trivial, by simp⟩
  cases hu : (s.records i).used with
  | false =>
      show (s.records i).Formed
      rw [h.vacant i hu]
      exact Record.formed_empty
  | true =>
      obtain ⟨snapshot, hname, heq⟩ := h.loaded i hu
      show (s.records i).Formed
      rw [heq]
      exact ⟨by simp [Record.loaded], fun _ => hname, by simp [Record.loaded]⟩

theorem formed_reachable (h : machine.Reachable s) : s.Formed :=
  Machine.Reachable.invariant (M := machine) (I := Sys.Formed) (fun _ h0 => Sys.Initial.formed h0)
    (fun _ _ _ hf hs => Sys.Formed.step hf hs) h

end Formed

end BleGateway.DeviceSchema
