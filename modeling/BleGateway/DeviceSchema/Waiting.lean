import BleGateway.DeviceSchema.Serial

/-! # No waiting discovery is lost

A record waits for its turn while another discovery has the owner. The branches that release the
owner start the next waiting record, but for one, and a few branches set a waiting record idle. In
a run that takes none of them a record only waits while the owner is active or something is on its
way that looks at the waiting records.
-/

namespace BleGateway.DeviceSchema

/-! ## What is on its way -/

/-- The worker is about to look at the waiting records or to take the owner. -/
def Worker.looks : Worker → Bool
  | .start .. | .failed _ | .startNext => true
  | _ => false

def Event.isRefresh : Event → Bool
  | .refresh .. => true
  | _ => false

def Call.isPosting : Call → Bool
  | .posting .. => true
  | _ => false

namespace Sys

variable (s : Sys)

/-- The event of a refresh is in the queue, or about to be posted. -/
def refreshComes : Bool := s.queue.any Event.isRefresh || s.calls.any Call.isPosting

/-- Some record waits. -/
def Waits : Prop := ∃ i, (s.records i).operationState = .queued

/-- The record of the device waits. -/
def isQueued (id : DeviceId) : Bool :=
  (s.find id).any fun i => decide ((s.records i).operationState = .queued)

/-- A record of another device waits. -/
def OthersWait (id : DeviceId) : Prop :=
  ∃ i, (s.records i).operationState = .queued ∧ s.find id ≠ some i

/-- A forget of the device releases the owner. -/
def releases (id : DeviceId) : Bool :=
  (s.find id).any fun i =>
    ((s.records i).operationState = .queued || (s.records i).operationState = .running) &&
      s.owns (s.records i)

/-- The completion is the one that the owner waits for. -/
def finishes (context : Context) : Bool :=
  s.owner.active && s.owner.deviceId = context.deviceId &&
    s.owner.operationId = context.operationId

/-- No owner is active, and no discovery event is queued, handled or about to be posted. -/
structure Quiet : Prop where
  owner : s.owner.active = false
  queue : s.queue = []
  worker : s.worker = .idle
  calls : s.calls.any Call.isPosting = false

end Sys

/-! ## The condition -/

/-- The worker takes an event that leaves a waiting record alone: no frame breaks the stream of
its device, and no completion is taken for it. -/
def Event.KeepsWaiting (s : Sys) : Event → Prop
  | .notify id msg => s.breaks id msg = true → s.isQueued id = false
  | .completion context _ => s.finishes context = true → s.isQueued context.deviceId = false
  | _ => True

/-- A step that leaves the waiting records their turn. A forget releases the owner only if no
other record waits or the worker is to look at them, a refresh finds room for its event, and a
discovery that finds no place for its record is not the last one to look at waiting records.
Besides `Event.KeepsWaiting`, no failed submission finds the record waiting. -/
def KeepsWaiting (s : Sys) : Label → Prop
  | .forget id => s.releases id = true → s.OthersWait id →
      s.worker.looks = true ∨ s.refreshComes = true
  | .call k _ =>
      match s.calls[k]? with
      | some (.posting ..) => s.queue.length < SCHEMA_EVENT_QUEUE_DEPTH
      | _ => True
  | .worker _ =>
      match s.worker with
      | .idle => ∀ e ∈ s.queue.head?, e.KeepsWaiting s
      | .start id _ _ => s.findOrCreate id = none → s.Waits →
          s.owner.active = true ∨ s.refreshComes = true
      | .failed id => s.isQueued id = false
      | _ => True
  | _ => True

/-! ## The invariant -/

/-- Records only wait while somebody is to look at them, and no refresh takes its reservation
back. -/
structure Sys.KeepsTurns (s : Sys) : Prop where
  turn : s.Waits → s.owner.active = true ∨ s.worker.looks = true ∨ s.refreshComes = true
  calls : ∀ id generation, Call.rollback id generation ∉ s.calls

section Turns

variable {s s' s₁ : Sys} {t : Records} {i j : Ix} {r : Record} {id : DeviceId} {e : Event}

/-- A write that makes no record wait. -/
theorem waits_of_update (hr : r.operationState = .queued → (t i).operationState = .queued)
    (hj : (Function.update t i r j).operationState = .queued) : (t j).operationState = .queued := by
  by_cases hji : j = i
  · subst hji
    rw [Function.update_self] at hj
    exact hr hj
  · rwa [Function.update_of_ne hji] at hj

/-- Only the record that is written stops waiting. -/
theorem eq_of_left (hq : (t j).operationState = .queued)
    (hl : (Function.update t i r j).operationState ≠ .queued) : j = i := by
  by_contra hji
  rw [Function.update_of_ne hji] at hl
  exact hl hq

theorem isQueued_eq_false (h : s.isQueued id = false) (hf : s.find id = some i) :
    (s.records i).operationState ≠ .queued := by
  simpa [Sys.isQueued, hf] using h

theorem nextQueued_eq_none (h : nextQueued t = none) (i : Ix) (hu : (t i).used = true) :
    (t i).operationState ≠ .queued := by
  have hall := Fin.find?_eq_none_iff.mp h i
  simpa [hu] using hall

/-- A message of the queue other than a refresh is taken out. -/
theorem refreshComes_of_cons {rest : List Event} (hq : s.queue = e :: rest)
    (he : e.isRefresh = false) (h : s.refreshComes = true) :
    ({ s with queue := rest } : Sys).refreshComes = true := by
  simpa [Sys.refreshComes, hq, he] using h

theorem refreshComes_post (h : s.refreshComes = true) : (s.post e).refreshComes = true := by
  unfold Sys.post
  split
  · simp only [Sys.refreshComes, List.any_append, Bool.or_eq_true] at h ⊢
    exact h.imp .inl id
  · exact h

/-- A call that is not posting leaves the list. -/
theorem refreshComes_eraseIdx {k : Nat} {c : Call} (hc : s.calls[k]? = some c)
    (hno : c.isPosting = false) (h : s.refreshComes = true) :
    ({ s with calls := s.calls.eraseIdx k } : Sys).refreshComes = true := by
  simp only [Sys.refreshComes, Bool.or_eq_true, List.any_eq_true] at h ⊢
  refine h.imp_right ?_
  rintro ⟨c', hmem, hpost⟩
  refine ⟨c', ?_, hpost⟩
  obtain ⟨n, hn⟩ := List.mem_iff_getElem?.mp hmem
  refine List.mem_eraseIdx_iff_getElem?.mpr ⟨n, ?_, hn⟩
  rintro rfl
  rw [hc] at hn
  cases hno.symm.trans (Option.some.inj hn ▸ hpost)

namespace Sys.KeepsTurns

/-- A step that makes no record wait and leaves somebody to look at the waiting ones. -/
theorem next (h : s.KeepsTurns)
    (hw : ∀ i, (s'.records i).operationState = .queued → (s.records i).operationState = .queued)
    (hturn : s.Waits → s.owner.active = true ∨ s.worker.looks = true ∨ s.refreshComes = true →
      s'.owner.active = true ∨ s'.worker.looks = true ∨ s'.refreshComes = true)
    (hcalls : ∀ c ∈ s'.calls, c ∈ s.calls ∨ c.isPosting = true ∨ ∃ id, c = .erasing id) :
    s'.KeepsTurns where
  turn := by
    rintro ⟨i, hi⟩
    have hwaits : s.Waits := ⟨i, hw i hi⟩
    exact hturn hwaits (h.turn hwaits)
  calls id generation hc := by
    rcases hcalls _ hc with hc | hc | ⟨id', hc⟩
    · exact h.calls id generation hc
    · cases hc
    · cases hc

/-- The worker is to look at the waiting records. -/
theorem looking (h : s.KeepsTurns) (hlooks : s'.worker.looks = true)
    (hcalls : s'.calls = s.calls) : s'.KeepsTurns :=
  ⟨fun _ => .inr (.inl hlooks), hcalls ▸ h.calls⟩

/-- The owner is active. -/
theorem owned (h : s.KeepsTurns) (ho : s'.owner.active = true) (hcalls : s'.calls = s.calls) :
    s'.KeepsTurns :=
  ⟨fun _ => .inl ho, hcalls ▸ h.calls⟩

/-- The worker is as it was, and so are the owner, the queue and the calls. -/
theorem same (h : s.KeepsTurns) (ho : s'.owner = s.owner) (hidle : s.worker.looks = false)
    (hq : s'.queue = s.queue) (hc : s'.calls = s.calls)
    (hw : ∀ i, (s'.records i).operationState = .queued → (s.records i).operationState = .queued) :
    s'.KeepsTurns := by
  refine h.next hw (fun _ hturn => ?_) fun c hmem => .inl (hc ▸ hmem)
  rcases hturn with hact | hlooks | hcomes
  · exact .inl (ho ▸ hact)
  · cases hidle.symm.trans hlooks
  · refine .inr (.inr ?_)
    simpa [Sys.refreshComes, hq, hc] using hcomes

theorem handle (h : s.KeepsTurns) (hidle : s.worker = .idle) (he : e.isRefresh = false) :
    (s.handle e).KeepsTurns := by
  have hlooks : s.worker.looks = false := by rw [hidle]; rfl
  obtain ⟨hq, hc⟩ := s.handle_queue e
  cases e with
  | refresh id generation => cases he
  | ready id =>
      show (s.handleReady id).KeepsTurns
      unfold Sys.handleReady
      split
      · exact h.looking rfl rfl
      · simp only
        split
        · exact h
        · split
          · exact h
          · split
            · exact h
            · exact h.looking rfl rfl
  | disconnect id =>
      show (s.handleDisconnect id).KeepsTurns
      unfold Sys.handleDisconnect
      split
      · exact h
      · simp only
        split
        · exact h.looking rfl rfl
        · split <;> exact h.looking rfl rfl
  | notify id msg =>
      show (s.handleNotify id msg).KeepsTurns
      unfold Sys.handleNotify
      split
      · exact h
      · rename_i i hf
        simp only
        split
        · exact h
        · rename_i r' hv
          have hstate := (handleMessage_stored hv).same.state
          exact h.same rfl hlooks rfl rfl fun j => waits_of_update fun hr => hstate ▸ hr
        · exact h.same rfl hlooks rfl rfl fun j => waits_of_update fun hr => by simp at hr
        · rename_i r' changed hv
          obtain ⟨-, rfl⟩ := handleMessage_committed hv
          exact h.same rfl hlooks rfl rfl fun j => waits_of_update fun hr => hr
  | completion context result =>
      show (s.handleCompletion context result).KeepsTurns
      unfold Sys.handleCompletion
      split
      · exact h.looking rfl rfl
      · simp only
        split
        · exact h
        · exact h.looking rfl rfl

theorem startDiscovery {kind : OperationKind} {generation : UInt32} (h : s.KeepsTurns)
    (hk : s.findOrCreate id = none → s.Waits → s.owner.active = true ∨ s.refreshComes = true) :
    (s.startDiscovery id kind generation).KeepsTurns := by
  unfold Sys.startDiscovery
  split
  · rename_i hnone
    refine ⟨fun hw => ?_, h.calls⟩
    rcases hk hnone hw with ho | hcomes
    · exact .inl ho
    · exact .inr (.inr hcomes)
  · rename_i s₁ i hfc
    have heq := findOrCreate_eq hfc
    have hc : s₁.calls = s.calls := by rw [heq]
    split
    · rename_i ho
      refine h.owned ?_ hc
      show s₁.owner.active = true
      rw [heq]
      exact ho
    · exact h.owned rfl hc

theorem startNextPending (h : s.KeepsTurns) (hform : s.records.Formed) :
    s.startNextPending.KeepsTurns := by
  unfold Sys.startNextPending
  split
  · rename_i hno
    refine ⟨?_, h.calls⟩
    rintro ⟨i, hi⟩
    by_cases ho : s.owner.active = true
    · exact .inl ho
    · rw [if_neg ho] at hno
      have hused : (s.records i).used = true := by
        by_contra hu
        have hidle := (hform i).unused (by simpa using hu)
        cases hi.symm.trans hidle
      exact absurd hi (nextQueued_eq_none hno i hused)
  · rename_i i hi
    have hused : (s.records i).used = true := by
      split at hi
      · cases hi
      · have := (Fin.find?_eq_some_iff.mp hi).1
        simp only [Bool.and_eq_true] at this
        exact this.1
    simp only
    rw [if_pos ((hform i).named hused)]
    exact h.looking rfl rfl

theorem persist {changed stored : Bool} (h : s.KeepsTurns) (hlooks : s.worker.looks = false) :
    (s.persist id changed stored).KeepsTurns := by
  have hdirty (i : Ix) (dirty : Bool) (j : Ix) : (Function.update s.records i
      { s.records i with persistDirty := dirty } j).operationState = .queued →
      (s.records j).operationState = .queued :=
    waits_of_update fun hr => hr
  unfold Sys.persist
  split
  · exact h.same rfl hlooks rfl rfl fun _ hj => hj
  · simp only
    split <;> split <;> first
      | exact h.same rfl hlooks rfl rfl fun _ hj => hj
      | exact h.same rfl hlooks rfl rfl (hdirty _ _)

theorem workerStep {ok : Bool} (h : s.KeepsTurns) (hform : s.records.Formed)
    (hk : KeepsWaiting s (.worker ok)) (hs : s.workerStep ok = some s') : s'.KeepsTurns := by
  unfold Sys.workerStep at hs
  unfold KeepsWaiting at hk
  split at hs
  · rename_i hw
    split at hs
    · cases hs
    · rename_i e rest hq
      cases hs
      cases he : e.isRefresh with
      | true =>
          cases e with
          | refresh id generation => exact h.looking rfl rfl
          | _ => cases he
      | false =>
          refine handle (s := { s with queue := rest }) ?_ hw he
          refine h.next (fun _ hi => hi) (fun _ hturn => ?_) fun c hc => .inl hc
          exact hturn.imp_right (Or.imp_right (refreshComes_of_cons hq he))
  · rename_i id kind generation hw
    cases hs
    simp only [hw] at hk
    exact h.startDiscovery hk
  · rename_i context hw
    cases hs
    have hlooks : s.worker.looks = false := by rw [hw]; rfl
    unfold Sys.submit
    split
    · exact h.same rfl hlooks rfl rfl fun _ hj => hj
    · exact h.looking rfl rfl
  · cases hs
    unfold Sys.submitFailed
    refine h.looking rfl ?_
    split <;> rfl
  · cases hs
    exact h.startNextPending hform
  · rename_i id changed hw
    cases hs
    exact h.persist (by rw [hw]; rfl)

theorem refresh (h : s.KeepsTurns) : (s.refresh id).KeepsTurns := by
  unfold Sys.refresh
  split
  · exact h
  · simp only
    split
    · exact h
    · refine ⟨fun _ => .inr (.inr ?_), fun id generation hc => ?_⟩
      · simp [Sys.refreshComes, Call.isPosting]
      · rcases List.mem_append.mp hc with hc | hc
        · exact h.calls _ _ hc
        · cases List.mem_singleton.mp hc

theorem forget (h : s.KeepsTurns) (hk : s.releases id = true → s.OthersWait id →
    s.worker.looks = true ∨ s.refreshComes = true) : (s.forget id).KeepsTurns := by
  unfold Sys.forget
  split
  · exact h
  · rename_i i hf
    simp only
    have hcomes : ∀ owner, s.refreshComes = true → ({ s.setRecord i (s.records i).abandon with
        owner := owner, calls := s.calls ++ [Call.erasing id] } : Sys).refreshComes = true := by
      intro owner hcomes
      simp only [Sys.refreshComes, Bool.or_eq_true, List.any_append] at hcomes ⊢
      exact hcomes.imp_right .inl
    refine ⟨?_, fun id' generation hc => ?_⟩
    · rintro ⟨j, hj⟩
      change (Function.update s.records i (s.records i).abandon j).operationState = .queued at hj
      -- the record of the device does not wait any more, so another one does
      have hji : j ≠ i := by
        rintro rfl
        simp at hj
      have hq : (s.records j).operationState = .queued := by
        rwa [Function.update_of_ne hji] at hj
      have hothers : s.OthersWait id := by
        refine ⟨j, hq, fun hfj => hji ?_⟩
        rw [hf] at hfj
        exact (Option.some.inj hfj).symm
      by_cases hrel : s.releases id = true
      · rcases hk hrel hothers with hlooks | hc
        · exact .inr (.inl hlooks)
        · exact .inr (.inr (hcomes s.owner hc))
      · have hkeep : ¬(((s.records i).operationState = .queued ∨
            (s.records i).operationState = .running) ∧ s.owns (s.records i) = true) := by
          simpa [Sys.releases, hf] using hrel
        rw [if_neg hkeep]
        exact (h.turn ⟨j, hq⟩).imp_right (Or.imp_right (hcomes s.owner))
    · rcases List.mem_append.mp hc with hc | hc
      · exact h.calls _ _ hc
      · cases List.mem_singleton.mp hc

theorem callStep {ok : Bool} {c : Call} {k : Nat} (h : s.KeepsTurns) (hc : s.calls[k]? = some c)
    (hk : c.isPosting = true → s.queue.length < SCHEMA_EVENT_QUEUE_DEPTH) :
    (({ s with calls := s.calls.eraseIdx k } : Sys).callStep ok c).KeepsTurns := by
  have hmem : ∀ c' ∈ s.calls.eraseIdx k, c' ∈ s.calls := fun c' => List.mem_of_mem_eraseIdx
  cases c with
  | posting id generation =>
      -- the event takes the place of the call
      have hroom := hk rfl
      have hpost : (({ s with calls := s.calls.eraseIdx k } : Sys).callStep ok
          (.posting id generation)) =
          { s with queue := s.queue ++ [.refresh id generation], calls := s.calls.eraseIdx k } := by
        simp [Sys.callStep, Sys.post, hroom]
      rw [hpost]
      refine ⟨fun _ => .inr (.inr ?_), fun id' generation' hc' => h.calls _ _ (hmem _ hc')⟩
      simp [Sys.refreshComes, Event.isRefresh]
  | rollback id generation => exact absurd (List.mem_of_getElem? hc) (h.calls id generation)
  | erasing id =>
      have hcomes := refreshComes_eraseIdx (s := s) hc rfl
      have hrest : ({ s with calls := s.calls.eraseIdx k } : Sys).KeepsTurns :=
        h.next (fun _ hi => hi) (fun _ hturn => hturn.imp_right (Or.imp_right hcomes))
          fun c' hc' => .inl (hmem c' hc')
      show (if ok then ({ s with calls := s.calls.eraseIdx k } : Sys).forgetRecord id
        else _).KeepsTurns
      split
      · unfold Sys.forgetRecord
        split
        · exact hrest
        · exact hrest.next (fun j => waits_of_update fun hr => by simp at hr)
            (fun _ hturn => hturn) fun c' hc' => .inl hc'
      · exact hrest

theorem step {l : Label} (h : s.KeepsTurns) (hform : s.Formed) (hk : KeepsWaiting s l)
    (hs : s.step l = some s') : s'.KeepsTurns := by
  have hpost (e : Event) : (s.post e).KeepsTurns :=
    h.next (by simp)
      (fun _ hturn => by simpa using hturn.imp_right (Or.imp_right refreshComes_post))
      (fun c hc => .inl (by simpa using hc))
  cases l with
  | ready id | disconnect id | refresh id | forget id =>
      obtain ⟨-, ⟨⟩⟩ := Option.ite_none_right_eq_some.mp hs
      first
        | exact hpost _
        | exact h.refresh
        | exact h.forget hk
  | notify id msg =>
      cases hs
      exact hpost _
  | call k ok =>
      simp only [Sys.step] at hs
      split at hs
      · rename_i c hc
        cases hs
        refine h.callStep hc fun hposting => ?_
        cases c with
        | posting id generation =>
            simp only [KeepsWaiting, hc] at hk
            exact hk
        | _ => cases hposting
      · cases hs
  | jobDone result =>
      simp only [Sys.step] at hs
      split at hs
      · cases hs
        exact ⟨h.turn, h.calls⟩
      · cases hs
  | post k =>
      simp only [Sys.step] at hs
      split at hs
      · cases hs
        have hrest : ({ s with done := s.done.eraseIdx k } : Sys).KeepsTurns := ⟨h.turn, h.calls⟩
        refine hrest.next (by simp) (fun _ hturn => ?_) (fun c hc => .inl (by simpa using hc))
        simpa using hturn.imp_right (Or.imp_right refreshComes_post)
      · cases hs
  | worker ok => exact h.workerStep hform.records hk hs

theorem reachable (h : machine.ReachableWhen KeepsWaiting s) : s.KeepsTurns := by
  have hboth : s.KeepsTurns ∧ s.Formed := by
    refine Machine.ReachableWhen.invariant (M := machine) (I := fun s => s.KeepsTurns ∧ s.Formed)
      (fun s₀ h0 => ⟨⟨?_, ?_⟩, h0.formed⟩) (fun s l s' hI hk hs => ?_) h
    · rintro ⟨i, hi⟩
      cases hu : (s₀.records i).used with
      | false => simp [h0.vacant i hu] at hi
      | true =>
          obtain ⟨snapshot, -, heq⟩ := h0.loaded i hu
          simp [heq, Record.loaded] at hi
    · rw [h0.rest]
      simp
    · exact ⟨hI.1.step hI.2 hk hs, hI.2.step hs⟩
  exact hboth.1

end Sys.KeepsTurns

/-! ## How a record stops waiting -/

/-- The record stops waiting because its discovery is started, its device has disconnected, or its
device is forgotten. -/
inductive Sys.EndsWaiting (s s' : Sys) (i : Ix) : Label → Prop
  | started {ok : Bool} {kind : OperationKind} {generation : UInt32} :
      s.worker = .start (s.records i).deviceId kind generation →
      (s'.records i).operationState = .running → EndsWaiting s s' i (.worker ok)
  | disconnected {ok : Bool} {rest : List Event} :
      s.worker = .idle → s.queue = .disconnect (s.records i).deviceId :: rest →
      EndsWaiting s s' i (.worker ok)
  | forgotten : EndsWaiting s s' i (.forget (s.records i).deviceId)
  | cleared {k : Nat} : s.calls[k]? = some (.erasing (s.records i).deviceId) →
      EndsWaiting s s' i (.call k true)

/-- An event takes no turn but that of a record whose device has disconnected. -/
theorem handle_keeps_queued (hk : e.KeepsWaiting s) (hq : (s.records j).operationState = .queued)
    (hl : ((s.handle e).records j).operationState ≠ .queued) :
    e = .disconnect (s.records j).deviceId := by
  cases e with
  | refresh id generation => exact absurd hq hl
  | ready id =>
      have hsame : ((s.handleReady id).records j) = s.records j := by
        unfold Sys.handleReady
        grind
      exact absurd (hsame ▸ hq) hl
  | disconnect id =>
      change ((s.handleDisconnect id).records j).operationState ≠ .queued at hl
      have hj : s.find id = some j := by
        unfold Sys.handleDisconnect at hl
        split at hl
        · exact absurd hq hl
        · rename_i i hf
          simp only at hl
          split at hl
          · exact eq_of_left hq hl ▸ hf
          · split at hl
            · exact eq_of_left hq hl ▸ hf
            · exact absurd hq hl
      rw [(Sys.find_spec hj).2]
  | notify id msg =>
      change ((s.handleNotify id msg).records j).operationState ≠ .queued at hl
      exfalso
      unfold Sys.handleNotify at hl
      split at hl
      · exact hl hq
      · rename_i i hf
        simp only at hl
        split at hl
        · exact hl hq
        · rename_i r' hv
          obtain rfl := eq_of_left hq hl
          refine hl ?_
          show (Function.update s.records j r' j).operationState = .queued
          rw [Function.update_self, (handleMessage_stored hv).same.state]
          exact hq
        · rename_i hv
          obtain rfl := eq_of_left hq hl
          exact isQueued_eq_false (hk (breaks_eq_true hf hv)) hf hq
        · rename_i r' changed hv
          obtain rfl := eq_of_left hq hl
          obtain ⟨-, rfl⟩ := handleMessage_committed hv
          refine hl ?_
          show (Function.update s.records j (s.records j).commit j).operationState = .queued
          rw [Function.update_self]
          exact hq
  | completion context result =>
      change ((s.handleCompletion context result).records j).operationState ≠ .queued at hl
      exfalso
      unfold Sys.handleCompletion at hl
      split at hl
      · exact hl hq
      · rename_i i hf
        simp only at hl
        split at hl
        · exact hl hq
        · rename_i hmatch
          obtain rfl := eq_of_left hq hl
          refine isQueued_eq_false (hk ?_) hf hq
          simpa [Sys.finishes, and_assoc] using hmatch

theorem findOrCreate_queued (hform : s.records.Formed) (hfc : s.findOrCreate id = some (s₁, i))
    (hq : (s.records j).operationState = .queued) :
    s₁.records j = s.records j ∧ (j = i → s.find id = some i) := by
  rcases Sys.findOrCreate_cases hfc with ⟨rfl, hf⟩ | ⟨-, hunused, rfl⟩
  · exact ⟨rfl, fun _ => hf⟩
  · have hji : j ≠ i := by
      rintro rfl
      exact absurd (hq.symm.trans ((hform j).unused hunused)) (by simp)
    exact ⟨Function.update_of_ne hji _ _, fun h => absurd h hji⟩

theorem startDiscovery_left {kind : OperationKind} {generation : UInt32}
    (hform : s.records.Formed) (hq : (s.records j).operationState = .queued)
    (hl : ((s.startDiscovery id kind generation).records j).operationState ≠ .queued) :
    (s.records j).deviceId = id ∧
      ((s.startDiscovery id kind generation).records j).operationState = .running := by
  unfold Sys.startDiscovery at hl ⊢
  split at hl
  · exact absurd hq hl
  · rename_i s₁ i hfc
    obtain ⟨hsame, hfound⟩ := findOrCreate_queued hform hfc hq
    have hq₁ : (s₁.records j).operationState = .queued := hsame ▸ hq
    by_cases ho : s.owner.active = true
    · rw [if_pos ho] at hl
      obtain rfl := eq_of_left hq₁ hl
      refine absurd ?_ hl
      show (Function.update s₁.records j _ j).operationState = .queued
      simp
    · rw [if_neg ho] at hl
      obtain rfl := eq_of_left hq₁ hl
      simp only [ho]
      rw [if_neg (by simp)]
      refine ⟨(Sys.find_spec (hfound rfl)).2, ?_⟩
      show (Function.update s₁.records j _ j).operationState = .running
      simp

theorem worker_ends_waiting {ok : Bool} (hform : s.records.Formed)
    (hk : KeepsWaiting s (.worker ok)) (hs : s.workerStep ok = some s')
    (hq : (s.records j).operationState = .queued)
    (hl : (s'.records j).operationState ≠ .queued) : s.EndsWaiting s' j (.worker ok) := by
  unfold Sys.workerStep at hs
  unfold KeepsWaiting at hk
  split at hs
  · rename_i hw
    split at hs
    · cases hs
    · rename_i e rest hqueue
      cases hs
      simp only [hw, hqueue, List.head?_cons, Option.mem_def, Option.some.injEq] at hk
      have hk := hk e rfl
      have hk' : e.KeepsWaiting { s with queue := rest } := by
        cases e <;> exact hk
      have hdisc := handle_keeps_queued hk' hq hl
      exact .disconnected hw (hdisc ▸ hqueue)
  · rename_i id kind generation hw
    cases hs
    obtain ⟨hdev, hrun⟩ := startDiscovery_left hform hq hl
    exact .started (hdev ▸ hw) hrun
  · cases hs
    refine absurd hq ?_
    unfold Sys.submit at hl
    split at hl <;> exact hl
  · rename_i id hw
    cases hs
    simp only [hw] at hk
    unfold Sys.submitFailed at hl
    split at hl
    · exact absurd hq hl
    · rename_i i hf
      obtain rfl := eq_of_left hq hl
      exact absurd hq (isQueued_eq_false hk hf)
  · cases hs
    refine absurd hq ?_
    unfold Sys.startNextPending at hl
    split at hl
    · exact hl
    · simp only at hl
      split at hl <;> exact hl
  · cases hs
    -- only the mark that the store is behind changes
    have hdirty (i : Ix) (dirty : Bool) : (Function.update s.records i
        { s.records i with persistDirty := dirty } j).operationState = .queued := by
      by_cases hji : j = i
      · subst hji
        rw [Function.update_self]
        exact hq
      · rwa [Function.update_of_ne hji]
    exfalso
    unfold Sys.persist at hl
    split at hl
    · exact hl hq
    · simp only at hl
      split at hl <;> split at hl <;> first
        | exact hl hq
        | exact hl (hdirty _ _)

theorem call_ends_waiting {ok : Bool} {k : Nat} (h : s.KeepsTurns)
    (hs : s.step (.call k ok) = some s') (hq : (s.records j).operationState = .queued)
    (hl : (s'.records j).operationState ≠ .queued) : s.EndsWaiting s' j (.call k ok) := by
  simp only [Sys.step] at hs
  split at hs
  · rename_i c hc
    cases hs
    cases c with
    | posting id generation =>
        refine absurd hq ?_
        simp only [Sys.callStep] at hl
        split at hl
        · simpa using hl
        · exact hl
    | rollback id generation => exact absurd (List.mem_of_getElem? hc) (h.calls id generation)
    | erasing id =>
        simp only [Sys.callStep] at hl
        split at hl
        · rename_i hok
          subst hok
          unfold Sys.forgetRecord at hl
          split at hl
          · exact absurd hq hl
          · rename_i i hf
            obtain rfl := eq_of_left hq hl
            have hdev : (s.records j).deviceId = id := (Sys.find_spec (s := s) hf).2
            exact .cleared (hdev ▸ hc)
        · exact absurd hq hl
  · cases hs

/-- **A record stops waiting only for a reason.** -/
theorem ends_waiting {l : Label} (h : s.KeepsTurns) (hform : s.Formed) (hk : KeepsWaiting s l)
    (hs : s.step l = some s') (hq : (s.records j).operationState = .queued)
    (hl : (s'.records j).operationState ≠ .queued) : s.EndsWaiting s' j l := by
  cases l with
  | ready id | disconnect id =>
      obtain ⟨-, ⟨⟩⟩ := Option.ite_none_right_eq_some.mp hs
      exact absurd hq (by simpa using hl)
  | notify id msg =>
      cases hs
      exact absurd hq (by simpa using hl)
  | refresh id =>
      obtain ⟨-, ⟨⟩⟩ := Option.ite_none_right_eq_some.mp hs
      exfalso
      unfold Sys.refresh at hl
      split at hl
      · exact hl hq
      · rename_i s₁ i hfc
        have hq₁ : (s₁.records j).operationState = .queued :=
          (findOrCreate_queued hform.records hfc hq).1 ▸ hq
        simp only at hl
        split at hl
        · exact hl hq
        · rename_i hstate
          obtain rfl := eq_of_left hq₁ hl
          exact hstate (.inl hq₁)
  | forget id =>
      obtain ⟨-, ⟨⟩⟩ := Option.ite_none_right_eq_some.mp hs
      have hj : s.find id = some j := by
        unfold Sys.forget at hl
        split at hl
        · exact absurd hq hl
        · rename_i i hf
          simp only at hl
          exact eq_of_left hq hl ▸ hf
      rw [← (Sys.find_spec hj).2]
      exact .forgotten
  | call k ok => exact call_ends_waiting h hs hq hl
  | jobDone result =>
      simp only [Sys.step] at hs
      split at hs
      · cases hs
        exact absurd hq hl
      · cases hs
  | post k =>
      simp only [Sys.step] at hs
      split at hs
      · cases hs
        exact absurd hq (by simpa using hl)
      · cases hs
  | worker ok => exact worker_ends_waiting hform.records hk hs hq hl

end Turns

/-! ## The result -/

/-- **No waiting discovery is lost** in a run whose steps keep the waiting records: in a quiet
state no record waits, and a record only stops waiting for a reason. -/
theorem waiting_not_lost {s : Sys} (h : machine.ReachableWhen KeepsWaiting s) :
    (s.Quiet → ∀ i, (s.records i).operationState ≠ .queued) ∧
      ∀ l s' i, KeepsWaiting s l → s.step l = some s' →
        (s.records i).operationState = .queued → (s'.records i).operationState ≠ .queued →
        s.EndsWaiting s' i l := by
  have hturns := Sys.KeepsTurns.reachable h
  constructor
  · intro hquiet i hi
    rcases hturns.turn ⟨i, hi⟩ with ho | hlooks | hcomes
    · exact absurd (hquiet.owner.symm.trans ho) (by simp)
    · rw [hquiet.worker] at hlooks
      cases hlooks
    · simp [Sys.refreshComes, hquiet.queue, hquiet.calls] at hcomes
  · intro l s' i hk hs hq hl
    exact ends_waiting hturns (formed_reachable h.reachable) hk hs hq hl

/-! ## A run that loses a discovery -/

/-- The plug waits for the lamp, which is forgotten while its command is out. The erase from the
store fails, so the completion of the lamp still finds a record and is stale. -/
def strandedRun : List Label :=
  discover lamp ++ [.ready plug, .worker true, .worker true, .forget lamp, .call 0 false,
    .jobDone .busy, .post 0, .worker true]

/-- The second place of the record table. -/
def second : Ix := ⟨1, by decide⟩

theorem waiting_lost : ¬ ∀ s, machine.Reachable s → s.Quiet → s.bridge = none → s.done = [] →
    ∀ i, (s.records i).operationState ≠ .queued := by
  intro h
  have hrun : (machine.run {} strandedRun).map (fun s =>
      !s.owner.active && decide (s.queue = [] ∧ s.worker = .idle ∧ s.calls = [] ∧
        s.bridge = none ∧ s.done = [] ∧ (s.records second).operationState = .queued)) =
      some true := by
    decide +kernel
  obtain ⟨s, hs, hp⟩ := Machine.exists_reachable_of_run initial_boot hrun
  simp only [Bool.and_eq_true, Bool.not_eq_true', decide_eq_true_eq] at hp
  obtain ⟨ho, hqueue, hw, hcalls, hbridge, hdone, hq⟩ := hp
  exact h s hs ⟨ho, hqueue, hw, by rw [hcalls]; rfl⟩ hbridge hdone second hq

instance (s : Sys) : (e : Event) → Decidable (e.KeepsWaiting s)
  | .notify id msg => inferInstanceAs (Decidable (s.breaks id msg = true → s.isQueued id = false))
  | .completion context _ =>
      inferInstanceAs (Decidable (s.finishes context = true → s.isQueued context.deviceId = false))
  | .ready _ | .refresh .. | .disconnect _ => inferInstanceAs (Decidable True)

instance (s : Sys) : Decidable s.Waits :=
  inferInstanceAs (Decidable (∃ i, (s.records i).operationState = .queued))

instance (s : Sys) (id : DeviceId) : Decidable (s.OthersWait id) :=
  inferInstanceAs (Decidable (∃ i, (s.records i).operationState = .queued ∧ s.find id ≠ some i))

instance (s : Sys) : (l : Label) → Decidable (KeepsWaiting s l)
  | .worker ok => by
      unfold KeepsWaiting
      dsimp only
      generalize s.worker = w
      exact match w with
        | .idle => inferInstanceAs (Decidable (∀ e ∈ s.queue.head?, e.KeepsWaiting s))
        | .start id _ _ => inferInstanceAs (Decidable (s.findOrCreate id = none → s.Waits → _))
        | .failed id => inferInstanceAs (Decidable (s.isQueued id = false))
        | .submit _ | .startNext | .persist .. => instDecidableTrue
  | .call k ok => by
      unfold KeepsWaiting
      dsimp only
      generalize s.calls[k]? = c
      exact match c with
        | some (.posting ..) => inferInstanceAs (Decidable (_ < _))
        | some (.rollback ..) | some (.erasing _) | none => instDecidableTrue
  | .forget id => inferInstanceAs (Decidable (_ → _))
  | .ready _ | .disconnect _ | .notify .. | .refresh _ | .jobDone _ | .post _ => instDecidableTrue

/-- The plug waits for the lamp and has its turn when the lamp's command ends. -/
def turnRun : List Label :=
  discover lamp ++ [.ready plug, .worker true, .worker true, .jobDone .ok, .post 0] ++
    List.replicate 4 (.worker true) ++ [.jobDone .ok, .post 0] ++ List.replicate 2 (.worker true)

theorem waiting_not_lost_turnRun : ∃ s : Sys, s.history.started = 2 ∧
    ∀ i, (s.records i).operationState ≠ .queued := by
  have hrun : (machine.runWhen KeepsWaiting {} turnRun).map (fun s =>
      !s.owner.active && decide (s.queue = [] ∧ s.worker = .idle ∧ s.calls = [] ∧
        s.history.started = 2)) = some true := by
    decide +kernel
  obtain ⟨s, hs, hp⟩ := Machine.exists_reachableWhen_of_run initial_boot hrun
  simp only [Bool.and_eq_true, Bool.not_eq_true', decide_eq_true_eq] at hp
  obtain ⟨ho, hqueue, hw, hcalls, hstarted⟩ := hp
  exact ⟨s, hstarted, (waiting_not_lost hs).1 ⟨ho, hqueue, hw, by rw [hcalls]; rfl⟩⟩

end BleGateway.DeviceSchema
