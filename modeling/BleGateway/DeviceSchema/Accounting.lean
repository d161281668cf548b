import BleGateway.DeviceSchema.Books

/-! # Every refresh is accounted for

Besides the books, this is about successes and about completions that are still to come. A refresh
is recorded as a success from what its record says when the command completes. That this
speaks about the stream of the same operation rests on what happened to the record since the
operation started: the streams of a record are numbered by its operations.
-/

namespace BleGateway.DeviceSchema

open Scheduler (nextId nextId_ne_zero)

/-! ## Streams and operations -/

/-- A stream that is collected belongs to the record's last operation; while the owner names a
record, its snapshot is only ready after a commit in this operation; and so is a success. -/
structure Sys.Streams (s : Sys) : Prop where
  collected : ∀ i, (s.records i).stagingActive = true → s.history.streamNo i = s.history.opNo i
  ready : ∀ i, (s.records i).used = true → s.owner.names (s.records i) = true →
    (s.records i).committed.state = .ready → s.history.opNo i ∈ s.history.commits
  success : ∀ id outcome op, .completed id outcome op ∈ s.history.log →
    outcome.result = .success → op ∈ s.history.commits

/-- A write that opens no stream and makes no snapshot ready. -/
structure Record.Rests (r r' : Record) : Prop where
  collected : r'.stagingActive = true → r.stagingActive = true
  ready : r'.used = true → r'.committed.state = .ready →
    r.used = true ∧ r.committed.state = .ready ∧ r'.deviceId = r.deviceId ∧
      r'.operationId = r.operationId

namespace Record

variable {r r' r'' : Record}

theorem Rests.refl (r : Record) : r.Rests r := ⟨id, fun hu h => ⟨hu, h, rfl, rfl⟩⟩

/-- The other fields are free. -/
theorem Rests.congr (h : r.Rests r') (hused : r''.used = r'.used)
    (hactive : r''.stagingActive = r'.stagingActive) (hcommitted : r''.committed = r'.committed)
    (hop : r''.operationId = r'.operationId) : r.Rests r'' where
  collected hs := h.collected (hactive ▸ hs)
  ready hu hs := by
    rw [hcommitted] at hs
    obtain ⟨hu, hs, hd, hi⟩ := h.ready (hused ▸ hu) hs
    exact ⟨hu, hs, (congrArg Snapshot.deviceId hcommitted).trans hd, hop.trans hi⟩

theorem Rests.trans (h : r.Rests r') (h' : r'.Rests r'') : r.Rests r'' where
  collected hs := h.collected (h'.collected hs)
  ready hu hs := by
    obtain ⟨hu', hs', hd', hi'⟩ := h'.ready hu hs
    obtain ⟨hu, hs, hd, hi⟩ := h.ready hu' hs'
    exact ⟨hu, hs, hd'.trans hd, hi'.trans hi⟩

variable (r)

theorem rests_fresh (id : DeviceId) : r.Rests (.fresh id) := ⟨by simp, fun _ h => by cases h⟩

theorem rests_cleared : r.Rests {} := ⟨by simp, fun h => by cases h⟩

theorem rests_enqueue : r.Rests r.enqueue := ⟨id, fun _ h => by cases h⟩

theorem rests_clearStaging : r.Rests r.clearStaging :=
  ⟨by simp, fun hu h => ⟨hu, h, rfl, rfl⟩⟩

/-- An error report makes no snapshot ready. -/
theorem rests_reportError : r.Rests r.reportError := by
  unfold reportError
  split
  · exact .refl r
  · exact ⟨id, fun _ h => by cases h⟩

theorem rests_resetError : r.Rests r.resetError :=
  (r.rests_clearStaging.trans (rests_reportError _)).congr rfl rfl rfl rfl

theorem rests_disconnectRunning : r.Rests r.disconnectRunning := by
  unfold disconnectRunning
  simp only
  split
  · exact r.rests_clearStaging.congr rfl rfl rfl rfl
  · exact (r.rests_clearStaging.trans (rests_reportError _)).congr rfl rfl rfl rfl

theorem rests_disconnectQueued : r.Rests r.disconnectQueued := by
  unfold disconnectQueued
  simp only
  split
  · exact (Rests.refl r).congr rfl rfl rfl rfl
  · exact r.rests_reportError.congr rfl rfl rfl rfl

theorem rests_complete (generation : UInt32) (completion : SubmitResult) :
    r.Rests (r.complete generation completion) := by
  unfold complete
  simp only
  split
  · split <;> exact (Rests.refl r).congr rfl rfl rfl rfl
  · split <;> exact r.rests_reportError.congr rfl rfl rfl rfl

/-- A success is the completion with `ok` of a record with a committed snapshot. -/
theorem complete_success {generation : UInt32} {completion : SubmitResult}
    (hk : r.operationKind = .manual)
    (h : (r.complete generation completion).refreshLastCompleted.result = .success) :
    completion = .ok ∧ r.hasCommitted = true := by
  have hreport : r.reportError.operationKind = r.operationKind := by
    unfold reportError
    split <;> rfl
  unfold complete at h
  by_cases hok : completion = .ok
  · simp only [if_pos hok, if_pos hk] at h
    subst hok
    refine ⟨rfl, ?_⟩
    by_contra hcommitted
    simp [refreshResult, hcommitted] at h
  · simp only [if_neg hok, if_pos (hreport.trans hk)] at h
    cases completion <;> simp_all [refreshResult]

end Record

namespace Sys

variable {s s' s₁ : Sys} {i j : Ix} {id : DeviceId} {r : Record} {entries : List Entry}

/-- The entries record no success, or one whose operation has committed its stream. -/
def Earned (s : Sys) (entries : List Entry) : Prop :=
  ∀ id outcome op, .completed id outcome op ∈ entries → outcome.result = .success →
    op ∈ s.history.commits

/-- The history grows by entries whose successes are earned. -/
theorem Streams.success_add (h : s.Streams) (hearned : s.Earned entries) {past : History}
    (hh : s'.history = past.add entries) (hlog : past.log = s.history.log)
    (hcommits : past.commits = s.history.commits) : s'.Earned s'.history.log := by
  intro x outcome op he hsuccess
  rw [hh] at he ⊢
  show op ∈ past.commits
  rw [hcommits]
  rcases List.mem_append.mp he with he | he
  · exact hearned x outcome op he hsuccess
  · exact h.success x outcome op (hlog ▸ he) hsuccess

/-- Only one record is written. -/
theorem Streams.write (hr : s'.records = Function.update s.records i r)
    (hcollected : r.stagingActive = true → s'.history.streamNo i = s'.history.opNo i)
    (hkept : ∀ j ≠ i, (s.records j).stagingActive = true →
      s'.history.streamNo j = s'.history.opNo j)
    (hready : r.used = true → s'.owner.names r = true → r.committed.state = .ready →
      s'.history.opNo i ∈ s'.history.commits)
    (hstill : ∀ j ≠ i, (s.records j).used = true → s'.owner.names (s.records j) = true →
      (s.records j).committed.state = .ready → s'.history.opNo j ∈ s'.history.commits)
    (hsuccess : s'.Earned s'.history.log) : s'.Streams where
  collected j hj := by
    rw [hr] at hj
    by_cases hji : j = i
    · subst hji
      rw [Function.update_self] at hj
      exact hcollected hj
    · rw [Function.update_of_ne hji] at hj
      exact hkept j hji hj
  ready j hu hn hs := by
    rw [hr] at hu hn hs
    by_cases hji : j = i
    · subst hji
      rw [Function.update_self] at hu hn hs
      exact hready hu hn hs
    · rw [Function.update_of_ne hji] at hu hn hs
      exact hstill j hji hu hn hs
  success := hsuccess

/-- The record that is written rests. -/
theorem Streams.rests (h : s.Streams) (entries : List Entry)
    (hr : s'.records = Function.update s.records i r)
    (hrests : (s.records i).Rests r) (ho : ∀ r, s'.owner.names r = true → s.owner.names r = true)
    (hh : s'.history = s.history.add entries) (hearned : s.Earned entries) : s'.Streams := by
  refine .write hr (fun hj => ?_) (fun j _ hj => ?_) (fun hu hn hs => ?_)
    (fun j _ hu hn hs => ?_) (h.success_add hearned hh rfl rfl) <;> rw [hh]
  · exact h.collected i (hrests.collected hj)
  · exact h.collected j hj
  · obtain ⟨hu, hs, hd, hi⟩ := hrests.ready hu hs
    exact h.ready i hu (names_congr hd hi ▸ ho _ hn) hs
  · exact h.ready j hu (ho _ hn) hs

/-- No record is written. -/
theorem Streams.same (h : s.Streams) (entries : List Entry) (hr : s'.records = s.records)
    (ho : ∀ r, s'.owner.names r = true → s.owner.names r = true)
    (hh : s'.history = s.history.add entries) (hearned : s.Earned entries) : s'.Streams where
  collected j hj := by
    rw [hh]
    rw [hr] at hj
    exact h.collected j hj
  ready j hu hn hs := by
    rw [hh]
    rw [hr] at hu hn hs
    exact h.ready j hu (ho _ hn) hs
  success := h.success_add hearned hh rfl rfl

theorem Streams.findOrCreate (h : s.Streams) (hfc : s.findOrCreate id = some (s₁, i)) :
    s₁.Streams := by
  rcases findOrCreate_cases hfc with ⟨rfl, -⟩ | ⟨-, -, rfl⟩
  · exact h
  · exact h.rests [] rfl ((s.records i).rests_fresh id) (fun _ hn => hn) rfl
      fun x outcome op he => by cases he

theorem names_of_owner (ho : s'.owner = s.owner) (r : Record) (hn : s'.owner.names r = true) :
    s.owner.names r = true := ho ▸ hn

theorem names_of_release (ho : s'.owner = s.owner.release) (r : Record)
    (hn : s'.owner.names r = true) : s.owner.names r = true := by
  rw [ho, names_release] at hn
  cases hn

/-- Entries that complete nothing. -/
theorem earned_plain (hplain : ∀ e ∈ entries, ∀ x outcome op, e ≠ .completed x outcome op) :
    s.Earned entries := fun x outcome op he => absurd rfl (hplain _ he x outcome op)

theorem earned_endedEntries {mk : UInt32 → Entry} {before after : Option UInt32}
    (hmk : ∀ g x outcome op, mk g ≠ .completed x outcome op) :
    s.Earned (endedEntries mk before after) := by
  refine earned_plain fun e he x outcome op heq => ?_
  obtain ⟨g, -, rfl⟩ := of_mem_endedEntries he
  exact hmk g x outcome op heq

theorem earned_revivedEntries {before after : Option UInt32} :
    s.Earned (revivedEntries id before after) := by
  refine earned_plain fun e he x outcome op heq => ?_
  unfold revivedEntries at he
  split at he
  · rw [List.mem_singleton.mp he] at heq
    cases heq
  · cases he

theorem earned_nil : s.Earned [] := fun x outcome op he => by cases he

/-- A disconnect that ends no refresh completes none. -/
theorem earned_completedEntries {r' : Record} (hk : (s.records i).operationKind ≠ .manual) :
    s.Earned (completedEntries s id i r') := by
  rw [completedEntries, if_neg hk]
  exact earned_nil

/-- The owner does not name an operation that is reserved. -/
theorem Streams.reserved (h : s.Streams) {op generation : UInt32}
    (hr : s'.records = Function.update s.records i ((s.records i).reserve op generation))
    (hd : s.owner.active = true → s.owner.deviceId ≠ (s.records i).deviceId)
    (ho : s'.owner = s.owner) (hh : s'.history = s.history.add entries)
    (hearned : s.Earned entries) : s'.Streams := by
  refine .write hr (fun hj => ?_) (fun j _ hj => ?_) (fun _ hn _ => ?_)
    (fun j _ hu hn hs => ?_) (h.success_add hearned hh rfl rfl)
  · rw [hh]
    exact h.collected i hj
  · rw [hh]
    exact h.collected j hj
  · rw [ho, names_of_device (r := (s.records i).reserve op generation) hd] at hn
    cases hn
  · rw [hh]
    exact h.ready j hu (ho ▸ hn) hs

/-- A discovery starts without a stream and without a ready snapshot. -/
theorem Streams.started (h : s.Streams) (hrest : s.TwinsRest) (hf : s.find id = some i)
    {op generation : UInt32} {kind : OperationKind} (hop : op ≠ 0)
    (hr : s'.records = Function.update s.records i ((s.records i).run op kind generation))
    (ho : s'.owner = ⟨true, id, op⟩) (hh : s'.history = (s.history.start i).add entries)
    (hearned : s.Earned entries) : s'.Streams := by
  refine .write hr (fun hj => by cases hj) (fun j hji hj => ?_) (fun _ _ hs => by cases hs)
    (fun j hji hu hn _ => ?_) (h.success_add hearned hh rfl rfl)
  · rw [hh]
    show s.history.streamNo j = Function.update s.history.opNo i _ j
    rw [Function.update_of_ne hji]
    exact h.collected j hj
  · -- the record of another device, or one that has had no operation
    rw [ho] at hn
    simp only [Owner.names, Bool.true_and, Bool.and_eq_true, decide_eq_true_eq] at hn
    have hne : s.find (s.records j).deviceId ≠ some j := by
      rw [← hn.1, hf]
      simpa using Ne.symm hji
    exact absurd (hn.2.trans (hrest j hu hne).2) hop

/-- A frame opens the stream of the operation, or goes on with the one that is collected. -/
theorem Streams.stored (h : s.Streams) {msg : Message} (hst : Stored id msg (s.records i) r)
    (hr : s'.records = Function.update s.records i r) (ho : s'.owner = s.owner)
    (hh : s'.history = s.history.stored msg i) : s'.Streams := by
  have hsame : s'.history.opNo = s.history.opNo ∧ s'.history.commits = s.history.commits ∧
      s'.history.log = s.history.log := by
    rw [hh]
    unfold History.stored
    split <;> exact ⟨rfl, rfl, rfl⟩
  obtain ⟨hop, hcommits, hlog⟩ := hsame
  refine .write hr (fun _ => ?_) (fun j hji hj => ?_) (fun hu hn hs => ?_)
    (fun j _ hu hn hs => ?_) fun x outcome op he hsuccess => ?_
  · rw [hh]
    unfold History.stored
    split
    · simp
    · rename_i hbegin
      exact h.collected i (hst.continues hbegin).1
  · rw [hh]
    unfold History.stored
    split
    · simp only [Function.update_of_ne hji]
      exact h.collected j hj
    · exact h.collected j hj
  · rw [hop, hcommits]
    refine h.ready i (hst.same.used ▸ hu) ?_ (hst.committed ▸ hs)
    rw [← names_congr (congrArg Snapshot.deviceId hst.committed) hst.same.id, ← ho]
    exact hn
  · rw [hop, hcommits]
    exact h.ready j hu (ho ▸ hn) hs
  · rw [hcommits]
    exact h.success x outcome op (hlog ▸ he) hsuccess

/-- The stream that is committed is the one of the record's operation. -/
theorem Streams.committed (h : s.Streams) (hactive : (s.records i).stagingActive = true)
    (hr : s'.records = Function.update s.records i (s.records i).commit)
    (ho : s'.owner = s.owner)
    (hh : s'.history =
      { s.history with commits := s.history.streamNo i :: s.history.commits }) :
    s'.Streams := by
  refine .write hr (fun hj => by cases hj) (fun j _ hj => ?_) (fun _ _ _ => ?_)
    (fun j _ hu hn hs => ?_) fun x outcome op he hsuccess => ?_
  · rw [hh]
    exact h.collected j hj
  · rw [hh]
    show s.history.opNo i ∈ s.history.streamNo i :: s.history.commits
    rw [h.collected i hactive]
    exact List.mem_cons_self
  · rw [hh]
    exact List.mem_cons_of_mem _ (h.ready j hu (ho ▸ hn) hs)
  · rw [hh] at he ⊢
    exact List.mem_cons_of_mem _ (h.success x outcome op he hsuccess)

/-- A completion that ends the refresh of its command records a success only after a commit. -/
theorem Streams.earned_complete (h : s.Streams) {context : Context} {result : SubmitResult}
    (hf : s.find context.deviceId = some i) (hfin : s.finishes context = true)
    (hown : s.CompletesOwn context result) :
    s.Earned (completedEntries s context.deviceId i
      ((s.records i).complete context.refreshGeneration result)) := by
  intro x outcome op he hsuccess
  unfold completedEntries at he
  split at he
  · rename_i hk
    obtain ⟨rfl, rfl, rfl⟩ := Entry.completed.inj (List.mem_singleton.mp he)
    simp only [CompletesOwn, hf] at hown
    obtain ⟨howns, -, hready⟩ := hown hfin hk
    obtain ⟨hok, hcommitted⟩ := (s.records i).complete_success hk hsuccess
    exact h.ready i (find_spec hf).1 howns (hready hok hcommitted)
  · cases he

/-- **In a step that keeps the books, a success is earned.** -/
theorem Streams.step {l : Label} (h : s.Streams) (hrest : s.TwinsRest) (hk : KeepsBooks s l)
    (hs : s.step l = some s') : s'.Streams := by
  cases step_change hs with
  | same hr ho hh | orphaned _ _ _ hr ho hh | failedGone _ _ hr ho hh =>
      exact h.same [] hr (by first | exact names_of_owner ho | exact names_of_release ho)
        (by rw [hh]; rfl) earned_nil
  | refused _ _ hr ho hh => exact h.same _ hr (names_of_owner ho) hh (earned_plain (by simp))
  | reserved hfc hidle _ hr ho hh =>
      have howner := congrArg Sys.owner (findOrCreate_eq hfc)
      have hhistory := congrArg Sys.history (findOrCreate_eq hfc)
      refine (h.findOrCreate hfc).reserved hr (fun hact => ?_) (ho.trans howner.symm)
        (by rw [hh, hhistory]) (earned_plain (by simp))
      rw [howner, (find_spec (findOrCreate_find hfc)).2]
      exact owner_of_accepted (s := s) hfc hidle hk (by rw [howner] at hact; exact hact)
  | rolledBack _ _ hr ho hh =>
      refine h.rests _ hr ((Record.Rests.refl _).congr rfl rfl rfl rfl) (names_of_owner ho) hh ?_
      intro x outcome op he
      rcases List.mem_cons.mp he with he | he
      · cases he
      · exact earned_endedEntries (by simp) x outcome op he
  | abandoned _ hr ho hh =>
      refine h.rests _ hr ((Record.rests_clearStaging _).congr rfl rfl rfl rfl) (fun r hn => ?_) hh
        (earned_endedEntries (by simp))
      rw [ho] at hn
      split at hn
      · rw [names_release] at hn
        cases hn
      · exact hn
  | cleared _ _ hr ho hh =>
      exact h.rests _ hr (Record.rests_cleared _) (names_of_owner ho) hh
        (earned_endedEntries (by simp))
  | dropped hw hq hf hrun howns hr ho hh =>
      have hdisc : s.disconnectsRefresh _ = false := keepsBooks_event hk hw hq
      refine h.rests _ hr (Record.rests_disconnectRunning _) (names_of_release ho) hh
        (earned_completedEntries fun hkind => ?_)
      simp [Sys.disconnectsRefresh, hf, hkind, hrun, howns] at hdisc
  | unqueued hw hq hf hqueued hr ho hh =>
      have hdisc : s.disconnectsRefresh _ = false := keepsBooks_event hk hw hq
      refine h.rests _ hr (Record.rests_disconnectQueued _) (names_of_owner ho) hh
        (earned_completedEntries fun hkind => ?_)
      simp [Sys.disconnectsRefresh, hf, hkind, hqueued] at hdisc
  | @finished _ context _ _ _ _ hw hq hf hact hd hop hr ho hh =>
      have hfin : s.finishes context = true := by simp [finishes, hact, hd, hop]
      exact h.rests _ hr (Record.rests_complete _ _ _) (names_of_release ho) hh
        (h.earned_complete hf hfin (keepsBooks_event hk hw hq))
  | stored _ _ _ hv hr ho hh => exact h.stored (handleMessage_stored hv) hr ho hh
  | broken _ _ _ _ hr ho hh =>
      exact h.rests [] hr (Record.rests_resetError _) (names_of_owner ho)
        (by rw [hh]; rfl) earned_nil
  | committed _ _ _ hactive hr ho hh => exact h.committed hactive hr ho hh
  | waits _ hfc _ hr ho hh =>
      have howner := congrArg Sys.owner (findOrCreate_eq hfc)
      have hhistory := congrArg Sys.history (findOrCreate_eq hfc)
      exact (h.findOrCreate hfc).rests _ hr (Record.rests_enqueue _)
        (names_of_owner (ho.trans howner.symm)) (by rw [hh, hhistory]) earned_revivedEntries
  | started _ hfc _ hr ho hh =>
      have hhistory := congrArg Sys.history (findOrCreate_eq hfc)
      exact (h.findOrCreate hfc).started (hrest.findOrCreate hfc) (findOrCreate_find hfc)
        (nextId_ne_zero _) hr ho (by rw [hh, hhistory]) earned_revivedEntries
  | failed _ _ hr ho hh =>
      exact h.rests [] hr (Record.rests_resetError _) (names_of_release ho)
        (by rw [hh]; rfl) earned_nil
  | marked _ hr ho hh =>
      exact h.rests [] hr ((Record.Rests.refl _).congr rfl rfl rfl rfl) (names_of_owner ho)
        (by rw [hh]; rfl) earned_nil

end Sys

/-! ## Completions that are still to come -/

/-- The step is one of a call, not of the worker or of a completion on its way. -/
def Label.isCall : Label → Bool
  | .worker _ | .jobDone _ | .post _ => false
  | _ => true

/-- Where the completion of a command is, or what stands for it. -/
inductive Sys.Comes (s : Sys) (context : Context) : Prop
  | submit (worker : s.worker = .submit context)
  | failed (worker : s.worker = .failed context.deviceId)
  | bridge (bridge : s.bridge = some context)
  | done {result : SubmitResult} (done : (context, result) ∈ s.done)
  | queue {result : SubmitResult} (queue : .completion context result ∈ s.queue)

/-- The completion that the owner waits for is still to come. -/
def Sys.Awaits (s : Sys) : Prop :=
  s.owner.active = true → ∃ context, s.finishes context = true ∧ s.Comes context

namespace Sys

variable {s s' : Sys} {id : DeviceId} {context : Context}

theorem finishes_congr (ho : s'.owner = s.owner) : s'.finishes context = s.finishes context := by
  unfold finishes
  rw [ho]

/-- Nothing that is still to come gets lost, and the owner is the same or released. -/
theorem Awaits.of_comes (h : s.Awaits) (ho : s'.owner = s.owner ∨ s'.owner = s.owner.release)
    (hcomes : ∀ context, s.finishes context = true → s.Comes context →
      s'.owner.active = true → s'.Comes context) : s'.Awaits := by
  intro hact
  rcases ho with ho | ho
  · obtain ⟨context, hfin, hc⟩ := h (ho ▸ hact)
    exact ⟨context, finishes_congr ho ▸ hfin, hcomes context hfin hc hact⟩
  · rw [ho] at hact
    cases hact

/-- The worker stays where it is with all that is on its way, and the queue only grows. -/
structure Grows (s s' : Sys) : Prop where
  owner : s'.owner = s.owner ∨ s'.owner = s.owner.release
  worker : s'.worker = s.worker
  bridge : s'.bridge = s.bridge
  done : s'.done = s.done
  queue : s.queue ⊆ s'.queue

theorem Grows.refl (s : Sys) : s.Grows s := ⟨.inl rfl, rfl, rfl, rfl, List.Subset.refl _⟩

theorem Comes.grows (h : s.Comes context) (hg : s.Grows s') : s'.Comes context := by
  cases h with
  | submit h => exact .submit (hg.worker.trans h)
  | failed h => exact .failed (hg.worker.trans h)
  | bridge h => exact .bridge (hg.bridge.trans h)
  | done h => exact .done (hg.done ▸ h)
  | queue h => exact .queue (hg.queue h)

theorem post_grows (s : Sys) (e : Event) : s.Grows (s.post e) := by
  unfold post
  split
  · exact ⟨.inl rfl, rfl, rfl, rfl, List.subset_append_left _ _⟩
  · exact .refl s

theorem mem_post {e : Event} (h : s.queue.length < SCHEMA_EVENT_QUEUE_DEPTH) :
    e ∈ (s.post e).queue := by
  simp [Sys.post, h]

theorem handle_pending (s : Sys) (e : Event) :
    (s.handle e).bridge = s.bridge ∧ (s.handle e).done = s.done := by
  cases e with
  | refresh id generation => exact ⟨rfl, rfl⟩
  | ready id =>
      show (s.handleReady id).bridge = _ ∧ (s.handleReady id).done = _
      unfold handleReady
      grind
  | disconnect id =>
      show (s.handleDisconnect id).bridge = _ ∧ (s.handleDisconnect id).done = _
      unfold handleDisconnect setRecord note
      grind
  | notify id msg =>
      show (s.handleNotify id msg).bridge = _ ∧ (s.handleNotify id msg).done = _
      unfold handleNotify setRecord
      grind
  | completion context result =>
      show (s.handleCompletion context result).bridge = _ ∧
        (s.handleCompletion context result).done = _
      unfold handleCompletion setRecord note
      grind

theorem handle_owner (s : Sys) (e : Event) :
    (s.handle e).owner = s.owner ∨ (s.handle e).owner = s.owner.release := by
  cases e with
  | refresh id generation => exact .inl rfl
  | ready id =>
      show (s.handleReady id).owner = _ ∨ (s.handleReady id).owner = _
      unfold handleReady
      grind
  | disconnect id =>
      show (s.handleDisconnect id).owner = _ ∨ (s.handleDisconnect id).owner = _
      unfold handleDisconnect setRecord note Owner.release
      grind
  | notify id msg =>
      show (s.handleNotify id msg).owner = _ ∨ (s.handleNotify id msg).owner = _
      unfold handleNotify setRecord
      grind
  | completion context result =>
      show (s.handleCompletion context result).owner = _ ∨
        (s.handleCompletion context result).owner = _
      unfold handleCompletion setRecord note Owner.release
      grind

/-- The completion that the owner waits for releases it. -/
theorem handleCompletion_finishes {result : SubmitResult} (h : s.finishes context = true) :
    (s.handleCompletion context result).owner.active = false := by
  simp only [finishes, Bool.and_eq_true, decide_eq_true_eq] at h
  unfold handleCompletion
  split
  · rfl
  · simp only
    split
    · rename_i hstale
      rcases hstale with hstale | hstale | hstale
      · simp [h.1.1] at hstale
      · exact absurd h.1.2 hstale
      · exact absurd h.2 hstale
    · rfl

theorem Awaits.handle {e : Event} {rest : List Event} (h : s.Awaits) (hw : s.worker = .idle)
    (hq : s.queue = e :: rest) : ({ s with queue := rest }.handle e).Awaits := by
  obtain ⟨hbridge, hdone⟩ := handle_pending { s with queue := rest } e
  obtain ⟨hqueue, -⟩ := handle_queue { s with queue := rest } e
  refine h.of_comes (handle_owner { s with queue := rest } e) fun context hfin hc hact => ?_
  cases hc with
  | submit hc | failed hc =>
      rw [hw] at hc
      cases hc
  | bridge hc => exact .bridge (hbridge.trans hc)
  | done hc => exact .done (hdone ▸ hc)
  | @queue result hc =>
      rw [hq] at hc
      rcases List.mem_cons.mp hc with hc | hc
      · subst hc
        have hreleased :
            ({ s with queue := rest }.handleCompletion context result).owner.active = false :=
          handleCompletion_finishes hfin
        cases hreleased.symm.trans hact
      · have hmem : .completion context result ∈ ({ s with queue := rest }.handle e).queue := by
          rw [hqueue]
          exact hc
        exact .queue hmem

/-- The worker comes from a section that stands for no completion. -/
theorem Awaits.leaves (h : s.Awaits) (ho : s'.owner = s.owner) (hb : s'.bridge = s.bridge)
    (hd : s'.done = s.done) (hq : s'.queue = s.queue)
    (hw : ∀ context, s.worker ≠ .submit context ∧ s.worker ≠ .failed context.deviceId) :
    s'.Awaits := by
  refine h.of_comes (.inl ho) fun context _ hc _ => ?_
  cases hc with
  | submit hc => exact absurd hc (hw context).1
  | failed hc => exact absurd hc (hw context).2
  | bridge hc => exact .bridge (hb.trans hc)
  | done hc => exact .done (hd ▸ hc)
  | queue hc => exact .queue (hq ▸ hc)

theorem Awaits.startDiscovery (h : s.Awaits) {kind : OperationKind} {generation : UInt32}
    (hw : s.worker = .start id kind generation) : (s.startDiscovery id kind generation).Awaits := by
  have hleaves : ∀ context, s.worker ≠ .submit context ∧ s.worker ≠ .failed context.deviceId := by
    simp [hw]
  unfold Sys.startDiscovery
  split
  · exact h.leaves rfl rfl rfl rfl hleaves
  · rename_i s₁ i hfc
    have heq := findOrCreate_eq hfc
    split
    · have howner : s₁.owner = s.owner := by rw [heq]
      have hbridge : s₁.bridge = s.bridge := by rw [heq]
      have hdone : s₁.done = s.done := by rw [heq]
      have hqueue : s₁.queue = s.queue := by rw [heq]
      exact h.leaves howner hbridge hdone hqueue hleaves
    · -- the owner waits for the command that is submitted next
      intro _
      refine ⟨⟨id, nextId s₁.nextOperationId, generation⟩, ?_, .submit rfl⟩
      simp [finishes, runDiscovery, noteRevived, note]

theorem Awaits.workerStep (h : s.Awaits) {ok : Bool} (hs : s.workerStep ok = some s') :
    s'.Awaits := by
  unfold Sys.workerStep at hs
  split at hs
  · rename_i hw
    split at hs
    · cases hs
    · rename_i e rest hq
      cases hs
      exact h.handle hw hq
  · rename_i id kind generation hw
    cases hs
    exact h.startDiscovery hw
  · rename_i sent hw
    cases hs
    unfold Sys.submit
    split
    · rename_i hok
      refine h.of_comes (.inl rfl) fun context _ hc _ => ?_
      cases hc with
      | submit hc =>
          rw [hw] at hc
          cases hc
          exact .bridge rfl
      | failed hc =>
          rw [hw] at hc
          cases hc
      | bridge hc => cases hok.2.symm.trans hc
      | done hc => exact .done hc
      | queue hc => exact .queue hc
    · refine h.of_comes (.inl rfl) fun context _ hc _ => ?_
      cases hc with
      | submit hc =>
          rw [hw] at hc
          cases hc
          exact .failed rfl
      | failed hc =>
          rw [hw] at hc
          cases hc
      | bridge hc => exact .bridge hc
      | done hc => exact .done hc
      | queue hc => exact .queue hc
  · cases hs
    intro hact
    cases hact
  · rename_i hw
    cases hs
    have hleaves : ∀ context, s.worker ≠ .submit context ∧ s.worker ≠ .failed context.deviceId := by
      simp [hw]
    unfold Sys.startNextPending
    split
    · exact h.leaves rfl rfl rfl rfl hleaves
    · simp only
      split <;> exact h.leaves rfl rfl rfl rfl hleaves
  · rename_i hw
    cases hs
    have hleaves : ∀ context, s.worker ≠ .submit context ∧ s.worker ≠ .failed context.deviceId := by
      simp [hw]
    refine h.leaves ?_ ?_ ?_ ?_ hleaves <;>
    · unfold Sys.persist
      grind [setRecord]

theorem callStep_grows (s : Sys) (ok : Bool) (c : Call) : s.Grows (s.callStep ok c) := by
  cases c with
  | posting id generation =>
      simp only [callStep]
      split
      · exact s.post_grows _
      · exact ⟨.inl rfl, rfl, rfl, rfl, List.Subset.refl _⟩
  | rollback id generation =>
      simp only [callStep, refreshRollback]
      split <;> exact ⟨.inl rfl, rfl, rfl, rfl, List.Subset.refl _⟩
  | erasing id =>
      simp only [callStep, forgetRecord]
      split
      · split <;> exact ⟨.inl rfl, rfl, rfl, rfl, List.Subset.refl _⟩
      · exact .refl s

/-- The calls of the API and of the transport leave the worker and what is on its way. -/
theorem step_grows {l : Label} (hl : l.isCall = true) (hs : s.step l = some s') : s.Grows s' := by
  cases l with
  | worker ok | jobDone result | post k => cases hl
  | notify id msg =>
      cases hs
      exact s.post_grows _
  | ready id | disconnect id =>
      obtain ⟨-, hs⟩ := Option.ite_none_right_eq_some.mp hs
      cases hs
      exact s.post_grows _
  | refresh id =>
      obtain ⟨-, hs⟩ := Option.ite_none_right_eq_some.mp hs
      cases hs
      unfold Sys.refresh
      split
      · exact .refl s
      · rename_i s₁ i hfc
        have heq := findOrCreate_eq hfc
        simp only
        split
        · exact .refl s
        · refine ⟨.inl ?_, ?_, ?_, ?_, ?_⟩ <;> simp only [note, setRecord] <;> rw [heq]
          exact List.Subset.refl _
  | forget id =>
      obtain ⟨-, hs⟩ := Option.ite_none_right_eq_some.mp hs
      cases hs
      unfold Sys.forget
      split
      · exact .refl s
      · rename_i i hf
        refine ⟨?_, rfl, rfl, rfl, List.Subset.refl _⟩
        by_cases hrel : ((s.records i).operationState = .queued ∨
            (s.records i).operationState = .running) ∧ s.owns (s.records i)
        · exact .inr (if_pos hrel)
        · exact .inl (if_neg hrel)
  | call k ok =>
      simp only [Sys.step] at hs
      split at hs
      · rename_i c hc
        cases hs
        have hcall := callStep_grows { s with calls := s.calls.eraseIdx k } ok c
        exact ⟨hcall.owner, hcall.worker, hcall.bridge, hcall.done, hcall.queue⟩
      · cases hs

/-- **The completion that the owner waits for is not lost.** -/
theorem Awaits.step {l : Label} (h : s.Awaits) (hk : KeepsBooks s l) (hs : s.step l = some s') :
    s'.Awaits := by
  have hgrows (hl : l.isCall = true) : s'.Awaits :=
    h.of_comes (step_grows hl hs).owner fun _ _ hc _ => hc.grows (step_grows hl hs)
  cases l with
  | ready _ | disconnect _ | notify _ _ | refresh _ | forget _ | call _ _ => exact hgrows rfl
  | jobDone result =>
      simp only [Sys.step] at hs
      split at hs
      · rename_i sent hb
        cases hs
        refine h.of_comes (.inl rfl) fun context _ hc _ => ?_
        cases hc with
        | submit hc => exact .submit hc
        | failed hc => exact .failed hc
        | bridge hc =>
            obtain rfl := Option.some.inj (hb.symm.trans hc)
            exact .done (List.mem_append_right _ (List.mem_singleton.mpr rfl))
        | done hc => exact .done (List.mem_append_left _ hc)
        | queue hc => exact .queue hc
      · cases hs
  | post k =>
      simp only [Sys.step] at hs
      split at hs
      · rename_i sent result hdone
        cases hs
        have hroom := hk (sent, result) hdone
        obtain ⟨-, -, hb, hd, hsub⟩ := Sys.post_grows { s with done := s.done.eraseIdx k }
          (.completion sent result)
        refine h.of_comes (.inl (by simp)) fun context hfin hc _ => ?_
        cases hc with
        | submit hc => exact .submit (by simpa using hc)
        | failed hc => exact .failed (by simpa using hc)
        | bridge hc => exact .bridge (hb.trans hc)
        | queue hc => exact .queue (hsub hc)
        | @done result' hc =>
            obtain ⟨j, hj⟩ := List.mem_iff_getElem?.mp hc
            by_cases hjk : j = k
            · -- it is posted, and the queue has room for it
              subst hjk
              obtain ⟨rfl, rfl⟩ := Prod.mk.inj (Option.some.inj (hdone.symm.trans hj))
              exact .queue (mem_post (hroom hfin))
            · have hleft : (context, result') ∈ s.done.eraseIdx k :=
                List.mem_eraseIdx_iff_getElem?.mpr ⟨j, hjk, hj⟩
              have hstill : (context, result') ∈ (Sys.post { s with done := s.done.eraseIdx k }
                  (.completion sent result)).done := by
                rw [hd]
                exact hleft
              exact .done hstill
      · cases hs
  | worker ok => exact h.workerStep hs

end Sys

/-! ## Every reachable state -/

/-- What the books rest on. -/
structure Sys.Accounted (s : Sys) : Prop where
  balanced : s.Balanced
  excused : s.Excused
  streams : s.Streams
  awaits : s.Awaits
  twins : s.TwinsRest

namespace Sys.Accounted

variable {s s' : Sys}

theorem initial (h : s.Initial) : s.Accounted := by
  have hrest : s = ⟨s.records, {}, 0, 0, [], .idle, none, [], [], {}⟩ := h.rest
  have howner : s.owner = {} := by rw [hrest]
  have hhistory : s.history = {} := by rw [hrest]
  -- a record is as it was loaded, or empty
  have hidle (i : Ix) : (s.records i).operationKind = .none ∧ (s.records i).operationId = 0 ∧
      (s.records i).stagingActive = false := by
    cases hu : (s.records i).used with
    | false =>
        rw [h.vacant i hu]
        exact ⟨rfl, rfl, rfl⟩
    | true =>
        obtain ⟨snapshot, -, hi⟩ := h.loaded i hu
        rw [hi]
        exact ⟨rfl, rfl, rfl⟩
  have hnone (id : DeviceId) : s.refreshing id = none := by
    cases hf : s.find id with
    | none => exact Sys.refreshing_of_none hf
    | some i =>
        rw [Sys.refreshing_of_find hf]
        exact progress_none_of_kind (by simp [(hidle i).1])
  constructor
  · intro id generation _
    simp [hhistory, Sys.open, hnone]
  · constructor <;> simp [hhistory]
  · constructor
    · intro i hi
      cases (hidle i).2.2.symm.trans hi
    · intro i _ hn
      simp [howner, Owner.names] at hn
    · simp [hhistory]
  · intro hact
    simp [howner] at hact
  · intro i _ _
    exact ⟨(hidle i).1, (hidle i).2.1⟩

theorem step {l : Label} (h : s.Accounted) (hform : s.records.Formed) (hk : KeepsBooks s l)
    (hs : s.step l = some s') : s'.Accounted where
  balanced := balanced_step h.balanced h.twins hform hk hs
  excused := excused_step h.excused hk hs
  streams := h.streams.step h.twins hk hs
  awaits := h.awaits.step hk hs
  twins := h.twins.step hform hs

theorem reachable (h : machine.ReachableWhen KeepsBooks s) : s.Accounted := by
  have hboth : s.Accounted ∧ s.Formed := by
    refine h.invariant (M := machine) (I := fun s => s.Accounted ∧ s.Formed)
      (fun s h0 => ⟨initial h0, h0.formed⟩) ?_
    intro s l s' ⟨ha, hf⟩ hk hs
    exact ⟨ha.step hf.records hk hs, hf.step hs⟩
  exact hboth.1

end Sys.Accounted

/-- **Every refresh is accounted for** in a run whose steps keep the books. A generation that was
handed out, and neither refused nor forgotten, has been recorded as completed once for each time
it was handed out, but for the refresh in progress; a success was recorded after a commit of the
stream of the same operation; and the refresh in progress waits for its turn, or the completion of
its command is still to come. -/
theorem refresh_accounted {s : Sys} (h : machine.ReachableWhen KeepsBooks s) :
    (∀ id generation, .reserved id generation ∈ s.history.log → generation ≠ 0) ∧
      (∀ id generation, generation ≠ 0 → .forgotten id generation ∉ s.history.log →
        .refused id generation ∉ s.history.log →
        s.history.log.count (.reserved id generation) =
          s.history.log.countP (Entry.completes id generation) + s.open id generation) ∧
      (∀ id outcome op, .completed id outcome op ∈ s.history.log → outcome.result = .success →
        op ∈ s.history.commits) ∧
      ∀ id generation, s.refreshing id = some generation → s.isQueued id = true ∨
        ∃ context, context.deviceId = id ∧ s.finishes context = true ∧ s.Comes context := by
  have hacc := Sys.Accounted.reachable h
  refine ⟨hacc.excused.reserved, fun id generation hg hforgotten hrefused => ?_,
    hacc.streams.success, fun id generation hrefresh => ?_⟩
  · have hrevived : .revived id generation ∉ s.history.log :=
      fun he => hforgotten (hacc.excused.revived id generation he)
    have hwithdrawn : .withdrawn id generation ∉ s.history.log :=
      fun he => hrefused (hacc.excused.withdrawn id generation he)
    have hopens := Entry.countP_opens hrevived
    have hcloses := Entry.countP_closes hforgotten hwithdrawn
    have hbalanced := hacc.balanced id generation hg
    omega
  · obtain ⟨i, hf, hp⟩ := Option.bind_eq_some_iff.mp hrefresh
    simp only at hp
    split at hp
    · rename_i hprogress
      rcases hprogress.2.1 with hqueued | howns
      · left
        simp [Sys.isQueued, hf, hqueued]
      · right
        obtain ⟨hact, hd, -⟩ := owns_iff.mp howns
        obtain ⟨context, hfin, hc⟩ := hacc.awaits hact
        refine ⟨context, ?_, hfin, hc⟩
        simp only [Sys.finishes, Bool.and_eq_true, decide_eq_true_eq] at hfin
        rw [← hfin.1.2, hd]
        exact (Sys.find_spec hf).2
    · cases hp

/-! ## Runs that lose a refresh, and one that does not -/

/-- The refresh of a device, up to its command. -/
def sendRefresh (id : DeviceId) : List Label :=
  [.refresh id, .call 0 true] ++ List.replicate 3 (.worker true)

/-- The lamp disconnects while the command of its refresh is out. -/
def disconnectedRun : List Label :=
  sendRefresh lamp ++ [.disconnect lamp, .worker true]

/-- The lamp acknowledges the command of its refresh and sends no stream. -/
def streamlessRun : List Label :=
  sendRefresh lamp ++ [.jobDone .ok, .post 0, .worker true]

/-- The component with the lamp's record loaded from the store. -/
def savedLamp : Sys :=
  { records := fun i => if i = first then .loaded { deviceId := lamp } else {} }

theorem initial_savedLamp : savedLamp.Initial where
  loaded i hi := by
    simp only [savedLamp] at hi ⊢
    split
    · exact ⟨{ deviceId := lamp }, by decide, rfl⟩
    · rename_i hne
      simp [hne] at hi
  vacant i hi := by
    simp only [savedLamp] at hi ⊢
    split
    · rename_i heq
      simp [heq, Record.loaded] at hi
    · rfl
  rest := rfl

theorem refresh_unaccounted :
    (¬ ∀ s, machine.Reachable s → ∀ id generation, .reserved id generation ∈ s.history.log →
      .forgotten id generation ∉ s.history.log → .refused id generation ∉ s.history.log →
      s.refreshing id = none → s.history.log.countP (Entry.completes id generation) = 1) ∧
      ¬ ∀ s, machine.Reachable s → ∀ id outcome op, .completed id outcome op ∈ s.history.log →
        outcome.result = .success → op ∈ s.history.commits := by
  constructor
  · intro h
    have hrun : (machine.run {} disconnectedRun).map (fun s =>
        decide (.reserved lamp 1 ∈ s.history.log ∧ .forgotten lamp 1 ∉ s.history.log ∧
          .refused lamp 1 ∉ s.history.log ∧ s.refreshing lamp = none ∧
          s.history.log.countP (Entry.completes lamp 1) = 0)) = some true := by
      decide +kernel
    obtain ⟨s, hs, hp⟩ := Machine.exists_reachable_of_run initial_boot hrun
    obtain ⟨hreserved, hforgotten, hrefused, hnone, hzero⟩ := of_decide_eq_true hp
    have hone := h s hs lamp 1 hreserved hforgotten hrefused hnone
    omega
  · intro h
    have hrun : (machine.run savedLamp streamlessRun).map (fun s =>
        decide (.completed lamp ⟨1, .success⟩ 1 ∈ s.history.log ∧ s.history.commits = [])) =
        some true := by
      decide +kernel
    obtain ⟨s, hs, hp⟩ := Machine.exists_reachable_of_run initial_savedLamp hrun
    obtain ⟨hcompleted, hcommits⟩ := of_decide_eq_true hp
    have hop := h s hs lamp _ 1 hcompleted rfl
    rw [hcommits] at hop
    cases hop

instance (s : Sys) (context : Context) (result : SubmitResult) :
    Decidable (s.CompletesOwn context result) := by
  unfold Sys.CompletesOwn
  exact (by split <;> infer_instance)

instance (s : Sys) : (e : Event) → Decidable (e.KeepsBooks s)
  | .disconnect id => inferInstanceAs (Decidable (s.disconnectsRefresh id = false))
  | .notify id msg =>
      inferInstanceAs (Decidable (s.breaks id msg = true → s.waitsRefresh id = false))
  | .completion context result => inferInstanceAs (Decidable (s.CompletesOwn context result))
  | .ready _ | .refresh .. => inferInstanceAs (Decidable True)

/-- The generation of an option is looked at, not every number. -/
instance decidableForallGeneration (o : Option UInt32) (p : UInt32 → Prop) [DecidablePred p] :
    Decidable (∀ generation ∈ o, p generation) := Option.decidableForallMem o

instance (s : Sys) : (l : Label) → Decidable (KeepsBooks s l)
  | .worker ok => by
      unfold KeepsBooks
      dsimp only
      generalize s.worker = w
      exact match w with
        | .idle => inferInstanceAs (Decidable (∀ e ∈ s.queue.head?, e.KeepsBooks s))
        | .start .. => inferInstanceAs (Decidable (_ ∧ _))
        | .failed id => inferInstanceAs (Decidable (s.refreshing id = none ∧ _))
        | .submit _ | .startNext | .persist .. => instDecidableTrue
  | .call k ok => by
      unfold KeepsBooks
      dsimp only
      generalize s.calls[k]? = c
      exact match c with
        | some (.rollback id generation) =>
            inferInstanceAs (Decidable (∀ g ∈ s.refreshing id, g = generation))
        | some (.posting ..) | some (.erasing _) | none => instDecidableTrue
  | .refresh id => inferInstanceAs (Decidable (_ → _ → _ → _))
  | .post k => inferInstanceAs (Decidable (∀ c ∈ s.done[k]?, _))
  | .ready _ | .disconnect _ | .notify .. | .forget _ | .jobDone _ => instDecidableTrue

/-- The frames of an empty stream. -/
def streamBegin (id : DeviceId) : Message :=
  { type := cstr "capabilities_begin"
    deviceId := some id
    snapshotId := some 1
    total := some 0
    capabilityRevision := some 1 }

def streamEnd (id : DeviceId) : Message :=
  { type := cstr "capabilities_end"
    deviceId := some id
    snapshotId := some 1
    total := some 0 }

/-- The lamp sends an empty stream before it acknowledges the command. -/
def refreshedRun : List Label :=
  sendRefresh lamp ++ [.notify lamp (streamBegin lamp), .notify lamp (streamEnd lamp)] ++
    List.replicate 3 (.worker true) ++ [.jobDone .ok, .post 0, .worker true]

set_option maxRecDepth 100000 in
theorem refresh_accounted_lamp : ∃ s : Sys,
    .completed lamp ⟨1, .success⟩ 1 ∈ s.history.log ∧ 1 ∈ s.history.commits ∧
      s.history.log.count (.reserved lamp 1) =
        s.history.log.countP (Entry.completes lamp 1) + s.open lamp 1 := by
  have hrun : (machine.runWhen KeepsBooks {} refreshedRun).map (fun s =>
      decide (.forgotten lamp 1 ∉ s.history.log ∧ .refused lamp 1 ∉ s.history.log ∧
        .completed lamp ⟨1, .success⟩ 1 ∈ s.history.log)) = some true := by
    decide +kernel
  obtain ⟨s, hs, hp⟩ := Machine.exists_reachableWhen_of_run initial_boot hrun
  obtain ⟨hforgotten, hrefused, hcompleted⟩ := of_decide_eq_true hp
  obtain ⟨-, hbooks, hsuccess, -⟩ := refresh_accounted hs
  exact ⟨s, hcompleted, hsuccess lamp _ 1 hcompleted rfl,
    hbooks lamp 1 (by decide) hforgotten hrefused⟩

end BleGateway.DeviceSchema
