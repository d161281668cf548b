import BleGateway.CommandService.Service

/-! # Wake-ups of the command service

The task takes all notifications at once, but only one command in each round. A command is left
behind when a second one comes before the task has taken the notifications, and none comes later.
-/

namespace BleGateway.CommandService

/-! ## Only the wait takes the notifications -/

/-- The task has taken its command of this round. -/
def TaskPc.served : TaskPc → Bool
  | .drain second | .timeouts second _ => second
  | .wait => true
  | _ => false

namespace Dcs

variable {κ : Type} {d d' : Dcs κ} {a : SubmitAnswers} {done : Option (Done κ)}

/-- Where the task is, whether it is notified, and the commands it has not taken. -/
def control (d : Dcs κ) : TaskPc × Bool × List (SubmitEvent κ) :=
  (d.task, d.notified, d.normalQueue)

theorem completeDevice_control (id : DeviceId) (status : DeviceCommandStatus) :
    (d.completeDevice id status).1.control = d.control := by
  unfold completeDevice
  split <;> rfl

theorem handleUrgent_control (e : UrgentEvent) : (d.handleUrgent e).1.control = d.control := by
  cases e with
  | ack ack =>
      simp only [handleUrgent, handleAck]
      split
      · rfl
      split
      · rfl
      split <;> rfl
  | disconnect id | cancel id => exact completeDevice_control id _
  | shutdown => rfl

theorem handleSubmit_control (e : SubmitEvent κ) (now : Int) :
    (d.handleSubmit e a now).1.control = d.control := by
  unfold handleSubmit
  split
  · rfl
  split
  · rfl
  split
  · rfl
  split
  · rfl
  dsimp only
  split <;> rfl

theorem checkTimeout_control (i : PendingIx) (now : Int) :
    (d.checkTimeout i now).1.control = d.control := by
  unfold checkTimeout
  split <;> rfl

/-- Where the task has taken its command, it had taken it before or takes it now. -/
theorem taskStep_served {now : Int} {timeUp : Bool}
    (h : d.taskStep now a timeUp = some (d', done)) (hd : TaskPc.served d'.task = true) :
    (TaskPc.served d.task = true ∨ d.task = .receive) ∧ d'.notified = d.notified ∧
      d'.normalQueue = if d.task = .receive then d.normalQueue.tail else d.normalQueue := by
  unfold taskStep at h
  split at h
  · rename_i htask
    cases h
    -- the test comes before the command is taken
    have hno : TaskPc.served (if d.running = true then .drain false else .sweep 0) = true := hd
    split at hno <;> cases hno
  · rename_i second htask
    rw [htask]
    split at h
    · cases h
      exact ⟨.inl hd, rfl, rfl⟩
    · rename_i e es _
      have hc := handleUrgent_control (d := { d with urgentQueue := es }) e
      simp only [control, Prod.mk.injEq] at hc
      obtain ⟨ht, hn, hq⟩ := hc
      dsimp only at h
      split at h <;> cases h
      · rw [ht, htask] at hd
        exact ⟨.inl hd, hn, hq⟩
      · exact ⟨.inl hd, hn, hq⟩
  · rename_i second i htask
    rw [htask]
    have hc := checkTimeout_control (d := d) i now
    simp only [control, Prod.mk.injEq] at hc
    obtain ⟨-, hn, hq⟩ := hc
    dsimp only at h
    split at h <;> cases h
    · exact ⟨.inl hd, hn, hq⟩
    · refine ⟨.inl ?_, hn, hq⟩
      have hafter : TaskPc.served (afterTimeouts (d.checkTimeout i now).1 second) = true := hd
      unfold afterTimeouts at hafter
      cases second with
      | true => rfl
      | false =>
          simp only [Bool.false_eq_true, if_false] at hafter
          split at hafter <;> cases hafter
  · rename_i htask
    rw [htask]
    split at h
    · rename_i hq
      cases h
      exact ⟨.inr rfl, rfl, by rw [hq]; exact hq⟩
    · rename_i e es hq
      cases h
      have hc := handleSubmit_control (d := { d with normalQueue := es }) (a := a) e now
      simp only [control, Prod.mk.injEq] at hc
      exact ⟨.inr rfl, hc.2.1, by rw [hq]; exact hc.2.2⟩
  · split at h
    · cases h
      cases hd
    · cases h
  · dsimp only at h
    split at h <;> cases h <;> cases hd
  · cases h

end Dcs

/-! ## The property -/

namespace Service

variable {s s' : Service}

/-- The submit call of the command has still to notify the task. -/
def Unannounced (s : Service) (e : SubmitEvent Nat) : Prop := Call.announce e.callback ∈ s.calls

/-- **No command waits for an event that does not concern it.** Where the task blocks without a
notification, the normal queue is empty, but for commands whose submit call is about to notify. -/
def Heard (s : Service) : Prop :=
  s.dcs.task = .wait → s.dcs.notified = false → ∀ e ∈ s.dcs.normalQueue, s.Unannounced e

/-- The task takes a command only if no other one waits in the queue, or if it is notified. -/
def KeepsHeard (s : Service) : Label → Prop
  | .task _ _ _ => s.dcs.task = .receive →
      s.dcs.notified = true ∨ ∀ e ∈ s.dcs.normalQueue.tail, s.Unannounced e
  | _ => True

/-- From the command of the round on to the wait. -/
def Hears (s : Service) : Prop :=
  TaskPc.served s.dcs.task = true → s.dcs.notified = false →
    ∀ e ∈ s.dcs.normalQueue, s.Unannounced e

/-- A call that goes on without a notification leaves the others as they are. -/
theorem Unannounced.keep {n : Nat} {e : SubmitEvent Nat} (h : s.Unannounced e)
    (hn : ∀ k, s.calls[n]? ≠ some (.announce k)) (hcalls : ∀ c ∈ s.calls.eraseIdx n, c ∈ s'.calls) :
    s'.Unannounced e := by
  refine hcalls _ (List.mem_eraseIdx_iff_getElem?.mpr ?_)
  obtain ⟨m, hm⟩ := List.mem_iff_getElem?.mp h
  refine ⟨m, ?_, hm⟩
  rintro rfl
  exact hn _ hm

theorem Hears.call (h : s.Hears) {n : Nat} (hs : s.step (.call n) = some s') : s'.Hears := by
  cases callStep_move hs with
  | sent call dcs calls =>
      rw [Hears, dcs]
      intro hserved hnot e he
      have hno : ∀ k, s.calls[n]? ≠ some (.announce k) := by simp [call]
      rcases List.mem_append.mp he with he | he
      · refine (h hserved hnot e he).keep hno fun c hc => ?_
        rw [calls]
        exact List.mem_append_left _ hc
      · rw [List.mem_singleton.mp he, Unannounced, calls]
        exact List.mem_append_right _ (List.mem_singleton_self _)
  | announced call dcs =>
      rw [Hears, dcs]
      intro _ hnot
      cases hnot
  | urgent call queue pending task notified calls =>
      rw [Hears, queue, task]
      intro hserved hnot e he
      have hnot' : s.dcs.notified = false := by
        cases hb : s.dcs.notified with
        | false => rfl
        | true => rw [notified hb] at hnot; cases hnot
      exact (h hserved hnot' e he).keep call calls

theorem Hears.task (h : s.Hears) {now : Int} {a : Dcs.SubmitAnswers} {timeUp : Bool}
    (hok : KeepsHeard s (.task now a timeUp)) (hs : s.step (.task now a timeUp) = some s') :
    s'.Hears := by
  obtain ⟨dcs, done, hstep, rfl⟩ := step_task hs
  intro hserved hnot e he
  obtain ⟨hbefore, hn, hq⟩ := Dcs.taskStep_served hstep hserved
  have hnot' : s.dcs.notified = false := hn.symm.trans hnot
  have hmem : e ∈ dcs.normalQueue := he
  rw [hq] at hmem
  show s.Unannounced e
  by_cases hreceive : s.dcs.task = .receive
  · rw [if_pos hreceive] at hmem
    rcases hok hreceive with hyes | htail
    · rw [hyes] at hnot'
      cases hnot'
    · exact htail e hmem
  · rw [if_neg hreceive] at hmem
    exact h (hbefore.resolve_right hreceive) hnot' e hmem

/-- **Every step.** -/
theorem Hears.step (h : s.Hears) {l : Label} (hok : KeepsHeard s l) (hs : s.step l = some s') :
    s'.Hears := by
  have henter : (∃ c, s' = s.enter c) → s'.Hears := by
    rintro ⟨c, rfl⟩ hserved hnot e he
    exact List.mem_append_left _ (h hserved hnot e he)
  cases l with
  | call n => exact h.call hs
  | task now a timeUp => exact h.task hok hs
  | submit request | ack ack | disconnect id | cancel id | deinit =>
      exact henter (step_enter hs (by simp) (by simp))

/-- **No lost wake-up**, in every run in which the task takes a command only when it leaves none
behind or is notified again. -/
theorem wakeups_heard (hs : service.ReachableWhen KeepsHeard s) : s.Heard := by
  have hinv : s.Hears := by
    refine Machine.ReachableWhen.invariant (M := service) (I := Hears) ?_ ?_ hs
    · rintro s₀ rfl hserved
      cases hserved
    · exact fun s l s' h hok hstep => h.step hok hstep
  exact fun htask hnot e he => hinv (by rw [htask]; rfl) hnot e he

/-! ## A command that is left behind -/

def requestFor (id : CString) : DeviceCommandRequest := { deviceId := strlcpy _ id }

/-- The task goes on for `n` steps, and does not wait until its time is up. -/
def rounds (n : Nat) : List Label := List.replicate n (.task 0 {} false)

/-- Two submits come while the task waits. -/
def leftRun : List Label :=
  rounds 7 ++ [.submit (requestFor [1]), .call 0, .call 0] ++
    [.submit (requestFor [2]), .call 0, .call 0] ++ rounds 13

/-- The second command waits though all calls have returned. -/
theorem wakeup_lost : ¬ ∀ s, service.Reachable s → s.Heard := by
  intro h
  have hrun : (service.run {} leftRun).map (fun s =>
      s.dcs.task = .wait && !s.dcs.notified && s.dcs.normalQueue.length = 1 && s.calls = []) =
        some true := by
    decide
  obtain ⟨s, hs, hp⟩ := Machine.exists_reachable_of_run rfl hrun
  simp only [Bool.and_eq_true, Bool.not_eq_true', decide_eq_true_eq] at hp
  obtain ⟨⟨⟨htask, hnot⟩, hlen⟩, hcalls⟩ := hp
  cases hq : s.dcs.normalQueue with
  | nil => simp [hq] at hlen
  | cons e es =>
      have hmem := h s hs htask hnot e (by rw [hq]; exact List.mem_cons_self)
      rw [Unannounced, hcalls] at hmem
      cases hmem

instance (s : Service) (l : Label) : Decidable (KeepsHeard s l) := by
  unfold KeepsHeard Unannounced
  cases l <;> infer_instance

/-- One submit comes while the task waits. -/
def heardRun : List Label := rounds 7 ++ [.submit (requestFor [1]), .call 0, .call 0] ++ rounds 13

theorem wakeups_heard_one : ∃ s : Service, s.dcs.task = .wait ∧ s.accepted = 1 ∧ s.Heard := by
  have hrun : (service.runWhen KeepsHeard {} heardRun).map (fun s =>
      s.dcs.task = .wait && s.accepted = 1) = some true := by
    decide
  obtain ⟨s, hs, hp⟩ := Machine.exists_reachableWhen_of_run rfl hrun
  rw [Bool.and_eq_true, decide_eq_true_eq, decide_eq_true_eq] at hp
  exact ⟨s, hp.1, hp.2, wakeups_heard hs⟩

end Service

end BleGateway.CommandService
