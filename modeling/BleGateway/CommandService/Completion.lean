import BleGateway.CommandService.Correlation
import BleGateway.Lib.Progress
import Mathlib.Data.Set.Finite.Lattice

/-! # Every command is completed

A running service completes its commands: the task takes all of them out of the queue, and the
deadlines of the pending ones pass. A service that has been shut down has completed them, if none
was in the queue when the task left its loop.
-/

namespace BleGateway.CommandService

/-! ## The rounds of the task -/

/-- The steps to the end of the queue, for a task that takes a command in every round. -/
def TaskPc.rank : TaskPc → Nat
  | .receive | .sweep _ | .stopped => 0
  | .timeouts false i => DCS_MAX_PENDING - i.val
  | .drain false => DCS_MAX_PENDING + 1
  | .test => DCS_MAX_PENDING + 2
  | .wait => DCS_MAX_PENDING + 3
  | .timeouts true i => DCS_MAX_PENDING + 3 + (DCS_MAX_PENDING - i.val)
  | .drain true => DCS_MAX_PENDING + 3 + (DCS_MAX_PENDING + 1)

namespace Dcs

variable {κ : Type} {d d' : Dcs κ} {a : SubmitAnswers} {done : Option (Done κ)} {now : Int}

/-- What the task has to do until it finds the queue empty. -/
def work (d : Dcs κ) : Nat := d.normalQueue.length * 16 + d.urgentQueue.length + d.task.rank

/-- The service runs, and is not about to be shut down. -/
structure Live (d : Dcs κ) : Prop where
  running : d.running = true
  shutdown : .shutdown ∉ d.urgentQueue
  loop : d.leftLoop = false

/-- The task finds the queue empty. -/
def Idle (d : Dcs κ) : Prop := d.task = .receive ∧ d.normalQueue = []

theorem completeDevice_running (id : DeviceId) (status : DeviceCommandStatus) :
    (d.completeDevice id status).1.running = d.running := by
  unfold completeDevice
  split <;> rfl

theorem handleUrgent_running {e : UrgentEvent} (he : e ≠ .shutdown) :
    (d.handleUrgent e).1.running = d.running := by
  cases e with
  | ack ack =>
      simp only [handleUrgent, handleAck]
      split
      · rfl
      split
      · rfl
      split <;> rfl
  | disconnect id | cancel id => exact completeDevice_running id _
  | shutdown => exact absurd rfl he

theorem checkTimeout_running (i : PendingIx) (now : Int) :
    (d.checkTimeout i now).1.running = d.running := by
  unfold checkTimeout
  split <;> rfl

theorem handleSubmit_running (e : SubmitEvent κ) (now : Int) :
    (d.handleSubmit e a now).1.running = d.running := by
  unfold handleSubmit
  split
  · rfl
  split
  · rfl
  split
  · rfl
  split
  · rfl
  dsimp only
  split <;> rfl

theorem nextIx_val {i j : PendingIx} (h : nextIx i = some j) : j.val = i.val + 1 := by
  unfold nextIx at h
  split at h
  · cases h
    rfl
  · cases h

/-- **The task comes nearer to the end of the queue with every step.** -/
theorem Live.task (h : d.Live) (hs : d.taskStep now a true = some (d', done)) :
    d'.Live ∧ (d.Idle ∨ d'.work < d.work) := by
  obtain ⟨hrun, hshut, hloop⟩ := h
  have hstep := hs
  unfold taskStep at hs
  split at hs
  · rename_i htask
    cases hs
    rw [if_pos hrun]
    refine ⟨⟨hrun, hshut, rfl⟩, .inr ?_⟩
    simp [work, goto, htask, TaskPc.rank]
  · rename_i second htask
    split at hs
    · rename_i hu
      cases hs
      refine ⟨⟨hrun, hshut, rfl⟩, .inr ?_⟩
      cases second <;> simp [work, goto, htask, TaskPc.rank]
    · rename_i e es hu
      have he : e ≠ .shutdown := by
        rintro rfl
        exact hshut (by rw [hu]; exact List.mem_cons_self)
      have hrunning : (handleUrgent { d with urgentQueue := es } e).1.running = true :=
        (handleUrgent_running (d := { d with urgentQueue := es }) he).trans hrun
      have hqueue : (handleUrgent { d with urgentQueue := es } e).1.urgentQueue = es :=
        handleUrgent_urgentQueue (d := { d with urgentQueue := es }) e
      have hc := handleUrgent_control (d := { d with urgentQueue := es }) e
      simp only [control, Prod.mk.injEq] at hc
      obtain ⟨ht, -, hq⟩ := hc
      dsimp only at hs
      rw [if_pos hrunning] at hs
      cases hs
      refine ⟨⟨hrunning, ?_, ?_⟩, .inr ?_⟩
      · rw [hqueue]
        intro hmem
        exact hshut (by rw [hu]; exact List.mem_cons_of_mem _ hmem)
      · rw [leftLoop, ht, htask]
      · rw [work, work, hq, hqueue, ht, hu, List.length_cons]
        omega
  · rename_i second i htask
    have hrunning := checkTimeout_running (d := d) i now
    have hqueue := checkTimeout_urgentQueue (d := d) i now
    have hc := checkTimeout_control (d := d) i now
    simp only [control, Prod.mk.injEq] at hc
    obtain ⟨-, -, hq⟩ := hc
    have hi := i.isLt
    dsimp only at hs
    split at hs <;> cases hs
    · rename_i j hj
      have hval := nextIx_val hj
      refine ⟨⟨hrunning.trans hrun, hqueue ▸ hshut, rfl⟩, .inr ?_⟩
      cases second <;>
        (simp only [work, goto, htask, TaskPc.rank, hq, hqueue]
         omega)
    · refine ⟨⟨hrunning.trans hrun, hqueue ▸ hshut, ?_⟩, .inr ?_⟩
      · unfold afterTimeouts leftLoop goto
        rw [hrunning, hrun]
        cases second <;> rfl
      · unfold afterTimeouts
        rw [hrunning, hrun]
        cases second <;>
          (simp only [work, goto, htask, TaskPc.rank, hq, hqueue, if_true, Bool.false_eq_true,
            if_false]
           omega)
  · rename_i htask
    split at hs
    · rename_i hq
      cases hs
      exact ⟨⟨hrun, hshut, rfl⟩, .inl ⟨htask, hq⟩⟩
    · rename_i e es hq
      obtain ⟨rfl, -⟩ := taskStep_receive htask hq hstep
      have hrunning := handleSubmit_running (d := { d with normalQueue := es }) (a := a) e now
      have hqueue := handleSubmit_urgentQueue (d := { d with normalQueue := es }) (a := a) e now
      have hc := handleSubmit_control (d := { d with normalQueue := es }) (a := a) e now
      simp only [control, Prod.mk.injEq] at hc
      refine ⟨⟨hrunning.trans hrun, ?_, rfl⟩, .inr ?_⟩
      · rw [goto_urgentQueue, hqueue]
        exact hshut
      · -- the command that leaves the queue outweighs a round of the task
        rw [work, work, goto_normalQueue, goto_urgentQueue, hqueue, hc.2.2, hq, htask,
          List.length_cons]
        show es.length * 16 + d.urgentQueue.length + (4 + 3 + (4 + 1)) <
          (es.length + 1) * 16 + d.urgentQueue.length + 0
        omega
  · rename_i htask
    rw [if_pos (.inr rfl)] at hs
    cases hs
    refine ⟨⟨hrun, hshut, rfl⟩, .inr ?_⟩
    simp [work, goto, htask, TaskPc.rank]
  · rename_i htask
    rw [leftLoop, htask] at hloop
    cases hloop
  · cases hs

theorem Live.taskStep (h : d.Live) (now : Int) (a : SubmitAnswers) :
    ∃ d' done, d.taskStep now a true = some (d', done) := by
  obtain ⟨-, -, hloop⟩ := h
  unfold Dcs.taskStep
  split
  · exact ⟨_, _, rfl⟩
  · split <;> exact ⟨_, _, rfl⟩
  · dsimp only
    split <;> exact ⟨_, _, rfl⟩
  · split <;> exact ⟨_, _, rfl⟩
  · rw [if_pos (.inr rfl)]
    exact ⟨_, _, rfl⟩
  · dsimp only
    split <;> exact ⟨_, _, rfl⟩
  · rename_i htask
    rw [leftLoop, htask] at hloop
    cases hloop

/-! ## Deadlines -/

/-- No pending command has a deadline behind `t`. -/
def Due (d : Dcs κ) (t : Int) : Prop := ∀ i p, d.pending i = some p → p.deadlineUs ≤ t

/-- With an empty queue no command becomes pending. -/
theorem Due.task {t : Int} {timeUp : Bool} (h : d.Due t) (hq : d.normalQueue = [])
    (hs : d.taskStep now a timeUp = some (d', done)) : d'.normalQueue = [] ∧ d'.Due t := by
  cases taskStep_move hs with
  | same hq' hp =>
      refine ⟨hq'.trans hq, fun i p hi => h i p ?_⟩
      rwa [hp] at hi
  | @completed i p r hi hq' hp =>
      refine ⟨hq'.trans hq, fun j q hj => ?_⟩
      rw [hp] at hj
      by_cases hji : j = i
      · subst hji
        rw [Function.update_self] at hj
        cases hj
      · rw [Function.update_of_ne hji] at hj
        exact h j q hj
  | refused _ hq' | admitted _ _ hq' =>
      rw [hq] at hq'
      cases hq'

/-- In the round of the task since its last wait, the slots behind it are free. -/
def Passing (d : Dcs κ) : Prop :=
  match d.task with
  | .wait | .test | .drain false => True
  | .timeouts false i => ∀ j < i, d.pending j = none
  | .receive => ∀ j, d.pending j = none
  | _ => False

/-- A pending command whose deadline has passed is completed. -/
theorem checkTimeout_pending {i k : PendingIx} (hdue : d.Due now)
    (hk : d.pending k = none ∨ k = i) : (d.checkTimeout i now).1.pending k = none := by
  unfold checkTimeout
  split
  · show Function.update d.pending i none k = none
    by_cases hki : k = i
    · rw [hki, Function.update_self]
    · rw [Function.update_of_ne hki]
      exact hk.resolve_right hki
  · rename_i hno
    rcases hk with hnone | rfl
    · exact hnone
    · -- the deadline of a pending command would have passed
      by_contra hsome
      obtain ⟨p, hp⟩ := Option.ne_none_iff_exists'.mp hsome
      rw [hp] at hno
      exact hno (decide_eq_true (hdue k p hp))

theorem Passing.task (h : d.Passing) (hlive : d.Live) (hdue : d.Due now) (hne : d.task ≠ .receive)
    (hs : d.taskStep now a true = some (d', done)) : d'.Passing := by
  unfold taskStep at hs
  split at hs
  · cases hs
    rw [if_pos hlive.running]
    trivial
  · rename_i second htask
    rw [Passing, htask] at h
    cases second with
    | true => exact h.elim
    | false =>
        split at hs
        · cases hs
          exact fun j hj => absurd hj (Nat.not_lt_zero _)
        · rename_i e es hu
          have hc : (handleUrgent { d with urgentQueue := es } e).1.task = d.task :=
            congrArg Prod.fst (handleUrgent_control (d := { d with urgentQueue := es }) e)
          dsimp only at hs
          split at hs <;> cases hs
          · rw [Passing, hc, htask]
            trivial
          · exact fun j hj => absurd hj (Nat.not_lt_zero _)
  · rename_i second i htask
    rw [Passing, htask] at h
    cases second with
    | true => exact h.elim
    | false =>
        have hfree : ∀ k, k < i ∨ k = i → (d.checkTimeout i now).1.pending k = none := by
          rintro k (hlt | heq)
          · exact checkTimeout_pending hdue (.inl (h k hlt))
          · exact checkTimeout_pending hdue (.inr heq)
        dsimp only at hs
        split at hs <;> cases hs
        · rename_i j hj
          exact fun k hk => hfree k (nextIx_some hj k hk)
        · rename_i hlast
          unfold afterTimeouts
          rw [checkTimeout_running, hlive.running]
          exact fun k => hfree k (nextIx_none hlast k)
  · rename_i htask
    exact absurd htask hne
  · rw [if_pos (.inr rfl)] at hs
    cases hs
    trivial
  · rename_i htask
    rw [Passing, htask] at h
    exact h.elim
  · cases hs

/-- A round begins at the end of the queue. -/
theorem Idle.passing (h : d.Idle) {timeUp : Bool}
    (hs : d.taskStep now a timeUp = some (d', done)) : d'.Passing := by
  obtain ⟨htask, hq⟩ := h
  obtain ⟨queue, urgent, running, notified, task, pending, next⟩ := d
  cases htask
  cases hq
  cases hs
  trivial

end Dcs

/-! ## A run of the task by itself -/

namespace Service

variable {s s' : Service}

/-- The states of a run in which only the task goes on; `clock` and `answers` are what it meets. -/
def quiet (clock : Nat → Int) (answers : Nat → Dcs.SubmitAnswers) (s : Service) : Nat → Service
  | 0 => s
  | k + 1 =>
      let t := s.quiet clock answers k
      (t.step (.task (clock k) (answers k) true)).getD t

section Quiet

variable {clock : Nat → Int} {answers : Nat → Dcs.SubmitAnswers}

theorem quiet_succ {k : Nat} (h : (s.quiet clock answers k).dcs.Live) : ∃ dcs done,
    (s.quiet clock answers k).dcs.taskStep (clock k) (answers k) true = some (dcs, done) ∧
      (s.quiet clock answers k).step (.task (clock k) (answers k) true) =
        some (s.quiet clock answers (k + 1)) ∧ (s.quiet clock answers (k + 1)).dcs = dcs := by
  obtain ⟨dcs, done, hstep⟩ := h.taskStep (clock k) (answers k)
  have hs : (s.quiet clock answers k).step (.task (clock k) (answers k) true) =
      some { s.quiet clock answers k with
        dcs
        completed := done.toList ++ (s.quiet clock answers k).completed } := by
    rw [step, hstep]
    rfl
  have hnext : s.quiet clock answers (k + 1) = { s.quiet clock answers k with
      dcs
      completed := done.toList ++ (s.quiet clock answers k).completed } := by
    show (Service.step _ _).getD _ = _
    rw [hs]
    rfl
  exact ⟨dcs, done, hstep, by rw [hnext, hs], by rw [hnext]⟩

/-- The service stays live, and nothing is accepted any more. -/
theorem quiet_keeps (hinv : s.Inv) (hlive : s.dcs.Live) (k : Nat) :
    (s.quiet clock answers k).Inv ∧ (s.quiet clock answers k).dcs.Live ∧
      (s.quiet clock answers k).accepted = s.accepted := by
  induction k with
  | zero => exact ⟨hinv, hlive, rfl⟩
  | succ k ih =>
      obtain ⟨hinv, hlive, haccepted⟩ := ih
      obtain ⟨dcs, done, hstep, hs, hdcs⟩ := quiet_succ hlive
      have hok : KeepsAccepted (s.quiet clock answers k) (.task (clock k) (answers k) true) := by
        intro hleaves
        unfold Dcs.leaves at hleaves
        rw [hlive.running] at hleaves
        split at hleaves
        · cases hleaves
        · rw [Bool.not_true, Bool.and_false] at hleaves
          cases hleaves
        · cases hleaves
      obtain ⟨_, _, _, hs'⟩ := step_task hs
      refine ⟨hinv.step hok hs, hdcs ▸ (hlive.task hstep).1, ?_⟩
      rw [hs']
      exact haccepted

/-- **The task completes every command**, when its clock goes on. -/
theorem quiet_completes (hinv : s.Inv) (hlive : s.dcs.Live)
    (hclock : ∀ t, ∃ k, ∀ j ≥ k, t ≤ clock j) :
    ∃ k, ∀ n < s.accepted, (s.quiet clock answers k).completed.countP (·.1 = n) = 1 := by
  have hkeeps : ∀ k, (s.quiet clock answers k).Inv ∧ (s.quiet clock answers k).dcs.Live ∧
      (s.quiet clock answers k).accepted = s.accepted := quiet_keeps hinv hlive
  -- the task gets to the end of the queue
  have hidle : ∀ k, ∃ j ≥ k, (s.quiet clock answers j).dcs.Idle := by
    intro k
    obtain ⟨j, hj, -, hidle⟩ := Progress.leads (s.quiet clock answers) (fun _ => True)
      (fun t => t.dcs.Idle) (fun t => t.dcs.work) (k := k) trivial fun j _ _ => by
        obtain ⟨dcs, done, hstep, -, hdcs⟩ := quiet_succ (hkeeps j).2.1
        rcases ((hkeeps j).2.1.task hstep).2 with hidle | hlt
        · exact .inl hidle
        · exact .inr ⟨trivial, by rw [hdcs]; exact hlt⟩
    exact ⟨j, hj, hidle⟩
  obtain ⟨k₀, -, hk₀⟩ := hidle 0
  -- from there on the deadlines stay below a bound
  obtain ⟨t, ht⟩ : ∃ t, (s.quiet clock answers k₀).dcs.Due t := by
    let deadline : PendingIx → Int := fun i =>
      (((s.quiet clock answers k₀).dcs.pending i).map Pending.deadlineUs).getD 0
    obtain ⟨t, ht⟩ := (Set.finite_range deadline).bddAbove
    refine ⟨t, fun i p hi => ?_⟩
    have hle := ht (Set.mem_range_self i)
    simpa [deadline, hi] using hle
  have hdue : ∀ j ≥ k₀, (s.quiet clock answers j).dcs.normalQueue = [] ∧
      (s.quiet clock answers j).dcs.Due t := by
    refine Progress.stays (s.quiet clock answers)
      (fun t' => t'.dcs.normalQueue = [] ∧ t'.dcs.Due t) ⟨hk₀.2, ht⟩ fun j _ h => ?_
    obtain ⟨dcs, done, hstep, -, hdcs⟩ := quiet_succ (hkeeps j).2.1
    rw [hdcs]
    exact h.2.task h.1 hstep
  -- when they have passed, one more round completes the pending commands
  obtain ⟨k₁, hk₁⟩ := hclock t
  obtain ⟨k₂, hk₂, hk₂idle⟩ := hidle (max k₀ k₁)
  have hround : (s.quiet clock answers (k₂ + 1)).dcs.Passing := by
    obtain ⟨dcs, done, hstep, -, hdcs⟩ := quiet_succ (hkeeps k₂).2.1
    rw [hdcs]
    exact hk₂idle.passing hstep
  obtain ⟨k, hk, hpassing, htask⟩ := Progress.leads (s.quiet clock answers)
    (fun t => t.dcs.Passing) (fun t => t.dcs.task = .receive)
    (fun t => t.dcs.work) (k := k₂ + 1) hround fun j hj h => by
      by_cases htask : (s.quiet clock answers j).dcs.task = .receive
      · exact .inl htask
      obtain ⟨dcs, done, hstep, -, hdcs⟩ := quiet_succ (hkeeps j).2.1
      have hj₀ : k₀ ≤ j := by omega
      have hj₁ : k₁ ≤ j := by omega
      have hnow : (s.quiet clock answers j).dcs.Due (clock j) := fun i p hi =>
        le_trans ((hdue j hj₀).2 i p hi) (hk₁ j hj₁)
      rw [hdcs]
      refine .inr ⟨h.task (hkeeps j).2.1 hnow htask hstep, ?_⟩
      exact ((hkeeps j).2.1.task hstep).2.resolve_left fun hidle => htask hidle.1
  rw [Dcs.Passing, htask] at hpassing
  refine ⟨k, fun n hn => (hkeeps k).1.completed ?_ hpassing ?_⟩
  · exact (hdue k (by omega)).1
  · rw [(hkeeps k).2.2]
    exact hn

end Quiet

/-! ## The property -/

/-- **Commands and completions correspond.** -/
structure Correlated (s : Service) : Prop where
  apart : s.dcs.Apart
  /-- An accepted command waits, is pending or has been completed once. -/
  once : ∀ n, s.places n = if n < s.accepted then 1 else 0
  /-- When the task has stopped, all of them have been completed. -/
  stopped : s.dcs.task = .stopped → ∀ n < s.accepted, s.completed.countP (·.1 = n) = 1
  /-- A service that runs completes them, however the environment answers. -/
  comes : s.dcs.Live → ∀ clock answers, (∀ t, ∃ k, ∀ j ≥ k, t ≤ clock j) →
    ∃ k, ∀ n < s.accepted, (s.quiet clock answers k).completed.countP (·.1 = n) = 1
  /-- An ACK completes the pending command with its device, request id and command, or none. -/
  acks : ∀ now a timeUp s' ack, s.step (.task now a timeUp) = some s' → s.dcs.nextAck = some ack →
    s'.completed = s.completed ∨ ∃ i p result, s.dcs.pending i = some p ∧
      p.deviceId = ack.deviceId ∧ p.requestId = ack.requestId ∧ p.command = ack.command ∧
        s'.completed = (p.callback, result) :: s.completed

/-- What an ACK completes is the command it names. -/
theorem step_ack {now : Int} {a : Dcs.SubmitAnswers} {timeUp : Bool} {ack : AckEvent}
    (hs : s.step (.task now a timeUp) = some s') (hnext : s.dcs.nextAck = some ack) :
    s'.completed = s.completed ∨ ∃ i p result, s.dcs.pending i = some p ∧
      p.deviceId = ack.deviceId ∧ p.requestId = ack.requestId ∧ p.command = ack.command ∧
        s'.completed = (p.callback, result) :: s.completed := by
  obtain ⟨dcs, done, hstep, rfl⟩ := step_task hs
  cases done with
  | none => exact .inl rfl
  | some kr =>
      obtain ⟨k, result⟩ := kr
      obtain ⟨i, p, hi, hdevice, hid, hcommand, rfl⟩ := Dcs.taskStep_ack hstep hnext
      exact .inr ⟨i, p, result, hi, hdevice, hid, hcommand, rfl⟩

/-- **Commands are correlated**, in every run in which the task leaves its loop with an empty queue
that no submit reaches any more. -/
theorem commands_correlated (hs : service.ReachableWhen KeepsAccepted s) : s.Correlated := by
  have hinv : s.Inv := by
    refine Machine.ReachableWhen.invariant (M := service) (I := Inv) ?_ ?_ hs
    · rintro s₀ rfl
      refine ⟨⟨?_, ?_, ?_⟩, fun n => rfl, trivial⟩
      · intro i j p q hp
        cases hp
      · intro i p hp
        cases hp
      · intro i j p q hp
        cases hp
    · exact fun s l s' h hok hstep => h.step hok hstep
  exact ⟨hinv.apart, hinv.once, fun htask n hn => hinv.stopped htask hn,
    fun hlive clock answers hclock => quiet_completes hinv hlive hclock,
    fun now a timeUp s' ack hstep hnext => step_ack hstep hnext⟩

/-! ## A command that waits when the service is shut down -/

instance (s : Service) : (l : Label) → Decidable (KeepsAccepted s l)
  | .task _ _ _ => inferInstanceAs (Decidable (s.dcs.leaves = true → s.dcs.normalQueue = []))
  | .call n =>
      inferInstanceAs (Decidable (s.dcs.leftLoop = true → s.calls[n]?.any Call.sends = false))
  | .submit _ | .ack _ | .disconnect _ | .cancel _ | .deinit => instDecidableTrue

/-- A submit, and a shutdown before the task has taken the command. -/
def shutdownRun : List Label :=
  [.submit (requestFor [1]), .call 0, .deinit, .call 1] ++ rounds 10

/-- The task has stopped, and the accepted command is not completed. -/
theorem command_lost : ¬ ∀ s, service.Reachable s → s.Correlated := by
  intro h
  have hrun : (service.run {} shutdownRun).map (fun s =>
      s.dcs.task = .stopped && s.accepted = 1 && s.completed.length = 0) = some true := by
    decide
  obtain ⟨s, hs, hp⟩ := Machine.exists_reachable_of_run rfl hrun
  simp only [Bool.and_eq_true, decide_eq_true_eq] at hp
  obtain ⟨⟨htask, haccepted⟩, hcompleted⟩ := hp
  have hone := (h s hs).stopped htask 0 (by omega)
  rw [List.length_eq_zero_iff.mp hcompleted] at hone
  cases hone

/-- A submit, its ACK, and a shutdown. -/
def acknowledgedRun : List Label :=
  [.submit (requestFor [1]), .call 0, .call 0] ++ rounds 7 ++
    [.ack { deviceId := strlcpy _ [1], requestId := 1, command := .empty, accepted := true },
      .call 0, .call 0] ++ rounds 1 ++ [.deinit, .call 0, .call 0] ++ rounds 11

theorem commands_correlated_one : ∃ s : Service, s.dcs.task = .stopped ∧
    s.accepted = 1 ∧ s.Correlated := by
  have hrun : (service.runWhen KeepsAccepted {} acknowledgedRun).map (fun s =>
      s.dcs.task = .stopped && s.accepted = 1) = some true := by
    decide
  obtain ⟨s, hs, hp⟩ := Machine.exists_reachableWhen_of_run rfl hrun
  rw [Bool.and_eq_true, decide_eq_true_eq, decide_eq_true_eq] at hp
  exact ⟨s, hp.1, hp.2, commands_correlated hs⟩

end Service

end BleGateway.CommandService
