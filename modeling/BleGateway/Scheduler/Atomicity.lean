import BleGateway.Scheduler.Moves
import BleGateway.Scheduler.System

/-! # Refused submits

A submit that is refused should leave the accepted jobs as they are. `REPLACE_QUEUED` withdraws the
queued duplicates before it looks for a free slot, and a withdrawn job keeps its slot until the
worker has reported it, so in a full pool duplicates are withdrawn for a job that is then refused.
-/

namespace BleGateway.Scheduler

/-- The submit gets as far as the pool: its arguments are in order, the scheduler runs, and there is
an entry for the device. -/
def ReachesPool (g : CtrlState) (job : Job) (completion : Ptr) : Prop :=
  completion ≠ 0 ∧ job.deviceId ≠ [] ∧ (job.dedupe ≠ .none → job.priority = .background) ∧
    g.running = true ∧ (findOrCreateDevice g job.deviceId).2.isSome

/-- Duplicates are withdrawn although the pool is full. -/
def WithdrawsInVain (g : CtrlState) (job : Job) (completion : Ptr) : Prop :=
  ReachesPool g job completion ∧ job.dedupe = .replaceQueued ∧
    (∃ i, duplicateAt g job i = true) ∧ freeSlot g = none

section Slots

variable {g g' : CtrlState} {job : Job}

theorem freeSlot_congr (h : g'.slots = g.slots) : freeSlot g' = freeSlot g := by
  rw [freeSlot, freeSlot, h]

theorem duplicateAt_congr (h : g'.slots = g.slots) : duplicateAt g' job = duplicateAt g job := by
  funext i
  rw [duplicateAt, duplicateAt, h]

/-- A withdrawn job keeps its slot. -/
theorem freeSlot_supersede : freeSlot (supersede g job) = freeSlot g :=
  congrArg Fin.find?
    (funext fun i => decide_eq_decide.mpr ((supersede_quiet g job).slots i).free_iff)

/-- The slots stay as they are exactly when there is no duplicate. -/
theorem supersede_slots_iff :
    (supersede g job).slots = g.slots ↔ ∀ i, duplicateAt g job i = false := by
  constructor
  · intro h i
    cases hdup : duplicateAt g job i with
    | false => rfl
    | true =>
        have hqueued : (g.slots i).state = .queued := by
          rw [duplicateAt, Bool.and_eq_true, decide_eq_true_eq] at hdup
          exact hdup.1
        have hi : (supersede g job).slots i = (g.slots i).finish .superseded := if_pos hdup
        rw [h] at hi
        have hpending : (g.slots i).state = .completionPending := congrArg Slot.state hi
        rw [hqueued] at hpending
        cases hpending
  · intro h
    funext i
    exact if_neg (by rw [h i]; decide)

end Slots

/-! ## One submit -/

section Submit

variable {g : CtrlState} {job : Job} {completion : Ptr} (context : Ptr) (now : Int)

/-- A submit that does not get as far as the pool is refused and changes no slot. -/
theorem submit_refused_early (h : ¬ ReachesPool g job completion) :
    (submit g (some job) completion context now).1.slots = g.slots := by
  unfold submit
  dsimp only
  split_ifs with hargs hpriority hrunning
  · rfl
  · rfl
  · rfl
  · have hslots := findOrCreateDevice_slots g job.deviceId
    obtain ⟨hcompletion, hid⟩ := not_or.mp hargs
    have hbackground : job.dedupe ≠ .none → job.priority = .background := fun hd =>
      not_not.mp fun hp => hpriority ⟨hd, hp⟩
    have hnone : (findOrCreateDevice g job.deviceId).2 = none := by
      cases hd : (findOrCreateDevice g job.deviceId).2 with
      | none => rfl
      | some d =>
          refine absurd ⟨hcompletion, hid, hbackground, by simpa using hrunning, ?_⟩ h
          rw [hd]
          rfl
    generalize findOrCreateDevice g job.deviceId = r at hslots hnone ⊢
    obtain ⟨g₁, d⟩ := r
    subst hnone
    exact hslots

/-- What a submit comes to at the pool. -/
theorem submit_at_pool (h : ReachesPool g job completion) :
    ∃ g₁ d, g₁.slots = g.slots ∧ submit g (some job) completion context now =
      match job.dedupe with
      | .none => enqueue g₁ job completion context d now
      | .dropIfExists =>
          match Fin.find? (duplicateAt g₁ job) with
          | some i => (g₁, .invalidState, some (g₁.slots i).id)
          | none => enqueue g₁ job completion context d now
      | .replaceQueued => enqueue (supersede g₁ job) job completion context d now := by
  obtain ⟨hcompletion, hid, hbackground, hrunning, hentry⟩ := h
  obtain ⟨d, hd⟩ := Option.isSome_iff_exists.mp hentry
  refine ⟨(findOrCreateDevice g job.deviceId).1, d, findOrCreateDevice_slots g _, ?_⟩
  have hargs : ¬ (completion = 0 ∨ job.deviceId = []) := not_or.mpr ⟨hcompletion, hid⟩
  have hpriority : ¬ (job.dedupe ≠ .none ∧ job.priority ≠ .background) := fun hbad =>
    hbad.2 (hbackground hbad.1)
  unfold submit
  dsimp only
  rw [if_neg hargs, if_neg hpriority, if_neg (by simp [hrunning])]
  generalize findOrCreateDevice g job.deviceId = r at hd ⊢
  obtain ⟨g₁, d₁⟩ := r
  subst hd
  rfl

/-- A refusal in the last part changes no slot. -/
theorem enqueue_refused {g₁ : CtrlState} {d : DevIx}
    (h : (enqueue g₁ job completion context d now).2.1 ≠ .ok) :
    freeSlot g₁ = none ∧ (enqueue g₁ job completion context d now).1 = g₁ := by
  cases hfree : freeSlot g₁ with
  | none =>
      rw [enqueue_none hfree]
      exact ⟨rfl, rfl⟩
  | some i =>
      rw [enqueue_some hfree] at h
      exact absurd rfl h

/-- **Refused submits.** A submit that is not answered `ESP_OK` leaves every slot as it was, with
its job, its state and its callback, exactly when it does not withdraw duplicates in a full pool. -/
theorem submit_atomic_iff (g : CtrlState) (job : Option Job) (completion context : Ptr)
    (now : Int) :
    ((submit g job completion context now).2.1 ≠ .ok →
        (submit g job completion context now).1.slots = g.slots) ↔
      ∀ j ∈ job, ¬ WithdrawsInVain g j completion := by
  cases job with
  | none => exact ⟨fun _ j hj => by simp at hj, fun _ _ => rfl⟩
  | some job =>
      have hforall : (∀ j ∈ some job, ¬ WithdrawsInVain g j completion) ↔
          ¬ WithdrawsInVain g job completion :=
        ⟨fun h => h job rfl, fun h j hj => Option.mem_some.mp hj ▸ h⟩
      rw [hforall]
      by_cases hpool : ReachesPool g job completion
      · obtain ⟨g₁, d, hslots, hsubmit⟩ := submit_at_pool context now hpool
        rw [hsubmit]
        cases hdedupe : job.dedupe with
        | none =>
            refine iff_of_true (fun herr => ?_) fun hvain => ?_
            · rw [(enqueue_refused context now herr).2, hslots]
            · exact absurd (hdedupe.symm.trans hvain.2.1) (by decide)
        | dropIfExists =>
            refine iff_of_true (fun herr => ?_) fun hvain => ?_
            · dsimp only at herr ⊢
              split at herr
              · exact hslots
              · rw [(enqueue_refused context now herr).2, hslots]
            · exact absurd (hdedupe.symm.trans hvain.2.1) (by decide)
        | replaceQueued =>
            dsimp only
            constructor
            · rintro hkept ⟨-, -, ⟨i, hdup⟩, hfull⟩
              have hfull₁ : freeSlot (supersede g₁ job) = none := by
                rw [freeSlot_supersede, freeSlot_congr hslots, hfull]
              rw [enqueue_none hfull₁, ← hslots] at hkept
              have hnone := supersede_slots_iff.mp (hkept (by simp)) i
              rw [duplicateAt_congr hslots, hdup] at hnone
              cases hnone
            · intro hvain herr
              obtain ⟨hfull, hsame⟩ := enqueue_refused context now herr
              rw [freeSlot_supersede, freeSlot_congr hslots] at hfull
              -- the pool is full, so there is nothing to withdraw
              have hnone : ∀ i, duplicateAt g₁ job i = false := by
                intro i
                rw [duplicateAt_congr hslots]
                cases hdup : duplicateAt g job i with
                | false => rfl
                | true => exact absurd ⟨hpool, hdedupe, ⟨i, hdup⟩, hfull⟩ hvain
              rw [hsame, supersede_slots_iff.mpr hnone, hslots]
      · exact iff_of_true (fun _ => submit_refused_early context now hpool) fun hvain =>
          hpool hvain.1

end Submit

/-! ## A refused replacement -/

/-- A background refresh that replaces an earlier one of its kind. -/
def refreshJob : Job :=
  { request := { deviceId := strlcpy _ [1] }
    priority := .background
    dedupe := .replaceQueued }

def otherJob : Job := { refreshJob with dedupe := .none, ownerToken := 1 }

/-- The refresh and other jobs fill the pool, and the worker queues them. -/
def fillRun : List Label :=
  .submit (some refreshJob) 1 0 0 ::
    List.replicate 23 (.submit (some otherJob) 1 0 0) ++ [.worker 0 .ok, .worker 0 .ok]

/-- The second refresh is refused, and the first one is withdrawn. -/
theorem refused_submit_supersedes :
    ∃ s, machine.Reachable s ∧ (submit s.ctrl (some refreshJob) 1 0 0).2.1 = .noMem ∧
      (s.ctrl.slots 0).state = .queued ∧
      ((submit s.ctrl (some refreshJob) 1 0 0).1.slots 0).state = .completionPending ∧
      ((submit s.ctrl (some refreshJob) 1 0 0).1.slots 0).terminal = .superseded := by
  have hrun : ((machine.run boot fillRun).map fun s =>
      decide ((submit s.ctrl (some refreshJob) 1 0 0).2.1 = .noMem ∧
        (s.ctrl.slots 0).state = .queued ∧
        ((submit s.ctrl (some refreshJob) 1 0 0).1.slots 0).state = .completionPending ∧
        ((submit s.ctrl (some refreshJob) 1 0 0).1.slots 0).terminal = .superseded)) =
      some true := by
    decide +kernel
  obtain ⟨s, hs, hp⟩ := Machine.exists_reachable_of_run (M := machine) rfl hrun
  exact ⟨s, hs, of_decide_eq_true hp⟩

end BleGateway.Scheduler
