import BleGateway.Scheduler.WorkConservation

/-! # Deduplication of background jobs

A submit with a dedupe policy looks for an equal job among the queued ones. A job that has been
accepted since the last pass of the worker is not queued yet, and the search does not see it.
-/

namespace BleGateway.Scheduler

/-! ## Twins -/

/-- The job waits for its dispatch, in the background and under a dedupe policy. -/
def Slot.deduped (s : Slot) : Bool :=
  s.waiting && decide (s.job.priority = .background ∧ s.job.dedupe ≠ .none)

/-- No two waiting background jobs are equal under the policy. -/
def NoTwins (g : CtrlState) : Prop :=
  ∀ i j, i ≠ j → (g.slots i).deduped = true → (g.slots j).deduped = true →
    jobEqual (g.slots i).job (g.slots j).job = false

theorem jobEqual_comm (a b : Job) : jobEqual a b = jobEqual b a := by
  simp [jobEqual, eq_comm]

/-- A job that still waits after a move has waited before. -/
theorem SlotMove.deduped {s s' : Slot} (h : SlotMove s s') (hs : s'.deduped = true) :
    s.deduped = true := by
  rw [Slot.deduped, Bool.and_eq_true] at hs ⊢
  rw [h.job] at hs
  exact ⟨h.waiting hs.1, hs.2⟩

/-! ## What a submit accepts -/

/-- Nothing stands against the job but its duplicates that are not queued yet. -/
structure Admitted (g : CtrlState) (job : Job) (completion : Ptr) : Prop where
  wanted : completion ≠ 0
  named : job.deviceId ≠ []
  background : job.priority = .background
  running : g.running = true
  free : (freeSlot g).isSome = true
  fresh : job.dedupe = .dropIfExists → ∀ i, duplicateAt g job i = false

instance (g : CtrlState) (job : Job) (completion : Ptr) : Decidable (Admitted g job completion) :=
  decidable_of_iff (completion ≠ 0 ∧ job.deviceId ≠ [] ∧ job.priority = .background ∧
      g.running = true ∧ (freeSlot g).isSome = true ∧
      (job.dedupe = .dropIfExists → ∀ i, duplicateAt g job i = false))
    ⟨fun ⟨h₁, h₂, h₃, h₄, h₅, h₆⟩ => ⟨h₁, h₂, h₃, h₄, h₅, h₆⟩,
      fun ⟨h₁, h₂, h₃, h₄, h₅, h₆⟩ => ⟨h₁, h₂, h₃, h₄, h₅, h₆⟩⟩

section Submit

variable {g g' : CtrlState} {job : Job} {completion context : Ptr} {now : Int}

/-- A job under a policy that is accepted was admitted. -/
theorem admitted_of_ok (hok : (submit g (some job) completion context now).2.1 = .ok)
    (hdedupe : job.dedupe ≠ .none) : Admitted g job completion := by
  have hoffer := submit_spec g (some job) completion context now
  rcases hoffer with ⟨hne, -⟩ | ⟨-, j, i, hj, ha⟩
  · exact absurd hok hne
  cases hj
  have hslots := findOrCreateDevice_slots g job.deviceId
  unfold submit at hok
  dsimp only at hok
  split_ifs at hok with harg hpri hrun
  refine
    { wanted := ha.wanted
      named := fun h => harg (Or.inr h)
      background := by_contra fun h => hpri ⟨hdedupe, h⟩
      running := ha.running
      free := by rw [ha.free]; rfl
      fresh := fun hdrop i => ?_ }
  by_contra hdup
  generalize findOrCreateDevice g job.deviceId = r at hslots hok
  obtain ⟨g₀, _ | d⟩ := r
  · cases hok
  · replace hslots : g₀.slots = g.slots := hslots
    dsimp only at hok
    rw [hdrop] at hok
    dsimp only at hok
    cases hfind : Fin.find? (duplicateAt g₀ job) with
    | some k =>
        rw [hfind] at hok
        cases hok
    | none =>
        have hnone := Fin.find?_eq_none_iff.mp hfind i
        have hsame : duplicateAt g₀ job = duplicateAt g job := by
          funext k
          simp only [duplicateAt, hslots]
        rw [hsame] at hnone
        exact hdup (by simpa using hnone)

/-- An admitted job for a device that has an entry is accepted. -/
theorem ok_of_admitted (h : Admitted g job completion) (hdedupe : job.dedupe ≠ .none) {d : DevIx}
    (hd : findDevice g job.deviceId = some d) :
    (submit g (some job) completion context now).2.1 = .ok := by
  have hentry : findOrCreateDevice g job.deviceId = (g, some d) := by
    unfold findOrCreateDevice
    rw [hd]
  have hargs : ¬ (completion = 0 ∨ job.deviceId = []) := fun hor => hor.elim h.wanted h.named
  have hpriority : ¬ (job.dedupe ≠ .none ∧ job.priority ≠ .background) := fun hand =>
    hand.2 h.background
  have hrunning : ¬ g.running = false := by simp [h.running]
  obtain ⟨i, hi⟩ := Option.isSome_iff_exists.mp h.free
  unfold submit
  dsimp only
  rw [if_neg hargs, if_neg hpriority, if_neg hrunning, hentry]
  dsimp only
  cases hpolicy : job.dedupe with
  | none => exact absurd hpolicy hdedupe
  | dropIfExists =>
      have hnone : Fin.find? (duplicateAt g job) = none := by
        apply Fin.find?_eq_none_iff.mpr
        intro j
        simpa using h.fresh hpolicy j
      dsimp only
      rw [hnone]
      dsimp only
      rw [enqueue_some hi]
  | replaceQueued =>
      have hfree : freeSlot (supersede g job) = freeSlot g :=
        congrArg Fin.find? (funext fun j =>
          decide_eq_decide.mpr ((supersede_quiet g job).slots j).free_iff)
      dsimp only
      rw [enqueue_some (hfree.trans hi)]

end Submit

/-! ## One step -/

/-- No job that is not queued yet is equal to an admitted one. -/
def NoRival (s : Sys) : Label → Prop
  | .submit (some job) completion _ _ =>
      job.dedupe ≠ .none → Admitted s.ctrl job completion →
        ∀ i, (s.ctrl.slots i).state = .enqueuePending → (s.ctrl.slots i).deduped = true →
          jobEqual (s.ctrl.slots i).job job = false
  | _ => True

instance (s : Sys) (l : Label) : Decidable (NoRival s l) := by
  cases l with
  | submit job completion context now =>
      cases job with
      | none => exact isTrue trivial
      | some job =>
          unfold NoRival
          infer_instance
  | _ => exact isTrue trivial

section Step

variable {s s' : Sys} {l : Label}

/-- Jobs only stop waiting. -/
theorem NoTwins.of_deduped (h : NoTwins s.ctrl)
    (hkept : ∀ i, (s'.ctrl.slots i).deduped = true →
      (s.ctrl.slots i).deduped = true ∧ (s'.ctrl.slots i).job = (s.ctrl.slots i).job) :
    NoTwins s'.ctrl := by
  intro i j hij hi hj
  obtain ⟨hi', hjob⟩ := hkept i hi
  obtain ⟨hj', hjob'⟩ := hkept j hj
  rw [hjob, hjob']
  exact h i j hij hi' hj'

/-- The step accepts a job. -/
def Accepts (s : Sys) (l : Label) : Prop :=
  ∃ job completion context now, l = .submit (some job) completion context now ∧
    (Scheduler.submit s.ctrl (some job) completion context now).2.1 = .ok

/-- What another step leaves waiting has waited before. -/
theorem deduped_kept (h : SlotStep s l s') (hnone : ¬ Accepts s l) (j : SlotIx)
    (hj : (s'.ctrl.slots j).deduped = true) :
    (s.ctrl.slots j).deduped = true ∧ (s'.ctrl.slots j).job = (s.ctrl.slots j).job := by
  -- a slot that is written no longer waits
  have hwritten {e : Slot} {i : SlotIx} (he : e.waiting = false)
      (hj : (Function.update s.ctrl.slots i e j).deduped = true) :
      (s.ctrl.slots j).deduped = true ∧
        (Function.update s.ctrl.slots i e j).job = (s.ctrl.slots j).job := by
    by_cases hji : j = i
    · rw [hji, Function.update_self, Slot.deduped, he] at hj
      cases hj
    · rw [Function.update_of_ne hji] at hj ⊢
      exact ⟨hj, rfl⟩
  cases h with
  | quiet hq _ _ => exact ⟨(hq.slots j).deduped hj, (hq.slots j).job⟩
  | called _ hctrl _ _ _ =>
      rw [hctrl] at hj ⊢
      exact ⟨hj, rfl⟩
  | accepted hl hok _ _ _ _ => exact absurd ⟨_, _, _, _, hl, hok⟩ hnone
  | completed hc _ _ =>
      obtain ⟨r, hslots⟩ := hc.slots
      rw [hslots] at hj ⊢
      exact hwritten rfl hj
  | dispatched _ _ _ hctrl | cleared _ hctrl =>
      rw [hctrl] at hj ⊢
      exact hwritten rfl hj
  | @reported _ i _ _ _ hctrl _ _ _ =>
      rw [hctrl, CtrlState.setSlot_slots, releaseTransport_slots] at hj ⊢
      exact hwritten rfl hj

/-- An accepted job has a twin exactly if it has a rival. -/
theorem noTwins_accepted_iff (h : NoTwins s.ctrl) {g' : CtrlState} {job : Job}
    {completion context : Ptr} {now : Int} {i : SlotIx}
    (ha : Accepted s.ctrl g' job completion context now i)
    (hadmitted : job.dedupe ≠ .none → Admitted s.ctrl job completion) :
    NoTwins g' ↔ NoRival s (.submit (some job) completion context now) := by
  obtain ⟨id, d, hslot, -⟩ := ha.slot
  have hjob : (g'.slots i).job = job := by rw [hslot]; rfl
  have hfree := freeSlot_spec ha.free
  have hpending {j : SlotIx} (hj : (s.ctrl.slots j).state = .enqueuePending) : j ≠ i := by
    rintro rfl
    rw [hfree] at hj
    cases hj
  constructor
  · intro htwins hdedupe hadm j hj hdeduped
    have hkept : g'.slots j = s.ctrl.slots j := by
      rw [ha.others j (hpending hj), if_neg]
      simp [superseded, duplicateAt, hj]
    have hnew : (g'.slots i).deduped = true := by
      rw [Slot.deduped, hjob, Bool.and_eq_true]
      refine ⟨?_, decide_eq_true ⟨hadm.background, hdedupe⟩⟩
      rw [hslot]
      rfl
    have hne := htwins j i (hpending hj) (by rw [hkept]; exact hdeduped) hnew
    rw [hkept, hjob] at hne
    exact hne
  · intro hrival
    -- the new job against an older one
    have hagainst (j : SlotIx) (hj : j ≠ i) (hi : (g'.slots i).deduped = true)
        (hold : (g'.slots j).deduped = true) : jobEqual (g'.slots j).job job = false := by
      have hmove := ha.move hj
      have hbefore := hmove.deduped hold
      rw [Slot.deduped, hjob, Bool.and_eq_true, decide_eq_true_eq] at hi
      have hdedupe : job.dedupe ≠ .none := hi.2.2
      have hadm := hadmitted hdedupe
      rw [hmove.job]
      have hwaits := (Bool.and_eq_true_iff.mp hbefore).1
      rw [Slot.waiting, Bool.or_eq_true, decide_eq_true_eq, decide_eq_true_eq] at hwaits
      rcases hwaits with hstate | hstate
      · exact hrival hdedupe hadm j hstate hbefore
      · -- a queued duplicate is dropped for, or has just been withdrawn
        have hnodup : duplicateAt s.ctrl job j = false := by
          cases hpolicy : job.dedupe with
          | none => exact absurd hpolicy hdedupe
          | dropIfExists => exact hadm.fresh hpolicy j
          | replaceQueued =>
              by_contra hdup
              have hsup : superseded s.ctrl job j = true := by
                rw [superseded, hpolicy]
                simpa using hdup
              rw [ha.others j hj, if_pos hsup] at hold
              cases hold
        rw [duplicateAt, hstate] at hnodup
        simpa using hnodup
    intro a b hab hda hdb
    by_cases hai : a = i
    · rw [hai] at hda hab ⊢
      rw [hjob, jobEqual_comm]
      exact hagainst b hab.symm hda hdb
    · by_cases hbi : b = i
      · rw [hbi] at hdb ⊢
        rw [hjob]
        exact hagainst a hai hdb hda
      · rw [(ha.move hai).job, (ha.move hbi).job]
        exact h a b hab ((ha.move hai).deduped hda) ((ha.move hbi).deduped hdb)

/-- A job with a rival is accepted. -/
theorem noRival_of_refused (hg : TablesInv s.ctrl) (hnone : ¬ Accepts s l) : NoRival s l := by
  cases l with
  | submit job completion context now =>
      cases job with
      | none => trivial
      | some job =>
          intro hdedupe hadm i hi hdeduped
          by_contra hequal
          have hequal : jobEqual (s.ctrl.slots i).job job = true := by simpa using hequal
          have hsame : (s.ctrl.slots i).job.deviceId = job.deviceId := by
            simp only [jobEqual, Bool.and_eq_true, decide_eq_true_eq] at hequal
            rw [Job.deviceId, Job.deviceId, hequal.2]
          have hfound := hg.device.found i (by simp [hi])
          rw [hsame] at hfound
          exact hnone ⟨job, completion, context, now, rfl, ok_of_admitted hadm hdedupe hfound⟩
  | _ => trivial

/-- **One step** leaves two equal jobs exactly if it accepts one beside an equal job that is not
queued yet. -/
theorem noTwins_step_iff (hg : TablesInv s.ctrl) (h : NoTwins s.ctrl) (hs : s.step l = some s') :
    NoTwins s'.ctrl ↔ NoRival s l := by
  by_cases haccepts : Accepts s l
  · obtain ⟨job, completion, context, now, rfl, hok⟩ := haccepts
    obtain ⟨jobs, ticket, rfl⟩ := step_submit hs
    rcases submit_spec s.ctrl (some job) completion context now with ⟨hne, -⟩ | ⟨-, j, i, hj, ha⟩
    · exact absurd hok hne
    · cases hj
      exact noTwins_accepted_iff h ha (admitted_of_ok hok)
  · constructor
    · intro _
      exact noRival_of_refused hg haccepts
    · intro _
      exact h.of_deduped (deduped_kept (step_slots hs) haccepts)

end Step

/-! ## Runs -/

/-- **Deduplication.** Along a run there are never two equal background jobs waiting exactly if no
submit of the run is accepted beside an equal job that the worker has not queued yet. -/
theorem noTwins_run_iff {ls : List Label} {t : Sys} (h : machine.run boot ls = some t) :
    (∀ ks s, ks <+: ls → machine.run boot ks = some s → NoTwins s.ctrl) ↔
      ∀ ks l s, ks ++ [l] <+: ls → machine.run boot ks = some s → NoRival s l := by
  refine Machine.run_holds_iff (I := fun s => TablesInv s.ctrl) (P := fun s => NoTwins s.ctrl)
    (fun s l s' hI hstep => hI.step hstep) (fun s l s' hI hP hstep => noTwins_step_iff hI hP hstep)
    TablesInv.boot ?_ h
  intro i j _ hi
  cases hi

/-- A background job that is to be dropped if there is an equal one. -/
def backgroundRead : Job := { jobOn 1 .background with dedupe := .dropIfExists }

/-- The worker queues the first job before the second one comes. -/
def queuedRun : List Label :=
  [.submit (some backgroundRead) 1 0 0] ++ workerSteps 2 ++ [.submit (some backgroundRead) 1 0 0]

set_option maxRecDepth 100000 in
theorem noTwins_queuedRun : ∃ t, machine.run boot queuedRun = some t ∧ t.jobs.length = 1 ∧
    ((∀ ks s, ks <+: queuedRun → machine.run boot ks = some s → NoTwins s.ctrl) ↔
      ∀ ks l s, ks ++ [l] <+: queuedRun → machine.run boot ks = some s → NoRival s l) := by
  have hrun : ((machine.run boot queuedRun).map fun t => decide (t.jobs.length = 1)) =
      some true := by
    decide
  obtain ⟨t, ht, hp⟩ := Option.map_eq_some_iff.mp hrun
  exact ⟨t, ht, of_decide_eq_true hp, noTwins_run_iff ht⟩

set_option maxRecDepth 100000 in
/-- Both jobs come before the next pass of the worker: neither search finds the other one. -/
theorem twins : ∃ s, machine.Reachable s ∧ ¬ NoTwins s.ctrl := by
  have hrun : ((machine.run boot [.submit (some backgroundRead) 1 0 0,
      .submit (some backgroundRead) 1 0 0]).map fun s =>
        decide ((s.ctrl.slots 0).deduped = true ∧ (s.ctrl.slots 1).deduped = true ∧
          jobEqual (s.ctrl.slots 0).job (s.ctrl.slots 1).job = true)) = some true := by
    decide
  obtain ⟨s, hs, hp⟩ := Machine.exists_reachable_of_run rfl hrun
  obtain ⟨h0, h1, hequal⟩ := of_decide_eq_true hp
  refine ⟨s, hs, fun htwins => ?_⟩
  have hne := htwins 0 1 (by decide) h0 h1
  rw [hequal] at hne
  cases hne

end BleGateway.Scheduler
