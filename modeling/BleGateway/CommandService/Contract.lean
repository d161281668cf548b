import BleGateway.CommandService.TargetedCancel

/-! # What the two components agree on

The scheduler waits for the commands it has handed over; the command service holds commands in its
queue and in its pending slots. In every interleaving the two are the same commands. They are for
different devices and no more than may be in flight, so the service never answers that a device is
busy or that its tables are full.
-/

namespace BleGateway.CommandService

open Scheduler (SlotIx CtrlState)

/-! ## The contexts of the service -/

section Contexts

variable {κ : Type} {d d' : Dcs κ} {a : Dcs.SubmitAnswers} {k : κ}

/-- The contexts of the submitted and of the pending commands. -/
def Dcs.contexts (d : Dcs κ) : List κ :=
  d.normalQueue.map (·.callback) ++
    (List.finRange DCS_MAX_PENDING).filterMap fun i => (d.pending i).map (·.callback)

theorem Dcs.mem_contexts : k ∈ d.contexts ↔ k ∈ d.normalQueue.map (·.callback) ∨
    ∃ i p, d.pending i = some p ∧ p.callback = k := by
  simp [contexts]

/-- **A step of the task loses no command**: each stays, or is the one it calls back about. -/
theorem TaskMove.keeps {done : Option (Done κ)} (hm : TaskMove d a d' done) (hk : k ∈ d.contexts) :
    k ∈ d'.contexts ∨ ∃ result, done = some (k, result) := by
  rw [Dcs.mem_contexts] at hk ⊢
  cases hm with
  | same hq hp => exact .inl (by rwa [hq, hp])
  | @completed i p result hi hq hp =>
      rw [hq, hp]
      rcases hk with hk | ⟨j, q, hj, rfl⟩
      · exact .inl (.inl hk)
      · by_cases hji : j = i
        · subst hji
          obtain rfl := Option.some.inj (hi.symm.trans hj)
          exact .inr ⟨result, rfl⟩
        · exact .inl (.inr ⟨j, q, by rwa [Function.update_of_ne hji], rfl⟩)
  | @refused e result hq hp =>
      rw [hq, List.map_cons, List.mem_cons] at hk
      rw [hp]
      rcases hk with (rfl | hk) | hk
      · exact .inr ⟨result, rfl⟩
      · exact .inl (.inl hk)
      · exact .inl (.inr hk)
  | @admitted e i p _ _ hq hi hcall _ hp =>
      rw [hq, List.map_cons, List.mem_cons] at hk
      rw [hp]
      left
      rcases hk with (rfl | hk) | ⟨j, q, hj, rfl⟩
      · exact .inr ⟨i, p, Function.update_self .., hcall⟩
      · exact .inl hk
      · have hji : j ≠ i := by
          rintro rfl
          cases hi.symm.trans hj
        exact .inr ⟨j, q, by rwa [Function.update_of_ne hji], rfl⟩

end Contexts

/-! ## The invariant -/

/-- The scheduler waits for nothing but commands that the service holds. -/
structure Contract (s : Scheduler.Sys) (d : Dcs SlotIx) : Prop extends Held s d where
  sched : Scheduler.machine.Reachable s
  all : ∀ k ∈ s.dcs, k ∈ d.contexts

namespace Contract

variable {s s' : Scheduler.Sys} {d d' : Dcs SlotIx} {a : Dcs.SubmitAnswers} {k : SlotIx}
  {done : Option (Done SlotIx)} {answer : EspErr} {now : Int}

theorem mem_dcs (h : Contract s d) (hk : k ∈ d.contexts) : k ∈ s.dcs := by
  rcases Dcs.mem_contexts.mp hk with hk | ⟨i, p, hi, rfl⟩
  · obtain ⟨e, he, rfl⟩ := List.mem_map.mp hk
    exact (h.queued e he).1
  · exact (h.pending i p hi).1

/-- The scheduler hands nothing over. -/
theorem schedStep (h : Contract s d) {l : Scheduler.Label} (hs : s.step l = some s')
    (hdcs : s'.dcs = s.dcs) : Contract s' d :=
  ⟨h.toHeld.sched h.sched hs fun _ hk => hdcs ▸ hk, h.sched.step hs, hdcs ▸ h.all⟩

/-- The service leaves its commands alone. -/
theorem service (h : Contract s d) (hq : d'.normalQueue = d.normalQueue)
    (hp : d'.pending = d.pending) : Contract s d' := by
  refine ⟨h.toHeld.congr hq hp, h.sched, ?_⟩
  unfold Dcs.contexts
  rw [hq, hp]
  exact h.all

/-- The worker hands a command over, which the service takes or refuses. -/
theorem submit (h : Contract s d) (hk : handing s = some k)
    (hsubmit : d.submit (s.ctrl.slots k).job.request k = (d', answer))
    (hs : s.step (.worker now answer) = some s') : Contract s' d' := by
  refine ⟨h.toHeld.submit h.sched hk hsubmit hs,
    Machine.Reachable.step (l := .worker now answer) h.sched hs, fun j hj => ?_⟩
  rw [(worker_handing hk hs).2.2] at hj
  -- the scheduler waits for a command only if it was accepted
  rcases Dcs.submit_cases d (s.ctrl.slots k).job.request k with ⟨err, herr, heq⟩ | heq <;>
    rw [hsubmit] at heq <;> cases heq
  · rw [if_neg herr] at hj
    exact h.all j hj
  · rw [if_pos rfl, List.mem_cons] at hj
    rw [Dcs.mem_contexts, List.map_append, List.mem_append, or_assoc, or_left_comm,
      ← Dcs.mem_contexts (d := d)]
    exact hj.imp List.mem_singleton.mpr (h.all j)

/-- **The task keeps the two together**: what it calls back about leaves both. -/
theorem task (h : Contract s d) (hm : TaskMove d a d' done) : Contract (callBack s done) d' := by
  have hheld := h.toHeld.task h.sched hm
  cases done with
  | none =>
      refine ⟨hheld, h.sched, fun k hk => (hm.keeps (h.all k hk)).resolve_right ?_⟩
      rintro ⟨_, ⟨⟩⟩
  | some kr =>
      refine ⟨hheld, Machine.Reachable.step (l := .dcsComplete _ (some kr.2)) h.sched
        (Held.callBack_step (h.done_mem hm) kr.2), fun k hk => ?_⟩
      obtain ⟨hkj, hk⟩ := (Scheduler.dispatch_inv h.sched).nodup.mem_erase_iff.mp hk
      refine (hm.keeps (h.all k hk)).resolve_right ?_
      rintro ⟨_, ⟨⟩⟩
      exact hkj rfl

theorem step {σ σ' : Sys} (h : Contract σ.sched σ.dcs) {l : Label} (hs : σ.step l = some σ') :
    Contract σ'.sched σ'.dcs := by
  cases l with
  | scheduler label =>
      obtain ⟨hpass, hs⟩ := Option.ite_none_right_eq_some.mp hs
      obtain ⟨sched, hsched, rfl⟩ := Option.map_eq_some_iff.mp hs
      exact h.schedStep hsched (passes_dcs hpass hsched)
  | worker now =>
      simp only [Sys.step] at hs
      split at hs
      · rename_i hnone
        obtain ⟨sched, hsched, rfl⟩ := Option.map_eq_some_iff.mp hs
        exact h.schedStep hsched (worker_dcs hnone hsched)
      · rename_i k hk
        obtain ⟨sched, hsched, rfl⟩ := Option.map_eq_some_iff.mp hs
        exact h.submit hk rfl hsched
  | cancel sel =>
      obtain ⟨sched, hsched, rfl⟩ := Option.map_eq_some_iff.mp hs
      exact h.schedStep hsched (cancel_dcs hsched).1
  | callService n =>
      obtain ⟨c, -, rfl⟩ := Option.map_eq_some_iff.mp hs
      refine h.service ?_ ?_ <;> grind [Dcs.cancelDevice, Dcs.urgentEnqueue]
  | ack | disconnect | deinit =>
      cases hs
      refine h.service ?_ ?_ <;>
        grind [Dcs.onNotify, Dcs.onDisconnect, Dcs.deinit, Dcs.urgentEnqueue]
  | task now a timeUp =>
      obtain ⟨⟨dcs, done⟩, hstep, rfl⟩ := Option.map_eq_some_iff.mp hs
      have h' := h.task (Dcs.taskStep_move hstep)
      dsimp only
      split <;> exact h'

theorem perm (h : Contract s d) : s.dcs.Perm d.contexts := by
  refine (List.perm_ext_iff_of_nodup (Scheduler.dispatch_inv h.sched).nodup ?_).mpr
    fun k => ⟨h.all k, h.mem_dcs⟩
  refine h.distinct.append (List.Nodup.filterMap (fun i j k hi hj => ?_) (List.nodup_finRange _))
    fun k hk hk' => ?_
  · obtain ⟨p, hp, rfl⟩ := Option.map_eq_some_iff.mp hi
    obtain ⟨q, hq, heq⟩ := Option.map_eq_some_iff.mp hj
    exact h.single i j p q hp hq heq.symm
  · obtain ⟨i, -, hi⟩ := List.mem_filterMap.mp hk'
    obtain ⟨p, hp, rfl⟩ := Option.map_eq_some_iff.mp hi
    exact h.apart i p hp hk

/-- Two commands of the service for one device are the same. -/
theorem one_for_device (h : Contract s d) {i j : SlotIx} {m n : DeviceId} (hi : Carries s i m)
    (hj : Carries s j n) (hdev : m.text = n.text) : i = j := by
  have hopen := (Scheduler.dispatch_inv h.sched).held
  refine inflight_device (Scheduler.tables_inv h.sched) (hopen i hi.1).state (hopen j hj.1).state ?_
  exact (congrArg CharBuf.text hi.2).trans (hdev.trans (congrArg CharBuf.text hj.2).symm)

/-- The scheduler waits for no more commands than it may have in flight. -/
theorem length_le (h : Contract s d) : s.dcs.length ≤ Scheduler.DEVICE_CTRL_MAX_INFLIGHT := by
  have hd := Scheduler.dispatch_inv h.sched
  have ht := (Scheduler.tables_inv h.sched).transport
  have hflight {k : SlotIx} (hk : k ∈ (s.dcs.toFinset : Set SlotIx)) :
      (s.ctrl.slots k).state = .inflight := (hd.held k (by simpa using hk)).state
  -- their devices have their transport in flight, each for one of them
  refine Nat.le_trans ?_ ht.bound
  rw [ht.count, ← List.toFinset_card_of_nodup hd.nodup]
  refine Finset.card_le_card_of_injOn (fun k => (s.ctrl.slots k).deviceIndex) (fun k hk => ?_)
    fun i hi j hj hij => ?_
  · have hused := ht.used k (by simp [hflight hk])
    simpa using ht.transport _ hused (ht.holder k (hflight hk) ▸ Option.some_ne_none k)
  · have hholder := ht.holder i (hflight hi)
    rw [CtrlState.deviceOf, show (s.ctrl.slots i).deviceIndex =
      (s.ctrl.slots j).deviceIndex from hij]
      at hholder
    exact (Option.some.inj ((ht.holder j (hflight hj)).symm.trans hholder)).symm

end Contract

variable {σ : Sys}

theorem contract (hσ : machine.Reachable σ) : Contract σ.sched σ.dcs := by
  refine hσ.invariant (I := fun σ => Contract σ.sched σ.dcs) ?_ fun _ _ _ h hs => h.step hs
  rintro _ rfl
  exact ⟨Inv.boot.held, Inv.boot.sched, fun _ hk => by cases hk⟩

/-- **No command is lost between the two components, or held twice**: the commands that the
scheduler waits for are those in the queue and in the pending slots of the service. -/
theorem contexts_perm (hσ : machine.Reachable σ) : σ.sched.dcs.Perm σ.dcs.contexts :=
  (contract hσ).perm

/-- The command of one device is pending, the one of another device is submitted. -/
def sharedRun : List Label :=
  [1, 2].map (fun b => .scheduler (.submit (some (Scheduler.jobOn b .high)) 1 0 0)) ++
    workerSteps 50 ++ taskSteps 7

set_option maxRecDepth 100000 in
theorem sharedRun_reaches : ∃ σ, machine.Reachable σ ∧
    (∃ e, σ.dcs.normalQueue = [e]) ∧ (σ.dcs.pendingFindDevice [1]).isSome = true := by
  have hrun : ((machine.run boot sharedRun).map fun σ => decide
      (σ.dcs.normalQueue.length = 1 ∧ (σ.dcs.pendingFindDevice [1]).isSome = true)) =
        some true := by
    decide
  obtain ⟨σ, hσ, hp⟩ := Machine.exists_reachable_of_run rfl hrun
  obtain ⟨hone, hpending⟩ := of_decide_eq_true hp
  exact ⟨σ, hσ, List.length_eq_one_iff.mp hone, hpending⟩

theorem contexts_perm_sharedRun : ∃ σ : Sys, σ.dcs.normalQueue ≠ [] ∧
    (σ.dcs.pendingFindDevice [1]).isSome = true ∧ σ.sched.dcs.Perm σ.dcs.contexts := by
  obtain ⟨σ, hσ, ⟨e, he⟩, hpending⟩ := sharedRun_reaches
  exact ⟨σ, by simp [he], hpending, contexts_perm hσ⟩

/-- **The service always has room** for what the scheduler hands over: its queue is never full, and
a pending slot is free for the next submitted command. -/
theorem always_room (hσ : machine.Reachable σ) : σ.dcs.normalQueue.length < DCS_QUEUE_LEN ∧
    (σ.dcs.normalQueue ≠ [] → σ.dcs.pendingAllocate ≠ none) := by
  have hlen := (contract hσ).length_le
  rw [(contract hσ).perm.length_eq, Dcs.contexts, List.length_append, List.length_map] at hlen
  unfold Scheduler.DEVICE_CTRL_MAX_INFLIGHT at hlen
  refine ⟨by unfold DCS_QUEUE_LEN; omega, fun hne hnone => ?_⟩
  have hpos := List.length_pos_iff.mpr hne
  rw [List.filterMap_length_eq_length.mpr fun i _ => ?_, List.length_finRange] at hlen
  · unfold DCS_MAX_PENDING at hlen
    omega
  · simpa [Option.isSome_iff_ne_none] using Fin.find?_eq_none_iff.mp hnone i

theorem always_room_sharedRun : ∃ σ : Sys, (σ.dcs.pendingFindDevice [1]).isSome = true ∧
    σ.dcs.pendingAllocate ≠ none := by
  obtain ⟨σ, hσ, ⟨e, he⟩, hpending⟩ := sharedRun_reaches
  exact ⟨σ, hpending, (always_room hσ).2 (by simp [he])⟩

/-- **The service is never busy**: for no submitted command is another one of its device pending. -/
theorem never_busy (hσ : machine.Reachable σ) {e : SubmitEvent SlotIx}
    (he : e ∈ σ.dcs.normalQueue) : σ.dcs.pendingFindDevice e.request.deviceId.text = none := by
  have h := contract hσ
  refine Option.eq_none_iff_forall_ne_some.mpr fun i hi => ?_
  obtain ⟨p, hp, hdev⟩ := (Option.any_eq_true _ _).mp (Fin.find?_eq_some_iff.mp hi).1
  -- it would be the submitted command itself, which is not pending yet
  have heq := h.one_for_device (h.pending i p hp) (h.queued e he) (of_decide_eq_true hdev)
  exact h.apart i p hp (heq ▸ List.mem_map_of_mem he)

theorem never_busy_sharedRun : ∃ (σ : Sys) (e : SubmitEvent SlotIx), e ∈ σ.dcs.normalQueue ∧
    (σ.dcs.pendingFindDevice [1]).isSome = true ∧
    σ.dcs.pendingFindDevice e.request.deviceId.text = none := by
  obtain ⟨σ, hσ, ⟨e, he⟩, hpending⟩ := sharedRun_reaches
  have hmem : e ∈ σ.dcs.normalQueue := he ▸ List.mem_singleton_self e
  exact ⟨σ, e, hmem, hpending, never_busy hσ hmem⟩

end BleGateway.CommandService
