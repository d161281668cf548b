import BleGateway.CommandService.Wakeup

/-! # Commands and their completions

The request ids of the pending commands are distinct, also when the counter wraps around, and an
ACK completes the command it names. A command is completed once, unless the service is shut down
while it waits in the queue.
-/

namespace BleGateway.CommandService

/-! ## Request ids -/

section RequestIds

open Scheduler (nextId nextId_ne_zero)

/-- The ids run through `1, …, 2 ^ 32 - 1`. -/
theorem toNat_nextId (counter : UInt32) :
    (nextId counter).toNat = counter.toNat % 4294967295 + 1 := by
  have hlt := counter.toNat_lt
  unfold nextId
  have hadd : (counter + 1).toNat = (counter.toNat + 1) % 4294967296 := UInt32.toNat_add counter 1
  split
  · rename_i h
    rw [h] at hadd ⊢
    have hzero : (0 : UInt32).toNat = 0 := rfl
    have hone : ((0 : UInt32) + 1).toNat = 1 := rfl
    omega
  · rename_i h
    have hne : (counter + 1).toNat ≠ 0 := fun h0 => h (UInt32.toNat_inj.mp h0)
    omega

theorem toNat_iterate_nextId (counter : UInt32) (k : Nat) :
    (nextId^[k + 1] counter).toNat = (counter.toNat + k) % 4294967295 + 1 := by
  induction k with
  | zero => exact toNat_nextId counter
  | succ k ih =>
      rw [Function.iterate_succ_apply', toNat_nextId, ih]
      omega

/-- Few ids in a row are distinct. -/
theorem iterate_nextId_injective (counter : UInt32) {j k : Nat} (hj : j ≤ DCS_MAX_PENDING)
    (hk : k ≤ DCS_MAX_PENDING) (h : nextId^[j + 1] counter = nextId^[k + 1] counter) : j = k := by
  have heq := congrArg UInt32.toNat h
  rw [toNat_iterate_nextId, toNat_iterate_nextId] at heq
  have hmax : DCS_MAX_PENDING = 4 := rfl
  omega

namespace Dcs

variable {κ : Type} {d : Dcs κ}

theorem requestIdInUse_iff {id : UInt32} :
    d.requestIdInUse id = true ↔ ∃ i p, d.pending i = some p ∧ p.requestId = id := by
  simp [requestIdInUse, Option.any_eq_true]

/-- The loop ends with an id in use only if all the ids it went through are in use. -/
theorem inUse_of_pendingNextRequestId {n : Nat} {counter : UInt32}
    (h : d.requestIdInUse (d.pendingNextRequestId n counter) = true) :
    ∀ k ≤ n, d.requestIdInUse (nextId^[k + 1] counter) = true := by
  induction n generalizing counter with
  | zero =>
      intro k hk
      obtain rfl := Nat.le_zero.mp hk
      exact h
  | succ n ih =>
      rw [pendingNextRequestId] at h
      split at h
      · rename_i hcollision
        intro k hk
        cases k with
        | zero => exact hcollision
        | succ k =>
            rw [Function.iterate_succ_apply]
            exact ih h k (Nat.le_of_succ_le_succ hk)
      · rename_i hfree
        exact absurd h hfree

/-- **A new request id is not in use**, because one slot has only one id. -/
theorem pendingNextRequestId_fresh (counter : UInt32) :
    d.requestIdInUse (d.pendingNextRequestId DCS_MAX_PENDING counter) = false := by
  by_contra hcon
  rw [Bool.not_eq_false] at hcon
  have hall : ∀ k : Fin (DCS_MAX_PENDING + 1), ∃ i p, d.pending i = some p ∧
      p.requestId = nextId^[k.val + 1] counter := fun k =>
    requestIdInUse_iff.mp (inUse_of_pendingNextRequestId hcon k (Nat.le_of_lt_succ k.isLt))
  choose slot p hp hid using hall
  have hinj : Function.Injective slot := by
    intro j k hjk
    have hpp : p j = p k :=
      Option.some.inj ((hp j).symm.trans ((congrArg d.pending hjk).trans (hp k)))
    have hids := (hid j).symm.trans ((congrArg Pending.requestId hpp).trans (hid k))
    exact Fin.ext (iterate_nextId_injective counter (Nat.le_of_lt_succ j.isLt)
      (Nat.le_of_lt_succ k.isLt) hids)
  have hcard := Fintype.card_le_of_injective slot hinj
  rw [Fintype.card_fin, Fintype.card_fin] at hcard
  exact absurd hcard (Nat.not_succ_le_self _)

theorem pendingNextRequestId_ne_zero (n : Nat) (counter : UInt32) :
    d.pendingNextRequestId n counter ≠ 0 := by
  induction n generalizing counter with
  | zero => exact nextId_ne_zero counter
  | succ n ih =>
      rw [pendingNextRequestId]
      split
      · exact ih _
      · exact nextId_ne_zero counter

end Dcs

end RequestIds

/-! ## Pending commands -/

namespace Dcs

variable {κ : Type} {d d' : Dcs κ} {a : SubmitAnswers} {done : Option (Done κ)}

/-- The pending commands are for different devices and have different request ids. -/
structure Apart (d : Dcs κ) : Prop where
  devices : ∀ i j p q, d.pending i = some p → d.pending j = some q → p.deviceId = q.deviceId → i = j
  ne_zero : ∀ i p, d.pending i = some p → p.requestId ≠ 0
  ids : ∀ i j p q, d.pending i = some p → d.pending j = some q → p.requestId = q.requestId → i = j

theorem Apart.congr (h : d.Apart) (hp : d'.pending = d.pending) : d'.Apart := by
  obtain ⟨h₁, h₂, h₃⟩ := h
  rw [← hp] at h₁ h₂ h₃
  exact ⟨h₁, h₂, h₃⟩

variable {i : PendingIx}

theorem Apart.clear (h : d.Apart) (hp : d'.pending = Function.update d.pending i none) :
    d'.Apart := by
  have hold : ∀ j p, d'.pending j = some p → d.pending j = some p := by
    intro j p hj
    rw [hp] at hj
    by_cases hji : j = i
    · subst hji
      rw [Function.update_self] at hj
      cases hj
    · rwa [Function.update_of_ne hji] at hj
  exact ⟨fun j k p q hj hk => h.devices j k p q (hold j p hj) (hold k q hk),
    fun j p hj => h.ne_zero j p (hold j p hj),
    fun j k p q hj hk => h.ids j k p q (hold j p hj) (hold k q hk)⟩

theorem Apart.admit (h : d.Apart) {p : Pending κ}
    (hp : d'.pending = Function.update d.pending i (some p)) (hne : p.requestId ≠ 0)
    (hnew : ∀ j q, d.pending j = some q → q.deviceId ≠ p.deviceId ∧ q.requestId ≠ p.requestId) :
    d'.Apart := by
  have hcases : ∀ j q, d'.pending j = some q → j = i ∧ q = p ∨ j ≠ i ∧ d.pending j = some q := by
    intro j q hj
    rw [hp] at hj
    by_cases hji : j = i
    · subst hji
      rw [Function.update_self] at hj
      exact .inl ⟨rfl, (Option.some.inj hj).symm⟩
    · rw [Function.update_of_ne hji] at hj
      exact .inr ⟨hji, hj⟩
  refine ⟨fun j k q r hj hk heq => ?_, fun j q hj => ?_, fun j k q r hj hk heq => ?_⟩
  · rcases hcases j q hj with ⟨rfl, rfl⟩ | ⟨hji, hj⟩ <;>
      rcases hcases k r hk with ⟨rfl, rfl⟩ | ⟨hki, hk⟩
    · rfl
    · exact absurd heq.symm (hnew k r hk).1
    · exact absurd heq (hnew j q hj).1
    · exact h.devices j k q r hj hk heq
  · rcases hcases j q hj with ⟨rfl, rfl⟩ | ⟨-, hj⟩
    · exact hne
    · exact h.ne_zero j q hj
  · rcases hcases j q hj with ⟨rfl, rfl⟩ | ⟨hji, hj⟩ <;>
      rcases hcases k r hk with ⟨rfl, rfl⟩ | ⟨hki, hk⟩
    · rfl
    · exact absurd heq.symm (hnew k r hk).2
    · exact absurd heq (hnew j q hj).2
    · exact h.ids j k q r hj hk heq

variable {now : Int} {timeUp : Bool}

/-- A command becomes pending only for a device without one, with a new request id. -/
theorem handleSubmit_pending {e : SubmitEvent κ} {p : Pending κ} (hold : d.pending i = none)
    (hnew : (d.handleSubmit e a now).1.pending i = some p) :
    p.requestId ≠ 0 ∧
      ∀ j q, d.pending j = some q → q.deviceId ≠ p.deviceId ∧ q.requestId ≠ p.requestId := by
  have hsame : d.pending i ≠ some p := by simp [hold]
  unfold handleSubmit at hnew
  split at hnew
  · exact absurd hnew hsame
  split at hnew
  · exact absurd hnew hsame
  split at hnew
  · exact absurd hnew hsame
  rename_i hdevice
  split at hnew
  · exact absurd hnew hsame
  rename_i k hk
  dsimp only at hnew
  split at hnew
  · -- the command stays pending
    rw [setPending_pending] at hnew
    by_cases hik : i = k
    · subst hik
      rw [Function.update_self] at hnew
      cases hnew
      refine ⟨pendingNextRequestId_ne_zero _ _,
        fun j q hj => ⟨fun heq => hdevice ?_, fun heq => ?_⟩⟩
      · rw [pendingFindDevice, Fin.isSome_find?_iff]
        exact ⟨j, by rw [hj]; exact decide_eq_true (congrArg CharBuf.text heq)⟩
      · have hfresh := pendingNextRequestId_fresh (d := d) d.nextRequestId
        rw [← Bool.not_eq_true, requestIdInUse_iff] at hfresh
        exact hfresh ⟨j, q, hj, heq⟩
    · rw [Function.update_of_ne hik] at hnew
      exact absurd hnew hsame
  · -- the transport refuses it, and the slot is free again
    have hclear : Function.update (Function.update d.pending k (some _)) k none i = some p := hnew
    by_cases hik : i = k
    · subst hik
      rw [Function.update_self] at hclear
      cases hclear
    · rw [Function.update_of_ne hik, Function.update_of_ne hik] at hclear
      exact absurd hclear hsame

/-- The task takes a command. -/
theorem taskStep_receive {e : SubmitEvent κ} {es : List (SubmitEvent κ)} (htask : d.task = .receive)
    (hq : d.normalQueue = e :: es) (hs : d.taskStep now a timeUp = some (d', done)) :
    d' = ({ d with normalQueue := es }.handleSubmit e a now).1.goto (.drain true) ∧
      done = ({ d with normalQueue := es }.handleSubmit e a now).2 := by
  obtain ⟨queue, urgent, running, notified, task, pending, next⟩ := d
  cases htask
  cases hq
  cases hs
  exact ⟨rfl, rfl⟩

theorem Apart.task (h : d.Apart) (hs : d.taskStep now a timeUp = some (d', done)) : d'.Apart := by
  cases taskStep_move hs with
  | same _ hp | refused _ _ hp => exact h.congr hp
  | completed r hi hq hp => exact h.clear hp
  | @admitted e i p htask ha hq hi hc hd hp =>
      have hnew : ({ d with normalQueue := d'.normalQueue }.handleSubmit e a now).1.pending i =
          some p := by
        have hstep := congrArg pending (taskStep_receive htask hq hs).1
        rw [goto_pending] at hstep
        rw [← hstep, hp, Function.update_self]
      obtain ⟨hne, hothers⟩ :=
        handleSubmit_pending (d := { d with normalQueue := d'.normalQueue }) hi hnew
      exact h.admit hp hne hothers

/-- The ACK that the task takes next. -/
def nextAck (d : Dcs κ) : Option AckEvent :=
  match d.task, d.urgentQueue with
  | .drain _, .ack ack :: _ => some ack
  | _, _ => none

/-- **An ACK completes the command it names**: device, request id and command agree. -/
theorem taskStep_ack {ack : AckEvent} {k : κ} {result : DeviceCommandResult}
    (h : d.taskStep now a timeUp = some (d', some (k, result))) (hnext : d.nextAck = some ack) :
    ∃ i p, d.pending i = some p ∧ p.deviceId = ack.deviceId ∧ p.requestId = ack.requestId ∧
      p.command = ack.command ∧ p.callback = k := by
  unfold nextAck at hnext
  split at hnext
  · rename_i htask hu
    cases hnext
    simp only [taskStep, htask, hu, Option.some.injEq, Prod.mk.injEq, handleUrgent, handleAck] at h
    obtain ⟨-, hdone⟩ := h
    split at hdone
    · cases hdone
    split at hdone
    · cases hdone
    rename_i i hfind
    have hi := (Fin.find?_eq_some_iff.mp hfind).1
    obtain ⟨p, hp, hmatch⟩ := (Option.any_eq_true _ _).mp hi
    rw [Bool.and_eq_true, decide_eq_true_eq, decide_eq_true_eq] at hmatch
    split at hdone
    · cases hdone
    · rename_i hcommand
      obtain ⟨q, hq, hcall⟩ := Option.map_eq_some_iff.mp hdone
      obtain rfl := Option.some.inj (hp.symm.trans hq)
      refine ⟨i, p, hp, CharBuf.ext hmatch.1, hmatch.2, ?_, congrArg Prod.fst hcall⟩
      have hp' : d.pending i = some p := hp
      simpa [hp'] using hcommand
  · cases hnext

/-! ## The end of the task -/

/-- The task has left its loop. -/
def leftLoop (d : Dcs κ) : Bool :=
  match d.task with
  | .sweep _ | .stopped => true
  | _ => false

/-- The next step of the task leaves the loop. -/
def leaves (d : Dcs κ) : Bool :=
  match d.task with
  | .test => !d.running
  | .timeouts false i => (nextIx i).isNone && !d.running
  | _ => false

/-- Behind the loop the queue is empty, and the slots that were swept are free. -/
def Swept (d : Dcs κ) : Prop :=
  match d.task with
  | .sweep i => d.normalQueue = [] ∧ ∀ j < i, d.pending j = none
  | .stopped => d.normalQueue = [] ∧ ∀ j, d.pending j = none
  | _ => True

theorem nextIx_some {j : PendingIx} (h : nextIx i = some j) (k : PendingIx) (hk : k < j) :
    k < i ∨ k = i := by
  unfold nextIx at h
  split at h
  · cases h
    have hle : k.val < i.val + 1 := hk
    rcases Nat.lt_succ_iff_lt_or_eq.mp hle with hlt | heq
    · exact .inl hlt
    · exact .inr (Fin.ext heq)
  · cases h

theorem nextIx_none (h : nextIx i = none) (k : PendingIx) : k < i ∨ k = i := by
  unfold nextIx at h
  split at h
  · cases h
  · rename_i hlast
    have hlt := k.isLt
    rcases Nat.lt_or_eq_of_le (show k.val ≤ i.val by omega) with hlt | heq
    · exact .inl hlt
    · exact .inr (Fin.ext heq)

/-- A slot that is swept is free. -/
theorem sweep_pending {k : PendingIx} (status : DeviceCommandStatus)
    (hold : ∀ j < i, d.pending j = none) (hk : k < i ∨ k = i) :
    (d.pendingCompleteStatus i status).1.pending k = none := by
  show Function.update d.pending i none k = none
  by_cases hki : k = i
  · rw [hki, Function.update_self]
  · rw [Function.update_of_ne hki]
    exact hold k (hk.resolve_right hki)

theorem Swept.task (h : d.Swept) (hleaves : d.leaves = true → d.normalQueue = [])
    (hs : d.taskStep now a timeUp = some (d', done)) : d'.Swept := by
  unfold taskStep at hs
  split at hs
  · rename_i htask
    cases hs
    cases hrun : d.running with
    | true => rw [if_pos rfl]; trivial
    | false =>
        have hempty := hleaves (by rw [leaves, htask, hrun]; rfl)
        exact ⟨hempty, fun j hj => absurd hj (Nat.not_lt_zero _)⟩
  · rename_i second htask
    split at hs
    · cases hs
      trivial
    · rename_i e es _
      have hc : (handleUrgent { d with urgentQueue := es } e).1.task = d.task :=
        congrArg Prod.fst (handleUrgent_control (d := { d with urgentQueue := es }) e)
      dsimp only at hs
      split at hs <;> cases hs
      · rw [Swept, hc, htask]
        trivial
      · trivial
  · rename_i second i htask
    dsimp only at hs
    split at hs <;> cases hs
    · trivial
    · rename_i hlast
      cases second with
      | true => trivial
      | false =>
          have hc := checkTimeout_control (d := d) i now
          have hrunning : (d.checkTimeout i now).1.running = d.running := by
            unfold checkTimeout
            split <;> rfl
          simp only [control, Prod.mk.injEq] at hc
          unfold afterTimeouts
          rw [hrunning]
          cases hrun : d.running with
          | true => trivial
          | false =>
              have hempty := hleaves (by simp [leaves, htask, hrun, hlast])
              exact ⟨hc.2.2.trans hempty, fun j hj => absurd hj (Nat.not_lt_zero _)⟩
  · split at hs <;> cases hs <;> trivial
  · split at hs
    · cases hs
      trivial
    · cases hs
  · rename_i i htask
    rw [Swept, htask] at h
    dsimp only at hs
    split at hs <;> cases hs
    · rename_i j hj
      exact ⟨h.1, fun k hk => sweep_pending .cancelled h.2 (nextIx_some hj k hk)⟩
    · rename_i hlast
      exact ⟨h.1, fun k => sweep_pending .cancelled h.2 (nextIx_none hlast k)⟩
  · cases hs

end Dcs

/-! ## Where the commands are -/

/-- The call is a submit that sends its command next. -/
def Call.sends : Call → Bool
  | .submit _ => true
  | _ => false

namespace Service

variable {s s' : Service}

/-- How often the command with this number waits in the queue, is pending or has been completed. -/
def places (s : Service) (n : Nat) : Nat :=
  s.dcs.normalQueue.countP (·.callback = n) +
    Table.count (fun p => p.any (·.callback = n)) s.dcs.pending + s.completed.countP (·.1 = n)

/-- The task leaves its loop with an empty queue, and no submit reaches the queue after that. -/
def KeepsAccepted (s : Service) : Label → Prop
  | .task _ _ _ => s.dcs.leaves = true → s.dcs.normalQueue = []
  | .call n => s.dcs.leftLoop = true → s.calls[n]?.any Call.sends = false
  | _ => True

/-- What every step keeps. -/
structure Inv (s : Service) : Prop where
  apart : s.dcs.Apart
  once : ∀ n, s.places n = if n < s.accepted then 1 else 0
  swept : s.dcs.Swept

theorem Inv.call (h : s.Inv) {n : Nat} (hok : KeepsAccepted s (.call n))
    (hs : s.step (.call n) = some s') : s'.Inv := by
  cases callStep_move hs with
  | @sent request call dcs calls accepted completed =>
      refine ⟨h.apart.congr (by rw [dcs]), fun k => ?_, ?_⟩
      · rw [places, dcs, accepted, completed, List.countP_append, List.countP_singleton]
        have hold := h.once k
        rw [places] at hold
        -- the new command is the only one with its number
        by_cases hk : s.accepted = k
        · subst hk
          simp only [Nat.lt_irrefl, if_false, decide_true, if_true, Nat.lt_succ_self] at hold ⊢
          omega
        · have hiff : k < s.accepted + 1 ↔ k < s.accepted := by omega
          simp only [hk, decide_false, Bool.false_eq_true, if_false, hiff]
          exact hold
      · have hleft : s.dcs.leftLoop = false := by
          by_contra hcon
          rw [Bool.not_eq_false] at hcon
          have hno := hok hcon
          rw [call] at hno
          cases hno
        rw [Dcs.Swept, dcs]
        unfold Dcs.leftLoop at hleft
        split at hleft <;> simp_all
  | announced call dcs calls accepted completed =>
      refine ⟨h.apart.congr (by rw [dcs]; rfl), fun k => ?_, ?_⟩
      · rw [places, dcs, accepted, completed]
        exact h.once k
      · rw [dcs]
        exact h.swept
  | urgent call queue pending task notified calls accepted completed =>
      refine ⟨h.apart.congr pending, fun k => ?_, ?_⟩
      · rw [places, queue, pending, accepted, completed]
        exact h.once k
      · rw [Dcs.Swept, queue, pending, task]
        exact h.swept

variable {now : Int} {timeUp : Bool}

/-- A step of the task moves a command from the queue to a slot, or completes it. -/
theorem Inv.task (h : s.Inv) {a : Dcs.SubmitAnswers} (hok : KeepsAccepted s (.task now a timeUp))
    (hs : s.step (.task now a timeUp) = some s') :
    s'.Inv := by
  obtain ⟨dcs, done, hstep, rfl⟩ := step_task hs
  refine ⟨h.apart.task hstep, fun n => ?_, h.swept.task hok hstep⟩
  refine Eq.trans ?_ (h.once n)
  unfold places
  dsimp only
  cases Dcs.taskStep_move hstep with
  | same hq hp =>
      rw [hq, hp]
      rfl
  | @completed i p result hi hq hp =>
      rw [hq, hp, Option.toList_some, List.singleton_append, List.countP_cons]
      by_cases hn : p.callback = n
      · have hcount := Table.count_update_of_true (p := fun p => p.any (·.callback = n))
          (t := s.dcs.pending) (i := i) (v := none) (by simp [hi, hn]) rfl
        simp only [hn, decide_true, if_true]
        omega
      · have hcount := Table.count_update_of_eq (p := fun p => p.any (·.callback = n))
          (t := s.dcs.pending) (i := i) (v := none) (by simp [hi, hn])
        simp only [hn, decide_false, Bool.false_eq_true, if_false]
        omega
  | @refused e result hq hp =>
      rw [hp, hq, Option.toList_some, List.singleton_append, List.countP_cons, List.countP_cons]
      dsimp only
      omega
  | @admitted e i p htask ha hq hi hc hd hp =>
      rw [hp, hq, Option.toList_none, List.nil_append, List.countP_cons]
      by_cases hn : e.callback = n
      · have hcount := Table.count_update_of_false (p := fun p => p.any (·.callback = n))
          (t := s.dcs.pending) (i := i) (v := some p) (by simp [hi]) (by simp [hc, hn])
        simp only [hn, decide_true, if_true]
        omega
      · have hcount := Table.count_update_of_eq (p := fun p => p.any (·.callback = n))
          (t := s.dcs.pending) (i := i) (v := some p) (by simp [hi, hc, hn])
        simp only [hn, decide_false, Bool.false_eq_true, if_false]
        omega

/-- **Every step.** -/
theorem Inv.step (h : s.Inv) {l : Label} (hok : KeepsAccepted s l) (hs : s.step l = some s') :
    s'.Inv := by
  have henter : (∃ c, s' = s.enter c) → s'.Inv := by
    rintro ⟨c, rfl⟩
    exact ⟨h.apart, h.once, h.swept⟩
  cases l with
  | call n => exact h.call hok hs
  | task now a timeUp => exact h.task hok hs
  | submit request | ack ack | disconnect id | cancel id | deinit =>
      exact henter (step_enter hs (by simp) (by simp))

/-- With nothing in the queue and nothing pending, every command has been completed. -/
theorem Inv.completed (h : s.Inv) (hq : s.dcs.normalQueue = []) (hp : ∀ i, s.dcs.pending i = none)
    {n : Nat} (hn : n < s.accepted) : s.completed.countP (·.1 = n) = 1 := by
  have honce := h.once n
  have hpending : Table.count (fun p => p.any (·.callback = n)) s.dcs.pending = 0 :=
    Table.count_eq_zero fun i => by rw [hp i]; rfl
  rw [if_pos hn, places, hq, hpending] at honce
  simpa using honce

/-- So at the end of the task. -/
theorem Inv.stopped (h : s.Inv) (htask : s.dcs.task = .stopped) {n : Nat} (hn : n < s.accepted) :
    s.completed.countP (·.1 = n) = 1 := by
  have hswept := h.swept
  rw [Dcs.Swept, htask] at hswept
  exact h.completed hswept.1 hswept.2 hn

end Service

end BleGateway.CommandService
