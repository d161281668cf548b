import BleGateway.Scheduler.WorkConservation
import BleGateway.Lib.RoundRobin

/-! # How often a waiting device is passed over

The round-robin cursor is shared by the priorities. A dispatch puts it behind the device that was
served, whatever the priority of the job was, and so a dispatch of another priority can take a
waiting device's place away.
-/

namespace BleGateway.Scheduler

/-! ## The cursor and the burst counter -/

/-- The variables of `g_ctrl` that only a dispatch writes. -/
def CtrlState.turn (g : CtrlState) : Nat × UInt32 := (g.rrDevice, g.highBurst)

section Turn

variable (g : CtrlState)

@[simp] theorem setSlot_turn (i : SlotIx) (s : Slot) : (g.setSlot i s).turn = g.turn := rfl
@[simp] theorem setDevice_turn (d : DevIx) (e : Device) : (g.setDevice d e).turn = g.turn := rfl
@[simp] theorem setLease_turn (i : DevIx) (l : Lease) : (g.setLease i l).turn = g.turn := rfl

theorem findOrCreateDevice_turn (id : CString) : (findOrCreateDevice g id).1.turn = g.turn := by
  unfold findOrCreateDevice
  split
  · rfl
  · split <;> rfl

theorem enqueue_turn (job : Job) (completion context : Ptr) (d : DevIx) (now : Int) :
    (enqueue g job completion context d now).1.turn = g.turn := by
  unfold enqueue
  split <;> rfl

theorem submit_turn (job : Option Job) (completion context : Ptr) (now : Int) :
    (submit g job completion context now).1.turn = g.turn := by
  cases job with
  | none => rfl
  | some job =>
      unfold submit
      dsimp only
      split_ifs
      · rfl
      · rfl
      · rfl
      · have hturn := findOrCreateDevice_turn g job.deviceId
        generalize findOrCreateDevice g job.deviceId = r at hturn ⊢
        obtain ⟨g₀, _ | d⟩ := r
        · exact hturn
        · dsimp only
          split
          · exact (enqueue_turn g₀ job completion context d now).trans hturn
          · split
            · exact hturn
            · exact (enqueue_turn g₀ job completion context d now).trans hturn
          · exact (enqueue_turn (supersede g₀ job) job completion context d now).trans hturn

theorem cancelLease_turn (i : DevIx) : (cancelLease g i).turn = g.turn := by
  unfold cancelLease
  dsimp only
  split <;> rfl

theorem cancelMatch_turn (sel : Selector) : (cancelMatch sel g).1.turn = g.turn := by
  rw [cancelMatch_fst]
  refine cancelLeases_induction (P := fun g' => g'.turn = g.turn) sel (fun g' i _ hg' => ?_) rfl
  exact (cancelLease_turn g' i).trans hg'

theorem Cancels.turn {g g' : CtrlState} (h : Cancels g g') : g'.turn = g.turn := by
  rcases h with h | ⟨sel, h⟩
  · rw [h]
  · rw [h]
    exact cancelMatch_turn g sel

theorem blockDevice_turn (id : Option CString) : (blockDevice g id).1.turn = g.turn := by
  unfold blockDevice
  split
  · rfl
  · rfl
  · rename_i id _
    have hturn := findOrCreateDevice_turn g id
    generalize findOrCreateDevice g id = r at hturn ⊢
    obtain ⟨g₀, _ | d⟩ := r <;> exact hturn

theorem unblockDevice_turn (id : Option CString) : (unblockDevice g id).1.turn = g.turn := by
  unfold unblockDevice
  split
  · rfl
  · split <;> rfl

theorem acquireLease_turn (request : Option LeaseRequest) (completion context : Ptr) :
    (acquireLease g request completion context).1.turn = g.turn := by
  unfold acquireLease
  split
  · rfl
  · split
    · rfl
    · rename_i id _
      split_ifs
      · rfl
      · rfl
      · have hturn := findOrCreateDevice_turn g id
        generalize findOrCreateDevice g id = r at hturn ⊢
        obtain ⟨g₀, _ | d⟩ := r
        · exact hturn
        · dsimp only
          split <;> exact hturn

theorem releaseLease_turn (id : UInt32) : (releaseLease g id).1.turn = g.turn := by
  rcases releaseLease_cases g id with h | ⟨i, -, h⟩ <;> rw [h]
  rfl

theorem processLease_turn (i : DevIx) : (processLease g i).1.turn = g.turn := by
  unfold processLease
  dsimp only
  split
  · rfl
  · split <;> rfl
  · rfl

theorem completeSlot_turn (i : SlotIx) : (completeSlot g i).1.turn = g.turn := by
  unfold completeSlot releaseTransport
  dsimp only
  split
  · rfl
  · split <;> rfl

theorem dispatchFailed_turn (i : SlotIx) (err : EspErr) :
    (dispatchFailed g i err).turn = g.turn := by
  unfold dispatchFailed
  dsimp only
  split <;> rfl

theorem dcsComplete_turn (k : SlotIx) (result : Option DeviceCommandResult) :
    (dcsComplete g k result).turn = g.turn := by
  unfold dcsComplete
  dsimp only
  split
  · split <;> rfl
  · rfl

end Turn

theorem afterDispatch_turn (s : Sys) (final : Bool) (n : Fin DEVICE_CTRL_MAX_INFLIGHT) :
    (s.afterDispatch final n).ctrl.turn = s.ctrl.turn := by
  obtain ⟨w, stopped, he, -⟩ := afterDispatch_eq s final n
  rw [he]
  rfl

/-! ## Dispatches -/

/-- A job handed over: its device and its priority. -/
structure Dispatch where
  device : DevIx
  priority : Priority
  deriving DecidableEq

/-- The step runs the first section of `dispatch_one` and finds room for one more command. -/
def Sys.dispatching (s : Sys) : Label → Bool
  | .worker _ _ =>
      match s.worker with
      | .running _ (.dispatch _) => decide (s.ctrl.inflight < DEVICE_CTRL_MAX_INFLIGHT)
      | _ => false
  | _ => false

/-- The dispatch of the job in slot `i`. -/
def CtrlState.dispatchOf (g : CtrlState) (i : SlotIx) : Dispatch :=
  ⟨(g.slots i).deviceIndex, (g.slots i).job.priority⟩

/-- What the step dispatches. -/
def Sys.dispatch (s : Sys) (l : Label) : Option Dispatch :=
  if s.dispatching l then (selectSlotLocked s.ctrl).map s.ctrl.dispatchOf else none

/-- The dispatches of a run, in order. -/
def dispatches : Sys → List Label → List Dispatch := machine.outputs Sys.dispatch

/-- A step hands over the selected job, or leaves the cursor and the burst counter alone. -/
inductive TurnStep (s : Sys) (l : Label) (s' : Sys) : Prop
  | same : s.dispatch l = none → s'.ctrl.turn = s.ctrl.turn → TurnStep s l s'
  | handed {i : SlotIx} : s.dispatching l = true → selectSlotLocked s.ctrl = some i →
      s.dispatch l = some (s.ctrl.dispatchOf i) → s'.ctrl = startDispatch s.ctrl i → TurnStep s l s'

theorem workerStep_turn {s s' : Sys} {now : Int} {answer : EspErr}
    (h : s.step (.worker now answer) = some s') : TurnStep s (.worker now answer) s' := by
  rcases step_worker h with ⟨hw, rfl⟩ | ⟨final, pc, hw, rfl⟩
  · exact .same (by simp [Sys.dispatch, Sys.dispatching, hw]) rfl
  · have quiet (hpc : ∀ n, pc ≠ .dispatch n)
        (hturn : (s.procStep final pc now answer).ctrl.turn = s.ctrl.turn) :
        TurnStep s (.worker now answer) (s.procStep final pc now answer) := by
      refine .same ?_ hturn
      cases pc <;> simp [Sys.dispatch, Sys.dispatching, hw] at hpc ⊢
    cases pc with
    | promote | leaseCall | completeCall | completeClear => exact quiet (by simp) rfl
    | lease i => exact quiet (by simp) (processLease_turn s.ctrl i)
    | complete i => exact quiet (by simp) (completeSlot_turn s.ctrl i)
    | submitting n i =>
        refine quiet (by simp) ?_
        unfold Sys.procStep
        dsimp only
        split
        · exact afterDispatch_turn _ final n
        · rfl
    | rejected n i err =>
        refine quiet (by simp) ?_
        exact (afterDispatch_turn _ final n).trans (dispatchFailed_turn s.ctrl i err)
    | dispatch n =>
        unfold Sys.procStep
        dsimp only
        by_cases hroom : s.ctrl.inflight < DEVICE_CTRL_MAX_INFLIGHT
        · have hdispatching : s.dispatching (.worker now answer) = true := by
            simp [Sys.dispatching, hw, hroom]
          cases hselect : selectSlotLocked s.ctrl with
          | none =>
              have hone : dispatchOne s.ctrl = (s.ctrl, none) := by
                unfold dispatchOne
                rw [if_neg (by omega), hselect]
              rw [hone]
              refine .same ?_ (afterDispatch_turn _ final n)
              rw [Sys.dispatch, if_pos hdispatching, hselect]
              rfl
          | some i =>
              have hone : dispatchOne s.ctrl = (startDispatch s.ctrl i, some i) := by
                unfold dispatchOne
                rw [if_neg (by omega), hselect]
              rw [hone]
              refine .handed hdispatching hselect ?_ rfl
              rw [Sys.dispatch, if_pos hdispatching, hselect]
              rfl
        · have hone : dispatchOne s.ctrl = (s.ctrl, none) := by
            unfold dispatchOne
            rw [if_pos (by omega)]
          rw [hone]
          refine .same ?_ (afterDispatch_turn _ final n)
          rw [Sys.dispatch, if_neg (by simp [Sys.dispatching, hw, hroom])]

/-- Only the first section of `dispatch_one` moves the cursor. -/
theorem step_turn {s s' : Sys} {l : Label} (h : s.step l = some s') : TurnStep s l s' := by
  have quiet (hl : l.isWorker = false) (hturn : s'.ctrl.turn = s.ctrl.turn) : TurnStep s l s' := by
    refine .same ?_ hturn
    cases l <;> simp [Sys.dispatch, Sys.dispatching, Label.isWorker] at hl ⊢
  cases l with
  | worker now answer => exact workerStep_turn h
  | submit job completion context now =>
      obtain ⟨jobs, ticket, rfl⟩ := step_submit h
      exact quiet rfl (submit_turn s.ctrl job completion context now)
  | acquireLease request completion context =>
      obtain ⟨requests, ticket, rfl⟩ := step_acquire h
      exact quiet rfl (acquireLease_turn s.ctrl request completion context)
  | cancelJob | cancelSource | cancelDevice =>
      obtain ⟨g, rfl, hc⟩ := step_cancels h rfl
      exact quiet rfl hc.turn
  | blockDevice id =>
      cases h
      exact quiet rfl (blockDevice_turn s.ctrl id)
  | unblockDevice id =>
      cases h
      exact quiet rfl (unblockDevice_turn s.ctrl id)
  | releaseLease id =>
      cases h
      exact quiet rfl (releaseLease_turn s.ctrl id)
  | dcsComplete k result =>
      obtain ⟨-, h⟩ := Option.ite_none_right_eq_some.mp h
      cases h
      exact quiet rfl (dcsComplete_turn s.ctrl k result)
  | deinitMark | deinitStop | deinitReturn =>
      obtain ⟨-, h⟩ := Option.ite_none_right_eq_some.mp h
      cases h
      exact quiet rfl rfl

/-! ## Who goes next -/

/-- How many devices are visited before device `d`. -/
def CtrlState.offset (g : CtrlState) (d : DevIx) : Nat :=
  RoundRobin.offset DEVICE_CTRL_MAX_DEVICES g.rrDevice d

/-- The job of slot `i` could be handed over, and the burst counter does not hold it back. -/
def Runnable (g : CtrlState) (i : SlotIx) : Prop :=
  Dispatchable g i ∧ ¬(BurstHold g ∧ (g.slots i).job.priority = .high)

/-- No runnable job has a better priority than the one of slot `i`. -/
def Leads (g : CtrlState) (i : SlotIx) : Prop :=
  Runnable g i ∧ ∀ j, Runnable g j → rankAt g i ≤ rankAt g j

instance (g : CtrlState) (i : SlotIx) : Decidable (Runnable g i) :=
  inferInstanceAs (Decidable (_ ∧ _))

instance (g : CtrlState) (i : SlotIx) : Decidable (Leads g i) := inferInstanceAs (Decidable (_ ∧ _))

section Selected

variable {g : CtrlState}

theorem deviceOrder_pairwise (g : CtrlState) :
    (deviceOrder g).Pairwise fun d e => g.offset d < g.offset e := by
  rw [deviceOrder, List.pairwise_map]
  refine List.pairwise_lt_range.imp_of_mem fun {a b} ha hb hab => ?_
  rw [List.mem_range] at ha hb
  calc g.offset (Fin.ofNat DEVICE_CTRL_MAX_DEVICES (g.rrDevice + a))
      = a := RoundRobin.offset_visited ha
    _ < b := hab
    _ = g.offset (Fin.ofNat DEVICE_CTRL_MAX_DEVICES (g.rrDevice + b)) :=
        (RoundRobin.offset_visited hb).symm

/-- The candidates stand in the order in which their devices are visited. -/
theorem candidates_offset (g : CtrlState) :
    (candidates g).Pairwise fun i j =>
      g.offset (g.slots i).deviceIndex ≤ g.offset (g.slots j).deviceIndex := by
  rw [candidates, List.pairwise_flatMap]
  constructor
  · intro d _
    apply List.Pairwise.imp_of_mem (R := fun _ _ => True)
    · intro i j hi hj _
      rw [List.mem_ite_nil_right, List.mem_filter] at hi hj
      rw [eligible_deviceIndex hi.2.2, eligible_deviceIndex hj.2.2]
    · exact List.pairwise_of_forall fun _ _ => trivial
  · refine (deviceOrder_pairwise g).imp fun hlt i hi j hj => ?_
    rw [List.mem_ite_nil_right, List.mem_filter] at hi hj
    rw [eligible_deviceIndex hi.2.2, eligible_deviceIndex hj.2.2]
    exact Nat.le_of_lt hlt

variable {i : SlotIx}

theorem mem_candidates_iff_runnable (hg : TransportInv g) :
    i ∈ candidates g ↔ Runnable g i := mem_candidates_iff hg

/-- The selected job leads. -/
theorem selectSlotLocked_leads (hg : TransportInv g) (h : selectSlotLocked g = some i) :
    Leads g i := by
  refine ⟨(mem_candidates_iff_runnable hg).mp (selectSlotLocked_mem h), fun j hj => ?_⟩
  rw [selectSlotLocked_eq_argmin] at h
  exact List.le_of_mem_argmin ((mem_candidates_iff_runnable hg).mpr hj) h

/-- Of the leading jobs the one whose device is visited first is selected. -/
theorem selectSlotLocked_offset (hg : TransportInv g) {j : SlotIx} (h : selectSlotLocked g = some i)
    (hj : Leads g j) :
    g.offset (g.slots i).deviceIndex ≤ g.offset (g.slots j).deviceIndex := by
  have hrank : rankAt g j ≤ rankAt g i := hj.2 i (selectSlotLocked_leads hg h).1
  have hmem := (mem_candidates_iff_runnable hg).mpr hj.1
  rw [selectSlotLocked_eq_argmin] at h
  rcases Selection.rel_of_argmin (candidates_offset g) h hmem hrank with heq | hle
  · rw [heq]
  · exact hle

end Selected

/-! ## Keeping one's place -/

/-- Device `d` has a job of priority `p` that could be handed over. -/
def Sys.Waits (s : Sys) (d : DevIx) (p : Priority) : Prop :=
  ∃ i, Dispatchable s.ctrl i ∧ s.ctrl.dispatchOf i = ⟨d, p⟩

instance (s : Sys) (d : DevIx) (p : Priority) : Decidable (s.Waits d p) := by
  unfold Sys.Waits
  infer_instance

/-- Where a job of another priority than `p` goes next, there is one that is not behind device
`d`. -/
def Sys.KeepsPlace (s : Sys) (l : Label) (d : DevIx) (p : Priority) : Prop :=
  s.dispatching l = true → ∀ i, Leads s.ctrl i → (s.ctrl.slots i).job.priority ≠ p →
    ∃ j, Leads s.ctrl j ∧ s.ctrl.offset (s.ctrl.slots j).deviceIndex ≤ s.ctrl.offset d

instance (s : Sys) (l : Label) (d : DevIx) (p : Priority) : Decidable (s.KeepsPlace l d p) := by
  unfold Sys.KeepsPlace
  infer_instance

/-- The dispatch is of priority `p` and to another device than `d`. -/
def Dispatch.bypasses (x : Dispatch) (d : DevIx) (p : Priority) : Bool :=
  x.priority = p && x.device ≠ d

/-- The devices that are still visited before the waiting device `d`. -/
def Sys.ahead (s : Sys) (d : DevIx) (p : Priority) : Nat :=
  if s.Waits d p then s.ctrl.offset d else 0

theorem ahead_le_offset (s : Sys) (d : DevIx) (p : Priority) : s.ahead d p ≤ s.ctrl.offset d := by
  unfold Sys.ahead
  split
  · exact Nat.le_refl _
  · exact Nat.zero_le _

section Step

variable {s s' : Sys} {l : Label} {d : DevIx} {p : Priority} {i : SlotIx} {xs : List Dispatch}

/-- A device that has just been given a command does not wait. -/
theorem not_waits_dispatched (h : s'.ctrl = startDispatch s.ctrl i)
    (hd : (s.ctrl.slots i).deviceIndex = d) : ¬ s'.Waits d p := by
  rintro ⟨j, hj, hof⟩
  have hdevice : (s'.ctrl.slots j).deviceIndex = d := congrArg Dispatch.device hof
  have hbusy : (s'.ctrl.devices d).transportInflight = true := by
    rw [h, ← hd]
    simp [startDispatch]
  have hfree := hj.2.2.1
  rw [CtrlState.deviceOf, hdevice, hbusy] at hfree
  cases hfree

/-- The selected job's device is not visited after a waiting device that keeps its place. -/
theorem offset_selected_le (hg : TransportInv s.ctrl) (hl : s.dispatching l = true)
    (hi : selectSlotLocked s.ctrl = some i) (hw : s.Waits d p) (hk : s.KeepsPlace l d p) :
    s.ctrl.offset (s.ctrl.slots i).deviceIndex ≤ s.ctrl.offset d := by
  have hlead := selectSlotLocked_leads hg hi
  by_cases hp : (s.ctrl.slots i).job.priority = p
  · -- the waiting job leads as well
    obtain ⟨j, hj, hof⟩ := hw
    have hdevice : (s.ctrl.slots j).deviceIndex = d := congrArg Dispatch.device hof
    have hpriority : (s.ctrl.slots j).job.priority = p := congrArg Dispatch.priority hof
    have hsame : rankAt s.ctrl j = rankAt s.ctrl i := by
      rw [rankAt, rankAt, hpriority, hp]
    have hleads : Leads s.ctrl j := by
      refine ⟨⟨hj, ?_⟩, ?_⟩
      · rw [hpriority, ← hp]
        exact hlead.1.2
      · rw [hsame]
        exact hlead.2
    rw [← hdevice]
    exact selectSlotLocked_offset hg hi hleads
  · obtain ⟨j, hj, hle⟩ := hk hl i hlead hp
    calc s.ctrl.offset (s.ctrl.slots i).deviceIndex
        ≤ s.ctrl.offset (s.ctrl.slots j).deviceIndex := selectSlotLocked_offset hg hi hj
      _ ≤ s.ctrl.offset d := hle

/-- **One step** that keeps the place of a waiting device brings it nearer when it passes over
it. -/
theorem ahead_step (hg : TransportInv s.ctrl) (hs : s.step l = some s') (hw : s.Waits d p)
    (hk : s.KeepsPlace l d p) :
    (s.dispatch l).toList.countP (·.bypasses d p) + s'.ahead d p ≤ s.ahead d p := by
  have hahead : s.ahead d p = s.ctrl.offset d := if_pos hw
  rw [hahead]
  cases step_turn hs with
  | same hnone hturn =>
      rw [hnone]
      have hoffset : s'.ctrl.offset d = s.ctrl.offset d := by
        unfold CtrlState.offset
        rw [show s'.ctrl.rrDevice = s.ctrl.rrDevice from congrArg Prod.fst hturn]
      calc 0 + s'.ahead d p = s'.ahead d p := Nat.zero_add _
        _ ≤ s'.ctrl.offset d := ahead_le_offset s' d p
        _ = s.ctrl.offset d := hoffset
  | @handed i hl hi hsome hctrl =>
      rw [hsome]
      have hle := offset_selected_le hg hl hi hw hk
      by_cases hd : (s.ctrl.slots i).deviceIndex = d
      · -- its own turn
        have hzero : s'.ahead d p = 0 := if_neg (not_waits_dispatched hctrl hd)
        rw [hzero]
        simp [Dispatch.bypasses, CtrlState.dispatchOf, hd]
      · have hne : s.ctrl.offset (s.ctrl.slots i).deviceIndex ≠ s.ctrl.offset d := fun heq =>
          hd (Fin.ext (RoundRobin.offset_inj (Fin.isLt _) (Fin.isLt _) heq))
        have hserved : s'.ctrl.offset d + s.ctrl.offset (s.ctrl.slots i).deviceIndex + 1 =
            s.ctrl.offset d := by
          rw [hctrl]
          exact RoundRobin.offset_served (Fin.isLt d) (Fin.isLt _) (Nat.lt_of_le_of_ne hle hne)
        have hcount : (some (s.ctrl.dispatchOf i)).toList.countP (·.bypasses d p) ≤ 1 :=
          List.countP_le_length
        have hnext := ahead_le_offset s' d p
        omega

/-- After the last `NORMAL` dispatch, if there is one, come at least `n` `HIGH` ones. -/
def Burst (n : Nat) (xs : List Dispatch) : Prop :=
  ∃ tail, tail <:+ xs ∧ (∀ x ∈ tail, x.priority ≠ .normal) ∧
    n ≤ tail.countP fun x => x.priority = .high

theorem Burst.mono {n m : Nat} (h : Burst n xs) (hm : m ≤ n) : Burst m xs := by
  obtain ⟨tail, htail, hnormal, hcount⟩ := h
  exact ⟨tail, htail, hnormal, Nat.le_trans hm hcount⟩

theorem Burst.snoc {n : Nat} (h : Burst n xs) (x : Dispatch) (hx : x.priority ≠ .normal) :
    Burst (n + if x.priority = .high then 1 else 0) (xs ++ [x]) := by
  obtain ⟨tail, ⟨front, rfl⟩, hnormal, hcount⟩ := h
  refine ⟨tail ++ [x], ⟨front, by simp⟩, fun y hy => ?_, ?_⟩
  · rcases List.mem_append.mp hy with hy | hy
    · exact hnormal y hy
    · rw [List.mem_singleton.mp hy]
      exact hx
  · rw [List.countP_append, List.countP_singleton]
    simp only [decide_eq_true_eq]
    omega

theorem Burst.zero (xs : List Dispatch) : Burst 0 xs :=
  ⟨[], List.nil_suffix, fun _ hx => absurd hx List.not_mem_nil, Nat.zero_le _⟩

/-- The burst counter counts at most the `HIGH` dispatches since the last `NORMAL` one. -/
theorem burst_step (hs : s.step l = some s') (h : Burst s.ctrl.highBurst.toNat xs) :
    Burst s'.ctrl.highBurst.toNat (xs ++ (s.dispatch l).toList) := by
  cases step_turn hs with
  | same hnone hturn =>
      rw [hnone, show s'.ctrl.highBurst = s.ctrl.highBurst from congrArg Prod.snd hturn]
      simpa using h
  | @handed i hl hi hsome hctrl =>
      have hburst : s'.ctrl.highBurst =
          nextBurst s.ctrl.highBurst (s.ctrl.dispatchOf i).priority := by
        rw [hctrl]
        rfl
      rw [hsome, hburst]
      show Burst _ (xs ++ [s.ctrl.dispatchOf i])
      generalize s.ctrl.dispatchOf i = x
      by_cases hx : x.priority = .normal
      · rw [hx]
        exact Burst.zero _
      · refine (h.snoc x hx).mono ?_
        cases hp : x.priority with
        | high =>
            show (s.ctrl.highBurst + 1).toNat ≤ _
            rw [UInt32.toNat_add]
            exact Nat.mod_le _ _
        | normal => exact absurd hp hx
        | low | background => exact Nat.le_refl _

end Step

/-! ## Runs -/

theorem burst_run {ls : List Label} {s : Sys} (h : machine.run boot ls = some s) :
    Burst s.ctrl.highBurst.toNat (dispatches boot ls) := by
  have hstep (t : Sys) (l : Label) (u : Sys) (xs : List Dispatch)
      (hI : Burst t.ctrl.highBurst.toNat xs) (_ : True) (hs : machine.step t l = some u) :
      Burst u.ctrl.highBurst.toNat (xs ++ (t.dispatch l).toList) := burst_step hs hI
  exact Machine.outputs_induction hstep (Burst.zero _) h fun _ _ _ _ _ => trivial

/-- A `NORMAL` job goes before a dispatchable `HIGH` one only where the counter holds that back. -/
theorem burstHold_of_normal {s : Sys} (hg : TransportInv s.ctrl) {l : Label} {x : Dispatch}
    (hx : s.dispatch l = some x) (hnormal : x.priority = .normal) {d : DevIx}
    (hw : s.Waits d .high) : BurstHold s.ctrl := by
  unfold Sys.dispatch at hx
  split at hx
  · obtain ⟨i, hi, rfl⟩ := Option.map_eq_some_iff.mp hx
    obtain ⟨j, hj, hof⟩ := hw
    have hpriority : (s.ctrl.slots j).job.priority = .high := congrArg Dispatch.priority hof
    by_contra hhold
    have hle := (selectSlotLocked_leads hg hi).2 j ⟨hj, fun h => hhold h.1⟩
    have hi' : (s.ctrl.slots i).job.priority = .normal := hnormal
    rw [rankAt, rankAt, hi', hpriority] at hle
    exact absurd hle (by decide)
  · cases hx

/-- **Bounded bypass.** While device `d` has a dispatchable job of priority `p`, and no dispatch of
another priority passes over it, fewer jobs of that priority go to other devices than the device
table has entries; and a `NORMAL` job goes before a dispatchable `HIGH` one only after a burst of
`HIGH` dispatches. -/
theorem bounded_bypass {ls ks : List Label} {s t : Sys} (hs : machine.run boot ls = some s)
    (h : machine.run s ks = some t) :
    (∀ d p, (∀ js l u, js ++ [l] <+: ks → machine.run s js = some u →
        u.Waits d p ∧ u.KeepsPlace l d p) →
      (dispatches s ks).countP (·.bypasses d p) < DEVICE_CTRL_MAX_DEVICES) ∧
    ∀ l x d, s.dispatch l = some x → x.priority = .normal → s.Waits d .high →
      Burst DEVICE_CTRL_HIGH_BURST_MAX.toNat (dispatches boot ls) := by
  have hreach : machine.Reachable s := Machine.reachable_of_run (.init rfl) hs
  have hg := (tables_inv hreach).transport
  refine ⟨fun d p hall => ?_, fun l x d hx hnormal hw => ?_⟩
  · have hstep (u : Sys) (l : Label) (v : Sys) (xs : List Dispatch)
        (hI : machine.Reachable u ∧
          xs.countP (·.bypasses d p) + u.ahead d p ≤ s.ahead d p)
        (hok : u.Waits d p ∧ u.KeepsPlace l d p) (hs : machine.step u l = some v) :
        machine.Reachable v ∧
          (xs ++ (u.dispatch l).toList).countP (·.bypasses d p) + v.ahead d p ≤ s.ahead d p := by
      have hnext := ahead_step (tables_inv hI.1).transport hs hok.1 hok.2
      refine ⟨hI.1.step hs, ?_⟩
      rw [List.countP_append]
      omega
    obtain ⟨-, hcount⟩ := Machine.outputs_induction hstep ⟨hreach, by simp⟩ h hall
    calc (dispatches s ks).countP (·.bypasses d p)
        ≤ s.ahead d p := Nat.le_of_add_right_le hcount
      _ ≤ s.ctrl.offset d := ahead_le_offset s d p
      _ < DEVICE_CTRL_MAX_DEVICES := RoundRobin.offset_lt (by decide)
  · have hhold := burstHold_of_normal hg hx hnormal hw
    exact (burst_run hs).mono (UInt32.le_iff_toNat_le.mp hhold.1)

def submitAll (jobs : List (UInt8 × Priority)) : List Label :=
  jobs.map fun b => .submit (some (jobOn b.1 b.2)) 1 0 0

/-- Two devices have a job each, and the worker has queued both. -/
def twoQueued : List Label := submitAll [(1, .low), (2, .low)] ++ workerSteps 2

/-- The `NORMAL` job is unblocked after the burst. -/
def burstEnd : List Label := burstRun ++ [.unblockDevice (some [9])]

set_option maxRecDepth 100000 in
theorem bounded_bypass_twoQueued :
    (∃ s, machine.run boot twoQueued = some s ∧ dispatches s (workerSteps 43) =
        [⟨0, .low⟩, ⟨1, .low⟩] ∧
      (dispatches s (workerSteps 43)).countP (·.bypasses 1 .low) < DEVICE_CTRL_MAX_DEVICES) ∧
    ∃ s x, machine.run boot burstEnd = some s ∧ s.dispatch (.worker 0 .ok) = some x ∧
      x.priority = .normal ∧ s.Waits 1 .high ∧
      Burst DEVICE_CTRL_HIGH_BURST_MAX.toNat (dispatches boot burstEnd) := by
  constructor
  · have hrun : ((machine.run boot twoQueued).map fun s => decide ((machine.runWhen
        (fun u l => u.Waits 1 .low ∧ u.KeepsPlace l 1 .low) s (workerSteps 43)).isSome = true ∧
        dispatches s (workerSteps 43) = [⟨0, .low⟩, ⟨1, .low⟩])) = some true := by
      decide +kernel
    obtain ⟨s, hs, hp⟩ := Option.map_eq_some_iff.mp hrun
    obtain ⟨hsome, hlist⟩ := of_decide_eq_true hp
    obtain ⟨t, ht⟩ := Option.isSome_iff_exists.mp hsome
    obtain ⟨h, hall⟩ := Machine.run_of_runWhen ht
    exact ⟨s, hs, hlist, (bounded_bypass hs h).1 1 .low hall⟩
  · have hrun : ((machine.run boot burstEnd).map fun s => decide (s.Waits 1 .high ∧
        ((s.dispatch (.worker 0 .ok)).any fun x => decide (x.priority = .normal)) = true)) =
        some true := by
      decide +kernel
    obtain ⟨s, hs, hp⟩ := Option.map_eq_some_iff.mp hrun
    obtain ⟨hw, hany⟩ := of_decide_eq_true hp
    obtain ⟨x, hx, hnormal⟩ := (Option.any_eq_true _ _).mp hany
    have hnormal := of_decide_eq_true hnormal
    have hnil : machine.run s [] = some s := rfl
    exact ⟨s, x, hs, hx, hnormal, hw, (bounded_bypass hs hnil).2 _ x 1 hx hnormal hw⟩

/-! ## A device that is passed over -/

/-- Three devices have a `LOW` job each, and the one in front of them a `HIGH` job. -/
def passJobs : List Label := submitAll [(2, .high), (3, .low), (4, .low), (5, .low)]

/-- The four commands of the last pass complete, and the worker makes another pass. -/
def nextRound (slots : List SlotIx) : List Label :=
  slots.map (fun k => .dcsComplete k none) ++ passJobs ++ workerSteps 58

/-- The first device in the table waits with a `LOW` job. -/
def queuedFirst : List Label := submitAll [(1, .low)] ++ passJobs ++ workerSteps 2

def starvingRun : List Label :=
  workerSteps 48 ++ nextRound [1, 2, 3, 4] ++ nextRound [5, 6, 7, 8] ++ nextRound [1, 2, 3, 4] ++
    nextRound [5, 6, 7, 8] ++ nextRound [1, 2, 3, 4]

set_option maxRecDepth 100000 in
/-- In each pass the `HIGH` job puts the cursor behind the waiting device: eighteen `LOW` jobs of
the other devices go before its own. -/
theorem starved : ∃ s t, machine.Reachable s ∧ machine.run s starvingRun = some t ∧
    (∀ js l u, js ++ [l] <+: starvingRun → machine.run s js = some u → u.Waits 0 .low) ∧
    (dispatches s starvingRun).countP (·.bypasses 0 .low) = 18 := by
  have hrun : ((machine.run boot queuedFirst).map fun s => decide ((machine.runWhen
      (fun u _ => u.Waits 0 .low) s starvingRun).isSome = true ∧
      (dispatches s starvingRun).countP (·.bypasses 0 .low) = 18)) = some true := by
    decide +kernel
  obtain ⟨s, hs, hp⟩ := Machine.exists_reachable_of_run rfl hrun
  obtain ⟨hsome, hcount⟩ := of_decide_eq_true hp
  obtain ⟨t, ht⟩ := Option.isSome_iff_exists.mp hsome
  obtain ⟨h, hall⟩ := Machine.run_of_runWhen ht
  exact ⟨s, t, hs, h, hall, hcount⟩

end BleGateway.Scheduler
