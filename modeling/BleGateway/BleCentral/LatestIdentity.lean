import BleGateway.BleCentral.Identity

/-! # No identity update is lost

A newer submission may come while the worker writes the older one. The generation of the slot tells
the two apart: a slot is marked clean only by the write of the identity it holds. The last identity
that the worker writes for a device is therefore the last one that was accepted for it.
-/

namespace BleGateway.BleCentral.Identity

open Arrivals (lastValue lastValue_append_last)
open DeviceStore (BleIdentity Entry StoreResult)

/-! ## Reading the log -/

def LogEntry.accepted? : LogEntry → Option (DeviceId × BleIdentity)
  | .accepted id identity => some (id, identity)
  | .wrote .. => none

def LogEntry.wrote? : LogEntry → Option (DeviceId × (BleIdentity × StoreResult))
  | .accepted .. => none
  | .wrote id identity result => some (id, (identity, result))

def LogEntry.persisted? : LogEntry → Option (DeviceId × BleIdentity)
  | .wrote id identity .ok => some (id, identity)
  | _ => none

/-- The submission that was accepted last for the device. -/
def lastAccepted (log : List LogEntry) (id : DeviceId) : Option BleIdentity :=
  lastValue (log.filterMap LogEntry.accepted?) id

/-- What the worker tried last for the device, and the answer. -/
def lastWrote (log : List LogEntry) (id : DeviceId) : Option (BleIdentity × StoreResult) :=
  lastValue (log.filterMap LogEntry.wrote?) id

/-- The identity that was persisted last for the device. -/
def lastPersisted (log : List LogEntry) (id : DeviceId) : Option BleIdentity :=
  lastValue (log.filterMap LogEntry.persisted?) id

variable {log : List LogEntry} {id id' : DeviceId} {identity : BleIdentity} {result : StoreResult}

theorem lastAccepted_accepted : lastAccepted (log ++ [.accepted id identity]) id' =
    if id = id' then some identity else lastAccepted log id' := by
  rw [lastAccepted, List.filterMap_append]
  exact lastValue_append_last ..

theorem lastAccepted_wrote :
    lastAccepted (log ++ [.wrote id identity result]) = lastAccepted log := by
  funext id'
  rw [lastAccepted, List.filterMap_append]
  exact congrArg (lastValue · id') (List.append_nil _)

theorem lastWrote_wrote : lastWrote (log ++ [.wrote id identity result]) id' =
    if id = id' then some (identity, result) else lastWrote log id' := by
  rw [lastWrote, List.filterMap_append]
  exact lastValue_append_last ..

theorem lastWrote_accepted : lastWrote (log ++ [.accepted id identity]) = lastWrote log := by
  funext id'
  rw [lastWrote, List.filterMap_append]
  exact congrArg (lastValue · id') (List.append_nil _)

/-- What was written last with success was persisted last. -/
theorem lastPersisted_of_lastWrote (log : List LogEntry) (id : DeviceId) :
    (lastWrote log id = none → lastPersisted log id = none) ∧
      ∀ identity, lastWrote log id = some (identity, .ok) →
        lastPersisted log id = some identity := by
  induction log using List.reverseRecOn with
  | nil => exact ⟨fun _ => rfl, fun identity h => by cases h⟩
  | append_singleton log e ih =>
      have hkept (he : e.persisted? = none) :
          lastPersisted (log ++ [e]) id = lastPersisted log id := by
        rw [lastPersisted, List.filterMap_append, List.filterMap_cons_none he]
        exact congrArg (lastValue · id) (List.append_nil _)
      cases e with
      | accepted id' identity' =>
          rw [lastWrote_accepted, hkept rfl]
          exact ih
      | wrote id' identity' result =>
          rw [lastWrote_wrote]
          have hok : lastPersisted (log ++ [.wrote id' identity' .ok]) id =
              if id' = id then some identity' else lastPersisted log id := by
            rw [lastPersisted, List.filterMap_append]
            exact lastValue_append_last ..
          by_cases hid : id' = id
          · rw [if_pos hid]
            refine ⟨(fun h => by cases h), fun identity h => ?_⟩
            cases h
            rw [hok, if_pos hid]
          · rw [if_neg hid]
            have hsame : lastPersisted (log ++ [.wrote id' identity' result]) id =
                lastPersisted log id := by
              cases result with
              | ok => rw [hok, if_neg hid]
              | _ => exact hkept rfl
            rw [hsame]
            exact ih

namespace Persistence

/-! ## The invariant -/

/-- No slot is dirty, and the worker writes nothing. -/
def Idle (w : Persistence) : Prop :=
  (∀ i, (w.pending i).dirty = false) ∧ w.phase.snapshot? = none

instance (w : Persistence) : Decidable w.Idle := by
  unfold Idle
  infer_instance

/-- The last write for the device was of the identity, and a retry would change nothing. -/
def Settled (w : Persistence) (id : DeviceId) (identity : BleIdentity) : Prop :=
  ∃ result, lastWrote w.log id = some (identity, result) ∧ terminal result = true

/-- The slots, the log and the snapshot of the worker fit together. -/
structure Tracks (w : Persistence) : Prop where
  counted : ∀ i, (w.pending i).dirty = true → 0 < (w.pending i).generation
  distinct : Directory.Distinct Pending.used Pending.deviceId w.pending
  latest : ∀ i, (w.pending i).used = true →
    lastAccepted w.log (w.pending i).deviceId = some (w.pending i).identity
  known : ∀ id, lastAccepted w.log id ≠ none →
    ∃ i, (w.pending i).used = true ∧ (w.pending i).deviceId = id
  settled : ∀ i, (w.pending i).used = true → (w.pending i).dirty = false →
    w.Settled (w.pending i).deviceId (w.pending i).identity
  silent : ∀ id, lastAccepted w.log id = none → lastWrote w.log id = none
  held : ∀ snapshot, w.phase.snapshot? = some snapshot → ∃ i, (w.pending i).dirty = true ∧
    (w.pending i).deviceId = snapshot.deviceId ∧ snapshot.generation ≤ (w.pending i).generation ∧
    ((w.pending i).generation = snapshot.generation → (w.pending i).identity = snapshot.identity)
  wrote : ∀ snapshot, w.phase = .completing snapshot → w.Settled snapshot.deviceId snapshot.identity

variable {w w' : Persistence}

theorem used_of_dirty {p : Pending} (h : p.dirty = true) : p.used = true := by
  rw [Pending.used, h, Bool.true_or]

/-- The slots that are used are those that were claimed. -/
theorem Tracks.claimed (h : w.Tracks) (i : Slot) :
    (w.pending i).claimed = (w.pending i).used := by
  have hpos : 0 < (w.pending i).generation ↔ (w.pending i).generation ≠ 0 := by
    rw [UInt32.lt_iff_toNat_lt, ne_eq, ← UInt32.toNat_inj]
    exact Nat.pos_iff_ne_zero
  rw [Pending.claimed, Pending.used]
  cases hdirty : (w.pending i).dirty with
  | true => simpa [hpos] using h.counted i hdirty
  | false => simp [hpos]

/-! ## The slot of a device -/

/-- The slot is that of the device, or nobody's while the device has none. -/
theorem Tracks.slotFor_cases (h : w.Tracks) {id : DeviceId} {i : Slot}
    (hi : w.slotFor id = some i) :
    ((w.pending i).used = true ∧ (w.pending i).deviceId = id) ∨
      ((w.pending i).used = false ∧
        ∀ j, (w.pending j).used = true → (w.pending j).deviceId ≠ id) := by
  rw [slotFor] at hi
  cases hlook : Directory.lookup Pending.used Pending.deviceId w.pending id with
  | some j =>
      rw [hlook] at hi
      cases hi
      exact Or.inl (Directory.lookup_spec hlook)
  | none =>
      rw [hlook] at hi
      refine Or.inr ⟨?_, Directory.lookup_eq_none.mp hlook⟩
      rw [← h.claimed i]
      exact Directory.vacant_spec hi

/-- The generation of the slot does not come back to zero. -/
def Counts (w : Persistence) : Act → Prop
  | .submit id _ => ∀ i, w.slotFor id = some i → (w.pending i).generation + 1 ≠ 0
  | _ => True

instance (w : Persistence) (l : Act) : Decidable (w.Counts l) := by
  cases l <;> unfold Counts <;> infer_instance

theorem lt_add_one {n : UInt32} (h : n + 1 ≠ 0) : n < n + 1 := by
  have hne : (n + 1).toNat ≠ 0 := fun hzero => h (UInt32.toNat_inj.mp hzero)
  have hn := n.toNat_lt
  rw [UInt32.lt_iff_toNat_lt]
  rw [UInt32.toNat_add] at hne ⊢
  have hone : (1 : UInt32).toNat = 1 := rfl
  rw [hone] at hne ⊢
  omega

/-- What an accepted submission leaves. -/
theorem Tracks.submit_cases (h : w.Tracks) (id : DeviceId) (identity : BleIdentity) :
    w.submit id identity = w ∨ ∃ i, w.slotFor id = some i ∧ w.submit id identity = { w with
      pending := Function.update w.pending i
        { deviceId := id, identity, generation := (w.pending i).generation + 1, dirty := true }
      owed := w.owed + 1
      log := w.log ++ [.accepted id identity] } := by
  rw [submit]
  split
  · exact Or.inl rfl
  · split
    · exact Or.inl rfl
    · rename_i i hi
      refine Or.inr ⟨i, hi, ?_⟩
      -- the slot carries the id of the device
      have hid : (if (w.pending i).generation = 0 then { w.pending i with deviceId := id }
          else w.pending i).deviceId = id := by
        split
        · rfl
        · rename_i hgeneration
          rcases h.slotFor_cases hi with hold | hfree
          · exact hold.2
          · have hclaimed := (h.claimed i).trans hfree.1
            exact absurd (of_decide_eq_false hclaimed) (fun hnot => hnot hgeneration)
      have hgeneration : (if (w.pending i).generation = 0 then { w.pending i with deviceId := id }
          else w.pending i).generation = (w.pending i).generation := by
        split <;> rfl
      dsimp only
      rw [hid, hgeneration]

theorem Tracks.submit (h : w.Tracks) {id : DeviceId} {identity : BleIdentity}
    (hcounts : w.Counts (.submit id identity)) : (w.submit id identity).Tracks := by
  rcases h.submit_cases id identity with hsame | ⟨i, hi, heq⟩
  · rw [hsame]
    exact h
  · rw [heq]
    have hnew : (w.pending i).generation < (w.pending i).generation + 1 :=
      lt_add_one (hcounts i hi)
    -- no other slot is that of the device
    have hother {j : Slot} (hji : j ≠ i) (hj : (w.pending j).used = true) :
        (w.pending j).deviceId ≠ id := by
      rcases h.slotFor_cases hi with hold | hfree
      · exact fun hid => hji (h.distinct j i hj hold.1 (hid.trans hold.2.symm))
      · exact hfree.2 j hj
    have hself (hused : (w.pending i).used = true) : (w.pending i).deviceId = id := by
      rcases h.slotFor_cases hi with hold | hfree
      · exact hold.2
      · rw [hfree.1] at hused
        cases hused
    refine
      { counted := fun j hj => ?_
        distinct := h.distinct.update fun _ j hji hj => hother hji hj
        latest := fun j hj => ?_
        known := fun id' hid' => ?_
        settled := fun j hj hclean => ?_
        silent := fun id' hid' => ?_
        held := fun snapshot hsnapshot => ?_
        wrote := fun snapshot hphase => ?_ }
    · dsimp only at hj ⊢
      by_cases hji : j = i
      · rw [hji, Function.update_self]
        rw [UInt32.lt_iff_toNat_lt] at hnew ⊢
        exact Nat.lt_of_le_of_lt (Nat.zero_le _) hnew
      · rw [Function.update_of_ne hji] at hj ⊢
        exact h.counted j hj
    · dsimp only at hj ⊢
      rw [lastAccepted_accepted]
      by_cases hji : j = i
      · rw [hji, Function.update_self, if_pos rfl]
      · rw [Function.update_of_ne hji] at hj ⊢
        rw [if_neg (hother hji hj).symm]
        exact h.latest j hj
    · dsimp only at hid' ⊢
      rw [lastAccepted_accepted] at hid'
      by_cases hid : id = id'
      · refine ⟨i, ?_⟩
        rw [Function.update_self]
        exact ⟨used_of_dirty rfl, hid⟩
      · rw [if_neg hid] at hid'
        obtain ⟨j, hj, rfl⟩ := h.known id' hid'
        have hji : j ≠ i := by
          rintro rfl
          exact hid (hself hj).symm
        refine ⟨j, ?_⟩
        rw [Function.update_of_ne hji]
        exact ⟨hj, rfl⟩
    · dsimp only at hj hclean ⊢
      rw [Settled, lastWrote_accepted]
      by_cases hji : j = i
      · rw [hji, Function.update_self] at hclean
        cases hclean
      · rw [Function.update_of_ne hji] at hj hclean ⊢
        exact h.settled j hj hclean
    · rw [lastWrote_accepted]
      rw [lastAccepted_accepted] at hid'
      split at hid'
      · cases hid'
      · exact h.silent id' hid'
    · obtain ⟨j, hdirty, hid, hle, heq'⟩ := h.held snapshot hsnapshot
      refine ⟨j, ?_⟩
      dsimp only
      by_cases hji : j = i
      · -- the newer submission does not carry the generation of the snapshot
        rw [hji] at hdirty hid hle
        rw [hji, Function.update_self]
        have hlt : snapshot.generation < (w.pending i).generation + 1 :=
          UInt32.lt_of_le_of_lt hle hnew
        refine ⟨rfl, (hself (used_of_dirty hdirty)).symm.trans hid, UInt32.le_of_lt hlt,
          fun hsame => ?_⟩
        rw [show (w.pending i).generation + 1 = snapshot.generation from hsame] at hlt
        exact absurd hlt (UInt32.lt_irrefl _)
      · rw [Function.update_of_ne hji]
        exact ⟨hdirty, hid, hle, heq'⟩
    · rw [Settled, lastWrote_accepted]
      exact h.wrote snapshot hphase

/-! ## The worker -/

/-- The phases before and after a round hold no snapshot. -/
theorem Tracks.resume (h : w.Tracks) {phase : Phase} (hphase : phase.snapshot? = none)
    (retry notified : Bool) : { w with phase, retry, notified }.Tracks where
  counted := h.counted
  distinct := h.distinct
  latest := h.latest
  known := h.known
  settled := h.settled
  silent := h.silent
  held snapshot hsnapshot := by cases hphase.symm.trans hsnapshot
  wrote snapshot hcompleting := by
    rw [show phase = .completing snapshot from hcompleting] at hphase
    cases hphase

theorem Tracks.take (h : w.Tracks) {snapshot : Pending} (htake : w.takeNext = some snapshot) :
    { w with phase := .writing snapshot }.Tracks := by
  obtain ⟨i, hi, rfl⟩ := Option.map_eq_some_iff.mp htake
  have hdirty : (w.pending i).dirty = true := (Fin.find?_eq_some_iff.mp hi).1
  refine
    { counted := h.counted, distinct := h.distinct, latest := h.latest, known := h.known,
      settled := h.settled, silent := h.silent, held := fun snapshot hsnapshot => ?_,
      wrote := fun snapshot hphase => by cases hphase }
  cases hsnapshot
  exact ⟨i, hdirty, rfl, UInt32.le_refl _, fun _ => rfl⟩

/-- An answer of the store concerns the slot that is being written, which is still dirty. -/
theorem Tracks.answered (h : w.Tracks) {snapshot : Pending} (hphase : w.phase = .writing snapshot)
    (r : StoreResult × List Entry) : (w.wrote snapshot r).Tracks := by
  have hsnapshot : w.phase.snapshot? = some snapshot := by
    rw [hphase]
    rfl
  obtain ⟨i, hdirty, hid, hle, hsame⟩ := h.held snapshot hsnapshot
  have hused := used_of_dirty hdirty
  have hother {id : DeviceId} (hne : snapshot.deviceId ≠ id) :
      lastWrote (w.log ++ [.wrote snapshot.deviceId snapshot.identity r.1]) id =
        lastWrote w.log id := by
    rw [lastWrote_wrote, if_neg hne]
  have hlogged (phase : Phase) (retry : Bool)
      (hheld : ∀ snapshot', phase.snapshot? = some snapshot' → snapshot' = snapshot)
      (hwrote : ∀ snapshot', phase = .completing snapshot' → terminal r.1 = true) :
      { w with
        phase
        retry
        entries := r.2
        log := w.log ++ [LogEntry.wrote snapshot.deviceId snapshot.identity r.1] }.Tracks := by
    refine
      { counted := h.counted
        distinct := h.distinct
        latest := ?_
        known := ?_
        settled := fun j hj hclean => ?_
        silent := fun id hnone => ?_
        held := fun snapshot' hsnapshot' => ?_
        wrote := fun snapshot' hphase' => ?_ }
    · rw [lastAccepted_wrote]
      exact h.latest
    · rw [lastAccepted_wrote]
      exact h.known
    · rw [Settled, hother fun heq => ?_]
      · exact h.settled j hj hclean
      · rw [h.distinct i j hused hj (hid.trans heq)] at hdirty
        cases hdirty.symm.trans hclean
    · dsimp only at hnone ⊢
      rw [lastAccepted_wrote] at hnone
      rw [hother fun heq => ?_]
      · exact h.silent id hnone
      · rw [← heq, ← hid, h.latest i hused] at hnone
        cases hnone
    · rw [hheld snapshot' hsnapshot']
      exact ⟨i, hdirty, hid, hle, hsame⟩
    · have hsnapshot' := hheld snapshot' (by rw [show phase = _ from hphase']; rfl)
      rw [hsnapshot']
      exact ⟨r.1, by rw [lastWrote_wrote, if_pos rfl], hwrote snapshot' hphase'⟩
  rw [Persistence.wrote]
  split
  · rename_i hterminal
    exact hlogged (.completing snapshot) w.retry (fun _ heq => (Option.some.inj heq).symm)
      fun _ _ => hterminal
  · exact hlogged .waiting true (fun _ heq => by cases heq) fun _ heq => by cases heq

/-- What the end of a write does to the slots. -/
theorem complete_cases (w : Persistence) (snapshot : Pending) : w.complete snapshot true = w ∨
    ∃ i, (w.pending i).dirty = true ∧ (w.pending i).generation = snapshot.generation ∧
      (w.pending i).deviceId = snapshot.deviceId ∧ w.complete snapshot true = { w with
        pending := Function.update w.pending i { w.pending i with dirty := false } } := by
  unfold Persistence.complete
  generalize hfind : (Fin.find? fun i => (w.pending i).dirty &&
    decide ((w.pending i).generation = snapshot.generation) &&
    decide ((w.pending i).deviceId = snapshot.deviceId)) = found
  cases found with
  | none => exact Or.inl rfl
  | some i =>
      obtain ⟨⟨hdirty, hgeneration⟩, hid⟩ : ((w.pending i).dirty = true ∧
          (w.pending i).generation = snapshot.generation) ∧
          (w.pending i).deviceId = snapshot.deviceId := by
        simpa using (Fin.find?_eq_some_iff.mp hfind).1
      exact Or.inr ⟨i, hdirty, hgeneration, hid, rfl⟩

/-- A slot that holds what was written is marked clean. -/
theorem Tracks.clean (h : w.Tracks) {i : Slot} (hdirty : (w.pending i).dirty = true)
    (hsettled : w.Settled (w.pending i).deviceId (w.pending i).identity) :
    { w with
      phase := .taking
      pending := Function.update w.pending i { w.pending i with dirty := false } }.Tracks := by
  have hused := used_of_dirty hdirty
  have hstill : ({ w.pending i with dirty := false } : Pending).used = true := by
    have hpos := h.counted i hdirty
    rw [Pending.used, decide_eq_true hpos, Bool.or_true]
  refine
    { counted := fun j hj => ?_
      distinct := h.distinct.update_same (fun _ => hused) rfl
      latest := fun j hj => ?_
      known := fun id hid => ?_
      settled := fun j hj hclean => ?_
      silent := h.silent
      held := fun snapshot hsnapshot => by cases hsnapshot
      wrote := fun snapshot hphase => by cases hphase }
  · dsimp only at hj ⊢
    by_cases hji : j = i
    · rw [hji, Function.update_self] at hj
      cases hj
    · rw [Function.update_of_ne hji] at hj ⊢
      exact h.counted j hj
  · dsimp only at hj ⊢
    by_cases hji : j = i
    · rw [hji, Function.update_self]
      exact h.latest i hused
    · rw [Function.update_of_ne hji] at hj ⊢
      exact h.latest j hj
  · obtain ⟨j, hj, rfl⟩ := h.known id hid
    refine ⟨j, ?_⟩
    dsimp only
    by_cases hji : j = i
    · rw [hji, Function.update_self]
      exact ⟨hstill, rfl⟩
    · rw [Function.update_of_ne hji]
      exact ⟨hj, rfl⟩
  · dsimp only at hj hclean ⊢
    by_cases hji : j = i
    · rw [hji, Function.update_self]
      exact hsettled
    · rw [Function.update_of_ne hji] at hj hclean ⊢
      exact h.settled j hj hclean

theorem Tracks.complete (h : w.Tracks) {snapshot : Pending}
    (hphase : w.phase = .completing snapshot) :
    { w.complete snapshot true with phase := .taking }.Tracks := by
  have hwrote := h.wrote snapshot hphase
  have hsnapshot : w.phase.snapshot? = some snapshot := by
    rw [hphase]
    rfl
  obtain ⟨k, hdirty', hid', -, hsame⟩ := h.held snapshot hsnapshot
  rcases w.complete_cases snapshot with hkept | ⟨i, hdirty, hgeneration, hid, heq⟩
  · rw [hkept]
    exact h.resume rfl w.retry w.notified
  · obtain rfl : k = i := h.distinct k i (used_of_dirty hdirty') (used_of_dirty hdirty)
      (hid'.trans hid.symm)
    rw [heq]
    refine h.clean hdirty ?_
    rw [hid, hsame hgeneration]
    exact hwrote

/-! ## Runs -/

theorem Tracks.init : ({} : Persistence).Tracks where
  counted _ h := by cases h
  distinct _ _ h := by cases h
  latest _ h := by cases h
  known _ h := absurd rfl h
  settled _ h := by cases h
  silent _ _ := rfl
  held _ h := by cases h
  wrote _ h := by cases h

theorem Tracks.step (h : w.Tracks) {l : Act} (hcounts : w.Counts l) (hstep : w.step l = some w') :
    w'.Tracks := by
  -- the fields that the invariant does not speak of
  have hsame {w' : Persistence} (hpending : w'.pending = w.pending) (hlog : w'.log = w.log)
      (hphase : w'.phase = w.phase) : w'.Tracks := by
    obtain ⟨task, pending, phase, retry, notified, owed, entries, log⟩ := w'
    obtain rfl : pending = w.pending := hpending
    obtain rfl : log = w.log := hlog
    obtain rfl : phase = w.phase := hphase
    exact ⟨h.counted, h.distinct, h.latest, h.known, h.settled, h.silent, h.held, h.wrote⟩
  cases l with
  | init created =>
      cases hstep
      split <;> exact hsame rfl rfl rfl
  | submit id identity =>
      cases hstep
      exact h.submit hcounts
  | notify =>
      obtain ⟨-, ⟨⟩⟩ := Option.ite_none_left_eq_some.mp hstep
      exact hsame rfl rfl rfl
  | wake timeout =>
      obtain ⟨-, hstep⟩ := Option.ite_none_left_eq_some.mp hstep
      split at hstep
      · cases hstep
        exact h.resume rfl w.retry false
      · split at hstep
        · cases hstep
          exact h.resume rfl w.retry w.notified
        · cases hstep
  | take =>
      unfold Persistence.step at hstep
      dsimp only at hstep
      generalize htake : w.takeNext = found at hstep
      generalize w.phase = phase at hstep
      cases phase with
      | taking =>
          cases found with
          | some snapshot =>
              cases hstep
              exact h.take htake
          | none =>
              cases hstep
              exact h.resume rfl false w.notified
      | _ => cases hstep
  | write locked initialized nvs =>
      unfold Persistence.step at hstep
      dsimp only at hstep
      generalize hphase : w.phase = phase at hstep
      cases phase with
      | writing snapshot =>
          cases hstep
          exact h.answered hphase _
      | _ => cases hstep
  | complete =>
      unfold Persistence.step at hstep
      dsimp only at hstep
      generalize hphase : w.phase = phase at hstep
      cases phase with
      | completing snapshot =>
          cases hstep
          exact h.complete hphase
      | _ => cases hstep
  | store entries =>
      cases hstep
      exact hsame rfl rfl rfl

/-- When nothing is dirty or in progress, the worker's last write for each device was that of the
submission accepted last, with an answer after which it does not try again. -/
def LatestWritten (w : Persistence) : Prop := w.Idle → ∀ id,
  match lastAccepted w.log id with
  | none => lastPersisted w.log id = none
  | some identity => ∃ result, lastWrote w.log id = some (identity, result) ∧
      terminal result = true ∧ (result = .ok → lastPersisted w.log id = some identity)

/-- **No update is lost** in a run in which no generation comes back to zero. -/
theorem latest_written (h : machine.ReachableWhen Counts w) : w.LatestWritten := by
  have htracks : w.Tracks := Machine.ReachableWhen.invariant (I := Tracks)
    (fun w hw => by rw [hw]; exact .init) (fun w l w' hI hok hstep => hI.step hok hstep) h
  intro hidle id
  obtain ⟨hnone, hsome⟩ := lastPersisted_of_lastWrote w.log id
  cases haccepted : lastAccepted w.log id with
  | none => exact hnone (htracks.silent id haccepted)
  | some identity =>
      obtain ⟨i, hi, rfl⟩ := htracks.known id (by rw [haccepted]; simp)
      obtain rfl := Option.some.inj ((htracks.latest i hi).symm.trans haccepted)
      obtain ⟨result, hwrote, hterminal⟩ := htracks.settled i hi (hidle.1 i)
      exact ⟨result, hwrote, hterminal, fun hok => hsome _ (hok ▸ hwrote)⟩

/-! ## Two identities for one device, and one for two -/

def lamp : DeviceId := strlcpy _ [1]

def fan : DeviceId := strlcpy _ [2]

def address (b : UInt8) : BleIdentity := ⟨Vector.replicate 6 b, 0⟩

/-- The lamp and the fan are known to the store, and the worker is started. -/
def startRun : List Act := [.store [{ deviceId := lamp }, { deviceId := fan }], .init true]

/-- The worker writes a dirty slot. -/
def writeRun : List Act := [.write true true .ok, .complete, .take]

/-- The lamp comes back with another identity while the first one is being written. -/
def newerRun : List Act :=
  startRun ++ [.submit lamp (address 1), .notify, .wake false, .take, .submit lamp (address 2)] ++
    writeRun ++ writeRun

theorem latest_written_newerRun : ∃ w : Persistence, w.Idle ∧
    lastPersisted w.log lamp = some (address 2) ∧ w.LatestWritten := by
  have hrun : ((machine.runWhen Counts {} newerRun).map fun w =>
      decide (w.Idle ∧ lastPersisted w.log lamp = some (address 2))) = some true := by
    decide +kernel
  obtain ⟨w, hw, hp⟩ := Machine.exists_reachableWhen_of_run (M := machine) rfl hrun
  obtain ⟨hidle, hpersisted⟩ := of_decide_eq_true hp
  exact ⟨w, hidle, hpersisted, latest_written hw⟩

/-- The fan has the identity that is stored for the lamp. -/
def takenRun : List Act :=
  startRun ++ [.submit lamp (address 1), .submit fan (address 1), .notify, .wake false, .take] ++
    writeRun ++ writeRun

/-- What was accepted last has been persisted. -/
def LatestPersisted (w : Persistence) : Prop :=
  w.Idle → ∀ id, lastPersisted w.log id = lastAccepted w.log id

/-! ## A generation that comes back to zero -/

/-- The same state with more notifications owed and a longer history. -/
def behind (w : Persistence) (owed : Nat) (log : List LogEntry) : Persistence :=
  { w with owed := owed + w.owed, log := log ++ w.log }

theorem behind_submit (w : Persistence) (owed : Nat) (log : List LogEntry) (id : DeviceId)
    (identity : BleIdentity) :
    (w.behind owed log).submit id identity = (w.submit id identity).behind owed log := by
  have hslot : (w.behind owed log).slotFor id = w.slotFor id := rfl
  have htask : (w.behind owed log).task = w.task := rfl
  rw [submit, submit, htask, hslot]
  split
  · rfl
  · split
    · rfl
    · simp only [behind, List.append_assoc, Nat.add_assoc]
      rfl

theorem behind_complete (w : Persistence) (owed : Nat) (log : List LogEntry) (snapshot : Pending)
    (success : Bool) :
    (w.behind owed log).complete snapshot success =
      (w.complete snapshot success).behind owed log := by
  unfold complete
  have hpending : (w.behind owed log).pending = w.pending := rfl
  rw [hpending]
  generalize (Fin.find? fun i => (w.pending i).dirty &&
    decide ((w.pending i).generation = snapshot.generation) &&
    decide ((w.pending i).deviceId = snapshot.deviceId)) = found
  cases found with
  | none => rfl
  | some i => cases success <;> rfl

theorem behind_wrote (w : Persistence) (owed : Nat) (log : List LogEntry) (snapshot : Pending)
    (r : StoreResult × List Entry) :
    (w.behind owed log).wrote snapshot r = (w.wrote snapshot r).behind owed log := by
  rw [wrote, wrote]
  split <;> simp only [behind, List.append_assoc]

/-- What was owed and what has happened does not matter to a step. -/
theorem step_behind {w w' : Persistence} {l : Act} (owed : Nat) (log : List LogEntry)
    (h : w.step l = some w') : (w.behind owed log).step l = some (w'.behind owed log) := by
  cases l with
  | init created =>
      cases h
      show some (if w.task then _ else _) = _
      split <;> rfl
  | submit id identity =>
      cases h
      exact congrArg some (behind_submit w owed log id identity)
  | notify =>
      rw [Persistence.step] at h ⊢
      obtain ⟨howed, ⟨⟩⟩ := Option.ite_none_left_eq_some.mp h
      have hmore : (w.behind owed log).owed = owed + w.owed := rfl
      rw [hmore, if_neg (show ¬ owed + w.owed = 0 by omega)]
      have hrest : owed + w.owed - 1 = owed + (w.owed - 1) := by omega
      exact congrArg some (congrArg
        (fun n => ({ w.behind owed log with owed := n, notified := true } : Persistence)) hrest)
  | wake timeout =>
      rw [Persistence.step] at h ⊢
      have hfields : (w.behind owed log).task = w.task ∧ (w.behind owed log).phase = w.phase ∧
          (w.behind owed log).notified = w.notified ∧ (w.behind owed log).retry = w.retry :=
        ⟨rfl, rfl, rfl, rfl⟩
      rw [hfields.1, hfields.2.1, hfields.2.2.1, hfields.2.2.2]
      split at h
      · cases h
      · rename_i hwaits
        rw [if_neg hwaits]
        split at h
        · rename_i hnotified
          cases h
          rw [if_pos hnotified]
          rfl
        · rename_i hquiet
          rw [if_neg hquiet]
          obtain ⟨hretry, ⟨⟩⟩ := Option.ite_none_right_eq_some.mp h
          rw [if_pos hretry]
          rfl
  | take =>
      unfold Persistence.step at h ⊢
      have hfields : (w.behind owed log).takeNext = w.takeNext ∧
          (w.behind owed log).phase = w.phase := ⟨rfl, rfl⟩
      dsimp only at h ⊢
      rw [hfields.1, hfields.2]
      generalize w.takeNext = found at h ⊢
      generalize w.phase = phase at h ⊢
      cases phase with
      | taking =>
          cases found <;> cases h <;> rfl
      | _ => cases h
  | write locked initialized nvs =>
      unfold Persistence.step at h ⊢
      have hfields : (w.behind owed log).entries = w.entries ∧
          (w.behind owed log).phase = w.phase := ⟨rfl, rfl⟩
      dsimp only at h ⊢
      rw [hfields.1, hfields.2]
      generalize w.phase = phase at h ⊢
      cases phase with
      | writing snapshot =>
          cases h
          exact congrArg some (behind_wrote ..)
      | _ => cases h
  | complete =>
      unfold Persistence.step at h ⊢
      have hphase : (w.behind owed log).phase = w.phase := rfl
      dsimp only at h ⊢
      rw [hphase]
      generalize w.phase = phase at h ⊢
      cases phase with
      | completing snapshot =>
          cases h
          dsimp only
          rw [behind_complete]
          rfl
      | _ => cases h
  | store entries =>
      cases h
      rfl

theorem run_behind {w w' : Persistence} {ls : List Act} (owed : Nat) (log : List LogEntry)
    (h : machine.run w ls = some w') :
    machine.run (w.behind owed log) ls = some (w'.behind owed log) := by
  induction ls generalizing w with
  | nil =>
      cases h
      rfl
  | cons l ls ih =>
      obtain ⟨w₁, hstep, hrest⟩ := Option.bind_eq_some_iff.mp h
      exact Option.bind_eq_some_iff.mpr ⟨_, step_behind owed log hstep, ih hrest⟩

def firstSlot : Slot := ⟨0, by decide⟩

def lampPending (generation : UInt32) : Pending :=
  { deviceId := lamp, identity := address 1, generation, dirty := true }

/-- The lamp waits with the generation. -/
def counted (generation : UInt32) : Persistence :=
  { task := true
    pending := Function.update (fun _ => {}) firstSlot (lampPending generation)
    owed := 1
    entries := [{ deviceId := lamp }, { deviceId := fan }]
    log := [.accepted lamp (address 1)] }

/-- Another submission only counts on. -/
theorem submit_counted (generation : UInt32) : (counted generation).submit lamp (address 1) =
    (counted (generation + 1)).behind 1 [.accepted lamp (address 1)] := by
  have hpending : (counted generation).pending =
      Function.update (fun _ => {}) firstSlot (lampPending generation) := rfl
  have hself : (counted generation).pending firstSlot = lampPending generation := by
    rw [hpending, Function.update_self]
  have hslot : (counted generation).slotFor lamp = some firstSlot := by
    have hlook : Directory.lookup Pending.used Pending.deviceId (counted generation).pending lamp =
        some firstSlot := by
      rw [Directory.lookup_eq_some_iff, hself]
      exact ⟨⟨rfl, rfl⟩, fun j hj => absurd hj (Nat.not_lt_zero j)⟩
    rw [slotFor, hlook]
    rfl
  unfold submit
  rw [hslot, show (!(counted generation).task) = false from rfl, if_neg Bool.false_ne_true]
  dsimp only
  -- the id of the lamp is written again, or not
  have hid : (if (lampPending generation).generation = 0 then
      { lampPending generation with deviceId := lamp } else lampPending generation) =
        lampPending generation := ite_self _
  rw [hself, hid, hpending, Function.update_idem]
  rfl

theorem behind_behind (w : Persistence) (owed owed' : Nat) (log log' : List LogEntry) :
    (w.behind owed log).behind owed' log' = w.behind (owed' + owed) (log' ++ log) := by
  simp only [behind, List.append_assoc, Nat.add_assoc]

theorem run_counted (n : Nat) (generation : UInt32) :
    machine.run (counted generation) (List.replicate n (.submit lamp (address 1))) =
      some ((counted (generation + UInt32.ofNat n)).behind n
        (List.replicate n (.accepted lamp (address 1)))) := by
  induction n generalizing generation with
  | zero =>
      rw [show UInt32.ofNat 0 = 0 from rfl, UInt32.add_zero]
      rfl
  | succ n ih =>
      have hstep : machine.step (counted generation) (.submit lamp (address 1)) =
          some ((counted (generation + 1)).behind 1 [.accepted lamp (address 1)]) :=
        congrArg some (submit_counted generation)
      have hcount : generation + 1 + UInt32.ofNat n = generation + UInt32.ofNat (n + 1) := by
        rw [UInt32.ofNat_add, UInt32.add_assoc, UInt32.add_comm 1]
        rfl
      rw [List.replicate_succ, Machine.run, hstep, Option.bind_some,
        run_behind 1 _ (ih (generation + 1)), behind_behind, hcount, Nat.add_comm 1 n]
      rfl

/-- The fan takes over the slot of the lamp. -/
def overwriteRun : List Act :=
  [.submit fan (address 2), .notify, .wake false, .take] ++ writeRun

/-- The fan has the identity of the lamp, and the store refuses it; or the lamp is submitted until
its generation is zero again, and the fan takes over its slot. -/
theorem accepted_not_persisted :
    (∃ w, machine.ReachableWhen Counts w ∧ ¬ w.LatestPersisted ∧
      lastAccepted w.log fan = some (address 1) ∧ lastPersisted w.log fan = none) ∧
    ∃ w, machine.Reachable w ∧ ¬ w.LatestPersisted ∧
      lastAccepted w.log lamp = some (address 1) ∧ lastWrote w.log lamp = none := by
  have hnot {w : Persistence} {id : DeviceId} (hidle : w.Idle)
      (haccepted : lastAccepted w.log id = some (address 1))
      (hpersisted : lastPersisted w.log id = none) :
      ¬ w.LatestPersisted := fun hlatest => by
    have hsame := hlatest hidle id
    rw [haccepted, hpersisted] at hsame
    cases hsame
  constructor
  · have hrun : ((machine.runWhen Counts {} takenRun).map fun w =>
        decide (w.Idle ∧ lastAccepted w.log fan = some (address 1) ∧
          lastPersisted w.log fan = none)) = some true := by
      decide +kernel
    obtain ⟨w, hw, hp⟩ := Machine.exists_reachableWhen_of_run (M := machine) rfl hrun
    obtain ⟨hidle, haccepted, hpersisted⟩ := of_decide_eq_true hp
    exact ⟨w, hw, hnot hidle haccepted hpersisted, haccepted, hpersisted⟩
  · have hfirst : machine.run {} (startRun ++ [.submit lamp (address 1)]) = some (counted 1) := by
      have hslot :
        slotFor { task := true, entries := [{ deviceId := lamp }, { deviceId := fan }] } lamp =
          some firstSlot := by
        decide +kernel
      have hsubmit :
        submit { task := true, entries := [{ deviceId := lamp }, { deviceId := fan }] } lamp
          (address 1) = counted 1 := by
        unfold submit
        rw [hslot]
        rfl
      exact congrArg some hsubmit
    obtain ⟨n, hn⟩ : ∃ n, (1 : UInt32) + UInt32.ofNat n = 0 := ⟨4294967295, rfl⟩
    have hcounted := run_counted n 1
    rw [hn] at hcounted
    have hrun : ((machine.run (counted 0) overwriteRun).map fun w => decide (w.Idle ∧
        w.log = [.accepted lamp (address 1), .accepted fan (address 2),
          .wrote fan (address 2) .ok])) = some true := by
      decide +kernel
    obtain ⟨w, hw, hp⟩ := Option.map_eq_some_iff.mp hrun
    obtain ⟨hidle, hlog⟩ := of_decide_eq_true hp
    have hinit : machine.Reachable {} := .init rfl
    have hreach := Machine.reachable_of_run (Machine.reachable_of_run
      (Machine.reachable_of_run hinit hfirst) hcounted) (run_behind n _ hw)
    generalize hold : List.replicate n (LogEntry.accepted lamp (address 1)) = old at hreach
    have hnever : lastWrote old lamp = none := by
      have hnil : old.filterMap LogEntry.wrote? = [] := by
        refine List.filterMap_eq_nil_iff.mpr fun e he => ?_
        rw [← hold] at he
        rw [List.eq_of_mem_replicate he]
        rfl
      rw [lastWrote, hnil]
      rfl
    have hmore : (w.behind n old).log = old ++ [.accepted lamp (address 1)] ++
        [.accepted fan (address 2)] ++ [.wrote fan (address 2) .ok] := by
      show old ++ w.log = _
      rw [hlog, List.append_assoc, List.append_assoc]
      rfl
    have hne : fan ≠ lamp := by decide
    have haccepted : lastAccepted (w.behind n old).log lamp = some (address 1) := by
      rw [hmore, lastAccepted_wrote, lastAccepted_accepted, if_neg hne, lastAccepted_accepted,
        if_pos rfl]
    have hwrote : lastWrote (w.behind n old).log lamp = none := by
      rw [hmore, lastWrote_wrote, if_neg hne, lastWrote_accepted, lastWrote_accepted, hnever]
    exact ⟨_, hreach, hnot hidle haccepted ((lastPersisted_of_lastWrote _ _).1 hwrote), haccepted,
      hwrote⟩

end Persistence

end BleGateway.BleCentral.Identity
