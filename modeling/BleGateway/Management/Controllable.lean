import BleGateway.Management.Model
import BleGateway.Scheduler.Blocking

/-! # A stored device can be controlled

The scheduler blocks a device while it is deleted. A delete that fails unblocks it again; one
that succeeds leaves it blocked, and so does an add. The flag therefore belongs to a device
that is being deleted or that has been removed, and a device of the store is neither as long as
no removed id is added again.
-/

namespace BleGateway.Management

open DeviceStore (Entry StoreResult)
open Scheduler (CtrlState SlotIx findDevice candidates FreshOpen)

/-! ## The ids of the store -/

/-- The ids of the stored devices, in order. -/
def ids (store : List Entry) : List DeviceId := store.map (·.deviceId)

variable {store : List Entry} {w' : Gateway}

theorem findUnlocked_none {id : DeviceId} (h : DeviceStore.findUnlocked store id.text = none) :
    id ∉ ids store := by
  intro hmem
  obtain ⟨e, he, rfl⟩ := List.mem_map.mp hmem
  have hno := List.findIdx?_eq_none_iff.mp h e he
  simp at hno

theorem ids_set {i : Nat} {e : Entry} (h : ∀ e', store[i]? = some e' → e.deviceId = e'.deviceId) :
    ids (store.set i e) = ids store := by
  apply List.ext_getElem?
  intro j
  simp only [ids, List.getElem?_map, List.getElem?_set]
  by_cases hij : i = j
  · subst hij
    cases hi : store[i]? with
    | none =>
        have hlen : ¬ i < store.length := by simpa using List.getElem?_eq_none_iff.mp hi
        simp [hlen]
    | some e' =>
        have hlen : i < store.length := (List.getElem?_eq_some_iff.mp hi).1
        simp [hlen, h e' hi]
  · simp [hij]

/-- A call of the store leaves what the operation leaves, or nothing has happened. -/
theorem perform_cases (a : StoreAnswer) (store : List Entry) (op : DeviceStore.Effect) :
    ((a.perform store op).1 ≠ .ok ∧ (a.perform store op).2 = store) ∨
      a.perform store op = (op.result, op.after) := by
  cases a with
  | busy => exact Or.inl ⟨by simp [StoreAnswer.perform], rfl⟩
  | persistence =>
      by_cases hop : op.calls = []
      · exact Or.inr (if_pos hop)
      · exact Or.inl ⟨by simp [StoreAnswer.perform, hop], by simp [StoreAnswer.perform, hop]⟩
  | fine => exact Or.inr rfl

/-- A refused operation changes nothing. -/
theorem perform_refuse (a : StoreAnswer) (store : List Entry) {r : StoreResult} (hr : r ≠ .ok) :
    (a.perform store (DeviceStore.refuse store r)).1 ≠ .ok ∧
      (a.perform store (DeviceStore.refuse store r)).2 = store := by
  rcases perform_cases a store (DeviceStore.refuse store r) with h | h
  · exact h
  · rw [h]
    exact ⟨hr, rfl⟩

/-- An add that is accepted puts its id behind the others; another one changes nothing. -/
theorem storeAdd_ids (a : StoreAnswer) (store : List Entry) (id : DeviceId) (name : CString) :
    ((storeAdd a store id.text name).1 ≠ .ok ∧ (storeAdd a store id.text name).2 = store) ∨
      (id ∉ ids store ∧ ids (storeAdd a store id.text name).2 = ids store ++ [id]) := by
  unfold storeAdd
  split
  · exact Or.inl ⟨by simp, rfl⟩
  rename_i e he
  have hid : e.deviceId = id := by
    obtain ⟨-, ⟨⟩⟩ := Option.ite_none_right_eq_some.mp he
    exact CharBuf.ext (strlcpy_text id.bounded)
  simp only [DeviceStore.add, he]
  split
  · exact Or.inl (perform_refuse a store (by simp))
  rename_i hnone
  split
  · exact Or.inl (perform_refuse a store (by simp))
  · rcases perform_cases a store ⟨.ok, DeviceStore.nvsAppend store.length (store.length + 1) e,
      store ++ [e]⟩ with h | h
    · exact Or.inl h
    · rw [h]
      exact Or.inr ⟨findUnlocked_none hnone, by simp [ids, hid]⟩

theorem storeSetIdentity_ids (a : StoreAnswer) (store : List Entry) (id : CString)
    (identity : DeviceStore.BleIdentity) :
    ids (storeSetIdentity a store id identity).2 = ids store := by
  have hop : ids (DeviceStore.setBleIdentity store id identity).after = ids store := by
    unfold DeviceStore.setBleIdentity
    split
    · rfl
    split
    · rfl
    rename_i i _
    dsimp only
    split
    · rfl
    split
    · rfl
    · refine ids_set fun e' he' => ?_
      rw [List.getD_eq_getElem?_getD, he', Option.getD_some]
  unfold storeSetIdentity
  split
  · rfl
  · rcases perform_cases a store (DeviceStore.setBleIdentity store id identity) with h | h
    · rw [h.2]
    · rw [h, hop]

/-- A delete that is accepted takes its id out; another one changes nothing. -/
theorem storeDelete_ids (a : StoreAnswer) (store : List Entry) (id : DeviceId) :
    ((storeDelete a store id.text).1 ≠ .ok ∧ (storeDelete a store id.text).2 = store) ∨
      ((storeDelete a store id.text).1 = .ok ∧
        ids (storeDelete a store id.text).2 = (ids store).erase id) := by
  have herase : (ids store).erase id = ids (store.eraseP fun e => e.deviceId.text = id.text) := by
    rw [List.erase_eq_eraseP, ids, List.eraseP_map]
    refine congrArg (fun p => ids (store.eraseP p)) (funext fun e => ?_)
    have hiff : id = e.deviceId ↔ e.deviceId.text = id.text :=
      ⟨fun h => h ▸ rfl, fun h => (CharBuf.ext h).symm⟩
    rw [Function.comp_apply, beq_eq_decide]
    exact decide_eq_decide.mpr hiff
  unfold storeDelete DeviceStore.delete
  rw [herase, List.eraseP_eq_eraseIdx]
  unfold DeviceStore.findUnlocked
  split
  · exact Or.inl (perform_refuse a store (by simp))
  · rename_i i hi
    rw [hi]
    rcases perform_cases a store ⟨.ok, DeviceStore.nvsDelete i (store.eraseIdx i) store.length,
      store.eraseIdx i⟩ with h | h
    · exact Or.inl h
    · rw [h]
      exact Or.inr ⟨rfl, rfl⟩

/-- What an add does to the ids. -/
theorem add_ids (store : List Entry) (request : AddRequest) (a : AddAnswers) :
    ids (add store request a).2.1 = ids store ∨
      request.deviceId ∉ ids store ∧
        ids (add store request a).2.1 = ids store ++ [request.deviceId] := by
  unfold add
  split
  · exact Or.inl rfl
  dsimp only
  generalize (if request.name.text ≠ [] then request.name.text else request.deviceId.text) = name
  have hadd := storeAdd_ids a.add store request.deviceId name
  generalize storeAdd a.add store request.deviceId.text name = r at hadd ⊢
  obtain ⟨result, stored⟩ := r
  rcases hadd with ⟨hne, rfl⟩ | ⟨hnew, hids⟩
  · split <;> rename_i heq <;> cases heq
    · exact absurd rfl hne
    · exact Or.inl rfl
  · split <;> rename_i heq <;> cases heq
    · split
      · exact Or.inr ⟨hnew, hids⟩
      · rename_i identity _
        have hset := storeSetIdentity_ids a.identity stored request.deviceId.text identity
        split
        · rename_i hr
          rw [hr] at hset
          exact Or.inr ⟨hnew, hset.trans hids⟩
        · -- the rollback takes the new id out again, or leaves it
          have hdel := storeDelete_ids a.rollback stored request.deviceId
          rcases hdel with ⟨hne, hsame⟩ | ⟨hok, hdel⟩
          · split <;> rename_i hr <;> rw [hr] at hne hsame
            · exact absurd rfl hne
            · obtain rfl : _ = stored := hsame
              exact Or.inr ⟨hnew, hids⟩
          · split <;> rename_i hr <;> rw [hr] at hok hdel
            · left
              rw [hdel, hids, List.erase_append_right _ hnew]
              simp
            · rename_i hno
              exact absurd hok hno
    · exact Or.inr ⟨hnew, hids⟩

/-! ## The property -/

/-- Something other than a block keeps the job of slot `i` waiting: a command of its device is in
flight, another owner has leased the device, or it is a normal job's turn. -/
def HeldBack (g : CtrlState) (i : SlotIx) : Prop :=
  (g.deviceOf (g.slots i)).transportInflight = true ∨
    ((g.deviceOf (g.slots i)).lease ≠ 0 ∧
      (g.slots i).job.leaseId ≠ (g.deviceOf (g.slots i)).lease) ∨
    (g.highBurst ≥ Scheduler.DEVICE_CTRL_HIGH_BURST_MAX ∧ Scheduler.normalAvailable g = true ∧
      (g.slots i).job.priority = .high)

/-- Every stored device that is not being deleted is unblocked, and its queued jobs are candidates
of the next dispatch unless something else holds them back. -/
def Gateway.Controllable (w : Gateway) : Prop :=
  ∀ e ∈ w.store, ¬ w.deleting e.deviceId →
    (∀ d, findDevice w.scheduler.ctrl e.deviceId.text = some d →
      (w.scheduler.ctrl.devices d).blocked = false) ∧
    ∀ i, (w.scheduler.ctrl.slots i).state = .queued →
      (w.scheduler.ctrl.slots i).job.deviceId = e.deviceId.text →
      ¬ HeldBack w.scheduler.ctrl i → i ∈ candidates w.scheduler.ctrl

/-- The device has been removed from the store. -/
def Gateway.removed (w : Gateway) (id : DeviceId) : Prop := .publishRemoved id ∈ w.outcomes

/-- An id is added only while no delete of it has succeeded. -/
def Fits (w : Gateway) : Label → Prop
  | .add request _ => ¬ w.removed request.deviceId
  | _ => True

/-! ## The invariant -/

/-- A blocked device is being deleted or has been removed, and a stored one has not been
removed. -/
structure Consistent (w : Gateway) : Prop where
  tables : Scheduler.TablesInv w.scheduler.ctrl
  fresh : FreshOpen w.scheduler.ctrl
  distinct : (ids w.store).Nodup
  stored : ∀ id ∈ ids w.store, ¬ w.removed id
  blocked : ∀ id d, findDevice w.scheduler.ctrl id.text = some d →
    (w.scheduler.ctrl.devices d).blocked = true → w.deleting id ∨ w.removed id

/-- Among consistent tables, a queued job of an unblocked device is a candidate or held back. -/
theorem mem_candidates_of_unblocked {g : CtrlState} (h : Scheduler.TablesInv g) {i : SlotIx}
    (hq : (g.slots i).state = .queued) (hb : (g.deviceOf (g.slots i)).blocked = false)
    (hheld : ¬ HeldBack g i) : i ∈ candidates g := by
  have hfound := h.device.found i (by simp [hq])
  have hused : (g.deviceOf (g.slots i)).used = true := (Scheduler.findDevice_spec hfound).1
  simp only [HeldBack, not_or, not_and, Bool.not_eq_true] at hheld
  obtain ⟨hidle, hlease, hburst⟩ := hheld
  refine Scheduler.mem_candidates.mpr ⟨?_, ?_⟩
  · simp [Scheduler.Device.ready, hused, hb, hidle]
  · simp only [Scheduler.eligible, hq, Bool.and_eq_true, Bool.or_eq_true, decide_eq_true_eq,
      Bool.not_eq_true', Bool.and_eq_false_iff, decide_eq_false_iff_not, true_and]
    refine ⟨?_, ?_⟩
    · by_cases hl : (g.deviceOf (g.slots i)).lease = 0
      · exact Or.inl hl
      · exact Or.inr (by_contra fun hne => hlease hl hne)
    · by_cases h8 : g.highBurst ≥ Scheduler.DEVICE_CTRL_HIGH_BURST_MAX
      · cases hn : Scheduler.normalAvailable g with
        | false => exact Or.inl (Or.inr rfl)
        | true => exact Or.inr (hburst h8 hn)
      · exact Or.inl (Or.inl h8)

theorem Consistent.controllable {w : Gateway} (h : Consistent w) : w.Controllable := by
  intro e he hdel
  have hopen : ∀ d, findDevice w.scheduler.ctrl e.deviceId.text = some d →
      (w.scheduler.ctrl.devices d).blocked = false := by
    intro d hd
    by_contra hb
    rcases h.blocked e.deviceId d hd (by simpa using hb) with hdel' | hrem
    · exact hdel hdel'
    · exact h.stored _ (List.mem_map_of_mem he) hrem
  refine ⟨hopen, fun i hq hjob hheld => ?_⟩
  have hfound := h.tables.device.found i (by simp [hq])
  rw [hjob] at hfound
  exact mem_candidates_of_unblocked h.tables hq (hopen _ hfound) hheld

/-! ## The steps -/

section Steps

variable {w : Gateway} {s : Scheduler.Sys} {l : Scheduler.Label} {del : Deletion}

/-- What a step of the scheduler leaves: the entries that are found and blocked were so before, or
satisfy `new`. -/
theorem Consistent.blocked_step (h : Consistent w) (hs : w.scheduler.step l = some s)
    (new : DeviceId → Prop)
    (hnew : ∀ d, (s.ctrl.devices d).blocked = true →
      (w.scheduler.ctrl.devices d).blocked = true ∨ new (s.ctrl.devices d).deviceId)
    (id : DeviceId) (d : Scheduler.DevIx) (hd : findDevice s.ctrl id.text = some d)
    (hb : (s.ctrl.devices d).blocked = true) : w.deleting id ∨ w.removed id ∨ new id := by
  rcases hnew d hb with hold | hnew
  · have hd' := Scheduler.found_before hs h.tables.device h.fresh hd hold
    rcases h.blocked id d hd' hold with hdel | hrem
    · exact Or.inl hdel
    · exact Or.inr (Or.inl hrem)
  · have hid := CharBuf.ext (Scheduler.findDevice_spec hd).2
    exact Or.inr (Or.inr (hid ▸ hnew))

variable {w' : Gateway}

/-- A step of the scheduler while the store and the removed ids stay. -/
theorem Consistent.of_step (h : Consistent w) (hs : w.scheduler.step l = some w'.scheduler)
    (hstore : w'.store = w.store) (hrem : ∀ id, w'.removed id ↔ w.removed id)
    (hblocked : ∀ id d, findDevice w'.scheduler.ctrl id.text = some d →
      (w'.scheduler.ctrl.devices d).blocked = true → w'.deleting id ∨ w.removed id) :
    Consistent w' where
  tables := h.tables.step hs
  fresh := h.fresh.step hs
  distinct := hstore ▸ h.distinct
  stored id hid := by
    rw [hrem]
    exact h.stored id (hstore ▸ hid)
  blocked id d hd hb := by
    rw [hrem]
    exact hblocked id d hd hb

theorem deleting_iff (hdel : w.deletion = some del) (id : DeviceId) :
    w.deleting id ↔ del.entry.deviceId = id := by
  simp [Gateway.deleting, hdel]

/-- Going on with the delete that is under way. -/
theorem Consistent.at_ (h : Consistent w) (del' : Deletion) (hdel : w.deletion = some del)
    (hentry : del'.entry = del.entry) (stage : Stage) : Consistent (w.at_ del' stage) where
  tables := h.tables
  fresh := h.fresh
  distinct := h.distinct
  stored := h.stored
  blocked id d hd hb := by
    have hdeleting : (w.at_ del' stage).deleting id ↔ w.deleting id := by
      have hself : (w.at_ del' stage).deleting id ↔ del'.entry.deviceId = id := by
        simp [Gateway.deleting, Gateway.at_]
      rw [deleting_iff hdel, hself, hentry]
    rw [hdeleting]
    exact h.blocked id d hd hb

/-- A step of the scheduler that blocks nothing. -/
theorem Consistent.scheduler (h : Consistent w) (hs : w.scheduler.step l = some s)
    (hl : l.blocks = false) :
    Consistent { w with scheduler := s } := by
  refine h.of_step hs rfl (fun _ => Iff.rfl) fun id d hd hb => ?_
  have hkept := Scheduler.step_blocks hs hl
  rcases h.blocked_step hs (fun _ => False)
    (fun d hb => Or.inl (by rw [← hkept d]; exact hb)) id d hd hb with hdel | hrem | hno
  · exact Or.inl hdel
  · exact Or.inr hrem
  · exact hno.elim

/-- The block of the device that is being deleted. -/
theorem Consistent.block (h : Consistent w) (hdel : w.deletion = some del)
    (hs : w.scheduler.step (.blockDevice (some del.entry.deviceId.text)) = some s) :
    Consistent { w with scheduler := s } := by
  refine h.of_step hs rfl (fun _ => Iff.rfl) fun id d hd hb => ?_
  have hctrl : s.ctrl =
      (Scheduler.blockDevice w.scheduler.ctrl (some del.entry.deviceId.text)).1 := by
    cases hs
    rfl
  have hcases := h.blocked_step hs (fun id => id = del.entry.deviceId)
    (fun d hb => by
      rw [hctrl] at hb ⊢
      exact (Scheduler.blockDevice_blocked hb).imp_right And.right) id d hd hb
  rcases hcases with hdel' | hrem | rfl
  · exact Or.inl hdel'
  · exact Or.inr hrem
  · exact Or.inl ((deleting_iff (w := { w with scheduler := s }) hdel _).mpr rfl)

/-- The unblock that ends a failed delete. -/
theorem Consistent.unblock (h : Consistent w) (hdel : w.deletion = some del)
    (hs : w.scheduler.step (.unblockDevice (some del.entry.deviceId.text)) = some s)
    (result : DeleteResult) :
    Consistent ({ w with scheduler := s }.answer result del.entry.deviceId
      [.publishChanged del.entry.deviceId]) := by
  refine h.of_step hs rfl (fun id => by simp [Gateway.removed, Gateway.answer])
    fun id d hd hb => Or.inr ?_
  have hctrl : s.ctrl =
      (Scheduler.unblockDevice w.scheduler.ctrl (some del.entry.deviceId.text)).1 := by
    cases hs
    rfl
  have hold : (w.scheduler.ctrl.devices d).blocked = true ∧
      findDevice w.scheduler.ctrl del.entry.deviceId.text ≠ some d := by
    refine Scheduler.unblockDevice_blocked ?_
    rw [← hctrl]
    exact hb
  have hd' := Scheduler.found_before hs h.tables.device h.fresh hd hold.1
  rcases h.blocked id d hd' hold.1 with hdel' | hrem
  · -- the device of this delete is the one that has just been unblocked
    rw [deleting_iff hdel] at hdel'
    exact absurd (hdel' ▸ hd') hold.2
  · exact hrem

/-- The removal that ends a successful delete. -/
theorem Consistent.remove (h : Consistent w) (hdel : w.deletion = some del)
    (hids : ids store = (ids w.store).erase del.entry.deviceId) (result : DeleteResult) :
    Consistent ({ w with store }.answer result del.entry.deviceId
      [.publishRemoved del.entry.deviceId]) := by
  have hrem : ∀ id, ({ w with store }.answer result del.entry.deviceId
      [.publishRemoved del.entry.deviceId]).removed id ↔
        w.removed id ∨ id = del.entry.deviceId := by
    intro id
    simp [Gateway.removed, Gateway.answer]
  refine ⟨h.tables, h.fresh, ?_, fun id hid => ?_, fun id d hd hb => Or.inr ?_⟩
  · show (ids store).Nodup
    rw [hids]
    exact h.distinct.erase _
  · -- the list held the id once
    have hid' : id ∈ (ids w.store).erase del.entry.deviceId := hids ▸ hid
    rw [h.distinct.mem_erase_iff] at hid'
    rw [hrem, not_or]
    exact ⟨h.stored id hid'.2, hid'.1⟩
  · rw [hrem]
    rcases h.blocked id d hd hb with hdel' | hrem'
    · exact Or.inr ((deleting_iff hdel id).mp hdel').symm
    · exact Or.inl hrem'

theorem Consistent.of_call (hdel : w.deletion = some del) {stage : Stage}
    (hw : w.call l del stage = some w')
    (hstep : ∀ s, w.scheduler.step l = some s → Consistent { w with scheduler := s }) :
    Consistent w' := by
  obtain ⟨s, hs, rfl⟩ := Option.map_eq_some_iff.mp hw
  exact (hstep s hs).at_ del hdel rfl stage

/-- **A step of a delete keeps the invariant.** -/
theorem Consistent.deleteStep (h : Consistent w) (hdel : w.deletion = some del) {ok : Bool}
    {a : StoreAnswer} (hw : w.deleteStep del ok a = some w') :
    Consistent w' := by
  unfold Gateway.deleteStep at hw
  dsimp only at hw
  split at hw
  · exact Consistent.of_call hdel hw fun _ => h.block hdel
  · exact Consistent.of_call hdel hw fun _ => h.block hdel
  · exact Consistent.of_call hdel hw fun _ hs => h.scheduler hs rfl
  · split at hw
    · cases hw
      exact h.at_ _ hdel (by rfl) _
    · split at hw <;> cases hw
      · exact h
      · exact h.at_ _ hdel (by rfl) _
  · split at hw <;> cases hw <;> exact h.at_ _ hdel (by rfl) _
  · split at hw <;> cases hw <;> exact h.at_ _ hdel (by rfl) _
  · cases hw
    exact h.at_ _ hdel (by rfl) _
  · have hids := storeDelete_ids a w.store del.entry.deviceId
    generalize storeDelete a w.store del.entry.deviceId.text = r at hw hids
    obtain ⟨result, store⟩ := r
    dsimp only at hw hids
    rcases hids with ⟨hne, rfl⟩ | ⟨rfl, hids⟩
    · rw [if_neg hne] at hw
      cases hw
      exact h.at_ _ hdel (by rfl) _
    · cases hw
      exact h.remove hdel hids _
  · obtain ⟨s, hs, rfl⟩ := Option.map_eq_some_iff.mp hw
    exact h.unblock hdel hs _

/-- The answer of an add. -/
theorem Consistent.add (h : Consistent w) {request : AddRequest} (a : AddAnswers)
    (hfits : ¬ w.removed request.deviceId) {outcomes : List Outcome}
    (hout : ∀ id, .publishRemoved id ∉ outcomes) :
    Consistent { w with
      store := (add w.store request a).2.1
      outcomes := w.outcomes ++ outcomes } := by
  have hrem : ∀ id, Gateway.removed { w with
      store := (Management.add w.store request a).2.1
      outcomes := w.outcomes ++ outcomes } id ↔ w.removed id := by
    intro id
    simp [Gateway.removed, hout]
  have hblocked : ∀ id d, findDevice w.scheduler.ctrl id.text = some d →
      (w.scheduler.ctrl.devices d).blocked = true → w.deleting id ∨ w.removed id := h.blocked
  rcases add_ids w.store request a with hids | ⟨hnew, hids⟩
  · refine ⟨h.tables, h.fresh, ?_, fun id hid => ?_, fun id d hd hb => ?_⟩
    · show (ids (Management.add w.store request a).2.1).Nodup
      rw [hids]
      exact h.distinct
    · rw [hrem]
      exact h.stored id (hids ▸ hid)
    · rw [hrem]
      exact hblocked id d hd hb
  · refine ⟨h.tables, h.fresh, ?_, fun id hid => ?_, fun id d hd hb => ?_⟩
    · show (ids (Management.add w.store request a).2.1).Nodup
      rw [hids]
      refine List.nodup_append.mpr ⟨h.distinct, by simp, fun x hx y hy => ?_⟩
      obtain rfl := List.mem_singleton.mp hy
      exact ne_of_mem_of_not_mem hx hnew
    · rw [hrem]
      have hid' : id ∈ ids w.store ++ [request.deviceId] := hids ▸ hid
      rcases List.mem_append.mp hid' with hold | hself
      · exact h.stored id hold
      · obtain rfl := List.mem_singleton.mp hself
        exact hfits
    · rw [hrem]
      exact hblocked id d hd hb

/-- An answer without a delete under way. -/
theorem Consistent.answer (h : Consistent w) (hdel : w.deletion = none) (result : DeleteResult)
    (id : DeviceId) : Consistent (w.answer result id []) := by
  have hrem : ∀ id', (w.answer result id []).removed id' ↔ w.removed id' := by
    intro id'
    simp [Gateway.removed, Gateway.answer]
  refine ⟨h.tables, h.fresh, h.distinct, fun id' hid => ?_, fun id' d hd hb => ?_⟩
  · rw [hrem]
    exact h.stored id' hid
  · rw [hrem]
    rcases h.blocked id' d hd hb with hdel' | hrem'
    · simp [Gateway.deleting, hdel] at hdel'
    · exact Or.inr hrem'

end Steps

/-- **Every step that fits keeps the invariant.** -/
theorem Consistent.step {w : Gateway} {l : Label} (h : Consistent w) (hfits : Fits w l)
    (hw : w.step l = some w') : Consistent w' := by
  cases l with
  | scheduler label =>
      obtain ⟨hout, hw⟩ := Option.ite_none_right_eq_some.mp hw
      obtain ⟨s, hs, rfl⟩ := Option.map_eq_some_iff.mp hw
      refine h.scheduler hs ?_
      cases label <;> first | rfl | cases hout
  | add request a =>
      obtain ⟨-, ⟨⟩⟩ := Option.ite_none_left_eq_some.mp hw
      rw [List.append_assoc]
      refine h.add a hfits fun id hid => ?_
      split at hid <;> simp at hid
  | delete id a =>
      simp only [Gateway.step] at hw
      split at hw
      · cases hw
      rename_i hdel
      rw [Option.not_isSome_iff_eq_none] at hdel
      split at hw
      · cases hw
        exact h.answer hdel _ _
      split at hw <;> cases hw
      · exact h.answer hdel _ _
      · rename_i entry _
        refine ⟨h.tables, h.fresh, h.distinct, h.stored, fun id' d hd hb => ?_⟩
        -- no delete was under way, so a blocked device has been removed
        rcases h.blocked id' d hd hb with hdel' | hrem
        · simp [Gateway.deleting, hdel] at hdel'
        · exact Or.inr hrem
  | deleteStep ok a =>
      obtain ⟨del, hdel, hw⟩ := Option.bind_eq_some_iff.mp hw
      exact h.deleteStep hdel hw

theorem Consistent.init {w : Gateway} (h : machine.init w) : Consistent w := by
  obtain ⟨hsched, hdel, hout, hnodup⟩ := h
  refine ⟨?_, ?_, hnodup, fun id _ => by simp [Gateway.removed, hout], fun id d hd _ => ?_⟩
  · rw [hsched]
    exact Scheduler.TablesInv.boot
  · rw [hsched]
    exact FreshOpen.boot
  · -- a fresh scheduler knows no device
    rw [hsched] at hd
    have hu := (Scheduler.findDevice_spec hd).1
    cases hu

/-- **A stored device can be controlled** in every state of every run that adds no id again after
a delete of it has succeeded. -/
theorem stored_controllable {w : Gateway} (hw : machine.ReachableWhen Fits w) :
    w.Controllable :=
  (hw.invariant (fun _ h => Consistent.init h) fun _ _ _ h hfits hs => h.step hfits hs).controllable

/-! ## An id that is added again -/

/-- A gateway without devices. -/
def fresh : Gateway := { scheduler := Scheduler.boot, store := [] }

theorem fresh_init : machine.init fresh := ⟨rfl, rfl, rfl, List.nodup_nil⟩

def lamp : DeviceId := strlcpy _ [1]

/-- A delete in which everything succeeds. -/
def deleteAll : List Label := .delete lamp .fine :: List.replicate 8 (.deleteStep true .fine)

/-- Some stored device is blocked although it is not being deleted. -/
def Gateway.stuck (w : Gateway) : Bool :=
  w.store.any fun e => !(w.deletion.any (·.entry.deviceId = e.deviceId)) &&
    (findDevice w.scheduler.ctrl e.deviceId.text).any fun d => (w.scheduler.ctrl.devices d).blocked

theorem Gateway.not_controllable {w : Gateway} (h : w.stuck = true) : ¬ w.Controllable := by
  intro hc
  obtain ⟨e, he, h⟩ := List.any_eq_true.mp h
  rw [Bool.and_eq_true, Bool.not_eq_true'] at h
  obtain ⟨d, hd, hb⟩ := (Option.any_eq_true _ _).mp h.2
  have hopen := (hc e he (by simp [Gateway.deleting, h.1])).1 d hd
  rw [hb] at hopen
  cases hopen

def addedAgain : List Label :=
  .add { deviceId := lamp } {} :: deleteAll ++ [.add { deviceId := lamp } {}]

/-- A device that is added, deleted and added again is stored and blocked. -/
theorem added_again_blocked : ¬ ∀ w, machine.Reachable w → w.Controllable := by
  intro h
  have hrun : (machine.run fresh addedAgain).map Gateway.stuck = some true := by decide +kernel
  obtain ⟨w, hw, hstuck⟩ := Machine.exists_reachable_of_run fresh_init hrun
  exact Gateway.not_controllable hstuck (h w hw)

instance (w : Gateway) (l : Label) : Decidable (Fits w l) := by
  unfold Fits Gateway.removed
  cases l <;> infer_instance

/-- The delete of a device fails to forget its settings. -/
def failedDelete : List Label :=
  [.add { deviceId := lamp } {}, .delete lamp .fine] ++
    List.replicate 4 (.deleteStep true .fine) ++ List.replicate 2 (.deleteStep false .fine)

/-- A device whose delete has failed is still controllable. -/
theorem stored_controllable_retry :
    ∃ w : Gateway, (w.store.length = 1 ∧ w.outcomes.length = 4) ∧ w.Controllable := by
  have hrun : (machine.runWhen Fits fresh failedDelete).map (fun w =>
      decide (w.store.length = 1 ∧ w.outcomes.length = 4)) = some true := by
    decide +kernel
  obtain ⟨w, hw, hp⟩ := Machine.exists_reachableWhen_of_run fresh_init hrun
  exact ⟨w, of_decide_eq_true hp, stored_controllable hw⟩

end BleGateway.Management
