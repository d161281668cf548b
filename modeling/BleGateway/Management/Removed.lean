import BleGateway.Management.Controllable
import BleGateway.Scheduler.Idle

/-! # A removed device is silent

A delete forgets its device only after the scheduler has found the blocked device idle. From then
on no command of the device is in flight: nothing but a failed delete unblocks it, and once it is
removed there is none for it unless it is added again.
-/

namespace BleGateway.Management

open Scheduler (CtrlState Silenced findDevice)

variable {w w' : Gateway} {del : Deletion} {g : CtrlState}

/-- What the next call of a delete relies on. -/
def Stage.Relies (g : CtrlState) (id : CString) : Stage → Prop
  | .block | .quiesceBlock | .unblock _ => True
  | .quiesceCancel | .quiescePoll =>
      ∃ d, findDevice g id = some d ∧ (g.devices d).blocked = true
  | .settingsForget | .schemaForget | .forgetPeer | .storeDelete => Silenced g id

theorem Stage.Relies.step {s s' : Scheduler.Sys} {l : Scheduler.Label} {id : CString}
    {stage : Stage} (h : stage.Relies s.ctrl id) (ht : Scheduler.TablesInv s.ctrl)
    (hl : l ≠ .unblockDevice (some id)) (hs : s.step l = some s') : stage.Relies s'.ctrl id := by
  cases stage with
  | block | quiesceBlock | unblock => trivial
  | quiesceCancel | quiescePoll =>
      obtain ⟨d, hd, hb⟩ := h
      exact ⟨d, ht.device.findDevice_kept (Scheduler.step_entries hs) hd,
        Scheduler.step_blocked hs hl hd hb⟩
  | _ => exact Silenced.step h ht hl hs

/-- A device whose block is accepted has an entry that is blocked. -/
theorem blockDevice_relies {id : DeviceId} (h : (Scheduler.blockDevice g (some id.text)).2 = .ok) :
    Stage.quiesceCancel.Relies (Scheduler.blockDevice g (some id.text)).1 id.text := by
  rcases Scheduler.blockDevice_cases g (some id.text) with ⟨hne, -⟩ | ⟨text, d, htext, hd, heq⟩
  · exact absurd h hne
  · cases htext
    refine ⟨d, ?_, by simp [heq]⟩
    rw [← Scheduler.findDevice_findOrCreateDevice id.bounded hd, heq]
    refine congrArg Fin.find? (funext fun d' => ?_)
    obtain ⟨hu, hid⟩ := Scheduler.entries_update (g := (Scheduler.findOrCreateDevice g id.text).1)
      (d := d) (e := { (Scheduler.findOrCreateDevice g id.text).1.devices d with blocked := true })
      rfl rfl d'
    exact congrArg₂ (fun u (e : DeviceId) => u && decide (e.text = id.text)) hu hid

/-- The device of a delete is stored and as quiet as the delete relies on; a removed one that is not
stored is silent. -/
structure Quiesced (w : Gateway) : Prop where
  scheduler : Scheduler.machine.Reachable w.scheduler
  removed : ∀ id, w.removed id → id ∉ ids w.store → Silenced w.scheduler.ctrl id.text
  current : ∀ del, w.deletion = some del → del.entry.deviceId ∈ ids w.store ∧
    del.stage.Relies w.scheduler.ctrl del.entry.deviceId.text

theorem removed_answer {result : DeleteResult} {id id' : DeviceId} {published : List Outcome} :
    (w.answer result id published).removed id' ↔
      w.removed id' ∨ .publishRemoved id' ∈ published := by
  simp [Gateway.removed, Gateway.answer]

namespace Quiesced

/-- A call of the scheduler that unblocks nothing. -/
theorem frame (h : Quiesced w) {l : Scheduler.Label} {s : Scheduler.Sys}
    (hs : w.scheduler.step l = some s) (hl : ∀ id, l ≠ .unblockDevice id) :
    Quiesced { w with scheduler := s } where
  scheduler := h.scheduler.step hs
  removed id hrem hgone :=
    (h.removed id hrem hgone).step (Scheduler.tables_inv h.scheduler) (hl _) hs
  current del hdel := (h.current del hdel).imp_right
    (·.step (Scheduler.tables_inv h.scheduler) (hl _) hs)

/-- Going on with the delete. -/
theorem at_ (h : Quiesced w) {del' : Deletion} (hdel : w.deletion = some del)
    (hentry : del'.entry = del.entry) {stage : Stage}
    (hstage : stage.Relies w.scheduler.ctrl del.entry.deviceId.text) :
    Quiesced (w.at_ del' stage) where
  scheduler := h.scheduler
  removed := h.removed
  current d hd := by
    cases hd
    rw [← hentry] at hstage
    exact ⟨hentry ▸ (h.current del hdel).1, hstage⟩

theorem call (h : Quiesced w) (hdel : w.deletion = some del) {l : Scheduler.Label} {stage : Stage}
    (hw : w.call l del stage = some w') (hl : ∀ id, l ≠ .unblockDevice id)
    (hstage : ∀ s, w.scheduler.step l = some s →
      stage.Relies s.ctrl del.entry.deviceId.text) : Quiesced w' := by
  obtain ⟨s, hs, rfl⟩ := Option.map_eq_some_iff.mp hw
  exact (h.frame hs hl).at_ hdel rfl (hstage s hs)

/-- An answer that is no removal. -/
theorem answered (h : Quiesced w) (hsched : w'.scheduler = w.scheduler)
    (hdel : w'.deletion = none) (hids : ids w.store ⊆ ids w'.store)
    (hrem : ∀ id, w'.removed id → w.removed id) : Quiesced w' where
  scheduler := hsched ▸ h.scheduler
  removed id hid hgone := hsched ▸ h.removed id (hrem id hid) fun hmem => hgone (hids hmem)
  current _ hd := by
    rw [hdel] at hd
    cases hd

theorem deleteStep (h : Quiesced w) (hdel : w.deletion = some del) {ok : Bool} {a : StoreAnswer}
    (hw : w.deleteStep del ok a = some w') : Quiesced w' := by
  obtain ⟨hstored, hrelies⟩ := h.current del hdel
  unfold Gateway.deleteStep at hw
  dsimp only at hw
  split at hw <;> rename_i hstage <;> rw [hstage] at hrelies
  · exact h.call hdel hw (fun _ => by simp) fun _ _ => by split <;> trivial
  · refine h.call hdel hw (fun _ => by simp) fun s hs => ?_
    cases hs
    split
    · exact blockDevice_relies ‹_›
    · trivial
  · exact h.call hdel hw (fun _ => by simp) fun s hs =>
      hrelies.step (Scheduler.tables_inv h.scheduler) (by simp) hs
  · split at hw
    · -- the blocked device is idle
      rename_i hidle
      obtain ⟨d, hd, hb⟩ := hrelies
      cases hw
      exact h.at_ hdel (by rfl) (Silenced.of_idle hd hb hidle)
    · split at hw <;> cases hw
      · exact h
      · exact h.at_ hdel (by rfl) trivial
  · split at hw <;> cases hw
    · exact h.at_ hdel (by rfl) hrelies
    · exact h.at_ hdel (by rfl) trivial
  · split at hw <;> cases hw
    · exact h.at_ hdel (by rfl) hrelies
    · exact h.at_ hdel (by rfl) trivial
  · cases hw
    exact h.at_ hdel (by rfl) hrelies
  · have hids := storeDelete_ids a w.store del.entry.deviceId
    generalize storeDelete a w.store del.entry.deviceId.text = r at hw hids
    obtain ⟨result, store⟩ := r
    dsimp only at hw hids
    rcases hids with ⟨hne, rfl⟩ | ⟨rfl, hids⟩
    · rw [if_neg hne] at hw
      cases hw
      exact h.at_ hdel (by rfl) trivial
    · -- the device counts as removed from here on
      cases hw
      refine ⟨h.scheduler, fun id hrem hgone => ?_, fun _ hd => by cases hd⟩
      by_cases hid : id = del.entry.deviceId
      · rw [hid]
        exact hrelies
      · have hold : w.removed id := by
          refine (removed_answer.mp hrem).resolve_right fun hmem => hid ?_
          simpa using hmem
        refine h.removed id hold fun hmem => hgone ?_
        show id ∈ ids store
        rw [hids]
        exact (List.mem_erase_of_ne hid).mpr hmem
  · obtain ⟨s, hs, rfl⟩ := Option.map_eq_some_iff.mp hw
    refine ⟨h.scheduler.step (l := .unblockDevice (some del.entry.deviceId.text)) hs,
      fun id hrem hgone => ?_, fun _ hd => by cases hd⟩
    -- the device that is unblocked is stored
    have hid : id ≠ del.entry.deviceId := by
      rintro rfl
      exact hgone hstored
    have hold : w.removed id := (removed_answer.mp hrem).resolve_right (by simp)
    show Silenced s.ctrl id.text
    refine (h.removed id hold hgone).step (Scheduler.tables_inv h.scheduler) ?_ hs
    simpa using fun he => hid (CharBuf.ext he.symm)

theorem step {l : Label} (h : Quiesced w) (hw : w.step l = some w') : Quiesced w' := by
  cases l with
  | scheduler label =>
      obtain ⟨hout, hw⟩ := Option.ite_none_right_eq_some.mp hw
      obtain ⟨s, hs, rfl⟩ := Option.map_eq_some_iff.mp hw
      exact h.frame hs fun id he => by simp [he, fromOutside] at hout
  | add request a =>
      obtain ⟨hdel, ⟨⟩⟩ := Option.ite_none_left_eq_some.mp hw
      refine h.answered rfl (by simpa using hdel) (fun id hid => ?_) fun id hrem => ?_
      · show id ∈ ids (add w.store request a).2.1
        rcases add_ids w.store request a with he | ⟨-, he⟩ <;> simp [he, hid]
      · simpa [Gateway.removed] using hrem
  | delete id a =>
      simp only [Gateway.step] at hw
      split at hw
      · cases hw
      split at hw
      · cases hw
        exact h.answered rfl rfl (fun _ h => h) fun _ hrem =>
          (removed_answer.mp hrem).resolve_right (by simp)
      split at hw <;> cases hw
      · exact h.answered rfl rfl (fun _ h => h) fun _ hrem =>
          (removed_answer.mp hrem).resolve_right (by simp)
      · rename_i entry hget
        refine ⟨h.scheduler, h.removed, fun del hd => ?_⟩
        cases hd
        refine ⟨?_, trivial⟩
        unfold storeGet at hget
        split at hget
        · cases hget
        split at hget
        · cases hget
          exact List.mem_map_of_mem (List.mem_of_find?_eq_some ‹_›)
        · cases hget
  | deleteStep ok a =>
      obtain ⟨del, hdel, hw⟩ := Option.bind_eq_some_iff.mp hw
      exact h.deleteStep hdel hw

end Quiesced

/-- No command of the device is in flight. -/
def Gateway.Silent (w : Gateway) (id : DeviceId) : Prop :=
  ∀ i, (w.scheduler.ctrl.slots i).state = .inflight →
    (w.scheduler.ctrl.slots i).job.deviceId ≠ id.text

/-- **A removed device is silent** until it is added again, and so is a device while a delete
forgets what is known about it, whatever the scheduler and its callers do meanwhile. -/
theorem removed_silent (hw : machine.Reachable w) :
    (∀ id, w.removed id → id ∉ ids w.store → w.Silent id) ∧
      ∀ del, w.deletion = some del →
        del.stage ∈ [.settingsForget, .schemaForget, .forgetPeer, .storeDelete] →
        w.Silent del.entry.deviceId := by
  have hinv : Quiesced w := by
    refine hw.invariant (fun w h => ?_) fun _ _ _ h hs => h.step hs
    obtain ⟨hsched, hdel, hout, -⟩ := h
    exact ⟨hsched ▸ .init rfl, fun id hrem => by simp [Gateway.removed, hout] at hrem,
      fun _ hd => by simp [hdel] at hd⟩
  have hsilent {id : DeviceId} (h : Silenced w.scheduler.ctrl id.text) : w.Silent id :=
    fun _ => h.not_inflight (Scheduler.tables_inv hinv.scheduler)
  refine ⟨fun id hrem hgone => hsilent (hinv.removed id hrem hgone), fun del hdel hstage => ?_⟩
  have hrelies := (hinv.current del hdel).2
  simp only [List.mem_cons, List.not_mem_nil, or_false] at hstage
  rcases hstage with hstage | hstage | hstage | hstage <;> rw [hstage] at hrelies <;>
    exact hsilent hrelies

theorem removed_silent_deleteAll : ∃ w, machine.Reachable w ∧ w.removed lamp ∧ w.Silent lamp := by
  have hrun : (machine.run fresh (.add { deviceId := lamp } {} :: deleteAll)).map (fun w =>
      decide (.publishRemoved lamp ∈ w.outcomes ∧ lamp ∉ ids w.store)) = some true := by
    decide +kernel
  obtain ⟨w, hw, hp⟩ := Machine.exists_reachable_of_run fresh_init hrun
  obtain ⟨hrem, hgone⟩ := of_decide_eq_true hp
  exact ⟨w, hw, hrem, (removed_silent hw).1 lamp hrem hgone⟩

end BleGateway.Management
