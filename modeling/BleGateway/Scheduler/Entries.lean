import BleGateway.Scheduler.Blocking

/-! # The entries of the device table

A submit, a lease request and a block make an entry for a device that has none. No section gives an
entry back: the table holds the devices that were named first, whether they have work or not. Beside
the run this file keeps the list of their ids.
-/

namespace BleGateway.Scheduler

/-! ## Which calls need an entry -/

/-- The device that a submit or a lease request looks up or makes an entry for, when it passes the
checks in front. -/
def entryFor (g : CtrlState) : Label → Option CString
  | .submit (some job) completion _ _ =>
      if completion = 0 ∨ job.deviceId = [] then none
      else if job.dedupe ≠ .none ∧ job.priority ≠ .background then none
      else if g.running = false then none
      else some job.deviceId
  | .acquireLease (some r) completion _ =>
      r.deviceId.bind fun id =>
        if completion = 0 ∨ id = [] then none
        else if g.running = false then none
        else some id
  | _ => none

/-- The device that a call makes an entry for. -/
def namedBy (g : CtrlState) : Label → Option CString
  | .blockDevice id => id.filter fun id => id ≠ []
  | l => entryFor g l

/-- The call fails for lack of an entry. -/
def Lacks (g : CtrlState) (l : Label) : Prop :=
  ∃ id ∈ entryFor g l, (findOrCreateDevice g id).2 = none

/-- The first ids for which an entry is made, in order. -/
def register (ids : List CString) (id : CString) : List CString :=
  if id ∈ ids ∨ DEVICE_CTRL_MAX_DEVICES ≤ ids.length then ids
  else ids ++ [(strlcpy DEVICE_ID_MAX_LEN id).text]

/-- The scheduler beside the list of the ids. -/
def listing : Machine (Sys × List CString) Label where
  init s := s = (boot, [])
  step s l := (s.1.step l).map fun t => (t, (namedBy s.1.ctrl l).elim s.2 (register s.2))

/-! ## Sections that make no entry -/

/-- The entries of `g'` are those of `g`. -/
def SameEntries (g g' : CtrlState) : Prop :=
  ∀ d, (g'.devices d).used = (g.devices d).used ∧ (g'.devices d).deviceId = (g.devices d).deviceId

theorem SameEntries.refl (g : CtrlState) : SameEntries g g := fun _ => ⟨rfl, rfl⟩

variable {g : CtrlState} {ids : List CString}

theorem SameEntries.of_eq {g' : CtrlState} (h : g'.devices = g.devices) : SameEntries g g' :=
  fun d => by
    rw [h]
    exact ⟨rfl, rfl⟩

theorem SameEntries.trans {g' g'' : CtrlState} (h : SameEntries g g') (h' : SameEntries g' g'') :
    SameEntries g g'' := fun d => ⟨(h' d).1.trans (h d).1, (h' d).2.trans (h d).2⟩

/-- One entry is written and keeps its device. -/
theorem SameEntries.setDevice (g : CtrlState) {d : DevIx} {e : Device}
    (hu : e.used = (g.devices d).used) (hid : e.deviceId = (g.devices d).deviceId) :
    SameEntries g (g.setDevice d e) := fun d' => entries_update hu hid d'

theorem cancelLease_entries (g : CtrlState) (i : DevIx) : SameEntries g (cancelLease g i) := by
  unfold cancelLease
  dsimp only
  split
  · have h : SameEntries g (g.setDevice (g.leases i).deviceIndex
        { g.devices (g.leases i).deviceIndex with lease := 0 }) := .setDevice g rfl rfl
    exact h.trans (.of_eq rfl)
  · exact .of_eq rfl

theorem cancelLeases_entries (sel : Selector) (g : CtrlState) :
    SameEntries g (cancelLeases sel g) := by
  unfold cancelLeases
  generalize List.finRange DEVICE_CTRL_MAX_DEVICES = l
  induction l generalizing g with
  | nil => exact .refl g
  | cons i l ih =>
      rw [List.foldl_cons]
      split
      · exact (cancelLease_entries g i).trans (ih _)
      · exact ih g

theorem cancelMatch_entries (sel : Selector) (g : CtrlState) :
    SameEntries g (cancelMatch sel g).1 := by
  have h : SameEntries g (cancelSlots sel g) := .of_eq rfl
  unfold cancelMatch
  dsimp only
  exact h.trans (cancelLeases_entries sel _)

theorem Cancels.entries {g' : CtrlState} (h : Cancels g g') : SameEntries g g' := by
  rcases h with h | ⟨sel, h⟩ <;> rw [h]
  · exact .refl g
  · exact cancelMatch_entries sel g

theorem unblockDevice_entries (g : CtrlState) (id : Option CString) :
    SameEntries g (unblockDevice g id).1 := by
  unfold unblockDevice
  split
  · exact .refl g
  · split
    · exact .setDevice g rfl rfl
    · exact .refl g

theorem releaseLease_entries (g : CtrlState) (id : UInt32) :
    SameEntries g (releaseLease g id).1 := by
  rcases releaseLease_cases g id with h | ⟨i, -, h⟩ <;> rw [h]
  · exact .refl g
  · exact SameEntries.setDevice g rfl rfl

theorem processLease_entries (g : CtrlState) (i : DevIx) : SameEntries g (processLease g i).1 := by
  unfold processLease
  dsimp only
  split
  · exact .of_eq rfl
  · split
    · have h : SameEntries g (g.setDevice (g.leases i).deviceIndex
          { g.devices (g.leases i).deviceIndex with lease := (g.leases i).id }) :=
        .setDevice g rfl rfl
      exact h.trans (.of_eq rfl)
    · exact .refl g
  · exact .refl g

theorem completeSlot_entries (g : CtrlState) (i : SlotIx) : SameEntries g (completeSlot g i).1 := by
  unfold completeSlot
  dsimp only
  split
  · exact .refl g
  · have h : SameEntries g (releaseTransport g i) := releaseTransport_entries g i
    exact h.trans (.of_eq rfl)

theorem dispatchOne_entries (g : CtrlState) : SameEntries g (dispatchOne g).1 := by
  unfold dispatchOne
  split
  · exact .refl g
  · split
    · exact .refl g
    · exact startDispatch_entries g _

theorem dispatchFailed_entries (g : CtrlState) (i : SlotIx) (err : EspErr) :
    SameEntries g (dispatchFailed g i err) := by
  unfold dispatchFailed
  dsimp only
  split
  · exact .of_eq rfl
  · exact .refl g

theorem dcsComplete_entries (g : CtrlState) (k : SlotIx) (result : Option DeviceCommandResult) :
    SameEntries g (dcsComplete g k result) := by
  unfold dcsComplete
  dsimp only
  split
  · split
    · exact .refl g
    · exact .of_eq rfl
  · exact .refl g

theorem afterDispatch_entries (s : Sys) (final : Bool) (n : Fin DEVICE_CTRL_MAX_INFLIGHT) :
    SameEntries s.ctrl (s.afterDispatch final n).ctrl := by
  obtain ⟨w, stopped, he, -⟩ := afterDispatch_eq s final n
  rw [he]
  exact .of_eq rfl

/-- **The worker** makes no entry. -/
theorem procStep_entries (s : Sys) (final : Bool) (pc : ProcPc) (now : Int) (answer : EspErr) :
    SameEntries s.ctrl (s.procStep final pc now answer).ctrl := by
  cases pc with
  | promote | completeClear => exact .of_eq rfl
  | lease i => exact processLease_entries s.ctrl i
  | leaseCall | completeCall => exact .refl _
  | complete i => exact completeSlot_entries s.ctrl i
  | dispatch n =>
      simp only [Sys.procStep]
      split
      · exact dispatchOne_entries s.ctrl
      · exact (dispatchOne_entries s.ctrl).trans (afterDispatch_entries _ final n)
  | submitting n i =>
      simp only [Sys.procStep]
      split
      · exact afterDispatch_entries _ final n
      · exact .refl _
  | rejected n i err =>
      exact (dispatchFailed_entries s.ctrl i err).trans (afterDispatch_entries _ final n)

/-! ## Sections that make one -/

/-- The table after the lookup of a call. -/
def lookedUp (g : CtrlState) (l : Label) : CtrlState :=
  (namedBy g l).elim g fun id => (findOrCreateDevice g id).1

theorem enqueue_entries (g : CtrlState) (job : Job) (completion context : Ptr) (device : DevIx)
    (now : Int) : SameEntries g (enqueue g job completion context device now).1 := by
  unfold enqueue
  split
  · exact .refl g
  · exact .of_eq rfl

theorem submit_entries (g : CtrlState) (job : Option Job) (completion context : Ptr) (now : Int) :
    SameEntries (lookedUp g (.submit job completion context now))
      (submit g job completion context now).1 := by
  unfold lookedUp namedBy entryFor submit
  cases job with
  | none => exact .refl g
  | some job =>
      dsimp only
      split
      · exact .refl g
      · split
        · exact .refl g
        · split
          · exact .refl g
          · rw [Option.elim_some]
            rcases hfound : findOrCreateDevice g job.deviceId with ⟨g', _ | device⟩
            · exact .refl g'
            · dsimp only
              split
              · exact enqueue_entries g' job completion context device now
              · split
                · exact .refl g'
                · exact enqueue_entries g' job completion context device now
              · exact enqueue_entries (supersede g' job) job completion context device now

theorem acquireLease_entries (g : CtrlState) (request : Option LeaseRequest)
    (completion context : Ptr) :
    SameEntries (lookedUp g (.acquireLease request completion context))
      (acquireLease g request completion context).1 := by
  unfold lookedUp namedBy entryFor acquireLease
  cases request with
  | none => exact .refl g
  | some r =>
      dsimp only
      cases hid : r.deviceId with
      | none => exact .refl g
      | some id =>
          rw [Option.bind_some]
          dsimp only
          split
          · exact .refl g
          · split
            · exact .refl g
            · rw [Option.elim_some]
              rcases hfound : findOrCreateDevice g id with ⟨g', _ | device⟩
              · exact .refl g'
              · dsimp only
                split
                · exact .refl g'
                · exact .of_eq rfl

theorem blockDevice_entries (g : CtrlState) (id : Option CString) :
    SameEntries (lookedUp g (.blockDevice id)) (blockDevice g id).1 := by
  unfold lookedUp namedBy
  dsimp only
  cases id with
  | none => exact .refl g
  | some id =>
      cases id with
      | nil => exact .refl g
      | cons c id =>
          rw [Option.filter_some_pos (by simp), Option.elim_some]
          unfold blockDevice
          dsimp only
          rcases hfound : findOrCreateDevice g (c :: id) with ⟨g', _ | device⟩
          · exact .refl g'
          · exact .setDevice g' rfl rfl

/-- **A step** leaves the entries as its lookup left them. -/
theorem step_lookedUp {s s' : Sys} {l : Label} (h : s.step l = some s') :
    SameEntries (lookedUp s.ctrl l) s'.ctrl := by
  cases l with
  | submit job completion context now =>
      obtain ⟨jobs, ticket, rfl⟩ := step_submit h
      exact submit_entries s.ctrl job completion context now
  | acquireLease request completion context =>
      obtain ⟨requests, ticket, rfl⟩ := step_acquire h
      exact acquireLease_entries s.ctrl request completion context
  | blockDevice id =>
      cases h
      exact blockDevice_entries s.ctrl id
  | unblockDevice id =>
      cases h
      exact unblockDevice_entries s.ctrl id
  | cancelJob | cancelSource | cancelDevice =>
      obtain ⟨g, rfl, hc⟩ := step_cancels h rfl
      exact hc.entries
  | releaseLease id =>
      cases h
      exact releaseLease_entries s.ctrl id
  | worker now answer =>
      rcases step_worker h with ⟨-, rfl⟩ | ⟨final, pc, -, rfl⟩
      · exact .refl _
      · exact procStep_entries s _ _ now answer
  | dcsComplete k result =>
      obtain ⟨-, ⟨⟩⟩ := Option.ite_none_right_eq_some.mp h
      exact dcsComplete_entries s.ctrl k result
  | deinitMark | deinitStop | deinitReturn =>
      obtain ⟨-, ⟨⟩⟩ := Option.ite_none_right_eq_some.mp h
      exact .of_eq rfl

/-! ## The list of the ids -/

/-- The list holds the ids of the entries in use. -/
structure Registered (g : CtrlState) (ids : List CString) : Prop where
  entries : ∀ id, (∃ d, (g.devices d).used = true ∧ (g.devices d).deviceId.text = id) ↔ id ∈ ids
  count : Table.count Device.used g.devices = ids.length

theorem Registered.same {g' : CtrlState} (h : Registered g ids) (hs : SameEntries g g') :
    Registered g' ids where
  entries id := by
    rw [← h.entries id]
    simp only [(hs _).1, (hs _).2]
  count := by
    rw [← h.count]
    exact Table.count_congr fun d => (hs d).1

theorem Registered.boot : Registered boot.ctrl [] where
  entries id := by
    refine iff_of_false ?_ (by simp)
    rintro ⟨d, hused, _⟩
    exact absurd hused (by simp [Scheduler.boot, init])
  count := Table.count_eq_zero fun _ => rfl

/-- A device is found exactly if its id is listed. -/
theorem Registered.findDevice (h : Registered g ids) (id : CString) :
    (Scheduler.findDevice g id).isSome = true ↔ id ∈ ids := by
  rw [← h.entries id]
  unfold Scheduler.findDevice
  rw [Fin.isSome_find?_iff]
  simp

/-- There is an unused entry exactly if the list is shorter than the table. -/
theorem Registered.freeDevice (h : Registered g ids) :
    (Scheduler.freeDevice g).isSome = true ↔ ids.length < DEVICE_CTRL_MAX_DEVICES := by
  unfold Scheduler.freeDevice
  rw [Fin.isSome_find?_iff, ← h.count]
  constructor
  · rintro ⟨d, hd⟩
    exact Table.count_lt_of (i := d) (by simpa using hd)
  · intro hlt
    by_contra hnone
    have hall : ∀ d, (g.devices d).used = true := by
      intro d
      by_contra hd
      exact hnone ⟨d, by simpa using hd⟩
    rw [Table.count_eq_card hall] at hlt
    exact Nat.lt_irrefl _ hlt

/-- **A lookup fails** exactly if the id is not listed and the list is as long as the table. -/
theorem Registered.lacks_iff (h : Registered g ids) (id : CString) :
    (findOrCreateDevice g id).2 = none ↔ ¬ (id ∈ ids ∨ ids.length < DEVICE_CTRL_MAX_DEVICES) := by
  rw [← h.findDevice id, ← h.freeDevice, not_or]
  unfold findOrCreateDevice
  cases Scheduler.findDevice g id with
  | some d => simp
  | none => cases Scheduler.freeDevice g <;> simp

/-- A lookup registers its device. -/
theorem Registered.lookup (h : Registered g ids) (id : CString) :
    Registered (findOrCreateDevice g id).1 (register ids id) := by
  have hfind := h.findDevice id
  have hfree := h.freeDevice
  unfold findOrCreateDevice register
  cases hd : Scheduler.findDevice g id with
  | some d =>
      rw [hd] at hfind
      rw [if_pos (.inl (hfind.mp rfl))]
      exact h
  | none =>
      rw [hd] at hfind
      have hnew : id ∉ ids := fun hmem => absurd (hfind.mpr hmem) (by simp)
      cases hf : Scheduler.freeDevice g with
      | none =>
          rw [hf] at hfree
          have hfull : DEVICE_CTRL_MAX_DEVICES ≤ ids.length :=
            Nat.le_of_not_lt fun hlt => absurd (hfree.mpr hlt) (by simp)
          rw [if_pos (.inr hfull)]
          exact h
      | some d =>
          rw [hf] at hfree
          have hlt : ids.length < DEVICE_CTRL_MAX_DEVICES := hfree.mp rfl
          have hunused : (g.devices d).used = false := (freeDevice_spec hf).1
          rw [if_neg (by
            rintro (hmem | hle)
            · exact hnew hmem
            · omega)]
          constructor
          · intro id'
            rw [List.mem_append, List.mem_singleton, ← h.entries id']
            simp only [CtrlState.setDevice_devices]
            constructor
            · rintro ⟨d', hused, htext⟩
              by_cases hdd : d' = d
              · subst hdd
                rw [Function.update_self] at htext
                exact .inr htext.symm
              · rw [Function.update_of_ne hdd] at hused htext
                exact .inl ⟨d', hused, htext⟩
            · rintro (⟨d', hused, htext⟩ | rfl)
              · have hdd : d' ≠ d := by
                  rintro rfl
                  rw [hunused] at hused
                  cases hused
                exact ⟨d', by rw [Function.update_of_ne hdd]; exact ⟨hused, htext⟩⟩
              · exact ⟨d, by rw [Function.update_self]; exact ⟨rfl, rfl⟩⟩
          · rw [List.length_append, ← h.count]
            exact Table.count_update_of_false hunused rfl

/-! ## Runs -/

/-- No submit and no lease request of the run fails for lack of an entry. -/
def EntriesSuffice (ls : List Label) : Prop :=
  ∀ ks l t, ks ++ [l] <+: ls → machine.run boot ks = some t → ¬ Lacks t.ctrl l

/-- The submits and lease requests of the run are for the devices that were named first, as many as
the table has entries. -/
def NamedFirst (ls : List Label) : Prop :=
  ∀ ks l x, ks ++ [l] <+: ls → listing.run (boot, []) ks = some x →
    ∀ id ∈ entryFor x.1.ctrl l, id ∈ x.2 ∨ x.2.length < DEVICE_CTRL_MAX_DEVICES

/-- The entry is for a device with work, a lease or a block. -/
def busy (g : CtrlState) (d : DevIx) : Bool :=
  (g.devices d).used &&
    ((g.devices d).blocked || (g.devices d).transportInflight || (g.devices d).lease ≠ 0 ||
      (List.finRange DEVICE_CTRL_MAX_JOBS).any (fun i =>
        (g.slots i).state ≠ .free && (g.slots i).deviceIndex = d) ||
      (List.finRange DEVICE_CTRL_MAX_DEVICES).any fun i =>
        (g.leases i).state ≠ .free && (g.leases i).deviceIndex = d)

/-- With the device of every submit and lease request, no more devices are busy than the table has
entries. -/
def WithinTable (ls : List Label) : Prop :=
  ∀ ks l t, ks ++ [l] <+: ls → machine.run boot ks = some t → ∀ id ∈ entryFor t.ctrl l,
    (findDevice t.ctrl id).any (busy t.ctrl) = true ∨
      ((List.finRange DEVICE_CTRL_MAX_DEVICES).filter (busy t.ctrl)).length <
        DEVICE_CTRL_MAX_DEVICES

/-- The list goes along with every run. -/
theorem listing_run {ks : List Label} {s t : Sys} (h : machine.run s ks = some t)
    (ids : List CString) : ∃ ids', listing.run (s, ids) ks = some (t, ids') := by
  induction ks generalizing s ids with
  | nil =>
      cases h
      exact ⟨ids, rfl⟩
  | cons l ks ih =>
      obtain ⟨s', hstep, hrest⟩ := Option.bind_eq_some_iff.mp h
      have hlisting : listing.step (s, ids) l =
          some (s', (namedBy s.ctrl l).elim ids (register ids)) := by
        have hs : s.step l = some s' := hstep
        show (s.step l).map _ = _
        rw [hs]
        rfl
      obtain ⟨ids', hids'⟩ := ih hrest ((namedBy s.ctrl l).elim ids (register ids))
      exact ⟨ids', Option.bind_eq_some_iff.mpr ⟨_, hlisting, hids'⟩⟩

theorem run_of_listing {ks : List Label} {x y : Sys × List CString}
    (h : listing.run x ks = some y) : machine.run x.1 ks = some y.1 := by
  induction ks generalizing x with
  | nil =>
      cases h
      rfl
  | cons l ks ih =>
      obtain ⟨x', hstep, hrest⟩ := Option.bind_eq_some_iff.mp h
      obtain ⟨s', hs', rfl⟩ := Option.map_eq_some_iff.mp hstep
      exact Option.bind_eq_some_iff.mpr ⟨s', hs', ih hrest⟩

/-- One step keeps the list. -/
theorem registered_step {x y : Sys × List CString} {l : Label} (hx : Registered x.1.ctrl x.2)
    (h : listing.step x l = some y) : Registered y.1.ctrl y.2 := by
  obtain ⟨t, ht, rfl⟩ := Option.map_eq_some_iff.mp h
  have hlooked : Registered (lookedUp x.1.ctrl l)
      ((namedBy x.1.ctrl l).elim x.2 (register x.2)) := by
    unfold lookedUp
    cases namedBy x.1.ctrl l with
    | none => exact hx
    | some id => exact hx.lookup id
  exact hlooked.same (step_lookedUp ht)

/-- In every run the list holds the ids of the entries in use. -/
theorem registered_run {ks : List Label} {x : Sys × List CString}
    (h : listing.run (boot, []) ks = some x) : Registered x.1.ctrl x.2 :=
  Machine.run_induction (fun _ _ _ hx hstep => registered_step hx hstep) Registered.boot h

theorem lacks_iff (h : Registered g ids) (l : Label) :
    ¬ Lacks g l ↔ ∀ id ∈ entryFor g l, id ∈ ids ∨ ids.length < DEVICE_CTRL_MAX_DEVICES := by
  unfold Lacks
  constructor
  · intro hno id hid
    by_contra hnot
    exact hno ⟨id, hid, (h.lacks_iff id).mpr hnot⟩
  · rintro hall ⟨id, hid, hnone⟩
    exact (h.lacks_iff id).mp hnone (hall id hid)

/-- **The entries suffice** exactly in the runs whose submits and lease requests are for the devices
that were named first. -/
theorem entries_suffice_iff (ls : List Label) : EntriesSuffice ls ↔ NamedFirst ls := by
  constructor
  · intro h ks l x hks hrun
    have hmachine : machine.run boot ks = some x.1 := run_of_listing hrun
    exact (lacks_iff (registered_run hrun) l).mp (h ks l x.1 hks hmachine)
  · intro h ks l t hks hrun
    obtain ⟨ids, hids⟩ := listing_run hrun []
    exact (lacks_iff (registered_run hids) l).mpr (h ks l (t, ids) hks hids)

/-! ## Devices that come and go -/

/-- A device is blocked and unblocked. -/
def visit (c : UInt8) : List Label := [.blockDevice (some [c]), .unblockDevice (some [c])]

/-- As many devices as the table has entries, one after the other. -/
def visits : List Label :=
  ((List.range DEVICE_CTRL_MAX_DEVICES).map fun n => UInt8.ofNat (n + 1)).flatMap visit

/-- A job for another device. -/
def late : Label := .submit (some { request := { deviceId := ⟨[65], by decide⟩ } }) 1 0 0

set_option maxRecDepth 10000 in
/-- **Sixteen devices that are done with** leave no entry for a seventeenth. -/
theorem entries_do_not_suffice : ¬ ∀ ls, WithinTable ls → EntriesSuffice ls := by
  intro h
  obtain ⟨t, hrun, hend⟩ : ∃ t, machine.run boot visits = some t ∧
      decide (((List.finRange DEVICE_CTRL_MAX_DEVICES).filter (busy t.ctrl)).length = 0 ∧
        entryFor t.ctrl late = some [65] ∧ (findOrCreateDevice t.ctrl [65]).2 = none) = true :=
    Option.map_eq_some_iff.mp (by decide :
      (machine.run boot visits).map (fun t => decide (((List.finRange
        DEVICE_CTRL_MAX_DEVICES).filter (busy t.ctrl)).length = 0 ∧
        entryFor t.ctrl late = some [65] ∧ (findOrCreateDevice t.ctrl [65]).2 = none)) = some true)
  obtain ⟨hidle, hentry, hnone⟩ := of_decide_eq_true hend
  have hquiet : ∀ l ∈ visits, ∀ g, entryFor g l = none := by
    intro l hl g
    obtain ⟨c, _, hc⟩ := List.mem_flatMap.mp hl
    rcases List.mem_cons.mp hc with rfl | hc
    · rfl
    · rw [List.mem_singleton.mp hc]
      rfl
  have hwithin : WithinTable (visits ++ [late]) := by
    intro ks l t' hks hrun' id hid
    rcases List.prefix_concat_iff.mp hks with heq | hprefix
    · -- the job comes when no device is busy
      obtain ⟨rfl, _⟩ := List.append_inj' heq rfl
      cases hrun.symm.trans hrun'
      right
      rw [hidle]
      decide
    · have hmem : l ∈ visits := hprefix.subset (by simp)
      rw [hquiet l hmem] at hid
      exact absurd hid (by simp)
  exact h _ hwithin visits late t (List.prefix_refl _) hrun ⟨[65], hentry, hnone⟩

end BleGateway.Scheduler
