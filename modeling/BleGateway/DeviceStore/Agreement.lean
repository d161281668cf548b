import BleGateway.DeviceStore.CrashAtomicity
import BleGateway.DeviceStore.Uniqueness

/-! # The cache and the flash storage

The operations keep the list in the cache and the records in NVS apart from each other: each writes
the records it changes, a delete moves every record behind the deleted one down. As long as the
calls succeed the two never drift: a fresh load gives the cached list, and finds nothing to rewrite.
-/

namespace BleGateway.DeviceStore

open Crash (applyAll)

variable {nvs : Nvs} {entries : List Entry} {e : Entry} {i : Nat}

/-! ## Records and metadata -/

/-- Every entry has its record. -/
structure Recorded (nvs : Nvs) (entries : List Entry) : Prop where
  room : entries.length ≤ DEVICE_STORE_MAX_DEVICES
  records : ∀ (i : Nat) (e : Entry), entries[i]? = some e → Holds nvs i e ∧ e.Named

theorem Stored.recorded (h : Stored nvs entries) : Recorded nvs entries :=
  ⟨h.room, fun _ _ he => h.holds he⟩

/-- A load of a stored list rewrites nothing. -/
theorem Stored.nvsLoad (h : Stored nvs entries) : nvsLoad nvs = .ok (entries, []) := by
  obtain ⟨calls, hload⟩ := loads_eq_some.mp h.loads
  obtain ⟨v, n, hv, -, hn, -, -, rfl⟩ := nvsLoad_eq_ok.mp hload
  obtain rfl := Except.ok.inj (hv.symm.trans (storedVersion_of_u8 h.version))
  obtain rfl := Except.ok.inj (hn.symm.trans (storedCount_of_u8 h.count))
  rw [hload, rewrite, if_neg]
  rw [toNat_count h.room]
  simp

/-- The calls that end an operation leave the fields of the records. -/
theorem field_saveMetadata (n : Nat) (f : Field) (i : Nat) :
    applyAll storage (saveMetadata n ++ [.commit]) nvs (.field f i) = nvs (.field f i) := by
  refine applyAll_of_ne (fun c hc => ?_) nvs
  simp only [saveMetadata, List.mem_append, List.mem_cons, List.not_mem_nil, or_false] at hc
  rcases hc with (rfl | rfl) | rfl <;> simp [Call.key]

/-- With its count and the version written a recorded list is stored. -/
theorem Recorded.stored (h : Recorded nvs entries) :
    Stored (applyAll storage (saveMetadata entries.length ++ [.commit]) nvs) entries where
  version := rfl
  count := rfl
  room := h.room
  records i e he := by
    obtain ⟨hholds, hnamed⟩ := h.records i e he
    refine loadEntryV3_eq_ok.mpr ⟨fun f hf => ?_, hnamed⟩
    rw [field_saveMetadata]
    exact hholds f hf

/-! ## The writing functions -/

theorem field_saveEntry_of_ne {j : Nat} (hij : i ≠ j) (f : Field) :
    applyAll storage (saveEntry j e) nvs (.field f i) = nvs (.field f i) := by
  refine applyAll_of_ne (fun c hc => ?_) nvs
  obtain ⟨g, hg⟩ := writes_of_mem_saveEntry hc
  rw [hg.key]
  exact fun he => hij (Key.field.inj (Option.some.inj he)).2.symm

theorem holds_saveEntry : Holds (applyAll storage (saveEntry i e) nvs) i e := by
  intro f hf
  rw [saveEntry_eq, applyAll_fields hf, if_pos (mem_fieldOrder f)]

theorem Recorded.concat (h : Recorded nvs entries)
    (hroom : entries.length < DEVICE_STORE_MAX_DEVICES)
    (hholds : Holds nvs entries.length e) (hnamed : e.Named) : Recorded nvs (entries ++ [e]) := by
  have hlen : (entries ++ [e]).length = entries.length + 1 := by simp
  refine ⟨hlen ▸ hroom, fun i e' he => ?_⟩
  by_cases hi : i < entries.length
  · rw [List.getElem?_append_left hi] at he
    exact h.records i e' he
  · have hi' := (List.getElem?_eq_some_iff.mp he).1
    obtain rfl : i = entries.length := by omega
    rw [List.getElem?_concat_length, Option.some.injEq] at he
    exact he ▸ ⟨hholds, hnamed⟩

/-- **An append** stores the list with the new entry at its end. -/
theorem Recorded.append (h : Recorded nvs entries)
    (hroom : entries.length < DEVICE_STORE_MAX_DEVICES) (hnamed : e.Named) :
    Stored (applyAll storage (nvsAppend entries.length (entries.length + 1) e) nvs)
      (entries ++ [e]) := by
  have hrecorded : Recorded (applyAll storage (saveEntry entries.length e) nvs)
      (entries ++ [e]) := by
    refine Recorded.concat ⟨h.room, fun i e' he => ?_⟩ hroom holds_saveEntry hnamed
    obtain ⟨hholds, hnamed'⟩ := h.records i e' he
    have hi := (List.getElem?_eq_some_iff.mp he).1
    exact ⟨fun f hf => by rw [field_saveEntry_of_ne (Nat.ne_of_lt hi), hholds f hf], hnamed'⟩
  have hstored := hrecorded.stored
  rw [List.length_append, List.length_singleton, ← Crash.applyAll_append,
    ← List.append_assoc] at hstored
  exact hstored

/-- **An update** stores the list with the entry replaced. -/
theorem Stored.update (h : Stored nvs entries) (i : Nat) (hnamed : e.Named) :
    Stored (applyAll storage (nvsUpdate i e) nvs) (entries.set i e) := by
  have hsaved := h.saveEntry i hnamed
  rw [nvsUpdate, Crash.applyAll_append]
  exact hsaved

/-- What a delete writes does not concern the records in front of the deleted one. -/
theorem field_shifts_of_lt {l : List Entry} {j m : Nat} (hji : j < i) (f : Field) :
    applyAll storage (shifts l i m) nvs (.field f j) = nvs (.field f j) := by
  refine applyAll_of_ne (fun c hc => ?_) nvs
  obtain ⟨k, hk, hc⟩ := List.mem_flatMap.mp hc
  obtain ⟨g, hg⟩ := writes_of_mem_saveEntry hc
  rw [hg.key]
  have hik := (List.mem_range'_1.mp hk).1
  exact fun he => absurd (Key.field.inj (Option.some.inj he)).2 (by omega)

theorem field_eraseEntry_of_ne {j : Nat} (hij : i ≠ j) (f : Field) :
    applyAll storage (eraseEntry j) nvs (.field f i) = nvs (.field f i) := by
  refine applyAll_of_ne (fun c hc => ?_) nvs
  obtain ⟨g, -, rfl⟩ := List.mem_map.mp hc
  exact fun he => hij (Key.field.inj (Option.some.inj he)).2.symm

/-- **A delete** stores the list without the entry, the records behind it moved down. -/
theorem Stored.delete (h : Stored nvs entries) (hi : i < entries.length) :
    Stored (applyAll storage (nvsDelete i (entries.eraseIdx i) entries.length) nvs)
      (entries.eraseIdx i) := by
  have hlen : (entries.eraseIdx i).length = entries.length - 1 := List.length_eraseIdx_of_lt hi
  obtain ⟨l, hl, -, hmoved⟩ := shifts_stored (i := i) h (m := entries.length - 1 - i) (by omega)
  have hrecorded : Recorded (applyAll storage (eraseEntry (entries.length - 1))
      (applyAll storage (shifts (entries.eraseIdx i) i (entries.length - 1 - i)) nvs))
      (entries.eraseIdx i) := by
    have hroom := h.room
    refine ⟨by omega, fun j e he => ?_⟩
    have hj := (List.getElem?_eq_some_iff.mp he).1
    have hholds : Holds (applyAll storage
        (shifts (entries.eraseIdx i) i (entries.length - 1 - i)) nvs) j e ∧ e.Named := by
      by_cases hji : j < i
      · rw [List.getElem?_eraseIdx_of_lt hji] at he
        obtain ⟨hold, hnamed⟩ := h.holds he
        refine ⟨fun f hf => ?_, hnamed⟩
        rw [field_shifts_of_lt hji, hold f hf]
      · rw [List.getElem?_eraseIdx_of_ge (Nat.le_of_not_lt hji)] at he
        exact hl.holds ((hmoved j (by omega) (by omega)).trans he)
    refine ⟨fun f hf => ?_, hholds.2⟩
    rw [field_eraseEntry_of_ne (by omega), hholds.1 f hf]
  have hstored := hrecorded.stored
  have hcalls : nvsDelete i (entries.eraseIdx i) entries.length =
      .openNvs :: (shifts (entries.eraseIdx i) i (entries.length - 1 - i) ++
        (eraseEntry (entries.length - 1) ++
          (saveMetadata (entries.length - 1) ++ [.commit]))) := by
    simp [nvsDelete, shifts]
  rw [hlen, ← Crash.applyAll_append, ← Crash.applyAll_append] at hstored
  rw [hcalls, Crash.applyAll_cons]
  exact hstored

/-! ## The operations -/

theorem validText_spec {value : CString} {n : Nat} (h : validText value n = true) :
    value ≠ [] ∧ value.length < n := by
  rw [validText, Bool.and_eq_true, decide_eq_true_eq, decide_eq_true_eq] at h
  exact ⟨List.ne_nil_of_length_pos h.1, h.2⟩

theorem named_entryCreate {id name : CString} (h : entryCreate id name = some e) : e.Named := by
  rw [entryCreate] at h
  split at h
  · rename_i hvalid
    rw [Bool.and_eq_true] at hvalid
    obtain ⟨hid, hidlen⟩ := validText_spec hvalid.1
    obtain ⟨hname, hnamelen⟩ := validText_spec hvalid.2
    cases h
    refine ⟨?_, ?_⟩
    · rwa [strlcpy_text hidlen]
    · rwa [strlcpy_text hnamelen]
  · cases h

theorem named_entryEdit {old : Entry} (hold : old.Named) {newName : CString}
    (h : entryEdit old newName = some e) : e.Named := by
  rw [entryEdit] at h
  split at h
  · rename_i hvalid
    obtain ⟨hname, hlen⟩ := validText_spec hvalid
    cases h
    refine ⟨hold.1, ?_⟩
    rwa [strlcpy_text hlen]
  · cases h

/-- What a load finds is the cached list: the list is stored, or there is no device and not even a
count. -/
def Synced (nvs : Nvs) (entries : List Entry) : Prop :=
  Stored nvs entries ∨ entries = [] ∧ nvsLoad nvs = .ok ([], [])

theorem Synced.recorded (h : Synced nvs entries) : Recorded nvs entries := by
  rcases h with h | ⟨rfl, -⟩
  · exact h.recorded
  · exact ⟨Nat.zero_le _, fun i e he => by simp at he⟩

/-- A store in which a device is found is stored. -/
theorem Synced.stored_of_find {id : CString} (h : Synced nvs entries)
    (hi : findUnlocked entries id = some i) : Stored nvs entries := by
  rcases h with h | ⟨rfl, -⟩
  · exact h
  · cases hi

theorem Synced.add (h : Synced nvs entries) (id name : CString) :
    Synced (applyAll storage (add entries id name).calls nvs) (add entries id name).after := by
  rw [DeviceStore.add]
  split
  · exact h
  · rename_i e hcreate
    split
    · exact h
    · split
      · exact h
      · rename_i hroom
        exact Or.inl (h.recorded.append (Nat.lt_of_not_le hroom) (named_entryCreate hcreate))

theorem Synced.delete (h : Synced nvs entries) (id : CString) :
    Synced (applyAll storage (delete entries id).calls nvs) (delete entries id).after := by
  rw [DeviceStore.delete]
  split
  · exact h
  · rename_i i hi
    obtain ⟨hlt, -⟩ := List.findIdx?_eq_some_iff_getElem.mp hi
    exact Or.inl ((h.stored_of_find hi).delete hlt)

theorem Synced.edit (h : Synced nvs entries) (id newName : CString) :
    Synced (applyAll storage (edit entries id newName).calls nvs)
      (edit entries id newName).after := by
  rw [DeviceStore.edit]
  split
  · exact h
  · rename_i i hi
    have hstored := h.stored_of_find hi
    have hold := (hstored.holds (findUnlocked_spec hi)).2
    split
    · exact h
    · rename_i updated hedit
      exact Or.inl (hstored.update i (named_entryEdit hold hedit))

theorem Synced.setBleIdentity (h : Synced nvs entries) (id : CString) (identity : BleIdentity) :
    Synced (applyAll storage (setBleIdentity entries id identity).calls nvs)
      (setBleIdentity entries id identity).after := by
  rw [DeviceStore.setBleIdentity]
  split
  · exact h
  · split
    · exact h
    · rename_i i hi
      have hstored := h.stored_of_find hi
      have hold := (hstored.holds (findUnlocked_spec hi)).2
      dsimp only
      split
      · exact h
      · split
        · exact h
        · exact Or.inl (hstored.update i ⟨hold.1, hold.2⟩)

/-! ## Runs -/

/-- The flash storage and the cache, from the load of a store of the current version on. All NVS
calls succeed. -/
def device : Machine (Nvs × List Entry) Op where
  init s := ∃ nvs calls, storedVersion nvs = .ok DEVICE_STORE_SCHEMA_VERSION ∧
    nvsLoad nvs = .ok (s.2, calls) ∧ s.1 = applyAll storage calls nvs
  step s op := some (applyAll storage (op.effect s.2).calls s.1, (op.effect s.2).after)

theorem schemaVer_of_storedVersion (h : storedVersion nvs = .ok DEVICE_STORE_SCHEMA_VERSION) :
    nvs .schemaVer = some (.u8 DEVICE_STORE_SCHEMA_VERSION) := by
  rw [storedVersion] at h
  split at h
  · rename_i v hv
    cases h
    exact nvsGetU8_eq_ok.mp hv
  · -- a store without a version counts as the first one
    exact absurd (Except.ok.inj h) (by decide)
  · cases h

theorem count_of_storedCount {n : UInt8} (h : storedCount nvs = .ok n) (hpos : 0 < n.toNat) :
    nvs .count = some (.u8 n) := by
  rw [storedCount] at h
  split at h
  · rename_i m hm
    cases h
    exact nvsGetU8_eq_ok.mp hm
  · cases h
    exact absurd hpos (by decide)
  · cases h

/-- The load of a current store, with the calls it makes to compact corrupt records away. -/
theorem synced_of_load {calls : List Call}
    (hversion : storedVersion nvs = .ok DEVICE_STORE_SCHEMA_VERSION)
    (hload : nvsLoad nvs = .ok (entries, calls)) : Synced (applyAll storage calls nvs) entries := by
  obtain ⟨v, n, hv, -, hn, hroom, hrec, rfl⟩ := nvsLoad_eq_ok.mp hload
  obtain rfl := Except.ok.inj (hv.symm.trans hversion)
  have hlen : entries.length ≤ n.toNat := by simpa using loadRecords_length_le hrec
  have hnamed : ∀ (i : Nat) (e : Entry), entries[i]? = some e → e.Named := by
    intro i e he
    obtain ⟨j, -, hj⟩ := (mem_loadRecords_iff hrec).mp (List.mem_of_getElem? he)
    exact named_of_loadEntry (by decide) hj
  by_cases hfull : entries.length = n.toNat
  · -- nothing is rewritten
    have hcalls : rewrite DEVICE_STORE_SCHEMA_VERSION n.toNat entries = [] := by
      rw [rewrite, if_neg]
      simp [hfull]
    rw [hcalls] at hload ⊢
    by_cases hempty : entries = []
    · exact Or.inr ⟨hempty, hempty ▸ hload⟩
    · have hpos : 0 < n.toNat := hfull ▸ List.length_pos_iff.mpr hempty
      refine Or.inl ⟨schemaVer_of_storedVersion hversion, ?_, hfull ▸ hroom, fun i e he => ?_⟩
      · rw [hfull, UInt8.ofNat_toNat]
        exact count_of_storedCount hn hpos
      · have hi : i < n.toNat := hfull ▸ (List.getElem?_eq_some_iff.mp he).1
        rw [← loadEntry_current]
        exact loadRecords_full hrec (by simpa using hfull) (getElem?_range hi) he
  · obtain ⟨hcurrent, hholds⟩ := @rewrite_leaves nvs entries DEVICE_STORE_SCHEMA_VERSION
      n.toNat (Or.inr hfull) (Nat.le_trans hlen hroom)
    refine Or.inl ⟨hcurrent.version, hcurrent.count, hcurrent.room, fun i e he => ?_⟩
    exact loadEntryV3_eq_ok.mpr ⟨hholds i e he, hnamed i e he⟩

/-- **The cache is what is stored.** After any operations on a store of the current version whose
NVS calls succeed, a fresh load gives the cached list, and has nothing to rewrite. -/
theorem load_eq_cache {s : Nvs × List Entry} (hs : device.Reachable s) :
    nvsLoad s.1 = .ok (s.2, []) := by
  have hsynced : Synced s.1 s.2 := by
    refine hs.invariant (I := fun s => Synced s.1 s.2) ?_ fun s op s' h hstep => ?_
    · rintro ⟨nvs', entries⟩ ⟨nvs, calls, hversion, hload, rfl⟩
      exact synced_of_load hversion hload
    · cases hstep
      cases op with
      | add id name => exact h.add id name
      | delete id => exact h.delete id
      | edit id newName => exact h.edit id newName
      | setBleIdentity id identity => exact h.setBleIdentity id identity
  rcases hsynced with hstored | ⟨hempty, hload⟩
  · exact hstored.nvsLoad
  · rw [hempty]
    exact hload

/-- A device is deleted in front of another, a third one takes the free place, and the second one is
renamed and gets an identity. -/
def changes : List Op :=
  [.delete (cstr "lamp"), .add (cstr "fan") (cstr "Fan"), .edit (cstr "plug") (cstr "Plug"),
    .setBleIdentity (cstr "plug") ⟨#v[1, 2, 3, 4, 5, 6], 1⟩]

theorem load_eq_cache_changes : ∃ s : Nvs × List Entry,
    s.2.map (·.deviceId.text) = [cstr "plug", cstr "fan"] ∧ nvsLoad s.1 = .ok (s.2, []) := by
  have hload : nvsLoad (twoRecords (cstr "lamp") (cstr "plug")) =
      .ok ([⟨strlcpy _ (cstr "lamp"), strlcpy _ (cstr "Lamp"), none⟩,
        ⟨strlcpy _ (cstr "plug"), strlcpy _ (cstr "Lamp"), none⟩], []) := by rfl
  have hrun : ((device.run (twoRecords (cstr "lamp") (cstr "plug"),
      [⟨strlcpy _ (cstr "lamp"), strlcpy _ (cstr "Lamp"), none⟩,
        ⟨strlcpy _ (cstr "plug"), strlcpy _ (cstr "Lamp"), none⟩]) changes).map fun s =>
      decide (s.2.map (·.deviceId.text) = [cstr "plug", cstr "fan"])) = some true := by rfl
  obtain ⟨s, hs, hp⟩ :=
    Machine.exists_reachable_of_run (M := device) ⟨_, _, by rfl, hload, rfl⟩ hrun
  exact ⟨s, of_decide_eq_true hp, load_eq_cache hs⟩

/-! ## An add that is interrupted -/

/-- The calls of an append in front of the count write behind the list. -/
theorem append_record (h : Stored nvs entries) {nvs' : Nvs}
    (hcut : Crash.Cut storage ([.openNvs] ++ saveEntry entries.length e) nvs nvs') :
    Stored nvs' entries := by
  refine Crash.Cut.invariant (P := (Stored · entries)) (fun c hc nvs hs => ?_) h hcut
  rcases List.mem_cons.mp hc with rfl | hc
  · exact hs
  · obtain ⟨f, hf⟩ := writes_of_mem_saveEntry hc
    refine hs.beyond (Nat.le_refl _) fun key hkey => Call.apply_of_ne ?_ nvs
    rw [hf.key]
    exact fun he => hkey f (Option.some.inj he).symm

theorem holds_of_done {t : Nvs} (h : Crash.Done storage ([.openNvs] ++ saveEntry i e) nvs t) :
    Holds t i e := by
  intro f hf
  refine h.established (P := fun nvs => nvs (.field f i) = e.value f) (c := fieldCall i e f)
    ((writes_fieldCall i e f).value hf) ?_ ?_ fun c hc nvs hnvs => ?_
  · cases f with
    | type => exact absurd rfl hf
    | id | name => rfl
    | addr | atype => unfold fieldCall; cases e.identity <;> rfl
  · rw [saveEntry_eq]
    exact List.mem_cons_of_mem _ (List.mem_map_of_mem (mem_fieldOrder f))
  · rcases List.mem_cons.mp hc with rfl | hc
    · exact hnvs
    · obtain ⟨g, hg⟩ := writes_of_mem_saveEntry hc
      by_cases hgf : g = f
      · exact hgf ▸ hg.value (hgf ▸ hf) nvs
      · refine (Call.apply_of_ne ?_ nvs).trans hnvs
        rw [hg.key]
        exact fun he => hgf (Key.field.inj (Option.some.inj he)).1

/-- Wherever an append is interrupted, the list without or with the new entry is stored. -/
theorem append_cut (h : Stored nvs entries) (hroom : entries.length < DEVICE_STORE_MAX_DEVICES)
    (hnamed : e.Named) {nvs' : Nvs}
    (hcut : Crash.Cut storage (nvsAppend entries.length (entries.length + 1) e) nvs nvs') :
    Stored nvs' entries ∨ Stored nvs' (entries ++ [e]) := by
  rw [nvsAppend, List.append_assoc] at hcut
  rcases hcut.append with hcut | ⟨t, hdone, hcut⟩
  · exact .inl (append_record h hcut)
  have ht := append_record h hdone.cut
  rcases hcut.cons rfl with rfl | hcut
  · exact .inl ht
  · right
    have hstored := (ht.recorded.concat hroom (holds_of_done hdone) hnamed).stored
    rw [List.length_append, List.length_singleton] at hstored
    -- the version stands there already
    have hversion : (Call.setU8 .schemaVer DEVICE_STORE_SCHEMA_VERSION).apply
        ((Call.setU8 .count (UInt8.ofNat (entries.length + 1))).apply t) =
          (Call.setU8 .count (UInt8.ofNat (entries.length + 1))).apply t :=
      Function.update_eq_self_iff.mpr (by simpa [Call.apply] using ht.version.symm)
    have hsame : nvs' = (Call.setU8 .count (UInt8.ofNat (entries.length + 1))).apply t := by
      refine hcut.invariant (P := (· = _)) (fun c hc s hs => ?_) rfl
      rw [hs]
      rcases List.mem_pair.mp hc with rfl | rfl
      · exact hversion
      · rfl
    rw [hsame, ← hversion]
    exact hstored

/-- **An add is atomic**: whatever the texts are and wherever its calls are interrupted, a load
gives the list before or the list after it. -/
theorem add_atomic (h : Stored nvs entries) (id name : CString) :
    CrashAtomic nvs (add entries id name).calls entries (add entries id name).after := by
  unfold add
  split
  · exact crashAtomic_refuse h _
  rename_i e he
  split
  · exact crashAtomic_refuse h _
  split
  · exact crashAtomic_refuse h _
  · rename_i hroom
    exact fun nvs' hcut => (append_cut h (Nat.lt_of_not_le hroom) (named_entryCreate he) hcut).imp
      Stored.loads Stored.loads

theorem add_atomic_third :
    CrashAtomic twoNvs (add twoEntries (cstr "c") (cstr "z")).calls twoEntries
    (add twoEntries (cstr "c") (cstr "z")).after :=
  add_atomic twoDevices.stored _ _

end BleGateway.DeviceStore
