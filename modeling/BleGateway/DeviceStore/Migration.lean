import BleGateway.DeviceStore.Recovery

/-! # Loading again after a migration

A load that meets an older schema, or a record it has to skip, rewrites the store under the current
schema. Every record then stands in its place; the next load reads it back unless it has an empty
name, which the loader of the first schema takes and the strict one refuses.
-/

namespace BleGateway.DeviceStore

variable {nvs : Nvs} {entries : List Entry} {calls : List Call}

/-! ## What a rewrite leaves -/

theorem mem_fieldOrder (f : Field) : f ∈ fieldOrder := by
  cases f <;> decide

variable {i : Nat} {e : Entry}

/-- The records after the loop over `save_entry`. -/
theorem applyAll_records (entries : List Entry) (nvs : Nvs) {f : Field} (hf : f.current) (n : Nat)
    (hi : i < n) :
    Crash.applyAll storage ((List.range n).flatMap fun i => saveEntry i (entries.getD i default))
      nvs
      (.field f i) = (entries.getD i default).value f := by
  induction n with
  | zero => omega
  | succ n ih =>
      rw [List.range_succ, List.flatMap_append, Crash.applyAll_append, List.flatMap_singleton]
      by_cases hlast : i = n
      · rw [hlast, saveEntry_eq, applyAll_fields hf, if_pos (mem_fieldOrder f)]
      · -- the record at `n` is another one
        rw [applyAll_of_ne, ih (by omega)]
        intro c hc
        obtain ⟨g, hg⟩ := writes_of_mem_saveEntry hc
        rw [hg.key]
        exact fun he => hlast (Key.field.inj (Option.some.inj he)).2.symm

/-- After a rewrite the store is current, and every entry has its record. -/
theorem rewrite_leaves {v : UInt8} {rawCount : Nat}
    (hchange : v ≠ DEVICE_STORE_SCHEMA_VERSION ∨ entries.length ≠ rawCount)
    (hroom : entries.length ≤ DEVICE_STORE_MAX_DEVICES) :
    Current (Crash.applyAll storage (rewrite v rawCount entries) nvs) entries.length ∧
      ∀ i e, entries[i]? = some e →
        Holds (Crash.applyAll storage (rewrite v rawCount entries) nvs) i e := by
  have hrecord : ∀ {c : Call} {key : Key}, (∀ f i, key ≠ .field f i) →
      c ∈ (List.range entries.length).flatMap (fun i => saveEntry i (entries.getD i default)) →
        c.key ≠ some key := by
    intro c key hkey hc
    obtain ⟨i, -, hc⟩ := List.mem_flatMap.mp hc
    obtain ⟨f, hf⟩ := writes_of_mem_saveEntry hc
    rw [hf.key]
    exact fun he => hkey f i (Option.some.inj he).symm
  have herase : ∀ {c : Call} {key : Key},
      (∀ f j, entries.length ≤ j → key ≠ .field f j) →
      c ∈ (List.range' entries.length (rawCount - entries.length)).flatMap eraseEntry →
        c.key ≠ some key := by
    intro c key hkey hc
    obtain ⟨j, hj, hc⟩ := List.mem_flatMap.mp hc
    obtain ⟨f, -, rfl⟩ := List.mem_map.mp hc
    exact fun he => hkey f j (List.mem_range'_1.mp hj).1 (Option.some.inj he).symm
  have hcommit : ∀ {c : Call} {key : Key}, c ∈ [Call.commit] → c.key ≠ some key := by
    intro c key hc
    rw [List.mem_singleton.mp hc]
    exact nofun
  rw [rewrite, if_pos hchange]
  simp only [Crash.applyAll_append]
  have hmeta : ∀ {key : Key}, (∀ f i, key ≠ .field f i) → ∀ s : Nvs,
      Crash.applyAll storage [Call.commit] (Crash.applyAll storage
        ((List.range' entries.length (rawCount - entries.length)).flatMap eraseEntry)
        (Crash.applyAll storage ((List.range entries.length).flatMap
          fun i => saveEntry i (entries.getD i default)) s)) key = s key := by
    intro key hkey s
    rw [applyAll_of_ne fun c => hcommit, applyAll_of_ne fun c => herase fun f j _ => hkey f j,
      applyAll_of_ne fun c => hrecord hkey]
  refine ⟨⟨?_, ?_, hroom⟩, ?_⟩
  · rw [hmeta fun f i he => by cases he]
    rfl
  · rw [hmeta fun f i he => by cases he]
    rfl
  · intro i e he f hf
    obtain ⟨hi, rfl⟩ := List.getElem?_eq_some_iff.mp he
    have hbelow : ∀ (g : Field) (j : Nat), entries.length ≤ j → Key.field f i ≠ .field g j := by
      intro g j hj he
      have hij := (Key.field.inj he).2
      omega
    rw [applyAll_of_ne fun c => hcommit, applyAll_of_ne fun c => herase hbelow,
      applyAll_records entries _ hf _ hi]
    rw [List.getD_eq_getElem?_getD, List.getElem?_eq_getElem hi]
    rfl

/-! ## What the loaders accept -/

/-- A record of the first schema is read as soon as its id is. -/
theorem loadEntryV1_eq_ok (h : loadEntryV1 nvs i = .ok e) :
    loadRequiredStrV2 nvs (.field .id i) DEVICE_ID_MAX_LEN = .ok e.deviceId ∧
      e.name = match nvsGetStr nvs (.field .name i) DEVICE_NAME_MAX_LEN with
        | .ok name => name
        | .error _ => strlcpy _ e.deviceId.text := by
  unfold loadEntryV1 at h
  cases hid : loadRequiredStrV2 nvs (.field .id i) DEVICE_ID_MAX_LEN with
  | error err =>
      rw [hid] at h
      cases h
  | ok deviceId =>
      rw [hid] at h
      obtain rfl := (Except.ok.inj h).symm
      exact ⟨rfl, rfl⟩

/-- Its name is empty only where an empty name is stored. -/
theorem named_of_loadEntryV1 (h : loadEntryV1 nvs i = .ok e) :
    e.Named ↔ nvs (.field .name i) ≠ some (.str []) := by
  obtain ⟨hid, hname⟩ := loadEntryV1_eq_ok h
  have hidne := (loadRequiredStrV2_eq_ok.mp hid).2
  have hfit : e.deviceId.text.length < DEVICE_NAME_MAX_LEN := e.deviceId.bounded
  rw [Entry.Named, and_iff_right hidne, hname]
  cases hget : nvsGetStr nvs (.field .name i) DEVICE_NAME_MAX_LEN with
  | error err =>
      dsimp only
      rw [strlcpy_text hfit]
      refine iff_of_true hidne fun hempty => ?_
      rw [nvsGetStr, hempty] at hget
      cases hget
  | ok name =>
      have hstored : nvs (.field .name i) = some (.str name.text) := by
        rw [nvsGetStr] at hget
        split at hget
        · cases hget
        · rename_i s hs
          split at hget
          · rw [hs, ← Except.ok.inj hget]
          · cases hget
        · cases hget
      rw [hstored, ne_eq, ne_eq, Option.some.injEq, NvsValue.str.injEq]

/-- The later loaders take no empty text. -/
theorem named_of_loadEntry {v : UInt8} (hv : v ≠ 1) (h : loadEntry nvs v i = .ok e) : e.Named := by
  rw [loadEntry, if_neg hv] at h
  split at h
  · unfold loadEntryV2 at h
    cases hid : loadRequiredStrV2 nvs (.field .id i) DEVICE_ID_MAX_LEN with
    | error err =>
        rw [hid] at h
        cases h
    | ok deviceId =>
        cases hname : loadRequiredStrV2 nvs (.field .name i) DEVICE_NAME_MAX_LEN with
        | error err =>
            rw [hid, hname] at h
            cases h
        | ok name =>
            cases htype : loadRequiredStrV2 nvs (.field .type i) DEVICE_TYPE_MAX_LEN_V2 with
            | error err =>
                rw [hid, hname, htype] at h
                cases h
            | ok type =>
                cases hidentity : loadIdentity nvs i with
                | error err =>
                    rw [hid, hname, htype, hidentity] at h
                    cases h
                | ok identity =>
                    rw [hid, hname, htype, hidentity] at h
                    obtain rfl : (⟨deviceId, name, identity⟩ : Entry) = e := Except.ok.inj h
                    exact ⟨(loadRequiredStrV2_eq_ok.mp hid).2, (loadRequiredStrV2_eq_ok.mp hname).2⟩
  · split at h
    · exact (loadEntryV3_eq_ok.mp h).2
    · cases h

/-- Every entry of the list comes from a record, and every record that can be read is in the
list. -/
theorem mem_loadRecords_iff {v : UInt8} {is : List Nat} {l : List Entry}
    (h : loadRecords nvs v is = .ok l) :
    e ∈ l ↔ ∃ i ∈ is, loadEntry nvs v i = .ok e := by
  induction is generalizing l with
  | nil =>
      cases h
      simp
  | cons i is ih =>
      rcases loadRecords_cons h with ⟨e', l', he', hl, rfl⟩ | ⟨hcorrupt, hl⟩
      · rw [List.mem_cons, ih hl]
        constructor
        · rintro (rfl | ⟨j, hj, hload⟩)
          · exact ⟨i, List.mem_cons_self, he'⟩
          · exact ⟨j, List.mem_cons_of_mem _ hj, hload⟩
        · rintro ⟨j, hj, hload⟩
          rcases List.mem_cons.mp hj with rfl | hj
          · exact Or.inl (Except.ok.inj (hload.symm.trans he'))
          · exact Or.inr ⟨j, hj, hload⟩
      · rw [ih hl]
        constructor
        · rintro ⟨j, hj, hload⟩
          exact ⟨j, List.mem_cons_of_mem _ hj, hload⟩
        · rintro ⟨j, hj, hload⟩
          rcases List.mem_cons.mp hj with rfl | hj
          · rw [hcorrupt] at hload
            cases hload
          · exact ⟨j, hj, hload⟩

/-! ## Loading again -/

/-- No record of the first schema that has an id stores an empty name. -/
def NamesStored (nvs : Nvs) : Prop :=
  ∀ n i id, storedVersion nvs = .ok 1 → storedCount nvs = .ok n → i < n.toNat →
    loadRequiredStrV2 nvs (.field .id i) DEVICE_ID_MAX_LEN = .ok id →
      nvs (.field .name i) ≠ some (.str [])

/-- The list that was loaded has no empty name just when none was stored. -/
theorem named_iff_namesStored (h : nvsLoad nvs = .ok (entries, calls)) :
    (∀ e ∈ entries, e.Named) ↔ NamesStored nvs := by
  obtain ⟨v, n, hv, -, hn, -, hrec, -⟩ := nvsLoad_eq_ok.mp h
  constructor
  · intro hnamed m i id hfirst hm hi hid
    obtain rfl := Except.ok.inj (hv.symm.trans hfirst)
    obtain rfl := Except.ok.inj (hn.symm.trans hm)
    -- the record can be read, since its id can
    obtain ⟨e, he⟩ : ∃ e, loadEntryV1 nvs i = .ok e := by
      unfold loadEntryV1
      rw [hid]
      exact ⟨_, rfl⟩
    have hmem : e ∈ entries :=
      (mem_loadRecords_iff hrec).mpr ⟨i, List.mem_range.mpr hi, he⟩
    exact (named_of_loadEntryV1 he).mp (hnamed e hmem)
  · intro hstored e hmem
    obtain ⟨i, hi, hload⟩ := (mem_loadRecords_iff hrec).mp hmem
    by_cases hfirst : v = 1
    · subst hfirst
      have hfirstLoad : loadEntryV1 nvs i = .ok e := hload
      exact (named_of_loadEntryV1 hfirstLoad).mpr
        (hstored n i e.deviceId hv hn (List.mem_range.mp hi) (loadEntryV1_eq_ok hfirstLoad).1)
    · exact named_of_loadEntry hfirst hload

/-- **A second load gives the same list just when no record of the first schema stores an empty
name.** -/
theorem load_again_iff (h : nvsLoad nvs = .ok (entries, calls)) :
    loads (Crash.applyAll storage calls nvs) = some entries ↔ NamesStored nvs := by
  rw [← named_iff_namesStored h]
  obtain ⟨v, n, hv, -, hn, hroom, hrec, hcalls⟩ := nvsLoad_eq_ok.mp h
  have hlength : entries.length ≤ n.toNat := by
    have hle := loadRecords_length_le hrec
    rwa [List.length_range] at hle
  by_cases hchange : v ≠ DEVICE_STORE_SCHEMA_VERSION ∨ entries.length ≠ n.toNat
  · obtain ⟨hcurrent, hholds⟩ := @rewrite_leaves nvs entries v n.toNat hchange
      (Nat.le_trans hlength hroom)
    rw [← hcalls] at hcurrent hholds
    constructor
    · intro hagain e hmem
      obtain ⟨i, hi⟩ := List.getElem?_of_mem hmem
      have hread := loadRecords_full (hcurrent.loads_iff.mp hagain) (List.length_range).symm
        (getElem?_range (List.getElem?_eq_some_iff.mp hi).1) hi
      rw [loadEntry_current] at hread
      exact (loadEntryV3_eq_ok.mp hread).2
    · intro hnamed
      have hstored : Stored (Crash.applyAll storage calls nvs) entries :=
        ⟨hcurrent.version, hcurrent.count, hcurrent.room, fun i e hi =>
          loadEntryV3_eq_ok.mpr ⟨hholds i e hi, hnamed e (List.mem_of_getElem? hi)⟩⟩
      exact hstored.loads
  · -- nothing is rewritten, and the schema is the current one
    have hversion : v = DEVICE_STORE_SCHEMA_VERSION := by
      by_contra hne
      exact hchange (Or.inl hne)
    have hnone : calls = [] := by rw [hcalls, rewrite, if_neg hchange]
    refine iff_of_true ?_ fun e hmem => ?_
    · rw [hnone]
      exact loads_eq_some.mpr ⟨calls, h⟩
    · obtain ⟨i, -, hload⟩ := (mem_loadRecords_iff hrec).mp hmem
      exact named_of_loadEntry (by rw [hversion]; decide) hload

/-- A store of the first schema with one device, under the given name. -/
def firstSchema (name : CString) : Nvs
  | .count => some (.u8 1)
  | .field .id 0 => some (.str (cstr "lamp"))
  | .field .name 0 => some (.str name)
  | _ => none

theorem load_again_lamp :
    loads (Crash.applyAll storage (rewrite 1 1 [⟨strlcpy _ (cstr "lamp"), strlcpy _ (cstr "Lamp"),
      none⟩]) (firstSchema (cstr "Lamp"))) =
        some [⟨strlcpy _ (cstr "lamp"), strlcpy _ (cstr "Lamp"), none⟩] := by
  have hload : nvsLoad (firstSchema (cstr "Lamp")) =
      .ok ([⟨strlcpy _ (cstr "lamp"), strlcpy _ (cstr "Lamp"), none⟩],
        rewrite 1 1 [⟨strlcpy _ (cstr "lamp"), strlcpy _ (cstr "Lamp"), none⟩]) := by rfl
  refine (load_again_iff hload).mpr fun n i id _ hn hi _ => ?_
  obtain rfl : n = 1 := (Except.ok.inj hn).symm
  obtain rfl : i = 0 := Nat.lt_one_iff.mp hi
  decide

/-- A device of the first schema with an empty name is gone after the second boot. -/
theorem nameless_device_lost :
    ¬∀ (nvs : Nvs) (entries : List Entry) (calls : List Call),
      nvsLoad nvs = .ok (entries, calls) →
        loads (Crash.applyAll storage calls nvs) = some entries := by
  intro h
  have hload : nvsLoad (firstSchema []) =
      .ok ([⟨strlcpy _ (cstr "lamp"), strlcpy _ [], none⟩],
        rewrite 1 1 [⟨strlcpy _ (cstr "lamp"), strlcpy _ [], none⟩]) := by rfl
  have hagain : loads (Crash.applyAll storage (rewrite 1 1 [⟨strlcpy _ (cstr "lamp"), strlcpy _ [],
      none⟩]) (firstSchema [])) = some [] := by rfl
  rw [h _ _ _ hload] at hagain
  cases hagain

end BleGateway.DeviceStore
