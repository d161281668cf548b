import BleGateway.DeviceStore.Store

/-! # What a load finds

The strict loader accepts a record exactly when every field of it holds the value that
`save_entry` writes for the entry. A load gives as many entries as the count says exactly when
it skips no record.
-/

namespace BleGateway.DeviceStore

/-! ## One record -/

variable {a b nvs : Nvs} {v : UInt8} {i n : Nat} {e : Entry} {is : List Nat} {l : List Entry}
  {index size : Nat} {c : Call}

theorem loadRequiredStrV2_eq_ok {key : Key} {s : CharBuf size} :
    loadRequiredStrV2 nvs key size = .ok s ↔ nvs key = some (.str s.text) ∧ s.text ≠ [] := by
  unfold loadRequiredStrV2 nvsGetStr
  cases h : nvs key with
  | none => simp
  | some v =>
      cases v with
      | str t =>
          by_cases ht : t.length < size
          · simp only [ht, dite_true]
            by_cases hnil : t = []
            · simp [hnil]
            · simp only [hnil, if_false, Except.ok.injEq, Option.some.injEq, NvsValue.str.injEq]
              constructor
              · rintro rfl
                exact ⟨rfl, hnil⟩
              · rintro ⟨rfl, _⟩
                rfl
          · simp only [ht, dite_false, classifyKeyError, reduceCtorEq, false_iff,
              Option.some.injEq, NvsValue.str.injEq, not_and]
            rintro rfl
            exact absurd s.bounded ht
      | u8 | blob => simp

theorem nvsGetBlob_eq_ok {key : Key} {b : List UInt8} :
    nvsGetBlob nvs key size = .ok b ↔ nvs key = some (.blob b) ∧ b.length ≤ size := by
  unfold nvsGetBlob
  cases h : nvs key with
  | none => simp
  | some v =>
      cases v with
      | blob c =>
          by_cases hc : c.length ≤ size
          · simp only [hc, if_true, Except.ok.injEq, Option.some.injEq, NvsValue.blob.injEq]
            exact ⟨fun h => ⟨h, h ▸ hc⟩, fun h => h.1⟩
          · simp only [hc, if_false, reduceCtorEq, false_iff, Option.some.injEq,
              NvsValue.blob.injEq, not_and]
            rintro rfl
            exact hc
      | u8 | str => simp

theorem nvsGetU8_eq_ok {key : Key} :
    nvsGetU8 nvs key = .ok v ↔ nvs key = some (.u8 v) := by
  unfold nvsGetU8
  cases h : nvs key with
  | none => simp
  | some w => cases w <;> simp

theorem nvsGetU8_eq_notFound {key : Key} :
    nvsGetU8 nvs key = .error .notFound ↔ nvs key = none := by
  unfold nvsGetU8
  cases h : nvs key with
  | none => simp
  | some w => cases w <;> simp

theorem nvsGetBlob_eq_notFound {key : Key} :
    nvsGetBlob nvs key size = .error .notFound ↔ nvs key = none := by
  unfold nvsGetBlob
  cases h : nvs key with
  | none => simp
  | some v =>
      cases v with
      | blob b => by_cases hb : b.length ≤ size <;> simp [hb]
      | u8 | str => simp

theorem loadIdentity_eq_ok {identity : Option BleIdentity} :
    loadIdentity nvs i = .ok identity ↔
      nvs (.field .addr i) = identity.map (fun b => .blob b.addr.toList) ∧
      nvs (.field .atype i) = identity.map (fun b => .u8 b.addrType) := by
  constructor
  · intro h
    unfold loadIdentity at h
    split at h
    · rename_i addr addrType haddr htype
      have haddr := (nvsGetBlob_eq_ok.mp haddr).1
      have htype := nvsGetU8_eq_ok.mp htype
      split at h
      · cases h
        exact ⟨by simp [haddr], by simp [htype]⟩
      · cases h
    · rename_i haddr htype
      cases h
      exact ⟨nvsGetBlob_eq_notFound.mp haddr, nvsGetU8_eq_notFound.mp htype⟩
    · cases h
  · rintro ⟨haddr, htype⟩
    unfold loadIdentity
    cases identity with
    | none =>
        rw [nvsGetBlob_eq_notFound.mpr haddr, nvsGetU8_eq_notFound.mpr htype]
    | some b =>
        have hlen : b.addr.toList.length = 6 := by simp
        rw [nvsGetBlob_eq_ok.mpr ⟨haddr, by omega⟩, nvsGetU8_eq_ok.mpr htype]
        dsimp only
        rw [dif_pos hlen]
        rfl

/-- **The strict loader** reads an entry exactly where its record stands. -/
theorem loadEntryV3_eq_ok :
    loadEntryV3 nvs i = .ok e ↔ Holds nvs i e ∧ e.Named := by
  have hholds : Holds nvs i e ↔ nvs (.field .id i) = some (.str e.deviceId.text) ∧
      nvs (.field .name i) = some (.str e.name.text) ∧
      nvs (.field .addr i) = e.identity.map (fun b => .blob b.addr.toList) ∧
      nvs (.field .atype i) = e.identity.map (fun b => .u8 b.addrType) := by
    constructor
    · intro h
      exact ⟨h .id (by decide), h .name (by decide), h .addr (by decide), h .atype (by decide)⟩
    · rintro ⟨hid, hname, haddr, htype⟩ f hf
      cases f with
      | type => exact absurd rfl hf
      | id => exact hid
      | name => exact hname
      | addr => exact haddr
      | atype => exact htype
  rw [hholds]
  constructor
  · intro h
    unfold loadEntryV3 at h
    cases hid : loadRequiredStrV2 nvs (.field .id i) DEVICE_ID_MAX_LEN with
    | error err => rw [hid] at h; exact absurd h (by simp [bind, Except.bind])
    | ok deviceId =>
        cases hname : loadRequiredStrV2 nvs (.field .name i) DEVICE_NAME_MAX_LEN with
        | error err => rw [hid, hname] at h; exact absurd h (by simp [bind, Except.bind])
        | ok name =>
            cases hidentity : loadIdentity nvs i with
            | error err =>
                rw [hid, hname, hidentity] at h
                exact absurd h (by simp [bind, Except.bind])
            | ok identity =>
                rw [hid, hname, hidentity] at h
                obtain rfl : (⟨deviceId, name, identity⟩ : Entry) = e := Except.ok.inj h
                obtain ⟨hid, hidne⟩ := loadRequiredStrV2_eq_ok.mp hid
                obtain ⟨hname, hnamene⟩ := loadRequiredStrV2_eq_ok.mp hname
                obtain ⟨haddr, htype⟩ := loadIdentity_eq_ok.mp hidentity
                exact ⟨⟨hid, hname, haddr, htype⟩, hidne, hnamene⟩
  · rintro ⟨⟨hid, hname, haddr, htype⟩, hidne, hnamene⟩
    unfold loadEntryV3
    rw [loadRequiredStrV2_eq_ok.mpr ⟨hid, hidne⟩, loadRequiredStrV2_eq_ok.mpr ⟨hname, hnamene⟩,
      loadIdentity_eq_ok.mpr ⟨haddr, htype⟩]
    rfl

/-! ## The list -/

theorem storedVersion_of_u8 (h : nvs .schemaVer = some (.u8 v)) :
    storedVersion nvs = .ok v := by
  rw [storedVersion, nvsGetU8_eq_ok.mpr h]

theorem storedCount_of_u8 {n : UInt8} (h : nvs .count = some (.u8 n)) :
    storedCount nvs = .ok n := by
  rw [storedCount, nvsGetU8_eq_ok.mpr h]

/-- A successful load has found a version and a count it knows. -/
theorem nvsLoad_eq_ok {entries : List Entry} {calls : List Call} :
    nvsLoad nvs = .ok (entries, calls) ↔
      ∃ v n, storedVersion nvs = .ok v ∧ v ≤ DEVICE_STORE_SCHEMA_VERSION ∧
        storedCount nvs = .ok n ∧ n.toNat ≤ DEVICE_STORE_MAX_DEVICES ∧
        loadRecords nvs v (List.range n.toNat) = .ok entries ∧
        calls = rewrite v n.toNat entries := by
  unfold nvsLoad
  constructor
  · intro h
    split at h
    · cases h
    · rename_i v hv
      split at h
      · cases h
      · rename_i hold
        split at h
        · cases h
        · rename_i n hn
          split at h
          · cases h
          · rename_i hroom
            cases hrec : loadRecords nvs v (List.range n.toNat) with
            | error err => rw [hrec] at h; exact absurd h (by simp [Except.map])
            | ok loaded =>
                rw [hrec] at h
                cases h
                exact ⟨v, n, hv, UInt8.not_lt.mp hold, hn, Nat.not_lt.mp hroom, hrec, rfl⟩
  · rintro ⟨v, n, hv, hold, hn, hroom, hrec, rfl⟩
    rw [hv]
    dsimp only
    rw [if_neg (UInt8.not_lt.mpr hold), hn]
    dsimp only
    rw [if_neg (Nat.not_lt.mpr hroom), hrec]
    rfl

theorem loads_eq_some {entries : List Entry} :
    loads nvs = some entries ↔ ∃ calls, nvsLoad nvs = .ok (entries, calls) := by
  unfold loads
  cases h : nvsLoad nvs with
  | error err => simp
  | ok r => simp [Prod.ext_iff]

theorem loadRecords_cons (h : loadRecords nvs v (i :: is) = .ok l) :
    (∃ e l', loadEntry nvs v i = .ok e ∧ loadRecords nvs v is = .ok l' ∧ l = e :: l') ∨
      (loadEntry nvs v i = .error .corrupt ∧ loadRecords nvs v is = .ok l) := by
  rw [loadRecords] at h
  split at h
  · rename_i e he
    cases hl : loadRecords nvs v is with
    | error err => rw [hl] at h; exact absurd h (by simp [Except.map])
    | ok l' =>
        rw [hl] at h
        exact Or.inl ⟨e, l', he, rfl, (Except.ok.inj h).symm⟩
  · rename_i he
    exact Or.inr ⟨he, h⟩
  · cases h

theorem loadRecords_length_le (h : loadRecords nvs v is = .ok l) : l.length ≤ is.length := by
  induction is generalizing l with
  | nil =>
      cases h
      exact Nat.le_refl _
  | cons i is ih =>
      rcases loadRecords_cons h with ⟨e, l', _, hl, rfl⟩ | ⟨_, hl⟩
      · have := ih hl
        simp only [List.length_cons]
        omega
      · have := ih hl
        simp only [List.length_cons]
        omega

/-- As many entries as records: none has been skipped. -/
theorem loadRecords_full (h : loadRecords nvs v is = .ok l) (hlen : l.length = is.length) {j : Nat}
    (hi : is[j]? = some i) (he : l[j]? = some e) : loadEntry nvs v i = .ok e := by
  induction is generalizing l j with
  | nil => cases hi
  | cons k is ih =>
      rcases loadRecords_cons h with ⟨e', l', he', hl, rfl⟩ | ⟨_, hl⟩
      · cases j with
        | zero =>
            cases hi
            cases he
            exact he'
        | succ j => exact ih hl (by simpa using hlen) (by simpa using hi) (by simpa using he)
      · have := loadRecords_length_le hl
        simp only [List.length_cons] at hlen
        omega

theorem loadRecords_of_all (hlen : l.length = is.length)
    (h : ∀ (j i : Nat) (e : Entry), is[j]? = some i → l[j]? = some e → loadEntry nvs v i = .ok e) :
    loadRecords nvs v is = .ok l := by
  induction is generalizing l with
  | nil =>
      obtain rfl := List.length_eq_zero_iff.mp hlen
      rfl
  | cons i is ih =>
      cases l with
      | nil => cases hlen
      | cons e l =>
          have hfirst := h 0 i e rfl rfl
          have hrest := ih (by simpa using hlen) fun j => h (j + 1)
          rw [loadRecords, hfirst, hrest]
          rfl

/-- A corrupt last record is skipped. -/
theorem loadRecords_append_corrupt (h : loadRecords nvs v is = .ok l)
    (hi : loadEntry nvs v i = .error .corrupt) : loadRecords nvs v (is ++ [i]) = .ok l := by
  induction is generalizing l with
  | nil =>
      rw [List.nil_append, loadRecords, hi]
      exact h
  | cons j is ih =>
      rw [List.cons_append, loadRecords]
      rcases loadRecords_cons h with ⟨e, l', he, hl, rfl⟩ | ⟨he, hl⟩
      · rw [he, ih hl]
        rfl
      · rw [he, ih hl]

theorem getElem?_range (h : i < n) : (List.range n)[i]? = some i := by
  rw [List.getElem?_range h]

theorem toNat_count (h : n ≤ DEVICE_STORE_MAX_DEVICES) : (UInt8.ofNat n).toNat = n := by
  have hlt : n < 256 := Nat.lt_of_le_of_lt h (by decide)
  simp only [UInt8.toNat_ofNat']
  omega

/-- NVS has the current schema version and count `n`. -/
structure Current (nvs : Nvs) (n : Nat) : Prop where
  version : nvs .schemaVer = some (.u8 DEVICE_STORE_SCHEMA_VERSION)
  count : nvs .count = some (.u8 (UInt8.ofNat n))
  room : n ≤ DEVICE_STORE_MAX_DEVICES

theorem Stored.current (h : Stored nvs l) : Current nvs l.length :=
  ⟨h.version, h.count, h.room⟩

theorem Current.loads_iff (h : Current nvs n) :
    loads nvs = some l ↔ loadRecords nvs DEVICE_STORE_SCHEMA_VERSION (List.range n) = .ok l := by
  rw [loads_eq_some]
  constructor
  · rintro ⟨calls, hload⟩
    obtain ⟨v, m, hv, _, hm, _, hrec, _⟩ := nvsLoad_eq_ok.mp hload
    obtain rfl := Except.ok.inj ((storedVersion_of_u8 h.version).symm.trans hv)
    obtain rfl := Except.ok.inj ((storedCount_of_u8 h.count).symm.trans hm)
    rwa [toNat_count h.room] at hrec
  · intro hrec
    refine ⟨_, nvsLoad_eq_ok.mpr ⟨_, _, storedVersion_of_u8 h.version, UInt8.le_refl _,
      storedCount_of_u8 h.count, ?_, ?_, rfl⟩⟩
    · rw [toNat_count h.room]; exact h.room
    · rw [toNat_count h.room]; exact hrec

theorem loadEntry_current (nvs : Nvs) (i : Nat) :
    loadEntry nvs DEVICE_STORE_SCHEMA_VERSION i = loadEntryV3 nvs i := by
  rw [loadEntry, if_neg (by decide), if_neg (by decide), if_pos rfl]

/-- **A stored list is the list a load gives.** -/
theorem Stored.loads (h : Stored nvs l) :
    DeviceStore.loads nvs = some l := by
  refine h.current.loads_iff.mpr (loadRecords_of_all (by simp) fun j i e hi he => ?_)
  obtain ⟨hlt, rfl⟩ : j < l.length ∧ j = i := by
    obtain ⟨hj, hval⟩ := List.getElem?_eq_some_iff.mp hi
    rw [List.getElem_range] at hval
    exact ⟨by simpa using hj, hval⟩
  rw [loadEntry_current]
  exact h.records j e he

/-- A load that gives a full list has read every record. -/
theorem Current.record_of_loads (h : Current nvs n) (hl : DeviceStore.loads nvs = some l)
    (hlen : l.length = n) (he : l[i]? = some e) : Holds nvs i e := by
  have hi : i < n := by
    obtain ⟨hi, _⟩ := List.getElem?_eq_some_iff.mp he
    omega
  have hload := loadRecords_full (h.loads_iff.mp hl) (by simpa using hlen) (getElem?_range hi) he
  rw [loadEntry_current] at hload
  exact (loadEntryV3_eq_ok.mp hload).1

/-! ## What a call changes -/

/-- The key a call writes. -/
def Call.key : Call → Option Key
  | .openNvs | .commit => none
  | .setU8 key _ | .setStr key _ | .setBlob key _ | .erase key | .eraseIgnored key => some key

theorem Call.apply_of_ne {key : Key} (h : c.key ≠ some key) (nvs : Nvs) :
    c.apply nvs key = nvs key := by
  cases c <;> simp only [Call.key, Call.apply] at h ⊢ <;>
    exact Function.update_of_ne (fun he => h (by rw [he])) ..

theorem Call.setU8_self (key : Key) (v : UInt8) (nvs : Nvs) :
    (Call.setU8 key v).apply nvs key = some (.u8 v) := by
  simp [Call.apply]

/-- A key that no call of a sequence writes keeps its value. -/
theorem applyAll_of_ne {cs : List Call} {key : Key} (h : ∀ c ∈ cs, c.key ≠ some key) (nvs : Nvs) :
    Crash.applyAll storage cs nvs key = nvs key := by
  induction cs generalizing nvs with
  | nil => rfl
  | cons c cs ih =>
      have hfirst : c.apply nvs key = nvs key := Call.apply_of_ne (h c List.mem_cons_self) nvs
      rw [Crash.applyAll_cons, ih (fun d hd => h d (List.mem_cons_of_mem _ hd))]
      exact hfirst

/-- The call writes a field of the record of `e` at `index`. -/
structure Writes (c : Call) (index : Nat) (e : Entry) (f : Field) : Prop where
  key : c.key = some (.field f index)
  value : f.current → ∀ nvs, c.apply nvs (.field f index) = e.value f

/-- The call of `save_entry` for one field. -/
def fieldCall (index : Nat) (e : Entry) : Field → Call
  | .id => .setStr (.field .id index) e.deviceId.text
  | .name => .setStr (.field .name index) e.name.text
  | .type => .eraseIgnored (.field .type index)
  | .addr =>
      match e.identity with
      | some b => .setBlob (.field .addr index) b.addr.toList
      | none => .erase (.field .addr index)
  | .atype =>
      match e.identity with
      | some b => .setU8 (.field .atype index) b.addrType
      | none => .erase (.field .atype index)

/-- The fields in the order in which `save_entry` writes them. -/
def fieldOrder : List Field := [.id, .name, .type, .addr, .atype]

theorem saveEntry_eq (index : Nat) (e : Entry) :
    saveEntry index e = fieldOrder.map (fieldCall index e) := by
  unfold saveEntry fieldOrder
  simp only [List.map_cons, List.map_nil, fieldCall]
  cases e.identity <;> rfl

theorem writes_fieldCall (index : Nat) (e : Entry) (f : Field) :
    Writes (fieldCall index e f) index e f := by
  cases f with
  | id | name => exact ⟨rfl, fun _ _ => Function.update_self ..⟩
  | type => exact ⟨rfl, fun h => absurd rfl h⟩
  | addr | atype =>
      unfold fieldCall
      cases hb : e.identity with
      | none => exact ⟨rfl, fun _ nvs => by simp [Call.apply, Entry.value, hb]⟩
      | some b => exact ⟨rfl, fun _ nvs => by simp [Call.apply, Entry.value, hb]⟩

theorem writes_of_mem_saveEntry (h : c ∈ saveEntry index e) :
    ∃ f, Writes c index e f := by
  rw [saveEntry_eq] at h
  obtain ⟨f, _, rfl⟩ := List.mem_map.mp h
  exact ⟨f, writes_fieldCall index e f⟩

/-- The record after some of the calls of `save_entry`. -/
theorem applyAll_fields {f : Field} (hf : f.current) (fs : List Field) (nvs : Nvs) :
    Crash.applyAll storage (fs.map (fieldCall index e)) nvs (.field f index) =
      if f ∈ fs then e.value f else nvs (.field f index) := by
  induction fs generalizing nvs with
  | nil => rfl
  | cons g fs ih =>
      rw [List.map_cons, Crash.applyAll_cons, ih]
      show (if f ∈ fs then _ else (fieldCall index e g).apply nvs (.field f index)) = _
      have hw := writes_fieldCall index e g
      by_cases hfs : f ∈ fs
      · rw [if_pos hfs, if_pos (List.mem_cons_of_mem _ hfs)]
      · rw [if_neg hfs]
        by_cases hfg : f = g
        · subst hfg
          rw [if_pos List.mem_cons_self, hw.value hf]
        · rw [if_neg (by simp [hfg, hfs])]
          refine Call.apply_of_ne ?_ nvs
          rw [hw.key]
          exact fun he => hfg (Key.field.inj (Option.some.inj he)).1.symm

/-- Two contents that differ only in legacy keys. -/
def SameCurrent (a b : Nvs) : Prop := ∀ key, (∀ i, key ≠ .field .type i) → a key = b key

/-- Writing a field that has its value already changes nothing of the current schema. -/
theorem Writes.same {f : Field} (h : Writes c index e f)
    (hold : f.current → nvs (.field f index) = e.value f) :
    SameCurrent (c.apply nvs) nvs := by
  intro key hkey
  by_cases hk : key = .field f index
  · subst hk
    have hf : f.current := fun hf => hkey index (by rw [hf])
    rw [h.value hf, hold hf]
  · exact Call.apply_of_ne (by rw [h.key]; exact fun he => hk (Option.some.inj he).symm) nvs

theorem Stored.congr (h : Stored b l) (hab : SameCurrent a b) :
    Stored a l where
  version := (hab _ (by simp)).trans h.version
  count := (hab _ (by simp)).trans h.count
  room := h.room
  records i e he := by
    obtain ⟨hholds, hnamed⟩ := loadEntryV3_eq_ok.mp (h.records i e he)
    refine loadEntryV3_eq_ok.mpr ⟨fun f hf => ?_, hnamed⟩
    rw [hab _ fun j he => hf (Key.field.inj he).1, hholds f hf]

theorem Stored.holds (h : Stored nvs l) (he : l[i]? = some e) : Holds nvs i e ∧ e.Named :=
  loadEntryV3_eq_ok.mp (h.records i e he)

/-- Replacing one record replaces one entry. -/
theorem Stored.set (h : Stored b l) (hother : ∀ key, (∀ f, key ≠ .field f i) → a key = b key)
    (he : Holds a i e) (hnamed : e.Named) : Stored a (l.set i e) where
  version := (hother _ (by simp)).trans h.version
  count := by
    rw [List.length_set]
    exact (hother _ (by simp)).trans h.count
  room := by
    rw [List.length_set]
    exact h.room
  records j e' he' := by
    by_cases hij : i = j
    · subst hij
      obtain rfl : e = e' := by
        obtain ⟨hlt, hval⟩ := List.getElem?_eq_some_iff.mp he'
        simpa using hval
      exact loadEntryV3_eq_ok.mpr ⟨he, hnamed⟩
    · rw [List.getElem?_set_ne hij] at he'
      obtain ⟨hholds, hnamed'⟩ := h.holds he'
      refine loadEntryV3_eq_ok.mpr ⟨fun f hf => ?_, hnamed'⟩
      rw [hother _ (by simpa using Ne.symm hij), hholds f hf]

/-- Only the records in the list count. -/
theorem Stored.beyond (h : Stored b l) {j : Nat} (hj : l.length ≤ j)
    (hother : ∀ key, (∀ f, key ≠ .field f j) → a key = b key) : Stored a l where
  version := (hother _ (by simp)).trans h.version
  count := (hother _ (by simp)).trans h.count
  room := h.room
  records i e he := by
    have hi : i < l.length := (List.getElem?_eq_some_iff.mp he).1
    obtain ⟨hholds, hnamed⟩ := h.holds he
    refine loadEntryV3_eq_ok.mpr ⟨fun f hf => ?_, hnamed⟩
    rw [hother _ fun g hg => by have := (Key.field.inj hg).2; omega, hholds f hf]

/-- After all calls of `save_entry` the list has the new entry. -/
theorem Stored.saveEntry (h : Stored nvs l) (i : Nat) (hnamed : e.Named) :
    Stored (Crash.applyAll storage (DeviceStore.saveEntry i e) nvs) (l.set i e) := by
  rw [saveEntry_eq]
  refine h.set (fun key hkey => applyAll_of_ne (fun c hc => ?_) nvs) (fun f hf => ?_) hnamed
  · obtain ⟨f, _, rfl⟩ := List.mem_map.mp hc
    rw [(writes_fieldCall i e f).key]
    exact fun he => hkey f (Option.some.inj he).symm
  · rw [applyAll_fields hf, if_pos]
    cases f with
    | type => exact absurd rfl hf
    | _ => simp [fieldOrder]

/-- A record is read from its own keys only. -/
theorem loadEntry_congr (h : ∀ f, a (.field f i) = b (.field f i)) (v : UInt8) :
    loadEntry a v i = loadEntry b v i := by
  simp only [loadEntry, loadEntryV1, loadEntryV2, loadEntryV3, loadRequiredStrV2, loadIdentity,
    nvsGetStr, nvsGetBlob, nvsGetU8, h]

/-- A load that gives as many entries as the count says has read every record. -/
theorem record_of_full {n : UInt8} (hl : loads nvs = some l) (hv : storedVersion nvs = .ok v)
    (hn : storedCount nvs = .ok n) (hlen : l.length = n.toNat) (he : l[i]? = some e) :
    loadEntry nvs v i = .ok e := by
  obtain ⟨calls, hload⟩ := loads_eq_some.mp hl
  obtain ⟨v', n', hv', _, hn', _, hrec, _⟩ := nvsLoad_eq_ok.mp hload
  obtain rfl := Except.ok.inj (hv.symm.trans hv')
  obtain rfl := Except.ok.inj (hn.symm.trans hn')
  have hi : i < n.toNat := by
    have := (List.getElem?_eq_some_iff.mp he).1
    omega
  exact loadRecords_full hrec (by simpa using hlen) (getElem?_range hi) he

theorem loads_of_records {n : UInt8} (hv : storedVersion nvs = .ok v)
    (hold : v ≤ DEVICE_STORE_SCHEMA_VERSION) (hn : storedCount nvs = .ok n)
    (hlen : l.length = n.toNat) (hroom : l.length ≤ DEVICE_STORE_MAX_DEVICES)
    (h : ∀ (i : Nat) (e : Entry), l[i]? = some e → loadEntry nvs v i = .ok e) :
    loads nvs = some l := by
  refine loads_eq_some.mpr ⟨_, nvsLoad_eq_ok.mpr ⟨v, n, hv, hold, hn, by omega, ?_, rfl⟩⟩
  refine loadRecords_of_all (by simpa using hlen) fun j i e hi he => ?_
  obtain ⟨hj, hval⟩ := List.getElem?_eq_some_iff.mp hi
  rw [List.getElem_range] at hval
  exact hval ▸ h j e he

end BleGateway.DeviceStore
