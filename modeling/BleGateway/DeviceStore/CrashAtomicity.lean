import BleGateway.DeviceStore.Recovery
import Mathlib.Order.Basic

/-! # Interrupted operations

An operation on one record writes its fields one after the other, each with an atomic call. It
can be interrupted anywhere without a trace exactly when at most one field changes; a delete
exactly when no record has to be moved; the rewrite of a load exactly when every record it keeps
already stands in its place and reads the same under the current schema.
-/

namespace BleGateway.DeviceStore

open Crash

/-- Wherever the calls are interrupted, a load gives the list before or the list after. -/
def CrashAtomic (nvs : Nvs) (calls : List Call) (before after : List Entry) : Prop :=
  Atomic storage loads calls nvs before after

/-! ## Updates -/

/-- The records of the two entries differ in at most one field. -/
def OneFieldApart (e e' : Entry) : Prop :=
  ∃ f₀, ∀ f, f.current → f ≠ f₀ → e.value f = e'.value f

section Update

variable {nvs : Nvs} {entries : List Entry} {i : Nat} {old e : Entry}

/-- One call of an update that changes one field leaves the list before or the list after. -/
theorem update_call (hi : entries[i]? = some old) (hnamed : e.Named)
    {f₀ : Field} (hone : ∀ f, f.current → f ≠ f₀ → old.value f = e.value f) {c : Call} {f : Field}
    (hc : Writes c i e f)
    (h : Stored nvs entries ∨ Stored nvs (entries.set i e) ∧ Holds nvs i e) :
    Stored (c.apply nvs) entries ∨
      Stored (c.apply nvs) (entries.set i e) ∧ Holds (c.apply nvs) i e := by
  rcases h with h | ⟨h, hnew⟩
  · by_cases hf : f.current → old.value f = e.value f
    · -- the field has its value already
      left
      refine h.congr (hc.same fun hcur => ?_)
      rw [(h.holds hi).1 f hcur, hf hcur]
    · -- the one field that changes
      right
      obtain ⟨hcur, hdiff⟩ : f.current ∧ old.value f ≠ e.value f := by
        by_contra hno
        exact hf fun hcur => by_contra fun hd => hno ⟨hcur, hd⟩
      have hf₀ : f = f₀ := by
        by_contra hne
        exact hdiff (hone f hcur hne)
      have hholds : Holds (c.apply nvs) i e := by
        intro g hg
        by_cases hgf : g = f
        · rw [hgf, hc.value hcur]
        · have hkey : c.key ≠ some (.field g i) := by
            rw [hc.key]
            exact fun he => hgf (Key.field.inj (Option.some.inj he)).1.symm
          rw [Call.apply_of_ne hkey, (h.holds hi).1 g hg, hone g hg (hf₀ ▸ hgf)]
      refine ⟨h.set (fun key hkey => ?_) hholds hnamed, hholds⟩
      exact Call.apply_of_ne (by rw [hc.key]; exact fun he => hkey f (Option.some.inj he).symm) nvs
  · right
    have hsame : SameCurrent (c.apply nvs) nvs := hc.same fun hcur => hnew f hcur
    refine ⟨h.congr hsame, fun g hg => ?_⟩
    rw [hsame _ fun j he => hg (Key.field.inj he).1, hnew g hg]

/-- Wherever an update of one field is interrupted, the list before or after it is stored. -/
theorem update_cut (h : Stored nvs entries) (hi : entries[i]? = some old) (hnamed : e.Named)
    (hone : OneFieldApart old e) {nvs' : Nvs} (hcut : Cut storage (nvsUpdate i e) nvs nvs') :
    Stored nvs' entries ∨ Stored nvs' (entries.set i e) ∧ Holds nvs' i e := by
  obtain ⟨f₀, hone⟩ := hone
  refine Cut.invariant (P := fun nvs => Stored nvs entries ∨
    Stored nvs (entries.set i e) ∧ Holds nvs i e) (fun c hc nvs hP => ?_) (Or.inl h) hcut
  simp only [nvsUpdate, List.mem_append, List.mem_singleton] at hc
  rcases hc with (rfl | hc) | rfl
  · exact hP
  · obtain ⟨f, hf⟩ := writes_of_mem_saveEntry hc
    exact update_call hi hnamed hone hf hP
  · exact hP

/-- A cut state from which the list before or after the update loads has the record of the old
or of the new entry. -/
theorem record_of_cut {t : Nvs} (ht : Current t entries.length) (hi : entries[i]? = some old)
    (h : loads t = some entries ∨ loads t = some (entries.set i e)) :
    Holds t i old ∨ Holds t i e := by
  rcases h with h | h
  · exact Or.inl (ht.record_of_loads h rfl hi)
  · have hlt : i < entries.length := (List.getElem?_eq_some_iff.mp hi).1
    exact Or.inr (ht.record_of_loads h (by simp) (by simp [hlt]))

/-- **An update is atomic exactly when it changes at most one field.** -/
theorem update_atomic_iff (h : Stored nvs entries) (hi : entries[i]? = some old)
    (hnamed : e.Named) :
    CrashAtomic nvs (nvsUpdate i e) entries (entries.set i e) ↔ OneFieldApart old e := by
  constructor
  · intro hatomic
    have hcut : ∀ fs gs, fieldOrder = fs ++ gs →
        (∀ f ∈ fs, f.current → e.value f = old.value f) ∨
          (∀ f, f ∉ fs → f.current → old.value f = e.value f) := by
      intro fs gs hfs
      have hcalls : nvsUpdate i e = ([Call.openNvs] ++ fs.map (fieldCall i e)) ++
          (gs.map (fieldCall i e) ++ [.commit]) := by
        rw [nvsUpdate, saveEntry_eq, hfs]
        simp
      have hread := hatomic _ (by rw [hcalls]; exact Cut.after _ _ nvs)
      rw [applyAll_append] at hread
      have hother : ∀ key, (∀ f, key ≠ .field f i) →
          applyAll storage (fs.map (fieldCall i e)) nvs key = nvs key := by
        intro key hkey
        refine applyAll_of_ne (fun c hc => ?_) nvs
        obtain ⟨f, _, rfl⟩ := List.mem_map.mp hc
        rw [(writes_fieldCall i e f).key]
        exact fun he => hkey f (Option.some.inj he).symm
      have hcur : Current (applyAll storage (fs.map (fieldCall i e)) nvs) entries.length :=
        ⟨(hother _ (by simp)).trans h.version, (hother _ (by simp)).trans h.count, h.room⟩
      rcases record_of_cut hcur hi hread with hold | hnew
      · refine Or.inl fun f hf hcurf => ?_
        have := hold f hcurf
        rwa [applyAll_fields hcurf, if_pos hf] at this
      · refine Or.inr fun f hf hcurf => ?_
        have := hnew f hcurf
        rwa [applyAll_fields hcurf, if_neg hf, (h.holds hi).1 f hcurf] at this
    -- the interruptions behind `id`, behind `name` and behind `addr`
    have hid := hcut [.id] [.name, .type, .addr, .atype] rfl
    have hname := hcut [.id, .name] [.type, .addr, .atype] rfl
    have haddr := hcut [.id, .name, .type, .addr] [.atype] rfl
    by_cases h1 : old.value .id = e.value .id
    · by_cases h2 : old.value .name = e.value .name
      · by_cases h3 : old.value .addr = e.value .addr
        · refine ⟨.atype, fun f hf hne => ?_⟩
          cases f with
          | id => exact h1
          | name => exact h2
          | addr => exact h3
          | type => exact absurd rfl hf
          | atype => exact absurd rfl hne
        · refine ⟨.addr, fun f hf hne => ?_⟩
          have h4 := haddr.resolve_left fun hsame => h3 (hsame .addr (by simp) (by decide)).symm
          cases f with
          | id => exact h1
          | name => exact h2
          | addr => exact absurd rfl hne
          | type => exact absurd rfl hf
          | atype => exact h4 .atype (by simp) (by decide)
      · refine ⟨.name, fun f hf hne => ?_⟩
        have h34 := hname.resolve_left fun hsame => h2 (hsame .name (by simp) (by decide)).symm
        by_cases hfid : f = .id
        · rw [hfid]; exact h1
        · exact h34 f (by simp [hfid, hne]) hf
    · refine ⟨.id, fun f hf hne => ?_⟩
      have h234 := hid.resolve_left fun hsame => h1 (hsame .id (by simp) (by decide)).symm
      exact h234 f (by simp [hne]) hf
  · intro hone nvs' hcut
    rcases update_cut h hi hnamed hone hcut with hs | ⟨hs, _⟩
    · exact Or.inl hs.loads
    · exact Or.inr hs.loads

end Update

/-! ## Deletes -/

/-- From `i` on every entry is the same as the next one. -/
def SameFrom (entries : List Entry) (i : Nat) : Prop :=
  ∀ j, i ≤ j → j + 1 < entries.length → entries[j]? = entries[j + 1]?

/-- The calls that move the records behind `i` down, up to the one that lands in `i + m - 1`. -/
def shifts (compacted : List Entry) (i m : Nat) : List Call :=
  (List.range' i m).flatMap fun j => saveEntry j (compacted.getD j default)

/-- The record of the entry under the last index is incomplete, or out of count. -/
structure Shrunk (nvs : Nvs) (after : List Entry) : Prop where
  version : nvs .schemaVer = some (.u8 DEVICE_STORE_SCHEMA_VERSION)
  count : nvs .count = some (.u8 (UInt8.ofNat (after.length + 1))) ∨
    nvs .count = some (.u8 (UInt8.ofNat after.length))
  room : after.length + 1 ≤ DEVICE_STORE_MAX_DEVICES
  records : ∀ (i : Nat) (e : Entry), after[i]? = some e → loadEntryV3 nvs i = .ok e
  last : nvs (.field .id after.length) = none

theorem Shrunk.loads {nvs : Nvs} {after : List Entry} (h : Shrunk nvs after) :
    DeviceStore.loads nvs = some after := by
  rcases h.count with hcount | hcount
  · -- the last record is still counted, and skipped as corrupt
    have hcur : Current nvs (after.length + 1) := ⟨h.version, hcount, h.room⟩
    refine hcur.loads_iff.mpr ?_
    rw [List.range_succ]
    refine loadRecords_append_corrupt (loadRecords_of_all (by simp) fun j i e hi he => ?_) ?_
    · obtain ⟨hj, hval⟩ := List.getElem?_eq_some_iff.mp hi
      rw [List.getElem_range] at hval
      rw [loadEntry_current]
      exact hval ▸ h.records j e he
    · rw [loadEntry_current, loadEntryV3]
      have hid : loadRequiredStrV2 nvs (.field .id after.length) DEVICE_ID_MAX_LEN =
          .error .corrupt := by
        rw [loadRequiredStrV2, nvsGetStr, h.last]
        rfl
      rw [hid]
      rfl
  · have hroom : after.length ≤ DEVICE_STORE_MAX_DEVICES :=
      Nat.le_trans (Nat.le_succ _) h.room
    exact Stored.loads ⟨h.version, hcount, hroom, h.records⟩

theorem Shrunk.call {nvs : Nvs} {after : List Entry} (h : Shrunk nvs after) {c : Call}
    (hc : c ∈ eraseEntry after.length ++ saveMetadata after.length ++ [.commit]) :
    Shrunk (c.apply nvs) after := by
  simp only [List.mem_append, List.mem_singleton] at hc
  rcases hc with (hc | hc) | rfl
  · obtain ⟨f, _, rfl⟩ := List.mem_map.mp hc
    have hother : ∀ key, key ≠ .field f after.length →
        (Call.erase (.field f after.length)).apply nvs key = nvs key := fun key hkey =>
      Call.apply_of_ne (by simpa [Call.key] using hkey.symm) nvs
    refine ⟨?_, ?_, h.room, fun i e he => ?_, ?_⟩
    · rw [hother _ (by simp)]; exact h.version
    · rw [hother _ (by simp)]; exact h.count
    · have hi : i < after.length := (List.getElem?_eq_some_iff.mp he).1
      rw [← loadEntry_current, loadEntry_congr (b := nvs) (fun g => hother _ fun hg => ?_),
        loadEntry_current]
      · exact h.records i e he
      · have := (Key.field.inj hg).2
        omega
    · by_cases hf : f = .id
      · subst hf
        simp [Call.apply]
      · rw [hother _ (by simpa using Ne.symm hf)]
        exact h.last
  · simp only [saveMetadata, List.mem_cons, List.not_mem_nil, or_false] at hc
    rcases hc with rfl | rfl
    · have hother : ∀ key, key ≠ .count →
          (Call.setU8 .count (UInt8.ofNat after.length)).apply nvs key = nvs key := fun key hkey =>
        Call.apply_of_ne (by simpa [Call.key] using hkey.symm) nvs
      refine ⟨?_, Or.inr (Call.setU8_self ..), h.room, fun i e he => ?_, ?_⟩
      · rw [hother _ (by simp)]; exact h.version
      · rw [← loadEntry_current, loadEntry_congr fun g => hother _ (by simp), loadEntry_current]
        exact h.records i e he
      · rw [hother _ (by simp)]; exact h.last
    · have hother : ∀ key, key ≠ .schemaVer →
          (Call.setU8 .schemaVer DEVICE_STORE_SCHEMA_VERSION).apply nvs key = nvs key :=
        fun key hkey => Call.apply_of_ne (by simpa [Call.key] using hkey.symm) nvs
      refine ⟨Call.setU8_self .., ?_, h.room, fun i e he => ?_, ?_⟩
      · rw [hother _ (by simp)]; exact h.count
      · rw [← loadEntry_current, loadEntry_congr fun g => hother _ (by simp), loadEntry_current]
        exact h.records i e he
      · rw [hother _ (by simp)]; exact h.last
  · exact h

section Delete

variable {nvs : Nvs} {entries : List Entry} {i : Nat}

theorem getD_eraseIdx {j : Nat} (hij : i ≤ j) (hj : j + 1 < entries.length) :
    entries[j + 1]? = some ((entries.eraseIdx i).getD j default) := by
  rw [List.getD_eq_getElem?_getD, List.getElem?_eraseIdx_of_ge hij,
    List.getElem?_eq_getElem hj]
  rfl

/-- After moving `m` records, the list has the entries behind `i` once more in front. -/
theorem shifts_stored (h : Stored nvs entries) {m : Nat} (hm : i + m < entries.length) :
    ∃ l, Stored (applyAll storage (shifts (entries.eraseIdx i) i m) nvs) l ∧
      l.length = entries.length ∧
      ∀ j, i ≤ j → j < i + m → l[j]? = entries[j + 1]? := by
  induction m with
  | zero => exact ⟨entries, h, rfl, fun j hij hj => by omega⟩
  | succ m ih =>
      obtain ⟨l, hl, hlen, hmoved⟩ := ih (by omega)
      have hnext : entries[i + m + 1]? = some ((entries.eraseIdx i).getD (i + m) default) :=
        getD_eraseIdx (Nat.le_add_right i m) (by omega)
      have hnamed := (h.holds hnext).2
      refine ⟨l.set (i + m) ((entries.eraseIdx i).getD (i + m) default), ?_, ?_,
        fun j hij hj => ?_⟩
      · rw [shifts, List.range'_concat, List.flatMap_append, applyAll_append, Nat.one_mul]
        simp only [List.flatMap_cons, List.flatMap_nil, List.append_nil]
        exact hl.saveEntry (i + m) hnamed
      · rw [List.length_set, hlen]
      · by_cases hjm : j = i + m
        · subst hjm
          rw [List.getElem?_set_self (by omega), hnext]
        · rw [List.getElem?_set_ne (by omega)]
          exact hmoved j hij (by omega)

/-- **A delete is atomic exactly when there is no record to move**, or only equal ones. -/
theorem delete_atomic_iff (h : Stored nvs entries) (hi : i < entries.length) :
    CrashAtomic nvs (nvsDelete i (entries.eraseIdx i) entries.length) entries
      (entries.eraseIdx i) ↔ SameFrom entries i := by
  have hlen : (entries.eraseIdx i).length = entries.length - 1 :=
    List.length_eraseIdx_of_lt hi
  constructor
  · intro hatomic j hij hj
    -- cut behind the record that lands in place `j`
    have hcalls : nvsDelete i (entries.eraseIdx i) entries.length =
        ([.openNvs] ++ shifts (entries.eraseIdx i) i (j + 1 - i)) ++
          (shifts (entries.eraseIdx i) (j + 1) (entries.length - 1 - (j + 1)) ++
            (eraseEntry (entries.length - 1) ++ saveMetadata (entries.length - 1) ++
              [.commit])) := by
      have hrange : List.range' i (entries.length - 1 - i) =
          List.range' i (j + 1 - i) ++
            List.range' (j + 1) (entries.length - 1 - (j + 1)) := by
        have hsplit := List.range'_append_1 (s := i) (m := j + 1 - i)
          (n := entries.length - 1 - (j + 1))
        rw [show i + (j + 1 - i) = j + 1 by omega,
          show j + 1 - i + (entries.length - 1 - (j + 1)) =
            entries.length - 1 - i by omega] at hsplit
        exact hsplit.symm
      simp only [nvsDelete, shifts, hrange, List.flatMap_append, List.append_assoc]
    obtain ⟨l, hl, hllen, hmoved⟩ := shifts_stored h (i := i) (m := j + 1 - i) (by omega)
    have hread := hatomic _ (by rw [hcalls]; exact Cut.after _ _ nvs)
    rw [applyAll_append] at hread
    have hloads : loads (applyAll storage (shifts (entries.eraseIdx i) i (j + 1 - i))
        (applyAll storage [.openNvs] nvs)) = some l := hl.loads
    rw [hloads] at hread
    rcases hread with hbefore | hafter
    · cases hbefore
      exact hmoved j hij (by omega)
    · cases hafter
      omega
  · intro hsame nvs' hcut
    have hentry : ∀ j, j < entries.length - 1 → (entries.eraseIdx i)[j]? = entries[j]? := by
      intro j hj
      by_cases hij : j < i
      · exact List.getElem?_eraseIdx_of_lt hij
      · rw [List.getElem?_eraseIdx_of_ge (by omega)]
        exact (hsame j (by omega) (by omega)).symm
    have hstored : ∀ {nvs' : Nvs}, Cut storage
        ([.openNvs] ++ shifts (entries.eraseIdx i) i (entries.length - 1 - i)) nvs nvs' →
          Stored nvs' entries := by
      intro nvs' hcut
      refine Cut.invariant (P := fun nvs => Stored nvs entries) (fun c hc nvs hs => ?_) h hcut
      simp only [shifts, List.mem_append, List.mem_singleton, List.mem_flatMap] at hc
      rcases hc with rfl | ⟨j, hj, hc⟩
      · exact hs
      · -- the record that moves is the one that stands there
        obtain ⟨hij, hjlt⟩ := List.mem_range'_1.mp hj
        obtain ⟨f, hf⟩ := writes_of_mem_saveEntry hc
        have he : entries[j]? = some ((entries.eraseIdx i).getD j default) := by
          rw [hsame j hij (by omega)]
          exact getD_eraseIdx hij (by omega)
        exact hs.congr (hf.same fun hcur => (hs.holds he).1 f hcur)
    have hcalls : nvsDelete i (entries.eraseIdx i) entries.length =
        ([.openNvs] ++ shifts (entries.eraseIdx i) i (entries.length - 1 - i)) ++
          (.erase (.field .id (entries.length - 1)) ::
            (([.name, .type, .addr, .atype].map fun f =>
              Call.erase (.field f (entries.length - 1))) ++
                saveMetadata (entries.length - 1) ++ [.commit])) := by
      simp [nvsDelete, shifts, eraseEntry]
    rw [hcalls] at hcut
    rcases hcut.append with hcut | ⟨t, hdone, hcut⟩
    · exact Or.inl (hstored hcut).loads
    · have ht := hstored hdone.cut
      rcases hcut.cons rfl with rfl | hcut
      · exact Or.inl ht.loads
      · right
        -- without its id the last record is no record
        have hother : ∀ key, key ≠ .field .id (entries.length - 1) →
            (Call.erase (.field .id (entries.length - 1))).apply t key = t key := fun key hkey =>
          Call.apply_of_ne (by simpa [Call.key] using hkey.symm) t
        have hshrunk : Shrunk ((Call.erase (.field .id (entries.length - 1))).apply t)
            (entries.eraseIdx i) := by
          refine ⟨?_, Or.inl ?_, ?_, fun j e he => ?_, ?_⟩
          · rw [hother _ (by simp)]; exact ht.version
          · rw [hother _ (by simp), hlen, Nat.sub_add_cancel (by omega)]; exact ht.count
          · rw [hlen, Nat.sub_add_cancel (by omega)]; exact h.room
          · have hj : j < entries.length - 1 := by
              rw [← hlen]
              exact (List.getElem?_eq_some_iff.mp he).1
            rw [hentry j hj] at he
            rw [← loadEntry_current, loadEntry_congr (b := t) (fun g => hother _ fun hg => ?_),
              loadEntry_current]
            · exact ht.records j e he
            · have := (Key.field.inj hg).2
              omega
          · rw [hlen]
            simp [Call.apply]
        refine Shrunk.loads (Cut.invariant (P := fun nvs => Shrunk nvs (entries.eraseIdx i))
          (fun c hc nvs hs => hs.call ?_) hshrunk hcut)
        rw [hlen]
        exact List.mem_cons_of_mem _ hc

end Delete

/-! ## The rewrite of a load -/

/-- Every entry that the load keeps stands in its final place, and the strict loader reads it
there like the loader of the stored version. -/
def RewriteSafe (nvs : Nvs) (entries : List Entry) : Prop :=
  ∀ v, storedVersion nvs = .ok v → ∀ (i : Nat) (e : Entry), entries[i]? = some e →
    loadEntry nvs v i = .ok e ∧ loadEntryV3 nvs i = .ok e

section Rewrite

variable {nvs : Nvs} {entries : List Entry} {calls : List Call}

/-- Once the metadata is written, the rest of a safe rewrite keeps the list stored. -/
theorem rewrite_call (h : Stored nvs entries) {rawCount : Nat} {c : Call}
    (hc : c ∈ (List.range entries.length).flatMap
        (fun i => saveEntry i (entries.getD i default)) ++
      (List.range' entries.length (rawCount - entries.length)).flatMap eraseEntry ++ [.commit]) :
    Stored (c.apply nvs) entries := by
  simp only [List.mem_append, List.mem_flatMap, List.mem_singleton] at hc
  rcases hc with (⟨i, hi, hc⟩ | ⟨j, hj, hc⟩) | rfl
  · obtain ⟨f, hf⟩ := writes_of_mem_saveEntry hc
    have hlt : i < entries.length := List.mem_range.mp hi
    have he : entries[i]? = some (entries.getD i default) := by
      rw [List.getD_eq_getElem?_getD, List.getElem?_eq_getElem hlt]
      rfl
    exact h.congr (hf.same fun hcur => (h.holds he).1 f hcur)
  · have hle : entries.length ≤ j := (List.mem_range'_1.mp hj).1
    obtain ⟨f, _, rfl⟩ := List.mem_map.mp hc
    refine h.beyond hle fun key hkey => Call.apply_of_ne ?_ nvs
    exact fun he => hkey f (Option.some.inj he).symm
  · exact h

/-- **The rewrite of a load is atomic exactly when it is safe.** -/
theorem rewrite_atomic_iff (h : nvsLoad nvs = .ok (entries, calls)) :
    CrashAtomic nvs calls entries entries ↔ RewriteSafe nvs entries := by
  obtain ⟨v, n, hv, hold, hn, hroom, hrec, hcalls⟩ := nvsLoad_eq_ok.mp h
  have hloads : loads nvs = some entries := loads_eq_some.mpr ⟨calls, h⟩
  have hlen : entries.length ≤ n.toNat := by simpa using loadRecords_length_le hrec
  have hroom' : entries.length ≤ DEVICE_STORE_MAX_DEVICES := Nat.le_trans hlen hroom
  by_cases hsame : v ≠ DEVICE_STORE_SCHEMA_VERSION ∨ entries.length ≠ n.toNat
  · -- the first two calls write the count and the version
    rw [rewrite, if_pos hsame] at hcalls
    generalize hrest : (List.range entries.length).flatMap
        (fun i => saveEntry i (entries.getD i default)) ++
      (List.range' entries.length (n.toNat - entries.length)).flatMap eraseEntry ++
        [Call.commit] = rest at hcalls
    have hcalls' : calls = .setU8 .count (UInt8.ofNat entries.length) ::
        .setU8 .schemaVer DEVICE_STORE_SCHEMA_VERSION :: rest := by
      rw [hcalls, ← hrest]
      simp [saveMetadata]
    have hcount : ∀ key, key ≠ .count →
        (Call.setU8 .count (UInt8.ofNat entries.length)).apply nvs key = nvs key :=
      fun key hkey => Call.apply_of_ne (by simpa [Call.key] using hkey.symm) nvs
    generalize hnvs₁ : (Call.setU8 .count (UInt8.ofNat entries.length)).apply nvs = nvs₁
      at hcount
    have hcount₁ : storedCount nvs₁ = .ok (UInt8.ofNat entries.length) :=
      storedCount_of_u8 (by rw [← hnvs₁]; exact Call.setU8_self ..)
    have hversion₁ : storedVersion nvs₁ = .ok v := by
      rw [← hv, storedVersion, storedVersion, nvsGetU8, nvsGetU8, hcount _ (by simp)]
    have hversion : ∀ key, key ≠ .schemaVer →
        (Call.setU8 .schemaVer DEVICE_STORE_SCHEMA_VERSION).apply nvs₁ key = nvs₁ key :=
      fun key hkey => Call.apply_of_ne (by simpa [Call.key] using hkey.symm) nvs₁
    generalize hnvs₂ : (Call.setU8 .schemaVer DEVICE_STORE_SCHEMA_VERSION).apply nvs₁ = nvs₂
      at hversion
    have hcur₂ : Current nvs₂ entries.length := by
      refine ⟨by rw [← hnvs₂]; exact Call.setU8_self .., ?_, hroom'⟩
      rw [hversion _ (by simp), ← hnvs₁]
      exact Call.setU8_self ..
    have hlen₁ : entries.length = (UInt8.ofNat entries.length).toNat := (toNat_count hroom').symm
    have hrecord₁ : ∀ i, loadEntry nvs₁ v i = loadEntry nvs v i := fun i =>
      loadEntry_congr (fun f => hcount _ (by simp)) v
    have hrecord₂ : ∀ i, loadEntryV3 nvs₂ i = loadEntryV3 nvs i := by
      intro i
      rw [← loadEntry_current, ← loadEntry_current]
      exact loadEntry_congr (fun f => by rw [hversion _ (by simp), hcount _ (by simp)]) _
    constructor
    · intro hatomic v' hv' i e he
      obtain rfl := Except.ok.inj (hv.symm.trans hv')
      have hread₁ : loads nvs₁ = some entries := by
        have hcut : Cut storage calls nvs nvs₁ := by
          rw [hcalls', ← hnvs₁]
          exact .call (.stop _ _)
        exact (hatomic _ hcut).elim id id
      have hread₂ : loads nvs₂ = some entries := by
        have hcut : Cut storage calls nvs nvs₂ := by
          rw [hcalls', ← hnvs₂, ← hnvs₁]
          exact .call (.call (.stop _ _))
        exact (hatomic _ hcut).elim id id
      constructor
      · rw [← hrecord₁]
        exact record_of_full hread₁ hversion₁ hcount₁ hlen₁ he
      · rw [← hrecord₂, ← loadEntry_current]
        exact record_of_full hread₂ (storedVersion_of_u8 hcur₂.version)
          (storedCount_of_u8 hcur₂.count) hlen₁ he
    · intro hsafe nvs' hcut
      left
      have hstored₂ : Stored nvs₂ entries :=
        ⟨hcur₂.version, hcur₂.count, hcur₂.room, fun i e he => by
          rw [hrecord₂]
          exact (hsafe v hv i e he).2⟩
      rw [hcalls'] at hcut
      rcases hcut.cons rfl with rfl | hcut
      · exact hloads
      · change Cut storage _ ((Call.setU8 .count (UInt8.ofNat entries.length)).apply nvs) nvs'
          at hcut
        rw [hnvs₁] at hcut
        rcases hcut.cons rfl with rfl | hcut
        · refine loads_of_records hversion₁ hold hcount₁ hlen₁ hroom' fun i e he => ?_
          rw [hrecord₁]
          exact (hsafe v hv i e he).1
        · change Cut storage _
            ((Call.setU8 .schemaVer DEVICE_STORE_SCHEMA_VERSION).apply nvs₁) nvs' at hcut
          rw [hnvs₂] at hcut
          have := Cut.invariant (P := fun nvs => Stored nvs entries)
            (fun c hc nvs hs => rewrite_call hs (by rw [hrest]; exact hc)) hstored₂ hcut
          exact this.loads
  · -- nothing is rewritten: the store is current and complete
    rw [rewrite, if_neg hsame] at hcalls
    obtain ⟨hver, hcomplete⟩ : v = DEVICE_STORE_SCHEMA_VERSION ∧ entries.length = n.toNat := by
      constructor
      · by_contra hne
        exact hsame (Or.inl hne)
      · by_contra hne
        exact hsame (Or.inr hne)
    subst hcalls
    constructor
    · intro _ v' hv' i e he
      obtain rfl := Except.ok.inj (hv.symm.trans hv')
      have hrecord := record_of_full hloads hv hn hcomplete he
      refine ⟨hrecord, ?_⟩
      rwa [hver, loadEntry_current] at hrecord
    · intro _ nvs' hcut
      cases hcut
      exact Or.inl hloads

end Rewrite

/-! ## The operations of the store -/

inductive Operation
  | delete (id : CString)
  | edit (id newName : CString)
  | setBleIdentity (id : CString) (identity : BleIdentity)

def Operation.effect (entries : List Entry) : Operation → Effect
  | .delete id => DeviceStore.delete entries id
  | .edit id newName => DeviceStore.edit entries id newName
  | .setBleIdentity id identity => DeviceStore.setBleIdentity entries id identity

/-- When an operation can be interrupted: a delete has no different record to move, and an
identity that is written changes only the address, or only its type, of one that is there. -/
def Operation.Safe (entries : List Entry) : Operation → Prop
  | .delete id => ∀ i, findUnlocked entries id = some i → SameFrom entries i
  | .edit _ _ => True
  | .setBleIdentity id identity =>
      identity.addrType ≤ DEVICE_STORE_BLE_ADDR_TYPE_MAX →
        identityInUseUnlocked entries id identity = false →
          ∀ i e, findUnlocked entries id = some i → entries[i]? = some e →
            e.identity ≠ some identity → ∃ old, e.identity = some old ∧
              (old.addr = identity.addr ∨ old.addrType = identity.addrType)

theorem findUnlocked_spec {entries : List Entry} {id : CString} {i : Nat}
    (h : findUnlocked entries id = some i) : entries[i]? = some (entries.getD i default) := by
  obtain ⟨hi, _⟩ := List.findIdx?_eq_some_iff_getElem.mp h
  rw [List.getD_eq_getElem?_getD, List.getElem?_eq_getElem hi]
  rfl

/-- A refused operation makes no call. -/
theorem crashAtomic_refuse {nvs : Nvs} {entries : List Entry} (h : Stored nvs entries)
    (result : StoreResult) :
    CrashAtomic nvs (refuse entries result).calls entries (refuse entries result).after := by
  intro nvs' hcut
  cases hcut
  exact Or.inl h.loads

theorem oneFieldApart_name (e : Entry) (name : CharBuf DEVICE_NAME_MAX_LEN) :
    OneFieldApart e { e with name := name } := by
  refine ⟨.name, fun f hf hne => ?_⟩
  cases f with
  | name => exact absurd rfl hne
  | type => exact absurd rfl hf
  | _ => rfl

theorem oneFieldApart_identity {e : Entry} {identity : BleIdentity} :
    OneFieldApart e { e with identity := some identity } ↔ ∃ old, e.identity = some old ∧
      (old.addr = identity.addr ∨ old.addrType = identity.addrType) := by
  constructor
  · rintro ⟨f₀, h⟩
    -- the address or its type is not the field that changes
    by_cases hf : f₀ = .addr
    · have htype := h .atype (by decide) (by rw [hf]; decide)
      obtain ⟨old, hold, hval⟩ := Option.map_eq_some_iff.mp htype
      exact ⟨old, hold, Or.inr (NvsValue.u8.inj hval)⟩
    · have haddr := h .addr (by decide) (Ne.symm hf)
      obtain ⟨old, hold, hval⟩ := Option.map_eq_some_iff.mp haddr
      exact ⟨old, hold, Or.inl (Vector.toList_inj.mp (NvsValue.blob.inj hval))⟩
  · rintro ⟨old, hold, haddr | htype⟩
    · refine ⟨.atype, fun f hf hne => ?_⟩
      cases f with
      | atype => exact absurd rfl hne
      | type => exact absurd rfl hf
      | addr => simp [Entry.value, hold, haddr]
      | _ => rfl
    · refine ⟨.addr, fun f hf hne => ?_⟩
      cases f with
      | addr => exact absurd rfl hne
      | type => exact absurd rfl hf
      | atype => simp [Entry.value, hold, htype]
      | _ => rfl

theorem edit_atomic {nvs : Nvs} {entries : List Entry} (h : Stored nvs entries)
    (id newName : CString) :
    CrashAtomic nvs (edit entries id newName).calls entries (edit entries id newName).after := by
  unfold edit
  cases hfind : findUnlocked entries id with
  | none => exact crashAtomic_refuse h _
  | some i =>
      have hi := findUnlocked_spec hfind
      dsimp only
      unfold entryEdit
      by_cases hvalid : validText newName DEVICE_NAME_MAX_LEN = true
      · rw [if_pos hvalid]
        have hname : newName ≠ [] ∧ newName.length < DEVICE_NAME_MAX_LEN := by
          simp only [validText, Bool.and_eq_true, decide_eq_true_eq] at hvalid
          exact ⟨List.length_pos_iff.mp hvalid.1, hvalid.2⟩
        have hnamed :
            ({ entries.getD i default with name := strlcpy _ newName } : Entry).Named := by
          refine ⟨(h.holds hi).2.1, ?_⟩
          rw [strlcpy_text hname.2]
          exact hname.1
        exact (update_atomic_iff h hi hnamed).mpr (oneFieldApart_name _ _)
      · rw [if_neg hvalid]
        exact crashAtomic_refuse h _

theorem setBleIdentity_atomic_iff {nvs : Nvs} {entries : List Entry} (h : Stored nvs entries)
    (id : CString) (identity : BleIdentity) :
    CrashAtomic nvs (setBleIdentity entries id identity).calls entries
      (setBleIdentity entries id identity).after ↔
        (Operation.setBleIdentity id identity).Safe entries := by
  unfold setBleIdentity
  by_cases htype : identity.addrType > DEVICE_STORE_BLE_ADDR_TYPE_MAX
  · rw [if_pos htype]
    exact iff_of_true (crashAtomic_refuse h _) fun hle => absurd htype (UInt8.not_lt.mpr hle)
  · rw [if_neg htype]
    have hle := UInt8.not_lt.mp htype
    cases hfind : findUnlocked entries id with
    | none =>
        refine iff_of_true (crashAtomic_refuse h _) fun _ _ i e hi => ?_
        cases hfind.symm.trans hi
    | some i =>
        have hi := findUnlocked_spec hfind
        dsimp only
        by_cases hsame : (entries.getD i default).identity = some identity
        · rw [if_pos hsame]
          refine iff_of_true (crashAtomic_refuse h _) fun _ _ j e hj he hne => ?_
          obtain rfl := Option.some.inj (hfind.symm.trans hj)
          obtain rfl := Option.some.inj (hi.symm.trans he)
          exact absurd hsame hne
        · rw [if_neg hsame]
          by_cases huse : identityInUseUnlocked entries id identity = true
          · rw [if_pos huse]
            exact iff_of_true (crashAtomic_refuse h _)
              fun _ hno => absurd (huse.symm.trans hno) (by simp)
          · rw [if_neg huse]
            have hnamed :
                ({ entries.getD i default with identity := some identity } : Entry).Named :=
              (h.holds hi).2
            rw [update_atomic_iff h hi hnamed, oneFieldApart_identity]
            constructor
            · intro hold _ _ j e hj he _
              obtain rfl := Option.some.inj (hfind.symm.trans hj)
              obtain rfl := Option.some.inj (hi.symm.trans he)
              exact hold
            · intro hsafe
              exact hsafe hle (by simpa using huse) i _ hfind hi hsame

/-- The operations, one by one. -/
theorem operation_atomic_iff (s : Store) (op : Operation) :
    CrashAtomic s.nvs (op.effect s.entries).calls s.entries (op.effect s.entries).after ↔
      op.Safe s.entries := by
  cases op with
  | delete id =>
      simp only [Operation.effect, delete]
      cases hfind : findUnlocked s.entries id with
      | none =>
          refine iff_of_true (crashAtomic_refuse s.stored _) fun i hi => ?_
          cases hfind.symm.trans hi
      | some i =>
          have hi := (List.getElem?_eq_some_iff.mp (findUnlocked_spec hfind)).1
          dsimp only
          rw [delete_atomic_iff s.stored hi]
          constructor
          · intro hsame j hj
            obtain rfl := Option.some.inj (hfind.symm.trans hj)
            exact hsame
          · exact fun hsafe => hsafe i hfind
  | edit id newName => exact iff_of_true (edit_atomic s.stored id newName) trivial
  | setBleIdentity id identity => exact setBleIdentity_atomic_iff s.stored id identity

/-- What changes the flash: an operation on a stored list, or a load, which may rewrite the
records it found. -/
inductive Change
  | operation (s : Store) (op : Operation)
  | rewrite (nvs : Nvs) (entries : List Entry) (calls : List Call)
      (h : nvsLoad nvs = .ok (entries, calls))

namespace Change

def nvs : Change → Nvs
  | operation s _ => s.nvs
  | rewrite nvs _ _ _ => nvs

def calls : Change → List Call
  | operation s op => (op.effect s.entries).calls
  | rewrite _ _ calls _ => calls

def before : Change → List Entry
  | operation s _ => s.entries
  | rewrite _ entries _ _ => entries

def after : Change → List Entry
  | operation s op => (op.effect s.entries).after
  | rewrite _ entries _ _ => entries

def Safe : Change → Prop
  | operation s op => op.Safe s.entries
  | rewrite nvs entries _ _ => RewriteSafe nvs entries

end Change

/-- **Crash atomicity.** A change can be interrupted anywhere, so that a later load gives the
list before or after it, exactly when it is `Safe`. -/
theorem crash_atomic_iff (c : Change) : CrashAtomic c.nvs c.calls c.before c.after ↔ c.Safe := by
  cases c with
  | operation s op => exact operation_atomic_iff s op
  | rewrite nvs entries calls h => exact rewrite_atomic_iff h

/-- Two devices, `a` named `x` and `b` named `y`. -/
def twoEntries : List Entry :=
  [⟨strlcpy _ (cstr "a"), strlcpy _ (cstr "x"), none⟩,
    ⟨strlcpy _ (cstr "b"), strlcpy _ (cstr "y"), none⟩]

/-- The storage in which they were added. -/
def twoNvs : Nvs :=
  applyAll storage ((add [] (cstr "a") (cstr "x")).calls ++
    (add (twoEntries.take 1) (cstr "b") (cstr "y")).calls) fun _ => none

def twoDevices : Store where
  nvs := twoNvs
  entries := twoEntries
  stored :=
    { version := by rfl
      count := by rfl
      room := by decide
      records := fun i e he => by
        match i with
        | 0 => cases he; rfl
        | 1 => cases he; rfl
        | _ + 2 => cases he }

/-- The power fails while `a` is deleted, when the id of `b` has been written over its id: the
next load gives a device `b` with the name of `a`. -/
theorem half_moved : ∃ c : Change, ¬CrashAtomic c.nvs c.calls c.before c.after := by
  refine ⟨.operation twoDevices (.delete (cstr "a")), fun h => ?_⟩
  have hcalls : (delete twoEntries (cstr "a")).calls =
      [.openNvs, .setStr (.field .id 0) (cstr "b")] ++
        (delete twoEntries (cstr "a")).calls.drop 2 := by rfl
  have hcut := h (applyAll storage [.openNvs, .setStr (.field .id 0) (cstr "b")] twoNvs) (by
    change Cut storage (delete twoEntries (cstr "a")).calls twoNvs _
    rw [hcalls]
    exact Cut.after _ _ twoNvs)
  have hloads : loads (applyAll storage [.openNvs, .setStr (.field .id 0) (cstr "b")] twoNvs) =
      some [⟨strlcpy _ (cstr "b"), strlcpy _ (cstr "x"), none⟩,
        ⟨strlcpy _ (cstr "b"), strlcpy _ (cstr "y"), none⟩] := by rfl
  rw [hloads] at hcut
  revert hcut
  decide

end BleGateway.DeviceStore
