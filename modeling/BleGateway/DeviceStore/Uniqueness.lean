import BleGateway.DeviceStore.Migration
import BleGateway.Lib.Machine

/-! # One device for an id, one device for an address

Adding a device and binding an address refuse what another entry already has, so the operations
keep the list free of duplicates. The loaders look at each record alone. What they take is free of
duplicates exactly when the stored records are.
-/

namespace BleGateway.DeviceStore

/-! ## Lists without duplicates -/

/-- The entries have different ids, and no address in common. -/
def Apart (e e' : Entry) : Prop :=
  e.deviceId.text ≠ e'.deviceId.text ∧ ∀ b, e.identity = some b → e'.identity ≠ some b

variable {e : Entry} {i : Nat} {entries : List Entry}

theorem Apart.symm {e' : Entry} (h : Apart e e') : Apart e' e :=
  ⟨h.1.symm, fun b hb' hb => h.2 b hb hb'⟩

/-- The address of the entry, if it has one, is of a type that BLE knows. -/
def Typed (e : Entry) : Prop :=
  ∀ b, e.identity = some b → b.addrType ≤ DEVICE_STORE_BLE_ADDR_TYPE_MAX

/-- The ids are pairwise distinct, the addresses are, and each is of a valid type. -/
structure Unique (entries : List Entry) : Prop where
  apart : entries.Pairwise Apart
  typed : ∀ e ∈ entries, Typed e

/-- Replacing one element keeps a symmetric relation between the elements if the new one has it to
all others. -/
theorem pairwise_set {α : Type} {R : α → α → Prop} (hsymm : ∀ {a b}, R a b → R b a) {l : List α}
    (h : l.Pairwise R) {a : α} (hother : ∀ j b, j ≠ i → l[j]? = some b → R a b) :
    (l.set i a).Pairwise R := by
  rw [List.pairwise_iff_getElem] at h ⊢
  intro j k hj hk hjk
  rw [List.length_set] at hj hk
  rw [List.getElem_set, List.getElem_set]
  by_cases hji : i = j
  · -- the new element is the left one
    rw [if_pos hji, if_neg (by omega)]
    exact hother k _ (by omega) (List.getElem?_eq_getElem hk)
  · rw [if_neg hji]
    by_cases hki : i = k
    · rw [if_pos hki]
      exact hsymm (hother j _ (by omega) (List.getElem?_eq_getElem hj))
    · rw [if_neg hki]
      exact h j k hj hk hjk

/-- Two different places of a list without duplicates hold entries that are apart. -/
theorem Unique.apart_of_ne (h : Unique entries) {j : Nat} {e' : Entry} (hi : entries[i]? = some e)
    (hj : entries[j]? = some e') (hne : i ≠ j) : Apart e e' := by
  obtain ⟨hilt, rfl⟩ := List.getElem?_eq_some_iff.mp hi
  obtain ⟨hjlt, rfl⟩ := List.getElem?_eq_some_iff.mp hj
  have hall := List.pairwise_iff_getElem.mp h.apart
  rcases Nat.lt_or_gt_of_ne hne with hlt | hlt
  · exact hall i j hilt hjlt hlt
  · exact (hall j i hjlt hilt hlt).symm

/-! ## The operations -/

/-- What finding an id says about the list. -/
theorem findUnlocked_eq_some {id : CString} (h : findUnlocked entries id = some i) :
    ∃ e, entries[i]? = some e ∧ entries.getD i default = e ∧ e.deviceId.text = id := by
  obtain ⟨hi, hid, -⟩ := List.findIdx?_eq_some_iff_getElem.mp h
  refine ⟨entries[i], List.getElem?_eq_getElem hi, ?_, of_decide_eq_true hid⟩
  rw [List.getD_eq_getElem?_getD, List.getElem?_eq_getElem hi]
  rfl

theorem ne_of_findUnlocked_eq_none {id : CString} (h : findUnlocked entries id = none)
    (he : e ∈ entries) : e.deviceId.text ≠ id :=
  of_decide_eq_false (List.findIdx?_eq_none_iff.mp h e he)

theorem Unique.add (h : Unique entries) (id name : CString) :
    Unique (add entries id name).after := by
  unfold DeviceStore.add
  cases hcreate : entryCreate id name with
  | none => exact h
  | some e =>
      obtain ⟨hid, hidentity⟩ : e.deviceId.text = id ∧ e.identity = none := by
        unfold entryCreate at hcreate
        split at hcreate
        · rename_i hvalid
          rw [Bool.and_eq_true, validText, Bool.and_eq_true] at hvalid
          obtain rfl := (Option.some.inj hcreate).symm
          exact ⟨strlcpy_text (of_decide_eq_true hvalid.1.2), rfl⟩
        · cases hcreate
      cases hfind : findUnlocked entries id with
      | some i => exact h
      | none =>
          dsimp only
          split
          · exact h
          · refine ⟨List.pairwise_append.mpr ⟨h.apart, List.pairwise_singleton _ _, ?_⟩, ?_⟩
            · intro e' he' e'' he''
              rw [List.mem_singleton.mp he'', Apart, hid, hidentity]
              exact ⟨ne_of_findUnlocked_eq_none hfind he', fun b _ he => by cases he⟩
            · intro e' he'
              rcases List.mem_append.mp he' with he' | he'
              · exact h.typed e' he'
              · rw [List.mem_singleton.mp he', Typed, hidentity]
                exact fun b hb => by cases hb

theorem Unique.delete (h : Unique entries) (id : CString) :
    Unique (delete entries id).after := by
  unfold DeviceStore.delete
  cases findUnlocked entries id with
  | none => exact h
  | some i =>
      have hsub : (entries.eraseIdx i).Sublist entries := List.eraseIdx_sublist entries i
      exact ⟨h.apart.sublist hsub, fun e he => h.typed e (hsub.subset he)⟩

/-- Replacing an entry by one with its id and an address of a valid type that no other entry has. -/
theorem Unique.set (h : Unique entries) {e' : Entry} (hi : entries[i]? = some e)
    (hid : e'.deviceId = e.deviceId) (htyped : Typed e')
    (hfree : ∀ f ∈ entries, f.deviceId.text ≠ e.deviceId.text →
      ∀ b, e'.identity = some b → f.identity ≠ some b) :
    Unique (entries.set i e') := by
  refine ⟨pairwise_set Apart.symm h.apart fun j f hj hf => ?_, fun f hf => ?_⟩
  · have hapart : Apart e f := h.apart_of_ne hi hf fun hij => hj hij.symm
    exact ⟨by rw [hid]; exact hapart.1, hfree f (List.mem_of_getElem? hf) hapart.1.symm⟩
  · rcases List.mem_or_eq_of_mem_set hf with hf | rfl
    · exact h.typed f hf
    · exact htyped

theorem Unique.edit (h : Unique entries) (id newName : CString) :
    Unique (edit entries id newName).after := by
  unfold DeviceStore.edit
  cases hfind : findUnlocked entries id with
  | none => exact h
  | some i =>
      obtain ⟨e, hi, hget, -⟩ := findUnlocked_eq_some hfind
      dsimp only
      rw [hget, entryEdit]
      split
      · exact h
      · rename_i updated hupdated
        split at hupdated
        · obtain rfl := (Option.some.inj hupdated).symm
          -- only the name changes
          refine h.set hi rfl (h.typed e (List.mem_of_getElem? hi)) fun f hf hne b hb => ?_
          obtain ⟨j, hj⟩ := List.getElem?_of_mem hf
          have hij : i ≠ j := by
            rintro rfl
            exact hne (congrArg (fun e : Entry => e.deviceId.text)
              (Option.some.inj (hj.symm.trans hi)))
          exact (h.apart_of_ne hi hj hij).2 b hb
        · cases hupdated

theorem Unique.setBleIdentity (h : Unique entries) (id : CString) (identity : BleIdentity) :
    Unique (setBleIdentity entries id identity).after := by
  unfold DeviceStore.setBleIdentity
  split
  · exact h
  · rename_i htype
    cases hfind : findUnlocked entries id with
    | none => exact h
    | some i =>
        obtain ⟨e, hi, hget, hid⟩ := findUnlocked_eq_some hfind
        dsimp only
        rw [hget]
        split
        · exact h
        · split
          · exact h
          · rename_i huse
            refine h.set hi rfl (fun b hb => ?_) fun f hf hne b hb he => ?_
            · cases hb
              exact UInt8.not_lt.mp htype
            · -- an entry with the address would have been found
              cases hb
              apply huse
              rw [identityInUseUnlocked, List.any_eq_true]
              refine ⟨f, hf, ?_⟩
              rw [Bool.and_eq_true]
              exact ⟨decide_eq_true (hid ▸ hne), decide_eq_true he⟩

/-! ## Runs -/

/-- A request to the store, and whether all the NVS calls it makes succeed. -/
inductive Op
  | add (id name : CString)
  | delete (id : CString)
  | edit (id newName : CString)
  | setBleIdentity (id : CString) (identity : BleIdentity)

/-- The effect of a request on the cached list. -/
def Op.effect (op : Op) (entries : List Entry) : Effect :=
  match op with
  | .add id name => DeviceStore.add entries id name
  | .delete id => DeviceStore.delete entries id
  | .edit id newName => DeviceStore.edit entries id newName
  | .setBleIdentity id identity => DeviceStore.setBleIdentity entries id identity

/-- The cached list, from the load of `nvs` on; a request that meets an NVS error leaves it as it
is. -/
def cache (nvs : Nvs) : Machine (List Entry) (Op × Bool) where
  init entries := loads nvs = some entries
  step entries l := some (if l.2 then (l.1.effect entries).after else entries)

theorem Unique.effect (h : Unique entries) (op : Op) :
    Unique (op.effect entries).after := by
  cases op with
  | add id name => exact h.add id name
  | delete id => exact h.delete id
  | edit id newName => exact h.edit id newName
  | setBleIdentity id identity => exact h.setBleIdentity id identity

theorem cache_unique {nvs : Nvs} (h0 : ∀ entries, loads nvs = some entries → Unique entries)
    (hs : (cache nvs).Reachable entries) : Unique entries := by
  refine hs.invariant (I := Unique) h0 fun s l s' hI hstep => ?_
  obtain rfl := (Option.some.inj hstep).symm
  split
  · exact hI.effect l.1
  · exact hI

/-! ## What a load takes -/

/-- A relation between the entries of a loaded list is one between the records that can be read. -/
theorem loadRecords_pairwise_iff {nvs : Nvs} {v : UInt8} {R : Entry → Entry → Prop}
    {is : List Nat} {l : List Entry} (h : loadRecords nvs v is = .ok l) :
    l.Pairwise R ↔ is.Pairwise fun i j => ∀ e e', loadEntry nvs v i = .ok e →
      loadEntry nvs v j = .ok e' → R e e' := by
  induction is generalizing l with
  | nil =>
      cases h
      exact iff_of_true List.Pairwise.nil List.Pairwise.nil
  | cons i is ih =>
      rw [List.pairwise_cons]
      rcases loadRecords_cons h with ⟨e, l', he, hl, rfl⟩ | ⟨hcorrupt, hl⟩
      · rw [List.pairwise_cons, ih hl]
        refine and_congr_left fun _ => ⟨fun hall j hj e₁ e₂ h₁ h₂ => ?_, fun hall e' he' => ?_⟩
        · obtain rfl := Except.ok.inj (h₁.symm.trans he)
          exact hall e₂ ((mem_loadRecords_iff hl).mpr ⟨j, hj, h₂⟩)
        · obtain ⟨j, hj, hload⟩ := (mem_loadRecords_iff hl).mp he'
          exact hall j hj e e' he hload
      · -- a corrupt record constrains nothing
        rw [ih hl]
        refine ⟨fun hall => ⟨fun j _ e₁ _ h₁ => ?_, hall⟩, fun hall => hall.2⟩
        rw [hcorrupt] at h₁
        cases h₁

/-- The stored records that can be read have different ids, different addresses, and addresses of
valid types. -/
structure RecordsUnique (nvs : Nvs) : Prop where
  apart : ∀ v n i j e e', storedVersion nvs = .ok v → storedCount nvs = .ok n → i < j →
    j < n.toNat → loadEntry nvs v i = .ok e → loadEntry nvs v j = .ok e' → Apart e e'
  typed : ∀ v n i e, storedVersion nvs = .ok v → storedCount nvs = .ok n → i < n.toNat →
    loadEntry nvs v i = .ok e → Typed e

theorem unique_iff_recordsUnique {nvs : Nvs} (h : loads nvs = some entries) :
    Unique entries ↔ RecordsUnique nvs := by
  obtain ⟨calls, hload⟩ := loads_eq_some.mp h
  obtain ⟨v, n, hv, -, hn, -, hrec, -⟩ := nvsLoad_eq_ok.mp hload
  have hmem : ∀ {i}, i < n.toNat → ∀ e, loadEntry nvs v i = .ok e → e ∈ entries := fun hi e he =>
    (mem_loadRecords_iff hrec).mpr ⟨_, List.mem_range.mpr hi, he⟩
  constructor
  · intro hunique
    have hpairs := (loadRecords_pairwise_iff hrec).mp hunique.apart
    rw [List.pairwise_iff_getElem] at hpairs
    constructor
    · intro v' n' i j e e' hv' hn' hij hj he he'
      obtain rfl := Except.ok.inj (hv'.symm.trans hv)
      obtain rfl := Except.ok.inj (hn'.symm.trans hn)
      have hpair := hpairs i j (by rw [List.length_range]; omega)
        (by rw [List.length_range]; omega) hij
      rw [List.getElem_range, List.getElem_range] at hpair
      exact hpair e e' he he'
    · intro v' n' i e hv' hn' hi he
      obtain rfl := Except.ok.inj (hv'.symm.trans hv)
      obtain rfl := Except.ok.inj (hn'.symm.trans hn)
      exact hunique.typed e (hmem hi e he)
  · intro hrecords
    constructor
    · refine (loadRecords_pairwise_iff hrec).mpr (List.pairwise_iff_getElem.mpr ?_)
      intro i j hi hj hij e e' he he'
      rw [List.getElem_range] at he he'
      rw [List.length_range] at hj
      exact hrecords.apart v n i j e e' hv hn hij hj he he'
    · intro e he
      obtain ⟨i, hi, hload⟩ := (mem_loadRecords_iff hrec).mp he
      exact hrecords.typed v n i e hv hn (List.mem_range.mp hi) hload

/-- **Every list the store ever holds is free of duplicates just when the records it was started
from are.** -/
theorem store_unique_iff {nvs : Nvs} (h : (loads nvs).isSome) :
    (∀ entries, (cache nvs).Reachable entries → Unique entries) ↔ RecordsUnique nvs := by
  obtain ⟨entries, hload⟩ := Option.isSome_iff_exists.mp h
  constructor
  · intro hall
    exact (unique_iff_recordsUnique hload).mp (hall entries (.init hload))
  · intro hrecords s hs
    exact cache_unique (fun l hl => (unique_iff_recordsUnique hl).mpr hrecords) hs

/-- A store of the current schema with two devices, under the given ids. -/
def twoRecords (id id' : CString) : Nvs
  | .schemaVer => some (.u8 DEVICE_STORE_SCHEMA_VERSION)
  | .count => some (.u8 2)
  | .field .id 0 => some (.str id)
  | .field .id 1 => some (.str id')
  | .field .name 0 | .field .name 1 => some (.str (cstr "Lamp"))
  | _ => none

theorem lamp_plug_unique : RecordsUnique (twoRecords (cstr "lamp") (cstr "plug")) := by
  have hload : loads (twoRecords (cstr "lamp") (cstr "plug")) =
      some [⟨strlcpy _ (cstr "lamp"), strlcpy _ (cstr "Lamp"), none⟩,
        ⟨strlcpy _ (cstr "plug"), strlcpy _ (cstr "Lamp"), none⟩] := by rfl
  refine (store_unique_iff (by rw [hload]; rfl)).mp fun entries => cache_unique fun l hl => ?_
  obtain rfl := Option.some.inj (hload.symm.trans hl)
  constructor
  · refine List.pairwise_pair.mpr ⟨?_, fun b _ => nofun⟩
    decide
  · intro e he
    rcases List.mem_pair.mp he with rfl | rfl <;> exact nofun

/-- Two records with one id are both taken. -/
theorem duplicate_id_taken :
    ¬∀ nvs entries, (loads nvs).isSome → (cache nvs).Reachable entries → Unique entries := by
  intro h
  have hload : loads (twoRecords (cstr "lamp") (cstr "lamp")) =
      some [⟨strlcpy _ (cstr "lamp"), strlcpy _ (cstr "Lamp"), none⟩,
        ⟨strlcpy _ (cstr "lamp"), strlcpy _ (cstr "Lamp"), none⟩] := by rfl
  have hunique := h _ _ (by rw [hload]; rfl) (.init hload)
  have hpair := List.rel_of_pairwise_cons hunique.apart List.mem_cons_self
  exact hpair.1 rfl

end BleGateway.DeviceStore
