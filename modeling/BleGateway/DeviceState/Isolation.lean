import BleGateway.DeviceState.Model
import Mathlib.Data.List.Find
import Mathlib.Data.List.Infix

/-! # What a device state shows

`device_state_get` is compared with the history: for each kind of value, the last one that was
reported for the key since its device was last forgotten. A table of fixed size drops reports
when it is full, and a place that is used again still has the values of its last user; the two
are the only ways to differ, next to a notification without a value.
-/

namespace BleGateway.DeviceState

variable {t : StateTable} {key key' : Key} {i : Nat} {r : Report} {nowMs : Int}

/-! ## Looking up an entry -/

namespace StateTable

theorem findEntry_spec (h : t.findEntry key = some i) : i < t.count ∧ (t.cells i).key = key := by
  have hmem := List.mem_of_find?_eq_some h
  have hkey := List.find?_some h
  exact ⟨List.mem_range.mp hmem, of_decide_eq_true hkey⟩

/-- The place of an entry depends on the keys of the entries only. -/
theorem findEntry_congr {cells' : Nat → StateEntry}
    (h : ∀ k, k < t.count → (cells' k).key = (t.cells k).key) :
    ({ t with cells := cells' } : StateTable).findEntry key = t.findEntry key := by
  rw [findEntry, findEntry]
  apply List.find?_congr
  intro k hk
  rw [h k (List.mem_range.mp hk)]

/-- The entry that `device_state_get` copies. -/
def lookup (t : StateTable) (key : Key) : Option StateEntry := t.entries.find? (·.key = key)

theorem findEntry_map : (t.findEntry key).map t.cells = t.lookup key := by
  rw [lookup, entries, Compaction.front, List.find?_map, findEntry]
  rfl

theorem lookup_of_findEntry (h : t.findEntry key = some i) : t.lookup key = some (t.cells i) := by
  rw [← findEntry_map, h, Option.map_some]

theorem lookup_eq_none : t.lookup key = none ↔ t.findEntry key = none := by
  rw [← findEntry_map, Option.map_eq_none_iff]

theorem key_of_lookup {e : StateEntry} (h : t.lookup key = some e) : e.key = key := by
  have hkey := List.find?_some h
  exact of_decide_eq_true hkey

/-- An entry is written under its own key. -/
theorem lookup_setCell {e : StateEntry} (h : t.findEntry key = some i) (he : e.key = key)
    (key' : Key) :
    (t.setCell i e).lookup key' = if key' = key then some e else t.lookup key' := by
  obtain ⟨hi, hkey⟩ := findEntry_spec h
  have hfind : (t.setCell i e).findEntry key' = t.findEntry key' := by
    apply findEntry_congr
    intro k hk
    by_cases hki : k = i
    · rw [hki, Function.update_self, he, hkey]
    · rw [Function.update_of_ne hki]
  rw [← findEntry_map, hfind]
  by_cases hk : key' = key
  · rw [if_pos hk, hk, h]
    show some (Function.update t.cells i e i) = some e
    rw [Function.update_self]
  · rw [if_neg hk, ← findEntry_map]
    apply Option.map_congr
    intro k hmem
    have hne : k ≠ i := by
      intro hki
      exact hk ((findEntry_spec hmem).2.symm.trans (hki ▸ hkey))
    exact Function.update_of_ne hne e t.cells

/-- A new entry is added under its own key. -/
theorem lookup_allocate {e : StateEntry} (hroom : t.count < DEVICE_STATE_MAX_ENTRIES)
    (hnew : t.lookup key = none) (he : e.key = key) (key' : Key) :
    ({ cells := Function.update t.cells t.count e, count := t.count + 1,
        bounded := hroom } : StateTable).lookup key' =
      if key' = key then some e else t.lookup key' := by
  have hentries : Compaction.front (Function.update t.cells t.count e) (t.count + 1) =
      t.entries ++ [e] := by
    rw [Compaction.front_succ, Compaction.front_update (Nat.le_refl _), Function.update_self]
    rfl
  rw [lookup, entries, hentries, List.find?_append]
  show (t.lookup key').or _ = _
  by_cases hk : key' = key
  · rw [if_pos hk, hk, hnew, Option.none_or, List.find?_singleton, he]
    simp
  · have hother : [e].find? (·.key = key') = none := by
      rw [List.find?_singleton, he]
      simp [Ne.symm hk]
    rw [if_neg hk, hother, Option.or_none]

/-- A forgotten device has no entries; the entries of the others stay. -/
theorem lookup_forget (t : StateTable) (id : DeviceId) (key : Key) :
    (t.forget id).lookup key = if key.deviceId = id then none else t.lookup key := by
  have hfilter : (t.forget id).entries = t.entries.filter fun e => e.deviceId ≠ id :=
    (Compaction.compact_spec _ t.cells t.count).1
  rw [lookup, hfilter, List.find?_filter]
  by_cases hid : key.deviceId = id
  · rw [if_pos hid, List.find?_eq_none]
    intro e _ he
    obtain ⟨hne, hkey⟩ : e.deviceId ≠ id ∧ e.key = key := by simpa using he
    exact hne ((congrArg Key.deviceId hkey).trans hid)
  · rw [if_neg hid]
    apply List.find?_congr
    intro e _
    by_cases hkey : e.key = key
    · have hne : e.deviceId ≠ id := fun h => hid ((congrArg Key.deviceId hkey).symm.trans h)
      simp [hkey, hne]
    · simp [hkey]

/-- **What a report does to the table**: a known key takes it over, a new key gets the next
place, and a report for a new key is dropped when there is no place. -/
theorem lookup_applyFeatureState (t : StateTable) (key : Key) (r : Report) (nowMs : Int)
    (key' : Key) :
    (t.applyFeatureState key r nowMs).1.lookup key' =
      if key' = key then
        match t.lookup key with
        | some e => some (e.enter r nowMs)
        | none =>
            if t.count < DEVICE_STATE_MAX_ENTRIES then
              some (((t.cells t.count).setKey key).enter r nowMs)
            else none
      else t.lookup key' := by
  rw [applyFeatureState, findOrAllocate]
  cases hfind : t.findEntry key with
  | some i =>
      have he : ((t.cells i).enter r nowMs).key = key := (findEntry_spec hfind).2
      rw [lookup_of_findEntry hfind]
      exact lookup_setCell hfind he key'
  | none =>
      have hnew : t.lookup key = none := lookup_eq_none.mpr hfind
      rw [hnew, allocateEntry]
      by_cases hroom : t.count < DEVICE_STATE_MAX_ENTRIES
      · rw [dif_pos hroom, if_pos hroom]
        simp only [Option.map_some, setCell, Function.update_self, Function.update_idem]
        exact lookup_allocate hroom hnew rfl key'
      · rw [dif_neg hroom, if_neg hroom]
        by_cases hk : key' = key
        · rw [if_pos hk, hk]
          exact hnew
        · rw [if_neg hk]
          rfl

end StateTable

/-! ## What a history says -/

/-- The key and the values that an event reports. -/
def Event.report? : Event → Option (Key × Report)
  | .notify id msg _ => StateTable.notifyReport id msg
  | .commandAck id msg _ => StateTable.ackReport id msg
  | .forget _ => none

/-- The reports for `key` since its device was last forgotten, the latest first. -/
def since (key : Key) : List Event → List Report
  | [] => []
  | .forget id :: older => if id = key.deviceId then [] else since key older
  | e :: older =>
      match e.report? with
      | some (k, r) => if k = key then r :: since key older else since key older
      | none => since key older

/-- The last `bool` that was reported for `key`. -/
def lastBool (key : Key) (history : List Event) : Option Bool :=
  (since key history).findSome? (·.bool)

/-- The last `int` that was reported for `key`. -/
def lastInt (key : Key) (history : List Event) : Option Int32 :=
  (since key history).findSome? (·.int)

/-- **`device_state_get` shows, for every key, what was last reported for it**: the entry is
found when a value was, and a kind of value that was not reported is zero. -/
def Exact (history : List Event) : Prop :=
  ∀ key, match (exec history).get key with
    | .ok e =>
        e.key = key ∧ (lastBool key history ≠ none ∨ lastInt key history ≠ none) ∧
          e.valueBool = (lastBool key history).getD false ∧
          e.valueInt = (lastInt key history).getD 0
    | .error err =>
        err = .notFound ∧ lastBool key history = none ∧ lastInt key history = none

/-- The kinds of value that the report does not carry are zero in the entry. -/
def Report.Overwrites (r : Report) (e : StateEntry) : Prop :=
  (r.bool = none → e.valueBool = false) ∧ (r.int = none → e.valueInt = 0)

instance (r : Report) (e : StateEntry) : Decidable (r.Overwrites e) :=
  inferInstanceAs (Decidable (_ ∧ _))

/-- **The condition on one event**: a report for a new key carries a value just when there is a
place for it, and overwrites what that place still holds. -/
def Fits (t : StateTable) (e : Event) : Prop :=
  ∀ key r, e.report? = some (key, r) → t.findEntry key = none →
    (r.hasValue = true ↔ t.count < DEVICE_STATE_MAX_ENTRIES) ∧
      (t.count < DEVICE_STATE_MAX_ENTRIES → r.Overwrites (t.cells t.count))

/-- The three kinds of events. -/
theorem Event.cases (e : Event) :
    (∃ id, e = .forget id) ∨
    (∃ key r nowMs, e.report? = some (key, r) ∧
      (∀ t : StateTable, t.step e = (t.applyFeatureState key r nowMs).1) ∧
      ∀ key' older, since key' (e :: older) =
        if key = key' then r :: since key' older else since key' older) ∨
    (e.report? = none ∧ (∀ t : StateTable, t.step e = t) ∧
      ∀ key' older, since key' (e :: older) = since key' older) := by
  cases hr : e.report? with
  | none =>
      cases e with
      | forget id => exact Or.inl ⟨id, rfl⟩
      | notify id msg nowMs | commandAck id msg nowMs =>
          refine Or.inr (Or.inr ⟨rfl, fun t => ?_, fun key' older => ?_⟩)
          · simp only [Event.report?] at hr
            simp only [StateTable.step, StateTable.onNotify, StateTable.onCommandAck, hr]
          · simp only [since, hr]
  | some found =>
      obtain ⟨key, r⟩ := found
      cases e with
      | forget id => cases hr
      | notify id msg nowMs | commandAck id msg nowMs =>
          refine Or.inr (Or.inl ⟨key, r, nowMs, rfl, fun t => ?_, fun key' older => ?_⟩)
          · simp only [Event.report?] at hr
            simp only [StateTable.step, StateTable.onNotify, StateTable.onCommandAck, hr]
          · simp only [since, hr]

/-! ## Entries and their history -/

/-- The entry of a key, when there is one, shows the two last values. -/
def Shows (entry : Option StateEntry) (bool : Option Bool) (int : Option Int32) : Prop :=
  match entry with
  | some e =>
      (bool ≠ none ∨ int ≠ none) ∧ e.valueBool = bool.getD false ∧ e.valueInt = int.getD 0
  | none => bool = none ∧ int = none

variable {e : StateEntry} {bool : Option Bool} {int : Option Int32}

theorem Shows.enter (h : Shows (some e) bool int) (r : Report) (nowMs : Int) :
    Shows (some (e.enter r nowMs)) (r.bool.or bool) (r.int.or int) := by
  obtain ⟨hsome, hbool, hint⟩ := h
  refine ⟨?_, ?_, ?_⟩
  · rcases hsome with hne | hne
    · exact Or.inl fun hor => hne (Option.or_eq_none_iff.mp hor).2
    · exact Or.inr fun hor => hne (Option.or_eq_none_iff.mp hor).2
  · show r.bool.getD e.valueBool = _
    rw [hbool]
    cases r.bool with
    | none => rw [Option.none_or, Option.getD_none]
    | some v => rw [Option.some_or, Option.getD_some, Option.getD_some]
  · show r.int.getD e.valueInt = _
    rw [hint]
    cases r.int with
    | none => rw [Option.none_or, Option.getD_none]
    | some v => rw [Option.some_or, Option.getD_some, Option.getD_some]

theorem hasValue_iff : r.hasValue = true ↔ r.bool ≠ none ∨ r.int ≠ none := by
  rw [Report.hasValue, Bool.or_eq_true, Option.isSome_iff_ne_none, Option.isSome_iff_ne_none]

/-- A first report shows its values when it has one and overwrites the rest of the place. -/
theorem shows_first (e : StateEntry) (key : Key) (r : Report) (nowMs : Int) :
    Shows (some ((e.setKey key).enter r nowMs)) r.bool r.int ↔
      r.hasValue = true ∧ r.Overwrites e := by
  have hbool : r.bool.getD e.valueBool = r.bool.getD false ↔
      (r.bool = none → e.valueBool = false) := by
    cases r.bool with
    | none => simp
    | some v => simp
  have hint : r.int.getD e.valueInt = r.int.getD 0 ↔ (r.int = none → e.valueInt = 0) := by
    cases r.int with
    | none => simp
    | some v => simp
  rw [hasValue_iff, Report.Overwrites, ← hbool, ← hint]
  exact Iff.rfl

theorem shows_dropped (r : Report) : Shows none r.bool r.int ↔ ¬r.hasValue = true := by
  rw [hasValue_iff, not_or, not_not, not_not]
  exact Iff.rfl

/-- Every entry in use is valid. -/
theorem exec_valid (history : List Event) {key : Key} {e : StateEntry}
    (h : (exec history).lookup key = some e) : e.valid = true := by
  induction history generalizing e with
  | nil => exact absurd h (by simp [exec, StateTable.lookup, StateTable.entries, Compaction.front])
  | cons ev older ih =>
      rw [exec] at h
      rcases ev.cases with ⟨id, rfl⟩ | ⟨k, r, nowMs, _, hstep, _⟩ | ⟨_, hstep, _⟩
      · have hforget := (exec older).lookup_forget id key
        rw [StateTable.step] at h
        rw [h] at hforget
        by_cases hid : key.deviceId = id
        · rw [if_pos hid] at hforget
          cases hforget
        · rw [if_neg hid] at hforget
          exact ih hforget.symm
      · rw [hstep, StateTable.lookup_applyFeatureState] at h
        by_cases hk : key = k
        · rw [if_pos hk] at h
          cases hold : (exec older).lookup k with
          | some e' =>
              rw [hold] at h
              cases h
              rfl
          | none =>
              rw [hold] at h
              by_cases hroom : (exec older).count < DEVICE_STATE_MAX_ENTRIES
              · simp only [if_pos hroom] at h
                cases h
                rfl
              · simp only [if_neg hroom] at h
                cases h
        · rw [if_neg hk] at h
          exact ih h
      · rw [hstep] at h
        exact ih h

theorem get_eq (history : List Event) (key : Key) :
    (exec history).get key =
      match (exec history).lookup key with
      | some e => .ok e
      | none => .error .notFound := by
  rw [StateTable.get]
  cases hfind : (exec history).findEntry key with
  | none => rw [StateTable.lookup_eq_none.mpr hfind]
  | some i =>
      have hlookup := StateTable.lookup_of_findEntry hfind
      rw [hlookup]
      exact if_pos (exec_valid history hlookup)

/-- Exactness speaks about the entries in use. -/
theorem exact_iff (history : List Event) :
    Exact history ↔
      ∀ key, Shows ((exec history).lookup key) (lastBool key history) (lastInt key history) := by
  rw [Exact]
  apply forall_congr'
  intro key
  rw [get_eq]
  cases hlookup : (exec history).lookup key with
  | none => exact and_iff_right rfl
  | some e => exact and_iff_right (StateTable.key_of_lookup hlookup)

/-! ## One event -/

variable {older : List Event}

/-- A forget makes an exact history longer. -/
theorem Exact.forget (h : Exact older) (id : DeviceId) : Exact (.forget id :: older) := by
  rw [exact_iff] at h ⊢
  intro key
  have hlookup := (exec older).lookup_forget id key
  have hsince : since key (.forget id :: older) =
      if id = key.deviceId then [] else since key older := rfl
  rw [exec, StateTable.step, hlookup, lastBool, lastInt, hsince]
  by_cases hid : key.deviceId = id
  · rw [if_pos hid, if_pos hid.symm]
    exact ⟨rfl, rfl⟩
  · rw [if_neg hid, if_neg (Ne.symm hid)]
    exact h key

/-- After an exact history, a report for `key` is shown just when it fits. -/
theorem shows_report (h : Exact older) (key : Key) (r : Report) (nowMs : Int) :
    Shows (((exec older).applyFeatureState key r nowMs).1.lookup key)
        (r.bool.or (lastBool key older)) (r.int.or (lastInt key older)) ↔
      ((exec older).findEntry key = none →
        (r.hasValue = true ↔ (exec older).count < DEVICE_STATE_MAX_ENTRIES) ∧
          ((exec older).count < DEVICE_STATE_MAX_ENTRIES →
            r.Overwrites ((exec older).cells (exec older).count))) := by
  have hshows := (exact_iff older).mp h key
  rw [StateTable.lookup_applyFeatureState, if_pos rfl]
  cases hlookup : (exec older).lookup key with
  | some e =>
      rw [hlookup] at hshows
      have hfound : (exec older).findEntry key ≠ none := by
        intro hnone
        rw [StateTable.lookup_eq_none.mpr hnone] at hlookup
        cases hlookup
      exact iff_of_true (hshows.enter r nowMs) fun hnone => absurd hnone hfound
  | none =>
      -- nothing was reported for a key without an entry
      rw [hlookup] at hshows
      obtain ⟨hbool, hint⟩ := hshows
      have hnew : (exec older).findEntry key = none := StateTable.lookup_eq_none.mp hlookup
      rw [hbool, hint, Option.or_none, Option.or_none]
      by_cases hroom : (exec older).count < DEVICE_STATE_MAX_ENTRIES
      · simp only [hnew, hroom, if_true, iff_true, true_implies]
        exact shows_first _ key r nowMs
      · simp only [hnew, hroom, if_false, iff_false, false_implies, true_implies, and_true]
        exact shows_dropped r

/-- **One event** keeps a history exact just when it fits. -/
theorem Exact.cons_iff (h : Exact older) (e : Event) :
    Exact (e :: older) ↔ Fits (exec older) e := by
  rcases e.cases with ⟨id, rfl⟩ | ⟨k, r, nowMs, hreport, hstep, hsince⟩ | ⟨hnone, hstep, hsince⟩
  · exact iff_of_true (h.forget id) fun key r hr => absurd hr (by simp [Event.report?])
  · have hfits : Fits (exec older) e ↔
        Shows (((exec older).applyFeatureState k r nowMs).1.lookup k)
          (r.bool.or (lastBool k older)) (r.int.or (lastInt k older)) := by
      rw [shows_report h]
      constructor
      · intro hf
        exact hf k r hreport
      · intro hf key r' hr'
        obtain ⟨rfl, rfl⟩ := Prod.mk.inj (Option.some.inj (hreport.symm.trans hr'))
        exact hf
    have hbool : lastBool k (e :: older) = r.bool.or (lastBool k older) := by
      rw [lastBool, hsince, if_pos rfl, List.findSome?_cons]
      cases r.bool with
      | none | some => rfl
    have hint : lastInt k (e :: older) = r.int.or (lastInt k older) := by
      rw [lastInt, hsince, if_pos rfl, List.findSome?_cons]
      cases r.int with
      | none | some => rfl
    rw [hfits, exact_iff]
    constructor
    · intro hall
      have hk := hall k
      rw [exec, hstep, hbool, hint] at hk
      exact hk
    · intro hk key
      rw [exec, hstep]
      by_cases hkey : key = k
      · rw [hkey, hbool, hint]
        exact hk
      · -- the report is for another key
        rw [StateTable.lookup_applyFeatureState, if_neg hkey, lastBool, lastInt, hsince,
          if_neg (Ne.symm hkey)]
        exact (exact_iff older).mp h key
  · refine iff_of_true ?_ fun key r hr => absurd (hnone.symm.trans hr) (by simp)
    rw [exact_iff]
    intro key
    rw [exec, hstep, lastBool, lastInt, hsince]
    exact (exact_iff older).mp h key

/-! ## Whole histories -/

theorem exact_nil : Exact [] := (exact_iff []).mpr fun _ => ⟨rfl, rfl⟩

/-- **Isolation.** A history is exact at every moment just when each of its events fits: no
report for a new key without a value, none when the table is full, and none that leaves a value
of the last user of its place. -/
theorem exact_iff_fits (history : List Event) :
    (∀ past, past <:+ history → Exact past) ↔
      ∀ e older, e :: older <:+ history → Fits (exec older) e := by
  induction history with
  | nil =>
      refine iff_of_true (fun past hpast => ?_) fun e older hsuffix => ?_
      · rw [List.suffix_nil.mp hpast]
        exact exact_nil
      · exact absurd (List.suffix_nil.mp hsuffix) (by simp)
  | cons ev rest ih =>
      constructor
      · intro hall e older hsuffix
        have hrest : ∀ past, past <:+ rest → Exact past := fun past hpast =>
          hall past (hpast.trans (List.suffix_cons ev rest))
        rcases List.suffix_cons_iff.mp hsuffix with heq | hold
        · obtain ⟨rfl, rfl⟩ := List.cons.inj heq
          exact (Exact.cons_iff (hrest older (List.suffix_refl older)) e).mp
            (hall _ (List.suffix_refl _))
        · exact ih.mp hrest e older hold
      · intro hall past hpast
        have hrest : ∀ past, past <:+ rest → Exact past :=
          ih.mpr fun e older hsuffix => hall e older (hsuffix.trans (List.suffix_cons ev rest))
        rcases List.suffix_cons_iff.mp hpast with heq | hold
        · rw [heq]
          exact (Exact.cons_iff (hrest rest (List.suffix_refl rest)) ev).mpr
            (hall ev rest (List.suffix_refl _))
        · exact hrest past hold

/-! ## A place that is used again -/

def lamp : DeviceId := strlcpy _ (cstr "lamp")

def thermometer : DeviceId := strlcpy _ (cstr "thermometer")

def mainFeature : FeatureId := strlcpy _ (cstr "main")

/-- The thermometer reports a number and is forgotten, then the lamp reports that it is on. -/
def reuse : List Event :=
  [.notify lamp
      { type := cstr "device_event"
        command := cstr "feature_state"
        featureId := some mainFeature
        featureValueBool := some true } 2,
    .forget thermometer,
    .notify thermometer
      { type := cstr "device_event"
        command := cstr "feature_state"
        featureId := some mainFeature
        featureValueInt := some 2500 } 1]

/-- The lamp shows the number of the thermometer. -/
theorem reused_place_shows : ¬∀ history, Exact history := by
  intro h
  have hshown : ((exec reuse).get ⟨lamp, mainFeature, 0⟩).map (·.valueInt) = .ok 2500 := by
    decide
  have hnone : lastInt ⟨lamp, mainFeature, 0⟩ reuse = none := by decide
  have hexact := h reuse ⟨lamp, mainFeature, 0⟩
  cases hget : (exec reuse).get ⟨lamp, mainFeature, 0⟩ with
  | error err =>
      rw [hget] at hshown
      exact absurd hshown (by simp [Except.map])
  | ok e =>
      rw [hget] at hshown hexact
      obtain ⟨_, _, _, hint⟩ := hexact
      rw [hnone] at hint
      have hvalue : e.valueInt = 2500 := Except.ok.inj hshown
      exact absurd (hvalue.symm.trans hint) (by decide)

end BleGateway.DeviceState
