import Mathlib.Data.List.Basic

set_option autoImplicit false

/-! # Tables with optional entries

A record is written as a table of keys, each with a value or without one, and only the entries with
a value go out. Where the keys are distinct, looking up a key gives back the value of its field.
-/

namespace Fields

variable {κ ν : Type}

/-- The entries that are present. -/
def present (l : List (κ × Option ν)) : List (κ × ν) := l.filterMap fun e => e.2.map (e.1, ·)

variable {l : List (κ × Option ν)}

theorem mem_present {e : κ × ν} (h : e ∈ present l) :
    (e.1, some e.2) ∈ l := by
  obtain ⟨⟨k, o⟩, hmem, he⟩ := List.mem_filterMap.mp h
  obtain ⟨i, rfl, rfl⟩ := Option.map_eq_some_iff.mp he
  exact hmem

theorem map_fst_present_sublist (l : List (κ × Option ν)) :
    ((present l).map Prod.fst).Sublist (l.map Prod.fst) := by
  induction l with
  | nil => exact List.Sublist.slnil
  | cons e l ih =>
      obtain ⟨k, o⟩ := e
      rw [present] at ih ⊢
      cases o with
      | none =>
          rw [List.filterMap_cons]
          exact ih.cons k
      | some i =>
          rw [List.filterMap_cons]
          exact ih.cons_cons k

/-- In a table with distinct labels a label is found once, or not at all. -/
theorem filter_present [DecidableEq κ] (hnodup : (l.map Prod.fst).Nodup) {k : κ} {o : Option ν}
    (h : (k, o) ∈ l) :
    (present l).filter (·.1 = k) = (o.map (k, ·)).toList := by
  have hnone : ∀ {l : List (κ × Option ν)}, k ∉ l.map Prod.fst →
      (present l).filter (·.1 = k) = [] := by
    intro l hk
    rw [List.filter_eq_nil_iff]
    intro e he heq
    obtain rfl := of_decide_eq_true heq
    exact hk (List.mem_map_of_mem (mem_present he))
  induction l with
  | nil => cases h
  | cons e l ih =>
      obtain ⟨hfresh, htailNodup⟩ := List.nodup_cons.mp hnodup
      rcases List.mem_cons.mp h with rfl | hmem
      · -- the entry itself, which is the only one with its label
        cases o with
        | none =>
            rw [present, List.filterMap_cons]
            exact hnone hfresh
        | some i =>
            rw [present, List.filterMap_cons]
            dsimp only [Option.map_some]
            rw [List.filter_cons, if_pos (decide_eq_true rfl)]
            have htail : (present l).filter (·.1 = k) = [] := hnone hfresh
            rw [present] at htail
            rw [htail]
            rfl
      · obtain ⟨k', o'⟩ := e
        have hne : k' ≠ k := by
          intro heq
          have hk : k ∈ l.map Prod.fst := List.mem_map_of_mem (f := Prod.fst) hmem
          rw [← heq] at hk
          exact hfresh hk
        have htail := ih htailNodup hmem
        rw [present] at htail ⊢
        cases o' with
        | none =>
            rw [List.filterMap_cons]
            exact htail
        | some i =>
            rw [List.filterMap_cons]
            dsimp only [Option.map_some]
            rw [List.filter_cons, if_neg (by simpa using hne)]
            exact htail

theorem lookup_present [DecidableEq κ] [BEq κ] [LawfulBEq κ] (hnodup : (l.map Prod.fst).Nodup)
    {k : κ} {o : Option ν} (h : (k, o) ∈ l) :
    (present l).lookup k = o := by
  have hfilter := filter_present hnodup h
  have hlookup : ∀ t : List (κ × ν),
      t.lookup k = ((t.filter (·.1 = k)).head?).map Prod.snd := by
    intro t
    induction t with
    | nil => rfl
    | cons e t ih =>
        obtain ⟨k', v⟩ := e
        by_cases hk : k' = k
        · subst hk
          rw [List.lookup_cons_self, List.filter_cons, if_pos (decide_eq_true rfl)]
          rfl
        · rw [List.lookup_cons, List.filter_cons, if_neg (by simpa using hk), ← ih,
            beq_eq_false_iff_ne.mpr (Ne.symm hk)]
  rw [hlookup, hfilter]
  cases o with
  | none => rfl
  | some v => rfl

end Fields
