import BleGateway.Lib.Directory

set_option autoImplicit false

/-! # A directory that is only filled

Records are entered under their keys and written again, but never taken out. The places are then
taken in the order in which the keys arrive, and a key that comes when all are taken is turned away
for good. Which keys have a place, and what is written there, can be read off the history.
-/

namespace Arrivals

variable {κ β : Type} [DecidableEq κ]

/-- The keys that have a place, when another one arrives. -/
def arrive (n : Nat) (keys : List κ) (k : κ) : List κ :=
  if k ∈ keys ∨ n ≤ keys.length then keys else keys ++ [k]

/-- The keys that have got one of `n` places, in the order of their arrival. -/
def arrivals (n : Nat) (hist : List (κ × β)) : List κ :=
  hist.foldl (fun keys e => arrive n keys e.1) []

/-- What was written last under a key. -/
def lastValue (hist : List (κ × β)) (k : κ) : Option β :=
  (hist.reverse.find? fun e => e.1 = k).map (·.2)

variable {n : Nat} {hist : List (κ × β)} {k : κ} {x : β}

theorem arrivals_append_last (n : Nat) (hist : List (κ × β)) (k : κ) (x : β) :
    arrivals n (hist ++ [(k, x)]) = arrive n (arrivals n hist) k := by
  rw [arrivals, List.foldl_append, arrivals]
  rfl

theorem lastValue_append_last (hist : List (κ × β)) (k k' : κ) (x : β) :
    lastValue (hist ++ [(k, x)]) k' = if k = k' then some x else lastValue hist k' := by
  rw [lastValue, List.reverse_append, List.reverse_singleton, List.singleton_append,
    List.find?_cons]
  by_cases hk : k = k'
  · simp [hk]
  · simp [hk, lastValue]

/-- What stands behind the last entry under a key does not matter. -/
theorem lastValue_of_last {before after : List (κ × β)} (hlast : ∀ e ∈ after, e.1 ≠ k) :
    lastValue (before ++ (k, x) :: after) k = some x := by
  induction after using List.reverseRecOn with
  | nil =>
      rw [lastValue_append_last, if_pos rfl]
  | append_singleton after e ih =>
      have he : e.1 ≠ k := hlast e (List.mem_append_right _ List.mem_cons_self)
      rw [← List.cons_append, ← List.append_assoc, lastValue_append_last, if_neg he]
      exact ih fun e' he' => hlast e' (List.mem_append_left _ he')

/-! ## Who gets a place -/

theorem arrive_of_mem (n : Nat) {keys : List κ} (h : k ∈ keys) : arrive n keys k = keys :=
  if_pos (Or.inl h)

theorem arrive_of_room {keys : List κ} (hnew : k ∉ keys) (hroom : keys.length < n) :
    arrive n keys k = keys ++ [k] :=
  if_neg fun h => h.elim hnew (Nat.not_le_of_lt hroom)

theorem prefix_arrive (n : Nat) (keys : List κ) (k : κ) : keys <+: arrive n keys k := by
  rw [arrive]
  split
  · exact List.prefix_refl keys
  · exact List.prefix_append keys [k]

theorem mem_arrive {keys : List κ} {k' : κ} (h : k' ∈ arrive n keys k) : k' ∈ keys ∨ k' = k := by
  rw [arrive] at h
  split at h
  · exact Or.inl h
  · exact (List.mem_append.mp h).imp_right List.mem_singleton.mp

theorem arrivals_nodup (n : Nat) (hist : List (κ × β)) : (arrivals n hist).Nodup := by
  induction hist using List.reverseRecOn with
  | nil => exact List.nodup_nil
  | append_singleton hist e ih =>
      rw [arrivals_append_last, arrive]
      split
      · exact ih
      · rename_i hnew
        exact List.nodup_append.mpr ⟨ih, List.nodup_singleton e.1, fun a ha b hb hab =>
          hnew (Or.inl (List.mem_singleton.mp hb ▸ hab ▸ ha))⟩

theorem length_arrivals_le (n : Nat) (hist : List (κ × β)) : (arrivals n hist).length ≤ n := by
  induction hist using List.reverseRecOn with
  | nil => exact Nat.zero_le n
  | append_singleton hist e ih =>
      rw [arrivals_append_last, arrive]
      split
      · exact ih
      · rename_i hroom
        rw [List.length_append, List.length_singleton]
        omega

/-- A place once given is kept. -/
theorem prefix_arrivals (n : Nat) (before after : List (κ × β)) :
    arrivals n before <+: arrivals n (before ++ after) := by
  induction after using List.reverseRecOn with
  | nil => rw [List.append_nil]
  | append_singleton after e ih =>
      rw [← List.append_assoc, arrivals_append_last]
      exact ih.trans (prefix_arrive n _ _)

theorem arrivals_subset (n : Nat) (hist : List (κ × β)) :
    arrivals n hist ⊆ (hist.map (·.1)).dedup := by
  intro k hk
  rw [List.mem_dedup]
  induction hist using List.reverseRecOn with
  | nil => exact hk
  | append_singleton hist e ih =>
      rw [arrivals_append_last] at hk
      rw [List.map_append, List.mem_append]
      exact (mem_arrive hk).imp ih fun heq => by rw [heq]; exact List.mem_cons_self

theorem mem_arrivals_append {before after : List (κ × β)}
    (hfew : ((before.map (·.1)).dedup).length < n) :
    k ∈ arrivals n (before ++ (k, x) :: after) := by
  have hroom : (arrivals n before).length < n :=
    Nat.lt_of_le_of_lt ((arrivals_nodup n before).subperm (arrivals_subset n before)).length_le hfew
  have hentered : k ∈ arrivals n (before ++ [(k, x)]) := by
    rw [arrivals_append_last]
    by_cases hold : k ∈ arrivals n before
    · rwa [arrive_of_mem n hold]
    · rw [arrive_of_room hold hroom]
      exact List.mem_append_right _ List.mem_cons_self
  rw [List.append_cons]
  exact (prefix_arrivals n _ after).subset hentered

/-- A history up to the first entry under a key. -/
theorem split_first (hk : k ∈ hist.map (·.1)) :
    ∃ x after, hist = (hist.takeWhile fun e => e.1 ≠ k) ++ (k, x) :: after := by
  induction hist with
  | nil => cases hk
  | cons e hist ih =>
      obtain ⟨k', x⟩ := e
      by_cases hkk : k' = k
      · exact ⟨x, hist, by simp [hkk]⟩
      · have hlater : k ∈ hist.map (·.1) := by
          refine (List.mem_cons.mp hk).resolve_left fun heq => hkk heq.symm
        obtain ⟨x', after, hsplit⟩ := ih hlater
        have hfirst : (((k', x) :: hist).takeWhile fun e => e.1 ≠ k) =
            (k', x) :: hist.takeWhile fun e => e.1 ≠ k :=
          List.takeWhile_cons_of_pos (decide_eq_true hkk)
        exact ⟨x', after, by rw [hfirst, List.cons_append, ← hsplit]⟩

/-- **A key has a place** if fewer than `n` others had arrived before it first did. -/
theorem mem_arrivals (hk : k ∈ hist.map (·.1))
    (hfew : (((hist.takeWhile fun e => e.1 ≠ k).map (·.1)).dedup).length < n) :
    k ∈ arrivals n hist := by
  obtain ⟨x, after, hsplit⟩ := split_first hk
  rw [hsplit]
  exact mem_arrivals_append hfew

/-! ## The directory -/

variable {α : Type} (used : α → Bool) (key : α → κ) (value : α → β)

/-- The directory holds what the history says. -/
structure Filled (hist : List (κ × β)) (t : Fin n → α) : Prop where
  taken : ∀ i, used (t i) = decide (i.val < (arrivals n hist).length)
  names : ∀ i, (arrivals n hist)[i.val]? = if used (t i) then some (key (t i)) else none
  holds : ∀ i, used (t i) = true → lastValue hist (key (t i)) = some (value (t i))

variable {used key value} {t : Fin n → α} {i : Fin n} {v : α}

theorem filled_nil (h : ∀ i, used (t i) = false) : Filled used key value [] t where
  taken := h
  names i := by
    rw [h i]
    rfl
  holds i hi := by
    rw [h i] at hi
    cases hi

theorem Filled.mem_iff (h : Filled used key value hist t) :
    k ∈ arrivals n hist ↔ ∃ i, used (t i) = true ∧ key (t i) = k := by
  constructor
  · intro hk
    obtain ⟨i, hi, hget⟩ := List.getElem_of_mem hk
    have hlt : i < n := Nat.lt_of_lt_of_le hi (length_arrivals_le n hist)
    have hu : used (t ⟨i, hlt⟩) = true := by
      rw [h.taken]
      exact decide_eq_true hi
    have hkey := h.names ⟨i, hlt⟩
    rw [if_pos hu, List.getElem?_eq_getElem hi, hget] at hkey
    exact ⟨⟨i, hlt⟩, hu, (Option.some.inj hkey).symm⟩
  · rintro ⟨i, hu, rfl⟩
    have hkey := h.names i
    rw [if_pos hu] at hkey
    exact List.mem_of_getElem? hkey

/-- No key has two places. -/
theorem Filled.distinct (h : Filled used key value hist t) : Directory.Distinct used key t := by
  intro i j hi hj hkey
  have hki := h.names i
  have hkj := h.names j
  rw [if_pos hi] at hki
  rw [if_pos hj, ← hkey, ← hki] at hkj
  have hlt : i.val < (arrivals n hist).length := of_decide_eq_true ((h.taken i).symm.trans hi)
  exact Fin.ext ((List.getElem?_inj hlt (arrivals_nodup n hist)).mp hkj.symm)

/-- **The directory answers** with what was written last, for every key that has a place. -/
theorem Filled.lookup (h : Filled used key value hist t) (hk : k ∈ arrivals n hist) :
    ∃ i, Directory.lookup used key t k = some i ∧ lastValue hist k = some (value (t i)) := by
  obtain ⟨i, hu, rfl⟩ := h.mem_iff.mp hk
  exact ⟨i, h.distinct.lookup_eq hu, h.holds i hu⟩

/-- A key that has a place is written again. -/
theorem Filled.again (h : Filled used key value hist t)
    (hi : Directory.lookup used key t k = some i) (hu : used v = true) (hkey : key v = k)
    (hx : value v = x) : Filled used key value (hist ++ [(k, x)]) (Function.update t i v) := by
  obtain ⟨hui, hki⟩ := Directory.lookup_spec hi
  have hsame : arrivals n (hist ++ [(k, x)]) = arrivals n hist := by
    rw [arrivals_append_last]
    exact arrive_of_mem n (h.mem_iff.mpr ⟨i, hui, hki⟩)
  refine ⟨fun j => ?_, fun j => ?_, fun j hj => ?_⟩
  · rw [hsame, ← h.taken]
    by_cases hji : j = i
    · rw [hji, Function.update_self, hu, hui]
    · rw [Function.update_of_ne hji]
  · rw [hsame, h.names]
    by_cases hji : j = i
    · rw [hji, Function.update_self, hu, hui, hkey, hki]
    · rw [Function.update_of_ne hji]
  · rw [lastValue_append_last]
    by_cases hji : j = i
    · rw [hji, Function.update_self, hkey, if_pos rfl, hx]
    · rw [Function.update_of_ne hji] at hj ⊢
      rw [if_neg fun hkj => hji (h.distinct j i hj hui (hkj.symm.trans hki.symm))]
      exact h.holds j hj

/-- The first free place is the next one. -/
theorem Filled.vacant (h : Filled used key value hist t)
    (hi : Directory.vacant used t = some i) : i.val = (arrivals n hist).length := by
  have hfree := Directory.vacant_spec hi
  rw [h.taken] at hfree
  have hle := of_decide_eq_false hfree
  by_contra hne
  have hlt : (arrivals n hist).length < i.val := by omega
  have hbefore := Directory.vacant_first (j := ⟨_, hlt.trans i.isLt⟩) hi hlt
  rw [h.taken] at hbefore
  simp at hbefore

/-- A new key takes the first free place. -/
theorem Filled.enter (h : Filled used key value hist t)
    (hnew : Directory.lookup used key t k = none) (hi : Directory.vacant used t = some i)
    (hu : used v = true) (hkey : key v = k) (hx : value v = x) :
    Filled used key value (hist ++ [(k, x)]) (Function.update t i v) := by
  have hnext := h.vacant hi
  have habsent : k ∉ arrivals n hist := fun hk => by
    obtain ⟨j, hj, hkj⟩ := h.mem_iff.mp hk
    exact Directory.lookup_eq_none.mp hnew j hj hkj
  have hmore : arrivals n (hist ++ [(k, x)]) = arrivals n hist ++ [k] := by
    rw [arrivals_append_last]
    exact arrive_of_room habsent (hnext ▸ i.isLt)
  have hother {j : Fin n} (hji : j ≠ i) : j.val ≠ (arrivals n hist).length :=
    fun hj => hji (Fin.ext (hj.trans hnext.symm))
  refine ⟨fun j => ?_, fun j => ?_, fun j hj => ?_⟩
  · rw [hmore, List.length_append, List.length_singleton]
    by_cases hji : j = i
    · rw [hji, Function.update_self, hu]
      exact (decide_eq_true (by omega)).symm
    · rw [Function.update_of_ne hji, h.taken]
      have := hother hji
      exact decide_eq_decide.mpr (by omega)
  · rw [hmore]
    by_cases hji : j = i
    · rw [hji, Function.update_self, hu, if_pos rfl, hnext, List.getElem?_concat_length, hkey]
    · rw [Function.update_of_ne hji, ← h.names]
      have := hother hji
      by_cases hlt : j.val < (arrivals n hist).length
      · rw [List.getElem?_append_left hlt]
      · rw [List.getElem?_eq_none (by simp; omega), List.getElem?_eq_none (by omega)]
  · rw [lastValue_append_last]
    by_cases hji : j = i
    · rw [hji, Function.update_self, hkey, if_pos rfl, hx]
    · rw [Function.update_of_ne hji] at hj ⊢
      rw [if_neg fun hkj => Directory.lookup_eq_none.mp hnew j hj hkj.symm]
      exact h.holds j hj

/-- When all places are taken a new key gets none. -/
theorem Filled.full (h : Filled used key value hist t)
    (hnew : Directory.lookup used key t k = none) (hfull : Directory.vacant used t = none) :
    Filled used key value (hist ++ [(k, x)]) t := by
  have hall := Directory.vacant_eq_none.mp hfull
  have hlen : n ≤ (arrivals n hist).length := by
    by_contra hlt
    have hi := hall ⟨_, Nat.lt_of_not_le hlt⟩
    rw [h.taken] at hi
    simp at hi
  have hsame : arrivals n (hist ++ [(k, x)]) = arrivals n hist := by
    rw [arrivals_append_last]
    exact if_pos (Or.inr hlen)
  refine ⟨fun j => hsame ▸ h.taken j, fun j => hsame ▸ h.names j, fun j hj => ?_⟩
  rw [lastValue_append_last, if_neg fun hkj => Directory.lookup_eq_none.mp hnew j hj hkj.symm]
  exact h.holds j hj

end Arrivals
