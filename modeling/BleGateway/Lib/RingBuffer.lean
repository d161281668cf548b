import Mathlib.Data.List.Basic
import Mathlib.Data.Nat.ModEq
import Mathlib.Logic.Function.Basic

set_option autoImplicit false

/-! # Bounded rings

A queue in an array with a read index, a write index and a count. That the three agree is a
field of the structure, so a ring always denotes the list of its elements in order
(`toList`): `push` appends to the list, `pop` takes its head, and popping until the ring is
empty, at most as often as the array is long, gives the whole list.
-/

/-- A ring over an array of `n` elements. -/
structure RingBuffer (α : Type) (n : Nat) where
  slots : Nat → α
  readIndex : Nat
  writeIndex : Nat
  count : Nat
  count_le : count ≤ n
  write_eq : writeIndex = (readIndex + count) % n
  read_lt : readIndex < n

namespace RingBuffer

variable {α : Type} {n : Nat}

/-- An empty ring whose array holds `a` everywhere. -/
def empty [NeZero n] (a : α) : RingBuffer α n where
  slots _ := a
  readIndex := 0
  writeIndex := 0
  count := 0
  count_le := Nat.zero_le n
  write_eq := (Nat.zero_mod n).symm
  read_lt := Nat.pos_of_neZero n

/-- The elements, the one read next in front. -/
def toList (r : RingBuffer α n) : List α :=
  (List.range r.count).map fun k => r.slots ((r.readIndex + k) % n)

@[simp] theorem toList_empty [NeZero n] (a : α) : (empty a : RingBuffer α n).toList = [] := rfl

@[simp] theorem length_toList (r : RingBuffer α n) : r.toList.length = r.count := by simp [toList]

theorem toList_eq_nil {r : RingBuffer α n} : r.toList = [] ↔ r.count = 0 := by
  rw [← List.length_eq_zero_iff, length_toList]

/-- Write `a` behind the last element, unless the array is full. -/
def push (r : RingBuffer α n) (a : α) : Option (RingBuffer α n) :=
  if h : r.count = n then none
  else some
    { slots := Function.update r.slots r.writeIndex a
      readIndex := r.readIndex
      writeIndex := (r.writeIndex + 1) % n
      count := r.count + 1
      count_le := by have := r.count_le; omega
      write_eq := by rw [r.write_eq, Nat.mod_add_mod, Nat.add_assoc]
      read_lt := r.read_lt }

/-- Take the element in front. -/
def pop (r : RingBuffer α n) : Option (α × RingBuffer α n) :=
  if h : r.count = 0 then none
  else some (r.slots r.readIndex,
    { slots := r.slots
      readIndex := (r.readIndex + 1) % n
      writeIndex := r.writeIndex
      count := r.count - 1
      count_le := by have := r.count_le; omega
      write_eq := by
        rw [r.write_eq, Nat.mod_add_mod]
        congr 1
        omega
      read_lt := Nat.mod_lt _ (by have := r.read_lt; omega) })

/-- Pop at most `fuel` elements. -/
def popMany : Nat → RingBuffer α n → List α × RingBuffer α n
  | 0, r => ([], r)
  | fuel + 1, r =>
      match r.pop with
      | none => ([], r)
      | some (a, r') => ((popMany fuel r').1.cons a, (popMany fuel r').2)

/-- Two places of the array that are less than `n` behind the read index are different. -/
theorem index_inj {i j k : Nat} (hj : j < n) (hk : k < n) (h : (i + j) % n = (i + k) % n) :
    j = k := by
  have := Nat.ModEq.add_left_cancel (Nat.ModEq.refl i) h
  rwa [Nat.ModEq, Nat.mod_eq_of_lt hj, Nat.mod_eq_of_lt hk] at this

/-- **A pushed element is the last one.** -/
theorem toList_push {r r' : RingBuffer α n} {a : α} (h : r.push a = some r') :
    r'.toList = r.toList ++ [a] := by
  unfold push at h
  split at h
  · exact absurd h (by simp)
  · rename_i hfull
    cases h
    have hlt : r.count < n := Nat.lt_of_le_of_ne r.count_le hfull
    simp only [toList, List.range_succ, List.map_append, List.map_cons, List.map_nil]
    congr 1
    · apply List.map_congr_left
      intro k hk
      have hk : k < r.count := List.mem_range.mp hk
      apply Function.update_of_ne
      rw [r.write_eq]
      intro he
      exact Nat.ne_of_lt hk (index_inj (Nat.lt_trans hk hlt) hlt he)
    · rw [r.write_eq, Function.update_self]

theorem pop_eq_none {r : RingBuffer α n} : r.pop = none ↔ r.toList = [] := by
  rw [toList_eq_nil]
  unfold pop
  split <;> simp_all

/-- **A popped element is the first one.** -/
theorem toList_pop {r r' : RingBuffer α n} {a : α} (h : r.pop = some (a, r')) :
    r.toList = a :: r'.toList := by
  unfold pop at h
  split at h
  · exact absurd h (by simp)
  · rename_i hne
    cases h
    obtain ⟨c, hc⟩ := Nat.exists_eq_succ_of_ne_zero hne
    have hmod : (r.readIndex + 0) % n = r.readIndex := Nat.mod_eq_of_lt r.read_lt
    simp only [toList, hc, List.range_succ_eq_map, List.map_cons, List.map_map, hmod,
      Nat.succ_sub_one, List.cons.injEq, true_and]
    apply List.map_congr_left
    intro k _
    simp only [Function.comp, Nat.mod_add_mod]
    rw [Nat.add_right_comm, Nat.add_assoc]

/-- **Popping as often as there are elements, or more often, gives all of them.** -/
theorem popMany_of_count_le {fuel : Nat} {r : RingBuffer α n} (h : r.count ≤ fuel) :
    (popMany fuel r).1 = r.toList ∧ (popMany fuel r).2.toList = [] := by
  induction fuel generalizing r with
  | zero =>
      have hnil : r.toList = [] := toList_eq_nil.mpr (Nat.le_zero.mp h)
      exact ⟨hnil.symm, hnil⟩
  | succ fuel ih =>
      simp only [popMany]
      cases hp : r.pop with
      | none => exact ⟨(pop_eq_none.mp hp).symm, pop_eq_none.mp hp⟩
      | some p =>
          obtain ⟨a, r'⟩ := p
          have hcons := toList_pop hp
          have hlen : r.count = r'.count + 1 := by
            rw [← length_toList r, hcons, List.length_cons, length_toList]
          obtain ⟨h₁, h₂⟩ := ih (r := r') (by omega)
          exact ⟨by rw [hcons, ← h₁], h₂⟩

end RingBuffer
