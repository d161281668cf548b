import Mathlib.Data.Finset.Basic

set_option autoImplicit false

/-! # Event groups

A group of bits on which tasks wait, each for any bit of a mask and none clearing what it waited
for. A blocked task is given the bits as they are when a bit of its mask is set; one whose time is
over reads them when it runs again, which may be later. `view` is what the wait of a task would
return with: setting bits adds at most these to it, clearing bits adds nothing.
-/

/-- Where a task stands inside its wait. -/
inductive EventGroup.Waiter (β : Type)
  | blocked (mask : Finset β)
  | expired
  | woken (bits : Finset β)

/-- The bits, and the tasks inside a wait; a task that is none of them may be about to begin one. -/
structure EventGroup (ι β : Type) where
  bits : Finset β := ∅
  waiter : ι → Option (EventGroup.Waiter β) := fun _ => none

namespace EventGroup

variable {ι β : Type}

section
variable [DecidableEq ι] [DecidableEq β]

/-- What setting bits does to a task inside its wait; `bits` are those set afterwards. -/
def Waiter.wake (bits : Finset β) : Waiter β → Waiter β
  | .blocked mask => if (mask ∩ bits).Nonempty then .woken bits else .blocked mask
  | .expired => .expired
  | .woken given => .woken given

def set (g : EventGroup ι β) (s : Finset β) : EventGroup ι β :=
  { bits := g.bits ∪ s, waiter := fun c => (g.waiter c).map (·.wake (g.bits ∪ s)) }

def clear (g : EventGroup ι β) (s : Finset β) : EventGroup ι β := { g with bits := g.bits \ s }

/-- The task finds no bit of the mask set and waits. -/
def block (g : EventGroup ι β) (c : ι) (mask : Finset β) : Option (EventGroup ι β) :=
  if (g.waiter c).isNone ∧ mask ∩ g.bits = ∅ then
    some { g with waiter := Function.update g.waiter c (some (.blocked mask)) }
  else none

/-- The time of a blocked task is over. -/
def expire (g : EventGroup ι β) (c : ι) : Option (EventGroup ι β) :=
  match g.waiter c with
  | some (.blocked _) => some { g with waiter := Function.update g.waiter c (some .expired) }
  | _ => none

/-- The bits that the wait of a task returns with, if it can return now. -/
def read (g : EventGroup ι β) (c : ι) (mask : Finset β) : Option (Finset β) :=
  match g.waiter c with
  | none => if (mask ∩ g.bits).Nonempty then some g.bits else none
  | some (.blocked _) => none
  | some .expired => some g.bits
  | some (.woken given) => some given

/-- The task is out of its wait. -/
def leave (g : EventGroup ι β) (c : ι) : EventGroup ι β :=
  { g with waiter := Function.update g.waiter c none }

/-! ## What a wait returns with -/

/-- The task was given its bits already. -/
def woken (g : EventGroup ι β) (c : ι) : Bool :=
  match g.waiter c with
  | some (.woken _) => true
  | _ => false

/-- The bits that the wait of the task would return with. -/
def view (g : EventGroup ι β) (c : ι) : Finset β :=
  match g.waiter c with
  | some (.woken given) => given
  | _ => g.bits

end

variable {c : ι} {g : EventGroup ι β} {s : Finset β}

theorem view_of_not_woken (h : g.woken c = false) :
    g.view c = g.bits := by
  rw [woken] at h
  rw [view]
  split at h
  · cases h
  · rfl

theorem not_woken_of_none (h : g.waiter c = none) :
    g.woken c = false := by
  rw [woken, h]

section
variable [DecidableEq β]

theorem read_eq_view {mask given : Finset β} (h : g.read c mask = some given) :
    g.view c = given := by
  rw [read] at h
  rw [view]
  split at h
  · rename_i hnone
    rw [hnone]
    split at h
    · exact Option.some.inj h
    · cases h
  · cases h
  · rename_i hexpired
    rw [hexpired]
    exact Option.some.inj h
  · rename_i hwoken
    rw [hwoken]
    exact Option.some.inj h

/-- Setting bits shows no others, and none to a task that has been given its bits. -/
theorem mem_view_set {b : β} (h : b ∈ (g.set s).view c) :
    b ∈ g.view c ∨ g.woken c = false ∧ b ∈ s := by
  have key : b ∈ g.bits ∪ s → b ∈ g.bits ∨ b ∈ s := Finset.mem_union.mp
  cases hw : g.waiter c with
  | none =>
      simp only [view, set, hw, Option.map_none] at h
      simpa [view, woken, hw] using key h
  | some w =>
      cases w with
      | blocked mask =>
          have hb : b ∈ g.bits ∪ s := by
            simp only [view, set, hw, Option.map_some, Waiter.wake] at h
            split at h <;> rename_i hs
            · split at hs
              · cases hs
                exact h
              · cases hs
            · exact h
          simpa [view, woken, hw] using key hb
      | expired =>
          simp only [view, set, hw, Option.map_some, Waiter.wake] at h
          simpa [view, woken, hw] using key h
      | woken given =>
          simp only [view, set, hw, Option.map_some, Waiter.wake] at h
          exact Or.inl (by simpa [view, hw] using h)

theorem mem_view_clear {b : β} (h : b ∈ (g.clear s).view c) : b ∈ g.view c := by
  by_cases hw : g.woken c
  · have hview : (g.clear s).view c = g.view c := by
      rw [woken] at hw
      simp only [view, clear]
      split at hw
      · rfl
      · cases hw
    exact hview ▸ h
  · have hw' : g.woken c = false := by simpa using hw
    have hc : (g.clear s).woken c = false := hw'
    rw [view_of_not_woken hc] at h
    rw [view_of_not_woken hw']
    exact (Finset.mem_sdiff.mp h).1

@[simp] theorem woken_clear (g : EventGroup ι β) (s : Finset β) (c : ι) :
    (g.clear s).woken c = g.woken c := rfl

@[simp] theorem bits_clear (g : EventGroup ι β) (s : Finset β) : (g.clear s).bits = g.bits \ s :=
  rfl

@[simp] theorem bits_set (g : EventGroup ι β) (s : Finset β) : (g.set s).bits = g.bits ∪ s := rfl

/-- Who has not been given bits after bits were set had not been given any before. -/
theorem not_woken_of_set (h : (g.set s).woken c = false) : g.woken c = false := by
  by_contra hw
  simp only [woken] at h hw
  split at hw
  · rename_i hgiven
    simp [set, hgiven, Waiter.wake] at h
  · exact hw rfl

theorem waiter_set_eq_none_iff :
    (g.set s).waiter c = none ↔ g.waiter c = none := by
  simp [set]

end

/-! ## Beginning and ending a wait -/

/-- Only the place of one task inside its wait changes, and not what its wait returns with. -/
structure Quiet (c : ι) (g g' : EventGroup ι β) : Prop where
  bits : g'.bits = g.bits
  view : ∀ d, g'.view d = g.view d
  woken : ∀ d, g'.woken d = g.woken d
  waiter : ∀ d, d ≠ c → g'.waiter d = g.waiter d

variable [DecidableEq ι]

theorem quiet_update {w : Option (Waiter β)} (hw : g.woken c = false)
    (hw' : ∀ given, w ≠ some (.woken given)) :
    Quiet c g { g with waiter := Function.update g.waiter c w } := by
  have hview : g.view c = g.bits := view_of_not_woken hw
  refine ⟨rfl, fun d => ?_, fun d => ?_, fun d hd => Function.update_of_ne hd _ _⟩
  · by_cases hd : d = c
    · subst hd
      rw [hview]
      simp only [view, Function.update_self]
    · simp [view, Function.update_of_ne hd]
  · by_cases hd : d = c
    · subst hd
      rw [hw]
      simp only [woken, Function.update_self]
    · simp [woken, Function.update_of_ne hd]

variable [DecidableEq β] in
theorem block_quiet {g' : EventGroup ι β} {mask : Finset β} (h : g.block c mask = some g') :
    Quiet c g g' := by
  rw [block] at h
  split at h
  · rename_i hfree
    cases h
    have hnone : g.waiter c = none := Option.isNone_iff_eq_none.mp hfree.1
    exact quiet_update (not_woken_of_none hnone) (by simp)
  · cases h

theorem expire_quiet {g' : EventGroup ι β} (h : g.expire c = some g') :
    Quiet c g g' := by
  rw [expire] at h
  split at h
  · rename_i hblocked
    cases h
    exact quiet_update (by simp [woken, hblocked]) (by simp)
  · cases h

@[simp] theorem waiter_leave_self (g : EventGroup ι β) (c : ι) : (g.leave c).waiter c = none :=
  Function.update_self ..

theorem waiter_leave_of_ne {d : ι} (h : d ≠ c) :
    (g.leave c).waiter d = g.waiter d :=
  Function.update_of_ne h ..

theorem view_leave_of_ne {d : ι} (h : d ≠ c) :
    (g.leave c).view d = g.view d := by
  simp only [view, waiter_leave_of_ne h]
  rfl

theorem woken_leave_of_ne {d : ι} (h : d ≠ c) :
    (g.leave c).woken d = g.woken d := by
  simp only [woken, waiter_leave_of_ne h]

@[simp] theorem bits_leave (g : EventGroup ι β) (c : ι) : (g.leave c).bits = g.bits := rfl

end EventGroup
