import Mathlib.Data.Nat.Basic

set_option autoImplicit false

/-! # Visiting a table in a circle

A table of `n` entries is visited from a cursor on, and the cursor is put behind the entry that was
served. An entry that is visited later comes nearer to the cursor by that.
-/

namespace RoundRobin

/-- The number of entries that are visited before entry `d` from the cursor `c` on. -/
def offset (n c d : Nat) : Nat := (d + (n - c % n)) % n

variable {n c d e : Nat}

theorem offset_lt (hn : 0 < n) : offset n c d < n := Nat.mod_lt _ hn

theorem offset_eq (hd : d < n) : offset n c d = if c % n ≤ d then d - c % n else d + n - c % n := by
  have hc : c % n < n := Nat.mod_lt c (Nat.zero_lt_of_lt hd)
  unfold offset
  split
  · rw [show d + (n - c % n) = d - c % n + n by omega, Nat.add_mod_right]
    exact Nat.mod_eq_of_lt (by omega)
  · rw [Nat.mod_eq_of_lt (by omega)]
    omega

/-- The `k`-th entry visited has `k` entries in front of it. -/
theorem offset_visited {k : Nat} (hk : k < n) : offset n c ((c + k) % n) = k := by
  have hn : 0 < n := Nat.zero_lt_of_lt hk
  have hc : c % n < n := Nat.mod_lt c hn
  rw [offset_eq (Nat.mod_lt _ hn)]
  have hsum : (c + k) % n = if c % n + k < n then c % n + k else c % n + k - n := by
    rw [← Nat.mod_add_mod]
    split
    · exact Nat.mod_eq_of_lt ‹_›
    · rw [Nat.mod_eq_sub_mod (by omega)]
      exact Nat.mod_eq_of_lt (by omega)
  rw [hsum]
  split_ifs <;> omega

theorem offset_inj (hd : d < n) (he : e < n) (h : offset n c d = offset n c e) : d = e := by
  have hc : c % n < n := Nat.mod_lt c (Nat.zero_lt_of_lt hd)
  rw [offset_eq hd, offset_eq he] at h
  split_ifs at h <;> omega

/-- Serving an entry brings the ones behind it nearer. -/
theorem offset_served (hd : d < n) (he : e < n) (h : offset n c e < offset n c d) :
    offset n ((e + 1) % n) d + offset n c e + 1 = offset n c d := by
  have hc : c % n < n := Nat.mod_lt c (Nat.zero_lt_of_lt hd)
  have hcursor : (e + 1) % n % n = if e + 1 = n then 0 else e + 1 := by
    rw [Nat.mod_mod]
    split
    · rw [‹e + 1 = n›, Nat.mod_self]
    · exact Nat.mod_eq_of_lt (by omega)
  rw [offset_eq he, offset_eq hd] at h
  rw [offset_eq hd, offset_eq hd, offset_eq he, hcursor]
  split_ifs at h ⊢ <;> omega

end RoundRobin
