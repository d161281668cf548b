import BleGateway.EventStream.Model

/-! # The clients of the event stream

Lemmas about the client table: what pruning and registering leave of it, and that no two
clients share a descriptor.
-/

namespace BleGateway.EventStream

/-- Every client of `new` is one of `old`, in its place. -/
def Shrinks (old new : ClientSlot → Client) : Prop :=
  ∀ i, (new i).active = true → (old i).active = true ∧ (new i).fd = (old i).fd

/-- No two clients have one descriptor. -/
def DistinctFds (clients : ClientSlot → Client) : Prop :=
  ∀ i j, (clients i).active = true → (clients j).active = true →
    (clients i).fd = (clients j).fd → i = j

theorem Shrinks.distinct {old new : ClientSlot → Client} (h : Shrinks old new)
    (hd : DistinctFds old) : DistinctFds new := by
  intro i j hi hj he
  obtain ⟨hi', hfi⟩ := h i hi
  obtain ⟨hj', hfj⟩ := h j hj
  exact hd i j hi' hj' (by rw [← hfi, ← hfj, he])

variable {clients : ClientSlot → Client}

theorem slotOf_some {fd : Fd} {i : ClientSlot} (h : slotOf clients fd = some i) :
    (clients i).active = true ∧ (clients i).fd = fd := by
  have := List.find?_some h
  simpa using this

theorem slotOf_none {fd : Fd} (h : slotOf clients fd = none) (i : ClientSlot)
    (hi : (clients i).active = true) : (clients i).fd ≠ fd := by
  have := List.find?_eq_none.mp h i (List.mem_finRange i)
  simpa [hi] using this

theorem validated_shrinks (clients : ClientSlot → Client) (valid : ClientSlot → Bool) :
    Shrinks clients fun i => (clients i).validated (valid i) := by
  intro i hi
  simp only [Client.validated] at hi ⊢
  split at hi
  · cases hi
  · rename_i hkeep
    rw [if_neg hkeep]
    exact ⟨hi, rfl⟩

theorem pruneClient_shrinks (clients : ClientSlot → Client) (fd : Fd) :
    Shrinks clients (pruneClient clients fd) := by
  intro i hi
  cases hslot : slotOf clients fd with
  | none =>
      simp only [pruneClient, hslot] at hi ⊢
      exact ⟨hi, trivial⟩
  | some j =>
      simp only [pruneClient, hslot] at hi ⊢
      by_cases hij : i = j
      · subst hij
        exact absurd hi (by simp)
      · rw [Function.update_of_ne hij] at hi ⊢
        exact ⟨hi, rfl⟩

/-- A pruned descriptor is nobody's. -/
theorem pruneClient_gone (hd : DistinctFds clients) {fd : Fd} {i : ClientSlot}
    (hi : (pruneClient clients fd i).active = true) : (clients i).fd ≠ fd := by
  cases hslot : slotOf clients fd with
  | none =>
      simp only [pruneClient, hslot] at hi
      exact slotOf_none hslot i hi
  | some j =>
      simp only [pruneClient, hslot] at hi
      obtain ⟨hactive, hfd⟩ := slotOf_some hslot
      by_cases hij : i = j
      · subst hij
        exact absurd hi (by simp)
      · rw [Function.update_of_ne hij] at hi
        intro he
        exact hij (hd i j hi hactive (he.trans hfd.symm))

/-- **What registering can do:** the client gets a slot of its own, with a descriptor that nobody
has, or none; apart from that clients are only pruned. -/
theorem registerClient_spec (clients : ClientSlot → Client) (fd : Fd)
    (valid : ClientSlot → Bool) :
    (∃ i pruned, registerClient clients fd valid = (Function.update pruned i ⟨fd, true⟩, some i) ∧
        Shrinks clients pruned ∧ ∀ j, (pruned j).active = true → (pruned j).fd ≠ fd) ∨
      ∃ pruned, registerClient clients fd valid = (pruned, none) ∧ Shrinks clients pruned := by
  have hshrinks := validated_shrinks clients valid
  unfold registerClient
  cases hslot : slotOf clients fd with
  | some i => exact .inr ⟨clients, rfl, fun i hi => ⟨hi, rfl⟩⟩
  | none =>
      simp only
      cases (List.finRange WEB_WS_MAX_CLIENTS).find? fun i =>
          !((clients i).validated (valid i)).active with
      | none => exact .inr ⟨_, rfl, hshrinks⟩
      | some i =>
          refine .inl ⟨i, _, rfl, hshrinks, fun j hj => ?_⟩
          obtain ⟨hold, hfd⟩ := hshrinks j hj
          rw [hfd]
          exact slotOf_none hslot j hold

theorem mem_activeFds {i : ClientSlot} (hi : (clients i).active = true) :
    (clients i).fd ∈ activeFds clients :=
  List.mem_map.mpr ⟨i, List.mem_filter.mpr ⟨List.mem_finRange i, hi⟩, rfl⟩

theorem activeFds_nodup (hd : DistinctFds clients) :
    (activeFds clients).Nodup := by
  refine List.Nodup.map_on ?_ ((List.nodup_finRange _).filter _)
  intro i hi j hj he
  exact hd i j (List.mem_filter.mp hi).2 (List.mem_filter.mp hj).2 he

end BleGateway.EventStream
