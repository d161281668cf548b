import BleGateway.GatewayEvents.Bus

/-! # The order in which a listener gets the events

Numbers are taken in order, but the calls of one listener by two tasks can overtake each
other: only the critical section orders the tasks, and the calls are outside it. The calls
and the events a listener takes follow the numbers as long as a task calls a listener only
after every task with a smaller number has left that listener.
-/

namespace BleGateway.GatewayEvents

variable {φ : Type}

/-! ## The property -/

/-- `numbers` are the numbers after `r`, one after the other. -/
def Follows (r : UInt32) (numbers : List UInt32) : Prop :=
  numbers.map UInt32.toNat = List.range' (r.toNat + 1) numbers.length

instance (r : UInt32) (numbers : List UInt32) : Decidable (Follows r numbers) :=
  inferInstanceAs (Decidable (_ = _))

theorem follows_nil (r : UInt32) : Follows r [] := rfl

theorem Follows.concat {r n : UInt32} {numbers : List UInt32} (h : Follows r numbers)
    (hn : n.toNat = r.toNat + numbers.length + 1) : Follows r (numbers ++ [n]) := by
  rw [Follows, List.map_append, h, List.length_append, List.length_singleton,
    List.range'_concat, List.map_singleton, hn]
  congr 2
  omega

/-- The listener of every registered slot has been called with, and has taken, the numbers that
follow the one of its registration, in order and without a gap. -/
def Ordered (σ : Sys φ) : Prop :=
  ∀ i, (σ.bus.listeners i).isSome →
    Follows (σ.registeredAt i) (σ.called i) ∧ Follows (σ.registeredAt i) (σ.entered i)

instance (σ : Sys φ) : Decidable (Ordered σ) := inferInstanceAs (Decidable (∀ _, _))

/-- **The condition.** A task calls a listener only after every publish with a smaller number has
left that listener, and the numbers do not wrap around. -/
def InTurn (σ : Sys φ) : Label φ → Prop
  | .publish _ _ => σ.bus.seq.toNat + 1 < 2 ^ 32
  | .call t => ∀ p i rest, σ.running t = some p → p.todo = i :: rest →
      ∀ t' q, σ.running t' = some q → i ∈ q.todo → p.event.seq.toNat ≤ q.event.seq.toNat
  | _ => True

/-! ## The invariant -/

/-- The listener of slot `i` is still to take the event with the number `n`. -/
def Sys.Awaits (σ : Sys φ) (i : Slot) (n : Nat) : Prop :=
  ∃ t p, σ.running t = some p ∧ i ∈ p.todo ∧ p.event.seq.toNat = n

/-- A task has called the listener of slot `i`, which has not taken the event yet. -/
def Sys.Inside (σ : Sys φ) (i : Slot) (t : Task) (event : GatewayEvent) : Prop :=
  ∃ rest, σ.running t = some ⟨event, i :: rest, true⟩

/-- What holds of a registered slot: its listener has taken the numbers up to some number, and
exactly the later ones up to the bus's are on their way to it. -/
structure SlotInv (σ : Sys φ) (i : Slot) : Prop where
  entered : Follows (σ.registeredAt i) (σ.entered i)
  le : (σ.registeredAt i).toNat + (σ.entered i).length ≤ σ.bus.seq.toNat
  awaited : ∀ n, σ.Awaits i n ↔
    (σ.registeredAt i).toNat + (σ.entered i).length < n ∧ n ≤ σ.bus.seq.toNat
  inside : ∀ t event, σ.Inside i t event →
    event.seq.toNat = (σ.registeredAt i).toNat + (σ.entered i).length + 1 ∧
      σ.called i = σ.entered i ++ [event.seq]
  outside : (∀ t event, ¬ σ.Inside i t event) → σ.called i = σ.entered i

structure BusInv (σ : Sys φ) : Prop where
  distinct : ∀ t t' p q, σ.running t = some p → σ.running t' = some q →
    p.event.seq.toNat = q.event.seq.toNat → t = t'
  nodup : ∀ t p, σ.running t = some p → p.todo.Nodup
  bounded : ∀ t p, σ.running t = some p → p.event.seq.toNat ≤ σ.bus.seq.toNat
  used : ∀ t p i, σ.running t = some p → i ∈ p.todo → (σ.bus.listeners i).isSome
  unused : ∀ i, σ.bus.listeners i = none → σ.called i = [] ∧ σ.entered i = []
  slots : ∀ i, (σ.bus.listeners i).isSome → SlotInv σ i

variable {i : Slot} {σ : Sys φ} {t : Task} {event : GatewayEvent}

theorem SlotInv.ordered (h : SlotInv σ i) :
    Follows (σ.registeredAt i) (σ.called i) ∧ Follows (σ.registeredAt i) (σ.entered i) := by
  refine ⟨?_, h.entered⟩
  by_cases hin : ∃ t event, σ.Inside i t event
  · obtain ⟨t, event, hin⟩ := hin
    obtain ⟨hn, hcalled⟩ := h.inside t event hin
    rw [hcalled]
    exact h.entered.concat hn
  · have hout : σ.called i = σ.entered i := h.outside fun t event ht => hin ⟨t, event, ht⟩
    rw [hout]
    exact h.entered

theorem BusInv.ordered (h : BusInv σ) : Ordered σ := fun i hi => (h.slots i hi).ordered

theorem boot_inv : BusInv (boot : Sys φ) where
  distinct t _ _ _ h := absurd h (by simp [boot])
  nodup t _ h := absurd h (by simp [boot])
  bounded t _ h := absurd h (by simp [boot])
  used t _ _ h := absurd h (by simp [boot])
  unused _ _ := ⟨rfl, rfl⟩
  slots i h := absurd h (by simp [boot, Bus.init])

/-! ## Steps -/

/-- A task that has returned, or has just begun, is found as `settle` leaves it. -/
theorem running_update {running : Task → Option Publisher} {t' : Task} {p q : Publisher}
    (h : Function.update running t p.settle t' = some q) :
    (t' = t ∧ q = p ∧ p.todo ≠ []) ∨ (t' ≠ t ∧ running t' = some q) := by
  rw [Function.update_apply] at h
  split at h
  · rename_i ht
    rw [Publisher.settle] at h
    split at h
    · cases h
    · rename_i hne
      exact .inl ⟨ht, (Option.some.inj h).symm, hne⟩
  · rename_i ht
    exact .inr ⟨ht, h⟩

theorem settle_of_mem {p : Publisher} (h : i ∈ p.todo) : p.settle = some p :=
  if_neg (List.ne_nil_of_mem h)

theorem register_inv (h : BusInv σ) {listener : φ} (hfree : σ.bus.listeners i = none) :
    BusInv (σ.seat i listener) where
  distinct := h.distinct
  nodup := h.nodup
  bounded := h.bounded
  used t p j ht hj := by
    have hused := h.used t p j ht hj
    have hne : j ≠ i := fun he => by rw [he, hfree] at hused; exact absurd hused (by simp)
    exact (congrArg Option.isSome (Function.update_of_ne hne _ _)).trans hused
  unused j hj := by
    by_cases hji : j = i
    · exact h.unused j (hji ▸ hfree)
    · exact h.unused j ((Function.update_of_ne hji _ _).symm.trans hj)
  slots j hj := by
    by_cases hji : j = i
    · subst hji
      obtain ⟨hcalled, hentered⟩ := h.unused j hfree
      -- nobody has copied a slot that was free until now
      have hfar : ∀ t p, σ.running t = some p → j ∉ p.todo := fun t p ht hmem => by
        have := h.used t p j ht hmem
        rw [hfree] at this
        cases this
      constructor
      · simp only [Sys.seat, Function.update_self, hentered]
        exact follows_nil _
      · simp only [Sys.seat, Function.update_self, hentered, List.length_nil]
        omega
      · intro n
        simp only [Sys.seat, Function.update_self, hentered, List.length_nil]
        constructor
        · rintro ⟨t, p, ht, hmem, _⟩
          exact absurd hmem (hfar t p ht)
        · intro hn
          omega
      · rintro t event ⟨rest, ht⟩
        exact absurd List.mem_cons_self (hfar t _ ht)
      · intro _
        exact hcalled.trans hentered.symm
    · have hold : (σ.bus.listeners j).isSome := by
        rw [← Function.update_of_ne hji (some listener) σ.bus.listeners]
        exact hj
      have hslot := h.slots j hold
      constructor
      · simp only [Sys.seat, Function.update_of_ne hji]
        exact hslot.entered
      · simp only [Sys.seat, Function.update_of_ne hji]
        exact hslot.le
      · simp only [Sys.seat, Function.update_of_ne hji]
        exact hslot.awaited
      · simp only [Sys.seat, Function.update_of_ne hji]
        exact hslot.inside
      · exact hslot.outside

theorem publish_inv (h : BusInv σ) (hidle : σ.running t = none)
    (hwrap : σ.bus.seq.toNat + 1 < 2 ^ 32) :
    BusInv (σ.publish t event) := by
  have hseq : (σ.bus.seq + 1).toNat = σ.bus.seq.toNat + 1 := by
    rw [UInt32.toNat_add, UInt32.toNat_one]
    exact Nat.mod_eq_of_lt hwrap
  have hold : ∀ {t' q}, σ.running t' = some q → t' ≠ t := fun ht he => by
    rw [he, hidle] at ht
    cases ht
  constructor
  · intro t₁ t₂ p q h₁ h₂ he
    rcases running_update h₁ with ⟨rfl, rfl, _⟩ | ⟨_, hold₁⟩ <;>
      rcases running_update h₂ with ⟨rfl, rfl, _⟩ | ⟨_, hold₂⟩
    · rfl
    · have := h.bounded _ _ hold₂
      simp only [hseq] at he
      omega
    · have := h.bounded _ _ hold₁
      simp only [hseq] at he
      omega
    · exact h.distinct _ _ _ _ hold₁ hold₂ he
  · intro t' p ht
    rcases running_update ht with ⟨_, rfl, _⟩ | ⟨_, ht⟩
    · exact recipients_nodup _
    · exact h.nodup _ _ ht
  · intro t' p ht
    change _ ≤ (σ.bus.seq + 1).toNat
    rcases running_update ht with ⟨_, rfl, _⟩ | ⟨_, ht⟩
    · exact Nat.le_refl _
    · have := h.bounded _ _ ht
      omega
  · intro t' p i ht hi
    rcases running_update ht with ⟨_, rfl, _⟩ | ⟨_, ht⟩
    · exact mem_recipients.mp hi
    · exact h.used _ _ _ ht hi
  · exact h.unused
  · intro i hi
    have hslot := h.slots i hi
    have hinside : ∀ t' e, (σ.publish t event).Inside i t' e ↔ σ.Inside i t' e := by
      intro t' e
      constructor
      · rintro ⟨rest, ht⟩
        rcases running_update ht with ⟨_, he, _⟩ | ⟨_, ht⟩
        · cases congrArg Publisher.inside he
        · exact ⟨rest, ht⟩
      · rintro ⟨rest, ht⟩
        exact ⟨rest, (Function.update_of_ne (hold ht) _ _).trans ht⟩
    constructor
    · exact hslot.entered
    · have := hslot.le
      change _ ≤ (σ.bus.seq + 1).toNat
      simp only [Sys.publish]
      omega
    · intro n
      have hle := hslot.le
      have hbefore := hslot.awaited n
      change _ ↔ (σ.registeredAt i).toNat + (σ.entered i).length < n ∧ n ≤ (σ.bus.seq + 1).toNat
      rw [hseq]
      constructor
      · rintro ⟨t', p, ht, hmem, hn⟩
        rcases running_update ht with ⟨_, rfl, _⟩ | ⟨_, ht⟩
        · simp only [hseq] at hn
          omega
        · have := hbefore.mp ⟨t', p, ht, hmem, hn⟩
          omega
      · intro hn
        by_cases hlast : n = σ.bus.seq.toNat + 1
        · refine ⟨t, _, (Function.update_self ..).trans
            (settle_of_mem (mem_recipients.mpr hi)), mem_recipients.mpr hi, ?_⟩
          exact hseq.trans hlast.symm
        · obtain ⟨t', p, ht, hmem, hp⟩ := hbefore.mpr (by omega)
          exact ⟨t', p, (Function.update_of_ne (hold ht) _ _).trans ht, hmem, hp⟩
    · intro t' e ht
      exact hslot.inside t' e ((hinside t' e).mp ht)
    · intro hout
      exact hslot.outside fun t' e ht => hout t' e ((hinside t' e).mpr ht)

/-- A task calls only slots that are taken. -/
theorem BusInv.ne_of_none (h : BusInv σ) {j : Slot} {rest : List Slot} {inside : Bool}
    (ht : σ.running t = some ⟨event, i :: rest, inside⟩) (hj : σ.bus.listeners j = none) :
    j ≠ i := by
  rintro rfl
  have := h.used t _ j ht List.mem_cons_self
  rw [hj] at this
  cases this

/-- The running tasks go on with their events and at most the calls they still had to make. -/
theorem BusInv.goOn {σ' : Sys φ} (h : BusInv σ) (hbus : σ'.bus = σ.bus)
    (hold : ∀ {t q}, σ'.running t = some q → ∃ p, σ.running t = some p ∧ p.event = q.event ∧
      q.todo.Sublist p.todo)
    (hunused : ∀ j, σ.bus.listeners j = none →
      σ'.called j = σ.called j ∧ σ'.entered j = σ.entered j)
    (hslots : ∀ j, (σ.bus.listeners j).isSome → SlotInv σ' j) : BusInv σ' where
  distinct t t' p q ht ht' he := by
    obtain ⟨p', hp', hp, -⟩ := hold ht
    obtain ⟨q', hq', hq, -⟩ := hold ht'
    exact h.distinct t t' p' q' hp' hq' (by rw [hp, hq, he])
  nodup t q hq := by
    obtain ⟨p, hp, -, htodo⟩ := hold hq
    exact (h.nodup t p hp).sublist htodo
  bounded t q hq := by
    obtain ⟨p, hp, hevent, -⟩ := hold hq
    rw [hbus, ← hevent]
    exact h.bounded t p hp
  used t q j hq hj := by
    obtain ⟨p, hp, -, htodo⟩ := hold hq
    rw [hbus]
    exact h.used t p j hp (htodo.subset hj)
  unused j hj := by
    rw [hbus] at hj
    obtain ⟨hcalled, hentered⟩ := hunused j hj
    rw [hcalled, hentered]
    exact h.unused j hj
  slots j hj := hslots j (hbus ▸ hj)

/-- The task whose turn it is has the next number of the listener, and no other task is inside
that listener. -/
theorem BusInv.turn (h : BusInv σ) {rest : List Slot}
    (ht : σ.running t = some ⟨event, i :: rest, false⟩)
    (hturn : ∀ t' q, σ.running t' = some q → i ∈ q.todo → event.seq.toNat ≤ q.event.seq.toNat) :
    event.seq.toNat = (σ.registeredAt i).toNat + (σ.entered i).length + 1 ∧
      ∀ t' e, ¬ σ.Inside i t' e := by
  have hslot := h.slots i (h.used _ _ _ ht List.mem_cons_self)
  have hself := (hslot.awaited event.seq.toNat).mp ⟨t, _, ht, List.mem_cons_self, rfl⟩
  have hnext : event.seq.toNat = (σ.registeredAt i).toNat + (σ.entered i).length + 1 := by
    -- the publish with the next number still has to call the listener
    obtain ⟨t', q, hq, hmem, hn⟩ := (hslot.awaited
      ((σ.registeredAt i).toNat + (σ.entered i).length + 1)).mpr (by omega)
    have := hturn t' q hq hmem
    omega
  refine ⟨hnext, ?_⟩
  rintro t' e ⟨rest', ht'⟩
  obtain ⟨hn, _⟩ := hslot.inside t' e ⟨rest', ht'⟩
  have he : t = t' := h.distinct t t' _ _ ht ht' (hnext.trans hn.symm)
  rw [he, ht'] at ht
  cases congrArg Publisher.inside (Option.some.inj ht)

theorem call_inv (h : BusInv σ) {rest : List Slot}
    (ht : σ.running t = some ⟨event, i :: rest, false⟩)
    (hturn : ∀ t' q, σ.running t' = some q → i ∈ q.todo → event.seq.toNat ≤ q.event.seq.toNat) :
    BusInv (σ.call t ⟨event, i :: rest, false⟩ i) := by
  have hold : ∀ {t' q}, (σ.call t ⟨event, i :: rest, false⟩ i).running t' = some q →
      ∃ p, σ.running t' = some p ∧ p.event = q.event ∧ p.todo = q.todo ∧
        (t' = t ∧ q = ⟨event, i :: rest, true⟩ ∨ t' ≠ t ∧ p = q) := by
    intro t' q hq
    change Function.update σ.running t _ t' = some q at hq
    rw [Function.update_apply] at hq
    split at hq
    · rename_i he
      cases hq
      exact ⟨⟨event, i :: rest, false⟩, he ▸ ht, rfl, rfl, .inl ⟨he, rfl⟩⟩
    · rename_i hne
      exact ⟨q, hq, rfl, rfl, .inr ⟨hne, rfl⟩⟩
  have hnew : ∀ {t' p}, σ.running t' = some p →
      ∃ q, (σ.call t ⟨event, i :: rest, false⟩ i).running t' = some q ∧ q.event = p.event ∧
        q.todo = p.todo := by
    intro t' p hp
    by_cases he : t' = t
    · subst he
      obtain rfl := Option.some.inj (ht.symm.trans hp)
      exact ⟨_, Function.update_self .., rfl, rfl⟩
    · exact ⟨p, (Function.update_of_ne he _ _).trans hp, rfl, rfl⟩
  refine h.goOn rfl (fun hq => ?_) (fun j hj => ?_) fun j hj => ?_
  · obtain ⟨p, hp, hevent, htodo, _⟩ := hold hq
    exact ⟨p, hp, hevent, htodo ▸ List.Sublist.refl _⟩
  · exact ⟨Function.update_of_ne (h.ne_of_none ht hj) _ _, rfl⟩
  · have hslot := h.slots j hj
    obtain ⟨hnext, hout⟩ := h.turn ht hturn
    refine ⟨hslot.entered, hslot.le, fun n => ?_, ?_, ?_⟩
    · refine Iff.trans ?_ (hslot.awaited n)
      constructor
      · rintro ⟨t', q, hq, hmem, hn⟩
        obtain ⟨p, hp, hevent, htodo, _⟩ := hold hq
        exact ⟨t', p, hp, htodo ▸ hmem, by rw [hevent]; exact hn⟩
      · rintro ⟨t', p, hp, hmem, hn⟩
        obtain ⟨q, hq, hevent, htodo⟩ := hnew hp
        exact ⟨t', q, hq, htodo ▸ hmem, by rw [hevent]; exact hn⟩
    · rintro t' e ⟨rest', hin⟩
      obtain ⟨p, hp, _, _, ⟨rfl, hq⟩ | ⟨hne, rfl⟩⟩ := hold hin
      · obtain ⟨rfl, htodo, _⟩ := Publisher.mk.inj hq
        obtain rfl := (List.cons.inj htodo).1
        have hcalled : σ.called j = σ.entered j := hslot.outside hout
        have hset : (σ.call t' ⟨e, j :: rest, false⟩ j).called j = σ.called j ++ [e.seq] :=
          Function.update_self ..
        exact ⟨hnext, by rw [hset, hcalled]; rfl⟩
      · have hji : j ≠ i := fun he => hout t' e ⟨rest', he ▸ hp⟩
        obtain ⟨hn, hcalled⟩ := hslot.inside t' e ⟨rest', hp⟩
        exact ⟨hn, (Function.update_of_ne hji _ _).trans hcalled⟩
    · intro hnone
      have hji : j ≠ i := fun he => hnone t event ⟨rest, he ▸ Function.update_self ..⟩
      refine (Function.update_of_ne hji _ _).trans (hslot.outside ?_)
      rintro t' e ⟨rest', hin⟩
      by_cases he : t' = t
      · rw [he, ht] at hin
        cases congrArg Publisher.inside (Option.some.inj hin)
      · exact hnone t' e ⟨rest', (Function.update_of_ne he _ _).trans hin⟩

theorem enter_inv (h : BusInv σ) {rest : List Slot}
    (ht : σ.running t = some ⟨event, i :: rest, true⟩) :
    BusInv (σ.enter t ⟨event, i :: rest, true⟩ i rest) := by
  have hfresh : i ∉ rest := (List.nodup_cons.mp (h.nodup _ _ ht)).1
  have hused := h.used _ _ i ht List.mem_cons_self
  obtain ⟨hn, hcalled⟩ := (h.slots i hused).inside t event ⟨rest, ht⟩
  -- who runs now has run before, with the same number and at most the head fewer to call
  have hold : ∀ {t' q}, (σ.enter t ⟨event, i :: rest, true⟩ i rest).running t' = some q →
      ∃ p, σ.running t' = some p ∧ p.event = q.event ∧ q.todo.Sublist p.todo ∧
        (t' = t ∧ q = ⟨event, rest, false⟩ ∨ t' ≠ t ∧ p = q) := by
    intro t' q hq
    rcases running_update hq with ⟨rfl, rfl, _⟩ | ⟨hne, hq⟩
    · exact ⟨⟨event, i :: rest, true⟩, ht, rfl, List.sublist_cons_self .., .inl ⟨rfl, rfl⟩⟩
    · exact ⟨q, hq, rfl, .refl _, .inr ⟨hne, rfl⟩⟩
  refine h.goOn rfl (fun hq => ?_) (fun j hj => ?_) fun j hj => ?_
  · obtain ⟨p, hp, hevent, htodo, _⟩ := hold hq
    exact ⟨p, hp, hevent, htodo⟩
  · exact ⟨rfl, Function.update_of_ne (h.ne_of_none ht hj) _ _⟩
  · have hslot := h.slots j hj
    have hin : ∀ t' e, (σ.enter t ⟨event, i :: rest, true⟩ i rest).Inside j t' e →
        t' ≠ t ∧ σ.Inside j t' e := by
      rintro t' e ⟨rest', hq⟩
      obtain ⟨p, hp, _, _, ⟨_, hq⟩ | ⟨hne, rfl⟩⟩ := hold hq
      · cases congrArg Publisher.inside hq
      · exact ⟨hne, rest', hp⟩
    by_cases hji : j = i
    · subst hji
      have hset : (σ.enter t ⟨event, j :: rest, true⟩ j rest).entered j =
          σ.entered j ++ [event.seq] := Function.update_self ..
      have hself := (hslot.awaited event.seq.toNat).mp ⟨t, _, ht, List.mem_cons_self, rfl⟩
      constructor
      · rw [hset]
        exact hslot.entered.concat hn
      · rw [hset, List.length_append, List.length_singleton]
        change (σ.registeredAt j).toNat + _ ≤ σ.bus.seq.toNat
        omega
      · intro n
        rw [hset, List.length_append, List.length_singleton]
        change _ ↔ (σ.registeredAt j).toNat + _ < n ∧ n ≤ σ.bus.seq.toNat
        constructor
        · rintro ⟨t', q, hq, hmem, rfl⟩
          obtain ⟨p, hp, hevent, htodo, hcase⟩ := hold hq
          have hbefore := (hslot.awaited q.event.seq.toNat).mp
            ⟨t', p, hp, htodo.subset hmem, by rw [hevent]⟩
          -- the number just taken is nobody else's
          have hne : q.event.seq.toNat ≠ event.seq.toNat := fun he => by
            have htt : t' = t := h.distinct t' t p _ hp ht (by rw [hevent]; exact he)
            rcases hcase with ⟨_, rfl⟩ | ⟨hne, _⟩
            · exact hfresh hmem
            · exact hne htt
          omega
        · intro hlt
          obtain ⟨t', p, hp, hmem, hpn⟩ := (hslot.awaited n).mpr (by omega)
          have hne : t' ≠ t := fun he => by
            rw [he, ht] at hp
            cases hp
            simp only at hpn
            omega
          exact ⟨t', p, (Function.update_of_ne hne _ _).trans hp, hmem, hpn⟩
      · intro t' e hin'
        obtain ⟨hne, rest', hp⟩ := hin t' e hin'
        obtain ⟨hn', _⟩ := hslot.inside t' e ⟨rest', hp⟩
        exact absurd (h.distinct t' t _ _ hp ht (hn'.trans hn.symm)) hne
      · intro _
        exact hcalled.trans hset.symm
    · have hset : (σ.enter t ⟨event, i :: rest, true⟩ i rest).entered j = σ.entered j :=
        Function.update_of_ne hji _ _
      have hnew : ∀ {t' p}, σ.running t' = some p → j ∈ p.todo →
          ∃ q, (σ.enter t ⟨event, i :: rest, true⟩ i rest).running t' = some q ∧
            q.event = p.event ∧ j ∈ q.todo := by
        intro t' p hp hmem
        by_cases he : t' = t
        · subst he
          obtain rfl := Option.some.inj (ht.symm.trans hp)
          have hrest : j ∈ rest := (List.mem_cons.mp hmem).resolve_left hji
          exact ⟨⟨event, rest, false⟩, (Function.update_self ..).trans (settle_of_mem hrest), rfl,
            hrest⟩
        · exact ⟨p, (Function.update_of_ne he _ _).trans hp, rfl, hmem⟩
      constructor
      · rw [hset]
        exact hslot.entered
      · rw [hset]
        exact hslot.le
      · intro n
        rw [hset]
        refine Iff.trans ?_ (hslot.awaited n)
        constructor
        · rintro ⟨t', q, hq, hmem, hqn⟩
          obtain ⟨p, hp, hevent, htodo, _⟩ := hold hq
          exact ⟨t', p, hp, htodo.subset hmem, by rw [hevent]; exact hqn⟩
        · rintro ⟨t', p, hp, hmem, hpn⟩
          obtain ⟨q, hq, hevent, hmem'⟩ := hnew hp hmem
          exact ⟨t', q, hq, hmem', by rw [hevent]; exact hpn⟩
      · intro t' e hin'
        rw [hset]
        exact hslot.inside t' e (hin t' e hin').2
      · intro hnone
        rw [hset]
        refine hslot.outside ?_
        rintro t' e ⟨rest', hp⟩
        have hne : t' ≠ t := fun he => by
          rw [he, ht] at hp
          exact hji (List.cons.inj (Publisher.mk.inj (Option.some.inj hp)).2.1).1.symm
        exact hnone t' e ⟨rest', (Function.update_of_ne hne _ _).trans hp⟩

/-! ## Runs -/

/-- **One step keeps the invariant** under the condition. -/
theorem step_inv {σ' : Sys φ} {l : Label φ} (h : BusInv σ) (hok : InTurn σ l)
    (hstep : σ.step l = some σ') : BusInv σ' := by
  cases stepped hstep with
  | register free => exact register_inv h free
  | publish idle => exact publish_inv h idle hok
  | call at_loop => exact call_inv h at_loop (hok _ _ _ at_loop rfl)
  | enter at_call => exact enter_inv h at_call

/-- **Listeners get the events in order.** In every run whose tasks call each listener in turn,
each registered listener is called with, and takes, the numbers that follow its registration,
one after the other. -/
theorem events_in_order {σ : Sys φ} (hσ : (machine φ).ReachableWhen InTurn σ) : Ordered σ := by
  have hinit : ∀ s, (machine φ).init s → BusInv s := fun s hs => by
    cases hs
    exact boot_inv
  exact (hσ.invariant hinit fun _ _ _ => step_inv).ordered

/-- Two tasks publish, and the first one has left the listener when the second one calls it. -/
theorem events_in_order_turns :
    ∃ σ, (machine Unit).ReachableWhen InTurn σ ∧ σ.called 0 = [1, 2] ∧ σ.entered 0 = [1, 2] ∧
      Ordered σ := by
  have hregister : (machine Unit).ReachableWhen InTurn _ :=
    .step (l := .register ()) (.init rfl) trivial rfl
  have hfirst : (machine Unit).ReachableWhen InTurn _ :=
    .step (l := .publish 0 {}) hregister (show (0 : UInt32).toNat + 1 < 2 ^ 32 by decide) rfl
  have hsecond : (machine Unit).ReachableWhen InTurn _ :=
    .step (l := .publish 1 {}) hfirst (show (1 : UInt32).toNat + 1 < 2 ^ 32 by decide) rfl
  -- the first task has the smallest number
  have hcall : (machine Unit).ReachableWhen InTurn _ :=
    .step (l := .call 0) hsecond (fun p i rest hp _ t q hq _ => by
      cases hp
      rcases running_update hq with ⟨-, rfl, -⟩ | ⟨-, hq⟩
      · decide
      · rcases running_update hq with ⟨-, rfl, -⟩ | ⟨-, hq⟩
        · decide
        · cases hq) rfl
  have hleft : (machine Unit).ReachableWhen InTurn _ := .step (l := .enter 0) hcall trivial rfl
  -- the second one is the only one left
  have hagain : (machine Unit).ReachableWhen InTurn _ :=
    .step (l := .call 1) hleft (fun p i rest hp _ t q hq _ => by
      have ht : t = 1 := by
        by_contra hne
        rcases running_update hq with ⟨-, -, hnil⟩ | ⟨h0, hq⟩
        · exact hnil rfl
        · change Function.update (Function.update (Function.update (fun _ => none) 0 _) 1 _) 0 _ t =
            some q at hq
          rw [Function.update_of_ne h0, Function.update_of_ne hne, Function.update_of_ne h0] at hq
          cases hq
      subst ht
      exact (congrArg (fun p => p.event.seq.toNat) (Option.some.inj (hp.symm.trans hq))).le) rfl
  have hdone : (machine Unit).ReachableWhen InTurn _ := .step (l := .enter 1) hagain trivial rfl
  exact ⟨_, hdone, rfl, rfl, events_in_order hdone⟩
/-- A listener, two publishing tasks, and the second one is the first to call the listener. -/
def overtaking : List (Label Unit) :=
  [.register (), .publish 0 {}, .publish 1 {}, .call 1]

/-- The second event reaches the listener first, and the first number is missing. -/
theorem events_out_of_order :
    ∃ σ, (machine Unit).Reachable σ ∧ ¬ Ordered σ := by
  have hrun : ((machine Unit).run boot overtaking).map (fun σ => decide (¬ Ordered σ)) =
      some true := by decide
  obtain ⟨σ, hσ, hp⟩ := Machine.exists_reachable_of_run (M := machine Unit) rfl hrun
  exact ⟨σ, hσ, of_decide_eq_true hp⟩

end BleGateway.GatewayEvents
