import BleGateway.Settings.ActorSteps
import BleGateway.Settings.WorkerSteps

/-! # Numbers of operations and transactions

Each operation and each transaction has a number of its own, under which the log says what was asked
for. A record that is in use carries the number of its request.
-/

namespace BleGateway.Settings

/-- The entry numbers an operation or a transaction. -/
def Entry.asks : Entry → Prop
  | .opRequested .. | .txRequested .. => True
  | _ => False

namespace Worker

/-- What the numbers mean. -/
structure Numbered (w : Worker) : Prop where
  calls : w.CallsPlain
  sound : w.actor.Sound
  opBelow : ∀ n id, .opRequested n id ∈ w.log → n < w.clock
  txBelow : ∀ n id m, .txRequested n id m ∈ w.log → n < w.clock
  opKnown : ∀ i, (w.actor.ops i).active = true →
    .opRequested (w.opSerial i) (w.actor.ops i).deviceId ∈ w.log
  txKnown : ∀ k, (w.store.tx k).active = true →
    .txRequested (w.txSerial k) (w.store.tx k).deviceId (w.store.tx k).changes.length ∈ w.log
  opUnique : ∀ n id id', .opRequested n id ∈ w.log → .opRequested n id' ∈ w.log → id = id'
  txUnique : ∀ n id m id' m', .txRequested n id m ∈ w.log → .txRequested n id' m' ∈ w.log →
    id = id' ∧ m = m'
  txApart : ∀ i j, (w.store.tx i).active = true → (w.store.tx j).active = true →
    w.txSerial i = w.txSerial j → i = j
  distinct : Directory.Distinct Transaction.active Transaction.deviceId w.store.table.txns
  named : ∀ k, (w.store.tx k).active = true → (w.store.tx k).deviceId.text ≠ []

variable {w w' : Worker}

theorem mem_log_iff {entries : List Entry} (hlog : w'.log = w.log ++ entries)
    (hnone : ∀ e ∈ entries, ¬ e.asks) {e : Entry} (he : e.asks) : e ∈ w'.log ↔ e ∈ w.log := by
  rw [hlog, List.mem_append]
  exact ⟨fun h => h.resolve_right fun hmem => hnone e hmem he, Or.inl⟩

theorem Untouched.same {t t' : TxTable} (h : t.Untouched t') {k : Tx}
    (hk : (t'.txns k).active = true) : (t.txns k).Same (t'.txns k) :=
  h k (Or.inr hk) ▸ .refl _

/-- Nothing is asked for, and what is in use was in use before. -/
theorem Numbered.keep (h : w.Numbered) (hcalls : w'.CallsPlain) (hsound : w'.actor.Sound)
    (htame : w.actor.Tame w'.actor)
    (htx : ∀ k, (w'.store.tx k).active = true → (w.store.tx k).Same (w'.store.tx k))
    (hop : w'.opSerial = w.opSerial) (hserial : w'.txSerial = w.txSerial)
    (hclock : w'.clock = w.clock)
    (hlog : ∃ entries, w'.log = w.log ++ entries ∧ ∀ e ∈ entries, ¬ Entry.asks e) :
    w'.Numbered := by
  obtain ⟨entries, hlog, hnone⟩ := hlog
  have hops {n : Nat} {id : DeviceId} : .opRequested n id ∈ w'.log ↔ .opRequested n id ∈ w.log :=
    mem_log_iff hlog hnone trivial
  have htxs {n : Nat} {id : DeviceId} {m : Nat} :
      .txRequested n id m ∈ w'.log ↔ .txRequested n id m ∈ w.log := mem_log_iff hlog hnone trivial
  have hold {k : Tx} (hk : (w'.store.tx k).active = true) : (w.store.tx k).active = true :=
    (htx k hk).active.symm.trans hk
  refine
    { calls := hcalls
      sound := hsound
      opBelow := fun n id hn => ?_
      txBelow := fun n id m hn => ?_
      opKnown := fun i hi => ?_
      txKnown := fun k hk => ?_
      opUnique := fun n id id' hn hn' => ?_
      txUnique := fun n id m id' m' hn hn' => ?_
      txApart := fun i j hi hj heq => ?_
      distinct := fun i j hi hj heq => ?_
      named := fun k hk => ?_ }
  · rw [hclock]
    exact h.opBelow n id (hops.mp hn)
  · rw [hclock]
    exact h.txBelow n id m (htxs.mp hn)
  · obtain ⟨hused, hid⟩ := htame i hi
    rw [hop, hid]
    exact hops.mpr (h.opKnown i hused)
  · rw [hserial, (htx k hk).deviceId, (htx k hk).changes]
    exact htxs.mpr (h.txKnown k (hold hk))
  · exact h.opUnique n id id' (hops.mp hn) (hops.mp hn')
  · exact h.txUnique n id m id' m' (htxs.mp hn) (htxs.mp hn')
  · rw [hserial] at heq
    exact h.txApart i j (hold hi) (hold hj) heq
  · exact h.distinct i j (hold hi) (hold hj)
      ((htx i hi).deviceId.symm.trans (heq.trans (htx j hj).deviceId))
  · rw [(htx k hk).deviceId]
    exact h.named k (hold hk)

/-- An operation gets the next number. -/
theorem Numbered.request (h : w.Numbered) (hcalls : w'.CallsPlain) {id : DeviceId} {slot : OpIx}
    (haccepts : w.actor.Accepts id slot w'.actor) (hstore : w'.store = w.store)
    (hop : w'.opSerial = Function.update w.opSerial slot w.clock)
    (hserial : w'.txSerial = w.txSerial) (hclock : w'.clock = w.clock + 1)
    (hlog : w'.log = w.log ++ [.opRequested w.clock id]) : w'.Numbered := by
  obtain ⟨r, hops, hr, hid⟩ := haccepts.record
  have hmem {e : Entry} : e ∈ w'.log ↔ e ∈ w.log ∨ e = .opRequested w.clock id := by
    rw [hlog, List.mem_append, List.mem_singleton]
  have htx {n : Nat} {id' : DeviceId} {m : Nat} (hn : .txRequested n id' m ∈ w'.log) :
      .txRequested n id' m ∈ w.log := (hmem.mp hn).resolve_right fun heq => by cases heq
  -- the number is new
  have hnew {id' : DeviceId} : .opRequested w.clock id' ∉ w.log := fun hn =>
    Nat.lt_irrefl _ (h.opBelow _ id' hn)
  refine
    { calls := hcalls
      sound := fun op hop' => ?_
      opBelow := fun n id' hn => ?_
      txBelow := fun n id' m hn => ?_
      opKnown := fun i hi => ?_
      txKnown := fun k hk => ?_
      opUnique := fun n id' id'' hn hn' => ?_
      txUnique := fun n id' m id'' m' hn hn' => h.txUnique n id' m id'' m' (htx hn) (htx hn')
      txApart := ?_
      distinct := ?_
      named := ?_ }
  · rw [haccepts.active] at hop'
    rw [hops]
    by_cases hslot : op.slot = slot
    · rw [hslot, Function.update_self]
      exact hr
    · rw [Function.update_of_ne hslot]
      exact h.sound op hop'
  · rw [hclock]
    rcases hmem.mp hn with hold | heq
    · exact Nat.lt_succ_of_lt (h.opBelow n id' hold)
    · obtain ⟨rfl, -⟩ := Entry.opRequested.inj heq
      exact Nat.lt_succ_self _
  · rw [hclock]
    exact Nat.lt_succ_of_lt (h.txBelow n id' m (htx hn))
  · rw [hop]
    rw [hops] at hi ⊢
    by_cases hslot : i = slot
    · rw [hslot, Function.update_self, Function.update_self, hid]
      exact hmem.mpr (Or.inr rfl)
    · rw [Function.update_of_ne hslot] at hi
      rw [Function.update_of_ne hslot, Function.update_of_ne hslot]
      exact hmem.mpr (Or.inl (h.opKnown i hi))
  · rw [hstore] at hk ⊢
    rw [hserial]
    exact hmem.mpr (Or.inl (h.txKnown k hk))
  · rcases hmem.mp hn with hold | heq
    · rcases hmem.mp hn' with hold' | heq
      · exact h.opUnique n id' id'' hold hold'
      · obtain ⟨rfl, -⟩ := Entry.opRequested.inj heq
        exact absurd hold hnew
    · obtain ⟨rfl, rfl⟩ := Entry.opRequested.inj heq
      rcases hmem.mp hn' with hold' | heq'
      · exact absurd hold' hnew
      · exact (Entry.opRequested.inj heq').2.symm
  · rw [hstore, hserial]
    exact h.txApart
  · rw [hstore]
    exact h.distinct
  · rw [hstore]
    exact h.named

/-- A transaction gets the next number. -/
theorem Numbered.save (h : w.Numbered) (hcalls : w'.CallsPlain) {id : DeviceId}
    {changes : List ChangeRequest} {k : Tx}
    (haccepts : w.store.table.Accepts id changes k w'.store.table)
    (hops : w'.actor.ops = w.actor.ops) (hactive : w'.actor.active = w.actor.active)
    (hop : w'.opSerial = w.opSerial) (hserial : w'.txSerial = Function.update w.txSerial k w.clock)
    (hclock : w'.clock = w.clock + 1)
    (hlog : w'.log = w.log ++ [.txRequested w.clock id changes.length]) : w'.Numbered := by
  obtain ⟨tx, htxns, hactive', hid, hchanges, -, -⟩ := haccepts.record
  have hself : w'.store.tx k = tx := by
    show w'.store.table.txns k = tx
    rw [htxns, Function.update_self]
  have hother {j : Tx} (hj : j ≠ k) : w'.store.tx j = w.store.tx j := by
    show w'.store.table.txns j = w.store.table.txns j
    rw [htxns, Function.update_of_ne hj]
  have hmem {e : Entry} : e ∈ w'.log ↔ e ∈ w.log ∨ e = .txRequested w.clock id changes.length := by
    rw [hlog, List.mem_append, List.mem_singleton]
  have hopmem {n : Nat} {id' : DeviceId} (hn : .opRequested n id' ∈ w'.log) :
      .opRequested n id' ∈ w.log := (hmem.mp hn).resolve_right fun heq => by cases heq
  have hnew {id' : DeviceId} {m : Nat} : .txRequested w.clock id' m ∉ w.log := fun hn =>
    Nat.lt_irrefl _ (h.txBelow _ id' m hn)
  have hbelow {j : Tx} (hj : (w.store.tx j).active = true) : w.txSerial j < w.clock :=
    h.txBelow _ _ _ (h.txKnown j hj)
  -- the device had no transaction
  have habsent {j : Tx} (hj : (w.store.tx j).active = true) : (w.store.tx j).deviceId ≠ id := by
    have hfresh := haccepts.fresh
    rw [TxTable.find, if_neg haccepts.named] at hfresh
    exact Directory.lookup_eq_none.mp hfresh j hj
  refine
    { calls := hcalls
      sound := fun op hop' => ?_
      opBelow := fun n id' hn => ?_
      txBelow := fun n id' m hn => ?_
      opKnown := fun i hi => ?_
      txKnown := fun j hj => ?_
      opUnique := fun n id' id'' hn hn' => h.opUnique n id' id'' (hopmem hn) (hopmem hn')
      txUnique := fun n id' m id'' m' hn hn' => ?_
      txApart := fun i j hi hj heq => ?_
      distinct := ?_
      named := fun j hj => ?_ }
  · rw [hactive] at hop'
    rw [hops]
    exact h.sound op hop'
  · rw [hclock]
    exact Nat.lt_succ_of_lt (h.opBelow n id' (hopmem hn))
  · rw [hclock]
    rcases hmem.mp hn with hold | heq
    · exact Nat.lt_succ_of_lt (h.txBelow n id' m hold)
    · obtain ⟨rfl, -, -⟩ := Entry.txRequested.inj heq
      exact Nat.lt_succ_self _
  · rw [hops] at hi ⊢
    rw [hop]
    exact hmem.mpr (Or.inl (h.opKnown i hi))
  · rw [hserial]
    by_cases hjk : j = k
    · rw [hjk, hself, hid, hchanges, Function.update_self]
      exact hmem.mpr (Or.inr rfl)
    · rw [hother hjk] at hj ⊢
      rw [Function.update_of_ne hjk]
      exact hmem.mpr (Or.inl (h.txKnown j hj))
  · rcases hmem.mp hn with hold | heq
    · rcases hmem.mp hn' with hold' | heq
      · exact h.txUnique n id' m id'' m' hold hold'
      · obtain ⟨rfl, -, -⟩ := Entry.txRequested.inj heq
        exact absurd hold hnew
    · obtain ⟨rfl, rfl, rfl⟩ := Entry.txRequested.inj heq
      rcases hmem.mp hn' with hold' | heq'
      · exact absurd hold' hnew
      · obtain ⟨-, rfl, rfl⟩ := Entry.txRequested.inj heq'
        exact ⟨rfl, rfl⟩
  · rw [hserial] at heq
    by_cases hik : i = k <;> by_cases hjk : j = k
    · exact hik.trans hjk.symm
    · rw [hik, Function.update_self, Function.update_of_ne hjk] at heq
      rw [hother hjk] at hj
      exact absurd heq.symm (Nat.ne_of_lt (hbelow hj))
    · rw [hjk, Function.update_self, Function.update_of_ne hik] at heq
      rw [hother hik] at hi
      exact absurd heq (Nat.ne_of_lt (hbelow hi))
    · rw [Function.update_of_ne hik, Function.update_of_ne hjk] at heq
      rw [hother hik] at hi
      rw [hother hjk] at hj
      exact h.txApart i j hi hj heq
  · rw [htxns]
    refine h.distinct.update fun _ j _ hj => ?_
    rw [hid]
    exact habsent hj
  · by_cases hjk : j = k
    · rw [hjk, hself, hid]
      exact haccepts.named
    · rw [hother hjk] at hj ⊢
      exact h.named j hj

/-! ## Every step -/

theorem not_asks_txEntries (txs : List TxAction) : ∀ e ∈ txs.map w.txEntry, ¬ e.asks := by
  intro e he
  obtain ⟨action, -, rfl⟩ := List.mem_map.mp he
  cases action <;> exact id

/-- The entries of a turn of the actor. -/
theorem not_asks_round (event : ActorEvent) (ops : List OpAction) (txs : List TxAction) :
    ∀ e ∈ [.handled event] ++ (ops.map w.opEntry ++ txs.map w.txEntry), ¬ e.asks := by
  intro e he
  rcases List.mem_append.mp he with he | he
  · rw [List.mem_singleton.mp he]
    exact id
  · rcases List.mem_append.mp he with he | he
    · obtain ⟨action, -, rfl⟩ := List.mem_map.mp he
      cases action <;> exact id
    · exact not_asks_txEntries txs e he

theorem not_asks_aside {e : Entry} (he : e.aside) : ¬ e.asks := by
  cases e with
  | opRequested | txRequested => exact fun _ => he
  | _ => exact id

theorem Numbered.step (h : w.Numbered) {l : Act} (hstep : w.step l = some w') : w'.Numbered := by
  have hcalls := step_callsPlain h.calls hstep
  have hsame (hwork : w.SameWork w') : w'.actor.Sound ∧ w.actor.Tame w'.actor ∧
      ∀ k, (w'.store.tx k).active = true → (w.store.tx k).Same (w'.store.tx k) := by
    refine ⟨fun op hop => ?_, fun i hi => ?_, fun k hk => Untouched.same hwork.table hk⟩
    · rw [hwork.active] at hop
      rw [hwork.ops]
      exact h.sound op hop
    · rw [hwork.ops] at hi ⊢
      exact ⟨hi, rfl⟩
  cases step_cases h.calls hstep with
  | quiet same jobs events log =>
      obtain ⟨hsound, htame, htx⟩ := hsame same
      obtain ⟨entries, hlog, haside⟩ := log
      exact h.keep hcalls hsound htame htx same.opSerial same.txSerial same.clock
        ⟨entries, hlog, fun e he => not_asks_aside (haside e he)⟩
  | answered n job status same found jobs events log =>
      obtain ⟨hsound, htame, htx⟩ := hsame same
      refine h.keep hcalls hsound htame htx same.opSerial same.txSerial same.clock
        ⟨_, log, fun e he => ?_⟩
      rw [List.mem_singleton.mp he]
      exact id
  | requested id slot accepts store opSerial txSerial clock jobs log =>
      exact h.request hcalls accepts store opSerial txSerial clock log
  | saved id changes k accepts ops active events opSerial txSerial clock jobs log =>
      exact h.save hcalls accepts ops active opSerial txSerial clock log
  | moved r moves store actor opSerial txSerial clock jobs log =>
      refine h.keep hcalls (actor ▸ h.sound) (actor ▸ .refl _) (fun k hk => ?_) opSerial txSerial
        clock ⟨_, log, not_asks_txEntries r.2⟩
      rw [store] at hk ⊢
      exact (moves.slot hk).1
  | round acquired submitted armed event rest r events did moves store actor opSerial txSerial
      clock jobs log =>
      have hsound : ({ w.actor with events := rest } : Actor).Sound := h.sound
      have hfollows := Actor.follows_handle hsound acquired submitted event
      rw [← actor] at hfollows
      rw [List.append_assoc, List.append_assoc] at log
      refine h.keep hcalls hfollows.sound hfollows.tame (fun k hk => ?_) opSerial txSerial clock
        ⟨_, log, not_asks_round event _ r.2⟩
      rw [store] at hk ⊢
      exact (moves.slot hk).1

theorem Numbered.init : ({} : Worker).Numbered where
  calls _ h := by cases h
  sound _ h := by cases h
  opBelow _ _ h := by cases h
  txBelow _ _ _ h := by cases h
  opKnown _ h := by cases h
  txKnown _ h := by cases h
  opUnique _ _ _ h := by cases h
  txUnique _ _ _ _ _ h := by cases h
  txApart _ _ h := by cases h
  distinct _ _ h := by cases h
  named _ h := by cases h

theorem reachable_numbered (h : machine.Reachable w) : w.Numbered := by
  refine Machine.Reachable.invariant (I := Numbered) (fun w hw => ?_)
    (fun w l w' hw hstep => hw.step hstep) h
  obtain rfl : w = {} := hw
  exact .init

end Worker

end BleGateway.Settings
