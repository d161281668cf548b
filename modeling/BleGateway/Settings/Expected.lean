import BleGateway.Settings.RecordWrites
import BleGateway.Settings.CommandOrder

/-! # The revision that a reconciliation expects

A transaction whose commit may have been carried out waits for its device to come back with a
revision: the one that the device has acknowledged, or the next one after the base. The answer to a
command carries a number in any case, and zero stands for no revision. A timely answer that carries
none leaves the expectation to the base; a late one overwrites it with the zero.
-/

namespace BleGateway.Settings

/-! ## What is acknowledged -/

/-- The revision in an answer. -/
def revision? (result : DeviceCommandResult) : Option UInt32 :=
  if result.hasIntValue = true ∧ result.intValue.toUInt32 ≠ 0 then some result.intValue.toUInt32
  else none

/-- The commands whose answers are about the new revision. -/
def TxCommand.commits : TxCommand → Bool
  | .commit | .confirm => true
  | .begin | .set _ => false

/-- The revision that the device acknowledges to the transaction with the number. -/
def Entry.revision? (n : Nat) : Entry → Option UInt32
  | .handled (.txCommandComplete _ result origin) =>
      if origin.serial = n ∧ origin.command.commits = true ∧ result.status = .ok then
        Settings.revision? result
      else none
  | _ => none

/-- The revisions that the device has acknowledged to the transaction with the number. -/
def revisions (log : List Entry) (n : Nat) : List UInt32 := log.filterMap (Entry.revision? n)

theorem revisions_append (log more : List Entry) (n : Nat) :
    revisions (log ++ more) n = revisions log n ++ revisions more n := List.filterMap_append ..

/-- What a transaction may expect. -/
def Transaction.Expects (tx : Transaction) (acked : List UInt32) (rev : UInt32) : Prop :=
  rev ∈ acked ∨ rev = tx.expectedConfigRev + 1

/-! ## Steps that mark nothing -/

/-- The transaction goes on without a new revision, and does not begin to wait. -/
structure Transaction.Calm (tx tx' : Transaction) : Prop where
  active : tx.active = true
  deviceId : tx'.deviceId = tx.deviceId
  base : tx'.expectedConfigRev = tx.expectedConfigRev
  revision : tx'.newConfigRev = tx.newConfigRev
  waits : tx'.state = .waitingReboot → tx.state = .waitingReboot

namespace Transactions

/-- The records are the same, and what is active afterwards has gone on calmly. -/
structure Calm (s s' : Transactions) : Prop where
  protocol : s'.protocol = s.protocol
  calm : ∀ k, (s'.tx k).active = true → (s.tx k).Calm (s'.tx k)

variable {s s' s'' : Transactions} {k : Tx} {tx : Transaction} {r : TxStep}

theorem Calm.refl (s : Transactions) : s.Calm s :=
  ⟨rfl, fun _ hk => ⟨hk, rfl, rfl, rfl, id⟩⟩

theorem Calm.trans (h : s.Calm s') (h' : s'.Calm s'') : s.Calm s'' := by
  refine ⟨h'.protocol.trans h.protocol, fun k hk => ?_⟩
  have hlast := h'.calm k hk
  have hfirst := h.calm k hlast.active
  exact ⟨hfirst.active, hlast.deviceId.trans hfirst.deviceId, hlast.base.trans hfirst.base,
    hlast.revision.trans hfirst.revision, fun hwaits => hfirst.waits (hlast.waits hwaits)⟩

theorem Calm.next {f : Transactions → TxStep} (h : s.Calm r.1) (h' : r.1.Calm (f r.1).1) :
    s.Calm (r.next f).1 := h.trans h'

theorem calm_setTx (h : tx.active = true → (s.tx k).Calm tx) : s.Calm (s.setTx k tx) := by
  refine ⟨rfl, fun j hj => ?_⟩
  by_cases hjk : j = k
  · rw [hjk, setTx_self] at hj ⊢
    exact h hj
  · rw [setTx_of_ne s hjk] at hj ⊢
    exact (Calm.refl s).calm j hj

theorem transition_fst (s : Transactions) (k : Tx) (state : TxState) :
    (s.transition k state).1 = s.setTx k { s.tx k with state } := by
  show s.setTx k ((s.tx k).transitionTx state).1 = _
  rw [transitionTx_fst]

variable {state : TxState} {id : DeviceId} {result : DeviceCommandResult}

theorem calm_transition (hstate : state ≠ .waitingReboot) :
    s.Calm (s.transition k state).1 := by
  rw [transition_fst]
  apply calm_setTx
  intro hactive
  exact ⟨hactive, rfl, rfl, rfl, fun hwaits => absurd hwaits hstate⟩

/-- A result is stored, and the slot is free. -/
theorem calm_finish (id : DeviceId) (result : TxResult) (configRevision : UInt32)
    (hfree : tx.active = false) :
    s.Calm { s with table := (s.table.storeResult id result configRevision).setTx k tx } := by
  refine ⟨rfl, fun j hj => ?_⟩
  have hslot : Transactions.tx { s with
      table := (s.table.storeResult id result configRevision).setTx k tx } j =
        if j = k then tx else s.tx j := by
    show Function.update (TxTable.storeResult ..).txns k tx j = _
    rw [storeResult_txns, Function.update_apply]
    rfl
  rw [hslot] at hj ⊢
  split at hj
  · rw [hfree] at hj
    cases hj
  · rename_i hjk
    rw [if_neg hjk]
    exact (Calm.refl s).calm j hj

theorem calm_complete (k : Tx) (result : TxResult) (configRevision : UInt32) :
    s.Calm (s.complete k result configRevision).1 := by
  unfold complete TxTable.complete
  dsimp only
  rw [storeResult_setTx, setTx_setTx, transitionTx_fst]
  exact calm_finish _ result configRevision rfl

theorem calm_conclude (k : Tx) (hstate : state ≠ .waitingReboot) (result : TxResult) :
    s.Calm (s.conclude k state result).1 :=
  (calm_transition hstate).next (calm_complete k result 0)

/-- A write that leaves everything a calm step is about. -/
theorem calm_keep (hactive : tx.active = (s.tx k).active) (hid : tx.deviceId = (s.tx k).deviceId)
    (hbase : tx.expectedConfigRev = (s.tx k).expectedConfigRev)
    (hrevision : tx.newConfigRev = (s.tx k).newConfigRev) (hstate : tx.state = (s.tx k).state) :
    s.Calm (s.setTx k tx) := by
  apply calm_setTx
  intro hk
  exact ⟨hactive.symm.trans hk, hid, hbase, hrevision, fun hwaits => hstate.symm.trans hwaits⟩

theorem calm_releaseLease (k : Tx) : s.Calm (s.releaseLease k).1 := by
  rw [releaseLease]
  split
  · exact .refl s
  · exact calm_keep rfl rfl rfl rfl rfl

theorem calm_startTimer (k : Tx) (armed : Bool) : s.Calm (s.startTimer k armed) := by
  rw [startTimer]
  split
  · exact .refl s
  · exact calm_keep rfl rfl rfl rfl rfl

theorem calm_send (hstate : state ≠ .waitingReboot) (command : TxCommand) (submitted : Bool) :
    s.Calm (s.send k state command submitted).1 := by
  rw [send]
  apply (calm_transition hstate).next
  refine Calm.next (r := (_, _)) (.refl _) ?_
  split
  · exact .refl _
  · exact calm_conclude k (by simp) .internal

theorem calm_submitNext (k : Tx) (submitted : Bool) : s.Calm (s.submitNext k submitted).1 := by
  rw [submitNext]
  split
  · exact .refl s
  split
  · exact calm_conclude k (by simp) .internal
  split
  · exact calm_send (by simp) _ submitted
  · exact calm_send (by simp) _ submitted

theorem calm_actorBegin (id : DeviceId) (owner lease : UInt32) (submitted : Bool) :
    s.Calm (s.actorBegin id owner lease submitted).1 := by
  rw [actorBegin]
  split
  · exact .refl s
  · refine Calm.next (r := (_, _)) (calm_keep rfl rfl rfl rfl rfl) ?_
    apply (calm_transition (by simp)).next
    refine Calm.next (r := (_, _)) (.refl _) ?_
    split
    · exact .refl _
    · exact calm_complete _ .internal 0

theorem calm_actorAbort (id : DeviceId) : s.Calm (s.actorAbort id).1 := by
  rw [actorAbort]
  split
  · exact .refl s
  · exact Calm.next (r := (_, _)) (.refl s) (calm_complete _ .cancelled 0)

theorem calm_actorTimeout (id : DeviceId) : s.Calm (s.actorTimeout id).1 := by
  rw [actorTimeout]
  split
  · exact .refl s
  split
  · exact calm_actorAbort id
  · exact calm_complete _ .outcomeUnknown 0

theorem calm_reconcileEnd (res : Resolution) : s.Calm (s.reconcileEnd res).1 :=
  calm_finish _ res.outcome res.configRevision rfl

/-! ## The expected revision -/

/-- What the records and the transactions keep when `acked` is what the devices have
acknowledged. -/
structure Ledger (s : Transactions) (acked : Tx → List UInt32) : Prop where
  records : s.protocol.Distinct
  slots : Directory.Distinct Transaction.active Transaction.deviceId s.table.txns
  named : ∀ k, (s.tx k).active = true → (s.tx k).deviceId.text ≠ []
  revision : ∀ k, (s.tx k).active = true →
    (s.tx k).newConfigRev = 0 ∨ (s.tx k).newConfigRev ∈ acked k
  expected : ∀ k i, (s.tx k).active = true → (s.tx k).state = .waitingReboot →
    (s.protocol.records i).used = true → (s.protocol.records i).deviceId = (s.tx k).deviceId →
    (s.protocol.records i).pendingReconciliation = true →
    (s.tx k).Expects (acked k) (s.protocol.records i).reconciliationExpectedRev

variable {acked acked' : Tx → List UInt32} {i : Rx}

theorem Ledger.mono (h : s.Ledger acked)
    (hmore : ∀ k, (s.tx k).active = true → acked k ⊆ acked' k) : s.Ledger acked' where
  records := h.records
  slots := h.slots
  named := h.named
  revision k hk := (h.revision k hk).imp_right fun hmem => hmore k hk hmem
  expected k i hk hstate hused hid hpending :=
    (h.expected k i hk hstate hused hid hpending).imp_left fun hmem => hmore k hk hmem

theorem Ledger.calm (h : s.Ledger acked) (hcalm : s.Calm s') : s'.Ledger acked := by
  refine
    { records := ?_
      slots := fun a b ha hb heq => ?_
      named := fun k hk => ?_
      revision := fun k hk => ?_
      expected := fun k i hk hstate hused hid hpending => ?_ }
  · rw [hcalm.protocol]
    exact h.records
  · have ha' := hcalm.calm a ha
    have hb' := hcalm.calm b hb
    apply h.slots a b ha'.active hb'.active
    calc (s.tx a).deviceId
        = (s'.tx a).deviceId := ha'.deviceId.symm
      _ = (s'.tx b).deviceId := heq
      _ = (s.tx b).deviceId := hb'.deviceId
  · rw [(hcalm.calm k hk).deviceId]
    exact h.named k (hcalm.calm k hk).active
  · rw [(hcalm.calm k hk).revision]
    exact h.revision k (hcalm.calm k hk).active
  · have hkept := hcalm.calm k hk
    rw [hcalm.protocol] at hused hid hpending ⊢
    rw [Transaction.Expects, hkept.base]
    exact h.expected k i hkept.active (hkept.waits hstate) hused (hid.trans hkept.deviceId) hpending

/-- The record of a transaction is written in place. -/
theorem Ledger.record (h : s.Ledger acked) (hk : (s.tx k).active = true)
    (hi : s.protocol.findRecord (s.tx k).deviceId = some i) {r : DeviceRecord}
    (hid : r.deviceId = (s.tx k).deviceId)
    (hrev : r.pendingReconciliation = true →
      (s.tx k).Expects (acked k) r.reconciliationExpectedRev) :
    Ledger { s with protocol := s.protocol.setRecord i r } acked where
  records := Protocol.Distinct.setRecord hi hid h.records
  slots := h.slots
  named := h.named
  revision := h.revision
  expected j m hj hstate hused hkey hpending := by
    dsimp only at hused hkey hpending ⊢
    by_cases hm : m = i
    · rw [hm, Protocol.setRecord_self] at hkey hpending ⊢
      -- no other transaction is on this device
      obtain rfl := h.slots k j hk hj (hid.symm.trans hkey)
      exact hrev hpending
    · rw [Protocol.setRecord_of_ne hm] at hused hkey hpending ⊢
      exact h.expected j m hj hstate hused hkey hpending

/-- A transaction is changed in place. -/
theorem Ledger.setTx (h : s.Ledger acked) (hk : (s.tx k).active = true)
    (hid : tx.deviceId = (s.tx k).deviceId)
    (hrevision : tx.newConfigRev = 0 ∨ tx.newConfigRev ∈ acked k)
    (hexpected : tx.state = .waitingReboot → ∀ i,
      s.protocol.findRecord (s.tx k).deviceId = some i →
      (s.protocol.records i).pendingReconciliation = true →
      tx.Expects (acked k) (s.protocol.records i).reconciliationExpectedRev) :
    Ledger (s.setTx k tx) acked := by
  have hother {j : Tx} (hj : j ≠ k) : (s.setTx k tx).tx j = s.tx j := setTx_of_ne s hj tx
  refine
    { records := h.records
      slots := Directory.Distinct.update_same h.slots (fun _ => hk) hid
      named := fun j hj => ?_
      revision := fun j hj => ?_
      expected := fun j i hj hstate hused hkey hpending => ?_ }
  · by_cases hjk : j = k
    · rw [hjk, setTx_self, hid]
      exact h.named k hk
    · rw [hother hjk] at hj ⊢
      exact h.named j hj
  · by_cases hjk : j = k
    · rw [hjk, setTx_self]
      exact hrevision
    · rw [hother hjk] at hj ⊢
      exact h.revision j hj
  · by_cases hjk : j = k
    · rw [hjk, setTx_self] at hstate hkey ⊢
      refine hexpected hstate i ?_ hpending
      rw [Protocol.findRecord_eq (h.named k hk)]
      exact h.records.lookup_eq_some.mpr ⟨hused, hkey.trans hid⟩
    · rw [hother hjk] at hj hstate hkey ⊢
      exact h.expected j i hj hstate hused hkey hpending

theorem active_of_find (hfind : s.table.find id = some k) :
    (s.tx k).active = true ∧ (s.tx k).deviceId = id := by
  rw [TxTable.find] at hfind
  split at hfind
  · cases hfind
  · exact Directory.lookup_spec hfind

/-! ## What the actor does -/

/-- `mark_reconciliation_pending` takes zero for no revision. -/
theorem Ledger.markPending (h : s.Ledger acked) (k : Tx) (armed : Bool) :
    (s.markPending k armed).1.Ledger acked := by
  rw [Transactions.markPending]
  dsimp only
  split
  · exact h
  · rename_i hactive
    have hk : (s.tx k).active = true := by simpa using hactive
    generalize hrev : (if (s.tx k).newConfigRev ≠ 0 then (s.tx k).newConfigRev
      else (s.tx k).expectedConfigRev + 1) = rev
    have hgood : (s.tx k).Expects (acked k) rev := by
      by_cases hzero : (s.tx k).newConfigRev = 0
      · rw [if_neg (not_not_intro hzero)] at hrev
        exact Or.inr hrev.symm
      · rw [if_pos hzero] at hrev
        exact Or.inl (hrev ▸ (h.revision k hk).resolve_left hzero)
    show Ledger ((Transactions.transition { s with
      protocol := s.protocol.setReconciliation (s.tx k).deviceId true rev
        (s.tx k).expectedConfigRev } k .waitingReboot).1.startTimer k armed) acked
    refine Ledger.calm ?_ (calm_startTimer k armed)
    rw [transition_fst, Protocol.setReconciliation]
    cases hi : s.protocol.findRecord (s.tx k).deviceId with
    | none =>
        refine h.setTx hk rfl (h.revision k hk) fun _ i hfound => ?_
        rw [hi] at hfound
        cases hfound
    | some i =>
        obtain ⟨-, hused, hkey⟩ := Protocol.findRecord_spec hi
        refine Ledger.setTx (h.record hk hi hkey fun _ => hgood) hk rfl (h.revision k hk)
          fun _ j hfound _ => ?_
        have hsame := Protocol.findRecord_setRecord hi (r := { s.protocol.records i with
          pendingReconciliation := true
          reconciliationExpectedRev := rev
          reconciliationOldRev := (s.tx k).expectedConfigRev }) hkey hused (s.tx k).deviceId
        obtain rfl := Option.some.inj (hi.symm.trans (hsame.symm.trans hfound))
        dsimp only
        rw [Protocol.setRecord_self]
        exact hgood

/-- A late answer with a revision of the transaction, or with zero for one that no record
expects. -/
theorem Ledger.lateAnswer (h : s.Ledger acked) (hk : (s.tx k).active = true)
    (hgood : result.status = .ok ∧ result.hasIntValue = true →
      result.intValue.toUInt32 ∈ acked k ∨ result.intValue.toUInt32 = 0 ∧
        ∀ i, s.protocol.findRecord (s.tx k).deviceId = some i →
          (s.protocol.records i).pendingReconciliation = false) :
    (s.lateAnswer k result).Ledger acked := by
  rw [Transactions.lateAnswer]
  split
  · rename_i hok
    have hexpects (i : Rx) (hi : s.protocol.findRecord (s.tx k).deviceId = some i)
        (hpending : (s.protocol.records i).pendingReconciliation = true) :
        (s.tx k).Expects (acked k) result.intValue.toUInt32 := by
      rcases hgood hok with hmem | ⟨-, hnone⟩
      · exact Or.inl hmem
      · rw [hnone i hi] at hpending
        cases hpending
    have hrevision := (hgood hok).symm.imp_left And.left
    dsimp only
    cases hi : s.protocol.findRecord (s.tx k).deviceId with
    | none =>
        refine h.setTx hk rfl hrevision fun _ i hfound => ?_
        rw [hi] at hfound
        cases hfound
    | some i =>
        obtain ⟨-, hused, hkey⟩ := Protocol.findRecord_spec hi
        refine Ledger.setTx (h.record hk hi hkey (hexpects i hi)) hk rfl hrevision
          fun _ j hfound hpending => ?_
        have hsame := Protocol.findRecord_setRecord hi (r := { s.protocol.records i with
          reconciliationExpectedRev := result.intValue.toUInt32 }) hkey hused (s.tx k).deviceId
        obtain rfl := Option.some.inj (hi.symm.trans (hsame.symm.trans hfound))
        dsimp only at hpending ⊢
        rw [Protocol.setRecord_self] at hpending ⊢
        exact hexpects i hi hpending
  · exact h

theorem Ledger.acknowledged (h : s.Ledger acked) (hk : (s.tx k).active = true)
    (submitted armed : Bool)
    (hgood : (s.tx k).state = .commitSent → result.hasIntValue = true →
      result.intValue.toUInt32 = 0 ∨ result.intValue.toUInt32 ∈ acked k) :
    (s.acknowledged k result submitted armed).1.Ledger acked := by
  rw [Transactions.acknowledged]
  cases hstate : (s.tx k).state with
  | beginSent => exact h.calm (calm_submitNext k submitted)
  | setSent =>
      apply h.calm
      exact Calm.next (r := (_, _)) (calm_keep rfl rfl rfl rfl hstate.symm)
        (calm_submitNext k submitted)
  | commitSent =>
      refine Ledger.calm ?_ (calm_send (by simp) .confirm submitted)
      refine h.setTx hk rfl ?_ fun hwaits => ?_
      · dsimp only [newRevision]
        split
        · rename_i hint
          exact hgood hstate hint
        · exact h.revision k hk
      · cases hwaits
  | confirmSent => exact h.markPending k armed
  | idle | prevalidating | waitingReboot | verifying | succeeded | failed | conflict | cancelled
  | outcomeUnknown => exact h

theorem Ledger.ambiguous (h : s.Ledger acked) (k : Tx) (result : TxResult) (armed : Bool) :
    (s.ambiguous k result armed).1.Ledger acked := by
  rw [Transactions.ambiguous]
  split
  · exact (h.markPending k armed).calm (calm_releaseLease k)
  · exact h.calm (calm_conclude k (by simp) result)

/-- The answer does nothing wrong: a revision has been acknowledged to the transaction, and where
there is none the device has no reconciliation pending. -/
structure Welcome (s : Transactions) (acked : Tx → List UInt32) (id : DeviceId)
    (result : DeviceCommandResult) : Prop where
  revision : ∀ k, s.table.find id = some k → result.status = .ok → result.hasIntValue = true →
    result.intValue.toUInt32 ≠ 0 → (s.tx k).state = .commitSent ∨ (s.tx k).state = .waitingReboot →
    result.intValue.toUInt32 ∈ acked k
  zero : ∀ k, s.table.find id = some k → result.status = .ok → result.hasIntValue = true →
    result.intValue.toUInt32 = 0 → (s.tx k).state = .waitingReboot →
    ∀ i, s.protocol.findRecord id = some i → (s.protocol.records i).pendingReconciliation = false

/-- **An answer** keeps what is expected. -/
theorem Ledger.commandComplete (h : s.Ledger acked) (hwelcome : s.Welcome acked id result)
    (submitted armed : Bool) :
    (s.commandComplete id result submitted armed).1.Ledger acked := by
  rw [Transactions.commandComplete]
  cases hfind : s.table.find id with
  | none => exact h
  | some k =>
      obtain ⟨hk, hid⟩ := active_of_find hfind
      dsimp only
      split
      · rename_i hwaits
        refine h.lateAnswer hk fun hboth => ?_
        obtain ⟨hok, hint⟩ := hboth
        by_cases hzero : result.intValue.toUInt32 = 0
        · rw [hid]
          exact Or.inr ⟨hzero, hwelcome.zero k hfind hok hint hzero hwaits⟩
        · exact Or.inl (hwelcome.revision k hfind hok hint hzero (Or.inr hwaits))
      · cases hok : result.status with
        | ok =>
            refine h.acknowledged hk submitted armed fun hcommit hint => ?_
            by_cases hzero : result.intValue.toUInt32 = 0
            · exact Or.inl hzero
            · exact Or.inr (hwelcome.revision k hfind hok hint hzero (Or.inl hcommit))
        | rejected =>
            dsimp only
            split
            · exact h.calm (calm_conclude k (by simp) _)
            · exact h.calm (calm_conclude k (by simp) _)
        | timeout => exact h.ambiguous k .timeout armed
        | notConnected => exact h.ambiguous k .disconnected armed
        | busy => exact h.calm (calm_conclude k (by simp) _)
        | cancelled => exact h.calm (calm_conclude k (by simp) _)
        | _ => exact h.calm (calm_conclude k (by simp) _)

theorem Ledger.actorDisconnect (h : s.Ledger acked) (id : DeviceId) (armed : Bool) :
    (s.actorDisconnect id armed).1.Ledger acked := by
  rw [Transactions.actorDisconnect]
  split
  · exact h.calm (calm_actorAbort id)
  split
  · exact h.calm (calm_actorAbort id)
  · rename_i k hfind hkept
    split
    · exact h.calm (calm_releaseLease k)
    · exact (h.markPending k armed).calm (calm_releaseLease k)

/-! ## What the streams, the calls and a save do -/

/-- The reconciliation begins: nothing is pending any more. -/
theorem Ledger.reconcileBegin (h : s.Ledger acked) (id : DeviceId) (locked : Bool) :
    (s.reconcileBegin id locked).1.Ledger acked := by
  rw [Transactions.reconcileBegin]
  split
  · exact h
  split
  · exact h
  rename_i i hi
  dsimp only
  split
  · exact h
  obtain ⟨-, -, hkey⟩ := Protocol.findRecord_spec hi
  have hsettled : Ledger { s with
      protocol := s.protocol.setRecord i { s.protocol.records i with
        pendingReconciliation := false } } acked := by
    refine
      { records := Protocol.Distinct.setRecord hi hkey h.records
        slots := h.slots
        named := h.named
        revision := h.revision
        expected := fun j m hj hstate hused hid hpending => ?_ }
    dsimp only at hused hid hpending ⊢
    by_cases hm : m = i
    · rw [hm, Protocol.setRecord_self] at hpending
      cases hpending
    · rw [Protocol.setRecord_of_ne hm] at hused hid hpending ⊢
      exact h.expected j m hj hstate hused hid hpending
  split
  · exact hsettled
  · apply hsettled.calm
    split
    · apply calm_setTx
      intro hk
      exact ⟨hk, rfl, rfl, rfl, fun hwaits => by cases hwaits⟩
    · exact calm_keep rfl rfl rfl rfl rfl

/-- The streams write no marks. -/
theorem Ledger.touched (h : s.Ledger acked) {p : Protocol} (ht : s.protocol.Touched p) :
    Ledger { s with protocol := p } acked where
  records := ht.distinct h.records
  slots := h.slots
  named := h.named
  revision := h.revision
  expected k i hk hstate hused hid hpending := by
    dsimp only at hused hid hpending ⊢
    rcases ht.marks i with hmarks | ⟨-, hnone⟩
    · obtain ⟨hu, hmarks⟩ := Prod.mk.inj hmarks
      obtain ⟨hkey, hmarks⟩ := Prod.mk.inj hmarks
      obtain ⟨hpending', hrev⟩ := Prod.mk.inj hmarks
      rw [hrev]
      exact h.expected k i hk hstate (hu.symm.trans hused) (hkey.symm.trans hid)
        (hpending'.symm.trans hpending)
    · rw [hnone] at hpending
      cases hpending

theorem Ledger.purge (h : s.Ledger acked) (id : DeviceId) :
    Ledger { s with protocol := s.protocol.purge id } acked := by
  rw [Protocol.purge]
  split
  · rename_i i hi
    refine
      { records := (Protocol.recordOf_clear h.records hi).1
        slots := h.slots
        named := h.named
        revision := h.revision
        expected := fun k m hk hstate hused hid hpending => ?_ }
    dsimp only at hused hid hpending ⊢
    by_cases hm : m = i
    · rw [hm, Protocol.setRecord_self] at hused
      cases hused
    · rw [Protocol.setRecord_of_ne hm] at hused hid hpending ⊢
      exact h.expected k m hk hstate hused hid hpending
  · exact h

end Transactions

/-- A transaction that is new has no revision and waits for nothing. -/
theorem TxTable.save_fresh (t : TxTable) (p : Protocol) (id : DeviceId)
    (changes : List ChangeRequest) (expectedConfigRev : UInt32) (completion context : Ptr)
    (alloc posted : Bool) (k : Tx) :
    (t.save p id changes expectedConfigRev completion context alloc posted).table.txns k =
        t.txns k ∨
      ((t.save p id changes expectedConfigRev completion context alloc posted).table.txns
          k).newConfigRev = 0 ∧
        ((t.save p id changes expectedConfigRev completion context alloc posted).table.txns
          k).state ≠ .waitingReboot := by
  have hwrite (j : Tx) (tx tx' : Transaction) (hrev : tx'.newConfigRev = 0)
      (hstate : tx'.state ≠ .waitingReboot) :
      Function.update (Function.update t.txns j tx) j tx' k = t.txns k ∨
        (Function.update (Function.update t.txns j tx) j tx' k).newConfigRev = 0 ∧
          (Function.update (Function.update t.txns j tx) j tx' k).state ≠ .waitingReboot := by
    rw [Function.update_idem]
    by_cases hkj : k = j
    · rw [hkj, Function.update_self]
      exact Or.inr ⟨hrev, hstate⟩
    · rw [Function.update_of_ne hkj]
      exact Or.inl rfl
  rw [save]
  split
  · exact Or.inl rfl
  split
  · exact Or.inl rfl
  split
  · exact Or.inl rfl
  split
  · exact Or.inl rfl
  split
  · exact Or.inl rfl
  split
  · exact Or.inl rfl
  rename_i t' j halloc
  obtain ⟨j', -, heq⟩ := Option.map_eq_some_iff.mp halloc
  obtain ⟨rfl, rfl⟩ := Prod.mk.inj heq
  dsimp only
  split
  · exact hwrite j' _ _ rfl (by simp [Transaction.free])
  split
  · exact hwrite j' _ _ rfl (by simp [Transaction.free, Transaction.transitionTx])
  split
  · exact hwrite j' _ _ rfl (by simp [Transaction.free, Transaction.transitionTx])
  · exact hwrite j' _ _ rfl (by simp [Transaction.transitionTx])

namespace Worker

variable {w w' : Worker} {l : Act} {k : Tx}

/-- The revisions that the device has acknowledged to each transaction. -/
def acked (w : Worker) (k : Tx) : List UInt32 := revisions w.log (w.txSerial k)

/-- The log only grows. -/
theorem Stepped.log_prefix (h : w.Stepped l w') : w.log <+: w'.log := by
  cases h with
  | quiet same jobs events log =>
      obtain ⟨entries, hlog, -⟩ := log
      exact ⟨entries, hlog.symm⟩
  | answered n job status same found jobs events log => exact ⟨_, log.symm⟩
  | requested id slot accepts store opSerial txSerial clock jobs log => exact ⟨_, log.symm⟩
  | saved id changes k accepts ops active events opSerial txSerial clock jobs log =>
      exact ⟨_, log.symm⟩
  | moved r moves store actor opSerial txSerial clock jobs log => exact ⟨_, log.symm⟩
  | round acquired submitted armed event rest r events did moves store actor opSerial txSerial
      clock jobs log =>
      rw [List.append_assoc, List.append_assoc] at log
      exact ⟨_, log.symm⟩

/-- A transaction keeps its number. -/
theorem Stepped.serial_kept (h : w.Stepped l w') (hk : (w.store.tx k).active = true) :
    w'.txSerial k = w.txSerial k := by
  cases h with
  | quiet same | answered _ _ _ same => exact congrFun same.txSerial k
  | requested _ _ _ _ _ txSerial | moved _ _ _ _ _ txSerial => exact congrFun txSerial k
  | saved id changes j accepts ops active events opSerial txSerial clock jobs log =>
      have hfree := Directory.vacant_spec accepts.free
      have hne : k ≠ j := by
        rintro rfl
        exact absurd (hk.symm.trans hfree) (by simp)
      rw [txSerial, Function.update_of_ne hne]
  | round acquired submitted armed event rest r events did moves store actor opSerial txSerial
      clock jobs log => exact congrFun txSerial k

theorem Stepped.acked_subset (h : w.Stepped l w') (hk : (w.store.tx k).active = true) :
    w.acked k ⊆ w'.acked k := by
  obtain ⟨entries, hlog⟩ := h.log_prefix
  rw [acked, acked, h.serial_kept hk, ← hlog, revisions_append]
  exact List.subset_append_left ..

/-- An event that brings a transaction a revision is an answer to its own commit, and one that
brings a zero finds no reconciliation pending. -/
def Vouched (w : Worker) : ActorEvent → Prop
  | .txCommandComplete id result origin => ∀ k, w.store.table.find id = some k →
      result.status = .ok → result.hasIntValue = true →
        (result.intValue.toUInt32 ≠ 0 →
          (w.store.tx k).state = .commitSent ∨ (w.store.tx k).state = .waitingReboot →
            origin.serial = w.txSerial k ∧ origin.command.commits = true) ∧
        (result.intValue.toUInt32 = 0 → (w.store.tx k).state = .waitingReboot →
          ∀ i, w.store.protocol.findRecord id = some i →
            (w.store.protocol.records i).pendingReconciliation = false)
  | _ => True

/-- The actor takes only such events. -/
def Carries (w : Worker) : Act → Prop
  | .actor .. => ∀ event ∈ w.actor.events.head?, w.Vouched event
  | _ => True

instance (w : Worker) (event : ActorEvent) : Decidable (w.Vouched event) := by
  apply ActorEvent.casesOn (motive := fun event => Decidable (w.Vouched event)) event <;>
    intros <;> unfold Vouched <;> infer_instance

instance (w : Worker) (l : Act) : Decidable (w.Carries l) := by
  apply Act.casesOn (motive := fun l => Decidable (w.Carries l)) l <;>
    intros <;> unfold Carries <;> infer_instance

theorem head_vouched {acquired submitted armed : Bool} {event : ActorEvent} {rest : List ActorEvent}
    (hok : w.Carries (.actor acquired submitted armed)) (hevents : w.actor.events = event :: rest) :
    w.Vouched event := by
  refine hok event ?_
  rw [hevents]
  exact rfl

/-! ## Every step -/

/-- What the actor does for the transactions keeps what they expect, once the answer is in the
log. -/
theorem ledger_txRound {acked : Tx → List UInt32} (h : w.store.Ledger acked) {event : ActorEvent}
    (hvouched : w.Vouched event) (acquired submitted armed : Bool)
    (hacked : ∀ id result origin, event = .txCommandComplete id result origin →
      ∀ k, ∀ rev ∈ (Entry.handled event).revision? (w.txSerial k), rev ∈ acked k) :
    (w.txRound acquired submitted armed event).1.Ledger acked := by
  cases event with
  | txLeaseResult generation owner ok lease origin =>
      rw [txRound]
      split
      · split
        · exact h.calm (Transactions.calm_actorBegin ..)
        · exact h.calm (Transactions.calm_actorAbort _)
      · exact h
  | txCommandComplete id result origin =>
      apply h.commandComplete
      constructor
      · intro k hfind hok hint hsome hstate
        obtain ⟨hserial, hcommits⟩ := (hvouched k hfind hok hint).1 hsome hstate
        apply hacked id result origin rfl k
        rw [Entry.revision?, if_pos ⟨hserial, hcommits, hok⟩, revision?, if_pos ⟨hint, hsome⟩]
        exact rfl
      · intro k hfind hok hint
        exact (hvouched k hfind hok hint).2
  | transactionStart id generation owner origin =>
      rw [txRound]
      cases acquired with
      | true => exact h
      | false => exact h.calm (Transactions.calm_actorAbort id)
  | transactionAbort id => exact h.calm (Transactions.calm_actorAbort id)
  | transactionTimeout id => exact h.calm (Transactions.calm_actorTimeout id)
  | disconnected id => exact h.actorDisconnect id armed
  | cancelDevice id => exact h.calm (Transactions.calm_actorAbort id)
  | forgetDevice id => exact h.calm (Transactions.calm_actorAbort id)
  | startOperation | leaseResult cookie ok lease origin | commandComplete cookie status origin
  | valuesStreamComplete id success | retryTimer cookie origin => exact h

theorem request_store (id : DeviceId) (r : Except EspErr Actor) :
    (w.request id r).store = w.store := by
  unfold request
  cases r with
  | error e => rfl
  | ok a => cases w.actor.freeOp <;> rfl

theorem ledger_perform {acked : Tx → List UInt32} (h : w.store.Ledger acked) (locked : Bool)
    (rest : Rest) : (w.perform locked rest).1.store.Ledger acked := by
  cases rest with
  | post | cancel => exact h
  | txCancel id =>
      rw [perform]
      split
      · exact h
      · exact h
  | purge id =>
      rw [perform]
      split
      · exact h.purge id
      · exact h
  | describe id | get id =>
      show (w.request id _).store.Ledger acked
      rw [request_store]
      exact h
  | reconcile id => exact h.reconcileBegin id locked
  | resolve res =>
      rw [perform, withTxs_eq]
      exact h.calm (Transactions.calm_reconcileEnd res)

variable {id : DeviceId}

/-- A save keeps what the transactions expect, and expects nothing itself. -/
theorem ledger_save {acked : Tx → List UInt32} {changes : List ChangeRequest}
    {expectedConfigRev : UInt32} {completion context : Ptr} {alloc : Bool}
    (hn : (w.save id changes expectedConfigRev completion context alloc).Numbered)
    (h : w.store.Ledger acked) :
    (w.save id changes expectedConfigRev completion context alloc).store.Ledger acked := by
  have hstore : (w.save id changes expectedConfigRev completion context alloc).store =
      { w.store with
      table := (w.store.table.save w.store.protocol id changes expectedConfigRev completion context
        alloc (decide (w.actor.events.length < DS_EVENT_QUEUE_LEN))).table } := by
    rw [save]
    dsimp only
    split
    · rfl
    · rfl
  have hfresh := w.store.table.save_fresh w.store.protocol id changes expectedConfigRev completion
    context alloc (decide (w.actor.events.length < DS_EVENT_QUEUE_LEN))
  obtain ⟨-, -, -, -, -, -, -, -, -, hslots, hnamed⟩ := hn
  rw [hstore] at hslots hnamed ⊢
  refine
    { records := h.records
      slots := hslots
      named := hnamed
      revision := fun k hk => ?_
      expected := fun k i hk hstate hused hid hpending => ?_ }
  · rcases hfresh k with hsame | hnew
    · rw [Transactions.tx, hsame] at hk ⊢
      exact h.revision k hk
    · exact Or.inl hnew.1
  · rcases hfresh k with hsame | hnew
    · rw [Transactions.tx, hsame] at hk hstate hid ⊢
      exact h.expected k i hk hstate hused hid hpending
    · exact absurd hstate hnew.2

theorem ledger_step (hn : w.Numbered) (h : w.store.Ledger w.acked) (hok : w.Carries l)
    (hstep : w.step l = some w') : w'.store.Ledger w'.acked := by
  have hstepped := step_cases hn.calls hstep
  have hn' : w'.Numbered := hn.step hstep
  -- what has been acknowledged so far stays so
  have h : w.store.Ledger w'.acked := h.mono fun k hk => hstepped.acked_subset hk
  cases l with
  | notify id msg alloc locked =>
      cases hstep
      exact h.touched onNotify_touched
  | disconnect | forget =>
      rw [step] at hstep
      split at hstep <;> cases hstep
      · exact h
      · exact h.touched onDisconnect_touched
  | capability id supported schemaRevision locked =>
      cases hstep
      exact h.touched onCapability_touched
  | describe id =>
      cases hstep
      exact ledger_perform h true (.describe id)
  | get id =>
      cases hstep
      exact ledger_perform h true (.get id)
  | cancel id =>
      cases hstep
      exact ledger_perform h true (.cancel id)
  | save id changes expectedConfigRev completion context alloc =>
      cases hstep
      exact ledger_save hn' h
  | txCancel id =>
      cases hstep
      exact ledger_perform h true (.txCancel id)
  | reconcile id =>
      cases hstep
      exact h
  | proceed call locked =>
      obtain ⟨rest, more, -, rfl⟩ := step_proceed hstep
      exact ledger_perform h locked rest
  | leaseDone n ok lease =>
      obtain ⟨request, -, rfl⟩ := Option.map_eq_some_iff.mp hstep
      cases request with
      | op | tx => exact h
  | jobDone n result =>
      obtain ⟨job, -, rfl⟩ := Option.map_eq_some_iff.mp hstep
      cases job with
      | op | tx => exact h
  | retryTimer =>
      obtain ⟨serial, -, rfl⟩ := Option.map_eq_some_iff.mp hstep
      exact h
  | reconTimer slot =>
      obtain ⟨-, ⟨⟩⟩ := Option.ite_none_right_eq_some.mp hstep
      by_cases hactive : (w.store.tx slot).active = true
      · rw [if_pos hactive] at h ⊢
        exact h
      · rw [if_neg hactive] at h ⊢
        exact h
  | actor acquired submitted armed =>
      obtain ⟨event, rest, hevents, rfl⟩ := step_actor hstep
      obtain ⟨retry, heq⟩ := handleEvent_spec
        { w with actor := { w.actor with events := rest } } acquired submitted armed event
      have hvouched : w.Vouched event := head_vouched hok hevents
      rw [heq] at h ⊢
      refine ledger_txRound (w := { w with actor := { w.actor with events := rest } }) h
        hvouched acquired submitted armed fun id result origin hevent k rev hrev => ?_
      obtain rfl := hevent
      show rev ∈ revisions (_ ++ [_] ++ _ ++ _) (w.txSerial k)
      rw [revisions_append, revisions_append, revisions_append]
      refine List.mem_append_left _ (List.mem_append_left _ (List.mem_append_right _ ?_))
      exact List.mem_filterMap.mpr ⟨_, List.mem_singleton_self _, hrev⟩

/-! ## Runs -/

/-- Every transaction that waits for a pending reconciliation expects a revision that the device has
acknowledged to it, or the one after its base. -/
def Expecting (w : Worker) : Prop :=
  ∀ k i, (w.store.tx k).active = true → (w.store.tx k).state = .waitingReboot →
    w.store.protocol.findRecord (w.store.tx k).deviceId = some i →
    (w.store.protocol.records i).pendingReconciliation = true →
    (w.store.tx k).Expects (w.acked k) (w.store.protocol.records i).reconciliationExpectedRev

theorem ledger_init : ({} : Worker).store.Ledger ({} : Worker).acked where
  records i j hi := by cases hi
  slots i j hi := by cases hi
  named k hk := by cases hk
  revision k hk := by cases hk
  expected k i hk := by cases hk

theorem ledger_of_reachable (h : machine.ReachableWhen Carries w) :
    w.Numbered ∧ w.store.Ledger w.acked := by
  refine Machine.ReachableWhen.invariant (I := fun w => w.Numbered ∧ w.store.Ledger w.acked)
    (fun w hw => ?_) (fun w l w' hI hok hstep => ?_) h
  · rw [hw]
    exact ⟨.init, ledger_init⟩
  · exact ⟨hI.1.step hstep, ledger_step hI.1 hI.2 hok hstep⟩

/-- **The expected revision.** In every run in which the answers to transactions that have committed
are their own, and none that comes without a revision finds its reconciliation pending, whoever
waits expects what the device has acknowledged or the revision after the base; and an answer without
a revision leaves the records and the transactions alone while a reconciliation is pending. -/
theorem expected_revision_kept (h : machine.ReachableWhen Carries w) :
    w.Expecting ∧ ∀ (acquired submitted armed : Bool) (id : DeviceId) (result : DeviceCommandResult)
      (origin : TxJob) (k : Tx) (i : Rx) (w' : Worker),
        w.Carries (.actor acquired submitted armed) →
        w.actor.events.head? = some (.txCommandComplete id result origin) →
        w.store.table.find id = some k → (w.store.tx k).state = .waitingReboot →
        w.store.protocol.findRecord id = some i →
        (w.store.protocol.records i).pendingReconciliation = true → revision? result = none →
        w.step (.actor acquired submitted armed) = some w' → w'.store = w.store := by
  have hledger := (ledger_of_reachable h).2
  constructor
  · intro k i hk hstate hi hpending
    obtain ⟨-, hused, hkey⟩ := Protocol.findRecord_spec hi
    exact hledger.expected k i hk hstate hused hkey hpending
  · intro acquired submitted armed id result origin k i w' hok hhead hfind hwaits hi hpending hnone
      hstep
    obtain ⟨event, rest, hevents, rfl⟩ := step_actor hstep
    obtain rfl : event = .txCommandComplete id result origin := by
      rw [hevents] at hhead
      exact Option.some.inj hhead
    have hvouched := head_vouched hok hevents k hfind
    obtain ⟨retry, heq⟩ := handleEvent_spec
      { w with actor := { w.actor with events := rest } } acquired submitted armed
        (.txCommandComplete id result origin)
    rw [heq]
    show (w.store.commandComplete id result submitted armed).1 = w.store
    rw [Transactions.commandComplete, hfind]
    dsimp only
    rw [if_pos hwaits, Transactions.lateAnswer]
    refine if_neg fun hlate => ?_
    by_cases hzero : result.intValue.toUInt32 = 0
    · have hquiet := (hvouched hlate.1 hlate.2).2 hzero hwaits i hi
      rw [hquiet] at hpending
      cases hpending
    · rw [revision?, if_pos ⟨hlate.2, hzero⟩] at hnone
      cases hnone

/-- Every answer carries a number. -/
def answer (rev : Int32) : List Act :=
  [.jobDone 0 { hasIntValue := true, intValue := rev }, .actor true true true]

/-- A transaction on revision seven, up to its commit. -/
def commitRun : List Act :=
  describeOne lamp ++ [.save lamp [turnOn] 7 0 0 true, .actor true true true, .leaseDone 0 true 1,
    .actor true true true] ++ answer 0 ++ answer 0

/-- The lamp is gone before it has answered the command that it has got last. -/
def goneRun : List Act :=
  [.disconnect lamp true, .proceed 3 true, .actor true true true]

/-- A transaction that waits for its device expects the revision on a pending record. -/
def expects (w : Worker) (rev : UInt32) : Bool :=
  decide (∃ k i, (w.store.tx k).active = true ∧ (w.store.tx k).state = .waitingReboot ∧
    (w.store.tx k).expectedConfigRev = 7 ∧
    w.store.protocol.findRecord (w.store.tx k).deviceId = some i ∧
    (w.store.protocol.records i).pendingReconciliation = true ∧
    (w.store.protocol.records i).reconciliationExpectedRev = rev)

theorem expected_revision_kept_lamp : ∃ w w' : Worker, machine.ReachableWhen Carries w ∧
    w.Expecting ∧ w.expects 8 = true ∧ w.step (.actor true true true) = some w' ∧
      w'.store = w.store := by
  have hrun : ((machine.runWhen Carries {}
      (commitRun ++ goneRun ++ [.jobDone 0 { status := .timeout }])).map fun w =>
        decide (w.expects 8 = true ∧ (∃ k i, w.actor.events.head? =
            some (.txCommandComplete lamp { status := .timeout } ⟨k, 0, .commit⟩) ∧
          w.store.table.find lamp = some k ∧ (w.store.tx k).state = .waitingReboot ∧
          w.store.protocol.findRecord lamp = some i ∧
          (w.store.protocol.records i).pendingReconciliation = true) ∧
          w.Carries (.actor true true true) ∧ (w.step (.actor true true true)).isSome = true)) =
      some true := by
    decide +kernel
  obtain ⟨w, hw, hp⟩ := Machine.exists_reachableWhen_of_run (M := machine) rfl hrun
  obtain ⟨hexpects, ⟨k, i, hhead, hfind, hwaits, hi, hpending⟩, hcarries, hsome⟩ :=
    of_decide_eq_true hp
  obtain ⟨w', hstep⟩ := Option.isSome_iff_exists.mp hsome
  obtain ⟨hexpecting, hkept⟩ := expected_revision_kept hw
  exact ⟨w, w', hw, hexpecting, hexpects, hstep, hkept true true true lamp _ _ k i w' hcarries hhead
    hfind hwaits hi hpending rfl hstep⟩

/-- The lamp acknowledges the commit with revision eight and restarts. Its answer to the
confirmation comes late and carries no revision: zero is what the gateway expects from then on. -/
theorem zero_expected : ∃ w : Worker, machine.Reachable w ∧ w.expects 0 = true ∧ ¬ w.Expecting := by
  have hrun : ((machine.run {} (commitRun ++ answer 8 ++ goneRun ++ answer 0)).map fun w =>
      decide (w.expects 0 = true ∧ revisions w.log 0 = [8] ∧ ∀ k,
        (w.store.tx k).active = true → w.txSerial k = 0)) = some true := by
    decide +kernel
  obtain ⟨w, hw, hp⟩ := Machine.exists_reachable_of_run (M := machine) rfl hrun
  obtain ⟨hexpects, hrevisions, hserial⟩ := of_decide_eq_true hp
  refine ⟨w, hw, hexpects, fun hexpecting => ?_⟩
  obtain ⟨k, i, hk, hwaits, hbase, hi, hpending, hrev⟩ := of_decide_eq_true hexpects
  have hgood := hexpecting k i hk hwaits hi hpending
  rw [Transaction.Expects, acked, hserial k hk, hrevisions, hbase, hrev] at hgood
  exact absurd hgood (by decide)

end Worker

end BleGateway.Settings
