import BleGateway.Settings.TxActor

/-! # What the transactions of the actor can do

Every function that the actor carries out for a transaction is put together from a few moves. A
record has its reconciliation marks written; a transaction is changed in place, and goes on to
another command only where it is its turn; a result is stored and the slot freed. What all of them
keep is shown of a single move.
-/

namespace BleGateway.Settings

/-- There may still be a command to send. -/
def TxState.working : TxState → Bool
  | .idle | .prevalidating | .beginSent | .setSent | .commitSent | .confirmSent => true
  | .waitingReboot | .verifying | .succeeded | .failed | .conflict | .cancelled
  | .outcomeUnknown => false

/-- The acknowledgement of the command that was sent is followed by another command. -/
def TxState.goesOn : TxState → Bool
  | .beginSent | .setSent | .commitSent => true
  | _ => false

/-- Nothing is finished, and only a transaction whose turn it is submits a command. -/
def TxAction.plain (turns : Tx → Prop) : TxAction → Prop
  | .effect _ | .cancelSource .. | .acquire .. => True
  | .submit k _ _ | .begun k _ => turns k
  | .finished .. => False

/-- The transaction has not gone on to another command. -/
def Transaction.Stays (tx tx' : Transaction) : Prop :=
  (tx'.state = tx.state ∧ tx'.nextChangeIndex = tx.nextChangeIndex) ∨ tx'.state.working = false

theorem Transaction.Stays.trans {tx₁ tx₂ tx₃ : Transaction} (h : tx₁.Stays tx₂)
    (h' : tx₂.Stays tx₃) : tx₁.Stays tx₃ := by
  rcases h' with hsame | hover
  · rcases h with h | hover
    · exact Or.inl ⟨hsame.1.trans h.1, hsame.2.trans h.2⟩
    · exact Or.inr (hsame.1 ▸ hover)
  · exact Or.inr hover

/-- The same transaction in the slot. -/
structure Transaction.Same (tx tx' : Transaction) : Prop where
  active : tx'.active = tx.active
  deviceId : tx'.deviceId = tx.deviceId
  changes : tx'.changes = tx.changes

theorem Transaction.Same.refl (tx : Transaction) : tx.Same tx := ⟨rfl, rfl, rfl⟩

theorem Transaction.Same.trans {tx₁ tx₂ tx₃ : Transaction} (h : tx₁.Same tx₂) (h' : tx₂.Same tx₃) :
    tx₁.Same tx₃ :=
  ⟨h'.active.trans h.active, h'.deviceId.trans h.deviceId, h'.changes.trans h.changes⟩

namespace Transactions

variable {turns : Tx → Prop}

/-- A step that is put together from moves. -/
inductive Moves (turns : Tx → Prop) : Transactions → TxStep → Prop
  | say {s : Transactions} {actions : List TxAction} (h : ∀ a ∈ actions, a.plain turns) :
      Moves turns s (s, actions)
  | edit {s : Transactions} {k : Tx} {tx : Transaction} {actions : List TxAction}
      (hsame : (s.tx k).Same tx) (hstays : turns k ∨ (s.tx k).Stays tx)
      (h : ∀ a ∈ actions, a.plain turns) : Moves turns s (s.setTx k tx, actions)
  | mark {s : Transactions} {id : DeviceId} {i : Rx} (hi : s.protocol.findRecord id = some i)
      (pending : Bool) (expectedRev oldRev : UInt32) :
      Moves turns s ({ s with
        protocol := s.protocol.setRecord i { s.protocol.records i with
          pendingReconciliation := pending
          reconciliationExpectedRev := expectedRev
          reconciliationOldRev := oldRev } }, [])
  | finish {s : Transactions} {k : Tx} {tx : Transaction} {result : TxResult}
      {configRevision : UInt32} {before after : List TxAction} (hfree : tx.active = false)
      (hbefore : ∀ a ∈ before, a.plain turns) (hafter : ∀ a ∈ after, a.plain turns) :
      Moves turns s
        ({ s with
            table := (s.table.storeResult (s.tx k).deviceId result configRevision).setTx k tx },
          before ++ .finished k (s.tx k).deviceId result :: after)
  | next {s : Transactions} {r : TxStep} {f : Transactions → TxStep} (h : Moves turns s r)
      (h' : Moves turns r.1 (f r.1)) : Moves turns s (r.next f)

variable {s : Transactions} {k : Tx} {r : TxStep}

theorem Moves.stay : Moves turns s (s, []) := .say fun _ ha => by cases ha

theorem Moves.andThen {s' : Transactions} (h : Moves turns s (s', [])) (h' : Moves turns s' r) :
    Moves turns s r := .next (f := fun _ => r) h h'

/-- Where it is nobody's turn anything may be allowed one. -/
theorem Moves.mono {turns' : Tx → Prop} (hturns : ∀ k, turns k → turns' k) (h : Moves turns s r) :
    Moves turns' s r := by
  have hplain : ∀ a : TxAction, a.plain turns → a.plain turns' := by
    intro a
    cases a with
    | submit k | begun k => exact hturns k
    | effect e | cancelSource k id owner | acquire origin id owner accepted
    | finished k id result => exact fun ha => ha
  induction h with
  | say h => exact .say fun a ha => hplain a (h a ha)
  | edit hsame hstays h =>
      exact .edit hsame (hstays.imp_left (hturns _)) fun a ha => hplain a (h a ha)
  | mark hi pending expectedRev oldRev => exact .mark hi pending expectedRev oldRev
  | finish hfree hbefore hafter =>
      exact .finish hfree (fun a ha => hplain a (hbefore a ha)) fun a ha => hplain a (hafter a ha)
  | next _ _ ih ih' => exact ih.next ih'

theorem plain_effects (effects : List TxEffect) : ∀ a ∈ effects.map TxAction.effect,
    a.plain turns := by
  intro a ha
  obtain ⟨e, -, rfl⟩ := List.mem_map.mp ha
  trivial

/-! ## The parts -/

theorem transitionTx_fst (tx : Transaction) (state : TxState) :
    (tx.transitionTx state).1 = { tx with state := state } := by
  rw [Transaction.transitionTx]
  split
  · rename_i hstate
    rw [← hstate]
  · rfl

theorem transition_moves {state : TxState}
    (h : turns k ∨ (s.tx k).state = state ∨ state.working = false) :
    Moves turns s (s.transition k state) := by
  show Moves turns s (s.setTx k ((s.tx k).transitionTx state).1,
    ((s.tx k).transitionTx state).2.map .effect)
  rw [transitionTx_fst]
  refine .edit ⟨rfl, rfl, rfl⟩ ?_ (plain_effects _)
  exact h.imp_right fun h => h.imp (fun hsame => ⟨hsame.symm, rfl⟩) id


theorem storeResult_txns (t : TxTable) (id : DeviceId) (result : TxResult)
    (configRevision : UInt32) : (t.storeResult id result configRevision).txns = t.txns := by
  rw [TxTable.storeResult]
  split
  · rfl
  · split
    · rfl
    · split <;> rfl

theorem storeResult_setTx (t : TxTable) (tx : Transaction) (id : DeviceId) (result : TxResult)
    (configRevision : UInt32) : (t.setTx k tx).storeResult id result configRevision =
      (t.storeResult id result configRevision).setTx k tx := by
  rw [TxTable.storeResult, TxTable.storeResult]
  split
  · rfl
  · have hresults : (t.setTx k tx).results = t.results := rfl
    rw [hresults]
    cases Directory.lookup TxResultRecord.used TxResultRecord.deviceId t.results id with
    | some j => rfl
    | none => cases Directory.vacant TxResultRecord.used t.results <;> rfl

theorem setTx_setTx (t : TxTable) (tx tx' : Transaction) :
    (t.setTx k tx).setTx k tx' = t.setTx k tx' := by
  rw [TxTable.setTx, TxTable.setTx, TxTable.setTx]
  dsimp only
  rw [Function.update_idem]

theorem complete_moves (k : Tx) (result : TxResult) (configRevision : UInt32) :
    Moves turns s (s.complete k result configRevision) := by
  unfold complete TxTable.complete
  dsimp only
  rw [storeResult_setTx, setTx_setTx, transitionTx_fst]
  exact .finish rfl (plain_effects _) fun _ ha => by cases ha

/-- A transition in front of the end may go anywhere that has no command left. -/
theorem conclude_moves (k : Tx) {state : TxState} (hstate : state.working = false)
    (result : TxResult) : Moves turns s (s.conclude k state result) :=
  .next (transition_moves (Or.inr (Or.inr hstate))) (complete_moves k result 0)

theorem releaseLease_moves (k : Tx) : Moves turns s (s.releaseLease k) := by
  rw [releaseLease]
  split
  · exact .stay
  · exact .edit ⟨rfl, rfl, rfl⟩ (Or.inr (Or.inl ⟨rfl, rfl⟩)) (plain_effects [_])

theorem startTimer_moves (k : Tx) (armed : Bool) : Moves turns s (s.startTimer k armed, []) := by
  rw [startTimer]
  split
  · exact .stay
  · exact .edit ⟨rfl, rfl, rfl⟩ (Or.inr (Or.inl ⟨rfl, rfl⟩)) (plain_effects [])

theorem setReconciliation_moves (id : DeviceId) (pending : Bool) (expectedRev oldRev : UInt32) :
    Moves turns s
      ({ s with protocol := s.protocol.setReconciliation id pending expectedRev oldRev }, []) := by
  rw [Protocol.setReconciliation]
  split
  · rename_i i hi
    exact .mark hi pending expectedRev oldRev
  · exact .stay

theorem markPending_moves (k : Tx) (armed : Bool) : Moves turns s (s.markPending k armed) := by
  rw [markPending]
  split
  · exact .stay
  · exact .next ((setReconciliation_moves ..).andThen (transition_moves (Or.inr (Or.inr rfl))))
      (startTimer_moves k armed)

theorem send_moves (hk : turns k) (state : TxState) (command : TxCommand) (submitted : Bool) :
    Moves turns s (s.send k state command submitted) := by
  refine .next (transition_moves (Or.inl hk)) (.next (.say fun a ha => ?_) ?_)
  · obtain rfl := List.mem_singleton.mp ha
    exact hk
  · split
    · exact .stay
    · exact conclude_moves k rfl .internal

theorem submitNext_moves (hk : turns k) (submitted : Bool) :
    Moves turns s (s.submitNext k submitted) := by
  rw [submitNext]
  split
  · exact .stay
  · split
    · exact conclude_moves k rfl .internal
    · split <;> exact send_moves hk ..

theorem ambiguous_moves (k : Tx) (result : TxResult) (armed : Bool) :
    Moves turns s (s.ambiguous k result armed) := by
  rw [ambiguous]
  split
  · exact .next (markPending_moves k armed) (releaseLease_moves k)
  · exact conclude_moves k rfl result

/-! ## The functions -/

theorem acknowledged_moves (result : DeviceCommandResult) (submitted armed : Bool)
    (hk : (s.tx k).state.goesOn = true → turns k) :
    Moves turns s (s.acknowledged k result submitted armed) := by
  rw [acknowledged]
  cases hstate : (s.tx k).state with
  | beginSent => exact submitNext_moves (hk (by rw [hstate]; rfl)) submitted
  | setSent =>
      have hturn := hk (by rw [hstate]; rfl)
      exact .next (.edit ⟨rfl, rfl, rfl⟩ (Or.inl hturn) (plain_effects _))
        (submitNext_moves hturn submitted)
  | commitSent =>
      have hturn := hk (by rw [hstate]; rfl)
      refine Moves.andThen ?_ (send_moves hturn .confirmSent .confirm submitted)
      exact .edit ⟨rfl, rfl, rfl⟩ (Or.inl hturn) (plain_effects [])
  | confirmSent => exact markPending_moves k armed
  | idle | prevalidating | waitingReboot | verifying | succeeded | failed | conflict | cancelled
  | outcomeUnknown => exact .stay

theorem lateAnswer_moves (k : Tx) (result : DeviceCommandResult) :
    Moves turns s (s.lateAnswer k result, []) := by
  rw [lateAnswer]
  split
  · dsimp only
    split
    · rename_i i hi
      exact (Moves.mark hi ..).andThen
        (.edit ⟨rfl, rfl, rfl⟩ (Or.inr (Or.inl ⟨rfl, rfl⟩)) (plain_effects []))
    · exact .edit ⟨rfl, rfl, rfl⟩ (Or.inr (Or.inl ⟨rfl, rfl⟩)) (plain_effects [])
  · exact .stay

theorem commandComplete_moves {id : DeviceId} {result : DeviceCommandResult}
    (submitted armed : Bool)
    (hk : ∀ k, s.table.find id = some k → result.status = .ok → (s.tx k).state.goesOn = true →
      turns k) : Moves turns s (s.commandComplete id result submitted armed) := by
  rw [commandComplete]
  split
  · exact .stay
  · rename_i k hfind
    split
    · exact lateAnswer_moves k result
    · cases hstatus : result.status with
      | ok => exact acknowledged_moves result submitted armed (hk k hfind hstatus)
      | rejected =>
          dsimp only
          split
          · exact conclude_moves k rfl .deviceConflict
          · exact conclude_moves k rfl .deviceRejected
      | timeout => exact ambiguous_moves k .timeout armed
      | notConnected => exact ambiguous_moves k .disconnected armed
      | busy => exact conclude_moves k rfl .deviceRejected
      | cancelled => exact conclude_moves k rfl .cancelled
      | _ => exact conclude_moves k rfl .internal

theorem releaseStray_moves (lease : UInt32) : Moves turns s
    (s, if lease = 0 then [] else [TxAction.effect (.releaseLease lease)]) := by
  split
  · exact .stay
  · exact .say (plain_effects [_])

theorem actorBegin_moves {id : DeviceId} (owner lease : UInt32) (submitted : Bool)
    (hk : ∀ k, s.table.find id = some k → turns k) :
    Moves turns s (s.actorBegin id owner lease submitted) := by
  rw [actorBegin]
  split
  · exact releaseStray_moves lease
  · rename_i k hfind
    have hturn := hk k hfind
    have hsay : ∀ a : TxAction, a.plain turns → ∀ b ∈ [a], b.plain turns :=
      fun a ha b hb => List.mem_singleton.mp hb ▸ ha
    refine .next (.edit ⟨rfl, rfl, rfl⟩ (Or.inl hturn) (hsay (.begun k lease) hturn))
      (.next (transition_moves (Or.inl hturn))
        (.next (.say (hsay (.submit k .begin submitted) hturn)) ?_))
    split
    · exact .stay
    · exact complete_moves k .internal 0

theorem actorAbort_moves (id : DeviceId) : Moves turns s (s.actorAbort id) := by
  rw [actorAbort]
  split
  · exact .stay
  · rename_i k hfind
    refine .next (.say fun a ha => ?_) (complete_moves k .cancelled 0)
    obtain rfl := List.mem_singleton.mp ha
    trivial

theorem actorDisconnect_moves (id : DeviceId) (armed : Bool) :
    Moves turns s (s.actorDisconnect id armed) := by
  rw [actorDisconnect]
  split
  · exact actorAbort_moves id
  · rename_i k hfind
    split
    · exact actorAbort_moves id
    · refine .next ?_ (releaseLease_moves k)
      split
      · exact .stay
      · exact markPending_moves k armed

theorem actorTimeout_moves (id : DeviceId) : Moves turns s (s.actorTimeout id) := by
  rw [actorTimeout]
  split
  · exact .stay
  · rename_i k hfind
    split
    · exact actorAbort_moves id
    · exact complete_moves k .outcomeUnknown 0

theorem reconcileBegin_moves (id : DeviceId) (locked : Bool) :
    Moves turns s ((s.reconcileBegin id locked).1, []) := by
  rw [reconcileBegin]
  split
  · exact .stay
  · split
    · exact .stay
    · rename_i i hi
      dsimp only
      split
      · exact .stay
      · split
        · exact .mark hi ..
        · rename_i k hfind
          refine (Moves.mark hi false ..).andThen (.edit ?_ (Or.inr ?_) (plain_effects []))
          · split <;> exact ⟨rfl, rfl, rfl⟩
          · split
            · exact Or.inr rfl
            · exact Or.inl ⟨rfl, rfl⟩

theorem reconcileEnd_moves (res : Resolution) : Moves turns s (s.reconcileEnd res) := by
  have hcompleted : ∀ a ∈ (if res.completion ≠ 0 then
      [TxAction.effect (.completed res.completion res.context res.outcome)] else []) ++
        [TxAction.effect (.publishChanged res.id res.configRevision)], a.plain turns := by
    intro a ha
    split at ha
    · exact plain_effects [_, _] a ha
    · exact plain_effects [_] a ha
  rw [reconcileEnd, List.append_assoc, List.append_assoc, List.singleton_append]
  exact .finish rfl (plain_effects _) hcompleted

/-! ## What every move keeps -/

/-- A transaction that is active afterwards was there before, and has gone on only where it was
its turn. -/
theorem Moves.slot (h : Moves turns s r) {k : Tx} (hk : (r.1.tx k).active = true) :
    (s.tx k).Same (r.1.tx k) ∧ (turns k ∨ (s.tx k).Stays (r.1.tx k)) := by
  have hkept (tx : Transaction) : tx.Same tx ∧ (turns k ∨ tx.Stays tx) :=
    ⟨.refl tx, Or.inr (Or.inl ⟨rfl, rfl⟩)⟩
  induction h with
  | say | mark => exact hkept _
  | @edit s j tx actions hsame hstays h =>
      by_cases hkj : k = j
      · rw [hkj, setTx_self]
        exact ⟨hsame, hstays⟩
      · rw [setTx_of_ne s hkj]
        exact hkept _
  | @finish s j tx result configRevision before after hfree hbefore hafter =>
      have htx : ({ s with
          table := (s.table.storeResult (s.tx j).deviceId result configRevision).setTx j tx } :
          Transactions).tx k = if k = j then tx else s.tx k := by
        show Function.update (TxTable.storeResult ..).txns j tx k = _
        rw [storeResult_txns, Function.update_apply]
        rfl
      dsimp only at hk ⊢
      rw [htx] at hk ⊢
      split at hk
      · rw [hfree] at hk
        cases hk
      · rename_i hkj
        rw [if_neg hkj]
        exact hkept _
  | @next s r f h h' ih ih' =>
      obtain ⟨hsame', hstays'⟩ := ih' hk
      obtain ⟨hsame, hstays⟩ := ih (hsame'.active.symm.trans hk)
      refine ⟨hsame.trans hsame', ?_⟩
      rcases hstays with hturn | hstays
      · exact Or.inl hturn
      · exact hstays'.imp_right fun hstays' => hstays.trans hstays'

/-- Commands are submitted where it is the turn. -/
theorem Moves.plain (h : Moves turns s r) :
    ∀ a ∈ r.2, a.plain turns ∨ ∃ k id result, a = .finished k id result := by
  induction h with
  | say h => exact fun a ha => Or.inl (h a ha)
  | edit hsame hstays h => exact fun a ha => Or.inl (h a ha)
  | mark hi pending expectedRev oldRev => exact fun a ha => by cases ha
  | finish hfree hbefore hafter =>
      intro a ha
      rcases List.mem_append.mp ha with ha | ha
      · exact Or.inl (hbefore a ha)
      · rcases List.mem_cons.mp ha with heq | ha
        · exact Or.inr ⟨_, _, _, heq⟩
        · exact Or.inl (hafter a ha)
  | @next s r f h h' ih ih' => exact fun a ha => (List.mem_append.mp ha).elim (ih a) (ih' a)

theorem Moves.turns_of_submit (h : Moves turns s r) {k : Tx} {command : TxCommand}
    {accepted : Bool} (ha : .submit k command accepted ∈ r.2) : turns k := by
  rcases h.plain _ ha with hplain | ⟨_, _, _, heq⟩
  · exact hplain
  · cases heq

/-! ## The end of a transaction -/

theorem complete_slot (s : Transactions) (k : Tx) (result : TxResult) (configRevision : UInt32) :
    ((s.complete k result configRevision).1.tx k).active = false := by
  have hfree (t : TxTable) (tx : Transaction) :
      (Transactions.tx { s with table := t.setTx k tx.free } k).active = false :=
    congrArg Transaction.active (setTx_self { s with table := t } k tx.free)
  exact hfree _ _

theorem find_of_active
    (hd : Directory.Distinct Transaction.active Transaction.deviceId s.table.txns)
    (hk : (s.tx k).active = true) (hid : (s.tx k).deviceId.text ≠ []) :
    s.table.find (s.tx k).deviceId = some k := by
  rw [TxTable.find, if_neg hid]
  exact hd.lookup_eq hk

/-- An abort leaves the device no transaction. -/
theorem actorAbort_ends
    (hd : Directory.Distinct Transaction.active Transaction.deviceId s.table.txns)
    {id : DeviceId} (hid : id.text ≠ []) (hk : ((s.actorAbort id).1.tx k).active = true) :
    (s.tx k).deviceId ≠ id := by
  rintro rfl
  have hmoves : Moves (fun _ => False) s (s.actorAbort (s.tx k).deviceId) := actorAbort_moves _
  have hbefore := (hmoves.slot hk).1.active.symm.trans hk
  rw [actorAbort, find_of_active hd hbefore hid] at hk
  change ((s.complete k .cancelled 0).1.tx k).active = true at hk
  rw [complete_slot] at hk
  cases hk

theorem releaseLease_state (s : Transactions) (k : Tx) :
    ((s.releaseLease k).1.tx k).state = (s.tx k).state := by
  rw [releaseLease]
  split
  · rfl
  · rw [setTx_self]

theorem startTimer_state (s : Transactions) (k : Tx) (armed : Bool) :
    ((s.startTimer k armed).tx k).state = (s.tx k).state := by
  rw [startTimer]
  split
  · rfl
  · rw [setTx_self]

theorem transition_state (s : Transactions) (k : Tx) (state : TxState) :
    ((s.transition k state).1.tx k).state = state := by
  show ((s.setTx k ((s.tx k).transitionTx state).1).tx k).state = state
  rw [setTx_self, transitionTx_fst]

theorem markPending_state (hk : (s.tx k).active = true) (armed : Bool) :
    ((s.markPending k armed).1.tx k).state = .waitingReboot := by
  rw [markPending, hk]
  exact (startTimer_state _ k armed).trans (transition_state _ k .waitingReboot)

/-- A disconnect leaves the device no transaction but one that waits for it to come back. -/
theorem actorDisconnect_ends
    (hd : Directory.Distinct Transaction.active Transaction.deviceId s.table.txns) {id : DeviceId}
    (hid : id.text ≠ []) (armed : Bool) (hk : ((s.actorDisconnect id armed).1.tx k).active = true)
    (hdevice : (s.tx k).deviceId = id) :
    ((s.actorDisconnect id armed).1.tx k).state = .waitingReboot := by
  have hmoves : Moves (fun _ => False) s (s.actorDisconnect id armed) :=
    actorDisconnect_moves id armed
  have hbefore := (hmoves.slot hk).1.active.symm.trans hk
  obtain rfl := hdevice
  have hfind := find_of_active hd hbefore hid
  have hdo : s.actorDisconnect (s.tx k).deviceId armed =
      if !preserved (s.tx k).state then s.actorAbort (s.tx k).deviceId
      else TxStep.next (if (s.tx k).state = .waitingReboot then (s, []) else s.markPending k armed)
        fun s => s.releaseLease k := by
    rw [actorDisconnect, hfind]
  rw [hdo] at hk ⊢
  split
  · rename_i hlost
    rw [if_pos hlost] at hk
    exact absurd rfl (actorAbort_ends hd hid hk)
  · split
    · rename_i hwaits
      exact (releaseLease_state s k).trans hwaits
    · exact (releaseLease_state _ k).trans (markPending_state hbefore armed)

end Transactions

end BleGateway.Settings
