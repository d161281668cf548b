import BleGateway.Settings.Handback
import BleGateway.Settings.Numbering
import BleGateway.Settings.Wire
import BleGateway.Lib.Arrivals

/-! # The results of transactions

The result of a transaction is kept after its object is freed, one for each device, in a table of
its own. Nothing is ever taken out of that table: the first devices to complete a transaction have
their places for good. For them the status tells the result of the transaction that was completed
last, whenever no transaction on the device is active.
-/

namespace BleGateway.Settings

/-- The answer of `device_settings_tx_get_status`. -/
structure TxStatus where
  active : Bool := false
  state : TxState := .idle
  lastResult : TxResult := .ok
  deriving DecidableEq

/-- `device_settings_tx_get_status`. -/
def TxTable.getStatus (t : TxTable) (id : DeviceId) : Option TxStatus :=
  if id.text = [] then none
  else
    match t.find id with
    | some k => some { active := true, state := (t.txns k).state }
    | none =>
        (Directory.lookup TxResultRecord.used TxResultRecord.deviceId t.results id).map fun k =>
          { lastResult := (t.results k).result }

/-- What a transaction is completed with, and its device. -/
def TxAction.completion? : TxAction → Option (DeviceId × TxResult)
  | .finished _ id result => if id.text = [] then none else some (id, result)
  | _ => none

/-- The transactions that the log says are completed, in order. -/
def completions (log : List Entry) : List (DeviceId × TxResult) :=
  log.filterMap fun
    | .tx _ action => action.completion?
    | _ => none

/-- The table holds the results of the history. -/
abbrev Registered (hist : List (DeviceId × TxResult)) (t : TxTable) : Prop :=
  Arrivals.Filled TxResultRecord.used TxResultRecord.deviceId TxResultRecord.result hist t.results

variable {hist : List (DeviceId × TxResult)} {t : TxTable} {id : DeviceId}

/-- **A result is stored** in its place, or lost when there is none. -/
theorem Registered.storeResult (h : Registered hist t) (hid : id.text ≠ []) (result : TxResult)
    (configRevision : UInt32) :
    Registered (hist ++ [(id, result)]) (t.storeResult id result configRevision) := by
  rw [TxTable.storeResult, if_neg hid]
  cases hi : Directory.lookup TxResultRecord.used TxResultRecord.deviceId t.results id with
  | some k =>
      obtain ⟨hu, hk⟩ := Directory.lookup_spec hi
      exact h.again hi hu hk rfl
  | none =>
      cases hfree : Directory.vacant TxResultRecord.used t.results with
      | some k => exact h.enter hi hfree rfl rfl rfl
      | none => exact h.full hi hfree

/-- The transactions store exactly the results that they report. -/
theorem Transactions.Moves.results {turns : Tx → Prop} {s : Transactions} {r : TxStep}
    (hmoves : Transactions.Moves turns s r) (h : Registered hist s.table) :
    Registered (hist ++ r.2.filterMap TxAction.completion?) r.1.table := by
  have hplain {actions : List TxAction} (hactions : ∀ a ∈ actions, a.plain turns) :
      actions.filterMap TxAction.completion? = [] := by
    refine List.filterMap_eq_nil_iff.mpr fun a ha => ?_
    cases a with
    | finished k id result => exact (hactions _ ha).elim
    | _ => rfl
  induction hmoves generalizing hist with
  | say hactions | edit _ _ hactions =>
      rw [hplain hactions, List.append_nil]
      exact h
  | mark hi pending expectedRev oldRev =>
      rw [List.filterMap_nil, List.append_nil]
      exact h
  | @finish s k tx result configRevision before after hfree hbefore hafter =>
      rw [List.filterMap_append, hplain hbefore, List.nil_append, List.filterMap_cons]
      by_cases hid : (s.tx k).deviceId.text = []
      · have hnone : (TxAction.finished k (s.tx k).deviceId result).completion? = none := if_pos hid
        rw [hnone, hplain hafter, List.append_nil]
        have hsame : s.table.storeResult (s.tx k).deviceId result configRevision = s.table :=
          if_pos hid
        rw [hsame]
        exact h
      · have hsome : (TxAction.finished k (s.tx k).deviceId result).completion? =
            some ((s.tx k).deviceId, result) := if_neg hid
        rw [hsome, hplain hafter]
        exact h.storeResult hid result configRevision
  | next _ _ ih ih' =>
      rw [TxStep.next, List.filterMap_append, ← List.append_assoc]
      exact ih' (ih h)

theorem save_results (t : TxTable) (p : Protocol) (id : DeviceId) (changes : List ChangeRequest)
    (expectedConfigRev : UInt32) (completion context : Ptr) (alloc posted : Bool) :
    (t.save p id changes expectedConfigRev completion context alloc posted).table.results =
      t.results := by
  rw [TxTable.save]
  split
  · rfl
  · split
    · rfl
    · split
      · rfl
      · split
        · rfl
        · split
          · rfl
          · split
            · rfl
            · rename_i t' k halloc
              have hresults : t'.results = t.results := by
                obtain ⟨j, -, heq⟩ := Option.map_eq_some_iff.mp halloc
                obtain ⟨rfl, -⟩ := Prod.mk.inj heq
                rfl
              rw [← hresults]
              dsimp only
              split
              · rfl
              · split
                · rfl
                · split <;> rfl

namespace Worker

variable {w w' : Worker}

theorem completions_append (log log' : List Entry) :
    completions (log ++ log') = completions log ++ completions log' := List.filterMap_append ..

theorem completions_ops (actions : List OpAction) :
    completions (actions.map w.opEntry) = [] := by
  refine List.filterMap_eq_nil_iff.mpr fun e he => ?_
  obtain ⟨action, -, rfl⟩ := List.mem_map.mp he
  cases action <;> rfl

theorem completions_txs (actions : List TxAction) :
    completions (actions.map w.txEntry) = actions.filterMap TxAction.completion? := by
  rw [completions, List.filterMap_map]
  refine List.filterMap_congr fun action _ => ?_
  cases action <;> rfl

/-- The results are those of the log. -/
def ResultsKept (w : Worker) : Prop := Registered (completions w.log) w.store.table

theorem step_resultsKept (h : w.ResultsKept) (l : Act) (hstep : w.step l = some w') :
    w'.ResultsKept := by
  -- steps that complete nothing
  have hquiet {w' : Worker} {entries : List Entry} (hlog : w'.log = w.log ++ entries)
      (hnone : completions entries = [])
      (hresults : w'.store.table.results = w.store.table.results) :
      w'.ResultsKept := by
    rw [ResultsKept, hlog, completions_append, hnone, List.append_nil, Registered, hresults]
    exact h
  have hnothing {w' : Worker} (hlog : w'.log = w.log)
      (hresults : w'.store.table.results = w.store.table.results) : w'.ResultsKept :=
    hquiet (hlog.trans (List.append_nil _).symm) rfl hresults
  have hrequest (id : DeviceId) (r : Except EspErr Actor) : (w.request id r).ResultsKept := by
    unfold request
    cases r with
    | error e => exact h
    | ok actor =>
        cases w.actor.freeOp with
        | none => exact h
        | some slot => exact hquiet rfl rfl rfl
  have hperform (locked : Bool) (rest : Rest) : (w.perform locked rest).1.ResultsKept := by
    cases rest with
    | post | cancel => exact hnothing rfl rfl
    | txCancel | purge =>
        rw [perform]
        split
        · exact hnothing rfl rfl
        · exact h
    | describe id | get id => exact hrequest id _
    | reconcile id =>
        have hmoves : Transactions.Moves (fun _ => False) w.store
            ((w.store.reconcileBegin id locked).1, []) :=
              Transactions.reconcileBegin_moves id locked
        have hbegin := hmoves.results h
        rw [List.filterMap_nil, List.append_nil] at hbegin
        exact hbegin
    | resolve res =>
        rw [perform, withTxs_eq, ResultsKept, completions_append, completions_txs]
        have hmoves : Transactions.Moves (fun _ => False) w.store (w.store.reconcileEnd res) :=
          Transactions.reconcileEnd_moves res
        exact hmoves.results h
  cases l with
  | notify | capability | cancel | reconcile =>
      cases hstep
      exact hnothing rfl rfl
  | disconnect | forget =>
      rw [step] at hstep
      split at hstep <;> cases hstep
      · exact h
      · exact hquiet rfl rfl rfl
  | describe id | get id =>
      cases hstep
      exact hrequest id _
  | save id changes expectedConfigRev completion context alloc =>
      cases hstep
      have hresults := save_results w.store.table w.store.protocol id changes expectedConfigRev
        completion context alloc (decide (w.actor.events.length < DS_EVENT_QUEUE_LEN))
      rw [save]
      dsimp only
      split
      · exact hquiet rfl rfl hresults
      · exact hnothing rfl hresults
  | txCancel id =>
      cases hstep
      exact hperform true (.txCancel id)
  | proceed call locked =>
      obtain ⟨rest, more, -, rfl⟩ := step_proceed hstep
      exact hperform locked rest
  | leaseDone n ok lease =>
      obtain ⟨request, -, rfl⟩ := Option.map_eq_some_iff.mp hstep
      cases request <;> exact hquiet rfl rfl rfl
  | jobDone n result =>
      obtain ⟨job, -, rfl⟩ := Option.map_eq_some_iff.mp hstep
      cases job <;> exact hquiet rfl rfl rfl
  | retryTimer =>
      obtain ⟨serial, -, rfl⟩ := Option.map_eq_some_iff.mp hstep
      exact hnothing rfl rfl
  | reconTimer slot =>
      obtain ⟨-, ⟨⟩⟩ := Option.ite_none_right_eq_some.mp hstep
      split
      · exact hnothing rfl rfl
      · exact h
  | actor acquired submitted armed =>
      obtain ⟨event, rest, -, rfl⟩ := step_actor hstep
      obtain ⟨retry, heq⟩ := handleEvent_spec
        { w with actor := { w.actor with events := rest } } acquired submitted armed event
      rw [heq, ResultsKept, completions_append, completions_txs, completions_append,
        completions_ops, List.append_nil, completions_append]
      have hevent : completions [Entry.handled event] = [] := rfl
      rw [hevent, List.append_nil]
      exact (txRound_moves _ acquired submitted armed event).results h

/-! ## The status -/

theorem named_of_completed {log : List Entry} {id : DeviceId}
    (h : id ∈ (completions log).map Prod.fst) : id.text ≠ [] := by
  obtain ⟨c, hc, rfl⟩ := List.mem_map.mp h
  obtain ⟨e, -, he⟩ := List.mem_filterMap.mp hc
  cases e with
  | tx serial action =>
      cases action with
      | finished k id result =>
          change (if id.text = [] then none else some (id, result)) = some c at he
          split at he
          · cases he
          · rename_i hid
            rw [← Option.some.inj he]
            exact hid
      | _ => cases he
  | _ => cases he

theorem reachable_resultsKept (h : machine.Reachable w) : w.ResultsKept := by
  refine Machine.Reachable.invariant (I := ResultsKept) (fun w hw => ?_)
    (fun w l w' hw hstep => step_resultsKept hw l hstep) h
  rw [hw]
  exact Arrivals.filled_nil fun _ => rfl

/-- No transaction on the device is active. -/
def Unengaged (w : Worker) (id : DeviceId) : Prop :=
  ∀ k, (w.store.tx k).active = true → (w.store.tx k).deviceId ≠ id

/-- The status of a device without an active transaction is its stored result. -/
theorem getStatus_unengaged {id : DeviceId} (hid : id.text ≠ []) (hidle : w.Unengaged id) :
    w.store.table.getStatus id = (Directory.lookup TxResultRecord.used TxResultRecord.deviceId
      w.store.table.results id).map
        fun k => { lastResult := (w.store.table.results k).result } := by
  have hnone : w.store.table.find id = none :=
    (if_neg hid).trans (Directory.lookup_eq_none.mpr hidle)
  rw [TxTable.getStatus, if_neg hid, hnone]

/-- An active transaction is the only one on its device, and the status reports it. -/
theorem Numbered.getStatus_active (h : w.Numbered) {k : Tx}
    (hk : (w.store.tx k).active = true) : w.store.table.getStatus (w.store.tx k).deviceId =
      some { active := true, state := (w.store.tx k).state } := by
  have hid := h.named k hk
  have hfind : w.store.table.find (w.store.tx k).deviceId = some k :=
    (if_neg hid).trans (h.distinct.lookup_eq hk)
  rw [TxTable.getStatus, if_neg hid, hfind]
  rfl

/-- **The status of a device** is its active transaction, and without one the result of the
transaction that was completed last, when fewer than `DEVICE_SETTINGS_MAX_DEVICES` other devices had
completed one before the device first did. -/
theorem status_last_result (h : machine.Reachable w) (id : DeviceId) :
    (∀ k, (w.store.tx k).active = true → (w.store.tx k).deviceId = id →
      w.store.table.getStatus id = some { active := true, state := (w.store.tx k).state }) ∧
    (w.Unengaged id → ∀ result before after,
      completions w.log = before ++ (id, result) :: after → (∀ c ∈ after, c.1 ≠ id) →
      ((((completions w.log).takeWhile fun c => c.1 ≠ id).map Prod.fst).dedup).length <
        DEVICE_SETTINGS_MAX_DEVICES →
      w.store.table.getStatus id = some { lastResult := result }) := by
  constructor
  · rintro k hk rfl
    exact (reachable_numbered h).getStatus_active hk
  · intro hidle result before after hcompleted hlast hroom
    have hmem : id ∈ (completions w.log).map Prod.fst := by
      rw [hcompleted, List.map_append]
      exact List.mem_append_right _ List.mem_cons_self
    obtain ⟨k, hk, hvalue⟩ := (reachable_resultsKept h).lookup (Arrivals.mem_arrivals hmem hroom)
    rw [hcompleted, Arrivals.lastValue_of_last hlast] at hvalue
    rw [getStatus_unengaged (named_of_completed hmem) hidle, hk, Option.map_some,
      ← Option.some.inj hvalue]

/-! ## A transaction behind a cancelled one -/

/-- The device describes one setting. -/
def describeOne (id : DeviceId) : List Act :=
  [.notify id (beginFrame 1) true true, .notify id (itemFrame (settingId 97 no_nul) 0 1) true true,
    .notify id (endFrame 1) true true]

/-- A transaction is requested and cancelled again. -/
def cancelledRun (id : DeviceId) : List Act :=
  [.save id [turnOn] 0 0 0 true, .txCancel id, .actor true true true, .actor true true true]

/-- Another transaction on the lamp has been requested. -/
def askedAgain : List Act :=
  describeOne lamp ++ cancelledRun lamp ++ [.save lamp [turnOn] 0 0 0 true]

/-- The status tells the cancelled transaction, and then the one that is requested behind it. -/
theorem status_last_result_cancelled :
    (∃ w : Worker, w.store.table.getStatus lamp = some { lastResult := .cancelled }) ∧
    ∃ w : Worker,
      w.store.table.getStatus lamp = some { active := true, state := .prevalidating } := by
  have hcancelled : ((machine.run {} (describeOne lamp ++ cancelledRun lamp)).map fun w =>
      decide (completions w.log = [(lamp, .cancelled)] ∧
        ∀ k, (w.store.tx k).active = true → (w.store.tx k).deviceId ≠ lamp)) = some true := by
    decide +kernel
  have hasked : ((machine.run {} askedAgain).map fun w =>
      decide ((w.store.tx 0).active = true ∧ (w.store.tx 0).deviceId = lamp ∧
        (w.store.tx 0).state = .prevalidating)) = some true := by
    decide +kernel
  constructor
  · obtain ⟨w, hw, hp⟩ := Machine.exists_reachable_of_run (M := machine) rfl hcancelled
    obtain ⟨hcompleted, hidle⟩ := of_decide_eq_true hp
    refine ⟨w, (@status_last_result w hw lamp).2 hidle .cancelled [] [] hcompleted (by simp) ?_⟩
    rw [hcompleted]
    decide
  · obtain ⟨w, hw, hp⟩ := Machine.exists_reachable_of_run (M := machine) rfl hasked
    obtain ⟨hactive, hlamp, hstate⟩ := of_decide_eq_true hp
    exact ⟨w, hstate ▸ (@status_last_result w hw lamp).1 0 hactive hlamp⟩

def numbered (n : Nat) : DeviceId := strlcpy _ [(n + 1).toUInt8]

/-- As many devices as there are records complete a transaction. -/
def filledRun : List Act :=
  (List.range DEVICE_SETTINGS_MAX_DEVICES).flatMap fun n =>
    describeOne (numbered n) ++ cancelledRun (numbered n)

/-- The first of them is forgotten for another one, which completes a transaction, too. -/
def crowdedRun : List Act :=
  filledRun ++ [.forget (numbered 0) true] ++
    List.replicate 4 (.proceed (3 * DEVICE_SETTINGS_MAX_DEVICES) true) ++
    [.actor true true true] ++ describeOne (numbered DEVICE_SETTINGS_MAX_DEVICES) ++
    cancelledRun (numbered DEVICE_SETTINGS_MAX_DEVICES)

/-- The status of a device tells the result of its last transaction, whatever is under way. -/
def StatusTold (w : Worker) : Prop :=
  ∀ id result before after, completions w.log = before ++ (id, result) :: after →
    (∀ c ∈ after, c.1 ≠ id) → ∃ s, w.store.table.getStatus id = some s ∧ s.lastResult = result

/-- The cancelled transaction of the lamp reads as a success while the next one is under way, and
that of the last device is not found. -/
theorem status_not_told : (∃ w, machine.Reachable w ∧ ¬ w.StatusTold ∧
      completions w.log = [(lamp, .cancelled)] ∧
      w.store.table.getStatus lamp = some { active := true, state := .prevalidating }) ∧
    ∃ w, machine.Reachable w ∧ ¬ w.StatusTold ∧
      w.store.table.getStatus (numbered DEVICE_SETTINGS_MAX_DEVICES) = none := by
  have hasked : ((machine.run {} askedAgain).map fun w =>
      decide (completions w.log = [(lamp, .cancelled)] ∧
        w.store.table.getStatus lamp = some { active := true, state := .prevalidating })) =
      some true := by
    decide +kernel
  have hcrowded : ((machine.run {} crowdedRun).map fun w =>
      decide ((completions w.log).getLast? =
          some (numbered DEVICE_SETTINGS_MAX_DEVICES, .cancelled) ∧
        w.store.table.getStatus (numbered DEVICE_SETTINGS_MAX_DEVICES) = none)) = some true := by
    decide +kernel
  constructor
  · obtain ⟨w, hw, hp⟩ := Machine.exists_reachable_of_run (M := machine) rfl hasked
    obtain ⟨hcompleted, hstatus⟩ := of_decide_eq_true hp
    refine ⟨w, hw, fun htold => ?_, hcompleted, hstatus⟩
    obtain ⟨s, hs, hresult⟩ := htold lamp .cancelled [] [] hcompleted (by simp)
    rw [← Option.some.inj (hstatus.symm.trans hs)] at hresult
    cases hresult
  · obtain ⟨w, hw, hp⟩ := Machine.exists_reachable_of_run (M := machine) rfl hcrowded
    obtain ⟨hcompleted, hstatus⟩ := of_decide_eq_true hp
    obtain ⟨before, hbefore⟩ := List.getLast?_eq_some_iff.mp hcompleted
    refine ⟨w, hw, fun htold => ?_, hstatus⟩
    obtain ⟨s, hs, -⟩ := htold _ _ before [] hbefore (by simp)
    rw [hstatus] at hs
    cases hs

end Worker

end BleGateway.Settings
