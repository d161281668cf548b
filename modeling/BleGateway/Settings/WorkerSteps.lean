import BleGateway.Settings.TxMoves
import BleGateway.Settings.Worker

/-! # The steps of the settings component

What one round of the actor leaves behind: the operations and the transactions only ask and write
down, and what the transactions do is put together from their moves.
-/

namespace BleGateway.Settings

/-! ## Requests -/

namespace Actor

variable (a : Actor)

@[simp] theorem post_ops (event : ActorEvent) : (a.post event).ops = a.ops := by
  rw [post]
  split <;> rfl

@[simp] theorem post_active (event : ActorEvent) : (a.post event).active = a.active := by
  rw [post]
  split <;> rfl

theorem post_events (event : ActorEvent) :
    ∃ more, (a.post event).events = a.events ++ more ∧ ∀ e ∈ more, e = event := by
  rw [post]
  split
  · exact ⟨[event], rfl, fun e he => List.mem_singleton.mp he⟩
  · exact ⟨[], (List.append_nil _).symm, fun e he => by cases he⟩

theorem cancel_eq (id : DeviceId) : a.cancel id = a ∨ a.cancel id = a.post (.cancelDevice id) := by
  rw [cancel]
  split
  · exact Or.inl rfl
  · split
    · exact Or.inr rfl
    · exact Or.inl rfl

/-- A request that is accepted takes the free record. -/
structure Accepts (id : DeviceId) (slot : OpIx) (a' : Actor) : Prop where
  free : a.freeOp = some slot
  named : id.text ≠ []
  record : ∃ r, a'.ops = Function.update a.ops slot r ∧ r.active = true ∧ r.deviceId = id
  active : a'.active = a.active
  events : ∃ more, a'.events = a.events ++ more ∧ ∀ e ∈ more, e = .startOperation

variable {a} {a' : Actor} {id : DeviceId}

theorem queueOp_accepts {kind : OpKind} (hid : id.text ≠ []) (h : a.queueOp id kind = some a') :
    ∃ slot, a.Accepts id slot a' := by
  obtain ⟨slot, hfree, rfl⟩ := Option.map_eq_some_iff.mp h
  refine ⟨slot, hfree, hid, ⟨_, post_ops .., rfl, rfl⟩, post_active .., ?_⟩
  obtain ⟨more, hevents, hmore⟩ := post_events (setOp { a with nextOpId := a.nextOpId + 1 } slot
    { active := true, deviceId := id, kind, state := .queued, opId := a.nextOpId, generation := 1 })
    .startOperation
  exact ⟨more, hevents, hmore⟩

theorem queueOp_elim {kind : OpKind} (hid : id.text ≠ [])
    (h : (a.queueOp id kind).elim (Except.error EspErr.noMem) Except.ok = .ok a') :
    ∃ slot, a.Accepts id slot a' := by
  cases hq : a.queueOp id kind with
  | none =>
      rw [hq] at h
      cases h
  | some a'' =>
      rw [hq] at h
      cases h
      exact queueOp_accepts hid hq

theorem describe_accepts {state : SchemaState} (h : a.describe id state = .ok a') :
    ∃ slot, a.Accepts id slot a' := by
  rw [describe] at h
  split at h
  · cases h
  · rename_i hid
    split at h
    · cases h
    · split at h
      · cases h
      · exact queueOp_elim hid h

theorem get_accepts {state : SchemaState} (h : a.get id state = .ok a') :
    ∃ slot, a.Accepts id slot a' := by
  rw [get] at h
  split at h
  · cases h
  · rename_i hid
    split at h
    · cases h
    · split at h
      · cases h
      · exact queueOp_elim hid h

end Actor

namespace TxTable

/-- A transaction that is accepted takes the free slot. -/
structure Accepts (t : TxTable) (id : DeviceId) (changes : List ChangeRequest) (k : Tx)
    (t' : TxTable) : Prop where
  free : Directory.vacant Transaction.active t.txns = some k
  named : id.text ≠ []
  fresh : t.find id = none
  record : ∃ tx, t'.txns = Function.update t.txns k tx ∧ tx.active = true ∧ tx.deviceId = id ∧
    tx.changes = changes ∧ tx.state = .prevalidating ∧ tx.nextChangeIndex = 0

/-- What a refused save leaves of the transactions. -/
def Untouched (t t' : TxTable) : Prop :=
  ∀ k, (t.txns k).active = true ∨ (t'.txns k).active = true → t'.txns k = t.txns k

theorem untouched_free {t t' : TxTable} {k : Tx} {tx : Transaction}
    (hfree : (t.txns k).active = false) (ht : t'.txns = Function.update t.txns k tx)
    (htx : tx.active = false) : t.Untouched t' := by
  intro j hj
  rw [ht] at hj ⊢
  by_cases hjk : j = k
  · rw [hjk, Function.update_self, hfree, htx] at hj
    exact hj.elim (fun h => by cases h) fun h => by cases h
  · rw [Function.update_of_ne hjk]

variable {id : DeviceId}

/-- **A save** is accepted, or it leaves no trace in the transactions. -/
theorem save_cases {t : TxTable} {p : Protocol} {changes : List ChangeRequest}
    {expectedConfigRev : UInt32} {completion context : Ptr} {alloc posted : Bool} {r : SaveResult}
    (hr : t.save p id changes expectedConfigRev completion context alloc posted = r) :
    (∃ owner k, r.start = some owner ∧ posted = true ∧ t.Accepts id changes k r.table) ∨
      (r.start = none ∧ t.Untouched r.table) := by
  have hsame : t.Untouched t := fun _ _ => rfl
  rw [save] at hr
  split at hr
  · exact hr ▸ Or.inr ⟨rfl, hsame⟩
  · rename_i hid
    split at hr
    · exact hr ▸ Or.inr ⟨rfl, hsame⟩
    · split at hr
      · exact hr ▸ Or.inr ⟨rfl, hsame⟩
      · rename_i hfind
        split at hr
        · exact hr ▸ Or.inr ⟨rfl, hsame⟩
        · split at hr
          · exact hr ▸ Or.inr ⟨rfl, hsame⟩
          · split at hr
            · exact hr ▸ Or.inr ⟨rfl, hsame⟩
            · rename_i t' k halloc
              obtain ⟨k', hvacant, heq⟩ := Option.map_eq_some_iff.mp halloc
              obtain ⟨rfl, rfl⟩ := Prod.mk.inj heq
              have hfree := Directory.vacant_spec hvacant
              -- the slot has been taken, and is written again
              have hwrite (tx : Transaction) : Function.update
                  (Function.update t.txns k' { active := true }) k' tx =
                    Function.update t.txns k' tx := Function.update_idem ..
              dsimp only at hr
              split at hr
              · exact hr ▸ Or.inr ⟨rfl, untouched_free hfree (hwrite _) rfl⟩
              · split at hr
                · exact hr ▸ Or.inr ⟨rfl, untouched_free hfree (hwrite _) rfl⟩
                · split at hr
                  · exact hr ▸ Or.inr ⟨rfl, untouched_free hfree (hwrite _) rfl⟩
                  · rename_i hposted
                    refine hr ▸ Or.inl
                      ⟨_, k', rfl, by simpa using hposted, hvacant, hid, by simpa using hfind, ?_⟩
                    exact ⟨_, hwrite _, rfl, rfl, rfl, rfl, rfl⟩

end TxTable

/-- The answer that an event brings a transaction. -/
def ActorEvent.answer? : ActorEvent → Option (TxJob × DeviceCommandStatus)
  | .txCommandComplete _ result origin => some (origin, result.status)
  | _ => none

/-- Entries that are no request, no event and nothing that a transaction does. -/
def Entry.aside : Entry → Prop
  | .granted .. | .gone _ | .answered (.op _) _ => True
  | _ => False

namespace Worker

variable (w : Worker)

/-! ## Requests and the log -/

/-- The request for a lease that goes with an action. -/
def opLeases (serial : OpIx → Nat) : OpAction → List LeaseRequest
  | .acquire slot _ _ true => [.op (serial slot)]
  | _ => []

/-- The command that goes with an action. -/
def opJobs (serial : OpIx → Nat) : OpAction → List WorkerJob
  | .submit slot _ _ true => [.op (serial slot)]
  | _ => []

def txLeases : TxAction → List LeaseRequest
  | .acquire origin id _ true => [.tx ⟨id, origin⟩]
  | _ => []

def txJobs (serial : Tx → Nat) : TxAction → List WorkerJob
  | .submit slot command true => [.tx ⟨slot, serial slot, command⟩]
  | _ => []

theorem recordOp_spec (action : OpAction) : ∃ retry, w.recordOp action = { w with
    leases := w.leases ++ opLeases w.opSerial action
    jobs := w.jobs ++ opJobs w.opSerial action
    retry
    log := w.log ++ [w.opEntry action] } := by
  cases action with
  | acquire _ _ _ accepted | submit _ _ _ accepted =>
      refine ⟨w.retry, ?_⟩
      cases accepted <;> simp [recordOp, opLeases, opJobs]
  | armRetry slot =>
      refine ⟨some (w.opSerial slot), ?_⟩
      simp [recordOp, opLeases, opJobs]
  | cancelSource slot id owner | releaseLease slot lease | releaseStray lease
  | complete slot id result =>
      refine ⟨w.retry, ?_⟩
      simp [recordOp, opLeases, opJobs]

/-- What a function of the operations leaves behind. -/
theorem withOps_spec (r : Actor × List OpAction) : ∃ retry, w.withOps r = { w with
    actor := r.1
    leases := w.leases ++ r.2.flatMap (opLeases w.opSerial)
    jobs := w.jobs ++ r.2.flatMap (opJobs w.opSerial)
    retry
    log := w.log ++ r.2.map w.opEntry } := by
  obtain ⟨a, actions⟩ := r
  have hrecord : ∀ w : Worker, ∃ retry, actions.foldl recordOp w = { w with
      leases := w.leases ++ actions.flatMap (opLeases w.opSerial)
      jobs := w.jobs ++ actions.flatMap (opJobs w.opSerial)
      retry
      log := w.log ++ actions.map w.opEntry } := by
    induction actions with
    | nil =>
        intro w
        exact ⟨w.retry, by simp⟩
    | cons action actions ih =>
        intro w
        obtain ⟨retry, hone⟩ := w.recordOp_spec action
        obtain ⟨retry', ih⟩ := ih (w.recordOp action)
        refine ⟨retry', ?_⟩
        rw [List.foldl_cons, ih, hone, List.flatMap_cons, List.flatMap_cons, List.map_cons,
          ← List.append_assoc, ← List.append_assoc,
          List.append_cons w.log (w.opEntry action) (actions.map w.opEntry)]
        rfl
  exact hrecord { w with actor := a }

theorem recordTx_eq (action : TxAction) : w.recordTx action = { w with
    leases := w.leases ++ txLeases action
    jobs := w.jobs ++ txJobs w.txSerial action
    log := w.log ++ [w.txEntry action] } := by
  cases action with
  | acquire origin id owner accepted => cases accepted <;> simp [recordTx, txLeases, txJobs]
  | submit slot command accepted => cases accepted <;> simp [recordTx, txLeases, txJobs]
  | effect e | cancelSource slot id owner | begun slot lease | finished slot id result =>
      simp [recordTx, txLeases, txJobs]

/-- What a function of the transactions leaves behind. -/
theorem withTxs_eq (r : TxStep) : w.withTxs r = { w with
    store := r.1
    leases := w.leases ++ r.2.flatMap txLeases
    jobs := w.jobs ++ r.2.flatMap (txJobs w.txSerial)
    log := w.log ++ r.2.map w.txEntry } := by
  obtain ⟨s, actions⟩ := r
  have hrecord : ∀ w : Worker, actions.foldl recordTx w = { w with
      leases := w.leases ++ actions.flatMap txLeases
      jobs := w.jobs ++ actions.flatMap (txJobs w.txSerial)
      log := w.log ++ actions.map w.txEntry } := by
    induction actions with
    | nil =>
        intro w
        simp
    | cons action actions ih =>
        intro w
        rw [List.foldl_cons, ih, recordTx_eq, List.flatMap_cons, List.flatMap_cons, List.map_cons,
          ← List.append_assoc, ← List.append_assoc,
          List.append_cons w.log (w.txEntry action) (actions.map w.txEntry)]
        rfl
  exact hrecord { w with store := s }

/-! ## A round of the actor -/

/-- The event lets a transaction send its next command. -/
def turns : ActorEvent → Tx → Prop
  | .txLeaseResult generation owner ok lease _, k =>
      (generation = w.txGeneration ∧ owner = w.txOwner) ∧ (ok ∧ lease ≠ 0) ∧
        w.store.table.find w.txDevice = some k
  | .txCommandComplete id result _, k =>
      w.store.table.find id = some k ∧ result.status = .ok ∧ (w.store.tx k).state.goesOn = true
  | _, _ => False

instance (w : Worker) (event : ActorEvent) (k : Tx) : Decidable (w.turns event k) := by
  cases event <;> unfold turns <;> infer_instance

/-- **What the transactions do** in a round of the actor is put together from moves. -/
theorem txRound_moves (acquired submitted armed : Bool) (event : ActorEvent) :
    Transactions.Moves (w.turns event) w.store (w.txRound acquired submitted armed event) := by
  cases event with
  | txLeaseResult generation owner ok lease origin =>
      rw [txRound]
      split
      · rename_i hcookie
        split
        · rename_i hok
          exact Transactions.actorBegin_moves _ _ _ fun k hk => ⟨hcookie, hok, hk⟩
        · exact Transactions.actorAbort_moves _
      · exact Transactions.releaseStray_moves lease
  | txCommandComplete id result origin =>
      exact Transactions.commandComplete_moves _ _ fun k hk hstatus hgoes => ⟨hk, hstatus, hgoes⟩
  | transactionStart id generation owner origin =>
      rw [txRound]
      refine .next (.say fun a ha => ?_) ?_
      · obtain rfl := List.mem_singleton.mp ha
        trivial
      · cases acquired with
        | true => exact .stay
        | false => exact Transactions.actorAbort_moves id
  | transactionAbort id => exact Transactions.actorAbort_moves id
  | transactionTimeout id => exact Transactions.actorTimeout_moves id
  | disconnected id => exact Transactions.actorDisconnect_moves id armed
  | cancelDevice id => exact Transactions.actorAbort_moves id
  | forgetDevice id => exact Transactions.actorAbort_moves id
  | startOperation | leaseResult cookie ok lease origin | commandComplete cookie status origin
  | valuesStreamComplete id success | retryTimer cookie origin => exact .stay

/-- **A round of the actor**: the event, what the operations do, what the transactions do. -/
theorem handleEvent_spec (acquired submitted armed : Bool) (event : ActorEvent) :
    ∃ retry, w.handleEvent acquired submitted armed event = { w.prepare event with
        store := (w.txRound acquired submitted armed event).1
        actor := (w.actor.handle acquired submitted event).1
        leases := w.leases ++ (w.actor.handle acquired submitted event).2.flatMap
          (opLeases w.opSerial) ++ (w.txRound acquired submitted armed event).2.flatMap txLeases
        jobs := w.jobs ++ (w.actor.handle acquired submitted event).2.flatMap
          (opJobs w.opSerial) ++
          (w.txRound acquired submitted armed event).2.flatMap (txJobs w.txSerial)
        retry
        log := w.log ++ [.handled event] ++
          (w.actor.handle acquired submitted event).2.map w.opEntry ++
          (w.txRound acquired submitted armed event).2.map w.txEntry } := by
  obtain ⟨retry, hops⟩ := withOps_spec { w with log := w.log ++ [.handled event] }
    (w.actor.handle acquired submitted event)
  refine ⟨retry, ?_⟩
  rw [handleEvent, hops, handleTx, withTxs_eq]
  cases event <;> rfl

/-! ## Steps -/

variable {w} {w' : Worker}

/-- A transaction that goes on is there. -/
theorem active_of_turns {event : ActorEvent} {k : Tx} (hturn : w.turns event k) :
    (w.store.tx k).active = true := by
  have hfind {id : DeviceId} (hfind : w.store.table.find id = some k) :
      (w.store.tx k).active = true := by
    rw [TxTable.find] at hfind
    split at hfind
    · cases hfind
    · exact (Directory.lookup_spec hfind).1
  cases event with
  | txLeaseResult generation owner ok lease origin => exact hfind hturn.2.2
  | txCommandComplete id result origin => exact hfind hturn.1
  | _ => exact hturn.elim

/-- A call under way does its next thing. -/
theorem step_proceed {call : Nat} {locked : Bool} (h : w.step (.proceed call locked) = some w') :
    ∃ rest more, w.calls[call]? = some (rest :: more) ∧ w' = { (w.perform locked rest).1 with
      calls := (w.perform locked rest).1.calls.set call ((w.perform locked rest).2 ++ more) } := by
  unfold step at h
  dsimp only at h
  generalize hcall : w.calls[call]? = todo at h
  cases todo with
  | none => cases h
  | some rests =>
      cases rests with
      | nil => cases h
      | cons rest more => exact ⟨rest, more, rfl, (Option.some.inj h).symm⟩

/-- The actor takes the first event of its queue. -/
theorem step_actor {acquired submitted armed : Bool}
    (h : w.step (.actor acquired submitted armed) = some w') :
    ∃ event rest, w.actor.events = event :: rest ∧
      w' = handleEvent { w with actor := { w.actor with events := rest } }
        acquired submitted armed event := by
  unfold step at h
  dsimp only at h
  generalize hevents : w.actor.events = events at h
  cases events with
  | nil => cases h
  | cons event rest => exact ⟨event, rest, rfl, (Option.some.inj h).symm⟩

/-- The operations, the transactions and their numbers are as before. -/
structure SameWork (w w' : Worker) : Prop where
  ops : w'.actor.ops = w.actor.ops
  active : w'.actor.active = w.actor.active
  table : w.store.table.Untouched w'.store.table
  opSerial : w'.opSerial = w.opSerial
  txSerial : w'.txSerial = w.txSerial
  clock : w'.clock = w.clock

/-- **What a step can do.** -/
inductive Stepped (w : Worker) : Act → Worker → Prop
  | quiet {l : Act} {w' : Worker} (same : w.SameWork w') (jobs : w'.jobs.Sublist w.jobs)
      (events : ∃ more, w'.actor.events = w.actor.events ++ more ∧ ∀ e ∈ more, e.answer? = none)
      (log : ∃ entries, w'.log = w.log ++ entries ∧ ∀ e ∈ entries, e.aside) : Stepped w l w'
  | answered {l : Act} {w' : Worker} (n : Nat) (job : TxJob) (status : DeviceCommandStatus)
      (same : w.SameWork w') (found : w.jobs[n]? = some (.tx job))
      (jobs : w'.jobs = w.jobs.eraseIdx n)
      (events : ∃ more, w'.actor.events = w.actor.events ++ more ∧
        ∀ e ∈ more, e.answer? = some (job, status))
      (log : w'.log = w.log ++ [.answered (.tx job) status]) : Stepped w l w'
  | requested {l : Act} {w' : Worker} (id : DeviceId) (slot : OpIx)
      (accepts : w.actor.Accepts id slot w'.actor) (store : w'.store = w.store)
      (opSerial : w'.opSerial = Function.update w.opSerial slot w.clock)
      (txSerial : w'.txSerial = w.txSerial) (clock : w'.clock = w.clock + 1)
      (jobs : w'.jobs = w.jobs) (log : w'.log = w.log ++ [.opRequested w.clock id]) :
      Stepped w l w'
  | saved {l : Act} {w' : Worker} (id : DeviceId) (changes : List ChangeRequest) (k : Tx)
      (accepts : w.store.table.Accepts id changes k w'.store.table)
      (ops : w'.actor.ops = w.actor.ops) (active : w'.actor.active = w.actor.active)
      (events : ∃ more, w'.actor.events = w.actor.events ++ more ∧ ∀ e ∈ more, e.answer? = none)
      (opSerial : w'.opSerial = w.opSerial)
      (txSerial : w'.txSerial = Function.update w.txSerial k w.clock)
      (clock : w'.clock = w.clock + 1) (jobs : w'.jobs = w.jobs)
      (log : w'.log = w.log ++ [.txRequested w.clock id changes.length]) : Stepped w l w'
  | moved {l : Act} {w' : Worker} (r : TxStep)
      (moves : Transactions.Moves (fun _ => False) w.store r)
      (store : w'.store = r.1) (actor : w'.actor = w.actor) (opSerial : w'.opSerial = w.opSerial)
      (txSerial : w'.txSerial = w.txSerial) (clock : w'.clock = w.clock)
      (jobs : w'.jobs = w.jobs ++ r.2.flatMap (txJobs w.txSerial))
      (log : w'.log = w.log ++ r.2.map w.txEntry) : Stepped w l w'
  | round {w' : Worker} (acquired submitted armed : Bool) (event : ActorEvent)
      (rest : List ActorEvent) (r : TxStep) (events : w.actor.events = event :: rest)
      (did : w.txRound acquired submitted armed event = r)
      (moves : Transactions.Moves (w.turns event) w.store r) (store : w'.store = r.1)
      (actor : w'.actor =
        ({ w.actor with events := rest }.handle acquired submitted event).1)
      (opSerial : w'.opSerial = w.opSerial) (txSerial : w'.txSerial = w.txSerial)
      (clock : w'.clock = w.clock)
      (jobs : w'.jobs = w.jobs ++ ({ w.actor with events := rest }.handle acquired submitted
        event).2.flatMap (opJobs w.opSerial) ++ r.2.flatMap (txJobs w.txSerial))
      (log : w'.log = w.log ++ [.handled event] ++ ({ w.actor with events := rest }.handle acquired
        submitted event).2.map w.opEntry ++ r.2.map w.txEntry) :
      Stepped w (.actor acquired submitted armed) w'

variable {l : Act} {id : DeviceId}

theorem Stepped.stay (h : w'.store.table = w.store.table) (hactor : w'.actor = w.actor)
    (hserial : w'.opSerial = w.opSerial ∧ w'.txSerial = w.txSerial ∧ w'.clock = w.clock)
    (hjobs : w'.jobs = w.jobs)
    (hlog : ∃ entries, w'.log = w.log ++ entries ∧ ∀ e ∈ entries, Entry.aside e) : w.Stepped l w' :=
  .quiet ⟨hactor ▸ rfl, hactor ▸ rfl, fun _ _ => h ▸ rfl, hserial.1, hserial.2.1, hserial.2.2⟩
    (hjobs ▸ List.Sublist.refl _) ⟨[], by rw [hactor, List.append_nil], fun e he => by cases he⟩
      hlog

/-- The calls under way do not matter. -/
theorem Stepped.withCalls (h : w.Stepped l w') (calls : List (List Rest)) :
    w.Stepped l { w' with calls } := by
  cases h with
  | quiet same jobs events log =>
      exact .quiet ⟨same.ops, same.active, same.table, same.opSerial, same.txSerial, same.clock⟩
        jobs events log
  | answered n job status same found jobs events log =>
      exact .answered n job status
        ⟨same.ops, same.active, same.table, same.opSerial, same.txSerial, same.clock⟩
        found jobs events log
  | requested id slot accepts store opSerial txSerial clock jobs log =>
      exact .requested id slot accepts store opSerial txSerial clock jobs log
  | saved id changes k accepts ops active events opSerial txSerial clock jobs log =>
      exact .saved id changes k accepts ops active events opSerial txSerial clock jobs log
  | moved r moves store actor opSerial txSerial clock jobs log =>
      exact .moved r moves store actor opSerial txSerial clock jobs log
  | round acquired submitted armed event rest r events did moves store actor opSerial txSerial
      clock jobs log =>
      exact .round acquired submitted armed event rest r events did moves store actor opSerial
        txSerial clock jobs log

theorem post_stepped (event : ActorEvent) (hevent : event.answer? = none)
    (hactor : w'.actor = w.actor.post event) (hstore : w'.store.table = w.store.table)
    (hserial : w'.opSerial = w.opSerial ∧ w'.txSerial = w.txSerial ∧ w'.clock = w.clock)
    (hjobs : w'.jobs.Sublist w.jobs)
    (hlog : ∃ entries, w'.log = w.log ++ entries ∧ ∀ e ∈ entries, Entry.aside e) :
    w.Stepped l w' := by
  obtain ⟨more, hevents, hmore⟩ := w.actor.post_events event
  refine .quiet ⟨?_, ?_, fun _ _ => hstore ▸ rfl, hserial.1, hserial.2.1, hserial.2.2⟩ hjobs
    ⟨more, ?_, fun e he => hmore e he ▸ hevent⟩ hlog
  · rw [hactor, Actor.post_ops]
  · rw [hactor, Actor.post_active]
  · rw [hactor, hevents]

theorem request_stepped {r : Except EspErr Actor}
    (hr : ∀ a, r = .ok a → ∃ slot, w.actor.Accepts id slot a) :
    w.Stepped l (w.request id r) := by
  have hnothing : w.Stepped l w := .stay rfl rfl ⟨rfl, rfl, rfl⟩ rfl
    ⟨[], (List.append_nil _).symm, fun e he => by cases he⟩
  cases r with
  | error e => exact hnothing
  | ok a =>
      obtain ⟨slot, haccepts⟩ := hr a rfl
      have hfree := haccepts.free
      unfold request
      generalize w.actor.freeOp = free at hfree
      rw [hfree]
      exact .requested id slot haccepts rfl rfl rfl rfl rfl rfl

theorem perform_stepped (locked : Bool) (rest : Rest)
    (hrest : ∀ event, rest = .post event → event.answer? = none) :
    w.Stepped l (w.perform locked rest).1 := by
  have hnone : ∃ entries, w.log = w.log ++ entries ∧ ∀ e ∈ entries, Entry.aside e :=
    ⟨[], (List.append_nil _).symm, fun e he => by cases he⟩
  have hnothing : w.Stepped l w := .stay rfl rfl ⟨rfl, rfl, rfl⟩ rfl hnone
  cases rest with
  | post event =>
      exact post_stepped event (hrest event rfl) rfl rfl ⟨rfl, rfl, rfl⟩ (List.Sublist.refl _) hnone
  | cancel id =>
      rcases w.actor.cancel_eq id with hsame | hpost
      · exact .stay rfl hsame ⟨rfl, rfl, rfl⟩ rfl hnone
      · exact post_stepped (.cancelDevice id) rfl hpost rfl ⟨rfl, rfl, rfl⟩
          (List.Sublist.refl _) hnone
  | txCancel id =>
      rw [perform]
      split
      · exact post_stepped (.transactionAbort id) rfl rfl rfl ⟨rfl, rfl, rfl⟩
          (List.Sublist.refl _) hnone
      · exact hnothing
  | purge id =>
      rw [perform]
      split
      · exact .stay rfl rfl ⟨rfl, rfl, rfl⟩ rfl hnone
      · exact hnothing
  | describe id => exact request_stepped fun _ h => Actor.describe_accepts h
  | get id => exact request_stepped fun _ h => Actor.get_accepts h
  | reconcile id =>
      exact .moved _ (Transactions.reconcileBegin_moves id locked) rfl rfl rfl rfl rfl
        (List.append_nil _).symm (List.append_nil _).symm
  | resolve res =>
      rw [perform, withTxs_eq]
      exact .moved _ (Transactions.reconcileEnd_moves res) rfl rfl rfl rfl rfl rfl rfl

/-- What is still to be posted brings no transaction an answer. -/
def CallsPlain (w : Worker) : Prop :=
  ∀ call ∈ w.calls, ∀ rest ∈ call, ∀ event, rest = .post event → event.answer? = none

theorem rest?_plain {e : Effect} {rest : Rest} (h : e.rest? = some rest) (event : ActorEvent)
    (hpost : rest = .post event) : event.answer? = none := by
  rw [hpost] at h
  cases e with
  | valuesComplete | workerDisconnect =>
      cases h
      rfl
  | _ => cases h

theorem rest?_plain_all (effects : List Effect) {more : List Rest}
    (hmore : ∀ rest ∈ more, ∀ event, rest ≠ .post event) :
    ∀ rest ∈ effects.filterMap Effect.rest? ++ more, ∀ event, rest = .post event →
      event.answer? = none := by
  intro rest hrest event hpost
  rcases List.mem_append.mp hrest with heffect | hmem
  · obtain ⟨e, -, he⟩ := List.mem_filterMap.mp heffect
    exact rest?_plain he event hpost
  · exact absurd hpost (hmore rest hmem event)

/-- **The step lemma** of the component. -/
theorem step_cases (hcalls : w.CallsPlain) (hstep : w.step l = some w') :
    w.Stepped l w' := by
  have hnone : ∃ entries, w.log = w.log ++ entries ∧ ∀ e ∈ entries, Entry.aside e :=
    ⟨[], (List.append_nil _).symm, fun e he => by cases he⟩
  have hone {e : Entry} (he : e.aside) :
      ∃ entries, w.log ++ [e] = w.log ++ entries ∧ ∀ e ∈ entries, Entry.aside e :=
    ⟨[e], rfl, fun e' he' => List.mem_singleton.mp he' ▸ he⟩
  have hnothing : w.Stepped l w := .stay rfl rfl ⟨rfl, rfl, rfl⟩ rfl hnone
  cases l with
  | notify | capability | reconcile =>
      cases hstep
      exact .stay rfl rfl ⟨rfl, rfl, rfl⟩ rfl hnone
  | disconnect | forget =>
      rw [step] at hstep
      split at hstep <;> cases hstep
      · exact hnothing
      · exact .stay rfl rfl ⟨rfl, rfl, rfl⟩ rfl (hone trivial)
  | describe id =>
      cases hstep
      exact request_stepped fun _ h => Actor.describe_accepts h
  | get id =>
      cases hstep
      exact request_stepped fun _ h => Actor.get_accepts h
  | cancel id =>
      cases hstep
      exact perform_stepped true (.cancel id) fun _ h => by cases h
  | save id changes expectedConfigRev completion context alloc =>
      cases hstep
      rw [save]
      generalize hr : w.store.table.save w.store.protocol id changes expectedConfigRev completion
        context alloc (decide (w.actor.events.length < DS_EVENT_QUEUE_LEN)) = r
      rcases TxTable.save_cases hr with ⟨owner, k, hstart, -, haccepts⟩ | ⟨hstart, htable⟩
      · dsimp only
        rw [hstart, haccepts.free]
        obtain ⟨more, hevents, hmore⟩ :=
          w.actor.post_events (.transactionStart id owner owner w.clock)
        exact .saved id changes k haccepts (Actor.post_ops ..) (Actor.post_active ..)
          ⟨more, hevents, fun e he => hmore e he ▸ rfl⟩ rfl rfl rfl rfl rfl
      · dsimp only
        rw [hstart]
        exact .quiet ⟨rfl, rfl, htable, rfl, rfl, rfl⟩ (List.Sublist.refl _)
          ⟨[], (List.append_nil _).symm, fun e he => by cases he⟩ hnone
  | txCancel id =>
      cases hstep
      exact perform_stepped true (.txCancel id) fun _ h => by cases h
  | proceed call locked =>
      obtain ⟨rest, more, hcall, rfl⟩ := step_proceed hstep
      have hmem := List.mem_of_getElem? hcall
      exact (perform_stepped locked rest (hcalls _ hmem rest List.mem_cons_self)).withCalls _
  | leaseDone n ok lease =>
      obtain ⟨request, -, rfl⟩ := Option.map_eq_some_iff.mp hstep
      cases request with
      | op serial =>
          exact post_stepped (.leaseResult w.actor.cookie ok lease serial) rfl rfl rfl
            ⟨rfl, rfl, rfl⟩ (List.Sublist.refl _) (hone trivial)
      | tx request =>
          exact post_stepped (.txLeaseResult w.txGeneration w.txOwner ok lease request) rfl
            rfl rfl ⟨rfl, rfl, rfl⟩ (List.Sublist.refl _) (hone trivial)
  | jobDone n result =>
      obtain ⟨job, hfound, rfl⟩ := Option.map_eq_some_iff.mp hstep
      cases job with
      | op serial =>
          exact post_stepped (.commandComplete w.actor.cookie result.status serial) rfl rfl
            rfl ⟨rfl, rfl, rfl⟩ (List.eraseIdx_sublist ..) (hone trivial)
      | tx job =>
          obtain ⟨more, hevents, hmore⟩ := w.actor.post_events
            (.txCommandComplete (w.store.tx job.slot).deviceId result job)
          exact .answered n job result.status
            ⟨Actor.post_ops .., Actor.post_active .., fun _ _ => rfl, rfl, rfl, rfl⟩ hfound rfl
            ⟨more, hevents, fun e he => hmore e he ▸ rfl⟩ rfl
  | retryTimer =>
      obtain ⟨serial, -, rfl⟩ := Option.map_eq_some_iff.mp hstep
      exact post_stepped (.retryTimer w.actor.cookie serial) rfl rfl rfl ⟨rfl, rfl, rfl⟩
        (List.Sublist.refl _) hnone
  | reconTimer slot =>
      obtain ⟨-, ⟨⟩⟩ := Option.ite_none_right_eq_some.mp hstep
      split
      · exact post_stepped (.transactionTimeout (w.store.tx slot).deviceId) rfl rfl rfl
          ⟨rfl, rfl, rfl⟩ (List.Sublist.refl _) hnone
      · exact hnothing
  | actor acquired submitted armed =>
      obtain ⟨event, rest, hevents, rfl⟩ := step_actor hstep
      obtain ⟨retry, heq⟩ := handleEvent_spec
        { w with actor := { w.actor with events := rest } } acquired submitted armed event
      have hprepare (w : Worker) : (w.prepare event).opSerial = w.opSerial ∧
          (w.prepare event).txSerial = w.txSerial ∧ (w.prepare event).clock = w.clock := by
        cases event <;> exact ⟨rfl, rfl, rfl⟩
      rw [heq]
      exact .round acquired submitted armed event rest _ hevents rfl
        (txRound_moves _ acquired submitted armed event) rfl rfl (hprepare _).1 (hprepare _).2.1
        (hprepare _).2.2 rfl rfl

/-! ## Calls under way -/

theorem request_calls (id : DeviceId) (r : Except EspErr Actor) :
    (w.request id r).calls = w.calls := by
  unfold request
  cases r with
  | error e => rfl
  | ok a => cases w.actor.freeOp <;> rfl

theorem perform_calls (locked : Bool) (rest : Rest) :
    (w.perform locked rest).1.calls = w.calls := by
  cases rest with
  | post | cancel | reconcile => rfl
  | txCancel | purge =>
      rw [perform]
      split <;> rfl
  | describe id | get id => exact request_calls id _
  | resolve res =>
      rw [perform, withTxs_eq]

theorem perform_found {locked : Bool} {rest found : Rest} (h : found ∈ (w.perform locked rest).2) :
    ∀ event, found ≠ .post event := by
  intro event heq
  cases rest with
  | reconcile id =>
      obtain ⟨res, -, rfl⟩ := Option.map_eq_some_iff.mp (Option.mem_toList.mp h)
      cases heq
  | _ => cases h

theorem step_callsPlain (h : w.CallsPlain) (hstep : w.step l = some w') : w'.CallsPlain := by
  have hsame {w' : Worker} (hcalls : w'.calls = w.calls) : w'.CallsPlain := by
    rw [CallsPlain, hcalls]
    exact h
  have hadd {w' : Worker} {call : List Rest} (hcalls : w'.calls = w.calls ++ [call])
      (hcall : ∀ rest ∈ call, ∀ event, rest = .post event → event.answer? = none) :
      w'.CallsPlain := by
    rw [CallsPlain, hcalls]
    intro call' hmem
    rcases List.mem_append.mp hmem with hold | hnew
    · exact h call' hold
    · exact List.mem_singleton.mp hnew ▸ hcall
  cases l with
  | notify | capability =>
      cases hstep
      exact hadd rfl (rest?_plain_all _ fun _ hmem => by cases hmem)
  | disconnect id locked =>
      rw [step] at hstep
      split at hstep <;> cases hstep
      · exact h
      · exact hadd rfl (rest?_plain_all _ fun _ hmem => by cases hmem)
  | forget id locked =>
      rw [step] at hstep
      split at hstep <;> cases hstep
      · exact h
      · exact hadd rfl (rest?_plain_all _ (by simp))
  | describe id =>
      cases hstep
      exact hsame (perform_calls true (.describe id))
  | get id =>
      cases hstep
      exact hsame (perform_calls true (.get id))
  | cancel id =>
      cases hstep
      exact hsame rfl
  | save id changes expectedConfigRev completion context alloc =>
      cases hstep
      rw [save]
      dsimp only
      split <;> exact hsame rfl
  | txCancel id =>
      cases hstep
      exact hsame (perform_calls true (.txCancel id))
  | reconcile id =>
      cases hstep
      exact hadd rfl (by simp)
  | proceed call locked =>
      obtain ⟨rest, more, hcall, rfl⟩ := step_proceed hstep
      intro call' hmem
      rw [perform_calls] at hmem
      rcases List.mem_or_eq_of_mem_set hmem with hold | heq
      · exact h call' hold
      · rw [heq]
        intro rest' hrest'
        rcases List.mem_append.mp hrest' with hfound | hmore
        · exact fun event heq => absurd heq (perform_found hfound event)
        · exact h _ (List.mem_of_getElem? hcall) rest' (List.mem_cons_of_mem rest hmore)
  | leaseDone n ok lease =>
      obtain ⟨request, -, rfl⟩ := Option.map_eq_some_iff.mp hstep
      cases request <;> exact hsame rfl
  | jobDone n result =>
      obtain ⟨job, -, rfl⟩ := Option.map_eq_some_iff.mp hstep
      cases job <;> exact hsame rfl
  | retryTimer =>
      obtain ⟨serial, -, rfl⟩ := Option.map_eq_some_iff.mp hstep
      exact hsame rfl
  | reconTimer slot =>
      obtain ⟨-, ⟨⟩⟩ := Option.ite_none_right_eq_some.mp hstep
      split
      · exact hsame rfl
      · exact h
  | actor acquired submitted armed =>
      obtain ⟨event, rest, -, rfl⟩ := step_actor hstep
      obtain ⟨retry, heq⟩ := handleEvent_spec
        { w with actor := { w.actor with events := rest } } acquired submitted armed event
      rw [heq]
      refine hsame ?_
      cases event <;> rfl

end Worker

end BleGateway.Settings
