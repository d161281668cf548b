import Mathlib
import BleGateway.Settings.Script
import BleGateway.Settings.Status

/-! # The order of the commands of a transaction

What the log says of the commands of a transaction is a beginning of its script. An answer of the
scheduler is looked up by the device when it is taken from the queue, so it may find a transaction
that did not ask for it.
-/

namespace BleGateway.Settings

/-- What an entry of the log says of the commands of the transaction with the number. -/
def Entry.mark? (n : Nat) : Entry → Option Mark
  | .tx serial (.submit _ command _) => if serial = n then some (.submitted command) else none
  | .answered (.tx job) .ok => if job.serial = n then some (.acked job.command) else none
  | _ => none

/-- The commands of the transaction with the number, and their acknowledgements. -/
def trace (log : List Entry) (n : Nat) : List Mark := log.filterMap (Entry.mark? n)

theorem trace_append (log more : List Entry) (n : Nat) :
    trace (log ++ more) n = trace log n ++ trace more n := List.filterMap_append ..

variable {n : Nat}

theorem trace_silent {entries : List Entry} (h : ∀ e ∈ entries, e.mark? n = none) :
    trace entries n = [] := List.filterMap_eq_nil_iff.mpr h

theorem Entry.aside.silent {e : Entry} (h : e.aside) (n : Nat) : e.mark? n = none := by
  cases e with
  | answered job status =>
      cases job with
      | op serial => rfl
      | tx job => exact h.elim
  | opRequested serial id | txRequested serial id m | handled event | op serial action
  | tx serial action => exact h.elim
  | granted request lease | gone id => rfl

def WorkerJob.tx? : WorkerJob → Option TxJob
  | .op _ => none
  | .tx job => some job

/-- The commands of transactions that the scheduler holds. -/
def openJobs (jobs : List WorkerJob) : List TxJob := jobs.filterMap WorkerJob.tx?

theorem openJobs_append (jobs more : List WorkerJob) :
    openJobs (jobs ++ more) = openJobs jobs ++ openJobs more := List.filterMap_append ..

/-- The scheduler gives a command back. -/
theorem openJobs_eraseIdx {jobs : List WorkerJob} {job : TxJob} (h : jobs[n]? = some (.tx job)) :
    ∃ x y, openJobs jobs = x ++ job :: y ∧
      openJobs (jobs.eraseIdx n) = x ++ y := by
  obtain ⟨hn, hjob⟩ := List.getElem?_eq_some_iff.mp h
  refine ⟨openJobs (jobs.take n), openJobs (jobs.drop (n + 1)), ?_, ?_⟩
  · calc openJobs jobs
        = openJobs (jobs.take n ++ .tx job :: jobs.drop (n + 1)) := by
          rw [← hjob, ← List.drop_eq_getElem_cons hn, List.take_append_drop]
      _ = openJobs (jobs.take n) ++ job :: openJobs (jobs.drop (n + 1)) := openJobs_append ..
  · rw [List.eraseIdx_eq_take_drop_succ, openJobs_append]

/-- How a transaction stands to what the log says of it. -/
structure Transaction.At (tx : Transaction) (t : List Mark) : Prop where
  placed : tx.Placed
  fresh : tx.state = .prevalidating → t = []
  latest :
    ∀ c, tx.current = some c → t.getLast? = some (.submitted c) ∨ t.getLast? = some (.acked c)

theorem Transaction.At.stays {tx tx' : Transaction} {t : List Mark} (h : tx.At t)
    (hsame : tx.Same tx') (hstays : tx.Stays tx') : tx'.At t := by
  refine ⟨hstays.placed hsame h.placed, fun hstate => ?_, fun c hc => ?_⟩
  · rcases hstays with hkept | hover
    · exact h.fresh (hkept.1.symm.trans hstate)
    · rw [hstate] at hover
      cases hover
  · rcases hstays.current with hkept | hnone
    · exact h.latest c (hkept.symm.trans hc)
    · rw [hnone.1] at hc
      cases hc

namespace Worker

/-- What the log says of the commands of each transaction is a beginning of its script. -/
def InOrder (w : Worker) : Prop :=
  ∀ n id m, .txRequested n id m ∈ w.log → trace w.log n <+: script m

/-- What goes with it. -/
structure Ordered (w : Worker) : Prop where
  order : w.InOrder
  known : ∀ n, trace w.log n ≠ [] → ∃ id m, .txRequested n id m ∈ w.log
  stands : ∀ k, (w.store.tx k).active = true → (w.store.tx k).At (trace w.log (w.txSerial k))
  awaits :
    ∀ job ∈ openJobs w.jobs, (trace w.log job.serial).getLast? = some (.submitted job.command)
  apart : ((openJobs w.jobs).map (·.serial)).Nodup
  heard : ∀ e ∈ w.actor.events, ∀ job, e.answer? = some (job, .ok) →
    .acked job.command ∈ trace w.log job.serial

variable {w w' : Worker}

/-! ## Steps without a command -/

/-- Nothing is said of any transaction. -/
theorem Ordered.frame (h : w.Ordered) (htrace : ∀ n, trace w'.log n = trace w.log n)
    (hkept : ∀ n id m, .txRequested n id m ∈ w.log → .txRequested n id m ∈ w'.log)
    (hasked :
      ∀ n id m, .txRequested n id m ∈ w'.log → .txRequested n id m ∈ w.log ∨ trace w.log n = [])
    (hstands :
      ∀ k, (w'.store.tx k).active = true → (w'.store.tx k).At (trace w.log (w'.txSerial k)))
    (hjobs : (openJobs w'.jobs).Sublist (openJobs w.jobs))
    (hevents : ∀ e ∈ w'.actor.events, ∀ job, e.answer? = some (job, .ok) → e ∈ w.actor.events) :
    w'.Ordered := by
  refine ⟨fun n id m hn => ?_, fun n hn => ?_, fun k hk => ?_, fun job hjob => ?_, ?_,
    fun e he job hanswer => ?_⟩
  · rw [htrace]
    rcases hasked n id m hn with hold | hnone
    · exact h.order n id m hold
    · rw [hnone]
      exact List.nil_prefix
  · rw [htrace] at hn
    obtain ⟨id, m, hmem⟩ := h.known n hn
    exact ⟨id, m, hkept n id m hmem⟩
  · rw [htrace]
    exact hstands k hk
  · rw [htrace]
    exact h.awaits job (hjobs.subset hjob)
  · exact (hjobs.map _).nodup h.apart
  · rw [htrace]
    exact h.heard e (hevents e he job hanswer) job hanswer

/-! ## An acknowledgement -/

/-- The scheduler acknowledges a command. -/
theorem Ordered.acknowledge (h : w.Ordered) {job : TxJob} (hsame : w.SameWork w')
    (hfound : w.jobs[n]? = some (.tx job)) (hjobs : w'.jobs = w.jobs.eraseIdx n)
    (hevents :
      ∃ more, w'.actor.events = w.actor.events ++ more ∧ ∀ e ∈ more, e.answer? = some (job, .ok))
    (hlog : w'.log = w.log ++ [.answered (.tx job) .ok]) : w'.Ordered := by
  have hself : trace w'.log job.serial = trace w.log job.serial ++ [.acked job.command] := by
    rw [hlog, trace_append]
    refine congrArg (trace w.log job.serial ++ ·) ?_
    simp [trace, Entry.mark?]
  have hother {serial : Nat} (hne : serial ≠ job.serial) :
      trace w'.log serial = trace w.log serial := by
    rw [hlog, trace_append]
    refine (congrArg (trace w.log serial ++ ·) (trace_silent fun e he => ?_)).trans
      (List.append_nil _)
    rw [List.mem_singleton.mp he]
    exact if_neg hne.symm
  have hmore (serial : Nat) : trace w.log serial <+: trace w'.log serial := by
    rw [hlog, trace_append]
    exact List.prefix_append ..
  have hasked {n : Nat} {id : DeviceId} {m : Nat} :
      .txRequested n id m ∈ w'.log ↔ .txRequested n id m ∈ w.log := by
    rw [hlog, List.mem_append]
    exact ⟨fun h => h.resolve_right (by simp), Or.inl⟩
  -- the command is the last one of its transaction, and its transaction has no other open
  obtain ⟨x, y, hopen, herased⟩ := openJobs_eraseIdx hfound
  have hlast := h.awaits job (hopen ▸ List.mem_append_right x List.mem_cons_self)
  have hrest : ∀ job' ∈ openJobs w'.jobs, job' ∈ openJobs w.jobs ∧ job'.serial ≠ job.serial := by
    intro job' hjob'
    rw [hjobs, herased] at hjob'
    have hapart := h.apart
    rw [hopen, List.map_append, List.map_cons] at hapart
    have hnot := (List.nodup_middle.mp hapart) |> List.nodup_cons.mp |>.1
    rw [hopen]
    refine ⟨?_, fun heq => hnot ?_⟩
    · rw [List.mem_append, List.mem_cons]
      exact (List.mem_append.mp hjob').imp_right Or.inr
    · rw [← List.map_append, ← heq]
      exact List.mem_map_of_mem hjob'
  refine ⟨fun n id m hn => ?_, fun n hn => ?_, fun k hk => ?_, fun job' hjob' => ?_, ?_,
    fun e he job' hanswer => ?_⟩
  · have hbefore := h.order n id m (hasked.mp hn)
    by_cases hself' : n = job.serial
    · rw [hself', hself]
      exact prefix_ack (hself' ▸ hbefore) hlast
    · rw [hother hself']
      exact hbefore
  · by_cases hself' : n = job.serial
    · have hsome : trace w.log job.serial ≠ [] := fun hnil => by
        rw [hnil] at hlast
        cases hlast
      obtain ⟨id, m, hmem⟩ := h.known _ hsome
      exact ⟨id, m, hself' ▸ hasked.mpr hmem⟩
    · rw [hother hself'] at hn
      obtain ⟨id, m, hmem⟩ := h.known n hn
      exact ⟨id, m, hasked.mpr hmem⟩
  · have hsame' : w'.store.tx k = w.store.tx k := hsame.table k (Or.inr hk)
    rw [hsame'] at hk ⊢
    have hstands := h.stands k hk
    rw [hsame.txSerial]
    by_cases hself' : w.txSerial k = job.serial
    · rw [hself'] at hstands ⊢
      refine ⟨hstands.placed, fun hstate => ?_, fun c hc => ?_⟩
      · rw [hstands.fresh hstate] at hlast
        cases hlast
      · -- what was submitted last is what is acknowledged
        rw [hself, List.getLast?_concat]
        rcases hstands.latest c hc with hsubmitted | hacked
        · obtain rfl := Mark.submitted.inj (Option.some.inj (hsubmitted.symm.trans hlast))
          exact Or.inr rfl
        · cases hacked.symm.trans hlast
    · rw [hother hself']
      exact hstands
  · obtain ⟨hjob', hne⟩ := hrest job' hjob'
    rw [hother hne]
    exact h.awaits job' hjob'
  · rw [hjobs, herased]
    have hapart := h.apart
    rw [hopen, List.map_append, List.map_cons] at hapart
    rw [List.map_append]
    exact (List.nodup_middle.mp hapart) |> List.nodup_cons.mp |>.2
  · obtain ⟨more, hevents, hmore'⟩ := hevents
    rw [hevents] at he
    rcases List.mem_append.mp he with hold | hnew
    · exact (hmore _).subset (h.heard e hold job' hanswer)
    · obtain ⟨rfl, -⟩ := Prod.mk.inj (Option.some.inj ((hmore' e hnew).symm.trans hanswer))
      rw [hself]
      exact List.mem_append_right _ List.mem_cons_self

/-! ## A command -/

theorem trace_txEntries (w : Worker) (actions : List TxAction) (n : Nat) :
    trace (actions.map w.txEntry) n = (sent actions).filterMap fun s =>
      if w.txSerial s.1 = n then some (.submitted s.2.1) else none := by
  rw [trace, sent, List.filterMap_map, List.filterMap_filterMap]
  refine List.filterMap_congr fun action _ => ?_
  cases action <;> rfl

theorem openJobs_txJobs (serial : Tx → Nat) (actions : List TxAction) :
    openJobs (actions.flatMap (txJobs serial)) = (sent actions).filterMap fun s =>
      if s.2.2 then some ⟨s.1, serial s.1, s.2.1⟩ else none := by
  induction actions with
  | nil => rfl
  | cons action actions ih =>
      rw [List.flatMap_cons, openJobs_append, ih]
      cases action with
      | submit _ _ accepted | acquire _ _ _ accepted => cases accepted <;> rfl
      | _ => rfl

/-- The command may be submitted for the transaction. -/
structure Due (w : Worker) (k : Tx) (command : TxCommand) : Prop where
  active : (w.store.tx k).active = true
  next : ∀ id m, .txRequested (w.txSerial k) id m ∈ w.log →
    trace w.log (w.txSerial k) ++ [.submitted command] <+: script m
  settled : ∀ c, (trace w.log (w.txSerial k)).getLast? ≠ some (.submitted c)

variable {k : Tx} {event : ActorEvent}

/-- A command is submitted. -/
theorem Ordered.submit (hn : w.Numbered) (h : w.Ordered) {command : TxCommand}
    (hdue : w.Due k command)
    (hself : trace w'.log (w.txSerial k) = trace w.log (w.txSerial k) ++ [.submitted command])
    (hother : ∀ n, n ≠ w.txSerial k → trace w'.log n = trace w.log n)
    (hasked : ∀ n id m, .txRequested n id m ∈ w'.log ↔ .txRequested n id m ∈ w.log)
    (hopen : openJobs w'.jobs = openJobs w.jobs ∨
      openJobs w'.jobs = openJobs w.jobs ++ [⟨k, w.txSerial k, command⟩])
    (hstays : ∀ j, (w'.store.tx j).active = true → j ≠ k →
      (w.store.tx j).active = true ∧ (w'.store.tx j).At (trace w.log (w.txSerial j)))
    (hafter : (w'.store.tx k).active = true →
      (w'.store.tx k).current = some command ∧ (w'.store.tx k).Placed)
    (hserial : w'.txSerial = w.txSerial) (hevents : ∀ e ∈ w'.actor.events, e ∈ w.actor.events) :
    w'.Ordered := by
  have hmore (n : Nat) : trace w.log n <+: trace w'.log n := by
    by_cases hn : n = w.txSerial k
    · rw [hn, hself]
      exact List.prefix_append ..
    · rw [hother n hn]
  -- no other command of the transaction is open
  have hnone : ∀ job ∈ openJobs w.jobs, job.serial ≠ w.txSerial k := fun job hjob heq =>
    hdue.settled job.command (heq ▸ h.awaits job hjob)
  refine ⟨fun n id m hmem => ?_, fun n hmem => ?_, fun j hj => ?_, fun job hjob => ?_, ?_,
    fun e he job hanswer => (hmore _).subset (h.heard e (hevents e he) job hanswer)⟩
  · have hreq := (hasked n id m).mp hmem
    by_cases hn : n = w.txSerial k
    · rw [hn] at hreq ⊢
      rw [hself]
      exact hdue.next id m hreq
    · rw [hother n hn]
      exact h.order n id m hreq
  · by_cases hself' : n = w.txSerial k
    · exact ⟨_, _, hself' ▸ (hasked ..).mpr (hn.txKnown k hdue.active)⟩
    · rw [hother n hself'] at hmem
      obtain ⟨id, m, hreq⟩ := h.known n hmem
      exact ⟨id, m, (hasked n id m).mpr hreq⟩
  · rw [hserial]
    by_cases hjk : j = k
    · obtain ⟨hcurrent, hplaced⟩ := hafter (hjk ▸ hj)
      rw [hjk, hself]
      refine ⟨hplaced, fun hstate => ?_, fun c hc => Or.inl ?_⟩
      · rw [Transaction.current, hstate] at hcurrent
        cases hcurrent
      · rw [Option.some.inj (hc.symm.trans hcurrent), List.getLast?_concat]
    · obtain ⟨hused, hstands⟩ := hstays j hj hjk
      rw [hother _ fun heq => hjk (hn.txApart j k hused hdue.active heq)]
      exact hstands
  · have hold (hjob : job ∈ openJobs w.jobs) :
        (trace w'.log job.serial).getLast? = some (.submitted job.command) := by
      rw [hother _ (hnone job hjob)]
      exact h.awaits job hjob
    rcases hopen with hsame | hadded
    · exact hold (hsame ▸ hjob)
    · rw [hadded] at hjob
      rcases List.mem_append.mp hjob with hmem | hmem
      · exact hold hmem
      · rw [List.mem_singleton.mp hmem]
        dsimp only
        rw [hself, List.getLast?_concat]
  · rcases hopen with hsame | hadded
    · exact hsame ▸ h.apart
    · rw [hadded, List.map_append]
      refine List.nodup_append.mpr ⟨h.apart, List.nodup_singleton _, fun n hmem n' hmem' => ?_⟩
      obtain ⟨job, hjob, rfl⟩ := List.mem_map.mp hmem
      rw [List.mem_singleton.mp hmem']
      exact hnone job hjob

/-- The transactions do something, and one of them at most goes on. -/
theorem Ordered.act (hn : w.Numbered) (h : w.Ordered) {r : TxStep} {turns : Tx → Prop}
    (hmoves : Transactions.Moves turns w.store r)
    (hturns : ∀ k, turns k → (∀ j, turns j → j = k) ∧
      ∃ command, w.Due k command ∧ Transactions.Forward k command r)
    (htrace : ∀ n, trace w'.log n = trace w.log n ++ trace (r.2.map w.txEntry) n)
    (hasked : ∀ n id m, .txRequested n id m ∈ w'.log ↔ .txRequested n id m ∈ w.log)
    (hjobs : openJobs w'.jobs =
      openJobs w.jobs ++ openJobs (r.2.flatMap (txJobs w.txSerial)))
    (hstore : w'.store = r.1) (hserial : w'.txSerial = w.txSerial)
    (hevents : ∀ e ∈ w'.actor.events, e ∈ w.actor.events) : w'.Ordered := by
  rw [openJobs_txJobs] at hjobs
  -- a transaction whose turn it is not stays where it is
  have hstays (k : Tx) (hk : (w'.store.tx k).active = true) (hnot : ¬ turns k) :
      (w.store.tx k).active = true ∧ (w'.store.tx k).At (trace w.log (w.txSerial k)) := by
    rw [hstore] at hk ⊢
    obtain ⟨hsame, hstays⟩ := hmoves.slot hk
    have hused := hsame.active.symm.trans hk
    exact ⟨hused, (h.stands k hused).stays hsame (hstays.resolve_left hnot)⟩
  have hnothing (hsent : sent r.2 = []) (hover : ∀ k, turns k → (w'.store.tx k).active = false) :
      w'.Ordered := by
    have hsilent (n : Nat) : trace w'.log n = trace w.log n := by
      rw [htrace, trace_txEntries, hsent, List.filterMap_nil, List.append_nil]
    rw [hsent, List.filterMap_nil, List.append_nil] at hjobs
    refine h.frame hsilent (fun n id m => (hasked n id m).mpr)
      (fun n id m hmem => Or.inl ((hasked n id m).mp hmem)) (fun k hk => ?_)
      (hjobs ▸ List.Sublist.refl _) fun e he _ _ => hevents e he
    rw [hserial]
    refine (hstays k hk fun hturn => ?_).2
    rw [hover k hturn] at hk
    cases hk
  by_cases hsome : ∃ k, turns k
  · obtain ⟨k, hturn⟩ := hsome
    obtain ⟨honly, command, hdue, hforward⟩ := hturns k hturn
    rcases hforward with hended | ⟨accepted, hsent, hafter⟩
    · refine hnothing hended.1 fun j hj => ?_
      rw [honly j hj, hstore]
      exact hended.2
    · have hself : trace w'.log (w.txSerial k) =
          trace w.log (w.txSerial k) ++ [.submitted command] := by
        rw [htrace, trace_txEntries, hsent]
        refine congrArg (trace w.log (w.txSerial k) ++ ·) ?_
        simp
      have hother {n : Nat} (hne : n ≠ w.txSerial k) : trace w'.log n = trace w.log n := by
        rw [htrace, trace_txEntries, hsent]
        refine (congrArg (trace w.log n ++ ·) ?_).trans (List.append_nil _)
        simp [hne.symm]
      have hopen : openJobs w'.jobs = openJobs w.jobs ∨
          openJobs w'.jobs = openJobs w.jobs ++ [⟨k, w.txSerial k, command⟩] := by
        rw [hjobs, hsent]
        cases accepted with
        | false => exact Or.inl (List.append_nil _)
        | true => exact Or.inr rfl
      refine h.submit hn hdue hself (fun n => hother) hasked hopen (fun j hj hne => ?_)
        (fun hk => ?_) hserial hevents
      · exact hstays j hj fun hturn' => hne (honly j hturn')
      · rw [hstore] at hk ⊢
        exact hafter hk
  · refine hnothing (hmoves.mono fun k hk => hsome ⟨k, hk⟩).sent_nil
      fun k hk => absurd ⟨k, hk⟩ hsome

/-! ## The next command -/

/-- A transaction that has not begun may begin. -/
theorem Ordered.due_begin (h : w.Ordered) (hk : (w.store.tx k).active = true)
    (hstate : (w.store.tx k).state = .prevalidating) : w.Due k .begin := by
  have hnil := (h.stands k hk).fresh hstate
  refine ⟨hk, fun id m _ => ?_, fun c hc => ?_⟩
  · rw [hnil]
    exact prefix_begin m
  · rw [hnil] at hc
    cases hc

/-- A transaction whose command is acknowledged may go on. -/
theorem Ordered.due_next (hn : w.Numbered) (h : w.Ordered) {c : TxCommand}
    (hk : (w.store.tx k).active = true) (hgoes : (w.store.tx k).state.goesOn = true)
    (hcurrent : (w.store.tx k).current = some c) (hacked : .acked c ∈ trace w.log (w.txSerial k)) :
    w.Due k (w.store.tx k).nextCommand := by
  have hknown := hn.txKnown k hk
  have horder := h.order _ _ _ hknown
  have hlast : (trace w.log (w.txSerial k)).getLast? = some (.acked c) :=
    ((h.stands k hk).latest c hcurrent).resolve_left fun hsubmitted =>
      not_acked horder hsubmitted hacked
  obtain ⟨i, c', hcurrent', hhere, hnext⟩ :=
    Transaction.follows_current (h.stands k hk).placed hgoes
  obtain rfl := Option.some.inj (hcurrent.symm.trans hcurrent')
  refine ⟨hk, fun id m hreq => ?_, fun c' hc' => ?_⟩
  · obtain ⟨-, rfl⟩ := hn.txUnique _ _ _ _ _ hreq hknown
    exact prefix_submit hhere hnext horder hlast
  · cases hlast.symm.trans hc'

/-! ## Every step -/

/-- The event is meant for the transaction that goes on with it: a lease comes to a transaction that
has not begun, an acknowledgement to the one that has submitted the command last. -/
def Fits (w : Worker) (k : Tx) : ActorEvent → Prop
  | .txLeaseResult .. => (w.store.tx k).state = .prevalidating
  | .txCommandComplete _ _ origin =>
      origin.serial = w.txSerial k ∧ (w.store.tx k).current = some origin.command
  | _ => True

/-- The actor lets a transaction go on only with an event that is meant for it. -/
def Answers (w : Worker) : Act → Prop
  | .actor .. => ∀ event ∈ w.actor.events.head?, ∀ k, w.turns event k → w.Fits k event
  | _ => True

instance (w : Worker) (k : Tx) (event : ActorEvent) : Decidable (w.Fits k event) := by
  apply ActorEvent.casesOn (motive := fun event => Decidable (w.Fits k event)) event <;>
    intros <;> unfold Fits <;> infer_instance

instance (w : Worker) (l : Act) : Decidable (w.Answers l) := by
  apply Act.casesOn (motive := fun l => Decidable (w.Answers l)) l <;>
    intros <;> unfold Answers <;> infer_instance

/-- What an event that is meant for a transaction leads to. -/
theorem Ordered.goes_on (hn : w.Numbered) (h : w.Ordered) {acquired submitted armed : Bool}
    (hmem : event ∈ w.actor.events) (hturn : w.turns event k) (hfits : w.Fits k event) :
    ∃ command, w.Due k command ∧
      Transactions.Forward k command (w.txRound acquired submitted armed event) := by
  have hk := active_of_turns hturn
  cases event with
  | txLeaseResult generation owner ok lease origin =>
      obtain ⟨hcookie, hok, hfind⟩ := hturn
      have hindex : (w.store.tx k).nextChangeIndex = 0 := by
        have hplaced := (h.stands k hk).placed
        rw [Transaction.Placed, show (w.store.tx k).state = _ from hfits] at hplaced
        exact hplaced
      refine ⟨.begin, h.due_begin hk hfits, ?_⟩
      rw [txRound, if_pos hcookie, if_pos hok]
      exact Transactions.actorBegin_forward hfind hindex w.txOwner lease submitted
  | txCommandComplete id result origin =>
      obtain ⟨hfind, hstatus, hgoes⟩ := hturn
      obtain ⟨hserial, hcurrent⟩ := hfits
      have hacked := h.heard _ hmem origin (by rw [ActorEvent.answer?, hstatus])
      rw [hserial] at hacked
      refine ⟨(w.store.tx k).nextCommand, h.due_next hn hk hgoes hcurrent hacked, ?_⟩
      have hwaits : (w.store.tx k).state ≠ .waitingReboot := fun hstate => by
        rw [hstate] at hgoes
        cases hgoes
      rw [txRound, Transactions.commandComplete, hfind]
      dsimp only
      rw [if_neg hwaits, hstatus]
      exact Transactions.acknowledged_forward hk hgoes result submitted armed
  | _ => exact hturn.elim

theorem head_answers {acquired submitted armed : Bool} {rest : List ActorEvent}
    (hok : w.Answers (.actor acquired submitted armed)) (hevents : w.actor.events = event :: rest) :
    ∀ k, w.turns event k → w.Fits k event := by
  refine hok event ?_
  rw [hevents]
  exact rfl

theorem turns_only {j : Tx} (hj : w.turns event j) (hk : w.turns event k) :
    j = k := by
  cases event with
  | txLeaseResult generation owner ok lease origin =>
      exact Option.some.inj (hj.2.2.symm.trans hk.2.2)
  | txCommandComplete id result origin => exact Option.some.inj (hj.1.symm.trans hk.1)
  | _ => exact hj.elim

theorem opJobs_none (serial : OpIx → Nat) (actions : List OpAction) :
    openJobs (actions.flatMap (opJobs serial)) = [] := by
  refine List.filterMap_eq_nil_iff.mpr fun job hjob => ?_
  obtain ⟨action, -, hmem⟩ := List.mem_flatMap.mp hjob
  cases action with
  | submit slot id kind accepted =>
      cases accepted with
      | true => rw [List.mem_singleton.mp hmem]; rfl
      | false => cases hmem
  | _ => cases hmem

/-- **Every step** whose event is meant for its transaction keeps the order. -/
theorem Ordered.step (hn : w.Numbered) (h : w.Ordered) {l : Act} (hok : w.Answers l)
    (hstep : w.step l = some w') : w'.Ordered := by
  have hevents {p : Option (TxJob × DeviceCommandStatus)} (hmore : ∃ more,
      w'.actor.events = w.actor.events ++ more ∧ ∀ e ∈ more, e.answer? = p)
      (hp : ∀ job, p ≠ some (job, .ok)) :
      ∀ e ∈ w'.actor.events, ∀ job, e.answer? = some (job, .ok) → e ∈ w.actor.events := by
    obtain ⟨more, heq, hnone⟩ := hmore
    intro e he job hanswer
    rw [heq] at he
    exact (List.mem_append.mp he).resolve_right
      fun hnew => hp job ((hnone e hnew).symm.trans hanswer)
  have hnoanswer (job : TxJob) : (none : Option (TxJob × DeviceCommandStatus)) ≠ some (job, .ok) :=
    fun heq => by cases heq
  have hasked {entries : List Entry} (hlog : w'.log = w.log ++ entries)
      (hnone : ∀ e ∈ entries, ¬ e.asks) (n : Nat) (id : DeviceId) (m : Nat) :
      .txRequested n id m ∈ w'.log ↔ .txRequested n id m ∈ w.log :=
    mem_log_iff hlog hnone trivial
  have hstands (hsame : w.SameWork w') (k : Tx) (hk : (w'.store.tx k).active = true) :
      (w'.store.tx k).At (trace w.log (w'.txSerial k)) := by
    have heq : w'.store.tx k = w.store.tx k := hsame.table k (Or.inr hk)
    rw [heq] at hk ⊢
    rw [hsame.txSerial]
    exact h.stands k hk
  have hsilent {entries : List Entry} (hlog : w'.log = w.log ++ entries)
      (hnone : ∀ n, ∀ e ∈ entries, e.mark? n = none) (n : Nat) :
      trace w'.log n = trace w.log n := by
    rw [hlog, trace_append, trace_silent (hnone n), List.append_nil]
  have hkept {entries : List Entry} (hlog : w'.log = w.log ++ entries) {e : Entry}
      (he : e ∈ w.log) :
      e ∈ w'.log := hlog ▸ List.mem_append_left entries he
  have hone {e : Entry} (he : ∀ n, e.mark? n = none) : ∀ n, ∀ e' ∈ [e], e'.mark? n = none :=
    fun n e' he' => List.mem_singleton.mp he' ▸ he n
  cases step_cases hn.calls hstep with
  | quiet same jobs events log =>
      obtain ⟨entries, hlog, haside⟩ := log
      exact h.frame (hsilent hlog fun n e he => (haside e he).silent n) (fun n id m => hkept hlog)
        (fun n id m hmem =>
          Or.inl ((hasked hlog (fun e he => not_asks_aside (haside e he)) n id m).mp hmem))
        (hstands same) (jobs.filterMap _) (hevents events hnoanswer)
  | answered n job status same found jobs events log =>
      by_cases hstatus : status = .ok
      · rw [hstatus] at events log
        exact h.acknowledge same found jobs events log
      · -- no other answer says anything
        have hmark (n : Nat) : Entry.mark? n (.answered (.tx job) status) = none := by
          cases status with
          | ok => exact absurd rfl hstatus
          | _ => rfl
        have hno : ∀ e ∈ [Entry.answered (.tx job) status], ¬ e.asks := fun e he hasks => by
          rw [List.mem_singleton.mp he] at hasks
          exact hasks
        refine h.frame (hsilent log (hone hmark)) (fun n id m => hkept log)
          (fun n id m hmem => Or.inl ((hasked log hno n id m).mp hmem)) (hstands same) ?_
          (hevents events fun job' heq => hstatus (Prod.mk.inj (Option.some.inj heq)).2)
        rw [jobs]
        exact (List.eraseIdx_sublist ..).filterMap _
  | requested id slot accepts store opSerial txSerial clock jobs log =>
      obtain ⟨more, hmore, hnone⟩ := accepts.events
      refine h.frame (hsilent log (hone fun n => rfl)) (fun n id m => hkept log)
        (fun n id m hmem => Or.inl ?_) (fun k hk => ?_) (jobs ▸ List.Sublist.refl _)
        (hevents ⟨more, hmore, fun e he => hnone e he ▸ rfl⟩ hnoanswer)
      · rw [log] at hmem
        exact (List.mem_append.mp hmem).resolve_right (by simp)
      · rw [store] at hk ⊢
        rw [txSerial]
        exact h.stands k hk
  | saved id changes k accepts ops active events opSerial txSerial clock jobs log =>
      have hclock : trace w.log w.clock = [] := by
        by_contra hsome
        obtain ⟨id', m, hreq⟩ := h.known _ hsome
        exact Nat.lt_irrefl _ (hn.txBelow _ id' m hreq)
      refine h.frame (hsilent log (hone fun n => rfl)) (fun n id m => hkept log)
        (fun n id m hmem => ?_) (fun j hj => ?_) (jobs ▸ List.Sublist.refl _)
        (hevents events hnoanswer)
      · rw [log] at hmem
        refine (List.mem_append.mp hmem).imp_right fun hnew => ?_
        obtain ⟨rfl, -, -⟩ := Entry.txRequested.inj (List.mem_singleton.mp hnew)
        exact hclock
      · obtain ⟨tx, htxns, -, -, -, hstate, hindex⟩ := accepts.record
        have htx : w'.store.tx j = Function.update w.store.table.txns k tx j := congrFun htxns j
        rw [htx] at hj ⊢
        rw [txSerial]
        by_cases hjk : j = k
        · rw [hjk, Function.update_self, Function.update_self, hclock]
          refine ⟨?_, fun _ => rfl, fun c hc => ?_⟩
          · rw [Transaction.Placed, hstate]
            exact hindex
          · rw [Transaction.current, hstate] at hc
            cases hc
        · rw [Function.update_of_ne hjk] at hj ⊢
          rw [Function.update_of_ne hjk]
          exact h.stands j hj
  | moved r moves store actor opSerial txSerial clock jobs log =>
      refine Ordered.act hn h moves (fun k hk => hk.elim) (fun n => ?_)
        (hasked log (not_asks_txEntries r.2)) ?_ store txSerial fun e he => actor ▸ he
      · rw [log, trace_append]
      · rw [jobs, openJobs_append]
  | round acquired submitted armed event rest r events did moves store actor opSerial txSerial
      clock jobs log =>
      have hfits := head_answers hok events
      have hmem : event ∈ w.actor.events := events ▸ List.mem_cons_self
      have hfollows := Actor.follows_handle (a := { w.actor with events := rest }) hn.sound acquired
        submitted event
      have hlog := log
      rw [List.append_assoc, List.append_assoc] at hlog
      refine Ordered.act hn h moves (fun k hturn => ⟨fun j hj => turns_only hj hturn, ?_⟩)
        (fun n => ?_) (hasked hlog (not_asks_round event _ r.2)) ?_ store txSerial fun e he => ?_
      · rw [← did]
        exact h.goes_on hn hmem hturn (hfits k hturn)
      · rw [log, trace_append, trace_append, trace_append]
        have hops : trace (({ w.actor with events := rest }.handle acquired submitted
            event).2.map w.opEntry) n = [] := trace_silent fun e he => by
          obtain ⟨action, -, rfl⟩ := List.mem_map.mp he
          cases action <;> rfl
        rw [hops, List.append_nil]
        exact congrArg (· ++ trace (r.2.map w.txEntry) n) (List.append_nil _)
      · rw [jobs, openJobs_append, openJobs_append, opJobs_none, List.append_nil]
      · rw [actor, hfollows.events] at he
        rw [events]
        exact List.mem_cons_of_mem event he

/-! ## Runs -/

theorem Ordered.init : ({} : Worker).Ordered where
  order _ _ _ h := by cases h
  known _ h := absurd rfl h
  stands _ h := by cases h
  awaits _ h := by cases h
  apart := List.nodup_nil
  heard _ h := by cases h

/-- **Commands in order.** In every run in which a transaction goes on only with the events that are
meant for it, the commands of every transaction are submitted in the order of its script, each
behind the acknowledgement of the one before. -/
theorem commands_in_order (h : machine.ReachableWhen Answers w) : w.InOrder := by
  suffices hboth : w.Numbered ∧ w.Ordered from hboth.2.order
  refine Machine.ReachableWhen.invariant (I := fun w => w.Numbered ∧ w.Ordered) (fun w hw => ?_)
    (fun w l w' hI hok hstep => ?_) h
  · rw [hw]
    exact ⟨.init, .init⟩
  · exact ⟨hI.1.step hstep, hI.2.step hI.1 hok hstep⟩

/-- A command is acknowledged, and the actor takes note. -/
def acknowledgeRun : List Act := [.jobDone 0 { status := .ok }, .actor true true true]

/-- A transaction with one change, from the request to the restart of the device. -/
def transactionRun : List Act :=
  describeOne lamp ++ [.save lamp [turnOn] 0 0 0 true, .actor true true true, .leaseDone 0 true 1,
    .actor true true true] ++ (List.replicate 4 acknowledgeRun).flatten

theorem commands_in_order_transactionRun : ∃ w : Worker, .txRequested 0 lamp 1 ∈ w.log ∧
    trace w.log 0 = script 1 ∧ w.InOrder := by
  have hrun : ((machine.runWhen Answers {} transactionRun).map fun w =>
      decide (.txRequested 0 lamp 1 ∈ w.log ∧ trace w.log 0 = script 1)) = some true := by
    decide +kernel
  obtain ⟨w, hw, hp⟩ := Machine.exists_reachableWhen_of_run (M := machine) rfl hrun
  obtain ⟨hrequest, htrace⟩ := of_decide_eq_true hp
  exact ⟨w, hrequest, htrace, commands_in_order hw⟩

/-- Transactions on the lamp and the fan wait for their leases at the same time. -/
def twoLeasesRun : List Act :=
  describeOne lamp ++ describeOne fan ++ [.save lamp [turnOn] 0 0 0 true,
    .save fan [turnOn] 0 0 0 true, .actor true true true, .actor true true true,
    .leaseDone 0 true 1, .leaseDone 0 true 2, .actor true true true, .actor true true true]

/-- Both leases go to the transaction on the fan, which submits its first command twice. -/
theorem begin_submitted_twice : ∃ w : Worker, machine.Reachable w ∧ ¬ w.InOrder ∧
    .txRequested 1 fan 1 ∈ w.log ∧ trace w.log 1 = [.submitted .begin, .submitted .begin] := by
  have hrun : ((machine.run {} twoLeasesRun).map fun w =>
      decide (.txRequested 1 fan 1 ∈ w.log ∧
        trace w.log 1 = [.submitted .begin, .submitted .begin])) = some true := by
    decide +kernel
  obtain ⟨w, hw, hp⟩ := Machine.exists_reachable_of_run (M := machine) rfl hrun
  obtain ⟨hrequest, htrace⟩ := of_decide_eq_true hp
  refine ⟨w, hw, fun hordered => ?_, hrequest, htrace⟩
  have hprefix := hordered 1 fan 1 hrequest
  rw [htrace] at hprefix
  exact absurd hprefix (by decide)

end Worker

end BleGateway.Settings
