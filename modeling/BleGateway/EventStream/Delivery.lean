import BleGateway.EventStream.Clients

/-! # No silent loss on the event stream

An event is with its task, in the ring, with a running drain, or it is lost; a lost event must
leave a resync behind that is still to be sent. Two branches forget that: the one after a
failed `httpd_queue_work`, and the one after an event that does not serialize, set the flag and
have no drain scheduled. As long as neither is taken, except the second while another drain is
scheduled already, nothing is lost silently.
-/

namespace BleGateway.EventStream

open GatewayEvents

/-! ## The property -/

/-- Every event published was sent afterwards, or is one that `P` tells of, or a resync was sent
after it. -/
def CoveredBut (P : Nat → Prop) (history : List Mark) : Prop :=
  ∀ before after n, history = before ++ .published n :: after →
    .sent n ∈ after ∨ .resync ∈ after ∨ P n

/-- The events sent, in order. -/
def sentStamps (history : List Mark) : List Nat :=
  history.filterMap fun
    | .sent n => some n
    | _ => none

/-- No publisher runs and no drain is queued or running. -/
def Sys.Quiet (σ : Sys) : Prop :=
  (∀ t, σ.running t = none) ∧ σ.queued = 0 ∧ σ.drain = none

/-- A drain is queued at the server, or a task is about to queue it. -/
def Sys.DrainScheduled (σ : Sys) : Prop :=
  σ.ws.workPending = true ∧ (0 < σ.queued ∨ ∃ t, σ.running t = some .scheduling)

/-- **No silent loss.** Whenever the system is quiet, every registered client has been sent every
event published since its registration, or a resync after the events it missed; the events it was
sent came in ring order; and an event in the ring or a set resync flag implies that a drain is
scheduled. -/
structure NoSilentLoss (σ : Sys) : Prop where
  covered : σ.Quiet → ∀ i, (σ.ws.clients i).active = true →
    CoveredBut (fun _ => False) (σ.history i)
  ordered : ∀ i, (σ.ws.clients i).active = true → (sentStamps (σ.history i)).Sublist σ.taken
  scheduled : σ.ws.ring.toList ≠ [] ∨ σ.ws.resyncRequired = true → σ.DrainScheduled

/-- **The condition.** `httpd_queue_work` succeeds, and an event that does not serialize is met only
while another drain is scheduled. -/
def Recovers (σ : Sys) : Label → Prop
  | .queueWork _ ok => ok = true
  | .drainJob _ => ∀ fds e rest, σ.drain = some ⟨fds, .serialize e :: rest⟩ →
      serializeEvent e.event WEB_WS_JSON_MAX = none → σ.ws.workPending = true
  | _ => True

/-! ## Histories -/

theorem CoveredBut.mono {P Q : Nat → Prop} {history : List Mark} (h : CoveredBut P history)
    (hPQ : ∀ n, P n → Q n) : CoveredBut Q history := fun before after n he =>
  (h before after n he).imp_right (Or.imp_right (hPQ n))

theorem coveredBut_nil (P : Nat → Prop) : CoveredBut P [] := fun before after n h =>
  absurd h (by simp)

/-- One more mark: a published event is one that `Q` tells of, and of the events that `P` told of
`Q` tells, or the mark covers them. -/
theorem CoveredBut.concat {P Q : Nat → Prop} {history : List Mark} {m : Mark}
    (h : CoveredBut P history) (hPQ : ∀ n, P n → m = .sent n ∨ m = .resync ∨ Q n)
    (hm : ∀ n, m = .published n → Q n) : CoveredBut Q (history ++ [m]) := by
  intro before after n he
  rcases List.eq_nil_or_concat after with rfl | ⟨after', m', rfl⟩
  · obtain ⟨_, hlast⟩ := List.append_inj' he rfl
    exact .inr (.inr (hm n (List.cons.inj hlast).1))
  · rw [List.concat_eq_append, ← List.cons_append, ← List.append_assoc] at he
    obtain ⟨hbefore, hlast⟩ := List.append_inj' he rfl
    obtain rfl := (List.cons.inj hlast).1
    simp only [List.concat_eq_append, List.mem_append, List.mem_singleton]
    rcases h before after' n hbefore with hsent | hresync | hP
    · exact .inl (.inl hsent)
    · exact .inr (.inl (.inl hresync))
    · rcases hPQ n hP with rfl | rfl | hQ
      · exact .inl (.inr rfl)
      · exact .inr (.inl (.inr rfl))
      · exact .inr (.inr hQ)

@[simp] theorem sentStamps_append (a b : List Mark) :
    sentStamps (a ++ b) = sentStamps a ++ sentStamps b := List.filterMap_append ..

/-! ## Where an event is -/

/-- The job covers the event `n` for the client with the descriptor `fd`. -/
def Job.Reaches (fd : Fd) (n : Nat) : Job → Prop
  | .announce => True
  | .serialize e => e.stamp = n
  | .send fd' frame => fd' = fd ∧ (frame.mark = .resync ∨ frame.mark = .sent n)

/-- The event `n` still reaches the client with the descriptor `fd`, or a resync does. -/
inductive Located (σ : Sys) (fd : Fd) (n : Nat) : Prop
  | numbered (t : Task) (e : Published) (at_task : σ.running t = some (.numbered e))
      (stamp : e.stamp = n)
  | ringed (e : Published) (in_ring : e ∈ σ.ws.ring.toList) (stamp : e.stamp = n)
  | flagged (flag : σ.ws.resyncRequired = true)
  | draining (d : Drain) (job : Job) (at_drain : σ.drain = some d) (mem : job ∈ d.jobs)
      (reaches : job.Reaches fd n)

variable {fd : Fd} {σ : Sys} {fds : List Fd} {rest : List Job} {σ' : Sys} {t : Task} {frame : Frame}

/-- Where an event is outside of the drain it stays. -/
theorem Located.redrain {n : Nat} (h : Located σ fd n) (hrunning : σ'.running = σ.running)
    (hring : σ'.ws.ring = σ.ws.ring) (hflag : σ'.ws.resyncRequired = σ.ws.resyncRequired)
    (hdrain : ∀ d job, σ.drain = some d → job ∈ d.jobs → job.Reaches fd n → Located σ' fd n) :
    Located σ' fd n := by
  cases h with
  | numbered t e ht hstamp => exact .numbered t e (by rwa [hrunning]) hstamp
  | ringed e he hstamp => exact .ringed e (by rwa [hring]) hstamp
  | flagged h => exact .flagged (by rwa [hflag])
  | draining d job hd hjob hr => exact hdrain d job hd hjob hr

/-- The events that the jobs send to the client with the descriptor `fd`, in order. -/
def jobStamps (fd : Fd) (jobs : List Job) : List Nat :=
  jobs.filterMap fun
    | .announce => none
    | .serialize e => some e.stamp
    | .send fd' (.event n _) => if fd' = fd then some n else none
    | .send _ (.resync _) => none

def Sys.jobs (σ : Sys) : List Job := σ.drain.elim [] Drain.jobs

@[simp] theorem jobStamps_append (fd : Fd) (a b : List Job) :
    jobStamps fd (a ++ b) = jobStamps fd a ++ jobStamps fd b := List.filterMap_append ..

theorem jobStamps_serialize (fd : Fd) (batch : List Published) :
    jobStamps fd (batch.map .serialize) = batch.map Published.stamp := by
  rw [jobStamps, List.filterMap_map]
  exact List.filterMap_eq_map ▸ rfl

theorem jobStamps_resync (fd : Fd) (fds : List Fd) (text : CString) :
    jobStamps fd (fds.map (.send · (.resync text))) = [] := by
  rw [jobStamps, List.filterMap_map, List.filterMap_eq_nil_iff]
  exact fun _ _ => rfl

/-- A frame goes to each client once. -/
theorem jobStamps_event (hnodup : fds.Nodup) (hmem : fd ∈ fds) (n : Nat) (text : CString) :
    jobStamps fd (fds.map (.send · (.event n text))) = [n] := by
  induction fds with
  | nil => cases hmem
  | cons fd' fds ih =>
      obtain ⟨hfresh, hnodup⟩ := List.nodup_cons.mp hnodup
      rw [List.map_cons, jobStamps, List.filterMap_cons]
      by_cases he : fd' = fd
      · have hrest : jobStamps fd (fds.map (.send · (.event n text))) = [] := by
          rw [jobStamps, List.filterMap_map, List.filterMap_eq_nil_iff]
          intro fd'' hmem''
          have hne : fd'' ≠ fd := fun h => hfresh (he ▸ h ▸ hmem'')
          simp [hne]
        simp only [he, if_true]
        exact congrArg (n :: ·) hrest
      · simp only [he, if_false]
        exact ih hnodup ((List.mem_cons.mp hmem).resolve_left fun h => he h.symm)

/-! ## The invariant -/

structure StreamInv (σ : Sys) : Prop where
  distinct : DistinctFds σ.ws.clients
  targets : ∀ d, σ.drain = some d → d.fds.Nodup ∧
    ∀ i, (σ.ws.clients i).active = true → (σ.ws.clients i).fd ∈ d.fds
  queueing : ∀ t, σ.running t ≠ some .failed
  scheduled : σ.ws.ring.toList ≠ [] ∨ σ.ws.resyncRequired = true → σ.ws.workPending = true
  pending : σ.ws.workPending = true → 0 < σ.queued ∨ ∃ t, σ.running t = some .scheduling
  ring : (σ.ws.ring.toList.map Published.stamp).Sublist σ.taken
  covered : ∀ i, (σ.ws.clients i).active = true →
    CoveredBut (Located σ (σ.ws.clients i).fd) (σ.history i)
  ordered : ∀ i, (σ.ws.clients i).active = true →
    (sentStamps (σ.history i) ++ jobStamps (σ.ws.clients i).fd σ.jobs ++
      σ.ws.ring.toList.map Published.stamp).Sublist σ.taken

theorem StreamInv.noSilentLoss (h : StreamInv σ) : NoSilentLoss σ where
  covered := by
    rintro ⟨hrunning, hqueued, hdrain⟩ i hi
    refine (h.covered i hi).mono fun n hn => ?_
    have hidle : ¬ σ.ws.workPending = true := fun hp => by
      rcases h.pending hp with hq | ⟨t, ht⟩
      · omega
      · cases (hrunning t).symm.trans ht
    cases hn with
    | numbered t e ht _ => cases (hrunning t).symm.trans ht
    | ringed e he _ => exact hidle (h.scheduled (.inl (List.ne_nil_of_mem he)))
    | flagged hflag => exact hidle (h.scheduled (.inr hflag))
    | draining d job hd _ _ => cases hdrain.symm.trans hd
  ordered i hi := by
    have hall := h.ordered i hi
    rw [List.append_assoc] at hall
    exact (List.sublist_append_left _ _).trans hall
  scheduled hwork := ⟨h.scheduled hwork, h.pending (h.scheduled hwork)⟩

theorem boot_inv (seq : UInt32) : StreamInv (boot seq) where
  distinct i _ h := absurd h (by simp [boot])
  targets d h := absurd h (by simp [boot])
  queueing t := by simp [boot]
  scheduled h := absurd h (by simp [boot])
  pending h := absurd h (by simp [boot])
  ring := by simp [boot]
  covered i h := absurd h (by simp [boot])
  ordered i h := absurd h (by simp [boot])

/-! ## Steps -/

theorem shrink_inv (h : StreamInv σ) {clients : ClientSlot → Client}
    (hs : Shrinks σ.ws.clients clients) :
    StreamInv { σ with ws := { σ.ws with clients := clients } } where
  distinct := hs.distinct h.distinct
  targets d hd := by
    refine ⟨(h.targets d hd).1, fun i hi => ?_⟩
    obtain ⟨hold, hfd⟩ := hs i hi
    exact hfd ▸ (h.targets d hd).2 i hold
  queueing := h.queueing
  scheduled := h.scheduled
  pending := h.pending
  ring := h.ring
  covered i hi := by
    obtain ⟨hold, hfd⟩ := hs i hi
    refine (h.covered i hold).mono fun n hn => ?_
    rw [← hfd] at hn
    exact hn.redrain rfl rfl rfl fun _ _ hd hjob hr => .draining _ _ hd hjob hr
  ordered i hi := by
    obtain ⟨hold, hfd⟩ := hs i hi
    have := h.ordered i hold
    rwa [← hfd] at this

theorem publish_inv (h : StreamInv σ) (event : GatewayEvent) (hidle : σ.running t = none) :
    StreamInv { σ with
      seq := σ.seq + 1
      stamps := σ.stamps + 1
      running := Function.update σ.running t
        (some (.numbered ⟨σ.stamps, { event with seq := σ.seq + 1 }⟩))
      history := fun i => σ.history i ++ [.published σ.stamps] } := by
  have hold : ∀ {t' phase}, σ.running t' = some phase → t' ≠ t := fun ht he => by
    rw [he, hidle] at ht
    cases ht
  constructor
  · exact h.distinct
  · exact h.targets
  · intro t'
    simp only [Function.update_apply]
    split
    · simp
    · exact h.queueing t'
  · exact h.scheduled
  · intro hp
    rcases h.pending hp with hq | ⟨t', ht⟩
    · exact .inl hq
    · exact .inr ⟨t', (Function.update_of_ne (hold ht) _ _).trans ht⟩
  · exact h.ring
  · intro i hi
    refine (h.covered i hi).concat (fun n hn => .inr (.inr ?_)) fun n hn => ?_
    · cases hn with
      | numbered t' e ht hstamp =>
          exact .numbered t' e ((Function.update_of_ne (hold ht) _ _).trans ht) hstamp
      | ringed e he hstamp => exact .ringed e he hstamp
      | flagged hflag => exact .flagged hflag
      | draining d job hd hmem hreach => exact .draining d job hd hmem hreach
    · -- the new event is with its task
      obtain rfl := Mark.published.inj hn
      exact .numbered t _ (Function.update_self ..) rfl
  · intro i hi
    have := h.ordered i hi
    simpa [sentStamps, Sys.jobs] using this

/-- `takeEvent` puts the event into the ring or sets the resync flag. -/
theorem takeEvent_spec (ws : WsState) (e : Published) :
    (takeEvent ws e).1.clients = ws.clients ∧ (takeEvent ws e).1.workPending = true ∧
      (takeEvent ws e).2 = !ws.workPending ∧
      ((ws.ring.push e = none ∧ (takeEvent ws e).1.ring = ws.ring ∧
          (takeEvent ws e).1.resyncRequired = true) ∨
        (ws.ring.push e ≠ none ∧ (takeEvent ws e).1.ring.toList = ws.ring.toList ++ [e] ∧
          (takeEvent ws e).1.resyncRequired = ws.resyncRequired)) := by
  unfold takeEvent
  cases hpush : ws.ring.push e with
  | none => cases ws.workPending <;> simp
  | some ring =>
      have hlist := RingBuffer.toList_push hpush
      cases ws.workPending <;> simp [hlist]

theorem takeEvent_inv (h : StreamInv σ) {e : Published} (ht : σ.running t = some (.numbered e)) :
    StreamInv { σ with
      ws := (takeEvent σ.ws e).1
      running := Function.update σ.running t
        (if (takeEvent σ.ws e).2 then some .scheduling else none)
      taken := if σ.ws.ring.push e = none then σ.taken else σ.taken ++ [e.stamp] } := by
  obtain ⟨hclients, hpending, hschedule, hcase⟩ := takeEvent_spec σ.ws e
  constructor
  · exact hclients ▸ h.distinct
  · rw [hclients]
    exact h.targets
  · intro t'
    simp only [Function.update_apply]
    split
    · split <;> simp
    · exact h.queueing t'
  · exact fun _ => hpending
  · intro _
    rw [hschedule]
    cases hw : σ.ws.workPending with
    | true =>
        rcases h.pending hw with hq | ⟨t', ht'⟩
        · exact .inl hq
        · have hne : t' ≠ t := fun he => by
            rw [he, ht] at ht'
            cases ht'
          exact .inr ⟨t', (Function.update_of_ne hne _ _).trans ht'⟩
    | false => exact .inr ⟨t, Function.update_self ..⟩
  · rcases hcase with ⟨hfull, hring, _⟩ | ⟨hroom, hring, _⟩
    · rw [if_pos hfull, hring]
      exact h.ring
    · rw [if_neg hroom, hring, List.map_append]
      exact h.ring.append (List.Sublist.refl _)
  · intro i hi
    rw [hclients] at hi ⊢
    refine (h.covered i hi).mono fun n hn => ?_
    rcases hcase with ⟨_, _, hflag⟩ | ⟨_, hring, hflag⟩
    · exact .flagged hflag
    · cases hn with
      | numbered t' e' ht' hstamp =>
          by_cases he : t' = t
          · rw [he, ht] at ht'
            obtain rfl := Phase.numbered.inj (Option.some.inj ht')
            exact .ringed e (hring ▸ List.mem_append_right _ (List.mem_singleton.mpr rfl)) hstamp
          · exact .numbered t' e' ((Function.update_of_ne he _ _).trans ht') hstamp
      | ringed e' he' hstamp => exact .ringed e' (hring ▸ List.mem_append_left _ he') hstamp
      | flagged hflag' => exact .flagged (hflag.trans hflag')
      | draining d job hd hmem hreach => exact .draining d job hd hmem hreach
  · intro i hi
    rw [hclients] at hi ⊢
    have hall := h.ordered i hi
    rcases hcase with ⟨hfull, hring, _⟩ | ⟨hroom, hring, _⟩
    · rw [if_pos hfull, hring]
      exact hall
    · rw [if_neg hroom, hring, List.map_append, ← List.append_assoc]
      exact hall.append (List.Sublist.refl _)

theorem queueWork_inv (h : StreamInv σ) (ht : σ.running t = some .scheduling) :
    StreamInv { σ with
      queued := σ.queued + 1
      running := Function.update σ.running t none } where
  distinct := h.distinct
  targets := h.targets
  queueing t' := by
    simp only [Function.update_apply]
    split
    · simp
    · exact h.queueing t'
  scheduled := h.scheduled
  pending _ := .inl (Nat.succ_pos _)
  ring := h.ring
  covered i hi := by
    refine (h.covered i hi).mono fun n hn => ?_
    cases hn with
    | numbered t' e ht' hstamp =>
        have hne : t' ≠ t := fun he => by
          rw [he, ht] at ht'
          cases ht'
        exact .numbered t' e ((Function.update_of_ne hne _ _).trans ht') hstamp
    | ringed e he hstamp => exact .ringed e he hstamp
    | flagged hflag => exact .flagged hflag
    | draining d job hd hmem hreach => exact .draining d job hd hmem hreach
  ordered := h.ordered

/-- **What the critical section of a drain takes:** the whole ring and the flag. -/
theorem drainSection_spec (ws : WsState) (valid : ClientSlot → Bool) :
    (drainSection ws valid).1.ring.toList = [] ∧
      (drainSection ws valid).2.jobs =
        (if ws.resyncRequired then [.announce] else []) ++ ws.ring.toList.map .serialize := by
  have hle : ws.ring.count ≤ WEB_WS_EVENT_RING_DEPTH := ws.ring.count_le
  obtain ⟨hbatch, hempty⟩ := RingBuffer.popMany_of_count_le hle
  refine ⟨hempty, ?_⟩
  simp only [drainSection, hbatch]

theorem drainBegin_inv (h : StreamInv σ) {valid : ClientSlot → Bool} {queued : Nat}
    (hdrain : σ.drain = none) :
    StreamInv { σ with
      ws := (drainSection σ.ws valid).1
      queued := queued
      drain := some (drainSection σ.ws valid).2 } := by
  obtain ⟨hring, hjobs⟩ := drainSection_spec σ.ws valid
  have hshrinks : Shrinks σ.ws.clients (drainSection σ.ws valid).1.clients :=
    validated_shrinks σ.ws.clients valid
  have hdistinct := hshrinks.distinct h.distinct
  constructor
  · exact hdistinct
  · intro d hd
    cases hd
    exact ⟨activeFds_nodup hdistinct, fun i hi => mem_activeFds hi⟩
  · exact h.queueing
  · rintro (hne | hflag)
    · exact absurd hring hne
    · exact absurd hflag (by simp [drainSection])
  · intro hp
    exact absurd hp (by simp [drainSection])
  · rw [hring]
    exact List.nil_sublist _
  · intro i hi
    obtain ⟨hold, hfd⟩ := hshrinks i hi
    refine (h.covered i hold).mono fun n hn => ?_
    cases hn with
    | numbered t e ht hstamp => exact .numbered t e ht hstamp
    | ringed e he hstamp =>
        refine .draining _ (.serialize e) rfl ?_ hstamp
        rw [hjobs]
        exact List.mem_append_right _ (List.mem_map_of_mem he)
    | flagged hflag =>
        refine .draining _ .announce rfl ?_ trivial
        rw [hjobs, if_pos hflag]
        exact List.mem_append_left _ (List.mem_singleton.mpr rfl)
    | draining d _ hd _ _ => cases hdrain.symm.trans hd
  · intro i hi
    obtain ⟨hold, hfd⟩ := hshrinks i hi
    have hall := h.ordered i hold
    have hnone : jobStamps (σ.ws.clients i).fd σ.jobs = [] := by simp [Sys.jobs, hdrain, jobStamps]
    have hannounce : ∀ fd, jobStamps fd (if σ.ws.resyncRequired then [.announce] else []) = [] := by
      intro fd
      split <;> rfl
    change (_ ++ jobStamps _ (drainSection σ.ws valid).2.jobs ++ _).Sublist _
    rw [hjobs, jobStamps_append, hannounce, jobStamps_serialize, hring]
    rw [hnone, List.append_nil] at hall
    simpa using hall

/-! ### The jobs of a drain

A job that is done is replaced by the jobs `more`. The parts of the invariant that do not speak of
jobs are untouched.
-/

theorem replaceJob_inv (h : StreamInv σ) {job : Job} {more : List Job}
    (hdrain : σ.drain = some ⟨fds, job :: rest⟩) (hws : σ'.ws = σ.ws)
    (hrunning : σ'.running = σ.running) (hqueued : σ'.queued = σ.queued)
    (htaken : σ'.taken = σ.taken) (hhistory : σ'.history = σ.history)
    (hdrain' : σ'.drain = some ⟨fds, more ++ rest⟩)
    (hreach : ∀ fd ∈ fds, ∀ n, job.Reaches fd n → ∃ job' ∈ more, job'.Reaches fd n)
    (hstamps : ∀ fd ∈ fds, jobStamps fd more = jobStamps fd [job]) : StreamInv σ' := by
  have hmem : ∀ i, (σ.ws.clients i).active = true → (σ.ws.clients i).fd ∈ fds :=
    (h.targets _ hdrain).2
  constructor
  · exact hws ▸ h.distinct
  · intro d hd
    obtain rfl := Option.some.inj (hdrain'.symm.trans hd)
    have htargets := h.targets _ hdrain
    exact hws ▸ htargets
  · exact hrunning ▸ h.queueing
  · exact hws ▸ h.scheduled
  · rw [hws, hqueued, hrunning]
    exact h.pending
  · rw [hws, htaken]
    exact h.ring
  · intro i hi
    rw [hws] at hi ⊢
    rw [hhistory]
    refine (h.covered i hi).mono fun n hn => ?_
    refine hn.redrain hrunning (by rw [hws]) (by rw [hws]) fun d job' hd hjob hr => ?_
    obtain rfl := Option.some.inj (hdrain.symm.trans hd)
    rcases List.mem_cons.mp hjob with rfl | hjob
    · obtain ⟨job', hmore, hr'⟩ := hreach _ (hmem i hi) n hr
      exact .draining _ job' hdrain' (List.mem_append_left _ hmore) hr'
    · exact .draining _ job' hdrain' (List.mem_append_right _ hjob) hr
  · intro i hi
    rw [hws] at hi ⊢
    have hall := h.ordered i hi
    have hsame : jobStamps (σ.ws.clients i).fd σ'.jobs =
        jobStamps (σ.ws.clients i).fd σ.jobs := by
      simp only [Sys.jobs, hdrain, hdrain', Option.elim_some, jobStamps_append,
        hstamps _ (hmem i hi)]
      rw [← jobStamps_append, List.singleton_append]
    rw [hhistory, htaken, hsame]
    exact hall

theorem announce_inv (h : StreamInv σ) (hdrain : σ.drain = some ⟨fds, .announce :: rest⟩)
    (sent : Bool) :
    StreamInv (σ.job ⟨fds, .announce :: rest⟩ rest sent .announce) := by
  refine replaceJob_inv h hdrain rfl rfl rfl rfl rfl rfl ?_ ?_
  · intro fd hfd n _
    exact ⟨_, List.mem_map_of_mem hfd, rfl, .inl rfl⟩
  · intro fd _
    exact jobStamps_resync _ _ _

theorem serialize_inv (h : StreamInv σ) {e : Published}
    (hdrain : σ.drain = some ⟨fds, .serialize e :: rest⟩)
    (hok : serializeEvent e.event WEB_WS_JSON_MAX = none → σ.ws.workPending = true) (sent : Bool) :
    StreamInv (σ.job ⟨fds, .serialize e :: rest⟩ rest sent (.serialize e)) := by
  simp only [Sys.job]
  cases htext : serializeEvent e.event WEB_WS_JSON_MAX with
  | some text =>
      simp only
      refine replaceJob_inv h hdrain rfl rfl rfl rfl rfl rfl ?_ ?_
      · intro fd hfd n hstamp
        exact ⟨_, List.mem_map_of_mem hfd, rfl, .inr (congrArg Mark.sent hstamp)⟩
      · intro fd hfd
        exact jobStamps_event (h.targets _ hdrain).1 hfd _ _
  | none =>
      simp only
      constructor
      · exact h.distinct
      · intro d hd
        cases hd
        have htargets := h.targets _ hdrain
        exact htargets
      · exact h.queueing
      · exact fun _ => hok htext
      · exact h.pending
      · exact h.ring
      · intro i hi
        -- whatever was missed, the flag is set now
        exact (h.covered i hi).mono fun n _ => .flagged rfl
      · intro i hi
        refine List.Sublist.trans ?_ (h.ordered i hi)
        have hjobs : σ.jobs = [.serialize e] ++ rest := by simp [Sys.jobs, hdrain]
        rw [hjobs, jobStamps_append]
        refine .append (.append (.refl _) ?_) (.refl _)
        exact List.sublist_append_right _ _

theorem Job.not_reaches {fd' : Fd} {n : Nat} (hne : fd' ≠ fd) :
    ¬ (Job.send fd' frame).Reaches fd n := fun h => hne h.1

theorem sent_inv (h : StreamInv σ) (hdrain : σ.drain = some ⟨fds, .send fd frame :: rest⟩) :
    StreamInv (σ.job ⟨fds, .send fd frame :: rest⟩ rest true (.send fd frame)) := by
  have hjobs : σ.jobs = [.send fd frame] ++ rest := by simp [Sys.jobs, hdrain]
  simp only [Sys.job, if_true]
  constructor
  · exact h.distinct
  · intro d hd
    cases hd
    have htargets := h.targets _ hdrain
    exact htargets
  · exact h.queueing
  · exact h.scheduled
  · exact h.pending
  · exact h.ring
  · intro i hi
    have hcovered := h.covered i hi
    by_cases hfd : (σ.ws.clients i).fd = fd
    · simp only [Sys.deliver, if_pos (And.intro hi hfd)]
      refine hcovered.concat (fun n hn => ?_) fun n hn => ?_
      · cases hn with
        | numbered t e ht hstamp => exact .inr (.inr (.numbered t e ht hstamp))
        | ringed e he hstamp => exact .inr (.inr (.ringed e he hstamp))
        | flagged hflag => exact .inr (.inr (.flagged hflag))
        | draining d job hd hjob hr =>
            obtain rfl := Option.some.inj (hdrain.symm.trans hd)
            rcases List.mem_cons.mp hjob with rfl | hjob
            · rcases hr.2 with hresync | hsent
              · exact .inr (.inl hresync)
              · exact .inl hsent
            · exact .inr (.inr (.draining _ job rfl hjob hr))
      · cases frame <;> exact absurd hn (by simp [Frame.mark])
    · simp only [Sys.deliver, if_neg fun hboth : _ ∧ _ => hfd hboth.2]
      refine hcovered.mono fun n hn => ?_
      refine hn.redrain rfl rfl rfl fun d job hd hjob hr => ?_
      obtain rfl := Option.some.inj (hdrain.symm.trans hd)
      rcases List.mem_cons.mp hjob with rfl | hjob
      · exact absurd hr (Job.not_reaches fun he => hfd he.symm)
      · exact .draining _ job rfl hjob hr
  · intro i hi
    have hall := h.ordered i hi
    rw [hjobs, jobStamps_append] at hall
    change (sentStamps (σ.deliver fd frame i) ++ jobStamps _ rest ++ _).Sublist _
    by_cases hfd : (σ.ws.clients i).fd = fd
    · have hstamps : jobStamps (σ.ws.clients i).fd [.send fd frame] = sentStamps [frame.mark] := by
        cases frame <;> simp [jobStamps, sentStamps, Frame.mark, hfd]
      rw [Sys.deliver, if_pos ⟨hi, hfd⟩, sentStamps_append, ← hstamps, List.append_assoc
        (sentStamps _)]
      exact hall
    · rw [Sys.deliver, if_neg fun hboth => hfd hboth.2]
      refine List.Sublist.trans ?_ hall
      exact .append (.append (.refl _) (List.sublist_append_right _ _)) (.refl _)

theorem unsent_inv (h : StreamInv σ) (hdrain : σ.drain = some ⟨fds, .send fd frame :: rest⟩) :
    StreamInv (σ.job ⟨fds, .send fd frame :: rest⟩ rest false (.send fd frame)) := by
  have hjobs : σ.jobs = [.send fd frame] ++ rest := by simp [Sys.jobs, hdrain]
  have hshrinks := pruneClient_shrinks σ.ws.clients fd
  have hpruned := shrink_inv h hshrinks
  change StreamInv { σ with
    ws := { σ.ws with clients := pruneClient σ.ws.clients fd }
    drain := some ⟨fds, rest⟩ }
  constructor
  · exact hpruned.distinct
  · intro d hd
    cases hd
    have htargets := hpruned.targets _ hdrain
    exact htargets
  · exact h.queueing
  · exact h.scheduled
  · exact h.pending
  · exact h.ring
  · intro i hi
    have hgone := pruneClient_gone h.distinct hi
    obtain ⟨_, hfd⟩ := hshrinks i hi
    refine (hpruned.covered i hi).mono fun n hn => ?_
    refine hn.redrain rfl rfl rfl fun d job hd hjob hr => ?_
    obtain rfl := Option.some.inj (hdrain.symm.trans hd)
    rcases List.mem_cons.mp hjob with rfl | hjob
    · -- the frame was for the client that is pruned
      exact absurd hr (Job.not_reaches fun he => hgone (hfd.symm.trans he.symm))
    · exact .draining _ job rfl hjob hr
  · intro i hi
    have hall := hpruned.ordered i hi
    refine List.Sublist.trans ?_ hall
    have hjobs' : Sys.jobs { σ with ws := { σ.ws with clients := pruneClient σ.ws.clients fd } } =
        [.send fd frame] ++ rest := hjobs
    rw [hjobs', jobStamps_append]
    exact .append (.append (.refl _) (List.sublist_append_right _ _)) (.refl _)

theorem drainEnd_inv (h : StreamInv σ) (hdrain : σ.drain = some ⟨fds, []⟩) :
    StreamInv { σ with drain := none } where
  distinct := h.distinct
  targets d hd := absurd hd (by simp)
  queueing := h.queueing
  scheduled := h.scheduled
  pending := h.pending
  ring := h.ring
  covered i hi := by
    refine (h.covered i hi).mono fun n hn => ?_
    refine hn.redrain rfl rfl rfl fun d job hd hjob hr => ?_
    obtain rfl := Option.some.inj (hdrain.symm.trans hd)
    cases hjob
  ordered i hi := by
    have hall := h.ordered i hi
    have hnone : σ.jobs = [] := by simp [Sys.jobs, hdrain]
    rw [hnone] at hall
    exact hall

theorem connect_inv (h : StreamInv σ) (hdrain : σ.drain = none) (fd : Fd)
    (valid : ClientSlot → Bool) :
    StreamInv { σ with
      ws := { σ.ws with clients := (registerClient σ.ws.clients fd valid).1 }
      history := fun i =>
        if (registerClient σ.ws.clients fd valid).2 = some i then [] else σ.history i } := by
  have hnone : σ.jobs = [] := by simp [Sys.jobs, hdrain]
  rcases registerClient_spec σ.ws.clients fd valid with
    ⟨i, pruned, hreg, hshrinks, hfree⟩ | ⟨pruned, hreg, hshrinks⟩
  · have hpruned := shrink_inv h hshrinks
    simp only [hreg, Option.some.injEq]
    constructor
    · intro j k hj hk he
      simp only [Function.update_apply] at hj hk he
      split at hj <;> split at hk
      · simp_all
      · rename_i hji hki
        simp only [if_pos hji, if_neg hki] at he
        exact absurd he.symm (hfree k hk)
      · rename_i hji hki
        simp only [if_neg hji, if_pos hki] at he
        exact absurd he (hfree j hj)
      · rename_i hji hki
        simp only [if_neg hji, if_neg hki] at he
        exact hpruned.distinct j k hj hk he
    · intro d hd
      cases hdrain.symm.trans hd
    · exact h.queueing
    · exact h.scheduled
    · exact h.pending
    · exact h.ring
    · intro j hj
      by_cases hij : i = j
      · subst hij
        simp only [if_true]
        exact coveredBut_nil _
      · simp only [Function.update_of_ne (Ne.symm hij), if_neg hij] at hj ⊢
        refine (hpruned.covered j hj).mono fun n hn => ?_
        exact hn.redrain rfl rfl rfl fun d _ hd _ _ => absurd (hdrain.symm.trans hd) (by simp)
    · intro j hj
      by_cases hij : i = j
      · subst hij
        have hring := h.ring
        change (sentStamps (if i = i then [] else _) ++ jobStamps _ σ.jobs ++ _).Sublist _
        rw [hnone, if_pos rfl]
        exact hring
      · simp only [Function.update_of_ne (Ne.symm hij), if_neg hij] at hj ⊢
        exact hpruned.ordered j hj
  · simp only [hreg]
    exact shrink_inv h hshrinks

/-! ## Runs -/

/-- **One step keeps the invariant** under the condition. -/
theorem step_inv {l : Label} (h : StreamInv σ) (hok : Recovers σ l) (hstep : σ.step l = some σ') :
    StreamInv σ' := by
  cases l with
  | publish t event =>
      obtain ⟨hidle, ⟨⟩⟩ := Option.ite_none_left_eq_some.mp hstep
      exact publish_inv h event (by simpa using hidle)
  | takeEvent t =>
      rw [Sys.step] at hstep
      split at hstep
      · rename_i e ht
        cases hstep
        exact takeEvent_inv h ht
      · cases hstep
  | queueWork t ok =>
      obtain rfl : ok = true := hok
      rw [Sys.step] at hstep
      split at hstep
      · rename_i ht
        cases hstep
        exact queueWork_inv h ht
      · cases hstep
  | queueFailed t =>
      rw [Sys.step] at hstep
      split at hstep
      · rename_i ht
        exact absurd ht (h.queueing t)
      · cases hstep
  | drainBegin valid =>
      rw [Sys.step] at hstep
      split at hstep
      · rename_i hdrain
        cases hstep
        exact drainBegin_inv h hdrain
      · cases hstep
  | drainJob sent =>
      rw [Sys.step] at hstep
      split at hstep
      · rename_i fds job rest hdrain
        cases hstep
        cases job with
        | announce => exact announce_inv h hdrain sent
        | serialize e => exact serialize_inv h hdrain (hok _ _ _ hdrain) sent
        | send fd frame =>
            cases sent with
            | true => exact sent_inv h hdrain
            | false => exact unsent_inv h hdrain
      · cases hstep
  | drainEnd =>
      rw [Sys.step] at hstep
      split at hstep
      · rename_i hdrain
        cases hstep
        exact drainEnd_inv h hdrain
      · cases hstep
  | connect fd valid =>
      obtain ⟨hdrain, ⟨⟩⟩ := Option.ite_none_left_eq_some.mp hstep
      exact connect_inv h (by simpa using hdrain) fd valid
  | close fd =>
      obtain ⟨-, ⟨⟩⟩ := Option.ite_none_left_eq_some.mp hstep
      exact shrink_inv h (pruneClient_shrinks _ fd)

/-- **No event is lost silently** in a run whose calls of `httpd_queue_work` succeed and whose
events serialize, or meet a drain that is scheduled already. -/
theorem stream_lossless {σ : Sys} (hσ : machine.ReachableWhen Recovers σ) : NoSilentLoss σ := by
  have hinit : ∀ s, machine.init s → StreamInv s := by
    rintro _ ⟨seq, rfl⟩
    exact boot_inv seq
  exact (hσ.invariant hinit fun _ _ _ => step_inv).noSilentLoss

set_option maxRecDepth 100000 in
/-- An event is published, its drain runs to the end, and the client has it. -/
theorem stream_lossless_drained :
    ∃ σ, machine.ReachableWhen Recovers σ ∧ σ.Quiet ∧ σ.history 0 = [.published 0, .sent 0] ∧
      NoSilentLoss σ := by
  have hconnect : machine.ReachableWhen Recovers _ :=
    .step (l := .connect 5 fun _ => true) (.init ⟨0, rfl⟩) trivial rfl
  have hpublish : machine.ReachableWhen Recovers _ :=
    .step (l := .publish 0 {}) hconnect trivial rfl
  have htake : machine.ReachableWhen Recovers _ := .step (l := .takeEvent 0) hpublish trivial rfl
  have hqueue : machine.ReachableWhen Recovers _ := .step (l := .queueWork 0 true) htake rfl rfl
  have hbegin : machine.ReachableWhen Recovers _ :=
    .step (l := .drainBegin fun _ => true) hqueue trivial rfl
  have htext : serializeEvent { ({} : GatewayEvent) with seq := 1 } WEB_WS_JSON_MAX ≠ none := by
    decide
  have hserialize : machine.ReachableWhen Recovers _ :=
    .step (l := .drainJob true) hbegin (fun _ _ _ hdrain hnone => by
      cases hdrain
      exact absurd hnone htext) rfl
  have hsend : machine.ReachableWhen Recovers _ :=
    .step (l := .drainJob true) hserialize (fun _ _ _ hdrain _ => by cases hdrain) rfl
  have hend : machine.ReachableWhen Recovers _ := .step (l := .drainEnd) hsend trivial rfl
  refine ⟨_, hend, ⟨fun t => ?_, rfl, rfl⟩, rfl, stream_lossless hend⟩
  by_cases ht : t = 0
  · rw [ht]
    rfl
  · exact (Function.update_of_ne ht _ _).trans
      ((Function.update_of_ne ht _ _).trans (Function.update_of_ne ht _ _))

/-! ## The two branches that lose an event -/

/-- A client, an event, and a call of `httpd_queue_work` that fails. -/
def queueWorkFails : List Label :=
  [.connect 5 fun _ => true, .publish 0 {}, .takeEvent 0, .queueWork 0 false, .queueFailed 0]

/-- An event whose feature identifier has 31 control characters, which do not fit escaped. -/
def unprintable : GatewayEvent :=
  { type := .featureState, featureId := strlcpy _ (List.replicate 31 1) }

/-- A client, and an event that does not serialize. -/
def serializeFails : List Label :=
  [.connect 5 fun _ => true, .publish 0 unprintable, .takeEvent 0, .queueWork 0 true,
    .drainBegin fun _ => true, .drainJob true, .drainEnd]

/-- The client has been sent nothing, a resync is due, and no drain is queued or running. -/
def Sys.forgotten (σ : Sys) : Bool :=
  (σ.ws.clients 0).active && decide (σ.history 0 = [.published 0]) && σ.ws.resyncRequired &&
    !σ.ws.workPending && decide (σ.queued = 0) && σ.drain.isNone && (σ.running 0).isNone

theorem not_noSilentLoss (h : σ.forgotten = true) : ¬ NoSilentLoss σ := by
  intro hloss
  simp only [Sys.forgotten, Bool.and_eq_true, Bool.not_eq_true'] at h
  have hscheduled := hloss.scheduled (.inr h.1.1.1.1.2)
  cases h.1.1.1.2.symm.trans hscheduled.1

set_option maxRecDepth 100000 in
/-- Both runs end with an event that the client was not sent, and with nothing left to run. -/
theorem stream_loses :
    (∃ σ, machine.run (boot 0) queueWorkFails = some σ ∧ σ.forgotten = true ∧ ¬ NoSilentLoss σ) ∧
      ∃ σ, machine.run (boot 0) serializeFails = some σ ∧ σ.forgotten = true ∧
        ¬ NoSilentLoss σ := by
  have hqueue : ((machine.run (boot 0) queueWorkFails).map Sys.forgotten) = some true := by
    decide
  have hserialize : ((machine.run (boot 0) serializeFails).map Sys.forgotten) = some true := by
    decide
  obtain ⟨σ, hσ, hp⟩ := Option.map_eq_some_iff.mp hqueue
  obtain ⟨τ, hτ, hq⟩ := Option.map_eq_some_iff.mp hserialize
  exact ⟨⟨σ, hσ, hp, not_noSilentLoss hp⟩, τ, hτ, hq, not_noSilentLoss hq⟩

end BleGateway.EventStream
