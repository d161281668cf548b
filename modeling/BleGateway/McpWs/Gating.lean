import BleGateway.McpWs.Isolation

/-! # The session gate

A session is READY when `notifications/initialized` has been handled and `initialize` before it. The
bridge judges both by the core's return code, which says that something was answered, not what. The
invariant: once `initialize` counts as answered it was answered with a result, if no other message
was taken for one; and then READY needs a notification after it.
-/

namespace BleGateway.McpWs

open Mcp

/-! ## The property -/

/-- The session is READY only after an answered initialize request and an initialized notification,
and before that no method other than those of the handshake and `ping` is executed. The request and
the notification are of the present generation, or the task has given the connection up: from the
section of `bridge_destroy_client` on there is no session, and READY stands until the state is set
anew. -/
def SessionGated (s : Sys) : Prop :=
  (s.bridge.state = .ready → s.history.answered = true ∧ s.history.confirmed = true ∧
      ∀ generation ∈ s.history.session, generation = s.bridge.generation) ∧
    ∀ x ∈ s.history.executed, ¬ x.1.Handshake → x.2 = true

/-- The id of a request. -/
def RequestId (root : Json) : Prop := (duplicateId (idOf root)).isNull = false

instance (root : Json) : Decidable (RequestId root) := inferInstanceAs (Decidable (_ = _))

/-- A message that is taken for `initialize` or for `notifications/initialized`, where that counts,
is one. -/
def WellMeant (cfg : Cfg) (b : Bridge) (root : Json) : Prop :=
  (methodOf root = some (cstr "initialize") → b.initializeResponseSent = false →
      InitializeRequest cfg.env root ∧ RequestId root) ∧
    (methodOf root = some (cstr "notifications/initialized") → b.initializeResponseSent = true →
      b.state ≠ .ready → InitializedNotification root)

instance (cfg : Cfg) (b : Bridge) (root : Json) : Decidable (WellMeant cfg b root) :=
  inferInstanceAs (Decidable (_ ∧ _))

/-- The message that the task handles next is well meant, if it is current. -/
def Orderly (cfg : Cfg) (s : Sys) (_ : Label) : Prop :=
  ∀ p ∈ s.task, ∀ m ∈ p.message, s.bridge.hasClient m.1 = true → s.bridge.generation = m.2.1 →
    ∀ root ∈ cfg.parse m.2.2, WellMeant cfg s.bridge root

instance (cfg : Cfg) (s : Sys) (l : Label) : Decidable (Orderly cfg s l) :=
  inferInstanceAs (Decidable (∀ p ∈ s.task, _))

/-! ## The core's part -/

theorem followup_initialize {root : Option Json} (h : followup root = .initializeRequest) :
    ∃ r, root = some r ∧ methodOf r = some (cstr "initialize") := by
  unfold followup at h
  split at h
  · rename_i hm
    exact Option.bind_eq_some_iff.mp hm
  · split at h <;> exact absurd h (by simp)

theorem followup_initialized {root : Option Json} (h : followup root = .initialized) :
    ∃ r, root = some r ∧ methodOf r = some (cstr "notifications/initialized") := by
  unfold followup at h
  split at h
  · cases h
  · split at h
    · rename_i hm
      exact Option.bind_eq_some_iff.mp hm
    · cases h

variable {payload : Bytes} {t : Sys} {origin : Conn} {generation : Nat}

/-- **Before the session is ready** only the methods of the handshake and `ping` are executed. -/
theorem handlePayload_executed {cfg : Cfg} {ready : Bool} {m : Method}
    (h : (handlePayload cfg ready payload).1 = some m) (hm : ¬ m.Handshake) : ready = true := by
  by_contra hready
  rw [Bool.not_eq_true] at hready
  unfold handlePayload at h
  dsimp only at h
  split at h
  · cases h
  · rename_i hgate
    split at h
    · cases h
    · cases hroot : cfg.parse payload with
      | none =>
          rw [hroot] at h
          exact absurd h (by simp [handleJson])
      | some root =>
          rw [hroot] at h hgate
          have hhandshake : HandshakeMethod root := by
            by_contra hno
            exact hgate ⟨by simp [hno], hready⟩
          exact hm (handleJson_handshake hhandshake h)

/-- An `initialize` is answered, with a result if it is a request for one. -/
theorem handlePayload_initialize {cfg : Cfg} (ready : Bool) {root : Json}
    (hparse : cfg.parse payload = some root) (hmethod : methodOf root = some (cstr "initialize")) :
    (handlePayload cfg ready payload).2 = some (.refused .invalidArg) ∨
      ∃ reply, (handlePayload cfg ready payload).2 = some (.send reply) ∧
        (InitializeRequest cfg.env root → RequestId root → Reply.answers reply = true) := by
  have hgate : ¬ Gated ready (some root) := by
    rintro ⟨hno, _⟩
    have hhandshake : HandshakeMethod root := .inl hmethod
    simp [hhandshake] at hno
  unfold handlePayload
  dsimp only
  rw [hparse, if_neg hgate]
  split
  · exact .inl rfl
  · refine .inr ?_
    by_cases hrequest : InitializeRequest cfg.env root
    · obtain ⟨result, _, hhandled⟩ := handleJson_initialize (rxWire (some root)) hmethod hrequest
      refine ⟨_, congrArg some (congrArg Prod.snd hhandled), fun _ hid => ?_⟩
      rw [Reply.answers, hid]
      rfl
    · obtain ⟨id, e, hhandled⟩ :=
        handleJson_initialize_error (rxWire (some root)) hmethod hrequest
      exact ⟨_, congrArg some hhandled, fun h => absurd h hrequest⟩

/-! ## The invariant -/

/-- What holds while an answer with the follow-up `k` is on its way. -/
def FollowupGate (b : Bridge) (history : History) (reply : Option Reply) : Followup → Prop
  | .nothing => True
  | .initializeRequest => history.answered = true ∨ reply.any Reply.answers = true
  | .initialized => b.initializeResponseSent = true → history.confirmed = true

/-- The session, unless it is given up, is of the generation. -/
def Sys.InSession (s : Sys) (generation : Nat) : Prop := ∀ g ∈ s.history.session, g = generation

/-- There is a connection, as far as the state goes. -/
def LinkState.up : LinkState → Bool
  | .handshaking | .ready => true
  | _ => false

def PointGate (s : Sys) : Point → Prop
  | .respond _ reply k _ => FollowupGate s.bridge s.history (some reply) k
  | .queueTx generation reply k _ =>
      FollowupGate s.bridge s.history (some reply) k ∧ s.InSession generation
  | .initializeDone generation _ =>
      FollowupGate s.bridge s.history none .initializeRequest ∧ s.InSession generation
  | .initializedDone _ _ => FollowupGate s.bridge s.history none .initialized
  | _ => True

structure Gate (s : Sys) : Prop where
  ready : s.bridge.state = .ready → s.history.answered = true ∧ s.history.confirmed = true
  up : s.bridge.state.up = true → s.InSession s.bridge.generation
  sent : s.bridge.initializeResponseSent = true →
    s.history.answered = true ∧ s.InSession s.bridge.generation
  executed : ∀ x ∈ s.history.executed, ¬ x.1.Handshake → x.2 = true
  point : ∀ p, s.task = some p → PointGate s p

/-- What is recorded of the messages. -/
def History.record (h : History) : Bool × Bool × List (Method × Bool) :=
  (h.answered, h.confirmed, h.executed)

/-- `t` claims no more of its session than `s`, about which the same is recorded. The session is
given up with a new generation, or not claimed to be of it. -/
structure Fewer (s t : Sys) : Prop where
  state : t.bridge.state = s.bridge.state ∨ t.bridge.state.up = false
  sent : t.bridge.initializeResponseSent = true → s.bridge.initializeResponseSent = true
  record : t.history.record = s.history.record
  session : t.history.session = none ∨ t.history.session = s.history.session ∧
    (t.bridge.generation = s.bridge.generation ∨
      t.bridge.state.up = false ∧ t.bridge.initializeResponseSent = false)

theorem Sys.InSession.fewer {s : Sys} (h : s.InSession generation) (hf : Fewer s t) :
    t.InSession generation := by
  rcases hf.session with hnone | ⟨hsame, -⟩
  · simp [Sys.InSession, hnone]
  · rw [Sys.InSession, hsame]
    exact h

theorem Fewer.inSession {s : Sys} (hf : Fewer s t) (h : s.InSession s.bridge.generation)
    (hclaims : t.bridge.state.up = true ∨ t.bridge.initializeResponseSent = true) :
    t.InSession t.bridge.generation := by
  rcases hf.session with hnone | ⟨-, hgeneration | ⟨hup, hsent⟩⟩
  · simp [Sys.InSession, hnone]
  · rw [hgeneration]
    exact h.fewer hf
  · simp [hup, hsent] at hclaims

theorem Fewer.up {s : Sys} (hf : Fewer s t) (h : t.bridge.state.up = true) :
    t.bridge.state = s.bridge.state :=
  hf.state.resolve_right fun hnot => by simp [hnot] at h

theorem PointGate.fewer {s : Sys} {p : Point} (h : PointGate s p) (hf : Fewer s t) :
    PointGate t p := by
  have hanswered : t.history.answered = s.history.answered := congrArg Prod.fst hf.record
  have hconfirmed : t.history.confirmed = s.history.confirmed :=
    congrArg (fun r => r.2.1) hf.record
  have hfollowup : ∀ reply k, FollowupGate s.bridge s.history reply k →
      FollowupGate t.bridge t.history reply k := by
    intro reply k hk
    cases k with
    | nothing => trivial
    | initializeRequest => exact hk.imp_left hanswered.trans
    | initialized => exact fun hsent => hconfirmed.trans (hk (hf.sent hsent))
  cases p with
  | respond => exact hfollowup _ _ h
  | queueTx => exact ⟨hfollowup _ _ h.1, h.2.fewer hf⟩
  | initializeDone generation origin =>
      exact ⟨hfollowup none .initializeRequest h.1, h.2.fewer hf⟩
  | initializedDone generation origin => exact hfollowup none .initialized h
  | _ => trivial

theorem Gate.fewer {s : Sys} (hg : Gate s) (hf : Fewer s t)
    (hpoint : ∀ p, t.task = some p → PointGate t p) : Gate t where
  ready h := by
    have hrecord := hf.record
    obtain ⟨hanswered, hconfirmed⟩ := hg.ready ((hf.up (by rw [h]; rfl)).symm.trans h)
    exact ⟨(congrArg Prod.fst hrecord).trans hanswered,
      (congrArg (fun r => r.2.1) hrecord).trans hconfirmed⟩
  up h := hf.inSession (hg.up (hf.up h ▸ h)) (.inl h)
  sent h := by
    obtain ⟨hanswered, hsession⟩ := hg.sent (hf.sent h)
    exact ⟨(congrArg Prod.fst hf.record).trans hanswered, hf.inSession hsession (.inr h)⟩
  executed := by
    rw [show t.history.executed = s.history.executed from congrArg (fun r => r.2.2) hf.record]
    exact hg.executed
  point := hpoint

/-- The task stays where it is. -/
theorem Gate.outside {s : Sys} (hg : Gate s) (hf : Fewer s t) (htask : t.task = s.task) :
    Gate t := hg.fewer hf fun p hp => (hg.point p (htask ▸ hp)).fewer hf

/-- The session is as it was, though the state may be another one. -/
theorem Fewer.bridge {s : Sys}
    (hstate : t.bridge.state = s.bridge.state ∨ t.bridge.state.up = false)
    (hbridge : t.bridge.initializeResponseSent = s.bridge.initializeResponseSent ∧
      t.bridge.generation = s.bridge.generation)
    (hhistory : t.history.record = s.history.record ∧ t.history.session = s.history.session) :
    Fewer s t :=
  ⟨hstate, fun h => hbridge.1 ▸ h, hhistory.1, .inr ⟨hhistory.2, .inl hbridge.2⟩⟩

theorem Fewer.refl (s : Sys) : Fewer s s := .bridge (.inl rfl) ⟨rfl, rfl⟩ ⟨rfl, rfl⟩

/-- An invalidated session claims nothing. -/
theorem Fewer.invalidated {s : Sys} (hstate : t.bridge.state.up = false)
    (hsent : t.bridge.initializeResponseSent = false)
    (hhistory : t.history.record = s.history.record ∧ t.history.session = s.history.session) :
    Fewer s t :=
  ⟨.inr hstate, fun h => absurd (hsent.symm.trans h) (by simp), hhistory.1,
    .inr ⟨hhistory.2, .inr ⟨hstate, hsent⟩⟩⟩

/-- A connection that is given up leaves the state as it is. -/
theorem Fewer.ended {s : Sys} (hstate : t.bridge.state = s.bridge.state)
    (hsent : t.bridge.initializeResponseSent = false)
    (hrecord : t.history.record = s.history.record) (hsession : t.history.session = none) :
    Fewer s t :=
  ⟨.inl hstate, fun h => absurd (hsent.symm.trans h) (by simp), hrecord, .inl hsession⟩

theorem Gate.done {s : Sys} (hg : Gate s) (hf : Fewer s t) : Gate t.done :=
  hg.fewer ⟨hf.state, hf.sent, hf.record, hf.session⟩ fun p hp => absurd hp (by simp [Sys.done])

/-- The task goes to a point where nothing is to be known. -/
theorem Gate.goto {s : Sys} (hg : Gate s) (p : Point) (hf : Fewer s t)
    (hp : PointGate (t.goto p) p) :
    Gate (t.goto p) := by
  refine hg.fewer ⟨hf.state, hf.sent, hf.record, hf.session⟩ fun q hq => ?_
  cases hq
  exact hp

/-! ## The task's sections -/

section Sections
variable {cfg : Cfg} {s : Sys} (hg : Gate s)
include hg

omit hg in
theorem followup_gate {s : Sys} {k : Followup} {p : Point}
    (hk : FollowupGate s.bridge s.history none k)
    (hin : k = .initializeRequest → s.InSession generation)
    (h : k.point generation origin = some p) : PointGate s p := by
  cases k with
  | nothing => exact absurd h (by simp [Followup.point])
  | initializeRequest =>
      cases h
      exact ⟨hk, hin rfl⟩
  | initialized =>
      cases h
      exact hk

theorem gate_connected (h : Handle) (origin : Conn) : Gate (s.connected h origin) := by
  unfold Sys.connected
  split
  · -- a new session: it is of the new generation, and nothing more is claimed and recorded
    refine ⟨fun h => absurd h (by simp [Sys.goto]), fun _ g hg => ?_,
      fun h => absurd h (by simp [Sys.goto, Bridge.invalidate]), hg.executed, fun p hp => ?_⟩
    · exact (Option.mem_some_iff.mp hg).symm
    · cases hp
      trivial
  · exact hg.done (.refl s)

/-- What is recorded of a message: what is executed passed the gate. -/
theorem gate_recordMessage (payload : Bytes) (origin : Conn) (hbridge : t.bridge = s.bridge)
    (hhistory : t.history = (s.recordMessage cfg payload origin).history)
    (hpoint : ∀ p, t.task = some p → PointGate t p) : Gate t where
  ready h := by
    rw [hbridge] at h
    obtain ⟨hanswered, hconfirmed⟩ := hg.ready h
    rw [hhistory]
    refine ⟨hanswered, ?_⟩
    simp [Sys.recordMessage, Sys.affect, hconfirmed]
  up h := by
    rw [Sys.InSession, hbridge, hhistory]
    exact hg.up (hbridge ▸ h)
  sent h := by
    rw [Sys.InSession, hbridge, hhistory]
    exact hg.sent (hbridge ▸ h)
  executed := by
    rw [hhistory]
    intro x hx hm
    rcases List.mem_append.mp hx with hx | hx
    · exact hg.executed x hx hm
    · obtain ⟨m, hexecuted, rfl⟩ := Option.map_eq_some_iff.mp (Option.mem_toList.mp hx)
      exact handlePayload_executed hexecuted hm
  point := hpoint

omit hg in
theorem rxFollowup_eq {ready : Bool} {k : Followup} (h : rxFollowup cfg ready payload = k)
    (hk : k ≠ .nothing) :
    followup (cfg.parse payload) = k := by
  unfold rxFollowup at h
  split at h
  · exact absurd h.symm hk
  · exact h

/-- What is taken for a step of the handshake is one: the action `a` of a message, if it is no
refusal, satisfies the gate of the message's follow-up. -/
theorem followupGate_message (origin : Conn) {a : Action}
    (hmeant : ∀ root, cfg.parse payload = some root → WellMeant cfg s.bridge root)
    (ha : (handlePayload cfg (decide (s.bridge.state = .ready)) payload).2 = some a)
    (hrefused : ∀ code, a ≠ .refused code) :
    FollowupGate s.bridge (s.recordMessage cfg payload origin).history
      (match a with | .send reply => some reply | _ => none)
      (rxFollowup cfg (decide (s.bridge.state = .ready)) payload) := by
  cases hk : rxFollowup cfg (decide (s.bridge.state = .ready)) payload with
  | nothing => trivial
  | initializeRequest =>
      obtain ⟨root, hroot, hmethod⟩ := followup_initialize (rxFollowup_eq hk (by simp))
      rcases handlePayload_initialize (decide (s.bridge.state = .ready)) hroot hmethod with
        h | ⟨reply, h, hreply⟩
      · exact absurd (Option.some.inj (ha.symm.trans h)) (hrefused _)
      · obtain rfl := Option.some.inj (ha.symm.trans h)
        -- an earlier initialize was answered, or this one is a request for a result
        cases hsent : s.bridge.initializeResponseSent with
        | true => exact .inl (hg.sent hsent).1
        | false =>
            obtain ⟨hrequest, hid⟩ := (hmeant root hroot).1 hmethod hsent
            exact .inr (hreply hrequest hid)
  | initialized =>
      obtain ⟨root, hroot, hmethod⟩ := followup_initialized (rxFollowup_eq hk (by simp))
      intro hsent
      by_cases hready : s.bridge.state = .ready
      · simp [Sys.recordMessage, Sys.affect, (hg.ready hready).2]
      · have hnotified := (hmeant root hroot).2 hmethod hsent hready
        simp [Sys.recordMessage, Sys.affect, hroot, hnotified, (hg.sent hsent).1]

omit hg in
/-- An `initialize` that is not refused is answered at once. -/
theorem not_initialize {ready : Bool} {a : Action}
    (ha : (handlePayload cfg ready payload).2 = some a) (hrefused : ∀ code, a ≠ .refused code)
    (hsend : ∀ reply, a ≠ .send reply) :
    rxFollowup cfg ready payload ≠ .initializeRequest := by
  intro hk
  obtain ⟨root, hroot, hmethod⟩ := followup_initialize (rxFollowup_eq hk (by simp))
  rcases handlePayload_initialize ready hroot hmethod with h | ⟨reply, h, -⟩
  · exact hrefused _ (Option.some.inj (ha.symm.trans h))
  · exact hsend _ (Option.some.inj (ha.symm.trans h))

/-- **A message.** -/
theorem gate_receive {h : Handle}
    (hmeant : s.bridge.hasClient h = true → s.bridge.generation = generation →
      ∀ root, cfg.parse payload = some root → WellMeant cfg s.bridge root) :
    Gate (s.receive cfg h generation payload origin) := by
  unfold Sys.receive
  split
  · rename_i hcurrent
    rw [Bool.and_eq_true, decide_eq_true_eq] at hcurrent
    have hmeant := hmeant hcurrent.1 hcurrent.2
    dsimp only
    split
    · rename_i reply ha
      refine gate_recordMessage hg payload origin rfl rfl fun p hp => ?_
      cases hp
      exact followupGate_message hg origin hmeant ha (by simp)
    · rename_i ha
      have hno := not_initialize ha (by simp) (by simp)
      exact gate_recordMessage hg payload origin rfl rfl fun p hp =>
        followup_gate (followupGate_message hg origin hmeant ha (by simp)) (absurd · hno) hp
    · rename_i ha
      have hno := not_initialize ha (by simp) (by simp)
      exact gate_recordMessage hg payload origin rfl rfl fun p hp =>
        followup_gate (followupGate_message hg origin hmeant ha (by simp)) (absurd · hno) hp
    · exact gate_recordMessage hg payload origin rfl rfl fun p hp => absurd hp (by simp [Sys.done])
    · exact gate_recordMessage hg payload origin rfl rfl fun p hp => absurd hp (by simp [Sys.done])
  · exact hg.done (.refl s)

theorem gate_queueTx {ok : Bool} {reply : Reply} {k : Followup}
    (hp : s.task = some (.queueTx generation reply k origin)) :
    Gate (s.queueTx cfg ok generation reply k origin) := by
  obtain ⟨hk, hin⟩ : FollowupGate s.bridge s.history (some reply) k ∧ s.InSession generation :=
    hg.point _ hp
  unfold Sys.queueTx
  split
  · have hbridge := enqueue_bridge cfg s (.txMessage generation reply origin)
    refine ⟨fun h => ?_, fun h => ?_, fun h => ?_, hg.executed,
      fun p hp => followup_gate ?_ (fun _ => hin) hp⟩
    · obtain ⟨hanswered, hconfirmed⟩ := hg.ready (hbridge ▸ h)
      exact ⟨by simp [hanswered], hconfirmed⟩
    · exact hbridge.symm ▸ hg.up (hbridge ▸ h)
    · obtain ⟨hanswered, hsession⟩ := hg.sent (hbridge ▸ h)
      exact ⟨by simp [hanswered], hbridge.symm ▸ hsession⟩
    · cases k with
      | nothing => trivial
      | initializeRequest =>
          left
          rcases hk with hk | hk
          · simp [hk]
          · rw [Option.any_some] at hk
            simp [hk]
      | initialized => exact fun hsent => hk (hbridge ▸ hsent)
  · exact hg.done (.refl s)

theorem gate_initializeDone (hp : s.task = some (.initializeDone generation origin)) :
    Gate (s.initializeDone generation origin) := by
  obtain ⟨hgate, hin⟩ : FollowupGate s.bridge s.history none .initializeRequest ∧
    s.InSession generation := hg.point _ hp
  have hanswered : s.history.answered = true := hgate.resolve_right (by simp)
  unfold Sys.initializeDone
  split
  · rename_i hcurrent
    exact ⟨hg.ready, hg.up, fun _ => ⟨hanswered, fun g hg => (hin g hg).trans hcurrent.symm⟩,
      hg.executed, fun p hp => absurd hp (by simp [Sys.done])⟩
  · exact hg.done (.refl s)

theorem gate_initializedDone (hp : s.task = some (.initializedDone generation origin)) :
    Gate (s.initializedDone generation origin) := by
  have hconfirmed : s.bridge.initializeResponseSent = true → s.history.confirmed = true :=
    hg.point _ hp
  unfold Sys.initializedDone
  split
  · rename_i hcurrent
    obtain ⟨hanswered, hsession⟩ := hg.sent hcurrent.2
    exact ⟨fun _ => ⟨hanswered, hconfirmed hcurrent.2⟩, fun _ => hsession, hg.sent, hg.executed,
      fun p hp => absurd hp (by simp [Sys.done])⟩
  · exact hg.done (.refl s)

omit hg in
/-- An answer is sent over a connection of its own generation. -/
theorem alive_up {b : Bridge} (h : b.alive generation = true) :
    b.generation = generation ∧ b.state.up = true := by
  simp only [Bridge.alive, Bool.and_eq_true, Bool.or_eq_true, decide_eq_true_eq] at h
  refine ⟨h.1.1, ?_⟩
  rcases h.2 with hs | hs <;> rw [hs] <;> rfl

omit hg in
theorem idleState_up (b : Bridge) : b.idleState.up = false := by
  unfold Bridge.idleState
  split <;> rfl

omit hg in
theorem reloadState_up (b : Bridge) : b.reloadState.up = false := by
  unfold Bridge.reloadState
  split
  · rfl
  · split <;> rfl

theorem gate_settle (k : After) : Gate (s.settle cfg k) := by
  have hdone : ∀ state : LinkState, state.up = false →
      Gate ({ s with bridge := { s.bridge with state := state } }.done) :=
    fun state hup => hg.done (.bridge (.inr hup) ⟨rfl, rfl⟩ ⟨rfl, rfl⟩)
  cases k with
  | networkDown => exact hdone _ (idleState_up _)
  | stop => exact hdone _ rfl
  | reload =>
      simp only [Sys.settle]
      split
      · split
        · exact hg.goto .queueConnect (.refl s) trivial
        · exact hg.goto .startReconnectTimer (.refl s) trivial
      · split
        · exact hdone _ rfl
        · exact hdone _ rfl
  | reconnect origin =>
      simp only [Sys.settle]
      split
      · exact hg.goto .startReconnectTimer
          (.bridge (.inr rfl) ⟨rfl, rfl⟩ ⟨rfl, rfl⟩) trivial
      · exact hdone _ (idleState_up _)

/-- **A section of the task.** -/
theorem gate_work {p : Point} (hp : s.task = some p) (ok : Bool) (h : Handle)
    (hmeant : ∀ m ∈ p.message, s.bridge.hasClient m.1 = true → s.bridge.generation = m.2.1 →
      ∀ root ∈ cfg.parse m.2.2, WellMeant cfg s.bridge root) :
    Gate (s.work cfg ok h p) := by
  cases p with
  | connectBegin =>
      simp only [Sys.work, Sys.connectBegin]
      split
      · exact hg.goto .connectInit (.bridge (.inr rfl) ⟨rfl, rfl⟩ ⟨rfl, rfl⟩)
          trivial
      · exact hg.done (.refl s)
  | connectInit =>
      simp only [Sys.work, Sys.connectInit]
      split
      · exact hg.goto .connectStart (.bridge (.inl rfl) ⟨rfl, rfl⟩ ⟨rfl, rfl⟩) trivial
      · exact hg.goto _ (.refl s) trivial
  | connectStart =>
      simp only [Sys.work, Sys.connectStart]
      split
      · exact hg.done (.bridge (.inl rfl) ⟨rfl, rfl⟩ ⟨rfl, rfl⟩)
      · exact hg.goto _ (.refl s) trivial
  | stopReconnectTimer k => exact hg.goto _ (.bridge (.inl rfl) ⟨rfl, rfl⟩ ⟨rfl, rfl⟩) trivial
  | detach k =>
      have hsame : (k.origin.elim s s.affect).bridge.state = s.bridge.state ∧
          (k.origin.elim s s.affect).history.record = s.history.record := by
        cases k.origin <;> exact ⟨rfl, rfl⟩
      exact hg.goto (.stopHandshakeTimer k) (.ended hsame.1 rfl hsame.2 rfl) trivial
  | stopHandshakeTimer | freeClient =>
      exact hg.goto _ (.bridge (.inl rfl) ⟨rfl, rfl⟩ ⟨rfl, rfl⟩) trivial
  | settle k => exact gate_settle hg k
  | startReconnectTimer | startHandshakeTimer =>
      exact hg.done (.bridge (.inl rfl) ⟨rfl, rfl⟩ ⟨rfl, rfl⟩)
  | queueConnect =>
      exact hg.done (.bridge (.inl (by rw [enqueue_bridge])) (by simp) (by simp))
  | connected client origin => exact gate_connected hg client origin
  | disconnected client origin =>
      simp only [Sys.work, Sys.disconnected]
      split
      · exact hg.goto _ (.refl s) trivial
      · exact hg.done (.refl s)
  | timedOut origin =>
      simp only [Sys.work, Sys.timedOut]
      split
      · exact hg.goto _ (.refl s) trivial
      · exact hg.done (.refl s)
  | receive client generation payload origin =>
      exact gate_receive hg (hmeant _ rfl)
  | respond generation reply k origin =>
      simp only [Sys.work, Sys.respond]
      split
      · rename_i hsends
        obtain ⟨hgeneration, hup⟩ := alive_up hsends.2.2
        exact hg.goto (.queueTx generation reply k origin) (.refl s)
          ⟨hg.point _ hp, hgeneration ▸ hg.up hup⟩
      · exact hg.done (.refl s)
  | queueTx generation reply k origin => exact gate_queueTx hg hp
  | initializeDone generation origin => exact gate_initializeDone hg hp
  | initializedDone generation origin => exact gate_initializedDone hg hp
  | transmit generation reply origin =>
      simp only [Sys.work, Sys.transmit]
      split
      · split
        · exact hg.goto _ (.refl s) trivial
        · exact hg.done (.refl s)
      · exact hg.done (.refl s)
  | sendFrames generation client reply origin =>
      simp only [Sys.work, Sys.sendFrames]
      split
      · exact hg.done (.bridge (.inl rfl) ⟨rfl, rfl⟩ ⟨rfl, rfl⟩)
      · exact hg.goto _ (.bridge (.inl rfl) ⟨rfl, rfl⟩ ⟨rfl, rfl⟩) trivial
  | sendFailed generation client origin =>
      simp only [Sys.work, Sys.sendFailed]
      split
      · exact hg.goto _ (.ended rfl rfl rfl rfl) trivial
      · exact hg.done (.refl s)

omit hg in
theorem Fewer.enqueue {s : Sys} (h : Fewer s t) (e : Event) : Fewer s (t.enqueue cfg e) := by
  refine ⟨?_, ?_, ?_, ?_⟩
  · rw [enqueue_bridge]
    exact h.state
  · rw [enqueue_bridge]
    exact h.sent
  · rw [enqueue_history]
    exact h.record
  · rw [enqueue_bridge, enqueue_history]
    exact h.session

/-- Another actor queues an event. -/
theorem gate_enqueue (e : Event) (hf : Fewer s t) (htask : t.task = s.task) :
    Gate (t.enqueue cfg e) :=
  hg.outside (hf.enqueue e) (by rw [enqueue_task, htask])

theorem gate_clientData (l : Live) (e : DataEvent) : Gate (s.clientData cfg l e) := by
  unfold Sys.clientData
  dsimp only
  split
  · split
    · exact gate_enqueue hg _ (.bridge (.inl rfl) ⟨rfl, rfl⟩ ⟨rfl, rfl⟩) rfl
    · exact hg.outside (.bridge (.inl rfl) ⟨rfl, rfl⟩ ⟨rfl, rfl⟩) rfl
  · exact hg.outside (.bridge (.inl rfl) ⟨rfl, rfl⟩ ⟨rfl, rfl⟩) rfl

end Sections

/-! ## Every step -/

theorem gate_step {cfg : Cfg} {s s' : Sys} {l : Label} (hg : Gate s) (hok : Orderly cfg s l)
    (h : step cfg s l = some s') : Gate s' := by
  cases l with
  | take =>
      simp only [step] at h
      split at h
      · rename_i e queue htask hqueue
        cases h
        refine hg.fewer (.bridge (.inl rfl) ⟨rfl, rfl⟩ ⟨rfl, rfl⟩) fun p hp => ?_
        -- a completion has no follow-up
        cases e with
        | mcpCompletion generation reply origin =>
            cases reply with
            | none => exact absurd hp (by simp [Event.point])
            | some reply =>
                cases hp
                trivial
        | _ =>
            cases hp
            trivial
      · cases h
  | work ok handle =>
      obtain ⟨p, hp, rfl⟩ := Option.map_eq_some_iff.mp h
      exact gate_work hg hp ok handle (hok p hp)
  | clientConnected | clientDisconnected =>
      simp only [step] at h
      split at h
      · split at h
        · cases h
          exact gate_enqueue hg _ (.bridge (.inl rfl) ⟨rfl, rfl⟩ ⟨rfl, rfl⟩) rfl
        · cases h
      · cases h
  | clientData e =>
      simp only [step] at h
      split at h
      · split at h
        · cases h
          exact gate_clientData hg _ e
        · cases h
      · cases h
  | expireReconnect =>
      obtain ⟨-, ⟨⟩⟩ := Option.ite_none_right_eq_some.mp h
      exact hg.outside (.bridge (.inl rfl) ⟨rfl, rfl⟩ ⟨rfl, rfl⟩) rfl
  | expireHandshake =>
      obtain ⟨origin, _, rfl⟩ := Option.map_eq_some_iff.mp h
      exact hg.outside (.bridge (.inl rfl) ⟨rfl, rfl⟩ ⟨rfl, rfl⟩) rfl
  | post i =>
      obtain ⟨e, he, rfl⟩ := Option.map_eq_some_iff.mp h
      exact gate_enqueue hg e (.bridge (.inl rfl) ⟨rfl, rfl⟩ ⟨rfl, rfl⟩) rfl
  | wifiUp | configUpdate =>
      cases h
      exact hg.outside (.bridge (.inl rfl) ⟨rfl, rfl⟩ ⟨rfl, rfl⟩) rfl
  | wifiDown =>
      cases h
      exact hg.outside
        (.invalidated (idleState_up _) rfl ⟨rfl, rfl⟩) rfl
  | apiStart =>
      cases h
      exact hg.outside (.bridge (.inr (reloadState_up _)) ⟨rfl, rfl⟩ ⟨rfl, rfl⟩) rfl
  | apiStop =>
      cases h
      exact hg.outside
        (.invalidated rfl rfl ⟨rfl, rfl⟩) rfl
  | apiReload | configSet =>
      cases h
      exact hg.outside
        (.invalidated (reloadState_up _) rfl ⟨rfl, rfl⟩) rfl
  | configReload =>
      obtain ⟨-, ⟨⟩⟩ := Option.ite_none_right_eq_some.mp h
      have hup : s.configReload.bridge.state.up = false := by
        unfold Sys.configReload
        dsimp only
        split <;> rfl
      exact hg.outside (.invalidated hup rfl ⟨rfl, rfl⟩) rfl
  | commandDone i reply =>
      obtain ⟨w, hw, rfl⟩ := Option.map_eq_some_iff.mp h
      unfold Sys.commandDone
      split
      · exact hg.outside (.bridge (.inl rfl) ⟨rfl, rfl⟩ ⟨rfl, rfl⟩) rfl
      · exact hg.outside (.bridge (.inl rfl) ⟨rfl, rfl⟩ ⟨rfl, rfl⟩) rfl

theorem gate_initial (networkUp enabled endpointSet : Bool) :
    Gate (initial networkUp enabled endpointSet) where
  ready h := absurd h (by simp [initial])
  up h := absurd h (by simp [initial, LinkState.up])
  sent h := absurd h (by simp [initial])
  executed := by
    intro x hx
    exact absurd hx (by simp [initial])
  point := fun p hp => absurd hp (by simp [initial])

/-- **The session is gated** in every run in which each message that is taken for `initialize` or
`notifications/initialized`, where that counts, is one. -/
theorem session_gated {cfg : Cfg} {s : Sys} (h : (machine cfg).ReachableWhen (Orderly cfg) s) :
    SessionGated s := by
  have hgate : Gate s := by
    refine h.invariant ?_ fun s l s' hg hok hstep => gate_step hg hok hstep
    rintro s ⟨networkUp, enabled, endpointSet, rfl⟩
    exact gate_initial networkUp enabled endpointSet
  refine ⟨fun hready => ?_, hgate.executed⟩
  obtain ⟨hanswered, hconfirmed⟩ := hgate.ready hready
  exact ⟨hanswered, hconfirmed, hgate.up (by rw [hready]; rfl)⟩

/-! ## An error that counts as an answer -/

/-- A request for `initialize` with the parameters `params`. -/
def initializeJson (params : List (CString × Json)) : Json :=
  .object [(cstr "jsonrpc", .string (cstr "2.0")), (cstr "id", .number 1),
    (cstr "method", .string (cstr "initialize")), (cstr "params", .object params)]

def initializedJson : Json :=
  .object [(cstr "jsonrpc", .string (cstr "2.0")),
    (cstr "method", .string (cstr "notifications/initialized"))]

def initializeText : Bytes :=
  cstr "\x7b\"jsonrpc\":\"2.0\",\"id\":1,\"method\":\"initialize\",\"params\":\x7b" ++
    cstr "\"clientInfo\":\x7b\"name\":\"c\",\"version\":\"1\"\x7d\x7d\x7d"

def emptyInitializeText : Bytes :=
  cstr "\x7b\"jsonrpc\":\"2.0\",\"id\":1,\"method\":\"initialize\",\"params\":\x7b\x7d\x7d"

def initializedText : Bytes :=
  cstr "\x7b\"jsonrpc\":\"2.0\",\"method\":\"notifications/initialized\"\x7d"

/-- A configuration that parses these messages. -/
def talking : Cfg :=
  { plain with
    parse := fun payload =>
      if payload = initializeText then
        some (initializeJson [(cstr "clientInfo", .object
          [(cstr "name", .string (cstr "c")), (cstr "version", .string (cstr "1"))])])
      else if payload = emptyInitializeText then some (initializeJson [])
      else if payload = initializedText then some initializedJson
      else none }

/-- An `initialize` message is answered, and then the session confirmed. -/
def handshake (payload : Bytes) : List Label :=
  [.clientData (textEvent payload), .take, .work true 0, .work true 0, .work true 0, .work true 0,
    .take, .work true 0, .work true 0, .clientData (textEvent initializedText), .take, .work true 0,
    .work true 0]

set_option maxRecDepth 10000 in
/-- A handshake that makes the session READY. -/
theorem session_gated_ready :
    ∃ s, (machine talking).ReachableWhen (Orderly talking) s ∧ s.bridge.state = .ready ∧
      s.history.session = some s.bridge.generation ∧ SessionGated s := by
  have hrun : ∃ s, (machine talking).ReachableWhen (Orderly talking) s ∧
      decide (s.bridge.state = .ready ∧ s.history.session = some s.bridge.generation) = true :=
    exists_runWhen talking (Orderly talking) (connectFirst ++ handshake initializeText)
      (by decide)
  obtain ⟨s, hs, hp⟩ := hrun
  obtain ⟨hready, hsession⟩ := of_decide_eq_true hp
  exact ⟨s, hs, hready, hsession, session_gated hs⟩

set_option maxRecDepth 10000 in
/-- **An `initialize` that is answered with an error** makes way for READY like any other. -/
theorem session_not_gated : ¬ ∀ cfg s, (machine cfg).Reachable s → SessionGated s := by
  intro h
  have hrun : ∃ s, (machine talking).Reachable s ∧
      (decide (s.bridge.state = .ready) && !s.history.answered) = true :=
    exists_run talking (connectFirst ++ handshake emptyInitializeText) (by decide)
  obtain ⟨s, hs, hp⟩ := hrun
  rw [Bool.and_eq_true, decide_eq_true_eq, Bool.not_eq_true'] at hp
  have hanswered := ((h talking s hs).1 hp.1).1
  rw [hp.2] at hanswered
  exact absurd hanswered (by simp)

end BleGateway.McpWs
