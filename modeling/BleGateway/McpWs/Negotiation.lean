import BleGateway.McpWs.Gating

/-! # The negotiated version

Three places decide the version of a session: the core announces the version that `initialize`
proposes, if it supports it; the bridge writes its own into the status; and the era of later
requests comes from the header that the bridge makes up, or, for another `initialize`, from what
that proposes.
-/

namespace BleGateway.McpWs

open Mcp

/-! ## The property -/

/-- The versions that belong to an era. -/
def eraVersions : Era → List CString
  | .y2024 => [MCP_PROTOCOL_VERSION_2024]
  | .y2025 => [MCP_PROTOCOL_VERSION_2025, MCP_PROTOCOL_VERSION_2025_06]
  | .y2026 => [MCP_PROTOCOL_VERSION_2026]

/-- The version that is announced in the result of `initialize` is the one in the status, and the
eras of later requests denote it. -/
def VersionAgrees (env : Env) (b : Bridge) (result : Json) (later : List Json) : Prop :=
  ∃ v, stringMember result "protocolVersion" = some v ∧ b.negotiatedProtocolVersion = v ∧
    ∀ r ∈ later, ∀ context,
      protocolDetect env.compat2025 env.decodeName r (rxWire (some r)) = .ok context →
      v ∈ eraVersions context.era

/-! ## What the core announces -/

theorem selectedProtocol_2024 {requested : Option CString} :
    selectedProtocol requested = MCP_PROTOCOL_VERSION_2024 ↔
      requested = some MCP_PROTOCOL_VERSION_2024 := by
  have h06 : MCP_PROTOCOL_VERSION_2025_06 ≠ MCP_PROTOCOL_VERSION_2024 := by decide
  have h25 : MCP_PROTOCOL_VERSION_2025 ≠ MCP_PROTOCOL_VERSION_2024 := by decide
  unfold selectedProtocol
  split
  · rename_i h
    exact ⟨fun _ => h, fun _ => rfl⟩
  · rename_i h
    split
    · exact ⟨fun heq => absurd heq h06, fun heq => absurd heq h⟩
    · exact ⟨fun heq => absurd heq h25, fun heq => absurd heq h⟩

theorem buildInitializeResult_version {params : Option Json} {result : Json}
    (h : buildInitializeResult true params = .ok result) :
    stringMember result "protocolVersion" =
      some (selectedProtocol (params.bind (stringMember · "protocolVersion"))) := by
  unfold buildInitializeResult at h
  rw [if_neg (by simp)] at h
  cases hparams : params.filter Json.isObject with
  | none =>
      rw [hparams] at h
      cases h
  | some p =>
      have hp : params = some p := (Option.filter_eq_some_iff.mp hparams).1
      rw [hparams] at h
      simp only at h
      split at h
      · cases h
      · split at h
        · cases h
        · split at h
          · cases h
          · cases h
            rw [hp]
            rfl

/-- An `initialize` that is answered with a result announces the version that is selected. -/
theorem announced {env : Env} {wire : WireContext} {root result : Json}
    (hmethod : methodOf root = some (cstr "initialize"))
    (h : (handleJson env wire (some root)).2 = sendResult result (idOf root)) :
    env.compat2025 = true ∧
      stringMember result "protocolVersion" = some (selectedProtocol (proposedVersion root)) := by
  by_cases hrequest : InitializeRequest env root
  · obtain ⟨result', hbuild, hhandled⟩ := handleJson_initialize wire hmethod hrequest
    have heq : result' = result := by
      rw [hhandled] at h
      exact (Reply.result.inj (Action.send.inj h)).2
    exact ⟨hrequest.2.1, heq ▸ buildInitializeResult_version hbuild⟩
  · obtain ⟨id, e, herror⟩ := handleJson_initialize_error wire hmethod hrequest
    rw [herror] at h
    exact absurd h (by simp [sendResult])

/-- The era of a message over the bridge. -/
theorem detect_era (env : Env) (hcompat : env.compat2025 = true) (r : Json) :
    ∃ context, protocolDetect env.compat2025 env.decodeName r (rxWire (some r)) = .ok context ∧
      context.era = if methodOf r = some (cstr "initialize") ∧
        proposedVersion r ≠ some MCP_PROTOCOL_VERSION_2024 then .y2025 else .y2024 := by
  by_cases hmethod : methodOf r = some (cstr "initialize")
  · refine ⟨_, by rw [protocolDetect, hcompat, if_pos hmethod, if_pos rfl], ?_⟩
    by_cases hproposed : proposedVersion r = some MCP_PROTOCOL_VERSION_2024
    · simp [hproposed]
    · simp [hproposed, hmethod]
  · have hwire : rxWire (some r) = wire2024 := if_neg hmethod
    refine ⟨_, by rw [hcompat, hwire, protocolDetect_wire2024 env.decodeName hmethod], ?_⟩
    rw [if_neg fun h => hmethod h.1]

/-! ## What the status says -/

/-- What a step may do to the status: nothing, or the session ends, or `initialize` was answered. -/
def Negotiates (b b' : Bridge) : Prop :=
  b'.initializeResponseSent = b.initializeResponseSent ∧
      b'.negotiatedProtocolVersion = b.negotiatedProtocolVersion ∨
    b'.initializeResponseSent = false ∨ b'.negotiatedProtocolVersion = NEGOTIATED_VERSION

theorem Negotiates.refl (b : Bridge) : Negotiates b b := .inl ⟨rfl, rfl⟩

theorem negotiates_settle {cfg : Cfg} (s : Sys) (k : After) :
    Negotiates s.bridge (s.settle cfg k).bridge := by
  cases k with
  | networkDown | stop => exact .inl ⟨rfl, rfl⟩
  | reload =>
      simp only [Sys.settle]
      split
      · split <;> exact .inl ⟨rfl, rfl⟩
      · split <;> exact .inl ⟨rfl, rfl⟩
  | reconnect origin =>
      simp only [Sys.settle]
      split <;> exact .inl ⟨rfl, rfl⟩

theorem negotiates_receive {cfg : Cfg} (s : Sys) (h : Handle) (generation : Nat) (payload : Bytes)
    (origin : Conn) : (s.receive cfg h generation payload origin).bridge = s.bridge := by
  unfold Sys.receive
  split
  · dsimp only
    split <;> rfl
  · rfl

theorem negotiates_work {cfg : Cfg} (s : Sys) (ok : Bool) (h : Handle) (p : Point) :
    Negotiates s.bridge (s.work cfg ok h p).bridge := by
  cases p with
  | connectBegin =>
      simp only [Sys.work, Sys.connectBegin]
      split <;> exact .inl ⟨rfl, rfl⟩
  | connectInit =>
      simp only [Sys.work, Sys.connectInit]
      split <;> exact .inl ⟨rfl, rfl⟩
  | connectStart =>
      simp only [Sys.work, Sys.connectStart]
      split <;> exact .refl _
  | detach k => exact .inr (.inl rfl)
  | settle k => exact negotiates_settle s k
  | queueConnect =>
      show Negotiates s.bridge (s.enqueue cfg .connect).bridge
      rw [enqueue_bridge]
      exact .refl _
  | connected client origin =>
      simp only [Sys.work, Sys.connected]
      split
      · exact .inr (.inl rfl)
      · exact .refl _
  | disconnected client origin =>
      simp only [Sys.work, Sys.disconnected]
      split <;> exact .refl _
  | timedOut origin =>
      simp only [Sys.work, Sys.timedOut]
      split <;> exact .refl _
  | receive client generation payload origin =>
      rw [Sys.work, negotiates_receive]
      exact .refl _
  | respond generation reply k origin =>
      simp only [Sys.work, Sys.respond]
      split <;> exact .refl _
  | queueTx generation reply k origin =>
      simp only [Sys.work, Sys.queueTx]
      split
      · rw [show (_ : Sys).bridge = (s.enqueue cfg (.txMessage generation reply origin)).bridge
          from rfl, enqueue_bridge]
        exact .refl _
      · exact .refl _
  | initializeDone generation origin =>
      simp only [Sys.work, Sys.initializeDone]
      split
      · exact .inr (.inr rfl)
      · exact .refl _
  | initializedDone generation origin =>
      simp only [Sys.work, Sys.initializedDone]
      split
      · exact .inl ⟨rfl, rfl⟩
      · exact .refl _
  | transmit generation reply origin =>
      simp only [Sys.work, Sys.transmit]
      split
      · split <;> exact .refl _
      · exact .refl _
  | sendFrames generation client reply origin =>
      simp only [Sys.work, Sys.sendFrames]
      split <;> exact .refl _
  | sendFailed generation client origin =>
      simp only [Sys.work, Sys.sendFailed]
      split
      · exact .inr (.inl rfl)
      · exact .refl _
  | stopReconnectTimer k | stopHandshakeTimer k | freeClient k => exact .refl _
  | startReconnectTimer => exact .refl _
  | startHandshakeTimer origin => exact .refl _

theorem negotiates_step {cfg : Cfg} {s s' : Sys} {l : Label} (h : step cfg s l = some s') :
    Negotiates s.bridge s'.bridge := by
  cases l with
  | take =>
      simp only [step] at h
      split at h
      · cases h
        exact .refl _
      · cases h
  | work ok handle =>
      obtain ⟨p, _, rfl⟩ := Option.map_eq_some_iff.mp h
      exact negotiates_work s ok handle p
  | clientConnected | clientDisconnected =>
      simp only [step] at h
      split at h
      · split at h
        · cases h
          rw [enqueue_bridge]
          exact .refl _
        · cases h
      · cases h
  | clientData e =>
      simp only [step] at h
      split at h
      · split at h
        · cases h
          unfold Sys.clientData
          dsimp only
          split
          · split
            · rw [enqueue_bridge]
              exact .inl ⟨rfl, rfl⟩
            · exact .inl ⟨rfl, rfl⟩
          · exact .refl _
        · cases h
      · cases h
  | expireReconnect =>
      obtain ⟨-, ⟨⟩⟩ := Option.ite_none_right_eq_some.mp h
      exact .refl _
  | expireHandshake =>
      obtain ⟨origin, _, rfl⟩ := Option.map_eq_some_iff.mp h
      exact .refl _
  | post i =>
      obtain ⟨e, _, rfl⟩ := Option.map_eq_some_iff.mp h
      rw [enqueue_bridge]
      exact .refl _
  | wifiUp | apiStart | configUpdate =>
      cases h
      exact .inl ⟨rfl, rfl⟩
  | wifiDown | apiStop | apiReload | configSet =>
      cases h
      exact .inr (.inl rfl)
  | configReload =>
      obtain ⟨-, ⟨⟩⟩ := Option.ite_none_right_eq_some.mp h
      exact .inr (.inl rfl)
  | commandDone i reply =>
      obtain ⟨w, _, rfl⟩ := Option.map_eq_some_iff.mp h
      unfold Sys.commandDone
      split <;> exact .refl _

/-- **The status always says 2024-11-05** when `initialize` has been answered. -/
theorem negotiated_of_sent {cfg : Cfg} {s : Sys} (h : (machine cfg).Reachable s) :
    s.bridge.initializeResponseSent = true →
      s.bridge.negotiatedProtocolVersion = NEGOTIATED_VERSION := by
  refine h.invariant (I := fun s => s.bridge.initializeResponseSent = true →
    s.bridge.negotiatedProtocolVersion = NEGOTIATED_VERSION) ?_ fun s l s' hs hstep hsent => ?_
  · rintro s ⟨networkUp, enabled, endpointSet, rfl⟩ hsent
    exact absurd hsent (by simp [initial])
  · rcases negotiates_step hstep with ⟨hflag, hversion⟩ | hend | hversion
    · rw [hversion]
      exact hs (hflag.symm.trans hsent)
    · exact absurd (hend.symm.trans hsent) (by simp)
    · exact hversion

/-! ## When the versions agree -/

/-- **The versions agree** exactly when `initialize` proposes 2024-11-05 and every later
`initialize` of the session does, too. -/
theorem version_agrees_iff {cfg : Cfg} {s : Sys} (hs : (machine cfg).Reachable s)
    (hsent : s.bridge.initializeResponseSent = true) {root result : Json}
    (hmethod : methodOf root = some (cstr "initialize"))
    (hanswer : (handleJson cfg.env (rxWire (some root)) (some root)).2 =
      sendResult result (idOf root)) (later : List Json) :
    VersionAgrees cfg.env s.bridge result later ↔
      proposedVersion root = some MCP_PROTOCOL_VERSION_2024 ∧
        ∀ r ∈ later, methodOf r = some (cstr "initialize") →
          proposedVersion r = some MCP_PROTOCOL_VERSION_2024 := by
  obtain ⟨hcompat, hversion⟩ := announced hmethod hanswer
  have hstatus : s.bridge.negotiatedProtocolVersion = MCP_PROTOCOL_VERSION_2024 :=
    negotiated_of_sent hs hsent
  constructor
  · rintro ⟨v, hv, hb, hlater⟩
    obtain rfl : MCP_PROTOCOL_VERSION_2024 = v := hstatus.symm.trans hb
    have hselected := Option.some.inj (hversion.symm.trans hv)
    refine ⟨selectedProtocol_2024.mp hselected, fun r hr hinit => ?_⟩
    by_contra hother
    -- another initialize is of the era of what it proposes
    obtain ⟨context, hdetect, hera⟩ := detect_era cfg.env hcompat r
    have hmem := hlater r hr context hdetect
    rw [hera, if_pos ⟨hinit, hother⟩] at hmem
    exact absurd hmem (by decide)
  · rintro ⟨hproposed, hlater⟩
    refine ⟨MCP_PROTOCOL_VERSION_2024, ?_, hstatus, fun r hr context hdetect => ?_⟩
    · rw [hversion, selectedProtocol_2024.mpr hproposed]
    · obtain ⟨context', hdetect', hera⟩ := detect_era cfg.env hcompat r
      obtain rfl : context' = context := Except.ok.inj (hdetect'.symm.trans hdetect)
      rw [hera, if_neg fun h => h.2 (hlater r hr h.1)]
      exact List.mem_singleton.mpr rfl

/-- A proposal of the version `v`. -/
def proposal (v : CString) : Json :=
  initializeJson [(cstr "protocolVersion", .string v), (cstr "clientInfo", .object
    [(cstr "name", .string (cstr "c")), (cstr "version", .string (cstr "1"))])]

def proposalText (v : CString) : Bytes :=
  cstr "\x7b\"jsonrpc\":\"2.0\",\"id\":1,\"method\":\"initialize\",\"params\":\x7b" ++
    cstr "\"protocolVersion\":\"" ++ v ++
    cstr "\",\"clientInfo\":\x7b\"name\":\"c\",\"version\":\"1\"\x7d\x7d\x7d"

/-- A configuration that parses the proposal and the notification. -/
def proposing (v : CString) : Cfg :=
  { plain with
    parse := fun payload =>
      if payload = proposalText v then some (proposal v)
      else if payload = initializedText then some initializedJson
      else none }

/-- The proposal has been answered, and the notification handled. -/
def negotiated (v : CString) (s : Sys) : Bool :=
  s.bridge.initializeResponseSent && decide (s.history.handed = [proposalText v, initializedText])

set_option maxRecDepth 10000 in
/-- A session that proposes 2024-11-05 and confirms. -/
theorem version_agrees_2024 :
    let v := cstr "2024-11-05"
    ∃ s, (machine (proposing v)).Reachable s ∧ negotiated v s = true ∧ ∃ result,
      VersionAgrees (proposing v).env s.bridge result [initializedJson] := by
  let v := cstr "2024-11-05"
  obtain ⟨s, hs, hp⟩ := exists_run (proposing v) (connectFirst ++ handshake (proposalText v))
    (p := negotiated v) (by decide)
  have hsent := (Bool.and_eq_true_iff.mp hp).1
  have hmethod : methodOf (proposal v) = some (cstr "initialize") := by decide
  have hrequest : InitializeRequest (proposing v).env (proposal v) := by decide
  obtain ⟨result, _, hanswer⟩ := handleJson_initialize (rxWire (some (proposal v))) hmethod hrequest
  refine ⟨s, hs, hp, result, ?_⟩
  refine (version_agrees_iff hs hsent hmethod (by rw [hanswer]) [initializedJson]).mpr ⟨?_, ?_⟩
  · decide
  · decide

set_option maxRecDepth 10000 in
/-- **A proposal of 2025-06-18** is answered with that version; the status says another. -/
theorem version_differs : ¬ ∀ cfg s payload root result, (machine cfg).Reachable s →
    s.bridge.initializeResponseSent = true → payload ∈ s.history.handed →
    cfg.parse payload = some root → methodOf root = some (cstr "initialize") →
    (handleJson cfg.env (rxWire (some root)) (some root)).2 = sendResult result (idOf root) →
    VersionAgrees cfg.env s.bridge result [] := by
  intro h
  let v := cstr "2025-06-18"
  obtain ⟨s, hs, hp⟩ := exists_run (proposing v) (connectFirst ++ handshake (proposalText v))
    (p := negotiated v) (by decide)
  obtain ⟨hsent, hhanded⟩ := Bool.and_eq_true_iff.mp hp
  have hmem : proposalText v ∈ s.history.handed := by simp [of_decide_eq_true hhanded]
  have hmethod : methodOf (proposal v) = some (cstr "initialize") := by decide
  have hrequest : InitializeRequest (proposing v).env (proposal v) := by decide
  obtain ⟨result, hbuild, hanswer⟩ :=
    handleJson_initialize (rxWire (some (proposal v))) hmethod hrequest
  have hparse : (proposing v).parse (proposalText v) = some (proposal v) := by simp [proposing]
  obtain ⟨w, hw, hb, _⟩ :=
    h (proposing v) s _ _ result hs hsent hmem hparse hmethod (by rw [hanswer])
  rw [negotiated_of_sent hs hsent] at hb
  rw [buildInitializeResult_version hbuild] at hw
  have hselected := Option.some.inj (hw.trans (congrArg some hb.symm))
  exact absurd hselected (by decide)

end BleGateway.McpWs
