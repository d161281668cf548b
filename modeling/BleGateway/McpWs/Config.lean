import BleGateway.Types
import BleGateway.Lib.Machine

set_option autoImplicit false

/-! # The stored configuration of the MCP WebSocket bridge

`mcp_ws_bridge_config.c`, with `mcp_ws_endpoint_valid` of `mcp_ws_bridge_ws.c`. The configuration is
kept in NVS and, once the bridge is initialized, also in RAM. The loader and each of the two writers
have a test of the endpoint of their own. An NVS call can fail with an error of the driver, except
that the key of one byte is read if it is there.
-/

namespace BleGateway.McpWs.Config

def MCP_WS_ENDPOINT_MAX_LEN : Nat := 768

instance : NeZero MCP_WS_ENDPOINT_MAX_LEN := ⟨by decide⟩

/-- `CONFIG_MCP_WS_DEFAULT_ENABLED` and `CONFIG_MCP_WS_ALLOW_INSECURE`. -/
structure Options where
  defaultEnabled : Bool := false
  allowInsecure : Bool := false

/-- `mcp_ws_config_t`. -/
structure WsConfig where
  enabled : Bool := false
  endpoint : CharBuf MCP_WS_ENDPOINT_MAX_LEN := .empty
  deriving DecidableEq

/-! ## Valid endpoints -/

def isxdigit (c : UInt8) : Bool :=
  (0x30 ≤ c && c ≤ 0x39) || (0x41 ≤ c && c ≤ 0x46) || (0x61 ≤ c && c ≤ 0x66)

/-- No control character, and two hexadecimal digits behind each `%`. -/
def charactersValid : CString → Bool
  | [] => true
  | c :: rest =>
      if c < 0x20 || c = 0x7f then false
      else if c = 0x25 && (!rest[0]?.any isxdigit || !rest[1]?.any isxdigit) then false
      else charactersValid rest

/-- `mcp_ws_endpoint_valid`. -/
def endpointValid (allowInsecure : Bool) (endpoint : CString) : Bool :=
  if endpoint.length = 0 || endpoint.length ≥ MCP_WS_ENDPOINT_MAX_LEN then false
  else
    let secure := (cstr "wss://").isPrefixOf endpoint
    let insecure := (cstr "ws://").isPrefixOf endpoint
    if !secure && !(allowInsecure && insecure) then false
    else
      match (endpoint.drop (if secure then 6 else 5)).head? with
      | none => false
      | some c =>
          if c = 0x2f || c = 0x3f || c = 0x23 then false
          else charactersValid endpoint

/-- An endpoint that the loader keeps. -/
def Usable (o : Options) (endpoint : CString) : Prop :=
  endpoint = [] ∨ endpointValid o.allowInsecure endpoint = true

instance (o : Options) (endpoint : CString) : Decidable (Usable o endpoint) :=
  inferInstanceAs (Decidable (_ ∨ _))

theorem endpointValid_length {allowInsecure : Bool} {endpoint : CString}
    (h : endpointValid allowInsecure endpoint = true) :
    endpoint.length < MCP_WS_ENDPOINT_MAX_LEN := by
  by_contra hlen
  have hge : endpoint.length ≥ MCP_WS_ENDPOINT_MAX_LEN := by omega
  simp [endpointValid, hge] at h

variable {o : Options}

theorem Usable.length {endpoint : CString} (h : Usable o endpoint) :
    endpoint.length < MCP_WS_ENDPOINT_MAX_LEN := by
  rcases h with rfl | h
  · decide
  · exact endpointValid_length h

/-! ## The NVS namespace -/

/-- The keys `enabled` and `endpoint` of the namespace `mcp_ws`. -/
structure Stored where
  enabled : Option UInt8 := none
  endpoint : Option CString := none
  deriving DecidableEq

/-- The namespace, `none` before anything was written to it. -/
abbrev Nvs := Option Stored

/-- The NVS calls of an operation that fail with an error of the driver. -/
structure NvsFaults where
  openRead : Bool := false
  getStr : Bool := false
  openWrite : Bool := false
  setU8 : Bool := false
  setEndpoint : Bool := false
  commit : Bool := false
  deriving DecidableEq

/-- The stored endpoint, the empty text if there is none. -/
def storedEndpoint (nvs : Nvs) : CString := (nvs.bind Stored.endpoint).getD []

/-- `nvs_get_str` into the array of the configuration: a text that does not fit is an error, a
missing one is not. -/
def getEndpoint (f : NvsFaults) (stored : Option CString) :
    EspErr × CharBuf MCP_WS_ENDPOINT_MAX_LEN :=
  match stored with
  | none => (if f.getStr then .fail else .ok, .empty)
  | some text =>
      if h : text.length < MCP_WS_ENDPOINT_MAX_LEN then
        if f.getStr then (.fail, .empty) else (.ok, ⟨text, h⟩)
      else (.fail, .empty)

/-- `mcp_ws_config_load`. -/
def load (o : Options) (f : NvsFaults) (nvs : Nvs) : EspErr × WsConfig :=
  if f.openRead then (.fail, {})
  else
    match nvs with
    | none => (.ok, { enabled := o.defaultEnabled })
    | some s =>
        let read := getEndpoint f s.endpoint
        if read.2.text ≠ [] ∧ endpointValid o.allowInsecure read.2.text = false then (read.1, {})
        else
          (read.1, {
            enabled := match s.enabled with
              | some v => v != 0
              | none => o.defaultEnabled
            endpoint := read.2 })

/-- The namespace that holds a configuration. -/
def written (config : WsConfig) : Stored :=
  { enabled := some (if config.enabled then 1 else 0)
    endpoint := if config.endpoint.text = [] then none else some config.endpoint.text }

/-- `mcp_ws_config_store`: the endpoint is set, or its key is erased, which may be missing. -/
def store (f : NvsFaults) (config : WsConfig) (nvs : Nvs) : EspErr × Nvs :=
  if f.openWrite then (.fail, nvs)
  else
    let s := nvs.getD {}
    if f.setU8 then (.fail, some s)
    else
      let s := { s with enabled := some (if config.enabled then 1 else 0) }
      if f.setEndpoint then (.fail, some s)
      else
        let s := { s with
          endpoint := if config.endpoint.text = [] then none else some config.endpoint.text }
        (if f.commit then .fail else .ok, some s)

variable {f : NvsFaults} {config : WsConfig} {nvs : Nvs}

/-- A `store` that succeeds leaves exactly the configuration. -/
theorem store_ok {nvs' : Nvs} (h : store f config nvs = (.ok, nvs')) :
    nvs' = some (written config) := by
  unfold store at h
  split at h
  · simp at h
  · dsimp only at h
    split at h
    · simp at h
    · split at h
      · simp at h
      · exact (Prod.mk.inj h).2.symm

@[simp] theorem storedEndpoint_written (config : WsConfig) :
    storedEndpoint (some (written config)) = config.endpoint.text := by
  by_cases h : config.endpoint.text = [] <;> simp [storedEndpoint, written, h]

/-- A success of `nvs_get_str` has met no fault and read the whole text. -/
theorem getEndpoint_ok {stored : Option CString} (h : (getEndpoint f stored).1 = .ok) :
    getEndpoint f stored = getEndpoint {} stored ∧
      (getEndpoint f stored).2.text = stored.getD [] := by
  cases stored with
  | none => cases hf : f.getStr <;> simp [getEndpoint, hf] at h ⊢
  | some text =>
      by_cases hlen : text.length < MCP_WS_ENDPOINT_MAX_LEN
      · cases hf : f.getStr <;> simp [getEndpoint, hlen, hf] at h ⊢
      · simp [getEndpoint, hlen] at h

/-- The result of a load in a namespace that is there. -/
theorem load_result {s : Stored} (hf : f.openRead = false) :
    (load o f (some s)).1 = (getEndpoint f s.endpoint).1 := by
  simp only [load, hf, Bool.false_eq_true, if_false]
  split
  · rfl
  · rfl

/-- A load that succeeds has met no fault: the next one returns the same. -/
theorem load_ok (h : (load o f nvs).1 = .ok) :
    load o {} nvs = load o f nvs := by
  have hf : f.openRead = false := by
    cases hne : f.openRead with
    | false => rfl
    | true => simp [load, hne] at h
  cases nvs with
  | none => simp [load, hf]
  | some s =>
      rw [load_result hf] at h
      simp [load, hf, (getEndpoint_ok h).1]

/-- What the loader returns in a success is the stored endpoint, if that is one it keeps. -/
theorem load_endpoint (h : load o f nvs = (.ok, config)) (hv : Usable o (storedEndpoint nvs)) :
    config.endpoint.text = storedEndpoint nvs := by
  have hf : f.openRead = false := by
    cases hne : f.openRead with
    | false => rfl
    | true => simp [load, hne] at h
  cases nvs with
  | none =>
      simp only [load, hf] at h
      obtain rfl := (Prod.mk.inj h).2
      rfl
  | some s =>
      have hok : (getEndpoint f s.endpoint).1 = .ok := by
        rw [← load_result (o := o) hf, h]
      have hread : (getEndpoint f s.endpoint).2.text = storedEndpoint (some s) :=
        (getEndpoint_ok hok).2
      have hkeep : ¬((getEndpoint f s.endpoint).2.text ≠ [] ∧
          endpointValid o.allowInsecure (getEndpoint f s.endpoint).2.text = false) := by
        rintro ⟨hne, hbad⟩
        rw [hread] at hne hbad
        rcases hv with hv | hv
        · exact hne hv
        · simp [hv] at hbad
      simp only [load, hf, if_neg hkeep] at h
      obtain rfl := (Prod.mk.inj h).2
      exact hread

/-- A written configuration is loaded again if the loader keeps its endpoint. -/
theorem load_written (h : Usable o config.endpoint.text) :
    load o {} (some (written config)) = (.ok, config) := by
  have hread : getEndpoint {} (written config).endpoint = (.ok, config.endpoint) := by
    by_cases he : config.endpoint.text = []
    · have hempty : config.endpoint = .empty := CharBuf.ext he
      simp [getEndpoint, written, hempty]
    · simp [getEndpoint, written, he, config.endpoint.bounded]
  have hkeep : ¬(config.endpoint.text ≠ [] ∧
      endpointValid o.allowInsecure config.endpoint.text = false) := by
    rintro ⟨hne, hv⟩
    rcases h with h | h
    · exact hne h
    · simp [h] at hv
  have henabled : (match (written config).enabled with
      | some v => v != 0
      | none => o.defaultEnabled) = config.enabled := by
    cases he : config.enabled <;> simp [written, he]
  simp only [load, hread, if_neg hkeep, henabled]
  simp

/-! ## The calls -/

/-- The parts of `s_bridge` that belong to the configuration, and the namespace. -/
structure State where
  nvs : Nvs := none
  initialized : Bool := false
  config : WsConfig := {}
  deriving DecidableEq

/-- What the environment decides in a call: the NVS calls that fail, whether the reload event finds
a place in the queue, and whether the bridge is started. -/
structure CallEnv where
  faults : NvsFaults := {}
  queued : Bool := true
  started : Bool := false
  deriving DecidableEq

/-- The argument of `mcp_ws_bridge_config_set`; its array need not hold a NUL. -/
structure ConfigArg where
  enabled : Bool
  endpoint : CString
  deriving DecidableEq

/-- `mcp_ws_bridge_init`; the locks, timers, handlers and the task may not come into being. -/
def init (o : Options) (env : CallEnv) (resources : Bool) (s : State) : EspErr × State :=
  if s.initialized then (.invalidState, s)
  else
    let read := load o env.faults s.nvs
    if read.1 ≠ .ok ∨ !resources then (.noMem, { s with config := read.2 })
    else (.ok, { s with initialized := true, config := read.2 })

/-- The arguments that `mcp_ws_bridge_config_set` takes. -/
def ConfigArg.Accepted (o : Options) (c : ConfigArg) : Prop :=
  Usable o c.endpoint ∧ ¬(c.enabled = true ∧ c.endpoint = [])

instance (o : Options) (c : ConfigArg) : Decidable (c.Accepted o) :=
  inferInstanceAs (Decidable (_ ∧ _))

/-- `mcp_ws_bridge_config_set`. -/
def configSet (o : Options) (env : CallEnv) (config : Option ConfigArg) (s : State) :
    EspErr × State :=
  match config with
  | none => (.invalidArg, s)
  | some c =>
      if h : c.Accepted o then
        let config : WsConfig := ⟨c.enabled, ⟨c.endpoint, h.1.length⟩⟩
        let put := store env.faults config s.nvs
        if put.1 ≠ .ok then (put.1, { s with nvs := put.2 })
        else if s.initialized then
          (if env.queued then .ok else .noMem, { s with nvs := put.2, config := config })
        else (.ok, { s with nvs := put.2 })
      else (.invalidArg, s)

/-- The endpoints that `mcp_ws_bridge_config_update` takes: `strnlen` and the two `strncmp`. -/
def updateAccepts (endpoint : CString) : Bool :=
  endpoint.length < MCP_WS_ENDPOINT_MAX_LEN &&
    (endpoint.isEmpty || (cstr "ws://").isPrefixOf endpoint || (cstr "wss://").isPrefixOf endpoint)

/-- The configuration in RAM, or the stored one while the bridge is not initialized. -/
def current (o : Options) (env : CallEnv) (s : State) : EspErr × WsConfig :=
  if s.initialized then (.ok, s.config) else load o env.faults s.nvs

/-- The configuration with the given parts replaced. -/
def WsConfig.replace (config : WsConfig) (enabled : Option Bool) (endpoint : Option CString) :
    WsConfig :=
  { enabled := enabled.getD config.enabled
    endpoint := match endpoint with
      | some e => strlcpy MCP_WS_ENDPOINT_MAX_LEN e
      | none => config.endpoint }

/-- `mcp_ws_bridge_config_update`; `enabled` is given with `has_enabled`, and `endpoint`, which may
be `NULL`, with `has_endpoint`. -/
def configUpdate (o : Options) (env : CallEnv) (enabled : Option Bool)
    (endpoint : Option (Option CString)) (s : State) : EspErr × State :=
  match endpoint with
  | some none => (.invalidArg, s)
  | _ =>
      let endpoint := endpoint.join
      if endpoint.any fun e => !updateAccepts e then (.invalidArg, s)
      else
        let read := current o env s
        if read.1 ≠ .ok then (read.1, s)
        else
          let config := read.2.replace enabled endpoint
          let put := store env.faults config s.nvs
          if put.1 ≠ .ok then (put.1, { s with nvs := put.2 })
          else if s.initialized then
            let ram : WsConfig := {
              enabled := if enabled.isSome then config.enabled else s.config.enabled
              endpoint := if endpoint.isSome
                then strlcpy MCP_WS_ENDPOINT_MAX_LEN config.endpoint.text
                else s.config.endpoint }
            let changedEnabled := enabled.any (· != read.2.enabled)
            let reload := !changedEnabled && endpoint.isSome && env.started && ram.enabled
            (if reload && !env.queued then .noMem else .ok,
              { s with nvs := put.2, config := ram })
          else (.ok, { s with nvs := put.2 })

/-- `mcp_ws_bridge_config_clear`. -/
def configClear (o : Options) (env : CallEnv) (s : State) : EspErr × State :=
  configSet o env (some ⟨false, []⟩) s

inductive Call
  | init (env : CallEnv) (resources : Bool)
  | configSet (env : CallEnv) (config : Option ConfigArg)
  | configUpdate (env : CallEnv) (enabled : Option Bool) (endpoint : Option (Option CString))
  | configClear (env : CallEnv)
  deriving DecidableEq

def exec (o : Options) (s : State) : Call → EspErr × State
  | .init env resources => init o env resources s
  | .configSet env config => configSet o env config s
  | .configUpdate env enabled endpoint => configUpdate o env enabled endpoint s
  | .configClear env => configClear o env s

/-- The calls that return `ESP_OK`, from a boot with a stored configuration that the loader
keeps. -/
def machine (o : Options) : Machine State Call where
  init s := s.initialized = false ∧ Usable o (storedEndpoint s.nvs)
  step s c := match exec o s c with
    | (.ok, s') => some s'
    | _ => none

end BleGateway.McpWs.Config
