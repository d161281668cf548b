import BleGateway.Types
import BleGateway.Lib.Machine

set_option autoImplicit false

/-! # Wi-Fi provisioning

`wifi_prov.c` from the moment the provisioning portal is open. `wifi_prov_test_and_save` runs in the
tasks of its callers, one at a time under the operation mutex; `wifi_event_handler` runs in the
task of the event loop, which takes the posted events in order; the Wi-Fi driver connects,
obtains an address, loses the link and posts events whenever it likes. Between two sections of one
actor the others can act, so the point that each has reached is part of the state.

An attempt is a call of `esp_wifi_connect`, and what it tries is the configuration that the driver
has then. A GOT_IP event carries the pair of its attempt here, which the code does not see. A NVS
call has its effect as a whole or fails without one; the power can be lost in any state.
-/

namespace BleGateway.WifiProv

/-! ## Credentials -/

/-- A network's name and its password. -/
structure Credentials where
  ssid : CString
  password : CString
  deriving DecidableEq

/-- The keys `ssid` and `pass` of the namespace `wifi_cfg`. -/
structure Nvs where
  ssid : Option CString := none
  pass : Option CString := none
  deriving DecidableEq

/-- `load_wifi_credentials` with the arrays of `wifi_prov_init`, of 33 and 65 bytes: a text that
does not fit is an error. -/
def loadWifiCredentials (nvs : Nvs) : Option Credentials :=
  match nvs.ssid, nvs.pass with
  | some ssid, some pass => if ssid.length < 33 ∧ pass.length < 65 then some ⟨ssid, pass⟩ else none
  | _, _ => none

/-- The arguments of a call that passed the checks of `wifi_prov_test_and_save`. -/
structure Request where
  credentials : Credentials
  named : credentials.ssid ≠ []
  ssidFits : credentials.ssid.length < 33
  passwordFits : credentials.password.length < 65
  deriving DecidableEq

/-- The checks of `wifi_prov_test_and_save`; the password `NULL` is the empty one. -/
def checkRequest (ssid password : Option CString) : Option Request :=
  ssid.bind fun ssid =>
    if h : ssid ≠ [] ∧ ssid.length < 33 ∧ (password.getD []).length < 65 then
      some ⟨⟨ssid, password.getD []⟩, h.1, h.2.1, h.2.2⟩
    else none

/-- `configure_sta`: `strlcpy` into the driver's 32 and 64 bytes. -/
def configureSta (c : Credentials) : Credentials :=
  ⟨(strlcpy 32 c.ssid).text, (strlcpy 64 c.password).text⟩

/-! ## The state -/

/-- `wifi_prov_state_t`. -/
inductive ProvState
  | uninitialized | bootConnecting | provisioning | testing | restartPending | connected
  | reconnecting | failed
  deriving DecidableEq

/-- `wifi_prov_is_provisioning`. -/
def ProvState.isProvisioning : ProvState → Bool
  | .provisioning | .testing | .restartPending => true
  | _ => false

/-- The events that `wifi_event_handler` acts on, apart from AP_START. -/
inductive Event
  | staStart
  | staDisconnected
  | staGotIp (attempt : Credentials)
  deriving DecidableEq

/-- Where `wifi_event_handler` stands, after it has looked at the event. -/
inductive Act
  | connect
  | retry
  | giveUp
  | runtimeRetry
  | setGotIp (attempt : Credentials)
  deriving DecidableEq

/-- Where `wifi_prov_test_and_save` stands; each names what is done next. -/
inductive Point
  | stopRetry | disconnect | testing | ensureApsta
  | clearBits | resetRetry | enableRetry | configure | connect | startFailed
  | wait
  | nvsOpen | setSsid | setPass | nvsCommit
  | disableRetry | restartPending
  | abandonRetry | abandonDisconnect | provisioning
  deriving DecidableEq

/-- The component, the driver and the NVS. The last two fields are history: the pairs that an
address was obtained with, and what the boot would have loaded when the last call began. -/
structure Sys where
  nvs : Nvs := {}
  config : Credentials := ⟨[], []⟩
  link : Option Credentials := none
  events : List Event := []
  handler : Option Act := none
  gotIp : Bool := false
  failed : Bool := false
  state : ProvState := .provisioning
  retryEnabled : Bool := false
  retryCount : Nat := 0
  waiting : List Request := []
  task : Option (Request × Point) := none
  obtained : List Credentials := []
  before : Option Credentials := none
  deriving DecidableEq

def Sys.goto (s : Sys) (r : Request) (p : Point) : Sys := { s with task := some (r, p) }

def Sys.done (s : Sys) : Sys := { s with task := none }

/-! ## The calls -/

/-- `esp_wifi_connect`, if it succeeds. -/
def Sys.connect (s : Sys) (ok : Bool) : Sys := if ok then { s with link := some s.config } else s

/-- `esp_wifi_disconnect`. -/
def Sys.disconnect (s : Sys) : Sys :=
  { s with link := none, events := s.events ++ s.link.toList.map fun _ => .staDisconnected }

/-- The call of `r` has the mutex. -/
def Sys.begin (s : Sys) (r : Request) : Sys :=
  { s with before := loadWifiCredentials s.nvs, task := some (r, .stopRetry) }

/-- `wifi_prov_test_and_save` from one point to the next. `ok` is whether the call at the point
succeeds, and at `wait` whether there is time left. -/
def Sys.work (s : Sys) (ok : Bool) (r : Request) : Point → Option Sys
  | .stopRetry => some ({ s with retryEnabled := false }.goto r .disconnect)
  | .disconnect => some (s.disconnect.goto r .testing)
  | .testing => some ({ s with state := .testing }.goto r .ensureApsta)
  | .ensureApsta => some (s.goto r (if ok then .clearBits else .provisioning))
  -- start_sta_attempt
  | .clearBits => some ({ s with gotIp := false, failed := false }.goto r .resetRetry)
  | .resetRetry => some ({ s with retryCount := 0 }.goto r .enableRetry)
  | .enableRetry => some ({ s with retryEnabled := true }.goto r .configure)
  | .configure =>
      some (if ok then { s with config := configureSta r.credentials }.goto r .connect
        else s.goto r .startFailed)
  | .connect => some ((s.connect ok).goto r (if ok then .wait else .startFailed))
  | .startFailed => some ({ s with retryEnabled := false }.goto r .provisioning)
  -- wait_sta_result: the bits decide, also when the time is over
  | .wait =>
      if s.gotIp then some (s.goto r .nvsOpen)
      else if s.failed || !ok then some (s.goto r .abandonRetry)
      else none
  -- save_wifi_credentials
  | .nvsOpen => some (s.goto r (if ok then .setSsid else .abandonRetry))
  | .setSsid =>
      some (if ok then
          { s with nvs := { s.nvs with ssid := some r.credentials.ssid } }.goto r .setPass
        else s.goto r .abandonRetry)
  | .setPass =>
      some (if ok then
          { s with nvs := { s.nvs with pass := some r.credentials.password } }.goto r .nvsCommit
        else s.goto r .abandonRetry)
  | .nvsCommit => some (s.goto r (if ok then .disableRetry else .abandonRetry))
  | .disableRetry => some ({ s with retryEnabled := false }.goto r .restartPending)
  | .restartPending => some { s with state := .restartPending }.done
  -- stop_sta_attempt
  | .abandonRetry => some ({ s with retryEnabled := false }.goto r .abandonDisconnect)
  | .abandonDisconnect => some (s.disconnect.goto r .provisioning)
  | .provisioning => some { s with state := .provisioning }.done

/-! ## The event handler -/

/-- What `wifi_event_handler` does on a disconnect, by the state and the retry flag it reads. -/
def ProvState.onDisconnect (retryEnabled : Bool) : ProvState → Option Act
  | .bootConnecting | .testing => if retryEnabled then some .retry else none
  | .connected | .reconnecting => if retryEnabled then some .runtimeRetry else none
  | _ => none

/-- `wifi_event_handler` up to its first effect on what the other actors use. -/
def Sys.handle (s : Sys) : Event → Sys
  | .staStart => { s with handler := if s.retryEnabled then some .connect else none }
  | .staDisconnected => { s with handler := s.state.onDisconnect s.retryEnabled }
  | .staGotIp p => { s with retryCount := 0, handler := some (.setGotIp p) }

/-- The rest of `wifi_event_handler`, with `CONFIG_WIFI_PROV_STA_BOOT_RETRY_COUNT` retries. -/
def Sys.act (s : Sys) (retries : Nat) (ok : Bool) : Act → Sys
  | .connect => { s.connect ok with handler := none }
  | .retry =>
      { s with
        retryCount := s.retryCount + 1
        handler := some (if s.retryCount + 1 ≤ retries then .connect else .giveUp) }
  | .giveUp => { s with retryEnabled := false, failed := true, handler := none }
  | .runtimeRetry =>
      if s.retryCount + 1 ≤ retries then
        { s with retryCount := s.retryCount + 1, state := .reconnecting, handler := some .connect }
      else
        { s with
          retryCount := s.retryCount + 1
          state := .failed
          retryEnabled := false
          handler := none }
  | .setGotIp _ =>
      { s with
        gotIp := true
        state := if s.state = .reconnecting then .connected else s.state
        handler := none }

/-! ## The machine -/

inductive Label
  /-- A call of `wifi_prov_test_and_save`. -/
  | call (ssid password : Option CString)
  /-- A waiting call gets the mutex, or its time is over. -/
  | lock (i : Nat) (ok : Bool)
  | work (ok : Bool)
  | handle
  | act (ok : Bool)
  /-- The driver has started, obtains an address, or has no link. -/
  | started
  | obtain
  | drop
  deriving DecidableEq

def step (retries : Nat) (s : Sys) : Label → Option Sys
  | .call ssid password =>
      (checkRequest ssid password).bind fun r =>
        if s.state.isProvisioning then some { s with waiting := s.waiting ++ [r] } else none
  | .lock i ok =>
      s.waiting[i]?.bind fun r =>
        if ok then
          if s.task.isNone then some ({ s with waiting := s.waiting.eraseIdx i }.begin r) else none
        else some { s with waiting := s.waiting.eraseIdx i }
  | .work ok => s.task.bind fun t => s.work ok t.1 t.2
  | .handle =>
      match s.handler, s.events with
      | none, e :: events => some ({ s with events := events }.handle e)
      | _, _ => none
  | .act ok => s.handler.map fun a => s.act retries ok a
  | .started => some { s with events := s.events ++ [.staStart] }
  | .obtain =>
      s.link.map fun p =>
        { s with obtained := s.obtained ++ [p], events := s.events ++ [.staGotIp p] }
  | .drop => some { s with link := none, events := s.events ++ [.staDisconnected] }

/-- A state between two calls, whatever earlier attempts have left behind in it. -/
def Initial (s : Sys) : Prop :=
  s.task = none ∧ s.before = loadWifiCredentials s.nvs ∧
    (∀ p, .staGotIp p ∈ s.events → p ∈ s.obtained) ∧
    ∀ p, s.handler = some (.setGotIp p) → p ∈ s.obtained

def machine (retries : Nat) : Machine Sys Label where
  init := Initial
  step := step retries

/-! ## The driver's calls -/

theorem connect_eq (s : Sys) (ok : Bool) : ∃ link, s.connect ok = { s with link := link } := by
  cases ok with
  | true => exact ⟨some s.config, rfl⟩
  | false => exact ⟨s.link, rfl⟩

theorem disconnect_events {s : Sys} {p : Credentials} (h : .staGotIp p ∈ s.disconnect.events) :
    .staGotIp p ∈ s.events := by
  rcases List.mem_append.mp h with h | h
  · exact h
  · obtain ⟨_, _, hne⟩ := List.mem_map.mp h
    exact absurd hne (by simp)

end BleGateway.WifiProv
