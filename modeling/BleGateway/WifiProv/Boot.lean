import BleGateway.WifiProv.Provisioning

set_option autoImplicit false

/-! # The boot connection

`wifi_prov_init` of `wifi_prov.c`, which tries the stored network once, beside the event handler
in its own task and the Wi-Fi driver. Each section under `s_state_lock` and each call of the driver
is a step of its own here, so the handler can have read the state before the boot task changes it.
The driver drops the link or the attempt whenever it likes and posts STA_DISCONNECTED then; an
address is had with the link that obtained it.
-/

namespace BleGateway.WifiProv.Boot

/-! ## The state -/

/-- The station as the driver has it; `up` is a link with an address. -/
inductive Link
  | idle | connecting | up
  deriving DecidableEq

/-- The events that `wifi_event_handler` acts on, apart from AP_START. -/
inductive Event
  | staStart | staDisconnected | staGotIp
  deriving DecidableEq

/-- Where `wifi_event_handler` stands; each names what is done next. -/
inductive Act
  | connect
  | readFlag | readState (retryEnabled : Bool)
  | retry | reconnect | giveUp | setFailedBit
  | runtimeRetry | setReconnecting (exhausted : Bool) | disableRetry | setFailed
  | resetRetry | setGotIpBit | setConnected
  deriving DecidableEq

/-- Where `wifi_prov_init` stands, from the choice of the credentials on. The last three are its
ends: connected, with the portal open, and failed. -/
inductive Point
  | resolve | startAp | startWifi | bootConnecting
  | clearBits | resetRetry | enableRetry | configure | connect | startFailed
  | wait | resetAgain | setConnected
  | stopRetry | stopDisconnect | enterProvisioning | setProvisioning | setFailed
  | unregister | clearRetry | clearIp | toUninit
  | connected | portal | failed
  deriving DecidableEq

/-- The driver, the variables of `wifi_prov.c`, the handler and the boot task. -/
structure Sys where
  link : Link := .idle
  events : List Event := []
  registered : Bool := true
  hasIp : Bool := false
  gotIp : Bool := false
  failed : Bool := false
  state : ProvState := .uninitialized
  retryEnabled : Bool := false
  retryCount : Nat := 0
  handler : Option Act := none
  boot : Point := .resolve
  deriving DecidableEq

/-- `esp_wifi_connect`: an attempt begins if the call succeeds and none is under way. -/
def Sys.connect (s : Sys) (ok : Bool) : Sys :=
  if ok ∧ s.link = .idle then { s with link := .connecting } else s

/-- The link or the attempt is over. -/
def Sys.disconnect (s : Sys) : Sys :=
  if s.link = .idle then s
  else { s with link := .idle, events := s.events ++ [.staDisconnected] }

/-! ## The boot task -/

/-- `wifi_prov_init` from one point to the next. `ok` is whether there are credentials, whether
the call at the point succeeds, and at `wait` whether there is time left. -/
def Sys.work (s : Sys) (ok : Bool) : Option Sys :=
  match s.boot with
  | .resolve => some { s with boot := if ok then .startWifi else .startAp }
  | .startAp => some { s with boot := if ok then .enterProvisioning else .unregister }
  | .startWifi => some { s with boot := if ok then .bootConnecting else .unregister }
  | .bootConnecting => some { s with state := .bootConnecting, boot := .clearBits }
  -- start_sta_attempt
  | .clearBits => some { s with gotIp := false, failed := false, boot := .resetRetry }
  | .resetRetry => some { s with retryCount := 0, boot := .enableRetry }
  | .enableRetry => some { s with retryEnabled := true, boot := .configure }
  | .configure => some { s with boot := if ok then .connect else .startFailed }
  | .connect => some { s.connect ok with boot := if ok then .wait else .startFailed }
  | .startFailed => some { s with retryEnabled := false, boot := .stopRetry }
  -- wait_sta_result: the bits decide, also when the time is over
  | .wait =>
      if s.gotIp then some { s with boot := .resetAgain }
      else if s.failed || !ok then some { s with boot := .stopRetry }
      else none
  | .resetAgain => some { s with retryCount := 0, boot := .setConnected }
  | .setConnected => some { s with state := .connected, boot := .connected }
  -- stop_sta_attempt
  | .stopRetry => some { s with retryEnabled := false, boot := .stopDisconnect }
  | .stopDisconnect => some { s.disconnect with boot := .enterProvisioning }
  -- enter_provisioning
  | .enterProvisioning => some { s with boot := if ok then .setProvisioning else .setFailed }
  | .setProvisioning => some { s with state := .provisioning, boot := .portal }
  | .setFailed => some { s with state := .failed, boot := .unregister }
  -- cleanup_owned_resources: no event is being handled any more when the handler is unregistered
  | .unregister =>
      if s.handler.isNone then some { s with registered := false, boot := .clearRetry } else none
  | .clearRetry => some { s with retryEnabled := false, boot := .clearIp }
  | .clearIp => some { s with hasIp := false, boot := .toUninit }
  | .toUninit => some { s with state := .uninitialized, boot := .failed }
  | .connected | .portal | .failed => none

/-! ## The event handler -/

/-- `wifi_event_handler` up to its first effect. -/
def Sys.handle (s : Sys) : Event → Sys
  | .staStart => { s with handler := if s.retryEnabled then some .connect else none }
  | .staDisconnected => { s with hasIp := false, handler := some .readFlag }
  | .staGotIp => { s with hasIp := true, handler := some .resetRetry }

/-- What follows a disconnect, by the retry flag and the state that were read. -/
def onDisconnect (retryEnabled : Bool) : ProvState → Option Act
  | .bootConnecting | .testing => if retryEnabled then some .retry else none
  | .connected | .reconnecting => if retryEnabled then some .runtimeRetry else none
  | _ => none

/-- `wifi_event_handler` from one point to the next; `RUNTIME_RECONNECT_LIMIT` is
`CONFIG_WIFI_PROV_STA_BOOT_RETRY_COUNT`. -/
def Sys.act (s : Sys) (retries : Nat) (ok : Bool) : Act → Sys
  | .connect => { s.connect ok with handler := none }
  | .readFlag => { s with handler := some (.readState s.retryEnabled) }
  | .readState retryEnabled => { s with handler := onDisconnect retryEnabled s.state }
  | .retry =>
      { s with
        retryCount := s.retryCount + 1
        handler := some (if s.retryCount + 1 > retries then .giveUp else .reconnect) }
  | .reconnect => { s.connect ok with handler := none }
  | .giveUp => { s with retryEnabled := false, handler := some .setFailedBit }
  | .setFailedBit => { s with failed := true, handler := none }
  | .runtimeRetry =>
      { s with
        retryCount := s.retryCount + 1
        handler := some (.setReconnecting (s.retryCount + 1 > retries)) }
  | .setReconnecting exhausted =>
      { s with
        state := .reconnecting
        handler := some (if exhausted then .disableRetry else .reconnect) }
  | .disableRetry => { s with retryEnabled := false, handler := some .setFailed }
  | .setFailed => { s with state := .failed, handler := none }
  | .resetRetry => { s with retryCount := 0, handler := some .setGotIpBit }
  | .setGotIpBit => { s with gotIp := true, handler := some .setConnected }
  | .setConnected =>
      { s with
        state := if s.state = .reconnecting then .connected else s.state
        handler := none }

/-! ## The machine -/

inductive Label
  | work (ok : Bool)
  | handle
  | act (ok : Bool)
  /-- The driver has started, obtains an address, or has no link. -/
  | started
  | obtain
  | drop
  deriving DecidableEq

def step (retries : Nat) (s : Sys) : Label → Option Sys
  | .work ok => s.work ok
  | .handle =>
      match s.handler, s.events with
      | none, e :: events =>
          if s.registered then some ({ s with events := events }.handle e) else none
      | _, _ => none
  | .act ok => s.handler.map fun a => s.act retries ok a
  | .started => some { s with events := s.events ++ [.staStart] }
  | .obtain =>
      if s.link = .idle then none
      else some { s with link := .up, events := s.events ++ [.staGotIp] }
  | .drop => some { s with link := .idle, events := s.events ++ [.staDisconnected] }

def machine (retries : Nat) : Machine Sys Label where
  init s := s = {}
  step := step retries

end BleGateway.WifiProv.Boot
