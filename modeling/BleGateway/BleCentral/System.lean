import BleGateway.BleCentral.Model
import BleGateway.Lib.Machine

set_option autoImplicit false

/-! # The BLE central between its tasks and the host

`ble_connection_start`, its callers (the reconnect supervisor and `ble_central_connect`),
`ble_central_disconnect` and `ble_central_forget_peer` run in the tasks of their callers; the GAP
handler, the GATT callback that ends the discovery and the reset callback run one after the other
in the task of the NimBLE host. The system steps one critical section or one call of the stack at
a time.

Of the stack the model has what the code relies on: `ble_gap_connect` starts at most one procedure
at a time, which ends with one CONNECT event; a link ends with one DISCONNECT event; both carry
the context that was passed. Callbacks that belong to a link may come late, so they may come with
any context and handle. Requests to the stack, event reports and the notify path are left out.
-/

namespace BleGateway.BleCentral

/-- Who has called `ble_connection_start`. -/
inductive Caller
  | supervisor | request
  deriving DecidableEq

/-- A call of the API between two of its sections. -/
inductive Call
  /-- `ble_connection_start` reserves a slot. -/
  | start (caller : Caller) (d : DeviceIx)
  /-- It reads the device id. -/
  | getDeviceId (caller : Caller) (d : DeviceIx) (ref : Ref)
  /-- It reads the peer address. -/
  | getPeerAddr (caller : Caller) (d : DeviceIx) (ref : Ref)
  /-- It acquires a context. -/
  | acquire (caller : Caller) (d : DeviceIx) (ref : Ref)
  /-- It calls `ble_gap_connect`. -/
  | connect (caller : Caller) (d : DeviceIx) (ref : Ref) (ctx : CtxIx)
  /-- It releases the context after that has failed. -/
  | release (caller : Caller) (d : DeviceIx) (ref : Ref) (ctx : CtxIx)
  /-- It rolls back, to return the error. -/
  | rollback (caller : Caller) (d : DeviceIx) (ref : Ref) (err : Err)
  /-- The supervisor notes the failure. -/
  | noteFailure (d : DeviceIx)
  /-- `ble_central_disconnect` has found the record. -/
  | disconnect (d : DeviceIx)
  /-- `ble_central_forget_peer` has found the record. -/
  | forget (d : DeviceIx)
  /-- `ble_central_forget_peer` finalizes the removal of a record without a link. -/
  | finalize (d : DeviceIx)
  deriving DecidableEq

/-- What the host task does next. -/
inductive Host
  | idle
  /-- A CONNECT event with a link, after the snapshot. -/
  | connected (ctx : CtxIx) (handle : UInt16) (d : Option DeviceIx)
  /-- Its address is stored in the record. -/
  | identified (d : DeviceIx)
  /-- A CONNECT event without a link, after the snapshot. -/
  | connectFailed (ctx : CtxIx)
  /-- A DISCONNECT event, after the snapshot. -/
  | disconnected (ctx : CtxIx) (handle : UInt16)
  /-- `ble_state_on_disconnect` reads the state of the record, out of its critical section. -/
  | readState (ctx : CtxIx) (d : DeviceIx) (id : DeviceId)
  /-- A record that is being removed is searched. -/
  | findRemoved (ctx : CtxIx) (id : DeviceId)
  /-- Its removal is finalized. -/
  | finalize (ctx : CtxIx) (d : DeviceIx)
  /-- The context is released after a final event. -/
  | release (ctx : CtxIx)
  /-- An ENC_CHANGE event, after the snapshot. -/
  | encrypted (ctx : CtxIx)
  /-- The completed write of the CCCD, after the snapshot. -/
  | subscribed (ctx : CtxIx) (d : Option DeviceIx)
  /-- The success of the connection is noted. -/
  | noteSuccess (d : DeviceIx)
  deriving DecidableEq

/-- A link of the stack. -/
structure Link where
  handle : UInt16
  ctx : CtxIx
  deriving DecidableEq

structure Sys where
  central : Central := {}
  calls : List Call := []
  host : Host := .idle
  /-- The context of the connect procedure of the stack. -/
  attempt : Option CtxIx := none
  links : List Link := []

/-- The supervisor notes the failures that it cannot retry at once. -/
def Err.noted : Err → Bool
  | .connectInProgress | .noSlot | .stack => false
  | _ => true

namespace Sys

variable (s : Sys)

def addCall (c : Call) : Sys := { s with calls := s.calls ++ [c] }

/-- `ble_connection_start` returns an error. -/
def failStart (caller : Caller) (d : DeviceIx) (err : Err) : Sys :=
  if caller = .supervisor ∧ err.noted then s.addCall (.noteFailure d) else s

/-- The next section of a call, which has left the list of calls; `ok` is whether the stack starts
a connect procedure. -/
def callStep (ok : Bool) (nowMs : Int) : Call → Sys
  | .start caller d =>
      match s.central.reserveConnection d nowMs with
      | .error err => s.failStart caller d err
      | .ok (c, ref) => { s with central := c }.addCall (.getDeviceId caller d ref)
  | .getDeviceId caller d ref =>
      if (s.central.devices d).inUse then s.addCall (.getPeerAddr caller d ref)
      else s.addCall (.rollback caller d ref .notFound)
  | .getPeerAddr caller d ref =>
      if (s.central.devices d).inUse ∧ (s.central.devices d).hasPeerAddr then
        s.addCall (.acquire caller d ref)
      else s.addCall (.rollback caller d ref .notFound)
  | .acquire caller d ref =>
      match s.central.ctxAcquire ref with
      | (c, some k) => { s with central := c }.addCall (.connect caller d ref k)
      | (c, none) => { s with central := c }.addCall (.rollback caller d ref .noResource)
  | .connect caller d ref k =>
      if ok ∧ s.attempt = none then { s with attempt := some k }
      else s.addCall (.release caller d ref k)
  | .release caller d ref _ =>
      { s with central := s.central.ctxReleaseByRef ref }.addCall (.rollback caller d ref .stack)
  | .rollback caller d ref err =>
      { s with central := s.central.rollbackConnectionStart ref nowMs }.failStart caller d err
  | .noteFailure d => { s with central := s.central.noteFailure d nowMs }
  | .disconnect d => { s with central := s.central.requestDisconnect d }
  | .forget d =>
      match s.central.requestForget d with
      | (c, true) => { s with central := c }
      | (c, false) => { s with central := c }.addCall (.finalize d)
  | .finalize d => { s with central := s.central.finalizeRemove d }

/-- `gap_ctx_snapshot`. -/
def gapSnapshot (k : CtxIx) (handle : UInt16) : Option Slot :=
  (s.central.ctxSnapshot k).bind fun slot =>
    if handle ≠ BLE_HS_CONN_HANDLE_NONE ∧ slot.connHandle ≠ handle then none else some slot

/-- The snapshot of a GATT callback, which must have the callback's handle. -/
def gattSnapshot (k : CtxIx) (handle : UInt16) : Option Slot :=
  (s.central.ctxSnapshot k).bind fun slot => if slot.connHandle = handle then some slot else none

/-- A CONNECT event, up to the end of its first critical section; `linked` is the handle of the
link, if there is one. -/
def connectEvent (k : CtxIx) (linked : Option UInt16) : Sys :=
  let s := { s with attempt := none }
  match linked with
  | some handle =>
      let s := { s with links := s.links ++ [Link.mk handle k] }
      match s.central.ctxSnapshot k with
      | some slot => { s with host := .connected k handle slot.deviceIndex }
      | none => s
  | none =>
      match s.central.ctxSnapshot k with
      | some _ => { s with host := .connectFailed k }
      | none => s

/-- A DISCONNECT event, up to the end of its first critical section. -/
def disconnectEvent (link : Link) : Sys :=
  match s.central.ctxSnapshot link.ctx with
  | some _ => { s with host := .disconnected link.ctx link.handle }
  | none => { s with host := .release link.ctx }

/-- `gap_release_connection` up to the end of its first critical section. -/
def releaseConnection (k : CtxIx) (handle : UInt16) (nowMs : Int) : Sys :=
  match s.central.onDisconnect (s.central.ctxs k).ref handle nowMs with
  | (c, some (some d)) =>
      { s with central := c, host := .readState k d (s.central.devices d).deviceId }
  | (c, _) => { s with central := c, host := .release k }

/-- The next section of the host task; `found` is whether the stack knows the link's peer. -/
def hostStep (found : Bool) (nowMs : Int) : Option Sys :=
  match s.host with
  | .idle => none
  | .connected k handle d =>
      match s.central.onConnectSuccess (s.central.ctxs k).ref handle with
      | (c, true) =>
          let s := { s with central := c }
          match d with
          | some d => some { s with host := if found then .identified d else .idle }
          | none => some { s with host := .idle }
      | (c, false) => some { s with central := c, host := .idle }
  | .identified d => some { s with central := s.central.setPeerAddr d, host := .idle }
  | .connectFailed k => some (s.releaseConnection k (s.central.ctxs k).connHandle nowMs)
  | .disconnected k handle => some (s.releaseConnection k handle nowMs)
  | .readState k d id =>
      if (s.central.devices d).state = .removing then some { s with host := .findRemoved k id }
      else some { s with host := .release k }
  | .findRemoved k id =>
      match s.central.find id with
      | some d => some { s with host := .finalize k d }
      | none => some { s with host := .release k }
  | .finalize k d => some { s with central := s.central.finalizeRemove d, host := .release k }
  | .release k =>
      some { s with central := s.central.ctxReleaseByRef (s.central.ctxs k).ref, host := .idle }
  | .encrypted k =>
      some { s with central := s.central.beginDiscovery (s.central.ctxs k).ref, host := .idle }
  | .subscribed k d =>
      let s := { s with central := s.central.setReady (s.central.ctxs k).ref }
      match d with
      | some d => some { s with host := .noteSuccess d }
      | none => some { s with host := .idle }
  | .noteSuccess d => some { s with central := s.central.noteSuccess d nowMs, host := .idle }

end Sys

/-- What the tasks and the stack decide. -/
inductive Label
  /-- The supervisor looks for a device to connect. -/
  | supervise (nowMs : Int)
  /-- `ble_central_connect` is called for a device of the device store. -/
  | request (id : DeviceId)
  /-- `ble_central_disconnect` is called. -/
  | disconnect (id : DeviceId)
  /-- `ble_central_forget_peer` is called. -/
  | forget (id : DeviceId)
  /-- Call number `k` goes on. -/
  | call (k : Nat) (ok : Bool) (nowMs : Int)
  /-- The connect procedure of the stack ends. -/
  | connectEvent (linked : Option UInt16)
  /-- Link number `k` of the stack ends. -/
  | disconnectEvent (k : Nat)
  /-- An ENC_CHANGE event without an error. -/
  | encrypted (k : CtxIx) (handle : UInt16)
  /-- The write of the CCCD completes. -/
  | subscribed (k : CtxIx) (handle : UInt16)
  /-- The host task goes on. -/
  | host (found : Bool) (nowMs : Int)
  /-- The host resets. -/
  | hostReset
  deriving DecidableEq

/-- One step of the system. -/
def Sys.step (s : Sys) : Label → Option Sys
  | .supervise nowMs =>
      match s.central.nextDevice nowMs with
      | (c, some d) => some ({ s with central := c }.addCall (.start .supervisor d))
      | (c, none) => some { s with central := c }
  | .request id =>
      match s.central.findOrRegister id with
      | (c, some d) => some ({ s with central := c }.addCall (.start .request d))
      | (c, none) => some { s with central := c }
  | .disconnect id => (s.central.find id).map fun d => s.addCall (.disconnect d)
  | .forget id => (s.central.find id).map fun d => s.addCall (.forget d)
  | .call k ok nowMs =>
      match s.calls[k]? with
      | some c => some ({ s with calls := s.calls.eraseIdx k }.callStep ok nowMs c)
      | none => none
  | .connectEvent linked =>
      match s.attempt with
      | some k => if s.host = .idle then some (s.connectEvent k linked) else none
      | none => none
  | .disconnectEvent k =>
      match s.links[k]? with
      | some link =>
          if s.host = .idle then
            some ({ s with links := s.links.eraseIdx k }.disconnectEvent link)
          else none
      | none => none
  | .encrypted k handle =>
      match s.gapSnapshot k handle with
      | some _ => if s.host = .idle then some { s with host := .encrypted k } else none
      | none => none
  | .subscribed k handle =>
      match s.gattSnapshot k handle with
      | some slot =>
          if s.host = .idle then some { s with host := .subscribed k slot.deviceIndex } else none
      | none => none
  | .host found nowMs => s.hostStep found nowMs
  | .hostReset =>
      if s.host = .idle then some { s with central := s.central.handleHostReset } else none

/-- The component after `ble_central_init`: the devices of the device store that have an identity
are registered. -/
structure Sys.Initial (s : Sys) : Prop where
  devices : ∀ d, s.central.devices d = {} ∨ ∃ id, s.central.devices d = .registered id true
  rest : s = { central := { devices := s.central.devices } }

def machine : Machine Sys Label where
  init := Sys.Initial
  step := Sys.step

end BleGateway.BleCentral
