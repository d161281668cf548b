import BleGateway.McpExposure.Records
import BleGateway.Lib.Machine

set_option autoImplicit false

/-! # The exposure table between its callers, its worker and NVS

The calls of `mcp_tool_exposure.c`, which run under the mutex or cut at their accesses to the queue,
and its worker, which takes one event after the other from a bounded queue. The schemas and the
device store change around them. A restart loses the table, the queue and the dirty flag, and loads
the table from NVS.
-/

namespace BleGateway.McpExposure

open DeviceSchema

/-- The length of the queue of the worker. -/
def WORKER_QUEUE_LEN : Nat := 16

/-- `worker_event_t`. -/
inductive Event
  | capCommitted (d : DeviceId)
  | deviceRevoke (d : DeviceId)
  | dirtyRetry
  deriving DecidableEq

/-- What is left of a `mcp_tool_exposure_forget_device` that found the queue full. -/
inductive ForgetStep
  | markDirty | retry
  deriving DecidableEq

structure Exposure (δ : Type) where
  table : Table δ := []
  /-- The table that a load finds; there is none before the first save. -/
  nvs : Option (Table δ) := none
  /-- `s_dirty`. -/
  dirty : Bool := false
  queue : List Event := []
  forgets : List ForgetStep := []
  /-- The committed snapshot of a device, if it has one. -/
  schema : DeviceId → Option Snapshot := fun _ => none
  /-- The device store has the device. -/
  stored : DeviceId → Bool := fun _ => false

variable {δ : Type} [DecidableEq δ]

namespace Exposure

variable (b : Build δ) (x : Exposure δ)

/-- The committed snapshot that `device_schema_get` returns. -/
def capability (d : DeviceId) : Option Snapshot := if x.stored d then x.schema d else none

/-- `mcp_policy_check_feature_control`. -/
def check (d : DeviceId) (f : FeatureId) (resolvedTool : Tool) : PolicyResult :=
  checkFeatureControl b x.table (x.stored d) (x.capability d) d f resolvedTool

/-- `xQueueSend` without a wait. -/
def post (e : Event) : Exposure δ :=
  if x.queue.length < WORKER_QUEUE_LEN then { x with queue := x.queue ++ [e] } else x

/-- `persist_save_locked`; `saved` is whether the write to NVS succeeds. -/
def persistSave (saved : Bool) : Exposure δ :=
  if saved then { x with nvs := some x.table, dirty := false } else { x with dirty := true }

/-! ## The worker -/

/-- `process_event`. -/
def processEvent (saved : Bool) : Event → Exposure δ
  | .capCommitted d => { x with table := x.table.reconcile b (x.capability d) d }.persistSave saved
  | .deviceRevoke d => { x with table := x.table.filter fun r => r.deviceId ≠ d }.persistSave saved
  | .dirtyRetry => if x.dirty then x.persistSave saved else x

/-! ## The calls -/

/-- `mcp_tool_exposure_enable`. -/
def enable (d : DeviceId) (command : CommandName) (confirmDestructive saved : Bool) :
    EspErr × Exposure δ :=
  if !x.stored d then (.notFound, x)
  else
    match x.capability d with
    | none => (.invalidState, x)
    | some s =>
        if s.tools = [] then (.invalidState, x)
        else
          match s.tools.find? fun tool => tool.command = command with
          | none => (.notFound, x)
          | some target =>
              let destructive := decide (target.flags &&& DEVICE_SCHEMA_FLAG_DESTRUCTIVE ≠ 0)
              if destructive && !b.allowDestructive then (.notSupported, x)
              else if destructive && !confirmDestructive then (.invalidArg, x)
              else
                match x.table.find d command with
                | some i =>
                    if (x.table[i]?.any fun r => r.state = .enabled) then (.ok, x)
                    else
                      let table := x.table.modify i fun r =>
                        { r with state := .enabled, reason := .none, digest := b.digest target }
                      if saved then (.ok, { x with table := table }.persistSave true)
                      else (.fail, x.persistSave false)
                | none =>
                    if b.recordMax ≤ x.table.length then (.noMem, x)
                    else
                      let r : Record δ :=
                        { deviceId := d, command := command, digest := b.digest target }
                      if saved then (.ok, { x with table := x.table ++ [r] }.persistSave true)
                      else (.fail, x.persistSave false)

/-- `mcp_tool_exposure_disable`. -/
def disable (d : DeviceId) (command : CommandName) (saved : Bool) : EspErr × Exposure δ :=
  let table := match x.table.find d command with
    | some i => x.table.eraseIdx i
    | none => x.table
  (.ok, { x with table := table }.persistSave saved)

/-- `mcp_tool_expose_feature`. -/
def exposeFeature (d : DeviceId) (f : FeatureId) (command : CommandName) (tool : Tool)
    (saved : Bool) : EspErr × Exposure δ :=
  match x.table.findByFeature d f with
  | some i =>
      let table := x.table.modify i fun r =>
        if r.state = .enabled then { r with featureBound := true, digest := b.digest tool }
        else
          { r with
            state := .enabled
            reason := .none
            featureBound := true
            digest := b.digest tool }
      (.ok, { x with table := table }.persistSave saved)
  | none =>
      if b.recordMax ≤ x.table.length then (.noMem, x)
      else
        let r : Record δ :=
          { deviceId := d
            command := command
            featureBound := true
            featureId := f
            digest := b.digest tool }
        (.ok, { x with table := x.table ++ [r] }.persistSave saved)

/-- `mcp_tool_unbind_feature`. -/
def unbindFeature (d : DeviceId) (f : FeatureId) (saved : Bool) : EspErr × Exposure δ :=
  match x.table.findByFeature d f with
  | some i => (.ok, { x with table := x.table.eraseIdx i }.persistSave saved)
  | none => (.notFound, x)

/-- `mcp_tool_exposure_set_feature_enabled`. -/
def setFeatureEnabled (d : DeviceId) (f : FeatureId) (enabled saved : Bool) :
    EspErr × Exposure δ :=
  match x.table.findIdx? fun r => r.deviceId = d && (r.featureId.text ≠ [] && r.featureId = f) with
  | some i =>
      let table := x.table.modify i fun r => { r with userDisabled := !enabled }
      (.ok, { x with table := table }.persistSave saved)
  | none => (.notFound, x)

/-- `mcp_tool_exposure_forget_device`, up to the end of its first `xQueueSend`. -/
def forgetDevice (d : DeviceId) : Exposure δ :=
  if x.queue.length < WORKER_QUEUE_LEN then x.post (.deviceRevoke d)
  else { x with forgets := x.forgets ++ [.markDirty] }

/-- Its next step. -/
def forgetStep (k : Nat) : Option (Exposure δ) :=
  match x.forgets[k]? with
  | some .markDirty => some { x with dirty := true, forgets := x.forgets.set k .retry }
  | some .retry => some ({ x with forgets := x.forgets.eraseIdx k }.post .dirtyRetry)
  | none => none

/-! ## Starting -/

/-- `mcp_tool_exposure_init` after a restart; `loaded` is whether the load from NVS succeeds. -/
def restart (loaded : Bool) : Exposure δ :=
  let table := if loaded then (x.nvs.getD []).take b.recordMax else []
  { x with
    table := Table.bootReconcile b x.stored x.capability table
    dirty := false
    queue := []
    forgets := [] }

end Exposure

/-! ## The machine -/

/-- A call of the interface. -/
inductive ApiCall
  | enable (d : DeviceId) (command : CommandName) (confirmDestructive : Bool)
  | disable (d : DeviceId) (command : CommandName)
  | exposeFeature (d : DeviceId) (f : FeatureId) (command : CommandName) (tool : Tool)
  | unbindFeature (d : DeviceId) (f : FeatureId)
  | setFeatureEnabled (d : DeviceId) (f : FeatureId) (enabled : Bool)
  deriving DecidableEq

inductive Label
  /-- A schema is committed, and its listener called. -/
  | commit (d : DeviceId) (s : Snapshot)
  /-- What `device_schema_get` returns changes without a commit: the schema is forgotten, or
  another one is loaded at the next start. -/
  | setSchema (d : DeviceId) (s : Option Snapshot)
  /-- The device store changes. -/
  | setStored (d : DeviceId) (stored : Bool)
  /-- `mcp_tool_exposure_reconcile_device_async` is called. -/
  | reconcileAsync (d : DeviceId)
  /-- `mcp_tool_exposure_forget_device` is called. -/
  | forgetDevice (d : DeviceId)
  /-- Such a call goes on. -/
  | forgetStep (k : Nat)
  /-- A call that writes the table. -/
  | call (c : ApiCall) (saved : Bool)
  /-- The worker takes the next event. -/
  | worker (saved : Bool)
  /-- The gateway restarts. -/
  | restart (loaded : Bool)

namespace Exposure

variable (b : Build δ) (x : Exposure δ)

/-- The result of a call, and what it leaves. -/
def apply (c : ApiCall) (saved : Bool) : EspErr × Exposure δ :=
  match c with
  | .enable d command confirmDestructive => x.enable b d command confirmDestructive saved
  | .disable d command => x.disable d command saved
  | .exposeFeature d f command tool => x.exposeFeature b d f command tool saved
  | .unbindFeature d f => x.unbindFeature d f saved
  | .setFeatureEnabled d f enabled => x.setFeatureEnabled d f enabled saved

def step : Label → Option (Exposure δ)
  | .commit d s =>
      some ({ x with schema := Function.update x.schema d (some s) }.post (.capCommitted d))
  | .setSchema d s => some { x with schema := Function.update x.schema d s }
  | .setStored d stored => some { x with stored := Function.update x.stored d stored }
  | .reconcileAsync d => some (x.post (.capCommitted d))
  | .forgetDevice d => some (x.forgetDevice d)
  | .forgetStep k => x.forgetStep k
  | .call c saved => some (x.apply b c saved).2
  | .worker saved =>
      match x.queue with
      | e :: queue => some ({ x with queue := queue }.processEvent b saved e)
      | [] => none
  | .restart loaded => some (x.restart b loaded)

end Exposure

/-- The component from its first start on, whatever NVS, the schemas and the device store hold. -/
def machine (b : Build δ) : Machine (Exposure δ) Label where
  init x := ∃ (x₀ : Exposure δ) (loaded : Bool), x = x₀.restart b loaded
  step := Exposure.step b

end BleGateway.McpExposure
