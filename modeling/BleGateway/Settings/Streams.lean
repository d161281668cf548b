import BleGateway.Settings.Records
import BleGateway.Lib.Machine

set_option autoImplicit false

/-! # Complete streams

The streams as a machine, with the frames of the open streams and the commits as history, and
what makes a commit complete: a schema has the settings its begin frame announced, each as its
item frame described it, under distinct ids; values have as many entries as announced, each of
a setting of the committed schema.

Both streams of a device count their items in the same two fields of its record. A commit is
complete as long as no device opens one of its streams while the other is open.
-/

namespace BleGateway.Settings

/-! ## Commits and what they come from -/

/-- A commit with the frames of its stream, from the begin to the end, and for values the schema
that is committed at the time. -/
inductive Commit
  | schema (frames : List Message) (schema : Schema)
  | values (frames : List Message) (values : Values) (schema : Option Schema)

/-- The item frames of a stream. -/
def itemsOf (frames : List Message) : List Message :=
  frames.filter fun m => m.type = .settingsItem

/-- The stream was opened by a begin frame of type `type` that announced `n` items. -/
def Announces (frames : List Message) (type : MsgType) (n : Nat) : Prop :=
  ∃ opening rest total, frames = opening :: rest ∧ opening.type = type ∧
    opening.total = some total ∧ total.toNat = n

/-- The descriptor says what the item frame says; `reads off s` means that the text `s` stands
at `off` in its pool. -/
structure DescribedBy (reads : Nat → CString → Prop) (d : SettingDesc) (m : Message) : Prop where
  id : ∃ id, m.id? = some id ∧ reads d.idOff id.text
  title : if m.settingTitle.text ≠ [] then reads d.titleOff m.settingTitle.text
    else d.titleOff = d.idOff
  group : reads d.groupOff m.groupText
  unit : reads d.unitOff m.settingUnit.text
  type : m.settingType = some d.type
  flags : d.flags = Protocol.translateWireFlags (m.settingFlags.getD 0)
  maxLength : d.maxLength = m.settingsMaxLength.getD 0
  minValue : d.minValue = m.minValue.getD 0
  maxValue : d.maxValue = m.maxValue.getD 0
  step : d.step = m.step.getD 0

/-- The commit is all that its stream announced. -/
def Commit.Complete : Commit → Prop
  | .schema frames snapshot =>
      Announces frames .settingsBegin snapshot.settingCount ∧
      (itemsOf frames).length = snapshot.settingCount ∧
      (∀ i m d, (itemsOf frames)[i]? = some m → snapshot.descriptors[i]? = some d →
        m.settingsSequence.map (·.toNat) = some i ∧
          DescribedBy (fun off s => snapshot.strings.get off = s) d m) ∧
      (snapshot.descriptors.map snapshot.idOf).Nodup
  | .values frames snapshot current =>
      Announces frames .valuesBegin snapshot.valueCount ∧
      ∀ v ∈ snapshot.values, ∃ committed d, current = some committed ∧
        d ∈ committed.descriptors ∧ committed.idOf d = snapshot.idOf v ∧ d.type = v.type

/-! ## The machine -/

/-- The streams with their history: the frames that the owner of each open stream has sent since
it opened (the latest frame while there is no stream), and the commits so far. -/
structure Streams where
  protocol : Protocol := {}
  schemaFrames : List Message := []
  valuesFrames : List Message := []
  commits : List Commit := []

/-- The frames of a stream after `id` sent `msg`. -/
def framesAfter (owner : Option DeviceId) (frames : List Message) (id : DeviceId) (msg : Message) :
    List Message :=
  match owner with
  | none => [msg]
  | some owner => if owner = id then frames ++ [msg] else frames

/-- The commit that an effect is. -/
def Effect.commit? (protocol : Protocol) (schemaFrames valuesFrames : List Message) :
    Effect → Option Commit
  | .commitSchema _ schema => some (.schema schemaFrames schema)
  | .commitValues id values =>
      some (.values valuesFrames values ((protocol.recordOf id).bind (·.schema)))
  | _ => none

inductive Label
  | notify (id : DeviceId) (msg : Message) (alloc locked : Bool)
  | disconnect (id : DeviceId) (locked : Bool)
  | forget (id : DeviceId) (locked relocked : Bool)
  | capability (id : DeviceId) (supported : Bool) (schemaRevision : UInt16) (locked : Bool)
  | reconciliation (id : DeviceId) (pending : Bool) (expectedRev oldRev : UInt32)

namespace Streams

/-- `device_settings_on_notify` with its history. -/
def notify (σ : Streams) (id : DeviceId) (msg : Message) (alloc locked : Bool) : Streams :=
  let r := σ.protocol.onNotify id msg alloc locked
  let schemaFrames :=
    framesAfter (σ.protocol.schemaStream.map (·.owner)) σ.schemaFrames id msg
  let valuesFrames :=
    framesAfter (σ.protocol.valuesStream.map (·.owner)) σ.valuesFrames id msg
  { protocol := r.1
    schemaFrames := schemaFrames
    valuesFrames := valuesFrames
    commits := σ.commits ++ r.2.filterMap (Effect.commit? r.1 schemaFrames valuesFrames) }

def step (σ : Streams) : Label → Option Streams
  | .notify id msg alloc locked => some (σ.notify id msg alloc locked)
  | .disconnect id locked => some { σ with protocol := (σ.protocol.onDisconnect id locked).1 }
  | .forget id locked relocked =>
      some { σ with protocol := (σ.protocol.forget id locked relocked).1 }
  | .capability id supported schemaRevision locked =>
      some { σ with protocol := (σ.protocol.onCapability id supported schemaRevision locked).1 }
  | .reconciliation id pending expectedRev oldRev =>
      some { σ with protocol := σ.protocol.setReconciliation id pending expectedRev oldRev }

/-- The streams of all devices, from an empty table of records on. -/
def machine : Machine Streams Label where
  init σ := σ = {}
  step := step

end Streams

/-! ## The condition -/

/-- A `settings_begin` frame that opens a stream: its fields are in order, no schema stream is
open, and there is a record and memory for it. -/
def OpensSchema (s : Protocol) (id : DeviceId) (msg : Message) (alloc : Bool) : Prop :=
  msg.type = .settingsBegin ∧ msg.requestId.isSome ∧
    (msg.total.any fun total => decide (total.toNat ≤ DEVICE_SETTINGS_MAX_SETTINGS)) ∧
    msg.protocolVersion = GW_PROTOCOL_VERSION ∧
    msg.command.text = GW_SETTINGS_CMD_DESCRIBE_SETTINGS ∧
    s.schemaStream.isNone ∧ (s.findOrCreateRecord id).isSome ∧ alloc = true

/-- A `settings_values_begin` frame that opens a stream. -/
def OpensValues (s : Protocol) (id : DeviceId) (msg : Message) (alloc : Bool) : Prop :=
  msg.type = .valuesBegin ∧ msg.requestId.isSome ∧ msg.capabilityRevision.isSome ∧
    msg.protocolVersion = GW_PROTOCOL_VERSION ∧ s.valuesStream.isNone ∧
    ((s.recordOf id).any fun r => decide (r.schemaState = .ready) && r.schema.any fun schema =>
      msg.total.any fun total => decide (total.toNat ≤ schema.settingCount)) ∧
    alloc = true

/-- No device opens a stream while its other stream is open. -/
def StreamsApart (σ : Streams) : Label → Prop
  | .notify id msg alloc _ =>
      (OpensSchema σ.protocol id msg alloc →
        σ.protocol.valuesStream.map (·.owner) ≠ some id) ∧
      (OpensValues σ.protocol id msg alloc →
        σ.protocol.schemaStream.map (·.owner) ≠ some id)
  | _ => True

instance (s : Protocol) (id : DeviceId) (msg : Message) (alloc : Bool) :
    Decidable (OpensSchema s id msg alloc) := by
  unfold OpensSchema
  infer_instance

instance (s : Protocol) (id : DeviceId) (msg : Message) (alloc : Bool) :
    Decidable (OpensValues s id msg alloc) := by
  unfold OpensValues
  infer_instance

instance (σ : Streams) : (l : Label) → Decidable (StreamsApart σ l)
  | .notify _ _ _ _ => inferInstanceAs (Decidable (_ ∧ _))
  | .disconnect .. | .forget .. | .capability .. | .reconciliation .. =>
      inferInstanceAs (Decidable True)

end BleGateway.Settings
