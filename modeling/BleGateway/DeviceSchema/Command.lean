import BleGateway.DeviceSchema.WellFormed
import BleGateway.McpExposure.Controls
import BleGateway.Lib.Grid

/-! # Commands are validated against the schema

`device_schema_validate_command` of `device_schema.c`, with its machine arithmetic. The value of an
`INT` command is compared with the range of the tool by a difference in 64 bits, and this agrees
with the integers as long as the step is not 0. The committed snapshots hold no such step: the
stream and the loader both check every tool.

The reserved command is accepted before any of this.
-/

namespace BleGateway.DeviceSchema

open McpExposure (Validation)
open Grid (OnGrid)

/-- The fields of `gw_message_t` that are validated; the `has_` flag of a field is its `Option`, and
of the Boolean value only the flag is read. -/
structure CommandMessage where
  deviceId : Option DeviceId := none
  command : CommandName := .empty
  hasBoolValue : Bool := false
  intValue : Option Int32 := none
  featureId : Option FeatureId := none
  propertyId : Option UInt8 := none
  deriving DecidableEq

/-- The value of a command against its tool; there is no result where the code divides by 0. -/
def checkValue (tool : Tool) (msg : CommandMessage) : Option Validation :=
  if tool.valueType = VALUE_TYPE_NONE then
    some (if msg.intValue.isSome || msg.hasBoolValue then .typeMismatch else .valid)
  else if tool.valueType = VALUE_TYPE_BOOL then
    some (if !msg.hasBoolValue || msg.intValue.isSome then .typeMismatch else .valid)
  else if tool.valueType = VALUE_TYPE_INT then
    match msg.intValue with
    | none => some .typeMismatch
    | some v =>
        if msg.hasBoolValue then some .typeMismatch
        else if v < tool.minValue ∨ v > tool.maxValue then some .rangeError
        else if tool.step = 0 then none
        else if (v.toInt64 - tool.minValue.toInt64).toUInt64 % tool.step.toUInt64 ≠ 0 then
          some .rangeError
        else some .valid
  else some .valid

/-- The feature and the property of a command, for the tool with index `k`. -/
def checkFeature (s : Snapshot) (k : Nat) (msg : CommandMessage) : Validation :=
  match msg.featureId, msg.propertyId with
  | none, none => .valid
  | some featureId, some propertyId =>
      if s.features.any fun feature => feature.featureId = featureId &&
          feature.propertyId = propertyId && feature.writableToolIndex = Int8.ofNat k then .valid
      else .argument
  | _, _ => .argument

/-- The checks against a committed snapshot; the tool is handed out with `VALID`. -/
def Snapshot.validateCommand (s : Snapshot) (msg : CommandMessage) :
    Option (Validation × Option Tool) :=
  match s.tools.findIdx? fun tool => tool.command = msg.command with
  | none => some (.unsupportedCommand, none)
  | some k =>
      let tool := s.tools.getD k {}
      match checkValue tool msg with
      | none => none
      | some .valid =>
          match checkFeature s k msg with
          | .valid => some (.valid, some tool)
          | failure => some (failure, none)
      | some failure => some (failure, none)

/-- A snapshot that commands are validated against. -/
def Record.Usable (r : Record) : Prop :=
  r.hasCommitted = true ∧ (r.committed.state = .ready ∨ r.committed.state = .discovering)

instance (r : Record) : Decidable r.Usable := inferInstanceAs (Decidable (_ ∧ _))

/-- `device_schema_validate_command`. -/
def Sys.validateCommand (s : Sys) (msg : CommandMessage) : Option (Validation × Option Tool) :=
  match msg.deviceId with
  | none => some (.argument, none)
  | some id =>
      if msg.command.text = [] then some (.argument, none)
      else if msg.command.text = cstr "describe_capabilities" then some (.valid, none)
      else
        match s.find id with
        | none => some (.unknown, none)
        | some i =>
            if (s.records i).Usable then (s.records i).committed.validateCommand msg
            else some (.unknown, none)

/-! ## What is accepted -/

/-- The argument of a command fits the tool, in the integers. -/
inductive Fits (tool : Tool) (msg : CommandMessage) : Prop
  | none (type : tool.valueType = VALUE_TYPE_NONE) (noInt : msg.intValue = none)
      (noBool : msg.hasBoolValue = false)
  | bool (type : tool.valueType = VALUE_TYPE_BOOL) (noInt : msg.intValue = none)
      (bool : msg.hasBoolValue = true)
  | int (type : tool.valueType = VALUE_TYPE_INT) (v : Int32) (int : msg.intValue = some v)
      (noBool : msg.hasBoolValue = false)
      (onGrid : OnGrid tool.minValue.toInt tool.maxValue.toInt tool.step.toNat v.toInt)

/-- A command names no feature, or a feature and a property whose writable tool has index `k`. -/
inductive BoundTo (s : Snapshot) (k : Nat) (msg : CommandMessage) : Prop
  | free (noFeature : msg.featureId = none) (noProperty : msg.propertyId = none)
  | feature (feature : Feature) (mem : feature ∈ s.features)
      (featureId : msg.featureId = some feature.featureId)
      (propertyId : msg.propertyId = some feature.propertyId)
      (index : feature.writableToolIndex.toInt = k)

/-- The command is one of the snapshot, with an argument that fits and with its feature. -/
structure Allows (s : Snapshot) (msg : CommandMessage) (k : Nat) (tool : Tool) : Prop where
  found : (s.tools.findIdx? fun tool => tool.command = msg.command) = some k
  entry : s.tools[k]? = some tool
  fits : Fits tool msg
  bound : BoundTo s k msg

section Checks

variable {s : Snapshot} {tool : Tool} {msg : CommandMessage} {k : Nat}

/-- No tool that passes the checks makes the code divide by 0. -/
theorem checkValue_defined (h : validTool tool = true) : (checkValue tool msg).isSome = true := by
  unfold checkValue
  split
  · rfl
  · split
    · rfl
    · split
      · rename_i hint
        simp only [validTool, hint, Bool.and_eq_true, Bool.or_eq_true, decide_eq_true_eq,
          not_true_eq_false, ne_eq, decide_false, Bool.false_eq_true, false_or] at h
        split
        · rfl
        · split
          · rfl
          · split
            · rfl
            · rw [if_neg h.2.2]
              split <;> rfl
      · rfl

/-- The test of an `INT` value is the one in the integers. -/
theorem outside_iff {v min max : Int32} {step : UInt32} :
    ¬ ((v < min ∨ v > max) ∨ (v.toInt64 - min.toInt64).toUInt64 % step.toUInt64 ≠ 0) ↔
      OnGrid min.toInt max.toInt step.toNat v.toInt := by
  rw [not_or, not_or, not_not, OnGrid, Int32.lt_iff_toInt_lt, GT.gt, Int32.lt_iff_toInt_lt,
    Int.not_lt, Int.not_lt, and_assoc]
  refine and_congr_right fun hle => and_congr_right fun _ => ?_
  exact Grid.wide_mod_eq_zero_iff hle

/-- **The value is checked in the integers.** -/
theorem checkValue_valid_iff (h : validTool tool = true) :
    checkValue tool msg = some .valid ↔ Fits tool msg := by
  simp only [validTool, Bool.and_eq_true, Bool.or_eq_true, decide_eq_true_eq] at h
  obtain ⟨⟨-, htype⟩, hint⟩ := h
  have hnb : VALUE_TYPE_BOOL ≠ VALUE_TYPE_NONE := by decide
  have hin : VALUE_TYPE_INT ≠ VALUE_TYPE_NONE := by decide
  have hib : VALUE_TYPE_INT ≠ VALUE_TYPE_BOOL := by decide
  unfold checkValue
  by_cases hnone : tool.valueType = VALUE_TYPE_NONE
  · rw [if_pos hnone]
    constructor
    · intro hv
      have hfree : ¬ (msg.intValue.isSome || msg.hasBoolValue) = true := by
        intro hset
        rw [if_pos hset] at hv
        cases hv
      simp only [Bool.or_eq_true, not_or, Bool.not_eq_true, Option.isSome_eq_false_iff,
        Option.isNone_iff_eq_none] at hfree
      exact .none hnone hfree.1 hfree.2
    · intro hfits
      cases hfits with
      | none type noInt noBool => rw [noInt, noBool]; rfl
      | bool type => exact absurd (type.symm.trans hnone) hnb
      | int type => exact absurd (type.symm.trans hnone) hin
  · rw [if_neg hnone]
    by_cases hbool : tool.valueType = VALUE_TYPE_BOOL
    · rw [if_pos hbool]
      constructor
      · intro hv
        have hset : ¬ (!msg.hasBoolValue || msg.intValue.isSome) = true := by
          intro hset
          rw [if_pos hset] at hv
          cases hv
        simp only [Bool.or_eq_true, not_or, Bool.not_eq_true, Option.isSome_eq_false_iff,
          Option.isNone_iff_eq_none, Bool.not_eq_false'] at hset
        exact .bool hbool hset.2 hset.1
      · intro hfits
        cases hfits with
        | none type => exact absurd type hnone
        | bool type noInt bool => rw [noInt, bool]; rfl
        | int type => exact absurd (type.symm.trans hbool) hib
    · rw [if_neg hbool]
      have hintType : tool.valueType = VALUE_TYPE_INT := by
        simp only [VALUE_TYPE_NONE, VALUE_TYPE_BOOL, VALUE_TYPE_INT] at *
        grind
      rw [if_pos hintType]
      have hstep : tool.step ≠ 0 := (hint.resolve_left (not_not.mpr hintType)).2
      constructor
      · intro hv
        cases hmsg : msg.intValue with
        | none =>
            rw [hmsg] at hv
            cases hv
        | some v =>
            simp only [hmsg] at hv
            split at hv
            · cases hv
            rename_i hnoBool
            split at hv
            · cases hv
            rename_i hrange
            split at hv
            · cases hv
            rename_i hmod
            exact .int hintType v hmsg (Bool.not_eq_true _ ▸ hnoBool)
              (outside_iff.mp (not_or.mpr ⟨hrange, hmod⟩))
      · intro hfits
        cases hfits with
        | none type => exact absurd type hnone
        | bool type => exact absurd type hbool
        | int type v int noBool onGrid =>
            obtain ⟨hrange, hmod⟩ := not_or.mp (outside_iff.mpr onGrid)
            simp only [int, noBool, Bool.false_eq_true, if_false, if_neg hrange, if_neg hstep,
              if_neg hmod]

/-- An index below the number of tools is not changed by its 8 bits. -/
theorem index_eq_iff {i : Int8} (hk : k < DEVICE_SCHEMA_MAX_TOOLS) :
    i = Int8.ofNat k ↔ i.toInt = k := by
  have hsmall : k < 12 := hk
  rw [← Int8.toInt_inj, Int8.toInt_ofNat_of_lt (by omega)]

/-- **The feature is the one that the tool writes.** -/
theorem checkFeature_valid_iff (hk : k < DEVICE_SCHEMA_MAX_TOOLS) :
    checkFeature s k msg = .valid ↔ BoundTo s k msg := by
  unfold checkFeature
  constructor
  · intro hv
    split at hv
    · rename_i hfeature hproperty
      exact .free hfeature hproperty
    · rename_i featureId propertyId hfeature hproperty
      split at hv
      · rename_i hany
        obtain ⟨feature, hmem, hmatch⟩ := List.any_eq_true.mp hany
        simp only [Bool.and_eq_true, decide_eq_true_eq] at hmatch
        obtain ⟨⟨rfl, rfl⟩, hindex⟩ := hmatch
        exact .feature feature hmem hfeature hproperty ((index_eq_iff hk).mp hindex)
      · cases hv
    · cases hv
  · intro hbound
    cases hbound with
    | free noFeature noProperty => rw [noFeature, noProperty]
    | feature feature mem featureId propertyId index =>
        simp only [featureId, propertyId]
        refine if_pos (List.any_eq_true.mpr ⟨feature, mem, ?_⟩)
        simp [(index_eq_iff hk).mpr index]

/-- The tool that is found. -/
theorem found_spec (h : (s.tools.findIdx? fun tool => tool.command = msg.command) = some k) :
    ∃ tool, s.tools[k]? = some tool ∧ s.tools.getD k {} = tool ∧ tool.command = msg.command ∧
      tool ∈ s.tools ∧ k < s.tools.length := by
  obtain ⟨hlt, hcommand, -⟩ := List.findIdx?_eq_some_iff_getElem.mp h
  refine ⟨s.tools[k], List.getElem?_eq_getElem hlt, ?_, of_decide_eq_true hcommand,
    List.getElem_mem hlt, hlt⟩
  rw [List.getD_eq_getElem?_getD, List.getElem?_eq_getElem hlt]
  rfl

theorem Snapshot.Checked.validateCommand_defined (h : s.Checked) :
    (s.validateCommand msg).isSome = true := by
  unfold Snapshot.validateCommand
  split
  · rfl
  · rename_i k hfound
    obtain ⟨tool, -, htool, -, hmem, -⟩ := found_spec hfound
    have hdefined : (checkValue tool msg).isSome = true :=
      checkValue_defined (h.tools_valid tool hmem)
    dsimp only
    rw [htool]
    split
    · rename_i hnone
      rw [hnone] at hdefined
      cases hdefined
    · split <;> rfl
    · rfl

/-- **What a checked snapshot accepts.** -/
theorem Snapshot.Checked.validateCommand_iff (h : s.Checked) {tool : Tool} :
    s.validateCommand msg = some (.valid, some tool) ↔ ∃ k, Allows s msg k tool := by
  unfold Snapshot.validateCommand
  constructor
  · intro hv
    split at hv
    · cases hv
    · rename_i k hfound
      obtain ⟨t, hentry, htool, -, hmem, hlt⟩ := found_spec hfound
      dsimp only at hv
      rw [htool] at hv
      split at hv
      · cases hv
      · rename_i hvalue
        split at hv
        · rename_i hfeature
          obtain rfl : t = tool := by simpa using hv
          exact ⟨k, hfound, hentry, (checkValue_valid_iff (h.tools_valid t hmem)).mp hvalue,
            (checkFeature_valid_iff (lt_of_lt_of_le hlt h.tools_le)).mp hfeature⟩
        · simp at hv
      · simp at hv
  · rintro ⟨k, hfound, hentry, hfits, hbound⟩
    obtain ⟨t, hentry', htool, -, hmem, hlt⟩ := found_spec hfound
    obtain rfl := Option.some.inj (hentry.symm.trans hentry')
    rw [hfound]
    dsimp only
    rw [htool, (checkValue_valid_iff (h.tools_valid _ hmem)).mpr hfits]
    dsimp only
    rw [(checkFeature_valid_iff (lt_of_lt_of_le hlt h.tools_le)).mpr hbound]

/-- What is accepted is handed out. -/
theorem Snapshot.validateCommand_tool {out : Option Tool}
    (h : s.validateCommand msg = some (.valid, out)) : ∃ tool, out = some tool := by
  unfold Snapshot.validateCommand at h
  split at h
  · simp at h
  · dsimp only at h
    split at h
    · cases h
    · split at h
      · simp only [Option.some.injEq, Prod.mk.injEq, true_and] at h
        exact ⟨_, h.symm⟩
      · rename_i hne
        simp only [Option.some.injEq, Prod.mk.injEq] at h
        exact absurd h.1 hne
    · rename_i hne _
      simp only [Option.some.injEq, Prod.mk.injEq] at h
      simp_all

end Checks

/-! ## Every committed snapshot is checked -/

/-- The snapshots of a record have passed the checks. -/
structure Record.Sound (r : Record) : Prop where
  committed : r.hasCommitted = true → r.committed.Checked
  staged : r.stagingActive = true → r.Staged

section Runs

variable {s s' : Sys} {i : Ix} {id : DeviceId} {r r' : Record} {l : Label} {msg : Message}

theorem Snapshot.Checked.congr {a b : Snapshot} (h : a.Checked) (ht : b.tools = a.tools)
    (hf : b.features = a.features) : b.Checked where
  tools_le := ht ▸ h.tools_le
  features_le := hf ▸ h.features_le
  tools_valid := ht ▸ h.tools_valid
  ids_valid := hf ▸ h.ids_valid

theorem Record.Sound.leaves (h : r.Sound) (hl : r.Leaves r') : r'.Sound where
  committed hc := by
    obtain ⟨hc', ht, hf⟩ := hl.committed hc
    exact (h.committed hc').congr ht hf
  staged ha := (h.staged (hl.staged ha).1).leaves hl ha

theorem Record.Sound.stored (h : r.Sound) (hv : handleMessage id msg r = .stored r') :
    r'.Sound where
  committed hc := by
    have hst := handleMessage_stored hv
    rw [hst.committed]
    exact h.committed (hst.hasCommitted ▸ hc)
  staged _ := handleMessage_staged h.staged hv

theorem Record.Sound.ended {changed : Bool} (h : r.Sound)
    (hv : handleMessage id msg r = .committed r' changed) : r'.Sound := by
  obtain ⟨hactive, rfl, -⟩ := handleEnd_complete hv
  have hchecked := (h.staged hactive).wellFormed.checked
  exact ⟨fun _ => hchecked.congr rfl rfl, fun ha => by cases ha⟩

/-- **One step.** -/
theorem Record.Sound.step (h : (s.records i).Sound) (hs : s.step l = some s') :
    (s'.records i).Sound := by
  cases hf : s.frame i l with
  | none => exact h.leaves (Sys.step_leaves hs hf)
  | some frame =>
      obtain ⟨id, msg⟩ := frame
      rw [Sys.step_frame hs hf]
      cases hv : handleMessage id msg (s.records i) with
      | ignored => exact h
      | stored r' => exact h.stored hv
      | rejected => exact h.leaves (Record.leaves_resetError _)
      | committed r' changed => exact h.ended hv

/-- The loader checks as much. -/
theorem sound_boot (known : DeviceId → Bool) (nvs : Ix → Option Blob) :
    ((boot known nvs).records i).Sound := by
  show (loadPersisted known nvs i).Sound
  unfold loadPersisted
  cases hload : (nvs i).bind (Blob.load known) with
  | none => exact ⟨fun hc => (by cases hc), fun ha => (by cases ha)⟩
  | some snapshot =>
      obtain ⟨b, -, hbload⟩ := Option.bind_eq_some_iff.mp hload
      obtain ⟨p, hp⟩ := Blob.load_some hbload
      have hchecked := (Persisted.load_checked hp).1
      exact ⟨fun _ => hchecked.congr rfl rfl, fun ha => by cases ha⟩

/-- **A run.** -/
theorem sound_run {known : DeviceId → Bool} {nvs : Ix → Option Blob} {ls : List Label}
    (hrun : machine.run (boot known nvs) ls = some s) (i : Ix) : (s.records i).Sound :=
  Machine.run_induction (M := machine) (I := fun s => (s.records i).Sound)
    (fun _ _ _ h hs => h.step hs) (sound_boot known nvs) hrun

end Runs

/-! ## Commands -/

/-- The reserved command. -/
def CommandMessage.Reserved (msg : CommandMessage) : Prop :=
  msg.command.text = cstr "describe_capabilities"

section Commands

variable {s : Sys} {msg : CommandMessage}

/-- A command that is not reserved is judged by the usable snapshot of its device. -/
theorem Sys.validateCommand_iff (hcmd : ¬ msg.Reserved) {out : Option Tool} :
    s.validateCommand msg = some (.valid, out) ↔ ∃ id i, msg.deviceId = some id ∧
      msg.command.text ≠ [] ∧ s.find id = some i ∧ (s.records i).Usable ∧
        (s.records i).committed.validateCommand msg = some (.valid, out) := by
  have hreserved : ¬ msg.command.text = cstr "describe_capabilities" := hcmd
  unfold Sys.validateCommand
  constructor
  · intro hv
    split at hv
    · simp at hv
    · rename_i id hid
      split at hv
      · simp at hv
      · rename_i hne
        split at hv
        · simp at hv
        · rename_i i hfind
          split at hv
          · rename_i husable
            exact ⟨id, i, hid, hne, hfind, husable, hv⟩
          · simp at hv
  · rintro ⟨id, i, hid, hne, hfind, husable, hv⟩
    simp only [hid, if_neg hne, if_neg hreserved, hfind, if_pos husable]
    exact hv

/-- The code never divides by 0 when the snapshots are checked. -/
theorem Sys.validateCommand_defined (h : ∀ i, (s.records i).Sound) :
    (s.validateCommand msg).isSome = true := by
  unfold Sys.validateCommand
  split
  · rfl
  · split
    · rfl
    · split
      · rfl
      · split
        · rfl
        · split
          · rename_i i _ husable
            exact ((h i).committed husable.1).validateCommand_defined
          · rfl

end Commands

/-- **Commands are validated exactly.** After every run, the validation of a command that is not
reserved is defined, and it accepts exactly a command of the usable committed snapshot of its
device whose argument fits the tool in the integers and which names no feature, or a feature whose
writable tool is the command. -/
theorem command_validated_iff {known : DeviceId → Bool} {nvs : Ix → Option Blob} {ls : List Label}
    {s : Sys} (hrun : machine.run (boot known nvs) ls = some s) {msg : CommandMessage}
    (hcmd : ¬ msg.Reserved) :
    (s.validateCommand msg).isSome = true ∧
      ((∃ out, s.validateCommand msg = some (.valid, out)) ↔ ∃ id i k tool,
        msg.deviceId = some id ∧ msg.command.text ≠ [] ∧ s.find id = some i ∧
          (s.records i).Usable ∧ Allows (s.records i).committed msg k tool) := by
  have hsound := sound_run hrun
  refine ⟨Sys.validateCommand_defined hsound, ?_⟩
  constructor
  · rintro ⟨out, hv⟩
    obtain ⟨id, i, hid, hne, hfind, husable, hsnapshot⟩ := (Sys.validateCommand_iff hcmd).mp hv
    obtain ⟨tool, rfl⟩ := Snapshot.validateCommand_tool hsnapshot
    obtain ⟨k, hallows⟩ := ((hsound i).committed husable.1).validateCommand_iff.mp hsnapshot
    exact ⟨id, i, k, tool, hid, hne, hfind, husable, hallows⟩
  · rintro ⟨id, i, k, tool, hid, hne, hfind, husable, hallows⟩
    have hsnapshot := ((hsound i).committed husable.1).validateCommand_iff.mpr ⟨k, hallows⟩
    exact ⟨some tool, (Sys.validateCommand_iff hcmd).mpr ⟨id, i, hid, hne, hfind, husable,
      hsnapshot⟩⟩

/-! ## The reserved command -/

/-- A dimmer with the largest range that there is, in steps of 3. -/
def dimTool : PersistedTool where
  command := chars (strlcpy _ (cstr "dim"))
  label := fun _ => 0
  unit := fun _ => 0
  valueType := VALUE_TYPE_INT
  flags := 0
  minValue := Int32.minValue
  maxValue := Int32.maxValue
  step := 3

/-- A tool with the name of the reserved command, which takes the values from 0 to 10. -/
def describeTool : PersistedTool where
  command := chars (strlcpy _ (cstr "describe_capabilities"))
  label := fun _ => 0
  unit := fun _ => 0
  valueType := VALUE_TYPE_INT
  flags := 0
  minValue := 0
  maxValue := 10
  step := 1

/-- A stored schema with a tool and no feature. -/
def toolBlob (tool : PersistedTool) : Persisted :=
  { toolCount := 1
    featureCount := 0
    deviceId := chars lamp
    revision := 1
    tools := fun _ => tool
    features := danglingBlob.features
    settingsState := 1
    settingsSchemaRevision := 0 }

/-- The component with that schema for the lamp. -/
def withTool (tool : PersistedTool) : Sys :=
  boot (· = lamp) fun i => if i = first then some (.v3 (toolBlob tool)) else none

/-- The largest value, for the command of the tool. -/
def largest (command : CString) : CommandMessage :=
  { deviceId := some lamp, command := strlcpy _ command, intValue := some Int32.maxValue }

/-- The largest value is 4294967295 above the lower bound, which is a multiple of 3. -/
theorem command_validated_largest :
    ((withTool dimTool).validateCommand (largest (cstr "dim"))).isSome = true ∧
      ((∃ out, (withTool dimTool).validateCommand (largest (cstr "dim")) = some (.valid, out)) ↔
        ∃ id i k tool, (largest (cstr "dim")).deviceId = some id ∧
          (largest (cstr "dim")).command.text ≠ [] ∧ (withTool dimTool).find id = some i ∧
            ((withTool dimTool).records i).Usable ∧
              Allows ((withTool dimTool).records i).committed (largest (cstr "dim")) k tool) :=
  have hrun : machine.run (withTool dimTool) [] = some (withTool dimTool) := rfl
  command_validated_iff hrun (by unfold CommandMessage.Reserved; decide +kernel)

example : ((withTool dimTool).validateCommand (largest (cstr "dim"))).map (·.1) = some .valid := by
  decide +kernel

/-- The reserved command is accepted with a value that its tool does not take. -/
theorem reserved_accepted : ¬ ∀ (known : DeviceId → Bool) (nvs : Ix → Option Blob)
    (ls : List Label) (s : Sys), machine.run (boot known nvs) ls = some s →
      ∀ msg : CommandMessage, (s.validateCommand msg).isSome = true ∧
        ((∃ out, s.validateCommand msg = some (.valid, out)) ↔ ∃ id i k tool,
          msg.deviceId = some id ∧ msg.command.text ≠ [] ∧ s.find id = some i ∧
            (s.records i).Usable ∧ Allows (s.records i).committed msg k tool) := by
  intro h
  have hiff := (h (· = lamp)
    (fun i => if i = first then some (.v3 (toolBlob describeTool)) else none) [] _ rfl
    (largest (cstr "describe_capabilities"))).2
  have haccepted : ((withTool describeTool).validateCommand
      (largest (cstr "describe_capabilities"))) = some (.valid, none) := by decide +kernel
  obtain ⟨id, i, k, tool, hid, -, hfind, -, hallows⟩ := hiff.mp ⟨none, haccepted⟩
  obtain rfl : lamp = id := Option.some.inj hid
  have hlamp : (withTool describeTool).find lamp = some first := by decide +kernel
  obtain rfl : first = i := Option.some.inj (hlamp.symm.trans hfind)
  have hrange : ∀ t ∈ ((withTool describeTool).records first).committed.tools,
      t.valueType = VALUE_TYPE_INT ∧ t.maxValue = 10 := by decide +kernel
  obtain ⟨htype, hmax⟩ := hrange tool (List.mem_of_getElem? hallows.entry)
  cases hallows.fits with
  | none type => exact absurd (type.symm.trans htype) (by decide)
  | bool type => exact absurd (type.symm.trans htype) (by decide)
  | int _ v int _ onGrid =>
      obtain rfl : Int32.maxValue = v := Option.some.inj int
      have hle := onGrid.2.1
      rw [hmax] at hle
      exact absurd hle (by decide)

/-! ## The validation in the integers -/

/-- The message of a request, as far as it is validated. -/
def CommandMessage.ofRequest (request : DeviceCommandRequest) : CommandMessage :=
  { deviceId := some request.deviceId
    command := request.command
    hasBoolValue := request.hasBoolValue
    intValue := if request.hasIntValue then some request.intValue else none
    featureId := if request.hasFeatureId then some request.featureId else none
    propertyId := if request.hasPropertyId then some request.propertyId else none }

section Requests

variable {s : Snapshot} {tool : Tool} {request : DeviceCommandRequest} {k : Nat}

theorem checkValue_request (h : validTool tool = true) :
    checkValue tool (.ofRequest request) = some (McpExposure.validateValue tool request) := by
  have hstep : tool.valueType = VALUE_TYPE_INT → tool.step ≠ 0 := by
    intro hint
    simp only [validTool, hint, Bool.and_eq_true, Bool.or_eq_true, decide_eq_true_eq,
      not_true_eq_false, ne_eq, decide_false, Bool.false_eq_true, false_or] at h
    exact h.2.2
  unfold checkValue McpExposure.validateValue CommandMessage.ofRequest
  by_cases hnone : tool.valueType = VALUE_TYPE_NONE
  · rw [if_pos hnone, if_pos hnone]
    cases request.hasIntValue <;> rfl
  rw [if_neg hnone, if_neg hnone]
  by_cases hbool : tool.valueType = VALUE_TYPE_BOOL
  · rw [if_pos hbool, if_pos hbool]
    cases request.hasIntValue <;> rfl
  rw [if_neg hbool, if_neg hbool]
  by_cases hint : tool.valueType = VALUE_TYPE_INT
  · rw [if_pos hint, if_pos hint]
    cases hset : request.hasIntValue with
    | false => rfl
    | true =>
        cases hother : request.hasBoolValue with
        | true => rfl
        | false =>
            simp only [if_true, Bool.not_true, Bool.or_false, Bool.false_eq_true, if_false,
              if_neg (hstep hint), Bool.or_eq_true, decide_eq_true_eq]
            by_cases hrange : request.intValue < tool.minValue ∨ request.intValue > tool.maxValue
            · rw [if_pos hrange, if_pos (.inl hrange)]
            · rw [if_neg hrange]
              have hle : tool.minValue.toInt ≤ request.intValue.toInt := by
                rw [not_or, Int32.not_lt] at hrange
                exact Int32.le_iff_toInt_le.mp hrange.1
              -- the remainder of the 64-bit difference is the one in the integers
              have hmod : (request.intValue.toInt64 - tool.minValue.toInt64).toUInt64 %
                  tool.step.toUInt64 = 0 ↔
                    (tool.step.toNat : Int) ∣ request.intValue.toInt - tool.minValue.toInt :=
                Grid.wide_mod_eq_zero_iff hle
              rw [Int.dvd_iff_emod_eq_zero] at hmod
              split
              · rename_i hne
                rw [if_pos (.inr fun hzero => hne (hmod.mpr hzero))]
              · rename_i heq
                rw [if_neg (not_or.mpr ⟨hrange, fun hne => hne (hmod.mp (not_not.mp heq))⟩)]
  · rw [if_neg hint, if_neg hint]

theorem checkFeature_request (s : Snapshot) (k : Nat) (request : DeviceCommandRequest) :
    checkFeature s k (.ofRequest request) =
      if request.hasFeatureId ≠ request.hasPropertyId then .argument
      else if request.hasFeatureId && !s.features.any fun f =>
          f.featureId = request.featureId && f.propertyId = request.propertyId &&
            f.writableToolIndex = Int8.ofNat k then .argument
      else .valid := by
  unfold checkFeature CommandMessage.ofRequest
  cases hfeature : request.hasFeatureId <;> cases hproperty : request.hasPropertyId
  case true.true =>
    simp only [if_true, ne_eq, not_true_eq_false, if_false, Bool.true_and]
    generalize (s.features.any fun f => f.featureId = request.featureId &&
      f.propertyId = request.propertyId && f.writableToolIndex = Int8.ofNat k) = found
    cases found <;> rfl
  all_goals rfl

/-- **What is sent in a request** is validated as the integers say, too. -/
theorem validateCommand_request (h : s.Checked) (hstate : s.state = .ready ∨ s.state = .discovering)
    (hne : request.command.text ≠ [])
    (hcmd : request.command.text ≠ cstr "describe_capabilities") :
    (s.validateCommand (.ofRequest request)).map (·.1) =
      some (McpExposure.validateCommand (some s) request) := by
  have hready : ¬ (s.state ≠ .ready ∧ s.state ≠ .discovering) := by
    rintro ⟨hr, hd⟩
    exact hstate.elim hr hd
  unfold Snapshot.validateCommand McpExposure.validateCommand
  rw [if_neg hne, if_neg hcmd]
  dsimp only
  rw [if_neg hready]
  have hfind :
      (s.tools.findIdx? fun tool => tool.command = (CommandMessage.ofRequest request).command)
      = s.tools.findIdx? fun tool => tool.command = request.command := rfl
  rw [hfind]
  cases hfound : s.tools.findIdx? fun tool => tool.command = request.command with
  | none => rfl
  | some k =>
      obtain ⟨tool, -, htool, -, hmem, -⟩ := found_spec (hfind.trans hfound)
      dsimp only
      rw [htool, checkValue_request (h.tools_valid tool hmem)]
      cases hvalue : McpExposure.validateValue tool request with
      | valid =>
          dsimp only
          rw [← checkFeature_request]
          split
          · rename_i hvalid
            rw [hvalid]
            rfl
          · rfl
      | unknown | unsupportedCommand | argument | typeMismatch | rangeError => rfl

end Requests

end BleGateway.DeviceSchema
