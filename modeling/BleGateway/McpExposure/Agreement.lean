import BleGateway.DeviceSchema.Command
import BleGateway.McpExposure.Binding
import BleGateway.McpExposure.Review

/-! # Hinted controls and settable controls

A hint is built from the template and the property of a feature, `set` reads the value type of the
feature, and the validation its tool and the state of the schema. For a committed snapshot they
agree about a feature that has a template, while the schema is being discovered or ready.
-/

namespace BleGateway.McpExposure

open DeviceSchema
open Grid (OnGrid)

variable {δ : Type} [DecidableEq δ]

/-! ## Agreement -/

/-- The request carries one value, of the type of the hint and within its range. -/
inductive ControlHint.Fits (hint : ControlHint) : SetArgs → Prop
  | bool {v : Bool} : hint.valueType = VALUE_TYPE_BOOL → Fits hint { boolValue := some (.bool v) }
  | int {v min max : Int32} {step : UInt32} : hint.valueType = VALUE_TYPE_INT →
      hint.range = some (min, max, step) → OnGrid min.toInt max.toInt step.toNat v.toInt →
      Fits hint { intValue := some (.int v) }

/-- The hints of a device, written into an array with this many places. -/
def Exposure.hints (b : Build δ) (x : Exposure δ) (d : DeviceId) (capacity : Nat) :
    List ControlHint :=
  (getHints b x.table (x.capability d) d capacity).2.1

/-- What fits a listed hint of the feature is set and valid, and only what is hinted can be set. -/
structure Agrees (b : Build δ) (x : Exposure δ) (d : DeviceId) (capacity : Nat)
    (feature : Feature) : Prop where
  settable : ∀ hint ∈ x.hints b d capacity, hint.featureId = feature.featureId →
    ∀ args, hint.Fits args →
      ∃ request, resolveSet b x d feature.featureId.text args = .asyncSet request ∧
        validateCommand (x.capability d) request = .valid
  hinted : ∀ args request, resolveSet b x d feature.featureId.text args = .asyncSet request →
    ∃ hint ∈ x.hints b d capacity, hint.featureId = feature.featureId

/-- Control of the feature is granted, for a value. -/
structure Controllable (b : Build δ) (x : Exposure δ) (d : DeviceId) (s : Snapshot)
    (feature : Feature) (tool : Tool) : Prop where
  named : toolAt s.tools feature.writableToolIndex = some tool
  allowed : x.check b d feature.featureId tool = .allow
  typed : tool.valueType = VALUE_TYPE_BOOL ∨ tool.valueType = VALUE_TYPE_INT

section

variable {b : Build δ} {x : Exposure δ} {d : DeviceId} {s : Snapshot} {feature : Feature}
  {tool : Tool} {args : SetArgs} {base request : DeviceCommandRequest} {hint : ControlHint}

/-! ## Requests -/

theorem typedValue_asyncSet_iff {valueType : UInt8} :
    typedValue valueType args base = .asyncSet request ↔
      (valueType = VALUE_TYPE_BOOL ∧ ∃ v, args = { boolValue := some (.bool v) } ∧
        request = { base with hasBoolValue := true, boolValue := v }) ∨
      (valueType = VALUE_TYPE_INT ∧ ∃ v, args = { intValue := some (.int v) } ∧
        request = { base with hasIntValue := true, intValue := v }) := by
  have hne : VALUE_TYPE_INT ≠ VALUE_TYPE_BOOL := by decide
  obtain ⟨boolValue, intValue⟩ := args
  unfold typedValue
  constructor
  · intro h
    split at h
    · cases h
    · rename_i hone
      split at h
      · rename_i htype
        split at h
        · rename_i v hv
          obtain rfl : boolValue = some (.bool v) := hv
          cases intValue with
          | some arg => exact absurd rfl hone
          | none =>
              cases h
              exact .inl ⟨htype, v, rfl, rfl⟩
        · cases h
      · split at h
        · rename_i htype
          split at h
          · rename_i v hv
            obtain rfl : intValue = some (.int v) := hv
            cases boolValue with
            | some arg => exact absurd rfl hone
            | none =>
                cases h
                exact .inr ⟨htype, v, rfl, rfl⟩
          · cases h
        · cases h
  · rintro (⟨rfl, v, hargs, rfl⟩ | ⟨rfl, v, hargs, rfl⟩)
    · cases hargs
      rfl
    · cases hargs
      rfl

/-- The request that `set` makes for a feature, up to its value. -/
def setRequest (d : DeviceId) (feature : Feature) (tool : Tool) : DeviceCommandRequest where
  origin := .control
  deviceId := d
  command := tool.command
  featureId := feature.featureId
  hasFeatureId := true
  propertyId := feature.propertyId
  hasPropertyId := true

theorem find_feature (hs : s.WellFormed) (hmem : feature ∈ s.features) :
    (s.features.find? fun g => g.featureId = feature.featureId) = some feature :=
  Places.find?_key hs.resolved.ids hmem

/-- The exact id leads to the feature. -/
theorem resolveFeature_self (hs : s.WellFormed) (hmem : feature ∈ s.features) :
    resolveFeature s feature.featureId.text = .ok feature := by
  have hid : feature.featureId.text ≠ [] := of_decide_eq_true (hs.checked.ids_valid feature hmem)
  have hfind : (s.features.find? fun f => f.featureId.text = feature.featureId.text) =
      some feature := by
    rw [← find_feature hs hmem]
    congr 1
    funext g
    simp [CharBuf.ext_iff]
  rw [resolveFeature, if_neg hid, hfind]

theorem resolveSet_asyncSet_iff (hs : s.WellFormed) (hcap : x.capability d = some s)
    (hmem : feature ∈ s.features) :
    resolveSet b x d feature.featureId.text args = .asyncSet request ↔
      ∃ tool, toolAt s.tools feature.writableToolIndex = some tool ∧
        x.check b d feature.featureId tool = .allow ∧
        typedValue feature.valueType args (setRequest d feature tool) = .asyncSet request := by
  have hstored : x.stored d = true := (Option.ite_none_right_eq_some.mp hcap).1
  unfold resolveSet
  rw [hstored, hcap]
  dsimp only
  rw [resolveFeature_self hs hmem]
  dsimp only
  cases toolAt s.tools feature.writableToolIndex with
  | none => simp
  | some tool =>
      simp only [Bool.not_true, Bool.false_eq_true, if_false, Option.some.injEq, exists_eq_left']
      cases x.check b d feature.featureId tool <;> simp [setRequest]

/-! ## Hints -/

theorem semanticName_ne_nil {featureType : UInt8} {version : UInt16} :
    semanticName featureType version ≠ some [] := by
  intro h
  obtain ⟨t, ht, hname⟩ := Option.map_eq_some_iff.mp h
  have hall : ∀ t ∈ semanticNames, t.2.2 ≠ [] := by decide
  exact hall t (List.mem_of_find?_eq_some ht) hname

theorem check_allow_iff (hs : s.WellFormed) (hcap : x.capability d = some s)
    (hmem : feature ∈ s.features) (htool : toolAt s.tools feature.writableToolIndex = some tool) :
    x.check b d feature.featureId tool = .allow ↔
      (x.table.getFeature d feature.featureId).any (·.accepts b tool) = true ∧
        tool.flags &&& DEVICE_SCHEMA_FLAG_DESTRUCTIVE = 0 := by
  have hstored : x.stored d = true := (Option.ite_none_right_eq_some.mp hcap).1
  have hfound : ∃ s' g, some s = some s' ∧
      (s'.features.find? fun h => h.featureId = feature.featureId) = some g ∧
        (toolAt s'.tools g.writableToolIndex).isSome = true :=
    ⟨s, feature, rfl, find_feature hs hmem, by rw [htool]; rfl⟩
  rw [Exposure.check, checkFeatureControl_allow_iff, hstored, hcap, Option.any_eq_true]
  exact ⟨fun h => ⟨h.2.2.1, h.2.2.2⟩, fun h => ⟨rfl, hfound, h.1, h.2⟩⟩

/-- The hint of a feature with the template's name. -/
def hintOf (feature : Feature) (name : CString) (tool : Tool) : ControlHint where
  featureId := feature.featureId
  semanticName := name
  propertyName := propertyName feature.propertyId
  valueType := propertyValueType feature.propertyId
  range := if propertyValueType feature.propertyId = VALUE_TYPE_INT then
      some (tool.minValue, tool.maxValue, tool.step)
    else none

theorem buildControlHint_eq_some_iff (hs : s.WellFormed) (hcap : x.capability d = some s)
    (hmem : feature ∈ s.features) : buildControlHint b x.table d s feature = some hint ↔
      ∃ tool name, Controllable b x d s feature tool ∧
        semanticName feature.featureType feature.featureSchemaVersion = some name ∧
        propertyValueType feature.propertyId = tool.valueType ∧
          hint = hintOf feature name tool := by
  have hid : feature.featureId.text ≠ [] := of_decide_eq_true (hs.checked.ids_valid feature hmem)
  unfold buildControlHint
  rw [if_neg hid]
  constructor
  · intro h
    split at h
    · rename_i tool name htool hname
      obtain ⟨hcond, h⟩ := Option.ite_none_left_eq_some.mp h
      obtain ⟨hany, ⟨⟩⟩ := Option.ite_none_right_eq_some.mp h
      simp only [Bool.or_eq_true, Bool.and_eq_true, decide_eq_true_eq, not_or, not_and_or,
        ne_eq, not_not] at hcond
      obtain ⟨⟨⟨-, htyped⟩, htype⟩, hflag⟩ := hcond
      exact ⟨tool, name, ⟨htool, (check_allow_iff hs hcap hmem htool).mpr ⟨hany, hflag⟩,
        htype ▸ htyped⟩, hname, htype.symm, rfl⟩
    · cases h
  · rintro ⟨tool, name, hc, hname, htype, rfl⟩
    obtain ⟨hany, hflag⟩ := (check_allow_iff hs hcap hmem hc.named).mp hc.allowed
    have hne : name ≠ [] := by
      rintro rfl
      exact semanticName_ne_nil hname
    have htyped := hc.typed
    rw [← htype] at htyped
    rw [hc.named, hname]
    simp only [hne, hflag, ← htype, hany, hintOf]
    rcases htyped with h | h <;> simp [h]

theorem buildControlHint_featureId {t : Table δ}
    (h : buildControlHint b t d s feature = some hint) :
    hint.featureId = feature.featureId := by
  obtain ⟨-, h⟩ := Option.ite_none_left_eq_some.mp h
  split at h
  · obtain ⟨-, h⟩ := Option.ite_none_left_eq_some.mp h
    obtain ⟨-, ⟨⟩⟩ := Option.ite_none_right_eq_some.mp h
    rfl
  · cases h

/-- The list has just the hint of the feature under its id. -/
theorem mem_hints_iff (hs : s.WellFormed) (hcap : x.capability d = some s)
    (hmem : feature ∈ s.features) {capacity : Nat}
    (hroom : MCP_SEMANTIC_CONTROL_HINT_MAX ≤ capacity) :
    (hint ∈ x.hints b d capacity ∧ hint.featureId = feature.featureId) ↔
      buildControlHint b x.table d s feature = some hint := by
  have hfits : (s.features.filterMap (buildControlHint b x.table d s)).length ≤ capacity :=
    (List.length_filterMap_le _ _).trans (hs.checked.features_le.trans hroom)
  rw [Exposure.hints, hcap, getHints]
  dsimp only
  rw [List.take_of_length_le hfits, List.mem_filterMap]
  constructor
  · rintro ⟨⟨g, hg, hhint⟩, hid⟩
    have hsame := (buildControlHint_featureId hhint).symm.trans hid
    rwa [List.inj_on_of_nodup_map hs.resolved.ids hg hmem hsame] at hhint
  · exact fun h => ⟨⟨feature, hmem, h⟩, buildControlHint_featureId h⟩

/-! ## Validation -/

/-- A value that fits is accepted just while the schema is being discovered or ready. -/
theorem validateCommand_valid_iff (hs : s.WellFormed) (hmem : feature ∈ s.features)
    (htool : toolAt s.tools feature.writableToolIndex = some tool)
    (hcommand : request.command = tool.command) (hfits : Fits tool (.ofRequest request))
    (hfeature : (CommandMessage.ofRequest request).featureId = some feature.featureId)
    (hproperty : (CommandMessage.ofRequest request).propertyId = some feature.propertyId) :
    validateCommand (some s) request = .valid ↔ s.state = .ready ∨ s.state = .discovering ∨
      tool.command.text = cstr "describe_capabilities" := by
  obtain ⟨hindex, hentry⟩ := Option.ite_none_right_eq_some.mp htool
  have hin := List.mem_of_getElem? hentry
  have hne : request.command.text ≠ [] := by
    have hvalid := hs.checked.tools_valid tool hin
    simp only [validTool, validCommandName, Bool.and_eq_true] at hvalid
    rw [hcommand]
    exact of_decide_eq_true hvalid.1.1.1
  rw [← hcommand]
  by_cases hcmd : request.command.text = cstr "describe_capabilities"
  · rw [validateCommand, if_neg hne, if_pos hcmd]
    simp [hcmd]
  by_cases hstate : s.state = .ready ∨ s.state = .discovering
  · obtain ⟨k, hfound, hk⟩ := Option.bind_eq_some_iff.mp
      (List.find?_eq_bind_findIdx?_getElem?.symm.trans (Places.find?_key hs.resolved.commands hin))
    have hkey : k = feature.writableToolIndex.toInt.toNat :=
      (List.getElem?_inj (List.getElem?_eq_some_iff.mp hk).1
        (List.Nodup.of_map _ hs.resolved.commands)).mp (hk.trans hentry.symm)
    have hvalid := hs.checked.validateCommand_iff.mpr ⟨k, by rwa [← hcommand] at hfound, hk, hfits,
      .feature feature hmem hfeature hproperty (by omega)⟩
    have hsame := validateCommand_request hs.checked hstate hne hcmd
    rw [hvalid] at hsame
    exact iff_of_true (Option.some.inj hsame).symm (hstate.imp id .inl)
  · rw [validateCommand, if_neg hne, if_neg hcmd, if_pos (not_or.mp hstate)]
    simp [hcmd, not_or.mp hstate]

theorem valueType_eq (hs : s.WellFormed) (hmem : feature ∈ s.features)
    (htool : toolAt s.tools feature.writableToolIndex = some tool) :
    feature.valueType = tool.valueType := by
  rcases hs.resolved.writable feature hmem with hnone | ⟨t, ht, htype⟩
  · rw [hnone] at htool
    cases htool
  · rw [Option.some.inj (htool.symm.trans ht), htype]

/-- The hint has the type and the range of the tool. -/
structure ControlHint.Describes (hint : ControlHint) (tool : Tool) : Prop where
  type : hint.valueType = tool.valueType
  range : tool.valueType = VALUE_TYPE_INT →
    hint.range = some (tool.minValue, tool.maxValue, tool.step)

theorem hintOf_describes {name : CString}
    (h : propertyValueType feature.propertyId = tool.valueType) :
    (hintOf feature name tool).Describes tool where
  type := h
  range hint := if_pos (h.trans hint)

/-- Something fits the hint: a flag, or the lower bound. -/
theorem ControlHint.Describes.exists_fits (h : hint.Describes tool) (hvalid : validTool tool = true)
    (htyped : tool.valueType = VALUE_TYPE_BOOL ∨ tool.valueType = VALUE_TYPE_INT) :
    ∃ args, hint.Fits args := by
  rcases htyped with hbool | hint
  · exact ⟨_, .bool (v := true) (h.type.trans hbool)⟩
  · have hle : tool.minValue ≤ tool.maxValue := by
      simp only [validTool, hint, Bool.and_eq_true, Bool.or_eq_true, decide_eq_true_eq,
        not_true_eq_false, ne_eq, decide_false, Bool.false_eq_true, false_or] at hvalid
      exact hvalid.2.1
    exact ⟨_, .int (h.type.trans hint) (h.range hint)
      ⟨le_refl _, Int32.le_iff_toInt_le.mp hle, by simp⟩⟩

/-- A value that fits is set for the tool, and it is valid just in the states of the validation. -/
theorem Controllable.resolves (hc : Controllable b x d s feature tool) (hs : s.WellFormed)
    (hcap : x.capability d = some s) (hmem : feature ∈ s.features) (h : hint.Describes tool)
    (hfits : hint.Fits args) :
    ∃ request, resolveSet b x d feature.featureId.text args = .asyncSet request ∧
      (validateCommand (x.capability d) request = .valid ↔ s.state = .ready ∨
        s.state = .discovering ∨ tool.command.text = cstr "describe_capabilities") := by
  have htype := valueType_eq hs hmem hc.named
  rw [hcap]
  cases hfits with
  | bool hbool =>
      have hbool := h.type.symm.trans hbool
      exact ⟨_, (resolveSet_asyncSet_iff hs hcap hmem).mpr ⟨tool, hc.named, hc.allowed,
        typedValue_asyncSet_iff.mpr (.inl ⟨htype.trans hbool, _, rfl, rfl⟩)⟩,
        validateCommand_valid_iff hs hmem hc.named rfl (.bool hbool rfl rfl) rfl rfl⟩
  | int hint hrange hgrid =>
      have hint := h.type.symm.trans hint
      obtain ⟨rfl, rfl, rfl⟩ := Prod.mk.inj (Option.some.inj ((h.range hint).symm.trans hrange))
      exact ⟨_, (resolveSet_asyncSet_iff hs hcap hmem).mpr ⟨tool, hc.named, hc.allowed,
        typedValue_asyncSet_iff.mpr (.inr ⟨htype.trans hint, _, rfl, rfl⟩)⟩,
        validateCommand_valid_iff hs hmem hc.named rfl (.int hint _ rfl rfl hgrid) rfl rfl⟩

end

/-- The relay with a schema version that no template has. -/
def newerSchema : Snapshot :=
  { relaySchema with features := [{ relayFeature with featureSchemaVersion := 2 }] }

end BleGateway.McpExposure
