import BleGateway.DeviceSchema.Changes
import BleGateway.DeviceSchema.Load
import BleGateway.DeviceSchema.Serial

/-! # Committed snapshots are well formed

A committed snapshot comes from a stream of frames or from a blob of the store. The handlers of
the stream establish all that later code relies on. The loader checks the counts and each tool and
feature by itself, but not that commands and feature ids are distinct, nor where the writable tool
index of a feature points.
-/

namespace BleGateway.DeviceSchema

namespace Snapshot

/-- What the loader checks too. -/
structure Checked (s : Snapshot) : Prop where
  tools_le : s.tools.length ≤ DEVICE_SCHEMA_MAX_TOOLS
  features_le : s.features.length ≤ DEVICE_SCHEMA_MAX_FEATURES
  /-- With a valid command and, for an `INT` tool, an ordered range and a step. -/
  tools_valid : ∀ t ∈ s.tools, validTool t = true
  ids_valid : ∀ f ∈ s.features, validFeatureId f.featureId = true

/-- Commands and ids are distinct, and a writable tool index leads to a tool with the type of the
feature. -/
structure Resolved (s : Snapshot) : Prop where
  commands : (s.tools.map Tool.command).Nodup
  ids : (s.features.map Feature.featureId).Nodup
  writable : ∀ f ∈ s.features, f.writableToolIndex = -1 ∨
    ∃ t, toolAt s.tools f.writableToolIndex = some t ∧ t.valueType = f.valueType

/-- **What later code relies on.** -/
structure WellFormed (s : Snapshot) : Prop where
  checked : s.Checked
  resolved : s.Resolved

variable {s s' : Snapshot}

/-- Only the tools and the features count. -/
theorem WellFormed.congr (h : s.WellFormed) (ht : s'.tools = s.tools)
    (hf : s'.features = s.features) : s'.WellFormed := by
  obtain ⟨⟨h₁, h₂, h₃, h₄⟩, h₅, h₆, h₇⟩ := h
  rw [← ht] at h₁ h₃ h₅ h₇
  rw [← hf] at h₂ h₄ h₆ h₇
  exact ⟨⟨h₁, h₂, h₃, h₄⟩, h₅, h₆, h₇⟩

theorem wellFormed_empty (h₁ : s.tools = []) (h₂ : s.features = []) : s.WellFormed := by
  refine ⟨⟨?_, ?_, ?_, ?_⟩, ?_, ?_, ?_⟩ <;> simp [h₁, h₂]

end Snapshot

open Snapshot

/-! ## Tools are found where the index points -/

theorem nodup_map_append {α β : Type} {f : α → β} {l : List α} {x : α} (h : (l.map f).Nodup)
    (hx : ∀ y ∈ l, f y ≠ f x) : ((l ++ [x]).map f).Nodup := by
  rw [List.map_append, List.map_singleton]
  refine List.nodup_append.mpr ⟨h, List.nodup_singleton _, ?_⟩
  intro a ha b hb
  obtain ⟨y, hy, rfl⟩ := List.mem_map.mp ha
  rw [List.mem_singleton.mp hb]
  exact hx y hy

/-- Tools that follow do not move the tool at an index. -/
theorem toolAt_append {tools : List Tool} {t : Tool} {i : Int8} (h : toolAt tools i = some t)
    (more : List Tool) : toolAt (tools ++ more) i = some t := by
  unfold toolAt at h ⊢
  split at h
  · rename_i hi
    rw [if_pos hi]
    have hlt := (List.getElem?_eq_some_iff.mp h).1
    rw [List.getElem?_append_left hlt]
    exact h
  · cases h

/-- The writable tool of an accepted feature is none or a tool of its type. -/
theorem writableTool_some {msg : Message} {tools : List Tool} {feature : Feature} {i : Int8}
    (hnone : feature.writableToolIndex = -1) (h : writableTool msg tools feature = some i) :
    i = -1 ∨ ∃ t, toolAt tools i = some t ∧ t.valueType = feature.valueType := by
  unfold writableTool at h
  split at h
  · split at h
    · rw [hnone] at h
      exact .inl (Option.some.inj h).symm
    · dsimp only at h
      obtain ⟨hfits, ⟨⟩⟩ := Option.ite_none_right_eq_some.mp h
      obtain ⟨t, ht, hvalid⟩ := (Option.any_eq_true _ _).mp hfits
      simp only [validateFeatureTool, Bool.and_eq_true, decide_eq_true_eq] at hvalid
      exact .inr ⟨t, ht, hvalid.1.1.symm⟩
  · rw [hnone] at h
    exact .inl (Option.some.inj h).symm

/-! ## Records -/

namespace Record

variable {r r' : Record} {id : DeviceId} {msg : Message}

/-- The stream that is collected, within the totals that its `capabilities_begin` has declared. -/
structure Staged (r : Record) : Prop where
  tools_le : r.staging.tools.length ≤ r.stagingExpectedTools
  features_le : r.staging.features.length ≤ r.stagingExpectedFeatures
  expectedTools_le : r.stagingExpectedTools ≤ DEVICE_SCHEMA_MAX_TOOLS
  expectedFeatures_le : r.stagingExpectedFeatures ≤ DEVICE_SCHEMA_MAX_FEATURES
  tools_valid : ∀ t ∈ r.staging.tools, validTool t = true
  ids_valid : ∀ f ∈ r.staging.features, validFeatureId f.featureId = true
  resolved : r.staging.Resolved

theorem Staged.wellFormed (h : r.Staged) : r.staging.WellFormed where
  checked := ⟨h.tools_le.trans h.expectedTools_le, h.features_le.trans h.expectedFeatures_le,
    h.tools_valid, h.ids_valid⟩
  resolved := h.resolved

/-- `capabilities_begin` opens an empty stream with the totals that it declares. -/
theorem handleBegin_declares (h : handleBegin id msg r = .stored r') :
    r'.stagingActive = true ∧ r'.staging.tools = [] ∧ r'.staging.features = [] ∧
      (∃ total, msg.total = some total ∧ r'.stagingExpectedTools = total.toNat) ∧
        r'.stagingExpectedFeatures = (msg.featureTotal.getD 0).toNat ∧
          r'.stagingExpectedTools ≤ DEVICE_SCHEMA_MAX_TOOLS ∧
            r'.stagingExpectedFeatures ≤ DEVICE_SCHEMA_MAX_FEATURES := by
  unfold handleBegin at h
  split at h
  · rename_i snapshotId total revision _ htotal _
    split at h
    · cases h
    · rename_i hok
      obtain rfl := Verdict.stored.inj h
      push Not at hok
      exact ⟨rfl, rfl, rfl, ⟨total, htotal, rfl⟩, rfl, hok.2.1, hok.2.2.1⟩
  · cases h

theorem Staged.begin (h : handleBegin id msg r = .stored r') : r'.Staged := by
  obtain ⟨-, ht, hf, -, -, htools, hfeatures⟩ := handleBegin_declares h
  have hwf := wellFormed_empty ht hf
  refine ⟨?_, ?_, htools, hfeatures, hwf.checked.tools_valid, hwf.checked.ids_valid, hwf.resolved⟩
  · rw [ht]
    exact Nat.zero_le _
  · rw [hf]
    exact Nat.zero_le _

/-- An accepted tool is new and valid, and comes within the total. -/
theorem handleToolItem_adds (h : handleToolItem id msg r = .stored r') :
    r.stagingActive = true ∧ ∃ tool, validTool tool = true ∧
      r.staging.tools.length < r.stagingExpectedTools ∧
        (∀ t ∈ r.staging.tools, t.command ≠ tool.command) ∧
          r' = { r with staging := { r.staging with tools := r.staging.tools ++ [tool] } } := by
  unfold handleToolItem at h
  split at h
  · dsimp only at h
    split at h
    · cases h
    · split at h
      · cases h
      · split at h
        · cases h
        · rename_i hvalid
          split at h
          · rename_i hseq
            obtain rfl := Verdict.stored.inj h
            rw [Bool.not_eq_true', Bool.not_eq_false] at hvalid
            exact ⟨hseq.1, _, hvalid, hseq.2.2.2.1, hseq.2.2.2.2, rfl⟩
          · cases h
  · cases h

theorem Staged.tool (hst : r.Staged) (h : handleToolItem id msg r = .stored r') : r'.Staged := by
  obtain ⟨-, tool, hvalid, hlt, hnew, rfl⟩ := handleToolItem_adds h
  refine ⟨?_, hst.features_le, hst.expectedTools_le, hst.expectedFeatures_le, ?_, hst.ids_valid,
    nodup_map_append hst.resolved.commands hnew, hst.resolved.ids, ?_⟩
  · show (r.staging.tools ++ [tool]).length ≤ r.stagingExpectedTools
    rw [List.length_append, List.length_singleton]
    exact hlt
  · intro t ht
    rcases List.mem_append.mp ht with ht | ht
    · exact hst.tools_valid t ht
    · rw [List.mem_singleton.mp ht]
      exact hvalid
  · intro f hf
    rcases hst.resolved.writable f hf with hnone | ⟨t, ht, htype⟩
    · exact .inl hnone
    · exact .inr ⟨t, toolAt_append ht [tool], htype⟩

/-- An accepted feature is new, comes within the total and has its writable tool. -/
theorem handleFeatureItem_adds (h : handleFeatureItem id msg r = .stored r') :
    r.stagingActive = true ∧ ∃ feature, validFeatureId feature.featureId = true ∧
      r.staging.features.length < r.stagingExpectedFeatures ∧
        (∀ f ∈ r.staging.features, f.featureId ≠ feature.featureId) ∧
          (feature.writableToolIndex = -1 ∨
            ∃ t, toolAt r.staging.tools feature.writableToolIndex = some t ∧
              t.valueType = feature.valueType) ∧
            r' = { r with
              staging := { r.staging with features := r.staging.features ++ [feature] } } := by
  unfold handleFeatureItem at h
  split at h
  · rename_i snapshotId featureId featureType propertyId valueType _ _ _ _ _
    dsimp only at h
    split at h
    · cases h
    · rename_i hok
      split at h
      · rename_i hseq
        split at h
        · rename_i i hi
          obtain rfl := Verdict.stored.inj h
          push Not at hok
          have hid : validFeatureId featureId = true := by simpa using hok.2.1
          have hwritable := writableTool_some
            (rfl : (msg.feature featureId featureType propertyId valueType).writableToolIndex = -1)
              hi
          exact ⟨hseq.1, { msg.feature featureId featureType propertyId valueType with
            writableToolIndex := i }, hid, hseq.2.2.2.1, hseq.2.2.2.2, hwritable, rfl⟩
        · cases h
      · cases h
  · cases h

theorem Staged.feature (hst : r.Staged) (h : handleFeatureItem id msg r = .stored r') :
    r'.Staged := by
  obtain ⟨-, feature, hid, hlt, hnew, hwritable, rfl⟩ := handleFeatureItem_adds h
  refine ⟨hst.tools_le, ?_, hst.expectedTools_le, hst.expectedFeatures_le, hst.tools_valid, ?_,
    hst.resolved.commands, nodup_map_append hst.resolved.ids hnew, ?_⟩
  · show (r.staging.features ++ [feature]).length ≤ r.stagingExpectedFeatures
    rw [List.length_append, List.length_singleton]
    exact hlt
  · intro f hf
    rcases List.mem_append.mp hf with hf | hf
    · exact hst.ids_valid f hf
    · rw [List.mem_singleton.mp hf]
      exact hid
  · intro f hf
    rcases List.mem_append.mp hf with hf | hf
    · exact hst.resolved.writable f hf
    · rw [List.mem_singleton.mp hf]
      exact hwritable

/-- What a stored frame does to the totals and to the stream. -/
theorem handleMessage_staged (hst : r.stagingActive = true → r.Staged)
    (h : handleMessage id msg r = .stored r') : r'.Staged := by
  unfold handleMessage at h
  split at h
  · exact .begin h
  · split at h
    · exact (hst (handleToolItem_adds h).1).tool h
    · split at h
      · exact (hst (handleFeatureItem_adds h).1).feature h
      · exact absurd h handleEnd_ne_stored

/-- The end of a stream finds what its `capabilities_begin` has declared. -/
theorem handleEnd_complete {changed : Bool} (h : handleMessage id msg r = .committed r' changed) :
    r.stagingActive = true ∧ r' = r.commit ∧
      (∃ total, msg.total = some total ∧ total.toNat = r.stagingExpectedTools) ∧
        r.staging.tools.length = r.stagingExpectedTools ∧
          r.staging.features.length = r.stagingExpectedFeatures := by
  have hend := handleMessage_end h
  obtain ⟨hactive, rfl⟩ := handleMessage_committed h
  refine ⟨hactive, rfl, ?_⟩
  unfold handleEnd at hend
  split at hend
  · rename_i snapshotId total _ htotal
    split at hend
    · cases hend
    · split at hend
      · rename_i hcomplete
        exact ⟨⟨total, htotal, hcomplete.2.2.1⟩, hcomplete.2.2.2.1, hcomplete.2.2.2.2⟩
      · cases hend
  · cases hend

/-- The committed snapshot and the stream are left alone or dropped. -/
structure Leaves (r r' : Record) : Prop where
  committed : r'.hasCommitted = true → r.hasCommitted = true ∧
    r'.committed.tools = r.committed.tools ∧ r'.committed.features = r.committed.features
  staged : r'.stagingActive = true → r.stagingActive = true ∧ r'.staging = r.staging ∧
    r'.stagingExpectedTools = r.stagingExpectedTools ∧
      r'.stagingExpectedFeatures = r.stagingExpectedFeatures

theorem Leaves.refl (r : Record) : r.Leaves r where
  committed h := ⟨h, rfl, rfl⟩
  staged h := ⟨h, rfl, rfl, rfl⟩

theorem Leaves.trans {r'' : Record} (h : r.Leaves r') (h' : r'.Leaves r'') : r.Leaves r'' where
  committed hc := by
    obtain ⟨hc', ht', hf'⟩ := h'.committed hc
    obtain ⟨hc'', ht, hf⟩ := h.committed hc'
    exact ⟨hc'', ht'.trans ht, hf'.trans hf⟩
  staged ha := by
    obtain ⟨ha', hs', ht', hf'⟩ := h'.staged ha
    obtain ⟨ha'', hs, ht, hf⟩ := h.staged ha'
    exact ⟨ha'', hs'.trans hs, ht'.trans ht, hf'.trans hf⟩

/-- What the committed snapshot and the stream consist of. -/
def content (r : Record) : Bool × List Tool × List Feature × Bool × Snapshot × Nat × Nat :=
  (r.hasCommitted, r.committed.tools, r.committed.features, r.stagingActive, r.staging,
    r.stagingExpectedTools, r.stagingExpectedFeatures)

theorem Leaves.same (h : r'.content = r.content) : r.Leaves r' := by
  simp only [content, Prod.mk.injEq] at h
  obtain ⟨hhas, htools, hfeatures, hactive, hrest⟩ := h
  exact ⟨fun hc => ⟨hhas ▸ hc, htools, hfeatures⟩, fun ha => ⟨hactive ▸ ha, hrest⟩⟩

theorem Leaves.of_none (hhas : r'.hasCommitted = false) (hactive : r'.stagingActive = false) :
    r.Leaves r' where
  committed h := by
    rw [hhas] at h
    cases h
  staged h := by
    rw [hactive] at h
    cases h

theorem leaves_reportError (r : Record) : r.Leaves r.reportError := by
  unfold reportError
  split <;> exact .same rfl

theorem leaves_clearStaging (r : Record) : r.Leaves r.clearStaging where
  committed h := ⟨h, rfl, rfl⟩
  staged h := by cases h

theorem leaves_resetError (r : Record) : r.Leaves r.resetError :=
  (r.leaves_clearStaging.trans (leaves_reportError _)).trans (.same rfl)

theorem leaves_disconnectRunning (r : Record) : r.Leaves r.disconnectRunning := by
  unfold Record.disconnectRunning
  dsimp only
  split
  · exact r.leaves_clearStaging.trans (.same rfl)
  · exact (r.leaves_clearStaging.trans (leaves_reportError _)).trans (.same rfl)

theorem leaves_disconnectQueued (r : Record) : r.Leaves r.disconnectQueued := by
  unfold Record.disconnectQueued
  dsimp only
  split
  · exact .same rfl
  · exact r.leaves_reportError.trans (.same rfl)

theorem leaves_complete (r : Record) (generation : UInt32) (completion : SubmitResult) :
    r.Leaves (r.complete generation completion) := by
  have hreport : r.Leaves (if completion = .ok then r else r.reportError) := by
    split
    · exact .refl r
    · exact r.leaves_reportError
  unfold Record.complete
  dsimp only
  generalize (if completion = .ok then r else r.reportError) = r₁ at hreport
  split <;> exact hreport.trans (.same rfl)

end Record

/-! ## Declared totals -/

/-- The totals of tools and of features. -/
abbrev Totals := Nat × Nat

/-- The totals that a `capabilities_begin` declares. -/
def Message.totals (msg : Message) : Totals :=
  ((msg.total.getD 0).toNat, (msg.featureTotal.getD 0).toNat)

/-- The totals of the tools and the features that are there. -/
def Snapshot.totals (s : Snapshot) : Totals := (s.tools.length, s.features.length)

/-- The totals that were declared for the stream of a record and for its committed snapshot. -/
structure Declared where
  stream : Totals
  committed : Totals

/-- The frame that the step with this label takes for the record. -/
def Sys.frame (s : Sys) (i : Ix) : Label → Option (DeviceId × Message)
  | .worker _ =>
      match s.worker, s.queue with
      | .idle, .notify id msg :: _ => if s.find id = some i then some (id, msg) else none
      | _, _ => none
  | _ => none

/-- What is declared after a step: a stored `capabilities_begin` declares the totals of the stream,
and its end commits them. -/
def Declared.next (d : Declared) (s : Sys) (i : Ix) (l : Label) : Declared :=
  match s.frame i l with
  | some (id, msg) =>
      match handleMessage id msg (s.records i) with
      | .stored _ =>
          if msg.type = cstr "capabilities_begin" then { d with stream := msg.totals } else d
      | .committed _ _ => { d with committed := d.stream }
      | _ => d
  | none => d

/-- What is declared for a record after a run. -/
def Declared.after (i : Ix) : Declared → Sys → List Label → Declared
  | d, _, [] => d
  | d, s, l :: ls =>
      match s.step l with
      | some s' => (d.next s i l).after i s' ls
      | none => d

/-! ## Runs -/

/-- The snapshots of a record are well formed and have the totals that were declared. -/
structure Record.Kept (r : Record) (d : Declared) : Prop where
  committed : r.hasCommitted = true → r.committed.WellFormed ∧ r.committed.totals = d.committed
  staged : r.stagingActive = true →
    r.Staged ∧ (r.stagingExpectedTools, r.stagingExpectedFeatures) = d.stream

section Runs

variable {s s' : Sys} {i : Ix} {id : DeviceId} {r r' : Record} {l : Label} {d : Declared}
  {msg : Message}

/-- A stream that is left alone stays within its totals. -/
theorem Record.Staged.leaves (h : r.Staged) (hl : r.Leaves r') (ha : r'.stagingActive = true) :
    r'.Staged := by
  obtain ⟨-, hs, ht, hf⟩ := hl.staged ha
  obtain ⟨h₁, h₂, h₃, h₄, h₅, h₆, h₇⟩ := h
  refine ⟨?_, ?_, ?_, ?_, ?_, ?_, ?_⟩ <;> simp only [hs, ht, hf] <;> assumption

theorem Record.Kept.leaves (h : r.Kept d) (hl : r.Leaves r') : r'.Kept d where
  committed hc := by
    obtain ⟨hc', ht, hf⟩ := hl.committed hc
    obtain ⟨hwf, htotals⟩ := h.committed hc'
    refine ⟨hwf.congr ht hf, ?_⟩
    rw [← htotals, Snapshot.totals, Snapshot.totals, ht, hf]
  staged ha := by
    obtain ⟨ha', -, ht, hf⟩ := hl.staged ha
    obtain ⟨hstaged, htotals⟩ := h.staged ha'
    rw [ht, hf]
    exact ⟨hstaged.leaves hl ha, htotals⟩

/-- Only the begin of a stream declares its totals. -/
theorem Record.handleMessage_expected (h : handleMessage id msg r = .stored r') :
    (r'.stagingExpectedTools, r'.stagingExpectedFeatures) =
      if msg.type = cstr "capabilities_begin" then msg.totals
      else (r.stagingExpectedTools, r.stagingExpectedFeatures) := by
  unfold handleMessage at h
  split at h
  · rename_i hbegin
    obtain ⟨-, -, -, ⟨total, htotal, htools⟩, hfeatures, -⟩ := handleBegin_declares h
    rw [if_pos hbegin, htools, hfeatures, Message.totals, htotal]
    rfl
  · rename_i hbegin
    rw [if_neg hbegin]
    split at h
    · obtain ⟨-, tool, -, -, -, rfl⟩ := handleToolItem_adds h
      rfl
    · split at h
      · obtain ⟨-, feature, -, -, -, -, rfl⟩ := handleFeatureItem_adds h
        rfl
      · exact absurd h handleEnd_ne_stored

/-- An item comes after the begin of its stream. -/
theorem Record.handleMessage_active (h : handleMessage id msg r = .stored r')
    (hbegin : msg.type ≠ cstr "capabilities_begin") : r.stagingActive = true := by
  unfold handleMessage at h
  rw [if_neg hbegin] at h
  split at h
  · exact (handleToolItem_adds h).1
  · split at h
    · exact (handleFeatureItem_adds h).1
    · exact absurd h handleEnd_ne_stored

/-- A frame that is stored keeps the record. -/
theorem Record.Kept.stored (h : r.Kept d) (hv : handleMessage id msg r = .stored r') :
    r'.Kept
      (if msg.type = cstr "capabilities_begin" then { d with stream := msg.totals } else d) where
  committed hc := by
    have hst := handleMessage_stored hv
    rw [hst.committed]
    have hkept := h.committed (hst.hasCommitted ▸ hc)
    split <;> exact hkept
  staged _ := by
    refine ⟨handleMessage_staged (fun ha => (h.staged ha).1) hv, ?_⟩
    rw [handleMessage_expected hv]
    by_cases hbegin : msg.type = cstr "capabilities_begin"
    · rw [if_pos hbegin, if_pos hbegin]
    · rw [if_neg hbegin, if_neg hbegin]
      exact (h.staged (handleMessage_active hv hbegin)).2

/-- The end of a stream commits what its begin has declared. -/
theorem Record.Kept.ended {changed : Bool} (h : r.Kept d)
    (hv : handleMessage id msg r = .committed r' changed) :
    r'.Kept { d with committed := d.stream } := by
  obtain ⟨hactive, rfl, -, htools, hfeatures⟩ := handleEnd_complete hv
  obtain ⟨hstaged, htotals⟩ := h.staged hactive
  refine ⟨fun _ => ⟨hstaged.wellFormed.congr rfl rfl, ?_⟩, fun ha => by cases ha⟩
  show (r.staging.tools.length, r.staging.features.length) = d.stream
  rw [htools, hfeatures]
  exact htotals

/-- The step that takes a frame writes what the handler says. -/
theorem Sys.step_frame (hs : s.step l = some s') (hf : s.frame i l = some (id, msg)) :
    s'.records i = (handleMessage id msg (s.records i)).record (s.records i) := by
  unfold frame at hf
  split at hf
  · rename_i ok
    split at hf
    · rename_i id' msg' rest hworker hqueue
      obtain ⟨hfind, ⟨⟩⟩ := Option.ite_none_right_eq_some.mp hf
      have hs' : s' = { s with queue := rest }.handleNotify id msg := by
        have hstep : s.workerStep ok = some s' := hs
        unfold workerStep at hstep
        rw [hqueue] at hstep
        simp only [hworker, Option.some.injEq] at hstep
        simp only [hworker]
        exact hstep.symm
      have hfind' : Sys.find { s with queue := rest } id = some i := hfind
      rw [hs', Sys.handleNotify, hfind']
      dsimp only
      cases hv : handleMessage id msg (s.records i) with
      | ignored => rfl
      | stored | rejected | committed => exact Function.update_self ..
    · cases hf
  · cases hf

/-- Every other step leaves the snapshots of the record alone. -/
theorem Sys.step_leaves (hs : s.step l = some s') (hf : s.frame i l = none) :
    (s.records i).Leaves (s'.records i) := by
  have hupdate : ∀ {t : Records} {j : Ix} {r : Record}, s'.records = Function.update t j r →
      (s.records i).Leaves (t i) → (t j).Leaves r → (s.records i).Leaves (s'.records i) := by
    intro t j r hrec ht hr
    rw [hrec]
    by_cases hij : i = j
    · subst hij
      rw [Function.update_self]
      exact ht.trans hr
    · rw [Function.update_of_ne hij]
      exact ht
  have hcreate : ∀ {id : DeviceId} {s₁ : Sys} {j : Ix}, s.findOrCreate id = some (s₁, j) →
      (s.records i).Leaves (s₁.records i) := by
    intro id s₁ j hfc
    rcases Sys.findOrCreate_cases hfc with ⟨rfl, -⟩ | ⟨-, -, rfl⟩
    · exact .refl _
    · show (s.records i).Leaves (Function.update s.records j (.fresh id) i)
      by_cases hij : i = j
      · subst hij
        rw [Function.update_self]
        exact .of_none rfl rfl
      · rw [Function.update_of_ne hij]
        exact .refl _
  -- a frame for another record
  have hother : ∀ {id : DeviceId} {msg : Message} {rest : List Event} {ok : Bool} {j : Ix} {r},
      l = .worker ok → s.worker = .idle → s.queue = .notify id msg :: rest →
        s.find id = some j → s'.records = Function.update s.records j r →
          (s.records i).Leaves (s'.records i) := by
    intro id msg rest ok j r hl hworker hqueue hfind hrec
    subst hl
    simp only [frame, hworker, hqueue, hfind] at hf
    have hij : i ≠ j := by
      rintro rfl
      simp at hf
    rw [hrec, Function.update_of_ne hij]
    exact .refl _
  cases Sys.step_change hs with
  | same records | refused call missing records | orphaned worker queue missing records
  | failedGone worker missing records =>
      rw [records]
      exact .refl _
  | reserved found idle ne records =>
      exact hupdate records (hcreate found) (.same rfl)
  | rolledBack call found records | marked found records =>
      exact hupdate records (.refl _) (.same rfl)
  | abandoned found records =>
      exact hupdate records (.refl _)
        ((Record.leaves_clearStaging _).trans (.same rfl))
  | cleared call found records => exact hupdate records (.refl _) (.of_none rfl rfl)
  | dropped worker queue found running owns records =>
      exact hupdate records (.refl _) (Record.leaves_disconnectRunning _)
  | unqueued worker queue found queued records =>
      exact hupdate records (.refl _) (Record.leaves_disconnectQueued _)
  | finished worker queue found active device operation records =>
      exact hupdate records (.refl _) (Record.leaves_complete _ _ _)
  | stored worker queue found verdict records => exact hother rfl worker queue found records
  | broken worker queue found verdict records => exact hother rfl worker queue found records
  | committed worker queue found active records => exact hother rfl worker queue found records
  | failed worker found records => exact hupdate records (.refl _) (Record.leaves_resetError _)
  | waits worker found active records =>
      exact hupdate records (hcreate found) (.same rfl)
  | started worker found free records =>
      exact hupdate records (hcreate found) ⟨fun h => ⟨h, rfl, rfl⟩, fun h => by cases h⟩

/-- **One step.** -/
theorem Record.Kept.step (h : (s.records i).Kept d) (hs : s.step l = some s') :
    (s'.records i).Kept (d.next s i l) := by
  unfold Declared.next
  cases hf : s.frame i l with
  | none => exact h.leaves (Sys.step_leaves hs hf)
  | some frame =>
      obtain ⟨id, msg⟩ := frame
      rw [Sys.step_frame hs hf]
      dsimp only
      cases hv : handleMessage id msg (s.records i) with
      | ignored => exact h
      | stored r' => exact h.stored hv
      | rejected => exact h.leaves (Record.leaves_resetError _)
      | committed r' changed => exact h.ended hv

/-- **A run.** -/
theorem Record.Kept.run {ls : List Label} (h : (s.records i).Kept d)
    (hrun : machine.run s ls = some s') : (s'.records i).Kept (d.after i s ls) := by
  induction ls generalizing s d with
  | nil =>
      cases hrun
      exact h
  | cons l ls ih =>
      obtain ⟨s₁, hs, hrest⟩ := Option.bind_eq_some_iff.mp hrun
      have hstep : s.step l = some s₁ := hs
      rw [Declared.after, hstep]
      exact ih (h.step hstep) hrest

end Runs

/-! ## Stored blobs -/

/-- The blob in the layout of version 3. -/
def Blob.persisted : Blob → Option Persisted
  | .v2 p => some p.migrate
  | .v3 p => some p
  | .incompatible => none

theorem Blob.load_eq (known : DeviceId → Bool) (b : Blob) :
    b.load known = b.persisted.bind fun p => p.load known := by
  cases b <;> rfl

namespace Persisted

variable {known : DeviceId → Bool} {p : Persisted} {snapshot : Snapshot}

/-- The totals that a blob declares. -/
def totals (p : Persisted) : Totals := (p.toolCount.toNat, p.featureCount.toNat)

/-- The stored commands and feature ids are distinct, and each writable tool index is `-1` or the
index of a stored tool with the type of the feature. The loader does not look at that. -/
structure Resolved (p : Persisted) : Prop where
  commands : (p.usedTools.map fun t => t.command.text).Nodup
  ids : (p.usedFeatures.map fun f => f.featureId.text).Nodup
  writable : ∀ f ∈ p.usedFeatures, f.writableToolIndex = -1 ∨ 0 ≤ f.writableToolIndex.toInt ∧
    ∃ t, p.usedTools[f.writableToolIndex.toInt.toNat]? = some t ∧ t.valueType = f.valueType

theorem copy_text {size : Nat} [NeZero size] {c : Chars size} (h : c.terminated = true) :
    c.copy.text = c.text :=
  strlcpy_text (by simpa [Chars.terminated] using h)

/-- Texts in terminated arrays are distinct when their copies are. -/
theorem nodup_copies {α : Type} {size : Nat} [NeZero size] {l : List α} {c : α → Chars size}
    (h : ∀ x ∈ l, (c x).terminated = true) :
    (l.map fun x => (c x).copy).Nodup ↔ (l.map fun x => (c x).text).Nodup := by
  have htext : (l.map fun x => (c x).text) = (l.map fun x => (c x).copy).map CharBuf.text := by
    rw [List.map_map]
    refine List.map_congr_left fun x hx => ?_
    exact (copy_text (h x hx)).symm
  rw [htext]
  exact (List.nodup_map_iff fun a b hab => CharBuf.ext hab).symm

/-- Each check of the loader is one of the stream too. -/
theorem load_checked (h : p.load known = some snapshot) :
    snapshot.Checked ∧ snapshot.totals = p.totals := by
  obtain ⟨htools, hfeatures, -, -, hvalid, hvalid', rfl⟩ := load_some h
  have htotal : p.usedTools.length = p.toolCount.toNat := by
    rw [usedTools, List.length_take, List.length_ofFn]
    exact Nat.min_eq_left htools
  have htotal' : p.usedFeatures.length = p.featureCount.toNat := by
    rw [usedFeatures, List.length_take, List.length_ofFn]
    exact Nat.min_eq_left hfeatures
  have hlen : p.snapshot.totals = p.totals := by
    show ((p.usedTools.map PersistedTool.tool).length,
      (p.usedFeatures.map PersistedFeature.feature).length) = _
    rw [List.length_map, List.length_map, htotal, htotal', totals]
  refine ⟨⟨?_, ?_, ?_, ?_⟩, hlen⟩
  · exact (congrArg Prod.fst hlen).trans_le htools
  · exact (congrArg Prod.snd hlen).trans_le hfeatures
  · intro t ht
    obtain ⟨stored, hmem, rfl⟩ := List.mem_map.mp ht
    have hv := hvalid stored hmem
    rw [PersistedTool.valid, Bool.and_eq_true] at hv
    exact hv.2
  · intro f hf
    obtain ⟨stored, hmem, rfl⟩ := List.mem_map.mp hf
    have hv := hvalid' stored hmem
    rw [PersistedFeature.valid, Bool.and_eq_true, Bool.and_eq_true] at hv
    exact hv.1.2

/-- What the loader does not check is passed on. -/
theorem load_resolved (h : p.load known = some snapshot) : snapshot.Resolved ↔ p.Resolved := by
  obtain ⟨-, -, -, -, hvalid, hvalid', rfl⟩ := load_some h
  have hcommands : (p.snapshot.tools.map Tool.command).Nodup ↔
      (p.usedTools.map fun t => t.command.text).Nodup := by
    have hmap : p.snapshot.tools.map Tool.command = p.usedTools.map fun t => t.command.copy := by
      show (p.usedTools.map PersistedTool.tool).map Tool.command = _
      rw [List.map_map]
      rfl
    rw [hmap]
    refine nodup_copies fun t ht => ?_
    have hv := hvalid t ht
    rw [PersistedTool.valid, Bool.and_eq_true] at hv
    exact hv.1
  have hids : (p.snapshot.features.map Feature.featureId).Nodup ↔
      (p.usedFeatures.map fun f => f.featureId.text).Nodup := by
    have hmap : p.snapshot.features.map Feature.featureId =
        p.usedFeatures.map fun f => f.featureId.copy := by
      show (p.usedFeatures.map PersistedFeature.feature).map Feature.featureId = _
      rw [List.map_map]
      rfl
    rw [hmap]
    refine nodup_copies fun f hf => ?_
    have hv := hvalid' f hf
    rw [PersistedFeature.valid, Bool.and_eq_true, Bool.and_eq_true] at hv
    exact hv.1.1
  have htool : ∀ f : PersistedFeature,
      (∃ t, toolAt p.snapshot.tools f.writableToolIndex = some t ∧ t.valueType = f.valueType) ↔
        0 ≤ f.writableToolIndex.toInt ∧
          ∃ t, p.usedTools[f.writableToolIndex.toInt.toNat]? = some t ∧
            t.valueType = f.valueType := by
    intro f
    have hat : toolAt p.snapshot.tools f.writableToolIndex =
        if 0 ≤ f.writableToolIndex.toInt then
          (p.usedTools[f.writableToolIndex.toInt.toNat]?).map PersistedTool.tool
        else none := by
      rw [← List.getElem?_map]
      rfl
    rw [hat]
    split
    · rename_i hle
      constructor
      · rintro ⟨t, ht, htype⟩
        obtain ⟨stored, hstored, rfl⟩ := Option.map_eq_some_iff.mp ht
        exact ⟨hle, stored, hstored, htype⟩
      · rintro ⟨-, stored, hstored, htype⟩
        exact ⟨stored.tool, by rw [hstored]; rfl, htype⟩
    · rename_i hle
      simp [hle]
  constructor
  · rintro ⟨h₁, h₂, h₃⟩
    refine ⟨hcommands.mp h₁, hids.mp h₂, fun f hf => ?_⟩
    rcases h₃ f.feature (List.mem_map_of_mem hf) with hnone | ht
    · exact .inl hnone
    · exact .inr ((htool f).mp ht)
  · rintro ⟨h₁, h₂, h₃⟩
    refine ⟨hcommands.mpr h₁, hids.mpr h₂, fun f hf => ?_⟩
    obtain ⟨stored, hmem, rfl⟩ := List.mem_map.mp hf
    rcases h₃ stored hmem with hnone | ht
    · exact .inl hnone
    · exact .inr ((htool stored).mpr ht)

end Persisted

/-- What is declared for a record at the start: the totals of the blob under its key. -/
def Declared.boot (nvs : Ix → Option Blob) (i : Ix) : Declared where
  stream := (0, 0)
  committed := (((nvs i).bind Blob.persisted).map Persisted.totals).getD (0, 0)

/-- **Committed snapshots are well formed.** After every run that starts with these blobs the
committed snapshot of a record is well formed and has the totals that were declared for it, exactly
if the blob under the key of the record is resolved, should the loader accept it. -/
theorem committed_wellFormed_iff (known : DeviceId → Bool) (nvs : Ix → Option Blob) (i : Ix) :
    (∀ ls s, machine.run (boot known nvs) ls = some s → (s.records i).hasCommitted = true →
      (s.records i).committed.WellFormed ∧ (s.records i).committed.totals =
        ((Declared.boot nvs i).after i (boot known nvs) ls).committed) ↔
      ∀ b p, nvs i = some b → b.persisted = some p → (p.load known).isSome = true → p.Resolved := by
  constructor
  · intro h b p hb hp hload
    obtain ⟨snapshot, hsnapshot⟩ := Option.isSome_iff_exists.mp hload
    have hrec : (boot known nvs).records i = .loaded snapshot := by
      show loadPersisted known nvs i = _
      rw [loadPersisted, hb, Option.bind_some, Blob.load_eq, hp, Option.bind_some, hsnapshot]
    -- the loaded snapshot is there before the first step
    have hwf := h [] (boot known nvs) rfl (by rw [hrec]; rfl)
    rw [hrec] at hwf
    have hloaded : snapshot.WellFormed := hwf.1.congr rfl rfl
    exact (Persisted.load_resolved hsnapshot).mp hloaded.resolved
  · intro h ls s hrun hcommitted
    have hboot : ((boot known nvs).records i).Kept (.boot nvs i) := by
      show (loadPersisted known nvs i).Kept _
      unfold loadPersisted
      cases hload : (nvs i).bind (Blob.load known) with
      | none =>
          refine ⟨fun hc => ?_, fun ha => ?_⟩
          · cases hc
          · cases ha
      | some snapshot =>
          obtain ⟨b, hb, hbload⟩ := Option.bind_eq_some_iff.mp hload
          rw [Blob.load_eq] at hbload
          obtain ⟨p, hp, hpload⟩ := Option.bind_eq_some_iff.mp hbload
          obtain ⟨hchecked, htotals⟩ := Persisted.load_checked hpload
          have hresolved := h b p hb hp (by rw [hpload]; rfl)
          have hwf : snapshot.WellFormed :=
            ⟨hchecked, (Persisted.load_resolved hpload).mpr hresolved⟩
          refine ⟨fun _ => ⟨hwf.congr rfl rfl, ?_⟩, fun ha => by cases ha⟩
          show snapshot.totals = _
          rw [htotals, Declared.boot, hb, Option.bind_some, hp]
          rfl
    exact (hboot.run hrun).committed hcommitted

/-- A stored schema whose only feature names the tool at index `5`; there are no tools. -/
def danglingBlob : Persisted :=
  { toolCount := 0
    featureCount := 1
    deviceId := chars lamp
    revision := 1
    tools := fun _ => ⟨fun _ => 0, fun _ => 0, fun _ => 0, 0, 0, 0, 0, 0⟩
    features := fun _ => ⟨fun i => if i.val = 0 then 97 else 0, fun _ => 0, fun _ => 0, 2, 1, 0, 8,
      VALUE_TYPE_INT, 0, 5⟩
    settingsState := 1
    settingsSchemaRevision := 0 }

/-- The loader accepts a feature whose writable tool does not exist. -/
theorem committed_dangling : ¬ ∀ (known : DeviceId → Bool) (nvs : Ix → Option Blob) (i : Ix)
    (ls : List Label) (s : Sys), machine.run (boot known nvs) ls = some s →
      (s.records i).hasCommitted = true →
        (s.records i).committed.WellFormed ∧ (s.records i).committed.totals =
          ((Declared.boot nvs i).after i (boot known nvs) ls).committed := by
  intro h
  have hwf := h (· = lamp) (fun _ => some (.v3 danglingBlob)) first [] _ rfl (by decide)
  have hbad :
      ((boot (· = lamp) fun _ => some (.v3 danglingBlob)).records first).committed.features.all
      (fun f => f.writableToolIndex = -1 || (toolAt ((boot (· = lamp) fun _ =>
        some (.v3 danglingBlob)).records first).committed.tools f.writableToolIndex).isSome) =
          false := by decide
  rw [List.all_eq_false] at hbad
  obtain ⟨f, hf, hbad⟩ := hbad
  rcases hwf.1.resolved.writable f hf with hnone | ⟨t, ht, -⟩
  · simp [hnone] at hbad
  · simp [ht] at hbad

end BleGateway.DeviceSchema
