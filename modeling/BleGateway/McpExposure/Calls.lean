import BleGateway.McpExposure.Controls

/-! # What the calls write

Every record that a call leaves in the table was there before, or the call has written it:
`ApiCall.Writes` says what it writes.
-/

namespace BleGateway.McpExposure

open DeviceSchema

variable {δ : Type} [DecidableEq δ]

/-- The record allows what it covers. -/
def Record.Live (r : Record δ) : Prop := r.state = .enabled ∧ r.userDisabled = false

/-- The record that the call puts into the table. -/
inductive ApiCall.Writes (b : Build δ) (x : Exposure δ) : ApiCall → Record δ → Prop
  | enable {d : DeviceId} {c : CommandName} {confirm : Bool} {s : Snapshot} {tool : Tool} {i : Nat}
      {r : Record δ} : x.capability d = some s →
      (s.tools.find? fun tool => tool.command = c) = some tool → x.table.find d c = some i →
      x.table[i]? = some r → r.state ≠ .enabled →
      Writes b x (.enable d c confirm)
        { r with state := .enabled, reason := .none, digest := b.digest tool }
  | enableNew {d : DeviceId} {c : CommandName} {confirm : Bool} {s : Snapshot} {tool : Tool} :
      x.capability d = some s → (s.tools.find? fun tool => tool.command = c) = some tool →
      x.table.find d c = none →
      Writes b x (.enable d c confirm) { deviceId := d, command := c, digest := b.digest tool }
  | expose {d : DeviceId} {f : FeatureId} {c : CommandName} {tool : Tool} {i : Nat}
      {r : Record δ} : x.table.findByFeature d f = some i → x.table[i]? = some r →
      Writes b x (.exposeFeature d f c tool)
        (if r.state = .enabled then { r with featureBound := true, digest := b.digest tool }
        else
          { r with
            state := .enabled
            reason := .none
            featureBound := true
            digest := b.digest tool })
  | exposeNew {d : DeviceId} {f : FeatureId} {c : CommandName} {tool : Tool} :
      x.table.findByFeature d f = none →
      Writes b x (.exposeFeature d f c tool)
        { deviceId := d
          command := c
          featureBound := true
          featureId := f
          digest := b.digest tool }
  | setFeature {d : DeviceId} {f : FeatureId} {enabled : Bool} {i : Nat} {r : Record δ} :
      x.table.findByFeature d f = some i → x.table[i]? = some r →
      Writes b x (.setFeatureEnabled d f enabled) { r with userDisabled := !enabled }

section Calls

variable {b : Build δ} {x : Exposure δ} {d : DeviceId} {f : FeatureId} {tool : Tool}
  {c : ApiCall} {saved : Bool} {r' : Record δ}

/-- **What the policy allows, a record grants.** -/
theorem check_allow (h : x.check b d f tool = .allow) :
    ∃ r ∈ x.table, r.Live ∧ r.deviceId = d ∧ r.featureId = f ∧ f.text ≠ [] ∧
      b.digest tool = r.digest := by
  obtain ⟨-, -, ⟨r, hr, hacc⟩, -⟩ := checkFeatureControl_allow_iff.mp h
  obtain ⟨hmem, hd, hf, hne⟩ := Table.getFeature_spec hr
  simp only [Record.accepts, Bool.and_eq_true, Bool.not_eq_true', decide_eq_true_eq] at hacc
  exact ⟨r, hmem, ⟨hacc.2.2.1, hacc.1⟩, hd, hf, hne, hacc.2.2.2⟩

omit [DecidableEq δ] in
theorem Table.find_spec {t : Table δ} {command : CommandName} {i : Nat} {r : Record δ}
    (h : t.find d command = some i) (hr : t[i]? = some r) :
    r.deviceId = d ∧ r.command = command := by
  obtain ⟨hlt, hkey, -⟩ := List.findIdx?_eq_some_iff_getElem.mp h
  obtain ⟨hlt', rfl⟩ := List.getElem?_eq_some_iff.mp hr
  simpa using hkey

omit [DecidableEq δ] in
/-- A record of a table in which one record was changed. -/
theorem mem_modify {t : Table δ} {i : Nat} {g : Record δ → Record δ} (h : r' ∈ t.modify i g) :
    r' ∈ t ∨ ∃ r, t[i]? = some r ∧ r' = g r := by
  obtain ⟨j, hj⟩ := List.mem_iff_getElem?.mp h
  by_cases hij : i = j
  · subst hij
    rw [List.getElem?_modify_eq] at hj
    obtain ⟨r, hr, rfl⟩ := Option.map_eq_some_iff.mp hj
    exact .inr ⟨r, hr, rfl⟩
  · rw [List.getElem?_modify_ne _ _ hij] at hj
    exact .inl (List.mem_of_getElem? hj)

omit [DecidableEq δ] in
theorem persistSave_table (x : Exposure δ) (saved : Bool) :
    (x.persistSave saved).table = x.table ∧ (x.persistSave saved).stored = x.stored ∧
      (x.persistSave saved).schema = x.schema := by
  unfold Exposure.persistSave
  split <;> exact ⟨rfl, rfl, rfl⟩

omit [DecidableEq δ] in
/-- **What a call leaves.** -/
theorem mem_apply (h : r' ∈ (x.apply b c saved).2.table) : r' ∈ x.table ∨ c.Writes b x r' := by
  cases c with
  | enable d command confirm =>
      simp only [Exposure.apply, Exposure.enable] at h
      split at h
      · exact .inl h
      · split at h
        · exact .inl h
        · rename_i s hcap
          split at h
          · exact .inl h
          · split at h
            · exact .inl h
            · rename_i tool htool
              split at h
              · exact .inl h
              · split at h
                · exact .inl h
                · split at h
                  · rename_i i hi
                    split at h
                    · exact .inl h
                    · rename_i hne
                      split at h
                      · rw [(persistSave_table _ _).1] at h
                        rcases mem_modify h with hmem | ⟨r, hr, rfl⟩
                        · exact .inl hmem
                        · refine .inr (.enable hcap htool hi hr fun he => hne ?_)
                          simp [hr, he]
                      · rw [(persistSave_table _ _).1] at h
                        exact .inl h
                  · rename_i hnone
                    split at h
                    · exact .inl h
                    · split at h
                      · rw [(persistSave_table _ _).1] at h
                        rcases List.mem_append.mp h with hmem | hmem
                        · exact .inl hmem
                        · rw [List.mem_singleton.mp hmem]
                          exact .inr (.enableNew hcap htool hnone)
                      · rw [(persistSave_table _ _).1] at h
                        exact .inl h
  | disable d command =>
      simp only [Exposure.apply, Exposure.disable, (persistSave_table _ _).1] at h
      split at h
      · exact .inl (List.mem_of_mem_eraseIdx h)
      · exact .inl h
  | exposeFeature d f command tool =>
      simp only [Exposure.apply, Exposure.exposeFeature] at h
      split at h
      · rename_i i hi
        rw [(persistSave_table _ _).1] at h
        rcases mem_modify h with hmem | ⟨r, hr, rfl⟩
        · exact .inl hmem
        · exact .inr (.expose hi hr)
      · rename_i hnone
        split at h
        · exact .inl h
        · rw [(persistSave_table _ _).1] at h
          rcases List.mem_append.mp h with hmem | hmem
          · exact .inl hmem
          · rw [List.mem_singleton.mp hmem]
            exact .inr (.exposeNew hnone)
  | unbindFeature d f =>
      simp only [Exposure.apply, Exposure.unbindFeature] at h
      split at h
      · rw [(persistSave_table _ _).1] at h
        exact .inl (List.mem_of_mem_eraseIdx h)
      · exact .inl h
  | setFeatureEnabled d f enabled =>
      simp only [Exposure.apply, Exposure.setFeatureEnabled, Table.findIdx?_feature] at h
      split at h
      · rename_i i hi
        rw [(persistSave_table _ _).1] at h
        rcases mem_modify h with hmem | ⟨r, hr, rfl⟩
        · exact .inl hmem
        · exact .inr (.setFeature hi hr)
      · exact .inl h

omit [DecidableEq δ] in
/-- A call leaves everything, or ends in a save. -/
theorem apply_saves (b : Build δ) (x : Exposure δ) (c : ApiCall) (saved : Bool) :
    (x.apply b c saved).2 = x ∨
      ∃ t sv, (x.apply b c saved).2 = { x with table := t }.persistSave sv := by
  cases c with
  | enable d command confirm =>
      simp only [Exposure.apply, Exposure.enable]
      repeat' split
      all_goals first
        | exact .inl rfl
        | exact .inr ⟨_, true, rfl⟩
        | exact .inr ⟨x.table, false, rfl⟩
  | disable d command => exact .inr ⟨_, _, rfl⟩
  | exposeFeature d f command tool =>
      simp only [Exposure.apply, Exposure.exposeFeature]
      repeat' split
      all_goals first | exact .inl rfl | exact .inr ⟨_, _, rfl⟩
  | unbindFeature d f =>
      simp only [Exposure.apply, Exposure.unbindFeature]
      split
      · exact .inr ⟨_, _, rfl⟩
      · exact .inl rfl
  | setFeatureEnabled d f enabled =>
      simp only [Exposure.apply, Exposure.setFeatureEnabled]
      split
      · exact .inr ⟨_, _, rfl⟩
      · exact .inl rfl

end Calls

end BleGateway.McpExposure
