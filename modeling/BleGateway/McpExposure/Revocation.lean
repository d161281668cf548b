import BleGateway.McpExposure.Calls
import BleGateway.McpExposure.Origin

/-! # Revoked controls stay denied

A feature or a command is revoked by a call that succeeds. From then on no record that is left, in
the table or in NVS, grants it, as long as it is not enabled by a call, no reconciliation creates a
record for it, and no restart comes while a save is pending.
-/

namespace BleGateway.McpExposure

open DeviceSchema

variable {δ : Type} [DecidableEq δ]

/-! ## Targets -/

/-- What can be revoked. -/
inductive Target
  | feature (d : DeviceId) (f : FeatureId)
  | command (d : DeviceId) (command : CommandName)
  deriving DecidableEq

/-- The calls that revoke a target. -/
inductive Target.RevokedBy : Target → ApiCall → Prop
  | setFeature (d : DeviceId) (f : FeatureId) :
      RevokedBy (.feature d f) (.setFeatureEnabled d f false)
  | unbind (d : DeviceId) (f : FeatureId) : RevokedBy (.feature d f) (.unbindFeature d f)
  | disable (d : DeviceId) (command : CommandName) :
      RevokedBy (.command d command) (.disable d command)

/-- The policy allows the control of the target with no tool of it. -/
def Target.Denied (b : Build δ) (x : Exposure δ) : Target → Prop
  | .feature d f => ∀ tool, x.check b d f tool ≠ .allow
  | .command d c => ∀ f tool, tool.command = c → x.check b d f tool ≠ .allow

/-- The digest is that of a tool with the command. -/
def Build.IsOf (b : Build δ) (command : CommandName) (digest : δ) : Prop :=
  ∃ tool : Tool, tool.command = command ∧ b.digest tool = digest

/-- The record is one of the target's. -/
def Target.Covers (b : Build δ) (r : Record δ) : Target → Prop
  | .feature d f => f.text ≠ [] ∧ r.deviceId = d ∧ r.featureId = f
  | .command d c => r.deviceId = d ∧ b.IsOf c r.digest

/-- The record grants the control of the target. -/
def Target.GrantedBy (b : Build δ) (X : Target) (r : Record δ) : Prop := r.Live ∧ X.Covers b r

/-! ## Calls that enable a target -/

/-- The call enables, for the target, the record that it finds or makes. -/
inductive Target.EnabledBy (b : Build δ) (x : Exposure δ) : Target → ApiCall → Prop
  | enableFeature {d : DeviceId} {command : CommandName} {confirm : Bool} {i : Nat}
      {r : Record δ} : x.table.find d command = some i → x.table[i]? = some r →
      EnabledBy b x (.feature d r.featureId) (.enable d command confirm)
  | enableCommand {d : DeviceId} {command c : CommandName} {confirm : Bool} {s : Snapshot}
      {tool : Tool} : x.capability d = some s →
      (s.tools.find? fun tool => tool.command = c) = some tool → b.IsOf command (b.digest tool) →
      EnabledBy b x (.command d command) (.enable d c confirm)
  | exposeFeature {d : DeviceId} {f : FeatureId} {c : CommandName} {tool : Tool} :
      EnabledBy b x (.feature d f) (.exposeFeature d f c tool)
  | exposeCommand {d : DeviceId} {f : FeatureId} {command c : CommandName} {tool : Tool} :
      b.IsOf command (b.digest tool) →
        EnabledBy b x (.command d command) (.exposeFeature d f c tool)
  | setFeature {d : DeviceId} {f : FeatureId} :
      EnabledBy b x (.feature d f) (.setFeatureEnabled d f true)
  | setCommand {d : DeviceId} {f : FeatureId} {command : CommandName} {r : Record δ} :
      x.table.getFeature d f = some r → b.IsOf command r.digest →
      EnabledBy b x (.command d command) (.setFeatureEnabled d f true)

/-- The step is such a call. -/
def Target.EnabledIn (b : Build δ) (X : Target) (x : Exposure δ) : Label → Prop
  | .call c _ => X.EnabledBy b x c
  | _ => False

/-! ## When a revocation persists -/

/-- The place of the record that a revoking call removes or disables. -/
def ApiCall.touched (x : Exposure δ) : ApiCall → Option Nat
  | .disable d command => x.table.find d command
  | .unbindFeature d f | .setFeatureEnabled d f _ => x.table.findByFeature d f
  | _ => none

/-- No record but the one that the call touches grants the target. -/
def Target.Sole (b : Build δ) (X : Target) (x : Exposure δ) (c : ApiCall) : Prop :=
  ∀ (i : Nat) (r : Record δ), x.table[i]? = some r → X.GrantedBy b r → c.touched x = some i

/-- The step creates no record of the target, and it is not a restart with a save pending or with
a stored record that only the migration makes one of the target's. -/
def Target.Undisturbed (b : Build δ) (X : Target) (x : Exposure δ) : Label → Prop
  | .worker _ => ∀ d queue s feature tool, x.queue = .capCommitted d :: queue →
      x.capability d = some s → Table.Creates b d s x.table feature tool →
        ¬X.Covers b (.semantic b d feature.featureId tool)
  | .restart _ => x.dirty = false ∧ ∀ r ∈ x.nvs.getD [], r.Live →
      X.Covers b (r.migrate (x.capability r.deviceId)) → X.Covers b r
  | _ => True

/-! ## Records that grant -/

section Granting

variable {b : Build δ} {x y z : Exposure δ} {d : DeviceId} {f : FeatureId} {tool : Tool}
  {X : Target} {c : ApiCall} {saved : Bool} {r r' : Record δ}

/-- A target that no record of the table grants is denied. -/
theorem denied_of_not_granted (h : ∀ r ∈ x.table, ¬X.GrantedBy b r) : X.Denied b x := by
  cases X with
  | feature d f =>
      intro tool hallow
      obtain ⟨r, hr, hlive, hd, hf, hne, -⟩ := check_allow hallow
      exact h r hr ⟨hlive, hne, hd, hf⟩
  | command d c =>
      intro f tool hc hallow
      obtain ⟨r, hr, hlive, hd, -, -, hdig⟩ := check_allow hallow
      exact h r hr ⟨hlive, hd, tool, hc, hdig⟩

omit [DecidableEq δ] in
/-- A demoted record grants nothing new. -/
theorem Record.Demotes.grantedBy (h : r.Demotes r') (hg : X.GrantedBy b r') : X.GrantedBy b r := by
  obtain ⟨⟨he, hu⟩, hc⟩ := hg
  obtain ⟨he', hdig⟩ := h.enabled he
  refine ⟨⟨he', h.userDisabled ▸ hu⟩, ?_⟩
  cases X with
  | feature d f => rwa [Target.Covers, h.deviceId, h.featureId] at hc
  | command d c => rwa [Target.Covers, h.deviceId, hdig] at hc

omit [DecidableEq δ] in
/-- A call that writes a record that grants the target enables it. -/
theorem Target.enabledBy_of_writes (hw : c.Writes b x r') (hg : X.GrantedBy b r') :
    X.EnabledBy b x c := by
  obtain ⟨⟨he, hu⟩, hcov⟩ := hg
  cases hw with
  | enable hcap htool hi hr hne =>
      rename_i d c confirm s tool i r
      obtain ⟨hd, -⟩ := Table.find_spec hi hr
      subst hd
      cases X with
      | feature d f =>
          obtain ⟨-, rfl, rfl⟩ := hcov
          exact .enableFeature (r := r) hi hr
      | command d c =>
          obtain ⟨rfl, hof⟩ := hcov
          exact .enableCommand hcap htool hof
  | enableNew hcap htool hnone =>
      cases X with
      | feature d f => exact absurd (hcov.2.2 ▸ rfl) hcov.1
      | command d c =>
          obtain ⟨rfl, hof⟩ := hcov
          exact .enableCommand hcap htool hof
  | expose hi hr =>
      obtain ⟨hd, hf⟩ := Table.findByFeature_record hi hr
      cases X with
      | feature d f =>
          split at hcov <;>
            · obtain ⟨-, rfl, rfl⟩ := hcov
              rw [← hd, ← hf]
              exact .exposeFeature
      | command d c =>
          split at hcov <;>
            · obtain ⟨rfl, hof⟩ := hcov
              rw [← hd]
              exact .exposeCommand hof
  | exposeNew hnone =>
      cases X with
      | feature d f =>
          obtain ⟨-, rfl, rfl⟩ := hcov
          exact .exposeFeature
      | command d c =>
          obtain ⟨rfl, hof⟩ := hcov
          exact .exposeCommand hof
  | setFeature hi hr =>
      rename_i d f enabled i r
      -- the record of a target is live only after it is enabled
      have henabled : enabled = true := by simpa using hu
      subst henabled
      obtain ⟨rfl, rfl⟩ := Table.findByFeature_record hi hr
      cases X with
      | feature d f =>
          obtain ⟨-, rfl, rfl⟩ := hcov
          exact .setFeature
      | command d c =>
          obtain ⟨rfl, hof⟩ := hcov
          exact .setCommand (Table.getFeature_of_find hi hr) hof

/-! ## Runs -/

/-- No record of the kind is in the table nor, unless a save is pending, in NVS. -/
structure Exposure.Without (P : Record δ → Prop) (x : Exposure δ) : Prop where
  table : ∀ r ∈ x.table, ¬P r
  nvs : x.dirty = false → ∀ r ∈ x.nvs.getD [], ¬P r

/-- The step brings no record of the kind: no call writes one, no reconciliation creates one, and
no restart drops a pending save or migrates a record to one. -/
def Exposure.Spares (b : Build δ) (P : Record δ → Prop) (x : Exposure δ) : Label → Prop
  | .call c _ => ∀ r, c.Writes b x r → ¬P r
  | .worker _ => ∀ d queue s feature tool, x.queue = .capCommitted d :: queue →
      x.capability d = some s → Table.Creates b d s x.table feature tool →
        ¬P (.semantic b d feature.featureId tool)
  | .restart _ => x.dirty = false ∧
      ∀ r ∈ x.nvs.getD [], P (r.migrate (x.capability r.deviceId)) → P r
  | _ => True

section Without

variable {P : Record δ → Prop}

omit [DecidableEq δ] in
/-- A new table is saved, or the save is pending. -/
theorem Exposure.without_persistSave {t : Table δ} (h : ∀ r ∈ t, ¬P r) :
    ({ x with table := t }.persistSave saved).Without P := by
  unfold Exposure.persistSave
  cases saved with
  | true => exact ⟨h, fun _ => h⟩
  | false => exact ⟨h, fun hdirty => by cases hdirty⟩

omit [DecidableEq δ] in
/-- A change of the other parts. -/
theorem Exposure.Without.congr (h : x.Without P) (htable : y.table = x.table)
    (hnvs : y.nvs = x.nvs) (hdirty : y.dirty = false → x.dirty = false) : y.Without P :=
  ⟨by rw [htable]; exact h.table, fun hd => by rw [hnvs]; exact h.nvs (hdirty hd)⟩

omit [DecidableEq δ] in
theorem post_spec (x : Exposure δ) (e : Event) : (x.post e).table = x.table ∧
    (x.post e).nvs = x.nvs ∧ (x.post e).dirty = x.dirty ∧ (x.post e).stored = x.stored ∧
      (x.post e).schema = x.schema := by
  unfold Exposure.post
  split <;> exact ⟨rfl, rfl, rfl, rfl, rfl⟩

omit [DecidableEq δ] in
theorem Exposure.Without.post (h : x.Without P) (e : Event) : (x.post e).Without P := by
  obtain ⟨htable, hnvs, hdirty, -⟩ := post_spec x e
  exact h.congr htable hnvs fun hd => hdirty ▸ hd

omit [DecidableEq δ] in
theorem Exposure.Without.apply (h : x.Without P) (hc : ∀ r, c.Writes b x r → ¬P r) :
    (x.apply b c saved).2.Without P := by
  have htable : ∀ r ∈ (x.apply b c saved).2.table, ¬P r := by
    intro r hr
    rcases mem_apply hr with hmem | hw
    · exact h.table r hmem
    · exact hc r hw
  refine ⟨htable, fun hdirty => ?_⟩
  -- a call that ends in a save has put its table into NVS, or left the save pending
  rcases apply_saves b x c saved with heq | ⟨t, sv, heq⟩
  · rw [heq] at hdirty ⊢
    exact h.nvs hdirty
  · rw [heq] at htable hdirty ⊢
    rw [(persistSave_table _ _).1] at htable
    exact (Exposure.without_persistSave htable).nvs hdirty

theorem Exposure.Without.reconcile (h : x.Without P)
    (hP : ∀ r r' : Record δ, r.Demotes r' → P r' → P r) {d : DeviceId}
    (hcreate : ∀ s feature tool, x.capability d = some s →
      Table.Creates b d s x.table feature tool → ¬P (.semantic b d feature.featureId tool)) :
    ∀ r ∈ x.table.reconcile b (x.capability d) d, ¬P r := by
  intro r' hr' hg
  rcases Table.reconcile_origin hr' with ⟨r, hr, hdem⟩ | ⟨s, hcap, feature, tool, hc, hdem⟩
  · exact h.table r hr (hP _ _ hdem hg)
  · exact hcreate s feature tool hcap hc (hP _ _ hdem hg)

theorem Exposure.Without.restart {loaded : Bool} (h : x.Without P)
    (hP : ∀ r r' : Record δ, r.Demotes r' → P r' → P r)
    (hok : x.Spares b P (.restart loaded)) : (x.restart b loaded).Without P := by
  obtain ⟨hdirty, hmigrate⟩ := hok
  refine ⟨fun r' hr' hg => ?_, fun _ => h.nvs hdirty⟩
  obtain ⟨r, hr, rfl⟩ := List.mem_map.mp hr'
  have hstored : r ∈ x.nvs.getD [] := by
    split at hr
    · exact List.mem_of_mem_take hr
    · cases hr
  exact h.nvs hdirty r hstored (hmigrate r hstored (hP _ _ (Record.demotes_boot b _ _ _) hg))

/-- **One step.** A kind of records that no demotion adds to stays away. -/
theorem Exposure.Without.step {l : Label} (h : x.Without P)
    (hP : ∀ r r' : Record δ, r.Demotes r' → P r' → P r) (hl : x.Spares b P l)
    (hs : x.step b l = some y) : y.Without P := by
  cases l with
  | commit d s =>
      cases hs
      refine Exposure.Without.post ?_ _
      exact h.congr rfl rfl fun hd => hd
  | setSchema | setStored =>
      cases hs
      exact h.congr rfl rfl fun hd => hd
  | reconcileAsync d =>
      cases hs
      exact h.post _
  | forgetDevice d =>
      cases hs
      unfold Exposure.forgetDevice
      split
      · exact h.post _
      · exact h.congr rfl rfl fun hd => hd
  | forgetStep k =>
      simp only [Exposure.step, Exposure.forgetStep] at hs
      split at hs
      · cases hs
        exact h.congr rfl rfl fun hd => by cases hd
      · cases hs
        refine Exposure.Without.post ?_ _
        exact h.congr rfl rfl fun hd => hd
      · cases hs
  | call c saved =>
      cases hs
      exact h.apply hl
  | worker saved =>
      simp only [Exposure.step] at hs
      split at hs
      · rename_i e queue hq
        cases hs
        cases e with
        | capCommitted d =>
            exact Exposure.without_persistSave (h.reconcile hP fun s feature tool hcap hc =>
              hl d queue s feature tool hq hcap hc)
        | deviceRevoke d =>
            exact Exposure.without_persistSave fun r hr => h.table r (List.mem_of_mem_filter hr)
        | dirtyRetry =>
            show Exposure.Without P (if x.dirty then _ else _)
            split
            · exact Exposure.without_persistSave (x := { x with queue := queue }) h.table
            · exact h.congr rfl rfl fun hd => hd
      · cases hs
  | restart loaded =>
      cases hs
      exact h.restart hP hl

end Without

/-- No record grants the target. -/
def Target.Revoked (b : Build δ) (X : Target) (x : Exposure δ) : Prop := x.Without (X.GrantedBy b)

omit [DecidableEq δ] in
/-- A step that neither enables nor disturbs the target brings no record that grants it. -/
theorem Target.spares {l : Label} (hl : ¬X.EnabledIn b x l) (hok : X.Undisturbed b x l) :
    x.Spares b (X.GrantedBy b) l := by
  cases l with
  | call c saved =>
      intro r hw hg
      exact hl (Target.enabledBy_of_writes hw hg)
  | worker saved =>
      intro d queue s feature tool hq hcap hc hg
      exact hok d queue s feature tool hq hcap hc hg.2
  | restart loaded =>
      refine ⟨hok.1, fun r hr hg => ?_⟩
      have hlive : r.Live := by
        obtain ⟨⟨he, hu⟩, -⟩ := hg
        rw [r.migrate_eq] at he hu
        exact ⟨he, hu⟩
      exact ⟨hlive, hok.2 r hr hlive hg.2⟩
  | _ => trivial

omit [DecidableEq δ] in
/-- A call that succeeds revokes its target, if no other record grants it. -/
theorem Target.RevokedBy.revoked (hrev : X.RevokedBy c) (hok : x.apply b c saved = (.ok, y))
    (hsole : X.Sole b x c) : X.Revoked b y := by
  -- a record at another place than the one that is touched grants nothing
  have hother : ∀ (i j : Nat) (r : Record δ), c.touched x = some i → j ≠ i →
      x.table[j]? = some r → ¬X.GrantedBy b r := by
    intro i j r hi hj hr hg
    exact hj (Option.some.inj ((hsole j r hr hg).symm.trans hi))
  cases hrev with
  | setFeature d f =>
      simp only [Exposure.apply, Exposure.setFeatureEnabled, Table.findIdx?_feature] at hok
      split at hok
      · rename_i i hi
        obtain ⟨-, rfl⟩ := Prod.mk.inj hok
        refine Exposure.without_persistSave fun r' hr' hg => ?_
        obtain ⟨j, hj⟩ := List.mem_iff_getElem?.mp hr'
        by_cases hji : j = i
        · subst hji
          rw [List.getElem?_modify_eq] at hj
          obtain ⟨r, -, rfl⟩ := Option.map_eq_some_iff.mp hj
          exact absurd hg.1.2 (by simp)
        · rw [List.getElem?_modify_ne _ _ (Ne.symm hji)] at hj
          exact hother i j r' hi hji hj hg
      · cases hok
  | unbind d f =>
      simp only [Exposure.apply, Exposure.unbindFeature] at hok
      split at hok
      · rename_i i hi
        obtain ⟨-, rfl⟩ := Prod.mk.inj hok
        refine Exposure.without_persistSave fun r hr hg => ?_
        obtain ⟨j, hji, hj⟩ := List.mem_eraseIdx_iff_getElem?.mp hr
        exact hother i j r hi hji hj hg
      · cases hok
  | disable d command =>
      obtain ⟨-, rfl⟩ := Prod.mk.inj hok
      refine Exposure.without_persistSave fun r hr hg => ?_
      split at hr
      · rename_i i hi
        obtain ⟨j, hji, hj⟩ := List.mem_eraseIdx_iff_getElem?.mp hr
        exact hother i j r hi hji hj hg
      · rename_i hnone
        obtain ⟨j, hj⟩ := List.mem_iff_getElem?.mp hr
        exact absurd ((hsole j r hj hg).symm.trans hnone) (by simp)

end Granting

/-- **When a revocation persists.** The target is denied in every state that is reached without a
call that enables it, if no other record granted it when it was revoked, no reconciliation creates
a record for it, and no restart comes while a save is pending or migrates a live record to it. -/
theorem revocation_persists (b : Build δ) (X : Target) (c : ApiCall) (saved : Bool)
    (x y z : Exposure δ) (hrev : X.RevokedBy c) (hok : x.apply b c saved = (.ok, y))
    (hsole : X.Sole b x c)
    (hrun : (machine b).Continues (fun u l => ¬X.EnabledIn b u l ∧ X.Undisturbed b u l)
      (fun _ _ => True) y z) : X.Denied b z := by
  have hinv : X.Revoked b z := by
    induction hrun with
    | refl => exact hrev.revoked hok hsole
    | step _ hl hs _ ih =>
        exact ih.step (fun _ _ hd => hd.grantedBy) (Target.spares hl.1 hl.2) hs
  exact denied_of_not_granted hinv.table

/-- The gateway has started with the relay in the device store, and nothing in NVS. -/
def bareExposure : Exposure (List UInt8) :=
  Exposure.restart plain { schema := fun _ => some relaySchema, stored := fun _ => true } true

/-- The first reconciliation has exposed the relay. -/
def shownExposure : Exposure (List UInt8) :=
  (bareExposure.post (.capCommitted relayId)).processEvent plain true (.capCommitted relayId)

theorem shown_reachable : (machine plain).Reachable { shownExposure with queue := [] } := by
  have hbare : (machine plain).Reachable bareExposure := .init ⟨_, true, rfl⟩
  have hposted := hbare.step (l := .reconcileAsync relayId) rfl
  exact hposted.step (l := .worker true) rfl

/-- The relay is disabled by the user, reconciled once more, and the gateway restarts. -/
def disabledRelay : Exposure (List UInt8) :=
  ({ shownExposure with queue := [] }.apply plain (.setFeatureEnabled relayId relay0 false) true).2

theorem revocation_persists_relay : (Target.feature relayId relay0).Denied plain
    (({ (disabledRelay.post (.capCommitted relayId)) with queue := [] }.processEvent plain true
      (.capCommitted relayId)).restart plain true) := by
  refine revocation_persists plain (.feature relayId relay0)
    (.setFeatureEnabled relayId relay0 false)
    true { shownExposure with queue := [] } disabledRelay _ (.setFeature relayId relay0) rfl ?_ ?_
  · intro i r hr _
    have hone : i < 1 := (List.getElem?_eq_some_iff.mp hr).1
    obtain rfl : i = 0 := by omega
    show Table.findByFeature _ relayId relay0 = some 0
    decide
  · refine .step (.step (.step .refl (l := .reconcileAsync relayId) ⟨fun h => h, trivial⟩ rfl
      trivial) (l := .worker true) ⟨fun h => h, ?_⟩ rfl trivial) (l := .restart true)
      ⟨fun h => h, rfl, ?_⟩ rfl trivial
    · intro d queue s feature tool _ _ hc hcov
      obtain ⟨-, hd, hf⟩ := hcov
      have hnone := hc.none
      rw [show d = relayId from hd, show feature.featureId = relay0 from hf] at hnone
      revert hnone
      decide
    · intro r hr _ hcov
      have hnew : ∀ r ∈ (Exposure.nvs
          ({ (disabledRelay.post (.capCommitted relayId)) with queue := [] }.processEvent plain true
            (.capCommitted relayId))).getD [], MCP_EXP_NAMING_VERSION ≤ r.namingVersion := by
        decide
      unfold Record.migrate at hcov
      rwa [if_pos (hnew r hr)] at hcov

/-- The record of the relay is removed by `mcp_tool_unbind_feature`. -/
def unboundRelay : Exposure (List UInt8) :=
  ({ shownExposure with queue := [] }.apply plain (.unbindFeature relayId relay0) true).2

/-- A feature that was unbound is exposed again by the next reconciliation. -/
theorem revocation_undone : ¬ ∀ (X : Target) (c : ApiCall) (saved : Bool)
    (x y z : Exposure (List UInt8)), (machine plain).Reachable x → X.RevokedBy c →
      x.apply plain c saved = (.ok, y) →
        (machine plain).Continues (fun u l => ¬X.EnabledIn plain u l) (fun _ _ => True) y z →
          X.Denied plain z := by
  intro h
  have hdenied := h (.feature relayId relay0) (.unbindFeature relayId relay0) true _ unboundRelay
    (({ (unboundRelay.post (.capCommitted relayId)) with queue := [] }.processEvent plain true
      (.capCommitted relayId))) shown_reachable (.unbind relayId relay0) rfl
    (.step (.step .refl (l := .reconcileAsync relayId) (fun h => h) rfl trivial)
      (l := .worker true) (fun h => h) rfl trivial)
  exact hdenied switchTool (by decide)

end BleGateway.McpExposure
