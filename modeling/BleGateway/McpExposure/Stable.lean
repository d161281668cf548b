import BleGateway.McpExposure.Calls
import BleGateway.McpExposure.Origin
import BleGateway.Lib.Places

/-! # A grant under reconciliations and restarts

The record that a call has enabled is followed through reconciliations of its device with the same
schema and restarts with the table saved. The first loop of a reconciliation compares its digest
with the tool of its command, the second one with the tools of the features whose record it is, and
a restart may give it, or a record in front of it, another feature.
-/

namespace BleGateway.McpExposure

open DeviceSchema

/-- What happens to the table without a new grant. -/
inductive Upkeep
  | reconcile (saved : Bool)
  | reboot
  deriving DecidableEq

variable {δ : Type}

/-- The table after the first loop of `boot_reconcile`. -/
def Exposure.migrated (x : Exposure δ) : Table δ :=
  x.table.map fun r => r.migrate (x.capability r.deviceId)

variable [DecidableEq δ]

namespace Exposure

variable (b : Build δ) (x : Exposure δ) (d : DeviceId)

def upkeep : Upkeep → Exposure δ
  | .reconcile saved => x.processEvent b saved (.capCommitted d)
  | .reboot => (x.persistSave true).restart b true

/-- The new place of the record at `i`, if it is not removed. -/
def follow (i : Nat) : Upkeep → Option Nat
  | .reconcile _ =>
      let bound := x.table.bound b (x.capability d) d
      if bound[i]?.any (·.stays (x.capability d) d) then
        some (Places.place (·.stays (x.capability d) d) bound i)
      else none
  | .reboot => some i

end Exposure

/-- The exposures together with the place of the record that is followed. -/
def upkeepMachine (b : Build δ) (d : DeviceId) : Machine (Exposure δ × Nat) Upkeep where
  init _ := True
  step z u := (z.1.follow b d z.2 u).map fun j => (z.1.upkeep b d u, j)

/-! ## Grants -/

/-- A call that grants the control of a feature, or a command. -/
inductive Grant
  | feature (feature : Feature)
  | command (command : CommandName) (confirmDestructive : Bool)
  deriving DecidableEq

namespace Grant

variable (b : Build δ) (x : Exposure δ) (d : DeviceId)

/-- The tool of the schema that is granted. -/
def tool (s : Snapshot) : Grant → Option Tool
  | .feature g => if g ∈ s.features then toolAt s.tools g.writableToolIndex else none
  | .command c _ => s.tools.find? fun tool => tool.command = c

/-- The call. -/
def call (tool : Tool) (saved : Bool) : Grant → EspErr × Exposure δ
  | .feature g => x.exposeFeature b d g.featureId tool.command tool saved
  | .command c confirmDestructive => x.enable b d c confirmDestructive saved

/-- The place of the record that the call enables. -/
def place : Grant → Nat
  | .feature g => (x.table.findByFeature d g.featureId).getD x.table.length
  | .command c _ => (x.table.find d c).getD x.table.length

/-- `mcp_tool_exposure_enable` finds the command enabled, though with the digest of another tool. -/
def stale (tool : Tool) : Grant → Bool
  | .feature _ => false
  | .command c _ =>
      ((x.table.find d c).bind fun i => x.table[i]?).any fun r =>
        r.state = .enabled && b.digest tool ≠ r.digest

end Grant

/-! ## What is kept, and when -/

/-- The record is enabled with the digest of the tool, and the controls that it allowed after the
grant `y` are still allowed, and their hints advertised. -/
structure StillGranted (b : Build δ) (d : DeviceId) (tool : Tool) (y z : Exposure δ × Nat) :
    Prop where
  enabled : ∃ r, z.1.table[z.2]? = some r ∧ r.state = .enabled ∧ r.digest = b.digest tool
  controls : ∀ f, y.1.table.findByFeature d f = some y.2 → z.1.table.findByFeature d f = some z.2
  allowed : ∀ f tool', y.1.table.findByFeature d f = some y.2 → y.1.check b d f tool' = .allow →
    z.1.check b d f tool' = .allow
  hinted : ∀ s feature hint, y.1.capability d = some s →
    y.1.table.findByFeature d feature.featureId = some y.2 →
      buildControlHint b y.1.table d s feature = some hint →
        z.1.capability d = some s ∧ buildControlHint b z.1.table d s feature = some hint

/-- The schema has the digest of the record for the record's command and for every feature whose
record it is, and the feature of the record, if it has one. -/
structure Table.Agrees (b : Build δ) (d : DeviceId) (s : Snapshot) (t : Table δ) (i : Nat)
    (r : Record δ) : Prop where
  command : r.Accepted b s
  feature : ∀ feature ∈ s.features, ∀ tool, semanticTool s feature = some tool →
    t.findByFeature d feature.featureId = some i → b.digest tool = r.digest
  stays : r.stays (some s) d = true

/-- The step leaves the record alone. A restart must also leave it the record of the features that
it controlled after the grant `y`. -/
def Spares (b : Build δ) (d : DeviceId) (s : Snapshot) (y z : Exposure δ × Nat) : Upkeep → Prop
  | .reconcile _ => ∃ r, z.1.table[z.2]? = some r ∧ z.1.table.Agrees b d s z.2 r
  | .reboot => (∃ r, z.1.table[z.2]? = some r ∧ r.Accepted b s) ∧
      ∀ f, y.1.table.findByFeature d f = some y.2 → z.1.migrated.findByFeature d f = some z.2

/-! ## Following the record -/

/-- What no step changes, whether it spares the record or not. -/
structure Follows (b : Build δ) (d : DeviceId) (tool : Tool) (y z : Exposure δ × Nat) : Prop where
  length : z.1.table.length ≤ b.recordMax
  stored : z.1.stored = y.1.stored
  schema : z.1.schema = y.1.schema
  record : ∃ r₀ r, y.1.table[y.2]? = some r₀ ∧ z.1.table[z.2]? = some r ∧
    r₀.digest = b.digest tool ∧ r.deviceId = d ∧ r.userDisabled = r₀.userDisabled ∧
      (r₀.featureBound = true → r.featureBound = true)

section Steps

variable {b : Build δ} {d : DeviceId} {tool : Tool} {y z z' : Exposure δ × Nat} {s : Snapshot}

omit [DecidableEq δ] in
theorem Follows.capability (h : Follows b d tool y z) : z.1.capability = y.1.capability := by
  funext d
  rw [Exposure.capability, Exposure.capability, h.stored, h.schema]

/-- For a record that is followed, the policy and the hints come with the other two parts. -/
theorem Follows.stillGranted_iff (h : Follows b d tool y z) : StillGranted b d tool y z ↔
    (∃ r, z.1.table[z.2]? = some r ∧ r.state = .enabled ∧ r.digest = b.digest tool) ∧
      ∀ f, y.1.table.findByFeature d f = some y.2 →
        z.1.table.findByFeature d f = some z.2 := by
  refine ⟨fun hs => ⟨hs.enabled, hs.controls⟩, fun ⟨henabled, hcontrols⟩ => ?_⟩
  obtain ⟨r₀, r, hr₀, hr, hdig₀, -, huser, hbound⟩ := h.record
  obtain ⟨r₁, hr₁, hstate, hdig⟩ := henabled
  cases hr.symm.trans hr₁
  have hacc : ∀ tool', r₀.accepts b tool' = true → r.accepts b tool' = true := by
    intro tool' hacc
    simp only [Record.accepts, Bool.and_eq_true, Bool.not_eq_true', decide_eq_true_eq] at hacc ⊢
    obtain ⟨hu, hb, -, ht⟩ := hacc
    exact ⟨huser.trans hu, hbound hb, hstate, by rw [ht, hdig₀, hdig]⟩
  refine ⟨⟨r, hr, hstate, hdig⟩, hcontrols, fun f tool' hf hallow => ?_,
    fun s feature hint hcap hf hhint => ⟨by rw [h.capability, hcap], ?_⟩⟩
  · obtain ⟨hstored, hfeature, ⟨r', hr', hacc'⟩, hdestr⟩ :=
      checkFeatureControl_allow_iff.mp hallow
    cases (Table.getFeature_of_find hf hr₀).symm.trans hr'
    exact checkFeatureControl_allow_iff.mpr ⟨by rw [h.stored, hstored], by rwa [h.capability],
      ⟨r, Table.getFeature_of_find (hcontrols f hf) hr, hacc tool' hacc'⟩, hdestr⟩
  · exact buildControlHint_congr hhint (Table.getFeature_of_find hf hr₀)
      (Table.getFeature_of_find (hcontrols _ hf) hr) hacc

/-- Where a reconciliation puts the record. -/
theorem follow_reconcile {saved : Bool} {j : Nat} {r : Record δ}
    (hr : z.1.table[z.2]? = some r) (h : z.1.follow b d z.2 (.reconcile saved) = some j) :
    ∃ r', (z.1.table.bound b (z.1.capability d) d)[z.2]? = some r' ∧ r.Demotes r' ∧
      r.stays (z.1.capability d) d = true ∧
        (z.1.table.reconcile b (z.1.capability d) d)[j]? = some r' ∧
          ∀ f, z.1.table.findByFeature d f = some z.2 →
            (z.1.table.reconcile b (z.1.capability d) d).findByFeature d f = some j := by
  have hev := Table.evolves_bound b (z.1.capability d) d z.1.table
  obtain ⟨r', hr', hdem⟩ := hev.old _ r hr
  have hsame : r'.stays (z.1.capability d) d = r.stays (z.1.capability d) d := by
    simp only [Record.stays, Record.featureExists, hdem.deviceId, hdem.featureId]
  simp only [Exposure.follow, hr', Option.any_some] at h
  split at h
  · rename_i hstays
    cases h
    refine ⟨r', hr', hdem, hsame ▸ hstays, Places.getElem?_filter hr' hstays, fun f hf => ?_⟩
    have hlt : z.2 < z.1.table.length := (List.getElem?_eq_some_iff.mp hr).1
    have hbound := (hev.findByFeature hlt).mpr hf
    unfold Table.findByFeature at hbound ⊢
    split at hbound
    · cases hbound
    · rename_i hne
      rw [if_neg hne]
      exact Places.findIdx?_filter hbound fun a ha => by
        cases hr'.symm.trans ha
        exact hstays
  · cases h

/-- What a restart loads when the table was saved. -/
theorem reboot_table (hlen : z.1.table.length ≤ b.recordMax) :
    (z.1.upkeep b d .reboot).table =
      Table.bootReconcile b z.1.stored z.1.capability z.1.table := by
  show Table.bootReconcile b z.1.stored z.1.capability (z.1.table.take b.recordMax) = _
  rw [List.take_of_length_le hlen]

theorem Follows.step {u : Upkeep} (h : Follows b d tool y z)
    (hstep : (upkeepMachine b d).step z u = some z') : Follows b d tool y z' := by
  obtain ⟨r₀, r, hr₀, hr, hdig, hdev, huser, hbound⟩ := h.record
  obtain ⟨j, hj, rfl⟩ := Option.map_eq_some_iff.mp hstep
  cases u with
  | reconcile saved =>
      obtain ⟨r', -, hdem, -, hr', -⟩ := follow_reconcile hr hj
      obtain ⟨htable, hstored, hschema⟩ := persistSave_table
        { z.1 with table := z.1.table.reconcile b (z.1.capability d) d } saved
      refine ⟨?_, hstored.trans h.stored, hschema.trans h.schema, r₀, r', hr₀, ?_, hdig,
        hdem.deviceId.trans hdev, hdem.userDisabled.trans huser, fun hb => hdem.bound (hbound hb)⟩
      · show (Exposure.persistSave _ saved).table.length ≤ b.recordMax
        rw [htable]
        exact Nat.le_trans (List.length_filter_le _ _) (Table.length_bound h.length)
      · show (Exposure.persistSave _ saved).table[j]? = some r'
        rw [htable]
        exact hr'
  | reboot =>
      cases hj
      have hdem := (r.migrate (z.1.capability r.deviceId)).demotes_boot b
        (z.1.stored r.deviceId) (z.1.capability r.deviceId)
      refine ⟨?_, h.stored, h.schema, r₀, (r.migrate (z.1.capability r.deviceId)).boot b
        (z.1.stored r.deviceId) (z.1.capability r.deviceId), hr₀, ?_, hdig, ?_, ?_, fun hb => ?_⟩
      · rw [reboot_table h.length, Table.bootReconcile, List.length_map]
        exact h.length
      · rw [reboot_table h.length, Table.bootReconcile, List.getElem?_map, hr]
        rfl
      · rw [hdem.deviceId, congrArg Record.deviceId (r.migrate_eq _)]
        exact hdev
      · rw [hdem.userDisabled, congrArg Record.userDisabled (r.migrate_eq _)]
        exact huser
      · exact hdem.bound (r.migrate_bound _ (hbound hb))

/-- **One step.** The record stays granted exactly when the step spares it. -/
theorem Follows.step_iff {u : Upkeep} (hcap : y.1.capability d = some s)
    (h : Follows b d tool y z) (hs : StillGranted b d tool y z) :
    (∃ z', (upkeepMachine b d).step z u = some z' ∧ StillGranted b d tool y z') ↔
      Spares b d s y z u := by
  obtain ⟨r, hr, hstate, hdig⟩ := hs.enabled
  have hdev : r.deviceId = d := by
    obtain ⟨-, r₁, -, hr₁, -, hdev, -⟩ := h.record
    cases hr.symm.trans hr₁
    exact hdev
  have hcapz : z.1.capability d = some s := by rw [h.capability, hcap]
  cases u with
  | reconcile saved =>
      obtain ⟨r', hr', hdem⟩ :=
        (Table.evolves_bound b (z.1.capability d) d z.1.table).old _ r hr
      have henabled := Table.bound_enabled_iff hr hdev hr'
      have htable : ∀ j : Nat, (z.1.upkeep b d (.reconcile saved)).table[j]? =
          (z.1.table.reconcile b (z.1.capability d) d)[j]? := by
        intro j
        show (Exposure.persistSave _ saved).table[j]? = _
        rw [(persistSave_table _ saved).1]
      constructor
      · rintro ⟨z', hstep, hs'⟩
        obtain ⟨j, hj, rfl⟩ := Option.map_eq_some_iff.mp hstep
        obtain ⟨r₁, hr₁, -, hstays, hnew, -⟩ := follow_reconcile hr hj
        cases hr'.symm.trans hr₁
        obtain ⟨r₂, hr₂, hstate₂, -⟩ := hs'.enabled
        rw [htable] at hr₂
        cases hnew.symm.trans hr₂
        obtain ⟨-, s', hs', hacc, hfeature⟩ := henabled.mp hstate₂
        cases hcapz.symm.trans hs'
        exact ⟨r, hr, hacc, hfeature, hcapz ▸ hstays⟩
      · rintro ⟨r₁, hr₁, hagrees⟩
        cases hr.symm.trans hr₁
        have hstate' := henabled.mpr ⟨hstate, s, hcapz, hagrees.command, hagrees.feature⟩
        have hstays : r'.stays (z.1.capability d) d = true := by
          have := hagrees.stays
          rw [← hcapz] at this
          simpa only [Record.stays, Record.featureExists, hdem.deviceId, hdem.featureId] using this
        have hfollow : z.1.follow b d z.2 (.reconcile saved) =
            some (Places.place (·.stays (z.1.capability d) d)
              (z.1.table.bound b (z.1.capability d) d) z.2) := by
          simp [Exposure.follow, hr', hstays]
        have hstep : (upkeepMachine b d).step z (.reconcile saved) =
            some (z.1.upkeep b d (.reconcile saved), Places.place (·.stays (z.1.capability d) d)
              (z.1.table.bound b (z.1.capability d) d) z.2) := by
          show (z.1.follow b d z.2 (.reconcile saved)).map _ = _
          rw [hfollow]
          rfl
        obtain ⟨r₁, hr₁, -, -, hnew, hreads⟩ := follow_reconcile hr hfollow
        cases hr'.symm.trans hr₁
        refine ⟨_, hstep, (h.step hstep).stillGranted_iff.mpr
          ⟨⟨r', (htable _).trans hnew, hstate', ?_⟩, fun f hf => ?_⟩⟩
        · exact (hdem.enabled hstate').2.trans hdig
        · have := hreads f (hs.controls f hf)
          show (Exposure.persistSave _ saved).table.findByFeature d f = _
          rwa [(persistSave_table _ saved).1]
  | reboot =>
      have hstep : (upkeepMachine b d).step z .reboot = some (z.1.upkeep b d .reboot, z.2) := rfl
      have hf' := h.step hstep
      have hstored : z.1.stored d = true := by
        by_contra hne
        simp [Exposure.capability, hne] at hcapz
      have hboot := (reboot_table (b := b) (d := d) h.length).trans
        (Table.bootReconcile_eq b z.1.stored z.1.capability z.1.table)
      have hget : (z.1.upkeep b d .reboot).table[z.2]? =
          some ((r.migrate (some s)).boot b true (some s)) := by
        rw [hboot, List.getElem?_map, List.getElem?_map, hr]
        simp only [Option.map_some, Record.migrate_deviceId, hdev, hcapz, hstored]
      have hacc : (r.migrate (some s)).Accepted b s ↔ r.Accepted b s := by
        unfold Record.Accepted
        rw [congrArg Record.command (r.migrate_eq (some s)),
          congrArg Record.digest (r.migrate_eq (some s))]
      have hreads : ∀ f, (z.1.upkeep b d .reboot).table.findByFeature d f = some z.2 ↔
          z.1.migrated.findByFeature d f = some z.2 := by
        intro f
        have hev : Table.Evolves (fun _ => True) z.1.migrated
            (z.1.migrated.map fun r => r.boot b (z.1.stored r.deviceId)
              (z.1.capability r.deviceId)) :=
          .map fun r _ => r.demotes_boot b _ _
        rw [hboot]
        refine hev.findByFeature ?_
        rw [Exposure.migrated, List.length_map]
        exact (List.getElem?_eq_some_iff.mp hr).1
      have hdem := (r.migrate (some s)).demotes_boot b true (some s)
      constructor
      · rintro ⟨z', hz', hs'⟩
        cases hstep.symm.trans hz'
        obtain ⟨r₁, hr₁, hstate₁, -⟩ := hs'.enabled
        cases hget.symm.trans hr₁
        obtain ⟨-, -, s', hs'', hacc'⟩ := Record.boot_enabled_iff.mp hstate₁
        cases hs''
        exact ⟨⟨r, hr, hacc.mp hacc'⟩, fun f hf => (hreads f).mp (hs'.controls f hf)⟩
      · rintro ⟨⟨r₁, hr₁, hacc'⟩, hmigrated⟩
        cases hr.symm.trans hr₁
        have hstate' : ((r.migrate (some s)).boot b true (some s)).state = .enabled :=
          Record.boot_enabled_iff.mpr ⟨by rw [congrArg Record.state (r.migrate_eq _)]; exact hstate,
            rfl, s, rfl, hacc.mpr hacc'⟩
        refine ⟨_, hstep, hf'.stillGranted_iff.mpr ⟨⟨_, hget, hstate', ?_⟩,
          fun f hf => (hreads f).mpr (hmigrated f hf)⟩⟩
        rw [(hdem.enabled hstate').2, congrArg Record.digest (r.migrate_eq _)]
        exact hdig

end Steps

/-! ## The state after a grant -/

section Granting

variable {b : Build δ} {x y : Exposure δ} {d : DeviceId} {tool : Tool} {s : Snapshot} {g : Grant}
  {saved : Bool}

/-- What a successful call leaves of the record at its place. -/
structure Granted (b : Build δ) (d : DeviceId) (x y : Exposure δ) (i : Nat) (r : Record δ) :
    Prop where
  record : y.table[i]? = some r
  deviceId : r.deviceId = d
  enabled : r.state = .enabled
  length : y.table.length ≤ b.recordMax
  stored : y.stored = x.stored
  schema : y.schema = x.schema

omit [DecidableEq δ] in
theorem granted_persistSave {t : Table δ} {i : Nat} {r : Record δ} (hr : t[i]? = some r)
    (hdev : r.deviceId = d) (he : r.state = .enabled) (hlen : t.length ≤ b.recordMax) :
    Granted b d x ({ x with table := t }.persistSave saved) i r := by
  obtain ⟨htable, hstored, hschema⟩ := persistSave_table { x with table := t } saved
  exact ⟨by rw [htable, hr], hdev, he, by rw [htable]; exact hlen, hstored, hschema⟩

omit [DecidableEq δ] in
theorem granted_modify {h : Record δ → Record δ} {i : Nat} {r : Record δ}
    (hr : x.table[i]? = some r) (hdev : (h r).deviceId = d) (he : (h r).state = .enabled)
    (hlen : x.table.length ≤ b.recordMax) :
    Granted b d x ({ x with table := x.table.modify i h }.persistSave saved) i (h r) :=
  granted_persistSave (by rw [List.getElem?_modify_eq, hr]; rfl) hdev he
    (by rwa [List.length_modify])

omit [DecidableEq δ] in
theorem exposeFeature_granted {f : FeatureId} {command : CommandName}
    (hlen : x.table.length ≤ b.recordMax)
    (hok : x.exposeFeature b d f command tool saved = (.ok, y)) :
    ∃ r, Granted b d x y ((x.table.findByFeature d f).getD x.table.length) r ∧
      r.digest = b.digest tool := by
  unfold Exposure.exposeFeature at hok
  split at hok
  · rename_i i hi
    rw [hi, Option.getD_some]
    obtain ⟨-, ⟨r, hr, hdev, -⟩, -⟩ := Table.findByFeature_eq_some_iff.mp hi
    obtain ⟨-, rfl⟩ := Prod.mk.inj hok
    refine ⟨_, granted_modify hr ?_ ?_ hlen, ?_⟩
    all_goals split <;> first | exact hdev | assumption | rfl
  · rename_i hnone
    rw [hnone, Option.getD_none]
    split at hok
    · cases hok
    · obtain ⟨-, rfl⟩ := Prod.mk.inj hok
      refine ⟨_, granted_persistSave List.getElem?_concat_length rfl rfl ?_, rfl⟩
      rw [List.length_append, List.length_singleton]
      omega

theorem enable_granted {command : CommandName} {confirmDestructive : Bool}
    (hlen : x.table.length ≤ b.recordMax) (hcap : x.capability d = some s)
    (htool : (s.tools.find? fun tool => tool.command = command) = some tool)
    (hok : x.enable b d command confirmDestructive saved = (.ok, y)) :
    ∃ r, Granted b d x y ((x.table.find d command).getD x.table.length) r ∧
      (r.digest = b.digest tool ↔
        (Grant.command command confirmDestructive).stale b x d tool = false) := by
  unfold Exposure.enable at hok
  split at hok
  · cases hok
  · simp only [hcap, htool] at hok
    split at hok
    · cases hok
    · split at hok
      · cases hok
      · split at hok
        · cases hok
        · cases hi : x.table.find d command with
          | some i =>
              obtain ⟨hlt, hkey, -⟩ := List.findIdx?_eq_some_iff_getElem.mp hi
              simp only [Bool.and_eq_true, decide_eq_true_eq] at hkey
              simp only [hi, List.getElem?_eq_getElem hlt, Option.any_some] at hok
              split at hok
              · -- the command is enabled already, with whatever digest it has
                rename_i he
                cases hok
                refine ⟨x.table[i], ⟨List.getElem?_eq_getElem hlt, hkey.1, by simpa using he,
                  hlen, rfl, rfl⟩, ?_⟩
                simp only [decide_eq_true_eq] at he
                simp only [Grant.stale, hi, Option.bind_some, List.getElem?_eq_getElem hlt,
                  Option.any_some, he, decide_true, Bool.true_and]
                simpa using eq_comm
              · rename_i he
                split at hok
                · obtain ⟨-, rfl⟩ := Prod.mk.inj hok
                  refine ⟨_, granted_modify (List.getElem?_eq_getElem hlt) hkey.1 rfl hlen, ?_⟩
                  simp only [decide_eq_true_eq] at he
                  simp [Grant.stale, hi, List.getElem?_eq_getElem hlt, he]
                · cases hok
          | none =>
              simp only [hi] at hok
              split at hok
              · cases hok
              · split at hok
                · obtain ⟨-, rfl⟩ := Prod.mk.inj hok
                  refine ⟨_, granted_persistSave List.getElem?_concat_length rfl rfl ?_, ?_⟩
                  · rw [List.length_append, List.length_singleton]
                    omega
                  · simp [Grant.stale, hi]
                · cases hok

/-- **The record of a grant.** It is enabled, with the digest of the tool unless it had been enabled
before for another one. -/
theorem call_granted (hlen : x.table.length ≤ b.recordMax) (hcap : x.capability d = some s)
    (htool : g.tool s = some tool) (hok : g.call b x d tool saved = (.ok, y)) :
    ∃ r, Granted b d x y (g.place x d) r ∧
      (r.digest = b.digest tool ↔ g.stale b x d tool = false) := by
  cases g with
  | feature feature =>
      obtain ⟨r, hr, hdig⟩ := exposeFeature_granted hlen hok
      exact ⟨r, hr, by simp [hdig, Grant.stale]⟩
  | command command confirmDestructive => exact enable_granted hlen hcap htool hok

end Granting

/-- **When a grant is stable.** Through reconciliations with the schema of the grant and restarts,
the record stays enabled and the controls it allows stay allowed and advertised exactly when the
call did not find the command enabled for another tool, and every step spares the record. -/
theorem grant_stable_iff (b : Build δ) (x y : Exposure δ) (d : DeviceId) (s : Snapshot) (g : Grant)
    (tool : Tool) (saved : Bool) (us : List Upkeep) (hlen : x.table.length ≤ b.recordMax)
    (hcap : x.capability d = some s) (htool : g.tool s = some tool)
    (hok : g.call b x d tool saved = (.ok, y)) :
    (∀ vs, vs <+: us → ∃ z, (upkeepMachine b d).run (y, g.place x d) vs = some z ∧
      StillGranted b d tool (y, g.place x d) z) ↔
        g.stale b x d tool = false ∧ ∀ vs u z, vs ++ [u] <+: us →
          (upkeepMachine b d).run (y, g.place x d) vs = some z →
            Spares b d s (y, g.place x d) z u := by
  obtain ⟨r, hr, hstale⟩ := call_granted hlen hcap htool hok
  by_cases hst : g.stale b x d tool = false
  · have hdig := hstale.mpr hst
    have hfollows : Follows b d tool (y, g.place x d) (y, g.place x d) :=
      ⟨hr.length, rfl, rfl, r, r, hr.record, hr.record, hdig, hr.deviceId, rfl, fun h => h⟩
    have hstart : StillGranted b d tool (y, g.place x d) (y, g.place x d) :=
      hfollows.stillGranted_iff.mpr ⟨⟨r, hr.record, hr.enabled, hdig⟩, fun f hf => hf⟩
    have hcapy : y.capability d = some s := by
      rw [← hcap, Exposure.capability, Exposure.capability, hr.stored, hr.schema]
    rw [Machine.run_keeps_iff (fun _ _ _ h hstep => h.step hstep)
      (fun z u h hs => h.step_iff hcapy hs) hfollows us]
    exact ⟨fun ⟨_, h⟩ => ⟨hst, h⟩, fun ⟨_, h⟩ => ⟨hstart, h⟩⟩
  · refine ⟨fun h => ?_, fun ⟨h, _⟩ => absurd h hst⟩
    -- the record is granted for another tool from the beginning
    obtain ⟨z, hz, hs⟩ := h [] List.nil_prefix
    cases hz
    obtain ⟨r', hr', -, hdig⟩ := hs.enabled
    cases hr.record.symm.trans hr'
    exact absurd (hstale.mp hdig) hst

/-- A relay that has just been exposed, as it is before the call. -/
def relayExposure : Exposure (List UInt8) where
  schema _ := some relaySchema
  stored _ := true

/-- The call that exposes the relay. -/
def exposeRelay : EspErr × Exposure (List UInt8) :=
  (Grant.feature relayFeature).call plain relayExposure relayId switchTool true

theorem grant_stable_relay :
    (∀ vs, vs <+: [.reconcile true, .reboot] →
      ∃ z, (upkeepMachine plain relayId).run (exposeRelay.2, 0) vs = some z ∧
        StillGranted plain relayId switchTool (exposeRelay.2, 0) z) ↔
      (Grant.feature relayFeature).stale plain relayExposure relayId switchTool = false ∧
        ∀ vs u z, vs ++ [u] <+: [.reconcile true, .reboot] →
        (upkeepMachine plain relayId).run (exposeRelay.2, 0) vs = some z →
          Spares plain relayId relaySchema (exposeRelay.2, 0) z u :=
  grant_stable_iff plain relayExposure exposeRelay.2 relayId relaySchema (.feature relayFeature)
    switchTool true [.reconcile true, .reboot] (by decide) rfl (by decide) rfl

/-- The record of the relay from before its command was renamed. -/
def renamedExposure : Exposure (List UInt8) where
  table := [{ deviceId := relayId
              command := strlcpy _ (cstr "toggle")
              state := .needsReview
              reason := .capabilityChanged
              featureBound := true
              featureId := relay0
              digest := plain.digest switchTool }]
  schema _ := some relaySchema
  stored _ := true

/-- The call for the renamed relay. -/
def exposeRenamed : EspErr × Exposure (List UInt8) :=
  (Grant.feature relayFeature).call plain renamedExposure relayId switchTool true

/-- Exposing a feature does not put its new command into the record, so that the next
reconciliation takes the grant back. -/
theorem grant_lost : ¬ ∀ (x y : Exposure (List UInt8)) (d : DeviceId) (s : Snapshot) (g : Grant)
    (tool : Tool) (saved : Bool) (us : List Upkeep), x.table.length ≤ plain.recordMax →
      x.capability d = some s → g.tool s = some tool → g.call plain x d tool saved = (.ok, y) →
        ∀ vs, vs <+: us → ∃ z, (upkeepMachine plain d).run (y, g.place x d) vs = some z ∧
          StillGranted plain d tool (y, g.place x d) z := by
  intro h
  obtain ⟨z, hz, hs⟩ := h renamedExposure exposeRenamed.2 relayId relaySchema
    (.feature relayFeature) switchTool true [.reconcile true] (by decide) rfl (by decide)
    rfl [.reconcile true] List.prefix_rfl
  have hlost : ((upkeepMachine plain relayId).run
      (exposeRenamed.2, (Grant.feature relayFeature).place renamedExposure relayId)
      [.reconcile true]).all (fun z => z.1.table[z.2]?.all (·.state ≠ .enabled)) = true := by
    decide
  obtain ⟨r, hr, he, -⟩ := hs.enabled
  rw [hz, Option.all_some, hr, Option.all_some] at hlost
  simp [he] at hlost

end BleGateway.McpExposure
