import BleGateway.McpExposure.Revocation

/-! # A changed tool is not allowed without a review

Control of a feature is granted by an enabled record with the digest of its writable tool. A tool
with another digest is denied from then on, as long as no call enables or exposes the feature, no
reconciliation creates a record for it, and no restart brings another one back.
-/

namespace BleGateway.McpExposure

open DeviceSchema

variable {δ : Type} [DecidableEq δ]

/-! ## Grants -/

/-- The record of the feature is enabled for a tool of another digest. -/
def Record.OtherGrant (d : DeviceId) (f : FeatureId) (digest : δ) (r : Record δ) : Prop :=
  r.state = .enabled ∧ (f.text ≠ [] ∧ r.deviceId = d ∧ r.featureId = f) ∧ r.digest ≠ digest

/-- Control of the feature is granted for the tool, and no other record that is left is enabled
for another one. -/
structure Exposure.GrantedFor (b : Build δ) (x : Exposure δ) (d : DeviceId) (f : FeatureId)
    (tool : Tool) : Prop where
  allowed : x.check b d f tool = .allow
  sole : x.Without (Record.OtherGrant d f (b.digest tool))

/-- The call enables or exposes the feature. -/
inductive ApiCall.Reviews (x : Exposure δ) (d : DeviceId) (f : FeatureId) : ApiCall → Prop
  | enable {command : CommandName} {confirm : Bool} {i : Nat} {r : Record δ} :
      x.table.find d command = some i → x.table[i]? = some r → r.featureId = f →
      Reviews x d f (.enable d command confirm)
  | expose {command : CommandName} {tool : Tool} : Reviews x d f (.exposeFeature d f command tool)

/-- The step is such a call. -/
def Exposure.ReviewedIn (x : Exposure δ) (d : DeviceId) (f : FeatureId) : Label → Prop
  | .call c _ => c.Reviews x d f
  | _ => False

/-- No reconciliation creates a record of the feature for a tool of another digest, and no restart
drops a pending save or migrates such a record to the feature. -/
def Exposure.Remembers (b : Build δ) (x : Exposure δ) (d : DeviceId) (f : FeatureId) (digest : δ) :
    Label → Prop
  | .worker _ => ∀ queue s feature tool, x.queue = .capCommitted d :: queue →
      x.capability d = some s → Table.Creates b d s x.table feature tool →
        feature.featureId = f → b.digest tool = digest
  | .restart _ => x.dirty = false ∧ ∀ r ∈ x.nvs.getD [],
      (r.migrate (x.capability r.deviceId)).OtherGrant d f digest → r.OtherGrant d f digest
  | _ => True

section Reviewing

variable {b : Build δ} {x y z : Exposure δ} {d : DeviceId} {f : FeatureId} {digest : δ}
  {c : ApiCall} {l : Label} {r r' : Record δ}

omit [DecidableEq δ] in
theorem Record.Demotes.otherGrant (h : r.Demotes r') (ho : r'.OtherGrant d f digest) :
    r.OtherGrant d f digest := by
  obtain ⟨he, hof, hne⟩ := ho
  obtain ⟨he', hdig⟩ := h.enabled he
  rw [h.deviceId, h.featureId] at hof
  rw [hdig] at hne
  exact ⟨he', hof, hne⟩

omit [DecidableEq δ] in
/-- A call that writes such a record is a review, or the record was there before. -/
theorem reviews_of_writes (hw : c.Writes b x r') (ho : r'.OtherGrant d f digest) :
    c.Reviews x d f ∨ ∃ r ∈ x.table, r.OtherGrant d f digest := by
  cases hw with
  | enable hcap htool hi hr hstate =>
      obtain ⟨-, ⟨-, hd, hfeature⟩, -⟩ := ho
      obtain rfl := (Table.find_spec hi hr).1.symm.trans hd
      exact .inl (.enable hi hr hfeature)
  | enableNew hcap htool hnone =>
      obtain ⟨-, ⟨hnamed, -, rfl⟩, -⟩ := ho
      exact absurd rfl hnamed
  | expose hi hr =>
      obtain ⟨rfl, rfl⟩ := Table.findByFeature_record hi hr
      split at ho <;>
        · obtain ⟨-, ⟨-, rfl, rfl⟩, -⟩ := ho
          exact .inl .expose
  | exposeNew hnone =>
      obtain ⟨-, ⟨-, rfl, rfl⟩, -⟩ := ho
      exact .inl .expose
  | setFeature hi hr => exact .inr ⟨_, List.mem_of_getElem? hr, ho⟩

omit [DecidableEq δ] in
theorem Exposure.Without.spares (h : x.Without (Record.OtherGrant d f digest))
    (hl : ¬x.ReviewedIn d f l) (hok : x.Remembers b d f digest l) :
    x.Spares b (Record.OtherGrant d f digest) l := by
  cases l with
  | call c saved =>
      intro r hw ho
      rcases reviews_of_writes hw ho with hc | ⟨r, hr, ho⟩
      · exact hl hc
      · exact h.table r hr ho
  | worker saved =>
      rintro d' queue s feature tool hq hcap hc ⟨-, ⟨-, hd, hf⟩, hne⟩
      obtain rfl : d' = d := hd
      exact hne (hok queue s feature tool hq hcap hc hf)
  | restart loaded => exact hok
  | _ => trivial

end Reviewing

/-- **A changed tool needs a review.** -/
theorem change_needs_review (b : Build δ) (d : DeviceId) (f : FeatureId) (tool : Tool)
    (y z : Exposure δ) (hgrant : y.GrantedFor b d f tool)
    (hrun : (machine b).Continues
      (fun u l => ¬u.ReviewedIn d f l ∧ u.Remembers b d f (b.digest tool) l)
      (fun _ _ => True) y z) :
    ∀ tool', b.digest tool' ≠ b.digest tool → z.check b d f tool' ≠ .allow := by
  have hinv : z.Without (Record.OtherGrant d f (b.digest tool)) := by
    induction hrun with
    | refl => exact hgrant.sole
    | step _ hl hs _ ih => exact ih.step (fun _ _ hd => hd.otherGrant) (ih.spares hl.1 hl.2) hs
  intro tool' hne hallow
  obtain ⟨r, hr, hlive, hd, hf, hnamed, hdig⟩ := check_allow hallow
  exact hinv.table r hr ⟨hlive.1, ⟨hnamed, hd, hf⟩, hdig ▸ hne⟩

/-! ## A relay whose command is renamed -/

instance (d : DeviceId) (f : FeatureId) (digest : δ) (r : Record δ) :
    Decidable (r.OtherGrant d f digest) :=
  inferInstanceAs (Decidable (_ ∧ _))

def toggleTool : Tool := { switchTool with command := strlcpy _ (cstr "toggle") }

def toggleSchema : Snapshot := { relaySchema with tools := [toggleTool] }

/-- The first reconciliation has exposed the relay, and the queue is empty. -/
def exposedRelay : Exposure (List UInt8) := { shownExposure with queue := [] }

/-- A schema of the relay is committed, and the worker reconciles it. -/
def recommit (x : Exposure (List UInt8)) (s : Snapshot) : Exposure (List UInt8) :=
  Exposure.processEvent plain
    { x with schema := Function.update x.schema relayId (some s), queue := [] } true
    (.capCommitted relayId)

theorem change_needs_review_relay :
    ((recommit exposedRelay toggleSchema).restart plain true).check plain relayId relay0
      toggleTool ≠ .allow := by
  refine change_needs_review plain relayId relay0 switchTool exposedRelay _
    ⟨by decide, by decide, fun _ => by decide⟩ ?_ toggleTool (by decide)
  refine .step (.step (.step .refl (l := .commit relayId toggleSchema) ⟨fun h => h, trivial⟩ rfl
    trivial) (l := .worker true) ⟨fun h => h, ?_⟩ rfl trivial) (l := .restart true)
    ⟨fun h => h, rfl, by decide⟩ rfl trivial
  intro queue s feature tool _ _ hc hf
  have hnone := hc.none
  rw [hf] at hnone
  exact absurd hnone (by decide)

/-- The relay is left out of a schema and comes back with the new command. -/
theorem change_absorbed : ¬ ∀ (d : DeviceId) (f : FeatureId) (tool : Tool)
    (y z : Exposure (List UInt8)), (machine plain).Reachable y → y.check plain d f tool = .allow →
      (machine plain).Continues (fun u l => ¬u.ReviewedIn d f l) (fun _ _ => True) y z →
        ∀ tool', plain.digest tool' ≠ plain.digest tool → z.check plain d f tool' ≠ .allow := by
  intro h
  refine h relayId relay0 switchTool exposedRelay
    (recommit (recommit exposedRelay { relaySchema with features := [] }) toggleSchema)
    shown_reachable (by decide) ?_ toggleTool (by decide) (by decide)
  exact .step (.step (.step (.step .refl (l := .commit relayId { relaySchema with features := [] })
    (fun h => h) rfl trivial) (l := .worker true) (fun h => h) rfl trivial)
    (l := .commit relayId toggleSchema) (fun h => h) rfl trivial) (l := .worker true)
    (fun h => h) rfl trivial

end BleGateway.McpExposure
