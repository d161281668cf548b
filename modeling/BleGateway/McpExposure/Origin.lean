import BleGateway.McpExposure.Records

/-! # Where the records of a reconciled table come from

A reconciliation moves no record before its last loop: it changes the records in their places and
puts new ones behind them. What it does to a record is `Record.Demotes`; a new record is `Created`
for a feature of the schema that had none.
-/

namespace BleGateway.McpExposure

open DeviceSchema

variable {δ : Type}

/-! ## Demotion -/

/-- The second record is the first one with the same owner and flag of the user, and it is enabled
only if the first one is, with the same digest. -/
structure Record.Demotes (r r' : Record δ) : Prop where
  deviceId : r'.deviceId = r.deviceId
  featureId : r'.featureId = r.featureId
  userDisabled : r'.userDisabled = r.userDisabled
  bound : r.featureBound = true → r'.featureBound = true
  enabled : r'.state = .enabled → r.state = .enabled ∧ r'.digest = r.digest

namespace Record

variable {r r' r'' : Record δ}

theorem Demotes.refl (r : Record δ) : r.Demotes r where
  deviceId := rfl
  featureId := rfl
  userDisabled := rfl
  bound h := h
  enabled h := ⟨h, rfl⟩

theorem Demotes.trans (h : r.Demotes r') (h' : r'.Demotes r'') : r.Demotes r'' where
  deviceId := h'.deviceId.trans h.deviceId
  featureId := h'.featureId.trans h.featureId
  userDisabled := h'.userDisabled.trans h.userDisabled
  bound hb := h'.bound (h.bound hb)
  enabled he := by
    obtain ⟨he', hd'⟩ := h'.enabled he
    obtain ⟨he, hd⟩ := h.enabled he'
    exact ⟨he, hd'.trans hd⟩

theorem demotes_bind (r : Record δ) : r.Demotes { r with featureBound := true } where
  deviceId := rfl
  featureId := rfl
  userDisabled := rfl
  bound _ := rfl
  enabled h := ⟨h, rfl⟩

/-- A record that is not enabled afterwards may have lost its digest. -/
theorem demotes_of_not_enabled (hd : r'.deviceId = r.deviceId) (hf : r'.featureId = r.featureId)
    (hu : r'.userDisabled = r.userDisabled) (hb : r'.featureBound = r.featureBound)
    (he : r'.state ≠ .enabled) : r.Demotes r' where
  deviceId := hd
  featureId := hf
  userDisabled := hu
  bound h := hb.trans h
  enabled h := absurd h he

theorem demote_not_enabled {state : ExposureState} {reason : ExposureReason}
    (h : state ≠ .enabled) : (r.demote state reason).state ≠ .enabled := by
  unfold demote
  split <;> simp_all

theorem demotes_demote {state : ExposureState} {reason : ExposureReason} (h : state ≠ .enabled) :
    r.Demotes (r.demote state reason) := by
  unfold demote
  split
  · exact demotes_of_not_enabled rfl rfl rfl rfl h
  · exact .refl r

/-- The migration changes neither the grant nor its owner. -/
theorem migrate_eq (cap : Option Snapshot) (r : Record δ) : r.migrate cap =
    { r with
      featureId := (r.migrate cap).featureId
      namingVersion := (r.migrate cap).namingVersion
      featureBound := (r.migrate cap).featureBound } := by
  unfold migrate
  repeat' split
  all_goals rfl

@[simp] theorem migrate_deviceId (cap : Option Snapshot) (r : Record δ) :
    (r.migrate cap).deviceId = r.deviceId := by
  rw [migrate_eq]

theorem migrate_bound (cap : Option Snapshot) (r : Record δ) (h : r.featureBound = true) :
    (r.migrate cap).featureBound = true := by
  unfold migrate
  repeat' split
  all_goals first | exact h | rfl

end Record

/-! ## Places -/

namespace Table

variable {d : DeviceId} {f : FeatureId} {r : Record δ} {t t' t'' : Table δ} {i : Nat}

/-- The record is the one of a feature, in the sense of `find_persisted_by_feature`. -/
theorem findByFeature_eq_some_iff : t.findByFeature d f = some i ↔
    f.text ≠ [] ∧ (∃ r, t[i]? = some r ∧ r.deviceId = d ∧ r.featureId = f) ∧
      ∀ j r, j < i → t[j]? = some r → ¬(r.deviceId = d ∧ r.featureId = f) := by
  unfold findByFeature
  by_cases hf : f.text = []
  · simp [hf]
  · rw [if_neg hf, List.findIdx?_eq_some_iff_getElem]
    simp only [ne_eq, hf, not_false_eq_true, true_and, Bool.and_eq_true, decide_eq_true_eq]
    constructor
    · rintro ⟨hi, hp, hbefore⟩
      refine ⟨⟨t[i], List.getElem?_eq_getElem hi, hp⟩, fun j r hj hr => ?_⟩
      obtain ⟨hlt, rfl⟩ := List.getElem?_eq_some_iff.mp hr
      exact hbefore j hj
    · rintro ⟨⟨r, hr, hp⟩, hbefore⟩
      obtain ⟨hi, rfl⟩ := List.getElem?_eq_some_iff.mp hr
      exact ⟨hi, hp, fun j hj => hbefore j _ hj (List.getElem?_eq_getElem (Nat.lt_trans hj hi))⟩

theorem findByFeature_record (hfind : t.findByFeature d f = some i) (h : t[i]? = some r) :
    r.deviceId = d ∧ r.featureId = f := by
  obtain ⟨-, ⟨r₁, hr₁, hd, hid⟩, -⟩ := findByFeature_eq_some_iff.mp hfind
  obtain rfl := Option.some.inj (hr₁.symm.trans h)
  exact ⟨hd, hid⟩

theorem findByFeature_lt (hfind : t.findByFeature d f = some i) : i < t.length := by
  obtain ⟨-, ⟨r, hr, -⟩, -⟩ := findByFeature_eq_some_iff.mp hfind
  exact (List.getElem?_eq_some_iff.mp hr).1

theorem findByFeature_eq_none_iff : t.findByFeature d f = none ↔
    f.text = [] ∨ ∀ r ∈ t, ¬(r.deviceId = d ∧ r.featureId = f) := by
  unfold findByFeature
  by_cases hf : f.text = []
  · simp [hf]
  · rw [if_neg hf, List.findIdx?_eq_none_iff]
    simp [hf]

/-- The records keep their places, and each is demoted; those behind them are new, each for a
feature without a record in front of it. -/
structure Evolves (New : Record δ → Prop) (t t' : Table δ) : Prop where
  old : ∀ (i : Nat) (r : Record δ), t[i]? = some r → ∃ r', t'[i]? = some r' ∧ r.Demotes r'
  new : ∀ (i : Nat) (r' : Record δ), t'[i]? = some r' → t.length ≤ i → New r'
  fresh : ∀ (i j : Nat) (r r' : Record δ), t'[i]? = some r' → t.length ≤ i → j < i →
    t'[j]? = some r → ¬(r.deviceId = r'.deviceId ∧ r.featureId = r'.featureId)

variable {New : Record δ → Prop}

theorem Evolves.refl (New : Record δ → Prop) (t : Table δ) : Evolves New t t where
  old _ r h := ⟨r, h, .refl r⟩
  new i r h hi := by
    obtain ⟨hlt, -⟩ := List.getElem?_eq_some_iff.mp h
    omega
  fresh i j r r' h hi := by
    obtain ⟨hlt, -⟩ := List.getElem?_eq_some_iff.mp h
    omega

theorem Evolves.length_le (h : Evolves New t t') : t.length ≤ t'.length := by
  by_contra hlt
  obtain ⟨r', hr', -⟩ := h.old t'.length _ (List.getElem?_eq_getElem (by omega))
  exact absurd hr' (by simp)

theorem Evolves.trans (hnew : ∀ r r', New r → r.Demotes r' → New r') (h : Evolves New t t')
    (h' : Evolves New t' t'') : Evolves New t t'' where
  old i r hr := by
    obtain ⟨r', hr', hd⟩ := h.old i r hr
    obtain ⟨r'', hr'', hd'⟩ := h'.old i r' hr'
    exact ⟨r'', hr'', hd.trans hd'⟩
  new i r'' hr'' hi := by
    by_cases hlt : i < t'.length
    · obtain ⟨r₁, hr₁, hd⟩ := h'.old i _ (List.getElem?_eq_getElem hlt)
      cases hr₁.symm.trans hr''
      exact hnew _ _ (h.new i _ (List.getElem?_eq_getElem hlt) hi) hd
    · exact h'.new i r'' hr'' (by omega)
  fresh i j r r'' hr'' hi hj hr := by
    by_cases hlt : i < t'.length
    · obtain ⟨r₁, hr₁, hd⟩ := h'.old i _ (List.getElem?_eq_getElem hlt)
      cases hr₁.symm.trans hr''
      obtain ⟨r₂, hr₂, hd₂⟩ := h'.old j _ (List.getElem?_eq_getElem (by omega))
      cases hr₂.symm.trans hr
      rw [hd.deviceId, hd.featureId, hd₂.deviceId, hd₂.featureId]
      exact h.fresh i j _ _ (List.getElem?_eq_getElem hlt) hi hj
        (List.getElem?_eq_getElem (by omega))
    · exact h'.fresh i j r r'' hr'' (by omega) hj hr

theorem Evolves.map {g : Record δ → Record δ} (h : ∀ r ∈ t, r.Demotes (g r)) :
    Evolves New t (t.map g) where
  old i r hr := ⟨g r, by rw [List.getElem?_map, hr]; rfl, h r (List.mem_of_getElem? hr)⟩
  new i r' hr' hi := by
    obtain ⟨hlt, -⟩ := List.getElem?_eq_some_iff.mp hr'
    rw [List.length_map] at hlt
    omega
  fresh i j r r' hr' hi := by
    obtain ⟨hlt, -⟩ := List.getElem?_eq_some_iff.mp hr'
    rw [List.length_map] at hlt
    omega

theorem Evolves.modify {g : Record δ → Record δ} (h : ∀ r, t[i]? = some r → r.Demotes (g r)) :
    Evolves New t (t.modify i g) where
  old j r hr := by
    by_cases hij : i = j
    · subst hij
      exact ⟨g r, by rw [List.getElem?_modify_eq, hr]; rfl, h r hr⟩
    · exact ⟨r, by rw [List.getElem?_modify_ne _ _ hij, hr], .refl r⟩
  new j r' hr' hj := by
    obtain ⟨hlt, -⟩ := List.getElem?_eq_some_iff.mp hr'
    rw [List.length_modify] at hlt
    omega
  fresh j k r r' hr' hj := by
    obtain ⟨hlt, -⟩ := List.getElem?_eq_some_iff.mp hr'
    rw [List.length_modify] at hlt
    omega

theorem Evolves.append (h : New r)
    (hfresh : ∀ r' ∈ t, ¬(r'.deviceId = r.deviceId ∧ r'.featureId = r.featureId)) :
    Evolves New t (t ++ [r]) where
  old i r hr := by
    obtain ⟨hlt, -⟩ := List.getElem?_eq_some_iff.mp hr
    exact ⟨r, by rw [List.getElem?_append_left hlt, hr], .refl r⟩
  new i r' hr' hi := by
    rw [List.getElem?_append_right hi] at hr'
    have hr' := List.mem_of_getElem? hr'
    rw [List.mem_singleton.mp hr']
    exact h
  fresh i j r₁ r' hr' hi hj hr₁ := by
    obtain ⟨hlt, -⟩ := List.getElem?_eq_some_iff.mp hr'
    rw [List.length_append, List.length_singleton] at hlt
    rw [List.getElem?_append_right hi] at hr'
    rw [List.getElem?_append_left (by omega)] at hr₁
    rw [List.mem_singleton.mp (List.mem_of_getElem? hr')]
    exact hfresh r₁ (List.mem_of_getElem? hr₁)

/-- A feature keeps its record. -/
theorem Evolves.findByFeature (h : Evolves New t t') (hi : i < t.length) :
    t'.findByFeature d f = some i ↔ t.findByFeature d f = some i := by
  simp only [findByFeature_eq_some_iff]
  refine and_congr_right fun _ => and_congr ?_ ?_
  · obtain ⟨r', hr', hd⟩ := h.old i _ (List.getElem?_eq_getElem hi)
    simp [hr', List.getElem?_eq_getElem hi, hd.deviceId, hd.featureId]
  · refine forall_congr' fun j => ⟨fun hb r hj hr => ?_, fun hb r' hj hr' => ?_⟩
    · obtain ⟨r', hr', hd⟩ := h.old j r hr
      have := hb r' hj hr'
      rwa [hd.deviceId, hd.featureId] at this
    · have hlt : j < t.length := by omega
      obtain ⟨r₁, hr₁, hd⟩ := h.old j _ (List.getElem?_eq_getElem hlt)
      cases hr₁.symm.trans hr'
      rw [hd.deviceId, hd.featureId]
      exact hb _ hj (List.getElem?_eq_getElem hlt)

theorem Evolves.findByFeature_none (h : Evolves New t t') (hnone : t'.findByFeature d f = none) :
    t.findByFeature d f = none := by
  rw [findByFeature_eq_none_iff] at hnone ⊢
  refine hnone.imp_right fun hb r hr => ?_
  obtain ⟨i, hi⟩ := List.mem_iff_getElem?.mp hr
  obtain ⟨r', hr', hd⟩ := h.old i r hi
  have := hb r' (List.mem_of_getElem? hr')
  rwa [hd.deviceId, hd.featureId] at this

/-! ## New records -/

theorem semanticTool_named {s : Snapshot} {feature : Feature} {tool : Tool}
    (h : semanticTool s feature = some tool) : feature.featureId.text ≠ [] := by
  intro hid
  simp [semanticTool, hid] at h

variable {b : Build δ} {s : Snapshot} {r' : Record δ}

/-- The table gets a record for a feature of the schema that has none. -/
structure Creates (b : Build δ) (d : DeviceId) (s : Snapshot) (t : Table δ) (feature : Feature)
    (tool : Tool) : Prop where
  mem : feature ∈ s.features
  tool : semanticTool s feature = some tool
  none : t.findByFeature d feature.featureId = none
  room : t.length < b.recordMax

/-- A record is new for a feature of the schema that has no record in the table. -/
def Created (b : Build δ) (d : DeviceId) (s : Snapshot) (t : Table δ) (r' : Record δ) : Prop :=
  ∃ feature tool, Creates b d s t feature tool ∧
    (Record.semantic b d feature.featureId tool).Demotes r'

/-- What an evolved table gets a record for has none before. -/
theorem Evolves.creates {feature : Feature} {tool : Tool} (h : Evolves New t t')
    (hc : Creates b d s t' feature tool) : Creates b d s t feature tool :=
  ⟨hc.mem, hc.tool, h.findByFeature_none hc.none, Nat.lt_of_le_of_lt h.length_le hc.room⟩

theorem Created.demotes (h : Created b d s t r) (hd : r.Demotes r') : Created b d s t r' := by
  obtain ⟨feature, tool, hc, hr⟩ := h
  exact ⟨feature, tool, hc, hr.trans hd⟩

theorem evolves_markBound (t : Table δ) (d : DeviceId) (command : CommandName) :
    Evolves New t (t.markBound d command) := by
  unfold markBound
  split
  · exact .modify fun r _ => r.demotes_bind
  · exact .refl New t

theorem markBound_state {command : CommandName} (h : t[i]? = some r)
    (h' : (t.markBound d command)[i]? = some r') : r'.state = r.state ∧ r'.digest = r.digest := by
  unfold markBound at h'
  split at h'
  · rw [List.getElem?_modify, h] at h'
    simp only [Option.map_eq_map, Option.map_some, Option.some.injEq] at h'
    subst h'
    split <;> exact ⟨rfl, rfl⟩
  · cases h.symm.trans h'
    exact ⟨rfl, rfl⟩

end Table

/-! ## The loops -/

variable [DecidableEq δ]

namespace Record

variable {b : Build δ} {s : Snapshot} {cap : Option Snapshot} {tool : Tool} {r : Record δ}

/-- The schema still has the tool of the record's command, with the record's digest. -/
def Accepted (b : Build δ) (s : Snapshot) (r : Record δ) : Prop :=
  ∃ tool, (s.tools.find? fun tool => tool.command = r.command) = some tool ∧
    b.digest tool = r.digest

theorem demotes_review (b : Build δ) (cap : Option Snapshot) (r : Record δ) :
    r.Demotes (r.review b cap) := by
  unfold review
  cases cap with
  | none => exact demotes_demote (by simp)
  | some s =>
      simp only
      split
      · exact demotes_demote (by simp)
      · split
        · exact demotes_demote (by simp)
        · rename_i tool _
          -- a digest that changed has demoted the record before it is stored
          by_cases hdig : b.digest tool = r.digest
          · simp only [hdig, ne_eq, not_true_eq_false, if_false]
            split
            · exact demotes_of_not_enabled rfl rfl rfl rfl (by simp)
            · exact .refl r
          · have hdem : (r.demote .needsReview .capabilityChanged).state ≠ .enabled :=
              demote_not_enabled (by simp)
            have hsame : r.Demotes (r.demote .needsReview .capabilityChanged) :=
              demotes_demote (by simp)
            have hbound : (r.demote .needsReview .capabilityChanged).featureBound =
                r.featureBound := by
              unfold demote
              split <;> rfl
            simp only [ne_eq, hdig, not_false_eq_true, if_true]
            split
            · exact demotes_of_not_enabled hsame.deviceId hsame.featureId hsame.userDisabled
                hbound (by simp)
            · exact demotes_of_not_enabled hsame.deviceId hsame.featureId hsame.userDisabled
                hbound hdem

/-- The first loop leaves exactly the accepted records enabled. -/
theorem review_enabled_iff : (r.review b cap).state = .enabled ↔
    r.state = .enabled ∧ ∃ s, cap = some s ∧ r.Accepted b s := by
  unfold review
  cases cap with
  | none => simpa using demote_not_enabled (by simp)
  | some s =>
      simp only [Option.some.injEq, exists_eq_left']
      by_cases htools : s.tools = []
      · simp only [htools, if_true, Accepted, List.find?_nil, reduceCtorEq, false_and, exists_false,
          and_false, iff_false]
        exact demote_not_enabled (by simp)
      · rw [if_neg htools]
        cases hfind : s.tools.find? fun tool => tool.command = r.command with
        | none =>
            simp only [Accepted, hfind, reduceCtorEq, false_and, exists_false, and_false, iff_false]
            exact demote_not_enabled (by simp)
        | some tool =>
            simp only [Accepted, hfind, Option.some.injEq, exists_eq_left']
            by_cases hdig : b.digest tool = r.digest
            · simp only [hdig, ne_eq, not_true_eq_false, if_false]
              split <;> simp_all
            · have hne : (r.demote .needsReview .capabilityChanged).state ≠ .enabled :=
                demote_not_enabled (by simp)
              simp only [ne_eq, hdig, not_false_eq_true, if_true]
              split <;> simp_all

theorem demotes_refresh (b : Build δ) (tool : Tool) (r : Record δ) :
    r.Demotes (r.refresh b tool) := by
  unfold refresh
  by_cases hn : r.namingVersion < MCP_EXP_NAMING_VERSION <;>
    by_cases hdig : b.digest tool = r.digest <;>
      simp only [hn, hdig, if_true, if_false, ne_eq, not_true_eq_false, not_false_eq_true] <;>
        constructor <;> simp_all

theorem refresh_enabled_iff :
    (r.refresh b tool).state = .enabled ↔ r.state = .enabled ∧ b.digest tool = r.digest := by
  unfold refresh
  by_cases hn : r.namingVersion < MCP_EXP_NAMING_VERSION <;>
    by_cases hdig : b.digest tool = r.digest <;> simp [hn, hdig]

/-- A restart that finds the device and its schema leaves exactly the accepted records enabled. -/
theorem boot_enabled_iff {stored : Bool} : (r.boot b stored cap).state = .enabled ↔
    r.state = .enabled ∧ stored = true ∧ ∃ s, cap = some s ∧ r.Accepted b s := by
  unfold boot Accepted
  cases stored <;> cases cap with
  | none => simp
  | some s =>
      by_cases htools : s.tools = []
      · simp [htools]
      · cases hfind : s.tools.findIdx? fun tool => tool.command = r.command with
        | none => simp [htools, List.find?_eq_bind_findIdx?_getElem?, hfind]
        | some c =>
            obtain ⟨hc, -⟩ := List.findIdx?_eq_some_iff_getElem.mp hfind
            by_cases hdig : b.digest s.tools[c] = r.digest <;>
              by_cases he : r.state = .enabled <;>
                simp [htools, List.find?_eq_bind_findIdx?_getElem?, hfind, hc, hdig, he]

theorem demotes_boot (b : Build δ) (stored : Bool) (cap : Option Snapshot) (r : Record δ) :
    r.Demotes (r.boot b stored cap) := by
  have henabled : (r.boot b stored cap).state = .enabled →
      (r.boot b stored cap).digest = r.digest := by
    intro h
    obtain ⟨-, rfl, s, rfl, tool, hfind, hdig⟩ := boot_enabled_iff.mp h
    rw [List.find?_eq_bind_findIdx?_getElem?] at hfind
    obtain ⟨c, hc, htool⟩ := Option.bind_eq_some_iff.mp hfind
    unfold boot at h ⊢
    simp only [hc, List.getD_eq_getElem?_getD, htool, Option.getD_some, hdig] at h ⊢
    repeat' split
    all_goals simp_all
  refine ⟨?_, ?_, ?_, fun hb => ?_, fun h => ⟨(boot_enabled_iff.mp h).1, henabled h⟩⟩ <;>
    unfold boot <;> dsimp only <;> repeat' split
  all_goals simp_all

end Record

namespace Table

variable {b : Build δ} {d : DeviceId} {s : Snapshot} {cap : Option Snapshot}
  {feature : Feature} {r r' : Record δ} {t t' : Table δ} {i : Nat} {New : Record δ → Prop}

/-- What the second loop does for one feature: its record is refreshed, or a new one is created
for it if there is room. -/
inductive BindStep (b : Build δ) (d : DeviceId) (s : Snapshot) (t : Table δ) (feature : Feature) :
    Table δ → Prop
  | idle (unnamed : semanticTool s feature = none) : BindStep b d s t feature t
  | refreshed {tool : Tool} {k : Nat} (named : semanticTool s feature = some tool)
      (found : t.findByFeature d feature.featureId = some k) :
      BindStep b d s t feature (markBound (t.modify k (·.refresh b tool)) d tool.command)
  | full {tool : Tool} (named : semanticTool s feature = some tool)
      (missing : t.findByFeature d feature.featureId = none) (full : b.recordMax ≤ t.length) :
      BindStep b d s t feature t
  | created {tool : Tool} (named : semanticTool s feature = some tool)
      (missing : t.findByFeature d feature.featureId = none) (room : t.length < b.recordMax) :
      BindStep b d s t feature
        (markBound (t ++ [.semantic b d feature.featureId tool]) d tool.command)

theorem bindFeature_step (b : Build δ) (d : DeviceId) (s : Snapshot) (t : Table δ)
    (feature : Feature) : BindStep b d s t feature (t.bindFeature b d s feature) := by
  unfold bindFeature
  split
  · exact .idle ‹_›
  · split
    · exact .refreshed ‹_› ‹_›
    · split
      · exact .full ‹_› ‹_› ‹_›
      · exact .created ‹_› ‹_› (Nat.not_le.mp ‹_›)

theorem evolves_bindFeature (b : Build δ) (d : DeviceId) (hmem : feature ∈ s.features)
    (t : Table δ) : Evolves (Created b d s t) t (t.bindFeature b d s feature) := by
  have hstep := bindFeature_step b d s t feature
  generalize t.bindFeature b d s feature = u at hstep ⊢
  cases hstep with
  | idle | full => exact .refl _ t
  | @refreshed tool =>
      exact .trans (fun _ _ => Created.demotes) (.modify fun r _ => r.demotes_refresh b tool)
        (evolves_markBound _ d tool.command)
  | @created tool htool hnone hroom =>
      refine .trans (fun _ _ => Created.demotes)
        (.append ⟨feature, tool, ⟨hmem, htool, hnone, hroom⟩, .refl _⟩ ?_)
        (evolves_markBound _ d tool.command)
      exact (findByFeature_eq_none_iff.mp hnone).resolve_left (semanticTool_named htool)

/-- A record that is enabled stays so unless it is the record of the feature, with another digest
than that of the feature's tool. -/
theorem bindFeature_enabled_iff (h : t[i]? = some r)
    (h' : (t.bindFeature b d s feature)[i]? = some r') : r'.state = .enabled ↔
      r.state = .enabled ∧ ∀ tool, semanticTool s feature = some tool →
        t.findByFeature d feature.featureId = some i → b.digest tool = r.digest := by
  obtain ⟨hlt, -⟩ := List.getElem?_eq_some_iff.mp h
  have hstep := bindFeature_step b d s t feature
  generalize t.bindFeature b d s feature = u at hstep h'
  cases hstep with
  | idle htool =>
      cases h.symm.trans h'
      simp [htool]
  | @refreshed tool k htool hk =>
      have hmodify : Evolves (fun _ => True) t (t.modify k fun r => r.refresh b tool) :=
        .modify fun r _ => r.demotes_refresh b tool
      obtain ⟨r₁, hr₁, -⟩ := hmodify.old i r h
      rw [(markBound_state hr₁ h').1, hk]
      simp only [htool, Option.some.injEq, forall_eq']
      by_cases hki : k = i
      · subst hki
        rw [List.getElem?_modify_eq, h] at hr₁
        cases hr₁
        simp [Record.refresh_enabled_iff]
      · rw [List.getElem?_modify_ne _ _ hki, h] at hr₁
        cases hr₁
        simp [hki]
  | full _ hnone =>
      cases h.symm.trans h'
      simp [hnone]
  | created _ hnone =>
      rw [(markBound_state ((List.getElem?_append_left hlt).trans h) h').1]
      simp [hnone]

/-- The second loop, over a list of features of the schema. -/
theorem evolves_foldl (b : Build δ) (d : DeviceId) (features : List Feature)
    (hsub : ∀ f ∈ features, f ∈ s.features) (t : Table δ) :
    Evolves (Created b d s t) t (features.foldl (bindFeature b d s) t) := by
  induction features generalizing t with
  | nil => exact .refl _ t
  | cons feature features ih =>
      have hfirst := evolves_bindFeature b d (hsub feature (by simp)) t
      have hrest := ih (fun f hf => hsub f (by simp [hf])) (t.bindFeature b d s feature)
      refine .trans (fun _ _ => Created.demotes) hfirst
        ⟨hrest.old, fun i r' hr' hi => ?_, hrest.fresh⟩
      -- a feature without a record after the first step had none before
      obtain ⟨g, tool, hc, hd⟩ := hrest.new i r' hr' hi
      exact ⟨g, tool, hfirst.creates hc, hd⟩

theorem foldl_enabled_iff (features : List Feature) (hsub : ∀ f ∈ features, f ∈ s.features)
    (h : t[i]? = some r) (h' : (features.foldl (bindFeature b d s) t)[i]? = some r') :
    r'.state = .enabled ↔ r.state = .enabled ∧ ∀ feature ∈ features, ∀ tool,
      semanticTool s feature = some tool → t.findByFeature d feature.featureId = some i →
        b.digest tool = r.digest := by
  induction features generalizing t r with
  | nil =>
      cases h.symm.trans h'
      simp
  | cons feature features ih =>
      obtain ⟨hlt, -⟩ := List.getElem?_eq_some_iff.mp h
      have hfirst := evolves_bindFeature b d (hsub feature (by simp)) t
      obtain ⟨r₁, hr₁, hdem⟩ := hfirst.old i r h
      rw [ih (fun f hf => hsub f (by simp [hf])) hr₁ h', bindFeature_enabled_iff h hr₁]
      simp only [List.mem_cons, forall_eq_or_imp, hfirst.findByFeature hlt]
      constructor
      · rintro ⟨⟨he, hone⟩, hall⟩
        have hdig := (hdem.enabled ((bindFeature_enabled_iff h hr₁).mpr ⟨he, hone⟩)).2
        exact ⟨he, hone, fun g hg tool ht hi => (hall g hg tool ht hi).trans hdig⟩
      · rintro ⟨he, hone, hall⟩
        have hdig := (hdem.enabled ((bindFeature_enabled_iff h hr₁).mpr ⟨he, hone⟩)).2
        exact ⟨⟨he, hone⟩, fun g hg tool ht hi => (hall g hg tool ht hi).trans hdig.symm⟩

theorem evolves_reviewed (b : Build δ) (cap : Option Snapshot) (d : DeviceId) (t : Table δ) :
    Evolves New t (t.reviewed b cap d) := by
  refine .map fun r _ => ?_
  split
  · exact r.demotes_review b cap
  · exact .refl r

/-- **The first two loops.** A new record is created for a feature without a record. -/
theorem evolves_bound (b : Build δ) (cap : Option Snapshot) (d : DeviceId) (t : Table δ) :
    Evolves (fun r' => ∃ s, cap = some s ∧ Created b d s t r') t (t.bound b cap d) := by
  unfold bound
  cases cap with
  | none => exact evolves_reviewed b none d t
  | some s =>
      have hreviewed : Evolves (Created b d s t) t (t.reviewed b (some s) d) :=
        evolves_reviewed b (some s) d t
      have hrest := evolves_foldl b d s.features (fun _ h => h) (t.reviewed b (some s) d)
      have hall : Evolves (Created b d s t) t
          (s.features.foldl (bindFeature b d s) (t.reviewed b (some s) d)) := by
        refine .trans (fun _ _ => Created.demotes) hreviewed
          ⟨hrest.old, fun i r' hr' hi => ?_, hrest.fresh⟩
        obtain ⟨g, tool, hc, hd⟩ := hrest.new i r' hr' hi
        exact ⟨g, tool, hreviewed.creates hc, hd⟩
      exact ⟨hall.old, fun i r' hr' hi => ⟨s, rfl, hall.new i r' hr' hi⟩, hall.fresh⟩

/-- Which records of the device are still enabled after the first two loops. -/
theorem bound_enabled_iff {r' : Record δ} (h : t[i]? = some r) (hd : r.deviceId = d)
    (h' : (t.bound b cap d)[i]? = some r') : r'.state = .enabled ↔
      r.state = .enabled ∧ ∃ s, cap = some s ∧ r.Accepted b s ∧
        ∀ feature ∈ s.features, ∀ tool, semanticTool s feature = some tool →
          t.findByFeature d feature.featureId = some i → b.digest tool = r.digest := by
  have hlt : i < t.length := (List.getElem?_eq_some_iff.mp h).1
  have hreviewed : (t.reviewed b cap d)[i]? = some (r.review b cap) := by
    rw [reviewed, List.getElem?_map, h, Option.map_some, if_pos hd]
  have hev : Evolves (fun _ => True) t (t.reviewed b cap d) := evolves_reviewed b cap d t
  cases cap with
  | none =>
      cases hreviewed.symm.trans h'
      simp [Record.review_enabled_iff]
  | some s =>
      rw [foldl_enabled_iff s.features (fun _ h => h) hreviewed h', Record.review_enabled_iff]
      simp only [hev.findByFeature hlt, Option.some.injEq, exists_eq_left', and_assoc]
      refine and_congr_right fun he => and_congr_right fun hacc => ?_
      -- an accepted record comes out of the first loop with its digest
      have hkeep : (r.review b (some s)).state = .enabled :=
        Record.review_enabled_iff.mpr ⟨he, s, rfl, hacc⟩
      rw [((r.demotes_review b (some s)).enabled hkeep).2]

theorem length_bindFeature (h : t.length ≤ b.recordMax) :
    (t.bindFeature b d s feature).length ≤ b.recordMax := by
  have hmark : ∀ (t : Table δ) (command : CommandName),
      (t.markBound d command).length = t.length := by
    intro t command
    unfold markBound
    split <;> simp
  have hstep := bindFeature_step b d s t feature
  generalize t.bindFeature b d s feature = u at hstep ⊢
  cases hstep with
  | idle => exact h
  | full => exact h
  | refreshed => rwa [hmark, List.length_modify]
  | created =>
      rw [hmark, List.length_append, List.length_singleton]
      omega

theorem length_bound (h : t.length ≤ b.recordMax) : (t.bound b cap d).length ≤ b.recordMax := by
  have hreviewed : (t.reviewed b cap d).length ≤ b.recordMax := by
    rwa [reviewed, List.length_map]
  unfold bound
  cases cap with
  | none => exact hreviewed
  | some s =>
      exact List.foldlRecOn (motive := fun t : Table δ => t.length ≤ b.recordMax) s.features _
        hreviewed fun t ht _ _ => length_bindFeature ht

/-- A restart migrates the records, then compares them. -/
theorem bootReconcile_eq (b : Build δ) (stored : DeviceId → Bool)
    (cap : DeviceId → Option Snapshot) (t : Table δ) : t.bootReconcile b stored cap =
      (t.map fun r => r.migrate (cap r.deviceId)).map fun r =>
        r.boot b (stored r.deviceId) (cap r.deviceId) := by
  rw [bootReconcile, List.map_map]
  refine List.map_congr_left fun r _ => ?_
  simp

/-- **Records of a reconciled table.** Each was in the table or is created for a feature. -/
theorem reconcile_origin {r' : Record δ} (h : r' ∈ t.reconcile b cap d) :
    (∃ r ∈ t, r.Demotes r') ∨ ∃ s, cap = some s ∧ Created b d s t r' := by
  obtain ⟨i, hi⟩ := List.mem_iff_getElem?.mp (List.mem_of_mem_filter h)
  have hev := evolves_bound b cap d t
  by_cases hlt : i < t.length
  · obtain ⟨r₁, hr₁, hd⟩ := hev.old i _ (List.getElem?_eq_getElem hlt)
    cases hr₁.symm.trans hi
    exact .inl ⟨_, List.getElem_mem hlt, hd⟩
  · exact .inr (hev.new i r' hi (by omega))

end Table

end BleGateway.McpExposure
