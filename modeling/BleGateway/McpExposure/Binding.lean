import BleGateway.McpExposure.Calls
import BleGateway.McpExposure.Idempotent

/-! # Commands that are bound to a feature

`mcp_tool_is_feature_bound` reads the flag of the records of a command. A reconciliation sets the
flag, and nothing takes it back: it goes with the record. So it is right as long as no schema is
committed that contradicts the flag or the command of a record, and the keys of the records stay
distinct as long as no record of an older naming version gets the key of another one.
-/

namespace BleGateway.McpExposure

open DeviceSchema

/-- The command is the one of the writable tool of a feature with a template. -/
def Writable (s : Snapshot) (command : CommandName) : Prop :=
  ∃ feature ∈ s.features, ∃ tool, semanticTool s feature = some tool ∧ tool.command = command

variable {δ : Type}

namespace Record

/-- The record is from an older version of the firmware. -/
def Older (r : Record δ) : Prop := r.namingVersion < MCP_EXP_NAMING_VERSION

/-- Two records with one key: the feature, or the command of a record without one. -/
def Rival (r r' : Record δ) : Prop :=
  r.deviceId = r'.deviceId ∧ r.featureId = r'.featureId ∧
    (r.featureId.text = [] → r.command = r'.command)

/-- The schema agrees with the flag and the command of the record. -/
structure Fits (s : Snapshot) (r : Record δ) : Prop where
  raw : r.featureId.text = [] → r.featureBound = true → Writable s r.command
  named : ∀ feature ∈ s.features, feature.featureId = r.featureId → r.featureId.text ≠ [] →
    (∀ tool, semanticTool s feature = some tool → tool.command = r.command) ∧
      (semanticTool s feature = none → r.featureBound = false)

variable {r r' x x' : Record δ} {s : Snapshot}

/-- A record with the same key and command. -/
structure SameKey (r x : Record δ) : Prop where
  deviceId : x.deviceId = r.deviceId
  featureId : x.featureId = r.featureId
  command : x.command = r.command

theorem SameKey.refl (r : Record δ) : r.SameKey r := ⟨rfl, rfl, rfl⟩

theorem SameKey.rival (h : r.SameKey x) (h' : r'.SameKey x') : x.Rival x' ↔ r.Rival r' := by
  unfold Rival
  rw [h.deviceId, h.featureId, h.command, h'.deviceId, h'.featureId, h'.command]

/-- A record that keeps its key and its flag fits as before. -/
theorem Fits.congr (h : r.Fits s) (hkey : r.SameKey x) (hb : x.featureBound = r.featureBound) :
    x.Fits s where
  raw hraw hbound := by
    rw [hkey.command]
    exact h.raw (by rwa [← hkey.featureId]) (by rwa [← hb])
  named f hf hid hne := by
    rw [hkey.command, hb]
    exact h.named f hf (by rwa [← hkey.featureId]) (by rwa [← hkey.featureId])

end Record

namespace Table

/-- `mcp_tool_is_feature_bound`. -/
def isFeatureBound (t : Table δ) (d : DeviceId) (command : CommandName) : Bool :=
  t.any fun r => r.deviceId = d && (r.command = command && r.featureBound)

/-- The keys of the records are distinct. -/
def Distinct (t : Table δ) : Prop := t.Pairwise fun r r' => ¬r.Rival r'

/-- **What a reconciliation should leave.** The bound commands of the device are the writable ones
of its schema, and there is one record at most with a key. -/
structure Exact (d : DeviceId) (s : Snapshot) (t : Table δ) : Prop where
  bound : ∀ command, t.isFeatureBound d command = true ↔ Writable s command
  distinct : t.Distinct

/-- Only the records without a feature may be older. -/
def NamedCurrent (t : Table δ) : Prop := ∀ r ∈ t, r.featureId.text ≠ [] → ¬r.Older

variable {t t' : Table δ} {d : DeviceId} {s : Snapshot} {r r' x : Record δ} {i : Nat}

theorem distinct_iff : t.Distinct ↔ ∀ (i j : Nat) (r r' : Record δ), i < j → t[i]? = some r →
    t[j]? = some r' → ¬r.Rival r' := by
  unfold Distinct
  rw [List.pairwise_iff_getElem]
  constructor
  · intro h i j r r' hij hr hr'
    obtain ⟨hi, rfl⟩ := List.getElem?_eq_some_iff.mp hr
    obtain ⟨hj, rfl⟩ := List.getElem?_eq_some_iff.mp hr'
    exact h i j hi hj hij
  · intro h i j hi hj hij
    exact h i j _ _ hij (List.getElem?_eq_getElem hi) (List.getElem?_eq_getElem hj)

/-- The records in front keep their keys, and those behind them bring no key twice. -/
theorem Distinct.grow (h : t.Distinct)
    (hold : ∀ (i : Nat) (r : Record δ), t[i]? = some r → ∃ x, t'[i]? = some x ∧ r.SameKey x)
    (hnew : ∀ (i j : Nat) (x x' : Record δ), i < j → t.length ≤ j → t'[i]? = some x →
      t'[j]? = some x' → ¬x.Rival x') : t'.Distinct := by
  rw [distinct_iff] at h ⊢
  intro i j x x' hij hx hx'
  by_cases hj : j < t.length
  · obtain ⟨x₁, hx₁, hkey⟩ := hold i _ (List.getElem?_eq_getElem (Nat.lt_trans hij hj))
    obtain ⟨x₂, hx₂, hkey'⟩ := hold j _ (List.getElem?_eq_getElem hj)
    obtain rfl := Option.some.inj (hx₁.symm.trans hx)
    obtain rfl := Option.some.inj (hx₂.symm.trans hx')
    rw [hkey.rival hkey']
    exact h i j _ _ hij (List.getElem?_eq_getElem _) (List.getElem?_eq_getElem hj)
  · exact hnew i j x x' hij (by omega) hx hx'

/-! ## One reconciliation -/

variable [DecidableEq δ] {b : Build δ}

/-- A record of the device is bound by the pass. -/
def BoundBy (b : Build δ) (d : DeviceId) (s : Snapshot) (t : Table δ) (i : Nat) (r : Record δ) :
    Prop :=
  r.deviceId = d ∧ ((∃ tool, t.Serves d s i tool) ∨
    (r.featureId.text = [] ∧ t.MarkedFor b d s i))

omit [DecidableEq δ] in
/-- The record of a feature is named after it. -/
theorem Serves.named {tool : Tool} (h : t.Serves d s i tool) (hr : t[i]? = some r) :
    r.deviceId = d ∧ r.featureId.text ≠ [] := by
  obtain ⟨feature, -, htool, hfind⟩ := h
  obtain ⟨hne, ⟨r₁, hr₁, hd, hid⟩, -⟩ := findByFeature_eq_some_iff.mp hfind
  obtain rfl := Option.some.inj (hr₁.symm.trans hr)
  exact ⟨hd, by rwa [hid]⟩

/-- What a pass does to a record: it keeps the key, and the flag is set. -/
theorem bound_record (hs : s.Resolved) (ht : t.NamedCurrent) (hr : t[i]? = some r) :
    ∃ x, (t.bound b (some s) d)[i]? = some x ∧ r.SameKey x ∧
      (x.featureId.text ≠ [] → ¬x.Older) ∧
        (x.featureBound = true ↔ r.featureBound = true ∨ BoundBy b d s t i r) := by
  have hcurrent : r.featureId.text ≠ [] → ¬r.Older := ht r (List.mem_of_getElem? hr)
  obtain ⟨hdevice, hcommand, hid, hversion, hflag⟩ := Record.review_same b s r
  have hreviewed : r.SameKey (r.review b (some s)) := ⟨hdevice, hid, hcommand⟩
  have holder : (r.review b (some s)).Older ↔ r.Older := by
    unfold Record.Older
    rw [hversion]
  by_cases hd : r.deviceId = d
  · by_cases hserves : ∃ tool, t.Serves d s i tool
    · obtain ⟨tool, hserves⟩ := hserves
      have hnamed := (hserves.named hr).2
      obtain ⟨hnew, -, hbound, hcmd⟩ := Record.refresh_fields b tool (r.review b (some s))
      rw [if_neg (by rw [hversion]; exact hcurrent hnamed), hcommand] at hcmd
      have hdem := (r.review b (some s)).demotes_refresh b tool
      refine ⟨_, bound_own hs hr hd hserves,
        ⟨hdem.deviceId.trans hdevice, hdem.featureId.trans hid, hcmd⟩, ?_, ?_⟩
      · exact fun _ => UInt8.not_lt.mpr hnew
      · exact iff_of_true hbound (.inr ⟨hd, .inl ⟨tool, hserves⟩⟩)
    · have hnone : ∀ tool, ¬t.Serves d s i tool := fun tool h => hserves ⟨tool, h⟩
      by_cases hraw : r.featureId.text = []
      · obtain ⟨hmarked, hnot⟩ := bound_raw (b := b) (s := s) hr hd hraw
        by_cases hm : t.MarkedFor b d s i
        · refine ⟨_, hmarked hm, ⟨hdevice, hid, hcommand⟩, ?_, ?_⟩
          · intro hne
            have hid' : (r.review b (some s)).mark.featureId = r.featureId := hid
            rw [hid'] at hne
            exact absurd hraw hne
          · exact iff_of_true rfl (.inr ⟨hd, .inr ⟨hraw, hm⟩⟩)
        · refine ⟨_, hnot hm, hreviewed, ?_, ?_⟩
          · intro hne
            rw [hid] at hne
            exact absurd hraw hne
          · rw [hflag]
            refine (or_iff_left ?_).symm
            rintro ⟨-, hs' | ⟨-, hm'⟩⟩
            · exact hserves hs'
            · exact hm hm'
      · refine ⟨_, bound_named hs hr hd hraw hnone, hreviewed, ?_, ?_⟩
        · exact fun _ => holder.not.mpr (hcurrent hraw)
        · rw [hflag]
          refine (or_iff_left ?_).symm
          rintro ⟨-, hs' | ⟨hraw', -⟩⟩
          · exact hserves hs'
          · exact hraw hraw'
  · refine ⟨r, bound_other hr hd, .refl r, hcurrent, ?_⟩
    exact (or_iff_left fun h => hd h.1).symm

/-- The keys stay distinct, as a new record is for a feature without one. -/
theorem Distinct.bound (h : t.Distinct) (hs : s.Resolved) (ht : t.NamedCurrent) :
    (t.bound b (some s) d).Distinct := by
  apply h.grow
  · intro i r hr
    obtain ⟨x, hx, hkey, -⟩ := bound_record (b := b) (d := d) hs ht hr
    exact ⟨x, hx, hkey⟩
  · intro i j x x' hij hj hx hx' hrival
    exact (evolves_pass b d s t).fresh j i x x' hx' hj hij hx ⟨hrival.1, hrival.2.1⟩

theorem NamedCurrent.bound (hs : s.Resolved) (ht : t.NamedCurrent) :
    (t.bound b (some s) d).NamedCurrent := by
  intro x hx hne
  obtain ⟨i, hi⟩ := List.mem_iff_getElem?.mp hx
  by_cases hlt : i < t.length
  · obtain ⟨x', hx', -, hcurrent, -⟩ := bound_record (b := b) (d := d) hs ht
      (List.getElem?_eq_getElem hlt)
    obtain rfl := Option.some.inj (hx'.symm.trans hi)
    exact hcurrent hne
  · obtain ⟨feature, -, tool, -, rfl⟩ := bound_new hs hi (by omega)
    exact UInt8.not_lt.mpr (Nat.le_refl _)

omit [DecidableEq δ] in
/-- A feature with a writable tool binds its command. -/
theorem writable_of {feature : Feature} {tool : Tool} (hmem : feature ∈ s.features)
    (htool : semanticTool s feature = some tool) : Writable s tool.command :=
  ⟨feature, hmem, tool, htool, rfl⟩

/-- A pass leaves every record in agreement with the schema. -/
theorem fits_bound (hs : s.Resolved) (ht : t.NamedCurrent)
    (hfits : ∀ r ∈ t, r.deviceId = d → r.Fits s) :
    ∀ x ∈ t.bound b (some s) d, x.deviceId = d → x.Fits s := by
  intro x hx hxd
  obtain ⟨i, hi⟩ := List.mem_iff_getElem?.mp hx
  by_cases hlt : i < t.length
  · have hr := List.getElem?_eq_getElem hlt
    obtain ⟨x', hx', hkey, -, hflag⟩ := bound_record (b := b) (d := d) hs ht hr
    obtain rfl := Option.some.inj (hx'.symm.trans hi)
    have hfit := hfits _ (List.getElem_mem hlt) (hkey.deviceId.symm.trans hxd)
    constructor
    · intro hraw hbound
      rw [hkey.featureId] at hraw
      rw [hkey.command]
      rcases hflag.mp hbound with hold | ⟨-, ⟨tool, hserves⟩ | ⟨-, hmarked⟩⟩
      · exact hfit.raw hraw hold
      · exact absurd hraw (hserves.named hr).2
      · -- a raw record is marked for its own command
        obtain ⟨feature, hmem, tool, htool, hplace, -⟩ := hmarked
        obtain ⟨_, hp, -⟩ := List.findIdx?_eq_some_iff_getElem.mp hplace
        simp only [Bool.and_eq_true, decide_eq_true_eq] at hp
        rw [hp.2.1]
        exact writable_of hmem htool
    · intro f hf hid hne
      rw [hkey.featureId] at hid hne
      obtain ⟨hcommand, hflagged⟩ := hfit.named f hf hid hne
      rw [hkey.command]
      refine ⟨hcommand, fun hnone => ?_⟩
      rw [Bool.eq_false_iff]
      intro hbound
      rcases hflag.mp hbound with hold | ⟨-, ⟨tool, feature, hmem, htool, hfind⟩ | ⟨hraw, -⟩⟩
      · rw [hflagged hnone] at hold
        cases hold
      · -- the feature that binds it is the one of its id
        have hid₁ := (findByFeature_record hfind hr).2
        have hsame := List.inj_on_of_nodup_map hs.ids hf hmem (hid.trans hid₁)
        rw [hsame, htool] at hnone
        cases hnone
      · exact hne hraw
  · obtain ⟨feature, hmem, tool, htool, rfl⟩ := bound_new hs hi (by omega)
    constructor
    · exact fun _ _ => writable_of hmem htool
    · intro f hf hid _
      have hsame := List.inj_on_of_nodup_map hs.ids hf hmem hid
      rw [hsame, htool]
      constructor
      · intro tool' htool'
        rw [Option.some.inj htool']
        rfl
      · intro hnone
        cases hnone

/-- **The bound commands after a pass.** With room for a record of each feature, and records that
agree with the schema, they are the writable ones. -/
theorem isFeatureBound_reconcile_iff (hs : s.Resolved) (ht : t.NamedCurrent)
    (hfits : ∀ r ∈ t, r.deviceId = d → r.Fits s)
    (hroom : t.length + t.lacking d s s.features ≤ b.recordMax) (command : CommandName) :
    (t.reconcile b (some s) d).isFeatureBound d command = true ↔ Writable s command := by
  have hall := fits_bound (b := b) hs ht hfits
  unfold isFeatureBound
  rw [List.any_eq_true]
  simp only [Bool.and_eq_true, decide_eq_true_eq]
  constructor
  · rintro ⟨x, hx, hd, rfl, hbound⟩
    obtain ⟨hmem, hstays⟩ := List.mem_filter.mp hx
    have hfit := hall x hmem hd
    by_cases hraw : x.featureId.text = []
    · exact hfit.raw hraw hbound
    · -- its feature is still there
      simp only [Record.stays, Record.featureExists, hd, hraw, ne_eq, not_true_eq_false,
        decide_false, Bool.false_or, List.any_eq_true, decide_eq_true_eq] at hstays
      obtain ⟨f, hf, hid⟩ := hstays
      obtain ⟨hcommand, hflagged⟩ := hfit.named f hf hid hraw
      cases htool : semanticTool s f with
      | none =>
          rw [hflagged htool] at hbound
          cases hbound
      | some tool => exact ⟨f, hf, tool, htool, hcommand tool htool⟩
  · rintro ⟨feature, hmem, tool, htool, rfl⟩
    -- the feature has a record after the pass
    have hlack := (bound_room (b := b) (d := d) hs t).2
    have hzero : (t.bound b (some s) d).lacking d s s.features = 0 := by
      rw [hlack]
      omega
    have hfind : (t.bound b (some s) d).findByFeature d feature.featureId ≠ none := by
      intro hnone
      have hnot := List.countP_eq_zero.mp hzero feature hmem
      simp [lacks, htool, hnone] at hnot
    obtain ⟨i, hi⟩ := Option.ne_none_iff_exists'.mp hfind
    obtain ⟨hne, ⟨x, hx, hd, hid⟩, -⟩ := findByFeature_eq_some_iff.mp hi
    have hxmem := List.mem_of_getElem? hx
    have hstays : x.stays (some s) d = true := stays_of_feature hmem hid
    obtain ⟨hcommand, -⟩ := (hall x hxmem hd).named feature hmem hid.symm (by rwa [hid])
    refine ⟨x, List.mem_filter.mpr ⟨hxmem, hstays⟩, hd, (hcommand tool htool).symm, ?_⟩
    by_cases hlt : i < t.length
    · obtain ⟨x', hx', -, -, hflag⟩ := bound_record (b := b) (d := d) hs ht
        (List.getElem?_eq_getElem hlt)
      obtain rfl := Option.some.inj (hx'.symm.trans hx)
      have hserves : (t.bound b (some s) d).Serves d s i tool := ⟨feature, hmem, htool, hi⟩
      exact hflag.mpr (.inr ⟨((serves_bound rfl hlt).mp hserves).named
        (List.getElem?_eq_getElem hlt) |>.1, .inl ⟨tool, (serves_bound rfl hlt).mp hserves⟩⟩)
    · obtain ⟨g, -, tool', -, rfl⟩ := bound_new hs hx (by omega)
      rfl

end Table

/-! ## Tables that agree with the schemas -/

namespace Table

variable {t t' : Table δ} {d : DeviceId} {r x : Record δ} {i : Nat}
  {schema : DeviceId → Option Snapshot}

/-- Every record agrees with the schema of its device, and the keys are distinct. -/
structure Faithful (schema : DeviceId → Option Snapshot) (t : Table δ) : Prop where
  fits : ∀ r ∈ t, ∀ s, schema r.deviceId = some s → r.Fits s
  distinct : t.Distinct
  current : t.NamedCurrent

/-- Records may go. -/
theorem Faithful.sublist (h : t.Faithful schema) (hsub : t'.Sublist t) : t'.Faithful schema where
  fits r hr := h.fits r (hsub.subset hr)
  distinct := h.distinct.sublist hsub
  current r hr := h.current r (hsub.subset hr)

/-- Records may change that keep their keys and go on to fit. -/
theorem Faithful.grow (h : t.Faithful schema) (hlen : t'.length = t.length)
    (hkeep : ∀ (i : Nat) (r : Record δ), t[i]? = some r → ∃ x, t'[i]? = some x ∧ r.SameKey x ∧
      (x.featureId.text ≠ [] → ¬x.Older) ∧ ∀ s, schema r.deviceId = some s → x.Fits s) :
    t'.Faithful schema := by
  have hback : ∀ x ∈ t', ∃ r ∈ t, r.SameKey x ∧ (x.featureId.text ≠ [] → ¬x.Older) ∧
      ∀ s, schema r.deviceId = some s → x.Fits s := by
    intro x hx
    obtain ⟨i, hi⟩ := List.mem_iff_getElem?.mp hx
    have hlt : i < t.length := hlen ▸ (List.getElem?_eq_some_iff.mp hi).1
    obtain ⟨x', hx', hkey, hcurrent, hfits⟩ := hkeep i _ (List.getElem?_eq_getElem hlt)
    obtain rfl := Option.some.inj (hx'.symm.trans hi)
    exact ⟨_, List.getElem_mem hlt, hkey, hcurrent, hfits⟩
  constructor
  · intro x hx s hs
    obtain ⟨r, -, hkey, -, hfits⟩ := hback x hx
    exact hfits s (by rwa [← hkey.deviceId])
  · apply h.distinct.grow
    · intro i r hr
      obtain ⟨x, hx, hkey, -⟩ := hkeep i r hr
      exact ⟨x, hx, hkey⟩
    · intro i j x x' _ hj _ hx'
      obtain ⟨hlt, -⟩ := List.getElem?_eq_some_iff.mp hx'
      omega
  · intro x hx
    obtain ⟨-, -, -, hcurrent, -⟩ := hback x hx
    exact hcurrent

/-- One record changes. -/
theorem Faithful.modify (h : t.Faithful schema) {g : Record δ → Record δ}
    (hg : ∀ r, t[i]? = some r → r.SameKey (g r) ∧ ((g r).Older → r.Older) ∧
      ∀ s, schema r.deviceId = some s → (g r).Fits s) : Table.Faithful schema (t.modify i g) := by
  apply h.grow (List.length_modify g t i)
  intro j r hr
  have hmem := List.mem_of_getElem? hr
  by_cases hij : i = j
  · subst hij
    obtain ⟨hkey, holder, hfits⟩ := hg r hr
    refine ⟨g r, by rw [List.getElem?_modify_eq, hr]; rfl, hkey, fun hne hold => ?_, hfits⟩
    exact h.current r hmem (by rwa [← hkey.featureId]) (holder hold)
  · exact ⟨r, by rw [List.getElem?_modify_ne _ _ hij, hr], .refl r, h.current r hmem,
      h.fits r hmem⟩

/-- A change of what is neither key nor flag. -/
theorem Faithful.modify_same (h : t.Faithful schema) {g : Record δ → Record δ}
    (hg : ∀ r, r.SameKey (g r) ∧ (g r).namingVersion = r.namingVersion ∧
      (g r).featureBound = r.featureBound) : Table.Faithful schema (t.modify i g) := by
  apply h.modify
  intro r hr
  obtain ⟨hkey, hversion, hflag⟩ := hg r
  refine ⟨hkey, fun hold => ?_, fun s hs => ?_⟩
  · unfold Record.Older at hold ⊢
    rwa [← hversion]
  · exact (h.fits r (List.mem_of_getElem? hr) s hs).congr hkey hflag

/-- A record comes with a key that is new. -/
theorem Faithful.append (h : t.Faithful schema) (hrival : ∀ r ∈ t, ¬r.Rival x) (hx : ¬x.Older)
    (hfits : ∀ s, schema x.deviceId = some s → x.Fits s) : Table.Faithful schema (t ++ [x]) where
  fits r hr s hs := by
    rcases List.mem_append.mp hr with hr | hr
    · exact h.fits r hr s hs
    · rw [List.mem_singleton.mp hr] at hs ⊢
      exact hfits s hs
  distinct := by
    apply List.pairwise_append.mpr ⟨h.distinct, List.pairwise_singleton _ x, ?_⟩
    intro r hr y hy
    rw [List.mem_singleton.mp hy]
    exact hrival r hr
  current r hr := by
    rcases List.mem_append.mp hr with hr | hr
    · exact h.current r hr
    · rw [List.mem_singleton.mp hr]
      exact fun _ => hx

variable [DecidableEq δ] {b : Build δ}

theorem Faithful.reconcile (h : t.Faithful schema)
    (hresolved : ∀ s, schema d = some s → s.Resolved) {cap : Option Snapshot}
    (hcap : ∀ s, cap = some s → schema d = some s) :
    (t.reconcile b cap d).Faithful schema := by
  have hbound : (t.bound b cap d).Faithful schema := by
    cases cap with
    | none =>
        apply h.grow (length_reviewed t none)
        intro i r hr
        have hmem := List.mem_of_getElem? hr
        refine ⟨if r.deviceId = d then r.review b none else r, ?_, ?_⟩
        · show (t.reviewed b none d)[i]? = _
          rw [reviewed, List.getElem?_map, hr, Option.map_some]
        · have hsame : r.SameKey (r.review b none) ∧
              (r.review b none).namingVersion = r.namingVersion ∧
                (r.review b none).featureBound = r.featureBound := by
            simp only [Record.review, Record.demote]
            split <;> exact ⟨⟨rfl, rfl, rfl⟩, rfl, rfl⟩
          split
          · obtain ⟨hkey, hversion, hflag⟩ := hsame
            refine ⟨hkey, fun hne hold => ?_, fun s hs => (h.fits r hmem s hs).congr hkey hflag⟩
            rw [hkey.featureId] at hne
            unfold Record.Older at hold
            rw [hversion] at hold
            exact h.current r hmem hne hold
          · exact ⟨.refl r, h.current r hmem, h.fits r hmem⟩
    | some s =>
        have hschema := hcap s rfl
        have hs := hresolved s hschema
        refine ⟨fun x hx s' hs' => ?_, h.distinct.bound hs h.current, .bound hs h.current⟩
        by_cases hd : x.deviceId = d
        · rw [hd, hschema] at hs'
          cases hs'
          refine fits_bound hs h.current (fun r hr hrd => ?_) x hx hd
          exact h.fits r hr s (by rw [hrd, hschema])
        · -- the records of other devices stay
          have hforeign : x ∈ (t.bound b (some s) d).foreign d :=
            List.mem_filter.mpr ⟨hx, by simp [hd]⟩
          rw [foreign_bound] at hforeign
          exact h.fits x (List.mem_filter.mp hforeign).1 s' hs'
  exact hbound.sublist List.filter_sublist

end Table

/-! ## Restarts -/

namespace Record

variable [DecidableEq δ] {b : Build δ} {r : Record δ} {s : Snapshot} {cap : Option Snapshot}
  {stored : Bool}

/-- A restart compares a record without changing its key. -/
theorem boot_same (b : Build δ) (stored : Bool) (cap : Option Snapshot) (r : Record δ) :
    r.SameKey (r.boot b stored cap) ∧ ((r.boot b stored cap).Older → r.Older) := by
  unfold Older boot
  dsimp only
  repeat' split
  all_goals first
    | exact ⟨⟨rfl, rfl, rfl⟩, fun h => h⟩
    | exact ⟨⟨rfl, rfl, rfl⟩, fun h => absurd h (UInt8.lt_irrefl _)⟩

/-- The flag comes from the record, or from a feature whose writable tool has the command. -/
theorem boot_bound (hs : ∀ s, cap = some s → s.WellFormed)
    (h : (r.boot b stored cap).featureBound = true) : r.featureBound = true ∨
      ∃ s, cap = some s ∧ ∃ feature ∈ s.features, feature.featureId = r.featureId ∧
        ∃ tool, toolAt s.tools feature.writableToolIndex = some tool ∧
          tool.command = r.command := by
  unfold boot at h
  cases stored with
  | false => exact .inl h
  | true =>
      cases cap with
      | none => exact .inl h
      | some s =>
          simp only [Bool.not_true, Bool.false_eq_true, if_false] at h
          by_cases htools : s.tools = []
          · rw [if_pos htools] at h
            exact .inl h
          · rw [if_neg htools] at h
            cases hfind : s.tools.findIdx? fun tool => tool.command = r.command with
            | none =>
                rw [hfind] at h
                exact .inl h
            | some c =>
                rw [hfind] at h
                dsimp only at h
                split at h
                · rw [Bool.or_eq_true] at h
                  refine h.imp_right fun hany => ⟨s, rfl, ?_⟩
                  obtain ⟨feature, hmem, hboth⟩ := List.any_eq_true.mp hany
                  simp only [Bool.and_eq_true, decide_eq_true_eq] at hboth
                  obtain ⟨hc, hp, -⟩ := List.findIdx?_eq_some_iff_getElem.mp hfind
                  refine ⟨feature, hmem, hboth.1, s.tools[c], ?_, by simpa using hp⟩
                  have hle := (hs s rfl).checked.tools_le
                  have hint : (Int8.ofNat c).toInt = c := by
                    apply Int8.toInt_ofNat_of_lt
                    unfold DEVICE_SCHEMA_MAX_TOOLS at hle
                    omega
                  rw [hboth.2, toolAt, hint, if_pos (by omega), Int.toNat_natCast,
                    List.getElem?_eq_getElem hc]
                · split at h <;> exact .inl h

end Record

namespace Exposure

variable [DecidableEq δ] (b : Build δ) (x : Exposure δ)

/-- The table that a start loads. -/
def loaded (ok : Bool) : Table δ := if ok then (x.nvs.getD []).take b.recordMax else []

/-- A record after the first loop of `boot_reconcile`. -/
def migrate (r : Record δ) : Record δ := r.migrate (x.capability r.deviceId)

/-- The schema has no feature with the record's id whose writable tool has its command, but no
template. -/
def Templated (s : Snapshot) (r : Record δ) : Prop :=
  ∀ feature ∈ s.features, feature.featureId = r.featureId → semanticTool s feature = none →
    ∀ tool, toolAt s.tools feature.writableToolIndex = some tool → tool.command ≠ r.command

/-- What keeps the flags and the keys right. A schema agrees with the records of its device when it
is committed, a call binds a record that agrees with the schema, there is room for a record of each
feature, and a start neither loads a record that does not agree nor gives an older one the key of
another. -/
def KeepsBinding : Label → Prop
  | .commit d s => s.WellFormed ∧ ∀ r ∈ x.table, r.deviceId = d → r.Fits s
  | .setSchema d s => ∀ s', s = some s' → s'.WellFormed ∧ ∀ r ∈ x.table, r.deviceId = d → r.Fits s'
  | .call (.exposeFeature d f command tool) _ =>
      match x.table.findByFeature d f with
      | some i => ∀ r, x.table[i]? = some r → ∀ s, x.schema d = some s →
          ({ r with featureBound := true } : Record δ).Fits s
      | none =>
          let r : Record δ :=
            { deviceId := d
              command := command
              featureBound := true
              featureId := f
              digest := b.digest tool }
          (∀ r' ∈ x.table, ¬r'.Rival r) ∧ ∀ s, x.schema d = some s → r.Fits s
  | .worker _ => ∀ d s, x.queue.head? = some (.capCommitted d) → x.capability d = some s →
      x.table.length + x.table.lacking d s s.features ≤ b.recordMax
  | .restart ok =>
      (x.loaded b ok).Pairwise (fun r r' => r.Older ∨ r'.Older →
        ¬(x.migrate r).Rival (x.migrate r')) ∧
      ∀ r ∈ x.loaded b ok, ∀ s, x.schema r.deviceId = some s →
        (x.migrate r).Fits s ∧ Templated s (x.migrate r)
  | _ => True

/-- NVS as an older version of the firmware left it: its records have no feature ids. -/
def Fresh : Prop :=
  (∀ d s, x.schema d = some s → s.WellFormed) ∧
    ∀ t, x.nvs = some t → ∀ r ∈ t, r.Older ∧ r.featureId.text = []

/-- What the condition keeps. -/
structure Faithful : Prop where
  schemas : ∀ d s, x.schema d = some s → s.WellFormed
  table : x.table.Faithful x.schema
  nvs : ∀ t, x.nvs = some t → t.NamedCurrent ∧
    t.Pairwise fun r r' => ¬r.Older → ¬r'.Older → ¬r.Rival r'

variable {b x} {x' : Exposure δ} {l : Label}

omit [DecidableEq δ] in
theorem Faithful.persistSave (hs : ∀ d s, x.schema d = some s → s.WellFormed)
    (ht : x.table.Faithful x.schema)
    (hn : ∀ t, x.nvs = some t → t.NamedCurrent ∧
      t.Pairwise fun r r' => ¬r.Older → ¬r'.Older → ¬r.Rival r') (saved : Bool) :
    (x.persistSave saved).Faithful := by
  cases saved with
  | false => exact ⟨hs, ht, hn⟩
  | true =>
      refine ⟨hs, ht, fun t hnvs => ?_⟩
      obtain rfl : x.table = t := Option.some.inj hnvs
      exact ⟨ht.current, ht.distinct.imp fun h _ _ => h⟩

omit [DecidableEq δ] in
/-- The table is written. -/
theorem Faithful.write (h : x.Faithful) {t : Table δ} (ht : t.Faithful x.schema) (saved : Bool) :
    ({ x with table := t }.persistSave saved).Faithful :=
  .persistSave (x := { x with table := t }) h.schemas ht h.nvs saved

omit [DecidableEq δ] in
theorem Faithful.apply {c : ApiCall} {saved : Bool} (h : x.Faithful)
    (hc : KeepsBinding b x (.call c saved)) : (x.apply b c saved).2.Faithful := by
  have herase : ∀ i, Table.Faithful x.schema (x.table.eraseIdx i) :=
    fun i => h.table.sublist (List.eraseIdx_sublist x.table i)
  cases c with
  | enable d command confirm =>
      have hmodify : ∀ i target, Table.Faithful x.schema (x.table.modify i fun r =>
          { r with state := .enabled, reason := .none, digest := b.digest target }) :=
        fun i target => h.table.modify_same fun r => ⟨⟨rfl, rfl, rfl⟩, rfl, rfl⟩
      have happend : x.table.find d command = none → ∀ digest : δ, Table.Faithful x.schema
          (x.table ++ [{ deviceId := d, command := command, digest := digest }]) := by
        intro hnone digest
        apply h.table.append
        · -- no record has the command
          rintro r hr ⟨hd, hid, hcommand⟩
          have hraw : r.featureId.text = [] := by
            rw [hid]
            rfl
          have hnot := List.findIdx?_eq_none_iff.mp hnone r hr
          simp [hd, hcommand hraw] at hnot
        · exact UInt8.lt_irrefl _
        · intro s _
          constructor
          · intro _ hbound
            cases hbound
          · intro f _ _ hne
            exact absurd rfl hne
      simp only [Exposure.apply, Exposure.enable]
      repeat' split
      all_goals first
        | exact h
        | exact .persistSave h.schemas h.table h.nvs false
        | exact h.write (hmodify _ _) true
        | exact h.write (happend ‹_› _) true
  | disable d command =>
      simp only [Exposure.apply, Exposure.disable]
      split
      · exact h.write (herase _) _
      · exact .persistSave h.schemas h.table h.nvs _
  | exposeFeature d f command tool =>
      simp only [Exposure.apply, Exposure.exposeFeature]
      unfold KeepsBinding at hc
      dsimp only at hc
      cases hfind : x.table.findByFeature d f with
      | some i =>
          rw [hfind] at hc
          apply h.write
          apply h.table.modify
          intro r hr
          have hd := (Table.findByFeature_record hfind hr).1
          have hfits : ∀ s, x.schema r.deviceId = some s →
              ({ r with featureBound := true } : Record δ).Fits s := by
            intro s hs
            exact hc r hr s (by rw [← hd, hs])
          split
          · exact ⟨⟨rfl, rfl, rfl⟩, fun hold => hold, fun s hs =>
              (hfits s hs).congr ⟨rfl, rfl, rfl⟩ rfl⟩
          · exact ⟨⟨rfl, rfl, rfl⟩, fun hold => hold, fun s hs =>
              (hfits s hs).congr ⟨rfl, rfl, rfl⟩ rfl⟩
      | none =>
          rw [hfind] at hc
          dsimp only at hc ⊢
          split
          · exact h
          · exact h.write (h.table.append hc.1 (UInt8.lt_irrefl _) hc.2) _
  | unbindFeature d f =>
      simp only [Exposure.apply, Exposure.unbindFeature]
      split
      · exact h.write (herase _) _
      · exact h
  | setFeatureEnabled d f enabled =>
      have hmodify : ∀ i, Table.Faithful x.schema
          (x.table.modify i fun r => { r with userDisabled := !enabled }) :=
        fun i => h.table.modify_same fun r => ⟨⟨rfl, rfl, rfl⟩, rfl, rfl⟩
      simp only [Exposure.apply, Exposure.setFeatureEnabled]
      split
      · exact h.write (hmodify _) _
      · exact h

omit [DecidableEq δ] in
theorem capability_eq {d : DeviceId} {s : Snapshot} (h : x.capability d = some s) :
    x.schema d = some s := by
  unfold capability at h
  split at h
  · exact h
  · cases h

omit [DecidableEq δ] in
theorem migrate_current {r : Record δ} (h : ¬r.Older) : x.migrate r = r := by
  unfold migrate Record.migrate
  rw [if_pos (UInt8.not_lt.mp h)]

omit [DecidableEq δ] in
/-- A record without a feature id that gets one is not older any more. -/
theorem migrate_named {r : Record δ} (hr : r.featureId.text ≠ [] → ¬r.Older)
    (hne : (x.migrate r).featureId.text ≠ []) : ¬(x.migrate r).Older := by
  by_cases hold : r.Older
  · have hraw : r.featureId.text = [] := by
      by_contra hnamed
      exact hr hnamed hold
    unfold migrate Record.migrate at hne ⊢
    rw [if_neg (UInt8.not_le.mpr hold)] at hne ⊢
    cases hcap : x.capability r.deviceId with
    | none =>
        rw [hcap] at hne
        exact absurd hraw hne
    | some s =>
        rw [hcap] at hne
        dsimp only at hne ⊢
        split at hne
        · exact UInt8.lt_irrefl _
        · rw [if_pos hraw]
          exact UInt8.lt_irrefl _
  · rw [migrate_current hold] at hne ⊢
    exact hold

/-- A start leaves a table that agrees with the schemas. -/
theorem Faithful.restart {ok : Bool} (hs : ∀ d s, x.schema d = some s → s.WellFormed)
    (hn : ∀ t, x.nvs = some t → t.NamedCurrent ∧
      t.Pairwise fun r r' => ¬r.Older → ¬r'.Older → ¬r.Rival r')
    (hc : KeepsBinding b x (.restart ok)) : (x.restart b ok).Faithful := by
  obtain ⟨hrival, hfits⟩ := hc
  have hloaded : (x.loaded b ok).NamedCurrent ∧
      (x.loaded b ok).Pairwise fun r r' => ¬r.Older → ¬r'.Older → ¬r.Rival r' := by
    unfold loaded
    cases ok with
    | false => exact ⟨fun r hr => (by cases hr), .nil⟩
    | true =>
        rw [if_pos rfl]
        cases hnvs : x.nvs with
        | none => exact ⟨fun r hr => (by simp at hr), by simp⟩
        | some t =>
            obtain ⟨hcurrent, hdistinct⟩ := hn t hnvs
            exact ⟨fun r hr => hcurrent r (List.mem_of_mem_take hr),
              hdistinct.sublist (List.take_sublist _ t)⟩
  have hdevice : ∀ r, (x.migrate r).deviceId = r.deviceId :=
    fun r => Record.migrate_deviceId (x.capability r.deviceId) r
  have hmigrated : Table.Faithful x.schema ((x.loaded b ok).map x.migrate) := by
    constructor
    · intro m hm s hschema
      obtain ⟨r, hr, rfl⟩ := List.mem_map.mp hm
      exact (hfits r hr s (by rwa [← hdevice])).1
    · apply List.pairwise_map.mpr
      refine (hrival.and hloaded.2).imp fun {r r'} h => ?_
      by_cases hold : r.Older ∨ r'.Older
      · exact h.1 hold
      · rw [not_or] at hold
        rw [migrate_current hold.1, migrate_current hold.2]
        exact h.2 hold.1 hold.2
    · intro m hm
      obtain ⟨r, hr, rfl⟩ := List.mem_map.mp hm
      exact migrate_named (hloaded.1 r hr)
  refine ⟨hs, ?_, hn⟩
  show Table.Faithful x.schema (Table.bootReconcile b x.stored x.capability (x.loaded b ok))
  rw [Table.bootReconcile_eq]
  apply hmigrated.grow (List.length_map ..)
  intro i m hm
  have hmem := List.mem_of_getElem? hm
  refine ⟨m.boot b (x.stored m.deviceId) (x.capability m.deviceId), ?_, ?_⟩
  · show (((x.loaded b ok).map x.migrate).map _)[i]? = _
    rw [List.getElem?_map, hm, Option.map_some]
  obtain ⟨hkey, holder⟩ :=
    Record.boot_same b (x.stored m.deviceId) (x.capability m.deviceId) m
  refine ⟨hkey, fun hne hold => ?_, fun s hschema => ?_⟩
  · rw [hkey.featureId] at hne
    exact hmigrated.current m hmem hne (holder hold)
  have hfit := hmigrated.fits m hmem s hschema
  have htemplated : Templated s m := by
    obtain ⟨r, hr, rfl⟩ := List.mem_map.mp hmem
    exact (hfits r hr s (by rwa [← hdevice])).2
  -- a flag that the start sets is for a feature of the schema
  have hflag : (m.boot b (x.stored m.deviceId) (x.capability m.deviceId)).featureBound = true →
      m.featureBound = true ∨ ∃ feature ∈ s.features, feature.featureId = m.featureId ∧
        semanticTool s feature ≠ none := by
    intro hbound
    refine (Record.boot_bound (fun s' hs' => hs _ s' (capability_eq hs')) hbound).imp_right ?_
    rintro ⟨s', hs', feature, hmem', hid, tool, htool, hcommand⟩
    obtain rfl := Option.some.inj ((capability_eq hs').symm.trans hschema)
    exact ⟨feature, hmem', hid, fun hnone => htemplated feature hmem' hid hnone tool htool hcommand⟩
  constructor
  · intro hraw hbound
    rw [hkey.featureId] at hraw
    rw [hkey.command]
    rcases hflag hbound with hold | ⟨feature, hmem', hid, -⟩
    · exact hfit.raw hraw hold
    · have hvalid := (hs _ s hschema).checked.ids_valid feature hmem'
      rw [hid] at hvalid
      simp [validFeatureId, hraw] at hvalid
  · intro f hf hid hne
    rw [hkey.featureId] at hid hne
    rw [hkey.command]
    obtain ⟨hcommand, hflagged⟩ := hfit.named f hf hid hne
    refine ⟨hcommand, fun hnone => ?_⟩
    rw [Bool.eq_false_iff]
    intro hbound
    rcases hflag hbound with hold | ⟨feature, hmem', hid', hsome⟩
    · rw [hflagged hnone] at hold
      cases hold
    · have hsame := List.inj_on_of_nodup_map (hs _ s hschema).resolved.ids hf hmem'
        (hid.trans hid'.symm)
      exact hsome (hsame ▸ hnone)

/-- **What a step keeps.** -/
theorem Faithful.step (h : x.Faithful) (hc : KeepsBinding b x l) (hs : x.step b l = some x') :
    x'.Faithful := by
  -- a step that leaves table, schemas and NVS
  have hsame : ∀ y : Exposure δ, y.table = x.table → y.schema = x.schema → y.nvs = x.nvs →
      y.Faithful := by
    intro y ht hschema hnvs
    constructor
    · rw [hschema]
      exact h.schemas
    · rw [ht, hschema]
      exact h.table
    · rw [hnvs]
      exact h.nvs
  have hpost : ∀ (y : Exposure δ) (e : Event), y.Faithful → (y.post e).Faithful := by
    intro y e hy
    unfold post
    split
    · exact ⟨hy.schemas, hy.table, hy.nvs⟩
    · exact hy
  -- a schema comes or goes that agrees with the records
  have hschema : ∀ d (s : Option Snapshot), (∀ s', s = some s' → s'.WellFormed ∧
      ∀ r ∈ x.table, r.deviceId = d → r.Fits s') →
        ({ x with schema := Function.update x.schema d s } : Exposure δ).Faithful := by
    intro d s hfit
    refine ⟨fun d' s' hs' => ?_, ⟨fun r hr s' hs' => ?_, h.table.distinct, h.table.current⟩, h.nvs⟩
    · dsimp only at hs'
      by_cases hd : d' = d
      · rw [hd, Function.update_self] at hs'
        exact (hfit s' hs').1
      · rw [Function.update_of_ne hd] at hs'
        exact h.schemas d' s' hs'
    · dsimp only at hs'
      by_cases hd : r.deviceId = d
      · rw [hd, Function.update_self] at hs'
        exact (hfit s' hs').2 r hr hd
      · rw [Function.update_of_ne hd] at hs'
        exact h.table.fits r hr s' hs'
  cases l with
  | commit d s =>
      cases hs
      apply hpost
      apply hschema d (some s)
      intro s' hs'
      cases hs'
      exact hc
  | setSchema d s =>
      cases hs
      exact hschema d s hc
  | setStored d stored =>
      cases hs
      exact hsame _ rfl rfl rfl
  | reconcileAsync d =>
      cases hs
      exact hpost x _ h
  | forgetDevice d =>
      cases hs
      unfold forgetDevice
      split
      · exact hpost x _ h
      · exact hsame _ rfl rfl rfl
  | forgetStep k =>
      simp only [step, forgetStep] at hs
      split at hs
      · cases hs
        exact hsame _ rfl rfl rfl
      · cases hs
        apply hpost
        exact hsame _ rfl rfl rfl
      · cases hs
  | call c saved =>
      cases hs
      exact h.apply hc
  | worker saved =>
      simp only [step] at hs
      cases hqueue : x.queue with
      | nil =>
          rw [hqueue] at hs
          cases hs
      | cons e queue =>
          rw [hqueue] at hs
          cases hs
          have hrest : ({ x with queue := queue } : Exposure δ).Faithful := hsame _ rfl rfl rfl
          cases e with
          | capCommitted d =>
              apply hrest.write
              exact h.table.reconcile (fun s hs => (h.schemas d s hs).resolved)
                fun s hs => capability_eq hs
          | deviceRevoke d => exact hrest.write (h.table.sublist List.filter_sublist) saved
          | dirtyRetry =>
              unfold processEvent
              dsimp only
              split
              · exact .persistSave hrest.schemas hrest.table hrest.nvs saved
              · exact hrest
  | restart ok =>
      cases hs
      exact Faithful.restart h.schemas h.nvs hc

end Exposure

/-! ## Histories -/

variable [DecidableEq δ]

/-- The component from the first start of this firmware on. -/
def freshMachine (b : Build δ) (ok : Exposure δ → Label → Prop) : Machine (Exposure δ) Label where
  init x := ∃ (x₀ : Exposure δ) (loaded : Bool), x₀.Fresh ∧ ok x₀ (.restart loaded) ∧
    x = x₀.restart b loaded
  step := Exposure.step b

/-- The condition on the steps of a history carries the agreement to every state. -/
theorem faithful_of_reachable {b : Build δ} {x : Exposure δ}
    (hx : (freshMachine b (Exposure.KeepsBinding b)).ReachableWhen (Exposure.KeepsBinding b) x) :
    x.Faithful := by
  refine hx.invariant ?_ fun s l s' h hok hs => h.step hok hs
  rintro x ⟨x₀, ok, ⟨hschemas, holder⟩, hc, rfl⟩
  apply Exposure.Faithful.restart hschemas _ hc
  intro t ht
  constructor
  · intro r hr hne
    exact absurd (holder t ht r hr).2 hne
  · apply List.pairwise_of_forall_mem_list
    intro r hr _ _ hcurrent
    exact absurd (holder t ht r hr).1 hcurrent

/-- **Feature binding is exact** right after a reconciliation of a device with a committed schema,
in every history whose steps keep the binding. -/
theorem binding_exact (b : Build δ) (x x' : Exposure δ) (d : DeviceId) (s : Snapshot) (saved : Bool)
    (hx : (freshMachine b (Exposure.KeepsBinding b)).ReachableWhen (Exposure.KeepsBinding b) x)
    (hqueue : x.queue.head? = some (.capCommitted d)) (hcap : x.capability d = some s)
    (hc : Exposure.KeepsBinding b x (.worker saved)) (hs : x.step b (.worker saved) = some x') :
    x'.table.Exact d s := by
  have hfaithful := faithful_of_reachable hx
  have hschema := Exposure.capability_eq hcap
  have hresolved := (hfaithful.schemas d s hschema).resolved
  have htable : x'.table = x.table.reconcile b (some s) d := by
    obtain ⟨queue, hq⟩ : ∃ queue, x.queue = .capCommitted d :: queue := by
      cases hq : x.queue with
      | nil => simp [hq] at hqueue
      | cons e queue =>
          rw [hq, List.head?_cons, Option.some.injEq] at hqueue
          exact ⟨queue, by rw [hqueue]⟩
    simp only [Exposure.step, hq] at hs
    cases hs
    have hsame : ({ x with queue := queue } : Exposure δ).capability d = some s := hcap
    simp only [Exposure.processEvent, hsame]
    cases saved <;> rfl
  rw [htable]
  constructor
  · intro command
    apply Table.isFeatureBound_reconcile_iff hresolved hfaithful.table.current
    · intro r hr hd
      exact hfaithful.table.fits r hr s (by rw [hd, hschema])
    · exact hc d s hqueue hcap
  · exact (hfaithful.table.distinct.bound hresolved hfaithful.table.current).sublist
      List.filter_sublist

theorem relaySchema_wellFormed : relaySchema.WellFormed where
  checked := by constructor <;> decide
  resolved := relaySchema_resolved

/-- The gateway has started with nothing in NVS. -/
def emptyExposure : Exposure (List UInt8) := Exposure.restart plain {} true

/-- A relay is added, and its schema committed. -/
def committedExposure : Exposure (List UInt8) :=
  ({ { emptyExposure with stored := Function.update emptyExposure.stored relayId true } with
    schema := Function.update emptyExposure.schema relayId (some relaySchema) }).post
      (.capCommitted relayId)

theorem binding_exact_relay :
    Table.Exact relayId relaySchema
      ({ committedExposure with queue := [] }.processEvent plain true
        (.capCommitted relayId)).table := by
  have hempty : (freshMachine plain (Exposure.KeepsBinding plain)).ReachableWhen
      (Exposure.KeepsBinding plain) emptyExposure := by
    refine .init ⟨{}, true, ⟨fun d s hs => ?_, fun t ht => ?_⟩, ⟨?_, fun r hr => ?_⟩, rfl⟩
    · cases hs
    · cases ht
    · exact .nil
    · cases hr
  have hstored := hempty.step (l := Label.setStored relayId true) trivial rfl
  have hcommitted := hstored.step (l := Label.commit relayId relaySchema)
    ⟨relaySchema_wellFormed, fun r hr => (by cases hr)⟩ rfl
  refine binding_exact plain committedExposure _ relayId relaySchema true hcommitted rfl rfl ?_ rfl
  intro d s hqueue hcap
  obtain rfl : relayId = d := by
    injection hqueue with hevent
    injection hevent
  cases hcap
  decide

/-- The schemas of a history come from the commit handlers. -/
def Promised {δ : Type} (_ : Exposure δ) : Label → Prop
  | .commit _ s => s.WellFormed
  | .setSchema _ s => ∀ s', s = some s' → s'.WellFormed
  | _ => True

/-- The relay without its feature. -/
def plainSchema : Snapshot := { relaySchema with features := [] }

/-- The record of the command keeps the flag of a feature that is gone. -/
theorem binding_inexact : ¬ ∀ (x x' : Exposure (List UInt8)) (d : DeviceId) (s : Snapshot)
    (saved : Bool), (freshMachine plain Promised).ReachableWhen Promised x →
      x.queue.head? = some (.capCommitted d) → x.capability d = some s →
        x.step plain (.worker saved) = some x' → x'.table.Exact d s := by
  intro h
  have hplain : plainSchema.WellFormed :=
    ⟨by constructor <;> decide, by decide, by decide, fun f hf => (by cases hf)⟩
  have hempty : (freshMachine plain Promised).ReachableWhen Promised emptyExposure := by
    refine .init ⟨{}, true, ⟨fun d s hs => ?_, fun t ht => ?_⟩, trivial, rfl⟩
    · cases hs
    · cases ht
  have hstored := hempty.step (l := Label.setStored relayId true) trivial rfl
  have hcommitted := hstored.step (l := Label.commit relayId relaySchema) relaySchema_wellFormed rfl
  -- the switch is enabled before the first reconciliation, and the feature goes after it
  have henabled := hcommitted.step
    (l := Label.call (.enable relayId switchTool.command false) true) trivial rfl
  have hshown := henabled.step (l := Label.worker true) trivial rfl
  have hx := hshown.step (l := Label.commit relayId plainSchema) hplain rfl
  have hexact := h _ _ relayId plainSchema true hx rfl rfl rfl
  obtain ⟨f, hf, -⟩ := (hexact.bound switchTool.command).mp (by decide)
  cases hf

end BleGateway.McpExposure
