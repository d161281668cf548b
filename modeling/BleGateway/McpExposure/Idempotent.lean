import BleGateway.DeviceSchema.WellFormed
import BleGateway.Lib.Places
import BleGateway.McpExposure.Controls
import BleGateway.McpExposure.Origin

/-! # Reconciling twice

`reconcile_device` for a device with a committed schema, run again on its own result. The first two
loops keep the records in their places, so that what a pass does is said place by place: a record is
reviewed, and the first one of a writable feature is refreshed as well. The last loop removes the
records of features that are gone, and the room they leave is not there before the next pass.
-/

namespace BleGateway.McpExposure

open DeviceSchema Places

variable {δ : Type} [DecidableEq δ]

/-! ## One record -/

namespace Record

variable {b : Build δ} {s : Snapshot} {r : Record δ} {tool : Tool}

/-- The tool of the record's command. -/
def tool? (s : Snapshot) (r : Record δ) : Option Tool :=
  s.tools.find? fun tool => tool.command = r.command

/-- The record with the binding to a feature. -/
def mark (r : Record δ) : Record δ := { r with featureBound := true }

theorem review_found (h : r.tool? s = some tool) : r.review b (some s) =
    { r with
      digest := b.digest tool
      state := if r.state = .enabled ∧ b.digest tool = r.digest then .enabled else .needsReview
      reason :=
        if r.state = .orphaned then .none
        else if r.state = .enabled ∧ b.digest tool ≠ r.digest then .capabilityChanged
        else r.reason } := by
  have hne : s.tools ≠ [] := by
    intro hnil
    simp [tool?, hnil] at h
  unfold tool? at h
  obtain ⟨d, c, state, reason, version, bound, disabled, f, digest⟩ := r
  simp only [review, if_neg hne, h, demote]
  cases state <;> by_cases hdig : b.digest tool = digest <;> simp [hdig]

theorem review_missing (h : r.tool? s = none) (hr : r.state ≠ .enabled) :
    r.review b (some s) = r := by
  unfold tool? at h
  simp only [review, h, demote, if_neg hr, ite_self]

theorem review_missing_state (h : r.tool? s = none) : (r.review b (some s)).state ≠ .enabled ∧
    (r.review b (some s)).digest = r.digest ∧
      ((r.review b (some s)).state = .orphaned → r.state ≠ .needsReview) := by
  unfold tool? at h
  simp only [review, h, demote]
  by_cases htools : s.tools = []
  · rw [if_pos htools]
    by_cases hr : r.state = .enabled
    · simp [hr]
    · rw [if_neg hr]
      exact ⟨hr, rfl, fun ho hn => by simp [ho] at hn⟩
  · rw [if_neg htools]
    by_cases hr : r.state = .enabled
    · simp [hr]
    · rw [if_neg hr]
      exact ⟨hr, rfl, fun ho hn => by simp [ho] at hn⟩

/-- What the review leaves alone. -/
theorem review_same (b : Build δ) (s : Snapshot) (r : Record δ) :
    (r.review b (some s)).deviceId = r.deviceId ∧ (r.review b (some s)).command = r.command ∧
      (r.review b (some s)).featureId = r.featureId ∧
        (r.review b (some s)).namingVersion = r.namingVersion ∧
          (r.review b (some s)).featureBound = r.featureBound := by
  cases h : r.tool? s with
  | some tool =>
      rw [review_found h]
      exact ⟨rfl, rfl, rfl, rfl, rfl⟩
  | none =>
      unfold tool? at h
      simp only [review, h, demote]
      split <;> split <;> exact ⟨rfl, rfl, rfl, rfl, rfl⟩

theorem tool?_review : (r.review b (some s)).tool? s = r.tool? s := by
  rw [tool?, tool?, (review_same b s r).2.1]

/-- A review of an unchanged schema changes nothing more. -/
theorem review_review (b : Build δ) (s : Snapshot) (r : Record δ) :
    (r.review b (some s)).review b (some s) = r.review b (some s) := by
  cases h : r.tool? s with
  | none => exact review_missing (tool?_review.trans h) (review_missing_state h).1
  | some tool =>
      rw [review_found (tool?_review.trans h), review_found h]
      by_cases he : r.state = .enabled ∧ b.digest tool = r.digest <;> simp [he]

theorem review_mark (b : Build δ) (s : Snapshot) (r : Record δ) :
    r.mark.review b (some s) = (r.review b (some s)).mark := by
  cases h : r.tool? s with
  | some tool =>
      have h' : r.mark.tool? s = some tool := h
      rw [review_found h', review_found h]
      rfl
  | none =>
      by_cases hr : r.state = .enabled
      · unfold tool? at h
        simp only [review, mark, h, demote, hr, if_true]
        split <;> rfl
      · have h' : r.mark.tool? s = none := h
        rw [review_missing h' hr, review_missing h hr]

/-! ## Refreshing -/

theorem refresh_fields (b : Build δ) (tool : Tool) (r : Record δ) :
    MCP_EXP_NAMING_VERSION ≤ (r.refresh b tool).namingVersion ∧
      (r.refresh b tool).digest = b.digest tool ∧ (r.refresh b tool).featureBound = true ∧
        (r.refresh b tool).command =
          if r.namingVersion < MCP_EXP_NAMING_VERSION then tool.command else r.command := by
  unfold refresh
  by_cases hn : r.namingVersion < MCP_EXP_NAMING_VERSION
  · by_cases hdig : b.digest tool = r.digest <;> simp [hn, hdig]
  · have hle := UInt8.not_lt.mp hn
    by_cases hdig : b.digest tool = r.digest <;> simp [hn, hdig, hle]

theorem refresh_state (b : Build δ) (tool : Tool) (r : Record δ) :
    ((r.refresh b tool).state = if b.digest tool = r.digest then r.state else .needsReview) ∧
      (r.refresh b tool).reason =
        if b.digest tool = r.digest then r.reason else .capabilityChanged := by
  unfold refresh
  by_cases hn : r.namingVersion < MCP_EXP_NAMING_VERSION <;>
    by_cases hdig : b.digest tool = r.digest <;> simp [hn, hdig]

theorem refresh_fixed (hn : MCP_EXP_NAMING_VERSION ≤ r.namingVersion)
    (hdig : r.digest = b.digest tool) (hb : r.featureBound = true) : r.refresh b tool = r := by
  obtain ⟨d, c, state, reason, version, bound, disabled, f, digest⟩ := r
  obtain rfl : digest = b.digest tool := hdig
  obtain rfl : bound = true := hb
  simp only [refresh, if_neg (UInt8.not_lt.mpr hn), ne_eq, not_true_eq_false, if_false]

/-- The record of an older version comes under a new command with the state of the old one. -/
def Misfiled (b : Build δ) (s : Snapshot) (tool : Tool) (r : Record δ) : Prop :=
  r.namingVersion < MCP_EXP_NAMING_VERSION ∧ r.tool? s = none ∧ b.digest tool = r.digest ∧
    r.state ≠ .needsReview

omit [DecidableEq δ] in
theorem tool?_of_command (hs : (s.tools.map Tool.command).Nodup) (htool : tool ∈ s.tools)
    (h : r.command = tool.command) : r.tool? s = some tool := by
  rw [tool?, h]
  exact Places.find?_key hs htool

theorem review_fixed (h : r.tool? s = some tool) (hdig : r.digest = b.digest tool)
    (ho : r.state ≠ .orphaned) : r.review b (some s) = r := by
  rw [review_found h]
  obtain ⟨d, c, state, reason, version, bound, disabled, f, digest⟩ := r
  obtain rfl : digest = b.digest tool := hdig
  cases state with
  | enabled => simp
  | needsReview => simp
  | orphaned => exact absurd rfl ho

theorem refresh_changed (hn : MCP_EXP_NAMING_VERSION ≤ r.namingVersion)
    (hdig : r.digest = b.digest tool) (hb : r.featureBound = true)
    (hstate : r.state = .needsReview) (hreason : r.reason = .capabilityChanged) {digest : δ}
    (h : b.digest tool ≠ digest) : ({ r with digest := digest }).refresh b tool = r := by
  obtain ⟨d, c, state, reason, version, bound, disabled, f, old⟩ := r
  obtain rfl : old = b.digest tool := hdig
  obtain rfl : bound = true := hb
  obtain rfl : state = .needsReview := hstate
  obtain rfl : reason = .capabilityChanged := hreason
  simp only [refresh, if_neg (UInt8.not_lt.mpr hn), ne_eq, h, not_false_eq_true, if_true]

/-- A misfiled record is orphaned by the review. -/
theorem Misfiled.orphaned (h : r.Misfiled b s tool) (htool : tool ∈ s.tools) :
    (r.review b (some s)).state = .orphaned ∧ b.digest tool = (r.review b (some s)).digest := by
  obtain ⟨-, hmissing, hdig, hstate⟩ := h
  refine ⟨?_, hdig.trans (review_missing_state hmissing).2.1.symm⟩
  have hne : s.tools ≠ [] := List.ne_nil_of_mem htool
  unfold tool? at hmissing
  simp only [review, hmissing, demote, if_neg hne]
  cases he : r.state with
  | enabled => simp
  | needsReview => exact absurd he hstate
  | orphaned => simp [he]

/-- **The first record of a writable feature is settled by one pass** unless it is misfiled. -/
theorem refresh_review_iff (hs : (s.tools.map Tool.command).Nodup) (htool : tool ∈ s.tools) :
    (((r.review b (some s)).refresh b tool).review b (some s)).refresh b tool =
      (r.review b (some s)).refresh b tool ↔ ¬r.Misfiled b s tool := by
  obtain ⟨hversion, hdigest, hbound, hcommand⟩ := refresh_fields b tool (r.review b (some s))
  obtain ⟨hstate, hreason⟩ := refresh_state b tool (r.review b (some s))
  obtain ⟨-, hsame, -, hnaming, -⟩ := review_same b s r
  rw [hsame, hnaming] at hcommand
  generalize hx : (r.review b (some s)).refresh b tool = x at *
  -- from the current version on the command stays
  have hkept : ¬r.namingVersion < MCP_EXP_NAMING_VERSION → x.tool? s = r.tool? s := by
    intro hn
    rw [if_neg hn] at hcommand
    rw [tool?, tool?, hcommand]
  have hnew : r.namingVersion < MCP_EXP_NAMING_VERSION → x.tool? s = some tool := by
    intro hn
    rw [if_pos hn] at hcommand
    exact tool?_of_command hs htool hcommand
  cases hfind : x.tool? s with
  | none =>
      have hn : ¬r.namingVersion < MCP_EXP_NAMING_VERSION := by
        intro hn
        rw [hnew hn] at hfind
        cases hfind
      have hmissing : r.tool? s = none := (hkept hn).symm.trans hfind
      have hne : x.state ≠ .enabled := by
        rw [hstate]
        split
        · exact (review_missing_state hmissing).1
        · simp
      rw [review_missing hfind hne, refresh_fixed hversion hdigest hbound]
      exact iff_of_true rfl fun h => hn h.1
  | some other =>
      by_cases hd : b.digest other = b.digest tool
      · by_cases ho : x.state = .orphaned
        · refine iff_of_false ?_ (not_not.mpr ?_)
          · -- the second pass finds the command
            intro heq
            have hagain := (refresh_state b tool (x.review b (some s))).1
            rw [heq, ho, review_found hfind] at hagain
            simp [ho] at hagain
          · rw [ho] at hstate
            have hdig : b.digest tool = (r.review b (some s)).digest := by
              by_contra hne
              rw [if_neg hne] at hstate
              cases hstate
            rw [if_pos hdig] at hstate
            have hmissing : r.tool? s = none := by
              cases h : r.tool? s with
              | none => rfl
              | some t =>
                  rw [review_found h] at hstate
                  dsimp only at hstate
                  split at hstate <;> cases hstate
            have hn : r.namingVersion < MCP_EXP_NAMING_VERSION := by
              by_contra hn
              rw [hkept hn, hmissing] at hfind
              cases hfind
            obtain ⟨-, hold, hnot⟩ := review_missing_state (b := b) hmissing
            exact ⟨hn, hmissing, hdig.trans hold, hnot hstate.symm⟩
        · rw [review_fixed hfind (hdigest.trans hd.symm) ho,
            refresh_fixed hversion hdigest hbound]
          refine iff_of_true rfl fun hm => ho ?_
          obtain ⟨horphaned, hdig⟩ := hm.orphaned htool
          rw [hstate, if_pos hdig, horphaned]
      · have hn : ¬r.namingVersion < MCP_EXP_NAMING_VERSION := by
          intro hn
          obtain rfl := Option.some.inj ((hnew hn).symm.trans hfind)
          exact hd rfl
        -- the review takes the digest of another tool, and the refreshing takes it back
        have hfound : r.tool? s = some other := (hkept hn).symm.trans hfind
        have hdiffers : b.digest tool ≠ (r.review b (some s)).digest := by
          rw [review_found hfound]
          exact fun h => hd h.symm
        rw [if_neg hdiffers] at hstate hreason
        refine iff_of_true ?_ fun h => hn h.1
        have hreview : x.review b (some s) = { x with digest := b.digest other } := by
          rw [review_found hfind, hstate]
          simp
        rw [hreview]
        exact refresh_changed hversion hdigest hbound hstate hreason fun h => hd h.symm

/-- What the second loop does to the record of a feature. -/
def rebind (b : Build δ) (s : Snapshot) (feature : Feature) (r : Record δ) : Record δ :=
  match semanticTool s feature with
  | some tool => r.refresh b tool
  | none => r

end Record

namespace Table

variable {b : Build δ} {d : DeviceId} {s : Snapshot} {t t' : Table δ} {feature : Feature}
  {r r' : Record δ} {i : Nat} {command : CommandName} {tool : Tool} {features : List Feature}

/-! ## Named records -/

omit [DecidableEq δ] in
theorem markBound_named (h : t[i]? = some r) (hr : r.featureId.text ≠ []) :
    (t.markBound d command)[i]? = some r := by
  unfold markBound
  split
  · rename_i k hk
    obtain ⟨hlt, hp, -⟩ := List.findIdx?_eq_some_iff_getElem.mp hk
    have hne : k ≠ i := by
      intro hki
      subst hki
      obtain ⟨_, rfl⟩ := List.getElem?_eq_some_iff.mp h
      simp [hr] at hp
    rw [List.getElem?_modify_ne _ _ hne, h]
  · exact h

theorem bindFeature_named (h : t[i]? = some r) (hr : r.featureId.text ≠ []) :
    (t.bindFeature b d s feature)[i]? =
      some (if t.findByFeature d feature.featureId = some i then r.rebind b s feature else r) := by
  obtain ⟨hlt, -⟩ := List.getElem?_eq_some_iff.mp h
  have hstep := bindFeature_step b d s t feature
  generalize t.bindFeature b d s feature = u at hstep ⊢
  unfold Record.rebind
  cases hstep with
  | idle htool => simp [h, htool]
  | full _ hfind => simp [h, hfind]
  | created _ hfind =>
      simp only [hfind, reduceCtorEq, if_false]
      exact markBound_named ((List.getElem?_append_left hlt).trans h) hr
  | @refreshed tool k htool hfind =>
      rw [hfind, htool]
      by_cases hk : k = i
      · rw [if_pos (by rw [hk]), hk]
        apply markBound_named
        · rw [List.getElem?_modify_eq, h]
          rfl
        · rwa [(r.demotes_refresh b tool).featureId]
      · rw [if_neg (by simpa using hk)]
        apply markBound_named _ hr
        rw [List.getElem?_modify_ne _ _ hk, h]

/-- A record that is not the first one of a feature in the list is left alone. -/
theorem foldl_named_other (hsub : ∀ f ∈ features, f ∈ s.features) (h : t[i]? = some r)
    (hr : r.featureId.text ≠ [])
    (hother : ∀ f ∈ features, t.findByFeature d f.featureId ≠ some i) :
    (features.foldl (bindFeature b d s) t)[i]? = some r := by
  induction features generalizing t with
  | nil => exact h
  | cons feature features ih =>
      obtain ⟨hlt, -⟩ := List.getElem?_eq_some_iff.mp h
      have hfirst := evolves_bindFeature b d (hsub feature (by simp)) t
      apply ih (fun f hf => hsub f (by simp [hf]))
      · rw [bindFeature_named h hr, if_neg (hother feature (by simp))]
      · intro f hf
        rw [ne_eq, hfirst.findByFeature hlt]
        exact hother f (by simp [hf])

/-- The first record of a feature in the list is refreshed once. -/
theorem foldl_named_own (hsub : ∀ f ∈ features, f ∈ s.features)
    (hids : (features.map Feature.featureId).Nodup) (h : t[i]? = some r)
    (hr : r.featureId.text ≠ []) (hmem : feature ∈ features)
    (hfind : t.findByFeature d feature.featureId = some i) :
    (features.foldl (bindFeature b d s) t)[i]? = some (r.rebind b s feature) := by
  -- the record has the id of one feature only
  have hid : ∀ g, t.findByFeature d g = some i → g = r.featureId := by
    intro g hg
    exact (findByFeature_record hg h).2.symm
  induction features generalizing t with
  | nil => cases hmem
  | cons head features ih =>
      obtain ⟨hlt, -⟩ := List.getElem?_eq_some_iff.mp h
      have hfirst := evolves_bindFeature b d (hsub head (by simp)) t
      have hsub' : ∀ f ∈ features, f ∈ s.features := fun f hf => hsub f (by simp [hf])
      rw [List.map_cons, List.nodup_cons] at hids
      rcases List.mem_cons.mp hmem with rfl | hmem'
      · apply foldl_named_other hsub'
        · rw [bindFeature_named h hr, if_pos hfind]
        · unfold Record.rebind
          split
          · rwa [(r.demotes_refresh b _).featureId]
          · exact hr
        · intro f hf hf'
          rw [hfirst.findByFeature hlt] at hf'
          refine hids.1 (List.mem_map.mpr ⟨f, hf, ?_⟩)
          rw [hid _ hf', hid _ hfind]
      · have hne : t.findByFeature d head.featureId ≠ some i := by
          intro hhead
          refine hids.1 (List.mem_map.mpr ⟨feature, hmem', ?_⟩)
          rw [hid _ hhead, hid _ hfind]
        apply ih hsub' hids.2 _ hmem'
        · rwa [hfirst.findByFeature hlt]
        · intro g hg
          exact hid g ((hfirst.findByFeature hlt).mp hg)
        · rw [bindFeature_named h hr, if_neg hne]

/-! ## Full tables -/

omit [DecidableEq δ] in
/-- A table that has not grown finds the records where they were. -/
theorem Evolves.findByFeature_eq {New : Record δ → Prop} (h : Evolves New t t')
    (hlen : t'.length = t.length) (f : FeatureId) : t'.findByFeature d f = t.findByFeature d f := by
  cases hfind : t'.findByFeature d f with
  | none => exact (h.findByFeature_none hfind).symm
  | some i =>
      have hlt := findByFeature_lt hfind
      exact ((h.findByFeature (by omega)).mp hfind).symm

omit [DecidableEq δ] in
theorem length_markBound (t : Table δ) (d : DeviceId) (command : CommandName) :
    (t.markBound d command).length = t.length := by
  unfold markBound
  split
  · rw [List.length_modify]
  · rfl

/-- A feature that asks for a record and has none. -/
def lacks (d : DeviceId) (s : Snapshot) (t : Table δ) (feature : Feature) : Bool :=
  (semanticTool s feature).isSome && (t.findByFeature d feature.featureId).isNone

theorem length_bindFeature_eq (feature : Feature) : (t.bindFeature b d s feature).length =
    if t.lacks d s feature = true ∧ t.length < b.recordMax then t.length + 1 else t.length := by
  have hstep := bindFeature_step b d s t feature
  generalize t.bindFeature b d s feature = u at hstep ⊢
  unfold lacks
  cases hstep with
  | idle htool => simp [htool]
  | refreshed _ hfind => simp [hfind, length_markBound]
  | full _ _ hfull => simp [Nat.not_lt.mpr hfull]
  | created htool hfind hroom => simp [htool, hfind, hroom, length_markBound]

theorem length_foldl_full (hfull : b.recordMax ≤ t.length) (features : List Feature) :
    (features.foldl (bindFeature b d s) t).length = t.length := by
  induction features generalizing t with
  | nil => rfl
  | cons feature features ih =>
      have hlen : (t.bindFeature b d s feature).length = t.length := by
        rw [length_bindFeature_eq, if_neg (by omega)]
      rw [List.foldl_cons, ih (by omega), hlen]

/-- A feature that is left without a record was refused for want of room, and stays without. -/
theorem foldl_refused (hsub : ∀ f ∈ features, f ∈ s.features)
    (htool : semanticTool s feature = some tool)
    (h : (t.bindFeature b d s feature).findByFeature d feature.featureId = none) :
    (features.foldl (bindFeature b d s) (t.bindFeature b d s feature)).findByFeature d
      feature.featureId = none := by
  have hnamed := semanticTool_named htool
  have hfull : b.recordMax ≤ t.length ∧ t.bindFeature b d s feature = t := by
    have hstep := bindFeature_step b d s t feature
    generalize t.bindFeature b d s feature = u at hstep h ⊢
    cases hstep with
    | idle hnone => cases htool.symm.trans hnone
    | full _ _ hfull => exact ⟨hfull, rfl⟩
    | @refreshed tool k _ hfind =>
        have hev : Evolves (fun _ : Record δ => True) t
            (markBound (t.modify k fun r => r.refresh b tool) d tool.command) :=
          .trans (fun _ _ h _ => h) (.modify fun r _ => r.demotes_refresh b tool)
            (evolves_markBound _ d tool.command)
        cases hfind.symm.trans (hev.findByFeature_none h)
    | @created tool =>
        have hmark : Evolves (fun _ : Record δ => True)
            (t ++ [Record.semantic b d feature.featureId tool])
            (markBound (t ++ [Record.semantic b d feature.featureId tool]) d tool.command) :=
          evolves_markBound _ d tool.command
        rcases findByFeature_eq_none_iff.mp (hmark.findByFeature_none h) with hid | hnone
        · exact absurd hid hnamed
        · exact absurd ⟨rfl, rfl⟩ (hnone _ (List.mem_append_right _ (List.mem_singleton.mpr rfl)))
  rw [hfull.2] at h ⊢
  rw [(evolves_foldl b d features hsub t).findByFeature_eq (length_foldl_full hfull.1 features)]
  exact h

/-! ## Raw records -/

/-- The place of the raw record that is marked for a command. -/
def rawPlace (t : Table δ) (d : DeviceId) (command : CommandName) : Option Nat :=
  t.findIdx? fun r => r.deviceId = d && (r.command = command && r.featureId.text = [])

section
omit [DecidableEq δ]

theorem markBound_eq (t : Table δ) (d : DeviceId) (command : CommandName) :
    t.markBound d command = match t.rawPlace d command with
      | some i => t.modify i Record.mark
      | none => t := rfl

theorem getElem?_markBound (h : t[i]? = some r) : (t.markBound d command)[i]? =
    some (if t.rawPlace d command = some i then r.mark else r) := by
  rw [markBound_eq]
  cases hraw : t.rawPlace d command with
  | none => simp [h]
  | some k =>
      dsimp only
      by_cases hk : k = i
      · rw [hk, List.getElem?_modify_eq, h, if_pos rfl]
        rfl
      · rw [List.getElem?_modify_ne _ _ hk, h, if_neg (by simpa using hk)]

theorem rawPlace_markBound (t : Table δ) (d d' : DeviceId) (command command' : CommandName) :
    (t.markBound d command).rawPlace d' command' = t.rawPlace d' command' := by
  rw [markBound_eq]
  cases t.rawPlace d command with
  | none => rfl
  | some k => exact findIdx?_modify fun _ _ => rfl

end

theorem rawPlace_refresh {k : Nat} {f : FeatureId} (hfind : t.findByFeature d f = some k)
    (tool : Tool) (d' : DeviceId) (command : CommandName) :
    (Table.rawPlace (t.modify k fun r => r.refresh b tool) d' command) = t.rawPlace d' command := by
  obtain ⟨hf, ⟨r, hr, -, hid⟩, -⟩ := findByFeature_eq_some_iff.mp hfind
  apply findIdx?_modify
  intro r' hr'
  cases hr.symm.trans hr'
  -- the record of a feature is not raw
  rw [(r.demotes_refresh b tool).featureId, hid]
  simp [hf]

omit [DecidableEq δ] in
theorem rawPlace_append (hr : r.featureId.text ≠ []) (d' : DeviceId) (command : CommandName) :
    Table.rawPlace (t ++ [r]) d' command = t.rawPlace d' command := by
  unfold rawPlace
  rw [List.findIdx?_append]
  cases List.findIdx? _ t with
  | none => simp [List.findIdx?_cons, hr]
  | some k => rfl

theorem rawPlace_bindFeature (d' : DeviceId) (command : CommandName) :
    (t.bindFeature b d s feature).rawPlace d' command = t.rawPlace d' command := by
  have hstep := bindFeature_step b d s t feature
  generalize t.bindFeature b d s feature = u at hstep ⊢
  cases hstep with
  | idle => rfl
  | full => rfl
  | refreshed _ hfind => rw [rawPlace_markBound, rawPlace_refresh hfind]
  | created htool => rw [rawPlace_markBound, rawPlace_append (semanticTool_named htool)]

/-- The feature has a record after its step, and the raw record of its command is at the place. -/
def Marks (b : Build δ) (d : DeviceId) (s : Snapshot) (t : Table δ) (feature : Feature)
    (i : Nat) : Prop :=
  ∃ tool, semanticTool s feature = some tool ∧ t.rawPlace d tool.command = some i ∧
    (t.bindFeature b d s feature).findByFeature d feature.featureId ≠ none

theorem bindFeature_raw (feature : Feature) (h : t[i]? = some r) (hr : r.featureId.text = []) :
    (Marks b d s t feature i → (t.bindFeature b d s feature)[i]? = some r.mark) ∧
      (¬Marks b d s t feature i → (t.bindFeature b d s feature)[i]? = some r) := by
  obtain ⟨hlt, -⟩ := List.getElem?_eq_some_iff.mp h
  -- with a record for the feature the step marks the raw record in the table `u`
  have hmarked : ∀ (tool : Tool) (u : Table δ), semanticTool s feature = some tool →
      t.bindFeature b d s feature = u.markBound d tool.command → u[i]? = some r →
      u.rawPlace d tool.command = t.rawPlace d tool.command →
      u.findByFeature d feature.featureId ≠ none →
      (Marks b d s t feature i → (t.bindFeature b d s feature)[i]? = some r.mark) ∧
        (¬Marks b d s t feature i → (t.bindFeature b d s feature)[i]? = some r) := by
    intro tool u htool hu hr' hraw hserved
    have hserved' : (u.markBound d tool.command).findByFeature d feature.featureId ≠ none := by
      intro hnone
      have hev : Evolves (fun _ : Record δ => True) u (u.markBound d tool.command) :=
        evolves_markBound u d tool.command
      exact hserved (hev.findByFeature_none hnone)
    unfold Marks
    rw [hu, getElem?_markBound hr', hraw]
    constructor
    · rintro ⟨tool', htool', hplace, -⟩
      obtain rfl := Option.some.inj (htool.symm.trans htool')
      rw [if_pos hplace]
    · intro hnot
      rw [if_neg fun hplace => hnot ⟨tool, htool, hplace, hserved'⟩]
  have hstep := bindFeature_step b d s t feature
  generalize hu : t.bindFeature b d s feature = u at hstep hmarked ⊢
  cases hstep with
  | idle htool => exact ⟨fun hm => by simp [Marks, htool] at hm, fun _ => h⟩
  | full _ hfind => exact ⟨fun hm => by simp [Marks, hu, hfind] at hm, fun _ => h⟩
  | @refreshed tool k htool hfind =>
      have hki : k ≠ i := by
        rintro rfl
        rw [(findByFeature_record hfind h).2] at hr
        exact semanticTool_named htool hr
      have hev : Evolves (fun _ : Record δ => True) t
          (t.modify k fun r => r.refresh b tool) := .modify fun r _ => r.demotes_refresh b tool
      apply hmarked tool _ htool rfl
      · rw [List.getElem?_modify_ne _ _ hki, h]
      · exact rawPlace_refresh hfind tool d tool.command
      · intro hnone
        cases hfind.symm.trans (hev.findByFeature_none hnone)
  | @created tool htool =>
      have hnamed := semanticTool_named htool
      apply hmarked tool _ htool rfl
      · exact (List.getElem?_append_left hlt).trans h
      · exact rawPlace_append hnamed d tool.command
      · intro hnone
        rcases findByFeature_eq_none_iff.mp hnone with hid | hall
        · exact hnamed hid
        · exact hall _ (List.mem_append_right _ (List.mem_singleton.mpr rfl)) ⟨rfl, rfl⟩

/-- A raw record is marked at most, and only for a feature that ends up with a record. -/
theorem foldl_raw_cases (hsub : ∀ f ∈ features, f ∈ s.features) (h : t[i]? = some r)
    (hr : r.featureId.text = []) :
    (features.foldl (bindFeature b d s) t)[i]? = some r ∨
      ((features.foldl (bindFeature b d s) t)[i]? = some r.mark ∧
        ∃ f ∈ features, ∃ tool, semanticTool s f = some tool ∧
          t.rawPlace d tool.command = some i ∧
            (features.foldl (bindFeature b d s) t).findByFeature d f.featureId ≠ none) := by
  induction features generalizing t r with
  | nil => exact .inl h
  | cons feature features ih =>
      have hsub' : ∀ f ∈ features, f ∈ s.features := fun f hf => hsub f (by simp [hf])
      have hrest := evolves_foldl b d features hsub' (t.bindFeature b d s feature)
      obtain ⟨hmarks, hnot⟩ := bindFeature_raw (b := b) (d := d) (s := s) feature h hr
      rw [List.foldl_cons]
      by_cases hm : Marks b d s t feature i
      · have hmarked : (features.foldl (bindFeature b d s) (t.bindFeature b d s feature))[i]? =
            some r.mark := by
          rcases ih hsub' (hmarks hm) hr with hsame | ⟨hsame, -⟩ <;> exact hsame
        obtain ⟨tool, htool, hplace, hserved⟩ := hm
        exact .inr ⟨hmarked, feature, by simp, tool, htool, hplace, fun hnone =>
          hserved (hrest.findByFeature_none hnone)⟩
      · rcases ih hsub' (hnot hm) hr with hsame | ⟨hsame, f, hf, tool, htool, hplace, hserved⟩
        · exact .inl hsame
        · rw [rawPlace_bindFeature] at hplace
          exact .inr ⟨hsame, f, by simp [hf], tool, htool, hplace, hserved⟩

theorem foldl_raw_marked (hsub : ∀ f ∈ features, f ∈ s.features) (h : t[i]? = some r)
    (hr : r.featureId.text = []) (hmem : feature ∈ features)
    (htool : semanticTool s feature = some tool) (hplace : t.rawPlace d tool.command = some i)
    (hserved : (features.foldl (bindFeature b d s) t).findByFeature d feature.featureId ≠ none) :
    (features.foldl (bindFeature b d s) t)[i]? = some r.mark := by
  induction features generalizing t r with
  | nil => cases hmem
  | cons head features ih =>
      have hsub' : ∀ f ∈ features, f ∈ s.features := fun f hf => hsub f (by simp [hf])
      obtain ⟨hmarks, hnot⟩ := bindFeature_raw (b := b) (d := d) (s := s) head h hr
      rw [List.foldl_cons] at hserved ⊢
      rcases List.mem_cons.mp hmem with rfl | hmem'
      · have hm : Marks b d s t feature i :=
          ⟨tool, htool, hplace, fun hnone => hserved (foldl_refused hsub' htool hnone)⟩
        rcases foldl_raw_cases hsub' (hmarks hm) hr with hsame | ⟨hsame, -⟩ <;> exact hsame
      · have hplace' : (t.bindFeature b d s head).rawPlace d tool.command = some i := by
          rw [rawPlace_bindFeature, hplace]
        by_cases hm : Marks b d s t head i
        · exact ih (r := r.mark) hsub' (hmarks hm) hr hmem' hplace' hserved
        · exact ih hsub' (hnot hm) hr hmem' hplace' hserved

/-! ## New records -/

theorem bindFeature_new (h : (t.bindFeature b d s feature)[i]? = some r') (hi : t.length ≤ i) :
    ∃ tool, semanticTool s feature = some tool ∧
      r' = Record.semantic b d feature.featureId tool := by
  obtain ⟨hlt, -⟩ := List.getElem?_eq_some_iff.mp h
  have hstep := bindFeature_step b d s t feature
  generalize t.bindFeature b d s feature = u at hstep h hlt
  cases hstep with
  | idle => omega
  | full => omega
  | refreshed =>
      rw [length_markBound, List.length_modify] at hlt
      omega
  | @created tool htool =>
      rw [length_markBound, List.length_append, List.length_singleton] at hlt
      have hlast : i = t.length := by omega
      have hnew : (t ++ [Record.semantic b d feature.featureId tool])[i]? =
          some (.semantic b d feature.featureId tool) := by
        rw [hlast]
        simp
      rw [markBound_named hnew (semanticTool_named htool)] at h
      exact ⟨tool, htool, (Option.some.inj h).symm⟩

/-- A new record is just the one that is created for a feature. -/
theorem foldl_new (hsub : ∀ f ∈ features, f ∈ s.features)
    (hids : (features.map Feature.featureId).Nodup)
    (h : (features.foldl (bindFeature b d s) t)[i]? = some r') (hi : t.length ≤ i) :
    ∃ f ∈ features, ∃ tool, semanticTool s f = some tool ∧
      r' = Record.semantic b d f.featureId tool := by
  induction features generalizing t with
  | nil =>
      obtain ⟨hlt, -⟩ := List.getElem?_eq_some_iff.mp h
      exact absurd hlt (Nat.not_lt.mpr hi)
  | cons feature features ih =>
      have hsub' : ∀ f ∈ features, f ∈ s.features := fun f hf => hsub f (by simp [hf])
      rw [List.map_cons, List.nodup_cons] at hids
      rw [List.foldl_cons] at h
      by_cases hlt : i < (t.bindFeature b d s feature).length
      · have hfirst := List.getElem?_eq_getElem hlt
        obtain ⟨tool, htool, hnew⟩ := bindFeature_new hfirst hi
        -- the features that are left have other ids
        have hkeep := foldl_named_other (b := b) (d := d) hsub' hfirst
          (by rw [hnew]; exact semanticTool_named htool) (fun f hf hfind => by
            have hid := (findByFeature_record hfind hfirst).2
            rw [hnew] at hid
            exact hids.1 (List.mem_map.mpr ⟨f, hf, hid.symm⟩))
        rw [h] at hkeep
        exact ⟨feature, by simp, tool, htool, (Option.some.inj hkeep).trans hnew⟩
      · obtain ⟨f, hf, hrest⟩ := ih hsub' hids.2 h (by omega)
        exact ⟨f, by simp [hf], hrest⟩

/-! ## Room -/

theorem findByFeature_bindFeature_none {f : FeatureId} (hmem : feature ∈ s.features)
    (hne : f ≠ feature.featureId) : (t.bindFeature b d s feature).findByFeature d f = none ↔
      t.findByFeature d f = none := by
  have hev := evolves_bindFeature b d hmem t
  constructor
  · exact hev.findByFeature_none
  · intro hnone
    rw [findByFeature_eq_none_iff] at hnone ⊢
    refine hnone.imp_right fun hall r' hr' hboth => ?_
    obtain ⟨i, hi⟩ := List.mem_iff_getElem?.mp hr'
    by_cases hlt : i < t.length
    · obtain ⟨r₁, hr₁, hdem⟩ := hev.old i _ (List.getElem?_eq_getElem hlt)
      obtain rfl := Option.some.inj (hr₁.symm.trans hi)
      rw [hdem.deviceId, hdem.featureId] at hboth
      exact hall _ (List.getElem_mem hlt) hboth
    · obtain ⟨tool, -, rfl⟩ := bindFeature_new hi (by omega)
      exact hne hboth.2.symm

theorem lacks_bindFeature {f : Feature} (hmem : feature ∈ s.features)
    (hne : f.featureId ≠ feature.featureId) :
    (t.bindFeature b d s feature).lacks d s f = t.lacks d s f := by
  have hnone := findByFeature_bindFeature_none (b := b) (d := d) (t := t) hmem hne
  unfold lacks
  congr 1
  rw [Bool.eq_iff_iff, Option.isNone_iff_eq_none, Option.isNone_iff_eq_none, hnone]

/-- A feature that gets a record is not without one any more. -/
theorem lacks_bindFeature_self (hmem : feature ∈ s.features) :
    (t.bindFeature b d s feature).lacks d s feature =
      (t.lacks d s feature && decide (b.recordMax ≤ t.length)) := by
  cases htool : semanticTool s feature with
  | none => simp [lacks, htool]
  | some tool =>
      have hlen := length_bindFeature_eq (b := b) (d := d) (s := s) (t := t) feature
      have hev := evolves_bindFeature b d hmem t
      by_cases hroom : t.lacks d s feature = true ∧ t.length < b.recordMax
      · rw [if_pos hroom] at hlen
        have hlast : t.length < (t.bindFeature b d s feature).length := by omega
        obtain ⟨tool', -, hnew⟩ := bindFeature_new (List.getElem?_eq_getElem hlast) (Nat.le_refl _)
        have hhas : (t.bindFeature b d s feature).findByFeature d feature.featureId ≠ none := by
          intro hnone
          rcases findByFeature_eq_none_iff.mp hnone with hid | hall
          · exact semanticTool_named htool hid
          · refine hall _ (List.getElem_mem hlast) ?_
            rw [hnew]
            exact ⟨rfl, rfl⟩
        have hfull : ¬b.recordMax ≤ t.length := by omega
        simp [lacks, htool, Option.isNone_eq_false_iff, Option.isSome_iff_ne_none, hhas, hfull]
      · rw [if_neg hroom] at hlen
        have hsame : (t.bindFeature b d s feature).lacks d s feature = t.lacks d s feature := by
          rw [lacks, lacks, hev.findByFeature_eq hlen]
        rw [hsame]
        cases hl : t.lacks d s feature with
        | false => rfl
        | true =>
            have hfull : b.recordMax ≤ t.length := by
              by_contra hnot
              exact hroom ⟨hl, by omega⟩
            simp [hfull]

/-- The number of features that ask for a record and have none. -/
def lacking (d : DeviceId) (s : Snapshot) (t : Table δ) (features : List Feature) : Nat :=
  features.countP (t.lacks d s)

theorem lacking_bindFeature (hmem : feature ∈ s.features)
    (hne : feature.featureId ∉ features.map Feature.featureId) :
    (t.bindFeature b d s feature).lacking d s features = t.lacking d s features := by
  apply List.countP_congr
  intro f hf
  rw [lacks_bindFeature hmem]
  intro heq
  exact hne (List.mem_map.mpr ⟨f, hf, heq⟩)

theorem lacks_foldl {f : Feature} (hsub : ∀ g ∈ features, g ∈ s.features)
    (hne : f.featureId ∉ features.map Feature.featureId) :
    (features.foldl (bindFeature b d s) t).lacks d s f = t.lacks d s f := by
  induction features generalizing t with
  | nil => rfl
  | cons head features ih =>
      rw [List.map_cons, List.mem_cons, not_or] at hne
      rw [List.foldl_cons, ih (fun g hg => hsub g (by simp [hg])) hne.2]
      exact lacks_bindFeature (hsub head (by simp)) hne.1

/-- The features without a record get one while there is room. -/
theorem foldl_room (hsub : ∀ f ∈ features, f ∈ s.features)
    (hids : (features.map Feature.featureId).Nodup) :
    (features.foldl (bindFeature b d s) t).length =
        t.length + min (t.lacking d s features) (b.recordMax - t.length) ∧
      (features.foldl (bindFeature b d s) t).lacking d s features =
        t.lacking d s features - min (t.lacking d s features) (b.recordMax - t.length) := by
  induction features generalizing t with
  | nil => simp [lacking]
  | cons head features ih =>
      have hsub' : ∀ f ∈ features, f ∈ s.features := fun f hf => hsub f (by simp [hf])
      have hmem := hsub head (by simp)
      rw [List.map_cons, List.nodup_cons] at hids
      obtain ⟨hlength, hleft⟩ := ih (t := t.bindFeature b d s head) hsub' hids.2
      have hlen := length_bindFeature_eq (b := b) (d := d) (s := s) (t := t) head
      have hrest : (t.bindFeature b d s head).lacking d s features = t.lacking d s features :=
        lacking_bindFeature hmem hids.1
      have hcons : ∀ u : Table δ, u.lacking d s (head :: features) =
          u.lacking d s features + if u.lacks d s head = true then 1 else 0 := by
        intro u
        exact List.countP_cons
      have hhead : (features.foldl (bindFeature b d s) (t.bindFeature b d s head)).lacks d s head =
          (t.lacks d s head && decide (b.recordMax ≤ t.length)) :=
        (lacks_foldl hsub' hids.1).trans (lacks_bindFeature_self hmem)
      rw [List.foldl_cons, hcons, hcons, hhead, hlength, hleft, hrest, hlen]
      -- the head takes a place if it asks for one and there is room
      by_cases hl : t.lacks d s head = true
      · by_cases hroom : b.recordMax ≤ t.length
        · simp only [hl, hroom, decide_true, Bool.and_self, if_true, true_and]
          rw [if_neg (by omega)]
          omega
        · simp only [hl, hroom, decide_false, Bool.and_false, if_true, true_and,
            Bool.false_eq_true, if_false]
          rw [if_pos (by omega)]
          omega
      · simp only [hl, Bool.false_and, Bool.false_eq_true, if_false, false_and]
        omega

/-! ## Removing first -/

section
omit [DecidableEq δ]

theorem stays_of_feature (hmem : feature ∈ s.features) (h : r.featureId = feature.featureId) :
    r.stays (some s) d = true := by
  have hany : (s.features.any fun f => decide (f.featureId = r.featureId)) = true :=
    List.any_eq_true.mpr ⟨feature, hmem, by simp [h]⟩
  simp [Record.stays, Record.featureExists, hany]

theorem stays_congr {cap : Option Snapshot} (hd : r'.deviceId = r.deviceId)
    (hf : r'.featureId = r.featureId) : r'.stays cap d = r.stays cap d := by
  unfold Record.stays Record.featureExists
  rw [hd, hf]

theorem findByFeature_unbindStale (hmem : feature ∈ s.features) (t : Table δ) :
    (t.unbindStale (some s) d).findByFeature d feature.featureId =
      (t.findByFeature d feature.featureId).map (place (·.stays (some s) d) t) := by
  unfold findByFeature unbindStale
  by_cases hf : feature.featureId.text = []
  · rw [if_pos hf, if_pos hf]
    rfl
  · rw [if_neg hf, if_neg hf]
    apply findIdx?_filter_eq
    intro r _ hr
    simp only [Bool.and_eq_true, decide_eq_true_eq] at hr
    exact stays_of_feature hmem hr.2

theorem rawPlace_unbindStale (t : Table δ) (d : DeviceId) (command : CommandName) :
    (t.unbindStale (some s) d).rawPlace d command =
      (t.rawPlace d command).map (place (·.stays (some s) d) t) := by
  apply findIdx?_filter_eq
  intro r _ hr
  simp only [Bool.and_eq_true, decide_eq_true_eq] at hr
  simp [Record.stays, hr.2.2]

theorem unbindStale_modify {g : Record δ → Record δ} (h : t[i]? = some r)
    (hr : r.stays (some s) d = true) (hg : (g r).stays (some s) d = true) :
    Table.unbindStale (some s) d (t.modify i g) =
      (t.unbindStale (some s) d).modify (place (·.stays (some s) d) t i) g :=
  filter_modify h hr hg

theorem unbindStale_markBound (t : Table δ) (d : DeviceId) (command : CommandName) :
    (t.markBound d command).unbindStale (some s) d =
      (t.unbindStale (some s) d).markBound d command := by
  rw [markBound_eq, markBound_eq, rawPlace_unbindStale]
  cases hraw : t.rawPlace d command with
  | none => rfl
  | some k =>
      obtain ⟨hk, hp, -⟩ := List.findIdx?_eq_some_iff_getElem.mp hraw
      simp only [Bool.and_eq_true, decide_eq_true_eq] at hp
      have hstays : t[k].stays (some s) d = true := by simp [Record.stays, hp.2.2]
      exact unbindStale_modify (List.getElem?_eq_getElem hk) hstays hstays

theorem lacks_unbindStale (hmem : feature ∈ s.features) (t : Table δ) :
    (t.unbindStale (some s) d).lacks d s feature = t.lacks d s feature := by
  rw [lacks, lacks, findByFeature_unbindStale hmem, Option.isNone_map]

end

/-- The stale records may as well go before a step, if their room goes with them. -/
theorem unbindStale_bindFeature {m : Nat} (hmem : feature ∈ s.features)
    (hroom : b.recordMax ≤ t.length ↔ m ≤ (t.unbindStale (some s) d).length) :
    (t.bindFeature b d s feature).unbindStale (some s) d =
      (t.unbindStale (some s) d).bindFeature { b with recordMax := m } d s feature := by
  unfold bindFeature
  cases htool : semanticTool s feature with
  | none => rfl
  | some tool =>
      dsimp only
      rw [findByFeature_unbindStale hmem]
      cases hfind : t.findByFeature d feature.featureId with
      | some k =>
          obtain ⟨-, ⟨r, hr, -, hid⟩, -⟩ := findByFeature_eq_some_iff.mp hfind
          dsimp only [Option.map_some]
          rw [unbindStale_markBound, unbindStale_modify hr]
          · rfl
          · exact stays_of_feature hmem hid
          · exact stays_of_feature hmem ((r.demotes_refresh b tool).featureId.trans hid)
      | none =>
          dsimp only [Option.map_none]
          by_cases hfull : b.recordMax ≤ t.length
          · rw [if_pos hfull, if_pos (hroom.mp hfull)]
          · have hnew : (Record.semantic b d feature.featureId tool).stays (some s) d = true :=
              stays_of_feature hmem rfl
            have happend : Table.unbindStale (some s) d
                (t ++ [Record.semantic b d feature.featureId tool]) =
                  t.unbindStale (some s) d ++ [Record.semantic b d feature.featureId tool] := by
              rw [unbindStale, List.filter_append, List.filter_cons_of_pos hnew]
              rfl
            rw [if_neg hfull, if_neg (fun h => hfull (hroom.mpr h)), unbindStale_markBound, happend]
            rfl

theorem unbindStale_foldl {m : Nat} (hsub : ∀ f ∈ features, f ∈ s.features)
    (hroom : b.recordMax + (t.unbindStale (some s) d).length = m + t.length) :
    Table.unbindStale (some s) d (features.foldl (bindFeature b d s) t) =
      features.foldl (bindFeature { b with recordMax := m } d s) (t.unbindStale (some s) d) := by
  induction features generalizing t with
  | nil => rfl
  | cons head features ih =>
      have hmem := hsub head (by simp)
      have hstep : (t.bindFeature b d s head).unbindStale (some s) d =
          (t.unbindStale (some s) d).bindFeature { b with recordMax := m } d s head :=
        unbindStale_bindFeature hmem (by omega)
      rw [List.foldl_cons, List.foldl_cons, ← hstep]
      apply ih fun f hf => hsub f (by simp [hf])
      -- both tables grow in the same steps
      rw [hstep, length_bindFeature_eq, length_bindFeature_eq, lacks_unbindStale hmem]
      dsimp only
      by_cases hl : t.lacks d s head = true
      · by_cases hlt : t.length < b.recordMax
        · rw [if_pos ⟨hl, by omega⟩, if_pos ⟨hl, hlt⟩]
          omega
        · rw [if_neg (fun h => hlt (by omega)), if_neg (fun h => hlt h.2)]
          exact hroom
      · rw [if_neg (fun h => hl h.1), if_neg (fun h => hl h.1)]
        exact hroom

theorem unbindStale_reviewed {m : Nat} (t : Table δ) :
    (t.reviewed b (some s) d).unbindStale (some s) d =
      (t.unbindStale (some s) d).reviewed { b with recordMax := m } (some s) d := by
  have hsame : ∀ r : Record δ,
      (if r.deviceId = d then r.review b (some s) else r).stays (some s) d =
        r.stays (some s) d := by
    intro r
    split
    · obtain ⟨hd, -, hf, -⟩ := Record.review_same b s r
      exact stays_congr hd hf
    · rfl
  unfold reviewed unbindStale
  rw [List.filter_map]
  congr 1
  exact List.filter_congr fun r _ => hsame r

/-- A pass over a table is one over the table without its stale records and their room. -/
theorem reconcile_eq {m : Nat}
    (hroom : b.recordMax + (t.unbindStale (some s) d).length = m + t.length) :
    t.reconcile b (some s) d =
      (t.unbindStale (some s) d).bound { b with recordMax := m } (some s) d := by
  unfold reconcile bound
  dsimp only
  rw [← unbindStale_reviewed (b := b) (m := m)]
  apply unbindStale_foldl fun _ h => h
  rw [unbindStale_reviewed (m := m), reviewed, reviewed, List.length_map, List.length_map]
  exact hroom

/-! ## One pass, place by place -/

theorem length_reviewed (t : Table δ) (cap : Option Snapshot) :
    (t.reviewed b cap d).length = t.length := by
  rw [reviewed, List.length_map]

theorem getElem?_reviewed (h : t[i]? = some r) (hd : r.deviceId = d) (cap : Option Snapshot) :
    (t.reviewed b cap d)[i]? = some (r.review b cap) := by
  rw [reviewed, List.getElem?_map, h, Option.map_some, if_pos hd]

theorem findByFeature_reviewed (t : Table δ) (cap : Option Snapshot) (f : FeatureId) :
    (t.reviewed b cap d).findByFeature d f = t.findByFeature d f := by
  have hev : Evolves (fun _ : Record δ => True) t (t.reviewed b cap d) := evolves_reviewed b cap d t
  exact hev.findByFeature_eq (length_reviewed t cap) f

theorem rawPlace_reviewed (t : Table δ) (d' : DeviceId) (command : CommandName) :
    (t.reviewed b (some s) d).rawPlace d' command = t.rawPlace d' command := by
  unfold rawPlace reviewed
  rw [List.findIdx?_map]
  congr 1
  funext r
  dsimp only [Function.comp]
  split
  · obtain ⟨hd, hcommand, hf, -⟩ := Record.review_same b s r
    rw [hd, hcommand, hf]
  · rfl

theorem rawPlace_foldl (features : List Feature) (t : Table δ) (d' : DeviceId)
    (command : CommandName) : (features.foldl (bindFeature b d s) t).rawPlace d' command =
      t.rawPlace d' command := by
  induction features generalizing t with
  | nil => rfl
  | cons head features ih => rw [List.foldl_cons, ih, rawPlace_bindFeature]

theorem rawPlace_bound (t : Table δ) (d' : DeviceId) (command : CommandName) :
    (t.bound b (some s) d).rawPlace d' command = t.rawPlace d' command :=
  (rawPlace_foldl s.features _ d' command).trans (rawPlace_reviewed t d' command)

/-- The record is the first one of a writable feature. -/
def Serves (d : DeviceId) (s : Snapshot) (t : Table δ) (i : Nat) (tool : Tool) : Prop :=
  ∃ feature ∈ s.features, semanticTool s feature = some tool ∧
    t.findByFeature d feature.featureId = some i

/-- A record of a feature is reviewed, and refreshed if it is the first one. -/
theorem bound_own (hs : s.Resolved) (h : t[i]? = some r) (hd : r.deviceId = d)
    (hserves : t.Serves d s i tool) :
    (t.bound b (some s) d)[i]? = some ((r.review b (some s)).refresh b tool) := by
  obtain ⟨feature, hmem, htool, hfind⟩ := hserves
  have hid : (r.review b (some s)).featureId = feature.featureId := by
    rw [(Record.review_same b s r).2.2.1, (findByFeature_record hfind h).2]
  have hown := foldl_named_own (b := b) (d := d) (fun _ h => h) hs.ids
    (getElem?_reviewed (b := b) h hd (some s)) (by rw [hid]; exact semanticTool_named htool) hmem
    (by rw [findByFeature_reviewed, hfind])
  unfold Record.rebind at hown
  rw [htool] at hown
  exact hown

theorem bound_named (hs : s.Resolved) (h : t[i]? = some r) (hd : r.deviceId = d)
    (hr : r.featureId.text ≠ []) (hserves : ∀ tool, ¬t.Serves d s i tool) :
    (t.bound b (some s) d)[i]? = some (r.review b (some s)) := by
  have hreviewed := getElem?_reviewed (b := b) h hd (some s)
  have hnamed : (r.review b (some s)).featureId.text ≠ [] := by
    rwa [(Record.review_same b s r).2.2.1]
  by_cases hfirst : ∃ feature ∈ s.features, t.findByFeature d feature.featureId = some i
  · -- the feature is not writable
    obtain ⟨feature, hmem, hfind⟩ := hfirst
    have hown := foldl_named_own (b := b) (d := d) (fun _ h => h) hs.ids hreviewed hnamed hmem
      (by rw [findByFeature_reviewed, hfind])
    unfold Record.rebind at hown
    cases htool : semanticTool s feature with
    | none =>
        rw [htool] at hown
        exact hown
    | some tool => exact absurd ⟨feature, hmem, htool, hfind⟩ (hserves tool)
  · apply foldl_named_other (fun _ h => h) hreviewed hnamed
    intro f hf hfind
    rw [findByFeature_reviewed] at hfind
    exact hfirst ⟨f, hf, hfind⟩

/-- A raw record that is marked, for a feature that has a record in the end. -/
def MarkedFor (b : Build δ) (d : DeviceId) (s : Snapshot) (t : Table δ) (i : Nat) : Prop :=
  ∃ feature ∈ s.features, ∃ tool, semanticTool s feature = some tool ∧
    t.rawPlace d tool.command = some i ∧
      (t.bound b (some s) d).findByFeature d feature.featureId ≠ none

theorem bound_raw (h : t[i]? = some r) (hd : r.deviceId = d) (hr : r.featureId.text = []) :
    (t.MarkedFor b d s i → (t.bound b (some s) d)[i]? = some (r.review b (some s)).mark) ∧
      (¬t.MarkedFor b d s i → (t.bound b (some s) d)[i]? = some (r.review b (some s))) := by
  have hreviewed := getElem?_reviewed (b := b) h hd (some s)
  have hraw : (r.review b (some s)).featureId.text = [] := by
    rwa [(Record.review_same b s r).2.2.1]
  constructor
  · rintro ⟨feature, hmem, tool, htool, hplace, hserved⟩
    apply foldl_raw_marked (fun _ h => h) hreviewed hraw hmem htool _ hserved
    rw [rawPlace_reviewed, hplace]
  · intro hnot
    rcases foldl_raw_cases (b := b) (d := d) (fun _ h => h) hreviewed hraw with
      hsame | ⟨-, f, hf, tool, htool, hplace, hserved⟩
    · exact hsame
    · rw [rawPlace_reviewed] at hplace
      exact absurd ⟨f, hf, tool, htool, hplace, hserved⟩ hnot

/-- The records of other devices keep their places. -/
theorem bound_other (h : t[i]? = some r) (hd : r.deviceId ≠ d) :
    (t.bound b (some s) d)[i]? = some r := by
  have hreviewed : (t.reviewed b (some s) d)[i]? = some r := by
    rw [reviewed, List.getElem?_map, h, Option.map_some, if_neg hd]
  by_cases hr : r.featureId.text = []
  · rcases foldl_raw_cases (b := b) (d := d) (fun _ h => h) hreviewed hr with
      hsame | ⟨-, f, -, tool, -, hplace, -⟩
    · exact hsame
    · obtain ⟨hi, hp, -⟩ := List.findIdx?_eq_some_iff_getElem.mp hplace
      obtain ⟨_, heq⟩ := List.getElem?_eq_some_iff.mp hreviewed
      simp only [heq, Bool.and_eq_true, decide_eq_true_eq] at hp
      exact absurd hp.1 hd
  · apply foldl_named_other (fun _ h => h) hreviewed hr
    intro f _ hfind
    exact hd (findByFeature_record hfind hreviewed).1

/-- The records behind the old ones are created in this pass. -/
theorem bound_new (hs : s.Resolved) (h : (t.bound b (some s) d)[i]? = some r')
    (hi : t.length ≤ i) : ∃ feature ∈ s.features, ∃ tool, semanticTool s feature = some tool ∧
      r' = Record.semantic b d feature.featureId tool :=
  foldl_new (fun _ h => h) hs.ids h (by rwa [length_reviewed])

/-- The places after a pass, and the features that are still without a record. -/
theorem bound_room (hs : s.Resolved) (t : Table δ) :
    (t.bound b (some s) d).length =
        t.length + min (t.lacking d s s.features) (b.recordMax - t.length) ∧
      (t.bound b (some s) d).lacking d s s.features =
        t.lacking d s s.features - min (t.lacking d s s.features) (b.recordMax - t.length) := by
  have hroom := foldl_room (b := b) (d := d) (t := t.reviewed b (some s) d) (fun _ h => h) hs.ids
  have hsame : (t.reviewed b (some s) d).lacking d s s.features = t.lacking d s s.features := by
    apply List.countP_congr
    intro f _
    rw [lacks, lacks, findByFeature_reviewed]
  rwa [hsame, length_reviewed] at hroom

/-! ## A second pass -/

theorem evolves_pass (b : Build δ) (d : DeviceId) (s : Snapshot) (t : Table δ) :
    Evolves (fun _ => True) t (t.bound b (some s) d) where
  old := (evolves_bound b (some s) d t).old
  new _ _ _ _ := trivial
  fresh := (evolves_bound b (some s) d t).fresh

omit [DecidableEq δ] in
theorem semanticTool_mem (h : semanticTool s feature = some tool) : tool ∈ s.tools := by
  unfold semanticTool at h
  split at h
  · cases h
  · split at h
    · cases h
    · unfold toolAt at h
      split at h
      · exact List.mem_of_getElem? h
      · cases h

section
-- the table after a first pass, which may have its own limit
variable {m : Nat} {u : Table δ} (hu : t.bound { b with recordMax := m } (some s) d = u)
include hu

theorem serves_bound (hi : i < t.length) : u.Serves d s i tool ↔ t.Serves d s i tool := by
  subst hu
  unfold Serves
  simp only [(evolves_pass _ d s t).findByFeature hi]

/-- The first record of a writable feature, after two passes. -/
theorem bound_bound_own (hs : s.Resolved) (h : t[i]? = some r) (hd : r.deviceId = d)
    (hserves : t.Serves d s i tool) :
    (u.bound b (some s) d)[i]? = u[i]? ↔ ¬r.Misfiled b s tool := by
  obtain ⟨hlt, -⟩ := List.getElem?_eq_some_iff.mp h
  have htool : tool ∈ s.tools := by
    obtain ⟨feature, -, htool, -⟩ := hserves
    exact semanticTool_mem htool
  have hfirst : u[i]? = some ((r.review b (some s)).refresh b tool) := by
    rw [← hu]
    exact bound_own hs h hd hserves
  have hd' : ((r.review b (some s)).refresh b tool).deviceId = d := by
    rw [((r.review b (some s)).demotes_refresh b tool).deviceId, (Record.review_same b s r).1, hd]
  rw [bound_own hs hfirst hd' ((serves_bound hu hlt).mpr hserves), hfirst, Option.some.injEq]
  exact Record.refresh_review_iff hs.commands htool

/-- A raw record is marked in the second pass only if it is in the first one, when no feature gets
its record in between. -/
theorem markedFor_bound (hlen : (u.bound b (some s) d).length = u.length)
    (h : u.MarkedFor b d s i) : t.MarkedFor { b with recordMax := m } d s i := by
  obtain ⟨feature, hmem, tool, htool, hplace, hserved⟩ := h
  refine ⟨feature, hmem, tool, htool, ?_, ?_⟩
  · rwa [← hu, rawPlace_bound] at hplace
  · rw [hu]
    rwa [(evolves_pass b d s _).findByFeature_eq hlen] at hserved

/-- The other records stay as they are. -/
theorem bound_bound_other (hs : s.Resolved)
    (hlen : (u.bound b (some s) d).length = u.length)
    (hserves : ∀ tool, ¬t.Serves d s i tool) : (u.bound b (some s) d)[i]? = u[i]? := by
  cases hfirst : u[i]? with
  | none =>
      rw [List.getElem?_eq_none_iff] at hfirst ⊢
      omega
  | some x =>
      by_cases hlt : i < t.length
      · have h := List.getElem?_eq_getElem hlt
        have hserves' : ∀ tool, ¬u.Serves d s i tool :=
          fun tool hagain => hserves tool ((serves_bound hu hlt).mp hagain)
        by_cases hd : t[i].deviceId = d
        · obtain ⟨hdevice, -, hid, -⟩ := Record.review_same b s t[i]
          by_cases hr : t[i].featureId.text = []
          · obtain ⟨hmarked, hnot⟩ := bound_raw (b := { b with recordMax := m }) (s := s) h hd hr
            rw [hu] at hmarked hnot
            by_cases hm : t.MarkedFor { b with recordMax := m } d s i
            · -- a second mark changes nothing
              obtain rfl : (t[i].review b (some s)).mark = x :=
                Option.some.inj ((hmarked hm).symm.trans hfirst)
              have hraw : (t[i].review b (some s)).mark.featureId.text = [] := by
                show (t[i].review b (some s)).featureId.text = []
                rw [hid, hr]
              have hagain := bound_raw (b := b) (s := s) hfirst (hdevice.trans hd) hraw
              rw [Record.review_mark, Record.review_review] at hagain
              by_cases hm' : u.MarkedFor b d s i
              · exact hagain.1 hm'
              · exact hagain.2 hm'
            · obtain rfl : t[i].review b (some s) = x :=
                Option.some.inj ((hnot hm).symm.trans hfirst)
              have hagain := bound_raw (b := b) (s := s) hfirst (hdevice.trans hd)
                (by rw [hid, hr])
              rw [Record.review_review] at hagain
              exact hagain.2 fun hm' => hm (markedFor_bound hu hlen hm')
          · have hnamed := bound_named (b := { b with recordMax := m }) hs h hd hr hserves
            rw [hu] at hnamed
            obtain rfl : t[i].review b (some s) = x := Option.some.inj (hnamed.symm.trans hfirst)
            rw [bound_named hs hfirst (hdevice.trans hd) (by rwa [hid]) hserves',
              Record.review_review]
        · have hother := bound_other (b := { b with recordMax := m }) (s := s) h hd
          rw [hu] at hother
          obtain rfl := Option.some.inj (hother.symm.trans hfirst)
          exact bound_other hfirst hd
      · -- a record of the first pass is the first one of its feature, as the pass created it
        have hpass := evolves_pass { b with recordMax := m } d s t
        rw [hu] at hpass
        obtain ⟨feature, hmem, tool, htool, rfl⟩ :=
          bound_new (b := { b with recordMax := m }) hs (hu.symm ▸ hfirst) (by omega)
        have hfind : u.findByFeature d feature.featureId = some i := by
          rw [findByFeature_eq_some_iff]
          refine ⟨semanticTool_named htool, ⟨_, hfirst, rfl, rfl⟩, fun j r hj hr hsame => ?_⟩
          exact hpass.fresh i j r _ hfirst (by omega) hj hr hsame
        have htool' : (Record.semantic b d feature.featureId tool).tool? s = some tool :=
          Record.tool?_of_command hs.commands (semanticTool_mem htool) rfl
        have hreview : (Record.semantic b d feature.featureId tool).review b (some s) =
            Record.semantic b d feature.featureId tool :=
          Record.review_fixed htool' rfl (by simp [Record.semantic])
        have hrefresh : (Record.semantic b d feature.featureId tool).refresh b tool =
            Record.semantic b d feature.featureId tool :=
          Record.refresh_fixed (by simp [Record.semantic]) rfl rfl
        have hown := bound_own (b := b) hs hfirst rfl ⟨feature, hmem, htool, hfind⟩
        calc (u.bound b (some s) d)[i]?
            = some (((Record.semantic b d feature.featureId tool).review b (some s)).refresh b
                tool) := hown
          _ = some (Record.semantic b d feature.featureId tool) := by rw [hreview, hrefresh]

theorem bound_bound_iff (hs : s.Resolved) :
    u.bound b (some s) d = u ↔ (u.bound b (some s) d).length = u.length ∧
      ∀ i r tool, t[i]? = some r → t.Serves d s i tool → ¬r.Misfiled b s tool := by
  have howner : ∀ i r tool, t[i]? = some r → t.Serves d s i tool → r.deviceId = d := by
    intro i r tool hr hserves
    obtain ⟨feature, -, -, hfind⟩ := hserves
    exact (findByFeature_record hfind hr).1
  constructor
  · intro heq
    refine ⟨by rw [heq], fun i r tool hr hserves => ?_⟩
    exact (bound_bound_own hu hs hr (howner i r tool hr hserves) hserves).mp (by rw [heq])
  · rintro ⟨hlen, hfiled⟩
    apply List.ext_getElem?
    intro i
    by_cases hserves : ∃ tool, t.Serves d s i tool
    · obtain ⟨tool, hserves⟩ := hserves
      have hlt : i < t.length := by
        obtain ⟨feature, -, -, hfind⟩ := hserves
        exact findByFeature_lt hfind
      have hr := List.getElem?_eq_getElem hlt
      exact (bound_bound_own hu hs hr (howner i _ tool hr hserves) hserves).mpr
        (hfiled i _ tool hr hserves)
    · exact bound_bound_other hu hs hlen fun tool h => hserves ⟨tool, h⟩

end

/-! ## Other devices -/

/-- The records of the other devices. -/
def foreign (d : DeviceId) (t : Table δ) : Table δ := t.filter fun r => r.deviceId ≠ d

omit [DecidableEq δ] in
theorem foreign_markBound (t : Table δ) (d : DeviceId) (command : CommandName) :
    (t.markBound d command).foreign d = t.foreign d := by
  rw [markBound_eq]
  cases hraw : t.rawPlace d command with
  | none => rfl
  | some k =>
      obtain ⟨hk, hp, -⟩ := List.findIdx?_eq_some_iff_getElem.mp hraw
      simp only [Bool.and_eq_true, decide_eq_true_eq] at hp
      apply filter_modify_of_not
      intro r hr
      obtain rfl := Option.some.inj ((List.getElem?_eq_getElem hk).symm.trans hr)
      simp [Record.mark, hp.1]

theorem foreign_bindFeature (t : Table δ) :
    (t.bindFeature b d s feature).foreign d = t.foreign d := by
  have hstep := bindFeature_step b d s t feature
  generalize t.bindFeature b d s feature = u at hstep ⊢
  cases hstep with
  | idle => rfl
  | full => rfl
  | @refreshed tool k _ hfind =>
      rw [foreign_markBound]
      apply filter_modify_of_not
      intro r hr
      simp [(r.demotes_refresh b tool).deviceId, (findByFeature_record hfind hr).1]
  | created =>
      rw [foreign_markBound]
      simp [foreign, Record.semantic]

theorem foreign_bound (cap : Option Snapshot) (t : Table δ) :
    (t.bound b cap d).foreign d = t.foreign d := by
  have hreviewed : (t.reviewed b cap d).foreign d = t.foreign d := by
    unfold reviewed foreign
    induction t with
    | nil => rfl
    | cons r t ih =>
        rw [List.map_cons]
        by_cases hd : r.deviceId = d
        · have hd' : (r.review b cap).deviceId = d := (r.demotes_review b cap).deviceId.trans hd
          rw [if_pos hd, List.filter_cons_of_neg (by simp [hd']),
            List.filter_cons_of_neg (by simp [hd]), ih]
        · rw [if_neg hd, List.filter_cons_of_pos (by simp [hd]),
            List.filter_cons_of_pos (by simp [hd]), ih]
  unfold bound
  cases cap with
  | none => exact hreviewed
  | some s =>
      exact List.foldlRecOn (motive := fun u : Table δ => u.foreign d = t.foreign d) s.features _
        hreviewed fun u hu f _ => (foreign_bindFeature u).trans hu

/-- A pass leaves the records of the other devices alone. -/
theorem foreign_reconcile (cap : Option Snapshot) (t : Table δ) :
    (t.reconcile b cap d).foreign d = t.foreign d := by
  rw [← foreign_bound (b := b) cap t, reconcile, foreign, unbindStale, List.filter_filter]
  apply List.filter_congr
  intro r _
  by_cases hd : r.deviceId = d <;> simp [Record.stays, hd]

/-! ## Two passes -/

omit [DecidableEq δ] in
theorem getFeature_eq_some_iff {f : FeatureId} : t.getFeature d f = some r ↔
    ∃ i, t.findByFeature d f = some i ∧ t[i]? = some r := by
  rw [getFeature, List.find?_eq_bind_findIdx?_getElem?, findIdx?_feature, Option.bind_eq_some_iff]

omit [DecidableEq δ] in
/-- The first record of a feature of the schema is not removed. -/
theorem getFeature_unbindStale (hmem : feature ∈ s.features) (t : Table δ) :
    (t.unbindStale (some s) d).getFeature d feature.featureId =
      t.getFeature d feature.featureId := by
  apply Option.ext
  intro r
  rw [getFeature_eq_some_iff, getFeature_eq_some_iff, findByFeature_unbindStale hmem]
  cases hfind : t.findByFeature d feature.featureId with
  | none => simp
  | some i =>
      obtain ⟨-, ⟨r₁, hr₁, -, hid⟩, -⟩ := findByFeature_eq_some_iff.mp hfind
      have hplace := getElem?_filter (p := (·.stays (some s) d)) hr₁ (stays_of_feature hmem hid)
      simp [unbindStale, hplace, hr₁]

/-- A second pass finds nothing to do: there is room for the new records of the first one, or no
record is removed by it, and no record of a feature comes under a new command while it is
orphaned. -/
structure Settles (b : Build δ) (d : DeviceId) (s : Snapshot) (t : Table δ) : Prop where
  room : t.length + t.lacking d s s.features ≤ b.recordMax ∨ ∀ r ∈ t, r.stays (some s) d = true
  filed : ∀ feature ∈ s.features, ∀ tool r, semanticTool s feature = some tool →
    t.getFeature d feature.featureId = some r → ¬r.Misfiled b s tool

end Table

theorem relaySchema_resolved : relaySchema.Resolved where
  commands := by decide
  ids := by decide
  writable := by
    intro f hf
    rw [List.mem_singleton.mp hf]
    exact .inr ⟨switchTool, by decide, by decide⟩

/-- The record of a feature that is gone, and `n` records of another device. -/
def staleTable (n : Nat) : Table (List UInt8) :=
  { deviceId := relayId
    command := switchTool.command
    featureBound := true
    featureId := strlcpy _ (cstr "relay1")
    digest := plain.digest switchTool } ::
  List.replicate n
    { deviceId := strlcpy _ (cstr "relay-2")
      command := switchTool.command
      digest := plain.digest switchTool }

end BleGateway.McpExposure
