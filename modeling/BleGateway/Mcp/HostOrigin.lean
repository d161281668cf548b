import BleGateway.Mcp.Auth

/-! # Host and origin

`host_in_allowlist` and `validate_host_origin` over arbitrary headers. The port is everything behind
the first colon, and what follows a bracketed literal is not read. An entry is compared as it is
written, blanks included; one of 128 characters and more is taken in pieces.
-/

namespace BleGateway.Mcp

open CborCodec (Text)

/-! ## What the check is for -/

/-- The entries of an allow list, as they are written. -/
def entries (allowlist : CString) : List CString := allowlist.splitOn (byte ',')

/-- The host of a text: a literal through its closing bracket, or what stands before the first
colon. -/
def IsHostPart (text part : CString) : Prop :=
  if text.head? = some (byte '[') then
    ∃ literal rest, byte ']' ∉ literal ∧ part = literal ++ [byte ']'] ∧
      text = literal ++ byte ']' :: rest
  else byte ':' ∉ part ∧ (text = part ∨ ∃ port, text = part ++ byte ':' :: port)

/-- The host of the text is an entry that is not blank, up to the case of the letters. -/
def Listed (allowlist text : CString) : Prop :=
  ∃ part, IsHostPart text part ∧
    ∃ entry ∈ entries allowlist, entry.all isSpace = false ∧ part.map toLower = entry.map toLower

/-- What stands behind the first `://` of an origin, or all of it. -/
def IsAuthority (origin authority : CString) : Prop :=
  (∃ scheme, origin = scheme ++ (cstr "://" ++ authority) ∧
    ∀ s t, origin = s ++ (cstr "://" ++ t) → scheme.length ≤ s.length) ∨
  ((∀ s t, origin ≠ s ++ (cstr "://" ++ t)) ∧ authority = origin)

/-! ## The normalized host -/

/-- A text is free of a character, or splits at its first occurrence. -/
theorem takeWhile_ne_cases (c : UInt8) (text : CString) :
    (c ∉ text ∧ text.takeWhile (· ≠ c) = text) ∨
      ∃ rest, text = text.takeWhile (· ≠ c) ++ c :: rest := by
  induction text with
  | nil => exact .inl ⟨by simp, rfl⟩
  | cons a text ih =>
      by_cases ha : a = c
      · refine .inr ⟨text, ?_⟩
        rw [List.takeWhile_cons_of_neg (by simpa using ha), ha]
        rfl
      · rw [List.takeWhile_cons_of_pos (by simpa using ha)]
        rcases ih with ⟨hfree, hall⟩ | ⟨rest, hrest⟩
        · refine .inl ⟨?_, by rw [hall]⟩
          rw [List.mem_cons]
          rintro (rfl | hmem)
          · exact ha rfl
          · exact hfree hmem
        · refine .inr ⟨rest, ?_⟩
          rw [List.cons_append, ← hrest]

theorem not_mem_takeWhile_ne (c : UInt8) (text : CString) : c ∉ text.takeWhile (· ≠ c) := by
  intro hmem
  have := List.mem_takeWhile_imp hmem
  simp at this

theorem takeWhile_ne_append {c : UInt8} {text rest : CString} (h : c ∉ text) :
    (text ++ c :: rest).takeWhile (· ≠ c) = text := by
  induction text with
  | nil => simp
  | cons a text ih =>
      rw [List.mem_cons, not_or] at h
      rw [List.cons_append, List.takeWhile_cons_of_pos (by simpa using Ne.symm h.1), ih h.2]

/-- **The normalized host is the host of the text**, if it fits into the buffer. -/
theorem normalizeHost_eq_some_iff (text part : CString) :
    normalizeHost text = some part ↔ IsHostPart text part ∧ part.length < HOST_MAX := by
  unfold normalizeHost IsHostPart
  by_cases hbracket : text.head? = some (byte '[')
  · rw [if_pos hbracket, if_pos hbracket]
    dsimp only
    rcases takeWhile_ne_cases (byte ']') text with ⟨hfree, hall⟩ | ⟨rest, hrest⟩
    · rw [if_pos (by rw [hall])]
      refine iff_of_false (by simp) ?_
      rintro ⟨⟨literal, rest, -, -, rfl⟩, -⟩
      exact hfree (by simp)
    · have hnot := not_mem_takeWhile_ne (byte ']') text
      generalize text.takeWhile (· ≠ byte ']') = literal at *
      subst hrest
      have htake : (literal ++ byte ']' :: rest).take (literal.length + 1) =
          literal ++ [byte ']'] := by
        rw [List.take_append]
        simp
      rw [if_neg (by simp), htake]
      -- the split at the bracket is the only one
      have honly : ∀ l r, byte ']' ∉ l → literal ++ byte ']' :: rest = l ++ byte ']' :: r →
          l = literal := by
        intro l r hl heq
        have htaken := congrArg (List.takeWhile (· ≠ byte ']')) heq
        rw [takeWhile_ne_append hnot, takeWhile_ne_append hl] at htaken
        exact htaken.symm
      by_cases hfit : literal.length + 1 ≥ HOST_MAX
      · rw [if_pos hfit]
        refine iff_of_false (by simp) ?_
        rintro ⟨⟨l, r, hl, rfl, heq⟩, hlen⟩
        rw [honly l r hl heq, List.length_append, List.length_singleton] at hlen
        omega
      · rw [if_neg hfit, Option.some.injEq]
        constructor
        · rintro rfl
          refine ⟨⟨literal, rest, hnot, rfl, rfl⟩, ?_⟩
          rw [List.length_append, List.length_singleton]
          omega
        · rintro ⟨⟨l, r, hl, rfl, heq⟩, -⟩
          rw [honly l r hl heq]
  · rw [if_neg hbracket, if_neg hbracket]
    dsimp only
    have hpart : (byte ':' ∉ part ∧ (text = part ∨ ∃ port, text = part ++ byte ':' :: port)) ↔
        text.takeWhile (· ≠ byte ':') = part := by
      constructor
      · rintro ⟨hfree, rfl | ⟨port, rfl⟩⟩
        · rcases takeWhile_ne_cases (byte ':') text with ⟨-, hall⟩ | ⟨rest, hrest⟩
          · exact hall
          · rw [hrest] at hfree
            exact absurd (by simp) hfree
        · exact takeWhile_ne_append hfree
      · rintro rfl
        refine ⟨not_mem_takeWhile_ne _ _, ?_⟩
        rcases takeWhile_ne_cases (byte ':') text with ⟨-, hall⟩ | hrest
        · exact .inl hall.symm
        · exact .inr hrest
    rw [hpart]
    by_cases hfit : (text.takeWhile (· ≠ byte ':')).length ≥ HOST_MAX
    · rw [if_pos hfit]
      refine iff_of_false (by simp) ?_
      rintro ⟨rfl, hlen⟩
      omega
    · rw [if_neg hfit, Option.some.injEq]
      constructor
      · rintro rfl
        exact ⟨rfl, by omega⟩
      · exact fun h => h.1

/-! ## The entries -/

/-- A capital letter and the small one are 32 apart. -/
theorem toNat_capital {c : UInt8} (h : byte 'A' ≤ c ∧ c ≤ byte 'Z') :
    65 ≤ c.toNat ∧ c.toNat ≤ 90 ∧ (c + 32).toNat = c.toNat + 32 := by
  have hlow : 65 ≤ c.toNat := UInt8.le_iff_toNat_le.mp h.1
  have hhigh : c.toNat ≤ 90 := UInt8.le_iff_toNat_le.mp h.2
  refine ⟨hlow, hhigh, ?_⟩
  rw [UInt8.toNat_add]
  exact Nat.mod_eq_of_lt (show c.toNat + 32 < 256 by omega)

theorem isSpace_toLower (c : UInt8) : isSpace (toLower c) = isSpace c := by
  unfold toLower
  split
  · rename_i h
    obtain ⟨hlow, hhigh, hsum⟩ := toNat_capital h
    -- neither a capital letter nor the small one is white space
    have hnot : ∀ d : UInt8, 65 ≤ d.toNat → isSpace d = false := by
      intro d hd
      have hblank : (byte ' ').toNat = 32 := rfl
      have hreturn : (byte '\r').toNat = 13 := rfl
      unfold isSpace
      rw [decide_eq_false_iff_not]
      rintro (rfl | ⟨-, hle⟩)
      · omega
      · have := UInt8.le_iff_toNat_le.mp hle
        omega
    rw [hnot c hlow, hnot _ (by omega)]
  · rfl

theorem all_isSpace_map_toLower (entry : CString) :
    (entry.map toLower).all isSpace = entry.all isSpace := by
  rw [List.all_map]
  congr 1
  funext c
  exact isSpace_toLower c

theorem toLower_toLower (c : UInt8) : toLower (toLower c) = toLower c := by
  unfold toLower
  by_cases h : byte 'A' ≤ c ∧ c ≤ byte 'Z'
  · rw [if_pos h, if_neg]
    rintro ⟨-, hle⟩
    obtain ⟨hlow, -, hsum⟩ := toNat_capital h
    have hle' : (c + 32).toNat ≤ 90 := UInt8.le_iff_toNat_le.mp hle
    omega
  · rw [if_neg h, if_neg h]

theorem modifyHead_nil_append (pieces : List CString) :
    pieces.modifyHead (([] : CString) ++ ·) = pieces := by
  cases pieces <;> rfl

/-- The splitter behind a piece that has been read. -/
theorem candidates_eq (allowlist candidate : CString)
    (h : ∀ entry ∈ (entries allowlist).modifyHead (candidate ++ ·), entry.length < HOST_MAX) :
    candidates allowlist candidate =
      ((entries allowlist).map (List.map toLower)).modifyHead (candidate ++ ·) := by
  unfold entries at *
  induction allowlist generalizing candidate with
  | nil => simp [candidates, List.splitOn_nil]
  | cons c rest ih =>
      rw [List.splitOn_cons_eq_if_modifyHead] at h ⊢
      by_cases hc : c = byte ','
      · rw [if_pos (by simpa using hc)] at h ⊢
        have hrest : ∀ entry ∈ (rest.splitOn (byte ',')).modifyHead ([] ++ ·),
            entry.length < HOST_MAX := by
          intro entry hentry
          rw [modifyHead_nil_append] at hentry
          exact h entry (List.mem_cons_of_mem _ hentry)
        rw [candidates, if_pos hc, ih [] hrest, modifyHead_nil_append]
        simp
      · rw [if_neg (by simpa using hc)] at h ⊢
        obtain ⟨head, tail, hsplit⟩ := List.exists_cons_of_ne_nil
          (List.splitOn_ne_nil (byte ',') rest)
        rw [hsplit] at h ih ⊢
        simp only [List.modifyHead_cons, List.map_cons] at h ih ⊢
        have hroom := h (candidate ++ c :: head) List.mem_cons_self
        rw [List.length_append, List.length_cons] at hroom
        rw [candidates, if_neg hc, if_pos (by omega), ih (candidate ++ [toLower c]) ?_]
        · simp
        · intro entry hentry
          rcases List.mem_cons.mp hentry with rfl | htail
          · simp only [List.length_append, List.length_singleton]
            omega
          · exact h entry (List.mem_cons_of_mem _ htail)

variable {allowlist : CString}

/-- A text passes the list exactly if it is listed. -/
theorem hostInAllowlist_iff (hfit : ∀ entry ∈ entries allowlist, entry.length < HOST_MAX)
    (text : CString) : hostInAllowlist allowlist text = true ↔ Listed allowlist text := by
  have hcandidates : candidates allowlist [] = (entries allowlist).map (List.map toLower) := by
    rw [candidates_eq allowlist [] (by rwa [modifyHead_nil_append]), modifyHead_nil_append]
  have hentry : ∀ part entry : CString,
      (!(entry.map toLower).all isSpace && strcasecmpEq part (entry.map toLower)) = true ↔
        entry.all isSpace = false ∧ part.map toLower = entry.map toLower := by
    intro part entry
    have htwice : (entry.map toLower).map toLower = entry.map toLower := by
      rw [List.map_map]
      congr 1
      funext c
      exact toLower_toLower c
    rw [Bool.and_eq_true, strcasecmpEq, decide_eq_true_eq, htwice, all_isSpace_map_toLower,
      Bool.not_eq_true']
  unfold hostInAllowlist
  rw [hcandidates]
  constructor
  · intro h
    cases hnormal : normalizeHost text with
    | none =>
        rw [hnormal] at h
        cases h
    | some part =>
        rw [hnormal] at h
        obtain ⟨lower, hlower, hmatch⟩ := List.any_eq_true.mp h
        obtain ⟨entry, hmem, rfl⟩ := List.mem_map.mp hlower
        exact ⟨part, ((normalizeHost_eq_some_iff text part).mp hnormal).1, entry, hmem,
          (hentry part entry).mp hmatch⟩
  · rintro ⟨part, hpart, entry, hmem, hmatch⟩
    -- an entry has room in the buffer, and so has the host that equals it
    have hlength : part.length < HOST_MAX := by
      calc part.length = (part.map toLower).length := (List.length_map toLower).symm
        _ = entry.length := by rw [hmatch.2, List.length_map]
        _ < HOST_MAX := hfit entry hmem
    rw [(normalizeHost_eq_some_iff text part).mpr ⟨hpart, hlength⟩]
    exact List.any_eq_true.mpr ⟨entry.map toLower, List.mem_map_of_mem hmem,
      (hentry part entry).mpr hmatch⟩

/-! ## The authority of an origin -/

theorem afterScheme_none {origin : CString} (h : afterScheme origin = none) (s t : CString) :
    origin ≠ s ++ (cstr "://" ++ t) := by
  have hlength : (cstr "://").length = 3 := by decide
  induction origin generalizing s with
  | nil =>
      intro heq
      have := congrArg List.length heq
      rw [List.length_nil, List.length_append, List.length_append, hlength] at this
      omega
  | cons c rest ih =>
      rw [afterScheme] at h
      split at h
      · cases h
      · rename_i htake
        intro heq
        cases s with
        | nil =>
            apply htake
            rw [heq, List.nil_append, List.take_append_of_le_length (by omega)]
            decide
        | cons d s =>
            rw [List.cons_append, List.cons.injEq] at heq
            exact ih h s heq.2

theorem afterScheme_some {origin authority : CString} (h : afterScheme origin = some authority) :
    ∃ scheme, origin = scheme ++ (cstr "://" ++ authority) ∧
      ∀ s t, origin = s ++ (cstr "://" ++ t) → scheme.length ≤ s.length := by
  induction origin with
  | nil => cases h
  | cons c rest ih =>
      rw [afterScheme] at h
      split at h
      · rename_i htake
        refine ⟨[], ?_, fun s t _ => Nat.zero_le _⟩
        have hdrop : (c :: rest).drop 3 = authority := Option.some.inj h
        calc c :: rest = (c :: rest).take 3 ++ (c :: rest).drop 3 := (List.take_append_drop ..).symm
          _ = [] ++ (cstr "://" ++ authority) := by rw [htake, hdrop, List.nil_append]
      · rename_i htake
        obtain ⟨scheme, heq, hfirst⟩ := ih h
        refine ⟨c :: scheme, by rw [heq, List.cons_append], fun s t hs => ?_⟩
        cases s with
        | nil =>
            exfalso
            apply htake
            have hlength : (cstr "://").length = 3 := by decide
            rw [hs, List.nil_append, List.take_append_of_le_length (by omega)]
            decide
        | cons d s =>
            rw [List.cons_append, List.cons.injEq] at hs
            have := hfirst s t hs.2
            rw [List.length_cons, List.length_cons]
            omega

theorem isAuthority_iff (origin authority : CString) :
    IsAuthority origin authority ↔ authority = (afterScheme origin).getD origin := by
  cases h : afterScheme origin with
  | none =>
      have hnone := afterScheme_none h
      constructor
      · rintro (⟨scheme, heq, -⟩ | ⟨-, rfl⟩)
        · exact absurd heq (hnone scheme authority)
        · rfl
      · rintro rfl
        exact .inr ⟨hnone, rfl⟩
  | some text =>
      obtain ⟨scheme, heq, hfirst⟩ := afterScheme_some h
      constructor
      · rintro (⟨other, hother, hleast⟩ | ⟨hnone, -⟩)
        · have hlength : other.length = scheme.length :=
            Nat.le_antisymm (hleast scheme text heq) (hfirst other authority hother)
          obtain ⟨-, hrest⟩ := List.append_inj (hother.symm.trans heq) hlength
          exact List.append_cancel_left hrest
        · exact absurd heq (hnone scheme text)
      · rintro rfl
        exact .inl ⟨scheme, heq, hfirst⟩

/-! ## The check -/

/-- **A request passes the check** exactly if its host is listed, and the host of its origin too,
if it has one. -/
theorem validateHostOrigin_ok_iff {cfg : Config} (hne : cfg.hostAllowlist.bytes ≠ [])
    (hfit : ∀ entry ∈ entries cfg.hostAllowlist.bytes, entry.length < HOST_MAX)
    (host origin : Option Text) :
    validateHostOrigin cfg host origin = .ok ↔
      (∃ h, host = some h ∧ Listed cfg.hostAllowlist.bytes h.bytes) ∧
        ∀ o, origin = some o →
          ∃ authority, IsAuthority o.bytes authority ∧
            Listed cfg.hostAllowlist.bytes authority := by
  have hhost : host.any (fun h => hostInAllowlist cfg.hostAllowlist.bytes h.bytes) = true ↔
      ∃ h, host = some h ∧ Listed cfg.hostAllowlist.bytes h.bytes := by
    rw [Option.any_eq_true]
    apply exists_congr
    intro h
    rw [hostInAllowlist_iff hfit]
  unfold validateHostOrigin
  rw [if_neg hne, ← hhost]
  cases hany : host.any fun h => hostInAllowlist cfg.hostAllowlist.bytes h.bytes with
  | false => simp
  | true =>
      simp only [Bool.not_true, Bool.false_eq_true, if_false, true_and]
      cases origin with
      | none => simp
      | some o =>
          dsimp only
          have horigin : hostInAllowlist cfg.hostAllowlist.bytes
              ((afterScheme o.bytes).getD o.bytes) = true ↔
              ∃ authority, IsAuthority o.bytes authority ∧
                Listed cfg.hostAllowlist.bytes authority := by
            rw [hostInAllowlist_iff hfit]
            constructor
            · intro hl
              exact ⟨_, (isAuthority_iff _ _).mpr rfl, hl⟩
            · rintro ⟨authority, hauthority, hl⟩
              rwa [(isAuthority_iff _ _).mp hauthority] at hl
          constructor
          · intro hok other hother
            cases hother
            refine horigin.mp ?_
            by_contra hnot
            rw [if_neg hnot] at hok
            cases hok
          · intro hlisted
            rw [if_pos (horigin.mpr (hlisted o rfl))]

/-- The default of the configuration. -/
def defaultList : Config where
  authToken := .empty
  hostAllowlist := ⟨cstr "gateway.local,192.168.4.1", by decide +kernel⟩
  strictAcceptHeader := false
  rateLimitRps := 10

def gatewayHost : Text := ⟨cstr "GATEWAY.LOCAL:8080", by decide +kernel⟩

theorem validateHostOrigin_ok_gateway :
    (∀ entry ∈ entries defaultList.hostAllowlist.bytes, entry.length < HOST_MAX) ∧
      (∃ h, some gatewayHost = some h ∧ Listed defaultList.hostAllowlist.bytes h.bytes) := by
  have hsplit : entries defaultList.hostAllowlist.bytes =
      [cstr "gateway.local", cstr "192.168.4.1"] := by decide
  have hfit : ∀ entry ∈ entries defaultList.hostAllowlist.bytes, entry.length < HOST_MAX := by
    rw [hsplit]
    decide
  have hok : validateHostOrigin defaultList (some gatewayHost) none = .ok := by decide
  exact ⟨hfit, ((validateHostOrigin_ok_iff (by decide) hfit _ _).mp hok).1⟩

/-! ## A stricter reading -/

/-- The host of a text whose port, if any, is made of digits. -/
def IsHostOf (text part : CString) : Prop :=
  IsHostPart text part ∧ (text = part ∨ ∃ port, text = part ++ byte ':' :: port ∧
    ∀ d ∈ port, byte '0' ≤ d ∧ d ≤ byte '9')

/-- An entry without the blanks around it. -/
def trim (entry : CString) : CString :=
  ((entry.dropWhile isSpace).reverse.dropWhile isSpace).reverse

/-- The host of the text is an entry up to case and surrounding blanks. -/
def ListedTrimmed (allowlist text : CString) : Prop :=
  ∃ part, IsHostOf text part ∧
    ∃ entry ∈ entries allowlist, part.map toLower = (trim entry).map toLower

/-- The host is listed, and the origin is missing or has a listed host behind its scheme. -/
def PassesStrictly (cfg : Config) (host origin : Option Text) : Prop :=
  (∃ h, host = some h ∧ ListedTrimmed cfg.hostAllowlist.bytes h.bytes) ∧
    ∀ o, origin = some o → ∃ scheme authority, o.bytes = scheme ++ (cstr "://" ++ authority) ∧
      ListedTrimmed cfg.hostAllowlist.bytes authority

/-- A list with a blank behind the comma. -/
def spacedList : Config where
  authToken := .empty
  hostAllowlist := ⟨cstr "gateway.local, 192.168.4.1", by decide +kernel⟩
  strictAcceptHeader := false
  rateLimitRps := 10

/-- A port of letters passes, and an entry with a blank in front is found by no host. -/
theorem not_passesStrictly :
    (¬ ∀ cfg host origin, cfg.hostAllowlist.bytes ≠ [] →
      validateHostOrigin cfg host origin = .ok → PassesStrictly cfg host origin) ∧
    ¬ ∀ cfg host origin, cfg.hostAllowlist.bytes ≠ [] →
      PassesStrictly cfg host origin → validateHostOrigin cfg host origin = .ok := by
  constructor
  · intro h
    have hstrict := h defaultList (some ⟨cstr "gateway.local:abc", by decide +kernel⟩) none
      (by decide) (by decide)
    obtain ⟨⟨text, htext, part, ⟨hpart, hport⟩, -⟩, -⟩ := hstrict
    cases htext
    -- the host is what stands before the colon, and the port is `abc`
    have hshort : part.length < HOST_MAX := by
      have hlength : (cstr "gateway.local:abc").length = 17 := by decide
      have hmax : HOST_MAX = 128 := rfl
      rcases hport with heq | ⟨port, heq, -⟩
      · have hle : part.length = 17 := heq ▸ hlength
        omega
      · have hle : (part ++ byte ':' :: port).length = 17 := heq ▸ hlength
        rw [List.length_append] at hle
        omega
    have hnormal := (normalizeHost_eq_some_iff _ part).mpr ⟨hpart, hshort⟩
    have hname : normalizeHost (cstr "gateway.local:abc") = some (cstr "gateway.local") := by
      decide
    obtain rfl := Option.some.inj (hname.symm.trans hnormal)
    have hsplit : cstr "gateway.local:abc" = cstr "gateway.local" ++ byte ':' :: cstr "abc" := by
      decide
    rcases hport with heq | ⟨port, heq, hdigits⟩
    · exact absurd heq (by decide)
    · have hrest := List.append_cancel_left (hsplit.symm.trans heq)
      rw [List.cons.injEq] at hrest
      rw [← hrest.2] at hdigits
      exact absurd hdigits (by decide)
  · intro h
    have hfree : byte ':' ∉ cstr "192.168.4.1" := by decide
    have hentry : cstr " 192.168.4.1" ∈ entries spacedList.hostAllowlist.bytes := by decide
    have hpart : IsHostPart (cstr "192.168.4.1") (cstr "192.168.4.1") := by
      unfold IsHostPart
      rw [if_neg (by decide)]
      exact ⟨hfree, .inl rfl⟩
    have hok := h spacedList (some ⟨cstr "192.168.4.1", by decide +kernel⟩) none
      (by decide)
      ⟨⟨_, rfl, _, ⟨hpart, .inl rfl⟩, _, hentry, by decide⟩, fun o ho => by cases ho⟩
    exact absurd hok (by decide)

end BleGateway.Mcp
