import BleGateway.Mcp.Auth
import Mathlib.Data.List.GetD

/-! # The gate and the token

The comparison in constant time is exact: a length that differs by a multiple of 256 is not seen in
the folded lengths, and then in a byte of the longer text. A token that cannot be fetched counts as
one that was never set, so that the gate asks for the token only if the fetch succeeds.
-/

namespace BleGateway.Mcp

open CborCodec (Text)

/-! ## The comparison -/

theorem foldl_or_eq_zero_iff (f : Nat → UInt8) (l : List Nat) (init : UInt8) :
    l.foldl (fun diff i => diff ||| f i) init = 0 ↔ init = 0 ∧ ∀ i ∈ l, f i = 0 := by
  induction l generalizing init with
  | nil => simp
  | cons i l ih =>
      rw [List.foldl_cons, ih, UInt8.or_eq_zero_iff, List.forall_mem_cons, and_assoc]

/-- Two C strings are the same as soon as they agree with zeros behind their ends. -/
theorem eq_of_getD {a b : CString} (ha : ∀ x ∈ a, x ≠ 0) (hb : ∀ x ∈ b, x ≠ 0)
    (h : ∀ i, i < max a.length b.length → a.getD i 0 = b.getD i 0) : a = b := by
  -- where one text ends first, the other one has a byte there that is not 0
  have hle : ∀ {c d : CString}, (∀ x ∈ c, x ≠ 0) →
      (∀ i, i < c.length → c.getD i 0 = d.getD i 0) → c.length ≤ d.length := by
    intro c d hc hsame
    by_contra hlt
    have hbyte := hsame d.length (by omega)
    rw [List.getD_eq_getElem c 0 (by omega), List.getD_eq_default d 0 le_rfl] at hbyte
    exact hc _ (List.getElem_mem (by omega)) hbyte
  have hlength : a.length = b.length := by
    have hab := hle ha fun i hi => h i (by omega)
    have hba := hle hb fun i hi => (h i (by omega)).symm
    omega
  refine List.ext_getElem hlength fun i hia hib => ?_
  have hbyte := h i (by omega)
  rw [List.getD_eq_getElem a 0 hia, List.getD_eq_getElem b 0 hib] at hbyte
  exact hbyte

/-- **The comparison in constant time accepts a text only as itself, whatever the lengths.** -/
theorem constantTimeEqual_iff (a b : Text) :
    constantTimeEqual a.bytes b.bytes = true ↔ a = b := by
  rw [constantTimeEqual, beq_iff_eq,
    foldl_or_eq_zero_iff (fun i => a.bytes.getD i 0 ^^^ b.bytes.getD i 0)]
  constructor
  · rintro ⟨-, h⟩
    refine Text.ext (eq_of_getD a.nulFree b.nulFree fun i hi => ?_)
    exact UInt8.xor_eq_zero_iff.mp (h i (List.mem_range.mpr hi))
  · rintro rfl
    refine ⟨by rw [Nat.xor_self]; rfl, fun i _ => UInt8.xor_self⟩

/-! ## The token that the gate asks for -/

/-- The token that is configured: the stored one, or else the compiled-in one, if it is not
empty. -/
def effectiveToken (cfg : Config) (stored : Option Text) : Option Text :=
  match stored.filter (·.bytes ≠ []) with
  | some token => some token
  | none => if cfg.authToken.bytes ≠ [] then some cfg.authToken else none

/-- All calls that read the stored token succeed. -/
def TokenCalls.ReadsStored (calls : TokenCalls) : Prop :=
  calls.nvsOpen = true ∧ calls.nvsGetLen = true ∧ calls.malloc = true ∧ calls.nvsGetStr = true

/-- The fetch succeeds: that of a stored token in all its steps, unless the copy of the compiled-in
token gives the same text; that of a compiled-in token in its copy. -/
def TokenFetched (cfg : Config) (stored : Option Text) (calls : TokenCalls) : Prop :=
  match stored.filter (·.bytes ≠ []) with
  | some token =>
      calls.ReadsStored ∨ (cfg.authToken = token ∧ calls.strdup = true)
  | none => cfg.authToken.bytes ≠ [] → calls.strdup = true

variable {calls : TokenCalls} {token : Text} {cfg : Config} {stored : Option Text}

theorem compiledInToken_eq_some_iff :
    compiledInToken cfg calls = some token ↔
      cfg.authToken.bytes ≠ [] ∧ cfg.authToken = token ∧ calls.strdup = true := by
  rw [compiledInToken]
  split
  · rename_i hne
    split
    · rename_i hcopy
      rw [Option.some.injEq]
      exact ⟨fun h => ⟨hne, h, hcopy⟩, fun h => h.2.1⟩
    · rename_i hcopy
      exact iff_of_false nofun fun h => hcopy h.2.2
  · rename_i hempty
    exact iff_of_false nofun fun h => hempty h.1

theorem configuredToken_stored (hne : token.bytes ≠ []) (h : calls.ReadsStored) :
    configuredToken cfg (some token) calls = some token := by
  obtain ⟨hopen, hlen, hmalloc, hstr⟩ := h
  have hpos := List.length_pos_iff.mpr hne
  rw [configuredToken, if_pos hopen, if_pos ⟨hlen, by omega⟩, if_pos ⟨hmalloc, hstr⟩]

/-- Where one of them fails, or there is nothing to read, the compiled-in token takes its place. -/
theorem configuredToken_compiledIn
    (h : ∀ token, stored = some token → token.bytes ≠ [] → ¬calls.ReadsStored) :
    configuredToken cfg stored calls = compiledInToken cfg calls := by
  unfold configuredToken
  split
  · rename_i hopen
    cases stored with
    | none => rfl
    | some token =>
        dsimp only
        split
        · rename_i hlen
          split
          · rename_i hread
            have hne : token.bytes ≠ [] := List.length_pos_iff.mp (by omega)
            exact absurd ⟨hopen, hlen.1, hread⟩ (h token rfl hne)
          · rfl
        · rfl
  · rfl

/-- The gate knows the configured token just when the fetch succeeds. -/
theorem configuredToken_eq_iff (cfg : Config) (stored : Option Text) (calls : TokenCalls) :
    configuredToken cfg stored calls = effectiveToken cfg stored ↔
      TokenFetched cfg stored calls := by
  rw [effectiveToken, TokenFetched]
  cases hstored : stored.filter (·.bytes ≠ []) with
  | some token =>
      obtain ⟨rfl, hne⟩ := Option.filter_eq_some_iff.mp hstored
      have hne : token.bytes ≠ [] := of_decide_eq_true hne
      dsimp only
      by_cases hread : calls.ReadsStored
      · rw [configuredToken_stored hne hread]
        exact ⟨fun _ => Or.inl hread, fun _ => rfl⟩
      · rw [configuredToken_compiledIn fun _ _ _ => hread, compiledInToken_eq_some_iff]
        constructor
        · rintro ⟨-, h⟩
          exact Or.inr h
        · rintro (h | h)
          · exact absurd h hread
          · exact ⟨h.1 ▸ hne, h⟩
  | none =>
      have hnothing : ∀ token, stored = some token → token.bytes ≠ [] → ¬calls.ReadsStored := by
        rintro token rfl hne
        rw [Option.filter_some, if_pos (decide_eq_true hne)] at hstored
        cases hstored
      rw [configuredToken_compiledIn hnothing]
      dsimp only
      rw [compiledInToken]
      split
      · rename_i hne
        split
        · rename_i hcopy
          exact ⟨fun _ _ => hcopy, fun _ => rfl⟩
        · rename_i hcopy
          exact iff_of_false nofun fun h => hcopy (h hne)
      · rename_i hempty
        exact ⟨fun _ hne => absurd hne hempty, fun _ => rfl⟩

/-- Where nothing is configured there is nothing to fetch. -/
theorem tokenFetched_of_none (h : effectiveToken cfg stored = none) :
    TokenFetched cfg stored calls := by
  rw [effectiveToken] at h
  rw [TokenFetched]
  split at h
  · cases h
  · split at h
    · cases h
    · rename_i hempty
      exact fun hne => absurd hne hempty

/-! ## Requests -/

/-- The `Authorization` header is the Bearer scheme, in any case, and the token behind it. -/
def Authorized (req : Request) (token : Text) : Prop :=
  ∃ value scheme, req.header .authorization = some value ∧ value.bytes = scheme ++ token.bytes ∧
    strcasecmpEq scheme (cstr "Bearer ") = true

/-- The gate lets a request pass only if it carries the configured token. -/
def FailClosed (cfg : Config) (stored : Option Text) (calls : TokenCalls) (now : Int)
    (s : RateLimit) : Prop :=
  ∀ (req : Request) (ok : Header → Bool), mcpAuthGate cfg stored calls now s req ok = .ok →
    ∀ token, effectiveToken cfg stored = some token → Authorized req token

/-- No request passes, whatever its token: the rate is exceeded, or the allow list has no host. -/
def Closed (cfg : Config) (now : Int) (s : RateLimit) : Prop :=
  (rateLimitAllow cfg now s).1 = false ∨
    (cfg.hostAllowlist.bytes ≠ [] ∧
      ∀ host : Text, hostInAllowlist cfg.hostAllowlist.bytes host.bytes = false)

theorem authorized_of_authorizes {req : Request} {ok : Header → Bool}
    (h : authorizes token (getHeader req ok .authorization) = true) : Authorized req token := by
  rw [authorizes, Option.any_eq_true] at h
  obtain ⟨value, hvalue, hscheme⟩ := h
  obtain ⟨hbearer, hequal⟩ := Bool.and_eq_true_iff.mp hscheme
  have hheader : req.header .authorization = some value := by
    rw [getHeader] at hvalue
    split at hvalue
    · rename_i v hv
      split at hvalue
      · cases hvalue
      split at hvalue
      · rw [hv]
        exact hvalue
      · cases hvalue
    · cases hvalue
  -- the rest of the header is a C string as well
  have hrest := (constantTimeEqual_iff ⟨value.bytes.drop (cstr "Bearer ").length, fun x hx =>
    value.nulFree x (List.mem_of_mem_drop hx)⟩ token).mp hequal
  refine ⟨value, value.bytes.take (cstr "Bearer ").length, hheader, ?_, hbearer⟩
  rw [← hrest, List.take_append_drop]

/-- What passes the gate has passed every check of it. -/
theorem passed_of_gate {now : Int} {s : RateLimit} {req : Request} {ok : Header → Bool}
    (h : mcpAuthGate cfg stored calls now s req ok = .ok) :
    (rateLimitAllow cfg now s).1 = true ∧
      (∀ token, configuredToken cfg stored calls = some token →
        authorizes token (getHeader req ok .authorization) = true) ∧
      validateHostOrigin cfg (getHeader req ok .host) (getHeader req ok .origin) = .ok := by
  rw [mcpAuthGate] at h
  split at h
  · cases h
  split at h
  · cases h
  rename_i hrate
  split at h
  · cases h
  rename_i htoken
  refine ⟨by simpa using hrate, ?_, ?_⟩
  · intro token hconfigured
    rw [hconfigured] at htoken
    simpa using htoken
  · split at h
    · rename_i hhost
      exact hhost
    · rename_i hne
      exact absurd h hne

/-! ## Requests with another token -/

/-- A request that passes every check but that of the token. -/
def plainRequest (authorization host : Option Text) : Request where
  header
    | .contentType => some (.ofBytes (cstr "application/json"))
    | .authorization => authorization
    | .host => host
    | .origin => none
    | .accept => some (.ofBytes (cstr "application/json, text/event-stream"))

/-- A header that is not empty is found, if it can be copied. -/
theorem getHeader_of_ne {req : Request} {name : Header} {value : Text}
    (h : req.header name = some value) (hne : value.bytes ≠ []) :
    getHeader req (fun _ => true) name = some value := by
  rw [getHeader, h]
  dsimp only
  rw [if_neg (mt List.length_eq_zero_iff.mp hne), if_pos rfl]

/-- The empty host is on no list. -/
theorem hostInAllowlist_nil (allowlist : CString) : hostInAllowlist allowlist [] = false := by
  have hnormal : normalizeHost [] = some [] := rfl
  rw [hostInAllowlist, hnormal]
  dsimp only
  rw [List.any_eq_false]
  intro candidate _ h
  obtain ⟨hblank, hequal⟩ := Bool.and_eq_true_iff.mp h
  -- only the empty candidate compares equal, and that one does not count
  have hmap : ([] : CString) = candidate.map toLower := of_decide_eq_true hequal
  obtain rfl := List.map_eq_nil_iff.mp hmap.symm
  cases hblank

theorem gate_plainRequest {now : Int} {s : RateLimit} (authorization host : Option Text)
    (hrate : (rateLimitAllow cfg now s).1 = true)
    (htoken : ∀ token, configuredToken cfg stored calls = some token → authorizes token
      (getHeader (plainRequest authorization host) (fun _ => true) .authorization) = true)
    (hhost : cfg.hostAllowlist.bytes = [] ∨
      ∃ h, host = some h ∧ hostInAllowlist cfg.hostAllowlist.bytes h.bytes = true) :
    mcpAuthGate cfg stored calls now s (plainRequest authorization host) (fun _ => true) = .ok := by
  have htype : getHeader (plainRequest authorization host) (fun _ => true) .contentType =
      some (.ofBytes (cstr "application/json")) :=
    getHeader_of_ne rfl (by decide)
  have hvalid : validateContentType (some (Text.ofBytes (cstr "application/json")).bytes) =
      true := by
    decide
  have hall : (configuredToken cfg stored calls).all (fun token => authorizes token
      (getHeader (plainRequest authorization host) (fun _ => true) .authorization)) = true := by
    rw [Option.all_eq_true]
    exact htoken
  have horigin : getHeader (plainRequest authorization host) (fun _ => true) .origin = none := rfl
  have hpass : validateHostOrigin cfg (getHeader (plainRequest authorization host) (fun _ => true)
      .host) none = .ok := by
    unfold validateHostOrigin
    rcases hhost with hempty | ⟨h, rfl, hlisted⟩
    · rw [if_pos hempty]
    · split
      · rfl
      have hne : h.bytes ≠ [] := by
        intro hempty
        rw [hempty, hostInAllowlist_nil] at hlisted
        cases hlisted
      rw [getHeader_of_ne rfl hne, Option.any_some, hlisted]
      rfl
  have haccept : getHeader (plainRequest authorization host) (fun _ => true) .accept =
      some (.ofBytes (cstr "application/json, text/event-stream")) :=
    getHeader_of_ne rfl (by decide)
  have hmedia : parseAcceptHeader (Text.ofBytes
      (cstr "application/json, text/event-stream")).bytes .lead {} = ⟨true, true⟩ := by
    decide
  have hboth : validateAccept cfg (some (.ofBytes (cstr "application/json, text/event-stream"))) =
      .ok := by
    unfold validateAccept
    dsimp only
    rw [hmedia]
    cases cfg.strictAcceptHeader <;> rfl
  rw [mcpAuthGate, htype, Option.map_some, hvalid, hrate, hall, horigin, hpass, haccept]
  exact hboth

/-- The header with a token behind the scheme. -/
def bearer (token : Text) : Text where
  bytes := cstr "Bearer " ++ token.bytes
  nulFree := by
    have hscheme : ∀ x ∈ cstr "Bearer ", x ≠ 0 := by decide +kernel
    exact fun x hx => (List.mem_append.mp hx).elim (hscheme x) (token.nulFree x)

theorem authorizes_bearer (token : Text) : authorizes token (some (bearer token)) = true := by
  have hscheme : startsWithNoCase (bearer token).bytes (cstr "Bearer ") = true := by
    rw [startsWithNoCase, bearer, List.take_left]
    decide
  have hrest : (bearer token).bytes.drop (cstr "Bearer ").length = token.bytes := by
    rw [bearer, List.drop_left]
  rw [authorizes, Option.any_some, hscheme, hrest, (constantTimeEqual_iff token token).mpr rfl]
  rfl

/-- A header authorizes one token. -/
theorem authorized_bearer {other : Text} {host : Option Text}
    (h : Authorized (plainRequest (some (bearer token)) host) other) : token = other := by
  obtain ⟨value, scheme, hvalue, hbytes, hscheme⟩ := h
  cases hvalue
  have hlength : scheme.length = (cstr "Bearer ").length := by
    have hmap : scheme.map toLower = (cstr "Bearer ").map toLower := of_decide_eq_true hscheme
    rw [← List.length_map (f := toLower), hmap, List.length_map]
  have hparts : cstr "Bearer " ++ token.bytes = scheme ++ other.bytes := hbytes
  exact Text.ext (List.append_inj hparts hlength.symm).2

/-- **The gate is fail-closed just when the fetch of the configured token succeeds, or no request
passes its other checks.** -/
theorem gate_failClosed_iff (cfg : Config) (stored : Option Text) (calls : TokenCalls) (now : Int)
    (s : RateLimit) :
    FailClosed cfg stored calls now s ↔ TokenFetched cfg stored calls ∨ Closed cfg now s := by
  constructor
  · intro hclosed
    by_contra hnot
    obtain ⟨hlost, hopen⟩ := not_or.mp hnot
    obtain ⟨hrate, hlist⟩ := not_or.mp hopen
    rw [Bool.not_eq_false] at hrate
    rw [← configuredToken_eq_iff] at hlost
    -- a host that the list allows
    obtain ⟨host, hhost⟩ : ∃ host : Option Text, cfg.hostAllowlist.bytes = [] ∨ ∃ h, host = some h ∧
        hostInAllowlist cfg.hostAllowlist.bytes h.bytes = true := by
      by_cases hempty : cfg.hostAllowlist.bytes = []
      · exact ⟨none, Or.inl hempty⟩
      · obtain ⟨h, hlisted⟩ := not_forall.mp fun hall => hlist ⟨hempty, hall⟩
        exact ⟨some h, Or.inr ⟨h, rfl, Bool.not_eq_false _ ▸ hlisted⟩⟩
    cases heffective : effectiveToken cfg stored with
    | none =>
        have hfetched : TokenFetched cfg stored calls := tokenFetched_of_none heffective
        exact hlost (configuredToken_eq_iff cfg stored calls |>.mpr hfetched)
    | some token =>
        cases hconfigured : configuredToken cfg stored calls with
        | none =>
            -- development mode: a request without the header passes
            have hpass := hclosed _ _ (gate_plainRequest none host hrate
              (fun u hu => by rw [hconfigured] at hu; cases hu) hhost)
            obtain ⟨value, scheme, hvalue, -⟩ := hpass token heffective
            cases hvalue
        | some other =>
            -- the compiled-in token in place of the stored one
            have hpass := hclosed _ _ (gate_plainRequest (some (bearer other)) host hrate
              (fun u hu => by
                rw [hconfigured] at hu
                cases hu
                rw [getHeader_of_ne rfl (List.cons_ne_nil _ _)]
                exact authorizes_bearer other) hhost)
            have hsame := authorized_bearer (hpass token heffective)
            rw [hconfigured, heffective, hsame] at hlost
            exact hlost rfl
  · rintro (hfetched | hclosed) req ok hgate token htoken
    · obtain ⟨-, hauthorizes, -⟩ := passed_of_gate hgate
      rw [← configuredToken_eq_iff] at hfetched
      exact authorized_of_authorizes (hauthorizes token (hfetched.trans htoken))
    · obtain ⟨hrate, -, hhost⟩ := passed_of_gate hgate
      rcases hclosed with hexceeded | ⟨hlist, hnone⟩
      · rw [hexceeded] at hrate
        cases hrate
      · unfold validateHostOrigin at hhost
        rw [if_neg hlist, if_pos] at hhost
        · cases hhost
        · cases getHeader req ok .host with
          | none => rfl
          | some h => rw [Option.any_some, hnone]; rfl

/-- The development build: no compiled-in token, and every host. -/
def development : Config where
  authToken := .empty
  hostAllowlist := .empty
  strictAcceptHeader := false
  rateLimitRps := 10

/-- A stored token for which there is no memory: a request without a token passes. -/
theorem gate_opens_without_memory :
    ¬∀ (cfg : Config) (stored : Option Text) (calls : TokenCalls) (now : Int) (s : RateLimit),
      FailClosed cfg stored calls now s := by
  intro h
  have hgate : mcpAuthGate development (some (.ofBytes (cstr "secret")))
      ⟨true, true, false, true, true⟩ 0 {} (plainRequest none none) (fun _ => true) = .ok := by
    decide
  obtain ⟨value, scheme, hvalue, -⟩ := h _ _ _ _ _ _ _ hgate (.ofBytes (cstr "secret")) rfl
  cases hvalue

end BleGateway.Mcp
