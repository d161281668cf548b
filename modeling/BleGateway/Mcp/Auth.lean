import BleGateway.CborCodec.Message

set_option autoImplicit false

/-! # The gate in front of the MCP endpoint

`mcp_auth.c` and `default_get_header` of `mcp_endpoint.c`. A request is its headers; what the memory
allocator and the NVS driver answer during one run of the gate is a parameter.
-/

namespace BleGateway.Mcp

open CborCodec (Text)

/-! ## Characters -/

def byte (c : Char) : UInt8 := UInt8.ofNat c.toNat

/-- `tolower` in the C locale. -/
def toLower (c : UInt8) : UInt8 := if byte 'A' ≤ c ∧ c ≤ byte 'Z' then c + 32 else c

/-- `strcasecmp(a, b) == 0`. -/
def strcasecmpEq (a b : CString) : Bool := a.map toLower = b.map toLower

/-- `strncasecmp(s, literal, strlen(literal)) == 0`. -/
def startsWithNoCase (s literal : CString) : Bool := strcasecmpEq (s.take literal.length) literal

/-- A blank or a tab. -/
def isBlank (c : UInt8) : Bool := c = byte ' ' ∨ c = byte '\t'

/-- `isspace`: blanks, and the bytes from tab to carriage return. -/
def isSpace (c : UInt8) : Bool := c = byte ' ' ∨ (byte '\t' ≤ c ∧ c ≤ byte '\r')

/-! ## Configuration and requests -/

/-- The compiled-in settings. -/
structure Config where
  authToken : Text
  hostAllowlist : Text
  strictAcceptHeader : Bool
  rateLimitRps : Int

inductive Header
  | contentType
  | authorization
  | host
  | origin
  | accept
  deriving DecidableEq

/-- The headers of a request. -/
structure Request where
  header : Header → Option Text

/-- What the calls answer that fetch the token. -/
structure TokenCalls where
  nvsOpen : Bool
  nvsGetLen : Bool
  malloc : Bool
  nvsGetStr : Bool
  strdup : Bool
  deriving DecidableEq

/-- `default_get_header`: `ok` says whether the value can be allocated and copied. An empty value
counts as missing. -/
def getHeader (req : Request) (ok : Header → Bool) (name : Header) : Option Text :=
  match req.header name with
  | some value => if value.bytes.length = 0 then none else if ok name then some value else none
  | none => none

/-! ## The token -/

/-- The last line of `configured_token`. -/
def compiledInToken (cfg : Config) (calls : TokenCalls) : Option Text :=
  if cfg.authToken.bytes ≠ [] then (if calls.strdup then some cfg.authToken else none) else none

/-- `configured_token`. `stored` is the string under the key `token`. -/
def configuredToken (cfg : Config) (stored : Option Text) (calls : TokenCalls) : Option Text :=
  if calls.nvsOpen then
    match stored with
    | some token =>
        if calls.nvsGetLen ∧ token.bytes.length + 1 > 1 then
          if calls.malloc ∧ calls.nvsGetStr then some token else compiledInToken cfg calls
        else compiledInToken cfg calls
    | none => compiledInToken cfg calls
  else compiledInToken cfg calls

/-- `constant_time_equal`: bytes behind the end of a text count as 0. -/
def constantTimeEqual (a b : CString) : Bool :=
  let diff := (List.range (max a.length b.length)).foldl
    (fun diff i => diff ||| (a.getD i 0 ^^^ b.getD i 0)) (UInt8.ofNat (a.length ^^^ b.length))
  diff == 0

/-! ## The rate limit -/

def MCP_RATE_CAPACITY : Int := 10
def MCP_RATE_WINDOW_US : Int := 1000000

structure RateLimit where
  tokens : Int := MCP_RATE_CAPACITY
  lastRefillUs : Int := 0

/-- A value of `long` or `int`, with 32 bits and a sign. -/
def wrap32 (v : Int) : Int := v.bmod 4294967296

/-- `refill`, the tokens of the whole seconds that have passed. -/
def refillTokens (cfg : Config) (elapsed : Int) : Int :=
  wrap32 (wrap32 (elapsed.tdiv MCP_RATE_WINDOW_US) * cfg.rateLimitRps)

/-- `rate_limit_allow`. -/
def rateLimitAllow (cfg : Config) (now : Int) (s : RateLimit) : Bool × RateLimit :=
  let elapsed := now - s.lastRefillUs
  let s :=
    if MCP_RATE_WINDOW_US ≤ elapsed then
      { tokens := min (wrap32 (s.tokens + refillTokens cfg elapsed)) MCP_RATE_CAPACITY
        lastRefillUs := now }
    else s
  if s.tokens ≤ 0 then (false, s) else (true, { s with tokens := s.tokens - 1 })

/-! ## Headers -/

/-- The size of `normalized` and of `candidate`. -/
def HOST_MAX : Nat := 128

/-- The entries of the allow list in lower case. An entry that does not fit is cut into pieces;
`candidate` is the piece so far. -/
def candidates : CString → CString → List CString
  | [], candidate => [candidate]
  | c :: entry, candidate =>
      if c = byte ',' then candidate :: candidates entry []
      else if candidate.length + 1 < HOST_MAX then candidates entry (candidate ++ [toLower c])
      else candidate :: candidates entry [toLower c]

/-- The host without its port; an IPv6 literal keeps its brackets. -/
def normalizeHost (host : CString) : Option CString :=
  if host.head? = some (byte '[') then
    let literal := host.takeWhile (· ≠ byte ']')
    if literal.length = host.length then none
    else if literal.length + 1 ≥ HOST_MAX then none
    else some (host.take (literal.length + 1))
  else
    let name := host.takeWhile (· ≠ byte ':')
    if name.length ≥ HOST_MAX then none else some name

/-- `host_in_allowlist`; an entry of white space only does not count. -/
def hostInAllowlist (allowlist host : CString) : Bool :=
  match normalizeHost host with
  | none => false
  | some normalized =>
      (candidates allowlist []).any fun candidate =>
        !candidate.all isSpace && strcasecmpEq normalized candidate

/-- `validate_content_type`. -/
def validateContentType : Option CString → Bool
  | none => false
  | some ct =>
      let ct := ct.dropWhile isBlank
      if !startsWithNoCase ct (cstr "application/json") then false
      else
        match ct.drop 16 with
        | [] => true
        | c :: ct =>
            if c ≠ byte ';' then false
            else
              let ct := ct.dropWhile isBlank
              startsWithNoCase ct (cstr "charset=utf-8") &&
                ((ct.drop 13).dropWhile isBlank).isEmpty

structure AcceptState where
  acceptsJson : Bool := false
  acceptsEventStream : Bool := false
  deriving DecidableEq

/-- The media type that has been read. -/
def AcceptState.media (s : AcceptState) (media : CString) : AcceptState :=
  if strcasecmpEq media (cstr "application/json") then { s with acceptsJson := true }
  else if strcasecmpEq media (cstr "text/event-stream") then { s with acceptsEventStream := true }
  else s

/-- Where `parse_accept_header` stands: in front of a media type, in one, or in its parameters. -/
inductive AcceptPhase
  | lead
  | media (read : CString)
  | parameters

/-- `parse_accept_header`, character by character. -/
def parseAcceptHeader : CString → AcceptPhase → AcceptState → AcceptState
  | [], .media read, s => s.media read
  | [], _, s => s
  | c :: rest, .lead, s =>
      if isBlank c ∨ c = byte ',' then parseAcceptHeader rest .lead s
      else if c = byte ';' then parseAcceptHeader rest .parameters (s.media [])
      else parseAcceptHeader rest (.media [c]) s
  | c :: rest, .media read, s =>
      if c = byte ',' then parseAcceptHeader rest .lead (s.media read)
      else if c = byte ';' ∨ isBlank c then parseAcceptHeader rest .parameters (s.media read)
      else parseAcceptHeader rest (.media (read ++ [c])) s
  | c :: rest, .parameters, s =>
      if c = byte ',' then parseAcceptHeader rest .lead s
      else parseAcceptHeader rest .parameters s

/-! ## The gate -/

inductive McpGateStatus
  | ok
  | rateLimited
  | unauthorized
  | forbiddenHost
  | badContentType
  | badAccept
  deriving DecidableEq

/-- `validate_accept`. -/
def validateAccept (cfg : Config) (accept : Option Text) : McpGateStatus :=
  let state := match accept with
    | some accept => parseAcceptHeader accept.bytes .lead {}
    | none => {}
  if !cfg.strictAcceptHeader then
    if accept.isNone || state.acceptsJson then .ok else .badAccept
  else if state.acceptsJson && state.acceptsEventStream then .ok else .badAccept

/-- The text behind the first `://`. -/
def afterScheme : CString → Option CString
  | [] => none
  | c :: rest =>
      if (c :: rest).take 3 = cstr "://" then some (rest.drop 2) else afterScheme rest

/-- `validate_host_origin`. -/
def validateHostOrigin (cfg : Config) (host origin : Option Text) : McpGateStatus :=
  if cfg.hostAllowlist.bytes = [] then .ok
  else if !host.any fun host => hostInAllowlist cfg.hostAllowlist.bytes host.bytes then
    .forbiddenHost
  else
    match origin with
    | some origin =>
        let authority := (afterScheme origin.bytes).getD origin.bytes
        if hostInAllowlist cfg.hostAllowlist.bytes authority then .ok else .forbiddenHost
    | none => .ok

/-- The header carries the token: the scheme in any case, and the token behind it. -/
def authorizes (token : Text) (authorization : Option Text) : Bool :=
  authorization.any fun authorization =>
    startsWithNoCase authorization.bytes (cstr "Bearer ") &&
      constantTimeEqual (authorization.bytes.drop (cstr "Bearer ").length) token.bytes

/-- `mcp_auth_gate`. -/
def mcpAuthGate (cfg : Config) (stored : Option Text) (calls : TokenCalls) (now : Int)
    (s : RateLimit) (req : Request) (ok : Header → Bool) : McpGateStatus :=
  if !validateContentType ((getHeader req ok .contentType).map (·.bytes)) then .badContentType
  else if !(rateLimitAllow cfg now s).1 then .rateLimited
  else if !(configuredToken cfg stored calls).all
      fun token => authorizes token (getHeader req ok .authorization) then
    -- without a token the gate is in development mode and asks for nothing
    .unauthorized
  else
    match validateHostOrigin cfg (getHeader req ok .host) (getHeader req ok .origin) with
    | .ok => validateAccept cfg (getHeader req ok .accept)
    | status => status

end BleGateway.Mcp
