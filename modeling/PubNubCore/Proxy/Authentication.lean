import PubNubCore.Network.ProxyHeader

/-!
# Authentication at a proxy

`core/pubnub_proxy_core.c` and the parser of `core/pbhttp_digest.c`, for the schemes Basic and
Digest.  The proxy asks for credentials with `Proxy-Authenticate` headers; the scheme, the realm
and the parameters of Digest are remembered in the context, `proxy_authorization_sent` says
whether the credentials have gone out, and `auth_msg_count` counts how often Digest has been asked
for in a realm.

A line is the C string that begins with it in the receive buffer.  Of NTLM only the choice of the
scheme is modelled: what its messages do is an `NtlmAnswer`.
-/

namespace PubNub

/-! ## The parser -/

/-- `PUBNUB_MAX_HTTP_AUTH_REALM`. -/
def maxHttpAuthRealm : Nat := 31

/-- `PUBNUB_MAX_HTTP_NONCE`. -/
def maxHttpNonce : Nat := 63

/-- `PUBNUB_MAX_HTTP_OPAQUE`. -/
def maxHttpOpaque : Nat := 63

/-- `NUM_EXPECTED_DIGEST_AUTH_MESSAGES`. -/
def numExpectedDigestAuthMessages : Nat := 1

/-- What stands between the quotes of a value. -/
def unquoted (value : Bytes) : Bytes := (value.drop 1).take (value.length - 2)

/-- `pbproxy_check_realm`. -/
def pbproxyCheckRealm (value : Bytes) : Bool :=
  decide (value.length ≤ maxHttpAuthRealm + 1) && (value.head? == some 34) &&
    decide (2 < value.length)

/-- `enum pbhttp_digest_algorithm`, as far as the parser sets it. -/
inductive DigestAlgorithm
  | md5 | md5Sess | unknown
  deriving DecidableEq, Repr

/-- `enum pbhttp_digest_qop`. -/
inductive DigestQop
  | none | auth | authInt
  deriving DecidableEq, Repr

/-- `struct pbhttp_digest_context`, without the nonce of the client. -/
structure DigestContext where
  nonce : Bytes
  opaqueData : Bytes
  algorithm : DigestAlgorithm
  qop : DigestQop
  nc : Nat
  deriving DecidableEq, Repr

/-- `pbhttp_digest_init`. -/
def pbhttpDigestInit : DigestContext := ⟨[], [], .unknown, .none, 1⟩

/-- `pubnub_find_str_in_chamebl`; a text at the very end is not found. -/
def pubnubFindStrInChamebl (value s : Bytes) : Bool :=
  (List.range (value.length - s.length)).any fun i => startsWith (value.drop i) s

/-- The variables of `pbhttp_digest_parse_header`; `found` is `equal_consecutive_realms` once
    `realm_found` is set. -/
structure DigestParse where
  ctx : DigestContext
  realm : Bytes
  found : Option Bool
  deriving DecidableEq, Repr

/-- One pass of the loop; `none` is a parameter error, before which nothing has been changed. -/
def DigestParse.parameter (st : DigestParse) (key value : Bytes) : Option DigestParse :=
  if startsWith key (ascii "realm") then
    if pbproxyCheckRealm value then
      some { st with realm := unquoted value, found := some (decide (st.realm = unquoted value)) }
    else none
  else if startsWith key (ascii "nonce") then
    if value.head? = some 34 ∧ 2 < value.length ∧ value.length - 2 ≤ maxHttpNonce then
      some { st with ctx := { st.ctx with nonce := unquoted value, nc := 1 } }
    else none
  else if startsWith key (ascii "opaque") then
    if value.length ≤ maxHttpOpaque then some { st with ctx := { st.ctx with opaqueData := value } }
    else none
  else if startsWith key (ascii "algorithm") then
    if pubnubFindStrInChamebl value (ascii "MD5-sess") then
      some { st with ctx := { st.ctx with algorithm := .md5Sess } }
    else if pubnubFindStrInChamebl value (ascii "MD5") then
      some { st with ctx := { st.ctx with algorithm := .md5 } }
    else some st
  else if startsWith key (ascii "qop") then
    if pubnubFindStrInChamebl value (ascii "auth-int") then
      some { st with ctx := { st.ctx with qop := .authInt } }
    else if pubnubFindStrInChamebl value (ascii "auth") then
      some { st with ctx := { st.ctx with qop := .auth } }
    else some st
  else if startsWith key (ascii "stale") then
    if pubnubFindStrInChamebl value (ascii "true") then
      some { st with ctx := { st.ctx with nc := 1 } }
    else some st
  else some st

/-- The loop.  It says whether there was no parameter error. -/
def DigestParse.loop (st : DigestParse) : List (Bytes × Option Bytes) → Bool × DigestParse
  | [] => (true, st)
  | (key, value) :: ps =>
      match st.parameter key (value.getD []) with
      | none => (false, st)
      | some st => st.loop ps

/-- `pbhttp_digest_parse_header`. -/
def pbhttpDigestParseHeader (ctx : DigestContext) (header realm : Bytes) : Bool × DigestParse :=
  DigestParse.loop ⟨ctx, realm, none⟩ (keyValues header)

/-- The loop for a Basic challenge: the value which is there when the realm is found.  A parameter
    without a value leaves the one before. -/
def basicRealm (value : Bytes) : List (Bytes × Option Bytes) → Option Bytes
  | [] => none
  | p :: ps =>
      if isRealm p then some (p.2.getD value) else basicRealm (p.2.getD value) ps

/-! ## The context -/

/-- The fields of the context that belong to the proxy. -/
structure ProxyAuth where
  scheme : AuthScheme
  sent : Bool
  realm : Bytes
  count : Nat
  digest : DigestContext
  deriving DecidableEq, Repr

/-- What the messages of NTLM come to: whether there is one to send, and whether it was the last
    one. -/
structure NtlmAnswer where
  built : Bool
  last : Bool
  deriving DecidableEq, Repr

/-- The options for the proxy. -/
structure ProxyOptions where
  proxyType : ProxyType
  username : Bytes
  password : Bytes
  deriving Repr

namespace ProxyAuth

variable (p : ProxyAuth)

/-- `process_digest_header_line`; the first result says whether the line is accepted. -/
def processDigestHeaderLine (header : Bytes) : Bool × ProxyAuth :=
  let r := pbhttpDigestParseHeader p.digest header p.realm
  let p := { p with digest := r.2.ctx, realm := r.2.realm }
  if r.1 = false then (false, p)
  else
    match r.2.found with
    | none => (true, p)
    | some false => (true, { p with count := 1 })
    | some true =>
        let count := (p.count + 1) % 256
        (decide (count ≤ numExpectedDigestAuthMessages), { p with count := count })

/-- A Basic challenge. -/
def handleBasic (contents : Bytes) : Bool × ProxyAuth :=
  match basicRealm [] (keyValues (contents.drop 6)) with
  | none =>
      if p.sent = true ∧ p.realm = [] then (false, p)
      else (true, { p with realm := [], scheme := .basic, sent := false })
  | some value =>
      if pbproxyCheckRealm value = false then (false, p)
      else if p.sent = true ∧ p.realm = unquoted value then (false, p)
      else (true, { p with realm := unquoted value, scheme := .basic, sent := false })

/-- A Digest challenge. -/
def handleDigest (contents : Bytes) : Bool × ProxyAuth :=
  let r := { p with scheme := .digest, digest := pbhttpDigestInit }.processDigestHeaderLine
    (contents.drop 7)
  if r.1 then (true, { r.2 with sent := false }) else r

/-- An NTLM challenge: the first one chooses the scheme, and the others are handed on. -/
def handleNtlm : Bool × ProxyAuth :=
  if p.scheme ≠ .ntlm then (true, { p with scheme := .ntlm, sent := false }) else (true, p)

/-- What `pbproxy_handle_http_header` takes a line for. -/
inductive ProxyLine
  | other
  | folded (header : Bytes)
  | basic (contents : Bytes)
  | digest (contents : Bytes)
  | ntlm
  | passedOver (contents : Bytes)

/-- The branches of `pbproxy_handle_http_header`; a challenge in a scheme of lower priority than
    the one that is remembered is passed over. -/
def readLine (line : Bytes) : ProxyLine :=
  if line.head?.any isBlank then
    if p.scheme = .digest then .folded (line.drop 1) else .other
  else if startsWith line (ascii "Proxy-Authenticate: ") then
    let contents := line.drop 20
    if startsWith contents (ascii "Basic") ∧ p.scheme.priority ≤ AuthScheme.basic.priority then
      .basic contents
    else if startsWith contents (ascii "Digest") ∧
        p.scheme.priority ≤ AuthScheme.digest.priority then
      .digest contents
    else if startsWith contents (ascii "NTLM") ∧ p.scheme.priority ≤ AuthScheme.ntlm.priority then
      .ntlm
    else .passedOver contents
  else .other

/-- `pbproxy_handle_http_header`. -/
def pbproxyHandleHttpHeader (line : Bytes) : Bool × ProxyAuth :=
  match p.readLine line with
  | .other | .passedOver _ => (true, p)
  | .folded header => p.processDigestHeaderLine header
  | .basic contents => p.handleBasic contents
  | .digest contents => p.handleDigest contents
  | .ntlm => p.handleNtlm

/-- `pbbase64_char_array_size_for_encoding`. -/
def base64Size (length : Nat) : Nat := (length + 2) / 3 * 4 + 1

/-- Whether `pbproxy_http_header_to_send` builds a header of the scheme, in the 1022 bytes
    `pbnc_fsm` has for it.  The size of a Basic header is computed from the length that
    `snprintf` returns; Digest refuses a quality of protection without a nonce. -/
def builds (options : ProxyOptions) (ntlm : NtlmAnswer) : Bool :=
  match p.scheme with
  | .none => false
  | .basic =>
      decide (base64Size (options.username.length + 1 + options.password.length) ≤
        1022 - ((ascii "Proxy-Authorization: Basic ").length + 1))
  | .digest => decide (p.digest.qop = .none ∨ p.digest.nonce ≠ [])
  | .ntlm => ntlm.built

/-- `pbproxy_http_header_to_send`; the first result says whether there is a header. -/
def pbproxyHttpHeaderToSend (options : ProxyOptions) (ntlm : NtlmAnswer) : Bool × ProxyAuth :=
  if p.builds options ntlm then
    match p.scheme with
    | .none => (true, p)
    | .basic => (true, { p with sent := true })
    | .digest =>
        let nc := if p.digest.qop = .none then p.digest.nc else p.digest.nc + 1
        (true, { p with sent := true, digest := { p.digest with nc := nc } })
    | .ntlm => (true, { p with sent := p.sent || ntlm.last })
  else (false, p)

/-- `initialize_fields_in_state_IDLE` and `PBS_KEEP_ALIVE_IDLE`. -/
def initializeFields : ProxyAuth := { p with sent := false, count := 0 }

end ProxyAuth

/-- `enum pbproxyFinInstruction`. -/
inductive ProxyFinInstruction
  | goOn | retry | error
  deriving DecidableEq, Repr

/-- `pbproxy_handle_finish`, before the tunnel is established; the second result says whether it is
    afterwards. -/
def pbproxyHandleFinish (options : ProxyOptions) (p : ProxyAuth) (httpCode : Nat) :
    ProxyFinInstruction × Bool :=
  if httpCode = 407 then (if p.sent = true ∨ p.scheme = .none then .error else .retry, false)
  else if options.proxyType = .httpConnect ∧ httpCode / 100 = 2 then (.retry, true)
  else (.goOn, false)

end PubNub
