import PubNubCore.Lib.Machine
import PubNubCore.Network.Context

/-!
# The bytes of a request

A request is handed to the socket in pieces: each of the states `PBS_TX_...` waits until the piece
before it has been accepted and submits the next one.  `pbpal_send` remembers where the piece stands
(`ptr`, `len`), and what the socket does not accept at once is sent from there later.

**Where the pieces stand.**  The URL, the origin and the body stand in the context, and the literals
stay as well.  But the headers are put together in buffers on the stack: `hedr` of `pbnc_fsm`, which
is there until `pbnc_fsm` returns, and `s` of `send_fin_head`, which is gone as soon as that function
has returned.

**What goes wrong.**  If the socket does not accept the last headers at once, what is sent of them
later is whatever stands on the stack then.  A header for the authorisation at a proxy that does not
fit into its buffer is cut, and with it the credentials.  A length goes through an `uint16_t`.
-/

namespace PubNub

/-! ## The headers -/

def base64Alphabet : Bytes := ascii "ABCDEFGHIJKLMNOPQRSTUVWXYZabcdefghijklmnopqrstuvwxyz0123456789+/"

/-- One letter of the alphabet. -/
def base64Letter (b : UInt8) : UInt8 := base64Alphabet.getD b.toNat 0

/-- `pbbase64_encode_std`. -/
def base64Encode : Bytes → Bytes
  | a :: b :: c :: data =>
      base64Letter (a >>> 2) :: base64Letter ((a &&& 3) <<< 4 ||| b >>> 4) ::
        base64Letter ((b &&& 15) <<< 2 ||| c >>> 6) :: base64Letter (c &&& 63) :: base64Encode data
  | [a, b] =>
      [base64Letter (a >>> 2), base64Letter ((a &&& 3) <<< 4 ||| b >>> 4),
        base64Letter ((b &&& 15) <<< 2), 61]
  | [a] => [base64Letter (a >>> 2), base64Letter ((a &&& 3) <<< 4), 61, 61]
  | [] => []

/-- What `snprintf` puts into a buffer of some size. -/
def snprintf (size : Nat) (text : Bytes) : Bytes := text.take (size - 1)

/-- The header for the authorisation at a proxy. -/
inductive AuthorizationHeader
  | basic (credentials : Bytes)
  | digest (fields : Bytes)
  | ntlm (token : Bytes)

/-- The header as it should be. -/
def AuthorizationHeader.line : AuthorizationHeader → Bytes
  | .basic credentials => ascii "Proxy-Authorization: Basic " ++ base64Encode credentials
  | .digest fields => ascii "Proxy-Authorization: Digest " ++ fields
  | .ntlm token => ascii "Proxy-Authorization: NTLM " ++ base64Encode token

/-- `pbproxy_http_header_to_send`, with the room that `hedr` leaves.  The credentials go through a
    buffer of their own, `response`; what is encoded has the length they should have, and if that
    is more than the buffer holds it goes on with what stands behind it on the stack. -/
def pbproxyHttpHeaderToSend (stack : Bytes) : AuthorizationHeader → Bytes
  | .basic credentials =>
      ascii "Proxy-Authorization: Basic " ++
        base64Encode ((snprintf 128 credentials ++ 0 :: stack).take credentials.length)
  | .digest fields => ascii "Proxy-Authorization: Digest " ++ snprintf (1022 - 28) fields
  | .ntlm token => ascii "Proxy-Authorization: NTLM " ++ base64Encode token

def crlf : Bytes := [13, 10]

/-- Lines, each on a new one. -/
def onNewLines (lines : List Bytes) : Bytes := lines.flatMap fun line => crlf ++ line

/-! ## The request -/

/-- What the states `PBS_TX_...` find in the context.  `contentLength` and `packed` are what
    `pbcc_via_post_headers` finds out about the body; `proxyHeader` is there if
    `pbproxy_http_header_to_send` makes one. -/
structure TxRequest where
  method : PubnubMethod
  path : Bytes
  origin : Bytes
  proxyType : ProxyType := .none
  tunnel : Bool := false
  ssl : Bool := false
  proxyHeader : Option AuthorizationHeader := none
  body : Bytes := []
  contentLength : Nat := 0
  packed : Bool := false
  userAgent : Bytes
  /-- `core.sdk_uname_buf` has 128 bytes. -/
  userAgent_short : userAgent.length ≤ 127
  acceptsGzip : Bool := false

namespace TxRequest

variable (r : TxRequest)

/-- A tunnel is asked for. -/
def connects : Bool := r.proxyType = .httpConnect && !r.tunnel

/-- The body is sent. -/
def sendsBody : Bool := r.method.hasBody && (r.tunnel || r.proxyType = .none)

def verb : Bytes := if r.connects then ascii "CONNECT " else r.method.verbString

def scheme : Bytes := if r.ssl then ascii "https://" else ascii "http://"

def port : Bytes := if r.ssl then ascii ":443" else ascii ":80"

/-- What is asked for. -/
def target : Bytes :=
  match r.proxyType with
  | .none => r.path
  | .httpGet => r.scheme ++ r.origin ++ r.path
  | .httpConnect => if r.tunnel then r.path else r.origin ++ r.port

/-- `pbcc_via_post_headers`. -/
def contentLines : List Bytes :=
  [ascii "Content-Type: application/json",
    ascii "Content-Length: " ++ ascii (toString r.contentLength)] ++
    if r.packed then [ascii "Content-Encoding: gzip"] else []

/-- The header for the proxy, which is not for what goes through its tunnel. -/
def proxyHeaderToSend : Option AuthorizationHeader := if r.tunnel then none else r.proxyHeader

/-- The header for the proxy, or those that describe the body. -/
def extraLines : List Bytes :=
  match r.proxyHeaderToSend with
  | some h => [h.line]
  | none => if r.sendsBody then r.contentLines else []

/-- The headers which `send_fin_head` sends. -/
def finLines : List Bytes :=
  (ascii "User-Agent: " ++ r.userAgent) ::
    if r.acceptsGzip then [ascii "Accept-Encoding: gzip"] else []

/-- The body, where it is sent. -/
def bodyText : Bytes := if r.sendsBody then r.body else []

/-- **The intended serialization**: request line, headers, blank line, body. -/
def serialization : Bytes :=
  r.verb ++ r.target ++ ascii " HTTP/1.1" ++
    onNewLines ((ascii "Host: " ++ r.origin) :: r.extraLines ++ r.finLines) ++
    crlf ++ crlf ++ r.bodyText

end TxRequest

/-! ## The pieces -/

/-- How long a piece stays where it stands. -/
inductive Scope
  | stays | pbncFsm | sendFinHead
  deriving DecidableEq, Repr

/-- A piece of a request: the text it should have, and the one which stands in memory. -/
structure Fragment where
  text : Bytes
  written : Bytes
  scope : Scope

/-- A piece fits into its buffer, and its length into an `uint16_t`. -/
def Fragment.fits (f : Fragment) : Bool := f.written = f.text && f.text.length < 2 ^ 16

/-- A piece that stays. -/
def Fragment.kept (text : Bytes) : Fragment := ⟨text, text, .stays⟩

namespace TxRequest

variable (r : TxRequest)

/-- `send_fin_head`, with a buffer of 200 bytes. -/
def finHead : Fragment :=
  let text := onNewLines r.finLines ++ crlf ++ crlf
  ⟨text, snprintf 200 text, .sendFinHead⟩

/-- The header for the proxy, in a buffer of 1024 bytes. -/
def proxyFragment (stack : Bytes) (h : AuthorizationHeader) : Fragment :=
  ⟨crlf ++ h.line, crlf ++ pbproxyHttpHeaderToSend stack h, .pbncFsm⟩

/-- The headers that describe the body, in a buffer of 128 bytes. -/
def contentFragment : Fragment :=
  ⟨onNewLines r.contentLines, snprintf 128 (onNewLines r.contentLines), .pbncFsm⟩

/-- What a state submits once the piece before has been sent, and the state that comes next. -/
def next (stack : Bytes) : PbState → Option (Option Fragment × PbState)
  | .connected => some (some (.kept r.verb), .txGet)
  | .txGet =>
      match r.proxyType with
      | .httpGet => some (some (.kept r.scheme), .txScheme)
      | .httpConnect => some (none, .txScheme)
      | .none => some (some (.kept r.path), .txPath)
  | .txScheme =>
      if r.proxyType = .httpConnect && r.tunnel then some (none, .txHost)
      else some (some (.kept r.origin), .txHost)
  | .txHost =>
      if r.connects then some (some (.kept r.port), .txPortNum)
      else some (some (.kept r.path), .txPath)
  | .txPortNum | .txPath => some (some (.kept (ascii " HTTP/1.1\r\nHost: ")), .txVer)
  | .txVer => some (some (.kept r.origin), .txOrigin)
  | .txOrigin =>
      match r.proxyHeaderToSend with
      | some h => some (some (proxyFragment stack h), .txExtraHeaders)
      | none =>
          if r.sendsBody then some (some r.contentFragment, .txExtraHeaders)
          else some (some r.finHead, .txFinHead)
  | .txExtraHeaders => some (some r.finHead, .txFinHead)
  | .txFinHead =>
      if r.sendsBody then some (some (.kept r.body), .txBody) else some (none, .rxHttpVer)
  | .txBody => some (none, .rxHttpVer)
  | _ => none

end TxRequest

/-! ## Sending -/

/-- The part of the context that sends.  `sameCall` says that `pbnc_fsm` has not returned since the
    piece was submitted; `delivered` is what the socket has accepted. -/
structure Tx where
  state : PbState
  pal : Pal
  scope : Scope
  sameCall : Bool
  failed : Bool
  delivered : Bytes

/-- What is not up to the program in one step: the answer of the socket, what stands where the piece
    stood if its buffer is gone, and what stands on the stack. -/
structure TxStep where
  answer : SendAnswer
  memory : Bytes := []
  stack : Bytes := []

/-- The bytes which the socket accepts. -/
def SendAnswer.accepts (data : Bytes) : SendAnswer → Bytes
  | .accepted n => data.take n
  | .error _ => []

namespace Tx

/-- The connection is there. -/
def init : Tx where
  state := .connected
  pal := { Pal.init with socket := some [] }
  scope := .stays
  sameCall := false
  failed := false
  delivered := []

variable (t : Tx)

/-- The piece stands where it stood when it was submitted. -/
def isAvailable : Bool :=
  match t.scope with
  | .stays => true
  | .pbncFsm => t.sameCall
  | .sendFinHead => false

/-- What is sent of a piece when its sending is resumed. -/
def resumed (memory : Bytes) : Bytes := if t.isAvailable then t.pal.toSend else memory

/-- `pbpal_send_status`, of a piece that has not been sent whole. -/
def resume (e : TxStep) : Option Tx :=
  let data := t.resumed e.memory
  if data.length = t.pal.toSend.length then
    ({ t.pal with toSend := data }.sendStatus e.answer).map fun (pal, rslt) =>
      { t with
        pal
        sameCall := false
        failed := decide (rslt = SendResult.failed)
        delivered := t.delivered ++ e.answer.accepts data }
  else none

/-- `pbpal_send`, of the next piece. -/
def submit (e : TxStep) (f : Fragment) (state : PbState) : Option Tx :=
  (t.pal.send f.written e.answer).map fun (pal, rslt) =>
    { state
      pal
      scope := f.scope
      sameCall := true
      failed := decide (rslt = SendResult.failed)
      delivered :=
        t.delivered ++ e.answer.accepts (f.written.take (f.written.length % 2 ^ 16)) }

/-- One step: `pbpal_send_status` or `pbpal_send`, where there is something to send. -/
def step (r : TxRequest) (e : TxStep) : Option Tx :=
  if t.failed then none
  else if t.pal.toSend ≠ [] then t.resume e
  else
    match r.next e.stack t.state with
    | none => none
    | some (none, state) => some { t with state }
    | some (some f, state) => t.submit e f state

end Tx

/-- The sending of a request. -/
def txMachine (r : TxRequest) : Machine Tx TxStep where
  init := .init
  step := fun t e => t.step r e

/-! ## What is still to be sent -/

namespace TxRequest

variable (r : TxRequest)

/-- What comes after the origin. -/
def afterOrigin : Bytes :=
  onNewLines r.extraLines ++ onNewLines r.finLines ++ crlf ++ crlf ++ r.bodyText

/-- What comes after the target. -/
def afterTarget : Bytes := ascii " HTTP/1.1\r\nHost: " ++ r.origin ++ r.afterOrigin

/-- What the states from this one on have to submit. -/
def pending : PbState → Bytes
  | .connected => r.verb ++ r.target ++ r.afterTarget
  | .txGet => r.target ++ r.afterTarget
  | .txScheme =>
      (if r.proxyType = .httpConnect && r.tunnel then [] else r.origin) ++
        (if r.connects then r.port else r.path) ++ r.afterTarget
  | .txHost => (if r.connects then r.port else r.path) ++ r.afterTarget
  | .txPortNum | .txPath => r.afterTarget
  | .txVer => r.origin ++ r.afterOrigin
  | .txOrigin => r.afterOrigin
  | .txExtraHeaders => onNewLines r.finLines ++ crlf ++ crlf ++ r.bodyText
  | .txFinHead => r.bodyText
  | _ => []

/-- The first state has everything to submit. -/
lemma pending_connected : r.pending .connected = r.serialization := by
  simp only [pending, serialization, afterTarget, afterOrigin, onNewLines, List.flatMap_cons,
    List.flatMap_append, List.cons_append, List.append_assoc]
  rfl

/-- **A state submits what is next of it.** -/
lemma pending_next {stack : Bytes} {state state' : PbState} {f : Option Fragment}
    (h : r.next stack state = some (f, state')) :
    r.pending state = (f.map Fragment.text).getD [] ++ r.pending state' := by
  cases state
  case connected =>
      obtain ⟨rfl, rfl⟩ := Prod.mk.inj (Option.some.inj h)
      simp [pending, Fragment.kept]
  case txGet =>
      simp only [next] at h
      cases hproxy : r.proxyType with
      | httpGet =>
          rw [hproxy] at h
          obtain ⟨rfl, rfl⟩ := Prod.mk.inj (Option.some.inj h)
          simp [pending, target, connects, Fragment.kept, hproxy]
      | httpConnect =>
          rw [hproxy] at h
          obtain ⟨rfl, rfl⟩ := Prod.mk.inj (Option.some.inj h)
          cases htunnel : r.tunnel
          all_goals simp [pending, target, connects, hproxy, htunnel]
      | none =>
          rw [hproxy] at h
          obtain ⟨rfl, rfl⟩ := Prod.mk.inj (Option.some.inj h)
          simp [pending, target, Fragment.kept, hproxy]
  case txScheme =>
      simp only [next] at h
      split at h
      · rename_i hconnect
        obtain ⟨rfl, rfl⟩ := Prod.mk.inj (Option.some.inj h)
        simp [pending, hconnect]
      · rename_i hconnect
        obtain ⟨rfl, rfl⟩ := Prod.mk.inj (Option.some.inj h)
        simp [pending, hconnect, Fragment.kept]
  case txHost =>
      simp only [next] at h
      split at h
      · rename_i hconnect
        obtain ⟨rfl, rfl⟩ := Prod.mk.inj (Option.some.inj h)
        simp [pending, hconnect, Fragment.kept]
      · rename_i hconnect
        obtain ⟨rfl, rfl⟩ := Prod.mk.inj (Option.some.inj h)
        simp [pending, hconnect, Fragment.kept]
  case txPortNum =>
      obtain ⟨rfl, rfl⟩ := Prod.mk.inj (Option.some.inj h)
      simp [pending, afterTarget, Fragment.kept]
  case txPath =>
      obtain ⟨rfl, rfl⟩ := Prod.mk.inj (Option.some.inj h)
      simp [pending, afterTarget, Fragment.kept]
  case txVer =>
      obtain ⟨rfl, rfl⟩ := Prod.mk.inj (Option.some.inj h)
      simp [pending, Fragment.kept]
  case txOrigin =>
      simp only [next] at h
      cases hheader : r.proxyHeaderToSend with
      | some header =>
          rw [hheader] at h
          obtain ⟨rfl, rfl⟩ := Prod.mk.inj (Option.some.inj h)
          simp [pending, afterOrigin, extraLines, hheader, proxyFragment, onNewLines]
      | none =>
          rw [hheader] at h
          dsimp only at h
          split at h
          · rename_i hbody
            obtain ⟨rfl, rfl⟩ := Prod.mk.inj (Option.some.inj h)
            simp [pending, afterOrigin, extraLines, hheader, hbody, contentFragment]
          · rename_i hbody
            obtain ⟨rfl, rfl⟩ := Prod.mk.inj (Option.some.inj h)
            simp [pending, afterOrigin, extraLines, hheader, hbody, finHead, onNewLines]
  case txExtraHeaders =>
      obtain ⟨rfl, rfl⟩ := Prod.mk.inj (Option.some.inj h)
      simp [pending, finHead]
  case txFinHead =>
      simp only [next] at h
      split at h
      · rename_i hbody
        obtain ⟨rfl, rfl⟩ := Prod.mk.inj (Option.some.inj h)
        simp [pending, bodyText, hbody, Fragment.kept]
      · rename_i hbody
        obtain ⟨rfl, rfl⟩ := Prod.mk.inj (Option.some.inj h)
        simp [pending, bodyText, hbody]
  case txBody =>
      obtain ⟨rfl, rfl⟩ := Prod.mk.inj (Option.some.inj h)
      rfl
  all_goals cases h

/-- The state after the request is reached without submitting anything. -/
lemma next_ne_rxHttpVer {stack : Bytes} {state state' : PbState} {f : Fragment}
    (h : r.next stack state = some (some f, state')) : state' ≠ .rxHttpVer := by
  rintro rfl
  cases state
  all_goals
    simp only [next] at h
    try split at h
    all_goals
      try split at h
      all_goals cases h

/-- The closing headers always fit into their buffer. -/
lemma finHead_written : r.finHead.written = r.finHead.text := by
  refine List.take_of_length_le ?_
  have hua := r.userAgent_short
  have hlines : (onNewLines r.finLines).length ≤ 2 + (12 + 127) + (2 + 21) := by
    rw [finLines, onNewLines]
    cases r.acceptsGzip
    all_goals
      simp [crlf, ascii]
      omega
  simp only [List.length_append, crlf, List.length_cons, List.length_nil]
  omega

end TxRequest

/-! ## The step -/

/-- What `pbpal_send_status` does with the data: it fails without having moved a byte, or what the
    socket has accepted and what is left of the data are the data. -/
lemma Pal.sendStatus_accepts {p p' : Pal} {a : SendAnswer} {rslt : SendResult}
    (h : p.sendStatus a = some (p', rslt)) :
    (rslt = .failed ∧ a.accepts p.toSend = []) ∨
      (rslt ≠ .failed ∧ a.accepts p.toSend ++ p'.toSend = p.toSend) := by
  unfold sendStatus at h
  split at h
  · rename_i hnil
    obtain ⟨rfl, rfl⟩ := Prod.mk.inj (Option.some.inj h)
    refine .inr ⟨by decide, ?_⟩
    rw [hnil]
    cases a
    all_goals simp [SendAnswer.accepts]
  · split at h
    · cases h
    · cases a with
      | accepted n =>
          cases n with
          | zero =>
              obtain ⟨rfl, rfl⟩ := Prod.mk.inj (Option.some.inj h)
              exact .inl ⟨rfl, rfl⟩
          | succ n =>
              dsimp only at h
              split at h
              · rename_i hall
                obtain ⟨rfl, rfl⟩ := Prod.mk.inj (Option.some.inj h)
                refine .inr ⟨by decide, ?_⟩
                rw [SendAnswer.accepts, List.take_of_length_le hall, List.append_nil]
              · obtain ⟨rfl, rfl⟩ := Prod.mk.inj (Option.some.inj h)
                exact .inr ⟨by decide, List.take_append_drop (n + 1) p.toSend⟩
      | error e =>
          cases e
          case wouldBlock =>
              obtain ⟨rfl, rfl⟩ := Prod.mk.inj (Option.some.inj h)
              exact .inr ⟨by decide, List.nil_append _⟩
          all_goals
            obtain ⟨rfl, rfl⟩ := Prod.mk.inj (Option.some.inj h)
            exact .inl ⟨rfl, rfl⟩

namespace Tx

variable {r : TxRequest} {t t' : Tx} {e : TxStep}

/-- **Where the bytes are the right ones**: the buffer of a piece is still there when its sending is
    resumed, and a piece that is submitted fits into its buffer and its length into an
    `uint16_t`. -/
def Sendable (r : TxRequest) (t : Tx) (e : TxStep) : Prop :=
  if t.pal.toSend ≠ [] then t.isAvailable = true
  else (r.next e.stack t.state).all (fun p => p.1.all Fragment.fits) = true

instance (r : TxRequest) (t : Tx) (e : TxStep) : Decidable (Sendable r t e) :=
  inferInstanceAs (Decidable (if t.pal.toSend ≠ [] then t.isAvailable = true
    else (r.next e.stack t.state).all (fun p => p.1.all Fragment.fits) = true))

/-- What has been delivered, what is left of the piece and what is to be submitted make up the
    request; after a failure nothing follows. -/
structure Ordered (r : TxRequest) (t : Tx) : Prop where
  inOrder : t.failed = false →
    t.delivered ++ (t.pal.toSend ++ r.pending t.state) = r.serialization
  isPrefix : t.delivered <+: r.serialization
  atEnd : t.state = .rxHttpVer → t.pal.toSend = [] ∨ t.failed = true

lemma ordered_init : Ordered r .init where
  inOrder _ := r.pending_connected
  isPrefix := List.nil_prefix
  atEnd h := nomatch h

/-- A piece of which the socket has accepted something. -/
lemma ordered_of_accepts {data : Bytes} {rslt : SendResult}
    (hpre : t.delivered ++ (data ++ r.pending t'.state) = r.serialization)
    (hdelivered : t'.delivered = t.delivered ++ e.answer.accepts data)
    (hfailed : t'.failed = decide (rslt = .failed))
    (hsend : (rslt = .failed ∧ e.answer.accepts data = []) ∨
      (rslt ≠ .failed ∧ e.answer.accepts data ++ t'.pal.toSend = data))
    (hend : t'.state ≠ .rxHttpVer) : Ordered r t' := by
  rcases hsend with ⟨hrslt, haccepts⟩ | ⟨hrslt, haccepts⟩
  · have hsame : t'.delivered = t.delivered := by rw [hdelivered, haccepts, List.append_nil]
    refine ⟨fun hok => ?_, ?_, fun he => absurd he hend⟩
    · rw [hfailed, hrslt] at hok
      cases hok
    · rw [hsame]
      exact ⟨_, hpre⟩
  · have horder : t'.delivered ++ (t'.pal.toSend ++ r.pending t'.state) = r.serialization := by
      rw [hdelivered, List.append_assoc, ← List.append_assoc _ t'.pal.toSend, haccepts]
      exact hpre
    exact ⟨fun _ => horder, ⟨_, horder⟩, fun he => absurd he hend⟩

lemma ordered_step (h : Ordered r t) (hsend : Sendable r t e) (hst : t.step r e = some t') :
    Ordered r t' := by
  rw [step] at hst
  rw [Sendable] at hsend
  split at hst
  · cases hst
  · rename_i hok
    have hok : t.failed = false := (Bool.not_eq_true _).mp hok
    have horder := h.inOrder hok
    split at hst
    · rename_i hleft
      rw [if_pos hleft] at hsend
      have hdata : t.resumed e.memory = t.pal.toSend := by rw [resumed, if_pos hsend]
      rw [resume, hdata, if_pos rfl] at hst
      obtain ⟨⟨pal, rslt⟩, hpal, rfl⟩ := Option.map_eq_some_iff.mp hst
      have hend : t.state ≠ .rxHttpVer := by
        intro he
        rcases h.atEnd he with hnil | hfailed
        · exact hleft hnil
        · rw [hok] at hfailed
          cases hfailed
      exact ordered_of_accepts horder rfl rfl (Pal.sendStatus_accepts hpal) hend
    · rename_i hleft
      rw [if_neg hleft] at hsend
      have hleft : t.pal.toSend = [] := Classical.not_not.mp hleft
      rw [hleft, List.nil_append] at horder
      split at hst
      · cases hst
      · rename_i state hnext
        obtain rfl := Option.some.inj hst
        have horder : t.delivered ++ (t.pal.toSend ++ r.pending state) = r.serialization := by
          rw [hleft, List.nil_append, ← horder, r.pending_next hnext]
          rfl
        exact ⟨fun _ => horder, h.isPrefix, fun _ => .inl hleft⟩
      · rename_i f state hnext
        rw [hnext] at hsend
        simp only [Option.all_some, Fragment.fits, Bool.and_eq_true, decide_eq_true_eq] at hsend
        obtain ⟨hwritten, hlen⟩ := hsend
        have hdata : f.written.take (f.written.length % 2 ^ 16) = f.text := by
          rw [hwritten, Nat.mod_eq_of_lt hlen, List.take_length]
        rw [submit, hdata] at hst
        obtain ⟨⟨pal, rslt⟩, hpal, rfl⟩ := Option.map_eq_some_iff.mp hst
        rw [r.pending_next hnext] at horder
        refine ordered_of_accepts horder rfl rfl ?_ (r.next_ne_rxHttpVer hnext)
        rw [Pal.send] at hpal
        split at hpal
        · have haccepts := Pal.sendStatus_accepts hpal
          rw [hdata] at haccepts
          exact haccepts
        · cases hpal

/-! ## The run -/

lemma ordered_of_reachable (hr : (txMachine r).Reachable (Sendable r) t) : Ordered r t :=
  hr.invariant ordered_init fun _ _ _ h hsend hst => ordered_step h hsend hst

/-- **Every byte once and in order**: in a run whose steps meet the condition, what has been
    delivered is a beginning of the request, and all of it when the response is waited for. -/
theorem delivered_in_order (hr : (txMachine r).Reachable (Sendable r) t) :
    t.delivered <+: r.serialization ∧
      (t.state = .rxHttpVer → t.failed = false → t.delivered = r.serialization) := by
  have h := ordered_of_reachable hr
  refine ⟨h.isPrefix, fun hend hok => ?_⟩
  have horder := h.inOrder hok
  rcases h.atEnd hend with hnil | hfailed
  · rw [hnil, hend] at horder
    simpa [TxRequest.pending] using horder
  · rw [hok] at hfailed
    cases hfailed

/-- A request with a body. -/
def postRequest : TxRequest where
  method := .sendViaPOST
  path := ascii "/v3/pam/demo/grant?pnsdk=c-core"
  origin := ascii "ps.pndsn.com"
  body := ascii "\x7b\"ttl\":1\x7d"
  contentLength := 9
  userAgent := ascii "POSIX-PubNub-C-core/7.2.2"
  userAgent_short := by decide

/-- The socket accepts all that it is given. -/
def acceptAll : TxStep := ⟨.accepted 1000, [], []⟩

/-- The URL is accepted in three parts, the socket would block in the middle of the headers that
    describe the body, and the rest goes at once. -/
def sendInParts : List TxStep :=
  [acceptAll, ⟨.accepted 5, [], []⟩, ⟨.error .wouldBlock, [], []⟩, ⟨.accepted 7, [], []⟩,
    acceptAll, acceptAll, acceptAll, ⟨.accepted 9, [], []⟩, acceptAll, acceptAll, acceptAll,
    acceptAll]

theorem delivered_in_order_sendInParts :
    ∃ t, (txMachine postRequest).Reachable (Sendable postRequest) t ∧ t.state = .rxHttpVer ∧
      t.delivered <+: postRequest.serialization ∧
      (t.state = .rxHttpVer → t.failed = false → t.delivered = postRequest.serialization) := by
  obtain ⟨t, hr, ht⟩ := (txMachine postRequest).exists_reachable_of_replay
    (fun t e => decide (Sendable postRequest t e)) sendInParts (fun t => t.state = .rxHttpVer)
    (fun _ _ => of_decide_eq_true) (by decide +kernel)
  exact ⟨t, hr, by simpa using ht, delivered_in_order hr⟩

/-- The socket accepts ten bytes of the last headers, and the rest later. -/
def finHeadInParts : List TxStep :=
  [acceptAll, acceptAll, acceptAll, acceptAll, acceptAll, ⟨.accepted 10, [], []⟩,
    ⟨.accepted 1000, List.replicate 33 0, []⟩]

theorem not_always_delivered_in_order :
    ¬ ∀ t, (txMachine postRequest).Reachable Machine.anyStep t →
      t.delivered <+: postRequest.serialization := by
  intro h
  obtain ⟨t, hr, ht⟩ := (txMachine postRequest).exists_reachable_of_replay
    (G := Machine.anyStep) (fun _ _ => true) finHeadInParts
    (fun t => 0 ∈ t.delivered && 0 ∉ postRequest.serialization)
    (fun _ _ _ => trivial) (by decide +kernel)
  simp only [Bool.and_eq_true, decide_eq_true_eq] at ht
  exact ht.2 ((h t hr).subset ht.1)

end Tx

end PubNub
