import PubNubCore.Network.Pal

/-!
# The context of a transaction

The fields of `struct pubnub_` that the transaction state machine reads and writes, with the
proxy and the retry API, TLS and several addresses compiled in, as in `openssl/pubnub_config.h`;
without TLS (`useSSL` off) this is the configuration of `posix/pubnub_config.h`.  Sizes are those
of a 64-bit platform: `http_buf_len` is a `size_t`, `http_content_len` an `unsigned`.

Two kinds of ghost data come with them: a transaction is known by its number instead of its
type, and `log` keeps, the newest first, what the machine did that can be seen from outside.
-/

namespace PubNub

/-- `enum pubnub_state`. -/
inductive PbState
  | null | idle | ready | waitDnsSend | waitDnsRcv | waitConnect | connected | waitTlsConnect
  | txGet | txPath | txScheme | txHost | txPortNum | txVer | txExtraHeaders | txOrigin
  | txFinHead | txBody | rxHttpVer | rxHeaders | rxHeaderLine | rxBody | rxBodyWait | rxChunkLen
  | rxChunkLenLine | rxBodyChunk | rxBodyChunkWait | waitClose | waitCancel | waitCancelClose
  | waitCancelDns | keepAliveIdle | keepAliveReady | keepAliveWaitClose | waitCancelKeepalive
  | retry | waitRetry
  deriving DecidableEq, Repr

/-- `enum pubnub_method`. -/
inductive PubnubMethod
  | sendViaGET | sendViaPOST | usePATCH | sendViaPOSTwithGZIP | usePATCHwithGZIP | useDELETE
  deriving DecidableEq, Repr

/-- `HTTP_request_has_body`. -/
def PubnubMethod.hasBody : PubnubMethod → Bool
  | .sendViaGET | .useDELETE => false
  | .sendViaPOST | .usePATCH | .sendViaPOSTwithGZIP | .usePATCHwithGZIP => true

/-- `get_method_verb_string`. -/
def PubnubMethod.verbString : PubnubMethod → Bytes
  | .sendViaGET => ascii "GET "
  | .sendViaPOST | .sendViaPOSTwithGZIP => ascii "POST "
  | .usePATCH | .usePATCHwithGZIP => ascii "PATCH "
  | .useDELETE => ascii "DELETE "

/-- `enum pubnub_proxy_type`. -/
inductive ProxyType
  | httpGet | httpConnect | none
  deriving DecidableEq, Repr

/-- `enum pubnub_http_authentication_scheme`. -/
inductive AuthScheme
  | none | basic | digest | ntlm
  deriving DecidableEq, Repr

/-- The options of a context which do not change during its transactions. -/
structure PubnubOptions where
  useHttpKeepAlive : Bool := true
  useSSL : Bool := false
  fallbackSSL : Bool := false
  proxyType : ProxyType := .none
  retryConfiguration : Bool := false
  origin : Bytes := ascii "ps.pndsn.com"
  deriving Repr

/-- Where `core.message_to_send` points: into `core.http_buf`, or to memory which the state
    machine does not touch (a compressed message). -/
inductive MessageToSend
  | inHttpBuf (ofs : Nat)
  | elsewhere (msg : Bytes)
  deriving DecidableEq, Repr

/-- What a function of the API has prepared when it starts a transaction. -/
structure Request where
  method : PubnubMethod
  url : Bytes
  body : Bytes := []
  compressed : Bool := false
  deriving DecidableEq, Repr

/-- The life of `core.retry_timer`: not allocated; allocated without a thread; with a thread
    that waits; with a thread that runs the state machine. -/
inductive RetryTimer
  | null | stopped | waiting | calling
  deriving DecidableEq, Repr

/-- A piece of a request, as it is handed to `pbpal_send`. -/
inductive Piece
  | connect | verb (s : Bytes) | scheme | origin | port | url (s : Bytes) | version | headers
  | body (s : Bytes)
  deriving DecidableEq, Repr

/-- What can be seen of a transaction from outside. -/
inductive WireEvent
  | started (n : Nat) (r : Request)
  | enqueued (trans : Option Nat)
  | sent (trans : Option Nat) (piece : Piece)
  | reported (trans : Option Nat) (rslt : PubnubRes)
  deriving DecidableEq, Repr

/-- Bytes written to `core.http_reply`: how many, to which index, and how large the buffer was
    asked to be. -/
structure Copy where
  index : Nat
  length : Nat
  capacity : Nat
  deriving DecidableEq, Repr

/-- `struct pubnub_`. -/
structure Pb where
  options : PubnubOptions
  state : PbState
  trans : Option Nat
  method : PubnubMethod
  lastResult : PubnubRes
  pal : Pal
  tls : Bool
  -- the reply buffer
  httpReply : Option Bytes
  capacity : Nat
  copies : List Copy
  -- what is known of the response
  httpBufLen : Nat
  httpContentLen : Nat
  httpChunked : Bool
  httpCode : Nat
  -- the request
  messageToSend : MessageToSend
  proxySavedPath : Bytes
  proxySavedPathLen : Nat
  -- the flags
  shouldClose : Bool
  retryAfterClose : Bool
  startedWhileKeptAlive : Bool
  trySSL : Bool
  proxyTunnelEstablished : Bool
  proxyAuthScheme : AuthScheme
  proxyAuthorizationSent : Bool
  -- retries, and what will wake the state machine up
  retryTimer : RetryTimer
  httpRetryCount : Nat
  queued : Nat
  watched : Bool
  timer : Bool
  log : List WireEvent

namespace Pb

/-- A context that has just been initialised. -/
def init (o : PubnubOptions) : Pb where
  options := o
  state := .idle
  trans := none
  method := .sendViaGET
  lastResult := .ok
  pal := Pal.init
  tls := false
  httpReply := none
  capacity := 0
  copies := []
  httpBufLen := 0
  httpContentLen := 0
  httpChunked := false
  httpCode := 0
  messageToSend := .elsewhere []
  proxySavedPath := []
  proxySavedPathLen := 0
  shouldClose := false
  retryAfterClose := false
  startedWhileKeptAlive := false
  trySSL := false
  proxyTunnelEstablished := false
  proxyAuthScheme := .none
  proxyAuthorizationSent := false
  retryTimer := .null
  httpRetryCount := 0
  queued := 0
  watched := false
  timer := false
  log := []

variable (pb : Pb)

/-- Adds to the log. -/
def observe (e : WireEvent) : Pb := { pb with log := e :: pb.log }

/-- `pbnc_can_start_transaction`. -/
def canStart : Bool := pb.state == .idle || pb.state == .keepAliveIdle

/-- The platform layer has done its part. -/
def withPal (pal : Pal) : Pb := { pb with pal }

/-- The memory of `core.http_buf`. -/
def httpBuf : Bytes := pb.pal.buf.mem

/-- The text to which `core.message_to_send` points. -/
def message : Bytes :=
  match pb.messageToSend with
  | .inHttpBuf ofs => cString (pb.httpBuf.drop ofs)
  | .elsewhere msg => msg

/-- A function of the API has prepared a request: `core.http_buf` holds the URL with its NUL and,
    unless it has been compressed, the body with its NUL behind it. -/
def prepare (r : Request) : Pb :=
  let text := r.url ++ [0] ++ if r.method.hasBody && !r.compressed then r.body ++ [0] else []
  { pb with
    method := r.method
    httpBufLen := r.url.length
    messageToSend := if r.compressed then .elsewhere r.body else .inHttpBuf (r.url.length + 1)
    pal := { pb.pal with buf := pb.pal.buf.write 0 text } }

/-! ## What wakes the state machine up -/

/-- `pbntf_got_socket`, where it succeeds. -/
def gotSocket : Pb := { pb with watched := true, timer := true }

/-- `pbntf_lost_socket`. -/
def lostSocket : Pb := { pb with watched := false, timer := false, queued := pb.queued - 1 }

/-- `pbntf_requeue_for_processing`; the queue may have no room. -/
def requeue (room : Bool) : Pb :=
  if pb.queued = 0 && room then { pb with queued := 1 } else pb

/-! ## The reply buffer -/

/-- `pbcc_realloc_reply_buffer`.  Its argument is an `unsigned`, and so is `bytes + 1`. -/
def reallocReplyBuffer (bytes : Nat) (succeeds : Bool) : Pb × Bool :=
  let size := (bytes % 2 ^ 32 + 1) % 2 ^ 32
  if succeeds then
    ({ pb with httpReply := some ((pb.httpReply.getD []).take size), capacity := size }, true)
  else (pb, false)

/-- `pbcc_ensure_reply_buffer`. -/
def ensureReplyBuffer (succeeds : Bool) : Pb × Bool :=
  match pb.httpReply with
  | some _ => (pb, true)
  | none => if succeeds then ({ pb with httpReply := some [], capacity := 1 }, true) else (pb, false)

/-- Bytes are written to `core.http_reply`. -/
def copyToReply (index : Nat) (src : Bytes) : Pb :=
  let reply := pb.httpReply.getD []
  { pb with
    httpReply := some (reply.take index ++ src ++ reply.drop (index + src.length))
    copies := ⟨index, src.length, pb.capacity⟩ :: pb.copies }

end Pb

end PubNub
