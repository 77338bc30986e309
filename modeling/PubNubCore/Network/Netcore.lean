import PubNubCore.Network.Context

/-!
# The transaction state machine

`core/pubnub_netcore.c`.  `pbnc_fsm` is a `switch` on the state of the context inside a loop that
goes round as long as the branches say `goto next_state`.  One **pass** through the `switch` is
one Lean function, with one definition for each branch under the name of its state.

Everything the branch asks of the platform (does the socket accept the data, has the name been
resolved) comes from the answers of the pass.  A pass may end the transaction.  Then it calls
`pbntf_trans_outcome`, which may call the user's callback, and what is left of the branch runs
after that; so a pass says how it goes on instead of going on.
-/

namespace PubNub

/-! ## The answers of the platform -/

/-- `enum pbpal_resolv_n_connect_result`; the values that stand for an error are one. -/
inductive Resolved
  | sendWouldblock | sent | rcvWouldblock | connectWouldblock | connectSuccess | failed
  deriving DecidableEq, Repr

/-- `enum pbpal_tls_result`; waiting for reading or writing makes no difference here. -/
inductive TlsResult
  | established | started | failed | resourceFailure
  deriving DecidableEq, Repr

/-- A function that answers with a negative number, zero, or a positive number: it has failed,
    the caller shall go on at once, or it will be called back. -/
inductive Sign
  | failed | atOnce | later
  deriving DecidableEq, Repr

/-- What `pbproxy_handle_http_header` makes of a header line of a proxy. -/
inductive ProxyHeader
  | ignored | challenge (scheme : AuthScheme) (authorizationSent : Bool) | refused
  deriving DecidableEq, Repr

/-- The answers to what one pass may ask. -/
structure Answer where
  /-- `pbntf_enqueue_for_processing` -/
  enqueue : Sign := .later
  /-- `pbpal_resolv_and_connect` and the functions that check on it -/
  resolv : Resolved := .connectSuccess
  /-- `pbntf_got_socket` -/
  gotSocket : Sign := .later
  /-- `pbpal_start_tls` and `pbpal_check_tls` -/
  tls : TlsResult := .established
  /-- Another address of the host is left to be tried. -/
  spareAddress : Bool := false
  /-- The `send` of `pbpal_send_status`. -/
  status : SendAnswer := .accepted pubnubBufMaxlen
  /-- The first `send` of the `pbpal_send` which follows. -/
  send : SendAnswer := .accepted pubnubBufMaxlen
  recv : RecvAnswer := .error .wouldBlock
  /-- `pbpal_close` has only begun to close the connection. -/
  closing : Bool := false
  /-- `pbpal_closed` -/
  closed : Bool := true
  /-- The limits of the advanced keep-alive have been reached. -/
  keepAliveOver : Bool := false
  /-- The allocation of the reply buffer succeeds. -/
  alloc : Bool := true
  /-- What unpacking and parsing the reply yields. -/
  parsed : PubnubRes := .ok
  proxyHeader : ProxyHeader := .ignored
  /-- `pbproxy_http_header_to_send` has produced a header. -/
  authHeader : Bool := true
  /-- The delay of `pubnub_retry_configuration_delay_`, an `uint16_t`. -/
  retryDelay : Nat := 0
  /-- The thread of the retry timer could be created. -/
  retryThread : Bool := true

/-! ## How a pass ends -/

/-- What follows the branch: `goto next_state`, `return`, `break`, or `goto next_state` only if
    `retry_after_close` is set. -/
inductive Next
  | again | ret | brk | againIfRetry
  deriving DecidableEq, Repr

/-- What `pbntf_trans_outcome` still has to call: nothing, the user's callback, the state
    machine (no thread for the retry timer), or a thread it will wait for in vain. -/
inductive Outcome
  | none | callback | fsm | hang
  deriving DecidableEq, Repr

/-- The end of a pass.  `keptAlive` is set when `outcome_detected` clears `retry_after_close`
    after the outcome has been reported. -/
structure Pass where
  pb : Pb
  outcome : Outcome := .none
  keptAlive : Bool := false
  next : Next

/-- The results after which `should_keep_alive` closes the connection. -/
def PubnubRes.closesConnection : PubnubRes → Bool
  | .addrResolutionFailed | .waitConnectTimeout | .connectFailed | .connectionTimeout | .timeout
  | .aborted | .ioError | .cancelled | .started | .internalError | .authenticationFailed => true
  | _ => false

/-- `pubnub_retry_configuration_retryable_result_`. -/
def PubnubRes.retryable : PubnubRes → Bool
  | .addrResolutionFailed | .waitConnectTimeout | .connectFailed | .connectionTimeout | .timeout
  | .aborted | .httpError => true
  | _ => false

namespace Pb

variable (pb : Pb) (a : Answer)

/-- `goto next_state`. -/
def again : Pass := { pb, next := .again }

/-- `break`. -/
def brk : Pass := { pb, next := .brk }

/-! ## The outcome of a transaction -/

/-- `pbcc_request_retry_timer_start`. -/
def requestRetryTimerStart : Pb × Outcome :=
  match pb.retryTimer with
  | .waiting | .calling => (pb, .none)
  | .null | .stopped =>
      let pb := { pb with state := .waitRetry, httpRetryCount := pb.httpRetryCount + 1 }
      if a.retryThread then ({ pb with retryTimer := .waiting }, .none)
      else ({ pb with retryTimer := .stopped, state := .retry }, .fsm)

/-- The end of `pbntf_trans_outcome` when there is no retry: the retry timer is freed, which
    waits for its thread, and the callback is called. -/
def reportOutcome : Pb × Outcome :=
  match pb.retryTimer with
  | .waiting => (pb, .hang)
  | .null => (pb.observe (.reported pb.trans pb.lastResult), .callback)
  | .stopped | .calling =>
      ({ pb with httpRetryCount := 0, retryTimer := .null }.observe
        (.reported pb.trans pb.lastResult), .callback)

/-- `pbntf_trans_outcome` of the callback interface. -/
def pbntfTransOutcome (state : PbState) : Pb × Outcome :=
  let pb := { pb with method := .sendViaGET, state := state }
  if pb.options.retryConfiguration && pb.lastResult.retryable && 0 < a.retryDelay then
    pb.requestRetryTimerStart a
  else pb.reportOutcome

/-- A pass that ends with `pbntf_trans_outcome`. -/
def transOutcome (state : PbState) (next : Next) : Pass :=
  let r := pb.pbntfTransOutcome a state
  { pb := r.1, outcome := r.2, next }

/-- `pbpal_close`, which reports the lost socket to the notification layer. -/
def pbpalClose : Pb :=
  let pb' := if pb.pal.closed then pb else pb.lostSocket
  { pb' with pal := pb.pal.close, tls := false }

/-- `close_connection`. -/
def closeConnection (next : Next) : Pass :=
  let pb := pb.pbpalClose
  if a.closing then { pb := { pb with state := .waitClose }, next }
  else if pb.retryAfterClose then { pb := { pb with state := .retry }, next }
  else pb.transOutcome a .idle next

/-- `close_kept_alive_connection`, with the state it returns. -/
def closeKeptAliveConnection : Pb :=
  let pb := { pb with startedWhileKeptAlive := false }.pbpalClose
  if a.closing then { pb with state := .keepAliveWaitClose }
  else if pb.retryAfterClose then { pb with state := .retry }
  else { pb with state := .idle }

/-- `should_keep_alive`. -/
def shouldKeepAlive (rslt : PubnubRes) : Bool :=
  !pb.shouldClose && !a.keepAliveOver && !rslt.closesConnection

/-- `outcome_detected`. -/
def outcomeDetected (rslt : PubnubRes) (next : Next) : Pass :=
  let pb := { pb with lastResult := rslt }
  if pb.shouldKeepAlive a rslt then
    { pb.lostSocket.transOutcome a .keepAliveIdle next with keptAlive := true }
  else { pb with startedWhileKeptAlive := false }.closeConnection a next

/-- `enum pbproxyFinInstruction`. -/
inductive FinInstruction
  | error | retry | goOn
  deriving DecidableEq, Repr

/-- `pbproxy_handle_finish`, which notes that the tunnel has been established. -/
def pbproxyHandleFinish : Pb × FinInstruction :=
  if pb.httpCode = 407 then
    if pb.proxyAuthorizationSent || pb.proxyAuthScheme = .none then (pb, .error) else (pb, .retry)
  else if pb.options.proxyType = .httpConnect && !pb.proxyTunnelEstablished &&
      pb.httpCode / 100 = 2 then
    ({ pb with proxyTunnelEstablished := true }, .retry)
  else (pb, .goOn)

/-- The part of `finish` that parses the reply, after its end has been marked with a NUL. -/
def finishReply (next : Next) : Pass :=
  let r := pb.ensureReplyBuffer a.alloc
  if r.2 then
    let pb := r.1.copyToReply r.1.httpBufLen [0]
    let rslt := if a.parsed = .ok && pb.httpCode / 100 ≠ 2 then .httpError else a.parsed
    pb.outcomeDetected a rslt next
  else r.1.outcomeDetected a .replyTooBig next

/-- `finish`.  A retry towards the proxy goes on at once. -/
def finish (next : Next) : Pass :=
  match pb.pbproxyHandleFinish with
  | (pb, .error) => { pb with shouldClose := true }.outcomeDetected a .httpError next
  | (pb, .retry) =>
      let pb := { pb with retryAfterClose := true }
      if pb.shouldClose then pb.closeConnection a .again else { pb with state := .connected }.again
  | (pb, .goOn) => pb.finishReply a next

/-! ## Starting and connecting -/

/-- `initialize_fields_in_state_IDLE`. -/
def initializeFieldsInStateIdle : Pb :=
  { pb with
    retryAfterClose := false
    proxyTunnelEstablished := false
    proxySavedPathLen := 0
    proxyAuthorizationSent := false
    trySSL := pb.options.useSSL }

/-- What `PBS_IDLE` and `PBS_KEEP_ALIVE_IDLE` do once their fields are set. -/
def enqueueForProcessing : Pass :=
  match a.enqueue with
  | .failed => { pb with lastResult := .internalError }.transOutcome a .idle .ret
  | .atOnce => (pb.observe (.enqueued pb.trans)).again
  | .later => { pb.observe (.enqueued pb.trans) with queued := pb.queued + 1 }.brk

def pbsIdle : Pass :=
  { pb.initializeFieldsInStateIdle with state := .ready }.enqueueForProcessing a

def pbsRetry : Pass := { pb with retryAfterClose := false, state := .ready }.again

/-- The platform has opened a socket. -/
def openSocket : Pb := { pb with pal := { pb.pal with socket := some [] } }

/-- The start fails before there is a connection that would have to be closed. -/
def startFailed (rslt : PubnubRes) (next : Next) : Pass :=
  let pb := { pb with lastResult := rslt }
  if pb.retryAfterClose then { pb.closeConnection a .again with next := .again }
  else pb.transOutcome a .idle next

/-- The end of `PBS_READY`, when there is a socket. -/
def readyGotSocket (state : PbState) : Pass :=
  match a.gotSocket with
  | .failed => { pb.openSocket with state }.startFailed a .connectFailed .brk
  | .atOnce => { pb.openSocket.gotSocket with state }.again
  | .later => { pb.openSocket.gotSocket with state }.brk

def pbsReady : Pass :=
  match a.resolv with
  | .sendWouldblock => pb.readyGotSocket a .waitDnsSend
  | .sent | .rcvWouldblock => pb.readyGotSocket a .waitDnsRcv
  | .connectWouldblock => pb.readyGotSocket a .waitConnect
  | .connectSuccess => pb.readyGotSocket a .connected
  | .failed => pb.startFailed a .addrResolutionFailed .ret

def pbsWaitDnsSend : Pass :=
  match a.resolv with
  | .sendWouldblock => pb.brk
  | .sent | .rcvWouldblock => { pb with state := .waitDnsRcv }.brk
  | .connectWouldblock => { pb.openSocket with state := .waitConnect, timer := true }.brk
  | .connectSuccess => { pb.openSocket with state := .connected, timer := true }.again
  | .failed => pb.outcomeDetected a .addrResolutionFailed .brk

def pbsWaitDnsRcv : Pass :=
  match a.resolv with
  | .sendWouldblock | .sent => pb.outcomeDetected a .internalError .brk
  | .rcvWouldblock => pb.brk
  | .connectWouldblock => { pb.openSocket with state := .waitConnect, timer := true }.brk
  | .connectSuccess => { pb.openSocket with state := .connected, timer := true }.again
  | .failed => pb.outcomeDetected a .addrResolutionFailed .brk

def pbsWaitConnect : Pass :=
  match a.resolv with
  | .sendWouldblock | .sent | .rcvWouldblock => pb.outcomeDetected a .internalError .brk
  | .connectWouldblock => pb.brk
  | .connectSuccess => { pb with state := .connected, timer := true }.again
  | .failed => pb.outcomeDetected a .connectFailed .brk

/-! ## Sending -/

/-- `pbpal_send` of one piece of the request. -/
def pbpalSend (piece : Piece) (data : Bytes) : Option (Pb × SendResult) :=
  (pb.pal.send data a.send).map fun r =>
    let pb := pb.withPal r.1
    (if r.2 = .failed then pb else pb.observe (.sent pb.trans piece), r.2)

/-- Sends a piece and goes on in another state, or ends the transaction. -/
def sendAndGo (piece : Piece) (data : Bytes) (state : PbState) : Option Pass :=
  (pb.pbpalSend a piece data).map fun r =>
    if r.2 = .failed then r.1.outcomeDetected a .ioError .brk
    else { r.1 with state }.again

/-- The branches that first ask for `pbpal_send_status`: what they do when the piece before has
    been sent, and what they do when it could not be sent. -/
def afterStatus (done failed : Pb → Option Pass) : Option Pass :=
  (pb.pal.sendStatus a.status).bind fun r =>
    let pb := pb.withPal r.1
    match r.2 with
    | .more => some pb.brk
    | .done => done pb
    | .failed => failed pb

/-- The end of a transaction because something could not be sent. -/
def sendFailed : Option Pass := some (pb.outcomeDetected a .ioError .brk)

/-- The verb with which the request begins. -/
def sendVerb : Option Pass :=
  pb.sendAndGo a (.verb pb.method.verbString) pb.method.verbString .txGet

/-- A failed TLS handshake: another way of connecting may be tried. -/
def tlsFailed (next : Next) : Pass :=
  let pb := if pb.options.fallbackSSL then { pb with trySSL := false, retryAfterClose := true }
    else { pb with retryAfterClose := a.spareAddress }
  pb.outcomeDetected a .connectFailed next

def pbsConnected : Option Pass :=
  let pb := { pb with shouldClose := !pb.options.useHttpKeepAlive, retryAfterClose := false }
  if pb.options.proxyType = .httpConnect && !pb.proxyTunnelEstablished then
    pb.sendAndGo a .connect (ascii "CONNECT ") .txGet
  else if !pb.tls && pb.trySSL && pb.options.proxyType ≠ .httpGet then
    let pb := { pb with tls := true }
    match a.tls with
    | .established => pb.sendVerb a
    | .started => some { pb := { pb with state := .waitTlsConnect }, next := .ret }
    | .failed => some (pb.tlsFailed a .ret)
    | .resourceFailure => some (pb.outcomeDetected a .internalError .ret)
  else pb.sendVerb a

def pbsWaitTlsConnect : Option Pass :=
  match a.tls with
  | .established => pb.sendVerb a
  | .started => some pb.brk
  | .failed => some (pb.tlsFailed a .brk)
  | .resourceFailure => some (pb.outcomeDetected a .internalError .brk)

/-- `pb->proxy_saved_path` is filled from `core.http_buf`. -/
def savePath : Pb :=
  { pb with proxySavedPath := pb.httpBuf.take (pb.httpBufLen + 1)
            proxySavedPathLen := pb.httpBufLen }

/-- `core.http_buf` is filled from `pb->proxy_saved_path`. -/
def restorePath : Pb :=
  { pb with
    pal := { pb.pal with
      buf := pb.pal.buf.write 0 (pb.proxySavedPath.take (pb.proxySavedPathLen + 1)) }
    httpBufLen := pb.proxySavedPathLen }

/-- In `PBS_TX_GET` a failure to send ends the transaction, but not the pass. -/
def txGetFailed : Pass := pb.outcomeDetected a .ioError .again

/-- Sends the next piece from `PBS_TX_GET`. -/
def txGetSend (piece : Piece) (data : Bytes) : Option Pass :=
  (pb.pbpalSend a piece data).map fun r => if r.2 = .failed then r.1.txGetFailed a else r.1.again

def pbsTxGet : Option Pass :=
  let failed := fun pb : Pb => some (pb.txGetFailed a)
  match pb.options.proxyType with
  | .httpGet =>
      pb.afterStatus a (fun pb =>
        let pb := { pb with state := .txScheme }
        if pubnubBufMaxlen ≤ max pb.httpBufLen pb.proxySavedPathLen then none
        else
          let pb := if pb.proxySavedPathLen = 0 then pb.savePath else pb.restorePath
          pb.txGetSend a .scheme (if pb.trySSL then ascii "https://" else ascii "http://")) failed
  | .httpConnect =>
      pb.afterStatus a (fun pb =>
        let pb := { pb with state := .txScheme }
        if !pb.proxyTunnelEstablished then
          if pubnubBufMaxlen ≤ pb.httpBufLen then none
          else if pb.proxySavedPathLen = 0 then some pb.savePath.again
          else some pb.again
        else if 0 < pb.proxySavedPathLen then
          if pubnubBufMaxlen ≤ pb.proxySavedPathLen then none
          else some { pb.restorePath with proxySavedPathLen := 0 }.again
        else some pb.again) failed
  | .none =>
      pb.afterStatus a (fun pb =>
        { pb with state := .txPath }.txGetSend a (.url (cString pb.httpBuf)) (cString pb.httpBuf))
        failed

def pbsTxScheme : Option Pass :=
  if pb.options.proxyType = .httpConnect && pb.proxyTunnelEstablished then
    pb.afterStatus a (fun pb => some { pb with state := .txHost }.again)
      (fun pb => some { pb with state := .txHost }.again)
  else
    pb.afterStatus a (fun pb => pb.sendAndGo a .origin pb.options.origin .txHost)
      (fun pb => pb.sendFailed a)

def pbsTxHost : Option Pass :=
  pb.afterStatus a (fun pb =>
    if pb.options.proxyType = .httpConnect && !pb.proxyTunnelEstablished then
      pb.sendAndGo a .port (if pb.trySSL then ascii ":443" else ascii ":80") .txPortNum
    else pb.sendAndGo a (.url (cString pb.httpBuf)) (cString pb.httpBuf) .txPath)
    (fun pb => pb.sendFailed a)

/-- `PBS_TX_PORT_NUM` and `PBS_TX_PATH`. -/
def pbsTxPath : Option Pass :=
  pb.afterStatus a (fun pb => pb.sendAndGo a .version (ascii " HTTP/1.1\r\nHost: ") .txVer)
    (fun pb => pb.sendFailed a)

def pbsTxVer : Option Pass :=
  pb.afterStatus a (fun pb => pb.sendAndGo a .origin pb.options.origin .txOrigin)
    (fun pb => pb.sendFailed a)

/-- A body is sent only to the origin. -/
def sendsBody : Bool :=
  pb.method.hasBody && (pb.proxyTunnelEstablished || pb.options.proxyType = .none)

/-- `SEND_FIN_HEAD`; the text of the headers plays no part here. -/
def sendFinHead : Option Pass := pb.sendAndGo a .headers (ascii "\r\nUser-Agent: ") .txFinHead

def pbsTxOrigin : Option Pass :=
  pb.afterStatus a (fun pb =>
    if !pb.proxyTunnelEstablished && pb.proxyAuthScheme ≠ .none && a.authHeader then
      let pb := if pb.proxyAuthScheme = .ntlm then pb else { pb with proxyAuthorizationSent := true }
      pb.sendAndGo a .headers (ascii "\r\nProxy-Authorization: ") .txExtraHeaders
    else if pb.sendsBody then
      pb.sendAndGo a .headers (ascii "\r\nContent-Type: application/json") .txExtraHeaders
    else pb.sendFinHead a)
    (fun pb => pb.sendFailed a)

def pbsTxExtraHeaders : Option Pass :=
  pb.afterStatus a (fun pb => pb.sendFinHead a) (fun pb => pb.sendFailed a)

/-- The request has been sent, and the response is waited for. -/
def awaitResponse : Option Pass :=
  pb.pal.startReadLine.map fun pal => { pb with pal, state := .rxHttpVer }.again

def pbsTxFinHead : Option Pass :=
  pb.afterStatus a (fun pb =>
    if pb.sendsBody then pb.sendAndGo a (.body pb.message) pb.message .txBody
    else pb.awaitResponse)
    (fun pb => pb.sendFailed a)

def pbsTxBody : Option Pass :=
  pb.afterStatus a (fun pb => pb.awaitResponse) (fun pb => pb.sendFailed a)

/-! ## Receiving -/

/-- What `PBS_RX_HTTP_VER` makes of the result of reading the line. -/
def statusLineRead (rslt : PubnubRes) : Pass :=
  match rslt with
  | .inProgress => pb.brk
  | .ok =>
      if startsWith pb.httpBuf (ascii "HTTP/1.") then
        { pb with
          httpCode := toUnsigned (atoi (pb.httpBuf.drop 9)) % 2 ^ 16
          httpContentLen := 0
          httpChunked := false
          state := .rxHeaders }.again
      else pb.outcomeDetected a .ioError .brk
  | .connectionTimeout | .ioError =>
      if pb.startedWhileKeptAlive then (pb.closeKeptAliveConnection a).again
      else pb.outcomeDetected a rslt .brk
  | rslt => pb.outcomeDetected a rslt .brk

def pbsRxHttpVer : Option Pass :=
  (pb.pal.lineReadStatus a.recv).map fun r => (pb.withPal r.1).statusLineRead a r.2

def pbsRxHeaders : Option Pass :=
  pb.pal.startReadLine.map fun pal => { pb with pal, state := .rxHeaderLine }.again

/-- The blank line after the headers. -/
def endOfHeaders : Pass :=
  let pb := { pb with httpBufLen := 0 }
  if pb.httpChunked then { pb with state := .rxChunkLen }.again
  else if pb.httpContentLen = 0 then
    if pb.options.proxyType = .httpConnect && !pb.proxyTunnelEstablished then pb.finish a .brk
    else pb.outcomeDetected a .ioError .brk
  else { pb with state := .rxBody }.again

/-- A header of a proxy, if it is one. -/
def pbproxyHandleHttpHeader : Option Pb :=
  let line := pb.httpBuf
  let known := startsWith line (ascii "Proxy-Authenticate: ") ||
    ((line.head? == some 32 || line.head? == some 9) && pb.proxyAuthScheme == .digest)
  match known, a.proxyHeader with
  | true, .challenge scheme sent =>
      some { pb with proxyAuthScheme := scheme, proxyAuthorizationSent := sent }
  | true, .refused => none
  | _, _ => some pb

/-- A header line that is not blank. -/
def headerLine : Pass :=
  let line := pb.httpBuf
  if startsWithCase line (ascii "Transfer-Encoding: chunked") then
    { pb with httpChunked := true, state := .rxHeaders }.again
  else if startsWithCase line (ascii "Content-Length: ") then
    let len := toUnsigned (atoi (line.drop 16))
    let r := pb.reallocReplyBuffer len a.alloc
    if r.2 then { r.1 with httpContentLen := len, state := .rxHeaders }.again
    else r.1.outcomeDetected a .replyTooBig .brk
  else if startsWithCase line (ascii "Retry-After: ") then { pb with state := .rxHeaders }.again
  else if startsWithCase line (ascii "Connection: close") then
    { pb with shouldClose := true, state := .rxHeaders }.again
  else
    match pb.pbproxyHandleHttpHeader a with
    | none => pb.outcomeDetected a .authenticationFailed .ret
    | some pb => { pb with state := .rxHeaders }.again

/-- What `PBS_RX_HEADER_LINE` makes of the result of reading the line. -/
def headerLineRead (rslt : PubnubRes) : Pass :=
  match rslt with
  | .inProgress => pb.brk
  | .txBuffTooSmall => { pb with state := .rxHeaders }.again
  | .ok => if pb.pal.readLen ≤ 2 then pb.endOfHeaders a else pb.headerLine a
  | rslt => pb.outcomeDetected a rslt .brk

def pbsRxHeaderLine : Option Pass :=
  (pb.pal.lineReadStatus a.recv).map fun r => (pb.withPal r.1).headerLineRead a r.2

def pbsRxBody : Option Pass :=
  if pb.httpBufLen < pb.httpContentLen then
    (pb.pal.startRead (pb.httpContentLen - pb.httpBufLen)).map fun pal =>
      { pb with pal, state := .rxBodyWait }.again
  else some (pb.finish a .againIfRetry)

/-- What `PBS_RX_BODY_WAIT` makes of the result of reading. -/
def bodyRead (rslt : PubnubRes) : Option Pass :=
  match rslt with
  | .inProgress => some pb.brk
  | .ok =>
      let len := pb.pal.readLen
      if pb.httpBufLen + len ≤ pb.httpContentLen then
        some { pb.copyToReply pb.httpBufLen (pb.httpBuf.take len) with
          httpBufLen := pb.httpBufLen + len
          state := .rxBody }.again
      else none
  | rslt => some (pb.outcomeDetected a rslt .brk)

def pbsRxBodyWait : Option Pass :=
  (pb.pal.readStatus a.recv).bind fun r => (pb.withPal r.1).bodyRead a r.2

/-- `CHUNK_TRAIL_LENGTH`. -/
def chunkTrailLength : Nat := 2

def pbsRxChunkLen : Option Pass :=
  pb.pal.startReadLine.map fun pal => { pb with pal, state := .rxChunkLenLine }.again

/-- What `PBS_RX_CHUNK_LEN_LINE` makes of the result of reading the line. -/
def chunkLenRead (rslt : PubnubRes) : Pass :=
  match rslt with
  | .inProgress => pb.brk
  | .ok =>
      let chunkLength := strtoul pb.httpBuf % 2 ^ 32
      if chunkLength = 0 then pb.finish a .againIfRetry
      else
        let r := pb.reallocReplyBuffer (pb.httpBufLen + chunkLength) a.alloc
        if r.2 then
          { r.1 with
            httpContentLen := (chunkLength + chunkTrailLength) % 2 ^ 32
            state := .rxBodyChunk }.again
        else r.1.outcomeDetected a .replyTooBig .brk
  | rslt => pb.outcomeDetected a rslt .brk

def pbsRxChunkLenLine : Option Pass :=
  (pb.pal.lineReadStatus a.recv).map fun r => (pb.withPal r.1).chunkLenRead a r.2

def pbsRxBodyChunk : Option Pass :=
  if 0 < pb.httpContentLen then
    (pb.pal.startRead pb.httpContentLen).map fun pal =>
      { pb with pal, state := .rxBodyChunkWait }.again
  else some { pb with state := .rxChunkLen }.again

/-- What a piece of a chunk adds to the reply: the trailing bytes are not copied. -/
def copyChunk (len : Nat) : Pb :=
  if chunkTrailLength < pb.httpContentLen then
    let toCopy := min len (pb.httpContentLen - chunkTrailLength)
    { pb.copyToReply pb.httpBufLen (pb.httpBuf.take toCopy) with
      httpBufLen := pb.httpBufLen + toCopy }
  else pb

/-- What `PBS_RX_BODY_CHUNK_WAIT` makes of the result of reading. -/
def chunkRead (rslt : PubnubRes) : Option Pass :=
  match rslt with
  | .inProgress => some pb.brk
  | .ok =>
      let len := pb.pal.readLen
      if len ≤ pb.httpContentLen ∧ 0 < len then
        some { pb.copyChunk len with
          httpContentLen := pb.httpContentLen - len
          state := .rxBodyChunk }.again
      else none
  | rslt => some (pb.outcomeDetected a rslt .brk)

def pbsRxBodyChunkWait : Option Pass :=
  (pb.pal.readStatus a.recv).bind fun r => (pb.withPal r.1).chunkRead a r.2

/-! ## Closing and the connection that is kept alive -/

/-- What the states that wait for the connection to be closed do when it is. -/
def whenClosed (closed : Pb → Pass) : Pass :=
  if a.closed then
    if pb.retryAfterClose then { pb with state := .retry }.again else closed pb
  else pb.brk

def pbsWaitClose : Pass := pb.whenClosed a fun pb => pb.transOutcome a .idle .brk

def pbsWaitCancel : Pass :=
  let pb := { pb.pbpalClose with state := .waitCancelClose }
  if a.closing then pb.brk else pb.again

def pbsWaitCancelClose : Pass := pb.whenClosed a fun pb => pb.transOutcome a .idle .brk

def pbsWaitCancelDns : Pass := { pb with retryAfterClose := true }.closeConnection a .again

def pbsKeepAliveIdle : Pass :=
  { pb with
    proxySavedPathLen := 0
    proxyAuthorizationSent := false
    state := .keepAliveReady
    startedWhileKeptAlive := true }.enqueueForProcessing a

def pbsKeepAliveReady : Option Pass :=
  match a.gotSocket with
  | .failed => some ({ pb with lastResult := .connectFailed }.transOutcome a .idle .brk)
  | .atOnce | .later =>
      let pb := { pb.gotSocket with state := .txGet }
      (pb.pbpalSend a (.verb pb.method.verbString) pb.method.verbString).map fun r =>
        if r.2 = .failed then (r.1.closeKeptAliveConnection a).again else r.1.again

def pbsKeepAliveWaitClose : Pass := pb.whenClosed a fun pb => { pb with state := .idle }.again

def pbsWaitCancelKeepalive : Pass := (pb.closeKeptAliveConnection a).again

/-! ## The switch -/

/-- One pass through the `switch` of `pbnc_fsm`. -/
def pass : Option Pass :=
  match pb.state with
  | .null | .waitRetry => some pb.brk
  | .idle => some (pb.pbsIdle a)
  | .retry => some pb.pbsRetry
  | .ready => some (pb.pbsReady a)
  | .waitDnsSend => some (pb.pbsWaitDnsSend a)
  | .waitDnsRcv => some (pb.pbsWaitDnsRcv a)
  | .waitConnect => some (pb.pbsWaitConnect a)
  | .connected => pb.pbsConnected a
  | .waitTlsConnect => pb.pbsWaitTlsConnect a
  | .txGet => pb.pbsTxGet a
  | .txScheme => pb.pbsTxScheme a
  | .txHost => pb.pbsTxHost a
  | .txPortNum | .txPath => pb.pbsTxPath a
  | .txVer => pb.pbsTxVer a
  | .txOrigin => pb.pbsTxOrigin a
  | .txExtraHeaders => pb.pbsTxExtraHeaders a
  | .txFinHead => pb.pbsTxFinHead a
  | .txBody => pb.pbsTxBody a
  | .rxHttpVer => pb.pbsRxHttpVer a
  | .rxHeaders => pb.pbsRxHeaders
  | .rxHeaderLine => pb.pbsRxHeaderLine a
  | .rxBody => pb.pbsRxBody a
  | .rxBodyWait => pb.pbsRxBodyWait a
  | .rxChunkLen => pb.pbsRxChunkLen
  | .rxChunkLenLine => pb.pbsRxChunkLenLine a
  | .rxBodyChunk => pb.pbsRxBodyChunk
  | .rxBodyChunkWait => pb.pbsRxBodyChunkWait a
  | .waitClose => some (pb.pbsWaitClose a)
  | .waitCancel => some (pb.pbsWaitCancel a)
  | .waitCancelClose => some (pb.pbsWaitCancelClose a)
  | .waitCancelDns => some (pb.pbsWaitCancelDns a)
  | .keepAliveIdle => some (pb.pbsKeepAliveIdle a)
  | .keepAliveReady => pb.pbsKeepAliveReady a
  | .keepAliveWaitClose => some (pb.pbsKeepAliveWaitClose a)
  | .waitCancelKeepalive => some (pb.pbsWaitCancelKeepalive a)

end Pb

end PubNub
