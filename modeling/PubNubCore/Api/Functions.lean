import PubNubCore.Lib.Monitor
import PubNubCore.Core.Transactions
import PubNubCore.Network.Context

/-!
# The functions that start a transaction

Some fifty functions of the API start a transaction, and all of them are written alike: take the
monitor, see that the context is free, prepare the request, and if that works set the fields of
the transaction and run the state machine.  `StartFunction` says in what they differ, and `call`
is the body they share.  Each function is a `StartFunction` under its own name; `pubnub_publish_ex`,
which encrypts and compresses as well, has a body of its own.

**What a call is told.**  The arguments of the user and the answers of what the function calls are
one record, `Preparation`: whether the channels could be noted for the automatic heartbeat, the URL
that has been made, whether it could be signed, the message.

**What is written down.**  The context has five more fields, which the source does not have: what
has been done with its monitor (`monitor`), what the transaction in progress was asked to send
(`asked`) and the URL that was prepared for it (`url`), which text was signed (`signed`), and the
requests that have been put on the wire (`sent`).
-/

namespace PubNub

/-! ## The context -/

/-- Where `core.message_to_send` points: to the copy behind the URL in `core.http_buf`, to
    `core.gzip_msg_buf`, or to memory of the caller, which is not kept. -/
inductive MessagePtr
  | httpBuf (text : Bytes)
  | gzipMsgBuf
  | caller
  deriving DecidableEq, Repr

/-- What a call asks for: the verb, and the body, which may have been packed. -/
structure Asked where
  method : PubnubMethod
  body : Option Bytes
  packed : Bool
  deriving DecidableEq, Repr

/-- A request on the wire, as its receiver sees it. -/
structure WireRequest where
  method : PubnubMethod
  target : Bytes
  contentLength : Option Nat
  contentEncoding : Bool
  body : Option Bytes
  deriving DecidableEq, Repr

/-- A request with what it was asked to be and the text that was signed for it. -/
structure Sent where
  asked : Asked
  signed : Option Bytes
  request : WireRequest
  deriving DecidableEq, Repr

/-- The fields of `struct pubnub_` which the functions of the API and the sending of a request
    use; `busy` is the answer of `pbnc_can_start_transaction`, negated. -/
structure ApiContext where
  busy : Bool
  trans : Pbtt
  method : PubnubMethod
  lastResult : PubnubRes
  httpBuf : Bytes
  messageToSend : Option MessagePtr
  gzipMsgBuf : Bytes
  gzipMsgLen : Nat
  publishKey : Bytes
  -- the ledger
  monitor : List LockEvent
  asked : Asked
  url : Bytes
  signed : Option Bytes
  sent : List Sent

namespace ApiContext

/-- `pubnub_init`. -/
def init (publishKey : Bytes) : ApiContext where
  busy := false
  trans := .none
  method := .sendViaGET
  lastResult := .ok
  httpBuf := []
  messageToSend := none
  gzipMsgBuf := []
  gzipMsgLen := 0
  publishKey := publishKey
  monitor := []
  asked := ⟨.sendViaGET, none, false⟩
  url := []
  signed := none
  sent := []

variable (c : ApiContext)

/-- Something happens to the monitor. -/
def note (e : LockEvent) : ApiContext := { c with monitor := c.monitor ++ [e] }

/-- `pubnub_mutex_lock(pb->monitor)`. -/
def lock : ApiContext := c.note .lock

/-- `pubnub_mutex_unlock(pb->monitor)`. -/
def unlock : ApiContext := c.note .unlock

/-- The state of the transaction is read or written. -/
def access : ApiContext := c.note .access

def setTrans (trans : Pbtt) : ApiContext := { c.access with trans }

def setMethod (method : PubnubMethod) : ApiContext := { c.access with method }

def setLastResult (rslt : PubnubRes) : ApiContext := { c.access with lastResult := rslt }

end ApiContext

/-! ## What a call is told -/

/-- What a preparation that fails returns. -/
abbrev PrepError := { rslt : PubnubRes // rslt ≠ .started }

/-- The URL which a preparation makes. -/
structure Url where
  path : Bytes
  query : Bytes
  path_clean : 63 ∉ path

/-- The URL of a path, with the query that every request has. -/
def Url.ofPath (path : Bytes) (h : 63 ∉ path) : Url := ⟨path, ascii "pnsdk=c-core", h⟩

/-- The URL as it stands in `core.http_buf`. -/
def Url.text (url : Url) : Bytes := url.path ++ 63 :: url.query

/-- The signature of a request: there is no secret key, it could not be made or had no room, or it
    is this text. -/
inductive Signature
  | noKey
  | failed (e : PrepError)
  | made (signature : Bytes)

/-- The arguments of a call, and the answers of what the function calls. -/
structure Preparation where
  /-- `pbauto_heartbeat_prepare_channels_and_ch_groups` -/
  channels : PubnubRes := .ok
  /-- `FORM_THE_OBJECT` and `pbcc_form_the_action_object_str` -/
  object : PubnubRes := .ok
  /-- The preparation, up to the signature. -/
  url : Except PrepError Url
  signature : Signature := .noKey
  /-- The memory of the message, where it is the body of the request. -/
  message : Bytes := []
  /-- What happens to the monitor while the state machine runs. -/
  callbacks : List LockEvent := []

/-- The message, a C string. -/
def Preparation.text (a : Preparation) : Bytes := cString a.message

/-! ## Signing -/

/-- The verb as `pn_gen_pam_v3_sign` writes it. -/
def PubnubMethod.signVerb : PubnubMethod → Bytes
  | .sendViaGET => ascii "GET"
  | .sendViaPOST | .sendViaPOSTwithGZIP => ascii "POST"
  | .usePATCH | .usePATCHwithGZIP => ascii "PATCH"
  | .useDELETE => ascii "DELETE"

lemma PubnubMethod.verbString_eq (m : PubnubMethod) : m.verbString = m.signVerb ++ ascii " " := by
  cases m
  all_goals decide

/-- The text which `pn_gen_pam_v3_sign` signs. -/
def genPamV3Sign (method : PubnubMethod) (publishKey path query msg : Bytes) : Bytes :=
  method.signVerb ++ 10 :: publishKey ++ 10 :: path ++ 10 :: query ++ 10 ::
    (if method.hasBody then msg else [])

/-- `pbcc_sign_url`: the URL is cut at its first question mark, and the verb is that of the
    context. -/
def ApiContext.signUrl (c : ApiContext) (msg : Bytes) : Bytes :=
  genPamV3Sign c.method c.publishKey (c.httpBuf.takeWhile (· ≠ 63))
    ((c.httpBuf.dropWhile (· ≠ 63)).drop 1) msg

/-! ## The body of a request -/

/-- `PUBNUB_MAX_OBJECT_LENGTH`. -/
def pubnubMaxObjectLength : Nat := 30000

/-- `pb_strnlen_s(message, PUBNUB_MAX_OBJECT_LENGTH)`. -/
def strnlen (message : Bytes) : Nat := min message.length pubnubMaxObjectLength

/-- `APPEND_MESSAGE_BODY_M`.  Nothing is copied if the context holds a packed message, whether it
    is this one or not; `ptr` says where this one is. -/
def ApiContext.appendMessageBody (c : ApiContext) (message : Bytes) (ptr : MessagePtr) :
    ApiContext × PubnubRes :=
  let c := c.access
  -- the room left is a `size_t`
  if c.gzipMsgLen = 0 &&
      ((pubnubBufMaxlen : Int) - c.httpBuf.length - 2) % 2 ^ 64 < strnlen message then
    (c, .txBuffTooSmall)
  else
    ({ c with messageToSend := some (if c.gzipMsgLen = 0 then .httpBuf message else ptr) },
      .started)

/-! ## The functions -/

/-- In what the functions that start a transaction differ.  `verb` is the one the documentation of
    the function names; it is written to the context before the preparation, after it, both, or
    not at all. -/
structure StartFunction where
  trans : Pbtt
  verb : PubnubMethod := .sendViaGET
  setsVerbBefore : Bool := false
  setsVerbAfter : Bool := false
  setsTransBefore : Bool := false
  /-- It notes the channels for the automatic heartbeat. -/
  preparesChannels : Bool := false
  /-- It makes a JSON object of its arguments. -/
  formsObject : Bool := false
  /-- It goes on with the transaction before it, and does not set `trans`. -/
  continues : Bool := false
  /-- It appends the body although the request could not be signed. -/
  appendsUnsigned : Bool := false
  /-- It starts the transaction although the request could not be signed. -/
  startsUnsigned : Bool := false
  deriving DecidableEq, Repr

namespace StartFunction

variable (f : StartFunction) (a : Preparation) (c : ApiContext)

/-- The preparation: it makes the URL, signs it, and appends the body. -/
def prep : ApiContext × PubnubRes :=
  let appendBody := fun c : ApiContext =>
    if f.verb.hasBody then c.appendMessageBody a.text .caller else (c, .started)
  match a.url with
  | .error e => (c.access, e.1)
  | .ok url =>
      let c := { c.access with httpBuf := url.text, signed := none }
      match a.signature with
      | .noKey => appendBody c
      | .failed e =>
          if f.startsUnsigned then appendBody c
          else if f.appendsUnsigned then
            let (c, rslt) := appendBody c
            (c, if rslt = .started then e.1 else rslt)
          else (c, e.1)
      | .made signature =>
          appendBody
            { c with
              httpBuf := url.text ++ ascii "&signature=" ++ signature
              signed := some (c.signUrl (if f.verb.hasBody then a.text else [])) }

/-- What the function asks for. -/
def asks : Asked where
  method := f.verb
  body := if f.verb.hasBody then some a.text else none
  packed := false

/-- What is set before the preparation. -/
def before : ApiContext :=
  let c := if f.setsVerbBefore then c.setMethod f.verb else c
  if f.setsTransBefore then c.setTrans f.trans else c

/-- What is set once the preparation has succeeded. -/
def after : ApiContext :=
  let c := if f.continues then c else c.setTrans f.trans
  let c := c.setLastResult .started
  if f.setsVerbAfter then c.setMethod f.verb else c

end StartFunction

/-- `pbnc_fsm`, which begins the transaction; what it does to the monitor on the way is given. -/
def ApiContext.fsm (c : ApiContext) (asked : Asked) (callbacks : List LockEvent) : ApiContext :=
  { c with
    busy := true, asked, url := c.httpBuf
    monitor := c.monitor ++ .access :: callbacks ++ [.access] }

/-- The body of a function that starts a transaction.  Where the channels cannot be noted it returns
    without giving the monitor back. -/
def StartFunction.call (f : StartFunction) (a : Preparation) (c : ApiContext) :
    ApiContext × PubnubRes :=
  let c := c.lock.access
  if c.busy then (c.unlock, .inProgress)
  else if f.preparesChannels && a.channels ≠ .ok then (c, a.channels)
  else if f.continues && c.trans ≠ f.trans then (c.access.unlock, .internalError)
  else if f.formsObject && a.object ≠ .ok then (c.unlock, a.object)
  else
    match f.prep a (f.before c) with
    | (c, .started) =>
        let c := (f.after c).fsm (f.asks a) a.callbacks
        (c.unlock, c.lastResult)
    | (c, rslt) => (c.unlock, rslt)

/-! ### `pubnub_pubsubapi.c`, `pubnub_coreapi.c` and `pubnub_coreapi_ex.c` -/

def pubnubPublish : StartFunction := { trans := .publish }
def pubnubSignal : StartFunction := { trans := .signal }
def pubnubSignalEx : StartFunction := { trans := .signal }
def pubnubSubscribe : StartFunction := { trans := .subscribe, preparesChannels := true }
def pubnubSubscribeEx : StartFunction := { trans := .subscribe, preparesChannels := true }
def pubnubLeave : StartFunction := { trans := .leave }
def pubnubTime : StartFunction := { trans := .time }
def pubnubHistory : StartFunction := { trans := .history }
def pubnubHistoryEx : StartFunction := { trans := .history }
def pubnubHeartbeat : StartFunction := { trans := .heartbeat, preparesChannels := true }
def heartbeatWithState : StartFunction := { trans := .heartbeat, preparesChannels := true }
def pubnubHereNow : StartFunction := { trans := .herenow }
def pubnubHereNowEx : StartFunction := { trans := .herenow }
def pubnubGlobalHereNow : StartFunction := { trans := .globalHerenow }
def pubnubGlobalHereNowEx : StartFunction := { trans := .globalHerenow }
def pubnubWhereNow : StartFunction := { trans := .wherenow }
def pubnubSetState : StartFunction := { trans := .setState }
def pubnubStateGet : StartFunction := { trans := .stateGet }
def pubnubRemoveChannelGroup : StartFunction := { trans := .removeChannelGroup }
def pubnubRemoveChannelFromGroup : StartFunction := { trans := .removeChannelFromGroup }
def pubnubAddChannelToGroup : StartFunction := { trans := .addChannelToGroup }
def pubnubListChannelGroup : StartFunction := { trans := .listChannelGroup }

/-! ### `pubnub_subscribe_v2.c` and `pubnub_subscribe_with_state.c` -/

def pubnubSubscribeV2 : StartFunction := { trans := .subscribeV2, preparesChannels := true }
def pubnubSubscribeWithState : StartFunction :=
  { trans := .subscribe, preparesChannels := true, startsUnsigned := true }

/-! ### `pubnub_advanced_history.c` and `pubnub_fetch_history.c` -/

def pubnubMessageCounts : StartFunction := { trans := .messageCounts }
def pubnubDeleteMessages : StartFunction :=
  { trans := .deleteMessages, verb := .useDELETE, setsVerbAfter := true }
def pubnubFetchHistory : StartFunction := { trans := .fetchHistory }

/-! ### `pubnub_actions_api.c` -/

def pubnubAddMessageActionStr : StartFunction :=
  { trans := .addAction, verb := .sendViaPOST, setsVerbBefore := true, setsVerbAfter := true,
    formsObject := true, appendsUnsigned := true }
def pubnubRemoveMessageAction : StartFunction :=
  { trans := .removeAction, verb := .useDELETE, setsVerbBefore := true, setsVerbAfter := true }
def pubnubGetMessageActions : StartFunction := { trans := .getActions }
def pubnubGetMessageActionsMore : StartFunction := { trans := .getActions, continues := true }
def pubnubHistoryWithMessageActions : StartFunction := { trans := .historyWithActions }
def pubnubHistoryWithMessageActionsMore : StartFunction :=
  { trans := .historyWithActions, continues := true }

/-! ### `pubnub_objects_api.c` -/

/-- A function that reads objects. -/
def readsObjects (trans : Pbtt) : StartFunction := { trans, setsTransBefore := true }

/-- A function that changes objects. -/
def changesObjects (trans : Pbtt) (verb : PubnubMethod) (formsObject : Bool) : StartFunction :=
  { trans, verb, formsObject, setsVerbBefore := true, setsVerbAfter := true,
    setsTransBefore := true }

def pubnubGetallUuidmetadataEx : StartFunction := readsObjects .getallUuidmetadata
def pubnubSetUuidmetadata : StartFunction := changesObjects .setUuidmetadata .usePATCH false
def pubnubGetUuidmetadata : StartFunction := readsObjects .getUuidmetadata
def pubnubRemoveUuidmetadata : StartFunction := changesObjects .deleteUuidmetadata .useDELETE false
def pubnubGetallChannelmetadataEx : StartFunction := readsObjects .getallChannelmetadata
def pubnubSetChannelmetadata : StartFunction := changesObjects .setChannelmetadata .usePATCH false
def pubnubGetChannelmetadata : StartFunction := readsObjects .getChannelmetadata
def pubnubRemoveChannelmetadata : StartFunction :=
  changesObjects .removeChannelmetadata .useDELETE false
def pubnubGetMembershipsEx : StartFunction := readsObjects .getMemberships
def pubnubSetMembershipsEx : StartFunction := changesObjects .setMemberships .usePATCH true
def pubnubRemoveMembershipsEx : StartFunction := changesObjects .removeMemberships .usePATCH true
def pubnubGetMembersEx : StartFunction := readsObjects .getMembers
/-- The one that sets its verb only after the preparation. -/
def pubnubAddMembers : StartFunction :=
  { changesObjects .addMembers .usePATCH true with setsVerbBefore := false }
def pubnubSetMembersEx : StartFunction := changesObjects .setMembers .usePATCH true
def pubnubRemoveMembersEx : StartFunction := changesObjects .removeMembers .usePATCH true

/-! ### `pubnub_grant_token_api.c` and `pubnub_revoke_token_api.c` -/

def pubnubGrantToken : StartFunction := changesObjects .grantToken .sendViaPOST false
def pubnubRevokeToken : StartFunction := changesObjects .revokeToken .useDELETE false

/-- The functions of the API that start a transaction, without `pubnub_publish_ex`. -/
def startFunctions : List StartFunction :=
  [pubnubPublish, pubnubSignal, pubnubSignalEx, pubnubSubscribe, pubnubSubscribeEx, pubnubLeave,
    pubnubTime, pubnubHistory, pubnubHistoryEx, pubnubHeartbeat, heartbeatWithState, pubnubHereNow,
    pubnubHereNowEx, pubnubGlobalHereNow, pubnubGlobalHereNowEx, pubnubWhereNow, pubnubSetState,
    pubnubStateGet, pubnubRemoveChannelGroup, pubnubRemoveChannelFromGroup,
    pubnubAddChannelToGroup, pubnubListChannelGroup, pubnubSubscribeV2, pubnubSubscribeWithState,
    pubnubMessageCounts, pubnubDeleteMessages, pubnubFetchHistory, pubnubAddMessageActionStr,
    pubnubRemoveMessageAction, pubnubGetMessageActions, pubnubGetMessageActionsMore,
    pubnubHistoryWithMessageActions, pubnubHistoryWithMessageActionsMore,
    pubnubGetallUuidmetadataEx, pubnubSetUuidmetadata, pubnubGetUuidmetadata,
    pubnubRemoveUuidmetadata, pubnubGetallChannelmetadataEx, pubnubSetChannelmetadata,
    pubnubGetChannelmetadata, pubnubRemoveChannelmetadata, pubnubGetMembershipsEx,
    pubnubSetMembershipsEx, pubnubRemoveMembershipsEx, pubnubGetMembersEx, pubnubAddMembers,
    pubnubSetMembersEx, pubnubRemoveMembersEx, pubnubGrantToken, pubnubRevokeToken]

/-! ## `pubnub_publish_ex` -/

/-- What fits into `core.gzip_msg_buf`, which has `PUBNUB_COMPRESSED_MAXLEN` bytes. -/
structure GzipBytes where
  bytes : Bytes
  not_empty : bytes ≠ []
  fits : bytes.length ≤ 32000

/-- The options and the answers of a `pubnub_publish_ex`.  `message` is the message as it shall be
    sent, which is the encrypted one where there is encryption. -/
structure PublishEx where
  method : PubnubMethod
  message : Bytes
  /-- A cipher key was given, there is no crypto module, and `pubnub_encrypt` has failed. -/
  encryptFails : Bool := false
  /-- What `pbgzip_compress` makes of the message, if it makes it smaller. -/
  packs : Option GzipBytes := none
  /-- A crypto module encrypts what it is given during the preparation, and the result is freed
      at its end. -/
  cryptoModule : Bool := false
  url : Except PrepError Url
  /-- The older signature, which leaves the verb out, could not be made. -/
  signFails : Option PrepError := none
  callbacks : List LockEvent := []

namespace PublishEx

variable (o : PublishEx) (c : ApiContext)

/-- The message, a C string. -/
def text : Bytes := cString o.message

/-- `pbgzip_compress`, where it is asked for. -/
def compress : ApiContext :=
  if o.method = .sendViaPOSTwithGZIP then
    match o.packs with
    | some packed => { c with gzipMsgBuf := packed.bytes, gzipMsgLen := packed.bytes.length }
    | none => { c with gzipMsgLen := 0 }
  else c

/-- The message is packed. -/
def isPacked : Bool := o.method = .sendViaPOSTwithGZIP && o.packs.isSome

/-- Where the message is when the body is appended. -/
def messagePtr : MessagePtr := if o.isPacked && !o.cryptoModule then .gzipMsgBuf else .caller

/-- `pbcc_publish_prep`. -/
def prep : ApiContext × PubnubRes :=
  match o.url, o.signFails with
  | .error e, _ => (c.access, e.1)
  | .ok url, some e => ({ c.access with httpBuf := url.text, signed := none }, e.1)
  | .ok url, none =>
      let c := { c.access with httpBuf := url.text, signed := none }
      if o.method = .sendViaGET then (c, .started)
      else c.appendMessageBody o.text o.messagePtr

/-- What is asked for. -/
def asks : Asked where
  method := o.method
  body := if o.method.hasBody then
      some (if o.method = .sendViaPOSTwithGZIP then (o.packs.map GzipBytes.bytes).getD o.text
        else o.text)
    else none
  packed := o.isPacked

/-- `pubnub_publish_ex`.  Where the encryption fails it returns without giving the monitor back. -/
def call : ApiContext × PubnubRes :=
  let c := c.lock.access
  if c.busy then (c.unlock, .inProgress)
  else if o.encryptFails then (c, .internalError)
  else
    match o.prep (o.compress c) with
    | (c, .started) =>
        let c := (((c.setTrans .publish).setLastResult .started).setMethod o.method).fsm o.asks
          o.callbacks
        (c.unlock, c.lastResult)
    | (c, rslt) => (c.unlock, rslt)

end PublishEx

end PubNub
