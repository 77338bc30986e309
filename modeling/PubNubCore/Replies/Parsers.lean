import PubNubCore.Core.Transactions
import PubNubCore.Lib.OffsetWindow
import PubNubCore.Replies.Json

/-!
# The parsers of the replies

One function for each entry of `m_aParseResponse`.  A parser looks at the reply buffer and at
the length of the reply, and at nothing else: it never reads the windows which an earlier
transaction has left in the context.  So it is a function of the reply, and what it does to the
context is a value, `Parsed`: the result, what is written into each of the two windows, the time
token and the region it stores, and the buffer as it leaves it.

**The length.**  Most parsers keep `http_buf_len` in an `int`.  A body of 2 GiB or more has a
negative length for them, and the byte before its end is looked for in front of the buffer;
`Reply.before` is what lies there.

**Where nothing is written.**  `Reply.untouched` is the way out of a parser before it has written
anything.  Nearly every parser has several of them, and the windows stay what they were.
-/

namespace PubNub

/-- A reply as a parser gets it: the body, which `finish` has closed with a NUL, and what lies
    around it in memory. -/
structure Reply where
  body : Bytes
  behind : Bytes := []
  before : Bytes := []
  /-- `http_buf_len` is an `unsigned`. -/
  fits : body.length < 2 ^ 32

/-- What a parser does. -/
structure Parsed where
  result : PubnubRes
  msg : WindowWrite := .keep
  chan : WindowWrite := .keep
  timetoken : Option Bytes := none
  region : Option Int := none
  httpReply : Memory

namespace Reply

variable (r : Reply)

/-- `http_buf_len`. -/
def len : Nat := r.body.length

/-- `int replylen = p->http_buf_len`. -/
def replylen : Int := (r.len + 2 ^ 31) % 2 ^ 32 - 2 ^ 31

/-- `http_reply` and what is around it. -/
def memory : Memory := { cells := r.body ++ 0 :: r.behind, before := r.before }

/-- The whole reply as an element. -/
def whole : PbjsonElem := ⟨0, r.replylen⟩

/-- A member of the reply has this text as its value. -/
def fieldIs (name value : Bytes) : Bool := pbjsonValueForFieldFound r.memory r.whole name value

/-- The reply has this member. -/
def has (name : Bytes) : Bool := (pbjsonGetObjectValue r.memory r.whole name).isOk

/-- The reply says that access is denied. -/
def denied : Bool := r.fieldIs (ascii "status") (ascii "403")

def inBrackets : Bool := r.memory.byte 0 == 91 && r.memory.byte (r.replylen - 1) == 93

def inBraces : Bool := r.memory.byte 0 == 123 && r.memory.byte (r.replylen - 1) == 125

/-- A parser that returns before it writes anything. -/
def untouched (result : PubnubRes) : Parsed := { result, httpReply := r.memory }

lemma replylen_le : r.replylen ≤ r.len := by
  have hfits := r.fits
  rw [replylen, len]
  omega

lemma len_of_replylen {n : Int} (h : n ≤ r.replylen) (hn : 0 ≤ n) : (r.len : Int) = r.replylen := by
  have hfits := r.fits
  rw [replylen, len] at *
  omega

attribute [irreducible] replylen

end Reply

/-! ## Arrays -/

/-- The loop of `pbcc_split_array`: the bytes as it leaves them, and what it returns. -/
def splitFrom (escaped inString : Bool) (bracketLevel : Int) : Bytes → Bytes × Bool
  | [] => ([], !(escaped || inString || 0 < bracketLevel))
  | c :: cs =>
      if c = 0 then (c :: cs, !(escaped || inString || 0 < bracketLevel))
      else
        let next := fun (c : UInt8) (p : Bytes × Bool) => (c :: p.1, p.2)
        if escaped then next c (splitFrom false inString bracketLevel cs)
        else if c = 34 then next c (splitFrom false (!inString) bracketLevel cs)
        else if inString then next c (splitFrom (c == 92) inString bracketLevel cs)
        else if c = 91 ∨ c = 123 then next c (splitFrom false false (bracketLevel + 1) cs)
        else if c = 93 ∨ c = 125 then next c (splitFrom false false (bracketLevel - 1) cs)
        else if c = 44 ∧ bracketLevel = 0 then next 0 (splitFrom false false bracketLevel cs)
        else next c (splitFrom false false bracketLevel cs)

/-- `pbcc_split_array(reply + i)`. -/
def pbccSplitArray (m : Memory) (i : Nat) : Memory × Bool :=
  let p := splitFrom false false 0 (m.cells.drop i)
  ({ m with cells := m.cells.take i ++ p.1 }, p.2)

/-- `pbcc_parse_publish_response`. -/
def pbccParsePublishResponse (r : Reply) : Parsed :=
  if r.replylen < 2 then r.untouched .formatError
  else if r.denied then r.untouched .accessDenied
  else
    let cleared := fun (result : PubnubRes) (httpReply : Memory) =>
      ({ result, msg := .set .cleared, chan := .set .cleared, httpReply } : Parsed)
    if r.inBrackets then
      let (m, ok) := pbccSplitArray (r.memory.set (r.replylen - 1) 0) 1
      if ok then
        if strtol (m.cells.drop 1) ≠ 1 then cleared .publishFailed m else cleared .ok m
      else cleared .formatError m
    else if r.memory.byte 0 ≠ 123 then cleared .formatError r.memory
    else cleared .publishFailed r.memory

/-- `simple_parse_response`. -/
def simpleParseResponse (r : Reply) : Parsed :=
  if r.replylen < 2 then r.untouched .formatError
  else if r.denied then r.untouched .accessDenied
  else if r.inBrackets = false then r.untouched .formatError
  else
    let (m, ok) := pbccSplitArray (r.memory.set (r.replylen - 1) 0) 1
    { result := if ok then .ok else .formatError
      msg := .set ⟨1, (r.replylen - 1).toNat⟩
      chan := .set .cleared
      httpReply := m }

/-- `pbcc_parse_time_response`. -/
def pbccParseTimeResponse (r : Reply) : Parsed := simpleParseResponse r

/-- `pbcc_parse_history_response`. -/
def pbccParseHistoryResponse (r : Reply) : Parsed := simpleParseResponse r

/-! ## Objects looked at as a whole -/

/-- `pbcc_parse_presence_response`. -/
def pbccParsePresenceResponse (r : Reply) : Parsed :=
  if r.replylen < 2 then r.untouched .formatError
  else if r.denied then r.untouched .accessDenied
  else if r.inBraces = false then r.untouched .formatError
  else if r.has (ascii "error") then r.untouched .presenceApiError
  else
    { result := .ok
      msg := .set ⟨0, r.replylen.toNat⟩
      chan := .set .cleared
      httpReply := r.memory }

/-- `pbcc_parse_channel_registry_response`, which keeps the length in an `unsigned`. -/
def pbccParseChannelRegistryResponse (r : Reply) : Parsed :=
  let el : PbjsonElem := ⟨0, r.len⟩
  if pbjsonValueForFieldFound r.memory el (ascii "status") (ascii "403") then
    r.untouched .accessDenied
  else
    let result := match pbjsonGetObjectValue r.memory el (ascii "error") with
      | .ok found =>
          if pbjsonElemEqualsString r.memory found (ascii "false") then .ok
          else .channelRegistryError
      | .error _ => .formatError
    { result
      msg := .set .cleared
      chan := .set ⟨0, r.len⟩
      httpReply := r.memory }

/-- `pbcc_parse_message_counts_response`. -/
def pbccParseMessageCountsResponse (r : Reply) : Parsed :=
  if r.inBraces = false then r.untouched .formatError
  else if r.denied then r.untouched .accessDenied
  else match pbjsonGetObjectValue r.memory r.whole (ascii "error") with
    | .error _ => r.untouched .formatError
    | .ok found =>
        if pbjsonElemEqualsString r.memory found (ascii "false") then
          match pbjsonGetObjectValue r.memory r.whole (ascii "channels") with
          | .error _ => r.untouched .formatError
          | .ok found =>
              { result := .ok
                msg := .set ⟨(found.start + 1).toNat, (found.stop - 1).toNat⟩
                chan := .set .cleared
                httpReply := r.memory }
        else r.untouched .errorOnServer

/-- `pbcc_parse_delete_messages_response`. -/
def pbccParseDeleteMessagesResponse (r : Reply) : Parsed :=
  if r.inBraces = false then r.untouched .formatError
  else if r.denied then r.untouched .accessDenied
  else match pbjsonGetObjectValue r.memory r.whole (ascii "error") with
    | .error _ => r.untouched .formatError
    | .ok found =>
        if pbjsonElemEqualsString r.memory found (ascii "true") then r.untouched .errorOnServer
        else { result := .ok, chan := .set .cleared, httpReply := r.memory }

/-! ## Objects up to their closing brace

The newer parsers look for the brace that closes the reply, and say that the reply is the object
up to there.  They set the window of the messages before they look. -/

namespace Reply

variable (r : Reply)

/-- The reply begins like an object. -/
def opens : Bool := 2 ≤ r.replylen && r.memory.byte 0 == 123

/-- The place where the first element of the reply ends. -/
def closing : Int := pbjsonFindEndElement r.memory 0 r.replylen

/-- The first element, with the byte where it ends. -/
def element : PbjsonElem := ⟨0, r.closing + 1⟩

/-- What they say about a reply that begins like an object and has a member with data, or one
    with an error. -/
def dataResult (data error : Bytes) (apiError : PubnubRes) : PubnubRes :=
  if r.memory.byte r.closing ≠ 125 then .formatError
  else if pbjsonValueForFieldFound r.memory r.element (ascii "status") (ascii "403") then
    .accessDenied
  else match pbjsonGetObjectValue r.memory r.element data with
    | .error .keyNotFound =>
        match pbjsonGetObjectValue r.memory r.element error with
        | .ok _ => apiError
        | .error _ => .formatError
    | .error _ => .formatError
    | .ok _ => .ok

/-- The parser of a reply with data that sets both windows. -/
def dataParser (data error : Bytes) (apiError : PubnubRes) : Parsed :=
  if r.opens = false then r.untouched .formatError
  else
    { result := r.dataResult data error apiError
      msg := .set ⟨0, (r.replylen + 1).toNat⟩
      chan := .set .cleared
      httpReply := r.memory }

/-- The parser of a reply with data that sets the end of the messages alone. -/
def tokenParser (apiError : PubnubRes) : Parsed :=
  if r.opens = false then r.untouched .formatError
  else
    { result := r.dataResult (ascii "data") (ascii "error") apiError
      msg := .setStop (r.replylen + 1).toNat
      httpReply := r.memory }

end Reply

/-- `pbcc_parse_objects_api_response`. -/
def pbccParseObjectsApiResponse (r : Reply) : Parsed :=
  r.dataParser (ascii "data") (ascii "error") .objectsApiError

/-- `pbcc_parse_actions_api_response`. -/
def pbccParseActionsApiResponse (r : Reply) : Parsed :=
  r.dataParser (ascii "data") (ascii "error") .actionsApiError

/-- `pbcc_parse_history_with_actions_response`. -/
def pbccParseHistoryWithActionsResponse (r : Reply) : Parsed :=
  r.dataParser (ascii "channels") (ascii "error_message") .actionsApiError

/-- `pbcc_parse_grant_token_api_response`. -/
def pbccParseGrantTokenApiResponse (r : Reply) : Parsed := r.tokenParser .grantTokenApiError

/-- `pbcc_parse_revoke_token_response`. -/
def pbccParseRevokeTokenResponse (r : Reply) : Parsed := r.tokenParser .revokeTokenApiError

/-- `pbcc_parse_fetch_history_response`. -/
def pbccParseFetchHistoryResponse (r : Reply) : Parsed :=
  if r.opens = false then r.untouched .formatError
  else
    let result :=
      if r.memory.byte r.closing ≠ 125 then .formatError
      else if pbjsonValueForFieldFound r.memory r.element (ascii "status") (ascii "403") then
        .accessDenied
      else if pbjsonValueForFieldFound r.memory r.element (ascii "error") (ascii "true") then
        .fetchHistoryError
      else .ok
    { result, msg := .setStop (r.replylen + 1).toNat, httpReply := r.memory }

/-! ## Subscribe -/

/-- What both subscribe parsers say about a reply with the status 400. -/
def Reply.badRequest (r : Reply) : PubnubRes :=
  if pbjsonGetStatus400MessageValue r.memory r.whole =
      some (ascii "\"Channel group or groups result in empty subscription set\"") then .groupEmpty
  else .formatError

/-- `find_string_start`, from the given place down. -/
def findStringStartBelow (m : Memory) : Nat → Int
  | 0 => -1
  | i + 1 =>
      if i = 0 then -1
      else if m.byte i = 34 then if m.byte (i - 1) = 44 then i else -1
      else findStringStartBelow m i

/-- `find_string_start`. -/
def findStringStart (m : Memory) (len : Int) : Int := findStringStartBelow m len.toNat

/-- The locals of `pbcc_parse_subscribe_response` once it has taken the last arguments apart. -/
structure SubscribeArguments where
  httpReply : Memory
  chan : OffsetWindow
  previous : Int
  i : Int

/-- How `pbcc_parse_subscribe_response` fares with the last arguments. -/
inductive LastArguments
  /-- The reply is no array with a string at its end. -/
  | absent
  /-- There is no string in front of the channel list. -/
  | onlyChannels (httpReply : Memory)
  /-- There is no string in front of the channel groups. -/
  | onlyGroups (httpReply : Memory) (chan : OffsetWindow)
  | found (a : SubscribeArguments)

/-- Ends the channels of a list at its commas. -/
def Memory.splitChannels (m : Memory) (i k : Int) : Memory :=
  { m with cells := m.cells.mapIdx fun j c => if i + 1 < j ∧ j ≤ k ∧ c = 44 then 0 else c }

/-- `replylen` once `pbcc_parse_subscribe_response` has cut off two bytes behind the array. -/
def Reply.arrayLen (r : Reply) : Int :=
  if r.memory.byte (r.replylen - 1) ≠ 93 ∧ 2 < r.replylen then r.replylen - 2 else r.replylen

/-- The part of `pbcc_parse_subscribe_response` that looks for the time token and the lists of
    channel groups and channels behind it. -/
def Reply.lastArguments (r : Reply) : LastArguments :=
  let replylen := r.arrayLen
  if r.memory.byte 0 ≠ 91 ∨ r.memory.byte (replylen - 1) ≠ 93 ∨
      r.memory.byte (replylen - 2) ≠ 34 then .absent
  else
    let i := findStringStart r.memory (replylen - 2)
    if i < 0 then .absent
    else
      let m := r.memory.set (replylen - 2) 0
      if m.byte (i - 2) = 34 then
        -- a channel list; in front of it is the time token or a channel group list
        let m := (m.splitChannels i (replylen - 2)).set (i - 2) 0
        let chan : OffsetWindow := ⟨(i + 1).toNat, (replylen - 1).toNat⟩
        let j := findStringStart m (i - 2)
        if j < 0 then .onlyChannels m
        else if m.byte (j - 2) = 34 then
          let m := m.set (j - 2) 0
          let k := findStringStart m (j - 2)
          if k < 0 then .onlyGroups m chan else .found ⟨m, chan, j - 2, k⟩
        else .found ⟨m, chan, i - 2, j⟩
      else .found ⟨m, .cleared, replylen - 2, i⟩

namespace SubscribeArguments

variable (a : SubscribeArguments)

/-- `time_token_length`. -/
def timeTokenLength : Int := a.previous - (a.i + 1)

/-- The buffer with the array of the messages closed and split. -/
def split : Memory × Bool := pbccSplitArray (a.httpReply.set (a.i - 2) 0) 2

end SubscribeArguments

/-- `pbcc_parse_subscribe_response`. -/
def pbccParseSubscribeResponse (r : Reply) : Parsed :=
  if r.replylen < 2 then r.untouched .formatError
  else if r.denied then r.untouched .accessDenied
  else if r.fieldIs (ascii "status") (ascii "400") then r.untouched r.badRequest
  else match r.lastArguments with
    | .absent => r.untouched .formatError
    | .onlyChannels httpReply => { result := .formatError, chan := .set .cleared, httpReply }
    | .onlyGroups httpReply chan => { result := .formatError, chan := .set chan, httpReply }
    | .found a =>
        if 20 ≤ a.timeTokenLength then
          { result := .formatError, chan := .set a.chan, timetoken := some []
            httpReply := a.httpReply }
        else
          { result := if a.split.2 then .ok else .formatError
            msg := .set ⟨2, (a.i - 2).toNat⟩
            chan := .set a.chan
            timetoken := some (cString (a.httpReply.text (a.i + 1) (a.previous + 1)))
            httpReply := a.split.1 }

/-- `strtol(s, NULL, 0)`. -/
def strtolAnyBase (s : Bytes) : Int :=
  let (minus, t) := skipSign s
  let base := match t with
    | 48 :: c :: _ => if toLower c == 120 then 16 else 8
    | _ => 10
  let v := ofDigits base (leadingDigits base (if base = 16 then skipHexPrefix t else t))
  if minus then max (-(v : Int)) (-2 ^ 63) else min (v : Int) (2 ^ 63 - 1)

/-- The part of `pbcc_parse_subscribe_v2_response` that reads the member `t`: the time token and
    the region, or the error and the time token that is stored even so. -/
def Reply.timetokenAndRegion (r : Reply) : Except (PubnubRes × Option Bytes) (Bytes × Int) :=
  match pbjsonGetObjectValue r.memory r.whole (ascii "t") with
  | .error _ => .error (.subNoTtError, none)
  | .ok found =>
      match pbjsonGetObjectValue r.memory found (ascii "t") with
      | .error _ => .error (.subNoTtError, none)
      | .ok titel =>
          if r.memory.byte titel.start ≠ 34 ∨ r.memory.byte (titel.stop - 1) ≠ 34 then
            .error (.subTtFormatError, none)
          else if 20 ≤ titel.stop - titel.start - 2 then .error (.subTtFormatError, none)
          else
            let timetoken := r.memory.text (titel.start + 1) (titel.stop - 1)
            match pbjsonGetObjectValue r.memory found (ascii "r") with
            | .error _ => .error (.subNoRegError, some timetoken)
            | .ok region =>
                let value := strtolAnyBase (r.memory.cells.drop region.start.toNat)
                .ok (timetoken, (value + 2 ^ 31) % 2 ^ 32 - 2 ^ 31)

/-- `MIN_SUBSCRIBE_V2_RESPONSE_LENGTH`. -/
def minSubscribeV2ResponseLength : Nat := 40

/-- A reply of the second subscribe is turned down before its members are looked at. -/
def Reply.malformedV2 (r : Reply) : Bool :=
  r.memory.byte 0 != 123 || r.memory.byte (r.len - 1) != 125

/-- `pbcc_parse_subscribe_v2_response`. -/
def pbccParseSubscribeV2Response (r : Reply) : Parsed :=
  if r.len < minSubscribeV2ResponseLength then r.untouched .formatError
  else if r.denied then r.untouched .accessDenied
  else if r.fieldIs (ascii "status") (ascii "400") then r.untouched r.badRequest
  else if r.malformedV2 then r.untouched .formatError
  else match r.timetokenAndRegion with
    | .error (result, timetoken) => { result, timetoken, httpReply := r.memory }
    | .ok (timetoken, region) =>
        match pbjsonGetObjectValue r.memory r.whole (ascii "m") with
        | .error _ =>
            { result := .formatError
              chan := .set .cleared
              timetoken := some timetoken
              region := some region
              httpReply := r.memory }
        | .ok found =>
            { result := .ok
              msg := .set ⟨(found.start + 1).toNat, (found.stop - 1).toNat⟩
              chan := .set .cleared
              timetoken := some timetoken
              region := some region
              httpReply := r.memory }

/-- `dont_parse`. -/
def dontParse (r : Reply) : Parsed := r.untouched .internalError

/-- `m_aParseResponse`. -/
def aParseResponse : Pbtt → Reply → Parsed
  | .none => dontParse
  | .subscribe => pbccParseSubscribeResponse
  | .publish | .signal => pbccParsePublishResponse
  | .time => pbccParseTimeResponse
  | .history => pbccParseHistoryResponse
  | .leave | .herenow | .globalHerenow | .wherenow | .setState | .stateGet | .heartbeat =>
      pbccParsePresenceResponse
  | .removeChannelGroup | .removeChannelFromGroup | .addChannelToGroup | .listChannelGroup =>
      pbccParseChannelRegistryResponse
  | .subscribeV2 => pbccParseSubscribeV2Response
  | .messageCounts => pbccParseMessageCountsResponse
  | .deleteMessages => pbccParseDeleteMessagesResponse
  | .getallUuidmetadata | .setUuidmetadata | .getUuidmetadata | .deleteUuidmetadata
  | .getallChannelmetadata | .setChannelmetadata | .getChannelmetadata | .removeChannelmetadata
  | .getMemberships | .setMemberships | .removeMemberships | .getMembers | .addMembers
  | .setMembers | .removeMembers => pbccParseObjectsApiResponse
  | .addAction | .removeAction | .getActions => pbccParseActionsApiResponse
  | .historyWithActions => pbccParseHistoryWithActionsResponse
  | .grantToken => pbccParseGrantTokenApiResponse
  | .fetchHistory => pbccParseFetchHistoryResponse
  | .revokeToken => pbccParseRevokeTokenResponse

end PubNub
