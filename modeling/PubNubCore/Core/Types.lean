import Mathlib.Algebra.Order.BigOperators.Group.List
import Mathlib.Algebra.Order.Ring.Int
import Mathlib.Data.List.Basic
import Mathlib.Data.UInt

/-!
# Types shared by the whole library

The enumerations of `core/pubnub_api_types.h` and the text representation.  A C string is the
list of its bytes without the terminating NUL; `ascii` writes the literals of the source.
-/

namespace PubNub

/-- The bytes of a C string or of a buffer. -/
abbrev Bytes := List UInt8

instance : LawfulBEq Bytes := inferInstance

/-- The bytes of a string literal of the source. -/
def ascii (s : String) : Bytes := s.toList.map fun c => UInt8.ofNat c.toNat

/-- A number that becomes an `int`; `none` if it cannot hold the number. -/
def asInt (n : Nat) : Option Nat := if n < 2 ^ 31 then some n else none

/-- `enum pubnub_res`. -/
inductive PubnubRes
  | ok | addrResolutionFailed | waitConnectTimeout | connectFailed | connectionTimeout
  | timeout | aborted | ioError | httpError | formatError | subTtFormatError | subNoTtError
  | subNoRegError | subAlreadyAdded | subNotFound | cancelled | started | inProgress
  | rxBuffNotEmpty | txBuffTooSmall | invalidChannel | publishFailed | channelRegistryError
  | replyTooBig | internalError | outOfMemory | cryptoNotSupported | badCompressionFormat
  | invalidParameters | errorOnServer | authenticationFailed | objectsApiInvalidParam
  | objectsApiError | gotAllActions | actionsApiError | grantTokenApiError | fetchHistoryError
  | revokeTokenApiError | accessDenied | groupEmpty | presenceApiError
  deriving DecidableEq, Repr

/-- `enum pubnub_trans`.  The transactions which the modelled code tells apart keep their
    names; the others are only an index into the table of response parsers. -/
inductive PubnubTrans
  | none | leave | heartbeat | subscribeV2 | other (index : Nat)
  deriving DecidableEq, Repr

/-- The results for which the outcome of a transaction resets the time token
    (`PBNTF_TRANS_OUTCOME_COMMON`). -/
def PubnubRes.resetsTimetoken : PubnubRes → Bool
  | .formatError | .subTtFormatError | .subNoTtError | .subNoRegError => true
  | _ => false

/-- `enum pubnub_message_type`. -/
inductive PubnubMessageType
  | signal | published | action | objects | files
  deriving DecidableEq, Repr

/-- `struct pubnub_v2_message`.  The defaults are what its `memset` leaves. -/
structure PubnubV2Message where
  tt : Bytes := []
  region : Int := 0
  flags : Int := 0
  channel : Bytes := []
  matchOrGroup : Bytes := []
  payload : Bytes := []
  metadata : Bytes := []
  messageType : PubnubMessageType := .signal
  publisher : Bytes := []
  customMessageType : Bytes := []
  deriving DecidableEq, Repr

end PubNub
