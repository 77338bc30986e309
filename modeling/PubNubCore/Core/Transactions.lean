import PubNubCore.Core.Types

/-!
# The transactions

`enum pubnub_trans` with all the modules compiled in.  The subscribe event engine looks at a
handful of them and has its own `PubnubTrans`; what concerns every function of the API is stated
about this type.
-/

namespace PubNub

/-- `enum pubnub_trans`, in the order of the source. -/
inductive Pbtt
  | none | subscribe | publish | signal | leave | time | history | herenow | globalHerenow
  | wherenow | setState | stateGet | removeChannelGroup | removeChannelFromGroup
  | addChannelToGroup | listChannelGroup | heartbeat | subscribeV2 | messageCounts
  | deleteMessages | getallUuidmetadata | setUuidmetadata | getUuidmetadata
  | deleteUuidmetadata | getallChannelmetadata | setChannelmetadata | getChannelmetadata
  | removeChannelmetadata | getMemberships | setMemberships | removeMemberships | getMembers
  | addMembers | setMembers | removeMembers | addAction | removeAction | getActions
  | historyWithActions | grantToken | fetchHistory | revokeToken
  deriving DecidableEq, Repr

end PubNub
