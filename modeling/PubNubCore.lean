import PubNubCore.Lib.Machine
import PubNubCore.Core.Types
import PubNubCore.Lib.ChainedHash
import PubNubCore.Subscribables.Registry
import PubNubCore.Subscribables.Flattening
import PubNubCore.Subscribables.Changes
import PubNubCore.Subscribables.Leaves
import PubNubCore.SubscribeEngine.Delivery
import PubNubCore.SubscribeEngine.NonEmpty
import PubNubCore.SubscribeEngine.Transactions
import PubNubCore.SubscribeEngine.Lifetimes
import PubNubCore.Network.ReplyBuffer
import PubNubCore.Network.Reading
import PubNubCore.Network.Headers
import PubNubCore.Network.Bodies
import PubNubCore.Network.Sending
import PubNubCore.Network.CompressedRuns
import PubNubCore.Network.Outcomes
import PubNubCore.Retry.Runs
import PubNubCore.Api.Verbs
import PubNubCore.Api.Signatures
import PubNubCore.Api.Locks
import PubNubCore.Api.Metadata
import PubNubCore.Api.Actions
import PubNubCore.Crypto.Unescape
import PubNubCore.Dns.Ipv4Address
import PubNubCore.Dns.Ipv6Address
import PubNubCore.Replies.Balance
import PubNubCore.Arrays.Destructors
import PubNubCore.HashSets.Runs
import PubNubCore.Replies.Subscribe
import PubNubCore.Dns.Queries
import PubNubCore.Dns.Responses
import PubNubCore.Dns.SpareAddresses
import PubNubCore.Dns.Answers
import PubNubCore.Dns.Inspection
import PubNubCore.Dns.Requests
import PubNubCore.Json.Members
import PubNubCore.Logging.Registered
import PubNubCore.Subscribables.SetOperations
import PubNubCore.Crypto.Decryption
import PubNubCore.Crypto.MemoryEncode
import PubNubCore.Crypto.Md5
import PubNubCore.Proxy.Transactions
import PubNubCore.Listeners.Runs
import PubNubCore.SubscribeEngine.Timetokens
import PubNubCore.Api.UrlEncode
import PubNubCore.Crypto.Base64RoundTrip
import PubNubCore.Proxy.BasicHeader
import PubNubCore.Timers.Runs
import PubNubCore.Callbacks.Runs
import PubNubCore.Heartbeat.Runs
import PubNubCore.Dns.Destinations
import PubNubCore.Heartbeat.RemoveFromList
import PubNubCore.Proxy.DigestParameters
import PubNubCore.Requests.FetchHistory
import PubNubCore.Requests.PresenceState
import PubNubCore.Proxy.NonceCounts
import PubNubCore.Compression.Compress
