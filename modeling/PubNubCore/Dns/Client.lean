import PubNubCore.Lib.Machine
import PubNubCore.Core.Types
import PubNubCore.Dns.Servers

/-!
# The DNS client of a context

The part of `pbnc_fsm`, `pbnc_stop` and `pbpal_resolv_and_connect` that decides how often a
DNS server is asked, and which one.  A transaction that needs an address asks a server
(`PBS_READY`, `PBS_WAIT_DNS_SEND`), waits for the answer (`PBS_WAIT_DNS_RCV`), and on a timeout
or an error either closes the socket and goes back to `PBS_READY` or ends.

Two counters stand in three-bit fields of type `int`, so they hold the values from -4 to 3:
`sent_queries`, which every outcome of a transaction clears, and `rotations_count`, which is
cleared by an answer only and which `pubnub_init` does not write.  `BitVec 3` models them, with
`BitVec.toInt` for what a comparison reads.

Beside the fields of the context, the state keeps what the results speak of: the queries sent in
this transaction, whether a counter was ever increased past what it can hold, the servers that
have failed since `dns_server_check` was last cleared, and what ended the last transaction.
-/

namespace PubNub

/-! ## The build and the configuration -/

/-- The compile-time settings that matter here, and the servers the user has configured.  The
    two bounds are the static assertions of the source. -/
structure DnsBuild where
  useIpv6 : Bool
  changeDnsServers : Bool
  maxDnsQueries : Nat
  maxDnsRotation : Nat
  maxDnsQueries_lt : maxDnsQueries < 1 <<< 3
  maxDnsRotation_lt : maxDnsRotation < 1 <<< 3
  servers : DnsServers

/-- `PUBNUB_MAX_DNS_SERVERS_MASK`. -/
def DnsBuild.maxDnsServersMask (b : DnsBuild) : UInt8 :=
  if b.useIpv6 then 0x10 else 0x04

/-! ## The state -/

/-- The states of a context between which the DNS client moves; `over` is any state without a
    transaction, `connecting` any state after the answer. -/
inductive DnsPhase
  | over | ready | waitDnsSend | waitDnsRcv | connecting
  deriving DecidableEq, Repr

/-- What ended a transaction. -/
inductive DnsEnding
  | timeout | serverError | other
  deriving DecidableEq, Repr

/-- The fields of the context which the DNS client works on. -/
structure DnsClient where
  phase : DnsPhase
  dnsMask : UInt8
  dnsServerCheck : UInt8
  rotationsCount : BitVec 3
  sentQueries : BitVec 3
  lastResult : PubnubRes
  queries : Nat
  overflowed : Bool
  failed : List DnsServer
  picked : Option DnsServer
  ended : Option DnsEnding
  deriving DecidableEq

/-- How a call of `send_dns_query` goes, or that there was no socket for it. -/
inductive DnsSend
  | noSocket | failed | wouldblock | sent
  deriving DecidableEq, Repr

/-- How a call of `read_dns_response` goes. -/
inductive DnsRead
  | failed | wouldblock | answered
  deriving DecidableEq, Repr

/-- What can happen to the DNS client. -/
inductive DnsStep
  | start
  | startKeptAlive
  | resolve (family : AddressFamily) (sys : SystemServers) (o : DnsSend) (gotSocket : Bool)
  | resend (o : DnsSend)
  | receive (o : DnsRead)
  | timeout
  | cancel
  | resolveAgain
  | finish (res : PubnubRes)

namespace DnsClient

/-- The counters are increased in place; `overflowed` notes that the old value was the largest
    one they can hold. -/
def sentOne (c : DnsClient) : DnsClient :=
  { c with
    sentQueries := c.sentQueries + 1
    overflowed := c.overflowed || c.sentQueries.toInt == 3
    queries := c.queries + 1 }

/-- `dns_server_check |= dns_mask`. -/
def noteError (c : DnsClient) : DnsClient :=
  { c with
    dnsServerCheck := c.dnsServerCheck ||| c.dnsMask
    failed := c.picked.toList ++ c.failed }

/-- All servers have been tried: `dns_server_check` is cleared and the rotation counted. -/
def newRotation (c : DnsClient) : DnsClient :=
  { c with
    dnsServerCheck := 0
    failed := []
    rotationsCount := c.rotationsCount + 1
    overflowed := c.overflowed || c.rotationsCount.toInt == 3 }

/-- `pbntf_trans_outcome`. -/
def transOutcome (c : DnsClient) (res : PubnubRes) (ending : DnsEnding) : DnsClient :=
  { c with phase := .over, sentQueries := 0, lastResult := res, ended := some ending }

/-- `close_connection` with `retry_after_close` set, and `PBS_RETRY` after it. -/
def retry (c : DnsClient) (res : PubnubRes) : DnsClient :=
  { c with phase := .ready, lastResult := res }

end DnsClient

/-! ## The functions -/

/-- `pbpal_dns_rotate_server`: its result and the context. -/
def pbpalDnsRotateServer (b : DnsBuild) (c : DnsClient) : Bool × DnsClient :=
  let c := c.noteError
  let c :=
    if b.maxDnsServersMask ≤ c.dnsMask ∧ c.rotationsCount.toInt < b.maxDnsRotation then
      c.newRotation
    else c
  if b.maxDnsRotation ≤ c.rotationsCount.toInt then (true, { c with rotationsCount := 1 })
  else (false, { c with sentQueries := 0 })

/-- `check_dns_server_error`: whether it asks for a retry, and the context. -/
def checkDnsServerError (b : DnsBuild) (c : DnsClient) : Bool × DnsClient :=
  let c := c.noteError
  if c.dnsMask < b.maxDnsServersMask then (true, { c with sentQueries := 0 }) else (false, c)

/-- `pbnc_stop(pbp, PNR_TIMEOUT)` while the context waits for the DNS, up to the state in which
    the context sends again or the transaction is over. -/
def stopOnTimeout (b : DnsBuild) (c : DnsClient) : DnsClient :=
  if b.changeDnsServers then
    let r := pbpalDnsRotateServer b c
    if r.1 then r.2.transOutcome .addrResolutionFailed .timeout else r.2.retry .timeout
  else if c.sentQueries.toInt < b.maxDnsQueries then c.retry .timeout
  else c.transOutcome .addrResolutionFailed .timeout

/-- A query that could not be sent, or a response that could not be read. -/
def dnsServerError (b : DnsBuild) (c : DnsClient) : DnsClient :=
  if b.changeDnsServers then
    let r := checkDnsServerError b c
    if r.1 then r.2.retry .addrResolutionFailed
    else r.2.transOutcome .addrResolutionFailed .serverError
  else c.transOutcome .addrResolutionFailed .serverError

/-- A timeout, where the build changes servers. -/
lemma stopOnTimeout_of_change {b : DnsBuild} {c : DnsClient} (hb : b.changeDnsServers = true) :
    ∃ c', (c' = c.noteError.newRotation ∧ b.maxDnsServersMask ≤ c.dnsMask ∧
        c.rotationsCount.toInt < b.maxDnsRotation ∨
      c' = c.noteError ∧ ¬ (b.maxDnsServersMask ≤ c.dnsMask ∧
        c.rotationsCount.toInt < b.maxDnsRotation)) ∧
      (b.maxDnsRotation ≤ c'.rotationsCount.toInt ∧ stopOnTimeout b c =
          DnsClient.transOutcome { c' with rotationsCount := 1 } .addrResolutionFailed .timeout ∨
        c'.rotationsCount.toInt < b.maxDnsRotation ∧ stopOnTimeout b c =
          DnsClient.retry { c' with sentQueries := 0 } .timeout) := by
  by_cases hreset : b.maxDnsServersMask ≤ c.noteError.dnsMask ∧
      c.noteError.rotationsCount.toInt < b.maxDnsRotation
  · refine ⟨c.noteError.newRotation, .inl ⟨rfl, hreset⟩, ?_⟩
    by_cases hlast : b.maxDnsRotation ≤ c.noteError.newRotation.rotationsCount.toInt
    · exact .inl ⟨hlast, by simp [stopOnTimeout, pbpalDnsRotateServer, hb, hreset, hlast]⟩
    · exact .inr ⟨not_le.mp hlast,
        by simp [stopOnTimeout, pbpalDnsRotateServer, hb, hreset, hlast]⟩
  · refine ⟨c.noteError, .inr ⟨rfl, hreset⟩, ?_⟩
    by_cases hlast : b.maxDnsRotation ≤ c.noteError.rotationsCount.toInt
    · exact .inl ⟨hlast,
        by simp only [stopOnTimeout, pbpalDnsRotateServer, hb, if_neg hreset, if_pos hlast, if_true]⟩
    · exact .inr ⟨not_le.mp hlast, by
        simp only [stopOnTimeout, pbpalDnsRotateServer, hb, if_neg hreset, if_neg hlast, if_true,
          Bool.false_eq_true, if_false]⟩

/-- An error of a server, where the build changes servers. -/
lemma dnsServerError_of_change {b : DnsBuild} {c : DnsClient} (hb : b.changeDnsServers = true) :
    c.dnsMask < b.maxDnsServersMask ∧ dnsServerError b c =
        DnsClient.retry { c.noteError with sentQueries := 0 } .addrResolutionFailed ∨
      ¬ c.dnsMask < b.maxDnsServersMask ∧ dnsServerError b c =
        c.noteError.transOutcome .addrResolutionFailed .serverError := by
  by_cases hlt : c.noteError.dnsMask < b.maxDnsServersMask
  · exact .inl ⟨hlt, by simp only [dnsServerError, checkDnsServerError, hb, if_pos hlt, if_true]⟩
  · exact .inr ⟨hlt, by simp only [dnsServerError, checkDnsServerError, hb, if_neg hlt, if_true,
      Bool.false_eq_true, if_false]⟩

/-- `pbpal_resolv_and_connect` up to the query: the next server.  Without
    `PUBNUB_CHANGE_DNS_SERVERS` no bit is ever set, and the search is the same. -/
def pickServer (b : DnsBuild) (c : DnsClient) (family : AddressFamily) (sys : SystemServers) :
    DnsClient :=
  let r := getDnsIp b.servers sys family (if b.changeDnsServers then c.dnsServerCheck else 0)
  { c with dnsMask := r.1, picked := r.2.source }

/-- `PBS_READY`: a new socket, the next server and the query.  `gotSocket` is false where
    `pbntf_got_socket` reports a failure. -/
def readyState (b : DnsBuild) (c : DnsClient) (family : AddressFamily) (sys : SystemServers)
    (o : DnsSend) (gotSocket : Bool) : DnsClient :=
  let c := pickServer b c family sys
  match o with
  | .noSocket => c.transOutcome .addrResolutionFailed .other
  | .failed => dnsServerError b c
  | .wouldblock =>
      if gotSocket then { c with phase := .waitDnsSend } else c.transOutcome .connectFailed .other
  | .sent =>
      let c := c.sentOne
      if gotSocket then { c with phase := .waitDnsRcv } else c.transOutcome .connectFailed .other

/-- `PBS_WAIT_DNS_SEND`: the socket is there, and the same server is asked. -/
def waitDnsSendState (b : DnsBuild) (c : DnsClient) : DnsSend → Option DnsClient
  | .noSocket => none
  | .failed => some (dnsServerError b c)
  | .wouldblock => some c
  | .sent => some { c.sentOne with phase := .waitDnsRcv }

/-- `PBS_WAIT_DNS_RCV`. -/
def waitDnsRcvState (b : DnsBuild) (c : DnsClient) : DnsRead → DnsClient
  | .failed => dnsServerError b c
  | .wouldblock => c
  | .answered =>
      { c with
        phase := .connecting
        rotationsCount := if b.changeDnsServers then 0 else c.rotationsCount }

/-- `initialize_fields_in_state_IDLE`, of which only `dns_server_check` matters, and the ghost
    fields of a new transaction. -/
def DnsClient.newTransaction (c : DnsClient) : DnsClient :=
  { c with phase := .ready, queries := 0, ended := none }

/-- One step of the DNS client.  A transaction over a connection that was kept alive comes to
    the DNS without passing `PBS_IDLE`; after an answer, a transaction that runs out of addresses
    may ask the DNS again. -/
def dnsStep (b : DnsBuild) (c : DnsClient) : DnsStep → Option DnsClient
  | .start =>
      if c.phase = .over then
        some { c.newTransaction with dnsServerCheck := 0, failed := [] }
      else none
  | .startKeptAlive => if c.phase = .over then some c.newTransaction else none
  | .resolve family sys o gotSocket =>
      if c.phase = .ready ∧ (family = .inet6 → b.useIpv6 = true) then
        some (readyState b c family sys o gotSocket)
      else none
  | .resend o => if c.phase = .waitDnsSend then waitDnsSendState b c o else none
  | .receive o => if c.phase = .waitDnsRcv then some (waitDnsRcvState b c o) else none
  | .timeout =>
      if c.phase = .waitDnsSend ∨ c.phase = .waitDnsRcv then some (stopOnTimeout b c) else none
  | .cancel => if c.phase = .over then none else some (c.transOutcome .cancelled .other)
  | .resolveAgain => if c.phase = .connecting then some { c with phase := .ready } else none
  | .finish res => if c.phase = .connecting then some (c.transOutcome res .other) else none

/-- The DNS client of a context whose `rotations_count` starts as `pubnub_init` finds it. -/
def dnsClient (b : DnsBuild) (rotationsCount : BitVec 3) : Machine DnsClient DnsStep where
  init :=
    { phase := .over
      dnsMask := 0
      dnsServerCheck := 0
      rotationsCount := rotationsCount
      sentQueries := 0
      lastResult := .ok
      queries := 0
      overflowed := false
      failed := []
      picked := none
      ended := none }
  step := dnsStep b

end PubNub
