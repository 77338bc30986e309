import Mathlib.Tactic.Linarith
import PubNubCore.Dns.Rotation

/-!
# How many DNS queries a transaction sends

A transaction may send at most `PUBNUB_MAX_DNS_QUERIES` queries to each server in each of
`PUBNUB_MAX_DNS_ROTATION` rotations (`DnsBuild.queryBound`), and what is done to enforce it is
one comparison of a three-bit counter.

* **`dns_queries_bounded`** — the bound holds, no counter is increased past what its field can
  hold, and a transaction that ends for a timeout or an error of a server ends with
  `PNR_ADDR_RESOLUTION_FAILED`, provided that the limits fit into the *signed* fields, that the
  mask comes to `PUBNUB_MAX_DNS_SERVERS_MASK` at the last server (`DnsBuild.Counts`), that the
  rotations already counted when the transaction starts leave few enough, and that the
  transaction does not come back to the DNS after an answer (`CountsRight`).
* `dns_queries_not_always_bounded` — the default build with IPv6: its limit of five rotations is
  more than `rotations_count` can hold, which goes from 3 to -4, and the queries never stop.

The invariant is a potential, `ahead`: the servers that are left in this rotation and those of
the rotations after it.  A query costs one of them, so the queries sent and the queries ahead
never add up to more than they did at the start.
-/

namespace PubNub

variable {b : DnsBuild} {family : AddressFamily}

/-! ## The bound -/

/-- The servers among which the client rotates: the configured ones and the default. -/
def DnsBuild.serverCount (b : DnsBuild) (family : AddressFamily) : Nat :=
  family.searchOrder.countP b.servers.isSet + 1

/-- The number of queries a transaction may send.  Without `PUBNUB_CHANGE_DNS_SERVERS` there is
    one server and no rotation. -/
def DnsBuild.queryBound (b : DnsBuild) (family : AddressFamily) : Nat :=
  if b.changeDnsServers then b.maxDnsQueries * b.serverCount family * b.maxDnsRotation
  else b.maxDnsQueries

/-- The limits are at least one and fit into the signed fields, and the mask of the last server
    is the one at which a rotation ends: the family is the one that the build prefers, and no
    IPv6 server is configured. -/
structure DnsBuild.Counts (b : DnsBuild) (family : AddressFamily) : Prop where
  queries_pos : 0 < b.maxDnsQueries
  queries : b.changeDnsServers = false → b.maxDnsQueries ≤ 3
  rotation_pos : b.changeDnsServers = true → 0 < b.maxDnsRotation
  rotation : b.changeDnsServers = true → b.maxDnsRotation ≤ 3
  lastMask : b.changeDnsServers = true → b.maxDnsServersMask = dnsBit family .systemOrDefault
  noIpv6 : b.changeDnsServers = true → ∀ s ∈ ipv6Servers, b.servers.isSet s = false

/-- The condition on a step: the host prefers this family, the rotations left at the start of a
    transaction are not more than the queries allowed for one server, and no transaction asks the
    DNS again after an answer. -/
def CountsRight (b : DnsBuild) (family : AddressFamily) : DnsClient → DnsStep → Prop
  | c, .start | c, .startKeptAlive =>
      b.changeDnsServers = true →
        b.maxDnsRotation - c.rotationsCount.toInt ≤ b.maxDnsQueries * b.maxDnsRotation
  | _, .resolve family' _ _ _ => family' = family
  | _, .resolveAgain => False
  | _, _ => True

/-- What is promised of the queries of a transaction. -/
structure DnsClient.QueriesBounded (b : DnsBuild) (family : AddressFamily) (c : DnsClient) :
    Prop where
  bounded : c.queries ≤ b.queryBound family
  stops : c.phase = .ready ∨ c.phase = .waitDnsSend → c.queries < b.queryBound family
  inRange : c.overflowed = false
  result : c.ended = some .timeout ∨ c.ended = some .serverError →
    c.lastResult = .addrResolutionFailed

/-! ## The potential -/

/-- The servers that are left in this rotation. -/
def DnsBuild.leftToAsk (b : DnsBuild) (family : AddressFamily) (dnsServerCheck : UInt8) : Nat :=
  family.searchOrder.countP
    (fun s => b.servers.isSet s && (dnsServerCheck &&& dnsBit family s == 0)) + 1

/-- The queries that are still ahead. -/
def DnsClient.ahead (b : DnsBuild) (family : AddressFamily) (c : DnsClient) : Nat :=
  b.leftToAsk family c.dnsServerCheck +
    (b.maxDnsRotation - c.rotationsCount.toInt - 1).toNat * b.serverCount family

/-- A count that loses one element. -/
lemma countP_add_one {α : Type} [DecidableEq α] {p q : α → Bool} {s : α} {l : List α}
    (hl : l.Nodup) (hs : s ∈ l) (hp : p s = true) (hq : q s = false)
    (h : ∀ t ∈ l, t ≠ s → q t = p t) : l.countP q + 1 = l.countP p := by
  induction l with
  | nil => simp at hs
  | cons a l ih =>
      rw [List.nodup_cons] at hl
      rcases List.mem_cons.mp hs with rfl | hs'
      · have hrest : l.countP q = l.countP p := by
          refine List.countP_congr fun t ht => ?_
          rw [h t (List.mem_cons_of_mem s ht) fun hts => hl.1 (hts ▸ ht)]
        simp [hp, hq, hrest]
      · have hne : a ≠ s := fun has => hl.1 (has ▸ hs')
        have hrest := ih hl.2 hs' fun t ht => h t (List.mem_cons_of_mem a ht)
        simp only [List.countP_cons, h a (List.mem_cons_self) hne]
        omega

lemma searchOrder_nodup (family : AddressFamily) : family.searchOrder.Nodup := by
  cases family <;> decide

lemma leftToAsk_le (b : DnsBuild) (family : AddressFamily) (check : UInt8) :
    b.leftToAsk family check ≤ b.serverCount family := by
  refine Nat.succ_le_succ (List.countP_mono_left fun s _ h => ?_)
  simp only [Bool.and_eq_true] at h
  exact h.1

lemma leftToAsk_zero (b : DnsBuild) (family : AddressFamily) :
    b.leftToAsk family 0 = b.serverCount family := by
  simp [DnsBuild.leftToAsk, DnsBuild.serverCount]

lemma leftToAsk_pos (b : DnsBuild) (family : AddressFamily) (check : UInt8) :
    0 < b.leftToAsk family check := Nat.succ_pos _

/-- A server that fails is left no more. -/
lemma leftToAsk_or {check : UInt8} {s : DnsServer} (hs : s ∈ family.searchOrder)
    (hset : b.servers.isSet s = true) (hok : ¬ Marked family check s) :
    b.leftToAsk family (check ||| dnsBit family s) + 1 = b.leftToAsk family check := by
  have hzero : ∀ (x : UInt8) (t : DnsServer),
      (x &&& dnsBit family t == 0) = !decide (Marked family x t) := by
    intro x t
    by_cases h : x &&& dnsBit family t = 0 <;> simp [Marked, h]
  unfold DnsBuild.leftToAsk
  refine congrArg (· + 1) (countP_add_one (s := s) (searchOrder_nodup family) hs ?_ ?_ ?_)
  · simp [hzero, hset, hok]
  · have hmarked : Marked family (check ||| dnsBit family s) s :=
      marked_or.mpr (.inr ((dnsBit_and_dnsBit (.inl hs) hs).mpr rfl))
    simp [hzero, hmarked]
  · intro t ht hne
    have hiff : Marked family (check ||| dnsBit family s) t ↔ Marked family check t := by
      rw [marked_or, dnsBit_and_dnsBit (.inl hs) ht]
      exact or_iff_left hne
    simp [hzero, hiff]

/-! ## The invariant of a build that rotates -/

/-- The bit that `dns_mask` is on while the context waits for the answer: that of a configured
    server that had not failed, or the last one. -/
def MaskPicked (b : DnsBuild) (family : AddressFamily) (c : DnsClient) : Prop :=
  c.dnsMask = b.maxDnsServersMask ∨ (c.dnsMask < b.maxDnsServersMask ∧
    ∃ s ∈ family.searchOrder, b.servers.isSet s = true ∧
      ¬ Marked family c.dnsServerCheck s ∧ c.dnsMask = dnsBit family s)

/-- The queries of this transaction that a phase leaves to be sent. -/
def DnsClient.reserve (b : DnsBuild) (family : AddressFamily) (c : DnsClient) : Nat :=
  match c.phase with
  | .ready | .waitDnsSend => c.ahead b family
  | .waitDnsRcv => c.ahead b family - 1
  | .over | .connecting => 0

/-- The invariant: the queries sent and those in reserve are within the bound. -/
structure Counted (b : DnsBuild) (family : AddressFamily) (c : DnsClient) : Prop where
  bounded : c.queries + c.reserve b family ≤ b.queryBound family
  mask : c.phase = .waitDnsSend ∨ c.phase = .waitDnsRcv → MaskPicked b family c
  sent : c.phase ≠ .waitDnsRcv → c.phase ≠ .connecting → c.sentQueries = 0
  inRange : c.overflowed = false
  ended : c.phase ≠ .over → c.ended = none
  result : c.ended = some .timeout ∨ c.ended = some .serverError →
    c.lastResult = .addrResolutionFailed

section Rotating

variable {c : DnsClient}

lemma ahead_pos (b : DnsBuild) (family : AddressFamily) (c : DnsClient) :
    0 < c.ahead b family :=
  Nat.add_pos_left (leftToAsk_pos b family _) _

/-- A transaction that has not sent anything has its reserve within the bound. -/
lemma ahead_le_queryBound (hb : b.Counts family) (hchange : b.changeDnsServers = true)
    (hrot : b.maxDnsRotation - c.rotationsCount.toInt ≤ b.maxDnsQueries * b.maxDnsRotation) :
    c.ahead b family ≤ b.queryBound family := by
  have hleft := leftToAsk_le b family c.dnsServerCheck
  have hpos : 1 ≤ b.maxDnsQueries * b.maxDnsRotation :=
    Nat.mul_pos hb.queries_pos (hb.rotation_pos hchange)
  have hturns : 1 + (b.maxDnsRotation - c.rotationsCount.toInt - 1).toNat ≤
      b.maxDnsQueries * b.maxDnsRotation := by
    have hcast : ((b.maxDnsQueries * b.maxDnsRotation : Nat) : Int) =
        b.maxDnsQueries * b.maxDnsRotation := Int.natCast_mul _ _
    omega
  calc c.ahead b family
      ≤ (1 + (b.maxDnsRotation - c.rotationsCount.toInt - 1).toNat) * b.serverCount family := by
        rw [DnsClient.ahead, Nat.add_mul, one_mul]
        omega
    _ ≤ b.maxDnsQueries * b.maxDnsRotation * b.serverCount family :=
        Nat.mul_le_mul_right _ hturns
    _ = b.queryBound family := by
        rw [DnsBuild.queryBound, if_pos hchange, Nat.mul_right_comm]

/-- A failure of any server but the last one takes one from the queries ahead. -/
lemma ahead_noteError (hmask : MaskPicked b family c) (hlt : c.dnsMask < b.maxDnsServersMask) :
    c.noteError.ahead b family + 1 = c.ahead b family := by
  rcases hmask with heq | ⟨-, s, hs, hset, hok, hbit⟩
  · exact absurd hlt (heq ▸ UInt8.lt_irrefl _)
  · have hleft := leftToAsk_or (b := b) hs hset hok
    simp only [DnsClient.ahead, DnsClient.noteError, hbit]
    omega

/-- The counter of rotations goes up by one as long as it stays below a limit of at most 3. -/
lemma rotation_succ {n : Nat} (hn : n ≤ 3) {r : BitVec 3} (h : r.toInt < n) :
    (r + 1).toInt = r.toInt + 1 ∧ (r.toInt == 3) = false := by
  have hr : ∀ r : BitVec 3, r.toInt < 3 →
      (r + 1).toInt = r.toInt + 1 ∧ (r.toInt == 3) = false := by decide
  exact hr r (by omega)

/-- A new rotation is paid for by the last server of the old one. -/
lemma ahead_newRotation (family : AddressFamily) {c c' : DnsClient} (hcheck : c'.dnsServerCheck = 0)
    (hrot : c'.rotationsCount.toInt = c.rotationsCount.toInt + 1)
    (hlt : c'.rotationsCount.toInt < b.maxDnsRotation) :
    c'.ahead b family + b.leftToAsk family c.dnsServerCheck = c.ahead b family := by
  have hturns : (b.maxDnsRotation - c.rotationsCount.toInt - 1).toNat =
      (b.maxDnsRotation - c'.rotationsCount.toInt - 1).toNat + 1 := by omega
  rw [DnsClient.ahead, DnsClient.ahead, hcheck, leftToAsk_zero, hturns, Nat.add_mul, one_mul]
  omega

/-- The end of a transaction. -/
lemma counted_transOutcome {res : PubnubRes} {ending : DnsEnding}
    (hq : c.queries ≤ b.queryBound family) (hrange : c.overflowed = false)
    (hres : ending = .other ∨ res = .addrResolutionFailed) :
    Counted b family (c.transOutcome res ending) where
  bounded := hq
  mask := by simp [DnsClient.transOutcome]
  sent := fun _ _ => rfl
  inRange := hrange
  ended := fun h => absurd rfl h
  result := by
    rintro (h | h) <;> rcases hres with rfl | rfl <;> simp_all [DnsClient.transOutcome]

/-- The way back to `PBS_READY`. -/
lemma counted_retry {res : PubnubRes}
    (hq : c.queries + c.ahead b family ≤ b.queryBound family) (hsent : c.sentQueries = 0)
    (hrange : c.overflowed = false) (hended : c.ended = none) :
    Counted b family (c.retry res) where
  bounded := hq
  mask := by simp [DnsClient.retry]
  sent := fun _ _ => hsent
  inRange := hrange
  ended := fun _ => hended
  result := by simp [DnsClient.retry, hended]

/-- An error of the server that is asked: the next one is, unless it was the last. -/
lemma counted_dnsServerError (hchange : b.changeDnsServers = true)
    (hq : c.queries + c.ahead b family ≤ b.queryBound family + 1) (hmask : MaskPicked b family c)
    (hrange : c.overflowed = false) (hended : c.ended = none) :
    Counted b family (dnsServerError b c) := by
  have hpos := ahead_pos b family c
  rcases dnsServerError_of_change (c := c) hchange with ⟨hlt, heq⟩ | ⟨-, heq⟩ <;> rw [heq]
  · have hahead := ahead_noteError hmask hlt
    refine counted_retry ?_ rfl hrange hended
    change c.queries + c.noteError.ahead b family ≤ _
    omega
  · refine counted_transOutcome ?_ hrange (.inr rfl)
    change c.queries ≤ _
    omega

/-- A query without an answer: the next server is asked, in a new rotation after the last one,
    or the transaction is over. -/
lemma Counted.stopOnTimeout (h : Counted b family c) (hb : b.Counts family)
    (hchange : b.changeDnsServers = true)
    (hphase : c.phase = .waitDnsSend ∨ c.phase = .waitDnsRcv) :
    Counted b family (stopOnTimeout b c) := by
  have hmask := h.mask hphase
  have hended : c.ended = none := h.ended (by rcases hphase with hp | hp <;> simp [hp])
  have hbounded := h.bounded
  have hpos := ahead_pos b family c
  have hq : c.queries + c.ahead b family ≤ b.queryBound family + 1 := by
    rcases hphase with hp | hp <;> simp only [DnsClient.reserve, hp] at hbounded <;> omega
  obtain ⟨c', hc', hstop⟩ := stopOnTimeout_of_change (c := c) hchange
  have hc : c'.queries = c.queries ∧ c'.overflowed = false ∧ c'.ended = none := by
    rcases hc' with ⟨rfl, -, hrot⟩ | ⟨rfl, -⟩
    · refine ⟨rfl, ?_, hended⟩
      have hthree := (rotation_succ (hb.rotation hchange) hrot).2
      change (c.overflowed || c.rotationsCount.toInt == 3) = false
      rw [hthree, h.inRange, Bool.or_false]
    · exact ⟨rfl, h.inRange, hended⟩
  rcases hstop with ⟨-, heq⟩ | ⟨hleft, heq⟩ <;> rw [heq]
  · refine counted_transOutcome ?_ hc.2.1 (.inr rfl)
    change c'.queries ≤ _
    omega
  · refine counted_retry ?_ rfl hc.2.1 hc.2.2
    change c'.queries + c'.ahead b family ≤ _
    have hahead : c'.ahead b family + 1 ≤ c.ahead b family := by
      rcases hc' with ⟨rfl, -, hrot⟩ | ⟨rfl, hnot⟩
      · have hpaid := ahead_newRotation family rfl
          (rotation_succ (hb.rotation hchange) hrot).1 hleft
        have hone := leftToAsk_pos b family c.dnsServerCheck
        omega
      · refine (ahead_noteError hmask ?_).le
        by_contra hge
        exact hnot ⟨UInt8.not_lt.mp hge, hleft⟩
    omega

/-- The last bit is the highest. -/
lemma dnsBit_lt {s : DnsServer} (hs : s ∈ family.searchOrder) :
    dnsBit family s < dnsBit family .systemOrDefault := by
  have hall : ∀ s ∈ family.searchOrder, dnsBit family s < dnsBit family .systemOrDefault := by
    cases family <;> decide
  exact hall s hs

/-- The next server: its mask is one of a server that has not failed, or the last one. -/
lemma maskPicked_pickServer (hb : b.Counts family) (hchange : b.changeDnsServers = true)
    (c : DnsClient) (sys : SystemServers) :
    MaskPicked b family (pickServer b c family sys) := by
  have hpick := getDnsIp_pick b.servers sys family c.dnsServerCheck
  simp only [MaskPicked, pickServer, hchange, if_true, hb.lastMask hchange]
  generalize getDnsIp b.servers sys family c.dnsServerCheck = pick at hpick ⊢
  cases hpick with
  | taken s before after addr horder hbefore hset hok hfrom =>
      have hs : s ∈ family.searchOrder := by simp [horder]
      exact .inr ⟨dnsBit_lt hs, s, hs, hset, hok, rfl⟩
  | last addr hall hfrom => exact .inl rfl
  | ipv6LeftOver s addr hfam hs hset hall hfrom =>
      have hs' : s ∈ ipv6Servers := by simpa [ipv6Servers] using hs
      exact absurd hset (by simp [hb.noIpv6 hchange s hs'])
  | ipv4LeftOver s addr hfam hs hset hnone hall hsys hfrom =>
      subst hfam
      exact .inl rfl

/-- `PBS_READY` and `PBS_WAIT_DNS_SEND` once the server is known: the query is sent, or cannot
    be sent now, or not at all. -/
lemma counted_send (hchange : b.changeDnsServers = true)
    (hq : c.queries + c.ahead b family ≤ b.queryBound family) (hmask : MaskPicked b family c)
    (hsent : c.sentQueries = 0) (hrange : c.overflowed = false) (hended : c.ended = none) :
    Counted b family (dnsServerError b c) ∧
      Counted b family { c with phase := .waitDnsSend } ∧
      Counted b family { c.sentOne with phase := .waitDnsRcv } ∧
      c.sentOne.queries ≤ b.queryBound family ∧ c.sentOne.overflowed = false := by
  have hpos := ahead_pos b family c
  have hover : c.sentOne.overflowed = false := by
    simp only [DnsClient.sentOne, hsent, hrange]
    decide
  refine ⟨counted_dnsServerError hchange (by omega) hmask hrange hended, ?_, ?_, ?_, hover⟩
  · exact ⟨hq, fun _ => hmask, fun _ _ => hsent, hrange, fun _ => hended, by simp [hended]⟩
  · refine ⟨?_, fun _ => hmask, fun h => absurd rfl h, hover, fun _ => hended, ?_⟩
    · change c.queries + 1 + (c.ahead b family - 1) ≤ _
      omega
    · simp [DnsClient.sentOne, hended]
  · change c.queries + 1 ≤ _
    omega

/-- `PBS_READY`. -/
lemma Counted.readyState (h : Counted b family c) (hb : b.Counts family)
    (hchange : b.changeDnsServers = true) (hphase : c.phase = .ready) (sys : SystemServers)
    (o : DnsSend) (gotSocket : Bool) :
    Counted b family (readyState b c family sys o gotSocket) := by
  have hbounded := h.bounded
  have hended := h.ended (by simp [hphase])
  have hsent := h.sent (by simp [hphase]) (by simp [hphase])
  simp only [DnsClient.reserve, hphase] at hbounded
  have hsend := counted_send (c := pickServer b c family sys) hchange hbounded
    (maskPicked_pickServer hb hchange c sys) hsent h.inRange hended
  have hq : c.queries ≤ b.queryBound family := Nat.le_of_add_right_le hbounded
  cases o with
  | noSocket => exact counted_transOutcome hq h.inRange (.inr rfl)
  | failed => exact hsend.1
  | wouldblock =>
      simp only [PubNub.readyState]
      split_ifs
      · exact hsend.2.1
      · exact counted_transOutcome hq h.inRange (.inl rfl)
  | sent =>
      simp only [PubNub.readyState]
      split_ifs
      · exact hsend.2.2.1
      · exact counted_transOutcome hsend.2.2.2.1 hsend.2.2.2.2 (.inl rfl)

/-- The start of a transaction. -/
lemma Counted.newTransaction (h : Counted b family c) (hb : b.Counts family)
    (hchange : b.changeDnsServers = true) (hphase : c.phase = .over)
    (hrot : b.maxDnsRotation - c.rotationsCount.toInt ≤ b.maxDnsQueries * b.maxDnsRotation)
    {c' : DnsClient} (hrot' : c'.rotationsCount = c.rotationsCount)
    (hnew : c'.phase = .ready ∧ c'.queries = 0 ∧ c'.ended = none)
    (hsent : c'.sentQueries = c.sentQueries) (hrange : c'.overflowed = c.overflowed) :
    Counted b family c' where
  bounded := by
    rw [← hrot'] at hrot
    simpa [DnsClient.reserve, hnew.1, hnew.2.1] using ahead_le_queryBound hb hchange hrot
  mask := by simp [hnew.1]
  sent := fun _ _ => hsent.trans (h.sent (by simp [hphase]) (by simp [hphase]))
  inRange := hrange.trans h.inRange
  ended := fun _ => hnew.2.2
  result := by simp [hnew.2.2]

/-- **One step keeps the count**, where the build rotates through its servers. -/
lemma Counted.step {a : DnsStep} {c' : DnsClient} (h : Counted b family c) (hb : b.Counts family)
    (hchange : b.changeDnsServers = true) (hguard : CountsRight b family c a)
    (hstep : dnsStep b c a = some c') : Counted b family c' := by
  have hq : c.queries ≤ b.queryBound family := Nat.le_of_add_right_le h.bounded
  cases a with
  | start =>
      simp only [dnsStep, Option.ite_none_right_eq_some, Option.some.injEq] at hstep
      obtain ⟨hphase, rfl⟩ := hstep
      exact h.newTransaction hb hchange hphase (hguard hchange) rfl ⟨rfl, rfl, rfl⟩ rfl rfl
  | startKeptAlive =>
      simp only [dnsStep, Option.ite_none_right_eq_some, Option.some.injEq] at hstep
      obtain ⟨hphase, rfl⟩ := hstep
      exact h.newTransaction hb hchange hphase (hguard hchange) rfl ⟨rfl, rfl, rfl⟩ rfl rfl
  | resolve family' sys o gotSocket =>
      obtain rfl : family' = family := hguard
      simp only [dnsStep, Option.ite_none_right_eq_some, Option.some.injEq] at hstep
      obtain ⟨⟨hphase, -⟩, rfl⟩ := hstep
      exact h.readyState hb hchange hphase sys o gotSocket
  | resend o =>
      simp only [dnsStep, Option.ite_none_right_eq_some] at hstep
      obtain ⟨hphase, hstep⟩ := hstep
      have hbounded := h.bounded
      simp only [DnsClient.reserve, hphase] at hbounded
      have hsend := counted_send hchange hbounded (h.mask (.inl hphase))
        (h.sent (by simp [hphase]) (by simp [hphase])) h.inRange (h.ended (by simp [hphase]))
      cases o with
      | noSocket => simp [waitDnsSendState] at hstep
      | failed => exact Option.some.inj hstep ▸ hsend.1
      | wouldblock => exact Option.some.inj hstep ▸ h
      | sent => exact Option.some.inj hstep ▸ hsend.2.2.1
  | receive o =>
      simp only [dnsStep, Option.ite_none_right_eq_some, Option.some.injEq] at hstep
      obtain ⟨hphase, rfl⟩ := hstep
      have hended := h.ended (by simp [hphase])
      cases o with
      | failed =>
          have hbounded := h.bounded
          simp only [DnsClient.reserve, hphase] at hbounded
          exact counted_dnsServerError hchange (by omega) (h.mask (.inr hphase)) h.inRange hended
      | wouldblock => exact h
      | answered =>
          exact ⟨hq, by simp [waitDnsRcvState], fun _ h => absurd rfl h, h.inRange,
            fun _ => hended, by simp [waitDnsRcvState, hended]⟩
  | timeout =>
      simp only [dnsStep, Option.ite_none_right_eq_some, Option.some.injEq] at hstep
      obtain ⟨hphase, rfl⟩ := hstep
      exact h.stopOnTimeout hb hchange hphase
  | cancel =>
      simp only [dnsStep, Option.ite_none_left_eq_some, Option.some.injEq] at hstep
      obtain ⟨-, rfl⟩ := hstep
      exact counted_transOutcome hq h.inRange (.inl rfl)
  | resolveAgain => exact hguard.elim
  | finish res =>
      simp only [dnsStep, Option.ite_none_right_eq_some, Option.some.injEq] at hstep
      obtain ⟨-, rfl⟩ := hstep
      exact counted_transOutcome hq h.inRange (.inl rfl)

end Rotating

/-! ## The invariant of a build with one server -/

/-- The counter is the number of queries, and another one is sent only below the limit. -/
structure CountedOne (b : DnsBuild) (c : DnsClient) : Prop where
  sent : c.phase ≠ .over → c.sentQueries.toInt = c.queries
  idle : c.phase = .over → c.sentQueries = 0
  bounded : c.queries ≤ b.maxDnsQueries
  stops : c.phase = .ready ∨ c.phase = .waitDnsSend → c.queries < b.maxDnsQueries
  inRange : c.overflowed = false
  ended : c.phase ≠ .over → c.ended = none
  result : c.ended = some .timeout ∨ c.ended = some .serverError →
    c.lastResult = .addrResolutionFailed

section OneServer

variable {c : DnsClient}

/-- The counter goes up by one below a limit of at most 3. -/
lemma sentQueries_succ {n : Nat} (hn : n < 3) {q : BitVec 3} (h : q.toInt = n) :
    (q + 1).toInt = (n + 1 : Nat) ∧ (q.toInt == 3) = false := by
  have hq := rotation_succ le_rfl (r := q) (by omega)
  exact ⟨by rw [hq.1, h]; rfl, hq.2⟩

lemma countedOne_transOutcome {res : PubnubRes} {ending : DnsEnding}
    (hq : c.queries ≤ b.maxDnsQueries) (hrange : c.overflowed = false)
    (hres : ending = .other ∨ res = .addrResolutionFailed) :
    CountedOne b (c.transOutcome res ending) where
  sent := fun h => absurd rfl h
  idle := fun _ => rfl
  bounded := hq
  stops := by simp [DnsClient.transOutcome]
  inRange := hrange
  ended := fun h => absurd rfl h
  result := by
    rintro (h | h) <;> rcases hres with rfl | rfl <;> simp_all [DnsClient.transOutcome]

/-- A query is sent. -/
lemma CountedOne.sentOne (h : CountedOne b c) (hb : b.maxDnsQueries ≤ 3)
    (hphase : c.phase = .ready ∨ c.phase = .waitDnsSend) :
    CountedOne b { c.sentOne with phase := .waitDnsRcv } := by
  have hstops := h.stops hphase
  have hnot : c.phase ≠ .over := by rcases hphase with hp | hp <;> simp [hp]
  obtain ⟨hsucc, hthree⟩ := sentQueries_succ (by omega) (h.sent hnot)
  refine ⟨fun _ => hsucc, by simp, hstops, by simp, ?_, fun _ => h.ended hnot, ?_⟩
  · simp [DnsClient.sentOne, h.inRange, hthree]
  · simp [DnsClient.sentOne, h.ended hnot]

/-- One step keeps the count. -/
lemma CountedOne.step {a : DnsStep} {c' : DnsClient} (h : CountedOne b c) (hb : b.Counts family)
    (hchange : b.changeDnsServers = false) (hguard : CountsRight b family c a)
    (hstep : dnsStep b c a = some c') : CountedOne b c' := by
  have hthree := hb.queries hchange
  have herror : dnsServerError b c = c.transOutcome .addrResolutionFailed .serverError := by
    simp [dnsServerError, hchange]
  have hnew : c.phase = .over → ∀ c' : DnsClient, c'.phase = .ready → c'.queries = 0 →
      c'.ended = none → c'.sentQueries = c.sentQueries → c'.overflowed = c.overflowed →
      CountedOne b c' := by
    intro hphase c' hp hq hended hsent hrange
    refine ⟨fun _ => ?_, by simp [hp], by simp [hq], fun _ => hq ▸ hb.queries_pos,
      hrange.trans h.inRange, fun _ => hended, by simp [hended]⟩
    rw [hsent, h.idle hphase, hq]
    rfl
  cases a with
  | start =>
      simp only [dnsStep, Option.ite_none_right_eq_some, Option.some.injEq] at hstep
      obtain ⟨hphase, rfl⟩ := hstep
      exact hnew hphase _ rfl rfl rfl rfl rfl
  | startKeptAlive =>
      simp only [dnsStep, Option.ite_none_right_eq_some, Option.some.injEq] at hstep
      obtain ⟨hphase, rfl⟩ := hstep
      exact hnew hphase _ rfl rfl rfl rfl rfl
  | resolve family' sys o gotSocket =>
      simp only [dnsStep, Option.ite_none_right_eq_some, Option.some.injEq] at hstep
      obtain ⟨⟨hphase, -⟩, rfl⟩ := hstep
      have hstops := h.stops (.inl hphase)
      have hpick : CountedOne b (pickServer b c family' sys) :=
        ⟨h.sent, h.idle, h.bounded, h.stops, h.inRange, h.ended, h.result⟩
      have hsent := hpick.sentOne hthree (.inl hphase)
      cases o with
      | noSocket => exact countedOne_transOutcome h.bounded h.inRange (.inr rfl)
      | failed =>
          have herror' : dnsServerError b (pickServer b c family' sys) =
              (pickServer b c family' sys).transOutcome .addrResolutionFailed .serverError := by
            simp [dnsServerError, hchange]
          simp only [readyState, herror']
          exact countedOne_transOutcome h.bounded h.inRange (.inr rfl)
      | wouldblock =>
          simp only [readyState]
          split_ifs
          · exact ⟨fun _ => h.sent (by simp [hphase]), by simp, h.bounded, fun _ => hstops,
              h.inRange, fun _ => h.ended (by simp [hphase]), h.result⟩
          · exact countedOne_transOutcome h.bounded h.inRange (.inl rfl)
      | sent =>
          simp only [readyState]
          split_ifs
          · exact hsent
          · exact countedOne_transOutcome hsent.bounded hsent.inRange (.inl rfl)
  | resend o =>
      simp only [dnsStep, Option.ite_none_right_eq_some] at hstep
      obtain ⟨hphase, hstep⟩ := hstep
      cases o with
      | noSocket => simp [waitDnsSendState] at hstep
      | failed =>
          obtain rfl := Option.some.inj hstep
          rw [herror]
          exact countedOne_transOutcome h.bounded h.inRange (.inr rfl)
      | wouldblock => exact Option.some.inj hstep ▸ h
      | sent => exact Option.some.inj hstep ▸ h.sentOne hthree (.inr hphase)
  | receive o =>
      simp only [dnsStep, Option.ite_none_right_eq_some, Option.some.injEq] at hstep
      obtain ⟨hphase, rfl⟩ := hstep
      cases o with
      | failed =>
          simp only [waitDnsRcvState, herror]
          exact countedOne_transOutcome h.bounded h.inRange (.inr rfl)
      | wouldblock => exact h
      | answered =>
          exact ⟨fun _ => h.sent (by simp [hphase]), by simp [waitDnsRcvState], h.bounded,
            by simp [waitDnsRcvState], h.inRange, fun _ => h.ended (by simp [hphase]), h.result⟩
  | timeout =>
      simp only [dnsStep, Option.ite_none_right_eq_some, Option.some.injEq] at hstep
      obtain ⟨hphase, rfl⟩ := hstep
      have hnot : c.phase ≠ .over := by rcases hphase with hp | hp <;> simp [hp]
      have hsent := h.sent hnot
      simp only [stopOnTimeout, hchange, Bool.false_eq_true, if_false]
      split_ifs with hlt
      · have hq : c.queries < b.maxDnsQueries := by omega
        exact ⟨fun _ => hsent, by simp [DnsClient.retry], h.bounded, fun _ => hq, h.inRange,
          fun _ => h.ended hnot, by simp [DnsClient.retry, h.ended hnot]⟩
      · exact countedOne_transOutcome h.bounded h.inRange (.inr rfl)
  | cancel =>
      simp only [dnsStep, Option.ite_none_left_eq_some, Option.some.injEq] at hstep
      obtain ⟨-, rfl⟩ := hstep
      exact countedOne_transOutcome h.bounded h.inRange (.inl rfl)
  | resolveAgain => exact hguard.elim
  | finish res =>
      simp only [dnsStep, Option.ite_none_right_eq_some, Option.some.injEq] at hstep
      obtain ⟨-, rfl⟩ := hstep
      exact countedOne_transOutcome h.bounded h.inRange (.inl rfl)

end OneServer

/-! ## Runs -/

/-- **The queries of a transaction are bounded.**  With limits that fit into the fields and
    servers among which the mask comes to its last value, every transaction that starts with
    enough rotations left, whatever times out or fails, sends no more queries than the bound, is
    never about to send one when the bound is reached, keeps both counters within their fields,
    and reports `PNR_ADDR_RESOLUTION_FAILED` when a timeout or an error ends it. -/
theorem dns_queries_bounded {r : BitVec 3} {c : DnsClient} (hb : b.Counts family)
    (hr : (dnsClient b r).Reachable (CountsRight b family) c) : c.QueriesBounded b family := by
  by_cases hchange : b.changeDnsServers = true
  · have hinv : Counted b family c := by
      refine hr.invariant ⟨?_, ?_, ?_, rfl, ?_, ?_⟩ fun c a c' hc hguard hstep =>
        hc.step hb hchange hguard hstep
      all_goals simp [dnsClient, DnsClient.reserve]
    refine ⟨Nat.le_of_add_right_le hinv.bounded, ?_, hinv.inRange, hinv.result⟩
    intro hphase
    have hpos := ahead_pos b family c
    have hbounded := hinv.bounded
    rcases hphase with hp | hp <;> simp only [DnsClient.reserve, hp] at hbounded <;> omega
  · have hchange' : b.changeDnsServers = false := by simpa using hchange
    have hbound : b.queryBound family = b.maxDnsQueries := if_neg hchange
    have hinv : CountedOne b c := by
      refine hr.invariant ⟨?_, ?_, ?_, ?_, rfl, ?_, ?_⟩ fun c a c' hc hguard hstep =>
        hc.step hb hchange' hguard hstep
      all_goals simp [dnsClient]
    exact ⟨hbound ▸ hinv.bounded, hbound ▸ hinv.stops, hinv.inRange, hinv.result⟩

lemma three_lt_bits : 3 < 1 <<< 3 := by decide

lemma five_lt_bits : 5 < 1 <<< 3 := by decide

/-- The default build without IPv6, with nothing configured. -/
def ipv4Build : DnsBuild where
  useIpv6 := false
  changeDnsServers := true
  maxDnsQueries := 3
  maxDnsRotation := 3
  maxDnsQueries_lt := three_lt_bits
  maxDnsRotation_lt := three_lt_bits
  servers := {}

lemma ipv4Build_counts : ipv4Build.Counts .inet where
  queries_pos := by decide
  queries := by decide
  rotation_pos := by decide
  rotation := by decide
  lastMask := by decide
  noIpv6 := by decide +kernel

/-- A query to the next server, and the timeout after it. -/
def queryTimeout (family : AddressFamily) : List DnsStep :=
  [.resolve family noSystemServers .sent true, .timeout]

/-- `CountsRight` as a test for the default builds. -/
def countsRight (b : DnsBuild) (family : AddressFamily) : DnsClient → DnsStep → Bool
  | c, .start | c, .startKeptAlive =>
      decide (b.maxDnsRotation - c.rotationsCount.toInt ≤
        (b.maxDnsQueries : Int) * b.maxDnsRotation)
  | _, .resolve family' _ _ _ => family' == family
  | _, .resolveAgain => false
  | _, _ => true

lemma countsRight_iff {c : DnsClient} {a : DnsStep} (h : countsRight b family c a = true) :
    CountsRight b family c a := by
  cases a <;> simp_all [countsRight, CountsRight]

theorem dns_queries_bounded_timeouts :
    ∃ c, (dnsClient ipv4Build 0).Reachable (CountsRight ipv4Build .inet) c ∧
      c.queries = 3 ∧ c.ended = some .timeout ∧ c.QueriesBounded ipv4Build .inet := by
  obtain ⟨c, hr, hc⟩ := (dnsClient ipv4Build 0).exists_reachable_of_replay
    (countsRight ipv4Build .inet)
    (.start :: (List.replicate 3 (queryTimeout .inet)).flatten)
    (fun c => c.queries == 3 && c.ended == some .timeout)
    (fun _ _ => countsRight_iff) (by decide +kernel)
  simp only [Bool.and_eq_true, beq_iff_eq] at hc
  exact ⟨c, hr, hc.1, hc.2, dns_queries_bounded ipv4Build_counts hr⟩

/-- The default build with IPv6, with nothing configured. -/
def ipv6Build : DnsBuild where
  useIpv6 := true
  changeDnsServers := true
  maxDnsQueries := 3
  maxDnsRotation := 5
  maxDnsQueries_lt := three_lt_bits
  maxDnsRotation_lt := five_lt_bits
  servers := {}

/-- Sixteen queries without an answer, one more than the bound: the counter of rotations has
    gone from 3 to -4, and the seventeenth query is about to be sent. -/
theorem dns_queries_not_always_bounded :
    ¬ ∀ (b : DnsBuild) (family : AddressFamily) (c : DnsClient),
      (dnsClient b 0).Reachable (PrefersFamily family) c → c.QueriesBounded b family := by
  intro h
  obtain ⟨c, hr, hc⟩ := (dnsClient ipv6Build 0).exists_reachable_of_replay
    (prefersFamily .inet6) (.start :: (List.replicate 16 (queryTimeout .inet6)).flatten)
    (fun c => c.queries == 16) (fun _ _ => prefersFamily_iff) (by decide +kernel)
  have hbounded := (h ipv6Build .inet6 c hr).bounded
  have hbound : ipv6Build.queryBound .inet6 = 15 := by decide +kernel
  simp only [beq_iff_eq] at hc
  omega

end PubNub
