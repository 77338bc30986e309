import PubNubCore.Lib.Machine
import PubNubCore.Dns.Codec

/-!
# Reading the answers to the DNS queries

`read_dns_response` of `lib/sockets/pbpal_adns_sockets.c` and the choice of an address in
`pbpal_check_resolv_and_connect`.  Two queries may be pending on one socket, and whatever
arrives there is looked at: a datagram whose id is that of *either* query is decoded, and what
is done with it depends on the type of its question and on whether decoding it succeeds.

The machine `resolution` has a step for every call of the function, for every datagram it
takes and for the connection that follows it.  Beside the fields of the context it keeps which
queries have been answered (`Resolution.Matches`: the id and the question type of one of them,
while it is still unanswered), the addresses that stood in those answers, and whether any other
datagram has ever changed the count of answers or a stored address.

* **`answers_match_queries`** — all goes well in every run in which each datagram that carries
  one of the two ids is such an answer or a harmless duplicate, and in which some address is
  set when the connection is attempted (`OnlyAnswers`).
* `answers_not_always_matched` — two datagrams of twelve bytes with the right id and nothing
  else make the function return 0 and the client connect to `0.0.0.0`.
-/

namespace PubNub

/-! ## The fields of the context -/

/-- `struct dns_queries_tracking`; an address that is all zero is not set. -/
structure DnsQueriesTracking where
  sentA : Bool
  sentAaaa : Bool
  receivedA : Bool
  receivedAaaa : Bool
  idA : Nat
  idAaaa : Nat
  dnsAAddr : Ipv4Address
  dnsAaaaAddr : Ipv6Address
  deriving DecidableEq

/-- The number of queries sent. -/
def DnsQueriesTracking.expected (t : DnsQueriesTracking) : Nat :=
  t.sentA.toNat + t.sentAaaa.toNat

/-- The number of answers the flags remember. -/
def DnsQueriesTracking.received (t : DnsQueriesTracking) : Nat :=
  t.receivedA.toNat + t.receivedAaaa.toNat

/-- The id a datagram carries. -/
def Datagram.id (d : Datagram) : Nat := d.read16 0

/-- The datagram is skipped without being decoded. -/
def DnsQueriesTracking.skips (t : DnsQueriesTracking) (b : AddressBuild) (d : Datagram) : Bool :=
  decide (d.msgSize < dnsHeaderSize) ||
    (d.id != t.idA && (!b.useIpv6 || d.id != t.idAaaa))

/-- What one datagram works on: the tracking, the spare addresses and `responses_received`. -/
structure Reading where
  tracking : DnsQueriesTracking
  spare : MultiAddresses
  responsesReceived : Nat
  deriving DecidableEq

/-- The A query is answered; an address with a zero in front is none. -/
def DnsQueriesTracking.answerA (t : DnsQueriesTracking) (a : Ipv4Address) : DnsQueriesTracking :=
  { t with receivedA := true, dnsAAddr := if getElem a 0 zero_lt_four ≠ 0 then a else t.dnsAAddr }

/-- The AAAA query is answered. -/
def DnsQueriesTracking.answerAaaa (t : DnsQueriesTracking) (a : Ipv6Address) :
    DnsQueriesTracking :=
  { t with
    receivedAaaa := true
    dnsAaaaAddr :=
      if getElem a 0 zero_lt_sixteen ≠ 0 ∨ getElem a 1 one_lt_sixteen ≠ 0 then a
      else t.dnsAaaaAddr }

/-- A datagram that was decoded without an error. -/
def Reading.accept (b : AddressBuild) (r : Reading) (type : Nat) (f : FoundAddresses) : Reading :=
  if type = dnsA ∧ r.tracking.receivedA = false then
    ⟨r.tracking.answerA f.ipv4, f.spare, r.responsesReceived + 1⟩
  else if b.useIpv6 = true ∧ type = dnsAaaa ∧ r.tracking.receivedAaaa = false then
    ⟨r.tracking.answerAaaa f.ipv6, f.spare, r.responsesReceived + 1⟩
  else ⟨r.tracking, f.spare, r.responsesReceived⟩

/-- A datagram that could not be decoded: it is counted whatever it is. -/
def Reading.refuse (b : AddressBuild) (r : Reading) (type : Nat) (f : FoundAddresses) : Reading :=
  { tracking :=
      if type = dnsA then { r.tracking with receivedA := true }
      else if b.useIpv6 = true ∧ type = dnsAaaa then { r.tracking with receivedAaaa := true }
      else r.tracking
    spare := f.spare
    responsesReceived := r.responsesReceived + 1 }

/-- The spare addresses once the first response has set `time_of_the_last_dns_query`. -/
def Reading.stamped (b : AddressBuild) (r : Reading) (now : Int) : MultiAddresses :=
  if b.useMultipleAddresses = true ∧ r.responsesReceived = 0 then
    { r.spare with timeOfTheLastDnsQuery := now }
  else r.spare

/-- One turn of the loop of `read_dns_response`.  `garbage` is what `question_type` holds when
    the decoder does not write it, `now` the time. -/
def Reading.datagram (b : AddressBuild) (r : Reading) (d : Datagram) (garbage : Nat)
    (now : Int) : Reading :=
  if r.tracking.skips b d then r
  else
    let p := pbdnsPickResolvedAddresses b d (r.stamped b now)
    if p.ok then r.accept b (p.questionType.getD garbage) p.found
    else r.refuse b (p.questionType.getD garbage) p.found

/-! ## Answers -/

/-- The type of the question which a datagram repeats, whatever its header says. -/
def Datagram.asks (d : Datagram) : Option Nat :=
  if d.msgSize < dnsHeaderSize then none else questionType d (d.read16 4)

/-- The destination of a connection. -/
inductive Destination
  | ipv4 (a : Ipv4Address)
  | ipv6 (a : Ipv6Address)
  deriving DecidableEq

/-- The destination is `0.0.0.0` or `::`. -/
def Destination.isUnset : Destination → Bool
  | .ipv4 a => a == Vector.replicate 4 0
  | .ipv6 a => a == Vector.replicate 16 0

/-- A resolution that is pending, and what the results say about it. -/
structure Resolution where
  now : Reading
  reading : Bool
  returned : Option Int
  attempted : Option Destination
  answeredA : Bool
  answeredAaaa : Bool
  taken : List Destination
  disturbed : Bool
  deriving DecidableEq

namespace Resolution

/-- The datagram answers the A query, which has no answer yet. -/
def MatchesA (r : Resolution) (d : Datagram) : Prop :=
  r.now.tracking.sentA = true ∧ r.answeredA = false ∧ d.asks = some dnsA ∧
    d.id = r.now.tracking.idA

/-- The datagram answers the AAAA query, which has no answer yet. -/
def MatchesAaaa (r : Resolution) (d : Datagram) : Prop :=
  r.now.tracking.sentAaaa = true ∧ r.answeredAaaa = false ∧ d.asks = some dnsAaaa ∧
    d.id = r.now.tracking.idAaaa

/-- The datagram answers a query that has no answer yet. -/
def Matches (r : Resolution) (d : Datagram) : Prop := r.MatchesA d ∨ r.MatchesAaaa d

instance (r : Resolution) (d : Datagram) : Decidable (r.MatchesA d) :=
  inferInstanceAs (Decidable (_ ∧ _))

instance (r : Resolution) (d : Datagram) : Decidable (r.MatchesAaaa d) :=
  inferInstanceAs (Decidable (_ ∧ _))

instance (r : Resolution) (d : Datagram) : Decidable (r.Matches d) :=
  inferInstanceAs (Decidable (_ ∨ _))

end Resolution

/-- The count of answers and the stored addresses. -/
def Reading.SameAnswers (r r' : Reading) : Prop :=
  r'.tracking = r.tracking ∧ r'.responsesReceived = r.responsesReceived ∧
    r'.spare.ipv4Addresses = r.spare.ipv4Addresses ∧
    r'.spare.ipv6Addresses = r.spare.ipv6Addresses

instance (r r' : Reading) : Decidable (r.SameAnswers r') := inferInstanceAs (Decidable (_ ∧ _))

/-- All addresses which the decoder takes out of a datagram. -/
def addressesIn (b : AddressBuild) (d : Datagram) (spare : MultiAddresses) : List Destination :=
  let f := (pbdnsPickResolvedAddresses b d spare).found
  [.ipv4 f.ipv4, .ipv6 f.ipv6] ++
    (f.spare.ipv4Addresses.drop spare.nIpv4).map (fun a => .ipv4 a.1) ++
    (f.spare.ipv6Addresses.drop spare.nIpv6).map (fun a => .ipv6 a.1)

/-! ## The machine -/

/-- What can happen while the context is in `PBS_WAIT_DNS_RCV`. -/
inductive ResolutionStep
  | call
  | datagram (d : Datagram) (garbage : Nat) (now : Int)
  | noMore (wouldblock : Bool)
  | connect (ipv6Supported : Bool)

/-- The loop ends when all responses are there. -/
def Resolution.checkDone (r : Resolution) : Resolution :=
  if r.now.tracking.expected ≤ r.now.responsesReceived then
    { r with reading := false, returned := some 0 }
  else r

/-- The address that `pbpal_check_resolv_and_connect` connects to. -/
def DnsQueriesTracking.destination (t : DnsQueriesTracking) (b : AddressBuild)
    (ipv6Supported : Bool) : Destination :=
  if b.useIpv6 = true ∧ ipv6Supported = true ∧ t.dnsAaaaAddr ≠ Vector.replicate 16 0 then
    .ipv6 t.dnsAaaaAddr
  else .ipv4 t.dnsAAddr

/-- One step.  A call counts the answers anew, from the flags; an error of the socket ends the
    resolution. -/
def resolutionStep (b : AddressBuild) (r : Resolution) : ResolutionStep → Option Resolution
  | .call =>
      if r.reading = true ∨ r.returned = some 0 ∨ r.returned = some (-1) then none
      else if r.now.tracking.expected = 0 then some { r with returned := some (-1) }
      else some (Resolution.checkDone { r with
        reading := true
        now := { r.now with responsesReceived := r.now.tracking.received } })
  | .datagram d garbage now =>
      if r.reading = true then
        let next := r.now.datagram b d garbage now
        some (Resolution.checkDone { r with
          now := next
          answeredA := r.answeredA || decide (r.MatchesA d)
          answeredAaaa := r.answeredAaaa || decide (r.MatchesAaaa d)
          taken := r.taken ++ if r.Matches d then addressesIn b d (r.now.stamped b now) else []
          disturbed := r.disturbed || !decide (r.Matches d ∨ r.now.SameAnswers next) })
      else none
  | .noMore wouldblock =>
      if r.reading = true then
        some { r with reading := false, returned := some (if wouldblock then 1 else -1) }
      else none
  | .connect ipv6Supported =>
      if r.returned = some 0 ∧ r.attempted = none then
        some { r with attempted := some (r.now.tracking.destination b ipv6Supported) }
      else none

/-- What was sent: which queries, and their ids. -/
structure SentQueries where
  sentA : Bool
  sentAaaa : Bool
  idA : Nat
  idAaaa : Nat

/-- A resolution after its queries were sent.  The spare addresses have been reset. -/
def resolution (b : AddressBuild) (q : SentQueries) : Machine Resolution ResolutionStep where
  init :=
    { now :=
        { tracking := ⟨q.sentA, b.useIpv6 && q.sentAaaa, false, false, q.idA, q.idAaaa,
            Vector.replicate 4 0, Vector.replicate 16 0⟩
          spare := ⟨0, [], 0, [], 0⟩
          responsesReceived := 0 }
      reading := false
      returned := none
      attempted := none
      answeredA := false
      answeredAaaa := false
      taken := []
      disturbed := false }
  step := resolutionStep b

/-! ## The condition and the promise -/

/-- A datagram that carries one of the ids but answers no query changes nothing: it is decoded
    without an error, its type is one that has been received, and there is no address in it that
    would still be stored. -/
def Resolution.Harmless (b : AddressBuild) (r : Resolution) (d : Datagram) (garbage : Nat)
    (now : Int) : Prop :=
  let p := pbdnsPickResolvedAddresses b d (r.now.stamped b now)
  let type := p.questionType.getD garbage
  p.ok = true ∧ (type = dnsA → r.now.tracking.receivedA = true) ∧
    (b.useIpv6 = true → type = dnsAaaa → r.now.tracking.receivedAaaa = true) ∧
    p.found.spare.ipv4Addresses = r.now.spare.ipv4Addresses ∧
    p.found.spare.ipv6Addresses = r.now.spare.ipv6Addresses

/-- The condition on a step: a datagram with one of the ids is an answer or harmless, and there
    is an address to connect to. -/
def OnlyAnswers (b : AddressBuild) : Resolution → ResolutionStep → Prop
  | r, .datagram d garbage now =>
      r.Matches d ∨ r.now.tracking.skips b d = true ∨ r.Harmless b d garbage now
  | r, .connect ipv6Supported =>
      r.now.tracking.dnsAAddr ≠ Vector.replicate 4 0 ∨
        (b.useIpv6 = true ∧ ipv6Supported = true ∧
          r.now.tracking.dnsAaaaAddr ≠ Vector.replicate 16 0)
  | _, _ => True

/-- What is promised of a resolution. -/
structure Resolution.Sound (r : Resolution) : Prop where
  answered : r.returned = some 0 →
    (r.now.tracking.sentA = true → r.answeredA = true) ∧
      (r.now.tracking.sentAaaa = true → r.answeredAaaa = true)
  attempted : ∀ dst, r.attempted = some dst → dst ∈ r.taken ∧ dst.isUnset = false
  stored : (∀ a ∈ r.now.spare.ipv4Addresses, .ipv4 a.1 ∈ r.taken) ∧
    ∀ a ∈ r.now.spare.ipv6Addresses, .ipv6 a.1 ∈ r.taken
  undisturbed : r.disturbed = false

/-! ## What the decoder stores -/

section Decoder

variable {b : AddressBuild} {d : Datagram}

/-- Spare addresses are only appended. -/
def MultiAddresses.Extends (s s' : MultiAddresses) : Prop :=
  s.ipv4Addresses <+: s'.ipv4Addresses ∧ s.ipv6Addresses <+: s'.ipv6Addresses

lemma MultiAddresses.Extends.refl (s : MultiAddresses) : s.Extends s :=
  ⟨List.prefix_rfl, List.prefix_rfl⟩

lemma MultiAddresses.Extends.trans {s s' s'' : MultiAddresses} (h : s.Extends s')
    (h' : s'.Extends s'') : s.Extends s'' :=
  ⟨h.1.trans h'.1, h.2.trans h'.2⟩

lemma storeIpv4_extends (s : MultiAddresses) (b : AddressBuild) (a : Ipv4Address) (ttl : Nat) :
    s.Extends (s.storeIpv4 b a ttl) := by
  unfold MultiAddresses.storeIpv4
  split_ifs
  · exact ⟨List.prefix_append _ _, List.prefix_rfl⟩
  · exact .refl _

lemma storeIpv6_extends (s : MultiAddresses) (b : AddressBuild) (a : Ipv6Address) (ttl : Nat) :
    s.Extends (s.storeIpv6 b a ttl) := by
  unfold MultiAddresses.storeIpv6
  split_ifs
  · exact ⟨List.prefix_rfl, List.prefix_append _ _⟩
  · exact .refl _

lemma checkAnswer_extends (b : AddressBuild) (d : Datagram) (reader rDataType rDataLen : Nat)
    (f : FoundAddresses) :
    f.spare.Extends (checkAnswer b d reader rDataType rDataLen f).2.spare := by
  unfold checkAnswer
  split_ifs
  · exact .refl _
  · exact storeIpv4_extends ..
  · exact .refl _
  · exact storeIpv6_extends ..
  · exact .refl _

lemma findTheAnswer_extends (b : AddressBuild) (d : Datagram) (count reader : Nat)
    (f : FoundAddresses) : f.spare.Extends (findTheAnswer b d count reader f).2.spare := by
  induction count generalizing reader f with
  | zero => exact .refl _
  | succ count ih =>
      simp only [findTheAnswer]
      split_ifs
      · exact .refl _
      · exact .refl _
      · exact .refl _
      · exact checkAnswer_extends ..
      · exact (checkAnswer_extends ..).trans (ih _ _)

lemma pick_extends (b : AddressBuild) (d : Datagram) (spare : MultiAddresses) :
    spare.Extends (pbdnsPickResolvedAddresses b d spare).found.spare := by
  unfold pbdnsPickResolvedAddresses
  cases readHeader d with
  | none => exact .refl _
  | some counts =>
      simp only
      split_ifs
      · exact .refl _
      · cases skipQuestions d counts.1 dnsHeaderSize with
        | none => exact .refl _
        | some reader =>
            simp only
            split_ifs
            · exact .refl _
            · exact findTheAnswer_extends b d counts.2 reader
                ⟨false, Vector.replicate 4 0, Vector.replicate 16 0, spare⟩

end Decoder

/-! ## One datagram -/

section Datagrams

variable {b : AddressBuild} {r : Reading} {d : Datagram} {garbage : Nat} {now : Int}

/-- The answers of a context do not grow by more than one, and the queries stay what they are. -/
structure Reading.AtMostOne (r r' : Reading) : Prop where
  received : r'.tracking.received ≤ r.tracking.received + 1
  responses : r'.responsesReceived ≤ r.responsesReceived + 1
  sentA : r'.tracking.sentA = r.tracking.sentA
  sentAaaa : r'.tracking.sentAaaa = r.tracking.sentAaaa

lemma Reading.accept_atMostOne (b : AddressBuild) (r : Reading) (type : Nat)
    (f : FoundAddresses) : r.AtMostOne (r.accept b type f) := by
  unfold Reading.accept
  split_ifs with hA hAaaa
  · refine ⟨?_, le_rfl, rfl, rfl⟩
    simp only [DnsQueriesTracking.received, DnsQueriesTracking.answerA, hA.2]
    simp only [Bool.toNat_true, Bool.toNat_false]
    omega
  · refine ⟨?_, le_rfl, rfl, rfl⟩
    simp only [DnsQueriesTracking.received, DnsQueriesTracking.answerAaaa, hAaaa.2.2]
    simp only [Bool.toNat_true, Bool.toNat_false]
    omega
  · exact ⟨Nat.le_succ _, Nat.le_succ _, rfl, rfl⟩

lemma Reading.refuse_atMostOne (b : AddressBuild) (r : Reading) (type : Nat)
    (f : FoundAddresses) : r.AtMostOne (r.refuse b type f) := by
  have htracking : (r.refuse b type f).tracking.received ≤ r.tracking.received + 1 ∧
      (r.refuse b type f).tracking.sentA = r.tracking.sentA ∧
      (r.refuse b type f).tracking.sentAaaa = r.tracking.sentAaaa := by
    unfold Reading.refuse
    dsimp only
    split_ifs <;> simp only [DnsQueriesTracking.received, and_self, and_true,
      Bool.toNat_true] <;> omega
  exact ⟨htracking.1, le_rfl, htracking.2.1, htracking.2.2⟩

lemma Reading.datagram_atMostOne (b : AddressBuild) (r : Reading) (d : Datagram) (garbage : Nat)
    (now : Int) : r.AtMostOne (r.datagram b d garbage now) := by
  unfold Reading.datagram
  dsimp only
  split_ifs
  · exact ⟨Nat.le_succ _, Nat.le_succ _, rfl, rfl⟩
  · exact accept_atMostOne ..
  · exact refuse_atMostOne ..

lemma Reading.accept_spare (b : AddressBuild) (r : Reading) (type : Nat) (f : FoundAddresses) :
    (r.accept b type f).spare = f.spare := by
  unfold Reading.accept
  split_ifs <;> rfl

/-- What is stored in one list is what was there or what was appended. -/
lemma mem_or_mem_drop {α : Type} {l l' : List α} (h : l <+: l') {a : α} (ha : a ∈ l') :
    a ∈ l ∨ a ∈ l'.drop l.length := by
  obtain ⟨rest, rfl⟩ := h
  simpa using ha

/-- The addresses stored afterwards are those from before and the ones in the datagram. -/
lemma Reading.datagram_spare (b : AddressBuild) (r : Reading) (d : Datagram) (garbage : Nat)
    (now : Int) :
    (∀ a ∈ (r.datagram b d garbage now).spare.ipv4Addresses,
      a ∈ r.spare.ipv4Addresses ∨ .ipv4 a.1 ∈ addressesIn b d (r.stamped b now)) ∧
    (∀ a ∈ (r.datagram b d garbage now).spare.ipv6Addresses,
      a ∈ r.spare.ipv6Addresses ∨ .ipv6 a.1 ∈ addressesIn b d (r.stamped b now)) := by
  have hstamped : (r.stamped b now).ipv4Addresses = r.spare.ipv4Addresses ∧
      (r.stamped b now).ipv6Addresses = r.spare.ipv6Addresses := by
    unfold Reading.stamped
    split_ifs <;> exact ⟨rfl, rfl⟩
  have hext := pick_extends b d (r.stamped b now)
  have hspare : (r.datagram b d garbage now).spare = r.spare ∨
      (r.datagram b d garbage now).spare =
        (pbdnsPickResolvedAddresses b d (r.stamped b now)).found.spare := by
    unfold Reading.datagram
    dsimp only
    split_ifs
    · exact .inl rfl
    · exact .inr (accept_spare ..)
    · exact .inr rfl
  rcases hspare with heq | heq <;> rw [heq]
  · exact ⟨fun a ha => .inl ha, fun a ha => .inl ha⟩
  · refine ⟨fun a ha => ?_, fun a ha => ?_⟩
    · rcases mem_or_mem_drop hext.1 ha with hold | hnew
      · exact .inl (hstamped.1 ▸ hold)
      · refine .inr (List.mem_append_left _ (List.mem_append_right _ ?_))
        exact List.mem_map_of_mem hnew
    · rcases mem_or_mem_drop hext.2 ha with hold | hnew
      · exact .inl (hstamped.2 ▸ hold)
      · exact .inr (List.mem_append_right _ (List.mem_map_of_mem hnew))

/-- The address of the host is the one from before or the first one in the datagram. -/
lemma Reading.datagram_address (b : AddressBuild) (r : Reading) (d : Datagram) (garbage : Nat)
    (now : Int) :
    ((r.datagram b d garbage now).tracking.dnsAAddr = r.tracking.dnsAAddr ∨
      .ipv4 (r.datagram b d garbage now).tracking.dnsAAddr ∈
        addressesIn b d (r.stamped b now)) ∧
    ((r.datagram b d garbage now).tracking.dnsAaaaAddr = r.tracking.dnsAaaaAddr ∨
      .ipv6 (r.datagram b d garbage now).tracking.dnsAaaaAddr ∈
        addressesIn b d (r.stamped b now)) := by
  have hfound : Destination.ipv4 (pbdnsPickResolvedAddresses b d (r.stamped b now)).found.ipv4 ∈
        addressesIn b d (r.stamped b now) ∧
      .ipv6 (pbdnsPickResolvedAddresses b d (r.stamped b now)).found.ipv6 ∈
        addressesIn b d (r.stamped b now) := by
    simp [addressesIn]
  unfold Reading.datagram
  dsimp only
  split_ifs
  · exact ⟨.inl rfl, .inl rfl⟩
  · unfold Reading.accept
    split_ifs
    · refine ⟨?_, .inl rfl⟩
      dsimp only [DnsQueriesTracking.answerA]
      split_ifs
      · exact .inr hfound.1
      · exact .inl rfl
    · refine ⟨.inl rfl, ?_⟩
      dsimp only [DnsQueriesTracking.answerAaaa]
      split_ifs
      · exact .inr hfound.2
      · exact .inl rfl
    · exact ⟨.inl rfl, .inl rfl⟩
  · unfold Reading.refuse
    dsimp only
    split_ifs <;> exact ⟨.inl rfl, .inl rfl⟩

/-- A datagram that is skipped or harmless leaves the answers alone. -/
lemma Resolution.sameAnswers_of_harmless {r : Resolution}
    (h : r.now.tracking.skips b d = true ∨ r.Harmless b d garbage now) :
    r.now.SameAnswers (r.now.datagram b d garbage now) := by
  by_cases hskip : r.now.tracking.skips b d = true
  · simp only [Reading.datagram, hskip, if_true]
    exact ⟨rfl, rfl, rfl, rfl⟩
  · obtain ⟨hok, hA, hAaaa, hspare⟩ := h.resolve_left hskip
    simp only [Reading.datagram, hskip, hok, if_true, Bool.false_eq_true, if_false]
    have hnotA : ¬ ((pbdnsPickResolvedAddresses b d (r.now.stamped b now)).questionType.getD
        garbage = dnsA ∧ r.now.tracking.receivedA = false) := by
      rintro ⟨htype, hreceived⟩
      simp [hA htype] at hreceived
    have hnotAaaa : ¬ (b.useIpv6 = true ∧
        (pbdnsPickResolvedAddresses b d (r.now.stamped b now)).questionType.getD garbage =
          dnsAaaa ∧ r.now.tracking.receivedAaaa = false) := by
      rintro ⟨hipv6, htype, hreceived⟩
      simp [hAaaa hipv6 htype] at hreceived
    rw [Reading.accept, if_neg hnotA, if_neg hnotAaaa]
    exact ⟨rfl, rfl, hspare.1, hspare.2⟩

end Datagrams

/-! ## The invariant -/

/-- The number of queries that have been answered. -/
def Resolution.answers (r : Resolution) : Nat := r.answeredA.toNat + r.answeredAaaa.toNat

/-- The invariant: what is counted are answers, and what is stored came with them. -/
structure Resolution.Kept (r : Resolution) : Prop where
  received : r.now.tracking.received ≤ r.answers
  responses : r.now.responsesReceived ≤ r.answers
  sent : (r.answeredA = true → r.now.tracking.sentA = true) ∧
    (r.answeredAaaa = true → r.now.tracking.sentAaaa = true)
  done : r.returned = some 0 → r.now.tracking.expected ≤ r.answers
  address : (r.now.tracking.dnsAAddr = Vector.replicate 4 0 ∨
      .ipv4 r.now.tracking.dnsAAddr ∈ r.taken) ∧
    (r.now.tracking.dnsAaaaAddr = Vector.replicate 16 0 ∨
      .ipv6 r.now.tracking.dnsAaaaAddr ∈ r.taken)
  attempted : ∀ dst, r.attempted = some dst → dst ∈ r.taken ∧ dst.isUnset = false
  stored : (∀ a ∈ r.now.spare.ipv4Addresses, .ipv4 a.1 ∈ r.taken) ∧
    ∀ a ∈ r.now.spare.ipv6Addresses, .ipv6 a.1 ∈ r.taken
  undisturbed : r.disturbed = false

namespace Resolution

variable {b : AddressBuild} {r : Resolution}

/-- Looking whether all responses are there. -/
lemma Kept.checkDone (h : r.Kept) : r.checkDone.Kept := by
  unfold Resolution.checkDone
  split_ifs with hdone
  · exact { h with done := fun _ => hdone.trans h.responses }
  · exact h

/-- An answer counts one query, and only one: its question has one type. -/
lemma answers_succ {d : Datagram} (h : r.Matches d) :
    (r.answeredA || decide (r.MatchesA d)).toNat +
      (r.answeredAaaa || decide (r.MatchesAaaa d)).toNat = r.answers + 1 := by
  have htypes : ¬ (r.MatchesA d ∧ r.MatchesAaaa d) := by
    rintro ⟨hA, hAaaa⟩
    exact absurd (hA.2.2.1.symm.trans hAaaa.2.2.1) (by decide)
  rcases h with hA | hAaaa
  · have hnot : ¬ r.MatchesAaaa d := fun h => htypes ⟨hA, h⟩
    simp only [answers, hA, hnot, hA.2.1, decide_true, decide_false, Bool.or_true, Bool.or_false]
    simp only [Bool.toNat_true, Bool.toNat_false]
    omega
  · have hnot : ¬ r.MatchesA d := fun h => htypes ⟨h, hAaaa⟩
    simp only [answers, hAaaa, hnot, hAaaa.2.1, decide_true, decide_false, Bool.or_true,
      Bool.or_false]
    simp only [Bool.toNat_true, Bool.toNat_false]

/-- A datagram that is an answer. -/
lemma Kept.answer (h : r.Kept) {d : Datagram} (hd : r.Matches d) (garbage : Nat) (now : Int)
    (hreading : r.returned ≠ some 0) :
    Kept { r with
      now := r.now.datagram b d garbage now
      answeredA := r.answeredA || decide (r.MatchesA d)
      answeredAaaa := r.answeredAaaa || decide (r.MatchesAaaa d)
      taken := r.taken ++ addressesIn b d (r.now.stamped b now) } := by
  have hone := r.now.datagram_atMostOne b d garbage now
  have hsucc := answers_succ hd
  have hreceived := h.received
  have hresponses := h.responses
  have haddress := r.now.datagram_address b d garbage now
  have hspare := r.now.datagram_spare b d garbage now
  refine ⟨?_, ?_, ?_, fun h => absurd h hreading, ⟨?_, ?_⟩, ?_, ⟨?_, ?_⟩, h.undisturbed⟩
  · exact hone.received.trans (by simp only [Resolution.answers] at hsucc hreceived ⊢; omega)
  · exact hone.responses.trans (by simp only [Resolution.answers] at hsucc hresponses ⊢; omega)
  · rw [hone.sentA, hone.sentAaaa]
    simp only [Bool.or_eq_true, decide_eq_true_eq]
    exact ⟨fun hA => hA.elim h.sent.1 fun hA => hA.1,
      fun hAaaa => hAaaa.elim h.sent.2 fun hAaaa => hAaaa.1⟩
  · rcases haddress.1 with heq | hnew
    · rw [heq]
      exact h.address.1.imp_right (List.mem_append_left _)
    · exact .inr (List.mem_append_right _ hnew)
  · rcases haddress.2 with heq | hnew
    · rw [heq]
      exact h.address.2.imp_right (List.mem_append_left _)
    · exact .inr (List.mem_append_right _ hnew)
  · exact fun dst hdst => (h.attempted dst hdst).imp_left (List.mem_append_left _)
  · intro a ha
    exact (hspare.1 a ha).elim (fun hold => List.mem_append_left _ (h.stored.1 a hold))
      (List.mem_append_right _)
  · intro a ha
    exact (hspare.2 a ha).elim (fun hold => List.mem_append_left _ (h.stored.2 a hold))
      (List.mem_append_right _)

/-- A datagram that changes no answer. -/
lemma Kept.sameAnswers (h : r.Kept) {next : Reading} (hsame : r.now.SameAnswers next) :
    Kept { r with now := next } := by
  obtain ⟨htracking, hresponses, hipv4, hipv6⟩ := hsame
  refine ⟨?_, ?_, ?_, ?_, ?_, h.attempted, ?_, h.undisturbed⟩
  · exact htracking ▸ h.received
  · exact hresponses ▸ h.responses
  · exact htracking ▸ h.sent
  · exact htracking ▸ h.done
  · exact htracking ▸ h.address
  · rw [hipv4, hipv6]
    exact h.stored

/-- While the function reads it has not returned 0. -/
def ReadsOn (r : Resolution) : Prop := r.reading = true → r.returned ≠ some 0

/-- **One step keeps the invariant**, when it meets the condition. -/
lemma Kept.step {a : ResolutionStep} {r' : Resolution} (h : r.Kept ∧ r.ReadsOn)
    (hguard : OnlyAnswers b r a) (hstep : resolutionStep b r a = some r') :
    r'.Kept ∧ r'.ReadsOn := by
  have hdone : ∀ s : Resolution, s.Kept → s.returned ≠ some 0 →
      s.checkDone.Kept ∧ s.checkDone.ReadsOn := by
    intro s hs hnot
    refine ⟨hs.checkDone, ?_⟩
    unfold Resolution.checkDone
    split_ifs
    · exact fun h => absurd h (by simp)
    · exact fun _ => hnot
  obtain ⟨h, hon⟩ := h
  cases a with
  | call =>
      simp only [resolutionStep] at hstep
      split_ifs at hstep with hbusy hnone
      · obtain rfl := Option.some.inj hstep
        exact ⟨{ h with done := by simp }, by simp [ReadsOn]⟩
      · obtain rfl := Option.some.inj hstep
        simp only [not_or] at hbusy
        exact hdone _ { h with responses := h.received } hbusy.2.1
  | datagram d garbage now =>
      simp only [resolutionStep, Option.ite_none_right_eq_some, Option.some.injEq] at hstep
      obtain ⟨hreading, rfl⟩ := hstep
      have hnot := hon hreading
      by_cases hd : r.Matches d
      · refine hdone _ ?_ hnot
        have hclear : (r.disturbed || !decide (r.Matches d ∨
            r.now.SameAnswers (r.now.datagram b d garbage now))) = r.disturbed := by
          simp [hd]
        rw [if_pos hd, hclear]
        exact h.answer hd garbage now hnot
      · have hsame := sameAnswers_of_harmless (hguard.resolve_left hd)
        have hA : ¬ r.MatchesA d := fun hA => hd (.inl hA)
        have hAaaa : ¬ r.MatchesAaaa d := fun hAaaa => hd (.inr hAaaa)
        refine hdone _ ?_ hnot
        have hclear : (r.disturbed || !decide (r.Matches d ∨
            r.now.SameAnswers (r.now.datagram b d garbage now))) = r.disturbed := by
          simp [hsame]
        rw [if_neg hd, hclear, List.append_nil, decide_eq_false hA, decide_eq_false hAaaa,
          Bool.or_false, Bool.or_false]
        exact h.sameAnswers hsame
  | noMore wouldblock =>
      simp only [resolutionStep, Option.ite_none_right_eq_some, Option.some.injEq] at hstep
      obtain ⟨-, rfl⟩ := hstep
      refine ⟨{ h with done := ?_ }, by simp [ReadsOn]⟩
      cases wouldblock <;> simp
  | connect ipv6Supported =>
      simp only [resolutionStep, Option.ite_none_right_eq_some, Option.some.injEq] at hstep
      obtain ⟨⟨hreturned, -⟩, rfl⟩ := hstep
      refine ⟨{ h with attempted := ?_ }, hon⟩
      intro dst hdst
      obtain rfl := Option.some.inj hdst
      unfold DnsQueriesTracking.destination
      split_ifs with hipv6
      · exact ⟨h.address.2.resolve_left hipv6.2.2, by simpa [Destination.isUnset] using hipv6.2.2⟩
      · have hset : r.now.tracking.dnsAAddr ≠ Vector.replicate 4 0 := hguard.resolve_right hipv6
        exact ⟨h.address.1.resolve_left hset, by simpa [Destination.isUnset] using hset⟩

end Resolution

/-! ## Runs -/

/-- **Answers match queries.**  In every run in which each datagram that carries the id of a
    query answers one that is still unanswered or is harmless, and in which an address is set
    when the connection is attempted: `read_dns_response` returns 0 only when every query that
    was sent has been answered, the connection goes to an address that stood in an answer, every
    stored address did, and no other datagram changes the count of answers or a stored
    address. -/
theorem answers_match_queries {b : AddressBuild} {q : SentQueries} {r : Resolution}
    (hr : (resolution b q).Reachable (OnlyAnswers b) r) : r.Sound := by
  have hinv : r.Kept ∧ r.ReadsOn := by
    refine hr.invariant (P := fun r => r.Kept ∧ r.ReadsOn)
      ⟨⟨?_, ?_, ?_, ?_, ?_, ?_, ?_, rfl⟩, ?_⟩ fun r a r' h hguard hstep =>
        Resolution.Kept.step h hguard hstep
    all_goals simp [resolution, DnsQueriesTracking.received, Resolution.ReadsOn]
  have hkept := hinv.1
  refine ⟨fun hreturned => ?_, hkept.attempted, hkept.stored, hkept.undisturbed⟩
  have hdone := hkept.done hreturned
  obtain ⟨hsentA, hsentAaaa⟩ := hkept.sent
  simp only [DnsQueriesTracking.expected, Resolution.answers] at hdone
  cases hA : r.answeredA <;> cases hAaaa : r.answeredAaaa <;>
    cases hqA : r.now.tracking.sentA <;> cases hqAaaa : r.now.tracking.sentAaaa <;> simp_all

/-- The default build with IPv6. -/
def defaultAddressBuild : AddressBuild := ⟨true, true, 2, 2⟩

/-- A query for the IPv4 address alone, with the id 0x1234. -/
def oneQuery : SentQueries := ⟨true, false, 0x1234, 0⟩

/-- The answer to it: one question, for the host `a`, and one A record. -/
def aRecord : Datagram where
  bytes := [0x12, 0x34, 0x81, 0x80, 0, 1, 0, 1, 0, 0, 0, 0, 1, 0x61, 0, 0, 1, 0, 1,
    0xC0, 0x0C, 0, 1, 0, 1, 0, 0, 0, 0x3C, 0, 4, 9, 8, 7, 6]
  behind := []

/-- `OnlyAnswers` as a test, for the steps of the run below. -/
def onlyAnswers (b : AddressBuild) : Resolution → ResolutionStep → Bool
  | r, .datagram d _ _ => decide (r.Matches d) || r.now.tracking.skips b d
  | r, .connect _ => decide (r.now.tracking.dnsAAddr ≠ Vector.replicate 4 0)
  | _, _ => true

lemma onlyAnswers_iff {b : AddressBuild} {r : Resolution} {a : ResolutionStep}
    (h : onlyAnswers b r a = true) : OnlyAnswers b r a := by
  cases a with
  | datagram d garbage now =>
      simp only [onlyAnswers, Bool.or_eq_true, decide_eq_true_eq] at h
      exact h.elim .inl fun hskip => .inr (.inl hskip)
  | connect ipv6Supported => exact .inl (by simpa [onlyAnswers] using h)
  | call => trivial
  | noMore wouldblock => trivial

theorem answers_match_queries_aRecord :
    ∃ r, (resolution defaultAddressBuild oneQuery).Reachable (OnlyAnswers defaultAddressBuild) r ∧
      r.attempted = some (.ipv4 #v[9, 8, 7, 6]) ∧ r.Sound := by
  obtain ⟨r, hr, hend⟩ := (resolution defaultAddressBuild oneQuery).exists_reachable_of_replay
    (onlyAnswers defaultAddressBuild)
    [.call, .datagram ⟨[0x12], []⟩ 0 0, .noMore true, .call, .datagram aRecord 0 0, .connect true]
    (fun r => r.attempted == some (.ipv4 #v[9, 8, 7, 6]))
    (fun _ _ => onlyAnswers_iff) (by decide +kernel)
  exact ⟨r, hr, by simpa using hend, answers_match_queries hr⟩

/-- A datagram that is nothing but a header with this id; it does not even say that it is a
    response. -/
def bareHeader (id : UInt8) : Datagram := ⟨[0, id, 0, 0, 0, 0, 0, 0, 0, 0, 0, 0], []⟩

/-- Two bare headers with the ids of the two queries: the function returns 0 although neither
    has been answered, and the client connects to `0.0.0.0`. -/
theorem answers_not_always_matched :
    ¬ ∀ (q : SentQueries) (r : Resolution),
      (resolution defaultAddressBuild q).Reachable Machine.anyStep r →
      (r.returned = some 0 → (r.now.tracking.sentA = true → r.answeredA = true)) ∧
        ∀ dst, r.attempted = some dst → dst.isUnset = false := by
  intro h
  obtain ⟨r, hr, hend⟩ :=
    (resolution defaultAddressBuild ⟨true, true, 1, 2⟩).exists_reachable_of_replay
      (G := Machine.anyStep) (fun _ _ => true)
      [.call, .datagram (bareHeader 1) 0 0, .datagram (bareHeader 2) 0 0, .connect true]
      (fun r => r.attempted.any Destination.isUnset) (fun _ _ _ => trivial) (by decide +kernel)
  cases hattempted : r.attempted with
  | none => simp [hattempted] at hend
  | some dst =>
      rw [hattempted] at hend
      exact absurd ((h _ r hr).2 dst hattempted) (by simpa using hend)

end PubNub
