import PubNubCore.Core.Types
import PubNubCore.Dns.Servers

/-!
# The decoder of DNS responses

`pbdns_pick_resolved_addresses` of `lib/pubnub_dns_codec.c` with everything it calls.  Pointers
into the message are positions, `buffer_size` is an argument where the source passes it, and a
position at or after the end of the message reads what the receive buffer holds there.

The decoder has three kinds of output, and they are filled in at different places: the type of
the question, which is set before anything is known of the answers and not at all when the
header is refused; the first address; and the spare addresses, to which every address record is
appended as it is read, also when a later record makes the whole message fail.
-/

namespace PubNub

/-! ## Messages, addresses and the build -/

/-- A received datagram: its bytes, and what lies behind them in the receive buffer. -/
structure Datagram where
  bytes : Bytes
  behind : Bytes
  deriving DecidableEq, Repr

/-- `msg_size`. -/
def Datagram.msgSize (d : Datagram) : Nat := d.bytes.length

/-- The byte at a position of the receive buffer. -/
def Datagram.read (d : Datagram) (i : Nat) : UInt8 := (d.bytes ++ d.behind).getD i 0

/-- Two bytes in network byte order. -/
def Datagram.read16 (d : Datagram) (i : Nat) : Nat :=
  (d.read i).toNat * 256 + (d.read (i + 1)).toNat

/-- `PUBNUB_USE_IPV6`, `PUBNUB_USE_MULTIPLE_ADDRESSES` and the sizes of the two arrays. -/
structure AddressBuild where
  useIpv6 : Bool
  useMultipleAddresses : Bool
  maxIpv4Addresses : Nat
  maxIpv6Addresses : Nat

/-- `struct pubnub_multi_addresses`: the stored addresses of each family with their times to
    live, so that `n_ipv4` and `n_ipv6` are the lengths of the lists. -/
structure MultiAddresses where
  timeOfTheLastDnsQuery : Int
  ipv4Addresses : List (Ipv4Address × UInt16)
  ipv4Index : Nat
  ipv6Addresses : List (Ipv6Address × UInt16)
  ipv6Index : Nat
  deriving DecidableEq

/-- `n_ipv4`. -/
def MultiAddresses.nIpv4 (s : MultiAddresses) : Nat := s.ipv4Addresses.length

/-- `n_ipv6`. -/
def MultiAddresses.nIpv6 (s : MultiAddresses) : Nat := s.ipv6Addresses.length

/-- `dnsA` of `enum DNSqueryType`. -/
def dnsA : Nat := 1

/-- `dnsAAAA`. -/
def dnsAaaa : Nat := 28

/-- `HEADER_SIZE`. -/
def dnsHeaderSize : Nat := 12

/-- `QUESTION_DATA_SIZE`. -/
def questionDataSize : Nat := 4

/-- `RESOURCE_DATA_SIZE`. -/
def resourceDataSize : Nat := 10

/-- `MAXIMUM_LOOP_PASSES`. -/
def maximumLoopPasses : Nat := 10

/-! ## Names -/

/-- `handle_offset`: where a compression pointer leads. -/
def handleOffset (d : Datagram) (pass reader bufferSize : Nat) : Option Nat :=
  if bufferSize ≤ reader + 1 then none
  else if maximumLoopPasses < pass then none
  else
    let offset := ((d.read reader).toNat &&& 0x3F) * 256 + (d.read (reader + 1)).toNat
    if offset < dnsHeaderSize then none
    else if bufferSize ≤ offset then none
    else some offset

/-- `forced_skip`: the position after a name of which the text does not fit. -/
def forcedSkip (d : Datagram) (bufferSize : Nat) : Nat → Nat → Option Nat
  | 0, _ => none
  | fuel + 1, reader =>
      let b := (d.read reader).toNat
      if b &&& 0xC0 = 0xC0 then some (reader + 2)
      else if b = 0 then some (reader + 1)
      else if b &&& 0xC0 = 0 then
        if bufferSize ≤ reader + b + 1 then none else forcedSkip d bufferSize fuel (reader + b + 1)
      else none

/-- What `dns_label_decode` comes back with: whether it succeeds, the text, and
    `*o_bytes_to_skip`. -/
structure LabelDecoded where
  ok : Bool
  decoded : Bytes
  bytesToSkip : Nat
  deriving DecidableEq, Repr

/-- The loop of `dns_label_decode` for a name that starts at `src`. -/
def dnsLabelLoop (d : Datagram) (n src bufferSize : Nat) :
    Nat → (decoded : Bytes) → (reader pass bytesToSkip : Nat) → LabelDecoded
  | 0, decoded, _, _, bytesToSkip => ⟨false, decoded, bytesToSkip⟩
  | fuel + 1, decoded, reader, pass, bytesToSkip =>
      let b := (d.read reader).toNat
      if b &&& 0xC0 = 0xC0 then
        let bytesToSkip := if bytesToSkip = 0 then reader - src + 2 else bytesToSkip
        match handleOffset d (pass + 1) reader bufferSize with
        | none => ⟨false, decoded, bytesToSkip⟩
        | some reader => dnsLabelLoop d n src bufferSize fuel decoded reader (pass + 1) bytesToSkip
      else if b = 0 then
        ⟨true, decoded, if bytesToSkip = 0 then reader - src + 1 else bytesToSkip⟩
      else if b &&& 0xC0 = 0 then
        let decoded := if decoded = [] then decoded else decoded ++ ascii "."
        if n ≤ decoded.length + b then
          if bytesToSkip = 0 then
            match forcedSkip d bufferSize (bufferSize + 1) reader with
            | some reader => ⟨false, decoded, reader - src⟩
            | none => ⟨false, decoded, 0⟩
          else ⟨false, decoded, bytesToSkip⟩
        else if bufferSize ≤ reader + b + 1 then ⟨false, decoded, bytesToSkip⟩
        else
          dnsLabelLoop d n src bufferSize fuel
            (decoded ++ (List.range b).map fun i => d.read (reader + 1 + i))
            (reader + b + 1) pass bytesToSkip
      else ⟨false, decoded, bytesToSkip⟩

/-- `dns_label_decode`.  Between two of the at most ten pointers the position grows with each
    label. -/
def dnsLabelDecode (d : Datagram) (n src bufferSize : Nat) : LabelDecoded :=
  dnsLabelLoop d n src bufferSize ((maximumLoopPasses + 2) * (bufferSize + 2)) [] src 0 0

/-! ## The sections of a message -/

/-- `read_header`: the numbers of questions and answers. -/
def readHeader (d : Datagram) : Option (Nat × Nat) :=
  if d.msgSize < dnsHeaderSize then none
  else
    let options := d.read16 2
    if options &&& 0x8000 = 0 then none
    else if options &&& 0x000F ≠ 0 then none
    else some (d.read16 4, d.read16 6)

/-- `skip_questions`: the position of the first answer. -/
def skipQuestions (d : Datagram) : Nat → Nat → Option Nat
  | 0, reader => some reader
  | count + 1, reader =>
      if d.msgSize < reader + questionDataSize then none
      else
        let name := dnsLabelDecode d 256 reader (d.msgSize + 1)
        if name.ok = false ∧ name.bytesToSkip = 0 then none
        else skipQuestions d count (reader + name.bytesToSkip + questionDataSize)

/-- The addresses found so far. -/
structure FoundAddresses where
  addressFound : Bool
  ipv4 : Ipv4Address
  ipv6 : Ipv6Address
  spare : MultiAddresses
  deriving DecidableEq

/-- The time to live that is kept: the lower two bytes, or all ones. -/
def keptTtl (d : Datagram) (reader : Nat) : Nat :=
  let ttl := d.read16 (reader - 6) * 65536 + d.read16 (reader - 4)
  if 65536 ≤ ttl then 0xFFFF else ttl

/-- The four bytes of an A record. -/
def ipv4At (d : Datagram) (reader : Nat) : Ipv4Address := Vector.ofFn fun i => d.read (reader + i)

/-- The sixteen bytes of an AAAA record. -/
def ipv6At (d : Datagram) (reader : Nat) : Ipv6Address := Vector.ofFn fun i => d.read (reader + i)

/-- The first address record of a message is the address of the host. -/
def FoundAddresses.noteIpv4 (f : FoundAddresses) (a : Ipv4Address) : FoundAddresses :=
  if f.addressFound then f else { f with ipv4 := a, addressFound := true }

/-- The same for an IPv6 address. -/
def FoundAddresses.noteIpv6 (f : FoundAddresses) (a : Ipv6Address) : FoundAddresses :=
  if f.addressFound then f else { f with ipv6 := a, addressFound := true }

/-- An address is stored as long as there is room and it has some time to live. -/
def MultiAddresses.storeIpv4 (s : MultiAddresses) (b : AddressBuild) (a : Ipv4Address)
    (ttl : Nat) : MultiAddresses :=
  if b.useMultipleAddresses = true ∧ s.nIpv4 < b.maxIpv4Addresses ∧ 0 < ttl then
    { s with ipv4Addresses := s.ipv4Addresses ++ [(a, UInt16.ofNat ttl)] }
  else s

/-- The same for an IPv6 address. -/
def MultiAddresses.storeIpv6 (s : MultiAddresses) (b : AddressBuild) (a : Ipv6Address)
    (ttl : Nat) : MultiAddresses :=
  if b.useMultipleAddresses = true ∧ s.nIpv6 < b.maxIpv6Addresses ∧ 0 < ttl then
    { s with ipv6Addresses := s.ipv6Addresses ++ [(a, UInt16.ofNat ttl)] }
  else s

/-- `check_answer` on an A record. -/
def checkAnswerA (b : AddressBuild) (d : Datagram) (reader : Nat) (f : FoundAddresses) :
    FoundAddresses :=
  { f.noteIpv4 (ipv4At d reader) with
    spare := f.spare.storeIpv4 b (ipv4At d reader) (keptTtl d reader) }

/-- `check_answer` on an AAAA record. -/
def checkAnswerAaaa (b : AddressBuild) (d : Datagram) (reader : Nat) (f : FoundAddresses) :
    FoundAddresses :=
  { f.noteIpv6 (ipv6At d reader) with
    spare := f.spare.storeIpv6 b (ipv6At d reader) (keptTtl d reader) }

/-- `check_answer`: whether the record is an address that can be used, and what was found. -/
def checkAnswer (b : AddressBuild) (d : Datagram) (reader rDataType rDataLen : Nat)
    (f : FoundAddresses) : Bool × FoundAddresses :=
  if rDataType = dnsA then
    if rDataLen ≠ 4 then (false, f) else (true, checkAnswerA b d reader f)
  else if b.useIpv6 = true ∧ rDataType = dnsAaaa then
    if rDataLen ≠ 16 then (false, f) else (true, checkAnswerAaaa b d reader f)
  else (false, f)

/-- `find_the_answer`.  Without `PUBNUB_USE_MULTIPLE_ADDRESSES` the first address ends it. -/
def findTheAnswer (b : AddressBuild) (d : Datagram) :
    Nat → Nat → FoundAddresses → Bool × FoundAddresses
  | 0, _, f => (f.addressFound, f)
  | count + 1, reader, f =>
      let name := dnsLabelDecode d 256 reader (d.msgSize + 1)
      if name.ok = false ∧ name.bytesToSkip = 0 then (false, f)
      else
        let reader := reader + name.bytesToSkip + resourceDataSize
        if d.msgSize < reader then (false, f)
        else
          let rDataLen := d.read16 (reader - 2)
          if d.msgSize < reader + rDataLen then (false, f)
          else
            let checked := checkAnswer b d reader (d.read16 (reader - 10)) rDataLen f
            if checked.1 = true ∧ b.useMultipleAddresses = false then (true, checked.2)
            else findTheAnswer b d count (reader + rDataLen) checked.2

/-- The type of the first question, where its name can be decoded. -/
def questionType (d : Datagram) (qCount : Nat) : Option Nat :=
  if qCount = 0 then none
  else
    let name := dnsLabelDecode d 256 dnsHeaderSize d.msgSize
    if name.ok = true ∧ dnsHeaderSize + name.bytesToSkip + 2 ≤ d.msgSize then
      some (d.read16 (dnsHeaderSize + name.bytesToSkip))
    else none

/-- What `pbdns_pick_resolved_addresses` comes back with: whether it returns 0, the value it
    gives `*o_query_type` (`none`: it does not write it), and the addresses. -/
structure Picked where
  ok : Bool
  questionType : Option Nat
  found : FoundAddresses
  deriving DecidableEq

/-- `pbdns_pick_resolved_addresses`, with two zeroed addresses to fill in. -/
def pbdnsPickResolvedAddresses (b : AddressBuild) (d : Datagram) (spare : MultiAddresses) :
    Picked :=
  let f : FoundAddresses := ⟨false, Vector.replicate 4 0, Vector.replicate 16 0, spare⟩
  match readHeader d with
  | none => ⟨false, none, f⟩
  | some (qCount, ansCount) =>
      let type := questionType d qCount
      if ansCount = 0 then ⟨false, type, f⟩
      else
        match skipQuestions d qCount dnsHeaderSize with
        | none => ⟨false, type, f⟩
        | some reader =>
            if d.msgSize < reader then ⟨false, type, f⟩
            else
              let r := findTheAnswer b d ansCount reader f
              ⟨r.1, type, r.2⟩

end PubNub
