import PubNubCore.Dns.Messages

/-!
# What is picked out of a well formed response

`pbdns_pick_resolved_addresses` on a response to one question.  The loop over the answers takes one
record after the other, whatever its name (`findTheAnswer_reads`), and what it has found at the end
can be read off the list of the records: `addresses_picked`.
-/

namespace PubNub

/-! ## What there is to find -/

namespace WireRecord

variable (record : WireRecord)

/-- The data of an A record. -/
def ipv4 : Ipv4Address := Vector.ofFn fun i => record.data.getD i 0

/-- The data of an AAAA record. -/
def ipv6 : Ipv6Address := Vector.ofFn fun i => record.data.getD i 0

/-- The time to live, as far as it can be stored. -/
def storedTtl : UInt16 := UInt16.ofNat (min record.ttl 65535)

end WireRecord

/-- The records whose addresses are to be stored. -/
def storable (type : Nat) (records : List WireRecord) : List WireRecord :=
  records.filter fun record => decide (record.type = type ∧ record.ttl ≠ 0)

/-- The spare addresses with those of the A records, as many as there is room for. -/
def MultiAddresses.withA (s : MultiAddresses) (b : AddressBuild) (records : List WireRecord) :
    MultiAddresses :=
  if b.useMultipleAddresses then
    { s with
      ipv4Addresses := s.ipv4Addresses ++ ((storable dnsA records).map fun record =>
        (record.ipv4, record.storedTtl)).take (b.maxIpv4Addresses - s.nIpv4) }
  else s

/-- The same for IPv6 addresses. -/
def MultiAddresses.withAaaa (s : MultiAddresses) (b : AddressBuild) (records : List WireRecord) :
    MultiAddresses :=
  if b.useMultipleAddresses then
    { s with
      ipv6Addresses := s.ipv6Addresses ++ ((storable dnsAaaa records).map fun record =>
        (record.ipv6, record.storedTtl)).take (b.maxIpv6Addresses - s.nIpv6) }
  else s

/-- What is to be found in the answers to a question for IPv4 addresses. -/
def FoundAddresses.withA (f : FoundAddresses) (b : AddressBuild) (records : List WireRecord) :
    FoundAddresses where
  addressFound := f.addressFound || records.any fun record => record.type == dnsA
  ipv4 := if f.addressFound then f.ipv4 else
    ((records.find? fun record => record.type == dnsA).map WireRecord.ipv4).getD f.ipv4
  ipv6 := f.ipv6
  spare := f.spare.withA b records

/-- The same for IPv6 addresses. -/
def FoundAddresses.withAaaa (f : FoundAddresses) (b : AddressBuild) (records : List WireRecord) :
    FoundAddresses where
  addressFound := f.addressFound || records.any fun record => record.type == dnsAaaa
  ipv4 := f.ipv4
  ipv6 := if f.addressFound then f.ipv6 else
    ((records.find? fun record => record.type == dnsAaaa).map WireRecord.ipv6).getD f.ipv6
  spare := f.spare.withAaaa b records

/-! ## One record -/

/-- What one record adds to what was found. -/
def FoundAddresses.note (f : FoundAddresses) (b : AddressBuild) (record : WireRecord) :
    FoundAddresses :=
  if record.type = dnsA then
    { f.noteIpv4 record.ipv4 with
      spare := f.spare.storeIpv4 b record.ipv4 (min record.ttl 65535) }
  else if b.useIpv6 = true ∧ record.type = dnsAaaa then
    { f.noteIpv6 record.ipv6 with
      spare := f.spare.storeIpv6 b record.ipv6 (min record.ttl 65535) }
  else f

/-- The decoder takes the record for an address. -/
def WireRecord.IsAddress (b : AddressBuild) (record : WireRecord) : Prop :=
  record.type = dnsA ∨ (b.useIpv6 = true ∧ record.type = dnsAaaa)

section Records

variable {b : AddressBuild} {d : Datagram} {p : Nat} {record : WireRecord} {f : FoundAddresses}

lemma read_data {t : Bytes} (h : LiesAt d.read p t) (i : Nat) (hi : i < t.length) :
    d.read (p + i) = t.getD i 0 := by
  induction t generalizing p i with
  | nil => cases hi
  | cons c t ih =>
      cases i with
      | zero => exact h.1
      | succ i =>
          have hrest := ih h.2 i (by simpa using hi)
          rw [Nat.add_assoc, Nat.add_comm 1] at hrest
          exact hrest

/-- The fixed fields of a record, seen from its data. -/
lemma record_reads (h : LiesAt d.read p record.bytes) (reader : Nat)
    (hreader : reader = p + record.name.bytes.length + resourceDataSize) :
    d.read16 (reader - 10) = record.type ∧ d.read16 (reader - 2) = record.data.length ∧
      keptTtl d reader = min record.ttl 65535 ∧ LiesAt d.read reader record.data := by
  simp only [WireRecord.bytes, be32, Datagram.liesAt_append, length_be16, List.append_assoc] at h
  obtain ⟨-, htype, -, hhigh, hlow, hlength, hdata⟩ := h
  have httl := record.ttl_lt
  rw [resourceDataSize] at hreader
  refine ⟨?_, ?_, ?_, ?_⟩
  · rw [show reader - 10 = p + record.name.bytes.length by omega]
    exact read16_be16 record.type_lt htype
  · rw [show reader - 2 = p + record.name.bytes.length + 2 + 2 + 2 + 2 by omega]
    exact read16_be16 record.data_lt hlength
  · rw [keptTtl, show reader - 6 = p + record.name.bytes.length + 2 + 2 by omega,
      show reader - 4 = p + record.name.bytes.length + 2 + 2 + 2 by omega,
      read16_be16 (by omega) hhigh, read16_be16 (by omega) hlow]
    split <;> omega
  · rw [hreader]
    exact hdata

/-- `check_answer` does with a record what is to be done with it. -/
lemma checkAnswer_reads (h : LiesAt d.read p record.bytes) (reader : Nat)
    (hreader : reader = p + record.name.bytes.length + resourceDataSize) :
    (checkAnswer b d reader record.type record.data.length f).2 = f.note b record ∧
      ((checkAnswer b d reader record.type record.data.length f).1 = true ↔
        record.IsAddress b) := by
  obtain ⟨-, -, httl, hdata⟩ := record_reads h reader hreader
  rw [checkAnswer, FoundAddresses.note, WireRecord.IsAddress]
  by_cases hA : record.type = dnsA
  · have hipv4 : ipv4At d reader = record.ipv4 := by
      rw [ipv4At, WireRecord.ipv4]
      congr 1
      funext i
      exact read_data hdata i (by rw [record.data_a hA]; exact i.isLt)
    simp [hA, record.data_a hA, checkAnswerA, hipv4, httl]
  · by_cases hAaaa : b.useIpv6 = true ∧ record.type = dnsAaaa
    · have hipv6 : ipv6At d reader = record.ipv6 := by
        rw [ipv6At, WireRecord.ipv6]
        congr 1
        funext i
        exact read_data hdata i (by rw [record.data_aaaa hAaaa.2]; exact i.isLt)
      have hne : dnsAaaa ≠ dnsA := by decide
      simp [hne, hAaaa, record.data_aaaa hAaaa.2, checkAnswerAaaa, hipv6, httl]
    · simp [hA, hAaaa]

/-- Without a list of spare addresses nothing more is noted once an address is found. -/
lemma note_of_found (hmulti : b.useMultipleAddresses = false) (hf : f.addressFound = true) :
    f.note b record = f := by
  obtain ⟨found, ipv4, ipv6, spare⟩ := f
  dsimp only at hf
  subst hf
  simp [FoundAddresses.note, FoundAddresses.noteIpv4, FoundAddresses.noteIpv6,
    MultiAddresses.storeIpv4, MultiAddresses.storeIpv6, hmulti]

lemma foldl_note_of_found (hmulti : b.useMultipleAddresses = false) (hf : f.addressFound = true)
    (records : List WireRecord) : records.foldl (fun f record => f.note b record) f = f := by
  induction records with
  | nil => rfl
  | cons record records ih => rw [List.foldl_cons, note_of_found hmulti hf, ih]

lemma note_addressFound (h : record.IsAddress b) : (f.note b record).addressFound = true := by
  have hnote4 : ∀ a, (f.noteIpv4 a).addressFound = true := by
    intro a
    rw [FoundAddresses.noteIpv4]
    split
    · assumption
    · rfl
  have hnote6 : ∀ a, (f.noteIpv6 a).addressFound = true := by
    intro a
    rw [FoundAddresses.noteIpv6]
    split
    · assumption
    · rfl
  rw [FoundAddresses.note]
  split
  · exact hnote4 _
  · rename_i hA
    rw [if_pos (h.resolve_left hA)]
    exact hnote6 _

end Records

/-! ## The loop over the records -/

section Loop

variable {b : AddressBuild} {d : Datagram}

lemma length_recordBytes (record : WireRecord) :
    record.bytes.length = record.name.bytes.length + resourceDataSize + record.data.length := by
  simp only [WireRecord.bytes, List.length_append, length_be16, length_be32, resourceDataSize]
  omega

/-- **The loop** notes one record after the other. -/
theorem findTheAnswer_reads (records : List WireRecord) : ∀ (reader : Nat) (f : FoundAddresses),
    LiesAt d.read reader (records.flatMap WireRecord.bytes) →
    reader + (records.flatMap WireRecord.bytes).length ≤ d.msgSize →
    (b.useMultipleAddresses = false → f.addressFound = false) →
    findTheAnswer b d records.length reader f =
      ((records.foldl (fun f record => f.note b record) f).addressFound,
        records.foldl (fun f record => f.note b record) f) := by
  induction records with
  | nil => exact fun _ _ _ _ _ => rfl
  | cons record records ih =>
      intro reader f hlies hsize hfound
      rw [List.flatMap_cons, Datagram.liesAt_append] at hlies
      obtain ⟨hrecord, hrest⟩ := hlies
      have hlen := length_recordBytes record
      rw [List.flatMap_cons, List.length_append] at hsize
      have hname : (dnsLabelDecode d 256 reader (d.msgSize + 1)).bytesToSkip =
          record.name.bytes.length := by
        refine (dnsLabelDecode_name record.name ?_ (by omega)).1
        rw [WireRecord.bytes, Datagram.liesAt_append] at hrecord
        exact hrecord.1
      have hpos : record.name.bytes.length ≠ 0 := by
        have hend := record.name.length_bytes
        have hone : 0 < record.name.ending.bytes.length := by
          cases record.name.ending with
          | root => exact Nat.one_pos
          | pointer offset => exact Nat.two_pos
        omega
      obtain ⟨htype, hdata, -, -⟩ := record_reads hrecord _ rfl
      obtain ⟨hnote, haddress⟩ := checkAnswer_reads (b := b) (f := f) hrecord _ rfl
      rw [List.length_cons, findTheAnswer]
      dsimp only
      rw [hname, if_neg (fun h => hpos h.2), hdata, htype, if_neg (by omega), if_neg (by omega),
        hnote, List.foldl_cons]
      by_cases hends : (checkAnswer b d (reader + record.name.bytes.length + resourceDataSize)
          record.type record.data.length f).1 = true ∧ b.useMultipleAddresses = false
      · rw [if_pos hends, foldl_note_of_found hends.2 (note_addressFound (haddress.mp hends.1)),
          note_addressFound (haddress.mp hends.1)]
      · rw [if_neg hends]
        have hplace : reader + record.name.bytes.length + resourceDataSize + record.data.length =
            reader + record.bytes.length := by omega
        rw [hplace]
        refine ih _ _ hrest (by omega) fun hmulti => ?_
        have hno : ¬ record.IsAddress b := fun h => hends ⟨haddress.mpr h, hmulti⟩
        rw [WireRecord.IsAddress, not_or] at hno
        rw [FoundAddresses.note, if_neg hno.1, if_neg hno.2]
        exact hfound hmulti

end Loop

/-! ## What was noted -/

section Noted

variable {b : AddressBuild}

/-- Storing one address and then as many as there is room for. -/
lemma append_take_cons {α : Type} (xs rest : List α) (x : α) (max : Nat) :
    xs ++ (x :: rest).take (max - xs.length) =
      if xs.length < max then (xs ++ [x]) ++ rest.take (max - (xs ++ [x]).length)
      else xs ++ rest.take (max - xs.length) := by
  by_cases h : xs.length < max
  · obtain ⟨k, hk⟩ : ∃ k, max - xs.length = k + 1 := ⟨max - xs.length - 1, by omega⟩
    have hlast : max - (xs ++ [x]).length = k := by
      rw [List.length_append, List.length_singleton]
      omega
    rw [if_pos h, hk, hlast, List.take_succ_cons, List.append_assoc]
    rfl
  · have hnone : max - xs.length = 0 := by omega
    rw [if_neg h, hnone, List.take_zero, List.take_zero]

variable {record : WireRecord} {records : List WireRecord} {f : FoundAddresses}

lemma storable_cons (type : Nat) : storable type (record :: records) =
    if record.type = type ∧ record.ttl ≠ 0 then record :: storable type records
    else storable type records := by
  rw [storable, List.filter_cons]
  simp only [decide_eq_true_eq]
  rfl

/-- Storing the address of one record, and then as many others as there is room for. -/
lemma storeIpv4_withA (hA : record.type = dnsA) (s : MultiAddresses) :
    (s.storeIpv4 b record.ipv4 (min record.ttl 65535)).withA b records =
      s.withA b (record :: records) := by
  by_cases hstores : b.useMultipleAddresses = true ∧ s.nIpv4 < b.maxIpv4Addresses ∧
      0 < min record.ttl 65535
  · obtain ⟨hmulti, hroom, hmin⟩ := hstores
    have httl : record.ttl ≠ 0 := by omega
    have hlength : s.ipv4Addresses.length < b.maxIpv4Addresses := hroom
    rw [MultiAddresses.storeIpv4, if_pos ⟨hmulti, hroom, hmin⟩, MultiAddresses.withA,
      MultiAddresses.withA, if_pos hmulti, if_pos hmulti, storable_cons, if_pos ⟨hA, httl⟩,
      List.map_cons, MultiAddresses.nIpv4, MultiAddresses.nIpv4, append_take_cons, if_pos hlength]
    rfl
  rw [MultiAddresses.storeIpv4, if_neg hstores, MultiAddresses.withA, MultiAddresses.withA,
    storable_cons]
  by_cases httl : record.ttl ≠ 0
  · by_cases hmulti : b.useMultipleAddresses = true
    · have hroom : ¬ s.ipv4Addresses.length < b.maxIpv4Addresses := fun h =>
        hstores ⟨hmulti, h, by omega⟩
      rw [if_pos hmulti, if_pos hmulti, if_pos ⟨hA, httl⟩, List.map_cons, MultiAddresses.nIpv4,
        append_take_cons, if_neg hroom]
    · rw [if_neg hmulti, if_neg hmulti]
  · have hno : ¬ (record.type = dnsA ∧ record.ttl ≠ 0) := fun h => httl h.2
    rw [if_neg hno]

lemma storeIpv6_withAaaa (hAaaa : record.type = dnsAaaa) (s : MultiAddresses) :
    (s.storeIpv6 b record.ipv6 (min record.ttl 65535)).withAaaa b records =
      s.withAaaa b (record :: records) := by
  by_cases hstores : b.useMultipleAddresses = true ∧ s.nIpv6 < b.maxIpv6Addresses ∧
      0 < min record.ttl 65535
  · obtain ⟨hmulti, hroom, hmin⟩ := hstores
    have httl : record.ttl ≠ 0 := by omega
    have hlength : s.ipv6Addresses.length < b.maxIpv6Addresses := hroom
    rw [MultiAddresses.storeIpv6, if_pos ⟨hmulti, hroom, hmin⟩, MultiAddresses.withAaaa,
      MultiAddresses.withAaaa, if_pos hmulti, if_pos hmulti, storable_cons, if_pos ⟨hAaaa, httl⟩,
      List.map_cons, MultiAddresses.nIpv6, MultiAddresses.nIpv6, append_take_cons, if_pos hlength]
    rfl
  rw [MultiAddresses.storeIpv6, if_neg hstores, MultiAddresses.withAaaa, MultiAddresses.withAaaa,
    storable_cons]
  by_cases httl : record.ttl ≠ 0
  · by_cases hmulti : b.useMultipleAddresses = true
    · have hroom : ¬ s.ipv6Addresses.length < b.maxIpv6Addresses := fun h =>
        hstores ⟨hmulti, h, by omega⟩
      rw [if_pos hmulti, if_pos hmulti, if_pos ⟨hAaaa, httl⟩, List.map_cons, MultiAddresses.nIpv6,
        append_take_cons, if_neg hroom]
    · rw [if_neg hmulti, if_neg hmulti]
  · have hno : ¬ (record.type = dnsAaaa ∧ record.ttl ≠ 0) := fun h => httl h.2
    rw [if_neg hno]

/-- The first of the records, and then the others. -/
lemma withA_cons (hmem : record.type = dnsA ∨ ¬ record.IsAddress b) :
    (f.note b record).withA b records = f.withA b (record :: records) := by
  by_cases hA : record.type = dnsA
  · rw [FoundAddresses.note, if_pos hA, FoundAddresses.withA, FoundAddresses.withA,
      storeIpv4_withA hA, FoundAddresses.noteIpv4]
    cases hfound : f.addressFound <;> simp [hA, hfound]
  · have hno := hmem.resolve_left hA
    rw [WireRecord.IsAddress, not_or] at hno
    rw [FoundAddresses.note, if_neg hno.1, if_neg hno.2, FoundAddresses.withA,
      FoundAddresses.withA, MultiAddresses.withA, MultiAddresses.withA, storable_cons]
    simp [hA, beq_eq_false_iff_ne.mpr hA]

lemma withAaaa_cons (hipv6 : b.useIpv6 = true)
    (hmem : record.type = dnsAaaa ∨ ¬ record.IsAddress b) :
    (f.note b record).withAaaa b records = f.withAaaa b (record :: records) := by
  by_cases hAaaa : record.type = dnsAaaa
  · have hA : record.type ≠ dnsA := by
      rw [hAaaa]
      decide
    rw [FoundAddresses.note, if_neg hA, if_pos ⟨hipv6, hAaaa⟩, FoundAddresses.withAaaa,
      FoundAddresses.withAaaa, storeIpv6_withAaaa hAaaa, FoundAddresses.noteIpv6]
    cases hfound : f.addressFound <;> simp [hAaaa, hfound]
  · have hno := hmem.resolve_left hAaaa
    rw [WireRecord.IsAddress, not_or] at hno
    rw [FoundAddresses.note, if_neg hno.1, if_neg hno.2, FoundAddresses.withAaaa,
      FoundAddresses.withAaaa, MultiAddresses.withAaaa, MultiAddresses.withAaaa, storable_cons]
    simp [hAaaa, beq_eq_false_iff_ne.mpr hAaaa]

lemma withA_nil : f.withA b [] = f := by
  simp [FoundAddresses.withA, MultiAddresses.withA, storable]

lemma withAaaa_nil : f.withAaaa b [] = f := by
  simp [FoundAddresses.withAaaa, MultiAddresses.withAaaa, storable]

/-- What was noted in the answers to a question for IPv4 addresses. -/
lemma foldl_note_a (htypes : ∀ record ∈ records, record.type = dnsA ∨ ¬ record.IsAddress b) :
    records.foldl (fun f record => f.note b record) f = f.withA b records := by
  induction records generalizing f with
  | nil => rw [withA_nil, List.foldl_nil]
  | cons record records ih =>
      rw [List.forall_mem_cons] at htypes
      rw [List.foldl_cons, ih htypes.2, withA_cons htypes.1]

lemma foldl_note_aaaa (hipv6 : b.useIpv6 = true)
    (htypes : ∀ record ∈ records, record.type = dnsAaaa ∨ ¬ record.IsAddress b) :
    records.foldl (fun f record => f.note b record) f = f.withAaaa b records := by
  induction records generalizing f with
  | nil => rw [withAaaa_nil, List.foldl_nil]
  | cons record records ih =>
      rw [List.forall_mem_cons] at htypes
      rw [List.foldl_cons, ih htypes.2, withAaaa_cons hipv6 htypes.1]

end Noted

/-! ## The whole response -/

namespace WireResponse

/-- The datagram with a response. -/
def datagram (response : WireResponse) (behind : Bytes) : Datagram := ⟨response.bytes, behind⟩

/-- What is to be picked out of a response. -/
def picked (response : WireResponse) (b : AddressBuild) (spare : MultiAddresses) :
    FoundAddresses :=
  let f : FoundAddresses := ⟨false, Vector.replicate 4 0, Vector.replicate 16 0, spare⟩
  if response.questionType = dnsA then f.withA b response.answers
  else f.withAaaa b response.answers

section Parts

variable (response : WireResponse) (behind : Bytes)

lemma length_header : response.header.length = dnsHeaderSize := rfl

lemma length_questionBytes : response.questionBytes.length =
    response.question.bytes.length + questionDataSize := by
  simp only [questionBytes, List.length_append, length_be16, questionDataSize]

lemma msgSize_datagram : (response.datagram behind).msgSize =
    dnsHeaderSize + (response.question.bytes.length + questionDataSize) +
      (response.answers.flatMap WireRecord.bytes).length + response.rest.length := by
  simp only [Datagram.msgSize, datagram, bytes, List.length_append, length_header,
    length_questionBytes]
  omega

lemma readHeader_datagram :
    readHeader (response.datagram behind) = some (1, response.answers.length) := by
  have hlies := liesAt_read [] response.header (response.questionBytes ++
    (response.answers.flatMap WireRecord.bytes ++ response.rest)) behind
  simp only [List.nil_append, List.length_nil, header, Datagram.liesAt_append,
    length_be16] at hlies
  obtain ⟨-, hflags, hquestions, hanswers, -⟩ := hlies
  have hsize := msgSize_datagram response behind
  have hread2 : (response.datagram behind).read16 2 = response.flags :=
    read16_be16 response.flags_lt hflags
  have hread4 : (response.datagram behind).read16 4 = 1 := read16_be16 (by decide) hquestions
  have hread6 : (response.datagram behind).read16 6 = response.answers.length :=
    read16_be16 response.answers_lt hanswers
  rw [readHeader, if_neg (by omega), hread2, hread4, hread6]
  dsimp only
  rw [if_neg response.isResponse, if_neg (not_not_intro response.noError)]

lemma question_reads :
    LiesAt (response.datagram behind).read dnsHeaderSize response.questionBytes :=
  liesAt_read response.header response.questionBytes
    (response.answers.flatMap WireRecord.bytes ++ response.rest) behind

lemma questionName_reads :
    LiesAt (response.datagram behind).read dnsHeaderSize response.question.bytes := by
  have hlies := question_reads response behind
  rw [questionBytes, Datagram.liesAt_append] at hlies
  exact hlies.1

lemma questionType_datagram :
    PubNub.questionType (response.datagram behind) 1 = some response.questionType := by
  have hsize := msgSize_datagram response behind
  have hlies := question_reads response behind
  rw [questionBytes, Datagram.liesAt_append, Datagram.liesAt_append] at hlies
  have hsize' : dnsHeaderSize + response.question.bytes.length ≤
      (response.datagram behind).msgSize := by omega
  obtain ⟨hskip, hok⟩ := dnsLabelDecode_name response.question hlies.1 hsize'
  rw [PubNub.questionType, if_neg (by decide)]
  dsimp only
  rw [hskip, if_pos ⟨hok response.question_root, by rw [hsize, questionDataSize]; omega⟩,
    read16_be16 response.questionType_lt hlies.2.1]

lemma skipQuestions_datagram : skipQuestions (response.datagram behind) 1 dnsHeaderSize =
    some (dnsHeaderSize + (response.question.bytes.length + questionDataSize)) := by
  have hsize := msgSize_datagram response behind
  have hsize' : dnsHeaderSize + response.question.bytes.length ≤
      (response.datagram behind).msgSize + 1 := by omega
  have hname := (dnsLabelDecode_name response.question (questionName_reads response behind)
    hsize').1
  have hlen := response.question.length_bytes
  have hpos : 0 < response.question.ending.bytes.length := by
    rw [response.question_root]
    exact Nat.one_pos
  rw [skipQuestions, if_neg (by omega)]
  dsimp only
  rw [hname, if_neg (fun h => by omega), skipQuestions, Nat.add_assoc]

lemma answers_read : LiesAt (response.datagram behind).read
    (dnsHeaderSize + (response.question.bytes.length + questionDataSize))
    (response.answers.flatMap WireRecord.bytes) := by
  have hlies := liesAt_read (response.header ++ response.questionBytes)
    (response.answers.flatMap WireRecord.bytes) response.rest behind
  rw [List.length_append, length_header, length_questionBytes, List.append_assoc] at hlies
  exact hlies

end Parts

end WireResponse

section Picked

variable {response : WireResponse} {b : AddressBuild} {spare : MultiAddresses}

/-- What is picked is what the loop over the answers notes. -/
lemma foldl_note_eq_picked (hquestion : response.questionType = dnsA ∨
      (b.useIpv6 = true ∧ response.questionType = dnsAaaa))
    (hanswers : ∀ record ∈ response.answers, record.type = response.questionType ∨
      (record.type ≠ dnsA ∧ record.type ≠ dnsAaaa)) :
    response.answers.foldl (fun f record => f.note b record)
      ⟨false, Vector.replicate 4 0, Vector.replicate 16 0, spare⟩ = response.picked b spare := by
  have htypes : ∀ record ∈ response.answers,
      record.type = response.questionType ∨ ¬ record.IsAddress b := by
    intro record hrecord
    refine (hanswers record hrecord).imp_right fun hother => ?_
    rintro (hA | ⟨-, hAaaa⟩)
    · exact hother.1 hA
    · exact hother.2 hAaaa
  rw [WireResponse.picked]
  rcases hquestion with hA | ⟨hipv6, hAaaa⟩
  · rw [hA] at htypes
    rw [if_pos hA, foldl_note_a htypes]
  · have hne : response.questionType ≠ dnsA := by
      rw [hAaaa]
      decide
    rw [hAaaa] at htypes
    rw [if_neg hne, foldl_note_aaaa hipv6 htypes]

lemma picked_addressFound (hquestion : response.questionType = dnsA ∨
      (b.useIpv6 = true ∧ response.questionType = dnsAaaa)) :
    (response.picked b spare).addressFound = false ↔
      ∀ record ∈ response.answers, record.type ≠ response.questionType := by
  rw [WireResponse.picked]
  rcases hquestion with hA | ⟨-, hAaaa⟩
  · rw [if_pos hA, hA]
    simp [FoundAddresses.withA]
  · have hne : dnsAaaa ≠ dnsA := by decide
    rw [hAaaa, if_neg hne]
    simp [FoundAddresses.withAaaa]

end Picked

/-- **The addresses of a well formed response.**  The type of the question is reported, the first
    address of this type is returned and the others are stored as far as there is room; and it
    fails exactly where there is no such address. -/
theorem addresses_picked (response : WireResponse) (b : AddressBuild) (behind : Bytes)
    (spare : MultiAddresses)
    (hquestion : response.questionType = dnsA ∨
      (b.useIpv6 = true ∧ response.questionType = dnsAaaa))
    (hanswers : ∀ record ∈ response.answers, record.type = response.questionType ∨
      (record.type ≠ dnsA ∧ record.type ≠ dnsAaaa)) :
    let p := pbdnsPickResolvedAddresses b (response.datagram behind) spare
    p.questionType = some response.questionType ∧ p.found = response.picked b spare ∧
      (p.ok = false ↔ ∀ record ∈ response.answers, record.type ≠ response.questionType) := by
  have hsize := response.msgSize_datagram behind
  have hpicked : _ = response.picked b spare := foldl_note_eq_picked hquestion hanswers
  have hfound : (response.picked b spare).addressFound = false ↔ _ := picked_addressFound hquestion
  rw [pbdnsPickResolvedAddresses, response.readHeader_datagram]
  dsimp only
  rw [response.questionType_datagram, response.skipQuestions_datagram]
  by_cases hnone : response.answers.length = 0
  · rw [if_pos hnone]
    rw [List.eq_nil_of_length_eq_zero hnone] at hpicked ⊢
    exact ⟨rfl, hpicked, by simp⟩
  · have hloop := findTheAnswer_reads (b := b) response.answers
      (dnsHeaderSize + (response.question.bytes.length + questionDataSize))
      ⟨false, Vector.replicate 4 0, Vector.replicate 16 0, spare⟩ (response.answers_read behind)
      (by omega) (fun _ => rfl)
    rw [hpicked] at hloop
    rw [if_neg hnone]
    dsimp only
    rw [if_neg (by omega), hloop]
    exact ⟨rfl, rfl, hfound⟩

/-- The answer to a question for the IPv4 address of the host `a`: an alias, whose name is a
    pointer, and an address with a time to live of a day. -/
def aliasResponse : WireResponse where
  id := 0x1234
  flags := 0x8180
  question := ⟨[[0x61]], .root, by decide, by decide⟩
  questionType := dnsA
  questionClass := 1
  answers := [
    ⟨⟨[], .pointer 12, by decide, by decide⟩, 5, 1, 60, [1, 0x62, 0], by decide, by decide,
      by decide, by decide, by decide, by decide⟩,
    ⟨⟨[[0x62]], .root, by decide, by decide⟩, dnsA, 1, 86400, [9, 8, 7, 6], by decide, by decide,
      by decide, by decide, by decide, by decide⟩]
  authorities := 0
  additionals := 0
  rest := []
  flags_lt := by decide
  isResponse := by decide
  noError := by decide
  question_root := rfl
  questionType_lt := by decide
  answers_lt := by decide

theorem addresses_picked_alias :
    let p := pbdnsPickResolvedAddresses ⟨true, true, 2, 2⟩ (aliasResponse.datagram [])
      ⟨0, [], 0, [], 0⟩
    p.questionType = some dnsA ∧ p.ok = true ∧ p.found.ipv4 = #v[9, 8, 7, 6] ∧
      p.found.spare.ipv4Addresses = [(#v[9, 8, 7, 6], 65535)] := by
  obtain ⟨htype, hfound, hok⟩ := addresses_picked aliasResponse ⟨true, true, 2, 2⟩ []
    ⟨0, [], 0, [], 0⟩ (.inl rfl) (by decide)
  dsimp only at htype hfound hok ⊢
  rw [hfound]
  refine ⟨htype, ?_, by decide +kernel, by decide +kernel⟩
  rw [← Bool.not_eq_false, hok]
  decide

end PubNub
