import PubNubCore.Dns.Messages
import PubNubCore.Lib.CharArray

/-!
# Requests to a DNS server

`pbdns_prepare_dns_request` of `lib/pubnub_dns_codec.c`, and that the decoder reads the question
back.  The encoder of a host name goes over its characters once: it copies them, and at each dot and
at the end it goes back to the byte before the label and puts the length there.

The buffer is an array of `buf_size` bytes, and the result is `none` where something is written
outside of it, or where a length becomes an `int` that cannot hold it.
-/

namespace PubNub

variable {n : Nat}

/-! ## The encoder -/

/-- `MAX_ALPHABET_STRETCH_LENGTH`. -/
def maxAlphabetStretchLength : Nat := 63

/-- Ends a label, of which `lpos` is the place of the length and `dest` the place behind it.  The
    length is stored only if it is the one of a label. -/
def endLabel (a : CharArray n) (dest lpos : Nat) : Option (CharArray n × Bool) :=
  let d := dest - lpos
  (a.write dest [0]).bind fun a =>
    if d = 1 ∨ maxAlphabetStretchLength < d - 1 then some (a, false)
    else (a.write lpos [UInt8.ofNat (d - 1)]).map fun a => (a, true)

/-- The loop of `dns_qname_encode`; the place behind the name, or `none` for -1. -/
def dnsQnameLoop : CharArray n → (dest lpos : Nat) → Bytes → Option (CharArray n × Option Nat)
  | a, dest, lpos, [] =>
      (endLabel a dest lpos).map fun (a, ok) => (a, if ok then some (dest + 1) else none)
  | a, dest, lpos, hc :: host =>
      if hc ≠ 46 then (a.write dest [hc]).bind fun a => dnsQnameLoop a (dest + 1) lpos host
      else (endLabel a dest lpos).bind fun (a, ok) =>
        if ok then dnsQnameLoop a (dest + 1) dest host else some (a, none)

/-- `dns_qname_encode`, into the array from `dns` on. -/
def dnsQnameEncode (a : CharArray n) (dns : Nat) (host : Bytes) :
    Option (CharArray n × Option Nat) :=
  (a.write dns [0]).bind fun a => (dnsQnameLoop a (dns + 1) dns host).bind fun (a, dest) =>
    match dest with
    | none => some (a, none)
    | some dest => (asInt (dest - dns)).map fun length => (a, some length)

/-- The header of a request with one question. -/
def requestHeader (id : UInt16) : Bytes :=
  [(id >>> 8).toUInt8, id.toUInt8, 1, 0, 0, 1, 0, 0, 0, 0, 0, 0]

/-- What `pbdns_prepare_dns_request` comes back with: whether it returns 0, the buffer, and
    `*to_send`. -/
structure PreparedRequest (n : Nat) where
  ok : Bool
  buf : CharArray n
  toSend : Nat

/-- `pbdns_prepare_dns_request`.  `id` is what `rand()` comes up with. -/
def pbdnsPrepareDnsRequest (buf : CharArray n) (host : Bytes) (queryType : UInt8) (id : UInt16) :
    Option (PreparedRequest n) :=
  if n < dnsHeaderSize + host.length + 2 + questionDataSize then some ⟨false, buf, 0⟩
  else (buf.write 0 (requestHeader id)).bind fun buf =>
    (dnsQnameEncode buf dnsHeaderSize host).bind fun (buf, qnameEncodedLength) =>
      match qnameEncodedLength with
      | none => some ⟨false, buf, dnsHeaderSize⟩
      | some length =>
          (asInt (dnsHeaderSize + length + questionDataSize)).bind fun toSend =>
            (buf.write (dnsHeaderSize + length) [0, queryType, 0, 1]).map fun buf =>
              ⟨true, buf, toSend⟩

/-! ## Host names -/

/-- The host is made of labels with a dot between them. -/
def IsHostName (host : Bytes) : Prop :=
  ∀ label ∈ host.splitOn 46, 0 < label.length ∧ label.length < 64

instance (host : Bytes) : Decidable (IsHostName host) :=
  inferInstanceAs (Decidable (∀ label ∈ host.splitOn 46, _))

/-- The encoded name. -/
def qname (labels : List Bytes) : Bytes := labels.flatMap labelBytes ++ [0]

/-- The labels of a host of which `cur` has been read already. -/
def labelsFrom (cur host : Bytes) : List Bytes := (host.splitOn 46).modifyHead (cur ++ ·)

section Labels

variable {cur host : Bytes} {hc : UInt8}

lemma labelsFrom_nil (host : Bytes) : labelsFrom [] host = host.splitOn 46 := by
  rw [labelsFrom]
  cases host.splitOn 46 with
  | nil => rfl
  | cons label labels => rfl

@[simp] lemma labelsFrom_end (cur : Bytes) : labelsFrom cur [] = [cur] := by
  simp [labelsFrom]

lemma labelsFrom_dot (cur host : Bytes) :
    labelsFrom cur (46 :: host) = cur :: labelsFrom [] host := by
  rw [labelsFrom_nil, labelsFrom, List.splitOn_cons_eq_if_modifyHead]
  simp

lemma labelsFrom_cons (h : hc ≠ 46) :
    labelsFrom cur (hc :: host) = labelsFrom (cur ++ [hc]) host := by
  rw [labelsFrom, labelsFrom, List.splitOn_cons_eq_if_modifyHead, if_neg (by simpa using h)]
  cases host.splitOn 46 with
  | nil => rfl
  | cons label labels => simp

/-- One byte for each label takes the place of the dot behind it. -/
lemma length_qname_labelsFrom (cur host : Bytes) :
    (qname (labelsFrom cur host)).length = cur.length + host.length + 2 := by
  induction host generalizing cur with
  | nil => simp [qname, labelBytes]
  | cons hc host ih =>
      by_cases h : hc = 46
      · subst h
        have hrest := ih []
        rw [qname, List.length_append, List.length_nil, List.length_singleton] at hrest
        rw [labelsFrom_dot, qname, List.flatMap_cons, List.append_assoc, List.length_append,
          List.length_append, labelBytes, List.length_cons, List.length_singleton, List.length_cons]
        omega
      · rw [labelsFrom_cons h, ih, List.length_append, List.length_singleton, List.length_cons]
        omega

end Labels

/-! ## What the encoder stores -/

section Stored

variable {a : CharArray n} {front cur back : Bytes} {old : UInt8}

/-- A label that has come to its end. -/
lemma endLabel_eq (ha : a.bytes = front ++ old :: (cur ++ back)) (hback : 1 ≤ back.length) :
    (0 < cur.length ∧ cur.length < 64 →
      ∃ b, endLabel a (front.length + 1 + cur.length) front.length = some (b, true) ∧
        b.bytes = front ++ labelBytes cur ++ 0 :: back.drop 1) ∧
    (¬ (0 < cur.length ∧ cur.length < 64) →
      ∃ b, endLabel a (front.length + 1 + cur.length) front.length = some (b, false)) := by
  have hsplit : a.bytes = (front ++ old :: cur) ++ back := by rw [ha]; simp
  obtain ⟨b, hb, hbytes⟩ := CharArray.exists_write (s := [0]) hsplit hback
  have hplace : (front ++ old :: cur).length = front.length + 1 + cur.length := by
    rw [List.length_append, List.length_cons]
    omega
  rw [hplace] at hb
  have hd : front.length + 1 + cur.length - front.length = cur.length + 1 := by omega
  rw [endLabel, hb, Option.bind_some, hd, maxAlphabetStretchLength, Nat.add_sub_cancel]
  constructor
  · rintro ⟨hpos, hlt⟩
    have hold : b.bytes = front ++ (old :: (cur ++ 0 :: back.drop 1)) := by
      rw [hbytes]
      simp
    obtain ⟨c, hc, hbytes'⟩ := CharArray.exists_write (s := [UInt8.ofNat cur.length]) hold
      (by simp)
    rw [if_neg (by omega), hc]
    refine ⟨c, rfl, ?_⟩
    rw [hbytes', labelBytes]
    simp
  · intro hbad
    rw [if_pos (by omega)]
    exact ⟨b, rfl⟩

/-- **The encoder of host names** stores the name, if all labels have the length of one. -/
lemma dnsQnameLoop_eq {host : Bytes} (ha : a.bytes = front ++ old :: (cur ++ back))
    (hback : host.length + 1 ≤ back.length) :
    ((∀ label ∈ labelsFrom cur host, 0 < label.length ∧ label.length < 64) →
      ∃ b, dnsQnameLoop a (front.length + 1 + cur.length) front.length host =
          some (b, some (front.length + (cur.length + host.length + 2))) ∧
        b.bytes = front ++ qname (labelsFrom cur host) ++ back.drop (host.length + 1)) ∧
    ((¬ ∀ label ∈ labelsFrom cur host, 0 < label.length ∧ label.length < 64) →
      ∃ b, dnsQnameLoop a (front.length + 1 + cur.length) front.length host = some (b, none)) := by
  induction host generalizing a front old cur back with
  | nil =>
      obtain ⟨hgood, hbad⟩ := endLabel_eq ha hback
      rw [dnsQnameLoop, labelsFrom_end, List.forall_mem_singleton]
      constructor
      · intro h
        obtain ⟨b, hb, hbytes⟩ := hgood h
        refine ⟨b, ?_, ?_⟩
        · rw [hb, List.length_nil]
          simp only [Option.map_some, if_true]
          congr 3
          omega
        · rw [hbytes, qname]
          simp
      · intro h
        obtain ⟨b, hb⟩ := hbad h
        exact ⟨b, by rw [hb]; rfl⟩
  | cons hc host ih =>
      rw [List.length_cons] at hback
      by_cases h : hc = 46
      · subst h
        obtain ⟨hgood, hbad⟩ := endLabel_eq ha (by omega)
        rw [dnsQnameLoop, if_neg (by simp), labelsFrom_dot, List.forall_mem_cons]
        by_cases hcur : 0 < cur.length ∧ cur.length < 64
        · obtain ⟨b, hb, hbytes⟩ := hgood hcur
          have hplace : (front ++ labelBytes cur).length = front.length + 1 + cur.length := by
            rw [List.length_append, labelBytes, List.length_cons]
            omega
          have hbytes₀ : b.bytes = (front ++ labelBytes cur) ++ 0 :: ([] ++ back.drop 1) := hbytes
          have hrest := ih hbytes₀ (by rw [List.length_drop]; omega)
          rw [hplace, List.length_nil, Nat.add_zero] at hrest
          simp only [hb, Option.bind_some, if_true]
          constructor
          · rintro ⟨-, hlabels⟩
            obtain ⟨c, hc, hbytes'⟩ := hrest.1 hlabels
            refine ⟨c, ?_, ?_⟩
            · rw [hc, List.length_cons]
              congr 3
              omega
            · rw [hbytes', qname, qname, List.flatMap_cons, List.drop_drop, List.length_cons]
              simp [Nat.add_comm]
          · intro hlabels
            exact hrest.2 fun hall => hlabels ⟨hcur, hall⟩
        · obtain ⟨b, hb⟩ := hbad hcur
          rw [hb]
          exact ⟨fun hlabels => absurd hlabels.1 hcur, fun _ => ⟨b, rfl⟩⟩
      · have hsplit : a.bytes = (front ++ old :: cur) ++ back := by rw [ha]; simp
        obtain ⟨b, hb, hbytes⟩ := CharArray.exists_write (s := [hc]) hsplit
          (by rw [List.length_singleton]; omega)
        have hplace : (front ++ old :: cur).length = front.length + 1 + cur.length := by
          rw [List.length_append, List.length_cons]
          omega
        have hnext : b.bytes = front ++ old :: ((cur ++ [hc]) ++ back.drop 1) := by
          rw [hbytes]
          simp
        have hrest := ih hnext (by rw [List.length_drop]; omega)
        rw [List.length_append, List.length_singleton, ← Nat.add_assoc, List.drop_drop] at hrest
        rw [hplace] at hb
        rw [dnsQnameLoop, if_pos h, hb, Option.bind_some, labelsFrom_cons h, List.length_cons,
          Nat.add_comm (host.length + 1) 1]
        have hsum : cur.length + 1 + host.length + 2 = cur.length + (host.length + 1) + 2 := by
          omega
        rw [hsum] at hrest
        exact hrest

end Stored

/-! ## What the decoder reads -/

section Read

variable {d : Datagram} {labels : List Bytes}

lemma joinLabels_of_ne_nil {decoded : Bytes} (h : decoded ≠ []) :
    joinLabels decoded labels = decoded ++ labels.flatMap (46 :: ·) := by
  induction labels generalizing decoded with
  | nil => simp [joinLabels]
  | cons label labels ih =>
      rw [joinLabels, if_neg h, ih (by simp [ascii]), List.flatMap_cons]
      simp [ascii]

/-- The decoder puts the dots back. -/
lemma joinLabels_eq (h : ∀ label ∈ labels, 0 < label.length) :
    joinLabels [] labels = [46].intercalate labels := by
  cases labels with
  | nil => rfl
  | cons label labels =>
      rw [List.forall_mem_cons] at h
      rw [joinLabels, if_pos rfl, List.nil_append,
        joinLabels_of_ne_nil (List.ne_nil_of_length_pos h.1)]
      clear h
      induction labels generalizing label with
      | nil => simp
      | cons next labels ih => rw [List.intercalate_cons_cons, ← ih next, List.flatMap_cons]; simp

/-- A name without a pointer is decoded as it is, if its text is shorter than the array for it. -/
lemma dnsLabelDecode_qname {m src size : Nat}
    (hlabel : ∀ label ∈ labels, 0 < label.length ∧ label.length < 64)
    (h : LiesAt d.read src (qname labels)) (hsize : src + (qname labels).length ≤ size)
    (hshort : (joinLabels [] labels).length < m) :
    dnsLabelDecode d m src size = ⟨true, joinLabels [] labels, (qname labels).length⟩ := by
  rw [qname, Datagram.liesAt_append] at h
  obtain ⟨hlabels, hzero, -⟩ := h
  rw [qname, List.length_append, List.length_singleton] at hsize ⊢
  have hcount := length_le_flatMap_labelBytes labels
  obtain ⟨fuel, hfuel⟩ : ∃ fuel, (maximumLoopPasses + 2) * (size + 2) =
      fuel + 1 + labels.length := by
    refine ⟨(maximumLoopPasses + 2) * (size + 2) - 1 - labels.length, ?_⟩
    rw [maximumLoopPasses]
    omega
  rw [dnsLabelDecode, hfuel, dnsLabelLoop_labels hlabel hlabels (by omega) hshort, dnsLabelLoop,
    hzero]
  simp only [UInt8.toNat_zero, Nat.zero_and, if_true]
  rw [if_neg (by decide)]
  congr 1
  omega

end Read

/-! ## Requests -/

section Requests

variable {buf : CharArray n} {host : Bytes} {queryType : UInt8} {id : UInt16}

/-- The bytes of a request. -/
def requestBytes (host : Bytes) (queryType : UInt8) (id : UInt16) : Bytes :=
  requestHeader id ++ (qname (host.splitOn 46) ++ [0, queryType, 0, 1])

/-- The name of a request is encoded behind its header. -/
lemma dnsQnameEncode_eq (hfits : dnsHeaderSize + host.length + 2 + questionDataSize ≤ n)
    (hbuf : ∃ back, buf.bytes = requestHeader id ++ back) :
    (IsHostName host → if host.length + 2 < 2 ^ 31 then
      ∃ b back, dnsQnameEncode buf dnsHeaderSize host = some (b, some (host.length + 2)) ∧
        b.bytes = requestHeader id ++ qname (host.splitOn 46) ++ back
      else dnsQnameEncode buf dnsHeaderSize host = none) ∧
    (¬ IsHostName host → ∃ b, dnsQnameEncode buf dnsHeaderSize host = some (b, none)) := by
  obtain ⟨back, hback⟩ := hbuf
  have hheader : (requestHeader id).length = dnsHeaderSize := rfl
  have hlength := buf.length_bytes
  rw [hback, List.length_append, hheader] at hlength
  rw [questionDataSize] at hfits
  obtain ⟨b, hb, hbytes⟩ := CharArray.exists_write (s := [0]) hback
    (by rw [List.length_singleton]; omega)
  have hstart : b.bytes = requestHeader id ++ 0 :: ([] ++ back.drop 1) := by
    rw [hbytes]
    simp
  have hroom : host.length + 1 ≤ (back.drop 1).length := by
    rw [List.length_drop]
    omega
  have hloop := dnsQnameLoop_eq hstart hroom
  rw [hheader, List.length_nil, labelsFrom_nil, Nat.add_zero, Nat.zero_add] at hloop
  rw [hheader] at hb
  rw [dnsQnameEncode, hb, Option.bind_some]
  constructor
  · intro hhost
    obtain ⟨c, hc, hbytes'⟩ := hloop.1 hhost
    rw [hc]
    simp only [Option.bind_some, Nat.add_sub_cancel_left]
    rw [asInt]
    split
    · exact ⟨c, _, rfl, hbytes'⟩
    · rfl
  · intro hhost
    obtain ⟨c, hc⟩ := hloop.2 hhost
    exact ⟨c, by rw [hc]; rfl⟩

/-- The question of a prepared request, in a datagram with the bytes that are sent, is read as the
    host and the type it was made for. -/
def PreparedRequest.Reads (p : PreparedRequest n) (host : Bytes) (queryType : UInt8) : Prop :=
  ∀ (behind : Bytes) (m size : Nat), host.length < m → p.toSend ≤ size →
    let d : Datagram := ⟨p.buf.bytes.take p.toSend, behind⟩
    let name := dnsLabelDecode d m dnsHeaderSize size
    name.ok = true ∧ name.decoded = host ∧
      d.read16 (dnsHeaderSize + name.bytesToSkip) = queryType.toNat

lemma length_qname (host : Bytes) : (qname (host.splitOn 46)).length = host.length + 2 := by
  have h := length_qname_labelsFrom [] host
  rwa [labelsFrom_nil, List.length_nil, Nat.zero_add] at h

/-- The bytes of a request are read back. -/
lemma reads_of_bytes {p : PreparedRequest n} {back : Bytes} (hhost : IsHostName host)
    (hbytes : p.buf.bytes = requestBytes host queryType id ++ back)
    (hsend : p.toSend = dnsHeaderSize + (host.length + 2) + questionDataSize) :
    p.Reads host queryType := by
  intro behind m size hm hsize
  have hlength : (requestBytes host queryType id).length = p.toSend := by
    rw [requestBytes, List.length_append, List.length_append, length_qname, hsend]
    rfl
  rw [hsend, questionDataSize] at hsize
  rw [hbytes, ← hlength, List.take_left, requestBytes]
  have hname : LiesAt (Datagram.read ⟨requestHeader id ++ (qname (host.splitOn 46) ++
      [0, queryType, 0, 1]), behind⟩) dnsHeaderSize (qname (host.splitOn 46)) :=
    liesAt_read (requestHeader id) (qname (host.splitOn 46)) [0, queryType, 0, 1] behind
  have htype := liesAt_read (requestHeader id ++ qname (host.splitOn 46)) [0, queryType, 0, 1] []
    behind
  rw [List.append_nil, List.append_assoc, List.length_append] at htype
  have hjoin : joinLabels [] (host.splitOn 46) = host := by
    rw [joinLabels_eq fun label hlabel => (hhost label hlabel).1, List.intercalate_splitOn]
  have hinside : dnsHeaderSize + (qname (host.splitOn 46)).length ≤ size := by
    rw [length_qname]
    omega
  have hshort : (joinLabels [] (host.splitOn 46)).length < m := by rwa [hjoin]
  have hdecode := dnsLabelDecode_qname hhost hname hinside hshort
  dsimp only
  rw [hdecode]
  refine ⟨rfl, hjoin, ?_⟩
  have hplace : (requestHeader id).length = dnsHeaderSize := rfl
  rw [hplace] at htype
  obtain ⟨hhigh, hlow, -⟩ := htype
  rw [Datagram.read16, hhigh, hlow, UInt8.toNat_zero]
  omega

/-- What comes of a host for which there is room. -/
lemma pbdnsPrepareDnsRequest_eq (buf : CharArray n) (host : Bytes) (queryType : UInt8)
    (id : UInt16) (hfits : dnsHeaderSize + host.length + 2 + questionDataSize ≤ n) :
    (IsHostName host → if dnsHeaderSize + host.length + 2 + questionDataSize < 2 ^ 31 then
      ∃ p, pbdnsPrepareDnsRequest buf host queryType id = some p ∧ p.ok = true ∧
        p.Reads host queryType
      else pbdnsPrepareDnsRequest buf host queryType id = none) ∧
    (¬ IsHostName host →
      ∃ p, pbdnsPrepareDnsRequest buf host queryType id = some p ∧ p.ok = false) := by
  have hheader : (requestHeader id).length = dnsHeaderSize := rfl
  have hwhole : buf.bytes = [] ++ buf.bytes := rfl
  have hroom : (requestHeader id).length ≤ buf.bytes.length := by
    rw [hheader, buf.length_bytes]
    omega
  obtain ⟨a, ha, hbytes⟩ := CharArray.exists_write hwhole hroom
  have hname := dnsQnameEncode_eq hfits ⟨_, by rw [hbytes, List.nil_append]⟩
  rw [List.length_nil] at ha
  rw [pbdnsPrepareDnsRequest, if_neg (Nat.not_lt.mpr hfits), ha, Option.bind_some]
  constructor
  · intro hhost
    have hencoded := hname.1 hhost
    rw [dnsHeaderSize, questionDataSize] at hfits ⊢
    split
    · rename_i hlt
      rw [if_pos (by omega)] at hencoded
      obtain ⟨b, back, hb, hbytes'⟩ := hencoded
      have hlength := b.length_bytes
      have hlast : (requestHeader id ++ qname (host.splitOn 46)).length = 12 + (host.length + 2) := by
        rw [List.length_append, length_qname]
        rfl
      rw [hbytes', List.length_append, hlast] at hlength
      obtain ⟨c, hc, hbytes''⟩ := CharArray.exists_write (s := [0, queryType, 0, 1]) hbytes'
        (by change 4 ≤ _; omega)
      rw [hlast] at hc
      rw [dnsHeaderSize] at hb
      simp only [hb, Option.bind_some]
      rw [asInt, if_pos (by omega), Option.bind_some, hc]
      have hrequest : c.bytes = requestBytes host queryType id ++ back.drop 4 := by
        rw [hbytes'', requestBytes]
        simp
      exact ⟨_, rfl, rfl, reads_of_bytes hhost hrequest rfl⟩
    · rename_i hlt
      by_cases hint : host.length + 2 < 2 ^ 31
      · rw [if_pos hint] at hencoded
        obtain ⟨b, back, hb, -⟩ := hencoded
        rw [dnsHeaderSize] at hb
        simp only [hb, Option.bind_some]
        rw [asInt, if_neg (by omega)]
        rfl
      · rw [if_neg hint, dnsHeaderSize] at hencoded
        rw [hencoded]
        rfl
  · intro hhost
    obtain ⟨b, hb⟩ := hname.2 hhost
    rw [hb]
    exact ⟨_, rfl, rfl⟩

end Requests

/-- Labels of 63 characters each but for the last one. -/
def longHostLabels (k : Nat) : List Bytes :=
  List.replicate k (List.replicate 63 97) ++ [List.replicate 55 97]

noncomputable def longHost (k : Nat) : Bytes := [46].intercalate (longHostLabels k)

lemma mem_longHostLabels {k : Nat} {label : Bytes} (h : label ∈ longHostLabels k) :
    ∃ m, 0 < m ∧ m < 64 ∧ label = List.replicate m 97 := by
  rcases List.mem_append.mp h with h | h
  · exact ⟨63, by omega, by omega, List.eq_of_mem_replicate h⟩
  · exact ⟨55, by omega, by omega, List.mem_singleton.mp h⟩

lemma splitOn_longHost (k : Nat) : (longHost k).splitOn 46 = longHostLabels k := by
  refine List.splitOn_intercalate 46 (fun label h hdot => ?_) (by simp [longHostLabels])
  obtain ⟨m, -, -, rfl⟩ := mem_longHostLabels h
  exact absurd (List.eq_of_mem_replicate hdot) (by decide)

lemma isHostName_longHost (k : Nat) : IsHostName (longHost k) := by
  rw [IsHostName, splitOn_longHost]
  intro label h
  obtain ⟨m, hpos, hlt, rfl⟩ := mem_longHostLabels h
  rw [List.length_replicate]
  exact ⟨hpos, hlt⟩

lemma length_longHost (k : Nat) : (longHost k).length = k * 64 + 55 := by
  have h := length_qname (longHost k)
  rw [splitOn_longHost, qname, longHostLabels, List.flatMap_append, List.length_append,
    List.length_append, List.length_flatMap, List.map_replicate, List.sum_replicate_nat] at h
  simp only [labelBytes, List.length_cons, List.length_replicate, List.flatMap_cons,
    List.flatMap_nil, List.append_nil, List.length_nil] at h
  omega

/-- It has room in a buffer of 2 GiB, but its request does not have a length. -/
lemma pbdnsPrepareDnsRequest_longHost {k : Nat} (hk : k + 1 = 2 ^ 25) :
    IsHostName (longHost k) ∧ (longHost k).length + 18 ≤ 2 ^ 31 + 9 ∧
      pbdnsPrepareDnsRequest (CharArray.blank (2 ^ 31 + 9)) (longHost k) 1 0 = none := by
  have hlength := length_longHost k
  have hfits : dnsHeaderSize + (longHost k).length + 2 + questionDataSize ≤ 2 ^ 31 + 9 := by
    rw [dnsHeaderSize, questionDataSize]
    omega
  have hprepared := (pbdnsPrepareDnsRequest_eq (CharArray.blank (2 ^ 31 + 9)) (longHost k) 1 0
    hfits).1 (isHostName_longHost k)
  rw [if_neg (by rw [dnsHeaderSize, questionDataSize]; omega)] at hprepared
  exact ⟨isHostName_longHost k, by omega, hprepared⟩

end PubNub
