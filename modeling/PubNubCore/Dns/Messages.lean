import PubNubCore.Dns.Codec
import PubNubCore.Lib.Placed

/-!
# Well formed responses

The wire format of DNS responses with one question, and what the functions of the decoder do at
its parts.  A name is a list of labels that ends with the root or with a pointer; where a pointer
leads makes no difference to how far the name goes, so nothing is asked of it.
-/

namespace PubNub

/-! ## The wire format -/

/-- Two bytes in network byte order. -/
def be16 (v : Nat) : Bytes := [UInt8.ofNat (v / 256), UInt8.ofNat (v % 256)]

/-- Four bytes in network byte order. -/
def be32 (v : Nat) : Bytes := be16 (v / 65536) ++ be16 (v % 65536)

/-- How a name ends. -/
inductive NameEnd
  | root
  | pointer (offset : Fin (2 ^ 14))

def NameEnd.bytes : NameEnd → Bytes
  | .root => [0]
  | .pointer offset => be16 (0xC000 + offset)

def labelBytes (label : Bytes) : Bytes := UInt8.ofNat label.length :: label

/-- A name, which takes at most 255 bytes. -/
structure WireName where
  labels : List Bytes
  ending : NameEnd
  isLabel : ∀ label ∈ labels, 0 < label.length ∧ label.length < 64
  short : (labels.flatMap labelBytes).length < 255

def WireName.bytes (name : WireName) : Bytes := name.labels.flatMap labelBytes ++ name.ending.bytes

/-- A resource record; the data of an address is as long as the address. -/
structure WireRecord where
  name : WireName
  type : Nat
  class_ : Nat
  ttl : Nat
  data : Bytes
  type_lt : type < 2 ^ 16
  class_lt : class_ < 2 ^ 16
  ttl_lt : ttl < 2 ^ 32
  data_lt : data.length < 2 ^ 16
  data_a : type = dnsA → data.length = 4
  data_aaaa : type = dnsAaaa → data.length = 16

def WireRecord.bytes (record : WireRecord) : Bytes :=
  record.name.bytes ++ (be16 record.type ++ (be16 record.class_ ++ (be32 record.ttl ++
    (be16 record.data.length ++ record.data))))

/-- A response to one question, without an error. -/
structure WireResponse where
  id : Nat
  flags : Nat
  question : WireName
  questionType : Nat
  questionClass : Nat
  answers : List WireRecord
  authorities : Nat
  additionals : Nat
  /-- The sections behind the answers. -/
  rest : Bytes
  flags_lt : flags < 2 ^ 16
  isResponse : flags &&& 0x8000 ≠ 0
  noError : flags &&& 0x000F = 0
  question_root : question.ending = .root
  questionType_lt : questionType < 2 ^ 16
  answers_lt : answers.length < 2 ^ 16

namespace WireResponse

variable (response : WireResponse)

def header : Bytes := be16 response.id ++ (be16 response.flags ++ (be16 1 ++
  (be16 response.answers.length ++ (be16 response.authorities ++ be16 response.additionals))))

def questionBytes : Bytes :=
  response.question.bytes ++ (be16 response.questionType ++ be16 response.questionClass)

def bytes : Bytes := response.header ++ (response.questionBytes ++
  (response.answers.flatMap WireRecord.bytes ++ response.rest))

end WireResponse

/-! ## Numbers and names -/

section Names

variable {d : Datagram} {p : Nat} {t : Bytes}

lemma liesAt_read (pre t post behind : Bytes) :
    LiesAt (Datagram.read ⟨pre ++ (t ++ post), behind⟩) pre.length t := by
  have h := liesAt_getD (x := 0) pre t (post ++ behind)
  simp only [← List.append_assoc] at h ⊢
  exact h

lemma Datagram.liesAt_append {u : Bytes} :
    LiesAt d.read p (t ++ u) ↔ LiesAt d.read p t ∧ LiesAt d.read (p + t.length) u :=
  PubNub.liesAt_append

lemma toNat_ofNat_of_lt {v : Nat} (h : v < 256) : (UInt8.ofNat v).toNat = v := by
  rw [UInt8.toNat_ofNat']
  exact Nat.mod_eq_of_lt h

@[simp] lemma length_be16 (v : Nat) : (be16 v).length = 2 := rfl

@[simp] lemma length_be32 (v : Nat) : (be32 v).length = 4 := rfl

/-- A number is read back. -/
lemma read16_be16 {v : Nat} (hv : v < 2 ^ 16) (h : LiesAt d.read p (be16 v)) : d.read16 p = v := by
  obtain ⟨hhigh, hlow, -⟩ := h
  rw [Datagram.read16, hhigh, hlow, toNat_ofNat_of_lt (by omega), toNat_ofNat_of_lt (by omega)]
  omega

/-- Once it is known how far a name goes, it stays known. -/
lemma dnsLabelLoop_bytesToSkip {n src size fuel : Nat} {decoded : Bytes} {reader pass skip : Nat}
    (h : skip ≠ 0) :
    (dnsLabelLoop d n src size fuel decoded reader pass skip).bytesToSkip = skip := by
  induction fuel generalizing decoded reader pass with
  | zero => rfl
  | succ fuel ih =>
      rw [dnsLabelLoop]
      dsimp only
      generalize (if decoded = [] then decoded else decoded ++ ascii ".") = dotted
      simp only [if_neg h]
      split
      · split
        · rfl
        · exact ih
      · split
        · rfl
        · split
          · split
            · rfl
            · split
              · rfl
              · exact ih
          · rfl

/-- The text of labels, behind what has been decoded before them. -/
def joinLabels : Bytes → List Bytes → Bytes
  | decoded, [] => decoded
  | decoded, label :: labels =>
      joinLabels ((if decoded = [] then decoded else decoded ++ ascii ".") ++ label) labels

lemma length_le_joinLabels (decoded : Bytes) (labels : List Bytes) :
    decoded.length ≤ (joinLabels decoded labels).length := by
  induction labels generalizing decoded with
  | nil => exact Nat.le_refl _
  | cons label labels ih =>
      refine Nat.le_trans ?_ (ih _)
      rw [List.length_append]
      split
      · exact Nat.le_add_right _ _
      · rw [List.length_append]
        omega

lemma length_joinLabels_le (decoded : Bytes) (labels : List Bytes) :
    (joinLabels decoded labels).length ≤ decoded.length + (labels.flatMap labelBytes).length := by
  induction labels generalizing decoded with
  | nil => exact Nat.le_refl _
  | cons label labels ih =>
      refine Nat.le_trans (ih _) ?_
      rw [List.flatMap_cons, List.length_append, List.length_append, labelBytes, List.length_cons]
      split
      · omega
      · rw [List.length_append]
        change decoded.length + 1 + label.length + _ ≤ _
        omega

/-- What lies at a place is what is read there. -/
lemma map_read_range {k : Nat} (h : LiesAt d.read p t) (hk : t.length = k) :
    ((List.range k).map fun i => d.read (p + i)) = t := by
  induction t generalizing p k with
  | nil =>
      subst hk
      rfl
  | cons c t ih =>
      subst hk
      obtain ⟨hc, hrest⟩ := h
      rw [List.length_cons, List.range_succ_eq_map, List.map_cons, List.map_map, Nat.add_zero, hc]
      congr 1
      refine Eq.trans (List.map_congr_left fun i _ => ?_) (ih hrest rfl)
      rw [Function.comp_apply, Nat.succ_eq_add_one, Nat.add_right_comm, Nat.add_assoc]

/-- The loop passes over the labels of a name, and their text is decoded. -/
lemma dnsLabelLoop_labels {labels : List Bytes} {n src size fuel reader pass : Nat}
    {decoded : Bytes} (hlabel : ∀ label ∈ labels, 0 < label.length ∧ label.length < 64)
    (h : LiesAt d.read reader (labels.flatMap labelBytes))
    (hsize : reader + (labels.flatMap labelBytes).length < size)
    (hshort : (joinLabels decoded labels).length < n) :
    dnsLabelLoop d n src size (fuel + labels.length) decoded reader pass 0 =
      dnsLabelLoop d n src size fuel (joinLabels decoded labels)
        (reader + (labels.flatMap labelBytes).length) pass 0 := by
  induction labels generalizing reader decoded with
  | nil => rfl
  | cons label labels ih =>
      rw [List.forall_mem_cons] at hlabel
      obtain ⟨⟨hpos, hlt⟩, hlabels⟩ := hlabel
      rw [List.flatMap_cons, Datagram.liesAt_append] at h
      obtain ⟨⟨hbyte, hlies⟩, hrest⟩ := h
      have hlen : ((label :: labels).flatMap labelBytes).length =
          label.length + 1 + (labels.flatMap labelBytes).length := by
        rw [List.flatMap_cons, List.length_append, labelBytes, List.length_cons]
      rw [hlen] at hsize
      have hb : (d.read reader).toNat = label.length := by
        rw [hbyte, toNat_ofNat_of_lt (by omega)]
      have hmask : label.length &&& 0xC0 = 0 := by
        have hall : ∀ k < 64, k &&& 0xC0 = 0 := by decide
        exact hall _ hlt
      rw [hlen, List.length_cons, ← Nat.add_assoc, dnsLabelLoop]
      dsimp only
      rw [hb, hmask, if_neg (by decide), if_neg (by omega), if_pos rfl]
      rw [joinLabels] at hshort ⊢
      generalize (if decoded = [] then decoded else decoded ++ ascii ".") = dotted at hshort ⊢
      have hle := length_le_joinLabels (dotted ++ label) labels
      rw [List.length_append] at hle
      have hplace : reader + (labelBytes label).length = reader + label.length + 1 := rfl
      rw [hplace] at hrest
      rw [if_neg (by omega), if_neg (by omega), map_read_range hlies rfl,
        ih hlabels hrest (by omega) hshort]
      congr 1
      omega

lemma WireName.length_bytes (name : WireName) : name.bytes.length =
    (name.labels.flatMap labelBytes).length + name.ending.bytes.length :=
  List.length_append

lemma length_le_flatMap_labelBytes (labels : List Bytes) :
    labels.length ≤ (labels.flatMap labelBytes).length := by
  induction labels with
  | nil => exact Nat.le_refl 0
  | cons label labels ih =>
      rw [List.flatMap_cons, List.length_append, labelBytes, List.length_cons, List.length_cons]
      omega

/-- **How far a name goes** is found out, wherever its pointer leads; and a name without a pointer
    is decoded. -/
theorem dnsLabelDecode_name (name : WireName) {src size : Nat} (h : LiesAt d.read src name.bytes)
    (hsize : src + name.bytes.length ≤ size) :
    (dnsLabelDecode d 256 src size).bytesToSkip = name.bytes.length ∧
      (name.ending = .root → (dnsLabelDecode d 256 src size).ok = true) := by
  rw [WireName.bytes, Datagram.liesAt_append] at h
  obtain ⟨hlabels, hending⟩ := h
  have hlen := name.length_bytes
  have hcount := length_le_flatMap_labelBytes name.labels
  obtain ⟨fuel, hfuel⟩ : ∃ fuel, (maximumLoopPasses + 2) * (size + 2) =
      fuel + 1 + name.labels.length := by
    refine ⟨(maximumLoopPasses + 2) * (size + 2) - 1 - name.labels.length, ?_⟩
    rw [maximumLoopPasses]
    omega
  have hpos : 0 < name.ending.bytes.length := by
    cases name.ending with
    | root => exact Nat.one_pos
    | pointer offset => exact Nat.two_pos
  have hshort : (joinLabels [] name.labels).length < 256 := by
    have hjoined := length_joinLabels_le [] name.labels
    have hname := name.short
    rw [List.length_nil] at hjoined
    omega
  have hinside : src + (name.labels.flatMap labelBytes).length < size := by omega
  have hloop := @dnsLabelLoop_labels d name.labels 256 src size (fuel + 1) src 0 []
    name.isLabel hlabels hinside hshort
  rw [dnsLabelDecode, hfuel, hloop, hlen]
  have hle : src ≤ src + (name.labels.flatMap labelBytes).length := Nat.le_add_right _ _
  generalize (name.labels.flatMap labelBytes).length = k at hending hle ⊢
  rw [dnsLabelLoop]
  dsimp only
  cases hname : name.ending with
  | root =>
      rw [hname] at hending
      have hb : (d.read (src + k)).toNat = 0 := by
        rw [hending.1]
        rfl
      rw [hb, if_neg (by decide), if_pos rfl, if_pos rfl]
      refine ⟨?_, fun _ => rfl⟩
      simp [NameEnd.bytes]
  | pointer offset =>
      rw [hname] at hending
      have hb : (d.read (src + k)).toNat &&& 0xC0 = 0xC0 := by
        have hall : ∀ k < 64, (192 + k) &&& 192 = 192 := by decide
        have hoffset := offset.isLt
        rw [hending.1, toNat_ofNat_of_lt (by omega)]
        have hsplit : (0xC000 + (offset : Nat)) / 256 = 192 + offset / 256 := by omega
        rw [hsplit]
        exact hall _ (by omega)
      have hskip : src + k - src + 2 = k + (NameEnd.pointer offset).bytes.length := by
        simp [NameEnd.bytes]
      rw [if_pos hb, if_pos rfl]
      refine ⟨?_, fun hroot => by cases hroot⟩
      split
      · exact hskip
      · rw [dnsLabelLoop_bytesToSkip (by omega), hskip]

end Names

end PubNub
