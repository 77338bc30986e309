import Mathlib.Tactic.IntervalCases
import PubNubCore.Core.Types
import PubNubCore.Lib.CheckedBlock
import PubNubCore.Lib.ReadWindow

/-!
# The header of encrypted data

`pbcc_prepare_cryptor_header_v1`, `pbcc_cryptor_header_v1_size`,
`pbcc_cryptor_header_v1_to_alloc_block` and `pbcc_cryptor_header_v1_from_block`.  A header names
the cryptor and says how long its metadata is, in one byte or, behind the marker 255, in two;
the metadata follow it.  A cryptor with the legacy identifier has no header.

`encodeHeader` is the format as the reader knows it.

* **`fromBlock_encodeHeader`** — the reader reads this format, for metadata of any size below
  `2 ^ 16`.
* **`fromBlock_written_iff`** — it gets back what the writer has written exactly when there are
  fewer than 255 bytes of metadata: behind the marker the writer puts the size of the header with
  its metadata.
-/

namespace PubNub

/-! ## The functions of the source -/

/-- `uint8_t identifier[4]`. -/
abbrev CryptorIdentifier := Vector UInt8 4

/-- `PUBNUB_LEGACY_CRYPTO_IDENTIFIER`. -/
def legacyCryptoIdentifier : CryptorIdentifier := #v[0, 0, 0, 0]

/-- `SENTINEL`. -/
def sentinel : Bytes := ascii "PNED"

/-- `IDENTIFIER_LENGTH`. -/
def identifierLength : Nat := 4

/-- `PUBNUB_MAXIMUM_HEADER_VERSION`. -/
def maximumHeaderVersion : Nat := 1

/-- `struct pubnub_cryptor_header_v1`. -/
structure CryptorHeaderV1 where
  identifier : CryptorIdentifier
  dataLength : Nat
  deriving DecidableEq

/-- `pbcc_prepare_cryptor_header_v1`; the length is a `uint32_t`. -/
def pbccPrepareCryptorHeaderV1 (identifier : CryptorIdentifier) (metadata : Bytes) :
    CryptorHeaderV1 :=
  ⟨identifier, metadata.length % 2 ^ 32⟩

/-- `pbcc_cryptor_header_v1_size`. -/
def pbccCryptorHeaderV1Size : Option CryptorHeaderV1 → Nat
  | none => 0
  | some h =>
      if h.identifier = legacyCryptoIdentifier then 0
      else sentinel.length + 1 + identifierLength + (if h.dataLength < 255 then 1 else 3) +
        h.dataLength

/-- The bytes in which the length is written. -/
def CryptorHeaderV1.writtenLength (h : CryptorHeaderV1) : Bytes :=
  if h.dataLength < 255 then [UInt8.ofNat h.dataLength]
  else
    let headerSize := pbccCryptorHeaderV1Size (some h)
    [255, UInt8.ofNat (headerSize >>> 8), UInt8.ofNat (headerSize &&& 0xFF)]

/-- What is written of a header, one part behind the other. -/
def CryptorHeaderV1.written (h : CryptorHeaderV1) : Bytes :=
  sentinel ++ [1] ++ h.identifier.toList ++ h.writtenLength

/-- What `malloc` returns: `fresh` is what the memory holds. -/
def malloc (fresh : Nat → UInt8) (size : Nat) : Bytes := (List.range size).map fresh

/-- `pbcc_cryptor_header_v1_to_alloc_block`: a block with room for the metadata, or no block. -/
def pbccCryptorHeaderV1ToAllocBlock (fresh : Nat → UInt8) : Option CryptorHeaderV1 → Option Bytes
  | none => none
  | some h =>
      if h.identifier = legacyCryptoIdentifier then none
      else
        let headerSize := pbccCryptorHeaderV1Size (some h)
        some (overwrite headerSize (malloc fresh headerSize) 0 h.written)

/-- An identifier in a block. -/
def readIdentifier (block : Bytes) (i : Nat) : Checked CryptorIdentifier :=
  if h : i + 4 ≤ block.length then
    .ok ⟨((block.drop i).take 4).toArray, by simp; omega⟩
  else .error .outside

/-- `pbcc_cryptor_header_v1_from_block`. -/
def pbccCryptorHeaderV1FromBlock (block : Bytes) : Checked (Option CryptorHeaderV1) :=
  if block.length < sentinel.length + 1 + identifierLength + 1 then .ok none
  else do
    let found ← Checked.read block 0 sentinel.length
    if found ≠ sentinel then return none
    let version ← Checked.cell block 4
    if version = 0 ∨ maximumHeaderVersion < version.toNat then return none
    let identifier ← readIdentifier block 5
    let dataLength ← Checked.cell block 9
    if dataLength = 255 then
      let headerSizeHigh ← Checked.cell block 10
      let headerSizeLow ← Checked.cell block 11
      return some ⟨identifier, headerSizeHigh.toNat <<< 8 + headerSizeLow.toNat⟩
    else return some ⟨identifier, dataLength.toNat⟩

/-! ## The format -/

/-- The block begins with a header of version 1, as far as that can be seen. -/
def HasHeader (block : Bytes) : Prop :=
  10 ≤ block.length ∧ block.take 4 = sentinel ∧ block.getD 4 0 = 1

instance (block : Bytes) : Decidable (HasHeader block) := inferInstanceAs (Decidable (_ ∧ _))

/-- The identifier in a header. -/
def headerIdentifier (block : Bytes) : CryptorIdentifier :=
  #v[block.getD 5 0, block.getD 6 0, block.getD 7 0, block.getD 8 0]

/-- The length in a header is a long one. -/
def LongLength (block : Bytes) : Prop := block.getD 9 0 = 255

instance (block : Bytes) : Decidable (LongLength block) := inferInstanceAs (Decidable (_ = _))

/-- The length of the metadata which a header declares. -/
def declaredLength (block : Bytes) : Nat :=
  if LongLength block then (block.getD 10 0).toNat * 256 + (block.getD 11 0).toNat
  else (block.getD 9 0).toNat

/-- The length of metadata in one byte, or in two behind the marker. -/
def encodeLength (n : Nat) : Bytes :=
  if n < 255 then [UInt8.ofNat n] else [255, UInt8.ofNat (n / 256), UInt8.ofNat (n % 256)]

/-- A header in front of its metadata. -/
def encodeHeader (h : CryptorHeaderV1) : Bytes :=
  sentinel ++ [1] ++ h.identifier.toList ++ encodeLength h.dataLength

/-! ## The reader -/

/-- A block of at least ten bytes, byte by byte. -/
lemma exists_ten_bytes {block : Bytes} (h : 10 ≤ block.length) :
    ∃ a b c d e f g i j k rest, block = a :: b :: c :: d :: e :: f :: g :: i :: j :: k :: rest := by
  match block, h with
  | a :: b :: c :: d :: e :: f :: g :: i :: j :: k :: rest, _ =>
      exact ⟨a, b, c, d, e, f, g, i, j, k, rest, rfl⟩

/-- The versions that are known. -/
lemma known_version_iff (version : UInt8) :
    ¬ (version = 0 ∨ maximumHeaderVersion < version.toNat) ↔ version = 1 := by
  rw [maximumHeaderVersion, ← UInt8.toNat_inj, ← UInt8.toNat_inj, UInt8.toNat_zero,
    UInt8.toNat_one]
  omega

@[simp] lemma sentinel_eq : sentinel = [80, 78, 69, 68] := by decide

/-- The reader behind the sentinel and the version. -/
lemma fromBlock_of_hasHeader (f g i j k : UInt8) (rest : Bytes) :
    pbccCryptorHeaderV1FromBlock (sentinel ++ 1 :: f :: g :: i :: j :: k :: rest) =
      if k = 255 then
        match rest with
        | high :: low :: _ => .ok (some ⟨#v[f, g, i, j], high.toNat * 256 + low.toNat⟩)
        | _ => .error .outside
      else .ok (some ⟨#v[f, g, i, j], k.toNat⟩) := by
  rw [pbccCryptorHeaderV1FromBlock, if_neg (by simp [identifierLength])]
  simp only [sentinel_eq, Checked.read, Checked.cell, readIdentifier, bind, Except.bind, pure,
    Except.pure]
  by_cases hk : k = 255
  · match rest with
    | [] => simp [hk, maximumHeaderVersion]
    | [high] => simp [hk, maximumHeaderVersion]
    | high :: low :: rest => simp [hk, maximumHeaderVersion, Nat.shiftLeft_eq]
  · simp [hk, maximumHeaderVersion]

/-- The reader on a block that begins otherwise. -/
lemma fromBlock_of_not_hasHeader {block : Bytes} (h : ¬ HasHeader block) :
    pbccCryptorHeaderV1FromBlock block = .ok none := by
  by_cases hlen : 10 ≤ block.length
  · obtain ⟨a, b, c, d, e, f, g, i, j, k, rest, rfl⟩ := exists_ten_bytes hlen
    rw [pbccCryptorHeaderV1FromBlock, if_neg (by simp [identifierLength])]
    by_cases hfound : [a, b, c, d] = sentinel
    · have hversion : e = 0 ∨ maximumHeaderVersion < e.toNat := by
        by_contra hknown
        exact h ⟨hlen, hfound, (known_version_iff e).mp hknown⟩
      simp only [Checked.read, Checked.cell, bind, Except.bind, pure, Except.pure]
      simp_all
    · simp only [Checked.read, bind, Except.bind, pure, Except.pure]
      simp_all
  · rw [pbccCryptorHeaderV1FromBlock, if_pos (by simpa [identifierLength] using hlen)]

/-- **What the reader does with a block.**  It reads past its end where a header that is marked
    as having a long length ends before that length. -/
lemma fromBlock_eq (block : Bytes) :
    pbccCryptorHeaderV1FromBlock block =
      if HasHeader block then
        if LongLength block ∧ block.length < 12 then .error .outside
        else .ok (some ⟨headerIdentifier block, declaredLength block⟩)
      else .ok none := by
  by_cases hheader : HasHeader block
  · rw [if_pos hheader]
    obtain ⟨hlen, hfound, hversion⟩ := hheader
    obtain ⟨a, b, c, d, e, f, g, i, j, k, rest, rfl⟩ := exists_ten_bytes hlen
    have hblock : a :: b :: c :: d :: e :: f :: g :: i :: j :: k :: rest =
        sentinel ++ 1 :: f :: g :: i :: j :: k :: rest := by
      simp_all
    rw [hblock, fromBlock_of_hasHeader]
    by_cases hk : k = 255
    · match rest with
      | [] => simp [hk, LongLength]
      | [high] => simp [hk, LongLength]
      | high :: low :: rest => simp [hk, LongLength, headerIdentifier, declaredLength]
    · simp [hk, LongLength, headerIdentifier, declaredLength]
  · rw [if_neg hheader, fromBlock_of_not_hasHeader hheader]

/-! ## The writer -/

lemma exists_four_bytes (v : CryptorIdentifier) : ∃ f g i j, v = #v[f, g, i, j] :=
  ⟨v[0], v[1], v[2], v[3], by
    ext n hn
    interval_cases n <;> rfl⟩

section Writer

variable {h : CryptorHeaderV1}

@[simp] lemma length_malloc (fresh : Nat → UInt8) (size : Nat) :
    (malloc fresh size).length = size := by
  simp [malloc]

lemma length_writtenLength (h : CryptorHeaderV1) :
    h.writtenLength.length = if h.dataLength < 255 then 1 else 3 := by
  unfold CryptorHeaderV1.writtenLength
  split
  · rfl
  · rfl

/-- The size is that of what is written and of the metadata. -/
lemma headerSize_eq (hid : h.identifier ≠ legacyCryptoIdentifier) :
    pbccCryptorHeaderV1Size (some h) = h.written.length + h.dataLength := by
  simp only [pbccCryptorHeaderV1Size, if_neg hid, CryptorHeaderV1.written, List.length_append,
    length_writtenLength, Vector.length_toList, identifierLength, List.length_singleton]

lemma toAllocBlock_eq (fresh : Nat → UInt8) (hid : h.identifier ≠ legacyCryptoIdentifier) :
    pbccCryptorHeaderV1ToAllocBlock fresh (some h) =
      some (h.written ++ (malloc fresh (h.written.length + h.dataLength)).drop h.written.length) := by
  have hfits : h.written.take (h.written.length + h.dataLength) = h.written :=
    List.take_of_length_le (Nat.le_add_right _ _)
  simp only [pbccCryptorHeaderV1ToAllocBlock, if_neg hid, headerSize_eq hid, overwrite,
    List.take_zero, List.nil_append, Nat.sub_zero, Nat.zero_add, hfits]

/-- What the reader makes of a length in one byte, or in two behind the marker. -/
lemma fromBlock_cons_length (identifier : CryptorIdentifier) (n : Nat) (rest : Bytes) :
    pbccCryptorHeaderV1FromBlock (sentinel ++ [1] ++ identifier.toList ++ encodeLength n ++ rest) =
      .ok (some ⟨identifier, if n < 255 then n else n % 2 ^ 16⟩) := by
  obtain ⟨f, g, i, j, rfl⟩ := exists_four_bytes identifier
  by_cases hn : n < 255
  · have hblock : sentinel ++ [1] ++ #v[f, g, i, j].toList ++ encodeLength n ++ rest =
        sentinel ++ 1 :: f :: g :: i :: j :: UInt8.ofNat n :: rest := by
      simp [encodeLength, hn]
    have hshort : UInt8.ofNat n ≠ 255 := by
      intro h255
      have := congrArg UInt8.toNat h255
      simp at this
      omega
    rw [hblock, fromBlock_of_hasHeader, if_neg hshort, if_pos hn]
    simp
    omega
  · have hblock : sentinel ++ [1] ++ #v[f, g, i, j].toList ++ encodeLength n ++ rest =
        sentinel ++ 1 :: f :: g :: i :: j :: 255 :: UInt8.ofNat (n / 256) ::
          UInt8.ofNat (n % 256) :: rest := by
      simp [encodeLength, hn]
    rw [hblock, fromBlock_of_hasHeader, if_pos rfl, if_neg hn]
    simp
    omega

/-- **The reader reads the format.**  Whatever stands behind the header, the identifier and the
    length of the metadata are those the header was made from. -/
theorem fromBlock_encodeHeader (hlen : h.dataLength < 2 ^ 16) (rest : Bytes) :
    pbccCryptorHeaderV1FromBlock (encodeHeader h ++ rest) = .ok (some h) := by
  rw [encodeHeader, fromBlock_cons_length]
  by_cases hn : h.dataLength < 255
  · rw [if_pos hn]
  · rw [if_neg hn, Nat.mod_eq_of_lt hlen]

/-- Behind the marker stands the size of the header with its metadata. -/
lemma writtenLength_eq (hid : h.identifier ≠ legacyCryptoIdentifier) :
    h.writtenLength =
      encodeLength (if h.dataLength < 255 then h.dataLength else h.dataLength + 12) := by
  unfold CryptorHeaderV1.writtenLength
  by_cases hn : h.dataLength < 255
  · rw [if_pos hn, if_pos hn, encodeLength, if_pos hn]
  · have hsize : pbccCryptorHeaderV1Size (some h) = h.dataLength + 12 := by
      simp [pbccCryptorHeaderV1Size, hid, hn, identifierLength]
      omega
    have hlow : (h.dataLength + 12) &&& 0xFF = (h.dataLength + 12) % 256 :=
      Nat.and_two_pow_sub_one_eq_mod _ 8
    rw [if_neg hn, if_neg hn, encodeLength, if_neg (by omega)]
    simp only [hsize, hlow, Nat.shiftRight_eq_div_pow, Nat.reducePow]

/-- What the reader makes of what the writer has written. -/
lemma fromBlock_written (hid : h.identifier ≠ legacyCryptoIdentifier) (rest : Bytes) :
    pbccCryptorHeaderV1FromBlock (h.written ++ rest) =
      .ok (some ⟨h.identifier,
        if h.dataLength < 255 then h.dataLength else (h.dataLength + 12) % 2 ^ 16⟩) := by
  rw [CryptorHeaderV1.written, writtenLength_eq hid, fromBlock_cons_length]
  by_cases hn : h.dataLength < 255
  · simp only [if_pos hn]
  · rw [if_neg hn, if_neg hn, if_neg (by omega)]

/-- **Where the reader gets back what was written.** -/
theorem fromBlock_written_iff (hid : h.identifier ≠ legacyCryptoIdentifier) (rest : Bytes) :
    pbccCryptorHeaderV1FromBlock (h.written ++ rest) = .ok (some h) ↔ h.dataLength < 255 := by
  rw [fromBlock_written hid]
  by_cases hn : h.dataLength < 255
  · simp [hn]
  · simp only [hn, if_false, iff_false]
    intro heq
    have hsame : (h.dataLength + 12) % 2 ^ 16 = h.dataLength :=
      congrArg CryptorHeaderV1.dataLength (Option.some.inj (Except.ok.inj heq))
    omega

end Writer

end PubNub
