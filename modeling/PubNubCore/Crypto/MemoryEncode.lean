import PubNubCore.Crypto.Base64RoundTrip
import PubNubCore.Crypto.Decryption
import PubNubCore.Lib.Printing

/-!
# Encrypted messages as text

`pubnub_encrypt`, `pubnub_encrypt_buffered` and `pbcc_memory_encode`.  The encrypted bytes are moved to
make room for the initialization vector, where it is drawn at random, and are written in base 64 into
the array of the caller.  Whether they fit is decided with `base64_max_size`, which is an estimate of
the size of the text with its zero, and the array may be a byte shorter than that.

`encrypt_right` says when the text is whole: for a text that is as long as the array, and for which the
estimate is exact, the last character is cut off and `0` is returned.

The estimate is computed in floating point.  `roundToBits` is the rounding of `float` and `double`, so
that what `(float)n * 1.4` is can be computed with whole numbers: the double for 1.4 is
6305039478318694 times 2 to the power of -52.
-/

namespace PubNub

/-! ## The estimate -/

/-- The number with so many significant bits that is the nearest one, the even one of two. -/
def roundToBits (bits n : Nat) : Nat :=
  let unit := 2 ^ (Nat.log2 n + 1 - bits)
  let down := n / unit
  let up := if 2 * (n % unit) < unit ∨ 2 * (n % unit) = unit ∧ down % 2 = 0 then 0 else 1
  (down + up) * unit

/-- `(float)n * 1.4`, without what is behind the point. -/
def onePointFourTimes (n : Nat) : Nat :=
  roundToBits 53 (roundToBits 24 n * 6305039478318694) / 2 ^ 52

/-- `base64_include_padding` -/
def base64IncludePadding (sizeWithoutPadding : Nat) : Nat :=
  if sizeWithoutPadding % 4 = 0 then sizeWithoutPadding
  else sizeWithoutPadding + (4 - sizeWithoutPadding % 4)

/-- `base64_max_size`; `none` if something is no `int`. -/
def base64MaxSize (encodeThisManyBytes : Nat) : Option Nat :=
  (asInt encodeThisManyBytes).bind fun n => (asInt (onePointFourTimes n)).bind fun size =>
    asInt (base64IncludePadding size + 1)

/-- `base64encode`: the text, if there is room for it and its zero. -/
def base64encode (o : Openssl) (maxSize : Nat) (b64EncodeThis : Bytes) : Option Bytes :=
  if maxSize < (o.encodeBlock b64EncodeThis).length + 1 then none
  else some (o.encodeBlock b64EncodeThis)

/-! ## The functions -/

/-- Memory with its size. -/
structure WorkBuffer where
  size : Nat
  array : CharArray size

/-- What a call leaves in the array of the caller, and what `*n` is, `none` if -1 is returned. -/
structure EncryptOutcome (n : Nat) where
  base64Str : CharArray n
  result : Option Nat

/-- An initialization vector. -/
structure InitVector where
  bytes : Bytes
  length_bytes : bytes.length = 16

section Functions

variable (b : CryptoBuild) (o : Openssl) {n : Nat} (base64Str : CharArray n)

/-- The data with the initialization vector in front of them, if it is drawn at random: the array and
    how many bytes of it are used. -/
def withInitVector (iv : InitVector) {m : Nat} (buffer : CharArray m) (size : Nat) :
    Option (CharArray m × Nat) :=
  if b.randInitVector then
    (buffer.memmove 16 0 size).bind fun buffer => (buffer.write 0 iv.bytes).bind fun buffer =>
      (buffer.write (size + 16) [0]).map fun buffer => (buffer, size + 16)
  else some (buffer, size)

/-- `memory_encode`, `pbcc_memory_encode`; a result `none` says that something is written outside of its
    array, or that something is no `int`. -/
def memoryEncode (iv : InitVector) {m : Nat} (buffer : CharArray m) (size : Nat) :
    Option (EncryptOutcome n) :=
  (withInitVector b iv buffer size).bind fun (buffer, size) =>
    (base64MaxSize size).bind fun maxSize =>
      if (n + 1) % 2 ^ 64 < maxSize then some ⟨base64Str, none⟩
      else match base64encode o maxSize (buffer.bytes.take size) with
        | none => some ⟨base64Str, none⟩
        | some text => (base64Str.snprintf 0 n text).bind fun base64Str =>
            base64Str.string.map fun s => ⟨base64Str, some s.length⟩

/-- The initialization vector of a build. -/
def CryptoBuild.initVector (random : InitVector) : InitVector :=
  if b.randInitVector then random else ⟨fixedInitVector, by decide⟩

/-- `pubnub_encrypt_buffered`; `random` is what `RAND_bytes` gives. -/
def pubnubEncryptBuffered (random : InitVector) (cipherKey msg : Bytes) {m : Nat}
    (buffer : CharArray m) : Option (EncryptOutcome n) :=
  let iv := b.initVector random
  match o.encrypt (cipherKeyHash o cipherKey) iv.bytes msg with
  | none => some ⟨base64Str, none⟩
  | some encrypted => (buffer.write 0 encrypted).bind fun buffer =>
      memoryEncode b o base64Str iv buffer encrypted.length

/-- How much memory `pbaes256_encrypt_alloc` allocates. -/
def encryptAllocSize (msg : Bytes) : Nat := msg.length + 16 * (if b.randInitVector then 2 else 1)

/-- `pubnub_encrypt`; `memory` is what `malloc` gives. -/
def pubnubEncrypt (memory : (m : Nat) → CharArray m) (random : InitVector) (cipherKey msg : Bytes) :
    Option (EncryptOutcome n) :=
  pubnubEncryptBuffered b o base64Str random cipherKey msg (memory (encryptAllocSize b msg))

/-- A call of one of the functions.  `pbcc_memory_encode` is handed encrypted bytes with the
    initialization vector that they were made with. -/
inductive EncryptCall
  | encrypt (cipherKey msg : Bytes)
  | encryptBuffered (cipherKey msg : Bytes) (buffer : WorkBuffer)
  | memoryEncode (encrypted rest : Bytes)

def EncryptCall.run (memory : (m : Nat) → CharArray m) (random : InitVector) :
    EncryptCall → Option (EncryptOutcome n)
  | .encrypt cipherKey msg => pubnubEncrypt b o base64Str memory random cipherKey msg
  | .encryptBuffered cipherKey msg buffer =>
      pubnubEncryptBuffered b o base64Str random cipherKey msg buffer.array
  | .memoryEncode encrypted rest =>
      PubNub.memoryEncode b o base64Str (b.initVector random) ⟨encrypted ++ rest, rfl⟩ encrypted.length

/-- The encrypted bytes, if there are any. -/
def EncryptCall.encrypted (random : InitVector) : EncryptCall → Option Bytes
  | .encrypt cipherKey msg | .encryptBuffered cipherKey msg _ =>
      o.encrypt (cipherKeyHash o cipherKey) (b.initVector random).bytes msg
  | .memoryEncode encrypted _ => some encrypted

/-- The size of the memory that they are in. -/
def EncryptCall.room : EncryptCall → Nat
  | .encrypt _ msg => encryptAllocSize b msg
  | .encryptBuffered _ _ buffer => buffer.size
  | .memoryEncode encrypted rest => (encrypted ++ rest).length

end Functions

/-! ## What they are for -/

section Right

variable (b : CryptoBuild) (o : Openssl) (outside : UInt8 → UInt8)

/-- What is to be written in base 64. -/
def encodedBlock (iv : InitVector) (encrypted : Bytes) : Bytes :=
  (if b.randInitVector then iv.bytes else []) ++ encrypted

/-- The result is an error, or the array holds the text of the encrypted bytes, which are decrypted to
    what they were made of. -/
def EncryptCall.Right {n : Nat} (base64Str : CharArray n) (memory : (m : Nat) → CharArray m)
    (random : InitVector) (call : EncryptCall) : Prop :=
  ∃ outcome, call.run b o base64Str memory random = some outcome ∧
    ∀ length, outcome.result = some length → ∃ encrypted, call.encrypted b o random = some encrypted ∧
      let text := encodedText rfc3548Options (encodedBlock b (b.initVector random) encrypted)
      outcome.base64Str.string = some text ∧ length = text.length ∧
        ∀ cipherKey msg dataSize,
          o.encrypt (cipherKeyHash o cipherKey) (b.initVector random).bytes msg = some encrypted →
          encrypted.length + 16 + 1 ≤ dataSize →
          pubnubDecrypt b o outside cipherKey text dataSize = .ok (some msg)

/-- What the functions of OpenSSL do: padding to whole blocks of sixteen bytes, decryption, and
    base 64. -/
structure Openssl.Encrypts : Prop where
  length_encrypt : ∀ key iv msg encrypted, o.encrypt key iv msg = some encrypted →
    encrypted.length = (msg.length / 16 + 1) * 16
  decrypt_encrypt : ∀ key iv msg encrypted, o.encrypt key iv msg = some encrypted →
    o.decrypt key iv encrypted = ⟨true, msg⟩
  encodeBlock : ∀ data, o.encodeBlock data = encodedText rfc3548Options data

/-- How much memory the encrypted bytes need, with the initialization vector and a zero. -/
def CryptoBuild.workSize (length : Nat) : Nat := length + if b.randInitVector then 16 + 1 else 0

/-- What the encrypted bytes need: memory for the initialization vector and a zero, an estimate that is
    an `int`, and no array that is as long as their text if that is what the estimate allows. -/
structure EncryptFits (n room length : Nat) : Prop where
  room : b.workSize length ≤ room
  estimate : (base64MaxSize (length + b.ivSize)).isSome = true
  array : base64MaxSize (length + b.ivSize) = some (n + 1) →
    n ≠ rfc3548Options.textLength (length + b.ivSize)

end Right

/-! ## Base 64 and back -/

section Text

variable {outside : UInt8 → UInt8}

lemma wellFormed_rfc3548 : rfc3548Options.WellFormed := by decide +kernel

/-- The table of the decoder has the numbers of the characters. -/
lemma decodeTab_letter_rfc3548 {w : UInt8} (hw : w < 64) :
    PubNub.decodeTab outside (rfc3548Options.letter w) = w := by
  have hall : ∀ i < 64, ¬ 128 ≤ rfc3548Options.letter (UInt8.ofNat i) ∧
      PubNub.decodeTab id (rfc3548Options.letter (UInt8.ofNat i)) = UInt8.ofNat i := by
    decide +kernel
  obtain ⟨hlow, htab⟩ := hall w.toNat hw
  rw [UInt8.ofNat_toNat] at hlow htab
  rw [PubNub.decodeTab, if_neg hlow] at htab ⊢
  exact htab

lemma decodeTab_separator : PubNub.decodeTab outside 61 = 64 := rfl

section Groups

variable (a b c : UInt8)

lemma decodeGroup_three : decodeGroup outside (rfc3548Options.letter (sextet0 a))
    (rfc3548Options.letter (sextet1 a b)) (rfc3548Options.letter (sextet2 b c))
    (rfc3548Options.letter (sextet3 c)) = some [a, b, c] := by
  have hfirst := byteOf0_sextets a b
  have hsecond := byteOf1_sextets a b c
  have hthird := byteOf2_sextets b c
  rw [byteOf0] at hfirst
  rw [byteOf1] at hsecond
  rw [byteOf2] at hthird
  rw [decodeGroup, decodeTab_letter_rfc3548 (sextet0_lt a), decodeTab_letter_rfc3548 (sextet1_lt a b),
    decodeTab_letter_rfc3548 (sextet2_lt b c), decodeTab_letter_rfc3548 (sextet3_lt c)]
  have hfull : ¬ (sextet0 a = 64 ∨ sextet1 a b = 64) :=
    not_or.mpr ⟨UInt8.ne_of_lt (sextet0_lt a), UInt8.ne_of_lt (sextet1_lt a b)⟩
  simp only [if_neg hfull, if_pos (sextet2_lt b c), if_pos (sextet3_lt c), hfirst, hsecond, hthird]

lemma decodeGroup_two : decodeGroup outside (rfc3548Options.letter (sextet0 a))
    (rfc3548Options.letter (sextet1 a b)) (rfc3548Options.letter (sextet2 b 0)) 61 = some [a, b] := by
  have hfirst := byteOf0_sextets a b
  have hsecond := byteOf1_sextets a b 0
  rw [byteOf0] at hfirst
  rw [byteOf1] at hsecond
  rw [decodeGroup, decodeTab_letter_rfc3548 (sextet0_lt a), decodeTab_letter_rfc3548 (sextet1_lt a b),
    decodeTab_letter_rfc3548 (sextet2_lt b 0), decodeTab_separator]
  have hfull : ¬ (sextet0 a = 64 ∨ sextet1 a b = 64) :=
    not_or.mpr ⟨UInt8.ne_of_lt (sextet0_lt a), UInt8.ne_of_lt (sextet1_lt a b)⟩
  simp only [if_neg hfull, if_pos (sextet2_lt b 0), hfirst, hsecond]
  rfl

lemma decodeGroup_one : decodeGroup outside (rfc3548Options.letter (sextet0 a))
    (rfc3548Options.letter (sextet1 a 0)) 61 61 = some [a] := by
  have hfirst := byteOf0_sextets a 0
  rw [byteOf0] at hfirst
  rw [decodeGroup, decodeTab_letter_rfc3548 (sextet0_lt a), decodeTab_letter_rfc3548 (sextet1_lt a 0),
    decodeTab_separator]
  have hfull : ¬ (sextet0 a = 64 ∨ sextet1 a 0 = 64) :=
    not_or.mpr ⟨UInt8.ne_of_lt (sextet0_lt a), UInt8.ne_of_lt (sextet1_lt a 0)⟩
  simp only [if_neg hfull, hfirst]
  rfl

end Groups

/-- A text is decoded to what it was made of. -/
lemma decodeGroups_encodedText (data : Bytes) :
    decodeGroups outside (encodedText rfc3548Options data) = some data := by
  fun_induction encodedText rfc3548Options data with
  | case1 a b c data ih =>
      rw [decodeGroups, decodeGroup_three, ih]
      rfl
  | case2 a b =>
      have hgroups := @decodeGroup_two outside a b
      change decodeGroups outside [_, _, _, 61] = _
      rw [decodeGroups, hgroups]
      rfl
  | case3 a =>
      have hgroups := @decodeGroup_one outside a
      change decodeGroups outside [_, _, 61, 61] = _
      rw [decodeGroups, hgroups]
      rfl
  | case4 => rfl

lemma zero_not_mem_encodedText (data : Bytes) : 0 ∉ encodedText rfc3548Options data := by
  have hletter : ∀ w : UInt8, w < 64 → (0 : UInt8) ≠ rfc3548Options.letter w := fun w hw heq =>
    wellFormed_rfc3548.nonzero (heq ▸ letter_mem wellFormed_rfc3548 hw)
  fun_induction encodedText rfc3548Options data with
  | case1 a b c data ih =>
      simp only [List.mem_cons, not_or]
      exact ⟨hletter _ (sextet0_lt a), hletter _ (sextet1_lt a b), hletter _ (sextet2_lt b c),
        hletter _ (sextet3_lt c), ih⟩
  | case2 a b =>
      change 0 ∉ [_, _, _, (61 : UInt8)]
      simp only [List.mem_cons, List.not_mem_nil, or_false, not_or]
      exact ⟨hletter _ (sextet0_lt a), hletter _ (sextet1_lt a b), hletter _ (sextet2_lt b 0),
        by decide⟩
  | case3 a =>
      change 0 ∉ [_, _, (61 : UInt8), (61 : UInt8)]
      simp only [List.mem_cons, List.not_mem_nil, or_false, not_or]
      exact ⟨hletter _ (sextet0_lt a), hletter _ (sextet1_lt a 0), by decide, by decide⟩
  | case4 => exact List.not_mem_nil

end Text

/-! ## The calls -/

section Calls

variable {b : CryptoBuild} {o : Openssl} {outside : UInt8 → UInt8} {iv random : InitVector} {m n : Nat}
  {encrypted rest : Bytes} {buffer : CharArray m} {base64Str : CharArray n}
  {memory : (m : Nat) → CharArray m} {call : EncryptCall}

lemma length_encodedBlock (b : CryptoBuild) (iv : InitVector) (encrypted : Bytes) :
    (encodedBlock b iv encrypted).length = encrypted.length + b.ivSize := by
  rw [encodedBlock, CryptoBuild.ivSize, List.length_append, Nat.add_comm]
  split
  · rw [iv.length_bytes]
  · rfl

lemma exists_write_of_le {a : CharArray m} {i : Nat} {s : Bytes} (h : i + s.length ≤ m) :
    ∃ c, a.write i s = some c ∧ c.bytes = a.bytes.take i ++ s ++ a.bytes.drop (i + s.length) := by
  obtain ⟨c, hc⟩ := Option.isSome_iff_exists.mp (CharArray.isSome_write.mpr h)
  exact ⟨c, hc, CharArray.bytes_write hc⟩

lemma write_of_lt {a : CharArray m} {i : Nat} {s : Bytes} (h : m < i + s.length) :
    a.write i s = none := by
  rw [CharArray.write, dif_neg (Nat.not_le.mpr h)]

/-- If there is room, the initialization vector is in front of the data. -/
lemma withInitVector_cases (hbuffer : buffer.bytes = encrypted ++ rest) :
    if b.workSize encrypted.length ≤ m then
      ∃ moved, withInitVector b iv buffer encrypted.length =
          some (moved, encrypted.length + b.ivSize) ∧
        moved.bytes.take (encrypted.length + b.ivSize) = encodedBlock b iv encrypted
    else withInitVector b iv buffer encrypted.length = none := by
  rw [withInitVector, encodedBlock, CryptoBuild.ivSize, CryptoBuild.workSize]
  by_cases hrandom : b.randInitVector = true
  · have hlength := congrArg List.length hbuffer
    rw [buffer.length_bytes, List.length_append] at hlength
    have hmove : buffer.memmove 16 0 encrypted.length = buffer.write 16 encrypted := by
      rw [CharArray.memmove, if_pos (by omega), List.drop_zero, hbuffer, List.take_left]
    simp only [if_pos hrandom, hmove]
    split
    · rename_i hroom
      obtain ⟨moved, hmoved, hbytes⟩ := exists_write_of_le (a := buffer) (i := 16) (s := encrypted)
        (by omega)
      obtain ⟨vector, hvector, hfront⟩ := exists_write_of_le (a := moved) (i := 0) (s := iv.bytes)
        (by rw [iv.length_bytes]; omega)
      obtain ⟨ended, hended, hwhole⟩ := exists_write_of_le (a := vector)
        (i := encrypted.length + 16) (s := [0]) (by rw [List.length_singleton]; omega)
      refine ⟨ended, by rw [hmoved, Option.bind_some, hvector, Option.bind_some, hended]; rfl, ?_⟩
      have htake : (buffer.bytes.take 16).length = 16 := by
        rw [List.length_take, buffer.length_bytes]
        omega
      have hshort : encrypted.length + 16 = (iv.bytes ++ encrypted).length := by
        rw [List.length_append, iv.length_bytes, Nat.add_comm]
      rw [hbytes, iv.length_bytes, List.take_zero, List.nil_append, Nat.zero_add,
        List.append_assoc (buffer.bytes.take 16), List.drop_left' htake, ← List.append_assoc] at hfront
      rw [hwhole, hfront, hshort, List.append_assoc, List.take_left, List.take_left]
    · rename_i hroom
      by_cases hmove : 16 + encrypted.length ≤ m
      · obtain ⟨moved, hmoved, -⟩ := exists_write_of_le (a := buffer) hmove
        obtain ⟨vector, hvector, -⟩ := exists_write_of_le (a := moved) (i := 0) (s := iv.bytes)
          (by rw [iv.length_bytes]; omega)
        rw [hmoved, Option.bind_some, hvector, Option.bind_some,
          write_of_lt (by rw [List.length_singleton]; omega), Option.map_none]
      · rw [write_of_lt (by omega), Option.bind_none]
  · have hroom : encrypted.length ≤ m := by
      rw [← buffer.length_bytes, hbuffer, List.length_append]
      exact Nat.le_add_right _ _
    simp only [if_neg hrandom, Nat.add_zero, if_pos hroom]
    exact ⟨buffer, rfl, by rw [hbuffer, List.take_left, List.nil_append]⟩

lemma base64MaxSize_lt {k max : Nat} (h : base64MaxSize k = some max) : max < 2 ^ 31 := by
  rw [base64MaxSize, Option.bind_eq_some_iff] at h
  obtain ⟨_, -, h⟩ := h
  obtain ⟨_, -, h⟩ := Option.bind_eq_some_iff.mp h
  rw [asInt] at h
  split at h
  · cases h
    assumption
  · cases h

/-- An array that is as long as the text does not hold it. -/
lemma string_ne_of_length_eq {text : Bytes} {s : CharArray n} (hlength : n = text.length) : s.string ≠ some text := by
  intro hstring
  exact absurd (CharArray.length_string hstring) (by omega)

/-- **`memory_encode`.**  It returns an error, or the whole text, unless the array is as long as the
    text and as the estimate. -/
lemma memoryEncode_cases (ho : o.Encrypts) (hbuffer : buffer.bytes = encrypted ++ rest) :
    let text := encodedText rfc3548Options (encodedBlock b iv encrypted)
    let outcome := memoryEncode b o base64Str iv buffer encrypted.length
    if b.workSize encrypted.length ≤ m ∧
        (base64MaxSize (encrypted.length + b.ivSize)).isSome = true then
      (outcome = some ⟨base64Str, none⟩ ∨
        ∃ s, outcome = some ⟨s, some text.length⟩ ∧ s.string = some text) ∧
          ¬ (n = text.length ∧ base64MaxSize (encrypted.length + b.ivSize) = some (n + 1)) ∨
      (n = text.length ∧ base64MaxSize (encrypted.length + b.ivSize) = some (n + 1)) ∧
        ∀ e, outcome = some e → e.result ≠ none ∧ e.base64Str.string ≠ some text
    else outcome = none := by
  intro text outcome
  have hcases := @withInitVector_cases b iv _ _ _ _ hbuffer
  by_cases hroom : b.workSize encrypted.length ≤ m
  · rw [if_pos hroom] at hcases
    obtain ⟨moved, hmoved, hblock⟩ := hcases
    cases hmax : base64MaxSize (encrypted.length + b.ivSize) with
    | none =>
        rw [if_neg (fun h => Bool.false_ne_true h.2)]
        simp only [outcome, memoryEncode, hmoved, Option.bind_some, hmax, Option.bind_none]
    | some max =>
        have hlt := base64MaxSize_lt hmax
        have houtcome : outcome = if (n + 1) % 2 ^ 64 < max then some ⟨base64Str, none⟩
            else if max < text.length + 1 then some ⟨base64Str, none⟩
            else (base64Str.snprintf 0 n text).bind fun s =>
              s.string.map fun t => ⟨s, some t.length⟩ := by
          simp only [outcome, memoryEncode, hmoved, Option.bind_some, hmax, hblock, base64encode,
            ho.encodeBlock]
          by_cases hlong : max < text.length + 1
          · simp only [text] at hlong ⊢
            simp only [if_pos hlong]
          · simp only [text] at hlong ⊢
            simp only [if_neg hlong]
        rw [if_pos ⟨hroom, rfl⟩]
        by_cases hequal : n = text.length ∧ max = n + 1
        · refine .inr ⟨⟨hequal.1, congrArg some hequal.2⟩, fun e he => ?_⟩
          rw [houtcome, if_neg (by omega), if_neg (by omega)] at he
          obtain ⟨s, hs, he⟩ := Option.bind_eq_some_iff.mp he
          obtain ⟨t, -, rfl⟩ := Option.map_eq_some_iff.mp he
          exact ⟨Option.some_ne_none _, string_ne_of_length_eq hequal.1⟩
        · refine .inl ⟨?_, fun h => hequal ⟨h.1, Option.some.inj h.2⟩⟩
          rw [houtcome]
          split
          · exact .inl rfl
          · split
            · exact .inl rfl
            · have hmod : (n + 1) % 2 ^ 64 ≤ n + 1 := Nat.mod_le _ _
              obtain ⟨s, hs, hstring⟩ := CharArray.exists_snprintf_zero base64Str
                (s := text) (by omega) (zero_not_mem_encodedText _)
              exact .inr ⟨s, by rw [hs, Option.bind_some, hstring]; rfl, hstring⟩
  · rw [if_neg hroom] at hcases
    rw [if_neg fun h => hroom h.1]
    simp only [outcome, memoryEncode, hcases, Option.bind_none]

/-- The text of the encrypted bytes is decrypted to what they were made of. -/
lemma pubnubDecrypt_encodedText (ho : o.Encrypts) {cipherKey msg : Bytes} {dataSize : Nat}
    (hencrypt : o.encrypt (cipherKeyHash o cipherKey) (b.initVector random).bytes msg =
      some encrypted) (hsize : encrypted.length + 16 + 1 ≤ dataSize) :
    pubnubDecrypt b o outside cipherKey (encodedText rfc3548Options
      (encodedBlock b (b.initVector random) encrypted)) dataSize = .ok (some msg) := by
  have hdecode := @decodeGroups_encodedText outside
    (encodedBlock b (b.initVector random) encrypted)
  have hlength := length_decodeGroups_le hdecode
  rw [← decodeAllocStdStr_eq, pbbase64DecodeAllocStdStr] at hdecode
  rw [length_encodedBlock] at hlength
  have hsplit : splitInitVector b (encodedBlock b (b.initVector random) encrypted) =
      .ok ((b.initVector random).bytes, encrypted) := by
    rw [splitInitVector, encodedBlock]
    by_cases hrandom : b.randInitVector = true
    · rw [if_pos hrandom, if_pos hrandom]
      have hiv := (b.initVector random).length_bytes
      have hread : Checked.read ((b.initVector random).bytes ++ encrypted) 0 16 =
          .ok (b.initVector random).bytes := by
        rw [Checked.read, if_pos (by rw [List.length_append]; omega), List.drop_zero,
          List.take_left' hiv]
      have hsub : Checked.sub ((b.initVector random).bytes ++ encrypted).length 16 =
          .ok encrypted.length := by
        rw [Checked.sub, List.length_append, hiv, if_pos (Nat.le_add_right _ _),
          Nat.add_sub_cancel_left]
      have hrest : Checked.read ((b.initVector random).bytes ++ encrypted) 16 encrypted.length =
          .ok encrypted := by
        rw [Checked.read, if_pos (by rw [List.length_append]; omega), List.drop_left' hiv,
          List.take_length]
      rw [hread, hsub]
      change (Checked.read _ 16 encrypted.length >>= _) = _
      rw [hrest]
      rfl
    · rw [if_neg hrandom, if_neg hrandom, CryptoBuild.initVector, if_neg hrandom]
      rfl
  have hdecrypt : pbaes256Decrypt o encrypted (cipherKeyHash o cipherKey)
      (b.initVector random).bytes dataSize = ⟨true, msg⟩ := by
    rw [pbaes256Decrypt, if_neg (by omega), ho.decrypt_encrypt _ _ _ _ hencrypt]
  have hroom : encrypted.length < pbbase64AllocSize (encodedText rfc3548Options
      (encodedBlock b (b.initVector random) encrypted)) := by
    rw [pbbase64AllocSize]
    omega
  rw [pubnubDecrypt, decryptBase64, hdecode]
  simp only [hsplit]
  change (Checked.require _ >>= _) = _
  rw [Checked.require, if_pos hroom]
  change Except.ok (if (pbaes256Decrypt o encrypted _ (b.initVector random).bytes dataSize).ok = true
    then _ else _) = _
  rw [hdecrypt]
  rfl

lemma length_encodedBlock_text (b : CryptoBuild) (iv : InitVector) (encrypted : Bytes) :
    (encodedText rfc3548Options (encodedBlock b iv encrypted)).length =
      rfc3548Options.textLength (encrypted.length + b.ivSize) := by
  rw [length_encodedText, length_encodedBlock]

/-- A call is right if its bytes fit. -/
lemma right_iff_of_encrypted (ho : o.Encrypts) (hencrypted : call.encrypted b o random = some encrypted)
    (hbuffer : buffer.bytes = encrypted ++ rest)
    (hrun : call.run b o base64Str memory random =
      memoryEncode b o base64Str (b.initVector random) buffer encrypted.length) :
    call.Right b o outside base64Str memory random ↔ EncryptFits b n m encrypted.length := by
  have hcases := @memoryEncode_cases b o (b.initVector random) m n encrypted rest buffer base64Str ho
    hbuffer
  simp only [length_encodedBlock_text] at hcases
  constructor
  · rintro ⟨outcome, houtcome, hright⟩
    rw [hrun] at houtcome
    split at hcases
    · rename_i hroom
      refine ⟨hroom.1, hroom.2, fun hmax hlength => ?_⟩
      rcases hcases with ⟨-, hne⟩ | ⟨-, hcut⟩
      · exact hne ⟨hlength, hmax⟩
      · obtain ⟨hresult, hstring⟩ := hcut outcome houtcome
        obtain ⟨length, hlength⟩ := Option.ne_none_iff_exists'.mp hresult
        obtain ⟨bytes, hbytes, htext, -⟩ := hright length hlength
        rw [hencrypted] at hbytes
        cases hbytes
        exact hstring htext
    · rw [hcases] at houtcome
      cases houtcome
  · rintro ⟨hroom, hestimate, harray⟩
    rw [if_pos ⟨hroom, hestimate⟩] at hcases
    rcases hcases with ⟨herror | ⟨s, houtcome, hstring⟩, -⟩ | ⟨⟨hlength, hmax⟩, -⟩
    · exact ⟨_, hrun.trans herror, nofun⟩
    · refine ⟨_, hrun.trans houtcome, fun length hlength => ⟨encrypted, hencrypted, hstring, ?_, ?_⟩⟩
      · cases hlength
        exact (length_encodedBlock_text _ _ _).symm
      · exact fun cipherKey msg dataSize => pubnubDecrypt_encodedText ho
    · exact absurd hlength (harray hmax)

lemma right_iff_of_buffered (ho : o.Encrypts) {cipherKey msg : Bytes}
    (hencrypted : call.encrypted b o random =
      o.encrypt (cipherKeyHash o cipherKey) (b.initVector random).bytes msg)
    (hrun : call.run b o base64Str memory random =
      pubnubEncryptBuffered b o base64Str random cipherKey msg buffer) :
    call.Right b o outside base64Str memory random ↔
      ∀ encrypted, call.encrypted b o random = some encrypted →
        EncryptFits b n m encrypted.length := by
  cases hencrypt : o.encrypt (cipherKeyHash o cipherKey) (b.initVector random).bytes msg with
  | none =>
      rw [hencrypted, hencrypt]
      refine iff_of_true ⟨⟨base64Str, none⟩, ?_, nofun⟩ nofun
      simp only [hrun, pubnubEncryptBuffered, hencrypt]
  | some encrypted =>
      rw [hencrypted, hencrypt]
      rw [hencrypt] at hencrypted
      by_cases hroom : 0 + encrypted.length ≤ m
      · obtain ⟨written, hwritten, hbytes⟩ := exists_write_of_le (a := buffer) hroom
        rw [List.take_zero, List.nil_append] at hbytes
        refine (right_iff_of_encrypted ho hencrypted hbytes ?_).trans ⟨?_, fun h => h encrypted rfl⟩
        · simp only [hrun, pubnubEncryptBuffered, hencrypt, hwritten, Option.bind_some]
        · rintro hfits _ ⟨⟩
          exact hfits
      · refine iff_of_false ?_ fun h => hroom ?_
        · rintro ⟨outcome, houtcome, -⟩
          simp only [hrun, pubnubEncryptBuffered, hencrypt, write_of_lt (Nat.not_le.mp hroom),
            Option.bind_none] at houtcome
          cases houtcome
        · exact (Nat.zero_add _).trans_le ((Nat.le_add_right _ _).trans (h encrypted rfl).room)

/-- **The calls.** -/
lemma encryptCall_right_iff (ho : o.Encrypts) : call.Right b o outside base64Str memory random ↔
    ∀ encrypted, call.encrypted b o random = some encrypted →
      EncryptFits b n (call.room b) encrypted.length := by
  cases call with
  | encrypt cipherKey msg => exact right_iff_of_buffered ho rfl rfl
  | encryptBuffered cipherKey msg buffer => exact right_iff_of_buffered ho rfl rfl
  | memoryEncode encrypted rest =>
      refine (right_iff_of_encrypted ho rfl rfl rfl).trans ⟨?_, fun h => h encrypted rfl⟩
      rintro hfits _ ⟨⟩
      exact hfits

/-- The memory of `pubnub_encrypt` is too small for whole blocks: the zero behind them is outside. -/
lemma workSize_le_encryptAllocSize (ho : o.Encrypts) {key iv msg : Bytes}
    (h : o.encrypt key iv msg = some encrypted) :
    b.workSize encrypted.length ≤ encryptAllocSize b msg ↔
      (b.randInitVector = true → msg.length % 16 ≠ 0) := by
  rw [CryptoBuild.workSize, encryptAllocSize, ho.length_encrypt _ _ _ _ h]
  by_cases hrandom : b.randInitVector = true
  · rw [if_pos hrandom, if_pos hrandom, forall_prop_of_true hrandom]
    omega
  · rw [if_neg hrandom, if_neg hrandom]
    refine iff_of_true ?_ fun h => absurd h hrandom
    omega

end Calls

/-! ## When an encrypted message is right -/

/-- Exactly when the encrypted bytes fit, what is returned is an error or the whole text, from which the
    message is decrypted. -/
theorem encrypt_right (b : CryptoBuild) (o : Openssl) (ho : o.Encrypts) (outside : UInt8 → UInt8)
    {n : Nat} (base64Str : CharArray n) (memory : (m : Nat) → CharArray m) (random : InitVector)
    (call : EncryptCall) : call.Right b o outside base64Str memory random ↔
      ∀ encrypted, call.encrypted b o random = some encrypted →
        EncryptFits b n (call.room b) encrypted.length :=
  encryptCall_right_iff ho

/-- What OpenSSL does with the message `hi` and the key `enigma`. -/
def hiOpenssl : Openssl where
  sha256 _ := [103, 164, 244, 95, 13, 29, 155, 198, 6, 72, 111, 196, 45, 196, 148, 22, 104, 231, 29,
    52, 238, 80, 7, 53, 254, 155, 126, 164, 98, 92, 104, 124]
  encrypt key iv msg :=
    if key = ascii "67a4f45f0d1d9bc606486fc42dc49416" ∧ iv = fixedInitVector ∧ msg = ascii "hi" then
      some [106, 102, 149, 9, 163, 91, 242, 146, 12, 234, 252, 48, 36, 225, 35, 196]
    else none
  decrypt key iv data :=
    if key = ascii "67a4f45f0d1d9bc606486fc42dc49416" ∧ iv = fixedInitVector ∧
        data = [106, 102, 149, 9, 163, 91, 242, 146, 12, 234, 252, 48, 36, 225, 35, 196] then
      ⟨true, ascii "hi"⟩
    else ⟨false, []⟩
  encodeBlock := encodedText rfc3548Options

lemma encrypts_hiOpenssl : hiOpenssl.Encrypts where
  length_encrypt key iv msg encrypted h := by
    obtain ⟨⟨-, -, hmsg⟩, hencrypted⟩ := Option.ite_none_right_eq_some.mp h
    rw [← Option.some.inj hencrypted, hmsg]
    rfl
  decrypt_encrypt key iv msg encrypted h := by
    obtain ⟨⟨hkey, hiv, hmsg⟩, hencrypted⟩ := Option.ite_none_right_eq_some.mp h
    rw [hkey, hiv, hmsg, ← Option.some.inj hencrypted]
    rfl
  encodeBlock data := rfl

/-- An initialization vector that may be drawn. -/
def drawnInitVector : InitVector := ⟨fixedInitVector, rfl⟩

/-- The message with the key. -/
def encryptHi : EncryptCall := .encrypt (ascii "enigma") (ascii "hi")

lemma encrypted_encryptHi : encryptHi.encrypted ⟨true⟩ hiOpenssl drawnInitVector =
    some [106, 102, 149, 9, 163, 91, 242, 146, 12, 234, 252, 48, 36, 225, 35, 196] := by
  decide +kernel

lemma base64MaxSize_thirtyTwo : base64MaxSize 32 = some 45 := by decide +kernel

/-- An array of 45 characters is enough. -/
theorem encrypt_right_hi : encryptHi.Right ⟨true⟩ hiOpenssl id (CharArray.blank 45) .blank
    drawnInitVector := by
  refine (encrypt_right ⟨true⟩ hiOpenssl encrypts_hiOpenssl id _ .blank drawnInitVector encryptHi).mpr ?_
  rw [encrypted_encryptHi]
  rintro _ ⟨⟩
  refine ⟨by decide, ?_, ?_⟩
  · change (base64MaxSize 32).isSome = true
    rw [base64MaxSize_thirtyTwo]
    rfl
  · intro h
    have hmax := base64MaxSize_thirtyTwo.symm.trans h
    cases hmax

/-- One of 44 characters is not, and is accepted. -/
theorem encrypt_not_always_right : ¬ ∀ (b : CryptoBuild) (o : Openssl), o.Encrypts →
    ∀ (outside : UInt8 → UInt8) (n : Nat) (base64Str : CharArray n)
      (memory : (m : Nat) → CharArray m) (random : InitVector) (call : EncryptCall),
      call.Right b o outside base64Str memory random := by
  intro h
  have hfits := (encryptCall_right_iff encrypts_hiOpenssl).mp
    (h ⟨true⟩ hiOpenssl encrypts_hiOpenssl id 44 (.blank 44) .blank drawnInitVector encryptHi) _
    encrypted_encryptHi
  exact hfits.array base64MaxSize_thirtyTwo rfl

end PubNub
