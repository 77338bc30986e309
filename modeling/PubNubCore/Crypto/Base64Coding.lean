import PubNubCore.Core.Types
import PubNubCore.Lib.CharArray
import PubNubCore.Lib.Sextets

/-!
# Base64 with options

`pbbase64_encode` and `pbbase64_decode` of `lib/base64/pbbase64.c`, for every set of options.  The
encoder goes over the bytes in groups of three, the decoder over the characters in groups of four;
the size of the output is asked for once, before the first group, with formulas of their own in the
arithmetic of `size_t`.

The decoder takes a group as a whole, also where the length it is given ends inside of it: it then
looks at the characters behind, and what they stand for is decoded with the others.  The result is
`none` where something is written outside of the output, where a character behind the terminating
NUL is read, and where the table with 256 entries is indexed with a negative `char`.
-/

namespace PubNub

/-! ## Options -/

/-- `COMMON_BASE64_ABC`. -/
def commonBase64Abc : Bytes :=
  ascii "ABCDEFGHIJKLMNOPQRSTUVWXYZabcdefghijklmnopqrstuvwxyz0123456789"

/-- `struct pbbase64_options`, without what is not supported yet. -/
structure PbBase64Options where
  alphabet : Bytes
  separator : UInt8
  ignoreInvalidChar : Bool

/-- The options of a variant: the last two characters of the alphabet, and the separator, zero if
    there is none. -/
def base64Variant (last : String) (separator : UInt8) (ignoreInvalidChar : Bool) :
    PbBase64Options :=
  ⟨commonBase64Abc ++ ascii last, separator, ignoreInvalidChar⟩

/-- `PBBASE64_RFC1421_OPTIONS`. -/
def rfc1421Options : PbBase64Options := base64Variant "+/" 61 false

/-- `PBBASE64_RFC2045_OPTIONS`. -/
def rfc2045Options : PbBase64Options := base64Variant "+/" 61 true

/-- `PBBASE64_RFC3548_OPTIONS`. -/
def rfc3548Options : PbBase64Options := base64Variant "+/" 61 false

/-- The alphabets and separators of the header for which there are no options. -/
def otherVariants : List PbBase64Options :=
  [("+/", 0), ("+,", 0), ("-_", 61), ("-_", 0), ("._", 45), (".-", 0), ("_:", 0), ("_-", 0),
    ("!-", 0), ("~-", 61)].map fun (last, separator) => base64Variant last separator false

/-- The alphabet has 64 characters, of which the first ones are those of all variants, and the
    separator is not one of them. -/
structure PbBase64Options.WellFormed (o : PbBase64Options) : Prop where
  common : o.alphabet.take 62 = commonBase64Abc
  length : o.alphabet.length = 64
  nodup : o.alphabet.Nodup
  isAscii : ∀ c ∈ o.separator :: o.alphabet, c < 128
  nonzero : 0 ∉ o.alphabet
  separates : o.separator ∉ o.alphabet

instance (o : PbBase64Options) : Decidable o.WellFormed :=
  decidable_of_iff (o.alphabet.take 62 = commonBase64Abc ∧ o.alphabet.length = 64 ∧
      o.alphabet.Nodup ∧ (o.separator :: o.alphabet).all (· < 128) = true ∧
      0 ∉ o.alphabet ∧ o.separator ∉ o.alphabet)
    ⟨fun ⟨a, b, c, d, e, f⟩ => ⟨a, b, c, fun x hx => of_decide_eq_true (List.all_eq_true.mp d x hx),
        e, f⟩,
      fun ⟨a, b, c, d, e, f⟩ => ⟨a, b, c, List.all_eq_true.mpr fun x hx => decide_eq_true (d x hx),
        e, f⟩⟩

example : ∀ o ∈ rfc1421Options :: rfc2045Options :: rfc3548Options :: otherVariants,
    o.WellFormed := by decide +kernel

section Coding

variable (o : PbBase64Options)

/-! ## Encoding -/

/-- `options->alphabet[b]`. -/
def PbBase64Options.letter (b : UInt8) : UInt8 := o.alphabet.getD b.toNat 0

/-- The text of the groups of three bytes, of which the last one may have fewer. -/
def encodedText : Bytes → Bytes
  | a :: b :: c :: data =>
      o.letter (sextet0 a) :: o.letter (sextet1 a b) :: o.letter (sextet2 b c) ::
        o.letter (sextet3 c) :: encodedText data
  | [a, b] =>
      [o.letter (sextet0 a), o.letter (sextet1 a b), o.letter (sextet2 b 0)] ++
        if o.separator = 0 then [] else [o.separator]
  | [a] =>
      [o.letter (sextet0 a), o.letter (sextet1 a 0)] ++
        if o.separator = 0 then [] else [o.separator, o.separator]
  | [] => []

/-- `pbbase64_encoded_length`. -/
def pbbase64EncodedLength (length : Nat) : Nat := (length + 2) % 2 ^ 64 / 3 * 4 % 2 ^ 64

/-- `pbbase64_char_array_size_for_encoding`. -/
def pbbase64CharArraySizeForEncoding (length : Nat) : Nat :=
  (pbbase64EncodedLength length + 1) % 2 ^ 64

/-- `pbbase64_encode` into the array from `s` on, of which `n` bytes may be used; what `*n` becomes,
    `none` for -1. -/
def pbbase64Encode {m : Nat} (data : Bytes) (a : CharArray m) (s n : Nat) :
    Option (CharArray m × Option Nat) :=
  if n < pbbase64CharArraySizeForEncoding data.length then some (a, none)
  else (a.write s (encodedText o data ++ [0])).map fun a => (a, some (encodedText o data).length)

/-! ## Decoding -/

/-- `decode_tab_C`. -/
def decodeTabC (c : UInt8) : UInt8 :=
  if 65 ≤ c && c ≤ 90 then c - 65
  else if 97 ≤ c && c ≤ 122 then c - 71
  else if 48 ≤ c && c ≤ 57 then c + 4
  else 64

/-- `decode_tab`. -/
def PbBase64Options.decodeTab (c : UInt8) : UInt8 :=
  if c = o.letter 63 then 63 else if c = o.letter 62 then 62 else decodeTabC c

/-- `decode_tab[(int)c]`, where a `char` may be signed. -/
def PbBase64Options.lookUp (charSigned : Bool) (c : UInt8) : Option UInt8 :=
  if charSigned = true ∧ 128 ≤ c then none else some (o.decodeTab c)

/-- What becomes of a group of which the first two characters have been accepted: the bytes that are
    written, and what is returned, zero to go on. -/
def decodeRest (w0 w1 w2 w3 c d : UInt8) : Bytes × Int :=
  if w2 < 64 then
    if w3 < 64 then ([byteOf0 w0 w1, byteOf1 w1 w2, byteOf2 w2 w3], 0)
    else
      ([byteOf0 w0 w1, byteOf1 w1 w2],
        if d ≠ o.separator ∧ o.ignoreInvalidChar = false then -14 else 0)
  else
    ([byteOf0 w0 w1], if c ≠ o.separator ∧ o.ignoreInvalidChar = false then -15 else 0)

/-- The body of the loop of `pbbase64_decode`.  The cells are the characters from the group on, with
    the NUL at the end. -/
def decodeFour (charSigned : Bool) : (cells : Bytes) → Option (Bytes × Int)
  | [] => none
  | a :: cells =>
      (o.lookUp charSigned a).bind fun w0 =>
        if w0 = 64 ∧ o.ignoreInvalidChar = false then some ([], -12)
        else match cells with
          | [] => none
          | b :: cells =>
              (o.lookUp charSigned b).bind fun w1 =>
                if w1 = 64 ∧ o.ignoreInvalidChar = false then some ([], -13)
                else match cells with
                  | c :: d :: _ =>
                      (o.lookUp charSigned c).bind fun w2 =>
                        (o.lookUp charSigned d).map fun w3 => decodeRest o w0 w1 w2 w3 c d
                  | _ => none

/-- The loop of `pbbase64_decode`, with `n` characters left of the length and `out` bytes written;
    what is returned, and how many bytes there are then. -/
def pbbase64DecodeLoop {m : Nat} (charSigned : Bool) :
    Nat → CharArray m → (out n : Nat) → (cells : Bytes) → Option (CharArray m × Int × Nat)
  | _, a, out, 0, _ => some (a, 0, out)
  | 0, _, _, _ + 1, _ => none
  | fuel + 1, a, out, n + 1, cells =>
      (decodeFour o charSigned cells).bind fun (bytes, result) =>
        (a.write out bytes).bind fun a =>
          if result ≠ 0 then some (a, result, out)
          else pbbase64DecodeLoop charSigned fuel a (out + bytes.length) (n + 1 - 4) (cells.drop 4)

/-- `pbbase64_decoded_length` in the arithmetic of `size_t`. -/
def pbbase64DecodedSize (n : Nat) : Nat := (n * 3 + 3) % 2 ^ 64 / 4

/-- `pbbase64_decode` of `n` characters into a block of `m` bytes. -/
def pbbase64Decode {m : Nat} (charSigned : Bool) (s : Bytes) (n : Nat) (data : CharArray m) :
    Option (CharArray m × Int × Nat) :=
  if m < pbbase64DecodedSize n then some (data, -1, m)
  else pbbase64DecodeLoop o charSigned n data 0 n (s ++ [0])

/-! ## What a text stands for -/

/-- The bytes of a group. -/
def groupBytes (a b c d : UInt8) : Bytes :=
  (decodeRest o (o.decodeTab a) (o.decodeTab b) (o.decodeTab c) (o.decodeTab d) c d).1

/-- The bytes that characters stand for.  What is missing of the last group stands for nothing, and
    one character alone does so too. -/
def decodedBytes : Bytes → Bytes
  | a :: b :: c :: d :: s => groupBytes o a b c d ++ decodedBytes s
  | [a, b, c] => groupBytes o a b c 0
  | [a, b] => groupBytes o a b 0 0
  | [_] => []
  | [] => []

/-- A call is as it should be: nothing is read or written outside, and if it succeeds, the output is
    what the first `n` characters stand for. -/
def DecodesRight {m : Nat} (s : Bytes) (n : Nat)
    (outcome : Option (CharArray m × Int × Nat)) : Prop :=
  ∃ a result size, outcome = some (a, result, size) ∧ (result = 0 →
    size = (decodedBytes o (s.take n)).length ∧ a.bytes.take size = decodedBytes o (s.take n))

/-! ## The texts that are decoded right -/

/-- A character of the alphabet. -/
def PbBase64Options.valid (c : UInt8) : Bool := decide (o.decodeTab c < 64)

/-- The character is refused at the beginning of a group. -/
def PbBase64Options.refuses (c : UInt8) : Bool := !o.ignoreInvalidChar && !o.valid c

/-- The group is refused for the sake of its last two characters. -/
def PbBase64Options.refusesLast (c d : UInt8) : Bool :=
  !o.ignoreInvalidChar && if o.valid c then !o.valid d && d != o.separator else c != o.separator

/-- How many bytes are written of a group with these two characters at its end. -/
def PbBase64Options.groupSize (c d : UInt8) : Nat :=
  if o.valid c then if o.valid d then 3 else 2 else 1

/-- The table has an entry for the character. -/
def Indexes (charSigned : Bool) (c : UInt8) : Prop := charSigned = true → c < 128

instance (charSigned : Bool) (c : UInt8) : Decidable (Indexes charSigned c) :=
  inferInstanceAs (Decidable (_ → _))

/-- If only `n` characters of a group are meant, the ones behind them stand for nothing. -/
def PbBase64Options.NoSurplus (n : Nat) (c d : UInt8) : Prop :=
  n ≠ 1 ∧ (n = 2 → o.valid c = false) ∧ (n = 3 → o.valid c = true → o.valid d = false)

/-- The groups that get decoded end with the NUL or before it, have an index into the table for each
    character that is looked up, fit into the room, and if `n` ends inside the last one, what is
    behind stands for nothing.  A group that is refused only has to be so up to there. -/
def DecodeClear (charSigned : Bool) : (room n : Nat) → (cells : Bytes) → Prop
  | _, 0, _ => True
  | room, n + 1, a :: b :: c :: d :: cells =>
      Indexes charSigned a ∧ (o.refuses a = true ∨
        Indexes charSigned b ∧ (o.refuses b = true ∨
          Indexes charSigned c ∧ Indexes charSigned d ∧ o.groupSize c d ≤ room ∧
            (o.refusesLast c d = true ∨ o.NoSurplus (n + 1) c d ∧
              DecodeClear charSigned (room - o.groupSize c d) (n + 1 - 4) cells)))
  | _, _ + 1, a :: b :: _ =>
      Indexes charSigned a ∧ (o.refuses a = true ∨ Indexes charSigned b ∧ o.refuses b = true)
  | _, _ + 1, [a] => Indexes charSigned a ∧ o.refuses a = true
  | _, _ + 1, [] => False

end Coding

/-! ## One group -/

section Groups

variable {o : PbBase64Options} {charSigned : Bool} {a b c d : UInt8} {cells : Bytes}

lemma decodeTab_le (c : UInt8) : o.decodeTab c ≤ 64 := by
  have hall : ∀ n < 256, decodeTabC (UInt8.ofNat n) ≤ 64 := by decide +kernel
  have hc := hall c.toNat c.toNat_lt
  rw [UInt8.ofNat_toNat] at hc
  rw [PbBase64Options.decodeTab]
  split
  · decide
  · split
    · decide
    · exact hc

lemma decodeTab_eq_of_not_valid (h : o.valid c = false) : o.decodeTab c = 64 :=
  UInt8.le_antisymm (decodeTab_le c) (UInt8.not_lt.mp (of_decide_eq_false h))

lemma refuses_iff : o.refuses c = true ↔ o.decodeTab c = 64 ∧ o.ignoreInvalidChar = false := by
  rw [PbBase64Options.refuses, Bool.and_eq_true, Bool.not_eq_true', Bool.not_eq_true',
    and_comm]
  refine and_congr_left fun _ => ⟨decodeTab_eq_of_not_valid, fun h => ?_⟩
  rw [PbBase64Options.valid, h]
  rfl

lemma lookUp_of_indexes (h : Indexes charSigned c) :
    o.lookUp charSigned c = some (o.decodeTab c) := by
  rw [PbBase64Options.lookUp, if_neg]
  rintro ⟨hsigned, hle⟩
  exact UInt8.not_lt.mpr hle (h hsigned)

lemma lookUp_of_not_indexes (h : ¬ Indexes charSigned c) : o.lookUp charSigned c = none := by
  rw [Indexes, Classical.not_imp, UInt8.not_lt] at h
  rw [PbBase64Options.lookUp, if_pos h]

lemma length_groupBytes : (groupBytes o a b c d).length = o.groupSize c d := by
  rw [groupBytes, decodeRest, PbBase64Options.groupSize]
  simp only [PbBase64Options.valid, decide_eq_true_eq]
  split
  · split
    · rfl
    · rfl
  · rfl

/-- What is returned for a group. -/
def groupResult (o : PbBase64Options) (a b c d : UInt8) : Int :=
  (decodeRest o (o.decodeTab a) (o.decodeTab b) (o.decodeTab c) (o.decodeTab d) c d).2

lemma groupResult_ne_zero : groupResult o a b c d ≠ 0 ↔ o.refusesLast c d = true := by
  rw [groupResult, decodeRest, PbBase64Options.refusesLast]
  simp only [PbBase64Options.valid, decide_eq_true_eq]
  cases o.ignoreInvalidChar with
  | true =>
      simp only [Bool.true_eq_false, and_false, if_false, Bool.not_true, Bool.false_and,
        Bool.false_eq_true, iff_false, not_not]
      split
      · split <;> rfl
      · rfl
  | false =>
      simp only [and_true, Bool.not_false, Bool.true_and]
      split
      · split
        · rename_i hd
          simp [hd]
        · rename_i hd
          by_cases hsep : d = o.separator <;> simp [hd, hsep]
      · by_cases hsep : c = o.separator <;> simp [hsep]

lemma not_refuses_iff :
    ¬ o.refuses c = true ↔ ¬ (o.decodeTab c = 64 ∧ o.ignoreInvalidChar = false) :=
  not_congr refuses_iff

/-- A group without an index for its first character is not defined. -/
lemma decodeFour_of_not_indexes (h : ¬ Indexes charSigned a) :
    decodeFour o charSigned (a :: cells) = none := by
  rw [decodeFour, lookUp_of_not_indexes h]
  rfl

lemma decodeFour_of_refuses (h : Indexes charSigned a) (hrefuses : o.refuses a = true) :
    decodeFour o charSigned (a :: cells) = some ([], -12) := by
  rw [decodeFour, lookUp_of_indexes h, Option.bind_some, if_pos (refuses_iff.mp hrefuses)]

lemma decodeFour_one (h : Indexes charSigned a) (hrefuses : ¬ o.refuses a = true) :
    decodeFour o charSigned [a] = none := by
  rw [decodeFour, lookUp_of_indexes h, Option.bind_some, if_neg (not_refuses_iff.mp hrefuses)]

section Second

variable (ha : Indexes charSigned a) (hra : ¬ o.refuses a = true)

include ha hra

/-- The same for the second character. -/
lemma decodeFour_of_not_indexes_second (hb : ¬ Indexes charSigned b) :
    decodeFour o charSigned (a :: b :: cells) = none := by
  rw [decodeFour, lookUp_of_indexes ha, Option.bind_some, if_neg (not_refuses_iff.mp hra)]
  dsimp only
  rw [lookUp_of_not_indexes hb]
  rfl

lemma decodeFour_of_refuses_second (hb : Indexes charSigned b) (hrb : o.refuses b = true) :
    decodeFour o charSigned (a :: b :: cells) = some ([], -13) := by
  rw [decodeFour, lookUp_of_indexes ha, Option.bind_some, if_neg (not_refuses_iff.mp hra)]
  dsimp only
  rw [lookUp_of_indexes hb, Option.bind_some, if_pos (refuses_iff.mp hrb)]

/-- Behind two characters that are accepted there have to be two others. -/
lemma decodeFour_short (hb : Indexes charSigned b) (hrb : ¬ o.refuses b = true)
    (hcells : cells.length < 2) : decodeFour o charSigned (a :: b :: cells) = none := by
  rw [decodeFour, lookUp_of_indexes ha, Option.bind_some, if_neg (not_refuses_iff.mp hra)]
  dsimp only
  rw [lookUp_of_indexes hb, Option.bind_some, if_neg (not_refuses_iff.mp hrb)]
  match cells, hcells with
  | [], _ => rfl
  | [_], _ => rfl

lemma decodeFour_of_not_indexes_last (hb : Indexes charSigned b) (hrb : ¬ o.refuses b = true)
    (hcd : ¬ (Indexes charSigned c ∧ Indexes charSigned d)) :
    decodeFour o charSigned (a :: b :: c :: d :: cells) = none := by
  rw [decodeFour, lookUp_of_indexes ha, Option.bind_some, if_neg (not_refuses_iff.mp hra)]
  dsimp only
  rw [lookUp_of_indexes hb, Option.bind_some, if_neg (not_refuses_iff.mp hrb)]
  by_cases hc : Indexes charSigned c
  · rw [lookUp_of_indexes hc, lookUp_of_not_indexes fun hd => hcd ⟨hc, hd⟩]
    rfl
  · rw [lookUp_of_not_indexes hc]
    rfl

/-- A whole group. -/
lemma decodeFour_four (hb : Indexes charSigned b) (hrb : ¬ o.refuses b = true)
    (hc : Indexes charSigned c) (hd : Indexes charSigned d) :
    decodeFour o charSigned (a :: b :: c :: d :: cells) =
      some (groupBytes o a b c d, groupResult o a b c d) := by
  rw [decodeFour, lookUp_of_indexes ha, Option.bind_some, if_neg (not_refuses_iff.mp hra)]
  dsimp only
  rw [lookUp_of_indexes hb, Option.bind_some, if_neg (not_refuses_iff.mp hrb),
    lookUp_of_indexes hc, lookUp_of_indexes hd]
  rfl

end Second

end Groups

/-! ## The loop -/

section Loop

variable {o : PbBase64Options} {charSigned : Bool} {m : Nat} {a : CharArray m}
  {before expected bytes : Bytes}

/-- The loop comes to an end, and if it succeeds, the output is what there was before with what is
    expected behind it. -/
def LoopRight (before expected : Bytes) (outcome : Option (CharArray m × Int × Nat)) : Prop :=
  ∃ a result size, outcome = some (a, result, size) ∧ (result = 0 →
    size = (before ++ expected).length ∧ a.bytes.take size = before ++ expected)

lemma not_loopRight_none : ¬ LoopRight (m := m) before expected none := by
  rintro ⟨a, result, size, heq, -⟩
  cases heq

lemma loopRight_of_error {result : Int} {size : Nat} (h : result ≠ 0) :
    LoopRight before expected (some (a, result, size)) :=
  ⟨a, result, size, rfl, fun hzero => absurd hzero h⟩

/-- At the end the output is what it should be. -/
lemma loopRight_end (ha : a.bytes.take (before ++ bytes).length = before ++ bytes) :
    LoopRight before expected (some (a, 0, (before ++ bytes).length)) ↔ bytes = expected := by
  constructor
  · rintro ⟨a', result, size, heq, hright⟩
    cases heq
    obtain ⟨-, hbytes⟩ := hright rfl
    rw [ha] at hbytes
    exact List.append_cancel_left hbytes
  · rintro rfl
    exact ⟨a, 0, _, rfl, fun _ => ⟨rfl, ha⟩⟩

/-- The same where nothing was expected any more. -/
lemma loopRight_nil (ha : a.bytes.take before.length = before) :
    LoopRight before [] (some (a, 0, before.length)) := by
  refine ⟨a, 0, before.length, rfl, fun _ => ?_⟩
  rw [List.append_nil]
  exact ⟨rfl, ha⟩

/-- What is written goes behind what there is, if there is room for it. -/
lemma write_behind {room : Nat} (ha : a.bytes.take before.length = before)
    (hm : before.length + room = m) :
    (bytes.length ≤ room → ∃ b, a.write before.length bytes = some b ∧
      b.bytes.take (before ++ bytes).length = before ++ bytes) ∧
    (¬ bytes.length ≤ room → a.write before.length bytes = none) := by
  have hlength := a.length_bytes
  constructor
  · intro hle
    have hsplit : a.bytes = before ++ a.bytes.drop before.length :=
      calc a.bytes = a.bytes.take before.length ++ a.bytes.drop before.length :=
            (List.take_append_drop before.length a.bytes).symm
        _ = before ++ a.bytes.drop before.length := by rw [ha]
    have hroom : bytes.length ≤ (a.bytes.drop before.length).length := by
      rw [List.length_drop]
      omega
    obtain ⟨b, hb, hbytes⟩ := CharArray.exists_write hsplit hroom
    exact ⟨b, hb, by rw [hbytes, List.take_left]⟩
  · intro hle
    rw [CharArray.write, dif_neg (by omega)]

lemma loopRight_append {outcome : Option (CharArray m × Int × Nat)} :
    LoopRight before (bytes ++ expected) outcome ↔ LoopRight (before ++ bytes) expected outcome := by
  rw [LoopRight, LoopRight, List.append_assoc]

section Turn

variable {fuel n room : Nat} {c d e f : UInt8} {cells : Bytes}

/-- A group that is not defined. -/
lemma not_loopRight_of_decodeFour (h : decodeFour o charSigned cells = none) :
    ¬ LoopRight before expected
      (pbbase64DecodeLoop o charSigned (fuel + 1) a before.length (n + 1) cells) := by
  rw [pbbase64DecodeLoop, h]
  exact not_loopRight_none

/-- A group that is refused at one of its first characters. -/
lemma loopRight_of_refused {result : Int} (hm : before.length + room = m)
    (h : decodeFour o charSigned cells = some ([], result)) (hresult : result ≠ 0) :
    LoopRight before expected
      (pbbase64DecodeLoop o charSigned (fuel + 1) a before.length (n + 1) cells) := by
  have hle : before.length + ([] : Bytes).length ≤ m := by
    rw [List.length_nil]
    omega
  obtain ⟨b, hb⟩ := Option.isSome_iff_exists.mp (CharArray.isSome_write (a := a).mpr hle)
  rw [pbbase64DecodeLoop, h, Option.bind_some]
  simp only [hb, Option.bind_some, if_pos hresult]
  exact loopRight_of_error hresult

/-- The first two characters decide, or the others do. -/
lemma loopRight_head {p : Prop} (hm : before.length + room = m)
    (hrest : Indexes charSigned c → ¬ o.refuses c = true → Indexes charSigned d →
      ¬ o.refuses d = true → (LoopRight before expected (pbbase64DecodeLoop o charSigned (fuel + 1) a
        before.length (n + 1) (c :: d :: cells)) ↔ p)) :
    LoopRight before expected (pbbase64DecodeLoop o charSigned (fuel + 1) a before.length (n + 1)
        (c :: d :: cells)) ↔
      Indexes charSigned c ∧ (o.refuses c = true ∨
        Indexes charSigned d ∧ (o.refuses d = true ∨ p)) := by
  by_cases hc : Indexes charSigned c
  · by_cases hrc : o.refuses c = true
    · exact iff_of_true (loopRight_of_refused hm (decodeFour_of_refuses hc hrc) (by decide))
        ⟨hc, .inl hrc⟩
    · by_cases hd : Indexes charSigned d
      · by_cases hrd : o.refuses d = true
        · exact iff_of_true (loopRight_of_refused hm (decodeFour_of_refuses_second hc hrc hd hrd)
            (by decide)) ⟨hc, .inr ⟨hd, .inl hrd⟩⟩
        · rw [hrest hc hrc hd hrd]
          simp only [hc, hrc, hd, hrd, true_and, Bool.false_eq_true, false_or]
      · refine iff_of_false (not_loopRight_of_decodeFour
          (decodeFour_of_not_indexes_second hc hrc hd)) ?_
        rintro ⟨-, h | h⟩
        · exact hrc h
        · exact hd h.1
  · exact iff_of_false (not_loopRight_of_decodeFour (decodeFour_of_not_indexes hc)) fun h => hc h.1

/-- Fewer than two characters behind the first two. -/
lemma loopRight_short (hm : before.length + room = m) (hcells : cells.length < 2) :
    LoopRight before expected (pbbase64DecodeLoop o charSigned (fuel + 1) a before.length (n + 1)
        (c :: d :: cells)) ↔
      Indexes charSigned c ∧ (o.refuses c = true ∨
        Indexes charSigned d ∧ o.refuses d = true) := by
  rw [loopRight_head hm fun hc hrc hd hrd => iff_false_intro
    (not_loopRight_of_decodeFour (decodeFour_short hc hrc hd hrd hcells)), or_false]

/-- A whole group, of which the first two characters are accepted. -/
lemma loopRight_four {left : Bytes} (ha : a.bytes.take before.length = before)
    (hm : before.length + room = m) (hc : Indexes charSigned c) (hrc : ¬ o.refuses c = true)
    (hd : Indexes charSigned d) (hrd : ¬ o.refuses d = true)
    (hnext : ∀ b : CharArray m, b.bytes.take (before ++ groupBytes o c d e f).length =
        before ++ groupBytes o c d e f → o.groupSize e f ≤ room →
      (LoopRight before expected (pbbase64DecodeLoop o charSigned fuel b
          (before ++ groupBytes o c d e f).length (n + 1 - 4) left) ↔
        o.NoSurplus (n + 1) e f ∧
          DecodeClear o charSigned (room - o.groupSize e f) (n + 1 - 4) left)) :
    LoopRight before expected (pbbase64DecodeLoop o charSigned (fuel + 1) a before.length (n + 1)
        (c :: d :: e :: f :: left)) ↔
      Indexes charSigned e ∧ Indexes charSigned f ∧ o.groupSize e f ≤ room ∧
        (o.refusesLast e f = true ∨ o.NoSurplus (n + 1) e f ∧
          DecodeClear o charSigned (room - o.groupSize e f) (n + 1 - 4) left) := by
  by_cases hlast : Indexes charSigned e ∧ Indexes charSigned f
  · obtain ⟨he, hf⟩ := hlast
    have hwrite := @write_behind _ a before (groupBytes o c d e f) _ ha hm
    rw [length_groupBytes] at hwrite
    rw [pbbase64DecodeLoop, decodeFour_four hc hrc hd hrd he hf, Option.bind_some]
    dsimp only
    by_cases hroom : o.groupSize e f ≤ room
    · obtain ⟨b, hb, hbytes⟩ := hwrite.1 hroom
      rw [hb, Option.bind_some]
      by_cases hrefuses : o.refusesLast e f = true
      · rw [if_pos (groupResult_ne_zero.mpr hrefuses)]
        exact iff_of_true (loopRight_of_error (groupResult_ne_zero.mpr hrefuses))
          ⟨he, hf, hroom, .inl hrefuses⟩
      · rw [if_neg (groupResult_ne_zero.not.mpr hrefuses), ← List.length_append]
        simp only [he, hf, hroom, hrefuses, true_and, Bool.false_eq_true, false_or]
        exact hnext b hbytes hroom
    · rw [hwrite.2 hroom]
      exact iff_of_false not_loopRight_none fun h => hroom h.2.2.1
  · exact iff_of_false (not_loopRight_of_decodeFour (decodeFour_of_not_indexes_last hc hrc hd hrd
      hlast)) fun h => hlast ⟨h.1, h.2.1⟩

end Turn

/-- The terminating NUL is no character of the alphabet. -/
lemma not_valid_zero (ho : o.WellFormed) : o.valid 0 = false := by
  have hletter : ∀ b : UInt8, b.toNat < 64 → (0 : UInt8) ≠ o.letter b := by
    intro b hb hzero
    refine ho.nonzero ?_
    have hindex : b.toNat < o.alphabet.length := by rwa [ho.length]
    rw [hzero, PbBase64Options.letter, List.getD_eq_getElem?_getD, List.getElem?_eq_getElem hindex]
    exact List.getElem_mem hindex
  rw [PbBase64Options.valid, PbBase64Options.decodeTab, if_neg (hletter 63 (by decide)),
    if_neg (hletter 62 (by decide))]
  decide

/-- What stands for nothing makes no difference. -/
lemma groupBytes_eq_iff {c d e f : UInt8} (ho : o.WellFormed) :
    (groupBytes o c d e f = groupBytes o c d 0 0 ↔ o.valid e = false) ∧
      (groupBytes o c d e f = groupBytes o c d e 0 ↔ (o.valid e = true → o.valid f = false)) := by
  have hzero : ¬ o.decodeTab 0 < 64 := of_decide_eq_false (not_valid_zero ho)
  simp only [groupBytes, decodeRest, PbBase64Options.valid, decide_eq_false_iff_not,
    decide_eq_true_eq, if_neg hzero]
  by_cases he : o.decodeTab e < 64
  · by_cases hf : o.decodeTab f < 64
    · simp [he, hf]
    · simp [he, hf]
  · simp [he]

/-- At the end of the length the last group has to be what is expected of it. -/
lemma groupBytes_eq_decodedBytes {c d e f : UInt8} {left : Bytes} {n : Nat} (ho : o.WellFormed)
    (hn : n < 3) :
    groupBytes o c d e f = decodedBytes o ((c :: d :: e :: left).take (n + 1)) ↔
      o.NoSurplus (n + 1) e f := by
  have heq := groupBytes_eq_iff (c := c) (d := d) (e := e) (f := f) ho
  rw [PbBase64Options.NoSurplus]
  match n, hn with
  | 0, _ =>
      have hne : groupBytes o c d e f ≠ [] := by
        refine List.ne_nil_of_length_pos ?_
        rw [length_groupBytes, PbBase64Options.groupSize]
        split
        · split
          · decide
          · decide
        · decide
      exact iff_of_false hne fun h => h.1 rfl
  | 1, _ =>
      refine heq.1.trans ⟨fun h => ⟨by decide, fun _ => h, fun hn => ?_⟩, fun h => h.2.1 rfl⟩
      exact absurd hn (by decide)
  | 2, _ =>
      refine heq.2.trans ⟨fun h => ⟨by decide, fun hn => ?_, fun _ => h⟩, fun h => h.2.2 rfl⟩
      exact absurd hn (by decide)

lemma noSurplus_of_le {e f : UInt8} {n : Nat} (h : 4 ≤ n) : o.NoSurplus n e f :=
  ⟨by omega, by omega, by omega⟩

lemma loop_zero {fuel out : Nat} {cells : Bytes} :
    pbbase64DecodeLoop o charSigned fuel a out 0 cells = some (a, 0, out) := by
  cases fuel <;> rfl

lemma decodeClear_zero {room : Nat} {cells : Bytes} : DecodeClear o charSigned room 0 cells := by
  cases cells <;> rw [DecodeClear] <;> trivial

/-- The rest of the text, when `n` characters are left of the length. -/
def RestRight (o : PbBase64Options) (charSigned : Bool) (m fuel : Nat) : Prop :=
  ∀ {a : CharArray m} {before left cells : Bytes} {n room : Nat},
    a.bytes.take before.length = before → before.length + room = m → n ≤ fuel →
    (cells = left ++ [0] ∨ cells = [] ∧ left = []) →
    (LoopRight before (decodedBytes o (left.take n))
        (pbbase64DecodeLoop o charSigned fuel a before.length n cells) ↔
      DecodeClear o charSigned room n cells)

/-- A group of which all characters are there. -/
lemma loopRight_group {fuel n room : Nat} {c d e f : UInt8} {left left' cells : Bytes}
    (ho : o.WellFormed) (ih : RestRight o charSigned m fuel)
    (ha : a.bytes.take before.length = before) (hm : before.length + room = m) (hn : n ≤ fuel)
    (hcells : cells = left' ++ [0] ∨ cells = [] ∧ left' = [])
    (hleft : ∀ k, decodedBytes o ((c :: d :: e :: left).take (k + 4)) =
      groupBytes o c d e f ++ decodedBytes o (left'.take k)) :
    LoopRight before (decodedBytes o ((c :: d :: e :: left).take (n + 1)))
        (pbbase64DecodeLoop o charSigned (fuel + 1) a before.length (n + 1)
          (c :: d :: e :: f :: cells)) ↔
      DecodeClear o charSigned room (n + 1) (c :: d :: e :: f :: cells) := by
  rw [DecodeClear]
  refine loopRight_head hm fun hc hrc hd hrd =>
    loopRight_four ha hm hc hrc hd hrd fun b hb hroom => ?_
  by_cases hfour : n < 3
  · have hzero : n + 1 - 4 = 0 := by omega
    rw [hzero, loop_zero, loopRight_end hb, groupBytes_eq_decodedBytes ho hfour]
    exact (and_iff_left decodeClear_zero).symm
  · obtain ⟨k, rfl⟩ : ∃ k, n = k + 3 := ⟨n - 3, by omega⟩
    have hm' : (before ++ groupBytes o c d e f).length + (room - o.groupSize e f) = m := by
      rw [List.length_append, length_groupBytes]
      omega
    have hk : k + 3 + 1 - 4 = k := by omega
    rw [hleft k, loopRight_append, hk, ih hb hm' (by omega) hcells]
    exact (and_iff_right (noSurplus_of_le (by omega))).symm

/-- **The loop.**  It is right if and only if the rest of the text is one of those that are. -/
lemma restRight (ho : o.WellFormed) (fuel : Nat) : RestRight o charSigned m fuel := by
  induction fuel with
  | zero =>
      intro a before left cells n room ha hm hn hcells
      obtain rfl := Nat.le_zero.mp hn
      exact iff_of_true (loopRight_nil ha) decodeClear_zero
  | succ fuel ih =>
      intro a before left cells n room ha hm hn hcells
      cases n with
      | zero =>
          exact iff_of_true (loopRight_nil ha) decodeClear_zero
      | succ n =>
          rcases hcells with rfl | ⟨rfl, rfl⟩
          · have hzero : Indexes charSigned 0 := fun _ => by decide
            match left with
            | [] =>
                by_cases hr : o.refuses 0 = true
                · exact iff_of_true (loopRight_of_refused hm (decodeFour_of_refuses hzero hr)
                    (by decide)) ⟨hzero, hr⟩
                · exact iff_of_false (not_loopRight_of_decodeFour (decodeFour_one hzero hr))
                    fun h => hr h.2
            | [c] => exact loopRight_short hm Nat.two_pos
            | [c, d] => exact loopRight_short hm Nat.one_lt_two
            | [c, d, e] =>
                have hall : ∀ k, decodedBytes o ([c, d, e].take (k + 4)) =
                    groupBytes o c d e 0 ++ decodedBytes o (([] : Bytes).take k) := by
                  intro k
                  rw [List.take_nil, decodedBytes, List.append_nil]
                  rfl
                exact loopRight_group ho ih ha hm (Nat.le_of_succ_le_succ hn) (.inr ⟨rfl, rfl⟩) hall
            | c :: d :: e :: f :: left =>
                have hall : ∀ k, decodedBytes o ((c :: d :: e :: f :: left).take (k + 4)) =
                    groupBytes o c d e f ++ decodedBytes o (left.take k) := fun k => rfl
                exact loopRight_group ho ih ha hm (Nat.le_of_succ_le_succ hn) (.inl rfl) hall
          · exact iff_of_false (not_loopRight_of_decodeFour rfl) id

end Loop

end PubNub
