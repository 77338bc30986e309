import PubNubCore.Core.Types

/-!
# Base64 decoding

`pbbase64_decode` with the options of RFC 3548, which are the ones that received text is decoded
with.  It takes four characters at a time; where fewer are left it goes on into the NUL at the
end of the text, and refuses the group, or takes it when the third character is the separator.

The table has 256 entries and is indexed with a `char`.  Where that is signed, the characters from
128 on index what stands in front of the table: `outside` says what that is.
-/

namespace PubNub

/-- `decode_tab_C`, with the two characters `pbbase64_decode` adds for the alphabet. -/
def decodeTab (outside : UInt8 → UInt8) (c : UInt8) : UInt8 :=
  if 128 ≤ c then outside c
  else if 65 ≤ c && c ≤ 90 then c - 65
  else if 97 ≤ c && c ≤ 122 then c - 71
  else if 48 ≤ c && c ≤ 57 then c + 4
  else if c = 43 then 62
  else if c = 47 then 63
  else 64

/-- `PBBASE64_SEP_RFC3548`. -/
def base64Separator : UInt8 := 61

/-- The body of the loop of `pbbase64_decode`: one group of four characters. -/
def decodeGroup (outside : UInt8 → UInt8) (a b c d : UInt8) : Option Bytes :=
  let word0 := decodeTab outside a
  let word1 := decodeTab outside b
  let word2 := decodeTab outside c
  let word3 := decodeTab outside d
  if word0 = 64 ∨ word1 = 64 then none
  else
    let first := (word0 <<< 2) ||| (word1 >>> 4)
    let second := (word1 <<< 4) ||| (word2 >>> 2)
    if word2 < 64 then
      if word3 < 64 then some [first, second, (word2 <<< 6) ||| word3]
      else if d = base64Separator then some [first, second]
      else none
    else if c = base64Separator then some [first]
    else none

/-- The loop.  A group that is not complete has the NUL at the end of the text in it; what stands
    behind that is only looked at in a group that is refused. -/
def decodeGroups (outside : UInt8 → UInt8) : Bytes → Option Bytes
  | [] => some []
  | [a] => decodeGroup outside a 0 0 0
  | [a, b] => decodeGroup outside a b 0 0
  | [a, b, c] => decodeGroup outside a b c 0
  | a :: b :: c :: d :: s => do
      let group ← decodeGroup outside a b c d
      let rest ← decodeGroups outside s
      return group ++ rest

/-- `pbbase64_decoded_length`. -/
def pbbase64DecodedLength (n : Nat) : Nat := (n * 3 + 3) / 4

/-- `pbbase64_decode_std_str` into a block of this size. -/
def pbbase64DecodeStdStr (outside : UInt8 → UInt8) (s : Bytes) (size : Nat) : Option Bytes :=
  if size < pbbase64DecodedLength s.length then none else decodeGroups outside s

/-- The block `pbbase64_decode_alloc` decodes into. -/
def pbbase64AllocSize (s : Bytes) : Nat := pbbase64DecodedLength s.length + 1

/-- `pbbase64_decode_alloc_std_str`. -/
def pbbase64DecodeAllocStdStr (outside : UInt8 → UInt8) (s : Bytes) : Option Bytes :=
  pbbase64DecodeStdStr outside s (pbbase64AllocSize s)

section

variable {outside : UInt8 → UInt8}

lemma decodeTab_nul : decodeTab outside 0 = 64 := rfl

lemma length_decodeGroup_le {a b c d : UInt8} {out : Bytes}
    (h : decodeGroup outside a b c d = some out) : out.length ≤ 3 := by
  simp only [decodeGroup, Option.ite_none_left_eq_some] at h
  obtain ⟨-, h⟩ := h
  split at h
  · split at h
    · cases h
      simp
    · simp only [Option.ite_none_right_eq_some, Option.some.injEq] at h
      obtain ⟨-, rfl⟩ := h
      simp
  · simp only [Option.ite_none_right_eq_some, Option.some.injEq] at h
    obtain ⟨-, rfl⟩ := h
    simp

/-- An incomplete group is refused, or yields one byte. -/
lemma length_decodeGroup_nul_le {a b c : UInt8} {out : Bytes}
    (h : decodeGroup outside a b c 0 = some out) : out.length ≤ 1 := by
  simp only [decodeGroup, Option.ite_none_left_eq_some, decodeTab_nul] at h
  obtain ⟨-, h⟩ := h
  split at h
  · cases h
  · simp only [Option.ite_none_right_eq_some, Option.some.injEq] at h
    obtain ⟨-, rfl⟩ := h
    simp

/-- **The decoded text fits into the block that was allocated for it.** -/
lemma length_decodeGroups_le {s out : Bytes} (h : decodeGroups outside s = some out) :
    out.length ≤ pbbase64DecodedLength s.length := by
  fun_induction decodeGroups outside s generalizing out with
  | case1 =>
      cases h
      exact Nat.zero_le _
  | case2 a => exact absurd h (by simp [decodeGroup, decodeTab_nul])
  | case3 a b => exact absurd h (by simp [decodeGroup, decodeTab_nul, base64Separator])
  | case4 a b c => exact Nat.le_trans (length_decodeGroup_nul_le h) (by simp [pbbase64DecodedLength])
  | case5 a b c d s ih =>
      simp only [bind, Option.bind_eq_some_iff, pure, Option.some.injEq] at h
      obtain ⟨group, hgroup, rest, hrest, rfl⟩ := h
      have hthree := length_decodeGroup_le hgroup
      have hmore := ih hrest
      simp only [pbbase64DecodedLength, List.length_append, List.length_cons] at hmore ⊢
      omega

lemma decodeAllocStdStr_eq (s : Bytes) :
    pbbase64DecodeAllocStdStr outside s = decodeGroups outside s := by
  rw [pbbase64DecodeAllocStdStr, pbbase64DecodeStdStr, if_neg]
  exact Nat.not_lt.mpr (Nat.le_succ _)

lemma length_decodeStdStr_le {s out : Bytes} {size : Nat}
    (h : pbbase64DecodeStdStr outside s size = some out) : out.length ≤ size := by
  rw [pbbase64DecodeStdStr, Option.ite_none_left_eq_some] at h
  exact Nat.le_trans (length_decodeGroups_le h.2) (Nat.not_lt.mp h.1)

end

end PubNub
