import Mathlib.Tactic.IntervalCases

/-!
# Three bytes as four numbers of six bits

The 24 bits of three bytes, taken six at a time, are four numbers below 64, and the bytes can be put
together again.  Where there are only one or two bytes, the bits behind them count as zeros.
-/

namespace PubNub

variable (a b c : UInt8)

/-- The bits of three bytes, six at a time. -/
def sextet0 : UInt8 := (a &&& 0xFC) >>> 2

def sextet1 : UInt8 := ((a &&& 0x3) <<< 4) ||| ((b &&& 0xF0) >>> 4)

def sextet2 : UInt8 := ((b &&& 0xF) <<< 2) ||| ((c &&& 0xC0) >>> 6)

def sextet3 : UInt8 := c &&& 0x3F

/-- The bytes of four such numbers. -/
def byteOf0 (w0 w1 : UInt8) : UInt8 := (w0 <<< 2) ||| (w1 >>> 4)

def byteOf1 (w1 w2 : UInt8) : UInt8 := (w1 <<< 4) ||| (w2 >>> 2)

def byteOf2 (w2 w3 : UInt8) : UInt8 := (w2 <<< 6) ||| w3

lemma byteOf0_sextets : byteOf0 (sextet0 a) (sextet1 a b) = a := by
  apply UInt8.eq_of_toBitVec_eq
  ext i hi
  interval_cases i <;> simp [byteOf0, sextet0, sextet1]

lemma byteOf1_sextets : byteOf1 (sextet1 a b) (sextet2 b c) = b := by
  apply UInt8.eq_of_toBitVec_eq
  ext i hi
  interval_cases i <;> simp [byteOf1, sextet1, sextet2]

lemma byteOf2_sextets : byteOf2 (sextet2 b c) (sextet3 c) = c := by
  apply UInt8.eq_of_toBitVec_eq
  ext i hi
  interval_cases i <;> simp [byteOf2, sextet2, sextet3]

/-- They are numbers of six bits. -/
lemma sextet0_lt : sextet0 a < 64 := by
  have ha : a.toNat &&& 0xFC ≤ 0xFC := Nat.and_le_right
  rw [UInt8.lt_iff_toNat_lt, sextet0, UInt8.toNat_shiftRight, UInt8.toNat_and]
  change (a.toNat &&& 0xFC) >>> 2 < 64
  rw [Nat.shiftRight_eq_div_pow]
  omega

lemma sextet1_lt : sextet1 a b < 64 := by
  have ha : a.toNat &&& 0x3 ≤ 0x3 := Nat.and_le_right
  have hb : b.toNat &&& 0xF0 ≤ 0xF0 := Nat.and_le_right
  rw [UInt8.lt_iff_toNat_lt, sextet1, UInt8.toNat_or, UInt8.toNat_shiftLeft,
    UInt8.toNat_shiftRight, UInt8.toNat_and, UInt8.toNat_and]
  change (a.toNat &&& 0x3) <<< 4 % 256 ||| (b.toNat &&& 0xF0) >>> 4 < 2 ^ 6
  rw [Nat.shiftLeft_eq, Nat.shiftRight_eq_div_pow]
  exact Nat.or_lt_two_pow (by omega) (by omega)

lemma sextet2_lt : sextet2 b c < 64 := by
  have hb : b.toNat &&& 0xF ≤ 0xF := Nat.and_le_right
  have hc : c.toNat &&& 0xC0 ≤ 0xC0 := Nat.and_le_right
  rw [UInt8.lt_iff_toNat_lt, sextet2, UInt8.toNat_or, UInt8.toNat_shiftLeft,
    UInt8.toNat_shiftRight, UInt8.toNat_and, UInt8.toNat_and]
  change (b.toNat &&& 0xF) <<< 2 % 256 ||| (c.toNat &&& 0xC0) >>> 6 < 2 ^ 6
  rw [Nat.shiftLeft_eq, Nat.shiftRight_eq_div_pow]
  exact Nat.or_lt_two_pow (by omega) (by omega)

lemma sextet3_lt : sextet3 c < 64 := by
  have hc : c.toNat &&& 0x3F ≤ 0x3F := Nat.and_le_right
  rw [UInt8.lt_iff_toNat_lt, sextet3, UInt8.toNat_and]
  change c.toNat &&& 0x3F < 64
  omega

end PubNub
