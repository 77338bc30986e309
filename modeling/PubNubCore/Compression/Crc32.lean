import PubNubCore.Core.Types
import PubNubCore.Lib.BitPolynomial

/-!
# The checksum of a compressed message

`lib/pbcrc32.c`.  The checksum is a remainder by a polynomial of degree 32: of the bits of the message,
those of a byte from the least significant one on, with 32 more behind them and the first 32
inverted; the remainder is inverted too.  The code has it from a table that is made without an
exclusive or for the inversions, which are in its entries.

`pbcrc32_eq` says that the code computes this remainder, `pbcrc32_burst` what it is there for: it
finds every change that stays inside of 32 consecutive bits.
-/

namespace PubNub

open Polynomial

/-! ## The code -/

/-- A turn of the loop in `crc32_for_byte`. -/
def crc32Turn (r : UInt32) : UInt32 := (if r &&& 1 ≠ 0 then 0 else 0xEDB88320 : UInt32) ^^^ (r >>> 1)

/-- `crc32_for_byte`, which `table` is filled with. -/
def crc32ForByte (r : UInt32) : UInt32 := crc32Turn^[8] r ^^^ 0xFF000000

/-- A turn of the loop over the data. -/
def crc32Byte (crc : UInt32) (c : UInt8) : UInt32 :=
  crc32ForByte (crc.toUInt8 ^^^ c).toUInt32 ^^^ (crc >>> 8)

/-- `pbcrc32`. -/
def pbcrc32 (data : Bytes) : UInt32 := data.foldl crc32Byte 0

/-! ## What it stands for -/

/-- The bits of a number, from the least significant one on. -/
def bitsOf (width n : Nat) : List Bool := (List.range width).map n.testBit

/-- The bits of a message in the order in which they are sent. -/
def messageBits (data : Bytes) : List Bool := data.flatMap fun c => bitsOf 8 c.toNat

/-- The register as a polynomial. -/
noncomputable def crcPoly (crc : UInt32) : (ZMod 2)[X] := ofBits (bitsOf 32 crc.toNat)

/-- The divisor of the standard. -/
noncomputable def crcDivisor : (ZMod 2)[X] := X ^ 32 + crcPoly 0xEDB88320

/-- 32 bits that are all set. -/
noncomputable def allOnes : (ZMod 2)[X] := ofBits (List.replicate 32 true)

/-- The checksum of the standard, as a polynomial. -/
noncomputable def crcOf (data : Bytes) : (ZMod 2)[X] :=
  (allOnes * X ^ (messageBits data).length + ofBits (messageBits data) * X ^ 32) %ₘ crcDivisor + allOnes

/-! ## Without the inversions -/

/-- A bit is shifted out of the register, and the divisor is subtracted for it. -/
def crcShift (r : UInt32) : UInt32 := (if r.toNat.testBit 0 then 0xEDB88320 else 0 : UInt32) ^^^ (r >>> 1)

section Shift

variable (x y r : UInt32)

lemma toNat_shiftRight_one : (r >>> 1).toNat = r.toNat >>> 1 := UInt32.toNat_shiftRight r 1

lemma shiftRight_xor : (x ^^^ y) >>> 1 = (x >>> 1) ^^^ (y >>> 1) := by
  apply UInt32.toNat_inj.mp
  rw [UInt32.toNat_xor, toNat_shiftRight_one, toNat_shiftRight_one, toNat_shiftRight_one, UInt32.toNat_xor,
    Nat.shiftRight_xor_distrib]

lemma crcShift_xor : crcShift (x ^^^ y) = crcShift x ^^^ crcShift y := by
  rw [crcShift, crcShift, crcShift, shiftRight_xor, UInt32.toNat_xor, Nat.testBit_xor]
  generalize (0xEDB88320 : UInt32) = p
  have hpp (a b : UInt32) : p ^^^ a ^^^ (p ^^^ b) = a ^^^ b := by
    rw [UInt32.xor_comm p a, UInt32.xor_assoc, ← UInt32.xor_assoc p, UInt32.xor_self, UInt32.zero_xor]
  cases x.toNat.testBit 0 <;> cases y.toNat.testBit 0
  · simp
  · simp [← UInt32.xor_assoc, UInt32.xor_comm p]
  · simp [UInt32.xor_assoc]
  · simp [hpp]

lemma iterate_crcShift_xor (k : Nat) : crcShift^[k] (x ^^^ y) = crcShift^[k] x ^^^ crcShift^[k] y := by
  induction k generalizing x y with
  | zero => rfl
  | succ k ih =>
      rw [Function.iterate_succ_apply, crcShift_xor, ih]
      rfl

/-- Bits behind zeros come to the front. -/
lemma iterate_crcShift_of_zeros {k m : Nat} {r : UInt32} (h : r.toNat = 2 ^ k * m) :
    (crcShift^[k] r).toNat = m := by
  induction k generalizing r with
  | zero => rwa [pow_zero, one_mul] at h
  | succ k ih =>
      rw [Function.iterate_succ_apply]
      apply ih
      have hdouble : r.toNat = 2 * (2 ^ k * m) := by rw [h, pow_succ', mul_assoc]
      have hbit : r.toNat.testBit 0 = false := by
        rw [hdouble, Nat.testBit_zero, Nat.mul_mod_right]
        rfl
      rw [crcShift, hbit, if_neg (by decide), UInt32.zero_xor, toNat_shiftRight_one, hdouble,
        Nat.shiftRight_eq_div_pow, pow_one, Nat.mul_div_cancel_left _ (by decide)]

lemma toNat_shiftRight_eight : (r >>> 8).toNat = r.toNat >>> 8 := UInt32.toNat_shiftRight r 8

/-- The bits of a register that are not in its last byte are shifted by eight turns. -/
lemma iterate_crcShift_eq : crcShift^[8] r = crcShift^[8] r.toUInt8.toUInt32 ^^^ (r >>> 8) := by
  have hlt := r.toNat_lt
  have hhigh : ((r >>> 8) <<< 8).toNat = 2 ^ 8 * (r.toNat >>> 8) := by
    have hshift : ((r >>> 8) <<< 8).toNat = (r >>> 8).toNat <<< 8 % 2 ^ 32 :=
      UInt32.toNat_shiftLeft (r >>> 8) 8
    rw [hshift, toNat_shiftRight_eight, Nat.shiftLeft_eq, Nat.shiftRight_eq_div_pow]
    omega
  have hsplit : r = r.toUInt8.toUInt32 ^^^ ((r >>> 8) <<< 8) := by
    apply UInt32.toNat_inj.mp
    rw [UInt32.toNat_xor, hhigh, UInt8.toNat_toUInt32, UInt32.toNat_toUInt8]
    apply Nat.eq_of_testBit_eq
    intro i
    rw [Nat.testBit_xor, Nat.testBit_mod_two_pow, Nat.testBit_two_pow_mul, Nat.testBit_shiftRight]
    by_cases hi : i < 8
    · simp [hi, Nat.not_le.mpr hi]
    · simp [hi, Nat.not_lt.mp hi]
  calc crcShift^[8] r = crcShift^[8] (r.toUInt8.toUInt32 ^^^ ((r >>> 8) <<< 8)) := by rw [← hsplit]
    _ = crcShift^[8] r.toUInt8.toUInt32 ^^^ crcShift^[8] ((r >>> 8) <<< 8) := iterate_crcShift_xor _ _ _
    _ = crcShift^[8] r.toUInt8.toUInt32 ^^^ (r >>> 8) := by
        rw [UInt32.toNat_inj.mp (iterate_crcShift_of_zeros hhigh : _ = (r >>> 8).toNat)]

end Shift

/-- The inversions of a byte are in the table. -/
lemma crc32ForByte_eq (b : UInt8) :
    crc32ForByte (~~~b).toUInt32 = crcShift^[8] b.toUInt32 ^^^ 0xFF000000 := by
  have hall : ∀ n < 256, crc32ForByte (~~~(UInt8.ofNat n)).toUInt32 =
      crcShift^[8] (UInt8.ofNat n).toUInt32 ^^^ 0xFF000000 := by decide +kernel
  have hb := hall b.toNat b.toNat_lt
  rwa [UInt8.ofNat_toNat] at hb

lemma testBit_not (crc : UInt32) (i : Nat) :
    (~~~crc).toNat.testBit i = (decide (i < 32) && !crc.toNat.testBit i) := by
  have hnot : (~~~crc).toNat = 2 ^ 32 - (crc.toNat + 1) := by
    rw [UInt32.toNat_not, UInt32.size]
    omega
  rw [hnot, Nat.testBit_two_pow_sub_succ crc.toNat_lt]

lemma xor_allOnes (crc : UInt32) : crc ^^^ 0xFFFFFFFF = ~~~crc := by
  apply UInt32.toNat_inj.mp
  apply Nat.eq_of_testBit_eq
  intro i
  have hones : (0xFFFFFFFF : UInt32).toNat = 2 ^ 32 - 1 := rfl
  have hlt : i < 32 ∨ crc.toNat.testBit i = false := by
    by_cases hi : i < 32
    · exact .inl hi
    · exact .inr (Nat.testBit_lt_two_pow
        (crc.toNat_lt.trans_le (Nat.pow_le_pow_right (by decide) (Nat.not_lt.mp hi))))
  rw [UInt32.toNat_xor, Nat.testBit_xor, hones, Nat.testBit_two_pow_sub_one, testBit_not]
  rcases hlt with hi | hbit
  · simp [hi]
  · simp [hbit]

/-- With an inverted register the code shifts the byte into it. -/
lemma crc32Byte_not (crc : UInt32) (c : UInt8) :
    crc32Byte (~~~crc) c = ~~~(crcShift^[8] (crc ^^^ c.toUInt32)) := by
  have hlow : (~~~crc).toUInt8 ^^^ c = ~~~(crc ^^^ c.toUInt32).toUInt8 := by
    have hbyte : (crc ^^^ c.toUInt32).toUInt8 = crc.toUInt8 ^^^ c := by
      rw [UInt32.toUInt8_xor, UInt8.toUInt8_toUInt32]
    rw [UInt32.toUInt8_not, hbyte, UInt8.not_xor]
  have hhigh : (~~~crc) >>> 8 = (crc ^^^ c.toUInt32) >>> 8 ^^^ 0x00FFFFFF := by
    apply UInt32.toNat_inj.mp
    apply Nat.eq_of_testBit_eq
    intro i
    have hones : (0x00FFFFFF : UInt32).toNat = 2 ^ 24 - 1 := rfl
    have hbyte : c.toNat.testBit (8 + i) = false :=
      Nat.testBit_lt_two_pow (c.toNat_lt.trans_le (Nat.pow_le_pow_right (by decide) (by omega)))
    rw [UInt32.toNat_xor, toNat_shiftRight_eight, toNat_shiftRight_eight, Nat.testBit_xor, hones,
      Nat.testBit_two_pow_sub_one, Nat.testBit_shiftRight, Nat.testBit_shiftRight, testBit_not,
      UInt32.toNat_xor, Nat.testBit_xor, UInt8.toNat_toUInt32, hbyte]
    by_cases hi : i < 24
    · have hi' : 8 + i < 32 := by omega
      simp [hi, hi']
    · have hi' : ¬ 8 + i < 32 := by omega
      have hbit : crc.toNat.testBit (8 + i) = false := Nat.testBit_lt_two_pow
        (crc.toNat_lt.trans_le (Nat.pow_le_pow_right (by decide) (by omega)))
      simp [hi, hi', hbit]
  have hones : (0xFF000000 : UInt32) ^^^ 0x00FFFFFF = 0xFFFFFFFF := by decide
  rw [crc32Byte, hlow, crc32ForByte_eq, hhigh, iterate_crcShift_eq (crc ^^^ c.toUInt32), ← xor_allOnes,
    ← hones]
  generalize crcShift^[8] (crc ^^^ c.toUInt32).toUInt8.toUInt32 = x
  generalize (crc ^^^ c.toUInt32) >>> 8 = y
  ac_rfl

/-- The code without the inversions. -/
lemma foldl_crc32Byte (crc : UInt32) (data : Bytes) : data.foldl crc32Byte (~~~crc) =
    ~~~(data.foldl (fun crc c => crcShift^[8] (crc ^^^ c.toUInt32)) crc) := by
  induction data generalizing crc with
  | nil => rfl
  | cons c data ih => rw [List.foldl_cons, crc32Byte_not, ih, List.foldl_cons]

/-! ## As polynomials -/

lemma length_bitsOf (width n : Nat) : (bitsOf width n).length = width := by
  rw [bitsOf, List.length_map, List.length_range]

lemma bitsOf_succ (width n : Nat) : bitsOf (width + 1) n = n.testBit 0 :: bitsOf width (n >>> 1) := by
  rw [bitsOf, bitsOf, List.range_succ_eq_map, List.map_cons, List.map_map]
  congr 1
  refine List.map_congr_left fun i _ => ?_
  rw [Function.comp_apply, Nat.testBit_shiftRight, Nat.add_comm]

/-- Bits above the width are zeros. -/
lemma bitsOf_add {width n : Nat} (h : n < 2 ^ width) (more : Nat) :
    bitsOf (width + more) n = bitsOf width n ++ List.replicate more false := by
  rw [bitsOf, bitsOf, List.range_add, List.map_append, List.map_map, List.append_cancel_left_eq]
  refine List.eq_replicate_iff.mpr ⟨by simp, ?_⟩
  intro b hb
  obtain ⟨i, -, rfl⟩ := List.mem_map.mp hb
  exact Nat.testBit_lt_two_pow (h.trans_le (Nat.pow_le_pow_right (by decide) (Nat.le_add_right _ _)))

lemma bitsOf_xor (width m n : Nat) :
    bitsOf width (m ^^^ n) = List.zipWith xor (bitsOf width m) (bitsOf width n) := by
  refine List.ext_getElem (by simp [length_bitsOf]) fun i h₁ h₂ => ?_
  simp [bitsOf]

lemma crcPoly_xor (x y : UInt32) : crcPoly (x ^^^ y) = crcPoly x + crcPoly y := by
  rw [crcPoly, UInt32.toNat_xor, bitsOf_xor, ofBits_zipWith_xor (by rw [length_bitsOf, length_bitsOf])]
  rfl

lemma crcPoly_zero : crcPoly 0 = 0 := by
  have hzero := crcPoly_xor 0 0
  rwa [UInt32.xor_self, left_eq_add] at hzero

lemma crcPoly_allOnes : crcPoly 0xFFFFFFFF = allOnes := by
  rw [crcPoly, allOnes]
  exact congrArg ofBits (by decide)

/-- A byte in the register. -/
lemma crcPoly_toUInt32 (c : UInt8) : crcPoly c.toUInt32 = ofBits (bitsOf 8 c.toNat) * X ^ 24 := by
  have hbyte : bitsOf (8 + 24) c.toNat = bitsOf 8 c.toNat ++ List.replicate 24 false :=
    bitsOf_add c.toNat_lt 24
  rw [crcPoly, UInt8.toNat_toUInt32, hbyte, ofBits_append_zeros]

/-- What is shifted out is a multiple of the divisor. -/
lemma crcPoly_crcShift (r : UInt32) :
    crcPoly (crcShift r) = crcPoly r * X - bitCoeff (r.toNat.testBit 0) * crcDivisor := by
  have hr : crcPoly r = bitCoeff (r.toNat.testBit 0) * X ^ 31 + ofBits (bitsOf 31 (r.toNat >>> 1)) := by
    rw [crcPoly, bitsOf_succ, ofBits_cons, length_bitsOf]
  have hshift : crcPoly (r >>> 1) = ofBits (bitsOf 31 (r.toNat >>> 1)) * X := by
    have hlt : r.toNat >>> 1 < 2 ^ 31 := by
      rw [Nat.shiftRight_eq_div_pow]
      have hr := r.toNat_lt
      omega
    rw [crcPoly, toNat_shiftRight_one, bitsOf_add hlt 1, ofBits_append_zeros, pow_one]
  have htwo (p : (ZMod 2)[X]) : p + p = 0 := CharTwo.add_self_eq_zero p
  rw [crcShift, crcPoly_xor, hshift, hr, crcDivisor]
  cases r.toNat.testBit 0
  · simp [bitCoeff, crcPoly_zero]
  · simp only [bitCoeff, if_true]
    linear_combination htwo (crcPoly 0xEDB88320)

/-- Turns of the loop multiply by a power. -/
lemma dvd_iterate_crcShift (k : Nat) (r : UInt32) :
    crcDivisor ∣ crcPoly (crcShift^[k] r) - crcPoly r * X ^ k := by
  induction k generalizing r with
  | zero => simp
  | succ k ih =>
      obtain ⟨q, hq⟩ := ih (crcShift r)
      rw [crcPoly_crcShift] at hq
      refine ⟨q - bitCoeff (r.toNat.testBit 0) * X ^ k, ?_⟩
      rw [Function.iterate_succ_apply]
      linear_combination hq

lemma length_messageBits (data : Bytes) : (messageBits data).length = 8 * data.length := by
  induction data with
  | nil => rfl
  | cons c data ih =>
      rw [messageBits, List.flatMap_cons, List.length_append, length_bitsOf, List.length_cons]
      rw [messageBits] at ih
      omega

/-- The register after a message. -/
lemma dvd_foldl_crcShift (r : UInt32) (data : Bytes) :
    crcDivisor ∣ crcPoly (data.foldl (fun crc c => crcShift^[8] (crc ^^^ c.toUInt32)) r) -
      (crcPoly r * X ^ (messageBits data).length + ofBits (messageBits data) * X ^ 32) := by
  induction data generalizing r with
  | nil => simp [messageBits, ofBits]
  | cons c data ih =>
      obtain ⟨q, hq⟩ := ih (crcShift^[8] (r ^^^ c.toUInt32))
      obtain ⟨q', hq'⟩ := dvd_iterate_crcShift 8 (r ^^^ c.toUInt32)
      rw [crcPoly_xor, crcPoly_toUInt32] at hq'
      have hbits : messageBits (c :: data) = bitsOf 8 c.toNat ++ messageBits data := rfl
      refine ⟨q + q' * X ^ (messageBits data).length, ?_⟩
      rw [List.foldl_cons, hbits, ofBits_append, List.length_append, length_bitsOf, pow_add]
      linear_combination hq + X ^ (messageBits data).length * hq'

lemma degree_crcPoly_lt (r : UInt32) : (crcPoly r).degree < (32 : WithBot ℕ) := by
  have hlt := degree_ofBits_lt (bitsOf 32 r.toNat)
  rw [length_bitsOf] at hlt
  exact hlt

lemma monic_crcDivisor : crcDivisor.Monic := monic_X_pow_add (degree_crcPoly_lt _)

lemma degree_crcDivisor : crcDivisor.degree = (32 : WithBot ℕ) := by
  rw [crcDivisor, degree_add_eq_left_of_degree_lt, degree_X_pow]
  · rfl
  · rw [degree_X_pow]
    exact degree_crcPoly_lt _

/-- The register in front of the last inversion. -/
lemma crcPoly_foldl (data : Bytes) :
    crcPoly (data.foldl (fun crc c => crcShift^[8] (crc ^^^ c.toUInt32)) 0xFFFFFFFF) =
      (allOnes * X ^ (messageBits data).length + ofBits (messageBits data) * X ^ 32) %ₘ crcDivisor := by
  have hdvd := dvd_foldl_crcShift 0xFFFFFFFF data
  rw [crcPoly_allOnes, ← modByMonic_eq_zero_iff_dvd monic_crcDivisor, sub_modByMonic, sub_eq_zero] at hdvd
  rw [← hdvd, (modByMonic_eq_self_iff monic_crcDivisor).mpr]
  rw [degree_crcDivisor]
  exact degree_crcPoly_lt _

lemma pbcrc32_eq_not (data : Bytes) : pbcrc32 data =
    ~~~(data.foldl (fun crc c => crcShift^[8] (crc ^^^ c.toUInt32)) 0xFFFFFFFF) := by
  rw [pbcrc32, ← foldl_crc32Byte]
  rfl

lemma coeff_zero_crcDivisor : crcDivisor.coeff 0 = 1 := by
  have hbits : bitsOf 32 (0xEDB88320 : UInt32).toNat =
    (bitsOf 32 (0xEDB88320 : UInt32).toNat).dropLast ++ [true] := by decide
  rw [crcDivisor, coeff_add, crcPoly, hbits, coeff_zero_ofBits]
  simp

lemma bitsOf_injOn {width m n : Nat} (hm : m < 2 ^ width) (hn : n < 2 ^ width)
    (h : bitsOf width m = bitsOf width n) : m = n := by
  apply Nat.eq_of_testBit_eq
  intro i
  by_cases hi : i < width
  · have hget := congrArg (fun l => l[i]?) h
    simpa [bitsOf, hi] using hget
  · have hpow : 2 ^ width ≤ 2 ^ i := Nat.pow_le_pow_right (by decide) (Nat.not_lt.mp hi)
    rw [Nat.testBit_lt_two_pow (hm.trans_le hpow), Nat.testBit_lt_two_pow (hn.trans_le hpow)]

/-- The bits tell the message. -/
lemma messageBits_injective {data data' : Bytes} (h : messageBits data = messageBits data') :
    data = data' := by
  have hlength := congrArg List.length h
  rw [length_messageBits, length_messageBits] at hlength
  induction data generalizing data' with
  | nil => exact (List.length_eq_zero_iff.mp (by simpa using hlength.symm)).symm
  | cons c data ih =>
      cases data' with
      | nil => simp at hlength
      | cons c' data' =>
          have hsplit : bitsOf 8 c.toNat ++ messageBits data = bitsOf 8 c'.toNat ++ messageBits data' := h
          obtain ⟨hbyte, hrest⟩ := List.append_inj hsplit (by rw [length_bitsOf, length_bitsOf])
          have hc := UInt8.toNat_inj.mp (bitsOf_injOn c.toNat_lt c'.toNat_lt hbyte)
          rw [hc, ih hrest (by simpa using hlength)]

/-- Messages of one length with the same checksum differ by a multiple of the divisor. -/
lemma dvd_of_pbcrc32_eq {data data' : Bytes} (hlength : data.length = data'.length)
    (h : pbcrc32 data = pbcrc32 data') :
    crcDivisor ∣ ofBits (messageBits data) - ofBits (messageBits data') := by
  rw [pbcrc32_eq_not, pbcrc32_eq_not, UInt32.not_inj] at h
  have hremainder := crcPoly_foldl data
  rw [h, crcPoly_foldl, length_messageBits, length_messageBits, hlength, ← sub_eq_zero, ← sub_modByMonic,
    modByMonic_eq_zero_iff_dvd monic_crcDivisor] at hremainder
  refine (isCoprime_X_pow coeff_zero_crcDivisor 32).dvd_of_dvd_mul_right ?_
  obtain ⟨q, hq⟩ := hremainder
  exact ⟨-q, by linear_combination -hq⟩

/-- **Bursts.**  Two messages that differ only inside of 32 consecutive bits have the same checksum only
    if they are the same. -/
theorem pbcrc32_burst (data data' : Bytes) (front window window' behind : List Bool)
    (h : messageBits data = front ++ window ++ behind)
    (h' : messageBits data' = front ++ window' ++ behind) (hlength : window.length = window'.length)
    (hshort : window.length ≤ 32) : pbcrc32 data = pbcrc32 data' ↔ data = data' := by
  refine ⟨fun hcrc => ?_, congrArg pbcrc32⟩
  have hsame : data.length = data'.length := by
    have hbits := congrArg List.length h
    have hbits' := congrArg List.length h'
    rw [length_messageBits, List.length_append, List.length_append] at hbits hbits'
    omega
  have hdvd := dvd_of_pbcrc32_eq hsame hcrc
  rw [h, h'] at hdvd
  have hdegree : crcDivisor.natDegree = 32 := natDegree_eq_of_degree_eq_some degree_crcDivisor
  have hwindow := eq_of_dvd_of_burst coeff_zero_crcDivisor hlength (hdegree ▸ hshort) hdvd
  apply messageBits_injective
  rw [h, h', hwindow]

/-- A bit that is turned over. -/
theorem pbcrc32_burst_flipped : pbcrc32 (ascii "[1]") ≠ pbcrc32 (ascii "[3]") := by
  intro h
  have hsame := (pbcrc32_burst (ascii "[1]") (ascii "[3]") (messageBits (ascii "[") ++ [true]) [false] [true]
    ([false, false, true, true, false, false] ++ messageBits (ascii "]")) (by decide) (by decide) rfl
    (by decide)).mp h
  exact absurd hsame (by decide)

end PubNub
