import Mathlib.Algebra.CharP.Two
import Mathlib.Algebra.Field.ZMod
import Mathlib.Algebra.Polynomial.Div
import Mathlib.RingTheory.Polynomial.Basic
import Mathlib.Tactic.LinearCombination

/-!
# Bits as a polynomial

A text of bits is read as a polynomial over the field with two elements, the first bit as the highest
coefficient.  Checksums are remainders of such polynomials.

`eq_of_dvd_of_burst` says what a remainder is good for: two texts of the same length that differ only
inside a window which is no longer than the degree of the divisor have different remainders, if the
divisor has a constant term.
-/

namespace PubNub

open Polynomial

/-- A bit as a coefficient. -/
noncomputable def bitCoeff (b : Bool) : (ZMod 2)[X] := if b then 1 else 0

/-- The polynomial of a text. -/
noncomputable def ofBits (bits : List Bool) : (ZMod 2)[X] := bits.foldl (fun p b => p * X + bitCoeff b) 0

variable {a b c : List Bool}

lemma foldl_bits (p : (ZMod 2)[X]) (bits : List Bool) :
    bits.foldl (fun p b => p * X + bitCoeff b) p = p * X ^ bits.length + ofBits bits := by
  induction bits generalizing p with
  | nil => simp [ofBits]
  | cons x bits ih =>
      rw [ofBits, List.foldl_cons, List.foldl_cons, ih, ih (0 * X + bitCoeff x), List.length_cons]
      ring

lemma ofBits_append : ofBits (a ++ b) = ofBits a * X ^ b.length + ofBits b := by
  rw [ofBits, List.foldl_append, foldl_bits]
  rfl

lemma ofBits_cons (x : Bool) : ofBits (x :: b) = bitCoeff x * X ^ b.length + ofBits b := by
  rw [ofBits, List.foldl_cons, foldl_bits, zero_mul, zero_add]

lemma degree_bitCoeff_mul (x : Bool) (n : ℕ) : (bitCoeff x * X ^ n).degree ≤ (n : WithBot ℕ) := by
  cases x
  · simp [bitCoeff]
  · simp [bitCoeff]

/-- Zeros behind a text. -/
lemma ofBits_append_zeros (n : ℕ) : ofBits (a ++ List.replicate n false) = ofBits a * X ^ n := by
  have hzeros : ofBits (List.replicate n false) = 0 := by
    induction n with
    | zero => rfl
    | succ n ih => rw [List.replicate_succ, ofBits_cons, ih, bitCoeff, if_neg (by decide), zero_mul, zero_add]
  rw [ofBits_append, hzeros, add_zero, List.length_replicate]

/-- The sum of two texts. -/
lemma ofBits_zipWith_xor (hlength : a.length = b.length) :
    ofBits (List.zipWith xor a b) = ofBits a + ofBits b := by
  induction a generalizing b with
  | nil =>
      rw [List.length_eq_zero_iff.mp hlength.symm]
      simp [ofBits]
  | cons x a ih =>
      cases b with
      | nil => cases hlength
      | cons y b =>
          have hlengths : a.length = b.length := Nat.succ.inj hlength
          have hsum : bitCoeff (xor x y) = bitCoeff x + bitCoeff y := by
            cases x <;> cases y <;> simp [bitCoeff, CharTwo.add_self_eq_zero]
          rw [List.zipWith_cons_cons, ofBits_cons, ih hlengths, hsum, List.length_zipWith, ofBits_cons,
            ofBits_cons, hlengths, Nat.min_self]
          ring

/-- The last bit is the constant term. -/
lemma coeff_zero_ofBits (x : Bool) : (ofBits (a ++ [x])).coeff 0 = if x then 1 else 0 := by
  rw [ofBits_append, List.length_singleton, pow_one, coeff_add, mul_coeff_zero, coeff_X_zero, mul_zero, zero_add]
  cases x <;> simp [ofBits, bitCoeff]

/-- The degree is less than the length. -/
lemma degree_ofBits_lt (bits : List Bool) : (ofBits bits).degree < (bits.length : WithBot ℕ) := by
  induction bits with
  | nil => simp [ofBits]
  | cons x bits ih =>
      rw [ofBits_cons, List.length_cons]
      refine (degree_add_le _ _).trans_lt (max_lt ?_ ?_)
      · exact (degree_bitCoeff_mul x _).trans_lt (WithBot.coe_lt_coe.mpr (Nat.lt_succ_self _))
      · exact ih.trans (WithBot.coe_lt_coe.mpr (Nat.lt_succ_self _))

lemma coeff_ofBits_length (x : Bool) (bits : List Bool) :
    (ofBits (x :: bits)).coeff bits.length = if x then 1 else 0 := by
  rw [ofBits_cons, coeff_add, coeff_eq_zero_of_degree_lt (degree_ofBits_lt bits), add_zero]
  cases x <;> simp [bitCoeff]

/-- Texts of the same length are told from each other. -/
lemma ofBits_injective (hlength : a.length = b.length) (h : ofBits a = ofBits b) : a = b := by
  induction a generalizing b with
  | nil => exact (List.length_eq_zero_iff.mp hlength.symm).symm
  | cons x a ih =>
      cases b with
      | nil => cases hlength
      | cons y b =>
          have hlengths : a.length = b.length := Nat.succ.inj hlength
          have hcoeff := congrArg (fun p => p.coeff a.length) h
          simp only [coeff_ofBits_length] at hcoeff
          rw [hlengths, coeff_ofBits_length] at hcoeff
          have hxy : x = y := by
            cases x <;> cases y <;> simp at hcoeff ⊢
          subst hxy
          rw [ofBits_cons, ofBits_cons, hlengths, add_left_cancel_iff] at h
          rw [ih hlengths h]

/-- A divisor with a constant term has no factor `X`. -/
lemma isCoprime_X_pow {G : (ZMod 2)[X]} (hG : G.coeff 0 = 1) (n : ℕ) : IsCoprime G (X ^ n) := by
  refine IsCoprime.pow_right ⟨1, -divX G, ?_⟩
  have hsplit := divX_mul_X_add G
  rw [hG] at hsplit
  calc 1 * G + -divX G * X = 1 * (divX G * X + C 1) + -divX G * X := by rw [hsplit]
    _ = 1 := by simp

/-- **Bursts.**  If a divisor with a constant term divides the difference of two texts, which agree in
    front of a window that is no longer than its degree, and behind it, then they are the same. -/
theorem eq_of_dvd_of_burst {G : (ZMod 2)[X]} (hG : G.coeff 0 = 1) {s t : List Bool}
    (hlength : b.length = c.length) (hwindow : b.length ≤ G.natDegree)
    (hdvd : G ∣ ofBits (s ++ b ++ t) - ofBits (s ++ c ++ t)) : b = c := by
  have hdiff : ofBits (s ++ b ++ t) - ofBits (s ++ c ++ t) = (ofBits b - ofBits c) * X ^ t.length := by
    simp only [ofBits_append, hlength]
    ring
  rw [hdiff] at hdvd
  have hdvd' := (isCoprime_X_pow hG t.length).dvd_of_dvd_mul_right hdvd
  have hne : G ≠ 0 := by
    rintro rfl
    simp at hG
  have hdegree : (ofBits b - ofBits c).degree < G.degree := by
    rw [degree_eq_natDegree hne]
    refine (degree_sub_le _ _).trans_lt (max_lt ?_ ?_)
    · exact (degree_ofBits_lt b).trans_le (WithBot.coe_le_coe.mpr hwindow)
    · exact (degree_ofBits_lt c).trans_le (WithBot.coe_le_coe.mpr (hlength ▸ hwindow))
  exact ofBits_injective hlength (sub_eq_zero.mp (eq_zero_of_dvd_of_degree_lt hdvd' hdegree))

end PubNub
