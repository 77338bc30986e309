import Mathlib.Data.List.Basic
import Mathlib.Tactic.IntervalCases

/-!
# Percent encoding

A string is percent-encoded over a set of characters: the ones in the set stay as they are, and
every other one becomes a percent sign with the two digits of its number.  As long as the percent
sign itself is not in the set, the string can be read back (`percentDecode_percentEncode`).
-/

namespace PubNub

/-- A digit to base 16, with capital letters. -/
def upperHexDigit (n : Nat) : UInt8 := UInt8.ofNat (if n < 10 then 48 + n else 55 + n)

/-- The number of a digit. -/
def upperHexValue (c : UInt8) : Option Nat :=
  if 48 ≤ c ∧ c ≤ 57 then some (c.toNat - 48)
  else if 65 ≤ c ∧ c ≤ 70 then some (c.toNat - 55)
  else none

/-- `%` and two digits. -/
def percentEscape (c : UInt8) : List UInt8 :=
  [37, upperHexDigit (c.toNat / 16), upperHexDigit (c.toNat % 16)]

/-- Replaces every escape by its character. -/
def percentDecode : List UInt8 → List UInt8
  | 37 :: h :: l :: t =>
      match upperHexValue h, upperHexValue l with
      | some a, some b => UInt8.ofNat (16 * a + b) :: percentDecode t
      | _, _ => 37 :: percentDecode (h :: l :: t)
  | c :: t => c :: percentDecode t
  | [] => []

section Encoding

variable (ok : UInt8 → Bool)

/-- A string over the set. -/
def percentEncode (s : List UInt8) : List UInt8 :=
  s.flatMap fun c => if ok c then [c] else percentEscape c

/-- The strings of characters of the set and of escapes. -/
inductive PercentEncoded : List UInt8 → Prop
  | nil : PercentEncoded []
  | char {c : UInt8} {t : List UInt8} (h : ok c = true) (ht : PercentEncoded t) :
      PercentEncoded (c :: t)
  | escape {t : List UInt8} (c : UInt8) (ht : PercentEncoded t) :
      PercentEncoded (percentEscape c ++ t)

variable {ok} {s t : List UInt8} {c : UInt8}

@[simp] lemma percentEncode_nil : percentEncode ok [] = [] := rfl

lemma percentEncode_cons_ok (h : ok c = true) :
    percentEncode ok (c :: s) = c :: percentEncode ok s := by
  simp [percentEncode, h]

lemma percentEncode_cons_escape (h : ok c = false) :
    percentEncode ok (c :: s) = percentEscape c ++ percentEncode ok s := by
  simp [percentEncode, h]

/-- A run of characters of the set stays as it is. -/
lemma percentEncode_append (hs : ∀ c ∈ s, ok c = true) :
    percentEncode ok (s ++ t) = s ++ percentEncode ok t := by
  induction s with
  | nil => rfl
  | cons c s ih =>
      rw [List.cons_append, percentEncode_cons_ok (hs c List.mem_cons_self),
        ih fun d hd => hs d (List.mem_cons_of_mem c hd), List.cons_append]

lemma percentEncoded_percentEncode (s : List UInt8) : PercentEncoded ok (percentEncode ok s) := by
  induction s with
  | nil => exact .nil
  | cons c s ih =>
      cases h : ok c with
      | true => exact percentEncode_cons_ok h ▸ .char h ih
      | false => exact percentEncode_cons_escape h ▸ .escape c ih

lemma upperHexValue_upperHexDigit {n : Nat} (h : n < 16) :
    upperHexValue (upperHexDigit n) = some n := by
  interval_cases n <;> rfl

lemma percentDecode_percentEscape (c : UInt8) (t : List UInt8) :
    percentDecode (percentEscape c ++ t) = c :: percentDecode t := by
  have hc : c.toNat < 256 := c.toNat_lt
  have hnumber : UInt8.ofNat (16 * (c.toNat / 16) + c.toNat % 16) = c := by
    rw [Nat.div_add_mod, UInt8.ofNat_toNat]
  simp only [percentEscape, List.cons_append, List.nil_append]
  rw [percentDecode, upperHexValue_upperHexDigit (by omega),
    upperHexValue_upperHexDigit (by omega)]
  simp only [hnumber]

lemma percentDecode_cons (h : c ≠ 37) (t : List UInt8) :
    percentDecode (c :: t) = c :: percentDecode t := by
  rw [percentDecode]
  rintro h' l t' rfl
  exact absurd rfl h

/-- **What has been percent-encoded can be read back.** -/
theorem percentDecode_percentEncode (hpercent : ok 37 = false) (s : List UInt8) :
    percentDecode (percentEncode ok s) = s := by
  induction s with
  | nil => rfl
  | cons c s ih =>
      cases h : ok c with
      | true =>
          have hc : c ≠ 37 := by
            rintro rfl
            rw [hpercent] at h
            cases h
          rw [percentEncode_cons_ok h, percentDecode_cons hc, ih]
      | false => rw [percentEncode_cons_escape h, percentDecode_percentEscape, ih]

/-- A character that is neither in the set nor in an escape is not in an encoded string. -/
lemma not_mem_percentEncode_of (hok : ok c = false) (hpercent : c ≠ 37)
    (hdigit : ∀ n < 16, c ≠ upperHexDigit n) (s : List UInt8) : c ∉ percentEncode ok s := by
  induction s with
  | nil => simp
  | cons d s ih =>
      cases h : ok d with
      | true =>
          rw [percentEncode_cons_ok h, List.mem_cons, not_or]
          refine ⟨?_, ih⟩
          rintro rfl
          rw [hok] at h
          cases h
      | false =>
          have hd : d.toNat < 256 := d.toNat_lt
          rw [percentEncode_cons_escape h, List.mem_append, not_or]
          refine ⟨?_, ih⟩
          simp only [percentEscape, List.mem_cons, List.not_mem_nil, or_false, not_or]
          exact ⟨hpercent, hdigit _ (by omega), hdigit _ (by omega)⟩

/-- There is a zero in an encoded string only if there is one in the set. -/
lemma not_mem_percentEncode (hzero : ok 0 = false) (s : List UInt8) : 0 ∉ percentEncode ok s :=
  not_mem_percentEncode_of hzero (by decide) (by decide) s

end Encoding

end PubNub
