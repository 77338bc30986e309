import Mathlib.Tactic
import PubNubCore.Lib.JsonObjects

/-!
# What JSON strings denote

The body of a string is a row of bytes and UTF-16 code units, `jsonUnits`: a character stands for its
own bytes, an escape for a byte or a code unit.  `denoted` writes the row in UTF-8, where two code
units that are a surrogate pair are one character.

A backslash in what a string denotes is a unit of its own, so that `count_denoted` can count them.
What a string denotes is shorter than the string, if there is an escape in it.
-/

namespace PubNub

namespace JsonText

/-- What a character or an escape stands for. -/
inductive JsonUnit
  | byte (c : UInt8)
  | code (u : Nat)
  deriving DecidableEq

def hexDigitValue (c : UInt8) : Nat :=
  if c ≤ 57 then c.toNat - 48 else if c ≤ 70 then c.toNat - 55 else c.toNat - 87

/-- The character that is written with a backslash in front of it. -/
def escapedChar (c : UInt8) : UInt8 :=
  match c with
  | 98 => 8
  | 102 => 12
  | 110 => 10
  | 114 => 13
  | 116 => 9
  | c => c

def jsonUnits : List UInt8 → List JsonUnit
  | 92 :: 117 :: h₁ :: h₂ :: h₃ :: h₄ :: t =>
      .code (([h₁, h₂, h₃, h₄].map hexDigitValue).foldl (16 * · + ·) 0) :: jsonUnits t
  | 92 :: c :: t => .byte (escapedChar c) :: jsonUnits t
  | c :: t => .byte c :: jsonUnits t
  | [] => []

/-- UTF-8. -/
def utf8 (v : Nat) : List UInt8 :=
  if v < 128 then [.ofNat v]
  else if v < 2048 then [.ofNat (192 + v / 64), .ofNat (128 + v % 64)]
  else if v < 65536 then
    [.ofNat (224 + v / 4096), .ofNat (128 + v / 64 % 64), .ofNat (128 + v % 64)]
  else [.ofNat (240 + v / 262144 % 8), .ofNat (128 + v / 4096 % 64), .ofNat (128 + v / 64 % 64),
    .ofNat (128 + v % 64)]

/-- The first of two code units that are a character together, and the second. -/
def isHighSurrogate (u : Nat) : Bool := 55296 ≤ u && u < 56320

def isLowSurrogate (u : Nat) : Bool := 56320 ≤ u && u < 57344

def denoted : List JsonUnit → List UInt8
  | .byte c :: units => c :: denoted units
  | .code hi :: .code lo :: units =>
      if isHighSurrogate hi && isLowSurrogate lo then
        utf8 (65536 + (hi - 55296) * 1024 + (lo - 56320)) ++ denoted units
      else utf8 hi ++ denoted (.code lo :: units)
  | .code u :: units => utf8 u ++ denoted units
  | [] => []

/-! ## Units -/

variable {t : List UInt8} {c : UInt8}

lemma jsonUnits_plain (h : c ≠ 92) (t : List UInt8) :
    jsonUnits (c :: t) = .byte c :: jsonUnits t := by
  rw [jsonUnits]
  · rintro h₁ h₂ h₃ h₄ t rfl
    exact absurd rfl h
  · rintro d t rfl
    exact absurd rfl h

lemma jsonUnits_escape (h : c ∈ [34, 92, 47, 98, 102, 110, 114, 116]) (t : List UInt8) :
    jsonUnits (92 :: c :: t) = .byte (escapedChar c) :: jsonUnits t := by
  rw [jsonUnits]
  rintro h₁ h₂ h₃ h₄ t rfl
  exact absurd h (by decide)

/-! ## Backslashes -/

/-- How many backslashes a unit stands for. -/
def JsonUnit.backslashes : JsonUnit → Nat
  | .byte c => if c = 92 then 1 else 0
  | .code u => if u = 92 then 1 else 0

lemma ofNat_ne_of_le {v : Nat} (hlow : 128 ≤ v) (hhigh : v < 256) : UInt8.ofNat v ≠ 92 := by
  intro h
  have htoNat := congrArg UInt8.toNat h
  rw [UInt8.toNat_ofNat', Nat.mod_eq_of_lt hhigh] at htoNat
  change v = 92 at htoNat
  omega

lemma count_utf8 {v : Nat} : (utf8 v).count 92 = if v = 92 then 1 else 0 := by
  rw [utf8]
  split
  · rename_i hlt
    by_cases hv : v = 92
    · subst hv
      rfl
    · have hne : UInt8.ofNat v ≠ 92 := by
        intro h
        have htoNat := congrArg UInt8.toNat h
        rw [UInt8.toNat_ofNat', Nat.mod_eq_of_lt (by omega)] at htoNat
        exact hv htoNat
      rw [if_neg hv, List.count_singleton, if_neg (by simpa using hne)]
  · rename_i hge
    have hv : ¬ v = 92 := by omega
    rw [if_neg hv, List.count_eq_zero]
    split
    · have hone := ofNat_ne_of_le (v := 192 + v / 64) (by omega) (by omega)
      have htwo := ofNat_ne_of_le (v := 128 + v % 64) (by omega) (by omega)
      simp only [List.mem_cons, List.not_mem_nil, or_false, not_or]
      exact ⟨hone.symm, htwo.symm⟩
    · split
      · have hone := ofNat_ne_of_le (v := 224 + v / 4096) (by omega) (by omega)
        have htwo := ofNat_ne_of_le (v := 128 + v / 64 % 64) (by omega) (by omega)
        have hthree := ofNat_ne_of_le (v := 128 + v % 64) (by omega) (by omega)
        simp only [List.mem_cons, List.not_mem_nil, or_false, not_or]
        exact ⟨hone.symm, htwo.symm, hthree.symm⟩
      · have hone := ofNat_ne_of_le (v := 240 + v / 262144 % 8) (by omega) (by omega)
        have htwo := ofNat_ne_of_le (v := 128 + v / 4096 % 64) (by omega) (by omega)
        have hthree := ofNat_ne_of_le (v := 128 + v / 64 % 64) (by omega) (by omega)
        have hfour := ofNat_ne_of_le (v := 128 + v % 64) (by omega) (by omega)
        simp only [List.mem_cons, List.not_mem_nil, or_false, not_or]
        exact ⟨hone.symm, htwo.symm, hthree.symm, hfour.symm⟩

/-- Backslashes are counted unit by unit. -/
lemma count_denoted (units : List JsonUnit) :
    (denoted units).count 92 = (units.map JsonUnit.backslashes).sum := by
  fun_induction denoted units with
  | case1 c units ih =>
      rw [List.count_cons, ih, List.map_cons, List.sum_cons, Nat.add_comm, JsonUnit.backslashes]
      simp only [beq_iff_eq]
  | case2 hi lo units hpair ih =>
      simp only [isHighSurrogate, isLowSurrogate, Bool.and_eq_true, decide_eq_true_eq] at hpair
      have hhi : hi ≠ 92 := by omega
      have hlo : lo ≠ 92 := by omega
      rw [List.count_append, ih, count_utf8, if_neg (by omega)]
      simp [JsonUnit.backslashes, hhi, hlo]
  | case3 hi lo units hpair ih =>
      rw [List.count_append, ih, count_utf8]
      rfl
  | case4 u units hnext ih =>
      rw [List.count_append, ih, count_utf8]
      rfl
  | case5 => rfl

/-! ## Lengths -/

/-- How many bytes a unit stands for, at most. -/
def JsonUnit.room : JsonUnit → Nat
  | .byte _ => 1
  | .code _ => 4

lemma length_utf8_le (v : Nat) : (utf8 v).length ≤ 4 := by
  rw [utf8]
  split
  · simp
  · split
    · simp
    · split
      · simp
      · simp

lemma length_denoted_le (units : List JsonUnit) :
    (denoted units).length ≤ (units.map JsonUnit.room).sum := by
  fun_induction denoted units with
  | case1 c units ih =>
      rw [List.length_cons, List.map_cons, List.sum_cons, JsonUnit.room]
      omega
  | case2 hi lo units hpair ih =>
      have hutf8 := length_utf8_le (65536 + (hi - 55296) * 1024 + (lo - 56320))
      simp only [List.length_append, List.map_cons, List.sum_cons, JsonUnit.room]
      omega
  | case3 hi lo units hpair ih =>
      have hutf8 := length_utf8_le hi
      rw [List.map_cons, List.sum_cons] at ih
      simp only [List.length_append, List.map_cons, List.sum_cons, JsonUnit.room] at ih ⊢
      omega
  | case4 u units hnext ih =>
      have hutf8 := length_utf8_le u
      simp only [List.length_append, List.map_cons, List.sum_cons, JsonUnit.room]
      omega
  | case5 => exact Nat.le_refl 0

/-- A string without escapes denotes itself. -/
lemma denoted_of_plain (h : t.all isPlain = true) : denoted (jsonUnits t) = t := by
  induction t with
  | nil => rfl
  | cons c t ih =>
      rw [List.all_cons, Bool.and_eq_true] at h
      have hc : c ≠ 92 := by
        rintro rfl
        exact absurd h.1 (by decide)
      rw [jsonUnits_plain hc, denoted, ih h.2]

/-- The units of a string are no longer than the string, and as long only if there is no escape. -/
lemma room_jsonUnits (h : IsStringBody t) : ((jsonUnits t).map JsonUnit.room).sum < t.length ∨
    ((jsonUnits t).map JsonUnit.room).sum = t.length ∧ t.all isPlain = true := by
  induction h with
  | nil => exact .inr ⟨rfl, rfl⟩
  | @plain c t control quote backslash rest ih =>
      have hc : isPlain c = true := by
        simp only [isPlain, Bool.and_eq_true, decide_eq_true_eq, bne_iff_ne]
        exact ⟨⟨control, quote⟩, backslash⟩
      rw [jsonUnits_plain backslash, List.map_cons, List.sum_cons, List.length_cons, JsonUnit.room,
        List.all_cons, hc, Bool.true_and]
      rcases ih with hlt | ⟨heq, hall⟩
      · exact .inl (by omega)
      · exact .inr ⟨by omega, hall⟩
  | escape known rest ih =>
      rw [jsonUnits_escape known, List.map_cons, List.sum_cons, List.length_cons, List.length_cons,
        JsonUnit.room]
      refine .inl ?_
      rcases ih with hlt | ⟨heq, -⟩
      · omega
      · omega
  | unicode hex rest ih =>
      rw [jsonUnits, List.map_cons, List.sum_cons, JsonUnit.room]
      refine .inl ?_
      simp only [List.length_cons]
      rcases ih with hlt | ⟨heq, -⟩
      · omega
      · omega

/-- What a string denotes is no longer than the string, and as long only if it is the string. -/
lemma length_denoted_jsonUnits (h : IsStringBody t) :
    (denoted (jsonUnits t)).length < t.length ∨ t.all isPlain = true ∧ denoted (jsonUnits t) = t := by
  rcases room_jsonUnits h with hlt | ⟨-, hplain⟩
  · exact .inl (Nat.lt_of_le_of_lt (length_denoted_le _) hlt)
  · exact .inr ⟨hplain, denoted_of_plain hplain⟩

end JsonText

end PubNub
