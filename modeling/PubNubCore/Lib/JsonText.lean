import Mathlib.Algebra.Order.BigOperators.Group.List
import Mathlib.Algebra.Order.Ring.Int
import Mathlib.Data.List.Basic

/-!
# JSON texts

The grammar of JSON, on bytes.  A text is well formed when it is derived by `IsJson`, in which a
value, the elements of an array and the members of an object are three kinds of one family; the
family counts how deep objects and arrays lie in one another, each kind of bracket by itself.

A reader of JSON that is not a parser looks at few bytes only: at brackets outside of strings, at
quotes that are not escaped, and at what may follow a number.  The lemmas say which bytes a number
or a literal is made of, so that such a reader passes over it.

The bytes are written as numbers: 34 is the double quote, 44 the comma, 58 the colon, 91 and 93
the brackets, 92 the backslash, 123 and 125 the braces.
-/

namespace PubNub

namespace JsonText

/-! ## Spaces, strings, numbers -/

def IsSpace (c : UInt8) : Prop := c = 32 ∨ c = 9 ∨ c = 10 ∨ c = 13

/-- Insignificant whitespace. -/
def IsWs (t : List UInt8) : Prop := ∀ c ∈ t, IsSpace c

def IsDigit (c : UInt8) : Prop := 48 ≤ c ∧ c ≤ 57

def IsHexDigit (c : UInt8) : Prop := IsDigit c ∨ 65 ≤ c ∧ c ≤ 70 ∨ 97 ≤ c ∧ c ≤ 102

/-- What stands between the quotes of a string. -/
inductive IsStringBody : List UInt8 → Prop
  | nil : IsStringBody []
  | plain {c : UInt8} {t : List UInt8} (control : 32 ≤ c) (quote : c ≠ 34) (backslash : c ≠ 92)
      (rest : IsStringBody t) : IsStringBody (c :: t)
  | escape {c : UInt8} {t : List UInt8} (known : c ∈ [34, 92, 47, 98, 102, 110, 114, 116])
      (rest : IsStringBody t) : IsStringBody (92 :: c :: t)
  | unicode {h₁ h₂ h₃ h₄ : UInt8} {t : List UInt8} (hex : ∀ c ∈ [h₁, h₂, h₃, h₄], IsHexDigit c)
      (rest : IsStringBody t) : IsStringBody (92 :: 117 :: h₁ :: h₂ :: h₃ :: h₄ :: t)

def IsDigits (t : List UInt8) : Prop := t ≠ [] ∧ ∀ c ∈ t, IsDigit c

/-- The digits in front of the point: a zero stands alone. -/
def IsInt (t : List UInt8) : Prop := IsDigits t ∧ (t.head? = some 48 → t = [48])

def IsFraction (t : List UInt8) : Prop := t = [] ∨ ∃ digits, IsDigits digits ∧ t = 46 :: digits

def IsExponent (t : List UInt8) : Prop := t = [] ∨ ∃ e sign digits,
  (e = 101 ∨ e = 69) ∧ (sign = [] ∨ sign = [43] ∨ sign = [45]) ∧ IsDigits digits ∧
  t = e :: (sign ++ digits)

def IsNumber (t : List UInt8) : Prop := ∃ minus int fraction exponent,
  (minus = [] ∨ minus = [45]) ∧ IsInt int ∧ IsFraction fraction ∧ IsExponent exponent ∧
  t = minus ++ int ++ fraction ++ exponent

/-- A number, or one of the three literals. -/
inductive IsScalar : List UInt8 → Prop
  | isTrue : IsScalar [116, 114, 117, 101]
  | isFalse : IsScalar [102, 97, 108, 115, 101]
  | isNull : IsScalar [110, 117, 108, 108]
  | number {t : List UInt8} (h : IsNumber t) : IsScalar t

/-! ## Values -/

inductive Part
  | value | elements | members

/-- The well formed texts of a kind, in which objects and arrays lie in one another as deep as the
    two numbers say. -/
inductive IsJson : Part → Nat → Nat → List UInt8 → Prop
  | scalar {t : List UInt8} (h : IsScalar t) : IsJson .value 0 0 t
  | string {t : List UInt8} (h : IsStringBody t) : IsJson .value 0 0 (34 :: (t ++ [34]))
  | noElements {w : List UInt8} (h : IsWs w) : IsJson .value 0 1 (91 :: (w ++ [93]))
  | array {x y : Nat} {t : List UInt8} (h : IsJson .elements x y t) :
      IsJson .value x (y + 1) (91 :: (t ++ [93]))
  | noMembers {w : List UInt8} (h : IsWs w) : IsJson .value 1 0 (123 :: (w ++ [125]))
  | object {x y : Nat} {t : List UInt8} (h : IsJson .members x y t) :
      IsJson .value (x + 1) y (123 :: (t ++ [125]))
  | element {x y : Nat} {w t u : List UInt8} (before : IsWs w) (value : IsJson .value x y t)
      (behind : IsWs u) : IsJson .elements x y (w ++ (t ++ u))
  | elements {x y x' y' : Nat} {t u : List UInt8} (first : IsJson .elements x y t)
      (rest : IsJson .elements x' y' u) : IsJson .elements (max x x') (max y y') (t ++ 44 :: u)
  | member {x y : Nat} {w k u v t z : List UInt8} (before : IsWs w) (key : IsStringBody k)
      (colon : IsWs u) (behindColon : IsWs v) (value : IsJson .value x y t) (behind : IsWs z) :
      IsJson .members x y (w ++ 34 :: (k ++ 34 :: (u ++ 58 :: (v ++ (t ++ z)))))
  | members {x y x' y' : Nat} {t u : List UInt8} (first : IsJson .members x y t)
      (rest : IsJson .members x' y' u) : IsJson .members (max x x') (max y y') (t ++ 44 :: u)

/-- A JSON text: a value, and whitespace around it. -/
def IsJsonText (t : List UInt8) : Prop := ∃ objects arrays before value behind,
  IsWs before ∧ IsJson .value objects arrays value ∧ IsWs behind ∧ t = before ++ (value ++ behind)

/-! ## The members of an object -/

/-- A member of an object, and what whitespace stands around its parts. -/
structure Member where
  before : List UInt8
  key : List UInt8
  beforeColon : List UInt8
  behindColon : List UInt8
  value : List UInt8
  behind : List UInt8
  /-- How deep objects and arrays lie in one another in the value. -/
  objects : Nat
  arrays : Nat
  isWs_before : IsWs before
  isStringBody_key : IsStringBody key
  isWs_beforeColon : IsWs beforeColon
  isWs_behindColon : IsWs behindColon
  isJson_value : IsJson .value objects arrays value
  isWs_behind : IsWs behind

namespace Member

variable (mem : Member)

/-- What stands in front of the value. -/
def front : List UInt8 :=
  mem.before ++ 34 :: (mem.key ++ 34 :: (mem.beforeColon ++ 58 :: mem.behindColon))

def text : List UInt8 := mem.front ++ (mem.value ++ mem.behind)

end Member

/-- The members of an object, with commas between them. -/
def membersText : List Member → List UInt8
  | [] => []
  | [mem] => mem.text
  | mem :: mems => mem.text ++ 44 :: membersText mems

/-! ## The bytes of scalars -/

/-- A byte that numbers and literals are made of. -/
def IsScalarByte (c : UInt8) : Prop := 43 ≤ c ∧ c ≤ 122 ∧ c ≠ 44 ∧ c ≠ 58 ∧ ¬ (91 ≤ c ∧ c ≤ 93)

variable {t : List UInt8} {c : UInt8}

lemma IsDigit.isScalarByte (h : IsDigit c) : IsScalarByte c := by
  obtain ⟨hlow, hhigh⟩ := h
  simp only [UInt8.le_iff_toNat_le, UInt8.reduceToNat] at hlow hhigh
  simp only [IsScalarByte, UInt8.le_iff_toNat_le, ← UInt8.toNat_inj, ne_eq, UInt8.reduceToNat]
  omega

lemma IsDigits.isScalarByte (h : IsDigits t) : ∀ c ∈ t, IsScalarByte c :=
  fun c hc => (h.2 c hc).isScalarByte

lemma IsFraction.isScalarByte (h : IsFraction t) : ∀ c ∈ t, IsScalarByte c := by
  rcases h with rfl | ⟨digits, hdigits, rfl⟩
  · simp
  · intro c hc
    rcases List.mem_cons.mp hc with rfl | hc
    · simp [IsScalarByte]
    · exact hdigits.isScalarByte c hc

lemma IsExponent.isScalarByte (h : IsExponent t) : ∀ c ∈ t, IsScalarByte c := by
  rcases h with rfl | ⟨e, sign, digits, he, hsign, hdigits, rfl⟩
  · simp
  · intro c hc
    rw [List.mem_cons, List.mem_append] at hc
    rcases hc with rfl | hc | hc
    · rcases he with rfl | rfl <;> simp [IsScalarByte]
    · rcases hsign with rfl | rfl | rfl <;> simp_all [IsScalarByte]
    · exact hdigits.isScalarByte c hc

lemma IsNumber.isScalarByte (h : IsNumber t) : ∀ c ∈ t, IsScalarByte c := by
  obtain ⟨minus, int, fraction, exponent, hminus, hint, hfraction, hexponent, rfl⟩ := h
  intro c hc
  simp only [List.mem_append] at hc
  rcases hc with ((hc | hc) | hc) | hc
  · rcases hminus with rfl | rfl <;> simp_all [IsScalarByte]
  · exact hint.1.isScalarByte c hc
  · exact hfraction.isScalarByte c hc
  · exact hexponent.isScalarByte c hc

/-- A scalar is made of such bytes. -/
lemma IsScalar.isScalarByte (h : IsScalar t) : ∀ c ∈ t, IsScalarByte c := by
  cases h with
  | isTrue => simp [IsScalarByte]
  | isFalse => simp [IsScalarByte]
  | isNull => simp [IsScalarByte]
  | number h => exact h.isScalarByte

lemma IsScalar.ne_nil (h : IsScalar t) : t ≠ [] := by
  cases h with
  | isTrue => simp
  | isFalse => simp
  | isNull => simp
  | number h =>
      obtain ⟨minus, int, fraction, exponent, -, hint, -, -, rfl⟩ := h
      simp [hint.1.1]

end JsonText

end PubNub
