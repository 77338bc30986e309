import Mathlib.Algebra.Order.BigOperators.Group.List
import Mathlib.Algebra.Order.Ring.Int
import Mathlib.Data.List.TakeWhile
import Mathlib.Tactic.Common

/-!
# Numbers that `scanf` reads

`%d` passes over whitespace, takes a sign, and takes digits as long as there are some.  `scanD_iff`
says which texts these are; `scanDotted` is a row of such numbers with a dot behind each of them but
the last, and reads as far as the text goes along with that.  What the numbers are if an `int` does
not hold them is not defined.
-/

namespace PubNub

namespace Scanf

/-! ## Reading -/

/-- `isspace`. -/
def isSpace (c : UInt8) : Bool := c == 32 || decide (9 ≤ c) && decide (c ≤ 13)

def isDigit (c : UInt8) : Bool := decide (48 ≤ c) && decide (c ≤ 57)

def decimal (digits : List UInt8) : Nat := digits.foldl (fun v c => 10 * v + (c.toNat - 48)) 0

/-- Whether there is a minus, and what is left behind the sign. -/
def scanSign : List UInt8 → Bool × List UInt8
  | 45 :: s => (true, s)
  | 43 :: s => (false, s)
  | s => (false, s)

/-- `%d`: the number and what is left behind it. -/
def scanD (s : List UInt8) : Option (Int × List UInt8) :=
  let signed := scanSign (s.dropWhile isSpace)
  let digits := signed.2.takeWhile isDigit
  if digits = [] then none
  else some (if signed.1 then -decimal digits else decimal digits, signed.2.dropWhile isDigit)

def InInt (v : Int) : Prop := -2 ^ 31 ≤ v ∧ v < 2 ^ 31

instance (v : Int) : Decidable (InInt v) := inferInstanceAs (Decidable (_ ∧ _))

/-- At most so many numbers; `none` where the behaviour is not defined. -/
def scanDotted : Nat → List UInt8 → Option (List Int)
  | 0, _ => some []
  | count + 1, s =>
      match scanD s with
      | none => some []
      | some (v, rest) =>
          if InInt v then
            match rest with
            | 46 :: rest => (scanDotted count rest).map (v :: ·)
            | _ => some [v]
          else none

/-! ## The texts that are read -/

/-- What `%d` reads: whitespace, a sign or none, and digits. -/
structure Field where
  space : List UInt8
  sign : List UInt8
  digits : List UInt8
  isSpace_space : ∀ c ∈ space, isSpace c = true
  sign_mem : sign ∈ [[], [43], [45]]
  isDigit_digits : ∀ c ∈ digits, isDigit c = true
  digits_ne_nil : digits ≠ []

def Field.text (f : Field) : List UInt8 := f.space ++ (f.sign ++ f.digits)

def Field.value (f : Field) : Int := if f.sign = [45] then -decimal f.digits else decimal f.digits

/-- Texts with a dot between them. -/
def dotted : List (List UInt8) → List UInt8
  | [] => []
  | [t] => t
  | t :: ts => t ++ 46 :: dotted ts

/-- A number ends where there is no digit any more. -/
def NoDigit (s : List UInt8) : Prop := ∀ c, s.head? = some c → isDigit c = false

variable {s rest : List UInt8} {v : Int} {c : UInt8}

/-! ## One number -/

lemma isDigit_not_space (h : isDigit c = true) : isSpace c = false ∧ c ≠ 43 ∧ c ≠ 45 := by
  simp only [isDigit, isSpace, Bool.and_eq_true, decide_eq_true_eq, Bool.or_eq_false_iff,
    Bool.and_eq_false_iff, decide_eq_false_iff_not, beq_eq_false_iff_ne] at *
  refine ⟨⟨?_, .inr ?_⟩, ?_, ?_⟩
  · rintro rfl
    exact absurd h.1 (by decide)
  · intro hle
    exact absurd (UInt8.le_trans h.1 hle) (by decide)
  · rintro rfl
    exact absurd h.1 (by decide)
  · rintro rfl
    exact absurd h.1 (by decide)

lemma dropWhile_of_noDigit (h : NoDigit rest) : rest.dropWhile isDigit = rest := by
  cases rest with
  | nil => rfl
  | cons c rest => rw [List.dropWhile_cons_of_neg (by simp [h c rfl])]

lemma takeWhile_of_noDigit (h : NoDigit rest) : rest.takeWhile isDigit = [] := by
  cases rest with
  | nil => rfl
  | cons c rest => rw [List.takeWhile_cons_of_neg (by simp [h c rfl])]

lemma noDigit_dropWhile (s : List UInt8) : NoDigit (s.dropWhile isDigit) := by
  intro c hc
  have hhead := List.head?_dropWhile_not isDigit s
  rw [hc] at hhead
  simpa using hhead

/-- The digits and what is behind them. -/
lemma scanD_digits {digits : List UInt8} (hdigits : ∀ c ∈ digits, isDigit c = true)
    (hrest : NoDigit rest) : (digits ++ rest).takeWhile isDigit = digits ∧
      (digits ++ rest).dropWhile isDigit = rest := by
  constructor
  · rw [List.takeWhile_append_of_pos hdigits, takeWhile_of_noDigit hrest, List.append_nil]
  · rw [List.dropWhile_append_of_pos hdigits, dropWhile_of_noDigit hrest]

lemma scanSign_ne {c : UInt8} (hplus : c ≠ 43) (hminus : c ≠ 45) (s : List UInt8) :
    scanSign (c :: s) = (false, c :: s) := by
  rw [scanSign]
  · rintro t ⟨⟩
    exact hminus rfl
  · rintro t ⟨⟩
    exact hplus rfl

/-- A text of the form is read as its number. -/
lemma scanD_text (f : Field) (hrest : NoDigit rest) :
    scanD (f.text ++ rest) = some (f.value, rest) := by
  obtain ⟨space, sign, digits, hspace, hsign, hdigits, hne⟩ := f
  obtain ⟨d, ds, rfl⟩ := List.exists_cons_of_ne_nil hne
  obtain ⟨hd, hplus, hminus⟩ := isDigit_not_space (hdigits d List.mem_cons_self)
  obtain ⟨htake, hdrop⟩ := scanD_digits hdigits hrest
  have htext : (Field.mk space sign (d :: ds) hspace hsign hdigits hne).text ++ rest =
      space ++ (sign ++ (d :: ds ++ rest)) := by
    simp only [Field.text, List.append_assoc]
  have hsigned : scanSign ((space ++ (sign ++ (d :: ds ++ rest))).dropWhile isSpace) =
      (decide (sign = [45]), d :: ds ++ rest) := by
    rw [List.dropWhile_append_of_pos hspace]
    simp only [List.mem_cons, List.not_mem_nil, or_false] at hsign
    rcases hsign with rfl | rfl | rfl
    · have hstop : (d :: ds ++ rest).dropWhile isSpace = d :: ds ++ rest :=
        List.dropWhile_cons_of_neg (by simp [hd])
      rw [List.nil_append, hstop]
      exact scanSign_ne hplus hminus _
    · rfl
    · rfl
  rw [htext, scanD, hsigned]
  dsimp only
  rw [htake, if_neg hne, hdrop, Field.value]
  simp only [decide_eq_true_eq]

lemma scanSign_spec (s : List UInt8) : ∃ sign ∈ [[], [43], [45]],
    s = sign ++ (scanSign s).2 ∧ (scanSign s).1 = decide (sign = [45]) := by
  fun_cases scanSign s with
  | case1 s => exact ⟨[45], by simp, rfl, rfl⟩
  | case2 s => exact ⟨[43], by simp, rfl, rfl⟩
  | case3 s => exact ⟨[], by simp, rfl, rfl⟩

/-- What is read is a text of the form. -/
lemma exists_field_of_scanD (h : scanD s = some (v, rest)) :
    ∃ f : Field, s = f.text ++ rest ∧ f.value = v ∧ NoDigit rest := by
  obtain ⟨sign, hsign, hsplit, hnegative⟩ := scanSign_spec (s.dropWhile isSpace)
  rw [scanD] at h
  split at h
  · cases h
  · rename_i hne
    rw [Option.some_inj, Prod.mk.injEq] at h
    obtain ⟨hv, hrest⟩ := h
    have hspace : ∀ c ∈ s.takeWhile isSpace, isSpace c = true := fun c hc =>
      List.mem_takeWhile_imp hc
    have hdigits : ∀ c ∈ (scanSign (s.dropWhile isSpace)).2.takeWhile isDigit, isDigit c = true :=
      fun c hc => List.mem_takeWhile_imp hc
    refine ⟨⟨_, sign, _, hspace, hsign, hdigits, hne⟩, ?_, ?_, ?_⟩
    · rw [← hrest, Field.text, List.append_assoc, List.append_assoc, List.takeWhile_append_dropWhile,
        ← hsplit, List.takeWhile_append_dropWhile]
    · rw [← hv, hnegative, Field.value]
      simp only [decide_eq_true_eq]
    · rw [← hrest]
      exact noDigit_dropWhile _

/-! ## A row of numbers -/

/-- A row of numbers, which ends where there is no digit any more. -/
structure Row (s : List UInt8) (fields : List Field) (rest : List UInt8) : Prop where
  text_eq : s = dotted (fields.map Field.text) ++ rest
  noDigit : NoDigit rest

lemma noDigit_dot (s : List UInt8) : NoDigit (46 :: s) := by
  rintro c ⟨⟩
  rfl

variable {f : Field} {fields : List Field} {count : Nat} {vs : List Int}

/-- A row begins with its first number, and goes on behind a dot. -/
lemma Row.head (h : Row s (f :: fields) rest) : ∃ behind, scanD s = some (f.value, behind) ∧
    (fields = [] ∧ behind = rest ∨ ∃ t, fields ≠ [] ∧ behind = 46 :: t ∧ Row t fields rest) := by
  obtain ⟨rfl, hrest⟩ := h
  cases fields with
  | nil => exact ⟨rest, scanD_text f hrest, .inl ⟨rfl, rfl⟩⟩
  | cons g fields =>
      refine ⟨46 :: (dotted ((g :: fields).map Field.text) ++ rest), ?_, .inr
        ⟨_, List.cons_ne_nil _ _, rfl, rfl, hrest⟩⟩
      have hsplit : dotted ((f :: g :: fields).map Field.text) ++ rest =
          f.text ++ 46 :: (dotted ((g :: fields).map Field.text) ++ rest) := by
        change f.text ++ 46 :: dotted ((g :: fields).map Field.text) ++ rest = _
        rw [List.append_assoc, List.cons_append]
      rw [hsplit]
      exact scanD_text f (noDigit_dot _)

/-- One more number in front of a row. -/
lemma Row.cons {t : List UInt8} (h : Row t fields rest) (hne : fields ≠ []) (f : Field) :
    Row (f.text ++ 46 :: t) (f :: fields) rest := by
  obtain ⟨rfl, hrest⟩ := h
  obtain ⟨g, fields, rfl⟩ := List.exists_cons_of_ne_nil hne
  refine ⟨?_, hrest⟩
  change _ = f.text ++ 46 :: dotted ((g :: fields).map Field.text) ++ rest
  rw [List.append_assoc, List.cons_append]

lemma Row.single (f : Field) (hrest : NoDigit rest) : Row (f.text ++ rest) [f] rest := ⟨rfl, hrest⟩

/-- As many numbers as are asked for are read. -/
lemma scanDotted_row (h : Row s fields rest) (hcount : fields.length = count)
    (hint : ∀ f ∈ fields, InInt f.value) (hne : fields ≠ []) :
    scanDotted count s = some (fields.map Field.value) := by
  induction fields generalizing s count with
  | nil => exact absurd rfl hne
  | cons f fields ih =>
      subst hcount
      rw [List.forall_mem_cons] at hint
      obtain ⟨behind, hscan, ⟨rfl, rfl⟩ | ⟨t, hfields, rfl, hrow⟩⟩ := h.head
      · rw [List.length_cons, scanDotted, hscan]
        dsimp only
        rw [if_pos hint.1]
        split
        · rfl
        · rfl
      · rw [List.length_cons, scanDotted, hscan]
        dsimp only
        rw [if_pos hint.1]
        change (scanDotted fields.length t).map (f.value :: ·) = _
        rw [ih hrow rfl hint.2 hfields]
        rfl

/-- A number in reach that no `int` holds. -/
lemma scanDotted_overflow (h : Row s fields rest) (hcount : fields.length ≤ count)
    (hint : ∃ f ∈ fields, ¬ InInt f.value) : scanDotted count s = none := by
  induction fields generalizing s count with
  | nil =>
      obtain ⟨f, hf, -⟩ := hint
      exact absurd hf List.not_mem_nil
  | cons f fields ih =>
      obtain ⟨count, rfl⟩ := Nat.exists_eq_succ_of_ne_zero
        (Nat.ne_zero_of_lt (Nat.lt_of_lt_of_le (Nat.zero_lt_succ _) hcount))
      obtain ⟨behind, hscan, hbehind⟩ := h.head
      rw [scanDotted, hscan]
      dsimp only
      by_cases hf : InInt f.value
      · rw [if_pos hf]
        have hrest : ∃ g ∈ fields, ¬ InInt g.value := by
          obtain ⟨g, hg, hout⟩ := hint
          rcases List.mem_cons.mp hg with rfl | hg
          · exact absurd hf hout
          · exact ⟨g, hg, hout⟩
        rcases hbehind with ⟨rfl, rfl⟩ | ⟨t, -, rfl, hrow⟩
        · obtain ⟨g, hg, -⟩ := hrest
          exact absurd hg List.not_mem_nil
        · change (scanDotted count t).map (f.value :: ·) = none
          rw [ih hrow (Nat.le_of_succ_le_succ hcount) hrest]
          rfl
      · rw [if_neg hf]

/-- What is read is a row. -/
lemma row_of_scanDotted (h : scanDotted count s = some vs) (hcount : vs.length = count)
    (hne : vs ≠ []) : ∃ fields rest, Row s fields rest ∧ fields.map Field.value = vs := by
  induction count generalizing s vs with
  | zero => exact absurd (List.length_eq_zero_iff.mp hcount) hne
  | succ count ih =>
      rw [scanDotted] at h
      split at h
      · rw [Option.some_inj] at h
        exact absurd h.symm hne
      · rename_i v rest hscan
        obtain ⟨f, rfl, rfl, hrest⟩ := exists_field_of_scanD hscan
        split at h
        · split at h
          · rename_i t
            obtain ⟨us, hus, rfl⟩ := Option.map_eq_some_iff.mp h
            by_cases hnil : us = []
            · subst hnil
              exact ⟨[f], 46 :: t, .single f hrest, rfl⟩
            · obtain ⟨fields, behind, hrow, rfl⟩ := ih hus (Nat.succ.inj hcount) hnil
              have hfields : fields ≠ [] := fun hf => hnil (congrArg (List.map Field.value) hf)
              exact ⟨f :: fields, behind, hrow.cons hfields f, rfl⟩
          · cases h
            exact ⟨[f], rest, .single f hrest, rfl⟩
        · cases h

/-- Where nothing is defined there is such a number. -/
lemma row_of_scanDotted_eq_none (h : scanDotted count s = none) :
    ∃ fields rest, Row s fields rest ∧ fields.length ≤ count ∧ ∃ f ∈ fields, ¬ InInt f.value := by
  induction count generalizing s with
  | zero => cases h
  | succ count ih =>
      rw [scanDotted] at h
      split at h
      · cases h
      · rename_i v rest hscan
        obtain ⟨f, rfl, rfl, hrest⟩ := exists_field_of_scanD hscan
        split at h
        · split at h
          · rename_i t
            obtain ⟨fields, behind, hrow, hlength, g, hg, hout⟩ := ih (Option.map_eq_none_iff.mp h)
            exact ⟨f :: fields, behind, hrow.cons (List.ne_nil_of_mem hg) f,
              Nat.succ_le_succ hlength, g, List.mem_cons_of_mem f hg, hout⟩
          · cases h
        · rename_i hout
          exact ⟨[f], rest, .single f hrest, Nat.succ_le_succ (Nat.zero_le _), f,
            List.mem_cons_self, hout⟩

end Scanf

end PubNub
