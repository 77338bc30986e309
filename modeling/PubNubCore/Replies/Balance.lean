import Mathlib.Algebra.BigOperators.Group.List.Basic
import PubNubCore.Lib.Printing
import PubNubCore.Lib.Scanf
import PubNubCore.Replies.Parsers

/-!
# Balanced texts

What `pbcc_split_array` of `core/pubnub_ccore_pubsub.c` says of a text that need not be JSON.  It
counts brackets and braces together, and its result tells only whether more of them are open than
closed; a closing one too many is not told from none.

The bytes outside of strings are `Quoting.outside`.  Of these, `level` counts what the code counts, and
`net` counts one kind.
-/

namespace PubNub

open Scanf (InInt)

/-! ## Texts with strings in them -/

/-- Whether a byte belongs to a string, and whether a backslash stands in front of it. -/
structure Quoting where
  escaped : Bool := false
  inString : Bool := false
  deriving DecidableEq

namespace Quoting

def step (q : Quoting) (c : UInt8) : Quoting :=
  if q.escaped then ⟨false, q.inString⟩
  else if c = 34 then ⟨false, !q.inString⟩
  else ⟨q.inString && c == 92, q.inString⟩

def after (q : Quoting) (t : Bytes) : Quoting := t.foldl step q

/-- The byte is none of a string, and no quote. -/
def isOutside (q : Quoting) (c : UInt8) : Bool := !(q.escaped || q.inString || c == 34)

/-- The bytes outside of strings. -/
def outside : Quoting → Bytes → Bytes
  | _, [] => []
  | q, c :: t => if q.isOutside c then c :: outside (q.step c) t else outside (q.step c) t

end Quoting

inductive BracketKind
  | square | curly
  deriving DecidableEq

def BracketKind.opening : BracketKind → UInt8
  | .square => 91
  | .curly => 123

def BracketKind.closing : BracketKind → UInt8
  | .square => 93
  | .curly => 125

def BracketKind.delta (kind : BracketKind) (c : UInt8) : Int :=
  if c = kind.opening then 1 else if c = kind.closing then -1 else 0

/-- How many brackets of a kind are open behind a text. -/
def net (kind : BracketKind) (t : Bytes) : Int :=
  ((Quoting.outside {} t).map kind.delta).sum

/-- Brackets and braces together. -/
def bracketLevel (t : Bytes) : Int :=
  ((Quoting.outside {} t).map fun c => BracketKind.square.delta c + BracketKind.curly.delta c).sum

/-- Behind the text no string is open. -/
def Terminated (t : Bytes) : Prop := (Quoting.after {} t).inString = false

instance (t : Bytes) : Decidable (Terminated t) :=
  inferInstanceAs (Decidable (_ = false))

/-- No bracket is closed that has not been opened. -/
def NoneStray (t : Bytes) : Prop := ∀ p, p <+: t → ∀ kind, 0 ≤ net kind p

/-- Every string is terminated, every bracket closed, and none of its kind closed without an opening
    one. -/
structure Balanced (t : Bytes) : Prop where
  terminated : Terminated t
  closed : ∀ kind, net kind t = 0
  noneStray : NoneStray t

/-! ## The function -/

/-- An `int` holds the level all along. -/
def LevelFits (t : Bytes) : Prop := ∀ p ∈ t.inits, InInt (bracketLevel p)

instance (t : Bytes) : Decidable (LevelFits t) := inferInstanceAs (Decidable (∀ p ∈ t.inits, _))

/-- `pbcc_split_array` on a text in a memory; `none` where `bracket_level` leaves the `int`. -/
def splitText (before : Bytes) (t : CText) (behind : Bytes) : Option (Memory × Bool) :=
  if LevelFits t.text then
    some (pbccSplitArray { cells := before ++ (t.text ++ 0 :: behind) } before.length)
  else none

/-- The commas that are in no string and in no bracket have become zeros, nothing else has changed, and
    the result tells whether the text is balanced. -/
structure SplitsTextRight (before : Bytes) (t : CText) (behind : Bytes)
    (outcome : Option (Memory × Bool)) : Prop where
  split : ∃ after balanced, outcome = some ({ cells := before ++ (after ++ 0 :: behind) }, balanced) ∧
    after.length = t.text.length ∧
    (∀ i c, t.text[i]? = some c → after[i]? = some
      (if c = 44 ∧ Terminated (t.text.take i) ∧ bracketLevel (t.text.take i) = 0 then 0 else c)) ∧
    (balanced = true ↔ Balanced t.text)

/-! ## The loop -/

variable {q : Quoting} {level : Int} {c : UInt8} {t p : Bytes}

namespace Quoting

/-- What a byte adds to the level. -/
def weight (q : Quoting) (c : UInt8) : Int :=
  if q.isOutside c then BracketKind.square.delta c + BracketKind.curly.delta c else 0

/-- The level behind a text. -/
def levelFrom (q : Quoting) (level : Int) : Bytes → Int
  | [] => level
  | c :: t => levelFrom (q.step c) (level + q.weight c) t

/-- The text as the loop leaves it. -/
def split (q : Quoting) (level : Int) : Bytes → Bytes
  | [] => []
  | c :: t => (if q.isOutside c && c == 44 && level == 0 then 0 else c) ::
      split (q.step c) (level + q.weight c) t

/-- One round of the loop. -/
lemma splitFrom_cons (hc : c ≠ 0) (t : Bytes) :
    splitFrom q.escaped q.inString level (c :: t) =
      ((if q.isOutside c && c == 44 && level == 0 then 0 else c) ::
        (splitFrom (q.step c).escaped (q.step c).inString (level + q.weight c) t).1,
        (splitFrom (q.step c).escaped (q.step c).inString (level + q.weight c) t).2) := by
  obtain ⟨escaped, inString⟩ := q
  rw [splitFrom, if_neg hc]
  cases escaped with
  | true => simp [step, isOutside, weight]
  | false =>
      by_cases hquote : c = 34
      · simp [step, isOutside, weight, hquote]
      cases inString with
      | true => simp [step, isOutside, weight, hquote]
      | false =>
          have hstep : (Quoting.step ⟨false, false⟩ c) = ⟨false, false⟩ := by simp [step, hquote]
          have hoff : (Quoting.isOutside ⟨false, false⟩ c) = true := by simp [isOutside, hquote]
          rw [hstep, weight, hoff, if_pos rfl]
          by_cases hopen : c = 91 ∨ c = 123
          · rcases hopen with rfl | rfl
            · simp [BracketKind.delta, BracketKind.opening, BracketKind.closing]
            · simp [BracketKind.delta, BracketKind.opening, BracketKind.closing]
          by_cases hclose : c = 93 ∨ c = 125
          · rcases hclose with rfl | rfl
            · simp [BracketKind.delta, BracketKind.opening, BracketKind.closing, Int.sub_eq_add_neg]
            · simp [BracketKind.delta, BracketKind.opening, BracketKind.closing, Int.sub_eq_add_neg]
          rw [not_or] at hopen hclose
          have hweight : BracketKind.square.delta c + BracketKind.curly.delta c = 0 := by
            simp [BracketKind.delta, BracketKind.opening, BracketKind.closing, hopen, hclose]
          rw [hweight, Int.add_zero]
          by_cases hcomma : c = 44 ∧ level = 0
          · simp [hcomma]
          · have hkeep : ((c == 44) && (level == 0)) = false := by
              rw [Bool.and_eq_false_iff, beq_eq_false_iff_ne, beq_eq_false_iff_ne]
              exact not_and_or.mp hcomma
            simp [hquote, hopen, hclose, hcomma, hkeep]

/-- **The loop**, up to the zero behind the text. -/
lemma splitFrom_eq (q : Quoting) (level : Int) (ht : 0 ∉ t) (behind : Bytes) :
    splitFrom q.escaped q.inString level (t ++ 0 :: behind) = (split q level t ++ 0 :: behind,
      !((q.after t).escaped || (q.after t).inString || decide (0 < q.levelFrom level t))) := by
  induction t generalizing q level with
  | nil => rfl
  | cons c t ih =>
      rw [List.mem_cons, not_or] at ht
      rw [List.cons_append, splitFrom_cons (Ne.symm ht.1), ih _ _ ht.2]
      rfl

/-! ## What the loop has counted -/

lemma levelFrom_eq : q.levelFrom level t = level +
    ((q.outside t).map fun c => BracketKind.square.delta c + BracketKind.curly.delta c).sum := by
  induction t generalizing q level with
  | nil => exact (Int.add_zero level).symm
  | cons c t ih =>
      rw [levelFrom, ih, outside, weight]
      split
      · rw [List.map_cons, List.sum_cons, Int.add_assoc]
      · rw [Int.add_zero]

lemma length_split : (split q level t).length = t.length := by
  induction t generalizing q level with
  | nil => rfl
  | cons c t ih => rw [split, List.length_cons, List.length_cons, ih]

/-- What has become of a byte depends on what stands in front of it. -/
lemma getElem?_split {i : Nat} (hc : t[i]? = some c) : (split q level t)[i]? = some
    (if (q.after (t.take i)).isOutside c && c == 44 && q.levelFrom level (t.take i) == 0 then 0
      else c) := by
  induction t generalizing q level i with
  | nil => cases hc
  | cons d t ih =>
      cases i with
      | zero =>
          cases hc
          rfl
      | succ i =>
          rw [List.getElem?_cons_succ] at hc
          rw [split, List.getElem?_cons_succ, ih hc]
          rfl

/-- A backslash escapes in strings only. -/
lemma inString_of_escaped (h : q.escaped = true → q.inString = true) (t : Bytes) :
    (q.after t).escaped = true → (q.after t).inString = true := by
  induction t generalizing q with
  | nil => exact h
  | cons c t ih =>
      refine ih ?_
      rw [step]
      split
      · rintro ⟨⟩
      · split
        · rintro ⟨⟩
        · intro hescaped
          exact (Bool.and_eq_true_iff.mp hescaped).1

end Quoting

lemma levelFrom_start (t : Bytes) : Quoting.levelFrom {} 0 t = bracketLevel t := by
  rw [Quoting.levelFrom_eq, Int.zero_add, bracketLevel]

lemma bracketLevel_eq (t : Bytes) :
    bracketLevel t = net BracketKind.square t + net BracketKind.curly t := by
  rw [bracketLevel, net, net]
  exact List.sum_map_add

/-! ## Which texts are judged right -/

/-- What the function does to a text. -/
lemma splitText_eq {t : CText} (h : LevelFits t.text) (before behind : Bytes) :
    splitText before t behind = some
      ({ cells := before ++ (Quoting.split {} 0 t.text ++ 0 :: behind) },
        !((Quoting.after {} t.text).inString || decide (0 < bracketLevel t.text))) := by
  have hloop := Quoting.splitFrom_eq {} 0 t.zero_not_mem behind
  have hescaped := Quoting.inString_of_escaped (q := {}) (fun h => h) t.text
  have hor : ((Quoting.after {} t.text).escaped || (Quoting.after {} t.text).inString) =
      (Quoting.after {} t.text).inString := by
    cases hcase : (Quoting.after {} t.text).escaped with
    | true => rw [hescaped hcase, Bool.or_self]
    | false => exact Bool.false_or _
  rw [levelFrom_start, hor] at hloop
  rw [splitText, if_pos h, pbccSplitArray]
  dsimp only
  rw [List.drop_left, List.take_left, hloop]

/-- The bytes are always right. -/
lemma split_right {t : CText} {i : Nat} {c : UInt8} (hc : t.text[i]? = some c) :
    (Quoting.split {} 0 t.text)[i]? = some
      (if c = 44 ∧ Terminated (t.text.take i) ∧ bracketLevel (t.text.take i) = 0 then 0 else c) := by
  rw [Quoting.getElem?_split hc, levelFrom_start]
  have hescaped := Quoting.inString_of_escaped (q := {}) (fun h => h) (t.text.take i)
  congr 1
  refine if_congr ?_ rfl rfl
  rw [Terminated, Quoting.isOutside]
  by_cases hcomma : c = 44
  · subst hcomma
    cases hin : (Quoting.after {} (t.text.take i)).inString with
    | true => simp
    | false =>
        have hnone : (Quoting.after {} (t.text.take i)).escaped = false := by
          by_contra hsome
          rw [hescaped (by simpa using hsome)] at hin
          cases hin
        simp [hnone]
  · simp [hcomma]

/-- What the function answers is whether the text is balanced, except where it is not and brackets are
    closed that have not been opened. -/
lemma balanced_iff (t : Bytes) :
    ((!((Quoting.after {} t).inString || decide (0 < bracketLevel t))) = true ↔ Balanced t) ↔
      (¬ Terminated t ∨ 0 < bracketLevel t ∨ NoneStray t) := by
  have hanswer : (!((Quoting.after {} t).inString || decide (0 < bracketLevel t))) = true ↔
      Terminated t ∧ bracketLevel t ≤ 0 := by
    rw [Terminated]
    simp
  rw [hanswer]
  constructor
  · intro h
    by_cases hterminated : Terminated t
    · by_cases hlevel : 0 < bracketLevel t
      · exact .inr (.inl hlevel)
      · exact .inr (.inr (h.mp ⟨hterminated, Int.not_lt.mp hlevel⟩).noneStray)
    · exact .inl hterminated
  · intro h
    constructor
    · rintro ⟨hterminated, hlevel⟩
      have hstray : NoneStray t := (h.resolve_left (not_not_intro hterminated)).resolve_left
        (Int.not_lt.mpr hlevel)
      have hsquare := hstray t List.prefix_rfl .square
      have hcurly := hstray t List.prefix_rfl .curly
      rw [bracketLevel_eq] at hlevel
      refine ⟨hterminated, fun kind => ?_, hstray⟩
      cases kind with
      | square => omega
      | curly => omega
    · intro hbalanced
      refine ⟨hbalanced.terminated, ?_⟩
      rw [bracketLevel_eq, hbalanced.closed, hbalanced.closed]
      exact Int.le_refl 0

lemma levelFits_of_splits {before behind : Bytes} {t : CText}
    (h : SplitsTextRight before t behind (splitText before t behind)) : LevelFits t.text := by
  by_contra hfits
  obtain ⟨after, balanced, houtcome, -⟩ := h
  rw [splitText, if_neg hfits] at houtcome
  cases houtcome

/-- With a level that fits, the answer is all that can be wrong. -/
lemma splits_iff {t : CText} (h : LevelFits t.text) (before behind : Bytes) :
    SplitsTextRight before t behind (splitText before t behind) ↔
      (¬ Terminated t.text ∨ 0 < bracketLevel t.text ∨ NoneStray t.text) := by
  rw [← balanced_iff]
  constructor
  · rintro ⟨after, balanced, houtcome, -, -, hbalanced⟩
    rw [splitText_eq h, Option.some_inj, Prod.mk.injEq] at houtcome
    rw [← houtcome.2] at hbalanced
    exact hbalanced
  · intro hbalanced
    exact ⟨_, _, splitText_eq h before behind, Quoting.length_split,
      fun i c hc => split_right hc, hbalanced⟩

end PubNub
