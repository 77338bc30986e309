import Mathlib.Data.List.TakeDrop

/-!
# Blocks of memory with checked accesses

A **block** is a list of cells.  A program that is handed a block and computes lengths and
offsets into it can go wrong in two ways: it subtracts a length from a smaller one, or it
addresses cells which the block does not have.  `Checked` computations stop there, with the
`Fault` they ran into.

`Checked.Returns x p` says that the computation ends without a fault, and with a result for
which `p` holds.  The rules for `Returns` go through a computation step by step and turn it into
a condition on lengths: `returns_bind`, `returns_sub`, `returns_read`.

A **window** is a part of a block, given by its offset and its size, which is what a pointer and
a length into the block amount to.  It lies `Within` the block or it does not.
-/

namespace PubNub

universe u

variable {α β : Type u}

/-- What is wrong with a length or an address. -/
inductive Fault
  | underflow | outside
  deriving DecidableEq, Repr

/-- A computation that stops at the first fault. -/
abbrev Checked (α : Type u) := Except Fault α

namespace Checked

/-- The computation ends without a fault, and `p` holds of its result. -/
def Returns (x : Checked α) (p : α → Prop) : Prop := ∃ a, x = .ok a ∧ p a

/-- The difference of two sizes. -/
def sub (a b : Nat) : Checked Nat := if b ≤ a then .ok (a - b) else .error .underflow

/-- `n` cells of a block from cell `i` on. -/
def read (block : List α) (i n : Nat) : Checked (List α) :=
  if i + n ≤ block.length then .ok ((block.drop i).take n) else .error .outside

/-- One cell of a block. -/
def cell (block : List α) (i : Nat) : Checked α :=
  if h : i < block.length then .ok block[i] else .error .outside

/-- A condition that must hold for the computation to go on. -/
def require (c : Prop) [Decidable c] : Checked Unit := if c then .ok () else .error .outside

variable {p q : α → Prop} {x : Checked α} {f : α → Checked β} {r : β → Prop}

@[simp] lemma returns_ok {a : α} : Returns (.ok a) p ↔ p a := by
  constructor
  · rintro ⟨b, hb, hp⟩
    exact Except.ok.inj hb ▸ hp
  · exact fun hp => ⟨a, rfl, hp⟩

@[simp] lemma returns_pure {a : α} : Returns (pure a) p ↔ p a := returns_ok

@[simp] lemma returns_error {e : Fault} : Returns (.error e : Checked α) p ↔ False :=
  iff_of_false (fun ⟨_, h, _⟩ => by cases h) id

/-- **The rule for a sequence.** -/
@[simp] lemma returns_bind : Returns (x >>= f) r ↔ Returns x fun a => Returns (f a) r := by
  cases x with
  | ok a => exact (returns_ok (p := fun a => Returns (f a) r)).symm
  | error e => exact (returns_error (p := r)).trans returns_error.symm

@[simp] lemma returns_map {g : α → β} : Returns (g <$> x) r ↔ Returns x fun a => r (g a) := by
  cases x with
  | ok a => exact (returns_ok (p := r)).trans (returns_ok (p := fun a => r (g a))).symm
  | error e => exact (returns_error (p := r)).trans returns_error.symm

@[simp] lemma returns_sub {a b : Nat} {p : Nat → Prop} :
    Returns (sub a b) p ↔ b ≤ a ∧ p (a - b) := by
  unfold sub
  split
  · next h => simp [h]
  · next h => simp [h]

@[simp] lemma returns_read {block : List α} {i n : Nat} {p : List α → Prop} :
    Returns (read block i n) p ↔ i + n ≤ block.length ∧ p ((block.drop i).take n) := by
  unfold read
  split
  · next h => simp [h]
  · next h => simp [h]

@[simp] lemma returns_cell {block : List α} {i : Nat} :
    Returns (cell block i) p ↔ ∃ h : i < block.length, p block[i] := by
  unfold cell
  split
  · next h => simp [h]
  · next h => simp [h]

@[simp] lemma returns_require {c : Prop} [Decidable c] {p : Unit → Prop} :
    Returns (require c) p ↔ c ∧ p () := by
  unfold require
  split
  · next h => simp [h]
  · next h => simp [h]

lemma returns_congr (h : ∀ a, p a ↔ q a) : Returns x p ↔ Returns x q :=
  exists_congr fun a => and_congr_right fun _ => h a

/-- A computation returns, and whatever it returns has the property. -/
lemma returns_iff : Returns x p ↔ Returns x (fun _ => True) ∧ ∀ a, x = .ok a → p a := by
  cases x with
  | ok a => simp
  | error e => simp

/-- A computation that is known to return is its result. -/
lemma eq_ok_iff {a : α} : x = .ok a ↔ Returns x (· = a) := by
  constructor
  · exact fun h => ⟨a, h, rfl⟩
  · rintro ⟨b, hb, rfl⟩
    exact hb

end Checked

/-- A part of a block. -/
structure Window where
  ofs : Nat
  size : Nat
  deriving DecidableEq, Repr

namespace Window

variable (w : Window)

/-- The window lies in a block of this length. -/
def Within (length : Nat) : Prop := w.ofs + w.size ≤ length

instance (length : Nat) : Decidable (w.Within length) :=
  inferInstanceAs (Decidable (_ ≤ _))

/-- The cells of the window. -/
def contents (block : List α) : List α := (block.drop w.ofs).take w.size

lemma length_contents {block : List α} (h : w.Within block.length) :
    (w.contents block).length = w.size := by
  rw [Within] at h
  rw [contents, List.length_take, List.length_drop]
  omega

/-- The window between two parts of a block. -/
lemma contents_append (a b c : List α) :
    Window.contents ⟨a.length, b.length⟩ (a ++ b ++ c) = b := by
  rw [contents, List.append_assoc, List.drop_left, List.take_left]

end Window

end PubNub
