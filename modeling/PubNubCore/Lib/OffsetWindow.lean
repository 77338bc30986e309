import Mathlib.Data.List.Basic

/-!
# Windows of offsets into a buffer that is used again

A program that hands out the contents of a buffer piece by piece keeps two offsets: where the
next piece begins, and where the last one ends.  The offsets outlive the contents: when
something else is put into the buffer they have to be set anew, or the pieces handed out next
are cut out of the new contents at the old places.

**What is visible.**  A window whose beginning has reached its end yields nothing, whatever the
two numbers are.  `OffsetWindow.visible` forgets them, and two windows with the same visible
part yield the same pieces and stay alike: `OffsetWindow.next_congr`.

**What is written.**  A program that looks at new contents leaves a window alone, sets both
offsets, or only the second one.  `WindowWrite.right_iff` says for each of the three when the
window it leaves belongs to the new contents: the write has to give the same window whatever
the old one was, inside the contents, and an empty one where the contents were refused.
-/

namespace PubNub

/-- Where the next piece begins and where the last one ends. -/
structure OffsetWindow where
  ofs : Nat
  stop : Nat
  deriving DecidableEq, Repr

namespace OffsetWindow

variable {v w : OffsetWindow} {len : Nat} {pieceLength : Nat → Nat}
  {pieceEnd : Nat × Nat → Nat}

/-- Both offsets at the beginning of the buffer. -/
def cleared : OffsetWindow := ⟨0, 0⟩

/-- Nothing is left in the window. -/
def Empty (w : OffsetWindow) : Prop := w.stop ≤ w.ofs

instance (w : OffsetWindow) : Decidable w.Empty := inferInstanceAs (Decidable (w.stop ≤ w.ofs))

/-- The window as far as a reader notices it. -/
def visible (w : OffsetWindow) : Option (Nat × Nat) :=
  if w.ofs < w.stop then some (w.ofs, w.stop) else none

/-- Empty, with an end that fits contents of `len` bytes and their terminator. -/
def Idle (w : OffsetWindow) (len : Nat) : Prop := w.Empty ∧ w.stop ≤ len + 1

instance (w : OffsetWindow) (len : Nat) : Decidable (w.Idle len) :=
  inferInstanceAs (Decidable (_ ∧ _))

/-- The piece at the beginning of the window, as its offset; pieces are separated by one byte.
    A piece that runs past the end of the window is skipped, and not yielded. -/
def next (pieceLength : Nat → Nat) (w : OffsetWindow) : Option Nat × OffsetWindow :=
  if w.ofs < w.stop then
    (if w.ofs + pieceLength w.ofs ≤ w.stop then some w.ofs else none,
      { w with ofs := w.ofs + pieceLength w.ofs + 1 })
  else (none, w)

/-- The window moved by a reader that looks at nothing but what is visible. -/
def skipTo (pieceEnd : Nat × Nat → Nat) (w : OffsetWindow) : OffsetWindow :=
  if w.ofs < w.stop then { w with ofs := pieceEnd (w.ofs, w.stop) } else w

lemma visible_eq_none : w.visible = none ↔ w.Empty := by
  rw [visible, Empty]
  split <;> simp <;> omega

lemma empty_cleared : cleared.Empty := Nat.le_refl 0

lemma visible_cleared : cleared.visible = none := rfl

lemma empty_congr (h : v.visible = w.visible) : v.Empty ↔ w.Empty := by
  rw [← visible_eq_none, h, visible_eq_none]

/-- Windows with the same visible part are the same window, or both empty. -/
lemma eq_or_empty (h : v.visible = w.visible) : v = w ∨ v.Empty ∧ w.Empty := by
  by_cases hv : v.Empty
  · exact .inr ⟨hv, (empty_congr h).mp hv⟩
  · left
    have hw : ¬ w.Empty := fun hw => hv ((empty_congr h).mpr hw)
    rw [Empty, Nat.not_le] at hv hw
    rw [visible, visible, if_pos hv, if_pos hw, Option.some.injEq, Prod.mk.injEq] at h
    cases v
    cases w
    simp only [OffsetWindow.mk.injEq]
    exact h

lemma next_of_empty (h : w.Empty) : w.next pieceLength = (none, w) := by
  rw [next, if_neg (Nat.not_lt.mpr h)]

lemma skipTo_of_empty (h : w.Empty) : w.skipTo pieceEnd = w := by
  rw [skipTo, if_neg (Nat.not_lt.mpr h)]

/-- Windows with the same visible part yield the same piece, and stay alike. -/
lemma next_congr (pieceLength : Nat → Nat) (h : v.visible = w.visible) :
    (v.next pieceLength).1 = (w.next pieceLength).1 ∧
      (v.next pieceLength).2.visible = (w.next pieceLength).2.visible := by
  rcases eq_or_empty h with rfl | ⟨hv, hw⟩
  · exact ⟨rfl, rfl⟩
  · rw [next_of_empty hv, next_of_empty hw]
    exact ⟨rfl, h⟩

lemma visible_skipTo_congr (h : v.visible = w.visible) :
    (v.skipTo pieceEnd).visible = (w.skipTo pieceEnd).visible := by
  rcases eq_or_empty h with rfl | ⟨hv, hw⟩
  · rfl
  · rw [skipTo_of_empty hv, skipTo_of_empty hw, h]

lemma Empty.next (h : w.Empty) : (w.next pieceLength).2.Empty := by
  rwa [next_of_empty h]

lemma Empty.skipTo (h : w.Empty) : (w.skipTo pieceEnd).Empty := by
  rwa [skipTo_of_empty h]

end OffsetWindow

/-- What is written into a window. -/
inductive WindowWrite
  | keep
  | set (w : OffsetWindow)
  /-- The end alone. -/
  | setStop (stop : Nat)
  deriving DecidableEq, Repr

namespace WindowWrite

variable {w v : OffsetWindow} {len stop : Nat} {refused : Prop}

def apply : WindowWrite → OffsetWindow → OffsetWindow
  | .keep, w => w
  | .set v, _ => v
  | .setStop stop, w => { w with stop }

/-- The window which the write leaves belongs to contents of `len` bytes: it is the one which it
    leaves on a cleared window, it ends inside them, and it is empty if they were refused. -/
def Right (x : WindowWrite) (w : OffsetWindow) (len : Nat) (refused : Prop) : Prop :=
  (x.apply w).visible = (x.apply .cleared).visible ∧ (x.apply w).stop ≤ len + 1 ∧
    (refused → (x.apply w).Empty)

instance (x : WindowWrite) (w : OffsetWindow) (len : Nat) (refused : Prop) [Decidable refused] :
    Decidable (x.Right w len refused) :=
  inferInstanceAs (Decidable (_ ∧ _ ∧ (_ → _)))

lemma right_keep : Right .keep w len refused ↔ w.Idle len := by
  rw [Right, apply, apply, OffsetWindow.visible_cleared, OffsetWindow.visible_eq_none,
    OffsetWindow.Idle]
  tauto

lemma right_set : Right (.set v) w len refused ↔ v.stop ≤ len + 1 ∧ (refused → v.Empty) := by
  rw [Right, apply, apply]
  tauto

/-- An end that is set on its own is right for a window that begins at the beginning, and if
    the contents were taken. -/
lemma right_setStop (h0 : 0 < stop) (hlen : stop ≤ len + 1) :
    Right (.setStop stop) w len refused ↔ w.ofs = 0 ∧ ¬ refused := by
  have hvis : (⟨w.ofs, stop⟩ : OffsetWindow).visible = some (0, stop) ↔ w.ofs = 0 := by
    rw [OffsetWindow.visible]
    dsimp only
    split
    · simp
    · simp only [reduceCtorEq, false_iff]
      omega
  have hclear : (⟨0, stop⟩ : OffsetWindow).visible = some (0, stop) := if_pos h0
  show (⟨w.ofs, stop⟩ : OffsetWindow).visible = (⟨0, stop⟩ : OffsetWindow).visible ∧
    stop ≤ len + 1 ∧ (refused → stop ≤ w.ofs) ↔ _
  rw [hclear, hvis]
  constructor
  · rintro ⟨hofs, -, hempty⟩
    refine ⟨hofs, fun hr => ?_⟩
    have hle := hempty hr
    omega
  · rintro ⟨hofs, hno⟩
    exact ⟨hofs, hlen, fun hr => absurd hr hno⟩

end WindowWrite

end PubNub
