import Mathlib.Algebra.Ring.Int.Defs
import Mathlib.Algebra.Ring.Nat

/-!
# Texts in a memory

A memory is a function from places to cells.  `LiesAt read p t` says that the cells from the place
`p` on are those of the list `t`.  What a memory holds at a place is thus taken apart as its list
is, whatever the places are counted with; for a memory that is itself a list with something around
it, `liesAt_getD` says where its parts lie.
-/

namespace PubNub

universe u v

section LiesAt

variable {ι : Type u} {α : Type v} [AddCommMonoidWithOne ι]

/-- The cells from `p` on are those of a list. -/
def LiesAt (read : ι → α) : ι → List α → Prop
  | _, [] => True
  | p, c :: t => read p = c ∧ LiesAt read (p + 1) t

variable {read : ι → α} {p : ι} {c : α} {t u : List α}

@[simp] lemma liesAt_nil : LiesAt read p [] := trivial

@[simp] lemma liesAt_cons : LiesAt read p (c :: t) ↔ read p = c ∧ LiesAt read (p + 1) t := Iff.rfl

/-- The second of two lists lies behind the first. -/
lemma liesAt_append : LiesAt read p (t ++ u) ↔ LiesAt read p t ∧ LiesAt read (p + t.length) u := by
  induction t generalizing p with
  | nil => simp
  | cons c t ih =>
      have hplace : p + 1 + (t.length : ι) = p + ((c :: t).length : ι) := by
        rw [List.length_cons, Nat.cast_succ, add_assoc, add_comm (1 : ι)]
      rw [List.cons_append, liesAt_cons, liesAt_cons, ih, and_assoc, hplace]

end LiesAt

/-- The parts of a list lie where they lie in it. -/
lemma liesAt_getD {α : Type v} {x : α} (pre t post : List α) :
    LiesAt (fun i => (pre ++ (t ++ post)).getD i x) pre.length t := by
  induction t generalizing pre with
  | nil => trivial
  | cons c t ih =>
      refine ⟨?_, ?_⟩
      · simp [List.getD_eq_getElem?_getD]
      · have hrest := ih (pre ++ [c])
        rw [List.append_assoc, List.length_append, List.length_singleton] at hrest
        exact hrest

end PubNub
