import Mathlib.Data.List.Basic

/-!
# The lines of a stream

A **line** is a text with one separator, at its end.  `linesOf` are the complete lines with which a
stream begins; what is behind the last separator is no line yet.  A stream that begins with some
lines has these lines first, and then those of its rest, so a reader who takes one line after the
other off the front takes the lines of the stream, in their order and without leaving one out.
-/

namespace PubNub

universe u

variable {α : Type u} [DecidableEq α] {sep : α} {l line s : List α} {ls : List (List α)}

/-- A text with one separator, which is its end. -/
def IsLine (sep : α) (l : List α) : Prop := ∃ body, l = body ++ [sep] ∧ sep ∉ body

/-- The complete lines of a stream, when a part of the first one has already been seen. -/
def linesFrom (sep : α) (line : List α) : List α → List (List α)
  | [] => []
  | c :: s => if c = sep then (line ++ [c]) :: linesFrom sep [] s else linesFrom sep (line ++ [c]) s

/-- The complete lines of a stream. -/
def linesOf (sep : α) (s : List α) : List (List α) := linesFrom sep [] s

lemma linesFrom_append (h : sep ∉ l) :
    linesFrom sep line (l ++ s) = linesFrom sep (line ++ l) s := by
  induction l generalizing line with
  | nil => rw [List.nil_append, List.append_nil]
  | cons c l ih =>
      rw [List.mem_cons, not_or] at h
      rw [List.cons_append, linesFrom, if_neg (Ne.symm h.1), ih h.2, List.append_assoc]
      rfl

/-- A line at the front of a stream is its first line. -/
lemma linesOf_append (h : IsLine sep l) : linesOf sep (l ++ s) = l :: linesOf sep s := by
  obtain ⟨body, rfl, hbody⟩ := h
  rw [linesOf, List.append_assoc, linesFrom_append hbody, List.singleton_append, linesFrom,
    if_pos rfl]
  rfl

/-- **The lines at the front of a stream** are its first lines. -/
theorem linesOf_flatten (h : ∀ l ∈ ls, IsLine sep l) :
    linesOf sep (ls.flatten ++ s) = ls ++ linesOf sep s := by
  induction ls with
  | nil => rfl
  | cons l ls ih =>
      have hls : ∀ l ∈ ls, IsLine sep l := fun l hl => h l (List.mem_cons_of_mem _ hl)
      rw [List.flatten_cons, List.append_assoc, linesOf_append (h l List.mem_cons_self), ih hls,
        List.cons_append]

lemma isLine_of_mem_linesFrom (hline : sep ∉ line) (h : l ∈ linesFrom sep line s) :
    IsLine sep l := by
  induction s generalizing line with
  | nil => exact absurd h List.not_mem_nil
  | cons c s ih =>
      rw [linesFrom] at h
      split at h
      · rename_i hc
        rcases List.mem_cons.mp h with rfl | h
        · exact ⟨line, hc ▸ rfl, hline⟩
        · exact ih List.not_mem_nil h
      · rename_i hc
        refine ih ?_ h
        rw [List.mem_append, List.mem_singleton, not_or]
        exact ⟨hline, Ne.symm hc⟩

/-- Every line of a stream is a line. -/
lemma isLine_of_mem_linesOf (h : l ∈ linesOf sep s) : IsLine sep l :=
  isLine_of_mem_linesFrom List.not_mem_nil h

end PubNub
