import Mathlib.Algebra.Order.BigOperators.Group.List
import Mathlib.Algebra.Order.Ring.Int
import Mathlib.Data.List.Basic

/-!
# Lists with separators

The elements of a text between its separators, as `List.splitOn` gives them: what they are made of, how
many they are, and how long they are together.
-/

namespace PubNub

section SplitOn

variable {α : Type} [BEq α] {sep x : α} {text e : List α}

/-- There is an element more than separators. -/
lemma length_splitOn (sep : α) (text : List α) :
    (text.splitOn sep).length = text.count sep + 1 := by
  induction text with
  | nil => rfl
  | cons y text ih =>
      rw [List.splitOn_cons_eq_if_modifyHead, List.count_cons]
      split
      · rw [List.length_cons, ih]
      · rw [List.length_modifyHead, ih, Nat.add_zero]

/-- The elements and the separators make up the text. -/
lemma sum_length_splitOn (sep : α) (text : List α) :
    ((text.splitOn sep).map List.length).sum + text.count sep = text.length := by
  induction text with
  | nil => rfl
  | cons y text ih =>
      rw [List.splitOn_cons_eq_if_modifyHead, List.count_cons, List.length_cons]
      split
      · rw [List.map_cons, List.sum_cons, List.length_nil]
        omega
      · obtain ⟨first, rest, hsplit⟩ := List.exists_cons_of_ne_nil (List.splitOn_ne_nil sep text)
        rw [hsplit, List.map_cons, List.sum_cons] at ih
        rw [hsplit, List.modifyHead_cons, List.map_cons, List.sum_cons, List.length_cons]
        omega

variable [LawfulBEq α]

/-- The elements of a text have no separators, and only what is in the text. -/
lemma mem_splitOn (he : e ∈ text.splitOn sep) (hx : x ∈ e) : x ≠ sep ∧ x ∈ text := by
  induction text generalizing e with
  | nil =>
      rw [List.splitOn_nil, List.mem_singleton] at he
      subst he
      cases hx
  | cons y text ih =>
      rw [List.splitOn_cons_eq_if_modifyHead] at he
      split at he
      · rcases List.mem_cons.mp he with rfl | he
        · cases hx
        · obtain ⟨hne, hmem⟩ := ih he hx
          exact ⟨hne, List.mem_cons_of_mem y hmem⟩
      · rename_i hy
        obtain ⟨first, rest, hsplit⟩ := List.exists_cons_of_ne_nil (List.splitOn_ne_nil sep text)
        rw [hsplit] at he ih
        rcases List.mem_cons.mp he with rfl | he
        · rcases List.mem_cons.mp hx with rfl | hx
          · exact ⟨fun h => hy (beq_iff_eq.mpr h), List.mem_cons_self⟩
          · obtain ⟨hne, hmem⟩ := ih List.mem_cons_self hx
            exact ⟨hne, List.mem_cons_of_mem y hmem⟩
        · obtain ⟨hne, hmem⟩ := ih (List.mem_cons_of_mem first he) hx
          exact ⟨hne, List.mem_cons_of_mem y hmem⟩

end SplitOn

/-- What is empty adds nothing to a length. -/
lemma sum_length_filter_ne_nil {α : Type} [DecidableEq α] (l : List (List α)) :
    ((l.filter (· ≠ [])).map List.length).sum = (l.map List.length).sum := by
  induction l with
  | nil => rfl
  | cons e l ih =>
      by_cases he : e = []
      · subst he
        rw [List.filter_cons_of_neg (by simp), ih, List.map_cons, List.sum_cons, List.length_nil,
          Nat.zero_add]
      · rw [List.filter_cons_of_pos (by simpa using he), List.map_cons, List.sum_cons, ih,
          List.map_cons, List.sum_cons]

end PubNub
