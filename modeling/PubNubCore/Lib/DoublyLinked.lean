import Mathlib.Data.List.Nodup

/-!
# Doubly linked lists

The pointers to the previous and to the next element lie in the elements, and are two functions for
all the lists there are.  `DoublyLinked previous next p l q` says that the elements of `l` are linked
with one another, the first of them with `p` and the last with `q`.  With `p` and `q` at `none` it is
a whole list, else a piece of one; pieces are put together with `append_iff`, and a piece is linked
with something else by one write at its end (`relink_last`, `relink_head`).
-/

namespace PubNub

universe u

variable {α : Type u} {previous next previous' next' : α → Option α} {p p' q q' : Option α}
  {l u v : List α} {a b : α}

/-- The elements are linked with one another, and with `p` and `q` at their ends. -/
def DoublyLinked (previous next : α → Option α) : Option α → List α → Option α → Prop
  | _, [], _ => True
  | p, a :: l, q =>
      previous a = p ∧ next a = l.head?.or q ∧ DoublyLinked previous next (some a) l q

namespace DoublyLinked

lemma nil : DoublyLinked previous next p [] q := trivial

/-- Two pieces one behind the other. -/
lemma append_iff : DoublyLinked previous next p (u ++ v) q ↔
    DoublyLinked previous next p u (v.head?.or q) ∧
      DoublyLinked previous next (u.getLast?.or p) v q := by
  induction u generalizing p with
  | nil => exact (and_iff_right nil).symm
  | cons a u ih =>
      have hlast : (u.getLast?.or (some a)) = ((a :: u).getLast?.or p) := by
        cases u with
        | nil => rfl
        | cons b u =>
            rw [List.getLast?_cons_cons]
            cases h : (b :: u).getLast? with
            | none => simp at h
            | some c => rfl
      have hhead : (u ++ v).head?.or q = u.head?.or (v.head?.or q) := by
        cases u <;> rfl
      rw [List.cons_append, DoublyLinked, DoublyLinked, ih, hlast, hhead, and_assoc, and_assoc]

/-- The pointers of the elements are all that matters. -/
lemma congr (h : DoublyLinked previous next p l q) (hp : ∀ a ∈ l, previous' a = previous a)
    (hn : ∀ a ∈ l, next' a = next a) : DoublyLinked previous' next' p l q := by
  induction l generalizing p with
  | nil => exact nil
  | cons a l ih =>
      refine ⟨?_, ?_, ih h.2.2 (fun b hb => hp b (List.mem_cons_of_mem a hb)) fun b hb =>
        hn b (List.mem_cons_of_mem a hb)⟩
      · rw [hp a List.mem_cons_self]
        exact h.1
      · rw [hn a List.mem_cons_self]
        exact h.2.1

/-- The last element gets another one behind it. -/
lemma relink_last (h : DoublyLinked previous next p (u ++ [b]) q)
    (hp : ∀ a ∈ u ++ [b], previous' a = previous a) (hn : ∀ a ∈ u, next' a = next a)
    (hb : next' b = q') : DoublyLinked previous' next' p (u ++ [b]) q' := by
  obtain ⟨hu, hlast, -, -⟩ := append_iff.mp h
  refine append_iff.mpr ⟨hu.congr (fun a ha => hp a (List.mem_append_left _ ha)) hn, ?_, hb, nil⟩
  rw [hp b (List.mem_append_right u List.mem_cons_self)]
  exact hlast

/-- The first element gets another one before it. -/
lemma relink_head (h : DoublyLinked previous next p (a :: v) q)
    (hp : ∀ b ∈ v, previous' b = previous b) (ha : previous' a = p')
    (hn : ∀ b ∈ a :: v, next' b = next b) : DoublyLinked previous' next' p' (a :: v) q := by
  refine ⟨ha, ?_, h.2.2.congr hp fun b hb => hn b (List.mem_cons_of_mem a hb)⟩
  rw [hn a List.mem_cons_self]
  exact h.2.1

/-- What stands before and behind an element. -/
lemma previous_eq (h : DoublyLinked previous next p (u ++ a :: v) q) :
    previous a = u.getLast?.or p := (append_iff.mp h).2.1

lemma next_eq (h : DoublyLinked previous next p (u ++ a :: v) q) : next a = v.head?.or q :=
  (append_iff.mp h).2.2.1

end DoublyLinked

end PubNub
