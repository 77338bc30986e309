import Mathlib.Data.List.Basic

/-!
# Objects that are freed

The objects which a program has allocated, one after the other.  An object that has been freed is
no longer there, and its place is never given to another one, so that a use after the end of its
life is a failed `read`.
-/

namespace PubNub

universe u

variable {α : Type u}

/-- The objects in the order of their allocation, `none` once they are freed. -/
abbrev Heap (α : Type u) := List (Option α)

namespace Heap

variable (h : Heap α) (i j : Nat)

/-- The object with a number, as long as it lives. -/
def read : Option α := h[i]?.join

/-- A new object; its number is the length of the heap. -/
def alloc (a : α) : Heap α := h ++ [some a]

/-- Gives an object a new value, or frees it. -/
def write (a : Option α) : Heap α := h.set i a

variable {h i j} {a : α} {x y : Option α}

lemma lt_of_read (ha : h.read i = some a) : i < h.length := by
  by_contra hi
  rw [read, List.getElem?_eq_none (Nat.le_of_not_lt hi)] at ha
  cases ha

@[simp] lemma length_alloc : (h.alloc a).length = h.length + 1 := by
  rw [alloc, List.length_append, List.length_singleton]

@[simp] lemma length_write : (h.write i x).length = h.length := List.length_set

lemma read_alloc : (h.alloc a).read j = if j = h.length then some a else h.read j := by
  rw [read, alloc, read]
  rcases Nat.lt_trichotomy j h.length with hlt | rfl | hgt
  · rw [List.getElem?_append_left hlt, if_neg (by omega)]
  · rw [List.getElem?_concat_length, if_pos rfl]
    rfl
  · rw [List.getElem?_eq_none (by simp; omega), List.getElem?_eq_none (by omega),
      if_neg (by omega)]

lemma read_write (ha : h.read i = some a) :
    (h.write i x).read j = if j = i then x else h.read j := by
  rw [read, write, List.getElem?_set, read]
  by_cases hij : i = j
  · subst hij
    simp [lt_of_read ha]
  · simp [hij, Ne.symm hij]

@[simp] lemma write_write : (h.write i x).write i y = h.write i y := List.set_set ..

end Heap

end PubNub
