import Mathlib.Logic.Function.Basic

/-!
# Ring buffers

A ring buffer of some size is an array with two indices: what it holds is written at `head` and read
at `tail`, and both go on with the first cell behind the last one.  One cell stays free, so that a
full ring is not taken for an empty one.  `Holds size r l` says that the ring holds the list `l`; the
cells outside of it may have anything.
-/

namespace PubNub

universe u

variable {α : Type u}

/-- The cells and the indices. -/
structure Ring (α : Type u) where
  cells : Nat → α
  head : Nat
  tail : Nat

namespace Ring

/-- The next index. -/
def next (size i : Nat) : Nat := if i + 1 = size then 0 else i + 1

/-- The index so many cells further. -/
def place (size i n : Nat) : Nat := if i + n < size then i + n else i + n - size

/-- Writes a cell. -/
def set (r : Ring α) (i : Nat) (a : α) : Ring α := { r with cells := Function.update r.cells i a }

/-- Writes the cell at `head`, and goes on. -/
def push (size : Nat) (r : Ring α) (a : α) : Ring α :=
  { r.set r.head a with head := next size r.head }

/-- Goes on at `tail`. -/
def pop (size : Nat) (r : Ring α) : Ring α := { r with tail := next size r.tail }

/-- How many cells there are from `tail` up to `head`, and what is in them. -/
def count (size : Nat) (r : Ring α) : Nat :=
  if r.tail ≤ r.head then r.head - r.tail else r.head + size - r.tail

def toList (size : Nat) (r : Ring α) : List α :=
  (List.range (r.count size)).map fun i => r.cells (place size r.tail i)

/-- The ring holds a list. -/
structure Holds (size : Nat) (r : Ring α) (l : List α) : Prop where
  short : l.length < size
  tail_lt : r.tail < size
  head_eq : r.head = place size r.tail l.length
  cell_eq : ∀ i (h : i < l.length), r.cells (place size r.tail i) = l[i]

variable {size i j n : Nat} {r : Ring α} {l u v : List α} {a b : α}

lemma place_zero (h : i < size) : place size i 0 = i := if_pos h

lemma next_place (hi : i < size) (hn : n < size) :
    next size (place size i n) = place size i (n + 1) := by
  rw [next, place, place]
  split
  · split
    · split <;> omega
    · split <;> omega
  · split
    · split <;> omega
    · split <;> omega

lemma place_next (hn : n + 1 < size) :
    place size (next size i) n = place size i (n + 1) := by
  rw [next, place, place]
  split
  · split
    · split <;> omega
    · split <;> omega
  · split
    · split <;> omega
    · split <;> omega

lemma place_injective (hn : n < size) (hj : j < size) :
    place size i n = place size i j ↔ n = j := by
  rw [place, place]
  split
  · split <;> omega
  · split <;> omega

lemma next_lt (h : i < size) : next size i < size := by
  rw [next]
  split <;> omega

namespace Holds

/-- An empty ring. -/
lemma empty (h : i < size) {cells : Nat → α} : Holds size ⟨cells, i, i⟩ [] :=
  ⟨Nat.zero_lt_of_lt h, h, (place_zero h).symm, fun j hj => absurd hj (Nat.not_lt_zero j)⟩

/-- The list is what is in the cells. -/
lemma toList_eq (h : Holds size r l) : r.toList size = l := by
  have hshort := h.short
  have htail := h.tail_lt
  have hcount : r.count size = l.length := by
    rw [count, h.head_eq, place]
    split
    · split <;> omega
    · split <;> omega
  rw [toList, hcount]
  refine List.ext_getElem (by simp) fun i hi hl => ?_
  rw [List.getElem_map, List.getElem_range, h.cell_eq i hl]

lemma head_eq_tail_iff (h : Holds size r l) : r.head = r.tail ↔ l = [] := by
  have hzero : r.tail = place size r.tail 0 := (place_zero h.tail_lt).symm
  have hplace := place_injective (i := r.tail) h.short (Nat.zero_lt_of_lt h.short)
  rw [h.head_eq]
  constructor
  · intro heq
    exact List.length_eq_zero_iff.mp (hplace.mp (heq.trans hzero))
  · rintro rfl
    exact hzero.symm

/-- The ring is full when one cell is left. -/
lemma full_iff (h : Holds size r l) : next size r.head = r.tail ↔ l.length + 1 = size := by
  have hshort := h.short
  have htail := h.tail_lt
  rw [h.head_eq, next_place htail hshort, place]
  split <;> omega

/-- Writing behind what there is. -/
lemma push (h : Holds size r l) (hroom : l.length + 1 < size) :
    Holds size (r.push size a) (l ++ [a]) := by
  refine ⟨?_, h.tail_lt, ?_, ?_⟩
  · rw [List.length_append]
    exact hroom
  · change next size r.head = place size r.tail (l ++ [a]).length
    rw [h.head_eq, next_place h.tail_lt h.short, List.length_append]
    rfl
  · intro i hi
    change Function.update r.cells r.head a (place size r.tail i) = _
    rw [List.length_append, List.length_singleton] at hi
    by_cases hlast : i = l.length
    · subst hlast
      rw [← h.head_eq, Function.update_self, List.getElem_append_right (Nat.le_refl _)]
      simp
    · have hlt : i < l.length := by omega
      have hne : place size r.tail i ≠ r.head := by
        rw [h.head_eq]
        intro heq
        exact hlast ((place_injective (by omega) h.short).mp heq)
      rw [Function.update_of_ne hne, h.cell_eq i hlt, List.getElem_append_left hlt]

/-- Reading the first one. -/
lemma pop (h : Holds size r (a :: l)) : r.cells r.tail = a ∧ Holds size (r.pop size) l := by
  have hshort := h.short
  rw [List.length_cons] at hshort
  refine ⟨?_, by omega, next_lt h.tail_lt, ?_, ?_⟩
  · have hcell := h.cell_eq 0 (Nat.zero_lt_succ _)
    rw [place_zero h.tail_lt] at hcell
    exact hcell
  · change r.head = place size (next size r.tail) l.length
    rw [place_next hshort, h.head_eq]
    rfl
  · intro i hi
    change r.cells (place size (next size r.tail) i) = _
    rw [place_next (by omega), h.cell_eq (i + 1) (Nat.succ_lt_succ hi)]
    rfl

/-- Writing what there is. -/
lemma set (h : Holds size r (u ++ b :: v)) :
    Holds size (r.set (place size r.tail u.length) a) (u ++ a :: v) := by
  have hshort := h.short
  have hlength : (u ++ a :: v).length = (u ++ b :: v).length := by simp
  refine ⟨by rwa [hlength], h.tail_lt, ?_, ?_⟩
  · rw [hlength]
    exact h.head_eq
  · intro i hi
    rw [hlength] at hi
    change Function.update r.cells (place size r.tail u.length) a (place size r.tail i) = _
    by_cases hplace : i = u.length
    · subst hplace
      rw [Function.update_self, List.getElem_append_right (Nat.le_refl _)]
      simp
    · have hu : u.length < size := by
        rw [List.length_append] at hshort
        omega
      have hne : place size r.tail i ≠ place size r.tail u.length := fun heq =>
        hplace ((place_injective (Nat.lt_trans hi hshort) hu).mp heq)
      rw [Function.update_of_ne hne, h.cell_eq i hi]
      rcases Nat.lt_or_gt_of_ne hplace with hlt | hgt
      · rw [List.getElem_append_left hlt, List.getElem_append_left hlt]
      · obtain ⟨k, rfl⟩ : ∃ k, i = u.length + (k + 1) := ⟨i - u.length - 1, by omega⟩
        simp

/-- Where the cells of a list are. -/
lemma cell_append (h : Holds size r (u ++ a :: v)) :
    r.cells (place size r.tail u.length) = a := by
  have hlt : u.length < (u ++ a :: v).length := by simp
  rw [h.cell_eq u.length hlt, List.getElem_append_right (Nat.le_refl _)]
  simp

/-- They are not at the end. -/
lemma place_ne_head (h : Holds size r (u ++ a :: v)) :
    place size r.tail u.length ≠ r.head := by
  have hshort := h.short
  have hlt : u.length < (u ++ a :: v).length := by simp
  rw [h.head_eq]
  intro heq
  have hsame := (place_injective (Nat.lt_trans hlt hshort) hshort).mp heq
  omega

end Holds

end Ring

end PubNub
