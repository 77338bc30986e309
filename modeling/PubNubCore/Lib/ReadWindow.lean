import Mathlib.Algebra.Order.BigOperators.Group.List
import Mathlib.Algebra.Order.Ring.Int
import Mathlib.Data.List.TakeDrop
import Mathlib.Tactic.Ring

/-!
# Read windows

A **read window** is a fixed memory through which a stream is read.  The cells before `ptr`
have been taken; the next `unreadlen` cells hold input which nobody has taken yet; and `left`
more may be filled with new input.  What the other cells hold is stale, but it is there, and a
reader who looks past the end of what it was given sees it.

The window is **tiled** when the three parts make up the memory.  The operations are the ones of
a reader that never wraps around: `rewind` moves the unread input to the front, `fill` puts new
input behind `ptr`, `advance` takes some of the unread input.  The lemmas say what each does to
the taken and to the unread part, which is all a user of the window needs.
-/

namespace PubNub

universe u

variable {α : Type u} {n : Nat}

/-- Writes `xs` over a memory of `n` cells from cell `i` on; what does not fit is lost. -/
def overwrite (n : Nat) (mem : List α) (i : Nat) (xs : List α) : List α :=
  mem.take i ++ xs.take (n - i) ++ mem.drop (i + xs.length)

lemma length_overwrite {mem : List α} (hm : mem.length = n) (i : Nat) (xs : List α) :
    (overwrite n mem i xs).length = n := by
  simp only [overwrite, List.length_append, List.length_take, List.length_drop, hm]
  omega

lemma take_overwrite {mem : List α} (hm : mem.length = n) {i : Nat} (hi : i ≤ n) (xs : List α) :
    (overwrite n mem i xs).take i = mem.take i := by
  have hlen : (mem.take i).length = i := by
    rw [List.length_take, hm]
    omega
  rw [overwrite, List.append_assoc, List.take_append_of_le_length (by omega), List.take_take,
    Nat.min_self]

lemma drop_overwrite {mem : List α} (hm : mem.length = n) {i : Nat} {xs : List α}
    (hi : i + xs.length ≤ n) :
    (overwrite n mem i xs).drop i = xs ++ mem.drop (i + xs.length) := by
  have hlen : (mem.take i).length = i := by
    rw [List.length_take, hm]
    omega
  rw [overwrite, List.append_assoc, List.drop_append_of_le_length (by omega),
    List.drop_eq_nil_of_le (by omega), List.nil_append, List.take_of_length_le (by omega)]

/-- What lies behind the cells written over has not changed. -/
lemma drop_overwrite_of_le {mem : List α} (hm : mem.length = n) {i k : Nat} {xs : List α}
    (hk : i + xs.length ≤ k) (hn : k ≤ n) :
    (overwrite n mem i xs).drop k = mem.drop k := by
  have hsplit : k = i + (k - i) := by omega
  rw [hsplit, ← List.drop_drop, drop_overwrite hm (by omega), List.drop_append,
    List.drop_eq_nil_of_le (by omega), List.nil_append, List.drop_drop]
  congr 1
  omega

/-- A memory of `n` cells through which a stream is read. -/
structure ReadWindow (α : Type u) (n : Nat) where
  mem : List α
  ptr : Nat
  unreadlen : Nat
  left : Nat
  mem_length : mem.length = n

namespace ReadWindow

variable (w : ReadWindow α n)

/-- The cells that have been taken. -/
def taken : List α := w.mem.take w.ptr

/-- The input that nobody has taken yet. -/
def unread : List α := (w.mem.drop w.ptr).take w.unreadlen

/-- The three parts of the window make up the memory. -/
def Tiled : Prop := w.ptr + w.unreadlen + w.left = n

/-- Moves the unread input to the front. -/
def rewind : ReadWindow α n where
  mem := overwrite n w.mem 0 w.unread
  ptr := 0
  unreadlen := w.unreadlen
  left := w.left + w.ptr
  mem_length := length_overwrite w.mem_length 0 w.unread

/-- Puts new input behind `ptr`, where there must not be any unread input. -/
def fill (xs : List α) : ReadWindow α n where
  mem := overwrite n w.mem w.ptr xs
  ptr := w.ptr
  unreadlen := xs.length
  left := w.left - xs.length
  mem_length := length_overwrite w.mem_length w.ptr xs

/-- Takes the next `k` cells of the unread input. -/
def advance (k : Nat) : ReadWindow α n :=
  { w with ptr := w.ptr + k, unreadlen := w.unreadlen - k }

/-- A window with nothing taken and nothing unread. -/
def reset : ReadWindow α n := { w with ptr := 0, unreadlen := 0, left := n }

/-- Writes over the memory, whatever part of the window it is. -/
def write (i : Nat) (xs : List α) : ReadWindow α n where
  mem := overwrite n w.mem i xs
  ptr := w.ptr
  unreadlen := w.unreadlen
  left := w.left
  mem_length := length_overwrite w.mem_length i xs

/-- Forgets the unread input, without giving its cells back. -/
def forget : ReadWindow α n := { w with unreadlen := 0 }

variable {w}

lemma tiled_reset : w.reset.Tiled := by
  simp [Tiled, reset]

lemma length_unread (h : w.Tiled) : w.unread.length = w.unreadlen := by
  have hm := w.mem_length
  simp only [Tiled] at h
  simp only [unread, List.length_take, List.length_drop]
  omega

lemma length_taken (h : w.Tiled) : w.taken.length = w.ptr := by
  have hm := w.mem_length
  simp only [Tiled] at h
  simp only [taken, List.length_take]
  omega

@[simp] lemma ptr_rewind : w.rewind.ptr = 0 := rfl

@[simp] lemma taken_rewind : w.rewind.taken = [] := rfl

lemma unread_rewind (h : w.Tiled) : w.rewind.unread = w.unread := by
  have hlen := length_unread h
  simp only [Tiled] at h
  have hdrop : w.rewind.mem.drop 0 = w.unread ++ w.mem.drop (0 + w.unread.length) :=
    drop_overwrite w.mem_length (by omega)
  rw [unread, show w.rewind.ptr = 0 from rfl, hdrop,
    show w.rewind.unreadlen = w.unread.length from hlen.symm, List.take_left]

lemma tiled_rewind (h : w.Tiled) : w.rewind.Tiled := by
  simp only [Tiled, rewind] at h ⊢
  omega

section Fill

variable {xs : List α}

lemma taken_fill (h : w.Tiled) : (w.fill xs).taken = w.taken := by
  simp only [Tiled] at h
  have hptr : w.ptr ≤ n := by omega
  exact take_overwrite w.mem_length hptr xs

lemma unread_fill (h : w.Tiled) (hx : xs.length ≤ w.left) : (w.fill xs).unread = xs := by
  simp only [Tiled] at h
  have hdrop : (w.fill xs).mem.drop w.ptr = xs ++ w.mem.drop (w.ptr + xs.length) :=
    drop_overwrite w.mem_length (by omega)
  rw [unread, show (w.fill xs).ptr = w.ptr from rfl, hdrop,
    show (w.fill xs).unreadlen = xs.length from rfl, List.take_left]

lemma tiled_fill (h : w.Tiled) (hu : w.unreadlen = 0) (hx : xs.length ≤ w.left) :
    (w.fill xs).Tiled := by
  simp only [Tiled, fill] at h ⊢
  omega

end Fill

section Advance

variable {k : Nat}

lemma taken_advance (hk : k ≤ w.unreadlen) :
    (w.advance k).taken = w.taken ++ w.unread.take k := by
  rw [taken, taken, unread, List.take_take, Nat.min_eq_left hk]
  exact List.take_add

lemma unread_advance : (w.advance k).unread = w.unread.drop k := by
  rw [unread, unread, List.drop_take, List.drop_drop]
  rfl

lemma tiled_advance (h : w.Tiled) (hk : k ≤ w.unreadlen) : (w.advance k).Tiled := by
  simp only [Tiled, advance] at h ⊢
  omega

/-- Taking input loses none of it. -/
lemma taken_append_unread_advance (hk : k ≤ w.unreadlen) :
    (w.advance k).taken ++ (w.advance k).unread = w.taken ++ w.unread := by
  rw [taken_advance hk, unread_advance, List.append_assoc, List.take_append_drop]

end Advance

end ReadWindow

end PubNub
