import Mathlib.Data.List.Nodup
import PubNubCore.Arrays.Runs
import PubNubCore.Core.Types
import PubNubCore.Lib.RefCount

/-!
# Arrays that share elements

All arrays of `lib/pbarray.c` together.  An array holds entries, which are numbered; an entry has the
element and a counter, and `pbarray_copy` and `pbarray_merge` put the entries of one array into another.
Elements are pointers, with `NULL` for 0, and `text` gives the texts they point to.

The destructor is called when the counter of an entry falls to zero in an array which has a destructor.
`SharesFits` is what the functions take for granted:

* `pbarray_add` makes a new entry, with a counter of its own, also for an element that an array holds;
* the text that is looked for must not be that of an element which is destroyed meanwhile;
* an array is not merged into itself or subtracted from itself: `pbarray_merge` would follow the entries
  it adds, and `pbarray_subtract` those it frees;
* there is room, and slots are not taken away from the entries (see `StepFits`).
-/

namespace PubNub

open PbArray

/-! ## The data -/

/-- `pbarray_content_type`. -/
inductive PbarrayContentType
  | generic | char
  deriving DecidableEq

/-- `struct pbarray`; `free` tells whether there is a destructor. -/
structure SharedArray where
  array : PbArray Nat
  contentType : PbarrayContentType
  free : Bool

/-- The entries that have been allocated, and those of them whose element has been destroyed by an
    operation. -/
structure EntryStore where
  values : List Nat
  counters : List Nat
  freed : List Nat

namespace EntryStore

def value (s : EntryStore) (e : Nat) : Nat := s.values.getD e 0

/-- `pbarray_entry_free_`. -/
def release (free : Bool) (e : Nat) (s : EntryStore) : EntryStore :=
  { s with
    counters := s.counters.modify e (· - 1)
    freed := if s.counters.getD e 0 - 1 = 0 ∧ free = true then s.freed ++ [e] else s.freed }

/-- `pbref_counter_increment`. -/
def retain (e : Nat) (s : EntryStore) : EntryStore :=
  { s with counters := s.counters.modify e (· + 1) }

/-- `pbarray_element_is_equal_`; there is no text at `NULL` or in an element that has been destroyed. -/
def isEqual (text : Nat → Bytes) (contentType : PbarrayContentType) (element : Nat) (s : EntryStore)
    (e : Nat) : Option Bool :=
  match contentType with
  | .generic => some (s.value e == element)
  | .char =>
      if s.value e = 0 ∨ element = 0 ∨ ∃ d ∈ s.freed, s.value d = s.value e ∨ s.value d = element then
        none
      else some (text (s.value e) == text element)

end EntryStore

/-- All arrays, `none` for one that has been freed, and the entries. -/
structure ArraysWorld where
  arrays : List (Option SharedArray)
  values : List Nat
  counters : List Nat

inductive SharedOp
  | alloc (length : Nat) (strategy : ResizeStrategy) (contentType : PbarrayContentType) (free : Bool)
  | copy (i : Nat)
  | add (i element : Nat)
  | merge (i j : Nat)
  | remove (i element : Nat) (all : Bool)
  | removeElementAt (i idx : Nat)
  | removeAll (i : Nat)
  | subtract (i j : Nat) (all : Bool)
  | free (i : Nat) (destructor : Bool)

namespace ArraysWorld

variable (w : ArraysWorld)

def array (i : Nat) : Option SharedArray := w.arrays[i]?.join

def store : EntryStore := ⟨w.values, w.counters, []⟩

/-- What an operation has left of an array, and the elements it has destroyed. -/
def put (i : Nat) (array : Option SharedArray) (s : EntryStore) : List Nat × ArraysWorld :=
  (s.freed.map s.value, ⟨w.arrays.set i array, s.values, s.counters⟩)

end ArraysWorld

open ArraysWorld EntryStore

/-- An operation, and the calls of destructors. -/
def sharedStep (text : Nat → Bytes) (m : Allocator) (w : ArraysWorld) :
    SharedOp → Option (List Nat × ArraysWorld)
  | .alloc length strategy contentType free =>
      some ([], { w with arrays := w.arrays ++ [some ⟨alloc Nat length strategy, contentType, free⟩] })
  | .copy i => do
      let a ← w.array i
      if a.free then do
        let entries ← a.array.readEntries
        let (result, array, s) ← mergeLoop m.slots retain entries
          (alloc Nat a.array.length a.array.resizeStrategy) w.store
        if result = .ok then
          some ([], ⟨w.arrays ++ [some { a with array := array }], s.values, s.counters⟩)
        else do
          let copied ← array.readEntries
          let s := copied.foldl (fun s e => release a.free e s) s
          some (s.freed.map s.value, ⟨w.arrays, s.values, s.counters⟩)
      else some ([], w)
  | .add i element => do
      let a ← w.array i
      let (result, array) ← a.array.insertAt m.slots (if m.entry then some w.values.length else none)
        a.array.count
      if result = .ok then
        some ([], { arrays := w.arrays.set i (some { a with array := array })
                    values := w.values ++ [element], counters := w.counters ++ [1] })
      else some ([], { w with arrays := w.arrays.set i (some { a with array := array }) })
  | .merge i j => do
      let a ← w.array i
      let other ← w.array j
      if i = j then none
      else do
        let entries ← other.array.readEntries
        let (_, array, s) ← mergeLoop m.slots retain entries a.array w.store
        some (w.put i (some { a with array := array }) s)
  | .remove i element all => do
      let a ← w.array i
      if element = 0 then some ([], w)
      else do
        let (_, array, s) ← a.array.remove (isEqual text a.contentType element) (release a.free)
          m.slots all w.store
        some (w.put i (some { a with array := array }) s)
  | .removeElementAt i idx => do
      let a ← w.array i
      let (_, array, s) ← a.array.removeElementAt (release a.free) idx w.store
      some (w.put i (some { a with array := array }) s)
  | .removeAll i => do
      let a ← w.array i
      let (array, s) ← a.array.removeAll (release a.free) m.slots w.store
      some (w.put i (some { a with array := array }) s)
  | .subtract i j all => do
      let a ← w.array i
      let other ← w.array j
      if i = j then none
      else do
        let entries ← other.array.readEntries
        let (array, s) ← a.array.subtract
          (fun key s e => isEqual text a.contentType (s.value key) s e) (release a.free) m.slots all
          entries w.store
        some (w.put i (some { a with array := array }) s)
  | .free i destructor => do
      let a ← w.array i
      let entries ← a.array.readEntries
      some (w.put i none (entries.foldl (fun s e => release (a.free || destructor) e s) w.store))

/-- All arrays of a program. -/
def sharedMachine (text : Nat → Bytes) : Machine ArraysWorld (Allocator × SharedOp) where
  init := ⟨[], [], []⟩
  step w op := (sharedStep text op.1 w op.2).map Prod.snd

/-! ## Who holds what -/

/-- The entries of an array. -/
def entriesOf : Option SharedArray → List Nat
  | some a => a.array.contents
  | none => []

namespace ArraysWorld

/-- The entries of all arrays. -/
def held (w : ArraysWorld) : List Nat := w.arrays.flatMap entriesOf

/-- The entries of all arrays but one. -/
def heldBut (w : ArraysWorld) (i : Nat) : List Nat := (w.arrays.set i none).flatMap entriesOf

/-- The elements that are held by an array. -/
def elements (w : ArraysWorld) : List Nat := w.held.map w.store.value

/-- Whether the array that loses elements has a destructor for them. -/
def destructs (w : ArraysWorld) : SharedOp → Bool
  | .remove i _ _ | .removeElementAt i _ | .removeAll i | .subtract i _ _ =>
      (w.array i).any SharedArray.free
  | .free i destructor => (w.array i).any fun a => a.free || destructor
  | _ => false

end ArraysWorld

/-- What an operation takes for granted. -/
def SharesFits (text : Nat → Bytes) (w : ArraysWorld) : Allocator × SharedOp → Prop
  | (_, .alloc _ _ _ _) => True
  | (_, .copy i) => (w.array i).isSome
  | (_, .add i element) =>
      ∃ a, w.array i = some a ∧ HasRoom a.array ∧ element ≠ 0 ∧ element ∉ w.elements
  | (_, .merge i j) => i ≠ j ∧ ∃ a other, w.array i = some a ∧ w.array j = some other ∧
      HasRoomFor a.array other.array.contents.length
  | (m, .remove i element all) => ∃ a, w.array i = some a ∧ (element ≠ 0 →
      (a.array.contents = [] ∨ (∃ e ∈ a.array.contents,
          isEqual text a.contentType element w.store e = some true) ∨ ShrinkFits m.slots a.array) ∧
        (all = false ∨ a.contentType = .generic ∨ a.free = false ∨
          ∀ e ∈ a.array.contents, w.store.value e = element → e ∈ w.heldBut i))
  | (_, .removeElementAt i _) => (w.array i).isSome
  | (_, .removeAll i) => (w.array i).isSome
  | (m, .subtract i j _) => i ≠ j ∧ ∃ a other, w.array i = some a ∧ w.array j = some other ∧
      ((∃ key ∈ other.array.contents, ∃ e ∈ a.array.contents,
        isEqual text a.contentType (w.store.value key) w.store e = some true) ∨
          ShrinkFits m.slots a.array)
  | (_, .free i _) => (w.array i).isSome

/-! ## Releasing entries -/

/-- How far an operation has come that takes entries out of an array, which holds `l` now: `held` are
    the entries of all arrays before, and `rest` those of the other arrays. -/
structure Releasing (values held rest : List Nat) (free : Bool) (l : List Nat) (s : EntryStore) :
    Prop where
  values_eq : s.values = values
  length_eq : s.counters.length = values.length
  exact : ExactCounts s.counters (l ++ rest)
  subset : ∀ e ∈ l ++ rest, e ∈ held
  nodup : s.freed.Nodup
  freed : ∀ e, e ∈ s.freed ↔ free = true ∧ e ∈ held ∧ e ∉ l ++ rest

namespace Releasing

variable {values held rest l pre post : List Nat} {free : Bool} {s : EntryStore} {e : Nat}

/-- One entry is taken out. -/
lemma release (h : Releasing values held rest free (pre ++ e :: post) s) :
    Releasing values held rest free (pre ++ post) (EntryStore.release free e s) := by
  have hperm : ((pre ++ e :: post) ++ rest).Perm (e :: (pre ++ post ++ rest)) := by
    rw [List.append_assoc, List.cons_append, List.append_assoc]
    exact List.perm_middle
  have hexact := h.exact.perm hperm
  have hin : e ∈ (pre ++ e :: post) ++ rest := hperm.mem_iff.mpr List.mem_cons_self
  have hlt := hexact.bound e List.mem_cons_self
  have hcount := hexact.count e _ (List.getElem?_eq_getElem hlt)
  rw [List.count_cons_self] at hcount
  have hzero : s.counters.getD e 0 - 1 = 0 ↔ e ∉ pre ++ post ++ rest := by
    rw [List.getD_eq_getElem?_getD, List.getElem?_eq_getElem hlt, Option.getD_some, hcount,
      Nat.add_sub_cancel]
    exact List.count_eq_zero
  have hold : ∀ d, d ∉ (pre ++ e :: post) ++ rest ↔ d ≠ e ∧ d ∉ pre ++ post ++ rest := by
    intro d
    rw [hperm.mem_iff, List.mem_cons, not_or]
  have hnew : e ∉ s.freed := fun hfreed => ((h.freed e).mp hfreed).2.2 hin
  refine ⟨h.values_eq, ?_, hexact.release, fun d hd => h.subset d ?_, ?_, fun d => ?_⟩
  · rw [EntryStore.release, List.length_modify]
    exact h.length_eq
  · exact hperm.mem_iff.mpr (List.mem_cons_of_mem e hd)
  · rw [EntryStore.release]
    dsimp only
    split
    · exact List.nodup_append.mpr ⟨h.nodup, List.nodup_singleton e, fun d hd d' hd' heq =>
        hnew (List.mem_singleton.mp hd' ▸ heq ▸ hd)⟩
    · exact h.nodup
  · have hfreed := h.freed d
    rw [hold] at hfreed
    rw [EntryStore.release]
    dsimp only
    by_cases hde : d = e
    · subst hde
      have hheld := h.subset d hin
      split
      · rename_i hlast
        rw [hzero] at hlast
        exact ⟨fun _ => ⟨hlast.2, hheld, hlast.1⟩,
          fun _ => List.mem_append_right _ (List.mem_singleton.mpr rfl)⟩
      · rename_i hlast
        rw [hzero] at hlast
        exact ⟨fun hin => absurd hin hnew, fun hall => absurd ⟨hall.2.2, hall.1⟩ hlast⟩
    · have hboth : d ∈ s.freed ↔ free = true ∧ d ∈ held ∧ d ∉ pre ++ post ++ rest := by
        rw [hfreed]
        simp only [ne_eq, hde, not_false_eq_true, true_and]
      split
      · rw [List.mem_append, List.mem_singleton, or_iff_left hde]
        exact hboth
      · exact hboth

/-- All entries are taken out. -/
lemma foldl (h : Releasing values held rest free l s) :
    Releasing values held rest free [] (l.foldl (fun s e => EntryStore.release free e s) s) := by
  induction l generalizing s with
  | nil => exact h
  | cons e l ih =>
      have hfirst : Releasing values held rest free ([] ++ e :: l) s := h
      exact ih hfirst.release

end Releasing

end PubNub
