import PubNubCore.Arrays.Operations
import PubNubCore.Lib.Machine

/-!
# Arrays as lists

Every run of the operations of `lib/pbarray.h` on one array, over elements that are compared by a
relation `eq`.  `ListStep` says what an operation does to a list; `StepFits` is what an array takes for
granted, which the functions do not look at:

* a balanced array that was allocated for one element never grows, and an entry that is added to it
  when it is full is written behind its slots;
* `pbarray_insert_at` refuses an index behind the slots only, and leaves a hole in front of an index
  that is behind the entries;
* a conservative array loses a slot although nothing has been removed from it, also when it is full;
* `pbarray_merge` stops in the middle where there is no room for an entry.
-/

namespace PubNub

open PbArray

/-! ## Steps -/

/-- The operations; `merge` and `subtract` get what the other array holds. -/
inductive ArrayOp (α : Type)
  | add (element : α)
  | insertAt (element : α) (idx : Nat)
  | merge (others : List α)
  | remove (element : Option α) (all : Bool)
  | removeElementAt (idx : Nat)
  | removeAll
  | subtract (others : List α) (all : Bool)
  | popFirst
  | popLast

/-- What `malloc` has for an entry, and `realloc` for so many slots. -/
structure Allocator where
  entry : Bool
  slots : Nat → Bool

/-- A result code, or the element that has been taken out. -/
abbrev ArrayAnswer (α : Type) := PbarrayRes ⊕ Option α

variable {α : Type}

def arrayStep (eq : α → α → Bool) (m : Allocator) (a : PbArray α) :
    ArrayOp α → Option (ArrayAnswer α × PbArray α)
  | .add element =>
      (a.insertAt m.slots (if m.entry then some element else none) a.count).map
        fun r => (.inl r.1, r.2)
  | .insertAt element idx =>
      (a.insertAt m.slots (if m.entry then some element else none) idx).map fun r => (.inl r.1, r.2)
  | .merge others =>
      (mergeLoop m.slots (fun _ s => s) others a ()).map fun r => (.inl r.1, r.2.1)
  | .remove none _ => some (.inl .notFound, a)
  | .remove (some element) all =>
      (a.remove (fun _ e => some (eq e element)) (fun _ s => s) m.slots all ()).map
        fun r => (.inl r.1, r.2.1)
  | .removeElementAt idx =>
      (a.removeElementAt (fun _ s => s) idx ()).map fun r => (.inl r.1, r.2.1)
  | .removeAll => (a.removeAll (fun _ s => s) m.slots ()).map fun r => (.inl .ok, r.1)
  | .subtract others all =>
      (a.subtract (fun key _ e => some (eq e key)) (fun _ s => s) m.slots all others ()).map
        fun r => (.inl .ok, r.1)
  | .popFirst => (a.pop (fun _ s => s) 0 ()).map fun r => (.inr r.1, r.2.1)
  | .popLast => (a.pop (fun _ s => s) (a.count - 1) ()).map fun r => (.inr r.1, r.2.1)

/-- An array, and the operations on it. -/
def arrayMachine (eq : α → α → Bool) (length : Nat) (strategy : ResizeStrategy) :
    Machine (PbArray α) (Allocator × ArrayOp α) where
  init := alloc α length strategy
  step a op := (arrayStep eq op.1 a op.2).map Prod.snd

/-! ## Lists -/

/-- An operation is refused, and the list is what it was. -/
def Refused (l : List α) (answer : ArrayAnswer α) (l' : List α) : Prop :=
  (∃ result, result ≠ .ok ∧ answer = .inl result) ∧ l' = l

/-- What an operation does to a list. -/
def ListStep (eq : α → α → Bool) (l : List α) (answer : ArrayAnswer α) (l' : List α) :
    ArrayOp α → Prop
  | .add element => answer = .inl .ok ∧ l' = l ++ [element] ∨ Refused l answer l'
  | .insertAt element idx =>
      answer = .inl .ok ∧ idx ≤ l.length ∧ l' = l.take idx ++ element :: l.drop idx ∨
        Refused l answer l'
  | .merge others => answer = .inl .ok ∧ l' = l ++ others ∨ Refused l answer l'
  | .remove none _ => answer = .inl .notFound ∧ l' = l
  | .remove (some element) all =>
      (∃ e ∈ l, eq e element = true) ∧ answer = .inl .ok ∧ l' = kept (eq · element) all l ∨
        (¬ ∃ e ∈ l, eq e element = true) ∧ answer = .inl .notFound ∧ l' = l
  | .removeElementAt idx =>
      idx < l.length ∧ answer = .inl .ok ∧ l' = l.eraseIdx idx ∨
        l.length ≤ idx ∧ answer = .inl .indexOutOfRange ∧ l' = l
  | .removeAll => answer = .inl .ok ∧ l' = []
  | .subtract others all =>
      answer = .inl .ok ∧ l' = others.foldl (fun l key => kept (eq · key) all l) l
  | .popFirst => answer = .inr l.head? ∧ l' = l.tail
  | .popLast => answer = .inr l.getLast? ∧ l' = l.dropLast

/-- What an operation takes for granted. -/
def StepFits (eq : α → α → Bool) (a : PbArray α) : Allocator × ArrayOp α → Prop
  | (_, .add _) => HasRoom a
  | (_, .insertAt _ idx) => a.length < idx ∨ idx ≤ a.count ∧ HasRoom a
  | (m, .merge others) => HasRoomFor a others.length ∧
      (CanGrow m.slots a ∨ a.count + others.length ≤ a.length ∨
        a.count = a.length ∧ (a.resizeStrategy = .none ∨ m.slots (a.targetLength true) = false))
  | (m, .remove (some element) _) =>
      a.count = 0 ∨ (∃ e ∈ a.contents, eq e element = true) ∨ ShrinkFits m.slots a
  | (m, .subtract others _) =>
      (∃ key ∈ others, ∃ e ∈ a.contents, eq e key = true) ∨ ShrinkFits m.slots a
  | _ => True

/-! ## One step -/

variable {eq : α → α → Bool} {m : Allocator} {a : PbArray α} {l : List α}

lemma kept_of_none {p : α → Bool} (all : Bool) (h : ¬ ∃ e ∈ l, p e = true) : kept p all l = l := by
  have hnone : ∀ e ∈ l, ¬ p e = true := fun e he hp => h ⟨e, he, hp⟩
  rw [kept]
  split
  · exact List.filter_eq_self.mpr fun e he => by simp [hnone e he]
  · exact List.eraseP_of_forall_not hnone

/-- Where an element of the other list is found something is taken out. -/
lemma length_foldl_kept_lt {others : List α} (all : Bool)
    (h : ∃ key ∈ others, ∃ e ∈ l, eq e key = true) :
    (others.foldl (fun l key => kept (eq · key) all l) l).length < l.length := by
  induction others generalizing l with
  | nil =>
      obtain ⟨key, hkey, -⟩ := h
      exact absurd hkey List.not_mem_nil
  | cons first others ih =>
      by_cases hany : ∃ e ∈ l, eq e first = true
      · have hlt := length_kept_lt all (List.any_eq_true.mpr hany)
        exact Nat.lt_of_le_of_lt (length_foldl_kept_le _ all others _) hlt
      · rw [List.foldl_cons, kept_of_none all hany]
        obtain ⟨key, hkey, hfound⟩ := h
        refine ih ⟨key, ?_, hfound⟩
        rcases List.mem_cons.mp hkey with rfl | hkey
        · exact absurd hfound hany
        · exact hkey

/-- An entry that is added, or cannot be. -/
lemma insertAt_step (m : Allocator) (h : Holds a l) (element : α) {idx : Nat}
    (hfits : a.length < idx ∨ idx ≤ a.count ∧ HasRoom a) :
    ∃ result a', a.insertAt m.slots (if m.entry then some element else none) idx =
        some (result, a') ∧
      (result = .ok ∧ idx ≤ l.length ∧ Holds a' (l.take idx ++ element :: l.drop idx) ∨
        result ≠ .ok ∧ a' = a) := by
  cases m.entry with
  | false => exact ⟨.outOfMemory, a, rfl, .inr ⟨by decide, rfl⟩⟩
  | true =>
      rw [if_pos rfl, PbArray.insertAt]
      rcases hfits with hbehind | ⟨hidx, hroom⟩
      · exact ⟨.indexOutOfRange, a, by rw [addEntryAt, if_pos hbehind], .inr ⟨by decide, rfl⟩⟩
      · rw [h.count_eq] at hidx
        obtain ⟨a', hadd, -, hcases⟩ := addEntryAt_holds h hroom hidx m.slots element
        refine ⟨_, a', hadd, ?_⟩
        rcases hcases with ⟨hok, hholds⟩ | hfails
        · exact .inl ⟨hok, hidx, hholds⟩
        · exact .inr hfails

lemma merge_step (h : Holds a l) {others : List α} (hfits : StepFits eq a (m, .merge others)) :
    ∃ result a', mergeLoop m.slots (fun _ s => s) others a () = some (result, a', ()) ∧
      (result = .ok ∧ Holds a' (l ++ others) ∨ result ≠ .ok ∧ a' = a) := by
  obtain ⟨hroom, hgrows⟩ := hfits
  obtain ⟨result, a', k, hloop, hholds, -, hresult⟩ :=
    mergeLoop_holds m.slots (fun _ s => s) () h hroom
  by_cases hall : CanGrow m.slots a ∨ a.count + others.length ≤ a.length
  · have hok := mergeLoop_ok h hroom hall hloop
    obtain ⟨-, hk⟩ := hresult.resolve_right fun hfails => hfails.1 hok
    rw [List.take_of_length_le hk] at hholds
    exact ⟨result, a', hloop, .inl ⟨hok, hholds⟩⟩
  · rw [not_or] at hall
    obtain ⟨hfull, hfails⟩ := (hgrows.resolve_left hall.1).resolve_left hall.2
    by_cases hnil : others = []
    · subst hnil
      refine ⟨.ok, a, rfl, .inl ⟨rfl, ?_⟩⟩
      rwa [List.append_nil]
    · obtain ⟨result, hne, hnothing⟩ :=
        mergeLoop_fails (fun _ s => s) () h hroom hfull hfails hnil
      exact ⟨result, a, hnothing, .inr ⟨hne, rfl⟩⟩

/-- **One operation.** -/
lemma arrayStep_right (h : Holds a l) (op : ArrayOp α) (hfits : StepFits eq a (m, op)) :
    ∃ answer a' l', arrayStep eq m a op = some (answer, a') ∧ Holds a' l' ∧
      ListStep eq l answer l' op := by
  cases op with
  | add element =>
      have hend : a.length < a.count ∨ a.count ≤ a.count ∧ HasRoom a := .inr ⟨Nat.le_refl _, hfits⟩
      obtain ⟨result, a', hstep, ⟨rfl, -, hholds⟩ | ⟨hne, rfl⟩⟩ := insertAt_step m h element hend
      · refine ⟨.inl .ok, a', _, by rw [arrayStep, hstep]; rfl, hholds, .inl ⟨rfl, ?_⟩⟩
        rw [h.count_eq, List.take_length, List.drop_length]
      · exact ⟨.inl result, a', l, by rw [arrayStep, hstep]; rfl, h,
          .inr ⟨⟨result, hne, rfl⟩, rfl⟩⟩
  | insertAt element idx =>
      obtain ⟨result, a', hstep, ⟨rfl, hidx, hholds⟩ | ⟨hne, rfl⟩⟩ := insertAt_step m h element hfits
      · exact ⟨.inl .ok, a', _, by rw [arrayStep, hstep]; rfl, hholds, .inl ⟨rfl, hidx, rfl⟩⟩
      · exact ⟨.inl result, a', l, by rw [arrayStep, hstep]; rfl, h,
          .inr ⟨⟨result, hne, rfl⟩, rfl⟩⟩
  | merge others =>
      obtain ⟨result, a', hstep, ⟨rfl, hholds⟩ | ⟨hne, rfl⟩⟩ := merge_step h hfits
      · exact ⟨.inl .ok, a', _, by rw [arrayStep, hstep]; rfl, hholds, .inl ⟨rfl, rfl⟩⟩
      · exact ⟨.inl result, a', l, by rw [arrayStep, hstep]; rfl, h,
          .inr ⟨⟨result, hne, rfl⟩, rfl⟩⟩
  | remove element all =>
      cases element with
      | none => exact ⟨.inl .notFound, a, l, rfl, h, rfl, rfl⟩
      | some element =>
          have hequal : ∀ (l : List α) (s : Unit), True → ∀ e ∈ l,
              some (eq e element) = some (eq e element) := fun _ _ _ _ _ => rfl
          have hshrinks : l = [] ∨ l.any (eq · element) = true ∨ ShrinkFits m.slots a := by
            rcases hfits with hcount | hfound | hshrink
            · exact .inl (List.length_eq_zero_iff.mp (h.count_eq ▸ hcount))
            · rw [h.contents_eq] at hfound
              exact .inr (.inl (List.any_eq_true.mpr hfound))
            · exact .inr (.inr hshrink)
          obtain ⟨a', s', hstep, hholds, -, -⟩ := remove_holds (I := fun _ _ => True)
            (J := fun _ _ => True) (fun _ s => s) hequal (fun _ _ _ _ _ _ => trivial) all
            (fun _ _ _ h => h) (fun _ _ h => h) h trivial hshrinks
          refine ⟨_, a', _, by rw [arrayStep, hstep]; rfl, hholds, ?_⟩
          by_cases hfound : ∃ e ∈ l, eq e element = true
          · rw [if_pos (List.any_eq_true.mpr hfound)]
            exact .inl ⟨hfound, rfl, rfl⟩
          · rw [if_neg fun hany => hfound (List.any_eq_true.mp hany)]
            exact .inr ⟨hfound, rfl, kept_of_none all hfound⟩
  | removeElementAt idx =>
      by_cases hidx : idx < l.length
      · obtain ⟨a', hstep, hholds, -⟩ := removeElementAt_holds h (fun _ s => s) () hidx
        exact ⟨.inl .ok, a', _, by rw [arrayStep, hstep]; rfl, hholds, .inl ⟨hidx, rfl, rfl⟩⟩
      · have hstep := removeElementAt_outside h (fun _ s => s) () (Nat.not_lt.mp hidx)
        exact ⟨.inl .indexOutOfRange, a, l, by rw [arrayStep, hstep]; rfl, h,
          .inr ⟨Nat.not_lt.mp hidx, rfl, rfl⟩⟩
  | removeAll =>
      obtain ⟨a', hstep, hholds, -⟩ := removeAll_holds h (fun _ s => s) m.slots ()
      exact ⟨.inl .ok, a', [], by rw [arrayStep, hstep]; rfl, hholds, rfl, rfl⟩
  | subtract others all =>
      have hequal : ∀ key ∈ others, ∀ (l : List α) (s : Unit), True → ∀ e ∈ l,
          some (eq e key) = some (eq e key) := fun _ _ _ _ _ _ _ => rfl
      have hshrinks : (others.foldl (fun l key => kept (eq · key) all l) l).length < l.length ∨
          ShrinkFits m.slots a := by
        rcases hfits with hfound | hshrink
        · rw [h.contents_eq] at hfound
          exact .inl (length_foldl_kept_lt all hfound)
        · exact .inr hshrink
      obtain ⟨a', s', hstep, hholds, -, -⟩ := subtract_holds (I := fun _ _ => True) (fun _ s => s)
        hequal (fun _ _ _ _ _ _ _ _ => trivial) all h trivial hshrinks
      exact ⟨.inl .ok, a', _, by rw [arrayStep, hstep]; rfl, hholds, rfl, rfl⟩
  | popFirst =>
      cases l with
      | nil =>
          have hcount : a.count = 0 := h.count_eq
          exact ⟨.inr none, a, [], by rw [arrayStep, pop, if_pos hcount]; rfl, h, rfl, rfl⟩
      | cons e l =>
          obtain ⟨a', hstep, hholds, -⟩ := pop_holds h (fun _ s => s) () (Nat.zero_lt_succ _)
          exact ⟨.inr (some e), a', l, by rw [arrayStep, hstep]; rfl, hholds, rfl, rfl⟩
  | popLast =>
      by_cases hnil : l = []
      · subst hnil
        have hcount : a.count = 0 := h.count_eq
        exact ⟨.inr none, a, [], by rw [arrayStep, pop, if_pos hcount]; rfl, h, rfl, rfl⟩
      · have hpos := List.length_pos_of_ne_nil hnil
        have hlast : l.length - 1 < l.length := Nat.sub_lt hpos Nat.zero_lt_one
        obtain ⟨a', hstep, hholds, -⟩ := pop_holds h (fun _ s => s) () hlast
        refine ⟨.inr (some l[l.length - 1]), a', _, by rw [arrayStep, h.count_eq, hstep]; rfl, hholds,
          ?_, ?_⟩
        · rw [List.getLast?_eq_getElem?, List.getElem?_eq_getElem hlast]
        · rw [List.eraseIdx_length_sub_one]

/-! ## All runs -/

/-- What every array of a run holds, and does. -/
def BehavesAsList (eq : α → α → Bool) (a : PbArray α) : Prop :=
  a.count ≤ a.length ∧ Holds a a.contents ∧
    ∀ m op, StepFits eq a (m, op) → ∃ answer a', arrayStep eq m a op = some (answer, a') ∧
      Holds a' a'.contents ∧ ListStep eq a.contents answer a'.contents op

lemma PbArray.Holds.behavesAsList (h : Holds a l) : BehavesAsList eq a := by
  refine ⟨h.count_le, h.contents_eq ▸ h, fun m op hfits => ?_⟩
  obtain ⟨answer, a', l', hstep, hholds, hlist⟩ := arrayStep_right h op hfits
  rw [← h.contents_eq, ← hholds.contents_eq] at hlist
  exact ⟨answer, a', hstep, hholds.contents_eq ▸ hholds, hlist⟩

/-- **Arrays are lists.**  In every run whose steps all fit, the entries stand in the first slots, and
    each operation does to them what it does to a list. -/
theorem pbarray_lists_right (eq : α → α → Bool) (length : Nat) (strategy : ResizeStrategy)
    (a : PbArray α) (hr : (arrayMachine eq length strategy).Reachable (StepFits eq) a) :
    BehavesAsList eq a := by
  have hinv : ∃ l, Holds a l := by
    refine Machine.Reachable.invariant (P := fun a => ∃ l, Holds a l)
      ⟨[], holds_alloc length strategy⟩ (fun a op a' ⟨l, h⟩ hfits hstep => ?_) hr
    obtain ⟨m, op⟩ := op
    obtain ⟨answer, a₁, l', hright, hholds, -⟩ := arrayStep_right h op hfits
    have heq : (arrayStep eq m a op).map Prod.snd = some a' := hstep
    rw [hright] at heq
    cases heq
    exact ⟨l', hholds⟩
  obtain ⟨l, h⟩ := hinv
  exact h.behavesAsList

/-- There is an entry, and as many slots as are asked for. -/
def freeAllocator : Allocator := ⟨true, fun _ => true⟩

/-- A conservative array of two elements. -/
def fullArray : PbArray Nat := ⟨.conservative, 2, [some 1, some 2], 2⟩

lemma reachable_fullArray (eq : Nat → Nat → Bool) :
    (arrayMachine eq 2 .conservative).Reachable (StepFits eq) fullArray := by
  have hfirst : (arrayMachine eq 2 .conservative).Reachable (StepFits eq)
      ⟨.conservative, 2, [some 1, none], 1⟩ :=
    .step (a := (freeAllocator, .add 1)) .init (.inl Nat.zero_lt_two) rfl
  exact .step (a := (freeAllocator, .add 2)) hfirst (.inl Nat.one_lt_two) rfl

theorem pbarray_lists_right_full : BehavesAsList (· == ·) fullArray :=
  pbarray_lists_right (· == ·) 2 .conservative fullArray (reachable_fullArray _)

/-- An element that is not there is not removed from a full array, but a slot is, and with it the
    element that stood there. -/
theorem pbarray_lists_fail :
    (arrayMachine (α := Nat) (· == ·) 2 .conservative).Reachable (StepFits (· == ·)) fullArray ∧
      ∃ a', arrayStep (· == ·) freeAllocator fullArray (.remove (some 3) false) =
          some (.inl .notFound, a') ∧
        a'.length < a'.count ∧ fullArray.contents = [1, 2] ∧ a'.contents = [1] :=
  ⟨reachable_fullArray _, ⟨.conservative, 2, [some 1], 2⟩, rfl, by decide, rfl, rfl⟩

end PubNub
