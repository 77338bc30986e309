import Mathlib.Algebra.Order.Ring.Int
import Mathlib.Data.List.Basic
import Mathlib.Data.List.Induction

/-!
# Arrays that resize themselves

`lib/pbarray.c`, over any type of entries.  The block of an array has a slot for each entry it has been
allocated for, and a slot is `none` before anything is stored in it; reading such a slot, and reading
or writing behind the block, is `none` here.

`Holds` says that the entries stand in the first slots, in order, and that there are slots for them.
Each operation keeps it where the array has the room that the operation takes for granted:
`HasRoom` for one more entry, and `ShrinkFits` for what `pbarray_resize_` takes away.
-/

namespace PubNub

/-! ## The data -/

/-- `pbarray_resize_strategy`. -/
inductive ResizeStrategy
  | none | conservative | optimistic | balanced
  deriving DecidableEq

/-- `pbarray_res`. -/
inductive PbarrayRes
  | ok | notFound | fixedSize | outOfMemory | indexOutOfRange
  deriving DecidableEq

/-- `struct pbarray`: its `elements` as far as they are allocated. -/
structure PbArray (ε : Type) where
  resizeStrategy : ResizeStrategy
  initialLength : Nat
  elements : List (Option ε)
  count : Nat

namespace PbArray

variable {ε : Type}

def length (a : PbArray ε) : Nat := a.elements.length

/-- `pbarray_alloc`. -/
def alloc (ε : Type) (length : Nat) (resizeStrategy : ResizeStrategy) : PbArray ε where
  resizeStrategy := resizeStrategy
  initialLength := length
  elements := List.replicate length Option.none
  count := 0

/-! ## Resizing -/

/-- `array->length - array->count`, in a `size_t`. -/
def spare (a : PbArray ε) : Nat :=
  if a.count ≤ a.length then a.length - a.count else 2 ^ 64 + a.length - a.count

/-- `resize_len` as the strategy sets it. -/
def resizeLen (a : PbArray ε) (increase : Bool) : Nat :=
  match a.resizeStrategy with
  | .none => 0
  | .conservative => 1
  | .optimistic => if increase then a.length else a.initialLength
  | .balanced => a.initialLength / 2

/-- `pbarray_target_length_`. -/
def targetLength (a : PbArray ε) (increase : Bool) : Nat :=
  if increase then
    if a.count < a.length then a.length
    else if a.resizeStrategy = .none then 0
    else a.length + a.resizeLen true
  else if a.spare < a.resizeLen false ∧
      (a.resizeStrategy = .optimistic ∨ a.resizeStrategy = .balanced) then a.length
  else a.length - a.resizeLen false

/-- `pbarray_resize_`; `memory` tells whether `realloc` finds room for so many slots. -/
def resize (memory : Nat → Bool) (a : PbArray ε) (increase : Bool) : PbarrayRes × PbArray ε :=
  let length := a.targetLength increase
  if length = 0 then (.fixedSize, a)
  else if length ≠ a.length then
    if memory length then
      (.ok, { a with elements := a.elements.take length ++
                       List.replicate (length - a.length) Option.none })
    else (.outOfMemory, a)
  else (.ok, a)

/-! ## Moving entries -/

/-- `array->elements[i] = array->elements[i - 1]`, from a slot down to the one behind the index. -/
def shiftUp (index : Nat) : Nat → List (Option ε) → Option (List (Option ε))
  | 0, elements => some elements
  | i + 1, elements =>
      if index < i + 1 then do
        let entry ← elements[i]?
        if i + 1 < elements.length then shiftUp index i (elements.set (i + 1) entry)
        else Option.none
      else some elements

/-- `array->elements[j] = array->elements[j + 1]`, for so many slots. -/
def shiftDown (j : Nat) : Nat → List (Option ε) → Option (List (Option ε))
  | 0, elements => some elements
  | slots + 1, elements => do
      let entry ← elements[j + 1]?
      if j < elements.length then shiftDown (j + 1) slots (elements.set j entry) else Option.none

/-- `pbarray_add_entry_at_`. -/
def addEntryAt (memory : Nat → Bool) (a : PbArray ε) (index : Nat) (entry : ε) :
    Option (PbarrayRes × PbArray ε) :=
  if a.length < index then some (.indexOutOfRange, a)
  else
    let resized := a.resize memory true
    if resized.1 ≠ .ok then some resized
    else do
      let elements ← shiftUp index resized.2.count resized.2.elements
      if index < elements.length then
        some (.ok, { resized.2 with elements := elements.set index (some entry)
                                    count := resized.2.count + 1 })
      else Option.none

/-- `array->elements[i]`. -/
def entryAt (a : PbArray ε) (i : Nat) : Option ε := a.elements[i]?.join

/-- `pbarray_remove_entry_at_`, without what becomes of the entry. -/
def removeEntryAt (a : PbArray ε) (index : Nat) : Option (PbArray ε) := do
  let elements ← shiftDown index (a.count - 1 - index) a.elements
  some { a with elements := elements, count := a.count - 1 }

/-! ## What an array holds -/

/-- The entries are in the first slots. -/
structure Holds (a : PbArray ε) (l : List ε) : Prop where
  count_eq : a.count = l.length
  prefix_elements : l.map some <+: a.elements

/-- There is a slot for one more entry once the array has been resized. -/
def HasRoom (a : PbArray ε) : Prop :=
  a.count < a.length ∨ a.resizeStrategy ≠ .balanced ∨ 2 ≤ a.initialLength

/-- Taking slots away leaves enough of them. -/
def ShrinkFits (memory : Nat → Bool) (a : PbArray ε) : Prop :=
  a.resizeStrategy = .conservative → a.count < a.length ∨ a.length ≤ 1 ∨ memory (a.length - 1) = false

variable {a a' : PbArray ε} {l : List ε} {e : ε} {memory : Nat → Bool} {result : PbarrayRes}

namespace Holds

lemma count_le (h : Holds a l) : a.count ≤ a.length := by
  have hle := h.prefix_elements.length_le
  rwa [List.length_map, ← h.count_eq] at hle

lemma exists_rest (h : Holds a l) : ∃ rest, a.elements = l.map some ++ rest := by
  obtain ⟨rest, hrest⟩ := h.prefix_elements
  exact ⟨rest, hrest.symm⟩

lemma entryAt (h : Holds a l) {i : Nat} (hi : i < l.length) : a.entryAt i = some l[i] := by
  obtain ⟨rest, hrest⟩ := h.exists_rest
  have hlt : i < (l.map some).length := by rwa [List.length_map]
  rw [PbArray.entryAt, hrest, List.getElem?_append_left hlt, List.getElem?_map,
    List.getElem?_eq_getElem hi]
  rfl

end Holds

lemma holds_alloc (length : Nat) (strategy : ResizeStrategy) :
    Holds (alloc ε length strategy) [] := ⟨rfl, List.nil_prefix⟩

/-! ## Making room -/

/-- The strategy and the length at the beginning stay what they are. -/
def SameKind (a a' : PbArray ε) : Prop :=
  a'.resizeStrategy = a.resizeStrategy ∧ a'.initialLength = a.initialLength

lemma SameKind.trans {a₁ a₂ a₃ : PbArray ε} (h : SameKind a₁ a₂) (h' : SameKind a₂ a₃) :
    SameKind a₁ a₃ := ⟨h'.1.trans h.1, h'.2.trans h.2⟩

/-- With a slot left nothing is resized. -/
lemma resize_of_spare (h : a.count < a.length) (memory : Nat → Bool) :
    a.resize memory true = (.ok, a) := by
  have htarget : a.targetLength true = a.length := by rw [targetLength, if_pos rfl, if_pos h]
  have hpos : ¬ a.length = 0 := by omega
  rw [resize, htarget, if_neg hpos, if_neg (not_not_intro rfl)]

/-- Either there is a slot more than entries now, or nothing has changed. -/
lemma resize_increase (h : Holds a l) (hroom : HasRoom a) (memory : Nat → Bool) :
    ∃ a', (a.resize memory true = (.ok, a') ∧ Holds a' l ∧ a'.count < a'.length ∧ SameKind a a') ∨
      ∃ result, result ≠ .ok ∧ a.resize memory true = (result, a) := by
  by_cases hspare : a.count < a.length
  · exact ⟨a, .inl ⟨resize_of_spare hspare memory, h, hspare, rfl, rfl⟩⟩
  by_cases hnone : a.resizeStrategy = .none
  · refine ⟨a, .inr ⟨.fixedSize, by decide, ?_⟩⟩
    have htarget : a.targetLength true = 0 := by
      rw [targetLength, if_pos rfl, if_neg hspare, if_pos hnone]
    rw [resize, htarget, if_pos rfl]
  have htarget : a.targetLength true = a.length + a.resizeLen true := by
    rw [targetLength, if_pos rfl, if_neg hspare, if_neg hnone]
  rw [resize, htarget]
  by_cases hzero : a.length + a.resizeLen true = 0
  · exact ⟨a, .inr ⟨.fixedSize, by decide, if_pos hzero⟩⟩
  rw [if_neg hzero]
  have hgrows : 0 < a.resizeLen true := by
    have hfull := hroom.resolve_left hspare
    rw [resizeLen]
    cases hstrategy : a.resizeStrategy with
    | none => exact absurd hstrategy hnone
    | conservative => exact Nat.zero_lt_one
    | optimistic =>
        rw [resizeLen, hstrategy] at hzero
        dsimp only at hzero ⊢
        rw [if_pos rfl] at hzero ⊢
        omega
    | balanced =>
        have htwo : 2 ≤ a.initialLength := hfull.resolve_left fun hne => hne hstrategy
        exact Nat.div_pos htwo Nat.zero_lt_two
  rw [if_pos (by omega)]
  by_cases hmemory : memory (a.length + a.resizeLen true) = true
  · refine ⟨_, .inl ⟨if_pos hmemory, ⟨h.count_eq, ?_⟩, ?_, rfl, rfl⟩⟩
    · have htake : a.elements.take (a.length + a.resizeLen true) = a.elements :=
        List.take_of_length_le (Nat.le_add_right _ _)
      rw [htake]
      exact h.prefix_elements.trans (List.prefix_append _ _)
    · have hle := h.count_le
      change a.count < (_ ++ _ : List (Option ε)).length
      rw [List.length_append, List.length_take, List.length_replicate]
      change a.count < min _ a.length + _
      omega
  · exact ⟨a, .inr ⟨.outOfMemory, by decide, if_neg hmemory⟩⟩

/-! ## Moving entries aside -/

/-- The entries behind the index move up by one slot. -/
lemma shiftUp_eq (pre mid rest : List (Option ε)) (x : Option ε) :
    ∃ y, shiftUp pre.length (pre ++ mid).length (pre ++ mid ++ x :: rest) =
      some (pre ++ y :: (mid ++ rest)) := by
  induction mid using List.reverseRecOn generalizing x rest with
  | nil =>
      refine ⟨x, ?_⟩
      rw [List.append_nil]
      cases hlength : pre.length with
      | zero => rw [shiftUp]; rfl
      | succ n =>
          rw [shiftUp, if_neg (by omega)]
          rfl
  | append_singleton mid y ih =>
      obtain ⟨z, hz⟩ := ih (y :: rest) y
      refine ⟨z, ?_⟩
      have hlength : (pre ++ (mid ++ [y])).length = (pre ++ mid).length + 1 := by
        simp only [List.length_append, List.length_singleton]
        omega
      have hread : (pre ++ (mid ++ [y]) ++ x :: rest)[(pre ++ mid).length]? = some y := by
        rw [← List.append_assoc pre, List.append_assoc (pre ++ mid), List.getElem?_append_right
          (Nat.le_refl _), Nat.sub_self]
        rfl
      have hset : (pre ++ (mid ++ [y]) ++ x :: rest).set ((pre ++ mid).length + 1) y =
          pre ++ mid ++ y :: y :: rest := by
        rw [← hlength, List.set_append_right _ _ (Nat.le_refl _), Nat.sub_self]
        simp
      have hlt : (pre ++ mid).length + 1 < (pre ++ (mid ++ [y]) ++ x :: rest).length := by
        simp only [List.length_append, List.length_cons, List.length_nil]
        omega
      have hindex : pre.length < (pre ++ mid).length + 1 := by
        rw [List.length_append]
        omega
      rw [hlength, shiftUp, if_pos hindex, hread]
      simp only [Option.bind_eq_bind, Option.bind_some]
      rw [if_pos hlt, hset, hz]
      simp

/-- The entries behind the index move down by one slot. -/
lemma shiftDown_eq (pre mid rest : List (Option ε)) (x : Option ε) :
    ∃ y, shiftDown pre.length mid.length (pre ++ x :: (mid ++ rest)) =
      some (pre ++ mid ++ y :: rest) := by
  induction mid generalizing pre x with
  | nil =>
      refine ⟨x, ?_⟩
      rw [List.length_nil, shiftDown, List.append_nil, List.nil_append]
  | cons z mid ih =>
      obtain ⟨y, hy⟩ := ih (pre ++ [z]) z
      refine ⟨y, ?_⟩
      have hread : (pre ++ x :: (z :: mid ++ rest))[pre.length + 1]? = some z := by
        rw [List.getElem?_append_right (Nat.le_add_right _ 1), Nat.add_sub_cancel_left]
        rfl
      have hset : (pre ++ x :: (z :: mid ++ rest)).set pre.length z =
          pre ++ [z] ++ z :: (mid ++ rest) := by
        rw [List.set_append_right _ _ (Nat.le_refl _), Nat.sub_self]
        simp
      have hlt : pre.length < (pre ++ x :: (z :: mid ++ rest)).length := by
        simp only [List.length_append, List.length_cons]
        omega
      rw [List.length_append, List.length_singleton] at hy
      rw [List.length_cons, shiftDown, hread]
      simp only [Option.bind_eq_bind, Option.bind_some]
      rw [if_pos hlt, hset, hy]
      simp

/-! ## One entry more, one less, and fewer slots -/

/-- An entry is put at an index that is not behind the end, or nothing changes. -/
lemma addEntryAt_holds (h : Holds a l) (hroom : HasRoom a) {index : Nat} (hindex : index ≤ l.length)
    (memory : Nat → Bool) (e : ε) :
    ∃ a', a.addEntryAt memory index e = some ((a.resize memory true).1, a') ∧ SameKind a a' ∧
      ((a.resize memory true).1 = .ok ∧ Holds a' (l.take index ++ e :: l.drop index) ∨
        (a.resize memory true).1 ≠ .ok ∧ a' = a) := by
  have hinside : ¬ a.length < index := by
    have hle := h.count_le
    rw [h.count_eq] at hle
    omega
  rw [addEntryAt, if_neg hinside]
  obtain ⟨a', ⟨hresize, hholds, hspare, hkind⟩ | ⟨result, hne, hresize⟩⟩ :=
    resize_increase h hroom memory
  · rw [hresize]
    obtain ⟨rest, hrest⟩ := hholds.exists_rest
    have hlength : a'.length = l.length + rest.length := by
      rw [length, hrest, List.length_append, List.length_map]
    rw [hholds.count_eq, hlength] at hspare
    obtain ⟨x, rest, rfl⟩ := List.exists_cons_of_ne_nil (List.ne_nil_of_length_pos (l := rest) (by omega))
    have hpre : ((l.take index).map some).length = index := by
      rw [List.length_map, List.length_take, Nat.min_eq_left hindex]
    have hsplit : (l.take index).map some ++ (l.drop index).map some = l.map some := by
      rw [← List.map_append, List.take_append_drop]
    obtain ⟨y, hy⟩ := shiftUp_eq ((l.take index).map some) ((l.drop index).map some) rest x
    rw [hsplit, hpre, List.length_map, ← hrest, ← hholds.count_eq] at hy
    have hset : ((l.take index).map some ++ y :: ((l.drop index).map some ++ rest)).set index
        (some e) = (l.take index ++ e :: l.drop index).map some ++ rest := by
      rw [List.set_append_right _ _ (Nat.le_of_eq hpre), hpre, Nat.sub_self, List.set_cons_zero]
      simp
    have hlt : index < ((l.take index).map some ++ y :: ((l.drop index).map some ++ rest)).length := by
      rw [List.length_append, hpre, List.length_cons]
      omega
    refine ⟨{ a' with elements := (l.take index ++ e :: l.drop index).map some ++ rest
                      count := a'.count + 1 }, ?_, hkind, .inl ⟨rfl, ?_⟩⟩
    · simp only [ne_eq, not_true_eq_false, if_false, hy, Option.bind_eq_bind, Option.bind_some]
      rw [if_pos hlt, hset]
    · refine ⟨?_, List.prefix_append _ _⟩
      change a'.count + 1 = _
      rw [hholds.count_eq, List.length_append, List.length_cons, List.length_take, List.length_drop]
      omega
  · rw [hresize, if_pos hne]
    exact ⟨a, rfl, ⟨rfl, rfl⟩, .inr ⟨hne, rfl⟩⟩

/-- There is a slot for each of so many entries once the array has been resized. -/
def HasRoomFor (a : PbArray ε) (entries : Nat) : Prop :=
  a.resizeStrategy ≠ .balanced ∨ 2 ≤ a.initialLength ∨ a.count + entries ≤ a.length

/-- The array grows whenever it has to. -/
def CanGrow (memory : Nat → Bool) (a : PbArray ε) : Prop :=
  a.resizeStrategy ≠ .none ∧ 0 < a.length ∧ ∀ length, memory length = true

lemma HasRoomFor.hasRoom {entries : Nat} (h : HasRoomFor a (entries + 1)) : HasRoom a := by
  rcases h with h | h | h
  · exact .inr (.inl h)
  · exact .inr (.inr h)
  · exact .inl (by omega)

lemma resize_of_canGrow (h : CanGrow memory a) : (a.resize memory true).1 = .ok := by
  obtain ⟨hstrategy, hpos, hmemory⟩ := h
  have htarget : a.targetLength true ≠ 0 := by
    rw [targetLength, if_pos rfl]
    split
    · exact Nat.ne_of_gt hpos
    · omega
  rw [resize, if_neg htarget]
  split
  · rw [if_pos (hmemory _)]
  · rfl

/-- With a slot left the entry is put, and no slot is added. -/
lemma addEntryAt_of_spare (h : a.count < a.length) (hresult : a.addEntryAt memory a.count e =
    some (result, a')) : result = .ok ∧ a'.length = a.length := by
  have hshift : ∀ elements : List (Option ε), shiftUp a.count a.count elements = some elements := by
    intro elements
    cases hcount : a.count with
    | zero => rfl
    | succ n => rw [shiftUp, if_neg (Nat.lt_irrefl _)]
  rw [addEntryAt, if_neg (by omega), resize_of_spare h] at hresult
  simp only [ne_eq, not_true_eq_false, if_false, hshift, Option.bind_eq_bind, Option.bind_some]
    at hresult
  rw [if_pos (show a.count < a.elements.length from h)] at hresult
  cases hresult
  exact ⟨rfl, List.length_set⟩

/-- An entry is taken out. -/
lemma removeEntryAt_holds (h : Holds a l) {index : Nat} (hindex : index < l.length) :
    ∃ a', a.removeEntryAt index = some a' ∧ Holds a' (l.eraseIdx index) ∧ a'.length = a.length ∧
      SameKind a a' := by
  obtain ⟨rest, hrest⟩ := h.exists_rest
  have hpre : ((l.take index).map some).length = index := by
    rw [List.length_map, List.length_take, Nat.min_eq_left (Nat.le_of_lt hindex)]
  have hmid : a.count - 1 - index = ((l.drop (index + 1)).map some).length := by
    rw [h.count_eq, List.length_map, List.length_drop]
    omega
  have hsplit : a.elements = (l.take index).map some ++
      some l[index] :: ((l.drop (index + 1)).map some ++ rest) := by
    rw [hrest, ← List.cons_append, ← List.map_cons, ← List.drop_eq_getElem_cons hindex,
      ← List.append_assoc, ← List.map_append, List.take_append_drop]
  obtain ⟨y, hy⟩ := shiftDown_eq ((l.take index).map some) ((l.drop (index + 1)).map some) rest
    (some l[index])
  rw [hpre, ← hmid, ← hsplit] at hy
  refine ⟨{ a with elements := (l.take index).map some ++ (l.drop (index + 1)).map some ++ y :: rest
                   count := a.count - 1 }, ?_, ⟨?_, ?_⟩, ?_, rfl, rfl⟩
  · rw [removeEntryAt, hy]
    rfl
  · change a.count - 1 = _
    rw [h.count_eq, List.length_eraseIdx_of_lt hindex]
  · rw [List.eraseIdx_eq_take_drop_succ, List.map_append]
    exact List.prefix_append _ _
  · have hlength := congrArg List.length hsplit
    change (_ ++ y :: rest : List (Option ε)).length = a.elements.length
    rw [hlength]
    simp only [List.length_append, List.length_cons]
    omega

/-- The slots that are taken away hold nothing. -/
lemma resize_decrease (h : Holds a l) (hfits : ShrinkFits memory a) :
    ∃ result a', a.resize memory false = (result, a') ∧ Holds a' l ∧ SameKind a a' := by
  rw [resize]
  by_cases hzero : a.targetLength false = 0
  · exact ⟨.fixedSize, a, if_pos hzero, h, rfl, rfl⟩
  rw [if_neg hzero]
  by_cases hsame : a.targetLength false = a.length
  · exact ⟨.ok, a, if_neg (not_not_intro hsame), h, rfl, rfl⟩
  rw [if_pos hsame]
  by_cases hmemory : memory (a.targetLength false) = true
  swap
  · exact ⟨.outOfMemory, a, if_neg hmemory, h, rfl, rfl⟩
  refine ⟨.ok, _, if_pos hmemory, ⟨h.count_eq, ?_⟩, rfl, rfl⟩
  have hle := h.count_le
  have henough : a.count ≤ a.targetLength false := by
    rw [targetLength, if_neg Bool.false_ne_true] at hzero hsame hmemory ⊢
    split at hsame
    · exact absurd rfl hsame
    · rename_i hguard
      rw [if_neg hguard] at hzero hmemory ⊢
      rw [resizeLen] at hzero hmemory ⊢
      rw [spare, if_pos hle, resizeLen] at hguard
      cases hstrategy : a.resizeStrategy with
      | none => exact hle
      | conservative =>
          simp only [hstrategy] at hzero hmemory ⊢
          rcases hfits hstrategy with hlt | hone | hfails
          · omega
          · omega
          · rw [hfails] at hmemory
            cases hmemory
      | optimistic =>
          simp only [hstrategy, true_or, and_true, if_neg Bool.false_ne_true] at hguard ⊢
          omega
      | balanced =>
          simp only [hstrategy, or_true, and_true] at hguard ⊢
          omega
  refine List.IsPrefix.trans ?_ (List.prefix_append _ _)
  obtain ⟨rest, hrest⟩ := h.exists_rest
  have hcount : l.length ≤ a.targetLength false := h.count_eq ▸ henough
  rw [hrest, List.take_append, List.take_of_length_le (by rwa [List.length_map])]
  exact List.prefix_append _ _

/-! ## Reading all entries -/

/-- The entries, slot by slot. -/
def readEntries (a : PbArray ε) : Option (List ε) := (List.range a.count).mapM a.entryAt

/-- What is stored in the first slots. -/
def contents (a : PbArray ε) : List ε := (a.elements.take a.count).filterMap id

lemma Holds.contents_eq (h : Holds a l) : a.contents = l := by
  obtain ⟨rest, hrest⟩ := h.exists_rest
  have htake : a.elements.take a.count = l.map some := by
    rw [hrest, h.count_eq, List.take_left' (List.length_map some)]
  rw [contents, htake, List.filterMap_map]
  exact List.filterMap_some

lemma Holds.readEntries_eq (h : Holds a l) : a.readEntries = some l := by
  have hread : ∀ k ≤ l.length, (List.range k).mapM a.entryAt = some (l.take k) := by
    intro k
    induction k with
    | zero => exact fun _ => rfl
    | succ k ih =>
        intro hk
        have hentry := h.entryAt hk
        rw [List.range_succ, List.mapM_append, ih (Nat.le_of_succ_le hk)]
        simp only [List.mapM_cons, List.mapM_nil, hentry, Option.bind_eq_bind, Option.bind_some,
          Option.pure_def]
        rw [List.take_succ_eq_append_getElem hk]
  rw [readEntries, h.count_eq, hread l.length (Nat.le_refl _), List.take_length]

/-! ## Loops over the entries -/

section Loops

variable {σ κ : Type}

/-- The loop of `pbarray_remove_` and the inner one of `pbarray_subtract`: entries that are equal to
    what is looked for are taken out and released, all of them or the first one. -/
def removeLoop (equal : σ → ε → Option Bool) (release : ε → σ → σ) (all : Bool) :
    Nat → Nat → PbArray ε → σ → Bool → Option (PbArray ε × σ × Bool)
  | 0, _, _, _, _ => Option.none
  | fuel + 1, i, a, s, found =>
      if i < a.count then do
        let entry ← a.entryAt i
        let found? ← equal s entry
        if found? then do
          let a' ← a.removeEntryAt i
          if all then removeLoop equal release all fuel i a' (release entry s) true
          else some (a', release entry s, true)
        else removeLoop equal release all fuel (i + 1) a s found
      else some (a, s, found)

/-- The loop of `pbarray_subtract` over the other array. -/
def subtractLoop (equal : κ → σ → ε → Option Bool) (release : ε → σ → σ) (all : Bool) :
    List κ → PbArray ε → σ → Option (PbArray ε × σ)
  | [], a, s => some (a, s)
  | key :: keys, a, s => do
      let (a, s, _) ← removeLoop (equal key) release all (a.count + 1) 0 a s false
      subtractLoop equal release all keys a s

/-- The loop of `pbarray_merge`. -/
def mergeLoop (memory : Nat → Bool) (retain : ε → σ → σ) :
    List ε → PbArray ε → σ → Option (PbarrayRes × PbArray ε × σ)
  | [], a, s => some (.ok, a, s)
  | entry :: entries, a, s => do
      let (result, a) ← a.addEntryAt memory a.count entry
      if result = .ok then mergeLoop memory retain entries a (retain entry s)
      else some (result, a, s)

/-! ## What the loops come to -/

/-- What is left of a list from which the entries with a property are taken, all or the first one. -/
def kept (p : ε → Bool) (all : Bool) (l : List ε) : List ε :=
  if all then l.filter (fun e => !p e) else l.eraseP p

lemma kept_cons_neg {p : ε → Bool} {all : Bool} (hp : p e = false) (l : List ε) :
    kept p all (e :: l) = e :: kept p all l := by
  cases all with
  | true => simp [kept, hp]
  | false => simp [kept, hp]

/-- The loop takes out what has the property, from the entries it still has to look at.  `I` is what
    holds as long as entries are compared, `J` what holds in the end. -/
lemma removeLoop_holds {equal : σ → ε → Option Bool} {release : ε → σ → σ} (all found : Bool)
    {p : ε → Bool} {I J : List ε → σ → Prop}
    (hequal : ∀ l s, I l s → ∀ e ∈ l, equal s e = some (p e))
    (hrelease : ∀ pre e post s, p e = true → I (pre ++ e :: post) s → J (pre ++ post) (release e s))
    (hagain : all = true → ∀ l s, J l s → I l s) (hend : ∀ l s, I l s → J l s)
    {pre rest : List ε} {fuel : Nat} {s : σ} (h : Holds a (pre ++ rest))
    (hI : I (pre ++ rest) s) (hfuel : rest.length < fuel) :
    ∃ a' s', removeLoop equal release all fuel pre.length a s found =
        some (a', s', found || rest.any p) ∧
      Holds a' (pre ++ kept p all rest) ∧ J (pre ++ kept p all rest) s' ∧ a'.length = a.length ∧
      SameKind a a' := by
  induction rest generalizing pre fuel a s found with
  | nil =>
      obtain ⟨fuel, rfl⟩ := Nat.exists_eq_succ_of_ne_zero (Nat.ne_zero_of_lt hfuel)
      have hdone : ¬ pre.length < a.count := by
        rw [h.count_eq, List.append_nil]
        exact Nat.lt_irrefl _
      have hkept : kept p all [] = [] := by
        cases all with
        | true => rfl
        | false => rfl
      rw [hkept]
      refine ⟨a, s, ?_, h, hend _ _ hI, rfl, rfl, rfl⟩
      rw [removeLoop, if_neg hdone, List.any_nil, Bool.or_false]
  | cons e rest ih =>
      obtain ⟨fuel, rfl⟩ := Nat.exists_eq_succ_of_ne_zero (Nat.ne_zero_of_lt hfuel)
      have hi : pre.length < (pre ++ e :: rest).length := by
        rw [List.length_append, List.length_cons]
        omega
      have hread : a.entryAt pre.length = some e := by
        rw [h.entryAt hi, List.getElem_append_right (Nat.le_refl _)]
        simp
      have hcompare : equal s e = some (p e) :=
        hequal _ s hI e (List.mem_append_right pre List.mem_cons_self)
      have hmore : pre.length < a.count := h.count_eq ▸ hi
      rw [removeLoop, if_pos hmore, hread]
      simp only [Option.bind_eq_bind, Option.bind_some, hcompare]
      cases hp : p e with
      | false =>
          have hsplit : pre ++ e :: rest = pre ++ [e] ++ rest := by simp
          rw [hsplit] at h hI
          obtain ⟨a', s', hloop, hholds, hI', hlength, hkind⟩ :=
            ih found h hI (Nat.lt_of_succ_lt_succ hfuel)
          have hkept : pre ++ kept p all (e :: rest) = pre ++ [e] ++ kept p all rest := by
            rw [kept_cons_neg hp]
            simp
          rw [List.length_append, List.length_singleton] at hloop
          rw [if_neg Bool.false_ne_true, hkept, List.any_cons, hp, Bool.false_or]
          exact ⟨a', s', hloop, hholds, hI', hlength, hkind⟩
      | true =>
          obtain ⟨a', ha', hholds, hlength, hkind⟩ := removeEntryAt_holds h hi
          have herase : (pre ++ e :: rest).eraseIdx pre.length = pre ++ rest := by
            rw [List.eraseIdx_append_of_length_le (Nat.le_refl _), Nat.sub_self]
            rfl
          rw [herase] at hholds
          have hJ := hrelease pre e rest s hp hI
          rw [if_pos rfl, ha', Option.bind_some, List.any_cons, hp, Bool.true_or, Bool.or_true]
          cases all with
          | false =>
              rw [if_neg Bool.false_ne_true]
              have hkept : kept p false (e :: rest) = rest := by simp [kept, hp]
              rw [hkept]
              exact ⟨a', release e s, rfl, hholds, hJ, hlength, hkind⟩
          | true =>
              rw [if_pos rfl]
              have hkept : kept p true (e :: rest) = kept p true rest := by simp [kept, hp]
              obtain ⟨a'', s', hloop, hholds', hI'', hlength', hkind'⟩ :=
                ih true hholds (hagain rfl _ _ hJ) (Nat.lt_of_succ_lt_succ hfuel)
              rw [Bool.true_or] at hloop
              rw [hkept]
              exact ⟨a'', s', hloop, hholds', hI'', hlength'.trans hlength, hkind.trans hkind'⟩

/-- One key after the other. -/
lemma subtractLoop_holds {equal : κ → σ → ε → Option Bool} {release : ε → σ → σ} (all : Bool)
    {p : κ → ε → Bool} {I : List ε → σ → Prop} {keys : List κ}
    (hequal : ∀ key ∈ keys, ∀ l s, I l s → ∀ e ∈ l, equal key s e = some (p key e))
    (hrelease : ∀ key ∈ keys, ∀ pre e post s, p key e = true → I (pre ++ e :: post) s →
      I (pre ++ post) (release e s))
    {s : σ} (h : Holds a l) (hI : I l s) :
    ∃ a' s', subtractLoop equal release all keys a s = some (a', s') ∧
      Holds a' (keys.foldl (fun l key => kept (p key) all l) l) ∧
      I (keys.foldl (fun l key => kept (p key) all l) l) s' ∧ a'.length = a.length ∧
      SameKind a a' := by
  induction keys generalizing a l s with
  | nil => exact ⟨a, s, rfl, h, hI, rfl, rfl, rfl⟩
  | cons key keys ih =>
      rw [List.forall_mem_cons] at hequal hrelease
      have hstart : Holds a ([] ++ l) := h
      obtain ⟨a₁, s₁, hloop, hholds, hI₁, hlength, hkind⟩ := removeLoop_holds all false hequal.1
        hrelease.1 (fun _ _ _ h => h) (fun _ _ h => h) hstart hI (Nat.lt_succ_self _)
      obtain ⟨a', s', hrest, hholds', hI', hlength', hkind'⟩ := ih hequal.2 hrelease.2 hholds hI₁
      refine ⟨a', s', ?_, hholds', hI', hlength'.trans hlength, hkind.trans hkind'⟩
      rw [subtractLoop, h.count_eq]
      change (removeLoop _ _ _ _ 0 _ _ _).bind _ = _
      rw [List.length_nil] at hloop
      rw [hloop]
      exact hrest

/-- Room for all entries is room for the others behind the first one. -/
lemma HasRoomFor.rest {entries : Nat} (hroom : HasRoomFor a (entries + 1))
    (hadd : a.addEntryAt memory a.count e = some (result, a')) (hcount : a'.count = a.count + 1)
    (hkind : SameKind a a') : HasRoomFor a' entries := by
  rcases hroom with h | h | h
  · exact .inl (hkind.1 ▸ h)
  · exact .inr (.inl (hkind.2 ▸ h))
  · obtain ⟨-, hlength⟩ := addEntryAt_of_spare (by omega) hadd
    exact .inr (.inr (by omega))

/-- Entries are put behind the others, until there is no room for one. -/
lemma mergeLoop_holds (memory : Nat → Bool) (retain : ε → σ → σ) (s : σ) {entries : List ε}
    (h : Holds a l)
    (hroom : HasRoomFor a entries.length) :
    ∃ result a' k, mergeLoop memory retain entries a s =
        some (result, a', (entries.take k).foldl (fun s e => retain e s) s) ∧
      Holds a' (l ++ entries.take k) ∧ SameKind a a' ∧
      (result = .ok ∧ entries.length ≤ k ∨ result ≠ .ok ∧ k < entries.length) := by
  induction entries generalizing a l s with
  | nil =>
      refine ⟨.ok, a, 0, rfl, ?_, ⟨rfl, rfl⟩, .inl ⟨rfl, Nat.le_refl 0⟩⟩
      rw [List.take_nil, List.append_nil]
      exact h
  | cons e entries ih =>
      obtain ⟨a₁, hadd, hkind, ⟨hok, hholds⟩ | ⟨hne, rfl⟩⟩ :=
        addEntryAt_holds h hroom.hasRoom (Nat.le_refl _) memory e
      · rw [← h.count_eq] at hadd
        rw [List.take_length, List.drop_length] at hholds
        have hcount : a₁.count = a.count + 1 := by
          rw [hholds.count_eq, h.count_eq, List.length_append]
          rfl
        obtain ⟨result, a', k, hloop, hholds', hkind', hresult⟩ :=
          ih (retain e s) hholds (hroom.rest hadd hcount hkind)
        refine ⟨result, a', k + 1, ?_, ?_, hkind.trans hkind', ?_⟩
        · rw [mergeLoop, hadd, hok]
          exact hloop
        · rw [List.take_succ_cons]
          rw [List.append_assoc] at hholds'
          exact hholds'
        · rw [List.length_cons]
          rcases hresult with ⟨hr, hk⟩ | ⟨hr, hk⟩
          · exact .inl ⟨hr, Nat.succ_le_succ hk⟩
          · exact .inr ⟨hr, Nat.succ_lt_succ hk⟩
      · rw [← h.count_eq] at hadd
        refine ⟨_, a₁, 0, ?_, ?_, ⟨rfl, rfl⟩, .inr ⟨hne, Nat.zero_lt_succ _⟩⟩
        · rw [mergeLoop, hadd]
          simp only [Option.bind_eq_bind, Option.bind_some, if_neg hne, List.take_zero, List.foldl_nil]
        · rw [List.take_zero, List.append_nil]
          exact h

/-- With growth that never fails, or slots for all of them, all entries are put. -/
lemma mergeLoop_ok {retain : ε → σ → σ} {entries : List ε} {s s' : σ} (h : Holds a l)
    (hroom : HasRoomFor a entries.length)
    (hgrows : CanGrow memory a ∨ a.count + entries.length ≤ a.length)
    (hloop : mergeLoop memory retain entries a s = some (result, a', s')) : result = .ok := by
  induction entries generalizing a l s with
  | nil =>
      cases hloop
      rfl
  | cons e entries ih =>
      obtain ⟨a₁, hadd, hkind, hcases⟩ :=
        addEntryAt_holds h hroom.hasRoom (Nat.le_refl _) memory e
      rw [← h.count_eq] at hadd hcases
      have hok : (a.resize memory true).1 = .ok := by
        rcases hgrows with hgrows | hslots
        · exact resize_of_canGrow hgrows
        · rw [resize_of_spare (by rw [List.length_cons] at hslots; omega)]
      obtain ⟨-, hholds⟩ := hcases.resolve_right fun hfails => hfails.1 hok
      rw [h.count_eq, List.take_length, List.drop_length] at hholds
      have hcount : a₁.count = a.count + 1 := by
        rw [hholds.count_eq, h.count_eq, List.length_append]
        rfl
      rw [hok] at hadd
      rw [mergeLoop, hadd] at hloop
      refine ih hholds (hroom.rest hadd hcount hkind) ?_ hloop
      rcases hgrows with ⟨hstrategy, -, hmemory⟩ | hslots
      · have hle := hholds.count_le
        exact .inl ⟨hkind.1 ▸ hstrategy, by omega, hmemory⟩
      · rw [List.length_cons] at hslots
        obtain ⟨-, hlength⟩ := addEntryAt_of_spare (by omega) hadd
        exact .inr (by omega)

/-- Where the first growth fails nothing is put. -/
lemma mergeLoop_fails (retain : ε → σ → σ) (s : σ) {entries : List ε} (h : Holds a l)
    (hroom : HasRoomFor a entries.length) (hfull : a.count = a.length)
    (hfails : a.resizeStrategy = .none ∨ memory (a.targetLength true) = false) (hne : entries ≠ []) :
    ∃ result, result ≠ .ok ∧ mergeLoop memory retain entries a s = some (result, a, s) := by
  obtain ⟨e, entries, rfl⟩ := List.exists_cons_of_ne_nil hne
  have hresize : (a.resize memory true).1 ≠ .ok := by
    obtain ⟨a', ⟨hok, -, hspare, hkind⟩ | ⟨result, hresult, hresize⟩⟩ :=
      resize_increase h hroom.hasRoom memory
    · have hnot : ¬ a.count < a.length := by omega
      rw [resize] at hok
      rcases hfails with hnone | hmemory
      · rw [targetLength, if_pos rfl, if_neg hnot, if_pos hnone, if_pos rfl] at hok
        cases hok
      · rw [hmemory] at hok
        split at hok
        · cases hok
        · split at hok
          · cases hok
          · cases hok
            omega
    · rw [hresize]
      exact hresult
  obtain ⟨a₁, hadd, -, ⟨hok, -⟩ | ⟨-, rfl⟩⟩ :=
    addEntryAt_holds h hroom.hasRoom (Nat.le_refl _) memory e
  · exact absurd hok hresize
  · rw [← h.count_eq] at hadd
    refine ⟨_, hresize, ?_⟩
    rw [mergeLoop, hadd]
    simp only [Option.bind_eq_bind, Option.bind_some, if_neg hresize]

end Loops

end PbArray

end PubNub
