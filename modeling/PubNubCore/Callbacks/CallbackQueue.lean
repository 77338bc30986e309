import PubNubCore.Lib.Ring

/-!
# The queue of contexts to process

`core/pbpal_ntf_callback_queue.c`.  The queue is a ring of pointers to contexts; a `NULL` in it is
a context that has been removed.  `pbpal_ntf_callback_process_queue` holds the lock when it takes a
pointer out of the ring, and releases it for the time in which it processes the context: first it has
to get hold of the context's own lock, and then `pbnc_fsm` may use the queue as other threads do.

What the functions do with a ring that holds a list is in the lemmas with `_of_holds`.
-/

namespace PubNub

universe u

variable {C : Type u} [DecidableEq C]

/-- `struct pbpal_ntf_callback_queue`. -/
abbrev CallbackQueue (C : Type u) := Ring (Option C)

/-- The loops over the ring that look for a context: where it is. -/
def searchQueue (size : Nat) (queue : CallbackQueue C) (pb : C) : Nat → Nat → Option (Option Nat)
  | 0, _ => none
  | fuel + 1, i =>
      if i = queue.head then some none
      else if queue.cells i = some pb then some (some i)
      else searchQueue size queue pb fuel (Ring.next size i)

/-- `pbpal_ntf_callback_enqueue_for_processing`. -/
def enqueueForProcessing (size : Nat) (queue : CallbackQueue C) (pb : C) : CallbackQueue C × Int :=
  if Ring.next size queue.head ≠ queue.tail then (queue.push size (some pb), 1) else (queue, -1)

/-- `pbpal_ntf_callback_requeue_for_processing`. -/
def requeueForProcessing (size : Nat) (queue : CallbackQueue C) (pb : C) :
    Option (CallbackQueue C × Int) :=
  (searchQueue size queue pb size queue.tail).map fun found =>
    if found.isSome then (queue, 0) else enqueueForProcessing size queue pb

/-- `pbpal_ntf_callback_remove_from_queue`. -/
def removeFromQueue (size : Nat) (queue : CallbackQueue C) (pb : C) : Option (CallbackQueue C) :=
  (searchQueue size queue pb size queue.tail).map fun found =>
    (found.map fun i => queue.set i none).getD queue

/-- The pointer that the loop of `pbpal_ntf_callback_process_queue` takes out, if there is one. -/
def takeOut (size : Nat) (queue : CallbackQueue C) : Option (Option C × CallbackQueue C) :=
  if queue.head ≠ queue.tail then some (queue.cells queue.tail, queue.pop size) else none

/-! ## What they do -/

section Specs

variable {size : Nat} {queue : CallbackQueue C} {pb : C} {l u v w : List (Option C)}

/-- A context that is there is found at its first place. -/
lemma searchQueue_found {fuel : Nat} (h : queue.Holds size (w ++ (u ++ some pb :: v)))
    (hu : some pb ∉ u) (hfuel : u.length < fuel) :
    searchQueue size queue pb fuel (Ring.place size queue.tail w.length) =
      some (some (Ring.place size queue.tail (w ++ u).length)) := by
  induction u generalizing w fuel with
  | nil =>
      obtain ⟨fuel, rfl⟩ := Nat.exists_eq_succ_of_ne_zero (Nat.ne_zero_of_lt hfuel)
      rw [searchQueue, if_neg h.place_ne_head, if_pos h.cell_append, List.append_nil]
  | cons a u ih =>
      obtain ⟨fuel, rfl⟩ := Nat.exists_eq_succ_of_ne_zero (Nat.ne_zero_of_lt hfuel)
      rw [List.mem_cons, not_or] at hu
      have hcell : queue.cells (Ring.place size queue.tail w.length) ≠ some pb := by
        rw [h.cell_append]
        exact fun heq => hu.1 heq.symm
      have hw : w.length < size := by
        have hshort := h.short
        rw [List.length_append] at hshort
        omega
      have hlist : w ++ (a :: u ++ some pb :: v) = (w ++ [a]) ++ (u ++ some pb :: v) := by
        simp only [List.append_assoc, List.cons_append, List.nil_append]
      have hplace : w.length + 1 = (w ++ [a]).length := by simp
      have hwhole : w ++ a :: u = w ++ [a] ++ u := by simp
      rw [searchQueue, if_neg h.place_ne_head, if_neg hcell, Ring.next_place h.tail_lt hw, hplace, hwhole]
      rw [hlist] at h
      exact ih h hu.2 (Nat.lt_of_succ_lt_succ hfuel)

/-- A context that is not there is not found. -/
lemma searchQueue_absent {fuel : Nat} (h : queue.Holds size (w ++ u)) (hu : some pb ∉ u)
    (hfuel : u.length < fuel) :
    searchQueue size queue pb fuel (Ring.place size queue.tail w.length) = some none := by
  induction u generalizing w fuel with
  | nil =>
      obtain ⟨fuel, rfl⟩ := Nat.exists_eq_succ_of_ne_zero (Nat.ne_zero_of_lt hfuel)
      rw [List.append_nil] at h
      rw [searchQueue, if_pos h.head_eq.symm]
  | cons a u ih =>
      obtain ⟨fuel, rfl⟩ := Nat.exists_eq_succ_of_ne_zero (Nat.ne_zero_of_lt hfuel)
      rw [List.mem_cons, not_or] at hu
      have hcell : queue.cells (Ring.place size queue.tail w.length) ≠ some pb := by
        rw [h.cell_append]
        exact fun heq => hu.1 heq.symm
      have hw : w.length < size := by
        have hshort := h.short
        rw [List.length_append] at hshort
        omega
      have hlist : w ++ a :: u = (w ++ [a]) ++ u := by simp
      have hplace : w.length + 1 = (w ++ [a]).length := by simp
      rw [searchQueue, if_neg h.place_ne_head, if_neg hcell, Ring.next_place h.tail_lt hw, hplace]
      rw [hlist] at h
      exact ih h hu.2 (Nat.lt_of_succ_lt_succ hfuel)

lemma searchQueue_of_mem (h : queue.Holds size (u ++ some pb :: v)) (hu : some pb ∉ u) :
    searchQueue size queue pb size queue.tail =
      some (some (Ring.place size queue.tail u.length)) := by
  have hfuel : u.length < size := by
    have hshort := h.short
    rw [List.length_append] at hshort
    omega
  have hstart : queue.Holds size ([] ++ (u ++ some pb :: v)) := h
  have hfound := searchQueue_found hstart hu hfuel
  rwa [List.length_nil, Ring.place_zero h.tail_lt, List.nil_append] at hfound

lemma searchQueue_of_not_mem (h : queue.Holds size l) (hl : some pb ∉ l) :
    searchQueue size queue pb size queue.tail = some none := by
  have hstart : queue.Holds size ([] ++ l) := h
  have habsent := searchQueue_absent hstart hl h.short
  rwa [List.length_nil, Ring.place_zero h.tail_lt] at habsent

omit [DecidableEq C] in
/-- A context goes behind the others, or is rejected when there is no room. -/
lemma enqueueForProcessing_of_holds (pb : C) (h : queue.Holds size l) :
    (l.length + 1 < size ∧ (enqueueForProcessing size queue pb).2 = 1 ∧
      (enqueueForProcessing size queue pb).1.Holds size (l ++ [some pb])) ∨
    (l.length + 1 = size ∧ enqueueForProcessing size queue pb = (queue, -1)) := by
  have hshort := h.short
  rw [enqueueForProcessing]
  by_cases hfull : l.length + 1 = size
  · rw [if_neg (not_not.mpr (h.full_iff.mpr hfull))]
    exact .inr ⟨hfull, rfl⟩
  · rw [if_pos fun heq => hfull (h.full_iff.mp heq)]
    exact .inl ⟨by omega, rfl, h.push (by omega)⟩

/-- A context that is there stays where it is. -/
lemma requeueForProcessing_of_holds (h : queue.Holds size l) :
    requeueForProcessing size queue pb =
      some (if some pb ∈ l then (queue, 0) else enqueueForProcessing size queue pb) := by
  rw [requeueForProcessing]
  by_cases hmem : some pb ∈ l
  · obtain ⟨u, v, rfl, hu⟩ := List.eq_append_cons_of_mem hmem
    rw [searchQueue_of_mem h hu, if_pos hmem]
    rfl
  · rw [searchQueue_of_not_mem h hmem, if_neg hmem]
    rfl

/-- Of a context that is there the first pointer becomes `NULL`. -/
lemma removeFromQueue_of_mem (h : queue.Holds size (u ++ some pb :: v)) (hu : some pb ∉ u) :
    ∃ queue', removeFromQueue size queue pb = some queue' ∧
      queue'.Holds size (u ++ none :: v) := by
  refine ⟨_, ?_, h.set⟩
  rw [removeFromQueue, searchQueue_of_mem h hu]
  rfl

lemma removeFromQueue_of_not_mem (h : queue.Holds size l) (hl : some pb ∉ l) :
    removeFromQueue size queue pb = some queue := by
  rw [removeFromQueue, searchQueue_of_not_mem h hl]
  rfl

omit [DecidableEq C] in
/-- The first pointer is taken out. -/
lemma takeOut_of_holds {a : Option C} (h : queue.Holds size (a :: l)) :
    ∃ queue', takeOut size queue = some (a, queue') ∧ queue'.Holds size l := by
  have hne : queue.head ≠ queue.tail := fun heq => by
    cases h.head_eq_tail_iff.mp heq
  rw [takeOut, if_pos hne, h.pop.1]
  exact ⟨_, rfl, h.pop.2⟩

omit [DecidableEq C] in
lemma takeOut_of_empty (h : queue.Holds size []) : takeOut size queue = none :=
  if_neg (not_not.mpr (h.head_eq_tail_iff.mpr rfl))

end Specs

end PubNub
