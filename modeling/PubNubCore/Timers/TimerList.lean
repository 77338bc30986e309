import Mathlib.Algebra.Order.BigOperators.Group.List
import Mathlib.Algebra.Order.Ring.Int
import Mathlib.Logic.Function.Basic
import PubNubCore.Lib.DoublyLinked

/-!
# The list of timers

`core/pubnub_timer_list.c`.  A context has at most one timer, and the pointers of the list are fields
of the contexts.  The timers stand in the order in which they expire, and each of them has the time
that is left after the one before it has expired: what is left of a timer altogether is the sum of
what is left up to it.  So time goes by for all of them with a change to the first one.

The three functions are given pieces of a list by what is left altogether: `Timed` says that the
differences of a piece are those of the times that remain.  What one of the functions does is in
`pubnubTimerListAdd_eq`, `pubnubTimerListRemove_eq` and `pubnubTimerListAsTimeGoesBy_eq`.
-/

namespace PubNub

universe u

variable {C : Type u}

/-- The fields of the contexts that the list of timers uses. -/
structure Timers (C : Type u) where
  previous : C → Option C
  next : C → Option C
  timeoutLeft : C → Int

/-- An `int`; the result is none where it overflows. -/
def asSignedInt (n : Int) : Option Int := if -2 ^ 31 ≤ n ∧ n < 2 ^ 31 then some n else none

section Operations

variable [DecidableEq C]

namespace Timers

variable (h : Timers C) (c : C)

/-- Writes to a field. -/
def setPrevious (p : Option C) : Timers C := { h with previous := Function.update h.previous c p }

def setNext (p : Option C) : Timers C := { h with next := Function.update h.next c p }

def setTimeoutLeft (t : Int) : Timers C :=
  { h with timeoutLeft := Function.update h.timeoutLeft c t }

variable {h c} {p : Option C} {t : Int}

@[simp] lemma previous_setPrevious :
    (h.setPrevious c p).previous = Function.update h.previous c p := rfl

@[simp] lemma next_setPrevious : (h.setPrevious c p).next = h.next := rfl

@[simp] lemma timeoutLeft_setPrevious : (h.setPrevious c p).timeoutLeft = h.timeoutLeft := rfl

@[simp] lemma previous_setNext : (h.setNext c p).previous = h.previous := rfl

@[simp] lemma next_setNext : (h.setNext c p).next = Function.update h.next c p := rfl

@[simp] lemma timeoutLeft_setNext : (h.setNext c p).timeoutLeft = h.timeoutLeft := rfl

@[simp] lemma previous_setTimeoutLeft : (h.setTimeoutLeft c t).previous = h.previous := rfl

@[simp] lemma next_setTimeoutLeft : (h.setTimeoutLeft c t).next = h.next := rfl

@[simp] lemma timeoutLeft_setTimeoutLeft :
    (h.setTimeoutLeft c t).timeoutLeft = Function.update h.timeoutLeft c t := rfl

end Timers

/-! ## The functions -/

/-- The timer goes behind the last one. -/
def appendTimer (h : Timers C) (pbp toAdd : C) (timeout : Int) : Timers C :=
  (((h.setNext pbp (some toAdd)).setPrevious toAdd (some pbp)).setNext toAdd none).setTimeoutLeft
    toAdd timeout

/-- The timer goes before one that has another one before it. -/
def insertTimer (h : Timers C) (pbp toAdd : C) (timeout : Int) : Option (Timers C) :=
  (asSignedInt (h.timeoutLeft pbp - timeout)).bind fun left =>
    let h := ((h.setTimeoutLeft pbp left).setNext toAdd (some pbp)).setPrevious toAdd
      (h.previous pbp)
    (h.previous pbp).map fun before =>
      ((h.setNext before (some toAdd)).setPrevious pbp (some toAdd)).setTimeoutLeft toAdd timeout

/-- The loop of `pubnub_timer_list_add`. -/
def addLoop (toAdd : C) : Nat → Timers C → (pbp : C) → (timeout : Int) → Option (Timers C)
  | 0, _, _, _ => none
  | fuel + 1, h, pbp, timeout =>
      if h.timeoutLeft pbp ≤ timeout then
        (asSignedInt (timeout - h.timeoutLeft pbp)).bind fun timeout =>
          match h.next pbp with
          | none => some (appendTimer h pbp toAdd timeout)
          | some pbp => if pbp = toAdd then none else addLoop toAdd fuel h pbp timeout
      else insertTimer h pbp toAdd timeout

/-- `pubnub_timer_list_add`; the contexts and the head of the list then.  It is `none` where an
    assertion fails, where a pointer that is followed is `NULL` and where an `int` overflows. -/
def pubnubTimerListAdd (fuel : Nat) (h : Timers C) (list : Option C) (toAdd : C) (timeout : Int) :
    Option (Timers C × Option C) :=
  if timeout ≤ 0 then none
  else match list with
    | none =>
        some (((h.setPrevious toAdd none).setNext toAdd none).setTimeoutLeft toAdd timeout,
          some toAdd)
    | some list =>
        if list = toAdd then none
        else if timeout < h.timeoutLeft list then
          (asSignedInt (h.timeoutLeft list - timeout)).map fun left =>
            (((((h.setTimeoutLeft list left).setNext toAdd (some list)).setPrevious toAdd
              none).setPrevious list (some toAdd)).setTimeoutLeft toAdd timeout, some toAdd)
        else (addLoop toAdd fuel h list timeout).map fun h => (h, some list)

/-- The timer that is removed is in no list any more. -/
def unlink (h : Timers C) (toRemove : C) : Timers C :=
  (h.setPrevious toRemove none).setNext toRemove none

/-- `pubnub_timer_list_remove`. -/
def pubnubTimerListRemove (h : Timers C) (list : Option C) (toRemove : C) :
    Option (Timers C × Option C) :=
  list.bind fun list =>
    if list = toRemove then
      match h.next list with
      | none => some (unlink h toRemove, none)
      | some list =>
          (asSignedInt (h.timeoutLeft list + h.timeoutLeft toRemove)).map fun left =>
            (unlink ((h.setTimeoutLeft list left).setPrevious list none) toRemove, some list)
    else
      match h.next toRemove with
      | none =>
          (h.previous toRemove).map fun before =>
            ((h.setNext before none).setPrevious toRemove none, some list)
      | some behind =>
          (asSignedInt (h.timeoutLeft behind + h.timeoutLeft toRemove)).bind fun left =>
            (h.previous toRemove).map fun before =>
              (unlink (((h.setTimeoutLeft behind left).setNext before (some behind)).setPrevious
                behind (some before)) toRemove, some list)

/-- The list from here on is what is left. -/
def splitTimers (h : Timers C) (list : C) (time : Int) : Option (Timers C × Option C) :=
  (asSignedInt (h.timeoutLeft list - time)).bind fun left =>
    (h.previous list).map fun before =>
      (((h.setTimeoutLeft list left).setNext before none).setPrevious list none, some list)

/-- The loop of `pubnub_timer_list_as_time_goes_by`; the contexts and `*pplist` then. -/
def goesByLoop : Nat → Timers C → (list : C) → (time : Int) → Option (Timers C × Option C)
  | 0, _, _, _ => none
  | fuel + 1, h, list, time =>
      if h.timeoutLeft list ≤ time then
        (asSignedInt (time - h.timeoutLeft list)).bind fun time =>
          match h.next list with
          | none => some (h, none)
          | some list => goesByLoop fuel h list time
      else splitTimers h list time

/-- `pubnub_timer_list_as_time_goes_by`; the contexts, `*pplist` and the list of those that have
    expired. -/
def pubnubTimerListAsTimeGoesBy (fuel : Nat) (h : Timers C) (pplist : Option C) (time : Int) :
    Option (Timers C × Option C × Option C) :=
  if time ≤ 0 then none
  else match pplist with
    | none => some (h, none, none)
    | some list =>
        if time < h.timeoutLeft list then
          (asSignedInt (h.timeoutLeft list - time)).map fun left =>
            (h.setTimeoutLeft list left, some list, none)
        else (goesByLoop fuel h list time).map fun (h, pplist) => (h, pplist, some list)

end Operations

/-! ## What is left altogether -/

/-- The differences of a piece of the list are those of the times that remain; `time` remains for
    the timer before it. -/
def Timed (timeoutLeft remaining : C → Int) : (time : Int) → List C → Prop
  | _, [] => True
  | time, c :: l =>
      0 ≤ timeoutLeft c ∧ remaining c = time + timeoutLeft c ∧ Timed timeoutLeft remaining
        (remaining c) l

namespace Timed

variable {timeoutLeft timeoutLeft' remaining remaining' : C → Int} {time : Int} {l u v : List C}
  {c : C}

lemma congr (h : Timed timeoutLeft remaining time l)
    (ht : ∀ c ∈ l, timeoutLeft' c = timeoutLeft c) (hr : ∀ c ∈ l, remaining' c = remaining c) :
    Timed timeoutLeft' remaining' time l := by
  induction l generalizing time with
  | nil => trivial
  | cons c l ih =>
      obtain ⟨hpos, heq, hrest⟩ := h
      rw [Timed, ht c List.mem_cons_self, hr c List.mem_cons_self]
      exact ⟨hpos, heq, ih hrest (fun d hd => ht d (List.mem_cons_of_mem c hd)) fun d hd =>
        hr d (List.mem_cons_of_mem c hd)⟩

/-- What remains for the last timer of a piece. -/
def last (remaining : C → Int) (time : Int) (u : List C) : Int := (u.getLast?.map remaining).getD time

lemma last_cons : last remaining time (c :: u) = last remaining (remaining c) u := by
  cases u with
  | nil => rfl
  | cons d u => rw [last, last, List.getLast?_cons_cons, List.getLast?_eq_getLast_of_ne_nil (by simp)]; rfl

/-- Two pieces one behind the other. -/
lemma append_iff : Timed timeoutLeft remaining time (u ++ v) ↔
    Timed timeoutLeft remaining time u ∧
      Timed timeoutLeft remaining (last remaining time u) v := by
  induction u generalizing time with
  | nil => exact (and_iff_right trivial).symm
  | cons c u ih => rw [List.cons_append, Timed, Timed, ih, last_cons, and_assoc, and_assoc]

/-- Nothing that is behind expires earlier. -/
lemma le_remaining (h : Timed timeoutLeft remaining time l) : ∀ c ∈ l, time ≤ remaining c := by
  induction l generalizing time with
  | nil =>
      intro c hc
      cases hc
  | cons d l ih =>
      obtain ⟨hpos, heq, hrest⟩ := h
      intro c hc
      rcases List.mem_cons.mp hc with rfl | hc
      · omega
      · have hle := ih hrest c hc
        omega

/-- The timers stand in the order in which they expire. -/
lemma pairwise (h : Timed timeoutLeft remaining time l) :
    l.Pairwise fun c d => remaining c ≤ remaining d := by
  induction l generalizing time with
  | nil => exact List.Pairwise.nil
  | cons c l ih => exact List.pairwise_cons.mpr ⟨h.2.2.le_remaining, ih h.2.2⟩

/-- What remains is the sum of the differences. -/
lemma remaining_eq_sum (h : Timed timeoutLeft remaining time (u ++ c :: v)) :
    remaining c = time + ((u ++ [c]).map timeoutLeft).sum := by
  induction u generalizing time with
  | nil =>
      rw [List.nil_append, List.map_singleton, List.sum_singleton]
      exact h.2.1
  | cons d u ih =>
      obtain ⟨-, heq, hrest⟩ := h
      rw [ih hrest, heq, List.cons_append, List.map_cons, List.sum_cons, Int.add_assoc]

end Timed

end PubNub
