import Mathlib.Data.List.Basic

/-!
# Paths over a recursive lock

A **path** is what one thread does with a lock which it may take again while it holds it, and with
what the lock protects: a list of events.  `LockEvent.depth` follows a path and counts how often the
lock is held; it fails where something is accessed without the lock, or the lock is given back
without being held.  A path that can be followed from zero to zero keeps the rules
(`KeepsMonitor`), and paths can be put together as long as the counts fit.
-/

namespace PubNub

/-- What a thread does with a lock, and with what it protects. -/
inductive LockEvent
  | lock | unlock | access
  deriving DecidableEq, Repr

/-- The rules of a lock: it is given back as often as it is taken, and every access happens between
    taking it and giving it back. -/
structure KeepsMonitor (path : List LockEvent) : Prop where
  released : path.count .unlock = path.count .lock
  guarded : ∀ before after, path = before ++ .access :: after →
    before.count .unlock < before.count .lock

namespace LockEvent

variable {path path' : List LockEvent} {n m k : Nat}

/-- How often the lock is held after a path, if it is held at every access and is only given back
    where it is held. -/
def depth : Nat → List LockEvent → Option Nat
  | n, [] => some n
  | n, .lock :: path => depth (n + 1) path
  | 0, .unlock :: _ => none
  | n + 1, .unlock :: path => depth n path
  | 0, .access :: _ => none
  | n + 1, .access :: path => depth (n + 1) path

@[simp] lemma depth_nil : depth n [] = some n := by
  cases n
  all_goals rfl

@[simp] lemma depth_lock : depth n (.lock :: path) = depth (n + 1) path := by
  cases n
  all_goals rfl

@[simp] lemma depth_unlock : depth (n + 1) (.unlock :: path) = depth n path := rfl

@[simp] lemma depth_access : depth (n + 1) (.access :: path) = depth (n + 1) path := rfl

/-- Two paths one after the other. -/
lemma depth_append : depth n (path ++ path') = (depth n path).bind fun k => depth k path' := by
  induction path generalizing n with
  | nil => simp
  | cons e path ih =>
      rw [List.cons_append]
      cases e with
      | lock =>
          rw [depth_lock, depth_lock]
          exact ih
      | unlock =>
          cases n with
          | zero => rfl
          | succ n => exact ih
      | access =>
          cases n with
          | zero => rfl
          | succ n => exact ih

/-- The rule of composition. -/
lemma depth_trans (h : depth n path = some k) (h' : depth k path' = some m) :
    depth n (path ++ path') = some m := by
  rw [depth_append, h]
  exact h'

/-- Any number of accesses, while the lock is held. -/
lemma depth_replicate_access (n k : Nat) :
    depth (n + 1) (List.replicate k .access) = some (n + 1) := by
  induction k with
  | zero => rfl
  | succ k ih =>
      rw [List.replicate_succ, depth_access]
      exact ih

/-- What has been taken is what is held and what has been given back. -/
lemma depth_count (h : depth n path = some m) :
    n + path.count .lock = m + path.count .unlock := by
  induction path generalizing n with
  | nil =>
      rw [depth_nil, Option.some.injEq] at h
      simp [h]
  | cons e path ih =>
      cases e with
      | lock =>
          rw [depth_lock] at h
          have := ih h
          simp only [List.count_cons_self, List.count_cons_of_ne (a := unlock) (b := lock) nofun]
          omega
      | unlock =>
          cases n with
          | zero => cases h
          | succ n =>
              have := ih h
              simp only [List.count_cons_self, List.count_cons_of_ne (a := lock) (b := unlock) nofun]
              omega
      | access =>
          cases n with
          | zero => cases h
          | succ n =>
              have := ih h
              simp only [List.count_cons_of_ne (a := lock) (b := access) nofun,
                List.count_cons_of_ne (a := unlock) (b := access) nofun]
              omega

/-- **What following a path tells**: its accesses are guarded, and it keeps the rules exactly if it
    gives back what it has taken. -/
theorem keepsMonitor_iff (h : depth 0 path = some m) : KeepsMonitor path ↔ m = 0 := by
  have hcount := depth_count h
  constructor
  · intro hk
    have := hk.released
    omega
  · rintro rfl
    refine ⟨by omega, ?_⟩
    rintro before after rfl
    rw [depth_append] at h
    obtain ⟨k, hbefore, hafter⟩ := Option.bind_eq_some_iff.mp h
    have hbefore := depth_count hbefore
    cases k with
    | zero => cases hafter
    | succ k => omega

/-! ## What a path adds -/

/-- Wherever the lock is held at least `held` times, the path can be followed, and leaves it held
    `m` times more. -/
def Adds (held m : Nat) (path : List LockEvent) : Prop :=
  ∀ n, held ≤ n → depth n path = some (n + m)

variable {held held' : Nat}

lemma adds_nil : Adds 0 0 [] := by
  intro n _
  exact depth_nil

lemma adds_lock : Adds 0 1 [.lock] := by
  intro n _
  rw [depth_lock, depth_nil]

lemma adds_accesses (k : Nat) : Adds 1 0 (List.replicate k .access) := by
  intro n hn
  obtain ⟨n, rfl⟩ := Nat.exists_eq_add_of_le' hn
  exact depth_replicate_access n k

lemma Adds.mono (h : Adds held m path) (hle : held ≤ held') : Adds held' m path := by
  intro n hn
  exact h n (Nat.le_trans hle hn)

/-- The rule of composition. -/
lemma Adds.append (h : Adds held m path) (h' : Adds held k path') :
    Adds held (m + k) (path ++ path') := by
  intro n hn
  rw [← Nat.add_assoc]
  exact depth_trans (h n hn) (h' (n + m) (by omega))

/-- What happens between taking the lock and giving it back. -/
lemma Adds.locked (h : Adds 1 m path) : Adds 0 m (.lock :: path ++ [.unlock]) := by
  intro n _
  have hpath : depth n (.lock :: path) = some (n + m + 1) := by
    rw [depth_lock, h (n + 1) (by omega)]
    exact congrArg some (by omega)
  exact depth_trans hpath (by rw [depth_unlock, depth_nil])

lemma Adds.cons_access (h : Adds 1 m path) : Adds 1 m (.access :: path) := by
  intro n hn
  obtain ⟨n, rfl⟩ := Nat.exists_eq_add_of_le' hn
  rw [depth_access]
  exact h (n + 1) hn

lemma Adds.append_access (h : Adds 1 m path) : Adds 1 m (path ++ [.access]) := by
  have hpath := h.append (adds_nil.mono (Nat.zero_le 1)).cons_access
  rw [Nat.add_zero] at hpath
  exact hpath

/-- A path which can be followed from nothing. -/
theorem Adds.keepsMonitor_iff (h : Adds 0 m path) : KeepsMonitor path ↔ m = 0 :=
  LockEvent.keepsMonitor_iff ((h 0 (Nat.le_refl 0)).trans (by rw [Nat.zero_add]))

end LockEvent

end PubNub
