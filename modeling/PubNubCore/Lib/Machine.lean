import Mathlib.Data.List.Basic

/-!
# Machines and their guarded runs

Everything stateful in this development is a **machine**: an initial state and a partial
step function `σ → α → Option σ`.  The label `α` of a step carries whatever the program does
not decide for itself (which call the user makes, what the network answers), so that the step
function stays computable and a run can be replayed.

A **guarded run** is a run each of whose steps meets a condition on the state before the step
and on its label.  With the guard `⊤` these are all the runs of the machine.  A result of the
form "the program behaves well as long as it is never asked to do this there" is a statement
about the guarded runs, and one induction rule serves it: `Machine.Reachable.invariant`.
-/

namespace PubNub

universe u v

variable {σ : Type u} {α : Type v}

/-- A deterministic machine with labelled steps; `none` is a step which the label does not
    allow in that state. -/
structure Machine (σ : Type u) (α : Type v) where
  init : σ
  step : σ → α → Option σ

namespace Machine

variable (M : Machine σ α) {G G' : σ → α → Prop} {P Q : σ → Prop}

/-- The states reached by runs whose steps all meet the guard `G`. -/
inductive Reachable (G : σ → α → Prop) : σ → Prop
  | init : Reachable G M.init
  | step {s s' : σ} {a : α} : Reachable G s → G s a → M.step s a = some s' → Reachable G s'

/-- The guard which every step meets. -/
def anyStep : σ → α → Prop := fun _ _ => True

/-- Replays a list of labels as long as they pass a test. -/
def replay (test : σ → α → Bool) : σ → List α → Option σ
  | s, [] => some s
  | s, a :: as => if test s a then (M.step s a).bind fun s' => replay test s' as else none

variable {M}

/-- A replay from a reachable state ends in a reachable state. -/
lemma Reachable.replay {test : σ → α → Bool} (hG : ∀ s a, test s a = true → G s a) :
    ∀ {as : List α} {s s' : σ}, M.Reachable G s → M.replay test s as = some s' →
      M.Reachable G s'
  | [], _, _, hr, h => by
      simp only [Machine.replay, Option.some.injEq] at h
      exact h ▸ hr
  | a :: as, s, s', hr, h => by
      simp only [Machine.replay, Option.ite_none_right_eq_some, Option.bind_eq_some_iff] at h
      obtain ⟨htest, t, hst, ht⟩ := h
      exact Reachable.replay hG (hr.step (hG s a htest) hst) ht

/-- A run that can be replayed reaches a state with the property found at its end. -/
lemma exists_reachable_of_replay (M : Machine σ α) (test : σ → α → Bool) (as : List α)
    (p : σ → Bool) (hG : ∀ s a, test s a = true → G s a)
    (h : (M.replay test M.init as).any p = true) :
    ∃ s, M.Reachable G s ∧ p s = true := by
  cases hs : M.replay test M.init as with
  | none => exact absurd h (by simp [hs])
  | some s => exact ⟨s, Reachable.replay hG .init hs, by simpa [hs] using h⟩

/-- **The invariant rule.**  What holds initially and is kept by every step that meets the
    guard holds of every state a guarded run reaches.  The step may use a property `Q` that is
    already known of those states. -/
theorem Reachable.invariant_of (hQ : ∀ s, M.Reachable G s → Q s) (h0 : P M.init)
    (hs : ∀ s a s', Q s → P s → G s a → M.step s a = some s' → P s') {s : σ}
    (hr : M.Reachable G s) : P s := by
  induction hr with
  | init => exact h0
  | step hr hg hst ih => exact hs _ _ _ (hQ _ hr) ih hg hst

/-- `Reachable.invariant_of` with nothing known beforehand. -/
theorem Reachable.invariant (h0 : P M.init)
    (hs : ∀ s a s', P s → G s a → M.step s a = some s' → P s') {s : σ}
    (hr : M.Reachable G s) : P s :=
  hr.invariant_of (Q := fun _ => True) (fun _ _ => trivial) h0
    fun s a s' _ => hs s a s'

/-- A weaker guard allows every run a stronger one does. -/
lemma Reachable.mono (h : ∀ s a, G s a → G' s a) {s : σ} (hr : M.Reachable G s) :
    M.Reachable G' s := by
  induction hr with
  | init => exact .init
  | step _ hg hst ih => exact ih.step (h _ _ hg) hst

end Machine

end PubNub
