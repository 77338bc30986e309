import Mathlib.Data.List.Basic
import Mathlib.Data.List.Count

/-!
# Journals of sessions

A journal lists what has happened, the newest first.  Its events belong to **sessions**, which
are numbered in the order in which they are opened.  At most one session is open at any time:
while it is, things happen within it, and then it is closed, or it is left open and the next one
is opened.  A `Mark` says what an event means for the sessions, and `phase` reads a journal as
far as it keeps to these rules.

What follows for any journal that can be read: a session is closed at most once
(`countP_closes_le_one`), and nothing that comes after its end belongs to it
(`not_session_after_close`).
-/

namespace PubNub

universe u

/-- What an event means for the sessions. -/
inductive Mark
  | opens (n : ℕ) | within (n : ℕ) | closes (n : ℕ) | aside
  deriving DecidableEq, Repr

/-- The session to which an event belongs. -/
def Mark.session : Mark → Option ℕ
  | .opens n | .within n | .closes n => some n
  | .aside => none

/-- How far a journal has come: no session is open and the next one will be the `n`-th, or the
    `n`-th session is open. -/
inductive Phase
  | free (n : ℕ) | busy (n : ℕ)
  deriving DecidableEq, Repr

namespace Phase

/-- How an event moves the journal on. -/
def advance : Phase → Mark → Option Phase
  | .free n, .opens m => if m = n then some (.busy m) else none
  | .busy n, .opens m => if m = n + 1 then some (.busy m) else none
  | .busy n, .within m => if m = n then some (.busy n) else none
  | .busy n, .closes m => if m = n then some (.free (n + 1)) else none
  | p, .aside => some p
  | .free _, .within _ | .free _, .closes _ => none

/-- The number of sessions that have been opened. -/
def opened : Phase → ℕ
  | .free n => n
  | .busy n => n + 1

/-- The sessions below this number are over. -/
def closed : Phase → ℕ
  | .free n | .busy n => n

variable {p q : Phase} {m : Mark} {n : ℕ}

/-- No event makes a session go on that is over. -/
lemma closed_le_of_advance (h : p.advance m = some q) :
    p.closed ≤ q.closed ∧ (∀ n, m.session = some n → p.closed ≤ n) ∧ (m = .closes n → n < q.closed) := by
  cases p <;> cases m <;> simp only [advance, Option.ite_none_right_eq_some, Option.some.injEq,
    reduceCtorEq] at h
  case free.aside | busy.aside => simp [← h, closed, Mark.session]
  all_goals
    obtain ⟨rfl, rfl⟩ := h
    simp only [closed, Mark.session, Option.some.injEq, reduceCtorEq, Mark.closes.injEq]
    exact ⟨by omega, fun n hn => by omega, fun hn => by cases hn <;> omega⟩

end Phase

variable {ε : Type u} (mark : ε → Option Mark)

/-- The phase in which a journal ends; an event without a mark is against the rules. -/
def phase : List ε → Option Phase
  | [] => some (.free 0)
  | e :: log => (phase log).bind fun p => (mark e).bind p.advance

/-- The event closes the `n`-th session. -/
def closes (n : ℕ) (e : ε) : Bool := mark e == some (.closes n)

variable {mark} {log newer older : List ε} {e : ε} {p q : Phase} {n : ℕ}

lemma phase_cons (h : phase mark (e :: log) = some q) :
    ∃ p m, phase mark log = some p ∧ mark e = some m ∧ p.advance m = some q := by
  obtain ⟨p, hp, h⟩ := Option.bind_eq_some_iff.mp h
  obtain ⟨m, hm, h⟩ := Option.bind_eq_some_iff.mp h
  exact ⟨p, m, hp, hm, h⟩

/-- Every event of a journal has a mark. -/
lemma exists_mark (h : phase mark log = some p) (he : e ∈ log) : ∃ m, mark e = some m := by
  induction log generalizing p with
  | nil => cases he
  | cons e' log ih =>
      obtain ⟨q, m, hq, hm, _⟩ := phase_cons h
      rcases List.mem_cons.mp he with rfl | he
      · exact ⟨m, hm⟩
      · exact ih hq he

/-- The older part of a journal can be read, too, and no more is over there. -/
lemma exists_phase_older (h : phase mark (newer ++ older) = some q) :
    ∃ p, phase mark older = some p ∧ p.closed ≤ q.closed := by
  induction newer generalizing q with
  | nil => exact ⟨q, h, Nat.le_refl _⟩
  | cons e newer ih =>
      obtain ⟨r, m, hr, _, hq⟩ := phase_cons h
      obtain ⟨p, hp, hle⟩ := ih hr
      exact ⟨p, hp, Nat.le_trans hle (Phase.closed_le_of_advance (n := 0) hq).1⟩

/-- A session that has been closed is over. -/
lemma lt_closed_of_closes (h : phase mark log = some p) (he : e ∈ log)
    (hm : mark e = some (.closes n)) : n < p.closed := by
  obtain ⟨newer, older, rfl⟩ := List.append_of_mem he
  obtain ⟨q, hq, hle⟩ := exists_phase_older h
  obtain ⟨_, m, _, hm', hadv⟩ := phase_cons hq
  obtain rfl := Option.some.inj (hm'.symm.trans hm)
  exact Nat.lt_of_lt_of_le ((Phase.closed_le_of_advance hadv).2.2 rfl) hle

/-- **Nothing that comes after the end of a session belongs to it.** -/
lemma not_session_after_close (h : phase mark (newer ++ e :: older) = some p)
    (hm : mark e = some (.closes n)) {e' : ε} (he : e' ∈ newer) :
    (mark e').bind Mark.session ≠ some n := by
  obtain ⟨late, early, rfl⟩ := List.append_of_mem he
  rw [List.append_assoc] at h
  obtain ⟨q, hq, _⟩ := exists_phase_older h
  obtain ⟨r, m, hr, hm', hadv⟩ := phase_cons hq
  have hclosed : n < r.closed := lt_closed_of_closes hr (by simp) hm
  intro hses
  rw [hm'] at hses
  exact absurd ((Phase.closed_le_of_advance (n := n) hadv).2.1 n hses) (by omega)

/-- **A session is closed at most once.** -/
lemma countP_closes_le_one (h : phase mark log = some p) (n : ℕ) :
    log.countP (closes mark n) ≤ 1 := by
  induction log generalizing p with
  | nil => simp
  | cons e log ih =>
      obtain ⟨q, m, hq, hm, hadv⟩ := phase_cons h
      rw [List.countP_cons]
      split
      · rename_i hc
        have hcl : mark e = some (.closes n) := eq_of_beq hc
        have hnone : log.countP (closes mark n) = 0 := by
          rw [List.countP_eq_zero]
          intro e' he' hc'
          have hlt : n < q.closed := lt_closed_of_closes hq he' (eq_of_beq hc')
          obtain rfl := Option.some.inj (hm.symm.trans hcl)
          exact absurd ((Phase.closed_le_of_advance (n := n) hadv).2.1 n rfl) (by omega)
        omega
      · exact ih hq

end PubNub
