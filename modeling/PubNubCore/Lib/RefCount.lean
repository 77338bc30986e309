import Mathlib.Data.List.Perm.Basic
import Mathlib.Data.List.Count
import Mathlib.Data.List.Range

/-!
# Reference counts

Objects are numbered, `counters` lists how often each of them is counted, and `refs` the references
to them, one for each place that holds one.  The counters are **exact** for the references if every
object is counted as often as it is referred to, and no reference is to an object that does not
exist.  With exact counters an object's counter falls to zero exactly when its last reference is
given up, so that it is freed once and not used afterwards.
-/

namespace PubNub

/-- The counters are those of the references. -/
structure ExactCounts (counters refs : List Nat) : Prop where
  count : ∀ i n, counters[i]? = some n → n = refs.count i
  bound : ∀ i ∈ refs, i < counters.length

namespace ExactCounts

variable {counters refs refs' : List Nat} {i : Nat}

lemma nil : ExactCounts [] [] := ⟨by simp, by simp⟩

/-- It does not matter where the references are. -/
lemma perm (h : ExactCounts counters refs) (hp : refs.Perm refs') : ExactCounts counters refs' where
  count i n hn := (h.count i n hn).trans (hp.count_eq i)
  bound i hi := h.bound i (hp.mem_iff.mpr hi)

/-- A new object, with its first reference. -/
lemma alloc (h : ExactCounts counters refs) :
    ExactCounts (counters ++ [1]) (counters.length :: refs) where
  count i n hn := by
    have hfresh : refs.count counters.length = 0 :=
      List.count_eq_zero.mpr fun hi => absurd (h.bound _ hi) (lt_irrefl _)
    rcases Nat.lt_trichotomy i counters.length with hlt | rfl | hgt
    · rw [List.getElem?_append_left hlt] at hn
      rw [List.count_cons_of_ne (by omega)]
      exact h.count i n hn
    · rw [List.getElem?_concat_length] at hn
      cases hn
      rw [List.count_cons_self, hfresh]
    · rw [List.getElem?_eq_none (by simp; omega)] at hn
      cases hn
  bound i hi := by
    rw [List.length_append, List.length_singleton]
    rcases List.mem_cons.mp hi with rfl | hi
    · omega
    · have := h.bound i hi
      omega

/-- One more reference to an object. -/
lemma share (h : ExactCounts counters refs) (hi : i < counters.length) :
    ExactCounts (counters.modify i (· + 1)) (i :: refs) where
  count j n hn := by
    rw [List.getElem?_modify] at hn
    obtain ⟨m, hm, rfl⟩ := Option.map_eq_some_iff.mp hn
    have hcount := h.count j m hm
    by_cases hij : i = j
    · subst hij
      rw [if_pos rfl, List.count_cons_self, hcount]
    · rw [if_neg hij, List.count_cons_of_ne hij]
      exact hcount
  bound j hj := by
    rw [List.length_modify]
    rcases List.mem_cons.mp hj with rfl | hj
    · exact hi
    · exact h.bound j hj

/-- A reference is given up. -/
lemma release (h : ExactCounts counters (i :: refs)) :
    ExactCounts (counters.modify i (· - 1)) refs where
  count j n hn := by
    rw [List.getElem?_modify] at hn
    obtain ⟨m, hm, rfl⟩ := Option.map_eq_some_iff.mp hn
    have hcount := h.count j m hm
    by_cases hij : i = j
    · subst hij
      rw [if_pos rfl, hcount, List.count_cons_self]
      rfl
    · rw [List.count_cons_of_ne hij] at hcount
      rw [if_neg hij]
      exact hcount
  bound j hj := by
    rw [List.length_modify]
    exact h.bound j (List.mem_cons_of_mem i hj)

/-- What is referred to has not been freed. -/
lemma pos (h : ExactCounts counters refs) (hi : i ∈ refs) :
    ∃ n, counters[i]? = some n ∧ 0 < n := by
  have hlt := h.bound i hi
  refine ⟨counters[i], List.getElem?_eq_getElem hlt, ?_⟩
  rw [h.count i counters[i] (List.getElem?_eq_getElem hlt)]
  exact List.count_pos_iff.mpr hi

/-- Counters are exact for one list of references only, up to their order. -/
lemma perm_of_exactCounts (h : ExactCounts counters refs) (h' : ExactCounts counters refs') :
    refs.Perm refs' := by
  rw [List.perm_iff_count]
  intro i
  by_cases hi : i < counters.length
  · have hn := List.getElem?_eq_getElem hi
    exact (h.count i _ hn).symm.trans (h'.count i _ hn)
  · rw [List.count_eq_zero.mpr fun hm => hi (h.bound i hm),
      List.count_eq_zero.mpr fun hm => hi (h'.bound i hm)]

end ExactCounts

end PubNub
