import PubNubCore.Listeners.Lists

/-!
# The lists are what is registered

`Represents` connects the lists of an event listener to what is registered.  It is kept by the steps
out of which the calls are made: a listener is put into one more list, and the listeners that are
equal to one are taken out of a list.
-/

namespace PubNub

namespace PbccEventListener

variable (s : PbccEventListener)

/-- The list of a place, if there is one: the context's (`none`) or that of a name. -/
def array : Option Bytes → Option (List Nat)
  | none => s.globalEvents
  | some name => s.listeners.bind (·.find? name)

/-- The listeners in the list of a place. -/
def listed (place : Option Bytes) : List Nat := (s.array place).getD []

/-- What a listener is registered as. -/
def registration (l : Nat) : Option Registration := registrationAt s.objects l

end PbccEventListener

/-- The lists have what is registered. -/
structure Represents (s : PbccEventListener) (R : Registrations) : Prop where
  listed : ∀ place, (s.listed place).map s.registration = (R place).map some
  nodup : ∀ place, (s.listed place).Nodup
  object : ∀ place, ∀ r ∈ R place, r.subscriptionObject = none ↔ place = none
  length : ∀ set, s.listeners = some set → set.buckets.length = listenersLength

namespace Registrations

variable {R : Registrations} {q : Option Bytes} {qs : List (Option Bytes)} {r : Registration}

lemma add_one : R.add [q] r = Function.update R q (R q ++ [r]) := by
  funext place
  by_cases hplace : place = q
  · subst hplace
    simp [add]
  · simp [add, hplace]

lemma remove_one : R.remove [q] r = Function.update R q ((R q).filter (· ≠ r)) := by
  funext place
  by_cases hplace : place = q
  · subst hplace
    simp [remove]
  · simp [remove, hplace]

lemma add_nil : R.add [] r = R := by
  funext place
  simp [add]

lemma remove_nil : R.remove [] r = R := by
  funext place
  simp [remove]

lemma add_cons (hq : q ∉ qs) : R.add (q :: qs) r = (R.add [q] r).add qs r := by
  funext place
  by_cases hplace : place = q
  · subst hplace
    simp [add, hq]
  · simp [add, hplace]

lemma remove_cons (hq : q ∉ qs) : R.remove (q :: qs) r = (R.remove [q] r).remove qs r := by
  funext place
  by_cases hplace : place = q
  · subst hplace
    simp [remove, hq]
  · simp [remove, hplace]

/-- Nothing is removed from places where nothing equal is. -/
lemma remove_eq_self (h : ∀ q ∈ qs, r ∉ R q) : R.remove qs r = R := by
  funext place
  by_cases hplace : place ∈ qs
  · have hnone : ∀ a ∈ R place, a ≠ r := by
      rintro a ha rfl
      exact h place hplace ha
    simpa [remove, hplace] using hnone
  · simp [remove, hplace]

/-- What has been added to places where nothing equal was is removed again. -/
lemma remove_add (h : ∀ q ∈ qs, r ∉ R q) : (R.add qs r).remove qs r = R := by
  funext place
  by_cases hplace : place ∈ qs
  · have hnone : ∀ a ∈ R place, a ≠ r := by
      rintro a ha rfl
      exact h place hplace ha
    simpa [remove, add, hplace, List.filter_append] using hnone
  · simp [remove, add, hplace]

end Registrations

namespace Represents

variable {s s' : PbccEventListener} {R : Registrations} {q : Option Bytes} {r : Registration}
  {l p n : Nat} {X : List Registration}

lemma mem (h : Represents s R) (hl : l ∈ s.listed q) : ∃ r ∈ R q, s.registration l = some r := by
  have hmem : s.registration l ∈ (s.listed q).map s.registration := List.mem_map_of_mem hl
  rw [h.listed q] at hmem
  obtain ⟨r, hr, heq⟩ := List.mem_map.mp hmem
  exact ⟨r, hr, heq.symm⟩

lemma isSome (h : Represents s R) (hl : l ∈ s.listed q) : (s.registration l).isSome := by
  obtain ⟨r, -, hr⟩ := h.mem hl
  rw [hr]
  rfl

lemma lt_length (h : Represents s R) (hl : l ∈ s.listed q) : l < s.objects.length := by
  obtain ⟨r, -, hr⟩ := h.mem hl
  obtain ⟨count, hread⟩ := registrationAt_eq_some.mp hr
  exact Heap.lt_of_read hread

/-- What is registered somewhere is in the list of the place. -/
lemma exists_listed (h : Represents s R) (hr : r ∈ R q) :
    ∃ l ∈ s.listed q, s.registration l = some r := by
  have hmem : some r ∈ (R q).map some := List.mem_map_of_mem hr
  rw [← h.listed q] at hmem
  exact List.mem_map.mp hmem

/-- A listener of the context is in no list of a name. -/
lemma place_eq_none (h : Represents s R) (hl : l ∈ s.listed none) {name : Bytes} :
    l ∉ s.listed (some name) := by
  intro hname
  obtain ⟨r, hr, hreg⟩ := h.mem hl
  obtain ⟨r', hr', hreg'⟩ := h.mem hname
  rw [hreg, Option.some.injEq] at hreg'
  subst hreg'
  have hnone := (h.object (some name) r hr').mp ((h.object none r hr).mpr rfl)
  cases hnone

/-- Nothing has happened to what is in the lists. -/
lemma congr (h : Represents s R) (hlisted : ∀ place, s'.listed place = s.listed place)
    (hlength : ∀ set, s'.listeners = some set → set.buckets.length = listenersLength)
    (hsame : ∀ place, ∀ l ∈ s.listed place, s'.registration l = s.registration l) :
    Represents s' R where
  listed place := by
    rw [hlisted, List.map_congr_left (hsame place), h.listed]
  nodup place := by
    rw [hlisted]
    exact h.nodup place
  object := h.object
  length := hlength

/-- The list of one place is another one. -/
lemma update (h : Represents s R) {ls : List Nat}
    (hlisted : ∀ place, s'.listed place = if place = q then ls else s.listed place)
    (hlength : ∀ set, s'.listeners = some set → set.buckets.length = listenersLength)
    (hsame : ∀ place, place ≠ q → ∀ l ∈ s.listed place, s'.registration l = s.registration l)
    (hmap : ls.map s'.registration = X.map some) (hnodup : ls.Nodup)
    (hobject : ∀ r ∈ X, r.subscriptionObject = none ↔ q = none) :
    Represents s' (Function.update R q X) where
  listed place := by
    rw [hlisted]
    by_cases hplace : place = q
    · subst hplace
      simpa using hmap
    · rw [if_neg hplace, Function.update_of_ne hplace, List.map_congr_left (hsame place hplace),
        h.listed]
  nodup place := by
    rw [hlisted]
    by_cases hplace : place = q
    · rw [if_pos hplace]
      exact hnodup
    · rw [if_neg hplace]
      exact h.nodup place
  object place r hr := by
    by_cases hplace : place = q
    · subst hplace
      rw [Function.update_self] at hr
      exact hobject r hr
    · rw [Function.update_of_ne hplace] at hr
      exact h.object place r hr
  length := hlength

/-- A listener has been put into one more list. -/
lemma add (h : Represents s R)
    (hlisted : ∀ place, s'.listed place = if place = q then s.listed q ++ [l] else s.listed place)
    (hlength : ∀ set, s'.listeners = some set → set.buckets.length = listenersLength)
    (hsame : ∀ place, ∀ l ∈ s.listed place, s'.registration l = s.registration l)
    (hl : s'.registration l = some r) (hnot : l ∉ s.listed q)
    (hobject : r.subscriptionObject = none ↔ q = none) : Represents s' (R.add [q] r) := by
  rw [Registrations.add_one]
  refine h.update hlisted hlength (fun place _ => hsame place) ?_ ?_ ?_
  · rw [List.map_append, List.map_append, List.map_congr_left (hsame q), h.listed]
    simp [hl]
  · rw [List.nodup_append]
    refine ⟨h.nodup q, List.nodup_singleton l, ?_⟩
    rintro a ha b hb rfl
    rw [List.mem_singleton] at hb
    exact hnot (hb ▸ ha)
  · intro r' hr'
    rcases List.mem_append.mp hr' with hr' | hr'
    · exact h.object q r' hr'
    · rw [List.mem_singleton.mp hr']
      exact hobject

/-- The listeners that are equal to `r` have been taken out of a list, and those of them that are
    in another one still live. -/
lemma release (h : Represents s R) (hr : Released r (s.listed q) s.objects s'.objects)
    (hlisted : ∀ place, s'.listed place =
      if place = q then (s.listed q).filter (fun l => s.registration l ≠ some r)
      else s.listed place)
    (hlength : ∀ set, s'.listeners = some set → set.buckets.length = listenersLength)
    (hsafe : ∀ l ∈ s.listed q, ∀ count, s.objects.read l = some ⟨r, some count⟩ →
      ∀ place, place ≠ q → l ∈ s.listed place → 2 < count) :
    Represents s' (R.remove [q] r) := by
  have hkept : ∀ l, (s.registration l).isSome → s.registration l ≠ some r →
      s'.registration l = s.registration l := by
    intro l hlive hne
    exact registrationAt_congr (hr.read_of_ne hne hlive)
  rw [Registrations.remove_one]
  refine h.update hlisted hlength ?_ ?_ ((h.nodup q).filter _) ?_
  · intro place hplace l hl
    by_cases hlq : l ∈ s.listed q
    · by_cases hreg : s.registration l = some r
      · obtain ⟨count, hread⟩ := registrationAt_eq_some.mp hreg
        have hcount := hsafe l hlq count hread place hplace hl
        have hread' := hr.read_of_mem hlq hread
        rw [if_neg (by omega)] at hread'
        rw [hreg]
        exact registrationAt_eq_some.mpr ⟨_, hread'⟩
      · exact hkept l (h.isSome hl) hreg
    · exact registrationAt_congr (hr.read_of_not_mem hlq)
  · have hmap : ((s.listed q).filter fun l => s.registration l ≠ some r).map s'.registration =
        ((s.listed q).filter fun l => s.registration l ≠ some r).map s.registration := by
      refine List.map_congr_left fun l hl => ?_
      obtain ⟨hlq, hne⟩ := List.mem_filter.mp hl
      exact hkept l (h.isSome hlq) (by simpa using hne)
    have hfilter : ((s.listed q).map s.registration).filter (fun o => decide (o ≠ some r)) =
        ((s.listed q).filter fun l => s.registration l ≠ some r).map s.registration :=
      List.filter_map
    rw [hmap, ← hfilter, h.listed, List.filter_map]
    congr 1
    exact List.filter_congr fun r' _ => by simp
  · intro r' hr'
    exact h.object q r' (List.mem_filter.mp hr').1

end Represents

end PubNub
