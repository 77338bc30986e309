import PubNubCore.Listeners.EventListener
import Mathlib.Data.List.Nodup

/-!
# Lists of shared listeners

What one list is after a removal, and what has become of the listeners (`Released`): a listener that
is taken out of a list gives up two references, the one of the list and one that it never had.
-/

namespace PubNub

variable {objects objects' objects'' : Heap PbccListener} {r : Registration} {x : PbccListener}
  {l p n : Nat} {ls : List Nat}

/-- What a listener that lives, and that is counted, is registered as. -/
def registrationAt (objects : Heap PbccListener) (l : Nat) : Option Registration :=
  (objects.read l).bind fun listener => listener.counter.map fun _ => listener.toRegistration

/-- How many references a listener has. -/
def countAt (objects : Heap PbccListener) (l : Nat) : Option Nat :=
  (objects.read l).bind (·.counter)

lemma registrationAt_eq_some : registrationAt objects l = some r ↔
    ∃ count, objects.read l = some ⟨r, some count⟩ := by
  rw [registrationAt]
  constructor
  · intro h
    obtain ⟨⟨r', counter⟩, hread, h⟩ := Option.bind_eq_some_iff.mp h
    obtain ⟨count, hcount, rfl⟩ := Option.map_eq_some_iff.mp h
    exact ⟨count, by rw [hread, ← hcount]⟩
  · rintro ⟨count, hread⟩
    rw [hread]
    rfl

lemma countAt_of_read {count : Nat} (h : objects.read l = some ⟨r, some count⟩) :
    countAt objects l = some count := by
  rw [countAt, h]
  rfl

lemma registrationAt_congr (h : objects'.read l = objects.read l) :
    registrationAt objects' l = registrationAt objects l := by
  rw [registrationAt, h, registrationAt]

/-! ## Adding -/

lemma pbccAddListener_entry (h : objects.read l = some ⟨r, some n⟩) :
    pbccAddListener objects ls l true =
      some (objects.write l (some ⟨r, some (n + 1)⟩), ls ++ [l], .ok) := by
  simp [pbccAddListener, PbccListener.pbrefCounterIncrement, h]

lemma pbccAddListener_noEntry :
    pbccAddListener objects ls l false = some (objects, ls, .outOfMemory) := rfl

/-! ## Removing -/

/-- A listener that has been taken out of a list. -/
def PbccListener.released (listener : PbccListener) : Option PbccListener :=
  listener.counter.bind fun count =>
    if count ≤ 2 then none else some { listener with counter := some (count - 2) }

/-- A listener that has been taken out of a list if it is equal to another one. -/
def PbccListener.releasedAs (r : Registration) (listener : PbccListener) : Option PbccListener :=
  if listener.toRegistration = r then listener.released else some listener

/-- The listeners of a list that are equal to another one have been taken out of it. -/
structure Released (r : Registration) (ls : List Nat) (objects objects' : Heap PbccListener) :
    Prop where
  length : objects'.length = objects.length
  read : ∀ j, objects'.read j =
    if j ∈ ls then (objects.read j).bind (PbccListener.releasedAs r) else objects.read j

lemma Released.nil : Released r [] objects objects := ⟨rfl, fun j => by simp⟩

lemma Released.read_of_ne {j : Nat} (h : Released r ls objects objects')
    (hj : registrationAt objects j ≠ some r) (hlive : (registrationAt objects j).isSome) :
    objects'.read j = objects.read j := by
  obtain ⟨r', hr'⟩ := Option.isSome_iff_exists.mp hlive
  obtain ⟨count, hread⟩ := registrationAt_eq_some.mp hr'
  have hne : r' ≠ r := fun heq => hj (hr'.trans (congrArg some heq))
  rw [h.read, hread]
  split
  · simp [PbccListener.releasedAs, hne]
  · rfl

lemma Released.read_of_not_mem {j : Nat} (h : Released r ls objects objects') (hj : j ∉ ls) :
    objects'.read j = objects.read j := by
  rw [h.read, if_neg hj]

lemma Released.read_of_mem (h : Released r ls objects objects') (hl : l ∈ ls)
    (hread : objects.read l = some ⟨r, some n⟩) :
    objects'.read l = if n ≤ 2 then none else some ⟨r, some (n - 2)⟩ := by
  rw [h.read, if_pos hl, hread]
  simp [PbccListener.releasedAs, PbccListener.released]

/-- A listener that is equal has been taken out, then those of the rest of the list. -/
lemma Released.cons (hread : objects.read l = some ⟨r, some n⟩) (hl : l ∉ ls)
    (h : Released r ls (objects.write l (PbccListener.released ⟨r, some n⟩)) objects') :
    Released r (l :: ls) objects objects' where
  length := by rw [h.length, Heap.length_write]
  read j := by
    rw [h.read, Heap.read_write hread]
    by_cases hj : j = l
    · subst hj
      simp [hl, hread, PbccListener.releasedAs]
    · simp [hj]

/-- A listener that is not equal is passed. -/
lemma Released.cons_of_ne (hread : objects.read l = some x) (hx : x.toRegistration ≠ r)
    (hl : l ∉ ls) (h : Released r ls objects objects') : Released r (l :: ls) objects objects' where
  length := h.length
  read j := by
    rw [h.read]
    by_cases hj : j = l
    · subst hj
      simp [hl, hread, PbccListener.releasedAs, hx]
    · simp [hj]

lemma pbccListenerFree_one (h : objects.read l = some ⟨r, some 1⟩) :
    pbccListenerFree objects l = some (objects.write l none) := by
  simp [pbccListenerFree, h]

lemma pbccListenerFree_noCounter (h : objects.read l = some ⟨r, none⟩) :
    pbccListenerFree objects l = some (objects.write l none) := by
  simp [pbccListenerFree, h]

/-- A listener gives up two references. -/
lemma release (h : objects.read l = some ⟨r, some n⟩) :
    (PbccListener.pbrefCounterDecrement objects l).bind (pbccListenerFree · l) =
      some (objects.write l (PbccListener.released ⟨r, some n⟩)) := by
  have hread : (objects.write l (some ⟨r, some (n - 1)⟩)).read l = some ⟨r, some (n - 1)⟩ := by
    rw [Heap.read_write h, if_pos rfl]
  rw [PbccListener.pbrefCounterDecrement, h]
  simp only [Option.bind_eq_bind, Option.bind_some]
  rw [pbccListenerFree, hread]
  simp only [Option.bind_eq_bind, Option.bind_some, Heap.write_write, PbccListener.released]
  by_cases hn : n ≤ 2
  · rw [if_pos (by omega), if_pos hn]
  · rw [if_neg (by omega), if_neg hn, Nat.sub_sub]

lemma pbarrayRemove_of_nodup (hnodup : ls.Nodup) (hl : l ∈ ls) :
    pbarrayRemove objects ls l =
      (pbccListenerFree objects l).map fun objects => (objects, ls.filter (· ≠ l)) := by
  rw [pbarrayRemove, List.count_eq_one_of_mem hnodup hl]
  simp

lemma filter_ne_middle {kept rest : List Nat} (h : (kept ++ l :: rest).Nodup) :
    (kept ++ l :: rest).filter (· ≠ l) = kept ++ rest := by
  obtain ⟨hl, -⟩ := List.nodup_middle.mp h |> List.nodup_cons.mp
  have hall : ∀ a ∈ kept ++ rest, a ≠ l := by
    rintro a ha rfl
    exact hl ha
  rw [List.filter_append, List.filter_cons_of_neg (by simp), ← List.filter_append]
  exact List.filter_eq_self.mpr fun a ha => by simpa using hall a ha

/-- The loop takes out of the rest of the list what is equal to `p`, which it reads as long as there
    is a rest. -/
lemma pbccRemoveListenerLoop_eq : ∀ (rest kept : List Nat) (objects : Heap PbccListener)
    (fuel : Nat), rest.length < fuel → (kept ++ rest).Nodup →
    (∀ l ∈ rest, (registrationAt objects l).isSome) →
    (rest ≠ [] → ∃ x, objects.read p = some x ∧ x.toRegistration = r) → p ∉ rest.dropLast →
    ∃ objects', pbccRemoveListenerLoop p fuel kept.length objects (kept ++ rest) =
        some (objects', kept ++ rest.filter fun l => registrationAt objects l ≠ some r) ∧
      Released r rest objects objects' := by
  intro rest
  induction rest with
  | nil =>
      intro kept objects fuel hfuel _ _ _ _
      obtain ⟨fuel, rfl⟩ := Nat.exists_eq_succ_of_ne_zero (Nat.ne_of_gt hfuel)
      refine ⟨objects, ?_, .nil⟩
      simp [pbccRemoveListenerLoop]
  | cons l rest ih =>
      intro kept objects fuel hfuel hnodup hlive hp hlast
      obtain ⟨fuel, rfl⟩ := Nat.exists_eq_succ_of_ne_zero (Nat.ne_of_gt (Nat.zero_lt_of_lt hfuel))
      obtain ⟨wanted, hwanted, rfl⟩ := hp (List.cons_ne_nil _ _)
      obtain ⟨r', hr'⟩ := Option.isSome_iff_exists.mp (hlive l List.mem_cons_self)
      obtain ⟨count, hread⟩ := registrationAt_eq_some.mp hr'
      have hlength : rest.length < fuel := Nat.lt_of_succ_lt_succ hfuel
      obtain ⟨hl, -⟩ := List.nodup_cons.mp (List.nodup_append.mp hnodup).2.1
      have hget : (kept ++ l :: rest)[kept.length]? = some l := by simp
      have hlast' : p ∉ rest.dropLast := by
        intro hp
        refine hlast ?_
        rw [List.dropLast_cons_of_ne_nil (by rintro rfl; simp at hp)]
        exact List.mem_cons_of_mem _ hp
      rw [pbccRemoveListenerLoop, hget]
      simp only [Option.bind_eq_bind, hread, hwanted, Option.bind_some]
      by_cases heq : r' = wanted.toRegistration
      · subst heq
        have hother : ∀ j, j ≠ l →
            (objects.write l (PbccListener.released ⟨wanted.toRegistration, some count⟩)).read j =
              objects.read j := by
          intro j hj
          rw [Heap.read_write hread, if_neg hj]
        have hsame : ∀ j ∈ rest, registrationAt
            (objects.write l (PbccListener.released ⟨wanted.toRegistration, some count⟩)) j =
              registrationAt objects j := by
          intro j hj
          exact registrationAt_congr (hother j fun heq => hl (heq ▸ hj))
        obtain ⟨objects', hloop, hreleased⟩ := ih kept
          (objects.write l (PbccListener.released ⟨wanted.toRegistration, some count⟩)) fuel
          hlength (List.nodup_middle.mp hnodup |> List.nodup_cons.mp).2
          (fun j hj => by
            rw [hsame j hj]
            exact hlive j (List.mem_cons_of_mem _ hj))
          (fun hrest => by
            refine ⟨wanted, ?_, rfl⟩
            rw [hother p, hwanted]
            rintro rfl
            exact hlast (by rw [List.dropLast_cons_of_ne_nil hrest]; exact List.mem_cons_self))
          hlast'
        refine ⟨objects', ?_, hreleased.cons hread hl⟩
        have hstep := release hread
        rw [Option.bind_eq_some_iff] at hstep
        obtain ⟨decremented, hdecrement, hfree⟩ := hstep
        rw [if_pos rfl, hdecrement]
        simp only [Option.bind_some]
        rw [pbarrayRemove_of_nodup hnodup (by simp), hfree]
        simp only [Option.map_some, Option.bind_some]
        rw [filter_ne_middle hnodup, hloop, List.filter_cons_of_neg (by simp [hr']),
          List.filter_congr fun j hj => by rw [hsame j hj]]
      · obtain ⟨objects', hloop, hreleased⟩ := ih (kept ++ [l]) objects fuel hlength
          (by simpa using hnodup) (fun j hj => hlive j (List.mem_cons_of_mem _ hj))
          (fun _ => ⟨wanted, hwanted, rfl⟩) hlast'
        refine ⟨objects', ?_, hreleased.cons_of_ne hread heq hl⟩
        rw [if_neg heq, List.filter_cons_of_pos (by simpa [hr'] using heq)]
        simpa using hloop

/-- **A removal from one list.**  What is equal to `p` is taken out of it, and released. -/
lemma pbccRemoveListener_eq (hnodup : ls.Nodup) (hlive : ∀ l ∈ ls, (registrationAt objects l).isSome)
    (hp : ls ≠ [] → ∃ x, objects.read p = some x ∧ x.toRegistration = r) (hlast : p ∉ ls.dropLast) :
    ∃ objects', pbccRemoveListener objects ls p =
        some (objects', ls.filter fun l => registrationAt objects l ≠ some r) ∧
      Released r ls objects objects' :=
  pbccRemoveListenerLoop_eq ls [] objects (ls.length + 1) (Nat.lt_succ_self _) hnodup hlive hp hlast

/-! ## Calling -/

/-- All listeners of a list are called that have no subscription object, or the type. -/
lemma pbccEmitMessage_eq {type : PubnubSubscribeListenerType} : ∀ {ls : List Nat}
    {rs : List Registration}, ls.map (registrationAt objects) = rs.map some →
    pbccEmitMessage objects type ls =
      some (rs.filter fun r => r.subscriptionObject = none ∨ r.type = type)
  | [], [], _ => rfl
  | [], _ :: _, h => by simp at h
  | _ :: _, [], h => by simp at h
  | l :: ls, r :: rs, h => by
      simp only [List.map_cons, List.cons.injEq] at h
      obtain ⟨count, hread⟩ := registrationAt_eq_some.mp h.1
      rw [pbccEmitMessage, hread, pbccEmitMessage_eq h.2]
      simp only [Option.bind_eq_bind, Option.bind_some]
      by_cases hr : r.subscriptionObject = none ∨ r.type = type
      · rw [if_pos hr, List.filter_cons_of_pos (by simpa using hr)]
      · rw [if_neg hr, List.filter_cons_of_neg (by simpa using hr)]

end PubNub
