import Mathlib.Data.List.Range
import Mathlib.Data.List.Perm.Basic

/-!
# Sorting by exchanges

A sort that, for every `i`, goes over all places `j` and exchanges the elements at `i` and `j` if the
one at `i` is to be before the one at `j`.  The first pass brings the last element of all to the
front; every other one inserts its element into the places before it, which are in order already, and
finds nothing to exchange behind it (`orderedBy_exchangeSort`).
-/

namespace PubNub

universe u

variable {α : Type u} (before : α → α → Bool)

/-- Exchanges the elements at two places if the first is to be before the second. -/
def exchange (l : List α) (i j : Nat) : List α :=
  match l[i]?, l[j]? with
  | some x, some y => if before x y then (l.set i y).set j x else l
  | _, _ => l

/-- One pass, over the first `m` places. -/
def exchangePass (m : Nat) (l : List α) (i : Nat) : List α :=
  (List.range m).foldl (fun l j => exchange before l i j) l

/-- The passes for the first `k` places. -/
def exchangeSort (k m : Nat) (l : List α) : List α :=
  (List.range k).foldl (exchangePass before m) l

/-- Of two elements at most one is to be before the other, and what is not to be before a third goes
    through a second. -/
structure OrdersWeakly : Prop where
  asymm : ∀ x y, before x y = true → before y x = false
  trans : ∀ x y z, before y x = false → before z y = false → before z x = false

/-- No element is to be before one in front of it. -/
def OrderedBy (l : List α) : Prop := l.Pairwise fun x y => before y x = false

/-- What a pass does with the elements on one side of its place: the ones that are left there, and
    the one that is at the place then. -/
def sift (x : α) : List α → List α × α
  | [] => ([], x)
  | y :: l => if before x y then ((x :: (sift y l).1), (sift y l).2)
      else ((y :: (sift x l).1), (sift x l).2)

section Sift

variable {before} {x y z : α} {l p q : List α} {i j k m : Nat}

lemma OrdersWeakly.irrefl (ho : OrdersWeakly before) (z : α) : before z z = false := by
  cases h : before z z with
  | true => rw [ho.asymm z z h] at h; cases h
  | false => rfl

lemma sift_of_before (h : before x y = true) :
    sift before x (y :: l) = (x :: (sift before y l).1, (sift before y l).2) := if_pos h

lemma sift_of_not_before (h : before x y = false) :
    sift before x (y :: l) = (y :: (sift before x l).1, (sift before x l).2) :=
  if_neg (by rw [h]; exact Bool.false_ne_true)

lemma length_sift (x : α) (l : List α) : (sift before x l).1.length = l.length := by
  induction l generalizing x with
  | nil => rfl
  | cons y l ih =>
      cases h : before x y with
      | true => rw [sift_of_before h, List.length_cons, ih, List.length_cons]
      | false => rw [sift_of_not_before h, List.length_cons, ih, List.length_cons]

lemma perm_sift (x : α) (l : List α) :
    ((sift before x l).2 :: (sift before x l).1).Perm (x :: l) := by
  induction l generalizing x with
  | nil => exact .refl _
  | cons y l ih =>
      cases h : before x y with
      | true =>
          rw [sift_of_before h]
          exact (List.Perm.swap ..).trans ((ih y).cons x)
      | false =>
          rw [sift_of_not_before h]
          exact (List.Perm.swap ..).trans (((ih x).cons y).trans (List.Perm.swap ..))

/-- Nothing is exchanged with an element that is to be before no other. -/
lemma sift_of_last (h : ∀ y ∈ l, before x y = false) : sift before x l = (l, x) := by
  induction l with
  | nil => rfl
  | cons y l ih =>
      rw [sift_of_not_before (h y List.mem_cons_self), ih fun z hz => h z (List.mem_cons_of_mem y hz)]

/-- The element at the place comes out as the last of all. -/
lemma sift_last (ho : OrdersWeakly before) (x : α) (l : List α) :
    before (sift before x l).2 x = false ∧ ∀ y ∈ l, before (sift before x l).2 y = false := by
  induction l generalizing x with
  | nil => exact ⟨ho.irrefl x, fun y hy => by cases hy⟩
  | cons y l ih =>
      cases h : before x y with
      | true =>
          rw [sift_of_before h]
          obtain ⟨hy, hl⟩ := ih y
          refine ⟨ho.trans _ _ _ (ho.asymm x y h) hy, fun z hz => ?_⟩
          rcases List.mem_cons.mp hz with rfl | hz
          · exact hy
          · exact hl z hz
      | false =>
          rw [sift_of_not_before h]
          obtain ⟨hx, hl⟩ := ih x
          refine ⟨hx, fun z hz => ?_⟩
          rcases List.mem_cons.mp hz with rfl | hz
          · exact ho.trans _ _ _ h hx
          · exact hl z hz

/-- Elements in order stay in order when one is inserted. -/
lemma orderedBy_sift (ho : OrdersWeakly before) (h : OrderedBy before l) :
    OrderedBy before ((sift before x l).1 ++ [(sift before x l).2]) := by
  induction l generalizing x with
  | nil => exact List.pairwise_singleton _ x
  | cons y l ih =>
      obtain ⟨hhead, htail⟩ := List.pairwise_cons.mp h
      have hfirst : ∀ z w : α, (∀ v ∈ z :: l, before v w = false) →
          ∀ v ∈ (sift before z l).1 ++ [(sift before z l).2], before v w = false := by
        intro z w hall v hv
        refine hall v ((@perm_sift _ before z l).subset ?_)
        rw [List.mem_append, List.mem_singleton] at hv
        rw [List.mem_cons]
        exact hv.symm
      cases hxy : before x y with
      | true =>
          rw [sift_of_before hxy]
          refine List.pairwise_cons.mpr ⟨hfirst y x fun v hv => ?_, ih htail⟩
          have hyx := ho.asymm x y hxy
          rcases List.mem_cons.mp hv with rfl | hv
          · exact hyx
          · exact ho.trans _ _ _ hyx (hhead v hv)
      | false =>
          rw [sift_of_not_before hxy]
          refine List.pairwise_cons.mpr ⟨hfirst x y fun v hv => ?_, ih htail⟩
          rcases List.mem_cons.mp hv with rfl | hv
          · exact hxy
          · exact hhead v hv

/-! ## The passes -/

lemma exchange_of_le (h : l.length ≤ i ∨ l.length ≤ j) : exchange before l i j = l := by
  rw [exchange]
  rcases h with h | h
  · rw [List.getElem?_eq_none h]
  · rw [List.getElem?_eq_none h]
    cases l[i]? <;> rfl

lemma exchange_eq (hx : l[i]? = some x) (hy : l[j]? = some y) :
    exchange before l i j = if before x y then (l.set i y).set j x else l := by
  rw [exchange, hx, hy]

/-- At a place in front of it. -/
lemma exchange_ahead (p q r : List α) :
    exchange before (p ++ y :: q ++ x :: r) (p.length + 1 + q.length) p.length =
      if before x y then p ++ x :: q ++ y :: r else p ++ y :: q ++ x :: r := by
  have hi : (p ++ y :: q).length = p.length + 1 + q.length := by
    rw [List.length_append, List.length_cons]
    omega
  have hx : (p ++ y :: q ++ x :: r)[p.length + 1 + q.length]? = some x := by
    rw [← hi, List.getElem?_append_right (Nat.le_refl _), Nat.sub_self]
    rfl
  have hy : (p ++ y :: q ++ x :: r)[p.length]? = some y := by
    rw [List.append_assoc, List.getElem?_append_right (Nat.le_refl _), Nat.sub_self]
    rfl
  rw [exchange_eq hx hy, ← hi, List.set_append_right _ _ (Nat.le_refl _), Nat.sub_self,
    List.set_cons_zero, List.append_assoc, List.set_append_right _ _ (Nat.le_refl _), Nat.sub_self]
  simp

/-- At a place behind it. -/
lemma exchange_behind (p q r : List α) :
    exchange before (p ++ x :: q ++ y :: r) p.length (p.length + 1 + q.length) =
      if before x y then p ++ y :: q ++ x :: r else p ++ x :: q ++ y :: r := by
  have hj : (p ++ x :: q).length = p.length + 1 + q.length := by
    rw [List.length_append, List.length_cons]
    omega
  have hy : (p ++ x :: q ++ y :: r)[p.length + 1 + q.length]? = some y := by
    rw [← hj, List.getElem?_append_right (Nat.le_refl _), Nat.sub_self]
    rfl
  have hx : (p ++ x :: q ++ y :: r)[p.length]? = some x := by
    rw [List.append_assoc, List.getElem?_append_right (Nat.le_refl _), Nat.sub_self]
    rfl
  have hj' : (p ++ y :: q).length = p.length + 1 + q.length := by
    rw [List.length_append, List.length_cons]
    omega
  have hset : (p ++ x :: q ++ y :: r).set p.length y = (p ++ y :: q) ++ y :: r := by
    rw [List.append_assoc, List.set_append_right _ _ (Nat.le_refl _), Nat.sub_self]
    simp
  rw [exchange_eq hx hy, hset, ← hj', List.set_append_right _ _ (Nat.le_refl _), Nat.sub_self,
    List.set_cons_zero]

lemma exchange_self (h : ∀ z, before z z = false) : exchange before l i i = l := by
  rw [exchange]
  cases l[i]? with
  | none => rfl
  | some x => simp [h x]

/-- The places in front. -/
lemma foldl_exchange_ahead (d p r : List α) (x : α) :
    (List.range' d.length p.length).foldl
        (fun l j => exchange before l (d.length + p.length) j) (d ++ p ++ x :: r) =
      d ++ (sift before x p).1 ++ (sift before x p).2 :: r := by
  induction p generalizing d x with
  | nil => rfl
  | cons y p ih =>
      have hlength : d.length + (y :: p).length = d.length + 1 + p.length := by
        rw [List.length_cons]
        omega
      rw [hlength, List.length_cons, List.range'_succ, List.foldl_cons, exchange_ahead]
      cases h : before x y with
      | true =>
          have hnext := ih (d ++ [x]) y
          rw [List.length_append, List.length_singleton] at hnext
          rw [if_pos rfl, sift_of_before h]
          simpa using hnext
      | false =>
          have hnext := ih (d ++ [y]) x
          rw [List.length_append, List.length_singleton] at hnext
          rw [if_neg Bool.false_ne_true, sift_of_not_before h]
          simpa using hnext

/-- The places behind. -/
lemma foldl_exchange_behind (p d q : List α) (x : α) :
    (List.range' (p.length + 1 + d.length) q.length).foldl
        (fun l j => exchange before l p.length j) (p ++ x :: d ++ q) =
      p ++ (sift before x q).2 :: (d ++ (sift before x q).1) := by
  induction q generalizing d x with
  | nil => simp [sift]
  | cons y q ih =>
      rw [List.length_cons, List.range'_succ, List.foldl_cons, exchange_behind]
      cases h : before x y with
      | true =>
          have hnext := ih (d ++ [x]) y
          rw [List.length_append, List.length_singleton, ← Nat.add_assoc] at hnext
          rw [if_pos rfl, sift_of_before h]
          simpa using hnext
      | false =>
          have hnext := ih (d ++ [y]) x
          rw [List.length_append, List.length_singleton, ← Nat.add_assoc] at hnext
          rw [if_neg Bool.false_ne_true, sift_of_not_before h]
          simpa using hnext

/-- **One pass.**  It sifts the element at its place through the ones in front of it, and what comes
    out through the ones behind it. -/
lemma exchangePass_eq (hirrefl : ∀ z, before z z = false) (p q : List α) (x : α)
    (hm : (p ++ x :: q).length ≤ m) :
    exchangePass before m (p ++ x :: q) p.length =
      (sift before x p).1 ++ (sift before (sift before x p).2 q).2 ::
        (sift before (sift before x p).2 q).1 := by
  have hlength : (p ++ x :: q).length = p.length + 1 + q.length := by
    rw [List.length_append, List.length_cons]
    omega
  have hsplit : List.range m = List.range' 0 p.length ++ p.length ::
      (List.range' (p.length + 1) q.length ++ List.range' (p.length + 1 + q.length)
        (m - (p.length + 1 + q.length))) := by
    rw [List.range'_append_1, ← List.range'_succ]
    have hbehind : 0 + p.length = p.length := Nat.zero_add _
    have hwhole : p.length + (q.length + (m - (p.length + 1 + q.length)) + 1) = m := by omega
    rw [List.range_eq_range', ← hwhole, ← List.range'_append_1, hbehind, hwhole]
  have hahead := @foldl_exchange_ahead _ before [] p q x
  have hbehind := @foldl_exchange_behind _ before (sift before x p).1 [] q
    (sift before x p).2
  have hover : ∀ (js : List Nat) (l : List α), (∀ j ∈ js, l.length ≤ j) →
      js.foldl (fun l j => exchange before l p.length j) l = l := by
    intro js l hjs
    induction js with
    | nil => rfl
    | cons j js ih =>
        rw [List.foldl_cons, exchange_of_le (.inr (hjs j List.mem_cons_self))]
        exact ih fun k hk => hjs k (List.mem_cons_of_mem j hk)
  rw [List.length_nil, Nat.zero_add, List.nil_append, List.nil_append] at hahead
  rw [length_sift, List.length_nil, Nat.add_zero] at hbehind
  rw [exchangePass, hsplit, List.foldl_append, List.foldl_cons, List.foldl_append, hahead,
    exchange_self hirrefl]
  simp only [List.append_assoc, List.cons_append, List.nil_append] at hbehind ⊢
  rw [hbehind, hover]
  intro j hj
  rw [List.length_append, List.length_cons, length_sift, length_sift]
  have hge := List.left_le_of_mem_range' hj
  omega

/-- After a number of passes the elements in front are in order, and none is to be behind the last of
    them. -/
def PassesDone (before : α → α → Bool) (i : Nat) (l : List α) : Prop :=
  ∃ p q, l = p ++ q ∧ (p.length = i ∨ p.length ≤ i ∧ q = []) ∧ OrderedBy before p ∧
    ∀ x ∈ p.getLast?, ∀ y ∈ l, before x y = false

/-- **The next pass.** -/
lemma PassesDone.step (ho : OrdersWeakly before) (hm : l.length ≤ m) (h : PassesDone before i l) :
    (exchangePass before m l i).Perm l ∧ PassesDone before (i + 1) (exchangePass before m l i) := by
  obtain ⟨p, q, rfl, hlength, hordered, hlast⟩ := h
  cases q with
  | nil =>
      have hdone : exchangePass before m (p ++ []) i = p ++ [] := by
        have hle : (p ++ []).length ≤ i := by
          rw [List.append_nil]
          rcases hlength with h | ⟨h, -⟩
          · exact Nat.le_of_eq h
          · exact h
        rw [exchangePass]
        induction List.range m with
        | nil => rfl
        | cons j js ih => rw [List.foldl_cons, exchange_of_le (.inl hle), ih]
      rw [hdone]
      refine ⟨.refl _, p, [], rfl, .inr ⟨?_, rfl⟩, hordered, hlast⟩
      rcases hlength with h | ⟨h, -⟩ <;> omega
  | cons x q =>
      obtain rfl : p.length = i := by
        rcases hlength with h | ⟨-, h⟩
        · exact h
        · cases h
      rw [exchangePass_eq ho.irrefl p q x hm]
      have hahead : ((sift before x p).1 ++ (sift before x p).2 :: q).Perm (p ++ x :: q) :=
        List.perm_middle.trans (((perm_sift x p).append_right q).trans List.perm_middle.symm)
      have hlate := sift_last ho (sift before x p).2 q
      cases p with
      | nil =>
          have hperm : ([(sift before x q).2] ++ (sift before x q).1).Perm (x :: q) := perm_sift x q
          refine ⟨hperm, [(sift before x q).2], (sift before x q).1, rfl, .inl rfl,
            List.pairwise_singleton _ _, fun z hz y hy => ?_⟩
          cases hz
          rcases List.mem_cons.mp (hperm.subset hy) with rfl | hy
          · exact hlate.1
          · exact hlate.2 y hy
      | cons c p =>
          have hmax : ∀ y ∈ (c :: p) ++ x :: q, before (sift before x (c :: p)).2 y = false := by
            intro y hy
            have hmem := List.getLast_mem (List.cons_ne_nil c p)
            have hbefore := hlast _ (List.getLast?_eq_getLast_of_ne_nil (List.cons_ne_nil c p)) y hy
            exact ho.trans _ _ _ hbefore ((sift_last ho x (c :: p)).2 _ hmem)
          rw [sift_of_last fun y hy => hmax y (by simp [hy])]
          refine ⟨hahead, (sift before x (c :: p)).1 ++ [(sift before x (c :: p)).2], q, by simp,
            .inl ?_, orderedBy_sift ho hordered, fun z hz y hy => ?_⟩
          · rw [List.length_append, length_sift, List.length_singleton]
          · rw [List.getLast?_concat] at hz
            cases hz
            exact hmax y (hahead.subset hy)

/-- **The sort.**  With a pass for every element the elements come out in order. -/
theorem orderedBy_exchangeSort (ho : OrdersWeakly before) (hk : l.length ≤ k) (hm : l.length ≤ m) :
    (exchangeSort before k m l).Perm l ∧ OrderedBy before (exchangeSort before k m l) := by
  have hpasses : ∀ i, ((List.range i).foldl (exchangePass before m) l).Perm l ∧
      PassesDone before i ((List.range i).foldl (exchangePass before m) l) := by
    intro i
    induction i with
    | zero => exact ⟨.refl l, [], l, rfl, .inl rfl, List.Pairwise.nil, fun x hx => by cases hx⟩
    | succ i ih =>
        obtain ⟨hperm, hdone⟩ := ih
        obtain ⟨hperm', hdone'⟩ := hdone.step ho (hperm.length_eq.trans_le hm)
        rw [List.range_succ, List.foldl_append, List.foldl_cons, List.foldl_nil]
        exact ⟨hperm'.trans hperm, hdone'⟩
  obtain ⟨hperm, p, q, heq, hlength, hordered, -⟩ := hpasses k
  refine ⟨hperm, ?_⟩
  have hwhole := hperm.length_eq
  rw [heq, List.length_append] at hwhole
  have hq : q = [] := by
    rcases hlength with h | ⟨-, h⟩
    · exact List.length_eq_zero_iff.mp (by omega)
    · exact h
  rw [exchangeSort, heq, hq, List.append_nil]
  exact hordered

end Sift

end PubNub
