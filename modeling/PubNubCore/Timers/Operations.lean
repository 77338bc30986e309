import PubNubCore.Timers.TimerList

/-!
# What the functions of the list of timers do

`HoldsTimers` is a list of timers: it is well linked, and the differences are those of the times that
remain.  Each of the functions makes such a list of another one, given room for the times in an
`int`.  The list is taken apart at the place where the function changes it: with `u` the timers that
expire up to then and `v` the others.
-/

namespace PubNub

universe u

variable {C : Type u}

/-- The list that begins at `list` has these members, for which so much time remains. -/
structure HoldsTimers (timers : Timers C) (remaining : C → Int) (list : Option C)
    (members : List C) : Prop where
  head_eq : list = members.head?
  linked : DoublyLinked timers.previous timers.next none members none
  nodup : members.Nodup
  timed : Timed timers.timeoutLeft remaining 0 members

lemma asSignedInt_of {n : Int} (h : 0 ≤ n) (hlt : n < 2 ^ 31) : asSignedInt n = some n :=
  if_pos ⟨by omega, hlt⟩

variable {timers : Timers C} {remaining : C → Int} {list : Option C} {l u v : List C}
  {a b c d toAdd : C} {timeout time : Int}

lemma Timed.last_append_singleton : Timed.last remaining time (u ++ [b]) = remaining b := by
  rw [Timed.last, List.getLast?_append, List.getLast?_singleton]
  rfl

/-- The differences are the same when less remains for all of them. -/
lemma Timed.sub {timeoutLeft : C → Int} {k : Int} (h : Timed timeoutLeft remaining k l)
    (time : Int) : Timed timeoutLeft (fun a => remaining a - time) (k - time) l := by
  induction l generalizing k with
  | nil => trivial
  | cons c l ih =>
      obtain ⟨hpos, heq, hrest⟩ := h
      refine ⟨hpos, ?_, ih hrest⟩
      change remaining c - time = k - time + timeoutLeft c
      omega

lemma nodup_insert (h : (u ++ v).Nodup) (hadd : toAdd ∉ u ++ v) : (u ++ toAdd :: v).Nodup := by
  rw [List.nodup_middle, List.nodup_cons]
  exact ⟨hadd, h⟩

variable [DecidableEq C]

/-- A write to an element is none to the members of a list without it. -/
lemma update_of_not_mem {D : Type*} {f : C → D} {x : D} (h : c ∉ l) :
    ∀ a ∈ l, Function.update f c x a = f a := by
  intro a ha
  refine Function.update_of_ne ?_ x f
  rintro rfl
  exact h ha

/-! ## Adding -/

/-- A new timer behind the last one. -/
lemma holdsTimers_append (h : HoldsTimers timers remaining list (u ++ [b]))
    (hadd : toAdd ∉ u ++ [b]) (hle : remaining b ≤ timeout) :
    HoldsTimers (appendTimer timers b toAdd (timeout - remaining b))
      (Function.update remaining toAdd timeout) list (u ++ [b] ++ [toAdd]) := by
  have hb : b ∉ u := fun hb => List.disjoint_of_nodup_append h.nodup hb List.mem_cons_self
  have hne : b ≠ toAdd := fun heq => hadd (heq ▸ List.mem_append_right u List.mem_cons_self)
  have hu : toAdd ∉ u := fun hu => hadd (List.mem_append_left _ hu)
  refine ⟨?_, ?_, ?_, ?_⟩
  · rw [h.head_eq]
    cases u <;> rfl
  · refine DoublyLinked.append_iff.mpr ⟨?_, ?_, ?_, DoublyLinked.nil⟩
    · refine h.linked.relink_last ?_ (fun a ha => ?_) ?_
      · exact update_of_not_mem hadd
      · change Function.update (Function.update timers.next b _) toAdd _ a = _
        rw [update_of_not_mem hu a ha, update_of_not_mem hb a ha]
      · change Function.update (Function.update timers.next b _) toAdd _ b = _
        rw [Function.update_of_ne hne, Function.update_self]
        rfl
    · change Function.update timers.previous toAdd _ toAdd = _
      rw [Function.update_self, List.getLast?_append]
      rfl
    · change Function.update (Function.update timers.next b _) toAdd _ toAdd = _
      rw [Function.update_self]
      rfl
  · refine List.Nodup.append h.nodup (List.nodup_singleton toAdd) ?_
    rw [List.disjoint_singleton]
    exact hadd
  · refine Timed.append_iff.mpr ⟨h.timed.congr (update_of_not_mem hadd) (update_of_not_mem hadd), ?_,
      ?_, trivial⟩
    · change 0 ≤ Function.update timers.timeoutLeft toAdd _ toAdd
      rw [Function.update_self]
      omega
    · rw [Timed.last_append_singleton, Function.update_self, Function.update_of_ne hne]
      change timeout = remaining b + Function.update timers.timeoutLeft toAdd _ toAdd
      rw [Function.update_self]
      omega

/-- A new timer between two others. -/
lemma holdsTimers_insert (h : HoldsTimers timers remaining list (u ++ [b] ++ c :: v))
    (hadd : toAdd ∉ u ++ [b] ++ c :: v) (hle : remaining b ≤ timeout) (hlt : timeout < remaining c)
    (hint : remaining c - timeout < 2 ^ 31) :
    ∃ timers', insertTimer timers c toAdd (timeout - remaining b) = some timers' ∧
      HoldsTimers timers' (Function.update remaining toAdd timeout) list
        (u ++ [b] ++ toAdd :: c :: v) := by
  obtain ⟨hfront, hback⟩ := DoublyLinked.append_iff.mp h.linked
  obtain ⟨htimed, hc, hremaining, hrest⟩ := Timed.append_iff.mp h.timed
  rw [Timed.last_append_singleton] at hremaining
  have hleft : timers.timeoutLeft c - (timeout - remaining b) = remaining c - timeout := by omega
  have hprevious : timers.previous c = some b := by
    rw [h.linked.previous_eq, List.getLast?_append]
    rfl
  -- all of them are different
  have haddFront : toAdd ∉ u ++ [b] := fun hmem => hadd (List.mem_append_left _ hmem)
  have haddBack : toAdd ∉ c :: v := fun hmem => hadd (List.mem_append_right _ hmem)
  have haddU : toAdd ∉ u := fun hmem => haddFront (List.mem_append_left _ hmem)
  have haddV : toAdd ∉ v := fun hmem => haddBack (List.mem_cons_of_mem c hmem)
  have hbAdd : b ≠ toAdd := by
    rintro rfl
    exact haddFront (List.mem_append_right u List.mem_cons_self)
  have hcAdd : c ≠ toAdd := by
    rintro rfl
    exact haddBack List.mem_cons_self
  obtain ⟨hnodupFront, hnodupBack, hdisjoint⟩ := List.nodup_append'.mp h.nodup
  have hbU : b ∉ u := fun hmem =>
    List.disjoint_of_nodup_append hnodupFront hmem List.mem_cons_self
  have hcV : c ∉ v := (List.nodup_cons.mp hnodupBack).1
  have hbBack : b ∉ c :: v := fun hmem =>
    hdisjoint (List.mem_append_right u List.mem_cons_self) hmem
  have hcFront : c ∉ u ++ [b] := fun hmem => hdisjoint hmem List.mem_cons_self
  have hbefore : (((timers.setTimeoutLeft c (remaining c - timeout)).setNext toAdd
      (some c)).setPrevious toAdd (timers.previous c)).previous c = some b := by
    change Function.update timers.previous toAdd _ c = _
    rw [Function.update_of_ne hcAdd, hprevious]
  rw [insertTimer, hleft, asSignedInt_of (by omega) hint, Option.bind_some]
  dsimp only
  rw [hbefore, hprevious]
  refine ⟨_, rfl, ?_, ?_, ?_, ?_⟩
  · rw [h.head_eq]
    cases u <;> rfl
  · refine DoublyLinked.append_iff.mpr ⟨?_, ?_, ?_, ?_⟩
    · refine hfront.relink_last (fun a ha => ?_) (fun a ha => ?_) ?_
      · change Function.update (Function.update timers.previous toAdd _) c _ a = _
        rw [update_of_not_mem hcFront a ha, update_of_not_mem haddFront a ha]
      · change Function.update (Function.update timers.next toAdd _) b _ a = _
        rw [update_of_not_mem hbU a ha, update_of_not_mem haddU a ha]
      · change Function.update (Function.update timers.next toAdd _) b _ b = _
        rw [Function.update_self]
        rfl
    · change Function.update (Function.update timers.previous toAdd _) c _ toAdd = _
      rw [Function.update_of_ne hcAdd.symm, Function.update_self, List.getLast?_append]
      rfl
    · change Function.update (Function.update timers.next toAdd _) b _ toAdd = _
      rw [Function.update_of_ne hbAdd.symm, Function.update_self]
      rfl
    · refine hback.relink_head (fun a ha => ?_) ?_ (fun a ha => ?_)
      · change Function.update (Function.update timers.previous toAdd _) c _ a = _
        rw [update_of_not_mem hcV a ha, update_of_not_mem haddV a ha]
      · change Function.update (Function.update timers.previous toAdd _) c _ c = _
        rw [Function.update_self]
      · change Function.update (Function.update timers.next toAdd _) b _ a = _
        rw [update_of_not_mem hbBack a ha, update_of_not_mem haddBack a ha]
  · exact nodup_insert h.nodup hadd
  · refine Timed.append_iff.mpr ⟨htimed.congr (fun a ha => ?_) (update_of_not_mem haddFront), ?_, ?_,
      ?_, ?_, ?_⟩
    · change Function.update (Function.update timers.timeoutLeft c _) toAdd _ a = _
      rw [update_of_not_mem haddFront a ha, update_of_not_mem hcFront a ha]
    · change 0 ≤ Function.update (Function.update timers.timeoutLeft c _) toAdd _ toAdd
      rw [Function.update_self]
      omega
    · rw [Timed.last_append_singleton, Function.update_self, Function.update_of_ne hbAdd]
      change timeout = remaining b +
        Function.update (Function.update timers.timeoutLeft c _) toAdd _ toAdd
      rw [Function.update_self]
      omega
    · change 0 ≤ Function.update (Function.update timers.timeoutLeft c _) toAdd _ c
      rw [Function.update_of_ne hcAdd, Function.update_self]
      omega
    · rw [Function.update_of_ne hcAdd, Function.update_self]
      change remaining c = timeout +
        Function.update (Function.update timers.timeoutLeft c _) toAdd _ c
      rw [Function.update_of_ne hcAdd, Function.update_self]
      omega
    · rw [Function.update_of_ne hcAdd]
      refine hrest.congr (fun a ha => ?_) (update_of_not_mem haddV)
      change Function.update (Function.update timers.timeoutLeft c _) toAdd _ a = _
      rw [update_of_not_mem haddV a ha, update_of_not_mem hcV a ha]

/-- A new timer before the first one. -/
lemma holdsTimers_prepend (h : HoldsTimers timers remaining list (c :: v))
    (hadd : toAdd ∉ c :: v) (hpos : 0 ≤ timeout) (hlt : timeout < remaining c) :
    HoldsTimers ((((((timers.setTimeoutLeft c (remaining c - timeout)).setNext toAdd
        (some c)).setPrevious toAdd none).setPrevious c (some toAdd)).setTimeoutLeft toAdd timeout))
      (Function.update remaining toAdd timeout) (some toAdd) (toAdd :: c :: v) := by
  obtain ⟨hc, hremaining, hrest⟩ := h.timed
  have haddV : toAdd ∉ v := fun hmem => hadd (List.mem_cons_of_mem c hmem)
  have hcAdd : c ≠ toAdd := by
    rintro rfl
    exact hadd List.mem_cons_self
  have hcV : c ∉ v := (List.nodup_cons.mp h.nodup).1
  refine ⟨rfl, ⟨?_, ?_, ?_⟩, List.nodup_cons.mpr ⟨hadd, h.nodup⟩, ?_, ?_, ?_, ?_, ?_⟩
  · change Function.update (Function.update timers.previous toAdd _) c _ toAdd = _
    rw [Function.update_of_ne hcAdd.symm, Function.update_self]
  · change Function.update timers.next toAdd _ toAdd = _
    rw [Function.update_self]
    rfl
  · refine h.linked.relink_head (fun a ha => ?_) ?_ (update_of_not_mem hadd)
    · change Function.update (Function.update timers.previous toAdd _) c _ a = _
      rw [update_of_not_mem hcV a ha, update_of_not_mem haddV a ha]
    · change Function.update (Function.update timers.previous toAdd _) c _ c = _
      rw [Function.update_self]
  · change 0 ≤ Function.update (Function.update timers.timeoutLeft c _) toAdd _ toAdd
    rw [Function.update_self]
    exact hpos
  · rw [Function.update_self]
    change timeout = 0 + Function.update (Function.update timers.timeoutLeft c _) toAdd _ toAdd
    rw [Function.update_self]
    omega
  · change 0 ≤ Function.update (Function.update timers.timeoutLeft c _) toAdd _ c
    rw [Function.update_of_ne hcAdd, Function.update_self]
    omega
  · rw [Function.update_of_ne hcAdd, Function.update_self]
    change remaining c = timeout +
      Function.update (Function.update timers.timeoutLeft c _) toAdd _ c
    rw [Function.update_of_ne hcAdd, Function.update_self]
    omega
  · rw [Function.update_of_ne hcAdd]
    refine hrest.congr (fun a ha => ?_) (update_of_not_mem haddV)
    change Function.update (Function.update timers.timeoutLeft c _) toAdd _ a = _
    rw [update_of_not_mem haddV a ha, update_of_not_mem hcV a ha]

/-- The loop finds the place: behind `front` it goes on over `u`. -/
lemma addLoop_eq {front : List C} {fuel : Nat}
    (h : HoldsTimers timers remaining list (front ++ u ++ v)) (hadd : toAdd ∉ front ++ u ++ v)
    (hhead : (u ++ v).head? = some c) (hu : ∀ a ∈ u, remaining a ≤ timeout)
    (hv : ∀ a ∈ v, timeout < remaining a) (hfront : ∀ a ∈ front, remaining a ≤ timeout)
    (hne : u = [] → front ≠ []) (hint : timeout < 2 ^ 31) (hfuel : u.length < fuel)
    (hrange : ∀ a ∈ v, remaining a < 2 ^ 31) (hpos : 0 < timeout) :
    ∃ timers', addLoop toAdd fuel timers c (timeout - Timed.last remaining 0 front) =
        some timers' ∧ HoldsTimers timers' (Function.update remaining toAdd timeout) list
          (front ++ u ++ toAdd :: v) := by
  induction u generalizing front fuel c with
  | nil =>
      rcases List.eq_nil_or_concat' front with rfl | ⟨front, b, rfl⟩
      · exact absurd rfl (hne rfl)
      · obtain ⟨fuel, rfl⟩ := Nat.exists_eq_succ_of_ne_zero (Nat.ne_zero_of_lt hfuel)
        obtain ⟨v, rfl⟩ : ∃ v', v = c :: v' := List.head?_eq_some_iff.mp hhead
        rw [List.append_nil] at h hadd ⊢
        rw [Timed.last_append_singleton]
        obtain ⟨-, -, hremaining, -⟩ := Timed.append_iff.mp h.timed
        rw [Timed.last_append_singleton] at hremaining
        have hlt := hv c List.mem_cons_self
        have hrangeC := hrange c List.mem_cons_self
        rw [addLoop, if_neg (by omega)]
        exact holdsTimers_insert h hadd (hfront b (by simp)) hlt (by omega)
  | cons a u ih =>
      obtain ⟨fuel, rfl⟩ := Nat.exists_eq_succ_of_ne_zero (Nat.ne_zero_of_lt hfuel)
      obtain rfl : a = c := Option.some.inj hhead
      have hlist : front ++ a :: u ++ v = front ++ [a] ++ u ++ v := by
        simp only [List.append_assoc, List.cons_append, List.nil_append]
      have hle := hu a List.mem_cons_self
      have hlinked := h.linked
      have htimed := h.timed
      rw [List.append_assoc] at hlinked htimed
      obtain ⟨-, hnonneg, hremaining, -⟩ := Timed.append_iff.mp htimed
      have hzero : 0 ≤ remaining a :=
        h.timed.le_remaining a (by simp)
      have htime : timeout - Timed.last remaining 0 front - timers.timeoutLeft a =
          timeout - Timed.last remaining 0 (front ++ [a]) := by
        rw [Timed.last_append_singleton]
        omega
      have hnext : timers.next a = (u ++ v).head? := by
        rw [hlinked.next_eq, Option.or_none]
        rfl
      have hfits : asSignedInt (timeout - Timed.last remaining 0 (front ++ [a])) =
          some (timeout - Timed.last remaining 0 (front ++ [a])) := by
        rw [Timed.last_append_singleton]
        exact asSignedInt_of (by omega) (by omega)
      rw [addLoop, if_pos (by omega), htime, hfits, Option.bind_some, hnext]
      cases hrest : (u ++ v).head? with
      | none =>
          obtain ⟨rfl, rfl⟩ := List.append_eq_nil_iff.mp (List.head?_eq_none_iff.mp hrest)
          rw [List.append_nil] at h hadd
          refine ⟨_, rfl, ?_⟩
          rw [Timed.last_append_singleton]
          exact holdsTimers_append h hadd hle
      | some d =>
          have hd : d ≠ toAdd := by
            rintro rfl
            refine hadd ?_
            rw [List.append_assoc]
            exact List.mem_append_right front (List.mem_cons_of_mem a (List.mem_of_mem_head? hrest))
          rw [hlist] at h hadd
          have hfront' : ∀ b ∈ front ++ [a], remaining b ≤ timeout := by
            intro b hb
            rcases List.mem_append.mp hb with hb | hb
            · exact hfront b hb
            · rw [List.mem_singleton.mp hb]
              exact hle
          obtain ⟨timers', heq, hholds⟩ := ih h hadd hrest
            (fun b hb => hu b (List.mem_cons_of_mem a hb)) hfront' (fun _ => by simp)
            (Nat.lt_of_succ_lt_succ hfuel)
          refine ⟨timers', ?_, ?_⟩
          · dsimp only
            rw [if_neg hd]
            exact heq
          · simp only [List.append_assoc, List.cons_append, List.nil_append] at hholds ⊢
            exact hholds

/-- **Adding a timer.**  It goes behind those that do not expire later. -/
theorem pubnubTimerListAdd_eq {fuel : Nat} (h : HoldsTimers timers remaining list (u ++ v))
    (hadd : toAdd ∉ u ++ v) (hpos : 0 < timeout) (hint : timeout < 2 ^ 31)
    (hu : ∀ a ∈ u, remaining a ≤ timeout) (hv : ∀ a ∈ v, timeout < remaining a)
    (hrange : ∀ a ∈ v, remaining a < 2 ^ 31) (hfuel : u.length < fuel) :
    ∃ timers' list', pubnubTimerListAdd fuel timers list toAdd timeout = some (timers', list') ∧
      HoldsTimers timers' (Function.update remaining toAdd timeout) list' (u ++ toAdd :: v) := by
  have hnot := Int.not_le.mpr hpos
  cases hlist : list with
  | none =>
      obtain ⟨rfl, rfl⟩ := List.append_eq_nil_iff.mp
        (List.head?_eq_none_iff.mp (h.head_eq.symm.trans hlist))
      rw [pubnubTimerListAdd, if_neg hnot]
      refine ⟨_, _, rfl, rfl, ⟨?_, ?_, DoublyLinked.nil⟩, List.nodup_singleton toAdd, ?_, ?_, trivial⟩
      · exact Function.update_self toAdd _ _
      · exact Function.update_self toAdd _ _
      · change 0 ≤ Function.update timers.timeoutLeft toAdd timeout toAdd
        rw [Function.update_self]
        exact Int.le_of_lt hpos
      · change _ = 0 + Function.update timers.timeoutLeft toAdd timeout toAdd
        rw [Function.update_self, Function.update_self, Int.zero_add]
  | some c =>
      have hhead : (u ++ v).head? = some c := h.head_eq.symm.trans hlist
      have hc : c ≠ toAdd := by
        rintro rfl
        exact hadd (List.mem_of_mem_head? hhead)
      rw [pubnubTimerListAdd, if_neg hnot, if_neg hc]
      obtain ⟨back, hback⟩ := List.head?_eq_some_iff.mp hhead
      have hremaining : remaining c = timers.timeoutLeft c := by
        have htimed := h.timed
        rw [hback] at htimed
        exact htimed.2.1.trans (Int.zero_add _)
      cases u with
      | nil =>
          obtain rfl : v = c :: back := hback
          have hlt := hv c List.mem_cons_self
          have hrangeC := hrange c List.mem_cons_self
          rw [if_pos (by omega), ← hremaining, asSignedInt_of (by omega) (by omega), Option.map_some]
          exact ⟨_, _, rfl, holdsTimers_prepend h hadd (Int.le_of_lt hpos) hlt⟩
      | cons a u =>
          obtain rfl : a = c := Option.some.inj hhead
          have hle := hu a List.mem_cons_self
          obtain ⟨timers', heq, hholds⟩ := addLoop_eq h hadd hhead hu hv
            (fun b hb => absurd hb List.not_mem_nil) (fun hnil => by cases hnil) hint hfuel hrange
            hpos
          have hzero : timeout - Timed.last remaining 0 [] = timeout := Int.sub_zero timeout
          rw [hzero] at heq
          rw [if_neg (by omega), heq, Option.map_some]
          refine ⟨timers', _, rfl, ?_⟩
          rw [hlist] at hholds
          exact hholds

/-! ## Removing -/

/-- Without the first timer, what is left of it goes to the second one. -/
lemma holdsTimers_removeHead (h : HoldsTimers timers remaining list (c :: d :: v)) :
    HoldsTimers (unlink ((timers.setTimeoutLeft d (remaining d)).setPrevious d none) c) remaining
      (some d) (d :: v) := by
  obtain ⟨hc, hdv⟩ := List.nodup_cons.mp h.nodup
  have hd : d ∉ v := (List.nodup_cons.mp hdv).1
  have hcV : c ∉ v := fun hmem => hc (List.mem_cons_of_mem d hmem)
  have hne : d ≠ c := by
    rintro rfl
    exact hc List.mem_cons_self
  obtain ⟨-, hremaining, hpos, hsecond, hrest⟩ := h.timed
  have hnonneg := h.timed.le_remaining d (List.mem_cons_of_mem c List.mem_cons_self)
  refine ⟨rfl, ?_, hdv, ?_, ?_, ?_⟩
  · refine h.linked.2.2.relink_head (fun a ha => ?_) ?_ (update_of_not_mem hc)
    · change Function.update (Function.update timers.previous d _) c _ a = _
      rw [update_of_not_mem hcV a ha, update_of_not_mem hd a ha]
    · change Function.update (Function.update timers.previous d _) c _ d = _
      rw [Function.update_of_ne hne, Function.update_self]
  · change 0 ≤ Function.update timers.timeoutLeft d _ d
    rw [Function.update_self]
    exact hnonneg
  · change _ = 0 + Function.update timers.timeoutLeft d _ d
    rw [Function.update_self, Int.zero_add]
  · exact hrest.congr (update_of_not_mem hd) fun _ _ => rfl

/-- Without the last timer. -/
lemma holdsTimers_removeLast (h : HoldsTimers timers remaining list (u ++ [b] ++ [c])) :
    HoldsTimers ((timers.setNext b none).setPrevious c none) remaining list (u ++ [b]) := by
  obtain ⟨hnodup, -, hdisjoint⟩ := List.nodup_append'.mp h.nodup
  have hc : c ∉ u ++ [b] := fun hmem => hdisjoint hmem List.mem_cons_self
  have hb : b ∉ u := fun hmem => List.disjoint_of_nodup_append hnodup hmem List.mem_cons_self
  refine ⟨?_, ?_, hnodup, (Timed.append_iff.mp h.timed).1⟩
  · rw [h.head_eq]
    cases u <;> rfl
  · refine (DoublyLinked.append_iff.mp h.linked).1.relink_last (update_of_not_mem hc)
      (update_of_not_mem hb) ?_
    exact Function.update_self b _ _

/-- Without a timer in the middle, what is left of it goes to the one behind it. -/
lemma holdsTimers_removeMiddle (h : HoldsTimers timers remaining list (u ++ [b] ++ c :: d :: v)) :
    HoldsTimers (unlink (((timers.setTimeoutLeft d (remaining d - remaining b)).setNext b
      (some d)).setPrevious d (some b)) c) remaining list (u ++ [b] ++ d :: v) := by
  obtain ⟨hfront, hback⟩ := DoublyLinked.append_iff.mp h.linked
  obtain ⟨htimed, hc, hremaining, hd, hbehind, hrest⟩ := Timed.append_iff.mp h.timed
  rw [Timed.last_append_singleton] at hremaining
  obtain ⟨hnodup, hnodupBack, hdisjoint⟩ := List.nodup_append'.mp h.nodup
  obtain ⟨hcBack, hnodupD⟩ := List.nodup_cons.mp hnodupBack
  have hcFront : c ∉ u ++ [b] := fun hmem => hdisjoint hmem List.mem_cons_self
  have hdFront : d ∉ u ++ [b] := fun hmem =>
    hdisjoint hmem (List.mem_cons_of_mem c List.mem_cons_self)
  have hbU : b ∉ u := fun hmem => List.disjoint_of_nodup_append hnodup hmem List.mem_cons_self
  have hcU : c ∉ u := fun hmem => hcFront (List.mem_append_left _ hmem)
  have hbBack : b ∉ d :: v := fun hmem =>
    hdisjoint (List.mem_append_right u List.mem_cons_self) (List.mem_cons_of_mem c hmem)
  have hdV : d ∉ v := (List.nodup_cons.mp hnodupD).1
  have hcV : c ∉ v := fun hmem => hcBack (List.mem_cons_of_mem d hmem)
  have hbc : b ≠ c := by
    rintro rfl
    exact hcFront (List.mem_append_right u List.mem_cons_self)
  have hdc : d ≠ c := by
    rintro rfl
    exact hcBack List.mem_cons_self
  refine ⟨?_, DoublyLinked.append_iff.mpr ⟨?_, ?_⟩, ?_, Timed.append_iff.mpr ⟨?_, ?_, ?_, ?_⟩⟩
  · rw [h.head_eq]
    cases u <;> rfl
  · refine hfront.relink_last (fun a ha => ?_) (fun a ha => ?_) ?_
    · change Function.update (Function.update timers.previous d _) c _ a = _
      rw [update_of_not_mem hcFront a ha, update_of_not_mem hdFront a ha]
    · change Function.update (Function.update timers.next b _) c _ a = _
      rw [update_of_not_mem hcU a ha, update_of_not_mem hbU a ha]
    · change Function.update (Function.update timers.next b _) c _ b = _
      rw [Function.update_of_ne hbc, Function.update_self]
      rfl
  · refine hback.2.2.relink_head (fun a ha => ?_) ?_ (fun a ha => ?_)
    · change Function.update (Function.update timers.previous d _) c _ a = _
      rw [update_of_not_mem hcV a ha, update_of_not_mem hdV a ha]
    · change Function.update (Function.update timers.previous d _) c _ d = _
      rw [Function.update_of_ne hdc, Function.update_self, List.getLast?_append]
      rfl
    · change Function.update (Function.update timers.next b _) c _ a = _
      rw [update_of_not_mem hcBack a ha, update_of_not_mem hbBack a ha]
  · refine List.nodup_append'.mpr ⟨hnodup, hnodupD, ?_⟩
    exact List.disjoint_of_disjoint_cons_right hdisjoint
  · exact htimed.congr (update_of_not_mem hdFront) fun _ _ => rfl
  · change 0 ≤ Function.update timers.timeoutLeft d _ d
    rw [Function.update_self]
    omega
  · rw [Timed.last_append_singleton]
    change _ = remaining b + Function.update timers.timeoutLeft d _ d
    rw [Function.update_self]
    omega
  · exact hrest.congr (update_of_not_mem hdV) fun _ _ => rfl

/-- **Removing a timer.**  The times that remain for the others are the same. -/
theorem pubnubTimerListRemove_eq (h : HoldsTimers timers remaining list (u ++ c :: v))
    (hrange : ∀ a ∈ v, remaining a < 2 ^ 31) :
    ∃ timers' list', pubnubTimerListRemove timers list c = some (timers', list') ∧
      HoldsTimers timers' remaining list' (u ++ v) := by
  have hnext : timers.next c = v.head? := by
    rw [h.linked.next_eq, Option.or_none]
  have hprevious : timers.previous c = u.getLast? := by
    rw [h.linked.previous_eq, Option.or_none]
  rcases List.eq_nil_or_concat' u with rfl | ⟨u, b, rfl⟩
  · have hlist : list = some c := h.head_eq
    rw [pubnubTimerListRemove, hlist, Option.bind_some, if_pos rfl, hnext]
    cases v with
    | nil => exact ⟨_, _, rfl, rfl, DoublyLinked.nil, List.nodup_nil, trivial⟩
    | cons d v =>
        obtain ⟨-, hremaining, -, hsecond, -⟩ := h.timed
        have hsum : timers.timeoutLeft d + timers.timeoutLeft c = remaining d := by omega
        have hnonneg := h.timed.le_remaining d (List.mem_cons_of_mem c List.mem_cons_self)
        dsimp only [List.head?_cons]
        rw [hsum, asSignedInt_of hnonneg (hrange d List.mem_cons_self), Option.map_some]
        exact ⟨_, _, rfl, holdsTimers_removeHead h⟩
  · obtain ⟨a, ha, hmem⟩ : ∃ a, list = some a ∧ a ∈ u ++ [b] := by
      rw [h.head_eq]
      cases u with
      | nil => exact ⟨b, rfl, List.mem_cons_self⟩
      | cons a u => exact ⟨a, rfl, List.mem_cons_self⟩
    have hne : a ≠ c := by
      rintro rfl
      exact List.disjoint_of_nodup_append h.nodup hmem List.mem_cons_self
    have hbefore : timers.previous c = some b := by
      rw [hprevious, List.getLast?_append]
      rfl
    rw [pubnubTimerListRemove, ha, Option.bind_some, if_neg hne, hnext, hbefore]
    cases v with
    | nil =>
        refine ⟨_, _, rfl, ?_⟩
        rw [List.append_nil, ← ha]
        exact holdsTimers_removeLast h
    | cons d v =>
        obtain ⟨-, hc, hremaining, hd, hbehind, -⟩ := Timed.append_iff.mp h.timed
        rw [Timed.last_append_singleton] at hremaining
        have hsum : timers.timeoutLeft d + timers.timeoutLeft c = remaining d - remaining b := by
          omega
        have hnonneg := h.timed.le_remaining b (by simp)
        have hlt := hrange d List.mem_cons_self
        dsimp only [List.head?_cons]
        rw [hsum, asSignedInt_of (by omega) (by omega), Option.bind_some, Option.map_some]
        refine ⟨_, _, rfl, ?_⟩
        rw [← ha]
        exact holdsTimers_removeMiddle h

/-! ## Time goes by -/

/-- The list is taken apart between two timers: those before it have expired. -/
lemma holdsTimers_split (h : HoldsTimers timers remaining list (u ++ [b] ++ c :: v))
    (hlt : time < remaining c) (hint : remaining c - time < 2 ^ 31) :
    ∃ timers', splitTimers timers c (time - remaining b) = some (timers', some c) ∧
      HoldsTimers timers' (fun a => remaining a - time) (some c) (c :: v) ∧
      HoldsTimers timers' remaining list (u ++ [b]) := by
  obtain ⟨hfront, hback⟩ := DoublyLinked.append_iff.mp h.linked
  obtain ⟨htimed, hc, hremaining, hrest⟩ := Timed.append_iff.mp h.timed
  rw [Timed.last_append_singleton] at hremaining
  obtain ⟨hnodup, hnodupBack, hdisjoint⟩ := List.nodup_append'.mp h.nodup
  have hcFront : c ∉ u ++ [b] := fun hmem => hdisjoint hmem List.mem_cons_self
  have hbU : b ∉ u := fun hmem => List.disjoint_of_nodup_append hnodup hmem List.mem_cons_self
  have hbBack : b ∉ c :: v := fun hmem =>
    hdisjoint (List.mem_append_right u List.mem_cons_self) hmem
  have hcV : c ∉ v := (List.nodup_cons.mp hnodupBack).1
  have hleft : timers.timeoutLeft c - (time - remaining b) = remaining c - time := by omega
  have hprevious : timers.previous c = some b := by
    rw [h.linked.previous_eq, List.getLast?_append]
    rfl
  rw [splitTimers, hleft, asSignedInt_of (by omega) hint, Option.bind_some, hprevious]
  refine ⟨_, rfl, ⟨rfl, ?_, hnodupBack, ?_, ?_, ?_⟩, ?_, ?_, hnodup, ?_⟩
  · refine hback.relink_head (update_of_not_mem hcV) (Function.update_self c _ _)
      (update_of_not_mem hbBack)
  · change 0 ≤ Function.update timers.timeoutLeft c _ c
    rw [Function.update_self]
    omega
  · change _ = 0 + Function.update timers.timeoutLeft c _ c
    rw [Function.update_self, Int.zero_add]
  · exact (hrest.sub time).congr (update_of_not_mem hcV) fun _ _ => rfl
  · rw [h.head_eq]
    cases u <;> rfl
  · exact hfront.relink_last (update_of_not_mem hcFront) (update_of_not_mem hbU)
      (Function.update_self b _ _)
  · exact htimed.congr (update_of_not_mem hcFront) fun _ _ => rfl

/-- The loop finds the first timer that has not expired. -/
lemma goesByLoop_eq {front : List C} {fuel : Nat}
    (h : HoldsTimers timers remaining list (front ++ u ++ v)) (hhead : (u ++ v).head? = some c)
    (hu : ∀ a ∈ u, remaining a ≤ time) (hv : ∀ a ∈ v, time < remaining a)
    (hne : u = [] → front ≠ []) (hint : time < 2 ^ 31) (hpos : 0 < time)
    (hrange : ∀ a ∈ v, remaining a < 2 ^ 31) (hfuel : u.length < fuel) :
    ∃ timers', goesByLoop fuel timers c (time - Timed.last remaining 0 front) =
        some (timers', v.head?) ∧
      HoldsTimers timers' (fun a => remaining a - time) v.head? v ∧
      HoldsTimers timers' remaining list (front ++ u) := by
  induction u generalizing front fuel c with
  | nil =>
      rcases List.eq_nil_or_concat' front with rfl | ⟨front, b, rfl⟩
      · exact absurd rfl (hne rfl)
      · obtain ⟨fuel, rfl⟩ := Nat.exists_eq_succ_of_ne_zero (Nat.ne_zero_of_lt hfuel)
        obtain ⟨v, rfl⟩ : ∃ v', v = c :: v' := List.head?_eq_some_iff.mp hhead
        rw [List.append_nil] at h ⊢
        obtain ⟨-, -, hremaining, -⟩ := Timed.append_iff.mp h.timed
        rw [Timed.last_append_singleton] at hremaining ⊢
        have hlt := hv c List.mem_cons_self
        have hrangeC := hrange c List.mem_cons_self
        rw [goesByLoop, if_neg (by omega)]
        exact holdsTimers_split h hlt (by omega)
  | cons a u ih =>
      obtain ⟨fuel, rfl⟩ := Nat.exists_eq_succ_of_ne_zero (Nat.ne_zero_of_lt hfuel)
      obtain rfl : a = c := Option.some.inj hhead
      have hlist : front ++ a :: u = front ++ [a] ++ u := by
        simp only [List.append_assoc, List.cons_append, List.nil_append]
      have hle := hu a List.mem_cons_self
      have hlinked := h.linked
      have htimed := h.timed
      rw [List.append_assoc] at hlinked htimed
      obtain ⟨-, hnonneg, hremaining, -⟩ := Timed.append_iff.mp htimed
      have hzero : 0 ≤ remaining a := h.timed.le_remaining a (by simp)
      have htime : time - Timed.last remaining 0 front - timers.timeoutLeft a =
          time - Timed.last remaining 0 (front ++ [a]) := by
        rw [Timed.last_append_singleton]
        omega
      have hnext : timers.next a = (u ++ v).head? := by
        rw [hlinked.next_eq, Option.or_none]
        rfl
      have hfits : asSignedInt (time - Timed.last remaining 0 (front ++ [a])) =
          some (time - Timed.last remaining 0 (front ++ [a])) := by
        rw [Timed.last_append_singleton]
        exact asSignedInt_of (by omega) (by omega)
      rw [goesByLoop, if_pos (by omega), htime, hfits, Option.bind_some, hnext]
      rw [hlist] at h ⊢
      cases hrest : (u ++ v).head? with
      | none =>
          obtain ⟨rfl, rfl⟩ := List.append_eq_nil_iff.mp (List.head?_eq_none_iff.mp hrest)
          rw [List.append_nil] at h
          exact ⟨timers, rfl, ⟨rfl, DoublyLinked.nil, List.nodup_nil, trivial⟩, h⟩
      | some d =>
          exact ih h hrest (fun b hb => hu b (List.mem_cons_of_mem a hb)) (fun _ => by simp)
            (Nat.lt_of_succ_lt_succ hfuel)

/-- **Time goes by.**  The timers that expire are a list of their own then, in their order, and for
    the others so much less remains. -/
theorem pubnubTimerListAsTimeGoesBy_eq {fuel : Nat}
    (h : HoldsTimers timers remaining list (u ++ v)) (hpos : 0 < time) (hint : time < 2 ^ 31)
    (hu : ∀ a ∈ u, remaining a ≤ time) (hv : ∀ a ∈ v, time < remaining a)
    (hrange : ∀ a ∈ v, remaining a < 2 ^ 31) (hfuel : u.length < fuel) :
    ∃ timers', pubnubTimerListAsTimeGoesBy fuel timers list time =
        some (timers', v.head?, u.head?) ∧
      HoldsTimers timers' (fun a => remaining a - time) v.head? v ∧
      HoldsTimers timers' remaining u.head? u := by
  have hnot := Int.not_le.mpr hpos
  cases hlist : list with
  | none =>
      obtain ⟨rfl, rfl⟩ := List.append_eq_nil_iff.mp
        (List.head?_eq_none_iff.mp (h.head_eq.symm.trans hlist))
      rw [pubnubTimerListAsTimeGoesBy, if_neg hnot]
      have hempty : ∀ r : C → Int, HoldsTimers timers r none [] := fun r =>
        ⟨rfl, DoublyLinked.nil, List.nodup_nil, trivial⟩
      exact ⟨timers, rfl, hempty _, hempty _⟩
  | some c =>
      have hhead : (u ++ v).head? = some c := h.head_eq.symm.trans hlist
      rw [pubnubTimerListAsTimeGoesBy, if_neg hnot]
      obtain ⟨back, hback⟩ := List.head?_eq_some_iff.mp hhead
      have hremaining : remaining c = timers.timeoutLeft c := by
        have htimed := h.timed
        rw [hback] at htimed
        exact htimed.2.1.trans (Int.zero_add _)
      cases u with
      | nil =>
          obtain rfl : v = c :: back := hback
          have hlt := hv c List.mem_cons_self
          have hrangeC := hrange c List.mem_cons_self
          obtain ⟨hcBack, -⟩ := List.nodup_cons.mp h.nodup
          obtain ⟨-, -, hrest⟩ := h.timed
          dsimp only
          rw [if_pos (by omega), ← hremaining, asSignedInt_of (by omega) (by omega), Option.map_some]
          refine ⟨_, rfl, ⟨rfl, h.linked, h.nodup, ?_, ?_, ?_⟩, rfl, DoublyLinked.nil,
            List.nodup_nil, trivial⟩
          · change 0 ≤ Function.update timers.timeoutLeft c _ c
            rw [Function.update_self]
            omega
          · change _ = 0 + Function.update timers.timeoutLeft c _ c
            rw [Function.update_self, Int.zero_add]
          · exact (hrest.sub time).congr (update_of_not_mem hcBack) fun _ _ => rfl
      | cons a u =>
          obtain rfl : a = c := Option.some.inj hhead
          have hle := hu a List.mem_cons_self
          have hstart : HoldsTimers timers remaining list ([] ++ a :: u ++ v) := h
          obtain ⟨timers', heq, hleft, hexpired⟩ := goesByLoop_eq hstart hhead hu hv
            (fun hnil => by cases hnil) hint hpos hrange hfuel
          have hzero : time - Timed.last remaining 0 [] = time := Int.sub_zero time
          rw [hzero] at heq
          dsimp only
          rw [if_neg (by omega), heq, Option.map_some]
          rw [hlist] at hexpired
          exact ⟨timers', rfl, hleft, hexpired⟩

end PubNub
