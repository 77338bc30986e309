import PubNubCore.Lib.Machine
import PubNubCore.Timers.Operations

/-!
# The timers that run

What the list of timers is for: a timer is added with a timeout, runs until it is removed, and
expires when so much time has gone by.  `TimerSystem` has this next to the list: `now` is the time
that has gone by altogether, and `due` says which contexts have a timer and when it expires.

In every run the list is well linked, has exactly the contexts with a timer as its members, and the
sum of the differences up to one of them is the time that remains for it
(`timerList_right`).  A context has to have no timer when it is added: the function looks for it
only as far as it goes, and adding a member that is behind its own place closes a circle
(`timerList_not_always_right`).
-/

namespace PubNub

universe u

variable {C : Type u} [DecidableEq C]

/-- The contexts, the head of the list, the time that has gone by, and when the timers expire. -/
structure TimerSystem (C : Type u) where
  timers : Timers C
  list : Option C
  now : Int
  due : C → Option Int

/-- The calls.  The loops have some fuel. -/
inductive TimerCall (C : Type u)
  | add (toAdd : C) (timeout : Int) (fuel : Nat)
  | remove (toRemove : C)
  | asTimeGoesBy (time : Int) (fuel : Nat)

/-- The loop, if there is one, may go over so many members. -/
def TimerCall.HasFuel (members : Nat) : TimerCall C → Prop
  | .add _ _ fuel => members < fuel
  | .remove _ => True
  | .asTimeGoesBy _ fuel => members < fuel

namespace TimerSystem

variable (s : TimerSystem C)

/-- What remains for a context with a timer. -/
def remaining (c : C) : Int := (s.due c).getD 0 - s.now

/-- The timers that are still there then. -/
def dueAfter (time : Int) (c : C) : Option Int :=
  (s.due c).filter fun due => decide (s.now + time < due)

/-- A call, if it returns. -/
def call : TimerCall C → Option (TimerSystem C)
  | .add toAdd timeout fuel =>
      (pubnubTimerListAdd fuel s.timers s.list toAdd timeout).map fun (timers, list) =>
        { s with
          timers := timers, list := list
          due := Function.update s.due toAdd (some (s.now + timeout)) }
  | .remove toRemove =>
      (pubnubTimerListRemove s.timers s.list toRemove).map fun (timers, list) =>
        { s with timers := timers, list := list, due := Function.update s.due toRemove none }
  | .asTimeGoesBy time fuel =>
      (pubnubTimerListAsTimeGoesBy fuel s.timers s.list time).map fun (timers, list, _) =>
        { s with timers := timers, list := list, now := s.now + time, due := s.dueAfter time }

end TimerSystem

/-- A positive `int`. -/
def IsTimeout (time : Int) : Prop := 0 < time ∧ time < 2 ^ 31

/-- The calls that are made: timers are added with a timeout, and only to contexts without one, and
    they are removed from contexts with one. -/
def TimerCallMade (s : TimerSystem C) : TimerCall C → Prop
  | .add toAdd timeout _ => IsTimeout timeout ∧ s.due toAdd = none
  | .remove toRemove => (s.due toRemove).isSome = true
  | .asTimeGoesBy time _ => IsTimeout time

/-- The timers, with none at the beginning. -/
def timerMachine (timers : Timers C) : Machine (TimerSystem C) (TimerCall C) where
  init := ⟨timers, none, 0, fun _ => none⟩
  step := TimerSystem.call

/-! ## More fuel -/

lemma addLoop_mono {toAdd : C} {fuel : Nat} (k : Nat) : ∀ {timers timers' : Timers C} {pbp : C}
    {timeout : Int}, addLoop toAdd fuel timers pbp timeout = some timers' →
      addLoop toAdd (fuel + k) timers pbp timeout = some timers' := by
  induction fuel with
  | zero =>
      intro timers timers' pbp timeout h
      cases h
  | succ fuel ih =>
      intro timers timers' pbp timeout h
      rw [Nat.succ_add, addLoop]
      rw [addLoop] at h
      split at h
      · rename_i hle
        rw [if_pos hle]
        obtain ⟨left, hleft, h⟩ := Option.bind_eq_some_iff.mp h
        rw [hleft, Option.bind_some]
        cases hnext : timers.next pbp with
        | none =>
            rw [hnext] at h
            exact h
        | some b =>
            rw [hnext] at h
            dsimp only at h ⊢
            split at h
            · cases h
            · rename_i hb
              rw [if_neg hb]
              exact ih h
      · rename_i hle
        rw [if_neg hle]
        exact h

lemma pubnubTimerListAdd_mono {toAdd : C} {fuel : Nat} (k : Nat) {timers : Timers C}
    {list : Option C} {timeout : Int} {result : Timers C × Option C}
    (h : pubnubTimerListAdd fuel timers list toAdd timeout = some result) :
    pubnubTimerListAdd (fuel + k) timers list toAdd timeout = some result := by
  cases list with
  | none => exact h
  | some list =>
      rw [pubnubTimerListAdd] at h ⊢
      split at h
      · cases h
      · rename_i hpos
        rw [if_neg hpos]
        split at h
        · cases h
        · rename_i hne
          rw [if_neg hne]
          split at h
          · rename_i hlt
            rw [if_pos hlt]
            exact h
          · rename_i hlt
            rw [if_neg hlt]
            obtain ⟨timers', hloop, hpair⟩ := Option.map_eq_some_iff.mp h
            rw [addLoop_mono k hloop, Option.map_some, hpair]

lemma goesByLoop_mono {fuel : Nat} (k : Nat) : ∀ {timers : Timers C} {list : C} {time : Int}
    {result : Timers C × Option C}, goesByLoop fuel timers list time = some result →
      goesByLoop (fuel + k) timers list time = some result := by
  induction fuel with
  | zero =>
      intro timers list time result h
      cases h
  | succ fuel ih =>
      intro timers list time result h
      rw [Nat.succ_add, goesByLoop]
      rw [goesByLoop] at h
      split at h
      · rename_i hle
        rw [if_pos hle]
        obtain ⟨left, hleft, h⟩ := Option.bind_eq_some_iff.mp h
        rw [hleft, Option.bind_some]
        cases hnext : timers.next list with
        | none =>
            rw [hnext] at h
            exact h
        | some b =>
            rw [hnext] at h
            exact ih h
      · rename_i hle
        rw [if_neg hle]
        exact h

lemma pubnubTimerListAsTimeGoesBy_mono {fuel : Nat} (k : Nat) {timers : Timers C}
    {list : Option C} {time : Int} {result : Timers C × Option C × Option C}
    (h : pubnubTimerListAsTimeGoesBy fuel timers list time = some result) :
    pubnubTimerListAsTimeGoesBy (fuel + k) timers list time = some result := by
  cases list with
  | none => exact h
  | some list =>
      rw [pubnubTimerListAsTimeGoesBy] at h ⊢
      split at h
      · cases h
      · rename_i hpos
        rw [if_neg hpos]
        dsimp only at h ⊢
        split at h
        · rename_i hlt
          rw [if_pos hlt]
          exact h
        · rename_i hlt
          rw [if_neg hlt]
          obtain ⟨timers', hloop, hpair⟩ := Option.map_eq_some_iff.mp h
          rw [goesByLoop_mono k hloop, Option.map_some, hpair]

/-! ## The invariant -/

/-- The members of the list are the contexts with a timer, and what remains for them is an
    `int`. -/
structure TimerInvariant (s : TimerSystem C) (members : List C) : Prop where
  holds : HoldsTimers s.timers s.remaining s.list members
  mem_iff : ∀ c, c ∈ members ↔ (s.due c).isSome = true
  inRange : ∀ c ∈ members, s.remaining c < 2 ^ 31

variable {s s' : TimerSystem C} {members u v : List C} {c toAdd toRemove : C} {time timeout : Int}
  {fuel : Nat}

omit [DecidableEq C] in
/-- The members up to the ones for which more time remains. -/
lemma Timed.exists_split {timeoutLeft remaining : C → Int} {k : Int} {l : List C}
    (h : Timed timeoutLeft remaining k l) (time : Int) : ∃ u v, l = u ++ v ∧
      (∀ a ∈ u, remaining a ≤ time) ∧ ∀ a ∈ v, time < remaining a := by
  induction l generalizing k with
  | nil => exact ⟨[], [], rfl, List.forall_mem_nil _, List.forall_mem_nil _⟩
  | cons c l ih =>
      obtain ⟨-, -, hrest⟩ := h
      by_cases hle : remaining c ≤ time
      · obtain ⟨u, v, rfl, hu, hv⟩ := ih hrest
        refine ⟨c :: u, v, rfl, fun a ha => ?_, hv⟩
        rcases List.mem_cons.mp ha with rfl | ha
        · exact hle
        · exact hu a ha
      · refine ⟨[], c :: l, rfl, List.forall_mem_nil _, fun a ha => ?_⟩
        rcases List.mem_cons.mp ha with rfl | ha
        · exact Int.not_le.mp hle
        · have hge := hrest.le_remaining a ha
          omega

/-- Adding a timer. -/
lemma TimerInvariant.add (h : TimerInvariant s members) (htime : IsTimeout timeout)
    (hnew : s.due toAdd = none) (hfuel : members.length < fuel) :
    ∃ s' members', s.call (.add toAdd timeout fuel) = some s' ∧ TimerInvariant s' members' := by
  obtain ⟨u, v, rfl, hu, hv⟩ := h.holds.timed.exists_split timeout
  have hadd : toAdd ∉ u ++ v := by
    rw [h.mem_iff, hnew]
    exact Bool.false_ne_true
  rw [List.length_append] at hfuel
  obtain ⟨timers', list', heq, hholds⟩ := pubnubTimerListAdd_eq h.holds hadd htime.1 htime.2 hu hv
    (fun a ha => h.inRange a (List.mem_append_right u ha)) (by omega : u.length < fuel)
  have hremaining : TimerSystem.remaining { s with
      timers := timers', list := list'
      due := Function.update s.due toAdd (some (s.now + timeout)) } =
        Function.update s.remaining toAdd timeout := by
    funext c
    change (Function.update s.due toAdd _ c).getD 0 - s.now = _
    by_cases hc : c = toAdd
    · subst hc
      rw [Function.update_self, Function.update_self, Option.getD_some]
      omega
    · rw [Function.update_of_ne hc, Function.update_of_ne hc]
      rfl
  refine ⟨_, u ++ toAdd :: v, by rw [TimerSystem.call, heq, Option.map_some], ?_, ?_, ?_⟩
  · rw [hremaining]
    exact hholds
  · intro c
    by_cases hc : c = toAdd
    · subst hc
      simp
    · have hmem : c ∈ u ++ toAdd :: v ↔ c ∈ u ++ v := by simp [hc]
      rw [hmem, h.mem_iff]
      change _ ↔ (Function.update s.due toAdd _ c).isSome = true
      rw [Function.update_of_ne hc]
  · intro c hmem
    rw [hremaining]
    by_cases hc : c = toAdd
    · subst hc
      rw [Function.update_self]
      exact htime.2
    · rw [Function.update_of_ne hc]
      exact h.inRange c (by simpa [hc] using hmem)

/-- Removing a timer. -/
lemma TimerInvariant.remove (h : TimerInvariant s members)
    (hthere : (s.due toRemove).isSome = true) :
    ∃ s' members', s.call (.remove toRemove) = some s' ∧ TimerInvariant s' members' := by
  obtain ⟨u, v, rfl⟩ := List.append_of_mem ((h.mem_iff toRemove).mpr hthere)
  obtain ⟨timers', list', heq, hholds⟩ := pubnubTimerListRemove_eq h.holds fun a ha =>
    h.inRange a (List.mem_append_right u (List.mem_cons_of_mem toRemove ha))
  have hnodup := h.holds.nodup
  rw [List.nodup_middle, List.nodup_cons] at hnodup
  have hremaining : ∀ c ∈ u ++ v, TimerSystem.remaining { s with
      timers := timers', list := list', due := Function.update s.due toRemove none } c =
        s.remaining c := by
    intro c hc
    have hne : c ≠ toRemove := by
      rintro rfl
      exact hnodup.1 hc
    change (Function.update s.due toRemove none c).getD 0 - s.now = _
    rw [Function.update_of_ne hne]
    rfl
  refine ⟨_, u ++ v, by rw [TimerSystem.call, heq, Option.map_some], ?_, ?_, ?_⟩
  · exact ⟨hholds.head_eq, hholds.linked, hholds.nodup,
      hholds.timed.congr (fun _ _ => rfl) hremaining⟩
  · intro c
    change _ ↔ (Function.update s.due toRemove none c).isSome = true
    by_cases hc : c = toRemove
    · subst hc
      rw [Function.update_self]
      exact iff_of_false hnodup.1 Bool.false_ne_true
    · rw [Function.update_of_ne hc, ← h.mem_iff]
      simp [hc]
  · intro c hc
    rw [hremaining c hc]
    exact h.inRange c (by
      rcases List.mem_append.mp hc with hc | hc
      · exact List.mem_append_left _ hc
      · exact List.mem_append_right u (List.mem_cons_of_mem toRemove hc))

omit [DecidableEq C] in
/-- The timers that are still there. -/
lemma dueAfter_eq (hc : (s.due c).isSome = true) : s.dueAfter time c =
    if time < s.remaining c then s.due c else none := by
  obtain ⟨due, hdue⟩ := Option.isSome_iff_exists.mp hc
  rw [TimerSystem.dueAfter, TimerSystem.remaining, hdue, Option.getD_some, Option.filter_some]
  by_cases hlt : s.now + time < due
  · rw [if_pos (decide_eq_true hlt), if_pos (by omega)]
  · rw [if_neg (by simpa using hlt), if_neg (by omega)]

/-- Time goes by. -/
lemma TimerInvariant.asTimeGoesBy (h : TimerInvariant s members) (htime : IsTimeout time)
    (hfuel : members.length < fuel) : ∃ u v timers', members = u ++ v ∧
      (∀ a ∈ u, s.remaining a ≤ time) ∧ (∀ a ∈ v, time < s.remaining a) ∧
      pubnubTimerListAsTimeGoesBy fuel s.timers s.list time = some (timers', v.head?, u.head?) ∧
      DoublyLinked timers'.previous timers'.next none u none ∧
      TimerInvariant ⟨timers', v.head?, s.now + time, s.dueAfter time⟩ v := by
  obtain ⟨u, v, rfl, hu, hv⟩ := h.holds.timed.exists_split time
  rw [List.length_append] at hfuel
  have hrange : ∀ a ∈ v, s.remaining a < 2 ^ 31 := fun a ha =>
    h.inRange a (List.mem_append_right u ha)
  obtain ⟨timers', heq, hleft, hexpired⟩ := pubnubTimerListAsTimeGoesBy_eq h.holds htime.1 htime.2
    hu hv hrange (by omega : u.length < fuel)
  have hsome : ∀ a ∈ u ++ v, (s.due a).isSome = true := fun a ha => (h.mem_iff a).mp ha
  have hdue : ∀ a ∈ v, s.dueAfter time a = s.due a := fun a ha => by
    rw [dueAfter_eq (hsome a (List.mem_append_right u ha)), if_pos (hv a ha)]
  have hremaining : ∀ a ∈ v, TimerSystem.remaining ⟨timers', v.head?, s.now + time,
      s.dueAfter time⟩ a = s.remaining a - time := by
    intro a ha
    change (s.dueAfter time a).getD 0 - (s.now + time) = (s.due a).getD 0 - s.now - time
    rw [hdue a ha]
    omega
  refine ⟨u, v, timers', rfl, hu, hv, heq, hexpired.linked, ⟨rfl, hleft.linked, hleft.nodup,
    hleft.timed.congr (fun _ _ => rfl) hremaining⟩, ?_, ?_⟩
  · intro a
    constructor
    · intro ha
      change (s.dueAfter time a).isSome = true
      rw [hdue a ha]
      exact hsome a (List.mem_append_right u ha)
    · intro ha
      change (s.dueAfter time a).isSome = true at ha
      have hthere : (s.due a).isSome = true := by
        obtain ⟨due, hdue⟩ := Option.isSome_iff_exists.mp ha
        rw [Option.filter_eq_some_iff.mp hdue |>.1]
        rfl
      rcases List.mem_append.mp ((h.mem_iff a).mpr hthere) with hmem | hmem
      · rw [dueAfter_eq hthere, if_neg (Int.not_lt.mpr (hu a hmem))] at ha
        cases ha
      · exact hmem
  · intro a ha
    rw [hremaining a ha]
    have hlt := hrange a ha
    have hpos := htime.1
    omega

/-- A call keeps the invariant. -/
lemma TimerInvariant.step (h : TimerInvariant s members) {call : TimerCall C}
    (hmade : TimerCallMade s call) (hcall : s.call call = some s') :
    ∃ members', TimerInvariant s' members' := by
  cases call with
  | add toAdd timeout fuel =>
      obtain ⟨⟨timers, list⟩, heq, rfl⟩ := Option.map_eq_some_iff.mp hcall
      have hmore := pubnubTimerListAdd_mono (members.length + 1) heq
      obtain ⟨s'', members', hcall', hinv⟩ :=
        h.add hmade.1 hmade.2 (by omega : members.length < fuel + (members.length + 1))
      rw [TimerSystem.call, hmore, Option.map_some] at hcall'
      cases hcall'
      exact ⟨members', hinv⟩
  | remove toRemove =>
      obtain ⟨s'', members', hcall', hinv⟩ := h.remove hmade
      rw [hcall] at hcall'
      cases hcall'
      exact ⟨members', hinv⟩
  | asTimeGoesBy time fuel =>
      obtain ⟨⟨timers, list, expired⟩, heq, rfl⟩ := Option.map_eq_some_iff.mp hcall
      have hmore := pubnubTimerListAsTimeGoesBy_mono (members.length + 1) heq
      obtain ⟨u, v, timers', rfl, -, -, hcall', -, hinv⟩ :=
        h.asTimeGoesBy hmade (by omega : members.length < fuel + (members.length + 1))
      rw [hmore] at hcall'
      cases hcall'
      exact ⟨v, hinv⟩

/-- In every run. -/
lemma timerInvariant_run {timers : Timers C}
    (hs : (timerMachine timers).Reachable TimerCallMade s) : ∃ members, TimerInvariant s members := by
  refine hs.invariant (P := fun s => ∃ members, TimerInvariant s members) ?_ ?_
  · refine ⟨[], ⟨rfl, DoublyLinked.nil, List.nodup_nil, trivial⟩, fun c => ?_,
      List.forall_mem_nil _⟩
    exact iff_of_false List.not_mem_nil Bool.false_ne_true
  · rintro s call s' ⟨members, h⟩ hmade hcall
    exact h.step hmade hcall

/-! ## What holds in every run -/

/-- The list is well linked, its members are the contexts with a timer, and the sum of the
    differences up to one of them is the time that remains until the timer expires. -/
structure TimerListRight (s : TimerSystem C) (members : List C) : Prop where
  head_eq : s.list = members.head?
  linked : DoublyLinked s.timers.previous s.timers.next none members none
  nodup : members.Nodup
  mem_iff : ∀ c, c ∈ members ↔ (s.due c).isSome = true
  nonneg : ∀ c ∈ members, 0 ≤ s.timers.timeoutLeft c
  sum_eq : ∀ u c v, members = u ++ c :: v →
    s.due c = some (s.now + ((u ++ [c]).map s.timers.timeoutLeft).sum)

/-- Of these members the first ones expire, and are a list of their own in the order in which they
    expire; the others are a list that is right, and expire when they would have expired. -/
def GoesByRight (s : TimerSystem C) (members : List C) (time : Int) (fuel : Nat) : Prop :=
  ∃ expired left timers', members = expired ++ left ∧
    pubnubTimerListAsTimeGoesBy fuel s.timers s.list time =
      some (timers', left.head?, expired.head?) ∧
    (∀ c ∈ expired, s.remaining c ≤ time) ∧ (∀ c ∈ left, time < s.remaining c) ∧
    expired.Pairwise (fun c d => s.remaining c ≤ s.remaining d) ∧
    DoublyLinked timers'.previous timers'.next none expired none ∧
    TimerListRight ⟨timers', left.head?, s.now + time, s.dueAfter time⟩ left ∧
    ∀ c ∈ left, s.dueAfter time c = s.due c

omit [DecidableEq C] in
lemma TimerInvariant.timerListRight (h : TimerInvariant s members) : TimerListRight s members := by
  refine ⟨h.holds.head_eq, h.holds.linked, h.holds.nodup, h.mem_iff, ?_, ?_⟩
  · intro c hc
    obtain ⟨u, v, rfl⟩ := List.append_of_mem hc
    exact (Timed.append_iff.mp h.holds.timed).2.1
  · rintro u c v rfl
    have hsum := h.holds.timed.remaining_eq_sum
    obtain ⟨due, hdue⟩ := Option.isSome_iff_exists.mp
      ((h.mem_iff c).mp (List.mem_append_right u List.mem_cons_self))
    rw [TimerSystem.remaining, hdue, Option.getD_some] at hsum
    rw [hdue, Option.some.injEq]
    omega

lemma TimerInvariant.goesByRight (h : TimerInvariant s members) (htime : IsTimeout time)
    (hfuel : members.length < fuel) : GoesByRight s members time fuel := by
  have hordered := h.holds.timed.pairwise
  have hmem := h.mem_iff
  obtain ⟨u, v, timers', rfl, hu, hv, heq, hlinked, hinv⟩ := h.asTimeGoesBy htime hfuel
  refine ⟨u, v, timers', rfl, heq, hu, hv, (List.pairwise_append.mp hordered).1, hlinked,
    hinv.timerListRight, fun c hc => ?_⟩
  rw [dueAfter_eq ((hmem c).mp (List.mem_append_right u hc)), if_pos (hv c hc)]

/-- **The list of timers.**  In every run it is right, and every call that may be made returns, if
    the loops have fuel for the members. -/
theorem timerList_right {timers : Timers C}
    (hs : (timerMachine timers).Reachable TimerCallMade s) : ∃ members, TimerListRight s members ∧
      (∀ call, TimerCallMade s call → call.HasFuel members.length → (s.call call).isSome = true) ∧
      ∀ time fuel, IsTimeout time → members.length < fuel → GoesByRight s members time fuel := by
  obtain ⟨members, h⟩ := timerInvariant_run hs
  refine ⟨members, h.timerListRight, ?_, fun time fuel htime hfuel => h.goesByRight htime hfuel⟩
  intro call hmade hfuel
  cases call with
  | add toAdd timeout fuel =>
      obtain ⟨s', members', hcall, -⟩ := h.add hmade.1 hmade.2 hfuel
      rw [hcall]
      rfl
  | remove toRemove =>
      obtain ⟨s', members', hcall, -⟩ := h.remove hmade
      rw [hcall]
      rfl
  | asTimeGoesBy time fuel =>
      obtain ⟨u, v, timers', -, -, -, hcall, -⟩ := h.asTimeGoesBy hmade hfuel
      rw [TimerSystem.call, hcall]
      rfl

/-- Contexts without timers. -/
def noTimers : Timers Nat := ⟨fun _ => none, fun _ => none, fun _ => 0⟩

/-- The runs without a condition. -/
def timerRun (calls : List (TimerCall Nat)) : Option (TimerSystem Nat) :=
  (timerMachine noTimers).replay (fun _ _ => true) (timerMachine noTimers).init calls

theorem timerList_right_one : ∃ s, (timerMachine noTimers).Reachable TimerCallMade s ∧
    s.due 0 = some 10 ∧ ∃ members, TimerListRight s members := by
  have hs : (timerMachine noTimers).Reachable TimerCallMade
      ⟨((noTimers.setPrevious 0 none).setNext 0 none).setTimeoutLeft 0 10, some 0, 0,
        Function.update (fun _ => none) 0 (some 10)⟩ :=
    .step .init (a := .add 0 10 1) ⟨⟨by decide, by decide⟩, rfl⟩ rfl
  obtain ⟨members, hright, -⟩ := timerList_right hs
  exact ⟨_, hs, rfl, members, hright⟩

/-- A timer of 20 ms behind one of 10 ms gets one of 5 ms: the list is a circle. -/
theorem timerList_not_always_right :
    ∃ s, timerRun [.add 0 10 3, .add 1 20 3, .add 1 5 3] = some s ∧
      ¬ ∃ members, TimerListRight s members := by
  refine ⟨_, rfl, ?_⟩
  rintro ⟨members, hhead, hlinked, -⟩
  obtain ⟨l, rfl⟩ := List.head?_eq_some_iff.mp hhead.symm
  obtain ⟨-, hnext, hlinked⟩ := hlinked
  cases l with
  | nil => cases hnext
  | cons a l =>
      obtain rfl : 0 = a := Option.some.inj hnext
      obtain ⟨-, hnext, hlinked⟩ := hlinked
      cases l with
      | nil => cases hnext
      | cons b l =>
          obtain rfl : 1 = b := Option.some.inj hnext
          -- nothing is before the head, and here the other timer should be
          cases hlinked.1

end PubNub
