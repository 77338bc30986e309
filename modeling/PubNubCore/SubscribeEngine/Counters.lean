import PubNubCore.SubscribeEngine.Objects

/-!
# The counters of the event engine's objects

Two lists say where the references of a heap are: `states` those to states, and `arrays` the
entries that arrays outside the states hold.  The counters of states and of entries are exact for
them (`EeHeap.Kept`).  The counters of invocations are not.  An invocation is counted once when it
is made and once more whenever its array is merged, which is what `grown` lists, but gives up one
reference in all: when the last array that holds its entry is freed.
-/

namespace PubNub

namespace EeHeap

variable {h : EeHeap} {states arrays grown array : List Nat} {e i v : Nat}

/-! ## What the counters are apart from -/

/-- What the invocations are, and how far they are. -/
def works (h : EeHeap) : List (InvocationSpec × ExecutionStatus) :=
  h.invocations.map fun i => (i.spec, i.status)

/-- The states, with their arrays on entry and on exit. -/
def shapes (h : EeHeap) : List (EeState × List Nat × List Nat) :=
  h.states.map fun s => (s.state, s.onEnterInvocations, s.onExitInvocations)

/-- The entries that the arrays of the states hold. -/
def stateArrays (h : EeHeap) : List Nat := h.shapes.flatMap fun s => s.2.1 ++ s.2.2

/-- The counters of the states. -/
def stateCounters (h : EeHeap) : List Nat := h.states.map (·.counter)

/-- The counters of the entries. -/
def entryCounters (h : EeHeap) : List Nat := h.entries.map (·.counter)

@[simp] lemma length_works : h.works.length = h.invocations.length := List.length_map _

@[simp] lemma length_shapes : h.shapes.length = h.states.length := List.length_map _

@[simp] lemma length_stateCounters : h.stateCounters.length = h.states.length := List.length_map _

@[simp] lemma length_entryCounters : h.entryCounters.length = h.entries.length := List.length_map _

lemma shapes_of_state {s : StateObject} (hs : h.states[i]? = some s) :
    h.shapes[i]? = some (s.state, s.onEnterInvocations, s.onExitInvocations) := by
  rw [shapes, List.getElem?_map, hs]
  rfl

lemma state_of_shapes {state : EeState} {enter exit : List Nat}
    (hs : h.shapes[i]? = some (state, enter, exit)) :
    ∃ n, h.states[i]? = some ⟨state, n, enter, exit⟩ := by
  rw [shapes, List.getElem?_map, Option.map_eq_some_iff] at hs
  obtain ⟨s, hs, hsame⟩ := hs
  cases hsame
  exact ⟨s.counter, hs⟩

/-- What a state holds is in one of the states' arrays. -/
lemma mem_stateArrays {s : StateObject} (hs : h.states[i]? = some s)
    (he : e ∈ s.onEnterInvocations ++ s.onExitInvocations) : e ∈ h.stateArrays :=
  List.mem_flatMap.mpr ⟨_, List.mem_of_getElem? (shapes_of_state hs), he⟩

/-- A counter is a part of its object. -/
lemma map_modify_counter {α : Type} (counter : α → Nat) (f : α → α) (g : Nat → Nat)
    (hf : ∀ a, counter (f a) = g (counter a)) (l : List α) (i : Nat) :
    (l.modify i f).map counter = (l.map counter).modify i g := by
  apply List.ext_getElem?
  intro j
  simp only [List.getElem?_map, List.getElem?_modify]
  cases l[j]? with
  | none => rfl
  | some a => by_cases hij : i = j <;> simp [hij, hf]

/-- What is no counter stays as it is. -/
lemma map_modify_rest {α β : Type} (rest : α → β) (f : α → α) (hf : ∀ a, rest (f a) = rest a)
    (l : List α) (i : Nat) : (l.modify i f).map rest = l.map rest := by
  apply List.ext_getElem?
  intro j
  simp only [List.getElem?_map, List.getElem?_modify]
  cases l[j]? with
  | none => rfl
  | some a => by_cases hij : i = j <;> simp [hij, hf]

@[simp] lemma works_invocationFree : (h.invocationFree v).works = h.works :=
  map_modify_rest _ (fun i : InvocationObject => { i with counter := i.counter - 1 }) (fun _ => rfl) _ _

@[simp] lemma works_entryFree : (h.entryFree e).works = h.works := by
  unfold entryFree
  dsimp only
  split
  · split
    · exact works_invocationFree
    · rfl
  · rfl

@[simp] lemma shapes_entryFree : (h.entryFree e).shapes = h.shapes := by
  unfold entryFree
  dsimp only
  split
  · split <;> rfl
  · rfl

@[simp] lemma works_arrayFree : (h.arrayFree array).works = h.works := by
  unfold arrayFree
  induction array generalizing h with
  | nil => rfl
  | cons e array ih => rw [List.foldl_cons, ih, works_entryFree]

@[simp] lemma shapes_arrayFree : (h.arrayFree array).shapes = h.shapes := by
  unfold arrayFree
  induction array generalizing h with
  | nil => rfl
  | cons e array ih => rw [List.foldl_cons, ih, shapes_entryFree]

@[simp] lemma works_merge : (h.merge array).works = h.works := by
  unfold merge
  induction array generalizing h with
  | nil => rfl
  | cons e array ih =>
      rw [List.foldl_cons, ih]
      rfl

@[simp] lemma shapes_merge : (h.merge array).shapes = h.shapes := by
  unfold merge
  induction array generalizing h with
  | nil => rfl
  | cons e array ih =>
      rw [List.foldl_cons, ih]
      rfl

@[simp] lemma works_incrementInvocations : (h.incrementInvocations array).works = h.works := by
  unfold incrementInvocations
  induction array generalizing h with
  | nil => rfl
  | cons e array ih =>
      rw [List.foldl_cons, ih]
      exact map_modify_rest _ (fun i : InvocationObject => { i with counter := i.counter + 1 }) (fun _ => rfl) _ _

@[simp] lemma shapes_incrementInvocations : (h.incrementInvocations array).shapes = h.shapes := by
  unfold incrementInvocations
  induction array generalizing h with
  | nil => rfl
  | cons e array ih =>
      rw [List.foldl_cons, ih]
      rfl

@[simp] lemma works_addInvocations : (h.addInvocations array).works = h.works := by
  simp [addInvocations]

@[simp] lemma shapes_addInvocations : (h.addInvocations array).shapes = h.shapes := by
  simp [addInvocations]

@[simp] lemma works_stateCopy : (h.stateCopy i).works = h.works := rfl

@[simp] lemma shapes_stateCopy : (h.stateCopy i).shapes = h.shapes :=
  map_modify_rest _ (fun s : StateObject => { s with counter := s.counter + 1 }) (fun _ => rfl) _ _

@[simp] lemma works_stateFree : (h.stateFree i).works = h.works := by
  unfold stateFree
  dsimp only
  split
  · split
    · simp only [works_arrayFree]
      rfl
    · rfl
  · rfl

@[simp] lemma shapes_stateFree : (h.stateFree i).shapes = h.shapes := by
  have hfreed : EeHeap.shapes
      { h with states := h.states.modify i fun s => { s with counter := s.counter - 1 } } =
        h.shapes :=
    map_modify_rest _ (fun s : StateObject => { s with counter := s.counter - 1 }) (fun _ => rfl) _ _
  unfold stateFree
  dsimp only
  split
  · split
    · simp only [shapes_arrayFree]
      exact hfreed
    · exact hfreed
  · exact hfreed

@[simp] lemma length_states_arrayFree : (h.arrayFree array).states.length = h.states.length := by
  rw [← length_shapes, shapes_arrayFree, length_shapes]

@[simp] lemma length_states_merge : (h.merge array).states.length = h.states.length := by
  rw [← length_shapes, shapes_merge, length_shapes]

@[simp] lemma length_states_incrementInvocations :
    (h.incrementInvocations array).states.length = h.states.length := by
  rw [← length_shapes, shapes_incrementInvocations, length_shapes]

@[simp] lemma length_states_stateCopy : (h.stateCopy i).states.length = h.states.length :=
  List.length_modify _ _ _

@[simp] lemma length_states_stateFree : (h.stateFree i).states.length = h.states.length := by
  rw [← length_shapes, shapes_stateFree, length_shapes]

@[simp] lemma shapes_setStatus {status : ExecutionStatus} :
    (h.setStatus v status).shapes = h.shapes := rfl

lemma works_setStatus {status : ExecutionStatus} :
    (h.setStatus v status).works = h.works.modify v fun w => (w.1, status) := by
  unfold setStatus works
  apply List.ext_getElem?
  intro j
  simp only [List.getElem?_map, List.getElem?_modify]
  cases h.invocations[j]? with
  | none => rfl
  | some i => by_cases hij : v = j <;> simp [hij]

@[simp] lemma states_arrayAlloc {specs : List InvocationSpec} :
    (h.arrayAlloc specs).1.states = h.states := by
  unfold arrayAlloc
  dsimp only
  induction specs generalizing h with
  | nil => rfl
  | cons spec specs ih =>
      rw [List.foldl_cons, ih]
      rfl

@[simp] lemma shapes_arrayAlloc {specs : List InvocationSpec} :
    (h.arrayAlloc specs).1.shapes = h.shapes := by
  rw [shapes, states_arrayAlloc, shapes]

@[simp] lemma works_arrayAlloc {specs : List InvocationSpec} :
    (h.arrayAlloc specs).1.works = h.works ++ specs.map fun spec => (spec, .created) := by
  unfold arrayAlloc
  dsimp only
  induction specs generalizing h with
  | nil => simp
  | cons spec specs ih =>
      rw [List.foldl_cons, ih]
      simp [works, invocationAlloc]

@[simp] lemma stateArrays_congr {h' : EeHeap} (hs : h'.shapes = h.shapes) :
    h'.stateArrays = h.stateArrays := by
  rw [stateArrays, hs, stateArrays]

/-! ## Exact counters -/

/-- The references to states, the entries which arrays outside the states hold, and how often the
    invocations have been counted since they were made. -/
structure Kept (h : EeHeap) (states arrays grown : List Nat) : Prop where
  size : h.entries.length = h.invocations.length
  value : ∀ e (x : PbarrayEntry), h.entries[e]? = some x → x.value = e
  statesExact : ExactCounts h.stateCounters states
  entriesExact : ExactCounts h.entryCounters (arrays ++ h.stateArrays)
  grownBound : ∀ v ∈ grown, v < h.invocations.length
  tally : ∀ v (i : InvocationObject) (x : PbarrayEntry), h.invocations[v]? = some i → h.entries[v]? = some x →
    i.counter + (if x.counter = 0 then 1 else 0) = 1 + grown.count v

namespace Kept

lemma perm {arrays' : List Nat} (k : h.Kept states arrays grown) (hp : arrays.Perm arrays') :
    h.Kept states arrays' grown :=
  { k with entriesExact := k.entriesExact.perm (hp.append_right _) }

lemma perm_states {states' : List Nat} (k : h.Kept states arrays grown) (hp : states.Perm states') :
    h.Kept states' arrays grown :=
  { k with statesExact := k.statesExact.perm hp }

lemma perm_grown {grown' : List Nat} (k : h.Kept states arrays grown) (hp : grown.Perm grown') :
    h.Kept states arrays grown' where
  __ := k
  grownBound v hv := k.grownBound v (hp.mem_iff.mpr hv)
  tally v i x hi hx := by
    rw [← hp.count_eq v]
    exact k.tally v i x hi hx

/-- What an array holds has not been freed. -/
lemma entry_live (k : h.Kept states arrays grown) (he : e ∈ arrays ++ h.stateArrays) :
    ∃ x, h.entries[e]? = some x ∧ 0 < x.counter ∧ x.value = e := by
  obtain ⟨n, hn, hpos⟩ := k.entriesExact.pos he
  rw [entryCounters, List.getElem?_map] at hn
  obtain ⟨x, hx, rfl⟩ := Option.map_eq_some_iff.mp hn
  exact ⟨x, hx, hpos, k.value e x hx⟩

/-- An invocation whose entry has not been freed has not been freed either. -/
lemma invocation_live (k : h.Kept states arrays grown) (he : e ∈ arrays ++ h.stateArrays) :
    ∃ i, h.invocations[e]? = some i ∧ 0 < i.counter := by
  obtain ⟨x, hx, hpos, -⟩ := k.entry_live he
  have hlt : e < h.invocations.length := by
    rw [← k.size]
    exact (List.getElem?_eq_some_iff.mp hx).1
  refine ⟨h.invocations[e], List.getElem?_eq_getElem hlt, ?_⟩
  have htally := k.tally e _ x (List.getElem?_eq_getElem hlt) hx
  rw [if_neg hpos.ne'] at htally
  omega

lemma state_live (k : h.Kept states arrays grown) (hi : i ∈ states) :
    ∃ s, h.states[i]? = some s ∧ 0 < s.counter := by
  obtain ⟨n, hn, hpos⟩ := k.statesExact.pos hi
  rw [stateCounters, List.getElem?_map] at hn
  obtain ⟨s, hs, rfl⟩ := Option.map_eq_some_iff.mp hn
  exact ⟨s, hs, hpos⟩

/-- An array gives up an entry. -/
lemma entryFree (k : h.Kept states (e :: arrays) grown) :
    (h.entryFree e).Kept states arrays grown := by
  obtain ⟨x, hx, hpos, hvalue⟩ := k.entry_live (List.mem_append_left _ List.mem_cons_self)
  have hcounters : EeHeap.entryCounters
      { h with entries := h.entries.modify e fun x => { x with counter := x.counter - 1 } } =
        h.entryCounters.modify e (· - 1) :=
    map_modify_counter _ (fun x : PbarrayEntry => { x with counter := x.counter - 1 }) _ (fun _ => rfl) _ _
  have hentries : ExactCounts (h.entryCounters.modify e (· - 1)) (arrays ++ h.stateArrays) :=
    ExactCounts.release (by simpa using k.entriesExact)
  have hvalues : ∀ j (y : PbarrayEntry), (h.entries.modify e fun x => { x with counter := x.counter - 1 })[j]? =
      some y → y.value = j := by
    intro j y hy
    rw [List.getElem?_modify] at hy
    obtain ⟨z, hz, rfl⟩ := Option.map_eq_some_iff.mp hy
    have := k.value j z hz
    by_cases hej : e = j <;> simpa [hej] using this
  unfold EeHeap.entryFree
  simp only [hx, hvalue]
  split
  case isTrue hzero =>
      refine ⟨?_, hvalues, k.statesExact, ?_, ?_, ?_⟩
      · simpa [invocationFree] using k.size
      · rw [← hcounters] at hentries
        exact hentries
      · simpa [invocationFree] using k.grownBound
      · intro v i y hi hy
        simp only [invocationFree, List.getElem?_modify] at hi hy
        obtain ⟨i, hi', rfl⟩ := Option.map_eq_some_iff.mp hi
        obtain ⟨y, hy', rfl⟩ := Option.map_eq_some_iff.mp hy
        have htally := k.tally v i y hi' hy'
        by_cases hev : e = v
        · subst hev
          rw [hx, Option.some.injEq] at hy'
          subst hy'
          rw [if_neg hpos.ne'] at htally
          simp only [if_true, hzero]
          omega
        · simpa only [if_neg hev] using htally
  case isFalse hzero =>
      refine ⟨?_, hvalues, k.statesExact, ?_, k.grownBound, ?_⟩
      · simpa using k.size
      · rw [← hcounters] at hentries
        exact hentries
      · intro v i y hi hy
        simp only [List.getElem?_modify] at hy
        obtain ⟨y, hy', rfl⟩ := Option.map_eq_some_iff.mp hy
        have htally := k.tally v i y hi hy'
        by_cases hev : e = v
        · subst hev
          rw [hx, Option.some.injEq] at hy'
          subst hy'
          rw [if_neg hpos.ne'] at htally
          simpa only [if_true, if_neg hzero] using htally
        · simpa only [if_neg hev] using htally

/-- An array is freed. -/
lemma arrayFree (k : h.Kept states (array ++ arrays) grown) :
    (h.arrayFree array).Kept states arrays grown := by
  unfold EeHeap.arrayFree
  induction array generalizing h with
  | nil => exact k
  | cons e array ih => exact ih k.entryFree

/-- An entry that is in an array gets into one more. -/
lemma share (k : h.Kept states arrays grown) (he : e ∈ arrays ++ h.stateArrays) :
    EeHeap.Kept
      { h with entries := h.entries.modify e fun x => { x with counter := x.counter + 1 } }
      states (e :: arrays) grown := by
  obtain ⟨x, hx, hpos, hvalue⟩ := k.entry_live he
  refine ⟨?_, ?_, k.statesExact, ?_, k.grownBound, ?_⟩
  · simpa using k.size
  · intro j y hy
    rw [List.getElem?_modify] at hy
    obtain ⟨z, hz, rfl⟩ := Option.map_eq_some_iff.mp hy
    have := k.value j z hz
    by_cases hej : e = j <;> simpa [hej] using this
  · have hcounters : EeHeap.entryCounters
        { h with entries := h.entries.modify e fun x => { x with counter := x.counter + 1 } } =
          h.entryCounters.modify e (· + 1) :=
      map_modify_counter _ (fun x : PbarrayEntry => { x with counter := x.counter + 1 }) _ (fun _ => rfl) _ _
    rw [hcounters]
    exact k.entriesExact.share (k.entriesExact.bound e he)
  · intro v i y hi hy
    simp only [List.getElem?_modify] at hy
    obtain ⟨y, hy', rfl⟩ := Option.map_eq_some_iff.mp hy
    have htally := k.tally v i y hi hy'
    by_cases hev : e = v
    · subst hev
      rw [hx, Option.some.injEq] at hy'
      subst hy'
      rw [if_neg hpos.ne'] at htally
      simpa using htally
    · simpa only [if_neg hev] using htally

/-- Arrays that are merged share their entries. -/
lemma merge (k : h.Kept states arrays grown) (ha : ∀ e ∈ array, e ∈ arrays ++ h.stateArrays) :
    (h.merge array).Kept states (array ++ arrays) grown := by
  unfold EeHeap.merge
  induction array generalizing h arrays with
  | nil => exact k
  | cons e array ih =>
      rw [List.foldl_cons]
      have hstep := ih (k.share (ha e List.mem_cons_self)) fun e' he' =>
        List.mem_cons_of_mem e (ha e' (List.mem_cons_of_mem e he'))
      exact hstep.perm List.perm_middle

/-- An invocation is counted once more. -/
lemma increment (k : h.Kept states arrays grown) (hv : v < h.invocations.length) :
    EeHeap.Kept
      { h with invocations := h.invocations.modify v fun i => { i with counter := i.counter + 1 } }
      states arrays (v :: grown) := by
  refine ⟨?_, k.value, k.statesExact, k.entriesExact, ?_, ?_⟩
  · simpa using k.size
  · intro w hw
    rw [List.length_modify]
    rcases List.mem_cons.mp hw with rfl | hw
    · exact hv
    · exact k.grownBound w hw
  · intro w i x hi hx
    simp only [List.getElem?_modify] at hi
    obtain ⟨i, hi', rfl⟩ := Option.map_eq_some_iff.mp hi
    have htally := k.tally w i x hi' hx
    by_cases hvw : v = w
    · subst hvw
      simp only [if_true, List.count_cons_self]
      omega
    · simpa only [if_neg hvw, List.count_cons_of_ne hvw] using htally

lemma incrementInvocations (k : h.Kept states arrays grown)
    (ha : ∀ v ∈ array, v < h.invocations.length) :
    (h.incrementInvocations array).Kept states arrays (array ++ grown) := by
  unfold EeHeap.incrementInvocations
  induction array generalizing h grown with
  | nil => exact k
  | cons v array ih =>
      rw [List.foldl_cons]
      have hstep := ih (k.increment (ha v List.mem_cons_self)) fun v' hv' => by
        rw [List.length_modify]
        exact ha v' (List.mem_cons_of_mem v hv')
      exact hstep.perm_grown List.perm_middle

/-- What an array holds is an invocation. -/
lemma lt_of_mem (k : h.Kept states arrays grown) (he : e ∈ arrays ++ h.stateArrays) :
    e < h.invocations.length := by
  have := k.entriesExact.bound e he
  rwa [length_entryCounters, k.size] at this

lemma addInvocations (k : h.Kept states arrays grown)
    (ha : ∀ e ∈ array, e ∈ arrays ++ h.stateArrays) :
    (h.addInvocations array).Kept states (array ++ arrays) (array ++ grown) := by
  have hmerge := k.merge ha
  exact hmerge.incrementInvocations fun e he =>
    hmerge.lt_of_mem (List.mem_append_left _ (List.mem_append_left _ he))

/-- A new invocation in an array. -/
lemma invocationAlloc (k : h.Kept states arrays grown) (spec : InvocationSpec) :
    (h.invocationAlloc spec).Kept states (h.entries.length :: arrays) grown := by
  refine ⟨?_, ?_, k.statesExact, ?_, ?_, ?_⟩
  · simp [EeHeap.invocationAlloc, k.size]
  · intro e x hx
    simp only [EeHeap.invocationAlloc] at hx
    rcases Nat.lt_trichotomy e h.entries.length with hlt | rfl | hgt
    · rw [List.getElem?_append_left hlt] at hx
      exact k.value e x hx
    · rw [List.getElem?_concat_length] at hx
      cases hx
      exact k.size.symm
    · rw [List.getElem?_eq_none (by simp; omega)] at hx
      cases hx
  · have hcounters : (h.invocationAlloc spec).entryCounters = h.entryCounters ++ [1] := by
      simp [EeHeap.invocationAlloc, entryCounters]
    rw [hcounters, ← length_entryCounters]
    exact k.entriesExact.alloc
  · intro v hv
    have := k.grownBound v hv
    simp only [EeHeap.invocationAlloc, List.length_append, List.length_singleton]
    omega
  · intro v i x hi hx
    simp only [EeHeap.invocationAlloc] at hi hx
    rcases Nat.lt_trichotomy v h.invocations.length with hlt | rfl | hgt
    · rw [List.getElem?_append_left hlt] at hi
      rw [List.getElem?_append_left (by rw [k.size]; exact hlt)] at hx
      exact k.tally v i x hi hx
    · have hnew : grown.count h.invocations.length = 0 :=
        List.count_eq_zero.mpr fun hv => absurd (k.grownBound _ hv) (lt_irrefl _)
      rw [List.getElem?_concat_length] at hi
      rw [← k.size, List.getElem?_concat_length] at hx
      cases hi
      cases hx
      rw [hnew]
      rfl
    · rw [List.getElem?_eq_none (by simp; omega)] at hi
      cases hi

/-- An array of new invocations. -/
lemma arrayAlloc (k : h.Kept states arrays grown) (specs : List InvocationSpec) :
    (h.arrayAlloc specs).1.Kept states ((h.arrayAlloc specs).2 ++ arrays) grown := by
  unfold EeHeap.arrayAlloc
  dsimp only
  induction specs generalizing h arrays with
  | nil => exact k
  | cons spec specs ih =>
      rw [List.foldl_cons]
      have hstep := ih (k.invocationAlloc spec)
      have hlength : (h.invocationAlloc spec).entries.length = h.entries.length + 1 := by
        simp [EeHeap.invocationAlloc]
      rw [hlength] at hstep
      exact hstep.perm List.perm_middle

lemma setStatus (k : h.Kept states arrays grown) (v : Nat) (status : ExecutionStatus) :
    (h.setStatus v status).Kept states arrays grown := by
  refine ⟨?_, k.value, k.statesExact, k.entriesExact, ?_, ?_⟩
  · simpa [EeHeap.setStatus] using k.size
  · simpa [EeHeap.setStatus] using k.grownBound
  · intro w i x hi hx
    simp only [EeHeap.setStatus, List.getElem?_modify] at hi
    obtain ⟨i, hi', rfl⟩ := Option.map_eq_some_iff.mp hi
    have htally := k.tally w i x hi' hx
    by_cases hvw : v = w <;> simpa [hvw] using htally

/-- One more reference to a state. -/
lemma stateCopy (k : h.Kept states arrays grown) (hi : i < h.states.length) :
    (h.stateCopy i).Kept (i :: states) arrays grown := by
  have hcounters : (h.stateCopy i).stateCounters = h.stateCounters.modify i (· + 1) :=
    map_modify_counter _ (fun s : StateObject => { s with counter := s.counter + 1 }) _ (fun _ => rfl) _ _
  refine { k with statesExact := ?_, entriesExact := ?_ }
  · rw [hcounters]
    exact k.statesExact.share (by rwa [length_stateCounters])
  · rw [stateArrays_congr shapes_stateCopy]
    exact k.entriesExact

/-- A reference to a state is given up, and it is not the last one unless the state has no
    arrays. -/
lemma stateFree (k : h.Kept (i :: states) arrays grown)
    (hlast : i ∈ states ∨ ∀ s, h.states[i]? = some s →
      s.onEnterInvocations = [] ∧ s.onExitInvocations = []) :
    (h.stateFree i).Kept states arrays grown := by
  obtain ⟨s, hs, hpos⟩ := k.state_live List.mem_cons_self
  have hfreed : h.stateFree i =
      { h with states := h.states.modify i fun s => { s with counter := s.counter - 1 } } := by
    unfold EeHeap.stateFree
    simp only [hs]
    split
    case isFalse => rfl
    case isTrue hzero =>
        rcases hlast with hi | hnone
        · have hcount := k.statesExact.count i s.counter (by rw [stateCounters, List.getElem?_map, hs]; rfl)
          rw [List.count_cons_self] at hcount
          have := List.count_pos_iff.mpr hi
          omega
        · rw [(hnone s hs).1, (hnone s hs).2]
          rfl
  have hshapes : (h.stateFree i).shapes = h.shapes := shapes_stateFree
  have harrays := stateArrays_congr hshapes
  rw [hfreed] at harrays ⊢
  refine { k with statesExact := ?_, entriesExact := ?_ }
  · have hcounters : EeHeap.stateCounters
        { h with states := h.states.modify i fun s => { s with counter := s.counter - 1 } } =
          h.stateCounters.modify i (· - 1) :=
      map_modify_counter _ (fun s : StateObject => { s with counter := s.counter - 1 }) _ (fun _ => rfl) _ _
    rw [hcounters]
    exact k.statesExact.release
  · rw [harrays]
    exact k.entriesExact

/-- A new state takes over its two arrays. -/
lemma stateAlloc {enter exit : List Nat} (k : h.Kept states (enter ++ exit ++ arrays) grown)
    (state : EeState) :
    EeHeap.Kept { h with states := h.states ++ [⟨state, 1, enter, exit⟩] }
      (h.states.length :: states) arrays grown := by
  have hcounters : EeHeap.stateCounters { h with states := h.states ++ [⟨state, 1, enter, exit⟩] } =
      h.stateCounters ++ [1] := by
    simp [stateCounters]
  have harrays : EeHeap.stateArrays { h with states := h.states ++ [⟨state, 1, enter, exit⟩] } =
      h.stateArrays ++ (enter ++ exit) := by
    simp [stateArrays, shapes]
  refine { k with statesExact := ?_, entriesExact := ?_ }
  · rw [hcounters, ← length_stateCounters]
    exact k.statesExact.alloc
  · rw [harrays]
    refine k.entriesExact.perm ?_
    rw [List.append_assoc, ← List.append_assoc arrays]
    exact List.perm_append_comm

end Kept

end EeHeap

end PubNub
