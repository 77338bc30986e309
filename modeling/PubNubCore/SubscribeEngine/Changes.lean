import PubNubCore.SubscribeEngine.Counters

/-!
# A change of state of the event engine

What `pbcc_ee_handle_event` does before the first effect runs: it makes the invocations of the
transition and the target state, cancels an outdated subscribe, queues the invocations and sets the
current state (`EventEngine.Change`).  The references are accounted for over whole runs
(`EventEngine.Accounts`): every state but the first keeps one that nobody holds.
-/

namespace PubNub

/-! ## References -/

/-- The entries in the array of a transition. -/
def EeFrame.array : EeFrame → List Nat
  | .effect _ => []
  | .transition _ invocations => invocations

/-- The target state of a transition. -/
def EeFrame.targets : EeFrame → List Nat
  | .effect _ => []
  | .transition targetState _ => [targetState]

namespace EventEngine

variable {s s' : EventEngine} {target : EeState} {own : List InvocationSpec} {exit : List Nat}

/-- The references to states: of the engine, and of the transitions that are carried out. -/
def stateRefs (s : EventEngine) : List Nat := s.currentState :: s.frames.flatMap EeFrame.targets

/-- The entries in the queue and in the arrays of the transitions that are carried out. -/
def arrays (s : EventEngine) : List Nat := s.invocations ++ s.frames.flatMap EeFrame.array

/-- Where the references of the engine's objects are.  Every invocation that has been queued was
    counted twice on its way, in the transition and in the queue. -/
structure Accounts (s : EventEngine) : Prop where
  kept : s.heap.Kept (s.stateRefs ++ List.range' 1 s.changes) s.arrays (s.queued ++ s.queued)
  states : s.heap.states.length = s.changes + 1
  first : ∀ st, s.heap.states[0]? = some st →
    st.onEnterInvocations = [] ∧ st.onExitInvocations = []

lemma accounts_init : init.Accounts where
  kept :=
    { size := rfl
      value := fun e x hx => by simp [init] at hx
      statesExact :=
        { count := fun i n hn => by
            rcases i with _ | i
            · simp only [init, EeHeap.stateCounters, List.map_cons, List.getElem?_cons_zero,
                Option.some.injEq] at hn
              subst hn
              rfl
            · simp [init, EeHeap.stateCounters] at hn
          bound := by simp [init, stateRefs, EeHeap.stateCounters] }
      entriesExact := ExactCounts.nil
      grownBound := by simp [init]
      tally := fun v i x hi => by simp [init] at hi }
  states := rfl
  first st hst := by
    simp only [init, List.getElem?_cons_zero, Option.some.injEq] at hst
    subst hst
    exact ⟨rfl, rfl⟩

/-- The first state keeps its arrays. -/
lemma first_of_shapes (h : s.Accounts) {heap : EeHeap} (hs : s.heap.shapes <+: heap.shapes) :
    ∀ st, heap.states[0]? = some st →
      st.onEnterInvocations = [] ∧ st.onExitInvocations = [] := by
  intro st hst
  have hpos : 0 < s.heap.states.length := by
    rw [h.states]
    omega
  have hshape := EeHeap.shapes_of_state hst
  obtain ⟨more, hmore⟩ := hs
  rw [← hmore, List.getElem?_append_left (by rwa [EeHeap.length_shapes])] at hshape
  obtain ⟨n, hst'⟩ := EeHeap.state_of_shapes hshape
  have harrays := h.first _ hst'
  exact harrays

/-- A reference that is given up is not the last one, unless it is to the first state. -/
lemma Accounts.not_last (h : s.Accounts) {heap : EeHeap} (hs : s.heap.shapes <+: heap.shapes)
    {i : Nat} (hi : i < s.heap.states.length) :
    i ∈ List.range' 1 s.changes ∨ ∀ st, heap.states[i]? = some st →
      st.onEnterInvocations = [] ∧ st.onExitInvocations = [] := by
  rcases i with _ | i
  · exact .inr (first_of_shapes h hs)
  · left
    have := h.states
    rw [List.mem_range'_1]
    omega

/-! ## The steps that do not change the state -/

lemma Accounts.invocationExec (h : s.Accounts) (v : Nat) : (s.invocationExec v).Accounts := by
  unfold EventEngine.invocationExec
  split
  · exact h
  · split
    · exact ⟨h.kept.setStatus v .running, h.states, h.first⟩
    · exact h

lemma Accounts.processNextInvocation (h : s.Accounts) : s.processNextInvocation.Accounts := by
  unfold EventEngine.processNextInvocation
  split
  · exact h
  · exact h.invocationExec _

lemma Accounts.handleEffectCompletion (h : s.Accounts) (v : Nat) :
    (s.handleEffectCompletion v).Accounts := by
  unfold EventEngine.handleEffectCompletion
  split
  · exact h
  · split
    case isFalse => exact h
    case isTrue =>
        have hperm : s.arrays.Perm (s.invocations.filter (· = v) ++
            (s.invocations.filter (· ≠ v) ++ s.frames.flatMap EeFrame.array)) := by
          have hsplit := List.filter_append_perm (· = v) s.invocations
          rw [arrays, ← List.append_assoc]
          refine (hsplit.symm.trans (List.Perm.of_eq ?_)).append_right _
          simp
        have hk := (h.kept.setStatus v .completed).perm hperm
        refine ⟨hk.arrayFree, ?_, ?_⟩
        · rw [EeHeap.length_states_arrayFree]
          exact h.states
        · exact first_of_shapes h (by simp)

lemma Accounts.transitionFree (h : s.Accounts) : s.transitionFree.Accounts := by
  unfold EventEngine.transitionFree
  split
  case h_2 => exact h
  case h_1 t invocations frames hframes =>
      have hstates : s.stateRefs ++ List.range' 1 s.changes =
          s.currentState :: (t :: (frames.flatMap EeFrame.targets ++ List.range' 1 s.changes)) := by
        rw [stateRefs, hframes]
        rfl
      have harrays : s.arrays =
          s.invocations ++ (invocations ++ frames.flatMap EeFrame.array) := by
        rw [arrays, hframes]
        rfl
      have hk := h.kept
      rw [hstates, harrays] at hk
      have hk := (hk.perm_states (List.Perm.swap _ _ _)).perm
        ((List.perm_append_comm_assoc _ _ _) : (s.invocations ++ (invocations ++ _)).Perm _)
      have hlt : t < s.heap.states.length := by
        have := hk.statesExact.bound t List.mem_cons_self
        rwa [EeHeap.length_stateCounters] at this
      have hfree := hk.stateFree ((h.not_last List.prefix_rfl hlt).imp_left fun hmem =>
        List.mem_cons_of_mem _ (List.mem_append_right _ hmem))
      refine ⟨hfree.arrayFree, ?_, ?_⟩
      · rw [EeHeap.length_states_arrayFree, EeHeap.length_states_stateFree]
        exact h.states
      · exact first_of_shapes h (by simp)

/-! ## A change of state -/

/-- The queue without an outdated subscribe: the first invocation of the type which the target
    state cancels, unless it is running. -/
def withoutOutdated (works : List (InvocationSpec × ExecutionStatus)) (target : EeState)
    (queue : List Nat) : List Nat :=
  match target.cancels with
  | none => queue
  | some type =>
      match queue.find? fun e => works[e]?.any fun w => w.2 ≠ .running ∧ w.1.type = type with
      | none => queue
      | some e => queue.erase e

lemma find?_eq_of_forall {p q : Nat → Bool} : ∀ {l : List Nat}, (∀ e ∈ l, p e = q e) →
    l.find? p = l.find? q
  | [], _ => rfl
  | e :: l, h => by
      rw [List.find?_cons, List.find?_cons, h e List.mem_cons_self,
        find?_eq_of_forall fun e' he' => h e' (List.mem_cons_of_mem e he')]

/-- Of the invocations in the queue it does not matter which others there are. -/
lemma withoutOutdated_append {works more : List (InvocationSpec × ExecutionStatus)}
    {queue : List Nat} (hq : ∀ e ∈ queue, e < works.length) :
    withoutOutdated (works ++ more) target queue = withoutOutdated works target queue := by
  unfold withoutOutdated
  cases target.cancels with
  | none => rfl
  | some type =>
      have hfind : (queue.find? fun e =>
            (works ++ more)[e]?.any fun w => w.2 ≠ .running ∧ w.1.type = type) =
          queue.find? fun e => works[e]?.any fun w => w.2 ≠ .running ∧ w.1.type = type := by
        refine find?_eq_of_forall fun e he => ?_
        rw [List.getElem?_append_left (hq e he)]
      simp only [hfind]

lemma withoutOutdated_sublist (works : List (InvocationSpec × ExecutionStatus))
    (target : EeState) (queue : List Nat) : (withoutOutdated works target queue).Sublist queue := by
  unfold withoutOutdated
  split
  · exact List.Sublist.refl queue
  · split
    · exact List.Sublist.refl queue
    · exact List.erase_sublist

lemma cancellable_eq (type : InvocationType) :
    s.cancellable type = s.invocations.find? fun e =>
      s.heap.works[e]?.any fun w => w.2 ≠ .running ∧ w.1.type = type := by
  unfold cancellable EeHeap.works
  refine find?_eq_of_forall fun e _ => ?_
  rw [List.getElem?_map]
  cases s.heap.invocations[e]? <;> rfl

/-- Cancelling concerns the queue, and gives up one of its entries. -/
lemma cancelOutdated_spec {states extra more grown : List Nat}
    (k : s.heap.Kept states (extra ++ (s.invocations ++ more)) grown) (target : EeState) :
    ∃ heap : EeHeap, s.cancelOutdated target =
        { s with heap := heap, invocations := withoutOutdated s.heap.works target s.invocations } ∧
      heap.Kept states (extra ++ (withoutOutdated s.heap.works target s.invocations ++ more)) grown ∧
      heap.works = s.heap.works ∧ heap.shapes = s.heap.shapes := by
  unfold cancelOutdated withoutOutdated
  cases target.cancels with
  | none => exact ⟨s.heap, rfl, k, rfl, rfl⟩
  | some type =>
      simp only [invocationCancelByType, cancellable_eq]
      cases hfind : s.invocations.find? fun e =>
          s.heap.works[e]?.any fun w => w.2 ≠ .running ∧ w.1.type = type with
      | none => exact ⟨s.heap, rfl, k, rfl, rfl⟩
      | some e =>
          refine ⟨s.heap.entryFree e, rfl, ?_, EeHeap.works_entryFree, EeHeap.shapes_entryFree⟩
          have he := List.mem_of_find?_eq_some hfind
          refine EeHeap.Kept.entryFree (k.perm ?_)
          have hperm := (List.perm_cons_erase he).append_right more
          exact (hperm.append_left extra).trans List.perm_middle

lemma arrayAlloc_snd {h : EeHeap} {states arrays grown : List Nat} (k : h.Kept states arrays grown)
    (specs : List InvocationSpec) :
    (h.arrayAlloc specs).2 = List.range' h.works.length specs.length := by
  rw [EeHeap.length_works, ← k.size]
  rfl

lemma perm_exchange {a b c d : List Nat} : (a ++ (b ++ c ++ d)).Perm (b ++ a ++ (c ++ d)) := by
  rw [List.append_assoc, List.append_assoc]
  exact List.perm_append_comm_assoc _ _ _

/-- The target state with its arrays. -/
lemma stateAlloc_spec {states extra more grown : List Nat}
    (k : s.heap.Kept states (extra ++ (s.invocations ++ more)) grown) (target : EeState) :
    ∃ heap : EeHeap, s.stateAlloc target =
        { s with heap := heap, invocations := withoutOutdated s.heap.works target s.invocations } ∧
      heap.Kept (s.heap.states.length :: states)
        (extra ++ (withoutOutdated s.heap.works target s.invocations ++ more)) grown ∧
      heap.works = s.heap.works ++
        (target.onEnter ++ target.onExit).map (fun spec => (spec, .created)) ∧
      heap.shapes = s.heap.shapes ++
        [(target, List.range' s.heap.works.length target.onEnter.length,
          List.range' (s.heap.works.length + target.onEnter.length) target.onExit.length)] := by
  have henter := k.arrayAlloc target.onEnter
  rw [← List.append_assoc] at henter
  have hbound : ∀ e ∈ s.invocations, e < s.heap.works.length := by
    intro e he
    rw [EeHeap.length_works]
    exact k.lt_of_mem (by simp [he])
  obtain ⟨heap, hcancel, hkept, hworks, hshapes⟩ :=
    cancelOutdated_spec (s := { s with heap := (s.heap.arrayAlloc target.onEnter).1 }) henter target
  simp only [EeHeap.works_arrayAlloc, withoutOutdated_append hbound, EeHeap.shapes_arrayAlloc]
    at hcancel hkept hworks hshapes
  have hexit := hkept.arrayAlloc target.onExit
  have hstates : (heap.arrayAlloc target.onExit).1.states.length = s.heap.states.length := by
    rw [← EeHeap.length_shapes, EeHeap.shapes_arrayAlloc, hshapes, EeHeap.length_shapes]
  have hnew := (hexit.perm perm_exchange).stateAlloc target
  rw [hstates] at hnew
  have hshapes' : (heap.arrayAlloc target.onExit).1.shapes = s.heap.shapes := by
    rw [EeHeap.shapes_arrayAlloc, hshapes]
  have hworks' : (heap.arrayAlloc target.onExit).1.works = s.heap.works ++
      (target.onEnter ++ target.onExit).map (fun spec => (spec, .created)) := by
    rw [EeHeap.works_arrayAlloc, hworks, List.map_append, List.append_assoc]
  refine ⟨_, ?_, hnew, hworks', ?_⟩
  · unfold stateAlloc
    dsimp only
    rw [hcancel]
  · have hlength : heap.works.length = s.heap.works.length + target.onEnter.length := by
      rw [hworks, List.length_append, List.length_map]
    rw [← arrayAlloc_snd k, ← hlength, ← arrayAlloc_snd hkept, ← hshapes']
    simp [EeHeap.shapes]

/-- The transition, with the array of its invocations. -/
lemma transitionAlloc_spec {states own more grown : List Nat} {st : StateObject}
    (k : s.heap.Kept states (own ++ (s.invocations ++ more)) grown) (hcur : s.current = some st)
    (target : EeState) :
    ∃ (heap : EeHeap) (enter : List Nat),
      enter = List.range' s.heap.works.length target.onEnter.length ∧
      s.transitionAlloc target own =
        ({ s with heap := heap, invocations := withoutOutdated s.heap.works target s.invocations },
          own ++ st.onExitInvocations ++ enter) ∧
      heap.Kept (s.heap.states.length :: s.heap.states.length :: states)
        ((own ++ st.onExitInvocations ++ enter) ++
          (withoutOutdated s.heap.works target s.invocations ++ more))
        ((own ++ st.onExitInvocations ++ enter) ++ grown) ∧
      heap.works = s.heap.works ++
        (target.onEnter ++ target.onExit).map (fun spec => (spec, .created)) ∧
      heap.shapes = s.heap.shapes ++
        [(target, enter,
          List.range' (s.heap.works.length + target.onEnter.length) target.onExit.length)] := by
  obtain ⟨heap, halloc, hkept, hworks, hshapes⟩ := stateAlloc_spec k target
  obtain ⟨enter, henter⟩ : ∃ enter, enter =
    List.range' s.heap.works.length target.onEnter.length := ⟨_, rfl⟩
  rw [← henter] at hshapes
  obtain ⟨n, hnew⟩ := EeHeap.state_of_shapes (h := heap) (i := s.heap.states.length) (by
    rw [hshapes, ← EeHeap.length_shapes, List.getElem?_concat_length])
  have hold : ∀ e ∈ st.onExitInvocations, e ∈ heap.stateArrays := by
    intro e he
    have := EeHeap.mem_stateArrays hcur (List.mem_append_right _ he)
    rw [EeHeap.stateArrays, hshapes, List.flatMap_append]
    exact List.mem_append_left _ this
  have hown := (hkept.stateCopy (List.getElem?_eq_some_iff.mp hnew).1).addInvocations
    fun e (he : e ∈ own) => List.mem_append_left _ (List.mem_append_left _ he)
  have hexit := hown.addInvocations fun e (he : e ∈ st.onExitInvocations) => by
    rw [EeHeap.stateArrays_congr (h := heap) (by simp)]
    exact List.mem_append_right _ (hold e he)
  have hall := hexit.addInvocations fun e (he : e ∈ enter) => by
    rw [EeHeap.stateArrays_congr (h := heap) (by simp)]
    exact List.mem_append_right _ (EeHeap.mem_stateArrays hnew (List.mem_append_left _ he))
  have hperm : (enter ++ (st.onExitInvocations ++ (own ++ (own ++
      (withoutOutdated s.heap.works target s.invocations ++ more))))).Perm
      (own ++ ((own ++ st.onExitInvocations ++ enter) ++
        (withoutOutdated s.heap.works target s.invocations ++ more))) := by
    refine List.perm_iff_count.mpr fun e => ?_
    simp only [List.count_append]
    omega
  have hgrown : (enter ++ (st.onExitInvocations ++ (own ++ grown))).Perm
      ((own ++ st.onExitInvocations ++ enter) ++ grown) := by
    refine List.perm_iff_count.mpr fun e => ?_
    simp only [List.count_append]
    omega
  refine ⟨_, enter, henter, ?_, ((hall.perm hperm).perm_grown hgrown).arrayFree, ?_, ?_⟩
  · unfold transitionAlloc
    dsimp only
    rw [halloc]
    simp only [hcur, hnew, Option.elim_some]
  · simpa using hworks
  · simpa using hshapes

/-- The array of the invocations that are made for entering the target. -/
def enterArray (s : EventEngine) (target : EeState) (own : List InvocationSpec) : List Nat :=
  List.range' (s.heap.works.length + own.length) target.onEnter.length

/-- The array of the invocations that are made for leaving the target again. -/
def exitArray (s : EventEngine) (target : EeState) (own : List InvocationSpec) : List Nat :=
  List.range' (s.heap.works.length + own.length + target.onEnter.length) target.onExit.length

/-- The array of a transition. -/
def transitionArray (s : EventEngine) (target : EeState) (own : List InvocationSpec)
    (exit : List Nat) : List Nat :=
  List.range' s.heap.works.length own.length ++ exit ++ s.enterArray target own

/-- The state has been changed, and nothing has been executed yet. -/
structure Change (s s' : EventEngine) (target : EeState) (own : List InvocationSpec)
    (exit : List Nat) : Prop where
  currentState : s'.currentState = s.heap.states.length
  changes : s'.changes = s.changes + 1
  invocations : s'.invocations =
    withoutOutdated s.heap.works target s.invocations ++ s.transitionArray target own exit
  queued : s'.queued = s.queued ++ s.transitionArray target own exit
  executed : s'.executed = s.executed
  completed : s'.completed = s.completed
  frames : s'.frames = if s.transitionArray target own exit = [] then s.frames
    else .transition s'.currentState (s.transitionArray target own exit) :: s.frames
  works : s'.heap.works = s.heap.works ++
    (own ++ target.onEnter ++ target.onExit).map fun spec => (spec, .created)
  shapes : s'.heap.shapes = s.heap.shapes ++
    [(target, s.enterArray target own, s.exitArray target own)]

/-- The reference to the current state, and those that nobody holds. -/
lemma perm_refs {t changes : Nat} {targets : List Nat} (ht : t = changes + 1) :
    (t :: t :: (targets ++ List.range' 1 changes)).Perm
      (t :: targets ++ List.range' 1 (changes + 1)) := by
  rw [List.range'_1_concat, Nat.add_comm 1 changes, ← ht, List.cons_append, ← List.append_assoc]
  exact (List.perm_append_singleton t _).symm.cons t

/-- The current state is set, while the transition still refers to the target. -/
lemma Accounts.currentStateSet (h : s.Accounts) {heap : EeHeap} {t : Nat}
    {targets arrays grown : List Nat}
    (k : heap.Kept (t :: t :: (s.currentState :: targets ++ List.range' 1 s.changes)) arrays grown)
    (hs : s.heap.shapes <+: heap.shapes) (ht : t < heap.states.length) :
    ((heap.stateFree s.currentState).stateCopy t).Kept
      (t :: t :: t :: (targets ++ List.range' 1 s.changes)) arrays grown := by
  have hcur : s.currentState < s.heap.states.length := by
    have := h.kept.statesExact.bound s.currentState (by simp [stateRefs])
    rwa [EeHeap.length_stateCounters] at this
  have hperm : (t :: t :: (s.currentState :: targets ++ List.range' 1 s.changes)).Perm
      (s.currentState :: t :: t :: (targets ++ List.range' 1 s.changes)) :=
    (List.perm_middle : (([t, t] : List Nat) ++ s.currentState :: _).Perm _)
  have hfree := (k.perm_states hperm).stateFree ((h.not_last hs hcur).imp_left fun hmem =>
    List.mem_cons_of_mem _ (List.mem_cons_of_mem _ (List.mem_append_right _ hmem)))
  exact hfree.stateCopy (by rwa [EeHeap.length_states_stateFree])

/-- **What an event does that changes the state**, up to where the first effect begins. -/
lemma handleEvent_of_target (h : s.Accounts) {event : Event} {st : StateObject}
    (hcur : s.current = some st) (htarget : (st.state.transition event).target = some target) :
    ∃ s', s.Change s' target (ownInvocations (st.state.transition event) event)
        st.onExitInvocations ∧ s'.Accounts ∧
      (s.handleEvent event = s' ∨
        ∃ first ∈ s.transitionArray target (ownInvocations (st.state.transition event) event)
          st.onExitInvocations, s.handleEvent event = s'.executeFirst first) := by
  generalize hown : ownInvocations (st.state.transition event) event = own
  have hcur' : EventEngine.current { s with heap := (s.heap.arrayAlloc own).1 } = some st := by
    rw [current, EeHeap.states_arrayAlloc]
    exact hcur
  have hbound : ∀ e ∈ s.invocations, e < s.heap.works.length := by
    intro e he
    rw [EeHeap.length_works]
    exact h.kept.lt_of_mem (List.mem_append_left _ (List.mem_append_left _ he))
  obtain ⟨heap, enter, henter, halloc, hkept, hworks, hshapes⟩ :=
    transitionAlloc_spec (h.kept.arrayAlloc own) hcur' target
  simp only [EeHeap.works_arrayAlloc, withoutOutdated_append hbound, EeHeap.shapes_arrayAlloc,
    EeHeap.states_arrayAlloc, arrayAlloc_snd h.kept, List.length_append, List.length_map]
    at henter halloc hkept hworks hshapes
  subst henter
  have hprefix : s.heap.shapes <+: heap.shapes := ⟨_, hshapes.symm⟩
  have ht : s.heap.states.length < heap.states.length := by
    rw [← EeHeap.length_shapes, ← EeHeap.length_shapes, hshapes, List.length_append]
    exact Nat.lt_succ_self _
  have heq : s.handleEvent event =
      carryOut
        { s with heap := heap, invocations := withoutOutdated s.heap.works target s.invocations }
        s.heap.states.length (s.transitionArray target own st.onExitInvocations) := by
    unfold handleEvent
    simp only [hcur, htarget, hown, arrayAlloc_snd h.kept, halloc]
    rfl
  have hworks' : heap.works = s.heap.works ++
      (own ++ target.onEnter ++ target.onExit).map fun spec => (spec, .created) := by
    rw [hworks]
    simp
  have hshapes' : heap.shapes = s.heap.shapes ++
      [(target, s.enterArray target own, s.exitArray target own)] := by
    rw [hshapes, enterArray, exitArray]
  have hlength : heap.states.length = s.changes + 1 + 1 := by
    rw [← EeHeap.length_shapes, hshapes, List.length_append, EeHeap.length_shapes, h.states]
    rfl
  have hkept : heap.Kept
      (s.heap.states.length :: s.heap.states.length :: (s.currentState ::
        s.frames.flatMap EeFrame.targets ++ List.range' 1 s.changes))
      (s.transitionArray target own st.onExitInvocations ++
        (withoutOutdated s.heap.works target s.invocations ++ s.frames.flatMap EeFrame.array))
      (s.transitionArray target own st.onExitInvocations ++ (s.queued ++ s.queued)) := hkept
  cases harray : s.transitionArray target own st.onExitInvocations with
  | nil =>
      rw [harray] at heq hkept
      have hset := h.currentStateSet hkept hprefix ht
      have hfree := (hset.stateFree (.inl List.mem_cons_self)).perm_states (perm_refs h.states)
      refine ⟨_, ?_, ?_, .inl heq⟩
      · exact ⟨rfl, rfl, by simp [carryOut, EventEngine.currentStateSet, harray],
          by simp [carryOut, EventEngine.currentStateSet, harray], rfl, rfl,
          by simp [carryOut, EventEngine.currentStateSet, harray],
          by simpa [carryOut, EventEngine.currentStateSet] using hworks',
          by simpa [carryOut, EventEngine.currentStateSet] using hshapes'⟩
      · exact ⟨hfree, by simpa [carryOut, EventEngine.currentStateSet] using hlength,
          first_of_shapes h (by simpa [carryOut, EventEngine.currentStateSet] using hprefix)⟩
  | cons first rest =>
      have hmem : first ∈ s.transitionArray target own st.onExitInvocations := by simp [harray]
      rw [harray] at heq
      rw [← harray]
      have hmerge := hkept.merge fun e he => List.mem_append_left _ (List.mem_append_left _ he)
      have hset := h.currentStateSet hmerge (by simpa using hprefix)
        (by rwa [EeHeap.length_states_merge])
      have hall := hset.incrementInvocations fun v hv =>
        hset.lt_of_mem (List.mem_append_left _ (List.mem_append_left _ hv))
      have harrays : (s.transitionArray target own st.onExitInvocations ++
          (s.transitionArray target own st.onExitInvocations ++
            (withoutOutdated s.heap.works target s.invocations ++
              s.frames.flatMap EeFrame.array))).Perm
          ((withoutOutdated s.heap.works target s.invocations ++
              s.transitionArray target own st.onExitInvocations) ++
            (s.transitionArray target own st.onExitInvocations ++
              s.frames.flatMap EeFrame.array)) := by
        refine List.perm_iff_count.mpr fun e => ?_
        simp only [List.count_append]
        omega
      have hgrown : (s.transitionArray target own st.onExitInvocations ++
          (s.transitionArray target own st.onExitInvocations ++ (s.queued ++ s.queued))).Perm
          ((s.queued ++ s.transitionArray target own st.onExitInvocations) ++
            (s.queued ++ s.transitionArray target own st.onExitInvocations)) := by
        refine List.perm_iff_count.mpr fun e => ?_
        simp only [List.count_append]
        omega
      refine ⟨_, ?_, ?_, .inr ⟨first, hmem, heq⟩⟩
      · rw [← harray]
        exact ⟨rfl, rfl, rfl, rfl, rfl, rfl, by rw [if_neg (by simp [harray])]; rfl,
          by simpa [EventEngine.currentStateSet, enqueue] using hworks',
          by simpa [EventEngine.currentStateSet, enqueue] using hshapes'⟩
      · rw [← harray]
        exact ⟨((hall.perm_states ((perm_refs h.states).cons _)).perm harrays).perm_grown hgrown,
          by simpa [EventEngine.currentStateSet, enqueue] using hlength,
          first_of_shapes h (by simpa [EventEngine.currentStateSet, enqueue] using hprefix)⟩

lemma Accounts.executeFirst (h : s.Accounts) (first : Nat) : (s.executeFirst first).Accounts := by
  unfold EventEngine.executeFirst
  dsimp only
  split
  · exact (h.invocationExec first).transitionFree
  · exact h.processNextInvocation.transitionFree

/-- An event that does not change the state does nothing. -/
lemma handleEvent_cases (h : s.Accounts) (event : Event) :
    s.handleEvent event = s ∨ ∃ st target, s.current = some st ∧
      (st.state.transition event).target = some target ∧
      ∃ s', s.Change s' target (ownInvocations (st.state.transition event) event)
          st.onExitInvocations ∧ s'.Accounts ∧
        (s.handleEvent event = s' ∨
          ∃ first ∈ s.transitionArray target (ownInvocations (st.state.transition event) event)
            st.onExitInvocations, s.handleEvent event = s'.executeFirst first) := by
  cases hcur : s.current with
  | none =>
      left
      unfold handleEvent
      rw [hcur]
  | some st =>
      cases htarget : (st.state.transition event).target with
      | none =>
          left
          unfold handleEvent
          simp only [hcur, htarget]
      | some target => exact .inr ⟨st, target, rfl, htarget, handleEvent_of_target h hcur htarget⟩

lemma Accounts.handleEvent (h : s.Accounts) (event : Event) : (s.handleEvent event).Accounts := by
  rcases handleEvent_cases h event with heq | ⟨st, target, -, -, s', -, h', heq | ⟨first, -, heq⟩⟩
  · rwa [heq]
  · rwa [heq]
  · rw [heq]
    exact h'.executeFirst first

lemma Accounts.effectCompletion (h : s.Accounts) (v : Nat) (paused : Bool) :
    (s.effectCompletion v paused).Accounts := by
  unfold EventEngine.effectCompletion
  split
  · exact h
  · split
    · split
      · exact ⟨h.kept.setStatus v .created, h.states, h.first⟩
      · exact (h.handleEffectCompletion v).processNextInvocation
    · exact h

end EventEngine

/-- **The references are accounted for.** -/
lemma EventEngine.Accounts.step {s s' : EventEngine} (h : s.Accounts) {a : EventEngineStep}
    (hst : eventEngineStep s a = some s') : s'.Accounts := by
  cases a with
  | handleEvent event =>
      cases hst
      exact h.handleEvent event
  | processNextInvocation =>
      cases hst
      exact h.processNextInvocation
  | effectCompletion v paused =>
      cases hst
      exact h.effectCompletion v paused
  | handleEffectCompletion v =>
      cases hst
      exact h.handleEffectCompletion v
  | effectReturns =>
      simp only [eventEngineStep] at hst
      split at hst
      case h_2 => cases hst
      case h_1 v frames hframes =>
          cases hst
          refine EventEngine.Accounts.transitionFree ⟨?_, h.states, h.first⟩
          have hk := h.kept
          rw [EventEngine.stateRefs, EventEngine.arrays, hframes] at hk
          exact hk

end PubNub
