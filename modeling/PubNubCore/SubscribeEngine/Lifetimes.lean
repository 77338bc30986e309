import PubNubCore.SubscribeEngine.Changes
import PubNubCore.Lib.Machine

/-!
# Invocations and objects over whole runs

The event engine as a machine: events, completions and returning effects in any order.  What its
queue promises holds in every run: invocations are executed in the order in which they were queued,
complete at most once, and nothing is used after it has been freed (`EventEngine.Orderly`).  That no
subscribe of a state that has been left can still run (`EventEngine.NoneStale`) holds as long as
such a subscribe does not wait in the queue while its state is left.  The counters are balanced
(`EventEngine.Balanced`) only before the state changes for the first time: `pbcc_transition_alloc_`
keeps its reference to the target state.
-/

namespace PubNub

/-! ## What is promised -/

/-- The two subscribe requests. -/
def InvocationType.isSubscribe : InvocationType → Bool
  | .handshake | .receive => true
  | _ => false

namespace EventEngine

/-- Invocations that are not immediate are executed in the order in which they were queued. -/
def Ordered (s : EventEngine) : Prop :=
  s.executed.Pairwise fun v w => s.queued.idxOf v ≤ s.queued.idxOf w

/-- An invocation completes at most once, and leaves the queue. -/
structure CompletedOnce (s : EventEngine) : Prop where
  once : s.completed.Nodup
  left : ∀ v ∈ s.completed, v ∉ s.invocations

/-- The entry and its invocation have not been freed. -/
def Live (s : EventEngine) (e : Nat) : Prop :=
  ∃ x i, s.heap.entries[e]? = some x ∧ 0 < x.counter ∧
    s.heap.invocations[x.value]? = some i ∧ 0 < i.counter

/-- What is still referred to has not been freed. -/
structure NoneDangling (s : EventEngine) : Prop where
  states : ∀ t ∈ s.stateRefs, ∃ st, s.heap.states[t]? = some st ∧ 0 < st.counter
  arrays : ∀ e ∈ s.arrays, s.Live e
  effects : ∀ v, .effect v ∈ s.frames → ∃ i, s.heap.invocations[v]? = some i ∧ 0 < i.counter

/-- What holds in every run. -/
structure Orderly (s : EventEngine) : Prop where
  ordered : s.Ordered
  completed : s.CompletedOnce
  noneDangling : s.NoneDangling

/-- A subscribe that runs when its turn comes. -/
def runnableSubscribe (s : EventEngine) (e : Nat) : Bool :=
  s.heap.works[e]?.any fun w => w.2 = .created && w.1.type.isSubscribe

/-- The invocation belongs to the current state. -/
def ofCurrent (s : EventEngine) (e : Nat) : Bool :=
  s.current.any fun st => st.onEnterInvocations.contains e

/-- Only the subscribe of the current state can still run. -/
def NoneStale (s : EventEngine) : Prop :=
  ∀ e ∈ s.invocations, s.runnableSubscribe e = true → s.ofCurrent e = true

/-- The invocations which the entries that have not been freed refer to. -/
def invocationRefs (s : EventEngine) : List Nat :=
  (s.heap.entries.filter fun x => 0 < x.counter).map (·.value)

/-- Every object is counted as often as it is referred to. -/
structure Balanced (s : EventEngine) : Prop where
  states : ExactCounts s.heap.stateCounters s.stateRefs
  invocations : ExactCounts (s.heap.invocations.map (·.counter)) s.invocationRefs

/-- All of it. -/
structure Sound (s : EventEngine) : Prop where
  orderly : s.Orderly
  noneStale : s.NoneStale
  balanced : s.Balanced

end EventEngine

/-- The event engine. -/
def eventEngine : Machine EventEngine EventEngineStep := ⟨EventEngine.init, eventEngineStep⟩

/-- No event asks for a subscription. -/
def NoneSubscribes (_ : EventEngine) : EventEngineStep → Prop
  | .handleEvent event => event.type.changesSubscribables = false
  | _ => True

/-- When the state changes, a subscribe that waits in the queue is of the type which the target
    cancels; and a subscribe pauses only while its state is the current one. -/
def LeavesNoneWaiting (s : EventEngine) : EventEngineStep → Prop
  | .handleEvent event =>
      ∀ st ∈ s.current, ∀ target ∈ (st.state.transition event).target,
        ∀ e ∈ s.invocations, s.runnableSubscribe e = true →
          s.heap.works[e]?.map (fun w => w.1.type) = target.cancels
  | .effectCompletion v true =>
      (s.heap.works[v]?.any fun w => w.1.type.isSubscribe) = true → s.ofCurrent v = true
  | _ => True

instance (s : EventEngine) : ∀ a, Decidable (LeavesNoneWaiting s a)
  | .handleEvent event => inferInstanceAs (Decidable (
      ∀ st ∈ s.current, ∀ target ∈ (st.state.transition event).target,
        ∀ e ∈ s.invocations, s.runnableSubscribe e = true →
          s.heap.works[e]?.map (fun w => w.1.type) = target.cancels))
  | .effectCompletion _ true => inferInstanceAs (Decidable (_ = true → _ = true))
  | .effectCompletion _ false => inferInstanceAs (Decidable True)
  | .processNextInvocation => inferInstanceAs (Decidable True)
  | .handleEffectCompletion _ => inferInstanceAs (Decidable True)
  | .effectReturns => inferInstanceAs (Decidable True)

namespace EventEngine

variable {s s' : EventEngine} {target : EeState} {own : List InvocationSpec} {exit : List Nat}

/-! ## The queue -/

/-- Invocations are numbered, so that none is queued twice.  The ones that have been begun, are
    executed or completed come from the queue, and those for leaving the current state have not been
    queued yet. -/
structure Line (s : EventEngine) : Prop where
  once : s.queued.Nodup
  bound : ∀ e ∈ s.queued, e < s.heap.works.length
  queue : s.invocations.Sublist s.queued
  begun : ∀ v w, s.heap.works[v]? = some w → w.2 ≠ .created → v ∈ s.queued
  effects : ∀ v, .effect v ∈ s.frames → v ∈ s.queued
  completedOnce : s.completed.Nodup
  completed : ∀ v, v ∈ s.completed ↔ ∃ spec, s.heap.works[v]? = some (spec, .completed)
  left : ∀ v ∈ s.completed, v ∉ s.invocations
  executed : ∀ v ∈ s.executed, v ∈ s.queued
  ahead : ∀ v ∈ s.executed, ∀ w ∈ s.invocations, s.queued.idxOf v ≤ s.queued.idxOf w
  ordered : s.Ordered
  exit : ∀ shape, s.heap.shapes[s.currentState]? = some shape →
    shape.2.2.Nodup ∧ ∀ e ∈ shape.2.2, e < s.heap.works.length ∧ e ∉ s.queued

lemma line_init : init.Line where
  once := List.nodup_nil
  bound := by simp [init]
  queue := List.Sublist.refl []
  begun v w hw := by simp [init, EeHeap.works] at hw
  effects v hv := by simp [init] at hv
  completedOnce := List.nodup_nil
  completed v := by simp [init, EeHeap.works]
  left v hv := by simp [init] at hv
  executed v hv := by simp [init] at hv
  ahead v hv := by simp [init] at hv
  ordered := List.Pairwise.nil
  exit shape hshape := by
    simp only [init, EeHeap.shapes, List.map_cons, List.map_nil, List.getElem?_cons_zero,
      Option.some.injEq] at hshape
    subst hshape
    exact ⟨List.nodup_nil, by simp⟩

/-- The line does not depend on counters, or on which transitions are carried out. -/
lemma Line.congr (h : s.Line) (hworks : s'.heap.works = s.heap.works)
    (hshapes : s'.heap.shapes = s.heap.shapes) (hcurrent : s'.currentState = s.currentState)
    (hqueue : s'.invocations = s.invocations) (hqueued : s'.queued = s.queued)
    (hexecuted : s'.executed = s.executed) (hcompleted : s'.completed = s.completed)
    (hframes : ∀ v, .effect v ∈ s'.frames → .effect v ∈ s.frames) : s'.Line where
  once := by rw [hqueued]; exact h.once
  bound := by rw [hqueued, hworks]; exact h.bound
  queue := by rw [hqueue, hqueued]; exact h.queue
  begun := by rw [hworks, hqueued]; exact h.begun
  effects v hv := by rw [hqueued]; exact h.effects v (hframes v hv)
  completedOnce := by rw [hcompleted]; exact h.completedOnce
  completed := by rw [hcompleted, hworks]; exact h.completed
  left := by rw [hcompleted, hqueue]; exact h.left
  executed := by rw [hexecuted, hqueued]; exact h.executed
  ahead := by rw [hexecuted, hqueue, hqueued]; exact h.ahead
  ordered := by rw [Ordered, hexecuted, hqueued]; exact h.ordered
  exit := by rw [hshapes, hcurrent, hworks, hqueued]; exact h.exit

lemma Line.transitionFree (h : s.Line) : s.transitionFree.Line := by
  unfold EventEngine.transitionFree
  split
  case h_2 => exact h
  case h_1 t invocations frames hframes =>
      refine h.congr (by simp) (by simp) rfl rfl rfl rfl rfl fun v hv => ?_
      rw [hframes]
      exact List.mem_cons_of_mem _ hv

/-- The head of the queue was queued before the rest of it. -/
lemma Line.head_first (h : s.Line) {e : Nat} {rest : List Nat} (hq : s.invocations = e :: rest) :
    ∀ w ∈ s.invocations, s.queued.idxOf e ≤ s.queued.idxOf w := by
  have hpairs : s.queued.Pairwise fun v w => s.queued.idxOf v < s.queued.idxOf w := by
    rw [List.pairwise_iff_getElem]
    intro i j hi hj hij
    rwa [h.once.idxOf_getElem i hi, h.once.idxOf_getElem j hj]
  have hqueue := hpairs.sublist h.queue
  rw [hq, List.pairwise_cons] at hqueue
  intro w hw
  rw [hq] at hw
  rcases List.mem_cons.mp hw with rfl | hw
  · exact le_refl _
  · exact (hqueue.1 w hw).le

lemma works_of_invocation {v : Nat} {i : InvocationObject}
    (hi : s.heap.invocations[v]? = some i) : s.heap.works[v]? = some (i.spec, i.status) := by
  rw [EeHeap.works, List.getElem?_map, hi]
  rfl

/-- Another status of a queued invocation, which is neither completed before nor afterwards. -/
lemma Line.setStatus (h : s.Line) {v : Nat} {status : ExecutionStatus} (hv : v ∈ s.queued)
    (hold : v ∉ s.completed) (hnew : status ≠ .completed) :
    Line { s with heap := s.heap.setStatus v status } where
  __ := h
  bound e he := by
    rw [EeHeap.works_setStatus, List.length_modify]
    exact h.bound e he
  begun w work hw hcreated := by
    rw [EeHeap.works_setStatus, List.getElem?_modify] at hw
    obtain ⟨work', hw', rfl⟩ := Option.map_eq_some_iff.mp hw
    by_cases hvw : v = w
    · exact hvw ▸ hv
    · rw [if_neg hvw] at hcreated
      exact h.begun w work' hw' hcreated
  completed w := by
    rw [h.completed w, EeHeap.works_setStatus, List.getElem?_modify]
    by_cases hvw : v = w
    · subst hvw
      constructor
      · intro hdone
        exact absurd ((h.completed v).mpr hdone) hold
      · rintro ⟨spec, hspec⟩
        obtain ⟨work, -, hwork⟩ := Option.map_eq_some_iff.mp hspec
        rw [if_pos rfl, Prod.mk.injEq] at hwork
        exact absurd hwork.2 hnew
    · simp [hvw]
  exit shape hshape := by
    rw [EeHeap.works_setStatus, List.length_modify]
    exact h.exit shape hshape

lemma Line.not_completed (h : s.Line) {v : Nat} {i : InvocationObject}
    (hi : s.heap.invocations[v]? = some i) (hstatus : i.status ≠ .completed) :
    v ∉ s.completed := by
  intro hv
  obtain ⟨spec, hspec⟩ := (h.completed v).mp hv
  rw [works_of_invocation hi, Option.some.injEq, Prod.mk.injEq] at hspec
  exact hstatus hspec.2

/-- The effect of a queued invocation begins: of the first one, or of an immediate one. -/
lemma Line.invocationExec (h : s.Line) {v : Nat} (hv : v ∈ s.queued)
    (hfirst : ∀ i, s.heap.invocations[v]? = some i → i.spec.immediate = false →
      s.invocations.head? = some v) :
    (s.invocationExec v).Line := by
  unfold EventEngine.invocationExec
  split
  case h_1 => exact h
  case h_2 i hi =>
    split
    case isFalse => exact h
    case isTrue hcreated =>
        have hset := h.setStatus hv (h.not_completed hi (by rw [hcreated]; decide))
          (by decide : ExecutionStatus.running ≠ .completed)
        have heffects : ∀ w, EeFrame.effect w ∈ EeFrame.effect v :: s.frames → w ∈ s.queued := by
          rintro w (- | ⟨_, hw⟩)
          · exact hv
          · exact h.effects w hw
        cases himmediate : i.spec.immediate with
        | true => exact { hset with effects := heffects }
        | false =>
            obtain ⟨rest, hrest⟩ := List.head?_eq_some_iff.mp (hfirst i hi himmediate)
            have hmem : v ∈ s.invocations := hrest ▸ List.mem_cons_self
            have hnow := h.head_first hrest
            refine { hset with effects := heffects, executed := ?_, ahead := ?_, ordered := ?_ }
            · rintro w hw
              rcases List.mem_append.mp hw with hw | hw
              · exact h.executed w hw
              · exact List.mem_singleton.mp hw ▸ hv
            · rintro w hw
              rcases List.mem_append.mp hw with hw | hw
              · exact h.ahead w hw
              · exact List.mem_singleton.mp hw ▸ hnow
            · exact List.pairwise_append.mpr ⟨h.ordered, List.pairwise_singleton _ v,
                fun w hw u hu => List.mem_singleton.mp hu ▸ h.ahead w hw v hmem⟩

lemma Line.processNextInvocation (h : s.Line) : s.processNextInvocation.Line := by
  unfold EventEngine.processNextInvocation
  split
  case h_1 => exact h
  case h_2 e rest hqueue =>
      refine h.invocationExec (h.queue.subset (hqueue ▸ List.mem_cons_self)) fun _ _ _ => ?_
      rw [hqueue]
      rfl

/-- A running invocation completes and leaves the queue. -/
lemma Line.handleEffectCompletion (h : s.Line) (v : Nat) : (s.handleEffectCompletion v).Line := by
  unfold EventEngine.handleEffectCompletion
  split
  case h_1 => exact h
  case h_2 i hi =>
    split
    case isFalse => exact h
    case isTrue hrunning =>
        have hwork := works_of_invocation hi
        have hv : v ∈ s.queued := h.begun v _ hwork (by simp [hrunning])
        have hnew : v ∉ s.completed := h.not_completed hi (by rw [hrunning]; decide)
        have hworks : ∀ w, (s.heap.works.modify v fun work => (work.1, .completed))[w]? =
            if v = w then some (i.spec, .completed) else s.heap.works[w]? := by
          intro w
          rw [List.getElem?_modify]
          by_cases hvw : v = w
          · subst hvw
            simp [hwork]
          · simp [hvw]
        refine
          { once := h.once
            bound := ?_, queue := List.filter_sublist.trans h.queue, begun := ?_
            effects := h.effects, completedOnce := List.nodup_cons.mpr ⟨hnew, h.completedOnce⟩
            completed := ?_, left := ?_, executed := h.executed, ahead := ?_
            ordered := h.ordered, exit := ?_ }
        · simpa [EeHeap.works_setStatus] using h.bound
        · intro w work hw hcreated
          rw [EeHeap.works_arrayFree, EeHeap.works_setStatus, hworks] at hw
          by_cases hvw : v = w
          · exact hvw ▸ hv
          · rw [if_neg hvw] at hw
            exact h.begun w work hw hcreated
        · intro w
          rw [EeHeap.works_arrayFree, EeHeap.works_setStatus, hworks, List.mem_cons]
          by_cases hvw : v = w
          · simp [hvw]
          · rw [if_neg hvw, h.completed w]
            exact or_iff_right fun hwv => hvw hwv.symm
        · intro w hw hmem
          have hqueue := List.mem_filter.mp hmem
          rcases List.mem_cons.mp hw with rfl | hw
          · simp at hqueue
          · exact h.left w hw hqueue.1
        · intro w hw u hu
          exact h.ahead w hw u (List.mem_filter.mp hu).1
        · simpa [EeHeap.works_setStatus] using h.exit

lemma Line.effectCompletion (h : s.Line) (v : Nat) (paused : Bool) :
    (s.effectCompletion v paused).Line := by
  unfold EventEngine.effectCompletion
  split
  case h_1 => exact h
  case h_2 i hi =>
    split
    case isFalse => exact h
    case isTrue hrunning =>
      split
      · exact h.setStatus (h.begun v _ (works_of_invocation hi) (by simp [hrunning]))
          (h.not_completed hi (by rw [hrunning]; decide))
          (by decide : ExecutionStatus.created ≠ .completed)
      · exact (h.handleEffectCompletion v).processNextInvocation

/-! ## A change of state -/

/-- The invocations of a transition are new ones, and those for leaving the current state. -/
lemma Line.transitionArray_fresh (h : s.Line) {shape : EeState × List Nat × List Nat}
    (hshape : s.heap.shapes[s.currentState]? = some shape) (target : EeState)
    (own : List InvocationSpec) :
    (s.transitionArray target own shape.2.2).Nodup ∧
      ∀ e ∈ s.transitionArray target own shape.2.2, e ∉ s.queued ∧
        e < s.heap.works.length + own.length + target.onEnter.length := by
  obtain ⟨hnodup, hexit⟩ := h.exit shape hshape
  have hown : ∀ e ∈ List.range' s.heap.works.length own.length,
      s.heap.works.length ≤ e ∧ e < s.heap.works.length + own.length := by
    intro e he
    rwa [List.mem_range'_1] at he
  have henter : ∀ e ∈ s.enterArray target own, s.heap.works.length + own.length ≤ e ∧
      e < s.heap.works.length + own.length + target.onEnter.length := by
    intro e he
    rwa [enterArray, List.mem_range'_1] at he
  have hnew : ∀ e, s.heap.works.length ≤ e → e ∉ s.queued := by
    intro e he hq
    exact absurd (h.bound e hq) (by omega)
  constructor
  · refine List.Nodup.append (List.Nodup.append List.nodup_range' hnodup ?_)
      List.nodup_range' ?_
    · intro e he he'
      have := hown e he
      have := (hexit e he').1
      omega
    · intro e he he'
      have := henter e he'
      rcases List.mem_append.mp he with he | he
      · have := hown e he
        omega
      · have := (hexit e he).1
        omega
  · intro e he
    rcases List.mem_append.mp he with he | he
    · rcases List.mem_append.mp he with he | he
      · have := hown e he
        exact ⟨hnew e this.1, by omega⟩
      · have := (hexit e he).1
        exact ⟨(hexit e he).2, by omega⟩
    · have := henter e he
      exact ⟨hnew e (by omega), this.2⟩

/-- What had been begun before is what it was. -/
lemma Change.works_of_begun {v : Nat} {w : InvocationSpec × ExecutionStatus}
    (hc : s.Change s' target own exit) (hw : s'.heap.works[v]? = some w) (hbegun : w.2 ≠ .created) :
    s.heap.works[v]? = some w := by
  rw [hc.works] at hw
  rcases Nat.lt_or_ge v s.heap.works.length with hlt | hge
  · rwa [List.getElem?_append_left hlt] at hw
  · rw [List.getElem?_append_right hge, List.getElem?_map] at hw
    obtain ⟨spec, -, rfl⟩ := Option.map_eq_some_iff.mp hw
    exact absurd rfl hbegun

lemma Change.works_of_old {v : Nat} {w : InvocationSpec × ExecutionStatus}
    (hc : s.Change s' target own exit) (hw : s.heap.works[v]? = some w) :
    s'.heap.works[v]? = some w := by
  rw [hc.works, List.getElem?_append_left (List.getElem?_eq_some_iff.mp hw).1]
  exact hw

lemma Change.length_works (hc : s.Change s' target own exit) : s'.heap.works.length =
    s.heap.works.length + own.length + target.onEnter.length + target.onExit.length := by
  rw [hc.works]
  simp [Nat.add_assoc]

/-- The shape of the current state is that of the target. -/
lemma Change.shape (hc : s.Change s' target own exit) :
    s'.heap.shapes[s'.currentState]? =
      some (target, s.enterArray target own, s.exitArray target own) := by
  rw [hc.shapes, hc.currentState, ← EeHeap.length_shapes, List.getElem?_concat_length]

lemma Change.effects {v : Nat} (hc : s.Change s' target own exit)
    (hv : EeFrame.effect v ∈ s'.frames) : EeFrame.effect v ∈ s.frames := by
  rw [hc.frames] at hv
  split at hv
  · exact hv
  · exact (List.mem_cons.mp hv).resolve_left nofun

lemma Line.change (h : s.Line) {shape : EeState × List Nat × List Nat}
    (hshape : s.heap.shapes[s.currentState]? = some shape)
    (hc : s.Change s' target own shape.2.2) : s'.Line := by
  obtain ⟨hnodup, hfresh⟩ := h.transitionArray_fresh hshape target own
  have hbegun : ∀ v w, s'.heap.works[v]? = some w → w.2 ≠ .created → v ∈ s.queued :=
    fun v w hw hcreated => h.begun v w (hc.works_of_begun hw hcreated) hcreated
  have hkept := withoutOutdated_sublist s.heap.works target s.invocations
  have hbefore : ∀ v ∈ s.queued, s'.queued.idxOf v = s.queued.idxOf v := by
    intro v hv
    rw [hc.queued, List.idxOf_append_of_mem hv]
  constructor
  case once =>
      rw [hc.queued]
      exact h.once.append hnodup fun e he he' => (hfresh e he').1 he
  case bound =>
      intro e he
      rw [hc.queued] at he
      rw [hc.length_works]
      rcases List.mem_append.mp he with he | he
      · have := h.bound e he
        omega
      · have := (hfresh e he).2
        omega
  case queue =>
      rw [hc.invocations, hc.queued]
      exact (hkept.trans h.queue).append (List.Sublist.refl _)
  case begun =>
      intro v w hw hcreated
      rw [hc.queued]
      exact List.mem_append_left _ (hbegun v w hw hcreated)
  case effects =>
      intro v hv
      rw [hc.queued]
      exact List.mem_append_left _ (h.effects v (hc.effects hv))
  case completedOnce =>
      rw [hc.completed]
      exact h.completedOnce
  case completed =>
      intro v
      rw [hc.completed, h.completed v]
      constructor
      · rintro ⟨spec, hspec⟩
        exact ⟨spec, hc.works_of_old hspec⟩
      · rintro ⟨spec, hspec⟩
        exact ⟨spec, hc.works_of_begun hspec nofun⟩
  case left =>
      intro v hv hmem
      rw [hc.completed] at hv
      rw [hc.invocations] at hmem
      rcases List.mem_append.mp hmem with hmem | hmem
      · exact h.left v hv (hkept.subset hmem)
      · obtain ⟨spec, hspec⟩ := (h.completed v).mp hv
        exact (hfresh v hmem).1 (h.begun v _ hspec nofun)
  case executed =>
      intro v hv
      rw [hc.executed] at hv
      rw [hc.queued]
      exact List.mem_append_left _ (h.executed v hv)
  case ahead =>
      intro v hv w hw
      rw [hc.executed] at hv
      rw [hc.invocations] at hw
      have hvq := h.executed v hv
      rw [hbefore v hvq]
      rcases List.mem_append.mp hw with hw | hw
      · rw [hbefore w (h.queue.subset (hkept.subset hw))]
        exact h.ahead v hv w (hkept.subset hw)
      · rw [hc.queued, List.idxOf_append_of_notMem (hfresh w hw).1]
        have := List.idxOf_lt_length_of_mem hvq
        omega
  case ordered =>
      rw [Ordered, hc.executed]
      refine h.ordered.imp_of_mem fun {v w} hv hw hvw => ?_
      rw [hbefore v (h.executed v hv), hbefore w (h.executed w hw)]
      exact hvw
  case exit =>
      intro shape' hshape'
      rw [hc.shape, Option.some.injEq] at hshape'
      subst hshape'
      refine ⟨List.nodup_range', fun e he => ?_⟩
      rw [exitArray, List.mem_range'_1] at he
      rw [hc.length_works, hc.queued]
      refine ⟨he.2, fun hmem => ?_⟩
      rcases List.mem_append.mp hmem with hmem | hmem
      · have := h.bound e hmem
        omega
      · have := (hfresh e hmem).2
        omega

lemma Line.executeFirst (h : s.Line) {first : Nat} (hfirst : first ∈ s.queued) :
    (s.executeFirst first).Line := by
  unfold EventEngine.executeFirst
  dsimp only
  split
  case isTrue himmediate =>
      refine (h.invocationExec hfirst fun i hi hno => ?_).transitionFree
      rw [hi, Option.any_some, hno] at himmediate
      cases himmediate
  case isFalse => exact h.processNextInvocation.transitionFree

lemma Line.handleEvent (h : s.Line) (ha : s.Accounts) (event : Event) :
    (s.handleEvent event).Line := by
  rcases handleEvent_cases ha event with
    heq | ⟨st, target, hcur, -, s', hc, -, heq | ⟨first, hfirst, heq⟩⟩
  · rwa [heq]
  · rw [heq]
    exact h.change (EeHeap.shapes_of_state hcur) hc
  · rw [heq]
    refine (h.change (EeHeap.shapes_of_state hcur) hc).executeFirst ?_
    rw [hc.queued]
    exact List.mem_append_right _ hfirst

lemma Line.step (h : s.Line) (ha : s.Accounts) {a : EventEngineStep}
    (hst : eventEngineStep s a = some s') : s'.Line := by
  cases a with
  | handleEvent event =>
      cases hst
      exact h.handleEvent ha event
  | processNextInvocation =>
      cases hst
      exact h.processNextInvocation
  | effectCompletion v paused =>
      cases hst
      exact h.effectCompletion v paused
  | handleEffectCompletion v =>
      cases hst
      exact h.handleEffectCompletion v
  | effectReturns =>
      simp only [eventEngineStep] at hst
      split at hst
      case h_2 => cases hst
      case h_1 v frames hframes =>
          cases hst
          refine Line.transitionFree (h.congr rfl rfl rfl rfl rfl rfl rfl fun w hw => ?_)
          rw [hframes]
          exact List.mem_cons_of_mem _ hw

/-! ## Stale subscribes -/

/-- No subscribe of another state can run.  A state has one subscribe at most, and what leaves it is
    not one. -/
structure Tidy (s : EventEngine) : Prop where
  noneStale : ∀ e ∈ s.invocations, s.runnableSubscribe e = true →
    ∀ shape, s.heap.shapes[s.currentState]? = some shape → e ∈ shape.2.1
  enter : ∀ shape, s.heap.shapes[s.currentState]? = some shape → shape.2.1.length ≤ 1
  exit : ∀ shape, s.heap.shapes[s.currentState]? = some shape → ∀ e ∈ shape.2.2,
    s.runnableSubscribe e = false

lemma runnable_iff {e : Nat} : s.runnableSubscribe e = true ↔
    ∃ spec, s.heap.works[e]? = some (spec, .created) ∧ spec.type.isSubscribe = true := by
  unfold runnableSubscribe
  rw [Option.any_eq_true]
  constructor
  · rintro ⟨⟨spec, status⟩, hw, hr⟩
    simp only [Bool.and_eq_true, decide_eq_true_eq] at hr
    exact ⟨spec, hr.1 ▸ hw, hr.2⟩
  · rintro ⟨spec, hw, htype⟩
    exact ⟨_, hw, by simp [htype]⟩

lemma tidy_init : init.Tidy where
  noneStale e he := by simp [init] at he
  enter shape hshape := by
    simp only [init, EeHeap.shapes, List.map_cons, List.map_nil, List.getElem?_cons_zero,
      Option.some.injEq] at hshape
    subst hshape
    exact Nat.zero_le 1
  exit shape hshape := by
    simp only [init, EeHeap.shapes, List.map_cons, List.map_nil, List.getElem?_cons_zero,
      Option.some.injEq] at hshape
    subst hshape
    simp

/-- Nothing becomes stale when no subscribe becomes runnable and the queue does not grow. -/
lemma Tidy.congr (h : s.Tidy) (hshapes : s'.heap.shapes = s.heap.shapes)
    (hcurrent : s'.currentState = s.currentState) (hqueue : s'.invocations ⊆ s.invocations)
    (hrunnable : ∀ e, s'.runnableSubscribe e = true → s.runnableSubscribe e = true) :
    s'.Tidy where
  noneStale e he hr := by
    rw [hshapes, hcurrent]
    exact h.noneStale e (hqueue he) (hrunnable e hr)
  enter := by
    rw [hshapes, hcurrent]
    exact h.enter
  exit := by
    rw [hshapes, hcurrent]
    intro shape hshape e he
    by_contra hr
    rw [Bool.not_eq_false] at hr
    exact absurd (hrunnable e hr) (by simp [h.exit shape hshape e he])

/-- An invocation that is not set back does not become runnable. -/
lemma runnable_of_setStatus (v : Nat) (status : ExecutionStatus) {e : Nat}
    (hworks : s'.heap.works = s.heap.works.modify v fun w => (w.1, status))
    (hs : status ≠ .created) (hr : s'.runnableSubscribe e = true) :
    s.runnableSubscribe e = true := by
  unfold runnableSubscribe at hr ⊢
  rw [hworks, List.getElem?_modify] at hr
  cases hw : s.heap.works[e]? with
  | none => simp [hw] at hr
  | some w =>
      by_cases hve : v = e
      · simp [hw, hve, hs] at hr
      · simpa [hw, hve] using hr

lemma Tidy.transitionFree (h : s.Tidy) : s.transitionFree.Tidy := by
  unfold EventEngine.transitionFree
  split
  case h_2 => exact h
  case h_1 =>
      refine h.congr (by simp) rfl (List.Subset.refl _) fun e hr => ?_
      simpa [runnableSubscribe] using hr

lemma Tidy.invocationExec (h : s.Tidy) (v : Nat) : (s.invocationExec v).Tidy := by
  unfold EventEngine.invocationExec
  split
  · exact h
  · split
    · exact h.congr rfl rfl (List.Subset.refl _) fun e hr =>
        runnable_of_setStatus v .running EeHeap.works_setStatus nofun hr
    · exact h

lemma Tidy.processNextInvocation (h : s.Tidy) : s.processNextInvocation.Tidy := by
  unfold EventEngine.processNextInvocation
  split
  · exact h
  · exact h.invocationExec _

lemma Tidy.executeFirst (h : s.Tidy) (first : Nat) : (s.executeFirst first).Tidy := by
  unfold EventEngine.executeFirst
  dsimp only
  split
  · exact (h.invocationExec first).transitionFree
  · exact h.processNextInvocation.transitionFree

lemma Tidy.handleEffectCompletion (h : s.Tidy) (v : Nat) : (s.handleEffectCompletion v).Tidy := by
  unfold EventEngine.handleEffectCompletion
  split
  · exact h
  · split
    · refine h.congr (by simp) rfl List.filter_sublist.subset fun e hr => ?_
      refine runnable_of_setStatus v .completed ?_ nofun hr
      rw [EeHeap.works_arrayFree, EeHeap.works_setStatus]
    · exact h

lemma ofCurrent_iff {e : Nat} : s.ofCurrent e = true ↔
    ∃ shape, s.heap.shapes[s.currentState]? = some shape ∧ e ∈ shape.2.1 := by
  unfold ofCurrent current
  rw [EeHeap.shapes, List.getElem?_map]
  cases s.heap.states[s.currentState]? with
  | none => simp
  | some st => simp

/-- A subscribe that pauses belongs to the current state. -/
lemma Tidy.effectCompletion (h : s.Tidy) (v : Nat) (paused : Bool) (hl : s.Line)
    (hg : LeavesNoneWaiting s (.effectCompletion v paused)) : (s.effectCompletion v paused).Tidy := by
  unfold EventEngine.effectCompletion
  split
  case h_1 => exact h
  case h_2 i hi =>
    split
    case isFalse => exact h
    case isTrue hrunning =>
      split
      case isFalse => exact (h.handleEffectCompletion v).processNextInvocation
      case isTrue hpaused =>
          subst hpaused
          have hwork := works_of_invocation hi
          have hother : ∀ e, v ≠ e → runnableSubscribe
              { s with heap := s.heap.setStatus v .created } e = s.runnableSubscribe e := by
            intro e hve
            simp [runnableSubscribe, EeHeap.works_setStatus, hve]
          have hself : runnableSubscribe { s with heap := s.heap.setStatus v .created } v =
              i.spec.type.isSubscribe := by
            simp [runnableSubscribe, EeHeap.works_setStatus, hwork]
          have hqueued : v ∈ s.queued := hl.begun v _ hwork (by simp [hrunning])
          refine ⟨fun e he hr shape hshape => ?_, h.enter, fun shape hshape e he => ?_⟩
          · by_cases hve : v = e
            · subst hve
              rw [hself] at hr
              obtain ⟨shape', hshape', hmem⟩ := ofCurrent_iff.mp (hg (by rw [hwork]; exact hr))
              have hsame : shape' = shape := Option.some.inj (hshape'.symm.trans hshape)
              exact hsame ▸ hmem
            · rw [hother e hve] at hr
              exact h.noneStale e he hr shape hshape
          · have hve : v ≠ e := fun hve => ((hl.exit shape hshape).2 e he).2 (hve ▸ hqueued)
            rw [hother e hve]
            exact h.exit shape hshape e he

/-! ### A change of state -/

/-- What a transition adds of its own is not a subscribe. -/
lemma transition_invocation {state : EeState} {event : Event} {type : InvocationType}
    (htype : (state.transition event).invocation = some type) : type.isSubscribe = false := by
  cases state with
  | unsubscribed =>
      simp only [EeState.transition, unsubscribedStateTransition] at htype
      split at htype <;> cases htype
  | handshaking ctx =>
      simp only [EeState.transition, handshakingStateTransition] at htype
      split at htype
      case h_1 => split at htype <;> cases htype
      all_goals cases htype
      all_goals rfl
  | handshakeFailed ctx =>
      simp only [EeState.transition, handshakeFailedStateTransition] at htype
      split at htype
      case h_1 => split at htype <;> cases htype
      case h_2 => split at htype <;> cases htype
      all_goals cases htype
  | handshakeStopped ctx =>
      simp only [EeState.transition, handshakeStoppedStateTransition] at htype
      split at htype <;> cases htype
  | receiving ctx =>
      simp only [EeState.transition, receivingStateTransition] at htype
      split at htype
      case h_1 => split at htype <;> cases htype <;> rfl
      case h_2 => split at htype <;> cases htype <;> rfl
      all_goals cases htype
      all_goals rfl
  | receiveFailed ctx =>
      simp only [EeState.transition, receivingFailedStateTransition] at htype
      split at htype <;> cases htype
  | receiveStopped ctx =>
      simp only [EeState.transition, receivingStoppedStateTransition] at htype
      split at htype <;> cases htype

lemma ownInvocations_type {state : EeState} {event : Event} {spec : InvocationSpec}
    (hspec : spec ∈ ownInvocations (state.transition event) event) :
    spec.type.isSubscribe = false := by
  unfold ownInvocations at hspec
  simp only [Option.mem_toList, Option.map_eq_some_iff] at hspec
  obtain ⟨type, htype, rfl⟩ := hspec
  exact transition_invocation htype

lemma onExit_type {spec : InvocationSpec} (hspec : spec ∈ target.onExit) :
    spec.type.isSubscribe = false := by
  cases target <;> simp only [EeState.onExit, List.mem_singleton, List.not_mem_nil] at hspec <;>
    rw [hspec] <;> rfl

lemma length_onEnter_le_one : target.onEnter.length ≤ 1 := by
  cases target <;> simp [EeState.onEnter]

lemma eq_of_length_le_one {v w : Nat} : ∀ {l : List Nat}, l.length ≤ 1 → v ∈ l → w ∈ l → v = w
  | [_], _, hv, hw => (List.mem_singleton.mp hv).trans (List.mem_singleton.mp hw).symm

/-- The subscribe of the current state is cancelled if it can still run. -/
lemma Tidy.not_mem_withoutOutdated (h : s.Tidy) (hl : s.Line) {e : Nat}
    {shape : EeState × List Nat × List Nat}
    (hshape : s.heap.shapes[s.currentState]? = some shape) (hr : s.runnableSubscribe e = true)
    (htype : s.heap.works[e]?.map (fun w => w.1.type) = target.cancels) :
    e ∉ withoutOutdated s.heap.works target s.invocations := by
  intro hmem
  have he := (withoutOutdated_sublist _ _ _).subset hmem
  have hnodup : s.invocations.Nodup := hl.once.sublist hl.queue
  obtain ⟨spec, hw, hsub⟩ := runnable_iff.mp hr
  rw [hw, Option.map_some] at htype
  unfold withoutOutdated at hmem
  rw [← htype] at hmem
  dsimp only at hmem
  cases hfind : s.invocations.find? fun e =>
      s.heap.works[e]?.any fun w => w.2 ≠ .running ∧ w.1.type = spec.type with
  | none =>
      have hnone := List.find?_eq_none.mp hfind e he
      rw [hw] at hnone
      simp at hnone
  | some e' =>
      rw [hfind] at hmem
      have he' := List.mem_of_find?_eq_some hfind
      -- what is found can run as well, so that it is the one subscribe of the current state
      have hr' : s.runnableSubscribe e' = true := by
        have hfound := List.find?_some hfind
        rw [Option.any_eq_true] at hfound
        obtain ⟨⟨spec', status⟩, hw', hp⟩ := hfound
        simp only [decide_eq_true_eq] at hp
        have hcreated : status = .created := by
          cases status with
          | created => rfl
          | running => exact absurd rfl hp.1
          | completed => exact absurd he' (hl.left e' ((hl.completed e').mpr ⟨spec', hw'⟩))
        rw [hcreated] at hw'
        exact runnable_iff.mpr ⟨spec', hw', by rw [hp.2, hsub]⟩
      have hone := eq_of_length_le_one (h.enter shape hshape)
        (h.noneStale e' he' hr' shape hshape) (h.noneStale e he hr shape hshape)
      rw [hone] at hmem
      exact hnodup.not_mem_erase hmem

lemma Tidy.change (h : s.Tidy) (hl : s.Line) {event : Event} {st : StateObject}
    (hcur : s.current = some st) (htarget : (st.state.transition event).target = some target)
    (hc : s.Change s' target (ownInvocations (st.state.transition event) event)
      st.onExitInvocations)
    (hg : LeavesNoneWaiting s (.handleEvent event)) : s'.Tidy := by
  have hshape := EeHeap.shapes_of_state hcur
  generalize hown : ownInvocations (st.state.transition event) event = own at hc
  -- the invocations that are new, by their place
  have hnew : ∀ e spec, s'.heap.works[e]? = some (spec, .created) → s.heap.works.length ≤ e →
      (own ++ target.onEnter ++ target.onExit)[e - s.heap.works.length]? = some spec := by
    intro e spec hw hge
    rw [hc.works, List.getElem?_append_right hge, List.getElem?_map] at hw
    obtain ⟨spec', hspec', hsame⟩ := Option.map_eq_some_iff.mp hw
    rw [hspec', (Prod.mk.inj hsame).1]
  have hold : ∀ e, e < s.heap.works.length → s'.runnableSubscribe e = s.runnableSubscribe e := by
    intro e he
    unfold runnableSubscribe
    rw [hc.works, List.getElem?_append_left he]
  constructor
  case enter =>
      intro shape' hshape'
      rw [hc.shape, Option.some.injEq] at hshape'
      subst hshape'
      rw [enterArray, List.length_range']
      exact length_onEnter_le_one
  case exit =>
      intro shape' hshape' e he
      rw [hc.shape, Option.some.injEq] at hshape'
      subst hshape'
      rw [exitArray, List.mem_range'_1] at he
      by_contra hr
      rw [Bool.not_eq_false] at hr
      obtain ⟨spec, hw, hsub⟩ := runnable_iff.mp hr
      have hspec := hnew e spec hw (by omega)
      rw [List.getElem?_append_right (by rw [List.length_append]; omega)] at hspec
      rw [onExit_type (List.mem_of_getElem? hspec)] at hsub
      cases hsub
  case noneStale =>
      intro e he hr shape' hshape'
      rw [hc.shape, Option.some.injEq] at hshape'
      subst hshape'
      rw [hc.invocations] at he
      rcases List.mem_append.mp he with he | he
      · exfalso
        have hmem := (withoutOutdated_sublist _ _ _).subset he
        have hlt : e < s.heap.works.length := hl.bound e (hl.queue.subset hmem)
        rw [hold e hlt] at hr
        exact h.not_mem_withoutOutdated hl hshape hr (hg st hcur target htarget e hmem hr) he
      · rcases List.mem_append.mp he with he | he
        · exfalso
          rcases List.mem_append.mp he with he | he
          · rw [List.mem_range'_1] at he
            obtain ⟨spec, hw, hsub⟩ := runnable_iff.mp hr
            have hspec := hnew e spec hw he.1
            rw [List.append_assoc, List.getElem?_append_left (by omega)] at hspec
            rw [ownInvocations_type (hown ▸ List.mem_of_getElem? hspec)] at hsub
            cases hsub
          · rw [hold e ((hl.exit _ hshape).2 e he).1, h.exit _ hshape e he] at hr
            cases hr
        · exact he

lemma Tidy.step (h : s.Tidy) (hl : s.Line) (ha : s.Accounts) {a : EventEngineStep}
    (hg : LeavesNoneWaiting s a) (hst : eventEngineStep s a = some s') : s'.Tidy := by
  cases a with
  | handleEvent event =>
      cases hst
      rcases handleEvent_cases ha event with
        heq | ⟨st, target, hcur, htarget, s'', hc, -, heq | ⟨first, -, heq⟩⟩
      · rwa [heq]
      · rw [heq]
        exact h.change hl hcur htarget hc hg
      · rw [heq]
        exact (h.change hl hcur htarget hc hg).executeFirst first
  | processNextInvocation =>
      cases hst
      exact h.processNextInvocation
  | effectCompletion v paused =>
      cases hst
      exact h.effectCompletion v paused hl hg
  | handleEffectCompletion v =>
      cases hst
      exact h.handleEffectCompletion v
  | effectReturns =>
      simp only [eventEngineStep] at hst
      split at hst
      case h_2 => cases hst
      case h_1 v frames hframes =>
          cases hst
          exact Tidy.transitionFree
            (h.congr rfl rfl (List.Subset.refl _) fun _ hr => hr)

/-! ## References -/

lemma Accounts.noneDangling (h : s.Accounts) (hl : s.Line) : s.NoneDangling where
  states t ht := h.kept.state_live (List.mem_append_left _ ht)
  arrays e he := by
    obtain ⟨x, hx, hpos, hvalue⟩ := h.kept.entry_live (List.mem_append_left _ he)
    obtain ⟨i, hi, hipos⟩ := h.kept.invocation_live (List.mem_append_left _ he)
    exact ⟨x, i, hx, hpos, hvalue ▸ hi, hipos⟩
  effects v hv := by
    have hqueued := hl.effects v hv
    have hlt := hl.bound v hqueued
    rw [EeHeap.length_works] at hlt
    have hentry : v < s.heap.entries.length := h.kept.size ▸ hlt
    have htally := h.kept.tally v _ _ (List.getElem?_eq_getElem hlt)
      (List.getElem?_eq_getElem hentry)
    have hcount := List.count_pos_iff.mpr hqueued
    rw [List.count_append] at htally
    refine ⟨_, List.getElem?_eq_getElem hlt, ?_⟩
    split at htally <;> omega

lemma Line.orderly (h : s.Line) (ha : s.Accounts) : s.Orderly where
  ordered := h.ordered
  completed := ⟨h.completedOnce, h.left⟩
  noneDangling := ha.noneDangling h

/-- A state that has been left, or is current, keeps a reference which nobody holds. -/
lemma Accounts.changes_of_balanced (h : s.Accounts) (hb : s.Balanced) : s.changes = 0 := by
  have hlength := (hb.states.perm_of_exactCounts h.kept.statesExact).length_eq
  rw [List.length_append, List.length_range'] at hlength
  omega

@[simp] lemma changes_invocationExec (v : Nat) : (s.invocationExec v).changes = s.changes := by
  unfold EventEngine.invocationExec
  split
  · rfl
  · split <;> rfl

@[simp] lemma changes_processNextInvocation : s.processNextInvocation.changes = s.changes := by
  unfold EventEngine.processNextInvocation
  split
  · rfl
  · exact changes_invocationExec _

@[simp] lemma changes_transitionFree : s.transitionFree.changes = s.changes := by
  unfold EventEngine.transitionFree
  split <;> rfl

@[simp] lemma changes_executeFirst (first : Nat) :
    (s.executeFirst first).changes = s.changes := by
  unfold EventEngine.executeFirst
  dsimp only
  split <;> simp

@[simp] lemma changes_handleEffectCompletion (v : Nat) :
    (s.handleEffectCompletion v).changes = s.changes := by
  unfold EventEngine.handleEffectCompletion
  split
  · rfl
  · split <;> rfl

@[simp] lemma changes_effectCompletion (v : Nat) (paused : Bool) :
    (s.effectCompletion v paused).changes = s.changes := by
  unfold EventEngine.effectCompletion
  split
  · rfl
  · split
    · split
      · rfl
      · simp
    · rfl

/-- Until the state changes nothing happens. -/
lemma init_step (ha : s.Accounts) (h : s.changes = 0 → s = init) {a : EventEngineStep}
    (hst : eventEngineStep s a = some s') (hno : s'.changes = 0) : s' = init := by
  cases a with
  | handleEvent event =>
      cases hst
      rcases handleEvent_cases ha event with
        heq | ⟨st, target, -, -, s'', hc, -, heq | ⟨first, -, heq⟩⟩
      · rw [heq] at hno ⊢
        exact h hno
      · rw [heq, hc.changes] at hno
        cases hno
      · rw [heq, changes_executeFirst, hc.changes] at hno
        cases hno
  | processNextInvocation =>
      cases hst
      rw [changes_processNextInvocation] at hno
      rw [h hno]
      rfl
  | effectCompletion v paused =>
      cases hst
      rw [changes_effectCompletion] at hno
      rw [h hno]
      rfl
  | handleEffectCompletion v =>
      cases hst
      rw [changes_handleEffectCompletion] at hno
      rw [h hno]
      rfl
  | effectReturns =>
      simp only [eventEngineStep] at hst
      split at hst
      case h_2 => cases hst
      case h_1 v frames hframes =>
          cases hst
          rw [changes_transitionFree] at hno
          rw [h hno] at hframes
          cases hframes

lemma sound_init : init.Sound where
  orderly := line_init.orderly accounts_init
  noneStale e he := by simp [init] at he
  balanced := ⟨by simpa [init] using accounts_init.kept.statesExact, ExactCounts.nil⟩

/-- Without an event that asks for a subscription nothing happens. -/
lemma init_of_noneSubscribes (hr : eventEngine.Reachable NoneSubscribes s) : s = init := by
  refine hr.invariant (P := fun s => s = init) rfl ?_
  rintro s a s' rfl hg hst
  cases a with
  | handleEvent event =>
      cases hst
      have hstay : (EeState.transition .unsubscribed event).target = none := by
        obtain ⟨type, data⟩ := event
        cases type with
        | subscriptionChanged => cases hg
        | subscriptionRestored => cases hg
        | _ => rfl
      have hcur : init.current = some ⟨.unsubscribed, 1, [], []⟩ := rfl
      unfold handleEvent
      simp only [hcur, hstay]
  | effectReturns => cases hst
  | _ =>
      cases hst
      rfl

end EventEngine

open EventEngine

lemma accounts_and_line {G : EventEngine → EventEngineStep → Prop} {s : EventEngine}
    (hr : eventEngine.Reachable G s) : s.Accounts ∧ s.Line :=
  hr.invariant (P := fun s => s.Accounts ∧ s.Line) ⟨accounts_init, line_init⟩
    fun _ _ _ h _ hst => ⟨h.1.step hst, h.2.step h.1 hst⟩

/-- **What holds of the event engine's objects.**  Order, completion and freed memory are always
    respected.  The counters are balanced only as long as nobody subscribes, and no subscribe gets
    stale in the runs in which none waits when its state is left. -/
theorem event_engine_sound (s : EventEngine) (hr : eventEngine.Reachable Machine.anyStep s) :
    s.Orderly ∧ (s.Sound ↔ eventEngine.Reachable NoneSubscribes s) ∧
      (eventEngine.Reachable LeavesNoneWaiting s → s.NoneStale) := by
  obtain ⟨ha, hl⟩ := accounts_and_line hr
  refine ⟨hl.orderly ha, ⟨fun hs => ?_, fun hnone => ?_⟩, fun hclear => ?_⟩
  · have hinit : s.changes = 0 → s = init :=
      hr.invariant_of (Q := fun s => s.Accounts) (P := fun s => s.changes = 0 → s = init)
        (fun _ hr => (accounts_and_line hr).1) (fun _ => rfl)
        fun _ _ _ ha h _ hst => init_step ha h hst
    rw [hinit (ha.changes_of_balanced hs.balanced)]
    exact .init
  · rw [init_of_noneSubscribes hnone]
    exact sound_init
  · have htidy : s.Tidy := by
      refine hclear.invariant_of (Q := fun s => s.Accounts ∧ s.Line) (P := Tidy)
        (fun _ hr => accounts_and_line hr) tidy_init ?_
      intro _ _ _ hq h hg hst
      exact h.step hq.2 hq.1 hg hst
    intro e he hr'
    have hcur : ∃ shape, s.heap.shapes[s.currentState]? = some shape := by
      obtain ⟨st, hst, -⟩ := (ha.noneDangling hl).states s.currentState List.mem_cons_self
      exact ⟨_, EeHeap.shapes_of_state hst⟩
    obtain ⟨shape, hshape⟩ := hcur
    exact ofCurrent_iff.mpr ⟨shape, hshape, htidy.noneStale e he hr' shape hshape⟩

/-! ## Two runs -/

/-- What a user subscribes to. -/
def aChannelContext : Context where
  channels := some (ascii "a")
  channelGroups := none
  cursor := .zero
  reason := .ok
  sendHeartbeat := true

/-- A channel is subscribed to; the handshake pauses for a heartbeat, is made, succeeds, and the
    messages of the next request are received. -/
def subscribedRun : List EventEngineStep :=
  [.handleEvent ⟨.subscriptionChanged, aChannelContext⟩, .effectCompletion 0 true, .effectReturns,
    .processNextInvocation, .effectCompletion 0 false, .effectReturns,
    .handleEvent ⟨.handshakeSuccess, aChannelContext⟩, .effectCompletion 2 false, .effectReturns]

theorem event_engine_sound_subscribed : ∃ s : EventEngine, s.executed = [0, 0, 2] ∧ s.Orderly ∧
    s.NoneStale := by
  obtain ⟨s, hr, hs⟩ := eventEngine.exists_reachable_of_replay (G := LeavesNoneWaiting)
    (fun s a => decide (LeavesNoneWaiting s a)) subscribedRun
    (fun s => s.executed == [0, 0, 2]) (fun _ _ => of_decide_eq_true) (by decide +kernel)
  obtain ⟨horderly, -, hstale⟩ := event_engine_sound s (hr.mono fun _ _ _ => trivial)
  exact ⟨s, by simpa using hs, horderly, hstale hr⟩

/-- **A subscribe outlives its state, and no state is freed.**  While the handshake waits for a
    heartbeat the user disconnects: it can still run in the state in which nothing is to be
    requested. -/
theorem event_engine_not_always_sound : ∃ s, eventEngine.Reachable Machine.anyStep s ∧
    (s.current.any fun st => st.state == .handshakeStopped aChannelContext) = true ∧
    ¬ s.NoneStale ∧ ¬ s.Balanced := by
  obtain ⟨s, hr, hs⟩ := eventEngine.exists_reachable_of_replay (G := Machine.anyStep)
    (fun _ _ => true)
    [.handleEvent ⟨.subscriptionChanged, aChannelContext⟩, .effectCompletion 0 true, .effectReturns,
      .handleEvent ⟨.disconnect, aChannelContext⟩]
    (fun s => (s.current.any fun st => st.state == .handshakeStopped aChannelContext) &&
      !decide (∀ e ∈ s.invocations, s.runnableSubscribe e = true → s.ofCurrent e = true) &&
      s.changes == 2) (fun _ _ _ => trivial) (by decide +kernel)
  simp only [Bool.and_eq_true, Bool.not_eq_true', decide_eq_false_iff_not, beq_iff_eq] at hs
  obtain ⟨⟨hstopped, hstale⟩, hchanges⟩ := hs
  refine ⟨s, hr, hstopped, hstale, fun hb => ?_⟩
  have hno := (accounts_and_line hr).1.changes_of_balanced hb
  omega

end PubNub
