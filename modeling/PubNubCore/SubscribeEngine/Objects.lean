import PubNubCore.Lib.RefCount
import PubNubCore.SubscribeEngine.States

/-!
# The objects of the event engine

`core/pbcc_event_engine.c` with its reference counters: the states, the invocations, and the
entries of `lib/pbarray.c`.  An array does not hold an invocation but an entry, and arrays that are
merged share the entry; its counter says how many arrays hold it, and with the last one the
invocation loses one reference.  A transition is not shared: it belongs to the call of
`pbcc_ee_handle_event` which has made it, and is freed at its end.

Objects are numbered in the order of their allocation.  Every invocation has one entry, allocated
with it, and with its number.
-/

namespace PubNub

/-- `pbcc_ee_invocation_status`. -/
inductive ExecutionStatus
  | created | running | completed
  deriving DecidableEq, Repr

/-- `struct pbcc_ee_invocation`. -/
structure InvocationObject where
  spec : InvocationSpec
  status : ExecutionStatus
  counter : Nat

/-- `pbarray_entry_t`. -/
structure PbarrayEntry where
  counter : Nat
  value : Nat

/-- `struct pbcc_ee_state`; the arrays are those of its entries. -/
structure StateObject where
  state : EeState
  counter : Nat
  onEnterInvocations : List Nat
  onExitInvocations : List Nat

/-- The objects that have been allocated. -/
structure EeHeap where
  states : List StateObject
  entries : List PbarrayEntry
  invocations : List InvocationObject

namespace EeHeap

variable (h : EeHeap)

/-! ## Arrays -/

/-- `pbcc_ee_invocation_free`. -/
def invocationFree (v : Nat) : EeHeap :=
  { h with invocations := h.invocations.modify v fun i => { i with counter := i.counter - 1 } }

/-- `pbarray_entry_free_`: with the last array that holds it, the value of the entry is freed. -/
def entryFree (e : Nat) : EeHeap :=
  let freed : EeHeap :=
    { h with entries := h.entries.modify e fun x => { x with counter := x.counter - 1 } }
  match h.entries[e]? with
  | some x => if x.counter - 1 = 0 then freed.invocationFree x.value else freed
  | none => freed

/-- `pbarray_free`. -/
def arrayFree (array : List Nat) : EeHeap := array.foldl entryFree h

/-- `pbarray_merge`: the entries are shared. -/
def merge (array : List Nat) : EeHeap :=
  array.foldl (fun h e =>
    { h with entries := h.entries.modify e fun x => { x with counter := x.counter + 1 } }) h

/-- The loop that follows a merge, with `pbref_counter_increment` for every invocation. -/
def incrementInvocations (array : List Nat) : EeHeap :=
  array.foldl (fun h e =>
    { h with invocations := h.invocations.modify e fun i => { i with counter := i.counter + 1 } }) h

/-- `pbcc_ee_transition_add_invocations_`. -/
def addInvocations (array : List Nat) : EeHeap := (h.merge array).incrementInvocations array

/-- `pbcc_ee_invocation_alloc`, and `pbarray_add` to an array. -/
def invocationAlloc (spec : InvocationSpec) : EeHeap :=
  { h with
    entries := h.entries ++ [⟨1, h.invocations.length⟩]
    invocations := h.invocations ++ [⟨spec, .created, 1⟩] }

/-- An array of new invocations. -/
def arrayAlloc (specs : List InvocationSpec) : EeHeap × List Nat :=
  (specs.foldl invocationAlloc h, List.range' h.entries.length specs.length)

/-- The status of an invocation changes. -/
def setStatus (v : Nat) (status : ExecutionStatus) : EeHeap :=
  { h with invocations := h.invocations.modify v fun i => { i with status := status } }

/-! ## States -/

/-- `pbcc_ee_state_copy_`. -/
def stateCopy (i : Nat) : EeHeap :=
  { h with states := h.states.modify i fun s => { s with counter := s.counter + 1 } }

/-- `pbcc_ee_state_free`. -/
def stateFree (i : Nat) : EeHeap :=
  let freed : EeHeap :=
    { h with states := h.states.modify i fun s => { s with counter := s.counter - 1 } }
  match h.states[i]? with
  | some s =>
      if s.counter - 1 = 0 then
        (freed.arrayFree s.onEnterInvocations).arrayFree s.onExitInvocations
      else freed
  | none => freed

end EeHeap

/-- A call that goes on when the calls above it have returned: an effect, or
    `pbcc_ee_handle_event`, which then frees its transition. -/
inductive EeFrame
  | effect (v : Nat)
  | transition (targetState : Nat) (invocations : List Nat)
  deriving DecidableEq, Repr

/-- `struct pbcc_event_engine`, and what has happened to it: the entries in the order in which they
    were queued, the executions of invocations that are not immediate, the invocations which have
    completed, newest first, and how often the current state has been set. -/
structure EventEngine where
  heap : EeHeap
  currentState : Nat
  invocations : List Nat
  frames : List EeFrame
  queued : List Nat
  executed : List Nat
  completed : List Nat
  changes : Nat

/-- The type of which a `.._state_alloc` function cancels an invocation. -/
def EeState.cancels : EeState → Option InvocationType
  | .handshaking _ => some .handshake
  | .receiving _ => some .receive
  | _ => none

namespace EventEngine

variable (s : EventEngine)

/-- `pbcc_ee_alloc` with `pbcc_unsubscribed_state_alloc`. -/
def init : EventEngine where
  heap := ⟨[⟨.unsubscribed, 1, [], []⟩], [], []⟩
  currentState := 0
  invocations := []
  frames := []
  queued := []
  executed := []
  completed := []
  changes := 0

/-- The object of the current state. -/
def current : Option StateObject := s.heap.states[s.currentState]?

/-! ## Executing invocations -/

/-- `pbcc_ee_invocation_exec_`, up to where the effect begins. -/
def invocationExec (v : Nat) : EventEngine :=
  match s.heap.invocations[v]? with
  | none => s
  | some i =>
      if i.status = .created then
        { s with
          heap := s.heap.setStatus v .running
          frames := .effect v :: s.frames
          executed := if i.spec.immediate then s.executed else s.executed ++ [v] }
      else s

/-- `pbcc_ee_process_next_invocation`. -/
def processNextInvocation : EventEngine :=
  match s.invocations with
  | [] => s
  | e :: _ => s.invocationExec e

/-- `pbcc_ee_handle_effect_completion`. -/
def handleEffectCompletion (v : Nat) : EventEngine :=
  match s.heap.invocations[v]? with
  | none => s
  | some i =>
      if i.status = .running then
        { s with
          heap := (s.heap.setStatus v .completed).arrayFree (s.invocations.filter (· = v))
          invocations := s.invocations.filter (· ≠ v)
          completed := v :: s.completed }
      else s

/-- `pbcc_ee_effect_completion_`. -/
def effectCompletion (v : Nat) (paused : Bool) : EventEngine :=
  match s.heap.invocations[v]? with
  | none => s
  | some i =>
      if i.status = .running then
        if paused then { s with heap := s.heap.setStatus v .created }
        else (s.handleEffectCompletion v).processNextInvocation
      else s

/-- `pbcc_ee_transition_free`, which is where `pbcc_ee_handle_event` goes on when an effect has
    returned to it. -/
def transitionFree : EventEngine :=
  match s.frames with
  | .transition t invocations :: frames =>
      { s with heap := (s.heap.stateFree t).arrayFree invocations, frames := frames }
  | _ => s

/-! ## Transitions -/

/-- The first invocation of the type in the queue that is not running. -/
def cancellable (type : InvocationType) : Option Nat :=
  s.invocations.find? fun e =>
    s.heap.invocations[e]?.any fun i => i.status ≠ .running ∧ i.spec.type = type

/-- `pbcc_ee_invocation_cancel_by_type`. -/
def invocationCancelByType (type : InvocationType) : EventEngine :=
  match s.cancellable type with
  | none => s
  | some e => { s with heap := s.heap.entryFree e, invocations := s.invocations.erase e }

/-- The part of a `.._state_alloc` function that comes after the on-enter invocation. -/
def cancelOutdated (target : EeState) : EventEngine :=
  match target.cancels with
  | none => s
  | some type => s.invocationCancelByType type

/-- The `.._state_alloc` functions. -/
def stateAlloc (target : EeState) : EventEngine :=
  let enter := s.heap.arrayAlloc target.onEnter
  let s := { s with heap := enter.1 }.cancelOutdated target
  let exit := s.heap.arrayAlloc target.onExit
  { s with heap := { exit.1 with states := exit.1.states ++ [⟨target, 1, enter.2, exit.2⟩] } }

/-- `pbcc_transition_alloc_` with `pbcc_ee_transition_alloc`: the engine, and the invocations of
    the transition. -/
def transitionAlloc (target : EeState) (own : List Nat) : EventEngine × List Nat :=
  let t := s.heap.states.length
  let exit := s.current.elim [] (·.onExitInvocations)
  let s := s.stateAlloc target
  let enter := s.heap.states[t]?.elim [] (·.onEnterInvocations)
  let heap := s.heap.stateCopy t
  let heap := ((heap.addInvocations own).addInvocations exit).addInvocations enter
  ({ s with heap := heap.arrayFree own }, own ++ exit ++ enter)

/-- `pbcc_ee_current_state_set_`. -/
def currentStateSet (t : Nat) : EventEngine :=
  { s with
    heap := (s.heap.stateFree s.currentState).stateCopy t
    currentState := t
    changes := s.changes + 1 }

/-- The merge of the transition's invocations into the queue. -/
def enqueue (invocations : List Nat) : EventEngine :=
  { s with
    heap := s.heap.merge invocations
    invocations := s.invocations ++ invocations
    queued := s.queued ++ invocations }

/-- The end of `pbcc_ee_handle_event`: the first invocation of the transition if it is immediate,
    otherwise the first one in the queue. -/
def executeFirst (first : Nat) : EventEngine :=
  let immediate := s.heap.invocations[first]?.any (·.spec.immediate)
  (if immediate then s.invocationExec first else s.processNextInvocation).transitionFree

/-- What `pbcc_ee_handle_event` does with a transition to the state `t`. -/
def carryOut (t : Nat) (invocations : List Nat) : EventEngine :=
  match invocations with
  | [] =>
      let s := s.currentStateSet t
      { s with heap := s.heap.stateFree t }
  | first :: _ =>
      let s := (s.enqueue invocations).currentStateSet t
      let s := { s with
        heap := s.heap.incrementInvocations invocations
        frames := .transition t invocations :: s.frames }
      s.executeFirst first

/-- The invocation which a transition function adds itself. -/
def ownInvocations (decision : Decision) (event : Event) : List InvocationSpec :=
  (decision.invocation.map fun type => (⟨type, false, event.data⟩ : InvocationSpec)).toList

/-- `pbcc_ee_handle_event`. -/
def handleEvent (event : Event) : EventEngine :=
  match s.current with
  | none => s
  | some st =>
      let decision := st.state.transition event
      match decision.target with
      | none => s
      | some target =>
          let own := s.heap.arrayAlloc (ownInvocations decision event)
          let r := { s with heap := own.1 }.transitionAlloc target own.2
          r.1.carryOut s.heap.states.length r.2

end EventEngine

/-- What can happen: an event, the next invocation or a completion, from outside or from an effect
    that runs; and an effect returns. -/
inductive EventEngineStep
  | handleEvent (event : Event)
  | processNextInvocation
  | effectCompletion (v : Nat) (paused : Bool)
  | handleEffectCompletion (v : Nat)
  | effectReturns

/-- One step. -/
def eventEngineStep (s : EventEngine) : EventEngineStep → Option EventEngine
  | .handleEvent event => some (s.handleEvent event)
  | .processNextInvocation => some s.processNextInvocation
  | .effectCompletion v paused => some (s.effectCompletion v paused)
  | .handleEffectCompletion v => some (s.handleEffectCompletion v)
  | .effectReturns =>
      match s.frames with
      | .effect _ :: frames => some { s with frames := frames }.transitionFree
      | _ => none

end PubNub
