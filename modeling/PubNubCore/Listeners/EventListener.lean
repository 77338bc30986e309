import PubNubCore.Lib.Heap
import PubNubCore.Lib.Machine
import PubNubCore.Subscribables.Registry

/-!
# Listeners for real-time updates

`core/pbcc_subscribe_event_listener.c`, as it is called from `core/pubnub_subscribe_event_listener.c`.
A listener is registered with the whole context or with the names of a subscription object.  There
is one list of listeners for the context and one for each name, and an object that stands in several
of them is shared by a reference count.

A function is `none` where its behaviour is undefined: a listener that has been freed is used, or a
pointer that is `NULL`, or a name is freed while it is still a key.  Which allocations fail is an
argument of every call.  Listeners for the status of a subscription are left out.

What the user may expect to be registered, `Registrations`, is kept beside the lists.  No function
looks at it.
-/

namespace PubNub

/-! ## Listeners and their memory -/

/-- `pubnub_subscribe_listener_type`. -/
inductive PubnubSubscribeListenerType
  | onMessage | onSignal | onMessageAction | onObjects | onFiles
  deriving DecidableEq, Repr

/-- `pbcc_message_type_to_listener_type_`. -/
def pbccMessageTypeToListenerType : PubnubMessageType → PubnubSubscribeListenerType
  | .published => .onMessage
  | .signal => .onSignal
  | .action => .onMessageAction
  | .objects => .onObjects
  | .files => .onFiles

/-- What a listener is recognised by.  One that is registered with the context has no subscription
    object. -/
structure Registration where
  type : PubnubSubscribeListenerType
  subscriptionObject : Option Nat
  callback : Nat
  userData : Nat
  deriving DecidableEq, Repr

/-- `pbcc_listener_t`; its counter may be missing. -/
structure PbccListener extends Registration where
  counter : Option Nat
  deriving DecidableEq, Repr

/-- Which of the allocations of `pbcc_listener_alloc_` fails. -/
inductive ListenerAllocation
  | enough | noListener | noCounter
  deriving DecidableEq, Repr

/-- `pbcc_listener_alloc_`: the memory and the new listener, `none` for `NULL`. -/
def pbccListenerAlloc (objects : Heap PbccListener) (registration : Registration) :
    ListenerAllocation → Option (Heap PbccListener × Nat)
  | .enough => some (objects.alloc ⟨registration, some 1⟩, objects.length)
  | .noListener => none
  | .noCounter => some (objects.alloc ⟨registration, none⟩, objects.length)

/-- `pbref_counter_increment(listener->counter)`. -/
def PbccListener.pbrefCounterIncrement (objects : Heap PbccListener) (l : Nat) :
    Option (Heap PbccListener) := do
  let listener ← objects.read l
  let count ← listener.counter
  some (objects.write l (some { listener with counter := some (count + 1) }))

/-- `pbref_counter_decrement(listener->counter)`. -/
def PbccListener.pbrefCounterDecrement (objects : Heap PbccListener) (l : Nat) :
    Option (Heap PbccListener) := do
  let listener ← objects.read l
  let count ← listener.counter
  some (objects.write l (some { listener with counter := some (count - 1) }))

/-- `pbcc_listener_free_`.  `pbref_counter_free` returns 0 for a counter that is `NULL` or 0. -/
def pbccListenerFree (objects : Heap PbccListener) (l : Nat) : Option (Heap PbccListener) := do
  let listener ← objects.read l
  match listener.counter with
  | none => some (objects.write l none)
  | some count =>
      if count - 1 = 0 then some (objects.write l none)
      else some (objects.write l (some { listener with counter := some (count - 1) }))

/-! ## Lists of listeners -/

/-- `pbcc_initialize_array_`. -/
def pbccInitializeArray (array : Option (List Nat)) (enough : Bool) : Option (List Nat) :=
  match array with
  | some listeners => some listeners
  | none => if enough then some [] else none

/-- `pbcc_add_listener_`; `entry` is whether there is memory for one more entry. -/
def pbccAddListener (objects : Heap PbccListener) (listeners : List Nat) (l : Nat) (entry : Bool) :
    Option (Heap PbccListener × List Nat × PubnubRes) :=
  if entry then
    (PbccListener.pbrefCounterIncrement objects l).map fun objects => (objects, listeners ++ [l], .ok)
  else some (objects, listeners, .outOfMemory)

/-- `pbarray_remove` of all occurrences of a listener, each of which is freed. -/
def pbarrayRemove (objects : Heap PbccListener) (listeners : List Nat) (l : Nat) :
    Option (Heap PbccListener × List Nat) :=
  ((List.replicate (listeners.count l) l).foldlM pbccListenerFree objects).map fun objects =>
    (objects, listeners.filter (· ≠ l))

/-- The loop of `pbcc_remove_listener_` from index `i` on. -/
def pbccRemoveListenerLoop (listener : Nat) :
    Nat → Nat → Heap PbccListener → List Nat → Option (Heap PbccListener × List Nat)
  | 0, _, _, _ => none
  | fuel + 1, i, objects, listeners =>
      match listeners[i]? with
      | none => some (objects, listeners)
      | some l => do
          let here ← objects.read l
          let wanted ← objects.read listener
          if here.toRegistration = wanted.toRegistration then do
            let objects ← PbccListener.pbrefCounterDecrement objects l
            let (objects, listeners) ← pbarrayRemove objects listeners l
            pbccRemoveListenerLoop listener fuel i objects listeners
          else pbccRemoveListenerLoop listener fuel (i + 1) objects listeners

/-- `pbcc_remove_listener_`.  In every round an entry is passed or removed. -/
def pbccRemoveListener (objects : Heap PbccListener) (listeners : List Nat) (listener : Nat) :
    Option (Heap PbccListener × List Nat) :=
  pbccRemoveListenerLoop listener (listeners.length + 1) 0 objects listeners

/-- The calls of `pbcc_event_listener_emit_message_`. -/
def pbccEmitMessage (objects : Heap PbccListener) (type : PubnubSubscribeListenerType) :
    List Nat → Option (List Registration)
  | [] => some []
  | l :: listeners => do
      let listener ← objects.read l
      let called ← pbccEmitMessage objects type listeners
      if listener.subscriptionObject = none ∨ listener.type = type then
        some (listener.toRegistration :: called)
      else some called

/-! ## The event listener -/

/-- `struct pbcc_event_listener`, and the listeners that have been allocated. -/
structure PbccEventListener where
  objects : Heap PbccListener
  globalEvents : Option (List Nat)
  listeners : Option (PbhashSet (List Nat))

/-- `LISTENERS_LENGTH`. -/
def listenersLength : Nat := 10

/-- Which allocations a registration with the context finds memory for: the list, the listener, the
    entry of the list. -/
structure GlobalAllocation where
  array : Bool := true
  listener : ListenerAllocation := .enough
  entry : Bool := true
  deriving DecidableEq, Repr

/-- Which of the allocations for one name fails: the object listener, its array, the node of the
    hash set, the entry of the array. -/
inductive NameAllocation
  | enough | noObjectListener | noArray | noHashNode | noEntry
  deriving DecidableEq, Repr

/-- Which allocations a registration with names finds memory for. -/
structure ScopedAllocation where
  set : Bool := true
  listener : ListenerAllocation := .enough
  name : Bytes → NameAllocation := fun _ => .enough

/-- How far a registration with names has come: its result, whether some name has it, and whether a
    name has been handed over to the hash set, or freed by it. -/
structure AddProgress where
  eventListener : PbccEventListener
  rslt : PubnubRes
  added : Bool
  taken : Bool

namespace PbccEventListener

variable (s : PbccEventListener)

/-- `pbcc_event_listener_alloc`. -/
def alloc : PbccEventListener := ⟨[], none, none⟩

/-- `pbcc_event_listener_add_message_listener`. -/
def addMessageListener (type : PubnubSubscribeListenerType) (cb : Option Nat) (userData : Nat)
    (memory : GlobalAllocation) : Option (PbccEventListener × PubnubRes) :=
  match cb with
  | none => some (s, .invalidParameters)
  | some cb =>
      match pbccInitializeArray s.globalEvents memory.array with
      | none => some (s, .outOfMemory)
      | some events =>
          match pbccListenerAlloc s.objects ⟨type, none, cb, userData⟩ memory.listener with
          | none => some ({ s with globalEvents := some events }, .outOfMemory)
          | some (objects, l) => do
              let (objects, events, rslt) ← pbccAddListener objects events l memory.entry
              let objects ← if rslt = .ok then some objects else pbccListenerFree objects l
              some ({ s with objects := objects, globalEvents := some events }, rslt)

/-- `pbcc_event_listener_remove_message_listener`. -/
def removeMessageListener (type : PubnubSubscribeListenerType) (cb : Option Nat) (userData : Nat)
    (memory : ListenerAllocation) : Option (PbccEventListener × PubnubRes) :=
  match cb, s.globalEvents with
  | none, _ => some (s, .invalidParameters)
  | some _, none => some (s, .ok)
  | some cb, some events =>
      match pbccListenerAlloc s.objects ⟨type, none, cb, userData⟩ memory with
      | none => some (s, .outOfMemory)
      | some (objects, l) => do
          let (objects, events) ← pbccRemoveListener objects events l
          let objects ← pbccListenerFree objects l
          some ({ s with objects := objects, globalEvents := some events }, .ok)

/-- `pbcc_add_object_listener_`.  The last component is whether the name is the key of the hash set
    now, or has been freed with the object listener. -/
def addObjectListener (name : Bytes) (l : Nat) (memory : NameAllocation) :
    Option (PbccEventListener × PubnubRes × Bool) := do
  let set ← s.listeners
  match set.find? name with
  | some listeners => do
      let (objects, listeners, rslt) ←
        pbccAddListener s.objects listeners l (decide (memory ≠ .noEntry))
      some ({ s with objects := objects, listeners := some (set.replace name listeners) },
        rslt, false)
  | none =>
      match memory with
      | .noObjectListener => some (s, .outOfMemory, false)
      | .noHashNode => some (s, .outOfMemory, true)
      -- `pbarray_add` is called with a list that is `NULL`
      | .noArray => none
      | _ => do
          let (objects, listeners, rslt) ←
            pbccAddListener s.objects [] l (decide (memory ≠ .noEntry))
          some ({ s with objects := objects, listeners := some (set.insertNew name listeners) },
            rslt, true)

/-- `pbcc_remove_object_listener_`. -/
def removeObjectListener (name : Bytes) (l : Nat) : Option PbccEventListener := do
  let set ← s.listeners
  match set.find? name with
  | none => some s
  | some listeners => do
      let (objects, listeners) ← pbccRemoveListener s.objects listeners l
      some { s with
        objects := objects
        listeners := some (if listeners = [] then set.erase name else set.replace name listeners) }

/-- The first loop of `pbcc_event_listener_add_subscription_object_listener`. -/
def addToNames (l : Nat) (memory : Bytes → NameAllocation) :
    List Bytes → AddProgress → Option AddProgress
  | [], progress => some progress
  | name :: names, progress => do
      let (s, rslt, taken) ← progress.eventListener.addObjectListener name l (memory name)
      if rslt = .ok then addToNames l memory names ⟨s, .ok, true, progress.taken || taken⟩
      else some ⟨s, rslt, progress.added, progress.taken || taken⟩

/-- The loop of `pbcc_event_listener_remove_subscription_object_listener`, and the second one of
    `pbcc_event_listener_add_subscription_object_listener`. -/
def removeFromNames (l : Nat) : List Bytes → PbccEventListener → Option PbccEventListener
  | [], s => some s
  | name :: names, s => (s.removeObjectListener name l).bind (removeFromNames l names)

/-- The hash set, which is allocated when it is needed first. -/
def initializeListeners (enough : Bool) : Option (PbhashSet (List Nat)) :=
  match s.listeners with
  | some set => some set
  | none => if enough then some (pbhashSetAlloc (List Nat) listenersLength) else none

/-- `pbcc_event_listener_add_subscription_object_listener`.  The last component is whether one of the
    names has been handed over or freed. -/
def addSubscriptionObjectListener (type : PubnubSubscribeListenerType) (names : List Bytes)
    (subscription : Nat) (cb : Option Nat) (userData : Nat) (memory : ScopedAllocation) :
    Option (PbccEventListener × PubnubRes × Bool) :=
  match cb with
  | none => some (s, .invalidParameters, false)
  | some cb =>
      match s.initializeListeners memory.set with
      | none => some (s, .outOfMemory, false)
      | some set =>
          match pbccListenerAlloc s.objects ⟨type, some subscription, cb, userData⟩
              memory.listener with
          | none => some ({ s with listeners := some set }, .outOfMemory, false)
          | some (objects, l) => do
              let progress ← addToNames l memory.name names
                ⟨{ s with objects := objects, listeners := some set }, .ok, false, false⟩
              -- what has been added is removed again, and all that is equal to it
              let s ← if progress.added = true ∧ progress.rslt ≠ .ok then
                  removeFromNames l names progress.eventListener
                else some progress.eventListener
              let objects ← if progress.rslt ≠ .ok ∧ progress.added = false then
                  pbccListenerFree s.objects l
                else some s.objects
              some ({ s with objects := objects }, progress.rslt, progress.taken)

/-- `pbcc_event_listener_remove_subscription_object_listener`. -/
def removeSubscriptionObjectListener (type : PubnubSubscribeListenerType) (names : List Bytes)
    (subscription : Nat) (cb : Option Nat) (userData : Nat) (memory : ListenerAllocation) :
    Option (PbccEventListener × PubnubRes) :=
  match cb, s.listeners with
  | none, _ => some (s, .invalidParameters)
  | some _, none => some (s, .ok)
  | some cb, some _ =>
      match pbccListenerAlloc s.objects ⟨type, some subscription, cb, userData⟩ memory with
      | none => some (s, .outOfMemory)
      | some (objects, l) => do
          let s ← removeFromNames l names { s with objects := objects }
          let objects ← pbccListenerFree s.objects l
          some ({ s with objects := objects }, .ok)

/-- `pubnub_subscribe_manage_listener_` with `add` set.  When the registration has failed it frees
    the names, those included which have been handed over or freed. -/
def manageListenerAdd (type : PubnubSubscribeListenerType) (names : List Bytes)
    (subscription : Nat) (cb : Option Nat) (userData : Nat) (memory : ScopedAllocation) :
    Option (PbccEventListener × PubnubRes) := do
  let (s, rslt, taken) ←
    s.addSubscriptionObjectListener type names subscription cb userData memory
  if rslt ≠ .ok ∧ taken = true then none else some (s, rslt)

/-- The calls of `pbcc_event_listener_emit_message`.  The hash set is looked into without a check. -/
def emitMessage (subscribable : Bytes) (message : PubnubV2Message) :
    Option (List Registration) := do
  let type := pbccMessageTypeToListenerType message.messageType
  let calls ← pbccEmitMessage s.objects type (s.globalEvents.getD [])
  let set ← s.listeners
  let more ← pbccEmitMessage s.objects type ((set.find? subscribable).getD [])
  some (calls ++ more)

end PbccEventListener

/-! ## What is registered -/

/-- The listeners that are registered with the context (`none`) and with each name, oldest first. -/
abbrev Registrations := Option Bytes → List Registration

namespace Registrations

variable (R : Registrations) (places : List (Option Bytes)) (r : Registration)

/-- A listener is registered at places. -/
def add : Registrations := fun place => if place ∈ places then R place ++ [r] else R place

/-- All equal listeners are removed from places. -/
def remove : Registrations := fun place =>
  if place ∈ places then (R place).filter (· ≠ r) else R place

/-- The listeners that match a message for a subscribable. -/
def matching (subscribable : Bytes) (message : PubnubV2Message) : List Registration :=
  (R none ++ R (some subscribable)).filter
    fun r => r.type = pbccMessageTypeToListenerType message.messageType

end Registrations

/-! ## Runs -/

/-- The names of the subscribables of a subscription object: none of them twice, since they are
    taken from a hash set. -/
structure SubscribableNames where
  names : List Bytes
  nodup : names.Nodup

/-- The calls on an event listener, with the failures of their allocations. -/
inductive ListenerCall
  | addMessageListener (type : PubnubSubscribeListenerType) (cb : Option Nat) (userData : Nat)
      (memory : GlobalAllocation)
  | removeMessageListener (type : PubnubSubscribeListenerType) (cb : Option Nat) (userData : Nat)
      (memory : ListenerAllocation)
  | addSubscriptionListener (type : PubnubSubscribeListenerType) (names : SubscribableNames)
      (subscription : Nat) (cb : Option Nat) (userData : Nat) (memory : ScopedAllocation)
  | removeSubscriptionListener (type : PubnubSubscribeListenerType) (names : SubscribableNames)
      (subscription : Nat) (cb : Option Nat) (userData : Nat) (memory : ListenerAllocation)
  | emitMessage (subscribable : Bytes) (message : PubnubV2Message)

/-- An event listener, and what the user may expect to be registered. -/
structure ListenerRun where
  eventListener : PbccEventListener
  registered : Registrations

/-- A call that changes the registrations if it returns `PNR_OK`. -/
def ListenerRun.after (s : ListenerRun) (registered : Registrations) :
    PbccEventListener × PubnubRes → ListenerRun
  | (eventListener, rslt) => ⟨eventListener, if rslt = .ok then registered else s.registered⟩

/-- One call; `none` if its behaviour is undefined. -/
def listenerStep (s : ListenerRun) : ListenerCall → Option ListenerRun
  | .addMessageListener type cb userData memory =>
      (s.eventListener.addMessageListener type cb userData memory).map
        (s.after (s.registered.add [none] ⟨type, none, cb.getD 0, userData⟩))
  | .removeMessageListener type cb userData memory =>
      (s.eventListener.removeMessageListener type cb userData memory).map
        (s.after (s.registered.remove [none] ⟨type, none, cb.getD 0, userData⟩))
  | .addSubscriptionListener type names subscription cb userData memory =>
      (s.eventListener.manageListenerAdd type names.names subscription cb userData memory).map
        (s.after (s.registered.add (names.names.map some)
          ⟨type, some subscription, cb.getD 0, userData⟩))
  | .removeSubscriptionListener type names subscription cb userData memory =>
      (s.eventListener.removeSubscriptionObjectListener type names.names subscription cb userData
        memory).map
        (s.after (s.registered.remove (names.names.map some)
          ⟨type, some subscription, cb.getD 0, userData⟩))
  | .emitMessage subscribable message =>
      (s.eventListener.emitMessage subscribable message).map fun _ => s

/-- An event listener with the calls on it. -/
def eventListener : Machine ListenerRun ListenerCall where
  init := ⟨.alloc, fun _ => []⟩
  step := listenerStep

end PubNub
