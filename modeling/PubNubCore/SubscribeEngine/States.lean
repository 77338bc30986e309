import PubNubCore.Subscribables.Registry

/-!
# States, events and transitions of the subscribe event engine

The transition table of `pbcc_subscribe_event_engine_transitions.c` with the events of
`.._events.c` and the states of `.._states.c`.  A state other than `unsubscribed` always has a
context, so the context is an argument of its constructor and the `NULL` contexts which the C
code hands to `pbcc_transition_alloc_` for the states without one do not exist here.

A cursor carries a ghost field `source`, the number of the subscribe response from which it was
taken.  No function looks at it; it is what statements about lost messages refer to.
-/

namespace PubNub

/-! ## Cursors and contexts -/

/-- `pubnub_subscribe_cursor_t`, with the response it comes from. -/
structure SubscribeCursor where
  timetoken : Bytes
  region : Int
  source : Option Nat
  deriving DecidableEq, Repr

/-- `pubnub_subscribe_cursor(NULL)`. -/
def SubscribeCursor.zero : SubscribeCursor := ⟨ascii "0", 0, none⟩

/-- A cursor which the user hands over comes from no response of this engine. -/
def SubscribeCursor.fromUser (cursor : SubscribeCursor) : SubscribeCursor :=
  { cursor with source := none }

/-- `pbcc_subscribe_ee_context_t`. -/
structure Context where
  channels : Option Bytes
  channelGroups : Option Bytes
  cursor : SubscribeCursor
  reason : PubnubRes
  sendHeartbeat : Bool
  deriving DecidableEq, Repr

/-- The test `NULL == channels || 0 == strlen(channels)`. -/
def isEmptyList (list : Option Bytes) : Bool := list.getD [] == []

/-- Neither a channel nor a channel group. -/
def Context.noSubscribables (ctx : Context) : Bool :=
  isEmptyList ctx.channels && isEmptyList ctx.channelGroups

/-- `pubnub_subscription_status`. -/
inductive SubscriptionStatus
  | connected | connectionError | disconnectedUnexpectedly | disconnected | subscriptionChanged
  deriving DecidableEq, Repr

/-! ## Events -/

/-- `pbcc_subscribe_ee_event`. -/
inductive EventType
  | subscriptionChanged | subscriptionRestored | handshakeSuccess | handshakeFailure
  | receiveSuccess | receiveFailure | disconnect | reconnect | unsubscribeAll
  deriving DecidableEq, Repr

/-- `pbcc_ee_event_t`. -/
structure Event where
  type : EventType
  data : Context
  deriving DecidableEq, Repr

/-- The events which replace the lists of the current context. -/
def EventType.changesSubscribables : EventType → Bool
  | .subscriptionChanged | .subscriptionRestored => true
  | _ => false

/-- `pbcc_subscribe_ee_context_alloc_`. -/
def contextAlloc (lists : EventLists) : Context where
  channels := lists.channels
  channelGroups := lists.channelGroups
  cursor := .zero
  reason := .ok
  sendHeartbeat := false

/-- `pbcc_subscribe_ee_context_copy_`. -/
def contextCopy (ctx : Option Context) (lists : EventLists) (copySubscribables : Bool) :
    Context :=
  match ctx with
  | none => contextAlloc lists
  | some ctx =>
      { contextAlloc lists with
        channels := if copySubscribables then lists.channels.or ctx.channels else lists.channels
        channelGroups :=
          if copySubscribables then lists.channelGroups.or ctx.channelGroups
          else lists.channelGroups
        cursor := ctx.cursor }

/-- `pbcc_subscribe_ee_event_alloc_`: `ctx` is the context of the engine's current state. -/
def eventAlloc (ctx : Option Context) (type : EventType) (lists : EventLists)
    (cursor : Option SubscribeCursor) (reason : Option PubnubRes) (sentByEe : Bool) : Event :=
  let copySubscribables := !type.changesSubscribables
  let copy := contextCopy ctx lists copySubscribables
  { type := type
    data := { copy with
      sendHeartbeat := !copySubscribables && !sentByEe
      cursor := cursor.getD copy.cursor
      reason := reason.getD copy.reason } }

/-- `pbcc_subscription_changed_event_alloc`. -/
def subscriptionChangedEventAlloc (ctx : Option Context) (lists : EventLists) (sentByEe : Bool) :
    Event :=
  eventAlloc ctx .subscriptionChanged lists none none sentByEe

/-- `pbcc_subscription_restored_event_alloc`. -/
def subscriptionRestoredEventAlloc (ctx : Option Context) (lists : EventLists)
    (cursor : SubscribeCursor) (sentByEe : Bool) : Event :=
  eventAlloc ctx .subscriptionRestored lists (some cursor) none sentByEe

/-- `pbcc_handshake_success_event_alloc`. -/
def handshakeSuccessEventAlloc (ctx : Option Context) (cursor : SubscribeCursor) : Event :=
  eventAlloc ctx .handshakeSuccess ⟨none, none⟩ (some cursor) none true

/-- `pbcc_handshake_failure_event_alloc`. -/
def handshakeFailureEventAlloc (ctx : Option Context) (reason : PubnubRes) : Event :=
  eventAlloc ctx .handshakeFailure ⟨none, none⟩ none (some reason) true

/-- `pbcc_receive_success_event_alloc`. -/
def receiveSuccessEventAlloc (ctx : Option Context) (cursor : SubscribeCursor) : Event :=
  eventAlloc ctx .receiveSuccess ⟨none, none⟩ (some cursor) none true

/-- `pbcc_receive_failure_event_alloc`. -/
def receiveFailureEventAlloc (ctx : Option Context) (reason : PubnubRes) : Event :=
  eventAlloc ctx .receiveFailure ⟨none, none⟩ none (some reason) true

/-- `pbcc_disconnect_event_alloc`. -/
def disconnectEventAlloc (ctx : Option Context) : Event :=
  eventAlloc ctx .disconnect ⟨none, none⟩ none none true

/-- `pbcc_reconnect_event_alloc`. -/
def reconnectEventAlloc (ctx : Option Context) (cursor : SubscribeCursor) : Event :=
  eventAlloc ctx .reconnect ⟨none, none⟩ (some cursor) none true

/-- `pbcc_unsubscribe_all_event_alloc`. -/
def unsubscribeAllEventAlloc (ctx : Option Context) (lists : EventLists) : Event :=
  eventAlloc ctx .unsubscribeAll lists none none false

/-! ## States -/

/-- `pbcc_ee_state_t` with its type and its context. -/
inductive EeState
  | unsubscribed
  | handshaking (context : Context)
  | handshakeFailed (context : Context)
  | handshakeStopped (context : Context)
  | receiving (context : Context)
  | receiveFailed (context : Context)
  | receiveStopped (context : Context)
  deriving DecidableEq, Repr

/-- `pbcc_ee_state_data`. -/
def EeState.data : EeState → Option Context
  | .unsubscribed => none
  | .handshaking ctx | .handshakeFailed ctx | .handshakeStopped ctx | .receiving ctx
  | .receiveFailed ctx | .receiveStopped ctx => some ctx

/-- The context of the two states in which a subscribe request is made. -/
def EeState.subscribing : EeState → Option Context
  | .handshaking ctx | .receiving ctx => some ctx
  | _ => none

/-- `pbcc_subscribe_ee_invocation`. -/
inductive InvocationType
  | handshake | receive | emitStatus | emitMessage | cancel
  deriving DecidableEq, Repr

/-- What `pbcc_ee_invocation_alloc` is given. -/
structure InvocationSpec where
  type : InvocationType
  immediate : Bool
  data : Context
  deriving DecidableEq, Repr

/-- The on-enter invocations which the `.._state_alloc` functions add. -/
def EeState.onEnter : EeState → List InvocationSpec
  | .handshaking ctx => [⟨.handshake, false, ctx⟩]
  | .receiving ctx => [⟨.receive, false, ctx⟩]
  | _ => []

/-- The on-exit invocations which the `.._state_alloc` functions add. -/
def EeState.onExit : EeState → List InvocationSpec
  | .handshaking ctx | .receiving ctx => [⟨.cancel, true, ctx⟩]
  | _ => []

/-! ## Transitions -/

/-- What a `.._state_transition_alloc` function decides: the target state (`none` for
    `SUBSCRIBE_EE_STATE_NONE`), an invocation of its own and the status it writes to the
    engine. -/
structure Decision where
  target : Option EeState
  invocation : Option InvocationType := none
  status : Option SubscriptionStatus := none
  deriving DecidableEq, Repr

/-- An event which the state ignores. -/
def Decision.stay : Decision := { target := none }

/-- A transition that also reports a status. -/
def Decision.withStatus (target : EeState) (status : SubscriptionStatus) : Decision where
  target := some target
  invocation := some .emitStatus
  status := some status

/-- `pbcc_unsubscribed_state_transition_alloc`.  The lists of the event are not looked at. -/
def unsubscribedStateTransition (event : Event) : Decision :=
  match event.type with
  | .subscriptionChanged | .subscriptionRestored => { target := some (.handshaking event.data) }
  | _ => .stay

/-- `pbcc_handshaking_state_transition_alloc`. -/
def handshakingStateTransition (event : Event) : Decision :=
  match event.type with
  | .subscriptionChanged =>
      if event.data.noSubscribables then { target := some .unsubscribed }
      else { target := some (.handshaking event.data) }
  | .subscriptionRestored => { target := some (.handshaking event.data) }
  | .handshakeSuccess => .withStatus (.receiving event.data) .connected
  | .handshakeFailure => .withStatus (.handshakeFailed event.data) .connectionError
  | .disconnect => { target := some (.handshakeStopped event.data) }
  | .unsubscribeAll => { target := some .unsubscribed }
  | _ => .stay

/-- `pbcc_handshake_failed_state_transition_alloc`. -/
def handshakeFailedStateTransition (event : Event) : Decision :=
  match event.type with
  | .subscriptionChanged | .subscriptionRestored =>
      if event.data.noSubscribables then { target := some .unsubscribed }
      else { target := some (.handshaking event.data) }
  | .reconnect => { target := some (.handshaking event.data) }
  | .unsubscribeAll => { target := some .unsubscribed }
  | _ => .stay

/-- `pbcc_handshake_stopped_state_transition_alloc`. -/
def handshakeStoppedStateTransition (event : Event) : Decision :=
  match event.type with
  | .subscriptionChanged | .subscriptionRestored =>
      { target := some (.handshakeStopped event.data) }
  | .reconnect => { target := some (.handshaking event.data) }
  | .unsubscribeAll => { target := some .unsubscribed }
  | _ => .stay

/-- `pbcc_receiving_state_transition_alloc`. -/
def receivingStateTransition (event : Event) : Decision :=
  match event.type with
  | .subscriptionChanged | .subscriptionRestored =>
      if event.data.noSubscribables then .withStatus .unsubscribed .disconnected
      else .withStatus (.receiving event.data) .subscriptionChanged
  | .receiveSuccess =>
      { target := some (.receiving event.data), invocation := some .emitMessage }
  | .receiveFailure => .withStatus (.receiveFailed event.data) .disconnectedUnexpectedly
  | .disconnect => .withStatus (.receiveStopped event.data) .disconnected
  | .unsubscribeAll => .withStatus .unsubscribed .disconnected
  | _ => .stay

/-- `pbcc_receiving_failed_state_transition_alloc`. -/
def receivingFailedStateTransition (event : Event) : Decision :=
  match event.type with
  | .subscriptionChanged | .subscriptionRestored | .reconnect =>
      { target := some (.handshaking event.data) }
  | .unsubscribeAll => { target := some .unsubscribed }
  | _ => .stay

/-- `pbcc_receiving_stopped_state_transition_alloc`. -/
def receivingStoppedStateTransition (event : Event) : Decision :=
  match event.type with
  | .subscriptionChanged | .subscriptionRestored =>
      { target := some (.receiveStopped event.data) }
  | .reconnect => { target := some (.handshaking event.data) }
  | .unsubscribeAll => { target := some .unsubscribed }
  | _ => .stay

/-- The transition function of the current state. -/
def EeState.transition : EeState → Event → Decision
  | .unsubscribed => unsubscribedStateTransition
  | .handshaking _ => handshakingStateTransition
  | .handshakeFailed _ => handshakeFailedStateTransition
  | .handshakeStopped _ => handshakeStoppedStateTransition
  | .receiving _ => receivingStateTransition
  | .receiveFailed _ => receivingFailedStateTransition
  | .receiveStopped _ => receivingStoppedStateTransition

/-- `pbcc_ee_transition_alloc`: the decision's own invocation, then what leaving the current
    state asks for, then what entering the target asks for. -/
def transitionInvocations (current target : EeState) (own : Option InvocationType)
    (data : Context) : List InvocationSpec :=
  (own.map fun type => (⟨type, false, data⟩ : InvocationSpec)).toList ++
    current.onExit ++ target.onEnter

end PubNub
