import PubNubCore.Lib.Machine
import PubNubCore.SubscribeEngine.States

/-!
# The subscribe event engine as a machine

`pbcc_event_engine.c`, the effects of `pbcc_subscribe_event_engine_effects.c` and the event
engine proper, `pbcc_subscribe_event_engine.c`, put together with the part of the PubNub context
which they use.

The C functions call each other, and a listener which they call may call the public interface
again.  The machine therefore keeps the calls which have not returned yet on an explicit stack
of tasks (`Task`), and one step runs one C function up to its next call.  Calls of the user are
possible when the stack is empty and from inside a listener; the network acts only when the
stack is empty, which is when the C code has returned to its caller.

The PubNub context (`PbContext`) appears as the engine sees it: whether a transaction can be
started, which one is under way, the time token, and the messages of the last response that have
not been read yet.  What the network does with a transaction is decided by the label of the
step.  Calls from several threads at once are not modelled.
-/

namespace PubNub

/-! ## The PubNub context -/

/-- One message of a response, with its place: the number of the response and the index in
    it. -/
structure Delivery where
  response : Nat
  index : Nat
  message : PubnubV2Message
  deriving DecidableEq, Repr

/-- What the engine can tell of `pb->state`.  `busy` stands for every state of a transaction
    under way, a waiting retry included; `waitCancel` for the states that end a cancelled one. -/
inductive PbPhase
  | idle | keepAliveIdle | busy | waitCancel
  deriving DecidableEq, Repr

/-- The PubNub context.  `cursor` is `core.timetoken` with `core.region`; `window` the messages
    of a subscribe response between `msg_ofs` and `msg_end`; `presenceReply` tells that this
    range holds the unread reply to a heartbeat or leave request instead; `requeued` that the
    context waits in the queue of the callback thread.  The messages of every subscribe response
    parsed so far are kept in the ghost field `responses`. -/
structure PbContext where
  phase : PbPhase
  trans : PubnubTrans
  cursor : SubscribeCursor
  window : List Delivery
  presenceReply : Bool
  requeued : Bool
  responses : List (List PubnubV2Message)
  deriving DecidableEq, Repr

/-- A context that has just been initialised. -/
def PbContext.init : PbContext where
  phase := .idle
  trans := .none
  cursor := .zero
  window := []
  presenceReply := false
  requeued := false
  responses := []

/-- `pbnc_can_start_transaction`. -/
def PbContext.canStart (pb : PbContext) : Bool :=
  match pb.phase with
  | .idle | .keepAliveIdle => true
  | _ => false

/-- `msg_ofs < msg_end`. -/
def PbContext.unread (pb : PbContext) : Bool := !pb.window.isEmpty || pb.presenceReply

/-- The results with which the preparation of a request refuses to start it. -/
def PubnubRes.isRefusal (rslt : PubnubRes) : Bool :=
  rslt != .ok && rslt != .started && rslt != .inProgress

/-- How the start of a transaction ends, as far as the engine's own data does not decide it:
    the preparation may refuse (a URL that does not fit, say), or the queue may be full. -/
inductive StartAnswer
  | refused (rslt : PubnubRes) (h : rslt.isRefusal = true)
  | started
  | enqueueFailed

/-! ## The event engine -/

/-- `pbcc_ee_invocation_status`; a completed invocation is no longer in the queue. -/
inductive InvocationStatus
  | created | running
  deriving DecidableEq, Repr

/-- `pbcc_ee_invocation_t`, with the identity of the object. -/
structure Invocation where
  id : Nat
  type : InvocationType
  immediate : Bool
  status : InvocationStatus
  data : Context
  deriving DecidableEq, Repr

/-- A call that has not returned yet. -/
inductive Task
  | exec (id : Nat)
  | processNext
  | effectCompletion (id : Nat) (paused : Bool)
  | emitMessages (id : Nat)
  | listener
  | handleEvent (event : Event)
  | subscribe (cursor : Option SubscribeCursor) (update sentByEe : Bool)
  | handleSubscribeError (rslt : PubnubRes)
  | callback (trans : PubnubTrans) (rslt : PubnubRes)
  | setSubscribed (ref : Nat) (flag : Bool)
  deriving DecidableEq, Repr

/-- What can be seen of a run from outside. -/
inductive Observation
  | delivered (delivery : Delivery)
  | statusEmitted (status : SubscriptionStatus) (ctx : Context)
  | subscribeRequested (ctx : Context)
  | leaveRequested (channels channelGroups : Option Bytes)
  deriving DecidableEq, Repr

/-- `struct pbcc_subscribe_ee` with its `pbcc_event_engine_t` and its PubNub context.  The
    observations come newest first. -/
structure Engine where
  registry : Registry
  leaveChannels : List Bytes
  leaveChannelGroups : List Bytes
  status : SubscriptionStatus
  currentTransaction : PubnubTrans
  cancelInvocation : Option Nat
  currentState : EeState
  invocations : List Invocation
  nextInvocation : Nat
  pb : PbContext
  stack : List Task
  trace : List Observation

/-- `pbcc_subscribe_ee_alloc`. -/
def Engine.init : Engine where
  registry := .empty
  leaveChannels := []
  leaveChannelGroups := []
  status := .disconnected
  currentTransaction := .none
  cancelInvocation := none
  currentState := .unsubscribed
  invocations := []
  nextInvocation := 0
  pb := .init
  stack := []
  trace := []

namespace Engine

/-- The calls which a function makes, in their order. -/
def push (s : Engine) (tasks : List Task) : Engine := { s with stack := tasks ++ s.stack }

/-- Something is seen from outside. -/
def observe (s : Engine) (o : Observation) : Engine := { s with trace := o :: s.trace }

/-! ## `pbcc_event_engine.c` -/

/-- `pbcc_ee_invocation_alloc` for the invocations of one transition. -/
def allocInvocations (firstId : Nat) (specs : List InvocationSpec) : List Invocation :=
  specs.zipIdx.map fun x => ⟨firstId + x.2, x.1.type, x.1.immediate, .created, x.1.data⟩

/-- `pbcc_ee_invocation_cancel_by_type`: the first one of the type that is not running. -/
def cancelByType (invocations : List Invocation) (type : InvocationType) : List Invocation :=
  invocations.eraseP fun inv => inv.status == .created && inv.type == type

/-- What allocating a state takes out of the queue. -/
def cancelForState (invocations : List Invocation) : EeState → List Invocation
  | .handshaking _ => cancelByType invocations .handshake
  | .receiving _ => cancelByType invocations .receive
  | _ => invocations

/-- `pbcc_ee_handle_event`. -/
def handleEvent (s : Engine) (event : Event) : Engine :=
  let decision := s.currentState.transition event
  match decision.target with
  | none => s
  | some target =>
      let added := allocInvocations s.nextInvocation
        (transitionInvocations s.currentState target decision.invocation event.data)
      let s := { s with
        status := decision.status.getD s.status
        invocations := cancelForState s.invocations target ++ added
        nextInvocation := s.nextInvocation + added.length
        currentState := target }
      match added with
      | [] => s
      | inv :: _ => s.push [if inv.immediate then .exec inv.id else .processNext]

/-- `pbcc_ee_process_next_invocation`. -/
def processNext (s : Engine) : Engine :=
  match s.invocations with
  | [] => s
  | inv :: _ => s.push [.exec inv.id]

/-- Changes the invocation with this identity. -/
def updateInvocation (s : Engine) (id : Nat) (f : Invocation → Invocation) : Engine :=
  { s with invocations := s.invocations.map fun inv => if inv.id = id then f inv else inv }

/-- The invocation with this identity is in the queue and running. -/
def isRunning (s : Engine) (id : Nat) : Bool :=
  s.invocations.any fun inv => inv.id == id && inv.status == .running

/-- `pbcc_ee_handle_effect_completion`. -/
def handleEffectCompletion (s : Engine) (id : Nat) : Engine :=
  if s.isRunning id then { s with invocations := s.invocations.filter (·.id ≠ id) } else s

/-- `pbcc_ee_effect_completion_`. -/
def effectCompletion (s : Engine) (id : Nat) (paused : Bool) : Engine :=
  if s.isRunning id then
    if paused then s.updateInvocation id fun inv => { inv with status := .created }
    else (s.handleEffectCompletion id).push [.processNext]
  else s

end Engine

/-! ## Starting transactions -/

namespace PbContext

/-- The common end of the functions that start a transaction: the state machine of the network
    enqueues the context, or reports `PNR_INTERNAL_ERROR` at once. -/
def start (pb : PbContext) (trans : PubnubTrans) :
    StartAnswer → PbContext × PubnubRes × List Task
  | .refused rslt _ => (pb, rslt, [])
  | .started => ({ pb with phase := .busy, trans := trans }, .started, [])
  | .enqueueFailed => ({ pb with phase := .idle, trans := trans }, .internalError,
      [.callback trans .internalError])

/-- `pubnub_subscribe_v2` with `pbcc_subscribe_v2_prep`. -/
def pubnubSubscribeV2 (pb : PbContext) (answer : StartAnswer) :
    PbContext × PubnubRes × List Task :=
  if !pb.canStart then (pb, .inProgress, [])
  else if pb.unread then (pb, .rxBuffNotEmpty, [])
  else
    let cursor := if pb.cursor.timetoken = [] then { pb.cursor with timetoken := ascii "0" }
      else pb.cursor
    { pb with cursor := cursor }.start .subscribeV2 answer

/-- `pubnub_heartbeat` with `pbcc_heartbeat_prep`. -/
def pubnubHeartbeat (pb : PbContext) (answer : StartAnswer) :
    PbContext × PubnubRes × List Task :=
  if !pb.canStart then (pb, .inProgress, [])
  else if pb.unread then (pb, .rxBuffNotEmpty, [])
  else pb.start .heartbeat answer

/-- `pbcc_leave_prep` makes sure that the next subscribe is a join. -/
def pbccLeavePrep (pb : PbContext) : PbContext :=
  { pb with cursor := { pb.cursor with timetoken := ascii "0", source := none } }

/-- `pubnub_leave`. -/
def pubnubLeave (pb : PbContext) (answer : StartAnswer) : PbContext × PubnubRes × List Task :=
  if !pb.canStart then (pb, .inProgress, [])
  else pb.pbccLeavePrep.start .leave answer

/-- `pubnub_get`: one message of the old protocol, that is, everything up to the end of the
    reply. -/
def pubnubGet (pb : PbContext) : PbContext := { pb with window := [], presenceReply := false }

/-- `pbcc_get_msg_v2`, as far as the window is concerned. -/
def pubnubGetV2 (pb : PbContext) : PbContext × Option Delivery :=
  match pb.window with
  | [] => ({ pb with presenceReply := false }, none)
  | d :: rest => ({ pb with window := rest }, some d)

end PbContext

namespace Engine

/-! ## `pbcc_subscribe_event_engine_effects.c` -/

/-- `pbcc_subscribe_ee_emit_status_effect`. -/
def emitStatusEffect (s : Engine) (inv : Invocation) : Engine :=
  (s.observe (.statusEmitted s.status inv.data)).push
    [.listener, .effectCompletion inv.id false]

/-- One round of the loop of `pbcc_subscribe_ee_emit_messages_effect`. -/
def emitMessages (s : Engine) (id : Nat) : Engine :=
  match s.pb.pubnubGetV2 with
  | (pb, none) => { s with pb := pb }.push [.effectCompletion id false]
  | (pb, some d) =>
      if d.message.payload.length > 0 then
        ({ s with pb := pb }.observe (.delivered d)).push [.listener, .emitMessages id]
      else { s with pb := pb }.push [.effectCompletion id false]

/-- `pbcc_subscribe_ee_cancel_effect` with `pubnub_cancel` and `pbnc_stop`. -/
def cancelEffect (s : Engine) (id : Nat) : Engine :=
  if s.currentTransaction ≠ .subscribeV2 ∧ s.currentTransaction ≠ .none then
    s.push [.effectCompletion id true]
  else
    match s.pb.phase with
    | .idle => { s with pb := { s.pb with trans := .none } }.push [.effectCompletion id false]
    | .keepAliveIdle => { s with
        pb := { s.pb with trans := .none, phase := .waitCancel }
        cancelInvocation := some id }
    | .busy | .waitCancel => { s with
        pb := { s.pb with phase := .waitCancel }
        cancelInvocation := some id }

/-- `make_subscribe_request_`. -/
def makeSubscribeRequest (s : Engine) (inv : Invocation) (answer : StartAnswer) : Engine :=
  if s.currentTransaction ≠ .none then s.push [.effectCompletion inv.id true]
  else if inv.data.sendHeartbeat then
    if !s.pb.canStart then s.push [.effectCompletion inv.id true]
    else
      let (pb, _, calls) := s.pb.pubnubHeartbeat answer
      ({ s with currentTransaction := .heartbeat, pb := pb }.updateInvocation inv.id
        fun i => { i with data := { i.data with sendHeartbeat := false } }).push
        (calls ++ [Task.effectCompletion inv.id true])
  else
    let (pb, rslt, calls) := { s.pb with cursor := inv.data.cursor }.pubnubSubscribeV2 answer
    let s := { s with pb := pb }
    let s := if rslt = .started then s.observe (.subscribeRequested inv.data) else s
    s.push (calls ++ [Task.effectCompletion inv.id (rslt == .inProgress)] ++
      if rslt.isRefusal then [Task.handleSubscribeError rslt] else [])

/-- `pbcc_ee_invocation_exec_`. -/
def exec (s : Engine) (id : Nat) (answer : StartAnswer) : Engine :=
  match s.invocations.find? fun inv => inv.id == id with
  | none => s
  | some inv =>
      if inv.status = .created then
        let s := s.updateInvocation id fun i => { i with status := .running }
        match inv.type with
        | .handshake | .receive => s.makeSubscribeRequest inv answer
        | .emitStatus => s.emitStatusEffect inv
        | .emitMessage => s.push [.emitMessages id]
        | .cancel => s.cancelEffect id
      else s

/-! ## `pbcc_subscribe_event_engine.c` -/

/-- `pbcc_subscribe_ee_subscribe_`. -/
def subscribe (s : Engine) (cursor : Option SubscribeCursor) (update sentByEe : Bool) : Engine :=
  let s := if update then { s with registry := s.registry.updateSubscribables } else s
  let lists := eventLists s.registry.subscribables
  let ctx := s.currentState.data
  let event := match cursor with
    | none => subscriptionChangedEventAlloc ctx lists sentByEe
    | some c =>
        if c.timetoken.head? = some (UInt8.ofNat '0'.toNat) then
          subscriptionChangedEventAlloc ctx lists sentByEe
        else subscriptionRestoredEventAlloc ctx lists c.fromUser sentByEe
  s.push [.handleEvent event]

/-- The middle part of `pbcc_subscribe_ee_unsubscribe_` and `pbcc_subscribe_ee_unsubscribe_all`:
    a leave request at once, or its lists for later. -/
def leaveOrPostpone (s : Engine) (channels channelGroups : Option Bytes) (answer : StartAnswer) :
    Engine × List Task :=
  if s.pb.canStart then
    let (pb, rslt, calls) := s.pb.pubnubLeave answer
    let s := { s with currentTransaction := .leave, pb := pb }
    (if rslt = .started then s.observe (.leaveRequested channels channelGroups) else s, calls)
  else
    ({ s with
        leaveChannels := s.leaveChannels ++ channels.toList
        leaveChannelGroups := s.leaveChannelGroups ++ channelGroups.toList }, [])

/-- `pbcc_subscribe_ee_unsubscribe_`. -/
def unsubscribe (s : Engine) (subscribables : PbhashSet Subscribable) (answer : StartAnswer) :
    Engine :=
  let s := { s with registry := s.registry.updateSubscribables }
  let lists := pbccSubscribeEeSubscribables
    (noLongerSubscribed s.registry.subscribables subscribables) false
  let (s, calls) :=
    if lists.rslt = .ok then
      s.leaveOrPostpone (nullIfEmpty lists.channels) (nullIfEmpty lists.channelGroups) answer
    else (s, [])
  s.push (calls ++ [Task.subscribe none false true])

/-- `pbcc_subscribe_ee_unsubscribe_all`. -/
def unsubscribeAll (s : Engine) (answer : StartAnswer) : Engine :=
  let lists := pbccSubscribeEeSubscribables s.registry.subscribables false
  if lists.rslt = .ok then
    let channels := nullIfEmpty lists.channels
    let channelGroups := nullIfEmpty lists.channelGroups
    let event := unsubscribeAllEventAlloc s.currentState.data ⟨channels, channelGroups⟩
    let s := { s with registry := s.registry.removeAll }
    let (s, calls) := s.leaveOrPostpone channels channelGroups answer
    s.push (calls ++ [Task.handleEvent event])
  else s

/-- `pbcc_subscribe_ee_disconnect`. -/
def disconnect (s : Engine) : Engine :=
  match s.currentState with
  | .unsubscribed | .handshakeFailed _ | .handshakeStopped _ | .receiveFailed _
  | .receiveStopped _ => s
  | _ => s.push [.handleEvent (disconnectEventAlloc s.currentState.data)]

/-- `pbcc_subscribe_ee_reconnect`. -/
def reconnect (s : Engine) (cursor : SubscribeCursor) : Engine :=
  match s.currentState with
  | .unsubscribed | .handshaking _ | .receiving _ => s
  | _ => s.push [.handleEvent (reconnectEventAlloc s.currentState.data cursor.fromUser)]

/-- `pbcc_subscribe_ee_handle_subscribe_error`. -/
def handleSubscribeError (s : Engine) (rslt : PubnubRes) : Engine :=
  match s.currentState with
  | .handshaking ctx => s.push [.handleEvent (handshakeFailureEventAlloc (some ctx) rslt)]
  | .receiving ctx => s.push [.handleEvent (receiveFailureEventAlloc (some ctx) rslt)]
  | _ => s

/-- `pbcc_subscribe_ee_postponed_unsubscribe_`, with its result. -/
def postponedUnsubscribe (s : Engine) (answer : StartAnswer) : Engine × Bool :=
  if s.leaveChannels = [] ∧ s.leaveChannelGroups = [] then (s, false)
  else if s.currentTransaction ≠ .none then (s, true)
  else
    let channels := nullIfEmpty (joinIds s.leaveChannels)
    let channelGroups := nullIfEmpty (joinIds s.leaveChannelGroups)
    let s := { s with
      leaveChannels := []
      leaveChannelGroups := []
      currentTransaction := .leave
      pb := s.pb.pbccLeavePrep }
    match answer with
    | .refused _ _ => (s, true)
    | .started => ({ s with pb := { s.pb with trans := .leave, requeued := true } }.observe
        (.leaveRequested channels channelGroups), true)
    | .enqueueFailed => ({ s with pb := { s.pb with trans := .leave } }, true)

/-- The second half of `pbcc_subscribe_callback_`: the event for the current state. -/
def callbackEvent (s : Engine) (rslt : PubnubRes) : Engine :=
  let region := if s.pb.cursor.region > 0 then s.pb.cursor.region else 0
  let cursor := { s.pb.cursor with region := region }
  match s.currentState with
  | .handshaking ctx => s.push [.handleEvent
      (if rslt = .ok then handshakeSuccessEventAlloc (some ctx) cursor
        else handshakeFailureEventAlloc (some ctx) rslt)]
  | .receiving ctx => s.push [.handleEvent
      (if rslt = .ok then receiveSuccessEventAlloc (some ctx) cursor
        else receiveFailureEventAlloc (some ctx) rslt)]
  | _ => s

/-- The completion of a cancel invocation in `pbcc_subscribe_callback_`. -/
def completeCancel (s : Engine) : Engine :=
  match s.cancelInvocation with
  | none => s
  | some id => { s.handleEffectCompletion id with cancelInvocation := none }

/-- The end of a heartbeat or leave transaction in `pbcc_subscribe_callback_`. -/
def endTransaction (s : Engine) (trans : PubnubTrans) : Engine :=
  if trans = .heartbeat ∨ trans = .leave then
    { s with currentTransaction := .none, pb := s.pb.pubnubGet }
  else s

/-- `pbcc_subscribe_callback_`. -/
def callback (s : Engine) (trans : PubnubTrans) (rslt : PubnubRes) (answer : StartAnswer) :
    Engine :=
  if rslt = .cancelled ∨ trans = .heartbeat ∨ trans = .leave then
    let (s, postponed) := (s.completeCancel.endTransaction trans).postponedUnsubscribe answer
    if postponed then s
    else if s.invocations ≠ [] then s.processNext
    else s.callbackEvent rslt
  else s.callbackEvent rslt

end Engine

/-! ## The steps -/

/-- The calls of the public interface. -/
inductive ApiCall
  | subscribe (sub : Subscription) (cursor : Option SubscribeCursor)
  | unsubscribe (sub : Subscription)
  | subscribeSet (ref : Nat) (cursor : Option SubscribeCursor)
  | unsubscribeSet (ref : Nat)
  | allocSet (options : SubscriptionOptions) (length : Nat) (subs : List Subscription)
  | setAdd (ref : Nat) (sub : Subscription)
  | setRemove (ref : Nat) (sub : Subscription)
  | setUnion (ref : Nat)
  | setSubtract (ref : Nat)
  | disconnect
  | reconnect (cursor : Option SubscribeCursor)
  | unsubscribeAll

namespace Engine

/-- The engine's part of an operation on the registry. -/
def followup (s : Engine) (cursor : Option SubscribeCursor) (answer : StartAnswer) :
    Registry × Followup → Engine
  | (r, .nothing) => { s with registry := r }
  | (r, .subscribe) => { s with registry := r }.push [.subscribe cursor true false]
  | (r, .unsubscribe subs) => { s with registry := r }.unsubscribe subs answer

/-- One call of the user. -/
def api (s : Engine) (answer : StartAnswer) : ApiCall → Engine
  | .subscribe sub cursor => s.followup cursor answer (s.registry.subscribeWithSubscription sub)
  | .unsubscribe sub => s.followup none answer (s.registry.unsubscribeWithSubscription sub)
  | .subscribeSet ref cursor =>
      if ref < s.registry.sets.length then
        (s.push [.setSubscribed ref true]).followup cursor answer
          (s.registry.subscribeWithSubscriptionSet ref)
      else s
  | .unsubscribeSet ref =>
      match s.registry.sets[ref]? with
      | none => s
      | some set =>
          if ref ∈ s.registry.subscriptionSets then
            (s.push [.setSubscribed ref false]).followup none answer
              (s.registry.unsubscribeWithSubscriptionSet ref set)
          else s
  | .allocSet options length subs =>
      { s with registry := s.registry.allocSet options length subs }
  | .setAdd ref sub => s.followup none answer
      (s.registry.onSet ref fun set => pubnubSubscriptionSetAdd set sub true)
  | .setRemove ref sub => s.followup none answer
      (s.registry.onSet ref fun set => pubnubSubscriptionSetRemove set sub true)
  | .setUnion ref => s.followup none answer (s.registry.onSet ref pubnubSubscriptionSetUnion)
  | .setSubtract ref =>
      s.followup none answer (s.registry.onSet ref pubnubSubscriptionSetSubtract)
  | .disconnect => s.disconnect
  | .reconnect cursor => s.reconnect (cursor.getD .zero)
  | .unsubscribeAll => s.unsubscribeAll answer

/-- One task. -/
def runTask (s : Engine) (answer : StartAnswer) : Task → Engine
  | .exec id => s.exec id answer
  | .processNext => s.processNext
  | .effectCompletion id paused => s.effectCompletion id paused
  | .emitMessages id => s.emitMessages id
  | .listener => s
  | .handleEvent event => s.handleEvent event
  | .subscribe cursor update sentByEe => s.subscribe cursor update sentByEe
  | .handleSubscribeError rslt => s.handleSubscribeError rslt
  | .callback t rslt => s.callback t rslt answer
  | .setSubscribed ref flag => { s with registry := s.registry.setSubscribed ref flag }

end Engine

/-- What a response parser takes from a subscribe response. -/
structure SubscribeResponse where
  timetoken : Bytes
  region : Int
  messages : List PubnubV2Message
  deriving DecidableEq, Repr

/-- What happens to the transaction under way.  `retried` is an attempt which the retry
    configuration repeats; `overtaken` a cancelled transaction which is started over because a
    retry had been decided before, its messages being dropped or not; `parsed` tells whether the
    response parser accepted the reply. -/
inductive NetEvent
  | fsmStart (enqueued : Bool)
  | retried (rslt : PubnubRes) (parsed : Option SubscribeResponse)
  | finished (rslt : PubnubRes) (keepAlive : Bool) (parsed : Option SubscribeResponse)
  | cancelled (rslt : PubnubRes)
  | overtaken (dropped : Bool)
  deriving DecidableEq, Repr

/-- The deliveries of a response. -/
def deliveriesOf (response : Nat) (messages : List PubnubV2Message) : List Delivery :=
  messages.zipIdx.map fun x => ⟨response, x.2, x.1⟩

namespace PbContext

/-- The response parser of the transaction, and the reset of the time token in
    `PBNTF_TRANS_OUTCOME_COMMON`. -/
def receive (pb : PbContext) (rslt : PubnubRes) (parsed : Option SubscribeResponse) : PbContext :=
  let pb := match pb.trans, parsed with
    | .subscribeV2, some r => { pb with
        cursor := ⟨r.timetoken, r.region, some pb.responses.length⟩
        window := deliveriesOf pb.responses.length r.messages
        presenceReply := false
        responses := pb.responses ++ [r.messages] }
    | .leave, some _ | .heartbeat, some _ => { pb with window := [], presenceReply := true }
    | _, _ => pb
  if rslt.resetsTimetoken then
    { pb with cursor := { pb.cursor with timetoken := ascii "0", source := none } }
  else pb

end PbContext

namespace Engine

/-- One event of the network. -/
def net (s : Engine) : NetEvent → Option Engine
  | .fsmStart enqueued =>
      if s.pb.requeued then
        let pb := { s.pb with requeued := false }
        if pb.canStart then
          if enqueued then some { s with pb := { pb with phase := .busy } }
          else some ({ s with pb := { pb with phase := .idle } }.push
            [.callback pb.trans .internalError])
        else some { s with pb := pb }
      else none
  | .retried rslt parsed =>
      if s.pb.phase = .busy ∧ rslt ≠ .ok then some { s with pb := s.pb.receive rslt parsed }
      else none
  | .finished rslt keepAlive parsed =>
      if s.pb.phase = .busy ∧ (rslt = .ok → parsed.isSome) then
        let pb := { s.pb.receive rslt parsed with
          phase := if keepAlive then .keepAliveIdle else .idle }
        some ({ s with pb := pb }.push [.callback pb.trans rslt])
      else none
  | .cancelled rslt =>
      if s.pb.phase = .waitCancel ∧ rslt ≠ .ok then
        let pb := { s.pb with phase := .idle, window := [], presenceReply := false }
        some ({ s with pb := pb }.push [.callback pb.trans rslt])
      else none
  | .overtaken dropped =>
      if s.pb.phase = .waitCancel then
        some { s with pb := { s.pb with
          phase := .busy
          window := if dropped then [] else s.pb.window
          presenceReply := if dropped then false else s.pb.presenceReply } }
      else none

/-- A step of the engine. -/
inductive Action
  | api (call : ApiCall) (answer : StartAnswer)
  | run (answer : StartAnswer)
  | listenerReturns
  | net (event : NetEvent)

/-- The user may call: nothing is running, or a listener is. -/
def userMayCall (s : Engine) : Bool :=
  match s.stack with
  | [] | .listener :: _ => true
  | _ => false

/-- The step function. -/
def step (s : Engine) : Action → Option Engine
  | .api call answer => if s.userMayCall then some (s.api answer call) else none
  | .run answer =>
      match s.stack with
      | [] | .listener :: _ => none
      | task :: rest => some ({ s with stack := rest }.runTask answer task)
  | .listenerReturns =>
      match s.stack with
      | .listener :: rest => some { s with stack := rest }
      | _ => none
  | .net event => if s.stack = [] then s.net event else none

end Engine

/-- The machine of the subscribe event engine. -/
def engineMachine : Machine Engine Engine.Action where
  init := .init
  step := Engine.step

end PubNub
