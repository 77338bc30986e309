import PubNubCore.SubscribeEngine.Frame

/-!
# No request for an empty subscription

A handshake or receive request is made for the lists of the current context, so in the states
`handshaking` and `receiving` the context should hold a channel or a channel group.  An empty
list of a `SUBSCRIPTION_CHANGED` event means, says the source, that the engine should go to the
`Unsubscribed` state; but only some of the transitions look at the lists.  Those that go to
`handshaking` without a look are listed in `EeState.skipsEmptyCheck`, and they are the only way
to an empty request: as long as none of them is taken with an empty context, every reachable
state is fine (`subscribing_nonempty`).
-/

namespace PubNub

/-- The transitions to `handshaking` which do not test the lists of their event. -/
def EeState.skipsEmptyCheck : EeState → EventType → Bool
  | .unsubscribed, .subscriptionChanged | .unsubscribed, .subscriptionRestored => true
  | .handshaking _, .subscriptionRestored => true
  | .handshakeFailed _, .reconnect | .handshakeStopped _, .reconnect => true
  | .receiveFailed _, .subscriptionChanged | .receiveFailed _, .subscriptionRestored
  | .receiveFailed _, .reconnect | .receiveStopped _, .reconnect => true
  | _, _ => false

/-- **One transition.**  A subscribing target has the context of the event, and with empty lists
    it is reached only by a transition that skips the test or reports a response. -/
lemma EeState.transition_subscribing {state target : EeState} {event : Event} {ctx : Context}
    (ht : (state.transition event).target = some target) (hs : target.subscribing = some ctx) :
    ctx = event.data ∧ (event.data.noSubscribables = true →
      state.skipsEmptyCheck event.type = true ∨ event.type.isSuccess = true) := by
  obtain ⟨type, data⟩ := event
  cases hd : data.noSubscribables <;> cases state <;> cases type <;>
    simp [transition, unsubscribedStateTransition, handshakingStateTransition,
      handshakeFailedStateTransition, handshakeStoppedStateTransition,
      receivingStateTransition, receivingFailedStateTransition,
      receivingStoppedStateTransition, Decision.stay, Decision.withStatus, hd] at ht <;>
    subst ht <;>
    simp [subscribing, skipsEmptyCheck, EventType.isSuccess, eq_comm] at hs ⊢ <;>
    exact hs

namespace Engine

/-! ## The invariant -/

/-- The lists of the current context and of the waiting events that report a response. -/
structure NonEmpty (s : Engine) : Prop where
  state : ∀ ctx, s.currentState.subscribing = some ctx → ctx.noSubscribables = false
  events : ∀ event, Task.handleEvent event ∈ s.stack → event.type.isSuccess = true →
    event.data.noSubscribables = false

variable {s s' : Engine}

/-- A function which leaves the current state alone and calls nothing that reports a
    response. -/
lemma NonEmpty.keep (h : s.NonEmpty) (hst : s'.currentState = s.currentState)
    (hs : ∀ event, Task.handleEvent event ∈ s'.stack → event.type.isSuccess = true →
      Task.handleEvent event ∈ s.stack) : s'.NonEmpty where
  state := fun ctx hc => h.state ctx (hst ▸ hc)
  events := fun event he hsucc => h.events event (hs event he hsucc) hsucc

lemma NonEmpty.of_frame (h : s.NonEmpty) (hf : s.Frame s') : s'.NonEmpty := by
  obtain ⟨tasks, hstack, hint⟩ := hf.calls
  refine h.keep hf.currentState fun event he hsucc => ?_
  rcases List.mem_append.mp (hstack ▸ he) with he | he
  · exact absurd hsucc (by simpa [Task.reportsSuccess] using (hint _ he).1)
  · exact he

/-- Calling tasks that are no events. -/
lemma NonEmpty.push {tasks : List Task} (h : s.NonEmpty)
    (ht : ∀ event, Task.handleEvent event ∉ tasks) : (s.push tasks).NonEmpty := by
  refine h.keep rfl fun event he _ => ?_
  rcases List.mem_append.mp he with he | he
  · exact absurd he (ht event)
  · exact he

/-! ## Messages, the end of a transaction and the network -/

lemma NonEmpty.emitMessages (h : s.NonEmpty) (id : Nat) : (s.emitMessages id).NonEmpty := by
  have hpb : ∀ pb, ({ s with pb := pb } : Engine).NonEmpty := fun pb => ⟨h.state, h.events⟩
  rw [Engine.emitMessages]
  split
  · exact (hpb _).push (by simp)
  · rename_i pb d _
    split
    · exact NonEmpty.push (s := ({ s with pb := pb } : Engine).observe (.delivered d))
        ⟨h.state, h.events⟩ (by simp)
    · exact (hpb _).push (by simp)

lemma NonEmpty.endTransaction (h : s.NonEmpty) (t : PubnubTrans) :
    (s.endTransaction t).NonEmpty := by
  rw [Engine.endTransaction]
  split
  · exact ⟨h.state, h.events⟩
  · exact h

/-- No event of the network is itself handled as the report of a response. -/
lemma NonEmpty.net {event : NetEvent} (h : s.NonEmpty) (hn : s.net event = some s') :
    s'.NonEmpty := by
  have hpb : ∀ pb, ({ s with pb := pb } : Engine).NonEmpty := fun pb => ⟨h.state, h.events⟩
  cases event with
  | fsmStart enqueued =>
      simp only [Engine.net] at hn
      split at hn
      · split at hn
        · split at hn
          · exact Option.some.inj hn ▸ hpb _
          · exact Option.some.inj hn ▸ (hpb _).push (by simp)
        · exact Option.some.inj hn ▸ hpb _
      · exact absurd hn (by simp)
  | retried rslt parsed =>
      simp only [Engine.net, Option.ite_none_right_eq_some, Option.some.injEq] at hn
      exact hn.2 ▸ hpb _
  | finished rslt keepAlive parsed =>
      simp only [Engine.net, Option.ite_none_right_eq_some, Option.some.injEq] at hn
      exact hn.2 ▸ (hpb _).push (by simp)
  | cancelled rslt =>
      simp only [Engine.net, Option.ite_none_right_eq_some, Option.some.injEq] at hn
      exact hn.2 ▸ (hpb _).push (by simp)
  | overtaken dropped =>
      simp only [Engine.net, Option.ite_none_right_eq_some, Option.some.injEq] at hn
      exact hn.2 ▸ hpb _

/-! ## The callback -/

/-- The events that report a response have the lists of the current context. -/
lemma NonEmpty.callbackEvent (h : s.NonEmpty) (rslt : PubnubRes) :
    (s.callbackEvent rslt).NonEmpty := by
  have key : ∀ (ctx : Context) {event : Event}, s.currentState.subscribing = some ctx →
      event.data.channels = ctx.channels → event.data.channelGroups = ctx.channelGroups →
      (s.push [.handleEvent event]).NonEmpty := by
    intro ctx event hctx hch hcg
    refine ⟨h.state, fun e he hs => ?_⟩
    rcases List.mem_cons.mp he with he | he
    · obtain rfl := Task.handleEvent.inj he
      have hne := h.state ctx hctx
      rwa [Context.noSubscribables, hch, hcg]
    · exact h.events e he hs
  unfold Engine.callbackEvent
  dsimp only
  split
  · rename_i ctx hst
    refine key ctx (by rw [hst]; rfl) ?_ ?_ <;> split <;> rfl
  · rename_i ctx hst
    refine key ctx (by rw [hst]; rfl) ?_ ?_ <;> split <;> rfl
  · exact h

lemma NonEmpty.callback (h : s.NonEmpty) (t : PubnubTrans) (rslt : PubnubRes)
    (answer : StartAnswer) : (s.callback t rslt answer).NonEmpty := by
  unfold Engine.callback
  split
  · have hend : (s.completeCancel.endTransaction t).NonEmpty :=
      (h.of_frame (plain_completeCancel s).toFrame).endTransaction t
    have hpost := hend.of_frame (frame_postponedUnsubscribe _ answer)
    dsimp only
    split
    · exact hpost
    · split
      · exact hpost.of_frame (plain_processNext _).toFrame
      · exact hpost.callbackEvent rslt
  · exact h.callbackEvent rslt

end Engine

/-! ## Runs -/

/-- The event which the step is about to handle, if it handles one. -/
def Engine.handledEvent (s : Engine) : Engine.Action → Option Event
  | .run _ => match s.stack with
      | .handleEvent event :: _ => some event
      | _ => none
  | _ => none

/-- The step does not take a transition that skips the test with an event whose lists are
    empty. -/
def Engine.checksLists (s : Engine) (a : Engine.Action) : Bool :=
  (s.handledEvent a).all fun event =>
    !(s.currentState.skipsEmptyCheck event.type && event.data.noSubscribables)

namespace Engine

variable {s s' : Engine}

lemma NonEmpty.handleEvent {event : Event} (h : s.NonEmpty)
    (hskip : s.currentState.skipsEmptyCheck event.type = true →
      event.data.noSubscribables = false)
    (hsucc : event.type.isSuccess = true → event.data.noSubscribables = false) :
    (s.handleEvent event).NonEmpty := by
  unfold Engine.handleEvent
  dsimp only
  split
  · exact h
  · rename_i target ht
    have hstate : ∀ ctx, target.subscribing = some ctx → ctx.noSubscribables = false := by
      intro ctx hctx
      obtain ⟨rfl, hcase⟩ := EeState.transition_subscribing ht hctx
      by_contra hne
      rw [Bool.not_eq_false] at hne
      rcases hcase hne with hc | hc
      · exact absurd (hskip hc) (by simp [hne])
      · exact absurd (hsucc hc) (by simp [hne])
    split
    · exact ⟨hstate, h.events⟩
    · refine ⟨hstate, fun e he => ?_⟩
      rcases List.mem_cons.mp he with he | he
      · split at he <;> exact absurd he (by simp)
      · exact h.events e he

/-- **Step lemma.** -/
lemma NonEmpty.step {a : Action} (h : s.NonEmpty) (hg : s.checksLists a = true)
    (hst : s.step a = some s') : s'.NonEmpty := by
  cases a with
  | api call answer =>
      simp only [Engine.step] at hst
      split at hst
      · exact Option.some.inj hst ▸ h.of_frame (frame_api s answer call)
      · exact absurd hst (by simp)
  | run answer =>
      simp only [Engine.step] at hst
      split at hst
      · exact absurd hst (by simp)
      · exact absurd hst (by simp)
      · rename_i task rest _ hstack
        obtain rfl := Option.some.inj hst
        have hrest : ({ s with stack := rest } : Engine).NonEmpty :=
          ⟨h.state, fun e he => h.events e (hstack ▸ List.mem_cons_of_mem _ he)⟩
        cases task with
        | exec id => exact hrest.of_frame (frame_exec _ id answer)
        | processNext => exact hrest.of_frame (plain_processNext _).toFrame
        | effectCompletion id paused =>
            exact hrest.of_frame (plain_effectCompletion _ id paused).toFrame
        | emitMessages id => exact hrest.emitMessages id
        | listener => exact hrest
        | handleEvent event =>
            refine hrest.handleEvent (fun hskip => ?_)
              (h.events event (hstack ▸ List.mem_cons_self))
            simpa [checksLists, handledEvent, hstack, show s.currentState.skipsEmptyCheck
              event.type = true from hskip] using hg
        | subscribe cursor update sentByEe =>
            exact hrest.of_frame (plain_subscribe _ cursor update sentByEe).toFrame
        | handleSubscribeError rslt =>
            exact hrest.of_frame (plain_handleSubscribeError _ rslt).toFrame
        | callback t rslt => exact hrest.callback t rslt answer
        | setSubscribed ref flag => exact hrest.of_frame (plain_registry _ _).toFrame
  | listenerReturns =>
      simp only [Engine.step] at hst
      split at hst
      · rename_i rest hstack
        obtain rfl := Option.some.inj hst
        exact ⟨h.state, fun e he => h.events e (hstack ▸ List.mem_cons_of_mem _ he)⟩
      · exact absurd hst (by simp)
  | net event =>
      simp only [Engine.step] at hst
      split at hst
      · exact h.net hst
      · exact absurd hst (by simp)

end Engine

/-- **No empty subscription is ever requested**, as long as no step takes a transition that skips
    the test with empty lists: in every state which such a run reaches, the context of a
    handshaking or receiving engine has a channel or a channel group. -/
theorem subscribing_nonempty (s : Engine) (ctx : Context)
    (hr : engineMachine.Reachable (fun s a => s.checksLists a = true) s)
    (hs : s.currentState.subscribing = some ctx) : ctx.noSubscribables = false := by
  have hinv : s.NonEmpty := hr.invariant
    ⟨fun _ h => absurd h (by simp [engineMachine, Engine.init, EeState.subscribing]),
      fun _ h => absurd h (by simp [engineMachine, Engine.init])⟩
    fun _ _ _ h hg hst => h.step hg hst
  exact hinv.state ctx hs

/-- A transition that skips the test goes to `handshaking` with the event's context. -/
lemma EeState.transition_of_skipsEmptyCheck {state : EeState} {event : Event}
    (h : state.skipsEmptyCheck event.type = true) :
    (state.transition event).target = some (.handshaking event.data) := by
  obtain ⟨type, data⟩ := event
  cases state <;> cases type <;> first | rfl | exact absurd h (by simp [skipsEmptyCheck])

/-- **The condition is exact.**  A step which does not meet it ends in a state whose context is
    empty. -/
theorem Engine.step_empty_of_not_checksLists {s s' : Engine} {a : Engine.Action}
    (hg : s.checksLists a = false) (hst : s.step a = some s') :
    ∃ ctx, s'.currentState = .handshaking ctx ∧ ctx.noSubscribables = true := by
  cases a with
  | run answer =>
      simp only [Engine.step] at hst
      split at hst
      · exact absurd hst (by simp)
      · exact absurd hst (by simp)
      · rename_i task rest _ hstack
        obtain rfl := Option.some.inj hst
        cases task with
        | handleEvent event =>
            simp only [checksLists, handledEvent, hstack, Option.all_some, Bool.not_eq_false',
              Bool.and_eq_true] at hg
            have ht := EeState.transition_of_skipsEmptyCheck hg.1
            refine ⟨event.data, ?_, hg.2⟩
            simp only [runTask, Engine.handleEvent, ht]
            split <;> rfl
        | _ => exact absurd hg (by simp [checksLists, handledEvent, hstack])
  | _ => exact absurd hg (by simp [checksLists, handledEvent])

/-- A subscription to the channel `a`. -/
def aChannel : Subscription := ⟨0, ⟨.channel, ascii "a"⟩, {}⟩

/-- The steps of a call to `subscribe` up to the heartbeat which it starts. -/
def subscribeRun : List Engine.Action :=
  .api (.subscribe aChannel none) .started :: List.replicate 5 (.run .started)

/-- `subscribing_nonempty` after such a call: the engine is handshaking for the channel. -/
theorem subscribing_nonempty_aChannel :
    ∃ s ctx, engineMachine.Reachable (fun s a => s.checksLists a = true) s ∧
      s.currentState = .handshaking ctx ∧ ctx.noSubscribables = false := by
  obtain ⟨s, hr, hs⟩ := Machine.exists_reachable_of_replay engineMachine
    Engine.checksLists subscribeRun (fun s => s.currentState matches .handshaking _)
    (fun _ _ => id) (by decide)
  cases hst : s.currentState with
  | handshaking ctx => exact ⟨s, ctx, hr, hst, subscribing_nonempty s ctx hr (by rw [hst]; rfl)⟩
  | _ => exact absurd hs (by simp [hst])

/-- The last subscription goes while the engine is stopped, and then it is reconnected. -/
def emptyReconnectRun : List Engine.Action :=
  subscribeRun ++ [.api .disconnect .started, .run .started, .run .started, .run .started,
    .api (.unsubscribe aChannel) .started, .run .started, .run .started,
    .api (.reconnect none) .started, .run .started]

/-- **An empty subscription can be requested**: not every reachable state is fine. -/
theorem subscribing_not_always_nonempty :
    ¬ ∀ s ctx, engineMachine.Reachable Machine.anyStep s →
      s.currentState.subscribing = some ctx → ctx.noSubscribables = false := by
  intro h
  obtain ⟨s, hr, hs⟩ := Machine.exists_reachable_of_replay engineMachine
    (fun _ _ => true) emptyReconnectRun
    (fun s => s.currentState.subscribing.any (·.noSubscribables))
    (fun _ _ _ => trivial) (by decide)
  cases hctx : s.currentState.subscribing with
  | none => exact absurd hs (by simp [hctx])
  | some ctx =>
      have hne := h s ctx hr hctx
      exact absurd hs (by simp [hctx, hne])

end PubNub
