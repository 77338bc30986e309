import PubNubCore.SubscribeEngine.Engine

/-!
# What the functions of the event engine leave alone

Most functions of the engine change one or two fields and call others.  Here this is said once
for each of them, in three strengths:

* `Plain`: the PubNub context, the current state and the current transaction stay as they are;
* `Frame`: the current state and the window of unread messages stay as they are, but a
  transaction may be started or cancelled;
* in both cases the calls that are made report no success (`Task.reportsSuccess`), and no cursor
  enters the engine that was not in it before (`Engine.sources`).

The functions which are neither (handling an event, handing out messages, the callback and the
network) are the ones where something happens, and the invariants look at them one by one.
-/

namespace PubNub

/-! ## Where cursors are -/

/-- The response from which the cursor in a task was taken. -/
def Task.source : Task → Option Nat
  | .handleEvent event => event.data.cursor.source
  | _ => none

namespace Engine

/-- The responses whose cursors the engine holds: in the context of the current state, in the
    contexts of queued invocations and in the calls that have not returned. -/
def sources (s : Engine) : List Nat :=
  (s.currentState.data.bind (·.cursor.source)).toList ++
    s.invocations.filterMap (·.data.cursor.source) ++ s.stack.filterMap Task.source

lemma mem_sources {s : Engine} {r : Nat} : r ∈ s.sources ↔
    (∃ ctx, s.currentState.data = some ctx ∧ ctx.cursor.source = some r) ∨
      (∃ inv ∈ s.invocations, inv.data.cursor.source = some r) ∨
      ∃ task ∈ s.stack, task.source = some r := by
  simp only [sources, List.mem_append, Option.mem_toList, Option.bind_eq_some_iff,
    List.mem_filterMap, or_assoc]

end Engine

/-- What is seen in a step that hands out no message.  A subscribe request is seen only when no
    message is unread, and with a cursor which the engine holds. -/
structure Seen (s : Engine) (o : Observation) : Prop where
  not_delivered : ∀ d, o ≠ .delivered d
  requested : ∀ ctx, o = .subscribeRequested ctx → s.pb.window = [] ∧
    ∀ r, ctx.cursor.source = some r → r ∈ s.sources

/-! ## Calls that report no success -/

/-- The events which report a response. -/
def EventType.isSuccess : EventType → Bool
  | .handshakeSuccess | .receiveSuccess => true
  | _ => false

/-- The calls by which the engine learns of a successful transaction. -/
def Task.reportsSuccess : Task → Bool
  | .handleEvent event => event.type.isSuccess
  | .callback _ rslt => rslt == .ok
  | _ => false

/-- Calls of the engine to itself: they bring no new cursor and report no success. -/
def Internal (s : Engine) (tasks : List Task) : Prop :=
  ∀ task ∈ tasks, task.reportsSuccess = false ∧ ∀ r, task.source = some r → r ∈ s.sources

lemma internal_nil {s : Engine} : Internal s [] := fun _ h => absurd h List.not_mem_nil

lemma internal_cons {s : Engine} {task : Task} {tasks : List Task}
    (hs : task.reportsSuccess = false) (hr : ∀ r, task.source = some r → r ∈ s.sources)
    (ht : Internal s tasks) : Internal s (task :: tasks) := by
  intro x hx
  rcases List.mem_cons.mp hx with rfl | hx
  · exact ⟨hs, hr⟩
  · exact ht x hx

/-- A call without a cursor. -/
lemma internal_call {s : Engine} {task : Task} {tasks : List Task}
    (hs : task.reportsSuccess = false) (hr : task.source = none) (ht : Internal s tasks) :
    Internal s (task :: tasks) :=
  internal_cons hs (fun r h => absurd (hr.symm.trans h) (by simp)) ht

lemma internal_append {s : Engine} {ts ts' : List Task} (h : Internal s ts)
    (h' : Internal s ts') : Internal s (ts ++ ts') := by
  intro x hx
  rcases List.mem_append.mp hx with hx | hx
  · exact h x hx
  · exact h' x hx

lemma internal_if {s : Engine} {ts : List Task} (c : Prop) [Decidable c] (h : Internal s ts) :
    Internal s (if c then ts else []) := by
  split
  · exact h
  · exact internal_nil

/-- An event made from the context of the current state. -/
lemma internal_event {s : Engine} {event : Event} (hs : event.type.isSuccess = false)
    (hr : ∀ r, event.data.cursor.source = some r →
      s.currentState.data.bind (·.cursor.source) = some r) : Internal s [.handleEvent event] := by
  refine internal_cons hs (fun r h => ?_) internal_nil
  obtain ⟨ctx, hctx, hsrc⟩ := Option.bind_eq_some_iff.mp (hr r h)
  exact Engine.mem_sources.mpr (.inl ⟨ctx, hctx, hsrc⟩)

/-- The cursor of an event to which none was given is the one of the current state. -/
lemma source_eventAlloc {ctx : Option Context} {type : EventType} {lists : EventLists}
    {cursor : Option SubscribeCursor} {reason : Option PubnubRes} {sentByEe : Bool} {r : Nat}
    (h : (eventAlloc ctx type lists cursor reason sentByEe).data.cursor.source = some r) :
    cursor.bind (·.source) = some r ∨ ctx.bind (·.cursor.source) = some r := by
  cases cursor with
  | some c => exact .inl h
  | none =>
      cases ctx with
      | none => exact absurd h (by simp [eventAlloc, contextCopy, contextAlloc, SubscribeCursor.zero])
      | some ctx => exact .inr h

/-- A response parser changes neither the state nor the transaction of the context. -/
lemma PbContext.receive_transaction (pb : PbContext) (rslt : PubnubRes)
    (parsed : Option SubscribeResponse) :
    (pb.receive rslt parsed).phase = pb.phase ∧ (pb.receive rslt parsed).trans = pb.trans ∧
      (pb.receive rslt parsed).requeued = pb.requeued := by
  unfold receive
  dsimp only
  split <;> split <;> exact ⟨rfl, rfl, rfl⟩

/-- **One transition.**  A target that has a context has the one of the event. -/
lemma EeState.transition_data {state target : EeState} {event : Event} {ctx : Context}
    (ht : (state.transition event).target = some target) (hd : target.data = some ctx) :
    ctx = event.data := by
  obtain ⟨type, data⟩ := event
  cases hno : data.noSubscribables <;> cases state <;> cases type <;>
    simp [transition, unsubscribedStateTransition, handshakingStateTransition,
      handshakeFailedStateTransition, handshakeStoppedStateTransition,
      receivingStateTransition, receivingFailedStateTransition,
      receivingStoppedStateTransition, Decision.stay, Decision.withStatus, hno] at ht <;>
    subst ht <;>
    simp [EeState.data, eq_comm] at hd ⊢ <;>
    exact hd

namespace Engine

variable {s s' s'' : Engine}

/-! ## The two frames -/

/-- The current state and the unread messages stay, no cursor enters, and what is called
    reports no success. -/
structure Frame (s s' : Engine) : Prop where
  currentState : s'.currentState = s.currentState
  window : s'.pb.window = s.pb.window
  responses : s'.pb.responses = s.pb.responses
  trace : ∃ seen, s'.trace = seen ++ s.trace ∧ ∀ o ∈ seen, Seen s o
  invocations : ∀ inv ∈ s'.invocations, ∀ r, inv.data.cursor.source = some r → r ∈ s.sources
  calls : ∃ tasks, s'.stack = tasks ++ s.stack ∧ Internal s tasks

/-- Only the queue, the registry and the observations change, and nothing is called back. -/
structure Plain (s s' : Engine) : Prop extends Frame s s' where
  pb : s'.pb = s.pb
  currentTransaction : s'.currentTransaction = s.currentTransaction
  leaves : s'.leaveChannels = s.leaveChannels ∧ s'.leaveChannelGroups = s.leaveChannelGroups
  callbacks : ∀ t r, Task.callback t r ∈ s'.stack → Task.callback t r ∈ s.stack

lemma Frame.sources (h : s.Frame s') {r : Nat} (hr : r ∈ s'.sources) : r ∈ s.sources := by
  rcases mem_sources.mp hr with ⟨ctx, hctx, hsrc⟩ | ⟨inv, hinv, hsrc⟩ | ⟨task, htask, hsrc⟩
  · exact mem_sources.mpr (.inl ⟨ctx, h.currentState ▸ hctx, hsrc⟩)
  · exact h.invocations inv hinv r hsrc
  · obtain ⟨tasks, hstack, hint⟩ := h.calls
    rcases List.mem_append.mp (hstack ▸ htask) with ht | ht
    · exact (hint task ht).2 r hsrc
    · exact mem_sources.mpr (.inr (.inr ⟨task, ht, hsrc⟩))

lemma sources_invocation {inv : Invocation} (hinv : inv ∈ s.invocations) (r : Nat)
    (h : inv.data.cursor.source = some r) : r ∈ s.sources :=
  mem_sources.mpr (.inr (.inl ⟨inv, hinv, h⟩))

/-- A function that changes other fields only. -/
lemma frame_of_eq (hst : s'.currentState = s.currentState) (hw : s'.pb.window = s.pb.window)
    (hr : s'.pb.responses = s.pb.responses) (ht : s'.trace = s.trace)
    (hi : s'.invocations = s.invocations) (hs : s'.stack = s.stack) : s.Frame s' where
  currentState := hst
  window := hw
  responses := hr
  trace := ⟨[], ht, fun _ h => absurd h List.not_mem_nil⟩
  invocations := fun _ hinv => sources_invocation (hi ▸ hinv)
  calls := ⟨[], hs, internal_nil⟩

lemma Frame.refl (s : Engine) : s.Frame s := frame_of_eq rfl rfl rfl rfl rfl rfl

lemma Frame.trans (h : s.Frame s') (h' : s'.Frame s'') : s.Frame s'' where
  currentState := h'.currentState.trans h.currentState
  window := h'.window.trans h.window
  responses := h'.responses.trans h.responses
  trace := by
    obtain ⟨os, ht, ho⟩ := h.trace
    obtain ⟨os', ht', ho'⟩ := h'.trace
    refine ⟨os' ++ os, by rw [ht', ht, List.append_assoc], fun o hmem => ?_⟩
    rcases List.mem_append.mp hmem with hmem | hmem
    · obtain ⟨hnot, hreq⟩ := ho' o hmem
      refine ⟨hnot, fun ctx hctx => ⟨h.window ▸ (hreq ctx hctx).1, fun r hr => ?_⟩⟩
      exact h.sources ((hreq ctx hctx).2 r hr)
    · exact ho o hmem
  invocations := fun inv hinv r hr => h.sources (h'.invocations inv hinv r hr)
  calls := by
    obtain ⟨ts, hs, hi⟩ := h.calls
    obtain ⟨ts', hs', hi'⟩ := h'.calls
    refine ⟨ts' ++ ts, by rw [hs', hs, List.append_assoc], internal_append (fun t ht => ?_) hi⟩
    exact ⟨(hi' t ht).1, fun r hr => h.sources ((hi' t ht).2 r hr)⟩

/-- Calling internal tasks. -/
lemma Frame.push {tasks : List Task} (h : s.Frame s') (hi : Internal s tasks) :
    s.Frame (s'.push tasks) where
  currentState := h.currentState
  window := h.window
  responses := h.responses
  trace := h.trace
  invocations := h.invocations
  calls := by
    obtain ⟨ts, hs, hi'⟩ := h.calls
    exact ⟨tasks ++ ts, by rw [Engine.push, hs, List.append_assoc], internal_append hi hi'⟩

lemma Frame.observe {o : Observation} (h : s.Frame s') (ho : Seen s o) :
    s.Frame (s'.observe o) where
  currentState := h.currentState
  window := h.window
  responses := h.responses
  trace := by
    obtain ⟨os, ht, hos⟩ := h.trace
    refine ⟨o :: os, by rw [Engine.observe, ht, List.cons_append], fun x hx => ?_⟩
    rcases List.mem_cons.mp hx with rfl | hx
    · exact ho
    · exact hos x hx
  invocations := h.invocations
  calls := h.calls

lemma Frame.observe_if {o : Observation} (h : s.Frame s') (c : Prop) [Decidable c]
    (ho : c → Seen s o) : s.Frame (if c then s'.observe o else s') := by
  split
  · rename_i hc
    exact h.observe (ho hc)
  · exact h

section

variable (c : Prop) [Decidable c] (o : Observation)

@[simp] lemma stack_observe_if : (if c then s.observe o else s).stack = s.stack := by split <;> rfl

@[simp] lemma pb_observe_if : (if c then s.observe o else s).pb = s.pb := by split <;> rfl

@[simp] lemma currentTransaction_observe_if :
    (if c then s.observe o else s).currentTransaction = s.currentTransaction := by split <;> rfl

end

lemma Plain.refl (s : Engine) : s.Plain s := ⟨.refl s, rfl, rfl, ⟨rfl, rfl⟩, fun _ _ => id⟩

lemma Plain.trans (h : s.Plain s') (h' : s'.Plain s'') : s.Plain s'' where
  toFrame := h.toFrame.trans h'.toFrame
  pb := h'.pb.trans h.pb
  currentTransaction := h'.currentTransaction.trans h.currentTransaction
  leaves := ⟨h'.leaves.1.trans h.leaves.1, h'.leaves.2.trans h.leaves.2⟩
  callbacks := fun t r hc => h.callbacks t r (h'.callbacks t r hc)

lemma Plain.push {tasks : List Task} (h : s.Plain s') (hi : Internal s tasks)
    (hc : ∀ t r, Task.callback t r ∉ tasks) : s.Plain (s'.push tasks) := by
  refine ⟨h.toFrame.push hi, h.pb, h.currentTransaction, h.leaves, fun t r hr => ?_⟩
  rcases List.mem_append.mp hr with hr | hr
  · exact absurd hr (hc t r)
  · exact h.callbacks t r hr

lemma Plain.observe {o : Observation} (h : s.Plain s') (ho : Seen s o) :
    s.Plain (s'.observe o) :=
  ⟨h.toFrame.observe ho, h.pb, h.currentTransaction, h.leaves, h.callbacks⟩

/-! ## The queue -/

/-- The queue changes, but brings no new cursor. -/
lemma plain_invocations {invs : List Invocation} (cancel : Option Nat)
    (h : ∀ inv ∈ invs, ∃ inv' ∈ s.invocations, inv.data.cursor = inv'.data.cursor) :
    s.Plain { s with invocations := invs, cancelInvocation := cancel } where
  toFrame := { Frame.refl s with
    invocations := fun inv hinv r hr => by
      obtain ⟨inv', hinv', heq⟩ := h inv hinv
      exact sources_invocation hinv' r (heq ▸ hr) }
  pb := rfl
  currentTransaction := rfl
  leaves := ⟨rfl, rfl⟩
  callbacks := fun _ _ => id

lemma plain_updateInvocation (s : Engine) (id : Nat) {f : Invocation → Invocation}
    (hf : ∀ inv, (f inv).data.cursor = inv.data.cursor) : s.Plain (s.updateInvocation id f) := by
  refine plain_invocations s.cancelInvocation fun inv hinv => ?_
  obtain ⟨inv', hinv', rfl⟩ := List.mem_map.mp hinv
  refine ⟨inv', hinv', ?_⟩
  split
  · exact hf inv'
  · rfl

lemma plain_processNext (s : Engine) : s.Plain s.processNext := by
  rw [processNext]
  split
  · exact .refl s
  · exact (Plain.refl s).push (internal_call rfl rfl internal_nil) (by simp)

lemma plain_handleEffectCompletion (s : Engine) (id : Nat) :
    s.Plain (s.handleEffectCompletion id) := by
  rw [handleEffectCompletion]
  split
  · exact plain_invocations s.cancelInvocation fun inv hinv =>
      ⟨inv, List.mem_of_mem_filter hinv, rfl⟩
  · exact .refl s

lemma plain_effectCompletion (s : Engine) (id : Nat) (paused : Bool) :
    s.Plain (s.effectCompletion id paused) := by
  rw [effectCompletion]
  split
  · split
    · exact plain_updateInvocation s id fun _ => rfl
    · exact (plain_handleEffectCompletion s id).push (internal_call rfl rfl internal_nil) (by simp)
  · exact .refl s

lemma plain_completeCancel (s : Engine) : s.Plain s.completeCancel := by
  rw [completeCancel]
  split
  · exact .refl s
  · rename_i id _
    exact (plain_handleEffectCompletion s id).trans
      (plain_invocations _ fun inv hinv => ⟨inv, hinv, rfl⟩)

lemma plain_emitStatusEffect (s : Engine) (inv : Invocation) : s.Plain (s.emitStatusEffect inv) :=
  ((Plain.refl s).observe ⟨by simp, by simp⟩).push
    (internal_call rfl rfl (internal_call rfl rfl internal_nil)) (by simp)

/-! ## Events that come from inside -/

lemma plain_registry (s : Engine) (r : Registry) : s.Plain { s with registry := r } :=
  ⟨frame_of_eq rfl rfl rfl rfl rfl rfl, rfl, rfl,
    ⟨rfl, rfl⟩, fun _ _ => id⟩

lemma plain_handleSubscribeError (s : Engine) (rslt : PubnubRes) :
    s.Plain (s.handleSubscribeError rslt) := by
  rw [handleSubscribeError]
  split
  · rename_i ctx hst
    exact (Plain.refl s).push (internal_event rfl fun r hr => by rw [hst]; exact hr) (by simp)
  · rename_i ctx hst
    exact (Plain.refl s).push (internal_event rfl fun r hr => by rw [hst]; exact hr) (by simp)
  · exact .refl s

lemma plain_disconnect (s : Engine) : s.Plain s.disconnect := by
  have hevent : Internal s [.handleEvent (disconnectEventAlloc s.currentState.data)] :=
    internal_event rfl fun r hr => (source_eventAlloc hr).resolve_left (by simp)
  rw [disconnect]
  split
  all_goals first
    | exact .refl s
    | exact (Plain.refl s).push hevent (by simp)

lemma plain_reconnect (s : Engine) (cursor : SubscribeCursor) : s.Plain (s.reconnect cursor) := by
  have hevent : Internal s
      [.handleEvent (reconnectEventAlloc s.currentState.data cursor.fromUser)] :=
    internal_event rfl fun r hr =>
      (source_eventAlloc hr).resolve_left (by simp [SubscribeCursor.fromUser])
  rw [reconnect]
  split
  all_goals first
    | exact .refl s
    | exact (Plain.refl s).push hevent (by simp)

lemma plain_subscribe (s : Engine) (cursor : Option SubscribeCursor) (update sentByEe : Bool) :
    s.Plain (s.subscribe cursor update sentByEe) := by
  have hreg : s.Plain (if update then { s with registry := s.registry.updateSubscribables }
      else s) := by
    split
    · exact plain_registry s _
    · exact .refl s
  unfold Engine.subscribe
  refine hreg.push ?_ (by simp)
  rw [hreg.currentState]
  split
  · exact internal_event rfl fun r hr => (source_eventAlloc hr).resolve_left (by simp)
  · split
    · exact internal_event rfl fun r hr => (source_eventAlloc hr).resolve_left (by simp)
    · exact internal_event rfl fun r hr =>
        (source_eventAlloc hr).resolve_left (by simp [SubscribeCursor.fromUser])

/-! ## Starting and cancelling transactions -/

/-- A function that changes the PubNub context but not its messages. -/
lemma frame_pb {pb : PbContext} {t : PubnubTrans} (hw : pb.window = s.pb.window)
    (hr : pb.responses = s.pb.responses) : s.Frame { s with pb := pb, currentTransaction := t } :=
  frame_of_eq rfl hw hr rfl rfl rfl

lemma frame_cancelEffect (s : Engine) (id : Nat) : s.Frame (s.cancelEffect id) := by
  have hpb : ∀ (pb : PbContext) (c : Option Nat), pb.window = s.pb.window →
      pb.responses = s.pb.responses → s.Frame { s with pb := pb, cancelInvocation := c } :=
    fun pb c hw hr => frame_of_eq rfl hw hr rfl rfl rfl
  have hone : ∀ paused, Internal s [Task.effectCompletion id paused] := fun _ =>
    internal_call rfl rfl internal_nil
  rw [cancelEffect]
  split
  · exact (Frame.refl s).push (hone true)
  · split
    · exact (hpb { s.pb with trans := .none } s.cancelInvocation rfl rfl).push (hone false)
    · exact hpb _ _ rfl rfl
    · exact hpb _ _ rfl rfl
    · exact hpb _ _ rfl rfl

/-- What starting a transaction keeps of the PubNub context, and what it calls. -/
structure Starts (s : Engine) (pb : PbContext) (r : PbContext × PubnubRes × List Task) : Prop where
  window : r.1.window = pb.window
  responses : r.1.responses = pb.responses
  calls : Internal s r.2.2

lemma starts_nothing (s : Engine) (pb : PbContext) (rslt : PubnubRes) : Starts s pb (pb, rslt, []) :=
  ⟨rfl, rfl, internal_nil⟩

lemma starts_start (s : Engine) (pb : PbContext) (t : PubnubTrans) (answer : StartAnswer) :
    Starts s pb (pb.start t answer) := by
  cases answer with
  | refused rslt h => exact starts_nothing s pb rslt
  | started => exact ⟨rfl, rfl, internal_nil⟩
  | enqueueFailed => exact ⟨rfl, rfl, internal_call rfl rfl internal_nil⟩

lemma starts_heartbeat (s : Engine) (pb : PbContext) (answer : StartAnswer) :
    Starts s pb (pb.pubnubHeartbeat answer) := by
  rw [PbContext.pubnubHeartbeat]
  split
  · exact starts_nothing s pb _
  · split
    · exact starts_nothing s pb _
    · exact starts_start s pb _ answer

lemma starts_subscribeV2 (s : Engine) (pb : PbContext) (answer : StartAnswer) :
    Starts s pb (pb.pubnubSubscribeV2 answer) := by
  rw [PbContext.pubnubSubscribeV2]
  split
  · exact starts_nothing s pb _
  · split
    · exact starts_nothing s pb _
    · obtain ⟨hw, hr, hc⟩ := starts_start s { pb with
        cursor := if pb.cursor.timetoken = [] then { pb.cursor with timetoken := ascii "0" }
          else pb.cursor } .subscribeV2 answer
      exact ⟨hw, hr, hc⟩

lemma starts_leave (s : Engine) (pb : PbContext) (answer : StartAnswer) :
    Starts s pb (pb.pubnubLeave answer) := by
  rw [PbContext.pubnubLeave]
  split
  · exact starts_nothing s pb _
  · obtain ⟨hw, hr, hc⟩ := starts_start s pb.pbccLeavePrep .leave answer
    exact ⟨hw, hr, hc⟩

/-- A subscribe request is started only when no message is unread. -/
lemma window_of_started (pb : PbContext) {answer : StartAnswer}
    (h : (pb.pubnubSubscribeV2 answer).2.1 = .started) : pb.window = [] := by
  rw [PbContext.pubnubSubscribeV2] at h
  split at h
  · exact absurd h (by simp)
  · split at h
    · exact absurd h (by simp)
    · rename_i hun
      simp only [PbContext.unread, Bool.or_eq_true, Bool.not_eq_true', not_or] at hun
      simpa using hun.1

lemma frame_makeSubscribeRequest (s : Engine) {inv : Invocation} (answer : StartAnswer)
    (hinv : ∀ r, inv.data.cursor.source = some r → r ∈ s.sources) :
    s.Frame (s.makeSubscribeRequest inv answer) := by
  have hone : ∀ paused, Internal s [Task.effectCompletion inv.id paused] := fun _ =>
    internal_call rfl rfl internal_nil
  unfold makeSubscribeRequest
  split
  · exact (Frame.refl s).push (hone true)
  · split
    · split
      · exact (Frame.refl s).push (hone true)
      · obtain ⟨hw, hr, hc⟩ := starts_heartbeat s s.pb answer
        refine ((frame_pb (t := .heartbeat) hw hr).trans (plain_updateInvocation _ inv.id (f :=
          fun i => { i with data := { i.data with sendHeartbeat := false } }) ?_).toFrame).push
          (internal_append hc (hone true))
        exact fun _ => rfl
    · obtain ⟨hw, hr, hc⟩ := starts_subscribeV2 s { s.pb with cursor := inv.data.cursor } answer
      have hseen : ({ s.pb with cursor := inv.data.cursor }.pubnubSubscribeV2 answer).2.1
          = .started → Seen s (.subscribeRequested inv.data) := by
        refine fun hstart => ⟨by simp, fun ctx hctx =>
          ⟨window_of_started { s.pb with cursor := inv.data.cursor } hstart, ?_⟩⟩
        exact Observation.subscribeRequested.inj hctx ▸ hinv
      refine ((frame_pb (t := s.currentTransaction) hw hr).observe_if _ hseen).push ?_
      exact internal_append (internal_append hc (hone _))
        (internal_if _ (internal_call rfl rfl internal_nil))

lemma frame_exec (s : Engine) (id : Nat) (answer : StartAnswer) : s.Frame (s.exec id answer) := by
  unfold exec
  split
  · exact .refl s
  · rename_i inv hfind
    split
    · have hup : s.Plain (s.updateInvocation id fun i => { i with status := .running }) :=
        plain_updateInvocation s id fun _ => rfl
      have hinv : ∀ r, inv.data.cursor.source = some r →
          r ∈ (s.updateInvocation id fun i => { i with status := .running }).sources := by
        intro r hr
        refine mem_sources.mpr (.inr (.inl ⟨{ inv with status := .running }, ?_, hr⟩))
        refine List.mem_map.mpr ⟨inv, List.mem_of_find?_eq_some hfind, if_pos ?_⟩
        simpa using List.find?_some hfind
      dsimp only
      split
      · exact hup.toFrame.trans (frame_makeSubscribeRequest _ _ hinv)
      · exact hup.toFrame.trans (frame_makeSubscribeRequest _ _ hinv)
      · exact hup.toFrame.trans (plain_emitStatusEffect _ _).toFrame
      · exact hup.toFrame.push (internal_call rfl rfl internal_nil)
      · exact hup.toFrame.trans (frame_cancelEffect _ _)
    · exact .refl s

lemma frame_leaveOrPostpone (s : Engine) (ch cg : Option Bytes) (answer : StartAnswer) :
    s.Frame (s.leaveOrPostpone ch cg answer).1 ∧ Internal s (s.leaveOrPostpone ch cg answer).2 := by
  unfold leaveOrPostpone
  split
  · obtain ⟨hw, hr, hc⟩ := starts_leave s s.pb answer
    exact ⟨(frame_pb hw hr).observe_if _ fun _ => ⟨by simp, by simp⟩, hc⟩
  · exact ⟨frame_of_eq rfl rfl rfl rfl rfl rfl, internal_nil⟩

lemma frame_postponedUnsubscribe (s : Engine) (answer : StartAnswer) :
    s.Frame (s.postponedUnsubscribe answer).1 := by
  have hpb : ∀ pb : PbContext, pb.window = s.pb.window → pb.responses = s.pb.responses →
      s.Frame { s with
        leaveChannels := [], leaveChannelGroups := [], currentTransaction := .leave, pb := pb } :=
    fun pb hw hr => frame_of_eq rfl hw hr rfl rfl rfl
  unfold postponedUnsubscribe
  split
  · exact .refl s
  · split
    · exact .refl s
    · cases answer with
      | refused rslt h => exact hpb _ rfl rfl
      | started =>
        refine (hpb { s.pb.pbccLeavePrep with trans := .leave, requeued := true } rfl rfl).observe
          (o := .leaveRequested _ _) ⟨?_, ?_⟩ <;> simp
      | enqueueFailed => exact hpb { s.pb.pbccLeavePrep with trans := .leave } rfl rfl

/-! ## The calls of the user -/

lemma frame_unsubscribe (s : Engine) (subs : PbhashSet Subscribable) (answer : StartAnswer) :
    s.Frame (s.unsubscribe subs answer) := by
  have hr := (plain_registry s s.registry.updateSubscribables).toFrame
  have hsub : ∀ s : Engine, Internal s [Task.subscribe none false true] := fun _ =>
    internal_call rfl rfl internal_nil
  unfold unsubscribe
  dsimp only
  split
  · obtain ⟨h1, h2⟩ := frame_leaveOrPostpone
      { s with registry := s.registry.updateSubscribables } _ _ answer
    exact hr.trans (h1.push (internal_append h2 (hsub _)))
  · exact hr.push (internal_append internal_nil (hsub s))

lemma frame_unsubscribeAll (s : Engine) (answer : StartAnswer) :
    s.Frame (s.unsubscribeAll answer) := by
  have hr := (plain_registry s s.registry.removeAll).toFrame
  unfold unsubscribeAll
  dsimp only
  split
  · obtain ⟨h1, h2⟩ := frame_leaveOrPostpone { s with registry := s.registry.removeAll } _ _ answer
    refine hr.trans (h1.push (internal_append h2 (internal_event rfl fun r h => ?_)))
    exact (source_eventAlloc h).resolve_left (by simp)
  · exact .refl s

lemma frame_followup (s : Engine) (cursor : Option SubscribeCursor) (answer : StartAnswer)
    (c : Registry × Followup) : s.Frame (s.followup cursor answer c) := by
  obtain ⟨r, f⟩ := c
  cases f with
  | nothing => exact (plain_registry s r).toFrame
  | subscribe =>
      exact (plain_registry s r).toFrame.push (internal_call rfl rfl internal_nil)
  | unsubscribe subs => exact (plain_registry s r).toFrame.trans (frame_unsubscribe _ subs answer)

lemma frame_api (s : Engine) (answer : StartAnswer) (call : ApiCall) :
    s.Frame (s.api answer call) := by
  cases call with
  | subscribeSet ref cursor =>
      rw [api]
      split
      · exact ((Frame.refl s).push (internal_call rfl rfl internal_nil)).trans
          (frame_followup _ _ _ _)
      · exact .refl s
  | unsubscribeSet ref =>
      rw [api]
      split
      · exact .refl s
      · split
        · exact ((Frame.refl s).push (internal_call rfl rfl internal_nil)).trans
            (frame_followup _ _ _ _)
        · exact .refl s
  | allocSet options length subs => exact (plain_registry s _).toFrame
  | disconnect => exact (plain_disconnect s).toFrame
  | reconnect cursor => exact (plain_reconnect s _).toFrame
  | unsubscribeAll => exact frame_unsubscribeAll s answer
  | _ =>
      rw [api]
      exact frame_followup _ _ _ _

end Engine

end PubNub
