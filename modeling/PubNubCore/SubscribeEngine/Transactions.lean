import PubNubCore.SubscribeEngine.Frame

/-!
# The current transaction is under way

The engine notes in `current_transaction` that a heartbeat or a leave request is under way;
while it is noted, subscribe requests are paused and further leave requests postponed.  The note
is written before the request is prepared, and only the callback of the request erases it.  So a
request whose preparation fails leaves a note which nothing erases.

Apart from that the note tells the truth (`current_transaction_started`): as long as no
preparation fails, a transaction of the noted type has been started and its callback is still to
come, and the callback lets the postponed work go on (`Engine.Released`).
-/

namespace PubNub

/-- The preparation of the request fails. -/
def StartAnswer.isRefused : StartAnswer → Bool
  | .refused _ _ => true
  | _ => false

/-- The request is prepared and the context enqueued. -/
def StartAnswer.isStarted : StartAnswer → Bool
  | .started => true
  | _ => false

namespace Engine

/-- Executing the invocation prepares a heartbeat. -/
def preparesHeartbeat (s : Engine) (id : Nat) : Bool :=
  s.currentTransaction == .none && s.pb.canStart &&
    (s.invocations.find? fun inv => inv.id == id).any fun inv => inv.status == .created &&
      (inv.type == .handshake || inv.type == .receive) && inv.data.sendHeartbeat

/-- No heartbeat and no leave request fails to start in this step.  The only request which a
    call of the user prepares itself is a leave request, and the only one which a callback
    prepares is a postponed leave request; that one must be enqueued as well. -/
def presenceStarts (s : Engine) : Action → Bool
  | .api _ answer => !answer.isRefused
  | .run answer => match s.stack with
      | .exec id :: _ => !s.preparesHeartbeat id || (!answer.isRefused && !s.pb.unread)
      | .callback _ _ :: _ => answer.isStarted
      | _ => true
  | _ => true

/-! ## The invariant -/

/-- A heartbeat or leave transaction of the noted type is under way: the context is at it, or
    waits in the queue for it. -/
def Running (s : Engine) : Prop :=
  (s.currentTransaction = .heartbeat ∨ s.currentTransaction = .leave) ∧
    s.pb.trans = s.currentTransaction ∧
    (s.pb.phase = .busy ∨ s.pb.requeued = true ∧ s.pb.canStart = true)

/-- No transaction is calling back. -/
def NoCallback (tasks : List Task) : Prop := ∀ t r, Task.callback t r ∉ tasks

/-- Nothing is calling back, and a noted transaction is under way. -/
structure Quiet (s : Engine) : Prop where
  noCallback : NoCallback s.stack
  running : s.currentTransaction ≠ .none → s.Running

/-- A transaction is about to call back, and a noted one is the one that does. -/
def Settling (s : Engine) : Prop :=
  ∃ t r rest, s.stack = .callback t r :: rest ∧ NoCallback rest ∧ s.pb.canStart = true ∧
    (s.currentTransaction ≠ .none →
      s.currentTransaction = t ∧ (t = .heartbeat ∨ t = .leave))

variable {s s' : Engine}

lemma NoCallback.append {ts ts' : List Task} (h : NoCallback ts) (h' : NoCallback ts') :
    NoCallback (ts ++ ts') := by
  intro t r hm
  rcases List.mem_append.mp hm with hm | hm
  · exact h t r hm
  · exact h' t r hm

/-- A function which leaves the transaction alone and calls nothing back. -/
lemma Quiet.keep (h : s.Quiet) (ht : s'.currentTransaction = s.currentTransaction)
    (hpb : s'.pb.phase = s.pb.phase ∧ s'.pb.trans = s.pb.trans ∧ s'.pb.requeued = s.pb.requeued)
    (hc : ∀ t r, Task.callback t r ∈ s'.stack → Task.callback t r ∈ s.stack) : s'.Quiet where
  noCallback := fun t r hm => h.noCallback t r (hc t r hm)
  running := fun hne => by
    have hrun := h.running (ht ▸ hne)
    simpa only [Running, PbContext.canStart, ht, hpb.1, hpb.2.1, hpb.2.2] using hrun

lemma Quiet.of_plain (h : s.Quiet) (hp : s.Plain s') : s'.Quiet :=
  h.keep hp.currentTransaction (by simp [hp.pb]) hp.callbacks

/-- Calling tasks that are no callbacks. -/
lemma Quiet.push {tasks : List Task} (h : s.Quiet) (ht : NoCallback tasks) :
    (s.push tasks).Quiet :=
  ⟨ht.append h.noCallback, h.running⟩

/-! ## Starting a transaction -/

/-- What the start of a transaction amounts to when it does not simply fail: it is under way,
    or its callback comes at once. -/
lemma start_cases (pb : PbContext) (t : PubnubTrans) {answer : StartAnswer}
    (ha : answer.isRefused = false) :
    ((pb.start t answer).1.trans = t ∧ (pb.start t answer).1.phase = .busy ∧
        (pb.start t answer).2.2 = []) ∨
      ((pb.start t answer).1.canStart = true ∧
        (pb.start t answer).2.2 = [.callback t .internalError]) := by
  cases answer with
  | refused rslt h => exact absurd ha (by simp [StartAnswer.isRefused])
  | started => exact .inl ⟨rfl, rfl, rfl⟩
  | enqueueFailed => exact .inr ⟨rfl, rfl⟩

/-- A noted transaction that has just been started. -/
lemma settle_presence (pb : PbContext) {t : PubnubTrans} {answer : StartAnswer}
    {tasks : List Task} (h : NoCallback s.stack) (ht : t = .heartbeat ∨ t = .leave)
    (ha : answer.isRefused = false) (htasks : NoCallback tasks)
    (hct : s'.currentTransaction = t) (hpb : s'.pb = (pb.start t answer).1)
    (hstack : s'.stack = (pb.start t answer).2.2 ++ tasks ++ s.stack) :
    s'.Quiet ∨ s'.Settling := by
  rcases start_cases pb t ha with ⟨htrans, hphase, hcalls⟩ | ⟨hcan, hcalls⟩
  · refine .inl ⟨?_, fun _ => ⟨hct ▸ ht, ?_, .inl ?_⟩⟩
    · rw [hstack, hcalls, List.nil_append]
      exact htasks.append h
    · rw [hpb, htrans, hct]
    · rw [hpb, hphase]
  · refine .inr ⟨t, _, tasks ++ s.stack, by rw [hstack, hcalls]; rfl, htasks.append h, ?_,
      fun _ => ⟨hct, ht⟩⟩
    rw [hpb]
    exact hcan

/-- With nothing noted, only the calls matter. -/
lemma settle_subscribe (pb : PbContext) (answer : StartAnswer) (tasks : List Task)
    (h : NoCallback s.stack) (htasks : NoCallback tasks) (hct : s'.currentTransaction = .none)
    (hpb : s'.pb = (pb.pubnubSubscribeV2 answer).1)
    (hstack : s'.stack = (pb.pubnubSubscribeV2 answer).2.2 ++ tasks ++ s.stack) :
    s'.Quiet ∨ s'.Settling := by
  have hcalls : (pb.pubnubSubscribeV2 answer).2.2 = [] ∨
      ((pb.pubnubSubscribeV2 answer).1.canStart = true ∧ (pb.pubnubSubscribeV2 answer).2.2 =
        [.callback .subscribeV2 .internalError]) := by
    rw [PbContext.pubnubSubscribeV2]
    split
    · exact .inl rfl
    · split
      · exact .inl rfl
      · cases answer with
        | refused rslt h => exact .inl rfl
        | started => exact .inl rfl
        | enqueueFailed => exact .inr ⟨rfl, rfl⟩
  rcases hcalls with hc | ⟨hcan, hc⟩
  · refine .inl ⟨?_, fun hne => absurd hct hne⟩
    rw [hstack, hc, List.nil_append]
    exact htasks.append h
  · refine .inr ⟨_, _, tasks ++ s.stack, by rw [hstack, hc]; rfl, htasks.append h, ?_,
      fun hne => absurd hct hne⟩
    rw [hpb]
    exact hcan

/-! ## The effects -/

lemma Quiet.emitMessages (h : s.Quiet) (n : Nat) : (s.emitMessages n).Quiet := by
  rw [Engine.emitMessages]
  have hget : s.pb.pubnubGetV2.1.phase = s.pb.phase ∧ s.pb.pubnubGetV2.1.trans = s.pb.trans ∧
      s.pb.pubnubGetV2.1.requeued = s.pb.requeued := by
    rw [PbContext.pubnubGetV2]
    split <;> exact ⟨rfl, rfl, rfl⟩
  split
  · rename_i pb heq
    rw [heq] at hget
    exact Quiet.push (s := { s with pb := pb }) (h.keep rfl hget fun _ _ => id) (by simp [NoCallback])
  · rename_i pb d heq
    rw [heq] at hget
    split
    · exact Quiet.push (s := ({ s with pb := pb } : Engine).observe (.delivered d))
        (h.keep rfl hget fun _ _ => id) (by simp [NoCallback])
    · exact Quiet.push (s := { s with pb := pb }) (h.keep rfl hget fun _ _ => id)
        (by simp [NoCallback])

/-- A transaction is cancelled only when none is noted. -/
lemma Quiet.cancelEffect (h : s.Quiet) (id : Nat) : (s.cancelEffect id).Quiet := by
  have hone : ∀ paused, NoCallback [Task.effectCompletion id paused] := by simp [NoCallback]
  rw [Engine.cancelEffect]
  split
  · exact h.push (hone true)
  · rename_i hct
    have hnone : s.currentTransaction = .none := by
      by_contra hne
      refine hct ⟨fun hsub => ?_, hne⟩
      rcases (h.running hne).1 with hk | hk <;> exact absurd (hk.symm.trans hsub) (by simp)
    have hq : ∀ (pb : PbContext) (c : Option Nat),
        ({ s with pb := pb, cancelInvocation := c } : Engine).Quiet :=
      fun pb c => ⟨h.noCallback, fun hne => absurd hnone hne⟩
    split
    · exact (hq _ s.cancelInvocation).push (hone false)
    · exact hq _ _
    · exact hq _ _
    · exact hq _ _

lemma Quiet.makeSubscribeRequest (h : s.Quiet) (inv : Invocation) (answer : StartAnswer)
    (ha : s.currentTransaction = .none → s.pb.canStart = true → inv.data.sendHeartbeat = true →
      answer.isRefused = false ∧ s.pb.unread = false) :
    (s.makeSubscribeRequest inv answer).Quiet ∨ (s.makeSubscribeRequest inv answer).Settling := by
  have hone : ∀ paused, NoCallback [Task.effectCompletion inv.id paused] := by simp [NoCallback]
  unfold Engine.makeSubscribeRequest
  split
  · exact .inl (h.push (hone true))
  · rename_i hct
    rw [not_not] at hct
    split
    · rename_i hsend
      split
      · exact .inl (h.push (hone true))
      · rename_i hcan
        rw [Bool.not_eq_true', Bool.not_eq_false] at hcan
        obtain ⟨href, hun⟩ := ha hct hcan hsend
        have heq : s.pb.pubnubHeartbeat answer = s.pb.start .heartbeat answer := by
          simp [PbContext.pubnubHeartbeat, hcan, hun]
        rw [heq]
        exact settle_presence s.pb h.noCallback (.inl rfl) href (hone true) rfl rfl rfl
    · set r := PbContext.pubnubSubscribeV2 { s.pb with cursor := inv.data.cursor } answer
      refine settle_subscribe { s.pb with cursor := inv.data.cursor } answer
        ([Task.effectCompletion inv.id (r.2.1 == .inProgress)] ++
          if r.2.1.isRefusal then [Task.handleSubscribeError r.2.1] else [])
        h.noCallback ((hone _).append ?_) ?_ ?_ ?_
      · split <;> simp [NoCallback]
      · simp [Engine.push, hct]
      · simp [Engine.push, r]
      · simp [Engine.push, r, List.append_assoc]

lemma Quiet.exec (h : s.Quiet) (n : Nat) (answer : StartAnswer)
    (ha : s.preparesHeartbeat n = true → answer.isRefused = false ∧ s.pb.unread = false) :
    (s.exec n answer).Quiet ∨ (s.exec n answer).Settling := by
  unfold Engine.exec
  split
  · exact .inl h
  · rename_i inv hfind
    split
    · rename_i hcreated
      have hup : (s.updateInvocation n fun i => { i with status := .running }).Quiet :=
        h.of_plain (plain_updateInvocation s n fun _ => rfl)
      have hprep : (inv.type = .handshake ∨ inv.type = .receive) → s.currentTransaction = .none →
          s.pb.canStart = true → inv.data.sendHeartbeat = true →
          answer.isRefused = false ∧ s.pb.unread = false := by
        intro htype hct hcan hsend
        refine ha ?_
        rcases htype with htype | htype <;>
          simp [preparesHeartbeat, hct, hcan, hfind, hcreated, htype, hsend]
      dsimp only
      split
      · rename_i htype
        exact hup.makeSubscribeRequest inv answer (hprep (.inl htype))
      · rename_i htype
        exact hup.makeSubscribeRequest inv answer (hprep (.inr htype))
      · exact .inl (hup.of_plain (plain_emitStatusEffect _ _))
      · exact .inl (hup.push (by simp [NoCallback]))
      · exact .inl (hup.cancelEffect n)
    · exact .inl h

/-! ## Leave requests -/

lemma Quiet.leaveOrPostpone (h : s.Quiet) (ch cg : Option Bytes) {answer : StartAnswer}
    (ha : answer.isRefused = false) {tasks : List Task} (htasks : NoCallback tasks) :
    ((s.leaveOrPostpone ch cg answer).1.push ((s.leaveOrPostpone ch cg answer).2 ++ tasks)).Quiet ∨
      ((s.leaveOrPostpone ch cg answer).1.push
        ((s.leaveOrPostpone ch cg answer).2 ++ tasks)).Settling := by
  unfold Engine.leaveOrPostpone
  split
  · rename_i hcan
    have heq : s.pb.pubnubLeave answer = s.pb.pbccLeavePrep.start .leave answer := by
      simp [PbContext.pubnubLeave, hcan]
    rw [heq]
    exact settle_presence s.pb.pbccLeavePrep h.noCallback (.inr rfl) ha htasks
      (by simp [Engine.push]) (by simp [Engine.push]) (by simp [Engine.push])
  · exact .inl (Quiet.push (h.keep rfl ⟨rfl, rfl, rfl⟩ fun _ _ => id) htasks)

lemma Quiet.unsubscribe (h : s.Quiet) (subs : PbhashSet Subscribable) {answer : StartAnswer}
    (ha : answer.isRefused = false) :
    (s.unsubscribe subs answer).Quiet ∨ (s.unsubscribe subs answer).Settling := by
  have hr := h.of_plain (plain_registry s s.registry.updateSubscribables)
  have hsub : NoCallback [Task.subscribe none false true] := by simp [NoCallback]
  unfold Engine.unsubscribe
  dsimp only
  split
  · exact hr.leaveOrPostpone _ _ ha hsub
  · exact .inl (hr.push hsub)

lemma Quiet.unsubscribeAll (h : s.Quiet) {answer : StartAnswer} (ha : answer.isRefused = false) :
    (s.unsubscribeAll answer).Quiet ∨ (s.unsubscribeAll answer).Settling := by
  have hr := h.of_plain (plain_registry s s.registry.removeAll)
  unfold Engine.unsubscribeAll
  dsimp only
  split
  · exact hr.leaveOrPostpone _ _ ha (by simp [NoCallback])
  · exact .inl h

lemma Quiet.followup (h : s.Quiet) (cursor : Option SubscribeCursor) {answer : StartAnswer}
    (ha : answer.isRefused = false) (c : Registry × Followup) :
    (s.followup cursor answer c).Quiet ∨ (s.followup cursor answer c).Settling := by
  obtain ⟨r, f⟩ := c
  have hr := h.of_plain (plain_registry s r)
  cases f with
  | nothing => exact .inl hr
  | subscribe => exact .inl (hr.push (by simp [NoCallback]))
  | unsubscribe subs => exact hr.unsubscribe subs ha

lemma Quiet.api (h : s.Quiet) {answer : StartAnswer} (ha : answer.isRefused = false)
    (call : ApiCall) : (s.api answer call).Quiet ∨ (s.api answer call).Settling := by
  cases call with
  | subscribeSet ref cursor =>
      rw [Engine.api]
      split
      · exact (h.push (by simp [NoCallback])).followup cursor ha _
      · exact .inl h
  | unsubscribeSet ref =>
      rw [Engine.api]
      split
      · exact .inl h
      · split
        · exact (h.push (by simp [NoCallback])).followup none ha _
        · exact .inl h
  | allocSet options length subs => exact .inl (h.of_plain (plain_registry s _))
  | disconnect => exact .inl (h.of_plain (plain_disconnect s))
  | reconnect cursor => exact .inl (h.of_plain (plain_reconnect s _))
  | unsubscribeAll => exact h.unsubscribeAll ha
  | _ =>
      rw [Engine.api]
      exact h.followup _ ha _

/-! ## The callback -/

/-- After `endTransaction` nothing is noted any more. -/
lemma Settling.endTransaction (h : s.Settling) {t : PubnubTrans} {r : PubnubRes}
    {rest : List Task} (hstack : s.stack = .callback t r :: rest) :
    (({ s with stack := rest } : Engine).completeCancel.endTransaction t).Quiet ∧
      (({ s with stack := rest } : Engine).completeCancel.endTransaction t).pb.canStart = true := by
  obtain ⟨t', r', rest', hstack', hno, hcan, hct⟩ := h
  obtain ⟨⟨rfl, rfl⟩, rfl⟩ := by simpa using hstack.symm.trans hstack'
  have hp := plain_completeCancel { s with stack := rest }
  have hnone : (({ s with stack := rest } : Engine).completeCancel.endTransaction t).currentTransaction
      = .none := by
    rw [Engine.endTransaction]
    split
    · rfl
    · rename_i ht
      rw [hp.currentTransaction]
      by_contra hne
      exact ht (hct hne).2
  refine ⟨⟨fun t' r' hm => ?_, fun hne => absurd hnone hne⟩, ?_⟩
  · refine hno t' r' (hp.callbacks t' r' ?_)
    rw [Engine.endTransaction] at hm
    split at hm <;> exact hm
  · rw [Engine.endTransaction]
    split
    · simpa [PbContext.canStart, PbContext.pubnubGet, hp.pb] using hcan
    · rw [hp.pb]
      exact hcan

lemma Quiet.postponedUnsubscribe (h : s.Quiet) (hcan : s.pb.canStart = true) {answer : StartAnswer}
    (ha : answer.isStarted = true) : (s.postponedUnsubscribe answer).1.Quiet := by
  unfold Engine.postponedUnsubscribe
  split
  · exact h
  · split
    · exact h
    · cases answer with
      | started => exact ⟨h.noCallback, fun _ => ⟨.inr rfl, rfl, .inr ⟨rfl, hcan⟩⟩⟩
      | refused rslt hr => exact absurd ha (by simp [StartAnswer.isStarted])
      | enqueueFailed => exact absurd ha (by simp [StartAnswer.isStarted])

lemma Quiet.callbackEvent (h : s.Quiet) (rslt : PubnubRes) : (s.callbackEvent rslt).Quiet := by
  unfold Engine.callbackEvent
  dsimp only
  split
  · exact h.push (by simp [NoCallback])
  · exact h.push (by simp [NoCallback])
  · exact h

lemma Settling.callback (h : s.Settling) {t : PubnubTrans} {r : PubnubRes} {rest : List Task}
    (hstack : s.stack = .callback t r :: rest) {answer : StartAnswer}
    (ha : answer.isStarted = true) :
    (({ s with stack := rest } : Engine).callback t r answer).Quiet := by
  obtain ⟨hq, hcan⟩ := h.endTransaction hstack
  have hpost := hq.postponedUnsubscribe hcan ha
  unfold Engine.callback
  split
  · dsimp only
    split
    · exact hpost
    · split
      · exact hpost.of_plain (plain_processNext _)
      · exact hpost.callbackEvent r
  · rename_i ht
    obtain ⟨t', r', rest', hstack', hno, hcan, hct⟩ := h
    obtain ⟨⟨rfl, rfl⟩, rfl⟩ := by simpa using hstack.symm.trans hstack'
    refine Quiet.callbackEvent ⟨hno, fun hne => ?_⟩ r
    exact absurd (hct hne).2 fun hk => ht (.inr hk)

lemma Quiet.handleEvent (h : s.Quiet) (event : Event) : (s.handleEvent event).Quiet := by
  unfold Engine.handleEvent
  dsimp only
  split
  · exact h
  · split
    · exact h.keep rfl ⟨rfl, rfl, rfl⟩ fun _ _ => id
    · refine Quiet.push (h.keep rfl ⟨rfl, rfl, rfl⟩ fun _ _ => id) fun t r hm => ?_
      split at hm <;> exact absurd hm (by simp)

/-! ## The network -/

lemma Quiet.net (h : s.Quiet) {event : NetEvent} (hn : s.net event = some s') :
    s'.Quiet ∨ s'.Settling := by
  have hbusy : ∀ hne : s.currentTransaction ≠ .none, s.pb.phase = .waitCancel → False := by
    intro hne hw
    rcases (h.running hne).2.2 with hb | ⟨_, hc⟩
    · exact absurd (hb.symm.trans hw) (by simp)
    · simp [PbContext.canStart, hw] at hc
  cases event with
  | fsmStart enqueued =>
      simp only [Engine.net] at hn
      split at hn
      · split at hn
        · rename_i hcan
          split at hn
          · obtain rfl := Option.some.inj hn
            exact .inl ⟨h.noCallback, fun hne =>
              ⟨(h.running hne).1, (h.running hne).2.1, .inl rfl⟩⟩
          · obtain rfl := Option.some.inj hn
            refine .inr ⟨_, _, s.stack, rfl, h.noCallback, rfl, fun hne => ?_⟩
            obtain ⟨hk, ht, _⟩ := h.running hne
            exact ⟨ht.symm, ht ▸ hk⟩
        · rename_i hcan
          obtain rfl := Option.some.inj hn
          refine .inl ⟨h.noCallback, fun hne => ?_⟩
          obtain ⟨hk, ht, hb⟩ := h.running hne
          exact ⟨hk, ht, .inl (hb.resolve_right fun hr => hcan hr.2)⟩
      · exact absurd hn (by simp)
  | retried rslt parsed =>
      simp only [Engine.net, Option.ite_none_right_eq_some, Option.some.injEq] at hn
      obtain ⟨_, rfl⟩ := hn
      exact .inl (h.keep rfl (PbContext.receive_transaction _ _ _) fun _ _ => id)
  | finished rslt keepAlive parsed =>
      simp only [Engine.net, Option.ite_none_right_eq_some, Option.some.injEq] at hn
      obtain ⟨⟨hphase, _⟩, rfl⟩ := hn
      refine .inr ⟨_, _, s.stack, rfl, h.noCallback, ?_, fun hne => ?_⟩
      · cases keepAlive <;> rfl
      · obtain ⟨hk, ht, _⟩ := h.running hne
        have htrans := (PbContext.receive_transaction s.pb rslt parsed).2.1
        exact ⟨ht.symm.trans htrans.symm, htrans ▸ ht ▸ hk⟩
  | cancelled rslt =>
      simp only [Engine.net, Option.ite_none_right_eq_some, Option.some.injEq] at hn
      obtain ⟨⟨hphase, _⟩, rfl⟩ := hn
      exact .inr ⟨_, _, s.stack, rfl, h.noCallback, rfl, fun hne => absurd hphase (hbusy hne)⟩
  | overtaken dropped =>
      simp only [Engine.net, Option.ite_none_right_eq_some, Option.some.injEq] at hn
      obtain ⟨hphase, rfl⟩ := hn
      exact .inl ⟨h.noCallback, fun hne => absurd hphase (hbusy hne)⟩

/-! ## Steps -/

lemma Quiet.run (h : s.Quiet) {task : Task} {rest : List Task} {answer : StartAnswer}
    (hstack : s.stack = task :: rest) (hg : s.presenceStarts (.run answer) = true) :
    (({ s with stack := rest } : Engine).runTask answer task).Quiet ∨
      (({ s with stack := rest } : Engine).runTask answer task).Settling := by
  have hrest : ({ s with stack := rest } : Engine).Quiet :=
    h.keep rfl ⟨rfl, rfl, rfl⟩ fun t r hm => hstack ▸ List.mem_cons_of_mem _ hm
  cases task with
  | exec id =>
      refine hrest.exec id answer fun hprep => ?_
      simp only [presenceStarts, hstack, Bool.or_eq_true, Bool.not_eq_true', Bool.and_eq_true] at hg
      exact hg.resolve_left fun hno => absurd (hprep.symm.trans hno) (by simp)
  | processNext => exact .inl (hrest.of_plain (plain_processNext _))
  | effectCompletion id paused => exact .inl (hrest.of_plain (plain_effectCompletion _ id paused))
  | emitMessages id => exact .inl (hrest.emitMessages id)
  | listener => exact .inl hrest
  | handleEvent event => exact .inl (hrest.handleEvent event)
  | subscribe cursor update sentByEe =>
      exact .inl (hrest.of_plain (plain_subscribe _ cursor update sentByEe))
  | handleSubscribeError rslt => exact .inl (hrest.of_plain (plain_handleSubscribeError _ rslt))
  | callback t r => exact absurd (hstack ▸ List.mem_cons_self) (h.noCallback t r)
  | setSubscribed ref flag => exact .inl (hrest.of_plain (plain_registry _ _))

/-- **Step lemma.** -/
lemma settled_step {a : Action} (h : s.Quiet ∨ s.Settling) (hg : s.presenceStarts a = true)
    (hst : s.step a = some s') : s'.Quiet ∨ s'.Settling := by
  rcases h with h | h
  · cases a with
    | api call answer =>
        simp only [Engine.step, Option.ite_none_right_eq_some, Option.some.injEq] at hst
        obtain ⟨_, rfl⟩ := hst
        exact h.api (by simpa [presenceStarts] using hg) call
    | run answer =>
        simp only [Engine.step] at hst
        split at hst
        · exact absurd hst (by simp)
        · exact absurd hst (by simp)
        · rename_i task rest _ hstack
          obtain rfl := Option.some.inj hst
          exact h.run hstack hg
    | listenerReturns =>
        simp only [Engine.step] at hst
        split at hst
        · rename_i rest hstack
          obtain rfl := Option.some.inj hst
          exact .inl (h.keep rfl ⟨rfl, rfl, rfl⟩ fun t r hm => hstack ▸ List.mem_cons_of_mem _ hm)
        · exact absurd hst (by simp)
    | net event =>
        simp only [Engine.step, Option.ite_none_right_eq_some] at hst
        exact h.net hst.2
  · -- only the callback itself can run
    obtain ⟨t, r, rest, hstack, _⟩ := id h
    cases a with
    | run answer =>
        simp only [Engine.step, hstack, Option.some.injEq] at hst
        subst hst
        exact .inl (h.callback hstack (by simpa [presenceStarts, hstack] using hg))
    | api call answer => exact absurd hst (by simp [Engine.step, userMayCall, hstack])
    | listenerReturns => exact absurd hst (by simp [Engine.step, hstack])
    | net event => exact absurd hst (by simp [Engine.step, hstack])

/-! ## What the callback sets free -/

/-- No leave request is postponed any more, and unless one is under way in its turn the first
    queued invocation is about to be executed. -/
structure Released (s : Engine) : Prop where
  leaves : s.leaveChannels = [] ∧ s.leaveChannelGroups = []
  invocations : s.currentTransaction = .leave ∨ s.currentTransaction = .none ∧
    ∀ inv rest, s.invocations = inv :: rest → s.stack.head? = some (.exec inv.id)

/-- With nothing noted, the postponed leave request is made, or there is none. -/
lemma postponedUnsubscribe_cases (hct : s.currentTransaction = .none) (answer : StartAnswer) :
    ((s.postponedUnsubscribe answer).2 = true ∧
        (s.postponedUnsubscribe answer).1.leaveChannels = [] ∧
        (s.postponedUnsubscribe answer).1.leaveChannelGroups = [] ∧
        (s.postponedUnsubscribe answer).1.currentTransaction = .leave) ∨
      (s.postponedUnsubscribe answer = (s, false) ∧ s.leaveChannels = [] ∧
        s.leaveChannelGroups = []) := by
  unfold Engine.postponedUnsubscribe
  split
  · rename_i hleaves
    exact .inr ⟨rfl, hleaves⟩
  · rw [if_neg (not_not.mpr hct)]
    cases answer <;> exact .inl ⟨rfl, rfl, rfl, rfl⟩

lemma released_callback (s : Engine) {t : PubnubTrans} (ht : t = .heartbeat ∨ t = .leave)
    (rslt : PubnubRes) (answer : StartAnswer) : (s.callback t rslt answer).Released := by
  have hct : (s.completeCancel.endTransaction t).currentTransaction = .none := by
    rw [endTransaction, if_pos ht]
  unfold callback
  rw [if_pos (.inr ht)]
  rcases postponedUnsubscribe_cases hct answer with ⟨h2, hch, hcg, hleave⟩ | ⟨heq, hch, hcg⟩
  · dsimp only
    rw [if_pos h2]
    exact ⟨⟨hch, hcg⟩, .inl hleave⟩
  · rw [heq]
    dsimp only
    rw [if_neg (by simp)]
    split
    · rename_i hne
      obtain ⟨inv, rest, hinv⟩ := List.exists_cons_of_ne_nil hne
      rw [processNext, hinv]
      refine ⟨⟨hch, hcg⟩, .inr ⟨hct, fun inv' rest' heq' => ?_⟩⟩
      obtain ⟨rfl, _⟩ := List.cons.inj (hinv.symm.trans heq')
      rfl
    · rename_i hnil
      rw [not_not] at hnil
      have hinvs : ((s.completeCancel.endTransaction t).callbackEvent rslt).invocations = [] ∧
          ((s.completeCancel.endTransaction t).callbackEvent rslt).currentTransaction = .none ∧
          ((s.completeCancel.endTransaction t).callbackEvent rslt).leaveChannels = [] ∧
          ((s.completeCancel.endTransaction t).callbackEvent rslt).leaveChannelGroups = [] := by
        unfold callbackEvent
        dsimp only
        split <;> exact ⟨hnil, hct, hch, hcg⟩
      exact ⟨hinvs.2.2, .inr ⟨hinvs.2.1, fun inv rest h => absurd (hinvs.1.symm.trans h) (by simp)⟩⟩

end Engine

/-- A subscription to the channel `b`. -/
def bChannel : Subscription := ⟨0, ⟨.channel, ascii "b"⟩, {}⟩

/-- A call of `subscribe`, up to the end of its heartbeat request, which the preparation answers
    with `answer`. -/
def heartbeatRun (answer : StartAnswer) : List Engine.Action :=
  .api (.subscribe bChannel none) .started :: List.replicate 3 (.run .started) ++
    [.run answer, .run .started]

end PubNub
