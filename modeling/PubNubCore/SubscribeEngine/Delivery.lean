import PubNubCore.SubscribeEngine.Frame

/-!
# No message is skipped

The engine acknowledges a subscribe response by asking for what comes after it: the next
subscribe request carries the cursor of the response.  From then on the messages of the response
cannot be had any more, so they should have been handed to the listeners before.

The messages which the engine has received but not handed out yet are in the window of the
PubNub context.  The invariant (`Engine.Accounted`) says of each response whose cursor the engine
holds that what has been handed out of it, followed by what is left of it in the window, is the
whole response; and as a request is only made when the window is empty, nothing is left then.

What breaks it is a step that empties the window behind the engine's back.  The engine has
several of them, and one of its transitions invites them: `HANDSHAKING` stores the cursor of a
handshake response without asking for its messages to be handed out, so that they are still
unread when the connection is cancelled next.  Under the condition that no such step is taken
(`Engine.keepsUnread`) no message is skipped and none is handed out twice
(`delivered_before_request`).
-/

namespace PubNub

/-! ## What has been handed out -/

/-- The message that is handed out. -/
def Observation.delivery? : Observation → Option Delivery
  | .delivered d => some d
  | _ => none

/-- The messages handed out according to a trace, in their order. -/
def deliveredIn (trace : List Observation) : List Delivery :=
  trace.reverse.filterMap Observation.delivery?

lemma deliveredIn_cons (o : Observation) (trace : List Observation) :
    deliveredIn (o :: trace) = deliveredIn trace ++ o.delivery?.toList := by
  cases h : o.delivery? <;> simp [deliveredIn, List.filterMap_append, h]

/-- The messages of one response. -/
def ofResponse (r : Nat) (ds : List Delivery) : List Delivery :=
  ds.filter fun d => d.response == r

@[simp] lemma ofResponse_append (r : Nat) (ds ds' : List Delivery) :
    ofResponse r (ds ++ ds') = ofResponse r ds ++ ofResponse r ds' :=
  List.filter_append ..

lemma ofResponse_eq_nil {r : Nat} {ds : List Delivery} (h : ∀ d ∈ ds, d.response ≠ r) :
    ofResponse r ds = [] :=
  List.filter_eq_nil_iff.mpr fun d hd => by simpa using h d hd

lemma response_of_mem_deliveriesOf {r : Nat} {msgs : List PubnubV2Message} {d : Delivery}
    (h : d ∈ deliveriesOf r msgs) : d.response = r := by
  obtain ⟨x, _, rfl⟩ := List.mem_map.mp h
  rfl

lemma ofResponse_deliveriesOf (r : Nat) (msgs : List PubnubV2Message) :
    ofResponse r (deliveriesOf r msgs) = deliveriesOf r msgs :=
  List.filter_eq_self.mpr fun d hd => by simp [response_of_mem_deliveriesOf hd]

/-- According to the trace, the messages of the response have been handed out: all of them, each
    once and in their order. -/
def HandedOut (responses : List (List PubnubV2Message)) (trace : List Observation) (r : Nat) :
    Prop :=
  ∃ msgs, responses[r]? = some msgs ∧ ofResponse r (deliveredIn trace) = deliveriesOf r msgs

namespace Engine

variable {s s' : Engine}

/-! ## The condition -/

/-- The window holds a message of a response whose cursor the engine holds. -/
def storedUnread (s : Engine) : Bool := s.pb.window.any fun d => s.sources.contains d.response

/-- The success of this transaction is taken for the success of a subscribe request. -/
def fallsThrough (s : Engine) (t : PubnubTrans) (rslt : PubnubRes) : Bool :=
  t != .subscribeV2 && rslt == .ok && s.currentState.subscribing.isSome &&
    ((t != .heartbeat && t != .leave) ||
      (s.leaveChannels.isEmpty && s.leaveChannelGroups.isEmpty &&
        s.completeCancel.invocations.isEmpty))

/-- The step takes no unread message of a stored response out of the window without handing it
    out, and no transaction but a subscribe request makes the engine store a new cursor. -/
def keepsUnread (s : Engine) : Action → Bool
  | .run _ => match s.stack with
      | .emitMessages _ :: _ => match s.pb.window with
          | d :: _ => decide (d.message.payload.length > 0) || !s.sources.contains d.response
          | [] => true
      | .callback t rslt :: _ =>
          ((t != .heartbeat && t != .leave) || !s.storedUnread) &&
            (!s.fallsThrough t rslt || s.pb.cursor.source.all s.sources.contains)
      | _ => true
  | .net (.retried _ parsed) | .net (.finished _ _ parsed) => parsed.isNone || !s.storedUnread
  | .net (.cancelled _) => !s.storedUnread
  | .net (.overtaken dropped) => !dropped || !s.storedUnread
  | _ => true

/-! ## The invariant -/

/-- What has been handed out of the response and what is unread make up the response. -/
def Accounted (s : Engine) (r : Nat) : Prop :=
  ∃ msgs, s.pb.responses[r]? = some msgs ∧
    ofResponse r (deliveredIn s.trace) ++ ofResponse r s.pb.window = deliveriesOf r msgs

/-- Responses whose cursor the engine holds are accounted for, and so were those with whose
    cursor it made a request. -/
structure Conserved (s : Engine) : Prop where
  stored : ∀ r ∈ s.sources, s.Accounted r
  delivered : ∀ d ∈ deliveredIn s.trace, d.response < s.pb.responses.length
  window : ∀ d ∈ s.pb.window, d.response < s.pb.responses.length
  requested : ∀ ctx older, .subscribeRequested ctx :: older <:+ s.trace →
    ∀ r, ctx.cursor.source = some r → HandedOut s.pb.responses older r

/-- No transaction reports success. -/
def NoSuccess (s : Engine) : Prop := ∀ t, Task.callback t .ok ∉ s.stack

/-- A transaction reports success, and the cursor of a subscribe response is accounted for. -/
def Succeeding (s : Engine) : Prop :=
  ∃ t, s.stack = [.callback t .ok] ∧
    (t = .subscribeV2 → ∀ r, s.pb.cursor.source = some r → s.Accounted r)

lemma Accounted.lt {r : Nat} (h : s.Accounted r) : r < s.pb.responses.length := by
  obtain ⟨msgs, hget, _⟩ := h
  exact (List.getElem?_eq_some_iff.mp hget).1

/-- Being accounted for is a matter of the messages alone. -/
lemma Accounted.congr {r : Nat} (h : s.Accounted r) (hr : s'.pb.responses = s.pb.responses)
    (hd : deliveredIn s'.trace = deliveredIn s.trace)
    (hw : ofResponse r s'.pb.window = ofResponse r s.pb.window) : s'.Accounted r := by
  rw [Accounted, hr, hd, hw]
  exact h

/-- With nothing unread, a response that is accounted for has been handed out. -/
lemma Accounted.handedOut {r : Nat} (h : s.Accounted r) (hw : s.pb.window = []) :
    HandedOut s.pb.responses s.trace r := by
  obtain ⟨msgs, hget, heq⟩ := h
  refine ⟨msgs, hget, ?_⟩
  rwa [hw, ofResponse, ofResponse, List.filter_nil, List.append_nil] at heq

lemma not_unread_of_not_storedUnread (h : s.storedUnread = false) {r : Nat} (hr : r ∈ s.sources) :
    ofResponse r s.pb.window = [] := by
  refine ofResponse_eq_nil fun d hd heq => ?_
  simp only [storedUnread, List.any_eq_false] at h
  exact h d hd (by simpa [heq] using hr)

/-! ## Frames -/

/-- What is seen besides messages changes nothing of what has been handed out. -/
lemma deliveredIn_seen {seen : List Observation} {trace : List Observation}
    (h : ∀ o ∈ seen, ∀ d, o ≠ .delivered d) : deliveredIn (seen ++ trace) = deliveredIn trace := by
  induction seen with
  | nil => rfl
  | cons o seen ih =>
      rw [List.cons_append, deliveredIn_cons, ih fun o' ho' => h o' (List.mem_cons_of_mem _ ho')]
      cases o with
      | delivered d => exact absurd rfl (h _ List.mem_cons_self d)
      | _ => simp [Observation.delivery?]

lemma deliveredIn_frame (h : s.Frame s') : deliveredIn s'.trace = deliveredIn s.trace := by
  obtain ⟨seen, htrace, hseen⟩ := h.trace
  rw [htrace]
  exact deliveredIn_seen fun o ho => (hseen o ho).not_delivered

lemma Accounted.of_frame {r : Nat} (h : s.Accounted r) (hf : s.Frame s') : s'.Accounted r :=
  h.congr hf.responses (deliveredIn_frame hf) (by rw [hf.window])

/-- A request that is made in a step is made with everything handed out. -/
lemma Conserved.requested_append (h : s.Conserved) {seen : List Observation}
    (hseen : ∀ o ∈ seen, Seen s o) : ∀ ctx older,
      .subscribeRequested ctx :: older <:+ seen ++ s.trace →
        ∀ r, ctx.cursor.source = some r → HandedOut s.pb.responses older r := by
  induction seen with
  | nil => exact h.requested
  | cons o seen ih =>
      intro ctx older hsuf r hr
      have hseen' : ∀ o' ∈ seen, Seen s o' := fun o' ho' => hseen o' (List.mem_cons_of_mem _ ho')
      rcases List.suffix_cons_iff.mp hsuf with heq | hsuf
      · obtain ⟨rfl, rfl⟩ := List.cons.inj heq
        obtain ⟨hw, hsrc⟩ := (hseen _ List.mem_cons_self).requested ctx rfl
        obtain ⟨msgs, hget, hall⟩ := (h.stored r (hsrc r hr)).handedOut hw
        refine ⟨msgs, hget, ?_⟩
        change ofResponse r (deliveredIn (seen ++ s.trace)) = _
        rwa [deliveredIn_seen fun o' ho' => (hseen' o' ho').not_delivered]
      · exact ih hseen' ctx older hsuf r hr

lemma Conserved.of_frame (h : s.Conserved) (hf : s.Frame s') : s'.Conserved where
  stored := fun r hr => (h.stored r (hf.sources hr)).of_frame hf
  delivered := by
    rw [deliveredIn_frame hf, hf.responses]
    exact h.delivered
  window := by
    rw [hf.window, hf.responses]
    exact h.window
  requested := by
    obtain ⟨seen, htrace, hseen⟩ := hf.trace
    rw [htrace, hf.responses]
    exact h.requested_append hseen

lemma NoSuccess.of_frame (h : s.NoSuccess) (hf : s.Frame s') : s'.NoSuccess := by
  intro t ht
  obtain ⟨tasks, hstack, hint⟩ := hf.calls
  rcases List.mem_append.mp (hstack ▸ ht) with ht | ht
  · exact absurd (hint _ ht).1 (by simp [Task.reportsSuccess])
  · exact h t ht

/-- Changes of other fields, with calls that hold no cursor. -/
lemma Conserved.keep (h : s.Conserved) (hs : ∀ r ∈ s'.sources, r ∈ s.sources)
    (hr : s'.pb.responses = s.pb.responses) (ht : s'.trace = s.trace)
    (hw : s'.pb.window = s.pb.window) : s'.Conserved where
  stored := fun r hmem => (h.stored r (hs r hmem)).congr hr (by rw [ht]) (by rw [hw])
  delivered := by rw [ht, hr]; exact h.delivered
  window := by rw [hw, hr]; exact h.window
  requested := by rw [ht, hr]; exact h.requested

/-- Emptying the window when no message of a stored response is unread. -/
lemma Conserved.clear (h : s.Conserved) (hun : s.storedUnread = false)
    (hs : ∀ r ∈ s'.sources, r ∈ s.sources) (hr : s'.pb.responses = s.pb.responses)
    (ht : s'.trace = s.trace) (hw : s'.pb.window = []) : s'.Conserved where
  stored := fun r hmem => (h.stored r (hs r hmem)).congr hr (by rw [ht])
    (by rw [hw, not_unread_of_not_storedUnread hun (hs r hmem)]; rfl)
  delivered := by rw [ht, hr]; exact h.delivered
  window := by simp [hw]
  requested := by rw [ht, hr]; exact h.requested

/-! ## Handing out messages -/

lemma pubnubGetV2_cases (pb : PbContext) :
    (pb.window = [] ∧ pb.pubnubGetV2 = ({ pb with presenceReply := false }, none)) ∨
      ∃ d rest, pb.window = d :: rest ∧ pb.pubnubGetV2 = ({ pb with window := rest }, some d) := by
  rw [PbContext.pubnubGetV2]
  split
  · exact .inl ⟨by assumption, rfl⟩
  · rename_i d rest hw
    exact .inr ⟨d, rest, hw, rfl⟩

/-- Taking a message out of the window and handing it to the listeners. -/
lemma Conserved.handOut (h : s.Conserved) {d : Delivery} {rest : List Delivery}
    (hw : s.pb.window = d :: rest) :
    (({ s with pb := { s.pb with window := rest } } : Engine).observe (.delivered d)).Conserved where
  stored := by
    intro r hr
    obtain ⟨msgs, hget, heq⟩ := h.stored r hr
    refine ⟨msgs, hget, ?_⟩
    rw [← heq, hw, observe, deliveredIn_cons]
    by_cases hd : d.response = r <;>
      simp [Observation.delivery?, ofResponse, List.filter_append, hd]
  delivered := by
    intro x hx
    rw [observe, deliveredIn_cons] at hx
    rcases List.mem_append.mp hx with hx | hx
    · exact h.delivered x hx
    · obtain rfl : x = d := by simpa [Observation.delivery?, eq_comm] using hx
      exact h.window x (hw ▸ List.mem_cons_self)
  window := fun x hx => h.window x (hw ▸ List.mem_cons_of_mem _ hx)
  requested := by
    intro ctx older hsuf r hr
    rcases List.suffix_cons_iff.mp hsuf with heq | hsuf
    · exact absurd (List.cons.inj heq).1 (by simp)
    · exact h.requested ctx older hsuf r hr

/-- Dropping a message of a response whose cursor is not held. -/
lemma Conserved.drop (h : s.Conserved) {d : Delivery} {rest : List Delivery}
    (hw : s.pb.window = d :: rest) (hd : d.response ∉ s.sources) :
    ({ s with pb := { s.pb with window := rest } } : Engine).Conserved where
  stored := by
    intro r hr
    refine (h.stored r hr).congr rfl rfl ?_
    have hne : d.response ≠ r := fun heq => hd (heq ▸ hr)
    rw [hw, ofResponse, ofResponse, List.filter_cons_of_neg (by simpa using hne)]
  delivered := h.delivered
  window := fun x hx => h.window x (hw ▸ List.mem_cons_of_mem _ hx)
  requested := h.requested

lemma sources_push {tasks : List Task} (ht : ∀ task ∈ tasks, task.source = none) {r : Nat}
    (hr : r ∈ (s.push tasks).sources) : r ∈ s.sources := by
  rcases mem_sources.mp hr with h | h | ⟨task, hmem, h⟩
  · exact mem_sources.mpr (.inl h)
  · exact mem_sources.mpr (.inr (.inl h))
  · rcases List.mem_append.mp hmem with hmem | hmem
    · exact absurd h (by simp [ht task hmem])
    · exact mem_sources.mpr (.inr (.inr ⟨task, hmem, h⟩))

/-- Calling tasks without cursors. -/
lemma Conserved.push (h : s.Conserved) {tasks : List Task}
    (ht : ∀ task ∈ tasks, task.source = none) : (s.push tasks).Conserved :=
  h.keep (fun _ hr => sources_push ht hr) rfl rfl rfl

lemma Conserved.emitMessages (h : s.Conserved) (n : Nat)
    (hg : ∀ d rest, s.pb.window = d :: rest →
      d.message.payload.length > 0 ∨ d.response ∉ s.sources) : (s.emitMessages n).Conserved := by
  rw [Engine.emitMessages]
  rcases pubnubGetV2_cases s.pb with ⟨hw, hget⟩ | ⟨d, rest, hw, hget⟩
  · rw [hget]
    have hkept : ({ s with pb := { s.pb with presenceReply := false } } : Engine).Conserved :=
      h.keep (fun _ hr => hr) rfl rfl rfl
    exact hkept.push (by simp [Task.source])
  · rw [hget]
    dsimp only
    split
    · exact (h.handOut hw).push (by simp [Task.source])
    · rename_i hlen
      exact (h.drop hw ((hg d rest hw).resolve_left hlen)).push (by simp [Task.source])

/-! ## The callback -/

lemma Conserved.endTransaction (h : s.Conserved) {t : PubnubTrans}
    (hg : t = .heartbeat ∨ t = .leave → s.storedUnread = false) :
    (s.endTransaction t).Conserved := by
  rw [Engine.endTransaction]
  split
  · rename_i ht
    exact h.clear (hg ht) (fun _ hr => hr) rfl rfl rfl
  · exact h

lemma Accounted.endTransaction {r : Nat} (h : s.Accounted r) {t : PubnubTrans}
    (hg : t = .heartbeat ∨ t = .leave → ofResponse r s.pb.window = []) :
    (s.endTransaction t).Accounted r := by
  rw [Engine.endTransaction]
  split
  · rename_i ht
    exact h.congr rfl rfl (by rw [hg ht]; rfl)
  · exact h

/-- The events for the callback of a transaction hold the cursor of the current state or, after
    a success, that of the PubNub context. -/
lemma Conserved.callbackEvent (h : s.Conserved) {rslt : PubnubRes}
    (hc : rslt = .ok → s.currentState.subscribing.isSome = true →
      ∀ r, s.pb.cursor.source = some r → s.Accounted r) : (s.callbackEvent rslt).Conserved := by
  have key : ∀ (ctx : Context) {event : Event}, s.currentState.subscribing = some ctx →
      s.currentState.data = some ctx →
      (∀ r, event.data.cursor.source = some r → ctx.cursor.source = some r ∨
        rslt = .ok ∧ s.pb.cursor.source = some r) → (s.push [.handleEvent event]).Conserved := by
    intro ctx event hsub hdata hev
    refine { h with stored := fun r hr => ?_ }
    rcases mem_sources.mp hr with hst | hinv | ⟨task, hmem, hsrc⟩
    · exact h.stored r (mem_sources.mpr (.inl hst))
    · exact h.stored r (mem_sources.mpr (.inr (.inl hinv)))
    · rcases List.mem_cons.mp hmem with rfl | hmem
      · rcases hev r hsrc with hctx | ⟨hok, hpb⟩
        · exact h.stored r (mem_sources.mpr (.inl ⟨ctx, hdata, hctx⟩))
        · exact hc hok (by rw [hsub]; rfl) r hpb
      · exact h.stored r (mem_sources.mpr (.inr (.inr ⟨task, hmem, hsrc⟩)))
  unfold Engine.callbackEvent
  dsimp only
  split
  · rename_i ctx hst
    refine key ctx (by rw [hst]; rfl) (by rw [hst]; rfl) fun r hr => ?_
    split at hr
    · exact .inr ⟨by assumption, hr⟩
    · exact .inl hr
  · rename_i ctx hst
    refine key ctx (by rw [hst]; rfl) (by rw [hst]; rfl) fun r hr => ?_
    split at hr
    · exact .inr ⟨by assumption, hr⟩
    · exact .inl hr
  · exact h

lemma noSuccess_callbackEvent (h : s.NoSuccess) (rslt : PubnubRes) :
    (s.callbackEvent rslt).NoSuccess := by
  unfold Engine.callbackEvent
  dsimp only
  split
  · exact fun t ht => h t (by simpa [Engine.push] using ht)
  · exact fun t ht => h t (by simpa [Engine.push] using ht)
  · exact h

lemma storedUnread_of_frame (hf : s.Frame s') (h : s.storedUnread = false) :
    s'.storedUnread = false := by
  rw [storedUnread, List.any_eq_false] at h ⊢
  intro d hd hmem
  refine h d (hf.window ▸ hd) ?_
  simpa using hf.sources (by simpa using hmem)

/-- A postponed leave request which is not made changes nothing. -/
lemma postponedUnsubscribe_eq {answer : StartAnswer}
    (h : (s.postponedUnsubscribe answer).2 = false) :
    (s.postponedUnsubscribe answer).1 = s ∧ s.leaveChannels = [] ∧ s.leaveChannelGroups = [] := by
  unfold Engine.postponedUnsubscribe at h ⊢
  split
  · rename_i hl
    exact ⟨rfl, hl⟩
  · rename_i hl
    rw [if_neg hl] at h
    split at h
    · exact absurd h (by simp)
    · cases answer <;> exact absurd h (by simp)

lemma Conserved.callback (h : s.Conserved) {t : PubnubTrans} {rslt : PubnubRes}
    {answer : StartAnswer} (hwin : t = .heartbeat ∨ t = .leave → s.storedUnread = false)
    (hfall : s.fallsThrough t rslt = true → ∀ r, s.pb.cursor.source = some r → r ∈ s.sources)
    (hsub : t = .subscribeV2 → rslt = .ok → ∀ r, s.pb.cursor.source = some r → s.Accounted r) :
    (s.callback t rslt answer).Conserved := by
  have hcancel := (plain_completeCancel s).toFrame
  have hend : (s.completeCancel.endTransaction t).Conserved :=
    (h.of_frame hcancel).endTransaction fun ht => storedUnread_of_frame hcancel (hwin ht)
  have hkept : ∀ {f : Engine → Prop}, f { s.completeCancel with
        currentTransaction := .none, pb := s.completeCancel.pb.pubnubGet } → f s.completeCancel →
      f (s.completeCancel.endTransaction t) := by
    intro f h1 h2
    rw [Engine.endTransaction]
    split
    · exact h1
    · exact h2
  unfold Engine.callback
  split
  · rename_i hcond
    have hpost := hend.of_frame (frame_postponedUnsubscribe _ answer)
    dsimp only
    split
    · exact hpost
    · rename_i hno
      rw [Bool.not_eq_true] at hno
      obtain ⟨heq, hch, hcg⟩ := postponedUnsubscribe_eq hno
      split
      · exact hpost.of_frame (plain_processNext _).toFrame
      · rename_i hnil
        rw [heq] at hnil ⊢
        rw [not_not] at hnil
        refine hend.callbackEvent fun hok hstate r hr => ?_
        -- the end of a heartbeat or leave transaction is taken for a response
        have ht : t = .heartbeat ∨ t = .leave := hcond.resolve_left (by simp [hok])
        have hcursor : s.pb.cursor.source = some r := by
          rw [← (plain_completeCancel s).pb]
          exact hkept (f := fun e => e.pb.cursor.source = some r → s.completeCancel.pb.cursor.source
            = some r) id id hr
        have hinvs : s.completeCancel.invocations = [] :=
          hkept (f := fun e => e.invocations = [] → s.completeCancel.invocations = []) id id hnil
        have hleaves : s.leaveChannels = [] ∧ s.leaveChannelGroups = [] := by
          rw [← (plain_completeCancel s).leaves.1, ← (plain_completeCancel s).leaves.2]
          exact hkept (f := fun e => e.leaveChannels = [] ∧ e.leaveChannelGroups = [] →
            s.completeCancel.leaveChannels = [] ∧ s.completeCancel.leaveChannelGroups = [])
            id id ⟨hch, hcg⟩
        have hsubs : s.currentState.subscribing.isSome = true := by
          rw [← hcancel.currentState]
          exact hkept (f := fun e => e.currentState.subscribing.isSome = true →
            s.completeCancel.currentState.subscribing.isSome = true) id id hstate
        have hmem : r ∈ s.sources := by
          refine hfall ?_ r hcursor
          rcases ht with rfl | rfl <;> simp [fallsThrough, hok, hsubs, hleaves, hinvs]
        refine ((h.stored r hmem).of_frame hcancel).endTransaction fun ht => ?_
        rw [hcancel.window]
        exact not_unread_of_not_storedUnread (hwin ht) hmem
  · rename_i hcond
    rw [not_or] at hcond
    refine h.callbackEvent fun hok hstate r hr => ?_
    by_cases ht : t = .subscribeV2
    · exact hsub ht hok r hr
    · refine h.stored r (hfall ?_ r hr)
      rw [not_or] at hcond
      simp [fallsThrough, hok, hstate, ht, hcond.2]

lemma NoSuccess.callback (h : s.NoSuccess) (t : PubnubTrans) (rslt : PubnubRes)
    (answer : StartAnswer) : (s.callback t rslt answer).NoSuccess := by
  have hend : (s.completeCancel.endTransaction t).NoSuccess := by
    have hcancel := h.of_frame (plain_completeCancel s).toFrame
    rw [endTransaction]
    split
    · exact hcancel
    · exact hcancel
  unfold Engine.callback
  split
  · have hpost := hend.of_frame (frame_postponedUnsubscribe _ answer)
    dsimp only
    split
    · exact hpost
    · split
      · exact hpost.of_frame (plain_processNext _).toFrame
      · exact noSuccess_callbackEvent hpost rslt
  · exact noSuccess_callbackEvent h rslt

/-! ## Events -/

/-- The invocations of a transition have the context of its event, or are there to leave the
    current state. -/
lemma source_of_mem_allocInvocations {n : Nat} {state target : EeState} {event : Event}
    (ht : (state.transition event).target = some target) {inv : Invocation}
    (hinv : inv ∈ allocInvocations n
      (transitionInvocations state target (state.transition event).invocation event.data)) :
    inv.data = event.data ∨ state.data = some inv.data := by
  obtain ⟨x, hx, rfl⟩ := List.mem_map.mp hinv
  have hspec : x.1 ∈ transitionInvocations state target (state.transition event).invocation
      event.data := List.fst_mem_of_mem_zipIdx hx
  simp only [transitionInvocations, List.mem_append, Option.mem_toList,
    Option.map_eq_some_iff] at hspec
  rcases hspec with (⟨_, _, hown⟩ | hexit) | henter
  · exact .inl (by rw [← hown])
  · cases state <;> simp [EeState.onExit] at hexit <;> exact .inr (by rw [hexit]; rfl)
  · cases target <;> simp [EeState.onEnter] at henter <;>
      exact .inl (EeState.transition_data ht (by rw [henter]; rfl))

lemma Conserved.handleEvent (h : s.Conserved) {event : Event}
    (hev : ∀ r, event.data.cursor.source = some r → s.Accounted r) :
    (s.handleEvent event).Conserved := by
  unfold Engine.handleEvent
  dsimp only
  split
  · exact h
  · rename_i target ht
    generalize hadded : allocInvocations s.nextInvocation (transitionInvocations s.currentState
      target (s.currentState.transition event).invocation event.data) = added
    have hbase : ∀ s' : Engine, s'.currentState = target →
        s'.invocations = cancelForState s.invocations target ++ added → s'.stack = s.stack →
        s'.pb = s.pb → s'.trace = s.trace → s'.Conserved := by
      intro s' hst hinvs hstack hpb htrace
      refine ⟨fun r hr => ?_, ?_, ?_, ?_⟩
      · have hacc : s.Accounted r := by
          rcases mem_sources.mp hr with ⟨ctx, hctx, hsrc⟩ | ⟨inv, hinv, hsrc⟩ | ⟨task, hm, hsrc⟩
          · exact hev r (EeState.transition_data ht (hst ▸ hctx) ▸ hsrc)
          · rcases List.mem_append.mp (hinvs ▸ hinv) with hinv | hinv
            · refine h.stored r (mem_sources.mpr (.inr (.inl ⟨inv, ?_, hsrc⟩)))
              revert hinv
              cases target <;> first | exact fun h => h | exact List.mem_of_mem_eraseP
            · rcases source_of_mem_allocInvocations ht (hadded ▸ hinv) with heq | hcur
              · exact hev r (heq ▸ hsrc)
              · exact h.stored r (mem_sources.mpr (.inl ⟨_, hcur, hsrc⟩))
          · exact h.stored r (mem_sources.mpr (.inr (.inr ⟨task, hstack ▸ hm, hsrc⟩)))
        exact hacc.congr (by rw [hpb]) (by rw [htrace]) (by rw [hpb])
      · rw [htrace, hpb]; exact h.delivered
      · rw [hpb]; exact h.window
      · rw [htrace, hpb]; exact h.requested
    cases added with
    | nil => exact hbase _ rfl rfl rfl rfl rfl
    | cons inv rest =>
        apply Conserved.push
        · exact hbase _ rfl rfl rfl rfl rfl
        · intro task htask
          split at htask <;> simp at htask <;> rw [htask] <;> rfl

lemma NoSuccess.handleEvent (h : s.NoSuccess) (event : Event) : (s.handleEvent event).NoSuccess := by
  unfold Engine.handleEvent
  dsimp only
  split
  · exact h
  · split
    · exact h
    · refine fun t ht => ?_
      rcases List.mem_cons.mp ht with ht | ht
      · split at ht <;> exact absurd ht (by simp)
      · exact h t ht

/-! ## The network -/

/-- A response parser leaves the messages alone, drops them, or puts those of a new subscribe
    response in their place. -/
lemma receive_cases (pb : PbContext) (rslt : PubnubRes) (parsed : Option SubscribeResponse) :
    ((pb.receive rslt parsed).window = pb.window ∧
        (pb.receive rslt parsed).responses = pb.responses) ∨
      (parsed.isSome = true ∧ (pb.receive rslt parsed).window = [] ∧
        (pb.receive rslt parsed).responses = pb.responses) ∨
      (parsed.isSome = true ∧ ∃ msgs,
        (pb.receive rslt parsed).window = deliveriesOf pb.responses.length msgs ∧
        (pb.receive rslt parsed).responses = pb.responses ++ [msgs]) := by
  cases parsed with
  | none => exact .inl (by cases h : rslt.resetsTimetoken <;> simp [PbContext.receive, h])
  | some response =>
      cases ht : pb.trans with
      | subscribeV2 =>
          refine .inr (.inr ⟨rfl, response.messages, ?_⟩)
          cases h : rslt.resetsTimetoken <;> simp [PbContext.receive, ht, h]
      | leave | heartbeat =>
          refine .inr (.inl ⟨rfl, ?_⟩)
          cases h : rslt.resetsTimetoken <;> simp [PbContext.receive, ht, h]
      | none | other n =>
          exact .inl (by cases h : rslt.resetsTimetoken <;> simp [PbContext.receive, ht, h])

/-- The messages of a new response are unread and none of them has been handed out. -/
lemma Conserved.accounted_new (h : s.Conserved) {msgs : List PubnubV2Message} {pb : PbContext}
    (hw : pb.window = deliveriesOf s.pb.responses.length msgs)
    (hr : pb.responses = s.pb.responses ++ [msgs]) :
    ({ s with pb := pb } : Engine).Accounted s.pb.responses.length := by
  refine ⟨msgs, by simp [hr], ?_⟩
  have hnone : ofResponse s.pb.responses.length (deliveredIn s.trace) = [] :=
    ofResponse_eq_nil fun d hd => Nat.ne_of_lt (h.delivered d hd)
  change ofResponse _ (deliveredIn s.trace) ++ ofResponse _ pb.window = _
  rw [hnone, hw, ofResponse_deliveriesOf, List.nil_append]

/-- What was handed out before stays handed out when responses are added. -/
lemma HandedOut.append {responses more : List (List PubnubV2Message)} {trace : List Observation}
    {r : Nat} (h : HandedOut responses trace r) : HandedOut (responses ++ more) trace r := by
  obtain ⟨msgs, hget, heq⟩ := h
  exact ⟨msgs, by rw [List.getElem?_append_left (List.getElem?_eq_some_iff.mp hget).1, hget], heq⟩

lemma Conserved.receive (h : s.Conserved) {rslt : PubnubRes} {parsed : Option SubscribeResponse}
    (hun : parsed.isSome = true → s.storedUnread = false) :
    ({ s with pb := s.pb.receive rslt parsed } : Engine).Conserved := by
  rcases receive_cases s.pb rslt parsed with ⟨hw, hr⟩ | ⟨hp, hw, hr⟩ | ⟨hp, msgs, hw, hr⟩
  · exact h.keep (fun _ hmem => hmem) hr rfl hw
  · exact h.clear (hun hp) (fun _ hmem => hmem) hr rfl hw
  · refine ⟨fun r hmem => ?_, fun d hd => ?_, fun d hd => ?_, fun ctx older hsuf r hsrc => ?_⟩
    · -- an old response has nothing unread, and the new one has another number
      obtain ⟨old, hget, heq⟩ := h.stored r hmem
      have hlt : r < s.pb.responses.length := (h.stored r hmem).lt
      refine ⟨old, by rw [hr, List.getElem?_append_left hlt, hget], ?_⟩
      rw [not_unread_of_not_storedUnread (hun hp) hmem] at heq
      have hnew : ofResponse r (deliveriesOf s.pb.responses.length msgs) = [] :=
        ofResponse_eq_nil fun d hd => response_of_mem_deliveriesOf hd ▸ Nat.ne_of_gt hlt
      rw [hw, hnew]
      exact heq
    · rw [hr, List.length_append]
      exact Nat.lt_add_right _ (h.delivered d hd)
    · rw [hw] at hd
      rw [hr, List.length_append, response_of_mem_deliveriesOf hd]
      exact Nat.lt_succ_self _
    · rw [hr]
      exact HandedOut.append (h.requested ctx older hsuf r hsrc)

/-- The cursor of a subscribe response that has just been parsed is accounted for. -/
lemma Conserved.accounted_receive (h : s.Conserved) {parsed : Option SubscribeResponse}
    (hp : parsed.isSome = true) (ht : s.pb.trans = .subscribeV2) {r : Nat}
    (hr : (s.pb.receive .ok parsed).cursor.source = some r) :
    ({ s with pb := s.pb.receive .ok parsed } : Engine).Accounted r := by
  obtain ⟨response, rfl⟩ := Option.isSome_iff_exists.mp hp
  have hrec : s.pb.receive .ok (some response) = { s.pb with
      cursor := ⟨response.timetoken, response.region, some s.pb.responses.length⟩
      window := deliveriesOf s.pb.responses.length response.messages
      presenceReply := false
      responses := s.pb.responses ++ [response.messages] } := by
    simp [PbContext.receive, ht, PubnubRes.resetsTimetoken]
  rw [hrec] at hr ⊢
  obtain rfl : s.pb.responses.length = r := by simpa using hr
  exact h.accounted_new rfl rfl

lemma Conserved.net (h : s.Conserved) (hempty : s.stack = []) {event : NetEvent}
    (hg : s.keepsUnread (.net event) = true) (hn : s.net event = some s') :
    s'.Conserved ∧ (s'.NoSuccess ∨ s'.Succeeding) := by
  have hone : ∀ {pb : PbContext} {t : PubnubTrans} {rslt : PubnubRes}, rslt ≠ .ok →
      (({ s with pb := pb } : Engine).push [.callback t rslt]).NoSuccess := by
    intro pb t rslt hne t' ht
    simp only [Engine.push, hempty, List.append_nil, List.mem_singleton] at ht
    exact hne (Task.callback.inj ht).2.symm
  have hnone : ∀ {s' : Engine}, s'.stack = s.stack → s'.NoSuccess := by
    intro s' hstack t ht
    rw [hstack, hempty] at ht
    exact absurd ht List.not_mem_nil
  cases event with
  | fsmStart enqueued =>
      simp only [Engine.net] at hn
      split at hn
      · split at hn
        · split at hn
          · obtain rfl := Option.some.inj hn
            exact ⟨h.keep (fun _ hr => hr) rfl rfl rfl, .inl (hnone rfl)⟩
          · obtain rfl := Option.some.inj hn
            have hkept : ({ s with pb := { s.pb with requeued := false, phase := .idle } } :
                Engine).Conserved :=
              h.keep (fun _ hr => hr) rfl rfl rfl
            exact ⟨hkept.push (by simp [Task.source]), .inl (hone (by simp))⟩
        · obtain rfl := Option.some.inj hn
          exact ⟨h.keep (fun _ hr => hr) rfl rfl rfl, .inl (hnone rfl)⟩
      · exact absurd hn (by simp)
  | retried rslt parsed =>
      simp only [Engine.net, Option.ite_none_right_eq_some, Option.some.injEq] at hn
      obtain ⟨_, rfl⟩ := hn
      refine ⟨h.receive fun hp => ?_, .inl (hnone rfl)⟩
      cases parsed <;> simp_all [keepsUnread]
  | finished rslt keepAlive parsed =>
      simp only [Engine.net, Option.ite_none_right_eq_some, Option.some.injEq] at hn
      obtain ⟨⟨_, hok⟩, rfl⟩ := hn
      have hrec : ({ s with pb := s.pb.receive rslt parsed } : Engine).Conserved := by
        refine h.receive fun hp => ?_
        cases parsed <;> simp_all [keepsUnread]
      have hphase : ∀ phase : PbPhase, ({ s with
          pb := { s.pb.receive rslt parsed with phase := phase } } : Engine).Conserved :=
        fun phase => hrec.keep (fun _ hr => hr) rfl rfl rfl
      refine ⟨(hphase _).push (by simp [Task.source]), ?_⟩
      by_cases hrslt : rslt = .ok
      · subst hrslt
        refine .inr ⟨s.pb.trans, ?_, fun ht r hr => ?_⟩
        · rw [Engine.push, hempty, (PbContext.receive_transaction s.pb .ok parsed).2.1]
          rfl
        · exact (h.accounted_receive (hok rfl) ht hr).congr rfl rfl rfl
      · exact .inl (hone hrslt)
  | cancelled rslt =>
      simp only [Engine.net, Option.ite_none_right_eq_some, Option.some.injEq] at hn
      obtain ⟨⟨_, hne⟩, rfl⟩ := hn
      refine ⟨Conserved.push (s := { s with pb := { s.pb with
        phase := .idle, window := [], presenceReply := false } }) (h.clear ?_ (fun _ hr => hr) rfl
          rfl rfl) (by simp [Task.source]), .inl (hone hne)⟩
      simpa [keepsUnread] using hg
  | overtaken dropped =>
      simp only [Engine.net, Option.ite_none_right_eq_some, Option.some.injEq] at hn
      obtain ⟨_, rfl⟩ := hn
      refine ⟨?_, .inl (hnone rfl)⟩
      cases dropped with
      | false => exact h.keep (fun _ hr => hr) rfl rfl rfl
      | true => exact h.clear (by simpa [keepsUnread] using hg) (fun _ hr => hr) rfl rfl rfl

/-! ## Steps -/

lemma sources_pop {task : Task} {rest : List Task} (hstack : s.stack = task :: rest) {r : Nat}
    (hr : r ∈ ({ s with stack := rest } : Engine).sources) : r ∈ s.sources := by
  rcases mem_sources.mp hr with h | h | ⟨x, hx, h⟩
  · exact mem_sources.mpr (.inl h)
  · exact mem_sources.mpr (.inr (.inl h))
  · exact mem_sources.mpr (.inr (.inr ⟨x, hstack ▸ List.mem_cons_of_mem _ hx, h⟩))

/-- Returning from a call without a cursor loses no cursor. -/
lemma sources_of_pop {task : Task} {rest : List Task} (hstack : s.stack = task :: rest)
    (ht : task.source = none) {r : Nat} (hr : r ∈ s.sources) :
    r ∈ ({ s with stack := rest } : Engine).sources := by
  rcases mem_sources.mp hr with h | h | ⟨x, hx, h⟩
  · exact mem_sources.mpr (.inl h)
  · exact mem_sources.mpr (.inr (.inl h))
  · rcases List.mem_cons.mp (hstack ▸ hx) with rfl | hx
    · exact absurd (ht.symm.trans h) (by simp)
    · exact mem_sources.mpr (.inr (.inr ⟨x, hx, h⟩))

lemma Conserved.pop (h : s.Conserved) {task : Task} {rest : List Task}
    (hstack : s.stack = task :: rest) : ({ s with stack := rest } : Engine).Conserved :=
  h.keep (fun _ hr => sources_pop hstack hr) rfl rfl rfl

lemma fallsThrough_pop (s : Engine) (rest : List Task) (t : PubnubTrans) (rslt : PubnubRes) :
    ({ s with stack := rest } : Engine).fallsThrough t rslt = s.fallsThrough t rslt := by
  have h : ({ s with stack := rest } : Engine).completeCancel.invocations =
      s.completeCancel.invocations := by
    unfold completeCancel handleEffectCompletion isRunning
    dsimp only
    split
    · rfl
    · split <;> rfl
  rw [fallsThrough, fallsThrough, h]

/-- The callback of any transaction. -/
lemma Conserved.runCallback (h : s.Conserved) {t : PubnubTrans} {rslt : PubnubRes}
    {rest : List Task} {answer : StartAnswer} (hstack : s.stack = .callback t rslt :: rest)
    (hg : s.keepsUnread (.run answer) = true)
    (hsub : t = .subscribeV2 → rslt = .ok → ∀ r, s.pb.cursor.source = some r → s.Accounted r) :
    (({ s with stack := rest } : Engine).callback t rslt answer).Conserved := by
  simp only [keepsUnread, hstack, Bool.and_eq_true, Bool.or_eq_true, Bool.not_eq_true',
    bne_iff_ne] at hg
  obtain ⟨hwin, hfall⟩ := hg
  have hpop : ∀ {r}, r ∈ ({ s with stack := rest } : Engine).sources ↔ r ∈ s.sources :=
    ⟨sources_pop hstack, sources_of_pop hstack rfl⟩
  refine (h.pop hstack).callback (fun ht => ?_) (fun hf r hr => ?_) fun ht hok r hr => ?_
  · have hun : s.storedUnread = false := by
      refine hwin.resolve_left fun hne => ?_
      rcases ht with rfl | rfl
      · exact hne.1 rfl
      · exact hne.2 rfl
    rw [storedUnread, List.any_eq_false] at hun ⊢
    intro d hd hmem
    exact hun d hd (by simpa using hpop.mp (by simpa using hmem))
  · rw [fallsThrough_pop] at hf
    have hall := hfall.resolve_left (by simp [hf])
    rw [show s.pb.cursor.source = some r from hr] at hall
    exact hpop.mpr (by simpa using hall)
  · exact (hsub ht hok r hr).congr rfl rfl rfl

lemma Conserved.run (h : s.Conserved) (hno : s.NoSuccess) {task : Task} {rest : List Task}
    {answer : StartAnswer} (hstack : s.stack = task :: rest)
    (hg : s.keepsUnread (.run answer) = true) :
    (({ s with stack := rest } : Engine).runTask answer task).Conserved ∧
      (({ s with stack := rest } : Engine).runTask answer task).NoSuccess := by
  have hrest := h.pop hstack
  have hnorest : ({ s with stack := rest } : Engine).NoSuccess := fun t ht =>
    hno t (hstack ▸ List.mem_cons_of_mem _ ht)
  have hframe : ∀ {s'}, ({ s with stack := rest } : Engine).Frame s' →
      s'.Conserved ∧ s'.NoSuccess := fun hf => ⟨hrest.of_frame hf, hnorest.of_frame hf⟩
  cases task with
  | exec id => exact hframe (frame_exec _ id answer)
  | processNext => exact hframe (plain_processNext _).toFrame
  | effectCompletion id paused => exact hframe (plain_effectCompletion _ id paused).toFrame
  | emitMessages n =>
      refine ⟨hrest.emitMessages n fun d ds hw => ?_, ?_⟩
      · rw [keepsUnread, hstack] at hg
        simp only [show s.pb.window = d :: ds from hw, Bool.or_eq_true, decide_eq_true_eq,
          Bool.not_eq_true', List.contains_eq_mem, decide_eq_false_iff_not] at hg
        exact hg.imp_right fun hd hmem => hd (sources_pop hstack hmem)
      · simp only [runTask, Engine.emitMessages]
        split
        · exact fun t ht => hnorest t (by simpa [Engine.push] using ht)
        · split
          · exact fun t ht => hnorest t (by simpa [Engine.push, observe] using ht)
          · exact fun t ht => hnorest t (by simpa [Engine.push] using ht)
  | listener => exact ⟨hrest, hnorest⟩
  | handleEvent event =>
      refine ⟨hrest.handleEvent fun r hr => ?_, hnorest.handleEvent event⟩
      exact (h.stored r (mem_sources.mpr (.inr (.inr
        ⟨.handleEvent event, hstack ▸ List.mem_cons_self, hr⟩)))).congr rfl rfl rfl
  | subscribe cursor update sentByEe => exact hframe (plain_subscribe _ cursor update sentByEe).toFrame
  | handleSubscribeError rslt => exact hframe (plain_handleSubscribeError _ rslt).toFrame
  | callback t rslt =>
      refine ⟨h.runCallback hstack hg fun _ hok => ?_, hnorest.callback t rslt answer⟩
      subst hok
      exact absurd (hstack ▸ List.mem_cons_self) (hno t)
  | setSubscribed ref flag => exact hframe (plain_registry _ _).toFrame

/-- **Step lemma.** -/
lemma Conserved.step {a : Action} (h : s.Conserved ∧ (s.NoSuccess ∨ s.Succeeding))
    (hg : s.keepsUnread a = true) (hst : s.step a = some s') :
    s'.Conserved ∧ (s'.NoSuccess ∨ s'.Succeeding) := by
  obtain ⟨h, hno | ⟨t, hstack, hsub⟩⟩ := h
  · cases a with
    | api call answer =>
        simp only [Engine.step, Option.ite_none_right_eq_some, Option.some.injEq] at hst
        obtain ⟨_, rfl⟩ := hst
        have hf := frame_api s answer call
        exact ⟨h.of_frame hf, .inl (hno.of_frame hf)⟩
    | run answer =>
        simp only [Engine.step] at hst
        split at hst
        · exact absurd hst (by simp)
        · exact absurd hst (by simp)
        · rename_i task rest _ hstack
          obtain rfl := Option.some.inj hst
          obtain ⟨hc, hn⟩ := h.run hno hstack hg
          exact ⟨hc, .inl hn⟩
    | listenerReturns =>
        simp only [Engine.step] at hst
        split at hst
        · rename_i rest hstack
          obtain rfl := Option.some.inj hst
          exact ⟨h.pop hstack, .inl fun t ht => hno t (hstack ▸ List.mem_cons_of_mem _ ht)⟩
        · exact absurd hst (by simp)
    | net event =>
        simp only [Engine.step, Option.ite_none_right_eq_some] at hst
        exact h.net hst.1 hg hst.2
  · -- only the callback itself can run
    cases a with
    | run answer =>
        simp only [Engine.step, hstack, Option.some.injEq] at hst
        subst hst
        refine ⟨h.runCallback hstack hg fun ht _ => hsub ht, .inl ?_⟩
        exact NoSuccess.callback (s := { s with stack := [] }) (fun _ => List.not_mem_nil) t _ answer
    | api call answer => exact absurd hst (by simp [Engine.step, userMayCall, hstack])
    | listenerReturns => exact absurd hst (by simp [Engine.step, hstack])
    | net event => exact absurd hst (by simp [Engine.step, hstack])

end Engine

/-- Some message. -/
def someMessage : PubnubV2Message := { payload := ascii "1", channel := ascii "c" }

/-- The network answers on a connection that it keeps. -/
def answered (timetoken : String) (messages : List PubnubV2Message) : Engine.Action :=
  .net (.finished .ok true (some ⟨ascii timetoken, 1, messages⟩))

/-- Some calls of the engine to itself. -/
def runs (n : Nat) : List Engine.Action := List.replicate n (.run .started)

/-- A subscription that catches up from the time token 15, whose handshake is answered with
    `messages`; the run ends with the first receive request. -/
def catchUpRun (messages : List PubnubV2Message) : List Engine.Action :=
  .api (.subscribe ⟨0, ⟨.channel, ascii "c"⟩, {}⟩ (some ⟨ascii "15", 1, none⟩)) .started ::
    runs 5 ++ answered "0" [] :: runs 4 ++ answered "16" messages :: runs 4 ++
    .listenerReturns :: runs 3 ++ .net (.cancelled .cancelled) :: runs 2

/-- The first receive request is answered with a message; the run ends with the second one. -/
def receiveRun : List Engine.Action :=
  runs 2 ++ answered "17" [someMessage] :: runs 5 ++ .listenerReturns :: runs 4 ++
    .net (.cancelled .cancelled) :: runs 2

end PubNub
