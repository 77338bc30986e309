import PubNubCore.Lib.Machine
import PubNubCore.Api.Functions

/-!
# Sequences of calls

A run of a context: calls of the API, and in between what the state machine does with the
transaction in progress.  Of that only four things matter to what goes on the wire.  The request
is **sent**, possibly more than once (a kept-alive connection turns out to be closed, a proxy wants
to be authorised).  Something is **received** into `core.http_buf`, where the URL is and behind it
the body.  The transaction has an **outcome**, which resets the verb to GET; it may be **retried**
after that, by the timer of the retry configuration.
-/

namespace PubNub

/-- How a request goes to its origin: over a connection of its own, where it may come with a header
    for the authorisation at a proxy, through the tunnel of a proxy, or by the GET method of a
    proxy. -/
inductive Route
  | direct (proxyHeader : Bool)
  | tunnel
  | httpGet
  deriving DecidableEq, Repr

/-- The request carries its body (`HTTP_request_has_body`, and the way leads to the origin). -/
def Route.carriesBody : Route → Bool
  | .direct _ | .tunnel => true
  | .httpGet => false

/-- A header for the proxy takes the place of those that describe the body. -/
def Route.describesBody : Route → Bool
  | .direct proxyHeader => !proxyHeader
  | .tunnel => true
  | .httpGet => false

/-- A step of a run.  `memory` is what stands in the memory of the caller, where
    `core.message_to_send` points, when the body is sent. -/
inductive ApiStep
  | call (f : StartFunction) (a : Preparation)
  | publishEx (o : PublishEx)
  | received (url body : Bytes)
  | send (route : Route) (memory : Bytes)
  | outcome (retry : Bool)

namespace ApiContext

variable (c : ApiContext)

/-- The memory from `core.message_to_send` on. -/
def messageMemory (memory : Bytes) : MessagePtr → Bytes
  | .httpBuf text => text ++ 0 :: memory
  | .gzipMsgBuf => c.gzipMsgBuf ++ memory
  | .caller => memory

/-- The body which `PBS_TX_FIN_HEAD` sends; its length goes through an `uint16_t`. -/
def bodyToSend (memory : Bytes) (ptr : MessagePtr) : Bytes :=
  let text := c.messageMemory memory ptr
  let len := if c.gzipMsgLen ≠ 0 then c.gzipMsgLen else (cString text).length
  text.take (len % 2 ^ 16)

/-- The length which `pbcc_via_post_headers` announces. -/
def announcedLength (memory : Bytes) (ptr : MessagePtr) : Nat :=
  if c.gzipMsgLen ≠ 0 then c.gzipMsgLen else strnlen (cString (c.messageMemory memory ptr))

/-- The request which the states `PBS_TX_...` put on the wire.  Without a message to point to there
    is none. -/
def wireRequest (route : Route) (memory : Bytes) : Option WireRequest :=
  if c.method.hasBody && route.carriesBody then
    c.messageToSend.map fun ptr =>
      { method := c.method
        target := c.httpBuf
        contentLength :=
          if route.describesBody then some (c.announcedLength memory ptr) else none
        contentEncoding := route.describesBody && c.gzipMsgLen ≠ 0
        body := some (c.bodyToSend memory ptr) }
  else
    some
      { method := c.method
        target := c.httpBuf
        contentLength := none
        contentEncoding := false
        body := none }

/-- The request is sent. -/
def send (route : Route) (memory : Bytes) : Option ApiContext :=
  (c.wireRequest route memory).map fun request =>
    { c with sent := ⟨c.asked, c.signed, request⟩ :: c.sent }

/-- Something is received over the URL, and over a body that has been copied behind it. -/
def received (url body : Bytes) : ApiContext :=
  { c with
    httpBuf := url
    messageToSend := c.messageToSend.map fun
      | .httpBuf _ => .httpBuf body
      | ptr => ptr }

/-- `PBNTF_TRANS_OUTCOME_COMMON`, and whether the transaction is retried. -/
def outcome (retry : Bool) : ApiContext := { c with method := .sendViaGET, busy := retry }

/-- One step. -/
def step : ApiStep → Option ApiContext
  | .call f a => if f ∈ startFunctions then some (f.call a c).1 else none
  | .publishEx o => some (o.call c).1
  | .received url body => if c.busy then some (c.received url body) else none
  | .send route memory => if c.busy then c.send route memory else none
  | .outcome retry => if c.busy then some (c.outcome retry) else none

end ApiContext

/-- A context and the calls on it. -/
def apiMachine (publishKey : Bytes) : Machine ApiContext ApiStep where
  init := .init publishKey
  step := ApiContext.step

/-! ## What a call can do -/

/-- What a preparation leaves alone. -/
structure ApiContext.Prepares (c c' : ApiContext) : Prop where
  busy : c'.busy = c.busy
  method : c'.method = c.method
  gzipMsgBuf : c'.gzipMsgBuf = c.gzipMsgBuf
  gzipMsgLen : c'.gzipMsgLen = c.gzipMsgLen
  publishKey : c'.publishKey = c.publishKey
  asked : c'.asked = c.asked
  sent : c'.sent = c.sent

lemma ApiContext.prepares_appendMessageBody (c : ApiContext) (message : Bytes) (ptr : MessagePtr) :
    c.Prepares (c.appendMessageBody message ptr).1 := by
  rw [appendMessageBody]
  split
  · exact ⟨rfl, rfl, rfl, rfl, rfl, rfl, rfl⟩
  · exact ⟨rfl, rfl, rfl, rfl, rfl, rfl, rfl⟩

/-- A body that has been appended is the copy, unless the context holds a packed message. -/
lemma ApiContext.appendMessageBody_started {c : ApiContext} {message : Bytes} {ptr : MessagePtr}
    (h : (c.appendMessageBody message ptr).2 = .started) :
    (c.appendMessageBody message ptr).1.messageToSend =
        some (if c.gzipMsgLen = 0 then .httpBuf message else ptr) ∧
      (c.appendMessageBody message ptr).1.httpBuf = c.httpBuf ∧
      (c.appendMessageBody message ptr).1.signed = c.signed := by
  rw [appendMessageBody] at h ⊢
  split at h
  · cases h
  · rename_i hroom
    rw [if_neg hroom]
    exact ⟨rfl, rfl, rfl⟩

/-- A signature that could not be made is reported, unless something else goes wrong. -/
lemma PrepError.or_ne_started (e : PrepError) (rslt : PubnubRes) :
    (if rslt = .started then e.1 else rslt) ≠ .started := by
  split
  · exact e.2
  · assumption

namespace StartFunction

variable {f : StartFunction} {a : Preparation} {c : ApiContext}

/-- The call finds the context free, and gets as far as the preparation. -/
def admits (f : StartFunction) (a : Preparation) (c : ApiContext) : Bool :=
  !c.busy && (!f.preparesChannels || a.channels = .ok) && (!f.continues || c.trans = f.trans) &&
    (!f.formsObject || a.object = .ok)

/-- The context in which a call prepares its request. -/
def atPrep (f : StartFunction) (c : ApiContext) : ApiContext := f.before c.lock.access

/-- The call starts a transaction. -/
def starts (f : StartFunction) (a : Preparation) (c : ApiContext) : Bool :=
  f.admits a c && (f.prep a (f.atPrep c)).2 = .started

lemma prepares_prep (f : StartFunction) (a : Preparation) (c : ApiContext) :
    c.Prepares (f.prep a c).1 := by
  have happend : ∀ c' : ApiContext, c.Prepares c' →
      c.Prepares (if f.verb.hasBody then c'.appendMessageBody a.text .caller
        else (c', .started)).1 := by
    intro c' h
    split
    · have h' := c'.prepares_appendMessageBody a.text .caller
      exact ⟨h'.busy.trans h.busy, h'.method.trans h.method, h'.gzipMsgBuf.trans h.gzipMsgBuf,
        h'.gzipMsgLen.trans h.gzipMsgLen, h'.publishKey.trans h.publishKey,
        h'.asked.trans h.asked, h'.sent.trans h.sent⟩
    · exact h
  rw [prep]
  cases a.url with
  | error e => exact ⟨rfl, rfl, rfl, rfl, rfl, rfl, rfl⟩
  | ok url =>
      cases a.signature with
      | noKey => exact happend _ ⟨rfl, rfl, rfl, rfl, rfl, rfl, rfl⟩
      | failed e =>
          dsimp only
          split
          · exact happend _ ⟨rfl, rfl, rfl, rfl, rfl, rfl, rfl⟩
          · split
            · exact happend _ ⟨rfl, rfl, rfl, rfl, rfl, rfl, rfl⟩
            · exact ⟨rfl, rfl, rfl, rfl, rfl, rfl, rfl⟩
      | made signature => exact happend _ ⟨rfl, rfl, rfl, rfl, rfl, rfl, rfl⟩

/-- What is signed is made of the parts of the URL. -/
lemma signUrl_text {c : ApiContext} {url : Url} (hbuf : c.httpBuf = url.text) (msg : Bytes) :
    c.signUrl msg = genPamV3Sign c.method c.publishKey url.path url.query msg := by
  have hpath : ∀ x ∈ url.path, (decide (x ≠ 63)) = true := by
    intro x hx
    exact decide_eq_true fun h => url.path_clean (h ▸ hx)
  rw [ApiContext.signUrl, hbuf, Url.text, List.takeWhile_append_of_pos hpath,
    List.dropWhile_append_of_pos hpath]
  simp

/-- **What a preparation that succeeds has left**: the URL, with the signature if there is a secret
    key, and the message. -/
lemma prep_started (h : (f.prep a c).2 = .started) :
    ∃ url, a.url = .ok url ∧
      ((f.prep a c).1.httpBuf = url.text ∧ (f.prep a c).1.signed = none ∨
        ∃ signature, a.signature = .made signature ∧
          (f.prep a c).1.httpBuf = url.text ++ ascii "&signature=" ++ signature ∧
          (f.prep a c).1.signed =
            some (genPamV3Sign c.method c.publishKey url.path url.query
              (if f.verb.hasBody then a.text else []))) ∧
      (f.verb.hasBody = true → (f.prep a c).1.messageToSend =
        some (if c.gzipMsgLen = 0 then .httpBuf a.text else .caller)) := by
  have happend : ∀ c' : ApiContext,
      (if f.verb.hasBody then c'.appendMessageBody a.text .caller else (c', .started)).2 =
        .started →
      let c'' := (if f.verb.hasBody then c'.appendMessageBody a.text .caller
        else (c', .started)).1
      c''.httpBuf = c'.httpBuf ∧ c''.signed = c'.signed ∧ (f.verb.hasBody = true →
        c''.messageToSend = some (if c'.gzipMsgLen = 0 then .httpBuf a.text else .caller)) := by
    intro c' h
    split at h
    · rename_i hb
      obtain ⟨hmsg, hbuf, hsigned⟩ := ApiContext.appendMessageBody_started h
      rw [if_pos hb]
      exact ⟨hbuf, hsigned, fun _ => hmsg⟩
    · rename_i hb
      rw [if_neg hb]
      exact ⟨rfl, rfl, fun hb' => absurd hb' hb⟩
  rw [prep] at h ⊢
  cases hurl : a.url with
  | error e =>
      rw [hurl] at h
      exact absurd h e.2
  | ok url =>
      rw [hurl] at h
      refine ⟨url, rfl, ?_⟩
      cases hsig : a.signature with
      | failed e =>
          rw [hsig] at h
          dsimp only at h ⊢
          split at h
          · rename_i hunsigned
            obtain ⟨hbuf, hsigned, hmsg⟩ := happend _ h
            rw [if_pos hunsigned]
            exact ⟨.inl ⟨hbuf, hsigned⟩, hmsg⟩
          · split at h
            · exact absurd h (PrepError.or_ne_started e _)
            · exact absurd h e.2
      | noKey =>
          rw [hsig] at h
          obtain ⟨hbuf, hsigned, hmsg⟩ := happend _ h
          exact ⟨.inl ⟨hbuf, hsigned⟩, hmsg⟩
      | made signature =>
          rw [hsig] at h
          obtain ⟨hbuf, hsigned, hmsg⟩ := happend _ h
          refine ⟨.inr ⟨signature, rfl, hbuf, ?_⟩, hmsg⟩
          exact hsigned.trans (congrArg some (signUrl_text rfl _))

/-- What is set before the preparation, field by field. -/
lemma atPrep_fields (f : StartFunction) (c : ApiContext) :
    (f.atPrep c).busy = c.busy ∧
      (f.atPrep c).method = (if f.setsVerbBefore then f.verb else c.method) ∧
      (f.atPrep c).gzipMsgBuf = c.gzipMsgBuf ∧ (f.atPrep c).gzipMsgLen = c.gzipMsgLen ∧
      (f.atPrep c).publishKey = c.publishKey ∧ (f.atPrep c).asked = c.asked ∧
      (f.atPrep c).sent = c.sent := by
  rw [atPrep, before]
  cases f.setsVerbBefore
  all_goals
    cases f.setsTransBefore
    all_goals exact ⟨rfl, rfl, rfl, rfl, rfl, rfl, rfl⟩

/-- The call returns without giving the monitor back: the channels could not be noted. -/
def leavesLocked (f : StartFunction) (a : Preparation) (c : ApiContext) : Bool :=
  !c.busy && f.preparesChannels && a.channels ≠ .ok

/-- The context in which a call that starts leaves. -/
def started (f : StartFunction) (a : Preparation) (c : ApiContext) : ApiContext :=
  (f.after (f.prep a (f.atPrep c)).1).fsm (f.asks a) a.callbacks

/-- The ways in which a call can end. -/
inductive Ends (f : StartFunction) (a : Preparation) (c : ApiContext) : ApiContext → Prop
  | locked (h : f.leavesLocked a c = true) : Ends f a c c.lock.access
  | early (c' : ApiContext) (hl : f.leavesLocked a c = false) (hadm : f.admits a c = false)
      (hc : c' = c.lock.access ∨ c' = c.lock.access.access) : Ends f a c c'.unlock
  | failed (hadm : f.admits a c = true) (h : (f.prep a (f.atPrep c)).2 ≠ .started) :
      Ends f a c (f.prep a (f.atPrep c)).1.unlock
  | started (hadm : f.admits a c = true) (h : (f.prep a (f.atPrep c)).2 = .started) :
      Ends f a c (f.started a c).unlock

lemma leavesLocked_of_admits (h : f.admits a c = true) : f.leavesLocked a c = false := by
  simp only [admits, Bool.and_eq_true, Bool.or_eq_true, Bool.not_eq_true', decide_eq_true_eq] at h
  rcases h.1.1.2 with hch | hch
  · simp [leavesLocked, hch]
  · simp [leavesLocked, hch]

/-- The context is in use, or nothing stands in the way of the preparation, or something does. -/
lemma call_of_admits (h : f.admits a c = true) :
    f.call a c = match f.prep a (f.atPrep c) with
      | (c, .started) =>
          (((f.after c).fsm (f.asks a) a.callbacks).unlock,
            ((f.after c).fsm (f.asks a) a.callbacks).lastResult)
      | (c, rslt) => (c.unlock, rslt) := by
  simp only [admits, Bool.and_eq_true, Bool.or_eq_true, Bool.not_eq_true', decide_eq_true_eq] at h
  obtain ⟨⟨⟨hbusy, hch⟩, hcont⟩, hobj⟩ := h
  have h1 : c.lock.access.busy = false := hbusy
  have h2 : (f.preparesChannels && a.channels ≠ .ok : Bool) = false := by
    rcases hch with h | h <;> simp [h]
  have h3 : (f.continues && c.lock.access.trans ≠ f.trans : Bool) = false := by
    rcases hcont with h | h
    · simp [h]
    · simp [show c.lock.access.trans = f.trans from h]
  have h4 : (f.formsObject && a.object ≠ .ok : Bool) = false := by
    rcases hobj with h | h <;> simp [h]
  simp only [call, h1, h2, h3, h4, Bool.false_eq_true, if_false, atPrep] <;> rfl

/-- **How a call ends.** -/
lemma ends_call (f : StartFunction) (a : Preparation) (c : ApiContext) :
    f.Ends a c (f.call a c).1 := by
  by_cases hadm : f.admits a c = true
  · rw [call_of_admits hadm]
    by_cases hr : (f.prep a (f.atPrep c)).2 = .started
    · have hend := Ends.started hadm hr
      rw [StartFunction.started] at hend
      rcases hp : f.prep a (f.atPrep c) with ⟨c', rslt⟩
      rw [hp] at hr hend
      obtain rfl : rslt = .started := hr
      exact hend
    · have hend := Ends.failed hadm hr
      rcases hp : f.prep a (f.atPrep c) with ⟨c', rslt⟩
      rw [hp] at hr hend
      cases rslt
      case started => exact absurd rfl hr
      all_goals exact hend
  · have hadm' : f.admits a c = false := (Bool.not_eq_true _).mp hadm
    rw [call]
    dsimp only
    split
    · rename_i hbusy
      have hbusy : c.busy = true := hbusy
      exact .early _ (by simp [leavesLocked, hbusy]) hadm' (.inl rfl)
    · rename_i hbusy
      have hbusy : c.busy = false := (Bool.not_eq_true c.busy).mp hbusy
      split
      · rename_i hch
        exact .locked (by rw [leavesLocked, hbusy]; simpa using hch)
      · rename_i hch
        have hl : f.leavesLocked a c = false := by
          rw [leavesLocked, hbusy]
          simpa using hch
        split
        · exact .early _ hl hadm' (.inr rfl)
        · rename_i hcont
          split
          · exact .early _ hl hadm' (.inl rfl)
          · rename_i hobj
            refine absurd ?_ hadm
            have hch : f.preparesChannels = false ∨ a.channels = .ok := by
              simpa [Classical.or_iff_not_imp_left] using hch
            have hcont : ¬ (f.continues && c.trans ≠ f.trans : Bool) = true := hcont
            have hcont : f.continues = false ∨ c.trans = f.trans := by
              simpa [Classical.or_iff_not_imp_left] using hcont
            have hobj : f.formsObject = false ∨ a.object = .ok := by
              simpa [Classical.or_iff_not_imp_left] using hobj
            simp [admits, hbusy, hch, hcont, hobj]

/-- A call only touches the monitor, or its preparation fails, or it starts a transaction. -/
lemma call_cases (f : StartFunction) (a : Preparation) (c : ApiContext) :
    (∃ monitor, (f.call a c).1 = { c with monitor }) ∨
    (c.busy = false ∧ (f.prep a (f.atPrep c)).2 ≠ .started ∧
      (f.call a c).1 = (f.prep a (f.atPrep c)).1.unlock) ∨
    (f.starts a c = true ∧ c.busy = false ∧ (f.call a c).1 = (f.started a c).unlock) := by
  have hbusy : f.admits a c = true → c.busy = false := by
    intro hadm
    simp only [admits, Bool.and_eq_true, Bool.not_eq_true'] at hadm
    exact hadm.1.1.1
  have hends := f.ends_call a c
  generalize (f.call a c).1 = c' at hends ⊢
  cases hends with
  | locked h => exact .inl ⟨_, rfl⟩
  | early c' hl hadm hc =>
      left
      rcases hc with rfl | rfl
      · exact ⟨_, rfl⟩
      · exact ⟨_, rfl⟩
  | failed hadm h => exact .inr (.inl ⟨hbusy hadm, h, rfl⟩)
  | started hadm h =>
      exact .inr (.inr ⟨by rw [starts, hadm, h]; rfl, hbusy hadm, rfl⟩)

/-- A call after which a transaction is in progress has started it, or has only touched the
    monitor. -/
lemma call_busy_cases (h : (f.call a c).1.busy = true) :
    (∃ monitor, (f.call a c).1 = { c with monitor }) ∨
    (f.starts a c = true ∧ c.busy = false ∧ (f.call a c).1 = (f.started a c).unlock) := by
  rcases f.call_cases a c with hc | ⟨hbusy, -, hc⟩ | hc
  · exact .inl hc
  · have hfree : (f.prep a (f.atPrep c)).1.unlock.busy = c.busy :=
      (f.prepares_prep a (f.atPrep c)).busy.trans (f.atPrep_fields c).1
    rw [hc, hfree, hbusy] at h
    cases h
  · exact .inr hc

/-- The context of a transaction that has been started, field by field. -/
structure StartedFrom (f : StartFunction) (a : Preparation) (c c' : ApiContext) : Prop where
  busy : c'.busy = true
  method : c'.method = if f.setsVerbBefore || f.setsVerbAfter then f.verb else c.method
  httpBuf : c'.httpBuf = (f.prep a (f.atPrep c)).1.httpBuf
  messageToSend : c'.messageToSend = (f.prep a (f.atPrep c)).1.messageToSend
  gzipMsgLen : c'.gzipMsgLen = c.gzipMsgLen
  publishKey : c'.publishKey = c.publishKey
  asked : c'.asked = f.asks a
  url : c'.url = (f.prep a (f.atPrep c)).1.httpBuf
  signed : c'.signed = (f.prep a (f.atPrep c)).1.signed
  sent : c'.sent = c.sent

lemma startedFrom (f : StartFunction) (a : Preparation) (c : ApiContext) :
    f.StartedFrom a c (f.started a c).unlock := by
  have hprep := f.prepares_prep a (f.atPrep c)
  obtain ⟨-, hmethod, -, hlen, hkey, -, hsent⟩ := f.atPrep_fields c
  have hmethod := hprep.method.trans hmethod
  have hlen := hprep.gzipMsgLen.trans hlen
  have hkey := hprep.publishKey.trans hkey
  have hsent := hprep.sent.trans hsent
  rw [started, after]
  cases hafter : f.setsVerbAfter
  all_goals
    cases f.continues
    all_goals
      refine ⟨rfl, ?_, rfl, rfl, hlen, hkey, rfl, rfl, rfl, hsent⟩
      simp only [hafter, Bool.or_false, Bool.or_true]
      first
        | exact hmethod
        | rfl

/-- The functions which do not write the verb ask for GET. -/
lemma verb_of_mem (hf : f ∈ startFunctions) (hb : f.setsVerbBefore = false)
    (ha : f.setsVerbAfter = false) : f.verb = .sendViaGET := by
  have hall : startFunctions.all fun f =>
      f.setsVerbBefore || f.setsVerbAfter || f.verb = .sendViaGET := by decide
  simpa [hb, ha] using List.all_eq_true.mp hall f hf

end StartFunction

namespace PublishEx

variable {o : PublishEx} {c : ApiContext}

/-- The call starts a transaction. -/
def starts (o : PublishEx) (c : ApiContext) : Bool :=
  !c.busy && !o.encryptFails && (o.prep (o.compress c.lock.access)).2 = .started

lemma compress_fields (o : PublishEx) (c : ApiContext) :
    (o.compress c).busy = c.busy ∧ (o.compress c).method = c.method ∧
      (o.compress c).publishKey = c.publishKey ∧ (o.compress c).asked = c.asked ∧
      (o.compress c).sent = c.sent := by
  rw [compress]
  split
  · cases o.packs
    all_goals exact ⟨rfl, rfl, rfl, rfl, rfl⟩
  · exact ⟨rfl, rfl, rfl, rfl, rfl⟩

lemma prepares_prep (o : PublishEx) (c : ApiContext) : c.Prepares (o.prep c).1 := by
  rw [prep]
  split
  · exact ⟨rfl, rfl, rfl, rfl, rfl, rfl, rfl⟩
  · exact ⟨rfl, rfl, rfl, rfl, rfl, rfl, rfl⟩
  · dsimp only
    split
    · exact ⟨rfl, rfl, rfl, rfl, rfl, rfl, rfl⟩
    · have h := ApiContext.prepares_appendMessageBody
        { c.access with httpBuf := Url.text ‹Url›, signed := none } o.text o.messagePtr
      exact ⟨h.busy, h.method, h.gzipMsgBuf, h.gzipMsgLen, h.publishKey, h.asked, h.sent⟩

/-- A preparation that succeeds signs nothing in the newer way, and has the message at hand where it
    is not part of the URL. -/
lemma prep_started (h : (o.prep c).2 = .started) :
    (o.prep c).1.signed = none ∧ (o.method ≠ .sendViaGET → (o.prep c).1.messageToSend =
      some (if c.gzipMsgLen = 0 then .httpBuf o.text else o.messagePtr)) := by
  rw [prep] at h ⊢
  split at h
  · rename_i e hurl
    exact absurd h e.2
  · rename_i e hurl hsign
    exact absurd h e.2
  · rename_i url hurl hsign
    by_cases hm : o.method = .sendViaGET
    · simp only [if_pos hm]
      exact ⟨trivial, fun hget => absurd hm hget⟩
    · simp only [if_neg hm] at h ⊢
      obtain ⟨hmsg, -, hsigned⟩ := ApiContext.appendMessageBody_started h
      exact ⟨hsigned, fun _ => hmsg⟩

/-- The call returns without giving the monitor back: the message could not be encrypted. -/
def leavesLocked (o : PublishEx) (c : ApiContext) : Bool := !c.busy && o.encryptFails

/-- The context in which a call that starts leaves. -/
def started (o : PublishEx) (c : ApiContext) : ApiContext :=
  ((((o.prep (o.compress c.lock.access)).1.setTrans .publish).setLastResult .started).setMethod
    o.method).fsm o.asks o.callbacks

/-- The ways in which a call can end. -/
inductive Ends (o : PublishEx) (c : ApiContext) : ApiContext → Prop
  | inUse (h : c.busy = true) : Ends o c c.lock.access.unlock
  | locked (hbusy : c.busy = false) (h : o.encryptFails = true) : Ends o c c.lock.access
  | failed (hbusy : c.busy = false) (henc : o.encryptFails = false)
      (h : (o.prep (o.compress c.lock.access)).2 ≠ .started) :
      Ends o c (o.prep (o.compress c.lock.access)).1.unlock
  | started (hbusy : c.busy = false) (henc : o.encryptFails = false)
      (h : (o.prep (o.compress c.lock.access)).2 = .started) : Ends o c (o.started c).unlock

/-- **How a call ends.** -/
lemma ends_call (o : PublishEx) (c : ApiContext) : o.Ends c (o.call c).1 := by
  rw [call]
  dsimp only
  split
  · rename_i hbusy
    exact .inUse hbusy
  · rename_i hbusy
    have hbusy : c.busy = false := (Bool.not_eq_true c.busy).mp hbusy
    split
    · rename_i henc
      exact .locked hbusy henc
    · rename_i henc
      have henc := (Bool.not_eq_true o.encryptFails).mp henc
      by_cases hr : (o.prep (o.compress c.lock.access)).2 = .started
      · have hend := Ends.started hbusy henc hr
        rw [PublishEx.started] at hend
        rcases hp : o.prep (o.compress c.lock.access) with ⟨c', rslt⟩
        rw [hp] at hr hend
        obtain rfl : rslt = .started := hr
        exact hend
      · have hend := Ends.failed hbusy henc hr
        rcases hp : o.prep (o.compress c.lock.access) with ⟨c', rslt⟩
        rw [hp] at hr hend
        cases rslt
        case started => exact absurd rfl hr
        all_goals exact hend

/-- A call only touches the monitor, or its preparation fails, or it starts a transaction. -/
lemma call_cases (o : PublishEx) (c : ApiContext) :
    (∃ monitor, (o.call c).1 = { c with monitor }) ∨
    (c.busy = false ∧ (o.prep (o.compress c.lock.access)).2 ≠ .started ∧
      (o.call c).1 = (o.prep (o.compress c.lock.access)).1.unlock) ∨
    (o.starts c = true ∧ c.busy = false ∧ (o.call c).1 = (o.started c).unlock) := by
  have hends := o.ends_call c
  generalize (o.call c).1 = c' at hends ⊢
  cases hends with
  | inUse h => exact .inl ⟨_, rfl⟩
  | locked hbusy h => exact .inl ⟨_, rfl⟩
  | failed hbusy henc h => exact .inr (.inl ⟨hbusy, h, rfl⟩)
  | started hbusy henc h =>
      refine .inr (.inr ⟨?_, hbusy, rfl⟩)
      simp [starts, hbusy, henc, h]

/-- A call after which a transaction is in progress has started it, or has only touched the
    monitor. -/
lemma call_busy_cases (h : (o.call c).1.busy = true) :
    (∃ monitor, (o.call c).1 = { c with monitor }) ∨
    (o.starts c = true ∧ c.busy = false ∧ (o.call c).1 = (o.started c).unlock) := by
  rcases o.call_cases c with hc | ⟨hbusy, -, hc⟩ | hc
  · exact .inl hc
  · have hfree : (o.prep (o.compress c.lock.access)).1.unlock.busy = c.busy :=
      (o.prepares_prep (o.compress c.lock.access)).busy.trans (o.compress_fields c.lock.access).1
    rw [hc, hfree, hbusy] at h
    cases h
  · exact .inr hc

end PublishEx

/-! ## What a step puts on the wire -/

namespace ApiContext

variable {c c' : ApiContext} {e : ApiStep}

/-- What is on the wire when a request is sent. -/
lemma wireRequest_cases {route : Route} {memory : Bytes} {request : WireRequest}
    (h : c.wireRequest route memory = some request) :
    request.method = c.method ∧ request.target = c.httpBuf ∧
      request.body.isSome = (c.method.hasBody && route.carriesBody) := by
  rw [wireRequest] at h
  split at h
  · rename_i hbody
    obtain ⟨ptr, -, rfl⟩ := Option.map_eq_some_iff.mp h
    exact ⟨rfl, rfl, hbody.symm⟩
  · rename_i hbody
    obtain rfl := Option.some.inj h
    exact ⟨rfl, rfl, (Bool.not_eq_true _ ▸ hbody).symm⟩

/-- A step puts nothing on the wire, or the request of the transaction in progress. -/
lemma sent_step (hst : c.step e = some c') :
    c'.sent = c.sent ∨ ∃ route memory request, e = .send route memory ∧ c.busy = true ∧
      c.wireRequest route memory = some request ∧
      c'.sent = ⟨c.asked, c.signed, request⟩ :: c.sent := by
  cases e with
  | call f a =>
      simp only [step, Option.ite_none_right_eq_some, Option.some.injEq] at hst
      obtain ⟨-, rfl⟩ := hst
      have hprep := (f.prepares_prep a (f.atPrep c)).sent.trans
        (f.atPrep_fields c).2.2.2.2.2.2
      rcases f.call_cases a c with ⟨monitor, hc⟩ | ⟨-, -, hc⟩ | ⟨-, -, hc⟩
      · exact .inl (by rw [hc])
      · exact .inl (by rw [hc]; exact hprep)
      · exact .inl (by rw [hc, (f.startedFrom a c).sent])
  | publishEx o =>
      obtain rfl := Option.some.inj hst
      have hprep := (o.prepares_prep (o.compress c.lock.access)).sent.trans
        (o.compress_fields c.lock.access).2.2.2.2
      rcases o.call_cases c with ⟨monitor, hc⟩ | ⟨-, -, hc⟩ | ⟨-, -, hc⟩
      · exact .inl (by rw [hc])
      · exact .inl (by rw [hc]; exact hprep)
      · exact .inl (by rw [hc]; exact hprep)
  | received url body =>
      simp only [step, Option.ite_none_right_eq_some, Option.some.injEq] at hst
      obtain ⟨-, rfl⟩ := hst
      exact .inl rfl
  | send route memory =>
      simp only [step, Option.ite_none_right_eq_some, send, Option.map_eq_some_iff] at hst
      obtain ⟨hbusy, request, hrequest, rfl⟩ := hst
      exact .inr ⟨route, memory, request, rfl, hbusy, hrequest, rfl⟩
  | outcome retry =>
      simp only [step, Option.ite_none_right_eq_some, Option.some.injEq] at hst
      obtain ⟨-, rfl⟩ := hst
      exact .inl rfl

/-- The publish key stays. -/
lemma publishKey_step (hst : c.step e = some c') : c'.publishKey = c.publishKey := by
  cases e with
  | call f a =>
      simp only [step, Option.ite_none_right_eq_some, Option.some.injEq] at hst
      obtain ⟨-, rfl⟩ := hst
      have hprep := (f.prepares_prep a (f.atPrep c)).publishKey.trans
        (f.atPrep_fields c).2.2.2.2.1
      rcases f.call_cases a c with ⟨monitor, hc⟩ | ⟨-, -, hc⟩ | ⟨-, -, hc⟩
      · rw [hc]
      · rw [hc]
        exact hprep
      · rw [hc]
        exact (f.startedFrom a c).publishKey
  | publishEx o =>
      obtain rfl := Option.some.inj hst
      have hprep := (o.prepares_prep (o.compress c.lock.access)).publishKey.trans
        (o.compress_fields c.lock.access).2.2.1
      rcases o.call_cases c with ⟨monitor, hc⟩ | ⟨-, -, hc⟩ | ⟨-, -, hc⟩
      · rw [hc]
      · rw [hc]
        exact hprep
      · rw [hc]
        exact hprep
  | received url body =>
      simp only [step, Option.ite_none_right_eq_some, Option.some.injEq] at hst
      obtain ⟨-, rfl⟩ := hst
      rfl
  | send route memory =>
      simp only [step, Option.ite_none_right_eq_some, send, Option.map_eq_some_iff] at hst
      obtain ⟨-, request, -, rfl⟩ := hst
      rfl
  | outcome retry =>
      simp only [step, Option.ite_none_right_eq_some, Option.some.injEq] at hst
      obtain ⟨-, rfl⟩ := hst
      rfl

end ApiContext

end PubNub
