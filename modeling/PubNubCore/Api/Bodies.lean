import PubNubCore.Api.Verbs

/-!
# The body of a request

The length of a body is announced by `pbcc_via_post_headers` and the body is sent by the state
machine, and each of them finds out by itself whether the message is packed: it is if
`core.gzip_msg_len` is not zero.

**What goes wrong.**  Only `pubnub_publish_ex` ever resets `gzip_msg_len`, and only when it is
asked to pack.  Every other POST or PATCH that follows a packed one is announced as packed, with the
length of the old message, and points to memory of the caller.  A message beyond
`PUBNUB_MAX_OBJECT_LENGTH` is announced with that length and sent whole.  A crypto module is given
the packed message, and its result is gone when it is sent.  The header for the authorisation at a
proxy takes the place of those that describe the body, and the GET method of a proxy omits the body
itself.  What is received before a request is sent again may cover the copy of the body, and a
retry is a GET.
-/

namespace PubNub

/-- A request that was asked to have a body, or has a verb that wants one, carries the body that was
    asked for, with its length, and is said to be packed exactly if it is. -/
def Sent.BodyRight (s : Sent) : Prop :=
  s.asked.body.isSome = true ∨ s.request.method.hasBody = true →
    ∃ body, s.asked.body = some body ∧ s.request.body = some body ∧
      s.request.contentLength = some body.length ∧ s.request.contentEncoding = s.asked.packed

/-- A copy behind the URL is still the body that was asked for. -/
def MessagePtr.isIntact (body : Option Bytes) : MessagePtr → Bool
  | .httpBuf text => body = some text
  | _ => true

namespace ApiContext

variable {c c' : ApiContext} {e : ApiStep}

/-- **Where the body is the right one**: a body that is not packed is not longer than it may be and
    does not find the length of a packed one in the context; a packed one is not encrypted after
    that.  A call without a body does not find a verb that wants one.  A request with a body is not
    sent with a header for the proxy or by the GET method of a proxy, nothing has been received over
    the copy of it, and it is not retried. -/
def BodyClear (c : ApiContext) : ApiStep → Prop
  | .call f a => f.starts a c = true →
      if f.verb.hasBody then c.gzipMsgLen = 0 ∧ a.text.length ≤ pubnubMaxObjectLength
      else f.setsVerbBefore = true ∨ f.setsVerbAfter = true ∨ c.method.hasBody = false
  | .publishEx o => o.starts c = true → o.method.hasBody = true →
      if o.isPacked then o.cryptoModule = false
      else o.text.length ≤ pubnubMaxObjectLength ∧
        (o.method = .sendViaPOSTwithGZIP ∨ c.gzipMsgLen = 0)
  | .send route _ => c.asked.body.isSome = true →
      route.describesBody = true ∧ c.messageToSend.all (MessagePtr.isIntact c.asked.body) = true
  | .outcome retry => retry = true → c.asked.body = none
  | .received _ _ => True

instance (c : ApiContext) : (e : ApiStep) → Decidable (c.BodyClear e)
  | .call _ _ | .publishEx _ | .send _ _ | .outcome _ => inferInstanceAs (Decidable (_ → _))
  | .received _ _ => inferInstanceAs (Decidable True)

/-- The body that was asked for is at hand: there is none and the verb wants none, or it is a C
    string of at most `limit` bytes which has been copied behind the URL, or it is the packed
    message of the context. -/
inductive HoldsBody (limit : Nat) (c : ApiContext) : Prop
  | none (asked : c.asked.body = none) (verb : c.method.hasBody = false)
  | plain (body copy : Bytes) (asked : c.asked.body = some body) (packed : c.asked.packed = false)
      (verb : c.method.hasBody = true) (ptr : c.messageToSend = some (.httpBuf copy))
      (gzipMsgLen : c.gzipMsgLen = 0) (isCString : 0 ∉ body) (fits : body.length ≤ limit)
  | packed (body : Bytes) (asked : c.asked.body = some body) (packed : c.asked.packed = true)
      (verb : c.method.hasBody = true) (ptr : c.messageToSend = some .gzipMsgBuf)
      (gzipMsgLen : c.gzipMsgLen = body.length) (gzipMsgBuf : c.gzipMsgBuf = body)
      (not_empty : body ≠ []) (fits : body.length ≤ 32000)

/-- While a transaction is in progress, its body is at hand. -/
def BodyKept (c : ApiContext) : Prop := c.busy = true → c.HoldsBody pubnubMaxObjectLength

/-! ## What is sent of it -/

variable {limit : Nat} {route : Route} {memory : Bytes} {request : WireRequest}

lemma messageMemory_httpBuf {body : Bytes} (hstr : 0 ∉ body) :
    cString (c.messageMemory memory (.httpBuf body)) = body :=
  cString_append_zero hstr memory

/-- The body of a context that has it at hand is sent, where the request carries it. -/
lemma HoldsBody.request_body (h : c.HoldsBody limit) (hlimit : limit < 2 ^ 16)
    (hcarries : c.asked.body.isSome = true → route.carriesBody = true ∧
      c.messageToSend.all (MessagePtr.isIntact c.asked.body) = true)
    (hrequest : c.wireRequest route memory = some request) : request.body = c.asked.body := by
  cases h with
  | none asked verb =>
      rw [wireRequest, verb, Bool.false_and, if_neg Bool.false_ne_true] at hrequest
      obtain rfl := Option.some.inj hrequest
      exact asked.symm
  | plain body copy asked packed verb ptr len str fits =>
      obtain ⟨hroute, hintact⟩ := hcarries (by rw [asked]; rfl)
      have hsame : copy = body := by
        rw [ptr, asked] at hintact
        simpa [MessagePtr.isIntact, eq_comm] using hintact
      subst hsame
      have hmod : copy.length % 2 ^ 16 = copy.length := Nat.mod_eq_of_lt (by omega)
      have hsent : c.bodyToSend memory (.httpBuf copy) = copy := by
        simp only [bodyToSend, len, ne_eq, not_true_eq_false, if_false, messageMemory_httpBuf str,
          hmod]
        exact List.take_left
      rw [wireRequest, verb, hroute, Bool.true_and, if_pos rfl, ptr] at hrequest
      obtain rfl := Option.some.inj hrequest
      exact (congrArg some hsent).trans asked.symm
  | packed body asked packed verb ptr len buf hne fits =>
      obtain ⟨hroute, -⟩ := hcarries (by rw [asked]; rfl)
      have hpos : c.gzipMsgLen ≠ 0 := fun h0 => hne (List.eq_nil_of_length_eq_zero (len ▸ h0))
      have hmod : body.length % 2 ^ 16 = body.length := Nat.mod_eq_of_lt (by omega)
      have hsent : c.bodyToSend memory .gzipMsgBuf = body := by
        simp only [bodyToSend, if_pos hpos]
        rw [len, hmod, messageMemory, buf]
        exact List.take_left
      rw [wireRequest, verb, hroute, Bool.true_and, if_pos rfl, ptr] at hrequest
      obtain rfl := Option.some.inj hrequest
      exact (congrArg some hsent).trans asked.symm

/-- The headers of a context that has its body at hand say what the body is. -/
lemma HoldsBody.request_headers {body : Bytes} (h : c.HoldsBody pubnubMaxObjectLength)
    (hbody : c.asked.body = some body) (hroute : route.describesBody = true)
    (hcarries : route.carriesBody = true)
    (hintact : c.messageToSend.all (MessagePtr.isIntact c.asked.body) = true)
    (hrequest : c.wireRequest route memory = some request) :
    request.contentLength = some body.length ∧ request.contentEncoding = c.asked.packed := by
  cases h with
  | none asked verb =>
      rw [asked] at hbody
      cases hbody
  | plain body' copy asked packed verb ptr len str fits =>
      obtain rfl : body' = body := Option.some.inj (asked.symm.trans hbody)
      have hsame : copy = body' := by
        rw [ptr, asked] at hintact
        simpa [MessagePtr.isIntact, eq_comm] using hintact
      subst hsame
      have hlen : c.announcedLength memory (.httpBuf copy) = copy.length := by
        simp only [announcedLength, len, ne_eq, not_true_eq_false, if_false,
          messageMemory_httpBuf str]
        exact Nat.min_eq_left fits
      rw [wireRequest, verb, hcarries, Bool.true_and, if_pos rfl, ptr] at hrequest
      obtain rfl := Option.some.inj hrequest
      refine ⟨?_, ?_⟩
      · simp only [hroute, if_true, hlen]
      · simp [len, packed]
  | packed body' asked packed verb ptr len buf hne fits =>
      obtain rfl : body' = body := Option.some.inj (asked.symm.trans hbody)
      have hpos : c.gzipMsgLen ≠ 0 := fun h0 => hne (List.eq_nil_of_length_eq_zero (len ▸ h0))
      have hlen : c.announcedLength memory .gzipMsgBuf = body'.length := by
        rw [announcedLength, if_pos hpos, len]
      rw [wireRequest, verb, hcarries, Bool.true_and, if_pos rfl, ptr] at hrequest
      obtain rfl := Option.some.inj hrequest
      refine ⟨?_, ?_⟩
      · simp only [hroute, if_true, hlen]
      · simp [hroute, len, hne, packed]

lemma carriesBody_of_describesBody (h : route.describesBody = true) :
    route.carriesBody = true := by
  cases route with
  | direct proxyHeader => rfl
  | tunnel => rfl
  | httpGet => cases h

/-- The verb wants a body exactly if one was asked for. -/
lemma HoldsBody.hasBody (h : c.HoldsBody limit) : c.method.hasBody = c.asked.body.isSome := by
  cases h with
  | none asked verb => rw [asked, verb]; rfl
  | plain body copy asked packed verb => rw [asked, verb]; rfl
  | packed body asked packed verb => rw [asked, verb]; rfl

/-- **The request of a context that has its body at hand.** -/
lemma HoldsBody.bodyRight (h : c.HoldsBody pubnubMaxObjectLength)
    (hclear : c.BodyClear (.send route memory))
    (hrequest : c.wireRequest route memory = some request) :
    Sent.BodyRight ⟨c.asked, c.signed, request⟩ := by
  intro hbody
  have hasked : c.asked.body.isSome = true := by
    rcases hbody with hbody | hbody
    · exact hbody
    · rw [← h.hasBody, ← (wireRequest_cases hrequest).1]
      exact hbody
  obtain ⟨body, hsome⟩ := Option.isSome_iff_exists.mp hasked
  obtain ⟨hroute, hintact⟩ := hclear hasked
  have hcarries := carriesBody_of_describesBody hroute
  have hsent := h.request_body (by decide) (fun _ => ⟨hcarries, hintact⟩) hrequest
  obtain ⟨hlen, hencoding⟩ := h.request_headers hsome hroute hcarries hintact hrequest
  exact ⟨body, hsome, hsent.trans hsome, hlen, hencoding⟩

/-! ## The step -/

/-- What happens to the monitor does not concern the body. -/
lemma HoldsBody.monitor (h : c.HoldsBody limit) (monitor : List LockEvent) :
    HoldsBody limit { c with monitor } := by
  cases h with
  | none asked verb => exact .none asked verb
  | plain body copy asked packed verb ptr len str fits =>
      exact .plain body copy asked packed verb ptr len str fits
  | packed body asked packed verb ptr len buf hne fits =>
      exact .packed body asked packed verb ptr len buf hne fits

/-- Nor does what has been sent. -/
lemma HoldsBody.sent (h : c.HoldsBody limit) (sent : List Sent) :
    HoldsBody limit { c with sent } := by
  cases h with
  | none asked verb => exact .none asked verb
  | plain body copy asked packed verb ptr len str fits =>
      exact .plain body copy asked packed verb ptr len str fits
  | packed body asked packed verb ptr len buf hne fits =>
      exact .packed body asked packed verb ptr len buf hne fits

/-- What is received may cover the copy of the body, but not the packed message. -/
lemma HoldsBody.received (h : c.HoldsBody limit) (url text : Bytes) :
    (c.received url text).HoldsBody limit := by
  cases h with
  | none asked verb => exact .none asked verb
  | plain body copy asked packed verb ptr len str fits =>
      refine .plain body text asked packed verb ?_ len str fits
      rw [ApiContext.received, ptr]
      rfl
  | packed body asked packed verb ptr len buf hne fits =>
      refine .packed body asked packed verb ?_ len buf hne fits
      rw [ApiContext.received, ptr]
      rfl

/-- A function that asks for a body writes its verb. -/
lemma setsVerb_of_hasBody {f : StartFunction} (hf : f ∈ startFunctions)
    (hverb : f.verb.hasBody = true) : (f.setsVerbBefore || f.setsVerbAfter) = true := by
  by_contra hset
  simp only [Bool.or_eq_true, not_or, Bool.not_eq_true] at hset
  rw [StartFunction.verb_of_mem hf hset.1 hset.2] at hverb
  cases hverb

/-- **A call that starts leaves its body at hand**, if it finds no packed message and no verb that
    is not its own. -/
lemma holdsBody_started {f : StartFunction} {a : Preparation} (hf : f ∈ startFunctions)
    (hstarts : f.starts a c = true)
    (hclear : if f.verb.hasBody then c.gzipMsgLen = 0 ∧ a.text.length ≤ limit
      else f.setsVerbBefore = true ∨ f.setsVerbAfter = true ∨ c.method.hasBody = false) :
    (f.started a c).unlock.HoldsBody limit := by
  have hstarted := f.startedFrom a c
  cases hverb : f.verb.hasBody with
  | false =>
      rw [hverb, if_neg Bool.false_ne_true] at hclear
      refine .none ?_ ?_
      · rw [hstarted.asked, StartFunction.asks, hverb]
        rfl
      · rw [hstarted.method]
        split
        · exact hverb
        · rename_i hset
          simp only [Bool.or_eq_true, not_or] at hset
          exact (hclear.resolve_left hset.1).resolve_left hset.2
  | true =>
      rw [hverb, if_pos rfl] at hclear
      obtain ⟨hzero, hfits⟩ := hclear
      have hstart : (f.prep a (f.atPrep c)).2 = .started := by
        rw [StartFunction.starts, Bool.and_eq_true] at hstarts
        exact of_decide_eq_true hstarts.2
      obtain ⟨-, -, -, hcopy⟩ := StartFunction.prep_started hstart
      have hcopy := hcopy hverb
      rw [(f.atPrep_fields c).2.2.2.1, if_pos hzero] at hcopy
      refine .plain a.text a.text ?_ ?_ ?_ (hstarted.messageToSend.trans hcopy)
        (hstarted.gzipMsgLen.trans hzero) (zero_not_mem_cString a.message) hfits
      · rw [hstarted.asked, StartFunction.asks, hverb]
        rfl
      · rw [hstarted.asked]
        rfl
      · rw [hstarted.method, if_pos (setsVerb_of_hasBody hf hverb), hverb]

/-- What a `pubnub_publish_ex` asks for is packed, and then it is in `core.gzip_msg_buf`, or it is
    the message as it is. -/
lemma compress_cases (o : PublishEx) (c : ApiContext) :
    (∃ packed : GzipBytes, o.isPacked = true ∧
        (o.method.hasBody = true → o.asks.body = some packed.bytes) ∧
        (o.compress c).gzipMsgBuf = packed.bytes ∧
        (o.compress c).gzipMsgLen = packed.bytes.length) ∨
    (o.isPacked = false ∧ (o.method.hasBody = true → o.asks.body = some o.text) ∧
      (o.compress c).gzipMsgLen = if o.method = .sendViaPOSTwithGZIP then 0 else c.gzipMsgLen) := by
  rw [PublishEx.compress, PublishEx.isPacked, PublishEx.asks]
  by_cases hgzip : o.method = .sendViaPOSTwithGZIP
  · cases hpacks : o.packs with
    | none => exact .inr ⟨by simp, fun hb => by simp [hb], by simp [hgzip]⟩
    | some packed =>
        refine .inl ⟨packed, by simp [hgzip], fun hb => by simp [hgzip, PubnubMethod.hasBody], ?_⟩
        simp [hgzip]
  · exact .inr ⟨by simp [hgzip], fun hb => by simp [hb, hgzip], by simp [hgzip]⟩

lemma bodyKept_publishEx {o : PublishEx} (h : c.BodyKept) (hclear : c.BodyClear (.publishEx o)) :
    (o.call c).1.BodyKept := by
  intro hb
  rcases PublishEx.call_busy_cases hb with ⟨monitor, hc⟩ | ⟨hstarts, -, hc⟩
  · rw [hc] at hb ⊢
    exact (h hb).monitor monitor
  · have hprep := o.prepares_prep (o.compress c.lock.access)
    rw [hc]
    cases hverb : o.method.hasBody with
    | false =>
        refine .none ?_ hverb
        show o.asks.body = Option.none
        rw [PublishEx.asks, hverb]
        rfl
    | true =>
        have hclear := hclear hstarts hverb
        have hstart : (o.prep (o.compress c.lock.access)).2 = .started := by
          rw [PublishEx.starts, Bool.and_eq_true] at hstarts
          exact of_decide_eq_true hstarts.2
        have hget : o.method ≠ .sendViaGET := by
          rintro hm
          rw [hm] at hverb
          cases hverb
        have hptr := (PublishEx.prep_started hstart).2 hget
        rcases compress_cases o c.lock.access with
          ⟨packed, hpacked, hasks, hbuf, hlen⟩ | ⟨hpacked, hasks, hlen⟩
        · rw [if_pos hpacked] at hclear
          have hpos : (o.compress c.lock.access).gzipMsgLen ≠ 0 := by
            rw [hlen]
            exact fun h0 => packed.not_empty (List.eq_nil_of_length_eq_zero h0)
          have hgz : o.messagePtr = .gzipMsgBuf := by
            rw [PublishEx.messagePtr, hpacked, hclear]
            rfl
          rw [if_neg hpos, hgz] at hptr
          exact .packed packed.bytes (hasks hverb) hpacked hverb hptr
            (hprep.gzipMsgLen.trans hlen) (hprep.gzipMsgBuf.trans hbuf) packed.not_empty packed.fits
        · rw [if_neg (Bool.not_eq_true _ ▸ hpacked)] at hclear
          obtain ⟨hfits, hstale⟩ := hclear
          have hzero : (o.compress c.lock.access).gzipMsgLen = 0 := by
            rw [hlen]
            split
            · rfl
            · rename_i hgzip
              exact hstale.resolve_left hgzip
          rw [if_pos hzero] at hptr
          exact .plain o.text o.text (hasks hverb) hpacked hverb hptr
            (hprep.gzipMsgLen.trans hzero) (zero_not_mem_cString o.message) hfits

lemma bodyKept_step (h : c.BodyKept) (hclear : c.BodyClear e) (hst : c.step e = some c') :
    c'.BodyKept := by
  cases e with
  | call f a =>
      simp only [step, Option.ite_none_right_eq_some, Option.some.injEq] at hst
      obtain ⟨hf, rfl⟩ := hst
      intro hb
      rcases StartFunction.call_busy_cases hb with ⟨monitor, hc⟩ | ⟨hstarts, -, hc⟩
      · rw [hc] at hb ⊢
        exact (h hb).monitor monitor
      · rw [hc]
        exact holdsBody_started hf hstarts (hclear hstarts)
  | publishEx o =>
      obtain rfl := Option.some.inj hst
      exact bodyKept_publishEx h hclear
  | received url body =>
      simp only [step, Option.ite_none_right_eq_some, Option.some.injEq] at hst
      obtain ⟨-, rfl⟩ := hst
      intro hb
      exact (h hb).received url body
  | send route memory =>
      simp only [step, Option.ite_none_right_eq_some, send, Option.map_eq_some_iff] at hst
      obtain ⟨-, request, -, rfl⟩ := hst
      intro hb
      exact (h hb).sent _
  | outcome retry =>
      simp only [step, Option.ite_none_right_eq_some, Option.some.injEq] at hst
      obtain ⟨-, rfl⟩ := hst
      intro hretry
      exact .none (hclear hretry) rfl

/-! ## The run -/

variable {publishKey : Bytes}

lemma bodyKept_of_reachable (hr : (apiMachine publishKey).Reachable BodyClear c) : c.BodyKept :=
  hr.invariant (fun h => nomatch h) fun _ _ _ h hclear hst => bodyKept_step h hclear hst

/-- **The body arrives**: in a run whose steps are clear, every request that was asked to have a
    body, or has a verb that wants one, carries the body that was asked for, with its length, and is
    said to be packed exactly if it is. -/
theorem body_right (hr : (apiMachine publishKey).Reachable BodyClear c) :
    ∀ s ∈ c.sent, s.BodyRight := by
  refine hr.invariant_of (P := fun c => ∀ s ∈ c.sent, s.BodyRight)
    (fun _ => bodyKept_of_reachable) (fun _ h => absurd h List.not_mem_nil) ?_
  intro c e c' hkept hsent hclear hst
  rcases sent_step hst with hc | ⟨route, memory, request, rfl, hbusy, hrequest, hc⟩
  · rw [hc]
    exact hsent
  · rw [hc]
    intro s hs
    rcases List.mem_cons.mp hs with rfl | hs
    · exact (hkept hbusy).bodyRight hclear hrequest
    · exact hsent s hs

/-- A message which is packed into six bytes. -/
def packedPublish : PublishEx where
  method := .sendViaPOSTwithGZIP
  message := ascii "\"a very repetitive message message message\""
  packs := some ⟨[31, 139, 8, 0, 1, 2], by decide, by decide⟩
  url := .ok (.ofPath (ascii "/publish/demo/demo/0/ch/0") (by decide))

/-- The preparation of metadata. -/
def metadataPrep : Preparation where
  url := .ok (.ofPath (ascii "/v2/objects/demo/uuids/u") (by decide))
  message := ascii "\x7b\"name\":\"n\"\x7d"

/-- Metadata is set, and then a message is published which is packed. -/
def metadataThenPacked : List ApiStep :=
  [.call pubnubSetUuidmetadata metadataPrep, .send .tunnel [1, 2, 3], .received [] [72, 84],
    .outcome false, .publishEx packedPublish, .send (.direct false) [], .outcome false]

theorem body_right_metadataThenPacked :
    ∃ c, (apiMachine (ascii "demo")).Reachable BodyClear c ∧
      c.sent.map (fun s => s.request.contentLength) = [some 6, some 12] ∧
      ∀ s ∈ c.sent, s.BodyRight := by
  obtain ⟨c, hr, hc⟩ := (apiMachine (ascii "demo")).exists_reachable_of_replay
    (fun c e => decide (c.BodyClear e)) metadataThenPacked
    (fun c => c.sent.map (fun s => s.request.contentLength) = [some 6, some 12])
    (fun _ _ => of_decide_eq_true) (by decide +kernel)
  exact ⟨c, hr, by simpa using hc, body_right hr⟩

/-- The other way round the metadata is announced as packed, with the length of the message before
    it. -/
def packedThenMetadata : List ApiStep :=
  [.publishEx packedPublish, .send (.direct false) [], .outcome false,
    .call pubnubSetUuidmetadata metadataPrep, .send (.direct false) metadataPrep.message]

theorem body_not_always_right :
    ¬ ∀ c, (apiMachine (ascii "demo")).Reachable Machine.anyStep c → ∀ s ∈ c.sent, s.BodyRight := by
  intro h
  obtain ⟨c, hr, hc⟩ := (apiMachine (ascii "demo")).exists_reachable_of_replay
    (G := Machine.anyStep) (fun _ _ => true) packedThenMetadata
    (fun c => c.sent.any fun s => s.asked.body.isSome && !s.asked.packed && s.request.contentEncoding)
    (fun _ _ _ => trivial) (by decide +kernel)
  obtain ⟨s, hs, hbad⟩ := List.any_eq_true.mp hc
  simp only [Bool.and_eq_true, Bool.not_eq_eq_eq_not, Bool.not_true] at hbad
  obtain ⟨body, -, -, -, hencoding⟩ := h c hr s hs (.inl hbad.1.1)
  rw [hbad.2, hbad.1.2] at hencoding
  cases hencoding

end ApiContext

end PubNub
