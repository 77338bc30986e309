import PubNubCore.Api.Bodies

/-!
# What is signed

With a secret key in the context most requests are signed: `pn_gen_pam_v3_sign` writes down the
verb, the publish key, the path, the query and the body, one to a line, and the signature of that
text becomes the last parameter of the URL.  It takes the verb from the context, at the time of the
preparation; the URL and the body are sent later, from the places where they were prepared.

**What goes wrong.**  `pubnub_delete_messages` and `pubnub_add_members` write the verb only after
the preparation: what they sign is the verb that happens to be in the context, which is GET, and
they send DELETE and PATCH.  A verb which a failed call has left is signed and sent without the
body it wants.  And what goes wrong with the body of a request goes wrong with its signature.
-/

namespace PubNub

/-- The text that was signed is made of the verb, the path, the query without the signature and the
    body of the request. -/
def Sent.SignedAsSent (publishKey : Bytes) (s : Sent) : Prop :=
  ∀ text, s.signed = some text → ∃ verb path query signature,
    s.request.method.verbString = verb ++ ascii " " ∧ 63 ∉ path ∧
      s.request.target = path ++ 63 :: query ++ ascii "&signature=" ++ signature ∧
      text = verb ++ 10 :: publishKey ++ 10 :: path ++ 10 :: query ++ 10 ::
        s.request.body.getD []

/-- There is a signature. -/
def Signature.isMade : Signature → Bool
  | .made _ => true
  | _ => false

/-- The verb at the time of the preparation. -/
def StartFunction.verbAtPrep (f : StartFunction) (c : ApiContext) : PubnubMethod :=
  if f.setsVerbBefore then f.verb else c.method

/-- The verb with which the transaction starts. -/
def StartFunction.verbAtStart (f : StartFunction) (c : ApiContext) : PubnubMethod :=
  if f.setsVerbBefore || f.setsVerbAfter then f.verb else c.method

/-- The verbs that are written alike want a body alike. -/
lemma PubnubMethod.hasBody_of_signVerb {m m' : PubnubMethod} (h : m.signVerb = m'.signVerb) :
    m.hasBody = m'.hasBody := by
  revert h
  cases m
  all_goals
    cases m'
    all_goals decide

namespace ApiContext

variable {c c' : ApiContext} {e : ApiStep}

/-- **Where what is signed is what is sent**: a signed request starts with the verb which it had
    when it was signed, finds no packed message if it has a body, and no verb that wants one if it
    has none.  When it is sent nothing has been received over its URL, and its body is carried and
    nothing has been received over it either.  Only a GET is retried. -/
def SignedClear (c : ApiContext) : ApiStep → Prop
  | .call f a => f.starts a c = true → a.signature.isMade = true →
      (f.verbAtPrep c).signVerb = (f.verbAtStart c).signVerb ∧
        if f.verb.hasBody then c.gzipMsgLen = 0 ∧ a.text.length ≤ 2 ^ 16 - 1
        else f.setsVerbBefore = true ∨ f.setsVerbAfter = true ∨ c.method.hasBody = false
  | .send route _ => c.signed.isSome = true → c.httpBuf = c.url ∧
      (c.asked.body.isSome = true → route.carriesBody = true ∧
        c.messageToSend.all (MessagePtr.isIntact c.asked.body) = true)
  | .outcome retry => retry = true → c.signed.isSome = true → c.method = .sendViaGET
  | .publishEx _ | .received _ _ => True

instance (c : ApiContext) : (e : ApiStep) → Decidable (c.SignedClear e)
  | .call _ _ | .send _ _ | .outcome _ => inferInstanceAs (Decidable (_ → _))
  | .publishEx _ | .received _ _ => inferInstanceAs (Decidable True)

/-- The text is what a request of this context has to be signed with. -/
structure SignedFor (c : ApiContext) (text : Bytes) : Prop where
  body : c.HoldsBody (2 ^ 16 - 1)
  parts : ∃ url : Url, ∃ signature, c.url = url.text ++ ascii "&signature=" ++ signature ∧
    text = c.method.signVerb ++ 10 :: c.publishKey ++ 10 :: url.path ++ 10 :: url.query ++ 10 ::
      c.asked.body.getD []

/-- While a transaction is in progress, its signature is one of its request. -/
def SignatureKept (c : ApiContext) : Prop :=
  c.busy = true → ∀ text, c.signed = some text → c.SignedFor text

/-! ## The step -/

/-- **What a call that starts has signed**, where it starts with the verb it had then. -/
lemma signedFor_started {f : StartFunction} {a : Preparation} (hf : f ∈ startFunctions)
    (hstarts : f.starts a c = true) (hclear : c.SignedClear (.call f a)) {text : Bytes}
    (htext : (f.started a c).unlock.signed = some text) : (f.started a c).unlock.SignedFor text := by
  have hstart : (f.prep a (f.atPrep c)).2 = .started := by
    rw [StartFunction.starts, Bool.and_eq_true] at hstarts
    exact of_decide_eq_true hstarts.2
  have hstarted := f.startedFrom a c
  rw [hstarted.signed] at htext
  obtain ⟨url, -, hsig, -⟩ := StartFunction.prep_started hstart
  rcases hsig with ⟨-, hnone⟩ | ⟨signature, hmade, hbuf, hsome⟩
  · rw [hnone] at htext
    cases htext
  · obtain rfl := Option.some.inj (hsome.symm.trans htext)
    obtain ⟨hverb, hbody⟩ := hclear hstarts (by rw [hmade]; rfl)
    refine ⟨holdsBody_started hf hstarts hbody, url, signature, hstarted.url.trans hbuf, ?_⟩
    have hmethod : (f.started a c).unlock.method = f.verbAtStart c := hstarted.method
    obtain ⟨-, hatPrep, -, -, hkey, -⟩ := f.atPrep_fields c
    have hatPrep : (f.atPrep c).method = f.verbAtPrep c := hatPrep
    rw [hstarted.publishKey, hmethod, hstarted.asked, hatPrep, hkey, genPamV3Sign, hverb]
    congr 2
    cases hb : f.verb.hasBody with
    | false => simp [StartFunction.asks, hb]
    | true =>
        have hsame : f.verbAtStart c = f.verb := if_pos (setsVerb_of_hasBody hf hb)
        rw [PubnubMethod.hasBody_of_signVerb hverb, hsame, hb]
        simp [StartFunction.asks, hb]

lemma SignedFor.monitor {text : Bytes} (h : c.SignedFor text) (monitor : List LockEvent) :
    SignedFor { c with monitor } text :=
  ⟨h.body.monitor monitor, h.parts⟩

lemma signatureKept_step (h : c.SignatureKept) (hclear : c.SignedClear e)
    (hst : c.step e = some c') : c'.SignatureKept := by
  cases e with
  | call f a =>
      simp only [step, Option.ite_none_right_eq_some, Option.some.injEq] at hst
      obtain ⟨hf, rfl⟩ := hst
      intro hb text htext
      rcases StartFunction.call_busy_cases hb with ⟨monitor, hc⟩ | ⟨hstarts, -, hc⟩
      · rw [hc] at hb htext ⊢
        exact (h hb text htext).monitor monitor
      · rw [hc] at htext ⊢
        exact signedFor_started hf hstarts hclear htext
  | publishEx o =>
      obtain rfl := Option.some.inj hst
      intro hb text htext
      rcases PublishEx.call_busy_cases hb with ⟨monitor, hc⟩ | ⟨hstarts, -, hc⟩
      · rw [hc] at hb htext ⊢
        exact (h hb text htext).monitor monitor
      · rw [PublishEx.starts, Bool.and_eq_true] at hstarts
        have hnone := (PublishEx.prep_started (of_decide_eq_true hstarts.2)).1
        rw [hc] at htext
        exact absurd (hnone.symm.trans htext) (by simp)
  | received url body =>
      simp only [step, Option.ite_none_right_eq_some, Option.some.injEq] at hst
      obtain ⟨-, rfl⟩ := hst
      intro hb text htext
      have h := h hb text htext
      exact ⟨h.body.received url body, h.parts⟩
  | send route memory =>
      simp only [step, Option.ite_none_right_eq_some, send, Option.map_eq_some_iff] at hst
      obtain ⟨-, request, -, rfl⟩ := hst
      intro hb text htext
      have h := h hb text htext
      exact ⟨h.body.sent _, h.parts⟩
  | outcome retry =>
      simp only [step, Option.ite_none_right_eq_some, Option.some.injEq] at hst
      obtain ⟨hbusy, rfl⟩ := hst
      intro hretry text htext
      have h := h hbusy text htext
      -- the verb is reset to the one it has
      have hget : c.method = .sendViaGET := hclear hretry (Option.isSome_iff_exists.mpr ⟨text, htext⟩)
      obtain ⟨url, signature, hurl, hparts⟩ := h.parts
      rw [hget] at hparts
      refine ⟨?_, url, signature, hurl, hparts⟩
      have hnone : c.asked.body = none := by
        have hbody := h.body.hasBody
        rw [hget] at hbody
        exact Option.not_isSome_iff_eq_none.mp (by rw [← hbody]; exact Bool.false_ne_true)
      exact .none hnone rfl

/-! ## The run -/

/-- A request that is sent as it was prepared is the one that was signed. -/
lemma SignedFor.signedAsSent {route : Route} {memory text : Bytes} {request : WireRequest}
    (h : c.SignedFor text) (htext : c.signed = some text)
    (hclear : c.SignedClear (.send route memory))
    (hrequest : c.wireRequest route memory = some request) :
    Sent.SignedAsSent c.publishKey ⟨c.asked, c.signed, request⟩ := by
  obtain ⟨hurl, hcarries⟩ := hclear (by rw [htext]; rfl)
  obtain ⟨hmethod, htarget, -⟩ := wireRequest_cases hrequest
  have hbody := h.body.request_body (by decide) hcarries hrequest
  obtain ⟨url, signature, hprepared, hparts⟩ := h.parts
  intro text' htext'
  obtain rfl : text = text' := Option.some.inj (htext.symm.trans htext')
  refine ⟨c.method.signVerb, url.path, url.query, signature, ?_, url.path_clean, ?_, ?_⟩
  · show request.method.verbString = _
    rw [hmethod, PubnubMethod.verbString_eq]
  · show request.target = _
    rw [htarget, hurl, hprepared, Url.text]
  · show text = _
    rw [hbody, hparts]

variable {publishKey : Bytes}

lemma signatureKept_of_reachable (hr : (apiMachine publishKey).Reachable SignedClear c) :
    c.SignatureKept ∧ c.publishKey = publishKey := by
  refine hr.invariant (P := fun c => c.SignatureKept ∧ c.publishKey = publishKey)
    ⟨fun h => (nomatch h), rfl⟩ ?_
  intro c e c' ⟨hkept, hkey⟩ hclear hst
  exact ⟨signatureKept_step hkept hclear hst, (publishKey_step hst).trans hkey⟩

/-- **The signature fits the request**: in a run whose steps are clear, the text that was signed
    for a request has exactly its verb, its path, its query without the signature, and its body. -/
theorem signed_as_sent (hr : (apiMachine publishKey).Reachable SignedClear c) :
    ∀ s ∈ c.sent, s.SignedAsSent publishKey := by
  refine hr.invariant_of (P := fun c => ∀ s ∈ c.sent, s.SignedAsSent publishKey)
    (fun _ => signatureKept_of_reachable) (fun _ h => absurd h List.not_mem_nil) ?_
  intro c e c' ⟨hkept, hkey⟩ hsent hclear hst
  rcases sent_step hst with hc | ⟨route, memory, request, rfl, hbusy, hrequest, hc⟩
  · rw [hc]
    exact hsent
  · rw [hc]
    intro s hs
    rcases List.mem_cons.mp hs with rfl | hs
    · intro text htext
      rw [← hkey]
      exact (hkept hbusy text htext).signedAsSent htext hclear hrequest text htext
    · exact hsent s hs

/-- Metadata is set with a signature, and then a token is revoked. -/
def metadataThenRevoke : List ApiStep :=
  [.call pubnubSetUuidmetadata { metadataPrep with signature := .made (ascii "v2.c2ln") },
    .send (.direct true) [], .received [] [], .outcome false,
    .call pubnubRevokeToken
      { url := .ok (.ofPath (ascii "/v3/pam/demo/grant/t") (by decide))
        signature := .made (ascii "v2.dG9r") },
    .send .tunnel []]

theorem signed_as_sent_metadataThenRevoke :
    ∃ c, (apiMachine (ascii "demo")).Reachable SignedClear c ∧
      c.sent.map (fun s => s.signed.isSome) = [true, true] ∧
      ∀ s ∈ c.sent, s.SignedAsSent (ascii "demo") := by
  obtain ⟨c, hr, hc⟩ := (apiMachine (ascii "demo")).exists_reachable_of_replay
    (fun c e => decide (c.SignedClear e)) metadataThenRevoke
    (fun c => c.sent.map (fun s => s.signed.isSome) = [true, true])
    (fun _ _ => of_decide_eq_true) (by decide +kernel)
  exact ⟨c, hr, by simpa using hc, signed_as_sent hr⟩

/-- The messages of a channel are deleted. -/
def deleteMessagesSigned : List ApiStep :=
  [.call pubnubDeleteMessages
      { url := .ok (.ofPath (ascii "/v3/history/sub-key/demo/channel/ch") (by decide))
        signature := .made (ascii "v2.c2ln") },
    .send (.direct false) []]

/-- What is signed begins with GET, and DELETE is sent. -/
theorem not_always_signed_as_sent :
    ¬ ∀ c, (apiMachine (ascii "demo")).Reachable Machine.anyStep c →
      ∀ s ∈ c.sent, s.SignedAsSent (ascii "demo") := by
  intro h
  obtain ⟨c, hr, hc⟩ := (apiMachine (ascii "demo")).exists_reachable_of_replay
    (G := Machine.anyStep) (fun _ _ => true) deleteMessagesSigned
    (fun c => c.sent.any fun s => s.request.method = .useDELETE &&
      s.signed.any fun text => text.head? = some 71)
    (fun _ _ _ => trivial) (by decide +kernel)
  obtain ⟨s, hs, hbad⟩ := List.any_eq_true.mp hc
  simp only [Bool.and_eq_true, decide_eq_true_eq, Option.any_eq_true] at hbad
  obtain ⟨hdelete, text, htext, hhead⟩ := hbad
  obtain ⟨verb, path, query, signature, hverb, -, -, hparts⟩ := h c hr s hs text htext
  rw [hdelete, PubnubMethod.verbString_eq] at hverb
  obtain rfl := List.append_cancel_right hverb
  rw [hparts] at hhead
  exact absurd hhead (by simp [PubnubMethod.signVerb, ascii])

end ApiContext

end PubNub
