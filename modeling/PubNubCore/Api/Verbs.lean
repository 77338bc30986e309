import PubNubCore.Api.Runs

/-!
# The verb of a request

The verb is a field of the context.  Some functions write it before they prepare the request, some
after, some both times, and those that ask for GET do not write it at all: they rely on the outcome
of the transaction before them, which resets it.

**What goes wrong.**  A function whose preparation fails after it has written the verb leaves it to
the next one.  The outcome resets the verb before the retry timer starts the transaction again, so
that a POST is repeated as a GET.  And a proxy that is spoken to with the GET method is never sent
a body.
-/

namespace PubNub

/-- The request has the verb that was asked for, and a body exactly if one was asked for. -/
def Sent.AsAsked (s : Sent) : Prop :=
  s.request.method.verbString = s.asked.method.verbString ∧
    s.request.body.isSome = s.asked.method.hasBody

namespace ApiContext

variable {c c' : ApiContext} {e : ApiStep}

/-- **Where the verb is the right one**: a call that does not write it finds GET there, a body is
    not sent by the GET method of a proxy, and only a GET is retried. -/
def VerbClear (c : ApiContext) : ApiStep → Prop
  | .call f a => f.starts a c = true →
      f.setsVerbBefore = true ∨ f.setsVerbAfter = true ∨ c.method = .sendViaGET
  | .send route _ => c.asked.method.hasBody = true → route.carriesBody = true
  | .outcome retry => retry = true → c.asked.method = .sendViaGET
  | _ => True

instance (c : ApiContext) : (e : ApiStep) → Decidable (c.VerbClear e)
  | .call _ _ | .send _ _ | .outcome _ => inferInstanceAs (Decidable (_ → _))
  | .publishEx _ | .received _ _ => inferInstanceAs (Decidable True)

/-- The verb in the context is the one that the transaction in progress has asked for. -/
def VerbKept (c : ApiContext) : Prop := c.busy = true → c.method = c.asked.method

lemma verbKept_step (h : c.VerbKept) (hclear : c.VerbClear e) (hst : c.step e = some c') :
    c'.VerbKept := by
  cases e with
  | call f a =>
      simp only [step, Option.ite_none_right_eq_some, Option.some.injEq] at hst
      obtain ⟨hf, rfl⟩ := hst
      intro hb
      rcases StartFunction.call_busy_cases hb with ⟨monitor, hc⟩ | ⟨hstarts, -, hc⟩
      · rw [hc] at hb ⊢
        exact h hb
      · have hstarted := f.startedFrom a c
        rw [hc, hstarted.method, hstarted.asked]
        show _ = f.verb
        split
        · rfl
        · rename_i hset
          simp only [Bool.or_eq_true, not_or, Bool.not_eq_true] at hset
          have hget := hclear hstarts
          simp only [hset.1, hset.2, Bool.false_eq_true, false_or] at hget
          rw [StartFunction.verb_of_mem hf hset.1 hset.2, hget]
  | publishEx o =>
      obtain rfl := Option.some.inj hst
      intro hb
      rcases PublishEx.call_busy_cases hb with ⟨monitor, hc⟩ | ⟨-, -, hc⟩
      · rw [hc] at hb ⊢
        exact h hb
      · rw [hc]
        rfl
  | received url body =>
      simp only [step, Option.ite_none_right_eq_some, Option.some.injEq] at hst
      obtain ⟨-, rfl⟩ := hst
      exact h
  | send route memory =>
      simp only [step, Option.ite_none_right_eq_some, send, Option.map_eq_some_iff] at hst
      obtain ⟨-, request, -, rfl⟩ := hst
      exact h
  | outcome retry =>
      simp only [step, Option.ite_none_right_eq_some, Option.some.injEq] at hst
      obtain ⟨-, rfl⟩ := hst
      intro hretry
      exact (hclear hretry).symm

variable {publishKey : Bytes}

lemma verbKept_of_reachable (hr : (apiMachine publishKey).Reachable VerbClear c) : c.VerbKept :=
  hr.invariant (fun h => nomatch h) fun _ _ _ h hclear hst => verbKept_step h hclear hst

/-- **No verb leaks**: in a run whose steps are clear, every request has the verb that its own call
    asked for, and has a body exactly if its call asked for one. -/
theorem sent_as_asked (hr : (apiMachine publishKey).Reachable VerbClear c) :
    ∀ s ∈ c.sent, s.AsAsked := by
  refine hr.invariant_of (P := fun c => ∀ s ∈ c.sent, s.AsAsked)
    (fun _ => verbKept_of_reachable) (fun _ h => absurd h List.not_mem_nil) ?_
  intro c e c' hkept hsent hclear hst
  rcases sent_step hst with hc | ⟨route, memory, request, rfl, hbusy, hrequest, hc⟩
  · rw [hc]
    exact hsent
  · rw [hc]
    intro s hs
    rcases List.mem_cons.mp hs with rfl | hs
    · obtain ⟨hmethod, -, hbody⟩ := wireRequest_cases hrequest
      have hverb := hkept hbusy
      refine ⟨by rw [hmethod, hverb], ?_⟩
      show request.body.isSome = c.asked.method.hasBody
      rw [hbody, hverb]
      cases hb : c.asked.method.hasBody with
      | false => rfl
      | true => rw [hclear hb]; rfl
    · exact hsent s hs

/-- The preparation of a request for the time. -/
def timePrep : Preparation := { url := .ok (.ofPath (ascii "/time/0") (by decide)) }

/-- The preparation of a message action. -/
def actionPrep : Preparation where
  url := .ok (.ofPath (ascii "/v1/message-actions/demo/channel/ch/message/1") (by decide))
  message := ascii "\x7b\"type\":\"receipt\",\"value\":\"v\",\"user_id\":\"u\"\x7d"

/-- A message action is added, and then the time is asked for. -/
def actionThenTime : List ApiStep :=
  [.call pubnubAddMessageActionStr actionPrep, .send (.direct false) [], .outcome false,
    .call pubnubTime timePrep, .send (.direct false) [], .outcome false]

theorem sent_as_asked_actionThenTime :
    ∃ c, (apiMachine (ascii "demo")).Reachable VerbClear c ∧
      c.sent.map (fun s => s.request.method) = [.sendViaGET, .sendViaPOST] ∧
      ∀ s ∈ c.sent, s.AsAsked := by
  obtain ⟨c, hr, hc⟩ := (apiMachine (ascii "demo")).exists_reachable_of_replay
    (fun c e => decide (c.VerbClear e)) actionThenTime
    (fun c => c.sent.map (fun s => s.request.method) = [.sendViaGET, .sendViaPOST])
    (fun _ _ => of_decide_eq_true) (by decide +kernel)
  exact ⟨c, hr, by simpa using hc, sent_as_asked hr⟩

/-- A token that does not fit into the URL cannot be revoked; the request for the time which
    follows is sent with DELETE. -/
def revokeThenTime : List ApiStep :=
  [.call pubnubRevokeToken { url := .error ⟨.txBuffTooSmall, by decide⟩ },
    .call pubnubTime timePrep, .send (.direct false) []]

theorem sent_not_always_as_asked :
    ¬ ∀ c, (apiMachine (ascii "demo")).Reachable Machine.anyStep c →
      ∀ s ∈ c.sent, s.AsAsked := by
  intro h
  obtain ⟨c, hr, hc⟩ := (apiMachine (ascii "demo")).exists_reachable_of_replay
    (G := Machine.anyStep) (fun _ _ => true) revokeThenTime
    (fun c => c.sent.any fun s => s.request.method.verbString ≠ s.asked.method.verbString)
    (fun _ _ _ => trivial) (by decide +kernel)
  obtain ⟨s, hs, hbad⟩ := List.any_eq_true.mp hc
  exact absurd (h c hr s hs).1 (by simpa using hbad)

end ApiContext

end PubNub
