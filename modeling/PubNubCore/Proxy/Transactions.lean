import PubNubCore.Lib.Machine
import PubNubCore.Proxy.Authentication

/-!
# Challenges and credentials over many transactions

The machine `proxyAuthentication`: transactions start, requests go out with or without
credentials, responses come in line by line, and at the end of a response the program retries,
gives up, or is done with the proxy.  A transaction may be abandoned anywhere, so that one can
start at any time.  What the proxy has asked for outlives a transaction: the scheme and the realm
are sent with the first request of the next one.

The machine keeps for the transaction the realms for which credentials went out, and for the
response the realms that were asked for, those which were passed over because a stronger scheme is
remembered, and the realm of the last line for Digest.

* **`proxy_challenges_answered`** — a transaction is refused only for a realm whose credentials
  went out in it, fails only when nothing unanswered was offered, sends credentials for a realm at
  most twice, and retries only for a realm that was asked for and with credentials, in every run
  in which the branches that do otherwise are not taken (`Answerable`).
* `proxy_challenges_not_always_answered` — a first response that asks twice for Digest in one
  realm is refused, and no credentials have been sent.
-/

namespace PubNub

/-- Where a transaction stands.  It is refused by a line that names a realm, or by one that is
    malformed. -/
inductive ProxyPhase
  | ready | requested | receiving (code : Nat) | retrying
  | refused (realm : Option Bytes) | failed | letThrough
  deriving DecidableEq, Repr

/-- What can happen. -/
inductive ProxyStep
  | start
  | send (ntlm : NtlmAnswer)
  | status (code : Nat)
  | header (line : Bytes)
  | finish

/-- A context with its proxy. -/
structure ProxyRun where
  phase : ProxyPhase
  auth : ProxyAuth
  /-- The realms for which credentials have been sent in the transaction. -/
  answers : List Bytes
  /-- The realms which the response asks for. -/
  offered : List Bytes
  /-- The realms of challenges that have been passed over in the response. -/
  passedOver : List Bytes
  /-- The realm of the last line for Digest in the response. -/
  named : Option Bytes
  /-- A challenge of the response has been accepted. -/
  considered : Bool
  /-- A request was retried without credentials. -/
  unanswered : Bool
  deriving DecidableEq

namespace ProxyRun

variable (s : ProxyRun)

/-- The realm a challenge in whatever scheme asks for, if it is well formed. -/
def askedRealm (contents : Bytes) : Option Bytes :=
  ((keyValues (contents.drop 6)).filter isRealm).getLast?.bind fun p =>
    p.2.bind fun value => if pbproxyCheckRealm value then some (unquoted value) else none

/-- The realm of a Basic challenge that is refused, if it is well formed. -/
def basicRefusal (contents : Bytes) : Option Bytes :=
  match basicRealm [] (keyValues (contents.drop 6)) with
  | none => some []
  | some value => if pbproxyCheckRealm value then some (unquoted value) else none

/-- A Basic challenge. -/
def basicLine (contents : Bytes) : ProxyRun :=
  let r := s.auth.handleBasic contents
  if r.1 then
    { s with auth := r.2, offered := s.offered ++ [r.2.realm], named := none, considered := true }
  else { s with auth := r.2, phase := .refused (basicRefusal contents) }

/-- The realm which a line for Digest names. -/
def namedRealm (parsed : Bool × DigestParse) : Option Bytes :=
  if parsed.1 = true ∧ parsed.2.found ≠ none then some parsed.2.realm else none

/-- A line for Digest, once it has been handled: whether it was accepted, what the parser has found
    in it, and whether a challenge of the response has been accepted now. -/
def digestLine (handled : Bool × ProxyAuth) (parsed : Bool × DigestParse) (considered : Bool) :
    ProxyRun :=
  if handled.1 then
    { s with
      auth := handled.2
      offered := s.offered ++ (namedRealm parsed).toList
      named := (namedRealm parsed).or s.named
      considered := considered }
  else { s with auth := handled.2, phase := .refused (namedRealm parsed) }

/-- A header line. -/
def headerLine (line : Bytes) : ProxyRun :=
  match s.auth.readLine line with
  | .other => s
  | .passedOver contents => { s with passedOver := s.passedOver ++ (askedRealm contents).toList }
  | .basic contents => s.basicLine contents
  | .digest contents =>
      s.digestLine (s.auth.handleDigest contents)
        (pbhttpDigestParseHeader pbhttpDigestInit (contents.drop 7) s.auth.realm) true
  | .folded header =>
      s.digestLine (s.auth.processDigestHeaderLine header)
        (pbhttpDigestParseHeader s.auth.digest header s.auth.realm) s.considered
  | .ntlm => { s with auth := s.auth.handleNtlm.2, considered := true }

/-- A request goes out, and nothing of its response is there yet. -/
def sendRequest (options : ProxyOptions) (ntlm : NtlmAnswer) : ProxyRun :=
  let r := s.auth.pbproxyHttpHeaderToSend options ntlm
  { phase := .requested
    auth := r.2
    answers :=
      if r.1 = true ∧ s.auth.scheme ≠ .ntlm then s.answers ++ [s.auth.realm] else s.answers
    offered := []
    passedOver := []
    named := none
    considered := false
    unanswered := s.unanswered ||
      decide (s.phase = .retrying ∧ r.1 = false ∧ s.auth.scheme ≠ .ntlm) }

/-- The end of a response. -/
def finishResponse (options : ProxyOptions) (code : Nat) : ProxyRun :=
  { s with
    phase :=
      match (pbproxyHandleFinish options s.auth code).1 with
      | .error => .failed
      | .retry => if code = 407 then .retrying else .letThrough
      | .goOn => .letThrough }

end ProxyRun

/-- One step. -/
def proxyStep (options : ProxyOptions) (s : ProxyRun) : ProxyStep → Option ProxyRun
  | .start => some
      { phase := .ready
        auth := s.auth.initializeFields
        answers := []
        offered := []
        passedOver := []
        named := none
        considered := false
        unanswered := false }
  | .send ntlm =>
      if s.phase = .ready ∨ s.phase = .retrying then some (s.sendRequest options ntlm) else none
  | .status code =>
      if s.phase = .requested then some { s with phase := .receiving code } else none
  | .header line =>
      match s.phase with
      | .receiving _ => some (s.headerLine line)
      | _ => none
  | .finish =>
      match s.phase with
      | .receiving code => some (s.finishResponse options code)
      | _ => none

/-- A context that has just been initialised. -/
def proxyAuthentication (options : ProxyOptions) : Machine ProxyRun ProxyStep where
  init :=
    { phase := .letThrough
      auth := ⟨.none, false, [], 0, pbhttpDigestInit⟩
      answers := []
      offered := []
      passedOver := []
      named := none
      considered := false
      unanswered := false }
  step := proxyStep options

/-! ## The promise and the condition -/

/-- What is promised of a transaction. -/
structure ProxyRun.Sound (s : ProxyRun) : Prop where
  /-- It is refused for a realm only when its credentials were rejected. -/
  refused : ∀ r, s.phase = .refused (some r) → r ∈ s.answers
  /-- It fails only when nothing was asked for that has not been answered. -/
  failed : s.phase = .failed → s.offered = []
  passed : s.phase = .failed ∨ s.phase = .retrying → s.considered = false →
    ∀ r ∈ s.passedOver, r ∈ s.answers
  /-- Credentials for a realm are sent once, and once again. -/
  twice : ∀ r, s.answers.count r ≤ 2
  /-- It is retried for a realm that was asked for, and whose credentials have not been sent
      twice. -/
  retried : s.phase = .retrying → s.auth.scheme ≠ .ntlm →
    s.auth.realm ∈ s.offered ∧ s.answers.count s.auth.realm ≤ 1
  /-- A retry carries credentials. -/
  answered : s.unanswered = false

namespace ProxyRun

variable (s : ProxyRun)

/-- The condition on a line for Digest that names a realm: one that was answered does not come back
    after another one, the line does not take a new realm for the one before, and the line before
    it in the response did not name the realm, unless it has been answered. -/
def DigestLineAnswerable (parsed : Bool × DigestParse) : Prop :=
  ∀ equal, parsed.1 = true → parsed.2.found = some equal →
    (parsed.2.realm ≠ s.auth.realm → parsed.2.realm ∉ s.answers) ∧
    equal = decide (parsed.2.realm = s.auth.realm) ∧
    (s.named = some parsed.2.realm → parsed.2.realm ∈ s.answers)

/-- The condition on a header line.  A folded one stands behind a challenge, or names no realm. -/
def LineAnswerable (line : Bytes) : Prop :=
  match s.auth.readLine line with
  | .other | .passedOver _ | .ntlm => True
  | .basic contents =>
      (s.auth.handleBasic contents).1 = true →
        (s.auth.handleBasic contents).2.realm ≠ s.auth.realm →
          (s.auth.handleBasic contents).2.realm ∉ s.answers
  | .digest contents =>
      s.DigestLineAnswerable
        (pbhttpDigestParseHeader pbhttpDigestInit (contents.drop 7) s.auth.realm)
  | .folded header =>
      s.DigestLineAnswerable (pbhttpDigestParseHeader s.auth.digest header s.auth.realm) ∧
        (s.considered = true ∨
          namedRealm (pbhttpDigestParseHeader s.auth.digest header s.auth.realm) = none)

end ProxyRun

/-- The condition on a step.  A retried request can be built; and a response with the code 407
    names a realm in a challenge that is accepted, or it leaves nothing unanswered behind and the
    request carried credentials. -/
def Answerable (options : ProxyOptions) : ProxyRun → ProxyStep → Prop
  | _, .start | _, .status _ => True
  | s, .send ntlm =>
      s.phase = .retrying → s.auth.scheme ≠ .ntlm → s.auth.builds options ntlm = true
  | s, .header line => s.LineAnswerable line
  | s, .finish =>
      s.phase = .receiving 407 →
        if s.considered then s.auth.scheme ≠ .ntlm → s.offered ≠ []
        else (∀ r ∈ s.passedOver, r ∈ s.answers) ∧
          (s.auth.sent = true ∨ s.auth.scheme = .none ∨ s.auth.scheme = .ntlm)

/-! ## What a line comes to -/

/-- One parameter: it is a realm, or the realm stays as it is. -/
lemma DigestParse.parameter_realm {st st' : DigestParse} {key value : Bytes}
    (h : st.parameter key value = some st') :
    st'.found ≠ none ∨ (st'.realm = st.realm ∧ st'.found = st.found) := by
  unfold DigestParse.parameter at h
  split_ifs at h <;> cases h <;> simp

/-- A line that names no realm leaves the realm alone. -/
lemma DigestParse.loop_realm (ps : List (Bytes × Option Bytes)) :
    ∀ st : DigestParse, (st.loop ps).2.found = none →
      (st.loop ps).2.realm = st.realm ∧ st.found = none := by
  induction ps with
  | nil => exact fun st h => ⟨rfl, h⟩
  | cons p ps ih =>
      intro st h
      rw [DigestParse.loop] at h ⊢
      cases hst : st.parameter p.1 (p.2.getD []) with
      | none =>
          rw [hst] at h
          exact ⟨rfl, h⟩
      | some st' =>
          rw [hst] at h
          obtain ⟨hrealm, hfound⟩ := ih st' h
          rcases DigestParse.parameter_realm hst with hnamed | ⟨hsame, hbefore⟩
          · exact absurd hfound hnamed
          · exact ⟨hrealm.trans hsame, hbefore ▸ hfound⟩

lemma parseHeader_realm {ctx : DigestContext} {header realm : Bytes}
    (h : (pbhttpDigestParseHeader ctx header realm).2.found = none) :
    (pbhttpDigestParseHeader ctx header realm).2.realm = realm :=
  (DigestParse.loop_realm _ _ h).1

/-- What is left of the context when a line for Digest has been handled: a parameter error, a line
    without a realm, one with a new realm, or one with the realm of the line before. -/
inductive DigestOutcome (p : ProxyAuth) (parsed : Bool × DigestParse) (handled : Bool × ProxyAuth) :
    Prop
  | malformed (hparsed : parsed.1 = false) (hhandled : handled.1 = false)
  | unnamed (hfound : parsed.2.found = none) (hhandled : handled.1 = true)
      (hcount : handled.2.count = p.count)
  | fresh (hparsed : parsed.1 = true) (hfound : parsed.2.found = some false)
      (hhandled : handled.1 = true) (hcount : handled.2.count = 1)
  | again (hparsed : parsed.1 = true) (hfound : parsed.2.found = some true)
      (hcount : handled.2.count = (p.count + 1) % 256)
      (hhandled : handled.1 = true ↔ handled.2.count ≤ 1)

/-- **What `process_digest_header_line` does with what the parser has found.** -/
lemma processDigestHeaderLine_outcome (p : ProxyAuth) (header : Bytes) :
    DigestOutcome p (pbhttpDigestParseHeader p.digest header p.realm)
        (p.processDigestHeaderLine header) ∧
      (p.processDigestHeaderLine header).2.scheme = p.scheme ∧
      (p.processDigestHeaderLine header).2.sent = p.sent ∧
      (p.processDigestHeaderLine header).2.realm =
        (pbhttpDigestParseHeader p.digest header p.realm).2.realm := by
  unfold ProxyAuth.processDigestHeaderLine
  generalize pbhttpDigestParseHeader p.digest header p.realm = parsed
  rcases parsed with ⟨accepted, st⟩
  cases accepted with
  | false => exact ⟨.malformed rfl rfl, rfl, rfl, rfl⟩
  | true =>
      cases hfound : st.found with
      | none =>
          rw [if_neg (by simp)]
          dsimp only
          rw [hfound]
          exact ⟨.unnamed hfound rfl rfl, rfl, rfl, rfl⟩
      | some equal =>
          rw [if_neg (by simp)]
          simp only [hfound]
          cases equal with
          | false => exact ⟨.fresh rfl hfound rfl rfl, rfl, rfl, rfl⟩
          | true => exact ⟨.again rfl hfound rfl decide_eq_true_iff, rfl, rfl, rfl⟩

/-- The same of a challenge, whose credentials are to be sent. -/
lemma handleDigest_outcome (p : ProxyAuth) (contents : Bytes) :
    DigestOutcome p (pbhttpDigestParseHeader pbhttpDigestInit (contents.drop 7) p.realm)
        (p.handleDigest contents) ∧
      (p.handleDigest contents).2.scheme = .digest ∧
      ((p.handleDigest contents).1 = true → (p.handleDigest contents).2.sent = false) ∧
      (p.handleDigest contents).2.realm =
        (pbhttpDigestParseHeader pbhttpDigestInit (contents.drop 7) p.realm).2.realm := by
  obtain ⟨houtcome, hscheme, -, hrealm⟩ := processDigestHeaderLine_outcome
    { p with scheme := .digest, digest := pbhttpDigestInit } (contents.drop 7)
  unfold ProxyAuth.handleDigest
  generalize ProxyAuth.processDigestHeaderLine _ _ = handled at *
  rcases handled with ⟨accepted, after⟩
  cases accepted with
  | false =>
      refine ⟨?_, hscheme, nofun, hrealm⟩
      cases houtcome with
      | malformed hparsed hhandled => exact .malformed hparsed hhandled
      | unnamed hfound hhandled => cases hhandled
      | fresh hparsed hfound hhandled => cases hhandled
      | again hparsed hfound hcount hhandled => exact .again hparsed hfound hcount hhandled
  | true =>
      refine ⟨?_, hscheme, fun _ => rfl, hrealm⟩
      cases houtcome with
      | malformed hparsed hhandled => cases hhandled
      | unnamed hfound hhandled hcount => exact .unnamed hfound rfl hcount
      | fresh hparsed hfound hhandled hcount => exact .fresh hparsed hfound rfl hcount
      | again hparsed hfound hcount hhandled => exact .again hparsed hfound hcount hhandled

/-- What is left of the context when a Basic challenge has been handled. -/
inductive BasicOutcome (p : ProxyAuth) (contents : Bytes) (handled : Bool × ProxyAuth) : Prop
  | accepted (hhandled : handled.1 = true) (hscheme : handled.2.scheme = .basic)
      (hsent : handled.2.sent = false) (hcount : handled.2.count = p.count)
      (hrealm : handled.2.realm = p.realm → p.sent = false)
  | rejected (hhandled : handled.1 = false) (hsent : p.sent = true)
      (hrefusal : ProxyRun.basicRefusal contents = some p.realm)
  | malformed (hhandled : handled.1 = false) (hrefusal : ProxyRun.basicRefusal contents = none)

lemma handleBasic_outcome (p : ProxyAuth) (contents : Bytes) :
    BasicOutcome p contents (p.handleBasic contents) := by
  unfold ProxyAuth.handleBasic
  cases hrealm : basicRealm [] (keyValues (contents.drop 6)) with
  | none =>
      by_cases hagain : p.sent = true ∧ p.realm = []
      · simp only [hagain, and_self, if_true]
        exact .rejected rfl hagain.1 (by simp [ProxyRun.basicRefusal, hrealm, hagain.2])
      · simp only [if_neg hagain]
        exact .accepted rfl rfl rfl rfl fun heq => by
          simpa [← heq] using hagain
  | some value =>
      by_cases hcheck : pbproxyCheckRealm value = false
      · simp only [if_pos hcheck]
        exact .malformed rfl (by simp [ProxyRun.basicRefusal, hrealm, hcheck])
      · by_cases hagain : p.sent = true ∧ p.realm = unquoted value
        · simp only [if_neg hcheck, if_pos hagain]
          exact .rejected rfl hagain.1 (by simp [ProxyRun.basicRefusal, hrealm, hcheck, hagain.2])
        · simp only [if_neg hcheck, if_neg hagain]
          exact .accepted rfl rfl rfl rfl fun heq => by
            simpa [← heq] using hagain

/-- The schemes with which a line is read for Basic, for Digest, or as a folded one. -/
lemma scheme_of_readLine (p : ProxyAuth) (line : Bytes) :
    (∀ contents, p.readLine line = .basic contents → p.scheme ≠ .ntlm ∧ p.scheme ≠ .digest) ∧
      (∀ contents, p.readLine line = .digest contents → p.scheme ≠ .ntlm) ∧
      ∀ header, p.readLine line = .folded header → p.scheme = .digest := by
  unfold ProxyAuth.readLine
  dsimp only
  split_ifs with hblank hfolded hname hbasic hdigest hntlm
  · exact ⟨nofun, nofun, fun _ _ => hfolded⟩
  · exact ⟨nofun, nofun, nofun⟩
  · refine ⟨fun _ _ => ?_, nofun, nofun⟩
    cases hscheme : p.scheme <;> simp [hscheme, AuthScheme.priority] at hbasic ⊢
  · refine ⟨nofun, fun _ _ => ?_, nofun⟩
    cases hscheme : p.scheme <;> simp [hscheme, AuthScheme.priority] at hdigest ⊢
  · exact ⟨nofun, nofun, nofun⟩
  · exact ⟨nofun, nofun, nofun⟩
  · exact ⟨nofun, nofun, nofun⟩

/-! ## The invariant -/

/-- What holds of the scheme, the counter and the realms while a transaction goes on.  As long as
    the credentials have not gone out, one more sending is left for the realm. -/
structure ProxyRun.Credit (s : ProxyRun) : Prop where
  count_le : s.auth.count ≤ 1
  weak : s.auth.scheme ≠ .digest → s.auth.count = 0
  sent : s.auth.sent = true → s.auth.realm ∈ s.answers
  bound : s.answers.count s.auth.realm ≤ s.auth.count + 1
  pending : s.auth.sent = false → s.considered = false ∨ s.offered ≠ [] →
    s.answers.count s.auth.realm ≤ s.auth.count
  counted : s.auth.count = 1 → s.auth.realm ∈ s.answers ∨ s.named = some s.auth.realm
  offered : s.offered ≠ [] → s.auth.realm ∈ s.offered
  asks : s.auth.scheme ≠ .digest → s.considered = true → s.offered ≠ []
  considered : s.considered = true → s.auth.sent = false

/-- A transaction that goes on. -/
def ProxyPhase.Active : ProxyPhase → Prop
  | .ready | .requested | .receiving _ | .retrying => True
  | .refused _ | .failed | .letThrough => False

/-- The invariant. -/
structure ProxyRun.Kept (s : ProxyRun) : Prop extends s.Sound where
  fresh : s.phase = .ready → s.auth.count = 0 ∧ s.auth.sent = false ∧ s.considered = false
  asking : s.phase.Active → s.offered ≠ [] → s.auth.sent = false ∧ s.auth.scheme ≠ .none
  credit : s.phase.Active → s.auth.scheme ≠ .ntlm → s.Credit
  unsent : s.phase = .retrying → s.auth.sent = false

namespace ProxyRun

variable {s : ProxyRun}

/-- In the middle of a response. -/
lemma kept_receiving {code : Nat} (hphase : s.phase = .receiving code)
    (htwice : ∀ r, s.answers.count r ≤ 2) (hanswered : s.unanswered = false)
    (hasking : s.offered ≠ [] → s.auth.sent = false ∧ s.auth.scheme ≠ .none)
    (hcredit : s.auth.scheme ≠ .ntlm → s.Credit) : s.Kept where
  refused _ hr := by rw [hphase] at hr; cases hr
  failed hf := by rw [hphase] at hf; cases hf
  passed hp := by rw [hphase] at hp; rcases hp with hp | hp <;> cases hp
  twice := htwice
  retried hr := by rw [hphase] at hr; cases hr
  answered := hanswered
  fresh hf := by rw [hphase] at hf; cases hf
  asking _ := hasking
  credit _ := hcredit
  unsent hr := by rw [hphase] at hr; cases hr

/-- At the end of a transaction that has been refused. -/
lemma kept_refused {realm : Option Bytes} (hphase : s.phase = .refused realm)
    (htwice : ∀ r, s.answers.count r ≤ 2) (hanswered : s.unanswered = false)
    (hrefused : ∀ r, realm = some r → r ∈ s.answers) : s.Kept where
  refused r hr := hrefused r (by rw [hphase] at hr; cases hr; rfl)
  failed hf := by rw [hphase] at hf; cases hf
  passed hp := by rw [hphase] at hp; rcases hp with hp | hp <;> cases hp
  twice := htwice
  retried hr := by rw [hphase] at hr; cases hr
  answered := hanswered
  fresh hf := by rw [hphase] at hf; cases hf
  asking ha := by rw [hphase] at ha; exact ha.elim
  credit ha := by rw [hphase] at ha; exact ha.elim
  unsent hr := by rw [hphase] at hr; cases hr

lemma Kept.receiving_credit {code : Nat} (h : s.Kept) (hphase : s.phase = .receiving code)
    (hscheme : s.auth.scheme ≠ .ntlm) : s.Credit :=
  h.credit (by rw [hphase]; trivial) hscheme

lemma Kept.receiving_asking {code : Nat} (h : s.Kept) (hphase : s.phase = .receiving code)
    (hoffered : s.offered ≠ []) : s.auth.sent = false ∧ s.auth.scheme ≠ .none :=
  h.asking (by rw [hphase]; trivial) hoffered

/-- As long as nothing has been sent for a scheme other than Digest, nothing has been sent for the
    realm. -/
lemma Credit.weak_unsent (h : s.Credit) (hscheme : s.auth.scheme ≠ .digest)
    (hsent : s.auth.sent = false) : s.answers.count s.auth.realm = 0 := by
  have hasked : s.considered = false ∨ s.offered ≠ [] := by
    cases hconsidered : s.considered with
    | false => exact .inl rfl
    | true => exact .inr (h.asks hscheme hconsidered)
  have hle := h.pending hsent hasked
  have hzero := h.weak hscheme
  omega

/-- A Basic challenge. -/
lemma kept_basicLine {code : Nat} (h : s.Kept) (hphase : s.phase = .receiving code)
    {contents : Bytes} (hscheme : s.auth.scheme ≠ .ntlm) (hweak : s.auth.scheme ≠ .digest)
    (hguard : (s.auth.handleBasic contents).1 = true →
      (s.auth.handleBasic contents).2.realm ≠ s.auth.realm →
        (s.auth.handleBasic contents).2.realm ∉ s.answers) :
    (s.basicLine contents).Kept := by
  have hcredit := h.receiving_credit hphase hscheme
  have houtcome := handleBasic_outcome s.auth contents
  unfold basicLine
  generalize s.auth.handleBasic contents = handled at houtcome hguard ⊢
  cases houtcome with
  | accepted hhandled hbasic hsent hcount hrealm =>
      simp only [hhandled, if_true]
      have hzero : handled.2.count = 0 := hcount.trans (hcredit.weak hweak)
      -- A realm that is asked for again has not been answered, for the line would be refused.
      have hnone : s.answers.count handled.2.realm = 0 := by
        by_cases hsame : handled.2.realm = s.auth.realm
        · rw [hsame]
          exact hcredit.weak_unsent hweak (hrealm hsame)
        · exact List.count_eq_zero.mpr (hguard hhandled hsame)
      refine kept_receiving hphase h.twice h.answered (fun _ => ⟨hsent, by simp [hbasic]⟩)
        fun _ => ?_
      exact
        { count_le := by simp [hzero]
          weak := fun _ => hzero
          sent := fun hs => by simp [hsent] at hs
          bound := by simp [hnone]
          pending := fun _ _ => by simp [hnone]
          counted := fun hone => by simp [hzero] at hone
          offered := fun _ => by simp
          asks := fun _ _ => by simp
          considered := fun _ => hsent }
  | rejected hhandled hsent hrefusal =>
      simp only [hhandled]
      refine kept_refused rfl h.twice h.answered fun r hr => ?_
      rw [hrefusal] at hr
      cases hr
      exact hcredit.sent hsent
  | malformed hhandled hrefusal =>
      simp only [hhandled]
      refine kept_refused rfl h.twice h.answered fun r hr => ?_
      rw [hrefusal] at hr
      cases hr

/-- A line for Digest.  It is a challenge, after which the credentials are still to be sent, or it
    goes on with one. -/
lemma kept_digestLine {code : Nat} (h : s.Kept) (hphase : s.phase = .receiving code)
    (hscheme : s.auth.scheme ≠ .ntlm) {handled : Bool × ProxyAuth} {parsed : Bool × DigestParse}
    {considered : Bool} (hanswerable : s.DigestLineAnswerable parsed)
    (hsame : parsed.2.found = none → parsed.2.realm = s.auth.realm)
    (hdigest : handled.2.scheme = .digest) (hrealm : handled.2.realm = parsed.2.realm)
    (hmode : handled.1 = true → (considered = true ∧ handled.2.sent = false) ∨
      (considered = s.considered ∧ handled.2.sent = s.auth.sent ∧
        (considered = true ∨ namedRealm parsed = none)))
    (houtcome : DigestOutcome s.auth parsed handled) :
    (s.digestLine handled parsed considered).Kept := by
  have hcredit := h.receiving_credit hphase hscheme
  have hconsidered : handled.1 = true → considered = true → handled.2.sent = false := by
    intro hhandled htrue
    rcases hmode hhandled with ⟨-, hsent⟩ | ⟨hbefore, hsent, -⟩
    · exact hsent
    · exact hsent.trans (hcredit.considered (hbefore ▸ htrue))
  have hunsent : handled.1 = true → namedRealm parsed ≠ none → handled.2.sent = false := by
    intro hhandled hnamed
    rcases hmode hhandled with ⟨htrue, hsent⟩ | ⟨-, -, htrue | hnone⟩
    · exact hsent
    · exact hconsidered hhandled htrue
    · exact absurd hnone hnamed
  unfold digestLine
  cases houtcome with
  | malformed hparsed hhandled =>
      simp only [hhandled]
      exact kept_refused rfl h.twice h.answered fun r hr => by simp [namedRealm, hparsed] at hr
  | unnamed hfound hhandled hcount =>
      have hnone : namedRealm parsed = none := by simp [namedRealm, hfound]
      have hkeep : handled.2.realm = s.auth.realm := hrealm.trans (hsame hfound)
      have hsent : handled.2.sent = true → s.auth.sent = true := by
        intro htrue
        rcases hmode hhandled with ⟨-, hfalse⟩ | ⟨-, hbefore, -⟩
        · simp [hfalse] at htrue
        · exact hbefore ▸ htrue
      simp only [hhandled, if_true, hnone, Option.toList_none, List.append_nil, Option.none_or]
      refine kept_receiving hphase h.twice h.answered (fun hoffered => ⟨?_, by simp [hdigest]⟩)
        fun _ => ?_
      · have hbefore := (h.receiving_asking hphase hoffered).1
        exact Bool.eq_false_iff.mpr fun htrue => by simp [hsent htrue] at hbefore
      · exact
          { count_le := by simpa [hcount] using hcredit.count_le
            weak := fun hne => absurd hdigest hne
            sent := fun htrue => by simpa [hkeep] using hcredit.sent (hsent htrue)
            bound := by simpa [hkeep, hcount] using hcredit.bound
            pending := fun hfalse hasked => by
              suffices hbefore : s.auth.sent = false ∧ (s.considered = false ∨ s.offered ≠ []) by
                simpa [hkeep, hcount] using hcredit.pending hbefore.1 hbefore.2
              rcases hasked with hidle | hoffered
              · rcases hmode hhandled with ⟨htrue, -⟩ | ⟨hbefore, hsent', -⟩
                · simp [htrue] at hidle
                · exact ⟨hsent' ▸ hfalse, .inl (hbefore ▸ hidle)⟩
              · exact ⟨(h.receiving_asking hphase hoffered).1, .inr hoffered⟩
            counted := fun hone => by
              simpa [hkeep] using hcredit.counted (hcount ▸ hone)
            offered := fun hoffered => by simpa [hkeep] using hcredit.offered hoffered
            asks := fun hne => absurd hdigest hne
            considered := hconsidered hhandled }
  | fresh hparsed hfound hhandled hcount =>
      obtain ⟨hnew, hequal, -⟩ := hanswerable false hparsed hfound
      have hnamed : namedRealm parsed = some parsed.2.realm := by
        simp [namedRealm, hparsed, hfound]
      have hsent := hunsent hhandled (by simp [hnamed])
      have hnone : s.answers.count parsed.2.realm = 0 :=
        List.count_eq_zero.mpr (hnew (of_decide_eq_false hequal.symm))
      simp only [hhandled, if_true, hnamed, Option.toList_some, Option.some_or]
      refine kept_receiving hphase h.twice h.answered (fun _ => ⟨hsent, by simp [hdigest]⟩)
        fun _ => ?_
      exact
        { count_le := by simp [hcount]
          weak := fun hne => absurd hdigest hne
          sent := fun htrue => by simp [hsent] at htrue
          bound := by simp [hrealm, hnone]
          pending := fun _ _ => by simp [hrealm, hnone]
          counted := fun _ => .inr (by simp [hrealm])
          offered := fun _ => by simp [hrealm]
          asks := fun hne => absurd hdigest hne
          considered := fun _ => hsent }
  | again hparsed hfound hcount hhandled =>
      obtain ⟨-, hequal, hrepeated⟩ := hanswerable true hparsed hfound
      have hnamed : namedRealm parsed = some parsed.2.realm := by
        simp [namedRealm, hparsed, hfound]
      have hkeep : parsed.2.realm = s.auth.realm := of_decide_eq_true hequal.symm
      have hle := hcredit.count_le
      have hcount' : handled.2.count = s.auth.count + 1 := by omega
      by_cases haccepted : handled.1 = true
      · have hone : handled.2.count = 1 := by
          have := hhandled.mp haccepted
          omega
        have hsent := hunsent haccepted (by simp [hnamed])
        have hbound := hcredit.bound
        simp only [haccepted, if_true, hnamed, Option.toList_some, Option.some_or]
        refine kept_receiving hphase h.twice h.answered (fun _ => ⟨hsent, by simp [hdigest]⟩)
          fun _ => ?_
        exact
          { count_le := by simp [hone]
            weak := fun hne => absurd hdigest hne
            sent := fun htrue => by simp [hsent] at htrue
            bound := by simp only [hrealm, hkeep]; omega
            pending := fun _ _ => by simp only [hrealm, hkeep]; omega
            counted := fun _ => .inr (by simp [hrealm])
            offered := fun _ => by simp [hrealm]
            asks := fun hne => absurd hdigest hne
            considered := fun _ => hsent }
      · have hone : s.auth.count = 1 := by
          have := mt hhandled.mpr haccepted
          omega
        simp only [haccepted]
        refine kept_refused rfl h.twice h.answered fun r hr => ?_
        obtain rfl : parsed.2.realm = r := by simpa [hnamed] using hr
        rcases hcredit.counted hone with hanswered | hbefore
        · exact hkeep ▸ hanswered
        · exact hrepeated (hkeep ▸ hbefore)

/-! ## The steps -/

/-- A header line. -/
lemma kept_headerLine {code : Nat} (h : s.Kept) (hphase : s.phase = .receiving code) {line : Bytes}
    (hline : s.LineAnswerable line) : (s.headerLine line).Kept := by
  obtain ⟨hbasic, hdigest, hfolded⟩ := scheme_of_readLine s.auth line
  unfold headerLine
  unfold LineAnswerable at hline
  cases hread : s.auth.readLine line with
  | other => exact h
  | passedOver contents =>
      refine kept_receiving hphase h.twice h.answered (h.receiving_asking hphase) fun hscheme => ?_
      exact { h.receiving_credit hphase hscheme with }
  | basic contents =>
      simp only [hread] at hline
      obtain ⟨hntlm, hweak⟩ := hbasic contents hread
      exact kept_basicLine h hphase hntlm hweak hline
  | digest contents =>
      simp only [hread] at hline
      obtain ⟨houtcome, hscheme, hsent, hrealm⟩ := handleDigest_outcome s.auth contents
      exact kept_digestLine h hphase (hdigest contents hread) hline parseHeader_realm hscheme
        hrealm (fun hhandled => .inl ⟨rfl, hsent hhandled⟩) houtcome
  | folded header =>
      simp only [hread] at hline
      have hremembered := hfolded header hread
      obtain ⟨houtcome, hscheme, hsent, hrealm⟩ := processDigestHeaderLine_outcome s.auth header
      exact kept_digestLine h hphase (by simp [hremembered]) hline.1 parseHeader_realm
        (hscheme.trans hremembered) hrealm (fun _ => .inr ⟨rfl, hsent, hline.2⟩) houtcome
  | ntlm =>
      unfold ProxyAuth.handleNtlm
      split_ifs with hchosen
      · exact kept_receiving hphase h.twice h.answered (fun _ => ⟨rfl, by simp⟩)
          fun hscheme => absurd rfl hscheme
      · exact kept_receiving hphase h.twice h.answered (h.receiving_asking hphase)
          fun hscheme => absurd hscheme hchosen

/-- What a request with a header for the proxy leaves behind. -/
lemma pbproxyHttpHeaderToSend_cases (p : ProxyAuth) (options : ProxyOptions) (ntlm : NtlmAnswer) :
    let r := p.pbproxyHttpHeaderToSend options ntlm
    r.1 = p.builds options ntlm ∧ (r.1 = false → r.2 = p) ∧
      (r.2.scheme = p.scheme ∧ r.2.realm = p.realm ∧ r.2.count = p.count) ∧
      (r.1 = true → p.scheme ≠ .ntlm → r.2.sent = true) := by
  unfold ProxyAuth.pbproxyHttpHeaderToSend
  cases hbuilds : p.builds options ntlm with
  | false => simp
  | true =>
      cases hscheme : p.scheme with
      | none => simp [ProxyAuth.builds, hscheme] at hbuilds
      | basic => simp
      | digest => simp
      | ntlm => simp

/-- Where a request may go out, one more sending is left for the realm. -/
lemma Kept.may_send (h : s.Kept) (hphase : s.phase = .ready ∨ s.phase = .retrying)
    (hscheme : s.auth.scheme ≠ .ntlm) :
    s.Credit ∧ s.auth.sent = false ∧ s.answers.count s.auth.realm ≤ s.auth.count := by
  rcases hphase with hready | hretrying
  · have hcredit := h.credit (by rw [hready]; trivial) hscheme
    obtain ⟨-, hsent, hidle⟩ := h.fresh hready
    exact ⟨hcredit, hsent, hcredit.pending hsent (.inl hidle)⟩
  · have hcredit := h.credit (by rw [hretrying]; trivial) hscheme
    have hsent := h.unsent hretrying
    have hoffered := (h.retried hretrying hscheme).1
    exact ⟨hcredit, hsent, hcredit.pending hsent (.inr (List.ne_nil_of_mem hoffered))⟩

/-- A request. -/
lemma kept_sendRequest (h : s.Kept) {options : ProxyOptions} {ntlm : NtlmAnswer}
    (hphase : s.phase = .ready ∨ s.phase = .retrying)
    (hguard : s.phase = .retrying → s.auth.scheme ≠ .ntlm → s.auth.builds options ntlm = true) :
    (s.sendRequest options ntlm).Kept := by
  obtain ⟨hbuilds, hunbuilt, ⟨hscheme, hrealm, hcount⟩, hsent⟩ :=
    pbproxyHttpHeaderToSend_cases s.auth options ntlm
  unfold sendRequest
  generalize s.auth.pbproxyHttpHeaderToSend options ntlm = header at *
  rcases header with ⟨built, after⟩
  obtain rfl : built = s.auth.builds options ntlm := hbuilds
  have hactive : s.phase.Active := by rcases hphase with hp | hp <;> rw [hp] <;> trivial
  -- Sent once more, a realm has been answered at most twice.
  have htwice : ∀ r, List.count r (if s.auth.builds options ntlm = true ∧ s.auth.scheme ≠ .ntlm
      then s.answers ++ [s.auth.realm] else s.answers) ≤ 2 := by
    intro r
    split_ifs with hsends
    · obtain ⟨hcredit, -, hle⟩ := h.may_send hphase hsends.2
      have hone := hcredit.count_le
      have hbefore := h.twice r
      rw [List.count_append, List.count_singleton]
      by_cases hsame : s.auth.realm = r
      · subst hsame
        simp only [beq_self_eq_true, if_true]
        omega
      · simpa [hsame] using hbefore
    · exact h.twice r
  have hanswered : (s.unanswered || decide (s.phase = .retrying ∧
      s.auth.builds options ntlm = false ∧ s.auth.scheme ≠ .ntlm)) = false := by
    rw [h.answered, Bool.false_or, decide_eq_false_iff_not]
    rintro ⟨hretrying, hnot, hne⟩
    simp [hguard hretrying hne] at hnot
  refine
    { refused := nofun
      failed := nofun
      passed := fun hp => by rcases hp with hp | hp <;> cases hp
      twice := htwice
      retried := nofun
      answered := hanswered
      fresh := nofun
      asking := fun _ hoffered => absurd rfl hoffered
      credit := fun _ hntlm => ?_
      unsent := nofun }
  dsimp only at hntlm hscheme hrealm hcount hunbuilt hsent ⊢
  rw [hscheme] at hntlm
  obtain ⟨hcredit, hbefore, hle⟩ := h.may_send hphase hntlm
  have hone := hcredit.count_le
  cases hheader : s.auth.builds options ntlm with
  | true =>
      exact
        { count_le := by rwa [hcount]
          weak := by rw [hscheme, hcount]; exact hcredit.weak
          sent := fun _ => by simp [hntlm, hrealm]
          bound := by simp [hntlm, hrealm, hcount, hle]
          pending := fun hfalse => by simp [hsent hheader hntlm] at hfalse
          counted := fun _ => .inl (by simp [hntlm, hrealm])
          offered := fun hoffered => absurd rfl hoffered
          asks := nofun
          considered := nofun }
  | false =>
      have hready : s.phase = .ready :=
        hphase.resolve_right fun hretrying => by simp [hguard hretrying hntlm] at hheader
      obtain rfl := hunbuilt hheader
      have hzero := (h.fresh hready).1
      exact
        { count_le := hone
          weak := hcredit.weak
          sent := fun htrue => by simp [hbefore] at htrue
          bound := by simpa using hcredit.bound
          pending := fun _ _ => by simpa using hle
          counted := fun hcounted => by simp [hzero] at hcounted
          offered := fun hoffered => absurd rfl hoffered
          asks := nofun
          considered := nofun }

/-- A response leaves nothing that was passed over unanswered. -/
lemma passedOver_answered {options : ProxyOptions} (hguard : Answerable options s .finish)
    (hphase : s.phase = .receiving 407) (hidle : s.considered = false) :
    (∀ r ∈ s.passedOver, r ∈ s.answers) ∧
      (s.auth.sent = true ∨ s.auth.scheme = .none ∨ s.auth.scheme = .ntlm) := by
  simpa [hidle] using hguard hphase

/-- A response whose challenges cannot be answered. -/
lemma kept_failed (h : s.Kept) (hphase : s.phase = .receiving 407) {options : ProxyOptions}
    (hguard : Answerable options s .finish)
    (hfails : s.auth.sent = true ∨ s.auth.scheme = .none) :
    ({ s with phase := .failed } : ProxyRun).Kept where
  refused := nofun
  failed _ := by
    by_contra hoffered
    obtain ⟨hsent, hscheme⟩ := h.receiving_asking hphase hoffered
    rcases hfails with hs | hs
    · simp [hsent] at hs
    · exact hscheme hs
  passed _ hidle := (passedOver_answered hguard hphase hidle).1
  twice := h.twice
  retried := nofun
  answered := h.answered
  fresh := nofun
  asking := False.elim
  credit := False.elim
  unsent := nofun

/-- A response after which the program tries again. -/
lemma kept_retrying (h : s.Kept) (hphase : s.phase = .receiving 407) {options : ProxyOptions}
    (hguard : Answerable options s .finish)
    (hfails : ¬(s.auth.sent = true ∨ s.auth.scheme = .none)) :
    ({ s with phase := .retrying } : ProxyRun).Kept := by
  obtain ⟨hsent, hscheme⟩ := not_or.mp hfails
  have hunsent : s.auth.sent = false := Bool.eq_false_iff.mpr hsent
  refine
    { refused := nofun
      failed := nofun
      passed := fun _ hidle => (passedOver_answered hguard hphase hidle).1
      twice := h.twice
      retried := fun _ hntlm => ?_
      answered := h.answered
      fresh := nofun
      asking := fun _ => h.receiving_asking hphase
      credit := fun _ hntlm => { h.receiving_credit hphase hntlm with }
      unsent := fun _ => hunsent }
  have hcredit := h.receiving_credit hphase hntlm
  -- A response without an accepted challenge answers credentials, and they have not been sent.
  have hconsidered : s.considered = true := by
    by_contra hidle
    rcases (passedOver_answered hguard hphase (Bool.eq_false_iff.mpr hidle)).2 with hs | hs | hs
    · exact hsent hs
    · exact hscheme hs
    · exact hntlm hs
  have hoffered : s.offered ≠ [] := by
    have hasks := hguard hphase
    rw [if_pos hconsidered] at hasks
    exact hasks hntlm
  have hle := hcredit.pending hunsent (.inr hoffered)
  exact ⟨hcredit.offered hoffered, hle.trans hcredit.count_le⟩

/-- A response which is not the proxy's, or which ends its part. -/
lemma kept_letThrough (h : s.Kept) : ({ s with phase := .letThrough } : ProxyRun).Kept where
  refused := nofun
  failed := nofun
  passed hp := by rcases hp with hp | hp <;> cases hp
  twice := h.twice
  retried := nofun
  answered := h.answered
  fresh := nofun
  asking := False.elim
  credit := False.elim
  unsent := nofun

/-- The end of a response. -/
lemma kept_finishResponse {code : Nat} (h : s.Kept) (hphase : s.phase = .receiving code)
    {options : ProxyOptions} (hguard : Answerable options s .finish) :
    (s.finishResponse options code).Kept := by
  unfold finishResponse pbproxyHandleFinish
  by_cases hcode : code = 407
  · subst hcode
    by_cases hfails : s.auth.sent = true ∨ s.auth.scheme = .none
    · simpa [hfails] using kept_failed h hphase hguard hfails
    · simpa [hfails] using kept_retrying h hphase hguard hfails
  · by_cases htunnel : options.proxyType = .httpConnect ∧ code / 100 = 2
    · simpa [hcode, htunnel] using kept_letThrough h
    · simpa [hcode, htunnel] using kept_letThrough h

/-- The beginning of a transaction. -/
lemma kept_start (p : ProxyAuth) :
    (⟨.ready, p.initializeFields, [], [], [], none, false, false⟩ : ProxyRun).Kept where
  refused := nofun
  failed := nofun
  passed hp := by rcases hp with hp | hp <;> cases hp
  twice := by simp
  retried := nofun
  answered := rfl
  fresh _ := ⟨rfl, rfl, rfl⟩
  asking _ hoffered := absurd rfl hoffered
  credit _ _ :=
    { count_le := Nat.zero_le 1
      weak := fun _ => rfl
      sent := nofun
      bound := by simp
      pending := by simp
      counted := nofun
      offered := fun hoffered => absurd rfl hoffered
      asks := nofun
      considered := nofun }
  unsent := nofun

/-- **One step keeps the invariant.** -/
lemma kept_step {options : ProxyOptions} {a : ProxyStep} {s' : ProxyRun} (h : s.Kept)
    (hguard : Answerable options s a) (hstep : proxyStep options s a = some s') : s'.Kept := by
  cases a with
  | start =>
      cases hstep
      exact kept_start s.auth
  | send ntlm =>
      simp only [proxyStep, Option.ite_none_right_eq_some, Option.some.injEq] at hstep
      obtain ⟨hphase, rfl⟩ := hstep
      exact kept_sendRequest h hphase hguard
  | status code =>
      simp only [proxyStep, Option.ite_none_right_eq_some, Option.some.injEq] at hstep
      obtain ⟨hphase, rfl⟩ := hstep
      have hactive : s.phase.Active := by rw [hphase]; trivial
      exact kept_receiving rfl h.twice h.answered (h.asking hactive)
        fun hscheme => { h.credit hactive hscheme with }
  | header line =>
      cases hphase : s.phase with
      | receiving code =>
          simp only [proxyStep, hphase, Option.some.injEq] at hstep
          exact hstep ▸ kept_headerLine h hphase hguard
      | _ => simp [proxyStep, hphase] at hstep
  | finish =>
      cases hphase : s.phase with
      | receiving code =>
          simp only [proxyStep, hphase, Option.some.injEq] at hstep
          exact hstep ▸ kept_finishResponse h hphase hguard
      | _ => simp [proxyStep, hphase] at hstep

end ProxyRun

/-! ## The runs -/

section Decidability

variable (s : ProxyRun)

instance (parsed : Bool × DigestParse) : Decidable (s.DigestLineAnswerable parsed) :=
  inferInstanceAs (Decidable (∀ _ : Bool, _ → _ → _))

instance (line : Bytes) : Decidable (s.LineAnswerable line) := by
  unfold ProxyRun.LineAnswerable
  split <;> infer_instance

instance (options : ProxyOptions) : ∀ a, Decidable (Answerable options s a)
  | .start | .status _ => .isTrue trivial
  | .send ntlm => inferInstanceAs
      (Decidable (s.phase = .retrying → s.auth.scheme ≠ .ntlm → s.auth.builds options ntlm = true))
  | .header line => inferInstanceAs (Decidable (s.LineAnswerable line))
  | .finish => inferInstanceAs (Decidable (s.phase = .receiving 407 → ite _ _ _))

end Decidability

/-- Credentials for a proxy. -/
def somebody : ProxyOptions := ⟨.httpGet, ascii "u", ascii "p"⟩

/-- A response with one challenge for Digest, in the realm `A`. -/
def asksForDigest : List ProxyStep :=
  [.send ⟨false, false⟩, .status 407,
    .header (ascii "Proxy-Authenticate: Digest realm=\"A\", nonce=\"n\"")]

end PubNub
