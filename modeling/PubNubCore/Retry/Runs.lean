import PubNubCore.Lib.Machine
import PubNubCore.Network.Netcore
import PubNubCore.Retry.Configuration

/-!
# Transactions that are retried

`pbntf_trans_outcome` of `core/pbpal_ntf_callback_admin.c` and its twin of
`core/pubnub_ntf_sync.c`, with the timer of `core/pbcc_request_retry_timer.c`.  What the state
machine of a transaction does between its outcomes matters here only by the two header lines that
leave something in the context.  So a **run** is made of the calls of the user, those lines, the
outcomes, and the thread of the timer.

**The ledger.**  The context keeps the status code, the `Retry-After` value and the retry counter of
whatever came last.  Next to it the model keeps what the attempt in progress has brought itself, how
often the transaction in progress has been retried, and each retry with the data it was decided on.

**What goes wrong.**  `delay` answers with the largest `size_t` if there shall be no retry, and the
callers take its lower 16 bits for 65535 milliseconds.  The same cast takes the delay modulo 65536.
The first exponent of the exponential policy is `-1`, which halves the minimum.  An attempt that
fails before its status line is judged by the status line of an earlier one.  An outcome which
finds the thread of the timer still at work leaves the counter to the next transaction.
-/

namespace PubNub

/-- A retry, with what it was decided on: the configuration, the transaction, the number of its
    retries with this one, and the attempt that has failed.  `wait` is the delay of the timer in
    milliseconds; its loop ends when the clock shows that much. -/
structure Retry where
  configuration : RetryConfiguration
  trans : Pbtt
  nth : Nat
  attempt : Attempt
  wait : Nat

/-- What is expected of a retry. -/
structure Retry.Sound (r : Retry) : Prop where
  counted : (r.nth : Int) ≤ r.configuration.maxRetries
  included : r.trans.group ∉ r.configuration.excludedEndpoints
  retryable : r.attempt.retryable = true
  long_enough : r.attempt.due r.configuration (r.nth - 1) * 1000 ≤ r.wait
  not_longer : r.wait < r.attempt.due r.configuration (r.nth - 1) * 1000 + 1000

/-! ## The machine -/

/-- The context, with `http_header_retry_after`, and the ledger. -/
structure RetryContext where
  pb : Pb
  configuration : Option RetryConfiguration
  trans : Pbtt
  retryAfter : Nat
  attempt : Attempt
  retried : Nat
  retries : List Retry

/-- The outcome of an attempt: its result, the state in which it leaves the context, whether the
    timer and its thread can be had, and the number which `random` yields. -/
structure OutcomeDetected where
  rslt : PubnubRes
  keptAlive : Bool := false
  alloc : Bool := true
  thread : Bool := true
  random : Nat := 0

/-- The steps of a run.  The numbers are what `atoi` makes of the header lines. -/
inductive RetryEvent
  | setRetryConfiguration (configuration : Option RetryConfiguration)
  | start (trans : Pbtt)
  | statusLine (code : Int)
  | retryAfterLine (seconds : Int)
  | outcome (o : OutcomeDetected)
  | retryExpired
  | retryThreadEnds

namespace RetryContext

/-- A context that has just been initialised. -/
def init : RetryContext where
  pb := Pb.init {}
  configuration := none
  trans := .none
  retryAfter := 0
  attempt := {}
  retried := 0
  retries := []

variable (s : RetryContext)

/-- `pubnub_set_retry_configuration`. -/
def setRetryConfiguration (configuration : Option RetryConfiguration) : RetryContext :=
  { s with
    configuration
    pb := { s.pb with
      options := { s.pb.options with retryConfiguration := configuration.isSome } } }

/-- A function of the API starts a transaction. -/
def start (trans : Pbtt) : RetryContext :=
  { s with
    trans
    pb := { s.pb with state := if s.pb.state = .idle then .ready else .keepAliveReady }
    attempt := {}
    retried := 0 }

/-- A status line has been read: `http_code` is an `uint16_t`. -/
def statusLine (code : Int) : RetryContext :=
  { s with
    pb := { s.pb with httpCode := (code % 2 ^ 16).toNat, state := .rxHeaders }
    retryAfter := 0
    attempt := { status := some code } }

/-- A `Retry-After` header has been read. -/
def retryAfterLine (seconds : Int) : RetryContext :=
  { s with
    retryAfter := (seconds % 2 ^ 16).toNat
    attempt := { s.attempt with retryAfter := seconds } }

/-- The delay which `pbntf_trans_outcome` finds, an `uint16_t`.  No timer is the same as no
    delay. -/
def retryDelay (o : OutcomeDetected) : Nat :=
  match s.configuration with
  | none => 0
  | some configuration =>
      if s.pb.retryTimer = .null && !o.alloc then 0
      else
        configuration.delay s.trans s.pb.httpRetryCount s.pb.httpCode s.retryAfter o.random % 2 ^ 16

/-- Enters a retry into the ledger. -/
def retry (pb : Pb) (wait : Nat) : RetryContext :=
  { s with
    pb
    retried := s.retried + 1
    retries := (s.configuration.toList.map fun configuration =>
      ⟨configuration, s.trans, s.retried + 1, s.attempt, wait⟩) ++ s.retries }

/-- `pbntf_trans_outcome`.  Where it waits for the thread of the timer in vain it does not
    return. -/
def outcome (o : OutcomeDetected) : Option RetryContext :=
  let delay := s.retryDelay o
  let r := { s.pb with lastResult := o.rslt }.pbntfTransOutcome
    { retryDelay := delay, retryThread := o.thread } (if o.keptAlive then .keepAliveIdle else .idle)
  match r.2 with
  | .hang => none
  | .fsm => some { s.retry r.1 0 with attempt := {} }
  | .none => some (if r.1.state = .waitRetry then s.retry r.1 delay else { s with pb := r.1 })
  | .callback => some { s with pb := r.1 }

/-- The thread of the timer has waited long enough; it calls the state machine if the context
    still waits for that. -/
def retryExpired : RetryContext :=
  if s.pb.state = .waitRetry then
    { s with pb := { s.pb with state := .retry, retryTimer := .calling }, attempt := {} }
  else { s with pb := { s.pb with retryTimer := .stopped } }

/-- The thread of the timer ends. -/
def retryThreadEnds : RetryContext := { s with pb := { s.pb with retryTimer := .stopped } }

/-- One step. -/
def step : RetryEvent → Option RetryContext
  | .setRetryConfiguration configuration => some (s.setRetryConfiguration configuration)
  | .start trans => if s.pb.canStart then some (s.start trans) else none
  | .statusLine code =>
      if s.pb.canStart || s.pb.state = .waitRetry then none else some (s.statusLine code)
  | .retryAfterLine seconds =>
      if s.pb.state = .rxHeaders then some (s.retryAfterLine seconds) else none
  | .outcome o => if s.pb.canStart then none else s.outcome o
  | .retryExpired => if s.pb.retryTimer = .waiting then some s.retryExpired else none
  | .retryThreadEnds => if s.pb.retryTimer = .calling then some s.retryThreadEnds else none

end RetryContext

/-- A context and its retries. -/
def retryMachine : Machine RetryContext RetryEvent where
  init := .init
  step := RetryContext.step

/-- How `pbntf_trans_outcome` ends: it waits for ever, it has left the context in the state it was
    given, or there is a retry. -/
inductive OutcomeSpec (pb : Pb) (a : Answer) (state : PbState) : Pb × Outcome → Prop
  | hang {pb' : Pb} : OutcomeSpec pb a state (pb', .hang)
  | finished {pb' : Pb} {out : Outcome} : out = .none ∨ out = .callback → pb'.state = state →
      pb'.httpCode = pb.httpCode → pb'.options = pb.options → OutcomeSpec pb a state (pb', out)
  | retry {pb' : Pb} {out : Outcome} : pb.options.retryConfiguration = true →
      pb.lastResult.retryable = true → 0 < a.retryDelay →
      pb'.httpCode = pb.httpCode → pb'.options = pb.options →
      pb'.httpRetryCount = pb.httpRetryCount + 1 →
      out = .none ∧ pb'.state = .waitRetry ∨
        out = .fsm ∧ a.retryThread = false ∧ pb'.state = .retry →
      OutcomeSpec pb a state (pb', out)

lemma Pb.pbntfTransOutcome_spec (pb : Pb) (a : Answer) (state : PbState) :
    OutcomeSpec pb a state (pb.pbntfTransOutcome a state) := by
  rw [pbntfTransOutcome]
  split
  · rename_i hr
    simp only [Bool.and_eq_true, decide_eq_true_eq] at hr
    rw [requestRetryTimerStart]
    split
    · exact .finished (.inl rfl) rfl rfl rfl
    · exact .finished (.inl rfl) rfl rfl rfl
    · split
      · exact .retry hr.1.1 hr.1.2 hr.2 rfl rfl rfl (.inl ⟨rfl, rfl⟩)
      · rename_i hth
        exact .retry hr.1.1 hr.1.2 hr.2 rfl rfl rfl (.inr ⟨rfl, by simpa using hth, rfl⟩)
    · split
      · exact .retry hr.1.1 hr.1.2 hr.2 rfl rfl rfl (.inl ⟨rfl, rfl⟩)
      · rename_i hth
        exact .retry hr.1.1 hr.1.2 hr.2 rfl rfl rfl (.inr ⟨rfl, by simpa using hth, rfl⟩)
  · rw [reportOutcome]
    split
    · exact .hang
    · exact .finished (.inr rfl) rfl rfl rfl
    · exact .finished (.inr rfl) rfl rfl rfl
    · exact .finished (.inr rfl) rfl rfl rfl

namespace RetryContext

variable {s s' : RetryContext} {o : OutcomeDetected}

/-! ## Where the code decides as it should -/

/-- The context holds the data of the attempt: its status line came before a sensible
    `Retry-After` value, or nothing that an earlier attempt has left tells how long to wait. -/
def OwnData (s : RetryContext) : Prop :=
  match s.attempt.status with
  | some code => 0 ≤ code ∧ code < 2 ^ 16 ∧ (code = 429 → 0 ≤ s.attempt.retryAfter)
  | none => ¬ (s.pb.httpCode = 429 ∧ 0 < s.retryAfter)

/-- The policy can be used: its minimum is not negative, the exponent makes sense, and the counter
    that goes into the exponent counts the retries of this transaction. -/
def PolicyClear (s : RetryContext) (configuration : RetryConfiguration) : Prop :=
  0 ≤ configuration.minimumDelay ∧ configuration.Regular s.pb.httpRetryCount ∧
    (configuration.policy = .exponential → s.pb.httpRetryCount = s.retried)

/-- An outcome for which the configuration says that there is a retry, and says so of the right
    transaction; the thread of the timer can be had, and the delay fits an `uint16_t`. -/
structure OutcomeClear (s : RetryContext) (o : OutcomeDetected)
    (configuration : RetryConfiguration) : Prop where
  thread : o.thread = true
  retryable : configuration.retryable s.trans s.pb.httpRetryCount s.pb.httpCode = true
  group : s.trans = .deleteMessages → .messageStorage ∉ configuration.excludedEndpoints
  ownData : s.OwnData
  policy : s.attempt.told = false → s.PolicyClear configuration
  fits : s.attempt.due configuration s.retried * 1000 + (o.random % 1000 : Nat) < 2 ^ 16

/-- The outcomes that may lead to a retry are clear. -/
def StepClear (s : RetryContext) : RetryEvent → Prop
  | .outcome o => ∀ configuration ∈ s.configuration, o.rslt.retryable = true →
      s.OutcomeClear o configuration
  | _ => True

/-! ## The invariant -/

/-- The context and its ledger agree. -/
structure Tracks (s : RetryContext) : Prop where
  configuration : s.pb.options.retryConfiguration = s.configuration.isSome
  counter : s.pb.canStart = false → s.retried ≤ s.pb.httpRetryCount
  code : ∀ code, s.attempt.status = some code → s.pb.httpCode = (code % 2 ^ 16).toNat
  after : s.attempt.status ≠ none → s.retryAfter = (s.attempt.retryAfter % 2 ^ 16).toNat
  headers : s.pb.state = .rxHeaders → s.attempt.status ≠ none

lemma tracks_init : Tracks .init where
  configuration := rfl
  counter := fun _ => le_rfl
  code := fun _ h => nomatch h
  after := fun h => absurd rfl h
  headers := fun h => nomatch h

/-- What `pbntf_trans_outcome` does to the context: there is no retry, or the timer has been
    started, or the state machine goes on at once for want of a thread. -/
lemma outcome_cases (h : s.outcome o = some s') :
    (∃ pb : Pb, pb.canStart = true ∧ pb.httpCode = s.pb.httpCode ∧ pb.options = s.pb.options ∧
      s' = { s with pb }) ∨
    (s.pb.options.retryConfiguration = true ∧ o.rslt.retryable = true ∧ 0 < s.retryDelay o ∧
      ∃ pb : Pb, pb.httpCode = s.pb.httpCode ∧ pb.options = s.pb.options ∧
        pb.httpRetryCount = s.pb.httpRetryCount + 1 ∧
        (pb.state = .waitRetry ∧ s' = s.retry pb (s.retryDelay o) ∨
          o.thread = false ∧ pb.state = .retry ∧ s' = { s.retry pb 0 with attempt := {} })) := by
  rw [outcome] at h
  dsimp only at h
  have hspec := Pb.pbntfTransOutcome_spec { s.pb with lastResult := o.rslt }
    { retryDelay := s.retryDelay o, retryThread := o.thread }
    (if o.keptAlive then .keepAliveIdle else .idle)
  generalize Pb.pbntfTransOutcome _ _ _ = r at h hspec
  cases hspec with
  | hang => cases h
  | @finished pb' out hout hst hcode hopt =>
      have hcan : pb'.canStart = true := by
        rw [Pb.canStart, hst]
        cases o.keptAlive <;> rfl
      have hwait : pb'.state ≠ .waitRetry := by
        rw [hst]
        cases o.keptAlive <;> simp
      refine .inl ⟨pb', hcan, hcode, hopt, ?_⟩
      rcases hout with rfl | rfl
      · simpa [hwait] using h.symm
      · simpa using h.symm
  | @retry pb' out hc hr hpos hcode hopt hcount hend =>
      refine .inr ⟨hc, hr, hpos, pb', hcode, hopt, hcount, ?_⟩
      rcases hend with ⟨rfl, hst⟩ | ⟨rfl, hth, hst⟩
      · refine .inl ⟨hst, ?_⟩
        simpa [hst] using h.symm
      · refine .inr ⟨hth, hst, ?_⟩
        simpa using h.symm

/-! ## Every step -/

lemma Tracks.of_pb (h : s.Tracks) {pb : Pb} (hst : pb.canStart = true)
    (hcode : pb.httpCode = s.pb.httpCode) (hopt : pb.options = s.pb.options) :
    Tracks { s with pb } where
  configuration := by rw [← h.configuration]; exact congrArg _ hopt
  counter := fun hc => absurd (hst.symm.trans hc) (by simp)
  code := fun code hs => hcode.trans (h.code code hs)
  after := h.after
  headers := fun hrx => by
    rw [Pb.canStart, show pb.state = .rxHeaders from hrx] at hst
    cases hst

lemma Tracks.retry (h : s.Tracks) (hbusy : s.pb.canStart = false) {pb : Pb} {wait : Nat}
    (hst : pb.state = .waitRetry) (hcode : pb.httpCode = s.pb.httpCode)
    (hopt : pb.options = s.pb.options) (hcount : pb.httpRetryCount = s.pb.httpRetryCount + 1) :
    (s.retry pb wait).Tracks where
  configuration := by rw [show (s.retry pb wait).pb = pb from rfl, hopt]; exact h.configuration
  counter := fun _ => by
    have := h.counter hbusy
    simp only [RetryContext.retry, hcount]
    omega
  code := fun code hs => hcode.trans (h.code code hs)
  after := h.after
  headers := fun hrx => by
    rw [show (s.retry pb wait).pb = pb from rfl, hst] at hrx
    cases hrx

/-- A step after which another attempt begins. -/
lemma Tracks.newAttempt (ha : s'.attempt = {})
    (hconf : s'.pb.options.retryConfiguration = s'.configuration.isSome)
    (hcount : s'.pb.canStart = false → s'.retried ≤ s'.pb.httpRetryCount)
    (hst : s'.pb.state ≠ .rxHeaders) : s'.Tracks where
  configuration := hconf
  counter := hcount
  code := fun code hs => by rw [ha] at hs; cases hs
  after := fun hs => absurd (congrArg Attempt.status ha) hs
  headers := fun hrx => absurd hrx hst

/-- **The context and its ledger agree after every step.** -/
lemma Tracks.step (h : s.Tracks) {e : RetryEvent} (hst : s.step e = some s') : s'.Tracks := by
  cases e with
  | setRetryConfiguration configuration =>
      obtain rfl := Option.some.inj hst
      exact ⟨rfl, h.counter, h.code, h.after, h.headers⟩
  | start trans =>
      simp only [RetryContext.step, Option.ite_none_right_eq_some] at hst
      obtain ⟨-, hst⟩ := hst
      obtain rfl := Option.some.inj hst
      refine Tracks.newAttempt rfl h.configuration (fun _ => Nat.zero_le _) ?_
      simp only [start]
      split <;> simp
  | statusLine code =>
      simp only [RetryContext.step, Option.ite_none_left_eq_some] at hst
      obtain ⟨hbusy, hst⟩ := hst
      obtain rfl := Option.some.inj hst
      simp only [Bool.or_eq_true, not_or, Bool.not_eq_true] at hbusy
      refine ⟨h.configuration, fun _ => h.counter hbusy.1, ?_, fun _ => rfl, fun _ => ?_⟩
      · rintro c ⟨rfl⟩
        rfl
      · simp [statusLine]
  | retryAfterLine seconds =>
      simp only [RetryContext.step, Option.ite_none_right_eq_some] at hst
      obtain ⟨-, hst⟩ := hst
      obtain rfl := Option.some.inj hst
      exact ⟨h.configuration, h.counter, h.code, fun _ => rfl, h.headers⟩
  | outcome o =>
      simp only [RetryContext.step, Option.ite_none_left_eq_some, Bool.not_eq_true] at hst
      obtain ⟨hbusy, hst⟩ := hst
      rcases outcome_cases hst with
        ⟨pb, hcan, hcode, hopt, rfl⟩ | ⟨-, -, -, pb, hcode, hopt, hcount, hend⟩
      · exact h.of_pb hcan hcode hopt
      · rcases hend with ⟨hwait, rfl⟩ | ⟨-, hretry, rfl⟩
        · exact h.retry hbusy hwait hcode hopt hcount
        · have := h.counter hbusy
          refine Tracks.newAttempt rfl ?_ (fun _ => ?_) ?_
          · rw [show ({ s.retry pb 0 with attempt := {} } : RetryContext).pb = pb from rfl, hopt]
            exact h.configuration
          · simp only [RetryContext.retry, hcount]
            omega
          · simp [RetryContext.retry, hretry]
  | retryExpired =>
      simp only [RetryContext.step, Option.ite_none_right_eq_some] at hst
      obtain ⟨-, hst⟩ := hst
      obtain rfl := Option.some.inj hst
      rw [retryExpired]
      split
      · rename_i hwait
        have hbusy : s.pb.canStart = false := by rw [Pb.canStart, hwait]; rfl
        refine Tracks.newAttempt rfl h.configuration (fun _ => h.counter hbusy) ?_
        simp
      · exact ⟨h.configuration, h.counter, h.code, h.after, h.headers⟩
  | retryThreadEnds =>
      simp only [RetryContext.step, Option.ite_none_right_eq_some] at hst
      obtain ⟨-, hst⟩ := hst
      obtain rfl := Option.some.inj hst
      exact ⟨h.configuration, h.counter, h.code, h.after, h.headers⟩

lemma tracks_of_reachable {G : RetryContext → RetryEvent → Prop}
    (hr : retryMachine.Reachable G s) : s.Tracks :=
  hr.invariant tracks_init fun _ _ _ h _ hst => h.step hst

/-- What the code takes for the seconds the server has told is what the server has told. -/
lemma told_eq (h : s.Tracks) (hown : s.OwnData)
    (hfits : s.attempt.told = true → s.attempt.retryAfter < 2 ^ 16) :
    s.attempt.told = (0 < s.retryAfter && s.pb.httpCode = 429 : Bool) ∧
      (s.attempt.told = true → s.attempt.retryAfter = s.retryAfter) := by
  rw [OwnData] at hown
  cases hs : s.attempt.status with
  | none =>
      rw [hs] at hown
      have hfalse : (0 < s.retryAfter && s.pb.httpCode = 429 : Bool) = false := by
        simpa [and_comm] using hown
      simp [Attempt.told, hs, hfalse]
  | some code =>
      rw [hs] at hown
      obtain ⟨h0, hlt, h429⟩ := hown
      have hcode := h.code code hs
      have hafter := h.after (by simp [hs])
      have hcode429 : s.pb.httpCode = 429 ↔ code = 429 := by omega
      by_cases hc : code = 429
      · have hnonneg := h429 hc
        simp only [Attempt.told, hs, hc, hcode429.mpr hc, decide_true, Bool.true_and,
          Bool.and_true, decide_eq_decide, decide_eq_true_eq] at hfits ⊢
        omega
      · have hne := mt hcode429.mp hc
        simp [Attempt.told, hs, hc, hne]

/-- The number that goes into the exponent makes no difference where there is no exponent. -/
lemma due_eq {configuration : RetryConfiguration}
    (h : s.attempt.told = false → s.PolicyClear configuration) :
    s.attempt.due configuration s.pb.httpRetryCount = s.attempt.due configuration s.retried := by
  rw [Attempt.due, Attempt.due]
  split
  · rfl
  · rename_i ht
    obtain ⟨-, -, hcount⟩ := h (by simpa using ht)
    cases hp : configuration.policy with
    | linear => simp only [RetryConfiguration.policyDelay, hp]
    | exponential => rw [hcount hp]

/-- **A clear outcome leads to a sound retry.** -/
lemma OutcomeClear.sound (h : s.Tracks) (hbusy : s.pb.canStart = false)
    {configuration : RetryConfiguration} (hc : s.configuration = some configuration)
    (ho : s.OutcomeClear o configuration) (hpos : 0 < s.retryDelay o) :
    Retry.Sound ⟨configuration, s.trans, s.retried + 1, s.attempt, s.retryDelay o⟩ := by
  obtain ⟨hincl, hmax, hstatus⟩ := (configuration.retryable_iff).mp ho.retryable
  have hfits := ho.fits
  have htoldfits : s.attempt.told = true → s.attempt.retryAfter < 2 ^ 16 := by
    intro ht
    rw [Attempt.due, if_pos ht] at hfits
    omega
  obtain ⟨htold, hafter⟩ := told_eq h ho.ownData htoldfits
  have hdelay : (s.retryDelay o : Int) =
      s.attempt.due configuration s.retried * 1000 + (o.random % 1000 : Nat) := by
    have hd : s.retryDelay o = configuration.delay s.trans s.pb.httpRetryCount s.pb.httpCode
        s.retryAfter o.random % 2 ^ 16 := by
      rw [retryDelay, hc] at hpos ⊢
      dsimp only at hpos ⊢
      split at hpos
      · exact absurd hpos (lt_irrefl 0)
      · rename_i ha
        exact if_neg ha
    rw [← due_eq ho.policy] at hfits ⊢
    rw [hd]
    exact RetryConfiguration.delay_eq_due ho.retryable htold hafter
      (fun ht => ⟨(ho.policy ht).1, (ho.policy ht).2.1⟩) hfits
  have hjitter : o.random % 1000 < 1000 := Nat.mod_lt _ (by norm_num)
  have := h.counter hbusy
  refine ⟨?_, ?_, ?_, ?_, ?_⟩
  · push_cast
    omega
  · by_cases hdel : s.trans = .deleteMessages
    · rw [hdel]
      exact ho.group hdel
    · rwa [← Pbtt.endpoint_eq_group hdel]
  · show retryableStatus _ = true
    cases hs : s.attempt.status with
    | none => rfl
    | some code =>
        have hown := ho.ownData
        rw [OwnData, hs] at hown
        have hcode := h.code code hs
        rwa [show (s.pb.httpCode : Int) = code by omega] at hstatus
  all_goals
    simp only [Nat.add_sub_cancel]
    omega

/-- Every retry in the ledger is sound if the steps are clear. -/
lemma sound_step (h : s.Tracks) (hs : ∀ r ∈ s.retries, r.Sound) {e : RetryEvent}
    (hclear : s.StepClear e) (hst : s.step e = some s') : ∀ r ∈ s'.retries, r.Sound := by
  cases e with
  | outcome o =>
      simp only [RetryContext.step, Option.ite_none_left_eq_some, Bool.not_eq_true] at hst
      obtain ⟨hbusy, hst⟩ := hst
      rcases outcome_cases hst with
        ⟨pb, -, -, -, rfl⟩ | ⟨hconf, hres, hpos, pb, -, -, -, hend⟩
      · exact hs
      · obtain ⟨configuration, hc⟩ := Option.isSome_iff_exists.mp (h.configuration ▸ hconf)
        have ho := hclear configuration hc hres
        rcases hend with ⟨-, rfl⟩ | ⟨hth, -, -⟩
        · intro r hr
          simp only [RetryContext.retry, hc, Option.toList_some, List.map_cons, List.map_nil,
            List.cons_append, List.nil_append, List.mem_cons] at hr
          rcases hr with rfl | hr
          · exact ho.sound h hbusy hc hpos
          · exact hs r hr
        · exact absurd (hth.symm.trans ho.thread) (by simp)
  | setRetryConfiguration configuration =>
      obtain rfl := Option.some.inj hst
      exact hs
  | retryExpired =>
      simp only [RetryContext.step, Option.ite_none_right_eq_some] at hst
      obtain ⟨-, hst⟩ := hst
      obtain rfl := Option.some.inj hst
      rw [retryExpired]
      split
      · exact hs
      · exact hs
  | statusLine code =>
      simp only [RetryContext.step, Option.ite_none_left_eq_some] at hst
      obtain ⟨-, hst⟩ := hst
      obtain rfl := Option.some.inj hst
      exact hs
  | start | retryAfterLine | retryThreadEnds =>
      simp only [RetryContext.step, Option.ite_none_right_eq_some] at hst
      obtain ⟨-, hst⟩ := hst
      obtain rfl := Option.some.inj hst
      exact hs

/-- **Retries follow the configuration**: in a run whose outcomes are clear, each retry is within
    the number that is allowed, of a transaction that is not excluded, after an attempt that may be
    repeated, and after the wait that this attempt has asked for. -/
theorem retries_sound (hr : retryMachine.Reachable StepClear s) : ∀ r ∈ s.retries, r.Sound :=
  hr.invariant_of (fun _ => tracks_of_reachable) (fun _ h => absurd h List.not_mem_nil)
    fun _ _ _ h hs hclear hst => sound_step h hs hclear hst

/-- A transaction that is retried after an error of the server, after the delay of the policy, and
    once more when the server has asked for seven seconds. -/
def retriedTwice : List RetryEvent :=
  [.setRetryConfiguration (some (.linearAllocWithExcluded [2, -1])), .start .publish,
    .statusLine 503, .outcome { rslt := .httpError, random := 1250 }, .retryExpired,
    .retryThreadEnds, .statusLine 429, .retryAfterLine 7,
    .outcome { rslt := .httpError, keptAlive := true, random := 40 }]

/-- The steps of `retriedTwice` are clear. -/
def retriedTwiceTest (s : RetryContext) : RetryEvent → Bool
  | .outcome o => s.configuration.all fun configuration => !o.rslt.retryable || (o.thread
      && configuration.retryable s.trans s.pb.httpRetryCount s.pb.httpCode
      && s.trans ≠ .deleteMessages
      && (s.attempt.status = some 503 || s.attempt = ⟨some 429, 7⟩)
      && 0 ≤ configuration.minimumDelay && configuration.policy = .linear
      && s.attempt.due configuration s.retried * 1000 + (o.random % 1000 : Nat) < 2 ^ 16)
  | _ => true

lemma stepClear_of_test (s : RetryContext) (e : RetryEvent) (h : retriedTwiceTest s e = true) :
    s.StepClear e := by
  cases e with
  | outcome o =>
      intro configuration hc hres
      simp only [retriedTwiceTest, Option.all_eq_true] at h
      have h := h configuration hc
      simp only [hres, Bool.not_true, Bool.false_or, Bool.and_eq_true, Bool.or_eq_true,
        decide_eq_true_eq] at h
      obtain ⟨⟨⟨⟨⟨⟨hth, hret⟩, hdel⟩, hatt⟩, hmin⟩, hlin⟩, hfits⟩ := h
      refine ⟨hth, hret, fun hd => absurd hd hdel, ?_, fun _ => ⟨hmin, ?_, ?_⟩, hfits⟩
      · rw [OwnData]
        rcases hatt with hatt | hatt
        all_goals simp [hatt]
      · intro hp
        rw [hlin] at hp
        cases hp
      · intro hp
        rw [hlin] at hp
        cases hp
  | _ => trivial

theorem retries_sound_retriedTwice :
    ∃ s, retryMachine.Reachable StepClear s ∧ s.retries.map Retry.wait = [7040, 2250] ∧
      ∀ r ∈ s.retries, r.Sound := by
  obtain ⟨s, hr, hs⟩ := retryMachine.exists_reachable_of_replay retriedTwiceTest retriedTwice
    (fun s => s.retries.map Retry.wait = [7040, 2250]) stepClear_of_test (by decide +kernel)
  exact ⟨s, hr, by simpa using hs, retries_sound hr⟩

/-- A request that the server has refused for good is retried after 65.5 seconds. -/
def notFound : List RetryEvent :=
  [.setRetryConfiguration (some (.exponentialAllocWithExcluded [])), .start .publish,
    .statusLine 404, .outcome { rslt := .httpError }]

theorem retries_not_always_sound :
    ¬ ∀ s, retryMachine.Reachable Machine.anyStep s → ∀ r ∈ s.retries, r.Sound := by
  intro h
  obtain ⟨s, hr, hs⟩ := retryMachine.exists_reachable_of_replay (G := Machine.anyStep)
    (fun _ _ => true) notFound
    (fun s => s.retries.any fun r => r.wait = 65535 && !r.attempt.retryable)
    (fun _ _ _ => trivial) (by decide +kernel)
  obtain ⟨r, hmem, hbad⟩ := List.any_eq_true.mp hs
  simp [(h s hr r hmem).retryable] at hbad

end RetryContext

end PubNub
