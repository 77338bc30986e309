import Mathlib.Algebra.Order.Ring.Int
import Mathlib.Tactic.Linarith
import Mathlib.Tactic.Ring
import PubNubCore.Core.Transactions

/-!
# The retry configuration

`core/pubnub_retry_configuration.c`.  A failed transaction is sent again after a delay, which the
`Retry-After` header of the response or a policy of the user decides.

**What the code computes.**  `delay` is the source's function, with its widths: seconds as an
`int`, cast to a `size_t`, times 1000, plus the jitter.  A transaction that shall not be retried
gets the largest `size_t` as its delay.

**What it is meant to compute.**  `Attempt.due` says over the integers how long the next attempt has
to wait, from what this attempt alone has brought.  `RetryConfiguration.delay_eq_due` connects the
two.  It needs that the product fits the `uint16_t` in which the callers keep it, and that the
exponential policy is used where its exponent makes sense.
-/

namespace PubNub

/-! ## The configuration -/

/-- `pubnub_retry_policy_t`. -/
inductive RetryPolicy
  | linear | exponential
  deriving DecidableEq, Repr

/-- `pubnub_endpoint_t`, in the order of the source. -/
inductive PubnubEndpoint
  | unknown | messageSend | subscribe | presence | messageStorage | channelGroups | appContext
  | messageReactions | pam
  deriving DecidableEq, Repr

/-- The endpoints by their numbers; `PNRC_ENDPOINTS_COUNT` is the length. -/
def PubnubEndpoint.all : List PubnubEndpoint :=
  [.unknown, .messageSend, .subscribe, .presence, .messageStorage, .channelGroups, .appContext,
    .messageReactions, .pam]

/-- `struct pubnub_retry_configuration`.  `excludedEndpoints` lists the endpoints which the map of
    the source maps to `true`. -/
structure RetryConfiguration where
  policy : RetryPolicy
  maxRetries : Int
  minimumDelay : Int
  maximumDelay : Int
  excludedEndpoints : List PubnubEndpoint
  deriving DecidableEq, Repr

namespace RetryConfiguration

/-- `pubnub_retry_configuration_set_excluded_`: the list of the caller ends with `-1`, and numbers
    that stand for no endpoint are passed over. -/
def setExcluded (endpoints : List Int) : List PubnubEndpoint :=
  (endpoints.takeWhile (· ≠ -1)).filterMap fun i =>
    if 0 ≤ i then PubnubEndpoint.all[i.toNat]? else none

/-- `pubnub_retry_configuration_alloc_with_options_`. -/
def allocWithOptions (policy : RetryPolicy) (minimumDelay maximumDelay maximumRetry : Int)
    (excluded : List Int) : RetryConfiguration where
  policy := policy
  maxRetries := maximumRetry
  minimumDelay := minimumDelay
  maximumDelay := maximumDelay
  excludedEndpoints := setExcluded excluded

/-- `pubnub_retry_configuration_linear_alloc_with_options`. -/
def linearAllocWithOptions (delay maximumRetry : Int) (excluded : List Int) :
    RetryConfiguration :=
  allocWithOptions .linear delay 0 maximumRetry excluded

/-- `pubnub_retry_configuration_linear_alloc_with_excluded`. -/
def linearAllocWithExcluded (excluded : List Int) : RetryConfiguration :=
  allocWithOptions .linear 2 0 10 excluded

/-- `pubnub_retry_configuration_exponential_alloc_with_options`. -/
def exponentialAllocWithOptions (minimumDelay maximumDelay maximumRetry : Int)
    (excluded : List Int) : RetryConfiguration :=
  allocWithOptions .exponential minimumDelay maximumDelay maximumRetry excluded

/-- `pubnub_retry_configuration_exponential_alloc_with_excluded`. -/
def exponentialAllocWithExcluded (excluded : List Int) : RetryConfiguration :=
  allocWithOptions .exponential 2 150 6 excluded

end RetryConfiguration

/-! ## Which transactions are retried -/

/-- `pubnub_endpoint_from_transaction_`.  The transaction that deletes messages is not among its
    cases. -/
def Pbtt.endpoint : Pbtt → PubnubEndpoint
  | .subscribe | .subscribeV2 => .subscribe
  | .publish | .signal => .messageSend
  | .wherenow | .globalHerenow | .herenow | .leave | .heartbeat | .setState | .stateGet =>
      .presence
  | .history | .fetchHistory | .messageCounts | .historyWithActions => .messageStorage
  | .removeChannelGroup | .removeChannelFromGroup | .addChannelToGroup | .listChannelGroup =>
      .channelGroups
  | .getallUuidmetadata | .setUuidmetadata | .getUuidmetadata | .deleteUuidmetadata
  | .getallChannelmetadata | .setChannelmetadata | .getChannelmetadata | .removeChannelmetadata
  | .getMemberships | .setMemberships | .removeMemberships | .getMembers | .addMembers
  | .setMembers | .removeMembers => .appContext
  | .addAction | .removeAction | .getActions => .messageReactions
  | .grantToken | .revokeToken => .pam
  | .none | .time | .deleteMessages => .unknown

/-- The group of endpoints to which a transaction belongs: deleting messages is access to the
    persistent storage. -/
def Pbtt.group : Pbtt → PubnubEndpoint
  | .deleteMessages => .messageStorage
  | other => other.endpoint

lemma Pbtt.endpoint_eq_group {trans : Pbtt} (h : trans ≠ .deleteMessages) :
    trans.endpoint = trans.group := by
  cases trans
  case deleteMessages => exact absurd rfl h
  all_goals rfl

/-- The HTTP status codes after which a request is worth repeating; `0` is the absence of a
    status. -/
def retryableStatus (httpStatus : Int) : Bool :=
  httpStatus = 429 || 500 ≤ httpStatus || httpStatus = 0

namespace RetryConfiguration

variable (configuration : RetryConfiguration)

/-- `pubnub_retry_configuration_retryable_`. -/
def retryable (transaction : Pbtt) (currentRetry httpStatus : Nat) : Bool :=
  if transaction.endpoint ∈ configuration.excludedEndpoints ||
      configuration.maxRetries ≤ currentRetry then false
  else retryableStatus httpStatus

lemma retryable_iff {transaction : Pbtt} {currentRetry httpStatus : Nat} :
    configuration.retryable transaction currentRetry httpStatus = true ↔
      transaction.endpoint ∉ configuration.excludedEndpoints ∧
        currentRetry < configuration.maxRetries ∧ retryableStatus httpStatus = true := by
  simp [retryable, and_assoc]

/-! ## The delay -/

/-- The value of an `int` as a `size_t`. -/
def sizeT (i : Int) : Nat := (i % 2 ^ 64).toNat

/-- The delay of the exponential policy: the truncated smaller one of `minimum_delay * pow(2,
    current_retry - 1)` and `maximum_delay`.  The product is exact, and it is twice the delay here
    so that the first exponent may be `-1`.  The power is infinite from the exponent 1024 on; its
    product with zero is not a number, and `fmin` takes the other one. -/
def exponentialDelay (currentRetry : Nat) : Int :=
  if configuration.minimumDelay = 0 ∧ 1024 < currentRetry then configuration.maximumDelay
  else
    (min (configuration.minimumDelay * 2 ^ currentRetry) (2 * configuration.maximumDelay)).tdiv 2

/-- `pubnub_retry_configuration_delay_`, with the number which `random` yields. -/
def delay (transaction : Pbtt) (currentRetry httpStatus retryAfter random : Nat) : Nat :=
  if configuration.retryable transaction currentRetry httpStatus then
    let delay :=
      if 0 < retryAfter && httpStatus = 429 then retryAfter
      else match configuration.policy with
        | .linear => sizeT configuration.minimumDelay
        | .exponential => sizeT (configuration.exponentialDelay currentRetry)
    (delay * 1000 + random % 1000) % 2 ^ 64
  else sizeT (-1)

/-! ## The delay the policy stands for -/

/-- The delay of the policy in seconds, never below its minimum: the exponential policy starts from
    the minimum and doubles it from the second retry on. -/
def policyDelay (done : Nat) : Int :=
  match configuration.policy with
  | .linear => configuration.minimumDelay
  | .exponential =>
      max configuration.minimumDelay
        (min (configuration.minimumDelay * 2 ^ (done - 1)) configuration.maximumDelay)

/-- Where the code computes the delay of an exponential policy: the maximum is not below the
    minimum, and the exponent is neither `-1` nor so large that the power is infinite. -/
def Regular (done : Nat) : Prop :=
  configuration.policy = .exponential →
    configuration.minimumDelay ≤ configuration.maximumDelay ∧
      (configuration.minimumDelay = 0 → done ≤ 1024) ∧ (configuration.minimumDelay ≠ 0 → 1 ≤ done)

instance (done : Nat) : Decidable (configuration.Regular done) :=
  inferInstanceAs (Decidable (_ → _ ∧ _))

variable {configuration}

lemma exponentialDelay_eq {done : Nat} (hp : configuration.policy = .exponential)
    (h0 : 0 ≤ configuration.minimumDelay) (h : configuration.Regular done) :
    configuration.exponentialDelay done = configuration.policyDelay done := by
  obtain ⟨hle, hzero, hpos⟩ := h hp
  simp only [policyDelay, hp, exponentialDelay]
  by_cases hm : configuration.minimumDelay = 0
  · have hdone := hzero hm
    rw [if_neg (by omega), hm, Int.zero_mul, Int.zero_mul, min_eq_left (by omega)]
    rw [min_eq_left (by omega)]
    rfl
  · obtain ⟨n, rfl⟩ := Nat.exists_eq_add_of_le (hpos hm)
    -- twice the delay is the power with one factor more
    have htwice : configuration.minimumDelay * 2 ^ (1 + n) =
        2 * (configuration.minimumDelay * 2 ^ n) := by ring
    have hgrow : configuration.minimumDelay ≤ configuration.minimumDelay * 2 ^ n :=
      le_mul_of_one_le_right h0 (one_le_pow₀ (by norm_num))
    rw [if_neg (by omega), htwice, Nat.add_sub_cancel_left,
      ← mul_min_of_nonneg _ _ (by norm_num : (0 : Int) ≤ 2), max_eq_right (le_min hgrow hle)]
    exact Int.mul_tdiv_cancel_left _ (by norm_num)

lemma sizeT_of_nonneg {i : Int} (h0 : 0 ≤ i) (h : i < 2 ^ 64) : sizeT i = i.toNat := by
  rw [sizeT, Int.emod_eq_of_lt h0 h]

end RetryConfiguration

/-! ## What an attempt asks for -/

/-- What one attempt to carry out a transaction has brought: the status code of its response, as
    `atoi` reads it, and the number of seconds in its `Retry-After` header.  There is no status
    if no status line has arrived, and a header without a positive number (a date, for instance)
    is the same as none. -/
structure Attempt where
  status : Option Int := none
  retryAfter : Int := 0
  deriving DecidableEq, Repr

namespace Attempt

variable (attempt : Attempt)

/-- The attempt may be repeated. -/
def retryable : Bool := retryableStatus (attempt.status.getD 0)

/-- The server has said how long to wait. -/
def told : Bool := attempt.status = some 429 && 0 < attempt.retryAfter

/-- The seconds to wait before the attempt is repeated, where `done` retries have been made
    before: what the server has said, else the delay of the policy. -/
def due (configuration : RetryConfiguration) (done : Nat) : Int :=
  if attempt.told then attempt.retryAfter else configuration.policyDelay done

variable {attempt} {configuration : RetryConfiguration}

lemma due_nonneg {done : Nat}
    (h : attempt.told = false → 0 ≤ configuration.minimumDelay) :
    0 ≤ attempt.due configuration done := by
  rw [due]
  split
  · rename_i ht
    simp only [told, Bool.and_eq_true, decide_eq_true_eq] at ht
    omega
  · rename_i ht
    have h0 := h (by simpa using ht)
    rw [RetryConfiguration.policyDelay]
    cases configuration.policy with
    | linear => exact h0
    | exponential => exact h0.trans (le_max_left _ _)

end Attempt

namespace RetryConfiguration

variable {configuration : RetryConfiguration} {transaction : Pbtt} {attempt : Attempt}
  {currentRetry httpStatus retryAfter random : Nat}

/-- **The delay of the code is the one that is due**, plus the jitter, if the code has the
    attempt's own data before it and nothing wraps. -/
theorem delay_eq_due
    (hr : configuration.retryable transaction currentRetry httpStatus = true)
    (htold : attempt.told = (0 < retryAfter && httpStatus = 429 : Bool))
    (hafter : attempt.told = true → attempt.retryAfter = retryAfter)
    (hpolicy : attempt.told = false →
      0 ≤ configuration.minimumDelay ∧ configuration.Regular currentRetry)
    (hfits : attempt.due configuration currentRetry * 1000 + (random % 1000 : Nat) < 2 ^ 16) :
    (configuration.delay transaction currentRetry httpStatus retryAfter random % 2 ^ 16 : Int) =
      attempt.due configuration currentRetry * 1000 + (random % 1000 : Nat) := by
  have h0 : 0 ≤ attempt.due configuration currentRetry := Attempt.due_nonneg fun h => (hpolicy h).1
  have hlt : attempt.due configuration currentRetry < 2 ^ 64 := by omega
  -- the seconds of the code are those that are due
  have hsec : (if 0 < retryAfter && httpStatus = 429 then retryAfter
      else match configuration.policy with
        | .linear => sizeT configuration.minimumDelay
        | .exponential => sizeT (configuration.exponentialDelay currentRetry)) =
      (attempt.due configuration currentRetry).toNat := by
    rw [← htold]
    cases ht : attempt.told with
    | true => simp [Attempt.due, ht, hafter ht]
    | false =>
        obtain ⟨hmin, hreg⟩ := hpolicy ht
        simp only [Attempt.due, ht, Bool.false_eq_true, if_false] at h0 hlt ⊢
        cases hp : configuration.policy with
        | linear =>
            simp only [policyDelay, hp] at h0 hlt ⊢
            exact sizeT_of_nonneg h0 hlt
        | exponential =>
            simp only [exponentialDelay_eq hp hmin hreg]
            exact sizeT_of_nonneg h0 hlt
  rw [delay, if_pos hr]
  simp only [hsec]
  omega

end RetryConfiguration

end PubNub
