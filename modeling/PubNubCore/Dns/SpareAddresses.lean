import PubNubCore.Lib.Machine
import PubNubCore.Dns.Responses

/-!
# Trying the resolved addresses one after the other

From the answer of the DNS to a connection: `pbpal_check_resolv_and_connect` connects to the
first address, `try_TCP_connect_spare_address` to the ones stored beside it, and
`pbpal_check_connect` finds out what became of an attempt that did not end at once.  Each family
has its own list and index; a failed attempt advances an index, and `retry_after_close` brings
the context back to `PBS_READY` for the next address.

The machine `connecting` runs through one resolution.  It keeps which stored addresses have been
tried, every index with which the lists were read, the times at which the program acted, and
whether an attempt in progress has made the rest of the lists disappear.

* **`spare_addresses_all_tried`** — the lists are read inside their bounds, no address is tried
  twice, none that has not expired is left out when the transaction gives up or asks the DNS
  again, and no attempt in progress discards the others, in every run in which the branches that
  do otherwise are not taken (`TriesOn`).
* `spare_addresses_not_always_all_tried` — an IPv6 attempt that is still in progress throws the
  lists away, and when it fails the IPv4 address is never tried.
-/

namespace PubNub

/-! ## The lists of a family -/

namespace MultiAddresses

/-- The times to live of the addresses stored for a family. -/
def ttls (s : MultiAddresses) : AddressFamily → List UInt16
  | .inet => s.ipv4Addresses.map (·.2)
  | .inet6 => s.ipv6Addresses.map (·.2)

/-- `n_ipv4` and `n_ipv6`. -/
def count (s : MultiAddresses) (family : AddressFamily) : Nat := (s.ttls family).length

/-- `ipv4_index` and `ipv6_index`. -/
def index (s : MultiAddresses) : AddressFamily → Nat
  | .inet => s.ipv4Index
  | .inet6 => s.ipv6Index

/-- `++ipv4_index` and `++ipv6_index`. -/
def advance (s : MultiAddresses) : AddressFamily → MultiAddresses
  | .inet => { s with ipv4Index := s.ipv4Index + 1 }
  | .inet6 => { s with ipv6Index := s.ipv6Index + 1 }

/-- `pbpal_multiple_addresses_reset_counters`. -/
def resetCounters (s : MultiAddresses) : MultiAddresses := ⟨s.timeOfTheLastDnsQuery, [], 0, [], 0⟩

/-- The first stored address of a family. -/
def first (s : MultiAddresses) : AddressFamily → Option Destination
  | .inet => s.ipv4Addresses.head?.map fun a => .ipv4 a.1
  | .inet6 => s.ipv6Addresses.head?.map fun a => .ipv6 a.1

/-- An address needs at least a second to live. -/
def lives (s : MultiAddresses) (ttl : UInt16) (now : Int) : Bool :=
  decide ((ttl.toNat : Int) - 2 > now - s.timeOfTheLastDnsQuery)

/-- The address at the index of a family lives. -/
def currentLives (s : MultiAddresses) (family : AddressFamily) (now : Int) : Bool :=
  s.lives ((s.ttls family).getD (s.index family) 0) now

@[simp] lemma ttls_advance (s : MultiAddresses) (f : AddressFamily) :
    (s.advance f).ttls = s.ttls := by
  funext g
  cases f <;> cases g <;> rfl

@[simp] lemma index_advance (s : MultiAddresses) (f g : AddressFamily) :
    (s.advance f).index g = if g = f then s.index g + 1 else s.index g := by
  cases f <;> cases g <;> rfl

@[simp] lemma time_advance (s : MultiAddresses) (f : AddressFamily) :
    (s.advance f).timeOfTheLastDnsQuery = s.timeOfTheLastDnsQuery := by
  cases f <;> rfl

@[simp] lemma ttls_resetCounters (s : MultiAddresses) (f : AddressFamily) :
    s.resetCounters.ttls f = [] := by
  cases f <;> rfl

end MultiAddresses

/-- The family of a destination. -/
def Destination.family : Destination → AddressFamily
  | .ipv4 _ => .inet
  | .ipv6 _ => .inet6

/-! ## One call of `try_TCP_connect_spare_address` -/

/-- How `connect_TCP_socket` goes; `resourceFailure` is a socket that could not be created. -/
inductive TcpOutcome
  | success | wouldblock | failed | resourceFailure
  deriving DecidableEq, Repr

/-- The results of `try_TCP_connect_spare_address`. -/
inductive SpareResult
  | resolvResourceFailure | connectResourceFailure | connectFailed | connectWouldblock
  | connectSuccess
  deriving DecidableEq, Repr

/-- `connect_TCP_socket` as a result. -/
def TcpOutcome.result : TcpOutcome → SpareResult
  | .success => .connectSuccess
  | .wouldblock => .connectWouldblock
  | .failed => .connectFailed
  | .resourceFailure => .connectResourceFailure

/-- A stored address: its family and its place in the list. -/
abbrev Slot := AddressFamily × Nat

/-- The variables of a call: the lists, `rslt`, `retry_after_close`, the family of the socket,
    and what the call has looked at and tried. -/
structure SpareTry where
  spare : MultiAddresses
  result : SpareResult
  retry : Bool
  family : AddressFamily
  reads : List (Nat × Nat)
  tried : List Slot
  deriving DecidableEq

/-- The block for one family: the address at the index is tried if it lives, and the index is
    advanced if that fails. -/
def SpareTry.attempt (t : SpareTry) (family : AddressFamily) (now : Int) (o : TcpOutcome) :
    SpareTry :=
  let i := t.spare.index family
  let alive := t.spare.currentLives family now
  let t := { t with family := family, reads := t.reads ++ [(i, t.spare.count family)] }
  let t :=
    if alive then
      { t with
        result := o.result
        tried := if o = .resourceFailure then t.tried else t.tried ++ [(family, i)] }
    else { t with result := .connectFailed }
  if t.result = .connectFailed then
    { t with
      spare := t.spare.advance family
      retry := decide (i + 1 < t.spare.count family) }
  else t

/-- The IPv6 block. -/
def SpareTry.ipv6Block (t : SpareTry) (family : AddressFamily) (now : Int) (o : TcpOutcome) :
    SpareTry :=
  if family = .inet6 ∧ t.spare.index .inet6 < t.spare.count .inet6 then t.attempt .inet6 now o
  else t

/-- The IPv4 block, and what stands in its `else`. -/
def SpareTry.ipv4Block (t : SpareTry) (family : AddressFamily) (now : Int) (o : TcpOutcome) :
    SpareTry :=
  if (family = .inet ∨ t.result = .connectFailed ∨
      (family = .inet6 ∧ t.spare.count .inet6 ≤ t.spare.index .inet6)) ∧
      t.spare.index .inet < t.spare.count .inet then
    t.attempt .inet now o
  else { t with spare := t.spare.resetCounters }

/-- The end of the function: a failure after which there is nothing to retry. -/
def SpareTry.conclude (t : SpareTry) : SpareTry :=
  if t.result = .connectFailed ∧ t.retry = false then
    { t with spare := t.spare.resetCounters, result := .resolvResourceFailure }
  else t

/-- `try_TCP_connect_spare_address`. -/
def tryTcpConnectSpareAddress (s : MultiAddresses) (family : AddressFamily) (now : Int)
    (o6 o4 : TcpOutcome) : SpareTry :=
  let t : SpareTry := ⟨s, .resolvResourceFailure, false, family, [], []⟩
  ((t.ipv6Block family now o6).ipv4Block family now o4).conclude

/-! ## The machine -/

/-- Where a resolution stands: the DNS has answered, the context is in `PBS_READY`, an attempt
    is in progress, or the addresses are needed no more. -/
inductive ConnectPhase
  | answered | ready | inProgress (family : AddressFamily) | connected | gaveUp | askedDns
  deriving DecidableEq, Repr

/-- What `pbpal_check_connect` finds, or the timer before it does: `soError` with whether
    `getsockname` tells the family of the socket; `brokenOff` where a system call fails or the
    wait for the connection is over. -/
inductive ConnectCheck
  | established | waiting | soError (known : Bool) | brokenOff
  deriving DecidableEq, Repr

/-- What can happen on the way to a connection, and when. -/
inductive ConnectStep
  | connectAnswer (now : Int) (o : TcpOutcome)
  | ready (family : AddressFamily) (now : Int) (o6 o4 : TcpOutcome)
  | check (now : Int) (c : ConnectCheck)

/-- A context on the way to a connection. -/
structure Connecting where
  phase : ConnectPhase
  spare : MultiAddresses
  stored : MultiAddresses
  tried : List Slot
  reads : List (Nat × Nat)
  times : List Int
  discarded : Bool
  deriving DecidableEq

/-- The index of a failed attempt is advanced; `retry_after_close` says whether there is
    something left to try. -/
def MultiAddresses.failedConnect (s : MultiAddresses) (family : AddressFamily) :
    MultiAddresses × Bool :=
  let s := s.advance family
  (s, match family with
    | .inet => decide (s.index .inet < s.count .inet)
    | .inet6 => decide (s.index .inet6 < s.count .inet6) || decide (0 < s.count .inet))

/-- The next phase after a failure: through `PBS_RETRY` or not. -/
def afterFailure (retry : Bool) : ConnectPhase := if retry then .ready else .gaveUp

/-- `pbpal_check_resolv_and_connect`, once the answer is there. -/
def connectAnswer (answer : Destination) (c : Connecting) (o : TcpOutcome) : Connecting :=
  let tried :=
    if o ≠ .resourceFailure ∧ c.spare.first answer.family = some answer then
      c.tried ++ [(answer.family, 0)]
    else c.tried
  match o with
  | .success => { c with phase := .connected, tried := tried }
  | .wouldblock => { c with phase := .inProgress answer.family, tried := tried }
  | .resourceFailure => { c with phase := .gaveUp, tried := tried }
  | .failed =>
      let r := c.spare.failedConnect answer.family
      { c with phase := afterFailure r.2, spare := r.1, tried := tried }

/-- More stored addresses than the one being tried are left. -/
def MultiAddresses.hasMore (s : MultiAddresses) (family : AddressFamily) : Bool :=
  match family with
  | .inet => decide (s.index .inet + 1 < s.count .inet)
  | .inet6 =>
      decide (s.index .inet6 + 1 < s.count .inet6) || decide (s.index .inet < s.count .inet)

/-- `PBS_READY` after a call of `try_TCP_connect_spare_address`: the DNS is asked where that
    found nothing to try. -/
def Connecting.afterTry (c : Connecting) (t : SpareTry) : Connecting :=
  { c with
    phase :=
      match t.result with
      | .resolvResourceFailure => .askedDns
      | .connectResourceFailure | .connectFailed => afterFailure t.retry
      | .connectWouldblock => .inProgress t.family
      | .connectSuccess => .connected
    spare := t.spare
    tried := c.tried ++ t.tried
    reads := c.reads ++ t.reads
    discarded := c.discarded || (decide (t.result = .connectWouldblock) &&
      (decide (t.spare.count t.family < c.spare.count t.family) && c.spare.hasMore t.family)) }

/-- `PBS_READY`. -/
def connectReady (c : Connecting) (family : AddressFamily) (now : Int) (o6 o4 : TcpOutcome) :
    Connecting :=
  c.afterTry (tryTcpConnectSpareAddress c.spare family now o6 o4)

/-- `pbpal_check_connect` on an attempt over a socket of this family. -/
def connectCheck (c : Connecting) (family : AddressFamily) : ConnectCheck → Connecting
  | .established => { c with phase := .connected }
  | .waiting => c
  | .brokenOff => { c with phase := .gaveUp }
  | .soError known =>
      let r := c.spare.failedConnect (if known then family else .inet)
      { c with phase := afterFailure r.2, spare := r.1 }

/-- One step; a build without IPv6 knows one family. -/
def connectingStep (b : AddressBuild) (answer : Destination) (c : Connecting) :
    ConnectStep → Option Connecting
  | .connectAnswer now o =>
      if c.phase = .answered then
        some { connectAnswer answer c o with times := now :: c.times }
      else none
  | .ready family now o6 o4 =>
      if c.phase = .ready ∧ (family = .inet6 → b.useIpv6 = true) then
        some { connectReady c family now o6 o4 with times := now :: c.times }
      else none
  | .check now found =>
      match c.phase with
      | .inProgress family => some { connectCheck c family found with times := now :: c.times }
      | _ => none

/-- A resolution that has just been answered: the address to connect to, and what is stored. -/
def connecting (b : AddressBuild) (answer : Destination) (stored : MultiAddresses) :
    Machine Connecting ConnectStep where
  init :=
    { phase := .answered
      spare := { stored with ipv4Index := 0, ipv6Index := 0 }
      stored := stored
      tried := []
      reads := []
      times := []
      discarded := false }
  step := connectingStep b answer

/-! ## The condition and the promise -/

/-- The stored address is one that has been tried, or it had expired at some time. -/
def Dealt (stored : MultiAddresses) (times : List Int) (tried : List Slot) (slot : Slot)
    (ttl : UInt16) : Prop :=
  slot ∈ tried ∨ ∃ t ∈ times, stored.lives ttl t = false

/-- What is promised of a resolution. -/
structure Connecting.Sound (c : Connecting) : Prop where
  reads : ∀ p ∈ c.reads, p.1 < p.2
  once : c.tried.Nodup
  all : c.phase = .gaveUp ∨ c.phase = .askedDns →
    ∀ f i ttl, (c.stored.ttls f)[i]? = some ttl → Dealt c.stored c.times c.tried (f, i) ttl
  kept : c.discarded = false

namespace Connecting

variable (c : Connecting)

/-- From these places on, no stored address is left that has not expired. -/
def NothingLeft (first : AddressFamily → Nat) (now : Int) : Prop :=
  ∀ f i ttl, first f ≤ i → (c.spare.ttls f)[i]? = some ttl →
    ∃ t ∈ now :: c.times, c.spare.lives ttl t = false

/-- The address at the index of a family lives, and connecting to it does not fail at once. -/
def Goes (family : AddressFamily) (now : Int) (o : TcpOutcome) : Prop :=
  c.spare.currentLives family now = true ∧ o ≠ .failed

/-- The condition on the IPv4 block: it leaves nothing behind where it is the last.  `indices`
    are those after the IPv6 block, `retry` what that block has left in `retry_after_close`. -/
def Ipv4BlockTriesOn (indices : MultiAddresses) (retry : Bool) (now : Int) (o : TcpOutcome) :
    Prop :=
  if c.spare.index .inet < c.spare.count .inet then
    (c.Goes .inet now o → o = .resourceFailure →
      retry = true ∨ c.NothingLeft indices.index now) ∧
    (¬ c.Goes .inet now o → c.spare.index .inet + 1 < c.spare.count .inet ∨
      c.NothingLeft (indices.advance .inet).index now)
  else c.NothingLeft indices.index now

/-- The condition on a call of `try_TCP_connect_spare_address`: an IPv6 attempt that does not
    fail at once, after which the lists are reset, leaves nothing behind. -/
def ReadyTriesOn (family : AddressFamily) (now : Int) (o6 o4 : TcpOutcome) : Prop :=
  if family = .inet6 ∧ c.spare.index .inet6 < c.spare.count .inet6 then
    (c.Goes .inet6 now o6 →
      (o6 = .wouldblock → c.spare.hasMore .inet6 = false) ∧
      (o6 = .resourceFailure → c.NothingLeft c.spare.index now)) ∧
    (¬ c.Goes .inet6 now o6 → c.Ipv4BlockTriesOn (c.spare.advance .inet6)
      (decide (c.spare.index .inet6 + 1 < c.spare.count .inet6)) now o4)
  else c.Ipv4BlockTriesOn c.spare false now o4

end Connecting

/-- The condition on a step.  The address of the answer is the first one stored for its family,
    the family of a failed socket is known, and where the program gives up or resets the lists
    there is nothing left to try. -/
def TriesOn (answer : Destination) : Connecting → ConnectStep → Prop
  | c, .connectAnswer now o =>
      (c.spare.first answer.family = none ∨ c.spare.first answer.family = some answer) ∧
      (o = .failed → answer.family = .inet → 1 < c.spare.count .inet ∨
        c.NothingLeft (c.spare.advance .inet).index now) ∧
      (o = .resourceFailure → c.NothingLeft c.spare.index now)
  | c, .ready family now o6 o4 => c.ReadyTriesOn family now o6 o4
  | c, .check now found =>
      ∀ f, c.phase = .inProgress f →
        (∀ known, found = .soError known →
          (known = true ∨ f = .inet ∨ (c.spare.count .inet = 0 ∧ c.spare.hasMore .inet6 = false)) ∧
          (f = .inet → c.spare.index .inet + 1 < c.spare.count .inet ∨
            c.NothingLeft (c.spare.advance .inet).index now)) ∧
        (found = .brokenOff → c.NothingLeft (c.spare.advance f).index now)

/-! ## Progress through the lists -/

/-- How far a resolution has come: what lies before the indices has been dealt with, and what
    lies behind has not been touched, except for the address of the attempt in progress. -/
structure Progress (stored : MultiAddresses) (times : List Int) (spare : MultiAddresses)
    (tried : List Slot) (current : Option AddressFamily) : Prop where
  time : spare.timeOfTheLastDnsQuery = stored.timeOfTheLastDnsQuery
  lists : ∀ f, spare.ttls f = stored.ttls f ∨ spare.ttls f = []
  passed : ∀ f i ttl, (stored.ttls f)[i]? = some ttl → i < spare.index f ∨ spare.ttls f = [] →
    Dealt stored times tried (f, i) ttl
  bounded : ∀ f i, (f, i) ∈ tried → spare.ttls f = [] ∨ i < spare.index f ∨
    (current = some f ∧ i = spare.index f)
  current : ∀ f, current = some f → ∀ ttl, (spare.ttls f)[spare.index f]? = some ttl →
    (f, spare.index f) ∈ tried
  once : tried.Nodup

/-- All stored addresses have been dealt with. -/
def AllDealt (stored : MultiAddresses) (times : List Int) (tried : List Slot) : Prop :=
  ∀ f i ttl, (stored.ttls f)[i]? = some ttl → Dealt stored times tried (f, i) ttl

namespace Progress

variable {stored spare : MultiAddresses} {times : List Int} {tried : List Slot}
  {current : Option AddressFamily} {family : AddressFamily}

lemma mono (h : Progress stored times spare tried current) (now : Int) :
    Progress stored (now :: times) spare tried current :=
  { h with
    passed := fun f i ttl hi hpast => by
      rcases h.passed f i ttl hi hpast with htried | ⟨t, ht, hdead⟩
      · exact .inl htried
      · exact .inr ⟨t, List.mem_cons_of_mem now ht, hdead⟩ }

/-- The address at the index is tried. -/
lemma tryNext (h : Progress stored times spare tried none)
    (hlt : spare.index family < spare.count family) :
    Progress stored times spare (tried ++ [(family, spare.index family)]) (some family) where
  time := h.time
  lists := h.lists
  passed := fun f i ttl hi hpast => (h.passed f i ttl hi hpast).imp_left (List.mem_append_left _)
  bounded := by
    intro f i hmem
    rcases List.mem_append.mp hmem with hold | hnew
    · refine (h.bounded f i hold).imp_right fun h => .inl ?_
      exact h.resolve_right (by simp)
    · obtain ⟨rfl, rfl⟩ : f = family ∧ i = spare.index family := by simpa using hnew
      exact .inr (.inr ⟨rfl, rfl⟩)
  current := by
    intro f hf ttl _
    obtain rfl := Option.some.inj hf
    simp
  once := by
    rw [List.nodup_append]
    refine ⟨h.once, by simp, ?_⟩
    intro slot hold slot' hnew
    obtain rfl := List.mem_singleton.mp hnew
    rintro rfl
    rcases h.bounded _ _ hold with hnil | hbefore | ⟨hnone, -⟩
    · simp [MultiAddresses.count, hnil] at hlt
    · exact absurd hbefore (lt_irrefl _)
    · simp at hnone

/-- The index of a family moves past an address that has been dealt with. -/
lemma advance (h : Progress stored times spare tried current)
    (hcurrent : current = none ∨ current = some family)
    (hdealt : ∀ ttl, (spare.ttls family)[spare.index family]? = some ttl →
      Dealt stored times tried (family, spare.index family) ttl) :
    Progress stored times (spare.advance family) tried none where
  time := by simpa using h.time
  lists := by simpa using h.lists
  passed := by
    intro f i ttl hi hpast
    rw [MultiAddresses.index_advance, MultiAddresses.ttls_advance] at hpast
    by_cases hf : f = family
    · subst hf
      rw [if_pos rfl] at hpast
      by_cases heq : i = spare.index f
      · subst heq
        rcases h.lists f with hsame | hnil
        · exact hdealt ttl (by rwa [hsame])
        · exact h.passed f _ ttl hi (.inr hnil)
      · exact h.passed f i ttl hi (hpast.imp_left fun hlt => by omega)
    · rw [if_neg hf] at hpast
      exact h.passed f i ttl hi hpast
  bounded := by
    intro f i hmem
    rw [MultiAddresses.index_advance, MultiAddresses.ttls_advance]
    rcases h.bounded f i hmem with hnil | hbefore | ⟨hsome, heq⟩
    · exact .inl hnil
    · refine .inr (.inl ?_)
      split_ifs <;> omega
    · rcases hcurrent with hnone | hcur
      · rw [hnone] at hsome
        cases hsome
      · obtain rfl : family = f := Option.some.inj (hcur.symm.trans hsome)
        rw [if_pos rfl]
        exact .inr (.inl (by omega))
  current := fun f hf => by simp at hf
  once := h.once

/-- The attempt in progress has failed. -/
lemma failed (h : Progress stored times spare tried (some family)) :
    Progress stored times (spare.advance family) tried none :=
  h.advance (.inr rfl) fun ttl hi => .inl (h.current family rfl ttl hi)

/-- The address at the index has expired. -/
lemma expired (h : Progress stored times spare tried none) {now : Int} (hnow : now ∈ times)
    (hdead : spare.currentLives family now = false) :
    Progress stored times (spare.advance family) tried none := by
  refine h.advance (.inl rfl) fun ttl hi => .inr ⟨now, hnow, ?_⟩
  rw [MultiAddresses.currentLives, List.getD_eq_getElem?_getD, hi, Option.getD_some] at hdead
  simpa [MultiAddresses.lives, h.time] using hdead

/-- When nothing is left behind the indices, everything has been dealt with. -/
lemma allDealt (h : Progress stored times spare tried current) (first : AddressFamily → Nat)
    (hfirst : ∀ f, first f ≤ spare.index f ∨
      (current = some f ∧ first f ≤ spare.index f + 1))
    (hleft : ∀ f i ttl, first f ≤ i → (spare.ttls f)[i]? = some ttl →
      ∃ t ∈ times, spare.lives ttl t = false) : AllDealt stored times tried := by
  intro f i ttl hi
  rcases h.lists f with hsame | hnil
  · have hi' : (spare.ttls f)[i]? = some ttl := hsame ▸ hi
    have hlate : first f ≤ i → Dealt stored times tried (f, i) ttl := by
      intro hle
      obtain ⟨t, ht, hdead⟩ := hleft f i ttl hle hi'
      exact .inr ⟨t, ht, by simpa [MultiAddresses.lives, h.time] using hdead⟩
    by_cases hbefore : i < spare.index f
    · exact h.passed f i ttl hi (.inl hbefore)
    · rcases hfirst f with hle | ⟨hcurrent, hle⟩
      · exact hlate (by omega)
      · by_cases heq : i = spare.index f
        · subst heq
          exact .inl (h.current f hcurrent ttl hi')
        · exact hlate (by omega)
  · exact h.passed f i ttl hi (.inr hnil)

/-- The lists may be reset once everything has been dealt with. -/
lemma reset (h : Progress stored times spare tried current) (hall : AllDealt stored times tried)
    (current' : Option AddressFamily) :
    Progress stored times spare.resetCounters tried current' where
  time := h.time
  lists := fun f => .inr (MultiAddresses.ttls_resetCounters spare f)
  passed := fun f i ttl hi _ => hall f i ttl hi
  bounded := fun f i _ => .inl (MultiAddresses.ttls_resetCounters spare f)
  current := fun f hf ttl hi => by simp at hi
  once := h.once

end Progress

/-! ## One call -/

section Call

variable {t : SpareTry} {family : AddressFamily} {now : Int} {o o4 o6 : TcpOutcome}

/-- An address that lives is tried, and does not fail at once. -/
lemma attempt_of_goes (h : t.spare.currentLives family now = true) (ho : o ≠ .failed) :
    t.attempt family now o =
      { spare := t.spare
        result := o.result
        retry := t.retry
        family := family
        reads := t.reads ++ [(t.spare.index family, t.spare.count family)]
        tried := if o = .resourceFailure then t.tried
          else t.tried ++ [(family, t.spare.index family)] } := by
  have hresult : o.result ≠ .connectFailed := by cases o <;> simp_all [TcpOutcome.result]
  simp [SpareTry.attempt, h, hresult]

/-- An address that has expired, or fails at once. -/
lemma attempt_of_not_goes
    (h : ¬ (t.spare.currentLives family now = true ∧ o ≠ .failed)) :
    t.attempt family now o =
      { spare := t.spare.advance family
        result := .connectFailed
        retry := decide (t.spare.index family + 1 < t.spare.count family)
        family := family
        reads := t.reads ++ [(t.spare.index family, t.spare.count family)]
        tried := if t.spare.currentLives family now then
          t.tried ++ [(family, t.spare.index family)] else t.tried } := by
  by_cases hlives : t.spare.currentLives family now = true
  · have ho : o = .failed := by
      by_contra hne
      exact h ⟨hlives, hne⟩
    subst ho
    simp [SpareTry.attempt, hlives, TcpOutcome.result]
  · simp [SpareTry.attempt, hlives]

lemma ipv6Block_of_stored (h : family = .inet6 ∧ t.spare.index .inet6 < t.spare.count .inet6) :
    t.ipv6Block family now o = t.attempt .inet6 now o := if_pos h

lemma ipv4Block_of_closed (h : ¬ (family = .inet ∨ t.result = .connectFailed ∨
      (family = .inet6 ∧ t.spare.count .inet6 ≤ t.spare.index .inet6))) :
    t.ipv4Block family now o = { t with spare := t.spare.resetCounters } :=
  if_neg fun hboth => h hboth.1

lemma conclude_of_ne (h : t.result ≠ .connectFailed) : t.conclude = t :=
  if_neg fun hboth => h hboth.1

/-- A call whose IPv6 attempt does not fail at once: whatever else is stored, the lists are
    reset. -/
lemma tryTcp_ipv6Goes {s : MultiAddresses}
    (h6 : family = .inet6 ∧ s.index .inet6 < s.count .inet6)
    (hlives : s.currentLives .inet6 now = true) (ho : o6 ≠ .failed) :
    tryTcpConnectSpareAddress s family now o6 o4 =
      { spare := s.resetCounters
        result := o6.result
        retry := false
        family := .inet6
        reads := [] ++ [(s.index .inet6, s.count .inet6)]
        tried := if o6 = .resourceFailure then [] else [] ++ [(.inet6, s.index .inet6)] } := by
  have hresult : o6.result ≠ .connectFailed := by cases o6 <;> simp_all [TcpOutcome.result]
  have hclosed : ¬ (family = .inet ∨ o6.result = .connectFailed ∨
      (family = .inet6 ∧ s.count .inet6 ≤ s.index .inet6)) := by
    rintro (hfam | hfailed | ⟨-, hle⟩)
    · exact absurd (h6.1.symm.trans hfam) (by decide)
    · exact hresult hfailed
    · exact absurd h6.2 (not_lt.mpr hle)
  rw [tryTcpConnectSpareAddress, ipv6Block_of_stored h6,
    attempt_of_goes (t := ⟨s, .resolvResourceFailure, false, family, [], []⟩) hlives ho,
    ipv4Block_of_closed hclosed, conclude_of_ne hresult]

/-- A call whose IPv6 attempt fails: the IPv4 block follows. -/
lemma tryTcp_ipv6Fails {s : MultiAddresses}
    (h6 : family = .inet6 ∧ s.index .inet6 < s.count .inet6)
    (hnot : ¬ (s.currentLives .inet6 now = true ∧ o6 ≠ .failed)) :
    tryTcpConnectSpareAddress s family now o6 o4 =
      (SpareTry.ipv4Block
        { spare := s.advance .inet6
          result := .connectFailed
          retry := decide (s.index .inet6 + 1 < s.count .inet6)
          family := .inet6
          reads := [] ++ [(s.index .inet6, s.count .inet6)]
          tried := if s.currentLives .inet6 now then [] ++ [(.inet6, s.index .inet6)] else [] }
        family now o4).conclude := by
  rw [tryTcpConnectSpareAddress, ipv6Block_of_stored h6,
    attempt_of_not_goes (t := ⟨s, .resolvResourceFailure, false, family, [], []⟩) hnot]

/-- A call without an IPv6 attempt. -/
lemma tryTcp_noIpv6 {s : MultiAddresses}
    (h6 : ¬ (family = .inet6 ∧ s.index .inet6 < s.count .inet6)) :
    tryTcpConnectSpareAddress s family now o6 o4 =
      (SpareTry.ipv4Block ⟨s, .resolvResourceFailure, false, family, [], []⟩
        family now o4).conclude := by
  have hskip : SpareTry.ipv6Block ⟨s, .resolvResourceFailure, false, family, [], []⟩ family now o6 =
      ⟨s, .resolvResourceFailure, false, family, [], []⟩ := if_neg h6
  rw [tryTcpConnectSpareAddress, hskip]

end Call

namespace Connecting

variable {c : Connecting}

/-- The invariant: how far the resolution has come, as its phase has it. -/
structure Kept (c : Connecting) : Prop where
  reads : ∀ p ∈ c.reads, p.1 < p.2
  once : c.tried.Nodup
  kept : c.discarded = false
  start : c.phase = .answered → c.tried = [] ∧ ∀ f, c.spare.index f = 0
  idle : c.phase = .answered ∨ c.phase = .ready →
    Progress c.stored c.times c.spare c.tried none
  busy : ∀ f, c.phase = .inProgress f → Progress c.stored c.times c.spare c.tried (some f)
  finished : c.phase = .gaveUp ∨ c.phase = .askedDns → AllDealt c.stored c.times c.tried

/-- The context after a failure goes on with what is left, or everything was dealt with. -/
lemma kept_afterFailure {c' : Connecting} (retry : Bool) (hphase : c'.phase = afterFailure retry)
    (hreads : ∀ p ∈ c'.reads, p.1 < p.2) (hkept : c'.discarded = false)
    (honce : c'.tried.Nodup)
    (hidle : retry = true → Progress c'.stored c'.times c'.spare c'.tried none)
    (hover : retry = false → AllDealt c'.stored c'.times c'.tried) : c'.Kept := by
  cases retry with
  | true =>
      exact ⟨hreads, honce, hkept, by simp [hphase, afterFailure], fun _ => hidle rfl,
        by simp [hphase, afterFailure], by simp [hphase, afterFailure]⟩
  | false =>
      exact ⟨hreads, honce, hkept, by simp [hphase, afterFailure],
        by simp [hphase, afterFailure], by simp [hphase, afterFailure], fun _ => hover rfl⟩

/-- The connection is there. -/
lemma kept_connected {c' : Connecting} (hphase : c'.phase = .connected)
    (hreads : ∀ p ∈ c'.reads, p.1 < p.2) (hkept : c'.discarded = false)
    (honce : c'.tried.Nodup) : c'.Kept :=
  ⟨hreads, honce, hkept, by simp [hphase], by simp [hphase], by simp [hphase], by simp [hphase]⟩

/-- An attempt is in progress. -/
lemma kept_inProgress {c' : Connecting} {f : AddressFamily} (hphase : c'.phase = .inProgress f)
    (hreads : ∀ p ∈ c'.reads, p.1 < p.2) (hkept : c'.discarded = false)
    (hprogress : Progress c'.stored c'.times c'.spare c'.tried (some f)) : c'.Kept := by
  refine ⟨hreads, hprogress.once, hkept, by simp [hphase], by simp [hphase], ?_, by simp [hphase]⟩
  intro g hg
  obtain rfl : f = g := by simpa using hphase.symm.trans hg
  exact hprogress

/-- The DNS is asked again. -/
lemma kept_askedDns {c' : Connecting} (hphase : c'.phase = .askedDns)
    (hreads : ∀ p ∈ c'.reads, p.1 < p.2) (hkept : c'.discarded = false)
    (honce : c'.tried.Nodup) (hall : AllDealt c'.stored c'.times c'.tried) : c'.Kept :=
  ⟨hreads, honce, hkept, by simp [hphase], by simp [hphase], by simp [hphase], fun _ => hall⟩

/-- The IPv4 block and the end of the function, from a state in which the IPv6 block has left
    no attempt in progress. -/
lemma kept_ipv4Block (h : c.Kept) {t : SpareTry} {family : AddressFamily} {now : Int}
    {o : TcpOutcome} (hprogress : Progress c.stored (now :: c.times) t.spare (c.tried ++ t.tried) none)
    (hopen : family = .inet ∨ t.result = .connectFailed ∨
      (family = .inet6 ∧ t.spare.count .inet6 ≤ t.spare.index .inet6))
    (hresult : t.result = .connectFailed ∨
      (t.result = .resolvResourceFailure ∧ t.retry = false))
    (httls : t.spare.ttls = c.spare.ttls)
    (htime : t.spare.timeOfTheLastDnsQuery = c.spare.timeOfTheLastDnsQuery)
    (hindex : t.spare.index .inet = c.spare.index .inet)
    (hreads : ∀ p ∈ t.reads, p.1 < p.2)
    (hguard : c.Ipv4BlockTriesOn t.spare t.retry now o) :
    Kept { c.afterTry (t.ipv4Block family now o).conclude with times := now :: c.times } := by
  have hcount : t.spare.count .inet = c.spare.count .inet := by
    simp only [MultiAddresses.count, httls]
  have hlives : t.spare.currentLives .inet now = c.spare.currentLives .inet now := by
    simp only [MultiAddresses.currentLives, MultiAddresses.lives, httls, htime, hindex]
  have hleft : ∀ first : AddressFamily → Nat, c.NothingLeft first now →
      ∀ f i ttl, first f ≤ i → (t.spare.ttls f)[i]? = some ttl →
        ∃ t' ∈ now :: c.times, t.spare.lives ttl t' = false := by
    intro first hnothing f i ttl hle hi
    simp only [MultiAddresses.lives, htime]
    exact hnothing f i ttl hle (httls ▸ hi)
  have hreads' : ∀ r : List (Nat × Nat), (∀ p ∈ r, p.1 < p.2) → ∀ p ∈ c.reads ++ r, p.1 < p.2 :=
    fun r hr p hp => (List.mem_append.mp hp).elim (h.reads p) (hr p)
  by_cases hlt : c.spare.index .inet < c.spare.count .inet
  · have hlt' : t.spare.index .inet < t.spare.count .inet := by rwa [hindex, hcount]
    have hreads1 : ∀ p ∈ t.reads ++ [(t.spare.index .inet, t.spare.count .inet)], p.1 < p.2 := by
      intro p hp
      rcases List.mem_append.mp hp with hold | hnew
      · exact hreads p hold
      · obtain rfl := List.mem_singleton.mp hnew
        exact hlt'
    rw [Ipv4BlockTriesOn, if_pos hlt] at hguard
    rw [SpareTry.ipv4Block, if_pos ⟨hopen, hlt'⟩]
    by_cases hgoes : c.Goes .inet now o
    · rw [attempt_of_goes (hlives ▸ hgoes.1) hgoes.2]
      have htry := hprogress.tryNext hlt'
      rw [List.append_assoc] at htry
      cases o with
      | failed => exact absurd rfl hgoes.2
      | success => exact kept_connected rfl (hreads' _ hreads1) (by simp [afterTry,
          SpareTry.conclude, TcpOutcome.result, h.kept]) htry.once
      | wouldblock =>
          refine kept_inProgress (f := .inet) rfl (hreads' _ hreads1) ?_ htry
          simp [afterTry, SpareTry.conclude, TcpOutcome.result, h.kept, hcount]
      | resourceFailure =>
          refine kept_afterFailure t.retry rfl (hreads' _ hreads1) ?_ hprogress.once
            (fun _ => hprogress) fun hretry => ?_
          · simp [afterTry, SpareTry.conclude, TcpOutcome.result, h.kept]
          · have hnothing := (hguard.1 hgoes rfl).resolve_left (by simp [hretry])
            exact hprogress.allDealt _ (fun f => .inl le_rfl) (hleft _ hnothing)
    · have hnot : ¬ (t.spare.currentLives .inet now = true ∧ o ≠ .failed) := hlives ▸ hgoes
      rw [attempt_of_not_goes hnot]
      have hnow : now ∈ now :: c.times := List.mem_cons_self
      have hpast : Progress c.stored (now :: c.times) (t.spare.advance .inet) (c.tried ++
          if t.spare.currentLives .inet now then t.tried ++ [(.inet, t.spare.index .inet)]
          else t.tried) none := by
        split_ifs with hdead
        · have htry := hprogress.tryNext hlt'
          rw [List.append_assoc] at htry
          exact htry.failed
        · exact hprogress.expired hnow (by simpa using hdead)
      by_cases hmore : t.spare.index .inet + 1 < t.spare.count .inet
      · refine kept_afterFailure true ?_ ?_ ?_ ?_ ?_ (fun h => absurd h (by simp))
        all_goals simp only [SpareTry.conclude, hmore, decide_true, Bool.true_eq_false, and_false,
          if_false, afterTry]
        · exact hreads' _ hreads1
        · simp [h.kept]
        · exact hpast.once
        · exact fun _ => hpast
      · have hnothing : c.NothingLeft (t.spare.advance .inet).index now :=
          (hguard.2 hgoes).resolve_left (by rwa [← hindex, ← hcount])
        refine kept_askedDns ?_ ?_ ?_ ?_ ?_
        all_goals simp only [SpareTry.conclude, hmore, decide_false, and_self, if_true, afterTry]
        · exact hreads' _ hreads1
        · simp [h.kept]
        · exact hpast.once
        · refine hpast.allDealt _ (fun f => .inl le_rfl) fun f i ttl hle hi => ?_
          rw [MultiAddresses.ttls_advance] at hi
          simpa [MultiAddresses.lives] using hleft _ hnothing f i ttl hle hi
  · rw [Ipv4BlockTriesOn, if_neg hlt] at hguard
    have hlt' : ¬ t.spare.index .inet < t.spare.count .inet := by rwa [hindex, hcount]
    rw [SpareTry.ipv4Block, if_neg fun hboth => hlt' hboth.2]
    have hall : AllDealt c.stored (now :: c.times) (c.tried ++ t.tried) :=
      hprogress.allDealt _ (fun f => .inl le_rfl) (hleft _ hguard)
    by_cases hretry : t.result = .connectFailed ∧ t.retry = true
    · refine kept_afterFailure true ?_ ?_ ?_ ?_ ?_ (fun h => absurd h (by simp))
      all_goals simp only [SpareTry.conclude, hretry.1, hretry.2, Bool.true_eq_false, and_false,
        if_false, afterTry]
      · exact hreads' _ hreads
      · simp [h.kept]
      · exact hprogress.once
      · exact fun _ => hprogress.reset hall none
    · have hend : ∃ s, (SpareTry.conclude { t with spare := t.spare.resetCounters }) =
          { t with spare := s, result := .resolvResourceFailure } := by
        rcases hresult with hfailed | ⟨hnone, hfalse⟩
        · have hfalse : t.retry = false := by
            cases ht : t.retry with
            | false => rfl
            | true => exact absurd ⟨hfailed, ht⟩ hretry
          refine ⟨t.spare.resetCounters.resetCounters, ?_⟩
          simp only [SpareTry.conclude, hfailed, hfalse, and_self, if_true]
        · refine ⟨t.spare.resetCounters, ?_⟩
          simp only [SpareTry.conclude, hnone, hfalse, reduceCtorEq, false_and, if_false]
      obtain ⟨s, hs⟩ := hend
      rw [hs]
      exact kept_askedDns rfl (hreads' _ hreads) (by simp [afterTry, h.kept]) hprogress.once hall

/-- `PBS_READY`. -/
lemma kept_ready (h : c.Kept) (hphase : c.phase = .ready) {family : AddressFamily} {now : Int}
    {o6 o4 : TcpOutcome} (hguard : c.ReadyTriesOn family now o6 o4) :
    Kept { connectReady c family now o6 o4 with times := now :: c.times } := by
  have hprogress := (h.idle (.inr hphase)).mono now
  have hreads' : ∀ r : List (Nat × Nat), (∀ p ∈ r, p.1 < p.2) → ∀ p ∈ c.reads ++ r, p.1 < p.2 :=
    fun r hr p hp => (List.mem_append.mp hp).elim (h.reads p) (hr p)
  by_cases h6 : family = .inet6 ∧ c.spare.index .inet6 < c.spare.count .inet6
  · have hreads1 : ∀ p ∈ [] ++ [(c.spare.index .inet6, c.spare.count .inet6)], p.1 < p.2 := by
      simpa using h6.2
    rw [ReadyTriesOn, if_pos h6] at hguard
    rw [connectReady]
    by_cases hgoes : c.Goes .inet6 now o6
    · rw [tryTcp_ipv6Goes h6 hgoes.1 hgoes.2]
      have htry := hprogress.tryNext h6.2
      have hguard := hguard.1 hgoes
      cases o6 with
      | failed => exact absurd rfl hgoes.2
      | success =>
          exact kept_connected rfl (hreads' _ hreads1)
            (by simp [afterTry, TcpOutcome.result, h.kept]) htry.once
      | wouldblock =>
          have hmore := hguard.1 rfl
          refine kept_inProgress (f := .inet6) rfl (hreads' _ hreads1) ?_ ?_
          · simp [afterTry, TcpOutcome.result, h.kept, hmore]
          · simp only [MultiAddresses.hasMore, Bool.or_eq_false_iff, decide_eq_false_iff_not,
              not_lt] at hmore
            refine htry.reset (htry.allDealt (c.spare.advance .inet6).index ?_ ?_) _
            · intro f
              cases f
              · exact .inl le_rfl
              · exact .inr ⟨rfl, le_rfl⟩
            · intro f i ttl hle hi
              have hbound : i < c.spare.count f := (List.getElem?_eq_some_iff.mp hi).1
              cases f
              · exact absurd (hmore.2.trans hle) (not_le.mpr hbound)
              · exact absurd (hmore.1.trans hle) (not_le.mpr hbound)
      | resourceFailure =>
          refine kept_afterFailure false rfl (hreads' _ hreads1) ?_ ?_ (fun h => absurd h (by simp))
            fun _ => ?_
          · simp [afterTry, TcpOutcome.result, h.kept]
          · simpa [afterTry] using hprogress.once
          · have hall := hprogress.allDealt _ (fun f => .inl le_rfl) (hguard.2 rfl)
            simpa [afterTry] using hall
    · rw [tryTcp_ipv6Fails h6 hgoes]
      have hpast : Progress c.stored (now :: c.times) (c.spare.advance .inet6) (c.tried ++
          if c.spare.currentLives .inet6 now then [] ++ [(.inet6, c.spare.index .inet6)]
          else []) none := by
        split_ifs with hdead
        · exact (hprogress.tryNext h6.2).failed
        · rw [List.append_nil]
          exact hprogress.expired List.mem_cons_self (by simpa using hdead)
      exact kept_ipv4Block h hpast (.inr (.inl rfl)) (.inl rfl)
        (MultiAddresses.ttls_advance c.spare .inet6) (MultiAddresses.time_advance c.spare .inet6)
        rfl hreads1 (hguard.2 hgoes)
  · rw [ReadyTriesOn, if_neg h6] at hguard
    rw [connectReady, tryTcp_noIpv6 h6]
    have hopen : family = .inet ∨ SpareResult.resolvResourceFailure = .connectFailed ∨
        (family = .inet6 ∧ c.spare.count .inet6 ≤ c.spare.index .inet6) := by
      cases hfam : family with
      | inet => exact .inl rfl
      | inet6 => exact .inr (.inr ⟨rfl, not_lt.mp fun hlt => h6 ⟨hfam, hlt⟩⟩)
    have hstart : Progress c.stored (now :: c.times) c.spare (c.tried ++ []) none := by
      rw [List.append_nil]
      exact hprogress
    exact kept_ipv4Block h hstart hopen (.inr ⟨rfl, rfl⟩) rfl rfl rfl (by simp) hguard

/-- After a failed attempt of a family: the next phase, and what it needs. -/
lemma kept_failedConnect {c' : Connecting} (family : AddressFamily) (spare : MultiAddresses)
    (hspare : c'.spare = (spare.failedConnect family).1)
    (hphase : c'.phase = afterFailure (spare.failedConnect family).2)
    (hreads : ∀ p ∈ c'.reads, p.1 < p.2) (hkept : c'.discarded = false)
    (hpast : Progress c'.stored c'.times (spare.advance family) c'.tried none)
    (hleft : family = .inet → spare.index .inet + 1 < spare.count .inet ∨
      ∀ f i ttl, (spare.advance .inet).index f ≤ i → (spare.ttls f)[i]? = some ttl →
        ∃ t ∈ c'.times, spare.lives ttl t = false) : c'.Kept := by
  refine kept_afterFailure _ hphase hreads hkept hpast.once (fun _ => hspare ▸ hpast) ?_
  intro hover
  refine hpast.allDealt _ (fun f => .inl le_rfl) ?_
  intro f i ttl hle hi
  rw [MultiAddresses.ttls_advance] at hi
  have hbound : i < spare.count f := (List.getElem?_eq_some_iff.mp hi).1
  cases family with
  | inet =>
      have hlast : ¬ spare.index .inet + 1 < spare.count .inet := by
        simpa [MultiAddresses.failedConnect, MultiAddresses.count] using hover
      simpa [MultiAddresses.lives] using (hleft rfl).resolve_left hlast f i ttl hle hi
  | inet6 =>
      have hlast : ¬ spare.index .inet6 + 1 < spare.count .inet6 ∧ spare.count .inet = 0 := by
        simpa [MultiAddresses.failedConnect, MultiAddresses.count] using hover
      cases f with
      | inet => omega
      | inet6 =>
          simp only [MultiAddresses.index_advance, if_true] at hle
          omega

/-- The connection to the address of the answer. -/
lemma kept_connectAnswer (h : c.Kept) {answer : Destination} (hphase : c.phase = .answered)
    {now : Int} {o : TcpOutcome} (hguard : TriesOn answer c (.connectAnswer now o)) :
    Kept { connectAnswer answer c o with times := now :: c.times } := by
  obtain ⟨hnone, hzero⟩ := h.start hphase
  obtain ⟨hfirst, hfailed, hresource⟩ := hguard
  have hprogress := (h.idle (.inl hphase)).mono now
  have htry : Progress c.stored (now :: c.times) c.spare
      (if c.spare.first answer.family = some answer then c.tried ++ [(answer.family, 0)]
        else c.tried) (some answer.family) := by
    split_ifs with hhead
    · have hpos : c.spare.index answer.family < c.spare.count answer.family := by
        rw [hzero, MultiAddresses.count, List.length_pos_iff]
        rintro hnil
        cases answer <;>
          simp_all [Destination.family, MultiAddresses.first, MultiAddresses.ttls]
      have hnext := hprogress.tryNext hpos
      rwa [hzero] at hnext
    · have hnil : c.spare.ttls answer.family = [] := by
        have hempty := hfirst.resolve_right hhead
        cases answer <;>
          simp_all [Destination.family, MultiAddresses.first, MultiAddresses.ttls]
      refine { hprogress with bounded := fun f i hmem => ?_, current := fun f hf ttl hi => ?_ }
      · rw [hnone] at hmem
        simp at hmem
      · obtain rfl := Option.some.inj hf
        simp [hnil] at hi
  cases o with
  | success =>
      refine kept_connected rfl h.reads h.kept ?_
      simpa [connectAnswer] using htry.once
  | wouldblock =>
      refine kept_inProgress (f := answer.family) rfl h.reads h.kept ?_
      simpa [connectAnswer] using htry
  | resourceFailure =>
      refine kept_afterFailure false rfl h.reads h.kept ?_ (fun h => absurd h (by simp)) fun _ => ?_
      · simpa [connectAnswer] using hprogress.once
      · simpa [connectAnswer] using hprogress.allDealt _ (fun f => .inl le_rfl) (hresource rfl)
  | failed =>
      refine kept_failedConnect answer.family c.spare rfl rfl h.reads h.kept ?_ ?_
      · simpa [connectAnswer] using htry.failed
      · intro hfam
        refine (hfailed rfl hfam).imp (fun hmore => ?_) id
        rw [hzero]
        exact hmore

/-- `pbpal_check_connect`. -/
lemma kept_connectCheck (h : c.Kept) {answer : Destination} {family : AddressFamily}
    (hphase : c.phase = .inProgress family) {now : Int} {found : ConnectCheck}
    (hguard : TriesOn answer c (.check now found)) :
    Kept { connectCheck c family found with times := now :: c.times } := by
  have hprogress := (h.busy family hphase).mono now
  obtain ⟨hso, hbroken⟩ := hguard family hphase
  have hadvanced : ∀ f, (c.spare.advance family).index f ≤ c.spare.index f ∨
      (some family = some f ∧ (c.spare.advance family).index f ≤ c.spare.index f + 1) := by
    intro f
    rw [MultiAddresses.index_advance]
    split_ifs with hf
    · exact .inr ⟨by rw [hf], le_rfl⟩
    · exact .inl le_rfl
  cases found with
  | established => exact kept_connected rfl h.reads h.kept h.once
  | waiting => exact kept_inProgress hphase h.reads h.kept hprogress
  | brokenOff =>
      exact kept_afterFailure false rfl h.reads h.kept h.once (fun h => absurd h (by simp))
        fun _ => hprogress.allDealt _ hadvanced (hbroken rfl)
  | soError known =>
      obtain ⟨hknown, hleft⟩ := hso known rfl
      by_cases hsame : (if known then family else .inet) = family
      · refine kept_failedConnect family c.spare ?_ ?_ h.reads h.kept hprogress.failed hleft
        · simp only [connectCheck, hsame]
        · simp only [connectCheck, hsame]
      · cases known with
        | true => exact absurd rfl hsame
        | false =>
            cases family with
            | inet => exact absurd rfl hsame
            | inet6 =>
                obtain ⟨hnone, hmore⟩ : c.spare.count .inet = 0 ∧
                    c.spare.hasMore .inet6 = false := by simpa using hknown
                simp only [MultiAddresses.hasMore, Bool.or_eq_false_iff,
                  decide_eq_false_iff_not, not_lt] at hmore
                refine kept_afterFailure false ?_ h.reads h.kept h.once
                  (fun h => absurd h (by simp)) fun _ => ?_
                · simp only [connectCheck, MultiAddresses.failedConnect, MultiAddresses.count,
                    MultiAddresses.ttls_advance] at hnone ⊢
                  simp [hnone, afterFailure]
                · refine hprogress.allDealt _ hadvanced fun f i ttl hle hi => ?_
                  have hbound : i < c.spare.count f := (List.getElem?_eq_some_iff.mp hi).1
                  cases f with
                  | inet => omega
                  | inet6 => exact absurd (hmore.1.trans hle) (not_le.mpr hbound)

/-- **One step keeps the invariant**, when it meets the condition. -/
lemma kept_step {b : AddressBuild} {answer : Destination} {a : ConnectStep} {c' : Connecting}
    (h : c.Kept) (hguard : TriesOn answer c a) (hstep : connectingStep b answer c a = some c') :
    c'.Kept := by
  cases a with
  | connectAnswer now o =>
      simp only [connectingStep, Option.ite_none_right_eq_some, Option.some.injEq] at hstep
      obtain ⟨hphase, rfl⟩ := hstep
      exact kept_connectAnswer h hphase hguard
  | ready family now o6 o4 =>
      simp only [connectingStep, Option.ite_none_right_eq_some, Option.some.injEq] at hstep
      obtain ⟨⟨hphase, -⟩, rfl⟩ := hstep
      exact kept_ready h hphase hguard
  | check now found =>
      simp only [connectingStep] at hstep
      split at hstep
      · next family hphase =>
          obtain rfl := Option.some.inj hstep
          exact kept_connectCheck h hphase hguard
      · cases hstep

end Connecting

/-! ## Runs -/

/-- Two IPv4 addresses and how long they live. -/
def twoIpv4 : MultiAddresses where
  timeOfTheLastDnsQuery := 0
  ipv4Addresses := [(#v[9, 8, 7, 6], 60), (#v[5, 4, 3, 2], 60)]
  ipv4Index := 0
  ipv6Addresses := []
  ipv6Index := 0

/-- `TriesOn` as a test, for IPv4 attempts after which another address is left. -/
def triesOnIpv4 (answer : Destination) (c : Connecting) : ConnectStep → Bool
  | .connectAnswer _ o =>
      decide (c.spare.first answer.family = some answer) && decide (o ≠ .resourceFailure) &&
        decide (1 < c.spare.count .inet)
  | .ready family now _ o4 =>
      decide (family = .inet) && decide (c.spare.index .inet < c.spare.count .inet) &&
        (c.spare.currentLives .inet now && decide (o4 ≠ .failed) && decide (o4 ≠ .resourceFailure))
  | .check _ found => decide (found = .established ∨ found = .waiting)

lemma triesOnIpv4_triesOn {answer : Destination} {c : Connecting} {a : ConnectStep}
    (h : triesOnIpv4 answer c a = true) : TriesOn answer c a := by
  cases a with
  | connectAnswer now o =>
      simp only [triesOnIpv4, Bool.and_eq_true, decide_eq_true_eq] at h
      obtain ⟨⟨hfirst, hresource⟩, hmore⟩ := h
      exact ⟨.inr hfirst, fun _ _ => .inl hmore, fun ho => absurd ho hresource⟩
  | ready family now o6 o4 =>
      simp only [triesOnIpv4, Bool.and_eq_true, decide_eq_true_eq] at h
      obtain ⟨⟨rfl, hleft⟩, ⟨hlives, hfailed⟩, hresource⟩ := h
      show c.ReadyTriesOn .inet now o6 o4
      rw [Connecting.ReadyTriesOn, if_neg (by simp), Connecting.Ipv4BlockTriesOn, if_pos hleft]
      exact ⟨fun _ ho => absurd ho hresource, fun hnot => absurd ⟨hlives, hfailed⟩ hnot⟩
  | check now found =>
      simp only [triesOnIpv4, decide_eq_true_eq] at h
      intro f _
      rcases h with rfl | rfl
      · exact ⟨fun known hknown => absurd hknown (by simp), fun hbroken => absurd hbroken (by simp)⟩
      · exact ⟨fun known hknown => absurd hknown (by simp), fun hbroken => absurd hbroken (by simp)⟩

/-- Two IPv6 addresses and an IPv4 one. -/
def threeAddresses : MultiAddresses where
  timeOfTheLastDnsQuery := 0
  ipv4Addresses := [(#v[9, 8, 7, 6], 60)]
  ipv4Index := 0
  ipv6Addresses := [(Vector.replicate 16 1, 60), (Vector.replicate 16 2, 60)]
  ipv6Index := 0

end PubNub
