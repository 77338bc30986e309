import PubNubCore.Dns.SpareAddresses
import PubNubCore.Network.Context

/-!
# The port and the kind of address of a connection

`lib/sockets/pbpal_resolv_and_connect_sockets.c`: a transaction connects to the numerical address of
a proxy, to a stored address, to what `getaddrinfo` has found, or to what the DNS has answered.  The
port of the first three is the one of `prepare_port_and_hostname`, before the DNS is asked, and
`pbpal_check_resolv_and_connect` decides for itself which one to use after the answer.

`destination_right_iff` says when the two agree, and when the three ways of choosing between IPv4 and
IPv6 addresses do.  They do not where a port is configured, which is not asked for after the answer;
where a stored address that fails changes `trySSL` before the DNS is asked; and where the loop over the
results of `getaddrinfo` goes on to IPv4 after it has been connected.
-/

namespace PubNub

/-! ## The context -/

/-- What is built in. -/
structure ConnectBuild extends AddressBuild where
  useSsl : Bool
  originSettable : Bool
  proxyApi : Bool

/-- What decides where a context connects to.  TLS is tried only where it is used. -/
structure ConnectContext where
  origin : Option Bytes
  port : UInt16
  useSSL : Bool
  trySSL : Bool
  proxyType : ProxyType
  proxyHostname : Bytes
  proxyPort : UInt16
  proxyTunnelEstablished : Bool
  proxyIpv4Address : Ipv4Address
  proxyIpv6Address : Ipv6Address
  spare : MultiAddresses
  tls : trySSL = true → useSSL = true

def httpPort : UInt16 := 80

def tlsPort : UInt16 := 443

/-- `INITIAL_PORT_VALUE`. -/
def initialPortValue : UInt16 := 0

/-- `PUBNUB_ORIGIN`. -/
def pubnubOrigin : Bytes := ascii "ps.pndsn.com"

/-- The context with other stored addresses; one that has failed lets TLS be tried again. -/
def ConnectContext.withSpare (pb : ConnectContext) (spare : MultiAddresses) (failed : Bool) :
    ConnectContext :=
  { pb with
    spare := spare
    trySSL := if failed then pb.useSSL else pb.trySSL
    tls := by
      intro h
      split at h
      · exact h
      · exact pb.tls h }

/-- ResolvedAddresses addresses that have just been found.  An IPv6 address that is unspecified stands for
    none (`IN6_IS_ADDR_UNSPECIFIED`), and they need at least a second to live. -/
structure ResolvedAddresses where
  ipv4 : List Ipv4Address
  ipv6 : List Ipv6Address
  ttl : UInt16
  specified : ∀ a ∈ ipv6, a ≠ Vector.replicate 16 0
  lives : 2 < ttl.toNat

/-- What surrounds a transaction: whether IPv6 goes, the time, what comes of connecting to an
    address, the addresses of the host and the results of `getaddrinfo`, which has the same. -/
structure Surroundings where
  ipv6Supported : Bool
  now : Int
  net : Destination → TcpOutcome
  found : ResolvedAddresses
  results : List Destination
  ipv4 : results.filter (fun d => d.family = .inet) = found.ipv4.map .ipv4
  ipv6 : results.filter (fun d => d.family = .inet6) = found.ipv6.map .ipv6

/-- The calls of `connect_TCP_socket` with the port, what has come of them, and the context. -/
structure Connects where
  attempts : List (Destination × UInt16)
  result : SpareResult
  pb : ConnectContext

namespace ConnectContext

variable (b : ConnectBuild) (pb : ConnectContext) (around : Surroundings)

/-- The preferred address family. -/
def family : AddressFamily := if b.useIpv6 && around.ipv6Supported then .inet6 else .inet

/-- `HTTP_PORT` or `TLS_PORT`. -/
def plainPort : UInt16 := if b.useSsl && pb.trySSL then tlsPort else httpPort

/-- `prepare_port_and_hostname`. -/
def preparePortAndHostname : UInt16 × Bytes :=
  let port := pb.plainPort b
  let port := if b.originSettable ∧ pb.port ≠ initialPortValue then pb.port else port
  let origin := if b.originSettable then pb.origin.getD pubnubOrigin else pubnubOrigin
  if b.proxyApi then
    match pb.proxyType with
    | .httpConnect =>
        (pb.proxyPort, if pb.proxyTunnelEstablished then origin else pb.proxyHostname)
    | .httpGet => (pb.proxyPort, pb.proxyHostname)
    | .none => (port, origin)
  else (port, origin)

/-! ## Before the DNS is asked -/

/-- The numerical address of the proxy, if there is one. -/
def proxyDestination : Option Destination :=
  let hasIpv6 := b.useIpv6 &&
    (decide (getElem pb.proxyIpv6Address 0 zero_lt_sixteen ≠ 0) ||
      decide (getElem pb.proxyIpv6Address 1 one_lt_sixteen ≠ 0))
  if b.proxyApi then
    if family b around = .inet6 ∧ hasIpv6 then some (.ipv6 pb.proxyIpv6Address)
    else if getElem pb.proxyIpv4Address 0 zero_lt_four ≠ 0 ∧
        (family b around ≠ .inet6 ∨ hasIpv6 = false) then
      some (.ipv4 pb.proxyIpv4Address)
    else none
  else none

end ConnectContext

/-- The stored address in a slot. -/
def MultiAddresses.destination (s : MultiAddresses) : Slot → Option Destination
  | (.inet, i) => s.ipv4Addresses[i]?.map fun a => .ipv4 a.1
  | (.inet6, i) => s.ipv6Addresses[i]?.map fun a => .ipv6 a.1

/-- What comes of connecting to the stored address of a family whose turn it is. -/
def MultiAddresses.outcome (s : MultiAddresses) (net : Destination → TcpOutcome)
    (family : AddressFamily) : TcpOutcome :=
  ((s.destination (family, s.index family)).map net).getD .failed

/-- Whether `try_TCP_connect_spare_address` sets `trySSL`. -/
def spareFails (s : MultiAddresses) (family : AddressFamily) (now : Int) (o6 o4 : TcpOutcome) :
    Bool :=
  let t := SpareTry.ipv6Block ⟨s, .resolvResourceFailure, false, family, [], []⟩ family now o6
  decide (t.result = .connectFailed) ||
    decide ((t.ipv4Block family now o4).result = .connectFailed)

namespace ConnectContext

variable (b : ConnectBuild) (pb : ConnectContext) (around : Surroundings)

/-- `pbpal_resolv_and_connect` of the callback interface; the result `resolvResourceFailure` stands
    for a query that is sent. -/
def resolvAndConnect : Connects :=
  let port := (pb.preparePortAndHostname b).1
  match pb.proxyDestination b around with
  | some d => ⟨[(d, port)], (around.net d).result, pb⟩
  | none =>
      if b.useMultipleAddresses then
        let family := family b around
        let o6 := pb.spare.outcome around.net .inet6
        let o4 := pb.spare.outcome around.net .inet
        let t := tryTcpConnectSpareAddress pb.spare family around.now o6 o4
        ⟨(t.tried.filterMap pb.spare.destination).map fun d => (d, port), t.result,
          pb.withSpare t.spare (spareFails pb.spare family around.now o6 o4)⟩
      else ⟨[], .resolvResourceFailure, pb⟩

/-! ## After the answer -/

/-- The address which `pbpal_check_resolv_and_connect` connects to. -/
def answerDestination : Destination :=
  let aaaa := around.found.ipv6.head?.getD (Vector.replicate 16 0)
  if family b around = .inet6 ∧ aaaa ≠ Vector.replicate 16 0 then .ipv6 aaaa
  else .ipv4 (around.found.ipv4.head?.getD (Vector.replicate 4 0))

/-- The port which it uses. -/
def answerPort : UInt16 :=
  if b.proxyApi ∧ pb.proxyType ≠ .none then pb.proxyPort else pb.plainPort b

/-- `pbpal_check_resolv_and_connect`, when the answer is there. -/
def checkResolvAndConnect : Connects :=
  let d := answerDestination b around
  ⟨[(d, pb.answerPort b)], (around.net d).result, pb⟩

/-! ## Without callbacks -/

/-- A connection has been made, or will be. -/
def goes : TcpOutcome → Bool
  | .success | .wouldblock => true
  | .failed | .resourceFailure => false

/-- The loop over the results of `getaddrinfo`: those which it connects to, and the last of them if
    it has not failed. -/
def connectPass (net : Destination → TcpOutcome) (wanted : Destination → Bool) :
    List Destination → List Destination × Option Destination
  | [] => ([], none)
  | d :: results =>
      if wanted d then
        match net d with
        | .resourceFailure => connectPass net wanted results
        | .failed =>
            let pass := connectPass net wanted results
            (d :: pass.1, pass.2)
        | _ => ([d], some d)
      else connectPass net wanted results

/-- `pbpal_resolv_and_connect` without callbacks: what it has connected to, and the socket that it
    comes back with. -/
def resolvAndConnectBlocking : List (Destination × UInt16) × Option Destination :=
  let port := (pb.preparePortAndHostname b).1
  let pass := fun family => connectPass around.net (fun d => d.family = family) around.results
  let (attempts, used) :=
    if b.useIpv6 then
      let first := pass (family b around)
      if first.2.map around.net = some .wouldblock then first
      else (first.1 ++ (pass .inet).1, (pass .inet).2)
    else connectPass around.net (fun _ => true) around.results
  (attempts.map fun d => (d, port), used)

end ConnectContext

/-! ## What is promised -/

/-- The addresses as they are stored. -/
def ResolvedAddresses.stored (found : ResolvedAddresses) (now : Int) : MultiAddresses :=
  ⟨now, found.ipv4.map fun a => (a, found.ttl), 0, found.ipv6.map fun a => (a, found.ttl), 0⟩

/-- The family of the socket with which `try_TCP_connect_spare_address` comes back. -/
def SpareTry.used (t : SpareTry) : Option AddressFamily :=
  if t.result = .connectSuccess ∨ t.result = .connectWouldblock then some t.family else none

namespace ConnectContext

variable (b : ConnectBuild) (pb : ConnectContext) (around : Surroundings)

/-- The family of the stored address to which the addresses that have been found lead. -/
def spareUsed : Option AddressFamily :=
  let s := around.found.stored around.now
  (tryTcpConnectSpareAddress s (family b around) around.now (s.outcome around.net .inet6)
    (s.outcome around.net .inet)).used

/-- All connections have the port that is prepared, the one after an answer included, where the DNS is
    asked; and where the connection to the address that has been answered goes, the other ways
    connect to one of its family. -/
structure SameDestination : Prop where
  before : ∀ a ∈ (pb.resolvAndConnect b around).attempts ++ (pb.resolvAndConnectBlocking b around).1,
    a.2 = (pb.preparePortAndHostname b).1
  behind : (pb.resolvAndConnect b around).result = .resolvResourceFailure →
    ∀ a ∈ ((pb.resolvAndConnect b around).pb.checkResolvAndConnect b around).attempts,
      a.2 = (pb.preparePortAndHostname b).1
  kind : goes (around.net (answerDestination b around)) = true →
    (b.useMultipleAddresses = true →
      spareUsed b around = some (answerDestination b around).family) ∧
    (pb.resolvAndConnectBlocking b around).2.map Destination.family =
      some (answerDestination b around).family

/-- It is the turn of a stored address of the family. -/
def Due (family : AddressFamily) : Prop := pb.spare.index family < pb.spare.count family

instance (family : AddressFamily) : Decidable (pb.Due family) := Nat.decLt _ _

/-- The stored address whose turn it is has expired, or connecting to it fails at once. -/
def StoredFails (family : AddressFamily) : Prop :=
  ¬ (pb.spare.currentLives family around.now = true ∧ pb.spare.outcome around.net family ≠ .failed)

/-- An IPv6 address whose turn it is is tried. -/
def Ipv6Due : Prop := family b around = .inet6 ∧ pb.Due .inet6

instance : Decidable (pb.Ipv6Due b around) := inferInstanceAs (Decidable (_ ∧ _))

/-- All stored addresses fail, and those that do are the last. -/
def StoredExhausted : Prop :=
  (pb.Ipv6Due b around → pb.StoredFails around .inet6) ∧
    if pb.Due .inet then
      pb.StoredFails around .inet ∧ ¬ pb.spare.index .inet + 1 < pb.spare.count .inet
    else pb.Ipv6Due b around → ¬ pb.spare.index .inet6 + 1 < pb.spare.count .inet6

/-- The DNS is asked: the proxy has no numerical address, and there are no stored addresses. -/
def AsksDns : Prop :=
  pb.proxyDestination b around = none ∧
    (b.useMultipleAddresses = true → pb.StoredExhausted b around)

/-- TLS is tried after the answer. -/
def triesTls : Bool :=
  b.useSsl && if b.useMultipleAddresses = true ∧ (pb.Ipv6Due b around ∨ pb.Due .inet) then pb.useSSL
    else pb.trySSL

/-- The ports agree: the DNS is not asked, or there is a proxy, or TLS is tried as before and no port
    is configured but the usual one. -/
def PortsAgree : Prop :=
  pb.AsksDns b around → (b.proxyApi = true ∧ pb.proxyType ≠ .none) ∨
    if b.originSettable = true ∧ pb.port ≠ initialPortValue then
      pb.port = if pb.triesTls b around then tlsPort else httpPort
    else pb.triesTls b around = (b.useSsl && pb.trySSL)

/-- The kinds agree: the address that has been answered is there, an IPv6 connection is not made at
    once, and without IPv6 the first result of `getaddrinfo` that goes is an IPv4 address. -/
def KindsAgree : Prop :=
  goes (around.net (answerDestination b around)) = true →
    ((answerDestination b around).family = .inet → around.found.ipv4 ≠ []) ∧
    ((answerDestination b around).family = .inet6 →
      around.net (answerDestination b around) = .wouldblock) ∧
    (b.useIpv6 = false → (around.results.find? fun d => goes (around.net d)).map Destination.family =
      some .inet)

end ConnectContext

/-! ## The stored addresses -/

section Stored

variable {s : MultiAddresses} {t : SpareTry} {family : AddressFamily} {now : Int}
  {o o6 o4 : TcpOutcome}

lemma result_ne_resolvResourceFailure : o.result ≠ .resolvResourceFailure := by
  cases o <;> exact fun h => nomatch h

lemma result_ne_connectFailed (ho : o ≠ .failed) : o.result ≠ .connectFailed := by
  cases o with
  | failed => exact absurd rfl ho
  | success => exact fun h => nomatch h
  | wouldblock => exact fun h => nomatch h
  | resourceFailure => exact fun h => nomatch h

lemma conclude_result : t.conclude.result =
    if t.result = .connectFailed ∧ t.retry = false then .resolvResourceFailure else t.result := by
  rw [SpareTry.conclude]
  split <;> rfl

/-- The turn of IPv6 addresses does not matter to IPv4 addresses. -/
lemma currentLives_advance :
    (s.advance .inet6).currentLives .inet now = s.currentLives .inet now := by
  simp [MultiAddresses.currentLives, MultiAddresses.lives]

/-- The end of a call in which it is the turn of an IPv4 address. -/
lemma ipv4Block_conclude_due (family : AddressFamily) (now : Int)
    (hopen : family = .inet ∨ t.result = .connectFailed ∨
      (family = .inet6 ∧ t.spare.count .inet6 ≤ t.spare.index .inet6))
    (hdue : t.spare.index .inet < t.spare.count .inet) :
    ((t.ipv4Block family now o).conclude.result = .resolvResourceFailure ↔
      ¬ (t.spare.currentLives .inet now = true ∧ o ≠ .failed) ∧
        ¬ t.spare.index .inet + 1 < t.spare.count .inet) ∧
    (¬ (t.spare.currentLives .inet now = true ∧ o ≠ .failed) →
      (t.ipv4Block family now o).result = .connectFailed) := by
  have hblock : t.ipv4Block family now o = t.attempt .inet now o := if_pos ⟨hopen, hdue⟩
  rw [hblock, conclude_result]
  by_cases hgoes : t.spare.currentLives .inet now = true ∧ o ≠ .failed
  · rw [attempt_of_goes hgoes.1 hgoes.2]
    have hresult := result_ne_connectFailed hgoes.2
    refine ⟨?_, fun h => absurd hgoes h⟩
    rw [if_neg fun h => hresult h.1]
    exact iff_of_false result_ne_resolvResourceFailure fun h => h.1 hgoes
  · rw [attempt_of_not_goes hgoes]
    refine ⟨?_, fun _ => rfl⟩
    by_cases hmore : t.spare.index .inet + 1 < t.spare.count .inet
    · simp [hmore]
    · simp only [hmore, decide_false, and_self, if_true, not_false_eq_true, and_true, true_iff]
      exact hgoes

/-- The end of a call in which it is not. -/
lemma ipv4Block_conclude_not_due (family : AddressFamily) (now : Int)
    (hdue : ¬ t.spare.index .inet < t.spare.count .inet) :
    (t.ipv4Block family now o).conclude.result =
        (if t.result = .connectFailed ∧ t.retry = false then .resolvResourceFailure
          else t.result) ∧
      (t.ipv4Block family now o).result = t.result := by
  have hblock : t.ipv4Block family now o = { t with spare := t.spare.resetCounters } :=
    if_neg fun h => hdue h.2
  rw [hblock, conclude_result]
  exact ⟨rfl, rfl⟩

/-- When the DNS is asked after the stored addresses, and whether one of them has failed then. -/
lemma tryTcp_asks (s : MultiAddresses) (due6 fails6 due4 fails4 : Prop) [Decidable due6]
    [Decidable due4]
    (hdue6 : due6 ↔ family = .inet6 ∧ s.index .inet6 < s.count .inet6)
    (hfails6 : fails6 ↔ ¬ (s.currentLives .inet6 now = true ∧ o6 ≠ .failed))
    (hdue4 : due4 ↔ s.index .inet < s.count .inet)
    (hfails4 : fails4 ↔ ¬ (s.currentLives .inet now = true ∧ o4 ≠ .failed)) :
    ((tryTcpConnectSpareAddress s family now o6 o4).result = .resolvResourceFailure ↔
      (due6 → fails6) ∧ if due4 then fails4 ∧ ¬ s.index .inet + 1 < s.count .inet
        else due6 → ¬ s.index .inet6 + 1 < s.count .inet6) ∧
    ((tryTcpConnectSpareAddress s family now o6 o4).result = .resolvResourceFailure →
      spareFails s family now o6 o4 = decide (due6 ∨ due4)) := by
  by_cases h6 : due6
  · have h6' := hdue6.mp h6
    by_cases hf6 : fails6
    · have hnot := hfails6.mp hf6
      have hblock : SpareTry.ipv6Block ⟨s, .resolvResourceFailure, false, family, [], []⟩ family now
          o6 = _ := (ipv6Block_of_stored h6').trans (attempt_of_not_goes hnot)
      rw [spareFails, hblock, tryTcp_ipv6Fails h6' hnot]
      simp only [h6, hf6, true_or, decide_true, Bool.true_or, implies_true, and_true,
        forall_const, true_and]
      by_cases h4 : due4
      · rw [if_pos h4, hfails4]
        have hend := (ipv4Block_conclude_due family now (o := o4)
          (t := ⟨s.advance .inet6, .connectFailed, decide (s.index .inet6 + 1 < s.count .inet6),
            .inet6, [] ++ [(s.index .inet6, s.count .inet6)],
            if s.currentLives .inet6 now then [] ++ [(.inet6, s.index .inet6)] else []⟩)
          (.inr (.inl rfl)) (by simpa [MultiAddresses.count] using hdue4.mp h4)).1
        rw [hend, currentLives_advance]
        simp [MultiAddresses.count]
      · rw [if_neg h4]
        have hend := (ipv4Block_conclude_not_due family now (o := o4)
          (t := ⟨s.advance .inet6, .connectFailed, decide (s.index .inet6 + 1 < s.count .inet6),
            .inet6, [] ++ [(s.index .inet6, s.count .inet6)],
            if s.currentLives .inet6 now then [] ++ [(.inet6, s.index .inet6)] else []⟩)
          (by simpa [MultiAddresses.count] using fun h => h4 (hdue4.mpr h))).1
        rw [hend]
        by_cases hmore : s.index .inet6 + 1 < s.count .inet6
        · simp [hmore]
        · simp [hmore]
    · have hgoes := not_not.mp fun h => hf6 (hfails6.mpr h)
      rw [tryTcp_ipv6Goes h6' hgoes.1 hgoes.2]
      have hne : ¬ o6.result = .resolvResourceFailure := result_ne_resolvResourceFailure
      refine ⟨iff_of_false hne fun h => hf6 (h.1 h6), fun h => absurd h hne⟩
  · have h6' : ¬ (family = .inet6 ∧ s.index .inet6 < s.count .inet6) := fun h => h6 (hdue6.mpr h)
    have hblock : SpareTry.ipv6Block ⟨s, .resolvResourceFailure, false, family, [], []⟩ family now
        o6 = _ := if_neg h6'
    have hopen : family = .inet ∨ SpareResult.resolvResourceFailure = .connectFailed ∨
        (family = .inet6 ∧ s.count .inet6 ≤ s.index .inet6) := by
      cases family with
      | inet => exact .inl rfl
      | inet6 => exact .inr (.inr ⟨rfl, Nat.le_of_not_lt fun h => h6' ⟨rfl, h⟩⟩)
    rw [spareFails, hblock, tryTcp_noIpv6 h6']
    simp only [h6, false_or, false_implies, true_and]
    by_cases h4 : due4
    · obtain ⟨hend, hfailed⟩ := ipv4Block_conclude_due family now (o := o4)
        (t := ⟨s, .resolvResourceFailure, false, family, [], []⟩) hopen (hdue4.mp h4)
      rw [if_pos h4, hend, hfails4]
      refine ⟨Iff.rfl, fun h => ?_⟩
      rw [hfailed h.1]
      simp [h4]
    · obtain ⟨hend, hkept⟩ := ipv4Block_conclude_not_due family now (o := o4)
        (t := ⟨s, .resolvResourceFailure, false, family, [], []⟩) fun h => h4 (hdue4.mpr h)
      rw [if_neg h4, hend, hkept]
      simp [h4]

end Stored

namespace ConnectContext

variable {b : ConnectBuild} {pb : ConnectContext} {around : Surroundings}

/-- The DNS is asked where the context says so, and TLS is tried then as it says. -/
lemma resolvAndConnect_asks (b : ConnectBuild) (pb : ConnectContext) (around : Surroundings) :
    ((pb.resolvAndConnect b around).result = .resolvResourceFailure ↔ pb.AsksDns b around) ∧
    ((pb.resolvAndConnect b around).result = .resolvResourceFailure →
      (pb.resolvAndConnect b around).pb.plainPort b =
        if pb.triesTls b around then tlsPort else httpPort) := by
  rw [resolvAndConnect, AsksDns]
  dsimp only
  cases hproxy : pb.proxyDestination b around with
  | some d =>
      have hne : ¬ (around.net d).result = .resolvResourceFailure :=
        result_ne_resolvResourceFailure
      refine ⟨iff_of_false hne fun h => ?_, fun h => absurd h hne⟩
      cases h.1
  | none =>
      dsimp only
      by_cases hmultiple : b.useMultipleAddresses = true
      · rw [if_pos hmultiple]
        obtain ⟨hasks, hfails⟩ := tryTcp_asks pb.spare (pb.Ipv6Due b around)
          (pb.StoredFails around .inet6) (pb.Due .inet) (pb.StoredFails around .inet)
          Iff.rfl Iff.rfl Iff.rfl Iff.rfl
        refine ⟨?_, fun h => ?_⟩
        · rw [hasks]
          simp only [true_and, hmultiple, forall_const]
          rfl
        · rw [plainPort, triesTls, withSpare, hfails h]
          simp only [hmultiple, true_and, decide_eq_true_eq]
      · rw [if_neg hmultiple]
        simp [hmultiple, plainPort, triesTls]

/-- The address after the answer has this port. -/
lemma answerPort_resolvAndConnect : (pb.resolvAndConnect b around).pb.answerPort b =
    if b.proxyApi ∧ pb.proxyType ≠ .none then pb.proxyPort
    else (pb.resolvAndConnect b around).pb.plainPort b := by
  have hsame : (pb.resolvAndConnect b around).pb.proxyType = pb.proxyType ∧
      (pb.resolvAndConnect b around).pb.proxyPort = pb.proxyPort := by
    rw [resolvAndConnect]
    dsimp only
    split
    · exact ⟨rfl, rfl⟩
    · split
      · exact ⟨rfl, rfl⟩
      · exact ⟨rfl, rfl⟩
  rw [answerPort, hsame.1, hsame.2]

/-- The port that is prepared. -/
lemma preparePort_eq : (pb.preparePortAndHostname b).1 =
    if b.proxyApi ∧ pb.proxyType ≠ .none then pb.proxyPort
    else if b.originSettable ∧ pb.port ≠ initialPortValue then pb.port else pb.plainPort b := by
  rw [preparePortAndHostname]
  cases hproxy : b.proxyApi with
  | false => simp
  | true => cases htype : pb.proxyType <;> simp

lemma plainPort_inj (x y : Bool) :
    (if x then tlsPort else httpPort) = (if y then tlsPort else httpPort) ↔ x = y := by
  cases x <;> cases y <;> decide

/-- The ports are right where they agree. -/
lemma ports_iff : ((pb.resolvAndConnect b around).result = .resolvResourceFailure →
    ∀ a ∈ ((pb.resolvAndConnect b around).pb.checkResolvAndConnect b around).attempts,
      a.2 = (pb.preparePortAndHostname b).1) ↔ pb.PortsAgree b around := by
  obtain ⟨hasks, hport⟩ := resolvAndConnect_asks b pb around
  have hone : ∀ port : UInt16, (∀ a ∈ ((pb.resolvAndConnect b around).pb.checkResolvAndConnect
      b around).attempts, a.2 = port) ↔ (pb.resolvAndConnect b around).pb.answerPort b = port := by
    intro port
    exact List.forall_mem_singleton
  rw [hone, PortsAgree, ← hasks]
  refine forall_congr' fun hresult => ?_
  rw [answerPort_resolvAndConnect, preparePort_eq, hport hresult]
  by_cases hproxy : b.proxyApi = true ∧ pb.proxyType ≠ .none
  · rw [if_pos hproxy, if_pos hproxy]
    exact iff_of_true rfl (.inl hproxy)
  · rw [if_neg hproxy, if_neg hproxy]
    by_cases hset : b.originSettable = true ∧ pb.port ≠ initialPortValue
    · rw [if_pos hset, if_pos hset, or_iff_right hproxy]
      exact eq_comm
    · rw [if_neg hset, if_neg hset, or_iff_right hproxy, plainPort, plainPort_inj]

/-! ## The kinds of addresses -/

/-- The loop comes back with the first that goes. -/
lemma connectPass_used (net : Destination → TcpOutcome) (wanted : Destination → Bool)
    (results : List Destination) : (connectPass net wanted results).2 =
      (results.filter wanted).find? fun d => goes (net d) := by
  induction results with
  | nil => rfl
  | cons d results ih =>
      rw [connectPass]
      by_cases hwanted : wanted d = true
      · rw [if_pos hwanted, List.filter_cons_of_pos hwanted, List.find?_cons]
        cases hnet : net d with
        | success => rfl
        | wouldblock => rfl
        | failed => exact ih
        | resourceFailure => exact ih
      · rw [if_neg hwanted, List.filter_cons_of_neg hwanted]
        exact ih

lemma pass_ipv4 : (connectPass around.net (fun d => d.family = .inet) around.results).2 =
    (around.found.ipv4.map .ipv4).find? fun d => goes (around.net d) := by
  rw [connectPass_used, around.ipv4]

lemma pass_ipv6 : (connectPass around.net (fun d => d.family = .inet6) around.results).2 =
    (around.found.ipv6.map .ipv6).find? fun d => goes (around.net d) := by
  rw [connectPass_used, around.ipv6]

/-- The address that is answered is the first of its family. -/
lemma answerDestination_cases (b : ConnectBuild) (around : Surroundings) :
    (family b around = .inet6 ∧ ∃ a rest, around.found.ipv6 = a :: rest ∧
      answerDestination b around = .ipv6 a) ∨
    ((family b around = .inet ∨ around.found.ipv6 = []) ∧
      answerDestination b around = .ipv4 (around.found.ipv4.head?.getD (Vector.replicate 4 0))) := by
  rw [answerDestination]
  cases hfamily : family b around with
  | inet => exact .inr ⟨.inl rfl, if_neg fun h => nomatch h.1⟩
  | inet6 =>
      cases hfound : around.found.ipv6 with
      | nil => exact .inr ⟨.inr rfl, if_neg fun h => h.2 rfl⟩
      | cons a rest =>
          refine .inl ⟨rfl, a, rest, rfl, if_pos ⟨rfl, ?_⟩⟩
          exact around.found.specified a (hfound ▸ List.mem_cons_self)

lemma result_of_goes {o : TcpOutcome} (h : goes o = true) :
    (o.result = .connectSuccess ∨ o.result = .connectWouldblock) ∧ o ≠ .failed := by
  cases o with
  | success => exact ⟨.inl rfl, fun h => nomatch h⟩
  | wouldblock => exact ⟨.inr rfl, fun h => nomatch h⟩
  | failed => cases h
  | resourceFailure => cases h

/-- Addresses that have just been found live. -/
lemma stored_lives (found : ResolvedAddresses) (now : Int) :
    (found.stored now).lives found.ttl now = true := by
  have hlives := found.lives
  rw [MultiAddresses.lives, decide_eq_true_eq]
  change (found.ttl.toNat : Int) - 2 > now - now
  omega

/-- Stored IPv6 addresses come first. -/
lemma spareUsed_ipv6 {a : Ipv6Address} {rest : List Ipv6Address} (hfamily : family b around = .inet6)
    (hfound : around.found.ipv6 = a :: rest) (hgoes : goes (around.net (.ipv6 a)) = true) :
    spareUsed b around = some .inet6 := by
  obtain ⟨hresult, hne⟩ := result_of_goes hgoes
  have hlist : (around.found.stored around.now).ipv6Addresses =
      (a, around.found.ttl) :: rest.map fun a => (a, around.found.ttl) := by
    rw [ResolvedAddresses.stored, hfound, List.map_cons]
  have hdue : family b around = .inet6 ∧ (around.found.stored around.now).index .inet6 <
      (around.found.stored around.now).count .inet6 := by
    refine ⟨hfamily, ?_⟩
    rw [MultiAddresses.count, MultiAddresses.ttls, hlist]
    exact Nat.succ_pos _
  have hlives : (around.found.stored around.now).currentLives .inet6 around.now = true := by
    rw [MultiAddresses.currentLives, MultiAddresses.ttls, hlist]
    exact stored_lives around.found around.now
  have houtcome : (around.found.stored around.now).outcome around.net .inet6 =
      around.net (.ipv6 a) := by
    rw [MultiAddresses.outcome, MultiAddresses.destination, hlist]
    rfl
  rw [spareUsed, houtcome, tryTcp_ipv6Goes hdue hlives hne]
  exact if_pos hresult

/-- Without them the IPv4 addresses are tried. -/
lemma spareUsed_ipv4 {a : Ipv4Address} {rest : List Ipv4Address}
    (hfamily : family b around = .inet ∨ around.found.ipv6 = [])
    (hfound : around.found.ipv4 = a :: rest) (hgoes : goes (around.net (.ipv4 a)) = true) :
    spareUsed b around = some .inet := by
  obtain ⟨hresult, hne⟩ := result_of_goes hgoes
  have hlist : (around.found.stored around.now).ipv4Addresses =
      (a, around.found.ttl) :: rest.map fun a => (a, around.found.ttl) := by
    rw [ResolvedAddresses.stored, hfound, List.map_cons]
  have hcount : around.found.ipv6 = [] → (around.found.stored around.now).count .inet6 = 0 := by
    intro hnone
    rw [MultiAddresses.count, MultiAddresses.ttls, ResolvedAddresses.stored, hnone]
    rfl
  have hdue6 : ¬ (family b around = .inet6 ∧ (around.found.stored around.now).index .inet6 <
      (around.found.stored around.now).count .inet6) := by
    rintro ⟨hinet6, hlt⟩
    rcases hfamily with hinet | hnone
    · rw [hinet] at hinet6
      cases hinet6
    · rw [hcount hnone] at hlt
      exact Nat.not_lt_zero _ hlt
  have hopen : family b around = .inet ∨ SpareResult.resolvResourceFailure = .connectFailed ∨
      (family b around = .inet6 ∧ (around.found.stored around.now).count .inet6 ≤
        (around.found.stored around.now).index .inet6) := by
    cases hinet : family b around with
    | inet => exact .inl rfl
    | inet6 => exact .inr (.inr ⟨rfl, Nat.le_of_not_lt fun h => hdue6 ⟨hinet, h⟩⟩)
  have hdue : (around.found.stored around.now).index .inet <
      (around.found.stored around.now).count .inet := by
    rw [MultiAddresses.count, MultiAddresses.ttls, hlist]
    exact Nat.succ_pos _
  have hlives : (around.found.stored around.now).currentLives .inet around.now = true := by
    rw [MultiAddresses.currentLives, MultiAddresses.ttls, hlist]
    exact stored_lives around.found around.now
  have houtcome : (around.found.stored around.now).outcome around.net .inet =
      around.net (.ipv4 a) := by
    rw [MultiAddresses.outcome, MultiAddresses.destination, hlist]
    rfl
  have hblock : SpareTry.ipv4Block ⟨around.found.stored around.now, .resolvResourceFailure, false,
      family b around, [], []⟩ (family b around) around.now (around.net (.ipv4 a)) = _ :=
    (if_pos ⟨hopen, hdue⟩).trans (attempt_of_goes hlives hne)
  rw [spareUsed, houtcome, tryTcp_noIpv6 hdue6, hblock,
    conclude_of_ne (result_ne_connectFailed hne)]
  exact if_pos hresult

/-- The socket without callbacks. -/
lemma blockingUsed_eq : (pb.resolvAndConnectBlocking b around).2 =
    if b.useIpv6 then
      let first := connectPass around.net (fun d => d.family = family b around) around.results
      if first.2.map around.net = some .wouldblock then first.2
      else (connectPass around.net (fun d => d.family = .inet) around.results).2
    else around.results.find? fun d => goes (around.net d) := by
  rw [resolvAndConnectBlocking]
  dsimp only
  split
  · split
    · rfl
    · rfl
  · rw [connectPass_used]
    simp

/-- Without callbacks an IPv4 address is connected to, if there is one that goes. -/
lemma blockingUsed_ipv4 {a : Ipv4Address} {rest : List Ipv4Address}
    (hfamily : family b around = .inet ∨ around.found.ipv6 = [])
    (hfound : around.found.ipv4 = a :: rest) (hgoes : goes (around.net (.ipv4 a)) = true)
    (hipv6 : b.useIpv6 = true) :
    (pb.resolvAndConnectBlocking b around).2 = some (.ipv4 a) := by
  have hfirst : (connectPass around.net (fun d => d.family = .inet) around.results).2 =
      some (.ipv4 a) := by
    rw [pass_ipv4, hfound, List.map_cons]
    exact List.find?_cons_of_pos hgoes
  rw [blockingUsed_eq, if_pos hipv6]
  dsimp only
  cases hinet : family b around with
  | inet =>
      rw [hfirst]
      exact ite_self _
  | inet6 =>
      rcases hfamily with h | hnone
      · rw [h] at hinet
        cases hinet
      · rw [pass_ipv6, hnone, hfirst]
        rfl

/-- The socket is not one of IPv4 where no such address is there. -/
lemma blockingUsed_none (hfamily : family b around = .inet ∨ around.found.ipv6 = [])
    (hfound : around.found.ipv4 = []) :
    (pb.resolvAndConnectBlocking b around).2.map Destination.family ≠ some .inet := by
  have hpass : (connectPass around.net (fun d => d.family = .inet) around.results).2 = none := by
    rw [pass_ipv4, hfound]
    rfl
  rw [blockingUsed_eq]
  split
  · dsimp only
    cases hinet : family b around with
    | inet =>
        rw [hpass, ite_self]
        exact fun h => nomatch h
    | inet6 =>
        rcases hfamily with h | hnone
        · rw [h] at hinet
          cases hinet
        · rw [pass_ipv6, hnone, hpass]
          exact fun h => nomatch h
  · intro h
    obtain ⟨d, hd, hinet⟩ := Option.map_eq_some_iff.mp h
    have hmem : d ∈ around.results.filter fun d => d.family = .inet :=
      List.mem_filter.mpr ⟨List.mem_of_find?_eq_some hd, decide_eq_true hinet⟩
    rw [around.ipv4, hfound] at hmem
    cases hmem

/-- The kinds are right where they agree. -/
lemma kinds_iff (pb : ConnectContext) : (goes (around.net (answerDestination b around)) = true →
    (b.useMultipleAddresses = true →
      spareUsed b around = some (answerDestination b around).family) ∧
    (pb.resolvAndConnectBlocking b around).2.map Destination.family =
      some (answerDestination b around).family) ↔ KindsAgree b around := by
  refine forall_congr' fun hgoes => ?_
  rcases answerDestination_cases b around with
    ⟨hfamily, a, rest, hfound, hd⟩ | ⟨hfamily, hd⟩
  · rw [hd] at hgoes ⊢
    have hipv6 : b.useIpv6 = true := by
      by_contra h
      rw [family, Bool.not_eq_true _ |>.mp h] at hfamily
      cases hfamily
    have hfirst : (connectPass around.net (fun d => d.family = .inet6) around.results).2 =
        some (.ipv6 a) := by
      rw [pass_ipv6, hfound, List.map_cons]
      exact List.find?_cons_of_pos hgoes
    rw [blockingUsed_eq, if_pos hipv6, hfamily]
    dsimp only
    rw [hfirst, spareUsed_ipv6 hfamily hfound hgoes, Option.map_some]
    by_cases hwait : around.net (.ipv6 a) = .wouldblock
    · rw [if_pos (congrArg some hwait)]
      refine iff_of_true ⟨fun _ => rfl, rfl⟩ ⟨fun h => ?_, fun _ => hwait, fun h => ?_⟩
      · cases h
      · rw [hipv6] at h
        cases h
    · rw [if_neg fun h => hwait (Option.some.inj h)]
      refine iff_of_false (fun h => ?_) fun h => hwait (h.2.1 rfl)
      obtain ⟨e, he, hfam⟩ := Option.map_eq_some_iff.mp h.2
      rw [pass_ipv4] at he
      obtain ⟨x, -, rfl⟩ := List.mem_map.mp (List.mem_of_find?_eq_some he)
      cases hfam
  · cases hfound : around.found.ipv4 with
    | nil =>
        rw [hd]
        refine iff_of_false (fun h => ?_) fun h => h.1 rfl rfl
        exact blockingUsed_none hfamily hfound h.2
    | cons a rest =>
        rw [hfound] at hd
        have hd : answerDestination b around = .ipv4 a := hd
        rw [hd] at hgoes ⊢
        rw [spareUsed_ipv4 hfamily hfound hgoes]
        by_cases hipv6 : b.useIpv6 = true
        · rw [blockingUsed_ipv4 hfamily hfound hgoes hipv6]
          refine iff_of_true ⟨fun _ => rfl, rfl⟩ ⟨fun _ => ?_, fun h => ?_, fun h => ?_⟩
          · exact List.cons_ne_nil a rest
          · cases h
          · rw [hipv6] at h
            cases h
        · rw [blockingUsed_eq, if_neg hipv6]
          constructor
          · intro h
            refine ⟨fun _ => ?_, fun h => ?_, fun _ => h.2⟩
            · exact List.cons_ne_nil a rest
            · cases h
          · intro h
            exact ⟨fun _ => rfl, h.2.2 (Bool.not_eq_true _ |>.mp hipv6)⟩

/-! ## When all connections lead to the same destination -/

/-- The ports before the DNS is asked are the one that is prepared. -/
lemma attempts_port : ∀ a ∈ (pb.resolvAndConnect b around).attempts ++
    (pb.resolvAndConnectBlocking b around).1, a.2 = (pb.preparePortAndHostname b).1 := by
  intro a ha
  rcases List.mem_append.mp ha with ha | ha
  · rw [resolvAndConnect] at ha
    dsimp only at ha
    split at ha
    · rw [List.mem_singleton.mp ha]
    · split at ha
      · obtain ⟨d, -, rfl⟩ := List.mem_map.mp ha
        rfl
      · cases ha
  · obtain ⟨d, -, rfl⟩ := List.mem_map.mp ha
    rfl

end ConnectContext

/-- **Where a transaction connects to.**  All connections have the same port, and those to addresses
    that have been found lead to the same kind of address, if and only if the ports and the kinds
    agree. -/
theorem destination_right_iff (b : ConnectBuild) (pb : ConnectContext) (around : Surroundings) :
    pb.SameDestination b around ↔
      pb.PortsAgree b around ∧ ConnectContext.KindsAgree b around := by
  rw [← ConnectContext.ports_iff, ← ConnectContext.kinds_iff pb]
  constructor
  · intro h
    exact ⟨h.behind, h.kind⟩
  · rintro ⟨hbehind, hkind⟩
    exact ⟨ConnectContext.attempts_port, hbehind, hkind⟩

/-- Everything is built in. -/
def fullBuild : ConnectBuild where
  useIpv6 := true
  useMultipleAddresses := true
  maxIpv4Addresses := 2
  maxIpv6Addresses := 2
  useSsl := true
  originSettable := true
  proxyApi := true

/-- A context with a port, and without a proxy or stored addresses. -/
def contextWithPort (port : UInt16) : ConnectContext where
  origin := none
  port := port
  useSSL := true
  trySSL := true
  proxyType := .none
  proxyHostname := []
  proxyPort := 0
  proxyTunnelEstablished := false
  proxyIpv4Address := Vector.replicate 4 0
  proxyIpv6Address := Vector.replicate 16 0
  spare := ⟨0, [], 0, [], 0⟩
  tls := fun h => h

/-- One address of each family has been found, and connections are made at once. -/
def bothFound : Surroundings where
  ipv6Supported := true
  now := 0
  net := fun _ => .success
  found := ⟨[Vector.replicate 4 1], [Vector.replicate 16 1], 60,
    List.forall_mem_singleton.mpr (by decide), by decide⟩
  results := [.ipv6 (Vector.replicate 16 1), .ipv4 (Vector.replicate 4 1)]
  ipv4 := by decide
  ipv6 := by decide

/-- The port that is configured is not the one after the answer, and without callbacks the IPv6
    connection is followed by an IPv4 one. -/
theorem destination_not_always_right :
    ¬ (contextWithPort 8080).SameDestination fullBuild bothFound ∧
      ((contextWithPort 8080).preparePortAndHostname fullBuild).1 = 8080 ∧
      ((contextWithPort 8080).checkResolvAndConnect fullBuild bothFound).attempts.map Prod.snd =
        [443] ∧
      (contextWithPort 8080).resolvAndConnectBlocking fullBuild bothFound =
        ([(.ipv6 (Vector.replicate 16 1), 8080), (.ipv4 (Vector.replicate 4 1), 8080)],
          some (.ipv4 (Vector.replicate 4 1))) := by
  refine ⟨fun h => ?_, by decide, by decide, by decide⟩
  have hport := h.behind (by decide) _ List.mem_cons_self
  exact absurd hport (by decide)

end PubNub
