import PubNubCore.Dns.Client

/-!
# The order in which DNS servers are asked

What `getDnsIp_source` says of one call, over whole runs: `dns_server_check` and `dns_mask`
together remember which servers have failed since the last rotation began, as long as the
family that the host prefers does not change in between (`Remembers`).

* **`servers_asked_in_order`** — in every state of every run, the next server is the first
  configured one of the preferred family, then of IPv4 where IPv6 is preferred, that has not
  failed in this rotation, and the system's or the default server when there is none; and the
  family of the address is the one of the bytes written.  The two situations in which the
  address of a failed server is left in the result are excluded (`DnsServers.ipv6LeftOver`,
  `DnsServers.ipv4LeftOver`).
* `servers_not_always_asked_in_order` — a host that prefers IPv4 comes back to a server that has
  failed while a configured IPv6 server was never asked.
-/

namespace PubNub

variable {b : DnsBuild} {family : AddressFamily}

/-- The condition on a step: the host's preferred family is this one. -/
def PrefersFamily (family : AddressFamily) : DnsClient → DnsStep → Prop
  | _, .resolve family' _ _ _ => family' = family
  | _, _ => True

/-- `PrefersFamily` as a test. -/
def prefersFamily (family : AddressFamily) : DnsClient → DnsStep → Bool
  | _, .resolve family' _ _ _ => family' == family
  | _, _ => true

lemma prefersFamily_iff {c : DnsClient} {a : DnsStep} (h : prefersFamily family c a = true) :
    PrefersFamily family c a := by
  cases a <;> simp_all [prefersFamily, PrefersFamily]

/-! ## Bits -/

/-- The bits of different entries are different. -/
lemma dnsBit_and_dnsBit {s t : DnsServer} (hs : s ∈ family.searchOrder ∨ s = .systemOrDefault)
    (ht : t ∈ family.searchOrder) : dnsBit family s &&& dnsBit family t ≠ 0 ↔ t = s := by
  cases family <;> cases s <;> cases t <;>
    simp_all [AddressFamily.searchOrder, dnsBit] <;> decide

/-- The bits of a mask that is set in addition. -/
lemma marked_or {check mask : UInt8} {t : DnsServer} :
    Marked family (check ||| mask) t ↔
      Marked family check t ∨ mask &&& dnsBit family t ≠ 0 := by
  have hor : (check ||| mask) &&& dnsBit family t =
      (check &&& dnsBit family t) ||| (mask &&& dnsBit family t) := by
    apply UInt8.toBitVec_inj.mp
    ext i hi
    simp [Bool.and_or_distrib_right]
  simp only [Marked, hor, ne_eq, UInt8.or_eq_zero_iff, not_and_or]

/-! ## What the two bytes remember -/

/-- The servers which a family searches first; only a host that prefers IPv6 has two kinds. -/
def ipv6Servers : List DnsServer := [.primaryIpv6, .secondaryIpv6]

/-- The server that was picked and the bit that `dns_mask` is on.  In the last two cases the
    bytes of the result are those of a server that had failed before. -/
inductive MaskOf (m : DnsServers) (family : AddressFamily) (failed : List DnsServer) :
    UInt8 → DnsServer → Prop
  | own (s : DnsServer) (hs : s ∈ family.searchOrder ∨ s = .systemOrDefault) :
      MaskOf m family failed (dnsBit family s) s
  | ipv6LeftOver (s : DnsServer) (hleft : m.ipv6LeftOver family failed) (hs : s ∈ failed) :
      MaskOf m family failed 4 s
  | ipv4LeftOver (s : DnsServer) (hfam : family = .inet6) (hs : s ∈ failed) :
      MaskOf m family failed 16 s

/-- What a state of a run remembers of the servers that have failed in this rotation. -/
structure Remembers (m : DnsServers) (family : AddressFamily) (c : DnsClient) : Prop where
  ipv6 : family = .inet6 → Agrees m family c.dnsServerCheck c.failed ipv6Servers
  all : ¬ m.ipv6LeftOver family c.failed →
    Agrees m family c.dnsServerCheck c.failed family.searchOrder
  mask : c.phase = .waitDnsSend ∨ c.phase = .waitDnsRcv →
    ∃ s, c.picked = some s ∧ MaskOf m family c.failed c.dnsMask s

section Steps

variable {m : DnsServers} {c : DnsClient}

lemma DnsServers.ipv6LeftOver.mono {failed failed' : List DnsServer}
    (h : m.ipv6LeftOver family failed) (hsub : ∀ s ∈ failed, s ∈ failed') :
    m.ipv6LeftOver family failed' :=
  ⟨h.1, h.2.1, fun s hs hset => hsub s (h.2.2 s hs hset)⟩

/-- Nothing is remembered of a cleared byte. -/
lemma agrees_nil (order : List DnsServer) : Agrees m family 0 [] order := by
  intro s _ _
  simp [Marked]

/-- One more failure is noted rightly when the mask is the bit of the server that failed, or
    that server was among the failed ones before and the mask is no bit of the list. -/
lemma Agrees.cons {check mask : UInt8} {failed order : List DnsServer} {s : DnsServer}
    (h : Agrees m family check failed order)
    (hmask : ∀ t ∈ order, (mask &&& dnsBit family t ≠ 0 ↔ t = s) ∨
      (mask &&& dnsBit family t = 0 ∧ s ∈ failed)) :
    Agrees m family (check ||| mask) (s :: failed) order := by
  intro t ht hset
  rw [marked_or, h t ht hset, List.mem_cons]
  rcases hmask t ht with hbit | ⟨hbit, hs⟩
  · rw [hbit, or_comm]
  · simp only [hbit, ne_eq, not_true_eq_false, or_false]
    refine ⟨.inr, fun h => h.elim (fun hts => hts ▸ hs) id⟩

/-- The masks that are left over are no bits of IPv6 servers. -/
lemma left_and_ipv6 {t : DnsServer} (ht : t ∈ ipv6Servers) :
    4 &&& dnsBit .inet6 t = 0 ∧ 16 &&& dnsBit .inet6 t = 0 := by
  simp only [ipv6Servers, List.mem_cons, List.not_mem_nil, or_false] at ht
  rcases ht with rfl | rfl <;> decide

lemma sixteen_and_dnsBit {t : DnsServer} (ht : t ∈ AddressFamily.inet6.searchOrder) :
    16 &&& dnsBit .inet6 t = 0 := by
  simp only [AddressFamily.searchOrder, List.mem_cons, List.not_mem_nil, or_false] at ht
  rcases ht with rfl | rfl | rfl | rfl <;> decide

lemma ipv6Servers_subset {t : DnsServer} (ht : t ∈ ipv6Servers) :
    t ∈ AddressFamily.inet6.searchOrder :=
  List.mem_append_left [DnsServer.primaryIpv4, .secondaryIpv4] ht

/-- A failure of the server that was asked is remembered. -/
lemma Remembers.noteError (h : Remembers m family c)
    (hphase : c.phase = .waitDnsSend ∨ c.phase = .waitDnsRcv) :
    (family = .inet6 → Agrees m family c.noteError.dnsServerCheck c.noteError.failed ipv6Servers) ∧
    (¬ m.ipv6LeftOver family c.noteError.failed →
      Agrees m family c.noteError.dnsServerCheck c.noteError.failed family.searchOrder) := by
  obtain ⟨s, hpicked, hmask⟩ := h.mask hphase
  have hfailed : c.noteError.failed = s :: c.failed := by simp [DnsClient.noteError, hpicked]
  have hcheck : c.noteError.dnsServerCheck = c.dnsServerCheck ||| c.dnsMask := rfl
  have hall : ¬ m.ipv6LeftOver family (s :: c.failed) →
      Agrees m family c.dnsServerCheck c.failed family.searchOrder := fun hnot =>
    h.all fun hleft => hnot (hleft.mono fun t ht => List.mem_cons_of_mem s ht)
  rw [hfailed, hcheck]
  generalize c.dnsMask = mask at hmask
  cases hmask with
  | own s hs =>
      refine ⟨fun hfam => (h.ipv6 hfam).cons fun t ht => .inl ?_, fun hnot =>
        (hall hnot).cons fun t ht => .inl (dnsBit_and_dnsBit hs ht)⟩
      subst hfam
      exact dnsBit_and_dnsBit hs (ipv6Servers_subset ht)
  | ipv6LeftOver s hleft hs =>
      refine ⟨fun hfam => (h.ipv6 hfam).cons fun t ht => .inr ?_, fun hnot => ?_⟩
      · subst hfam
        exact ⟨(left_and_ipv6 ht).1, hs⟩
      · exact absurd (hleft.mono fun t ht => List.mem_cons_of_mem s ht) hnot
  | ipv4LeftOver s hfam hs =>
      subst hfam
      exact ⟨fun _ => (h.ipv6 rfl).cons fun t ht => .inr ⟨(left_and_ipv6 ht).2, hs⟩, fun hnot =>
        (hall hnot).cons fun t ht => .inr ⟨sixteen_and_dnsBit ht, hs⟩⟩

/-- The next server, where the build changes servers. -/
lemma Remembers.pickServer (h : Remembers b.servers family c) (hb : b.changeDnsServers = true)
    (sys : SystemServers) :
    ∃ s, (pickServer b c family sys).picked = some s ∧
      MaskOf b.servers family c.failed (pickServer b c family sys).dnsMask s := by
  have hpick := getDnsIp_pick b.servers sys family c.dnsServerCheck
  simp only [PubNub.pickServer, hb, if_true]
  generalize getDnsIp b.servers sys family c.dnsServerCheck = pick at hpick ⊢
  cases hpick with
  | taken s before after addr horder hbefore hset hok hfrom =>
      exact ⟨s, hfrom.1, .own s (.inl (by simp [horder]))⟩
  | last addr hall hfrom => exact ⟨_, hfrom.1, .own _ (.inr rfl)⟩
  | ipv6LeftOver s addr hfam hs hset hall hfrom =>
      have hfailed : ∀ t ∈ ipv6Servers, b.servers.isSet t = true → t ∈ c.failed := by
        intro t ht hset'
        exact (h.ipv6 hfam t ht hset').mp (hall t (by simpa [ipv6Servers] using ht) hset')
      have hs' : s ∈ ipv6Servers := by simpa [ipv6Servers] using hs
      exact ⟨s, hfrom.1, .ipv6LeftOver s ⟨hfam, ⟨s, hs', hset⟩, hfailed⟩ (hfailed s hs' hset)⟩
  | ipv4LeftOver s addr hfam hs hset hnone hall hsys hfrom =>
      have hnot : ¬ b.servers.ipv6LeftOver family c.failed := by
        rintro ⟨-, ⟨t, ht, hset'⟩, -⟩
        simp only [List.mem_cons, List.not_mem_nil, or_false] at ht
        rcases ht with rfl | rfl <;> simp_all
      have hs' : s ∈ family.searchOrder := by
        subst hfam
        rcases hs with rfl | rfl <;> simp [AddressFamily.searchOrder]
      exact ⟨s, hfrom.1, .ipv4LeftOver s hfam
        ((h.all hnot s hs' hset).mp (hall s hs' hset))⟩

/-- A state that looks at the two bytes no differently, with no server asked at the moment. -/
lemma Remembers.of_idle {c' : DnsClient} (h6 : family = .inet6 →
      Agrees m family c'.dnsServerCheck c'.failed ipv6Servers)
    (hall : ¬ m.ipv6LeftOver family c'.failed →
      Agrees m family c'.dnsServerCheck c'.failed family.searchOrder)
    (hphase : c'.phase ≠ .waitDnsSend ∧ c'.phase ≠ .waitDnsRcv) : Remembers m family c' where
  ipv6 := h6
  all := hall
  mask := fun h => absurd h (not_or.mpr hphase)

/-- The timeout of a query: either the failure is noted, or a new rotation begins. -/
lemma Remembers.stopOnTimeout (h : Remembers m family c) (hb : b.changeDnsServers = true)
    (hphase : c.phase = .waitDnsSend ∨ c.phase = .waitDnsRcv) :
    Remembers m family (stopOnTimeout b c) := by
  have hnote := h.noteError hphase
  obtain ⟨c', hc', hstop⟩ := stopOnTimeout_of_change (c := c) hb
  have hkept : (family = .inet6 → Agrees m family c'.dnsServerCheck c'.failed ipv6Servers) ∧
      (¬ m.ipv6LeftOver family c'.failed →
        Agrees m family c'.dnsServerCheck c'.failed family.searchOrder) := by
    rcases hc' with ⟨rfl, -⟩ | ⟨rfl, -⟩
    · exact ⟨fun _ => agrees_nil _, fun _ => agrees_nil _⟩
    · exact hnote
  rcases hstop with ⟨-, heq⟩ | ⟨-, heq⟩ <;> rw [heq]
  · exact .of_idle hkept.1 hkept.2 (by simp [DnsClient.transOutcome])
  · exact .of_idle hkept.1 hkept.2 (by simp [DnsClient.retry])

/-- An error of the server. -/
lemma Remembers.dnsServerError (hb : b.changeDnsServers = true)
    (hnote : (family = .inet6 →
        Agrees m family c.noteError.dnsServerCheck c.noteError.failed ipv6Servers) ∧
      (¬ m.ipv6LeftOver family c.noteError.failed →
        Agrees m family c.noteError.dnsServerCheck c.noteError.failed family.searchOrder)) :
    Remembers m family (dnsServerError b c) := by
  rcases dnsServerError_of_change (c := c) hb with ⟨-, heq⟩ | ⟨-, heq⟩ <;> rw [heq]
  · exact .of_idle hnote.1 hnote.2 (by simp [DnsClient.retry])
  · exact .of_idle hnote.1 hnote.2 (by simp [DnsClient.transOutcome])

/-- Ending a transaction leaves the two bytes alone. -/
lemma Remembers.transOutcome (h : Remembers m family c) (res : PubnubRes) (ending : DnsEnding) :
    Remembers m family (c.transOutcome res ending) :=
  .of_idle h.ipv6 h.all (by simp [DnsClient.transOutcome])

/-- A server has been picked, and the context waits for the socket or the answer. -/
lemma Remembers.wait (h : Remembers m family c) {s : DnsServer} {c' : DnsClient}
    (hpicked : c'.picked = some s) (hmask : MaskOf m family c.failed c'.dnsMask s)
    (hcheck : c'.dnsServerCheck = c.dnsServerCheck) (hfailed : c'.failed = c.failed) :
    Remembers m family c' where
  ipv6 := by rw [hcheck, hfailed]; exact h.ipv6
  all := by rw [hcheck, hfailed]; exact h.all
  mask := fun _ => ⟨s, hpicked, by rw [hfailed]; exact hmask⟩

/-- `PBS_READY`. -/
lemma Remembers.readyState (h : Remembers b.servers family c) (hb : b.changeDnsServers = true)
    (sys : SystemServers) (o : DnsSend) (gotSocket : Bool) :
    Remembers b.servers family (readyState b c family sys o gotSocket) := by
  obtain ⟨s, hpicked, hmask⟩ := h.pickServer hb sys
  have hwait : ∀ c' : DnsClient, c'.picked = (PubNub.pickServer b c family sys).picked →
      c'.dnsMask = (PubNub.pickServer b c family sys).dnsMask →
      c'.dnsServerCheck = c.dnsServerCheck → c'.failed = c.failed →
      Remembers b.servers family c' := fun c' h1 h2 h3 h4 =>
    h.wait (h1.trans hpicked) (h2 ▸ hmask) h3 h4
  cases o with
  | noSocket => exact (hwait (PubNub.pickServer b c family sys) rfl rfl rfl rfl).transOutcome _ _
  | failed =>
      have hsend : Remembers b.servers family
          { PubNub.pickServer b c family sys with phase := .waitDnsSend } :=
        hwait _ rfl rfl rfl rfl
      exact .dnsServerError hb (hsend.noteError (.inl rfl))
  | wouldblock =>
      simp only [PubNub.readyState]
      split_ifs
      · exact hwait _ rfl rfl rfl rfl
      · exact (hwait (PubNub.pickServer b c family sys) rfl rfl rfl rfl).transOutcome _ _
  | sent =>
      simp only [PubNub.readyState]
      split_ifs
      · exact hwait _ rfl rfl rfl rfl
      · exact (hwait (PubNub.pickServer b c family sys).sentOne rfl rfl rfl rfl).transOutcome _ _

/-- **One step keeps what is remembered**, on a host that keeps preferring its family. -/
lemma Remembers.step {a : DnsStep} {c' : DnsClient} (h : Remembers b.servers family c)
    (hb : b.changeDnsServers = true) (hguard : PrefersFamily family c a)
    (hstep : dnsStep b c a = some c') : Remembers b.servers family c' := by
  cases a with
  | start =>
      simp only [dnsStep, Option.ite_none_right_eq_some, Option.some.injEq] at hstep
      obtain ⟨-, rfl⟩ := hstep
      exact .of_idle (fun _ => agrees_nil _) (fun _ => agrees_nil _)
        (by simp [DnsClient.newTransaction])
  | startKeptAlive =>
      simp only [dnsStep, Option.ite_none_right_eq_some, Option.some.injEq] at hstep
      obtain ⟨-, rfl⟩ := hstep
      exact .of_idle h.ipv6 h.all (by simp [DnsClient.newTransaction])
  | resolve family' sys o gotSocket =>
      obtain rfl : family' = family := hguard
      simp only [dnsStep, Option.ite_none_right_eq_some, Option.some.injEq] at hstep
      obtain ⟨-, rfl⟩ := hstep
      exact h.readyState hb sys o gotSocket
  | resend o =>
      simp only [dnsStep, Option.ite_none_right_eq_some] at hstep
      obtain ⟨hphase, hstep⟩ := hstep
      obtain ⟨s, hpicked, hmask⟩ := h.mask (.inl hphase)
      cases o with
      | noSocket => simp [waitDnsSendState] at hstep
      | failed =>
          obtain rfl := Option.some.inj hstep
          exact .dnsServerError hb (h.noteError (.inl hphase))
      | wouldblock =>
          obtain rfl := Option.some.inj hstep
          exact h
      | sent =>
          obtain rfl := Option.some.inj hstep
          have hwait : Remembers b.servers family { c.sentOne with phase := .waitDnsRcv } :=
            h.wait hpicked hmask rfl rfl
          exact hwait
  | receive o =>
      simp only [dnsStep, Option.ite_none_right_eq_some, Option.some.injEq] at hstep
      obtain ⟨hphase, rfl⟩ := hstep
      cases o with
      | failed => exact .dnsServerError hb (h.noteError (.inr hphase))
      | wouldblock => exact h
      | answered => exact .of_idle h.ipv6 h.all (by simp [waitDnsRcvState])
  | timeout =>
      simp only [dnsStep, Option.ite_none_right_eq_some, Option.some.injEq] at hstep
      obtain ⟨hphase, rfl⟩ := hstep
      exact h.stopOnTimeout hb hphase
  | cancel =>
      simp only [dnsStep, Option.ite_none_left_eq_some, Option.some.injEq] at hstep
      obtain ⟨-, rfl⟩ := hstep
      exact h.transOutcome _ _
  | resolveAgain =>
      simp only [dnsStep, Option.ite_none_right_eq_some, Option.some.injEq] at hstep
      obtain ⟨-, rfl⟩ := hstep
      exact .of_idle h.ipv6 h.all (by simp)
  | finish res =>
      simp only [dnsStep, Option.ite_none_right_eq_some, Option.some.injEq] at hstep
      obtain ⟨-, rfl⟩ := hstep
      exact h.transOutcome _ _

end Steps

/-! ## Runs -/

/-- **Servers are asked in order.**  On a host that keeps preferring one family, whatever
    happens to the queries and however many transactions come and go: the address of the next
    server stands under its own family, and it is the first configured server of the family's
    list that has not failed in this rotation, else the system's or the default one. -/
theorem servers_asked_in_order {r : BitVec 3} {c : DnsClient} (hb : b.changeDnsServers = true)
    (hr : (dnsClient b r).Reachable (PrefersFamily family) c) (sys : SystemServers) :
    (∃ s, (getDnsIp b.servers sys family c.dnsServerCheck).2.From b.servers sys s) ∧
      (¬ b.servers.ipv6LeftOver family c.failed → ¬ b.servers.ipv4LeftOver sys family c.failed →
        (getDnsIp b.servers sys family c.dnsServerCheck).2.source =
          some (b.servers.firstLeft family.searchOrder c.failed)) := by
  have hinv : Remembers b.servers family c := by
    refine hr.invariant ?_ fun c a c' hc hguard hstep => hc.step hb hguard hstep
    exact .of_idle (fun _ => agrees_nil _) (fun _ => agrees_nil _) (by simp [dnsClient])
  exact ⟨getDnsIp_readable family, fun h6 h4 => getDnsIp_source (hinv.all h6) h6 h4⟩

/-- The name servers of a system that has none. -/
def noSystemServers : SystemServers := ⟨.failed none, none⟩

/-- The default build with IPv6, where the user has set a primary IPv6 server. -/
def ipv6ConfiguredBuild : DnsBuild where
  useIpv6 := true
  changeDnsServers := true
  maxDnsQueries := 3
  maxDnsRotation := 5
  maxDnsQueries_lt := by decide
  maxDnsRotation_lt := by decide
  servers := { primaryIpv6 := defaultIpv6DnsServer }

/-- A query to the default server that gets no answer. -/
def timedOutQuery (family : AddressFamily) : List DnsStep :=
  [.start, .resolve family noSystemServers .sent true, .timeout]

theorem servers_asked_in_order_timeout :
    ∃ c, (dnsClient { ipv6ConfiguredBuild with servers := { secondaryIpv4 := #v[9, 9, 9, 9] } }
        0).Reachable (PrefersFamily .inet6) c ∧ c.failed = [.secondaryIpv4] ∧
      (getDnsIp { secondaryIpv4 := #v[9, 9, 9, 9] } ⟨.found #v[9, 9, 9, 10], none⟩ .inet6
        c.dnsServerCheck).2.source = some .systemOrDefault := by
  obtain ⟨c, hr, hc⟩ := (dnsClient { ipv6ConfiguredBuild with
      servers := { secondaryIpv4 := #v[9, 9, 9, 9] } } 0).exists_reachable_of_replay
    (prefersFamily .inet6) (timedOutQuery .inet6) (fun c => c.failed == [.secondaryIpv4])
    (fun _ _ => prefersFamily_iff) (by decide +kernel)
  have hfailed : c.failed = [.secondaryIpv4] := by simpa using hc
  refine ⟨c, hr, hfailed, ?_⟩
  rw [(servers_asked_in_order rfl hr ⟨.found #v[9, 9, 9, 10], none⟩).2 ?_ ?_, hfailed]
  · decide +kernel
  · rintro ⟨-, ⟨t, ht, hset⟩, -⟩
    simp only [List.mem_cons, List.not_mem_nil, or_false] at ht
    rcases ht with rfl | rfl <;> exact absurd hset (by decide +kernel)
  · rintro ⟨-, hsys, -⟩
    cases hsys

/-- A host that prefers IPv4 asks the default server again although the IPv6 server that the
    user has set was never asked. -/
theorem servers_not_always_asked_in_order :
    ¬ ∀ (b : DnsBuild) (family : AddressFamily) (c : DnsClient) (sys : SystemServers)
      (s t : DnsServer), b.changeDnsServers = true →
      (dnsClient b 0).Reachable (PrefersFamily family) c →
      (getDnsIp b.servers sys family c.dnsServerCheck).2.source = some s → s ∈ c.failed →
      b.servers.isSet t = true → t ∈ c.failed := by
  intro h
  obtain ⟨c, hr, hc⟩ := (dnsClient ipv6ConfiguredBuild 0).exists_reachable_of_replay
    (prefersFamily .inet) (timedOutQuery .inet)
    (fun c => c.dnsServerCheck == 4 && c.failed == [.systemOrDefault])
    (fun _ _ => prefersFamily_iff) (by decide +kernel)
  simp only [Bool.and_eq_true, beq_iff_eq] at hc
  have hmem := h ipv6ConfiguredBuild .inet c noSystemServers .systemOrDefault .primaryIpv6 rfl hr
    (by rw [hc.1]; rfl) (by simp [hc.2]) (by decide +kernel)
  simp [hc.2] at hmem

end PubNub
