import Mathlib.Data.List.Basic
import Mathlib.Tactic.IntervalCases

/-!
# Which DNS server is asked next

`get_dns_ip` of `lib/sockets/pbpal_resolv_and_connect_sockets.c` and the getters of
`core/pubnub_dns_servers.c`.  The function looks for a server in a fixed order and steers the
search with one byte: a bit of `dns_server_check` is set for a server that has failed, and
`dns_mask` is shifted along the list so that it ends on the bit of the server that was taken.

* `getDnsIp` — the function, for both routing families.  A memory cell of the result keeps,
  beside its bytes, which server entry it was last filled from; nothing reads that note.
* `DnsServers.firstLeft` — what the order is for: the first configured server that is not among
  the failed ones, else the system's or the default one.
* **`getDnsIp_source`** — the two agree, with two exceptions.  A getter writes into the result
  before the failure bit of that server is looked at, and nothing wipes what it wrote.  So when
  every configured IPv6 server has failed, the bytes of the last one are still there, they count
  as a server in use, and the IPv4 list is never reached (`DnsServers.ipv6LeftOver`).  In the
  same way the bytes of a failed IPv4 server stand in the way of the IPv6 default when the
  system names no server (`DnsServers.ipv4LeftOver`).
* **`getDnsIp_readable`** — the family of the result always is the one of the bytes written.
-/

namespace PubNub

/-- `struct pubnub_ipv4_address`. -/
abbrev Ipv4Address := Vector UInt8 4

/-- `struct pubnub_ipv6_address`. -/
abbrev Ipv6Address := Vector UInt8 16

/-- `sa_family`. -/
inductive AddressFamily
  | inet | inet6
  deriving DecidableEq, Repr

/-- The entries among which `get_dns_ip` chooses. -/
inductive DnsServer
  | primaryIpv6 | secondaryIpv6 | primaryIpv4 | secondaryIpv4 | systemOrDefault
  deriving DecidableEq, Repr

/-- The static variables of `pubnub_dns_servers.c`; all zero is a server that is not set. -/
structure DnsServers where
  primaryIpv4 : Ipv4Address := Vector.replicate 4 0
  secondaryIpv4 : Ipv4Address := Vector.replicate 4 0
  primaryIpv6 : Ipv6Address := Vector.replicate 16 0
  secondaryIpv6 : Ipv6Address := Vector.replicate 16 0

/-- `pubnub_dns_read_system_servers_ipv4` for one server.  A call that fails may still have
    changed the bytes it was given: a malformed address is parsed octet by octet. -/
inductive SystemRead
  | found (ipv4 : Ipv4Address)
  | failed (left : Option Ipv4Address)

/-- What the system's list of name servers gives at one call of `get_dns_ip`. -/
structure SystemServers where
  ipv4 : SystemRead
  ipv6 : Option Ipv6Address

/-! ## The getters -/

lemma zero_lt_four : 0 < 4 := by decide

lemma zero_lt_sixteen : 0 < 16 := by decide

lemma one_lt_sixteen : 1 < 16 := by decide

/-- `pubnub_get_dns_*_server_ipv4`: `none` is the return value -1. -/
def getDnsServerIpv4 (ipv4 : Ipv4Address) : Option Ipv4Address :=
  if getElem ipv4 0 zero_lt_four = 0 then none else some ipv4

/-- `pubnub_get_dns_*_server_ipv6`. -/
def getDnsServerIpv6 (ipv6 : Ipv6Address) : Option Ipv6Address :=
  if ipv6 = Vector.replicate 16 0 then none else some ipv6

/-- `pubnub_get_dns_primary_server_ipv4`. -/
def getDnsPrimaryServerIpv4 (m : DnsServers) : Option Ipv4Address :=
  getDnsServerIpv4 m.primaryIpv4

/-- `pubnub_get_dns_secondary_server_ipv4`. -/
def getDnsSecondaryServerIpv4 (m : DnsServers) : Option Ipv4Address :=
  getDnsServerIpv4 m.secondaryIpv4

/-- `pubnub_get_dns_primary_server_ipv6`. -/
def getDnsPrimaryServerIpv6 (m : DnsServers) : Option Ipv6Address :=
  getDnsServerIpv6 m.primaryIpv6

/-- `pubnub_get_dns_secondary_server_ipv6`. -/
def getDnsSecondaryServerIpv6 (m : DnsServers) : Option Ipv6Address :=
  getDnsServerIpv6 m.secondaryIpv6

/-- Whether the user has configured this entry. -/
def DnsServers.isSet (m : DnsServers) : DnsServer → Bool
  | .primaryIpv6 => (getDnsPrimaryServerIpv6 m).isSome
  | .secondaryIpv6 => (getDnsSecondaryServerIpv6 m).isSome
  | .primaryIpv4 => (getDnsPrimaryServerIpv4 m).isSome
  | .secondaryIpv4 => (getDnsSecondaryServerIpv4 m).isSome
  | .systemOrDefault => false

lemma getDnsServerIpv4_ne_zero {ipv4 a : Ipv4Address} (h : getDnsServerIpv4 ipv4 = some a) :
    a ≠ Vector.replicate 4 0 := by
  unfold getDnsServerIpv4 at h
  split_ifs at h with hz
  cases h
  intro ha
  exact hz (by rw [ha]; rfl)

lemma getDnsServerIpv6_ne_zero {ipv6 a : Ipv6Address} (h : getDnsServerIpv6 ipv6 = some a) :
    a ≠ Vector.replicate 16 0 := by
  unfold getDnsServerIpv6 at h
  split_ifs at h with hz
  cases h
  exact hz

lemma eq_of_getDnsServerIpv4 {ipv4 a : Ipv4Address} (h : getDnsServerIpv4 ipv4 = some a) :
    a = ipv4 := by
  unfold getDnsServerIpv4 at h
  split_ifs at h
  cases h
  rfl

lemma eq_of_getDnsServerIpv6 {ipv6 a : Ipv6Address} (h : getDnsServerIpv6 ipv6 = some a) :
    a = ipv6 := by
  unfold getDnsServerIpv6 at h
  split_ifs at h
  cases h
  rfl

/-! ## The address that is filled in -/

/-- The address bytes of one family within `struct sockaddr_storage`, with a note of the entry
    they were last written from. -/
structure Written (n : Nat) where
  bytes : Vector UInt8 n
  source : Option DnsServer

/-- A cell of a zeroed structure. -/
def Written.zero (n : Nat) : Written n := ⟨Vector.replicate n 0, none⟩

/-- `struct sockaddr_storage`: `sin_addr` and `sin6_addr` lie at different places of it. -/
structure Sockaddr where
  saFamily : AddressFamily
  sinAddr : Written 4
  sin6Addr : Written 16

/-- The entry from which the bytes came that a reader of this family finds. -/
def Sockaddr.source (addr : Sockaddr) : Option DnsServer :=
  match addr.saFamily with
  | .inet => addr.sinAddr.source
  | .inet6 => addr.sin6Addr.source

/-- `PUBNUB_DEFAULT_IPV4_DNS_SERVER`. -/
def defaultIpv4DnsServer : Ipv4Address := #v[8, 8, 8, 8]

/-- `PUBNUB_DEFAULT_IPV6_DNS_SERVER`. -/
def defaultIpv6DnsServer : Ipv6Address :=
  #v[0x20, 0x01, 0x48, 0x60, 0x48, 0x60, 0, 0, 0, 0, 0, 0, 0, 0, 0x88, 0x88]

/-- `get_default_ipv4_dns_ip`. -/
def getDefaultIpv4DnsIp (sys : SystemServers) : Written 4 :=
  match sys.ipv4 with
  | .found a => ⟨a, some .systemOrDefault⟩
  | .failed _ => ⟨defaultIpv4DnsServer, some .systemOrDefault⟩

/-- `get_default_ipv6_dns_ip`. -/
def getDefaultIpv6DnsIp (sys : SystemServers) : Written 16 :=
  ⟨sys.ipv6.getD defaultIpv6DnsServer, some .systemOrDefault⟩

/-- The call of `pubnub_dns_read_system_servers_ipv4` on an address that is already there. -/
def SystemRead.over4 (r : SystemRead) (p : Written 4) : Written 4 :=
  match r with
  | .found a => ⟨a, some .systemOrDefault⟩
  | .failed (some a) => ⟨a, some .systemOrDefault⟩
  | .failed none => p

/-- `is_ipv4_mapped_ipv6`, the family apart. -/
def isIpv4MappedIpv6 (a : Ipv6Address) : Bool :=
  a.toList.take 12 == [0, 0, 0, 0, 0, 0, 0, 0, 0, 0, 0xff, 0xff]

/-- `remap_ipv6_to_ipv4`. -/
def remapIpv6ToIpv4 (addr : Sockaddr) : Sockaddr :=
  { saFamily := .inet
    sinAddr := ⟨#v[addr.sin6Addr.bytes[12], addr.sin6Addr.bytes[13], addr.sin6Addr.bytes[14],
      addr.sin6Addr.bytes[15]], addr.sin6Addr.source⟩
    sin6Addr := Written.zero 16 }

/-! ## `get_dns_ip` -/

section TryServers

variable {n : Nat}

/-- One test of the search, `(getter(pb, p) == -1) || (dns_server_check & dns_mask)`: whether
    it is false, and the bytes afterwards.  The getter comes first, so a server that is set
    writes its address whether or not it has failed. -/
def tryServer (server : Option (Vector UInt8 n)) (who : DnsServer) (dnsServerCheck dnsMask : UInt8)
    (p : Written n) : Bool × Written n :=
  match server with
  | none => (false, p)
  | some a => (dnsServerCheck &&& dnsMask == 0, ⟨a, some who⟩)

/-- The two nested tests for a primary and a secondary server: whether one of them was taken,
    the mask it ended on, and the bytes. -/
def tryServers (primary secondary : Option (Vector UInt8 n)) (who1 who2 : DnsServer)
    (dnsServerCheck dnsMask : UInt8) (p : Written n) : Bool × UInt8 × Written n :=
  let first := tryServer primary who1 dnsServerCheck dnsMask p
  if first.1 then (true, dnsMask, first.2)
  else
    let second := tryServer secondary who2 dnsServerCheck (dnsMask <<< 1) first.2
    if second.1 then (true, dnsMask <<< 1, second.2)
    else (false, dnsMask <<< 1 <<< 1, second.2)

/-- A server of the pair is taken: the first that is set and has not failed. -/
inductive PairResult (primary secondary : Option (Vector UInt8 n)) (who1 who2 : DnsServer)
    (dnsServerCheck dnsMask : UInt8) (p : Written n) : Bool × UInt8 × Written n → Prop
  | first (a : Vector UInt8 n) (hset : primary = some a) (hok : dnsServerCheck &&& dnsMask = 0) :
      PairResult primary secondary who1 who2 dnsServerCheck dnsMask p
        (true, dnsMask, ⟨a, some who1⟩)
  | second (a : Vector UInt8 n) (hfirst : primary = none ∨ dnsServerCheck &&& dnsMask ≠ 0)
      (hset : secondary = some a) (hok : dnsServerCheck &&& (dnsMask <<< 1) = 0) :
      PairResult primary secondary who1 who2 dnsServerCheck dnsMask p
        (true, dnsMask <<< 1, ⟨a, some who2⟩)
  | neitherSet (hfirst : primary = none) (hsecond : secondary = none) :
      PairResult primary secondary who1 who2 dnsServerCheck dnsMask p
        (false, dnsMask <<< 1 <<< 1, p)
  | allFailed (a : Vector UInt8 n) (who : DnsServer)
      (hlast : (secondary = some a ∧ who = who2) ∨
        (secondary = none ∧ primary = some a ∧ who = who1))
      (hfirst : primary = none ∨ dnsServerCheck &&& dnsMask ≠ 0)
      (hsecond : secondary = none ∨ dnsServerCheck &&& (dnsMask <<< 1) ≠ 0) :
      PairResult primary secondary who1 who2 dnsServerCheck dnsMask p
        (false, dnsMask <<< 1 <<< 1, ⟨a, some who⟩)

/-- Everything the two nested tests can do. -/
lemma tryServers_spec (primary secondary : Option (Vector UInt8 n)) (who1 who2 : DnsServer)
    (dnsServerCheck dnsMask : UInt8) (p : Written n) :
    PairResult primary secondary who1 who2 dnsServerCheck dnsMask p
      (tryServers primary secondary who1 who2 dnsServerCheck dnsMask p) := by
  unfold tryServers
  cases primary with
  | none =>
      cases secondary with
      | none => simpa [tryServer] using PairResult.neitherSet rfl rfl
      | some b =>
          by_cases h2 : dnsServerCheck &&& (dnsMask <<< 1) = 0
          · simpa [tryServer, h2] using PairResult.second b (.inl rfl) rfl h2
          · simpa [tryServer, h2] using
              PairResult.allFailed b who2 (.inl ⟨rfl, rfl⟩) (.inl rfl) (.inr h2)
  | some a =>
      by_cases h1 : dnsServerCheck &&& dnsMask = 0
      · simpa [tryServer, h1] using PairResult.first a rfl h1
      · cases secondary with
        | none =>
            simpa [tryServer, h1] using
              PairResult.allFailed a who1 (.inr ⟨rfl, rfl, rfl⟩) (.inr h1) (.inl rfl)
        | some b =>
            by_cases h2 : dnsServerCheck &&& (dnsMask <<< 1) = 0
            · simpa [tryServer, h1, h2] using PairResult.second b (.inr h1) rfl h2
            · simpa [tryServer, h1, h2] using
                PairResult.allFailed b who2 (.inl ⟨rfl, rfl⟩) (.inr h1) (.inr h2)

end TryServers

/-- The IPv4 half of `get_dns_ip` for the family IPv6: the user's IPv4 servers, then the
    system's, and the default IPv6 server where that leaves no address. -/
def getDnsIpFromIpv4 (m : DnsServers) (sys : SystemServers) (dnsServerCheck dnsMask : UInt8)
    (sin6Addr : Written 16) : UInt8 × Sockaddr :=
  let pair := tryServers (getDnsPrimaryServerIpv4 m) (getDnsSecondaryServerIpv4 m)
    .primaryIpv4 .secondaryIpv4 dnsServerCheck dnsMask (Written.zero 4)
  let p := if pair.1 then pair.2.2 else sys.ipv4.over4 pair.2.2
  if p.bytes = Vector.replicate 4 0 then
    let addr : Sockaddr := ⟨.inet6, p, getDefaultIpv6DnsIp sys⟩
    (pair.2.1, if isIpv4MappedIpv6 addr.sin6Addr.bytes then remapIpv6ToIpv4 addr else addr)
  else (pair.2.1, ⟨.inet, p, sin6Addr⟩)

/-- `get_dns_ip`: the mask it ends on and the address. -/
def getDnsIp (m : DnsServers) (sys : SystemServers) (family : AddressFamily)
    (dnsServerCheck : UInt8) : UInt8 × Sockaddr :=
  match family with
  | .inet6 =>
      let pair := tryServers (getDnsPrimaryServerIpv6 m) (getDnsSecondaryServerIpv6 m)
        .primaryIpv6 .secondaryIpv6 dnsServerCheck 1 (Written.zero 16)
      if pair.2.2.bytes ≠ Vector.replicate 16 0 then
        (pair.2.1, ⟨.inet6, Written.zero 4, pair.2.2⟩)
      else getDnsIpFromIpv4 m sys dnsServerCheck pair.2.1 pair.2.2
  | .inet =>
      let pair := tryServers (getDnsPrimaryServerIpv4 m) (getDnsSecondaryServerIpv4 m)
        .primaryIpv4 .secondaryIpv4 dnsServerCheck 1 (Written.zero 4)
      (pair.2.1, ⟨.inet, if pair.1 then pair.2.2 else getDefaultIpv4DnsIp sys, Written.zero 16⟩)

/-! ## The order of the search -/

/-- The configured entries at which `get_dns_ip` looks for a family, in its order.  A host
    whose preferred family is IPv4 has no use for an IPv6 server. -/
def AddressFamily.searchOrder : AddressFamily → List DnsServer
  | .inet => [.primaryIpv4, .secondaryIpv4]
  | .inet6 => [.primaryIpv6, .secondaryIpv6, .primaryIpv4, .secondaryIpv4]

/-- The bit of `dns_server_check` that stands for an entry. -/
def dnsBit : AddressFamily → DnsServer → UInt8
  | .inet, .primaryIpv4 => 1
  | .inet, .secondaryIpv4 => 2
  | .inet, .systemOrDefault => 4
  | .inet, _ => 0
  | .inet6, .primaryIpv6 => 1
  | .inet6, .secondaryIpv6 => 2
  | .inet6, .primaryIpv4 => 4
  | .inet6, .secondaryIpv4 => 8
  | .inet6, .systemOrDefault => 16

/-- What the search is for: the first configured server of the list that has not failed, else
    the system's or the default one. -/
def DnsServers.firstLeft (m : DnsServers) (order failed : List DnsServer) : DnsServer :=
  (order.find? fun s => m.isSet s && !failed.contains s).getD .systemOrDefault

/-- The address is the one of this entry, under the family its reader goes by. -/
def Sockaddr.IsOf (addr : Sockaddr) (m : DnsServers) (sys : SystemServers) : DnsServer → Prop
  | .primaryIpv6 => addr.saFamily = .inet6 ∧ addr.sin6Addr.bytes = m.primaryIpv6
  | .secondaryIpv6 => addr.saFamily = .inet6 ∧ addr.sin6Addr.bytes = m.secondaryIpv6
  | .primaryIpv4 => addr.saFamily = .inet ∧ addr.sinAddr.bytes = m.primaryIpv4
  | .secondaryIpv4 => addr.saFamily = .inet ∧ addr.sinAddr.bytes = m.secondaryIpv4
  | .systemOrDefault =>
      (addr.saFamily = .inet ∧ (sys.ipv4 = .found addr.sinAddr.bytes ∨
        sys.ipv4 = .failed (some addr.sinAddr.bytes) ∨
        addr.sinAddr.bytes = defaultIpv4DnsServer)) ∨
      (addr.saFamily = .inet6 ∧ addr.sin6Addr.bytes = sys.ipv6.getD defaultIpv6DnsServer) ∨
      (addr.saFamily = .inet ∧ isIpv4MappedIpv6 (sys.ipv6.getD defaultIpv6DnsServer) = true ∧
        addr.sinAddr.bytes.toList = (sys.ipv6.getD defaultIpv6DnsServer).toList.drop 12)

/-- The bytes came from the entry `s` and are its address. -/
def Sockaddr.From (addr : Sockaddr) (m : DnsServers) (sys : SystemServers) (s : DnsServer) :
    Prop :=
  addr.source = some s ∧ addr.IsOf m sys s

/-- The bit of an entry is set. -/
def Marked (family : AddressFamily) (dnsServerCheck : UInt8) (s : DnsServer) : Prop :=
  dnsServerCheck &&& dnsBit family s ≠ 0

instance (family : AddressFamily) (dnsServerCheck : UInt8) (s : DnsServer) :
    Decidable (Marked family dnsServerCheck s) :=
  inferInstanceAs (Decidable (_ ≠ _))

/-- Everything a call of `get_dns_ip` can come back with. -/
inductive DnsPick (m : DnsServers) (sys : SystemServers) (family : AddressFamily)
    (dnsServerCheck : UInt8) : UInt8 × Sockaddr → Prop
  | taken (s : DnsServer) (before after : List DnsServer) (addr : Sockaddr)
      (horder : family.searchOrder = before ++ s :: after)
      (hbefore : ∀ t ∈ before, m.isSet t = true → Marked family dnsServerCheck t)
      (hset : m.isSet s = true) (hok : ¬ Marked family dnsServerCheck s)
      (hfrom : addr.From m sys s) : DnsPick m sys family dnsServerCheck (dnsBit family s, addr)
  | last (addr : Sockaddr)
      (hall : ∀ t ∈ family.searchOrder, m.isSet t = true → Marked family dnsServerCheck t)
      (hfrom : addr.From m sys .systemOrDefault) :
      DnsPick m sys family dnsServerCheck (dnsBit family .systemOrDefault, addr)
  | ipv6LeftOver (s : DnsServer) (addr : Sockaddr) (hfam : family = .inet6)
      (hs : s = .primaryIpv6 ∨ s = .secondaryIpv6) (hset : m.isSet s = true)
      (hall : ∀ t, t = .primaryIpv6 ∨ t = .secondaryIpv6 → m.isSet t = true →
        Marked family dnsServerCheck t)
      (hfrom : addr.From m sys s) : DnsPick m sys family dnsServerCheck (4, addr)
  | ipv4LeftOver (s : DnsServer) (addr : Sockaddr) (hfam : family = .inet6)
      (hs : s = .primaryIpv4 ∨ s = .secondaryIpv4) (hset : m.isSet s = true)
      (hnone : m.isSet .primaryIpv6 = false ∧ m.isSet .secondaryIpv6 = false)
      (hall : ∀ t ∈ family.searchOrder, m.isSet t = true → Marked family dnsServerCheck t)
      (hsys : sys.ipv4 = .failed none)
      (hfrom : addr.From m sys s) : DnsPick m sys family dnsServerCheck (16, addr)

section Pick

variable {m : DnsServers} {sys : SystemServers} {dnsServerCheck : UInt8}

/-- What the default leaves for the family IPv4. -/
lemma getDefaultIpv4DnsIp_from (sin6Addr : Written 16) :
    Sockaddr.From ⟨.inet, getDefaultIpv4DnsIp sys, sin6Addr⟩ m sys .systemOrDefault := by
  unfold getDefaultIpv4DnsIp
  cases hsys : sys.ipv4 with
  | found a => exact ⟨rfl, .inl ⟨rfl, .inl hsys⟩⟩
  | failed left => exact ⟨rfl, .inl ⟨rfl, .inr (.inr rfl)⟩⟩

/-- A test that was true of a server which is set has seen its bit. -/
lemma marked_of_isSet {n : Nat} {server : Option (Vector UInt8 n)} {P : Prop}
    (h : server = none ∨ P) (hset : server.isSome = true) : P := by
  rcases h with hnone | hmarked
  · simp [hnone] at hset
  · exact hmarked

lemma getDnsIp_pick_inet :
    DnsPick m sys .inet dnsServerCheck (getDnsIp m sys .inet dnsServerCheck) := by
  have h := tryServers_spec (getDnsPrimaryServerIpv4 m) (getDnsSecondaryServerIpv4 m)
    .primaryIpv4 .secondaryIpv4 dnsServerCheck 1 (Written.zero 4)
  simp only [getDnsIp]
  generalize tryServers _ _ _ _ _ _ _ = pair at h ⊢
  cases h with
  | first a hset hok =>
      exact .taken .primaryIpv4 [] [.secondaryIpv4] _ rfl (by simp)
        (by simp [DnsServers.isSet, hset]) (not_not.mpr hok)
        ⟨rfl, rfl, eq_of_getDnsServerIpv4 hset⟩
  | second a hfirst hset hok =>
      refine .taken .secondaryIpv4 [.primaryIpv4] [] _ rfl ?_ (by simp [DnsServers.isSet, hset])
        (not_not.mpr hok) ⟨rfl, rfl, eq_of_getDnsServerIpv4 hset⟩
      intro t ht hset
      obtain rfl := List.mem_singleton.mp ht
      exact marked_of_isSet hfirst hset
  | neitherSet hfirst hsecond =>
      refine .last _ ?_ (getDefaultIpv4DnsIp_from _)
      intro t ht hset
      simp only [AddressFamily.searchOrder, List.mem_cons, List.not_mem_nil, or_false] at ht
      rcases ht with rfl | rfl
      · exact marked_of_isSet (.inl hfirst) hset
      · exact marked_of_isSet (.inl hsecond) hset
  | allFailed a who hlast hfirst hsecond =>
      refine .last _ ?_ (getDefaultIpv4DnsIp_from _)
      intro t ht hset
      simp only [AddressFamily.searchOrder, List.mem_cons, List.not_mem_nil, or_false] at ht
      rcases ht with rfl | rfl
      · exact marked_of_isSet hfirst hset
      · exact marked_of_isSet hsecond hset

/-- The four bytes that `remap_ipv6_to_ipv4` copies. -/
lemma ipv4_of_mapped (a : Ipv6Address) :
    (#v[a[12], a[13], a[14], a[15]] : Ipv4Address).toList = a.toList.drop 12 := by
  apply List.ext_getElem
  · simp
  · intro i h1 h2
    have hi : i < 4 := by simpa using h1
    interval_cases i <;> simp

/-- The end of the search for the family IPv6: whatever the system's read has left, the address
    is one of the system's or a default one. -/
lemma fallback_from {p : Written 4} (sin6Addr : Written 16) (dnsMask : UInt8)
    (hp : p.bytes ≠ Vector.replicate 4 0 → p.source = some .systemOrDefault ∧
      (sys.ipv4 = .found p.bytes ∨ sys.ipv4 = .failed (some p.bytes))) :
    ∃ addr : Sockaddr, addr.From m sys .systemOrDefault ∧
      (if p.bytes = Vector.replicate 4 0 then
        (dnsMask, if isIpv4MappedIpv6 (getDefaultIpv6DnsIp sys).bytes then
          remapIpv6ToIpv4 ⟨.inet6, p, getDefaultIpv6DnsIp sys⟩
          else ⟨.inet6, p, getDefaultIpv6DnsIp sys⟩)
        else (dnsMask, ⟨.inet, p, sin6Addr⟩)) = (dnsMask, addr) := by
  by_cases hz : p.bytes = Vector.replicate 4 0
  · rw [if_pos hz]
    refine ⟨_, ?_, rfl⟩
    split_ifs with hmapped
    · refine ⟨rfl, .inr (.inr ⟨rfl, hmapped, ?_⟩)⟩
      exact ipv4_of_mapped _
    · exact ⟨rfl, .inr (.inl ⟨rfl, rfl⟩)⟩
  · rw [if_neg hz]
    obtain ⟨hsource, hsys⟩ := hp hz
    refine ⟨⟨.inet, p, sin6Addr⟩, ⟨hsource, .inl ⟨rfl, ?_⟩⟩, rfl⟩
    exact hsys.elim .inl fun h => .inr (.inl h)

/-- The search for the family IPv6 once no IPv6 server is configured. -/
lemma getDnsIpFromIpv4_pick (h1 : getDnsPrimaryServerIpv6 m = none)
    (h2 : getDnsSecondaryServerIpv6 m = none) :
    DnsPick m sys .inet6 dnsServerCheck
      (getDnsIpFromIpv4 m sys dnsServerCheck 4 (Written.zero 16)) := by
  have hnone : m.isSet .primaryIpv6 = false ∧ m.isSet .secondaryIpv6 = false := by
    simp [DnsServers.isSet, h1, h2]
  have hmem : ∀ t ∈ AddressFamily.inet6.searchOrder, m.isSet t = true →
      t = .primaryIpv4 ∨ t = .secondaryIpv4 := by
    intro t ht hset
    simp only [AddressFamily.searchOrder, List.mem_cons, List.not_mem_nil, or_false] at ht
    rcases ht with rfl | rfl | ht
    · simp [DnsServers.isSet, h1] at hset
    · simp [DnsServers.isSet, h2] at hset
    · exact ht
  have h := tryServers_spec (getDnsPrimaryServerIpv4 m) (getDnsSecondaryServerIpv4 m)
    .primaryIpv4 .secondaryIpv4 dnsServerCheck 4 (Written.zero 4)
  simp only [getDnsIpFromIpv4]
  generalize tryServers _ _ _ _ _ _ _ = pair at h ⊢
  cases h with
  | first a hset hok =>
      rw [if_pos rfl, if_neg (getDnsServerIpv4_ne_zero hset)]
      refine .taken .primaryIpv4 [.primaryIpv6, .secondaryIpv6] [.secondaryIpv4] _ rfl ?_
        (by simp [DnsServers.isSet, hset]) (not_not.mpr hok) ⟨rfl, rfl, eq_of_getDnsServerIpv4 hset⟩
      intro t ht ht'
      rcases hmem t (by simp at ht; rcases ht with rfl | rfl <;> simp [AddressFamily.searchOrder])
        ht' with rfl | rfl <;> simp at ht
  | second a hfirst hset hok =>
      rw [if_pos rfl, if_neg (getDnsServerIpv4_ne_zero hset)]
      refine .taken .secondaryIpv4 [.primaryIpv6, .secondaryIpv6, .primaryIpv4] [] _ rfl ?_
        (by simp [DnsServers.isSet, hset]) (not_not.mpr hok) ⟨rfl, rfl, eq_of_getDnsServerIpv4 hset⟩
      intro t ht ht'
      rcases hmem t (List.mem_append_left [DnsServer.secondaryIpv4] ht) ht' with rfl | rfl
      · exact marked_of_isSet hfirst ht'
      · simp at ht
  | neitherSet hfirst hsecond =>
      rw [if_neg Bool.false_ne_true]
      obtain ⟨addr, hfrom, heq⟩ := fallback_from (m := m)
        (p := sys.ipv4.over4 (Written.zero 4)) (Written.zero 16)
        ((4 : UInt8) <<< 1 <<< 1) (by
          intro hne
          cases hsys : sys.ipv4 with
          | found a => exact ⟨rfl, .inl rfl⟩
          | failed left =>
              cases left with
              | some a => exact ⟨rfl, .inr rfl⟩
              | none => exact absurd rfl (hsys ▸ hne))
      rw [heq]
      refine .last addr ?_ hfrom
      intro t ht ht'
      rcases hmem t ht ht' with rfl | rfl
      · exact marked_of_isSet (.inl hfirst) ht'
      · exact marked_of_isSet (.inl hsecond) ht'
  | allFailed a who hlast hfirst hsecond =>
      rw [if_neg Bool.false_ne_true]
      have hall : ∀ t ∈ AddressFamily.inet6.searchOrder, m.isSet t = true →
          Marked .inet6 dnsServerCheck t := by
        intro t ht ht'
        rcases hmem t ht ht' with rfl | rfl
        · exact marked_of_isSet hfirst ht'
        · exact marked_of_isSet hsecond ht'
      by_cases hsys : sys.ipv4 = .failed none
      · have hne : a ≠ Vector.replicate 4 0 := by
          rcases hlast with ⟨hset, -⟩ | ⟨-, hset, -⟩ <;> exact getDnsServerIpv4_ne_zero hset
        have hne' : ¬ ((SystemRead.failed none).over4 ⟨a, some who⟩).bytes =
            Vector.replicate 4 0 := hne
        rw [hsys, if_neg hne']
        rcases hlast with ⟨hset, rfl⟩ | ⟨-, hset, rfl⟩
        · exact .ipv4LeftOver .secondaryIpv4 _ rfl (.inr rfl) (by simp [DnsServers.isSet, hset])
            hnone hall hsys ⟨rfl, rfl, eq_of_getDnsServerIpv4 hset⟩
        · exact .ipv4LeftOver .primaryIpv4 _ rfl (.inl rfl) (by simp [DnsServers.isSet, hset])
            hnone hall hsys ⟨rfl, rfl, eq_of_getDnsServerIpv4 hset⟩
      · obtain ⟨addr, hfrom, heq⟩ := fallback_from (m := m)
          (p := sys.ipv4.over4 ⟨a, some who⟩) (Written.zero 16) ((4 : UInt8) <<< 1 <<< 1) (by
            intro hne
            cases hread : sys.ipv4 with
            | found a => exact ⟨rfl, .inl rfl⟩
            | failed left =>
                cases left with
                | some a => exact ⟨rfl, .inr rfl⟩
                | none => exact absurd hread hsys)
        rw [heq]
        exact .last addr hall hfrom

/-- **What a call of `get_dns_ip` can come back with.** -/
theorem getDnsIp_pick (m : DnsServers) (sys : SystemServers) (family : AddressFamily)
    (dnsServerCheck : UInt8) :
    DnsPick m sys family dnsServerCheck (getDnsIp m sys family dnsServerCheck) := by
  cases family with
  | inet => exact getDnsIp_pick_inet
  | inet6 =>
      have h := tryServers_spec (getDnsPrimaryServerIpv6 m) (getDnsSecondaryServerIpv6 m)
        .primaryIpv6 .secondaryIpv6 dnsServerCheck 1 (Written.zero 16)
      simp only [getDnsIp]
      generalize tryServers _ _ _ _ _ _ _ = pair at h ⊢
      cases h with
      | first a hset hok =>
          rw [if_pos (getDnsServerIpv6_ne_zero hset)]
          exact .taken .primaryIpv6 [] [.secondaryIpv6, .primaryIpv4, .secondaryIpv4] _ rfl
            (by simp) (by simp [DnsServers.isSet, hset]) (not_not.mpr hok)
            ⟨rfl, rfl, eq_of_getDnsServerIpv6 hset⟩
      | second a hfirst hset hok =>
          rw [if_pos (getDnsServerIpv6_ne_zero hset)]
          refine .taken .secondaryIpv6 [.primaryIpv6] [.primaryIpv4, .secondaryIpv4] _ rfl ?_
            (by simp [DnsServers.isSet, hset]) (not_not.mpr hok)
            ⟨rfl, rfl, eq_of_getDnsServerIpv6 hset⟩
          intro t ht hset
          obtain rfl := List.mem_singleton.mp ht
          exact marked_of_isSet hfirst hset
      | neitherSet hfirst hsecond =>
          have hz : ¬ (Written.zero 16).bytes ≠ Vector.replicate 16 0 := not_not.mpr rfl
          rw [if_neg hz]
          exact getDnsIpFromIpv4_pick hfirst hsecond
      | allFailed a who hlast hfirst hsecond =>
          have hne : a ≠ Vector.replicate 16 0 := by
            rcases hlast with ⟨hset, -⟩ | ⟨-, hset, -⟩ <;> exact getDnsServerIpv6_ne_zero hset
          have hall : ∀ t, t = .primaryIpv6 ∨ t = .secondaryIpv6 → m.isSet t = true →
              Marked .inet6 dnsServerCheck t := by
            intro t ht hset
            rcases ht with rfl | rfl
            · exact marked_of_isSet hfirst hset
            · exact marked_of_isSet hsecond hset
          rw [if_pos hne]
          rcases hlast with ⟨hset, rfl⟩ | ⟨-, hset, rfl⟩
          · exact .ipv6LeftOver .secondaryIpv6 _ rfl (.inr rfl) (by simp [DnsServers.isSet, hset])
              hall ⟨rfl, rfl, eq_of_getDnsServerIpv6 hset⟩
          · exact .ipv6LeftOver .primaryIpv6 _ rfl (.inl rfl) (by simp [DnsServers.isSet, hset])
              hall ⟨rfl, rfl, eq_of_getDnsServerIpv6 hset⟩

/-- **The family of the result is the one of the bytes written**, and these are the address of
    the entry they came from. -/
theorem getDnsIp_readable (family : AddressFamily) :
    ∃ s, (getDnsIp m sys family dnsServerCheck).2.From m sys s := by
  have hpick := getDnsIp_pick m sys family dnsServerCheck
  generalize getDnsIp m sys family dnsServerCheck = pick at hpick ⊢
  cases hpick with
  | taken s before after addr horder hbefore hset hok hfrom => exact ⟨s, hfrom⟩
  | last addr hall hfrom => exact ⟨_, hfrom⟩
  | ipv6LeftOver s addr hfam hs hset hall hfrom => exact ⟨s, hfrom⟩
  | ipv4LeftOver s addr hfam hs hset hnone hall hsys hfrom => exact ⟨s, hfrom⟩

/-- A search that passes over the servers before `s` and stops there. -/
lemma firstLeft_of_split {order before after failed : List DnsServer} {s : DnsServer}
    (horder : order = before ++ s :: after)
    (hbefore : ∀ t ∈ before, m.isSet t = true → t ∈ failed) (hset : m.isSet s = true)
    (hs : s ∉ failed) : m.firstLeft order failed = s := by
  have hnone : before.find? (fun t => m.isSet t && !failed.contains t) = none := by
    rw [List.find?_eq_none]
    intro t ht
    by_cases hm : m.isSet t = true
    · simp [hm, hbefore t ht hm]
    · simp [hm]
  rw [DnsServers.firstLeft, horder, List.find?_append, hnone]
  simp [hset, hs]

/-- A search in which every configured server has failed. -/
lemma firstLeft_of_all {order failed : List DnsServer}
    (hall : ∀ t ∈ order, m.isSet t = true → t ∈ failed) :
    m.firstLeft order failed = .systemOrDefault := by
  have hnone : order.find? (fun t => m.isSet t && !failed.contains t) = none := by
    rw [List.find?_eq_none]
    intro t ht
    by_cases hm : m.isSet t = true
    · simp [hm, hall t ht hm]
    · simp [hm]
  rw [DnsServers.firstLeft, hnone]
  rfl

end Pick

/-! ## The bits and the servers that have failed -/

/-- The bits of `dns_server_check` say which of the configured servers have failed. -/
def Agrees (m : DnsServers) (family : AddressFamily) (dnsServerCheck : UInt8)
    (failed : List DnsServer) (order : List DnsServer) : Prop :=
  ∀ s ∈ order, m.isSet s = true → (Marked family dnsServerCheck s ↔ s ∈ failed)

/-- An IPv6 server is configured, and every one that is has failed. -/
def DnsServers.ipv6LeftOver (m : DnsServers) (family : AddressFamily)
    (failed : List DnsServer) : Prop :=
  family = .inet6 ∧ (∃ s ∈ [DnsServer.primaryIpv6, .secondaryIpv6], m.isSet s = true) ∧
    ∀ s ∈ [DnsServer.primaryIpv6, .secondaryIpv6], m.isSet s = true → s ∈ failed

/-- The host prefers IPv6, an IPv4 server is configured, every one that is has failed, and the
    system names no server. -/
def DnsServers.ipv4LeftOver (m : DnsServers) (sys : SystemServers) (family : AddressFamily)
    (failed : List DnsServer) : Prop :=
  family = .inet6 ∧ sys.ipv4 = .failed none ∧
    (∃ s ∈ [DnsServer.primaryIpv4, .secondaryIpv4], m.isSet s = true) ∧
    ∀ s ∈ [DnsServer.primaryIpv4, .secondaryIpv4], m.isSet s = true → s ∈ failed

/-- **`get_dns_ip` takes the servers in their order**: the first configured one that has not
    failed, the system's or the default one when there is none left; but not once the address
    of a failed server has been left in the result. -/
theorem getDnsIp_source {m : DnsServers} {sys : SystemServers} {family : AddressFamily}
    {dnsServerCheck : UInt8} {failed : List DnsServer}
    (hagree : Agrees m family dnsServerCheck failed family.searchOrder)
    (h6 : ¬ m.ipv6LeftOver family failed) (h4 : ¬ m.ipv4LeftOver sys family failed) :
    (getDnsIp m sys family dnsServerCheck).2.source =
      some (m.firstLeft family.searchOrder failed) := by
  have hpick := getDnsIp_pick m sys family dnsServerCheck
  generalize getDnsIp m sys family dnsServerCheck = pick at hpick ⊢
  cases hpick with
  | taken s before after addr horder hbefore hset hok hfrom =>
      have hmem : s ∈ family.searchOrder := by simp [horder]
      have hbefore' : ∀ t ∈ before, m.isSet t = true → t ∈ failed := by
        intro t ht hset'
        have ht' : t ∈ family.searchOrder := by simp [horder, ht]
        exact (hagree t ht' hset').mp (hbefore t ht hset')
      rw [firstLeft_of_split horder hbefore' hset fun hs => hok ((hagree s hmem hset).mpr hs)]
      exact hfrom.1
  | last addr hall hfrom =>
      rw [firstLeft_of_all fun t ht hset => (hagree t ht hset).mp (hall t ht hset)]
      exact hfrom.1
  | ipv6LeftOver s addr hfam hs hset hall hfrom =>
      subst hfam
      refine absurd ⟨rfl, ⟨s, by simpa using hs, hset⟩, ?_⟩ h6
      intro t ht hset'
      have ht' : t ∈ AddressFamily.inet6.searchOrder := List.mem_append_left [_, _] ht
      exact (hagree t ht' hset').mp (hall t (by simpa using ht) hset')
  | ipv4LeftOver s addr hfam hs hset hnone hall hsys hfrom =>
      subst hfam
      refine absurd ⟨rfl, hsys, ⟨s, by simpa using hs, hset⟩, ?_⟩ h4
      intro t ht hset'
      have ht' : t ∈ AddressFamily.inet6.searchOrder := List.mem_append_right [_, _] ht
      exact (hagree t ht' hset').mp (hall t ht' hset')

end PubNub
