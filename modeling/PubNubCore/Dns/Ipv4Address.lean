import PubNubCore.Core.Types
import PubNubCore.Dns.Servers
import PubNubCore.Lib.Scanf

/-!
# IPv4 addresses as texts

`pubnub_parse_ipv4_addr` of `lib/pubnub_parse_ipv4_addr.c` leaves the reading to `sscanf`, which takes
whitespace and signs in front of a number and any text behind the last one.  It then stores the bytes
from the last one on, until one does not fit; `pubnub_dns_set_primary_server_ipv4_str` and its sibling
hand it the server that is in use.
-/

namespace PubNub

open Scanf

/-! ## The functions -/

/-- The loop over the four numbers, from the last one on. -/
def storeIpv4 (a : List Int) : Nat → Ipv4Address → Int × Ipv4Address
  | 0, p => (0, p)
  | rslt + 1, p =>
      if a.getD rslt 0 < 0 ∨ 255 < a.getD rslt 0 then (-1, p)
      else storeIpv4 a rslt (p.setIfInBounds rslt (UInt8.ofNat (a.getD rslt 0).toNat))

/-- `none` where `sscanf` reads a number that no `int` holds. -/
def pubnubParseIpv4Addr (addr : Bytes) (p : Ipv4Address) : Option (Int × Ipv4Address) :=
  if 46 ∉ addr then some (-1, p)
  else (scanDotted 4 addr).bind fun a =>
    if a.length ≠ 4 then some (-1, p) else some (storeIpv4 a 4 p)

/-- `pubnub_dns_set_primary_server_ipv4_str`. -/
def setPrimaryServerIpv4Str (m : DnsServers) (ipv4Str : Bytes) : Option (Int × DnsServers) :=
  (pubnubParseIpv4Addr ipv4Str m.primaryIpv4).map fun ret => (ret.1, { m with primaryIpv4 := ret.2 })

/-- `pubnub_dns_set_secondary_server_ipv4_str`. -/
def setSecondaryServerIpv4Str (m : DnsServers) (ipv4Str : Bytes) : Option (Int × DnsServers) :=
  (pubnubParseIpv4Addr ipv4Str m.secondaryIpv4).map fun ret =>
    (ret.1, { m with secondaryIpv4 := ret.2 })

/-! ## What is asked of them -/

/-- Four decimal numbers with dots between them, and the bytes that they are. -/
def IsIpv4Text (addr : Bytes) (p : Ipv4Address) : Prop := ∃ numbers : List Bytes,
  (∀ d ∈ numbers, d ≠ [] ∧ ∀ c ∈ d, isDigit c = true) ∧ addr = dotted numbers ∧
  numbers.map decimal = p.toList.map UInt8.toNat

/-- An address is stored, and nothing else is taken for one. -/
def ParsesIpv4 (addr : Bytes) (outcome : Option (Int × Ipv4Address)) : Prop :=
  ∃ rslt p, outcome = some (rslt, p) ∧
    (rslt = 0 ∧ IsIpv4Text addr p ∨ rslt ≠ 0 ∧ ∀ q, ¬ IsIpv4Text addr q)

/-- A server is set to an address, and stays what it was if there is none. -/
def SetsIpv4 (addr : Bytes) (m : DnsServers) (set : Ipv4Address → DnsServers)
    (outcome : Option (Int × DnsServers)) : Prop :=
  ∃ rslt m', outcome = some (rslt, m') ∧
    (rslt = 0 ∧ (∃ p, IsIpv4Text addr p ∧ m' = set p) ∨
      rslt ≠ 0 ∧ m' = m ∧ ∀ q, ¬ IsIpv4Text addr q)

def InByte (v : Int) : Prop := 0 ≤ v ∧ v ≤ 255

/-- Every number that is reached is held by an `int`, and a text with four numbers that fit into bytes
    is an address. -/
structure ScansRight (addr : Bytes) : Prop where
  inInt : 46 ∈ addr → ∀ fields rest, Row addr fields rest → fields.length ≤ 4 →
    ∀ f ∈ fields, InInt f.value
  isIpv4Text : ∀ fields rest, Row addr fields rest → fields.length = 4 →
    (∀ f ∈ fields, InByte f.value) → ∃ p, IsIpv4Text addr p

/-- Behind the last number that does not fit into a byte stand the bytes that are there already. -/
def StoresBack (addr : Bytes) (old : Ipv4Address) : Prop :=
  ∀ fields rest, Row addr fields rest → fields.length = 4 → (∃ f ∈ fields, ¬ InByte f.value) →
    ∃ i < 4, ¬ InByte ((fields.map Field.value).getD i 0) ∧ ∀ j, i < j → ∀ h : j < 4,
      (fields.map Field.value).getD j 0 = (old[j].toNat : Int)

variable {addr : Bytes} {p q : Ipv4Address} {a : List Int}

/-! ## Storing the numbers -/

/-- The numbers that fit are stored, down to where the loop stands. -/
lemma storeIpv4_down {i k : Nat} (hle : i ≤ k) (hin : ∀ j, i ≤ j → j < k → InByte (a.getD j 0)) :
    ∃ q, storeIpv4 a k p = storeIpv4 a i q ∧ ∀ j, ∀ h : j < 4,
      q[j] = if i ≤ j ∧ j < k then UInt8.ofNat (a.getD j 0).toNat else p[j] := by
  induction k, hle using Nat.le_induction generalizing p with
  | base => exact ⟨p, rfl, fun j h => (if_neg (by omega)).symm⟩
  | succ k hik ih =>
      obtain ⟨hlow, hhigh⟩ := hin k hik (Nat.lt_succ_self k)
      obtain ⟨q, hq, hbytes⟩ := ih fun j hij hjk => hin j hij (Nat.lt_succ_of_lt hjk)
      refine ⟨q, ?_, ?_⟩
      · rw [storeIpv4, if_neg (by omega)]
        exact hq
      · intro j h
        rw [hbytes j h]
        by_cases hj : j = k
        · subst hj
          rw [if_neg (by omega), if_pos ⟨hik, Nat.lt_succ_self j⟩, Vector.getElem_setIfInBounds_self]
        · rw [Vector.getElem_setIfInBounds_ne h (Ne.symm hj)]
          split
          · rw [if_pos (by omega)]
          · rw [if_neg (by omega)]

/-- Four numbers that fit. -/
lemma storeIpv4_all (hin : ∀ j < 4, InByte (a.getD j 0)) (p : Ipv4Address) :
    ∃ q, storeIpv4 a 4 p = (0, q) ∧ ∀ j, ∀ h : j < 4, q[j] = UInt8.ofNat (a.getD j 0).toNat := by
  obtain ⟨q, hq, hbytes⟩ := storeIpv4_down (p := p) (Nat.zero_le 4) fun j _ hj => hin j hj
  refine ⟨q, hq, fun j h => ?_⟩
  rw [hbytes j h, if_pos ⟨Nat.zero_le j, h⟩]

/-- The last number that does not fit. -/
lemma exists_last_not_inByte (hout : ∃ j < 4, ¬ InByte (a.getD j 0)) :
    ∃ i < 4, ¬ InByte (a.getD i 0) ∧ ∀ j, i < j → j < 4 → InByte (a.getD j 0) := by
  by_contra hnone
  push Not at hnone
  obtain ⟨j, hj, hjout⟩ := hout
  have hclimb : ∀ k, ∃ i, k ≤ i ∧ i < 4 ∧ ¬ InByte (a.getD i 0) := by
    intro k
    induction k with
    | zero => exact ⟨j, Nat.zero_le j, hj, hjout⟩
    | succ k ih =>
        obtain ⟨i, hki, hi, hiout⟩ := ih
        obtain ⟨i', hlt, hi', hout'⟩ := hnone i hi hiout
        exact ⟨i', hki.trans_lt hlt, hi', hout'⟩
  obtain ⟨i, hle, hlt, -⟩ := hclimb 4
  omega

/-- With a number that does not fit, the ones behind it are stored nevertheless. -/
lemma storeIpv4_not (hout : ∃ j < 4, ¬ InByte (a.getD j 0)) (p : Ipv4Address) :
    ∃ i < 4, ¬ InByte (a.getD i 0) ∧ (∀ j, i < j → j < 4 → InByte (a.getD j 0)) ∧
      ∃ q, storeIpv4 a 4 p = (-1, q) ∧ ∀ j, ∀ h : j < 4,
        q[j] = if i < j then UInt8.ofNat (a.getD j 0).toNat else p[j] := by
  obtain ⟨i, hi, hiout, hlast⟩ := exists_last_not_inByte hout
  obtain ⟨q, hq, hbytes⟩ := storeIpv4_down (p := p) (i := i + 1) (k := 4) hi
    fun j hij hj => hlast j hij hj
  refine ⟨i, hi, hiout, hlast, q, ?_, fun j h => ?_⟩
  · have hstop : a.getD i 0 < 0 ∨ 255 < a.getD i 0 := by
      simp only [InByte, not_and_or, not_le] at hiout
      exact hiout
    rw [hq, storeIpv4, if_pos hstop]
  · rw [hbytes j h]
    simp only [Nat.succ_le_iff, h, and_true]

/-! ## Addresses are read as what they are -/

lemma dot_mem_dotted {ts : List (List UInt8)} (h : 2 ≤ ts.length) : 46 ∈ dotted ts := by
  match ts, h with
  | t :: u :: ts, _ =>
      change 46 ∈ t ++ 46 :: dotted (u :: ts)
      exact List.mem_append_right t List.mem_cons_self

/-- Numbers without space and sign are fields. -/
lemma exists_fields {numbers : List (List UInt8)}
    (h : ∀ d ∈ numbers, d ≠ [] ∧ ∀ c ∈ d, isDigit c = true) : ∃ fields : List Field,
      fields.map Field.text = numbers ∧ fields.map Field.value = numbers.map fun d => (decimal d : Int) := by
  induction numbers with
  | nil => exact ⟨[], rfl, rfl⟩
  | cons d numbers ih =>
      rw [List.forall_mem_cons] at h
      obtain ⟨⟨hne, hdigits⟩, hnumbers⟩ := h
      obtain ⟨fields, htexts, hvalues⟩ := ih hnumbers
      refine ⟨⟨[], [], d, fun c hc => absurd hc List.not_mem_nil, List.mem_cons_self, hdigits, hne⟩ ::
        fields, ?_, ?_⟩
      · rw [List.map_cons, htexts]
        rfl
      · rw [List.map_cons, hvalues]
        rfl

/-- The bytes of an address, as the numbers that are read. -/
def byteValues (p : Ipv4Address) : List Int := p.toList.map fun c => (c.toNat : Int)

lemma inByte_byteValues (p : Ipv4Address) : ∀ v ∈ byteValues p, InByte v := by
  intro v hv
  obtain ⟨c, -, rfl⟩ := List.mem_map.mp hv
  have hlt := c.toNat_lt
  exact ⟨Int.natCast_nonneg _, by omega⟩

lemma InByte.inInt {v : Int} (h : InByte v) : InInt v := by
  obtain ⟨hlow, hhigh⟩ := h
  exact ⟨by omega, by omega⟩

/-- An address is a row of its bytes. -/
lemma IsIpv4Text.row (h : IsIpv4Text addr p) :
    ∃ fields, Row addr fields [] ∧ fields.length = 4 ∧ fields.map Field.value = byteValues p := by
  obtain ⟨numbers, hnumbers, rfl, hbytes⟩ := h
  obtain ⟨fields, htexts, hvalues⟩ := exists_fields hnumbers
  have hcasts : fields.map Field.value = byteValues p := by
    rw [hvalues, byteValues]
    have hmap := congrArg (List.map ((↑) : Nat → Int)) hbytes
    rwa [List.map_map, List.map_map] at hmap
  have hlength := congrArg List.length hcasts
  rw [byteValues, List.length_map, List.length_map, Vector.length_toList] at hlength
  refine ⟨fields, ⟨?_, fun c hc => by cases hc⟩, hlength, hcasts⟩
  rw [htexts, List.append_nil]

/-- A row of four numbers that an `int` holds is what is read. -/
lemma scan_row {fields : List Field} {rest : Bytes} (h : Row addr fields rest)
    (hlength : fields.length = 4) (hint : ∀ f ∈ fields, InInt f.value) :
    scanDotted 4 addr = some (fields.map Field.value) := by
  refine scanDotted_row h hlength hint fun hnil => ?_
  rw [hnil] at hlength
  cases hlength

lemma dot_mem_row {fields : List Field} {rest : Bytes} (h : Row addr fields rest)
    (hlength : fields.length = 4) : 46 ∈ addr := by
  rw [h.text_eq]
  refine List.mem_append_left rest (dot_mem_dotted ?_)
  rw [List.length_map, hlength]
  decide

lemma IsIpv4Text.scan (h : IsIpv4Text addr p) :
    46 ∈ addr ∧ scanDotted 4 addr = some (byteValues p) := by
  obtain ⟨fields, hrow, hlength, hvalues⟩ := h.row
  rw [← hvalues]
  refine ⟨dot_mem_row hrow hlength, scan_row hrow hlength fun f hf => ?_⟩
  have hmem : f.value ∈ byteValues p := hvalues ▸ List.mem_map_of_mem hf
  exact (inByte_byteValues p f.value hmem).inInt

lemma byteValues_getD (p : Ipv4Address) {j : Nat} (h : j < 4) :
    (byteValues p).getD j 0 = (p[j].toNat : Int) := by
  have hlength : j < p.toList.length := by rwa [Vector.length_toList]
  rw [byteValues, List.getD_eq_getElem?_getD, List.getElem?_map, List.getElem?_eq_getElem hlength,
    Vector.getElem_toList]
  rfl

lemma forall_getD_iff {P : Int → Prop} (hlength : a.length = 4) :
    (∀ v ∈ a, P v) ↔ ∀ j < 4, P (a.getD j 0) := by
  constructor
  · intro h j hj
    have hlt : j < a.length := hlength ▸ hj
    rw [List.getD_eq_getElem?_getD, List.getElem?_eq_getElem hlt]
    exact h _ (List.getElem_mem hlt)
  · intro h v hv
    obtain ⟨j, hj, rfl⟩ := List.getElem_of_mem hv
    have hall := h j (hlength ▸ hj)
    rwa [List.getD_eq_getElem?_getD, List.getElem?_eq_getElem hj] at hall

/-! ## One call -/

/-- Where the numbers of every row are held by an `int`, a row of four is what has been read. -/
lemma ScansRight.values_eq (h : ScansRight addr) (ha : scanDotted 4 addr = some a)
    {fields : List Field} {rest : Bytes} (hrow : Row addr fields rest) (hlength : fields.length = 4) :
    fields.map Field.value = a := by
  have hscan := scan_row hrow hlength
    (h.inInt (dot_mem_row hrow hlength) fields rest hrow (Nat.le_of_eq hlength))
  exact Option.some.inj (hscan.symm.trans ha)

/-- No address, and no four numbers either: nothing is stored. -/
lemma parse_without_four (hscan : ∀ fields rest, Row addr fields rest → fields.length ≠ 4)
    (p : Ipv4Address) : (∀ r, ¬ IsIpv4Text addr r) ∧ (p = p ↔ StoresBack addr p) := by
  refine ⟨fun r hr => ?_, fun _ fields rest hrow hlength => ?_, fun _ => rfl⟩
  · obtain ⟨fields, hrow, hlength, -⟩ := hr.row
    exact hscan fields [] hrow hlength
  · exact absurd hlength (hscan fields rest hrow)

/-- Four numbers that fit: they are the address. -/
lemma parse_all (h : ScansRight addr) (ha : scanDotted 4 addr = some a) (hlength : a.length = 4)
    (hin : ∀ v ∈ a, InByte v) (p : Ipv4Address) :
    ∃ q, storeIpv4 a 4 p = (0, q) ∧ IsIpv4Text addr q ∧ StoresBack addr p := by
  obtain ⟨q, hq, hbytes⟩ := storeIpv4_all ((forall_getD_iff hlength).mp hin) p
  have hne : a ≠ [] := fun hnil => by
    rw [hnil] at hlength
    cases hlength
  obtain ⟨fields, rest, hrow, hvalues⟩ := row_of_scanDotted ha hlength hne
  have hcount : fields.length = 4 := by rw [← hlength, ← hvalues, List.length_map]
  obtain ⟨r, hr⟩ := h.isIpv4Text fields rest hrow hcount fun f hf =>
    hin f.value (hvalues ▸ List.mem_map_of_mem hf)
  have hsame : q = r := by
    refine Vector.ext fun j hj => ?_
    have hread : byteValues r = a := Option.some.inj (hr.scan.2.symm.trans ha)
    rw [hbytes j hj, ← hread, byteValues_getD r hj, Int.toNat_natCast, UInt8.ofNat_toNat]
  refine ⟨q, hq, hsame ▸ hr, ?_⟩
  rintro fields' rest' hrow' hcount' ⟨f, hf, hout⟩
  refine absurd (hin f.value ?_) hout
  exact h.values_eq ha hrow' hcount' ▸ List.mem_map_of_mem hf

/-- Four numbers, one of which does not fit: those behind the last such one are stored. -/
lemma parse_not (h : ScansRight addr) (ha : scanDotted 4 addr = some a) (hlength : a.length = 4)
    (hout : ¬ ∀ v ∈ a, InByte v) (p : Ipv4Address) :
    ∃ q, storeIpv4 a 4 p = (-1, q) ∧ (∀ r, ¬ IsIpv4Text addr r) ∧ (q = p ↔ StoresBack addr p) := by
  have hsome : ∃ j < 4, ¬ InByte (a.getD j 0) := by
    rw [forall_getD_iff hlength] at hout
    push Not at hout
    exact hout
  obtain ⟨i, hi, hiout, hlast, q, hq, hbytes⟩ := storeIpv4_not hsome p
  have hbyte : ∀ j, i < j → ∀ hj : j < 4,
      (UInt8.ofNat (a.getD j 0).toNat = p[j] ↔ a.getD j 0 = (p[j].toNat : Int)) := by
    intro j hij hj
    obtain ⟨hlow, hhigh⟩ := hlast j hij hj
    have hto : (UInt8.ofNat (a.getD j 0).toNat).toNat = (a.getD j 0).toNat := by
      rw [UInt8.toNat_ofNat', Nat.mod_eq_of_lt (by omega)]
    rw [← UInt8.toNat_inj, hto]
    omega
  refine ⟨q, hq, fun r hr => ?_, ?_, ?_⟩
  · have hread : byteValues r = a := Option.some.inj (hr.scan.2.symm.trans ha)
    exact hout fun v hv => inByte_byteValues r v (hread ▸ hv)
  · rintro rfl fields rest hrow hcount -
    rw [h.values_eq ha hrow hcount]
    refine ⟨i, hi, hiout, fun j hij hj => (hbyte j hij hj).mp ?_⟩
    rw [hbytes j hj, if_pos hij]
  · intro hback
    have hne : a ≠ [] := fun hnil => by
      rw [hnil] at hlength
      cases hlength
    obtain ⟨fields, rest, hrow, hvalues⟩ := row_of_scanDotted ha hlength hne
    have hcount : fields.length = 4 := by rw [← hlength, ← hvalues, List.length_map]
    have hfield : ∃ f ∈ fields, ¬ InByte f.value := by
      by_contra hall
      push Not at hall
      refine hout fun v hv => ?_
      rw [← hvalues] at hv
      obtain ⟨f, hf, rfl⟩ := List.mem_map.mp hv
      exact hall f hf
    obtain ⟨k, hk, hkout, hkbytes⟩ := hback fields rest hrow hcount hfield
    rw [hvalues] at hkout hkbytes
    have hki : k = i := by
      rcases Nat.lt_trichotomy k i with hlt | heq | hgt
      · refine absurd ?_ hiout
        rw [hkbytes i hlt hi]
        have hbound := p[i].toNat_lt
        exact ⟨Int.natCast_nonneg _, by omega⟩
      · exact heq
      · exact absurd (hlast k hgt hk) hkout
    subst hki
    refine Vector.ext fun j hj => ?_
    rw [hbytes j hj]
    split
    · rename_i hkj
      exact (hbyte j hkj hj).mpr (hkbytes j hkj hj)
    · rfl

/-- What is there if the scan is defined: the address, or an error, which leaves the bytes alone
    exactly if what it stores is there already. -/
lemma parse_of_scansRight (h : ScansRight addr) (p : Ipv4Address) :
    ∃ rslt q, pubnubParseIpv4Addr addr p = some (rslt, q) ∧
      (rslt = 0 ∧ IsIpv4Text addr q ∧ StoresBack addr p ∨
        rslt = -1 ∧ (∀ r, ¬ IsIpv4Text addr r) ∧ (q = p ↔ StoresBack addr p)) := by
  rw [pubnubParseIpv4Addr]
  by_cases hdot : 46 ∈ addr
  swap
  · rw [if_pos hdot]
    exact ⟨-1, p, rfl, .inr ⟨rfl, parse_without_four (fun fields rest hrow hlength =>
      hdot (dot_mem_row hrow hlength)) p⟩⟩
  rw [if_neg (not_not_intro hdot)]
  cases ha : scanDotted 4 addr with
  | none =>
      obtain ⟨fields, rest, hrow, hlength, f, hf, hout⟩ := row_of_scanDotted_eq_none ha
      exact absurd (h.inInt hdot fields rest hrow hlength f hf) hout
  | some a =>
      rw [Option.bind_some]
      by_cases hlength : a.length = 4
      · rw [if_neg (not_not_intro hlength)]
        by_cases hin : ∀ v ∈ a, InByte v
        · obtain ⟨q, hq, hright⟩ := parse_all h ha hlength hin p
          exact ⟨0, q, congrArg some hq, .inl ⟨rfl, hright⟩⟩
        · obtain ⟨q, hq, hright⟩ := parse_not h ha hlength hin p
          exact ⟨-1, q, congrArg some hq, .inr ⟨rfl, hright⟩⟩
      · rw [if_pos hlength]
        refine ⟨-1, p, rfl, .inr ⟨rfl, parse_without_four (fun fields rest hrow hcount => ?_) p⟩⟩
        rw [← h.values_eq ha hrow hcount, List.length_map] at hlength
        exact hlength hcount

/-- What parses right is scanned right. -/
lemma ScansRight.of_parses (h : ParsesIpv4 addr (pubnubParseIpv4Addr addr p)) : ScansRight addr := by
  obtain ⟨rslt, q, hq, hright⟩ := h
  rw [pubnubParseIpv4Addr] at hq
  have hint : 46 ∈ addr → ∀ fields rest, Row addr fields rest → fields.length ≤ 4 →
      ∀ f ∈ fields, InInt f.value := by
    intro hdot fields rest hrow hlength f hf
    by_contra hout
    rw [if_neg (not_not_intro hdot), scanDotted_overflow hrow hlength ⟨f, hf, hout⟩] at hq
    cases hq
  refine ⟨hint, fun fields rest hrow hlength hin => ?_⟩
  have hscan := scan_row hrow hlength fun f hf => (hin f hf).inInt
  have hcount : (fields.map Field.value).length = 4 := by rw [List.length_map, hlength]
  have hall : ∀ v ∈ fields.map Field.value, InByte v := by
    intro v hv
    obtain ⟨f, hf, rfl⟩ := List.mem_map.mp hv
    exact hin f hf
  obtain ⟨r, hr, -⟩ := storeIpv4_all ((forall_getD_iff hcount).mp hall) p
  rw [if_neg (not_not_intro (dot_mem_row hrow hlength)), hscan, Option.bind_some,
    if_neg (not_not_intro hcount), hr] at hq
  cases hq
  rcases hright with ⟨-, htext⟩ | ⟨hne, -⟩
  · exact ⟨_, htext⟩
  · exact absurd rfl hne

/-! ## Which strings are handled right -/

lemma parses_iff (p : Ipv4Address) :
    ParsesIpv4 addr (pubnubParseIpv4Addr addr p) ↔ ScansRight addr := by
  refine ⟨ScansRight.of_parses, fun h => ?_⟩
  obtain ⟨rslt, q, hq, ⟨rfl, htext, -⟩ | ⟨rfl, hnone, -⟩⟩ := parse_of_scansRight h p
  · exact ⟨0, q, hq, .inl ⟨rfl, htext⟩⟩
  · exact ⟨-1, q, hq, .inr ⟨by decide, hnone⟩⟩

/-- A setter hands a field of the servers to the parser. -/
lemma sets_iff {m : DnsServers} {set : Ipv4Address → DnsServers} {old : Ipv4Address}
    (hold : set old = m) (hset : Function.Injective set) :
    SetsIpv4 addr m set ((pubnubParseIpv4Addr addr old).map fun ret => (ret.1, set ret.2)) ↔
      ScansRight addr ∧ StoresBack addr old := by
  constructor
  · rintro ⟨rslt, m', houtcome, hright⟩
    obtain ⟨⟨ret, q⟩, hq, heq⟩ := Option.map_eq_some_iff.mp houtcome
    cases heq
    have hscans : ScansRight addr := by
      refine ScansRight.of_parses ⟨ret, q, hq, ?_⟩
      rcases hright with ⟨hzero, r, hr, hsame⟩ | ⟨hne, -, hnone⟩
      · have hq : q = r := hset hsame
        exact .inl ⟨hzero, hq ▸ hr⟩
      · exact .inr ⟨hne, hnone⟩
    refine ⟨hscans, ?_⟩
    obtain ⟨ret', q', hq', hcases⟩ := parse_of_scansRight hscans old
    rw [hq] at hq'
    cases hq'
    rcases hcases with ⟨-, -, hback⟩ | ⟨rfl, hnone, hback⟩
    · exact hback
    · rcases hright with ⟨hzero, -⟩ | ⟨-, hsame, -⟩
      · cases hzero
      · exact hback.mp (hset (hsame.trans hold.symm))
  · rintro ⟨hscans, hback⟩
    obtain ⟨rslt, q, hq, ⟨rfl, htext, -⟩ | ⟨rfl, hnone, hkeeps⟩⟩ := parse_of_scansRight hscans old
    · exact ⟨0, set q, by rw [hq]; rfl, .inl ⟨rfl, q, htext, rfl⟩⟩
    · refine ⟨-1, set q, by rw [hq]; rfl, .inr ⟨by decide, ?_, hnone⟩⟩
      rw [hkeeps.mpr hback, hold]

/-- **IPv4 addresses.**  The parser takes addresses and nothing else if and only if what the scan
    reaches of the string is right; a setter moreover keeps its server if and only if it stores nothing
    new behind the last number that does not fit. -/
theorem ipv4_strings_right (addr : Bytes) (p : Ipv4Address) (m : DnsServers) :
    (ParsesIpv4 addr (pubnubParseIpv4Addr addr p) ↔ ScansRight addr) ∧
    (SetsIpv4 addr m (fun q => { m with primaryIpv4 := q }) (setPrimaryServerIpv4Str m addr) ↔
      ScansRight addr ∧ StoresBack addr m.primaryIpv4) ∧
    (SetsIpv4 addr m (fun q => { m with secondaryIpv4 := q }) (setSecondaryServerIpv4Str m addr) ↔
      ScansRight addr ∧ StoresBack addr m.secondaryIpv4) := by
  refine ⟨parses_iff p, sets_iff rfl ?_, sets_iff rfl ?_⟩
  · intro q r hsame
    exact congrArg DnsServers.primaryIpv4 hsame
  · intro q r hsame
    exact congrArg DnsServers.secondaryIpv4 hsame

/-- `1.2.300.4` is refused, and the last byte of the server is 4 from then on. -/
theorem ipv4_strings_not_always_right : ¬ ∀ (addr : Bytes) (m : DnsServers),
    SetsIpv4 addr m (fun q => { m with primaryIpv4 := q }) (setPrimaryServerIpv4Str m addr) := by
  intro h
  obtain ⟨rslt, m', houtcome, hright⟩ := h (ascii "1.2.300.4") {}
  have hset : setPrimaryServerIpv4Str {} (ascii "1.2.300.4") =
      some (-1, { primaryIpv4 := #v[0, 0, 0, 4] }) := rfl
  rw [hset] at houtcome
  cases houtcome
  rcases hright with ⟨hzero, -⟩ | ⟨-, hsame, -⟩
  · cases hzero
  · exact absurd (congrArg DnsServers.primaryIpv4 hsame) (by decide)

end PubNub
