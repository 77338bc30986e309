import PubNubCore.Core.Types
import PubNubCore.Dns.Servers
import PubNubCore.Lib.JsonDenotation
import PubNubCore.Lib.Printing

/-!
# IPv6 addresses as texts

`pubnub_parse_ipv6_addr` of `lib/pubnub_parse_ipv6_addr.c` goes through a text from the left until
two colons follow each other, and then through the rest of it from the right, up to these colons.
What stands between two colons is put into an array of eight words, which is filled from both ends;
nothing but the number of colons keeps the index inside of it.

The texts that it takes are those of `Ipv6Denotes`.  They are not quite the ones of the
standard: a colon in front of everything, or behind it, counts like one with a zero beside it, and
there may not be more than seven colons even where two of them are together, so that these must stand for
two groups at least if nothing is in front of them, or behind them.
-/

namespace PubNub

open JsonText

/-! ## The function -/

/-- `toupper`. -/
def toupper (c : UInt8) : UInt8 := if 97 ≤ c ∧ c ≤ 122 then c - 32 else c

/-- `digit_value`, if the character is a hexadecimal digit. -/
def ipv6DigitValue (c : UInt8) : Option Nat :=
  if 48 ≤ c ∧ c ≤ 57 then some (c.toNat - 48)
  else if 97 ≤ c ∧ c ≤ 102 ∨ 65 ≤ c ∧ c ≤ 70 then some ((toupper c).toNat - 65 + 10)
  else none

/-- The local variables of `pubnub_parse_ipv6_addr`.  `powerOf16` has no value before the first
    colon; it is read only behind one. -/
structure Ipv6Scan where
  b : List Nat
  value : Nat
  hexDigits : Nat
  colons : Nat
  i : Nat
  forward : Bool
  powerOf16 : Nat
  previousColon : Bool
  pos : Nat
  meetingPosition : Nat

namespace Ipv6Scan

variable (s : Ipv6Scan)

/-- `pos += step`. -/
def movePos : Nat := if s.forward then s.pos + 1 else s.pos - 1

/-- `i += step`, for an `unsigned`. -/
def moveIndex : Nat := if s.forward then (s.i + 1) % 2 ^ 32 else (s.i + (2 ^ 32 - 1)) % 2 ^ 32

/-- What is forgotten at a colon. -/
def behindColon : Ipv6Scan :=
  { s with hexDigits := 0, powerOf16 := 0, value := 0, previousColon := true }

/-- A colon.  `none` where the word would be stored outside of the array, `some none` where the
    address is rejected. -/
def colon (text : Bytes) : Option (Option Ipv6Scan) :=
  let s := { s with colons := s.colons + 1 }
  if 7 < s.colons then some none
  else if s.b.length ≤ s.i then none
  else
    let s := { s with b := s.b.set s.i s.value }
    if s.previousColon then
      if s.forward then
        let s := { s with forward := false, meetingPosition := s.pos, pos := text.length - 1, i := 7 }
        some (some s.behindColon)
      else some none
    else some (some { s with i := s.moveIndex, pos := s.movePos }.behindColon)

/-- A hexadecimal digit. -/
def digit (digitValue : Nat) : Option Ipv6Scan :=
  let s := { s with hexDigits := s.hexDigits + 1 }
  if 4 < s.hexDigits then none
  else
    let s :=
      if s.forward then { s with value := (s.value <<< 4 ||| digitValue) % 2 ^ 16 }
      else { s with value := (s.value ||| digitValue <<< s.powerOf16) % 2 ^ 16, powerOf16 := s.powerOf16 + 4 }
    some { s with pos := s.movePos, previousColon := false }

/-- One round of the loop. -/
def next (text : Bytes) : Option (Option Ipv6Scan) :=
  let c := text.getD s.pos 0
  if c = 58 then s.colon text
  else
    match ipv6DigitValue c with
    | none => some none
    | some d => some (s.digit d)

/-- What follows the loop: the words of the address. -/
def finish (text : Bytes) : Option (Option (List Nat)) :=
  if s.forward && s.colons != 7 then some none
  else if s.previousColon && text.getD s.pos 0 == 58 && s.pos != text.length - 1 then some none
  else if s.b.length ≤ s.i then none
  else some (some (s.b.set s.i s.value))

end Ipv6Scan

/-- The loop, with fuel. -/
def ipv6Loop (text : Bytes) : Nat → Ipv6Scan → Option (Option (List Nat))
  | 0, _ => none
  | fuel + 1, s =>
      if s.pos = s.meetingPosition then s.finish text
      else (s.next text).bind fun r => r.elim (some none) (ipv6Loop text fuel)

/-- The variables at the beginning. -/
def Ipv6Scan.start (text : Bytes) : Ipv6Scan where
  b := List.replicate 8 0
  value := 0
  hexDigits := 0
  colons := 0
  i := 0
  forward := true
  powerOf16 := 0
  previousColon := false
  pos := 0
  meetingPosition := text.length

/-- The words, the higher byte of each in front of the lower one. -/
def ipv6Bytes (words : List Nat) : Ipv6Address :=
  Vector.ofFn fun i =>
    if i.val % 2 = 0 then UInt8.ofNat (words.getD (i.val / 2) 0 >>> 8)
    else UInt8.ofNat (words.getD (i.val / 2) 0 &&& 0xFF)

/-- `pubnub_parse_ipv6_addr`: its result and the address.  `none` where it would write outside of its
    array or not end. -/
def pubnubParseIpv6Addr (addr : CText) (p : Ipv6Address) : Option (Int × Ipv6Address) :=
  if 58 ∉ addr.text then some (-1, p)
  else (ipv6Loop addr.text (2 * addr.text.length + 2) (.start addr.text)).map fun r =>
    r.elim (-1, p) fun words => (0, ipv6Bytes words)

/-- `pubnub_dns_set_primary_server_ipv6_str`. -/
def setPrimaryServerIpv6Str (m : DnsServers) (ipv6Str : CText) : Option (Int × DnsServers) :=
  (pubnubParseIpv6Addr ipv6Str m.primaryIpv6).map fun ret => (ret.1, { m with primaryIpv6 := ret.2 })

/-- `pubnub_dns_set_secondary_server_ipv6_str`. -/
def setSecondaryServerIpv6Str (m : DnsServers) (ipv6Str : CText) : Option (Int × DnsServers) :=
  (pubnubParseIpv6Addr ipv6Str m.secondaryIpv6).map fun ret =>
    (ret.1, { m with secondaryIpv6 := ret.2 })

/-! ## The texts of addresses -/

/-- What may stand between two colons, or beside one. -/
def IsIpv6Group (g : Bytes) : Prop := g.length ≤ 4 ∧ ∀ c ∈ g, IsHexDigit c

/-- What is left of it when so many digits have been read. -/
def EndsIpv6Group (hexDigits : Nat) (g : Bytes) : Prop :=
  hexDigits + g.length ≤ 4 ∧ ∀ c ∈ g, IsHexDigit c

instance (c : UInt8) : Decidable (IsHexDigit c) :=
  inferInstanceAs (Decidable ((48 ≤ c ∧ c ≤ 57) ∨ 65 ≤ c ∧ c ≤ 70 ∨ 97 ≤ c ∧ c ≤ 102))

instance (g : Bytes) : Decidable (IsIpv6Group g) :=
  @instDecidableAnd _ _ (Nat.decLe _ _) (List.decidableBAll _ g)

instance (n : Nat) (g : Bytes) : Decidable (EndsIpv6Group n g) :=
  @instDecidableAnd _ _ (Nat.decLe _ _) (List.decidableBAll _ g)

/-- The number that a group is; no digits are a zero. -/
def groupValue (g : Bytes) : Nat := g.foldl (fun v c => 16 * v + hexDigitValue c) 0

/-- The words of the groups of a text: there are eight of them, or two colons together stand for the
    words that are missing.  Only in front of the first colon and behind the last one a group may be
    empty. -/
inductive Ipv6Words : List Bytes → List Nat → Prop
  | full {groups : List Bytes} (eight : groups.length = 8) (isGroup : ∀ g ∈ groups, IsIpv6Group g)
      (inner : ∀ g ∈ groups.tail.dropLast, g ≠ []) : Ipv6Words groups (groups.map groupValue)
  | short {left right : List Bytes} (left_ne_nil : left ≠ []) (right_ne_nil : right ≠ [])
      (isGroup : ∀ g ∈ left ++ right, IsIpv6Group g) (inner : ∀ g ∈ left.tail, g ≠ [])
      (behind : right = [[]] ∨ ∀ g ∈ right, g ≠ []) (colons : left.length + right.length ≤ 7) :
      Ipv6Words (left ++ [] :: right)
        (left.map groupValue ++ List.replicate (8 - (left.length + right.length)) 0 ++
          right.map groupValue)

/-- The address that a text denotes: its groups have colons between them. -/
def Ipv6Denotes (text : Bytes) (p : Ipv6Address) : Prop := ∃ groups words,
  text = [58].intercalate groups ∧ Ipv6Words groups words ∧
    p.toList = words.flatMap fun w => [UInt8.ofNat (w / 256), UInt8.ofNat (w % 256)]

/-! ## Reading a group -/

lemma ipv6DigitValue_eq (c : UInt8) :
    ipv6DigitValue c = if IsHexDigit c then some (hexDigitValue c) else none := by
  have hupper (h : 97 ≤ c.toNat) : (c - 32).toNat = c.toNat - 32 :=
    UInt8.toNat_sub_of_le _ _ (by rw [UInt8.le_iff_toNat_le]; exact Nat.le_trans (by decide) h)
  simp only [ipv6DigitValue, toupper, IsHexDigit, IsDigit, hexDigitValue, UInt8.le_iff_toNat_le,
    UInt8.reduceToNat]
  split_ifs <;> first | rfl | omega | (congr 1; omega)

lemma hexDigitValue_lt {c : UInt8} (h : IsHexDigit c) : hexDigitValue c < 16 := by
  simp only [IsHexDigit, IsDigit, UInt8.le_iff_toNat_le, UInt8.reduceToNat] at h
  simp only [hexDigitValue, UInt8.le_iff_toNat_le, UInt8.reduceToNat]
  split_ifs <;> omega

lemma foldl_groupValue (g : Bytes) (v : Nat) :
    g.foldl (fun v c => 16 * v + hexDigitValue c) v = v * 16 ^ g.length + groupValue g := by
  induction g generalizing v with
  | nil => simp [groupValue]
  | cons c g ih =>
      rw [groupValue, List.foldl_cons, List.foldl_cons, ih, ih (16 * 0 + _), List.length_cons, pow_succ]
      ring

lemma groupValue_snoc (g : Bytes) (c : UInt8) :
    groupValue (g ++ [c]) = 16 * groupValue g + hexDigitValue c := by
  simp [groupValue]

lemma groupValue_lt {g : Bytes} (h : ∀ c ∈ g, IsHexDigit c) : groupValue g < 16 ^ g.length := by
  induction g using List.reverseRecOn with
  | nil => simp [groupValue]
  | append_singleton g c ih =>
      have hg := ih fun x hx => h x (List.mem_append_left _ hx)
      have hc := hexDigitValue_lt (h c (by simp))
      rw [groupValue_snoc, List.length_append, List.length_singleton, pow_succ]
      omega

/-- A digit behind the ones that have been read. -/
lemma shift_value {v d k : Nat} (hv : v < 16 ^ k) (hk : k < 4) (hd : d < 16) :
    (v <<< 4 ||| d) % 2 ^ 16 = 16 * v + d := by
  have hpow : 16 ^ k ≤ 16 ^ 3 := Nat.pow_le_pow_right (by decide) (by omega)
  rw [← Nat.shiftLeft_add_eq_or_of_lt (show d < 2 ^ 4 from hd), Nat.shiftLeft_eq, Nat.mod_eq_of_lt]
  all_goals omega

/-- A digit in front of them. -/
lemma shift_digit {v d k : Nat} (hv : v < 16 ^ k) (hk : k < 4) (hd : d < 16) :
    (v ||| d <<< (4 * k)) % 2 ^ 16 = v + 16 ^ k * d := by
  have hpow : (16 : Nat) ^ k = 2 ^ (4 * k) := by rw [pow_mul]; rfl
  have hle : 16 ^ k * d ≤ 16 ^ 3 * d := Nat.mul_le_mul_right d (Nat.pow_le_pow_right (by decide) (by omega))
  have hlt : 16 ^ k ≤ 16 ^ 3 := Nat.pow_le_pow_right (by decide) (by omega)
  rw [Nat.or_comm, ← Nat.shiftLeft_add_eq_or_of_lt (hpow ▸ hv), Nat.shiftLeft_eq, ← hpow,
    Nat.mod_eq_of_lt]
  · ring
  · rcases Nat.lt_or_ge k 3 with hk3 | hk3
    · have hle2 : 16 ^ k * d ≤ 16 ^ 2 * d :=
        Nat.mul_le_mul_right d (Nat.pow_le_pow_right (by decide) (by omega))
      have hlt2 : 16 ^ k ≤ 16 ^ 2 := Nat.pow_le_pow_right (by decide) (by omega)
      rw [Nat.mul_comm d]
      omega
    · obtain rfl : k = 3 := by omega
      omega

namespace Ipv6Scan

/-- Where the function stands when it has read a group from the left. -/
def behindGroup (s : Ipv6Scan) (g : Bytes) : Ipv6Scan :=
  { s with
    value := g.foldl (fun v c => 16 * v + hexDigitValue c) s.value
    hexDigits := s.hexDigits + g.length
    pos := s.pos + g.length
    previousColon := s.previousColon && g.isEmpty }

/-- Where it stands when it has read a group from the right. -/
def beforeGroup (s : Ipv6Scan) (g : Bytes) : Ipv6Scan :=
  { s with
    value := s.value + 16 ^ s.hexDigits * groupValue g
    hexDigits := s.hexDigits + g.length
    powerOf16 := s.powerOf16 + 4 * g.length
    pos := s.pos - g.length
    previousColon := s.previousColon && g.isEmpty }

variable (s : Ipv6Scan) (g : Bytes) {c : UInt8}

lemma behindGroup_cons : (s.behindGroup [c]).behindGroup g = s.behindGroup (c :: g) := by
  simp [behindGroup, Nat.add_assoc, Nat.add_comm 1]

lemma beforeGroup_snoc : (s.beforeGroup [c]).beforeGroup g = s.beforeGroup (g ++ [c]) := by
  have hvalue : s.value + 16 ^ s.hexDigits * groupValue [c] + 16 ^ (s.hexDigits + 1) * groupValue g =
      s.value + 16 ^ s.hexDigits * groupValue (g ++ [c]) := by
    rw [groupValue_snoc, pow_succ, groupValue, List.foldl_cons, List.foldl_nil]
    ring
  simp only [beforeGroup, List.length_append, List.length_singleton, mk.injEq, true_and,
    and_true]
  exact ⟨hvalue, by omega, by omega, by simp, by omega⟩

/-- The number that has been read fits its digits. -/
structure Sane : Prop where
  value : s.value < 16 ^ s.hexDigits
  digits : s.hexDigits ≤ 4
  power : s.forward = false → s.powerOf16 = 4 * s.hexDigits

variable {s}

lemma digit_forward (h : s.Sane) (hforward : s.forward = true) (hc : IsHexDigit c) :
    s.digit (hexDigitValue c) = if s.hexDigits < 4 then some (s.behindGroup [c]) else none := by
  simp only [digit, hforward, if_true]
  by_cases hfour : s.hexDigits < 4
  · rw [if_neg (by omega), if_pos hfour, shift_value h.value hfour (hexDigitValue_lt hc)]
    simp [behindGroup, movePos, hforward]
  · rw [if_pos (by omega), if_neg hfour]

lemma digit_backward (h : s.Sane) (hback : s.forward = false) (hc : IsHexDigit c) :
    s.digit (hexDigitValue c) = if s.hexDigits < 4 then some (s.beforeGroup [c]) else none := by
  simp only [digit, hback, if_false, Bool.false_eq_true]
  by_cases hfour : s.hexDigits < 4
  · rw [if_neg (by omega), if_pos hfour, h.power hback, shift_digit h.value hfour (hexDigitValue_lt hc)]
    simp [beforeGroup, movePos, hback, groupValue, h.power hback]
  · rw [if_pos (by omega), if_neg hfour]

lemma Sane.behindGroup (h : s.Sane) (hforward : s.forward = true) (hfour : s.hexDigits < 4)
    (hc : IsHexDigit c) : (s.behindGroup [c]).Sane := by
  have hd := hexDigitValue_lt hc
  have hv := h.value
  refine ⟨?_, hfour, fun hb => absurd (hforward.symm.trans hb) nofun⟩
  show 16 * s.value + hexDigitValue c < 16 ^ (s.hexDigits + 1)
  rw [pow_succ]
  omega

lemma Sane.beforeGroup (h : s.Sane) (hback : s.forward = false) (hfour : s.hexDigits < 4)
    (hc : IsHexDigit c) : (s.beforeGroup [c]).Sane := by
  have hd := hexDigitValue_lt hc
  have hv := h.value
  have hle : 16 ^ s.hexDigits * hexDigitValue c ≤ 16 ^ s.hexDigits * 15 :=
    Nat.mul_le_mul_left _ (by omega)
  refine ⟨?_, hfour, fun _ => ?_⟩
  · show s.value + 16 ^ s.hexDigits * (16 * 0 + hexDigitValue c) < 16 ^ (s.hexDigits + 1)
    rw [Nat.mul_zero, Nat.zero_add, pow_succ]
    omega
  · show s.powerOf16 + 4 * 1 = 4 * (s.hexDigits + 1)
    rw [h.power hback]
    omega

end Ipv6Scan

variable {text pre g post : Bytes} {s : Ipv6Scan}

/-- **A group, from the left.** -/
lemma ipv6Loop_forward (h : s.Sane) (hforward : s.forward = true) (htext : text = pre ++ g ++ post)
    (hpos : s.pos = pre.length) (hmeet : s.meetingPosition = text.length) (hcolon : 58 ∉ g) (fuel : Nat) :
    ipv6Loop text (fuel + g.length) s =
      if EndsIpv6Group s.hexDigits g then ipv6Loop text fuel (s.behindGroup g)
      else some none := by
  induction g generalizing pre s with
  | nil =>
      rw [if_pos ⟨h.digits, by simp⟩]
      simp [Ipv6Scan.behindGroup]
  | cons c g ih =>
      have hlength := congrArg List.length htext
      simp only [List.length_append, List.length_cons] at hlength
      have hget : text.getD s.pos 0 = c := by
        rw [htext, hpos]
        simp
      have hc : c ≠ 58 := fun h => hcolon (h ▸ List.mem_cons_self)
      rw [List.length_cons, ← Nat.add_assoc, ipv6Loop, if_neg (by omega), Ipv6Scan.next]
      simp only [hget, if_neg hc, ipv6DigitValue_eq]
      by_cases hhex : IsHexDigit c
      · simp only [if_pos hhex, Option.bind_some, Ipv6Scan.digit_forward h hforward hhex]
        by_cases hfour : s.hexDigits < 4
        · rw [if_pos hfour, Option.elim_some, @ih (pre ++ [c]) _ (h.behindGroup hforward hfour hhex) hforward
            (by rw [htext]; simp) (by simp [Ipv6Scan.behindGroup, hpos]) hmeet
            fun h => hcolon (List.mem_cons_of_mem c h), Ipv6Scan.behindGroup_cons]
          refine if_congr ?_ rfl rfl
          simp only [EndsIpv6Group, Ipv6Scan.behindGroup, List.length_cons, List.length_nil, Nat.zero_add,
            List.forall_mem_cons, hhex, true_and, Nat.add_assoc, Nat.add_comm 1]
        · rw [if_neg hfour, if_neg (fun h => hfour (Nat.lt_of_lt_of_le (by simp) h.1))]
          rfl
      · rw [if_neg hhex, if_neg (fun h => hhex (h.2 c List.mem_cons_self))]
        rfl

/-- **A group, from the right.** -/
lemma ipv6Loop_backward (h : s.Sane) (hback : s.forward = false) (htext : text = pre ++ g ++ post)
    (hpos : s.pos + 1 = pre.length + g.length) (hmeet : s.meetingPosition + 1 ≤ pre.length)
    (hcolon : 58 ∉ g) (fuel : Nat) :
    ipv6Loop text (fuel + g.length) s =
      if EndsIpv6Group s.hexDigits g then ipv6Loop text fuel (s.beforeGroup g)
      else some none := by
  induction g using List.reverseRecOn generalizing post s with
  | nil =>
      rw [if_pos ⟨h.digits, by simp⟩]
      simp [Ipv6Scan.beforeGroup, groupValue]
  | append_singleton g c ih =>
      simp only [List.length_append, List.length_singleton] at hpos
      have hget : text.getD s.pos 0 = c := by
        rw [htext, show s.pos = pre.length + g.length by omega]
        simp
      have hc : c ≠ 58 := fun h => hcolon (h ▸ by simp)
      rw [List.length_append, List.length_singleton, ← Nat.add_assoc, ipv6Loop, if_neg (by omega),
        Ipv6Scan.next]
      simp only [hget, if_neg hc, ipv6DigitValue_eq]
      by_cases hhex : IsHexDigit c
      · simp only [if_pos hhex, Option.bind_some, Ipv6Scan.digit_backward h hback hhex]
        by_cases hfour : s.hexDigits < 4
        · rw [if_pos hfour, Option.elim_some, @ih (c :: post) _ (h.beforeGroup hback hfour hhex) hback
            (by rw [htext]; simp) (by show s.pos - 1 + 1 = _; omega) hmeet
            fun h => hcolon (List.mem_append_left _ h), Ipv6Scan.beforeGroup_snoc]
          refine if_congr ?_ rfl rfl
          simp only [EndsIpv6Group, Ipv6Scan.beforeGroup, List.length_singleton, List.length_append,
            List.forall_mem_append, List.forall_mem_singleton, hhex, and_true, Nat.add_assoc, Nat.add_comm 1]
        · rw [if_neg hfour, if_neg (fun h => hfour (Nat.lt_of_lt_of_le (by simp) h.1))]
          rfl
      · rw [if_neg hhex, if_neg (fun h => hhex (h.2 c (by simp)))]
        rfl

/-! ## The groups -/

/-- What the function makes of the groups that are left when it comes from the right: `right` are the
    words behind them, `left` those in front of the two colons. -/
def ipv6Backwards (left right : List Nat) : List Bytes → Option (List Nat)
  | [] => none
  | [g] =>
      if IsIpv6Group g ∧ (g ≠ [] ∨ right = []) then
        some (left ++ List.replicate (7 - (left.length + right.length)) 0 ++ groupValue g :: right)
      else none
  | g :: next :: groups =>
      if IsIpv6Group g ∧ g ≠ [] ∧ left.length + right.length < 6 then
        ipv6Backwards left (groupValue g :: right) (next :: groups)
      else none

/-- What it makes of the groups behind the words `left` when it comes from the left. -/
def ipv6Forwards (left : List Nat) : List Bytes → Option (List Nat)
  | [] => none
  | [g] => if IsIpv6Group g ∧ left.length = 7 then some (left ++ [groupValue g]) else none
  | g :: next :: groups =>
      if IsIpv6Group g ∧ left.length < 7 then
        if g = [] ∧ left ≠ [] then ipv6Backwards left [] (next :: groups).reverse
        else ipv6Forwards (left ++ [groupValue g]) (next :: groups)
      else none

lemma set_behind_zeros (left right : List Nat) (n v : Nat) :
    (left ++ List.replicate (n + 1) 0 ++ right).set (left.length + n) v =
      left ++ List.replicate n 0 ++ v :: right := by
  rw [List.replicate_succ', List.set_append_left _ _ (by simp), List.set_append_right _ _ (by omega),
    List.set_append_right _ _ (by simp)]
  simp

lemma set_zero (left : List Nat) (n v : Nat) :
    (left ++ List.replicate (n + 1) 0).set left.length v = left ++ [v] ++ List.replicate n 0 := by
  rw [List.replicate_succ, List.set_append_right _ _ (Nat.le_refl _)]
  simp

lemma intercalate_snoc (sep g : Bytes) {l : List Bytes} (h : l ≠ []) :
    sep.intercalate (l ++ [g]) = sep.intercalate l ++ sep ++ g := by
  induction l with
  | nil => exact absurd rfl h
  | cons a l ih =>
      cases l with
      | nil => simp [List.intercalate_cons_cons]
      | cons b l =>
          rw [List.cons_append, List.cons_append, List.intercalate_cons_cons, ← List.cons_append,
            ih (by simp), List.intercalate_cons_cons]
          simp

namespace Ipv6Scan

/-- The variables at the beginning of a group, from the left. -/
def atLeft (left : List Nat) (pos length : Nat) : Ipv6Scan where
  b := left ++ List.replicate (8 - left.length) 0
  value := 0
  hexDigits := 0
  colons := left.length
  i := left.length
  forward := true
  powerOf16 := 0
  previousColon := !left.isEmpty
  pos := pos
  meetingPosition := length

/-- The variables at the end of a group, from the right. -/
def atRight (left right : List Nat) (pos meet : Nat) : Ipv6Scan where
  b := left ++ List.replicate (8 - (left.length + right.length)) 0 ++ right
  value := 0
  hexDigits := 0
  colons := left.length + 1 + right.length
  i := 7 - right.length
  forward := false
  powerOf16 := 0
  previousColon := true
  pos := pos
  meetingPosition := meet

lemma sane_atLeft (left : List Nat) (pos length : Nat) : (atLeft left pos length).Sane :=
  ⟨Nat.one_pos, Nat.zero_le 4, nofun⟩

lemma sane_atRight (left right : List Nat) (pos meet : Nat) : (atRight left right pos meet).Sane :=
  ⟨Nat.one_pos, Nat.zero_le 4, fun _ => rfl⟩

lemma start_eq (text : Bytes) : start text = atLeft [] 0 text.length := rfl

variable {text g : Bytes} {left right : List Nat} {pos meet : Nat}

/-- A colon in front of a group. -/
lemma colon_beforeGroup (hroom : left.length + right.length ≤ 6) :
    ((atRight left right (pos + g.length) meet).beforeGroup g).colon text =
      if g ≠ [] ∧ left.length + right.length < 6 then
        some (some (atRight left (groupValue g :: right) (pos - 1) meet))
      else some none := by
  obtain ⟨n, hn⟩ : ∃ n, 8 - (left.length + right.length) = n + 1 :=
    ⟨_, (Nat.succ_pred (by omega)).symm⟩
  have hi : 7 - right.length = left.length + n := by omega
  have hset := set_behind_zeros left right n (groupValue g)
  simp only [colon, beforeGroup, atRight, hn, hi, Nat.zero_add, pow_zero, Nat.one_mul, Bool.true_and, hset,
    Bool.false_eq_true, if_false]
  by_cases hfew : left.length + right.length < 6
  · rw [if_neg (by omega), if_neg (by simp; omega)]
    cases g with
    | nil => simp
    | cons c g =>
        simp only [List.isEmpty_cons, Bool.false_eq_true, if_false, movePos, moveIndex, behindColon,
          Nat.add_sub_cancel]
        rw [if_pos ⟨by simp, hfew⟩]
        simp only [List.length_cons, Option.some.injEq, mk.injEq, and_true, true_and]
        have hzeros : 8 - (left.length + (right.length + 1)) = n := by omega
        exact ⟨by rw [hzeros], by omega, by omega⟩
  · rw [if_pos (by omega), if_neg (fun h => hfew h.2)]

/-- A colon behind a group. -/
lemma colon_behindGroup (hroom : left.length ≤ 7) :
    ((atLeft left pos text.length).behindGroup g).colon text =
      if left.length < 7 then
        if g = [] ∧ left ≠ [] then some (some (atRight left [] (text.length - 1) pos))
        else some (some (atLeft (left ++ [groupValue g]) (pos + g.length + 1) text.length))
      else some none := by
  obtain ⟨n, hn⟩ : ∃ n, 8 - left.length = n + 1 := ⟨_, (Nat.succ_pred (by omega)).symm⟩
  have hset := set_zero left n (groupValue g)
  simp only [groupValue] at hset
  simp only [colon, behindGroup, atLeft, hn, hset, if_true]
  by_cases hfew : left.length < 7
  · rw [if_neg (by omega), if_neg (by simp), if_pos hfew]
    by_cases hpair : g = [] ∧ left ≠ []
    · obtain ⟨rfl, hleft⟩ := hpair
      simp only [List.isEmpty_nil, Bool.and_true, List.foldl_nil]
      rw [if_pos (by simpa using hleft), if_pos (by simpa using hleft)]
      simp only [behindColon, atRight, List.length_nil, List.append_nil, Nat.add_zero, hn,
        List.replicate_succ, List.append_assoc, List.singleton_append]
    · rw [if_neg hpair, if_neg (by simpa [and_comm] using hpair)]
      have hzeros : 8 - (left.length + 1) = n := by omega
      simp only [behindColon, movePos, moveIndex, if_true, List.length_append, List.length_singleton, hzeros,
        Option.some.injEq, mk.injEq, and_true, true_and, groupValue]
      exact ⟨by omega, by simp⟩
  · rw [if_pos (by omega), if_neg hfew]

/-- After the last group from the right. -/
lemma finish_beforeGroup (hroom : left.length + right.length ≤ 6) (hcolon : text.getD pos 0 = 58)
    (hlast : pos = text.length - 1 ↔ g = [] ∧ right = []) :
    ((atRight left right (pos + g.length) meet).beforeGroup g).finish text =
      some (if g ≠ [] ∨ right = [] then
        some (left ++ List.replicate (7 - (left.length + right.length)) 0 ++ groupValue g :: right)
      else none) := by
  obtain ⟨n, hn⟩ : ∃ n, 8 - (left.length + right.length) = n + 1 :=
    ⟨_, (Nat.succ_pred (by omega)).symm⟩
  have hi : 7 - right.length = left.length + n := by omega
  have hzeros : 7 - (left.length + right.length) = n := by omega
  have hset := set_behind_zeros left right n (groupValue g)
  simp only [finish, beforeGroup, atRight, hn, hi, hzeros, Nat.zero_add, pow_zero, Nat.one_mul, Bool.true_and,
    Bool.false_and, Bool.false_eq_true, if_false, hset, Nat.add_sub_cancel, hcolon]
  have hbad : (g.isEmpty && (58 : UInt8) == 58 && pos != text.length - 1) = true ↔
      ¬(g ≠ [] ∨ right = []) := by
    simp only [Bool.and_eq_true, List.isEmpty_iff, bne_iff_ne, ne_eq, hlast, BEq.rfl, and_true]
    tauto
  by_cases hgood : g ≠ [] ∨ right = []
  · rw [if_neg (fun h => hbad.mp h hgood), if_neg (by simp; omega), if_pos hgood]
  · rw [if_pos (hbad.mpr hgood), if_neg hgood]

/-- After the last group from the left. -/
lemma finish_behindGroup (hend : pos + g.length = text.length) :
    ((atLeft left pos text.length).behindGroup g).finish text =
      some (if left.length = 7 then some (left ++ [groupValue g]) else none) := by
  have hget : text.getD (pos + g.length) 0 = 0 := by
    rw [hend]
    simp
  have hnil : ((0 : UInt8) == 58) = false := rfl
  by_cases hseven : left.length = 7
  · have hset := set_zero left 0 (groupValue g)
    simp only [groupValue, List.replicate_zero, List.append_nil] at hset
    have hone : 8 - left.length = 0 + 1 := by omega
    simp only [finish, behindGroup, atLeft, hget, hnil, Bool.and_false, Bool.false_and, Bool.true_and,
      Bool.false_eq_true, if_false, hone, hset, if_pos hseven, groupValue]
    rw [if_neg (by simpa using hseven), if_neg (by simp)]
  · simp only [finish, behindGroup, atLeft, Bool.true_and, if_neg hseven]
    rw [if_pos (by simpa using hseven)]

end Ipv6Scan

open Ipv6Scan

variable {left right : List Nat} {groups : List Bytes} {meet fuel : Nat}

/-- **A group at the beginning of the loop, from the right.** -/
lemma ipv6Loop_group_atRight (htext : text = pre ++ g ++ post) (hmeet : meet + 1 ≤ pre.length)
    (hcolon : 58 ∉ g) :
    ipv6Loop text (fuel + g.length) (atRight left right (pre.length - 1 + g.length) meet) =
      if IsIpv6Group g then
        ipv6Loop text fuel ((atRight left right (pre.length - 1 + g.length) meet).beforeGroup g)
      else some none := by
  have hpos : pre.length - 1 + g.length + 1 = pre.length + g.length := by omega
  rw [ipv6Loop_backward (sane_atRight _ _ _ _) rfl htext hpos hmeet hcolon]
  exact if_congr (by simp only [IsIpv6Group, EndsIpv6Group, atRight, Nat.zero_add]) rfl rfl

/-- **The loop, from the right.** -/
lemma ipv6Loop_atRight (htext : text = pre ++ [58] ++ [58].intercalate groups.reverse ++ post)
    (hne : groups ≠ []) (hcolon : ∀ g ∈ groups, 58 ∉ g) (hpost : post = [] ↔ right = [])
    (hroom : left.length + right.length ≤ 6)
    (hfuel : ([58].intercalate groups.reverse).length < fuel) :
    ipv6Loop text fuel
        (atRight left right (pre.length + ([58].intercalate groups.reverse).length) pre.length) =
      some (ipv6Backwards left right groups) := by
  induction groups generalizing right post fuel with
  | nil => exact absurd rfl hne
  | cons g groups ih =>
      have hg : 58 ∉ g := hcolon g List.mem_cons_self
      cases groups with
      | nil =>
          simp only [List.reverse_singleton, List.intercalate_singleton] at htext hfuel ⊢
          obtain ⟨k, rfl⟩ : ∃ k, fuel = k + 1 + g.length := ⟨fuel - 1 - g.length, by omega⟩
          have hgroup := @ipv6Loop_group_atRight text (pre ++ [58]) g post left right pre.length (k + 1)
            htext (by simp) hg
          rw [List.length_append, List.length_singleton, Nat.add_sub_cancel] at hgroup
          rw [hgroup, ipv6Backwards]
          by_cases hok : IsIpv6Group g
          · have hlast : pre.length = text.length - 1 ↔ g = [] ∧ right = [] := by
              rw [← hpost, htext]
              simp only [List.length_append, List.length_singleton, ← List.length_eq_zero_iff]
              omega
            rw [if_pos hok, ipv6Loop, if_pos (by simp [beforeGroup, atRight]),
              finish_beforeGroup hroom (by rw [htext]; simp) hlast]
            simp only [hok, true_and]
          · rw [if_neg hok, if_neg (fun h => hok h.1)]
      | cons next groups =>
          have hjoin : [58].intercalate (g :: next :: groups).reverse =
              [58].intercalate (next :: groups).reverse ++ [58] ++ g := by
            rw [List.reverse_cons, intercalate_snoc _ _ (by simp)]
          rw [hjoin] at htext hfuel ⊢
          generalize hj : [58].intercalate (next :: groups).reverse = join at *
          simp only [List.length_append, List.length_singleton] at hfuel ⊢
          obtain ⟨k, rfl⟩ : ∃ k, fuel = k + 1 + g.length := ⟨fuel - 1 - g.length, by omega⟩
          have hgroup := @ipv6Loop_group_atRight text (pre ++ [58] ++ join ++ [58]) g post left right
            pre.length (k + 1) (by rw [htext]; simp) (by simp) hg
          simp only [List.length_append, List.length_singleton, Nat.add_sub_cancel] at hgroup
          have hat : pre.length + (join.length + 1 + g.length) =
              pre.length + 1 + join.length + g.length := by omega
          rw [hat, hgroup, ipv6Backwards]
          by_cases hok : IsIpv6Group g
          · have hget : text.getD (pre.length + 1 + join.length) 0 = 58 := by
              have hsplit : text = pre ++ [58] ++ join ++ 58 :: (g ++ post) := htext.trans (by simp)
              have hlength : pre.length + 1 + join.length = (pre ++ [58] ++ join).length := by
                simp
                omega
              rw [hsplit, hlength, List.getD_eq_getElem?_getD, List.getElem?_append_right (Nat.le_refl _),
                Nat.sub_self]
              rfl
            have hpos : ((atRight left right (pre.length + 1 + join.length + g.length)
                pre.length).beforeGroup g).pos = pre.length + 1 + join.length := Nat.add_sub_cancel _ _
            rw [if_pos hok, ipv6Loop, if_neg (by simp [beforeGroup, atRight]; omega), Ipv6Scan.next]
            rw [hpos, hget, if_pos rfl, colon_beforeGroup hroom]
            simp only [hok, true_and]
            by_cases hnext : g ≠ [] ∧ left.length + right.length < 6
            · rw [if_pos hnext, if_pos hnext]
              have hrest := @ih (58 :: g ++ post) (groupValue g :: right) k (by rw [htext]; simp)
                (by simp) (fun x hx => hcolon x (List.mem_cons_of_mem g hx)) (by simp) (by simp; omega) (by omega)
              rw [Option.bind_some, Option.elim_some, ← hrest]
              congr 2
              omega
            · rw [if_neg hnext, if_neg hnext]
              rfl
          · rw [if_neg hok, if_neg (fun h => hok h.1)]

/-- **A group at the beginning of the loop, from the left.** -/
lemma ipv6Loop_group_atLeft (htext : text = pre ++ g ++ post) (hcolon : 58 ∉ g) :
    ipv6Loop text (fuel + g.length) (atLeft left pre.length text.length) =
      if IsIpv6Group g then ipv6Loop text fuel ((atLeft left pre.length text.length).behindGroup g)
      else some none := by
  rw [ipv6Loop_forward (sane_atLeft _ _ _) rfl htext rfl rfl hcolon]
  exact if_congr (by simp only [IsIpv6Group, EndsIpv6Group, atLeft, Nat.zero_add]) rfl rfl

/-- **The loop, from the left.** -/
lemma ipv6Loop_atLeft (htext : text = pre ++ [58].intercalate groups) (hne : groups ≠ [])
    (hcolon : ∀ g ∈ groups, 58 ∉ g) (hroom : left.length ≤ 7)
    (hfuel : ([58].intercalate groups).length < fuel) :
    ipv6Loop text fuel (atLeft left pre.length text.length) = some (ipv6Forwards left groups) := by
  induction groups generalizing left pre fuel with
  | nil => exact absurd rfl hne
  | cons g groups ih =>
      have hg : 58 ∉ g := hcolon g List.mem_cons_self
      cases groups with
      | nil =>
          rw [List.intercalate_singleton] at htext hfuel
          obtain ⟨k, rfl⟩ : ∃ k, fuel = k + 1 + g.length := ⟨fuel - 1 - g.length, by omega⟩
          have hend : pre.length + g.length = text.length := by rw [htext, List.length_append]
          rw [ipv6Loop_group_atLeft (htext.trans (List.append_nil _).symm) hg, ipv6Forwards]
          by_cases hok : IsIpv6Group g
          · rw [if_pos hok, ipv6Loop, if_pos (by exact hend), finish_behindGroup hend]
            simp only [hok, true_and]
          · rw [if_neg hok, if_neg (fun h => hok h.1)]
      | cons next groups =>
          rw [List.intercalate_cons_cons] at htext hfuel
          generalize hj : [58].intercalate (next :: groups) = join at *
          simp only [List.length_append, List.length_singleton] at hfuel
          have hlength := congrArg List.length htext
          simp only [List.length_append, List.length_singleton] at hlength
          obtain ⟨k, rfl⟩ : ∃ k, fuel = k + 1 + g.length := ⟨fuel - 1 - g.length, by omega⟩
          rw [ipv6Loop_group_atLeft (htext.trans (by simp : _ = pre ++ g ++ ([58] ++ join))) hg, ipv6Forwards]
          by_cases hok : IsIpv6Group g
          · have hpos : ((atLeft left pre.length text.length).behindGroup g).pos =
                pre.length + g.length := rfl
            have hget : text.getD (pre.length + g.length) 0 = 58 := by
              rw [htext]
              simp
            rw [if_pos hok, ipv6Loop, if_neg (by show ¬ _ = text.length; rw [hpos]; omega),
              Ipv6Scan.next, hpos, hget, if_pos rfl, colon_behindGroup hroom]
            simp only [hok, true_and]
            by_cases hfew : left.length < 7
            · rw [if_pos hfew, if_pos hfew]
              by_cases hpair : g = [] ∧ left ≠ []
              · rw [if_pos hpair, if_pos hpair, Option.bind_some, Option.elim_some]
                obtain ⟨rfl, _⟩ := hpair
                have hright := @ipv6Loop_atRight text pre [] left [] (next :: groups).reverse k
                  (by rw [htext, List.reverse_reverse, hj]; simp) (by simp)
                  (fun x hx => hcolon x (List.mem_cons_of_mem _ (List.mem_reverse.mp hx))) (by simp)
                  (by simp; omega) (by rw [List.reverse_reverse, hj]; simp at hfuel; omega)
                rw [List.reverse_reverse, hj] at hright
                rw [← hright]
                congr 2
                simp at hlength
                omega
              · rw [if_neg hpair, if_neg hpair, Option.bind_some, Option.elim_some]
                have hleft := @ih (pre ++ g ++ [58]) (left ++ [groupValue g]) k (by rw [htext]; simp)
                  (by simp) (fun x hx => hcolon x (List.mem_cons_of_mem g hx)) (by simp; omega) (by omega)
                rw [← hleft]
                simp [Nat.add_assoc]
            · rw [if_neg hfew, if_neg hfew]
              rfl
          · rw [if_neg hok, if_neg (fun h => hok h.1)]

/-! ## What is accepted -/

variable {words : List Nat}

lemma ipv6Backwards_eq_some (hroom : left.length + right.length ≤ 6) :
    ipv6Backwards left right groups = some words ↔
      groups ≠ [] ∧ (∀ g ∈ groups, IsIpv6Group g) ∧
        (right = [] ∧ groups = [[]] ∨ ∀ g ∈ groups, g ≠ []) ∧
        left.length + right.length + groups.length ≤ 7 ∧
        words = left ++ List.replicate (8 - (left.length + right.length + groups.length)) 0 ++
          (groups.reverse.map groupValue ++ right) := by
  induction groups generalizing right with
  | nil => simp [ipv6Backwards]
  | cons g groups ih =>
      cases groups with
      | nil =>
          have hzeros : 8 - (left.length + right.length + 1) = 7 - (left.length + right.length) := by omega
          simp only [ipv6Backwards, Option.ite_none_right_eq_some, Option.some.injEq, ne_eq,
            List.forall_mem_singleton, List.length_singleton, List.reverse_singleton, List.map_singleton,
            List.singleton_append, List.cons_ne_nil, not_false_eq_true, true_and, hzeros, List.cons.injEq,
            and_true, eq_comm (a := words)]
          constructor
          · rintro ⟨⟨hg, hgood⟩, rfl⟩
            refine ⟨hg, ?_, by omega, rfl⟩
            by_cases hnil : g = []
            · exact .inl ⟨hgood.resolve_left (absurd hnil), hnil⟩
            · exact .inr hnil
          · rintro ⟨hg, hgood, _, rfl⟩
            exact ⟨⟨hg, hgood.symm.imp id And.left⟩, rfl⟩
      | cons next groups =>
          rw [ipv6Backwards, Option.ite_none_right_eq_some]
          constructor
          · rintro ⟨⟨hg, hnil, hfew⟩, hrest⟩
            rw [ih (by simp; omega)] at hrest
            obtain ⟨_, hgroups, hgood, hseven, rfl⟩ := hrest
            simp only [List.length_cons] at hseven
            refine ⟨by simp, List.forall_mem_cons.mpr ⟨hg, hgroups⟩, .inr ?_, by simp; omega, ?_⟩
            · refine List.forall_mem_cons.mpr ⟨hnil, ?_⟩
              exact hgood.resolve_left (fun h => absurd h.1 (by simp))
            · simp [Nat.add_assoc, Nat.add_comm 1]
          · rintro ⟨_, hgroups, hgood, hseven, rfl⟩
            obtain ⟨hg, hgroups⟩ := List.forall_mem_cons.mp hgroups
            obtain ⟨hnil, hgood⟩ := List.forall_mem_cons.mp
              (hgood.resolve_left (fun h => absurd h.2 (by simp)))
            simp only [List.length_cons] at hseven
            refine ⟨⟨hg, hnil, by omega⟩, (ih (by simp; omega)).mpr ?_⟩
            refine ⟨by simp, hgroups, .inr hgood, by simp; omega, ?_⟩
            simp [Nat.add_assoc, Nat.add_comm 1]

/-- What is accepted behind the words `left`. -/
def Ipv6Rest (left : List Nat) (groups : List Bytes) (words : List Nat) : Prop :=
  (left.length + groups.length = 8 ∧ (∀ g ∈ groups, IsIpv6Group g) ∧
      (∀ g ∈ groups.dropLast, g ≠ []) ∧ words = left ++ groups.map groupValue) ∨
    ∃ front back, groups = front ++ [] :: back ∧ back ≠ [] ∧
      (∀ g ∈ front ++ back, IsIpv6Group g) ∧ (∀ g ∈ front, g ≠ []) ∧ (back = [[]] ∨ ∀ g ∈ back, g ≠ []) ∧
      left.length + front.length + back.length ≤ 7 ∧
      words = left ++ front.map groupValue ++
        List.replicate (8 - (left.length + front.length + back.length)) 0 ++ back.map groupValue

lemma Ipv6Rest.room (h : Ipv6Rest left groups words) (htwo : 2 ≤ groups.length) : left.length < 7 := by
  obtain ⟨height, _⟩ | ⟨front, back, _, hback, _, _, _, hseven, _⟩ := h
  · omega
  · have hpos := List.length_pos_of_ne_nil hback
    omega

/-- A group in front of the two colons, if there are any. -/
lemma ipv6Rest_cons (hg : g ≠ []) (hne : groups ≠ []) :
    Ipv6Rest left (g :: groups) words ↔
      IsIpv6Group g ∧ Ipv6Rest (left ++ [groupValue g]) groups words := by
  constructor
  · rintro (⟨height, hgroups, hinner, rfl⟩ |
      ⟨front, back, hsplit, hback, hgroups, hfront, hgood, hseven, rfl⟩)
    · rw [List.dropLast_cons_of_ne_nil hne] at hinner
      obtain ⟨hok, hgroups⟩ := List.forall_mem_cons.mp hgroups
      refine ⟨hok, .inl ⟨?_, hgroups, (List.forall_mem_cons.mp hinner).2, by simp⟩⟩
      simp at height ⊢
      omega
    · cases front with
      | nil => exact absurd (List.cons.inj hsplit).1 hg
      | cons x front =>
          obtain ⟨rfl, rfl⟩ := List.cons.inj hsplit
          obtain ⟨hok, hgroups⟩ := List.forall_mem_cons.mp hgroups
          obtain ⟨_, hfront⟩ := List.forall_mem_cons.mp hfront
          refine ⟨hok, .inr ⟨front, back, rfl, hback, hgroups, hfront, hgood, ?_, ?_⟩⟩
          · simp at hseven ⊢
            omega
          · simp [Nat.add_assoc, Nat.add_comm 1]
  · rintro ⟨hok, ⟨height, hgroups, hinner, rfl⟩ |
      ⟨front, back, rfl, hback, hgroups, hfront, hgood, hseven, rfl⟩⟩
    · refine .inl ⟨?_, List.forall_mem_cons.mpr ⟨hok, hgroups⟩, ?_, by simp⟩
      · simp at height ⊢
        omega
      · rw [List.dropLast_cons_of_ne_nil hne]
        exact List.forall_mem_cons.mpr ⟨hg, hinner⟩
    · refine .inr ⟨g :: front, back, rfl, hback, List.forall_mem_cons.mpr ⟨hok, hgroups⟩,
        List.forall_mem_cons.mpr ⟨hg, hfront⟩, hgood, ?_, ?_⟩
      · simp at hseven ⊢
        omega
      · simp [Nat.add_assoc, Nat.add_comm 1]

/-- The two colons. -/
lemma ipv6Rest_nil_cons (hne : groups ≠ []) :
    Ipv6Rest left ([] :: groups) words ↔
      (∀ g ∈ groups, IsIpv6Group g) ∧ (groups = [[]] ∨ ∀ g ∈ groups, g ≠ []) ∧
        left.length + groups.length ≤ 7 ∧
        words = left ++ List.replicate (8 - (left.length + groups.length)) 0 ++ groups.map groupValue := by
  constructor
  · rintro (⟨_, _, hinner, _⟩ |
      ⟨front, back, hsplit, hback, hgroups, hfront, hgood, hseven, rfl⟩)
    · rw [List.dropLast_cons_of_ne_nil hne] at hinner
      exact absurd rfl (hinner [] List.mem_cons_self)
    · cases front with
      | nil =>
          obtain rfl := (List.cons.inj hsplit).2
          exact ⟨hgroups, hgood, by simpa using hseven, by simp⟩
      | cons x front =>
          obtain rfl := (List.cons.inj hsplit).1
          exact absurd rfl (hfront [] List.mem_cons_self)
  · rintro ⟨hgroups, hgood, hseven, rfl⟩
    exact .inr ⟨[], groups, rfl, hne, hgroups, by simp, hgood, by simpa using hseven, by simp⟩

lemma ipv6Forwards_eq_some (hleft : left ≠ []) (hroom : left.length ≤ 7) :
    ipv6Forwards left groups = some words ↔ Ipv6Rest left groups words := by
  induction groups generalizing left with
  | nil =>
      simp only [ipv6Forwards, Ipv6Rest]
      simp
      omega
  | cons g groups ih =>
      cases groups with
      | nil =>
          rw [ipv6Forwards, Option.ite_none_right_eq_some, Option.some.injEq]
          constructor
          · rintro ⟨⟨hg, hseven⟩, rfl⟩
            exact .inl ⟨by simp [hseven], by simpa using hg, by simp, by simp⟩
          · rintro (⟨height, hg, _, rfl⟩ | ⟨front, back, hgroups, hback, _⟩)
            · exact ⟨⟨by simpa using hg, by simpa using height⟩, by simp⟩
            · have hlength := congrArg List.length hgroups
              have hpos := List.length_pos_of_ne_nil hback
              simp at hlength
              omega
      | cons next groups =>
          rw [ipv6Forwards, Option.ite_none_right_eq_some]
          by_cases hfew : left.length < 7
          · by_cases hg : g = []
            · subst hg
              rw [if_pos ⟨rfl, hleft⟩, ipv6Backwards_eq_some (by simp; omega),
                ipv6Rest_nil_cons (by simp)]
              simp [hfew, IsIpv6Group, -List.reverse_cons]
            · rw [if_neg (fun h => hg h.1), ih (by simp) (by simp; omega), ipv6Rest_cons hg (by simp),
                and_iff_left hfew]
          · exact ⟨fun h => absurd h.1.2 hfew, fun h => absurd (h.room (by simp)) hfew⟩

lemma ipv6Words_cons :
    Ipv6Words (g :: groups) words ↔ IsIpv6Group g ∧ Ipv6Rest [groupValue g] groups words := by
  constructor
  · generalize hall : g :: groups = all
    rintro (⟨height, hgroups, hinner⟩ |
      @⟨front, back, hfront, hback, hgroups, hinner, hgood, hseven⟩)
    · subst hall
      obtain ⟨hok, hgroups⟩ := List.forall_mem_cons.mp hgroups
      exact ⟨hok, .inl ⟨by simpa [Nat.add_comm] using height, hgroups, hinner, rfl⟩⟩
    · cases front with
      | nil => exact absurd rfl hfront
      | cons x front =>
          obtain ⟨rfl, rfl⟩ := List.cons.inj hall
          obtain ⟨hok, hgroups⟩ := List.forall_mem_cons.mp hgroups
          refine ⟨hok, .inr ⟨front, back, rfl, hback, hgroups, hinner, hgood, ?_, ?_⟩⟩
          · simpa [Nat.add_comm 1] using hseven
          · simp [Nat.add_comm 1]
  · rintro ⟨hok, ⟨height, hgroups, hinner, rfl⟩ |
      ⟨front, back, rfl, hback, hgroups, hfront, hgood, hseven, rfl⟩⟩
    · exact .full (by simpa [Nat.add_comm] using height) (List.forall_mem_cons.mpr ⟨hok, hgroups⟩) hinner
    · have hshort := @Ipv6Words.short (g :: front) back (by simp) hback
        (List.forall_mem_cons.mpr ⟨hok, hgroups⟩) hfront hgood (by simpa [Nat.add_comm 1] using hseven)
      simpa [Nat.add_comm 1] using hshort

/-- What the function accepts. -/
lemma ipv6Forwards_nil_eq_some : ipv6Forwards [] groups = some words ↔ Ipv6Words groups words := by
  cases groups with
  | nil =>
      refine ⟨nofun, fun h => ?_⟩
      generalize hall : ([] : List Bytes) = all at h
      cases h with
      | full height => simp [← hall] at height
      | short => simp at hall
  | cons g groups =>
      rw [ipv6Words_cons]
      cases groups with
      | nil =>
          refine ⟨fun h => ?_, fun h => ?_⟩
          · simp [ipv6Forwards] at h
          · obtain ⟨_, ⟨height, _⟩ | ⟨front, back, hsplit, _⟩⟩ := h
            · simp at height
            · simp at hsplit
      | cons next groups =>
          rw [ipv6Forwards, Option.ite_none_right_eq_some, if_neg (by simp), List.nil_append,
            ipv6Forwards_eq_some (by simp) (by simp)]
          exact and_congr_left' (and_iff_left (Nat.zero_lt_succ 6))

lemma Ipv6Words.length_eq (h : Ipv6Words groups words) : words.length = 8 := by
  cases h with
  | full eight => rw [List.length_map, eight]
  | short _ _ _ _ _ colons =>
      simp only [List.length_append, List.length_map, List.length_replicate]
      omega

lemma Ipv6Words.not_colon (h : Ipv6Words groups words) : ∀ g ∈ groups, 58 ∉ g := by
  have hgroup {g : Bytes} (hg : IsIpv6Group g) : 58 ∉ g := fun hmem => absurd (hg.2 _ hmem) (by decide)
  cases h with
  | full eight isGroup => exact fun g hg => hgroup (isGroup g hg)
  | short left_ne_nil right_ne_nil isGroup =>
      intro g hg
      rcases List.mem_append.mp hg with hg | hg
      · exact hgroup (isGroup g (List.mem_append_left _ hg))
      · rcases List.mem_cons.mp hg with rfl | hg
        · exact List.not_mem_nil
        · exact hgroup (isGroup g (List.mem_append_right _ hg))

lemma Ipv6Words.ne_nil (h : Ipv6Words groups words) : groups ≠ [] := by
  cases h with
  | full eight => exact List.ne_nil_of_length_pos (by omega)
  | short => simp

lemma toList_ipv6Bytes (h : words.length = 8) :
    (ipv6Bytes words).toList = words.flatMap fun w => [UInt8.ofNat (w / 256), UInt8.ofNat (w % 256)] := by
  have hbyte (w : Nat) : UInt8.ofNat (w &&& 0xFF) = UInt8.ofNat (w % 256) := by
    rw [show (0xFF : Nat) = 2 ^ 8 - 1 from rfl, Nat.and_two_pow_sub_one_eq_mod]
  match words, h with
  | [a, b, c, d, e, f, g, h], _ =>
      simp [ipv6Bytes, Vector.toList, List.ofFn_succ, Nat.shiftRight_eq_div_pow, hbyte]

lemma ipv6Denotes_iff (text : Bytes) (p : Ipv6Address) :
    Ipv6Denotes text p ↔ ∃ words, Ipv6Words (text.splitOn 58) words ∧ p = ipv6Bytes words := by
  have hbytes {words : List Nat} (h : Ipv6Words (text.splitOn 58) words) :
      (p.toList = words.flatMap fun w => [UInt8.ofNat (w / 256), UInt8.ofNat (w % 256)]) ↔
        p = ipv6Bytes words := by
    rw [← toList_ipv6Bytes h.length_eq, Vector.toList_inj]
  constructor
  · rintro ⟨groups, words, rfl, hwords, hp⟩
    have hsplit : ([58].intercalate groups).splitOn 58 = groups :=
      List.splitOn_intercalate 58 hwords.not_colon hwords.ne_nil
    exact ⟨words, hsplit.symm ▸ hwords, (hbytes (hsplit.symm ▸ hwords)).mp hp⟩
  · rintro ⟨words, hwords, hp⟩
    exact ⟨text.splitOn 58, words, (List.intercalate_splitOn 58).symm, hwords, (hbytes hwords).mpr hp⟩

lemma not_mem_of_mem_splitOn (c : UInt8) (text : Bytes) : ∀ g ∈ text.splitOn c, c ∉ g := by
  induction text with
  | nil => simp
  | cons x text ih =>
      rw [List.splitOn_cons_eq_if_modifyHead]
      split
      · exact List.forall_mem_cons.mpr ⟨List.not_mem_nil, ih⟩
      · rename_i hx
        cases hgroups : text.splitOn c with
        | nil => exact absurd hgroups (List.splitOn_ne_nil _ _)
        | cons g groups =>
            rw [hgroups, List.forall_mem_cons] at ih
            refine List.forall_mem_cons.mpr ⟨fun hmem => ?_, ih.2⟩
            exact (List.mem_cons.mp hmem).elim (fun he => hx (beq_iff_eq.mpr he.symm)) ih.1

/-- The loop comes to an end, inside of its array. -/
lemma ipv6Loop_start (text : Bytes) :
    ipv6Loop text (2 * text.length + 2) (.start text) = some (ipv6Forwards [] (text.splitOn 58)) := by
  have hjoin : [58].intercalate (text.splitOn 58) = text := List.intercalate_splitOn 58
  exact @ipv6Loop_atLeft text [] [] _ _ hjoin.symm (List.splitOn_ne_nil _ _) (not_mem_of_mem_splitOn 58 text)
    (by simp) (by rw [hjoin]; omega)

/-- What becomes of the address `p` when a text is read over it: it is replaced by the one that the
    text denotes, or left as it is if there is none. -/
def Ipv6Outcome (text : Bytes) (p : Ipv6Address) (ret : Int × Ipv6Address) : Prop :=
  ret.1 = 0 ∧ (∀ q, Ipv6Denotes text q ↔ q = ret.2) ∨ ret = (-1, p) ∧ ∀ q, ¬ Ipv6Denotes text q

lemma exists_parse (addr : CText) (p : Ipv6Address) :
    ∃ ret, pubnubParseIpv6Addr addr p = some ret ∧ Ipv6Outcome addr.text p ret := by
  simp only [Ipv6Outcome, ipv6Denotes_iff, ← ipv6Forwards_nil_eq_some]
  rw [pubnubParseIpv6Addr]
  split
  · rename_i hnone
    refine ⟨_, rfl, .inr ⟨rfl, ?_⟩⟩
    rw [List.splitOn_eq_singleton hnone]
    simp [ipv6Forwards]
  · rw [ipv6Loop_start]
    cases hwords : ipv6Forwards [] (addr.text.splitOn 58) with
    | none => exact ⟨_, rfl, .inr ⟨rfl, by simp⟩⟩
    | some words => exact ⟨_, rfl, .inl ⟨rfl, by simp⟩⟩

example : pubnubParseIpv6Addr ⟨ascii "2001:db8::1f", by decide +kernel⟩ (Vector.replicate 16 0) =
    some (0, #v[0x20, 0x01, 0x0d, 0xb8, 0, 0, 0, 0, 0, 0, 0, 0, 0, 0, 0, 0x1f]) := by decide +kernel

end PubNub
