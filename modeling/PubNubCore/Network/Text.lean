import Mathlib.Data.List.TakeWhile
import PubNubCore.Core.Types

/-!
# Numbers in received text

`atoi`, `strtoul` and the comparisons of the C library as far as the transaction state machine
uses them, for the C locale and 64-bit `long`.  They work on what the receive buffer holds from
some place on, and may run past the end of the line they were meant for: a line feed is a blank
for them.
-/

namespace PubNub

/-! ## Parts of a text -/

section Parts

variable {p : UInt8 → Bool} {s t r : Bytes}

lemma dropWhile_append_of_ne_nil (h : s.dropWhile p ≠ []) :
    (s ++ t).dropWhile p = s.dropWhile p ++ t := by
  rw [List.dropWhile_append, if_neg]
  rwa [List.isEmpty_iff]

lemma takeWhile_append_of_ne_nil (h : s.dropWhile p ≠ []) :
    (s ++ t).takeWhile p = s.takeWhile p := by
  have hlen : (s.takeWhile p).length ≠ s.length := by
    intro heq
    have hsum := congrArg List.length (List.takeWhile_append_dropWhile (p := p) (l := s))
    rw [List.length_append] at hsum
    exact h (List.eq_nil_of_length_eq_zero (by omega))
  rw [List.takeWhile_append, if_neg hlen]

lemma getLast?_of_suffix (h : r <:+ s) (hr : r ≠ []) : r.getLast? = s.getLast? := by
  obtain ⟨u, rfl⟩ := h
  rw [List.getLast?_append_of_ne_nil u hr]

end Parts

/-! ## Numbers and literals -/

/-- `isspace`. -/
def isSpace (c : UInt8) : Bool := c == 32 || (9 ≤ c && c ≤ 13)

/-- `tolower`. -/
def toLower (c : UInt8) : UInt8 := if 65 ≤ c && c ≤ 90 then c + 32 else c

/-- The value of a digit; letters are the digits from ten on. -/
def digitValue (base : Nat) (c : UInt8) : Option Nat :=
  let v := if 48 ≤ c && c ≤ 57 then c.toNat - 48
    else if 97 ≤ toLower c && toLower c ≤ 122 then (toLower c).toNat - 87
    else base
  if v < base then some v else none

/-- The digits with which a text begins. -/
def leadingDigits (base : Nat) : Bytes → List Nat
  | [] => []
  | c :: cs =>
      match digitValue base c with
      | some d => d :: leadingDigits base cs
      | none => []

/-- The number which the digits denote, the most significant one first. -/
def ofDigits (base : Nat) (ds : List Nat) : Nat := ds.foldl (fun v d => v * base + d) 0

/-- Skips blanks and a sign; tells whether the sign is a minus. -/
def skipSign (s : Bytes) : Bool × Bytes :=
  match s.dropWhile isSpace with
  | 45 :: r => (true, r)
  | 43 :: r => (false, r)
  | r => (false, r)

/-- `strtol(s, NULL, 10)`. -/
def strtol (s : Bytes) : Int :=
  let v := ofDigits 10 (leadingDigits 10 (skipSign s).2)
  if (skipSign s).1 then max (-(v : Int)) (-2 ^ 63) else min (v : Int) (2 ^ 63 - 1)

/-- `atoi`: the low 32 bits of `strtol`, as a signed number. -/
def atoi (s : Bytes) : Int := (strtol s + 2 ^ 31) % 2 ^ 32 - 2 ^ 31

lemma leadingDigits_append_of_mem {base : Nat} {s : Bytes} {c : UInt8} (hc : c ∈ s)
    (hnone : digitValue base c = none) (t : Bytes) :
    leadingDigits base (s ++ t) = leadingDigits base s := by
  induction s with
  | nil => exact absurd hc List.not_mem_nil
  | cons d s ih =>
      rw [List.cons_append, leadingDigits, leadingDigits]
      rcases List.mem_cons.mp hc with rfl | hc
      · rw [hnone]
      · rw [ih hc]

/-- A line with something else than blanks has its sign in the line. -/
lemma skipSign_append {s : Bytes} (hs : s.any (!isSpace ·) = true) (hl : s.getLast? = some 10)
    (t : Bytes) :
    skipSign (s ++ t) = ((skipSign s).1, (skipSign s).2 ++ t) ∧ 10 ∈ (skipSign s).2 := by
  have hne : s.dropWhile isSpace ≠ [] := by
    intro hnil
    obtain ⟨c, hc, hspace⟩ := List.any_eq_true.mp hs
    simp [List.dropWhile_eq_nil_iff.mp hnil c hc] at hspace
  have hmem : (10 : UInt8) ∈ s.dropWhile isSpace := by
    refine List.mem_of_getLast? ?_
    rw [getLast?_of_suffix (List.dropWhile_suffix _) hne, hl]
  rw [skipSign, skipSign, dropWhile_append_of_ne_nil hne]
  generalize s.dropWhile isSpace = u at hmem
  cases u with
  | nil => exact absurd hmem List.not_mem_nil
  | cons c r =>
      by_cases hminus : c = 45
      · subst hminus
        exact ⟨rfl, (List.mem_cons.mp hmem).resolve_left (by decide)⟩
      · by_cases hplus : c = 43
        · subst hplus
          exact ⟨rfl, (List.mem_cons.mp hmem).resolve_left (by decide)⟩
        · simpa [hminus, hplus] using hmem

/-- **The number of a line** is the same whatever is behind the line, if the line has something
    else than blanks. -/
lemma atoi_append {s : Bytes} (hs : s.any (!isSpace ·) = true) (hl : s.getLast? = some 10)
    (t : Bytes) : atoi (s ++ t) = atoi s := by
  obtain ⟨hsign, hmem⟩ := skipSign_append hs hl t
  rw [atoi, atoi, strtol, strtol, hsign, leadingDigits_append_of_mem hmem (by decide)]

/-- The conversion of an `int` to `unsigned`. -/
def toUnsigned (z : Int) : Nat := (z % 2 ^ 32).toNat

/-- The prefix `0x`, which `strtoul` allows in base 16. -/
def skipHexPrefix : Bytes → Bytes
  | 48 :: c :: r => if toLower c == 120 then r else 48 :: c :: r
  | r => r

/-- `strtoul(s, NULL, 16)`. -/
def strtoul (s : Bytes) : Nat :=
  let v := ofDigits 16 (leadingDigits 16 (skipHexPrefix (skipSign s).2))
  if 2 ^ 64 ≤ v then 2 ^ 64 - 1 else if (skipSign s).1 then (2 ^ 64 - v) % 2 ^ 64 else v

/-- `strncmp(s, lit, sizeof lit - 1) == 0`. -/
def startsWith (s lit : Bytes) : Bool := s.take lit.length == lit

/-- `pb_strncasecmp(s, lit, sizeof lit - 1) == 0`. -/
def startsWithCase (s lit : Bytes) : Bool :=
  (s.take lit.length).map toLower == lit.map toLower

/-- What begins a text can be told from a part of it that reaches up to a character which the literal
    does not contain. -/
lemma startsWith_append {s lit : Bytes} {c : UInt8} (hc : c ∈ s) (hlit : c ∉ lit) (t : Bytes) :
    startsWith (s ++ t) lit = startsWith s lit := by
  rw [startsWith, startsWith]
  by_cases hle : lit.length ≤ s.length
  · rw [List.take_append_of_le_length hle]
  · have hlt : s.length ≤ lit.length := by omega
    have hno : ∀ u : Bytes, s <+: u → (u == lit) = false := by
      rintro u hu
      exact beq_false_of_ne fun heq => hlit (heq ▸ hu.subset hc)
    rw [List.take_of_length_le hlt, hno s List.prefix_rfl, hno]
    exact List.prefix_take_iff.mpr ⟨List.prefix_append s t, hlt⟩

lemma startsWithCase_eq (s lit : Bytes) :
    startsWithCase s lit = startsWith (s.map toLower) (lit.map toLower) := by
  rw [startsWithCase, startsWith, List.length_map, List.map_take]

lemma startsWithCase_append {s lit : Bytes} {c : UInt8} (hc : c ∈ s)
    (hlit : toLower c ∉ lit.map toLower) (t : Bytes) :
    startsWithCase (s ++ t) lit = startsWithCase s lit := by
  rw [startsWithCase_eq, startsWithCase_eq, List.map_append]
  exact startsWith_append (List.mem_map_of_mem hc) hlit _

/-- A text that begins with a literal is longer, if it has a character which the literal does not
    contain. -/
lemma length_lt_of_startsWith {s lit : Bytes} {c : UInt8} (h : startsWith s lit = true) (hc : c ∈ s)
    (hlit : c ∉ lit) : lit.length < s.length ∧ c ∈ s.drop lit.length := by
  have htake : s.take lit.length = lit := eq_of_beq h
  have hdrop : c ∈ s.drop lit.length := by
    have hmem : c ∈ s.take lit.length ++ s.drop lit.length := by
      rwa [List.take_append_drop]
    rw [htake] at hmem
    exact (List.mem_append.mp hmem).resolve_left hlit
  have hpos := List.length_pos_of_mem hdrop
  rw [List.length_drop] at hpos
  exact ⟨by omega, hdrop⟩

/-- The C string which begins a piece of memory. -/
def cString (s : Bytes) : Bytes := s.takeWhile (· != 0)

lemma zero_not_mem_cString (s : Bytes) : 0 ∉ cString s := by
  intro h
  simpa using List.mem_takeWhile_imp h

lemma cString_append_zero {s : Bytes} (hs : 0 ∉ s) (t : Bytes) : cString (s ++ 0 :: t) = s := by
  have hall : ∀ x ∈ s, (x != 0) = true := by
    intro x hx
    exact bne_iff_ne.mpr fun h => hs (h ▸ hx)
  rw [cString, List.takeWhile_append_of_pos hall, List.takeWhile_cons_of_neg (by simp),
    List.append_nil]

/-- A text with a NUL ends there, whatever is behind it. -/
lemma cString_append_of_mem {s : Bytes} (hs : 0 ∈ s) (t : Bytes) : cString (s ++ t) = cString s := by
  obtain ⟨u, v, rfl, hu⟩ := List.eq_append_cons_of_mem hs
  rw [List.append_assoc, List.cons_append, cString_append_zero hu, cString_append_zero hu]

/-- A text without a NUL goes on behind it. -/
lemma cString_append {s : Bytes} (hs : 0 ∉ s) (t : Bytes) : cString (s ++ t) = s ++ cString t := by
  have hall : ∀ x ∈ s, (x != 0) = true := fun x hx => bne_iff_ne.mpr fun h => hs (h ▸ hx)
  rw [cString, List.takeWhile_append_of_pos hall]
  rfl

/-! ## Reading back a hexadecimal number -/

/-- A text of hexadecimal digits only. -/
def IsHex (s : Bytes) : Prop := ∀ c ∈ s, (digitValue 16 c).isSome = true

/-- The value of a hexadecimal text. -/
def hexValue (s : Bytes) : Nat := ofDigits 16 (leadingDigits 16 s)

/-- What may follow the digits of a number: not a digit, and not the letter of a prefix. -/
def EndsNumber : Bytes → Prop
  | [] => True
  | c :: _ => digitValue 16 c = none ∧ toLower c ≠ 120

lemma leadingDigits_append {s t : Bytes} (hs : IsHex s) (ht : EndsNumber t) :
    leadingDigits 16 (s ++ t) = leadingDigits 16 s := by
  induction s with
  | nil =>
      cases t with
      | nil => rfl
      | cons c t => simp only [List.nil_append, leadingDigits, ht.1]
  | cons c s ih =>
      obtain ⟨d, hd⟩ := Option.isSome_iff_exists.mp (hs c List.mem_cons_self)
      have hs' : IsHex s := fun x hx => hs x (List.mem_cons_of_mem c hx)
      simp only [List.cons_append, leadingDigits, hd, ih hs']

/-- Neither a blank nor a sign nor the letter of the prefix is a digit. -/
lemma digitValue_special (c : UInt8)
    (h : isSpace c = true ∨ c = 45 ∨ c = 43 ∨ toLower c = 120) : digitValue 16 c = none := by
  have hall : ∀ n : Fin 256, (isSpace (.ofFin n) = true ∨ (.ofFin n : UInt8) = 45 ∨
      (.ofFin n : UInt8) = 43 ∨ toLower (.ofFin n) = 120) →
      digitValue 16 (.ofFin n) = none := by
    decide +kernel
  exact hall c.toFin h

/-- A hexadecimal text is not taken for blanks or a sign. -/
lemma skipSign_of_isHex {c : UInt8} {s t : Bytes} (hs : IsHex (c :: s)) :
    skipSign (c :: s ++ t) = (false, c :: s ++ t) := by
  have hc : digitValue 16 c ≠ none := by
    have hsome := hs c List.mem_cons_self
    intro hnone
    rw [hnone] at hsome
    exact absurd hsome (by simp)
  have hspace : isSpace c = false := by
    rw [← Bool.not_eq_true]
    exact fun h => hc (digitValue_special c (.inl h))
  have hminus : c ≠ 45 := fun h => hc (digitValue_special c (.inr (.inl h)))
  have hplus : c ≠ 43 := fun h => hc (digitValue_special c (.inr (.inr (.inl h))))
  have hdrop : (c :: s ++ t).dropWhile isSpace = c :: s ++ t := by
    simp [hspace]
  unfold skipSign
  rw [hdrop]
  split
  · rename_i r heq
    exact absurd (List.cons.inj heq).1 hminus
  · rename_i r heq
    exact absurd (List.cons.inj heq).1 hplus
  · rfl

/-- Nor for the prefix `0x`. -/
lemma skipHexPrefix_of_isHex {s t : Bytes} (hne : s ≠ []) (hs : IsHex s) (ht : EndsNumber t) :
    skipHexPrefix (s ++ t) = s ++ t := by
  have key : ∀ c ∈ s, toLower c ≠ 120 := by
    intro c hc hlow
    have hnone := digitValue_special c (.inr (.inr (.inr hlow)))
    have hsome := hs c hc
    rw [hnone] at hsome
    exact absurd hsome (by simp)
  unfold skipHexPrefix
  split
  · rename_i c r heq
    have hc : toLower c ≠ 120 := by
      cases s with
      | nil => exact absurd rfl hne
      | cons a s =>
          cases s with
          | nil =>
              cases t with
              | nil => simp at heq
              | cons b t =>
                  obtain ⟨rfl, rfl⟩ := List.cons.inj (List.cons.inj heq).2
                  exact ht.2
          | cons b s =>
              obtain ⟨rfl, rfl⟩ := List.cons.inj (List.cons.inj heq).2
              exact key b (List.mem_cons_of_mem a List.mem_cons_self)
    simp [hc, heq]
  · rfl

/-- **Reading back a chunk size.**  `strtoul` finds the value of a hexadecimal text, whatever
    follows it that does not go on with the number. -/
lemma strtoul_of_isHex {s t : Bytes} (hne : s ≠ []) (hs : IsHex s) (ht : EndsNumber t)
    (hv : hexValue s < 2 ^ 64) : strtoul (s ++ t) = hexValue s := by
  have hsign : skipSign (s ++ t) = (false, s ++ t) := by
    cases s with
    | nil => exact absurd rfl hne
    | cons c s => exact skipSign_of_isHex hs
  have hdigits : ofDigits 16 (leadingDigits 16 (s ++ t)) = hexValue s := by
    rw [leadingDigits_append hs ht]
    rfl
  unfold strtoul
  rw [hsign]
  dsimp only
  rw [skipHexPrefix_of_isHex hne hs ht, hdigits, if_neg (by omega)]
  simp

end PubNub
