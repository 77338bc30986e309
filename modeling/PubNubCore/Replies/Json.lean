import PubNubCore.Network.Text

/-!
# Looking into a reply

`core/pubnub_json_parse.c`, on the memory in which a reply lies.  The functions work with
pointers: they compare them with the end of what they were given, but read before they compare,
and may so read the byte at the end or one behind it.  Places are integers, counted from the
beginning of the buffer, and what lies around the buffer is part of the memory.

The bytes are written as numbers: 34 is the double quote, 44 the comma, 58 the colon, 91 and 93
the brackets, 92 the backslash, 123 and 125 the braces.
-/

namespace PubNub

/-- Memory around a buffer: what is in it and behind it, and what is in front of it, the nearest
    byte first. -/
structure Memory where
  cells : Bytes
  before : Bytes := []
  deriving DecidableEq, Repr

namespace Memory

def byte (m : Memory) : Int → UInt8
  | .ofNat i => m.cells.getD i 0
  | .negSucc i => m.before.getD i 0

/-- Writes a byte into the buffer. -/
def set (m : Memory) (i : Int) (b : UInt8) : Memory := { m with cells := m.cells.set i.toNat b }

/-- The bytes between two places. -/
def text (m : Memory) (s e : Int) : Bytes :=
  (List.range (e - s).toNat).map fun (k : Nat) => m.byte (s + k)

/-- The C string at a place in the buffer. -/
def stringAt (m : Memory) (i : Nat) : Bytes := cString (m.cells.drop i)

/-- `for (; start < end; ++start)`, at most as often as the first argument says.  The body looks
    at a byte and goes on with a state of its own, or leaves the loop there. -/
def scan {σ : Type} (m : Memory) (body : σ → UInt8 → Option σ) : Nat → σ → Int → Int
  | 0, _, p => p
  | n + 1, st, p =>
      match body st (m.byte p) with
      | some st' => scan m body n st' (p + 1)
      | none => p

/-- A loop ends between the place where it began and its end. -/
lemma scan_bounds {σ : Type} (m : Memory) (body : σ → UInt8 → Option σ) (n : Nat) :
    ∀ (st : σ) (p : Int), p ≤ m.scan body n st p ∧ m.scan body n st p ≤ p + n := by
  induction n with
  | zero =>
      intro st p
      rw [scan]
      omega
  | succ n ih =>
      intro st p
      rw [scan]
      split
      · rename_i st' _
        have hnext := ih st' (p + 1)
        omega
      · omega

end Memory

/-! ## The ends of things -/

section Ends

variable (m : Memory) (s e : Int)

def isJsonSpace (c : UInt8) : Bool := c == 32 || c == 9 || c == 13 || c == 10

/-- `pbjson_skip_whitespace`. -/
def pbjsonSkipWhitespace : Int :=
  m.scan (fun (_ : Unit) c => if isJsonSpace c then some () else none) (e - s).toNat () s

/-- One byte of a string, and whether it is escaped. -/
def stringByte (inEscape : Bool) (c : UInt8) : Option Bool :=
  if c = 92 then some !inEscape
  else if c = 0 then none
  else if c = 34 ∧ inEscape = false then none
  else some false

/-- `pbjson_find_end_string`. -/
def pbjsonFindEndString : Int := m.scan stringByte (e - s).toNat false s

/-- `pbjson_find_end_primitive`: stops at what ends a number or a literal and takes one step
    back; at a NUL and at the end it stays. -/
def pbjsonFindEndPrimitive : Int :=
  let ends := fun c : UInt8 => isJsonSpace c || c == 44 || c == 125 || c == 93
  let p := m.scan (fun (_ : Unit) c => if ends c || c == 0 then none else some ())
    (e - s).toNat () s
  if p < e ∧ ends (m.byte p) then p - 1 else p

/-- The locals of `pbjson_find_end_complex`. -/
structure ComplexScan where
  inString : Bool := false
  inEscape : Bool := false
  bracketLevel : Int := 0
  braceLevel : Int := 0

/-- A value of type `int`. -/
def wrapInt (i : Int) : Int := i.bmod (2 ^ 32)

/-- One byte of an object or an array. -/
def ComplexScan.byte (l : ComplexScan) (c : UInt8) : Option ComplexScan :=
  if c = 0 then none
  else if l.inString then
    if c = 92 then some { l with inEscape := !l.inEscape }
    else if c = 34 ∧ l.inEscape = false then some { l with inString := false }
    else some { l with inEscape := false }
  else if c = 123 then some { l with braceLevel := wrapInt (l.braceLevel + 1) }
  else if c = 125 then
    if wrapInt (l.braceLevel - 1) = 0 ∧ l.bracketLevel = 0 then none
    else some { l with braceLevel := wrapInt (l.braceLevel - 1) }
  else if c = 91 then some { l with bracketLevel := wrapInt (l.bracketLevel + 1) }
  else if c = 93 then
    if wrapInt (l.bracketLevel - 1) = 0 ∧ l.braceLevel = 0 then none
    else some { l with bracketLevel := wrapInt (l.bracketLevel - 1) }
  else if c = 34 then some { l with inString := true, inEscape := false }
  else some l

/-- `pbjson_find_end_complex`. -/
def pbjsonFindEndComplex : Int := m.scan ComplexScan.byte (e - s).toNat {} s

/-- `pbjson_find_end_element`. -/
def pbjsonFindEndElement : Int :=
  if m.byte s = 34 then pbjsonFindEndString m (s + 1) e
  else if m.byte s = 123 ∨ m.byte s = 91 then pbjsonFindEndComplex m s e
  else pbjsonFindEndPrimitive m (s + 1) e

variable {m s e}

lemma pbjsonSkipWhitespace_le (h : s ≤ e) : pbjsonSkipWhitespace m s e ≤ e := by
  have hscan := m.scan_bounds (fun (_ : Unit) c => if isJsonSpace c then some () else none)
    (e - s).toNat () s
  rw [pbjsonSkipWhitespace]
  omega

lemma pbjsonFindEndString_le (h : s ≤ e) : pbjsonFindEndString m s e ≤ e := by
  have hscan := m.scan_bounds stringByte (e - s).toNat false s
  rw [pbjsonFindEndString]
  omega

/-- An element that begins before the end, or at it, is read at most one byte further. -/
lemma pbjsonFindEndElement_le (h : s ≤ e) : pbjsonFindEndElement m s e ≤ e + 1 := by
  rw [pbjsonFindEndElement]
  split
  · have hscan := m.scan_bounds stringByte (e - (s + 1)).toNat false (s + 1)
    rw [pbjsonFindEndString]
    omega
  · split
    · have hscan := m.scan_bounds ComplexScan.byte (e - s).toNat {} s
      rw [pbjsonFindEndComplex]
      omega
    · have hscan := m.scan_bounds (fun (_ : Unit) c => if (isJsonSpace c || c == 44 || c == 125 ||
        c == 93) || c == 0 then none else some ()) (e - (s + 1)).toNat () (s + 1)
      rw [pbjsonFindEndPrimitive]
      dsimp only
      split <;> omega

end Ends

/-! ## The members of an object -/

/-- `struct pbjson_elem`. -/
structure PbjsonElem where
  start : Int
  stop : Int
  deriving DecidableEq, Repr

/-- `enum pbjson_object_name_parse_result` without `jonmpOK`. -/
inductive PbjsonObjectNameParseError
  | noStartCurly | keyMissing | keyNotString | stringNotTerminated | missingColon
  | objectIncomplete | missingValueSeparator | keyNotFound | valueIncomplete | invalidKeyName
  deriving DecidableEq, Repr

/-- The loop of `pbjson_get_object_value`, over the members from the one behind `s` on.  A
    member takes more than one byte, so that as many rounds as there are bytes are enough. -/
def memberFrom (m : Memory) (stop : Int) (name : Bytes) :
    Nat → Int → Except PbjsonObjectNameParseError PbjsonElem
  | 0, _ => .error .objectIncomplete
  | n + 1, s =>
      if stop ≤ s then .error .objectIncomplete
      else
        let key := pbjsonSkipWhitespace m (s + 1) stop
        if key = stop then .error .keyMissing
        else if m.byte key ≠ 34 then .error .keyNotString
        else
          let keyEnd := pbjsonFindEndString m (key + 1) stop
          if keyEnd = stop ∨ m.byte keyEnd ≠ 34 then .error .stringNotTerminated
          else
            let colon := pbjsonSkipWhitespace m (keyEnd + 1) stop
            if colon = stop ∨ m.byte colon ≠ 58 then .error .missingColon
            else
              let value := pbjsonSkipWhitespace m (colon + 1) stop
              let valueEnd := pbjsonFindEndElement m value stop
              if valueEnd = stop ∨ m.byte valueEnd = 0 then .error .valueIncomplete
              else if m.text (key + 1) keyEnd = name then .ok ⟨value, valueEnd + 1⟩
              else
                let separator := pbjsonSkipWhitespace m (valueEnd + 1) stop
                if m.byte separator = 44 then memberFrom m stop name n separator
                else if m.byte separator ≠ 125 then .error .missingValueSeparator
                else if separator < stop then .error .keyNotFound
                else .error .objectIncomplete

/-- `pbjson_get_object_value`.  The length of the name is kept in an `unsigned`. -/
def pbjsonGetObjectValue (m : Memory) (p : PbjsonElem) (name : Bytes) :
    Except PbjsonObjectNameParseError PbjsonElem :=
  let s := pbjsonSkipWhitespace m p.start p.stop
  let nameLen := name.length % 2 ^ 32
  if nameLen = 0 then .error .invalidKeyName
  else if m.byte s ≠ 123 then .error .noStartCurly
  else memberFrom m p.stop (name.take nameLen) (p.stop - s).toNat s

section Places

variable (m : Memory) (stop s : Int)

/-- Where the key of the member behind `s` begins, and where it ends. -/
def keyPlace : Int := pbjsonSkipWhitespace m (s + 1) stop

def keyEndPlace : Int := pbjsonFindEndString m (keyPlace m stop s + 1) stop

/-- Where its colon is. -/
def colonPlace : Int := pbjsonSkipWhitespace m (keyEndPlace m stop s + 1) stop

/-- Where its value begins, and where it ends. -/
def valuePlace : Int := pbjsonSkipWhitespace m (colonPlace m stop s + 1) stop

def valueEndPlace : Int := pbjsonFindEndElement m (valuePlace m stop s) stop

/-- Where the comma or the brace behind it is. -/
def separatorPlace : Int := pbjsonSkipWhitespace m (valueEndPlace m stop s + 1) stop

/-- Behind `s` there is a key, and a colon behind it. -/
structure HasColon : Prop where
  before : s < stop
  keyLt : keyPlace m stop s < stop
  key : m.byte (keyPlace m stop s) = 34
  keyEndLt : keyEndPlace m stop s < stop
  keyEnd : m.byte (keyEndPlace m stop s) = 34
  colonLt : colonPlace m stop s < stop
  colon : m.byte (colonPlace m stop s) = 58

variable {m stop s} {name : Bytes} {n : Nat} {found : PbjsonElem}

/-- One round of the loop. -/
lemma memberFrom_succ (n : Nat) : memberFrom m stop name (n + 1) s =
    if stop ≤ s then .error .objectIncomplete
    else if keyPlace m stop s = stop then .error .keyMissing
    else if m.byte (keyPlace m stop s) ≠ 34 then .error .keyNotString
    else if keyEndPlace m stop s = stop ∨ m.byte (keyEndPlace m stop s) ≠ 34 then
      .error .stringNotTerminated
    else if colonPlace m stop s = stop ∨ m.byte (colonPlace m stop s) ≠ 58 then
      .error .missingColon
    else if valueEndPlace m stop s = stop ∨ m.byte (valueEndPlace m stop s) = 0 then
      .error .valueIncomplete
    else if m.text (keyPlace m stop s + 1) (keyEndPlace m stop s) = name then
      .ok ⟨valuePlace m stop s, valueEndPlace m stop s + 1⟩
    else if m.byte (separatorPlace m stop s) = 44 then
      memberFrom m stop name n (separatorPlace m stop s)
    else if m.byte (separatorPlace m stop s) ≠ 125 then .error .missingValueSeparator
    else if separatorPlace m stop s < stop then .error .keyNotFound
    else .error .objectIncomplete := rfl

/-- A value is looked for only behind a colon. -/
lemma hasColon_cases (m : Memory) (stop s : Int) : HasColon m stop s ∨
    ∃ error, ∀ name n, memberFrom m stop name (n + 1) s = .error error := by
  by_cases hs : stop ≤ s
  · exact .inr ⟨_, fun name n => by rw [memberFrom_succ, if_pos hs]⟩
  by_cases hkey : keyPlace m stop s = stop
  · exact .inr ⟨_, fun name n => by rw [memberFrom_succ, if_neg hs, if_pos hkey]⟩
  by_cases hquote : m.byte (keyPlace m stop s) ≠ 34
  · exact .inr ⟨_, fun name n => by rw [memberFrom_succ, if_neg hs, if_neg hkey, if_pos hquote]⟩
  by_cases hend : keyEndPlace m stop s = stop ∨ m.byte (keyEndPlace m stop s) ≠ 34
  · exact .inr ⟨_, fun name n => by
      rw [memberFrom_succ, if_neg hs, if_neg hkey, if_neg hquote, if_pos hend]⟩
  by_cases hcolon : colonPlace m stop s = stop ∨ m.byte (colonPlace m stop s) ≠ 58
  · exact .inr ⟨_, fun name n => by
      rw [memberFrom_succ, if_neg hs, if_neg hkey, if_neg hquote, if_neg hend, if_pos hcolon]⟩
  simp only [not_or, Classical.not_not] at hquote hend hcolon
  have hkeyLe : keyPlace m stop s ≤ stop := pbjsonSkipWhitespace_le (by omega)
  have hendLe : keyEndPlace m stop s ≤ stop := pbjsonFindEndString_le (by omega)
  have hcolonLe : colonPlace m stop s ≤ stop := pbjsonSkipWhitespace_le (by omega)
  exact .inl ⟨by omega, by omega, hquote, by omega, hend.2, by omega, hcolon.2⟩

/-- One round behind a colon. -/
lemma HasColon.memberFrom (h : HasColon m stop s) (n : Nat) : memberFrom m stop name (n + 1) s =
    if valueEndPlace m stop s = stop ∨ m.byte (valueEndPlace m stop s) = 0 then
      .error .valueIncomplete
    else if m.text (keyPlace m stop s + 1) (keyEndPlace m stop s) = name then
      .ok ⟨valuePlace m stop s, valueEndPlace m stop s + 1⟩
    else if m.byte (separatorPlace m stop s) = 44 then
      memberFrom m stop name n (separatorPlace m stop s)
    else if m.byte (separatorPlace m stop s) ≠ 125 then .error .missingValueSeparator
    else if separatorPlace m stop s < stop then .error .keyNotFound
    else .error .objectIncomplete := by
  have hbefore := h.before
  have hkey := h.keyLt
  have hend := h.keyEndLt
  have hcolon := h.colonLt
  rw [memberFrom_succ, if_neg (by omega), if_neg (by omega), if_neg (by simp [h.key]),
    if_neg (by simp [h.keyEnd]; omega), if_neg (by simp [h.colon]; omega)]

lemma HasColon.valuePlace_le (h : HasColon m stop s) : valuePlace m stop s ≤ stop := by
  have hcolon := h.colonLt
  exact pbjsonSkipWhitespace_le (by omega)

/-- A value that is found is that of the member, or of one behind it. -/
lemma memberFrom_ok (h : memberFrom m stop name (n + 1) s = .ok found) : HasColon m stop s ∧
    valueEndPlace m stop s ≠ stop ∧
    (found = ⟨valuePlace m stop s, valueEndPlace m stop s + 1⟩ ∨
      memberFrom m stop name n (separatorPlace m stop s) = .ok found) := by
  rcases hasColon_cases m stop s with hc | ⟨error, herror⟩
  · rw [hc.memberFrom] at h
    split at h
    · cases h
    · rename_i hend
      refine ⟨hc, fun heq => hend (.inl heq), ?_⟩
      split at h
      · cases h
        exact .inl rfl
      · split at h
        · exact .inr h
        · split at h
          · cases h
          · split at h <;> cases h
  · rw [herror] at h
    cases h

end Places

/-- The value of a member ends at most one byte behind the object it was looked for in, and its
    end is kept as the place behind it. -/
lemma memberFrom_stop_le {m : Memory} {stop : Int} {name : Bytes} {found : PbjsonElem} (n : Nat) :
    ∀ s : Int, memberFrom m stop name n s = .ok found → found.stop ≤ stop + 2 := by
  induction n with
  | zero =>
      intro s h
      simp [memberFrom] at h
  | succ n ih =>
      intro s h
      obtain ⟨hc, -, rfl | hnext⟩ := memberFrom_ok h
      · have hend := pbjsonFindEndElement_le (m := m) hc.valuePlace_le
        rw [valueEndPlace]
        dsimp only
        omega
      · exact ih _ hnext

lemma pbjsonGetObjectValue_stop_le {m : Memory} {p found : PbjsonElem} {name : Bytes}
    (h : pbjsonGetObjectValue m p name = .ok found) : found.stop ≤ p.stop + 2 := by
  rw [pbjsonGetObjectValue] at h
  split at h
  · simp at h
  · split at h
    · simp at h
    · exact memberFrom_stop_le _ _ h

/-- `pbjson_elem_equals_string`. -/
def pbjsonElemEqualsString (m : Memory) (e : PbjsonElem) (s : Bytes) : Bool :=
  m.text e.start e.stop == s

/-- `pbjson_value_for_field_found`. -/
def pbjsonValueForFieldFound (m : Memory) (p : PbjsonElem) (name value : Bytes) : Bool :=
  match pbjsonGetObjectValue m p name with
  | .ok found => pbjsonElemEqualsString m found value
  | .error _ => false

/-- `pbjson_get_status_400_message_value`. -/
def pbjsonGetStatus400MessageValue (m : Memory) (el : PbjsonElem) : Option Bytes :=
  match pbjsonGetObjectValue m el (ascii "message") with
  | .ok parsed => some (cString (m.text parsed.start parsed.stop))
  | .error _ => none

end PubNub
