import PubNubCore.Replies.Json

/-!
# What the JSON scanners look at

`pbjson_get_object_value` is handed a window, and the memory behind it is not its own.  Here every
look at a byte is checked: `limit` is the last place that may be looked at, and a function that
looks further has no result (`..Within`).  The place at the end of the window is often looked at, so
the limit is that place.

Only one thing goes wrong.  Behind a colon the value is looked for without asking whether the window
goes on there, and if it ends, the byte behind its end is looked at as well (`EndsBehindColon`).
-/

namespace PubNub

/-! ## Checked looks -/

namespace Memory

variable (m : Memory) (limit : Int)

/-- The byte at a place up to the limit. -/
def look (i : Int) : Option UInt8 := if i ≤ limit then some (m.byte i) else none

/-- `Memory.scan` with checked looks. -/
def scanWithin {σ : Type} (body : σ → UInt8 → Option σ) : Nat → σ → Int → Option Int
  | 0, _, p => some p
  | n + 1, st, p => do
      let c ← m.look limit p
      match body st c with
      | some st' => scanWithin body n st' (p + 1)
      | none => some p

variable {m limit}

lemma look_eq {i : Int} (h : i ≤ limit) : m.look limit i = some (m.byte i) := if_pos h

lemma look_eq_none {i : Int} (h : limit < i) : m.look limit i = none := if_neg (by omega)

/-- A loop up to the limit looks no further. -/
lemma scanWithin_eq {σ : Type} (body : σ → UInt8 → Option σ) (n : Nat) :
    ∀ (st : σ) (p : Int), p + n ≤ limit + 1 →
      m.scanWithin limit body n st p = some (m.scan body n st p) := by
  induction n with
  | zero => exact fun _ _ _ => rfl
  | succ n ih =>
      intro st p hp
      have hlook : m.look limit p = some (m.byte p) := look_eq (by omega)
      rw [scanWithin, hlook, scan]
      cases hbody : body st (m.byte p) with
      | none => simp [hbody]
      | some st' => simpa [hbody] using ih st' (p + 1) (by omega)

end Memory

section Within

variable (m : Memory) (limit s e : Int)

/-- `pbjson_skip_whitespace`. -/
def pbjsonSkipWhitespaceWithin : Option Int :=
  m.scanWithin limit (fun (_ : Unit) c => if isJsonSpace c then some () else none) (e - s).toNat () s

/-- `pbjson_find_end_string`. -/
def pbjsonFindEndStringWithin : Option Int := m.scanWithin limit stringByte (e - s).toNat false s

/-- `pbjson_find_end_primitive`. -/
def pbjsonFindEndPrimitiveWithin : Option Int := do
  let ends := fun c : UInt8 => isJsonSpace c || c == 44 || c == 125 || c == 93
  let p ← m.scanWithin limit (fun (_ : Unit) c => if ends c || c == 0 then none else some ())
    (e - s).toNat () s
  if p < e then
    let c ← m.look limit p
    some (if ends c then p - 1 else p)
  else some p

/-- `pbjson_find_end_complex`, which has looked at the place where it ends. -/
def pbjsonFindEndComplexWithin : Option Int := do
  let p ← m.scanWithin limit ComplexScan.byte (e - s).toNat {} s
  let _ ← m.look limit p
  some p

/-- `pbjson_find_end_element`. -/
def pbjsonFindEndElementWithin : Option Int := do
  let c ← m.look limit s
  if c = 34 then pbjsonFindEndStringWithin m limit (s + 1) e
  else if c = 123 ∨ c = 91 then pbjsonFindEndComplexWithin m limit s e
  else pbjsonFindEndPrimitiveWithin m limit (s + 1) e

end Within

/-- The loop of `pbjson_get_object_value`. -/
def memberFromWithin (m : Memory) (limit stop : Int) (name : Bytes) :
    Nat → Int → Option (Except PbjsonObjectNameParseError PbjsonElem)
  | 0, _ => some (.error .objectIncomplete)
  | n + 1, s =>
      if stop ≤ s then some (.error .objectIncomplete)
      else do
        let key ← pbjsonSkipWhitespaceWithin m limit (s + 1) stop
        if key = stop then return .error .keyMissing
        if (← m.look limit key) ≠ 34 then return .error .keyNotString
        let keyEnd ← pbjsonFindEndStringWithin m limit (key + 1) stop
        if keyEnd = stop then return .error .stringNotTerminated
        if (← m.look limit keyEnd) ≠ 34 then return .error .stringNotTerminated
        let colon ← pbjsonSkipWhitespaceWithin m limit (keyEnd + 1) stop
        if colon = stop then return .error .missingColon
        if (← m.look limit colon) ≠ 58 then return .error .missingColon
        let value ← pbjsonSkipWhitespaceWithin m limit (colon + 1) stop
        let valueEnd ← pbjsonFindEndElementWithin m limit value stop
        if valueEnd = stop then return .error .valueIncomplete
        if (← m.look limit valueEnd) = 0 then return .error .valueIncomplete
        if m.text (key + 1) keyEnd = name then return .ok ⟨value, valueEnd + 1⟩
        let separator ← pbjsonSkipWhitespaceWithin m limit (valueEnd + 1) stop
        let c ← m.look limit separator
        if c = 44 then memberFromWithin m limit stop name n separator
        else if c ≠ 125 then return .error .missingValueSeparator
        else if separator < stop then return .error .keyNotFound
        else return .error .objectIncomplete

/-- `pbjson_get_object_value` with checked looks. -/
def pbjsonGetObjectValueWithin (m : Memory) (limit : Int) (p : PbjsonElem) (name : Bytes) :
    Option (Except PbjsonObjectNameParseError PbjsonElem) := do
  let s ← pbjsonSkipWhitespaceWithin m limit p.start p.stop
  let nameLen := name.length % 2 ^ 32
  if nameLen = 0 then return .error .invalidKeyName
  if (← m.look limit s) ≠ 123 then return .error .noStartCurly
  memberFromWithin m limit p.stop (name.take nameLen) (p.stop - s).toNat s

/-! ## The scanners stay inside -/

section Inside

variable {m : Memory} {limit s e : Int}

lemma pbjsonSkipWhitespaceWithin_eq (hs : s ≤ limit + 1) (he : e ≤ limit + 1) :
    pbjsonSkipWhitespaceWithin m limit s e = some (pbjsonSkipWhitespace m s e) :=
  Memory.scanWithin_eq _ _ _ _ (by omega)

lemma pbjsonFindEndStringWithin_eq (hs : s ≤ limit + 1) (he : e ≤ limit + 1) :
    pbjsonFindEndStringWithin m limit s e = some (pbjsonFindEndString m s e) :=
  Memory.scanWithin_eq _ _ _ _ (by omega)

lemma pbjsonFindEndPrimitiveWithin_eq (hs : s ≤ limit + 1) (he : e ≤ limit + 1) :
    pbjsonFindEndPrimitiveWithin m limit s e = some (pbjsonFindEndPrimitive m s e) := by
  rw [pbjsonFindEndPrimitiveWithin, pbjsonFindEndPrimitive]
  dsimp only
  rw [Memory.scanWithin_eq _ _ _ _ (by omega)]
  generalize m.scan _ (e - s).toNat () s = p
  by_cases hlt : p < e
  · have hlook : m.look limit p = some (m.byte p) := Memory.look_eq (by omega)
    simp [hlt, hlook]
  · simp [hlt]

lemma pbjsonFindEndComplexWithin_eq (hs : s ≤ e) (he : e ≤ limit) :
    pbjsonFindEndComplexWithin m limit s e = some (pbjsonFindEndComplex m s e) := by
  have hscan := m.scan_bounds ComplexScan.byte (e - s).toNat {} s
  rw [pbjsonFindEndComplexWithin, Memory.scanWithin_eq _ _ _ _ (by omega)]
  simp only [Option.bind_eq_bind, Option.bind_some]
  rw [Memory.look_eq (by omega)]
  rfl

lemma pbjsonFindEndElementWithin_eq (hs : s < e) (he : e ≤ limit) :
    pbjsonFindEndElementWithin m limit s e = some (pbjsonFindEndElement m s e) := by
  rw [pbjsonFindEndElementWithin, Memory.look_eq (by omega), pbjsonFindEndElement]
  simp only [Option.bind_eq_bind, Option.bind_some]
  split
  · exact pbjsonFindEndStringWithin_eq (by omega) (by omega)
  · split
    · exact pbjsonFindEndComplexWithin_eq (by omega) he
    · exact pbjsonFindEndPrimitiveWithin_eq (by omega) (by omega)

lemma le_pbjsonSkipWhitespace (m : Memory) (s e : Int) : s ≤ pbjsonSkipWhitespace m s e :=
  (m.scan_bounds _ _ _ _).1

lemma le_pbjsonFindEndString (m : Memory) (s e : Int) : s ≤ pbjsonFindEndString m s e :=
  (m.scan_bounds _ _ _ _).1

/-- An element ends behind its beginning, or there. -/
lemma le_pbjsonFindEndElement (m : Memory) (s e : Int) : s ≤ pbjsonFindEndElement m s e := by
  rw [pbjsonFindEndElement]
  split
  · have hstring := le_pbjsonFindEndString m (s + 1) e
    omega
  · split
    · exact (m.scan_bounds _ _ _ _).1
    · have hscan := m.scan_bounds (fun (_ : Unit) c => if (isJsonSpace c || c == 44 || c == 125 ||
        c == 93) || c == 0 then none else some ()) (e - (s + 1)).toNat () (s + 1)
      rw [pbjsonFindEndPrimitive]
      dsimp only
      split <;> omega

/-- An element that begins before the end of the window ends no further. -/
lemma pbjsonFindEndElement_le_of_lt (h : s < e) : pbjsonFindEndElement m s e ≤ e := by
  rw [pbjsonFindEndElement]
  split
  · have hscan := m.scan_bounds stringByte (e - (s + 1)).toNat false (s + 1)
    rw [pbjsonFindEndString]
    omega
  · split
    · have hscan := m.scan_bounds ComplexScan.byte (e - s).toNat {} s
      rw [pbjsonFindEndComplex]
      omega
    · have hscan := m.scan_bounds (fun (_ : Unit) c => if (isJsonSpace c || c == 44 || c == 125 ||
        c == 93) || c == 0 then none else some ()) (e - (s + 1)).toNat () (s + 1)
      rw [pbjsonFindEndPrimitive]
      dsimp only
      split <;> omega

/-- At the end of the window the byte there is looked at, and the end of the element is behind it
    unless that byte is a brace or a bracket. -/
lemma pbjsonFindEndElementWithin_end : pbjsonFindEndElementWithin m e e e =
    if m.byte e = 123 ∨ m.byte e = 91 then some e else some (e + 1) := by
  rw [pbjsonFindEndElementWithin, Memory.look_eq (Int.le_refl e)]
  simp only [Option.bind_eq_bind, Option.bind_some]
  by_cases hquote : m.byte e = 34
  · simp [hquote, pbjsonFindEndStringWithin, Memory.scanWithin]
  · by_cases hopen : m.byte e = 123 ∨ m.byte e = 91
    · rw [if_neg hquote, if_pos hopen, if_pos hopen,
        pbjsonFindEndComplexWithin_eq (Int.le_refl e) (Int.le_refl e)]
      simp [pbjsonFindEndComplex, Memory.scan]
    · have hbehind : ¬ e + 1 < e := by omega
      simp [hquote, hopen, pbjsonFindEndPrimitiveWithin, Memory.scanWithin, hbehind]

lemma pbjsonFindEndElement_end (h : m.byte e = 123 ∨ m.byte e = 91) :
    pbjsonFindEndElement m e e = e := by
  have hquote : m.byte e ≠ 34 := by rcases h with h | h <;> simp [h]
  rw [pbjsonFindEndElement, if_neg hquote, if_pos h]
  simp [pbjsonFindEndComplex, Memory.scan]

end Inside

/-! ## One member -/

section Rounds

variable {m : Memory} {stop s : Int} {name : Bytes}

/-- Where no value is looked for, nothing goes wrong. -/
lemma memberFromWithin_eq_of_not_hasColon (h : ¬ HasColon m stop s) (n : Nat) :
    memberFromWithin m stop stop name (n + 1) s = some (memberFrom m stop name (n + 1) s) := by
  rw [memberFrom_succ, memberFromWithin]
  by_cases hs : stop ≤ s
  · rw [if_pos hs, if_pos hs]
  have hkeyLe : keyPlace m stop s ≤ stop := pbjsonSkipWhitespace_le (by omega)
  have hkey : pbjsonSkipWhitespaceWithin m stop (s + 1) stop = some (keyPlace m stop s) :=
    pbjsonSkipWhitespaceWithin_eq (by omega) (by omega)
  rw [if_neg hs, if_neg hs, hkey]
  simp only [Option.bind_eq_bind, Option.bind_some, Memory.look_eq hkeyLe]
  by_cases hkeyEq : keyPlace m stop s = stop
  · simp [hkeyEq]
  by_cases hquote : m.byte (keyPlace m stop s) = 34
  swap
  · simp [hkeyEq, hquote]
  have hendLe : keyEndPlace m stop s ≤ stop := pbjsonFindEndString_le (by omega)
  have hend : pbjsonFindEndStringWithin m stop (keyPlace m stop s + 1) stop =
      some (keyEndPlace m stop s) := pbjsonFindEndStringWithin_eq (by omega) (by omega)
  by_cases hendEq : keyEndPlace m stop s = stop
  · simp [hkeyEq, hquote, hend, hendEq]
  by_cases hendQuote : m.byte (keyEndPlace m stop s) = 34
  swap
  · simp [hkeyEq, hquote, hend, hendEq, hendQuote, Memory.look_eq hendLe]
  have hcolonLe : colonPlace m stop s ≤ stop := pbjsonSkipWhitespace_le (by omega)
  have hcolon : pbjsonSkipWhitespaceWithin m stop (keyEndPlace m stop s + 1) stop =
      some (colonPlace m stop s) := pbjsonSkipWhitespaceWithin_eq (by omega) (by omega)
  by_cases hcolonEq : colonPlace m stop s = stop
  · simp [hkeyEq, hquote, hend, hendEq, hendQuote, Memory.look_eq hendLe, hcolon, hcolonEq]
  by_cases hcolonByte : m.byte (colonPlace m stop s) = 58
  swap
  · simp [hkeyEq, hquote, hend, hendEq, hendQuote, Memory.look_eq hendLe, hcolon, hcolonEq,
      hcolonByte, Memory.look_eq hcolonLe]
  exact absurd ⟨by omega, by omega, hquote, by omega, hendQuote, by omega, hcolonByte⟩ h

/-- Behind a colon the element is looked for where its value begins. -/
lemma HasColon.memberFromWithin_eq_bind (h : HasColon m stop s) (n : Nat) :
    memberFromWithin m stop stop name (n + 1) s = (do
      let valueEnd ← pbjsonFindEndElementWithin m stop (valuePlace m stop s) stop
      if valueEnd = stop then return .error .valueIncomplete
      if (← m.look stop valueEnd) = 0 then return .error .valueIncomplete
      if m.text (keyPlace m stop s + 1) (keyEndPlace m stop s) = name then
        return .ok ⟨valuePlace m stop s, valueEnd + 1⟩
      let separator ← pbjsonSkipWhitespaceWithin m stop (valueEnd + 1) stop
      let c ← m.look stop separator
      if c = 44 then memberFromWithin m stop stop name n separator
      else if c ≠ 125 then return .error .missingValueSeparator
      else if separator < stop then return .error .keyNotFound
      else return .error .objectIncomplete) := by
  have hbefore := h.before
  have hkeyLt := h.keyLt
  have hendLt := h.keyEndLt
  have hcolonLt := h.colonLt
  have hkey : pbjsonSkipWhitespaceWithin m stop (s + 1) stop = some (keyPlace m stop s) :=
    pbjsonSkipWhitespaceWithin_eq (by omega) (by omega)
  have hend : pbjsonFindEndStringWithin m stop (keyPlace m stop s + 1) stop =
      some (keyEndPlace m stop s) := pbjsonFindEndStringWithin_eq (by omega) (by omega)
  have hcolon : pbjsonSkipWhitespaceWithin m stop (keyEndPlace m stop s + 1) stop =
      some (colonPlace m stop s) := pbjsonSkipWhitespaceWithin_eq (by omega) (by omega)
  have hvalue : pbjsonSkipWhitespaceWithin m stop (colonPlace m stop s + 1) stop =
      some (valuePlace m stop s) := pbjsonSkipWhitespaceWithin_eq (by omega) (by omega)
  rw [memberFromWithin, if_neg (by omega), hkey]
  simp [Memory.look_eq (show keyPlace m stop s ≤ stop by omega), h.key, hend,
    Memory.look_eq (show keyEndPlace m stop s ≤ stop by omega), h.keyEnd, hcolon,
    Memory.look_eq (show colonPlace m stop s ≤ stop by omega), h.colon, hvalue,
    show keyPlace m stop s ≠ stop by omega, show keyEndPlace m stop s ≠ stop by omega,
    show colonPlace m stop s ≠ stop by omega]

/-- The member behind `s` is complete, is not the one that is looked for, and a comma follows. -/
def GoesOn (m : Memory) (stop : Int) (name : Bytes) (s : Int) : Prop :=
  ¬ (valueEndPlace m stop s = stop ∨ m.byte (valueEndPlace m stop s) = 0) ∧
  m.text (keyPlace m stop s + 1) (keyEndPlace m stop s) ≠ name ∧
  m.byte (separatorPlace m stop s) = 44

lemma HasColon.memberFrom_of_goesOn (h : HasColon m stop s) (hgo : GoesOn m stop name s) (n : Nat) :
    PubNub.memberFrom m stop name (n + 1) s =
      PubNub.memberFrom m stop name n (separatorPlace m stop s) := by
  rw [h.memberFrom, if_neg hgo.1, if_neg hgo.2.1, if_pos hgo.2.2]

/-- Where the loop does not go on, what is found is the value of this member. -/
lemma HasColon.memberFrom_of_not_goesOn (h : HasColon m stop s) (hgo : ¬ GoesOn m stop name s)
    {n : Nat} {found : PbjsonElem} (hok : PubNub.memberFrom m stop name (n + 1) s = .ok found) :
    valueEndPlace m stop s ≠ stop ∧
      found = ⟨valuePlace m stop s, valueEndPlace m stop s + 1⟩ := by
  rw [h.memberFrom] at hok
  by_cases hcomplete : valueEndPlace m stop s = stop ∨ m.byte (valueEndPlace m stop s) = 0
  · rw [if_pos hcomplete] at hok
    cases hok
  by_cases hname : m.text (keyPlace m stop s + 1) (keyEndPlace m stop s) = name
  · rw [if_neg hcomplete, if_pos hname] at hok
    cases hok
    exact ⟨fun heq => hcomplete (.inl heq), rfl⟩
  · have hcomma : m.byte (separatorPlace m stop s) ≠ 44 := fun h => hgo ⟨hcomplete, hname, h⟩
    rw [if_neg hcomplete, if_neg hname, if_neg hcomma] at hok
    split at hok
    · cases hok
    · split at hok <;> cases hok

/-- Where the value begins inside the window, one round looks at nothing behind it. -/
lemma HasColon.memberFromWithin_succ (h : HasColon m stop s) (hv : valuePlace m stop s < stop)
    (n : Nat) : memberFromWithin m stop stop name (n + 1) s =
    if valueEndPlace m stop s = stop ∨ m.byte (valueEndPlace m stop s) = 0 then
      some (.error .valueIncomplete)
    else if m.text (keyPlace m stop s + 1) (keyEndPlace m stop s) = name then
      some (.ok ⟨valuePlace m stop s, valueEndPlace m stop s + 1⟩)
    else if m.byte (separatorPlace m stop s) = 44 then
      memberFromWithin m stop stop name n (separatorPlace m stop s)
    else if m.byte (separatorPlace m stop s) ≠ 125 then some (.error .missingValueSeparator)
    else if separatorPlace m stop s < stop then some (.error .keyNotFound)
    else some (.error .objectIncomplete) := by
  have hend : pbjsonFindEndElementWithin m stop (valuePlace m stop s) stop =
      some (valueEndPlace m stop s) := pbjsonFindEndElementWithin_eq hv (Int.le_refl stop)
  have hendLe : valueEndPlace m stop s ≤ stop := pbjsonFindEndElement_le_of_lt hv
  rw [h.memberFromWithin_eq_bind, hend]
  by_cases hendEq : valueEndPlace m stop s = stop
  · simp [hendEq]
  by_cases hendByte : m.byte (valueEndPlace m stop s) = 0
  · simp [hendEq, hendByte, Memory.look_eq hendLe]
  have hseparatorLe : separatorPlace m stop s ≤ stop := pbjsonSkipWhitespace_le (by omega)
  have hseparator : pbjsonSkipWhitespaceWithin m stop (valueEndPlace m stop s + 1) stop =
      some (separatorPlace m stop s) := pbjsonSkipWhitespaceWithin_eq (by omega) (by omega)
  simp only [Option.bind_eq_bind, Option.bind_some, Memory.look_eq hendLe, hseparator,
    Memory.look_eq hseparatorLe, hendEq, hendByte, if_false, false_or]
  rfl

lemma HasColon.memberFromWithin_of_goesOn (h : HasColon m stop s) (hv : valuePlace m stop s < stop)
    (hgo : GoesOn m stop name s) (n : Nat) : memberFromWithin m stop stop name (n + 1) s =
      memberFromWithin m stop stop name n (separatorPlace m stop s) := by
  rw [h.memberFromWithin_succ hv, if_neg hgo.1, if_neg hgo.2.1, if_pos hgo.2.2]

lemma HasColon.memberFromWithin_of_not_goesOn (h : HasColon m stop s)
    (hv : valuePlace m stop s < stop) (hgo : ¬ GoesOn m stop name s) (n : Nat) :
    memberFromWithin m stop stop name (n + 1) s =
      some (PubNub.memberFrom m stop name (n + 1) s) := by
  rw [h.memberFromWithin_succ hv, h.memberFrom]
  by_cases hcomplete : valueEndPlace m stop s = stop ∨ m.byte (valueEndPlace m stop s) = 0
  · rw [if_pos hcomplete, if_pos hcomplete]
  by_cases hname : m.text (keyPlace m stop s + 1) (keyEndPlace m stop s) = name
  · rw [if_neg hcomplete, if_neg hcomplete, if_pos hname, if_pos hname]
  · have hcomma : m.byte (separatorPlace m stop s) ≠ 44 := fun h => hgo ⟨hcomplete, hname, h⟩
    rw [if_neg hcomplete, if_neg hcomplete, if_neg hname, if_neg hname, if_neg hcomma,
      if_neg hcomma]
    split
    · rfl
    · split <;> rfl

/-- Where the window ends behind the colon, the byte behind its end is looked at, unless a brace or
    a bracket lies at its end. -/
lemma HasColon.memberFromWithin_of_end (h : HasColon m stop s) (hv : valuePlace m stop s = stop)
    (n : Nat) : memberFromWithin m stop stop name (n + 1) s =
      if m.byte stop = 123 ∨ m.byte stop = 91 then some (.error .valueIncomplete) else none := by
  have hbehind : m.look stop (stop + 1) = none := Memory.look_eq_none (by omega)
  have hne : stop + 1 ≠ stop := by omega
  rw [h.memberFromWithin_eq_bind, hv, pbjsonFindEndElementWithin_end]
  split <;> simp [hbehind, hne]

/-- The value of a member lies behind the place where the member was looked for. -/
lemma lt_valuePlace (m : Memory) (stop s : Int) : s < valuePlace m stop s := by
  have hkey := le_pbjsonSkipWhitespace m (s + 1) stop
  have hkeyEnd := le_pbjsonFindEndString m (keyPlace m stop s + 1) stop
  have hcolon := le_pbjsonSkipWhitespace m (keyEndPlace m stop s + 1) stop
  have hvalue := le_pbjsonSkipWhitespace m (colonPlace m stop s + 1) stop
  rw [← keyPlace] at hkey
  rw [← keyEndPlace] at hkeyEnd
  rw [← colonPlace] at hcolon
  rw [← valuePlace] at hvalue
  omega

lemma lt_separatorPlace (m : Memory) (stop s : Int) : s < separatorPlace m stop s := by
  have hvalue := lt_valuePlace m stop s
  have hvalueEnd := le_pbjsonFindEndElement m (valuePlace m stop s) stop
  have hseparator := le_pbjsonSkipWhitespace m (valueEndPlace m stop s + 1) stop
  rw [← valueEndPlace] at hvalueEnd
  rw [← separatorPlace] at hseparator
  omega

end Rounds

/-! ## The loop -/

/-- The loop comes to a member behind whose colon the window ends, and what lies at its end is not
    taken for the beginning of an object or an array. -/
inductive EndsBehindColon (m : Memory) (stop : Int) (name : Bytes) : Int → Prop
  | here {s : Int} (colon : HasColon m stop s) (ends : valuePlace m stop s = stop)
      (byte : ¬ (m.byte stop = 123 ∨ m.byte stop = 91)) : EndsBehindColon m stop name s
  | next {s : Int} (colon : HasColon m stop s) (value : valuePlace m stop s < stop)
      (goesOn : GoesOn m stop name s)
      (behind : EndsBehindColon m stop name (separatorPlace m stop s)) : EndsBehindColon m stop name s

section Loop

variable {m : Memory} {stop : Int} {name : Bytes}

/-- The rounds that are allowed for are enough: the loop has ended before. -/
lemma memberFrom_rounds (n : Nat) : ∀ (s : Int) (k : Nat), (stop - s).toNat ≤ n → n ≤ k →
    memberFrom m stop name k s = memberFrom m stop name n s := by
  induction n with
  | zero =>
      intro s k hn _
      have hs : stop ≤ s := by omega
      cases k with
      | zero => rfl
      | succ k => rw [memberFrom_succ, if_pos hs, memberFrom]
  | succ n ih =>
      intro s k hn hk
      obtain ⟨k, rfl⟩ : ∃ j, k = j + 1 := ⟨k - 1, by omega⟩
      have hlt := lt_separatorPlace m stop s
      have hnext := ih (separatorPlace m stop s) k (by omega) (by omega)
      rw [memberFrom_succ, memberFrom_succ, hnext]

lemma memberFromWithin_eq_none {s : Int} (h : EndsBehindColon m stop name s) :
    ∀ n, (stop - s).toNat ≤ n → memberFromWithin m stop stop name n s = none := by
  induction h with
  | here colon ends byte =>
      intro n hn
      have hbefore := colon.before
      obtain ⟨n, rfl⟩ : ∃ k, n = k + 1 := ⟨n - 1, by omega⟩
      rw [colon.memberFromWithin_of_end ends, if_neg byte]
  | @next s colon value goesOn _ ih =>
      intro n hn
      have hbefore := colon.before
      have hlt := lt_separatorPlace m stop s
      obtain ⟨n, rfl⟩ : ∃ k, n = k + 1 := ⟨n - 1, by omega⟩
      rw [colon.memberFromWithin_of_goesOn value goesOn]
      exact ih n (by omega)

/-- Elsewhere the value of a member that is complete begins inside the window. -/
lemma HasColon.valuePlace_lt {s : Int} (hc : HasColon m stop s)
    (h : ¬ EndsBehindColon m stop name s) (hne : valueEndPlace m stop s ≠ stop) :
    valuePlace m stop s < stop := by
  rcases Int.lt_or_eq_of_le hc.valuePlace_le with hv | hv
  · exact hv
  · have hbyte : m.byte stop = 123 ∨ m.byte stop = 91 :=
      Classical.byContradiction fun hbyte => h (.here hc hv hbyte)
    exact absurd (by rw [valueEndPlace, hv, pbjsonFindEndElement_end hbyte]) hne

lemma memberFromWithin_eq_some (n : Nat) : ∀ s : Int, ¬ EndsBehindColon m stop name s →
    memberFromWithin m stop stop name n s = some (memberFrom m stop name n s) := by
  induction n with
  | zero => exact fun _ _ => rfl
  | succ n ih =>
      intro s h
      by_cases hc : HasColon m stop s
      swap
      · exact memberFromWithin_eq_of_not_hasColon hc n
      rcases Int.lt_or_eq_of_le hc.valuePlace_le with hv | hv
      · by_cases hgo : GoesOn m stop name s
        · rw [hc.memberFromWithin_of_goesOn hv hgo, hc.memberFrom_of_goesOn hgo]
          exact ih _ fun hbehind => h (.next hc hv hgo hbehind)
        · exact hc.memberFromWithin_of_not_goesOn hv hgo n
      · have hbyte : m.byte stop = 123 ∨ m.byte stop = 91 :=
          Classical.byContradiction fun hbyte => h (.here hc hv hbyte)
        have hend : valueEndPlace m stop s = stop := by
          rw [valueEndPlace, hv, pbjsonFindEndElement_end hbyte]
        rw [hc.memberFromWithin_of_end hv, if_pos hbyte, hc.memberFrom, if_pos (.inl hend)]

/-- What is found lies in the window and is not empty. -/
lemma memberFrom_inside (n : Nat) : ∀ (s : Int) (found : PbjsonElem),
    ¬ EndsBehindColon m stop name s → memberFrom m stop name n s = .ok found →
    s ≤ found.start ∧ found.start < found.stop ∧ found.stop ≤ stop := by
  induction n with
  | zero =>
      intro s found _ hok
      cases hok
  | succ n ih =>
      intro s found h hok
      obtain ⟨hc, hne, -⟩ := memberFrom_ok hok
      have hv := hc.valuePlace_lt h hne
      by_cases hgo : GoesOn m stop name s
      · rw [hc.memberFrom_of_goesOn hgo] at hok
        have hlt := lt_separatorPlace m stop s
        have hnext := ih _ found (fun hbehind => h (.next hc hv hgo hbehind)) hok
        omega
      · obtain ⟨-, rfl⟩ := hc.memberFrom_of_not_goesOn hgo hok
        have hlt := lt_valuePlace m stop s
        have hend := le_pbjsonFindEndElement m (valuePlace m stop s) stop
        have hendLe := pbjsonFindEndElement_le_of_lt (m := m) hv
        rw [← valueEndPlace] at hend hendLe
        dsimp only
        omega

end Loop

/-! ## `pbjson_get_object_value` -/

section Window

variable (m : Memory) (p : PbjsonElem) (name : Bytes)

/-- Where the object begins. -/
def objectPlace : Int := pbjsonSkipWhitespace m p.start p.stop

/-- The loop is begun, and comes to a member behind whose colon the window ends. -/
def CutBehindColon : Prop :=
  name.length % 2 ^ 32 ≠ 0 ∧ m.byte (objectPlace m p) = 123 ∧
    EndsBehindColon m p.stop (name.take (name.length % 2 ^ 32)) (objectPlace m p)

variable {m p name}

lemma pbjsonGetObjectValueWithin_eq_bind (h : p.start ≤ p.stop) :
    pbjsonGetObjectValueWithin m p.stop p name =
      if name.length % 2 ^ 32 = 0 then some (.error .invalidKeyName)
      else if m.byte (objectPlace m p) ≠ 123 then some (.error .noStartCurly)
      else memberFromWithin m p.stop p.stop (name.take (name.length % 2 ^ 32))
        (p.stop - objectPlace m p).toNat (objectPlace m p) := by
  have hplace : pbjsonSkipWhitespaceWithin m p.stop p.start p.stop = some (objectPlace m p) :=
    pbjsonSkipWhitespaceWithin_eq (by omega) (by omega)
  have hle : objectPlace m p ≤ p.stop := pbjsonSkipWhitespace_le h
  rw [pbjsonGetObjectValueWithin, hplace]
  by_cases hname : name.length % 2 ^ 32 = 0
  · simp only [Option.bind_eq_bind, Option.bind_some, if_pos hname]
    rfl
  · simp only [Option.bind_eq_bind, Option.bind_some, Memory.look_eq hle, if_neg hname]
    rfl

lemma pbjsonGetObjectValueWithin_of_cut (h : p.start ≤ p.stop) (hcut : CutBehindColon m p name) :
    pbjsonGetObjectValueWithin m p.stop p name = none := by
  obtain ⟨hname, hbrace, hends⟩ := hcut
  rw [pbjsonGetObjectValueWithin_eq_bind h, if_neg hname, if_neg (by simp [hbrace])]
  exact memberFromWithin_eq_none hends _ (Nat.le_refl _)

lemma pbjsonGetObjectValueWithin_eq (h : p.start ≤ p.stop) (hcut : ¬ CutBehindColon m p name) :
    pbjsonGetObjectValueWithin m p.stop p name = some (pbjsonGetObjectValue m p name) := by
  rw [pbjsonGetObjectValueWithin_eq_bind h, pbjsonGetObjectValue, ← objectPlace]
  by_cases hname : name.length % 2 ^ 32 = 0
  · rw [if_pos hname, if_pos hname]
  by_cases hbrace : m.byte (objectPlace m p) ≠ 123
  · rw [if_neg hname, if_pos hbrace, if_neg hname, if_pos hbrace]
  rw [if_neg hname, if_neg hbrace, if_neg hname, if_neg hbrace]
  refine memberFromWithin_eq_some _ _ fun hends => hcut ⟨hname, ?_, hends⟩
  exact Classical.not_not.mp hbrace

lemma pbjsonGetObjectValue_inside {found : PbjsonElem} (hcut : ¬ CutBehindColon m p name)
    (hok : pbjsonGetObjectValue m p name = .ok found) :
    p.start ≤ found.start ∧ found.start < found.stop ∧ found.stop ≤ p.stop := by
  rw [pbjsonGetObjectValue, ← objectPlace] at hok
  split at hok
  · cases hok
  · rename_i hname
    split at hok
    · cases hok
    · rename_i hbrace
      have hbyte : m.byte (objectPlace m p) = 123 := Classical.not_not.mp hbrace
      have hstart : p.start ≤ objectPlace m p := le_pbjsonSkipWhitespace m p.start p.stop
      have hin := memberFrom_inside _ _ found (fun hends => hcut ⟨hname, hbyte, hends⟩) hok
      omega

/-- The loop ends, nothing behind the end of the window is looked at, and what is found lies in it:
    exactly where the window does not end behind the colon of a member that the loop comes to. -/
theorem object_value_inspects_window (m : Memory) (p : PbjsonElem) (name : Bytes)
    (h : p.start ≤ p.stop) :
    ((∀ n s, (p.stop - s).toNat ≤ n →
        memberFrom m p.stop name n s = memberFrom m p.stop name (p.stop - s).toNat s) ∧
      pbjsonGetObjectValueWithin m p.stop p name = some (pbjsonGetObjectValue m p name) ∧
      ∀ found, pbjsonGetObjectValue m p name = .ok found →
        p.start ≤ found.start ∧ found.start < found.stop ∧ found.stop ≤ p.stop) ↔
    ¬ CutBehindColon m p name := by
  constructor
  · rintro ⟨-, hlooks, -⟩ hcut
    rw [pbjsonGetObjectValueWithin_of_cut h hcut] at hlooks
    cases hlooks
  · intro hcut
    refine ⟨fun n s hn => ?_, pbjsonGetObjectValueWithin_eq h hcut, fun found hok => ?_⟩
    · exact memberFrom_rounds _ s n (Nat.le_refl _) hn
    · exact pbjsonGetObjectValue_inside hcut hok

/-- In `{"a":1}` the value of `a` is found, and the object is not left. -/
theorem object_value_inspects_window_closed :
    pbjsonGetObjectValue ⟨ascii "\x7b\"a\":1\x7d", []⟩ ⟨0, 7⟩ (ascii "a") = .ok ⟨5, 6⟩ ∧
      ¬ CutBehindColon ⟨ascii "\x7b\"a\":1\x7d", []⟩ ⟨0, 7⟩ (ascii "a") := by
  have hfound : pbjsonGetObjectValue ⟨ascii "\x7b\"a\":1\x7d", []⟩ ⟨0, 7⟩ (ascii "a") = .ok ⟨5, 6⟩ := by
    decide +kernel
  refine ⟨hfound, (object_value_inspects_window _ _ _ (by decide)).mp ⟨?_, ?_, ?_⟩⟩
  · exact fun n s hn => memberFrom_rounds _ s n (Nat.le_refl _) hn
  · decide +kernel
  · intro found hok
    rw [hfound] at hok
    cases hok
    decide

/-- Behind `{"a":` the value is taken from behind the window. -/
theorem object_value_not_always_inspects_window :
    ¬ ∀ (m : Memory) (p : PbjsonElem) (name : Bytes), p.start ≤ p.stop →
      (∀ n s, (p.stop - s).toNat ≤ n →
        memberFrom m p.stop name n s = memberFrom m p.stop name (p.stop - s).toNat s) ∧
      pbjsonGetObjectValueWithin m p.stop p name = some (pbjsonGetObjectValue m p name) ∧
      ∀ found, pbjsonGetObjectValue m p name = .ok found →
        p.start ≤ found.start ∧ found.start < found.stop ∧ found.stop ≤ p.stop := by
  intro hall
  have hinside := (hall ⟨ascii "\x7b\"a\":1\x7d", []⟩ ⟨0, 5⟩ (ascii "a") (by decide)).2.2 ⟨5, 7⟩ (by decide +kernel)
  exact absurd hinside.2.2 (by decide)

end Window

end PubNub
