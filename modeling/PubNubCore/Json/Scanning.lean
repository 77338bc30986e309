import PubNubCore.Json.Inspection
import PubNubCore.Lib.JsonText
import PubNubCore.Lib.Placed

/-!
# What the scanners do with well formed texts

The three scanners that look for the end of a value, on the texts of the grammar.  The one for
objects and arrays keeps two levels in `int`s: where a text nests deeper than an `int` counts, the
level overflows, and what then happens is not defined.  A run over a text either comes back to the
levels it began with, or overflows, and which of the two depends on how deep the text nests
(`IsJson.run`).
-/

namespace PubNub

open JsonText

/-! ## Reading a text -/

namespace Memory

/-- At a place there lies a text. -/
abbrev Reads (m : Memory) : Int → Bytes → Prop := LiesAt m.byte

variable {m : Memory} {p s e : Int} {t u : Bytes} {c : UInt8}

lemma reads_append : m.Reads p (t ++ u) ↔ m.Reads p t ∧ m.Reads (p + t.length) u := liesAt_append

lemma text_of_le (h : e ≤ s) : m.text s e = [] := by
  have hnone : (e - s).toNat = 0 := by omega
  rw [text, hnone]
  rfl

lemma text_of_lt (h : s < e) : m.text s e = m.byte s :: m.text (s + 1) e := by
  have hsucc : (e - s).toNat = (e - (s + 1)).toNat + 1 := by omega
  rw [text, text, hsucc, List.range_succ_eq_map, List.map_cons, List.map_map]
  congr 1
  · simp
  · refine List.map_congr_left fun k _ => ?_
    rw [Function.comp_apply, Nat.succ_eq_add_one, Int.natCast_succ, Int.add_assoc, Int.add_comm 1]

/-- What lies between two places lies at the first, and is as long as they are apart. -/
lemma reads_of_text (h : m.text s e = t) (ht : t ≠ []) : m.Reads s t ∧ e = s + t.length := by
  induction t generalizing s with
  | nil => exact absurd rfl ht
  | cons c t ih =>
      have hlt : s < e := by
        by_contra hle
        rw [text_of_le (by omega)] at h
        cases h
      rw [text_of_lt hlt] at h
      injection h with hc hrest
      cases t with
      | nil =>
          have hle : e ≤ s + 1 := by
            by_contra hlt'
            rw [text_of_lt (by omega)] at hrest
            cases hrest
          refine ⟨⟨hc, trivial⟩, ?_⟩
          simp only [List.length_cons, List.length_nil]
          omega
      | cons d t =>
          obtain ⟨hreads, hend⟩ := ih hrest (List.cons_ne_nil d t)
          refine ⟨⟨hc, hreads⟩, ?_⟩
          simp only [List.length_cons] at hend ⊢
          omega

lemma text_of_reads (h : m.Reads s t) : m.text s (s + t.length) = t := by
  induction t generalizing s with
  | nil => exact text_of_le (by simp)
  | cons c t ih =>
      have hend : s + ((c :: t).length : Int) = s + 1 + (t.length : Int) := by
        rw [List.length_cons, Int.natCast_succ]
        omega
      have hlt : s < s + ((c :: t).length : Int) := by
        rw [List.length_cons]
        omega
      rw [text_of_lt hlt, hend, ih h.2, h.1]

/-! ## Loops over a text -/

section Scans

variable {σ : Type} {body : σ → UInt8 → Option σ} {st st' : σ} {n : Nat}

/-- A loop passes over a text that its body passes over. -/
lemma scan_of_foldlM (hr : m.Reads p t) (hn : t.length ≤ n) (h : t.foldlM body st = some st') :
    m.scan body n st p = m.scan body (n - t.length) st' (p + t.length) := by
  induction t generalizing p st n with
  | nil =>
      cases h
      simp
  | cons c t ih =>
      obtain ⟨n, rfl⟩ : ∃ k, n = k + 1 := ⟨n - 1, by simp at hn; omega⟩
      obtain ⟨hc, hrest⟩ := hr
      rw [List.foldlM_cons] at h
      cases hbody : body st c with
      | none => simp [hbody] at h
      | some st'' =>
          rw [hbody] at h
          have hnext := ih hrest (by simpa using hn) h
          have hend : p + 1 + (t.length : Int) = p + ((c :: t).length : Int) := by
            rw [List.length_cons, Int.natCast_succ]
            omega
          have hleft : n + 1 - (c :: t).length = n - t.length := by
            rw [List.length_cons]
            omega
          rw [scan, hc, hbody, hleft, ← hend]
          exact hnext

/-- It ends where its body ends. -/
lemma scan_of_none (h : body st (m.byte p) = none) : m.scan body n st p = p := by
  cases n with
  | zero => rfl
  | succ n => rw [scan, h]

end Scans

end Memory

/-! ## Whitespace, strings and scalars -/

section Simple

variable {m : Memory} {p e : Int} {t : Bytes}

lemma isJsonSpace_iff {c : UInt8} : isJsonSpace c = true ↔ IsSpace c := by
  simp only [isJsonSpace, IsSpace, Bool.or_eq_true, beq_iff_eq]
  tauto

lemma foldlM_isJsonSpace (h : IsWs t) :
    t.foldlM (fun (_ : Unit) c => if isJsonSpace c then some () else none) () = some () := by
  induction t with
  | nil => rfl
  | cons c t ih =>
      rw [IsWs, List.forall_mem_cons, ← isJsonSpace_iff] at h
      rw [List.foldlM_cons, if_pos h.1]
      exact ih h.2

/-- Whitespace is skipped up to what is none. -/
lemma pbjsonSkipWhitespace_reads (h : IsWs t) (hr : m.Reads p t) (he : p + t.length ≤ e)
    (hbyte : ¬ IsSpace (m.byte (p + t.length))) : pbjsonSkipWhitespace m p e = p + t.length := by
  rw [pbjsonSkipWhitespace, Memory.scan_of_foldlM hr (by omega) (foldlM_isJsonSpace h)]
  refine Memory.scan_of_none (if_neg ?_)
  rwa [isJsonSpace_iff]

lemma stringByte_plain {c : UInt8} (hnul : c ≠ 0) (hquote : c ≠ 34) (hbackslash : c ≠ 92) :
    stringByte false c = some false := by
  rw [stringByte, if_neg hbackslash, if_neg hnul, if_neg (fun h => hquote h.1)]

lemma stringByte_escaped {c : UInt8} (hnul : c ≠ 0) : stringByte true c = some false := by
  by_cases hbackslash : c = 92
  · rw [stringByte, if_pos hbackslash, Bool.not_true]
  · rw [stringByte, if_neg hbackslash, if_neg hnul, if_neg (fun h => Bool.noConfusion h.2)]

lemma stringByte_backslash : stringByte false 92 = some true := rfl

lemma IsHexDigit.plain {c : UInt8} (h : IsHexDigit c) : c ≠ 0 ∧ c ≠ 34 ∧ c ≠ 92 := by
  simp only [IsHexDigit, IsDigit, UInt8.le_iff_toNat_le, UInt8.reduceToNat] at h
  simp only [ne_eq, ← UInt8.toNat_inj, UInt8.reduceToNat]
  omega

lemma foldlM_stringByte (h : IsStringBody t) : t.foldlM stringByte false = some false := by
  induction h with
  | nil => rfl
  | plain control quote backslash _ ih =>
      have hnul : ∀ c : UInt8, 32 ≤ c → c ≠ 0 := by
        rintro c hc rfl
        exact absurd hc (by decide)
      rw [List.foldlM_cons, stringByte_plain (hnul _ control) quote backslash]
      exact ih
  | escape known _ ih =>
      have hnul : ∀ c ∈ ([34, 92, 47, 98, 102, 110, 114, 116] : Bytes), c ≠ 0 := by simp
      simpa [stringByte_backslash, stringByte_escaped (hnul _ known)] using ih
  | unicode hex _ ih =>
      simp only [List.forall_mem_cons] at hex
      obtain ⟨h₁, h₂, h₃, h₄, -⟩ := hex
      obtain ⟨hnul₁, hquote₁, hbackslash₁⟩ := IsHexDigit.plain h₁
      obtain ⟨hnul₂, hquote₂, hbackslash₂⟩ := IsHexDigit.plain h₂
      obtain ⟨hnul₃, hquote₃, hbackslash₃⟩ := IsHexDigit.plain h₃
      obtain ⟨hnul₄, hquote₄, hbackslash₄⟩ := IsHexDigit.plain h₄
      simp [stringByte_backslash, stringByte_escaped, stringByte_plain, *]

/-- A string ends at its quote. -/
lemma pbjsonFindEndString_reads (h : IsStringBody t) (hr : m.Reads p t) (he : p + t.length ≤ e)
    (hbyte : m.byte (p + t.length) = 34) : pbjsonFindEndString m p e = p + t.length := by
  rw [pbjsonFindEndString, Memory.scan_of_foldlM hr (by omega) (foldlM_stringByte h)]
  exact Memory.scan_of_none (by rw [hbyte]; rfl)

/-- What may follow a value in an object or an array. -/
def EndsScalar (c : UInt8) : Prop := IsSpace c ∨ c = 44 ∨ c = 125 ∨ c = 93

lemma IsScalarByte.not_endsScalar {c : UInt8} (h : IsScalarByte c) : ¬ EndsScalar c ∧ c ≠ 0 := by
  simp only [IsScalarByte, UInt8.le_iff_toNat_le, ← UInt8.toNat_inj, ne_eq,
    UInt8.reduceToNat] at h
  simp only [EndsScalar, IsSpace, ← UInt8.toNat_inj, ne_eq, UInt8.reduceToNat]
  omega

/-- A scalar ends in front of what follows it. -/
lemma pbjsonFindEndPrimitive_reads (h : ∀ c ∈ t, IsScalarByte c) (hr : m.Reads p t)
    (he : p + t.length < e) (hbyte : EndsScalar (m.byte (p + t.length))) :
    pbjsonFindEndPrimitive m p e = p + t.length - 1 := by
  have hends : ∀ c : UInt8, (isJsonSpace c || c == 44 || c == 125 || c == 93) = true ↔
      EndsScalar c := by
    intro c
    simp only [EndsScalar, Bool.or_eq_true, isJsonSpace_iff, beq_iff_eq]
    tauto
  have hrun : t.foldlM (fun (_ : Unit) c => if (isJsonSpace c || c == 44 || c == 125 || c == 93) ||
      c == 0 then none else some ()) () = some () := by
    clear hr he hbyte
    induction t with
    | nil => rfl
    | cons c t ih =>
        rw [List.forall_mem_cons] at h
        obtain ⟨hno, hnul⟩ := IsScalarByte.not_endsScalar h.1
        rw [List.foldlM_cons, if_neg]
        · exact ih h.2
        · rw [Bool.or_eq_true, hends, beq_iff_eq]
          tauto
  have hscan := Memory.scan_of_foldlM (n := (e - p).toNat) hr (by omega) hrun
  have hstop : m.scan (fun (_ : Unit) c => if (isJsonSpace c || c == 44 || c == 125 || c == 93) ||
      c == 0 then none else some ()) ((e - p).toNat - t.length) () (p + t.length) =
      p + t.length := by
    refine Memory.scan_of_none (if_pos ?_)
    rw [Bool.or_eq_true, hends]
    exact .inl hbyte
  rw [pbjsonFindEndPrimitive]
  dsimp only
  rw [hscan, hstop, if_pos ⟨he, (hends _).mpr hbyte⟩]

end Simple

/-! ## Objects and arrays -/

/-- Whether the next byte counts a level beyond what an `int` holds. -/
def ComplexScan.overflows (l : ComplexScan) (c : UInt8) : Bool :=
  !l.inString && (c == 123 && l.braceLevel == 2 ^ 31 - 1 || c == 125 && l.braceLevel == -2 ^ 31 ||
    c == 91 && l.bracketLevel == 2 ^ 31 - 1 || c == 93 && l.bracketLevel == -2 ^ 31)

/-- Whether a level overflows in the loop of `pbjson_find_end_complex`. -/
def Memory.overflows (m : Memory) : Nat → ComplexScan → Int → Bool
  | 0, _, _ => false
  | n + 1, l, p => l.overflows (m.byte p) ||
      match l.byte (m.byte p) with
      | some l' => m.overflows n l' (p + 1)
      | none => false

/-- Whether one does in `pbjson_find_end_element`. -/
def elementOverflows (m : Memory) (s e : Int) : Bool :=
  (m.byte s == 123 || m.byte s == 91) && m.overflows (e - s).toNat {} s

/-- How a run of the body over a text ends if it does not pass over it. -/
inductive RunEnd
  | overflow | stopped
  deriving DecidableEq

namespace ComplexScan

def next (l : ComplexScan) (c : UInt8) : Except RunEnd ComplexScan :=
  if l.overflows c then .error .overflow
  else match l.byte c with
    | some l' => .ok l'
    | none => .error .stopped

def run (l : ComplexScan) (t : Bytes) : Except RunEnd ComplexScan := t.foldlM next l

/-- Outside of a string, on two levels. -/
def levels (b c : Int) : ComplexScan := { braceLevel := b, bracketLevel := c }

/-- A text that begins on two levels and nests as deep as the two numbers say overflows, or comes
    back to them. -/
def comesBack (b c : Int) (x y : Nat) : Except RunEnd ComplexScan :=
  if b + x < 2 ^ 31 ∧ c + y < 2 ^ 31 then .ok (levels b c) else .error .overflow

variable {l l' : ComplexScan} {b c : Int} {x y : Nat} {t u : Bytes}

lemma run_cons (d : UInt8) : l.run (d :: t) = l.next d >>= fun l' => l'.run t := rfl

lemma run_append : l.run (t ++ u) = l.run t >>= fun l' => l'.run u := List.foldlM_append

lemma run_cons_of_next {d : UInt8} (h : l.next d = .ok l') : l.run (d :: t) = l'.run t := by
  rw [run_cons, h]
  rfl

lemma run_append_of_run (h : l.run t = .ok l') : l.run (t ++ u) = l'.run u := by
  rw [run_append, h]
  rfl

lemma wrapInt_of_range {i : Int} (hlow : -2 ^ 31 ≤ i) (hhigh : i < 2 ^ 31) : wrapInt i = i := by
  rw [wrapInt]
  exact Int.bmod_eq_of_le (by omega) (by omega)

/-- A byte that is neither a quote nor a bracket changes nothing outside of a string. -/
lemma next_neutral {d : UInt8} (hd : d ≠ 0 ∧ d ≠ 34 ∧ d ≠ 91 ∧ d ≠ 93 ∧ d ≠ 123 ∧ d ≠ 125) :
    (levels b c).next d = .ok (levels b c) := by
  obtain ⟨hnul, hquote, hopen, hclose, hopenBrace, hcloseBrace⟩ := hd
  simp [next, overflows, byte, levels, *]

lemma run_neutral (h : ∀ d ∈ t, d ≠ 0 ∧ d ≠ 34 ∧ d ≠ 91 ∧ d ≠ 93 ∧ d ≠ 123 ∧ d ≠ 125) :
    (levels b c).run t = .ok (levels b c) := by
  induction t with
  | nil => rfl
  | cons d t ih =>
      rw [List.forall_mem_cons] at h
      rw [run_cons_of_next (next_neutral h.1)]
      exact ih h.2

lemma run_ws (h : IsWs t) : (levels b c).run t = .ok (levels b c) := by
  refine run_neutral fun d hd => ?_
  rcases h d hd with rfl | rfl | rfl | rfl <;> decide

lemma run_scalar (h : IsScalar t) : (levels b c).run t = .ok (levels b c) := by
  refine run_neutral fun d hd => ?_
  have hbyte := h.isScalarByte d hd
  simp only [IsScalarByte, UInt8.le_iff_toNat_le, ← UInt8.toNat_inj, ne_eq,
    UInt8.reduceToNat] at hbyte ⊢
  omega

/-- In a string it is done what `pbjson_find_end_string` does. -/
lemma run_inString {inEscape inEscape' : Bool}
    (h : t.foldlM stringByte inEscape = some inEscape') :
    run ⟨true, inEscape, c, b⟩ t = .ok ⟨true, inEscape', c, b⟩ := by
  induction t generalizing inEscape with
  | nil =>
      cases h
      rfl
  | cons d t ih =>
      rw [List.foldlM_cons] at h
      cases hbyte : stringByte inEscape d with
      | none => simp [hbyte] at h
      | some mid =>
          have hnext : next ⟨true, inEscape, c, b⟩ d = .ok ⟨true, mid, c, b⟩ := by
            rw [stringByte] at hbyte
            split at hbyte
            · rename_i hbackslash
              cases hbyte
              simp [next, overflows, byte, hbackslash]
            · rename_i hbackslash
              split at hbyte
              · cases hbyte
              · rename_i hnul
                split at hbyte
                · cases hbyte
                · rename_i hquote
                  cases hbyte
                  simp [next, overflows, byte, hbackslash, hnul, hquote]
          rw [hbyte] at h
          rw [run_cons_of_next hnext]
          exact ih h

/-- A string changes nothing. -/
lemma run_string (h : IsStringBody t) :
    (levels b c).run (34 :: (t ++ 34 :: u)) = (levels b c).run u := by
  have hopen : (levels b c).next 34 = .ok ⟨true, false, c, b⟩ := by simp [next, overflows, byte, levels]
  have hclose : next ⟨true, false, c, b⟩ 34 = .ok (levels b c) := by
    simp [next, overflows, byte, levels]
  rw [run_cons_of_next hopen, run_append_of_run (run_inString (foldlM_stringByte h)),
    run_cons_of_next hclose]

/-- An opening brace goes one level up, or the level overflows. -/
lemma next_openBrace (h0 : 0 ≤ b) (hb : b < 2 ^ 31) : (levels b c).next 123 =
    if b + 1 < 2 ^ 31 then .ok (levels (b + 1) c) else .error .overflow := by
  by_cases hlast : b = 2 ^ 31 - 1
  · subst hlast
    simp [next, overflows, levels]
  · have hsucc : b + 1 < 2 ^ 31 := by omega
    have hne : b ≠ 2147483647 := by omega
    have hwrap : wrapInt (b + 1) = b + 1 := wrapInt_of_range (by omega) hsucc
    rw [if_pos hsucc]
    simp [next, overflows, byte, levels, hne, hwrap]

lemma next_openBracket (h0 : 0 ≤ c) (hc : c < 2 ^ 31) : (levels b c).next 91 =
    if c + 1 < 2 ^ 31 then .ok (levels b (c + 1)) else .error .overflow := by
  by_cases hlast : c = 2 ^ 31 - 1
  · subst hlast
    simp [next, overflows, levels]
  · have hsucc : c + 1 < 2 ^ 31 := by omega
    have hne : c ≠ 2147483647 := by omega
    have hwrap : wrapInt (c + 1) = c + 1 := wrapInt_of_range (by omega) hsucc
    rw [if_pos hsucc]
    simp [next, overflows, byte, levels, hne, hwrap]

/-- A closing one goes one down, and ends the run where all are closed. -/
lemma next_closeBrace (h0 : 0 ≤ b) (hb : b + 1 < 2 ^ 31) : (levels (b + 1) c).next 125 =
    if b = 0 ∧ c = 0 then .error .stopped else .ok (levels b c) := by
  have hne : b + 1 ≠ -2147483648 := by omega
  have hwrap : wrapInt b = b := wrapInt_of_range (by omega) (by omega)
  by_cases hlast : b = 0 ∧ c = 0
  · simp [next, overflows, byte, levels, hlast, wrapInt]
  · simp [next, overflows, byte, levels, hlast, hwrap, hne]

lemma next_closeBracket (h0 : 0 ≤ c) (hc : c + 1 < 2 ^ 31) : (levels b (c + 1)).next 93 =
    if b = 0 ∧ c = 0 then .error .stopped else .ok (levels b c) := by
  have hne : c + 1 ≠ -2147483648 := by omega
  have hwrap : wrapInt c = c := wrapInt_of_range (by omega) (by omega)
  by_cases hlast : b = 0 ∧ c = 0
  · simp [next, overflows, byte, levels, hlast, wrapInt]
  · have hlast' : ¬ (c = 0 ∧ b = 0) := fun h => hlast ⟨h.2, h.1⟩
    simp [next, overflows, byte, levels, hlast, hlast', hwrap, hne]
/-- The front of an array, without the bracket that closes it. -/
lemma run_openBracket (h0 : 0 ≤ c) (hc : c < 2 ^ 31)
    (ht : c + 1 < 2 ^ 31 → (levels b (c + 1)).run t = comesBack b (c + 1) x y) :
    (levels b c).run (91 :: t) = if b + x < 2 ^ 31 ∧ c + ↑(y + 1) < 2 ^ 31 then
      .ok (levels b (c + 1)) else .error .overflow := by
  by_cases hsucc : c + 1 < 2 ^ 31
  · have hnext : (levels b c).next 91 = .ok (levels b (c + 1)) := by
      rw [next_openBracket h0 hc, if_pos hsucc]
    rw [run_cons_of_next hnext, ht hsucc, comesBack]
    refine if_congr ?_ rfl rfl
    push_cast
    omega
  · rw [run_cons, next_openBracket h0 hc, if_neg hsucc, if_neg (by push_cast; omega)]
    rfl

lemma run_openBrace (h0 : 0 ≤ b) (hb : b < 2 ^ 31)
    (ht : b + 1 < 2 ^ 31 → (levels (b + 1) c).run t = comesBack (b + 1) c x y) :
    (levels b c).run (123 :: t) = if b + ↑(x + 1) < 2 ^ 31 ∧ c + y < 2 ^ 31 then
      .ok (levels (b + 1) c) else .error .overflow := by
  by_cases hsucc : b + 1 < 2 ^ 31
  · have hnext : (levels b c).next 123 = .ok (levels (b + 1) c) := by
      rw [next_openBrace h0 hb, if_pos hsucc]
    rw [run_cons_of_next hnext, ht hsucc, comesBack]
    refine if_congr ?_ rfl rfl
    push_cast
    omega
  · rw [run_cons, next_openBrace h0 hb, if_neg hsucc, if_neg (by push_cast; omega)]
    rfl

/-- Inside of brackets an array comes back to the levels it began on. -/
lemma run_array (h0 : 0 ≤ c) (hc : c < 2 ^ 31) (hin : 0 < b + c)
    (ht : c + 1 < 2 ^ 31 → (levels b (c + 1)).run t = comesBack b (c + 1) x y) :
    (levels b c).run (91 :: (t ++ [93])) = comesBack b c x (y + 1) := by
  rw [← List.cons_append, run_append, run_openBracket h0 hc ht, comesBack]
  by_cases hfits : b + x < 2 ^ 31 ∧ c + ↑(y + 1) < 2 ^ 31
  · have hclose : (levels b (c + 1)).next 93 = .ok (levels b c) := by
      rw [next_closeBracket h0 (by omega), if_neg (by omega)]
    rw [if_pos hfits, if_pos hfits]
    exact run_cons_of_next hclose
  · rw [if_neg hfits, if_neg hfits]
    rfl

lemma run_object (h0 : 0 ≤ b) (hb : b < 2 ^ 31) (hin : 0 < b + c)
    (ht : b + 1 < 2 ^ 31 → (levels (b + 1) c).run t = comesBack (b + 1) c x y) :
    (levels b c).run (123 :: (t ++ [125])) = comesBack b c (x + 1) y := by
  rw [← List.cons_append, run_append, run_openBrace h0 hb ht, comesBack]
  by_cases hfits : b + ↑(x + 1) < 2 ^ 31 ∧ c + y < 2 ^ 31
  · have hclose : (levels (b + 1) c).next 125 = .ok (levels b c) := by
      rw [next_closeBrace h0 (by omega), if_neg (by omega)]
    rw [if_pos hfits, if_pos hfits]
    exact run_cons_of_next hclose
  · rw [if_neg hfits, if_neg hfits]
    rfl

lemma comesBack_zero (hb : b < 2 ^ 31) (hc : c < 2 ^ 31) :
    comesBack b c 0 0 = .ok (levels b c) := by
  rw [comesBack, if_pos (by simpa using ⟨hb, hc⟩)]

/-- Two texts with a comma between them. -/
lemma run_comma {x' y' : Nat} (ht : (levels b c).run t = comesBack b c x y)
    (hu : (levels b c).run u = comesBack b c x' y') :
    (levels b c).run (t ++ 44 :: u) = comesBack b c (max x x') (max y y') := by
  rw [run_append, ht, comesBack]
  by_cases hfits : b + x < 2 ^ 31 ∧ c + y < 2 ^ 31
  · have hcomma : (levels b c).run (44 :: u) = (levels b c).run u :=
      run_cons_of_next (next_neutral (by decide))
    rw [if_pos hfits]
    refine (hcomma.trans hu).trans ?_
    rw [comesBack, comesBack]
    refine if_congr ?_ rfl rfl
    push_cast
    omega
  · rw [if_neg hfits, comesBack, if_neg (by push_cast; omega)]
    rfl

/-- A value between whitespace. -/
lemma run_spaced {w : Bytes} (hw : IsWs w) (ht : (levels b c).run t = comesBack b c x y)
    (hu : IsWs u) : (levels b c).run (w ++ (t ++ u)) = comesBack b c x y := by
  rw [run_append_of_run (run_ws hw), run_append, ht, comesBack]
  by_cases hfits : b + x < 2 ^ 31 ∧ c + y < 2 ^ 31
  · rw [if_pos hfits]
    exact run_ws hu
  · rw [if_neg hfits]
    rfl

/-- **A well formed text inside of brackets** comes back to the levels it began on, or a level
    overflows in it; it does where the text nests deeper than the `int`s count. -/
theorem run_of_isJson {part : Part} (h : IsJson part x y t) : ∀ {b c : Int}, 0 ≤ b → 0 ≤ c →
    b < 2 ^ 31 → c < 2 ^ 31 → 0 < b + c → (levels b c).run t = comesBack b c x y := by
  induction h with
  | scalar h =>
      intro b c _ _ hb hc _
      rw [comesBack_zero hb hc, run_scalar h]
  | string h =>
      intro b c _ _ hb hc _
      rw [comesBack_zero hb hc, run_string h]
      rfl
  | noElements h =>
      intro b c h0b h0c hb hc hin
      exact run_array h0c hc hin fun hsucc => by rw [run_ws h, comesBack_zero hb hsucc]
  | array _ ih =>
      intro b c h0b h0c hb hc hin
      exact run_array h0c hc hin fun hsucc => ih h0b (by omega) hb hsucc (by omega)
  | noMembers h =>
      intro b c h0b h0c hb hc hin
      exact run_object h0b hb hin fun hsucc => by rw [run_ws h, comesBack_zero hsucc hc]
  | object _ ih =>
      intro b c h0b h0c hb hc hin
      exact run_object h0b hb hin fun hsucc => ih (by omega) h0c hsucc hc (by omega)
  | element before _ behind ih =>
      intro b c h0b h0c hb hc hin
      exact run_spaced before (ih h0b h0c hb hc hin) behind
  | elements _ _ ihFirst ihRest =>
      intro b c h0b h0c hb hc hin
      exact run_comma (ihFirst h0b h0c hb hc hin) (ihRest h0b h0c hb hc hin)
  | member before key colon behindColon _ behind ih =>
      intro b c h0b h0c hb hc hin
      have hcolon : (levels b c).next 58 = .ok (levels b c) := next_neutral (by decide)
      rw [run_append_of_run (run_ws before), run_string key, run_append_of_run (run_ws colon),
        run_cons_of_next hcolon]
      exact run_spaced behindColon (ih h0b h0c hb hc hin) behind
  | members _ _ ihFirst ihRest =>
      intro b c h0b h0c hb hc hin
      exact run_comma (ihFirst h0b h0c hb hc hin) (ihRest h0b h0c hb hc hin)

lemma foldlM_of_run (h : l.run t = .ok l') : t.foldlM byte l = some l' := by
  induction t generalizing l with
  | nil =>
      cases h
      rfl
  | cons d t ih =>
      rw [run_cons, next] at h
      rw [List.foldlM_cons]
      split at h
      · cases h
      · cases hbyte : l.byte d with
        | none =>
            rw [hbyte] at h
            cases h
        | some mid =>
            rw [hbyte] at h
            exact ih h

lemma byte_of_next {d : UInt8} (h : l.next d = .error .stopped) :
    l.overflows d = false ∧ l.byte d = none := by
  rw [next] at h
  split at h
  · cases h
  · rename_i hoverflows
    refine ⟨Bool.not_eq_true _ ▸ hoverflows, ?_⟩
    cases hbyte : l.byte d with
    | none => rfl
    | some mid =>
        rw [hbyte] at h
        cases h

end ComplexScan

/-! ## The end of a value -/

section Ends

open ComplexScan

variable {m : Memory} {s e : Int} {n : Nat} {l l' : ComplexScan} {x y : Nat} {t u : Bytes}

lemma overflows_of_run (hr : m.Reads s t) (hn : t.length ≤ n) (h : l.run t = .ok l') :
    m.overflows n l s = m.overflows (n - t.length) l' (s + t.length) := by
  induction t generalizing s n l with
  | nil =>
      cases h
      simp
  | cons d t ih =>
      obtain ⟨n, rfl⟩ : ∃ k, n = k + 1 := ⟨n - 1, by simp at hn; omega⟩
      obtain ⟨hd, hrest⟩ := hr
      have hend : s + 1 + (t.length : Int) = s + ((d :: t).length : Int) := by
        rw [List.length_cons, Int.natCast_succ]
        omega
      have hleft : n + 1 - (d :: t).length = n - t.length := by
        rw [List.length_cons]
        omega
      rw [run_cons, next] at h
      rw [Memory.overflows, hd, hleft, ← hend]
      split at h
      · cases h
      · rename_i hoverflows
        rw [Bool.not_eq_true] at hoverflows
        cases hbyte : l.byte d with
        | none =>
            rw [hbyte] at h
            cases h
        | some mid =>
            rw [hbyte] at h
            rw [hoverflows, Bool.false_or]
            exact ih hrest (by simpa using hn) h

/-- Where a run over a text overflows, so does the loop over the memory where it lies. -/
lemma overflows_of_run_overflow (hr : m.Reads s t) (hn : t.length ≤ n)
    (h : l.run t = .error .overflow) : m.overflows n l s = true := by
  induction t generalizing s n l with
  | nil => cases h
  | cons d t ih =>
      obtain ⟨n, rfl⟩ : ∃ k, n = k + 1 := ⟨n - 1, by simp at hn; omega⟩
      obtain ⟨hd, hrest⟩ := hr
      rw [run_cons, next] at h
      rw [Memory.overflows, hd]
      split at h
      · rename_i hoverflows
        rw [hoverflows, Bool.true_or]
      · cases hbyte : l.byte d with
        | none =>
            rw [hbyte] at h
            cases h
        | some mid =>
            rw [hbyte] at h
            rw [Bool.or_eq_true]
            exact .inr (ih hrest (by simpa using hn) h)

/-- A text in front of the bracket that closes it. -/
lemma pbjsonFindEndComplex_reads {d : UInt8} (hr : m.Reads s (t ++ [d])) (he : s + t.length < e)
    (h : (levels 0 0).run t = .ok l') (hd : l'.next d = .error .stopped) :
    pbjsonFindEndComplex m s e = s + t.length ∧ m.overflows (e - s).toNat {} s = false := by
  obtain ⟨hoverflows, hbyte⟩ := byte_of_next hd
  obtain ⟨ht, hlast, -⟩ := Memory.reads_append.mp hr
  constructor
  · have hscan := Memory.scan_of_foldlM (n := (e - s).toNat) ht (by omega) (foldlM_of_run h)
    exact hscan.trans (Memory.scan_of_none (by rw [hlast, hbyte]))
  · have hrun := overflows_of_run (n := (e - s).toNat) ht (by omega) h
    refine hrun.trans ?_
    cases (e - s).toNat - t.length with
    | zero => rfl
    | succ k => rw [Memory.overflows, hlast, hoverflows, hbyte, Bool.false_or]

/-- The end of an object or an array. -/
lemma pbjsonFindEndElement_bracketed {o d : UInt8} (ho : o = 123 ∨ o = 91)
    (hr : m.Reads s (o :: (t ++ [d]))) (he : s + (o :: (t ++ [d])).length < e) {l' : ComplexScan}
    {fits : Prop} [Decidable fits]
    (h : (levels 0 0).run (o :: t) = if fits then .ok l' else .error .overflow)
    (hd : fits → l'.next d = .error .stopped) :
    (elementOverflows m s e = true ↔ ¬ fits) ∧
      (fits → pbjsonFindEndElement m s e = s + (o :: (t ++ [d])).length - 1) := by
  have hbyte : m.byte s = o := hr.1
  have hquote : m.byte s ≠ 34 := by
    rw [hbyte]
    rcases ho with rfl | rfl <;> decide
  have hopen : m.byte s = 123 ∨ m.byte s = 91 := hbyte ▸ ho
  have hlen : ((o :: (t ++ [d])).length : Int) = (o :: t).length + 1 := by simp
  rw [← List.cons_append] at hr
  have hover : elementOverflows m s e = m.overflows (e - s).toNat {} s := by
    rcases hopen with h | h <;> simp [elementOverflows, h]
  rw [hover]
  by_cases hfits : fits
  · rw [if_pos hfits] at h
    obtain ⟨hend, hno⟩ := pbjsonFindEndComplex_reads (e := e) hr (by omega) h (hd hfits)
    refine ⟨by simp [hno, hfits], fun _ => ?_⟩
    rw [pbjsonFindEndElement, if_neg hquote, if_pos hopen, hend]
    omega
  · rw [if_neg hfits] at h
    refine ⟨?_, fun hf => absurd hf hfits⟩
    have hrun := overflows_of_run_overflow (n := (e - s).toNat) (Memory.reads_append.mp hr).1
      (by omega) h
    exact ⟨fun _ => hfits, fun _ => hrun⟩

lemma pbjsonFindEndElement_array (ht : (levels 0 1).run t = comesBack 0 1 x y)
    (hr : m.Reads s (91 :: (t ++ [93]))) (he : s + (91 :: (t ++ [93]) : Bytes).length < e) :
    (elementOverflows m s e = true ↔ ¬ (x < 2 ^ 31 ∧ y + 1 < 2 ^ 31)) ∧
      (x < 2 ^ 31 ∧ y + 1 < 2 ^ 31 →
        pbjsonFindEndElement m s e = s + (91 :: (t ++ [93]) : Bytes).length - 1) := by
  have hfits : (0 + (x : Int) < 2 ^ 31 ∧ 0 + ((y + 1 : Nat) : Int) < 2 ^ 31) ↔
      (x < 2 ^ 31 ∧ y + 1 < 2 ^ 31) := by omega
  rw [← hfits]
  refine pbjsonFindEndElement_bracketed (.inr rfl) hr he
    (run_openBracket (Int.le_refl 0) (by decide) fun _ => ht) fun _ => ?_
  exact next_closeBracket (Int.le_refl 0) (by decide)

lemma pbjsonFindEndElement_object (ht : (levels 1 0).run t = comesBack 1 0 x y)
    (hr : m.Reads s (123 :: (t ++ [125]))) (he : s + (123 :: (t ++ [125]) : Bytes).length < e) :
    (elementOverflows m s e = true ↔ ¬ (x + 1 < 2 ^ 31 ∧ y < 2 ^ 31)) ∧
      (x + 1 < 2 ^ 31 ∧ y < 2 ^ 31 →
        pbjsonFindEndElement m s e = s + (123 :: (t ++ [125]) : Bytes).length - 1) := by
  have hfits : (0 + ((x + 1 : Nat) : Int) < 2 ^ 31 ∧ 0 + (y : Int) < 2 ^ 31) ↔
      (x + 1 < 2 ^ 31 ∧ y < 2 ^ 31) := by omega
  rw [← hfits]
  refine pbjsonFindEndElement_bracketed (.inl rfl) hr he
    (run_openBrace (Int.le_refl 0) (by decide) fun _ => ht) fun _ => ?_
  exact next_closeBrace (Int.le_refl 0) (by decide)

/-- **The end of a value** is its last byte, unless it nests too deep, which is where a level
    overflows. -/
theorem pbjsonFindEndElement_reads (h : IsJson .value x y t) (hr : m.Reads s t)
    (he : s + t.length < e) (hbyte : EndsScalar (m.byte (s + t.length))) :
    (elementOverflows m s e = true ↔ ¬ (x < 2 ^ 31 ∧ y < 2 ^ 31)) ∧
      (x < 2 ^ 31 ∧ y < 2 ^ 31 → pbjsonFindEndElement m s e = s + t.length - 1) := by
  cases h with
  | scalar h =>
      cases t with
      | nil => exact absurd rfl h.ne_nil
      | cons c t =>
          have hbytes := h.isScalarByte
          rw [List.forall_mem_cons] at hbytes
          have hne : c ≠ 34 ∧ c ≠ 123 ∧ c ≠ 91 := by
            have hc := hbytes.1
            simp only [IsScalarByte, UInt8.le_iff_toNat_le, ← UInt8.toNat_inj, ne_eq,
              UInt8.reduceToNat] at hc ⊢
            omega
          obtain ⟨hc, hrest⟩ := hr
          have hend : s + ((c :: t).length : Int) = s + 1 + t.length := by
            rw [List.length_cons, Int.natCast_succ]
            omega
          rw [hend] at he hbyte ⊢
          refine ⟨by simp [elementOverflows, hc, hne], fun _ => ?_⟩
          rw [pbjsonFindEndElement, hc, if_neg hne.1, if_neg (by simp [hne])]
          exact pbjsonFindEndPrimitive_reads hbytes.2 hrest he hbyte
  | @string t h =>
      obtain ⟨hquote, hrest⟩ := hr
      obtain ⟨ht, hlast, -⟩ := Memory.reads_append.mp hrest
      have hlen : ((34 :: (t ++ [34]) : Bytes).length : Int) = t.length + 2 := by
        simp
        omega
      rw [hlen] at he ⊢
      refine ⟨by simp [elementOverflows, hquote], fun _ => ?_⟩
      rw [pbjsonFindEndElement, if_pos hquote, pbjsonFindEndString_reads h ht (by omega) hlast]
      omega
  | noElements h =>
      refine pbjsonFindEndElement_array ?_ hr he
      rw [comesBack_zero (by decide) (by decide), run_ws h]
  | array h =>
      exact pbjsonFindEndElement_array
        (run_of_isJson h (by decide) (by decide) (by decide) (by decide) (by decide)) hr he
  | noMembers h =>
      refine pbjsonFindEndElement_object ?_ hr he
      rw [comesBack_zero (by decide) (by decide), run_ws h]
  | object h =>
      exact pbjsonFindEndElement_object
        (run_of_isJson h (by decide) (by decide) (by decide) (by decide) (by decide)) hr he

end Ends

end PubNub
