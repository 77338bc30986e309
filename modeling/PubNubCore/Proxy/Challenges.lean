import PubNubCore.Proxy.Authentication

/-!
# Challenges as they are written

The parameters of a `Proxy-Authenticate` challenge as RFC 7235 has them: names and values with blanks
around the equal signs and the commas, a value being a token or a quoted string.  `challengeText` is
what is sent, and `yields` is what repeated calls of `pbproxy_get_next_key_value` find in it.

`yields_iff` says when these are the parameters.  An unquoted value ends only at a blank, so one that
a comma follows takes the comma and more with it; and a quoted one ends behind the last `\"` of the
whole text, whichever value that is in, also where the backslash is itself escaped.
-/

namespace PubNub

/-! ## The grammar -/

/-- `tchar` of RFC 7230. -/
def isTchar (c : UInt8) : Bool :=
  (decide (48 ≤ c) && decide (c ≤ 57)) || (decide (65 ≤ c) && decide (c ≤ 90)) ||
    (decide (97 ≤ c) && decide (c ≤ 122)) ||
    [33, 35, 36, 37, 38, 39, 42, 43, 45, 46, 94, 95, 96, 124, 126].contains c

/-- `qdtext` of RFC 7230. -/
def isQdtext (c : UInt8) : Bool :=
  c == 9 || c == 32 || c == 33 || (decide (35 ≤ c) && decide (c ≤ 91)) ||
    (decide (93 ≤ c) && decide (c ≤ 126)) || decide (128 ≤ c)

/-- What may be behind the backslash of a `quoted-pair`. -/
def isPairText (c : UInt8) : Bool :=
  c == 9 || (decide (32 ≤ c) && decide (c ≤ 126)) || decide (128 ≤ c)

def isToken (s : Bytes) : Bool := decide (s ≠ []) && s.all isTchar

/-- A piece of a quoted string. -/
inductive QuotedPiece
  | text (c : UInt8)
  | pair (c : UInt8)
  deriving DecidableEq, Repr

namespace QuotedPiece

def valid : QuotedPiece → Bool
  | text c => isQdtext c
  | pair c => isPairText c

def bytes : QuotedPiece → Bytes
  | text c => [c]
  | pair c => [92, c]

end QuotedPiece

/-- `token` or `quoted-string`. -/
inductive ParamValue
  | token (t : Bytes)
  | quoted (pieces : List QuotedPiece)
  deriving DecidableEq, Repr

namespace ParamValue

def valid : ParamValue → Bool
  | token t => isToken t
  | quoted pieces => pieces.all QuotedPiece.valid

/-- The value as it is written, without the quotes. -/
def content : ParamValue → Bytes
  | token t => t
  | quoted pieces => pieces.flatMap QuotedPiece.bytes

/-- The value as it is written. -/
def bytes : ParamValue → Bytes
  | token t => t
  | quoted pieces => 34 :: pieces.flatMap QuotedPiece.bytes ++ [34]

end ParamValue

/-- `auth-param` with the blanks around it. -/
structure AuthParam where
  ahead : Bytes := []
  name : Bytes
  beforeEq : Bytes := []
  afterEq : Bytes := []
  value : ParamValue
  behind : Bytes := []
  blanks : (ahead ++ beforeEq ++ afterEq ++ behind).all isBlank = true
  token : isToken name = true
  valid : value.valid = true

def AuthParam.bytes (p : AuthParam) : Bytes :=
  p.ahead ++ (p.name ++ (p.beforeEq ++ 61 :: (p.afterEq ++ (p.value.bytes ++ p.behind))))

/-- The parameters of a challenge. -/
def challengeText : List AuthParam → Bytes
  | [] => []
  | [p] => p.bytes
  | p :: ps => p.bytes ++ 44 :: challengeText ps

/-- What is behind a parameter. -/
def behindText (ps : List AuthParam) : Bytes := if ps = [] then [] else 44 :: challengeText ps

/-- The parameters that are found by calling `pbproxy_get_next_key_value` until it returns `NULL`. -/
def yields (s : Bytes) : List (Bytes × Bytes) :=
  (keyValues s).filterMap fun p => p.2.map fun v => (p.1, v)

/-- A parameter is read as it is written: an unquoted value has a blank behind it, if not the end, and
    behind a quoted one there is no `\"`, which its own quote with a backslash before it is too. -/
def ReadsRight (p : AuthParam) (ps : List AuthParam) : Prop :=
  match p.value with
  | .token _ => p.behind ≠ [] ∨ ps = []
  | .quoted pieces => (pieces.flatMap QuotedPiece.bytes).getLast? ≠ some 92 ∧
      ∀ q ∈ ps, behindEscapes q.value.bytes = none

def SplitsRight : List AuthParam → Prop
  | [] => True
  | p :: ps => ReadsRight p ps ∧ SplitsRight ps

/-! ## Characters -/

variable {p : AuthParam} {ps : List AuthParam} {s : Bytes}

lemma isTchar_ne {c d : UInt8} (h : isTchar c = true) (hd : isTchar d = false) : c ≠ d := by
  rintro rfl
  rw [h] at hd
  cases hd

lemma isKeyChar_of_isTchar {c : UInt8} (h : isTchar c = true) : isKeyChar c = true := by
  have heq : c ≠ 61 := isTchar_ne h (by decide)
  have hspace : c ≠ 32 := isTchar_ne h (by decide)
  have htab : c ≠ 9 := isTchar_ne h (by decide)
  simp [isKeyChar, isBlank, heq, hspace, htab]

lemma isBlank_of_isTchar {c : UInt8} (h : isTchar c = true) : isBlank c = false := by
  have hspace : c ≠ 32 := isTchar_ne h (by decide)
  have htab : c ≠ 9 := isTchar_ne h (by decide)
  simp [isBlank, hspace, htab]

lemma ne_backslash_of_isBlank {c : UInt8} (h : isBlank c = true) : c ≠ 92 := by
  rintro rfl
  cases h

/-- Blanks ahead of something else are skipped. -/
lemma dropWhile_blanks {a : Bytes} {c : UInt8} (ha : ∀ x ∈ a, isBlank x = true)
    (hc : isBlank c = false) (s : Bytes) : (a ++ c :: s).dropWhile isBlank = c :: s := by
  induction a with
  | nil => exact List.dropWhile_cons_of_neg (by simp [hc])
  | cons x a ih =>
      rw [List.cons_append, List.dropWhile_cons_of_pos (ha x List.mem_cons_self)]
      exact ih fun y hy => ha y (List.mem_cons_of_mem x hy)

lemma dropWhile_all_blank {a : Bytes} (ha : ∀ x ∈ a, isBlank x = true) :
    a.dropWhile isBlank = [] := List.dropWhile_eq_nil_iff.mpr ha

/-- What ends a run of characters. -/
lemma span_append {f : UInt8 → Bool} {a s : Bytes} (ha : ∀ x ∈ a, f x = true)
    (hs : ∀ c, s.head? = some c → f c = false) :
    (a ++ s).takeWhile f = a ∧ (a ++ s).dropWhile f = s := by
  induction a with
  | nil =>
      cases s with
      | nil => exact ⟨rfl, rfl⟩
      | cons c s =>
          have hc := hs c rfl
          exact ⟨List.takeWhile_cons_of_neg (by simp [hc]), List.dropWhile_cons_of_neg (by simp [hc])⟩
  | cons x a ih =>
      have hx := ha x List.mem_cons_self
      obtain ⟨htake, hdrop⟩ := ih fun y hy => ha y (List.mem_cons_of_mem x hy)
      rw [List.cons_append, List.takeWhile_cons_of_pos hx, List.dropWhile_cons_of_pos hx, htake]
      exact ⟨rfl, hdrop⟩

/-! ## One parameter -/

namespace AuthParam

lemma isBlank_of_mem (p : AuthParam) {c : UInt8}
    (h : c ∈ p.ahead ∨ c ∈ p.beforeEq ∨ c ∈ p.afterEq ∨ c ∈ p.behind) : isBlank c = true := by
  have hblanks := List.all_eq_true.mp p.blanks c
  refine hblanks ?_
  simp only [List.mem_append]
  tauto

/-- A token begins with a character of it. -/
lemma exists_cons_of_isToken {t : Bytes} (h : isToken t = true) :
    ∃ c u, t = c :: u ∧ ∀ x ∈ t, isTchar x = true := by
  rw [isToken, Bool.and_eq_true, decide_eq_true_eq] at h
  obtain ⟨c, u, rfl⟩ := List.exists_cons_of_ne_nil h.1
  exact ⟨c, u, rfl, List.all_eq_true.mp h.2⟩

/-- So does a value, which may be a quote. -/
lemma exists_cons_bytes (p : AuthParam) : ∃ c u, p.value.bytes = c :: u ∧ isBlank c = false := by
  have hvalid := p.valid
  cases hvalue : p.value with
  | token t =>
      rw [hvalue] at hvalid
      obtain ⟨c, u, rfl, hchars⟩ := exists_cons_of_isToken hvalid
      exact ⟨c, u, rfl, isBlank_of_isTchar (hchars c List.mem_cons_self)⟩
  | quoted pieces => exact ⟨34, _, rfl, rfl⟩

/-- The key is the name, and what is read is the value with what is behind it. -/
lemma pbproxyGetNextKeyValue_bytes (p : AuthParam) (s : Bytes) :
    pbproxyGetNextKeyValue (p.bytes ++ s) =
      { key := p.name
        value := some (readValue (p.value.bytes ++ (p.behind ++ s))).1
        rest := (readValue (p.value.bytes ++ (p.behind ++ s))).2 } := by
  obtain ⟨c, u, hname, hchars⟩ := exists_cons_of_isToken p.token
  obtain ⟨d, v, hvalue, hd⟩ := p.exists_cons_bytes
  have htext : p.bytes ++ s = p.ahead ++ c :: (u ++ (p.beforeEq ++ 61 :: (p.afterEq ++
      (p.value.bytes ++ (p.behind ++ s))))) := by
    rw [AuthParam.bytes, hname]
    simp only [List.append_assoc, List.cons_append]
  have hfirst : (p.bytes ++ s).dropWhile isBlank = p.name ++ (p.beforeEq ++ 61 :: (p.afterEq ++
      (p.value.bytes ++ (p.behind ++ s)))) := by
    rw [htext, dropWhile_blanks (fun x hx => p.isBlank_of_mem (.inl hx))
      (isBlank_of_isTchar (hchars c (hname ▸ List.mem_cons_self))), hname, List.cons_append]
  have hstop : ∀ x, (p.beforeEq ++ 61 :: (p.afterEq ++ (p.value.bytes ++ (p.behind ++ s)))).head? =
      some x → isKeyChar x = false := by
    intro x hx
    cases hbefore : p.beforeEq with
    | nil =>
        rw [hbefore] at hx
        cases hx
        rfl
    | cons b before =>
        have hb : isBlank b = true := p.isBlank_of_mem (.inr (.inl (hbefore ▸ List.mem_cons_self)))
        rw [hbefore] at hx
        rw [← Option.some.inj hx]
        simp [isKeyChar, hb]
  obtain ⟨hkey, hbehind⟩ := span_append
    (fun x hx => isKeyChar_of_isTchar (hchars x hx)) hstop
  have heq : (p.beforeEq ++ 61 :: (p.afterEq ++ (p.value.bytes ++ (p.behind ++ s)))).dropWhile
      isBlank = 61 :: (p.afterEq ++ (p.value.bytes ++ (p.behind ++ s))) :=
    dropWhile_blanks (fun x hx => p.isBlank_of_mem (.inr (.inl hx))) (by decide) _
  have hread : (p.afterEq ++ (p.value.bytes ++ (p.behind ++ s))).dropWhile isBlank =
      p.value.bytes ++ (p.behind ++ s) := by
    rw [hvalue, List.cons_append]
    exact dropWhile_blanks (fun x hx => p.isBlank_of_mem (.inr (.inr (.inl hx)))) hd _
  rw [pbproxyGetNextKeyValue, hfirst, hkey, hbehind, heq]
  dsimp only
  rw [List.head?_cons, if_pos rfl, List.tail_cons, hread]

lemma bytes_ne_nil (p : AuthParam) : p.bytes ≠ [] := by
  intro h
  rw [AuthParam.bytes, List.append_eq_nil_iff, List.append_eq_nil_iff] at h
  obtain ⟨c, u, hname, -⟩ := exists_cons_of_isToken p.token
  rw [hname] at h
  cases h.2.1

end AuthParam

lemma challengeText_cons (p : AuthParam) (ps : List AuthParam) :
    challengeText (p :: ps) = p.bytes ++ behindText ps := by
  cases ps with
  | nil => exact (List.append_nil _).symm
  | cons q ps => rfl

lemma challengeText_ne_nil (h : ps ≠ []) : challengeText ps ≠ [] := by
  obtain ⟨p, ps, rfl⟩ := List.exists_cons_of_ne_nil h
  rw [challengeText_cons]
  intro hnil
  exact p.bytes_ne_nil (List.append_eq_nil_iff.mp hnil).1

/-- Behind a value there is the next parameter. -/
lemma behindValue_behindText {a : Bytes} (ha : ∀ x ∈ a, isBlank x = true) (ps : List AuthParam) :
    behindValue (a ++ behindText ps) = if ps = [] then none else some (challengeText ps) := by
  rw [behindValue, behindText]
  by_cases hps : ps = []
  · rw [if_pos hps, if_pos hps, List.append_nil, dropWhile_all_blank ha]
    rfl
  · rw [if_neg hps, if_neg hps, dropWhile_blanks ha (by decide)]
    rw [List.head?_cons, if_pos rfl, List.tail_cons, if_neg (challengeText_ne_nil hps)]

/-- What is found is the first parameter and then the others. -/
lemma keyValues_cons (p : AuthParam) (s : Bytes) : keyValues (p.bytes ++ s) =
    (p.name, some (readValue (p.value.bytes ++ (p.behind ++ s))).1) ::
      match (readValue (p.value.bytes ++ (p.behind ++ s))).2 with
      | none => []
      | some r => keyValues r := by
  have hnext := p.pbproxyGetNextKeyValue_bytes s
  cases hrest : (readValue (p.value.bytes ++ (p.behind ++ s))).2 with
  | none =>
      rw [hrest] at hnext
      rw [keyValues, keyValuesUpTo, hnext]
  | some r =>
      rw [hrest] at hnext
      have hsome : (pbproxyGetNextKeyValue (p.bytes ++ s)).rest = some r := by rw [hnext]
      rw [keyValues_of_some hsome, hnext]

lemma yields_cons (p : AuthParam) (s : Bytes) : yields (p.bytes ++ s) =
    (p.name, (readValue (p.value.bytes ++ (p.behind ++ s))).1) ::
      match (readValue (p.value.bytes ++ (p.behind ++ s))).2 with
      | none => []
      | some r => yields r := by
  rw [yields, keyValues_cons]
  cases (readValue (p.value.bytes ++ (p.behind ++ s))).2 with
  | none => rfl
  | some r => rfl

/-! ## Unquoted values -/

lemma readValue_token {t a : Bytes} (ht : isToken t = true) (ha : ∀ x ∈ a, isBlank x = true)
    (ps : List AuthParam) (h : a ≠ [] ∨ ps = []) :
    readValue (t ++ (a ++ behindText ps)) =
      (t, if ps = [] then none else some (challengeText ps)) := by
  obtain ⟨c, u, hcons, hchars⟩ := AuthParam.exists_cons_of_isToken ht
  have hhead : (t ++ (a ++ behindText ps)).head? ≠ some 34 := by
    rw [hcons, List.cons_append, List.head?_cons]
    intro hquote
    exact isTchar_ne (hchars c (hcons ▸ List.mem_cons_self)) (by decide) (Option.some.inj hquote)
  have hstop : ∀ x, (a ++ behindText ps).head? = some x → (!isBlank x) = false := by
    intro x hx
    cases a with
    | nil =>
        rcases h with hne | hps
        · exact absurd rfl hne
        · rw [hps] at hx
          cases hx
    | cons b a =>
        rw [← Option.some.inj hx, ha b List.mem_cons_self]
        rfl
  obtain ⟨htake, hdrop⟩ := span_append (f := fun c => !isBlank c) (fun x hx => by
    rw [isBlank_of_isTchar (hchars x hx)]
    rfl) hstop
  rw [readValue, if_neg hhead, htake, hdrop, behindValue_behindText ha]

/-- A comma that follows at once is taken with the value. -/
lemma readValue_token_comma {t : Bytes} (ht : isToken t = true) (hps : ps ≠ []) :
    (readValue (t ++ ([] ++ behindText ps))).1 ≠ t := by
  obtain ⟨c, u, hcons, hchars⟩ := AuthParam.exists_cons_of_isToken ht
  have hhead : (t ++ ([] ++ behindText ps)).head? ≠ some 34 := by
    rw [hcons, List.cons_append, List.head?_cons]
    intro hquote
    exact isTchar_ne (hchars c (hcons ▸ List.mem_cons_self)) (by decide) (Option.some.inj hquote)
  have hpass : ∀ x ∈ t ++ [44], (!isBlank x) = true := by
    intro x hx
    rcases List.mem_append.mp hx with hx | hx
    · rw [isBlank_of_isTchar (hchars x hx)]
      rfl
    · rw [List.mem_singleton.mp hx]
      rfl
  have hsplit : t ++ ([] ++ behindText ps) = (t ++ [44]) ++ challengeText ps := by
    rw [behindText, if_neg hps, List.nil_append, List.append_assoc]
    rfl
  rw [readValue, if_neg hhead, hsplit, List.takeWhile_append_of_pos hpass]
  intro h
  have hlen := congrArg List.length h
  simp only [List.length_append, List.length_singleton] at hlen
  omega

/-! ## Quoted values -/

lemma behindEscapes_cons (c : UInt8) (s : Bytes) (h : c ≠ 92) :
    behindEscapes (c :: s) = behindEscapes s := by
  rw [behindEscapes]
  cases behindEscapes s with
  | some r => rfl
  | none =>
      dsimp only
      rw [if_neg fun hboth => h hboth.1]

/-- An escaped quote further back is the last one. -/
lemma behindEscapes_append_some {s r : Bytes} (t : Bytes) (h : behindEscapes s = some r) :
    behindEscapes (t ++ s) = some r := by
  induction t with
  | nil => exact h
  | cons c t ih => rw [List.cons_append, behindEscapes, ih]

/-- The quotes inside a quoted string are those of its escapes. -/
lemma quote_not_mem_behindEscapes {pieces : List QuotedPiece}
    (h : ∀ piece ∈ pieces, piece.valid = true) :
    34 ∉ (behindEscapes (pieces.flatMap QuotedPiece.bytes)).getD
        (pieces.flatMap QuotedPiece.bytes) ∧
      (pieces.flatMap QuotedPiece.bytes).head? ≠ some 34 := by
  induction pieces with
  | nil => exact ⟨List.not_mem_nil, fun h => nomatch h⟩
  | cons piece pieces ih =>
      obtain ⟨ih, hhead⟩ := ih fun q hq => h q (List.mem_cons_of_mem piece hq)
      have hvalid := h piece List.mem_cons_self
      rw [List.flatMap_cons]
      cases piece with
      | text c =>
          have hquote : c ≠ 34 := by
            rintro rfl
            cases hvalid
          have hslash : c ≠ 92 := by
            rintro rfl
            cases hvalid
          refine ⟨?_, fun heq => hquote (Option.some.inj heq)⟩
          rw [QuotedPiece.bytes, List.singleton_append, behindEscapes_cons c _ hslash]
          cases hrest : behindEscapes (pieces.flatMap QuotedPiece.bytes) with
          | some r =>
              rw [hrest] at ih
              exact ih
          | none =>
              rw [hrest] at ih
              rw [Option.getD_none, List.mem_cons]
              rintro (heq | hmem)
              · exact hquote heq.symm
              · exact ih hmem
      | pair c =>
          refine ⟨?_, fun heq => nomatch heq⟩
          rw [QuotedPiece.bytes, List.cons_append, List.singleton_append, behindEscapes,
            behindEscapes]
          cases hrest : behindEscapes (pieces.flatMap QuotedPiece.bytes) with
          | some r =>
              rw [hrest] at ih
              exact ih
          | none =>
              rw [hrest, Option.getD_none] at ih
              dsimp only
              rw [if_neg fun hboth => hhead hboth.2]
              dsimp only
              rw [List.head?_cons, List.tail_cons]
              by_cases hc : c = 34
              · rw [if_pos ⟨rfl, congrArg some hc⟩]
                exact ih
              · rw [if_neg fun hboth => hc (Option.some.inj hboth.2), Option.getD_none,
                  List.mem_cons, List.mem_cons]
                rintro (heq | heq | hmem)
                · exact absurd heq (by decide)
                · exact hc heq.symm
                · exact ih hmem

/-- A quoted string that is read as it is written. -/
lemma readQuoted_right {b w : Bytes} (hquote : 34 ∉ (behindEscapes b).getD b)
    (hlast : b.getLast? ≠ some 92) (hw : behindEscapes w = none) :
    readQuoted (b ++ 34 :: w) = (34 :: b ++ [34], behindValue w) := by
  have hbehind : behindEscapes (34 :: w) = none := by
    rw [behindEscapes_cons 34 w (by decide), hw]
  have hend : (behindEscapes (b ++ 34 :: w)).getD (b ++ 34 :: w) =
      (behindEscapes b).getD b ++ 34 :: w := by
    rw [behindEscapes_append hlast hbehind]
    cases behindEscapes b with
    | none => rfl
    | some r => rfl
  have hclose : ((behindEscapes b).getD b ++ 34 :: w).dropWhile (· != 34) = 34 :: w := by
    refine (span_append (fun x hx => bne_iff_ne.mpr ?_) fun x hx => ?_).2
    · rintro rfl
      exact hquote hx
    · rw [← Option.some.inj hx]
      rfl
  have hsize : (b ++ 34 :: w).length - (34 :: w).length + 1 = (b ++ [34]).length := by
    simp only [List.length_append, List.length_cons, List.length_nil]
    omega
  have hplace : b ++ 34 :: w ++ [0] = (b ++ [34]) ++ (w ++ [0]) := by simp
  rw [readQuoted, hend, hclose]
  rw [hsize, hplace, List.take_left, if_neg (List.cons_ne_nil 34 w), List.tail_cons]
  rfl

/-- Where there is an escaped quote further back, more than the quoted string is read. -/
lemma readQuoted_wrong {b w : Bytes} (h : b.getLast? = some 92 ∨ behindEscapes w ≠ none) :
    (readQuoted (b ++ 34 :: w)).1 ≠ 34 :: b ++ [34] := by
  have hescape : ∃ r, behindEscapes (b ++ 34 :: w) = some r ∧ r.length ≤ w.length := by
    cases hw : behindEscapes w with
    | some r =>
        refine ⟨r, behindEscapes_append_some b ?_, (suffix_of_behindEscapes hw).length_le⟩
        rw [behindEscapes_cons 34 w (by decide), hw]
    | none =>
        rcases h with hlast | hne
        · obtain ⟨front, rfl⟩ := List.getLast?_eq_some_iff.mp hlast
          refine ⟨w, ?_, Nat.le_refl _⟩
          rw [List.append_assoc, List.singleton_append]
          refine behindEscapes_append_some front ?_
          rw [behindEscapes, behindEscapes_cons 34 w (by decide), hw]
          rfl
        · exact absurd hw hne
  obtain ⟨r, hr, hle⟩ := hescape
  have hclose := (List.dropWhile_suffix (l := r) (· != 34)).length_le
  intro heq
  have hlen := congrArg List.length heq
  rw [readQuoted, hr, Option.getD_some] at hlen
  simp only [List.length_append, List.length_cons, List.length_take, List.length_nil] at hlen
  omega

/-! ## Texts without escaped quotes -/

lemma noEscape_append {a : Bytes} (ha : 92 ∉ a) (s : Bytes) :
    behindEscapes (a ++ s) = behindEscapes s := by
  induction a with
  | nil => rfl
  | cons c a ih =>
      have hc : c ≠ 92 := fun h => ha (h ▸ List.mem_cons_self)
      rw [List.cons_append, behindEscapes_cons c _ hc, ih fun h => ha (List.mem_cons_of_mem c h)]

/-- No value ends with a backslash. -/
lemma getLast?_bytes (p : AuthParam) : p.value.bytes.getLast? ≠ some 92 := by
  have hvalid := p.valid
  cases hvalue : p.value with
  | token t =>
      rw [hvalue] at hvalid
      intro hlast
      obtain ⟨-, -, -, hchars⟩ := AuthParam.exists_cons_of_isToken hvalid
      exact isTchar_ne (hchars 92 (List.mem_of_getLast? hlast)) (by decide) rfl
  | quoted pieces =>
      rw [ParamValue.bytes, List.getLast?_concat]
      exact fun h => absurd (Option.some.inj h) (by decide)

lemma noEscape_value (p : AuthParam) (s : Bytes) : behindEscapes (p.value.bytes ++ s) = none ↔
    behindEscapes p.value.bytes = none ∧ behindEscapes s = none := by
  constructor
  · intro h
    have hs : behindEscapes s = none := by
      by_contra hne
      obtain ⟨r, hr⟩ := Option.ne_none_iff_exists'.mp hne
      rw [behindEscapes_append_some _ hr] at h
      cases h
    rw [behindEscapes_append (getLast?_bytes p) hs, Option.map_eq_none_iff] at h
    exact ⟨h, hs⟩
  · rintro ⟨hvalue, hs⟩
    rw [behindEscapes_append (getLast?_bytes p) hs, hvalue]
    rfl

/-- The other parameters have no escaped quote if their values have none. -/
lemma noEscape_behindText {a : Bytes} (ha : ∀ x ∈ a, isBlank x = true) (ps : List AuthParam) :
    behindEscapes (a ++ behindText ps) = none ↔ ∀ q ∈ ps, behindEscapes q.value.bytes = none := by
  have hblank : ∀ {u : Bytes}, (∀ x ∈ u, isBlank x = true) → 92 ∉ u := fun hu hmem =>
    ne_backslash_of_isBlank (hu 92 hmem) rfl
  rw [noEscape_append (hblank ha)]
  induction ps with
  | nil => exact iff_of_true rfl (List.forall_mem_nil _)
  | cons q ps ih =>
      obtain ⟨-, -, -, hchars⟩ := AuthParam.exists_cons_of_isToken q.token
      have hname : 92 ∉ q.name := fun hmem => isTchar_ne (hchars 92 hmem) (by decide) rfl
      have hahead := hblank fun x hx => q.isBlank_of_mem (.inl hx)
      have hbefore := hblank fun x hx => q.isBlank_of_mem (.inr (.inl hx))
      have hafter := hblank fun x hx => q.isBlank_of_mem (.inr (.inr (.inl hx)))
      have hbehind := hblank fun x hx => q.isBlank_of_mem (.inr (.inr (.inr hx)))
      have htext : behindText (q :: ps) = (44 :: (q.ahead ++ (q.name ++ (q.beforeEq ++ 61 ::
          q.afterEq)))) ++ (q.value.bytes ++ (q.behind ++ behindText ps)) := by
        rw [behindText, if_neg (List.cons_ne_nil q ps), challengeText_cons, AuthParam.bytes]
        simp only [List.append_assoc, List.cons_append]
      have hfront : 92 ∉ 44 :: (q.ahead ++ (q.name ++ (q.beforeEq ++ 61 :: q.afterEq))) := by
        simp only [List.mem_cons, List.mem_append, not_or]
        exact ⟨by decide, hahead, hname, hbefore, by decide, hafter⟩
      rw [htext, noEscape_append hfront, noEscape_value, noEscape_append hbehind,
        List.forall_mem_cons]
      exact and_congr_right fun _ => ih

/-! ## All parameters -/

/-- A parameter is read as it is written, or its value is not. -/
lemma readValue_param (p : AuthParam) (ps : List AuthParam) :
    (ReadsRight p ps → readValue (p.value.bytes ++ (p.behind ++ behindText ps)) =
      (p.value.bytes, if ps = [] then none else some (challengeText ps))) ∧
    (¬ ReadsRight p ps →
      (readValue (p.value.bytes ++ (p.behind ++ behindText ps))).1 ≠ p.value.bytes) := by
  have hblanks : ∀ x ∈ p.behind, isBlank x = true := fun x hx =>
    p.isBlank_of_mem (.inr (.inr (.inr hx)))
  have hvalid := p.valid
  rw [ReadsRight]
  cases hvalue : p.value with
  | token t =>
      rw [hvalue] at hvalid
      refine ⟨fun h => readValue_token hvalid hblanks ps h, fun h => ?_⟩
      rw [not_or, not_not] at h
      rw [h.1]
      exact readValue_token_comma hvalid h.2
  | quoted pieces =>
      rw [hvalue] at hvalid
      obtain ⟨b, hb⟩ : ∃ b, b = pieces.flatMap QuotedPiece.bytes := ⟨_, rfl⟩
      have hread : readValue ((ParamValue.quoted pieces).bytes ++ (p.behind ++ behindText ps)) =
          readQuoted (b ++ 34 :: (p.behind ++ behindText ps)) := by
        rw [ParamValue.bytes, ← hb, readValue, List.cons_append, List.cons_append, List.head?_cons,
          if_pos rfl, List.tail_cons, List.append_assoc, List.singleton_append]
      dsimp only
      rw [hread, ← hb, ← noEscape_behindText hblanks ps]
      have hquote := (quote_not_mem_behindEscapes (List.all_eq_true.mp hvalid)).1
      rw [← hb] at hquote
      constructor
      · rintro ⟨hlast, hnone⟩
        rw [readQuoted_right hquote hlast hnone, behindValue_behindText hblanks, hb]
        rfl
      · intro h
        have hwrong : b.getLast? = some 92 ∨ behindEscapes (p.behind ++ behindText ps) ≠ none := by
          by_contra hnot
          rw [not_or, not_not] at hnot
          exact h hnot
        have hne := readQuoted_wrong hwrong
        rw [ParamValue.bytes, ← hb]
        exact hne

/-- **Reading a challenge.**  What is found are the parameters that have been written, in their order,
    if and only if each is read as it is written. -/
lemma yields_iff (ps : List AuthParam) :
    yields (challengeText ps) = ps.map (fun p => (p.name, p.value.bytes)) ↔ SplitsRight ps := by
  induction ps with
  | nil => exact iff_of_true rfl trivial
  | cons p ps ih =>
      obtain ⟨hright, hwrong⟩ := readValue_param p ps
      rw [challengeText_cons, yields_cons, SplitsRight, List.map_cons]
      by_cases hreads : ReadsRight p ps
      · rw [hright hreads, and_iff_right hreads, ← ih]
        dsimp only
        rw [List.cons.injEq, and_iff_right rfl]
        by_cases hps : ps = []
        · subst hps
          exact iff_of_true rfl rfl
        · rw [if_neg hps]
      · refine iff_of_false (fun h => ?_) fun h => hreads h.1
        have hhead := (List.cons.inj h).1
        exact hwrong hreads (congrArg Prod.snd hhead)

/-- No call finds anything else there. -/
lemma keyValues_challengeText (hne : ps ≠ []) (h : SplitsRight ps) :
    keyValues (challengeText ps) = ps.map fun p => (p.name, some p.value.bytes) := by
  induction ps with
  | nil => exact absurd rfl hne
  | cons p ps ih =>
      rw [challengeText_cons, keyValues_cons, (readValue_param p ps).1 h.1, List.map_cons]
      by_cases hps : ps = []
      · subst hps
        rfl
      · rw [if_neg hps]
        dsimp only
        rw [ih hps h.2]

/-! ## Any text -/

lemma infix_of_readQuoted (s : Bytes) : (readQuoted s).1 <:+: 34 :: s ++ [0] := by
  rw [readQuoted]
  exact (List.prefix_cons_inj 34).mpr (List.take_prefix _ _) |>.isInfix

lemma infix_of_readValue (s : Bytes) : (readValue s).1 <:+: s ++ [0] := by
  rw [readValue]
  split
  · rename_i hquote
    obtain ⟨c, u, rfl⟩ : ∃ c u, s = c :: u := by
      cases s with
      | nil => cases hquote
      | cons c u => exact ⟨c, u, rfl⟩
    cases hquote
    exact infix_of_readQuoted u
  · exact ((List.takeWhile_prefix _).trans (List.prefix_append s [0])).isInfix

/-- What a call finds lies in its text, where it may take the NUL with it. -/
lemma pbproxyGetNextKeyValue_inside (s : Bytes) :
    (pbproxyGetNextKeyValue s).key <:+: s ∧
      (∀ v, (pbproxyGetNextKeyValue s).value = some v → v <:+: s ++ [0]) ∧
      ∀ r, (pbproxyGetNextKeyValue s).rest = some r → r <:+ s ∧ r.length < s.length := by
  refine ⟨?_, fun v hv => ?_, fun r hr => suffix_of_pbproxyGetNextKeyValue hr⟩
  · have hkey : (s.dropWhile isBlank).takeWhile isKeyChar <:+: s :=
      (List.takeWhile_prefix _).isInfix.trans (List.dropWhile_suffix _).isInfix
    rw [pbproxyGetNextKeyValue]
    dsimp only
    split
    · exact hkey
    · exact hkey
  · rw [pbproxyGetNextKeyValue] at hv
    dsimp only at hv
    split at hv
    · cases hv
      refine (infix_of_readValue _).trans ?_
      obtain ⟨front, hfront⟩ := (List.dropWhile_suffix isBlank).trans ((List.tail_suffix _).trans
        ((List.dropWhile_suffix isBlank).trans ((List.dropWhile_suffix isKeyChar).trans
          (List.dropWhile_suffix (l := s) isBlank))))
      refine ⟨front, [], ?_⟩
      rw [List.append_nil, ← List.append_assoc, hfront]
    · cases hv

end PubNub
