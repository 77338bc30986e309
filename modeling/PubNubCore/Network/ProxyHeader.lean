import PubNubCore.Network.Context

/-!
# The challenge of a proxy

What `core/pubnub_proxy_core.c` and `core/pbhttp_digest.c` read of a header line with which a proxy
asks for authentication.  They are handed the place in `core.http_buf` where the line begins, and no
length: `pbproxy_get_next_key_value` goes on up to the next NUL.  So what they find may depend on
what the buffer holds behind the line, in three ways.  A quoted value ends behind the **last** `\"`
of the whole text; an unquoted one ends at a blank, and the end of a line is none; and after the
last parameter of the line the search goes on behind it.

`keyValues_append` says what stays the same whatever is behind: the parameters that are closed
inside the line.
-/

namespace PubNub

/-- What `strspn(s, " \t")` skips. -/
def isBlank (c : UInt8) : Bool := c == 32 || c == 9

/-- What `strcspn(s, "= \t")` skips. -/
def isKeyChar (c : UInt8) : Bool := !(c == 61 || isBlank c)

/-- The text behind the last `\"`, for which `strstr` is called again and again. -/
def behindEscapes : Bytes → Option Bytes
  | [] => none
  | c :: s =>
      match behindEscapes s with
      | some r => some r
      | none => if c = 92 ∧ s.head? = some 34 then some s.tail else none

/-- A call of `pbproxy_get_next_key_value`: the key, the value if it is set, and the pointer which
    is returned. -/
structure KeyValue where
  key : Bytes
  value : Option Bytes
  rest : Option Bytes
  deriving DecidableEq, Repr

/-- The end of `pbproxy_get_next_key_value`, behind the value. -/
def behindValue (s : Bytes) : Option Bytes :=
  let s := s.dropWhile isBlank
  let s := if s.head? = some 44 then s.tail else s
  if s = [] then none else some s

/-- A quoted value, with its quotes, and where the next parameter begins.  The text is the one
    behind the opening quote; a value that is not closed takes the NUL with it. -/
def readQuoted (s : Bytes) : Bytes × Option Bytes :=
  let close := ((behindEscapes s).getD s).dropWhile (· != 34)
  (34 :: (s ++ [0]).take (s.length - close.length + 1),
    if close = [] then none else behindValue close.tail)

/-- The value which begins a text, and where the next parameter begins. -/
def readValue (s : Bytes) : Bytes × Option Bytes :=
  if s.head? = some 34 then readQuoted s.tail
  else (s.takeWhile (!isBlank ·), behindValue (s.dropWhile (!isBlank ·)))

/-- `pbproxy_get_next_key_value`.  The text is a C string without its NUL. -/
def pbproxyGetNextKeyValue (s : Bytes) : KeyValue :=
  let s := s.dropWhile isBlank
  let key := s.takeWhile isKeyChar
  let s := (s.dropWhile isKeyChar).dropWhile isBlank
  if s.head? = some 61 then
    let r := readValue (s.tail.dropWhile isBlank)
    { key, value := some r.1, rest := r.2 }
  else { key, value := none, rest := none }

/-- The parameters found by calling `pbproxy_get_next_key_value` until it returns `NULL`, with an
    upper bound for the number of the calls. -/
def keyValuesUpTo : Nat → Bytes → List (Bytes × Option Bytes)
  | 0, _ => []
  | n + 1, s =>
      let p := pbproxyGetNextKeyValue s
      (p.key, p.value) :: match p.rest with
        | none => []
        | some r => keyValuesUpTo n r

/-- All parameters of a text; each call takes a part of it. -/
def keyValues (s : Bytes) : List (Bytes × Option Bytes) := keyValuesUpTo (s.length + 1) s

/-- The parameters which are closed inside a text, and where the last call begins. -/
def closedUpTo : Nat → Bytes → List (Bytes × Option Bytes) × Bytes
  | 0, s => ([], s)
  | n + 1, s =>
      let p := pbproxyGetNextKeyValue s
      match p.rest with
      | none => ([], s)
      | some r => ((p.key, p.value) :: (closedUpTo n r).1, (closedUpTo n r).2)

def closedKeyValues (s : Bytes) : List (Bytes × Option Bytes) × Bytes := closedUpTo (s.length + 1) s

/-! ## What is behind the line -/

section Behind

variable {s t r : Bytes}

/-- A text has an escaped quote behind it, or it has one inside; none can begin at its end. -/
lemma behindEscapes_append (hs : s.getLast? ≠ some 92) (ht : behindEscapes t = none) :
    behindEscapes (s ++ t) = (behindEscapes s).map (· ++ t) := by
  induction s with
  | nil => simpa [behindEscapes] using ht
  | cons c s ih =>
      cases s with
      | nil =>
          have hc : c ≠ 92 := fun h => hs (by rw [h]; rfl)
          simp [behindEscapes, ht, hc]
      | cons d s =>
          have ih := ih (by rwa [List.getLast?_cons_cons] at hs)
          rw [List.cons_append, behindEscapes.eq_2, ih, behindEscapes.eq_2 c (d :: s)]
          cases behindEscapes (d :: s) with
          | some r => rfl
          | none =>
              have hhead : (d :: s ++ t).head? = (d :: s).head? := rfl
              simp only [Option.map_none, hhead]
              by_cases hc : c = 92 ∧ (d :: s).head? = some 34
              · rw [if_pos hc, if_pos hc]
                rfl
              · rw [if_neg hc, if_neg hc]
                rfl

/-- The text behind an escaped quote is a part of the text. -/
lemma suffix_of_behindEscapes (h : behindEscapes s = some r) : r <:+ s := by
  induction s with
  | nil => cases h
  | cons c s ih =>
      rw [behindEscapes] at h
      split at h
      · rename_i r' heq
        obtain rfl := Option.some.inj h
        exact (ih heq).trans (List.suffix_cons c s)
      · split at h
        · obtain rfl := Option.some.inj h
          exact (List.tail_suffix s).trans (List.suffix_cons c s)
        · cases h

lemma suffix_getD_behindEscapes (s : Bytes) : (behindEscapes s).getD s <:+ s := by
  cases hb : behindEscapes s with
  | none => exact List.suffix_rfl
  | some u => exact suffix_of_behindEscapes hb

lemma behindValue_append (h : behindValue s = some r) : behindValue (s ++ t) = some (r ++ t) := by
  simp only [behindValue] at h ⊢
  have hne : s.dropWhile isBlank ≠ [] := by
    intro hnil
    rw [hnil] at h
    cases h
  rw [dropWhile_append_of_ne_nil hne]
  obtain ⟨c, u, hu⟩ := List.exists_cons_of_ne_nil hne
  rw [hu] at h ⊢
  rw [List.cons_append, List.head?_cons, List.tail_cons] at *
  split at h
  · rename_i hc
    split at h
    · cases h
    · rename_i hu
      obtain rfl := Option.some.inj h
      rw [if_pos hc, if_neg (by simp [hu])]
  · rename_i hc
    rw [if_neg (by simp)] at h
    obtain rfl := Option.some.inj h
    rw [if_neg hc, if_neg (by simp), List.cons_append]

lemma suffix_of_behindValue (h : behindValue s = some r) : r <:+ s := by
  rw [behindValue] at h
  simp only [Option.ite_none_left_eq_some, Option.some.injEq] at h
  obtain ⟨_, rfl⟩ := h
  split
  · exact (List.tail_suffix _).trans (List.dropWhile_suffix isBlank)
  · exact List.dropWhile_suffix isBlank

/-! ## One parameter -/

lemma suffix_of_readQuoted (h : (readQuoted s).2 = some r) : r <:+ s := by
  simp only [readQuoted, Option.ite_none_left_eq_some] at h
  exact (suffix_of_behindValue h.2).trans ((List.tail_suffix _).trans
    ((List.dropWhile_suffix _).trans (suffix_getD_behindEscapes s)))

lemma suffix_of_readValue (h : (readValue s).2 = some r) : r <:+ s := by
  rw [readValue] at h
  split at h
  · exact (suffix_of_readQuoted h).trans (List.tail_suffix s)
  · exact (suffix_of_behindValue h).trans (List.dropWhile_suffix _)

/-- A call that does not return `NULL` leaves a part of its text, with something taken off it. -/
lemma suffix_of_pbproxyGetNextKeyValue (h : (pbproxyGetNextKeyValue s).rest = some r) :
    r <:+ s ∧ r.length < s.length := by
  rw [pbproxyGetNextKeyValue] at h
  dsimp only at h
  split at h
  · rename_i heq
    have hkey : (((s.dropWhile isBlank).dropWhile isKeyChar).dropWhile isBlank) <:+ s :=
      (List.dropWhile_suffix _).trans ((List.dropWhile_suffix _).trans (List.dropWhile_suffix _))
    have hvalue := (suffix_of_readValue h).trans (List.dropWhile_suffix isBlank)
    refine ⟨hvalue.trans ((List.tail_suffix _).trans hkey), ?_⟩
    have hle := hvalue.length_le
    have hsum := hkey.length_le
    have hpos := List.length_pos_of_mem (List.mem_of_mem_head? heq)
    rw [List.length_tail] at hle
    omega
  · cases h

/-- A quoted value that is closed in a text is the same whatever follows the text, unless an escaped
    quote follows. -/
lemma readQuoted_append (h : (readQuoted s).2 = some r) (hs : s.getLast? ≠ some 92)
    (ht : behindEscapes t = none) : readQuoted (s ++ t) = ((readQuoted s).1, some (r ++ t)) := by
  simp only [readQuoted, Option.ite_none_left_eq_some] at h ⊢
  obtain ⟨hclose, hr⟩ := h
  have hend : (behindEscapes (s ++ t)).getD (s ++ t) = (behindEscapes s).getD s ++ t := by
    rw [behindEscapes_append hs ht]
    cases behindEscapes s with
    | none => rfl
    | some u => rfl
  rw [hend, dropWhile_append_of_ne_nil hclose]
  have hlen := ((List.dropWhile_suffix (· != 34)).trans (suffix_getD_behindEscapes s)).length_le
  obtain ⟨c, u, hu⟩ := List.exists_cons_of_ne_nil hclose
  rw [hu] at hr hlen ⊢
  rw [List.tail_cons] at hr
  rw [List.cons_append, if_neg (by simp), List.tail_cons, behindValue_append hr]
  simp only [List.length_append, List.length_cons] at hlen ⊢
  have hsize : s.length + t.length - (u.length + t.length + 1) + 1 =
      s.length - (u.length + 1) + 1 := by omega
  rw [hsize, List.append_assoc, List.take_append_of_le_length (by omega),
    List.take_append_of_le_length (by omega)]

/-- A value that is closed in a text is the same whatever follows the text. -/
lemma readValue_append (h : (readValue s).2 = some r) (hs : s.getLast? ≠ some 92)
    (ht : 34 ∈ s → behindEscapes t = none) :
    readValue (s ++ t) = ((readValue s).1, some (r ++ t)) := by
  have hne : s ≠ [] := by
    rintro rfl
    cases h
  rw [readValue] at h
  rw [readValue, readValue, List.head?_append_of_ne_nil _ hne, List.tail_append_of_ne_nil hne]
  by_cases hc : s.head? = some 34
  · rw [if_pos hc] at h
    rw [if_pos hc, if_pos hc]
    have hlast : s.tail.getLast? ≠ some 92 := by
      cases s with
      | nil => exact hs
      | cons c s =>
          cases s with
          | nil => simp
          | cons d s => rwa [List.getLast?_cons_cons] at hs
    exact readQuoted_append h hlast (ht (List.mem_of_mem_head? hc))
  · rw [if_neg hc] at h
    rw [if_neg hc, if_neg hc]
    have hrest : s.dropWhile (!isBlank ·) ≠ [] := by
      intro hnil
      rw [hnil] at h
      cases h
    rw [takeWhile_append_of_ne_nil hrest, dropWhile_append_of_ne_nil hrest, behindValue_append h]

/-- **A parameter that is closed in a text** is the same whatever follows the text. -/
lemma pbproxyGetNextKeyValue_append (h : (pbproxyGetNextKeyValue s).rest = some r)
    (hs : s.getLast? ≠ some 92) (ht : 34 ∈ s → behindEscapes t = none) :
    pbproxyGetNextKeyValue (s ++ t) =
      { pbproxyGetNextKeyValue s with rest := some (r ++ t) } := by
  simp only [pbproxyGetNextKeyValue] at h ⊢
  by_cases heq : ((((s.dropWhile isBlank).dropWhile isKeyChar).dropWhile isBlank)).head? = some 61
  · rw [if_pos heq] at h
    have hblank : ((s.dropWhile isBlank).dropWhile isKeyChar).dropWhile isBlank ≠ [] := by
      intro hnil
      rw [hnil] at heq
      cases heq
    have hkey : (s.dropWhile isBlank).dropWhile isKeyChar ≠ [] := fun hnil => hblank (by rw [hnil]; rfl)
    have hfirst : s.dropWhile isBlank ≠ [] := fun hnil => hkey (by rw [hnil]; rfl)
    rw [dropWhile_append_of_ne_nil hfirst, dropWhile_append_of_ne_nil hkey,
      dropWhile_append_of_ne_nil hblank, takeWhile_append_of_ne_nil hkey,
      List.head?_append_of_ne_nil _ hblank, List.tail_append_of_ne_nil hblank, if_pos heq, if_pos heq]
    have hvalue : ((((s.dropWhile isBlank).dropWhile isKeyChar).dropWhile isBlank).tail
        ).dropWhile isBlank ≠ [] := by
      intro hnil
      rw [hnil] at h
      cases h
    have hsuffix : ((((s.dropWhile isBlank).dropWhile isKeyChar).dropWhile isBlank).tail
        ).dropWhile isBlank <:+ s :=
      (List.dropWhile_suffix _).trans ((List.tail_suffix _).trans ((List.dropWhile_suffix _).trans
        ((List.dropWhile_suffix _).trans (List.dropWhile_suffix _))))
    rw [dropWhile_append_of_ne_nil hvalue, readValue_append h]
    · rwa [getLast?_of_suffix hsuffix hvalue]
    · exact fun hmem => ht (hsuffix.subset hmem)
  · rw [if_neg heq] at h
    cases h

/-! ## All parameters -/

/-- As many calls are enough as the text has characters. -/
lemma keyValuesUpTo_eq {n m : Nat} (hn : s.length < n) (hm : s.length < m) :
    keyValuesUpTo n s = keyValuesUpTo m s := by
  induction n generalizing m s with
  | zero => omega
  | succ n ih =>
      cases m with
      | zero => omega
      | succ m =>
          rw [keyValuesUpTo, keyValuesUpTo]
          cases hr : (pbproxyGetNextKeyValue s).rest with
          | none => rfl
          | some r =>
              have hlt := (suffix_of_pbproxyGetNextKeyValue hr).2
              dsimp only
              rw [ih (m := m) (by omega) (by omega)]

lemma keyValues_of_some (h : (pbproxyGetNextKeyValue s).rest = some r) :
    keyValues s = ((pbproxyGetNextKeyValue s).key, (pbproxyGetNextKeyValue s).value) :: keyValues r := by
  have hlt := (suffix_of_pbproxyGetNextKeyValue h).2
  rw [keyValues, keyValuesUpTo, h]
  dsimp only
  rw [keyValuesUpTo_eq (m := r.length + 1) hlt (by omega)]
  rfl

lemma closedUpTo_append {n : Nat} (hn : s.length < n) (hs : s.getLast? ≠ some 92)
    (ht : 34 ∈ s → behindEscapes t = none) :
    keyValues (s ++ t) = (closedUpTo n s).1 ++ keyValues ((closedUpTo n s).2 ++ t) := by
  induction n generalizing s with
  | zero => omega
  | succ n ih =>
      rw [closedUpTo]
      cases hr : (pbproxyGetNextKeyValue s).rest with
      | none => rfl
      | some r =>
          obtain ⟨hsuffix, hlt⟩ := suffix_of_pbproxyGetNextKeyValue hr
          have happend := pbproxyGetNextKeyValue_append hr hs ht
          have hlast : r.getLast? ≠ some 92 := by
            by_cases hnil : r = []
            · simp [hnil]
            · rwa [getLast?_of_suffix hsuffix hnil]
          have hrest : (pbproxyGetNextKeyValue (s ++ t)).rest = some (r ++ t) := by
            rw [happend]
          rw [keyValues_of_some hrest, happend]
          dsimp only
          rw [List.cons_append, ih (by omega) hlast fun hmem => ht (hsuffix.subset hmem)]

/-- **The parameters that are closed inside a line** are found whatever is behind the line, unless
    an escaped quote is. -/
theorem keyValues_append (hs : s.getLast? ≠ some 92) (ht : 34 ∈ s → behindEscapes t = none) :
    keyValues (s ++ t) = (closedKeyValues s).1 ++ keyValues ((closedKeyValues s).2 ++ t) :=
  closedUpTo_append (Nat.lt_succ_self _) hs ht

end Behind

/-! ## The challenge -/

/-- `auth_sheme_priority`. -/
def AuthScheme.priority : AuthScheme → Nat
  | .none => 0
  | .basic => 1
  | .digest => 2
  | .ntlm => 3

/-- What is read of a challenge: the parameters up to the realm, the parameters which
    `pbhttp_digest_parse_header` knows, or a message. -/
inductive Challenge
  | ignored
  | basic (read : List (Bytes × Option Bytes))
  | digest (read : List (Bytes × Option Bytes))
  | ntlm (message : Option Bytes)
  deriving DecidableEq, Repr

def isRealm (p : Bytes × Option Bytes) : Bool := startsWith p.1 (ascii "realm")

/-- The parameters which `pbhttp_digest_parse_header` does not ignore. -/
def isDigestParameter (p : Bytes × Option Bytes) : Bool :=
  ["realm", "nonce", "opaque", "algorithm", "qop", "stale"].any fun s => startsWith p.1 (ascii s)

/-- The parameters up to the first realm; without a realm, none of them plays a part. -/
def upToRealm : List (Bytes × Option Bytes) → List (Bytes × Option Bytes)
  | [] => []
  | p :: ps =>
      if isRealm p then [p]
      else
        match upToRealm ps with
        | [] => []
        | read => p :: read

/-- What the loop of `pbproxy_handle_http_header` reads of a Basic challenge. -/
def basicParameters (s : Bytes) : List (Bytes × Option Bytes) := upToRealm (keyValues (cString s))

/-- What `pbhttp_digest_parse_header` reads of its header. -/
def digestParameters (s : Bytes) : List (Bytes × Option Bytes) :=
  (keyValues (cString s)).filter isDigestParameter

/-- The message of an NTLM challenge, `strcspn(base64_msg, " \r\n")` characters. -/
def ntlmMessage (s : Bytes) : Bytes :=
  s.takeWhile fun c => !(c == 0 || c == 32 || c == 13 || c == 10)

/-- What `pbproxy_handle_http_header` reads behind the name of the header. -/
def readChallenge (scheme : AuthScheme) (contents : Bytes) : Challenge :=
  if startsWith contents (ascii "Basic") && scheme.priority ≤ AuthScheme.basic.priority then
    .basic (basicParameters (contents.drop 6))
  else if startsWith contents (ascii "Digest") &&
      scheme.priority ≤ AuthScheme.digest.priority then
    .digest (digestParameters (contents.drop 7))
  else if startsWith contents (ascii "NTLM") then
    .ntlm (if scheme = .ntlm then some (ntlmMessage (contents.drop 5)) else none)
  else .ignored

/-! ## A challenge that is read from its line alone -/

/-- No escaped quote is behind a text in which a quoted value may be. -/
def noEscapeBehind (s behind : Bytes) : Bool :=
  !s.contains 34 || (behindEscapes (cString behind)).isNone

/-- Behind the parameters that are closed in a text, no parameter with the property follows: neither
    in the rest of the text nor when the reading goes on behind it. -/
def noneBehind (test : Bytes × Option Bytes → Bool) (s behind : Bytes) : Bool :=
  !(keyValues (closedKeyValues s).2).any test &&
    !(keyValues ((closedKeyValues s).2 ++ cString behind)).any test

def basicReadsAlone (s behind : Bytes) : Bool :=
  s.contains 0 ||
    (noEscapeBehind s behind && ((closedKeyValues s).1.any isRealm || noneBehind isRealm s behind))

def digestReadsAlone (s behind : Bytes) : Bool :=
  s.contains 0 || (noEscapeBehind s behind && noneBehind isDigestParameter s behind)

/-- What `pbproxy_handle_http_header` reads of a challenge does not depend on what is behind it. -/
def challengeReadsAlone (scheme : AuthScheme) (contents behind : Bytes) : Bool :=
  if startsWith contents (ascii "Basic") && scheme.priority ≤ AuthScheme.basic.priority then
    basicReadsAlone (contents.drop 6) behind
  else if startsWith contents (ascii "Digest") &&
      scheme.priority ≤ AuthScheme.digest.priority then
    digestReadsAlone (contents.drop 7) behind
  else !startsWith contents (ascii "NTLM") || scheme ≠ .ntlm || contents.drop 5 ≠ []

section ReadsAlone

variable {s t : Bytes} {ps qs qs' : List (Bytes × Option Bytes)}

lemma upToRealm_append_of_any (h : ps.any isRealm = true) :
    upToRealm (ps ++ qs) = upToRealm ps ∧ upToRealm ps ≠ [] := by
  induction ps with
  | nil => cases h
  | cons p ps ih =>
      rw [List.cons_append, upToRealm, upToRealm]
      by_cases hp : isRealm p = true
      · rw [if_pos hp, if_pos hp]
        exact ⟨rfl, List.cons_ne_nil p []⟩
      · rw [List.any_cons, Bool.or_eq_true] at h
        obtain ⟨heq, hne⟩ := ih (h.resolve_left hp)
        obtain ⟨q, read, hread⟩ := List.exists_cons_of_ne_nil hne
        rw [if_neg hp, if_neg hp, heq, hread]
        exact ⟨rfl, List.cons_ne_nil _ _⟩

lemma upToRealm_of_none (h : ps.any isRealm = false) : upToRealm ps = [] := by
  induction ps with
  | nil => rfl
  | cons p ps ih =>
      rw [List.any_cons, Bool.or_eq_false_iff] at h
      rw [upToRealm, h.1, ih h.2]
      rfl

/-- With no realm to come, it does not matter what comes. -/
lemma upToRealm_append (h : ps.any isRealm = true ∨ qs.any isRealm = false ∧ qs'.any isRealm = false) :
    upToRealm (ps ++ qs) = upToRealm (ps ++ qs') := by
  by_cases hps : ps.any isRealm = true
  · rw [(upToRealm_append_of_any hps).1, (upToRealm_append_of_any hps).1]
  · obtain ⟨hqs, hqs'⟩ := h.resolve_left hps
    rw [Bool.not_eq_true] at hps
    rw [upToRealm_of_none, upToRealm_of_none]
    · rw [List.any_append, hps, hqs']
      rfl
    · rw [List.any_append, hps, hqs]
      rfl

/-- The parameters of a text without a NUL, without and with something behind it. -/
lemma keyValues_of_noEscapeBehind (h0 : s.contains 0 = false) (hs : s.getLast? ≠ some 92)
    (h : noEscapeBehind s t = true) :
    keyValues (cString s) = (closedKeyValues s).1 ++ keyValues (closedKeyValues s).2 ∧
      keyValues (cString (s ++ t)) =
        (closedKeyValues s).1 ++ keyValues ((closedKeyValues s).2 ++ cString t) := by
  have hmem : (0 : UInt8) ∉ s := by
    rw [← List.contains_iff_mem, h0]
    exact Bool.false_ne_true
  have hself : cString s = s ++ [] := by
    have hcat := cString_append hmem []
    rwa [List.append_nil] at hcat
  constructor
  · rw [hself, keyValues_append hs fun _ => rfl, List.append_nil]
  · rw [cString_append hmem, keyValues_append hs]
    intro hquote
    rw [noEscapeBehind, List.contains_iff_mem.mpr hquote] at h
    exact Option.isNone_iff_eq_none.mp h

lemma basicParameters_append (hs : s.getLast? ≠ some 92) (h : basicReadsAlone s t = true) :
    basicParameters (s ++ t) = basicParameters s := by
  rw [basicParameters, basicParameters]
  by_cases h0 : s.contains 0 = true
  · rw [cString_append_of_mem (List.contains_iff_mem.mp h0)]
  · rw [Bool.not_eq_true] at h0
    rw [basicReadsAlone, h0, Bool.false_or, Bool.and_eq_true, Bool.or_eq_true] at h
    obtain ⟨halone, hwith⟩ := keyValues_of_noEscapeBehind h0 hs h.1
    rw [halone, hwith]
    refine upToRealm_append (h.2.imp_right fun hnone => ?_)
    rw [noneBehind, Bool.and_eq_true, Bool.not_eq_true', Bool.not_eq_true'] at hnone
    exact hnone.symm

lemma digestParameters_append (hs : s.getLast? ≠ some 92) (h : digestReadsAlone s t = true) :
    digestParameters (s ++ t) = digestParameters s := by
  have hnil : ∀ qs : List (Bytes × Option Bytes), qs.any isDigestParameter = false →
      qs.filter isDigestParameter = [] := by
    intro qs hqs
    rw [List.filter_eq_nil_iff]
    rwa [List.any_eq_false] at hqs
  rw [digestParameters, digestParameters]
  by_cases h0 : s.contains 0 = true
  · rw [cString_append_of_mem (List.contains_iff_mem.mp h0)]
  · rw [Bool.not_eq_true] at h0
    rw [digestReadsAlone, h0, Bool.false_or, Bool.and_eq_true, noneBehind, Bool.and_eq_true,
      Bool.not_eq_true', Bool.not_eq_true'] at h
    obtain ⟨halone, hwith⟩ := keyValues_of_noEscapeBehind h0 hs h.1
    rw [halone, hwith, List.filter_append, List.filter_append, hnil _ h.2.1, hnil _ h.2.2]

lemma ntlmMessage_append (hs : s.getLast? = some 10) : ntlmMessage (s ++ t) = ntlmMessage s := by
  refine takeWhile_append_of_ne_nil fun hnil => ?_
  have hall := List.dropWhile_eq_nil_iff.mp hnil 10 (List.mem_of_getLast? hs)
  exact absurd hall (by decide)

/-- **A challenge that is read alone** is the same with something behind its line. -/
lemma readChallenge_append {scheme : AuthScheme} (hs : s.getLast? = some 10)
    (h : challengeReadsAlone scheme s t = true) :
    readChallenge scheme (s ++ t) = readChallenge scheme s := by
  have hmem : (10 : UInt8) ∈ s := List.mem_of_getLast? hs
  have hlast : ∀ k, (s.drop k).getLast? ≠ some 92 := by
    intro k
    by_cases hnil : s.drop k = []
    · simp [hnil]
    · rw [getLast?_of_suffix (List.drop_suffix k s) hnil, hs]
      decide
  rw [challengeReadsAlone] at h
  have hbasicLit : (10 : UInt8) ∉ ascii "Basic" := by decide
  have hdigestLit : (10 : UInt8) ∉ ascii "Digest" := by decide
  have hntlmLit : (10 : UInt8) ∉ ascii "NTLM" := by decide
  rw [readChallenge, readChallenge, startsWith_append hmem hbasicLit,
    startsWith_append hmem hdigestLit, startsWith_append hmem hntlmLit]
  split
  · rename_i hbasic
    rw [if_pos hbasic] at h
    have hlen := (length_lt_of_startsWith (Bool.and_eq_true _ _ ▸ hbasic).1 hmem (by decide)).1
    rw [List.drop_append_of_le_length (show 6 ≤ s.length from hlen),
      basicParameters_append (hlast 6) h]
  · rename_i hbasic
    rw [if_neg hbasic] at h
    split
    · rename_i hdigest
      rw [if_pos hdigest] at h
      have hlen := (length_lt_of_startsWith (Bool.and_eq_true _ _ ▸ hdigest).1 hmem (by decide)).1
      rw [List.drop_append_of_le_length (show 7 ≤ s.length from hlen),
        digestParameters_append (hlast 7) h]
    · rename_i hdigest
      rw [if_neg hdigest] at h
      split
      · rename_i hntlm
        split
        · rename_i hscheme
          have hlen := (length_lt_of_startsWith hntlm hmem (by decide)).1
          have hne : s.drop 5 ≠ [] := by simpa [hntlm, hscheme] using h
          rw [List.drop_append_of_le_length (show 5 ≤ s.length from hlen), ntlmMessage_append]
          rw [getLast?_of_suffix (List.drop_suffix 5 s) hne, hs]
        · rfl
      · rfl

end ReadsAlone

end PubNub
