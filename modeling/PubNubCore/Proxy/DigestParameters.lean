import PubNubCore.Proxy.Challenges

/-!
# The parameters of a Digest challenge

What `pbhttp_digest_parse_header` makes of a challenge that has been split into its parameters.  A
parameter is taken for a field if its name begins with the field's, in lower case, and what is
searched for in an algorithm or a quality of protection may stand anywhere but at the very end.
The last parameter that is taken for a field sets it, up to one that is refused.

`value_loop` says which value a field has afterwards; it is the one in the challenge where the
last parameter that is taken for the field brings what the parameter with its name means.
-/

namespace PubNub

/-! ## Fields and values -/

/-- The fields that are read of a challenge. -/
inductive DigestField
  | realm | nonce | opaqueData | algorithm | qop
  deriving DecidableEq, Repr

inductive DigestValue
  | text (s : Bytes)
  | algorithm (a : DigestAlgorithm)
  | qop (q : DigestQop)
  deriving DecidableEq, Repr

/-- The elements of a list in a value. -/
def ParamValue.options (v : ParamValue) : List Bytes :=
  (v.content.splitOn 44).map fun s => ((s.dropWhile isBlank).reverse.dropWhile isBlank).reverse

namespace DigestField

def all : List DigestField := [realm, nonce, opaqueData, algorithm, qop]

def name : DigestField → Bytes
  | realm => ascii "realm"
  | nonce => ascii "nonce"
  | opaqueData => ascii "opaque"
  | algorithm => ascii "algorithm"
  | qop => ascii "qop"

/-- What a value says: a realm and a nonce between the quotes, `opaque` with them, for it is sent back
    so; an algorithm that is not known and a list without a quality that is known say nothing. -/
def meant (f : DigestField) (v : ParamValue) : Option DigestValue :=
  match f with
  | realm | nonce => some (.text v.content)
  | opaqueData => some (.text v.bytes)
  | algorithm =>
      if v.content = ascii "MD5-sess" then some (.algorithm .md5Sess)
      else if v.content = ascii "MD5" then some (.algorithm .md5)
      else none
  | qop =>
      if ascii "auth-int" ∈ v.options then some (.qop .authInt)
      else if ascii "auth" ∈ v.options then some (.qop .auth)
      else none

/-- What is taken for it: a text that stands in the value ahead of its last character. -/
def taken (f : DigestField) (v : ParamValue) : Option DigestValue :=
  match f with
  | algorithm =>
      if ascii "MD5-sess" <:+: v.bytes.dropLast then some (.algorithm .md5Sess)
      else if ascii "MD5" <:+: v.bytes.dropLast then some (.algorithm .md5)
      else none
  | qop =>
      if ascii "auth-int" <:+: v.bytes.dropLast then some (.qop .authInt)
      else if ascii "auth" <:+: v.bytes.dropLast then some (.qop .auth)
      else none
  | f => f.meant v

/-- A realm and a nonce are quoted, and a text has room. -/
def accepts (f : DigestField) (v : ParamValue) : Bool :=
  match f, v with
  | realm, .quoted pieces =>
      let size := (ParamValue.quoted pieces).content.length
      decide (0 < size ∧ size < maxHttpAuthRealm)
  | nonce, .quoted pieces =>
      let size := (ParamValue.quoted pieces).content.length
      decide (0 < size ∧ size ≤ maxHttpNonce)
  | realm, .token _ | nonce, .token _ => false
  | opaqueData, v => decide (v.bytes.length ≤ maxHttpOpaque)
  | algorithm, _ | qop, _ => true

end DigestField

open DigestField

namespace AuthParam

variable (p : AuthParam) (f : DigestField)

/-- The parameter has the name of the field; names are compared without regard to case. -/
def isNamed : Bool := p.name.map toLower == f.name

/-- `LIT_STR_EQ`. -/
def begins : Bool := startsWith p.name f.name

/-- What the parameter says about the field. -/
def meantFor : Option DigestValue := if p.isNamed f then f.meant p.value else none

/-- What it is taken to say. -/
def takenFor : Option DigestValue := if p.begins f then f.taken p.value else none

/-- No parameter error. -/
def accepted : Bool := all.all fun f => !p.begins f || f.accepts p.value

end AuthParam

/-- What the parameters say about a field, the last one counting; in a challenge there is one. -/
def lastMeant (f : DigestField) (ps : List AuthParam) : Option DigestValue :=
  (ps.filterMap (·.meantFor f)).getLast?

def lastTaken (f : DigestField) (ps : List AuthParam) : Option DigestValue :=
  (ps.filterMap (·.takenFor f)).getLast?

/-- A field of the context, or the realm. -/
def DigestParse.value (st : DigestParse) : DigestField → DigestValue
  | .realm => .text st.realm
  | .nonce => .text st.ctx.nonce
  | .opaqueData => .text st.ctx.opaqueData
  | .algorithm => .algorithm st.ctx.algorithm
  | .qop => .qop st.ctx.qop

/-! ## Names and texts -/

variable {p : AuthParam} {ps : List AuthParam} {f g : DigestField} {st : DigestParse}

/-- The names of the fields begin with different letters. -/
lemma begins_unique (hf : p.begins f = true) (hg : p.begins g = true) : f = g := by
  have hhead : ∀ {f : DigestField}, p.begins f = true → p.name.head? = f.name.head? := by
    intro f hf
    rw [← eq_of_beq hf]
    cases hname : p.name with
    | nil =>
        rw [AuthParam.begins, hname] at hf
        cases f <;> cases hf
    | cons c s => cases f <;> rfl
  have heq : f.name.head? = g.name.head? := (hhead hf).symm.trans (hhead hg)
  cases f <;> cases g <;> first | rfl | exact absurd heq (by decide)

lemma takenFor_of_begins (h : p.begins f = true) (g : DigestField) :
    p.takenFor g = if g = f then f.taken p.value else none := by
  rw [AuthParam.takenFor]
  by_cases hg : g = f
  · rw [if_pos hg, hg, if_pos h]
  · rw [if_neg hg, if_neg fun hbegins => hg (begins_unique hbegins h)]

lemma accepted_of_begins (h : p.begins f = true) : p.accepted = f.accepts p.value := by
  have hall : ∀ g ∈ all, (!p.begins g || g.accepts p.value) = true ∨ g = f := by
    intro g _
    by_cases hg : p.begins g = true
    · exact .inr (begins_unique hg h)
    · rw [Bool.not_eq_true] at hg
      rw [hg]
      exact .inl rfl
  rw [AuthParam.accepted, Bool.eq_iff_iff, List.all_eq_true]
  constructor
  · intro haccepts
    have hf := haccepts f (by cases f <;> decide)
    rwa [h] at hf
  · intro haccepts g hg
    rcases hall g hg with hok | rfl
    · exact hok
    · rw [haccepts, Bool.or_true]

/-- A text is found if it stands ahead of the last character. -/
lemma pubnubFindStrInChamebl_iff {v s : Bytes} (hs : s ≠ []) :
    pubnubFindStrInChamebl v s = true ↔ s <:+: v.dropLast := by
  rw [pubnubFindStrInChamebl, List.any_eq_true]
  constructor
  · rintro ⟨i, hi, hstarts⟩
    rw [List.mem_range] at hi
    have htake : (v.drop i).take s.length = s := eq_of_beq hstarts
    refine ⟨v.take i, ((v.drop i).drop s.length).dropLast, ?_⟩
    have hne : (v.drop i).drop s.length ≠ [] := by
      rw [List.drop_drop, ne_eq, List.drop_eq_nil_iff]
      omega
    conv_rhs => rw [← List.take_append_drop i v, ← List.take_append_drop s.length (v.drop i), htake]
    rw [← List.append_assoc, List.dropLast_append_of_ne_nil hne]
  · rintro ⟨a, b, hab⟩
    have hlen := congrArg List.length hab
    have hpos := List.length_pos_of_ne_nil hs
    simp only [List.length_append, List.length_dropLast] at hlen
    refine ⟨a.length, List.mem_range.mpr (by omega), ?_⟩
    obtain ⟨c, hc⟩ : ∃ c, v = v.dropLast ++ [c] := by
      have hv : v ≠ [] := by
        rintro rfl
        simp only [List.length_nil] at hlen
        omega
      exact ⟨v.getLast hv, (List.dropLast_append_getLast hv).symm⟩
    rw [hc, ← hab, startsWith]
    simp only [List.append_assoc, List.drop_left, List.take_left, beq_self_eq_true]

lemma getD_lastTaken_cons (p : AuthParam) (ps : List AuthParam) (f : DigestField) (v : DigestValue) :
    (lastTaken f (p :: ps)).getD v = (lastTaken f ps).getD ((p.takenFor f).getD v) := by
  rw [lastTaken, lastTaken, List.filterMap_cons]
  cases p.takenFor f with
  | none => rfl
  | some w =>
      rw [Option.getD_some, List.getLast?_cons]
      rfl

/-! ## One parameter -/

lemma unquoted_quoted (pieces : List QuotedPiece) :
    unquoted (ParamValue.quoted pieces).bytes = (ParamValue.quoted pieces).content := by
  rw [unquoted, ParamValue.bytes, ParamValue.content, List.cons_append, List.drop_one, List.tail_cons]
  refine List.take_left' ?_
  simp only [List.length_cons, List.length_append, List.length_nil]
  omega

lemma length_quoted (pieces : List QuotedPiece) : (ParamValue.quoted pieces).bytes.length =
    (ParamValue.quoted pieces).content.length + 2 := by
  rw [ParamValue.bytes, ParamValue.content, List.length_append, List.length_cons,
    List.length_singleton]

/-- Only a quoted value begins with a quote. -/
lemma head?_token {t : Bytes} (ht : (ParamValue.token t).valid = true) :
    (ParamValue.token t).bytes.head? ≠ some 34 := by
  obtain ⟨c, u, rfl, hchars⟩ := AuthParam.exists_cons_of_isToken ht
  intro hquote
  exact isTchar_ne (hchars c List.mem_cons_self) (by decide) (Option.some.inj hquote)

/-- `pbproxy_check_realm`, and the realm it lets pass. -/
lemma realm_accepts {v : ParamValue} (hv : v.valid = true) :
    pbproxyCheckRealm v.bytes = DigestField.realm.accepts v ∧
      (DigestField.realm.accepts v = true → unquoted v.bytes = v.content) := by
  cases v with
  | token t =>
      refine ⟨?_, fun h => nomatch h⟩
      rw [pbproxyCheckRealm, beq_false_of_ne (head?_token hv), Bool.and_false, Bool.false_and]
      rfl
  | quoted pieces =>
      refine ⟨?_, fun _ => unquoted_quoted pieces⟩
      have hhead : ((ParamValue.quoted pieces).bytes.head? == some 34) = true := rfl
      rw [pbproxyCheckRealm, hhead, length_quoted, Bool.and_true, Bool.eq_iff_iff]
      simp only [accepts, Bool.and_eq_true, decide_eq_true_eq]
      omega

/-- The same for a nonce. -/
lemma nonce_accepts {v : ParamValue} (hv : v.valid = true) :
    (v.bytes.head? = some 34 ∧ 2 < v.bytes.length ∧ v.bytes.length - 2 ≤ maxHttpNonce ↔
      DigestField.nonce.accepts v = true) ∧
      (DigestField.nonce.accepts v = true → unquoted v.bytes = v.content) := by
  cases v with
  | token t => exact ⟨iff_of_false (fun h => head?_token hv h.1) (fun h => nomatch h), fun h => nomatch h⟩
  | quoted pieces =>
      refine ⟨?_, fun _ => unquoted_quoted pieces⟩
      have hhead : (ParamValue.quoted pieces).bytes.head? = some 34 := rfl
      rw [hhead, length_quoted]
      simp only [accepts, decide_eq_true_eq, true_and]
      omega

namespace DigestParse

/-- What a parameter does that is taken for a field. -/
lemma parameter_of_begins (st : DigestParse) (h : p.begins f = true) :
    (p.accepted = false → st.parameter p.name p.value.bytes = none) ∧
    (p.accepted = true → ∃ st', st.parameter p.name p.value.bytes = some st' ∧
      ∀ g, st'.value g = (if g = f then f.taken p.value else none).getD (st.value g)) := by
  have hother : ∀ g, g ≠ f → ¬ startsWith p.name g.name = true := by
    intro g hne hg
    exact hne (begins_unique hg h)
  have hrealm : DigestField.realm ≠ f → ¬ startsWith p.name (ascii "realm") = true := hother .realm
  have hnonce : DigestField.nonce ≠ f → ¬ startsWith p.name (ascii "nonce") = true := hother .nonce
  have hsent : DigestField.opaqueData ≠ f → ¬ startsWith p.name (ascii "opaque") = true :=
    hother .opaqueData
  have halgorithm : DigestField.algorithm ≠ f → ¬ startsWith p.name (ascii "algorithm") = true :=
    hother .algorithm
  rw [accepted_of_begins h, parameter]
  cases f with
  | realm =>
      have hthis : startsWith p.name (ascii "realm") = true := h
      obtain ⟨hcheck, hcontent⟩ := realm_accepts p.valid
      rw [if_pos hthis, hcheck]
      constructor
      · intro hno
        rw [hno, if_neg Bool.false_ne_true]
      · intro hyes
        rw [if_pos hyes, hcontent hyes]
        refine ⟨_, rfl, fun g => ?_⟩
        cases g <;> rfl
  | nonce =>
      have hthis : startsWith p.name (ascii "nonce") = true := h
      obtain ⟨hcheck, hcontent⟩ := nonce_accepts p.valid
      rw [if_neg (hrealm (by decide)), if_pos hthis]
      constructor
      · intro hno
        rw [if_neg fun hyes => absurd (hcheck.mp hyes) (by rw [hno]; decide)]
      · intro hyes
        rw [if_pos (hcheck.mpr hyes), hcontent hyes]
        refine ⟨_, rfl, fun g => ?_⟩
        cases g <;> rfl
  | opaqueData =>
      have hthis : startsWith p.name (ascii "opaque") = true := h
      rw [if_neg (hrealm (by decide)), if_neg (hnonce (by decide)), if_pos hthis]
      constructor
      · intro hno
        rw [if_neg (of_decide_eq_false hno)]
      · intro hyes
        rw [if_pos (of_decide_eq_true hyes)]
        refine ⟨_, rfl, fun g => ?_⟩
        cases g <;> rfl
  | algorithm =>
      have hthis : startsWith p.name (ascii "algorithm") = true := h
      rw [if_neg (hrealm (by decide)), if_neg (hnonce (by decide)),
        if_neg (hsent (by decide)), if_pos hthis]
      refine ⟨fun hno => (nomatch hno), fun _ => ?_⟩
      rw [taken]
      simp only [pubnubFindStrInChamebl_iff (show ascii "MD5-sess" ≠ [] by decide),
        pubnubFindStrInChamebl_iff (show ascii "MD5" ≠ [] by decide)]
      split
      · refine ⟨_, rfl, fun g => ?_⟩
        cases g <;> rfl
      · split
        · refine ⟨_, rfl, fun g => ?_⟩
          cases g <;> rfl
        · refine ⟨_, rfl, fun g => ?_⟩
          cases g <;> rfl
  | qop =>
      have hthis : startsWith p.name (ascii "qop") = true := h
      rw [if_neg (hrealm (by decide)), if_neg (hnonce (by decide)),
        if_neg (hsent (by decide)), if_neg (halgorithm (by decide)), if_pos hthis]
      refine ⟨fun hno => (nomatch hno), fun _ => ?_⟩
      rw [taken]
      simp only [pubnubFindStrInChamebl_iff (show ascii "auth-int" ≠ [] by decide),
        pubnubFindStrInChamebl_iff (show ascii "auth" ≠ [] by decide)]
      split
      · refine ⟨_, rfl, fun g => ?_⟩
        cases g <;> rfl
      · split
        · refine ⟨_, rfl, fun g => ?_⟩
          cases g <;> rfl
        · refine ⟨_, rfl, fun g => ?_⟩
          cases g <;> rfl

/-- Other parameters are passed over; `stale` only touches the counter of the nonce. -/
lemma parameter_of_not_begins (st : DigestParse) (h : ∀ f, p.begins f = false) :
    ∃ st', st.parameter p.name p.value.bytes = some st' ∧ ∀ g, st'.value g = st.value g := by
  have hrealm : startsWith p.name (ascii "realm") = false := h .realm
  have hnonce : startsWith p.name (ascii "nonce") = false := h .nonce
  have hsent : startsWith p.name (ascii "opaque") = false := h .opaqueData
  have halgorithm : startsWith p.name (ascii "algorithm") = false := h .algorithm
  have hqop : startsWith p.name (ascii "qop") = false := h .qop
  rw [parameter, hrealm, hnonce, hsent, halgorithm, hqop]
  simp only [Bool.false_eq_true, if_false]
  split
  · split
    · refine ⟨_, rfl, fun g => ?_⟩
      cases g <;> rfl
    · exact ⟨st, rfl, fun g => rfl⟩
  · exact ⟨st, rfl, fun g => rfl⟩

/-- **One pass of the loop.** -/
lemma value_parameter (p : AuthParam) (st : DigestParse) :
    (p.accepted = false → st.parameter p.name p.value.bytes = none) ∧
    (p.accepted = true → ∃ st', st.parameter p.name p.value.bytes = some st' ∧
      ∀ f, st'.value f = (p.takenFor f).getD (st.value f)) := by
  by_cases h : ∃ f, p.begins f = true
  · obtain ⟨f, hf⟩ := h
    obtain ⟨hno, hyes⟩ := parameter_of_begins st hf
    refine ⟨hno, fun haccepted => ?_⟩
    obtain ⟨st', hparameter, hvalue⟩ := hyes haccepted
    refine ⟨st', hparameter, fun g => ?_⟩
    rw [hvalue, takenFor_of_begins hf]
  · simp only [not_exists, Bool.not_eq_true] at h
    have haccepted : p.accepted = true := by
      simp only [AuthParam.accepted, h, Bool.not_false, Bool.true_or, List.all_eq_true, implies_true]
    refine ⟨fun hno => absurd haccepted (by rw [hno]; decide), fun _ => ?_⟩
    obtain ⟨st', hparameter, hvalue⟩ := parameter_of_not_begins st h
    refine ⟨st', hparameter, fun f => ?_⟩
    rw [hvalue, AuthParam.takenFor, h f, if_neg Bool.false_ne_true]
    rfl

/-- **The loop.**  A field has the last value that has been taken for it, up to the first parameter
    that is refused. -/
lemma value_loop (ps : List AuthParam) (st : DigestParse) (f : DigestField) :
    (st.loop (ps.map fun p => (p.name, some p.value.bytes))).2.value f =
      (lastTaken f (ps.takeWhile (·.accepted))).getD (st.value f) := by
  induction ps generalizing st with
  | nil => rfl
  | cons p ps ih =>
      obtain ⟨hno, hyes⟩ := value_parameter p st
      rw [List.map_cons, loop, Option.getD_some]
      cases haccepted : p.accepted with
      | false =>
          rw [hno haccepted, List.takeWhile_cons_of_neg (by rw [haccepted]; decide)]
          rfl
      | true =>
          obtain ⟨st', hparameter, hvalue⟩ := hyes haccepted
          rw [hparameter, List.takeWhile_cons_of_pos haccepted]
          dsimp only
          rw [ih, hvalue, getD_lastTaken_cons]

end DigestParse

/-! ## The whole challenge -/

/-- The parser splits a challenge into its parameters, and sets the fields to what they say, whatever
    the context and the realm are before. -/
def ReadsChallenge (ps : List AuthParam) : Prop :=
  yields (challengeText ps) = ps.map (fun p => (p.name, p.value.bytes)) ∧
    ∀ (ctx : DigestContext) (realm : Bytes) (f : DigestField),
      (pbhttpDigestParseHeader ctx (challengeText ps) realm).2.value f =
        (lastMeant f ps).getD ((⟨ctx, realm, none⟩ : DigestParse).value f)

/-- A call reads no further than the NUL of its text, and leaves less than it has been given. -/
def ReadsInside (s : Bytes) : Prop :=
  (pbproxyGetNextKeyValue s).key <:+: s ∧
    (∀ v, (pbproxyGetNextKeyValue s).value = some v → v <:+: s ++ [0]) ∧
    ∀ r, (pbproxyGetNextKeyValue s).rest = some r → r <:+ s ∧ r.length < s.length

lemma value_pbhttpDigestParseHeader (h : SplitsRight ps) (ctx : DigestContext) (realm : Bytes)
    (f : DigestField) :
    (pbhttpDigestParseHeader ctx (challengeText ps) realm).2.value f =
      (lastTaken f (ps.takeWhile (·.accepted))).getD ((⟨ctx, realm, none⟩ : DigestParse).value f) := by
  by_cases hps : ps = []
  · subst hps
    rfl
  · rw [pbhttpDigestParseHeader, keyValues_challengeText hps h, DigestParse.value_loop]

/-- Two values are the same if they are whatever a field has been before. -/
lemma eq_of_getD {v w : Option DigestValue} (h : ∀ (ctx : DigestContext) (realm : Bytes),
    v.getD ((⟨ctx, realm, none⟩ : DigestParse).value f) =
      w.getD ((⟨ctx, realm, none⟩ : DigestParse).value f)) : v = w := by
  have hfirst := h ⟨[], [], .unknown, .none, 1⟩ []
  have hsecond := h ⟨[0], [0], .md5, .auth, 1⟩ [0]
  have hne : (⟨⟨[], [], .unknown, .none, 1⟩, [], none⟩ : DigestParse).value f ≠
      (⟨⟨[0], [0], .md5, .auth, 1⟩, [0], none⟩ : DigestParse).value f := by
    cases f <;> decide
  cases v with
  | none =>
      cases w with
      | none => rfl
      | some w => exact absurd (hfirst.trans hsecond.symm) hne
  | some v =>
      cases w with
      | none => exact absurd (hfirst.symm.trans hsecond) hne
      | some w => exact congrArg some hfirst

def quotedText (s : String) : ParamValue := .quoted ((ascii s).map .text)

/-- `realm="r",algorithm=MD5,nonce="n"`. -/
def commaChallenge : List AuthParam :=
  [{ name := ascii "realm", value := quotedText "r"
     blanks := by decide, token := by decide, valid := by decide },
   { name := ascii "algorithm", value := .token (ascii "MD5")
     blanks := by decide, token := by decide, valid := by decide },
   { name := ascii "nonce", value := quotedText "n"
     blanks := by decide, token := by decide, valid := by decide }]

/-- `nonce="n", algorithm=MD5`. -/
def lastChallenge : List AuthParam :=
  [{ name := ascii "nonce", value := quotedText "n"
     blanks := by decide, token := by decide, valid := by decide },
   { ahead := [32], name := ascii "algorithm", value := .token (ascii "MD5")
     blanks := by decide, token := by decide, valid := by decide }]

end PubNub
