import PubNubCore.Api.Functions
import PubNubCore.Api.UrlEncode
import PubNubCore.Lib.Printing

/-!
# The steps of the preparation of a request

Every `pbcc_…_prep` writes the URL to `http_buf` in steps: a path, which is printed, then literals,
strings and parameters, which are appended by the macros of `core/pubnub_ccore_pubsub.h` and the
functions of `core/pubnub_ccore_pubsub.c`, then the signature, and behind the zero of the URL the
body.  A preparation is given here as the steps it takes, with the strings that it is given.

A result `none` says that something is written outside of `http_buf`, that the question mark which
`pbcc_sign_url` looks for is not there, or that `snprintf` has a length to return which is no `int`.

`preparations_right` has what every step needs.  What is printed has to fit, since the length that
is added is the wanted one; a parameter may not end right at the end of the buffer, since
`pubnub_url_encode` writes its zero there unasked; and a message that is longer than the length up
to which it is measured has to fit nevertheless.
-/

namespace PubNub

/-- What the build says about the preparations: how URLs are encoded, and `PUBNUB_BUF_MAXLEN`. -/
structure PrepBuild where
  urlEncode : UrlEncodeBuild
  bufMaxlen : Nat
  bufMaxlen_lt : bufMaxlen < 2 ^ 31

/-- Where `message_to_send` points to. -/
inductive BodyPlace
  | httpBuf (i : Nat)
  | message
  deriving DecidableEq

/-- What a preparation writes to of the context. -/
structure PrepState (B : PrepBuild) where
  httpBuf : CharArray B.bufMaxlen
  httpBufLen : Nat
  messageToSend : Option BodyPlace
  deriving DecidableEq

/-- `pbcc_sign_url`, but for the buffer: there is no memory, there is no cryptography, or the signature,
    which is a text in base 64, is in `final_signature`. -/
inductive Signing
  | noMemory
  | notSupported
  | signature (s : CText) (length_lt : s.text.length < 60) (question_not_mem : 63 ∉ s.text)

/-- A step of a preparation. -/
inductive PrepStep
  /-- `http_buf_len += snprintf(...)` -/
  | print (t : CText)
  /-- `APPEND_URL_LITERAL_M` -/
  | literal (t : CText)
  /-- `APPEND_URL_STRING_M` -/
  | string (s : CText) (n : UInt64)
  /-- `APPEND_URL_ENCODED_M_TRANS` -/
  | encoded (what : CText) (pt : Pbtt)
  /-- The message of `pbcc_publish_prep` behind a slash. -/
  | getMessage (message : CText)
  /-- `pbcc_append_url_param_encoded`, as `ENCODE_URL_PARAMS_TRANS` calls it for the slot `i`. -/
  | param (i : Nat) (key val : CText) (pt : Pbtt)

/-- `APPEND_MESSAGE_BODY_M`; `checks` says that it is given `rslt`, not `PNR_OK`. -/
structure PrepBody where
  message : CText
  compressed : Bool
  checks : Bool

/-- The steps that a preparation takes. -/
structure PrepSteps where
  path : CText
  steps : List PrepStep
  signing : Option Signing
  body : Option PrepBody

/-! ## What the steps do -/

/-- `sizeof http_buf` less a number of bytes, as a `size_t`. -/
def sizeofLess (size taken : Nat) : Nat := (((size : Int) - taken) % 2 ^ 64).toNat

/-- What `"%.*s"` prints: all of it, if the precision is negative. -/
def printedString (s : Bytes) (n : UInt64) : Bytes :=
  if n.toNat % 2 ^ 32 < 2 ^ 31 then s.take (n.toNat % 2 ^ 32) else s

/-- `i == 0 ? '?' : '&'` -/
def paramSeparator (i : Nat) : UInt8 := if i = 0 then 63 else 38

section Steps

variable {B : PrepBuild} (s : PrepState B)

/-- The path, at the beginning of the buffer. -/
def startUrl (path : Bytes) : Option (PrepState B) :=
  (s.httpBuf.snprintf 0 B.bufMaxlen path).bind fun buf =>
    (asInt path.length).map fun length => { s with httpBuf := buf, httpBufLen := length }

/-- `http_buf_len += snprintf(http_buf + http_buf_len, sizeof http_buf - http_buf_len - less, ...)` -/
def printUrl (less : Nat) (t : Bytes) : Option (PrepState B) :=
  (s.httpBuf.snprintf s.httpBufLen (sizeofLess B.bufMaxlen (s.httpBufLen + less)) t).bind fun buf =>
    (asInt t.length).map fun length =>
      { s with httpBuf := buf, httpBufLen := s.httpBufLen + length }

/-- `APPEND_URL_LITERAL_M` -/
def appendUrlLiteral (t : Bytes) : Option (PrepState B × PubnubRes) :=
  if B.bufMaxlen < s.httpBufLen + (t.length + 1) then some (s, .txBuffTooSmall)
  else (s.httpBuf.write s.httpBufLen (t ++ [0])).map fun buf =>
    ({ s with httpBuf := buf, httpBufLen := s.httpBufLen + t.length }, .ok)

/-- `APPEND_URL_STRING_M`.  The sum is a `size_t`. -/
def appendUrlString (t : Bytes) (n : UInt64) : Option (PrepState B × PubnubRes) :=
  if B.bufMaxlen < (s.httpBufLen + n.toNat) % 2 ^ 64 then some (s, .txBuffTooSmall)
  else (printUrl s 1 (printedString t n)).map fun s => (s, .ok)

/-- `pbcc_url_encode` -/
def pbccUrlEncode (what : Bytes) (pt : Pbtt) : Option (PrepState B × PubnubRes) :=
  (pubnubUrlEncode B.urlEncode s.httpBuf s.httpBufLen what
      (UInt64.ofNat (sizeofLess B.bufMaxlen s.httpBufLen)) pt).map fun (buf, urlEncodedLength) =>
    match urlEncodedLength with
    | none => ({ s with httpBuf := buf, httpBufLen := 0 }, .txBuffTooSmall)
    | some length => ({ s with httpBuf := buf, httpBufLen := s.httpBufLen + length }, .ok)

/-- `pb->http_buf[pb->http_buf_len++] = '/'; APPEND_URL_ENCODED_M(pb, message);` -/
def appendGetMessage (message : Bytes) : Option (PrepState B × PubnubRes) :=
  (s.httpBuf.write s.httpBufLen [47]).bind fun buf =>
    pbccUrlEncode { s with httpBuf := buf, httpBufLen := s.httpBufLen + 1 } message .none

/-- `pbcc_append_url_param` -/
def pbccAppendUrlParam (name val : Bytes) (separator : UInt8) :
    Option (PrepState B × PubnubRes) :=
  if B.bufMaxlen < s.httpBufLen + 1 + name.length + 1 + val.length + 1 then
    some (s, .txBuffTooSmall)
  else (s.httpBuf.write s.httpBufLen (separator :: name ++ 61 :: val ++ [0])).map fun buf =>
    ({ s with httpBuf := buf, httpBufLen := s.httpBufLen + 1 + name.length + 1 + val.length }, .ok)

/-- `pbcc_append_url_param_encoded` -/
def pbccAppendUrlParamEncoded (name val : Bytes) (separator : UInt8) (pt : Pbtt) :
    Option (PrepState B × PubnubRes) :=
  if B.bufMaxlen < s.httpBufLen + 1 + name.length + 1 then some (s, .txBuffTooSmall)
  else (s.httpBuf.write s.httpBufLen (separator :: name ++ [61])).bind fun buf =>
    pbccUrlEncode { s with httpBuf := buf, httpBufLen := s.httpBufLen + 1 + name.length + 1 } val pt

/-- A step; the result is `PNR_OK` where the preparation goes on. -/
def prepStep : PrepStep → Option (PrepState B × PubnubRes)
  | .print t => (printUrl s 0 t.text).map fun s => (s, .ok)
  | .literal t => appendUrlLiteral s t.text
  | .string t n => appendUrlString s t.text n
  | .encoded what pt => pbccUrlEncode s what.text pt
  | .getMessage message => appendGetMessage s message.text
  | .param i key val pt => pbccAppendUrlParamEncoded s key.text val.text (paramSeparator i) pt

/-- The steps, up to the first which does not come out with `PNR_OK`. -/
def runSteps : PrepState B → List PrepStep → Option (PrepState B × PubnubRes)
  | s, [] => some (s, .ok)
  | s, step :: steps => (prepStep s step).bind fun (s, rslt) =>
      if rslt = .ok then runSteps s steps else some (s, rslt)

/-- `pbcc_sign_url`; the copy of the URL ends at the question mark.  Without a secret key the result
    stays `PNR_OK`. -/
def pbccSignUrl : Option Signing → Option (PrepState B × PubnubRes)
  | none => some (s, .ok)
  | some .noMemory => some (s, .internalError)
  | some signing => s.httpBuf.string.bind fun url =>
      if 63 ∉ url then none
      else match signing with
        | .signature t _ _ => pbccAppendUrlParam s (ascii "signature") t.text 38
        | _ => some (s, .cryptoNotSupported)

/-- `APPEND_MESSAGE_BODY_M` -/
def appendMessageBody (rslt : PubnubRes) : Option PrepBody → Option (PrepState B × PubnubRes)
  | none => some (s, .ok)
  | some body =>
      if body.checks = true ∧ rslt ≠ .ok then some (s, .ok)
      else if body.compressed = false ∧
          sizeofLess B.bufMaxlen (s.httpBufLen + 2) < strnlen body.message.text then
        some (s, .txBuffTooSmall)
      else (s.httpBuf.write s.httpBufLen [0]).bind fun buf =>
        if body.compressed = true then
          some ({ s with httpBuf := buf, messageToSend := some .message }, .ok)
        else (buf.write (s.httpBufLen + 1) (body.message.text ++ [0])).map fun buf =>
          ({ s with httpBuf := buf, messageToSend := some (.httpBuf (s.httpBufLen + 1)) }, .ok)

/-- A preparation. -/
def prepareRequest (p : PrepSteps) : Option (PrepState B × PubnubRes) :=
  (startUrl s p.path.text).bind fun s =>
    (runSteps s p.steps).bind fun (s, rslt) =>
      if rslt ≠ .ok then some (s, rslt)
      else (pbccSignUrl s p.signing).bind fun (s, rslt) =>
        (appendMessageBody s rslt p.body).map fun (s, bodyRslt) =>
          (s, if bodyRslt ≠ .ok then bodyRslt else if rslt ≠ .ok then rslt else .started)

end Steps

/-! ## What they should do -/

section Spec

variable {B : PrepBuild}

/-- What a step appends to the URL. -/
def PrepStep.text (B : PrepBuild) : PrepStep → Bytes
  | .print t => t.text
  | .literal t => t.text
  | .string t n => printedString t.text n
  | .encoded what pt => percentEncode (okSpanChars B.urlEncode pt).contains what.text
  | .getMessage message =>
      47 :: percentEncode (okSpanChars B.urlEncode .none).contains message.text
  | .param i key val pt => paramSeparator i :: key.text ++
      61 :: percentEncode (okSpanChars B.urlEncode pt).contains val.text

/-- What the signature appends to it. -/
def signedText : Option Signing → Bytes
  | some (.signature t _ _) => 38 :: ascii "signature" ++ 61 :: t.text
  | _ => []

namespace PrepSteps

/-- The whole URL. -/
def url (B : PrepBuild) (p : PrepSteps) : Bytes :=
  p.path.text ++ p.steps.flatMap (PrepStep.text B) ++ signedText p.signing

/-- The signing may come out with this. -/
def SigningFails (p : PrepSteps) (rslt : PubnubRes) : Prop :=
  p.signing = some .noMemory ∧ rslt = .internalError ∨
    p.signing = some .notSupported ∧ rslt = .cryptoNotSupported

end PrepSteps

/-- The buffer holds the string and its end at a place. -/
def PrepState.HasAt (s : PrepState B) (i : Nat) (t : Bytes) : Prop :=
  0 ∉ t ∧ ∃ rest, s.httpBuf.bytes.drop i = t ++ 0 :: rest

/-- The length is within the buffer, and there is an end to the string. -/
def PrepState.Safe (s : PrepState B) : Prop :=
  s.httpBufLen ≤ B.bufMaxlen ∧ s.httpBuf.Terminated

/-- So it is after each of the steps. -/
def StaysSafe (s : PrepState B) (p : PrepSteps) : Prop :=
  ∃ started, startUrl s p.path.text = some started ∧ started.Safe ∧
    ∀ k, ∃ next, runSteps started (p.steps.take k) = some next ∧ next.1.Safe

/-- A preparation comes out as it should. -/
structure PreparedRight (p : PrepSteps) (s : PrepState B) (rslt : PubnubRes) : Prop where
  safe : s.Safe
  whole : rslt = .started → s.HasAt 0 (p.url B) ∧ s.httpBufLen = (p.url B).length
  body : rslt = .started → ∀ body, p.body = some body → body.compressed = false →
    ∃ i, s.messageToSend = some (.httpBuf i) ∧ s.HasAt i body.message.text
  otherwise : rslt = .started ∨ rslt = .txBuffTooSmall ∨ p.SigningFails rslt

end Spec

/-! ## When they do it -/

section Fits

variable {B : PrepBuild} (s : PrepState B)

/-- A step neither cuts anything short nor goes past the end of the buffer. -/
def UrlStepFits : PrepStep → Prop
  | .print t => s.httpBufLen + t.text.length < B.bufMaxlen
  | .literal _ => True
  | .string t n => B.bufMaxlen < (s.httpBufLen + n.toNat) % 2 ^ 64 ∨ printedString t.text n = [] ∨
      s.httpBufLen + (printedString t.text n).length + 1 < B.bufMaxlen
  | .encoded _ _ => True
  | .getMessage _ => s.httpBufLen + 1 < B.bufMaxlen
  | .param _ key _ _ => s.httpBufLen + key.text.length + 2 ≠ B.bufMaxlen

instance instDecidableUrlStepFits : (step : PrepStep) → Decidable (UrlStepFits s step)
  | .print t => inferInstanceAs (Decidable (s.httpBufLen + t.text.length < _))
  | .literal _ | .encoded _ _ => inferInstanceAs (Decidable True)
  | .string t n => inferInstanceAs (Decidable (_ < (s.httpBufLen + n.toNat) % 2 ^ 64 ∨
      printedString t.text n = [] ∨ _ < _))
  | .getMessage _ => inferInstanceAs (Decidable (s.httpBufLen + 1 < _))
  | .param _ key _ _ => inferInstanceAs (Decidable (s.httpBufLen + key.text.length + 2 ≠ _))

/-- And so do the steps up to the first which is refused. -/
def UrlStepsFit : PrepState B → List PrepStep → Prop
  | _, [] => True
  | s, step :: steps => UrlStepFits s step ∧
      ∀ next ∈ prepStep s step, next.2 = .ok → UrlStepsFit next.1 steps

instance instDecidableUrlStepsFit :
    (s : PrepState B) → (steps : List PrepStep) → Decidable (UrlStepsFit s steps)
  | _, [] => inferInstanceAs (Decidable True)
  | s, step :: steps =>
      have := fun s' => instDecidableUrlStepsFit s' steps
      inferInstanceAs (Decidable (_ ∧ ∀ next ∈ prepStep s step, _ → _))

/-- There is a question mark in the URL. -/
def SigningFits : Option Signing → Prop
  | none | some .noMemory => True
  | _ => ∀ url ∈ s.httpBuf.string, 63 ∈ url

instance : (signing : Option Signing) → Decidable (SigningFits s signing)
  | none | some .noMemory => inferInstanceAs (Decidable True)
  | some .notSupported | some (.signature _ _ _) =>
      inferInstanceAs (Decidable (∀ url ∈ s.httpBuf.string, (63 : UInt8) ∈ url))

/-- A body which is not refused fits. -/
def BodyFits (rslt : PubnubRes) : Option PrepBody → Prop
  | none => True
  | some body => (body.checks = true ∧ rslt ≠ .ok) ∨ body.compressed = true ∨
      s.httpBufLen + 2 ≤ B.bufMaxlen ∧
        (B.bufMaxlen - (s.httpBufLen + 2) < strnlen body.message.text ∨
          s.httpBufLen + 2 + body.message.text.length ≤ B.bufMaxlen)

instance (rslt : PubnubRes) : (body : Option PrepBody) → Decidable (BodyFits s rslt body)
  | none => inferInstanceAs (Decidable True)
  | some _ => inferInstanceAs (Decidable (_ ∨ _ ∨ _ ∧ (_ ∨ _)))

/-- Every step of a preparation fits. -/
structure PrepFits (p : PrepSteps) : Prop where
  path : p.path.text.length < B.bufMaxlen
  steps : ∀ started ∈ startUrl s p.path.text, UrlStepsFit started p.steps
  signing : ∀ started ∈ startUrl s p.path.text, ∀ ready ∈ runSteps started p.steps,
    ready.2 = .ok → SigningFits ready.1 p.signing
  body : ∀ started ∈ startUrl s p.path.text, ∀ ready ∈ runSteps started p.steps,
    ready.2 = .ok → ∀ signed ∈ pbccSignUrl ready.1 p.signing, BodyFits signed.1 signed.2 p.body

instance (p : PrepSteps) : Decidable (PrepFits s p) :=
  decidable_of_iff (_ ∧ _ ∧ _ ∧ _)
    ⟨fun h => ⟨h.1, h.2.1, h.2.2.1, h.2.2.2⟩, fun h => ⟨h.path, h.steps, h.signing, h.body⟩⟩

end Fits

/-! ## One step -/

section Invariant

variable {B : PrepBuild} {s s' : PrepState B} {url t : Bytes} {rslt : PubnubRes}

namespace PrepState

/-- The buffer holds the URL so far, and its length is known. -/
def Holds (s : PrepState B) (url : Bytes) : Prop :=
  s.httpBufLen = url.length ∧ s.HasAt 0 url

lemma Holds.exists_rest (h : s.Holds url) : ∃ rest, s.httpBuf.bytes = url ++ 0 :: rest := by
  obtain ⟨-, -, rest, hrest⟩ := h
  exact ⟨rest, hrest⟩

lemma Holds.length_lt (h : s.Holds url) : s.httpBufLen < B.bufMaxlen := by
  obtain ⟨rest, hrest⟩ := h.exists_rest
  have hlength := s.httpBuf.length_bytes
  rw [hrest, List.length_append, List.length_cons] at hlength
  have hlen := h.1
  omega

lemma Holds.safe (h : s.Holds url) : s.Safe := by
  obtain ⟨rest, hrest⟩ := h.exists_rest
  refine ⟨Nat.le_of_lt h.length_lt, ?_⟩
  rw [CharArray.Terminated, hrest]
  exact List.mem_append_right url List.mem_cons_self

lemma Holds.string (h : s.Holds url) : s.httpBuf.string = some url := by
  obtain ⟨rest, hrest⟩ := h.exists_rest
  exact CharArray.string_of_bytes hrest h.2.1

/-- What is written over the end of the URL, with its own end, becomes part of it. -/
lemma Holds.exists_write (h : s.Holds url) (ht : 0 ∉ t)
    (hroom : s.httpBufLen + t.length < B.bufMaxlen) :
    ∃ buf, s.httpBuf.write s.httpBufLen (t ++ [0]) = some buf ∧ ∀ place : Option BodyPlace,
      PrepState.Holds ⟨buf, s.httpBufLen + t.length, place⟩ (url ++ t) := by
  obtain ⟨rest, hrest⟩ := h.exists_rest
  have hlength := s.httpBuf.length_bytes
  rw [hrest, List.length_append] at hlength
  have hle : (t ++ [0]).length ≤ (0 :: rest).length := by
    rw [List.length_append, List.length_singleton]
    have hlen := h.1
    omega
  obtain ⟨buf, hbuf, hbytes⟩ := CharArray.exists_write hrest hle
  refine ⟨buf, h.1 ▸ hbuf, fun place => ⟨?_, ?_, (0 :: rest).drop (t ++ [0]).length, ?_⟩⟩
  · rw [List.length_append, h.1]
  · rw [List.mem_append, not_or]
    exact ⟨h.2.1, ht⟩
  · rw [List.drop_zero, hbytes]
    simp only [List.append_assoc, List.singleton_append]

end PrepState

/-- A step has gone on and has appended what it should, or it has been refused. -/
def GoesOnWith (url : Bytes) (s : PrepState B) (rslt : PubnubRes) : Prop :=
  rslt = .ok ∧ s.Holds url ∨ rslt = .txBuffTooSmall ∧ s.Safe

lemma GoesOnWith.goesOn (h : s.Holds url) : GoesOnWith url s .ok := .inl ⟨rfl, h⟩

lemma GoesOnWith.refused (h : s.Safe) : GoesOnWith url s .txBuffTooSmall := .inr ⟨rfl, h⟩

lemma GoesOnWith.safe (h : GoesOnWith url s rslt) : s.Safe := by
  rcases h with ⟨-, hholds⟩ | ⟨-, hsafe⟩
  · exact hholds.safe
  · exact hsafe

lemma sizeofLess_eq {size taken : Nat} (hsize : size < 2 ^ 31) (h : taken ≤ size) :
    sizeofLess size taken = size - taken := by
  rw [sizeofLess]
  omega

/-- A path that is shorter than the buffer is there. -/
lemma holds_startUrl (s : PrepState B) (ht : 0 ∉ t) (hlt : t.length < B.bufMaxlen) :
    ∃ s', startUrl s t = some s' ∧ s'.Holds t := by
  obtain ⟨buf, hbuf, rest, hbytes⟩ := CharArray.exists_snprintf (s := t)
    (List.nil_append s.httpBuf.bytes).symm hlt (hlt.trans_eq s.httpBuf.length_bytes.symm)
  refine ⟨{ s with httpBuf := buf, httpBufLen := t.length }, ?_, rfl, ht, rest, ?_⟩
  · rw [List.length_nil] at hbuf
    rw [startUrl, hbuf, Option.bind_some, asInt, if_pos (hlt.trans B.bufMaxlen_lt), Option.map_some]
  · rw [List.drop_zero, hbytes, List.nil_append]

/-- And so is what is printed behind it. -/
lemma holds_printUrl {less : Nat} (h : s.Holds url) (ht : 0 ∉ t)
    (hlt : s.httpBufLen + less + t.length < B.bufMaxlen) :
    ∃ s', printUrl s less t = some s' ∧ s'.Holds (url ++ t) := by
  obtain ⟨buf, hbuf, hholds⟩ := h.exists_write ht (by omega)
  refine ⟨{ s with httpBuf := buf, httpBufLen := s.httpBufLen + t.length }, ?_,
    hholds s.messageToSend⟩
  have hint : t.length < 2 ^ 31 := by
    have hsize := B.bufMaxlen_lt
    omega
  have hsize : t.length < sizeofLess B.bufMaxlen (s.httpBufLen + less) := by
    rw [sizeofLess_eq B.bufMaxlen_lt (by omega)]
    omega
  rw [printUrl, CharArray.snprintf_of_lt hsize, hbuf, Option.bind_some, asInt, if_pos hint,
    Option.map_some]

/-- Nothing can be printed where there is no room for its end. -/
lemma holds_printUrl_nil (h : s.Holds url) :
    ∃ s', printUrl s 1 [] = some s' ∧ s'.Holds url := by
  have hlt := h.length_lt
  by_cases hroom : s.httpBufLen + 1 < B.bufMaxlen
  · obtain ⟨s', hs', hholds⟩ := holds_printUrl (t := []) h List.not_mem_nil (by simpa using hroom)
    exact ⟨s', hs', by rwa [List.append_nil] at hholds⟩
  · refine ⟨s, ?_, h⟩
    have hsize : sizeofLess B.bufMaxlen (s.httpBufLen + 1) = 0 := by
      rw [sizeofLess_eq B.bufMaxlen_lt (by omega)]
      omega
    rw [printUrl, hsize, CharArray.snprintf, if_pos rfl]
    rfl

/-- A literal is appended, or there is no room for it. -/
lemma goesOnWith_appendUrlLiteral (h : s.Holds url) (ht : 0 ∉ t) :
    ∃ s' rslt, appendUrlLiteral s t = some (s', rslt) ∧ GoesOnWith (url ++ t) s' rslt := by
  by_cases hfull : B.bufMaxlen < s.httpBufLen + (t.length + 1)
  · exact ⟨s, _, by rw [appendUrlLiteral, if_pos hfull], .refused h.safe⟩
  · obtain ⟨buf, hbuf, hholds⟩ := h.exists_write ht (by omega)
    refine ⟨_, _, ?_, .goesOn (hholds s.messageToSend)⟩
    rw [appendUrlLiteral, if_neg hfull, hbuf, Option.map_some]

lemma zero_not_mem_printedString {n : UInt64} (ht : 0 ∉ t) : 0 ∉ printedString t n := by
  rw [printedString]
  split
  · exact fun hmem => ht (List.mem_of_mem_take hmem)
  · exact ht

/-- So is a string, as long as there is room for one more character than is needed. -/
lemma goesOnWith_appendUrlString {n : UInt64} (h : s.Holds url) (ht : 0 ∉ t)
    (hfits : B.bufMaxlen < (s.httpBufLen + n.toNat) % 2 ^ 64 ∨ printedString t n = [] ∨
      s.httpBufLen + (printedString t n).length + 1 < B.bufMaxlen) :
    ∃ s' rslt, appendUrlString s t n = some (s', rslt) ∧
      GoesOnWith (url ++ printedString t n) s' rslt := by
  by_cases hfull : B.bufMaxlen < (s.httpBufLen + n.toNat) % 2 ^ 64
  · exact ⟨s, _, by rw [appendUrlString, if_pos hfull], .refused h.safe⟩
  · obtain ⟨s', hs', hholds⟩ : ∃ s', printUrl s 1 (printedString t n) = some s' ∧
        s'.Holds (url ++ printedString t n) := by
      rcases hfits with hrefused | hnil | hroom
      · exact absurd hrefused hfull
      · rw [hnil, List.append_nil]
        exact holds_printUrl_nil h
      · exact holds_printUrl h (zero_not_mem_printedString ht) (by omega)
    exact ⟨s', .ok, by rw [appendUrlString, if_neg hfull, hs', Option.map_some], .goesOn hholds⟩

/-- In a buffer whose size is an `int` everything ends where an `int` can tell. -/
lemma endsInRange_of_lt {bufferSize : UInt64} (hsize : bufferSize.toNat < 2 ^ 31) :
    ∀ (pieces : List UrlPiece) (i : Nat), i < bufferSize.toNat →
      EndsInRange bufferSize i pieces := by
  intro pieces
  induction pieces with
  | nil => exact fun _ _ => trivial
  | cons p pieces ih =>
      intro i hi hroom
      have hleft : bufferSize.toNat = i + 1 + (bufferSize.toNat - (i + 1)) := by omega
      have hend : p.text.length ≤ bufferSize.toNat - (i + 1) := by
        cases p with
        | run t => exact le_of_hasRunRoom hleft hroom
        | escape c => exact le_of_hasEscapeRoom hleft hroom
      exact ⟨by omega, ih _ (by omega)⟩

/-- The encoder never leaves the buffer without an end. -/
lemma terminated_urlEncodeLoop {n base : Nat} {ok : UInt8 → Bool} {bufferSize : UInt64} :
    ∀ {fuel : Nat} {a a' : CharArray n} {i : Nat} {what : Bytes} {result : Option Nat},
      urlEncodeLoop ok base bufferSize fuel a i what = some (a', result) → a.Terminated →
        a'.Terminated := by
  have hrun : ∀ {a a' : CharArray n} {i j : Nat} {run : Bytes},
      appendRun base a i run = some (a', j) → a'.Terminated := by
    intro a a' i j run h
    simp only [appendRun, Option.bind_eq_bind, Option.bind_eq_some_iff] at h
    obtain ⟨_, -, _, -, _, hwrite, heq⟩ := h
    cases heq
    exact CharArray.terminated_write hwrite (List.mem_singleton_self 0)
  have hescape : ∀ {a a' : CharArray n} {i j : Nat} {c : UInt8},
      appendEscape base a i c = some (a', j) → a'.Terminated := by
    intro a a' i j c h
    simp only [appendEscape, Option.bind_eq_bind, Option.bind_eq_some_iff] at h
    obtain ⟨_, hwrite, _, -, heq⟩ := h
    cases heq
    exact CharArray.terminated_write hwrite (by simp)
  intro fuel
  induction fuel with
  | zero =>
      intro a a' i what result h hended
      cases what with
      | nil => cases h; exact hended
      | cons c what => cases h
  | succ fuel ih =>
      have hrest : ∀ {a a' : CharArray n} {i : Nat} {what : Bytes} {result : Option Nat},
          urlEncodeRest base bufferSize (urlEncodeLoop ok base bufferSize fuel) a i what =
            some (a', result) → a.Terminated → a'.Terminated := by
        intro a a' i what result h hended
        cases what with
        | nil => cases h; exact hended
        | cons c what =>
            rw [urlEncodeRest] at h
            split at h
            · cases h
              exact hended
            · obtain ⟨⟨b, j⟩, hb, hnext⟩ := Option.bind_eq_some_iff.mp h
              exact ih hnext (hescape hb)
      intro a a' i what result h hended
      cases what with
      | nil => cases h; exact hended
      | cons c what =>
          rw [urlEncodeLoop] at h
          · split at h
            · exact hrest h hended
            · split at h
              · cases h
                exact hended
              · obtain ⟨⟨b, j⟩, hb, hnext⟩ := Option.bind_eq_some_iff.mp h
                exact hrest hnext (hrun hb)
          · simp

/-- What is encoded goes behind a front of the buffer, as long as there is a byte behind it. -/
lemma goesOnWith_pbccUrlEncode {front buffer what : Bytes} {pt : Pbtt}
    (hlength : s.httpBufLen = front.length) (hfront : 0 ∉ front)
    (hbytes : s.httpBuf.bytes = front ++ buffer) (hbuffer : buffer ≠ []) :
    ∃ s' rslt, pbccUrlEncode s what pt = some (s', rslt) ∧
      GoesOnWith (front ++ percentEncode (okSpanChars B.urlEncode pt).contains what) s' rslt := by
  have hwhole := s.httpBuf.length_bytes
  have hpos := List.length_pos_iff.mpr hbuffer
  have hlt := B.bufMaxlen_lt
  rw [hbytes, List.length_append] at hwhole
  have hless : sizeofLess B.bufMaxlen s.httpBufLen = buffer.length := by
    rw [sizeofLess_eq hlt (by omega)]
    omega
  have hsize : buffer.length = (UInt64.ofNat buffer.length).toNat := by
    rw [UInt64.toNat_ofNat', Nat.mod_eq_of_lt (by omega)]
  have hone : (1 : UInt64) ≤ UInt64.ofNat buffer.length := by
    rw [UInt64.le_iff_toNat_le, ← hsize, UInt64.toNat_one]
    omega
  obtain ⟨buf, result, heq, stored, hstored, hstoredLength, hresult⟩ :=
    (@urlOutcome_pubnubUrlEncode B.urlEncode pt what _ _ _ buffer [] _
      (hbytes.trans (List.append_nil _).symm) hsize hone).1
      (endsInRange_of_lt (by omega) _ 0 (by omega))
  rw [List.append_nil] at hstored
  rw [pbccUrlEncode, hless, hlength, heq]
  cases result with
  | none =>
      refine ⟨_, _, rfl, .refused ⟨Nat.zero_le _, ?_⟩⟩
      obtain ⟨a, ha, hloop⟩ := Option.bind_eq_some_iff.mp heq
      exact terminated_urlEncodeLoop hloop
        (CharArray.terminated_write ha (List.mem_singleton_self 0))
  | some length =>
      obtain ⟨rfl, cur, hcur⟩ := hresult length rfl
      rw [List.nil_append] at hcur
      refine ⟨_, _, rfl, .goesOn ⟨?_, ?_, cur, ?_⟩⟩
      · rw [List.nil_append, List.length_append]
      · rw [List.mem_append, not_or]
        exact ⟨hfront, not_mem_percentEncode (okSpanChars_zero B.urlEncode pt) what⟩
      · rw [List.drop_zero, hstored, hcur, List.append_assoc]

/-- What is written over the end of the URL without an end of its own, and what is encoded behind it. -/
lemma goesOnWith_write_pbccUrlEncode {what : Bytes} {pt : Pbtt} (h : s.Holds url) (ht : 0 ∉ t)
    (hroom : s.httpBufLen + t.length < B.bufMaxlen) :
    ∃ buf s' rslt, s.httpBuf.write s.httpBufLen t = some buf ∧
      pbccUrlEncode { s with httpBuf := buf, httpBufLen := s.httpBufLen + t.length } what pt =
        some (s', rslt) ∧
      GoesOnWith (url ++ (t ++ percentEncode (okSpanChars B.urlEncode pt).contains what)) s' rslt := by
  obtain ⟨rest, hrest⟩ := h.exists_rest
  have hlength := s.httpBuf.length_bytes
  have hlen := h.1
  rw [hrest, List.length_append] at hlength
  obtain ⟨buf, hbuf, hbytes⟩ := CharArray.exists_write (s := t) hrest (by omega)
  have hfront : 0 ∉ url ++ t := by
    rw [List.mem_append, not_or]
    exact ⟨h.2.1, ht⟩
  have hbehind : (0 :: rest).drop t.length ≠ [] := by
    refine List.ne_nil_of_length_pos ?_
    rw [List.length_drop]
    omega
  obtain ⟨s', rslt, hs', hgoes⟩ := @goesOnWith_pbccUrlEncode _
    { s with httpBuf := buf, httpBufLen := s.httpBufLen + t.length } _ _ what pt
    (by rw [List.length_append, hlen]) hfront hbytes hbehind
  rw [List.append_assoc] at hgoes
  exact ⟨buf, s', rslt, hlen ▸ hbuf, hs', hgoes⟩

/-- The message of a publish goes behind a slash. -/
lemma goesOnWith_appendGetMessage {what : Bytes} (h : s.Holds url)
    (hfits : s.httpBufLen + 1 < B.bufMaxlen) :
    ∃ s' rslt, appendGetMessage s what = some (s', rslt) ∧ GoesOnWith
      (url ++ 47 :: percentEncode (okSpanChars B.urlEncode .none).contains what) s' rslt := by
  obtain ⟨buf, s', rslt, hbuf, hs', hgoes⟩ :=
    @goesOnWith_write_pbccUrlEncode _ _ _ [47] what .none h (by decide) hfits
  refine ⟨s', rslt, ?_, hgoes⟩
  rw [appendGetMessage, hbuf, Option.bind_some]
  exact hs'

lemma paramSeparator_ne (i : Nat) : (0 : UInt8) ≠ paramSeparator i := by
  rw [paramSeparator]
  split
  · decide
  · decide

/-- A parameter is appended if there is room for its name, and its name does not end right at the
    end of the buffer. -/
lemma goesOnWith_pbccAppendUrlParamEncoded {key val : Bytes} {pt : Pbtt} {i : Nat} (h : s.Holds url)
    (hkey : 0 ∉ key) (hfits : s.httpBufLen + key.length + 2 ≠ B.bufMaxlen) :
    ∃ s' rslt, pbccAppendUrlParamEncoded s key val (paramSeparator i) pt = some (s', rslt) ∧
      GoesOnWith (url ++ (paramSeparator i :: key ++
        61 :: percentEncode (okSpanChars B.urlEncode pt).contains val)) s' rslt := by
  by_cases hfull : B.bufMaxlen < s.httpBufLen + 1 + key.length + 1
  · exact ⟨s, _, by rw [pbccAppendUrlParamEncoded, if_pos hfull], .refused h.safe⟩
  · have hname : 0 ∉ paramSeparator i :: key ++ [61] := by
      simp only [List.cons_append, List.mem_cons, List.mem_append, List.not_mem_nil, or_false,
        not_or]
      exact ⟨paramSeparator_ne i, hkey, by decide⟩
    have hlength : (paramSeparator i :: key ++ [61]).length = 1 + key.length + 1 := by
      rw [List.length_append, List.length_cons, List.length_singleton]
      omega
    obtain ⟨buf, s', rslt, hbuf, hs', hgoes⟩ :=
      @goesOnWith_write_pbccUrlEncode _ _ _ _ val pt h hname (by omega)
    refine ⟨s', rslt, ?_, ?_⟩
    · rw [hlength, ← Nat.add_assoc, ← Nat.add_assoc] at hs'
      rw [pbccAppendUrlParamEncoded, if_neg hfull, hbuf, Option.bind_some, hs']
    · rwa [List.append_assoc, List.singleton_append] at hgoes

/-- **One step.**  If it fits, it appends what it should or is refused. -/
lemma goesOnWith_prepStep {step : PrepStep} (h : s.Holds url) (hfits : UrlStepFits s step) :
    ∃ s' rslt, prepStep s step = some (s', rslt) ∧ GoesOnWith (url ++ step.text B) s' rslt := by
  cases step with
  | print t =>
      obtain ⟨s', hs', hholds⟩ := @holds_printUrl _ _ _ _ 0 h t.zero_not_mem hfits
      exact ⟨s', .ok, by rw [prepStep, hs', Option.map_some], .goesOn hholds⟩
  | literal t => exact goesOnWith_appendUrlLiteral h t.zero_not_mem
  | string t n => exact goesOnWith_appendUrlString h t.zero_not_mem hfits
  | encoded what pt =>
      obtain ⟨rest, hrest⟩ := h.exists_rest
      exact goesOnWith_pbccUrlEncode h.1 h.2.1 hrest (List.cons_ne_nil 0 rest)
  | getMessage message => exact goesOnWith_appendGetMessage h hfits
  | param i key val pt => exact goesOnWith_pbccAppendUrlParamEncoded h key.zero_not_mem hfits

/-- **All steps.** -/
lemma goesOnWith_runSteps {steps : List PrepStep} (h : s.Holds url) (hfits : UrlStepsFit s steps) :
    ∃ s' rslt, runSteps s steps = some (s', rslt) ∧
      GoesOnWith (url ++ steps.flatMap (PrepStep.text B)) s' rslt := by
  induction steps generalizing s url with
  | nil => exact ⟨s, .ok, rfl, .goesOn (by rwa [List.flatMap_nil, List.append_nil])⟩
  | cons step steps ih =>
      obtain ⟨s', rslt, hs', hgoes⟩ := goesOnWith_prepStep h hfits.1
      rw [runSteps, hs', Option.bind_some, List.flatMap_cons, ← List.append_assoc]
      rcases hgoes with ⟨rfl, hholds⟩ | ⟨rfl, hsafe⟩
      · exact ih hholds (hfits.2 (s', .ok) hs' rfl)
      · exact ⟨s', _, rfl, .refused hsafe⟩

/-- Where all steps fit, the first ones do. -/
lemma UrlStepsFit.take {steps : List PrepStep} (h : UrlStepsFit s steps) (k : Nat) :
    UrlStepsFit s (steps.take k) := by
  induction steps generalizing s k with
  | nil => rwa [List.take_nil]
  | cons step steps ih =>
      cases k with
      | zero => exact trivial
      | succ k => exact ⟨h.1, fun next hnext hok => ih (h.2 next hnext hok) k⟩

/-! ## The signature and the body -/

/-- The signature is appended to a URL with a question mark, or there is none. -/
lemma signed_pbccSignUrl {signing : Option Signing} (h : s.Holds url)
    (hfits : SigningFits s signing) :
    ∃ s' rslt, pbccSignUrl s signing = some (s', rslt) ∧
      (rslt = .ok ∧ s'.Holds (url ++ signedText signing) ∨
        rslt ≠ .ok ∧ rslt ≠ .started ∧ s'.Holds url ∧ (rslt = .txBuffTooSmall ∨
          signing = some .noMemory ∧ rslt = .internalError ∨
          signing = some .notSupported ∧ rslt = .cryptoNotSupported)) := by
  have hunsigned : url ++ [] = url := List.append_nil url
  cases signing with
  | none => exact ⟨s, .ok, rfl, .inl ⟨rfl, hunsigned.symm ▸ h⟩⟩
  | some signing =>
      cases signing with
      | noMemory =>
          exact ⟨s, _, rfl, .inr ⟨by decide, by decide, h, .inr (.inl ⟨rfl, rfl⟩)⟩⟩
      | notSupported =>
          have hquestion : ¬ 63 ∉ url := not_not.mpr (hfits url h.string)
          refine ⟨s, _, ?_, .inr ⟨by decide, by decide, h, .inr (.inr ⟨rfl, rfl⟩)⟩⟩
          simp only [pbccSignUrl, h.string, Option.bind_some, if_neg hquestion]
      | signature t hlength hquestion' =>
          have hquestion : ¬ 63 ∉ url := not_not.mpr (hfits url h.string)
          have hsign : pbccSignUrl s (some (.signature t hlength hquestion')) =
              pbccAppendUrlParam s (ascii "signature") t.text 38 := by
            simp only [pbccSignUrl, h.string, Option.bind_some, if_neg hquestion]
          rw [hsign]
          by_cases hfull : B.bufMaxlen <
              s.httpBufLen + 1 + (ascii "signature").length + 1 + t.text.length + 1
          · refine ⟨s, _, ?_, .inr ⟨by decide, by decide, h, .inl rfl⟩⟩
            rw [pbccAppendUrlParam, if_pos hfull]
          · have hzero : 0 ∉ 38 :: ascii "signature" ++ 61 :: t.text := by
              rw [List.mem_append, List.mem_cons (b := 61), not_or, not_or]
              exact ⟨by decide, by decide, t.zero_not_mem⟩
            have hcount : (38 :: ascii "signature" ++ 61 :: t.text).length =
                1 + (ascii "signature").length + 1 + t.text.length := by
              rw [List.length_append, List.length_cons, List.length_cons]
              omega
            obtain ⟨buf, hbuf, hholds⟩ := h.exists_write hzero (by omega)
            have hplace := hholds s.messageToSend
            rw [hcount, ← Nat.add_assoc, ← Nat.add_assoc, ← Nat.add_assoc] at hplace
            refine ⟨_, .ok, ?_, .inl ⟨rfl, hplace⟩⟩
            rw [pbccAppendUrlParam, if_neg hfull, hbuf, Option.map_some]

/-- The body leaves the URL as it is, and is behind it if it has not been refused. -/
lemma holds_appendMessageBody {rslt : PubnubRes} {body : Option PrepBody} (h : s.Holds url)
    (hfits : BodyFits s rslt body) :
    ∃ s' bodyRslt, appendMessageBody s rslt body = some (s', bodyRslt) ∧ s'.Holds url ∧
      (bodyRslt = .ok ∨ bodyRslt = .txBuffTooSmall) ∧
      (bodyRslt = .ok → rslt = .ok → ∀ b, body = some b → b.compressed = false →
        ∃ i, s'.messageToSend = some (.httpBuf i) ∧ s'.HasAt i b.message.text) := by
  obtain ⟨rest, hrest⟩ := h.exists_rest
  have hlen := h.1
  have hwhole := s.httpBuf.length_bytes
  rw [hrest, List.length_append, List.length_cons] at hwhole
  obtain ⟨buf, hbuf, hbytes⟩ := CharArray.exists_write (s := [0]) hrest (by simp)
  have hsame : buf.bytes = url ++ 0 :: rest := by
    rw [hbytes, List.length_singleton, List.drop_succ_cons, List.drop_zero, List.append_assoc]
    rfl
  rw [← hlen] at hbuf
  cases body with
  | none => exact ⟨s, .ok, rfl, h, .inl rfl, fun _ _ b hb => by cases hb⟩
  | some body =>
      by_cases hskip : body.checks = true ∧ rslt ≠ .ok
      · refine ⟨s, .ok, by rw [appendMessageBody, if_pos hskip], h, .inl rfl, ?_⟩
        exact fun _ hok => absurd hok hskip.2
      by_cases hfull : body.compressed = false ∧
          sizeofLess B.bufMaxlen (s.httpBufLen + 2) < strnlen body.message.text
      · refine ⟨s, _, by rw [appendMessageBody, if_neg hskip, if_pos hfull], h, .inr rfl, ?_⟩
        exact fun hno => by cases hno
      cases hcompressed : body.compressed with
      | true =>
          refine ⟨{ s with httpBuf := buf, messageToSend := some .message }, .ok, ?_, ?_, .inl rfl,
            ?_⟩
          · rw [appendMessageBody, if_neg hskip, if_neg hfull, hbuf, Option.bind_some,
              if_pos hcompressed]
          · exact ⟨hlen, h.2.1, rest, hsame⟩
          · rintro - - b ⟨⟩ hplain
            rw [hcompressed] at hplain
            cases hplain
      | false =>
          rw [hcompressed] at hfull
          have hroom : s.httpBufLen + 2 + body.message.text.length ≤ B.bufMaxlen := by
            rcases hfits with hfit | hfit | ⟨hle, hlong | hfit⟩
            · exact absurd hfit hskip
            · rw [hcompressed] at hfit
              cases hfit
            · rw [← sizeofLess_eq B.bufMaxlen_lt hle] at hlong
              exact absurd ⟨rfl, hlong⟩ hfull
            · exact hfit
          have hbehind : (body.message.text ++ [0]).length ≤ rest.length := by
            rw [List.length_append, List.length_singleton]
            omega
          have hbuf' : buf.bytes = (url ++ [0]) ++ rest := by
            rw [hsame, List.append_assoc]
            rfl
          obtain ⟨buf', hwrite, hbytes'⟩ := CharArray.exists_write hbuf' hbehind
          have hplace : (url ++ [0]).length = s.httpBufLen + 1 := by
            rw [List.length_append, List.length_singleton, hlen]
          rw [hplace] at hwrite
          refine ⟨⟨buf', s.httpBufLen, some (.httpBuf (s.httpBufLen + 1))⟩, .ok, ?_,
            ⟨hlen, h.2.1, body.message.text ++ [0] ++ rest.drop (body.message.text ++ [0]).length,
              ?_⟩, .inl rfl, ?_⟩
          · rw [appendMessageBody, if_neg hskip, if_neg (hcompressed ▸ hfull), hbuf,
              Option.bind_some, if_neg (by rw [hcompressed]; exact Bool.false_ne_true), hwrite,
              Option.map_some]
          · rw [List.drop_zero, hbytes']
            simp only [List.append_assoc, List.cons_append, List.nil_append]
          · rintro - - b ⟨⟩ -
            refine ⟨s.httpBufLen + 1, rfl, body.message.zero_not_mem,
              rest.drop (body.message.text ++ [0]).length, ?_⟩
            rw [hbytes', List.append_assoc, ← hplace, List.drop_left, List.append_assoc]
            rfl

end Invariant

/-! ## A preparation -/

/-- A preparation whose steps fit comes out as it should. -/
lemma preparedRight_prepareRequest {B : PrepBuild} {s : PrepState B} {p : PrepSteps}
    (h : PrepFits s p) :
    ∃ s' rslt, prepareRequest s p = some (s', rslt) ∧ PreparedRight p s' rslt := by
  obtain ⟨started, hstart, hholds⟩ := holds_startUrl s p.path.zero_not_mem h.path
  obtain ⟨ready, rslt, hrun, hgoes⟩ := goesOnWith_runSteps hholds (h.steps started hstart)
  rcases hgoes with ⟨rfl, hready⟩ | ⟨rfl, hsafe⟩
  · obtain ⟨signed, rslt, hsign, hsigned⟩ :=
      signed_pbccSignUrl hready (h.signing started hstart (ready, .ok) hrun rfl)
    have hfits := h.body started hstart (ready, .ok) hrun rfl (signed, rslt) hsign
    rcases hsigned with ⟨rfl, hwhole⟩ | ⟨hne, hstarted, hwhole, hwhy⟩
    · obtain ⟨s', bodyRslt, hbody, hholds', hor, hmessage⟩ := holds_appendMessageBody hwhole hfits
      refine ⟨s', if bodyRslt ≠ .ok then bodyRslt else .started, ?_, ?_⟩
      · simp only [prepareRequest, hstart, hrun, hsign, hbody, Option.bind_some, Option.map_some, ne_eq,
          not_true_eq_false, if_false]
      · rcases hor with rfl | rfl
        · refine ⟨hholds'.safe, fun _ => ⟨hholds'.2, hholds'.1⟩, ?_, .inl rfl⟩
          exact fun _ b hb hplain => hmessage rfl rfl b hb hplain
        · refine ⟨hholds'.safe, ?_, ?_, .inr (.inl rfl)⟩
          all_goals
            intro hno
            cases hno
    · obtain ⟨s', bodyRslt, hbody, hholds', hor, -⟩ := holds_appendMessageBody hwhole hfits
      refine ⟨s', if bodyRslt ≠ .ok then bodyRslt else rslt, ?_, ?_⟩
      · simp only [prepareRequest, hstart, hrun, hsign, hbody, Option.bind_some, Option.map_some, ne_eq,
          not_true_eq_false, if_false, hne, not_false_eq_true, if_true]
      · rcases hor with rfl | rfl
        · refine ⟨hholds'.safe, ?_, ?_, .inr hwhy⟩
          all_goals
            intro hno
            exact absurd hno hstarted
        · refine ⟨hholds'.safe, ?_, ?_, .inr (.inl rfl)⟩
          all_goals
            intro hno
            cases hno
  · refine ⟨ready, .txBuffTooSmall, ?_, hsafe, ?_, ?_, .inr (.inl rfl)⟩
    · simp [prepareRequest, hstart, hrun]
    all_goals
      intro hno
      cases hno

/-- **The preparations of requests.**  In every preparation whose steps fit, nothing is written
    outside of `http_buf`, its length stays within it, and the URL is ended; the result is
    `PNR_STARTED` only if the whole URL and the whole body are there, and otherwise it is
    `PNR_TX_BUFF_TOO_SMALL`, or what the signing has come out with. -/
theorem preparations_right {B : PrepBuild} (s : PrepState B) (p : PrepSteps) (h : PrepFits s p) :
    StaysSafe s p ∧
      ∃ s' rslt, prepareRequest s p = some (s', rslt) ∧ PreparedRight p s' rslt := by
  obtain ⟨started, hstart, hholds⟩ := holds_startUrl s p.path.zero_not_mem h.path
  refine ⟨⟨started, hstart, hholds.safe, fun k => ?_⟩, preparedRight_prepareRequest h⟩
  obtain ⟨s', rslt, hrun, hgoes⟩ := goesOnWith_runSteps hholds ((h.steps started hstart).take k)
  exact ⟨(s', rslt), hrun, hgoes.safe⟩

/-- The literals of the source. -/
def literalText (s : String) (h : 0 ∉ ascii s) : CText := ⟨ascii s, h⟩

def pnsdkText : CText := literalText "pnsdk" (by decide)

def cCoreText : CText := literalText "c-core" (by decide)

/-- A configuration with a small buffer. -/
def smallBuild : PrepBuild := ⟨everyApi, 1024, by decide⟩

/-- A context before its first preparation. -/
def freshPrep : PrepState smallBuild := ⟨.blank 1024, 0, none⟩

/-- A publish by POST, with a signature. -/
def aPublish : PrepSteps where
  path := literalText "/publish/demo/demo/0/" (by decide)
  steps := [.encoded (literalText "my channel" (by decide)) .none,
    .literal (literalText "/0" (by decide)),
    .param 0 pnsdkText cCoreText .none]
  signing := some (.signature (literalText "v2.abc" (by decide)) (by decide) (by decide))
  body := some ⟨literalText "[1,2]" (by decide), false, true⟩

theorem preparations_right_aPublish :
    StaysSafe freshPrep aPublish ∧
      ∃ s' rslt, prepareRequest freshPrep aPublish = some (s', rslt) ∧
        PreparedRight aPublish s' rslt :=
  preparations_right freshPrep aPublish (by decide +kernel)

/-- A leave from a channel with a long name. -/
def aLongLeave : PrepSteps where
  path := literalText "/v2/presence/sub-key/demo/channel/" (by decide)
  steps := [.encoded ⟨List.replicate 977 97, by decide +kernel⟩ .none,
    .print (literalText "/leave" (by decide)),
    .param 0 pnsdkText cCoreText .none]
  signing := none
  body := none

/-- **There need not be room for the end of a parameter.**  The name and its equals sign end right at
    the end of the buffer, and `pubnub_url_encode` writes a zero behind it before it asks for room. -/
theorem preparations_not_always_right :
    ¬ (StaysSafe freshPrep aLongLeave ∧
      ∃ s' rslt, prepareRequest freshPrep aLongLeave = some (s', rslt) ∧
        PreparedRight aLongLeave s' rslt) := by
  have hnone : prepareRequest freshPrep aLongLeave = none := by decide +kernel
  rintro ⟨-, s', rslt, heq, -⟩
  rw [hnone] at heq
  cases heq

end PubNub
