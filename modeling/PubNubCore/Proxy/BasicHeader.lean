import PubNubCore.Crypto.Base64RoundTrip

/-!
# The header with user name and password

`pbproxy_http_header_to_send` of `core/pubnub_proxy_core.c` in the scheme Basic.  User name and
password are put together in `response`, a buffer of 128 bytes on the stack, and what is encoded is
as long as `snprintf` wanted the text to be.  The room that the encoder is told of is one byte less
than there is, since the NUL of the prefix counts as a part of it and is written over.

`pbproxyHttpHeaderToSend_right_iff` has the exact bound: the credentials have to be shorter than the
buffer, or the header too short for the encoder.
-/

namespace PubNub

/-- `figure_out_username` and `figure_out_password`. -/
def figureOut (given : Option Bytes) : Bytes := given.getD []

/-- What is to be encoded. -/
def basicCredentials (username password : Option Bytes) : Bytes :=
  figureOut username ++ ascii ":" ++ figureOut password

/-- What `snprintf` returns, as a `size_t`.  It returns -1 if the length is no `int`. -/
def snprintfResult (wanted : Nat) : Nat := if wanted < 2 ^ 31 then wanted else 2 ^ 64 - 1

/-- The prefix of the header. -/
def basicPrefix : Bytes := ascii "Proxy-Authorization: Basic "

/-- `sizeof prefix`. -/
def sizeofBasicPrefix : Nat := 28

/-- `response`, after `snprintf`. -/
def basicResponse (response : CharArray 128) (text : Bytes) : Option (CharArray 128) :=
  response.write 0 (text.take 127 ++ [0])

/-- `pbbase64_encode_std` of the first bytes of a block. -/
def pbbase64EncodeStd {m k : Nat} (block : CharArray k) (size : Nat) (header : CharArray m)
    (s n : Nat) : Option (CharArray m × Option Nat) :=
  if n < pbbase64CharArraySizeForEncoding size then some (header, none)
  else if size ≤ k then pbbase64Encode rfc3548Options (block.bytes.take size) header s n
  else none

/-- `pbproxy_http_header_to_send` in the scheme `pbhtauBasic`; the header, and whether it is
    `proxy_authorization_sent` now.  It is `none` where an assertion fails, and where something
    outside of a buffer is read or written. -/
def pbproxyHttpHeaderToSendBasic {n : Nat} (assertsOn : Bool) (username password : Option Bytes)
    (response : CharArray 128) (header : CharArray n) : Option (CharArray n × Bool) :=
  if assertsOn = true ∧ n ≤ sizeofBasicPrefix then none
  else
    (header.write 0 (basicPrefix ++ [0])).bind fun header =>
      (basicResponse response (basicCredentials username password)).bind fun response =>
        (pbbase64EncodeStd response
          (snprintfResult (basicCredentials username password).length) header
          (sizeofBasicPrefix - 1) (n - sizeofBasicPrefix)).map fun (header, length) =>
            (header, length.isSome)

/-- A call is as it should be: it has an error, or the header for the credentials is there. -/
def SendsCredentials {n : Nat} (username password : Option Bytes)
    (outcome : Option (CharArray n × Bool)) : Prop :=
  ∃ header sent, outcome = some (header, sent) ∧ (sent = true → ∃ rest, header.bytes =
    basicPrefix ++ encodedText rfc3548Options (basicCredentials username password) ++ 0 :: rest)

/-- The room that is left for the text, and what is asked for. -/
def BasicHeaderClear (assertsOn : Bool) (n length : Nat) : Prop :=
  sizeofBasicPrefix ≤ n ∧ (assertsOn = true → sizeofBasicPrefix < n) ∧
    (length < 128 ∨
      n - sizeofBasicPrefix < pbbase64CharArraySizeForEncoding (snprintfResult length))

/-! ## The text tells the bytes -/

lemma wellFormed_rfc3548Options : rfc3548Options.WellFormed := by decide +kernel

/-- Different bytes have different texts: the decoder has both of them back. -/
lemma encodedText_injective {s t : Bytes}
    (h : encodedText rfc3548Options s = encodedText rfc3548Options t) : s = t := by
  obtain ⟨m, hm⟩ : ∃ m, m = s.length + t.length := ⟨_, rfl⟩
  have hback : ∀ u : Bytes, u.length ≤ m → Returns (m := m) [] u
      (pbbase64DecodeLoop rfc3548Options false (encodedText rfc3548Options u).length
        (CharArray.blank m) ([] : Bytes).length (encodedText rfc3548Options u).length
        (encodedText rfc3548Options u ++ [0])) := by
    intro u hu
    have hroom : ([] : Bytes).length + m = m := Nat.zero_add m
    refine (returns_encodedText wellFormed_rfc3548Options u rfl hroom (Nat.le_refl _)).mpr ⟨hu, ?_⟩
    rintro ⟨hsep, -⟩
    exact absurd hsep (by decide)
  obtain ⟨a, ha, hs⟩ := hback s (by omega)
  obtain ⟨b, hb, ht⟩ := hback t (by omega)
  rw [h, hb] at ha
  injection ha with hpair
  injection hpair with hab hrest
  injection hrest with _ hlength
  calc s = a.bytes.take s.length := hs.symm
    _ = b.bytes.take t.length := by rw [hab, ← List.nil_append s, ← hlength, List.nil_append]
    _ = t := ht

/-! ## When the header is right -/

section Header

variable {n : Nat} {username password : Option Bytes} {header : CharArray n}

/-- The header after the prefix. -/
lemma write_basicPrefix (header : CharArray n) (hn : sizeofBasicPrefix ≤ n) :
    ∃ (a : CharArray n) (rest : Bytes), header.write 0 (basicPrefix ++ [0]) = some a ∧
      a.bytes = basicPrefix ++ rest ∧ rest.length = n - 27 := by
  have hwhole : header.bytes = [] ++ header.bytes := rfl
  have hlength : (basicPrefix ++ [0]).length = sizeofBasicPrefix := by decide
  obtain ⟨a, ha, hbytes⟩ := CharArray.exists_write hwhole (s := basicPrefix ++ [0]) (by
    rw [header.length_bytes, hlength]
    exact hn)
  refine ⟨a, [0] ++ header.bytes.drop (basicPrefix ++ [0]).length, ha, ?_, ?_⟩
  · rw [hbytes, List.nil_append, List.append_assoc]
  · rw [List.length_append, List.length_drop, header.length_bytes, hlength, sizeofBasicPrefix]
    rw [sizeofBasicPrefix] at hn
    change 1 + (n - 28) = n - 27
    omega

/-- What the encoder puts behind the prefix. -/
lemma pbbase64Encode_behind {a : CharArray n} (data : Bytes) {rest : Bytes}
    (ha : a.bytes = basicPrefix ++ rest) (hrest : rest.length = n - 27)
    (hdata : data.length ≤ 128)
    (hroom : ¬ n - sizeofBasicPrefix < pbbase64CharArraySizeForEncoding data.length) :
    ∃ b behind k, pbbase64Encode rfc3548Options data a (sizeofBasicPrefix - 1)
      (n - sizeofBasicPrefix) = some (b, some k) ∧
      b.bytes = basicPrefix ++ encodedText rfc3548Options data ++ 0 :: behind := by
  have hshort : data.length + 2 < 3 * 2 ^ 62 := by omega
  have hsize := textLength_lt (o := rfc3548Options) hshort
  have hplace : basicPrefix.length = sizeofBasicPrefix - 1 := by decide
  obtain ⟨b, hb, hbytes⟩ := CharArray.exists_write ha
    (s := encodedText rfc3548Options data ++ [0]) (by
      rw [List.length_append, List.length_singleton, length_encodedText, hrest]
      rw [sizeofBasicPrefix] at hroom
      omega)
  rw [hplace] at hb
  refine ⟨b, rest.drop (encodedText rfc3548Options data ++ [0]).length,
    (encodedText rfc3548Options data).length, ?_, ?_⟩
  · rw [pbbase64Encode, if_neg hroom, hb, Option.map_some]
  · rw [hbytes]
    simp only [List.append_assoc, List.cons_append, List.nil_append]

/-- What stands in the buffer then. -/
lemma exists_basicResponse (response : CharArray 128) (text : Bytes) : ∃ a rest,
    basicResponse response text = some a ∧ a.bytes = text.take 127 ++ 0 :: rest := by
  have hwhole : response.bytes = [] ++ response.bytes := rfl
  obtain ⟨a, ha, hbytes⟩ := CharArray.exists_write hwhole (s := text.take 127 ++ [0]) (by
    rw [response.length_bytes, List.length_append, List.length_take, List.length_singleton]
    omega)
  refine ⟨a, response.bytes.drop (text.take 127 ++ [0]).length, ha, ?_⟩
  rw [hbytes, List.nil_append, List.append_assoc]
  rfl

/-- Of 128 characters the last one is missing, and the NUL is encoded for it. -/
lemma ne_of_cut {text rest : Bytes} (hnul : 0 ∉ text) : text.take 127 ++ 0 :: rest ≠ text := by
  intro heq
  refine hnul ?_
  rw [← heq]
  exact List.mem_append_right _ List.mem_cons_self

/-- The encoder is called with the credentials, or with something else if they are too long. -/
lemma sendsCredentials_encode {a : CharArray n} {response : CharArray 128} {rest behind : Bytes}
    (ha : a.bytes = basicPrefix ++ rest) (hrest : rest.length = n - 27)
    (hresponse : response.bytes = (basicCredentials username password).take 127 ++ 0 :: behind)
    (hnul : 0 ∉ basicCredentials username password) :
    SendsCredentials username password ((pbbase64EncodeStd response
        (snprintfResult (basicCredentials username password).length) a
        (sizeofBasicPrefix - 1) (n - sizeofBasicPrefix)).map fun (header, length) =>
          (header, length.isSome)) ↔
      (basicCredentials username password).length < 128 ∨ n - sizeofBasicPrefix <
        pbbase64CharArraySizeForEncoding
          (snprintfResult (basicCredentials username password).length) := by
  rw [SendsCredentials]
  generalize basicCredentials username password = text at hresponse hnul ⊢
  rw [pbbase64EncodeStd]
  split
  · rename_i hlt
    refine iff_of_true ⟨a, false, rfl, ?_⟩ (.inr hlt)
    intro hsent
    cases hsent
  · rename_i hroom
    rw [or_iff_left hroom]
    split
    · rename_i hsize
      -- what is encoded has the length of the credentials
      have hlength : snprintfResult text.length = text.length := by
        rw [snprintfResult] at hsize ⊢
        split at hsize
        · rename_i hint
          rw [if_pos hint]
        · omega
      rw [hlength] at hsize hroom ⊢
      have hdata : (response.bytes.take text.length).length = text.length := by
        rw [List.length_take, response.length_bytes]
        omega
      obtain ⟨b, more, k, hb, hbytes⟩ := pbbase64Encode_behind
        (response.bytes.take text.length) ha hrest (by omega) (by rwa [hdata])
      rw [hb, Option.map_some]
      constructor
      · rintro ⟨header, sent, heq, hright⟩
        cases heq
        obtain ⟨others, hothers⟩ := hright rfl
        rw [hbytes, List.append_assoc, List.append_assoc] at hothers
        have hsame := List.append_inj_left (List.append_cancel_left hothers)
          (by rw [length_encodedText, length_encodedText, hdata])
        have htext := encodedText_injective hsame
        by_contra hlong
        have h128 : text.length = 128 := by omega
        have hwhole : response.bytes.take text.length = response.bytes := by
          rw [h128]
          exact List.take_of_length_le (Nat.le_of_eq response.length_bytes)
        rw [hwhole, hresponse] at htext
        exact ne_of_cut hnul htext
      · intro hshort
        have htext : response.bytes.take text.length = text := by
          have hfits : text.take 127 = text := List.take_of_length_le (by omega)
          rw [hresponse, hfits, List.take_left]
        rw [htext] at hbytes
        exact ⟨b, true, rfl, fun _ => ⟨more, hbytes⟩⟩
    · rename_i hsize
      refine iff_of_false ?_ fun hshort => ?_
      · rintro ⟨header, sent, heq, -⟩
        cases heq
      · rw [snprintfResult, if_pos (by omega)] at hsize
        omega

/-- **The credentials.**  The header is right if and only if there is room for the prefix, and the
    credentials are shorter than the buffer they go through or the encoder has no room for them. -/
theorem pbproxyHttpHeaderToSend_right_iff (assertsOn : Bool) (username password : Option Bytes)
    (response : CharArray 128) {n : Nat} (header : CharArray n)
    (hnul : 0 ∉ basicCredentials username password) :
    SendsCredentials username password
        (pbproxyHttpHeaderToSendBasic assertsOn username password response header) ↔
      BasicHeaderClear assertsOn n (basicCredentials username password).length := by
  rw [pbproxyHttpHeaderToSendBasic, BasicHeaderClear]
  have hnone : ¬ SendsCredentials (n := n) username password none := by
    rintro ⟨header, sent, heq, -⟩
    cases heq
  split
  · rename_i hassert
    exact iff_of_false hnone fun h => absurd (h.2.1 hassert.1) (Nat.not_lt.mpr hassert.2)
  · rename_i hassert
    have hmore : assertsOn = true → sizeofBasicPrefix < n := fun hon =>
      Nat.not_le.mp fun hle => hassert ⟨hon, hle⟩
    by_cases hn : sizeofBasicPrefix ≤ n
    · obtain ⟨a, rest, ha, hbytes, hrest⟩ := write_basicPrefix header hn
      obtain ⟨b, behind, hb, hresponse⟩ :=
        exists_basicResponse response (basicCredentials username password)
      rw [ha, Option.bind_some, hb, Option.bind_some,
        sendsCredentials_encode hbytes hrest hresponse hnul, and_iff_right hn,
        and_iff_right hmore]
    · have hwrite : header.write 0 (basicPrefix ++ [0]) = none := by
        rw [CharArray.write, dif_neg]
        exact hn
      rw [hwrite, Option.bind_none]
      exact iff_of_false hnone fun h => hn h.1

theorem pbproxyHttpHeaderToSend_right_iff_guest :
    SendsCredentials (some (ascii "guest")) none
      (pbproxyHttpHeaderToSendBasic true (some (ascii "guest")) none (CharArray.blank 128)
        (CharArray.blank 1022)) :=
  (pbproxyHttpHeaderToSend_right_iff true (some (ascii "guest")) none (CharArray.blank 128)
    (CharArray.blank 1022) (by decide)).mpr
    ⟨by decide, fun _ => by decide, .inl (by decide)⟩

/-- A password of 128 characters, and a header as the caller has it: one byte is read from behind
    the buffer. -/
theorem pbproxyHttpHeaderToSend_not_always_right :
    ¬ SendsCredentials none (some (List.replicate 128 120))
      (pbproxyHttpHeaderToSendBasic true none (some (List.replicate 128 120))
        (CharArray.blank 128) (CharArray.blank 1022)) := by
  have hnone : pbproxyHttpHeaderToSendBasic true none (some (List.replicate 128 120))
      (CharArray.blank 128) (CharArray.blank 1022) = none := by decide +kernel
  rw [hnone]
  rintro ⟨header, sent, heq, -⟩
  cases heq

end Header

end PubNub
