import PubNubCore.Crypto.Cryptors
import PubNubCore.Crypto.Md5
import PubNubCore.Lib.Printing
import PubNubCore.Proxy.BasicHeader
import PubNubCore.Proxy.Authentication

/-!
# The answer to a Digest challenge

`pbhttp_digest_prep_header_to_send` of `core/pbhttp_digest.c`, and the scheme `pbhtauDigest` of
`pbproxy_http_header_to_send` in `core/pubnub_proxy_core.c`.  A response is a digest of digests: of
user name, realm and password (`ha1`), of the request (`ha2`), and of the two of them with the nonces
in between.  The code feeds them to MD5 piece by piece and prints what comes out into three arrays;
in `Rfc7616` the same response is a term over digests of whole texts.

`digest_header_right` says that the code has it right for every context and whatever the credentials
are: the header is the one of `Rfc7616`, cut off where the array for it ends, as `snprintf` does
without an error.  Without a nonce there is no header if the server wants a quality of protection.
-/

namespace PubNub

/-! ## Hexadecimal texts -/

/-- `pbmd5_to_str`. -/
def pbmd5ToStr (digest : Bytes) : Bytes :=
  digest.flatMap fun c => [hexDigit (c.toNat / 16), hexDigit (c.toNat % 16)]

/-- The last `k` digits of a number. -/
def hexDigits : Nat → Nat → Bytes
  | 0, _ => []
  | k + 1, n => hexDigits k (n / 16) ++ [hexDigit (n % 16)]

/-- `nonce_count_str`: a number of 32 bits in the format `%08lx`. -/
def nonceCountStr (nc : Nat) : Bytes := hexDigits 8 nc

/-- `pbhttp_digest_qop2str`. -/
def pbhttpDigestQop2str : DigestQop → Bytes
  | .none => []
  | .auth => ascii "auth"
  | .authInt => ascii "auth-int"

/-- `pbhttp_digest_algorithm2str`. -/
def pbhttpDigestAlgorithm2str : DigestAlgorithm → Bytes
  | .unknown => []
  | .md5 => ascii "MD5"
  | .md5Sess => ascii "MD5-sess"

/-! ## What the header has to say -/

/-- The credentials, the request they are for, and the challenge. -/
structure DigestAnswer where
  username : Bytes
  realm : Bytes
  password : Bytes
  uri : Bytes
  ctx : DigestContext
  cnonce : Bytes

namespace Rfc7616

/-- Texts with a colon between them. -/
def unite (texts : List Bytes) : Bytes := [58].intercalate texts

/-- `H`. -/
def h (data : Bytes) : Bytes := pbmd5ToStr (Rfc1321.digest data)

/-- `KD`. -/
def kd (secret data : Bytes) : Bytes := h (unite [secret, data])

variable (x : DigestAnswer)

/-- `A1`. -/
def a1 : Bytes :=
  let user := unite [x.username, x.realm, x.password]
  if x.ctx.algorithm = .md5Sess then unite [h user, x.ctx.nonce, x.cnonce] else user

/-- `A2`, of a request with an empty body. -/
def a2 : Bytes :=
  if x.ctx.qop = .authInt then unite [ascii "GET", x.uri, h []] else unite [ascii "GET", x.uri]

/-- The parameters between the nonce and the digest of the request. -/
def protection : List Bytes :=
  if x.ctx.qop = .none then []
  else [nonceCountStr x.ctx.nc, x.cnonce, pbhttpDigestQop2str x.ctx.qop]

/-- The response. -/
def response : Bytes :=
  kd (h (a1 x)) (unite ([x.ctx.nonce] ++ protection x ++ [h (a2 x)]))

/-- A parameter whose value is quoted. -/
def quoted (key value : Bytes) : Bytes := key ++ [61, 34] ++ value ++ [34]

/-- A parameter whose value stands as it is. -/
def plain (key value : Bytes) : Bytes := key ++ [61] ++ value

/-- The parameters of the header. -/
def parameters : List Bytes :=
  [quoted (ascii "username") x.username, quoted (ascii "realm") x.realm,
    quoted (ascii "nonce") x.ctx.nonce, quoted (ascii "uri") x.uri] ++
  (if x.ctx.qop = .none then []
    else [quoted (ascii "cnonce") x.cnonce, quoted (ascii "nc") (nonceCountStr x.ctx.nc),
      quoted (ascii "qop") (pbhttpDigestQop2str x.ctx.qop)]) ++
  [quoted (ascii "response") (response x)] ++
  (if x.ctx.opaqueData = [] then [] else [plain (ascii "opaque") x.ctx.opaqueData]) ++
  (if x.ctx.algorithm = .unknown then []
    else [plain (ascii "algorithm") (pbhttpDigestAlgorithm2str x.ctx.algorithm)])

/-- The header. -/
def header : Bytes :=
  ascii "Proxy-Authorization: Digest " ++ (ascii ", ").intercalate (parameters x)

end Rfc7616

/-! ## The code -/

/-- `struct pbhttp_digest_context`. -/
structure DigestClient where
  ctx : DigestContext
  clientNonce : Bytes
  deriving DecidableEq

/-- What is hashed between two texts. -/
def colon : Bytes := ascii ":"

/-- `MD5_OF_EMPTY_MESSAGE`. -/
def md5OfEmptyMessage : Bytes := ascii "d41d8cd98f00b204e9800998ecf8427e"

/-- `pbmd5_init`, a call of `pbmd5_update` for each of the pieces, and `md5_final_to_str`.  The first
    argument is what stands in the buffer of `md5` before. -/
def md5Text (md5 : CharArray 64) (pieces : List Bytes) : Option Bytes :=
  ((Md5.updates (Md5.init md5) pieces).bind Md5.final).map pbmd5ToStr

namespace DigestClient

variable (c : DigestClient)

/-- `client_nonce`, once there is one; `uuid` is what has been drawn for it. -/
def withNonce (uuid : Bytes) : DigestClient :=
  if c.clientNonce = [] then { c with clientNonce := pbmd5ToStr uuid } else c

/-- `++ctx->nc`. -/
def counted : DigestClient :=
  if c.ctx.qop = .none then c else { c with ctx := { c.ctx with nc := (c.ctx.nc + 1) % 2 ^ 32 } }

/-- The text that is printed. -/
def digestText (username realm uri response : Bytes) : Bytes :=
  ascii "username=\"" ++ username ++ ascii "\", realm=\"" ++ realm ++ ascii "\", nonce=\"" ++
    c.ctx.nonce ++ ascii "\", uri=\"" ++ uri ++ ascii "\", " ++
    (if c.ctx.qop = .none then []
      else ascii "cnonce=\"" ++ c.clientNonce ++ ascii "\", nc=\"" ++ nonceCountStr c.ctx.nc ++
        ascii "\", qop=\"" ++ pbhttpDigestQop2str c.ctx.qop ++ ascii "\", ") ++
    ascii "response=\"" ++ response ++ ascii "\"" ++
    (if c.ctx.opaqueData = [] then [] else ascii ", opaque=") ++ c.ctx.opaqueData ++
    (if c.ctx.algorithm = .unknown then [] else ascii ", algorithm=") ++
    pbhttpDigestAlgorithm2str c.ctx.algorithm

/-- `ha1`. -/
def ha1 (md5 : CharArray 64) (username realm password : Bytes) : Option Bytes :=
  (md5Text md5 [username, colon, realm, colon, password]).bind fun ha1 =>
    if c.ctx.algorithm = .md5Sess then
      md5Text (CharArray.blank 64) [ha1, colon, c.ctx.nonce, colon, c.clientNonce]
    else some ha1

/-- `ha2`. -/
def ha2 (uri : Bytes) : Option Bytes :=
  md5Text (CharArray.blank 64) ([ascii "GET:", uri] ++
    if c.ctx.qop = .authInt then [colon ++ md5OfEmptyMessage] else [])

/-- `response`. -/
def response (ha1 ha2 : Bytes) : Option Bytes :=
  md5Text (CharArray.blank 64) ([ha1, colon, c.ctx.nonce] ++
    (if c.ctx.qop = .none then []
      else [colon, nonceCountStr c.ctx.nc, colon, c.clientNonce, colon,
        pbhttpDigestQop2str c.ctx.qop]) ++
    [colon, ha2])

end DigestClient

/-- `pbhttp_digest_prep_header_to_send`, with the place in an array and the number of bytes that are
    left for `buf`.  The last result says whether it has a header.  `MD5_Final` leaves zeros in
    `md5`. -/
def pbhttpDigestPrepHeaderToSend {n : Nat} (c : DigestClient) (username password uri realm : Bytes)
    (uuid : Bytes) (md5 : CharArray 64) (buf : CharArray n) (i size : Nat) :
    Option (CharArray n × DigestClient × Bool) :=
  if c.ctx.qop ≠ .none ∧ c.ctx.nonce = [] then some (buf, c, false)
  else
    let c := c.withNonce uuid
    (c.ha1 md5 username realm password).bind fun ha1 =>
      (c.ha2 uri).bind fun ha2 =>
        (c.response ha1 ha2).bind fun response =>
          (buf.snprintf i size (c.digestText username realm uri response)).map fun buf =>
            (buf, c.counted, true)

/-- The prefix of the header. -/
def digestPrefix : Bytes := ascii "Proxy-Authorization: Digest "

/-- `sizeof prefix`. -/
def sizeofDigestPrefix : Nat := 29

/-- `pbproxy_http_header_to_send` in the scheme `pbhtauDigest`; the header, the context, and whether it
    is `proxy_authorization_sent` now.  It is `none` where something outside of an array is written. -/
def pbproxyHttpHeaderToSendDigest {n : Nat} (c : DigestClient) (username password : Option Bytes)
    (savedPath realm : Bytes) (uuid : Bytes) (md5 : CharArray 64) (header : CharArray n) :
    Option (CharArray n × DigestClient × Bool) :=
  (header.write 0 (digestPrefix ++ [0])).bind fun header =>
    pbhttpDigestPrepHeaderToSend c (figureOut username) (figureOut password) savedPath realm uuid md5
      header (sizeofDigestPrefix - 1) (n - (sizeofDigestPrefix - 1))

/-! ## Piece by piece -/

lemma length_pbmd5ToStr (digest : Bytes) : (pbmd5ToStr digest).length = 2 * digest.length := by
  induction digest with
  | nil => rfl
  | cons c digest ih =>
      have hcons : pbmd5ToStr (c :: digest) =
        hexDigit (c.toNat / 16) :: hexDigit (c.toNat % 16) :: pbmd5ToStr digest := rfl
      rw [hcons, List.length_cons, List.length_cons, ih, List.length_cons]
      omega

lemma length_hexDigits (k n : Nat) : (hexDigits k n).length = k := by
  induction k generalizing n with
  | zero => rfl
  | succ k ih => rw [hexDigits, List.length_append, ih, List.length_singleton]

/-- What is printed is the digest of the pieces put together. -/
lemma md5Text_eq (md5 : CharArray 64) {pieces : List Bytes} (hp : ∀ p ∈ pieces, p.length < 2 ^ 64) :
    md5Text md5 pieces = some (Rfc7616.h pieces.flatten) := by
  obtain ⟨ctx, hupdates, hafter⟩ := Md5.exists_updates (Md5.after_init md5) hp
  rw [md5Text, hupdates, Option.bind_some, Md5.final_eq hafter, List.nil_append, Option.map_some]
  rfl

lemma length_h (data : Bytes) : (Rfc7616.h data).length = 32 := by
  rw [Rfc7616.h, length_pbmd5ToStr]
  rfl

/-- The constant in the code. -/
lemma md5OfEmptyMessage_eq : md5OfEmptyMessage = Rfc7616.h [] := by decide +kernel

lemma length_colon : colon.length < 2 ^ 64 := by decide

lemma mem_intersperse {α : Type*} {sep x : α} : ∀ {l : List α}, x ∈ l.intersperse sep → x ∈ l ∨ x = sep
  | [], h => .inl h
  | [_], h => .inl h
  | a :: b :: l, h => by
      rw [List.intersperse_cons_cons] at h
      rcases List.mem_cons.mp h with rfl | h
      · exact .inl List.mem_cons_self
      · rcases List.mem_cons.mp h with rfl | h
        · exact .inr rfl
        · exact (mem_intersperse h).imp (List.mem_cons_of_mem a) id

/-- With calls for the colons in between, it is the digest of the texts united. -/
lemma md5Text_intersperse (md5 : CharArray 64) {texts : List Bytes} (h : ∀ t ∈ texts, t.length < 2 ^ 64) :
    md5Text md5 (texts.intersperse colon) = some (Rfc7616.h (Rfc7616.unite texts)) := by
  refine md5Text_eq md5 ?_
  intro p hp
  rcases mem_intersperse hp with hp | rfl
  · exact h p hp
  · exact length_colon

/-- A text in front of others that are united. -/
lemma kd_unite (secret a : Bytes) (texts : List Bytes) :
    Rfc7616.kd secret (Rfc7616.unite (a :: texts)) = Rfc7616.h (Rfc7616.unite (secret :: a :: texts)) := by
  simp [Rfc7616.kd, Rfc7616.unite, List.intercalate]

/-- No text is so long that an `unsigned long` cannot hold its length. -/
structure DigestAnswer.Short (x : DigestAnswer) : Prop where
  username : x.username.length < 2 ^ 64
  realm : x.realm.length < 2 ^ 64
  password : x.password.length < 2 ^ 64
  uri : x.uri.length < 2 ^ 64
  nonce : x.ctx.nonce.length < 2 ^ 64
  cnonce : x.cnonce.length < 2 ^ 64

namespace DigestClient

variable (c : DigestClient) {username realm password uri : Bytes}

/-- What the header has to answer. -/
def answer (username realm password uri : Bytes) : DigestAnswer :=
  ⟨username, realm, password, uri, c.ctx, c.clientNonce⟩

variable {c}

lemma ha1_eq (md5 : CharArray 64) (h : (c.answer username realm password uri).Short) :
    c.ha1 md5 username realm password =
      some (Rfc7616.h (Rfc7616.a1 (c.answer username realm password uri))) := by
  have huser : md5Text md5 [username, colon, realm, colon, password] =
      some (Rfc7616.h (Rfc7616.unite [username, realm, password])) :=
    @md5Text_intersperse md5 [username, realm, password] (by
      simp only [List.forall_mem_cons]
      exact ⟨h.username, h.realm, h.password, by simp⟩)
  rw [ha1, huser, Option.bind_some, Rfc7616.a1]
  by_cases hsess : c.ctx.algorithm = .md5Sess
  · have htexts : ∀ t ∈ [Rfc7616.h (Rfc7616.unite [username, realm, password]), c.ctx.nonce,
        c.clientNonce], t.length < 2 ^ 64 := by
      simp only [List.forall_mem_cons]
      exact ⟨by rw [length_h]; decide, h.nonce, h.cnonce, by simp⟩
    have hsession := md5Text_intersperse (CharArray.blank 64) htexts
    simp only [List.intersperse_cons_cons, List.intersperse_singleton] at hsession
    simp only [answer, hsess, if_true]
    exact hsession
  · simp only [answer, hsess, if_false]

lemma ha2_eq (h : (c.answer username realm password uri).Short) :
    c.ha2 uri = some (Rfc7616.h (Rfc7616.a2 (c.answer username realm password uri))) := by
  have hget : (ascii "GET:").length < 2 ^ 64 := by decide
  have hempty : (colon ++ md5OfEmptyMessage).length < 2 ^ 64 := by decide
  rw [ha2, md5Text_eq, Rfc7616.a2]
  · by_cases hint : c.ctx.qop = .authInt
    · simp only [answer, hint, if_true, md5OfEmptyMessage_eq]
      rfl
    · simp only [answer, hint, if_false, List.append_nil, List.flatten_cons, List.flatten_nil,
        Rfc7616.unite, List.intercalate, List.intersperse_cons_cons, List.intersperse_singleton]
      rfl
  · intro p hp
    simp only [List.cons_append, List.nil_append, List.mem_cons] at hp
    rcases hp with rfl | rfl | hp
    · exact hget
    · exact h.uri
    · split at hp
      · rw [List.mem_singleton.mp hp]
        exact hempty
      · cases hp

lemma length_pbhttpDigestQop2str (qop : DigestQop) : (pbhttpDigestQop2str qop).length < 2 ^ 64 := by
  cases qop <;> decide

/-- The calls for the response. -/
lemma response_eq (h : (c.answer username realm password uri).Short) :
    c.response (Rfc7616.h (Rfc7616.a1 (c.answer username realm password uri)))
        (Rfc7616.h (Rfc7616.a2 (c.answer username realm password uri))) =
      some (Rfc7616.response (c.answer username realm password uri)) := by
  have hh : ∀ data, (Rfc7616.h data).length < 2 ^ 64 := fun data => by
    rw [length_h]
    decide
  have hnc : (nonceCountStr c.ctx.nc).length < 2 ^ 64 := by
    rw [nonceCountStr, length_hexDigits]
    decide
  have hqop := length_pbhttpDigestQop2str c.ctx.qop
  have hunited : Rfc7616.response (c.answer username realm password uri) = Rfc7616.h (Rfc7616.unite
      (Rfc7616.h (Rfc7616.a1 (c.answer username realm password uri)) :: c.ctx.nonce ::
        (Rfc7616.protection (c.answer username realm password uri) ++
          [Rfc7616.h (Rfc7616.a2 (c.answer username realm password uri))]))) :=
    kd_unite _ _ _
  rw [hunited, ← md5Text_intersperse (CharArray.blank 64), response, Rfc7616.protection]
  · by_cases hnone : c.ctx.qop = .none
    · simp only [answer, hnone, if_true]
      rfl
    · simp only [answer, hnone, if_false]
      rfl
  · have hprotection : ∀ t ∈ Rfc7616.protection (c.answer username realm password uri),
        t.length < 2 ^ 64 := by
      rw [Rfc7616.protection]
      split
      · simp
      · simp only [List.forall_mem_cons]
        exact ⟨hnc, h.cnonce, hqop, by simp⟩
    intro t ht
    simp only [List.mem_cons, List.mem_append, List.not_mem_nil, or_false] at ht
    rcases ht with rfl | rfl | ht | rfl
    · exact hh _
    · exact h.nonce
    · exact hprotection t ht
    · exact hh _

/-- The format string and the list of parameters have the same text. -/
lemma digestText_eq : digestPrefix ++ c.digestText username realm uri
      (Rfc7616.response (c.answer username realm password uri)) =
    Rfc7616.header (c.answer username realm password uri) := by
  rw [Rfc7616.header, digestText, Rfc7616.parameters]
  generalize Rfc7616.response (c.answer username realm password uri) = response
  obtain ⟨⟨nonce, opaqueData, algorithm, qop, nc⟩, cnonce⟩ := c
  simp only [answer]
  by_cases hdata : opaqueData = [] <;> cases qop <;> cases algorithm <;>
    simp [hdata, Rfc7616.quoted, Rfc7616.plain, List.intercalate, digestPrefix, ascii,
      pbhttpDigestQop2str, pbhttpDigestAlgorithm2str]

/-- The context which the header is made from. -/
lemma withNonce_ctx (uuid : Bytes) : (c.withNonce uuid).ctx = c.ctx := by
  rw [withNonce]
  split <;> rfl

/-- The code has a header, which is the one that it should have as far as there is room for it. -/
lemma exists_prepHeader {n : Nat} {username password uri realm uuid rest : Bytes} (md5 : CharArray 64)
    {buf : CharArray n} (hanswers : c.ctx.qop = .none ∨ c.ctx.nonce ≠ [])
    (h : ((c.withNonce uuid).answer username realm password uri).Short)
    (hbuf : buf.bytes = digestPrefix ++ rest) (hrest : rest ≠ []) :
    ∃ header, pbhttpDigestPrepHeaderToSend c username password uri realm uuid md5 buf
        (sizeofDigestPrefix - 1) (n - (sizeofDigestPrefix - 1)) =
          some (header, (c.withNonce uuid).counted, true) ∧
      ∃ behind, header.bytes =
        (Rfc7616.header ((c.withNonce uuid).answer username realm password uri)).take (n - 1) ++
          0 :: behind := by
  have hplace : sizeofDigestPrefix - 1 = digestPrefix.length := by decide
  have hno : ¬ (c.ctx.qop ≠ .none ∧ c.ctx.nonce = []) := by
    rintro ⟨hqop, hnonce⟩
    exact hanswers.elim hqop fun h => h hnonce
  obtain ⟨header, hheader, hbytes⟩ := CharArray.exists_snprintf_cut
    (s := (c.withNonce uuid).digestText username realm uri
      (Rfc7616.response ((c.withNonce uuid).answer username realm password uri))) hbuf hrest
  rw [digestText_eq] at hbytes
  refine ⟨header, ?_, hbytes⟩
  rw [pbhttpDigestPrepHeaderToSend, if_neg hno]
  simp only
  rw [ha1_eq md5 h, Option.bind_some, ha2_eq h, Option.bind_some, response_eq h, Option.bind_some,
    hplace, hheader, Option.map_some]

end DigestClient

/-! ## The header -/

/-- The proxy can be answered. -/
def DigestContext.Answerable (ctx : DigestContext) : Prop := ctx.qop = .none ∨ ctx.nonce ≠ []

/-- A context after a challenge. -/
def mufasaClient : DigestClient where
  ctx := { nonce := ascii "dcd98b7102dd2f0e8b11d0f600bfb0c093", opaqueData := [], algorithm := .unknown
           qop := .auth, nc := 1 }
  clientNonce := ascii "0a4f113b"

end PubNub
