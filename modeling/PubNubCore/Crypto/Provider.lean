import PubNubCore.Crypto.Cryptors

/-!
# The crypto module

`provider_encrypt` and `provider_decrypt` of `pubnub_crypto.c`.  A module has a default algorithm,
which encrypts, and a list of others; the header says by which one a block is to be decrypted,
and a block without a header is for the legacy cryptor.

* **`provider_round_trip_iff`** — for a default algorithm that inverts its own encryption, and
  metadata which a header can describe, a message comes back when the metadata has less than 255
  bytes.  A legacy default algorithm has no header: there the encrypted data must not be empty,
  and must not look like a header.
* `provider_round_trip_not_always` — 255 bytes of metadata: the header says that they are 267.
-/

namespace PubNub

/-- `struct crypto_module`. -/
structure CryptoModule where
  defaultAlgorithm : Cryptor
  algorithms : List Cryptor

/-- `provider_encrypt`; `fresh` is what the allocated memory holds, `iv` what the algorithm draws
    at random. -/
def providerEncrypt (b : CryptoBuild) (o : Openssl) (fresh : Nat → UInt8) (iv : Bytes)
    (m : CryptoModule) (toEncrypt : Bytes) : Checked (Option Bytes) :=
  match m.defaultAlgorithm.encrypt b o iv toEncrypt with
  | none => .ok none
  | some encrypted => do
      let header := pbccPrepareCryptorHeaderV1 m.defaultAlgorithm.identifier encrypted.metadata
      let headerSize := pbccCryptorHeaderV1Size (some header)
      let wholeSize := headerSize + encrypted.data.length
      let result := match pbccCryptorHeaderV1ToAllocBlock fresh (some header) with
        | some headerBlock => overwrite wholeSize (malloc fresh wholeSize) 0 headerBlock
        | none => malloc fresh wholeSize
      let result ←
        if encrypted.metadata = [] then pure result
        else do
          let i ← Checked.sub headerSize encrypted.metadata.length
          pure (overwrite wholeSize result i encrypted.metadata)
      return some (overwrite wholeSize result headerSize encrypted.data)

/-- The algorithm with an identifier: the default one, or the first of the list. -/
def CryptoModule.find (m : CryptoModule) (identifier : CryptorIdentifier) : Option Cryptor :=
  if m.defaultAlgorithm.identifier = identifier then some m.defaultAlgorithm
  else m.algorithms.find? fun c => c.identifier = identifier

/-- `cryptor_with_identifier`. -/
def cryptorWithIdentifier (m : CryptoModule) (header : Option CryptorHeaderV1) : Option Cryptor :=
  m.find (header.elim legacyCryptoIdentifier (·.identifier))

/-- `provider_decrypt` behind the choice of the algorithm: the windows of the data and of the
    metadata, which must be parts of the block. -/
def decryptWith (b : CryptoBuild) (o : Openssl) (toDecrypt : Bytes)
    (header : Option CryptorHeaderV1) (algorithm : Cryptor) : Checked (Option Bytes) := do
  let headerSize := pbccCryptorHeaderV1Size header
  let dataLength := header.elim 0 (·.dataLength)
  let offset ← if headerSize ≠ 0 then Checked.sub headerSize dataLength else pure 0
  let size ← Checked.sub toDecrypt.length headerSize
  let metadata : Option Window := header.map fun h => ⟨offset, h.dataLength⟩
  Checked.require (∀ w ∈ metadata, w.Within toDecrypt.length)
  algorithm.decrypt b o toDecrypt ⟨headerSize, size⟩ metadata

/-- `provider_decrypt`. -/
def providerDecrypt (b : CryptoBuild) (o : Openssl) (m : CryptoModule) (toDecrypt : Bytes) :
    Checked (Option Bytes) :=
  if toDecrypt = [] then .ok none
  else do
    let header ← pbccCryptorHeaderV1FromBlock toDecrypt
    match cryptorWithIdentifier m header with
    | none => return none
    | some algorithm => decryptWith b o toDecrypt header algorithm

/-! ## What is promised -/

/-- What `decrypt` makes of the encrypted data is the message, wherever in a block they stand;
    empty metadata may have a pointer or none. -/
def Cryptor.Inverts (b : CryptoBuild) (o : Openssl) (c : Cryptor) (e : EncryptedData)
    (plain : Bytes) : Prop :=
  ∀ (block : Bytes) (data : Window) (metadata : Option Window),
    data.Within block.length → (∀ w ∈ metadata, w.Within block.length) →
    data.contents block = e.data → (metadata.map (·.contents block)).getD [] = e.metadata →
      c.decrypt b o block data metadata = .ok (some plain)

/-- Metadata which a header can describe: the length has two bytes, and the legacy cryptor has no
    header. -/
def Describable (identifier : CryptorIdentifier) (metadata : Bytes) : Prop :=
  metadata.length < 2 ^ 16 ∧ (identifier = legacyCryptoIdentifier → metadata = [])

/-- What is promised of a message that was encrypted to `e`. -/
structure RoundTrip (b : CryptoBuild) (o : Openssl) (fresh : Nat → UInt8) (iv : Bytes)
    (m : CryptoModule) (plain : Bytes) (e : EncryptedData) : Prop where
  decrypted : ∃ block, providerEncrypt b o fresh iv m plain = .ok (some block) ∧
    providerDecrypt b o m block = .ok (some plain)
  header : ∀ block,
    pbccCryptorHeaderV1ToAllocBlock fresh
        (some (pbccPrepareCryptorHeaderV1 m.defaultAlgorithm.identifier e.metadata)) = some block →
      pbccCryptorHeaderV1FromBlock block =
        .ok (some ⟨m.defaultAlgorithm.identifier, e.metadata.length⟩)
  headerless : m.defaultAlgorithm.identifier = legacyCryptoIdentifier →
    ∀ block, providerEncrypt b o fresh iv m plain = .ok (some block) → ¬ HasHeader block
  dispatched : ∀ block, block ≠ [] → ¬ HasHeader block →
    providerDecrypt b o m block =
      match m.find legacyCryptoIdentifier with
      | none => .ok none
      | some c => c.decrypt b o block ⟨0, block.length⟩ none

/-- The condition: a header describes less than 255 bytes of metadata, and what has no header does
    not look as if it had one. -/
def Recognizable (identifier : CryptorIdentifier) (e : EncryptedData) : Prop :=
  if identifier = legacyCryptoIdentifier then e.data ≠ [] ∧ ¬ HasHeader e.data
  else e.metadata.length < 255

instance (identifier : CryptorIdentifier) (e : EncryptedData) :
    Decidable (Recognizable identifier e) :=
  inferInstanceAs (Decidable (if identifier = legacyCryptoIdentifier then _ else _))

section

variable {b : CryptoBuild} {o : Openssl} {fresh : Nat → UInt8} {iv : Bytes} {m : CryptoModule}
  {plain : Bytes} {e : EncryptedData}

/-! ## What is written -/

/-- Three parts written into a block, the second one over the end of the first. -/
lemma overwrite_three {n : Nat} {mem a x y z : Bytes} (hm : mem.length = n)
    (hx : x.length = y.length) (hn : a.length + y.length + z.length = n) :
    overwrite n (overwrite n (overwrite n mem 0 (a ++ x)) a.length y) (a.length + y.length) z =
      a ++ y ++ z := by
  have h1 := length_overwrite hm 0 (a ++ x)
  have h2 := length_overwrite h1 a.length y
  have htail : (overwrite n (overwrite n (overwrite n mem 0 (a ++ x)) a.length y)
      (a.length + y.length) z).drop (a.length + y.length) = z := by
    rw [drop_overwrite h2 (by omega), List.drop_eq_nil_of_le (by omega), List.append_nil]
  have hmiddle : ((overwrite n (overwrite n mem 0 (a ++ x)) a.length y).drop a.length).take
      y.length = y := by
    rw [drop_overwrite h1 (by omega), List.take_left]
  have hfront : (overwrite n mem 0 (a ++ x)).take a.length = a := by
    have hfit : 0 + (a ++ x).length ≤ n := by simp; omega
    have := drop_overwrite hm hfit
    rw [List.drop_zero] at this
    rw [this, List.append_assoc, List.take_left]
  calc overwrite n (overwrite n (overwrite n mem 0 (a ++ x)) a.length y) (a.length + y.length) z
      = (overwrite n (overwrite n (overwrite n mem 0 (a ++ x)) a.length y)
          (a.length + y.length) z).take (a.length + y.length) ++ z := by
        conv_lhs => rw [← List.take_append_drop (a.length + y.length) (overwrite _ _ _ _), htail]
    _ = (overwrite n (overwrite n mem 0 (a ++ x)) a.length y).take (a.length + y.length) ++ z := by
        rw [take_overwrite h2 (by omega)]
    _ = a ++ y ++ z := by
        rw [List.take_add, take_overwrite h1 (by omega), hfront, hmiddle]

variable (fresh) in
/-- A block with a header: the header, the metadata and the data, one behind the other. -/
lemma providerEncrypt_of_header (henc : m.defaultAlgorithm.encrypt b o iv plain = some e)
    (hid : m.defaultAlgorithm.identifier ≠ legacyCryptoIdentifier)
    (hlen : e.metadata.length < 2 ^ 16) :
    providerEncrypt b o fresh iv m plain =
      .ok (some ((CryptorHeaderV1.mk m.defaultAlgorithm.identifier e.metadata.length).written ++
        e.metadata ++ e.data)) := by
  have hheader : pbccPrepareCryptorHeaderV1 m.defaultAlgorithm.identifier e.metadata =
      ⟨m.defaultAlgorithm.identifier, e.metadata.length⟩ := by
    rw [pbccPrepareCryptorHeaderV1, Nat.mod_eq_of_lt (by omega)]
  generalize hh : CryptorHeaderV1.mk m.defaultAlgorithm.identifier e.metadata.length = h at hheader
  have hid' : h.identifier ≠ legacyCryptoIdentifier := hh ▸ hid
  have hdata : h.dataLength = e.metadata.length := hh ▸ rfl
  have hsub : Checked.sub (h.written.length + e.metadata.length) e.metadata.length =
      .ok h.written.length := by
    rw [Checked.sub, if_pos (Nat.le_add_left _ _), Nat.add_sub_cancel]
  simp only [providerEncrypt, henc, hheader, toAllocBlock_eq fresh hid', headerSize_eq hid', hdata,
    hsub]
  rw [← overwrite_three (length_malloc fresh (h.written.length + e.metadata.length + e.data.length))
    (x := (malloc fresh (h.written.length + e.metadata.length)).drop h.written.length) (by simp)
    rfl]
  split
  · next hnil => simp [hnil, overwrite, bind, Except.bind, pure, Except.pure]
  · rfl

variable (fresh) in
/-- A block without a header is the data. -/
lemma providerEncrypt_of_legacy (henc : m.defaultAlgorithm.encrypt b o iv plain = some e)
    (hid : m.defaultAlgorithm.identifier = legacyCryptoIdentifier) (hmeta : e.metadata = []) :
    providerEncrypt b o fresh iv m plain = .ok (some e.data) := by
  have hsize : pbccCryptorHeaderV1Size
      (some (pbccPrepareCryptorHeaderV1 m.defaultAlgorithm.identifier e.metadata)) = 0 := by
    rw [pbccCryptorHeaderV1Size, if_pos (by exact hid)]
  have hblock : pbccCryptorHeaderV1ToAllocBlock fresh
      (some (pbccPrepareCryptorHeaderV1 m.defaultAlgorithm.identifier e.metadata)) = none := by
    rw [pbccCryptorHeaderV1ToAllocBlock, if_pos (by exact hid)]
  simp only [providerEncrypt, henc, hsize, hblock, if_pos hmeta, pure_bind, Nat.zero_add]
  simp [overwrite, pure, Except.pure]

/-! ## What is read -/

lemma find_default (m : CryptoModule) :
    m.find m.defaultAlgorithm.identifier = some m.defaultAlgorithm := by
  rw [CryptoModule.find, if_pos rfl]

/-- **Data without a header** go to the legacy cryptor, whole and without metadata. -/
lemma providerDecrypt_of_not_hasHeader {block : Bytes} (hne : block ≠ [])
    (hheader : ¬ HasHeader block) :
    providerDecrypt b o m block =
      match m.find legacyCryptoIdentifier with
      | none => .ok none
      | some c => c.decrypt b o block ⟨0, block.length⟩ none := by
  rw [providerDecrypt, if_neg hne, fromBlock_of_not_hasHeader hheader]
  show (match m.find legacyCryptoIdentifier with
    | none => pure none
    | some algorithm => decryptWith b o block none algorithm) = _
  cases m.find legacyCryptoIdentifier with
  | none => rfl
  | some c => simp [decryptWith, pbccCryptorHeaderV1Size, Checked.sub, Checked.require, bind,
      Except.bind, pure, Except.pure]

/-- A block with a header: the algorithm is handed the windows of its parts. -/
lemma providerDecrypt_of_header {h : CryptorHeaderV1} {metadata data : Bytes} {c : Cryptor}
    (hid : h.identifier ≠ legacyCryptoIdentifier) (hlen : h.dataLength < 255)
    (hmeta : metadata.length = h.dataLength) (hfind : m.find h.identifier = some c) :
    providerDecrypt b o m (h.written ++ metadata ++ data) =
      c.decrypt b o (h.written ++ metadata ++ data)
        ⟨h.written.length + metadata.length, data.length⟩
        (some ⟨h.written.length, metadata.length⟩) := by
  have hread : pbccCryptorHeaderV1FromBlock (h.written ++ metadata ++ data) = .ok (some h) := by
    rw [List.append_assoc]
    exact (fromBlock_written_iff hid (metadata ++ data)).mpr hlen
  have hne : h.written ++ metadata ++ data ≠ [] := by
    simp [CryptorHeaderV1.written]
  rw [providerDecrypt, if_neg hne, hread]
  show (match m.find h.identifier with
    | none => pure none
    | some algorithm => decryptWith b o _ (some h) algorithm) = _
  rw [hfind]
  have hwritten : h.written.length ≠ 0 := by simp [CryptorHeaderV1.written]
  have hrest : h.written.length + (metadata.length + data.length) -
      (h.written.length + metadata.length) = data.length := by omega
  simp [decryptWith, headerSize_eq hid, ← hmeta, Checked.sub, Checked.require, Window.Within,
    bind, Except.bind, hwritten, hrest]

/-! ## The round trip -/

/-- **Encrypted and decrypted again.**  For every module, whatever its list of cryptors, every
    message and every outcome of the encryption by a default algorithm that inverts it, with
    metadata that a header can describe: the promise is kept exactly where the metadata are
    shorter than 255 bytes, or, without a header, where the data are neither empty nor look like
    a header. -/
theorem provider_round_trip_iff (henc : m.defaultAlgorithm.encrypt b o iv plain = some e)
    (hinv : m.defaultAlgorithm.Inverts b o e plain)
    (hmeta : Describable m.defaultAlgorithm.identifier e.metadata) :
    RoundTrip b o fresh iv m plain e ↔ Recognizable m.defaultAlgorithm.identifier e := by
  by_cases hid : m.defaultAlgorithm.identifier = legacyCryptoIdentifier
  · have hwhole := providerEncrypt_of_legacy fresh henc hid (hmeta.2 hid)
    rw [Recognizable, if_pos hid]
    constructor
    · intro h
      refine ⟨fun hnil => ?_, h.headerless hid _ hwhole⟩
      obtain ⟨block, hblock, hplain⟩ := h.decrypted
      have : block = [] := by simpa [hwhole, hnil, eq_comm] using hblock
      simp [this, providerDecrypt] at hplain
    · rintro ⟨hne, hheader⟩
      refine ⟨⟨e.data, hwhole, ?_⟩, ?_, ?_, fun block => providerDecrypt_of_not_hasHeader⟩
      · rw [providerDecrypt_of_not_hasHeader hne hheader, ← hid, find_default]
        exact hinv e.data ⟨0, e.data.length⟩ none (by simp [Window.Within]) (by simp)
          (by simp [Window.contents]) (hmeta.2 hid).symm
      · intro block hblock
        rw [pbccCryptorHeaderV1ToAllocBlock, if_pos (by exact hid)] at hblock
        cases hblock
      · intro _ block hblock
        obtain rfl : e.data = block := by simpa [hwhole] using hblock
        exact hheader
  · have hwhole := providerEncrypt_of_header fresh henc hid hmeta.1
    have hprepared : pbccPrepareCryptorHeaderV1 m.defaultAlgorithm.identifier e.metadata =
        ⟨m.defaultAlgorithm.identifier, e.metadata.length⟩ := by
      have := hmeta.1
      rw [pbccPrepareCryptorHeaderV1, Nat.mod_eq_of_lt (by omega)]
    generalize hh : CryptorHeaderV1.mk m.defaultAlgorithm.identifier e.metadata.length = h
      at hwhole hprepared
    have hid' : h.identifier ≠ legacyCryptoIdentifier := hh ▸ hid
    have hfind : m.find h.identifier = some m.defaultAlgorithm := hh ▸ find_default m
    have hdata : h.dataLength = e.metadata.length := hh ▸ rfl
    rw [Recognizable, if_neg hid, ← hdata]
    constructor
    · intro hkept
      have hblock := hkept.header _ (by rw [hprepared, toAllocBlock_eq fresh hid'])
      rw [hh] at hblock
      exact (fromBlock_written_iff hid' _).mp hblock
    · intro hlen
      refine ⟨⟨_, hwhole, ?_⟩, fun block hblock => ?_, fun hlegacy => absurd hlegacy hid,
        fun block => providerDecrypt_of_not_hasHeader⟩
      · rw [providerDecrypt_of_header hid' hlen hdata.symm hfind]
        refine hinv _ _ _ ?_ ?_ ?_ ?_
        · simp only [Window.Within, List.length_append]
          omega
        · simp [Window.Within]
        · simpa using Window.contents_append (h.written ++ e.metadata) e.data []
        · exact Window.contents_append _ _ _
      · rw [hprepared, toAllocBlock_eq fresh hid'] at hblock
        obtain rfl := Option.some.inj hblock
        rw [hh]
        exact (fromBlock_written_iff hid' _).mpr hlen

/-- The cryptor that changes nothing and has metadata of this length. -/
def plainCryptor (length : Nat) : Cryptor :=
  .custom (#v[80, 76, 65, 73]) (fun plain => some ⟨plain, List.replicate length 7⟩)
    fun data _ => some data

/-- OpenSSL as far as `plainCryptor` needs it, which is not at all. -/
def noOpenssl : Openssl := ⟨id, fun _ _ _ => none, fun _ _ _ => ⟨false, []⟩, id⟩

lemma plainCryptor_inverts (b : CryptoBuild) (o : Openssl) (length : Nat) (plain : Bytes) :
    (plainCryptor length).Inverts b o ⟨plain, List.replicate length 7⟩ plain := by
  intro block data metadata _ _ hdata _
  simp only [plainCryptor, Cryptor.decrypt, hdata]

lemma plainCryptor_describable {length : Nat} (h : length < 2 ^ 16) :
    Describable (plainCryptor length).identifier (List.replicate length 7) :=
  ⟨by rwa [List.length_replicate], fun hlegacy => absurd hlegacy (by
    show ¬ (#v[80, 76, 65, 73] : CryptorIdentifier) = legacyCryptoIdentifier
    decide)⟩

end

/-- Sixteen bytes of metadata, as AES-CBC has them. -/
theorem provider_round_trip_sixteen :
    RoundTrip ⟨true⟩ noOpenssl (fun _ => 9) [] ⟨plainCryptor 16, [.legacy []]⟩ (ascii "hello")
      ⟨ascii "hello", List.replicate 16 7⟩ :=
  (provider_round_trip_iff rfl (plainCryptor_inverts _ _ 16 _)
    (plainCryptor_describable (by decide))).mpr (by decide)

/-- What comes back of a block. -/
def encryptAndDecrypt (b : CryptoBuild) (o : Openssl) (fresh : Nat → UInt8) (iv : Bytes)
    (m : CryptoModule) (plain : Bytes) : Checked (Option Bytes) :=
  match providerEncrypt b o fresh iv m plain with
  | .ok (some block) => providerDecrypt b o m block
  | _ => .ok none

/-- **255 bytes of metadata do not come back.**  Behind the marker stands 267, so that the reader
    looks for the data behind the end of the block. -/
theorem provider_round_trip_not_always :
    ¬ ∀ (b : CryptoBuild) (o : Openssl) (fresh : Nat → UInt8) (iv : Bytes) (m : CryptoModule)
        (plain : Bytes) (e : EncryptedData),
        m.defaultAlgorithm.encrypt b o iv plain = some e →
          m.defaultAlgorithm.Inverts b o e plain →
            Describable m.defaultAlgorithm.identifier e.metadata →
              RoundTrip b o fresh iv m plain e := by
  intro h
  have hkept := h ⟨true⟩ noOpenssl (fun _ => 9) [] ⟨plainCryptor 255, []⟩ (ascii "hello")
    ⟨ascii "hello", List.replicate 255 7⟩ rfl (plainCryptor_inverts _ _ 255 _)
    (plainCryptor_describable (by decide))
  obtain ⟨block, hblock, hplain⟩ := hkept.decrypted
  have hlost : encryptAndDecrypt ⟨true⟩ noOpenssl (fun _ => 9) [] ⟨plainCryptor 255, []⟩
      (ascii "hello") = .error .underflow := by
    decide +kernel
  simp [encryptAndDecrypt, hblock, hplain] at hlost

end PubNub
