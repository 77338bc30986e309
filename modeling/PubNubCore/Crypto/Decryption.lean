import PubNubCore.Crypto.Base64
import PubNubCore.Crypto.Provider

/-!
# Lengths on the way to a decrypted message

Received text is decoded and decrypted by five functions: `pubnub_decrypt`,
`pubnub_decrypt_buffered` and `pubnub_decrypt_alloc` with a cipher key, `provider_decrypt` with a
crypto module, and `pbcc_decrypt_message`, which takes the quotes off a message first.  They
subtract the size of an initialization vector, of a header, of metadata, from lengths that the
sender of the text has chosen.

* **`decryption_inside_iff`** — for every text and every block: the computation ends without an
  underflow and without addressing anything outside the block, and what is too short or has an
  inconsistent header is refused, exactly when the text fits (`DecryptionCall.Fits`).
* `decryption_not_always_inside` — a block of ten bytes whose header declares sixteen more.
-/

namespace PubNub

/-! ## With a cipher key -/

/-- `pubnub_decrypt`, `pubnub_decrypt_buffered` and `pubnub_decrypt_alloc`: the text is decoded
    into a block of `size` bytes, the initialization vector is taken off, a NUL is put behind the
    data, and they are decrypted into a buffer with `room` for a result. -/
def decryptBase64 (b : CryptoBuild) (o : Openssl) (outside : UInt8 → UInt8)
    (cipherKey base64Str : Bytes) (size : Nat) (room : Bytes → Nat) : Checked (Option Bytes) :=
  match pbbase64DecodeStdStr outside base64Str size with
  | none => .ok none
  | some decoded => do
      let (iv, data) ← splitInitVector b decoded
      Checked.require (data.length < size)
      let deciphered := pbaes256Decrypt o data (cipherKeyHash o cipherKey) iv (room data)
      return if deciphered.ok then some deciphered.written else none

/-- `pubnub_decrypt`. -/
def pubnubDecrypt (b : CryptoBuild) (o : Openssl) (outside : UInt8 → UInt8)
    (cipherKey base64Str : Bytes) (dataSize : Nat) : Checked (Option Bytes) :=
  decryptBase64 b o outside cipherKey base64Str (pbbase64AllocSize base64Str) fun _ => dataSize

/-- `pubnub_decrypt_buffered`. -/
def pubnubDecryptBuffered (b : CryptoBuild) (o : Openssl) (outside : UInt8 → UInt8)
    (cipherKey base64Str : Bytes) (dataSize bufferSize : Nat) : Checked (Option Bytes) :=
  decryptBase64 b o outside cipherKey base64Str bufferSize fun _ => dataSize

/-- `pubnub_decrypt_alloc`, with the size `pbaes256_decrypt_alloc` allocates. -/
def pubnubDecryptAlloc (b : CryptoBuild) (o : Openssl) (outside : UInt8 → UInt8)
    (cipherKey base64Str : Bytes) : Checked (Option Bytes) :=
  decryptBase64 b o outside cipherKey base64Str (pbbase64AllocSize base64Str) fun data =>
    data.length + 16 + 1

/-! ## With a crypto module -/

/-- What `pbcc_decrypt_message` returns: the message as it was received, a decrypted one, or
    `NULL` where no more decrypted messages can be kept. -/
inductive DecryptedMessage
  | original | decrypted (plain : Bytes) | tooMany
  deriving DecidableEq

/-- `PUBNUB_MAX_DECRYPTED_MESSAGES` in a build with this `PUBNUB_BUF_MAXLEN`. -/
def maxDecryptedMessages (bufMaxlen : Nat) : Nat := bufMaxlen / 50

/-- The text between the quotes: the last character is written over with a NUL, the first one is
    skipped. -/
def betweenQuotes (message : Bytes) : Bytes := (message.take (message.length - 1)).drop 1

/-- `pbcc_decrypt_message`; `room` says whether another decrypted message can be kept. -/
def pbccDecryptMessage (b : CryptoBuild) (o : Openssl) (outside : UInt8 → UInt8)
    (m : CryptoModule) (room : Bool) (message : Bytes) : Checked DecryptedMessage := do
  -- `trimmed[strlen(trimmed) - 1]`
  let _ ← Checked.sub message.length 1
  match pbbase64DecodeAllocStdStr outside (betweenQuotes message) with
  | none => return .original
  | some encrypted =>
      match ← providerDecrypt b o m encrypted with
      | none => return .original
      | some plain => return if room then .decrypted plain else .tooMany

/-! ## Calls -/

/-- A call of one of the five functions. -/
inductive DecryptionCall
  | decrypt (cipherKey base64Str : Bytes) (dataSize : Nat)
  | buffered (cipherKey base64Str : Bytes) (dataSize bufferSize : Nat)
  | alloc (cipherKey base64Str : Bytes)
  | provider (m : CryptoModule) (toDecrypt : Bytes)
  | received (m : CryptoModule) (room : Bool) (message : Bytes)

/-- The call, as a decrypted text or none: an error, or the message as it was received. -/
def DecryptionCall.run (b : CryptoBuild) (o : Openssl) (outside : UInt8 → UInt8) :
    DecryptionCall → Checked (Option Bytes)
  | .decrypt cipherKey base64Str dataSize => pubnubDecrypt b o outside cipherKey base64Str dataSize
  | .buffered cipherKey base64Str dataSize bufferSize =>
      pubnubDecryptBuffered b o outside cipherKey base64Str dataSize bufferSize
  | .alloc cipherKey base64Str => pubnubDecryptAlloc b o outside cipherKey base64Str
  | .provider m toDecrypt => providerDecrypt b o m toDecrypt
  | .received m room message => do
      match ← pbccDecryptMessage b o outside m room message with
      | .decrypted plain => return some plain
      | .original | .tooMany => return none

/-! ## What is promised -/

/-- Where the metadata begin that a header declares: behind it, or with the block, for the
    identifier that has no header.  The size of the header is the one for the declared length, in
    whatever form that stands. -/
def metadataStart (block : Bytes) : Nat :=
  if headerIdentifier block = legacyCryptoIdentifier then 0
  else 9 + if declaredLength block < 255 then 1 else 3

/-- Where they end. -/
def metadataEnd (block : Bytes) : Nat := metadataStart block + declaredLength block

/-- Where the encrypted data begin. -/
def dataStart (block : Bytes) : Nat :=
  if headerIdentifier block = legacyCryptoIdentifier then 0 else metadataEnd block

/-- The header the reader finds where it finds one. -/
def readCryptorHeader (block : Bytes) : Option CryptorHeaderV1 :=
  if HasHeader block then some ⟨headerIdentifier block, declaredLength block⟩ else none

/-- The window of the metadata that is handed to a cryptor. -/
def metadataWindow (block : Bytes) : Option Window :=
  if HasHeader block then some ⟨metadataStart block, declaredLength block⟩ else none

/-- The window of the data. -/
def dataWindow (block : Bytes) : Window :=
  if HasHeader block then ⟨dataStart block, block.length - dataStart block⟩ else ⟨0, block.length⟩

/-- The header declares more than there is. -/
def InconsistentHeader (block : Bytes) : Prop :=
  HasHeader block ∧ ((LongLength block ∧ block.length < 12) ∨ block.length < metadataEnd block)

/-- The cryptor for a block. -/
def CryptoModule.chosen (m : CryptoModule) (block : Bytes) : Option Cryptor :=
  m.find (if HasHeader block then headerIdentifier block else legacyCryptoIdentifier)

/-- The least number of bytes a cryptor can decrypt: a cipher block, and the initialization vector
    of legacy data. -/
def Cryptor.leastSize (b : CryptoBuild) (cipherBlock : Nat) : Cryptor → Nat
  | .aesCbc _ => cipherBlock
  | .legacy _ => b.ivSize + cipherBlock
  | .custom _ _ _ => 0

/-- The block is too short for its header, or for the cryptor it is for. -/
def CryptoModule.TooShort (b : CryptoBuild) (m : CryptoModule) (block : Bytes) : Prop :=
  InconsistentHeader block ∨ ∃ c, m.chosen block = some c ∧
    block.length - (if HasHeader block then dataStart block else 0) < c.leastSize b 16

/-- The decoded text is too short, or the block has an inconsistent header. -/
def DecryptionCall.TooShort (b : CryptoBuild) (outside : UInt8 → UInt8) : DecryptionCall → Prop
  | .decrypt _ base64Str _ | .alloc _ base64Str =>
      ∃ d, pbbase64DecodeAllocStdStr outside base64Str = some d ∧ d.length < b.ivSize + 16
  | .buffered _ base64Str _ bufferSize =>
      ∃ d, pbbase64DecodeStdStr outside base64Str bufferSize = some d ∧ d.length < b.ivSize + 16
  | .provider m toDecrypt => m.TooShort b toDecrypt
  | .received m _ message =>
      ∃ d, pbbase64DecodeAllocStdStr outside (betweenQuotes message) = some d ∧ m.TooShort b d

/-- What is promised of a call: no underflow, nothing outside a block, and no result from what is
    too short. -/
def DecryptionCall.Inside (b : CryptoBuild) (o : Openssl) (outside : UInt8 → UInt8)
    (call : DecryptionCall) : Prop :=
  (call.run b o outside).Returns fun result => call.TooShort b outside → result = none

/-! ## The condition -/

/-- The block fits: a long length is there, the metadata of a known cryptor end inside it, AES-CBC
    finds sixteen bytes from their place on, and legacy data have an initialization vector and
    `cipherBlock` more bytes. -/
def CryptoModule.Fits (b : CryptoBuild) (m : CryptoModule) (cipherBlock : Nat) (block : Bytes) :
    Prop :=
  (HasHeader block → LongLength block → 12 ≤ block.length) ∧
  ∀ c, m.chosen block = some c →
    (HasHeader block → metadataEnd block ≤ block.length) ∧
    match c with
    | .aesCbc _ => metadataStart block + 16 ≤ block.length
    | .legacy _ => block = [] ∨ b.ivSize + cipherBlock ≤ block.length
    | .custom _ _ _ => True

/-- The text of a call fits: decoded, it has room for the initialization vector, or fits the
    module.  A message is not empty; a result that would not be kept may be any. -/
def DecryptionCall.Fits (b : CryptoBuild) (outside : UInt8 → UInt8) : DecryptionCall → Prop
  | .decrypt _ base64Str _ | .alloc _ base64Str =>
      ∀ d, pbbase64DecodeAllocStdStr outside base64Str = some d → b.ivSize ≤ d.length
  | .buffered _ base64Str _ bufferSize =>
      ∀ d, pbbase64DecodeStdStr outside base64Str bufferSize = some d →
        b.ivSize ≤ d.length ∧ d.length - b.ivSize < bufferSize
  | .provider m toDecrypt => m.Fits b 16 toDecrypt
  | .received m room message =>
      message ≠ [] ∧ ∀ d, pbbase64DecodeAllocStdStr outside (betweenQuotes message) = some d →
        m.Fits b (if room then 16 else 0) d

section

variable {b : CryptoBuild} {o : Openssl} {outside : UInt8 → UInt8} {m : CryptoModule}
  {block : Bytes} {p : Option Bytes → Prop}

/-! ## Going through a call -/

/-- The initialization vector and the data of a block that has both. -/
def initVectorAndData (b : CryptoBuild) (toDecrypt : Bytes) : Bytes × Bytes :=
  if b.randInitVector then (toDecrypt.take 16, toDecrypt.drop 16) else (fixedInitVector, toDecrypt)

lemma length_initVectorAndData (toDecrypt : Bytes) :
    (initVectorAndData b toDecrypt).2.length = toDecrypt.length - b.ivSize := by
  cases hrand : b.randInitVector with
  | false => simp [initVectorAndData, CryptoBuild.ivSize, hrand]
  | true => simp [initVectorAndData, CryptoBuild.ivSize, hrand]

lemma returns_splitInitVector {toDecrypt : Bytes} {q : Bytes × Bytes → Prop} :
    (splitInitVector b toDecrypt).Returns q ↔
      b.ivSize ≤ toDecrypt.length ∧ q (initVectorAndData b toDecrypt) := by
  cases hrand : b.randInitVector with
  | false => simp [splitInitVector, initVectorAndData, CryptoBuild.ivSize, hrand]
  | true =>
      have hrest : (toDecrypt.drop 16).take (toDecrypt.length - 16) = toDecrypt.drop 16 :=
        List.take_of_length_le (by simp)
      simp only [splitInitVector, initVectorAndData, hrand, if_true, Checked.returns_bind,
        Checked.returns_read, Checked.returns_sub, Checked.returns_pure, CryptoBuild.ivSize,
        List.drop_zero, hrest]
      constructor
      · rintro ⟨h, -, -, hq⟩
        exact ⟨by omega, hq⟩
      · rintro ⟨h, hq⟩
        exact ⟨by omega, h, by omega, hq⟩

lemma returns_fromBlock {q : Option CryptorHeaderV1 → Prop} :
    (pbccCryptorHeaderV1FromBlock block).Returns q ↔
      (HasHeader block → LongLength block → 12 ≤ block.length) ∧ q (readCryptorHeader block) := by
  rw [fromBlock_eq, readCryptorHeader]
  by_cases hheader : HasHeader block
  · by_cases hshort : LongLength block ∧ block.length < 12
    · have hnot : ¬ (HasHeader block → LongLength block → 12 ≤ block.length) :=
        fun h => absurd (h hheader hshort.1) (not_le.mpr hshort.2)
      simp only [if_pos hheader, if_pos hshort, Checked.returns_error, hnot, false_and]
    · have hfits : HasHeader block → LongLength block → 12 ≤ block.length :=
        fun _ h => not_lt.mp fun hlt => hshort ⟨h, hlt⟩
      rw [if_pos hheader, if_neg hshort, Checked.returns_ok, if_pos hheader]
      exact ⟨fun h => ⟨hfits, h⟩, And.right⟩
  · simp [hheader]

lemma cryptorWithIdentifier_readCryptorHeader :
    cryptorWithIdentifier m (readCryptorHeader block) = m.chosen block := by
  rw [cryptorWithIdentifier, readCryptorHeader, CryptoModule.chosen]
  split
  · rfl
  · rfl

lemma find_identifier {identifier : CryptorIdentifier} {c : Cryptor}
    (h : m.find identifier = some c) : c.identifier = identifier := by
  rw [CryptoModule.find] at h
  split at h
  · next hdefault => exact Option.some.inj h ▸ hdefault
  · simpa using List.find?_some h

lemma returns_decryptWith {c : Cryptor} :
    (decryptWith b o block (readCryptorHeader block) c).Returns p ↔
      (HasHeader block → metadataEnd block ≤ block.length) ∧
        (c.decrypt b o block (dataWindow block) (metadataWindow block)).Returns p := by
  by_cases hheader : HasHeader block
  · by_cases hid : headerIdentifier block = legacyCryptoIdentifier
    · simp [decryptWith, readCryptorHeader, dataWindow, metadataWindow, hheader, hid, metadataStart,
        metadataEnd, dataStart, pbccCryptorHeaderV1Size, Window.Within]
    · have hsize : pbccCryptorHeaderV1Size (some ⟨headerIdentifier block, declaredLength block⟩) =
          metadataEnd block := by
        simp [pbccCryptorHeaderV1Size, hid, metadataEnd, metadataStart, identifierLength]
      have hstart : metadataEnd block ≠ 0 := by
        simp [metadataEnd, metadataStart, hid]
      have hsub : metadataEnd block - declaredLength block = metadataStart block := by
        rw [metadataEnd, Nat.add_sub_cancel]
      have hle : declaredLength block ≤ metadataEnd block := Nat.le_add_left _ _
      simp only [decryptWith, readCryptorHeader, dataWindow, metadataWindow, if_pos hheader, dataStart,
        if_neg hid, hsize, hstart, ne_eq, not_false_eq_true, if_true, Checked.returns_bind,
        Checked.returns_sub, Checked.returns_require, Option.elim_some, hsub, Option.map_some,
        Option.mem_def, Option.some.injEq, forall_eq', Window.Within]
      rw [← metadataEnd]
      constructor
      · rintro ⟨-, hend, -, h⟩
        exact ⟨fun _ => hend, h⟩
      · rintro ⟨hend, h⟩
        exact ⟨hle, hend hheader, hend hheader, h⟩
  · simp [decryptWith, readCryptorHeader, dataWindow, metadataWindow, hheader, pbccCryptorHeaderV1Size]

/-- **One rule for `provider_decrypt`.** -/
lemma returns_providerDecrypt (hne : block ≠ []) :
    (providerDecrypt b o m block).Returns p ↔
      (HasHeader block → LongLength block → 12 ≤ block.length) ∧
      (m.chosen block = none → p none) ∧
      ∀ c, m.chosen block = some c →
        (HasHeader block → metadataEnd block ≤ block.length) ∧
          (c.decrypt b o block (dataWindow block) (metadataWindow block)).Returns p := by
  rw [providerDecrypt, if_neg hne, Checked.returns_bind, returns_fromBlock,
    cryptorWithIdentifier_readCryptorHeader]
  refine and_congr_right fun _ => ?_
  cases m.chosen block with
  | none => simp
  | some c => simp [returns_decryptWith]

/-! ## The cryptors -/

lemma dataWindow_within (hend : HasHeader block → metadataEnd block ≤ block.length) :
    (dataWindow block).Within block.length := by
  have hstart : dataStart block ≤ metadataEnd block := by
    rw [dataStart]
    split
    · exact Nat.zero_le _
    · exact le_rfl
  rw [dataWindow]
  split
  · next hheader =>
      have := hend hheader
      simp only [Window.Within]
      omega
  · simp [Window.Within]

/-- A cryptor of the library finds what it is looking for. -/
def Cryptor.Finds (b : CryptoBuild) (block : Bytes) : Cryptor → Prop
  | .aesCbc _ => metadataStart block + 16 ≤ block.length
  | .legacy _ => b.ivSize ≤ block.length
  | .custom _ _ _ => True

/-- The windows of a cryptor without a header: the whole block, and no metadata. -/
lemma dataWindow_of_legacy {c : Cryptor} (hc : m.chosen block = some c)
    (hid : c.identifier = legacyCryptoIdentifier) : dataWindow block = ⟨0, block.length⟩ := by
  have hchosen := (find_identifier hc).symm.trans hid
  rw [dataWindow]
  split
  · next hheader =>
      rw [if_pos hheader] at hchosen
      rw [dataStart, if_pos hchosen, Nat.sub_zero]
  · rfl

/-- AES-CBC has an identifier, and is only chosen by a header. -/
lemma hasHeader_of_chosen {cipherKey : Bytes} (hc : m.chosen block = some (.aesCbc cipherKey)) :
    HasHeader block := by
  by_contra hheader
  rw [CryptoModule.chosen, if_neg hheader] at hc
  have hid : (#v[65, 67, 82, 72] : CryptorIdentifier) = legacyCryptoIdentifier :=
    find_identifier hc
  exact absurd hid (by decide)

/-- **The cryptor that is chosen for a block ends without a fault when it finds what it is looking
    for.** -/
lemma decrypt_returns_iff {c : Cryptor} (hc : m.chosen block = some c)
    (hend : HasHeader block → metadataEnd block ≤ block.length) :
    (c.decrypt b o block (dataWindow block) (metadataWindow block)).Returns (fun _ => True) ↔
      c.Finds b block := by
  have hwithin := dataWindow_within hend
  rw [Window.Within] at hwithin
  cases c with
  | aesCbc cipherKey =>
      have hheader := hasHeader_of_chosen hc
      simp [Cryptor.decrypt, aesDecrypt, Cryptor.Finds, metadataWindow, hheader, hwithin]
  | legacy cipherKey =>
      have hwindow := dataWindow_of_legacy hc rfl
      simp [Cryptor.decrypt, legacyDecrypt, pbccLegacyDecrypt, Cryptor.Finds, hwindow,
        returns_splitInitVector]
  | custom identifier encrypt decrypt => simp [Cryptor.decrypt, Cryptor.Finds]

/-- The legacy cryptor refuses nothing. -/
lemma legacy_refuses_nothing {cipherKey : Bytes} {data : Window} {metadata : Option Window}
    {r : Option Bytes} (h : Cryptor.decrypt b o block data metadata (.legacy cipherKey) = .ok r) :
    r ≠ none := by
  have hreturns := Checked.eq_ok_iff.mp h
  simp only [Cryptor.decrypt, legacyDecrypt, Checked.returns_bind, Checked.returns_pure] at hreturns
  obtain ⟨toDecrypt, -, deciphered, -, rfl⟩ := hreturns
  exact Option.some_ne_none _

/-- AES-CBC refuses less than a block. -/
lemma aesCbc_refuses (ho : o.RefusesLessThanABlock) {cipherKey : Bytes} {data : Window}
    {metadata : Option Window} {r : Option Bytes} (hshort : data.size < 16)
    (h : Cryptor.decrypt b o block data metadata (.aesCbc cipherKey) = .ok r) : r = none := by
  have hlen : ((block.drop data.ofs).take data.size).length < 16 :=
    (List.length_take_le _ _).trans_lt hshort
  have hfails : ∀ key iv room, (pbaes256Decrypt o ((block.drop data.ofs).take data.size) key iv
      room).ok = false := by
    intro key iv room
    rw [pbaes256Decrypt]
    split
    · rfl
    · exact ho _ _ _ hlen
  have hreturns := Checked.eq_ok_iff.mp h
  cases metadata with
  | none => simp [Cryptor.decrypt, aesDecrypt] at hreturns
  | some w =>
      have hnone : data.ofs + data.size ≤ block.length ∧ w.ofs + 16 ≤ block.length ∧ none = r := by
        simpa [Cryptor.decrypt, aesDecrypt, hfails] using hreturns
      exact hnone.2.2.symm

/-! ## The crypto module -/

/-- Where the block is too short for its cryptor, when its header is consistent. -/
lemma tooShort_iff {c : Cryptor} (hc : m.chosen block = some c)
    (hlong : HasHeader block → LongLength block → 12 ≤ block.length)
    (hend : HasHeader block → metadataEnd block ≤ block.length) :
    m.TooShort b block ↔ (dataWindow block).size < c.leastSize b 16 := by
  have hconsistent : ¬ InconsistentHeader block := by
    rintro ⟨hheader, hshort | hbehind⟩
    · exact absurd (hlong hheader hshort.1) (not_le.mpr hshort.2)
    · exact absurd (hend hheader) (not_le.mpr hbehind)
  have hsize : (dataWindow block).size =
      block.length - (if HasHeader block then dataStart block else 0) := by
    rw [dataWindow]
    split
    · rfl
    · rfl
  simp [CryptoModule.TooShort, hconsistent, hc, hsize]

lemma fits_nil (cipherBlock : Nat) : m.Fits b cipherBlock [] := by
  have hheader : ¬ HasHeader [] := fun h => absurd h.1 (by simp)
  refine ⟨fun h => absurd h hheader, fun c hc => ⟨fun h => absurd h hheader, ?_⟩⟩
  cases c with
  | aesCbc cipherKey => exact absurd (hasHeader_of_chosen hc) hheader
  | legacy cipherKey => exact .inl rfl
  | custom identifier encrypt decrypt => trivial

/-- **A call of `provider_decrypt` keeps the promise when the block fits.** -/
lemma providerDecrypt_inside_iff (ho : o.RefusesLessThanABlock) :
    (providerDecrypt b o m block).Returns (fun r => m.TooShort b block → r = none) ↔
      m.Fits b 16 block := by
  by_cases hne : block = []
  · subst hne
    exact iff_of_true (by simp [providerDecrypt]) (fits_nil 16)
  · rw [returns_providerDecrypt hne, CryptoModule.Fits]
    refine and_congr_right fun hlong => ?_
    simp only [implies_true, true_and]
    refine forall_congr' fun c => forall_congr' fun hc => and_congr_right fun hend => ?_
    rw [Checked.returns_iff, decrypt_returns_iff hc hend, tooShort_iff hc hlong hend]
    cases c with
    | aesCbc cipherKey =>
        exact and_iff_left fun r hr hshort => aesCbc_refuses ho hshort hr
    | legacy cipherKey =>
        have hwindow := dataWindow_of_legacy hc rfl
        simp only [Cryptor.Finds, Cryptor.leastSize, hwindow, hne, false_or]
        constructor
        · rintro ⟨hiv, hrefused⟩
          obtain ⟨r, hr, -⟩ := (decrypt_returns_iff (o := o) hc hend).mpr hiv
          rw [hwindow] at hr
          exact not_lt.mp fun hshort => legacy_refuses_nothing hr (hrefused r hr hshort)
        · intro hlong
          exact ⟨by omega, fun r _ hshort => absurd hlong (not_le.mpr hshort)⟩
    | custom identifier encrypt decrypt => simp [Cryptor.Finds, Cryptor.leastSize]

/-- It ends without a fault when the block fits, whatever legacy data are there. -/
lemma providerDecrypt_returns_iff :
    (providerDecrypt b o m block).Returns (fun _ => True) ↔ m.Fits b 0 block := by
  by_cases hne : block = []
  · subst hne
    exact iff_of_true (by simp [providerDecrypt]) (fits_nil 0)
  · rw [returns_providerDecrypt hne, CryptoModule.Fits]
    refine and_congr_right fun hlong => ?_
    simp only [implies_true, true_and]
    refine forall_congr' fun c => forall_congr' fun hc => and_congr_right fun hend => ?_
    rw [decrypt_returns_iff hc hend]
    cases c with
    | aesCbc cipherKey => rfl
    | legacy cipherKey => simp [Cryptor.Finds, hne]
    | custom identifier encrypt decrypt => rfl

/-! ## All calls -/

/-- A call with a cipher key. -/
lemma decryptBase64_inside_iff (ho : o.RefusesLessThanABlock) {cipherKey base64Str : Bytes}
    {size : Nat} {room : Bytes → Nat} :
    (decryptBase64 b o outside cipherKey base64Str size room).Returns (fun r =>
        (∃ d, pbbase64DecodeStdStr outside base64Str size = some d ∧ d.length < b.ivSize + 16) →
          r = none) ↔
      ∀ d, pbbase64DecodeStdStr outside base64Str size = some d →
        b.ivSize ≤ d.length ∧ d.length - b.ivSize < size := by
  rw [decryptBase64]
  cases pbbase64DecodeStdStr outside base64Str size with
  | none => simp
  | some decoded =>
      have hdata := length_initVectorAndData (b := b) decoded
      have hrefused : decoded.length < b.ivSize + 16 → ∀ key iv room,
          (pbaes256Decrypt o (initVectorAndData b decoded).2 key iv room).ok = false := by
        intro hshort key iv room
        rw [pbaes256Decrypt]
        split
        · rfl
        · exact ho _ _ _ (by omega)
      simp only [Checked.returns_bind, returns_splitInitVector, Checked.returns_require,
        Checked.returns_pure, Option.some.injEq, exists_eq_left', forall_eq', hdata]
      refine and_congr_right fun _ => and_iff_left fun hshort => ?_
      rw [hrefused hshort]
      rfl

/-- The block a text was decoded into has room for a NUL behind it. -/
lemma length_lt_allocSize {s d : Bytes} (h : pbbase64DecodeAllocStdStr outside s = some d) :
    d.length - b.ivSize < pbbase64AllocSize s := by
  rw [decodeAllocStdStr_eq] at h
  have := length_decodeGroups_le h
  rw [pbbase64AllocSize]
  omega

/-- **Inside the block, and nothing from what is too short.**  For every call of one of the five
    functions, with every text or block, every module and every OpenSSL that refuses less than a
    cipher block. -/
theorem decryption_inside_iff (ho : o.RefusesLessThanABlock) (call : DecryptionCall) :
    call.Inside b o outside ↔ call.Fits b outside := by
  cases call with
  | decrypt cipherKey base64Str dataSize =>
      simp only [DecryptionCall.Inside, DecryptionCall.run, pubnubDecrypt, DecryptionCall.TooShort,
        DecryptionCall.Fits, pbbase64DecodeAllocStdStr]
      rw [decryptBase64_inside_iff ho]
      exact forall₂_congr fun d hd => and_iff_left (length_lt_allocSize hd)
  | buffered cipherKey base64Str dataSize bufferSize =>
      simp only [DecryptionCall.Inside, DecryptionCall.run, pubnubDecryptBuffered,
        DecryptionCall.TooShort, DecryptionCall.Fits]
      exact decryptBase64_inside_iff ho
  | alloc cipherKey base64Str =>
      simp only [DecryptionCall.Inside, DecryptionCall.run, pubnubDecryptAlloc,
        DecryptionCall.TooShort, DecryptionCall.Fits, pbbase64DecodeAllocStdStr]
      rw [decryptBase64_inside_iff ho]
      exact forall₂_congr fun d hd => and_iff_left (length_lt_allocSize hd)
  | provider m toDecrypt =>
      simp only [DecryptionCall.Inside, DecryptionCall.run, DecryptionCall.TooShort,
        DecryptionCall.Fits]
      exact providerDecrypt_inside_iff ho
  | received m room message =>
      simp only [DecryptionCall.Inside, DecryptionCall.run, DecryptionCall.Fits, pbccDecryptMessage,
        DecryptionCall.TooShort, Checked.returns_bind, Checked.returns_sub]
      have hne : 1 ≤ message.length ↔ message ≠ [] := List.length_pos_iff
      refine and_congr hne ?_
      cases pbbase64DecodeAllocStdStr outside (betweenQuotes message) with
      | none => simp
      | some encrypted =>
          simp only [Option.some.injEq, exists_eq_left', forall_eq']
          cases room with
          | true =>
              rw [if_pos rfl, ← providerDecrypt_inside_iff ho, Checked.returns_bind]
              refine Checked.returns_congr fun r => ?_
              cases r with
              | none => simp
              | some plain => simp
          | false =>
              rw [if_neg Bool.false_ne_true, ← providerDecrypt_returns_iff (o := o),
                Checked.returns_bind]
              refine Checked.returns_congr fun r => ?_
              cases r with
              | none => simp
              | some plain => simp

end

/-- A cipher that decrypts nothing. -/
lemma noOpenssl_refuses : noOpenssl.RefusesLessThanABlock := fun _ _ _ _ => rfl

/-- A message that is decrypted by AES-CBC as far as OpenSSL lets it: a header with sixteen bytes
    of metadata, and a block of data. -/
theorem decryption_inside_aesCbc :
    DecryptionCall.Inside ⟨true⟩ noOpenssl id
      (.provider ⟨.aesCbc [], [.legacy []]⟩
        (ascii "PNED" ++ [1] ++ ascii "ACRH" ++ [16] ++ List.replicate 32 7)) := by
  refine (decryption_inside_iff noOpenssl_refuses _).mpr ⟨fun _ h => ?_, fun c hc => ?_⟩
  · exact absurd h (by decide)
  · rw [CryptoModule.chosen, CryptoModule.find, if_pos (by decide)] at hc
    obtain rfl := Option.some.inj hc
    exact ⟨fun _ => by decide, by decide⟩

/-- **A header declares more than there is.**  The ten bytes are a whole header, for AES-CBC, with
    sixteen bytes of metadata: the size of the data underflows. -/
theorem decryption_not_always_inside :
    ¬ ∀ (b : CryptoBuild) (o : Openssl) (outside : UInt8 → UInt8), o.RefusesLessThanABlock →
        ∀ call : DecryptionCall, call.Inside b o outside := by
  intro h
  obtain ⟨r, hr, -⟩ := h ⟨true⟩ noOpenssl id noOpenssl_refuses
    (.received ⟨.aesCbc [], [.legacy []]⟩ true (ascii "\"UE5FRAFBQ1JIEA==\""))
  have hfault : DecryptionCall.run ⟨true⟩ noOpenssl id
      (.received ⟨.aesCbc [], [.legacy []]⟩ true (ascii "\"UE5FRAFBQ1JIEA==\"")) =
        .error .underflow := by
    decide +kernel
  exact absurd (hr.symm.trans hfault) (by simp)

end PubNub
