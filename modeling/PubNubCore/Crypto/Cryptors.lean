import PubNubCore.Crypto.Header

/-!
# The cryptors

The two algorithms of `pbcc_crypto_aes_cbc.c` and `pbcc_crypto_legacy.c`, and the ones of the
user.  A cryptor decrypts where the data stand: it is handed a window of the received block for
the data and another one for the metadata.  `aes_decrypt` takes sixteen bytes from the place of
the metadata, however many there are, and `pbcc_legacy_decrypt` takes the initialization vector
off the front of the data.

The primitives are those of OpenSSL, the parameter `Openssl`.
-/

namespace PubNub

/-- The result of `do_decrypt`: whether it succeeded, and what has been written to the buffer. -/
structure Decipherment where
  ok : Bool
  written : Bytes
  deriving DecidableEq

/-- The functions of OpenSSL: SHA-256, AES-256 in CBC mode with a key and an initialization
    vector, and `EVP_EncodeBlock`. -/
structure Openssl where
  sha256 : Bytes → Bytes
  encrypt : Bytes → Bytes → Bytes → Option Bytes
  decrypt : Bytes → Bytes → Bytes → Decipherment
  encodeBlock : Bytes → Bytes

/-- `EVP_DecryptFinal_ex` fails on less than a block. -/
def Openssl.RefusesLessThanABlock (o : Openssl) : Prop :=
  ∀ key iv data, data.length < 16 → (o.decrypt key iv data).ok = false

/-- `struct pubnub_encrypted_data`; a block without a pointer is empty. -/
structure EncryptedData where
  data : Bytes
  metadata : Bytes
  deriving DecidableEq

/-- `struct pubnub_cryptor_t`: the cryptors of the library with their keys, and any other.  One
    of the user decides by the contents of its blocks; `none` is a metadata pointer that is
    `NULL`. -/
inductive Cryptor
  | aesCbc (cipherKey : Bytes)
  | legacy (cipherKey : Bytes)
  | custom (identifier : CryptorIdentifier) (encrypt : Bytes → Option EncryptedData)
      (decrypt : Bytes → Option Bytes → Option Bytes)

/-- The build option `PUBNUB_RAND_INIT_VECTOR`. -/
structure CryptoBuild where
  randInitVector : Bool
  deriving DecidableEq

/-- How many bytes of legacy data are the initialization vector. -/
def CryptoBuild.ivSize (b : CryptoBuild) : Nat := if b.randInitVector then 16 else 0

/-- The initialization vector that stands in the code. -/
def fixedInitVector : Bytes := ascii "0123456789012345"

/-- A digit of `%02x`. -/
def hexDigit (n : Nat) : UInt8 := UInt8.ofNat (if n < 10 then 48 + n else 87 + n)

/-- `pbcc_cipher_key_hash` and `cipher_hash`: the first half of the digest in hexadecimal. -/
def cipherKeyHash (o : Openssl) (cipherKey : Bytes) : Bytes :=
  ((o.sha256 cipherKey).take 16).flatMap fun c => [hexDigit (c.toNat / 16), hexDigit (c.toNat % 16)]

/-- `pbaes256_decrypt` into a buffer of this size. -/
def pbaes256Decrypt (o : Openssl) (data key iv : Bytes) (room : Nat) : Decipherment :=
  if room < data.length + 16 + 1 then ⟨false, []⟩ else o.decrypt key iv data

/-- `estimated_dec_buffer_size`. -/
def estimatedDecBufferSize (n : Nat) : Nat := n + 16 + 1

/-! ## `pbcc_crypto_aes_cbc.c` -/

/-- `aes_encrypt`; `iv` is what `generate_init_vector` has drawn. -/
def aesEncrypt (o : Openssl) (iv cipherKey toEncrypt : Bytes) : Option EncryptedData :=
  (o.encrypt (o.sha256 cipherKey) iv toEncrypt).map fun data => ⟨data, iv⟩

/-- `aes_decrypt`. -/
def aesDecrypt (o : Openssl) (cipherKey block : Bytes) (data : Window)
    (metadata : Option Window) : Checked (Option Bytes) := do
  let cipher ← Checked.read block data.ofs data.size
  -- `memcpy(terminated_iv, iv, 16)`, whatever `metadata.size` is
  let iv ← match metadata with
    | some w => Checked.read block w.ofs 16
    | none => .error .outside
  let deciphered :=
    pbaes256Decrypt o cipher (o.sha256 cipherKey) iv (estimatedDecBufferSize cipher.length)
  return if deciphered.ok then some deciphered.written else none

/-! ## `pbcc_crypto_legacy.c` -/

/-- `pbcc_legacy_encrypt`, in `legacy_encrypt`. -/
def legacyEncrypt (b : CryptoBuild) (o : Openssl) (iv cipherKey toEncrypt : Bytes) :
    Option EncryptedData :=
  let iv := if b.randInitVector then iv else fixedInitVector
  (o.encrypt (cipherKeyHash o cipherKey) iv toEncrypt).map fun data =>
    ⟨if b.randInitVector then iv ++ data else data, []⟩

/-- The initialization vector and the data behind it: the block with `PUBNUB_RAND_INIT_VECTOR` of
    `pbcc_legacy_decrypt`, `pubnub_decrypt`, `pubnub_decrypt_buffered` and
    `pubnub_decrypt_alloc`. -/
def splitInitVector (b : CryptoBuild) (toDecrypt : Bytes) : Checked (Bytes × Bytes) :=
  if b.randInitVector then do
    let iv ← Checked.read toDecrypt 0 16
    let size ← Checked.sub toDecrypt.length 16
    let data ← Checked.read toDecrypt 16 size
    return (iv, data)
  else .ok (fixedInitVector, toDecrypt)

/-- `pbcc_legacy_decrypt`. -/
def pbccLegacyDecrypt (b : CryptoBuild) (o : Openssl) (cipherKey toDecrypt : Bytes) (room : Nat) :
    Checked Decipherment := do
  let (iv, data) ← splitInitVector b toDecrypt
  return pbaes256Decrypt o data (cipherKeyHash o cipherKey) iv room

/-- `legacy_decrypt`.  The result of `pbcc_legacy_decrypt` is not looked at: what has been written
    counts as far as the first NUL. -/
def legacyDecrypt (b : CryptoBuild) (o : Openssl) (cipherKey block : Bytes) (data : Window) :
    Checked (Option Bytes) := do
  let toDecrypt ← Checked.read block data.ofs data.size
  let deciphered ←
    pbccLegacyDecrypt b o cipherKey toDecrypt (estimatedDecBufferSize toDecrypt.length)
  return some (deciphered.written.takeWhile (· ≠ 0))

/-! ## The function pointers -/

namespace Cryptor

/-- `identifier`; the one of AES-CBC is `AES_IDENTIFIER`. -/
def identifier : Cryptor → CryptorIdentifier
  | aesCbc _ => #v[65, 67, 82, 72]
  | legacy _ => legacyCryptoIdentifier
  | custom identifier _ _ => identifier

/-- `encrypt`. -/
def encrypt (b : CryptoBuild) (o : Openssl) (iv : Bytes) (toEncrypt : Bytes) :
    Cryptor → Option EncryptedData
  | aesCbc cipherKey => aesEncrypt o iv cipherKey toEncrypt
  | legacy cipherKey => legacyEncrypt b o iv cipherKey toEncrypt
  | custom _ encrypt _ => encrypt toEncrypt

/-- `decrypt`. -/
def decrypt (b : CryptoBuild) (o : Openssl) (block : Bytes) (data : Window)
    (metadata : Option Window) : Cryptor → Checked (Option Bytes)
  | aesCbc cipherKey => aesDecrypt o cipherKey block data metadata
  | legacy cipherKey => legacyDecrypt b o cipherKey block data
  | custom _ _ decrypt => .ok (decrypt (data.contents block) (metadata.map (·.contents block)))

end Cryptor

end PubNub
