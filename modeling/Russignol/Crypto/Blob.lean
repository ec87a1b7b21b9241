import Mathlib.Data.Set.Function
import Russignol.Base.Bytes
import Russignol.Base.FileStore

/-!
# Encrypted key blobs

The `russignol-crypto` crate: a blob is a version byte, a salt, a nonce and an AES-256-GCM
ciphertext under a key derived from the PIN by scrypt. Two layouts are read, one is written.
scrypt and AES-GCM are other crates and stay abstract (`BlobCrypto`); `Authenticated` is what their
documentation promises: a ciphertext opens with the key that sealed it, and not with the key of
another PIN.
-/

namespace Russignol

open FileStore (IoError)

/-- The `scrypt` and `aes-gcm` crates, errors as their text. -/
class BlobCrypto where
  scrypt : (password salt : List UInt8) → Except String (Bytes.Fixed 32)
  gcmEncrypt : Bytes.Fixed 32 → (nonce plaintext : List UInt8) → Except String (List UInt8)
  gcmDecrypt : Bytes.Fixed 32 → (nonce ciphertext : List UInt8) → Except String (List UInt8)

namespace Crypto

/-- `FORMAT_V2`. -/
def formatV2 : UInt8 := 0x02

/-- `LEGACY_SALT_LEN`. -/
def legacySaltLen : UInt8 := 22

/-- `V2_SALT_LEN`. -/
def v2SaltLen : Nat := 16

/-- `NONCE_LEN`. -/
def nonceLen : Nat := 12

/-- `BlobFormat`. -/
inductive BlobFormat
  | v1Legacy
  | v2
  deriving DecidableEq, Repr

/-- What `encrypt` draws at random. -/
structure Random where
  salt : Bytes.Fixed v2SaltLen
  nonce : Bytes.Fixed nonceLen
  deriving DecidableEq

/-- `str::as_bytes`. -/
def asBytes (s : String) : List UInt8 := s.toUTF8.data.toList

/-- `String::from_utf8`. -/
def fromUtf8 (bytes : List UInt8) : Option String := String.fromUTF8? ⟨bytes.toArray⟩

/-- A string is read back from its bytes. -/
theorem fromUtf8_asBytes (s : String) : fromUtf8 (asBytes s) = some s := by
  have hbytes : (⟨(asBytes s).toArray⟩ : ByteArray) = s.toUTF8 := by
    rw [asBytes, Array.toArray_toList]
  rw [fromUtf8, hbytes]
  unfold String.fromUTF8?
  rw [String.toUTF8_eq_toByteArray, dif_pos s.isValidUTF8]
  rfl

section
variable [BlobCrypto]

/-- `derive_key`. -/
def deriveKey (password salt : List UInt8) : Except IoError (Bytes.Fixed 32) :=
  (BlobCrypto.scrypt password salt).mapError
    fun e => ⟨.other, "Scrypt key derivation failed: " ++ e⟩

/-- `encrypt`. -/
def encrypt (random : Random) (password : List UInt8) (plaintext : String) :
    Except IoError (List UInt8) := do
  let key ← deriveKey password random.salt.1
  let ciphertext ← (BlobCrypto.gcmEncrypt key random.nonce.1 (asBytes plaintext)).mapError
    fun e => ⟨.invalidData, "Encryption failed: " ++ e⟩
  return formatV2 :: (random.salt.1 ++ (random.nonce.1 ++ ciphertext))

/-- The salt, the format and the rest of a blob. -/
def splitSalt (encrypted : List UInt8) :
    Except IoError (List UInt8 × BlobFormat × List UInt8) :=
  match encrypted with
  | [] => .error ⟨.invalidData, "Encrypted data is empty"⟩
  | version :: rest =>
    if version = legacySaltLen then
      if rest.length < legacySaltLen.toNat then
        .error ⟨.invalidData, "Encrypted data too short for legacy salt"⟩
      else .ok (rest.take legacySaltLen.toNat, .v1Legacy, rest.drop legacySaltLen.toNat)
    else if version = formatV2 then
      if rest.length < v2SaltLen then
        .error ⟨.invalidData, "Encrypted data too short for v2 salt"⟩
      else .ok (rest.take v2SaltLen, .v2, rest.drop v2SaltLen)
    else .error ⟨.invalidData, "unknown format version"⟩

/-- `decrypt_with_format` once the blob is parsed. -/
def openSealed (password salt nonce ciphertext : List UInt8) (format : BlobFormat) :
    Except IoError (String × BlobFormat) := do
  let key ← deriveKey password salt
  let plaintext ← (BlobCrypto.gcmDecrypt key nonce ciphertext).mapError
    fun e => ⟨.invalidData, "Decryption failed (wrong PIN?): " ++ e⟩
  match fromUtf8 plaintext with
  | some plaintext => return (plaintext, format)
  | none => .error ⟨.invalidData, "Decrypted data is not valid UTF-8"⟩

/-- `decrypt_with_format`. -/
def decryptWithFormat (password encrypted : List UInt8) :
    Except IoError (String × BlobFormat) := do
  let (salt, format, afterSalt) ← splitSalt encrypted
  if afterSalt.length < nonceLen then
    .error ⟨.invalidData, "Encrypted data too short for nonce"⟩
  else
    openSealed password salt (afterSalt.take nonceLen) (afterSalt.drop nonceLen) format

/-- `decrypt`. -/
def decrypt (password encrypted : List UInt8) : Except IoError String :=
  (decryptWithFormat password encrypted).map Prod.fst

/-- A PIN opens a blob to a plaintext. -/
def Opens (pin blob : List UInt8) (plaintext : String) : Prop :=
  decrypt pin blob = .ok plaintext

instance (pin blob : List UInt8) (plaintext : String) : Decidable (Opens pin blob plaintext) :=
  decidable_of_iff ((decrypt pin blob).toOption = some plaintext) <| by
    cases h : decrypt pin blob <;> simp [Opens, h, Except.toOption]

/-- What the crates promise about the PINs in `pins`. -/
structure Authenticated (pins : Set (List UInt8)) : Prop where
  opens : ∀ {key nonce plaintext ciphertext},
    BlobCrypto.gcmEncrypt key nonce plaintext = .ok ciphertext →
    BlobCrypto.gcmDecrypt key nonce ciphertext = .ok plaintext
  refuses : ∀ {p q salt key key' nonce plaintext ciphertext}, p ∈ pins → q ∈ pins → q ≠ p →
    BlobCrypto.scrypt p salt = .ok key → BlobCrypto.scrypt q salt = .ok key' →
    BlobCrypto.gcmEncrypt key nonce plaintext = .ok ciphertext →
    ∀ other, BlobCrypto.gcmDecrypt key' nonce ciphertext ≠ .ok other

/-- The parts of a blob that `encrypt` wrote. -/
theorem encrypt_eq_ok {random : Random} {password : List UInt8} {plaintext : String}
    {blob : List UInt8} (h : encrypt random password plaintext = .ok blob) :
    ∃ key ciphertext, BlobCrypto.scrypt password random.salt.1 = .ok key ∧
      BlobCrypto.gcmEncrypt key random.nonce.1 (asBytes plaintext) = .ok ciphertext ∧
      blob = formatV2 :: (random.salt.1 ++ (random.nonce.1 ++ ciphertext)) := by
  unfold encrypt deriveKey at h
  cases hkey : BlobCrypto.scrypt password random.salt.1 with
  | error e => simp [hkey, Except.mapError, bind, Except.bind] at h
  | ok key =>
    cases hc : BlobCrypto.gcmEncrypt key random.nonce.1 (asBytes plaintext) with
    | error e => simp [hkey, hc, Except.mapError, bind, Except.bind] at h
    | ok ciphertext =>
      simp [hkey, hc, Except.mapError, bind, Except.bind, pure, Except.pure] at h
      exact ⟨key, ciphertext, rfl, hc, h.symm⟩

omit [BlobCrypto] in
/-- Reading the salt of a v2 blob. -/
theorem splitSalt_v2 (salt : Bytes.Fixed v2SaltLen) (rest : List UInt8) :
    splitSalt (formatV2 :: (salt.1 ++ rest)) = .ok (salt.1, .v2, rest) := by
  have hlen : ¬(salt.1 ++ rest).length < v2SaltLen := by
    rw [List.length_append, salt.2]
    omega
  rw [splitSalt, if_neg (by decide), if_pos rfl, if_neg hlen, List.take_left' salt.2,
    List.drop_left' salt.2]

/-- Opening a v2 blob. -/
theorem decryptWithFormat_v2 (password : List UInt8) (salt : Bytes.Fixed v2SaltLen)
    (nonce : Bytes.Fixed nonceLen) (ciphertext : List UInt8) :
    decryptWithFormat password (formatV2 :: (salt.1 ++ (nonce.1 ++ ciphertext))) =
      openSealed password salt.1 nonce.1 ciphertext .v2 := by
  have hlen : ¬(nonce.1 ++ ciphertext).length < nonceLen := by
    rw [List.length_append, nonce.2]
    omega
  rw [decryptWithFormat, splitSalt_v2]
  simp only [bind, Except.bind, if_neg hlen, List.take_left' nonce.2, List.drop_left' nonce.2]

/-- **What was sealed under a PIN opens under it, as a v2 blob.** -/
theorem Authenticated.decrypt_encrypt {pins : Set (List UInt8)} (hauth : Authenticated pins)
    {random : Random} {pin : List UInt8} {plaintext : String} {blob : List UInt8}
    (h : encrypt random pin plaintext = .ok blob) :
    decryptWithFormat pin blob = .ok (plaintext, .v2) := by
  obtain ⟨key, ciphertext, hkey, hc, rfl⟩ := encrypt_eq_ok h
  rw [decryptWithFormat_v2, openSealed, deriveKey, hkey]
  simp only [bind, Except.bind, Except.mapError, hauth.opens hc, fromUtf8_asBytes, pure,
    Except.pure]

/-- **What was sealed under a PIN opens under no other.** -/
theorem Authenticated.not_opens {pins : Set (List UInt8)} (hauth : Authenticated pins)
    {random : Random} {p q : List UInt8} {plaintext other : String} {blob : List UInt8}
    (hp : p ∈ pins) (hq : q ∈ pins) (hne : q ≠ p) (h : encrypt random p plaintext = .ok blob) :
    ¬Opens q blob other := by
  obtain ⟨key, ciphertext, hkey, hc, rfl⟩ := encrypt_eq_ok h
  rw [Opens, decrypt, decryptWithFormat_v2, openSealed, deriveKey]
  cases hkey' : BlobCrypto.scrypt q random.salt.1 with
  | error e => simp [Except.mapError, bind, Except.bind, Except.map]
  | ok key' =>
    cases hopen : BlobCrypto.gcmDecrypt key' random.nonce.1 ciphertext with
    | error e => simp [hopen, Except.mapError, bind, Except.bind, Except.map]
    | ok m => exact absurd hopen (hauth.refuses hp hq hne hkey hkey' hc m)

end

/-! ## A plain cipher, to evaluate with -/

/-- A PIN padded to a key. -/
def plainKey (pin : List UInt8) : Bytes.Fixed 32 :=
  ⟨(pin ++ List.replicate 32 0).take 32, by simp⟩

/-- The key in front of the plaintext. -/
@[reducible] def plainCrypto : BlobCrypto where
  scrypt pin _ := .ok (plainKey pin)
  gcmEncrypt key _ plaintext := .ok (key.1 ++ plaintext)
  gcmDecrypt key _ ciphertext :=
    if ciphertext.take 32 = key.1 then .ok (ciphertext.drop 32) else .error "aead::Error"

/-- The plain cipher keeps its promises to PINs that give different keys. -/
theorem plainCrypto_authenticated {pins : Set (List UInt8)} (hpins : Set.InjOn plainKey pins) :
    letI := plainCrypto
    Authenticated pins := by
  refine @Authenticated.mk plainCrypto _ ?_ ?_
  · intro key nonce plaintext ciphertext h
    cases h
    change (if (key.1 ++ plaintext).take 32 = key.1 then Except.ok ((key.1 ++ plaintext).drop 32)
      else .error _) = _
    rw [List.take_left' key.2, if_pos rfl, List.drop_left' key.2]
  · intro p q salt key key' nonce plaintext ciphertext hp hq hne hkey hkey' hc other hopen
    cases hkey
    cases hkey'
    cases hc
    have hkeys : plainKey p ≠ plainKey q := fun heq => hne (hpins hp hq heq).symm
    change (if ((plainKey p).1 ++ plaintext).take 32 = (plainKey q).1 then _ else _) = _ at hopen
    rw [List.take_left' (plainKey p).2, if_neg fun heq => hkeys (Subtype.ext heq)] at hopen
    cases hopen

/-- A v1 blob of the plain cipher. -/
def plainV1 (pin : List UInt8) (plaintext : String) : List UInt8 :=
  legacySaltLen ::
    (List.replicate 22 0x41 ++ List.replicate nonceLen 0 ++ (plainKey pin).1 ++ asBytes plaintext)

/-- A v2 blob of the plain cipher. -/
def plainV2 (pin : List UInt8) (plaintext : String) : List UInt8 :=
  formatV2 ::
    (List.replicate v2SaltLen 0 ++ List.replicate nonceLen 0 ++ (plainKey pin).1 ++
      asBytes plaintext)

/-- Salt and nonce of zeros. -/
def plainRandom : Random := ⟨Bytes.zeros _, Bytes.zeros _⟩

end Crypto

end Russignol
