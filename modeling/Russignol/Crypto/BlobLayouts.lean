import Russignol.Crypto.Blob

/-!
# The layouts of a blob

`decrypt_with_format` with its slices as the crate takes them, each of which may be out of bounds,
and what it accepts: a blob of one of the two layouts, sealed under the PIN that opens it.
-/

namespace Russignol.Crypto

open FileStore (IoError)

/-! ## Slices that may be out of bounds -/

/-- `&bytes[lo..hi]`: none is the panic. -/
def slice (bytes : List UInt8) (lo hi : Nat) : Option (List UInt8) :=
  if lo ≤ hi ∧ hi ≤ bytes.length then some ((bytes.take hi).drop lo) else none

/-- The salt, the format and the rest as the crate slices them, with an error or with a panic. -/
def sliceSalt (encrypted : List UInt8) :
    ExceptT IoError Option (List UInt8 × BlobFormat × List UInt8) :=
  match encrypted.head? with
  | none => throw ⟨.invalidData, "Encrypted data is empty"⟩
  | some versionByte =>
    if versionByte = legacySaltLen then
      let saltEnd := 1 + legacySaltLen.toNat
      if encrypted.length < saltEnd then
        throw ⟨.invalidData, "Encrypted data too short for legacy salt"⟩
      else do
        let salt ← liftM (slice encrypted 1 saltEnd)
        let afterSalt ← liftM (slice encrypted saltEnd encrypted.length)
        return (salt, .v1Legacy, afterSalt)
    else if versionByte = formatV2 then
      let saltEnd := 1 + v2SaltLen
      if encrypted.length < saltEnd then
        throw ⟨.invalidData, "Encrypted data too short for v2 salt"⟩
      else do
        let salt ← liftM (slice encrypted 1 saltEnd)
        let afterSalt ← liftM (slice encrypted saltEnd encrypted.length)
        return (salt, .v2, afterSalt)
    else throw ⟨.invalidData, "unknown format version"⟩

/-- `decrypt_with_format` as the crate slices the blob. -/
def sliceAndDecrypt [BlobCrypto] (password encrypted : List UInt8) :
    ExceptT IoError Option (String × BlobFormat) := do
  let (salt, format, afterSalt) ← sliceSalt encrypted
  if afterSalt.length < nonceLen then
    throw ⟨.invalidData, "Encrypted data too short for nonce"⟩
  else do
    let nonce ← liftM (slice afterSalt 0 nonceLen)
    let ciphertext ← liftM (slice afterSalt nonceLen afterSalt.length)
    ExceptT.mk (some (openSealed password salt nonce ciphertext format))

/-- A slice that ends in the bytes. -/
theorem slice_of_le {bytes : List UInt8} {lo hi : Nat} (hlo : lo ≤ hi) (hhi : hi ≤ bytes.length) :
    slice bytes lo hi = some ((bytes.take hi).drop lo) :=
  if_pos ⟨hlo, hhi⟩

/-- A slice to the end. -/
theorem slice_length {bytes : List UInt8} {lo : Nat} (hlo : lo ≤ bytes.length) :
    slice bytes lo bytes.length = some (bytes.drop lo) := by
  rw [slice_of_le hlo (Nat.le_refl _), List.take_length]

/-- The salt behind the version byte. -/
theorem slice_one_cons {version : UInt8} {rest : List UInt8} {n : Nat} (h : n ≤ rest.length) :
    slice (version :: rest) 1 (1 + n) = some (rest.take n) := by
  rw [slice_of_le (by omega) (by rw [List.length_cons]; omega), Nat.add_comm, List.take_succ_cons,
    List.drop_one, List.tail_cons]

/-- What is behind the salt. -/
theorem slice_cons_length {version : UInt8} {rest : List UInt8} {n : Nat} (h : n ≤ rest.length) :
    slice (version :: rest) (1 + n) (version :: rest).length = some (rest.drop n) := by
  rw [slice_length (by rw [List.length_cons]; omega), Nat.add_comm, List.drop_succ_cons]

/-- **The slices around the salt are in bounds**, whatever the bytes. -/
theorem sliceSalt_eq (encrypted : List UInt8) :
    sliceSalt encrypted = ExceptT.mk (some (splitSalt encrypted)) := by
  cases encrypted with
  | nil => rfl
  | cons version rest =>
    have hshort : ∀ n, (version :: rest).length < 1 + n ↔ rest.length < n := by
      intro n
      rw [List.length_cons]
      omega
    simp only [sliceSalt, splitSalt, List.head?_cons, hshort]
    split
    · split
      · rfl
      · next hlen =>
        rw [slice_one_cons (by omega), slice_cons_length (by omega)]
        rfl
    · split
      · split
        · rfl
        · next hlen =>
          rw [slice_one_cons (by omega), slice_cons_length (by omega)]
          rfl
      · rfl

/-- **No slice is out of bounds**, whatever the bytes. -/
theorem sliceAndDecrypt_eq [BlobCrypto] (password encrypted : List UInt8) :
    sliceAndDecrypt password encrypted =
      ExceptT.mk (some (decryptWithFormat password encrypted)) := by
  rw [sliceAndDecrypt, sliceSalt_eq, decryptWithFormat]
  cases splitSalt encrypted with
  | error e => rfl
  | ok parts =>
    obtain ⟨salt, format, afterSalt⟩ := parts
    change (if afterSalt.length < nonceLen then _ else _) = ExceptT.mk (some (if _ then _ else _))
    split
    · rfl
    · next hlen =>
      rw [slice_of_le (Nat.zero_le _) (by omega), slice_length (by omega), List.drop_zero]
      rfl

/-! ## The two layouts -/

/-- The version byte of a layout. -/
def BlobFormat.versionByte : BlobFormat → UInt8
  | .v1Legacy => legacySaltLen
  | .v2 => formatV2

/-- How long the salt of a layout is. -/
def BlobFormat.saltLen : BlobFormat → Nat
  | .v1Legacy => legacySaltLen.toNat
  | .v2 => v2SaltLen

/-- What a blob is made of. -/
structure Parts where
  format : BlobFormat
  salt : Bytes.Fixed format.saltLen
  nonce : Bytes.Fixed nonceLen
  ciphertext : List UInt8

/-- The blob. -/
def Parts.bytes (parts : Parts) : List UInt8 :=
  parts.format.versionByte :: (parts.salt.1 ++ (parts.nonce.1 ++ parts.ciphertext))

/-- The version byte tells the layouts apart. -/
theorem BlobFormat.versionByte_inj {format other : BlobFormat}
    (h : format.versionByte = other.versionByte) : format = other := by
  cases format <;> cases other <;> first | rfl | exact absurd h (by decide)

/-- A blob has one layout, and is made of one salt, nonce and ciphertext. -/
theorem Parts.bytes_inj {parts other : Parts} (h : parts.bytes = other.bytes) : parts = other := by
  obtain ⟨format, salt, nonce, ciphertext⟩ := parts
  obtain ⟨format', salt', nonce', ciphertext'⟩ := other
  obtain ⟨hversion, hrest⟩ := List.cons.inj h
  cases BlobFormat.versionByte_inj hversion
  obtain ⟨hsalt, hrest⟩ := List.append_inj hrest (salt.2.trans salt'.2.symm)
  obtain ⟨hnonce, hciphertext⟩ := List.append_inj hrest (nonce.2.trans nonce'.2.symm)
  cases Subtype.ext hsalt
  cases Subtype.ext hnonce
  cases hciphertext
  rfl

/-- Splitting a blob of a layout. -/
theorem splitSalt_layout (format : BlobFormat) (salt : Bytes.Fixed format.saltLen)
    (rest : List UInt8) :
    splitSalt (format.versionByte :: (salt.1 ++ rest)) = .ok (salt.1, format, rest) := by
  cases format with
  | v1Legacy =>
    have hlen : ¬(salt.1 ++ rest).length < legacySaltLen.toNat := by
      rw [List.length_append, salt.2]
      exact Nat.not_lt.mpr (Nat.le_add_right _ _)
    have htake : (salt.1 ++ rest).take legacySaltLen.toNat = salt.1 := List.take_left' salt.2
    have hdrop : (salt.1 ++ rest).drop legacySaltLen.toNat = rest := List.drop_left' salt.2
    rw [BlobFormat.versionByte, splitSalt, if_pos rfl, if_neg hlen, htake, hdrop]
  | v2 => exact splitSalt_v2 salt rest

/-- Only the bytes of a layout are split. -/
theorem splitSalt_eq_ok {encrypted salt afterSalt : List UInt8} {format : BlobFormat}
    (h : splitSalt encrypted = .ok (salt, format, afterSalt)) :
    salt.length = format.saltLen ∧ encrypted = format.versionByte :: (salt ++ afterSalt) := by
  cases encrypted with
  | nil => cases h
  | cons version rest =>
    rw [splitSalt] at h
    split at h
    · next hversion =>
      split at h
      · cases h
      · next hlen =>
        cases h
        refine ⟨List.length_take_of_le (by omega), ?_⟩
        rw [List.take_append_drop, hversion, BlobFormat.versionByte]
    · split at h
      · next hversion =>
        split at h
        · cases h
        · next hlen =>
          cases h
          refine ⟨List.length_take_of_le (by omega), ?_⟩
          rw [List.take_append_drop, hversion, BlobFormat.versionByte]
      · cases h

section
variable [BlobCrypto]

/-- The AEAD opens exactly what it sealed. -/
def OpensWhatItSealed : Prop :=
  ∀ {key nonce plaintext ciphertext}, BlobCrypto.gcmDecrypt key nonce ciphertext = .ok plaintext ↔
    BlobCrypto.gcmEncrypt key nonce plaintext = .ok ciphertext

/-- A blob as an encryptor of its layout seals it under a PIN. -/
def Parts.Seals (parts : Parts) (pin : List UInt8) (plaintext : String) : Prop :=
  ∃ key, BlobCrypto.scrypt pin parts.salt.1 = .ok key ∧
    BlobCrypto.gcmEncrypt key parts.nonce.1 (asBytes plaintext) = .ok parts.ciphertext

/-- Opening a blob of a layout. -/
theorem decryptWithFormat_bytes (pin : List UInt8) (parts : Parts) :
    decryptWithFormat pin parts.bytes =
      openSealed pin parts.salt.1 parts.nonce.1 parts.ciphertext parts.format := by
  have hlen : ¬(parts.nonce.1 ++ parts.ciphertext).length < nonceLen := by
    rw [List.length_append, parts.nonce.2]
    omega
  rw [decryptWithFormat, Parts.bytes, splitSalt_layout]
  simp only [bind, Except.bind, if_neg hlen, List.take_left' parts.nonce.2,
    List.drop_left' parts.nonce.2]

/-- What is opened is a blob of the reported layout. -/
theorem decryptWithFormat_eq_ok {pin encrypted : List UInt8} {plaintext : String}
    {format : BlobFormat} (h : decryptWithFormat pin encrypted = .ok (plaintext, format)) :
    ∃ parts : Parts, parts.bytes = encrypted ∧
      openSealed pin parts.salt.1 parts.nonce.1 parts.ciphertext parts.format =
        .ok (plaintext, format) := by
  rw [decryptWithFormat] at h
  cases hsplit : splitSalt encrypted with
  | error e =>
    rw [hsplit] at h
    cases h
  | ok split =>
    obtain ⟨salt, format', afterSalt⟩ := split
    obtain ⟨hsalt, rfl⟩ := splitSalt_eq_ok hsplit
    rw [hsplit] at h
    change (if afterSalt.length < nonceLen then _ else _) = _ at h
    split at h
    · cases h
    · next hlen =>
      refine ⟨⟨format', ⟨salt, hsalt⟩, ⟨afterSalt.take nonceLen,
        List.length_take_of_le (by omega)⟩, afterSalt.drop nonceLen⟩, ?_, h⟩
      rw [Parts.bytes, List.take_append_drop]

omit [BlobCrypto] in
/-- A string that is read back is the one that was written. -/
theorem fromUtf8_eq_some {bytes : List UInt8} {s : String} (h : fromUtf8 bytes = some s) :
    asBytes s = bytes := by
  unfold fromUtf8 String.fromUTF8? at h
  split at h
  · cases h
    rfl
  · cases h

/-- What opens a parsed blob. -/
theorem openSealed_eq_ok_iff (hopens : OpensWhatItSealed) {pin salt nonce ciphertext : List UInt8}
    {reported format : BlobFormat} {plaintext : String} :
    openSealed pin salt nonce ciphertext reported = .ok (plaintext, format) ↔
      reported = format ∧ ∃ key, BlobCrypto.scrypt pin salt = .ok key ∧
        BlobCrypto.gcmEncrypt key nonce (asBytes plaintext) = .ok ciphertext := by
  rw [openSealed, deriveKey]
  cases hkey : BlobCrypto.scrypt pin salt with
  | error e =>
    constructor
    · intro h
      cases h
    · rintro ⟨-, key, h, -⟩
      cases h
  | ok key =>
    cases hplain : BlobCrypto.gcmDecrypt key nonce ciphertext with
    | error e =>
      constructor
      · intro h
        simp [Except.mapError, bind, Except.bind, hplain] at h
      · rintro ⟨-, key', h, hseal⟩
        cases h
        rw [hopens.mpr hseal] at hplain
        cases hplain
    | ok bytes =>
      simp only [Except.mapError, bind, Except.bind, hplain]
      constructor
      · intro h
        cases hutf : fromUtf8 bytes with
        | none =>
          rw [hutf] at h
          cases h
        | some s =>
          rw [hutf] at h
          cases h
          rw [fromUtf8_eq_some hutf]
          exact ⟨rfl, key, rfl, hopens.mp hplain⟩
      · rintro ⟨rfl, key', h, hseal⟩
        cases h
        rw [hopens.mpr hseal] at hplain
        cases hplain
        rw [fromUtf8_asBytes]
        rfl

/-- **What a PIN opens** is what an encryptor of the reported layout seals under it. -/
theorem decryptWithFormat_eq_ok_iff (hopens : OpensWhatItSealed) {pin encrypted : List UInt8}
    {plaintext : String} {format : BlobFormat} :
    decryptWithFormat pin encrypted = .ok (plaintext, format) ↔
      ∃ parts : Parts, parts.bytes = encrypted ∧ parts.format = format ∧
        parts.Seals pin plaintext := by
  constructor
  · intro h
    obtain ⟨parts, hbytes, hopen⟩ := decryptWithFormat_eq_ok h
    exact ⟨parts, hbytes, (openSealed_eq_ok_iff hopens).mp hopen⟩
  · rintro ⟨parts, rfl, hformat, hseals⟩
    rw [decryptWithFormat_bytes]
    exact (openSealed_eq_ok_iff hopens).mpr ⟨hformat, hseals⟩

/-- The parts of what `encrypt` wrote. -/
theorem encrypt_parts {random : Random} {pin : List UInt8} {plaintext : String}
    {blob : List UInt8} (h : encrypt random pin plaintext = .ok blob) :
    ∃ parts : Parts, parts.bytes = blob ∧ parts.format = .v2 ∧ parts.Seals pin plaintext := by
  obtain ⟨key, ciphertext, hkey, hc, rfl⟩ := encrypt_eq_ok h
  exact ⟨⟨.v2, random.salt, random.nonce, ciphertext⟩, rfl, rfl, key, hkey, hc⟩

/-- **Blobs.** What `encrypt` wrote opens under its PIN as v2. Whatever the bytes, no slice is out of
bounds; they have one layout at most, and with none they are refused; a blob of one layout never
opens as the other, and opens exactly to what was sealed under the PIN in its own. -/
theorem blob_format (hopens : OpensWhatItSealed) :
    (∀ random pin plaintext blob, encrypt random pin plaintext = .ok blob →
      decryptWithFormat pin blob = .ok (plaintext, .v2)) ∧
    (∀ pin encrypted, sliceAndDecrypt pin encrypted =
      ExceptT.mk (some (decryptWithFormat pin encrypted))) ∧
    (∀ parts other : Parts, parts.bytes = other.bytes → parts = other) ∧
    (∀ pin encrypted, (∀ parts : Parts, parts.bytes ≠ encrypted) →
      ∃ e, decryptWithFormat pin encrypted = .error e) ∧
    ∀ pin (parts : Parts) plaintext format,
      decryptWithFormat pin parts.bytes = .ok (plaintext, format) ↔
        parts.format = format ∧ parts.Seals pin plaintext := by
  refine ⟨?_, sliceAndDecrypt_eq, fun _ _ => Parts.bytes_inj, ?_, ?_⟩
  · intro random pin plaintext blob h
    exact (decryptWithFormat_eq_ok_iff hopens).mpr (encrypt_parts h)
  · intro pin encrypted hnone
    cases hopen : decryptWithFormat pin encrypted with
    | error e => exact ⟨e, rfl⟩
    | ok opened =>
      obtain ⟨parts, hbytes, -⟩ := decryptWithFormat_eq_ok hopen
      exact absurd hbytes (hnone parts)
  · intro pin parts plaintext format
    rw [decryptWithFormat_eq_ok_iff hopens]
    constructor
    · rintro ⟨other, hbytes, hformat, hseals⟩
      cases Parts.bytes_inj hbytes
      exact ⟨hformat, hseals⟩
    · rintro ⟨hformat, hseals⟩
      exact ⟨parts, rfl, hformat, hseals⟩

end

/-- The plain cipher opens exactly what it sealed. -/
theorem plainCrypto_opensWhatItSealed :
    letI := plainCrypto
    OpensWhatItSealed := by
  intro key nonce plaintext ciphertext
  change (if ciphertext.take 32 = key.1 then Except.ok (ciphertext.drop 32) else .error _) =
    .ok plaintext ↔ Except.ok (key.1 ++ plaintext) = .ok ciphertext
  constructor
  · intro h
    split at h
    · next htake =>
      cases h
      rw [← htake, List.take_append_drop]
    · cases h
  · intro h
    cases h
    rw [List.take_left' key.2, if_pos rfl, List.drop_left' key.2]

section
attribute [local instance] plainCrypto

/-- A v1 blob, which opens as v1, and a blob of the encryptor, which opens as v2. -/
theorem blob_format_plain :
    decryptWithFormat [1, 2] (plainV1 [1, 2] "keys") = .ok ("keys", .v1Legacy) ∧
      ∃ blob, encrypt plainRandom [1, 2] "keys" = .ok blob ∧
        decryptWithFormat [1, 2] blob = .ok ("keys", .v2) := by
  obtain ⟨hround, -, -, -, hexact⟩ := blob_format plainCrypto_opensWhatItSealed
  refine ⟨?_, _, rfl, hround plainRandom [1, 2] "keys" _ rfl⟩
  exact (hexact [1, 2] ⟨.v1Legacy, ⟨List.replicate 22 0x41, rfl⟩, Bytes.zeros _,
    (plainKey [1, 2]).1 ++ asBytes "keys"⟩ "keys" .v1Legacy).mpr ⟨rfl, plainKey [1, 2], rfl, rfl⟩

end

end Russignol.Crypto
