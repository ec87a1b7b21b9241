import Russignol.Crypto.Blob
import Russignol.Host.ReadBack
import Russignol.Host.Releases
import Russignol.Rpi.ImageInfo

/-!
# Which image is flashed

The release signature (`libs/release-signature/src/lib.rs`, `host-utility/src/release_signature.rs`)
and the gate that every image passes before it is written to a card (`host-utility/src/image.rs`).
The verdict goes with the image into the flash manifest, and the device shows it: what it shows as
verified is an image whose digest the maintainer has signed, and nothing else is
(`flash_is_trusted`).

Ed25519 is another crate (`Ed25519`). Files that are read twice are not changed in between.
-/

namespace Russignol

open Bytes TextCodec

/-! ## The signature of a digest -/

/-- What is called of `ed25519_dalek`. -/
class Ed25519 where
  /-- `SigningKey::from_bytes` and `verifying_key`. -/
  publicKey : Fixed 32 → Fixed 32
  /-- `SigningKey::sign`. -/
  sign : Fixed 32 → List UInt8 → Fixed 64
  /-- `VerifyingKey::from_bytes` succeeds. -/
  validKey : Fixed 32 → Bool
  /-- `verify_strict` succeeds. -/
  verifyStrict : Fixed 32 → List UInt8 → Fixed 64 → Bool

/-- A signature verifies under the public key of its seed. -/
class LawfulEd25519 [Ed25519] : Prop where
  valid_publicKey : ∀ seed, Ed25519.validKey (Ed25519.publicKey seed) = true
  verify_sign : ∀ seed msg,
    Ed25519.verifyStrict (Ed25519.publicKey seed) msg (Ed25519.sign seed msg) = true

/-- A digest is 32 bytes in hexadecimal. -/
class LawfulSha256 [Sha256] : Prop where
  hexDigest_eq : ∀ bytes, ∃ digest : Fixed 32, (Sha256.hexDigest bytes).toList = hexEncode digest.1

namespace ReleaseSignature

/-- `SignatureError`. -/
inductive SignatureError
  | malformedDigest
  | malformedSignature
  | malformedKey
  | verificationFailed
  deriving DecidableEq, Repr

/-- `SignatureError`, displayed. -/
def SignatureError.toString : SignatureError → String
  | malformedDigest => "image hash is not a valid 32-byte SHA-256"
  | malformedSignature => "release signature is not valid 64-byte hex"
  | malformedKey => "maintainer public key is invalid"
  | verificationFailed => "release signature does not match the image — do not flash this image"

/-- `hex::decode` into an array. -/
def decodeFixed (n : Nat) (hex : String) : Option (Fixed n) :=
  match hexDecode hex.toList with
  | none => none
  | some bytes => if h : bytes.length = n then some ⟨bytes, h⟩ else none

/-- `message`. -/
def message (imageSha256Hex : String) : Except SignatureError (Fixed 32) :=
  match decodeFixed 32 imageSha256Hex with
  | none => .error .malformedDigest
  | some digest => .ok digest

/-- `sidecar_path`. -/
def sidecarPath (image : String) : String := image ++ ".sig"

section
variable [Ed25519]

/-- `sign`. -/
def sign (seed : Fixed 32) (imageSha256Hex : String) : Except SignatureError String :=
  (message imageSha256Hex).map fun digest =>
    String.ofList (hexEncode (Ed25519.sign seed digest.1).1)

/-- `verify`. -/
def verify (pubkey : Fixed 32) (imageSha256Hex signatureHex : String) :
    Except SignatureError Unit := do
  let digest ← message imageSha256Hex
  match decodeFixed 64 signatureHex with
  | none => throw .malformedSignature
  | some signature =>
    if !Ed25519.validKey pubkey then throw .malformedKey
    else if Ed25519.verifyStrict pubkey digest.1 signature then return ()
    else throw .verificationFailed

omit [Ed25519] in
/-- What is written in hexadecimal is read back. -/
theorem decodeFixed_hexEncode {n : Nat} (bytes : Fixed n) :
    decodeFixed n (String.ofList (hexEncode bytes.1)) = some bytes := by
  rw [decodeFixed, String.toList_ofList, hexDecode_hexEncode]
  exact dif_pos bytes.2

/-- A signature is 64 bytes in hexadecimal. -/
theorem toList_sign {seed : Fixed 32} {digestHex signature : String}
    (h : sign seed digestHex = .ok signature) :
    ∃ bytes : Fixed 64, signature.toList = hexEncode bytes.1 := by
  unfold sign at h
  cases hmessage : message digestHex with
  | error e =>
    rw [hmessage] at h
    cases h
  | ok digest =>
    rw [hmessage] at h
    cases h
    exact ⟨Ed25519.sign seed digest.1, String.toList_ofList⟩

/-- **What is signed is verified.** -/
theorem verify_sign [LawfulEd25519] {seed : Fixed 32} {digestHex signature : String}
    (h : sign seed digestHex = .ok signature) :
    verify (Ed25519.publicKey seed) digestHex signature = .ok () := by
  unfold sign at h
  cases hmessage : message digestHex with
  | error e =>
    rw [hmessage] at h
    cases h
  | ok digest =>
    rw [hmessage] at h
    cases h
    simp only [verify, hmessage, bind, Except.bind, decodeFixed_hexEncode,
      LawfulEd25519.valid_publicKey, LawfulEd25519.verify_sign, Bool.not_true, Bool.false_eq_true,
      if_false, if_true]
    rfl

/-- A text is a signature of a digest, under a public key. -/
def Verifies (pubkey : Fixed 32) (imageSha256Hex signatureHex : String) : Prop :=
  ∃ (digest : Fixed 32) (signature : Fixed 64), decodeFixed 32 imageSha256Hex = some digest ∧
    decodeFixed 64 signatureHex = some signature ∧ Ed25519.validKey pubkey = true ∧
    Ed25519.verifyStrict pubkey digest.1 signature = true

/-- What is verified is a signature. -/
theorem verify_eq_ok {pubkey : Fixed 32} {imageSha256Hex signatureHex : String} {u : Unit} :
    verify pubkey imageSha256Hex signatureHex = .ok u ↔
      Verifies pubkey imageSha256Hex signatureHex := by
  unfold verify message Verifies
  cases decodeFixed 32 imageSha256Hex with
  | none =>
    refine ⟨fun h => (by cases h), ?_⟩
    rintro ⟨_, _, h, -⟩
    cases h
  | some digest =>
    cases decodeFixed 64 signatureHex with
    | none =>
      refine ⟨fun h => (by cases h), ?_⟩
      rintro ⟨_, _, -, h, -⟩
      cases h
    | some signature =>
      simp only [bind, Except.bind, Option.some.injEq]
      cases hvalid : Ed25519.validKey pubkey with
      | false =>
        refine ⟨fun h => (by cases h), ?_⟩
        rintro ⟨_, _, -, -, h, -⟩
        cases h
      | true =>
        cases hverify : Ed25519.verifyStrict pubkey digest.1 signature with
        | false =>
          refine ⟨fun h => (by cases h), ?_⟩
          rintro ⟨_, _, rfl, rfl, -, h⟩
          cases hverify.symm.trans h
        | true => exact ⟨fun _ => ⟨digest, signature, rfl, rfl, rfl, hverify⟩, fun _ => rfl⟩

end

end ReleaseSignature

namespace Host

open ReleaseSignature

/-! ## The policy -/

/-- `MAINTAINER_PUBKEY`. -/
def maintainerPubkey : Option (Fixed 32) :=
  some ⟨[0x92, 0x4e, 0xa4, 0x05, 0x2e, 0x28, 0xf7, 0xdc, 0xc5, 0x97, 0xde, 0xb6, 0xc3, 0xfd, 0x37,
    0x03, 0xc7, 0x37, 0x70, 0x11, 0x89, 0x9c, 0xeb, 0xc3, 0x62, 0x93, 0xfa, 0x9f, 0x04, 0xd8, 0x12,
    0x62], rfl⟩

/-- `ReleaseSignatureError`. -/
inductive ReleaseSignatureError
  | signature (e : SignatureError)
  | unsignedRefused
  deriving DecidableEq, Repr

/-- `ReleaseSignatureError`, displayed. -/
def ReleaseSignatureError.toString : ReleaseSignatureError → String
  | signature e => e.toString
  | unsignedRefused =>
    "image is not maintainer-signed; re-run with --allow-unsigned to flash it anyway"

/-- `SignatureVerdict`. -/
inductive SignatureVerdict
  | verified
  | unavailable
  | unsignedAllowed
  deriving DecidableEq, Repr

/-- `signed_verdict`. -/
def signedVerdict : SignatureVerdict → String
  | .verified => "verified"
  | .unsignedAllowed => "unsigned"
  | .unavailable => "unavailable"

section
variable [Ed25519]

/-- `check_release_signature`. -/
def checkReleaseSignature (maintainerPubkey : Option (Fixed 32)) (imageSha256Hex : String)
    (signatureHex : Option String) (allowUnsigned : Bool) :
    Except ReleaseSignatureError SignatureVerdict :=
  match maintainerPubkey with
  | none => .ok .unavailable
  | some pubkey =>
    match signatureHex with
    | some sig =>
      match verify pubkey imageSha256Hex sig with
      | .error e => .error (.signature e)
      | .ok () => .ok .verified
    | none => if allowUnsigned then .ok .unsignedAllowed else .error .unsignedRefused

/-- `enforce_release_signature`. -/
def enforceReleaseSignature (imageSha256 : String) (signature : Option String)
    (allowUnsigned : Bool) : Except String String :=
  match checkReleaseSignature maintainerPubkey imageSha256 signature allowUnsigned with
  | .error e => .error ("Refusing to flash: " ++ e.toString)
  | .ok verdict => .ok (signedVerdict verdict)

end

/-! ## The two sources of an image -/

/-- `FlashMetadata`. -/
structure FlashMetadata where
  imageSha256 : String
  imageVersion : Option String
  channel : Option String
  signed : Option String
  deriving DecidableEq, Repr

/-- The files of the host, by their paths, with the downloaded images beside them, by their URLs. -/
structure HostFiles where
  file : String → Option (List UInt8)
  cached : String → Option (List UInt8)

/-- `resolve_local_signature`. -/
def resolveLocalSignature (host : HostFiles) (image : String) (explicit : Option String) :
    Except String (Option String) :=
  let read (path : String) : Except String (Option String) :=
    match (host.file path).bind Crypto.fromUtf8 with
    | none => .error ("Failed to read signature file " ++ path)
    | some content => .ok (some (String.ofList (TezosEncrypt.trim content.toList)))
  match explicit with
  | some path => read path
  | none => if (host.file (sidecarPath image)).isNone then .ok none else read (sidecarPath image)

/-- `DownloadInfo`. -/
structure DownloadInfo where
  url : String
  checksum : Option String
  compressedSize : Option Nat
  uncompressedSize : Option Nat
  version : Option String
  channel : Option String
  signature : Option String
  deriving DecidableEq, Repr

/-- `DownloadInfo::from_custom_url`. -/
def DownloadInfo.fromCustomUrl (url : String) : DownloadInfo :=
  ⟨url, none, none, none, none, none, none⟩

/-- `DownloadInfo::from_release`. -/
def DownloadInfo.fromRelease (url version : String) (image : ReleaseImageInfo) :
    DownloadInfo where
  url
  checksum := some image.sha256
  compressedSize := some image.compressedSizeBytes
  uncompressedSize := some image.sizeBytes
  version := some version
  channel := some (if '-' ∈ version.toList then "beta" else "stable")
  signature := image.signature

/-- `resolve_download_info`. -/
def resolveDownloadInfo [Semver] (web : Web) (url : Option String) (includePrerelease : Bool) :
    Except String DownloadInfo :=
  match url with
  | some customUrl => .ok (.fromCustomUrl customUrl)
  | none => do
    let info ← fetchLatestVersion web includePrerelease .image
    match info.images.lookup "pi-zero" with
    | none => throw "No pi-zero image found. Use --url to specify a direct download URL."
    | some image =>
      let url ← getImageDownloadUrl info "pi-zero"
      return .fromRelease url info.version image

section
variable [Sha256]

/-- `download_file`, with its three attempts. -/
def downloadFile (web : Web) (url : String) : Except String (List UInt8) :=
  match web.download url 1 with
  | .ok data => .ok data
  | .error _ =>
    match web.download url 2 with
    | .ok data => .ok data
    | .error _ => web.download url 3

/-- `download_with_cache`, with a checksum: the content of the file it returns. -/
def downloadWithCache (host : HostFiles) (web : Web) (url checksum : String) :
    Except String (List UInt8) :=
  match (host.cached url).filter (Sha256.hexDigest · = checksum) with
  | some data => .ok data
  | none => do
    let data ← downloadFile web url
    if Sha256.hexDigest data = checksum then return data
    else
      throw ("Checksum verification failed!\nExpected: " ++ checksum ++ "\nGot:      " ++
        Sha256.hexDigest data)

variable [Ed25519]

/-- `download_and_verify_release_image`, with the content of the file. -/
def downloadAndVerifyReleaseImage (host : HostFiles) (web : Web) (dl : DownloadInfo)
    (allowUnsigned : Bool) : Except String (List UInt8 × FlashMetadata) :=
  match dl.checksum.filter (· ≠ "") with
  | none =>
    .error ("Checksum not available for this release. Cannot safely flash without " ++
      "verification.")
  | some checksum => do
    let image ← downloadWithCache host web dl.url checksum
    let imageSha256 := Sha256.hexDigest image
    if imageSha256 ≠ checksum then
      throw ("Image hash mismatch after download!\n  Expected: " ++ checksum ++
        "\n  Got:      " ++ imageSha256)
    else
      let signed ← enforceReleaseSignature imageSha256 dl.signature allowUnsigned
      return (image, ⟨imageSha256, dl.version, dl.channel, some signed⟩)

/-- What `cmd_flash` does with its image before it writes anything. -/
def verifyLocalImage (host : HostFiles) (image : String) (explicit : Option String)
    (allowUnsigned : Bool) : Except String (List UInt8 × FlashMetadata) :=
  match host.file image with
  | none => .error ("Image file not found: " ++ image)
  | some content => do
    let signature ← resolveLocalSignature host image explicit
    let imageSha256 := Sha256.hexDigest content
    let signed ← enforceReleaseSignature imageSha256 signature allowUnsigned
    return (content, ⟨imageSha256, none, none, some signed⟩)

/-- Where the image of a flash comes from: a file, with `--signature`, or a download, with `--url`
and `--beta`. -/
inductive ImageSource
  | local (image : String) (signature : Option String)
  | download (url : Option String) (includePrerelease : Bool)
  deriving DecidableEq, Repr

/-- The image that a flash writes, and its metadata. -/
def flashedImage [Semver] (host : HostFiles) (web : Web) (source : ImageSource)
    (allowUnsigned : Bool) : Except String (List UInt8 × FlashMetadata) :=
  match source with
  | .local image signature => verifyLocalImage host image signature allowUnsigned
  | .download url includePrerelease => do
    let dl ← resolveDownloadInfo web url includePrerelease
    downloadAndVerifyReleaseImage host web dl allowUnsigned

end

/-! ## The manifest -/

/-- A field that is skipped where there is none. -/
def optionalField (name : String) (value : Option String) : List (String × Json) :=
  value.toList.map fun v => (name, .str v)

/-- The fields of a `FlashManifest`, serialized. -/
def manifestFields (m : FlashManifest) : List (String × Json) :=
  ("card_id", .str m.cardId) :: ("flashed_at", .str m.flashedAt) ::
    ("host_version", .str m.hostVersion) :: ("image_sha256", .str m.imageSha256) ::
    (optionalField "image_version" m.imageVersion ++ optionalField "channel" m.channel ++
      optionalField "rootfs_sha256" m.rootfsSha256 ++ optionalField "signed" m.signed)

/-- `build_flash_manifest`. -/
def buildFlashManifest (cardId flashedAt hostVersion : String) (metadata : FlashMetadata)
    (rootfsSha256 : Option String) : FlashManifest where
  cardId
  flashedAt
  hostVersion
  imageSha256 := metadata.imageSha256
  imageVersion := metadata.imageVersion
  channel := metadata.channel
  rootfsSha256
  signed := metadata.signed

section
variable [JsonText]

/-- What `write_flash_manifest` writes. -/
def manifestText (m : FlashManifest) : String := JsonText.pretty (.obj (manifestFields m))

/-- What `read_card_id` finds in the content of the file. -/
def manifestCardId (content : Option String) : Option String :=
  (content.bind fun text =>
    (JsonText.decode "struct FlashManifest" FlashManifest.ofJson text).toOption).map (·.cardId)

/-- `read_flash_manifest` of the init script: a command substitution drops the last newlines. -/
def initFlashManifest (content : Option String) : String :=
  match content with
  | none => ""
  | some text => String.ofList (text.toList.reverse.dropWhile (· = '\n')).reverse

/-- What the signer reads of its environment. -/
def deviceManifest (content : Option String) : Option FlashManifest :=
  parseManifest (initFlashManifest content)

end

/-! ## What the gate lets through -/

section
variable [Ed25519]

/-- An image that is let through is signed, or unsigned where that is allowed. -/
theorem enforceReleaseSignature_eq_ok {imageSha256 signed : String} {signature : Option String}
    {allowUnsigned : Bool}
    (h : enforceReleaseSignature imageSha256 signature allowUnsigned = .ok signed) :
    (signed = "verified" ∧ ∃ pubkey sig, maintainerPubkey = some pubkey ∧ signature = some sig ∧
        Verifies pubkey imageSha256 sig) ∨
      signed = "unsigned" ∧ signature = none ∧ allowUnsigned = true := by
  unfold enforceReleaseSignature checkReleaseSignature maintainerPubkey at h
  cases signature with
  | none =>
    cases allowUnsigned with
    | false => cases h
    | true =>
      cases h
      exact .inr ⟨rfl, rfl, rfl⟩
  | some sig =>
    dsimp only at h
    split at h
    · rename_i e heq
      split at heq <;> cases heq
      cases h
    · rename_i verdict heq
      split at heq
      · cases heq
      · rename_i hverify
        cases heq
        cases h
        exact .inl ⟨rfl, _, sig, rfl, rfl, verify_eq_ok.1 hverify⟩

/-- A signature of the maintainer is let through. -/
theorem enforceReleaseSignature_verified {pubkey : Fixed 32} {imageSha256 sig : String}
    {allowUnsigned : Bool} (hpubkey : maintainerPubkey = some pubkey)
    (h : verify pubkey imageSha256 sig = .ok ()) :
    enforceReleaseSignature imageSha256 (some sig) allowUnsigned = .ok "verified" := by
  simp only [enforceReleaseSignature, checkReleaseSignature, hpubkey, h]
  rfl

variable [Sha256] {host : HostFiles} {web : Web} {image : List UInt8} {metadata : FlashMetadata}
  {allowUnsigned : Bool}

omit [Ed25519] in
/-- What is downloaded has the checksum. -/
theorem downloadWithCache_eq_ok {url checksum : String}
    (h : downloadWithCache host web url checksum = .ok image) :
    Sha256.hexDigest image = checksum := by
  unfold downloadWithCache at h
  split at h
  · rename_i data hcached
    cases h
    exact of_decide_eq_true (Option.filter_eq_some_iff.1 hcached).2
  · cases hdownload : downloadFile web url with
    | error e =>
      rw [hdownload] at h
      cases h
    | ok data =>
      rw [hdownload] at h
      simp only [bind, Except.bind] at h
      split at h
      · rename_i hdigest
        cases h
        exact hdigest
      · cases h

/-- The signature that an image comes with. -/
def Carries [Semver] (host : HostFiles) (web : Web) (source : ImageSource)
    (signature : Option String) : Prop :=
  match source with
  | .local image explicit => resolveLocalSignature host image explicit = .ok signature
  | .download url includePrerelease =>
    ∃ dl, resolveDownloadInfo web url includePrerelease = .ok dl ∧ dl.signature = signature

/-- The digest of an image and its verdict are in its metadata. -/
structure Gated (signature : Option String) (allowUnsigned : Bool) (image : List UInt8)
    (metadata : FlashMetadata) : Prop where
  digest : metadata.imageSha256 = Sha256.hexDigest image
  verdict : (metadata.signed = some "verified" ∧ ∃ pubkey sig, maintainerPubkey = some pubkey ∧
      signature = some sig ∧ Verifies pubkey (Sha256.hexDigest image) sig) ∨
    metadata.signed = some "unsigned" ∧ signature = none ∧ allowUnsigned = true

/-- An image that passes the gate under its own digest. -/
theorem Gated.of_enforce {signature version channel : Option String} {signed : String}
    (h : enforceReleaseSignature (Sha256.hexDigest image) signature allowUnsigned = .ok signed) :
    Gated signature allowUnsigned image
      ⟨Sha256.hexDigest image, version, channel, some signed⟩ := by
  refine ⟨rfl, ?_⟩
  rcases enforceReleaseSignature_eq_ok h with ⟨rfl, hsigned⟩ | ⟨rfl, hunsigned⟩
  · exact .inl ⟨rfl, hsigned⟩
  · exact .inr ⟨rfl, hunsigned⟩

/-- A download that is let through has the checksum of its release. -/
theorem downloadAndVerify_eq_ok {dl : DownloadInfo}
    (h : downloadAndVerifyReleaseImage host web dl allowUnsigned = .ok (image, metadata)) :
    (dl.checksum = some (Sha256.hexDigest image) ∧ Sha256.hexDigest image ≠ "") ∧
      Gated dl.signature allowUnsigned image metadata ∧ metadata.imageVersion = dl.version := by
  unfold downloadAndVerifyReleaseImage at h
  split at h
  · cases h
  · rename_i checksum hchecksum
    cases hdownload : downloadWithCache host web dl.url checksum with
    | error e =>
      rw [hdownload] at h
      cases h
    | ok data =>
      have hdigest := downloadWithCache_eq_ok hdownload
      rw [hdownload] at h
      simp only [bind, Except.bind, hdigest, ne_eq, not_true_eq_false, if_false] at h
      cases henforce : enforceReleaseSignature checksum dl.signature allowUnsigned with
      | error e =>
        rw [henforce] at h
        cases h
      | ok signed =>
        rw [henforce] at h
        cases h
        subst hdigest
        obtain ⟨hchecksum, hne⟩ := Option.filter_eq_some_iff.1 hchecksum
        exact ⟨⟨hchecksum, of_decide_eq_true hne⟩, .of_enforce henforce, rfl⟩

/-- An image file that is let through. -/
theorem verifyLocalImage_eq_ok {path : String} {explicit : Option String}
    (h : verifyLocalImage host path explicit allowUnsigned = .ok (image, metadata)) :
    host.file path = some image ∧ ∃ signature,
      resolveLocalSignature host path explicit = .ok signature ∧
      Gated signature allowUnsigned image metadata := by
  unfold verifyLocalImage at h
  split at h
  · cases h
  · rename_i content hcontent
    cases hsignature : resolveLocalSignature host path explicit with
    | error e =>
      rw [hsignature] at h
      cases h
    | ok signature =>
      rw [hsignature] at h
      simp only [bind, Except.bind] at h
      cases henforce : enforceReleaseSignature (Sha256.hexDigest content) signature
          allowUnsigned with
      | error e =>
        rw [henforce] at h
        cases h
      | ok signed =>
        rw [henforce] at h
        cases h
        exact ⟨hcontent, signature, rfl, .of_enforce henforce⟩

/-- An image of the latest release that has one, by its own checksums. -/
def OfLatestRelease [Semver] (web : Web) (includePrerelease : Bool) (image : List UInt8)
    (metadata : FlashMetadata) : Prop :=
  ∃ releases release v asset, web.releases = .ok releases ∧
    Latest releases includePrerelease .image release v ∧
    asset ∈ release.assets ∧ asset.name = imageAsset ∧
    (fetchChecksums web release.assets).lookup asset.name = some (Sha256.hexDigest image) ∧
    metadata.imageVersion.bind Semver.parse = some v

/-- **Every image that is flashed passed the gate**, and one that was downloaded is of the latest
release. -/
theorem flashedImage_eq_ok [Semver] [LawfulSemver] {source : ImageSource}
    (h : flashedImage host web source allowUnsigned = .ok (image, metadata)) :
    (∃ signature, Carries host web source signature ∧
      Gated signature allowUnsigned image metadata) ∧
    ∀ url includePrerelease, source = .download url includePrerelease →
      url = none ∧ OfLatestRelease web includePrerelease image metadata := by
  cases source with
  | «local» path explicit =>
    obtain ⟨-, signature, hsignature, hgated⟩ := verifyLocalImage_eq_ok h
    exact ⟨⟨signature, hsignature, hgated⟩, fun _ _ h => by cases h⟩
  | download url includePrerelease =>
    change (resolveDownloadInfo web url includePrerelease >>= fun dl =>
      downloadAndVerifyReleaseImage host web dl allowUnsigned) = _ at h
    obtain ⟨dl, hdl, h⟩ := bind_eq_ok h
    obtain ⟨⟨hchecksum, hne⟩, hgated, hversion⟩ := downloadAndVerify_eq_ok h
    refine ⟨⟨dl.signature, ⟨dl, hdl, rfl⟩, hgated⟩, ?_⟩
    rintro url' includePrerelease' h
    cases h
    cases url with
    | some customUrl =>
      cases hdl
      cases hchecksum
    | none =>
      obtain ⟨info, hinfo, hdl⟩ := bind_eq_ok hdl
      obtain ⟨releases, release, v, hreleases, hlatest, hparse, rfl⟩ :=
        fetchLatestVersion_spec hinfo
      rw [buildVersionInfo_image] at hdl
      cases hfind : release.assets.reverse.find? (·.name == imageAsset) with
      | none =>
        rw [hfind] at hdl
        cases hdl
      | some asset =>
        rw [hfind, Option.map_some] at hdl
        obtain ⟨assetUrl, -, hdl⟩ := bind_eq_ok hdl
        cases hdl
        have hname := List.find?_some hfind
        refine ⟨rfl, releases, release, v, asset, hreleases, hlatest,
          List.mem_reverse.1 (List.mem_of_find?_eq_some hfind), eq_of_beq hname, ?_, ?_⟩
        · have hsum : ((fetchChecksums web release.assets).lookup asset.name).getD "" =
              Sha256.hexDigest image := Option.some.inj hchecksum
          cases hlookup : (fetchChecksums web release.assets).lookup asset.name with
          | none =>
            rw [hlookup] at hsum
            exact absurd hsum.symm hne
          | some sum =>
            rw [hlookup] at hsum
            exact congrArg some hsum
        · rw [hversion]
          exact hparse

end

/-! ## What the device shows of it -/

/-- A field that is skipped is there where there is a value. -/
theorem map_fst_optionalField (name : String) (value : Option String) :
    (optionalField name value).map Prod.fst = if value.isSome then [name] else [] := by
  cases value <;> rfl

/-- No name stands twice. -/
theorem nodup_manifestFields (m : FlashManifest) :
    ((manifestFields m).map Prod.fst).Nodup := by
  simp only [manifestFields, List.map_cons, List.map_append, map_fst_optionalField]
  cases m.imageVersion.isSome <;> cases m.channel.isSome <;> cases m.rootfsSha256.isSome <;>
    cases m.signed.isSome <;> decide

/-- A manifest is read back, whichever of its fields are there. -/
theorem ofJson_manifestFields (m : FlashManifest) :
    FlashManifest.ofJson (.obj (manifestFields m)) = some m := by
  rw [FlashManifest.ofJson, Json.record_obj _ (nodup_manifestFields m)]
  obtain ⟨cardId, flashedAt, hostVersion, imageSha256, imageVersion, channel, rootfsSha256,
    signed⟩ := m
  cases imageVersion <;> cases channel <;> cases rootfsSha256 <;> cases signed <;> rfl

/-- A text whose ends are no whitespace is its own trim. -/
theorem trim_of_ends {s : List Char}
    (hhead : ∀ c ∈ s.head?, TezosEncrypt.isWhitespace c = false)
    (hlast : ∀ c ∈ s.getLast?, TezosEncrypt.isWhitespace c = false) : TezosEncrypt.trim s = s := by
  have hdrop : ∀ l : List Char, (∀ c ∈ l.head?, TezosEncrypt.isWhitespace c = false) →
      l.dropWhile TezosEncrypt.isWhitespace = l := by
    intro l hl
    cases l with
    | nil => rfl
    | cons c l =>
      refine List.dropWhile_cons_of_neg ?_
      rw [hl c rfl]
      exact Bool.false_ne_true
  have hreverse : ∀ c ∈ s.reverse.head?, TezosEncrypt.isWhitespace c = false := by
    rw [List.head?_reverse]
    exact hlast
  rw [TezosEncrypt.trim, hdrop s hhead, hdrop s.reverse hreverse, List.reverse_reverse]

section
variable [JsonText] [LawfulJsonText] (m : FlashManifest)

/-- The host reads back the manifest it wrote. -/
theorem decode_manifestText :
    JsonText.decode "struct FlashManifest" FlashManifest.ofJson (manifestText m) = .ok m := by
  refine JsonText.decode_pretty _ (Json.writable_obj (nodup_manifestFields m) ?_)
    (ofJson_manifestFields m)
  obtain ⟨cardId, flashedAt, hostVersion, imageSha256, imageVersion, channel, rootfsSha256,
    signed⟩ := m
  cases imageVersion <;> cases channel <;> cases rootfsSha256 <;> cases signed <;> rfl

/-- **So does the device**, from what the init script hands over. -/
theorem deviceManifest_manifestText [LawfulJsonLayout] :
    deviceManifest (some (manifestText m)) = some m := by
  obtain ⟨inner, htext⟩ := LawfulJsonLayout.pretty_obj (manifestFields m)
  change (manifestText m).toList = _ at htext
  have hreverse : (manifestText m).toList.reverse = '\x7d' :: ('\x7b' :: inner).reverse := by
    rw [htext, ← List.cons_append, List.reverse_append, List.reverse_singleton,
      List.singleton_append]
  have hinit : initFlashManifest (some (manifestText m)) = manifestText m := by
    rw [initFlashManifest, hreverse, List.dropWhile_cons_of_neg (by decide), ← hreverse,
      List.reverse_reverse, String.ofList_toList]
  have hhead : ∀ c ∈ (manifestText m).toList.head?, TezosEncrypt.isWhitespace c = false := by
    rw [htext]
    rintro c ⟨⟩
    rfl
  have hlast : ∀ c ∈ (manifestText m).toList.getLast?, TezosEncrypt.isWhitespace c = false := by
    rw [htext, ← List.cons_append, List.getLast?_concat]
    rintro c ⟨⟩
    rfl
  have htrim : String.ofList (TezosEncrypt.trim (manifestText m).toList) = manifestText m := by
    rw [trim_of_ends hhead hlast, String.ofList_toList]
  have hne : manifestText m ≠ "" := by
    intro h
    rw [h] at htext
    cases htext
  rw [deviceManifest, hinit, parseManifest]
  simp only [htrim, if_neg hne, decode_manifestText]
  rfl

end

/-- **What the device shows of an image.** An image that is flashed has its digest in the manifest
that the device reads. It is shown as verified exactly where it comes with a signature of the
maintainer over that digest, and otherwise as unsigned, where it comes with no signature and that
was allowed. A download is of the latest release. -/
theorem flash_is_trusted [Semver] [LawfulSemver] [Sha256] [Ed25519] [JsonText] [LawfulJsonText]
    [LawfulJsonLayout] (host : HostFiles) (web : Web) (source : ImageSource)
    (allowUnsigned : Bool) (image : List UInt8) (metadata : FlashMetadata)
    (cardId flashedAt hostVersion : String) (rootfsSha256 : Option String)
    (h : flashedImage host web source allowUnsigned = .ok (image, metadata)) :
    let file := some
      (manifestText (buildFlashManifest cardId flashedAt hostVersion metadata rootfsSha256))
    let shown := ImageInfo.signedDisplay ((deviceManifest file).bind (·.signed))
    manifestCardId file = some cardId ∧
    (deviceManifest file).map (·.imageSha256) = some (Sha256.hexDigest image) ∧
    (∃ signature, Carries host web source signature ∧
      (shown = "Verified" ↔ ∃ pubkey sig, maintainerPubkey = some pubkey ∧ signature = some sig ∧
        Verifies pubkey (Sha256.hexDigest image) sig) ∧
      (shown ≠ "Verified" → shown = "Unsigned" ∧ signature = none ∧ allowUnsigned = true)) ∧
    ∀ url includePrerelease, source = .download url includePrerelease →
      url = none ∧ OfLatestRelease web includePrerelease image metadata := by
  dsimp only
  rw [deviceManifest_manifestText, manifestCardId, Option.bind_some, decode_manifestText]
  obtain ⟨⟨signature, hcarries, hgated⟩, hlatest⟩ := flashedImage_eq_ok h
  refine ⟨rfl, congrArg some hgated.digest, ⟨signature, hcarries, ?_⟩, hlatest⟩
  rw [Option.bind_some, buildFlashManifest]
  rcases hgated.verdict with ⟨hsigned, hverifies⟩ | ⟨hsigned, rfl, hallowed⟩
  · rw [hsigned]
    exact ⟨⟨fun _ => hverifies, fun _ => rfl⟩, fun hne => absurd rfl hne⟩
  · have hshown : ImageInfo.signedDisplay (some "unsigned") ≠ "Verified" := by decide
    rw [hsigned]
    refine ⟨⟨fun h => absurd h hshown, ?_⟩, fun _ => ⟨rfl, rfl, hallowed⟩⟩
    rintro ⟨_, _, -, hnone, -⟩
    cases hnone

/-! ## A signed image -/

theorem length_take_filled (n : Nat) (bytes : List UInt8) :
    ((bytes ++ List.replicate n 0).take n).length = n := by
  rw [List.length_take, List.length_append, List.length_replicate]
  exact Nat.min_eq_left (Nat.le_add_left _ _)

/-- Bytes, cut or filled up to a length. -/
def resized (n : Nat) (bytes : List UInt8) : Fixed n :=
  ⟨(bytes ++ List.replicate n 0).take n, length_take_filled n bytes⟩

/-- Digests that are the first bytes. -/
@[reducible] def plainDigest : Sha256 where
  hexDigest bytes := String.ofList (hexEncode (resized 32 bytes).1)

theorem plainDigest_lawful : @LawfulSha256 plainDigest :=
  @LawfulSha256.mk plainDigest fun bytes => ⟨resized 32 bytes, String.toList_ofList⟩

/-- Signatures that are the message, under one key. -/
@[reducible] def plainEd25519 : Ed25519 where
  publicKey _ := maintainerPubkey.getD (zeros 32)
  sign _ msg := resized 64 msg
  validKey _ := true
  verifyStrict _ msg signature := signature.1 == (resized 64 msg).1

theorem plainEd25519_lawful : @LawfulEd25519 plainEd25519 :=
  @LawfulEd25519.mk plainEd25519 (fun _ => rfl) fun _ _ => beq_self_eq_true _

section
attribute [local instance] plainDigest plainEd25519 plainSemver plainSemver_lawful plainJson
  plainJson_lawful plainJson_layout

/-- A host with an image of three bytes and a signature beside it. -/
def signedHost : HostFiles where
  file path :=
    if path = "img" then some [1, 2, 3]
    else if path = "img.sig" then
      some (((hexEncode (resized 64 [1, 2, 3]).1).map fun c => UInt8.ofNat c.toNat) ++ [10])
    else none
  cached _ := none

/-- No network. -/
def noWeb : Web where
  releases := .error "offline"
  text _ := none
  download _ _ := .error "offline"

/-- The image is flashed and shown as verified. -/
theorem flash_is_trusted_signed : ImageInfo.signedDisplay ((deviceManifest (some (manifestText
    (buildFlashManifest "card" "2026-03-06T12:34:56Z" "0.26.0"
      ⟨Sha256.hexDigest [1, 2, 3], none, none, some "verified"⟩ none)))).bind (·.signed)) =
      "Verified" := by
  obtain ⟨-, -, ⟨signature, -, -, hunsigned⟩, -⟩ := flash_is_trusted signedHost noWeb
    (.local "img" none) false [1, 2, 3]
    ⟨Sha256.hexDigest [1, 2, 3], none, none, some "verified"⟩ "card" "2026-03-06T12:34:56Z"
    "0.26.0" none (by decide +kernel)
  by_contra hne
  obtain ⟨-, -, hallowed⟩ := hunsigned hne
  cases hallowed

end

end Host

end Russignol
