import Russignol.Base.FileRules
import Russignol.Host.ReleaseTrust

/-!
# Publishing a release

The last steps of `cargo xtask release` (`xtask/src/main.rs`, `xtask/src/maintainer_key.rs`): the
built image and binaries are moved to their asset paths, `checksums.txt` is written, the image is
signed under the maintainer key, and the assets that are there are uploaded. What is there may be
left from an earlier release, and every call may fail.

What the tool writes the host reads (`Host/Releases`, `Host/ReleaseTrust`): an image that was built,
signed and published is downloaded by its checksum and taken as verified
(`published_image_is_trusted`).
-/

namespace Russignol.Xtask

open Bytes CrashProgram FileStore ReleaseSignature TextCodec
open Crypto (asBytes fromUtf8)

/-! ## The maintainer key -/

section
variable [BlobCrypto]

/-- `seal_seed`. -/
def sealSeed (random : Crypto.Random) (passphrase : List UInt8) (seed : Fixed 32) :
    Except FileStore.IoError (List UInt8) :=
  Crypto.encrypt random passphrase (String.ofList (hexEncode seed.1))

/-- `unseal_seed`, whose errors are all reported alike. -/
def unsealSeed (passphrase blob : List UInt8) : Option (Fixed 32) :=
  (Crypto.decrypt passphrase blob).toOption.bind (decodeFixed 32)

/-- **What is sealed is unsealed under its passphrase, and under no other.** -/
theorem unsealSeed_sealSeed {random : Crypto.Random} {passphrase typed blob : List UInt8}
    {seed seed' : Fixed 32} (hauth : Crypto.Authenticated {passphrase, typed})
    (hseal : sealSeed random passphrase seed = .ok blob) (h : unsealSeed typed blob = some seed') :
    seed' = seed := by
  by_cases hne : typed = passphrase
  · subst hne
    rw [unsealSeed, Crypto.decrypt, hauth.decrypt_encrypt hseal] at h
    exact Option.some.inj (h.symm.trans (decodeFixed_hexEncode seed))
  · unfold unsealSeed at h
    cases hopen : Crypto.decrypt typed blob with
    | error e =>
      rw [hopen] at h
      cases h
    | ok plaintext =>
      exact absurd hopen (hauth.not_opens (Set.mem_insert _ _)
        (Set.mem_insert_of_mem _ (Set.mem_singleton _)) hne hseal)

end

/-! ## The tool -/

/-- `ReleaseComponent`. -/
inductive ReleaseComponent
  | all
  | signer
  | hostUtility
  | signerLib
  | ui
  | crypto
  | epdDisplay
  deriving DecidableEq, Repr

/-- `tag_prefix`. -/
def ReleaseComponent.tagPrefix : ReleaseComponent → Option String
  | signer => some "signer"
  | hostUtility => some "host-utility"
  | signerLib => some "signer-lib"
  | ui => some "ui"
  | crypto => some "crypto"
  | epdDisplay => some "epd-display"
  | all => none

/-- `format_tag`. -/
def ReleaseComponent.formatTag (component : ReleaseComponent) (version : String) : String :=
  match component.tagPrefix with
  | some pre => pre ++ "-v" ++ version
  | none => "v" ++ version

/-- `RELEASE_IMAGE`, `RELEASE_CHECKSUMS` and `HOST_RELEASE_BINARIES`. -/
def releaseImage : String := "target/russignol-pi-zero.img.xz"

def releaseChecksums : String := "target/checksums.txt"

def hostReleaseBinaries : List (String × String) :=
  [("x86_64-unknown-linux-gnu", "target/russignol-amd64"),
    ("aarch64-unknown-linux-gnu", "target/russignol-aarch64")]

/-- The image as it is built. -/
def builtImage : String := "buildroot/output/images/sdcard.img.xz"

/-- The binary of a target as it is built. -/
def builtBinary (target : String) : String := "target/" ++ target ++ "/release/russignol"

/-- `default_key_path`. -/
def defaultKeyPath (configDir : String) : String := configDir ++ "/russignol/maintainer-key"

/-- `Path::file_name`. -/
def fileName (path : String) : String :=
  String.ofList (path.toList.reverse.takeWhile (· ≠ '/')).reverse

/-- `move_binary_release_assets`, of the binaries that are left. -/
def moveBinaries : List (String × String) → List String → Fs String (Except String (List String))
  | [], assets => return .ok assets
  | (target, asset) :: binaries, assets => do
    if ← pathExists (builtBinary target) then
      match ← rename (builtBinary target) asset with
      | .error _ => return .error ("Failed to move binary for " ++ target)
      | .ok () => moveBinaries binaries (assets ++ [asset])
    else moveBinaries binaries assets

/-- `move_image_release_asset`. -/
def moveImageReleaseAsset : Fs String (Except String (Option String)) := do
  if ← pathExists builtImage then
    match ← rename builtImage releaseImage with
    | .error _ => return .error "Failed to move SD card image"
    | .ok () => return .ok (some releaseImage)
  else return .ok none

/-- A line of `checksums.txt`. -/
def checksumLine (hash name : String) : String := hash ++ "  " ++ name ++ "\n"

section
variable [Sha256]

/-- `compute_sha256`. -/
def computeSha256 (path : String) : Fs String (Except String String) := do
  match ← readFile path with
  | .error _ => return .error ("Failed to open " ++ path)
  | .ok data => return .ok (Sha256.hexDigest data)

/-- The loop of `generate_checksums`, with what its writer holds. -/
def writeChecksums : List String → String → Fs String (Except String Unit)
  | [], text => do
    match ← writeSync releaseChecksums (asBytes text) with
    | .error _ => return .error "Failed to flush checksums.txt"
    | .ok () => return .ok ()
  | path :: paths, text => do
    match ← computeSha256 path with
    | .error e =>
      -- a writer that is dropped writes what it holds
      let _ ← writeSync releaseChecksums (asBytes text)
      return .error e
    | .ok hash => writeChecksums paths (text ++ checksumLine hash (fileName path))

/-- `generate_checksums`. -/
def generateChecksums (assets : List String) : Fs String (Except String Unit) := do
  match ← writeSync releaseChecksums [] with
  | .error _ => return .error "Failed to create checksums.txt"
  | .ok () => writeChecksums assets ""

/-- `with_checksums`, less the list it returns, which nobody reads. -/
def withChecksums (assets : List String) : Fs String (Except String Unit) :=
  if assets.isEmpty then return .ok () else generateChecksums assets

/-- `copy_release_assets`, `copy_signer_release_assets` and `copy_host_utility_release_assets`. -/
def copyReleaseAssets (component : ReleaseComponent) : Fs String (Except String Unit) :=
  match component with
  | .all => do
    match ← moveBinaries hostReleaseBinaries [] with
    | .error e => return .error e
    | .ok binaries =>
      match ← moveImageReleaseAsset with
      | .error e => return .error e
      | .ok image => withChecksums (binaries ++ image.toList)
  | .signer => do
    match ← moveImageReleaseAsset with
    | .error e => return .error e
    | .ok image => withChecksums image.toList
  | .hostUtility => do
    match ← moveBinaries hostReleaseBinaries [] with
    | .error e => return .error e
    | .ok binaries => withChecksums binaries
  | .signerLib | .ui | .crypto | .epdDisplay => return .ok ()

/-- `MissingSigningInput`, or another error. -/
inductive SigningError
  | missingImage (path : String)
  | missingKey (path : String)
  | other (e : String)
  deriving DecidableEq, Repr

variable [BlobCrypto] [Ed25519]

/-- `sign_digest`. -/
def signDigest (keyPath : String) (passphrase : List UInt8) (digestHex : String) :
    Fs String (Except String String) := do
  match ← readFile keyPath with
  | .error _ => return .error ("failed to read " ++ keyPath)
  | .ok blob =>
    match unsealSeed passphrase blob with
    | none => return .error "failed to unseal the maintainer key (wrong passphrase?)"
    | some seed =>
      match ReleaseSignature.sign seed digestHex with
      | .error _ => return .error "failed to sign the image digest"
      | .ok signature => return .ok signature

/-- `sign_image`. -/
def signImage (image keyPath : String) (passphrase : Except String String) :
    Fs String (Except SigningError Unit) := do
  let removed ← removeFile (sidecarPath image)
  match removed with
  | .error e =>
    if e.kind = .notFound then signFresh
    else return .error (.other ("failed to remove stale " ++ sidecarPath image))
  | .ok () => signFresh
where
  /-- `sign_image`, without a sidecar. -/
  signFresh : Fs String (Except SigningError Unit) := do
    if !(← pathExists image) then return .error (.missingImage image)
    else if !(← pathExists keyPath) then return .error (.missingKey keyPath)
    else
      match ← computeSha256 image with
      | .error e => return .error (.other e)
      | .ok digest =>
        match passphrase with
        | .error e => return .error (.other e)
        | .ok passphrase =>
          match ← signDigest keyPath (asBytes passphrase) digest with
          | .error e => return .error (.other e)
          | .ok signature =>
            match ← writeSync (sidecarPath image) (asBytes (signature ++ "\n")) with
            | .error _ => return .error (.other ("failed to write " ++ sidecarPath image))
            | .ok () => return .ok ()

/-- `sign_release_image_at`. -/
def signReleaseImageAt (image keyPath : String) (passphrase : Except String String) :
    Fs String (Except String Unit) := do
  match ← signImage image keyPath passphrase with
  | .ok () | .error (.missingImage _) | .error (.missingKey _) => return .ok ()
  | .error (.other e) => return .error e

end

/-- The paths that `collect_release_assets` looks at. -/
def candidateAssets : ReleaseComponent → List String
  | .all => hostReleaseBinaries.map Prod.snd ++
      [releaseImage, sidecarPath releaseImage, releaseChecksums]
  | .signer => [releaseImage, sidecarPath releaseImage, releaseChecksums]
  | .hostUtility => hostReleaseBinaries.map Prod.snd ++ [releaseChecksums]
  | .signerLib | .ui | .crypto | .epdDisplay => []

/-- A release on the server. -/
structure Published where
  tag : String
  prerelease : Bool
  assets : List (String × List UInt8)
  deriving DecidableEq, Repr

/-- The upload of the assets that are there: `collect_release_assets`, and `gh`. -/
def upload : List String → Fs String (List (String × List UInt8))
  | [] => return []
  | path :: paths => do
    match ← readFile path with
    | .error _ => upload paths
    | .ok data => return (fileName path, data) :: (← upload paths)

/-- `cmd_github_release`, less its changelog. -/
def cmdGithubRelease (component : ReleaseComponent) (version : String) :
    Fs String (Except String Published) := do
  let assets ← upload (candidateAssets component)
  match ← touch with
  | .error _ => return .error "Failed to create GitHub release"
  | .ok () => return .ok ⟨component.formatTag version, '-' ∈ version.toList, assets⟩

/-- `cmd_release` after its builds, with `--github`. -/
def cmdRelease [Sha256] [BlobCrypto] [Ed25519] (component : ReleaseComponent)
    (version keyPath : String) (passphrase : Except String String) :
    Fs String (Except String Published) := do
  match ← copyReleaseAssets component with
  | .error e => return .error e
  | .ok () =>
    if component = .all ∨ component = .signer then
      match ← signReleaseImageAt releaseImage keyPath passphrase with
      | .error e => return .error e
      | .ok () => cmdGithubRelease component version
    else cmdGithubRelease component version

/-! ## What a step leaves -/

section
variable {c : Content String} {ps : List String}

/-- Moving the binaries. -/
theorem moveBinaries_triple : ∀ (binaries : List (String × String)) (assets : List String),
    (∀ b ∈ binaries, builtBinary b.1 ∈ ps ∧ b.2 ∈ ps) →
    Triple Answer.Honest (Same ps c) (moveBinaries binaries assets)
      (fun r s => Same ps c s ∧ ∀ assets', r = .ok assets' →
        ∃ moved, assets' = assets ++ moved ∧ moved.Sublist (binaries.map Prod.snd))
      fun _ => True
  | [], assets, _ => by
    refine Triple.pure fun s hs => ⟨hs, ?_⟩
    rintro _ ⟨⟩
    exact ⟨[], (List.append_nil _).symm, List.Sublist.slnil⟩
  | (target, asset) :: binaries, assets, hps => by
    obtain ⟨hbuilt, hasset⟩ := hps _ List.mem_cons_self
    have hrest := fun b hb => hps b (List.mem_cons_of_mem _ hb)
    have hskip := moveBinaries_triple binaries assets hrest
    have htake := moveBinaries_triple binaries (assets ++ [asset]) hrest
    unfold moveBinaries
    refine Triple.bind (pathExists_triple _) fun b => ?_
    cases b with
    | false =>
      refine hskip.mono (fun s hs => hs.2) (fun r s hs => ⟨hs.1, fun assets' hr => ?_⟩) fun _ => id
      obtain ⟨moved, heq, hsub⟩ := hs.2 assets' hr
      exact ⟨moved, heq, hsub.cons _⟩
    | true =>
      refine Triple.bind (R := fun _ => Same ps c) (renameFile_triple
        (fun s hs _ => hs.2.move hbuilt hasset)
        (fun e s hs => ⟨hs.2, fun _ => hs.2.move hbuilt hasset⟩)
        fun s hs => ⟨trivial, fun _ => trivial⟩) fun r => ?_
      cases r with
      | error e =>
        refine Triple.pure fun s hs => ⟨hs, ?_⟩
        rintro _ ⟨⟩
      | ok u =>
        refine htake.mono (fun _ => id) (fun r s hs => ⟨hs.1, fun assets' hr => ?_⟩) fun _ => id
        obtain ⟨moved, heq, hsub⟩ := hs.2 assets' hr
        refine ⟨asset :: moved, ?_, hsub.cons_cons _⟩
        rw [heq, List.append_assoc, List.singleton_append]

/-- Moving an image that was built. -/
theorem moveImage_triple {image : List UInt8} (himage : c builtImage = some image)
    (hbuilt : builtImage ∉ ps) :
    Triple Answer.Honest (Same ps c) moveImageReleaseAsset
      (fun r s => ∀ a, r = .ok a → a = some releaseImage ∧
        s.content releaseImage = some image ∧ Same (builtImage :: releaseImage :: ps) c s)
      fun _ => True := by
  unfold moveImageReleaseAsset
  refine Triple.bind (pathExists_triple _) fun b => ?_
  cases b with
  | false =>
    refine Triple.pure fun s hs => ?_
    rw [hs.2 _ hbuilt, himage] at hs
    cases hs.1
  | true =>
    refine Triple.bind (R := fun r s => r = .ok () → s.content releaseImage = some image ∧
        Same (builtImage :: releaseImage :: ps) c s) (renameFile_triple (fun s hs _ _ => ?_)
      (fun e s hs => ⟨fun h => (by cases h), fun _ h => (by cases h)⟩)
      fun s hs => ⟨trivial, fun _ => trivial⟩) fun r => ?_
    · have hsame : Same (builtImage :: releaseImage :: ps) c s :=
        hs.2.mono fun p hp => List.mem_cons_of_mem _ (List.mem_cons_of_mem _ hp)
      refine ⟨?_, hsame.move List.mem_cons_self (List.mem_cons_of_mem _ List.mem_cons_self)⟩
      rw [s.move_content_target (by decide), hs.2 _ hbuilt, himage]
    · cases r with
      | error e =>
        refine Triple.pure fun s _ => ?_
        rintro _ ⟨⟩
      | ok u =>
        refine Triple.pure fun s hs => ?_
        rintro _ ⟨⟩
        exact ⟨rfl, hs rfl⟩

variable [Sha256]

/-- The text of `checksums.txt`, behind what was written. -/
def checksumsText (c : Content String) : List String → String → String
  | [], text => text
  | path :: paths, text =>
    checksumsText c paths
      (text ++ checksumLine (Sha256.hexDigest ((c path).getD [])) (fileName path))

/-- The digest of a file. -/
theorem computeSha256_triple {I : Files String → Prop} (path : String)
    (hnote : ∀ s data, I s → I (s.noteRead path data)) :
    Triple Answer.Honest I (computeSha256 path)
      (fun r s => I s ∧ ∀ hash, r = .ok hash →
        ∃ data, s.content path = some data ∧ hash = Sha256.hexDigest data)
      fun _ => True := by
  unfold computeSha256
  refine Triple.bind (readFile_triple path hnote) fun r => ?_
  cases r with
  | error e =>
    refine Triple.pure fun s hs => ⟨hs.2, ?_⟩
    rintro _ ⟨⟩
  | ok data =>
    refine Triple.pure fun s hs => ⟨hs.2, ?_⟩
    rintro _ ⟨⟩
    exact ⟨data, hs.1 data rfl, rfl⟩

/-- Writing the lines. -/
theorem writeChecksums_triple : ∀ (paths : List String) (text : String),
    releaseChecksums ∉ paths →
    Triple Answer.Honest (Same [releaseChecksums] c) (writeChecksums paths text)
      (fun r s => r = .ok () → Same [releaseChecksums] c s ∧
        s.content releaseChecksums = some (asBytes (checksumsText c paths text)))
      fun _ => True
  | [], text, _ => by
    unfold writeChecksums
    refine Triple.bind (R := fun r s => r = .ok () → Same [releaseChecksums] c s ∧
        s.content releaseChecksums = some (asBytes text)) (writeSync_triple
      (fun s hs _ => ⟨hs.set (List.mem_singleton_self _) _, s.set_content_self _ _⟩)
      (fun e content s _ h => by cases h) fun _ _ _ => trivial) fun r => ?_
    cases r with
    | error e =>
      refine Triple.pure fun s _ h => ?_
      cases h
    | ok u => exact Triple.pure fun s hs _ => hs rfl
  | path :: paths, text, hne => by
    rw [List.mem_cons, not_or] at hne
    obtain ⟨hpath, hpaths⟩ := hne
    unfold writeChecksums
    refine Triple.bind (computeSha256_triple path fun s data hs => hs) fun r => ?_
    cases r with
    | error e =>
      refine Triple.bind (R := fun _ _ => True) (writeSync_triple (fun _ _ => trivial)
        (fun _ _ _ _ => trivial) fun _ _ _ => trivial) fun _ => ?_
      refine Triple.pure fun s _ h => ?_
      cases h
    | ok hash =>
      intro io s hio hs
      obtain ⟨data, hdata, rfl⟩ := hs.2 hash rfl
      rw [hs.1 path fun hmem => hpath (List.mem_singleton.1 hmem).symm] at hdata
      rw [checksumsText, hdata, Option.getD_some]
      exact writeChecksums_triple paths _ hpaths io s hio hs.1

/-- Writing `checksums.txt`. -/
theorem withChecksums_triple {paths : List String} (hne : paths ≠ [])
    (hpaths : releaseChecksums ∉ paths) :
    Triple Answer.Honest (fun s => s.content = c) (withChecksums paths)
      (fun r s => r = .ok () → Same [releaseChecksums] c s ∧
        s.content releaseChecksums = some (asBytes (checksumsText c paths "")))
      fun _ => True := by
  have hempty : ¬paths.isEmpty := fun h => hne (List.isEmpty_iff.1 h)
  unfold withChecksums generateChecksums
  rw [if_neg hempty]
  refine Triple.bind (R := fun r s => r = .ok () → Same [releaseChecksums] c s)
    (writeSync_triple (fun s hs _ => ?_) (fun e content s _ h => by cases h)
      fun _ _ _ => trivial) fun r => ?_
  · have hsame : Same [releaseChecksums] c s := fun p _ => congrFun hs p
    exact hsame.set (List.mem_singleton_self _) _
  · cases r with
    | error e =>
      refine Triple.pure fun s _ h => ?_
      cases h
    | ok u =>
      exact (writeChecksums_triple paths "" hpaths).mono (fun s hs => hs rfl) (fun _ _ => id)
        fun _ => id

/-- What is left after the assets are moved: the image, and the checksums of some binaries and of
the image. -/
structure Copied (image : List UInt8) (s : Files String) : Prop where
  image : s.content releaseImage = some image
  checksums : ∃ moved : List String, moved.Sublist (hostReleaseBinaries.map Prod.snd) ∧
    s.content releaseChecksums =
      some (asBytes (checksumsText s.content (moved ++ [releaseImage]) ""))

/-- The text depends on the assets only. -/
theorem checksumsText_congr {c c' : Content String} : ∀ (paths : List String) (text : String),
    (∀ p ∈ paths, c' p = c p) → checksumsText c' paths text = checksumsText c paths text
  | [], _, _ => rfl
  | path :: paths, text, h => by
    rw [checksumsText, checksumsText, h path List.mem_cons_self]
    exact checksumsText_congr paths _ fun p hp => h p (List.mem_cons_of_mem _ hp)

/-- The paths between which the binaries are moved. -/
def binaryPaths : List String := hostReleaseBinaries.flatMap fun b => [builtBinary b.1, b.2]

omit [Sha256] in
theorem mem_binaryPaths {b : String × String} (hb : b ∈ hostReleaseBinaries) :
    builtBinary b.1 ∈ binaryPaths ∧ b.2 ∈ binaryPaths := by
  have hmem : ∀ p ∈ [builtBinary b.1, b.2], p ∈ binaryPaths :=
    fun p hp => List.mem_flatMap.2 ⟨b, hb, hp⟩
  exact ⟨hmem _ List.mem_cons_self, hmem _ (List.mem_cons_of_mem _ (List.mem_singleton_self _))⟩

/-- The paths between which the assets are moved. -/
def movedPaths : List String := builtImage :: releaseImage :: binaryPaths

/-- Writing the checksums of the image and some binaries. -/
theorem copyChecksums_triple {image : List UInt8} {moved : List String}
    (hmoved : moved.Sublist (hostReleaseBinaries.map Prod.snd)) :
    Triple Answer.Honest
      (fun s => s.content releaseImage = some image ∧ Same movedPaths c s)
      (withChecksums (moved ++ [releaseImage]))
      (fun r s => r = .ok () → Copied image s ∧ Same (releaseChecksums :: movedPaths) c s)
      fun _ => True := by
  have hpaths : releaseChecksums ∉ moved ++ [releaseImage] := by
    intro hmem
    rcases List.mem_append.1 hmem with hmem | hmem
    · exact absurd (hmoved.subset hmem) (by decide)
    · exact absurd hmem (by decide)
  intro io s hio hs
  refine ((withChecksums_triple (c := s.content) (by simp) hpaths).mono (fun _ => id)
    (fun r s' hs' hr => ?_) fun _ => id) io s hio rfl
  obtain ⟨hsame, htext⟩ := hs' hr
  refine ⟨⟨(hsame _ (by decide)).trans hs.1, moved, hmoved, ?_⟩, fun p hp => ?_⟩
  · rw [htext, checksumsText_congr _ _ fun p hp => ?_]
    exact (hsame p fun hmem => hpaths (List.mem_singleton.1 hmem ▸ hp)).symm
  · rw [List.mem_cons, not_or] at hp
    rw [hsame p fun hmem => hp.1 (List.mem_singleton.1 hmem), hs.2 p hp.2]

/-- **Moving the assets** of a release with an image that was built. -/
theorem copyReleaseAssets_triple {component : ReleaseComponent} {image : List UInt8}
    (hcomponent : component = .all ∨ component = .signer) (himage : c builtImage = some image) :
    Triple Answer.Honest (fun s => s.content = c) (copyReleaseAssets component)
      (fun r s => r = .ok () → Copied image s ∧ Same (releaseChecksums :: movedPaths) c s)
      fun _ => True := by
  have hfailed : ∀ (e : String) (I : Files String → Prop), Triple Answer.Honest I
      (pure (.error e) : Fs String (Except String Unit))
      (fun r s => r = .ok () → Copied image s ∧ Same (releaseChecksums :: movedPaths) c s)
      fun _ => True := by
    intro e I
    refine Triple.pure fun s _ h => ?_
    cases h
  have hbuilt : builtImage ∉ binaryPaths := by decide
  have hnil : builtImage ∉ ([] : List String) := List.not_mem_nil
  rcases hcomponent with rfl | rfl
  · unfold copyReleaseAssets
    refine Triple.bind ((moveBinaries_triple hostReleaseBinaries [] fun _ => mem_binaryPaths).mono
      (fun s hs p _ => congrFun hs p) (fun _ _ => id) fun _ => id) fun r => ?_
    cases r with
    | error e => exact hfailed e _
    | ok binaries =>
      intro io s hio hs
      obtain ⟨moved, rfl, hmoved⟩ := hs.2 _ rfl
      refine Triple.bind (moveImage_triple himage hbuilt) (fun r => ?_) io s hio hs.1
      cases r with
      | error e => exact hfailed e _
      | ok a =>
        intro io s hio hs
        obtain ⟨rfl, hcopied⟩ := hs a rfl
        exact copyChecksums_triple hmoved io s hio hcopied
  · unfold copyReleaseAssets
    refine Triple.bind ((moveImage_triple himage hnil).mono
      (fun s hs p _ => congrFun hs p) (fun _ _ => id) fun _ => id) fun r => ?_
    cases r with
    | error e => exact hfailed e _
    | ok a =>
      intro io s hio hs
      obtain ⟨rfl, himage, hsame⟩ := hs a rfl
      exact copyChecksums_triple (List.nil_sublist _) io s hio
        ⟨himage, hsame.mono fun p hp => List.mem_append_left _ hp⟩

variable [BlobCrypto] [Ed25519]

/-- The sidecar of an image: none without an image or a key, or a signature under the key. -/
structure Signed (keyPath : String) (passphrase : Except String String) (image : List UInt8)
    (s : Files String) : Prop where
  unsigned : s.content keyPath = none → s.content (sidecarPath releaseImage) = none
  signed : ∀ blob, s.content keyPath = some blob → ∃ typed seed signature,
    passphrase = .ok typed ∧ unsealSeed (asBytes typed) blob = some seed ∧
    ReleaseSignature.sign seed (Sha256.hexDigest image) = .ok signature ∧
    s.content (sidecarPath releaseImage) = some (asBytes (signature ++ "\n"))

omit [Sha256] in
/-- Signing a digest. -/
theorem signDigest_triple (keyPath : String) (passphrase : List UInt8) (digestHex : String) :
    Triple Answer.Honest (fun s => s.content = c) (signDigest keyPath passphrase digestHex)
      (fun r s => s.content = c ∧ ∀ signature, r = .ok signature → ∃ blob seed,
        c keyPath = some blob ∧ unsealSeed passphrase blob = some seed ∧
        ReleaseSignature.sign seed digestHex = .ok signature)
      fun _ => True := by
  have hfailed : ∀ e (I : Files String → Prop), (∀ s, I s → s.content = c) →
      Triple Answer.Honest I (pure (.error e) : Fs String (Except String String))
        (fun r s => s.content = c ∧ ∀ signature, r = .ok signature → ∃ blob seed,
          c keyPath = some blob ∧ unsealSeed passphrase blob = some seed ∧
          ReleaseSignature.sign seed digestHex = .ok signature)
        fun _ => True := by
    intro e I hI
    refine Triple.pure fun s hs => ⟨hI s hs, ?_⟩
    rintro _ ⟨⟩
  unfold signDigest
  refine Triple.bind (readFile_triple keyPath fun s data hs => hs) fun r => ?_
  cases r with
  | error e => exact hfailed _ _ fun s hs => hs.2
  | ok blob =>
    dsimp only
    split
    · exact hfailed _ _ fun s hs => hs.2
    · rename_i seed hseed
      split
      · exact hfailed _ _ fun s hs => hs.2
      · rename_i signature hsignature
        refine Triple.pure fun s hs => ⟨hs.2, ?_⟩
        rintro _ ⟨⟩
        have hblob := hs.1 blob rfl
        rw [hs.2] at hblob
        exact ⟨blob, seed, hblob, hseed, hsignature⟩

/-- Signing, without a sidecar. -/
theorem signFresh_triple {keyPath : String} {passphrase : Except String String}
    {image : List UInt8} (himage : c releaseImage = some image)
    (hkey : keyPath ≠ sidecarPath releaseImage)
    (hgone : c (sidecarPath releaseImage) = none) :
    Triple Answer.Honest (fun s => s.content = c)
      (signImage.signFresh releaseImage keyPath passphrase)
      (fun r s => (∀ e, r ≠ .error (.other e)) → Signed keyPath passphrase image s ∧
        Same [sidecarPath releaseImage] c s)
      fun _ => True := by
  have hsame : ∀ s : Files String, s.content = c → Same [sidecarPath releaseImage] c s :=
    fun s hs p _ => congrFun hs p
  have hfailed : ∀ (e : String) (I : Files String → Prop), Triple Answer.Honest I
      (pure (.error (.other e)) : Fs String (Except SigningError Unit))
      (fun r s => (∀ e, r ≠ .error (.other e)) → Signed keyPath passphrase image s ∧
        Same [sidecarPath releaseImage] c s) fun _ => True :=
    fun e I => Triple.pure fun s _ h => absurd rfl (h e)
  unfold signImage.signFresh
  refine Triple.bind (pathExists_triple _) fun b => ?_
  cases b with
  | false =>
    refine Triple.pure fun s hs => ?_
    rw [hs.2, himage] at hs
    cases hs.1
  | true =>
    refine Triple.bind ((pathExists_triple keyPath).mono (fun s hs => hs.2) (fun _ _ => id)
      fun _ => id) fun b => ?_
    cases b with
    | false =>
      refine Triple.pure fun s hs _ => ⟨⟨fun _ => ?_, fun blob hblob => ?_⟩, hsame s hs.2⟩
      · rw [hs.2, hgone]
      · rw [hblob] at hs
        cases hs.1
    | true =>
      refine Triple.bind ((computeSha256_triple releaseImage fun s data hs => hs).mono
        (fun s hs => hs.2) (fun _ _ => id) fun _ => id) fun r => ?_
      cases r with
      | error e => exact hfailed e _
      | ok digest =>
        cases passphrase with
        | error e => exact hfailed e _
        | ok typed =>
          intro io s hio hs
          obtain ⟨data, hdata, rfl⟩ := hs.2 digest rfl
          rw [hs.1, himage] at hdata
          cases hdata
          refine Triple.bind (signDigest_triple keyPath (asBytes typed) _) (fun r => ?_) io s hio
            hs.1
          cases r with
          | error e => exact hfailed e _
          | ok signature =>
            refine Triple.bind (R := fun r s => r = .ok () →
              Signed keyPath (.ok typed) image s ∧ Same [sidecarPath releaseImage] c s)
              (writeSync_triple (fun s hs _ => ?_) (fun e content s _ h => by cases h)
              fun _ _ _ => trivial) fun r => ?_
            · obtain ⟨blob, seed, hblob, hseed, hsignature⟩ := hs.2 signature rfl
              have hkept := s.set_content_of_ne hkey (some (asBytes (signature ++ "\n")))
              rw [hs.1, hblob] at hkept
              refine ⟨⟨fun hnone => ?_, fun blob' hblob' => ?_⟩,
                (hsame s hs.1).set (List.mem_singleton_self _) _⟩
              · cases hkept.symm.trans hnone
              · cases hkept.symm.trans hblob'
                exact ⟨typed, seed, signature, rfl, hseed, hsignature, s.set_content_self _ _⟩
            · cases r with
              | error e => exact hfailed _ _
              | ok u => exact Triple.pure fun s hs _ => hs rfl

/-- **Signing the release image.** A sidecar that was there is gone, whether or not one is
written. -/
theorem signReleaseImageAt_triple {keyPath : String} {passphrase : Except String String}
    {image : List UInt8} (himage : c releaseImage = some image)
    (hkey : keyPath ≠ sidecarPath releaseImage) :
    Triple Answer.Honest (fun s => s.content = c)
      (signReleaseImageAt releaseImage keyPath passphrase)
      (fun r s => r = .ok () → Signed keyPath passphrase image s ∧
        Same [sidecarPath releaseImage] c s)
      fun _ => True := by
  have hfresh : ∀ s : Files String, s.content (sidecarPath releaseImage) = none →
      Same [sidecarPath releaseImage] c s → Triple Answer.Honest (fun s' => s' = s)
        (signImage.signFresh releaseImage keyPath passphrase)
        (fun r s => (∀ e, r ≠ .error (.other e)) → Signed keyPath passphrase image s ∧
          Same [sidecarPath releaseImage] c s) fun _ => True := by
    intro s hgone hsame
    refine (signFresh_triple (c := s.content) ((hsame _ (by decide)).trans himage) hkey
      hgone).mono (fun s' hs' => congrArg _ hs') (fun r s' hs' hr => ?_) fun _ => id
    obtain ⟨hsigned, hkept⟩ := hs' hr
    exact ⟨hsigned, fun p hp => (hkept p hp).trans (hsame p hp)⟩
  unfold signReleaseImageAt
  refine Triple.bind (R := fun r s => (∀ e, r ≠ .error (.other e)) →
    Signed keyPath passphrase image s ∧ Same [sidecarPath releaseImage] c s) ?_ fun r => ?_
  · unfold signImage
    refine Triple.bind (removeFile_gone (sidecarPath releaseImage) c fun _ => trivial) fun r => ?_
    cases r with
    | ok u =>
      intro io s hio hs
      obtain ⟨hgone, hsame⟩ := hs fun e h => by cases h
      exact hfresh s hgone hsame io s hio rfl
    | error e =>
      dsimp only
      split
      · rename_i hnotFound
        intro io s hio hs
        obtain ⟨hgone, hsame⟩ := hs fun e' h => by
          cases h
          exact hnotFound
        exact hfresh s hgone hsame io s hio rfl
      · exact Triple.pure fun s _ h => absurd rfl (h _)
  · cases r with
    | ok u => exact Triple.pure fun s hs _ => hs fun e h => by cases h
    | error e =>
      cases e with
      | missingImage path => exact Triple.pure fun s hs _ => hs fun e h => by cases h
      | missingKey path => exact Triple.pure fun s hs _ => hs fun e h => by cases h
      | other e =>
        refine Triple.pure fun s _ h => ?_
        cases h

omit [Sha256] [BlobCrypto] [Ed25519] in
/-- The assets that are there, by their names. -/
def uploaded (c : Content String) (paths : List String) : List (String × List UInt8) :=
  paths.filterMap fun path => (c path).map (fileName path, ·)

omit [Sha256] [BlobCrypto] [Ed25519] in
/-- Uploading what is there. -/
theorem upload_triple : ∀ paths : List String,
    Triple Answer.Honest (fun s => s.content = c) (upload paths)
      (fun r s => r = uploaded c paths ∧ s.content = c) fun _ => True
  | [] => Triple.pure fun s hs => ⟨rfl, hs⟩
  | path :: paths => by
    unfold upload
    refine Triple.bind (readFile_content_triple path c) fun r => ?_
    intro io s hio hs
    obtain ⟨rfl, hs⟩ := hs
    rw [uploaded, List.filterMap_cons]
    cases c path with
    | none => exact upload_triple paths io s hio hs
    | some data =>
      refine Triple.bind (upload_triple paths) (fun r => ?_) io s hio hs
      refine Triple.pure fun s hs => ⟨?_, hs.2⟩
      rw [hs.1]
      rfl

/-- What is published of an image that was built. -/
structure Release (component : ReleaseComponent) (version keyPath : String)
    (passphrase : Except String String) (image : List UInt8) (published : Published)
    (s : Files String) : Prop where
  copied : Copied image s
  signed : Signed keyPath passphrase image s
  published : published = ⟨component.formatTag version, '-' ∈ version.toList,
    uploaded s.content (candidateAssets component)⟩

/-- **A release with an image.** -/
theorem cmdRelease_triple {component : ReleaseComponent} {version keyPath : String}
    {passphrase : Except String String} {image : List UInt8}
    (hcomponent : component = .all ∨ component = .signer) (himage : c builtImage = some image)
    (hkey : keyPath ≠ sidecarPath releaseImage)
    (hkeyMoved : keyPath ∉ releaseChecksums :: movedPaths) :
    Triple Answer.Honest (fun s => s.content = c)
      (cmdRelease component version keyPath passphrase)
      (fun r s => ∀ published, r = .ok published →
        Release component version keyPath passphrase image published s ∧
        s.content keyPath = c keyPath)
      fun _ => True := by
  have hfailed : ∀ (e : String) (I : Files String → Prop), Triple Answer.Honest I
      (pure (.error e) : Fs String (Except String Published))
      (fun r s => ∀ published, r = .ok published →
        Release component version keyPath passphrase image published s ∧
        s.content keyPath = c keyPath) fun _ => True := by
    intro e I
    refine Triple.pure fun s _ => ?_
    rintro _ ⟨⟩
  unfold cmdRelease
  refine Triple.bind (copyReleaseAssets_triple hcomponent himage) fun r => ?_
  cases r with
  | error e => exact hfailed e _
  | ok u =>
    dsimp only
    rw [if_pos hcomponent]
    intro io s hio hs
    obtain ⟨hcopied, hsame⟩ := hs rfl
    have hkeyCopied := hsame keyPath hkeyMoved
    refine Triple.bind ((signReleaseImageAt_triple (c := s.content) hcopied.image hkey).mono
      (fun _ => id) (fun _ _ => id) fun _ => id) (fun r => ?_) io s hio rfl
    cases r with
    | error e => exact hfailed e _
    | ok u =>
      intro io s' hio hs'
      obtain ⟨hsigned, hsame'⟩ := hs' rfl
      have hcopied' : Copied image s' := by
        obtain ⟨himage', moved, hmoved, hsums⟩ := hcopied
        refine ⟨(hsame' _ (by decide)).trans himage', moved, hmoved, ?_⟩
        rw [hsame' _ (by decide), hsums, checksumsText_congr _ _ fun p hp => ?_]
        refine (hsame' p fun hmem => ?_).symm
        rw [List.mem_singleton.1 hmem] at hp
        rcases List.mem_append.1 hp with hp | hp
        · exact absurd (hmoved.subset hp) (by decide)
        · exact absurd hp (by decide)
      unfold cmdGithubRelease
      refine Triple.bind (upload_triple (c := s'.content) _) (fun assets => ?_) io s' hio rfl
      intro io s'' hio hs''
      obtain ⟨rfl, hcontent⟩ := hs''
      refine Triple.bind (touch_triple (I := fun s => s.content = s'.content) fun _ _ => trivial)
        (fun r => ?_) io s'' hio hcontent
      cases r with
      | error e => exact hfailed _ _
      | ok u =>
        refine Triple.pure fun s hs => ?_
        rintro _ ⟨⟩
        obtain ⟨content, trace⟩ := s
        obtain rfl : content = s'.content := hs
        exact ⟨⟨⟨hcopied'.image, hcopied'.checksums⟩, ⟨hsigned.unsigned, hsigned.signed⟩, rfl⟩,
          (hsame' keyPath fun hmem => hkey (List.mem_singleton.1 hmem)).trans hkeyCopied⟩

end

/-! ## What the host reads -/

open Host

/-- An asset as the server gives it out. -/
structure ServesAsset (web : Web) (asset : GitHubAsset) (file : String × List UInt8) : Prop where
  name : asset.name = file.1
  text : web.text asset.browserDownloadUrl = fromUtf8 file.2
  download : ∀ attempt, web.download asset.browserDownloadUrl attempt = .ok file.2

/-- A release as the server gives it out. -/
structure Serves (web : Web) (published : Published) (release : GitHubRelease) : Prop where
  tag : release.tagName = published.tag
  prerelease : release.prerelease = published.prerelease
  assets : List.Forall₂ (ServesAsset web) release.assets published.assets

section
variable {web : Web} {assets : List GitHubAsset} {files : List (String × List UInt8)}

/-- The asset of a file. -/
theorem find?_of_lookup {name : String} {data : List UInt8}
    (h : List.Forall₂ (ServesAsset web) assets files) (hlookup : files.lookup name = some data) :
    ∃ asset, assets.find? (·.name == name) = some asset ∧ ServesAsset web asset (name, data) := by
  induction h with
  | nil => cases hlookup
  | @cons asset file assets files hasset _ ih =>
    obtain ⟨fileName, content⟩ := file
    rw [List.lookup_cons] at hlookup
    rw [List.find?_cons, hasset.name]
    by_cases hname : name = fileName
    · subst hname
      rw [beq_self_eq_true] at hlookup ⊢
      cases hlookup
      exact ⟨asset, rfl, hasset⟩
    · rw [beq_false_of_ne hname] at hlookup
      rw [beq_false_of_ne (Ne.symm hname)]
      exact ih hlookup

/-- The signature in a file, with the name of the file that it signs. -/
def signatureOf (file : String × List UInt8) : Option (String × String) := do
  let signedName ← file.1.toList.dropSuffix? ".sig".toList
  let content ← fromUtf8 file.2
  let signature ← parseSignatureContent content
  return (String.ofList signedName, signature)

/-- The signatures of the files. -/
theorem fetchSignatures_of_served (h : List.Forall₂ (ServesAsset web) assets files) :
    fetchSignatures web assets = (files.filterMap signatureOf).reverse := by
  rw [fetchSignatures]
  congr 1
  induction h with
  | nil => rfl
  | @cons asset file assets files hasset _ ih =>
    have hfile : fetchSignature web asset = signatureOf file := by
      rw [fetchSignature, signatureOf, hasset.name, hasset.text]
    rw [List.filterMap_cons, List.filterMap_cons, hfile, ih]

end

/-- A file is uploaded under its name. -/
theorem lookup_uploaded {c : Content String} {p : String} : ∀ {paths : List String},
    (paths.map fileName).Nodup → p ∈ paths → (uploaded c paths).lookup (fileName p) = c p
  | path :: paths, hnodup, hp => by
    obtain ⟨hfresh, hnodup⟩ := List.nodup_cons.1 hnodup
    have hrest : path ≠ p → p ∈ paths → fileName p ≠ fileName path := fun _ hmem heq =>
      hfresh (heq ▸ List.mem_map_of_mem hmem)
    have hnone : ∀ {paths : List String}, fileName p ∉ paths.map fileName →
        (uploaded c paths).lookup (fileName p) = none := by
      intro paths hp
      rw [List.lookup_eq_none_iff]
      rintro ⟨name, data⟩ hmem
      obtain ⟨q, hq, heq⟩ := List.mem_filterMap.1 hmem
      obtain ⟨data', -, heq⟩ := Option.map_eq_some_iff.1 heq
      cases heq
      have hne : fileName p ≠ fileName q := by
        intro heq
        rw [heq] at hp
        exact hp (List.mem_map_of_mem hq)
      exact bne_iff_ne.2 hne
    rw [uploaded, List.filterMap_cons]
    by_cases heq : path = p
    · subst heq
      cases hpath : c path with
      | none => exact hnone hfresh
      | some data => rw [Option.map_some, List.lookup_cons, beq_self_eq_true]
    · have hmem : p ∈ paths := (List.mem_cons.1 hp).resolve_left (Ne.symm heq)
      have ih := lookup_uploaded (c := c) hnodup hmem
      cases hpath : c path with
      | none => exact ih
      | some data =>
        rw [Option.map_some, List.lookup_cons, beq_false_of_ne (hrest heq hmem)]
        exact ih

/-! ## The checksums, read back -/

/-- A name that ends a line. -/
def isPlainName (name : String) : Bool :=
  !name.toList.contains '\n' && name.toList.getLast?.any (!TezosEncrypt.isWhitespace ·)

/-- The last character of a line is that of its name. -/
theorem isPlainName_spec {name : String} (h : isPlainName name = true) :
    '\n' ∉ name.toList ∧ ∃ d, name.toList.getLast? = some d ∧
      TezosEncrypt.isWhitespace d = false := by
  rw [isPlainName, Bool.and_eq_true, Bool.not_eq_true', List.contains_eq_mem,
    decide_eq_false_iff_not, Option.any_eq_true] at h
  obtain ⟨hnewline, d, hlast, hd⟩ := h
  exact ⟨hnewline, d, hlast, (Bool.not_eq_true' _).mp hd⟩

/-- The digits of a text are no whitespace. -/
theorem isWhitespace_hexEncode (bytes : List UInt8) :
    ∀ c ∈ hexEncode bytes, TezosEncrypt.isWhitespace c = false := by
  intro c hc
  have hplain := forall_hexEncode (p := fun c => !TezosEncrypt.isWhitespace c) (by decide) bytes c
    hc
  exact (Bool.not_eq_true' _).mp hplain

/-- A digest is not empty. -/
theorem hexEncode_ne_nil {n : Nat} (bytes : Fixed (n + 1)) : hexEncode bytes.1 ≠ [] := by
  intro h
  have hlen := length_hexEncode bytes.1
  rw [h, bytes.2] at hlen
  cases hlen

/-- **A line of `checksums.txt` is read back.** -/
theorem parseChecksumLine_checksumLine {digest : Fixed 32} {hash name : String}
    (hhash : hash.toList = hexEncode digest.1) (hname : isPlainName name = true) :
    IsLine (hash.toList ++ [' ', ' '] ++ name.toList) ∧
      parseChecksumLine (hash.toList ++ [' ', ' '] ++ name.toList) = some (name, hash) := by
  obtain ⟨hnewline, d, hlast, hd⟩ := isPlainName_spec hname
  have hwhite := isWhitespace_hexEncode digest.1
  have hhashNe := hexEncode_ne_nil digest
  rw [← hhash] at hwhite hhashNe
  have hne : name.toList ≠ [] := fun h => by
    rw [h] at hlast
    cases hlast
  have hlineLast : (hash.toList ++ [' ', ' '] ++ name.toList).getLast? = some d := by
    rw [List.getLast?_append_of_ne_nil _ hne, hlast]
  have htrim : TezosEncrypt.trim (hash.toList ++ [' ', ' '] ++ name.toList) =
      hash.toList ++ [' ', ' '] ++ name.toList := by
    refine trim_of_ends (fun c hc => ?_) fun c hc => ?_
    · rw [List.append_assoc, List.head?_append_of_ne_nil _ hhashNe] at hc
      exact hwhite c (List.mem_of_head? hc)
    · rw [hlineLast] at hc
      cases hc
      exact hd
  refine ⟨⟨?_, ?_⟩, ?_⟩
  · intro hmem
    rcases List.mem_append.1 hmem with hmem | hmem
    · rcases List.mem_append.1 hmem with hmem | hmem
      · exact absurd (hwhite _ hmem) (by decide)
      · exact absurd hmem (by decide)
    · exact hnewline hmem
  · rw [hlineLast]
    rintro ⟨⟩
    exact absurd hd (by decide)
  · have hspace : ' ' ∉ hash.toList := fun hmem => absurd (hwhite _ hmem) (by decide)
    have hlineNe : hash.toList ++ [' ', ' '] ++ name.toList ≠ [] := by
      intro h
      exact hne (List.append_eq_nil_iff.1 h).2
    have hsplit : splitOnce "  ".toList (hash.toList ++ [' ', ' '] ++ name.toList) =
        some (hash.toList, name.toList) := splitOnce_append [' '] name.toList hspace
    rw [parseChecksumLine, htrim]
    dsimp only
    rw [if_neg hlineNe, hsplit, Option.map_some, String.ofList_toList, String.ofList_toList]

section
variable [Sha256] {c : Content String}

/-- The lines of the text. -/
theorem checksumsText_eq : ∀ (paths : List String) (text : String),
    (checksumsText c paths text).toList = text.toList ++ (paths.map fun path =>
      (Sha256.hexDigest ((c path).getD [])).toList ++ [' ', ' '] ++
        (fileName path).toList).flatMap (· ++ ['\n'])
  | [], text => (List.append_nil _).symm
  | path :: paths, text => by
    have hspaces : "  ".toList = [' ', ' '] := rfl
    have hnewline : "\n".toList = ['\n'] := rfl
    rw [checksumsText, checksumsText_eq paths, checksumLine]
    simp only [String.toList_append, hspaces, hnewline, List.append_assoc, List.map_cons,
      List.flatMap_cons]

/-- **`checksums.txt` is read back**, the last line first. -/
theorem parseChecksums_checksumsText [LawfulSha256] {paths : List String}
    (hpaths : ∀ p ∈ paths, isPlainName (fileName p) = true) :
    parseChecksums (checksumsText c paths "") =
      (paths.map fun p => (fileName p, Sha256.hexDigest ((c p).getD []))).reverse := by
  have hline : ∀ p ∈ paths, _ := fun p hp =>
    parseChecksumLine_checksumLine (LawfulSha256.hexDigest_eq ((c p).getD [])).choose_spec
      (hpaths p hp)
  rw [parseChecksums, checksumsText_eq]
  change ((lines (List.flatMap _ _)).filterMap _).reverse = _
  rw [lines_flatMap, List.filterMap_map]
  · congr 1
    refine (List.filterMap_congr fun p hp => (hline p hp).2).trans ?_
    exact congrFun List.filterMap_eq_map' paths
  · intro l hl
    obtain ⟨p, hp, rfl⟩ := List.mem_map.1 hl
    exact (hline p hp).1

end

/-! ## The signature, read back -/

/-- **A signature is read back** from its line. -/
theorem parseSignatureContent_line {n : Nat} {bytes : Fixed (n + 1)} {signature : String}
    (h : signature.toList = hexEncode bytes.1) :
    parseSignatureContent (signature ++ "\n") = some signature := by
  have hwhite := isWhitespace_hexEncode bytes.1
  have hne := hexEncode_ne_nil bytes
  rw [← h] at hwhite hne
  have hhead : (signature ++ "\n").toList.dropWhile TezosEncrypt.isWhitespace =
      signature.toList ++ ['\n'] := by
    rw [String.toList_append]
    cases hsig : signature.toList with
    | nil => exact absurd hsig hne
    | cons c rest =>
      refine List.dropWhile_cons_of_neg ?_
      rw [hwhite c (hsig ▸ List.mem_cons_self)]
      exact Bool.false_ne_true
  have hlast : (signature.toList ++ ['\n']).reverse.dropWhile TezosEncrypt.isWhitespace =
      signature.toList.reverse := by
    rw [List.reverse_append, List.reverse_singleton, List.singleton_append,
      List.dropWhile_cons_of_pos (by decide)]
    cases hsig : signature.toList.reverse with
    | nil => rfl
    | cons c rest =>
      have hc : c ∈ signature.toList := List.mem_reverse.1 (hsig ▸ List.mem_cons_self)
      refine List.dropWhile_cons_of_neg ?_
      rw [hwhite c hc]
      exact Bool.false_ne_true
  unfold parseSignatureContent TezosEncrypt.trim
  dsimp only
  rw [hhead, hlast, List.reverse_reverse, if_neg hne, String.ofList_toList]

/-- The signature that the host finds of an image is that of its sidecar. -/
theorem lookup_signatures {component : ReleaseComponent} {c : Content String}
    (hcomponent : component = .all ∨ component = .signer) :
    ((uploaded c (candidateAssets component)).filterMap signatureOf).reverse.lookup imageAsset =
      ((c (sidecarPath releaseImage)).bind fromUtf8).bind parseSignatureContent := by
  have hother : ∀ path, (fileName path).toList.dropSuffix? ".sig".toList = none →
      ((c path).map (fileName path, ·)).bind signatureOf = none := by
    intro path hpath
    cases c path with
    | none => rfl
    | some data =>
      rw [Option.map_some, Option.bind_some, signatureOf, hpath]
      rfl
  have hsidecar : ((c (sidecarPath releaseImage)).map (fileName (sidecarPath releaseImage), ·)).bind
      signatureOf = (((c (sidecarPath releaseImage)).bind fromUtf8).bind
        parseSignatureContent).map (imageAsset, ·) := by
    cases c (sidecarPath releaseImage) with
    | none => rfl
    | some data =>
      have hname : (fileName (sidecarPath releaseImage)).toList.dropSuffix? ".sig".toList =
          some imageAsset.toList := by decide
      rw [Option.map_some, Option.bind_some, Option.bind_some, signatureOf, hname]
      cases fromUtf8 data with
      | none => rfl
      | some content =>
        change (parseSignatureContent content).bind _ = (parseSignatureContent content).map _
        cases parseSignatureContent content with
        | none => rfl
        | some signature => exact congrArg (fun name => some (name, signature)) String.ofList_toList
  have hall : (uploaded c (candidateAssets component)).filterMap signatureOf =
      ((((c (sidecarPath releaseImage)).bind fromUtf8).bind
        parseSignatureContent).map (imageAsset, ·)).toList := by
    have hskip : ∀ path paths, (fileName path).toList.dropSuffix? ".sig".toList = none →
        (uploaded c (path :: paths)).filterMap signatureOf =
          (uploaded c paths).filterMap signatureOf := by
      intro path paths hpath
      rw [uploaded, List.filterMap_filterMap, List.filterMap_cons, hother path hpath, uploaded,
        List.filterMap_filterMap]
    have hlast : (uploaded c [releaseImage, sidecarPath releaseImage, releaseChecksums]).filterMap
        signatureOf = ((((c (sidecarPath releaseImage)).bind fromUtf8).bind
          parseSignatureContent).map (imageAsset, ·)).toList := by
      rw [hskip _ _ (by decide), uploaded, List.filterMap_filterMap, List.filterMap_cons, hsidecar,
        List.filterMap_cons, hother _ (by decide), List.filterMap_nil]
      cases (((c (sidecarPath releaseImage)).bind fromUtf8).bind parseSignatureContent) <;> rfl
    rcases hcomponent with rfl | rfl
    · exact ((hskip _ _ (by decide)).trans (hskip _ _ (by decide))).trans hlast
    · exact hlast
  rw [hall]
  cases ((c (sidecarPath releaseImage)).bind fromUtf8).bind parseSignatureContent with
  | none => rfl
  | some signature =>
    rw [Option.map_some, Option.toList_some, List.reverse_singleton, List.lookup_cons,
      beq_self_eq_true]

/-! ## The release, downloaded -/

section
variable [Sha256] [LawfulSha256] [Semver] {component : ReleaseComponent}
  {version keyPath : String} {passphrase : Except String String} {image : List UInt8}
  {published : Published} {s : Files String} {web : Web} {releases : List GitHubRelease}
  {release : GitHubRelease} {includePrerelease : Bool}

omit [Sha256] [LawfulSha256] in
/-- A release of the signer alone has a tag that the host does not read. -/
theorem parseTagVersion_signer (version : String) :
    parseTagVersion (ReleaseComponent.signer.formatTag version) = none := by
  have htag : (ReleaseComponent.signer.formatTag version).toList =
      's' :: ("igner-v".toList ++ version.toList) := by
    change ("signer" ++ "-v" ++ version).toList = _
    rw [String.toList_append]
    rfl
  rw [parseTagVersion, htag]
  rfl

/-- The image of a release as the host finds it: under its digest, with the signature of its
sidecar. -/
theorem resolveDownloadInfo_published [BlobCrypto] [Ed25519]
    (hcomponent : component = .all ∨ component = .signer)
    (hrelease : Release component version keyPath passphrase image published s)
    (hserves : Serves web published release) (hreleases : web.releases = .ok releases)
    (hselect : selectLatestRelease releases includePrerelease .image = some release) :
    ∃ dl, resolveDownloadInfo web none includePrerelease = .ok dl ∧
      dl.checksum = some (Sha256.hexDigest image) ∧
      dl.signature = ((s.content (sidecarPath releaseImage)).bind fromUtf8).bind
        parseSignatureContent ∧
      dl.version = some (trimTag published.tag) ∧
      dl.channel = some (if '-' ∈ (trimTag published.tag).toList then "beta" else "stable") ∧
      ∀ attempt, web.download dl.url attempt = .ok image := by
  obtain ⟨⟨himage, moved, hmoved, hsums⟩, -, hpublished⟩ := hrelease
  have hassets := hserves.assets
  rw [hpublished] at hassets
  dsimp only at hassets
  have hnames : ((candidateAssets component).map fileName).Nodup := by
    rcases hcomponent with rfl | rfl <;> decide
  have hcandidates : releaseImage ∈ candidateAssets component ∧
      releaseChecksums ∈ candidateAssets component := by
    rcases hcomponent with rfl | rfl <;> decide
  have hchecksums : (fetchChecksums web release.assets).lookup imageAsset =
      some (Sha256.hexDigest image) := by
    obtain ⟨asset, hfind, hasset⟩ := find?_of_lookup hassets
      ((lookup_uploaded hnames hcandidates.2).trans hsums)
    have hplain : ∀ p ∈ moved ++ [releaseImage], isPlainName (fileName p) = true := by
      intro p hp
      rcases List.mem_append.1 hp with hp | hp
      · have hall : ∀ p ∈ hostReleaseBinaries.map Prod.snd, isPlainName (fileName p) = true := by
          decide
        exact hall p (hmoved.subset hp)
      · rw [List.mem_singleton.1 hp]
        decide
    have hfind : release.assets.find? (·.name == "checksums.txt") = some asset := hfind
    rw [fetchChecksums, hfind]
    dsimp only
    rw [hasset.text, Crypto.fromUtf8_asBytes]
    dsimp only
    rw [parseChecksums_checksumsText hplain, List.map_append, List.reverse_append,
      List.map_singleton, List.reverse_singleton, List.singleton_append, himage]
    exact List.lookup_cons_self
  have hsignature : (fetchSignatures web release.assets).lookup imageAsset =
      ((s.content (sidecarPath releaseImage)).bind fromUtf8).bind parseSignatureContent := by
    rw [fetchSignatures_of_served hassets]
    exact lookup_signatures hcomponent
  obtain ⟨asset, hfind, hasset⟩ : ∃ asset,
      release.assets.reverse.find? (·.name == imageAsset) = some asset ∧
        ServesAsset web asset (imageAsset, image) := by
    refine find?_of_lookup (List.forall₂_reverse_iff.2 hassets) ?_
    have hreverse : (uploaded s.content (candidateAssets component)).reverse =
        uploaded s.content (candidateAssets component).reverse := (List.filterMap_reverse ..).symm
    have hnamesReverse : ((candidateAssets component).reverse.map fileName).Nodup := by
      rw [List.map_reverse]
      exact List.nodup_reverse.2 hnames
    rw [hreverse]
    exact (lookup_uploaded hnamesReverse (List.mem_reverse.2 hcandidates.1)).trans himage
  have hinfo : fetchLatestVersion web includePrerelease .image = .ok (buildVersionInfo release
      (fetchChecksums web release.assets) (fetchSignatures web release.assets)) := by
    simp only [fetchLatestVersion, hreleases, bind, Except.bind, hselect]
    rfl
  have hname : asset.name = imageAsset := hasset.name
  have hlookup := buildVersionInfo_image release (fetchChecksums web release.assets)
    (fetchSignatures web release.assets)
  rw [hfind, Option.map_some] at hlookup
  refine ⟨.fromRelease asset.browserDownloadUrl (trimTag release.tagName)
    (imageInfo (fetchChecksums web release.assets) (fetchSignatures web release.assets) asset),
    ?_, ?_, ?_, ?_, ?_, hasset.download⟩
  · rw [resolveDownloadInfo, hinfo]
    simp only [bind, Except.bind, hlookup, getImageDownloadUrl, buildVersionInfo_version]
    rfl
  · rw [DownloadInfo.fromRelease, imageInfo, hname, hchecksums]
    rfl
  · rw [DownloadInfo.fromRelease, imageInfo, hname, hsignature]
  · rw [DownloadInfo.fromRelease, hserves.tag]
  · rw [DownloadInfo.fromRelease, hserves.tag]

omit [Semver] in
/-- A digest is a text. -/
theorem hexDigest_ne_empty (bytes : List UInt8) : Sha256.hexDigest bytes ≠ "" := by
  obtain ⟨digest, hdigest⟩ := LawfulSha256.hexDigest_eq bytes
  intro h
  rw [h] at hdigest
  exact hexEncode_ne_nil digest hdigest.symm

omit [Semver] [LawfulSha256] in
/-- A download of an image by its own digest is of an image with that digest. -/
theorem downloadWithCache_served {url : String} (host : HostFiles)
    (hdownload : ∀ attempt, web.download url attempt = .ok image) :
    ∃ image', downloadWithCache host web url (Sha256.hexDigest image) = .ok image' ∧
      Sha256.hexDigest image' = Sha256.hexDigest image := by
  cases hcached : (host.cached url).filter (Sha256.hexDigest · = Sha256.hexDigest image) with
  | some data =>
    refine ⟨data, ?_, of_decide_eq_true (Option.filter_eq_some_iff.1 hcached).2⟩
    rw [downloadWithCache, hcached]
  | none =>
    refine ⟨image, ?_, rfl⟩
    have hfile : downloadFile web url = .ok image := by rw [downloadFile, hdownload]
    rw [downloadWithCache, hcached]
    simp only [hfile, bind, Except.bind, if_true]
    rfl

omit [Semver] in
/-- A download by its own digest is let through where its signature is. -/
theorem downloadAndVerify_served [Ed25519] {dl : DownloadInfo} (host : HostFiles)
    (hchecksum : dl.checksum = some (Sha256.hexDigest image))
    (hdownload : ∀ attempt, web.download dl.url attempt = .ok image) :
    ∃ image', Sha256.hexDigest image' = Sha256.hexDigest image ∧ ∀ allowUnsigned,
      downloadAndVerifyReleaseImage host web dl allowUnsigned =
        (enforceReleaseSignature (Sha256.hexDigest image) dl.signature allowUnsigned).map
          fun signed =>
            (image', ⟨Sha256.hexDigest image, dl.version, dl.channel, some signed⟩) := by
  obtain ⟨image', hcache, hdigest⟩ := downloadWithCache_served host hdownload
  refine ⟨image', hdigest, fun allowUnsigned => ?_⟩
  have hfilter : dl.checksum.filter (· ≠ "") = some (Sha256.hexDigest image) := by
    rw [hchecksum, Option.filter_some, if_pos (decide_eq_true (hexDigest_ne_empty image))]
  unfold downloadAndVerifyReleaseImage
  rw [hfilter]
  simp only [hcache, bind, Except.bind, hdigest, ne_eq, not_true_eq_false, if_false]
  cases enforceReleaseSignature (Sha256.hexDigest image) dl.signature allowUnsigned <;> rfl

omit [Sha256] [LawfulSha256] [Semver] in
/-- The key is none of the paths of the build. -/
theorem defaultKeyPath_ne (configDir : String) {path : String}
    (h : path.toList.getLast? ≠ some 'y') : defaultKeyPath configDir ≠ path := by
  rintro rfl
  refine h ?_
  rw [defaultKeyPath, String.toList_append, List.getLast?_append_of_ne_nil _ (by decide)]
  decide

/-- **A published image is trusted.** An image that `cargo xtask release` published, whichever of
its calls failed and whatever was left of earlier releases, is downloaded by every host that finds
its release to be the latest, which is a full release then. Where it was signed under the maintainer
key the host takes it as verified; where there was no key it refuses it unless unsigned images are
allowed. -/
theorem published_image_is_trusted [BlobCrypto] [Ed25519] [LawfulEd25519]
    (component : ReleaseComponent) (version configDir : String) (passphrase : Except String String)
    (image : List UInt8) (io : List Answer) (s : Files String) (published : Published)
    (host : HostFiles) (web : Web) (releases : List GitHubRelease) (release : GitHubRelease)
    (includePrerelease allowUnsigned : Bool) (hhonest : ∀ a ∈ io, a.Honest)
    (hcomponent : component = .all ∨ component = .signer)
    (himage : s.content builtImage = some image)
    (hpublish : ((cmdRelease component version (defaultKeyPath configDir) passphrase).run io s).1 =
      some (.ok published))
    (hserves : Serves web published release) (hreleases : web.releases = .ok releases)
    (hselect : selectLatestRelease releases includePrerelease .image = some release) :
    component = .all ∧ ∃ image', Sha256.hexDigest image' = Sha256.hexDigest image ∧
      (s.content (defaultKeyPath configDir) = none →
        flashedImage host web (.download none includePrerelease) allowUnsigned =
          if allowUnsigned then .ok (image', ⟨Sha256.hexDigest image, some (trimTag published.tag),
            some (if '-' ∈ (trimTag published.tag).toList then "beta" else "stable"),
            some "unsigned"⟩)
          else .error ("Refusing to flash: " ++ ReleaseSignatureError.unsignedRefused.toString)) ∧
      ∀ random seed chosen blob, sealSeed random (asBytes chosen) seed = .ok blob →
        s.content (defaultKeyPath configDir) = some blob →
        (∀ typed, passphrase = .ok typed → Crypto.Authenticated {asBytes chosen, asBytes typed}) →
        maintainerPubkey = some (Ed25519.publicKey seed) →
        flashedImage host web (.download none includePrerelease) allowUnsigned =
          .ok (image', ⟨Sha256.hexDigest image, some (trimTag published.tag),
            some (if '-' ∈ (trimTag published.tag).toList then "beta" else "stable"),
            some "verified"⟩) := by
  have hkey : defaultKeyPath configDir ≠ sidecarPath releaseImage :=
    defaultKeyPath_ne configDir (by decide)
  have hkeyMoved : defaultKeyPath configDir ∉ releaseChecksums :: movedPaths := by
    intro hmem
    have hlast : ∀ p ∈ releaseChecksums :: movedPaths, p.toList.getLast? ≠ some 'y' := by decide
    exact defaultKeyPath_ne configDir (hlast _ hmem) rfl
  rcases (cmdRelease_triple (c := s.content) hcomponent himage hkey hkeyMoved).run hhonest rfl with
    ⟨r, hr, hreleased⟩ | ⟨hr, -⟩
  · obtain ⟨hrelease, hkept⟩ := hreleased published (Option.some.inj (hr.symm.trans hpublish))
    obtain ⟨⟨v, hlatest⟩, -⟩ := selectLatestRelease_spec hselect
    obtain ⟨dl, hdl, hchecksum, hsignature, hversion, hchannel, hdownload⟩ :=
      resolveDownloadInfo_published hcomponent hrelease hserves hreleases hselect
    obtain ⟨image', hdigest, hverify⟩ := downloadAndVerify_served host hchecksum hdownload
    have hflashed : flashedImage host web (.download none includePrerelease) allowUnsigned =
        downloadAndVerifyReleaseImage host web dl allowUnsigned := by
      rw [flashedImage, hdl]
      rfl
    refine ⟨?_, image', hdigest, fun hnone => ?_, fun random seed chosen blob hseal hblob hauth
      hpubkey => ?_⟩
    · rcases hcomponent with rfl | rfl
      · rfl
      · have hversion := hlatest.version
        rw [hserves.tag, hrelease.published, parseTagVersion_signer] at hversion
        cases hversion
    · have hunsigned := hrelease.signed.unsigned (hkept.trans hnone)
      rw [hflashed, hverify, hsignature, hunsigned, hversion, hchannel]
      cases allowUnsigned <;> rfl
    · obtain ⟨typed, seed', signature, htyped, hunseal, hsign, hsidecar⟩ :=
        hrelease.signed.signed blob (hkept.trans hblob)
      obtain rfl := unsealSeed_sealSeed (hauth typed htyped) hseal hunseal
      obtain ⟨bytes, htext⟩ := toList_sign hsign
      rw [hflashed, hverify, hsignature, hsidecar, Option.bind_some, Crypto.fromUtf8_asBytes,
        Option.bind_some, parseSignatureContent_line htext,
        enforceReleaseSignature_verified hpubkey (verify_sign hsign), hversion, hchannel]
      rfl
  · cases hr.symm.trans hpublish

end

/-! ## A release to evaluate -/

section
attribute [local instance] plainDigest plainDigest_lawful plainEd25519 plainEd25519_lawful
  plainSemver Crypto.plainCrypto

/-- A tree with an image of three bytes, and a key. -/
def builtTree : Files String where
  content path :=
    if path = builtImage then some [1, 2, 3]
    else if path = "/russignol/maintainer-key" then
      (sealSeed ⟨zeros 16, zeros 12⟩ (asBytes "pass") (zeros 32)).toOption
    else none
  trace := []

/-- The release that is published of it. -/
def builtRelease : Published where
  tag := "v0.26.0"
  prerelease := false
  assets :=
    [("russignol-pi-zero.img.xz", [1, 2, 3]),
      ("russignol-pi-zero.img.xz.sig",
        asBytes (String.ofList (hexEncode (resized 64 (resized 32 [1, 2, 3]).1).1) ++ "\n")),
      ("checksums.txt", asBytes (Sha256.hexDigest [1, 2, 3] ++ "  russignol-pi-zero.img.xz\n"))]

/-- A release as it is listed, its assets under their names. -/
def listed (published : Published) : GitHubRelease where
  tagName := published.tag
  publishedAt := ""
  prerelease := published.prerelease
  assets := published.assets.map fun file => ⟨file.1, file.2.length, file.1⟩

/-- A server of a release. -/
def serverOf (published : Published) : Web where
  releases := .ok [listed published]
  text url := (published.assets.lookup url).bind fromUtf8
  download url _ := (published.assets.lookup url).elim (.error "404") .ok

/-- The server serves it, where no name stands for two assets. -/
theorem serves_serverOf {published : Published}
    (h : ∀ file ∈ published.assets, published.assets.lookup file.1 = some file.2) :
    Serves (serverOf published) published (listed published) := by
  refine ⟨rfl, rfl, List.forall₂_map_left_iff.2 (List.forall₂_same.2 fun file hfile => ?_)⟩
  refine ⟨rfl, ?_, fun _ => ?_⟩
  · change (published.assets.lookup file.1).bind fromUtf8 = _
    rw [h file hfile, Option.bind_some]
  · change (published.assets.lookup file.1).elim _ _ = _
    rw [h file hfile, Option.elim_some]

/-- The image is flashed as verified. -/
theorem published_image_is_trusted_built : ∃ image',
    flashedImage signedHost (serverOf builtRelease) (.download none false) false =
      .ok (image', ⟨Sha256.hexDigest [1, 2, 3], some "0.26.0", some "stable",
        some "verified"⟩) := by
  obtain ⟨-, image', -, -, hsigned⟩ := published_image_is_trusted .all "0.26.0" "" (.ok "pass")
    [1, 2, 3] [] builtTree builtRelease signedHost (serverOf builtRelease)
    [listed builtRelease] (listed builtRelease) false false
    (fun _ h => absurd h List.not_mem_nil) (.inl rfl) rfl (by decide +kernel)
    (serves_serverOf (by decide +kernel)) rfl (by decide +kernel)
  exact ⟨image', hsigned ⟨zeros 16, zeros 12⟩ (zeros 32) "pass" _ rfl rfl
    (fun typed htyped => by
      cases htyped
      exact Crypto.plainCrypto_authenticated (by simp)) rfl⟩

end

end Russignol.Xtask
