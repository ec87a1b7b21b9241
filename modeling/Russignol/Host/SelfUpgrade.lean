import Russignol.Base.FileRules
import Russignol.Host.ReadBack
import Russignol.Host.Releases

/-!
# The upgrade of the host utility

`host-utility/src/upgrade.rs`. The binary that runs is renamed out of the way and the downloaded one
is renamed to its place, or copied where that is on another file system. Any of the calls may fail,
and the process may be killed in any of them: at every point a whole binary is at the path or at the
backup path, and one that is not the old one has the checksum of the latest release, whose version
is newer (`upgrade_keeps_a_binary`).

A binary that is itself called `*.old` is its own backup: such an upgrade ends in success without a
binary (`replaceBinary_old`).
-/

namespace Russignol.Host

open CrashProgram FileStore

/-! ## Paths -/

/-- A path of the upgrade: the downloaded file, or an absolute path by its components. -/
inductive UpgradePath
  | temp
  | file (components : List String)
  deriving DecidableEq, Repr

/-- `Path::file_stem`, of a file name. -/
def fileStem (name : List Char) : List Char :=
  if name = "..".toList then name
  else
    match name.reverse.dropWhile (· ≠ '.') with
    | [] | [_] => name
    | _ :: before => before.reverse

/-- `Path::with_extension`. -/
def withExtension (extension : String) : List String → List String
  | [] => []
  | [name] => [String.ofList (fileStem name.toList ++ '.' :: extension.toList)]
  | c :: d :: components => c :: withExtension extension (d :: components)

/-! ## The replacement -/

/-- `restore_note`. -/
def restoreNote (restored : Bool) : String :=
  if restored then "Original restored."
  else "The original could NOT be restored — no working binary is installed at that path. " ++
    "Reinstall before continuing."

/-- `fs::rename`: a file that is renamed to itself stays. -/
def renameFile (p q : UpgradePath) : Fs UpgradePath (Except FileStore.IoError Unit) :=
  if p = q then touch else rename p q

/-- `raw_os_error() == Some(18)`. -/
def IsExdev (e : FileStore.IoError) : Prop := e.text = "Invalid cross-device link (os error 18)"

instance (e : FileStore.IoError) : Decidable (IsExdev e) := inferInstanceAs (Decidable (_ = _))

/-- `fs::copy`. -/
def copyFile (p q : UpgradePath) : Fs UpgradePath (Except FileStore.IoError Unit) := do
  match ← readFile p with
  | .error e => pure (.error e)
  | .ok data => writeSync q data

/-- `Path::display`, of an absolute path. -/
def displayPath (components : List String) : String := String.join (components.map ("/" ++ ·))

/-- The backup is removed, and a failure to is only warned of. -/
def cleanUp (backup : UpgradePath) : Fs UpgradePath (Except String Unit) := do
  match ← pathExists backup with
  | true =>
    let _ ← removeFile backup
    pure (.ok ())
  | false => pure (.ok ())

/-- The old binary is put back, and the failure is returned. -/
def putBack (backup path : UpgradePath) (context : String) :
    Fs UpgradePath (Except String Unit) := do
  let restored ← renameFile backup path
  pure (.error (context ++ ". " ++ restoreNote (restored matches .ok ())))

/-- The first step: the binary that runs is renamed out of the way. -/
def moveAside (path backup : UpgradePath) : Fs UpgradePath (Except FileStore.IoError Unit) := do
  match ← pathExists path with
  | true => renameFile path backup
  | false => pure (.ok ())

/-- The second step, with what follows it. -/
def moveInPlace (components : List String) (path backup : UpgradePath) :
    Fs UpgradePath (Except String Unit) := do
  match ← renameFile .temp path with
  | .ok () => cleanUp backup
  | .error e =>
    if IsExdev e then do
      match ← copyFile .temp path with
      | .ok () => cleanUp backup
      | .error _ => putBack backup path ("Failed to copy binary to " ++ displayPath components)
    else putBack backup path ("Failed to replace binary at " ++ displayPath components)

/-- `replace_binary`. -/
def replaceBinary (components : List String) : Fs UpgradePath (Except String Unit) :=
  let path := UpgradePath.file components
  let backup := UpgradePath.file (withExtension "old" components)
  if components.head? = some "usr" ∨ components.head? = some "opt" then
    pure (.error ("Russignol is installed in a system directory (" ++ displayPath components ++
      ").\nPlease reinstall to ~/.local/bin using 'russignol install'."))
  else do
    match ← touch with
    | .error _ => pure (.error "Failed to read temp file permissions")
    | .ok () =>
      match ← touch with
      | .error _ => pure (.error "Failed to set executable permissions")
      | .ok () =>
        match ← moveAside path backup with
        | .error _ => pure (.error "Failed to rename old binary")
        | .ok () => moveInPlace components path backup

/-! ## The upgrade -/

/-- `download_with_progress`, in an attempt: what was received is in the temporary file. -/
def downloadWithProgress (web : Web) (url : String) (attempt : Nat) :
    Fs UpgradePath (Except String Unit) :=
  match web.download url attempt with
  | .error e => pure (.error e)
  | .ok data => do
    match ← writeSync .temp data with
    | .error _ => pure (.error "Failed to write to temporary file")
    | .ok () => pure (.ok ())

/-- The attempts of `download_binary` from one on. -/
def downloadFrom (web : Web) (url : String) (attempt : Nat) :
    Nat → Fs UpgradePath (Except String Unit)
  | 0 => downloadWithProgress web url attempt
  | retries + 1 => do
    match ← downloadWithProgress web url attempt with
    | .ok () => pure (.ok ())
    | .error _ => downloadFrom web url (attempt + 1) retries

/-- `download_binary`. -/
def downloadBinary (web : Web) (info : VersionInfo) (arch : String) :
    Fs UpgradePath (Except String Unit) :=
  match getDownloadUrl info arch with
  | .error e => pure (.error e)
  | .ok url =>
    match info.binaries.lookup arch with
    | none => pure (.error "Architecture not found")
    | some _ => downloadFrom web url 1 2

/-- How an upgrade ends well. -/
inductive Upgrade
  | latest
  | available
  | upgraded
  deriving DecidableEq, Repr

section
variable [Semver] [Sha256]

/-- `verify_checksum`. -/
def verifyChecksum (p : UpgradePath) (expected : String) : Fs UpgradePath (Except String Unit) := do
  match ← readFile p with
  | .error e => pure (.error e.text)
  | .ok data =>
    if Sha256.hexDigest data = expected then pure (.ok ())
    else
      pure (.error ("Checksum verification failed!\nExpected: " ++ expected ++ "\nGot:      " ++
        Sha256.hexDigest data))

omit [Sha256] in
/-- `check_for_updates`. -/
def checkForUpdates (web : Web) (currentVersion : String) (includePrerelease : Bool) :
    Except String (Option VersionInfo) := do
  let latest ← fetchLatestVersion web includePrerelease .binaries
  if ← isNewer currentVersion latest.version then return some latest else return none

/-- What `run_upgrade` does with the file it has downloaded. -/
def installDownload (arch : String) (components : List String) (info : VersionInfo) :
    Fs UpgradePath (Except String Upgrade) :=
  match info.binaries.lookup arch with
  | none => pure (.error "Architecture not found in version info")
  | some binary =>
    if binary.sha256 = "" then
      pure (.error ("Checksum not available for this release. Cannot safely upgrade without " ++
        "verification."))
    else do
      match ← verifyChecksum .temp binary.sha256 with
      | .error e => pure (.error e)
      | .ok () =>
        match ← replaceBinary components with
        | .error e => pure (.error e)
        | .ok () => pure (.ok .upgraded)

/-- What `run_upgrade` does with an update. -/
def installUpdate (web : Web) (arch : String) (components : List String) (info : VersionInfo) :
    Fs UpgradePath (Except String Upgrade) := do
  match ← downloadBinary web info arch with
  | .error e => pure (.error e)
  | .ok () => installDownload arch components info

/-- `run_upgrade`, of the binary at a path. -/
def runUpgrade (web : Web) (currentVersion arch : String) (components : List String)
    (checkOnly includePrerelease : Bool) : Fs UpgradePath (Except String Upgrade) :=
  match checkForUpdates web currentVersion includePrerelease with
  | .error e => pure (.error ("Failed to check for updates: " ++ e))
  | .ok none => pure (.ok .latest)
  | .ok (some info) =>
    if checkOnly then pure (.ok .available) else installUpdate web arch components info

end

/-! ## What is at the paths -/

section
variable {A : Answer → Prop} {components : List String} {old new : List UInt8}

/-- The path of the backup. -/
abbrev backupPath (components : List String) : UpgradePath :=
  .file (withExtension "old" components)

/-- The old binary is at its path or at the backup, or the new one is at the path. -/
def HasBinary (components : List String) (old new : List UInt8) (s : Files UpgradePath) : Prop :=
  s.content (.file components) = some old ∨ s.content (backupPath components) = some old ∨
    s.content (.file components) = some new

/-- The old binary is at the backup path. -/
def BackedUp (components : List String) (old : List UInt8) (s : Files UpgradePath) : Prop :=
  s.content (backupPath components) = some old

/-- The new binary is at the path. -/
def Installed (components : List String) (new : List UInt8) (s : Files UpgradePath) : Prop :=
  s.content (.file components) = some new

/-- The removal of the backup leaves what is at the path. -/
theorem cleanUp_triple (hne : backupPath components ≠ .file components) :
    Triple A (Installed components new) (cleanUp (backupPath components))
      (fun _ => Installed components new) (Installed components new) := by
  have hremoved : ∀ s, Installed components new s →
      Installed components new (s.unlink (backupPath components)) := by
    intro s hs
    exact (s.unlink_content_of_ne hne.symm).trans hs
  unfold cleanUp
  refine Triple.bind (pathExists_triple _) fun exists? => ?_
  cases exists? with
  | true =>
    refine Triple.bind (R := fun _ => Installed components new) ?_ fun _ => Triple.pure fun _ => id
    refine (removeFile_triple (I := Installed components new)
      (Q := fun _ => Installed components new) (C := Installed components new)
      (fun s hs _ => hremoved s hs)
      (fun _ s hs => ⟨hs, fun _ => hremoved s hs⟩)
      fun s hs => ⟨hs, fun _ => hremoved s hs⟩).mono (fun _ hs => hs.2) (fun _ _ => id) fun _ => id
  | false => exact Triple.pure fun _ hs => hs.2

/-- The old binary is put back, or stays at the backup path. -/
theorem putBack_triple (hne : backupPath components ≠ .file components) (context : String) :
    Triple A (BackedUp components old) (putBack (backupPath components) (.file components) context)
      (fun r s => HasBinary components old new s ∧ r ≠ .ok ()) (HasBinary components old new) := by
  have hback : ∀ s, BackedUp components old s →
      HasBinary components old new (s.move (backupPath components) (.file components)) := by
    intro s hs
    exact .inl ((s.move_content_target hne.symm).trans hs)
  unfold putBack renameFile
  rw [if_neg hne]
  refine Triple.bind (R := fun _ => HasBinary components old new) ?_ fun r =>
    Triple.pure fun s hs => ⟨hs, fun h => by cases h⟩
  exact renameFile_triple (fun s hs _ => hback s hs)
    (fun _ s hs => ⟨.inr (.inl hs), fun _ => hback s hs⟩)
    fun s hs => ⟨.inr (.inl hs), fun _ => hback s hs⟩

variable (old new) in
/-- The copy of the downloaded binary leaves the backup. -/
theorem copyFile_triple (hne : backupPath components ≠ .file components) :
    Triple A
      (fun s => BackedUp components old s ∧ ∀ data, s.content .temp = some data → data = new)
      (copyFile .temp (.file components))
      (fun r s => BackedUp components old s ∧ (r = .ok () → Installed components new s))
      (BackedUp components old) := by
  have hkept : ∀ content s, BackedUp components old s →
      BackedUp components old (s.set (.file components) content) := by
    intro content s hs
    exact (s.set_content_of_ne hne content).trans hs
  unfold copyFile
  refine Triple.bind (readFile_triple UpgradePath.temp fun _ _ hs => hs) fun r => ?_
  cases r with
  | error e => exact Triple.pure fun s hs => ⟨hs.2.1, fun h => by cases h⟩
  | ok data =>
    refine (writeSync_triple (I := fun s => BackedUp components old s ∧ data = new) ?_ ?_ ?_).mono
      (fun s hs => ⟨hs.2.1, hs.2.2 data (hs.1 data rfl)⟩) (fun _ _ => id) fun _ => id
    · rintro s ⟨hs, rfl⟩
      exact ⟨hkept _ s hs, fun _ => s.set_content_self _ _⟩
    · rintro e content s ⟨hs, -⟩
      exact ⟨hkept _ s hs, fun h => by cases h⟩
    · rintro content s ⟨hs, -⟩
      exact hkept _ s hs

/-- **The second step**, once the old binary is at the backup path. -/
theorem moveInPlace_triple (hne : backupPath components ≠ .file components) :
    Triple A (fun s => BackedUp components old s ∧ s.content .temp = some new)
      (moveInPlace components (.file components) (backupPath components))
      (fun r s => HasBinary components old new s ∧ (r = .ok () → Installed components new s))
      (HasBinary components old new) := by
  have htemp : UpgradePath.temp ≠ .file components := fun h => by cases h
  have htempBackup : backupPath components ≠ .temp := fun h => by cases h
  have hinstalled : ∀ s, Installed components new s → HasBinary components old new s :=
    fun _ hs => .inr (.inr hs)
  have hbacked : ∀ s, BackedUp components old s → HasBinary components old new s :=
    fun _ hs => .inr (.inl hs)
  have hcleanUp : Triple A (Installed components new) (cleanUp (backupPath components))
      (fun r s => HasBinary components old new s ∧ (r = .ok () → Installed components new s))
      (HasBinary components old new) :=
    (cleanUp_triple hne).mono (fun _ => id) (fun _ s hs => ⟨hinstalled s hs, fun _ => hs⟩)
      hinstalled
  have hputBack : ∀ context, Triple A (BackedUp components old)
      (putBack (backupPath components) (.file components) context)
      (fun r s => HasBinary components old new s ∧ (r = .ok () → Installed components new s))
      (HasBinary components old new) := fun context =>
    (putBack_triple hne context).mono (fun _ => id)
      (fun r s hs => ⟨hs.1, fun hok => absurd hok hs.2⟩) fun _ => id
  unfold moveInPlace renameFile
  rw [if_neg htemp]
  refine Triple.bind (R := fun r s => (r = .ok () → Installed components new s) ∧
      ((∃ e, r = .error e) → BackedUp components old s ∧
        ∀ data, s.content .temp = some data → data = new)) ?_ fun r => ?_
  · have hmoved : ∀ s, BackedUp components old s →
        BackedUp components old (s.move .temp (.file components)) := by
      intro s hs
      exact (s.move_content_of_ne htempBackup hne).trans hs
    refine renameFile_triple ?_ ?_ ?_
    · rintro s ⟨-, hs⟩ -
      refine ⟨fun _ => (s.move_content_target htemp.symm).trans hs, ?_⟩
      rintro ⟨e, h⟩
      cases h
    · rintro e s ⟨hback, hs⟩
      refine ⟨⟨fun h => (by cases h), fun _ => ⟨hback, fun data hdata => ?_⟩⟩, fun _ =>
        ⟨fun h => (by cases h), fun _ => ⟨hmoved s hback, fun data hdata => ?_⟩⟩⟩
      · exact Option.some.inj (hdata.symm.trans hs)
      · rw [Files.move, Files.set_content_self] at hdata
        cases hdata
    · rintro s ⟨hback, -⟩
      exact ⟨hbacked s hback, fun _ => hbacked _ (hmoved s hback)⟩
  · cases r with
    | ok u => exact hcleanUp.mono (fun _ hs => hs.1 rfl) (fun _ _ => id) fun _ => id
    | error e =>
      dsimp only
      split
      · refine Triple.bind (((copyFile_triple old new hne).mono
          (fun _ hs => hs.2 ⟨e, rfl⟩) (fun _ _ => id)) hbacked) fun r => ?_
        cases r with
        | ok u => exact hcleanUp.mono (fun _ hs => hs.2 rfl) (fun _ _ => id) fun _ => id
        | error e => exact (hputBack _).mono (fun _ hs => hs.1) (fun _ _ => id) fun _ => id
      · exact (hputBack _).mono (fun _ hs => (hs.2 ⟨e, rfl⟩).1) (fun _ _ => id) fun _ => id

variable (old new) in
/-- **The replacement**, of the binary at its path. -/
theorem replaceBinary_triple (hne : backupPath components ≠ .file components) :
    Triple A (fun s => s.content (.file components) = some old ∧ s.content .temp = some new)
      (replaceBinary components)
      (fun r s => HasBinary components old new s ∧ (r = .ok () → Installed components new s))
      (HasBinary components old new) := by
  have hfailed : ∀ (e : String) (I : Files UpgradePath → Prop),
      (∀ s, I s → HasBinary components old new s) →
      Triple A I (pure (.error e) : Fs UpgradePath (Except String Unit))
        (fun r s => HasBinary components old new s ∧ (r = .ok () → Installed components new s))
        (HasBinary components old new) := fun e I hI =>
    Triple.pure fun s hs => ⟨hI s hs, fun h => by cases h⟩
  have hrunning : ∀ s : Files UpgradePath, (s.content (.file components) = some old ∧
      s.content .temp = some new) → HasBinary components old new s := fun _ hs => .inl hs.1
  unfold replaceBinary
  dsimp only
  split
  · exact hfailed _ _ hrunning
  · refine Triple.bind (touch_triple hrunning) fun r => ?_
    cases r with
    | error e => exact hfailed _ _ hrunning
    | ok u =>
      refine Triple.bind (touch_triple hrunning) fun r => ?_
      cases r with
      | error e => exact hfailed _ _ hrunning
      | ok u =>
        refine Triple.bind (R := fun r s => HasBinary components old new s ∧
          (r = .ok () → BackedUp components old s ∧ s.content .temp = some new)) ?_ fun r => ?_
        · have hmoved : ∀ s : Files UpgradePath, (s.content (.file components) = some old ∧
              s.content .temp = some new) →
              BackedUp components old (s.move (.file components) (backupPath components)) ∧
              (s.move (.file components) (backupPath components)).content .temp = some new := by
            rintro s ⟨hold, hnew⟩
            exact ⟨(s.move_content_target hne).trans hold,
              (s.move_content_of_ne (fun h => by cases h) fun h => (by cases h)).trans hnew⟩
          unfold moveAside renameFile
          rw [if_neg hne.symm]
          refine Triple.bind (pathExists_triple _) fun exists? => ?_
          cases exists? with
          | false =>
            refine Triple.pure fun s hs => ?_
            rw [hs.2.1] at hs
            exact absurd hs.1 Bool.false_ne_true
          | true =>
            refine (renameFile_triple (I := fun s => s.content (.file components) = some old ∧
              s.content .temp = some new) ?_ ?_ ?_).mono (fun _ hs => hs.2) (fun _ _ => id)
              fun _ => id
            · exact fun s hs _ => ⟨.inr (.inl (hmoved s hs).1), fun _ => hmoved s hs⟩
            · exact fun e s hs => ⟨⟨.inl hs.1, fun h => by cases h⟩,
                fun _ => ⟨.inr (.inl (hmoved s hs).1), fun h => by cases h⟩⟩
            · exact fun s hs => ⟨.inl hs.1, fun _ => .inr (.inl (hmoved s hs).1)⟩
        · cases r with
          | error e => exact hfailed _ _ fun _ hs => hs.1
          | ok u =>
            exact (moveInPlace_triple hne).mono (fun _ hs => hs.2 rfl) (fun _ _ => id) fun _ => id

omit A in
/-- **A binary that is its own backup** is removed by an upgrade that succeeds. -/
theorem replaceBinary_old
    (hsystem : ¬(components.head? = some "usr" ∨ components.head? = some "opt"))
    (heq : backupPath components = .file components) (s : Files UpgradePath)
    (hold : s.content (.file components) = some old) (hnew : s.content .temp = some new) :
    ((replaceBinary components).run [] s).1 = some (.ok ()) ∧
      ((replaceBinary components).run [] s).2.2.content (.file components) = none := by
  have htemp : UpgradePath.temp ≠ .file components := fun h => by cases h
  have htouch : (touch (P := UpgradePath)).run [] s = (some (.ok ()), [], s) := rfl
  have hmove : (moveAside (.file components) (backupPath components)).run [] s =
      (some (.ok ()), [], s) := by
    rw [moveAside, run_bind, run_pathExists, hold, renameFile, if_pos heq.symm]
    exact htouch
  have hrename : (renameFile .temp (.file components)).run [] s =
      (some (.ok ()), [], s.move .temp (.file components)) := by
    rw [renameFile, if_neg htemp, rename, run_op, if_pos (by rw [hnew]; rfl)]
    rfl
  have hplace : (moveInPlace components (.file components) (backupPath components)).run [] s =
      (some (.ok ()), [], (s.move .temp (.file components)).unlink (.file components)) := by
    rw [moveInPlace, run_bind_of_some hrename, cleanUp, heq, run_bind, run_pathExists,
      s.move_content_target htemp.symm, hnew]
    dsimp only [Option.isSome_some]
    rw [run_bind, run_removeFile]
    · rfl
    · rw [s.move_content_target htemp.symm, hnew]
      rfl
  have hrun : (replaceBinary components).run [] s =
      (some (.ok ()), [], (s.move .temp (.file components)).unlink (.file components)) := by
    rw [replaceBinary, if_neg hsystem, run_bind_of_some htouch, run_bind_of_some htouch,
      run_bind_of_some hmove]
    exact hplace
  rw [hrun]
  exact ⟨rfl, Function.update_self _ _ _⟩

end

/-! ## The whole upgrade -/

section
variable [Semver] [Sha256] {A : Answer → Prop} {web : Web} {currentVersion arch : String}
  {components : List String} {checkOnly includePrerelease : Bool} {old : List UInt8}

/-- A binary of the latest release, which is newer: the download of its asset for the architecture,
with the checksum that the release publishes of it. -/
def Genuine (web : Web) (currentVersion arch : String) (includePrerelease : Bool)
    (new : List UInt8) : Prop :=
  ∃ releases release v current asset attempt, web.releases = .ok releases ∧
    Latest releases includePrerelease .binaries release v ∧
    Semver.parse currentVersion = some current ∧ current < v ∧
    asset ∈ release.assets ∧ asset.name = binaryAsset arch ∧
    (fetchChecksums web release.assets).lookup asset.name = some (Sha256.hexDigest new) ∧
    web.download asset.browserDownloadUrl attempt = .ok new

omit [Sha256] in
/-- An update is the latest release, and newer. -/
theorem checkForUpdates_spec [LawfulSemver] {info : VersionInfo}
    (h : checkForUpdates web currentVersion includePrerelease = .ok (some info)) :
    ∃ releases release v current, web.releases = .ok releases ∧
      Latest releases includePrerelease .binaries release v ∧
      Semver.parse currentVersion = some current ∧ current < v ∧
      info = buildVersionInfo release (fetchChecksums web release.assets)
        (fetchSignatures web release.assets) := by
  unfold checkForUpdates at h
  cases hfetch : fetchLatestVersion web includePrerelease .binaries with
  | error e =>
    rw [hfetch] at h
    cases h
  | ok latest =>
    rw [hfetch] at h
    obtain ⟨releases, release, v, hreleases, hlatest, hparse, hinfo⟩ :=
      fetchLatestVersion_spec hfetch
    simp only [isNewer, hparse, bind, Except.bind, pure, Except.pure] at h
    cases hcurrent : Semver.parse currentVersion with
    | none =>
      rw [hcurrent] at h
      cases h
    | some current =>
      rw [hcurrent] at h
      dsimp only at h
      split at h
      · rename_i hnewer
        cases h
        exact ⟨releases, release, v, current, hreleases, hlatest, rfl, of_decide_eq_true hnewer,
          hinfo⟩
      · cases h

omit [Semver] [Sha256] in
variable (components old) in
/-- The attempts leave the old binary, and what one that succeeds has received. -/
theorem downloadFrom_triple (url : String) : ∀ (retries attempt : Nat),
    Triple A (fun s => s.content (.file components) = some old)
      (downloadFrom web url attempt retries)
      (fun r s => s.content (.file components) = some old ∧ (r = .ok () →
        ∃ new attempt, web.download url attempt = .ok new ∧ s.content .temp = some new))
      (fun s => s.content (.file components) = some old) := by
  have hone : ∀ attempt, Triple A (fun s => s.content (.file components) = some old)
      (downloadWithProgress web url attempt)
      (fun r s => s.content (.file components) = some old ∧ (r = .ok () →
        ∃ new attempt, web.download url attempt = .ok new ∧ s.content .temp = some new))
      (fun s => s.content (.file components) = some old) := by
    intro attempt
    have hkept : ∀ content (s : Files UpgradePath), s.content (.file components) = some old →
        (s.set .temp content).content (.file components) = some old := by
      intro content s hs
      exact (s.set_content_of_ne (fun h => by cases h) content).trans hs
    unfold downloadWithProgress
    cases hdownload : web.download url attempt with
    | error e => exact Triple.pure fun s hs => ⟨hs, fun h => by cases h⟩
    | ok new =>
      refine Triple.bind (R := fun r s => s.content (.file components) = some old ∧
        (r = .ok () → s.content .temp = some new)) ?_ fun r => ?_
      · exact writeSync_triple (fun s hs => ⟨hkept _ s hs, fun _ => s.set_content_self _ _⟩)
          (fun e content s hs => ⟨hkept _ s hs, fun h => by cases h⟩) fun content s hs =>
          hkept _ s hs
      · cases r with
        | error e => exact Triple.pure fun s hs => ⟨hs.1, fun h => by cases h⟩
        | ok u => exact Triple.pure fun s hs => ⟨hs.1, fun _ => ⟨new, attempt, hdownload, hs.2 rfl⟩⟩
  intro retries
  induction retries with
  | zero => exact hone
  | succ retries ih =>
    intro attempt
    rw [downloadFrom]
    refine Triple.bind (hone attempt) fun r => ?_
    cases r with
    | ok u => exact Triple.pure fun _ => id
    | error e => exact (ih (attempt + 1)).mono (fun _ hs => hs.1) (fun _ _ => id) fun _ => id

omit [Semver] in
variable (old) in
/-- The checksum is that of the file. -/
theorem verifyChecksum_triple {new : List UInt8} (expected : String) :
    Triple A (fun s => s.content (.file components) = some old ∧ s.content .temp = some new)
      (verifyChecksum .temp expected)
      (fun r s => (s.content (.file components) = some old ∧ s.content .temp = some new) ∧
        (r = .ok () → Sha256.hexDigest new = expected))
      (fun s => s.content (.file components) = some old) := by
  unfold verifyChecksum
  refine Triple.bind (readFile_triple UpgradePath.temp fun _ _ hs => hs) fun r => ?_
  cases r with
  | error e => exact Triple.pure fun s hs => ⟨hs.2, fun h => by cases h⟩
  | ok data =>
    dsimp only
    split
    · rename_i hdigest
      refine Triple.pure fun s hs => ⟨hs.2, fun _ => ?_⟩
      rw [← Option.some.inj ((hs.1 data rfl).symm.trans hs.2.2)]
      exact hdigest
    · exact Triple.pure fun s hs => ⟨hs.2, fun h => by cases h⟩

/-- The old binary is at its path or at the backup, or a genuine one is at the path. -/
def HasWorking (web : Web) (currentVersion arch : String) (includePrerelease : Bool)
    (components : List String) (old : List UInt8) (s : Files UpgradePath) : Prop :=
  s.content (.file components) = some old ∨ s.content (backupPath components) = some old ∨
    ∃ new, Genuine web currentVersion arch includePrerelease new ∧ Installed components new s

/-- What holds of an upgrade that returns. -/
structure Returned (web : Web) (currentVersion arch : String) (includePrerelease : Bool)
    (components : List String) (old : List UInt8) (r : Except String Upgrade)
    (s : Files UpgradePath) : Prop where
  working : HasWorking web currentVersion arch includePrerelease components old s
  upgraded : r = .ok .upgraded →
    ∃ new, Genuine web currentVersion arch includePrerelease new ∧ Installed components new s
  unchanged : r = .ok .latest ∨ r = .ok .available → s.content (.file components) = some old

/-- A failure with a working binary. -/
theorem Returned.of_error {e : String} {s : Files UpgradePath}
    (h : HasWorking web currentVersion arch includePrerelease components old s) :
    Returned web currentVersion arch includePrerelease components old (.error e) s := by
  refine ⟨h, fun hr => ?_, ?_⟩
  · cases hr
  · rintro (hr | hr) <;> cases hr

/-- The installation of what was downloaded of an asset. -/
theorem installDownload_triple (hne : backupPath components ≠ .file components)
    {info : VersionInfo} {new : List UInt8}
    (hgenuine : ∀ binary, info.binaries.lookup arch = some binary → binary.sha256 ≠ "" →
      Sha256.hexDigest new = binary.sha256 →
      Genuine web currentVersion arch includePrerelease new) :
    Triple A (fun s => s.content (.file components) = some old ∧ s.content .temp = some new)
      (installDownload arch components info)
      (Returned web currentVersion arch includePrerelease components old)
      (HasWorking web currentVersion arch includePrerelease components old) := by
  unfold installDownload
  cases hbinary : info.binaries.lookup arch with
  | none => exact Triple.pure fun s hs => .of_error (.inl hs.1)
  | some binary =>
    dsimp only
    split
    · exact Triple.pure fun s hs => .of_error (.inl hs.1)
    · rename_i hsum
      refine Triple.bind ((verifyChecksum_triple old binary.sha256).mono
        (fun _ => id) (fun _ _ => id) fun _ hs => .inl hs) fun r => ?_
      cases r with
      | error e => exact Triple.pure fun s hs => .of_error (.inl hs.1.1)
      | ok u =>
        intro io s hio hs
        have hnew := hgenuine binary hbinary hsum (hs.2 rfl)
        have hworking : ∀ s, HasBinary components old new s →
            HasWorking web currentVersion arch includePrerelease components old s := by
          rintro s (hold | hback | hinstalled)
          · exact .inl hold
          · exact .inr (.inl hback)
          · exact .inr (.inr ⟨new, hnew, hinstalled⟩)
        refine Triple.bind ((replaceBinary_triple old new hne).mono (fun _ => id)
          (fun _ _ => id) hworking) (fun r => ?_) io s hio hs.1
        cases r with
        | error e => exact Triple.pure fun s hs => .of_error (hworking s hs.1)
        | ok u =>
          refine Triple.pure fun s hs => ⟨hworking s hs.1, fun _ => ⟨new, hnew, hs.2 rfl⟩, ?_⟩
          rintro (hr | hr) <;> cases hr

variable (web currentVersion arch checkOnly includePrerelease old) in
/-- **The upgrade, under every answer.** -/
theorem runUpgrade_triple [LawfulSemver] (hne : backupPath components ≠ .file components) :
    Triple A (fun s => s.content (.file components) = some old)
      (runUpgrade web currentVersion arch components checkOnly includePrerelease)
      (Returned web currentVersion arch includePrerelease components old)
      (HasWorking web currentVersion arch includePrerelease components old) := by
  have hsame : ∀ r : Upgrade, r ≠ .upgraded → Triple A
      (fun s => s.content (.file components) = some old)
      (pure (.ok r) : Fs UpgradePath (Except String Upgrade))
      (Returned web currentVersion arch includePrerelease components old)
      (HasWorking web currentVersion arch includePrerelease components old) := by
    intro r hr
    refine Triple.pure fun s hs => ⟨.inl hs, fun h => ?_, fun _ => hs⟩
    cases h
    exact absurd rfl hr
  unfold runUpgrade
  cases hcheck : checkForUpdates web currentVersion includePrerelease with
  | error e => exact Triple.pure fun s hs => .of_error (.inl hs)
  | ok update =>
    cases update with
    | none => exact hsame .latest fun h => by cases h
    | some info =>
      dsimp only
      split
      · exact hsame .available fun h => by cases h
      · obtain ⟨releases, release, v, current, hreleases, hlatest, hcurrent, hnewer, rfl⟩ :=
          checkForUpdates_spec hcheck
        unfold installUpdate downloadBinary getDownloadUrl
        cases hbinary : (buildVersionInfo release (fetchChecksums web release.assets)
            (fetchSignatures web release.assets)).binaries.lookup arch with
        | none =>
          dsimp only
          exact Triple.bind (R := fun r s => (∃ e, r = .error e) ∧
            s.content (.file components) = some old) (Triple.pure fun s hs => ⟨⟨_, rfl⟩, hs⟩)
            fun r => by
              intro io s hio hs
              obtain ⟨⟨e, rfl⟩, hs⟩ := hs
              exact ⟨hio, .of_error (.inl hs)⟩
        | some binary =>
          obtain ⟨asset, hasset, hname, rfl⟩ := mem_binaries hbinary
          dsimp only
          refine Triple.bind ((downloadFrom_triple components old
            asset.browserDownloadUrl 2 1).mono (fun _ => id) (fun _ _ => id) fun _ hs => .inl hs)
            fun r => ?_
          cases r with
          | error e => exact Triple.pure fun s hs => .of_error (.inl hs.1)
          | ok u =>
            intro io s hio hs
            obtain ⟨new, attempt, hdownload, hnew⟩ := hs.2 rfl
            refine installDownload_triple hne (fun binary' hbinary' hsum hdigest => ?_) io s hio
              ⟨hs.1, hnew⟩
            obtain rfl := Option.some.inj (hbinary.symm.trans hbinary')
            refine ⟨releases, release, v, current, asset, attempt, hreleases, hlatest, hcurrent,
              hnewer, hasset, hname, ?_, hdownload⟩
            cases hlookup : (fetchChecksums web release.assets).lookup asset.name with
            | none =>
              rw [binaryInfo, hlookup] at hsum
              exact absurd rfl hsum
            | some sum =>
              rw [binaryInfo, hlookup] at hdigest
              rw [hdigest]
              rfl

omit A in
/-- **An upgrade keeps a binary.** Whatever the network answers, however the calls fail and wherever
the process is killed: the binary that ran is at its path or at the backup path, or one is at the
path that was downloaded from the latest release, is newer, and has the checksum that the release
publishes. Where the upgrade succeeds it is the latter, and where there is nothing to upgrade the
binary that ran is at its path. -/
theorem upgrade_keeps_a_binary [LawfulSemver] (web : Web) (currentVersion arch : String)
    (components : List String) (checkOnly includePrerelease : Bool) (old : List UInt8)
    (io : List Answer) (s : Files UpgradePath) (hne : backupPath components ≠ .file components)
    (hold : s.content (.file components) = some old) :
    let out := (runUpgrade web currentVersion arch components checkOnly includePrerelease).run io s
    HasWorking web currentVersion arch includePrerelease components old out.2.2 ∧
      (out.1 = some (.ok .upgraded) →
        ∃ new, Genuine web currentVersion arch includePrerelease new ∧
          Installed components new out.2.2) ∧
      (out.1 = some (.ok .latest) ∨ out.1 = some (.ok .available) →
        out.2.2.content (.file components) = some old) := by
  dsimp only
  rcases (runUpgrade_triple (A := fun _ => True) web currentVersion arch checkOnly includePrerelease
    old hne).run (fun _ _ => trivial) hold with ⟨r, hr, hreturned⟩ | ⟨hkilled, hworking⟩
  · refine ⟨hreturned.working, fun h => ?_, fun h => ?_⟩
    · exact hreturned.upgraded (Option.some.inj (hr.symm.trans h))
    · exact hreturned.unchanged (h.imp (fun h => Option.some.inj (hr.symm.trans h))
        fun h => Option.some.inj (hr.symm.trans h))
  · refine ⟨hworking, fun h => ?_, fun h => ?_⟩
    · cases hkilled.symm.trans h
    · rcases h with h | h <;> cases hkilled.symm.trans h

end

/-! ## A release -/

section
attribute [local instance] plainSemver plainSemver_lawful plainSha256

/-- A release of two assets, of which one is the checksums of the other. -/
def twoAssets : GitHubRelease where
  tagName := "v0.26.0"
  publishedAt := "2026-03-06T12:34:56Z"
  prerelease := false
  assets := [⟨"russignol-amd64", 3, "binary"⟩, ⟨"checksums.txt", 80, "sums"⟩]

/-- The network that serves it. -/
def twoAssetsWeb : Web where
  releases := .ok [twoAssets]
  text url :=
    if url = "sums" then some (Sha256.hexDigest [4, 5, 6] ++ "  russignol-amd64\n") else none
  download _ _ := .ok [4, 5, 6]

/-- A home with the old binary. -/
def oldHome : Files UpgradePath where
  content
    | .temp => none
    | .file components => if components = ["home", "russignol"] then some [1, 2, 3] else none
  trace := []

/-- The old binary is replaced. -/
theorem upgrade_keeps_a_binary_two : ∃ new, Genuine twoAssetsWeb "0.25.0" "amd64" false new ∧
    Installed ["home", "russignol"] new
      ((runUpgrade twoAssetsWeb "0.25.0" "amd64" ["home", "russignol"] false false).run []
        oldHome).2.2 :=
  (upgrade_keeps_a_binary twoAssetsWeb "0.25.0" "amd64" ["home", "russignol"] false false [1, 2, 3]
    [] oldHome (by decide +kernel) (by decide +kernel)).2.1 (by decide +kernel)

end

end Russignol.Host
