import Russignol.Base.Automaton
import Russignol.Rpi.InitScript
import Russignol.Rpi.UnlockAvailability
import Russignol.Rpi.WatermarkSetup

/-!
# After the first boot

The end of a first boot: once the keys are on the card, `finalize_first_boot` marks the setup as
complete, gives the key files to the signer's user, flushes, and hands the privileges back. Some of
these steps end the process when they fail and some are only logged. What is written is in the
kernel's cache first (`now`); a `sync`, and a remount to read-only, bring it to the card (`disk`),
and a power loss leaves the card. The key files themselves were synced when they were written.

The boots that follow decide from the marker and the key files (`CardState.bootDecision`), and
read the keys as the signer's user.
-/

namespace Russignol

open CrashProgram FileStore TezosEncrypt WatermarkSetup

/-- What the keys partition holds: the key files, the setup marker, and the owner and the mode of
the v2 file. -/
structure KeysPartition where
  files : Files KeyPath
  marker : Bool
  /-- The v2 file is the signer's, not root's. -/
  owned : Bool
  /-- The v2 file has mode 0400, not 0644. -/
  ownerOnly : Bool

/-- What a process can read of the v2 file. -/
def KeysPartition.readable (k : KeysPartition) (root : Bool) : Bool :=
  root || k.owned || !k.ownerOnly

/-- The outcome of writing the marker: a write that fails may have created the file. -/
inductive MarkerWrite
  | written
  | failed (created : Bool)
  deriving DecidableEq, Repr

/-- The marker is there afterwards. -/
def MarkerWrite.creates : MarkerWrite → Bool
  | .written => true
  | .failed created => created

/-- What the finalisation is answered. -/
structure FinalizeIo where
  app : AppIo
  /-- The result of `process_watermark_config`. -/
  config : WatermarkResult
  marker : MarkerWrite
  /-- The calls of `set_key_permissions` on the v2 file. -/
  chown : Bool
  metadata : Bool
  chmod : Bool
  sync : Bool
  remount : Bool
  drop : Bool
  initWatermark : Bool

/-- A first boot once the keys were written. -/
structure FirstBoot where
  now : KeysPartition
  disk : KeysPartition
  /-- The signer was started. -/
  started : Bool

namespace FirstBoot

/-- `set_key_permissions` on the v2 file: a failed `chown` is passed over. -/
def setKeyPermissions (io : FinalizeIo) (k : KeysPartition) : KeysPartition :=
  { k with owned := k.owned || io.chown, ownerOnly := k.ownerOnly || (io.metadata && io.chmod) }

/-- `apply_effects`, one effect of the finalisation; `none` where the process ends. -/
def applyEffect (io : FinalizeIo) (c : FirstBoot) : Effect → Option FirstBoot
  | .processWatermarkConfig =>
    match io.config with
    | .error _ => none
    | .configured .. | .notFound => some c
  | .writeSetupMarker =>
    some { c with now := { c.now with marker := c.now.marker || io.marker.creates } }
  | .setKeyPermissions => some { c with now := setKeyPermissions io c.now }
  | .syncDisk => some (if io.sync then { c with disk := c.now } else c)
  | .remountKeysReadonly => if io.remount then some { c with disk := c.now } else none
  | .dropPrivileges => if io.drop then some c else none
  | .initWatermark .. => if io.initWatermark then some c else none
  | .startSigner => some { c with started := true }
  | .fatalError .. | .exit _ => none
  | _ => some c

/-- `apply_effects`. -/
def applyEffects (io : FinalizeIo) : List Effect → FirstBoot → Option FirstBoot
  | [], c => some c
  | e :: es, c => (c.applyEffect io e).bind (applyEffects io es)

/-- From the generated keys to the start of the signer: the two events that the finalisation is. -/
def finish (io : FinalizeIo) (app : App) (json : String) (c : FirstBoot) : Option FirstBoot :=
  let (app, _, effects) := app.handleEvent io.app (.keyGenSuccess json)
  (applyEffects io effects c).bind fun c =>
    applyEffects io (app.handleEvent io.app (.keysDecrypted json)).2.2 c

/-- The keys were written on a partition that held none. -/
def fresh (files : Files KeyPath) : FirstBoot :=
  ⟨⟨files, false, false, false⟩, ⟨files, false, false, false⟩, false⟩

end FirstBoot

/-! ## Later boots -/

/-- What a later boot finds on the card. -/
def KeysPartition.card (k : KeysPartition) (config : Bool) : CardState :=
  ⟨true, true, k.marker, k.files, config⟩

/-- A boot whose mounts and calls succeed. -/
def BootIo.Works (io : BootIo) : Prop :=
  io.mounts = true ∧ io.recoveryRemounts = true ∧ io.recoveryDrops = true

/-- A card after its first boot, and what the boot at hand decided. -/
structure Later where
  keys : KeysPartition
  decision : Option (Bool × Posture)

namespace Later

/-- What can happen to it: a boot, which any power loss leads to, with a configuration staged or
not, and an attempt at the PIN. -/
inductive Action
  | boot (io : BootIo) (config : Bool)
  | attempt (random : Crypto.Random) (pin : List UInt8) (io : List Answer)

variable [BlobCrypto]

/-- `decrypt_secret_keys` of a process that may not be allowed to read the v2 file, which is the
one it reads where there is no v1 file. -/
def decryptSecretKeys (k : KeysPartition) (root : Bool) (random : Crypto.Random)
    (pin : List UInt8) : Fs KeyPath (Except FileStore.IoError DecryptOutcome) :=
  if k.readable root then migrateAndDecrypt random pin
  else pure (.error ⟨.other, "Permission denied (os error 13)"⟩)

/-- Take an action; `none` where it cannot be taken. -/
def step (l : Later) : Action → Option Later
  | .boot io config => some { l with decision := (l.keys.card config).bootDecision io }
  | .attempt random pin io =>
    match l.decision with
    | some (false, p) =>
      let (result, _, files) := (decryptSecretKeys l.keys p.root random pin).run io l.keys.files
      some
        { keys := { l.keys with files }
          decision := if result.isSome then l.decision else none }
    | _ => none

/-- **Every later boot takes the PIN path, and the PIN gives exactly these keys.** -/
def Unlockable (k : KeysPartition) (pin : List UInt8) (json : String) : Prop :=
  ∀ acts l, Automaton.run step ⟨k, none⟩ acts = some l → ∀ io config, io.Works →
    ∃ p, (l.keys.card config).bootDecision io = some (false, p) ∧ ∀ random answers,
      (∀ a ∈ answers, a.Powered) →
      ((decryptSecretKeys l.keys p.root random pin).run answers l.keys.files).1 =
        some (.ok ⟨json, none⟩)

omit [BlobCrypto] in
/-- A boot of a card with a marker and no v1 file asks for the PIN, as the signer's user. -/
theorem bootDecision_of_marker {k : KeysPartition} (hmarker : k.marker = true)
    (h1 : k.files.content (.file .v1) = none) {io : BootIo} (hio : io.Works) (config : Bool) :
    ∃ p, (k.card config).bootDecision io = some (false, p) ∧ p.root = false := by
  obtain ⟨hmounts, hremounts, hdrops⟩ := hio
  have hv1 : ∀ mounted, (k.card config).has mounted .v1 = false := by
    intro mounted
    simp [CardState.has, KeysPartition.card, h1]
  have hkeys : ((k.card config).initKeysPartition io).1 = true := by
    have hkeysPart : (k.card config).keysPart = true := rfl
    have hset : (k.card config).marker = true := hmarker
    simp only [CardState.initKeysPartition, hv1, hmounts, hkeysPart, hset, Bool.not_true,
      Bool.false_eq_true, if_false, if_true]
    split <;> rfl
  have hfirst : (k.card config).isFirstBoot true = false := by
    simp [CardState.isFirstBoot, KeysPartition.card, hmarker]
  have hroot : (k.card config).runSupervisor io = (k.card config).configPending io := by
    simp [CardState.runSupervisor, KeysPartition.card, CardState.has, h1]
  simp only [CardState.bootDecision, CardState.init, hkeys, hfirst, hroot, Bool.false_and,
    Bool.false_eq_true, if_false, CardState.recoverWatermarkConfig, hv1,
    CardState.shouldRecoverWatermarkConfig, Bool.not_false, Bool.true_and, Bool.and_true,
    hremounts, hdrops, if_true]
  cases hpending : (k.card config).configPending io with
  | false => exact ⟨_, rfl, rfl⟩
  | true => exact ⟨_, rfl, rfl⟩

omit [BlobCrypto] in
/-- A card without a marker does not ask for the PIN. -/
theorem bootDecision_marker {k : KeysPartition} {io : BootIo} {config : Bool} {p : Posture}
    (h : (k.card config).bootDecision io = some (false, p)) : k.marker = true := by
  unfold CardState.bootDecision at h
  dsimp only at h
  split at h
  · cases h
  · split at h
    · cases h
    · obtain ⟨p', -, heq⟩ := Option.map_eq_some_iff.1 h
      exact (CardState.isFirstBoot_eq_false (Prod.mk.inj heq).1).2.2

/-- What every attempt leaves as it is: the marker, and the one key file, which opens. -/
structure Kept (l : Later) (pin : List UInt8) (json : String) : Prop where
  marker : l.keys.marker = true
  readable : l.keys.readable false = true
  v1 : l.keys.files.content (.file .v1) = none
  v2 : ∃ blob, l.keys.files.content (.file .v2) = some blob ∧ Crypto.Opens pin blob json

/-- A boot of `migrateAndDecrypt` over a v2 file alone changes the counter only. -/
theorem migrateAndDecrypt_v2 {random : Crypto.Random} {pin : List UInt8} {io io' : List Answer}
    {s s' : Files KeyPath} {r : Option (Except FileStore.IoError DecryptOutcome)}
    (h1 : s.content (.file .v1) = none)
    (hrun : (migrateAndDecrypt random pin).run io s = (r, io', s')) :
    s'.content (.file .v1) = none ∧ s'.content (.file .v2) = s.content (.file .v2) := by
  obtain ⟨r', io₁, s₁, hrun', hboot⟩ := migrateAndDecrypt_boot random pin io s
  rw [hrun] at hrun'
  obtain ⟨rfl, rfl, rfl⟩ : r = r' ∧ io' = io₁ ∧ s' = s₁ := by
    simpa only [Prod.mk.injEq] using hrun'
  cases hboot with
  | refused _ hk =>
    rw [hk.content_eq]
    exact ⟨h1, rfl⟩
  | steady _ _ _ hk =>
    rw [hk.content _ (by simp), hk.content _ (by simp)]
    exact ⟨h1, rfl⟩
  | disabled h1' | staging h1' | staged h1' | reverted h1' =>
    cases h1.symm.trans h1'
  | notPromoted h1' | promoted h1' =>
    rw [h1] at h1'
    cases h1'

/-- **A later step keeps the keys.** -/
theorem Kept.step {l l' : Later} {pin : List UInt8} {json : String} (h : l.Kept pin json)
    {a : Action} (hstep : l.step a = some l') : l'.Kept pin json := by
  cases a with
  | boot io config =>
    cases hstep
    exact ⟨h.marker, h.readable, h.v1, h.v2⟩
  | attempt random pin' io =>
    simp only [Later.step] at hstep
    split at hstep
    · rename_i p hdecision
      cases hstep
      have hreadable : l.keys.readable p.root = true := by
        have := h.readable
        unfold KeysPartition.readable at this ⊢
        rw [Bool.false_or] at this
        rw [Bool.or_assoc, this, Bool.or_true]
      rcases hrun : (decryptSecretKeys l.keys p.root random pin').run io l.keys.files with
        ⟨r, io', files⟩
      rw [decryptSecretKeys, if_pos hreadable] at hrun
      obtain ⟨h1, h2⟩ := migrateAndDecrypt_v2 h.v1 hrun
      exact ⟨h.marker, h.readable, h1, h2 ▸ h.v2⟩
    · cases hstep

/-- **Where the marker is there and the file can be read, the keys stay unlockable.** -/
theorem Kept.unlockable {k : KeysPartition} {pin : List UInt8} {json : String}
    (h : Kept ⟨k, none⟩ pin json) : Unlockable k pin json := by
  intro acts l hrun io config hio
  have hkept : l.Kept pin json := by
    refine Automaton.run_invariant (I := fun l => Kept l pin json) (G := fun _ _ => True) ?_ h ?_
      hrun
    · exact fun l a l' hl _ hstep => hl.step hstep
    · exact Automaton.along_of_forall _ fun _ _ => trivial
  obtain ⟨p, hdecision, hroot⟩ := bootDecision_of_marker hkept.marker hkept.v1 hio config
  refine ⟨p, hdecision, ?_⟩
  intro random answers hpowered
  obtain ⟨blob, hblob, hopens⟩ := hkept.v2
  obtain ⟨r, io', s', hboot, hcases⟩ := migrateAndDecrypt_boot random pin answers l.keys.files
  obtain ⟨result, hresult⟩ := (migrateAndDecrypt_returns random pin).run hpowered l.keys.files
  rw [decryptSecretKeys, hroot, if_pos hkept.readable, hboot]
  rw [hboot] at hresult
  obtain rfl : r = some result := hresult
  have hv1 := hkept.v1
  cases hcases with
  | refused hrefused =>
    exfalso
    cases hrefused with
    | noKeys _ h2 => cases hblob.symm.trans h2
    | v2 _ h2 hno =>
      cases hblob.symm.trans h2
      exact hno json hopens
    | v1 h1 | misnamed h1 | both h1 => cases hv1.symm.trans h1
  | steady _ h2 hopen _ hr =>
    cases hblob.symm.trans h2
    rcases hr with hr | hr
    · cases hr
    · rw [hr, Opens.unique hopens hopen]
  | disabled h1 | staging h1 | staged h1 | reverted h1 => cases hv1.symm.trans h1
  | notPromoted h1 | promoted h1 =>
    rw [hv1] at h1
    cases h1

end Later

namespace FirstBoot

/-- **A first boot that started the signer** has on the card what it wrote: the marker if it was
created, and the owner and the mode that were set. -/
theorem finish_disk {io : FinalizeIo} {app : App} {firstPin : Option Pin} {json : String}
    {files : Files KeyPath} {c : FirstBoot} (hst : app.state = .setup firstPin)
    (h : finish io app json (fresh files) = some c) :
    c.started = true ∧ c.disk = ⟨files, io.marker.creates, io.chown, io.metadata && io.chmod⟩ := by
  have hevent : app.handleEvent io.app (.keyGenSuccess json) =
      ((app.finalizeFirstBoot json).1, .proceed, (app.finalizeFirstBoot json).2) := by
    simp only [App.handleEvent, hst, App.handleSetup]
  rw [finish, hevent] at h
  obtain ⟨c₁, h₁, h₂⟩ := Option.bind_eq_some_iff.1 h
  have hkeys : ∀ app : App, app.state = .active false →
      (app.handleEvent io.app (.keysDecrypted json)).2.2 =
        [.startSigner, .showPage .menu, .resetActivity] := by
    intro app happ
    simp only [App.handleEvent, happ, App.handleActive, App.navigationPage]
    cases app.currentPageModal <;> rfl
  have hdone : c = { c₁ with started := true } := by
    rw [hkeys _ rfl] at h₂
    exact (Option.some.inj h₂).symm
  refine ⟨by rw [hdone], ?_⟩
  rw [hdone]
  show c₁.disk = _
  simp only [App.finalizeFirstBoot, applyEffects, applyEffect, fresh, setKeyPermissions] at h₁
  cases hconfig : io.config with
  | error text => simp [hconfig] at h₁
  | _ =>
    simp only [hconfig, Option.bind_some] at h₁
    cases hremount : io.remount with
    | false => simp [hremount] at h₁
    | true =>
      cases hdrop : io.drop with
      | false => simp [hremount, hdrop] at h₁
      | true =>
        cases hinit : io.initWatermark with
        | false => simp [hremount, hdrop, hinit] at h₁
        | true =>
          simp only [hremount, hdrop, hinit, if_true, Option.bind_some, Option.some.injEq] at h₁
          rw [← h₁]
          cases io.sync <;> rfl

/-- **A first boot that starts the signer is durable exactly when** the marker was created and the
key file was not left to root alone. -/
theorem durable_iff [BlobCrypto] {pins : Set (List UInt8)} (hauth : Crypto.Authenticated pins)
    (random : Crypto.Random) (pin : Pin) (json : String) (answers answers' : List Answer)
    (before files : Files KeyPath) (hnone : before.content (.file .v1) = none)
    (hkeygen : (encryptSecretKeys random pin json).run answers before =
      (some (.ok ()), answers', files))
    (io : FinalizeIo) (app : App) (firstPin : Option Pin) (hst : app.state = .setup firstPin)
    (c : FirstBoot) (hfinish : finish io app json (fresh files) = some c) :
    (c.started = true → Later.Unlockable c.disk pin json) ↔
      io.marker.creates = true ∧ (io.chown = true ∨ ¬(io.metadata = true ∧ io.chmod = true)) := by
  obtain ⟨hstarted, hdisk⟩ := finish_disk hst hfinish
  have hfiles : files.content (.file .v1) = none ∧
      ∃ blob, files.content (.file .v2) = some blob ∧ Crypto.Opens pin blob json := by
    unfold encryptSecretKeys at hkeygen
    cases hblob : Crypto.encrypt random pin json with
    | error e =>
      rw [hblob] at hkeygen
      cases hkeygen
    | ok blob =>
      obtain ⟨r, io', s', hrun, hwrite⟩ := atomicWrite_spec .v2 blob answers before
      simp only [hblob, hrun, Prod.mk.injEq] at hkeygen
      obtain ⟨hr, -, rfl⟩ := hkeygen
      refine ⟨(hwrite.kept.content _ (by simp)).trans hnone, blob, ?_, ?_⟩
      · rw [hwrite.file, if_pos (hwrite.ok_iff.1 hr).landed]
      · exact opens_of_format (hauth.decrypt_encrypt hblob)
  constructor
  · intro hdurable
    have hunlockable := hdurable hstarted
    have hworks : BootIo.Works ⟨true, true, true, true, true, true⟩ := ⟨rfl, rfl, rfl⟩
    have hv1 : c.disk.files.content (.file .v1) = none := by
      rw [hdisk]
      exact hfiles.1
    obtain ⟨p, hdecision, hopen⟩ := hunlockable [] _ rfl _ false hworks
    have hmarker := Later.bootDecision_marker hdecision
    obtain ⟨p', hdecision', hroot⟩ := Later.bootDecision_of_marker hmarker hv1 hworks false
    obtain rfl : p = p' := by
      rw [hdecision] at hdecision'
      exact (Prod.mk.inj (Option.some.inj hdecision')).2
    have hread : c.disk.readable p.root = true := by
      by_contra hno
      have hresult := hopen random [] (by simp)
      rw [Later.decryptSecretKeys, if_neg hno] at hresult
      cases hresult
    rw [hroot, hdisk] at hread
    rw [hdisk] at hmarker
    refine ⟨hmarker, ?_⟩
    cases hchown : io.chown with
    | true => exact .inl rfl
    | false =>
      right
      intro hmode
      simp [KeysPartition.readable, hchown, hmode] at hread
  · rintro ⟨hmarker, hreadable⟩ -
    refine Later.Kept.unlockable ⟨?_, ?_, ?_, ?_⟩
    · rw [hdisk]
      exact hmarker
    · rw [hdisk]
      show (false || io.chown || !(io.metadata && io.chmod)) = true
      rw [Bool.false_or, Bool.or_eq_true, Bool.not_eq_true', Bool.and_eq_false_iff]
      rcases hreadable with hchown | hmode
      · exact .inl hchown
      · rw [not_and_or, Bool.not_eq_true, Bool.not_eq_true] at hmode
        exact .inr hmode
    · rw [hdisk]
      exact hfiles.1
    · rw [hdisk]
      exact hfiles.2

/-- Answers on which everything succeeds, but maybe the write of the marker. -/
def finalizeIo (marker : MarkerWrite) : FinalizeIo where
  app := ⟨0, false⟩
  config := .configured "Tezos Mainnet" 1000
  marker := marker
  chown := true
  metadata := true
  chmod := true
  sync := true
  remount := true
  drop := true
  initWatermark := true

/-- A process that has just generated its keys. -/
def generated : App := { App.new true with state := .setup (some testPin) }

section

attribute [local instance] Crypto.plainCrypto

/-- A first boot on which everything succeeds is durable. -/
theorem durable_clean : ∃ answers' files c,
    (encryptSecretKeys Crypto.plainRandom testPin "keys").run [] (keyFiles none none none) =
        (some (.ok ()), answers', files) ∧
      finish (finalizeIo .written) generated "keys" (fresh files) = some c ∧
      c.started = true ∧ Later.Unlockable c.disk testPin "keys" := by
  have hkeygen : ((encryptSecretKeys Crypto.plainRandom testPin "keys").run []
      (keyFiles none none none)).1 = some (.ok ()) := by decide +kernel
  rcases hrun : (encryptSecretKeys Crypto.plainRandom testPin "keys").run []
    (keyFiles none none none) with ⟨r, answers', files⟩
  obtain rfl : r = some (.ok ()) := by rw [← hkeygen, hrun]
  have hauth : Crypto.Authenticated {testPin} := Crypto.plainCrypto_authenticated (by simp)
  have hfinish : finish (finalizeIo .written) generated "keys" (fresh files) =
      some ⟨⟨files, true, true, true⟩, ⟨files, true, true, true⟩, true⟩ := rfl
  refine ⟨answers', files, _, rfl, hfinish, rfl, ?_⟩
  exact (durable_iff hauth _ _ _ _ _ _ _ rfl hrun _ generated _ rfl _ hfinish).2
    ⟨rfl, .inl rfl⟩ rfl

end

/-- **A marker that cannot be written is passed over**: the signer starts on keys that the next boot
rejects. -/
theorem not_durable : ¬∀ [BlobCrypto] (pins : Set (List UInt8)), Crypto.Authenticated pins →
    ∀ (random : Crypto.Random) (pin : Pin) (json : String) (answers answers' : List Answer)
      (before files : Files KeyPath), before.content (.file .v1) = none →
      (encryptSecretKeys random pin json).run answers before =
        (some (.ok ()), answers', files) →
      ∀ (io : FinalizeIo) (app : App) (firstPin : Option Pin), app.state = .setup firstPin →
        ∀ c, finish io app json (fresh files) = some c → c.started = true →
          Later.Unlockable c.disk pin json := by
  intro hall
  let _ := Crypto.plainCrypto
  have hkeygen : ((encryptSecretKeys Crypto.plainRandom testPin "keys").run []
      (keyFiles none none none)).1 = some (.ok ()) := by decide +kernel
  rcases hrun : (encryptSecretKeys Crypto.plainRandom testPin "keys").run []
    (keyFiles none none none) with ⟨r, answers', files⟩
  obtain rfl : r = some (.ok ()) := by rw [← hkeygen, hrun]
  have hauth : Crypto.Authenticated {testPin} := Crypto.plainCrypto_authenticated (by simp)
  have hfinish : finish (finalizeIo (.failed false)) generated "keys" (fresh files) =
      some ⟨⟨files, false, true, true⟩, ⟨files, false, true, true⟩, true⟩ := rfl
  have hunlockable := hall _ hauth _ _ _ _ _ _ _ rfl hrun _ generated _ rfl _ hfinish rfl
  obtain ⟨p, hdecision, -⟩ := hunlockable [] _ rfl ⟨true, true, true, true, true, true⟩ false
    ⟨rfl, rfl, rfl⟩
  cases Later.bootDecision_marker hdecision

end FirstBoot

end Russignol
