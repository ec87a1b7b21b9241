import Russignol.Rpi.App

/-!
# The boot

What the card decides before the first event: the init script mounts the keys partition and
chooses the user the signer runs as (`init_keys_partition`, `run_supervisor` of
`rootfs-overlay-hardened/init`), and the signer tells a first boot from a normal one
(`rpi-signer/src/setup.rs`, `run_ui_loop`), consumes a staged configuration where it is root, and
hands its privileges back (`recover_watermark_config`).

The probes of the script are answered by the card; a mount may fail.
-/

namespace Russignol

open FileStore TezosEncrypt

/-- What a boot finds on the card. -/
structure CardState where
  /-- The partitions 3 and 4. -/
  keysPart : Bool
  dataPart : Bool
  /-- `SETUP_MARKER` is on the keys partition. -/
  marker : Bool
  /-- The key files of the keys partition. -/
  files : Files KeyPath
  /-- `watermark-config.json` is on the boot partition. -/
  config : Bool

/-- What a boot is answered. -/
structure BootIo where
  /-- The probe of the boot partition mounts it. -/
  probes : Bool
  /-- The keys partition mounts. -/
  mounts : Bool
  /-- The read-only remount of the script succeeds. -/
  remounts : Bool
  /-- The hash of the root file system is as recorded, or was not recorded. -/
  verifies : Bool
  /-- `remount_keys_readonly` and `drop_privileges` of the recovery succeed. -/
  recoveryRemounts : Bool
  recoveryDrops : Bool

/-- The user a process runs as, and the keys partition it sees. -/
structure Posture where
  root : Bool
  keysMounted : Bool
  keysWritable : Bool
  deriving DecidableEq, Repr

namespace CardState

/-- `config_pending`. -/
def configPending (card : CardState) (io : BootIo) : Bool := io.probes && card.config

/-- A file of the mounted keys partition. -/
def has (card : CardState) (mounted : Bool) (f : KeyFile) : Bool :=
  mounted && (card.files.content (.file f)).isSome

/-- `init_keys_partition`: whether the partition is mounted, and writable. A remount that fails is
not noticed. -/
def initKeysPartition (card : CardState) (io : BootIo) : Bool × Bool :=
  if !card.keysPart then (false, false)
  else if !io.mounts then (false, false)
  else if card.marker then
    if card.has true .v1 then (true, true)
    else if card.configPending io then (true, true)
    else (true, !io.remounts)
  else (true, true)

/-- `run_supervisor`: whether the signer runs as root. -/
def runSupervisor (card : CardState) (io : BootIo) : Bool :=
  if !card.keysPart || !card.dataPart then true
  else card.has (card.initKeysPartition io).1 .v1 || card.configPending io

/-- The posture that the script leaves. -/
def init (card : CardState) (io : BootIo) : Posture where
  root := card.runSupervisor io
  keysMounted := (card.initKeysPartition io).1
  keysWritable := (card.initKeysPartition io).2

/-- `encrypted_keys_exist`. -/
def encryptedKeysExist (card : CardState) (mounted : Bool) : Bool :=
  card.has mounted .v1 || card.has mounted .v2

/-- `is_first_boot`. -/
def isFirstBoot (card : CardState) (mounted : Bool) : Bool :=
  if !card.keysPart then true else !(mounted && card.marker)

/-- `should_recover_watermark_config`. -/
def shouldRecoverWatermarkConfig (isFirstBoot isRoot migrationPending : Bool) : Bool :=
  !isFirstBoot && isRoot && !migrationPending

/-- `recover_watermark_config`, less the configuration; `none` where it is fatal. -/
def recoverWatermarkConfig (card : CardState) (io : BootIo) (isFirstBoot : Bool) (p : Posture) :
    Option Posture :=
  if shouldRecoverWatermarkConfig isFirstBoot p.root (card.has p.keysMounted .v1) then
    if io.recoveryRemounts && io.recoveryDrops then
      some { p with root := false, keysWritable := false }
    else none
  else some p

/-- `run_ui_loop` up to its loop: whether it is a first boot, and the posture; `none` where an
error is shown for good. -/
def bootDecision (card : CardState) (io : BootIo) : Option (Bool × Posture) :=
  let p := card.init io
  let isFirstBoot := card.isFirstBoot p.keysMounted
  if isFirstBoot && card.encryptedKeysExist p.keysMounted then none
  else if isFirstBoot && !io.verifies then none
  else (card.recoverWatermarkConfig io isFirstBoot p).map fun p => (isFirstBoot, p)

/-- A normal boot has its keys partition mounted. -/
theorem isFirstBoot_eq_false {card : CardState} {mounted : Bool}
    (h : card.isFirstBoot mounted = false) :
    card.keysPart = true ∧ mounted = true ∧ card.marker = true := by
  unfold isFirstBoot at h
  split at h
  · cases h
  · rename_i hpart
    simp only [Bool.not_eq_false, Bool.not_eq_eq_eq_not, Bool.not_true, Bool.not_false,
      Bool.and_eq_true] at hpart h
    exact ⟨hpart, h⟩

/-- Where the script leaves the signer unprivileged on a card that was set up, and its remount
succeeds, the keys partition is read-only. -/
theorem init_unprivileged {card : CardState} {io : BootIo} (hmarker : card.marker = true)
    (hroot : (card.init io).root = false) (hremounts : io.remounts = true) :
    (card.init io).keysWritable = false := by
  simp only [init, runSupervisor] at hroot ⊢
  split at hroot
  · cases hroot
  · rw [Bool.or_eq_false_iff] at hroot
    obtain ⟨hv1, hconfig⟩ := hroot
    unfold initKeysPartition at hv1 ⊢
    split
    · rfl
    · split
      · rfl
      · rename_i hpart hmounts
        rw [if_neg hpart, if_neg hmounts, hconfig] at hv1
        simp only [if_pos hmarker] at hv1 ⊢
        split
        · rename_i hhas
          rw [if_pos hhas, hhas] at hv1
          cases hv1
        · rw [hconfig, hremounts]
          rfl

/-- **A normal boot is unprivileged over a read-only keys partition, or a migration is pending**:
as long as the remount of the script succeeds, where it leaves the signer unprivileged. -/
theorem bootDecision_normal {card : CardState} {io : BootIo} {p : Posture}
    (h : card.bootDecision io = some (false, p))
    (hremounts : (card.init io).root = false → io.remounts = true) :
    (p.root = false ∧ p.keysWritable = false) ∨
      p.root = true ∧ (card.files.content (.file .v1)).isSome := by
  simp only [bootDecision] at h
  split at h
  · cases h
  · split at h
    · cases h
    · obtain ⟨p', hp', heq⟩ := Option.map_eq_some_iff.1 h
      obtain ⟨hfirst, rfl⟩ := Prod.mk.inj heq
      obtain ⟨-, hmounted, hmarker⟩ := isFirstBoot_eq_false hfirst
      unfold recoverWatermarkConfig shouldRecoverWatermarkConfig at hp'
      split at hp'
      · split at hp'
        · cases hp'
          exact .inl ⟨rfl, rfl⟩
        · cases hp'
      · rename_i hnot
        cases hp'
        cases hroot : (card.init io).root with
        | false => exact .inl ⟨rfl, init_unprivileged hmarker hroot (hremounts hroot)⟩
        | true =>
          refine .inr ⟨rfl, ?_⟩
          rw [hfirst, hroot, has, hmounted] at hnot
          exact Option.isSome_iff_ne_none.2 (by simpa using hnot)

end CardState

end Russignol
