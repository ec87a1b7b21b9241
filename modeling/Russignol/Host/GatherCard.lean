import Russignol.Host.CheckDisk
import Russignol.Rpi.StagedFloor

/-!
# Reading a card

The second half of `host-utility/src/disk.rs`: what the disk check reads of the partitions of a card,
mounted read-only. A `CardImage` is what is on the card: the host sees a file with its owner and mode,
and may be unable to read it; the device sees its bytes (`CardImage.onDevice`).

The host lists the keys by `public_key_hashs` and reads of each record its first 40 bytes, so a
record of either format is valid to it (`decodeWatermarkPrefix_authenticated`,
`decodeWatermarkPrefix_legacy`).
-/

namespace Russignol.Host

open CrashProgram FileStore Crypto Bytes
open WatermarkSetup (SetupPath)

/-! ## What is on a card -/

/-- A file. -/
structure CardFile where
  owner : Owner
  mode : UInt32
  /-- The host may read it. -/
  readable : Bool
  content : List UInt8

/-- A directory, or a file in its place. -/
structure CardDir where
  isDir : Bool
  owner : Owner

/-- The files of the keys partition that the check looks at. -/
inductive KeysFile
  | setupComplete
  | secretKeysEnc
  | publicKeyHashs
  | chainInfo
  deriving DecidableEq, Repr

/-- The boot, keys and data partitions. -/
structure CardImage where
  /-- `watermark-config.json`. -/
  boot : Option (List UInt8)
  /-- The owner and the permissions of the root of the keys partition. -/
  keysRoot : Owner × UInt32
  keys : KeysFile → Option CardFile
  /-- The entries of `watermarks`. -/
  dir : String → Option CardDir
  /-- The record files in them. -/
  records : String → OperationType → Option CardFile
  logsDir : Bool
  panicLog : Option CardFile
  /-- A file is in a directory. -/
  contained : ∀ name t, (records name t).isSome = true → (dir name).any (·.isDir) = true

/-- Which of the mounts succeed, and whether f2fs is registered after a failure. -/
structure Mounts where
  boot : Bool
  keys : Bool
  data : Bool
  f2fsRegistered : Bool

/-- Reading a file, on the host. -/
def CardFile.read (f : CardFile) : Option (List UInt8) := if f.readable then some f.content else none

/-- Reading a text, on the host. -/
def CardFile.readToString (f : CardFile) : Option String := f.read.bind fromUtf8

section

variable [Blake3] [Base58]

/-- The card as the device finds it, with the power off. -/
def CardImage.onDevice (img : CardImage) : StagedFloor where
  files := {
    content := fun
      | .config => img.boot
      | .chainInfo => (img.keys .chainInfo).map (·.content)
    trace := [] }
  disk := {
    isDir pkh := (img.dir pkh.toB58check).any (·.isDir)
    files pkh t := ((img.records pkh.toB58check t).map (·.content)).getD []
    written := [] }
  proc := none
  taken := none

end

/-! ## What the check reads -/

/-- The names of the record files: `FILENAMES`. -/
def recordName : OperationType → String
  | .block => "block_watermark"
  | .preattestation => "preattestation_watermark"
  | .attestation => "attestation_watermark"

/-- `decode_watermark_prefix`. -/
def decodeWatermarkPrefix [Blake3] (bytes : List UInt8) : WatermarkFileStatus :=
  if h : bytes.length = Watermark.fileSize ∨ bytes.length = Watermark.authFileSize then
    match Watermark.decode ⟨bytes.take Watermark.fileSize, by
      rw [List.length_take]
      rcases h with h | h <;> rw [h] <;> rfl⟩ with
    | some (level, _) => .valid level
    | none => .corrupt
  else .wrongSize

section

variable [Blake3]

/-- Of a file of either size the first record is decoded. -/
theorem decodeWatermarkPrefix_eq {bytes : List UInt8} {record : Fixed Watermark.fileSize}
    (hlen : bytes.length = Watermark.fileSize ∨ bytes.length = Watermark.authFileSize)
    (htake : bytes.take Watermark.fileSize = record.1) :
    decodeWatermarkPrefix bytes = match Watermark.decode record with
      | some (level, _) => .valid level
      | none => .corrupt := by
  obtain ⟨record, hrecord⟩ := record
  subst htake
  rw [decodeWatermarkPrefix, dif_pos hlen]

/-- A record that authenticates is valid. -/
theorem decodeWatermarkPrefix_authenticated (macKey : Watermark.MacKey) (ad : List UInt8)
    (level round : UInt32) :
    decodeWatermarkPrefix (Watermark.encodeAuthenticated macKey ad level round).1 =
      .valid level := by
  rw [decodeWatermarkPrefix_eq (.inr (Watermark.encodeAuthenticated macKey ad level round).2)
    (Watermark.take_encodeAuthenticated macKey ad level round), Watermark.decode_encode]

/-- A record of the old format is valid. -/
theorem decodeWatermarkPrefix_legacy (level round : UInt32) :
    decodeWatermarkPrefix (Watermark.encode level round).1 = .valid level := by
  have hlen := (Watermark.encode level round).2
  rw [decodeWatermarkPrefix_eq (.inl hlen) (List.take_of_length_le hlen.le),
    Watermark.decode_encode]

end

/-- `read_watermark_file`. -/
def readWatermarkFile [Blake3] (img : CardImage) (pkh : String) (t : OperationType) :
    WatermarkFile where
  name := recordName t
  status := match (img.records pkh t).bind (·.read) with
    | none => .missing
    | some bytes => decodeWatermarkPrefix bytes
  owner := (img.records pkh t).map (·.owner)

/-- `read_key_watermarks`. -/
def readKeyWatermarks [Blake3] (img : CardImage) (pkh : String) : KeyWatermarks :=
  let dirPresent := (img.dir pkh).any (·.isDir)
  { pkh
    dirPresent
    dirOwner := (img.dir pkh).map (·.owner)
    files := if dirPresent then OperationType.all.map (readWatermarkFile img pkh) else [] }

/-- `OcamlKeyEntry`: `Deserialize`. -/
def ocamlKeyEntry (j : Json) : Option (String × String) := do
  let field ← j.record ["name", "value"]
  let name ← Json.strField field "name"
  let value ← Json.strField field "value"
  some (name, value)

/-- The aliases and hashes of `load_keys`. A later entry of an alias replaces an earlier one. -/
def loadKeyHashs [JsonText] (content : String) : List (String × String) :=
  match JsonText.decode "a sequence" (fun j => j.asArr.bind (·.mapM ocamlKeyEntry)) content with
  | .error _ => []
  | .ok entries => entries.foldl (fun keys e => keys.filter (·.1 ≠ e.1) ++ [e]) []

/-- Where `order_card_keys` puts an alias. -/
def aliasOrder (keyAlias : String) : Nat × String :=
  match KeyRole.fromDeviceAlias keyAlias with
  | some role => (role.index, "")
  | none => (2, keyAlias)

/-- `order_card_keys`. -/
def orderCardKeys (keys : List (String × String)) : List String × List String :=
  (keys.mergeSort fun a b =>
    let (i, s) := aliasOrder a.1
    let (j, t) := aliasOrder b.1
    i < j || (i = j && s ≤ t)).unzip

/-- `read_keys_state`. -/
def readKeysState [JsonText] (img : CardImage) : KeysState :=
  match img.keys .publicKeyHashs with
  | none => .missing
  | some file =>
    match (file.readToString.map loadKeyHashs).getD [] with
    | [] => .unparseable
    | keys => .parsed (orderCardKeys keys).1 (orderCardKeys keys).2

/-- `read_chain_info_state`: the id of whatever object is there. -/
def readChainInfoState [JsonText] (img : CardImage) : ChainInfoState :=
  match img.keys .chainInfo with
  | none => .missing
  | some file =>
    let parsed := file.readToString.bind fun content => (JsonText.parse content).toOption
    let id := (parsed.bind (·.get "id")).bind Json.asStr
    match id.filter (· ≠ "") with
    | some id => .present id (some (file.mode &&& 0o777)) (some file.owner)
    | none => .unreadable (some file.owner) (some (file.mode &&& 0o777))

/-- `gather_boot_config`. -/
def gatherBootConfig [JsonText] (m : Mounts) (img : CardImage) : Option BootConfigState :=
  if m.boot then
    (img.boot.bind fromUtf8).bind fun content =>
      match JsonText.decode "struct WatermarkConfig" WatermarkConfig.ofJson content with
      | .ok config => some { chainId := config.chain.id, level := config.chain.level }
      | .error _ => none
  else none

/-- `uninspected_state`. -/
def uninspectedState (inspection : Inspection) (bootConfig : Option BootConfigState) :
    CardState where
  inspection := inspection
  setupComplete := false
  migrationPending := false
  keys := .missing
  chainInfo := .missing
  watermarks := []
  logsDirPresent := false
  panicLogSize := none
  bootConfig := bootConfig

/-- `gather_card_state`. -/
def gatherCardState [Blake3] [JsonText] (m : Mounts) (img : CardImage) : CardState :=
  let bootConfig := gatherBootConfig m img
  if !m.keys then
    uninspectedState (if m.f2fsRegistered then .failed else .notCapable) bootConfig
  else if !m.data then uninspectedState .failed bootConfig
  else
    let keys := readKeysState img
    let pkhs := match keys with
      | .parsed _ pkhs => pkhs
      | _ => []
    { inspection := .inspected
      setupComplete := (img.keys .setupComplete).isSome
      migrationPending := (img.keys .secretKeysEnc).isSome
      keys
      chainInfo := readChainInfoState img
      watermarks := pkhs.map (readKeyWatermarks img)
      logsDirPresent := img.logsDir
      panicLogSize := img.panicLog.map (·.content.length)
      bootConfig }

end Russignol.Host
