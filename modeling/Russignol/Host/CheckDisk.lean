import Mathlib.Data.List.Sort
import Russignol.Host.WatermarkConfig

/-!
# The disk check

`host-utility/src/disk.rs`, from what was read of a card to the plan of the repairs: a `CardState`
is classified (`classify`), and an issue that can be repaired carries the action that does it
(`planRepairs`). How the card is read is `Russignol.Host.GatherCard`.
-/

namespace Russignol.Host

open CrashProgram FileStore Crypto Bytes
open WatermarkSetup (SetupPath)

/-! ## The state of a card -/

/-- `Partition`. -/
inductive Partition
  | boot
  | keys
  | data
  deriving DecidableEq, Repr

/-- A uid and a gid. -/
abbrev Owner := UInt32 × UInt32

/-- `KeysState`. -/
inductive KeysState
  | missing
  | unparseable
  | parsed (aliases pkhs : List String)
  deriving DecidableEq, Repr

/-- `ChainInfoState`. -/
inductive ChainInfoState
  | missing
  | unreadable (owner : Option Owner) (mode : Option UInt32)
  | present (id : String) (mode : Option UInt32) (owner : Option Owner)
  deriving DecidableEq, Repr

/-- `WatermarkFileStatus`. -/
inductive WatermarkFileStatus
  | missing
  | wrongSize
  | corrupt
  | valid (level : UInt32)
  deriving DecidableEq, Repr

/-- `WatermarkFile`. -/
structure WatermarkFile where
  name : String
  status : WatermarkFileStatus
  owner : Option Owner
  deriving DecidableEq, Repr

/-- `KeyWatermarks`. -/
structure KeyWatermarks where
  pkh : String
  dirPresent : Bool
  dirOwner : Option Owner
  files : List WatermarkFile
  deriving DecidableEq, Repr

/-- `BootConfigState`. -/
structure BootConfigState where
  chainId : String
  level : UInt32
  deriving DecidableEq, Repr

/-- `Inspection`. -/
inductive Inspection
  | inspected
  | notCapable
  | failed
  deriving DecidableEq, Repr

/-- `CardState`. -/
structure CardState where
  inspection : Inspection
  setupComplete : Bool
  migrationPending : Bool
  keys : KeysState
  chainInfo : ChainInfoState
  watermarks : List KeyWatermarks
  logsDirPresent : Bool
  panicLogSize : Option Nat
  bootConfig : Option BootConfigState
  deriving DecidableEq, Repr

/-! ## Issues -/

/-- `Severity`. -/
inductive Severity
  | critical
  | warning
  | info
  deriving DecidableEq, Repr

/-- `Remedy`. -/
inductive Remedy
  | hostDirect
  | fatStage
  | needsNode
  | manual
  deriving DecidableEq, Repr

/-- `IssueKind`. -/
inductive IssueKind
  | setupIncomplete
  | keysMissing
  | keysUnparseable
  | keysRoleMissing
  | migrationPending
  | f2fsNotInspected
  | fatStageAvailable
  | watermarkSeedMissing
  | watermarkDirMissing
  | watermarkFileMissing
  | watermarkCorrupt
  | watermarkBelowHead
  | watermarkNodeUnknown
  | chainInfoMissing
  | chainInfoUnreadable
  | chainInfoStale
  | chainInfoNodeUnknown
  | chainInfoModeDrift
  | ownershipDrift
  | leftoverBootConfig
  | logsDirMissing
  | panicLogOversized
  deriving DecidableEq, Repr

/-- `RepairAction`. -/
inductive RepairAction
  | chownWatermarks (pkh : String)
  | writeChainInfo
  | chmodChainInfo
  | chownChainInfo
  | truncatePanicLog
  | deleteBootConfig
  | stageBootConfig (chain : ChainInfo)
  deriving DecidableEq, Repr

/-- `Issue`. -/
structure Issue where
  kind : IssueKind
  severity : Severity
  partition : Partition
  remedy : Remedy
  action : Option RepairAction
  message : String
  deriving DecidableEq, Repr

/-- `remedy_is_fixable`. -/
def Remedy.isFixable : Remedy → Bool
  | .hostDirect | .fatStage => true
  | .needsNode | .manual => false

/-- What keeps an issue from being one of a healthy card. -/
def Issue.isFault (i : Issue) : Bool :=
  i.severity = .critical || i.severity = .warning || i.remedy.isFixable

/-- `is_healthy`. -/
def isHealthy (issues : List Issue) : Bool := !issues.any Issue.isFault

/-- A card is healthy where no issue is a fault. -/
theorem isHealthy_iff {issues : List Issue} :
    isHealthy issues = true ↔ ∀ i ∈ issues, i.isFault = false := by
  simp [isHealthy]

/-- The issues of two checks are healthy where those of each are. -/
theorem isHealthy_append {issues issues' : List Issue} :
    isHealthy (issues ++ issues') = true ↔ isHealthy issues = true ∧ isHealthy issues' = true := by
  simp only [isHealthy_iff, List.mem_append, or_imp, forall_and]

/-- The issues of a check over a list are healthy where those of every element are. -/
theorem isHealthy_flatMap {α : Type} {l : List α} {f : α → List Issue} :
    isHealthy (l.flatMap f) = true ↔ ∀ a ∈ l, isHealthy (f a) = true := by
  simp only [isHealthy_iff, List.mem_flatMap, forall_exists_index, and_imp]
  exact ⟨fun h a ha i hi => h i a ha hi, fun h i a ha hi => h a ha i hi⟩

/-! ## Classification -/

/-- `DEVICE_UID` and `DEVICE_GID`. -/
def deviceOwner : Owner := (1000, 1000)

/-- `CHAIN_INFO_MODE`. -/
def chainInfoMode : UInt32 := 0o400

/-- `PANIC_LOG_MAX_BYTES`. -/
def panicLogMaxBytes : Nat := 1024 * 1024

/-- `node_backed_remedy`. -/
def nodeBackedRemedy (node : Option ChainInfo) : Remedy :=
  if node.isSome then .hostDirect else .needsNode

/-- `owner_ok`. -/
def ownerOk (owner : Option Owner) : Bool := owner.all (· = deviceOwner)

/-- An owner, in a message. -/
def showOwner (owner : Owner) : String := toString owner.1 ++ ":" ++ toString owner.2

/-- A mode as four octal digits or more. -/
def showMode (mode : UInt32) : String :=
  let digits := Nat.toDigits 8 mode.toNat
  String.ofList (List.replicate (4 - digits.length) '0' ++ digits)

/-- `u32::saturating_mul`. -/
def saturatingMul (a b : UInt32) : UInt32 := UInt32.ofNat (min (a.toNat * b.toNat) (2 ^ 32 - 1))

/-- `u32::saturating_sub`. -/
def saturatingSub (a b : UInt32) : UInt32 := if b ≤ a then a - b else 0

/-- `floor_significantly_behind`. -/
def floorSignificantlyBehind (floor : UInt32) (node : ChainInfo) : Bool :=
  let threshold := saturatingMul largeGapCycles node.blocksPerCycle
  saturatingSub node.level floor > threshold

/-- `boot_config_superseded`. -/
def bootConfigSuperseded (state : CardState) (nodeId : String) (bc : BootConfigState) : Bool :=
  let chainInfoCurrent := match state.chainInfo with
    | .present id _ _ => id = nodeId
    | _ => false
  let floorsCovered := state.inspection = .inspected && !state.watermarks.isEmpty &&
    state.watermarks.all fun key =>
      !key.files.isEmpty && key.files.all fun f => match f.status with
        | .valid level => level ≥ bc.level
        | _ => false
  chainInfoCurrent && floorsCovered

/-- The issue of a configuration that is stale. -/
def staleDelete (message : String) : Issue where
  kind := .leftoverBootConfig
  severity := .warning
  partition := .boot
  remedy := .hostDirect
  action := some .deleteBootConfig
  message := message

/-- The issue of a configuration that the device is to consume. -/
def leftInPlace (bc : BootConfigState) : Issue where
  kind := .leftoverBootConfig
  severity := .info
  partition := .boot
  remedy := .manual
  action := none
  message := "a staged watermark-config.json is present (chain " ++ bc.chainId ++ " at level " ++
    toString bc.level ++ "); the device consumes it on the next boot, so it is left in place"

/-- `classify_boot_config`. -/
def classifyBootConfig (state : CardState) (node : Option ChainInfo) : List Issue :=
  match state.bootConfig with
  | none => []
  | some bc =>
    match node with
    | none => [leftInPlace bc]
    | some n =>
      if n.id ≠ bc.chainId then
        [staleDelete ("a staged watermark-config.json targets chain " ++ bc.chainId ++
          " at level " ++ toString bc.level ++ ", which differs from the node's chain " ++ n.id ++
          "; it is stale and can be deleted")]
      else if bootConfigSuperseded state n.id bc then
        [staleDelete ("a staged watermark-config.json (chain " ++ bc.chainId ++ " at level " ++
          toString bc.level ++ ") is at or below the card's current watermark floor and " ++
          "chain_info is current; it is superseded and can be deleted")]
      else [leftInPlace bc]

/-- `classify_keys`. -/
def classifyKeys (state : CardState) : List Issue :=
  match state.keys with
  | .missing => [{
      kind := .keysMissing, severity := .critical, partition := .keys, remedy := .manual
      action := none
      message := "public_key_hashs is missing; the card has no keys and cannot sign — restore " ++
        "keys or re-run setup" }]
  | .unparseable => [{
      kind := .keysUnparseable, severity := .critical, partition := .keys, remedy := .manual
      action := none
      message := "public_key_hashs is present but could not be parsed or is empty" }]
  | .parsed aliases _ => (KeyRole.all.filter (·.deviceAlias ∉ aliases)).map fun role => {
      kind := .keysRoleMissing, severity := .warning, partition := .keys, remedy := .manual
      action := none
      message := "expected key role '" ++ role.deviceAlias ++ "' was not found among the card's " ++
        "key aliases" }

/-- The issue of a `chain_info.json` that the device does not own. -/
def chainInfoOwnership (owner : Option Owner) : Issue where
  kind := .ownershipDrift
  severity := .critical
  partition := .keys
  remedy := .hostDirect
  action := some .chownChainInfo
  message := "chain_info.json is owned " ++ showOwner (owner.getD (0, 0)) ++
    ", but the device runs as " ++ showOwner deviceOwner ++ " and cannot read it"

/-- The freshness of a `chain_info.json` that is present. -/
def classifyChainId (id : String) (node : Option ChainInfo) : List Issue :=
  match node with
  | none => [{
      kind := .chainInfoNodeUnknown, severity := .info, partition := .keys, remedy := .needsNode
      action := none
      message := "chain_info.json freshness cannot be checked without a node endpoint" }]
  | some n =>
    if n.id ≠ id then [{
      kind := .chainInfoStale, severity := .warning, partition := .keys, remedy := .hostDirect
      action := some .writeChainInfo
      message := "chain_info.json records chain " ++ id ++ ", but the node reports " ++ n.id ++
        "; it is stale and should be rewritten" }]
    else []

/-- `classify_chain_info`. -/
def classifyChainInfo (state : CardState) (node : Option ChainInfo) : List Issue :=
  let writeAction := if node.isSome then some RepairAction.writeChainInfo else none
  match state.chainInfo with
  | .missing => [{
      kind := .chainInfoMissing, severity := .critical, partition := .keys
      remedy := nodeBackedRemedy node, action := writeAction
      message := "chain_info.json is missing; the device cannot resolve the chain it signs for " ++
        "until it is rewritten from a node" }]
  | .unreadable owner _ =>
    if !ownerOk owner then [chainInfoOwnership owner]
    else [{
      kind := .chainInfoUnreadable, severity := .critical, partition := .keys
      remedy := nodeBackedRemedy node, action := writeAction
      message := "chain_info.json is present but is not valid JSON or is missing required fields" }]
  | .present id mode owner =>
    classifyChainId id node ++ (if !ownerOk owner then [chainInfoOwnership owner] else []) ++
      match mode with
      | some m =>
        if m ≠ chainInfoMode then [{
          kind := .chainInfoModeDrift, severity := .warning, partition := .keys
          remedy := .hostDirect, action := some .chmodChainInfo
          message := "chain_info.json mode is " ++ showMode m ++ ", expected " ++
            showMode chainInfoMode }]
        else []
      | none => []

/-- `staged_config_seeds_watermarks`. -/
def stagedConfigSeedsWatermarks (state : CardState) (node : Option ChainInfo) : Bool :=
  match state.bootConfig, node with
  | some bc, some n => n.id = bc.chainId
  | some _, none => true
  | none, _ => false

/-- The remedy of a fault in the watermarks: a staged configuration. -/
def stagedRemedy (node : Option ChainInfo) : Remedy :=
  if node.isSome then .fatStage else .needsNode

/-- The action of a fault in the watermarks. -/
def stageAction (node : Option ChainInfo) : Option RepairAction := node.map .stageBootConfig

/-- What `classify_key_watermarks` reports of one file. -/
def classifyWatermarkFile (pkh : String) (node : Option ChainInfo) (file : WatermarkFile) :
    List Issue :=
  match file.status with
  | .missing => [{
      kind := .watermarkFileMissing, severity := .critical, partition := .data
      remedy := stagedRemedy node, action := stageAction node
      message := "watermark file " ++ file.name ++ " for key " ++ pkh ++ " is missing" }]
  | .wrongSize | .corrupt => [{
      kind := .watermarkCorrupt, severity := .critical, partition := .data
      remedy := stagedRemedy node, action := stageAction node
      message := "watermark file " ++ file.name ++ " for key " ++ pkh ++ " failed to decode" }]
  | .valid _ => []

/-- The level of a file that decodes. -/
def WatermarkFile.level? (file : WatermarkFile) : Option UInt32 :=
  match file.status with
  | .valid level => some level
  | _ => none

/-- The lowest level of the files that decode. -/
def KeyWatermarks.minLevel (key : KeyWatermarks) : Option UInt32 :=
  (key.files.filterMap (·.level?)).min?

/-- The below-head flag of `classify_key_watermarks`. -/
def classifyBelowHead (key : KeyWatermarks) (node : Option ChainInfo) : List Issue :=
  match node, key.minLevel with
  | some n, some level =>
    if floorSignificantlyBehind level n then [{
      kind := .watermarkBelowHead, severity := .warning, partition := .data
      remedy := stagedRemedy node, action := stageAction node
      message := "the watermark floor for key " ++ key.pkh ++ " is level " ++ toString level ++
        ", more than " ++ toString largeGapCycles ++ " cycles behind the node head " ++
        toString n.level }]
    else []
  | _, _ => []

/-- `classify_key_watermarks`, less the flag that a file decodes. -/
def classifyKeyWatermarks (key : KeyWatermarks) (node : Option ChainInfo) (seedsPending : Bool) :
    List Issue :=
  if !key.dirPresent then
    if !seedsPending then [{
      kind := .watermarkDirMissing, severity := .critical, partition := .data
      remedy := stagedRemedy node, action := stageAction node
      message := "the watermark directory for key " ++ key.pkh ++ " is missing" }]
    else []
  else
    key.files.flatMap (classifyWatermarkFile key.pkh node) ++ classifyBelowHead key node ++
      if !ownerOk key.dirOwner || key.files.any (!ownerOk ·.owner) then [{
        kind := .ownershipDrift, severity := .critical, partition := .data
        remedy := .hostDirect, action := some (.chownWatermarks key.pkh)
        message := "watermark files for key " ++ key.pkh ++ " are not owned " ++
          showOwner deviceOwner ++ "; the device cannot update them" }]
      else []

/-- `classify_watermarks`. -/
def classifyWatermarks (state : CardState) (node : Option ChainInfo) : List Issue :=
  let anyValid := state.watermarks.any fun key =>
    key.dirPresent && key.files.any (·.level?.isSome)
  (state.watermarks.flatMap fun key =>
    classifyKeyWatermarks key node (stagedConfigSeedsWatermarks state node)) ++
    if anyValid && node.isNone then [{
      kind := .watermarkNodeUnknown, severity := .info, partition := .data, remedy := .needsNode
      action := none
      message := "watermark floors cannot be compared to the node head without a node endpoint" }]
    else []

/-- `classify_logs`. -/
def classifyLogs (state : CardState) : List Issue :=
  (if !state.logsDirPresent then [{
    kind := .logsDirMissing, severity := .info, partition := .data, remedy := .manual
    action := none
    message := "/data/logs is missing; the device recreates it on boot" }]
  else []) ++
    match state.panicLogSize with
    | some size =>
      if size > panicLogMaxBytes then [{
        kind := .panicLogOversized, severity := .warning, partition := .data
        remedy := .hostDirect, action := some .truncatePanicLog
        message := "panic.log is " ++ toString size ++ " bytes, over the " ++
          toString panicLogMaxBytes ++ "-byte cap; it can be truncated" }]
      else []
    | none => []

/-- What is reported of partitions that were not inspected. -/
def classifyUninspected (inspection : Inspection) (node : Option ChainInfo) : List Issue :=
  { kind := .f2fsNotInspected, severity := .warning, partition := .keys, remedy := .manual
    action := none
    message :=
      if inspection = .notCapable then
        "the host kernel cannot mount f2fs, so the keys and data partitions were not " ++
          "inspected; run 'check disk' on an f2fs-capable host to diagnose them"
      else
        "the keys or data partition could not be mounted, so they were not inspected; check " ++
          "that the card is readable and that mounting f2fs is permitted" } ::
    match inspection, node with
    | .notCapable, some n => [{
        kind := .fatStageAvailable, severity := .info, partition := .boot, remedy := .fatStage
        action := some (.stageBootConfig n)
        message := "the host cannot mount f2fs to repair the keys and data partitions directly; " ++
          "a watermark-config.json can be staged so the device configures watermarks and " ++
          "chain_info at level " ++ toString n.level ++ " on its next boot" }]
    | _, _ => []

/-- What is reported of a card whose first boot is not finished. -/
def classifyIncomplete (state : CardState) (node : Option ChainInfo) : List Issue :=
  { kind := .setupIncomplete, severity := .info, partition := .keys, remedy := .manual
    action := none
    message := "first-boot setup has not completed (.setup_complete absent); the device " ++
      "generates its keys, watermarks, and chain_info on first boot" } ::
    if state.bootConfig.isNone then [{
      kind := .watermarkSeedMissing, severity := .warning, partition := .boot
      remedy := stagedRemedy node, action := stageAction node
      message := match node with
        | some n => "the card has no staged watermark-config.json and first-boot setup has not " ++
            "completed; a config can be staged so the device seeds watermarks and chain_info " ++
            "at level " ++ toString n.level ++ " on its next boot"
        | none => "the card has no staged watermark-config.json and first-boot setup has not " ++
            "completed; provide a node endpoint to stage one so the device seeds its " ++
            "authenticated watermark floor" }]
    else []

/-- The pending migration. -/
def classifyMigration (state : CardState) : List Issue :=
  if state.migrationPending then [{
    kind := .migrationPending, severity := .info, partition := .keys, remedy := .manual
    action := none
    message := "a pending v1->v2 PIN-blob migration is present; the device completes it on " ++
      "boot and the disk check leaves it untouched" }]
  else []

/-- `classify`. -/
def classify (state : CardState) (node : Option ChainInfo) : List Issue :=
  classifyBootConfig state node ++
    if state.inspection ≠ .inspected then classifyUninspected state.inspection node
    else
      classifyMigration state ++
        if !state.setupComplete then classifyIncomplete state node
        else classifyKeys state ++ classifyChainInfo state node ++ classifyWatermarks state node ++
          classifyLogs state

/-- `plan_repairs`: the actions, less those that a broader one supersedes, each once. -/
def planRepairs (issues : List Issue) : List RepairAction :=
  let actions := issues.filterMap (·.action)
  let rewritesChainInfo := actions.contains .writeChainInfo
  let stagesBootConfig := actions.any fun
    | .stageBootConfig _ => true
    | _ => false
  actions.foldl (fun planned action =>
    let superseded := match action with
      | .chmodChainInfo | .chownChainInfo => rewritesChainInfo
      | .deleteBootConfig => stagesBootConfig
      | _ => false
    if !superseded && !planned.contains action then planned ++ [action] else planned) []

end Russignol.Host
