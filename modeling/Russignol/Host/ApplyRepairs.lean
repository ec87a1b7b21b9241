import Mathlib.Logic.Function.Basic
import Russignol.Base.EarlyExit
import Russignol.Host.CardNode

/-!
# Carrying out the repairs

`execute_repairs` and `apply_action` (`host-utility/src/disk.rs`), with the writers of
`host-utility/src/card_fs.rs`: the configurations are staged first, then the actions of each
partition are taken in the order of the plan, until one fails. Only `chown` is run under `sudo`:
`chain_info.json` is rewritten and its mode set by its owner or by root, and `panic.log` is
truncated by who may write it.

Each action changes one thing on the card (`RepairAction.effect`), and no planned one undoes
another (`RepairAction.Done.effect`).
-/

namespace Russignol.Host

open Crypto EarlyExit

/-! ## A host -/

/-- The host of a disk check. What it mounts for reading it mounts for writing too, and `chown` is
run under `sudo`. -/
structure CheckHost where
  mounts : Mounts
  /-- The user it runs as, its group and the other groups. -/
  uid : UInt32
  gid : UInt32
  groups : List UInt32
  /-- Whether it may write the boot partition, whose files have no owner but that of the mount. -/
  writesBoot : Bool
  /-- Where a partition is mounted. -/
  mountPoint : Partition → String

/-- The permissions of a file. -/
def CardFile.permissions (f : CardFile) : UInt32 := f.mode &&& 0o777

namespace CheckHost

/-- What the permissions of a file grant the host: all to root, else the bits of the owner, of the
group or of the others, the first that it is. -/
def grants (host : CheckHost) (owner : Owner) (permissions bits : UInt32) : Bool :=
  host.uid = 0 ||
    if host.uid = owner.1 then permissions >>> 6 &&& bits = bits
    else if owner.2 = host.gid ∨ owner.2 ∈ host.groups then permissions >>> 3 &&& bits = bits
    else permissions &&& bits = bits

/-- Whether it may read a file. -/
def reads (host : CheckHost) (owner : Owner) (permissions : UInt32) : Bool :=
  host.grants owner permissions 4

/-- Whether it may write a file. -/
def writes (host : CheckHost) (f : CardFile) : Bool := host.grants f.owner f.permissions 2

/-- Whether it may create a file at the root of the keys partition. -/
def creates (host : CheckHost) (img : CardImage) : Bool :=
  host.grants img.keysRoot.1 img.keysRoot.2 3

/-- Whether it may change the permissions of a file. -/
def owns (host : CheckHost) (owner : Owner) : Bool := host.uid = 0 || host.uid = owner.1

/-- A file with this owner and mode. -/
def file (host : CheckHost) (owner : Owner) (mode : UInt32) (content : List UInt8) : CardFile where
  owner := owner
  mode := mode
  readable := host.reads owner (mode &&& 0o777)
  content := content

/-- `ensure_device_owned`, of a file that is there: it is left alone if it is the device's. -/
def chown (host : CheckHost) (f : CardFile) : CardFile :=
  if f.owner = deviceOwner then f else host.file deviceOwner f.mode f.content

/-- `set_chain_info_mode`, of a file that is there. -/
def setChainInfoMode (host : CheckHost) (f : CardFile) : CardFile :=
  host.file f.owner chainInfoMode f.content

section

variable (host : CheckHost) (f : CardFile)

/-- A file that was chowned is the device's. -/
@[simp] theorem owner_chown : (host.chown f).owner = deviceOwner := by
  unfold chown
  split
  · assumption
  · rfl

/-- A change of owner keeps the mode. -/
@[simp] theorem permissions_chown : (host.chown f).permissions = f.permissions := by
  unfold chown
  split <;> rfl

/-- A change of owner keeps the content. -/
@[simp] theorem content_chown : (host.chown f).content = f.content := by
  unfold chown
  split <;> rfl

/-- The device's file is left alone. -/
theorem chown_of_owner {f : CardFile} (h : f.owner = deviceOwner) : host.chown f = f := if_pos h

/-- A host that owns no file of the device is neither root nor its user. -/
theorem reads_of_not_owns (h : host.owns deviceOwner = false) :
    host.reads deviceOwner chainInfoMode = false := by
  obtain ⟨hroot, huser⟩ : host.uid ≠ 0 ∧ host.uid ≠ deviceOwner.1 := by
    simpa [owns] using h
  have hgroup : chainInfoMode >>> 3 &&& 4 = 0 := by decide
  have hothers : chainInfoMode &&& 4 = 0 := by decide
  simp only [reads, grants, hroot, huser, decide_false, Bool.false_or, if_false, hgroup, hothers]
  split <;> decide

/-- The host that owns the device's files reads its `chain_info.json`. -/
theorem reads_of_owns (h : host.owns deviceOwner = true) :
    host.reads deviceOwner chainInfoMode = true := by
  have howner : chainInfoMode >>> 6 &&& 4 = 4 := by decide
  by_cases hroot : host.uid = 0
  · simp only [reads, grants, hroot, decide_true, Bool.true_or]
  · have huser : host.uid = deviceOwner.1 := by simpa [owns, hroot] using h
    simp only [reads, grants, huser, if_true, howner, decide_true, Bool.or_true]

end

end CheckHost

/-- What the host can read is decided by owner and permissions. -/
structure CardImage.ReadBy (img : CardImage) (host : CheckHost) : Prop where
  keys : ∀ k f, img.keys k = some f → f.readable = host.reads f.owner f.permissions
  records : ∀ name t f, img.records name t = some f → f.readable = host.reads f.owner f.permissions

namespace CardImage

/-- The card with another `chain_info.json`. -/
def withChainInfo (img : CardImage) (f : Option CardFile) : CardImage :=
  { img with keys := Function.update img.keys .chainInfo f }

/-- The card with another `watermark-config.json`. -/
def withBoot (img : CardImage) (boot : Option (List UInt8)) : CardImage := { img with boot := boot }

/-- The card with another `panic.log`. -/
def withPanicLog (img : CardImage) (f : Option CardFile) : CardImage := { img with panicLog := f }

/-- `chown -R` of the directory of a key. -/
def chownTree (host : CheckHost) (pkh : String) (img : CardImage) : CardImage where
  boot := img.boot
  keysRoot := img.keysRoot
  keys := img.keys
  dir name :=
    if name = pkh then (img.dir name).map ({ · with owner := deviceOwner }) else img.dir name
  records name t := if name = pkh then (img.records name t).map host.chown else img.records name t
  logsDir := img.logsDir
  panicLog := img.panicLog
  contained name t h := by
    have hsome : (img.records name t).isSome = true := by
      by_cases hname : name = pkh
      · rwa [if_pos hname, Option.isSome_map] at h
      · rwa [if_neg hname] at h
    have hdir := img.contained name t hsome
    by_cases hname : name = pkh
    · rw [if_pos hname, Option.any_map]
      exact hdir
    · rwa [if_neg hname]

section

variable (img : CardImage)

/-- A replaced `chain_info.json` is the one that was put there. -/
@[simp] theorem withChainInfo_chainInfo (f : Option CardFile) :
    (img.withChainInfo f).keys .chainInfo = f := by
  simp only [withChainInfo, Function.update_self]

/-- Replacing `chain_info.json` leaves the other files of the partition. -/
@[simp] theorem withChainInfo_keys (f : Option CardFile) {k : KeysFile} (hk : k ≠ .chainInfo) :
    (img.withChainInfo f).keys k = img.keys k := Function.update_of_ne hk _ _

/-- Of two replacements the last one stays. -/
theorem withChainInfo_withChainInfo (f f' : Option CardFile) :
    (img.withChainInfo f).withChainInfo f' = img.withChainInfo f' := by
  unfold withChainInfo
  simp only [Function.update_idem]

/-- A replaced panic log is the one that was put there. -/
@[simp] theorem withPanicLog_panicLog (f : Option CardFile) :
    (img.withPanicLog f).panicLog = f := rfl

variable (host : CheckHost) (pkh : String)

/-- A change of owner down a tree reaches the directory of that key only. -/
theorem chownTree_dir (name : String) : (img.chownTree host pkh).dir name =
    if name = pkh then (img.dir name).map ({ · with owner := deviceOwner }) else img.dir name := rfl

/-- A change of owner down a tree reaches the records of that key only. -/
theorem chownTree_records (name : String) (t : OperationType) :
    (img.chownTree host pkh).records name t =
      if name = pkh then (img.records name t).map host.chown else img.records name t := rfl

end

end CardImage

/-! ## The actions -/

/-- `action_partition`. -/
def RepairAction.partition : RepairAction → Partition
  | .chownWatermarks _ | .truncatePanicLog => .data
  | .writeChainInfo | .chmodChainInfo | .chownChainInfo => .keys
  | .deleteBootConfig | .stageBootConfig _ => .boot

/-- A configuration is staged. -/
def RepairAction.isStage : RepairAction → Bool
  | .stageBootConfig _ => true
  | _ => false

section

variable [JsonText]

/-- The `chain_info.json` of `write_chain_info`, when it is the device's. -/
def CheckHost.chainInfoFile (host : CheckHost) (n : ChainInfo) : CardFile :=
  host.file deviceOwner chainInfoMode (chainInfoBytes n)

/-- `write_chain_info`. A file that is there is made writable first, which is its owner's to do; one
that is created is the host's. -/
def writeChainInfo (host : CheckHost) (path : String) (n : ChainInfo) : Prog CardImage Unit :=
  fun img =>
    match img.keys .chainInfo with
    | some f =>
      if host.owns f.owner then
        .ok () (img.withChainInfo (some (host.file f.owner chainInfoMode (chainInfoBytes n))))
      else
        .error (.failed ("failed to make " ++ path ++
          " writable: Operation not permitted (os error 1)")) img
    | none =>
      if host.creates img then
        .ok () (img.withChainInfo
          (some (host.file (host.uid, host.gid) chainInfoMode (chainInfoBytes n))))
      else
        .error (.failed ("failed to write " ++ path ++ ": Permission denied (os error 13)")) img

/-- `ensure_device_owned`, of the `chain_info.json`. -/
def ensureChainInfoOwned (host : CheckHost) (path : String) : Prog CardImage Unit := fun img =>
  match img.keys .chainInfo with
  | none => .error (.failed ("chown of " ++ path ++ " failed: chown: cannot access '" ++ path ++
      "': No such file or directory")) img
  | some f => .ok () (img.withChainInfo (some (host.chown f)))

/-- `apply_action`. -/
def applyAction (host : CheckHost) (node : Option ChainInfo) (action : RepairAction) :
    Prog CardImage Unit :=
  let path name := host.mountPoint action.partition ++ "/" ++ name
  let notThere text name := text ++ path name ++ ": No such file or directory (os error 2)"
  let denied text name := text ++ path name ++ ": Permission denied (os error 13)"
  match action with
  | .chownWatermarks pkh => fun img =>
    match img.dir pkh with
    | none => .error (.failed ("chown of " ++ path ("watermarks/" ++ pkh) ++
        " failed: chown: cannot access '" ++ path ("watermarks/" ++ pkh) ++
        "': No such file or directory")) img
    | some _ => .ok () (img.chownTree host pkh)
  | .writeChainInfo =>
    match node with
    | none => throw (.failed "chain_info repair requires a node endpoint")
    | some n => do
      writeChainInfo host (path "chain_info.json") n
      ensureChainInfoOwned host (path "chain_info.json")
  | .chmodChainInfo => fun img =>
    match img.keys .chainInfo with
    | none => .error (.failed (notThere "failed to stat " "chain_info.json")) img
    | some f =>
      if host.owns f.owner then .ok () (img.withChainInfo (some (host.setChainInfoMode f)))
      else
        .error (.failed ("failed to set mode on " ++ path "chain_info.json" ++
          ": Operation not permitted (os error 1)")) img
  | .chownChainInfo => ensureChainInfoOwned host (path "chain_info.json")
  | .truncatePanicLog => fun img =>
    match img.panicLog with
    | none => .error (.failed (notThere "failed to truncate " "logs/panic.log")) img
    | some f =>
      if host.writes f then .ok () (img.withPanicLog (some { f with content := [] }))
      else .error (.failed (denied "failed to truncate " "logs/panic.log")) img
  | .deleteBootConfig => fun img =>
    match img.boot with
    | none => .error (.failed (notThere "failed to delete " "watermark-config.json")) img
    | some _ =>
      if host.writesBoot then .ok () (img.withBoot none)
      else .error (.failed (denied "failed to delete " "watermark-config.json")) img
  | .stageBootConfig _ =>
    throw (.failed "StageBootConfig must be applied at the device level, not on a mount")

/-- `stage_boot_config`, at a time: what was written is read back and looked at, and stays. -/
def stageBootConfig (host : CheckHost) (time : String) (chain : ChainInfo) : Prog CardImage Unit :=
  fun img =>
    let written := img.withBoot (some (WatermarkConfig.bytes ⟨time, chain⟩))
    if !host.writesBoot then
      .error (.failed ("failed to stage watermark-config.json on the boot partition: Failed to " ++
        "write " ++ host.mountPoint .boot ++ "/watermark-config.json: Permission denied (os " ++
        "error 13)")) img
    else if chain.name = "" ∨ chain.id = "" then
      .error (.failed ("failed to verify the staged watermark-config.json: Invalid chain info " ++
        "on the SD card (name '" ++ chain.name ++ "', id '" ++ chain.id ++ "'); the watermark " ++
        "config is corrupted. Reflash the card or run 'russignol check disk'.")) written
    else .ok () written

/-- What is taken of an action before the partitions are mounted. -/
def stageFirst (host : CheckHost) (time : String) : RepairAction → Prog CardImage Unit
  | .stageBootConfig chain => stageBootConfig host time chain
  | _ => pure ()

/-- `execute_repairs`. -/
def executeRepairs (host : CheckHost) (time : String) (node : Option ChainInfo)
    (actions : List RepairAction) : Prog CardImage Unit := do
  actions.forM (stageFirst host time)
  [Partition.keys, .data, .boot].forM fun part =>
    ((actions.filter (!·.isStage)).filter (·.partition = part)).forM (applyAction host node)

/-! ## What they change -/

/-- What an action makes of a card. -/
def RepairAction.effect (host : CheckHost) (time : String) (node : Option ChainInfo)
    (action : RepairAction) (img : CardImage) : CardImage :=
  match action with
  | .chownWatermarks pkh => img.chownTree host pkh
  | .writeChainInfo => img.withChainInfo ((node.map host.chainInfoFile).or (img.keys .chainInfo))
  | .chmodChainInfo => img.withChainInfo ((img.keys .chainInfo).map host.setChainInfoMode)
  | .chownChainInfo => img.withChainInfo ((img.keys .chainInfo).map host.chown)
  | .truncatePanicLog => img.withPanicLog (img.panicLog.map ({ · with content := [] }))
  | .deleteBootConfig => img.withBoot none
  | .stageBootConfig chain => img.withBoot (some (WatermarkConfig.bytes ⟨time, chain⟩))

/-- The order of the executor. -/
def executionOrder (actions : List RepairAction) : List RepairAction :=
  actions.filter (·.isStage) ++ [Partition.keys, .data, .boot].flatMap fun part =>
    (actions.filter (!·.isStage)).filter (·.partition = part)

/-- All of the actions, in the order of the executor. -/
def applyAll (host : CheckHost) (time : String) (node : Option ChainInfo)
    (actions : List RepairAction) (img : CardImage) : CardImage :=
  (executionOrder actions).foldl (fun img action => action.effect host time node img) img

/-- The owner and every record of a directory are the device's. -/
def OwnedByDevice (pkh : String) (img : CardImage) : Prop :=
  (∀ d, img.dir pkh = some d → d.owner = deviceOwner) ∧
    ∀ t f, img.records pkh t = some f → f.owner = deviceOwner

/-- What an action is for has come about. -/
def RepairAction.Done (host : CheckHost) (time : String) (node : Option ChainInfo)
    (action : RepairAction) (img : CardImage) : Prop :=
  match action with
  | .chownWatermarks pkh => OwnedByDevice pkh img
  | .writeChainInfo => ∀ n, node = some n → img.keys .chainInfo = some (host.chainInfoFile n)
  | .chmodChainInfo => ∀ f, img.keys .chainInfo = some f → f.permissions = chainInfoMode
  | .chownChainInfo => ∀ f, img.keys .chainInfo = some f → f.owner = deviceOwner
  | .truncatePanicLog => ∀ f, img.panicLog = some f → f.content = []
  | .deleteBootConfig => ∀ raw, img.boot = some raw →
      ∃ n, node = some n ∧ raw = WatermarkConfig.bytes ⟨time, n⟩
  | .stageBootConfig chain => img.boot = some (WatermarkConfig.bytes ⟨time, chain⟩)

/-! ## An action is taken once and for all -/

variable {host : CheckHost} {time : String} {node : Option ChainInfo} {img : CardImage}
  {a b : RepairAction} {actions : List RepairAction}

omit [JsonText] in
/-- The mode is the one the device gives the file. -/
theorem permissions_setChainInfoMode (f : CardFile) :
    (host.setChainInfoMode f).permissions = chainInfoMode := by
  show chainInfoMode &&& 0o777 = chainInfoMode
  decide

/-- An action does what it is for. -/
theorem RepairAction.done_effect (host : CheckHost) (time : String) (node : Option ChainInfo)
    (a : RepairAction) (img : CardImage) :
    a.Done host time node (a.effect host time node img) := by
  cases a with
  | chownWatermarks pkh =>
    refine ⟨fun d hd => ?_, fun t f hf => ?_⟩
    · rw [effect, CardImage.chownTree_dir, if_pos rfl] at hd
      obtain ⟨d', -, rfl⟩ := Option.map_eq_some_iff.1 hd
      rfl
    · rw [effect, CardImage.chownTree_records, if_pos rfl] at hf
      obtain ⟨f', -, rfl⟩ := Option.map_eq_some_iff.1 hf
      exact host.owner_chown f'
  | writeChainInfo =>
    rintro n rfl
    simp only [effect, Option.map_some, Option.some_or, CardImage.withChainInfo_chainInfo]
  | chmodChainInfo =>
    intro f hf
    rw [effect, CardImage.withChainInfo_chainInfo] at hf
    obtain ⟨f', -, rfl⟩ := Option.map_eq_some_iff.1 hf
    exact permissions_setChainInfoMode f'
  | chownChainInfo =>
    intro f hf
    rw [effect, CardImage.withChainInfo_chainInfo] at hf
    obtain ⟨f', -, rfl⟩ := Option.map_eq_some_iff.1 hf
    exact host.owner_chown f'
  | truncatePanicLog =>
    intro f hf
    rw [effect, CardImage.withPanicLog_panicLog] at hf
    obtain ⟨f', -, rfl⟩ := Option.map_eq_some_iff.1 hf
    rfl
  | deleteBootConfig => exact nofun
  | stageBootConfig chain => rfl

/-- Two actions of a plan for this node. -/
structure Compatible (node : Option ChainInfo) (a b : RepairAction) : Prop where
  left : ∀ chain, a = .stageBootConfig chain → node = some chain
  right : ∀ chain, b = .stageBootConfig chain → node = some chain
  staged : a.isStage = true → b ≠ .deleteBootConfig

/-- What the chain information is after an action, if there is any. -/
theorem RepairAction.effect_chainInfo {f : CardFile}
    (h : (b.effect host time node img).keys .chainInfo = some f) :
    (∃ n, node = some n ∧ f = host.chainInfoFile n) ∨
      ∃ f', img.keys .chainInfo = some f' ∧
        (f = f' ∨ f = host.chown f' ∨ f = host.setChainInfoMode f') := by
  cases b with
  | writeChainInfo =>
    rw [effect, CardImage.withChainInfo_chainInfo, Option.or_eq_some_iff] at h
    rcases h with h | ⟨-, h⟩
    · obtain ⟨n, hn, rfl⟩ := Option.map_eq_some_iff.1 h
      exact .inl ⟨n, hn, rfl⟩
    · exact .inr ⟨f, h, .inl rfl⟩
  | chmodChainInfo =>
    rw [effect, CardImage.withChainInfo_chainInfo] at h
    obtain ⟨f', hf', rfl⟩ := Option.map_eq_some_iff.1 h
    exact .inr ⟨f', hf', .inr (.inr rfl)⟩
  | chownChainInfo =>
    rw [effect, CardImage.withChainInfo_chainInfo] at h
    obtain ⟨f', hf', rfl⟩ := Option.map_eq_some_iff.1 h
    exact .inr ⟨f', hf', .inr (.inl rfl)⟩
  | _ => exact .inr ⟨f, h, .inl rfl⟩

/-- The directory of a key that the device owns stays so. -/
theorem OwnedByDevice.effect {pkh : String} (h : OwnedByDevice pkh img) :
    OwnedByDevice pkh (b.effect host time node img) := by
  cases b with
  | chownWatermarks pkh' =>
    by_cases hpkh : pkh = pkh'
    · rw [← hpkh]
      exact RepairAction.done_effect host time node (.chownWatermarks pkh) img
    · refine ⟨fun d hd => h.1 d ?_, fun t f hf => h.2 t f ?_⟩
      · rwa [RepairAction.effect, CardImage.chownTree_dir, if_neg hpkh] at hd
      · rwa [RepairAction.effect, CardImage.chownTree_records, if_neg hpkh] at hf
  | _ => exact h

/-- What has come about is left alone by the other actions of a plan. -/
theorem RepairAction.Done.effect (hcompatible : Compatible node a b)
    (h : a.Done host time node img) : a.Done host time node (b.effect host time node img) := by
  cases a with
  | chownWatermarks pkh => exact OwnedByDevice.effect h
  | writeChainInfo =>
    rintro n rfl
    have h := h n rfl
    cases b with
    | writeChainInfo => exact done_effect host time (some n) .writeChainInfo img n rfl
    | chmodChainInfo =>
      rw [RepairAction.effect, CardImage.withChainInfo_chainInfo, h]
      rfl
    | chownChainInfo =>
      rw [RepairAction.effect, CardImage.withChainInfo_chainInfo, h]
      rfl
    | _ => exact h
  | chmodChainInfo =>
    intro f hf
    obtain ⟨n, -, rfl⟩ | ⟨f', hf', rfl | rfl | rfl⟩ := effect_chainInfo hf
    · exact permissions_setChainInfoMode (host.chainInfoFile n)
    · exact h _ hf'
    · exact (host.permissions_chown f').trans (h f' hf')
    · exact permissions_setChainInfoMode f'
  | chownChainInfo =>
    intro f hf
    obtain ⟨n, -, rfl⟩ | ⟨f', hf', rfl | rfl | rfl⟩ := effect_chainInfo hf
    · rfl
    · exact h _ hf'
    · exact host.owner_chown f'
    · exact h f' hf'
  | truncatePanicLog =>
    cases b with
    | truncatePanicLog => exact done_effect host time node .truncatePanicLog img
    | _ => exact h
  | deleteBootConfig =>
    cases b with
    | deleteBootConfig => exact done_effect host time node .deleteBootConfig img
    | stageBootConfig chain =>
      rintro raw hraw
      exact ⟨chain, hcompatible.right chain rfl, (Option.some.inj hraw).symm⟩
    | _ => exact h
  | stageBootConfig chain =>
    cases b with
    | deleteBootConfig => exact absurd rfl (hcompatible.staged rfl)
    | stageBootConfig chain' =>
      have hchain : some chain = some chain' :=
        (hcompatible.left chain rfl).symm.trans (hcompatible.right chain' rfl)
      rw [Option.some.inj hchain]
      exact done_effect host time node (.stageBootConfig chain') img
    | _ => exact h

/-! ## A plan -/

omit [JsonText] in
/-- The executor takes the actions that it is given. -/
theorem mem_executionOrder : a ∈ executionOrder actions ↔ a ∈ actions := by
  rw [executionOrder, List.mem_append, List.mem_flatMap]
  constructor
  · rintro (h | ⟨part, -, h⟩)
    · exact (List.mem_filter.1 h).1
    · exact (List.mem_filter.1 (List.mem_filter.1 h).1).1
  · intro h
    cases hstage : a.isStage with
    | true => exact .inl (List.mem_filter.2 ⟨h, hstage⟩)
    | false =>
      refine .inr ⟨a.partition, by cases a.partition <;> decide, List.mem_filter.2 ⟨?_, ?_⟩⟩
      · exact List.mem_filter.2 ⟨h, by rw [hstage]; rfl⟩
      · exact decide_eq_true rfl

/-- What every action keeps is kept. -/
theorem foldl_keeps {P : CardImage → Prop} : ∀ {actions : List RepairAction} {img : CardImage},
    (∀ a ∈ actions, ∀ img, P img → P (a.effect host time node img)) → P img →
      P (actions.foldl (fun img action => action.effect host time node img) img)
  | [], _, _, h => h
  | a :: actions, img, hkeeps, h => by
    rw [List.foldl_cons]
    exact foldl_keeps (fun b hb => hkeeps b (List.mem_cons_of_mem a hb))
      (hkeeps a List.mem_cons_self img h)

/-- What one action brings about and every action keeps comes about. -/
theorem foldl_brings {P : CardImage → Prop} : ∀ {actions : List RepairAction} {img : CardImage},
    (∀ a ∈ actions, ∀ img, P img → P (a.effect host time node img)) → a ∈ actions →
      (∀ img, P (a.effect host time node img)) →
        P (actions.foldl (fun img action => action.effect host time node img) img)
  | b :: actions, img, hkeeps, ha, hdoes => by
    have hrest : ∀ c ∈ actions, ∀ img, P img → P (c.effect host time node img) :=
      fun c hc => hkeeps c (List.mem_cons_of_mem b hc)
    rw [List.foldl_cons]
    rcases List.mem_cons.1 ha with rfl | ha
    · exact foldl_keeps hrest (hdoes img)
    · exact foldl_brings hrest ha hdoes

/-- What one action of a plan brings about, and every action keeps, comes about. -/
theorem applyAll_brings {P : CardImage → Prop} (ha : a ∈ actions)
    (hdoes : ∀ img, P (a.effect host time node img))
    (hkeeps : ∀ a ∈ actions, ∀ img, P img → P (a.effect host time node img)) :
    P (applyAll host time node actions img) :=
  foldl_brings (fun a ha => hkeeps a (mem_executionOrder.1 ha)) (mem_executionOrder.2 ha) hdoes

/-- The actions of a plan of the disk check. -/
structure Plan (node : Option ChainInfo) (actions : List RepairAction) : Prop where
  staged : ∀ chain, .stageBootConfig chain ∈ actions → node = some chain
  written : .writeChainInfo ∈ actions → node.isSome = true
  apart : (∃ chain, .stageBootConfig chain ∈ actions) → .deleteBootConfig ∉ actions

omit [JsonText] in
/-- Two actions of a plan are compatible. -/
theorem Plan.compatible (h : Plan node actions) (ha : a ∈ actions) (hb : b ∈ actions) :
    Compatible node a b where
  left := by
    rintro chain rfl
    exact h.staged chain ha
  right := by
    rintro chain rfl
    exact h.staged chain hb
  staged hstage := by
    rintro rfl
    cases a with
    | stageBootConfig chain => exact h.apart ⟨chain, ha⟩ hb
    | _ => cases hstage

/-- **Every action of a plan** has done what it is for when all are taken. -/
theorem Plan.done (h : Plan node actions) (ha : a ∈ actions) :
    a.Done host time node (applyAll host time node actions img) :=
  applyAll_brings ha (a.done_effect host time node) fun _ hb _ hdone =>
    hdone.effect (h.compatible ha hb)

omit [JsonText] in
/-- What is planned is a plan. -/
theorem planRepairs_plan (state : CardState) (node : Option ChainInfo) :
    Plan node (planRepairs (classify state node)) where
  staged chain h := planRepairs_rests h
  written h := planRepairs_rests h
  apart := by
    rintro ⟨chain, hstage⟩ hdelete
    have hsuperseded := (mem_planRepairs.1 hdelete).2
    have hany : RepairAction.superseded (issueActions (classify state node)) .deleteBootConfig =
        true := List.any_eq_true.2 ⟨_, (mem_planRepairs.1 hstage).1, rfl⟩
    exact Bool.false_ne_true (hsuperseded.symm.trans hany)

end

end Russignol.Host
