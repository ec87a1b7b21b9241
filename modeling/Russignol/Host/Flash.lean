import Mathlib.Data.List.Basic
import Mathlib.Data.List.Pairwise
import Mathlib.Logic.Function.Basic
import Russignol.Host.MigrateKeys
import Russignol.Host.WatermarkConfig

/-!
# Flashing a card

The flash of `host-utility/src/image.rs` and `restore_keys.rs`, as far as it decides where the writes
after it go: `finish_normal_flash`, and `run_dual_reader_restore` with the partitions it creates. A
card has its partition table; the kernel has a view of it, which only a re-read brings up to date. A
partition's node exists, is formatted and is mounted by the view.

Every call may fail. What a mount finds is what begins at the start of the node: an image brings its
file systems with it, the rest of a card keeps those it had, and a format makes one. The bytes of
the image are not looked at here.
-/

namespace Russignol.Host

open TezosEncrypt Crypto

/-! ## Partition tables -/

/-- A range of sectors. -/
structure Extent where
  start : Nat
  size : Nat
  deriving DecidableEq, Repr

namespace Extent

/-- The first sector after it. -/
def stop (e : Extent) : Nat := e.start + e.size

/-- It lies in the other one. -/
def Within (e f : Extent) : Prop := f.start ≤ e.start ∧ e.stop ≤ f.stop

/-- They have no sector in common. -/
def Clear (e f : Extent) : Prop := e.stop ≤ f.start ∨ f.stop ≤ e.start

instance (e f : Extent) : Decidable (e.Within f) := inferInstanceAs (Decidable (_ ∧ _))

instance (e f : Extent) : Decidable (e.Clear f) := inferInstanceAs (Decidable (_ ∨ _))

/-- Being clear of each other is symmetric. -/
theorem Clear.symm {e f : Extent} (h : e.Clear f) : f.Clear e := Or.symm h

instance : Std.Symm Clear := ⟨fun _ _ h => h.symm⟩

/-- What lies in one of two is clear of the other. -/
theorem Within.clear {e f g : Extent} (h : e.Within f) (hclear : f.Clear g) : e.Clear g := by
  unfold Within Clear stop at *
  omega

/-- Two that begin at one sector are not clear of each other. -/
theorem Clear.start_ne {e f : Extent} (h : e.Clear f) (he : 0 < e.size) (hf : 0 < f.size) :
    e.start ≠ f.start := by
  unfold Clear stop at h
  omega

end Extent

/-- A partition table: its partitions have sectors, and none in common. -/
structure Table where
  parts : List Extent
  positive : ∀ e ∈ parts, 0 < e.size
  disjoint : parts.Pairwise Extent.Clear

namespace Table

/-- The partition with a number, from one on. -/
def node (t : Table) (n : Nat) : Option Extent := t.parts[n - 1]?

/-- `sfdisk --append`, which refuses what overlaps. -/
def append (t : Table) (added : List Extent) : Option Table :=
  if h : (∀ e ∈ t.parts ++ added, 0 < e.size) ∧ (t.parts ++ added).Pairwise Extent.Clear then
    some ⟨t.parts ++ added, h.1, h.2⟩
  else none

/-- The partition with a number is one of the table. -/
theorem mem_of_node {t : Table} {n : Nat} {e : Extent} (h : t.node n = some e) : e ∈ t.parts :=
  List.mem_of_getElem? h

/-- A partition has sectors. -/
theorem size_pos {t : Table} {n : Nat} {e : Extent} (h : t.node n = some e) : 0 < e.size :=
  t.positive e (mem_of_node h)

/-- Two partitions of a table are clear of each other. -/
theorem clear {t : Table} {m n : Nat} {e f : Extent} (he : t.node m = some e)
    (hf : t.node n = some f) (hne : m - 1 ≠ n - 1) : e.Clear f := by
  obtain ⟨hm, rfl⟩ := List.getElem?_eq_some_iff.1 he
  obtain ⟨hn, rfl⟩ := List.getElem?_eq_some_iff.1 hf
  have hpairs := List.pairwise_iff_getElem.1 t.disjoint
  rcases Nat.lt_or_gt_of_ne hne with hlt | hlt
  · exact hpairs _ _ hm hn hlt
  · exact (hpairs _ _ hn hm hlt).symm

/-- Two partitions of a table with a sector in common are one. -/
theorem eq_of_start {t : Table} {e f : Extent} (he : e ∈ t.parts) (hf : f ∈ t.parts)
    (hstart : f.start ≤ e.start) (hstop : e.start < f.stop) : e = f := by
  by_contra hne
  have hclear := t.disjoint.forall he hf hne
  have hpos := t.positive e he
  unfold Extent.Clear Extent.stop at *
  omega

/-- The partitions that were there keep their numbers. -/
theorem node_append {t t' : Table} {added : List Extent} (h : t.append added = some t') {n : Nat}
    (hn : n - 1 < t.parts.length) : t'.node n = t.node n := by
  unfold append at h
  split at h
  · cases h
    exact List.getElem?_append_left hn
  · cases h

end Table

/-! ## The layout -/

/-- `MIN_ALIGNMENT`, `KEYS_PARTITION_SIZE`, `DATA_PARTITION_SIZE` and `SECTOR_SIZE`. -/
def minAlignment : Nat := 16 * 1024 * 1024

def keysPartitionSize : Nat := 64 * 1024 * 1024

def dataPartitionSize : Nat := 256 * 1024 * 1024

def sectorSize : Nat := 512

/-- `align_up`. -/
def alignUp (value alignment : Nat) : Nat := (value + alignment - 1) / alignment * alignment

/-- `PartitionLayout`. -/
structure PartitionLayout where
  keys : Extent
  data : Extent
  deriving DecidableEq, Repr

/-- `calculate_partition_layout`. -/
def calculatePartitionLayout (p2EndBytes alignment diskSizeBytes : Nat) :
    Except String PartitionLayout :=
  let keysStartBytes := alignUp p2EndBytes alignment
  let keysSizeBytes := alignUp keysPartitionSize alignment
  let dataStartBytes := keysStartBytes + keysSizeBytes
  let dataSizeBytes := alignUp dataPartitionSize alignment
  let dataEndBytes := dataStartBytes + dataSizeBytes
  if diskSizeBytes < dataEndBytes then
    .error ("Insufficient disk space for key/data partitions: need " ++
      toString (dataEndBytes / (1024 * 1024)) ++ "MB, have " ++
      toString (diskSizeBytes / (1024 * 1024)) ++ "MB")
  else .ok {
    keys := ⟨keysStartBytes / sectorSize, keysSizeBytes / sectorSize⟩
    data := ⟨dataStartBytes / sectorSize, dataSizeBytes / sectorSize⟩ }

/-- `calculate_layout_from_json`, of a table. -/
def calculateRestorePartitionLayout (table : Table) (diskSizeSectors : Nat) :
    Except String PartitionLayout :=
  match table.node 2 with
  | none => .error ("Expected at least 2 partitions, found " ++ toString table.parts.length)
  | some p2 => calculatePartitionLayout (p2.stop * sectorSize) minAlignment
      (diskSizeSectors * sectorSize)

/-! ## The card and the kernel -/

/-- What is flashed: a table, within the image, and the file systems of its partitions, by the
sector at which each begins. -/
structure Image where
  table : Table
  sectors : Nat
  volumes : Nat → Option Nat
  inside : ∀ e ∈ table.parts, e.stop ≤ sectors
  partitioned : ∀ o v, volumes o = some v → ∃ e ∈ table.parts, e.start = o ∧ v ≤ e.size

/-- What is written after a flash. -/
inductive Written
  | bootFile
  | format (n : Nat)
  | keyFiles
  deriving DecidableEq, Repr

/-- A card that is flashed: its table, the kernel's view of it, the sizes of the file systems on it
by the sectors at which they begin, and the writes since the flash. -/
structure Target where
  table : Table
  view : Table
  volumes : Nat → Option Nat
  writes : List (Written × Extent)

/-- `HostPartitionView`. -/
inductive HostPartitionView
  | current
  | stale
  deriving DecidableEq, Repr

/-- `PartitionReread`. -/
inductive PartitionReread
  | attempt
  | deferToReplug
  deriving DecidableEq, Repr

/-- How the two tools of a re-read end. -/
structure Reread where
  partprobe : Bool
  blockdev : Bool
  deriving DecidableEq, Repr

/-- The calls of a flash that may fail. -/
inductive FlashCall
  | dd
  | readback
  | append
  | mkfsKeys
  | mkfsData
  | mountKeys
  | writeKeys
  | mountConfig
  | writeConfig
  | mountManifest
  | writeManifest
  | verifyKeys
  | verifyConfig
  deriving DecidableEq, Repr

/-- What a flash is answered: the effective user, the two re-reads, the size of the card, and the
calls. -/
structure FlashIo where
  root : Bool
  afterFlash : Reread
  afterAppend : Reread
  diskSizeSectors : Nat
  succeeds : FlashCall → Bool

/-- `partition_reread_plan`. -/
def partitionRereadPlan (isRoot : Bool) : PartitionReread :=
  if isRoot then .attempt else .deferToReplug

/-- The re-read is done. -/
def Reread.done (r : Reread) (root : Bool) : Bool := root && (r.partprobe || r.blockdev)

/-- `reread_partition_table`. -/
def rereadPartitionTable (root : Bool) (r : Reread) (s : Target) : Target × HostPartitionView :=
  match partitionRereadPlan root with
  | .deferToReplug => (s, .stale)
  | .attempt =>
    let refreshed := r.partprobe || r.blockdev
    if refreshed then ({ s with view := s.table }, .current) else (s, .stale)

/-- A call, or its error. -/
def FlashIo.check (io : FlashIo) (call : FlashCall) (text : String) : Except String Unit :=
  if io.succeeds call then .ok () else .error text

/-- `flash_image_to_device`. -/
def flashImageToDevice (io : FlashIo) (image : Image) (s : Target) : Except String Target := do
  io.check .dd "dd failed"
  return {
    table := image.table
    view := s.view
    volumes := fun o => if o < image.sectors then image.volumes o else s.volumes o
    writes := [] }

/-- `mount_partition`: what the node's file system can write to. -/
def mountPartition (io : FlashIo) (call : FlashCall) (text : String) (n : Nat) (s : Target) :
    Except String Extent := do
  io.check call text
  let e ← orError text (s.view.node n)
  let v ← orError text (s.volumes e.start)
  if 0 < min v e.size then return ⟨e.start, min v e.size⟩ else .error text

/-- A file on a mounted partition. -/
def writeMounted (io : FlashIo) (call : FlashCall) (text : String) (kind : Written) (e : Extent)
    (s : Target) : Except String Target := do
  io.check call text
  return { s with writes := s.writes ++ [(kind, e)] }

/-- `write_watermark_config`. -/
def writeConfigFile (io : FlashIo) (s : Target) : Except String Target := do
  let text := "Failed to write watermark config"
  let mounted ← mountPartition io .mountConfig text 1 s
  writeMounted io .writeConfig text .bootFile mounted s

/-- `write_flash_manifest`. -/
def writeFlashManifest (io : FlashIo) (s : Target) : Except String Target := do
  let text := "Failed to write flash manifest"
  let mounted ← mountPartition io .mountManifest text 1 s
  writeMounted io .writeManifest text .bootFile mounted s

/-- `finalize_flash`. -/
def finalizeFlash (io : FlashIo) (chainInfo : Option ChainInfo) (s : Target) :
    Except String Target :=
  match chainInfo with
  | none => .ok s
  | some _ => do
    let s ← writeConfigFile io s
    io.check .verifyConfig "Failed to read watermark config"
    return s

/-- `verify_flash_or_note_skip`. -/
def verifyFlashOrNoteSkip (io : FlashIo) (skipVerify : Bool) : Except String Unit :=
  if skipVerify then .ok () else io.check .readback "Flash verification failed"

/-- `finish_normal_flash`. -/
def finishNormalFlash (io : FlashIo) (image : Image) (skipVerify : Bool)
    (chainInfo : Option ChainInfo) (s : Target) : Except String (Target × HostPartitionView) := do
  let s ← flashImageToDevice io image s
  verifyFlashOrNoteSkip io skipVerify
  let (s, view) := rereadPartitionTable io.root io.afterFlash s
  let s ← writeFlashManifest io s
  let s ← finalizeFlash io chainInfo s
  return (s, view)

/-- `mkfs.f2fs` of a node. -/
def format (io : FlashIo) (call : FlashCall) (text : String) (n : Nat) (e : Extent) (s : Target) :
    Except String Target := do
  io.check call text
  return { s with
    volumes := Function.update s.volumes e.start (some e.size)
    writes := s.writes ++ [(.format n, e)] }

/-- `create_and_format_partitions`. -/
def createAndFormatPartitions (io : FlashIo) (s : Target) : Except String Target := do
  let layout ← calculateRestorePartitionLayout s.table io.diskSizeSectors
  io.check .append "sfdisk --append failed"
  let table ← orError "sfdisk --append failed" (s.table.append [layout.keys, layout.data])
  let (s, _) := rereadPartitionTable io.root io.afterAppend { s with table }
  let missing := "Partition devices did not appear within 15 seconds"
  let p3 ← orError missing (s.view.node 3)
  let p4 ← orError missing (s.view.node 4)
  let s ← format io .mkfsKeys "mkfs.f2fs failed for keys partition" 3 p3 s
  format io .mkfsData "mkfs.f2fs failed for data partition" 4 p4 s

/-- `write_backup_to_target`, by where it writes. -/
def writeBackup (io : FlashIo) (s : Target) : Except String Target := do
  let mounted ← mountPartition io .mountKeys "Failed to mount target keys partition" 3 s
  let s ← writeMounted io .writeKeys "Failed to write PIN blobs" .keyFiles mounted s
  writeConfigFile io s

/-- The flash of a keyed card, with the partitions, the keys, the manifest and the check. -/
def flashKeyed (io : FlashIo) (image : Image) (s : Target) : Except String Target := do
  let s ← flashImageToDevice io image s
  let (s, _) := rereadPartitionTable io.root io.afterFlash s
  let s ← createAndFormatPartitions io s
  let s ← writeBackup io s
  let s ← writeFlashManifest io s
  io.check .verifyKeys "failed to mount target keys partition for verification"
  io.check .verifyConfig "staged watermark-config.json failed verification"
  return s

/-! ## The confirmation -/

/-- `extract_named_keys`. -/
def extractNamedKeys [JsonText] (publicKeyHashs : List UInt8) :
    Except String (List (String × String)) := do
  let entries ← orError "Failed to parse public_key_hashs as a JSON array"
    (jsonItems publicKeyHashs)
  return entries.filterMap fun entry =>
    match strMember entry "name", strMember entry "value" with
    | some name, some value => if "tz4".toList <+: value.toList then some (name, value) else none
    | _, _ => none

/-- `confirm_restore_operation`, with the operator's answer, unless the prompt fails. -/
def confirmRestoreOperation (yes : Bool) (answer : Option Bool) : Except String Bool :=
  if yes then .ok true else orError "Failed to get confirmation" answer

/-- How a restore ends: before its flash, or with what the flash returns. -/
inductive RestoreEnd
  | failed (e : String)
  | cancelled
  | flashed (result : Except String Target)

/-- `run_dual_reader_restore`. -/
def runDualReaderRestore [JsonText] (yes : Bool) (answer : Option Bool) (io : FlashIo)
    (image : Image) (backup : SourceBackup) (target : Target) : RestoreEnd :=
  match extractNamedKeys backup.publicKeyHashs with
  | .error e => .failed e
  | .ok _ =>
    match confirmRestoreOperation yes answer with
    | .error e => .failed e
    | .ok false => .cancelled
    | .ok true => .flashed (flashKeyed io image target)

end Russignol.Host
