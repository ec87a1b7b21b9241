import Russignol.Base.Automaton
import Russignol.Base.TextCodec
import Russignol.Storage.PartitionLayout

/-!
# The partitions of the first boot

`setup_storage` of `rpi-signer/src/storage.rs` over the boots of a card. A thread of the setup runs
its commands one after another; several of them, the files that the signer stores and cuts of the
power may come in any order, and every command may fail, with its effect or without. The kernel has
its own view of the partitions, which a boot reads from the table and `BLKPG` adds to.

What a thread has left to run is a suffix of its commands. Only one thread gets past
`sfdisk --append`, since the partitions of a second one overlap those of the first; the invariant is
about what that thread has left (`SetupInv`, `Left`).

`sfdisk` is a program of its own (`Sfdisk`), and what sysfs tells of a card does not change.
-/

namespace Russignol.Storage

open Host (Extent Table)

/-! ## The plan -/

/-- What sysfs tells of the card. -/
structure Sysfs where
  discardGranularity : Option UInt64
  diskSize : Except String UInt64
  p2Start : Except String UInt64
  p2Size : Except String UInt64

/-- `is_trim_supported`. -/
def Sysfs.isTrimSupported (sysfs : Sysfs) : Bool :=
  sysfs.discardGranularity.any (0 < ·)

/-- `InsufficientSpace`, as it is shown. -/
def InsufficientSpace.text (e : InsufficientSpace) : String :=
  "Insufficient disk space for key/data partitions: need " ++ toString e.needMb ++ "MB, have " ++
    toString e.haveMb ++ "MB"

/-- `calculate_partition_layout` of `rpi-signer/src/storage.rs`, with the sectors of the disk. -/
def planPartitions (sysfs : Sysfs) : Except String (PartitionLayout × UInt64) := do
  let diskSizeSectors ← sysfs.diskSize
  let p2StartSectors ← sysfs.p2Start
  let p2SizeSectors ← sysfs.p2Size
  let layout ← (calculateLayout sysfs.discardGranularity p2StartSectors p2SizeSectors
    diskSizeSectors).mapError (·.text)
  return (layout, diskSizeSectors)

/-- `generate_sfdisk_script`. -/
def generateSfdiskScript (layout : PartitionLayout) : String :=
  "start=" ++ toString layout.keysStartSector ++ ", size=" ++ toString layout.keysSizeSectors ++
    ", type=83\nstart=" ++ toString layout.dataStartSector ++ ", size=" ++
    toString layout.dataSizeSectors ++ ", type=83\n"

/-! ## The commands -/

/-- A partition that the first boot creates. -/
inductive Part
  | keys
  | data
  deriving DecidableEq, Repr

/-- The number of its node. -/
def Part.number : Part → Nat
  | .keys => 3
  | .data => 4

/-- Where it is mounted: `KEYS_MOUNT` and `DATA_MOUNT`. -/
def Part.mountPoint : Part → String
  | .keys => "/keys"
  | .data => "/data"

/-- Its name in an error. -/
def Part.name : Part → String
  | .keys => "keys"
  | .data => "data"

/-- The partition in a layout. -/
def PartitionLayout.extent (l : PartitionLayout) : Part → Extent
  | .keys => l.extents.keys
  | .data => l.extents.data

/-- What the setup does, one call at a time. -/
inductive Command
  | progress (message : String) (percent : Nat)
  | abandon (error : String)
  | sfdiskAppend (script : String)
  | notifyKernelBlkpg (n : Nat) (startBytes sizeBytes : UInt64)
  | mdev
  | waitForPartitionDevices
  | blkdiscard (offsetBytes lengthBytes : UInt64)
  | mkfs (p : Part)
  | createDir (p : Part)
  | mount (p : Part)
  deriving DecidableEq, Repr

/-- `create_partitions`. -/
def createPartitions (l : PartitionLayout) : List Command :=
  [.sfdiskAppend (generateSfdiskScript l),
    .notifyKernelBlkpg 3 (l.keysStartSector * sectorSize) (l.keysSizeSectors * sectorSize),
    .notifyKernelBlkpg 4 (l.dataStartSector * sectorSize) (l.dataSizeSectors * sectorSize),
    .mdev]

/-- The two ranges that are discarded before the format. -/
def trimPartitions (l : PartitionLayout) : List Command :=
  [.progress "Optimizing keys area..." 40,
    .blkdiscard (l.keysStartSector * sectorSize) (l.keysSizeSectors * sectorSize),
    .progress "Optimizing data area..." 50,
    .blkdiscard (l.dataStartSector * sectorSize) (l.dataSizeSectors * sectorSize)]

/-- `trim_over_provisioning`. -/
def trimOverProvisioning (l : PartitionLayout) (diskSizeSectors : UInt64) : List Command :=
  let dataEndBytes := (l.dataStartSector + l.dataSizeSectors) * sectorSize
  let overprovSize := diskSizeSectors * sectorSize - dataEndBytes
  if 0 < overprovSize then [.blkdiscard dataEndBytes overprovSize] else []

/-- `mount_partitions`. -/
def mountPartitions : List Command :=
  [.createDir .keys, .createDir .data, .mount .keys, .mount .data]

/-- `setup_storage`. -/
def setupStorage (sysfs : Sysfs) : List Command :=
  let trimSupported := sysfs.isTrimSupported
  [.progress "Detecting storage..." 5, .progress "Planning partitions..." 10] ++
    match planPartitions sysfs with
    | .error e => [.abandon e]
    | .ok (layout, diskSizeSectors) =>
      .progress "Creating partitions..." 20 :: createPartitions layout ++
        [.progress "Waiting for devices..." 30, .waitForPartitionDevices] ++
        (if trimSupported then trimPartitions layout else []) ++
        [.progress "Formatting keys..." 60, .mkfs .keys,
          .progress "Formatting data..." 75, .mkfs .data] ++
        (if trimSupported then
          .progress "Optimizing free space..." 85 :: trimOverProvisioning layout diskSizeSectors
        else []) ++
        .progress "Mounting storage..." 95 :: mountPartitions ++
        [.progress "Storage ready!" 100]

/-- How a command can end in an error, with what the system says of it. -/
def Command.errors (said : String) : Command → List String
  | .progress .. => [said]
  | .abandon e => [e]
  | .sfdiskAppend _ => ["Failed to spawn sfdisk: " ++ said, "Failed to write to sfdisk: " ++ said,
      "sfdisk failed: " ++ said, "sfdisk error: " ++ said]
  | .notifyKernelBlkpg n .. => ["Failed to open /dev/mmcblk0: " ++ said,
      "BLKPG ioctl failed for partition " ++ toString n ++ ": " ++ said]
  | .mdev => ["Failed to run mdev: " ++ said]
  | .waitForPartitionDevices => ["Partition devices not found after 15 seconds"]
  | .blkdiscard .. => ["Failed to run blkdiscard: " ++ said]
  | .mkfs _ => ["Failed to run mkfs.f2fs: " ++ said, "mkfs.f2fs failed: " ++ said]
  | .createDir p => ["Failed to create " ++ p.mountPoint ++ ": " ++ said]
  | .mount p => ["Failed to mount " ++ p.name ++ " partition: " ++ said]

/-! ## The card -/

/-- `sfdisk`, as far as it reads a script: the partitions that are asked for. -/
class Sfdisk where
  entries : String → Option (List Extent)

/-- It reads the lines `start=…, size=…, type=…`. -/
class LawfulSfdisk [Sfdisk] : Prop where
  entries_script : ∀ l : PartitionLayout,
    Sfdisk.entries (generateSfdiskScript l) = some [l.extent .keys, l.extent .data]

/-- What sectors of the card are touched by. -/
inductive Touch
  | discard
  | format (p : Part)
  | files (p : Part)
  deriving DecidableEq, Repr

/-- A card in the device: its table, the kernel's view of it, the threads of the setup with what
they have left to run, the mounted partitions, how the threads ended, and what was touched. -/
structure Card where
  table : Table
  kernel : List (Nat × Extent)
  threads : List (List Command)
  mounted : List Part
  results : List (Except String Unit)
  touched : List (Touch × Extent)

namespace Card

/-- The sectors of a range of bytes. -/
def sectorsOf (offsetBytes lengthBytes : UInt64) : Extent :=
  ⟨offsetBytes.toNat / 512, lengthBytes.toNat / 512⟩

/-- The view that a boot has of a table. -/
def kernelView (table : Table) : List (Nat × Extent) :=
  (table.parts.zipIdx 1).map Prod.swap

/-- `BLKPG_ADD_PARTITION`, which refuses a number that is taken and what overlaps. -/
def addPartition (kernel : List (Nat × Extent)) (n : Nat) (e : Extent) :
    Option (List (Nat × Extent)) :=
  if kernel.lookup n = none ∧ ∀ q ∈ kernel, e.Clear q.2 then some (kernel ++ [(n, e)]) else none

/-- `needs_storage_setup`. -/
def needsStorageSetup (c : Card) : Bool := (c.kernel.lookup 3).isNone

/-- Sectors are touched. -/
def touch (c : Card) (kind : Touch) (e : Extent) : Card :=
  { c with touched := c.touched ++ [(kind, e)] }

section
variable [Sfdisk]

/-- The effect of a command; `none` where it cannot succeed. -/
def effect (c : Card) : Command → Option Card
  | .abandon _ => none
  | .progress .. | .mdev | .createDir _ => some c
  | .sfdiskAppend script => do
    let entries ← Sfdisk.entries script
    let table ← c.table.append entries
    return { c with table }
  | .notifyKernelBlkpg n start size => do
    let kernel ← addPartition c.kernel n (sectorsOf start size)
    return { c with kernel }
  | .waitForPartitionDevices =>
    if (c.kernel.lookup 3).isSome ∧ (c.kernel.lookup 4).isSome then some c else none
  | .blkdiscard offset length => some (c.touch .discard (sectorsOf offset length))
  | .mkfs p => (c.kernel.lookup p.number).map (c.touch (.format p))
  | .mount p => (c.kernel.lookup p.number).map fun _ => { c with mounted := p :: c.mounted }

/-- How a command ends: it succeeds, or in one of its errors, with its effect or without. -/
inductive Outcome
  | done
  | failed (which : Nat) (said : String) (landed : Bool)
  deriving DecidableEq, Repr

/-- A command, with what it returns. -/
def exec (c : Card) (command : Command) : Outcome → Option (Card × Except String Unit)
  | .done => (c.effect command).map (·, .ok ())
  | .failed which said landed => do
    let e ← (command.errors said)[which]?
    return (if landed then (c.effect command).getD c else c, .error e)

/-- A thread goes on with the rest, or ends. -/
def resume (c : Card) (i : Nat) (rest : List Command) : Except String Unit → Card
  | .ok () =>
    { c with
      threads := c.threads.set i rest
      results := if rest = [] then c.results ++ [.ok ()] else c.results }
  | .error e => { c with threads := c.threads.set i [], results := c.results ++ [.error e] }

/-- What happens to a card: it is booted after the power was cut, with partitions that the init
script mounts; the operator starts the setup; a thread runs its next command; the signer stores
files. -/
inductive Action
  | boot (mounts : List Part)
  | startSetup
  | thread (i : Nat) (outcome : Outcome)
  | store (p : Part)
  deriving DecidableEq, Repr

/-- One step of a card. -/
def step (sysfs : Sysfs) (c : Card) : Action → Option Card
  | .boot mounts =>
    let kernel := kernelView c.table
    if ∀ p ∈ mounts, (kernel.lookup p.number).isSome then
      some { c with kernel, threads := [], mounted := mounts }
    else none
  | .startSetup =>
    if c.needsStorageSetup then some { c with threads := c.threads ++ [setupStorage sysfs] }
    else none
  | .thread i outcome =>
    match c.threads[i]? with
    | some (command :: rest) =>
      (c.exec command outcome).map fun (c, result) => c.resume i rest result
    | _ => none
  | .store p =>
    if p ∈ c.mounted then (c.kernel.lookup p.number).map (c.touch (.files p)) else none

end

/-- A card that is flashed, at its first boot. -/
def flashed (table : Table) : Card where
  table
  kernel := kernelView table
  threads := []
  mounted := []
  results := []
  touched := []

end Card


/-! ## The layout that is planned -/

/-- A card with its two partitions as sysfs tells of them, whose numbers stay below `2 ^ 64`. -/
structure Fits (sysfs : Sysfs) (table : Table) : Prop where
  two : table.parts.length = 2
  told : ∀ {start size}, sysfs.p2Start = .ok start → sysfs.p2Size = .ok size →
    table.node 2 = some ⟨start.toNat, size.toNat⟩
  last : ∀ {p2}, table.node 2 = some p2 → ∀ e ∈ table.parts, e.stop ≤ p2.stop
  disk : ∀ {disk}, sysfs.diskSize = .ok disk → 512 * disk.toNat < 2 ^ 64
  dataEnd : ∀ {start size}, sysfs.p2Start = .ok start → sysfs.p2Size = .ok size →
    exactEnd (512 * (start.toNat + size.toNat))
      (calculateAlignment sysfs.discardGranularity).toNat < 2 ^ 64

/-- The sectors after the data partition. -/
def freeExtent (l : PartitionLayout) (disk : UInt64) : Extent :=
  ⟨(l.extent .data).stop, disk.toNat - (l.extent .data).stop⟩

/-- A plan for a card: the partitions lie one after another past those of its table and on the
disk. -/
structure Planned (table : Table) (l : PartitionLayout) (disk : UInt64) : Prop where
  after : ∀ e ∈ table.parts, e.stop ≤ (l.extent .keys).start
  apart : (l.extent .keys).stop ≤ (l.extent .data).start
  inside : (l.extent .data).stop ≤ disk.toNat
  positive : ∀ p, 0 < (l.extent p).size
  disk : 512 * disk.toNat < 2 ^ 64

/-- What a plan is made of. -/
theorem planPartitions_eq_ok {sysfs : Sysfs} {l : PartitionLayout} {disk : UInt64}
    (h : planPartitions sysfs = .ok (l, disk)) :
    sysfs.diskSize = .ok disk ∧ ∃ start size, sysfs.p2Start = .ok start ∧
      sysfs.p2Size = .ok size ∧
      calculateLayout sysfs.discardGranularity start size disk = .ok l := by
  obtain ⟨diskSize, hdisk, h⟩ := Host.bind_eq_ok h
  obtain ⟨start, hstart, h⟩ := Host.bind_eq_ok h
  obtain ⟨size, hsize, h⟩ := Host.bind_eq_ok h
  obtain ⟨layout, hlayout, h⟩ := Host.bind_eq_ok h
  cases h
  refine ⟨hdisk, start, size, hstart, hsize, ?_⟩
  cases hl : calculateLayout sysfs.discardGranularity start size disk with
  | error e => rw [hl] at hlayout; cases hlayout
  | ok layout' => rw [hl] at hlayout; cases hlayout; rfl

/-- What is planned for a card that fits is such a plan. -/
theorem Fits.planned {sysfs : Sysfs} {table : Table} (hfits : Fits sysfs table)
    {l : PartitionLayout} {disk : UInt64} (h : planPartitions sysfs = .ok (l, disk)) :
    Planned table l disk := by
  obtain ⟨hdisk, start, size, hstart, hsize, hl⟩ := planPartitions_eq_ok h
  have hbound := hfits.disk hdisk
  have hend := hfits.dataEnd hstart hsize
  obtain ⟨hextents, hle⟩ := calculateLayout_exact hl hbound hend
  have hlast := hfits.last (hfits.told hstart hsize)
  have hmin := minAlignment_le sysfs.discardGranularity
  have hpos : 0 < (calculateAlignment sysfs.discardGranularity).toNat := by omega
  have hp2 := le_alignUp (512 * (start.toNat + size.toNat)) hpos
  have hkeys := le_alignUp Host.keysPartitionSize hpos
  have hdata := le_alignUp Host.dataPartitionSize hpos
  have hkeys512 : Host.keysPartitionSize = 512 * 131072 := rfl
  have hdata512 : Host.dataPartitionSize = 512 * 524288 := rfl
  have hkeysExtent : l.extent .keys = (exactLayout _ _).keys := congrArg (·.keys) hextents
  have hdataExtent : l.extent .data = (exactLayout _ _).data := congrArg (·.data) hextents
  unfold exactEnd at hle
  refine ⟨fun e he => ?_, ?_, ?_, ?_, hbound⟩
  · have hstop : e.stop ≤ start.toNat + size.toNat := hlast e he
    rw [hkeysExtent, exactLayout]
    dsimp only
    omega
  · rw [hkeysExtent, hdataExtent, exactLayout, Extent.stop]
    dsimp only
    omega
  · rw [hdataExtent, exactLayout, Extent.stop]
    dsimp only
    omega
  · intro p
    cases p with
    | keys => rw [hkeysExtent, exactLayout]; dsimp only; omega
    | data => rw [hdataExtent, exactLayout]; dsimp only; omega

section
variable {table : Table} {l : PartitionLayout} {disk : UInt64}

/-- Sectors as a range of bytes, where the bytes stay below `2 ^ 64`. -/
theorem Card.sectorsOf_mul {start size : UInt64} (hstart : 512 * start.toNat < 2 ^ 64)
    (hsize : 512 * size.toNat < 2 ^ 64) :
    Card.sectorsOf (start * sectorSize) (size * sectorSize) = ⟨start.toNat, size.toNat⟩ := by
  have hsector : sectorSize.toNat = 512 := rfl
  rw [Card.sectorsOf, UInt64.toNat_mul, UInt64.toNat_mul, hsector, Nat.mul_comm,
    Nat.mul_comm size.toNat, Nat.mod_eq_of_lt hstart, Nat.mod_eq_of_lt hsize,
    Nat.mul_div_cancel_left _ (by omega), Nat.mul_div_cancel_left _ (by omega)]

namespace Planned

variable (h : Planned table l disk)
include h

/-- The bytes of a partition. -/
theorem sectorsOf_keys : Card.sectorsOf (l.keysStartSector * sectorSize)
    (l.keysSizeSectors * sectorSize) = l.extent .keys := by
  have hinside := h.inside
  have hapart := h.apart
  have hdisk := h.disk
  simp only [PartitionLayout.extent, PartitionLayout.extents, Extent.stop] at hinside hapart
  exact Card.sectorsOf_mul (by omega) (by omega)

/-- The bytes of partition 4 are its sectors. -/
theorem sectorsOf_data : Card.sectorsOf (l.dataStartSector * sectorSize)
    (l.dataSizeSectors * sectorSize) = l.extent .data := by
  have hinside := h.inside
  have hdisk := h.disk
  simp only [PartitionLayout.extent, PartitionLayout.extents, Extent.stop] at hinside
  exact Card.sectorsOf_mul (by omega) (by omega)

/-- The rest of the disk is discarded, where there is one. -/
theorem mem_trimOverProvisioning {command : Command}
    (hcommand : command ∈ trimOverProvisioning l disk) :
    ∃ offset length, command = .blkdiscard offset length ∧
      Card.sectorsOf offset length = freeExtent l disk := by
  have hinside := h.inside
  have hdisk := h.disk
  simp only [PartitionLayout.extent, PartitionLayout.extents, Extent.stop] at hinside
  have hsector : sectorSize.toNat = 512 := rfl
  have hend : ((l.dataStartSector + l.dataSizeSectors) * sectorSize).toNat =
      512 * (l.dataStartSector.toNat + l.dataSizeSectors.toNat) := by
    rw [toNat_p2End, Nat.mod_eq_of_lt (by omega)]
  have hbytes : (disk * sectorSize).toNat = 512 * disk.toNat := by
    rw [toNat_diskSize, Nat.mod_eq_of_lt hdisk]
  have hle : (l.dataStartSector + l.dataSizeSectors) * sectorSize ≤ disk * sectorSize := by
    rw [UInt64.le_iff_toNat_le, hend, hbytes]
    omega
  unfold trimOverProvisioning at hcommand
  dsimp only at hcommand
  split at hcommand
  · refine ⟨_, _, List.mem_singleton.1 hcommand, ?_⟩
    rw [Card.sectorsOf, UInt64.toNat_sub_of_le _ _ hle, hend, hbytes, freeExtent]
    simp only [PartitionLayout.extent, PartitionLayout.extents, Extent.stop]
    congr 1 <;> omega
  · cases hcommand

/-- A partition is past those of the table. -/
theorem clear (p : Part) : ∀ e ∈ table.parts, (l.extent p).Clear e := by
  intro e he
  have hafter := h.after e he
  have hapart := h.apart
  refine .inr ?_
  cases p with
  | keys => exact hafter
  | data => unfold Extent.stop at *; omega

end Planned
end

/-! ## What a thread has left -/

/-- What follows `sfdisk --append`. -/
def afterAppend (trimSupported : Bool) (l : PartitionLayout) (disk : UInt64) : List Command :=
  (createPartitions l).tail ++
    [.progress "Waiting for devices..." 30, .waitForPartitionDevices] ++
    (if trimSupported then trimPartitions l else []) ++
    [.progress "Formatting keys..." 60, .mkfs .keys,
      .progress "Formatting data..." 75, .mkfs .data] ++
    (if trimSupported then
      .progress "Optimizing free space..." 85 :: trimOverProvisioning l disk
    else []) ++
    .progress "Mounting storage..." 95 :: mountPartitions ++
    [.progress "Storage ready!" 100]

/-- A thread that did not come to `sfdisk --append`, or cannot. -/
inductive Early (sysfs : Sysfs) : List Command → Prop
  | abandon {e : String} : planPartitions sysfs = .error e → Early sysfs [.abandon e]
  | append {l : PartitionLayout} {disk : UInt64} : planPartitions sysfs = .ok (l, disk) →
      Early sysfs (.sfdiskAppend (generateSfdiskScript l) ::
        afterAppend sysfs.isTrimSupported l disk)
  | progress {message : String} {percent : Nat} {rest : List Command} : Early sysfs rest →
      Early sysfs (.progress message percent :: rest)

/-- A thread is early when it starts. -/
theorem early_setupStorage (sysfs : Sysfs) : Early sysfs (setupStorage sysfs) := by
  unfold setupStorage
  cases hplan : planPartitions sysfs with
  | error e => exact .progress (.progress (.abandon hplan))
  | ok plan => exact .progress (.progress (.progress (.append hplan)))

/-- What a command touches, by the plan. -/
def PartitionLayout.target (l : PartitionLayout) : Command → Option (Touch × Extent)
  | .blkdiscard offset length => some (.discard, Card.sectorsOf offset length)
  | .mkfs p => some (.format p, l.extent p)
  | _ => none

/-- A command past `sfdisk --append`. -/
def Ahead (l : PartitionLayout) (disk : UInt64) : Command → Prop
  | .abandon _ | .sfdiskAppend _ => False
  | .notifyKernelBlkpg n start size => ∃ p : Part, n = p.number ∧
      Card.sectorsOf start size = l.extent p
  | .blkdiscard offset length => (∃ p, Card.sectorsOf offset length = l.extent p) ∨
      Card.sectorsOf offset length = freeExtent l disk
  | _ => True

/-- What is touched later spares what was touched before: it stores files, or the earlier touch was
a discard, or they have no sector in common. -/
def Spares (a b : Touch × Extent) : Prop :=
  (∃ p, b.1 = .files p) ∨ a.1 = .discard ∨ a.2.Clear b.2

/-- A command that is no format and no mount. -/
def Command.leads : Command → Bool
  | .mkfs _ | .mount _ => false
  | _ => true

/-- A command that touches the card. -/
def Command.touches : Command → Bool
  | .blkdiscard .. | .mkfs _ => true
  | _ => false

/-- A later command spares what an earlier one touched, and touches nothing after a mount. -/
structure Follows (l : PartitionLayout) (a b : Command) : Prop where
  spares : ∀ w w', l.target a = some w → l.target b = some w' → Spares w w'
  mount : ∀ p, a = .mount p → l.target b = none

/-- What a thread has left, past `sfdisk --append`. -/
structure Left (l : PartitionLayout) (disk : UInt64) (c : Card) (t : List Command) : Prop where
  ahead : ∀ command ∈ t, Ahead l disk command
  order : t.Pairwise (Follows l)
  spares : ∀ command ∈ t, ∀ w, l.target command = some w → ∀ w' ∈ c.touched, Spares w' w
  mounted : c.mounted ≠ [] → ∀ command ∈ t, l.target command = none
  formats : ∀ p, .mkfs p ∈ t ∨ (.format p, l.extent p) ∈ c.touched

section
variable {table : Table} {l : PartitionLayout} {disk : UInt64} {a b : Command}

/-- A command that is no format and no mount may be followed by any other. -/
theorem Follows.of_leads (h : a.leads = true) : Follows l a b := by
  refine ⟨fun w w' hw _ => .inr (.inl ?_), fun p hp => ?_⟩
  · cases a with
    | blkdiscard offset length => cases hw; rfl
    | mkfs p => cases h
    | _ => cases hw
  · rw [hp] at h
    cases h

/-- A command that touches nothing may follow any other. -/
theorem Follows.of_quiet (h : b.touches = false) : Follows l a b := by
  have hnone : l.target b = none := by
    cases b with
    | blkdiscard offset length => cases h
    | mkfs p => cases h
    | _ => rfl
  exact ⟨fun _ _ _ hw => absurd (hnone.symm.trans hw) (by rintro ⟨⟩), fun _ _ => hnone⟩

/-- Commands that neither format nor mount may come first. -/
theorem pairwise_leads {as bs : List Command} (has : ∀ a ∈ as, a.leads = true)
    (hbs : bs.Pairwise (Follows l)) : (as ++ bs).Pairwise (Follows l) := by
  induction as with
  | nil => exact hbs
  | cons a as ih =>
    exact .cons (fun b _ => .of_leads (has a List.mem_cons_self))
      (ih fun a ha => has a (List.mem_cons_of_mem _ ha))

/-- Commands that do not touch the card may come last. -/
theorem pairwise_quiet {as bs : List Command} (has : as.Pairwise (Follows l))
    (hbs : ∀ b ∈ bs, b.touches = false) : (as ++ bs).Pairwise (Follows l) :=
  List.pairwise_append.2 ⟨has,
    List.pairwise_of_forall_mem_list fun _ _ _ hb => .of_quiet (hbs _ hb),
    fun _ _ _ hb => .of_quiet (hbs _ hb)⟩

/-- Sectors that are clear of a partition may be touched after its format. -/
theorem Follows.of_clear {p : Part} {w : Touch × Extent} (hw : l.target b = some w)
    (hclear : (l.extent p).Clear w.2) : Follows l (.mkfs p) b := by
  refine ⟨fun v v' hv hv' => ?_, fun q hq => by cases hq⟩
  cases hv
  cases hw.symm.trans hv'
  exact .inr (.inr hclear)

namespace Planned

variable (h : Planned table l disk)
include h

/-- The partitions have no sector in common. -/
theorem clear_parts : (l.extent .keys).Clear (l.extent .data) := .inl h.apart

/-- The rest of the disk is clear of the partitions. -/
theorem clear_free (p : Part) : (l.extent p).Clear (freeExtent l disk) := by
  have hapart := h.apart
  cases p with
  | keys =>
    refine .inl ?_
    unfold freeExtent Extent.stop at *
    dsimp only
    omega
  | data => exact .inl (Nat.le_refl _)

/-- Trimming the partitions touches what is planned. -/
theorem ahead_trimPartitions : ∀ command ∈ trimPartitions l, Ahead l disk command := by
  simp only [trimPartitions, List.forall_mem_cons]
  exact ⟨trivial, .inl ⟨.keys, h.sectorsOf_keys⟩, trivial, .inl ⟨.data, h.sectorsOf_data⟩,
    List.forall_mem_nil _⟩

/-- Trimming the rest touches what no partition has. -/
theorem ahead_trimOverProvisioning :
    ∀ command ∈ trimOverProvisioning l disk, Ahead l disk command := by
  intro command hcommand
  obtain ⟨offset, length, rfl, hsectors⟩ := h.mem_trimOverProvisioning hcommand
  exact .inr hsectors

/-- The commands past `sfdisk --append` keep to the plan. -/
theorem ahead (trim : Bool) : ∀ command ∈ afterAppend trim l disk, Ahead l disk command := by
  have hfree := h.ahead_trimOverProvisioning
  have htrim := h.ahead_trimPartitions
  have hkeys : Ahead l disk (.notifyKernelBlkpg 3 _ _) := ⟨.keys, rfl, h.sectorsOf_keys⟩
  have hdata : Ahead l disk (.notifyKernelBlkpg 4 _ _) := ⟨.data, rfl, h.sectorsOf_data⟩
  simp only [afterAppend, createPartitions, mountPartitions, List.tail_cons,
    List.forall_mem_append, List.forall_mem_cons]
  refine ⟨⟨⟨⟨⟨⟨⟨hkeys, hdata, trivial, List.forall_mem_nil _⟩, trivial, trivial,
    List.forall_mem_nil _⟩, ?_⟩, trivial, trivial, trivial, trivial, List.forall_mem_nil _⟩, ?_⟩,
    trivial, trivial, trivial, trivial, trivial, List.forall_mem_nil _⟩, trivial,
    List.forall_mem_nil _⟩
  · cases trim with
    | false => exact List.forall_mem_nil _
    | true => exact htrim
  · cases trim with
    | false => exact List.forall_mem_nil _
    | true => exact List.forall_mem_cons.2 ⟨trivial, hfree⟩

/-- The commands past `sfdisk --append` spare what those before them touched. -/
theorem order (trim : Bool) : (afterAppend trim l disk).Pairwise (Follows l) := by
  have hfree : ∀ p, ∀ command ∈ trimOverProvisioning l disk, Follows l (.mkfs p) command := by
    intro p command hcommand
    obtain ⟨offset, length, rfl, hsectors⟩ := h.mem_trimOverProvisioning hcommand
    exact .of_clear rfl (hsectors ▸ h.clear_free p)
  have hparts : Follows l (.mkfs .keys) (.mkfs .data) := .of_clear rfl h.clear_parts
  have hfrees : (trimOverProvisioning l disk).Pairwise (Follows l) := by
    unfold trimOverProvisioning
    dsimp only
    split
    · exact List.pairwise_singleton _ _
    · exact .nil
  -- The last discard may only follow the formats; after it nothing is touched.
  have hrest : (if trim then
      Command.progress "Optimizing free space..." 85 :: trimOverProvisioning l disk
      else []).Pairwise (Follows l) ∧ ∀ p, ∀ b ∈ (if trim then
      Command.progress "Optimizing free space..." 85 :: trimOverProvisioning l disk else []),
      Follows l (.mkfs p) b := by
    cases trim with
    | false => exact ⟨.nil, fun _ => List.forall_mem_nil _⟩
    | true =>
      exact ⟨.cons (fun _ _ => .of_leads rfl) hfrees,
        fun p => List.forall_mem_cons.2 ⟨.of_quiet rfl, hfree p⟩⟩
  unfold afterAppend
  refine pairwise_quiet (pairwise_quiet ?_ ?_) ?_
  · rw [List.append_assoc]
    refine pairwise_leads ?_ (.cons (fun _ _ => .of_leads rfl) (.cons ?_ (.cons
      (fun _ _ => .of_leads rfl) (.cons (hrest.2 .data) hrest.1))))
    · simp only [createPartitions, List.tail_cons, List.forall_mem_append, List.forall_mem_cons]
      refine ⟨⟨⟨rfl, rfl, rfl, List.forall_mem_nil _⟩, rfl, rfl, List.forall_mem_nil _⟩, ?_⟩
      cases trim with
      | false => exact List.forall_mem_nil _
      | true =>
        simp only [if_true, trimPartitions, List.forall_mem_cons]
        exact ⟨rfl, rfl, rfl, rfl, List.forall_mem_nil _⟩
    · exact List.forall_mem_cons.2 ⟨.of_quiet rfl, List.forall_mem_cons.2 ⟨hparts, hrest.2 .keys⟩⟩
  · simp only [mountPartitions, List.forall_mem_cons]
    exact ⟨rfl, rfl, rfl, rfl, rfl, List.forall_mem_nil _⟩
  · exact List.forall_mem_singleton.2 rfl

end Planned
end

/-! ## The invariant -/

/-- What is touched, by the plan. -/
def Touched (l : PartitionLayout) (disk : UInt64) (w : Touch × Extent) : Prop :=
  (w.1 = .discard ∧ ((∃ p, w.2 = l.extent p) ∨ w.2 = freeExtent l disk)) ∨
    ∃ p, (w.1 = .format p ∨ w.1 = .files p) ∧ w.2 = l.extent p

/-- Before the partitions are in the table: nothing is touched, and every thread is early. -/
structure Unpartitioned (sysfs : Sysfs) (table : Table) (c : Card) : Prop where
  parts : c.table.parts = table.parts
  kernel : ∀ p : Part, c.kernel.lookup p.number = none
  mounted : c.mounted = []
  touched : c.touched = []
  results : .ok () ∉ c.results
  threads : ∀ t ∈ c.threads, t = [] ∨ Early sysfs t

/-- The card, once the partitions are in the table. -/
structure OnPlan (table : Table) (l : PartitionLayout) (disk : UInt64) (c : Card) : Prop where
  parts : c.table.parts = table.parts ++ [l.extent .keys, l.extent .data]
  kernel : ∀ {p : Part} {e}, c.kernel.lookup p.number = some e → e = l.extent p
  touched : ∀ w ∈ c.touched, Touched l disk w
  kept : c.touched.Pairwise Spares

/-- Once the partitions are in the table: one thread at most is past `sfdisk --append`. -/
structure Partitioned (sysfs : Sysfs) (table : Table) (l : PartitionLayout) (disk : UInt64)
    (c : Card) : Prop extends OnPlan table l disk c where
  plan : planPartitions sysfs = .ok (l, disk)
  results : .ok () ∈ c.results → ∀ p, (.format p, l.extent p) ∈ c.touched
  threads : ∃ k : Nat, ∀ i t, c.threads[i]? = some t → t = [] ∨ Early sysfs t ∨
    (i = k ∧ Left l disk c t)

/-- The invariant of a card. -/
def SetupInv (sysfs : Sysfs) (table : Table) (c : Card) : Prop :=
  Unpartitioned sysfs table c ∨ ∃ l disk, Partitioned sysfs table l disk c

section
variable {sysfs : Sysfs} {table : Table} {l : PartitionLayout} {disk : UInt64} {c c' : Card}

/-! ### One command -/

/-- A partition that is added to the view is found by its number. -/
theorem lookup_addPartition {kernel kernel' : List (Nat × Extent)} {n : Nat} {e : Extent}
    (h : Card.addPartition kernel n e = some kernel') {m : Nat} {f : Extent}
    (hf : kernel'.lookup m = some f) : kernel.lookup m = some f ∨ m = n ∧ f = e := by
  unfold Card.addPartition at h
  split at h
  · cases h
    rw [List.lookup_append, Option.or_eq_some_iff] at hf
    rcases hf with hf | ⟨-, hf⟩
    · exact .inl hf
    · rw [List.lookup_cons] at hf
      split at hf
      · next heq => exact .inr ⟨eq_of_beq heq, (Option.some.inj hf).symm⟩
      · cases hf
  · cases h

/-- The partitions have different numbers. -/
theorem number_injective : Function.Injective Part.number := by
  intro p q h
  cases p <;> cases q <;> first | rfl | cases h

/-- What a command does, past `sfdisk --append`: it may add to the view, mount a partition, and
touch what is planned. -/
structure Did (l : PartitionLayout) (command : Command) (c c' : Card) : Prop where
  table : c'.table = c.table
  threads : c'.threads = c.threads
  results : c'.results = c.results
  kernel : ∀ {p : Part} {e}, c'.kernel.lookup p.number = some e →
    c.kernel.lookup p.number = some e ∨ e = l.extent p
  mounted : c'.mounted = c.mounted ∨ ∃ p, command = .mount p
  touched : c'.touched = c.touched ++ (l.target command).toList

/-- A command that touches nothing may leave the card as it was. -/
theorem Did.refl {command : Command} (h : l.target command = none) : Did l command c c :=
  ⟨rfl, rfl, rfl, .inl, .inl rfl, by rw [h]; exact (List.append_nil _).symm⟩

variable [Sfdisk]

/-- The effect of a command past `sfdisk --append`. -/
theorem OnPlan.did (h : OnPlan table l disk c) {command : Command} (hahead : Ahead l disk command)
    (heffect : c.effect command = some c') : Did l command c c' := by
  cases command with
  | progress message percent => cases heffect; exact .refl rfl
  | abandon e => cases heffect
  | sfdiskAppend script => cases hahead
  | notifyKernelBlkpg n start size =>
    obtain ⟨p, rfl, hsectors⟩ := hahead
    obtain ⟨kernel, hkernel, hc'⟩ := Option.bind_eq_some_iff.1 heffect
    cases hc'
    rw [hsectors] at hkernel
    refine ⟨rfl, rfl, rfl, fun he => ?_, .inl rfl, (List.append_nil _).symm⟩
    rcases lookup_addPartition hkernel he with hold | ⟨hnumber, rfl⟩
    · exact .inl hold
    · exact .inr (number_injective hnumber ▸ rfl)
  | mdev => cases heffect; exact .refl rfl
  | waitForPartitionDevices =>
    obtain ⟨-, heffect⟩ := Option.ite_none_right_eq_some.1 heffect
    cases heffect
    exact .refl rfl
  | blkdiscard offset length =>
    cases heffect
    exact ⟨rfl, rfl, rfl, .inl, .inl rfl, rfl⟩
  | mkfs p =>
    obtain ⟨e, he, rfl⟩ := Option.map_eq_some_iff.1 heffect
    cases h.kernel he
    exact ⟨rfl, rfl, rfl, .inl, .inl rfl, rfl⟩
  | createDir p => cases heffect; exact .refl rfl
  | mount p =>
    obtain ⟨e, he, rfl⟩ := Option.map_eq_some_iff.1 heffect
    exact ⟨rfl, rfl, rfl, .inl, .inr ⟨p, rfl⟩, (List.append_nil _).symm⟩

omit [Sfdisk] in
/-- What a command that is planned touches is planned. -/
theorem touched_of_ahead {command : Command} (hahead : Ahead l disk command) {w : Touch × Extent}
    (hw : l.target command = some w) : Touched l disk w := by
  cases command with
  | blkdiscard offset length => cases hw; exact .inl ⟨rfl, hahead⟩
  | mkfs p => cases hw; exact .inr ⟨p, .inl rfl, rfl⟩
  | _ => cases hw

omit [Sfdisk] in
/-- A card stays sound under the next command of what is left. -/
theorem OnPlan.next {command : Command} {rest : List Command} (h : OnPlan table l disk c)
    (hleft : Left l disk c (command :: rest)) (hdid : Did l command c c') :
    OnPlan table l disk c' := by
  have hahead := hleft.ahead command List.mem_cons_self
  refine ⟨hdid.table ▸ h.parts, fun he => ?_, ?_, ?_⟩
  · rcases hdid.kernel he with hold | rfl
    · exact h.kernel hold
    · rfl
  · rw [hdid.touched]
    intro w hw
    rcases List.mem_append.1 hw with hw | hw
    · exact h.touched w hw
    · exact touched_of_ahead hahead (Option.mem_toList.1 hw)
  · rw [hdid.touched]
    refine List.pairwise_append.2 ⟨h.kept, ?_, fun w hw w' hw' => ?_⟩
    · cases l.target command with
      | none => exact .nil
      | some w => exact List.pairwise_singleton _ _
    · exact hleft.spares command List.mem_cons_self w' (Option.mem_toList.1 hw') w hw

omit [Sfdisk] in
/-- What is left after a command. -/
theorem Left.next {command : Command} {rest : List Command}
    (hleft : Left l disk c (command :: rest)) (hdid : Did l command c c') :
    Left l disk c' rest := by
  obtain ⟨hfollows, horder⟩ := List.pairwise_cons.1 hleft.order
  refine ⟨fun b hb => hleft.ahead b (List.mem_cons_of_mem _ hb), horder, ?_, ?_, ?_⟩
  · intro b hb w hw w' hw'
    rw [hdid.touched] at hw'
    rcases List.mem_append.1 hw' with hw' | hw'
    · exact hleft.spares b (List.mem_cons_of_mem _ hb) w hw w' hw'
    · exact (hfollows b hb).spares w' w (Option.mem_toList.1 hw') hw
  · intro hne b hb
    rcases hdid.mounted with hsame | ⟨p, hp⟩
    · exact hleft.mounted (hsame ▸ hne) b (List.mem_cons_of_mem _ hb)
    · exact (hfollows b hb).mount p hp
  · intro p
    rw [hdid.touched]
    rcases hleft.formats p with hmkfs | hdone
    · rcases List.mem_cons.1 hmkfs with rfl | hmkfs
      · exact .inr (List.mem_append_right _ (List.mem_singleton.2 rfl))
      · exact .inl hmkfs
    · exact .inr (List.mem_append_left _ hdone)

end


/-! ### One step -/

section
variable {sysfs : Sysfs} {table : Table} {l : PartitionLayout} {disk : UInt64} {c c' : Card}
  {i j : Nat} {command : Command} {t rest : List Command} {result : Except String Unit}

/-- A thread that goes on leaves the table. -/
@[simp] theorem resume_table : (c.resume i rest result).table = c.table := by cases result <;> rfl

/-- A thread that goes on leaves the view of the kernel. -/
@[simp] theorem resume_kernel : (c.resume i rest result).kernel = c.kernel := by
  cases result <;> rfl

/-- A thread that goes on leaves what is mounted. -/
@[simp] theorem resume_mounted : (c.resume i rest result).mounted = c.mounted := by
  cases result <;> rfl

/-- A thread that goes on leaves what was touched. -/
@[simp] theorem resume_touched : (c.resume i rest result).touched = c.touched := by
  cases result <;> rfl

/-- A thread of a list in which one was replaced. -/
theorem getElem?_set_cases {ts : List (List Command)} (h : (ts.set i rest)[j]? = some t) :
    (j = i ∧ t = rest) ∨ (j ≠ i ∧ ts[j]? = some t) := by
  rw [List.getElem?_set] at h
  split at h
  · next heq =>
    obtain ⟨-, ht⟩ := Option.ite_none_right_eq_some.1 h
    exact .inl ⟨heq.symm, (Option.some.inj ht).symm⟩
  · next hne => exact .inr ⟨Ne.symm hne, h⟩

/-- The threads after one of them went on. -/
theorem threads_resume (h : (c.resume i rest result).threads[j]? = some t) :
    (j = i ∧ (t = [] ∨ (t = rest ∧ result = .ok ()))) ∨ (j ≠ i ∧ c.threads[j]? = some t) := by
  cases result with
  | ok u =>
    rcases getElem?_set_cases h with ⟨hj, ht⟩ | hother
    · exact .inl ⟨hj, .inr ⟨ht, rfl⟩⟩
    · exact .inr hother
  | error e =>
    rcases getElem?_set_cases h with ⟨hj, ht⟩ | hother
    · exact .inl ⟨hj, .inl ht⟩
    · exact .inr hother

/-- A setup is complete where a thread has come to its end. -/
theorem results_resume (h : .ok () ∈ (c.resume i rest result).results) :
    .ok () ∈ c.results ∨ (rest = [] ∧ result = .ok ()) := by
  cases result with
  | ok u =>
    change _ ∈ (if rest = [] then c.results ++ [.ok ()] else c.results) at h
    split at h
    · next hrest => exact .inr ⟨hrest, rfl⟩
    · exact .inl h
  | error e =>
    rcases List.mem_append.1 h with h | h
    · exact .inl h
    · cases List.mem_singleton.1 h

/-- What is left is about the mounted partitions and what was touched. -/
theorem Left.congr (hleft : Left l disk c t) (hmounted : c'.mounted = c.mounted)
    (htouched : c'.touched = c.touched) : Left l disk c' t :=
  ⟨hleft.ahead, hleft.order, htouched ▸ hleft.spares, hmounted ▸ hleft.mounted,
    htouched ▸ hleft.formats⟩

/-- A card is sound by its table, its view, and what was touched. -/
theorem OnPlan.congr (h : OnPlan table l disk c) (htable : c'.table = c.table)
    (hkernel : c'.kernel = c.kernel) (htouched : c'.touched = c.touched) :
    OnPlan table l disk c' :=
  ⟨htable ▸ h.parts, hkernel ▸ h.kernel, htouched ▸ h.touched, htouched ▸ h.kept⟩

/-- A thread that came to its end is not early. -/
theorem not_early_nil : ¬ Early sysfs [] := by rintro ⟨⟩

/-- The table that partitions are appended to. -/
theorem parts_append {t t' : Table} {added : List Extent} (h : t.append added = some t') :
    t'.parts = t.parts ++ added := by
  unfold Table.append at h
  split at h
  · cases h; rfl
  · cases h

/-- The partitions are not appended twice. -/
theorem append_eq_none {t : Table} {e : Extent} {added : List Extent} (he : e ∈ t.parts)
    (hadded : e ∈ added) : t.append added = none := by
  cases h : t.append added with
  | none => rfl
  | some t' =>
    have hparts := parts_append h
    have hclear := (List.pairwise_append.1 (hparts ▸ t'.disjoint)).2.2 e he e hadded
    have hpos := t.positive e he
    unfold Extent.Clear Extent.stop at hclear
    omega

variable [Sfdisk]

/-- A command ends with its effect, or in an error with nothing done. -/
theorem exec_cases {outcome : Card.Outcome} (h : c.exec command outcome = some (c', result)) :
    c.effect command = some c' ∨ (c' = c ∧ ∃ e, result = .error e) := by
  cases outcome with
  | done =>
    obtain ⟨d, hd, heq⟩ := Option.map_eq_some_iff.1 h
    cases heq
    exact .inl hd
  | failed which said landed =>
    obtain ⟨e, he, heq⟩ := Option.bind_eq_some_iff.1 h
    cases heq
    cases landed with
    | false => exact .inr ⟨rfl, e, rfl⟩
    | true =>
      cases heffect : c.effect command with
      | none => exact .inr ⟨rfl, e, rfl⟩
      | some d => exact .inl rfl

variable [LawfulSfdisk]

/-- The effect of `sfdisk --append` on a card, with the script of a plan. -/
theorem effect_sfdiskAppend
    (h : c.effect (.sfdiskAppend (generateSfdiskScript l)) = some c') :
    ∃ t, c.table.append [l.extent .keys, l.extent .data] = some t ∧
      c' = { c with table := t } := by
  obtain ⟨entries, hentries, h⟩ := Option.bind_eq_some_iff.1 h
  obtain ⟨t, ht, hc'⟩ := Option.bind_eq_some_iff.1 h
  cases (LawfulSfdisk.entries_script l).symm.trans hentries
  exact ⟨t, ht, (Option.some.inj hc').symm⟩

/-- What an early thread does: nothing to the card, unless its plan is appended. -/
theorem Early.exec (hearly : Early sysfs (command :: rest)) {outcome : Card.Outcome}
    (h : c.exec command outcome = some (c', result)) :
    (c' = c ∧ (Early sysfs rest ∨ ∃ e, result = .error e)) ∨
      ∃ l disk t, planPartitions sysfs = .ok (l, disk) ∧
        c.table.append [l.extent .keys, l.extent .data] = some t ∧
        c' = { c with table := t } ∧ rest = afterAppend sysfs.isTrimSupported l disk := by
  rcases exec_cases h with heffect | ⟨hsame, herror⟩
  · cases hearly with
    | abandon hplan => cases heffect
    | append hplan =>
      obtain ⟨t, ht, hc'⟩ := effect_sfdiskAppend heffect
      exact .inr ⟨_, _, t, hplan, ht, hc', rfl⟩
    | progress hrest =>
      cases heffect
      exact .inl ⟨rfl, .inl hrest⟩
  · exact .inl ⟨hsame, .inr herror⟩

/-! ### The steps -/

omit [Sfdisk] [LawfulSfdisk] in
/-- The nodes of a view. -/
theorem lookup_kernelView (t : Table) (p : Part) :
    (Card.kernelView t).lookup p.number = t.node p.number := by
  have hview : ∀ (es : List Extent) (k n : Nat), k ≤ n →
      ((es.zipIdx k).map Prod.swap).lookup n = es[n - k]? := by
    intro es
    induction es with
    | nil => intro k n _; rfl
    | cons e es ih =>
      intro k n hle
      rw [List.zipIdx_cons, List.map_cons, Prod.swap_prod_mk, List.lookup_cons]
      rcases Nat.eq_or_lt_of_le hle with rfl | hlt
      · simp
      · have hne : (n == k) = false := beq_false_of_ne (by omega)
        have hsub : n - k = n - (k + 1) + 1 := by omega
        rw [hne, hsub, List.getElem?_cons_succ]
        exact ih (k + 1) n hlt
  exact hview t.parts 1 p.number (by cases p <;> decide)

omit [Sfdisk] [LawfulSfdisk] in
/-- The partitions of a plan, in the table that they are appended to. -/
theorem node_appended {t : Table} (hfits : Fits sysfs table)
    (hparts : t.parts = table.parts ++ [l.extent .keys, l.extent .data]) (p : Part) :
    t.node p.number = some (l.extent p) := by
  have htwo := hfits.two
  cases p <;> simp [Table.node, hparts, Part.number, htwo]

omit [Sfdisk] [LawfulSfdisk] in
/-- A thread that comes past `sfdisk --append` has all the rest left. -/
theorem left_afterAppend (hplanned : Planned table l disk) (trim : Bool)
    (hmounted : c.mounted = []) (htouched : c.touched = []) :
    Left l disk c (afterAppend trim l disk) := by
  refine ⟨hplanned.ahead trim, hplanned.order trim, ?_, fun hne => absurd hmounted hne, ?_⟩
  · intro command _ w _ w' hw'
    rw [htouched] at hw'
    cases hw'
  · intro p
    refine .inl ?_
    unfold afterAppend
    refine List.mem_append_left _ (List.mem_append_left _ (List.mem_append_left _
      (List.mem_append_right _ ?_)))
    cases p with
    | keys => exact .tail _ (.head _)
    | data => exact .tail _ (.tail _ (.tail _ (.head _)))

/-- A card without the partitions goes on with one of its threads. -/
theorem Unpartitioned.thread (hfits : Fits sysfs table) (h : Unpartitioned sysfs table c)
    (ht : c.threads[i]? = some (command :: rest)) {outcome : Card.Outcome}
    (hexec : c.exec command outcome = some (c', result)) :
    SetupInv sysfs table (c'.resume i rest result) := by
  have hearly : Early sysfs (command :: rest) := by
    rcases h.threads _ (List.mem_of_getElem? ht) with hnil | hearly
    · cases hnil
    · exact hearly
  rcases hearly.exec hexec with ⟨rfl, hrest⟩ | ⟨l, disk, t, hplan, happend, rfl, rfl⟩
  · refine .inl ⟨?_, ?_, ?_, ?_, ?_, ?_⟩
    · rw [resume_table]; exact h.parts
    · rw [resume_kernel]; exact h.kernel
    · rw [resume_mounted]; exact h.mounted
    · rw [resume_touched]; exact h.touched
    · intro hok
      rcases results_resume hok with hok | ⟨rfl, rfl⟩
      · exact h.results hok
      · rcases hrest with hrest | ⟨e, he⟩
        · exact not_early_nil hrest
        · cases he
    · intro u hu
      obtain ⟨j, hj⟩ := List.mem_iff_getElem?.1 hu
      rcases threads_resume hj with ⟨-, rfl | ⟨rfl, rfl⟩⟩ | ⟨-, hother⟩
      · exact .inl rfl
      · rcases hrest with hrest | ⟨e, he⟩
        · exact .inr hrest
        · cases he
      · exact h.threads u (List.mem_of_getElem? hother)
  · have hleft : Left l disk { c with table := t } (afterAppend sysfs.isTrimSupported l disk) :=
      left_afterAppend (hfits.planned hplan) _ h.mounted h.touched
    refine .inr ⟨l, disk, ⟨?_, ?_, ?_, ?_⟩, hplan, ?_, i, ?_⟩
    · rw [resume_table]
      exact (parts_append happend).trans (congrArg (· ++ _) h.parts)
    · intro p e he
      rw [resume_kernel, h.kernel p] at he
      cases he
    · rw [resume_touched, h.touched]
      exact List.forall_mem_nil _
    · rw [resume_touched, h.touched]
      exact .nil
    · intro hok
      rcases results_resume hok with hok | ⟨hnil, -⟩
      · exact absurd hok h.results
      · cases hnil
    · intro j u hu
      rcases threads_resume hu with ⟨rfl, rfl | ⟨rfl, -⟩⟩ | ⟨-, hother⟩
      · exact .inl rfl
      · exact .inr (.inr ⟨rfl, hleft.congr resume_mounted resume_touched⟩)
      · rcases h.threads u (List.mem_of_getElem? hother) with hnil | hearly
        · exact .inl hnil
        · exact .inr (.inl hearly)

/-- A card with the partitions goes on with one of its threads. -/
theorem Partitioned.thread (h : Partitioned sysfs table l disk c)
    (ht : c.threads[i]? = some (command :: rest)) {outcome : Card.Outcome}
    (hexec : c.exec command outcome = some (c', result)) :
    Partitioned sysfs table l disk (c'.resume i rest result) := by
  obtain ⟨k, hthreads⟩ := h.threads
  rcases hthreads i _ ht with hnil | hearly | ⟨rfl, hleft⟩
  · cases hnil
  · rcases hearly.exec hexec with ⟨rfl, hrest⟩ | ⟨l', disk', t, hplan, happend, -, -⟩
    · refine ⟨h.toOnPlan.congr resume_table resume_kernel resume_touched, h.plan, ?_, k, ?_⟩
      · intro hok
        rw [resume_touched]
        rcases results_resume hok with hok | ⟨rfl, rfl⟩
        · exact h.results hok
        · rcases hrest with hrest | ⟨e, he⟩
          · exact absurd hrest not_early_nil
          · cases he
      · intro j u hu
        rcases threads_resume hu with ⟨-, rfl | ⟨rfl, rfl⟩⟩ | ⟨-, hother⟩
        · exact .inl rfl
        · rcases hrest with hrest | ⟨e, he⟩
          · exact .inr (.inl hrest)
          · cases he
        · rcases hthreads j u hother with hnil | hearly | ⟨rfl, hleft⟩
          · exact .inl hnil
          · exact .inr (.inl hearly)
          · exact .inr (.inr ⟨rfl, hleft.congr resume_mounted resume_touched⟩)
    · -- The partitions of the plan are there already.
      cases hplan.symm.trans h.plan
      have hkeys : l.extent .keys ∈ c.table.parts := by
        rw [h.parts]
        exact List.mem_append_right _ List.mem_cons_self
      rw [append_eq_none hkeys List.mem_cons_self] at happend
      cases happend
  · rcases exec_cases hexec with heffect | ⟨rfl, e, rfl⟩
    · have hdid := h.toOnPlan.did (hleft.ahead command List.mem_cons_self) heffect
      have hnext := hleft.next hdid
      refine ⟨(h.toOnPlan.next hleft hdid).congr resume_table resume_kernel resume_touched, h.plan,
        ?_, i, ?_⟩
      · intro hok p
        rw [resume_touched]
        rcases results_resume hok with hok | ⟨rfl, -⟩
        · rw [hdid.touched]
          exact List.mem_append_left _ (h.results (hdid.results ▸ hok) p)
        · rcases hnext.formats p with hmem | hmem
          · cases hmem
          · exact hmem
      · intro j u hu
        rcases threads_resume hu with ⟨rfl, rfl | ⟨rfl, -⟩⟩ | ⟨hne, hother⟩
        · exact .inl rfl
        · exact .inr (.inr ⟨rfl, hnext.congr resume_mounted resume_touched⟩)
        · rw [hdid.threads] at hother
          rcases hthreads j u hother with hnil | hearly | ⟨hj, -⟩
          · exact .inl hnil
          · exact .inr (.inl hearly)
          · exact absurd hj hne
    · refine ⟨h.toOnPlan.congr resume_table resume_kernel resume_touched, h.plan, ?_, i, ?_⟩
      · intro hok
        rw [resume_touched]
        rcases results_resume hok with hok | ⟨-, hok⟩
        · exact h.results hok
        · cases hok
      · intro j u hu
        rcases threads_resume hu with ⟨-, rfl | ⟨-, hok⟩⟩ | ⟨hne, hother⟩
        · exact .inl rfl
        · cases hok
        · rcases hthreads j u hother with hnil | hearly | ⟨hj, -⟩
          · exact .inl hnil
          · exact .inr (.inl hearly)
          · exact absurd hj hne

end

/-! ## Every run -/

section
variable {sysfs : Sysfs} {table : Table} {l : PartitionLayout} {disk : UInt64} {c c' : Card}

/-- A card without the partitions has no node for them. -/
theorem node_unpartitioned {t : Table} (hfits : Fits sysfs table) (hparts : t.parts = table.parts)
    (p : Part) : t.node p.number = none := by
  have htwo := hfits.two
  refine List.getElem?_eq_none ?_
  rw [hparts, htwo]
  cases p <;> decide

/-- The threads after one more is started. -/
theorem getElem?_concat_cases {ts : List (List Command)} {t u : List Command} {i : Nat}
    (h : (ts ++ [t])[i]? = some u) : ts[i]? = some u ∨ u = t := by
  rcases Nat.lt_or_ge i ts.length with hlt | hge
  · rw [List.getElem?_append_left hlt] at h
    exact .inl h
  · rw [List.getElem?_append_right hge] at h
    exact .inr (List.mem_singleton.1 (List.mem_of_getElem? h))

variable [Sfdisk] [LawfulSfdisk]

/-- A step of a card without the partitions. -/
theorem Unpartitioned.step (hfits : Fits sysfs table) (h : Unpartitioned sysfs table c)
    {action : Card.Action} (hstep : c.step sysfs action = some c') : SetupInv sysfs table c' := by
  cases action with
  | boot mounts =>
    obtain ⟨hmounts, hc'⟩ := Option.ite_none_right_eq_some.1 hstep
    cases hc'
    have hnone : ∀ p : Part, (Card.kernelView c.table).lookup p.number = none := fun p => by
      rw [lookup_kernelView, node_unpartitioned hfits h.parts]
    refine .inl ⟨h.parts, hnone, ?_, h.touched, h.results, List.forall_mem_nil _⟩
    refine List.eq_nil_iff_forall_not_mem.2 fun p hp => ?_
    have hsome := hmounts p hp
    rw [hnone p] at hsome
    cases hsome
  | startSetup =>
    obtain ⟨-, hc'⟩ := Option.ite_none_right_eq_some.1 hstep
    cases hc'
    refine .inl ⟨h.parts, h.kernel, h.mounted, h.touched, h.results, fun t ht => ?_⟩
    rcases List.mem_append.1 ht with ht | ht
    · exact h.threads t ht
    · rw [List.mem_singleton.1 ht]
      exact .inr (early_setupStorage sysfs)
  | thread i outcome =>
    unfold Card.step at hstep
    dsimp only at hstep
    split at hstep
    · next command rest ht =>
      obtain ⟨⟨d, result⟩, hexec, rfl⟩ := Option.map_eq_some_iff.1 hstep
      exact h.thread hfits ht hexec
    · cases hstep
  | store p =>
    obtain ⟨hp, -⟩ := Option.ite_none_right_eq_some.1 hstep
    rw [h.mounted] at hp
    cases hp

/-- A step of a card with the partitions. -/
theorem Partitioned.step (hfits : Fits sysfs table) (h : Partitioned sysfs table l disk c)
    {action : Card.Action} (hstep : c.step sysfs action = some c') :
    Partitioned sysfs table l disk c' := by
  cases action with
  | boot mounts =>
    obtain ⟨-, hc'⟩ := Option.ite_none_right_eq_some.1 hstep
    cases hc'
    refine ⟨⟨h.parts, fun he => ?_, h.touched, h.kept⟩, h.plan, h.results, 0, ?_⟩
    · rw [lookup_kernelView, node_appended hfits h.parts] at he
      exact (Option.some.inj he).symm
    · intro i t ht
      cases ht
  | startSetup =>
    obtain ⟨-, hc'⟩ := Option.ite_none_right_eq_some.1 hstep
    cases hc'
    obtain ⟨k, hthreads⟩ := h.threads
    refine ⟨h.toOnPlan.congr rfl rfl rfl, h.plan, h.results, k, fun i t ht => ?_⟩
    rcases getElem?_concat_cases ht with hold | rfl
    · rcases hthreads i t hold with hnil | hearly | ⟨hi, hleft⟩
      · exact .inl hnil
      · exact .inr (.inl hearly)
      · exact .inr (.inr ⟨hi, hleft.congr rfl rfl⟩)
    · exact .inr (.inl (early_setupStorage sysfs))
  | thread i outcome =>
    unfold Card.step at hstep
    dsimp only at hstep
    split at hstep
    · next command rest ht =>
      obtain ⟨⟨d, result⟩, hexec, rfl⟩ := Option.map_eq_some_iff.1 hstep
      exact h.thread ht hexec
    · cases hstep
  | store p =>
    obtain ⟨hp, hc'⟩ := Option.ite_none_right_eq_some.1 hstep
    obtain ⟨e, he, rfl⟩ := Option.map_eq_some_iff.1 hc'
    cases h.kernel he
    have hmounted : c.mounted ≠ [] := List.ne_nil_of_mem hp
    obtain ⟨k, hthreads⟩ := h.threads
    refine ⟨⟨h.parts, h.kernel, ?_, ?_⟩, h.plan, ?_, k, fun i t ht => ?_⟩
    · intro w hw
      rcases List.mem_append.1 hw with hw | hw
      · exact h.touched w hw
      · rw [List.mem_singleton.1 hw]
        exact .inr ⟨p, .inr rfl, rfl⟩
    · refine List.pairwise_append.2 ⟨h.kept, List.pairwise_singleton _ _, fun w _ w' hw' => ?_⟩
      rw [List.mem_singleton.1 hw']
      exact .inl ⟨p, rfl⟩
    · exact fun hok q => List.mem_append_left _ (h.results hok q)
    · rcases hthreads i t ht with hnil | hearly | ⟨hi, hleft⟩
      · exact .inl hnil
      · exact .inr (.inl hearly)
      · -- Past a mount, nothing that is left touches the card.
        have hquiet := hleft.mounted hmounted
        refine .inr (.inr ⟨hi, hleft.ahead, hleft.order, ?_, fun _ => hquiet, fun q => ?_⟩)
        · intro command hcommand w hw
          rw [hquiet command hcommand] at hw
          cases hw
        · exact (hleft.formats q).imp_right (List.mem_append_left _)

/-- The invariant holds in every state that is reached. -/
theorem setupInv_run (hfits : Fits sysfs table) {actions : List Card.Action}
    (h : Automaton.run (Card.step sysfs) (Card.flashed table) actions = some c) :
    SetupInv sysfs table c := by
  have hstart : SetupInv sysfs table (Card.flashed table) := by
    refine .inl ⟨rfl, fun p => ?_, rfl, rfl, List.not_mem_nil, List.forall_mem_nil _⟩
    exact (lookup_kernelView table p).trans (node_unpartitioned hfits rfl p)
  refine Automaton.run_invariant (G := fun _ _ => True) ?_ hstart
    (Automaton.along_of_forall _ fun _ _ => trivial) h
  rintro s action t (hs | ⟨l, disk, hs⟩) - hstep
  · exact hs.step hfits hstep
  · exact .inr ⟨l, disk, hs.step hfits hstep⟩

end

section
variable {sysfs : Sysfs} {table : Table} {l : PartitionLayout} {disk : UInt64} {c : Card}

/-- A partition is formatted once at most. -/
theorem countP_format (hplanned : Planned table l disk) (h : OnPlan table l disk c) (p : Part) :
    c.touched.countP (·.1 = .format p) ≤ 1 := by
  rw [List.countP_eq_length_filter]
  have hkept := h.kept.filter (·.1 = .format p)
  have hmem : ∀ w ∈ c.touched.filter (·.1 = .format p), w = (.format p, l.extent p) := by
    intro w hw
    obtain ⟨hw, hformat⟩ := List.mem_filter.1 hw
    have hkind : w.1 = .format p := of_decide_eq_true hformat
    rcases h.touched w hw with ⟨hdiscard, -⟩ | ⟨q, hq | hq, hextent⟩
    · cases hkind.symm.trans hdiscard
    · cases hkind.symm.trans hq
      exact Prod.ext hkind hextent
    · cases hkind.symm.trans hq
  cases hlist : c.touched.filter (·.1 = .format p) with
  | nil => exact Nat.zero_le _
  | cons a as =>
    cases as with
    | nil => exact Nat.le_refl _
    | cons b bs =>
      rw [hlist] at hkept hmem
      have hspares := (List.pairwise_cons.1 hkept).1 b List.mem_cons_self
      rw [hmem a List.mem_cons_self, hmem b (.tail _ (.head _))] at hspares
      have hpos := hplanned.positive p
      rcases hspares with ⟨q, hq⟩ | hdiscard | hclear
      · cases hq
      · cases hdiscard
      · unfold Extent.Clear Extent.stop at hclear
        dsimp only at hclear
        omega

/-- What is touched by the plan lies past the partitions of the table, and on the disk. -/
theorem Planned.clear_touched (hplanned : Planned table l disk) {w : Touch × Extent}
    (hw : Touched l disk w) : (∀ e ∈ table.parts, w.2.Clear e) ∧ w.2.stop ≤ disk.toNat := by
  have hinside := hplanned.inside
  have hapart := hplanned.apart
  have hpart : ∀ p, (∀ e ∈ table.parts, (l.extent p).Clear e) ∧ (l.extent p).stop ≤ disk.toNat := by
    intro p
    refine ⟨hplanned.clear p, ?_⟩
    cases p with
    | keys => unfold Extent.stop at *; omega
    | data => exact hinside
  rcases hw with ⟨-, ⟨p, hextent⟩ | hextent⟩ | ⟨p, -, hextent⟩
  · exact hextent ▸ hpart p
  · rw [hextent]
    refine ⟨fun e he => .inr ?_, ?_⟩
    · have hafter := hplanned.after e he
      unfold freeExtent Extent.stop at *
      dsimp only
      omega
    · unfold freeExtent Extent.stop at *
      dsimp only
      omega
  · exact hextent ▸ hpart p

end

/-- What the setup leaves of a card: it touches nothing of the partitions that were there, and
nothing past the disk; what is formatted or stored is spared by all that comes after, but the
files; and the partitions are those of the table. -/
structure Spared (sysfs : Sysfs) (table : Table) (c : Card) : Prop where
  outside : ∀ w ∈ c.touched, ∀ e ∈ table.parts, w.2.Clear e
  inside : ∀ w ∈ c.touched, ∀ disk, sysfs.diskSize = .ok disk → w.2.stop ≤ disk.toNat
  kept : c.touched.Pairwise Spares
  once : ∀ p, c.touched.countP (·.1 = .format p) ≤ 1
  nodes : ∀ p e, (.format p, e) ∈ c.touched ∨ (.files p, e) ∈ c.touched →
    c.table.node p.number = some e
  completed : .ok () ∈ c.results → ∀ p, ∃ e, (.format p, e) ∈ c.touched

/-- **The setup of the storage spares the card.** Let a card have two partitions, the second of
which ends last and is where sysfs tells, and let its bytes stay below `2 ^ 64`. Whatever commands
fail, whenever the power is cut and however often the setup is started, it touches nothing of the
partitions that were flashed and nothing past the disk. Each of its partitions is formatted once at
most, and no discard or format comes after that or after files are stored there. -/
theorem storage_setup_spares_card [Sfdisk] [LawfulSfdisk] {sysfs : Sysfs} {table : Table}
    (hfits : Fits sysfs table) {actions : List Card.Action} {c : Card}
    (h : Automaton.run (Card.step sysfs) (Card.flashed table) actions = some c) :
    Spared sysfs table c := by
  rcases setupInv_run hfits h with hfresh | ⟨l, disk, happended⟩
  · have hempty : ∀ w, w ∉ c.touched := fun w hw => by
      rw [hfresh.touched] at hw
      cases hw
    refine ⟨fun w hw => absurd hw (hempty w), fun w hw => absurd hw (hempty w), ?_, ?_, ?_, ?_⟩
    · rw [hfresh.touched]; exact .nil
    · rw [hfresh.touched]; exact fun _ => Nat.zero_le _
    · exact fun p e he => he.elim (fun h => absurd h (hempty _)) fun h => absurd h (hempty _)
    · exact fun hok => absurd hok hfresh.results
  · have hplanned := hfits.planned happended.plan
    refine ⟨fun w hw => (hplanned.clear_touched (happended.touched w hw)).1, ?_, happended.kept,
      countP_format hplanned happended.toOnPlan, ?_, fun hok p => ⟨_, happended.results hok p⟩⟩
    · intro w hw disk' hdisk
      cases (planPartitions_eq_ok happended.plan).1.symm.trans hdisk
      exact (hplanned.clear_touched (happended.touched w hw)).2
    · intro p e he
      rw [node_appended hfits happended.parts]
      have hextent : ∀ kind, (kind = .format p ∨ kind = .files p) → (kind, e) ∈ c.touched →
          e = l.extent p := by
        intro kind hkind hmem
        rcases happended.touched _ hmem with ⟨hdiscard, -⟩ | ⟨q, hq, hextent⟩
        · rcases hkind with rfl | rfl <;> cases hdiscard
        · rcases hkind with rfl | rfl <;> rcases hq with hq | hq <;> cases hq <;> exact hextent
      rcases he with he | he
      · rw [hextent _ (.inl rfl) he]
      · rw [hextent _ (.inr rfl) he]

/-! ## Two setups at once -/

/-- A line of a script, as `sfdisk` reads it. -/
def readScriptLine (line : List Char) : Option Extent := do
  let line ← line.dropPrefix? "start=".toList
  let (start, line) ← TextCodec.splitOnce ", size=".toList line
  let (size, _) ← TextCodec.splitOnce ", type=".toList line
  return ⟨Nat.ofDigitChars 10 start 0, Nat.ofDigitChars 10 size 0⟩

/-- A reader of scripts. -/
@[reducible] def plainSfdisk : Sfdisk where
  entries script := (TextCodec.lines script.toList).mapM readScriptLine

/-- A line of a script. -/
def scriptLine (start size : UInt64) : List Char :=
  "start=".toList ++ (Nat.toDigits 10 start.toNat ++ ", size=".toList ++
    (Nat.toDigits 10 size.toNat ++ ", type=".toList ++ "83".toList))

/-- The digits of a number are digits. -/
theorem notMem_toDigits {c : Char} (hc : c.isDigit = false) (n : Nat) :
    c ∉ Nat.toDigits 10 n := by
  intro hmem
  have hdigit := Nat.isDigit_of_mem_toDigits (b := 10) (n := n) (by decide) (by decide) hmem
  rw [hc] at hdigit
  cases hdigit

/-- A line of the script is read as it was written. -/
theorem readScriptLine_scriptLine (start size : UInt64) :
    readScriptLine (scriptLine start size) = some ⟨start.toNat, size.toNat⟩ := by
  have hsize : TextCodec.splitOnce ", size=".toList (Nat.toDigits 10 start.toNat ++
      ", size=".toList ++ (Nat.toDigits 10 size.toNat ++ ", type=".toList ++ "83".toList)) =
      some (Nat.toDigits 10 start.toNat,
        Nat.toDigits 10 size.toNat ++ ", type=".toList ++ "83".toList) :=
    TextCodec.splitOnce_append _ _ (notMem_toDigits (by decide) _)
  have htype : TextCodec.splitOnce ", type=".toList (Nat.toDigits 10 size.toNat ++
      ", type=".toList ++ "83".toList) = some (Nat.toDigits 10 size.toNat, "83".toList) :=
    TextCodec.splitOnce_append _ _ (notMem_toDigits (by decide) _)
  have hstart : (scriptLine start size).dropPrefix? "start=".toList = some
      (Nat.toDigits 10 start.toNat ++ ", size=".toList ++
        (Nat.toDigits 10 size.toNat ++ ", type=".toList ++ "83".toList)) :=
    List.dropPrefix?_append_of_beq _ (beq_self_eq_true "start=".toList)
  rw [readScriptLine, hstart]
  simp only [bind, Option.bind, hsize, htype, Nat.ofDigitChars_ten_toDigits]
  rfl

/-- The stand-in meets the law of `sfdisk`. -/
theorem plainSfdisk_lawful : @LawfulSfdisk plainSfdisk := by
  let := plainSfdisk
  refine ⟨fun l => ?_⟩
  have hnum : ∀ n : UInt64, (toString n).toList = Nat.toDigits 10 n.toNat := fun n =>
    Nat.toList_repr
  have htext : (generateSfdiskScript l).toList =
      [scriptLine l.keysStartSector l.keysSizeSectors,
        scriptLine l.dataStartSector l.dataSizeSectors].flatMap (· ++ ['\n']) := by
    delta generateSfdiskScript scriptLine
    simp only [String.toList_append, hnum, List.flatMap_cons, List.flatMap_nil,
      List.append_assoc, List.append_nil]
    rfl
  change (TextCodec.lines (generateSfdiskScript l).toList).mapM readScriptLine = _
  rw [htext, TextCodec.lines_flatMap]
  · simp only [List.mapM_cons, readScriptLine_scriptLine]
    rfl
  · have hline : ∀ start size, TextCodec.IsLine (scriptLine start size) := by
      intro start size
      refine ⟨fun hmem => ?_, ?_⟩
      · rcases List.mem_append.1 hmem with hmem | hmem
        · exact absurd hmem (by decide)
        rcases List.mem_append.1 hmem with hmem | hmem
        · rcases List.mem_append.1 hmem with hmem | hmem
          · exact notMem_toDigits (by decide) _ hmem
          · exact absurd hmem (by decide)
        rcases List.mem_append.1 hmem with hmem | hmem
        · rcases List.mem_append.1 hmem with hmem | hmem
          · exact notMem_toDigits (by decide) _ hmem
          · exact absurd hmem (by decide)
        · exact absurd hmem (by decide)
      · delta scriptLine
        rw [← List.append_assoc, ← List.append_assoc, List.getLast?_append]
        exact fun h => by cases h
    simp only [List.forall_mem_cons]
    exact ⟨hline _ _, hline _ _, List.forall_mem_nil _⟩

/-- A card of 32 GB. -/
def largeCard : Sysfs where
  discardGranularity := some 4194304
  diskSize := .ok 62521344
  p2Start := .ok 526336
  p2Size := .ok 1048576

/-- The table of an image. -/
def imageTable : Table where
  parts := [⟨2048, 524288⟩, ⟨526336, 1048576⟩]
  positive := by decide
  disjoint := by decide

/-- The operator starts the setup twice. The first thread is done, the second one does not get past
`sfdisk`; after keys are stored, the power is cut. -/
def twoSetups : List Card.Action :=
  [.startSetup, .startSetup, .thread 1 .done] ++ List.replicate 20 (.thread 0 .done) ++
    [.thread 1 .done, .thread 1 .done, .thread 1 (.failed 3 "" false)] ++
    List.replicate 5 (.thread 0 .done) ++ [.store .keys, .boot [.keys, .data], .store .data]

/-- On a card of 32 GB both setups end, the second with an error, and the card is spared. -/
theorem storage_setup_spares_card_twoSetups : ∃ c,
    @Automaton.run _ _ (@Card.step plainSfdisk largeCard) (Card.flashed imageTable) twoSetups =
      some c ∧
    c.results = [.error "sfdisk error: ", .ok ()] ∧ Spared largeCard imageTable c := by
  have hresults : (@Automaton.run _ _ (@Card.step plainSfdisk largeCard) (Card.flashed imageTable)
      twoSetups).map (·.results) = some [.error "sfdisk error: ", .ok ()] := by decide +kernel
  obtain ⟨c, hc, hresults⟩ := Option.map_eq_some_iff.1 hresults
  refine ⟨c, hc, hresults, @storage_setup_spares_card plainSfdisk plainSfdisk_lawful _ _ ?_ _ _ hc⟩
  refine ⟨rfl, ?_, ?_, ?_, ?_⟩
  · rintro _ _ ⟨⟩ ⟨⟩
    decide
  · rintro _ ⟨⟩
    decide
  · rintro _ ⟨⟩
    decide
  · rintro _ _ ⟨⟩ ⟨⟩
    decide +kernel

end Russignol.Storage
