import Russignol.Host.Flash

/-!
# The layout of the partitions

`calculate_partition_layout` of `libs/storage/src/lib.rs` in 64 bits, with the alignment that the
device passes (`rpi-signer/src/storage.rs`) or the host (`restore_keys.rs`). Without a wrap-around it
is the layout of `Host.calculatePartitionLayout`. None of the sums is checked: `layout_sound_iff`
says for which numbers the layout is sound, and `layout_sound` that those of a card are among them.
-/

namespace Russignol.Storage

/-! ## The calculation -/

/-- `MIN_ALIGNMENT`, `KEYS_PARTITION_SIZE`, `DATA_PARTITION_SIZE` and `SECTOR_SIZE`. -/
def minAlignment : UInt64 := 16 * 1024 * 1024

def keysPartitionSize : UInt64 := 64 * 1024 * 1024

def dataPartitionSize : UInt64 := 256 * 1024 * 1024

def sectorSize : UInt64 := 512

/-- `u64::div_ceil`. -/
def divCeil (a b : UInt64) : UInt64 := a / b + if a % b = 0 then 0 else 1

/-- `align_up`. -/
def alignUp (value alignment : UInt64) : UInt64 := divCeil value alignment * alignment

/-- `PartitionLayout`. -/
structure PartitionLayout where
  keysStartSector : UInt64
  keysSizeSectors : UInt64
  dataStartSector : UInt64
  dataSizeSectors : UInt64
  deriving DecidableEq, Repr

/-- `InsufficientSpace`. -/
structure InsufficientSpace where
  needMb : UInt64
  haveMb : UInt64
  deriving DecidableEq, Repr

/-- `calculate_partition_layout`. -/
def calculatePartitionLayout (p2EndBytes alignment diskSizeBytes : UInt64) :
    Except InsufficientSpace PartitionLayout :=
  let keysStartBytes := alignUp p2EndBytes alignment
  let keysSizeBytes := alignUp keysPartitionSize alignment
  let keysEndBytes := keysStartBytes + keysSizeBytes
  let dataStartBytes := keysEndBytes
  let dataSizeBytes := alignUp dataPartitionSize alignment
  let dataEndBytes := dataStartBytes + dataSizeBytes
  if dataEndBytes > diskSizeBytes then
    .error { needMb := dataEndBytes / (1024 * 1024), haveMb := diskSizeBytes / (1024 * 1024) }
  else .ok {
    keysStartSector := keysStartBytes / sectorSize
    keysSizeSectors := keysSizeBytes / sectorSize
    dataStartSector := dataStartBytes / sectorSize
    dataSizeSectors := dataSizeBytes / sectorSize }

/-- `calculate_alignment`, of what `detect_discard_granularity` reads. -/
def calculateAlignment : Option UInt64 → UInt64
  | some granularity => if granularity > 0 then max minAlignment granularity else minAlignment
  | none => minAlignment

/-- `calculate_partition_layout` of the device, of the sectors it reads; and on the host, with no
granularity, `calculate_layout_from_json`. -/
def calculateLayout (granularity : Option UInt64)
    (p2StartSectors p2SizeSectors diskSizeSectors : UInt64) :
    Except InsufficientSpace PartitionLayout :=
  let diskSizeBytes := diskSizeSectors * sectorSize
  let p2EndBytes := (p2StartSectors + p2SizeSectors) * sectorSize
  calculatePartitionLayout p2EndBytes (calculateAlignment granularity) diskSizeBytes

/-! ## In numbers -/

/-- Where the data partition ends, in numbers without a bound. -/
def exactEnd (p2End alignment : Nat) : Nat :=
  Host.alignUp p2End alignment + Host.alignUp Host.keysPartitionSize alignment +
    Host.alignUp Host.dataPartitionSize alignment

/-- Rounding up is rounding down and one more step, unless nothing is left. -/
theorem alignUp_eq (value : Nat) {alignment : Nat} (h : 0 < alignment) :
    Host.alignUp value alignment =
      (value / alignment + if value % alignment = 0 then 0 else 1) * alignment := by
  rw [Host.alignUp]
  congr 1
  obtain ⟨q, r, hr, hvalue⟩ : ∃ q r, r < alignment ∧ value = alignment * q + r :=
    ⟨value / alignment, value % alignment, Nat.mod_lt _ h, (Nat.div_add_mod value alignment).symm⟩
  rw [hvalue, Nat.mul_add_div h, Nat.mul_add_mod, Nat.div_eq_of_lt hr, Nat.mod_eq_of_lt hr]
  split
  · next hzero =>
    rw [hzero, Nat.add_zero, Nat.add_sub_assoc h, Nat.mul_add_div h,
      Nat.div_eq_of_lt (Nat.sub_lt h Nat.one_pos)]
  · next hpos =>
    rw [Nat.add_assoc, Nat.add_sub_assoc (by omega), Nat.mul_add_div h]
    congr 1
    exact Nat.div_eq_of_lt_le (by omega) (by omega)

/-- Aligning rounds up. -/
theorem le_alignUp (value : Nat) {alignment : Nat} (h : 0 < alignment) :
    value ≤ Host.alignUp value alignment := by
  have hdiv := Nat.lt_div_mul_add (a := value + alignment - 1) h
  rw [Host.alignUp]
  omega

/-- Rounding up adds less than the alignment. -/
theorem alignUp_lt (value : Nat) {alignment : Nat} (h : 0 < alignment) :
    Host.alignUp value alignment < value + alignment := by
  have hdiv := Nat.div_mul_le_self (value + alignment - 1) alignment
  rw [Host.alignUp]
  omega

/-- What is aligned is a multiple of the alignment. -/
theorem dvd_alignUp (value alignment : Nat) : alignment ∣ Host.alignUp value alignment :=
  Nat.dvd_mul_left _ _

/-- Rounding up in 64 bits wraps around. -/
theorem toNat_alignUp (value : UInt64) {alignment : UInt64} (h : 0 < alignment.toNat) :
    (alignUp value alignment).toNat =
      Host.alignUp value.toNat alignment.toNat % 2 ^ 64 := by
  have hmod : value % alignment = 0 ↔ value.toNat % alignment.toNat = 0 := by
    rw [← UInt64.toNat_inj, UInt64.toNat_mod]
    rfl
  rw [alignUp, divCeil, UInt64.toNat_mul, UInt64.toNat_add, UInt64.toNat_div, alignUp_eq _ h]
  have hone : (if value % alignment = 0 then (0 : UInt64) else 1).toNat =
      if value.toNat % alignment.toNat = 0 then 0 else 1 := by
    split
    · next hzero => rw [if_pos (hmod.1 hzero)]; rfl
    · next hpos => rw [if_neg fun hzero => hpos (hmod.2 hzero)]; rfl
  rw [hone, Nat.mod_mul_mod]

/-- The alignment is 16 MiB at least. -/
theorem minAlignment_le (granularity : Option UInt64) :
    16 * 1024 * 1024 ≤ (calculateAlignment granularity).toNat := by
  have hmin : minAlignment.toNat = 16 * 1024 * 1024 := rfl
  rw [← hmin, ← UInt64.le_iff_toNat_le]
  unfold calculateAlignment
  cases granularity with
  | none => exact UInt64.le_refl _
  | some g =>
    dsimp only
    split
    · show minAlignment ≤ if minAlignment ≤ g then g else minAlignment
      split
      · assumption
      · exact UInt64.le_refl _
    · exact UInt64.le_refl _

/-- The alignment is the least one, or the granularity that was read. -/
theorem calculateAlignment_cases (granularity : Option UInt64) :
    (calculateAlignment granularity).toNat = 16 * 1024 * 1024 ∨
      ∃ g, granularity = some g ∧ (calculateAlignment granularity).toNat = g.toNat := by
  cases granularity with
  | none => exact .inl rfl
  | some g =>
    rw [calculateAlignment]
    split
    · show (if minAlignment ≤ g then g else minAlignment).toNat = _ ∨
        ∃ g', some g = some g' ∧ (if minAlignment ≤ g then g else minAlignment).toNat = g'.toNat
      split
      · exact .inr ⟨g, rfl, rfl⟩
      · exact .inl rfl
    · exact .inl rfl

/-- The end of partition 2 in bytes, as the code computes it. -/
theorem toNat_p2End (p2Start p2Size : UInt64) : ((p2Start + p2Size) * sectorSize).toNat =
    512 * (p2Start.toNat + p2Size.toNat) % 2 ^ 64 := by
  have hsector : sectorSize.toNat = 512 := rfl
  rw [UInt64.toNat_mul, UInt64.toNat_add, hsector, Nat.mod_mul_mod, Nat.mul_comm]

/-- The size of the card in bytes, as the code computes it. -/
theorem toNat_diskSize (disk : UInt64) :
    (disk * sectorSize).toNat = 512 * disk.toNat % 2 ^ 64 := by
  have hsector : sectorSize.toNat = 512 := rfl
  rw [UInt64.toNat_mul, hsector, Nat.mul_comm]

section

variable {p2End disk alignment : UInt64}

/-- Where the data partition ends, in 64 bits. -/
theorem toNat_dataEnd (h : 0 < alignment.toNat) :
    (alignUp p2End alignment + alignUp keysPartitionSize alignment +
      alignUp dataPartitionSize alignment).toNat =
        exactEnd p2End.toNat alignment.toNat % 2 ^ 64 := by
  have hkeys : keysPartitionSize.toNat = Host.keysPartitionSize := rfl
  have hdata : dataPartitionSize.toNat = Host.dataPartitionSize := rfl
  rw [UInt64.toNat_add, UInt64.toNat_add, toNat_alignUp _ h, toNat_alignUp _ h, toNat_alignUp _ h,
    hkeys, hdata]
  unfold exactEnd
  omega

/-- The layout of the numbers, in sectors. -/
def exactLayout (p2End alignment : Nat) : Host.PartitionLayout where
  keys := ⟨Host.alignUp p2End alignment / 512, Host.alignUp Host.keysPartitionSize alignment / 512⟩
  data := ⟨(Host.alignUp p2End alignment + Host.alignUp Host.keysPartitionSize alignment) / 512,
    Host.alignUp Host.dataPartitionSize alignment / 512⟩

/-- A layout, in numbers. -/
def PartitionLayout.extents (l : PartitionLayout) : Host.PartitionLayout where
  keys := ⟨l.keysStartSector.toNat, l.keysSizeSectors.toNat⟩
  data := ⟨l.dataStartSector.toNat, l.dataSizeSectors.toNat⟩

/-- **The calculation fails** exactly where the end it comes to lies past the disk. -/
theorem calculatePartitionLayout_error_iff (h : 0 < alignment.toNat) :
    (∃ e, calculatePartitionLayout p2End alignment disk = .error e) ↔
      disk.toNat < exactEnd p2End.toNat alignment.toNat % 2 ^ 64 := by
  rw [← toNat_dataEnd h, ← UInt64.lt_iff_toNat_lt, calculatePartitionLayout]
  split
  · next hpast => exact iff_of_true ⟨_, rfl⟩ hpast
  · next hfits =>
    refine iff_of_false ?_ hfits
    rintro ⟨e, he⟩
    cases he

/-- Without a wrap-around it comes to the layout of the numbers. -/
theorem extents_of_ok (h : 0 < alignment.toNat)
    (hend : exactEnd p2End.toNat alignment.toNat < 2 ^ 64) {l : PartitionLayout}
    (hl : calculatePartitionLayout p2End alignment disk = .ok l) :
    l.extents = exactLayout p2End.toNat alignment.toNat := by
  have hkeys : keysPartitionSize.toNat = Host.keysPartitionSize := rfl
  have hdata : dataPartitionSize.toNat = Host.dataPartitionSize := rfl
  have hsector : sectorSize.toNat = 512 := rfl
  unfold exactEnd at hend
  have hstart : (alignUp p2End alignment).toNat = Host.alignUp p2End.toNat alignment.toNat := by
    rw [toNat_alignUp _ h, Nat.mod_eq_of_lt (by omega)]
  have hkeysSize : (alignUp keysPartitionSize alignment).toNat =
      Host.alignUp Host.keysPartitionSize alignment.toNat := by
    rw [toNat_alignUp _ h, hkeys, Nat.mod_eq_of_lt (by omega)]
  have hdataSize : (alignUp dataPartitionSize alignment).toNat =
      Host.alignUp Host.dataPartitionSize alignment.toNat := by
    rw [toNat_alignUp _ h, hdata, Nat.mod_eq_of_lt (by omega)]
  have hkeysEnd : (alignUp p2End alignment + alignUp keysPartitionSize alignment).toNat =
      Host.alignUp p2End.toNat alignment.toNat +
        Host.alignUp Host.keysPartitionSize alignment.toNat := by
    rw [UInt64.toNat_add, hstart, hkeysSize, Nat.mod_eq_of_lt (by omega)]
  rw [calculatePartitionLayout] at hl
  split at hl
  · cases hl
  · cases hl
    simp only [PartitionLayout.extents, exactLayout, UInt64.toNat_div, hstart, hkeysSize,
      hdataSize, hkeysEnd, hsector]

/-! ## When the layout is sound -/

/-- The partitions of a layout, in sectors, lie one after another past the end of the second one
and on the disk, start on the alignment, and have their sizes. -/
structure Sound (p2End alignment disk : Nat) (l : Host.PartitionLayout) : Prop where
  after : p2End ≤ 512 * l.keys.start
  disjoint : l.keys.stop ≤ l.data.start
  inside : 512 * l.data.stop ≤ disk
  keysAligned : alignment ∣ 512 * l.keys.start
  dataAligned : alignment ∣ 512 * l.data.start
  keysSize : Host.keysPartitionSize ≤ 512 * l.keys.size
  dataSize : Host.dataPartitionSize ≤ 512 * l.data.size

/-- The sectors of a multiple of the alignment start on it where they are whole. -/
theorem dvd_sectors_iff {alignment bytes : Nat} (h : 512 ≤ alignment) (hdvd : alignment ∣ bytes) :
    alignment ∣ 512 * (bytes / 512) ↔ 512 ∣ bytes := by
  have hsplit := Nat.div_add_mod bytes 512
  have hlt := Nat.mod_lt bytes (by omega : 0 < 512)
  constructor
  · intro hstart
    have hrest : alignment ∣ bytes % 512 := by
      rw [← hsplit] at hdvd
      exact (Nat.dvd_add_right hstart).1 hdvd
    refine Nat.dvd_of_mod_eq_zero (Nat.eq_zero_of_dvd_of_lt hrest ?_)
    omega
  · intro hwhole
    rwa [Nat.mul_div_cancel' hwhole]

/-- **The layout of the numbers is sound** where it ends on the disk and its starts are whole
sectors. -/
theorem sound_exactLayout_iff {p2End alignment disk : Nat} (h512 : 512 ∣ p2End)
    (halign : 512 ≤ alignment) (hfits : exactEnd p2End alignment ≤ disk) :
    Sound p2End alignment disk (exactLayout p2End alignment) ↔
      512 ∣ Host.alignUp p2End alignment ∧
        512 ∣ Host.alignUp p2End alignment + Host.alignUp Host.keysPartitionSize alignment := by
  have hpos : 0 < alignment := by omega
  have hstart := dvd_alignUp p2End alignment
  have hkeysDvd := dvd_alignUp Host.keysPartitionSize alignment
  have hp2 := le_alignUp p2End hpos
  have hkeys := le_alignUp Host.keysPartitionSize hpos
  have hdata := le_alignUp Host.dataPartitionSize hpos
  have hkeys512 : Host.keysPartitionSize = 512 * 131072 := rfl
  have hdata512 : Host.dataPartitionSize = 512 * 524288 := rfl
  unfold exactEnd at hfits
  constructor
  · intro hsound
    refine ⟨?_, ?_⟩
    · exact (dvd_sectors_iff halign hstart).1 hsound.keysAligned
    · exact (dvd_sectors_iff halign (Nat.dvd_add hstart hkeysDvd)).1 hsound.dataAligned
  · rintro ⟨hkeysStart, hdataStart⟩
    refine ⟨?_, ?_, ?_, ?_, ?_, ?_, ?_⟩
    · show p2End ≤ 512 * (Host.alignUp p2End alignment / 512)
      omega
    · show Host.alignUp p2End alignment / 512 + Host.alignUp Host.keysPartitionSize alignment / 512 ≤
        (Host.alignUp p2End alignment + Host.alignUp Host.keysPartitionSize alignment) / 512
      omega
    · show 512 * ((Host.alignUp p2End alignment +
        Host.alignUp Host.keysPartitionSize alignment) / 512 +
          Host.alignUp Host.dataPartitionSize alignment / 512) ≤ disk
      omega
    · exact (dvd_sectors_iff halign hstart).2 hkeysStart
    · exact (dvd_sectors_iff halign (Nat.dvd_add hstart hkeysDvd)).2 hdataStart
    · show Host.keysPartitionSize ≤ 512 * (Host.alignUp Host.keysPartitionSize alignment / 512)
      omega
    · show Host.dataPartitionSize ≤ 512 * (Host.alignUp Host.dataPartitionSize alignment / 512)
      omega

end

/-- The layout of a card: what is returned is sound and nothing wrapped around, and what does not
fit is an error. -/
structure LayoutSound (granularity : Option UInt64) (p2Start p2Size disk : UInt64) : Prop where
  ok : ∀ l, calculateLayout granularity p2Start p2Size disk = .ok l →
    512 * disk.toNat < 2 ^ 64 ∧
      exactEnd (512 * (p2Start.toNat + p2Size.toNat)) (calculateAlignment granularity).toNat <
        2 ^ 64 ∧
      Sound (512 * (p2Start.toNat + p2Size.toNat)) (calculateAlignment granularity).toNat
        (512 * disk.toNat) l.extents
  full : 512 * disk.toNat <
    exactEnd (512 * (p2Start.toNat + p2Size.toNat)) (calculateAlignment granularity).toNat →
      ∃ e, calculateLayout granularity p2Start p2Size disk = .error e

/-- The numbers of a card stay below `2 ^ 64`, and both partitions start at whole sectors. -/
structure Whole (granularity : Option UInt64) (p2Start p2Size disk : UInt64) : Prop where
  disk : 512 * disk.toNat < 2 ^ 64
  dataEnd : exactEnd (512 * (p2Start.toNat + p2Size.toNat))
    (calculateAlignment granularity).toNat < 2 ^ 64
  keys : 512 ∣ Host.alignUp (512 * (p2Start.toNat + p2Size.toNat))
    (calculateAlignment granularity).toNat
  data : 512 ∣ Host.alignUp (512 * (p2Start.toNat + p2Size.toNat))
      (calculateAlignment granularity).toNat +
    Host.alignUp Host.keysPartitionSize (calculateAlignment granularity).toNat

section

variable {granularity : Option UInt64} {p2Start p2Size disk : UInt64}

/-- The calculation of a caller fails where the numbers that are compared say so. -/
theorem calculateLayout_error_iff :
    (∃ e, calculateLayout granularity p2Start p2Size disk = .error e) ↔
      512 * disk.toNat % 2 ^ 64 < exactEnd (512 * (p2Start.toNat + p2Size.toNat) % 2 ^ 64)
        (calculateAlignment granularity).toNat % 2 ^ 64 := by
  have hmin := minAlignment_le granularity
  rw [← toNat_p2End, ← toNat_diskSize]
  exact calculatePartitionLayout_error_iff (by omega)

/-- Where nothing wraps around, what is returned is the layout of the numbers, and it fits. -/
theorem calculateLayout_exact {l : PartitionLayout}
    (hl : calculateLayout granularity p2Start p2Size disk = .ok l)
    (hsize : 512 * disk.toNat < 2 ^ 64)
    (hend : exactEnd (512 * (p2Start.toNat + p2Size.toNat))
      (calculateAlignment granularity).toNat < 2 ^ 64) :
    l.extents = exactLayout (512 * (p2Start.toNat + p2Size.toNat))
        (calculateAlignment granularity).toNat ∧
      exactEnd (512 * (p2Start.toNat + p2Size.toNat)) (calculateAlignment granularity).toNat ≤
        512 * disk.toNat := by
  have hmin := minAlignment_le granularity
  have hpos : 0 < (calculateAlignment granularity).toNat := by omega
  have hle := le_alignUp (512 * (p2Start.toNat + p2Size.toNat)) hpos
  have hin : 512 * (p2Start.toNat + p2Size.toNat) < 2 ^ 64 := by
    unfold exactEnd at hend
    omega
  have hp2 := toNat_p2End p2Start p2Size
  rw [Nat.mod_eq_of_lt hin] at hp2
  constructor
  · rw [← hp2] at hend ⊢
    exact extents_of_ok hpos hend hl
  · by_contra hpast
    obtain ⟨e, he⟩ := calculateLayout_error_iff.2 (by
      rwa [Nat.mod_eq_of_lt hin, Nat.mod_eq_of_lt hsize, Nat.mod_eq_of_lt hend, ← not_le])
    cases hl.symm.trans he

/-- **When the layout is sound**: where the numbers that are compared, reduced to 64 bits, say that
it does not fit, or none of them is reduced and the starts are whole sectors. -/
theorem layout_sound_iff :
    LayoutSound granularity p2Start p2Size disk ↔
      512 * disk.toNat % 2 ^ 64 < exactEnd (512 * (p2Start.toNat + p2Size.toNat) % 2 ^ 64)
          (calculateAlignment granularity).toNat % 2 ^ 64 ∨
        Whole granularity p2Start p2Size disk := by
  have hmin := minAlignment_le granularity
  have halign : 512 ≤ (calculateAlignment granularity).toNat := by omega
  rw [← calculateLayout_error_iff]
  cases hl : calculateLayout granularity p2Start p2Size disk with
  | error e =>
    refine iff_of_true ⟨fun l h => ?_, fun _ => ⟨e, hl⟩⟩ (.inl ⟨e, rfl⟩)
    cases hl.symm.trans h
  | ok l =>
    constructor
    · intro hlayout
      obtain ⟨hsize, hend, hsound⟩ := hlayout.ok l hl
      obtain ⟨hextents, hle⟩ := calculateLayout_exact hl hsize hend
      rw [hextents] at hsound
      obtain ⟨hkeys, hdata⟩ :=
        (sound_exactLayout_iff (Nat.dvd_mul_right _ _) halign hle).1 hsound
      exact .inr ⟨hsize, hend, hkeys, hdata⟩
    · rintro (⟨e, he⟩ | hwhole)
      · cases he
      · obtain ⟨hextents, hle⟩ := calculateLayout_exact hl hwhole.disk hwhole.dataEnd
        refine ⟨fun l' h => ?_, fun hpast => absurd hpast (not_lt.2 hle)⟩
        cases hl.symm.trans h
        rw [hextents]
        exact ⟨hwhole.disk, hwhole.dataEnd, (sound_exactLayout_iff (Nat.dvd_mul_right _ _)
          halign hle).2 ⟨hwhole.keys, hwhole.data⟩⟩

/-- An alignment in whole sectors, on a card whose sector numbers are small, wraps nothing around
and cuts no sector. -/
theorem whole_of_bounds
    (hgranularity : ∀ g, granularity = some g → 512 ∣ g.toNat ∧ g.toNat < 2 ^ 32)
    (hp2 : p2Start.toNat + p2Size.toNat < 2 ^ 54) (hdisk : disk.toNat < 2 ^ 54) :
    Whole granularity p2Start p2Size disk := by
  obtain ⟨hsectors, hbound⟩ : 512 ∣ (calculateAlignment granularity).toNat ∧
      (calculateAlignment granularity).toNat < 2 ^ 32 := by
    rcases calculateAlignment_cases granularity with hmin | ⟨g, hg, halignment⟩
    · rw [hmin]
      decide
    · rw [halignment]
      exact hgranularity g hg
  have hmin := minAlignment_le granularity
  have hpos : 0 < (calculateAlignment granularity).toNat := by omega
  have hstart := alignUp_lt (512 * (p2Start.toNat + p2Size.toNat)) hpos
  have hkeys := alignUp_lt Host.keysPartitionSize hpos
  have hdata := alignUp_lt Host.dataPartitionSize hpos
  have hkeysSize : Host.keysPartitionSize < 2 ^ 32 := by decide
  have hdataSize : Host.dataPartitionSize < 2 ^ 32 := by decide
  have hdvd : ∀ value, 512 ∣ Host.alignUp value (calculateAlignment granularity).toNat :=
    fun value => Nat.dvd_trans hsectors (dvd_alignUp value _)
  refine ⟨by omega, ?_, hdvd _, Nat.dvd_add (hdvd _) (hdvd _)⟩
  unfold exactEnd
  omega

/-- **The layout of a card is sound**: an alignment is a multiple of a sector, below `2 ^ 32` as the
kernel keeps a discard granularity, and a disk has less than `2 ^ 54` sectors, its bytes being
counted in 63 bits. -/
theorem layout_sound (granularity : Option UInt64) (p2Start p2Size disk : UInt64)
    (hgranularity : ∀ g, granularity = some g → 512 ∣ g.toNat ∧ g.toNat < 2 ^ 32)
    (hp2 : p2Start.toNat + p2Size.toNat < 2 ^ 54) (hdisk : disk.toNat < 2 ^ 54) :
    LayoutSound granularity p2Start p2Size disk :=
  layout_sound_iff.2 (.inr (whole_of_bounds hgranularity hp2 hdisk))

end

/-- A card of 32 GB that discards in units of 4 MiB. -/
theorem layout_sound_card : LayoutSound (some 4194304) 532480 4194304 62521344 := by
  refine layout_sound _ _ _ _ ?_ (by decide) (by decide)
  rintro g ⟨⟩
  decide

end Russignol.Storage
