import Russignol.Host.GatherCard
import Russignol.Signer.TestUtils

/-!
# The disk check and the device

What the disk check concludes from a card, against what the device does with it. Both measure how
far a key's floor is behind the head of the chain. The host takes the lowest of the three marks and
saturates the tolerance (`floorSignificantlyBehind`); the device takes the highest and lets it wrap
(`precheck_gap_iff`). `below_head_iff` says for which marks and tolerances the two agree.
-/

namespace Russignol.Host

open CrashProgram FileStore Crypto Bytes

/-! ## Words -/

/-- A saturating difference is that of the naturals. -/
theorem toNat_saturatingSub (a b : UInt32) : (saturatingSub a b).toNat = a.toNat - b.toNat := by
  unfold saturatingSub
  split
  · next h => exact UInt32.toNat_sub_of_le _ _ h
  · next h =>
    have hlt : a.toNat < b.toNat := UInt32.lt_iff_toNat_lt.1 (UInt32.not_le.1 h)
    show 0 = _
    omega

/-- A saturating product is that of the naturals up to the largest word. -/
theorem toNat_saturatingMul (a b : UInt32) :
    (saturatingMul a b).toNat = min (a.toNat * b.toNat) (2 ^ 32 - 1) := by
  rw [saturatingMul, UInt32.toNat_ofNat']
  exact Nat.mod_eq_of_lt (by omega)

/-- The maximum of words is that of the naturals. -/
theorem toNat_max (a b : UInt32) : (max a b).toNat = max a.toNat b.toNat := by
  show (if a ≤ b then b else a).toNat = _
  split
  · next h => rw [Nat.max_eq_right (UInt32.le_iff_toNat_le.1 h)]
  · next h => rw [Nat.max_eq_left (UInt32.le_iff_toNat_le.1 (UInt32.le_of_lt (UInt32.not_le.1 h)))]

/-- The minimum of words is that of the naturals. -/
theorem toNat_min (a b : UInt32) : (min a b).toNat = min a.toNat b.toNat := by
  show (if a ≤ b then a else b).toNat = _
  split
  · next h => rw [Nat.min_eq_left (UInt32.le_iff_toNat_le.1 h)]
  · next h =>
    rw [Nat.min_eq_right (UInt32.le_iff_toNat_le.1 (UInt32.le_of_lt (UInt32.not_le.1 h)))]

/-! ## The two gaps -/

/-- The lowest of the levels of a key's marks. -/
def lowest (levels : OperationType → UInt32) : Nat :=
  min (min (levels .block).toNat (levels .preattestation).toNat) (levels .attestation).toNat

/-- The highest of them. -/
def highest (levels : OperationType → UInt32) : Nat :=
  max (max (levels .block).toNat (levels .preattestation).toNat) (levels .attestation).toNat

/-- The cycles of the tolerance, in blocks. -/
def tolerance (blocksPerCycle : UInt32) : Nat := 4 * blocksPerCycle.toNat

/-- The host flags a floor that is further behind than the tolerance, up to the largest word. -/
theorem floorSignificantlyBehind_iff (floor : UInt32) (node : ChainInfo) :
    floorSignificantlyBehind floor node = true ↔
      min (tolerance node.blocksPerCycle) (2 ^ 32 - 1) < node.level.toNat - floor.toNat := by
  have hcycles : largeGapCycles.toNat = 4 := rfl
  rw [floorSignificantlyBehind, decide_eq_true_iff, gt_iff_lt, UInt32.lt_iff_toNat_lt,
    toNat_saturatingSub, toNat_saturatingMul, hcycles]
  rfl

/-- The three record files of a key hold authenticated records. -/
structure Marked [Blake3] [Base58] (img : CardImage) (pkh : PublicKeyHash)
    (macKey : Watermark.MacKey) (chain : ChainId) (levels rounds : OperationType → UInt32) :
    Prop where
  file : ∀ t, ∃ f, img.records pkh.toB58check t = some f ∧ f.readable = true ∧
    f.content = (Watermark.encodeAuthenticated macKey chain.bytes.1 (levels t) (rounds t)).1

section

variable [Blake3] [Base58] {img : CardImage} {pkh : PublicKeyHash} {macKey : Watermark.MacKey}
  {chain : ChainId} {levels rounds : OperationType → UInt32}

/-- A key with marks has a directory. -/
theorem Marked.dir (h : Marked img pkh macKey chain levels rounds) :
    (img.dir pkh.toB58check).any (·.isDir) = true := by
  obtain ⟨f, hf, -⟩ := h.file .block
  exact img.contained _ .block (by rw [hf]; rfl)

/-- The host finds the three levels. -/
theorem Marked.minLevel (h : Marked img pkh macKey chain levels rounds) :
    ∃ level, (readKeyWatermarks img pkh.toB58check).minLevel = some level ∧
      level.toNat = lowest levels := by
  have hstatus : ∀ t, (readWatermarkFile img pkh.toB58check t).level? = some (levels t) := by
    intro t
    obtain ⟨f, hf, hreadable, hcontent⟩ := h.file t
    simp only [WatermarkFile.level?, readWatermarkFile, hf, Option.bind_some, CardFile.read,
      hreadable, if_true, hcontent, decodeWatermarkPrefix_authenticated]
  have hfiles : (readKeyWatermarks img pkh.toB58check).files =
      OperationType.all.map (readWatermarkFile img pkh.toB58check) := by
    simp only [readKeyWatermarks, h.dir, if_true]
  have hlevels : (OperationType.all.map (readWatermarkFile img pkh.toB58check)).filterMap
      (·.level?) = [levels .block, levels .preattestation, levels .attestation] := by
    simp only [OperationType.all, List.map_cons, List.map_nil, List.filterMap_cons, hstatus,
      List.filterMap_nil]
  refine ⟨min (min (levels .block) (levels .preattestation)) (levels .attestation), ?_, ?_⟩
  · rw [KeyWatermarks.minLevel, hfiles, hlevels]
    rfl
  · rw [toNat_min, toNat_min, lowest]

/-- The device loads the three files. -/
theorem Marked.load (h : Marked img pkh macKey chain levels rounds) (t : OperationType) :
    loadEntryAuthenticated macKey chain.bytes.1 (img.onDevice.disk.files pkh t) =
      some ⟨levels t, rounds t⟩ := by
  obtain ⟨f, hf, -, hcontent⟩ := h.file t
  have hfile : img.onDevice.disk.files pkh t =
      (Watermark.encodeAuthenticated macKey chain.bytes.1 (levels t) (rounds t)).1 := by
    simp only [CardImage.onDevice, hf, Option.map_some, Option.getD_some, hcontent]
  rw [hfile]
  exact loadEntryAuthenticated_encode macKey chain.bytes.1 ⟨levels t, rounds t⟩

/-- The device finds the three levels. -/
theorem Marked.getMaxLevel (h : Marked img pkh macKey chain levels rounds) {wm : HighWatermark}
    (hkey : wm.keys pkh = some (loadPerKeyWatermark img.onDevice.disk pkh macKey chain.bytes.1)) :
    ∃ level, wm.getMaxLevel pkh = some level ∧ level.toNat = highest levels := by
  refine ⟨max (max (levels .block) (levels .preattestation)) (levels .attestation), ?_, ?_⟩
  · simp only [HighWatermark.getMaxLevel, hkey, Option.bind_some, loadPerKeyWatermark, h.load,
      OperationType.all, List.filterMap_cons, List.filterMap_nil, Option.map_some]
    rfl
  · rw [toNat_max, toNat_max, highest]

omit [Blake3] [Base58] in
/-- A request is refused for a large gap. -/
def RefusedForGap (r : Option (ServerError × List Callback)) : Prop :=
  ∃ current requested gap cycles callbacks,
    r = some (.watermark (.largeLevelGap current requested gap cycles), callbacks)

omit [Blake3] in
/-- The device refuses a level that is further ahead of the highest mark than the tolerance, as far
as it did not wrap. -/
theorem precheck_gap_iff {h : RequestHandler} {blocksPerCycle : UInt32}
    (hwatermark : h.watermark = true) (hcallback : h.largeGapCallback = true)
    (hcycle : h.blocksPerCycle = some blocksPerCycle) (hpositive : 0 < blocksPerCycle)
    {seen : HighWatermark} {parsed : ParsedSignPayload} {chainId : ChainId} {level current : UInt32}
    (hchain : parsed.chainId = some chainId) (hlevel : parsed.level = some level)
    (hmax : seen.getMaxLevel pkh = some current) :
    RefusedForGap (h.precheck seen pkh parsed) ↔
      tolerance blocksPerCycle % 2 ^ 32 < level.toNat - current.toNat := by
  have hcycles : largeGapCycles.toNat = 4 := rfl
  have hgap : saturatingSub level current > largeGapCycles * blocksPerCycle ↔
      tolerance blocksPerCycle % 2 ^ 32 < level.toNat - current.toNat := by
    rw [gt_iff_lt, UInt32.lt_iff_toNat_lt, toNat_saturatingSub, UInt32.toNat_mul, hcycles]
    rfl
  rw [← hgap]
  simp only [RequestHandler.precheck, hchain, hwatermark, hlevel, hcallback, hcycle,
    Option.any_some, hpositive, gt_iff_lt, decide_true, Bool.and_self, Bool.true_or, if_true,
    HighWatermark.getCurrentLevel, hmax, Option.getD_some]
  change RefusedForGap (if largeGapCycles * blocksPerCycle < saturatingSub level current then _
    else _) ↔ _
  by_cases hbehind : largeGapCycles * blocksPerCycle < saturatingSub level current
  · rw [if_pos hbehind]
    exact iff_of_true ⟨_, _, _, _, _, rfl⟩ hbehind
  · rw [if_neg hbehind]
    refine iff_of_false ?_ hbehind
    rintro ⟨_, _, _, _, _, h⟩
    cases h

/-- The host flags the key. -/
def BelowHead (issues : List Issue) : Prop := ∃ i ∈ issues, i.kind = .watermarkBelowHead

/-- The host flags a key whose lowest mark is further behind than the tolerance, as far as it is a
word. -/
theorem Marked.belowHead_iff (h : Marked img pkh macKey chain levels rounds) (node : ChainInfo)
    (seedsPending : Bool) :
    BelowHead (classifyKeyWatermarks (readKeyWatermarks img pkh.toB58check) (some node)
      seedsPending) ↔
    min (tolerance node.blocksPerCycle) (2 ^ 32 - 1) < node.level.toNat - lowest levels := by
  obtain ⟨level, hmin, hlowest⟩ := h.minLevel
  have hdir : (readKeyWatermarks img pkh.toB58check).dirPresent = true := h.dir
  have hflag := floorSignificantlyBehind_iff level node
  rw [hlowest] at hflag
  rw [← hflag]
  constructor
  · rintro ⟨i, hi, hkind⟩
    rw [classifyKeyWatermarks, hdir] at hi
    simp only [Bool.not_true, Bool.false_eq_true, if_false, List.mem_append,
      List.mem_flatMap] at hi
    rcases hi with (⟨file, -, hi⟩ | hi) | hi
    · unfold classifyWatermarkFile at hi
      split at hi
      · cases List.mem_singleton.1 hi
        cases hkind
      · cases List.mem_singleton.1 hi
        cases hkind
      · cases List.mem_singleton.1 hi
        cases hkind
      · cases hi
    · simp only [classifyBelowHead, hmin] at hi
      split at hi
      · assumption
      · cases hi
    · split at hi
      · cases List.mem_singleton.1 hi
        cases hkind
      · cases hi
  · intro hbehind
    have hmem : ∃ i ∈ classifyBelowHead (readKeyWatermarks img pkh.toB58check) (some node),
        i.kind = .watermarkBelowHead := by
      simp only [classifyBelowHead, hmin, hbehind, if_true]
      exact ⟨_, List.mem_singleton.2 rfl, rfl⟩
    obtain ⟨i, hi, hkind⟩ := hmem
    refine ⟨i, ?_, hkind⟩
    rw [classifyKeyWatermarks, hdir]
    simp only [Bool.not_true, Bool.false_eq_true, if_false, List.mem_append]
    exact .inl (.inr hi)

/-- **The host flags a key exactly when the device refuses it** for a large gap, if and only if the
tolerance is a word and the lowest and the highest mark are on the same side of it, or it wraps and
the highest mark is within what is left of it. -/
theorem below_head_iff (h : Marked img pkh macKey chain levels rounds) {node : ChainInfo}
    (hcycle : 0 < node.blocksPerCycle) {wm : HighWatermark}
    (hkey : wm.keys pkh = some (loadPerKeyWatermark img.onDevice.disk pkh macKey chain.bytes.1))
    (keys : KeyManager) {parsed : ParsedSignPayload} {chainId : ChainId}
    (hchain : parsed.chainId = some chainId) (hlevel : parsed.level = some node.level)
    (seedsPending : Bool) :
    (BelowHead (classifyKeyWatermarks (readKeyWatermarks img pkh.toB58check) (some node)
        seedsPending) ↔
      RefusedForGap ((RequestHandler.ofSigner keys chain (some node.blocksPerCycle)).precheck wm pkh
        parsed)) ↔
    (tolerance node.blocksPerCycle < 2 ^ 32 ∧
        (node.level.toNat - lowest levels ≤ tolerance node.blocksPerCycle ∨
          tolerance node.blocksPerCycle < node.level.toNat - highest levels)) ∨
      (2 ^ 32 ≤ tolerance node.blocksPerCycle ∧
        node.level.toNat - highest levels ≤ tolerance node.blocksPerCycle % 2 ^ 32) := by
  obtain ⟨current, hmax, hhighest⟩ := h.getMaxLevel hkey
  rw [h.belowHead_iff, precheck_gap_iff rfl rfl rfl hcycle hchain hlevel hmax, hhighest]
  have hle : lowest levels ≤ highest levels := by
    simp only [lowest, highest]
    omega
  have hword := node.level.toNat_lt
  by_cases hwraps : tolerance node.blocksPerCycle < 2 ^ 32
  · rw [Nat.mod_eq_of_lt hwraps]
    omega
  · omega

end

/-- A card whose keys all hold the three records of these levels. -/
def CardImage.ofLevels [Blake3] (keys : KeysFile → Option CardFile) (macKey : Watermark.MacKey)
    (chain : ChainId) (levels : OperationType → UInt32) : CardImage where
  boot := none
  keysRoot := (deviceOwner, 0o755)
  keys := keys
  dir _ := some ⟨true, deviceOwner⟩
  records _ t := some {
    owner := deviceOwner, mode := 0o600, readable := true
    content := (Watermark.encodeAuthenticated macKey chain.bytes.1 (levels t) 0).1 }
  logsDir := true
  panicLog := none
  contained _ _ _ := rfl

section

attribute [local instance] plainBlake3 plainBase58

/-- The card of a key whose block mark may be behind the others. -/
def laggingImage (block : UInt32) : CardImage :=
  .ofLevels (fun _ => none) (zeros 32) testChain fun
    | .block => block
    | _ => 2000

/-- The card of the example has its marks. -/
theorem laggingImage_marked (block : UInt32) :
    Marked (laggingImage block) (testKey 0) (zeros 32) testChain
      (fun | .block => block | _ => 2000) fun _ => 0 :=
  ⟨fun _ => ⟨_, rfl, rfl, rfl⟩⟩

/-- The watermarks the device loads from it. -/
def laggingWatermark (block : UInt32) : HighWatermark where
  knownPkhs := [testKey 0]
  keys _ := some (loadPerKeyWatermark (laggingImage block).onDevice.disk (testKey 0) (zeros 32)
    testChain.bytes.1)
  macKeys _ := some (zeros 32)
  chainId := testChain

/-- A node with a cycle of 100 blocks. -/
def shortCycleNode (level : UInt32) : ChainInfo := ⟨"NetXtest", level, "test", 100⟩

/-- An attestation at a level. -/
def attestationAt (level : UInt32) : ParsedSignPayload :=
  ⟨some testChain, some .attestation, some level, some 0⟩

/-- A block mark far behind the other two: the host and the device judge by the same level. -/
theorem below_head_far_behind :
    BelowHead (classifyKeyWatermarks (readKeyWatermarks (laggingImage 2000) (testKey 0).toB58check)
        (some (shortCycleNode 9000)) false) ↔
      RefusedForGap ((RequestHandler.ofSigner ⟨∅, ∅⟩ testChain (some 100)).precheck
        (laggingWatermark 2000) (testKey 0) (attestationAt 9000)) :=
  (@below_head_iff plainBlake3 plainBase58 _ _ _ _ _ _ (laggingImage_marked 2000)
    (shortCycleNode 9000) (by decide) (laggingWatermark 2000) rfl ⟨∅, ∅⟩ (attestationAt 9000)
    testChain rfl rfl false).2 (.inl (by decide))

end

/-- One mark that lags is flagged, and does not stop the device. -/
theorem below_head_lagging_mark : ¬∀ [Blake3] [Base58] (img : CardImage) (pkh : PublicKeyHash)
    (macKey : Watermark.MacKey) (chain : ChainId) (levels rounds : OperationType → UInt32)
    (node : ChainInfo) (wm : HighWatermark) (keys : KeyManager) (parsed : ParsedSignPayload)
    (chainId : ChainId) (seedsPending : Bool),
    Marked img pkh macKey chain levels rounds → 0 < node.blocksPerCycle →
    wm.keys pkh = some (loadPerKeyWatermark img.onDevice.disk pkh macKey chain.bytes.1) →
    parsed.chainId = some chainId → parsed.level = some node.level →
    (BelowHead (classifyKeyWatermarks (readKeyWatermarks img pkh.toB58check) (some node)
        seedsPending) ↔
      RefusedForGap ((RequestHandler.ofSigner keys chain (some node.blocksPerCycle)).precheck wm pkh
        parsed)) := by
  intro hall
  have hagree := @hall plainBlake3 plainBase58 (laggingImage 1000) (testKey 0) (zeros 32) testChain
    _ _ (shortCycleNode 2000) (laggingWatermark 1000) ⟨∅, ∅⟩ (attestationAt 2000) testChain false
    (laggingImage_marked 1000) (by decide) rfl rfl rfl
  have hsides := (@below_head_iff plainBlake3 plainBase58 _ _ _ _ _ _ (laggingImage_marked 1000)
    (shortCycleNode 2000) (by decide) (laggingWatermark 1000) rfl ⟨∅, ∅⟩ (attestationAt 2000)
    testChain rfl rfl false).1 hagree
  exact absurd hsides (by decide)

end Russignol.Host
