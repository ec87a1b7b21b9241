import Russignol.Host.ReadBack
import Russignol.Host.ReleaseTrust
import Russignol.Rpi.InitScript

/-!
# The check of the root file system

`rpi-signer/src/rootfs_check.rs`: before it sets anything up the signer hashes the partition of the
root file system and compares it with what the host recorded when it wrote the image. The host
hashed the stream that went to the card (`Host/RootfsHash`), and the device reads what is on the
card: the two agree exactly where the partition holds the root file system of the image
(`first_boot_checks_rootfs`), and where they do not the first boot ends.

`/proc/mounts` is read back from the mounts it lists (`rootfsMountedReadonly_render`).
-/

namespace Russignol

open Host TextCodec
open TezosEncrypt (isWhitespace)

/-! ## The mounts -/

/-- The options of a line that is of `/`: whether `ro` is one of them. -/
def rootMount (line : List Char) : Option Bool :=
  match words isWhitespace line with
  | _device :: mountPoint :: _fstype :: options :: _ =>
    if mountPoint = ['/'] then some ((options.splitOn ',').contains ['r', 'o']) else none
  | _ => none

/-- `rootfs_mounted_readonly`. -/
def rootfsMountedReadonly (procMounts : String) : Bool :=
  ((lines procMounts.toList).filterMap rootMount).getLast?.getD false

/-- A line of `/proc/mounts`. -/
structure Mount where
  device : List Char
  mountPoint : List Char
  fstype : List Char
  options : List (List Char)

namespace Mount

/-- Its words. -/
def fields (m : Mount) : List (List Char) :=
  [m.device, m.mountPoint, m.fstype, [','].intercalate m.options, ['0'], ['0']]

/-- Its text. -/
def render (m : Mount) : List Char := [' '].intercalate m.fields

/-- White space is escaped, and options hold no comma. -/
structure WellFormed (m : Mount) : Prop where
  plain : ∀ w ∈ m.fields, w ≠ [] ∧ ∀ c ∈ w, isWhitespace c = false
  nonempty : m.options ≠ []
  options : ∀ o ∈ m.options, ',' ∉ o

end Mount

/-! ## The hash -/

/-- The state of the loop of `sha256_hex_of`, with what it reported. -/
structure HashLoop where
  hashed : List UInt8
  done : Nat
  lastPercent : Nat
  reported : List Nat

namespace HashLoop

/-- Before the loop. -/
def start : HashLoop := ⟨[], 0, 255, []⟩

/-- A buffer that was read. -/
def step (total : Nat) (l : HashLoop) (buf : List UInt8) : HashLoop :=
  let l := { l with hashed := l.hashed ++ buf, done := l.done + buf.length }
  if total = 0 then l
  else
    let percent := min (l.done * 100 / total) 100
    if percent = l.lastPercent then l
    else { l with lastPercent := percent, reported := l.reported ++ [percent] }

/-- The loop: an empty buffer is the end, or the reads end as they do. -/
def run (total : Nat) (ending : Except String Unit) :
    List (List UInt8) → HashLoop → Except String Unit × HashLoop
  | [], l => (ending, l)
  | buf :: bufs, l => if buf = [] then (.ok (), l) else run total ending bufs (l.step total buf)

end HashLoop

/-! ## The check -/

/-- `RootfsCheck`. -/
inductive RootfsCheck
  | verified
  | mismatch (expected actual : String)
  | skipped (reason : String)
  deriving DecidableEq, Repr

/-- What a check is answered: `/proc/mounts`; the mount of the boot partition and the manifest on
it; the size of the partition of the root file system, the buffers that are read of it, and how the
reads end. -/
structure CheckIo where
  mounts : Except String String
  mountBoot : Except String Unit
  manifest : Except FileStore.IoError String
  opened : Except String Nat
  buffers : List (List UInt8)
  ending : Except String Unit

section
variable [Sha256]

/-- `sha256_hex_of`, with the percentages it reports. -/
def sha256HexOf (io : CheckIo) : Except String String × List Nat :=
  match io.opened with
  | .error e => (.error e, [])
  | .ok total =>
    let (ending, l) := HashLoop.run total io.ending io.buffers .start
    (ending.map fun _ => Sha256.hexDigest l.hashed, l.reported)

variable [JsonText]

omit [Sha256] in
/-- `expected_rootfs_hash`. -/
def expectedRootfsHash (manifestJson : String) : Except String (Option String) :=
  match JsonText.decode "struct FlashManifest" FlashManifest.ofJson manifestJson with
  | .ok manifest => .ok manifest.rootfsSha256
  | .error e => .error ("cannot parse the flash manifest: " ++ e)

omit [Sha256] in
/-- `staged_manifest_hash`. -/
def stagedManifestHash (io : CheckIo) : Except String (Option String) :=
  match io.mountBoot with
  | .error e => .error e
  | .ok () =>
    match io.manifest with
    | .ok json => expectedRootfsHash json
    | .error e =>
      if e.kind = .notFound then .ok none
      else .error ("cannot read the flash manifest: " ++ e.text)

/-- `verify_rootfs`, with the percentages it reports. -/
def verifyRootfs (io : CheckIo) : RootfsCheck × List Nat :=
  match io.mounts with
  | .error e => (.skipped ("cannot read /proc/mounts: " ++ e), [])
  | .ok mounts =>
    if !rootfsMountedReadonly mounts then
      (.skipped "rootfs is mounted read-write; its bytes are expected to change", [])
    else
      match stagedManifestHash io with
      | .error e => (.skipped e, [])
      | .ok none => (.skipped "flash manifest records no rootfs hash", [])
      | .ok (some expected) =>
        match sha256HexOf io with
        | (.error e, reported) => (.skipped ("cannot hash /dev/mmcblk0p2: " ++ e), reported)
        | (.ok actual, reported) =>
          if eqIgnoreAsciiCase actual expected then (.verified, reported)
          else (.mismatch expected actual, reported)

end

/-- `verify_rootfs_integrity`: whether it returns. -/
def RootfsCheck.passes : RootfsCheck → Bool
  | mismatch _ _ => false
  | verified | skipped _ => true

/-! ## The mounts, read back -/

namespace Mount

variable {m : Mount}

/-- A mount is a line. -/
theorem WellFormed.isLine (h : m.WellFormed) : IsLine m.render := by
  constructor
  · intro hmem
    rcases mem_intercalate hmem with hc | ⟨w, hw, hc⟩
    · exact absurd hc (by decide)
    · exact absurd ((h.plain w hw).2 _ hc) (by decide)
  · have hlast : m.render = [' '].intercalate [m.device, m.mountPoint, m.fstype,
        [','].intercalate m.options, ['0']] ++ [' '] ++ ['0'] := by
      simp [render, fields]
    rw [hlast, List.getLast?_concat]
    decide

/-- What is told of a mount. -/
theorem WellFormed.rootMount_render (h : m.WellFormed) : rootMount m.render =
    if m.mountPoint = ['/'] then some (m.options.contains ['r', 'o']) else none := by
  have hwords : words isWhitespace m.render = m.fields :=
    words_intercalate (by decide) h.plain
  rw [rootMount, hwords, fields]
  dsimp only
  rw [List.splitOn_intercalate ',' h.options h.nonempty]

end Mount

/-- **The last mount of `/` decides**, by an option that is `ro`. -/
theorem rootfsMountedReadonly_render {mounts : List Mount} (h : ∀ m ∈ mounts, m.WellFormed) :
    rootfsMountedReadonly (String.ofList ((mounts.map Mount.render).flatMap (· ++ ['\n']))) =
      (((mounts.filter (·.mountPoint = ['/'])).getLast?).map
        (·.options.contains ['r', 'o'])).getD false := by
  have hlines : ∀ l ∈ mounts.map Mount.render, IsLine l := by
    intro l hl
    obtain ⟨m, hm, rfl⟩ := List.mem_map.1 hl
    exact (h m hm).isLine
  rw [rootfsMountedReadonly, String.toList_ofList, lines_flatMap hlines, List.filterMap_map,
    ← List.getLast?_map]
  congr 2
  clear hlines
  induction mounts with
  | nil => rfl
  | cons m mounts ih =>
    have hmount : (rootMount ∘ Mount.render) m = _ := (h m List.mem_cons_self).rootMount_render
    have ih := ih fun m' hm' => h m' (List.mem_cons_of_mem _ hm')
    rw [List.filterMap_cons, hmount, List.filter_cons]
    by_cases hroot : m.mountPoint = ['/']
    · rw [if_pos hroot, if_pos (decide_eq_true hroot), List.map_cons]
      exact congrArg (_ :: ·) ih
    · rw [if_neg hroot, if_neg fun hpos => hroot (of_decide_eq_true hpos)]
      exact ih

/-! ## The loop -/

/-- The percentage of a part. -/
def percent (total done : Nat) : Nat := min (done * 100 / total) 100

theorem percent_mono {total done done' : Nat} (h : done ≤ done') :
    percent total done ≤ percent total done' := by
  have hdiv : done * 100 / total ≤ done' * 100 / total :=
    Nat.div_le_div_right (Nat.mul_le_mul_right 100 h)
  unfold percent
  omega

namespace HashLoop

variable {total : Nat} {l : HashLoop}

/-- The percentages are reported in order and each once, up to that of what was read. -/
structure Running (total : Nat) (l : HashLoop) : Prop where
  sorted : l.reported.Pairwise (· < ·)
  below : ∀ p ∈ l.reported, p ≤ percent total l.done
  last : (l.reported = [] ∧ l.lastPercent = 255 ∧ (total = 0 ∨ l.done = 0)) ∨
    l.reported.getLast? = some l.lastPercent ∧ l.lastPercent = percent total l.done

theorem Running.start (total : Nat) : Running total .start :=
  ⟨List.Pairwise.nil, fun _ h => absurd h List.not_mem_nil, .inl ⟨rfl, rfl, .inr rfl⟩⟩

/-- A buffer. -/
theorem Running.step (h : Running total l) (buf : List UInt8) :
    Running total (l.step total buf) ∧ (l.step total buf).hashed = l.hashed ++ buf ∧
      (l.step total buf).done = l.done + buf.length := by
  have hmono : percent total l.done ≤ percent total (l.done + buf.length) :=
    percent_mono (Nat.le_add_right _ _)
  have hbelow : ∀ p ∈ l.reported, p ≤ percent total (l.done + buf.length) :=
    fun p hp => (h.below p hp).trans hmono
  unfold HashLoop.step
  dsimp only
  split
  · rename_i htotal
    refine ⟨⟨h.sorted, hbelow, ?_⟩, rfl, rfl⟩
    rcases h.last with ⟨hnone, hlast, -⟩ | ⟨hlast, hpercent⟩
    · exact .inl ⟨hnone, hlast, .inl htotal⟩
    · refine .inr ⟨hlast, hpercent.trans ?_⟩
      rw [percent, percent, htotal, Nat.div_zero, Nat.div_zero]
  · split
    · rename_i hsame
      refine ⟨⟨h.sorted, hbelow, ?_⟩, rfl, rfl⟩
      rcases h.last with ⟨-, hlast, -⟩ | ⟨hlast, -⟩
      · have hle : percent total (l.done + buf.length) ≤ 100 := Nat.min_le_right _ _
        have heq : percent total (l.done + buf.length) = 255 := hsame.trans hlast
        omega
      · exact .inr ⟨hlast, hsame.symm⟩
    · rename_i hnew
      refine ⟨⟨?_, ?_, .inr ⟨List.getLast?_concat, rfl⟩⟩, rfl, rfl⟩
      · refine List.pairwise_append.2 ⟨h.sorted, List.pairwise_singleton _ _, fun p hp q hq => ?_⟩
        rw [List.mem_singleton.1 hq]
        refine lt_of_le_of_ne (hbelow p hp) ?_
        rintro (heq : p = percent total (l.done + buf.length))
        rcases h.last with ⟨hnone, -, -⟩ | ⟨-, hpercent⟩
        · rw [hnone] at hp
          exact absurd hp List.not_mem_nil
        · have hple := h.below p hp
          have hne : percent total (l.done + buf.length) ≠ l.lastPercent := hnew
          omega
      · intro p hp
        rcases List.mem_append.1 hp with hp | hp
        · exact hbelow p hp
        · rw [List.mem_singleton.1 hp]
          exact le_rfl

/-- **The loop** reports in order, whatever is read. -/
theorem Running.run (ending : Except String Unit) : ∀ (bufs : List (List UInt8)) {l : HashLoop},
    Running total l → Running total (HashLoop.run total ending bufs l).2 ∧
      ([] ∉ bufs → (HashLoop.run total ending bufs l).1 = ending ∧
        (HashLoop.run total ending bufs l).2.hashed = l.hashed ++ bufs.flatten ∧
        (HashLoop.run total ending bufs l).2.done = l.done + bufs.flatten.length)
  | [], l, h => by
    refine ⟨h, fun _ => ⟨rfl, ?_, rfl⟩⟩
    rw [List.flatten_nil, List.append_nil]
    rfl
  | buf :: bufs, l, h => by
    rw [HashLoop.run]
    split
    · rename_i hempty
      exact ⟨h, fun hmem => absurd (hempty ▸ List.mem_cons_self) hmem⟩
    · obtain ⟨hstep, hhashed, hdone⟩ := h.step buf
      obtain ⟨hrun, hall⟩ := hstep.run ending bufs
      refine ⟨hrun, fun hmem => ?_⟩
      obtain ⟨hending, hhashed', hdone'⟩ := hall fun hin => hmem (List.mem_cons_of_mem _ hin)
      refine ⟨hending, ?_, ?_⟩
      · rw [hhashed', hhashed, List.flatten_cons, List.append_assoc]
      · rw [hdone', hdone, List.flatten_cons, List.length_append, Nat.add_assoc]

end HashLoop

/-- The partition is read, in some buffers, to its end. -/
structure CheckIo.Reads (io : CheckIo) (partition : List UInt8) : Prop where
  opened : io.opened = .ok partition.length
  buffers : io.buffers.flatten = partition
  nonempty : [] ∉ io.buffers
  ending : io.ending = .ok ()

section
variable [Sha256] {io : CheckIo}

/-- **The hash of the partition** does not depend on the buffers, and its percentages rise to
100. -/
theorem sha256HexOf_reads {partition : List UInt8} (h : io.Reads partition) :
    (sha256HexOf io).1 = .ok (Sha256.hexDigest partition) ∧
      (partition ≠ [] → (sha256HexOf io).2.getLast? = some 100) := by
  obtain ⟨hrun, hall⟩ := (HashLoop.Running.start partition.length).run io.ending
    io.buffers
  obtain ⟨hending, hhashed, hdone⟩ := hall h.nonempty
  rw [h.buffers] at hhashed hdone
  rw [sha256HexOf, h.opened]
  refine ⟨?_, fun hne => ?_⟩
  · change (HashLoop.run _ _ _ _).1.map (fun _ =>
      Sha256.hexDigest (HashLoop.run _ _ _ _).2.hashed) = _
    rw [hending, hhashed, h.ending]
    rfl
  · have hpos : 0 < partition.length := List.length_pos_iff.2 hne
    have hdone : (HashLoop.run partition.length io.ending io.buffers .start).2.done =
        partition.length := hdone.trans (Nat.zero_add _)
    rcases hrun.last with ⟨-, -, hzero⟩ | ⟨hlast, hpercent⟩
    · omega
    · refine hlast.trans (congrArg some (hpercent.trans ?_))
      rw [hdone, percent, Nat.mul_div_cancel_left _ hpos]
      rfl

/-- Whatever is answered, the percentages rise. -/
theorem verifyRootfs_reported [JsonText] (io : CheckIo) :
    (verifyRootfs io).2.Pairwise (· < ·) ∧ ∀ p ∈ (verifyRootfs io).2, p ≤ 100 := by
  have hhash : (sha256HexOf io).2.Pairwise (· < ·) ∧ ∀ p ∈ (sha256HexOf io).2, p ≤ 100 := by
    unfold sha256HexOf
    split
    · exact ⟨List.Pairwise.nil, fun _ h => absurd h List.not_mem_nil⟩
    · rename_i total _
      have hrun := ((HashLoop.Running.start total).run io.ending io.buffers).1
      exact ⟨hrun.sorted, fun p hp => (hrun.below p hp).trans (Nat.min_le_right _ _)⟩
  have hnil : ([] : List Nat).Pairwise (· < ·) ∧ ∀ p ∈ ([] : List Nat), p ≤ 100 :=
    ⟨List.Pairwise.nil, fun _ h => absurd h List.not_mem_nil⟩
  unfold verifyRootfs
  split
  · exact hnil
  · split
    · exact hnil
    · split
      · exact hnil
      · exact hnil
      · split
        · rename_i hreported
          rw [hreported] at hhash
          exact hhash
        · rename_i hreported
          rw [hreported] at hhash
          split <;> exact hhash

end

/-! ## The image and the card -/

/-- The root file system of a stream, by the table in its first sector. -/
def rootfsOf (stream : List UInt8) : Option (List UInt8) :=
  match rootfsRegion (stream.take mbrLen) with
  | .error _ => none
  | .ok (start, stop) =>
    if mbrLen ≤ stream.length ∧ stop ≤ stream.length then some ((stream.take stop).drop start)
    else none

/-- A card that holds an image holds its root file system. -/
theorem rootfsOf_of_take {image bytes rootfs : List UInt8}
    (htake : bytes.take image.length = image) (h : rootfsOf image = some rootfs) :
    rootfsOf bytes = some rootfs := by
  have hlen : image.length ≤ bytes.length := by
    have hlength := congrArg List.length htake
    rw [List.length_take] at hlength
    omega
  unfold rootfsOf at h ⊢
  have hstart : ∀ n ≤ image.length, bytes.take n = image.take n := by
    intro n hn
    conv_rhs => rw [← htake]
    rw [List.take_take, Nat.min_eq_left hn]
  split at h
  · cases h
  · rename_i start stop hregion
    split at h
    · rename_i hfits
      rw [hstart _ hfits.1, hregion]
      dsimp only
      rw [if_pos ⟨hfits.1.trans hlen, hfits.2.trans hlen⟩, hstart _ hfits.2]
      exact h
    · cases h

section
variable [Sha256]

/-- What the host hashes on the way is the digest of the root file system. -/
theorem toOption_rootfsDigest (stream : List UInt8) :
    (rootfsDigest stream).toOption = (rootfsOf stream).map Sha256.hexDigest := by
  unfold rootfsDigest rootfsOf
  cases hregion : rootfsRegion (stream.take mbrLen) with
  | error e => split <;> rfl
  | ok region =>
    obtain ⟨start, stop⟩ := region
    dsimp only
    by_cases hmbr : stream.length < mbrLen
    · rw [if_pos hmbr, if_neg fun h => absurd h.1 (Nat.not_le.2 hmbr)]
      rfl
    · rw [if_neg hmbr]
      by_cases hstop : stream.length < stop
      · rw [if_pos hstop, if_neg fun h => absurd h.2 (Nat.not_le.2 hstop)]
        rfl
      · rw [if_neg hstop, if_pos ⟨Nat.not_lt.1 hmbr, Nat.not_lt.1 hstop⟩]
        rfl

/-- The hash that a flash records. -/
theorem flashImageLinux_rootfs [XzDecoder] {io : ReadBack.CardIo} {image : ReadBack.ImageFile}
    {card : List UInt8} {f : ReadBack.Flashed}
    (h : ReadBack.flashImageLinux io image card = .ok f) :
    f.rootfsSha256 = (rootfsOf image.decompressed).map Sha256.hexDigest := by
  obtain ⟨_, -, h⟩ := bind_eq_ok h
  obtain ⟨⟨handed, rootfsHash⟩, hstream, h⟩ := bind_eq_ok h
  obtain ⟨-, rfl, -⟩ := ReadBack.streams_eq hstream
  simp only at h
  split at h
  · cases h
  · split at h
    · cases h
    · cases h
      exact toOption_rootfsDigest _

/-- Digests are in lower case. -/
theorem eqIgnoreAsciiCase_hexDigest [LawfulSha256] (xs ys : List UInt8) :
    eqIgnoreAsciiCase (Sha256.hexDigest xs) (Sha256.hexDigest ys) = true ↔
      Sha256.hexDigest xs = Sha256.hexDigest ys := by
  have hlower : ∀ bytes, (Sha256.hexDigest bytes).toList.map Char.toLower =
      (Sha256.hexDigest bytes).toList := by
    intro bytes
    obtain ⟨digest, hdigest⟩ := LawfulSha256.hexDigest_eq bytes
    have hall := forall_hexEncode (p := fun c => c.toLower == c) (by decide) digest.1
    rw [hdigest]
    exact (List.map_congr_left fun c hc => eq_of_beq (hall c hc)).trans (List.map_id _)
  rw [eqIgnoreAsciiCase, hlower, hlower, beq_iff_eq, String.toList_inj]

variable [JsonText] {io : CheckIo} {mounts : String} {m : FlashManifest} {partition : List UInt8}

/-- **The check** of a partition that can be read, against a manifest that was written. -/
theorem verifyRootfs_eq [LawfulJsonText] (hmounts : io.mounts = .ok mounts)
    (hreadonly : rootfsMountedReadonly mounts = true) (hboot : io.mountBoot = .ok ())
    (hfile : io.manifest = .ok (manifestText m)) (hreads : io.Reads partition) :
    (verifyRootfs io).1 = match m.rootfsSha256 with
      | none => .skipped "flash manifest records no rootfs hash"
      | some expected =>
        if eqIgnoreAsciiCase (Sha256.hexDigest partition) expected then .verified
        else .mismatch expected (Sha256.hexDigest partition) := by
  have hstaged : stagedManifestHash io = .ok m.rootfsSha256 := by
    rw [stagedManifestHash, hboot]
    dsimp only
    rw [hfile]
    dsimp only
    rw [expectedRootfsHash, decode_manifestText]
  obtain ⟨hhash, -⟩ := sha256HexOf_reads hreads
  rw [verifyRootfs, hmounts]
  dsimp only
  rw [hreadonly, hstaged]
  cases m.rootfsSha256 with
  | none => rfl
  | some expected =>
    rcases hhashed : sha256HexOf io with ⟨actual, reported⟩
    rw [hhashed] at hhash
    obtain rfl : actual = .ok (Sha256.hexDigest partition) := hhash
    rw [if_neg (by decide)]
    dsimp only
    split <;> rfl

/-- **The first boot checks what was flashed.** A flash records the hash of the root file system of
its image, if it has one. The signer that reads the manifest and the partition compares the two,
however the reads are split: but for a collision of digests, the partition is verified exactly where
it is the root file system of the image. It is that while the card holds the image; where it is not,
a first boot ends there, before anything is set up. -/
theorem first_boot_checks_rootfs [XzDecoder] [LawfulSha256] [LawfulJsonText]
    (flash : ReadBack.CardIo) (image : ReadBack.ImageFile) (old bytes : List UInt8)
    (f : ReadBack.Flashed) (m : FlashManifest) (io : CheckIo) (mounts : String)
    (partition : List UInt8) (card : CardState) (boot : BootIo)
    (hflash : ReadBack.flashImageLinux flash image old = .ok f)
    (hmanifest : m.rootfsSha256 = f.rootfsSha256) (hmounts : io.mounts = .ok mounts)
    (hreadonly : rootfsMountedReadonly mounts = true) (hboot : io.mountBoot = .ok ())
    (hfile : io.manifest = .ok (manifestText m)) (hpartition : rootfsOf bytes = some partition)
    (hreads : io.Reads partition) (hverifies : boot.verifies = (verifyRootfs io).1.passes)
    (hfirst : card.isFirstBoot (card.init boot).keysMounted = true) :
    (rootfsOf image.decompressed = none →
      (verifyRootfs io).1 = .skipped "flash manifest records no rootfs hash") ∧
    ∀ rootfs, rootfsOf image.decompressed = some rootfs →
      (Sha256.hexDigest partition = Sha256.hexDigest rootfs → partition = rootfs) →
      ((verifyRootfs io).1 = .verified ↔ partition = rootfs) ∧
      (bytes.take image.decompressed.length = image.decompressed →
        (verifyRootfs io).1 = .verified) ∧
      (partition ≠ rootfs → card.bootDecision boot = none) := by
  have hcheck := verifyRootfs_eq hmounts hreadonly hboot hfile hreads
  rw [hmanifest, flashImageLinux_rootfs hflash] at hcheck
  refine ⟨fun hnone => ?_, fun rootfs hrootfs hsha => ?_⟩
  · rw [hcheck, hnone]
    rfl
  · rw [hrootfs, Option.map_some] at hcheck
    dsimp only at hcheck
    have hverified : (verifyRootfs io).1 = .verified ↔ partition = rootfs := by
      rw [hcheck]
      constructor
      · intro h
        split at h
        · rename_i hsame
          exact hsha ((eqIgnoreAsciiCase_hexDigest _ _).1 hsame)
        · cases h
      · rintro rfl
        exact if_pos ((eqIgnoreAsciiCase_hexDigest _ _).2 rfl)
    refine ⟨hverified, fun htake => ?_, fun hne => ?_⟩
    · have hsame := rootfsOf_of_take htake hrootfs
      exact hverified.2 (Option.some.inj (hpartition.symm.trans hsame))
    · have hfails : boot.verifies = false := by
        rw [hverifies, hcheck, if_neg fun hsame =>
          hne (hsha ((eqIgnoreAsciiCase_hexDigest _ _).1 hsame))]
        rfl
      simp only [CardState.bootDecision, hfirst, hfails]
      split <;> rfl

end

/-! ## A card to evaluate -/

section
attribute [local instance] plainDigest plainDigest_lawful ReadBack.plainXz plainJson
  plainJson_lawful

/-- A flash that takes it in one write. -/
def oneWrite : ReadBack.CardIo := { ReadBack.CardIo.smooth fun _ => .written with
  answers := [.takes 1024] }

/-- A boot that reads the partition in two buffers. -/
def twoBuffers (m : FlashManifest) : CheckIo where
  mounts := .ok "/dev/root / f2fs ro,relatime 0 0\n"
  mountBoot := .ok ()
  manifest := .ok (manifestText m)
  opened := .ok 512
  buffers := [List.replicate 100 7, List.replicate 412 7]
  ending := .ok ()

theorem twoBuffers_reads (m : FlashManifest) : (twoBuffers m).Reads (List.replicate 512 7) where
  opened := congrArg Except.ok List.length_replicate.symm
  buffers := by
    change [List.replicate 100 7, List.replicate 412 7].flatten = _
    decide +kernel
  nonempty := by
    change [] ∉ [List.replicate 100 (7 : UInt8), List.replicate 412 7]
    decide +kernel
  ending := rfl

/-- A card that still holds its image is verified. -/
theorem first_boot_checks_rootfs_two : ∃ f : ReadBack.Flashed, ∃ m : FlashManifest,
    m.rootfsSha256 = f.rootfsSha256 ∧ (verifyRootfs (twoBuffers m)).1 = .verified := by
  have hok : (ReadBack.flashImageLinux oneWrite ⟨some "img", twoSectors⟩
      (List.replicate 2048 0)).toOption.isSome = true := by decide +kernel
  obtain ⟨f, hf⟩ := Option.isSome_iff_exists.1 hok
  have hflash : ReadBack.flashImageLinux oneWrite ⟨some "img", twoSectors⟩
      (List.replicate 2048 0) = .ok f := by
    cases hrun : ReadBack.flashImageLinux oneWrite ⟨some "img", twoSectors⟩
        (List.replicate 2048 0) with
    | error e =>
      rw [hrun] at hf
      cases hf
    | ok f' =>
      rw [hrun] at hf
      cases hf
      rfl
  let m : FlashManifest := ⟨"card", "2026-03-06T12:34:56Z", "0.26.0", "", none, none,
    f.rootfsSha256, some "verified"⟩
  refine ⟨f, m, rfl, ?_⟩
  obtain ⟨verifies, hverifies⟩ : ∃ verifies, verifies = (verifyRootfs (twoBuffers m)).1.passes :=
    ⟨_, rfl⟩
  obtain ⟨-, hchecked⟩ := first_boot_checks_rootfs oneWrite ⟨some "img", twoSectors⟩
    (List.replicate 2048 0) (twoSectors ++ List.replicate 1024 0) f m (twoBuffers m)
    "/dev/root / f2fs ro,relatime 0 0\n" (List.replicate 512 7)
    ⟨false, false, false, ⟨fun _ => none, []⟩, false⟩
    ⟨false, false, false, verifies, false, false⟩ hflash rfl rfl (by decide +kernel) rfl rfl
    (by decide +kernel) (twoBuffers_reads m) hverifies rfl
  exact (hchecked (List.replicate 512 7) (by decide +kernel) fun _ => rfl).2.1 (by decide +kernel)

end

end Russignol
