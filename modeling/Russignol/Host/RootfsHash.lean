import Russignol.Base.ByteSink
import Russignol.Base.Bytes

/-!
# The hash of the root file system

`host-utility/src/rootfs.rs`: of the image that streams to the card, the second partition of the
table in its first sector (`rootfsRegion_eq_ok`) is hashed on the way. The range of the partition is
found in the stream that is hashed, so a buffer may end anywhere in it. What the hasher holds is a
function of the bytes that went through (`hasherOf`), whatever the buffers were.

SHA-256 is another crate (`Sha256`).
-/

namespace Russignol

/-- The digest of `sha2`, in hexadecimal. -/
class Sha256 where
  hexDigest : List UInt8 → String

namespace Host

open Bytes ByteSink

/-! ## The region -/

/-- `SECTOR_SIZE`, `MBR_LEN` and `PARTITION_2_ENTRY`. -/
def mbrSectorSize : Nat := 512

def mbrLen : Nat := 512

def partition2Entry : Nat := 446 + 16

/-- `rootfs_region`. -/
def rootfsRegion (mbr : List UInt8) : Except String (Nat × Nat) :=
  if mbr.length < mbrLen then
    .error ("MBR truncated: " ++ toString mbr.length ++ " of " ++ toString mbrLen ++ " bytes")
  else if mbr.getD 510 0 ≠ 0x55 ∨ mbr.getD 511 0 ≠ 0xAA then
    .error "missing MBR boot signature"
  else
    let entry i := mbr.getD (partition2Entry + i) 0
    if entry 4 = 0 then .error "no rootfs partition (MBR entry 2 is empty)"
    else
      let lbaStart := (Bytes.ofBe32 (entry 11) (entry 10) (entry 9) (entry 8)).toNat
      let sectors := (Bytes.ofBe32 (entry 15) (entry 14) (entry 13) (entry 12)).toNat
      if lbaStart = 0 ∨ sectors = 0 then
        .error "rootfs partition (MBR entry 2) has a zero extent"
      else .ok (lbaStart * mbrSectorSize, (lbaStart + sectors) * mbrSectorSize)

/-- A stretch of a list, by its elements. -/
theorem take_drop_eq_map_getD {α : Type} (l : List α) (d : α) {n k : Nat} (h : n + k ≤ l.length) :
    (l.drop n).take k = (List.range k).map fun i => l.getD (n + i) d := by
  refine List.ext_getElem ?_ fun i hi _ => ?_
  · simp only [List.length_take, List.length_drop, List.length_map, List.length_range]
    omega
  · have hlt : n + i < l.length := by
      simp only [List.length_take, List.length_drop] at hi
      omega
    simp [List.getD, hlt]

/-- Two words in little endian, one behind the other. -/
theorem take_drop_words (l : List UInt8) {n : Nat} (h : n + 8 ≤ l.length) :
    (l.drop n).take 8 =
      (be32 (ofBe32 (l.getD (n + 3) 0) (l.getD (n + 2) 0) (l.getD (n + 1) 0) (l.getD n 0))).reverse
        ++ (be32 (ofBe32 (l.getD (n + 7) 0) (l.getD (n + 6) 0) (l.getD (n + 5) 0)
          (l.getD (n + 4) 0))).reverse := by
  rw [take_drop_eq_map_getD l 0 h, be32_ofBe32, be32_ofBe32]
  rfl

/-- What the table of a first sector says of its second partition: the sector is whole and signed,
the entry is in use, and it says in little endian where the partition starts and how many sectors it
has, neither of which is zero. -/
structure HasPartition2 (mbr : List UInt8) (lbaStart sectors : UInt32) : Prop where
  whole : mbrLen ≤ mbr.length
  signature : (mbr.drop 510).take 2 = [0x55, 0xAA]
  used : mbr.getD (partition2Entry + 4) 0 ≠ 0
  extent : (mbr.drop (partition2Entry + 8)).take 8 =
    (be32 lbaStart).reverse ++ (be32 sectors).reverse
  start_ne_zero : lbaStart.toNat ≠ 0
  sectors_ne_zero : sectors.toNat ≠ 0

/-- An entry says one thing only. -/
theorem HasPartition2.unique {mbr : List UInt8} {x y x' y' : UInt32} (h : HasPartition2 mbr x y)
    (hextent : (mbr.drop (partition2Entry + 8)).take 8 = (be32 x').reverse ++ (be32 y').reverse) :
    x = x' ∧ y = y' := by
  obtain ⟨hx, hy⟩ := List.append_inj (h.extent.symm.trans hextent) (by simp)
  exact ⟨be32_injective (List.reverse_injective hx), be32_injective (List.reverse_injective hy)⟩

/-- **The region is that of the second partition**: it begins at 512 times its first sector, and is
512 times as long as it has sectors. -/
theorem rootfsRegion_eq_ok {mbr : List UInt8} {start stop : Nat} :
    rootfsRegion mbr = .ok (start, stop) ↔ ∃ lbaStart sectors : UInt32,
      HasPartition2 mbr lbaStart sectors ∧ start = lbaStart.toNat * 512 ∧
        stop = (lbaStart.toNat + sectors.toNat) * 512 := by
  rw [rootfsRegion]
  by_cases hshort : mbr.length < mbrLen
  · rw [if_pos hshort]
    exact iff_of_false (by simp) fun ⟨_, _, h, _⟩ => absurd hshort (Nat.not_lt.2 h.whole)
  rw [if_neg hshort]
  have hwhole : mbrLen ≤ mbr.length := Nat.not_lt.1 hshort
  have hlen : 512 ≤ mbr.length := hwhole
  have hsignature : (mbr.drop 510).take 2 = [mbr.getD 510 0, mbr.getD 511 0] :=
    take_drop_eq_map_getD mbr 0 (by omega)
  by_cases hunsigned : mbr.getD 510 0 ≠ 0x55 ∨ mbr.getD 511 0 ≠ 0xAA
  · rw [if_pos hunsigned]
    refine iff_of_false (by simp) fun ⟨_, _, h, _⟩ => ?_
    have hbytes := hsignature.symm.trans h.signature
    simp only [List.cons.injEq, and_true] at hbytes
    exact hunsigned.elim (absurd hbytes.1) (absurd hbytes.2)
  rw [if_neg hunsigned]
  obtain ⟨h510, h511⟩ := not_or.1 hunsigned
  rw [not_not.1 h510, not_not.1 h511] at hsignature
  dsimp only
  by_cases hunused : mbr.getD (partition2Entry + 4) 0 = 0
  · rw [if_pos hunused]
    exact iff_of_false (by simp) fun ⟨_, _, h, _⟩ => absurd hunused h.used
  rw [if_neg hunused]
  have hextent := take_drop_words mbr (n := partition2Entry + 8) (by unfold partition2Entry; omega)
  split
  · next hzero =>
    refine iff_of_false (by simp) fun ⟨x, y, h, _⟩ => ?_
    obtain ⟨rfl, rfl⟩ := h.unique hextent
    exact hzero.elim h.start_ne_zero h.sectors_ne_zero
  · next hpositive =>
    obtain ⟨hstart, hsectors⟩ := not_or.1 hpositive
    constructor
    · intro h
      cases h
      exact ⟨_, _, ⟨hwhole, hsignature, hunused, hextent, hstart, hsectors⟩, rfl, rfl⟩
    · rintro ⟨x, y, h, rfl, rfl⟩
      obtain ⟨rfl, rfl⟩ := h.unique hextent
      rfl

/-- A region lies behind the first sector. -/
theorem mbrLen_le_of_rootfsRegion {mbr : List UInt8} {start stop : Nat}
    (h : rootfsRegion mbr = .ok (start, stop)) : mbrLen ≤ start := by
  obtain ⟨lbaStart, sectors, hhas, rfl, -⟩ := rootfsRegion_eq_ok.1 h
  exact Nat.le_mul_of_pos_left _ (Nat.pos_of_ne_zero hhas.start_ne_zero)

/-! ## The hasher -/

/-- `RootfsRegionHasher`, with the bytes that `Sha256` was fed. -/
structure RootfsRegionHasher where
  pos : Nat
  mbr : List UInt8
  region : Option (Nat × Nat)
  hashed : List UInt8
  deriving DecidableEq, Repr

namespace RootfsRegionHasher

/-- `new`. -/
def new : RootfsRegionHasher := ⟨0, [], none, []⟩

/-- The first sector, as it arrives. -/
def readMbr (buf : List UInt8) (h : RootfsRegionHasher) : Except String RootfsRegionHasher :=
  if h.mbr.length < mbrLen then
    let mbr := h.mbr ++ buf.take (min (mbrLen - h.mbr.length) buf.length)
    if mbr.length = mbrLen then
      (rootfsRegion mbr).map fun region => { h with mbr, region := some region }
    else .ok { h with mbr }
  else .ok h

/-- The bytes of a buffer that lie in the region. -/
def hashRegion (buf : List UInt8) (h : RootfsRegionHasher) : List UInt8 :=
  match h.region with
  | none => h.hashed
  | some (start, stop) =>
    let lo := max h.pos start
    let hi := min (h.pos + buf.length) stop
    if lo < hi then h.hashed ++ (buf.take (hi - h.pos)).drop (lo - h.pos) else h.hashed

/-- `write`, which takes the whole buffer. -/
def write (buf : List UInt8) (h : RootfsRegionHasher) : Except String RootfsRegionHasher :=
  (readMbr buf h).map fun h => { h with hashed := hashRegion buf h, pos := h.pos + buf.length }

/-- `write_all`, which does not call `write` with an empty buffer. -/
def writeAll (buf : List UInt8) (h : RootfsRegionHasher) : Except String RootfsRegionHasher :=
  if buf.isEmpty then .ok h else write buf h

/-- `finish`. -/
def finish [Sha256] (h : RootfsRegionHasher) : Except String String :=
  match h.region with
  | none => .error "image too short to contain an MBR"
  | some (_, stop) =>
    if h.pos < stop then
      .error ("image ends at byte " ++ toString h.pos ++ " but the rootfs partition extends to " ++
        "byte " ++ toString stop)
    else .ok (Sha256.hexDigest h.hashed)

end RootfsRegionHasher

/-- `RootfsHashingWriter`, over the state of the inner writer. -/
structure RootfsHashingWriter (τ : Type) where
  inner : τ
  hasher : Except String RootfsRegionHasher

namespace RootfsHashingWriter

variable {τ ε : Type}

/-- `new`. -/
def new (inner : τ) : RootfsHashingWriter τ := ⟨inner, .ok .new⟩

/-- `write`: only what the inner writer took is hashed. -/
def write (innerWrite : Write τ ε) : Write (RootfsHashingWriter τ) ε := fun a buf w =>
  match innerWrite a buf w.inner with
  | (.error e, inner) => (.error e, { w with inner })
  | (.ok n, inner) => (.ok n, { inner, hasher := w.hasher.bind (·.writeAll (buf.take n)) })

/-- `finish`. -/
def finish [Sha256] (w : RootfsHashingWriter τ) : τ × Except String String :=
  (w.inner, w.hasher.bind (·.finish))

/-- The inner writer does not see the hasher. -/
theorem write_over (innerWrite : Write τ ε) : Over (write innerWrite) innerWrite (·.inner) := by
  intro a buf w
  rw [write]
  rcases innerWrite a buf w.inner with ⟨_ | _, _⟩ <;> exact ⟨rfl, rfl⟩

end RootfsHashingWriter

/-! ## What the hasher holds -/

/-- The hasher after a stream. -/
def hasherOf (stream : List UInt8) : Except String RootfsRegionHasher :=
  if stream.length < mbrLen then .ok ⟨stream.length, stream, none, []⟩
  else (rootfsRegion (stream.take mbrLen)).map fun region =>
    ⟨stream.length, stream.take mbrLen, some region, (stream.take region.2).drop region.1⟩

/-- A window of two lists, one behind the other. -/
theorem drop_take_append {α : Type} (xs ys : List α) (start stop : Nat) :
    ((xs ++ ys).take stop).drop start = (xs.take stop).drop start ++
      if max xs.length start < min (xs.length + ys.length) stop then
        (ys.take (min (xs.length + ys.length) stop - xs.length)).drop
          (max xs.length start - xs.length)
      else [] := by
  rw [List.take_append, List.drop_append, List.length_take]
  congr 1
  split
  · next hlt =>
    have htake : ys.take (stop - xs.length) =
        ys.take (min (xs.length + ys.length) stop - xs.length) := by
      rw [List.take_eq_take_iff]
      omega
    rw [htake, show start - min stop xs.length = max xs.length start - xs.length by omega]
  · next hle =>
    rw [List.drop_eq_nil_iff, List.length_take]
    omega

/-- A hasher past the first sector. -/
theorem hasherOf_of_le {stream : List UInt8} (h : mbrLen ≤ stream.length) :
    hasherOf stream = (rootfsRegion (stream.take mbrLen)).map fun region =>
      ⟨stream.length, stream.take mbrLen, some region, (stream.take region.2).drop region.1⟩ :=
  if_neg (Nat.not_lt.mpr h)

/-- What is hashed of a buffer behind a stream. -/
theorem hashRegion_append {stream buf mbr : List UInt8} {region : Nat × Nat} :
    RootfsRegionHasher.hashRegion buf
        ⟨stream.length, mbr, some region, (stream.take region.2).drop region.1⟩ =
      ((stream ++ buf).take region.2).drop region.1 := by
  rw [drop_take_append, RootfsRegionHasher.hashRegion]
  simp only
  split
  · rfl
  · rw [List.append_nil]

/-- A hasher of an append. -/
theorem write_of_hasherOf {stream buf : List UInt8} {h : RootfsRegionHasher}
    (hh : hasherOf stream = .ok h) : h.write buf = hasherOf (stream ++ buf) := by
  have hlen : (stream ++ buf).length = stream.length + buf.length := List.length_append
  rw [hasherOf] at hh
  split at hh
  · next hshort =>
    cases hh
    have hmbr : stream ++ buf.take (min (mbrLen - stream.length) buf.length) =
        (stream ++ buf).take mbrLen := by
      rw [List.take_append, List.take_of_length_le (Nat.le_of_lt hshort), ← List.take_eq_take_min]
    rw [RootfsRegionHasher.write, RootfsRegionHasher.readMbr, if_pos hshort]
    simp only [hmbr]
    split
    · next hfull =>
      have hle : mbrLen ≤ (stream ++ buf).length := by
        rw [List.length_take] at hfull
        omega
      rw [hasherOf_of_le hle]
      cases hregion : rootfsRegion ((stream ++ buf).take mbrLen) with
      | error e => rfl
      | ok region =>
        -- nothing of the region is in the stream yet
        have hstart : mbrLen ≤ region.1 := mbrLen_le_of_rootfsRegion hregion
        have hnil : [] = (stream.take region.2).drop region.1 := by
          rw [eq_comm, List.drop_eq_nil_iff, List.length_take]
          omega
        simp only [Except.map]
        rw [hnil, hashRegion_append, hlen]
    · next hpart =>
      have hlt : (stream ++ buf).length < mbrLen := by
        rw [List.length_take] at hpart
        omega
      rw [hasherOf, if_pos hlt, List.take_of_length_le (Nat.le_of_lt hlt), hlen]
      rfl
  · next hlong =>
    have hle : mbrLen ≤ stream.length := Nat.not_lt.mp hlong
    have htake : (stream ++ buf).take mbrLen = stream.take mbrLen :=
      List.take_append_of_le_length hle
    rw [hasherOf_of_le (by omega), htake]
    cases hregion : rootfsRegion (stream.take mbrLen) with
    | error e =>
      rw [hregion] at hh
      cases hh
    | ok region =>
      rw [hregion] at hh
      cases hh
      have hfull : ¬(stream.take mbrLen).length < mbrLen := by
        rw [List.length_take]
        omega
      rw [RootfsRegionHasher.write, RootfsRegionHasher.readMbr, if_neg hfull]
      simp only [Except.map]
      rw [hashRegion_append, hlen]

/-- **What the hasher holds** does not depend on how the stream is split. -/
theorem hasherOf_append (stream buf : List UInt8) :
    (hasherOf stream).bind (·.writeAll buf) = hasherOf (stream ++ buf) := by
  cases hh : hasherOf stream with
  | ok h =>
    change h.writeAll buf = _
    rw [RootfsRegionHasher.writeAll]
    split
    · next hempty => rw [List.isEmpty_iff.mp hempty, List.append_nil, hh]
    · exact write_of_hasherOf hh
  | error e =>
    -- the first sector is in the stream, and the error is of it
    rw [hasherOf] at hh
    split at hh
    · cases hh
    · next hlong =>
      have hle : mbrLen ≤ stream.length := Nat.not_lt.mp hlong
      have hle' : mbrLen ≤ (stream ++ buf).length := by
        rw [List.length_append]
        omega
      rw [hasherOf_of_le hle', List.take_append_of_le_length hle]
      cases hregion : rootfsRegion (stream.take mbrLen) with
      | error e' =>
        rw [hregion] at hh
        cases hh
        rfl
      | ok region =>
        rw [hregion] at hh
        cases hh

section
variable [Sha256]

/-- The digest of the region of a stream. -/
def rootfsDigest (stream : List UInt8) : Except String String :=
  if stream.length < mbrLen then .error "image too short to contain an MBR"
  else
    match rootfsRegion (stream.take mbrLen) with
    | .error e => .error e
    | .ok (start, stop) =>
      if stream.length < stop then
        .error ("image ends at byte " ++ toString stream.length ++
          " but the rootfs partition extends to " ++ "byte " ++ toString stop)
      else .ok (Sha256.hexDigest ((stream.take stop).drop start))

/-- What the hasher returns of a stream. -/
theorem finish_hasherOf (stream : List UInt8) :
    (hasherOf stream).bind (·.finish) = rootfsDigest stream := by
  rw [hasherOf, rootfsDigest]
  split
  · rfl
  · cases rootfsRegion (stream.take mbrLen) <;> rfl

omit [Sha256] in
/-- Every call of the tee keeps what the hasher holds. -/
theorem keeps_hasherOf {ε : Type} : Keeps (RootfsHashingWriter.write (pipe : Write (List UInt8) ε))
    fun w => w.hasher = hasherOf w.inner := by
  intro a buf w hw
  cases a with
  | takes n =>
    change w.hasher.bind (·.writeAll (buf.take (min n buf.length))) =
      hasherOf (w.inner ++ buf.take n)
    rw [← List.take_eq_take_min, hw, hasherOf_append]
  | interrupted => exact hw
  | fails e => exact hw

/-- **The tee.** However a stream is split, and whatever the inner writer takes at each call: the run
ends and the inner writer is left as without the hasher; what it took is a beginning of the stream,
and the hash is that of the region of what it took. When the run is done that is all of the stream,
and it is done where every call takes something. -/
theorem rootfs_tee {ε : Type} (answers : List (Answer ε)) (chunks : List (List UInt8)) :
    let tee := writeChunks (RootfsHashingWriter.write pipe) answers chunks (.new [])
    let plain := writeChunks pipe answers chunks []
    (tee.1 = plain.1 ∧ tee.2.2.finish.1 = plain.2.2) ∧
    tee.2.2.finish.1 <+: chunks.flatten ∧
    tee.2.2.finish.2 = rootfsDigest tee.2.2.finish.1 ∧
    (tee.1 = .done → tee.2.2.finish = (chunks.flatten, rootfsDigest chunks.flatten)) ∧
    ((∀ a ∈ answers, a.Takes) → chunks.flatten.length ≤ answers.length → tee.1 = .done) := by
  intro tee plain
  have hover := (RootfsHashingWriter.write_over pipe).writeChunks answers chunks (.new [])
  have hhash : tee.2.2.hasher = hasherOf tee.2.2.inner :=
    keeps_hasherOf.writeChunks answers chunks (.new []) rfl
  have hdigest : tee.2.2.finish.2 = rootfsDigest tee.2.2.inner := by
    rw [RootfsHashingWriter.finish, hhash, finish_hasherOf]
  obtain ⟨l, hl, hstate, hdone⟩ := writeChunks_pipe answers chunks []
  have hinner : tee.2.2.inner = l := by
    rw [← List.nil_append l, ← hstate]
    exact hover.2
  refine ⟨hover, ?_, hdigest, fun h => ?_, fun htakes hlen => ?_⟩
  · rw [RootfsHashingWriter.finish, hinner]
    exact hl
  · have hall : tee.2.2.inner = chunks.flatten := hinner.trans (hdone (hover.1 ▸ h))
    rw [← hall, ← hdigest]
    rfl
  · exact hover.1.trans (writeChunks_pipe_done answers chunks [] htakes hlen)

end

/-- A byte as a character, and so bytes as a text. -/
@[reducible] def plainSha256 : Sha256 where
  hexDigest bytes := String.ofList (bytes.map fun b => Char.ofNat b.toNat)

/-- An image of two sectors, of which the second is the root file system. -/
def twoSectors : List UInt8 :=
  List.replicate 462 0 ++ [0, 0, 0, 0, 0x83, 0, 0, 0, 1, 0, 0, 0, 1, 0, 0, 0] ++
    List.replicate 32 0 ++ [0x55, 0xAA] ++ List.replicate 512 7

section
attribute [local instance] plainSha256

/-- An image that comes in two chunks, to a writer that takes 300 bytes at most. -/
theorem rootfs_tee_twoSectors :
    (writeChunks (RootfsHashingWriter.write pipe)
      (List.replicate 1024 (.takes 300 : Answer Unit)) [twoSectors.take 100, twoSectors.drop 100]
      (.new [])).2.2.finish = (twoSectors, .ok (Sha256.hexDigest (List.replicate 512 7))) := by
  have hflatten : [twoSectors.take 100, twoSectors.drop 100].flatten = twoSectors := by
    simp only [List.flatten_cons, List.flatten_nil, List.append_nil, List.take_append_drop]
  have hdigest : rootfsDigest twoSectors = .ok (Sha256.hexDigest (List.replicate 512 7)) := by
    decide +kernel
  obtain ⟨-, -, -, hfinish, hdone⟩ := rootfs_tee (List.replicate 1024 (.takes 300 : Answer Unit))
    [twoSectors.take 100, twoSectors.drop 100]
  rw [hflatten, hdigest] at hfinish
  refine hfinish (hdone (fun a ha => ?_) ?_)
  · rw [List.eq_of_mem_replicate ha]
    exact Nat.succ_pos 299
  · rw [hflatten, List.length_replicate]
    decide +kernel

end

end Host

end Russignol
