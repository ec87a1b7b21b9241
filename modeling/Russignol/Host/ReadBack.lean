import Mathlib.Logic.Function.Basic
import Russignol.Host.FlashedCard
import Russignol.Host.RootfsHash
import Russignol.Signer.ListKeys

/-!
# Reading an image back

The bytes of a flash (`host-utility/src/image.rs`, `restore_keys.rs`). An image is streamed twice: to
`dd` (`flashImageLinux`), and to the hasher that what is read back of the card is compared with
(`verifyFlashReadback`). What `dd` was handed may be lost or altered without a word (`Fate`).

A normal flash reads the card back, and one that returns success has the image on it. The two flashes
that restore keys do not, with or without `--skip-verify`: `flash_landed_iff`.

The decoder of xz is another crate (`XzDecoder`), and what a flash does before and after it writes the
image is an input (`CardIo`). Where these are the calls of the flash that is told by its writes
(`CardIo.Tells`), the two succeed together, and what is known of each is known of one flash
(`normal_flash_whole`, `keyed_flash_whole`).
-/

namespace Russignol

/-- `xz_decompress` of `lzma_rs`: the buffers that it hands its sink, and how it ends after them. -/
class XzDecoder where
  decompress : List UInt8 → List (List UInt8) × Except String Unit

namespace Host.ReadBack

open ByteSink

/-! ## The image and the card -/

/-- An image file. -/
structure ImageFile where
  extension : Option String
  content : List UInt8

/-- The image, without its compression. -/
def ImageFile.decompressed [XzDecoder] (image : ImageFile) : List UInt8 :=
  if image.extension = some "xz" then (XzDecoder.decompress image.content).1.flatten
  else image.content

/-- What becomes of a byte that `dd` was handed. -/
inductive Fate
  | written
  | lost
  | altered (b : UInt8)
  deriving DecidableEq, Repr

/-- The byte on the card, which had another one before. -/
def Fate.land (old b : UInt8) : Fate → UInt8
  | .written => b
  | .lost => old
  | .altered c => c

/-- The card after a stream was handed to `dd`. -/
def land (fate : Nat → Fate) (stream card : List UInt8) : List UInt8 :=
  card.mapIdx fun i old =>
    match stream[i]? with
    | none => old
    | some b => (fate i).land old b

/-- A stream that fits on the card, and of which every byte is written, or is lost or altered to what
it was. -/
def Spared (fate : Nat → Fate) (stream card : List UInt8) : Prop :=
  stream.length ≤ card.length ∧
    ∀ (i : Nat) b old, stream[i]? = some b → card[i]? = some old → (fate i).land old b = b

/-- What a flash is answered. -/
structure CardIo where
  /-- All that comes before the image is written: whether the operator goes on, or an error. -/
  start : Except String Bool
  /-- The unmount, `sudo` and the start of `dd`. -/
  ready : Except String Unit
  /-- The image is opened, to be written and to be hashed. -/
  opened : Bool
  reopened : Bool
  /-- What `dd` takes at each write, whether it exits with success, and the sync after it. -/
  answers : List (Answer String)
  exit : Bool
  synced : Bool
  fate : Nat → Fate
  /-- The device is opened to read, by the process or by `sudo dd`. -/
  openDevice : Bool
  sudoReads : Bool
  /-- All that comes after, of the card. -/
  later : List UInt8 → Except String Unit

/-! ## The two streams -/

section
variable [XzDecoder]

/-- An image is opened. -/
def openImage (opened : Bool) : Except String Unit :=
  if opened then .ok () else .error "Failed to open image"

/-- The writes of buffers to `dd`, and how the reader that they come from ends: the bytes that `dd`
took and the hash of the root file system, or an error. -/
def feedDd [Sha256] (io : CardIo) (context : String) (buffers : List (List UInt8))
    (ending : Except String Unit) : Except String (List UInt8 × Except String String) :=
  match writeChunks (RootfsHashingWriter.write pipe) io.answers buffers (.new []) with
  | (.done, _, writer) => (ending.mapError (context ++ ": " ++ ·)).map fun _ => writer.finish
  | _ => .error context

/-- What `flash_image_linux` does with the image. -/
def streamToDd [Sha256] (io : CardIo) (image : ImageFile) :
    Except String (List UInt8 × Except String String) :=
  if image.extension = some "xz" then do
    openImage io.opened
    let (buffers, ending) := XzDecoder.decompress image.content
    feedDd io "Failed to decompress XZ image" buffers ending
  else if image.extension = some "img" then do
    openImage io.opened
    feedDd io "Failed to write image data" [image.content] (.ok ())
  else .error "Unsupported image format"

/-- `stream_decompressed_to`, into a sink that takes everything. -/
def streamDecompressedTo (reopened : Bool) (image : ImageFile) : Except String (List UInt8) :=
  if image.extension = some "xz" then do
    openImage reopened
    let (buffers, ending) := XzDecoder.decompress image.content
    (ending.mapError ("Failed to decompress XZ image: " ++ ·)).map fun _ => buffers.flatten
  else if image.extension = some "img" then do
    openImage reopened
    .ok image.content
  else .error "Unsupported image format"

variable [Sha256]

/-- `hash_decompressed_source`. -/
def hashDecompressedSource (reopened : Bool) (image : ImageFile) : Except String (String × Nat) :=
  (streamDecompressedTo reopened image).map fun stream => (Sha256.hexDigest stream, stream.length)

omit [XzDecoder] in
/-- `hash_reader_prefix`. -/
def hashReaderPrefix (reader : List UInt8) (len : Nat) : String × Nat :=
  (Sha256.hexDigest (reader.take len), (reader.take len).length)

omit [XzDecoder] in
/-- `hash_device_prefix`: where `sudo dd` cannot read the card either, it writes nothing. -/
def hashDevicePrefix (io : CardIo) (card : List UInt8) (len : Nat) : String × Nat :=
  if io.openDevice then hashReaderPrefix card len
  else hashReaderPrefix (if io.sudoReads then card else []) len

/-- `verify_flash_readback`. -/
def verifyFlashReadback (io : CardIo) (image : ImageFile) (card : List UInt8) :
    Except String Unit := do
  let (expectedSha, len) ← hashDecompressedSource io.reopened image
  let (actualSha, read) := hashDevicePrefix io card len
  if read ≠ len then
    .error ("Read back only " ++ toString read ++ " of " ++ toString len ++ " bytes from the card")
  else if actualSha ≠ expectedSha then
    .error "Read-back verification FAILED: the data on the card does not match the image."
  else .ok ()

/-- `verify_flash_or_note_skip`. -/
def verifyFlashOrNoteSkip (io : CardIo) (image : ImageFile) (card : List UInt8)
    (skipVerify : Bool) : Except String Unit :=
  if skipVerify then .ok () else verifyFlashReadback io image card

/-! ## The flashes -/

/-- What was flashed: what `dd` was handed, the card right after it, and the hash for the manifest. -/
structure Flashed where
  handed : List UInt8
  card : List UInt8
  rootfsSha256 : Option String

/-- `flash_image_linux`. -/
def flashImageLinux (io : CardIo) (image : ImageFile) (card : List UInt8) :
    Except String Flashed := do
  io.ready
  let (handed, rootfsHash) ← streamToDd io image
  if !io.exit then .error "dd failed"
  else if !io.synced then .error "sync failed"
  else .ok ⟨handed, land io.fate handed card, rootfsHash.toOption⟩

/-- How a command ends. -/
inductive FlashEnd
  | failed (e : String)
  | cancelled
  | flashed (f : Flashed)

/-- What a command returns of its steps. -/
def FlashEnd.of : Except String Flashed → FlashEnd
  | .error e => .failed e
  | .ok f => .flashed f

/-- `finish_normal_flash`. -/
def finishNormalFlash (io : CardIo) (image : ImageFile) (skipVerify : Bool) (card : List UInt8) :
    Except String Flashed := do
  let f ← flashImageLinux io image card
  verifyFlashOrNoteSkip io image f.card skipVerify
  io.later f.card
  return f

/-- `run_single_reader_restore` and `run_dual_reader_restore`, from their flash on. -/
def flashAndWriteKeys (io : CardIo) (image : ImageFile) (card : List UInt8) :
    Except String Flashed := do
  let f ← flashImageLinux io image card
  io.later f.card
  return f

/-- What comes before a flash: it is cancelled, or fails. -/
def started (io : CardIo) (flash : Except String Flashed) : FlashEnd :=
  match io.start with
  | .error e => .failed e
  | .ok false => .cancelled
  | .ok true => .of flash

/-- `run_single_reader_restore`. -/
def runSingleReaderRestore (io : CardIo) (image : ImageFile) (card : List UInt8) : FlashEnd :=
  started io (flashAndWriteKeys io image card)

/-- `run_dual_reader_restore`. -/
def runDualReaderRestore (io : CardIo) (image : ImageFile) (card : List UInt8) : FlashEnd :=
  started io (flashAndWriteKeys io image card)

/-- `run_keyed_flash`. -/
def runKeyedFlash (io : CardIo) (singleReader : Bool) (image : ImageFile) (card : List UInt8) :
    FlashEnd :=
  if singleReader then runSingleReaderRestore io image card else runDualReaderRestore io image card

/-- `--restore-keys` or `--migrate-keys`. -/
inductive KeySource
  | restore
  | migrate
  deriving DecidableEq, Repr

/-- What `flash` is called with: an image, or else the one to be downloaded; where the keys are from,
if they are to be written, and whether there is one reader; and `--skip-verify`. -/
structure FlashArgs where
  image : Option ImageFile
  downloaded : Except String ImageFile
  keys : Option KeySource
  singleReader : Bool
  skipVerify : Bool

/-- `cmd_flash`, and `cmd_flash_download` of the image it has downloaded. -/
def cmdFlash (io : CardIo) (args : FlashArgs) (image : ImageFile) (card : List UInt8) : FlashEnd :=
  match args.keys with
  | some _ => runKeyedFlash io args.singleReader image card
  | none => started io (finishNormalFlash io image args.skipVerify card)

/-- `run_image_command`, of a flash. -/
def runFlash (io : CardIo) (args : FlashArgs) (card : List UInt8) : FlashEnd :=
  match args.image with
  | some image => cmdFlash io args image card
  | none =>
    match args.downloaded with
    | .error e => .failed e
    | .ok image => cmdFlash io args image card

/-- The image of a command. -/
def FlashArgs.source (args : FlashArgs) : Except String ImageFile :=
  match args.image with
  | some image => .ok image
  | none => args.downloaded

end

/-! ## What lands -/

/-- The image is on the card where its bytes are spared. -/
theorem take_land_iff {fate : Nat → Fate} {stream card : List UInt8} :
    (land fate stream card).take stream.length = stream ↔ Spared fate stream card := by
  have hget : ∀ i : Nat, (land fate stream card)[i]? = card[i]?.map fun old =>
      match stream[i]? with
      | none => old
      | some b => (fate i).land old b := fun i => List.getElem?_mapIdx
  constructor
  · intro h
    have hlen : stream.length ≤ card.length := by
      have hlength := congrArg List.length h
      rw [List.length_take, land, List.length_mapIdx] at hlength
      omega
    refine ⟨hlen, fun i b old hb hold => ?_⟩
    have hi : i < stream.length := (List.getElem?_eq_some_iff.mp hb).1
    have hat := congrArg (·[i]?) h
    simp only [List.getElem?_take, if_pos hi, hget, hold, hb, Option.map_some] at hat
    exact Option.some.inj hat
  · rintro ⟨hlen, hspared⟩
    refine List.ext_getElem? fun i => ?_
    rw [List.getElem?_take]
    split
    · next hi =>
      obtain ⟨b, hb⟩ : ∃ b, stream[i]? = some b := ⟨_, List.getElem?_eq_getElem hi⟩
      obtain ⟨old, hold⟩ : ∃ old, card[i]? = some old :=
        ⟨_, List.getElem?_eq_getElem (by omega)⟩
      rw [hget, hold, hb, Option.map_some]
      exact congrArg some (hspared i b old hb hold)
    · next hi => rw [List.getElem?_eq_none (Nat.not_lt.mp hi)]

section
variable [XzDecoder] [Sha256] {io : CardIo} {image : ImageFile}

omit [XzDecoder] in
/-- What `dd` took of buffers that were all written. -/
theorem feedDd_eq_ok {context : String} {buffers : List (List UInt8)} {ending : Except String Unit}
    {handed : List UInt8} {rootfsHash : Except String String}
    (h : feedDd io context buffers ending = .ok (handed, rootfsHash)) :
    handed = buffers.flatten ∧ rootfsHash = rootfsDigest buffers.flatten ∧ ending = .ok () := by
  obtain ⟨-, -, -, hdone, -⟩ := rootfs_tee io.answers buffers
  rw [feedDd] at h
  generalize writeChunks (RootfsHashingWriter.write pipe) io.answers buffers (.new []) = run
    at h hdone
  obtain ⟨_ | _ | _, rest, writer⟩ := run
  · simp only at h
    rw [hdone rfl] at h
    cases ending with
    | error e => cases h
    | ok _ =>
      cases h
      exact ⟨rfl, rfl, rfl⟩
  · cases h
  · cases h

/-- **Both streams are the image**: what `dd` took, and what is hashed to compare with it. -/
theorem streams_eq {handed : List UInt8} {rootfsHash : Except String String}
    (h : streamToDd io image = .ok (handed, rootfsHash)) : handed = image.decompressed ∧
      rootfsHash = rootfsDigest image.decompressed ∧
      ∀ reopened, streamDecompressedTo reopened image =
        (openImage reopened).map fun _ => image.decompressed := by
  rw [streamToDd] at h
  unfold ImageFile.decompressed streamDecompressedTo
  split at h
  · next hxz =>
    obtain ⟨_, -, h⟩ := bind_eq_ok h
    obtain ⟨hhanded, hhash, hending⟩ := feedDd_eq_ok h
    rw [if_pos hxz]
    refine ⟨hhanded, hhash, fun reopened => ?_⟩
    have hend : (XzDecoder.decompress image.content).2 = .ok () := hending
    simp only [if_pos hxz, hend]
    cases reopened <;> rfl
  · next hxz =>
    rw [if_neg hxz]
    split at h
    · next himg =>
      obtain ⟨_, -, h⟩ := bind_eq_ok h
      obtain ⟨hhanded, hhash, -⟩ := feedDd_eq_ok h
      rw [List.flatten_singleton] at hhanded hhash
      refine ⟨hhanded, hhash, fun reopened => ?_⟩
      rw [if_neg hxz, if_pos himg]
      cases reopened <;> rfl
    · cases h

/-- What a flash has written. -/
theorem flashImageLinux_eq_ok {card : List UInt8} {f : Flashed}
    (h : flashImageLinux io image card = .ok f) : f.handed = image.decompressed ∧
      f.card = land io.fate image.decompressed card ∧
      hashDecompressedSource io.reopened image = (openImage io.reopened).map fun _ =>
        (Sha256.hexDigest image.decompressed, image.decompressed.length) := by
  obtain ⟨_, -, h⟩ := bind_eq_ok h
  obtain ⟨⟨handed, rootfsHash⟩, hstream, h⟩ := bind_eq_ok h
  obtain ⟨rfl, -, hhash⟩ := streams_eq hstream
  simp only at h
  split at h
  · cases h
  · split at h
    · cases h
    · cases h
      refine ⟨rfl, rfl, ?_⟩
      rw [hashDecompressedSource, hhash]
      cases openImage io.reopened <;> rfl

/-- A read-back that succeeds has read the image. -/
theorem verifyFlashReadback_eq_ok (hsha : Function.Injective Sha256.hexDigest)
    {stream card : List UInt8}
    (hsource : hashDecompressedSource io.reopened image = (openImage io.reopened).map fun _ =>
      (Sha256.hexDigest stream, stream.length))
    (h : verifyFlashReadback io image card = .ok ()) : card.take stream.length = stream := by
  obtain ⟨⟨expectedSha, len⟩, hexpected, h⟩ := bind_eq_ok h
  rw [hsource] at hexpected
  cases hopen : openImage io.reopened with
  | error e =>
    rw [hopen] at hexpected
    cases hexpected
  | ok _ =>
    rw [hopen] at hexpected
    cases hexpected
    -- what is read is the card, or nothing at all
    obtain ⟨reader, hreader, hhash⟩ : ∃ reader, (reader = card ∨ reader = []) ∧
        hashDevicePrefix io card stream.length = hashReaderPrefix reader stream.length := by
      rw [hashDevicePrefix]
      split
      · exact ⟨card, .inl rfl, rfl⟩
      · split
        · exact ⟨card, .inl rfl, rfl⟩
        · exact ⟨[], .inr rfl, rfl⟩
    simp only [hhash, hashReaderPrefix] at h
    split at h
    · cases h
    · split at h
      · cases h
      · next hsame =>
        have hread := hsha (Decidable.not_not.mp hsame)
        rcases hreader with rfl | rfl
        · exact hread
        · rw [List.take_nil] at hread
          rw [← hread]
          exact List.take_zero

omit [XzDecoder] [Sha256] in
/-- What a command flashed. -/
theorem started_eq_flashed {flash : Except String Flashed} {f : Flashed}
    (h : started io flash = .flashed f) : flash = .ok f := by
  rw [started] at h
  cases hstart : io.start with
  | error e =>
    rw [hstart] at h
    cases h
  | ok go =>
    cases go with
    | false =>
      rw [hstart] at h
      cases h
    | true =>
      rw [hstart] at h
      cases flash with
      | error e => cases h
      | ok f' =>
        cases h
        rfl

/-- The flash of a card that is to have keys. -/
theorem runKeyedFlash_eq_flashed {singleReader : Bool} {card : List UInt8} {f : Flashed}
    (h : runKeyedFlash io singleReader image card = .flashed f) :
    flashImageLinux io image card = .ok f := by
  have hkeyed : flashAndWriteKeys io image card = .ok f := by
    cases singleReader <;> exact started_eq_flashed h
  obtain ⟨f', hflash, hlater⟩ := bind_eq_ok hkeyed
  obtain ⟨_, -, hf⟩ := bind_eq_ok hlater
  cases hf
  exact hflash

/-- A normal flash has read the image back. -/
theorem finishNormalFlash_eq_ok (hsha : Function.Injective Sha256.hexDigest) {card : List UInt8}
    {f : Flashed} (h : finishNormalFlash io image false card = .ok f) :
    flashImageLinux io image card = .ok f ∧
      f.card.take image.decompressed.length = image.decompressed := by
  obtain ⟨f', hflash, h⟩ := bind_eq_ok h
  obtain ⟨_, hverify, h⟩ := bind_eq_ok h
  obtain ⟨_, -, hf⟩ := bind_eq_ok h
  cases hf
  exact ⟨hflash, verifyFlashReadback_eq_ok hsha (flashImageLinux_eq_ok hflash).2.2 hverify⟩

/-- What a command that flashed has done, and a normal one that was to read it back. -/
theorem runFlash_eq_flashed (hsha : Function.Injective Sha256.hexDigest) {args : FlashArgs}
    {card : List UInt8} {f : Flashed} (hverify : args.skipVerify = false)
    (h : runFlash io args card = .flashed f) :
    ∃ image, args.source = .ok image ∧ flashImageLinux io image card = .ok f ∧
      (args.keys = none → f.card.take image.decompressed.length = image.decompressed) := by
  have hcmd : ∀ image, cmdFlash io args image card = .flashed f →
      flashImageLinux io image card = .ok f ∧
        (args.keys = none → f.card.take image.decompressed.length = image.decompressed) := by
    intro image hcmd
    rw [cmdFlash] at hcmd
    cases hkeys : args.keys with
    | some keys =>
      rw [hkeys] at hcmd
      exact ⟨runKeyedFlash_eq_flashed hcmd, nofun⟩
    | none =>
      rw [hkeys, hverify] at hcmd
      obtain ⟨hflash, hread⟩ := finishNormalFlash_eq_ok hsha (started_eq_flashed hcmd)
      exact ⟨hflash, fun _ => hread⟩
  rw [runFlash] at h
  rw [FlashArgs.source]
  cases himage : args.image with
  | some image =>
    rw [himage] at h
    exact ⟨image, rfl, hcmd image h⟩
  | none =>
    rw [himage] at h
    cases hdownload : args.downloaded with
    | error e =>
      rw [hdownload] at h
      cases h
    | ok image =>
      rw [hdownload] at h
      exact ⟨image, rfl, hcmd image h⟩

end

/-- **Which flashes are of the image**: of the commands that return success without `--skip-verify`,
those that write no keys, and of the others those whose image is spared. What is hashed to compare
with is what `dd` was handed. -/
theorem flash_landed_iff [XzDecoder] [Sha256] (hsha : Function.Injective Sha256.hexDigest)
    (io : CardIo) (args : FlashArgs) (card : List UInt8) {image : ImageFile} {f : Flashed}
    (hsource : args.source = .ok image) (hverify : args.skipVerify = false)
    (hflashed : runFlash io args card = .flashed f) :
    (f.card.take image.decompressed.length = image.decompressed ↔
      args.keys = none ∨ Spared io.fate image.decompressed card) ∧
    f.handed = image.decompressed ∧
    hashDecompressedSource io.reopened image = (openImage io.reopened).map fun _ =>
      (Sha256.hexDigest f.handed, f.handed.length) := by
  obtain ⟨image', hsource', hflash, hnormal⟩ := runFlash_eq_flashed hsha hverify hflashed
  rw [hsource] at hsource'
  cases hsource'
  obtain ⟨hhanded, hcard, hhash⟩ := flashImageLinux_eq_ok hflash
  have hlands : f.card.take image.decompressed.length = image.decompressed ↔
      Spared io.fate image.decompressed card := by
    rw [hcard]
    exact take_land_iff
  refine ⟨⟨fun h => .inr (hlands.mp h), ?_⟩, hhanded, hhanded ▸ hhash⟩
  rintro (hkeys | hspared)
  · exact hnormal hkeys
  · exact hlands.mpr hspared

/-! ## One flash, by its bytes and by its writes -/

section
variable [XzDecoder] [Sha256] {io : CardIo} {calls : FlashIo} {file : ImageFile} {image : Image}
  {card : List UInt8} {s : Target} {chainInfo : Option ChainInfo}

/-- A card that `dd` has written, by its table and file systems. -/
def written (image : Image) (s : Target) : Target :=
  ⟨image.table, s.view, flashedVolumes image s.volumes, []⟩

/-- A normal flash after its read-back, by where it writes. -/
def afterReadBack (calls : FlashIo) (chainInfo : Option ChainInfo) (s : Target) :
    Except String (Target × HostPartitionView) := do
  let (s, view) := rereadPartitionTable calls.root calls.afterFlash s
  let s ← writeFlashManifest calls s
  let s ← finalizeFlash calls chainInfo s
  return (s, view)

/-- A keyed flash after its image, by where it writes. -/
def afterImage (calls : FlashIo) (s : Target) : Except String Target := do
  let (s, _) := rereadPartitionTable calls.root calls.afterFlash s
  let s ← createAndFormatPartitions calls s
  let s ← writeBackup calls s
  let s ← writeFlashManifest calls s
  calls.check .verifyKeys "failed to mount target keys partition for verification"
  calls.check .verifyConfig "staged watermark-config.json failed verification"
  return s

/-- The calls of a flash end as the bytes have it: `dd`, the read-back, and what comes after. -/
structure CardIo.Tells {α : Type} (io : CardIo) (calls : FlashIo) (file : ImageFile)
    (card : List UInt8) (rest : Except String α) : Prop where
  dd : calls.succeeds .dd = true ↔ ∃ f, flashImageLinux io file card = .ok f
  readback : ∀ f, flashImageLinux io file card = .ok f →
    (calls.succeeds .readback = true ↔ verifyFlashReadback io file f.card = .ok ())
  later : ∀ f, flashImageLinux io file card = .ok f →
    (io.later f.card = .ok () ↔ ∃ r, rest = .ok r)

omit [XzDecoder] [Sha256] in
/-- Two steps, one after the other. -/
theorem bind_eq_ok_iff {α β : Type} {x : Except String α} {next : α → Except String β} {r : β} :
    x >>= next = .ok r ↔ ∃ a, x = .ok a ∧ next a = .ok r := by
  cases x with
  | error e => exact iff_of_false nofun nofun
  | ok a => exact ⟨fun h => ⟨a, rfl, h⟩, fun ⟨_, ha, h⟩ => Except.ok.inj ha ▸ h⟩

omit [XzDecoder] [Sha256] in
theorem check_eq_ok {call : FlashCall} {text : String} :
    calls.check call text = .ok () ↔ calls.succeeds call = true := by
  rw [FlashIo.check]
  cases calls.succeeds call with
  | true => exact iff_of_true rfl rfl
  | false => exact iff_of_false nofun nofun

omit [XzDecoder] [Sha256] in
/-- A card that was flashed is the one that `dd` has written. -/
theorem flashImageToDevice_eq_ok_iff {t : Target} : flashImageToDevice calls image s = .ok t ↔
    calls.succeeds .dd = true ∧ t = written image s := by
  rw [flashImageToDevice, bind_eq_ok_iff]
  constructor
  · rintro ⟨_, hdd, h⟩
    exact ⟨check_eq_ok.1 hdd, (Except.ok.inj h).symm⟩
  · rintro ⟨hdd, rfl⟩
    exact ⟨(), check_eq_ok.2 hdd, rfl⟩

/-- **A normal flash succeeds by its bytes where it does by its writes.** -/
theorem CardIo.Tells.finishNormalFlash {skipVerify : Bool}
    (h : io.Tells calls file card (afterReadBack calls chainInfo (written image s))) :
    (∃ f, ReadBack.finishNormalFlash io file skipVerify card = .ok f) ↔
      ∃ r, Host.finishNormalFlash calls image skipVerify chainInfo s = .ok r := by
  have hverify : ∀ f, flashImageLinux io file card = .ok f →
      (ReadBack.verifyFlashOrNoteSkip io file f.card skipVerify = .ok () ↔
        Host.verifyFlashOrNoteSkip calls skipVerify = .ok ()) := by
    intro f hf
    cases skipVerify with
    | true => exact iff_of_true rfl rfl
    | false => exact (h.readback f hf).symm.trans check_eq_ok.symm
  have hwrites : ∀ r, Host.finishNormalFlash calls image skipVerify chainInfo s = .ok r ↔
      calls.succeeds .dd = true ∧ Host.verifyFlashOrNoteSkip calls skipVerify = .ok () ∧
        afterReadBack calls chainInfo (written image s) = .ok r := by
    intro r
    show (flashImageToDevice calls image s >>= fun t =>
      Host.verifyFlashOrNoteSkip calls skipVerify >>= fun _ =>
        afterReadBack calls chainInfo t) = .ok r ↔ _
    simp only [bind_eq_ok_iff, flashImageToDevice_eq_ok_iff]
    constructor
    · rintro ⟨_, ⟨hdd, rfl⟩, _, hskip, hrest⟩
      exact ⟨hdd, hskip, hrest⟩
    · rintro ⟨hdd, hskip, hrest⟩
      exact ⟨_, ⟨hdd, rfl⟩, (), hskip, hrest⟩
  simp only [hwrites]
  constructor
  · rintro ⟨f, hf⟩
    obtain ⟨f', hflash, hf⟩ := bind_eq_ok hf
    obtain ⟨_, hskip, hf⟩ := bind_eq_ok hf
    obtain ⟨_, hlater, -⟩ := bind_eq_ok hf
    obtain ⟨r, hr⟩ := (h.later f' hflash).1 hlater
    exact ⟨r, h.dd.2 ⟨f', hflash⟩, (hverify f' hflash).1 hskip, hr⟩
  · rintro ⟨r, hdd, hskip, hrest⟩
    obtain ⟨f, hflash⟩ := h.dd.1 hdd
    refine ⟨f, bind_eq_ok_iff.2 ⟨f, hflash, bind_eq_ok_iff.2 ⟨(), (hverify f hflash).2 hskip, ?_⟩⟩⟩
    exact bind_eq_ok_iff.2 ⟨(), (h.later f hflash).2 ⟨r, hrest⟩, rfl⟩

/-- **A keyed flash succeeds by its bytes where it does by its writes.** -/
theorem CardIo.Tells.flashKeyed
    (h : io.Tells calls file card (afterImage calls (written image s))) :
    (∃ f, flashAndWriteKeys io file card = .ok f) ↔
      ∃ r, Host.flashKeyed calls image s = .ok r := by
  have hwrites : ∀ r, Host.flashKeyed calls image s = .ok r ↔
      calls.succeeds .dd = true ∧ afterImage calls (written image s) = .ok r := by
    intro r
    show (flashImageToDevice calls image s >>= fun t => afterImage calls t) = .ok r ↔ _
    simp only [bind_eq_ok_iff, flashImageToDevice_eq_ok_iff]
    constructor
    · rintro ⟨_, ⟨hdd, rfl⟩, hrest⟩
      exact ⟨hdd, hrest⟩
    · rintro ⟨hdd, hrest⟩
      exact ⟨_, ⟨hdd, rfl⟩, hrest⟩
  simp only [hwrites]
  constructor
  · rintro ⟨f, hf⟩
    obtain ⟨f', hflash, hf⟩ := bind_eq_ok hf
    obtain ⟨_, hlater, -⟩ := bind_eq_ok hf
    obtain ⟨r, hr⟩ := (h.later f' hflash).1 hlater
    exact ⟨r, h.dd.2 ⟨f', hflash⟩, hr⟩
  · rintro ⟨r, hdd, hrest⟩
    obtain ⟨f, hflash⟩ := h.dd.1 hdd
    refine ⟨f, bind_eq_ok_iff.2 ⟨f, hflash, ?_⟩⟩
    exact bind_eq_ok_iff.2 ⟨(), (h.later f hflash).2 ⟨r, hrest⟩, rfl⟩

/-- A normal flash that succeeds without `--skip-verify`: the image is on the card, and the writes
after it are in place where the re-read is done or the view agrees. -/
theorem normal_flash_whole (hsha : Function.Injective Sha256.hexDigest) {f : Flashed}
    (h : io.Tells calls file card (afterReadBack calls chainInfo (written image s)))
    (hf : ReadBack.finishNormalFlash io file false card = .ok f) :
    f.card.take file.decompressed.length = file.decompressed ∧ ∃ s' verdict,
      Host.finishNormalFlash calls image false chainInfo s = .ok (s', verdict) ∧
        (s'.Lands ↔ calls.afterFlash.done calls.root = true ∨ BootInPlace s.view image.table) := by
  obtain ⟨⟨s', verdict⟩, hs'⟩ := h.finishNormalFlash.1 ⟨f, hf⟩
  exact ⟨(finishNormalFlash_eq_ok hsha hf).2, s', verdict, hs', finishNormalFlash_lands hs'⟩

/-- A keyed flash that succeeds: the image is on the card where its bytes are spared, and the writes
after it are in place where the view that they go by is settled. -/
theorem keyed_flash_whole {f : Flashed}
    (h : io.Tells calls file card (afterImage calls (written image s)))
    (hf : flashAndWriteKeys io file card = .ok f) :
    (f.card.take file.decompressed.length = file.decompressed ↔
      Spared io.fate file.decompressed card) ∧ ∃ s',
        Host.flashKeyed calls image s = .ok s' ∧
          (s'.KeyedLands ↔ KeyedSettled calls image s.view) := by
  obtain ⟨s', hs'⟩ := h.flashKeyed.1 ⟨f, hf⟩
  obtain ⟨f', hflash, hlater⟩ := bind_eq_ok hf
  obtain ⟨_, -, hlater⟩ := bind_eq_ok hlater
  cases hlater
  refine ⟨?_, s', hs', flashKeyed_lands hs'⟩
  rw [(flashImageLinux_eq_ok hflash).2.1]
  exact take_land_iff

end

/-! ## A flash to evaluate -/

theorem plainSha256_injective :
    letI := plainSha256
    Function.Injective Sha256.hexDigest := by
  intro xs ys h
  have hmap : xs.map (fun b => Char.ofNat b.toNat) = ys.map (fun b => Char.ofNat b.toNat) :=
    String.ofList_injective h
  refine List.map_injective_iff.mpr (fun a b hab => ?_) hmap
  rw [← UInt8.toNat_inj, ← KeyManager.toNat_byteChar a, hab, KeyManager.toNat_byteChar b]

/-- Files that are not compressed. -/
@[reducible] def plainXz : XzDecoder where
  decompress content := ([content], .ok ())

/-- All succeeds, and the bytes have these fates. -/
def CardIo.smooth (fate : Nat → Fate) : CardIo where
  start := .ok true
  ready := .ok ()
  opened := true
  reopened := true
  answers := [.takes 3, .takes 9]
  exit := true
  synced := true
  fate
  openDevice := true
  sudoReads := false
  later _ := .ok ()

/-- A flash of an image of five bytes. -/
def smallFlash (keys : Option KeySource) : FlashArgs where
  image := some ⟨some "img", [1, 2, 3, 4, 5]⟩
  downloaded := .error "no download"
  keys
  singleReader := false
  skipVerify := false

section
attribute [local instance] plainSha256 plainXz

/-- A flash that writes every byte has the image on the card. -/
theorem flash_landed_small : ∃ f, runFlash (.smooth fun _ => .written) (smallFlash (some .restore))
    (List.replicate 8 0) = .flashed f ∧ f.card.take 5 = [1, 2, 3, 4, 5] := by
  refine ⟨_, rfl, ?_⟩
  exact (flash_landed_iff plainSha256_injective (.smooth fun _ => .written)
    (smallFlash (some .restore)) (List.replicate 8 0) rfl rfl rfl).1.mpr
      (.inr (take_land_iff.mp (by decide)))

/-- **A restore reports success over a lost byte**: the fourth byte of the image is not on the
card. -/
theorem restore_not_landed : ¬∀ [XzDecoder] [Sha256], Function.Injective Sha256.hexDigest →
    ∀ (io : CardIo) (args : FlashArgs) (card : List UInt8) (image : ImageFile) (f : Flashed),
      args.source = .ok image → args.skipVerify = false → runFlash io args card = .flashed f →
        f.card.take image.decompressed.length = image.decompressed := by
  intro hall
  have hlands := @hall plainXz plainSha256 plainSha256_injective
    (.smooth fun i => if i = 3 then .lost else .written) (smallFlash (some .restore))
    (List.replicate 8 0) _ _ rfl rfl rfl
  exact absurd hlands (by decide)

end

end Host.ReadBack

end Russignol
