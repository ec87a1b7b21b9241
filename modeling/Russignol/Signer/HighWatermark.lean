import Mathlib.Data.Prod.Lex
import Mathlib.Logic.Function.Basic
import Mathlib.Order.Nat
import Russignol.Signer.MagicBytes
import Russignol.Storage.Watermark

/-!
# High watermarks

`HighWatermark` of `libs/signer/src/high_watermark.rs`: per key and operation type a mark in
memory, the ceiling believed to be on stable storage, and the last record confirmed there, with
the record files beside them in a `Disk`.

A file is what a reload would read. A record write is positional and never truncates, so a file
that was too long stays too long. A write that fails, before its bytes, between them or at the
`fdatasync`, leaves the old content, the new record, or something else (`Left`); which one is an
input of the operation, as is every other outcome the kernel decides.
-/

namespace Russignol

open Bytes

/-- `WatermarkEntry`: level and round. -/
structure WatermarkEntry where
  level : UInt32
  round : UInt32
  deriving DecidableEq, Repr

namespace WatermarkEntry

/-- The position of an entry in the lexicographic order. -/
def key (e : WatermarkEntry) : ℕ ×ₗ ℕ := toLex (e.level.toNat, e.round.toNat)

theorem key_injective : Function.Injective key := by
  rintro ⟨l, r⟩ ⟨l', r'⟩ h
  have h' := toLex.injective h
  simp only [Prod.mk.injEq, UInt32.toNat_inj] at h'
  rw [h'.1, h'.2]

/-- Entries are ordered by level, then by round. -/
instance : LinearOrder WatermarkEntry := LinearOrder.lift' key key_injective

/-- The order, in the code's comparisons. -/
theorem lt_iff {a b : WatermarkEntry} :
    a < b ↔ a.level < b.level ∨ a.level = b.level ∧ a.round < b.round := by
  have h : a < b ↔ key a < key b := Iff.rfl
  rw [h, key, key, Prod.Lex.toLex_lt_toLex, UInt32.lt_iff_toNat_lt, UInt32.lt_iff_toNat_lt,
    UInt32.toNat_inj]

/-- The order, in the code's comparisons. -/
theorem le_iff {a b : WatermarkEntry} :
    a ≤ b ↔ a.level < b.level ∨ a.level = b.level ∧ a.round ≤ b.round := by
  have h : a ≤ b ↔ key a ≤ key b := Iff.rfl
  rw [h, key, key, Prod.Lex.toLex_le_toLex, UInt32.lt_iff_toNat_lt, UInt32.le_iff_toNat_le,
    UInt32.toNat_inj]

end WatermarkEntry

/-- The text of an `io::Error`. -/
abbrev IoError := String

/-- `WatermarkError`. -/
inductive WatermarkError
  | levelTooLow (current requested : UInt32)
  | roundTooLow (level current requested : UInt32)
  | invalidData (text : String)
  | io (e : IoError)
  | internal (text : String)
  | notInitialized (chainId pkh : String)
  | largeLevelGap (currentLevel requestedLevel gap cycles : UInt32)
  | chainMismatch (expected got : String)
  deriving DecidableEq, Repr

/-! ## The record files -/

/-- A mark, and what it was written for. -/
structure Mark where
  pkh : PublicKeyHash
  chainId : ChainId
  idx : OperationType
  entry : WatermarkEntry
  deriving DecidableEq

/-- The watermark directory: which key directories exist, and the content of each record file. An
absent file and an empty one read alike. -/
structure Disk where
  isDir : PublicKeyHash → Bool
  files : PublicKeyHash → OperationType → List UInt8
  /-- History, which no operation reads: the marks whose records reached a file, the latest
  first. -/
  written : List Mark

/-- What a failed record write leaves in the file. -/
inductive Left
  | old
  | new
  | garbled (bytes : List UInt8)
  deriving DecidableEq

/-- The content a failed write of `buf` leaves in a file that held `content`. -/
def Left.content (left : Left) (buf content : List UInt8) : List UInt8 :=
  match left with
  | .old => content
  | .new => writeAt0 buf content
  | .garbled bytes => bytes

/-- The outcome of `write_all_at` followed by `sync_data`. -/
inductive WriteIo
  | done
  | failed (left : Left) (e : IoError)
  deriving DecidableEq

namespace Disk

/-- Replace the content of one record file. -/
def setFile (d : Disk) (k : PublicKeyHash) (t : OperationType) (content : List UInt8) : Disk :=
  { d with files := Function.update d.files k (Function.update (d.files k) t content) }

/-- The record of a mark reached its file. -/
def put (d : Disk) (m : Mark) (content : List UInt8) : Disk :=
  { d.setFile m.pkh m.idx content with written := m :: d.written }

/-- `write_all_at(&buf, 0)` and `sync_data` for the record of a mark. -/
def writeRecord (d : Disk) (io : WriteIo) (m : Mark) (buf : List UInt8) :
    Except IoError Unit × Disk :=
  let content := d.files m.pkh m.idx
  match io with
  | .done => (.ok (), d.put m (writeAt0 buf content))
  | .failed .new e => (.error e, d.put m (writeAt0 buf content))
  | .failed left e => (.error e, d.setFile m.pkh m.idx (left.content buf content))

/-- `create_dir_all` of a key directory. -/
def mkDir (d : Disk) (k : PublicKeyHash) : Disk := { d with isDir := Function.update d.isDir k true }

end Disk

/-- A fault while the record files of a key are loaded: at its directory, or at a file in it. -/
inductive LoadFault
  | dir (e : IoError)
  | file (e : IoError)
  deriving DecidableEq

variable [Blake3]

/-- `load_entry_authenticated`. -/
def loadEntryAuthenticated (macKey : Watermark.MacKey) (ad content : List UInt8) :
    Option WatermarkEntry :=
  if h : content.length = Watermark.authFileSize then
    (Watermark.decodeAuthenticated macKey ad ⟨content, h⟩).map fun (level, round) => ⟨level, round⟩
  else none

/-- `PerKeyWatermark`, less the open file handles. -/
structure PerKeyWatermark where
  entries : OperationType → Option WatermarkEntry
  diskCeiling : OperationType → Option WatermarkEntry
  diskEntries : OperationType → Option WatermarkEntry

/-- `load_per_key_watermark`, where nothing fails. -/
def loadPerKeyWatermark (d : Disk) (pkh : PublicKeyHash) (macKey : Watermark.MacKey)
    (ad : List UInt8) : PerKeyWatermark where
  entries t := loadEntryAuthenticated macKey ad (d.files pkh t)
  diskCeiling _ := none
  diskEntries t := loadEntryAuthenticated macKey ad (d.files pkh t)

/-- `WatermarkUpdate`. -/
structure WatermarkUpdate where
  pkh : PublicKeyHash
  idx : OperationType
  level : UInt32
  round : UInt32
  prev : Option WatermarkEntry
  deriving DecidableEq

/-- The entry an update writes. -/
def WatermarkUpdate.entry (u : WatermarkUpdate) : WatermarkEntry := ⟨u.level, u.round⟩

/-- `HighWatermark`, less the base directory, which the `Disk` is. -/
structure HighWatermark where
  knownPkhs : List PublicKeyHash
  keys : PublicKeyHash → Option PerKeyWatermark
  macKeys : PublicKeyHash → Option Watermark.MacKey
  chainId : ChainId

/-- What the kernel answers while a `HighWatermark` is built. -/
structure LoadIo where
  /-- Creating the base directory. -/
  base : Option IoError
  /-- Loading one key. -/
  key : PublicKeyHash → Option IoError

/-- Memory and disk. -/
structure Store where
  wm : HighWatermark
  disk : Disk

namespace HighWatermark

variable [Base58]

/-- `mac_key_for`. -/
def macKeyFor (macKeys : PublicKeyHash → Option Watermark.MacKey) (pkh : PublicKeyHash) :
    Except IoError Watermark.MacKey :=
  match macKeys pkh with
  | some macKey => .ok macKey
  | none => .error ("no watermark MAC key for " ++ pkh.toB58check)

/-- The loop of `new` over the keys. -/
def loadKeys (io : LoadIo) (d : Disk) (macKeys : PublicKeyHash → Option Watermark.MacKey)
    (chainId : ChainId) : List PublicKeyHash → (PublicKeyHash → Option PerKeyWatermark) →
    Except IoError (PublicKeyHash → Option PerKeyWatermark)
  | [], keys => .ok keys
  | pkh :: pkhs, keys =>
    if d.isDir pkh then
      match macKeyFor macKeys pkh with
      | .error e => .error e
      | .ok macKey =>
        match io.key pkh with
        | some e => .error e
        | none =>
          loadKeys io d macKeys chainId pkhs
            (Function.update keys pkh (some (loadPerKeyWatermark d pkh macKey chainId.bytes.1)))
    else loadKeys io d macKeys chainId pkhs keys

/-- `HighWatermark::new`. -/
def new (io : LoadIo) (d : Disk) (pkhs : List PublicKeyHash)
    (macKeys : PublicKeyHash → Option Watermark.MacKey) (chainId : ChainId) :
    Except IoError HighWatermark :=
  match io.base with
  | some e => .error e
  | none =>
    match loadKeys io d macKeys chainId pkhs (fun _ => none) with
    | .error e => .error e
    | .ok keys => .ok { knownPkhs := pkhs, keys, macKeys, chainId }

/-- `mac_key`. -/
def macKey (wm : HighWatermark) (pkh : PublicKeyHash) : Except WatermarkError Watermark.MacKey :=
  match wm.macKeys pkh with
  | some macKey => .ok macKey
  | none => .error (.notInitialized wm.chainId.toB58check pkh.toB58check)

/-- `mark_bytes`. -/
def markBytes (wm : HighWatermark) (pkh : PublicKeyHash) (level round : UInt32) :
    Except WatermarkError (Fixed Watermark.authFileSize) :=
  (wm.macKey pkh).map fun macKey =>
    Watermark.encodeAuthenticated macKey wm.chainId.bytes.1 level round

/-- `per_key_mut`. -/
def perKey (wm : HighWatermark) (pkh : PublicKeyHash) : Except WatermarkError PerKeyWatermark :=
  match wm.keys pkh with
  | some perKey => .ok perKey
  | none => .error (.internal ("Unknown key: " ++ pkh.toB58check))

/-- Replace the state of one key. -/
def setKey (wm : HighWatermark) (pkh : PublicKeyHash) (perKey : PerKeyWatermark) : HighWatermark :=
  { wm with keys := Function.update wm.keys pkh (some perKey) }

/-- Replace the mark of one slot, where the key is loaded. -/
def setEntry (wm : HighWatermark) (pkh : PublicKeyHash) (t : OperationType)
    (entry : Option WatermarkEntry) : HighWatermark :=
  match wm.keys pkh with
  | some perKey => wm.setKey pkh { perKey with entries := Function.update perKey.entries t entry }
  | none => wm

omit [Base58] in
/-- `get_max_level`: the highest level of the three marks. -/
def getMaxLevel (wm : HighWatermark) (pkh : PublicKeyHash) : Option UInt32 :=
  (wm.keys pkh).bind fun perKey =>
    (OperationType.all.filterMap fun t => (perKey.entries t).map (·.level)).max?

/-- `get_current_level`: the chain is not looked at. -/
def getCurrentLevel (wm : HighWatermark) (_chainId : ChainId) (pkh : PublicKeyHash) :
    Option UInt32 :=
  wm.getMaxLevel pkh

/-- `ceiling_covers`. -/
def ceilingCovers (wm : HighWatermark) (u : WatermarkUpdate) : Bool :=
  match wm.keys u.pkh with
  | none => false
  | some perKey =>
    match perKey.diskCeiling u.idx with
    | none => false
    | some c => c.level > u.level ∨ (c.level = u.level ∧ c.round ≥ u.round)

/-- `rollback_update`. -/
def rollbackUpdate (wm : HighWatermark) (u : WatermarkUpdate) : HighWatermark :=
  wm.setEntry u.pkh u.idx u.prev

end HighWatermark

namespace Store

variable [Base58]

/-- `ensure_key`. -/
def ensureKey (fault : Option LoadFault) (pkh : PublicKeyHash) (s : Store) :
    Except WatermarkError Unit × Store :=
  if (s.wm.keys pkh).isSome then (.ok (), s)
  else if pkh ∉ s.wm.knownPkhs then (.error (.notInitialized "" pkh.toB58check), s)
  else
    match fault with
    | some (.dir e) => (.error (.io e), s)
    | some (.file e) =>
      let s := { s with disk := s.disk.mkDir pkh }
      match s.wm.macKey pkh with
      | .error e => (.error e, s)
      | .ok _ => (.error (.io e), s)
    | none =>
      let s := { s with disk := s.disk.mkDir pkh }
      match s.wm.macKey pkh with
      | .error e => (.error e, s)
      | .ok macKey =>
        let perKey := loadPerKeyWatermark s.disk pkh macKey s.wm.chainId.bytes.1
        (.ok (), { s with wm := s.wm.setKey pkh perKey })

/-- `check_and_update_parsed`. -/
def checkAndUpdateParsed (fault : Option LoadFault) (chainId : ChainId) (pkh : PublicKeyHash)
    (t : OperationType) (level round : UInt32) (s : Store) :
    Except WatermarkError (Option WatermarkUpdate) × Store :=
  match s.ensureKey fault pkh with
  | (.error e, s) => (.error e, s)
  | (.ok (), s) =>
    match (s.wm.keys pkh).bind (·.entries t) with
    | none => (.error (.notInitialized chainId.toB58check pkh.toB58check), s)
    | some current =>
      if level < current.level then (.error (.levelTooLow current.level level), s)
      else if level = current.level ∧ round ≤ current.round then
        (.error (.roundTooLow level current.round round), s)
      else
        (.ok (some { pkh, idx := t, level, round, prev := some current }),
          { s with wm := s.wm.setEntry pkh t (some ⟨level, round⟩) })

/-- `check_and_update`. -/
def checkAndUpdate (fault : Option LoadFault) (chainId : ChainId) (pkh : PublicKeyHash)
    (data : List UInt8) (s : Store) : Except WatermarkError (Option WatermarkUpdate) × Store :=
  match data with
  | [] => (.error (.invalidData "Empty data"), s)
  | magicByte :: _ =>
    match OperationType.fromMagicByte magicByte with
    | none => (.ok none, s)
    | some t =>
      match MagicBytes.levelRoundOf t data with
      | .error e => (.error (.invalidData e.toString), s)
      | .ok (level, round) => s.checkAndUpdateParsed fault chainId pkh t level round

/-- The part `write_watermark`, `write_ceiling` and `rollback_disk_watermark` share: write the
record of an entry and, once it is synced, note it as the confirmed record, under the given
ceiling. -/
def persist (io : WriteIo) (pkh : PublicKeyHash) (t : OperationType) (entry : WatermarkEntry)
    (ceiling : Option WatermarkEntry) (s : Store) : Except WatermarkError Unit × Store :=
  match s.wm.markBytes pkh entry.level entry.round with
  | .error e => (.error e, s)
  | .ok buf =>
    match s.wm.perKey pkh with
    | .error e => (.error e, s)
    | .ok perKey =>
      match s.disk.writeRecord io ⟨pkh, s.wm.chainId, t, entry⟩ buf.1 with
      | (.error e, disk) => (.error (.io e), { s with disk })
      | (.ok (), disk) =>
        (.ok (),
          { wm := s.wm.setKey pkh
              { perKey with
                diskCeiling := Function.update perKey.diskCeiling t ceiling
                diskEntries := Function.update perKey.diskEntries t (some entry) },
            disk })

/-- `write_watermark`, as released: the read-back of debug builds is left out. -/
def writeWatermark (io : WriteIo) (u : WatermarkUpdate) (s : Store) :
    Except WatermarkError Unit × Store :=
  s.persist io u.pkh u.idx u.entry none

/-- `rollback_disk_watermark`. -/
def rollbackDiskWatermark (io : WriteIo) (u : WatermarkUpdate) (s : Store) :
    Except WatermarkError Unit × Store :=
  match u.prev with
  | none => (.ok (), s)
  | some prev => s.persist io u.pkh u.idx prev none

/-- `write_ceiling`. -/
def writeCeiling (io : WriteIo) (pkh : PublicKeyHash) (t : OperationType) (ceilingLevel : UInt32)
    (s : Store) : Except WatermarkError Unit × Store :=
  let ceiling : WatermarkEntry := ⟨ceilingLevel, 0xFFFFFFFF⟩
  match s.wm.markBytes pkh ceiling.level ceiling.round with
  | .error e => (.error e, s)
  | .ok _ =>
    match s.wm.perKey pkh with
    | .error e => (.error e, s)
    | .ok perKey =>
      if (perKey.entries t).any (fun e => decide (e.level ≥ ceilingLevel)) then (.ok (), s)
      else if (perKey.diskCeiling t).any (fun c => decide (c.level ≥ ceilingLevel)) then (.ok (), s)
      else s.persist io pkh t ceiling (some ceiling)

/-- The writes of `update_to_level`, up to the first that fails. -/
def writeAll (ios : OperationType → WriteIo) : List WatermarkUpdate → Store →
    Except WatermarkError Unit × Store
  | [], s => (.ok (), s)
  | u :: us, s =>
    match s.writeWatermark (ios u.idx) u with
    | (.error e, s) => (.error e, s)
    | (.ok (), s) => s.writeAll ios us

/-- `update_to_level`: the three marks in memory first, then the three records. -/
def updateToLevel (fault : Option LoadFault) (ios : OperationType → WriteIo) (_chainId : ChainId)
    (pkh : PublicKeyHash) (level : UInt32) (s : Store) : Except WatermarkError Unit × Store :=
  match s.ensureKey fault pkh with
  | (.error e, s) => (.error e, s)
  | (.ok (), s) =>
    match s.wm.keys pkh with
    | none => (.ok (), s)
    | some perKey =>
      let updates := OperationType.all.map fun t =>
        ({ pkh, idx := t, level, round := 0, prev := perKey.entries t } : WatermarkUpdate)
      { s with wm := s.wm.setKey pkh { perKey with entries := fun _ => some ⟨level, 0⟩ } }.writeAll
        ios updates

/-- `seed_floor`. -/
def seedFloor (fault : Option LoadFault) (ios : OperationType → WriteIo) (chainId : ChainId)
    (pkh : PublicKeyHash) (level : UInt32) (s : Store) : Except WatermarkError Unit × Store :=
  match s.ensureKey fault pkh with
  | (.error e, s) => (.error e, s)
  | (.ok (), s) =>
    if (s.wm.getMaxLevel pkh).any (fun existing => decide (existing ≥ level)) then (.ok (), s)
    else s.updateToLevel none ios chainId pkh level

end Store

/-- The writes of `seed_watermarks` over the record files, up to the first that fails. Unlike a
record write these truncate. -/
def Disk.seedFiles (ios : OperationType → WriteIo) (pkh : PublicKeyHash) (chainId : ChainId)
    (entry : WatermarkEntry) (buf : List UInt8) :
    List OperationType → Disk → Except IoError Unit × Disk
  | [], d => (.ok (), d)
  | t :: ts, d =>
    match ios t with
    | .done => (d.put ⟨pkh, chainId, t, entry⟩ buf).seedFiles ios pkh chainId entry buf ts
    | .failed .new e => (.error e, d.put ⟨pkh, chainId, t, entry⟩ buf)
    | .failed .old e => (.error e, d)
    | .failed (.garbled bytes) e => (.error e, d.setFile pkh t bytes)

/-- `seed_watermarks`. -/
def Disk.seedWatermarks (dir : Option IoError) (ios : OperationType → WriteIo)
    (pkh : PublicKeyHash) (level : UInt32) (macKey : Watermark.MacKey) (chainId : ChainId)
    (d : Disk) : Except IoError Unit × Disk :=
  match dir with
  | some e => (.error e, d)
  | none =>
    (d.mkDir pkh).seedFiles ios pkh chainId ⟨level, 0⟩
      (Watermark.encodeAuthenticated macKey chainId.bytes.1 level 0).1 OperationType.all

end Russignol
