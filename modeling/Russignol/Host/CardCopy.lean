import Mathlib.Data.List.Sort
import Russignol.Host.MigrateKeys
import Russignol.Host.WatermarkConfig
import Russignol.Rpi.InitScript
import Russignol.Rpi.KeyCustody

/-!
# Copying a card

`read_source_card` and `write_backup_to_target` of `host-utility/src/restore_keys.rs`, over the
files of a keys partition. The host copies what begins with `secret_keys.enc` without looking into
it, and neither the attempt counter nor its leftovers. `KeysDir.Copied` is what that means for the
key files the device finds.

A call of the host that fails ends the copy with an error. Modes and owners are left out.
-/

namespace Russignol.Host

open FileStore TezosEncrypt Crypto

/-- The files of a keys partition, by name. -/
structure KeysDir where
  entries : List (String × List UInt8)
  distinct : (entries.map Prod.fst).Nodup

namespace KeysDir

/-- A partition that was formatted. -/
def empty : KeysDir := ⟨[], List.nodup_nil⟩

/-- `fs::read`. -/
def read (d : KeysDir) (name : String) : Option (List UInt8) := d.entries.lookup name

/-- `fs::write`. -/
def write (name : String) (bytes : List UInt8) (d : KeysDir) : KeysDir where
  entries := (name, bytes) :: d.entries.filter (·.1 ≠ name)
  distinct := by
    rw [List.map_cons, List.nodup_cons]
    refine ⟨?_, d.distinct.sublist (List.filter_sublist.map _)⟩
    simp

/-- `fs::read_to_string`. -/
def readToString (d : KeysDir) (name : String) : Option String := (d.read name).bind fromUtf8

@[simp] theorem read_empty (name : String) : empty.read name = none := rfl

/-- A file that was written is read back, and the others are as they were. -/
theorem read_write (d : KeysDir) (name : String) (bytes : List UInt8) (other : String) :
    (d.write name bytes).read other = if other = name then some bytes else d.read other := by
  obtain ⟨entries, distinct⟩ := d
  unfold write read
  rw [List.lookup_cons]
  by_cases h : other = name
  · rw [if_pos h, beq_iff_eq.2 h]
  · rw [if_neg h, beq_eq_false_iff_ne.2 h]
    dsimp only
    clear distinct
    induction entries with
    | nil => rfl
    | cons e es ih =>
      rw [List.lookup_cons]
      by_cases he : e.1 = name
      · have hne : (other == e.1) = false := beq_eq_false_iff_ne.2 fun heq => h (heq.trans he)
        rw [hne, List.filter_cons_of_neg (by simpa using he)]
        exact ih
      · rw [List.filter_cons_of_pos (by simpa using he), List.lookup_cons]
        cases other == e.1
        · exact ih
        · rfl

/-- What is read is an entry. -/
theorem read_eq_some {d : KeysDir} {name : String} {bytes : List UInt8} :
    d.read name = some bytes ↔ (name, bytes) ∈ d.entries := by
  obtain ⟨entries, distinct⟩ := d
  unfold read
  dsimp only
  induction entries with
  | nil => simp
  | cons e es ih =>
    obtain ⟨key, value⟩ := e
    have hdistinct := distinct
    rw [List.map_cons, List.nodup_cons] at hdistinct
    rw [List.lookup_cons, List.mem_cons]
    by_cases h : name = key
    · subst h
      have hnot : (name, bytes) ∉ es := fun hmem =>
        hdistinct.1 (List.mem_map.2 ⟨_, hmem, rfl⟩)
      simp [hnot, eq_comm]
    · rw [beq_eq_false_iff_ne.2 h]
      simp [h, ih hdistinct.2]

end KeysDir

/-! ## The key files of the device -/

/-- `file_name`. -/
def fileName : KeyFile → String
  | .v1 => "secret_keys.enc"
  | .v2 => "secret_keys.enc.v2"
  | .counter => ".migration_attempts"

/-- The name in the directory. -/
def pathName : KeyPath → String
  | .file f => fileName f
  | .tmp f => fileName f ++ ".tmp"

/-- What the device finds of the key files. -/
def KeysDir.keyFiles (d : KeysDir) : Files KeyPath := ⟨fun p => d.read (pathName p), []⟩

/-! ## Reading a card -/

/-- `u8::is_ascii_control`. -/
def isAsciiControl (b : UInt8) : Bool := b < 0x20 || b == 0x7f

/-- `is_safe_pin_blob_filename`. -/
def isSafePinBlobFilename (name : String) : Bool :=
  if !"secret_keys.enc".toList.isPrefixOf name.toList then false
  else !(asBytes name).any fun b => b == 0x2f || b == 0x5c || b == 0 || isAsciiControl b

/-- `read_pin_blobs`. -/
def readPinBlobs (dir : KeysDir) : Except String (List (String × List UInt8)) :=
  let blobs := dir.entries.filter fun entry => isSafePinBlobFilename entry.1
  if blobs.isEmpty then
    .error "No keys found on source card -- has this device completed setup?"
  else .ok (blobs.insertionSort fun a b => a.1 ≤ b.1)

/-- `chain_info.json` of the source, for what it is read for: a text that does not parse is null. -/
def readChain [JsonText] (dir : KeysDir) : Option String × Option String :=
  match dir.readToString "chain_info.json" with
  | some contents =>
    let parsed := ((JsonText.parse contents).toOption).getD .null
    (strMember parsed "id", strMember parsed "name")
  | none => (none, none)

/-- A card, as the host finds it: the files of its third partition, if there is one, and what tells
it apart, the identifier of its manifest and that of its partition table. -/
structure SourceCard where
  keys : Option KeysDir
  cardId : Option String
  ptuuid : Option String

/-- `read_source_card`, with what `read_card_id` returns. -/
def readSourceCard [JsonText] (p3Path : String) (cardId : Option String) (card : SourceCard) :
    Except String SourceBackup := do
  let keys ← orError ("Source card does not appear to be a configured russignol device\n" ++
    "  (partition " ++ p3Path ++ " not found)") card.keys
  let pinBlobs ← readPinBlobs keys
  let publicKeys ← orError "Missing public_keys on source card" (keys.read "public_keys")
  let publicKeyHashs ← orError "Missing public_key_hashs on source card"
    (keys.read "public_key_hashs")
  return {
    pinBlobs
    publicKeys
    publicKeyHashs
    sourceCardId := cardId
    sourceChainId := (readChain keys).1
    sourceChainName := (readChain keys).2 }

/-! ## Writing a card -/

/-- How the calls of a copy end: the mount point, what a `chown` and an unmount that fail say, and
which writes succeed. -/
structure CopyIo where
  mount : Option String
  reclaim : Option String
  writes : String → Bool
  unmount : Option String
  stages : Bool

/-- `reclaim_mount_ownership`. -/
def reclaimMountOwnership (io : CopyIo) (mount : String) : Except String Unit :=
  match io.reclaim with
  | none => .ok ()
  | some stderr =>
    .error ("chown of " ++ mount ++ " failed: " ++ String.ofList (trim stderr.toList))

/-- `unmount_partition`. -/
def unmountPartition (io : CopyIo) : Except String Unit :=
  match io.unmount with
  | none => .ok ()
  | some text => .error text

/-- A call, or its error. -/
def succeeds (ok : Bool) (text : String) : Except String Unit := if ok then .ok () else .error text

/-- `fs::write`, or its error. -/
def writeFile (io : CopyIo) (context name : String) (bytes : List UInt8) (dir : KeysDir) :
    Except String KeysDir :=
  (succeeds (io.writes name) context).map fun _ => dir.write name bytes

/-- `write_pin_blobs`. -/
def writePinBlobs (io : CopyIo) (dir : KeysDir) (pinBlobs : List (String × List UInt8)) :
    Except String KeysDir :=
  pinBlobs.foldlM (fun dir blob => writeFile io "Failed to write PIN blobs" blob.1 blob.2 dir) dir

/-- `write_backup_to_target`: the keys partition after it; the configuration is staged. -/
def writeBackupToTarget [JsonText] (io : CopyIo) (dir : KeysDir) (backup : SourceBackup)
    (chain : ChainInfo) : Except String KeysDir := do
  let mount ← orError "Failed to mount target keys partition" io.mount
  reclaimMountOwnership io mount
  let dir ← writePinBlobs io dir backup.pinBlobs
  let dir ← writeFile io "Failed to write public_keys" "public_keys" backup.publicKeys dir
  let dir ← writeFile io "Failed to write public_key_hashs" "public_key_hashs"
    backup.publicKeyHashs dir
  let dir ← writeFile io "Failed to write chain_info.json" "chain_info.json"
    (chainInfoBytes chain) dir
  let dir ← writeFile io "Failed to write .setup_complete marker" ".setup_complete"
    (asBytes "1") dir
  unmountPartition io
  succeeds io.stages "Failed to stage watermark-config.json on the boot partition"
  return dir

/-! ## What is copied -/

/-- The blobs are the files of the partition with a safe name. -/
theorem readPinBlobs_eq_ok {dir : KeysDir} {blobs : List (String × List UInt8)}
    (h : readPinBlobs dir = .ok blobs) :
    (∀ name bytes, (name, bytes) ∈ blobs ↔
      isSafePinBlobFilename name = true ∧ dir.read name = some bytes) ∧
    (blobs.map Prod.fst).Nodup := by
  unfold readPinBlobs at h
  dsimp only at h
  split at h
  · cases h
  · cases h
    have hperm := List.perm_insertionSort (fun a b : String × List UInt8 => a.1 ≤ b.1)
      (dir.entries.filter fun entry => isSafePinBlobFilename entry.1)
    refine ⟨fun name bytes => ?_, ?_⟩
    · rw [hperm.mem_iff, List.mem_filter, KeysDir.read_eq_some, and_comm]
    · exact (hperm.map Prod.fst).nodup_iff.2
        (dir.distinct.sublist (List.filter_sublist.map Prod.fst))

/-- A write that succeeds. -/
theorem writeFile_eq_ok {io : CopyIo} {context name : String} {bytes : List UInt8}
    {dir dir' : KeysDir} (h : writeFile io context name bytes dir = .ok dir') :
    dir' = dir.write name bytes := by
  unfold writeFile succeeds at h
  split at h
  · exact (Except.ok.inj h).symm
  · cases h

/-- The blobs that are written are read back, and the other files are as they were. -/
theorem read_writePinBlobs {io : CopyIo} {blobs : List (String × List UInt8)}
    {dir dir' : KeysDir} (h : writePinBlobs io dir blobs = .ok dir')
    (hdistinct : (blobs.map Prod.fst).Nodup) (name : String) :
    (∀ bytes, (name, bytes) ∈ blobs → dir'.read name = some bytes) ∧
      (name ∉ blobs.map Prod.fst → dir'.read name = dir.read name) := by
  induction blobs generalizing dir with
  | nil =>
    cases h
    exact ⟨fun bytes hmem => absurd hmem List.not_mem_nil, fun _ => rfl⟩
  | cons blob blobs ih =>
    rw [writePinBlobs, List.foldlM_cons] at h
    obtain ⟨next, hnext, hrest⟩ := bind_eq_ok h
    rw [writeFile_eq_ok hnext] at hrest
    rw [List.map_cons, List.nodup_cons] at hdistinct
    obtain ⟨hwritten, hkept⟩ := ih hrest hdistinct.2
    refine ⟨fun bytes hmem => ?_, fun hnot => ?_⟩
    · rcases List.mem_cons.1 hmem with rfl | hmem
      · rw [hkept hdistinct.1, KeysDir.read_write, if_pos rfl]
      · exact hwritten bytes hmem
    · rw [List.map_cons, List.mem_cons, not_or] at hnot
      rw [hkept hnot.2, KeysDir.read_write, if_neg hnot.1]

/-- What a copy that succeeds has read. -/
theorem readSourceCard_eq_ok [JsonText] {p3Path : String} {cardId : Option String}
    {card : SourceCard} {backup : SourceBackup}
    (h : readSourceCard p3Path cardId card = .ok backup) :
    ∃ keys, card.keys = some keys ∧ readPinBlobs keys = .ok backup.pinBlobs := by
  obtain ⟨keys, hkeys, h⟩ := bind_eq_ok h
  obtain ⟨blobs, hblobs, h⟩ := bind_eq_ok h
  obtain ⟨_, -, h⟩ := bind_eq_ok h
  obtain ⟨_, -, h⟩ := bind_eq_ok h
  cases h
  refine ⟨keys, ?_, hblobs⟩
  cases hcard : card.keys with
  | none =>
    rw [hcard] at hkeys
    cases hkeys
  | some keys' =>
    rw [hcard] at hkeys
    rw [Except.ok.inj hkeys]

/-- What a copy that succeeds has written. -/
theorem writeBackupToTarget_eq_ok [JsonText] {io : CopyIo} {dir target : KeysDir}
    {backup : SourceBackup} {chain : ChainInfo}
    (h : writeBackupToTarget io dir backup chain = .ok target) :
    ∃ copied, writePinBlobs io dir backup.pinBlobs = .ok copied ∧
      target = (((copied.write "public_keys" backup.publicKeys).write "public_key_hashs"
        backup.publicKeyHashs).write "chain_info.json" (chainInfoBytes chain)).write
          ".setup_complete" (asBytes "1") := by
  obtain ⟨_, -, h⟩ := bind_eq_ok h
  obtain ⟨_, -, h⟩ := bind_eq_ok h
  obtain ⟨copied, hcopied, h⟩ := bind_eq_ok h
  obtain ⟨keysDir, hkeysDir, h⟩ := bind_eq_ok h
  obtain ⟨hashsDir, hhashsDir, h⟩ := bind_eq_ok h
  obtain ⟨chainDir, hchainDir, h⟩ := bind_eq_ok h
  obtain ⟨markerDir, hmarkerDir, h⟩ := bind_eq_ok h
  obtain ⟨_, -, h⟩ := bind_eq_ok h
  obtain ⟨_, -, h⟩ := bind_eq_ok h
  cases h
  refine ⟨copied, hcopied, ?_⟩
  rw [writeFile_eq_ok hmarkerDir, writeFile_eq_ok hchainDir, writeFile_eq_ok hhashsDir,
    writeFile_eq_ok hkeysDir]

/-- **What is copied**: the key files and their leftovers, not the counter; and the marker is
there. -/
theorem copied_files [JsonText] {p3Path : String} {cardId : Option String} {card : SourceCard}
    {backup : SourceBackup} {io : CopyIo} {target : KeysDir} {chain : ChainInfo}
    (hread : readSourceCard p3Path cardId card = .ok backup)
    (hwrite : writeBackupToTarget io .empty backup chain = .ok target) :
    ∃ keys, card.keys = some keys ∧
      (∀ p, target.keyFiles.content p =
        if isSafePinBlobFilename (pathName p) then keys.keyFiles.content p else none) ∧
      (target.read ".setup_complete").isSome := by
  obtain ⟨keys, hkeys, hblobs⟩ := readSourceCard_eq_ok hread
  obtain ⟨copied, hcopied, rfl⟩ := writeBackupToTarget_eq_ok hwrite
  obtain ⟨hmem, hdistinct⟩ := readPinBlobs_eq_ok hblobs
  refine ⟨keys, hkeys, fun p => ?_, ?_⟩
  · obtain ⟨hwritten, hkept⟩ := read_writePinBlobs hcopied hdistinct (pathName p)
    have hother : pathName p ≠ ".setup_complete" ∧ pathName p ≠ "chain_info.json" ∧
        pathName p ≠ "public_key_hashs" ∧ pathName p ≠ "public_keys" := by
      rcases p with (_ | _ | _) | (_ | _ | _) <;> decide
    have hcontent : copied.read (pathName p) =
        if isSafePinBlobFilename (pathName p) then keys.read (pathName p) else none := by
      by_cases hfile : ∃ bytes, (pathName p, bytes) ∈ backup.pinBlobs
      · obtain ⟨bytes, hfile⟩ := hfile
        obtain ⟨hsafe, hbytes⟩ := (hmem _ _).1 hfile
        rw [hwritten bytes hfile, if_pos hsafe, hbytes]
      · have hnot : pathName p ∉ backup.pinBlobs.map Prod.fst := by
          intro hname
          obtain ⟨blob, hblob, hname⟩ := List.mem_map.1 hname
          exact hfile ⟨blob.2, by rw [← hname]; exact hblob⟩
        rw [hkept hnot, KeysDir.read_empty]
        split
        · next hsafe =>
          cases hbytes : keys.read (pathName p) with
          | none => rfl
          | some bytes => exact absurd ⟨bytes, (hmem _ _).2 ⟨hsafe, hbytes⟩⟩ hfile
        · rfl
    simp only [KeysDir.keyFiles, KeysDir.read_write, if_neg hother.1, if_neg hother.2.1,
      if_neg hother.2.2.1, if_neg hother.2.2.2]
    exact hcontent
  · rw [KeysDir.read_write, if_pos rfl]
    rfl

/-! ## A copy whose calls succeed -/

/-- Every call succeeds. -/
def CopyIo.quiet : CopyIo := ⟨some "/mnt", none, fun _ => true, none, true⟩

theorem writePinBlobs_quiet (blobs : List (String × List UInt8)) (dir : KeysDir) :
    ∃ copied, writePinBlobs .quiet dir blobs = .ok copied := by
  induction blobs generalizing dir with
  | nil => exact ⟨dir, rfl⟩
  | cons blob blobs ih => exact ih (dir.write blob.1 blob.2)

/-- It writes the backup. -/
theorem writeBackupToTarget_quiet [JsonText] (dir : KeysDir) (backup : SourceBackup)
    (chain : ChainInfo) : ∃ target, writeBackupToTarget .quiet dir backup chain = .ok target := by
  obtain ⟨copied, hcopied⟩ := writePinBlobs_quiet backup.pinBlobs dir
  unfold writeBackupToTarget
  rw [hcopied]
  exact ⟨_, rfl⟩

end Russignol.Host
