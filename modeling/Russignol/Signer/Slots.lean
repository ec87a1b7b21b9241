import Russignol.Base.FloorRegister
import Russignol.Signer.Server

/-!
# Slots

A slot is a key and an operation type: the mark in memory, the record file and the ceiling of one
of them make a durable floor (`Store.slot`). This file says what each operation does to the slots.
Loading a key turns an empty mark into what its file holds (`Store.Loaded`); writing a record
touches one slot, in one of four ways (`PersistEffect`); a request under the write lock advances
one mark and then signs or takes the advance back (`SignEffect`).
-/

namespace Russignol

open Bytes FloorRegister

variable [Blake3]

omit [Blake3] in
/-- A result that is there is the result. -/
theorem ok_of_toOption {ε α : Type*} {r : Except ε α} {a : α} (h : r.toOption = some a) :
    r = .ok a := by
  cases r with
  | error e => cases h
  | ok b => cases h; rfl

/-! ## Reading a record file -/

/-- What a reload would find in a record file. -/
def Disk.reload (macKeys : PublicKeyHash → Option Watermark.MacKey) (chainId : ChainId) (d : Disk)
    (k : PublicKeyHash) (t : OperationType) : Option WatermarkEntry :=
  (macKeys k).bind fun macKey => loadEntryAuthenticated macKey chainId.bytes.1 (d.files k t)

/-- A fault is clean when whatever it leaves besides the old and the new content authenticates
under no key of the device. -/
def WriteIo.Clean (macKeys : PublicKeyHash → Option Watermark.MacKey) (chainId : ChainId)
    (io : WriteIo) : Prop :=
  ∀ bytes e k macKey, io = .failed (.garbled bytes) e → macKeys k = some macKey →
    loadEntryAuthenticated macKey chainId.bytes.1 bytes = none

/-- A record reads as its entry. -/
theorem loadEntryAuthenticated_encode (macKey : Watermark.MacKey) (ad : List UInt8)
    (entry : WatermarkEntry) : loadEntryAuthenticated macKey ad
      (Watermark.encodeAuthenticated macKey ad entry.level entry.round).1 = some entry := by
  have hlen := (Watermark.encodeAuthenticated macKey ad entry.level entry.round).2
  rw [loadEntryAuthenticated, dif_pos hlen, Subtype.coe_eta, Watermark.decodeAuthenticated_encode]
  rfl

/-- What reads as an entry is its record. -/
theorem loadEntryAuthenticated_some {macKey : Watermark.MacKey} {ad content : List UInt8}
    {entry : WatermarkEntry} (h : loadEntryAuthenticated macKey ad content = some entry) :
    content = (Watermark.encodeAuthenticated macKey ad entry.level entry.round).1 := by
  unfold loadEntryAuthenticated at h
  split at h
  · obtain ⟨⟨level, round⟩, hdecode, rfl⟩ := Option.map_eq_some_iff.1 h
    exact congrArg Subtype.val (Watermark.decodeAuthenticated_some hdecode)
  · cases h

/-- A record that is written over a file no longer than it reads as its entry. -/
theorem loadEntryAuthenticated_write_of_le (macKey : Watermark.MacKey) (ad : List UInt8)
    (entry : WatermarkEntry) {content : List UInt8} (h : content.length ≤ Watermark.authFileSize) :
    loadEntryAuthenticated macKey ad
      (writeAt0 (Watermark.encodeAuthenticated macKey ad entry.level entry.round).1 content) =
        some entry := by
  have hlen := (Watermark.encodeAuthenticated macKey ad entry.level entry.round).2
  rw [writeAt0_of_le (hlen.symm ▸ h), loadEntryAuthenticated_encode]

/-- A written record reads as its entry, unless the file was too long before. -/
theorem loadEntryAuthenticated_write (macKey : Watermark.MacKey) (ad : List UInt8)
    (level round : UInt32) (content : List UInt8) :
    Shows (loadEntryAuthenticated macKey ad
      (writeAt0 (Watermark.encodeAuthenticated macKey ad level round).1 content)) ⟨level, round⟩ := by
  by_cases h : content.length ≤ Watermark.authFileSize
  · exact .inl (loadEntryAuthenticated_write_of_le macKey ad ⟨level, round⟩ h)
  · have hlen := (Watermark.encodeAuthenticated macKey ad level round).2
    right
    rw [loadEntryAuthenticated, dif_neg]
    rw [length_writeAt0, hlen]
    omega

/-! ## Slots and what leaves them alone -/

namespace Store

/-- The mark in memory. -/
def mem (s : Store) (k : PublicKeyHash) (t : OperationType) : Option WatermarkEntry :=
  (s.wm.keys k).bind (·.entries t)

/-- The ceiling believed to be on stable storage. -/
def ceil (s : Store) (k : PublicKeyHash) (t : OperationType) : Option WatermarkEntry :=
  (s.wm.keys k).bind (·.diskCeiling t)

/-- What a reload would find. -/
def reload (s : Store) (k : PublicKeyHash) (t : OperationType) : Option WatermarkEntry :=
  s.disk.reload s.wm.macKeys s.wm.chainId k t

/-- A slot as a durable floor, with a history of what it issued. -/
def slot (s : Store) (k : PublicKeyHash) (t : OperationType) (issued : List WatermarkEntry) :
    Register WatermarkEntry :=
  ⟨s.mem k t, s.reload k t, s.ceil k t, issued⟩

/-- Two stores with the same keys and chain. -/
structure SameConfig (s s' : Store) : Prop where
  macKeys : s'.wm.macKeys = s.wm.macKeys
  chainId : s'.wm.chainId = s.wm.chainId
  knownPkhs : s'.wm.knownPkhs = s.wm.knownPkhs

omit [Blake3] in
theorem SameConfig.refl (s : Store) : SameConfig s s := ⟨rfl, rfl, rfl⟩

omit [Blake3] in
theorem SameConfig.trans {s s' s'' : Store} (h : SameConfig s s') (h' : SameConfig s' s'') :
    SameConfig s s'' :=
  ⟨h'.macKeys.trans h.macKeys, h'.chainId.trans h.chainId, h'.knownPkhs.trans h.knownPkhs⟩

/-- Keys may have been loaded, and directories made; nothing else happened. -/
structure Loaded (s s' : Store) : Prop where
  config : SameConfig s s'
  files : s'.disk.files = s.disk.files
  keys : ∀ k, s'.wm.keys k = s.wm.keys k ∨ s.wm.keys k = none ∧ ∃ macKey,
    s.wm.macKeys k = some macKey ∧
      s'.wm.keys k = some (loadPerKeyWatermark s.disk k macKey s.wm.chainId.bytes.1)

theorem Loaded.refl (s : Store) : Loaded s s := ⟨SameConfig.refl s, rfl, fun _ => .inl rfl⟩

/-- Loading leaves a slot alone, or fills an empty one from its file. -/
theorem Loaded.fetch {s s' : Store} (h : Loaded s s') (k : PublicKeyHash) (t : OperationType)
    (issued : List WatermarkEntry) : Fetch (s.slot k t issued) (s'.slot k t issued) := by
  have hreload : s'.reload k t = s.reload k t := by
    rw [reload, reload, Disk.reload, Disk.reload, h.config.macKeys, h.config.chainId, h.files]
  rcases h.keys k with hk | ⟨hnone, macKey, hmac, hk⟩
  · have hs : s'.slot k t issued = s.slot k t issued := by
      rw [Store.slot, Store.slot, mem, mem, ceil, ceil, hk, hreload]
    rw [hs]
    exact .same
  · have hmem : s'.mem k t = s.reload k t := by
      rw [mem, hk, reload, Disk.reload, hmac]
      rfl
    have hceil : s'.ceil k t = none := by
      rw [ceil, hk]
      rfl
    have hs : s'.slot k t issued = { s.slot k t issued with mem := s.reload k t, ceil := none } := by
      rw [Store.slot, hmem, hceil, hreload]
      rfl
    rw [hs]
    exact .read (by simp only [Store.slot, mem, hnone, Option.bind_none])
      (by simp only [Store.slot, ceil, hnone, Option.bind_none])

/-- A mark that is there is not touched by loading. -/
theorem Loaded.mem_of_some {s s' : Store} (h : Loaded s s') {k : PublicKeyHash}
    {t : OperationType} {m : WatermarkEntry} (hm : s.mem k t = some m) : s'.mem k t = some m :=
  (h.fetch k t []).mem_of_some hm

/-- A key that is in memory stays there. -/
theorem Loaded.isSome {s s' : Store} (h : Loaded s s') {k : PublicKeyHash}
    (hk : (s.wm.keys k).isSome = true) : (s'.wm.keys k).isSome = true := by
  rcases h.keys k with hkey | ⟨hnone, -⟩
  · exact (congrArg Option.isSome hkey).trans hk
  · rw [hnone] at hk
    cases hk

variable [Base58]

/-- The loop of `new` loads exactly the keys that have a directory. -/
theorem loadKeys_loaded {io : LoadIo} {d : Disk}
    {macKeys : PublicKeyHash → Option Watermark.MacKey} {chainId : ChainId} :
    ∀ {pkhs : List PublicKeyHash} {keys keys' : PublicKeyHash → Option PerKeyWatermark},
    HighWatermark.loadKeys io d macKeys chainId pkhs keys = .ok keys' → ∀ k,
      (d.isDir k = true ∧ ∃ macKey, macKeys k = some macKey ∧
          keys' k = some (loadPerKeyWatermark d k macKey chainId.bytes.1)) ∨
        ¬(k ∈ pkhs ∧ d.isDir k = true) ∧ keys' k = keys k
  | [], _, _, h, k => by
    cases h
    exact .inr ⟨fun hk => absurd hk.1 List.not_mem_nil, rfl⟩
  | pkh :: pkhs, keys, keys', h, k => by
    rw [HighWatermark.loadKeys] at h
    split at h
    · rename_i hdir
      cases hmac : macKeys pkh with
      | none =>
        simp only [HighWatermark.macKeyFor, hmac] at h
        cases h
      | some macKey =>
        simp only [HighWatermark.macKeyFor, hmac] at h
        split at h
        · cases h
        · rcases loadKeys_loaded h k with hloaded | ⟨hnot, hk⟩
          · exact .inl hloaded
          · by_cases hkk : k = pkh
            · subst hkk
              rw [Function.update_self] at hk
              exact .inl ⟨hdir, macKey, hmac, hk⟩
            · rw [Function.update_of_ne hkk] at hk
              exact .inr ⟨fun hmem => hnot ⟨(List.mem_cons.1 hmem.1).resolve_left hkk, hmem.2⟩, hk⟩
    · rename_i hdir
      rcases loadKeys_loaded h k with hloaded | ⟨hnot, hk⟩
      · exact .inl hloaded
      · refine .inr ⟨fun hmem => ?_, hk⟩
        rcases List.mem_cons.1 hmem.1 with rfl | hk'
        · exact hdir hmem.2
        · exact hnot ⟨hk', hmem.2⟩

/-- A new tracker has the configuration it was given, and of the keys exactly those that have a
directory, each loaded from it. -/
theorem new_cases {io : LoadIo} {d : Disk} {pkhs : List PublicKeyHash}
    {macKeys : PublicKeyHash → Option Watermark.MacKey} {chainId : ChainId} {wm : HighWatermark}
    (h : HighWatermark.new io d pkhs macKeys chainId = .ok wm) :
    (wm.macKeys = macKeys ∧ wm.chainId = chainId ∧ wm.knownPkhs = pkhs) ∧ ∀ k,
      (d.isDir k = true ∧ ∃ macKey, macKeys k = some macKey ∧
          wm.keys k = some (loadPerKeyWatermark d k macKey chainId.bytes.1)) ∨
        ¬(k ∈ pkhs ∧ d.isDir k = true) ∧ wm.keys k = none := by
  rw [HighWatermark.new] at h
  split at h
  · cases h
  · split at h
    · cases h
    · next keys hkeys =>
      cases h
      exact ⟨⟨rfl, rfl, rfl⟩, loadKeys_loaded hkeys⟩

/-- **A new tracker** has the configuration it was given; a slot of it is empty or holds what its
file does, and there is no ceiling. -/
theorem new_spec {io : LoadIo} {d : Disk} {pkhs : List PublicKeyHash}
    {macKeys : PublicKeyHash → Option Watermark.MacKey} {chainId : ChainId} {wm : HighWatermark}
    (h : HighWatermark.new io d pkhs macKeys chainId = .ok wm) :
    wm.macKeys = macKeys ∧ wm.chainId = chainId ∧ wm.knownPkhs = pkhs ∧
      ∀ k t, (Store.mem ⟨wm, d⟩ k t = none ∨
          Store.mem ⟨wm, d⟩ k t = d.reload macKeys chainId k t) ∧
        Store.ceil ⟨wm, d⟩ k t = none := by
  obtain ⟨⟨hmacKeys, hchain, hpkhs⟩, hkeys⟩ := new_cases h
  refine ⟨hmacKeys, hchain, hpkhs, fun k t => ?_⟩
  rcases hkeys k with ⟨-, macKey, hmac, hk⟩ | ⟨-, hk⟩
  · simp only [mem, ceil, hk, Option.bind_some, Disk.reload, hmac, loadPerKeyWatermark,
      or_true, and_self]
  · simp only [mem, ceil, hk, Option.bind_none, true_or, and_self]

/-- A new tracker holds every key that has a directory. -/
theorem new_loaded {io : LoadIo} {d : Disk} {pkhs : List PublicKeyHash}
    {macKeys : PublicKeyHash → Option Watermark.MacKey} {chainId : ChainId} {wm : HighWatermark}
    (h : HighWatermark.new io d pkhs macKeys chainId = .ok wm) {k : PublicKeyHash} (hk : k ∈ pkhs)
    (hdir : d.isDir k = true) : ∃ macKey, macKeys k = some macKey ∧
      wm.keys k = some (loadPerKeyWatermark d k macKey chainId.bytes.1) := by
  rcases (new_cases h).2 k with ⟨-, macKey, hmac, hload⟩ | ⟨hnot, -⟩
  · exact ⟨macKey, hmac, hload⟩
  · exact absurd ⟨hk, hdir⟩ hnot

/-- `ensure_key` loads, and where it succeeds the key is there. -/
theorem ensureKey_spec (fault : Option LoadFault) (pkh : PublicKeyHash) (s : Store) :
    Loaded s (s.ensureKey fault pkh).2 ∧
      ((s.ensureKey fault pkh).1 = .ok () → ((s.ensureKey fault pkh).2.wm.keys pkh).isSome) := by
  have hdir : Loaded s { s with disk := s.disk.mkDir pkh } :=
    ⟨⟨rfl, rfl, rfl⟩, rfl, fun _ => .inl rfl⟩
  unfold ensureKey
  by_cases hsome : (s.wm.keys pkh).isSome
  · rw [if_pos hsome]
    exact ⟨Loaded.refl s, fun _ => hsome⟩
  · have hnone : s.wm.keys pkh = none := by simpa using hsome
    by_cases hknown : pkh ∉ s.wm.knownPkhs
    · rw [if_neg hsome, if_pos hknown]
      exact ⟨Loaded.refl s, nofun⟩
    · rw [if_neg hsome, if_neg hknown]
      cases hmac : s.wm.macKeys pkh with
      | none =>
        cases fault with
        | none =>
          simp only [HighWatermark.macKey, hmac]
          exact ⟨hdir, nofun⟩
        | some f =>
          cases f with
          | dir e => exact ⟨Loaded.refl s, nofun⟩
          | file e =>
            simp only [HighWatermark.macKey, hmac]
            exact ⟨hdir, nofun⟩
      | some macKey =>
        cases fault with
        | none =>
          simp only [HighWatermark.macKey, hmac]
          refine ⟨⟨⟨rfl, rfl, rfl⟩, rfl, fun k => ?_⟩, fun _ => ?_⟩
          · by_cases hk : k = pkh
            · subst hk
              refine .inr ⟨hnone, macKey, hmac, ?_⟩
              simp only [HighWatermark.setKey, Function.update_self]
              rfl
            · exact .inl (by simp only [HighWatermark.setKey, Function.update_of_ne hk])
          · simp only [HighWatermark.setKey, Function.update_self, Option.isSome_some]
        | some f =>
          cases f with
          | dir e => exact ⟨Loaded.refl s, nofun⟩
          | file e =>
            simp only [HighWatermark.macKey, hmac]
            exact ⟨hdir, nofun⟩

/-! ## Advancing and restoring a mark -/

omit [Base58] in
/-- Setting a mark of a loaded key changes that mark. -/
theorem mem_setEntry {s : Store} {k : PublicKeyHash} {t : OperationType} {m : WatermarkEntry}
    (hm : s.mem k t = some m) (entry : Option WatermarkEntry) (issued : List WatermarkEntry) :
    Store.slot { s with wm := s.wm.setEntry k t entry } k t issued =
      { s.slot k t issued with mem := entry } := by
  rw [mem] at hm
  cases hk : s.wm.keys k with
  | none => rw [hk] at hm; cases hm
  | some perKey =>
    simp only [Store.slot, mem, reload, ceil, HighWatermark.setEntry, hk, HighWatermark.setKey,
      Function.update_self, Option.bind_some]

omit [Base58] in
/-- Setting a mark leaves the other slots alone. -/
theorem slot_setEntry_ne {s : Store} {k k' : PublicKeyHash} {t t' : OperationType}
    (h : ¬(k' = k ∧ t' = t)) (entry : Option WatermarkEntry) (issued : List WatermarkEntry) :
    Store.slot { s with wm := s.wm.setEntry k t entry } k' t' issued = s.slot k' t' issued := by
  cases hk : s.wm.keys k with
  | none => simp only [HighWatermark.setEntry, hk]
  | some perKey =>
    by_cases hkk : k' = k
    · subst hkk
      have ht : t' ≠ t := fun ht => h ⟨rfl, ht⟩
      simp only [Store.slot, mem, reload, ceil, HighWatermark.setEntry, hk, HighWatermark.setKey,
        Function.update_self, Option.bind_some, Function.update_of_ne ht]
    · simp only [Store.slot, mem, reload, ceil, HighWatermark.setEntry, hk, HighWatermark.setKey,
        Function.update_of_ne hkk]

omit [Base58] [Blake3] in
theorem sameConfig_setEntry (s : Store) (k : PublicKeyHash) (t : OperationType)
    (entry : Option WatermarkEntry) : SameConfig s { s with wm := s.wm.setEntry k t entry } := by
  cases hk : s.wm.keys k with
  | none => simp only [HighWatermark.setEntry, hk]; exact SameConfig.refl s
  | some perKey => simp only [HighWatermark.setEntry, hk]; exact ⟨rfl, rfl, rfl⟩

/-- **The check.** Where it passes, the mark was below the request, and is the request's now. -/
theorem checkAndUpdateParsed_cases (fault : Option LoadFault) (chainId : ChainId)
    (pkh : PublicKeyHash) (t : OperationType) (level round : UInt32) (s : Store) :
    (∃ e s', s.checkAndUpdateParsed fault chainId pkh t level round = (.error e, s') ∧
      Loaded s s') ∨
    ∃ s' current, s.checkAndUpdateParsed fault chainId pkh t level round =
        (.ok (some ⟨pkh, t, level, round, some current⟩),
          { s' with wm := s'.wm.setEntry pkh t (some ⟨level, round⟩) }) ∧
      Loaded s s' ∧ s'.mem pkh t = some current ∧ current < ⟨level, round⟩ := by
  obtain ⟨hload, -⟩ := ensureKey_spec fault pkh s
  rw [checkAndUpdateParsed]
  generalize s.ensureKey fault pkh = r at hload
  obtain ⟨r, s'⟩ := r
  cases r with
  | error e => exact .inl ⟨e, s', rfl, hload⟩
  | ok _ =>
    dsimp only
    split
    · exact .inl ⟨_, s', rfl, hload⟩
    · next current hcur =>
      split
      · exact .inl ⟨_, s', rfl, hload⟩
      · next hlevel =>
        split
        · exact .inl ⟨_, s', rfl, hload⟩
        · next hround =>
          refine .inr ⟨s', current, rfl, hload, hcur, WatermarkEntry.lt_iff.2 ?_⟩
          rw [not_and, UInt32.not_le] at hround
          rcases eq_or_ne level current.level with heq | hne
          · exact .inr ⟨heq.symm, hround heq⟩
          · exact .inl (UInt32.lt_of_le_of_ne (UInt32.not_lt.1 hlevel) hne.symm)

/-! ## Writing a record -/

omit [Base58] in
/-- A file write leaves the other slots alone. -/
theorem reload_setFile_ne {macKeys : PublicKeyHash → Option Watermark.MacKey} {chainId : ChainId}
    {d : Disk} {k k' : PublicKeyHash} {t t' : OperationType} (h : ¬(k' = k ∧ t' = t))
    (content : List UInt8) :
    (d.setFile k t content).reload macKeys chainId k' t' = d.reload macKeys chainId k' t' := by
  simp only [Disk.reload, Disk.setFile]
  by_cases hkk : k' = k
  · subst hkk
    have ht : t' ≠ t := fun ht => h ⟨rfl, ht⟩
    rw [Function.update_self, Function.update_of_ne ht]
  · rw [Function.update_of_ne hkk]

omit [Base58] in
/-- The content of a file that was written. -/
theorem reload_setFile {macKeys : PublicKeyHash → Option Watermark.MacKey} {chainId : ChainId}
    {d : Disk} {k : PublicKeyHash} {t : OperationType} {macKey : Watermark.MacKey}
    (hmac : macKeys k = some macKey) (content : List UInt8) :
    (d.setFile k t content).reload macKeys chainId k t =
      loadEntryAuthenticated macKey chainId.bytes.1 content := by
  simp only [Disk.reload, Disk.setFile, hmac, Function.update_self, Option.bind_some]

end Store

/-- A reload does not see the history. -/
theorem reload_put (macKeys : PublicKeyHash → Option Watermark.MacKey) (chainId : ChainId)
    (d : Disk) (m : Mark) (content : List UInt8) :
    (d.put m content).reload macKeys chainId =
      (d.setFile m.pkh m.idx content).reload macKeys chainId := rfl

/-- What writing the record of `entry` does to its slot. -/
inductive PersistEffect (io : WriteIo) (entry : WatermarkEntry) (ceiling : Option WatermarkEntry)
    (a : Register WatermarkEntry) :
    Except WatermarkError Unit → Register WatermarkEntry → Prop
  | done {d : Option WatermarkEntry} : io = .done → Shows d entry →
      PersistEffect io entry ceiling a (.ok ()) { a with disk := d, ceil := ceiling }
  | kept {e : WatermarkError} : PersistEffect io entry ceiling a (.error e) a
  | landed {e : WatermarkError} {e' : IoError} {d : Option WatermarkEntry} :
      io = .failed .new e' → Shows d entry →
      PersistEffect io entry ceiling a (.error e) { a with disk := d }
  | torn {e : WatermarkError} :
      PersistEffect io entry ceiling a (.error e) { a with disk := none }

namespace Store

variable [Base58]

/-- **Writing a record**: its slot, the other slots, and the configuration. -/
theorem persist_spec (io : WriteIo) (pkh : PublicKeyHash) (t : OperationType)
    (entry : WatermarkEntry) (ceiling : Option WatermarkEntry) (s : Store)
    (hclean : io.Clean s.wm.macKeys s.wm.chainId) :
    (∀ issued, PersistEffect io entry ceiling (s.slot pkh t issued)
      (s.persist io pkh t entry ceiling).1 ((s.persist io pkh t entry ceiling).2.slot pkh t issued)) ∧
    (∀ k t' issued, ¬(k = pkh ∧ t' = t) →
      (s.persist io pkh t entry ceiling).2.slot k t' issued = s.slot k t' issued) ∧
    SameConfig s (s.persist io pkh t entry ceiling).2 := by
  rw [persist]
  cases hmac : s.wm.macKeys pkh with
  | none =>
    simp only [HighWatermark.markBytes, HighWatermark.macKey, hmac, Except.map]
    exact ⟨fun _ => .kept, fun _ _ _ _ => trivial, SameConfig.refl s⟩
  | some macKey =>
    simp only [HighWatermark.markBytes, HighWatermark.macKey, hmac, Except.map]
    cases hkey : s.wm.keys pkh with
    | none =>
      simp only [HighWatermark.perKey, hkey]
      exact ⟨fun _ => .kept, fun _ _ _ _ => trivial, SameConfig.refl s⟩
    | some perKey =>
      simp only [HighWatermark.perKey, hkey]
      have hshows := loadEntryAuthenticated_write macKey s.wm.chainId.bytes.1 entry.level
        entry.round (s.disk.files pkh t)
      cases io with
      | done =>
        simp only [Disk.writeRecord]
        refine ⟨fun issued => ?_, fun k t' issued h => ?_, ⟨rfl, rfl, rfl⟩⟩
        · convert PersistEffect.done rfl hshows using 1
          simp only [Store.slot, mem, ceil, reload, HighWatermark.setKey, Function.update_self,
            Option.bind_some, hkey, reload_put, reload_setFile hmac]
        · simp only [Store.slot, reload, HighWatermark.setKey, reload_put, reload_setFile_ne h]
          by_cases hkk : k = pkh
          · subst hkk
            have ht : t' ≠ t := fun ht => h ⟨rfl, ht⟩
            simp only [mem, ceil, Function.update_self, Option.bind_some, hkey,
              Function.update_of_ne ht]
          · simp only [mem, ceil, Function.update_of_ne hkk]
      | failed left e =>
        have hslot : ∀ content issued,
            Store.slot { s with disk := s.disk.setFile pkh t content } pkh t issued =
              { s.slot pkh t issued with
                disk := loadEntryAuthenticated macKey s.wm.chainId.bytes.1 content } := by
          intro content issued
          simp only [Store.slot, mem, ceil, reload, reload_setFile hmac]
        have hother : ∀ content k t' issued, ¬(k = pkh ∧ t' = t) →
            Store.slot { s with disk := s.disk.setFile pkh t content } k t' issued =
              s.slot k t' issued := by
          intro content k t' issued h
          simp only [Store.slot, mem, ceil, reload, reload_setFile_ne h]
        cases left with
        | old =>
          have hold : loadEntryAuthenticated macKey s.wm.chainId.bytes.1 (s.disk.files pkh t) =
              s.reload pkh t := by
            rw [reload, Disk.reload, hmac]
            rfl
          refine ⟨fun issued => ?_, fun k t' issued h => hother _ k t' issued h, ⟨rfl, rfl, rfl⟩⟩
          have hsame := hslot (s.disk.files pkh t) issued
          rw [hold] at hsame
          exact hsame ▸ .kept
        | new =>
          refine ⟨fun issued => ?_, fun k t' issued h => hother _ k t' issued h, ⟨rfl, rfl, rfl⟩⟩
          exact (hslot _ issued) ▸ .landed rfl hshows
        | garbled bytes =>
          refine ⟨fun issued => ?_, fun k t' issued h => hother _ k t' issued h, ⟨rfl, rfl, rfl⟩⟩
          have htorn := hslot bytes issued
          rw [hclean bytes e pkh macKey rfl hmac] at htorn
          exact htorn ▸ .torn

/-- A record write does not touch the marks in memory. -/
theorem mem_persist (io : WriteIo) (pkh : PublicKeyHash) (t : OperationType)
    (entry : WatermarkEntry) (ceiling : Option WatermarkEntry) (s : Store) (k : PublicKeyHash)
    (t' : OperationType) : (s.persist io pkh t entry ceiling).2.mem k t' = s.mem k t' := by
  rw [persist]
  split
  · rfl
  · cases hkey : s.wm.keys pkh with
    | none => simp only [HighWatermark.perKey, hkey]
    | some perKey =>
      simp only [HighWatermark.perKey, hkey]
      split
      · rfl
      · by_cases hk : k = pkh
        · subst hk
          simp only [mem, HighWatermark.setKey, Function.update_self, Option.bind_some, hkey]
        · simp only [mem, HighWatermark.setKey, Function.update_of_ne hk]

/-- **A ceiling write**: nothing, or a record at or above the mark and the old ceiling. -/
theorem writeCeiling_spec (io : WriteIo) (pkh : PublicKeyHash) (t : OperationType)
    (ceilingLevel : UInt32) (s : Store) :
    (s.writeCeiling io pkh t ceilingLevel).2 = s ∨
    (∀ e, s.mem pkh t = some e → e < ⟨ceilingLevel, 0xFFFFFFFF⟩) ∧
      (∀ c, s.ceil pkh t = some c → c ≤ ⟨ceilingLevel, 0xFFFFFFFF⟩) ∧
      s.writeCeiling io pkh t ceilingLevel =
        s.persist io pkh t ⟨ceilingLevel, 0xFFFFFFFF⟩ (some ⟨ceilingLevel, 0xFFFFFFFF⟩) := by
  unfold writeCeiling
  cases hbuf : s.wm.markBytes pkh ceilingLevel 0xFFFFFFFF with
  | error e => exact .inl (by simp only [hbuf])
  | ok buf =>
    cases hkey : s.wm.keys pkh with
    | none => exact .inl (by simp only [hbuf, HighWatermark.perKey, hkey])
    | some perKey =>
      simp only [hbuf, HighWatermark.perKey, hkey]
      split
      · exact .inl rfl
      · next hmem =>
        split
        · exact .inl rfl
        · next hceil =>
          refine .inr ⟨fun e he => ?_, fun c hc => ?_, rfl⟩
          · have he' : perKey.entries t = some e := by simpa only [mem, hkey, Option.bind_some] using he
            rw [he', Option.any_some, decide_eq_true_eq, ge_iff_le, UInt32.not_le] at hmem
            exact WatermarkEntry.lt_iff.2 (.inl hmem)
          · have hc' : perKey.diskCeiling t = some c := by
              simpa only [ceil, hkey, Option.bind_some] using hc
            rw [hc', Option.any_some, decide_eq_true_eq, ge_iff_le, UInt32.not_le] at hceil
            exact WatermarkEntry.le_iff.2 (.inl hceil)

/-! ## Moving a floor -/

omit [Base58] in
/-- The first of the writes in order that fails: the writes after it are not reached. -/
def firstFailure (ios : OperationType → WriteIo) (ts : List OperationType) :
    Option OperationType :=
  ts.find? fun t => decide (ios t ≠ .done)

/-- The writes of `update_to_level`: a slot is written once, or not reached. -/
theorem writeAll_spec (ios : OperationType → WriteIo) (pkh : PublicKeyHash) (y : WatermarkEntry) :
    ∀ (us : List WatermarkUpdate) (s : Store),
      (∀ u ∈ us, u.pkh = pkh ∧ u.entry = y) → (us.map (·.idx)).Nodup →
      (∀ t, (ios t).Clean s.wm.macKeys s.wm.chainId) →
      (∀ t issued, (s.writeAll ios us).2.slot pkh t issued = s.slot pkh t issued ∨
        (ios t = .done ∨ firstFailure ios (us.map (·.idx)) = some t) ∧
          ∃ r, PersistEffect (ios t) y none (s.slot pkh t issued) r
            ((s.writeAll ios us).2.slot pkh t issued)) ∧
      ((s.writeAll ios us).1 = .ok () → ∀ t ∈ us.map (·.idx), ∀ issued,
        PersistEffect (ios t) y none (s.slot pkh t issued) (.ok ())
          ((s.writeAll ios us).2.slot pkh t issued)) ∧
      (∀ t ∉ us.map (·.idx), ∀ issued,
        (s.writeAll ios us).2.slot pkh t issued = s.slot pkh t issued) ∧
      (∀ k t issued, k ≠ pkh → (s.writeAll ios us).2.slot k t issued = s.slot k t issued) ∧
      SameConfig s (s.writeAll ios us).2
  | [], s, _, _, _ =>
    ⟨fun _ _ => .inl rfl, fun _ t ht => absurd ht List.not_mem_nil, fun _ _ _ => rfl,
      fun _ _ _ _ => rfl, SameConfig.refl s⟩
  | u :: us, s, hus, hnodup, hclean => by
    obtain ⟨hpkh, hentry⟩ := hus u List.mem_cons_self
    rw [List.map_cons, List.nodup_cons] at hnodup
    have hwrite : s.writeWatermark (ios u.idx) u = s.persist (ios u.idx) pkh u.idx y none := by
      rw [writeWatermark, hpkh, hentry]
    obtain ⟨hself, hother, hconfig⟩ := persist_spec (ios u.idx) pkh u.idx y none s (hclean u.idx)
    rw [writeAll, hwrite]
    generalize s.persist (ios u.idx) pkh u.idx y none = r at hself hother hconfig
    obtain ⟨r, s'⟩ := r
    cases r with
    | error e =>
      refine ⟨fun t issued => ?_, nofun, fun t ht issued => ?_, fun k t issued hk => ?_, hconfig⟩
      · by_cases ht : t = u.idx
        · subst ht
          refine .inr ⟨?_, _, hself issued⟩
          by_cases hio : ios u.idx = .done
          · exact .inl hio
          · exact .inr (List.find?_cons_of_pos (by simpa using hio))
        · exact .inl (hother pkh t issued fun h => ht h.2)
      · exact hother pkh t issued fun h => ht (List.mem_cons.2 (.inl h.2))
      · exact hother k t issued fun h => hk h.1
    | ok _ =>
      have hclean' : ∀ t, (ios t).Clean s'.wm.macKeys s'.wm.chainId := by
        intro t
        rw [hconfig.macKeys, hconfig.chainId]
        exact hclean t
      obtain ⟨hone, hall, hnot, hkeys, hconfig'⟩ := writeAll_spec ios pkh y us s'
        (fun v hv => hus v (List.mem_cons_of_mem _ hv)) hnodup.2 hclean'
      -- the slot just written is not written again
      have hdone : ∀ issued, (s'.writeAll ios us).2.slot pkh u.idx issued =
          s'.slot pkh u.idx issued := hnot u.idx hnodup.1
      have hio : ios u.idx = .done := by
        have h := hself []
        generalize s'.slot pkh u.idx [] = b at h
        cases h with
        | done hio _ => exact hio
      have hfirst : firstFailure ios ((u :: us).map (·.idx)) =
          firstFailure ios (us.map (·.idx)) := List.find?_cons_of_neg (by simp [hio])
      have hothers : ∀ t issued, t ≠ u.idx → s'.slot pkh t issued = s.slot pkh t issued :=
        fun t issued ht => hother pkh t issued fun h => ht h.2
      refine ⟨fun t issued => ?_, fun hok t ht issued => ?_, fun t ht issued => ?_,
        fun k t issued hk => ?_, hconfig.trans hconfig'⟩
      · by_cases ht : t = u.idx
        · subst ht
          exact .inr ⟨.inl hio, _, (hdone issued).symm ▸ hself issued⟩
        · rw [← hothers t issued ht, hfirst]
          exact hone t issued
      · by_cases htu : t = u.idx
        · subst htu
          exact (hdone issued).symm ▸ hself issued
        · rw [← hothers t issued htu]
          exact hall hok t ((List.mem_cons.1 ht).resolve_left htu) issued
      · have htu : t ≠ u.idx := fun h => ht (List.mem_cons.2 (.inl h))
        rw [← hothers t issued htu]
        exact hnot t (fun h => ht (List.mem_cons_of_mem _ h)) issued
      · exact (hkeys k t issued hk).trans (hother k t issued fun h => hk h.1)

/-- **Moving a floor**: the key cannot be loaded, or its three marks are the new floor and each of
its records was written or not reached. -/
theorem updateToLevel_spec (fault : Option LoadFault) (ios : OperationType → WriteIo)
    (chainId : ChainId) (pkh : PublicKeyHash) (level : UInt32) (s : Store)
    (hclean : ∀ t, (ios t).Clean s.wm.macKeys s.wm.chainId) :
    let r := s.updateToLevel fault ios chainId pkh level
    SameConfig s r.2 ∧
    ((∃ e, r.1 = .error e) ∧ Loaded s r.2 ∨
    ∃ s', Loaded s s' ∧ (s'.wm.keys pkh).isSome ∧
      (∀ t issued, r.2.slot pkh t issued = { s'.slot pkh t issued with mem := some ⟨level, 0⟩ } ∨
        (ios t = .done ∨ firstFailure ios OperationType.all = some t) ∧
          ∃ w, PersistEffect (ios t) ⟨level, 0⟩ none
            { s'.slot pkh t issued with mem := some ⟨level, 0⟩ } w (r.2.slot pkh t issued)) ∧
      (r.1 = .ok () → ∀ t issued, PersistEffect (ios t) ⟨level, 0⟩ none
        { s'.slot pkh t issued with mem := some ⟨level, 0⟩ } (.ok ()) (r.2.slot pkh t issued)) ∧
      ∀ k t issued, k ≠ pkh → r.2.slot k t issued = s'.slot k t issued) := by
  intro r
  have hr : r = s.updateToLevel fault ios chainId pkh level := rfl
  obtain ⟨hload, hsome⟩ := ensureKey_spec fault pkh s
  rw [updateToLevel] at hr
  generalize s.ensureKey fault pkh = w at hr hload hsome
  obtain ⟨w, s'⟩ := w
  cases w with
  | error e =>
    dsimp only at hr
    rw [hr]
    exact ⟨hload.config, .inl ⟨⟨e, rfl⟩, hload⟩⟩
  | ok _ =>
    obtain ⟨perKey, hkey⟩ := Option.isSome_iff_exists.1 (hsome rfl)
    dsimp only at hr hkey
    rw [hkey] at hr
    dsimp only at hr
    obtain ⟨s₁, hs₁⟩ : ∃ s₁ : Store, s₁ = { s' with
        wm := s'.wm.setKey pkh { perKey with entries := fun _ => some ⟨level, 0⟩ } } := ⟨_, rfl⟩
    rw [← hs₁] at hr
    have hself : ∀ t issued, s₁.slot pkh t issued =
        { s'.slot pkh t issued with mem := some ⟨level, 0⟩ } := by
      intro t issued
      rw [hs₁]
      simp only [Store.slot, mem, ceil, reload, HighWatermark.setKey, Function.update_self,
        Option.bind_some, hkey]
    have hkeys : ∀ k t issued, k ≠ pkh → s₁.slot k t issued = s'.slot k t issued := by
      intro k t issued hk
      rw [hs₁]
      simp only [Store.slot, mem, ceil, reload, HighWatermark.setKey, Function.update_of_ne hk]
    have hconfig₁ : SameConfig s s₁ := hload.config.trans (hs₁ ▸ ⟨rfl, rfl, rfl⟩)
    have hclean₁ : ∀ t, (ios t).Clean s₁.wm.macKeys s₁.wm.chainId := by
      intro t
      rw [hconfig₁.macKeys, hconfig₁.chainId]
      exact hclean t
    obtain ⟨hone, hall, -, hrest, hconfig⟩ := writeAll_spec ios pkh ⟨level, 0⟩
      (OperationType.all.map fun t => ⟨pkh, t, level, 0, perKey.entries t⟩) s₁
      (fun u hu => by
        obtain ⟨t, -, rfl⟩ := List.mem_map.1 hu
        exact ⟨rfl, rfl⟩) OperationType.all_nodup hclean₁
    rw [← hr] at hone hall hrest hconfig
    refine ⟨hconfig₁.trans hconfig, .inr ⟨s', hload, hsome rfl, fun t issued => ?_,
      fun hok t issued => ?_, fun k t issued hk => ?_⟩⟩
    · have h := hone t issued
      rw [hself] at h
      exact h
    · have h := hall hok t (OperationType.mem_all t) issued
      rw [hself] at h
      exact h
    · exact (hrest k t issued hk).trans (hkeys k t issued hk)

end Store

end Russignol
