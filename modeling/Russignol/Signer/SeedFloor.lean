import Russignol.Signer.Slots

/-!
# Seeding a floor

`seed_floor` on a disk that answers. A key whose highest mark is at the level already keeps its
marks; of any other key all three are set to the level, in memory and in the record files
(`Store.seedFloor_done`). A record is written over the front of its file, so it can be read back only
where the file was no longer than a record before (`Disk.Fits`).
-/

namespace Russignol

open Bytes FloorRegister

/-- No record file of the key is longer than a record. -/
def Disk.Fits (d : Disk) (pkh : PublicKeyHash) : Prop :=
  ∀ t, (d.files pkh t).length ≤ Watermark.authFileSize

variable [Blake3]

namespace Store

/-- The marks of the keys in memory are those of the record files. -/
def InSync (s : Store) : Prop :=
  ∀ k, (s.wm.keys k).isSome = true → s.disk.isDir k = true ∧ ∀ t, s.mem k t = s.reload k t

/-- Files that are the same read the same. -/
theorem reload_congr {s s' : Store} (h : SameConfig s s') {k : PublicKeyHash}
    (hfiles : s'.disk.files k = s.disk.files k) : s'.reload k = s.reload k := by
  funext t
  rw [reload, reload, Disk.reload, Disk.reload, h.macKeys, h.chainId, hfiles]

variable [Base58]

/-- **A new tracker is in sync**, and holds every key that has a directory. -/
theorem new_inSync {io : LoadIo} {d : Disk} {pkhs : List PublicKeyHash}
    {macKeys : PublicKeyHash → Option Watermark.MacKey} {chainId : ChainId} {wm : HighWatermark}
    (h : HighWatermark.new io d pkhs macKeys chainId = .ok wm) :
    InSync ⟨wm, d⟩ ∧ ∀ k ∈ pkhs, d.isDir k = true → (wm.keys k).isSome = true := by
  obtain ⟨⟨hmacKeys, hchain, -⟩, hkeys⟩ := new_cases h
  refine ⟨fun k hk => ?_, fun k hk hdir => ?_⟩
  · rcases hkeys k with ⟨hdir, macKey, hmac, hload⟩ | ⟨-, hnone⟩
    · refine ⟨hdir, fun t => ?_⟩
      simp only [mem, hload, loadPerKeyWatermark, reload, Disk.reload, hmacKeys, hchain, hmac,
        Option.bind_some]
    · rw [hnone] at hk
      cases hk
  · obtain ⟨macKey, -, hload⟩ := new_loaded h hk hdir
    rw [hload]
    rfl

/-- `ensure_key` of a key that can be loaded: the key is there, and the rest is as it was. -/
theorem ensureKey_done {pkh : PublicKeyHash} {s : Store} (hsync : s.InSync)
    (hknown : pkh ∈ s.wm.knownPkhs) (hmac : (s.wm.macKeys pkh).isSome = true) :
    ∃ s', s.ensureKey none pkh = (.ok (), s') ∧ SameConfig s s' ∧ s'.disk.files = s.disk.files ∧
      s'.InSync ∧ (s'.wm.keys pkh).isSome = true ∧
      ∀ k, (s.wm.keys k).isSome = true → (s'.wm.keys k).isSome = true := by
  obtain ⟨macKey, hmac⟩ := Option.isSome_iff_exists.1 hmac
  unfold ensureKey
  by_cases hsome : (s.wm.keys pkh).isSome = true
  · rw [if_pos hsome]
    exact ⟨s, rfl, SameConfig.refl s, rfl, hsync, hsome, fun _ => id⟩
  · rw [if_neg hsome, if_neg (not_not_intro hknown)]
    simp only [HighWatermark.macKey, hmac]
    refine ⟨_, rfl, ⟨rfl, rfl, rfl⟩, rfl, ?_, ?_, ?_⟩
    · intro k hk
      by_cases hkk : k = pkh
      · subst hkk
        refine ⟨Function.update_self .., fun t => ?_⟩
        simp only [mem, loadPerKeyWatermark, reload, Disk.reload, HighWatermark.setKey, hmac,
          Function.update_self, Option.bind_some]
      · simp only [HighWatermark.setKey, Function.update_of_ne hkk] at hk
        obtain ⟨hdir, hmem⟩ := hsync k hk
        refine ⟨(Function.update_of_ne hkk ..).trans hdir, fun t => ?_⟩
        refine Eq.trans ?_ (hmem t)
        simp only [mem, HighWatermark.setKey, Function.update_of_ne hkk]
    · simp only [HighWatermark.setKey, Function.update_self, Option.isSome_some]
    · intro k hk
      by_cases hkk : k = pkh
      · rw [hkk, HighWatermark.setKey]
        simp only [Function.update_self, Option.isSome_some]
      · simp only [HighWatermark.setKey, Function.update_of_ne hkk]
        exact hk

/-! ## Writes that are done -/

omit [Base58] in
/-- The records of some slots of a key were written with one entry; nothing else happened. -/
structure Wrote (pkh : PublicKeyHash) (y : WatermarkEntry) (ts : List OperationType)
    (s s' : Store) : Prop where
  config : SameConfig s s'
  dirs : s'.disk.isDir = s.disk.isDir
  fits : s'.disk.Fits pkh
  files : ∀ k, k ≠ pkh → s'.disk.files k = s.disk.files k
  keys : ∀ k, (s'.wm.keys k).isSome = (s.wm.keys k).isSome
  mem : ∀ k t, s'.mem k t = s.mem k t
  reload : ∀ t, s'.reload pkh t = if t ∈ ts then some y else s.reload pkh t

omit [Base58] in
/-- Writes one after another write what each of them does. -/
theorem Wrote.trans {pkh : PublicKeyHash} {y : WatermarkEntry} {ts us : List OperationType}
    {s s' s'' : Store} (h : Wrote pkh y ts s s') (h' : Wrote pkh y us s' s'') :
    Wrote pkh y (ts ++ us) s s'' where
  config := h.config.trans h'.config
  dirs := h'.dirs.trans h.dirs
  fits := h'.fits
  files k hk := (h'.files k hk).trans (h.files k hk)
  keys k := (h'.keys k).trans (h.keys k)
  mem k t := (h'.mem k t).trans (h.mem k t)
  reload t := by
    rw [h'.reload, h.reload]
    by_cases ht : t ∈ us
    · rw [if_pos ht, if_pos (List.mem_append_right _ ht)]
    · rw [if_neg ht]
      by_cases ht' : t ∈ ts
      · rw [if_pos ht', if_pos (List.mem_append_left _ ht')]
      · rw [if_neg ht', if_neg fun hmem => (List.mem_append.1 hmem).elim ht' ht]

/-- A record write that is done. -/
theorem persist_done {pkh : PublicKeyHash} {s : Store} (t : OperationType) (y : WatermarkEntry)
    (ceiling : Option WatermarkEntry) (hmac : (s.wm.macKeys pkh).isSome = true)
    (hkey : (s.wm.keys pkh).isSome = true) (hfits : s.disk.Fits pkh) :
    ∃ s', s.persist .done pkh t y ceiling = (.ok (), s') ∧ Wrote pkh y [t] s s' := by
  obtain ⟨macKey, hmac⟩ := Option.isSome_iff_exists.1 hmac
  obtain ⟨perKey, hkey⟩ := Option.isSome_iff_exists.1 hkey
  have hlen := (Watermark.encodeAuthenticated macKey s.wm.chainId.bytes.1 y.level y.round).2
  unfold persist
  simp only [HighWatermark.markBytes, HighWatermark.macKey, hmac, Except.map,
    HighWatermark.perKey, hkey, Disk.writeRecord]
  refine ⟨_, rfl, ⟨rfl, rfl, rfl⟩, rfl, ?_, ?_, ?_, ?_, ?_⟩
  · intro t'
    simp only [Disk.put, Disk.setFile, Function.update_self]
    by_cases ht : t' = t
    · subst ht
      rw [Function.update_self, writeAt0_of_le (hlen.symm ▸ hfits t'), hlen]
    · rw [Function.update_of_ne ht]
      exact hfits t'
  · intro k hk
    simp only [Disk.put, Disk.setFile, Function.update_of_ne hk]
  · intro k
    by_cases hk : k = pkh
    · simp only [HighWatermark.setKey, hk, Function.update_self, hkey, Option.isSome_some]
    · simp only [HighWatermark.setKey, Function.update_of_ne hk]
  · intro k t'
    by_cases hk : k = pkh
    · simp only [mem, HighWatermark.setKey, hk, Function.update_self, hkey, Option.bind_some]
    · simp only [mem, HighWatermark.setKey, Function.update_of_ne hk]
  · intro t'
    simp only [reload, HighWatermark.setKey, reload_put, List.mem_singleton]
    by_cases ht : t' = t
    · subst ht
      rw [if_pos rfl, reload_setFile hmac, loadEntryAuthenticated_write_of_le macKey _ y (hfits t')]
    · rw [if_neg ht, reload_setFile_ne fun h => ht h.2]

/-- The writes of `update_to_level`, all done. -/
theorem writeAll_done {ios : OperationType → WriteIo} (hios : ∀ t, ios t = .done)
    {pkh : PublicKeyHash} {y : WatermarkEntry} : ∀ {us : List WatermarkUpdate} {s : Store},
    (∀ u ∈ us, u.pkh = pkh ∧ u.entry = y) → (s.wm.macKeys pkh).isSome = true →
      (s.wm.keys pkh).isSome = true → s.disk.Fits pkh →
      ∃ s', s.writeAll ios us = (.ok (), s') ∧ Wrote pkh y (us.map (·.idx)) s s'
  | [], s, _, _, _, hfits =>
    ⟨s, rfl, SameConfig.refl s, rfl, hfits, fun _ _ => rfl, fun _ => rfl, fun _ _ => rfl,
      fun _ => rfl⟩
  | u :: us, s, hus, hmac, hkey, hfits => by
    obtain ⟨hpkh, hentry⟩ := hus u List.mem_cons_self
    obtain ⟨s₁, hpersist, hwrote⟩ := persist_done u.idx y none hmac hkey hfits
    have hwrite : s.writeWatermark (ios u.idx) u = (.ok (), s₁) := by
      rw [writeWatermark, hios, hpkh, hentry, hpersist]
    obtain ⟨s₂, hrest, hwrote'⟩ := writeAll_done hios
      (fun v hv => hus v (List.mem_cons_of_mem _ hv)) (hwrote.config.macKeys ▸ hmac)
      ((hwrote.keys pkh).trans hkey) hwrote.fits
    refine ⟨s₂, ?_, hwrote.trans hwrote'⟩
    rw [writeAll, hwrite]
    exact hrest

/-! ## The floor -/

omit [Blake3] [Base58] in
/-- A key after its floor was seeded: all its marks are at the level or above, or one was already
and still is. -/
def Floored (level : UInt32) (before after : OperationType → Option WatermarkEntry) : Prop :=
  (∀ t, ∃ e, after t = some e ∧ level ≤ e.level) ∨
    ∃ t e, before t = some e ∧ level ≤ e.level ∧ after t = some e

/-- A store in which the floor of a key was seeded. -/
structure Seeded (pkh : PublicKeyHash) (level : UInt32) (s s' : Store) : Prop where
  config : SameConfig s s'
  sync : s'.InSync
  loaded : (s'.wm.keys pkh).isSome = true
  keys : ∀ k, (s.wm.keys k).isSome = true → (s'.wm.keys k).isSome = true
  files : ∀ k, k ≠ pkh → s'.disk.files k = s.disk.files k
  floored : Floored level (s.reload pkh) (s'.reload pkh)

omit [Blake3] [Base58] in
/-- A highest level is that of a mark. -/
theorem mem_of_getMaxLevel {s : Store} {pkh : PublicKeyHash} {level : UInt32}
    (h : s.wm.getMaxLevel pkh = some level) : ∃ t e, s.mem pkh t = some e ∧ e.level = level := by
  have hmaxEq : Std.MaxEqOr UInt32 := ⟨fun a b => by
    by_cases hab : a ≤ b
    · exact .inr (if_pos hab)
    · exact .inl (if_neg hab)⟩
  obtain ⟨perKey, hkey, hmax⟩ := Option.bind_eq_some_iff.1 h
  obtain ⟨t, -, ht⟩ := List.mem_filterMap.1 (List.max?_mem hmax)
  obtain ⟨e, he, rfl⟩ := Option.map_eq_some_iff.1 ht
  refine ⟨t, e, ?_, rfl⟩
  rw [mem, hkey]
  exact he

/-- `update_to_level` of a key that is held, on a disk that answers: all its marks are at the
level. -/
theorem updateToLevel_done {s : Store} {pkh : PublicKeyHash} {ios : OperationType → WriteIo}
    (level : UInt32) (chainId : ChainId) (hsync : s.InSync)
    (hloaded : (s.wm.keys pkh).isSome = true) (hmac : (s.wm.macKeys pkh).isSome = true)
    (hfits : s.disk.Fits pkh) (hios : ∀ t, ios t = .done) :
    ∃ s', s.updateToLevel none ios chainId pkh level = (.ok (), s') ∧ Seeded pkh level s s' := by
  obtain ⟨perKey, hkey⟩ := Option.isSome_iff_exists.1 hloaded
  obtain ⟨s₁, hs₁⟩ : ∃ s₁ : Store, s₁ = { s with
      wm := s.wm.setKey pkh { perKey with entries := fun _ => some ⟨level, 0⟩ } } := ⟨_, rfl⟩
  have hconfig : SameConfig s s₁ := hs₁ ▸ ⟨rfl, rfl, rfl⟩
  have hdisk : s₁.disk = s.disk := by rw [hs₁]
  have hset : s₁.wm.keys pkh = some { perKey with entries := fun _ => some ⟨level, 0⟩ } := by
    rw [hs₁]
    exact Function.update_self ..
  have hothers : ∀ k, k ≠ pkh → s₁.wm.keys k = s.wm.keys k := by
    intro k hk
    rw [hs₁]
    exact Function.update_of_ne hk ..
  obtain ⟨updates, hupdates⟩ : ∃ updates : List WatermarkUpdate, updates =
    OperationType.all.map fun t => ⟨pkh, t, level, 0, perKey.entries t⟩ := ⟨_, rfl⟩
  have heach : ∀ u ∈ updates, u.pkh = pkh ∧ u.entry = ⟨level, 0⟩ := by
    intro u hu
    rw [hupdates] at hu
    obtain ⟨t, -, rfl⟩ := List.mem_map.1 hu
    exact ⟨rfl, rfl⟩
  obtain ⟨s₂, hwrite, hwrote⟩ :=
    writeAll_done hios heach (hconfig.macKeys ▸ hmac) (hset ▸ rfl) (hdisk ▸ hfits)
  have hall : ∀ t, s₂.reload pkh t = some ⟨level, 0⟩ := by
    intro t
    rw [hwrote.reload, if_pos]
    rw [hupdates]
    exact List.mem_map.2 ⟨_, List.mem_map.2 ⟨t, OperationType.mem_all t, rfl⟩, rfl⟩
  have hfiles : ∀ k, k ≠ pkh → s₂.disk.files k = s.disk.files k := by
    intro k hk
    rw [hwrote.files k hk, hdisk]
  refine ⟨s₂, ?_, hconfig.trans hwrote.config, ?_, ?_, ?_, hfiles,
    .inl fun t => ⟨_, hall t, UInt32.le_refl _⟩⟩
  · rw [updateToLevel, ensureKey, if_pos hloaded]
    dsimp only
    rw [hkey]
    dsimp only
    rw [← hs₁, ← hupdates, hwrite]
  · intro k hk
    rw [hwrote.keys] at hk
    rw [hwrote.dirs, hdisk]
    by_cases hkk : k = pkh
    · subst hkk
      refine ⟨(hsync k hloaded).1, fun t => ?_⟩
      rw [hall, hwrote.mem, mem, hset]
      rfl
    · rw [hothers k hkk] at hk
      obtain ⟨hdir, hmem⟩ := hsync k hk
      refine ⟨hdir, fun t => ?_⟩
      rw [reload_congr (hconfig.trans hwrote.config) (hfiles k hkk), ← hmem t, hwrote.mem, mem,
        hothers k hkk, mem]
  · rw [hwrote.keys, hset]
    rfl
  · intro k hk
    rw [hwrote.keys]
    by_cases hkk : k = pkh
    · rw [hkk, hset]
      rfl
    · rw [hothers k hkk]
      exact hk

/-- **Seeding the floor of a key**, on a disk that answers. -/
theorem seedFloor_done {s : Store} {pkh : PublicKeyHash} {ios : OperationType → WriteIo}
    {level : UInt32} (chainId : ChainId) (hsync : s.InSync) (hknown : pkh ∈ s.wm.knownPkhs)
    (hmac : (s.wm.macKeys pkh).isSome = true) (hfits : s.disk.Fits pkh)
    (hios : ∀ t, ios t = .done) : Seeded pkh level s (s.seedFloor none ios chainId pkh level).2 := by
  obtain ⟨s₁, hensure, hconfig, hfiles, hsync₁, hloaded, hkeys⟩ := ensureKey_done hsync hknown hmac
  have hreload : s₁.reload pkh = s.reload pkh := reload_congr hconfig (congrFun hfiles pkh)
  rw [seedFloor, hensure]
  dsimp only
  split
  · rename_i hmax
    obtain ⟨existing, hexisting, hle⟩ := Option.any_eq_true _ _ |>.1 hmax
    obtain ⟨t, e, hmem, rfl⟩ := mem_of_getMaxLevel hexisting
    have hat : s₁.reload pkh t = some e := ((hsync₁ pkh hloaded).2 t).symm.trans hmem
    refine ⟨hconfig, hsync₁, hloaded, hkeys, fun k _ => congrFun hfiles k, .inr ⟨t, e, ?_, ?_, hat⟩⟩
    · rw [← hreload]
      exact hat
    · exact of_decide_eq_true hle
  · have hmac₁ : (s₁.wm.macKeys pkh).isSome = true := hconfig.macKeys ▸ hmac
    have hfits₁ : s₁.disk.Fits pkh := fun t => hfiles ▸ hfits t
    obtain ⟨s₂, hupdate, hseeded⟩ :=
      updateToLevel_done level chainId hsync₁ hloaded hmac₁ hfits₁ hios
    rw [hupdate]
    exact ⟨hconfig.trans hseeded.config, hseeded.sync, hseeded.loaded,
      fun k hk => hseeded.keys k (hkeys k hk),
      fun k hk => (hseeded.files k hk).trans (congrFun hfiles k), hreload ▸ hseeded.floored⟩

/-! ## The marks in memory -/

omit [Blake3] [Base58] in
/-- A mark of a key is at a level. -/
def Covers (s : Store) (pkh : PublicKeyHash) (level : UInt32) : Prop :=
  ∃ t e, s.mem pkh t = some e ∧ level ≤ e.level

omit [Blake3] [Base58] in
/-- The highest level of a key is at a level exactly where one of its marks is. -/
theorem getMaxLevel_any_iff {s : Store} {pkh : PublicKeyHash} {level : UInt32} :
    (s.wm.getMaxLevel pkh).any (fun existing => decide (existing ≥ level)) = true ↔
      s.Covers pkh level := by
  have hsup : Std.LawfulOrderSup UInt32 := ⟨fun a b c => by
    by_cases hab : a ≤ b
    · have hmax : max a b = b := if_pos hab
      rw [hmax]
      exact ⟨fun hb => ⟨UInt32.le_trans hab hb, hb⟩, fun h => h.2⟩
    · have hmax : max a b = a := if_neg hab
      rw [hmax]
      exact ⟨fun ha => ⟨ha, UInt32.le_trans (UInt32.le_of_lt (UInt32.not_le.1 hab)) ha⟩,
        fun h => h.1⟩⟩
  constructor
  · intro h
    obtain ⟨existing, hexisting, hle⟩ := Option.any_eq_true _ _ |>.1 h
    obtain ⟨t, e, hmem, rfl⟩ := mem_of_getMaxLevel hexisting
    exact ⟨t, e, hmem, of_decide_eq_true hle⟩
  · rintro ⟨t, e, hmem, hle⟩
    obtain ⟨perKey, hkey, he⟩ := Option.bind_eq_some_iff.1 hmem
    have hin : e.level ∈ OperationType.all.filterMap fun t => (perKey.entries t).map (·.level) :=
      List.mem_filterMap.2 ⟨t, OperationType.mem_all t, by rw [he]; rfl⟩
    rw [HighWatermark.getMaxLevel, hkey, Option.bind_some]
    cases hmax : (OperationType.all.filterMap fun t => (perKey.entries t).map (·.level)).max? with
    | none =>
      rw [List.max?_eq_none_iff.1 hmax] at hin
      cases hin
    | some existing =>
      exact decide_eq_true (UInt32.le_trans hle
        ((List.max?_le_iff hmax).1 (UInt32.le_refl _) _ hin))

omit [Base58] in
/-- Records of one key were written; its marks, and all of the other keys, are as they were. -/
structure Recorded (pkh : PublicKeyHash) (s s' : Store) : Prop where
  config : SameConfig s s'
  mem : ∀ k t, s'.mem k t = s.mem k t
  files : ∀ k, k ≠ pkh → s'.disk.files k = s.disk.files k

omit [Blake3] [Base58] in
/-- Where nothing was written, everything is as it was. -/
theorem Recorded.refl (pkh : PublicKeyHash) (s : Store) : Recorded pkh s s :=
  ⟨SameConfig.refl s, fun _ _ => rfl, fun _ _ => rfl⟩

omit [Blake3] [Base58] in
/-- Records of one key were written, and then more of the same key. -/
theorem Recorded.trans {pkh : PublicKeyHash} {s s' s'' : Store} (h : Recorded pkh s s')
    (h' : Recorded pkh s' s'') : Recorded pkh s s'' :=
  ⟨h.config.trans h'.config, fun k t => (h'.mem k t).trans (h.mem k t),
    fun k hk => (h'.files k hk).trans (h.files k hk)⟩

/-- A record write, however it ends. -/
theorem persist_recorded (io : WriteIo) (pkh : PublicKeyHash) (t : OperationType)
    (entry : WatermarkEntry) (ceiling : Option WatermarkEntry) (s : Store) :
    Recorded pkh s (s.persist io pkh t entry ceiling).2 := by
  refine ⟨?_, mem_persist io pkh t entry ceiling s, fun k hk => ?_⟩
  · rw [persist]
    split
    · exact SameConfig.refl s
    · cases hkey : s.wm.keys pkh with
      | none => simp only [HighWatermark.perKey, hkey]; exact SameConfig.refl s
      | some perKey =>
        simp only [HighWatermark.perKey, hkey]
        split <;> exact ⟨rfl, rfl, rfl⟩
  · rw [persist]
    split
    · rfl
    · cases hkey : s.wm.keys pkh with
      | none => simp only [HighWatermark.perKey, hkey]
      | some perKey =>
        simp only [HighWatermark.perKey, hkey]
        cases io with
        | done => simp only [Disk.writeRecord, Disk.put, Disk.setFile, Function.update_of_ne hk]
        | failed left e =>
          cases left <;>
            simp only [Disk.writeRecord, Disk.put, Disk.setFile, Function.update_of_ne hk]

/-- Updates of one key write no records but of that key. -/
theorem writeAll_recorded (ios : OperationType → WriteIo) {pkh : PublicKeyHash} :
    ∀ {us : List WatermarkUpdate} {s : Store}, (∀ u ∈ us, u.pkh = pkh) →
      Recorded pkh s (s.writeAll ios us).2
  | [], s, _ => Recorded.refl pkh s
  | u :: us, s, hus => by
    have hwrite : Recorded pkh s (s.writeWatermark (ios u.idx) u).2 := by
      rw [writeWatermark, hus u List.mem_cons_self]
      exact persist_recorded ..
    rw [writeAll]
    split
    · rename_i hr
      rw [hr] at hwrite
      exact hwrite
    · rename_i hr
      rw [hr] at hwrite
      exact hwrite.trans (writeAll_recorded ios fun v hv => hus v (List.mem_cons_of_mem _ hv))

/-- The marks of a key whose floor was seeded, as it was loaded: they stay where one was at the
level, and are all at the level where none was. -/
structure SeededMem (pkh : PublicKeyHash) (level : UInt32) (s s' : Store) : Prop where
  config : SameConfig s s'
  files : ∀ k, k ≠ pkh → s'.disk.files k = s.disk.files k
  mem : ∀ k, k ≠ pkh → ∀ t, s'.mem k t = s.mem k t
  kept : s.Covers pkh level → ∀ t, s'.mem pkh t = s.mem pkh t
  raised : ¬s.Covers pkh level → ∀ t, s'.mem pkh t = some ⟨level, 0⟩

/-- **Seeding the floor of a key**, whatever its writes are answered. -/
theorem seedFloor_mem {s : Store} {pkh : PublicKeyHash} (ios : OperationType → WriteIo)
    (level : UInt32) (chainId : ChainId) (hknown : pkh ∈ s.wm.knownPkhs)
    (hmac : (s.wm.macKeys pkh).isSome = true) (hsync : ∀ t, s.mem pkh t = s.reload pkh t) :
    SeededMem pkh level s (s.seedFloor none ios chainId pkh level).2 := by
  obtain ⟨s₁, hensure, hconfig, hfiles, hloaded, hothers, hmem⟩ : ∃ s₁,
      s.ensureKey none pkh = (.ok (), s₁) ∧ SameConfig s s₁ ∧ s₁.disk.files = s.disk.files ∧
        (s₁.wm.keys pkh).isSome = true ∧ (∀ k, k ≠ pkh → s₁.wm.keys k = s.wm.keys k) ∧
        ∀ t, s₁.mem pkh t = s.mem pkh t := by
    obtain ⟨macKey, hmac⟩ := Option.isSome_iff_exists.1 hmac
    unfold ensureKey
    by_cases hsome : (s.wm.keys pkh).isSome = true
    · rw [if_pos hsome]
      exact ⟨s, rfl, SameConfig.refl s, rfl, hsome, fun _ _ => rfl, fun _ => rfl⟩
    · rw [if_neg hsome, if_neg (not_not_intro hknown)]
      simp only [HighWatermark.macKey, hmac]
      refine ⟨_, rfl, ⟨rfl, rfl, rfl⟩, rfl, ?_, fun k hk => Function.update_of_ne hk .., fun t => ?_⟩
      · simp only [HighWatermark.setKey, Function.update_self, Option.isSome_some]
      · rw [hsync t, reload, Disk.reload, hmac]
        simp only [mem, HighWatermark.setKey, Function.update_self, Option.bind_some,
          loadPerKeyWatermark]
        rfl
  have hmem_ne : ∀ k, k ≠ pkh → ∀ t, s₁.mem k t = s.mem k t := by
    intro k hk t
    rw [mem, mem, hothers k hk]
  have hcovers : s₁.Covers pkh level ↔ s.Covers pkh level := by
    simp only [Covers, hmem]
  rw [seedFloor, hensure]
  dsimp only
  split
  · rename_i hmax
    have hcovered := hcovers.1 (getMaxLevel_any_iff.1 hmax)
    exact ⟨hconfig, fun k _ => congrFun hfiles k, hmem_ne, fun _ => hmem, absurd hcovered⟩
  · rename_i hmax
    have hnot : ¬s.Covers pkh level := fun h => hmax (getMaxLevel_any_iff.2 (hcovers.2 h))
    obtain ⟨perKey, hkey⟩ := Option.isSome_iff_exists.1 hloaded
    rw [updateToLevel, ensureKey, if_pos hloaded]
    simp only [hkey]
    obtain ⟨s₂, hs₂⟩ : ∃ s₂ : Store, s₂ = { s₁ with
        wm := s₁.wm.setKey pkh { perKey with entries := fun _ => some ⟨level, 0⟩ } } := ⟨_, rfl⟩
    have hwrote : Recorded pkh s₂ (s₂.writeAll ios (OperationType.all.map fun t =>
        (⟨pkh, t, level, 0, perKey.entries t⟩ : WatermarkUpdate))).2 := by
      refine writeAll_recorded ios fun u hu => ?_
      obtain ⟨t, -, rfl⟩ := List.mem_map.1 hu
      rfl
    have hset : ∀ t, s₂.mem pkh t = some ⟨level, 0⟩ := by
      intro t
      rw [hs₂, mem]
      simp only [HighWatermark.setKey, Function.update_self, Option.bind_some]
    have hset_ne : ∀ k, k ≠ pkh → ∀ t, s₂.mem k t = s₁.mem k t := by
      intro k hk t
      rw [hs₂, mem, mem]
      simp only [HighWatermark.setKey, Function.update_of_ne hk]
    have hconfig₂ : SameConfig s₁ s₂ := hs₂ ▸ ⟨rfl, rfl, rfl⟩
    have hfiles₂ : s₂.disk.files = s₁.disk.files := by rw [hs₂]
    rw [← hs₂]
    refine ⟨hconfig.trans (hconfig₂.trans hwrote.config), fun k hk => ?_, fun k hk t => ?_,
      fun h => absurd h hnot, fun _ t => (hwrote.mem pkh t).trans (hset t)⟩
    · rw [hwrote.files k hk, hfiles₂, hfiles]
    · rw [hwrote.mem, hset_ne k hk, hmem_ne k hk]

end Store

end Russignol
