import Russignol.Signer.SeedFloor
import Russignol.Signer.TestUtils

/-!
# A floor for every mark

`seed_floor` looks at the highest of the three marks of a key: where it is at the level, the others
are left as they are; otherwise all three are written, over whatever their records hold. When the
result is a floor for every mark of the key, in memory and in the records, and no mark was lowered:
`seedFloor_establishes_iff`.
-/

namespace Russignol

open Bytes FloorRegister

section

variable [Blake3]

namespace Store

/-- The mark of a key once it is loaded. -/
def opened (s : Store) (k : PublicKeyHash) (t : OperationType) : Option WatermarkEntry :=
  if (s.wm.keys k).isSome then s.mem k t else s.reload k t

/-- All marks of a key are at a level, in memory and in the records. -/
def AllAt (level : UInt32) (mark record : OperationType → Option WatermarkEntry) : Prop :=
  ∀ t, (∃ e, mark t = some e ∧ level ≤ e.level) ∧ ∃ e, record t = some e ∧ level ≤ e.level

/-- No mark of a key was lowered or lost. -/
def NoneLowered (before after : OperationType → Option WatermarkEntry) : Prop :=
  ∀ t e, before t = some e → ∃ e', after t = some e' ∧ e ≤ e'

/-- The floor of a key stands at a level, and nothing was lowered for it. -/
structure Established (level : UInt32) (pkh : PublicKeyHash) (s s' : Store) : Prop where
  floor : AllAt level (s'.mem pkh) (s'.reload pkh)
  marks : NoneLowered (s.mem pkh) (s'.mem pkh)
  records : NoneLowered (s.reload pkh) (s'.reload pkh)

/-- The states in which seeding gives a floor: all marks are at the level, or none is and no record
is above it (nor longer than a record). -/
def Seedable (level : UInt32) (pkh : PublicKeyHash) (s : Store) : Prop :=
  AllAt level (s.opened pkh) (s.reload pkh) ∨
    (∀ t e, s.opened pkh t = some e → e.level < level) ∧ s.disk.Fits pkh ∧
      ∀ t e, s.reload pkh t = some e → e ≤ ⟨level, 0⟩

/-- Loading a key makes its marks what they are once it is loaded. -/
theorem Loaded.mem_eq_opened {s s' : Store} (h : Loaded s s') {k : PublicKeyHash}
    (hkey : (s'.wm.keys k).isSome = true) (t : OperationType) : s'.mem k t = s.opened k t := by
  rcases h.keys k with hk | ⟨hnone, macKey, hmac, hk⟩
  · rw [opened, if_pos (hk ▸ hkey), mem, mem, hk]
  · have hnot : ¬(s.wm.keys k).isSome = true := by
      rw [hnone]
      exact Bool.false_ne_true
    rw [opened, if_neg hnot, mem, hk, reload, Disk.reload, hmac]
    rfl

/-! ## Writes that succeed -/

/-- The records of some slots of a key were written over their files; the marks are as they were. -/
structure WroteOver (pkh : PublicKeyHash) (y : WatermarkEntry) (ts : List OperationType)
    (s s' : Store) : Prop where
  config : SameConfig s s'
  keyed : ts ≠ [] → (s.wm.macKeys pkh).isSome = true
  mem : ∀ t, s'.mem pkh t = s.mem pkh t
  files : ∀ macKey, s.wm.macKeys pkh = some macKey → ∀ t, s'.disk.files pkh t =
    if t ∈ ts then
      writeAt0 (Watermark.encodeAuthenticated macKey s.wm.chainId.bytes.1 y.level y.round).1
        (s.disk.files pkh t)
    else s.disk.files pkh t

variable [Base58]

/-- A record write that succeeds. -/
theorem persist_ok {io : WriteIo} {pkh : PublicKeyHash} {t : OperationType} {y : WatermarkEntry}
    {ceiling : Option WatermarkEntry} {s s' : Store}
    (h : s.persist io pkh t y ceiling = (.ok (), s')) : WroteOver pkh y [t] s s' := by
  have hmem := mem_persist io pkh t y ceiling s pkh
  rw [h] at hmem
  rw [persist] at h
  cases hmac : s.wm.macKeys pkh with
  | none =>
    simp only [HighWatermark.markBytes, HighWatermark.macKey, hmac, Except.map] at h
    cases h
  | some macKey =>
    simp only [HighWatermark.markBytes, HighWatermark.macKey, hmac, Except.map] at h
    cases hkey : s.wm.keys pkh with
    | none =>
      simp only [HighWatermark.perKey, hkey] at h
      cases h
    | some perKey =>
      simp only [HighWatermark.perKey, hkey] at h
      cases io with
      | failed left e =>
        cases left <;> cases h
      | done =>
        simp only [Disk.writeRecord] at h
        cases h
        refine ⟨⟨rfl, rfl, rfl⟩, fun _ => by rw [hmac]; rfl, hmem, ?_⟩
        intro macKey' hmac' t'
        rw [hmac] at hmac'
        obtain rfl := Option.some.inj hmac'
        simp only [Disk.put, Disk.setFile, Function.update_self, List.mem_singleton]
        by_cases ht : t' = t
        · subst ht
          rw [if_pos rfl, Function.update_self]
        · rw [if_neg ht, Function.update_of_ne ht]

/-- The writes of `update_to_level`, where they all succeed. -/
theorem writeAll_ok {ios : OperationType → WriteIo} {pkh : PublicKeyHash} {y : WatermarkEntry} :
    ∀ {us : List WatermarkUpdate} {s s' : Store}, (∀ u ∈ us, u.pkh = pkh ∧ u.entry = y) →
      (us.map (·.idx)).Nodup → s.writeAll ios us = (.ok (), s') →
      WroteOver pkh y (us.map (·.idx)) s s'
  | [], s, s', _, _, h => by
    cases h
    exact ⟨SameConfig.refl s, fun hne => absurd rfl hne, fun _ => rfl, fun _ _ _ => rfl⟩
  | u :: us, s, s', hus, hnodup, h => by
    obtain ⟨hpkh, hentry⟩ := hus u List.mem_cons_self
    rw [List.map_cons, List.nodup_cons] at hnodup
    rw [writeAll, writeWatermark, hpkh, hentry] at h
    cases hpersist : s.persist (ios u.idx) pkh u.idx y none with
    | mk r s₁ =>
      cases r with
      | error e =>
        rw [hpersist] at h
        cases h
      | ok _ =>
        rw [hpersist] at h
        have hfirst := persist_ok hpersist
        have hrest := writeAll_ok (fun v hv => hus v (List.mem_cons_of_mem _ hv)) hnodup.2 h
        refine ⟨hfirst.config.trans hrest.config, fun _ => hfirst.keyed (List.cons_ne_nil _ _),
          fun t => (hrest.mem t).trans (hfirst.mem t), fun macKey hmac t => ?_⟩
        have hmac₁ : s₁.wm.macKeys pkh = some macKey := hfirst.config.macKeys ▸ hmac
        rw [hrest.files macKey hmac₁ t, hfirst.files macKey hmac t, hfirst.config.chainId,
          List.map_cons]
        -- a slot is written once
        by_cases ht : t = u.idx
        · subst ht
          rw [if_neg hnodup.1, if_pos (List.mem_singleton_self _), if_pos List.mem_cons_self]
        · have hnot : t ∉ [u.idx] := fun hmem => ht (List.mem_singleton.1 hmem)
          have hiff : t ∈ u.idx :: us.map (·.idx) ↔ t ∈ us.map (·.idx) :=
            ⟨fun hmem => (List.mem_cons.1 hmem).resolve_left ht, List.mem_cons_of_mem _⟩
          rw [if_neg hnot, if_congr hiff rfl rfl]

omit [Base58] in
/-- What a record reads as that was written over its file: its entry, if the file was not longer. -/
theorem WroteOver.reload {pkh : PublicKeyHash} {y : WatermarkEntry} {ts : List OperationType}
    {s s' : Store} (h : WroteOver pkh y ts s s') {t : OperationType} (ht : t ∈ ts) :
    s'.reload pkh t =
      if (s.disk.files pkh t).length ≤ Watermark.authFileSize then some y else none := by
  obtain ⟨macKey, hmac⟩ := Option.isSome_iff_exists.1 (h.keyed (List.ne_nil_of_mem ht))
  have hread : s'.reload pkh t = loadEntryAuthenticated macKey s.wm.chainId.bytes.1
      (s'.disk.files pkh t) := by
    rw [Store.reload, Disk.reload, h.config.macKeys, h.config.chainId, hmac]
    rfl
  rw [hread, h.files macKey hmac t, if_pos ht]
  split
  · rename_i hfits
    exact loadEntryAuthenticated_write_of_le macKey _ y hfits
  · rename_i hlong
    have hlen := (Watermark.encodeAuthenticated macKey s.wm.chainId.bytes.1 y.level y.round).2
    rw [loadEntryAuthenticated, dif_neg]
    rw [length_writeAt0, hlen]
    omega

/-! ## The floor -/

/-- **What seeding does where it succeeds**: nothing where a mark is at the level, else every mark
and every record is the level. -/
theorem seedFloor_ok {fault : Option LoadFault} {ios : OperationType → WriteIo} {chainId : ChainId}
    {pkh : PublicKeyHash} {level : UInt32} {s s' : Store}
    (h : s.seedFloor fault ios chainId pkh level = (.ok (), s')) :
    ((∃ t e, s.opened pkh t = some e ∧ level ≤ e.level) ∧
      ∀ t, s'.mem pkh t = s.opened pkh t ∧ s'.reload pkh t = s.reload pkh t) ∨
    ((∀ t e, s.opened pkh t = some e → e.level < level) ∧
      ∀ t, s'.mem pkh t = some ⟨level, 0⟩ ∧ s'.reload pkh t =
        if (s.disk.files pkh t).length ≤ Watermark.authFileSize then some ⟨level, 0⟩ else none) := by
  obtain ⟨hload, hsome⟩ := ensureKey_spec fault pkh s
  rw [seedFloor] at h
  generalize s.ensureKey fault pkh = w at h hload hsome
  obtain ⟨w, s₁⟩ := w
  cases w with
  | error e => cases h
  | ok _ =>
    have hkey : (s₁.wm.keys pkh).isSome = true := hsome rfl
    have hmem : ∀ t, s₁.mem pkh t = s.opened pkh t := hload.mem_eq_opened hkey
    have hreload : ∀ t, s₁.reload pkh t = s.reload pkh t := fun t =>
      congrFun (reload_congr hload.config (congrFun hload.files pkh)) t
    dsimp only at h
    split at h
    · rename_i hmax
      cases h
      obtain ⟨t, e, he, hle⟩ := getMaxLevel_any_iff.1 hmax
      exact .inl ⟨⟨t, e, hmem t ▸ he, hle⟩, fun t => ⟨hmem t, hreload t⟩⟩
    · rename_i hmax
      obtain ⟨perKey, hper⟩ := Option.isSome_iff_exists.1 hkey
      rw [updateToLevel, ensureKey, if_pos hkey] at h
      dsimp only at h
      rw [hper] at h
      dsimp only at h
      obtain ⟨updates, hupdates⟩ : ∃ updates : List WatermarkUpdate, updates =
        OperationType.all.map fun t => ⟨pkh, t, level, 0, perKey.entries t⟩ := ⟨_, rfl⟩
      have heach : ∀ u ∈ updates, u.pkh = pkh ∧ u.entry = ⟨level, 0⟩ := by
        intro u hu
        rw [hupdates] at hu
        obtain ⟨t, -, rfl⟩ := List.mem_map.1 hu
        exact ⟨rfl, rfl⟩
      have hidx : updates.map (·.idx) = OperationType.all := by
        rw [hupdates]
        rfl
      rw [← hupdates] at h
      have hwrote := writeAll_ok heach (hidx ▸ OperationType.all_nodup) h
      refine .inr ⟨fun t e he => ?_, fun t => ⟨?_, ?_⟩⟩
      · refine UInt32.not_le.1 fun hle => hmax (getMaxLevel_any_iff.2 ⟨t, e, ?_, hle⟩)
        rw [hmem t, he]
      · rw [hwrote.mem t, mem]
        simp only [HighWatermark.setKey, Function.update_self, Option.bind_some]
      · have hfiles : s₁.disk.files = s.disk.files := hload.files
        rw [hwrote.reload (hidx ▸ OperationType.mem_all t), ← hfiles]

/-- **Seeding gives every mark of the key its floor, and lowers none**, exactly from the seedable
states. -/
theorem seedFloor_establishes_iff {fault : Option LoadFault} {ios : OperationType → WriteIo}
    {chainId : ChainId} {pkh : PublicKeyHash} {level : UInt32} {s s' : Store}
    (h : s.seedFloor fault ios chainId pkh level = (.ok (), s')) :
    Established level pkh s s' ↔ Seedable level pkh s := by
  have hloaded : ∀ t e, s.mem pkh t = some e → s.opened pkh t = some e := by
    intro t e he
    have hkey : (s.wm.keys pkh).isSome = true := by
      obtain ⟨perKey, hper, -⟩ := Option.bind_eq_some_iff.1 he
      rw [hper]
      rfl
    rw [opened, if_pos hkey, he]
  rcases seedFloor_ok h with ⟨⟨t₀, e₀, he₀, hle₀⟩, hkept⟩ | ⟨hbelow, hset⟩
  · have hmem : s'.mem pkh = s.opened pkh := funext fun t => (hkept t).1
    have hreload : s'.reload pkh = s.reload pkh := funext fun t => (hkept t).2
    constructor
    · intro hest
      have hfloor := hest.floor
      rw [hmem, hreload] at hfloor
      exact .inl hfloor
    · rintro (hall | ⟨hnone, -, -⟩)
      · refine ⟨?_, fun t e he => ⟨e, ?_, le_refl e⟩, fun t e he => ⟨e, ?_, le_refl e⟩⟩
        · rw [hmem, hreload]
          exact hall
        · rw [hmem, hloaded t e he]
        · rw [hreload, he]
      · exact absurd hle₀ (UInt32.not_le.2 (hnone t₀ e₀ he₀))
  · constructor
    · intro hest
      have hfits : s.disk.Fits pkh := by
        intro t
        obtain ⟨e, he, -⟩ := (hest.floor t).2
        by_contra hlong
        rw [(hset t).2, if_neg hlong] at he
        cases he
      refine .inr ⟨hbelow, hfits, fun t e he => ?_⟩
      obtain ⟨e', he', hle⟩ := hest.records t e he
      rw [(hset t).2, if_pos (hfits t)] at he'
      obtain rfl := Option.some.inj he'
      exact hle
    · rintro (hall | ⟨-, hfits, habove⟩)
      · obtain ⟨⟨e, he, hle⟩, -⟩ := hall .block
        exact absurd hle (UInt32.not_le.2 (hbelow .block e he))
      · have hreload : ∀ t, s'.reload pkh t = some ⟨level, 0⟩ := fun t => by
          rw [(hset t).2, if_pos (hfits t)]
        refine ⟨fun t => ⟨⟨_, (hset t).1, UInt32.le_refl _⟩, ⟨_, hreload t, UInt32.le_refl _⟩⟩,
          fun t e he => ⟨_, (hset t).1, ?_⟩, fun t e he => ⟨_, hreload t, habove t e he⟩⟩
        exact le_of_lt (WatermarkEntry.lt_iff.2 (.inl (hbelow t e (hloaded t e he))))

end Store

end

/-- A key in memory and on disk, by the levels of its marks. -/
def testMarks [Blake3] (level : OperationType → UInt32) : Store where
  wm := {
    knownPkhs := [testKey 1]
    keys := fun _ => some ⟨fun t => some ⟨level t, 0⟩, fun _ => none, fun t => some ⟨level t, 0⟩⟩
    macKeys := testMacKeys [testKey 1]
    chainId := testChain }
  disk := {
    isDir := fun _ => true
    files := fun k t => (testDisk [testKey 1] (level t)).files k t
    written := [] }

section

attribute [local instance] plainBlake3 plainBase58

/-- Three marks at level 5 and a floor of 8. -/
theorem seedFloor_establishes_raised : ∃ s',
    (testMarks fun _ => 5).seedFloor none (fun _ => .done) testChain (testKey 1) 8 = (.ok (), s') ∧
      (Store.Established 8 (testKey 1) (testMarks fun _ => 5) s' ↔
        Store.Seedable 8 (testKey 1) (testMarks fun _ => 5)) :=
  ⟨_, rfl, Store.seedFloor_establishes_iff
    (show (testMarks fun _ => 5).seedFloor none (fun _ => .done) testChain (testKey 1) 8 = _ from
      rfl)⟩

/-- A block was signed at level 10; the mark of the attestations stays at 5 under a floor of 8. -/
theorem floor_not_established : ¬∀ [Blake3] [Base58] (s s' : Store) (fault : Option LoadFault)
    (ios : OperationType → WriteIo) (chainId : ChainId) (pkh : PublicKeyHash) (level : UInt32),
    s.seedFloor fault ios chainId pkh level = (.ok (), s') →
      Store.Established level pkh s s' := by
  intro h
  obtain ⟨s, hs⟩ : ∃ s : Store, s = testMarks fun
    | .block => 10
    | _ => 5 := ⟨_, rfl⟩
  have hok : s.seedFloor none (fun _ => .done) testChain (testKey 1) 8 = (.ok (), s) := by
    rw [hs]
    rfl
  obtain ⟨e, he, hle⟩ := ((h s s none (fun _ => .done) testChain (testKey 1) 8 hok).floor
    .attestation).1
  rw [hs] at he
  obtain rfl : ⟨5, 0⟩ = e := Option.some.inj he
  revert hle
  decide

end

end Russignol
