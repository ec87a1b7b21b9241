import Russignol.Host.FloorAgreement
import Russignol.Signer.Gate

/-!
# A healthy card

What the verdict of the disk check is worth to the device. The verdict says that every listed key
has its three files and that they decode (`healthy_listed`); the device loads a file only where it is
a record of its chain. `healthy_card_signs_iff` says on which healthy cards every listed key can
sign at the head.
-/

namespace Russignol.Host

open CrashProgram FileStore Crypto Bytes
open WatermarkSetup (provisionedChain readChainInfo)

/-! ## What the verdict says -/

/-- The keys a card lists. -/
def CardState.listed (state : CardState) : List String :=
  match state.keys with
  | .parsed _ pkhs => pkhs
  | _ => []

section

variable [Blake3] [JsonText] {m : Mounts} {img : CardImage} {node : ChainInfo}

/-- Where f2fs was inspected, the watermarks of the listed keys were read. -/
theorem gatherCardState_watermarks (h : (gatherCardState m img).inspection = .inspected) :
    (gatherCardState m img).watermarks =
      (gatherCardState m img).listed.map (readKeyWatermarks img) := by
  unfold gatherCardState at h ⊢
  split at h
  · cases hf2fs : m.f2fsRegistered <;> rw [hf2fs] at h <;> cases h
  · split at h
    · cases h
    · rename_i hkeys hdata
      rw [if_neg hkeys, if_neg hdata]
      rfl

/-- A healthy card with no staged configuration was inspected, and its watermarks are in order. -/
theorem healthy_watermarks (hboot : (gatherCardState m img).bootConfig = none)
    (hhealthy : isHealthy (classify (gatherCardState m img) (some node)) = true) :
    (gatherCardState m img).inspection = .inspected ∧
      isHealthy (classifyWatermarks (gatherCardState m img) (some node)) = true := by
  generalize gatherCardState m img = state at *
  have hstage : isHealthy (classifyIncomplete state (some node)) = false := by
    rw [classifyIncomplete, hboot]
    rfl
  rw [classify, isHealthy_append] at hhealthy
  obtain ⟨-, hhealthy⟩ := hhealthy
  split at hhealthy
  · have huninspected :
        isHealthy (classifyUninspected state.inspection (some node)) = false := rfl
    rw [huninspected] at hhealthy
    cases hhealthy
  · rename_i hinspected
    rw [isHealthy_append] at hhealthy
    obtain ⟨-, hhealthy⟩ := hhealthy
    split at hhealthy
    · rw [hstage] at hhealthy
      cases hhealthy
    · simp only [isHealthy_append] at hhealthy
      exact ⟨not_not.1 hinspected, hhealthy.1.2⟩

/-- **Every listed key of a healthy card has its three files, and they decode.** -/
theorem healthy_listed (hboot : (gatherCardState m img).bootConfig = none)
    (hhealthy : isHealthy (classify (gatherCardState m img) (some node)) = true) {pkh : String}
    (hpkh : pkh ∈ (gatherCardState m img).listed) (t : OperationType) :
    ∃ f level, img.records pkh t = some f ∧ f.readable = true ∧
      decodeWatermarkPrefix f.content = .valid level := by
  obtain ⟨hinspected, hmarks⟩ := healthy_watermarks hboot hhealthy
  have hseeds : stagedConfigSeedsWatermarks (gatherCardState m img) (some node) = false := by
    simp only [stagedConfigSeedsWatermarks, hboot]
  rw [classifyWatermarks, isHealthy_append, gatherCardState_watermarks hinspected, hseeds,
    isHealthy_flatMap] at hmarks
  have hkey := hmarks.1 _ (List.mem_map.2 ⟨pkh, hpkh, rfl⟩)
  rw [classifyKeyWatermarks] at hkey
  cases hdir : (readKeyWatermarks img pkh).dirPresent with
  | false =>
    rw [hdir] at hkey
    cases hkey
  | true =>
    have hdir' : (img.dir pkh).any (·.isDir) = true := hdir
    have hfiles : (readKeyWatermarks img pkh).files =
        OperationType.all.map (readWatermarkFile img pkh) := by
      rw [readKeyWatermarks, hdir']
      rfl
    simp only [hdir, hfiles, Bool.not_true, Bool.false_eq_true, if_false, isHealthy_append,
      isHealthy_flatMap, List.mem_map, forall_exists_index, and_imp,
      forall_apply_eq_imp_iff₂] at hkey
    have hfile := hkey.1.1 t (OperationType.mem_all t)
    rw [classifyWatermarkFile] at hfile
    cases hstatus : (readWatermarkFile img pkh t).status with
    | missing =>
      rw [hstatus] at hfile
      cases hfile
    | wrongSize =>
      rw [hstatus] at hfile
      cases hfile
    | corrupt =>
      rw [hstatus] at hfile
      cases hfile
    | valid level =>
      simp only [readWatermarkFile] at hstatus
      cases hrecord : img.records pkh t with
      | none =>
        rw [hrecord] at hstatus
        cases hstatus
      | some f =>
        rw [hrecord, Option.bind_some, CardFile.read] at hstatus
        cases hreadable : f.readable with
        | false =>
          rw [hreadable] at hstatus
          cases hstatus
        | true =>
          rw [hreadable] at hstatus
          exact ⟨f, level, rfl, hreadable, hstatus⟩

end

/-! ## What the device does -/

/-- A request is refused for a missing watermark or a large gap. -/
def RefusedForFloor {α : Type} (r : Except ServerError α) : Prop :=
  (∃ chain pkh, r = .error (.watermark (.notInitialized chain pkh))) ∨
    ∃ current requested gap cycles,
      r = .error (.watermark (.largeLevelGap current requested gap cycles))

/-- All three marks of a key are loaded. -/
def AllLoaded (wm : HighWatermark) (pkh : PublicKeyHash) : Prop :=
  ∃ perKey macKey, wm.keys pkh = some perKey ∧ wm.macKeys pkh = some macKey ∧
    ∀ t, ∃ e, perKey.entries t = some e

section

variable [Blake3] [Base58] {pkh : PublicKeyHash} {s : Store}

/-- The check of a key whose marks are loaded refuses no request for its floor. -/
theorem check_of_loaded (h : AllLoaded s.wm pkh) (io : SignIo) (chainId : ChainId)
    {data : List UInt8} {level : UInt32} (hlevel : (parseSignPayload data).level = some level) :
    (∃ e s', s.check io chainId pkh data (parseSignPayload data) = (.error e, s') ∧
        ¬RefusedForFloor (α := Unit) (.error (.watermark e))) ∨
      ∃ u s', s.check io chainId pkh data (parseSignPayload data) = (.ok (some u), s') ∧
        u.pkh = pkh ∧ AllLoaded s'.wm pkh := by
  obtain ⟨perKey, macKey, hkey, hmac, hentries⟩ := h
  obtain ⟨t, round, ht, hround⟩ : ∃ t round, (parseSignPayload data).opType = some t ∧
      (parseSignPayload data).round = some round := by
    cases data with
    | nil => cases hlevel
    | cons magicByte rest =>
      simp only [parseSignPayload] at hlevel ⊢
      obtain ⟨lr, hlr, -⟩ := Option.map_eq_some_iff.1 hlevel
      obtain ⟨t, ht, -⟩ := Option.bind_eq_some_iff.1 hlr
      exact ⟨t, lr.2, ht, by rw [hlr]; rfl⟩
  obtain ⟨current, hcurrent⟩ := hentries t
  have hensure : s.ensureKey io.load pkh = (.ok (), s) := by
    unfold Store.ensureKey
    rw [if_pos (by rw [hkey]; rfl)]
  have hcheck : s.check io chainId pkh data (parseSignPayload data) =
      s.checkAndUpdateParsed io.load chainId pkh t level round := by
    simp only [Store.check, ht, hlevel, hround]
  rw [hcheck, Store.checkAndUpdateParsed, hensure]
  simp only [hkey, Option.bind_some, hcurrent]
  split
  · exact .inl ⟨_, s, rfl, by simp [RefusedForFloor]⟩
  · split
    · exact .inl ⟨_, s, rfl, by simp [RefusedForFloor]⟩
    · refine .inr ⟨_, _, rfl, rfl, ?_⟩
      simp only [HighWatermark.setEntry, hkey]
      refine ⟨_, macKey, Function.update_self .., hmac, fun t' => ?_⟩
      by_cases htt : t' = t
      · exact ⟨⟨level, round⟩, by simp only [htt, Function.update_self]⟩
      · obtain ⟨e, he⟩ := hentries t'
        exact ⟨e, by simp only [Function.update_of_ne htt, he]⟩

/-- Signing and writing a mark of a loaded key refuses no request for its floor. -/
theorem signAndPersist_of_loaded (h : AllLoaded s.wm pkh) (io : SignIo) {u : WatermarkUpdate}
    (hpkh : u.pkh = pkh) : ¬RefusedForFloor (s.signAndPersist io u).1 := by
  obtain ⟨perKey, macKey, hkey, hmac, -⟩ := h
  have hwrite : ∀ e, (s.persistUpdate io u).1 = .error e → ∃ text, e = .io text := by
    intro e he
    unfold Store.persistUpdate at he
    split at he
    · cases he
    · simp only [Store.writeWatermark, Store.persist, hpkh, HighWatermark.markBytes,
        HighWatermark.macKey, hmac, Except.map, HighWatermark.perKey, hkey,
        Disk.writeRecord] at he
      split at he
      · rename_i hio
        cases he
        exact ⟨_, rfl⟩
      · cases he
  unfold Store.signAndPersist
  rcases hr : s.persistUpdate io u with ⟨e | _, s'⟩
  · obtain ⟨text, rfl⟩ := hwrite e (by rw [hr])
    simp [RefusedForFloor]
  · simp only
    cases io.sign <;> simp [RefusedForFloor]

omit [Blake3] [Base58] in
/-- Where all records of a key are loaded, it has a highest level. -/
theorem getMaxLevel_of_loaded (h : AllLoaded s.wm pkh) :
    ∃ current, s.wm.getMaxLevel pkh = some current := by
  obtain ⟨perKey, -, hkey, -, hentries⟩ := h
  obtain ⟨e, he⟩ := hentries .block
  refine Option.ne_none_iff_exists'.1 fun hnone => ?_
  have hblock := (Store.getMaxLevel_eq_none s pkh).1 hnone .block
  rw [Store.mem, hkey, Option.bind_some, he] at hblock
  cases hblock

omit [Blake3] in
/-- The prechecks refuse a key that has a mark for a large gap only. -/
theorem precheck_of_level {handler : RequestHandler} {seen : HighWatermark}
    {parsed : ParsedSignPayload} {current : UInt32} {r : ServerError × List Callback}
    (hmax : seen.getMaxLevel pkh = some current)
    (hpre : handler.precheck seen pkh parsed = some r) : RefusedForGap (some r) := by
  unfold RequestHandler.precheck at hpre
  split at hpre
  · rename_i requestedLevel _ _ _
    dsimp only at hpre
    split at hpre
    · rw [HighWatermark.getCurrentLevel, hmax] at hpre
      dsimp only at hpre
      generalize (if current ≤ requestedLevel then requestedLevel - current else 0) = gap at hpre
      split at hpre
      · split at hpre
        · cases hpre
          exact ⟨_, _, _, _, _, rfl⟩
        · cases hpre
      · cases hpre
    · cases hpre
  · cases hpre

omit [Blake3] in
/-- What a refusal for a large gap takes. -/
theorem of_refusedForGap {keys : KeyManager} {chain : ChainId} {cycle : Option UInt32}
    {seen : HighWatermark} {parsed : ParsedSignPayload}
    (h : RefusedForGap ((RequestHandler.ofSigner keys chain cycle).precheck seen pkh parsed)) :
    ∃ chainId blocksPerCycle, parsed.chainId = some chainId ∧ cycle = some blocksPerCycle ∧
      0 < blocksPerCycle := by
  obtain ⟨current, requested, gap, cycles, callbacks, h⟩ := h
  unfold RequestHandler.precheck at h
  split at h
  · rename_i chainId requestedLevel hchain _ _
    dsimp only at h
    split at h
    · split at h
      · split at h
        · cases h
        · cases h
      · split at h
        · rename_i hcheck
          cases cycle with
          | none => cases hcheck
          | some blocksPerCycle =>
            exact ⟨chainId, blocksPerCycle, hchain, rfl, of_decide_eq_true hcheck⟩
        · cases h
    · cases h
  · cases h

/-- **A request past the prechecks is not refused for its floor**, where its key is loaded. -/
theorem handleSign_of_loaded (h : AllLoaded s.wm pkh) (handler : RequestHandler) (io : SignIo)
    {data : List UInt8} {level : UInt32} (hlevel : (parseSignPayload data).level = some level)
    (hgap : ¬RefusedForGap (handler.precheck s.wm pkh (parseSignPayload data))) :
    ¬RefusedForFloor (handler.handleSign s.wm io pkh data s).result := by
  unfold RequestHandler.handleSign
  split
  · simp [Reply.refuse, RefusedForFloor]
  split
  · rename_i hresolve
    simp only [RequestHandler.resolveSigner] at hresolve
    split at hresolve
    · cases hresolve
    · cases hresolve
      simp [Reply.refuse, RefusedForFloor]
  dsimp only
  split
  · rename_i hgate
    simp only [RequestHandler.chainGate] at hgate
    split at hgate
    · split at hgate
      · cases hgate
        simp [Reply.refuse, RefusedForFloor]
      · cases hgate
    · cases hgate
  split
  · rename_i e callbacks hpre
    obtain ⟨current, hmax⟩ := getMaxLevel_of_loaded h
    exact absurd (precheck_of_level hmax hpre) (hpre ▸ hgap)
  split
  · rename_i chainId hchain _
    unfold RequestHandler.signWatermarked
    rcases check_of_loaded h io chainId hlevel with ⟨e, s', hcheck, he⟩ | ⟨u, s', hcheck, hu, hs'⟩
    · rw [hcheck]
      simpa [Reply.refuse, RefusedForFloor] using he
    · rw [hcheck]
      have hsign := signAndPersist_of_loaded hs' io hu
      simp only
      generalize s'.signAndPersist io u = r at hsign ⊢
      rcases r with ⟨e | signature, s''⟩
      · simpa [Reply.refuse, RefusedForFloor] using hsign
      · simp [RequestHandler.finish, RefusedForFloor]
  · unfold RequestHandler.justSign
    cases io.sign <;> simp [Reply.refuse, RequestHandler.finish, RefusedForFloor]

/-- A request that the prechecks refuse for a large gap is refused for its floor. -/
theorem handleSign_of_gap {handler : RequestHandler} {io : SignIo} {data : List UInt8}
    (hmagic : MagicBytes.checkMagicByte data handler.allowedMagicBytes = .ok ())
    (hkey : (handler.keys.signers.lookup pkh).isSome = true)
    (hgate : handler.chainGate pkh (parseSignPayload data) = none)
    (hgap : RefusedForGap (handler.precheck s.wm pkh (parseSignPayload data))) :
    RefusedForFloor (handler.handleSign s.wm io pkh data s).result := by
  obtain ⟨signer, hsigner⟩ := Option.isSome_iff_exists.1 hkey
  obtain ⟨current, requested, gap, cycles, callbacks, hpre⟩ := hgap
  simp only [RequestHandler.handleSign, hmagic, RequestHandler.resolveSigner, hsigner, hgate, hpre]
  exact .inr ⟨current, requested, gap, cycles, rfl⟩

omit [Blake3] [Base58] in
/-- The chain a request names. -/
theorem parseSignPayload_attestation (four : Fixed 4) (level round : UInt32) :
    (parseSignPayload (createAttestationDataWithChain four level round)).chainId =
      some (ChainId.ofFour four) := by
  obtain ⟨four, hfour⟩ := four
  match four, hfour with
  | [a, b, c, d], _ => rfl

omit [Blake3] in
/-- The chain of a device is spelled by four bytes. -/
theorem exists_four [SerdeJson] (files : Files WatermarkSetup.SetupPath) :
    ∃ four, provisionedChain files = ChainId.ofFour four := by
  unfold provisionedChain
  cases h : (readChainInfo files).bind fun info => ChainId.fromB58check info.id with
  | none => exact ⟨zeros 4, rfl⟩
  | some chain =>
    obtain ⟨info, -, hchain⟩ := Option.bind_eq_some_iff.1 h
    obtain ⟨four, -, -, hfour⟩ := ChainId.fromB58check_eq_some_iff.1 hchain
    exact ⟨four, hfour⟩

/-! ## The verdict and the device -/

variable [JsonText]

/-- The blocks per cycle the device runs with. -/
def CardImage.blocksPerCycle (img : CardImage) : Option UInt32 :=
  (readChainInfo img.onDevice.files).bind (·.blocksPerCycle)

/-- A key is loaded, and no request at the head is refused for its floor. -/
def Serves (img : CardImage) (node : ChainInfo) (wm : HighWatermark) (pkh : PublicKeyHash) : Prop :=
  (∀ t, (Store.mem ⟨wm, img.onDevice.disk⟩ pkh t).isSome = true) ∧
    ∀ keys io data, (parseSignPayload data).level = some node.level →
      ¬RefusedForFloor ((RequestHandler.ofSigner keys (provisionedChain img.onDevice.files)
        img.blocksPerCycle).handleSign wm io pkh data ⟨wm, img.onDevice.disk⟩).result

/-- The three files of a key are records of the card's chain, and the highest is within the card's
own tolerance of the head. -/
def Signable (img : CardImage) (node : ChainInfo) (macKey : Watermark.MacKey)
    (pkh : PublicKeyHash) : Prop :=
  ∃ levels rounds, Marked img pkh macKey (provisionedChain img.onDevice.files) levels rounds ∧
    ∀ blocksPerCycle, img.blocksPerCycle = some blocksPerCycle → 0 < blocksPerCycle →
      node.level.toNat - highest levels ≤ tolerance blocksPerCycle % 2 ^ 32

variable {m : Mounts} {img : CardImage} {node : ChainInfo} {wm : HighWatermark}
  {macKey : Watermark.MacKey}

/-- A key that is loaded serves the head exactly where its highest mark is within the tolerance. -/
theorem serves_of_marked {levels rounds : OperationType → UInt32}
    (hmarked : Marked img pkh macKey (provisionedChain img.onDevice.files) levels rounds)
    (hkey : wm.keys pkh = some (loadPerKeyWatermark img.onDevice.disk pkh macKey
      (provisionedChain img.onDevice.files).bytes.1)) (hmac : wm.macKeys pkh = some macKey) :
    Serves img node wm pkh ↔
      ∀ blocksPerCycle, img.blocksPerCycle = some blocksPerCycle → 0 < blocksPerCycle →
        node.level.toNat - highest levels ≤ tolerance blocksPerCycle % 2 ^ 32 := by
  have hloaded : AllLoaded wm pkh :=
    ⟨_, macKey, hkey, hmac, fun t => ⟨⟨levels t, rounds t⟩, hmarked.load t⟩⟩
  obtain ⟨current, hmax, hhighest⟩ := hmarked.getMaxLevel hkey
  constructor
  · rintro ⟨-, hserves⟩ blocksPerCycle hcycle hpositive
    by_contra hbehind
    obtain ⟨four, hfour⟩ := exists_four img.onDevice.files
    obtain ⟨-, hlevel, -⟩ :=
      parseSignPayload_of_markOf (markOf_createAttestationData four node.level 0)
    have hchain := parseSignPayload_attestation four node.level 0
    have hgap := (precheck_gap_iff
      (h := RequestHandler.ofSigner (KeyManager.addSigner ⟨∅, ∅⟩ pkh ⟨zeros 32⟩ "consensus")
        (provisionedChain img.onDevice.files) img.blocksPerCycle)
      rfl (by rw [hcycle]; rfl) hcycle hpositive hchain hlevel hmax).2 (by
        rw [hhighest]
        exact Nat.not_le.1 hbehind)
    have hmagic := RequestHandler.checkMagicByte_of_chain hchain
    refine hserves (KeyManager.addSigner ⟨∅, ∅⟩ pkh ⟨zeros 32⟩ "consensus") SignIo.quiet _ hlevel
      (handleSign_of_gap (s := ⟨wm, img.onDevice.disk⟩) hmagic ?_ ?_ hgap)
    · simp only [RequestHandler.ofSigner, RequestHandler.new, KeyManager.addSigner,
        AList.lookup_insert, Option.isSome_some]
    · simp only [RequestHandler.chainGate, hchain, RequestHandler.ofSigner, RequestHandler.new,
        hfour, ne_eq, not_true_eq_false, if_false]
  · intro htolerated
    refine ⟨fun t => ?_, fun keys io data hlevel => handleSign_of_loaded hloaded _ io hlevel ?_⟩
    · simp only [Store.mem, hkey, Option.bind_some, loadPerKeyWatermark, hmarked.load,
        Option.isSome_some]
    · intro hgap
      obtain ⟨chainId, blocksPerCycle, hchain, hcycle, hpositive⟩ := of_refusedForGap hgap
      have hbehind := (precheck_gap_iff rfl (by rw [hcycle]; rfl) hcycle hpositive hchain hlevel
        hmax).1 hgap
      rw [hhighest] at hbehind
      exact Nat.not_lt.2 (htolerated blocksPerCycle hcycle hpositive) hbehind

/-- **A healthy card signs exactly when its records are the device's own**: every listed key that
the device holds is loaded, with no request at the head refused for its floor, if and only if its three
files are records of the card's chain and the highest is within the card's own tolerance. A listed
key that the device does not hold has its files on a healthy card too (`healthy_listed`), and the
device reads none of them: it loads the keys it holds. -/
theorem healthy_card_signs_iff {held : HeldKeys}
    (hboot : (gatherCardState m img).bootConfig = none)
    (hhealthy : isHealthy (classify (gatherCardState m img) (some node)) = true) {io : LoadIo}
    (hnew : HighWatermark.new io img.onDevice.disk held.pkhs held.macKeys
      (provisionedChain img.onDevice.files) = .ok wm) :
    (∀ pkh ∈ held.pkhs, pkh.toB58check ∈ (gatherCardState m img).listed → Serves img node wm pkh) ↔
      ∀ pkh ∈ held.pkhs, pkh.toB58check ∈ (gatherCardState m img).listed →
        ∀ macKey, held.macKeys pkh = some macKey → Signable img node macKey pkh := by
  have hkeys : ∀ pkh ∈ held.pkhs, pkh.toB58check ∈ (gatherCardState m img).listed →
      ∃ macKey, held.macKeys pkh = some macKey ∧ wm.macKeys pkh = some macKey ∧ wm.keys pkh =
        some (loadPerKeyWatermark img.onDevice.disk pkh macKey
          (provisionedChain img.onDevice.files).bytes.1) := by
    intro pkh hpkh hlisted
    obtain ⟨f, level, hf, -, -⟩ := healthy_listed hboot hhealthy hlisted .block
    obtain ⟨macKey, hmac, hkey⟩ := Store.new_loaded hnew hpkh
      (img.contained _ .block (by rw [hf]; rfl))
    exact ⟨macKey, hmac, (Store.new_spec hnew).1 ▸ hmac, hkey⟩
  constructor
  · intro hserves pkh hpkh hlisted macKey hmac
    obtain ⟨macKey', hmac', hwmac, hkey⟩ := hkeys pkh hpkh hlisted
    cases hmac.symm.trans hmac'
    have hload : ∀ t, ∃ e : WatermarkEntry, loadEntryAuthenticated macKey
        (provisionedChain img.onDevice.files).bytes.1 (img.onDevice.disk.files pkh t) = some e := by
      intro t
      have hmem := (hserves pkh hpkh hlisted).1 t
      rw [Store.mem, hkey] at hmem
      exact Option.isSome_iff_exists.1 hmem
    choose entry hentry using hload
    have hmarked : Marked img pkh macKey (provisionedChain img.onDevice.files)
        (fun t => (entry t).level) (fun t => (entry t).round) := by
      refine ⟨fun t => ?_⟩
      obtain ⟨f, level, hf, hreadable, -⟩ := healthy_listed hboot hhealthy hlisted t
      have hcontent : img.onDevice.disk.files pkh t = f.content := by
        simp only [CardImage.onDevice, hf, Option.map_some, Option.getD_some]
      exact ⟨f, hf, hreadable, hcontent ▸ loadEntryAuthenticated_some (hentry t)⟩
    exact ⟨_, _, hmarked, (serves_of_marked hmarked hkey hwmac).1 (hserves pkh hpkh hlisted)⟩
  · intro hsignable pkh hpkh hlisted
    obtain ⟨macKey, hmac, hwmac, hkey⟩ := hkeys pkh hpkh hlisted
    obtain ⟨levels, rounds, hmarked, htolerated⟩ := hsignable pkh hpkh hlisted macKey hmac
    exact (serves_of_marked hmarked hkey hwmac).2 htolerated

end

/-! ### Two cards -/

/-- The files of a key were written by a signer for the key: records of some chain, or of the format
without a MAC. -/
def SignerWritten [Blake3] [Base58] (img : CardImage) (macKey : Watermark.MacKey)
    (pkh : PublicKeyHash) : Prop :=
  ∀ t f, img.records pkh.toB58check t = some f → ∃ level round,
    f.content = (Watermark.encode level round).1 ∨ ∃ chain : ChainId,
      f.content = (Watermark.encodeAuthenticated macKey chain.bytes.1 level round).1

/-- `public_key_hashs` of a card with two keys. -/
def keyHashsJson (consensus companion : String) : Json :=
  .arr [.obj [("name", .str "consensus"), ("value", .str consensus)],
    .obj [("name", .str "companion"), ("value", .str companion)]]

/-- A file of the device that the host can read. -/
def CardFile.ofDevice (mode : UInt32) (content : List UInt8) : CardFile where
  owner := deviceOwner
  mode := mode
  readable := true
  content := content

/-- A card that was set up with two keys, all of whose record files are the same. -/
def CardImage.ofRecord [JsonText] (chainId consensus companion : String) (record : List UInt8) :
    CardImage where
  boot := none
  keysRoot := (deviceOwner, 0o755)
  keys := fun
    | .setupComplete => some (.ofDevice 0o644 [])
    | .secretKeysEnc => none
    | .publicKeyHashs =>
      some (.ofDevice 0o444 (asBytes (JsonText.pretty (keyHashsJson consensus companion))))
    | .chainInfo =>
      some (.ofDevice chainInfoMode
        (asBytes (JsonText.pretty (Russignol.ChainInfo.toJson chainId "test" 100))))
  dir _ := some ⟨true, deviceOwner⟩
  records _ _ := some (.ofDevice 0o600 record)
  logsDir := true
  panicLog := none
  contained _ _ _ := rfl

/-- What the check reads of it. -/
def CardState.ofLevel (chainId consensus companion : String) (level : UInt32) : CardState where
  inspection := .inspected
  setupComplete := true
  migrationPending := false
  keys := .parsed ["consensus", "companion"] [consensus, companion]
  chainInfo := .present chainId (some chainInfoMode) (some deviceOwner)
  watermarks := [consensus, companion].map fun pkh => {
    pkh
    dirPresent := true
    dirOwner := some deviceOwner
    files := OperationType.all.map fun t => ⟨recordName t, .valid level, some deviceOwner⟩ }
  logsDirPresent := true
  panicLogSize := none
  bootConfig := none

/-- Every mount succeeds. -/
def Mounts.all : Mounts := ⟨true, true, true, true⟩

/-- The keys of a card with two keys. -/
theorem readKeysState_ofRecord [JsonText] [LawfulJsonText]
    (chainId consensus companion : String) (record : List UInt8) :
    readKeysState (.ofRecord chainId consensus companion record) =
      .parsed ["consensus", "companion"] [consensus, companion] := by
  have hwritable : (keyHashsJson consensus companion).writable 127 = true := by
    simp [keyHashsJson, Json.writable]
  have hload : loadKeyHashs (JsonText.pretty (keyHashsJson consensus companion)) =
      [("consensus", consensus), ("companion", companion)] := by
    have hentries : ((keyHashsJson consensus companion).asArr.bind (·.mapM ocamlKeyEntry)) =
        some [("consensus", consensus), ("companion", companion)] := rfl
    rw [loadKeyHashs, JsonText.decode_pretty _ hwritable hentries]
    rfl
  have hread : ((CardImage.ofRecord chainId consensus companion record).keys
      .publicKeyHashs).map (·.readToString) =
        some (some (JsonText.pretty (keyHashsJson consensus companion))) := by
    simp only [CardImage.ofRecord, Option.map_some, CardFile.readToString, CardFile.read,
      CardFile.ofDevice, if_true, Option.bind_some, fromUtf8_asBytes]
  have horder : orderCardKeys [("consensus", consensus), ("companion", companion)] =
      (["consensus", "companion"], [consensus, companion]) := by
    rw [orderCardKeys, List.mergeSort_of_pairwise]
    · rfl
    · simp only [List.pairwise_cons, List.mem_singleton, forall_eq]
      exact ⟨rfl, fun _ h => absurd h List.not_mem_nil, .nil⟩
  obtain ⟨file, hfile, hread⟩ := Option.map_eq_some_iff.1 hread
  rw [readKeysState, hfile]
  simp only [hread, Option.map_some, hload, Option.getD_some, horder]

/-- The chain of such a card. -/
theorem readChainInfoState_ofRecord [JsonText] [LawfulJsonText] {chainId : String}
    (hid : chainId ≠ "") (consensus companion : String) (record : List UInt8) :
    readChainInfoState (.ofRecord chainId consensus companion record) =
      .present chainId (some chainInfoMode) (some deviceOwner) := by
  have hparse : JsonText.parse (JsonText.pretty (Russignol.ChainInfo.toJson chainId "test" 100)) =
      .ok (Russignol.ChainInfo.toJson chainId "test" 100) :=
    LawfulJsonText.parse_pretty _ (Json.writable_obj Russignol.ChainInfo.nodup_names (by
      simp only [List.map_cons, List.map_nil, List.all_cons, List.all_nil, Json.writable_u32,
        Json.writable_str, Bool.and_self]))
  have hget : ((Russignol.ChainInfo.toJson chainId "test" 100).get "id").bind Json.asStr =
      some chainId := rfl
  have hmode : chainInfoMode &&& 0o777 = chainInfoMode := by decide
  simp only [readChainInfoState, CardImage.ofRecord, CardFile.readToString, CardFile.read,
    CardFile.ofDevice, if_true, Option.bind_some, fromUtf8_asBytes, hparse, Except.toOption, hget,
    Option.filter, hid, ne_eq, not_false_eq_true, decide_true, hmode]

/-- What the host gathers of a card whose records are all the same. -/
theorem gatherCardState_ofRecord [Blake3] [JsonText] [LawfulJsonText] {chainId : String}
    (hid : chainId ≠ "") (consensus companion : String) {record : List UInt8} {level : UInt32}
    (hrecord : decodeWatermarkPrefix record = .valid level) :
    gatherCardState .all (.ofRecord chainId consensus companion record) =
      .ofLevel chainId consensus companion level := by
  have hfile : ∀ pkh t,
      readWatermarkFile (.ofRecord chainId consensus companion record) pkh t =
        ⟨recordName t, .valid level, some deviceOwner⟩ := by
    intro pkh t
    rw [← hrecord]
    rfl
  have hkey : ∀ pkh, readKeyWatermarks (.ofRecord chainId consensus companion record) pkh = {
      pkh
      dirPresent := true
      dirOwner := some deviceOwner
      files := OperationType.all.map fun t => ⟨recordName t, .valid level, some deviceOwner⟩ } := by
    intro pkh
    rw [← funext (hfile pkh)]
    rfl
  unfold gatherCardState
  simp only [Mounts.all, Bool.not_true, Bool.false_eq_true, if_false, readKeysState_ofRecord,
    readChainInfoState_ofRecord hid, List.map_cons, List.map_nil, hkey]
  rfl

section

attribute [local instance] plainBlake3 plainBase58 plainJson plainJson_lawful

/-- A card of the test chain with the keys of index 0 and 1, held by the device. -/
def recordCard (record : List UInt8) : CardImage :=
  .ofRecord testChain.toB58check (testKey 0).toB58check (testKey 1).toB58check record

/-- The first of them. -/
def recordKeys : HeldKeys where
  pkhs := [testKey 0]
  macKeys _ := some (zeros 32)
  nodup := List.nodup_singleton _
  derived _ _ := rfl

/-- A node of the test chain. -/
def recordNode : ChainInfo := ⟨testChain.toB58check, 2000, "test", 100⟩

/-- What it gathers of the card of the examples. -/
theorem gatherCardState_recordCard {record : List UInt8}
    (hrecord : decodeWatermarkPrefix record = .valid 2000) :
    gatherCardState .all (recordCard record) =
      .ofLevel testChain.toB58check (testKey 0).toB58check (testKey 1).toB58check 2000 :=
  gatherCardState_ofRecord (by decide) _ _ hrecord

/-- That card is healthy. -/
theorem healthy_ofLevel : isHealthy (classify (.ofLevel testChain.toB58check
    (testKey 0).toB58check (testKey 1).toB58check 2000) (some recordNode)) = true := by
  decide +kernel

/-- The device reads the chain of the node there. -/
theorem readChainInfo_recordCard (record : List UInt8) :
    readChainInfo (recordCard record).onDevice.files =
      some ⟨testChain.toB58check, "test", some 100⟩ := by
  have hparse := LawfulSerdeJson.parse_pretty testChain.toB58check "test" 100
  have hfile : (recordCard record).onDevice.files.content .chainInfo =
      some (asBytes (SerdeJson.chainInfoPretty testChain.toB58check "test" 100)) := rfl
  rw [readChainInfo, hfile, Option.bind_some, fromUtf8_asBytes, Option.bind_some, hparse]
  rfl

/-- The device loads its records under that chain. -/
theorem provisionedChain_recordCard (record : List UInt8) :
    provisionedChain (recordCard record).onDevice.files = testChain := by
  have hchain : ChainId.fromB58check testChain.toB58check = some testChain := by decide +kernel
  rw [provisionedChain, readChainInfo_recordCard, Option.bind_some, hchain]
  rfl

/-- The watermarks the device loads from it. -/
theorem new_recordCard (record : List UInt8) :
    ∃ wm, HighWatermark.new .quiet (recordCard record).onDevice.disk recordKeys.pkhs
      recordKeys.macKeys (provisionedChain (recordCard record).onDevice.files) = .ok wm :=
  ⟨_, rfl⟩

/-- A record of the card's chain. -/
def chainRecord : List UInt8 :=
  (Watermark.encodeAuthenticated (zeros 32) testChain.bytes.1 2000 0).1

/-- Its records let the first key sign. -/
theorem signable_chainRecord : Signable (recordCard chainRecord) recordNode (zeros 32)
    (testKey 0) := by
  refine ⟨fun _ => 2000, fun _ => 0, ⟨fun t => ⟨_, rfl, rfl, ?_⟩⟩, ?_⟩
  · rw [provisionedChain_recordCard]
    rfl
  · intro blocksPerCycle _ _
    have hbehind : recordNode.level.toNat - highest (fun _ => 2000) = 0 := by decide
    rw [hbehind]
    exact Nat.zero_le _

/-- The device starts with the card, and serves the first key. -/
theorem healthy_card_signs_record : ∃ wm,
    HighWatermark.new .quiet (recordCard chainRecord).onDevice.disk recordKeys.pkhs
      recordKeys.macKeys (provisionedChain (recordCard chainRecord).onDevice.files) = .ok wm ∧
    Serves (recordCard chainRecord) recordNode wm (testKey 0) := by
  obtain ⟨wm, hnew⟩ := new_recordCard chainRecord
  have hgather := gatherCardState_recordCard (decodeWatermarkPrefix_authenticated (zeros 32)
    testChain.bytes.1 2000 0)
  have hrecord : chainRecord =
      (Watermark.encodeAuthenticated (zeros 32) testChain.bytes.1 2000 0).1 := rfl
  rw [← hrecord] at hgather
  refine ⟨wm, hnew, ?_⟩
  refine (healthy_card_signs_iff (m := .all) (by rw [hgather]; rfl)
    (by rw [hgather]; exact healthy_ofLevel) hnew).2 ?_ (testKey 0) (List.mem_singleton_self _)
    (by rw [hgather]; exact List.mem_cons_self)
  intro pkh hpkh _ macKey hmac
  cases List.mem_singleton.1 hpkh
  cases hmac
  exact signable_chainRecord

end

/-- A card whose records have no MAC is healthy, and the device loads none of its marks. -/
theorem healthy_card_legacy : ¬∀ [Blake3] [Base58] [JsonText] [LawfulJsonText] (m : Mounts)
    (img : CardImage) (node : ChainInfo) (held : HeldKeys) (io : LoadIo) (wm : HighWatermark),
    (∀ pkh ∈ held.pkhs, ∀ macKey, held.macKeys pkh = some macKey → SignerWritten img macKey pkh) →
    (gatherCardState m img).inspection = .inspected → (gatherCardState m img).setupComplete →
    (gatherCardState m img).bootConfig = none →
    isHealthy (classify (gatherCardState m img) (some node)) = true →
    HighWatermark.new io img.onDevice.disk held.pkhs held.macKeys
      (provisionedChain img.onDevice.files) = .ok wm →
    ∀ pkh ∈ held.pkhs, pkh.toB58check ∈ (gatherCardState m img).listed → Serves img node wm pkh := by
  intro hall
  let _ := plainBlake3
  let _ := plainBase58
  let _ := plainJson
  let _ := plainJson_lawful
  obtain ⟨wm, hnew⟩ := new_recordCard (Watermark.encode 2000 0).1
  have hgather := gatherCardState_recordCard (decodeWatermarkPrefix_legacy 2000 0)
  have hboot : (gatherCardState .all (recordCard (Watermark.encode 2000 0).1)).bootConfig = none :=
    by rw [hgather]; rfl
  have hhealthy : isHealthy (classify (gatherCardState .all
      (recordCard (Watermark.encode 2000 0).1)) (some recordNode)) = true := by
    rw [hgather]
    exact healthy_ofLevel
  have hserves := hall .all (recordCard (Watermark.encode 2000 0).1) recordNode recordKeys .quiet wm
    (fun _ _ _ _ t f hf => ⟨2000, 0, .inl (by cases hf; rfl)⟩) (by rw [hgather]; rfl)
    (by rw [hgather]; rfl) hboot hhealthy hnew
  obtain ⟨levels, rounds, hmarked, -⟩ := (healthy_card_signs_iff hboot hhealthy hnew).1 hserves
    (testKey 0) (List.mem_singleton_self _) (by rw [hgather]; exact List.mem_cons_self) (zeros 32)
    rfl
  obtain ⟨f, hf, -, hcontent⟩ := hmarked.file .block
  cases hf
  have hlen := congrArg List.length hcontent
  rw [(Watermark.encodeAuthenticated ..).2] at hlen
  exact absurd ((Watermark.encode 2000 0).2.symm.trans hlen) (by decide)

end Russignol.Host
