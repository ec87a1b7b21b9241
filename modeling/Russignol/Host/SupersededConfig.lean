import Russignol.Host.HealthyCard

/-!
# A superseded configuration

`boot_config_superseded` judges that a staged configuration would do nothing if the device consumed
it. The host takes the id of the chain and the first 40 bytes of each record; the device would
write the whole chain, and raises every key none of whose records it can load.
`superseded_idle_iff` says which superseded configurations do nothing.
-/

namespace Russignol

namespace StagedFloor

variable [Blake3] [Base58]

/-- **Seeding the floors of the keys**, whatever the writes are answered. -/
theorem seedKeys_mem {io : SeedIo} (hio : ∀ pkh, io.fault pkh = none) (chainId : ChainId)
    (level : UInt32) : ∀ {pkhs : List PublicKeyHash} {s : Store}, pkhs.Nodup →
      (∀ pkh ∈ pkhs, pkh ∈ s.wm.knownPkhs ∧ (s.wm.macKeys pkh).isSome = true ∧
        ∀ t, s.mem pkh t = s.reload pkh t) →
      (∀ k ∉ pkhs, ∀ t, (seedKeys io chainId level pkhs s).mem k t = s.mem k t) ∧
        ∀ pkh ∈ pkhs,
          (s.Covers pkh level → ∀ t, (seedKeys io chainId level pkhs s).mem pkh t = s.mem pkh t) ∧
          (¬s.Covers pkh level → ∀ t,
            (seedKeys io chainId level pkhs s).mem pkh t = some ⟨level, 0⟩)
  | [], s, _, _ => ⟨fun _ _ _ => rfl, nofun⟩
  | pkh :: pkhs, s, hnodup, hkeys => by
    obtain ⟨hnot, hnodup⟩ := List.nodup_cons.1 hnodup
    obtain ⟨hknown, hmac, hsync⟩ := hkeys pkh List.mem_cons_self
    have hseeded := Store.seedFloor_mem (io.ios pkh) level chainId hknown hmac hsync
    rw [← hio pkh] at hseeded
    obtain ⟨s₁, hs₁⟩ : ∃ s₁, s₁ = (s.seedFloor (io.fault pkh) (io.ios pkh) chainId pkh level).2 :=
      ⟨_, rfl⟩
    rw [← hs₁] at hseeded
    have hne : ∀ k ∈ pkhs, k ≠ pkh := fun k hk heq => hnot (heq ▸ hk)
    have hcovers : ∀ k ∈ pkhs, (s₁.Covers k level ↔ s.Covers k level) := by
      intro k hk
      simp only [Store.Covers, hseeded.mem k (hne k hk)]
    have hkeys₁ : ∀ k ∈ pkhs, k ∈ s₁.wm.knownPkhs ∧ (s₁.wm.macKeys k).isSome = true ∧
        ∀ t, s₁.mem k t = s₁.reload k t := by
      intro k hk
      obtain ⟨hknown, hmac, hsync⟩ := hkeys k (List.mem_cons_of_mem _ hk)
      refine ⟨hseeded.config.knownPkhs ▸ hknown, hseeded.config.macKeys ▸ hmac, fun t => ?_⟩
      rw [hseeded.mem k (hne k hk), hsync,
        Store.reload_congr hseeded.config (hseeded.files k (hne k hk))]
    have hrest := seedKeys_mem hio chainId level hnodup hkeys₁
    have heq : seedKeys io chainId level (pkh :: pkhs) s = seedKeys io chainId level pkhs s₁ := by
      rw [hs₁]
      rfl
    rw [heq]
    refine ⟨fun k hk t => ?_, fun k hk => ?_⟩
    · rw [List.mem_cons, not_or] at hk
      exact (hrest.1 k hk.2 t).trans (hseeded.mem k hk.1 t)
    · rcases List.mem_cons.1 hk with rfl | hk
      · exact ⟨fun h t => (hrest.1 k hnot t).trans (hseeded.kept h t),
          fun h t => (hrest.1 k hnot t).trans (hseeded.raised h t)⟩
      · obtain ⟨hkept, hraised⟩ := hrest.2 k hk
        exact ⟨fun h t => (hkept ((hcovers k hk).2 h) t).trans (hseeded.mem k (hne k hk) t),
          fun h => hraised fun h' => h ((hcovers k hk).1 h')⟩

end StagedFloor

namespace Host

open CrashProgram FileStore Crypto Bytes
open WatermarkSetup (provisionedChain readChainInfo)

/-! ## The two readers of the configuration -/

/-- The chain of a configuration is read in one way. -/
theorem ChainInfo.ofJson_onDevice {j : Json} {c : ChainInfo} (h : ChainInfo.ofJson j = some c) :
    WatermarkSetup.ChainInfo.ofJson j = some c.onDevice.chain := by
  simp only [ChainInfo.ofJson, Option.bind_eq_bind, Option.bind_eq_some_iff] at h
  obtain ⟨field, hfield, id, hid, level, hlevel, name, hname, blocksPerCycle, hcycle, hc⟩ := h
  cases hc
  simp only [WatermarkSetup.ChainInfo.ofJson, Option.bind_eq_bind, hfield, hid, hlevel, hname,
    hcycle, Option.bind_some, ChainInfo.onDevice]

/-- What both read of a configuration is the same. -/
theorem WatermarkConfig.onDevice_of_ofJson {j : Json} {c : WatermarkConfig}
    {d : WatermarkSetup.WatermarkConfig} (hhost : ofJson j = some c)
    (hdevice : WatermarkSetup.WatermarkConfig.ofJson j = some d) : d = c.chain.onDevice := by
  simp only [ofJson, Option.bind_eq_bind, Option.bind_eq_some_iff] at hhost
  obtain ⟨field, hfield, created, -, chain, ⟨tree, htree, hchain⟩, hc⟩ := hhost
  cases hc
  simp only [WatermarkSetup.WatermarkConfig.ofJson, Option.bind_eq_bind,
    Option.bind_eq_some_iff] at hdevice
  obtain ⟨field', hfield', chain', ⟨tree', htree', hchain'⟩, hd⟩ := hdevice
  cases hd
  have hsame : tree' = tree := by
    cases j with
    | obj fields =>
      simp only [Json.record, Option.ite_none_right_eq_some, Option.some.injEq] at hfield hfield'
      rw [← hfield.2] at htree
      rw [← hfield'.2] at htree'
      exact Option.some.inj (htree'.symm.trans htree)
    | arr items =>
      -- By position the chain is the second item for the host, and the only one for the device.
      simp only [Json.record, Option.ite_none_right_eq_some, Option.some.injEq] at hfield hfield'
      have hlen : items.length ≤ 1 := hfield'.1
      have hsecond : items[1]? = some tree := by
        rw [← hfield.2] at htree
        exact htree
      rw [List.getElem?_eq_none hlen] at hsecond
      cases hsecond
    | null => cases hfield
    | bool b => cases hfield
    | num n => cases hfield
    | float text => cases hfield
    | str s => cases hfield
  rw [hsame, ChainInfo.ofJson_onDevice hchain] at hchain'
  cases hchain'
  rfl

section

variable [Blake3] [JsonText] {m : Mounts} {img : CardImage}

/-- The host's view of a configuration that the device reads. -/
theorem bootConfig_eq {config : WatermarkSetup.WatermarkConfig} {raw : List UInt8}
    {content : String} (hboot : img.boot = some raw) (hutf8 : fromUtf8 raw = some content)
    (hparse : SerdeJson.parseConfig content = .ok config) {bc : BootConfigState}
    (hbc : (gatherCardState m img).bootConfig = some bc) :
    bc = ⟨config.chain.id, config.chain.level⟩ := by
  have hgather : gatherBootConfig m img = some bc := by
    rw [← hbc]
    unfold gatherCardState
    split_ifs <;> rfl
  simp only [gatherBootConfig, Option.ite_none_right_eq_some, hboot, Option.bind_some,
    hutf8] at hgather
  obtain ⟨-, hgather⟩ := hgather
  have hdevice : JsonText.decode "struct WatermarkConfig" WatermarkSetup.WatermarkConfig.ofJson
      content = .ok config := hparse
  simp only [JsonText.decode] at hgather hdevice
  cases htext : JsonText.parse content with
  | error e =>
    rw [htext] at hgather
    cases hgather
  | ok j =>
    simp only [htext] at hgather hdevice
    cases hhost : WatermarkConfig.ofJson j with
    | none =>
      rw [hhost] at hgather
      cases hgather
    | some c =>
      cases hconfig : WatermarkSetup.WatermarkConfig.ofJson j with
      | none =>
        rw [hconfig] at hdevice
        cases hdevice
      | some d =>
        rw [hhost] at hgather
        rw [hconfig] at hdevice
        cases hgather
        cases hdevice
        rw [WatermarkConfig.onDevice_of_ofJson hhost hconfig]
        rfl

/-! ## What the verdict says -/

/-- The record files of a listed key read as levels that are not below the configuration's. -/
theorem superseded_level {node : ChainInfo} {bc : BootConfigState}
    (hsuperseded : bootConfigSuperseded (gatherCardState m img) node.id bc = true) {pkh : String}
    (hpkh : pkh ∈ (gatherCardState m img).listed) (t : OperationType) :
    ∃ f level, img.records pkh t = some f ∧ decodeWatermarkPrefix f.content = .valid level ∧
      bc.level ≤ level := by
  simp only [bootConfigSuperseded, Bool.and_eq_true, decide_eq_true_eq,
    List.all_eq_true] at hsuperseded
  obtain ⟨-, ⟨hinspected, -⟩, hkeys⟩ := hsuperseded
  have hfiles := hkeys (readKeyWatermarks img pkh) (by
    rw [gatherCardState_watermarks hinspected]
    exact List.mem_map.2 ⟨pkh, hpkh, rfl⟩)
  obtain ⟨hsome, hall⟩ := hfiles
  have hdir : (img.dir pkh).any (·.isDir) = true := by
    by_contra hdir
    simp only [readKeyWatermarks, hdir] at hsome
    cases hsome
  have hvalid := hall (readWatermarkFile img pkh t) (by
    simp only [readKeyWatermarks, hdir, if_true]
    exact List.mem_map.2 ⟨t, OperationType.mem_all t, rfl⟩)
  simp only [readWatermarkFile] at hvalid
  cases hrecord : img.records pkh t with
  | none =>
    rw [hrecord] at hvalid
    cases hvalid
  | some f =>
    rw [hrecord, Option.bind_some, CardFile.read] at hvalid
    cases hreadable : f.readable with
    | false =>
      rw [hreadable] at hvalid
      cases hvalid
    | true =>
      rw [hreadable, if_pos rfl] at hvalid
      cases hstatus : decodeWatermarkPrefix f.content with
      | valid level =>
        simp only [hstatus] at hvalid
        exact ⟨f, level, rfl, hstatus, of_decide_eq_true hvalid⟩
      | missing =>
        simp only [hstatus] at hvalid
        cases hvalid
      | wrongSize =>
        simp only [hstatus] at hvalid
        cases hvalid
      | corrupt =>
        simp only [hstatus] at hvalid
        cases hvalid

end

/-! ## What the device does -/

section

variable [Blake3] [Base58]

omit [Blake3] in
/-- A device that has no directory of a key has no record files of it. -/
theorem CardImage.files_of_not_isDir (img : CardImage) {pkh : PublicKeyHash}
    (h : img.onDevice.disk.isDir pkh = false) (t : OperationType) :
    img.onDevice.disk.files pkh t = [] := by
  have hrecord : img.records pkh.toB58check t = none := by
    by_contra hsome
    have hdir : img.onDevice.disk.isDir pkh = true :=
      img.contained _ t (Option.isSome_iff_ne_none.2 hsome)
    rw [hdir] at h
    cases h
  simp only [CardImage.onDevice, hrecord, Option.map_none, Option.getD_none]

/-- The marks of a held key are those of its record files. -/
theorem new_mem {img : CardImage} {held : HeldKeys} {io : LoadIo} {chain : ChainId}
    {wm : HighWatermark}
    (hnew : HighWatermark.new io img.onDevice.disk held.pkhs held.macKeys chain = .ok wm)
    {pkh : PublicKeyHash} (hpkh : pkh ∈ held.pkhs) (t : OperationType) :
    Store.mem ⟨wm, img.onDevice.disk⟩ pkh t =
      img.onDevice.disk.reload held.macKeys chain pkh t := by
  cases hdir : img.onDevice.disk.isDir pkh with
  | true =>
    obtain ⟨macKey, hmac, hkey⟩ := Store.new_loaded hnew hpkh hdir
    simp only [Store.mem, hkey, Option.bind_some, loadPerKeyWatermark, Disk.reload, hmac]
  | false =>
    have hkey : wm.keys pkh = none := by
      by_contra hsome
      have hisDir := ((Store.new_inSync hnew).1 pkh (Option.isSome_iff_ne_none.2 hsome)).1
      rw [hdir] at hisDir
      cases hisDir
    obtain ⟨macKey, hmac⟩ := Option.isSome_iff_exists.1 (held.derived pkh hpkh)
    simp only [Store.mem, hkey, Option.bind_none, Disk.reload, hmac, Option.bind_some,
      img.files_of_not_isDir hdir]
    rfl

variable [JsonText]

/-- The configuration does nothing where it is consumed: the chain that is read, and the marks of
every held key, are what they are without it. -/
structure Idle (img : CardImage) (held : HeldKeys) (files : Files WatermarkSetup.SetupPath)
    (wm : HighWatermark) (seeded : Store) : Prop where
  chain : readChainInfo files = readChainInfo img.onDevice.files
  marks : ∀ pkh ∈ held.pkhs, ∀ t, seeded.mem pkh t = Store.mem ⟨wm, img.onDevice.disk⟩ pkh t

/-- The device has what the configuration would give it: its chain, and of every held key a record
that it loads, at the level of the configuration where the host does not list the key. -/
structure Redundant (m : Mounts) (img : CardImage) (held : HeldKeys)
    (config : WatermarkSetup.WatermarkConfig) : Prop where
  chain : readChainInfo img.onDevice.files =
    some ⟨config.chain.id, config.chain.name, some config.chain.blocksPerCycle⟩
  marks : ∀ pkh ∈ held.pkhs, ∃ t e, img.onDevice.disk.reload held.macKeys
    (provisionedChain img.onDevice.files) pkh t = some e ∧
      (pkh.toB58check ∈ (gatherCardState m img).listed ∨ config.chain.level ≤ e.level)

/-- A mark of a listed key is not below a configuration that is superseded. -/
theorem superseded_reload {m : Mounts} {img : CardImage} {node : ChainInfo} {bc : BootConfigState}
    (hsuperseded : bootConfigSuperseded (gatherCardState m img) node.id bc = true)
    {pkh : PublicKeyHash} (hpkh : pkh.toB58check ∈ (gatherCardState m img).listed)
    {macKeys : PublicKeyHash → Option Watermark.MacKey} {chain : ChainId} {t : OperationType}
    {e : WatermarkEntry} (he : img.onDevice.disk.reload macKeys chain pkh t = some e) :
    bc.level ≤ e.level := by
  obtain ⟨f, level, hrecord, hvalid, hle⟩ := superseded_level hsuperseded hpkh t
  obtain ⟨macKey, -, hload⟩ := Option.bind_eq_some_iff.1 he
  have hcontent := loadEntryAuthenticated_some hload
  simp only [CardImage.onDevice, hrecord, Option.map_some, Option.getD_some] at hcontent
  rw [hcontent, decodeWatermarkPrefix_authenticated] at hvalid
  cases hvalid
  exact hle

/-- **A superseded configuration does nothing exactly where the device can load what the host
saw**: the chain on the card is the configuration's, and every held key has a record that
authenticates. -/
theorem superseded_idle_iff [LawfulJsonText] {m : Mounts} {img : CardImage} {node : ChainInfo}
    {config : WatermarkSetup.WatermarkConfig} {raw : List UInt8} {content : String}
    (hboot : img.boot = some raw) (hutf8 : fromUtf8 raw = some content)
    (hparse : SerdeJson.parseConfig content = .ok config) {bc : BootConfigState}
    (hbc : (gatherCardState m img).bootConfig = some bc)
    (hsuperseded : bootConfigSuperseded (gatherCardState m img) node.id bc = true)
    {held : HeldKeys} {loadIo : LoadIo} {wm : HighWatermark}
    (hnew : HighWatermark.new loadIo img.onDevice.disk held.pkhs held.macKeys
      (provisionedChain img.onDevice.files) = .ok wm)
    {io io' : List Answer} {files : Files WatermarkSetup.SetupPath}
    (hconsume : (WatermarkSetup.consumeConfig config).run io img.onDevice.files =
      (some config.configured, io', files))
    {seedIo : SeedIo} (hio : ∀ pkh, seedIo.fault pkh = none) {wm' : HighWatermark}
    (hnew' : HighWatermark.new seedIo.load img.onDevice.disk held.pkhs held.macKeys
      (provisionedChain files) = .ok wm') :
    Idle img held files wm (StagedFloor.seedKeys seedIo (provisionedChain files)
        config.chain.level held.pkhs ⟨wm', img.onDevice.disk⟩) ↔
      Redundant m img held config := by
  have hsaved : readChainInfo files =
      some ⟨config.chain.id, config.chain.name, some config.chain.blocksPerCycle⟩ := by
    rw [readChainInfo, WatermarkSetup.consumeConfig_configured hconsume, Option.bind_some,
      fromUtf8_asBytes, Option.bind_some, LawfulSerdeJson.parse_pretty]
    rfl
  have hlevel : bc.level = config.chain.level := by
    rw [bootConfig_eq hboot hutf8 hparse hbc]
  obtain ⟨hmac, hchain, hknown, -⟩ := Store.new_spec hnew'
  have hseeded := (StagedFloor.seedKeys_mem hio (provisionedChain files) config.chain.level
    (s := ⟨wm', img.onDevice.disk⟩) held.nodup (by
      intro pkh hpkh
      refine ⟨hknown ▸ hpkh, ?_, fun t => ?_⟩
      · show (wm'.macKeys pkh).isSome = true
        rw [hmac]
        exact held.derived pkh hpkh
      · rw [new_mem hnew' hpkh, Store.reload]
        simp only [hmac, hchain])).2
  -- Where the chain stays the same, the marks before the seeding are those without it.
  have hbefore : readChainInfo files = readChainInfo img.onDevice.files →
      provisionedChain files = provisionedChain img.onDevice.files ∧ ∀ pkh ∈ held.pkhs, ∀ t,
        Store.mem ⟨wm', img.onDevice.disk⟩ pkh t = Store.mem ⟨wm, img.onDevice.disk⟩ pkh t := by
    intro h
    have hsame : provisionedChain files = provisionedChain img.onDevice.files := by
      rw [provisionedChain, provisionedChain, h]
    refine ⟨hsame, fun pkh hpkh t => ?_⟩
    rw [new_mem hnew' hpkh, new_mem hnew hpkh, hsame]
  constructor
  · rintro ⟨hidle, hmarks⟩
    obtain ⟨-, hmem⟩ := hbefore hidle
    refine ⟨hidle ▸ hsaved, fun pkh hpkh => ?_⟩
    by_cases hcovers : Store.Covers ⟨wm', img.onDevice.disk⟩ pkh config.chain.level
    · obtain ⟨t, e, he, hle⟩ := hcovers
      rw [hmem pkh hpkh, new_mem hnew hpkh] at he
      exact ⟨t, e, he, .inr hle⟩
    · -- All marks were set to the level, so without the configuration they are at it already.
      have hraised := (hseeded pkh hpkh).2 hcovers .block
      rw [hmarks pkh hpkh, new_mem hnew hpkh] at hraised
      exact ⟨.block, _, hraised, .inr (UInt32.le_refl _)⟩
  · rintro ⟨hredundant, hmarks⟩
    have hidle : readChainInfo files = readChainInfo img.onDevice.files :=
      hsaved.trans hredundant.symm
    obtain ⟨-, hmem⟩ := hbefore hidle
    refine ⟨hidle, fun pkh hpkh t => ?_⟩
    have hcovers : Store.Covers ⟨wm', img.onDevice.disk⟩ pkh config.chain.level := by
      obtain ⟨t', e, he, hlisted⟩ := hmarks pkh hpkh
      refine ⟨t', e, ?_, ?_⟩
      · rw [hmem pkh hpkh, new_mem hnew hpkh, he]
      · rcases hlisted with hlisted | hle
        · exact hlevel ▸ superseded_reload hsuperseded hlisted he
        · exact hle
    rw [(hseeded pkh hpkh).1 hcovers t, hmem pkh hpkh]

end

/-! ### Two cards with a configuration -/

section

attribute [local instance] plainBlake3 plainBase58 plainJson plainJson_lawful

/-- A configuration at half the level of the records. -/
def stagedConfig : WatermarkConfig := ⟨"now", ⟨testChain.toB58check, 1000, "test", 100⟩⟩

/-- A card of records with the configuration on it. -/
def stagedCard (record : List UInt8) : CardImage :=
  { recordCard record with boot := some stagedConfig.bytes }

/-- What the check reads of it. -/
def stagedState : CardState :=
  { CardState.ofLevel testChain.toB58check (testKey 0).toB58check (testKey 1).toB58check 2000 with
    bootConfig := some ⟨testChain.toB58check, 1000⟩ }

/-- A configuration on a card is seen with the rest of it. -/
theorem gatherCardState_boot [Blake3] [JsonText] (m : Mounts) (img : CardImage)
    (boot : Option (List UInt8)) : gatherCardState m { img with boot } =
      { gatherCardState m img with bootConfig := gatherBootConfig m { img with boot } } := by
  unfold gatherCardState
  split_ifs <;> rfl

/-- What the host gathers of the card of the examples. -/
theorem gatherCardState_stagedCard {record : List UInt8}
    (hrecord : decodeWatermarkPrefix record = .valid 2000) :
    gatherCardState .all (stagedCard record) = stagedState := by
  have hconfig : gatherBootConfig .all (stagedCard record) =
      some ⟨testChain.toB58check, 1000⟩ := by
    have hboot : (stagedCard record).boot = some (asBytes (JsonText.pretty stagedConfig.toJson)) :=
      rfl
    rw [gatherBootConfig, hboot, Option.bind_some, fromUtf8_asBytes, Option.bind_some,
      JsonText.decode_pretty _ stagedConfig.writable stagedConfig.ofJson_toJson]
    rfl
  rw [stagedCard, gatherCardState_boot, gatherCardState_recordCard hrecord, ← stagedCard, hconfig]
  rfl

/-- There the staged configuration is superseded, and its removal planned. -/
theorem stagedState_superseded :
    bootConfigSuperseded stagedState recordNode.id ⟨testChain.toB58check, 1000⟩ = true ∧
      .deleteBootConfig ∈ planRepairs (classify stagedState (some recordNode)) := by
  decide +kernel

/-- The device takes the staged configuration in. -/
theorem consume_stagedCard (record : List UInt8) :
    ∃ io' files, (WatermarkSetup.consumeConfig stagedConfig.chain.onDevice).run []
      (stagedCard record).onDevice.files = (some stagedConfig.chain.onDevice.configured, io', files) :=
  ⟨_, _, rfl⟩

/-- The device finds no directory it cannot load. -/
theorem new_stagedCard (record : List UInt8) (chain : ChainId) :
    ∃ wm, HighWatermark.new .quiet (stagedCard record).onDevice.disk recordKeys.pkhs
      recordKeys.macKeys chain = .ok wm :=
  ⟨_, rfl⟩

/-- The staged configuration is read as it was staged. -/
theorem parse_stagedConfig : SerdeJson.parseConfig (JsonText.pretty stagedConfig.toJson) =
    .ok stagedConfig.chain.onDevice :=
  JsonText.decode_pretty _ stagedConfig.writable stagedConfig.ofJson_device

/-- A device that takes the superseded configuration in does not change. -/
theorem superseded_idle_record : ∃ wm wm' io' files,
    HighWatermark.new .quiet (stagedCard chainRecord).onDevice.disk recordKeys.pkhs
      recordKeys.macKeys (provisionedChain (stagedCard chainRecord).onDevice.files) = .ok wm ∧
    (WatermarkSetup.consumeConfig stagedConfig.chain.onDevice).run []
      (stagedCard chainRecord).onDevice.files =
        (some stagedConfig.chain.onDevice.configured, io', files) ∧
    HighWatermark.new .quiet (stagedCard chainRecord).onDevice.disk recordKeys.pkhs
      recordKeys.macKeys (provisionedChain files) = .ok wm' ∧
    Idle (stagedCard chainRecord) recordKeys files wm (StagedFloor.seedKeys StagedFloor.SeedIo.quiet
      (provisionedChain files) 1000 recordKeys.pkhs ⟨wm', (stagedCard chainRecord).onDevice.disk⟩) := by
  obtain ⟨wm, hnew⟩ := new_stagedCard chainRecord
    (provisionedChain (stagedCard chainRecord).onDevice.files)
  obtain ⟨io', files, hconsume⟩ := consume_stagedCard chainRecord
  obtain ⟨wm', hnew'⟩ := new_stagedCard chainRecord (provisionedChain files)
  have hgather : gatherCardState .all (stagedCard chainRecord) = stagedState :=
    gatherCardState_stagedCard (decodeWatermarkPrefix_authenticated (zeros 32)
      testChain.bytes.1 2000 0)
  refine ⟨wm, wm', io', files, hnew, hconsume, hnew', ?_⟩
  refine (superseded_idle_iff (m := .all) rfl (fromUtf8_asBytes _) parse_stagedConfig
    (by rw [hgather]; rfl) (by rw [hgather]; exact stagedState_superseded.1) hnew hconsume
    (fun _ => rfl) hnew').2 ⟨readChainInfo_recordCard chainRecord, fun pkh hpkh => ?_⟩
  have hchain : provisionedChain (stagedCard chainRecord).onDevice.files = testChain :=
    provisionedChain_recordCard chainRecord
  refine ⟨.block, ⟨2000, 0⟩, ?_, .inr (by decide)⟩
  rw [hchain]
  exact loadEntryAuthenticated_encode (zeros 32) testChain.bytes.1 ⟨2000, 0⟩

end

/-- A configuration is judged superseded by records that the device does not load, and would have
been the only floor. -/
theorem superseded_legacy : ¬∀ [Blake3] [Base58] [JsonText] [LawfulJsonText] (m : Mounts)
    (img : CardImage) (node : ChainInfo) (config : WatermarkSetup.WatermarkConfig)
    (raw : List UInt8) (content : String) (bc : BootConfigState) (held : HeldKeys)
    (loadIo : LoadIo) (wm : HighWatermark) (io io' : List Answer)
    (files : Files WatermarkSetup.SetupPath) (seedIo : SeedIo) (wm' : HighWatermark),
    img.boot = some raw → fromUtf8 raw = some content →
    SerdeJson.parseConfig content = .ok config → (gatherCardState m img).bootConfig = some bc →
    bootConfigSuperseded (gatherCardState m img) node.id bc = true →
    .deleteBootConfig ∈ planRepairs (classify (gatherCardState m img) (some node)) →
    HighWatermark.new loadIo img.onDevice.disk held.pkhs held.macKeys
      (provisionedChain img.onDevice.files) = .ok wm →
    (WatermarkSetup.consumeConfig config).run io img.onDevice.files =
      (some config.configured, io', files) →
    (∀ pkh, seedIo.fault pkh = none) →
    HighWatermark.new seedIo.load img.onDevice.disk held.pkhs held.macKeys
      (provisionedChain files) = .ok wm' →
    Idle img held files wm (StagedFloor.seedKeys seedIo (provisionedChain files)
      config.chain.level held.pkhs ⟨wm', img.onDevice.disk⟩) := by
  intro hall
  let _ := plainBlake3
  let _ := plainBase58
  let _ := plainJson
  let _ := plainJson_lawful
  obtain ⟨record, hrecord⟩ : ∃ record, record = (Watermark.encode 2000 0).1 := ⟨_, rfl⟩
  obtain ⟨wm, hnew⟩ := new_stagedCard record (provisionedChain (stagedCard record).onDevice.files)
  obtain ⟨io', files, hconsume⟩ := consume_stagedCard record
  obtain ⟨wm', hnew'⟩ := new_stagedCard record (provisionedChain files)
  have hgather : gatherCardState .all (stagedCard record) = stagedState :=
    gatherCardState_stagedCard (hrecord ▸ decodeWatermarkPrefix_legacy 2000 0)
  have hbc : (gatherCardState .all (stagedCard record)).bootConfig =
      some ⟨testChain.toB58check, 1000⟩ := by
    rw [hgather]
    rfl
  have hsuperseded : bootConfigSuperseded (gatherCardState .all (stagedCard record)) recordNode.id
      ⟨testChain.toB58check, 1000⟩ = true := by
    rw [hgather]
    exact stagedState_superseded.1
  have hidle := hall .all (stagedCard record) recordNode stagedConfig.chain.onDevice _ _ _
    recordKeys .quiet wm [] io' files StagedFloor.SeedIo.quiet wm' rfl (fromUtf8_asBytes _)
    parse_stagedConfig hbc hsuperseded (by rw [hgather]; exact stagedState_superseded.2) hnew hconsume (fun _ => rfl) hnew'
  obtain ⟨-, hmarks⟩ := (superseded_idle_iff rfl (fromUtf8_asBytes _) parse_stagedConfig hbc
    hsuperseded hnew hconsume (fun _ => rfl) hnew').1 hidle
  obtain ⟨t, e, he, -⟩ := hmarks (testKey 0) (List.mem_singleton_self _)
  obtain ⟨macKey, -, hload⟩ := Option.bind_eq_some_iff.1 he
  have hlen := congrArg List.length (loadEntryAuthenticated_some hload)
  rw [(Watermark.encodeAuthenticated ..).2] at hlen
  have hfile : (stagedCard record).onDevice.disk.files (testKey 0) t = record := rfl
  rw [hfile, hrecord] at hlen
  exact absurd ((Watermark.encode 2000 0).2.symm.trans hlen) (by decide)

end Host

end Russignol
