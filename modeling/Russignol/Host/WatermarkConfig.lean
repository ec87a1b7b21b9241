import Russignol.Base.Json
import Russignol.Rpi.WatermarkSetup

/-!
# The staged configuration, on the host

`host-utility/src/watermark.rs`: the host asks a node for its chain (`prefetchChainInfo`), writes the
reply to the boot partition (`writeWatermarkConfig`) and reads it back (`readBackAndVerify`). Both
sides describe the file by a structure of their own and read it with `serde_json`: a structure is
written as an object, and read by the names of its fields. The two readers of the device
(`WatermarkSetup`) are instances of the same crate (`serdeJson`).

The two sides agree on the fields but not on what a valid chain is: `staged_config_accepted_iff`.
-/

namespace Russignol

open CrashProgram FileStore Crypto

/-! ## The readers of the device -/

/-- The chain of a configuration: `Deserialize`. -/
def WatermarkSetup.ChainInfo.ofJson (j : Json) : Option WatermarkSetup.ChainInfo := do
  let field ← j.record ["id", "level", "name", "blocks_per_cycle"]
  let id ← Json.strField field "id"
  let level ← Json.u32Field field "level"
  let name ← Json.strField field "name"
  let blocksPerCycle ← Json.u32Field field "blocks_per_cycle"
  some { id, level, name, blocksPerCycle }

/-- The configuration: `Deserialize`. A field that is not named is passed over. -/
def WatermarkSetup.WatermarkConfig.ofJson (j : Json) : Option WatermarkSetup.WatermarkConfig := do
  let field ← j.record ["chain"]
  let chain ← (field "chain").bind WatermarkSetup.ChainInfo.ofJson
  some { chain }

/-- `Option<u32>`, with a default. -/
def optionalU32 : Option Json → Option (Option UInt32)
  | none | some .null => some none
  | some j => j.asU32.map some

/-- `chain_info.json`: `Deserialize`. -/
def ChainInfo.ofJson (j : Json) : Option ChainInfo := do
  let field ← j.record ["id", "name", "blocks_per_cycle"]
  let id ← Json.strField field "id"
  let name ← Json.strField field "name"
  let blocksPerCycle ← optionalU32 (field "blocks_per_cycle")
  some { id, name, blocksPerCycle }

/-- The object of `save_chain_info`. A table is written in the order of its names. -/
def ChainInfo.toJson (id name : String) (blocksPerCycle : UInt32) : Json :=
  .obj [("blocks_per_cycle", .num blocksPerCycle.toNat), ("id", .str id), ("name", .str name)]

/-- The names of its fields. -/
theorem ChainInfo.nodup_names : List.Nodup ["blocks_per_cycle", "id", "name"] := by decide

/-- The two files of the device, by the crate. -/
instance serdeJson [JsonText] : SerdeJson where
  parseConfig := JsonText.decode "struct WatermarkConfig" WatermarkSetup.WatermarkConfig.ofJson
  parseChainInfo := JsonText.decode "struct ChainInfo" ChainInfo.ofJson
  chainInfoPretty id name blocksPerCycle := JsonText.pretty (ChainInfo.toJson id name blocksPerCycle)

theorem ChainInfo.ofJson_toJson (id name : String) (blocksPerCycle : UInt32) :
    ChainInfo.ofJson (ChainInfo.toJson id name blocksPerCycle) =
      some ⟨id, name, some blocksPerCycle⟩ := by
  obtain ⟨field, hrecord, hid, hname, hcycle⟩ : ∃ field,
      (ChainInfo.toJson id name blocksPerCycle).record ["id", "name", "blocks_per_cycle"] =
        some field ∧ field "id" = some (.str id) ∧ field "name" = some (.str name) ∧
      field "blocks_per_cycle" = some (.num blocksPerCycle.toNat) :=
    ⟨_, Json.record_obj _ ChainInfo.nodup_names, rfl, rfl, rfl⟩
  simp only [ChainInfo.ofJson, hrecord, Option.bind_eq_bind, Option.bind_some,
    Json.strField_of hid, Json.strField_of hname, hcycle, optionalU32, Json.asU32_num,
    Option.map_some]

instance serdeJson_lawful [JsonText] [LawfulJsonText] : LawfulSerdeJson where
  parse_pretty id name blocksPerCycle := by
    refine JsonText.decode_pretty _ (Json.writable_obj ChainInfo.nodup_names ?_)
      (ChainInfo.ofJson_toJson id name blocksPerCycle)
    simp only [List.map_cons, List.map_nil, List.all_cons, List.all_nil, Json.writable_u32,
      Json.writable_str, Bool.and_self]

namespace Host

open WatermarkSetup (SetupPath Anything)

/-! ## What the host writes -/

/-- `ChainInfo`. -/
structure ChainInfo where
  id : String
  level : UInt32
  name : String
  blocksPerCycle : UInt32
  deriving DecidableEq, Repr

/-- `WatermarkConfig`. -/
structure WatermarkConfig where
  created : String
  chain : ChainInfo
  deriving DecidableEq, Repr

/-- `Serialize`. -/
def ChainInfo.toJson (c : ChainInfo) : Json :=
  .obj [("id", .str c.id), ("level", .num c.level.toNat), ("name", .str c.name),
    ("blocks_per_cycle", .num c.blocksPerCycle.toNat)]

/-- `Serialize`. -/
def WatermarkConfig.toJson (c : WatermarkConfig) : Json :=
  .obj [("created", .str c.created), ("chain", c.chain.toJson)]

/-- `Deserialize`. -/
def ChainInfo.ofJson (j : Json) : Option ChainInfo := do
  let field ← j.record ["id", "level", "name", "blocks_per_cycle"]
  let id ← Json.strField field "id"
  let level ← Json.u32Field field "level"
  let name ← Json.strField field "name"
  let blocksPerCycle ← Json.u32Field field "blocks_per_cycle"
  some { id, level, name, blocksPerCycle }

/-- `Deserialize`. -/
def WatermarkConfig.ofJson (j : Json) : Option WatermarkConfig := do
  let field ← j.record ["created", "chain"]
  let created ← Json.strField field "created"
  let chain ← (field "chain").bind ChainInfo.ofJson
  some { created, chain }

/-- A chain as the device reads it. -/
def ChainInfo.onDevice (c : ChainInfo) : WatermarkSetup.WatermarkConfig :=
  ⟨⟨c.id, c.level, c.name, c.blocksPerCycle⟩⟩

/-- The names of the fields of a chain. -/
theorem ChainInfo.nodup_names : List.Nodup ["id", "level", "name", "blocks_per_cycle"] := by decide

/-- The names of the fields of a configuration. -/
theorem WatermarkConfig.nodup_names : List.Nodup ["created", "chain"] := by decide

theorem WatermarkConfig.writable (c : WatermarkConfig) : c.toJson.writable 127 = true := by
  have hchain : c.chain.toJson.writable 126 = true := by
    refine Json.writable_obj ChainInfo.nodup_names ?_
    simp only [List.map_cons, List.map_nil, List.all_cons, List.all_nil, Json.writable_u32,
      Json.writable_str, Bool.and_self]
  refine Json.writable_obj nodup_names ?_
  simp only [List.map_cons, List.map_nil, List.all_cons, List.all_nil, Json.writable_str, hchain,
    Bool.and_self]

/-- The fields of a written chain. -/
theorem ChainInfo.fields (c : ChainInfo) : ∃ field,
    c.toJson.record ["id", "level", "name", "blocks_per_cycle"] = some field ∧
      field "id" = some (.str c.id) ∧ field "level" = some (.num c.level.toNat) ∧
      field "name" = some (.str c.name) ∧
      field "blocks_per_cycle" = some (.num c.blocksPerCycle.toNat) :=
  ⟨_, Json.record_obj _ nodup_names, rfl, rfl, rfl, rfl⟩

/-- The host reads back what it wrote. -/
theorem WatermarkConfig.ofJson_toJson (c : WatermarkConfig) : ofJson c.toJson = some c := by
  obtain ⟨field, hrecord, hid, hlevel, hname, hcycle⟩ := c.chain.fields
  have hchain : ChainInfo.ofJson c.chain.toJson = some c.chain := by
    simp only [ChainInfo.ofJson, hrecord, Option.bind_eq_bind, Option.bind_some,
      Json.strField_of hid, Json.u32Field_of hlevel, Json.strField_of hname,
      Json.u32Field_of hcycle]
  obtain ⟨field', hrecord', hcreated, hfield⟩ : ∃ field,
      c.toJson.record ["created", "chain"] = some field ∧
        field "created" = some (.str c.created) ∧ field "chain" = some c.chain.toJson :=
    ⟨_, Json.record_obj _ nodup_names, rfl, rfl⟩
  simp only [ofJson, hrecord', Option.bind_eq_bind, Option.bind_some, Json.strField_of hcreated,
    hfield, hchain]

/-- The device reads the chain the host wrote. -/
theorem WatermarkConfig.ofJson_device (c : WatermarkConfig) :
    WatermarkSetup.WatermarkConfig.ofJson c.toJson = some c.chain.onDevice := by
  obtain ⟨field, hrecord, hid, hlevel, hname, hcycle⟩ := c.chain.fields
  have hchain : WatermarkSetup.ChainInfo.ofJson c.chain.toJson = some c.chain.onDevice.chain := by
    simp only [WatermarkSetup.ChainInfo.ofJson, hrecord, Option.bind_eq_bind, Option.bind_some,
      Json.strField_of hid, Json.u32Field_of hlevel, Json.strField_of hname,
      Json.u32Field_of hcycle, ChainInfo.onDevice]
  obtain ⟨field', hrecord', hfield⟩ : ∃ field,
      c.toJson.record ["chain"] = some field ∧ field "chain" = some c.chain.toJson :=
    ⟨_, Json.record_obj _ nodup_names, rfl⟩
  simp only [WatermarkSetup.WatermarkConfig.ofJson, hrecord', Option.bind_eq_bind,
    Option.bind_some, hfield, hchain]

/-! ## The node -/

/-- `PublicNetwork`, the fields a lookup reads. -/
structure PublicNetwork where
  humanName : String
  chainName : String
  deriving DecidableEq, Repr

/-- What the node and the network registry answer. -/
structure NodeReply where
  /-- `verify_octez_node`. -/
  verified : Except String Unit
  /-- The header of the head. -/
  header : Except String Json
  /-- The constants of the protocol. -/
  constants : Except String Json
  /-- The reply to `/version`. -/
  version : Except String Json
  /-- `fetch_public_networks`. -/
  networks : List PublicNetwork

/-- `BlockHeader`. -/
structure BlockHeader where
  chainId : String
  level : UInt32
  deriving DecidableEq, Repr

/-- `Deserialize`. -/
def BlockHeader.ofJson (j : Json) : Option BlockHeader := do
  let field ← j.valueRecord ["chain_id", "level"]
  let chainId ← Json.strField field "chain_id"
  let level ← Json.u32Field field "level"
  some { chainId, level }

/-- `str::parse::<i64>`. -/
def parseI64 (s : String) : Option Int :=
  let (negative, digits) :=
    match s.toList with
    | '-' :: digits => (true, digits)
    | '+' :: digits => (false, digits)
    | digits => (false, digits)
  if digits = [] ∨ ¬digits.all Char.isDigit then none
  else
    let n : Int := Nat.ofDigitChars 10 digits 0
    (Json.num (if negative then -n else n)).asI64

/-- `JsonValueExt::get_i64`: a number, or the text of one. -/
def getI64 (j : Json) (key : String) : Option Int :=
  (j.get key).bind fun v => v.asI64.or (v.asStr.bind parseI64)

/-- `MAINNET_CHAIN_NAME`. -/
def mainnetChainName : String := "TEZOS_MAINNET"

/-- `human_name_for_chain`. -/
def humanNameForChain (chainName : String) (networks : List PublicNetwork) : Option String :=
  if chainName = "" then none
  else (networks.find? (·.chainName = chainName)).map (·.humanName)

/-- `fetch_chain_name`. -/
def NodeReply.chainName (r : NodeReply) : Option String := do
  let version ← r.version.toOption
  let field ← version.valueRecord ["network_version"]
  let networkVersion ← field "network_version"
  let field ← networkVersion.valueRecord ["chain_name"]
  Json.strField field "chain_name"

/-- `lookup_human_name`. -/
def NodeReply.humanName (r : NodeReply) : Option String :=
  r.chainName.bind fun chainName =>
    if chainName = mainnetChainName then some "Mainnet" else humanNameForChain chainName r.networks

/-- `resolve_chain_name`. -/
def resolveChainName (chainId : String) (humanName : Option String) : String :=
  humanName.getD chainId

section

variable [JsonText]

/-- `fetch_block_header`. -/
def fetchBlockHeader (rpcEndpoint : String) (r : NodeReply) : Except String BlockHeader :=
  match r.header with
  | .error _ => .error ("Failed to connect to node at " ++ rpcEndpoint)
  | .ok json =>
    match BlockHeader.ofJson json with
    | none => .error "Failed to parse block header JSON"
    | some header => .ok header

/-- `prefetch_chain_info`: an unusually high level is only warned of. -/
def prefetchChainInfo (rpcEndpoint : String) (r : NodeReply) : Except String ChainInfo :=
  match r.verified with
  | .error e => .error e
  | .ok () =>
    match fetchBlockHeader rpcEndpoint r with
    | .error e => .error ("Failed to fetch block header from " ++ rpcEndpoint ++ ": " ++ e)
    | .ok header =>
      if header.level = 0 then .error "Node returned level 0 - node may not be synced"
      else
        match r.constants.toOption.bind (getI64 · "blocks_per_cycle") with
        | none => .error "Failed to fetch blocks_per_cycle from node"
        | some n =>
          match (Json.num n).asU32 with
          | none => .error ("Invalid blocks_per_cycle value: " ++ toString n)
          | some blocksPerCycle =>
            .ok { id := header.chainId, level := header.level,
                  name := resolveChainName header.chainId r.humanName, blocksPerCycle }

/-! ## The file -/

/-- `write_watermark_config`, at a time. -/
def writeWatermarkConfig (created : String) (chain : ChainInfo) :
    Fs SetupPath (Except String Unit) := do
  match ← WatermarkSetup.call with
  | .error e => pure (.error e.text)
  | .ok _ =>
    match ← writeSync .config (asBytes (JsonText.pretty (WatermarkConfig.toJson ⟨created, chain⟩)))
        with
    | .error e =>
      let _ ← WatermarkSetup.call
      pure (.error ("Failed to write watermark-config.json: " ++ e.text))
    | .ok _ =>
      match ← WatermarkSetup.call with
      | .error e => pure (.error e.text)
      | .ok _ => pure (.ok ())

/-- The part of `read_watermark_config` between the mount and the unmount. -/
def readConfigFile : Fs SetupPath (Except String WatermarkConfig) := do
  match ← readFile .config with
  | .error _ => pure (.error "Failed to read watermark-config.json")
  | .ok raw =>
    match fromUtf8 raw with
    | none => pure (.error "Failed to read watermark-config.json")
    | some content =>
      match JsonText.decode "struct WatermarkConfig" WatermarkConfig.ofJson content with
      | .error _ => pure (.error "Failed to parse watermark config")
      | .ok config => pure (.ok config)

/-- `read_watermark_config`. -/
def readWatermarkConfig : Fs SetupPath (Except String WatermarkConfig) := do
  match ← WatermarkSetup.call with
  | .error e => pure (.error e.text)
  | .ok _ =>
    let result ← readConfigFile
    let _ ← WatermarkSetup.call
    pure result

/-- `read_back_and_verify`. -/
def readBackAndVerify : Fs SetupPath (Except String WatermarkConfig) := do
  match ← readWatermarkConfig with
  | .error _ => pure (.error "Failed to read back watermark config")
  | .ok written =>
    if written.chain.name = "" ∨ written.chain.id = "" then
      pure (.error ("Invalid chain info on the SD card (name '" ++ written.chain.name ++ "', id '" ++
        written.chain.id ++ "'); the watermark config is corrupted. Reflash the card or run " ++
        "'russignol check disk'."))
    else pure (.ok written)

/-! ## The two sides -/

/-- The bytes of the file. -/
def WatermarkConfig.bytes (c : WatermarkConfig) : List UInt8 := asBytes (JsonText.pretty c.toJson)

/-- The text of `write_chain_info`. -/
def chainInfoBytes (chain : ChainInfo) : List UInt8 :=
  asBytes (JsonText.pretty (Russignol.ChainInfo.toJson chain.id chain.name chain.blocksPerCycle))

/-- A configuration that was written is in the file. -/
theorem writeWatermarkConfig_ok {created : String} {chain : ChainInfo} {io io' : List Answer}
    {s s' : Files SetupPath}
    (h : (writeWatermarkConfig created chain).run io s = (some (.ok ()), io', s')) :
    s'.content .config = some (WatermarkConfig.bytes ⟨created, chain⟩) := by
  unfold writeWatermarkConfig at h
  obtain ⟨mounted, h⟩ := WatermarkSetup.run_call_bind h
  rcases mounted with e | _
  · cases h
  simp only at h
  rw [run_bind, writeSync, run_op] at h
  cases hio : next io.tail with
  | failed e left =>
    rw [hio] at h
    obtain ⟨unmounted, h⟩ := WatermarkSetup.run_call_bind h
    cases h
  | cut left =>
    rw [hio] at h
    cases h
  | ok =>
    rw [hio] at h
    obtain ⟨unmounted, h⟩ := WatermarkSetup.run_call_bind h
    rcases unmounted with e | _
    · cases h
    · cases h
      simp [Files.set, WatermarkConfig.bytes]

/-- Reading the file back changes nothing. -/
theorem readBackAndVerify_triple (content : Content SetupPath) :
    Triple Anything (fun s => s.content = content) readBackAndVerify
      (fun _ s => s.content = content) (fun s => s.content = content) := by
  have hread : Triple Anything (fun s : Files SetupPath => s.content = content)
      (readFile SetupPath.config) (fun _ s => s.content = content)
      (fun s => s.content = content) := by
    intro io s hio hs
    rw [Prog.run, readFile]
    cases s.content .config with
    | none => exact ⟨hio, hs⟩
    | some data => exact ⟨hio, hs⟩
  have hfile : Triple Anything (fun s => s.content = content) readConfigFile
      (fun _ s => s.content = content) (fun s => s.content = content) := by
    unfold readConfigFile
    refine hread.bind fun raw => ?_
    rcases raw with e | raw
    · exact Triple.pure fun _ => id
    · dsimp only
      split
      · exact Triple.pure fun _ => id
      · split <;> exact Triple.pure fun _ => id
  have hconfig : Triple Anything (fun s => s.content = content) readWatermarkConfig
      (fun _ s => s.content = content) (fun s => s.content = content) := by
    unfold readWatermarkConfig
    refine (WatermarkSetup.call_triple _).bind fun mounted => ?_
    rcases mounted with e | _
    · exact Triple.pure fun _ => id
    · exact hfile.bind fun result =>
        (WatermarkSetup.call_triple _).bind fun _ => Triple.pure fun _ => id
  unfold readBackAndVerify
  refine hconfig.bind fun result => ?_
  rcases result with e | written
  · exact Triple.pure fun _ => id
  · dsimp only
    split <;> exact Triple.pure fun _ => id

variable [LawfulJsonText]

/-- Reading back what was written. -/
theorem readBackAndVerify_written {c : WatermarkConfig} {s : Files SetupPath}
    (hfile : s.content .config = some c.bytes) (hname : c.chain.name ≠ "") (hid : c.chain.id ≠ "") :
    readBackAndVerify.run [] s = (some (.ok c), [], s.noteRead .config c.bytes) := by
  have hparse := JsonText.decode_pretty "struct WatermarkConfig" c.writable c.ofJson_toJson
  have hcall : ∀ s : Files SetupPath,
      WatermarkSetup.call.run [] s = (some (.ok ()), [], s) := fun _ => rfl
  have hconfig : readWatermarkConfig.run [] s =
      (some (.ok c), [], s.noteRead .config c.bytes) := by
    rw [readWatermarkConfig, run_bind_of_some (hcall s)]
    simp only
    have hread : readConfigFile.run [] s = (some (.ok c), [], s.noteRead .config c.bytes) := by
      rw [readConfigFile, run_bind_of_some (run_readFile hfile [])]
      simp only [WatermarkConfig.bytes, fromUtf8_asBytes, hparse]
      rfl
    rw [run_bind_of_some hread]
    rfl
  rw [readBackAndVerify, run_bind_of_some hconfig]
  simp only [hname, hid, or_self, if_false]
  rfl

/-- The device reads a file with a written configuration, and validates it. -/
theorem readAndValidateConfig_written {c : WatermarkConfig} {s : Files SetupPath}
    (hfile : s.content .config = some c.bytes) (io : List Answer) :
    (WatermarkSetup.readAndValidateConfig.run io s).1 =
      some (match WatermarkSetup.validateConfig c.chain.onDevice with
        | .ok () => .ok c.chain.onDevice
        | .error e => .error (.error e)) := by
  have hparse : SerdeJson.parseConfig (JsonText.pretty c.toJson) = .ok c.chain.onDevice :=
    JsonText.decode_pretty "struct WatermarkConfig" c.writable c.ofJson_device
  rw [WatermarkSetup.readAndValidateConfig, run_bind_of_some (run_pathExists _ io s), hfile]
  simp only [Option.isSome_some, if_true]
  rw [run_bind_of_some (run_readFile hfile io)]
  simp only [WatermarkConfig.bytes, fromUtf8_asBytes, hparse]
  cases WatermarkSetup.validateConfig c.chain.onDevice with
  | ok u => rfl
  | error e => rfl

omit [LawfulJsonText] [JsonText] in
/-- A chain that was fetched is the head's. -/
theorem prefetchChainInfo_ok {rpcEndpoint : String} {reply : NodeReply} {chain : ChainInfo}
    (h : prefetchChainInfo rpcEndpoint reply = .ok chain) :
    ∃ header, fetchBlockHeader rpcEndpoint reply = .ok header ∧ chain.id = header.chainId ∧
      chain.level = header.level ∧ header.level ≠ 0 := by
  unfold prefetchChainInfo at h
  split at h
  · cases h
  split at h
  · cases h
  rename_i header hheader
  split_ifs at h with hlevel
  split at h
  · cases h
  split at h
  · cases h
  cases h
  exact ⟨header, hheader, rfl, rfl, hlevel⟩

/-- **The device accepts what the host stages exactly when the head's chain id starts with its
prefix and its level is within the device's bound**, a tenth of the one the host warns at. -/
theorem staged_config_accepted_iff {rpcEndpoint : String} {reply : NodeReply} {chain : ChainInfo}
    (hprefetch : prefetchChainInfo rpcEndpoint reply = .ok chain) {created : String}
    {io io' io'' : List Answer} {s s' s'' : Files SetupPath}
    (hwrite : (writeWatermarkConfig created chain).run io s = (some (.ok ()), io', s'))
    {written : WatermarkConfig}
    (hverify : readBackAndVerify.run io' s' = (some (.ok written), io'', s'')) :
    (∀ answers, (WatermarkSetup.readAndValidateConfig.run answers s'').1 =
      some (.ok chain.onDevice)) ↔
    ∃ header, fetchBlockHeader rpcEndpoint reply = .ok header ∧
      header.chainId.toList.take 3 = ['N', 'e', 't'] ∧ header.level ≤ 100000000 := by
  obtain ⟨header, hheader, hid, hlevel, hpositive⟩ := prefetchChainInfo_ok hprefetch
  have hkept : s''.content = s'.content := by
    have hrun := readBackAndVerify_triple s'.content io' s' (fun _ _ => trivial) rfl
    rw [hverify] at hrun
    exact hrun.2
  have hfile : s''.content .config = some (WatermarkConfig.bytes ⟨created, chain⟩) := by
    rw [hkept, writeWatermarkConfig_ok hwrite]
  have hdevice : ∀ answers, (WatermarkSetup.readAndValidateConfig.run answers s'').1 =
      some (match WatermarkSetup.validateConfig chain.onDevice with
        | .ok () => .ok chain.onDevice
        | .error e => .error (.error e)) :=
    fun answers => readAndValidateConfig_written (c := ⟨created, chain⟩) hfile answers
  have hvalid : WatermarkSetup.validateConfig chain.onDevice = .ok () ↔
      header.chainId.toList.take 3 = ['N', 'e', 't'] ∧ header.level ≤ 100000000 := by
    simp only [WatermarkSetup.validateConfig, ChainInfo.onDevice, hid, hlevel]
    split_ifs with hprefix hhigh
    · exact iff_of_false nofun fun h => hprefix h.1
    · exact iff_of_false nofun fun h => UInt32.not_lt.2 h.2 hhigh
    · exact iff_of_true rfl ⟨not_not.1 hprefix, UInt32.not_lt.1 hhigh⟩
  constructor
  · intro h
    have haccepted := (h []).symm.trans (hdevice [])
    refine ⟨header, hheader, hvalid.1 ?_⟩
    cases hv : WatermarkSetup.validateConfig chain.onDevice with
    | ok u => rfl
    | error e =>
      rw [hv] at haccepted
      cases haccepted
  · rintro ⟨header', hheader', hbounds⟩ answers
    cases hheader.symm.trans hheader'
    rw [hdevice, hvalid.2 hbounds]

end

/-! ### Two nodes -/

/-- The reply of a node of the main chain at a level. -/
def mainnetReply (level : UInt32) : NodeReply where
  verified := .ok ()
  header := .ok (.obj [("chain_id", .str "NetXdQprcVkpaWU"), ("level", .num level.toNat)])
  constants := .ok (.obj [("blocks_per_cycle", .num 10800)])
  version := .ok (.obj [("network_version", .obj [("chain_name", .str "TEZOS_MAINNET")])])
  networks := []

/-- The chain it is. -/
def mainnetChain (level : UInt32) : ChainInfo := ⟨"NetXdQprcVkpaWU", level, "Mainnet", 10800⟩

section

attribute [local instance] plainJson plainJson_lawful

/-- The boot partition with the configuration of a node of the main chain. -/
def stagedFile (level : UInt32) : Files SetupPath :=
  Files.set ⟨fun _ => none, []⟩ .config (some (WatermarkConfig.bytes ⟨"now", mainnetChain level⟩))

/-- Staging the configuration of the main chain. -/
theorem staged_mainnet {level : UInt32} (hlevel : level ≠ 0) :
    prefetchChainInfo "" (mainnetReply level) = .ok (mainnetChain level) ∧
      (writeWatermarkConfig "now" (mainnetChain level)).run [] ⟨fun _ => none, []⟩ =
        (some (.ok ()), [], stagedFile level) ∧
      readBackAndVerify.run [] (stagedFile level) =
        (some (.ok ⟨"now", mainnetChain level⟩), [], (stagedFile level).noteRead .config
          (WatermarkConfig.bytes ⟨"now", mainnetChain level⟩)) := by
  refine ⟨?_, rfl, readBackAndVerify_written ?_ (by decide : "Mainnet" ≠ "")
    (by decide : "NetXdQprcVkpaWU" ≠ "")⟩
  · have hheader : fetchBlockHeader "" (mainnetReply level) = .ok ⟨"NetXdQprcVkpaWU", level⟩ := by
      obtain ⟨json, hjson, field, hfield, hid, hlevel⟩ : ∃ json,
          (mainnetReply level).header = .ok json ∧ ∃ field, json.valueRecord ["chain_id", "level"] = some field ∧
            field "chain_id" = some (.str "NetXdQprcVkpaWU") ∧
            field "level" = some (.num level.toNat) := ⟨_, rfl, _, rfl, rfl, rfl⟩
      simp only [fetchBlockHeader, hjson, BlockHeader.ofJson, hfield, Option.bind_eq_bind,
        Option.bind_some, Json.strField_of hid, Json.u32Field_of hlevel]
    have hcycle : (mainnetReply level).constants.toOption.bind (getI64 · "blocks_per_cycle") =
        some 10800 := rfl
    have hword : (Json.num 10800).asU32 = some 10800 := by decide
    have hname : (mainnetReply level).humanName = some "Mainnet" := rfl
    have hverified : (mainnetReply level).verified = .ok () := rfl
    simp only [prefetchChainInfo, hverified, hheader, if_neg hlevel, hcycle, hword, hname,
      resolveChainName, Option.getD_some, mainnetChain]
  · simp [stagedFile, Files.set]

theorem staged_config_accepted_mainnet : (WatermarkSetup.readAndValidateConfig.run []
    ((stagedFile 8000000).noteRead .config
      (WatermarkConfig.bytes ⟨"now", mainnetChain 8000000⟩))).1 =
        some (.ok (mainnetChain 8000000).onDevice) :=
  have ⟨hprefetch, hwrite, hverify⟩ := staged_mainnet (by decide : (8000000 : UInt32) ≠ 0)
  (staged_config_accepted_iff hprefetch hwrite hverify).2 ⟨_, rfl, by decide, by decide⟩ []

end

/-- A level between the two bounds is staged and verified, and refused by the device. -/
theorem staged_config_refused : ¬∀ [JsonText] [LawfulJsonText] (rpcEndpoint : String)
    (reply : NodeReply) (chain : ChainInfo) (created : String) (io io' io'' : List Answer)
    (s s' s'' : Files SetupPath) (written : WatermarkConfig),
    prefetchChainInfo rpcEndpoint reply = .ok chain →
    (writeWatermarkConfig created chain).run io s = (some (.ok ()), io', s') →
    readBackAndVerify.run io' s' = (some (.ok written), io'', s'') →
    ∀ answers, (WatermarkSetup.readAndValidateConfig.run answers s'').1 =
      some (.ok chain.onDevice) := by
  intro hall
  have ⟨hprefetch, hwrite, hverify⟩ := staged_mainnet (by decide : (200000000 : UInt32) ≠ 0)
  have haccepted := @hall plainJson plainJson_lawful _ _ _ _ _ _ _ _ _ _ _ hprefetch hwrite hverify
  obtain ⟨header, hheader, -, hlevel⟩ := (@staged_config_accepted_iff plainJson plainJson_lawful
    _ _ _ hprefetch _ _ _ _ _ _ _ hwrite _ hverify).1 haccepted
  cases hheader
  exact absurd hlevel (by decide)

end Host

end Russignol
