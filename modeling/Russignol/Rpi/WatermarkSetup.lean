import Russignol.Crypto.Blob
import Russignol.Base.FileStore
import Russignol.Signer.Gate
import Russignol.Signer.ChainCodec
import Russignol.Rpi.TezosEncrypt

/-!
# The staged configuration

`rpi-signer/src/watermark_setup.rs` and `chain_info.rs`: the host stages a chain and a level on the
boot partition, and the device consumes them once. The chain is written to `chain_info.json` on the
keys partition, the level is handed on in memory, the file is deleted.

The two files are a `FileStore`, so every operation may fail or lose power. Mounting, and setting
an owner or a mode, change no content. Reading and writing JSON is a crate's (`SerdeJson`), and
`LawfulSerdeJson` says that the chain it wrote is read back.

An id is accepted by its first three letters (`validateConfig`) and decoded, after the unlock, as
base58check (`provisionedChain`); `accepted_config_signs` says which accepted configurations the
signer can sign under.
-/

namespace Russignol

open CrashProgram FileStore Crypto

namespace WatermarkSetup

/-- `ChainInfo` of the configuration. -/
structure ChainInfo where
  id : String
  level : UInt32
  name : String
  blocksPerCycle : UInt32
  deriving DecidableEq, Repr

/-- `WatermarkConfig`. -/
structure WatermarkConfig where
  chain : ChainInfo
  deriving DecidableEq, Repr

end WatermarkSetup

/-- `ChainInfo` of `chain_info.json`. -/
structure ChainInfo where
  id : String
  name : String
  blocksPerCycle : Option UInt32
  deriving DecidableEq, Repr

open WatermarkSetup in
/-- The `serde_json` crate, on the two files. -/
class SerdeJson where
  /-- `from_str::<WatermarkConfig>`. -/
  parseConfig : String → Except String WatermarkConfig
  /-- `from_str::<ChainInfo>`. -/
  parseChainInfo : String → Except String ChainInfo
  /-- `to_string_pretty` of an object of an id, a name and the blocks per cycle. -/
  chainInfoPretty : (id name : String) → (blocksPerCycle : UInt32) → String

/-- What is written is read back. -/
class LawfulSerdeJson [SerdeJson] : Prop where
  parse_pretty : ∀ id name blocksPerCycle,
    SerdeJson.parseChainInfo (SerdeJson.chainInfoPretty id name blocksPerCycle) =
      .ok ⟨id, name, some blocksPerCycle⟩

namespace WatermarkSetup

/-- `WatermarkResult`. -/
inductive WatermarkResult
  | configured (chainName : String) (level : UInt32)
  | notFound
  | error (text : String)
  deriving DecidableEq, Repr

/-- The two files: `watermark-config.json` and `CHAIN_INFO_FILE`. -/
inductive SetupPath
  | config
  | chainInfo
  deriving DecidableEq, Repr

/-- `configured`. -/
def WatermarkConfig.configured (config : WatermarkConfig) : WatermarkResult :=
  .configured config.chain.name config.chain.level

/-- `validate_config`. -/
def validateConfig (config : WatermarkConfig) : Except String Unit :=
  if config.chain.id.toList.take 3 ≠ ['N', 'e', 't'] then
    .error "Invalid chain ID format (must start with 'Net')"
  else if config.chain.level = 0 then .error "Level cannot be 0"
  else if config.chain.level > 100000000 then
    .error ("Level suspiciously high (" ++ toString config.chain.level ++ ")")
  else .ok ()

/-- A call that changes no content: a mount, a change of owner or of mode. -/
def call : Fs SetupPath (Except FileStore.IoError Unit) := op fun a s => a.take s s

section

variable [SerdeJson]

/-- `read_and_validate_config`. -/
def readAndValidateConfig : Fs SetupPath (Except WatermarkResult WatermarkConfig) := do
  if ← pathExists .config then
    match ← readFile .config with
    | .error e => pure (.error (.error ("Failed to read config: " ++ e.text)))
    | .ok raw =>
      match fromUtf8 raw with
      | none =>
        pure (.error (.error "Failed to read config: stream did not contain valid UTF-8"))
      | some content =>
        match SerdeJson.parseConfig content with
        | .error e => pure (.error (.error ("Invalid JSON: " ++ e)))
        | .ok config =>
          match validateConfig config with
          | .error e => pure (.error (.error e))
          | .ok () => pure (.ok config)
  else pure (.error .notFound)

/-- `save_chain_info`. -/
def saveChainInfo (config : WatermarkConfig) : Fs SetupPath (Except String Unit) := do
  let json := SerdeJson.chainInfoPretty config.chain.id config.chain.name
    config.chain.blocksPerCycle
  match ← writeSync .chainInfo (asBytes json) with
  | .error e => pure (.error ("Failed to write chain info: " ++ e.text))
  | .ok _ =>
    match ← call with
    | .error e => pure (.error ("Failed to set chain info owner: " ++ e.text))
    | .ok _ =>
      match ← call with
      | .error e => pure (.error ("Failed to get chain info metadata: " ++ e.text))
      | .ok _ =>
        match ← call with
        | .error e => pure (.error ("Failed to set chain info permissions: " ++ e.text))
        | .ok _ => pure (.ok ())

/-- `consume_config`: a file that cannot be deleted stays. -/
def consumeConfig (config : WatermarkConfig) : Fs SetupPath WatermarkResult := do
  match ← saveChainInfo config with
  | .error e => pure (.error e)
  | .ok _ =>
    let _ ← removeFile .config
    pure config.configured

/-- `process_watermark_config`. -/
def processWatermarkConfig : Fs SetupPath WatermarkResult := do
  match ← call with
  | .error e => pure (.error ("Failed to mount boot partition: " ++ e.text))
  | .ok _ =>
    let result ← match ← readAndValidateConfig with
      | .ok config => consumeConfig config
      | .error result => pure result
    let _ ← call
    pure result

/-- `validate_watermark_config`. -/
def validateWatermarkConfig : Fs SetupPath WatermarkResult := do
  match ← call with
  | .error e => pure (.error ("Failed to mount boot partition: " ++ e.text))
  | .ok _ =>
    let result ← match ← readAndValidateConfig with
      | .ok config => pure config.configured
      | .error result => pure result
    let _ ← call
    pure result

/-- `read_chain_info`. -/
def readChainInfo (s : Files SetupPath) : Option Russignol.ChainInfo :=
  (s.content .chainInfo).bind fun raw =>
    (fromUtf8 raw).bind fun content => (SerdeJson.parseChainInfo content).toOption

variable [Base58]

/-- The chain that `apply_init_watermark` starts the signer with. -/
def provisionedChain (s : Files SetupPath) : ChainId :=
  ((readChainInfo s).bind fun info => ChainId.fromB58check info.id).getD ChainId.zero

/-! ## What a setup leaves -/

/-- A configuration that was staged was processed: the files that are left. -/
def Provisioned (config : WatermarkConfig) (s' : Files SetupPath) : Prop :=
  ∃ io io' s raw content, s.content .config = some raw ∧ fromUtf8 raw = some content ∧
    SerdeJson.parseConfig content = .ok config ∧
    processWatermarkConfig.run io s = (some config.configured, io', s')

omit [Base58] [SerdeJson] in
/-- A call returns and changes no content, or loses power. -/
theorem run_call (io : List Answer) (s : Files SetupPath) :
    ∃ r, call.run io s = (r, io.tail, s) := by
  refine ⟨((next io).take s s).1, ?_⟩
  rw [call, run_op, Answer.take_snd, ite_self]

omit [Base58] [SerdeJson] in
/-- So does what comes after it. -/
theorem run_call_bind {α : Type} {f : Except FileStore.IoError Unit → Fs SetupPath α} {a : α}
    {io io' : List Answer} {s s' : Files SetupPath}
    (h : (call >>= f).run io s = (some a, io', s')) :
    ∃ r, (f r).run io.tail s = (some a, io', s') := by
  obtain ⟨r, hr⟩ := run_call io s
  rw [run_bind, hr] at h
  cases r with
  | none => cases h
  | some r => exact ⟨r, h⟩

/-- Whatever may be answered. -/
abbrev Anything (_ : Answer) : Prop := True

omit [Base58] [SerdeJson] in
/-- A call changes nothing. -/
theorem call_triple (P : Files SetupPath → Prop) : Triple Anything P call (fun _ => P) P := by
  refine Triple.op fun a _ s hs => ?_
  cases a with
  | ok => exact hs
  | failed e left =>
    simp only [Answer.take, ite_self]
    exact hs
  | cut left =>
    simp only [Answer.take, ite_self]
    exact hs

omit [Base58] in
/-- A chain that was saved is in the file. -/
theorem saveChainInfo_ok {config : WatermarkConfig} {io io' : List Answer}
    {s s' : Files SetupPath} (h : (saveChainInfo config).run io s = (some (.ok ()), io', s')) :
    s'.content .chainInfo = some (asBytes (SerdeJson.chainInfoPretty config.chain.id
      config.chain.name config.chain.blocksPerCycle)) := by
  unfold saveChainInfo at h
  rw [run_bind, writeSync, run_op] at h
  cases hio : next io with
  | failed e left =>
    rw [hio] at h
    cases h
  | cut left =>
    rw [hio] at h
    cases h
  | ok =>
    rw [hio] at h
    obtain ⟨owner, h⟩ := run_call_bind h
    rcases owner with e | _
    · cases h
    obtain ⟨metadata, h⟩ := run_call_bind h
    rcases metadata with e | _
    · cases h
    obtain ⟨mode, h⟩ := run_call_bind h
    rcases mode with e | _
    · cases h
    · cases h
      simp [Files.set]

omit [Base58] in
/-- A configuration that was consumed has its chain in the file. -/
theorem consumeConfig_configured {config : WatermarkConfig} {name : String} {level : UInt32}
    {io io' : List Answer} {s s' : Files SetupPath}
    (h : (consumeConfig config).run io s = (some (.configured name level), io', s')) :
    s'.content .chainInfo = some (asBytes (SerdeJson.chainInfoPretty config.chain.id
      config.chain.name config.chain.blocksPerCycle)) := by
  unfold consumeConfig at h
  rw [run_bind] at h
  rcases hsave : (saveChainInfo config).run io s with ⟨_ | e | _, io₁, s₁⟩
  · rw [hsave] at h
    cases h
  · rw [hsave] at h
    cases h
  · rw [hsave] at h
    have hremove := (removeFile_kept .config io₁ s₁).content .chainInfo (by simp)
    simp only at h
    rw [run_bind] at h
    rcases hrun : (removeFile SetupPath.config).run io₁ s₁ with ⟨_ | r, io₂, s₂⟩
    · rw [hrun] at h
      cases h
    · rw [hrun] at h hremove
      cases h
      rw [hremove]
      exact saveChainInfo_ok hsave

omit [Base58] in
/-- Reading an accepted configuration. -/
theorem run_readAndValidateConfig {config : WatermarkConfig} {s : Files SetupPath}
    {raw : List UInt8} {content : String} (hraw : s.content .config = some raw)
    (hutf8 : fromUtf8 raw = some content) (hparse : SerdeJson.parseConfig content = .ok config)
    (hvalid : validateConfig config = .ok ()) (io : List Answer) :
    readAndValidateConfig.run io s = (some (.ok config), io, s.noteRead .config raw) := by
  rw [readAndValidateConfig, run_bind_of_some (run_pathExists _ io s), hraw]
  simp only [Option.isSome_some, if_true]
  rw [run_bind_of_some (run_readFile hraw io)]
  simp only [hutf8, hparse, hvalid]
  rfl

omit [Base58] in
/-- **An accepted configuration that was processed has its chain in the file.** -/
theorem Provisioned.chainInfo {config : WatermarkConfig} {s' : Files SetupPath}
    (h : Provisioned config s') (hvalid : validateConfig config = .ok ()) :
    s'.content .chainInfo = some (asBytes (SerdeJson.chainInfoPretty config.chain.id
      config.chain.name config.chain.blocksPerCycle)) := by
  obtain ⟨io, io', s, raw, content, hraw, hutf8, hparse, hrun⟩ := h
  unfold processWatermarkConfig at hrun
  obtain ⟨mounted, hrun⟩ := run_call_bind hrun
  rcases mounted with e | _
  · cases hrun
  simp only at hrun
  rw [run_bind_of_some (run_readAndValidateConfig hraw hutf8 hparse hvalid _)] at hrun
  simp only at hrun
  rw [run_bind] at hrun
  rcases hconsume : (consumeConfig config).run io.tail (s.noteRead .config raw) with
    ⟨_ | result, io₁, s₁⟩
  · rw [hconsume] at hrun
    cases hrun
  · rw [hconsume] at hrun
    simp only at hrun
    obtain ⟨unmounted, hrun⟩ := run_call_bind hrun
    cases hrun
    exact consumeConfig_configured hconsume

/-- **The chain of an accepted configuration that was processed**: the one its id decodes to, or
the one of a device that was never provisioned. -/
theorem Provisioned.chain [LawfulSerdeJson] {config : WatermarkConfig} {s' : Files SetupPath}
    (h : Provisioned config s') (hvalid : validateConfig config = .ok ()) :
    provisionedChain s' = (ChainId.fromB58check config.chain.id).getD ChainId.zero := by
  rw [provisionedChain, readChainInfo, h.chainInfo hvalid, Option.bind_some, fromUtf8_asBytes,
    Option.bind_some, LawfulSerdeJson.parse_pretty]
  rfl

/-! ## Signing under it -/

/-- No request that names the chain is refused for it. -/
def ServesChain (provisioned chain : ChainId) : Prop :=
  ∀ keys blocksPerCycle pkh data, (parseSignPayload data).chainId = some chain →
    (RequestHandler.ofSigner keys provisioned blocksPerCycle).chainGate pkh
      (parseSignPayload data) = none

omit [SerdeJson] in
/-- A device serves the chain it is provisioned for. -/
theorem servesChain_self (chain : ChainId) : ServesChain chain chain := by
  intro keys blocksPerCycle pkh data hchain
  simp only [RequestHandler.chainGate, hchain, RequestHandler.ofSigner, RequestHandler.new]
  rw [if_neg (not_not_intro rfl)]

/-- Every request for a held key that names another chain is refused, and offers no recovery. -/
def RefusesOthers [Blake3] (provisioned : ChainId) : Prop :=
  ∀ keys blocksPerCycle seen io pkh data s other,
    (parseSignPayload data).chainId = some other → other ≠ provisioned →
    (keys.signers.lookup pkh).isSome →
    let reply := (RequestHandler.ofSigner keys provisioned blocksPerCycle).handleSign seen io pkh
      data s
    reply.result = .error (.watermark (.chainMismatch provisioned.toB58check other.toB58check)) ∧
      (∀ level, .missingWatermark pkh other level ∉ reply.callbacks) ∧
      ∀ current level, .largeGap pkh other current level ∉ reply.callbacks

omit [SerdeJson] in
/-- A signer refuses every chain but its own. -/
theorem refusesOthers [Blake3] (provisioned : ChainId) : RefusesOthers provisioned := by
  intro keys blocksPerCycle seen io pkh data s other hchain hother hheld
  obtain ⟨signer, hsigner⟩ := Option.isSome_iff_exists.1 hheld
  obtain ⟨h, hh⟩ : ∃ h, h = RequestHandler.ofSigner keys provisioned blocksPerCycle := ⟨_, rfl⟩
  have hmagic : MagicBytes.checkMagicByte data h.allowedMagicBytes = .ok () := by
    rw [hh]
    exact RequestHandler.checkMagicByte_of_chain hchain
  have hkey : h.keys.signers.lookup pkh = some signer := by rw [hh]; exact hsigner
  have hprovisioned : h.provisionedChainId = some provisioned := by rw [hh]; rfl
  have hgate : h.chainGate pkh (parseSignPayload data) =
      some (.watermark (.chainMismatch provisioned.toB58check other.toB58check),
        Callback.fire h.watermarkErrorCallback (.watermarkError pkh other
          (.chainMismatch provisioned.toB58check other.toB58check))) := by
    simp only [RequestHandler.chainGate, hchain, hprovisioned]
    rw [if_pos hother]
  have hreply : h.handleSign seen io pkh data s =
      .refuse (.watermark (.chainMismatch provisioned.toB58check other.toB58check))
        (Callback.fire h.watermarkErrorCallback (.watermarkError pkh other
          (.chainMismatch provisioned.toB58check other.toB58check))) s := by
    simp only [RequestHandler.handleSign, hmagic, RequestHandler.resolveSigner, hkey, hgate]
  rw [← hh]
  simp only [hreply, Reply.refuse, Callback.fire]
  refine ⟨trivial, ?_, ?_⟩
  · intro level hmem
    split at hmem
    · cases List.mem_singleton.1 hmem
    · cases hmem
  · intro current level hmem
    split at hmem
    · cases List.mem_singleton.1 hmem
    · cases hmem

/-- **An accepted configuration can sign exactly when its id is a chain's**: the id decodes, and
every signer that was set up by it serves its chain, if and only if the id is base58check of the
prefix and four bytes or more. Under any other id the signer refuses every chain but the zero one,
and offers no recovery. -/
theorem accepted_config_signs [Blake3] [LawfulSerdeJson] (config : WatermarkConfig)
    (hvalid : validateConfig config = .ok ()) :
    ((∃ chain, ChainId.fromB58check config.chain.id = some chain ∧
        ∀ s', Provisioned config s' →
          provisionedChain s' = chain ∧ ServesChain (provisionedChain s') chain) ↔
      ∃ (four : Bytes.Fixed 4) (rest : List UInt8),
        Base58.decodeCheck config.chain.id = some (ChainId.netPrefix ++ four.1 ++ rest)) ∧
    (ChainId.fromB58check config.chain.id = none → ∀ s', Provisioned config s' →
      provisionedChain s' = ChainId.zero ∧ RefusesOthers (provisionedChain s')) := by
  refine ⟨⟨?_, ?_⟩, ?_⟩
  · rintro ⟨chain, hchain, -⟩
    obtain ⟨four, rest, hdecoded, -⟩ := ChainId.fromB58check_eq_some_iff.1 hchain
    exact ⟨four, rest, hdecoded⟩
  · rintro ⟨four, rest, hdecoded⟩
    have hchain := ChainId.fromB58check_eq_some_iff.2 ⟨four, rest, hdecoded, rfl⟩
    refine ⟨ChainId.ofFour four, hchain, ?_⟩
    intro s' hs'
    have heq : provisionedChain s' = ChainId.ofFour four := by rw [hs'.chain hvalid, hchain]; rfl
    rw [heq]
    exact ⟨rfl, servesChain_self _⟩
  · intro hnone s' hs'
    refine ⟨?_, refusesOthers _⟩
    rw [hs'.chain hvalid, hnone]
    rfl

end

/-! ## Stand-ins -/

/-- A JSON string without its opening quote. -/
def escape : List Char → List Char
  | [] => ['"']
  | c :: cs => if c = '"' ∨ c = '\\' then '\\' :: c :: escape cs else c :: escape cs

/-- A JSON string is read up to its closing quote, after a backslash or not. -/
def unescape : Bool → List Char → Option (List Char × List Char)
  | _, [] => none
  | true, c :: cs => (unescape false cs).map fun (s, rest) => (c :: s, rest)
  | false, c :: cs =>
    if c = '"' then some ([], cs)
    else if c = '\\' then unescape true cs
    else (unescape false cs).map fun (s, rest) => (c :: s, rest)

/-- An escaped text is read as it was. -/
theorem unescape_escape (rest : List Char) :
    ∀ s, unescape false (escape s ++ rest) = some (s, rest)
  | [] => rfl
  | c :: cs => by
    have ih := unescape_escape rest cs
    unfold escape
    split
    · simp [unescape, ih]
    · rename_i hplain
      rw [not_or] at hplain
      simp [unescape, hplain, ih]

/-- The text between the values of `chain_info.json`. -/
def jsonOpen : List Char := "\x7b\n  \"blocks_per_cycle\": ".toList

@[inherit_doc jsonOpen] def jsonId : List Char := ",\n  \"id\": \"".toList

@[inherit_doc jsonOpen] def jsonName : List Char := ",\n  \"name\": \"".toList

/-- Reading `chain_info.json`. -/
def parsePlain (text : String) : Option Russignol.ChainInfo :=
  let body := text.toList.drop jsonOpen.length
  (TezosEncrypt.parseU32 (body.takeWhile Char.isDigit)).bind fun blocksPerCycle =>
    (unescape false ((body.dropWhile Char.isDigit).drop jsonId.length)).bind fun (id, rest) =>
      (unescape false (rest.drop jsonName.length)).map fun (name, _) =>
        ⟨String.ofList id, String.ofList name, some blocksPerCycle⟩

/-- Writing it. -/
def printPlain (id name : String) (blocksPerCycle : UInt32) : String :=
  String.ofList (jsonOpen ++ (Nat.toDigits 10 blocksPerCycle.toNat ++ (jsonId ++ (escape id.toList ++
    (jsonName ++ (escape name.toList ++ "\n\x7d".toList))))))

/-- A configuration is read as it was printed. -/
theorem parsePlain_printPlain (id name : String) (blocksPerCycle : UInt32) :
    parsePlain (printPlain id name blocksPerCycle) = some ⟨id, name, some blocksPerCycle⟩ := by
  obtain ⟨digits, hdigits⟩ : ∃ digits, digits = Nat.toDigits 10 blocksPerCycle.toNat := ⟨_, rfl⟩
  obtain ⟨rest, hrest⟩ : ∃ rest, rest = escape id.toList ++ (jsonName ++ (escape name.toList ++
    "\n\x7d".toList)) := ⟨_, rfl⟩
  have hall : ∀ c ∈ digits, c.isDigit := by
    rw [hdigits]
    exact fun c hc => Nat.isDigit_of_mem_toDigits (by decide) (by decide) hc
  have hbody : (printPlain id name blocksPerCycle).toList.drop jsonOpen.length =
      digits ++ (jsonId ++ rest) := by
    rw [printPlain, String.toList_ofList, List.drop_left, hdigits, hrest]
  have htake : (digits ++ (jsonId ++ rest)).takeWhile Char.isDigit = digits := by
    rw [List.takeWhile_append_of_pos hall]
    exact List.append_nil digits
  have hdrop : (digits ++ (jsonId ++ rest)).dropWhile Char.isDigit = jsonId ++ rest := by
    rw [List.dropWhile_append_of_pos hall]
    rfl
  simp only [parsePlain, hbody, htake, hdrop, List.drop_left]
  rw [hdigits, TezosEncrypt.parseU32_toDigits, Option.bind_some, hrest, unescape_escape,
    Option.bind_some, List.drop_left, unescape_escape]
  simp

/-- A configuration as the host stages it. -/
def configText (id : String) : String :=
  "\x7b\"chain\":\x7b\"id\":\"" ++ id ++
    "\",\"level\":1000,\"name\":\"test\",\"blocks_per_cycle\":8192\x7d\x7d"

/-- The configuration it is. -/
def testConfig (id : String) : WatermarkConfig := ⟨⟨id, 1000, "test", 8192⟩⟩

/-- A stand-in for `serde_json`: it reads and writes chains, and reads two configurations. -/
@[reducible] def plainSerdeJson : SerdeJson where
  parseConfig text :=
    if text = configText "NetXdQprcVkpaWU" then .ok (testConfig "NetXdQprcVkpaWU")
    else if text = configText "NetXtest" then .ok (testConfig "NetXtest")
    else .error "expected value"
  parseChainInfo text :=
    match parsePlain text with
    | some info => .ok info
    | none => .error "expected value"
  chainInfoPretty := printPlain

/-- The stand-in meets the law of the parser. -/
theorem plainSerdeJson_lawful : @LawfulSerdeJson plainSerdeJson := by
  refine @LawfulSerdeJson.mk plainSerdeJson ?_
  intro id name blocksPerCycle
  show (match parsePlain (printPlain id name blocksPerCycle) with
    | some info => Except.ok info
    | none => Except.error "expected value") = _
  rw [parsePlain_printPlain]

/-- A stand-in for the base58 crates that knows the id of the main chain. -/
@[reducible] def mainnetBase58 : Base58 where
  sha256 _ := Bytes.zeros 32
  encode _ := ""
  decode _ := none
  encodeCheck _ := "NetXdQprcVkpaWU"
  decodeCheck s :=
    if s = "NetXdQprcVkpaWU" then some [87, 82, 0, 0x7a, 0x06, 0xa7, 0x70] else none

section

attribute [local instance] plainBlake3 mainnetBase58 plainSerdeJson

/-- A device provisioned for the main chain serves it. -/
theorem accepted_mainnet_signs : ∃ chain, ChainId.fromB58check "NetXdQprcVkpaWU" = some chain ∧
    ∀ s', Provisioned (testConfig "NetXdQprcVkpaWU") s' →
      provisionedChain s' = chain ∧ ServesChain (provisionedChain s') chain :=
  (@accepted_config_signs _ _ _ plainSerdeJson_lawful (testConfig "NetXdQprcVkpaWU")
    (by decide +kernel)).1.2 ⟨⟨[0x7a, 0x06, 0xa7, 0x70], rfl⟩, [], rfl⟩

end

/-- The id of the sample configurations is accepted and does not decode. -/
theorem accepted_sample_refuses : ¬∀ [Base58] [SerdeJson] [LawfulSerdeJson]
    (config : WatermarkConfig), validateConfig config = .ok () →
    ∃ chain, ChainId.fromB58check config.chain.id = some chain ∧
      ∀ s', Provisioned config s' →
        provisionedChain s' = chain ∧ ServesChain (provisionedChain s') chain := by
  intro hall
  obtain ⟨chain, hchain, -⟩ := @hall mainnetBase58 plainSerdeJson plainSerdeJson_lawful
    (testConfig "NetXtest") (by decide +kernel)
  cases hchain

end WatermarkSetup

end Russignol
