import Russignol.Rpi.InitScript
import Russignol.Rpi.WatermarkSetup
import Russignol.Signer.SeedFloor
import Russignol.Signer.TestUtils

/-!
# A staged floor across power losses

The level of a staged configuration goes from the boot partition into the memory of a process, and
from there, at the unlock, into the record files of every key: `process_watermark_config` deletes
the file, `run_ui_loop` and `apply_watermark_config` keep the level pending, and
`apply_init_watermark` takes it and seeds the floors. Nothing holds the level between the deletion
and the seeding but the process.

A process ends by a power loss or by an error that is fatal, at any point (`stop`); the power may
also be lost inside the processing of the file and inside the seeding.
-/

namespace Russignol

open Crypto CrashProgram FileStore WatermarkSetup

namespace WatermarkSetup

variable [SerdeJson]

/-- A staged configuration, and that its content is one that is accepted. -/
structure Accepts (raw : List UInt8) (config : WatermarkConfig) : Prop where
  parses : ∃ content, fromUtf8 raw = some content ∧ SerdeJson.parseConfig content = .ok config
  valid : validateConfig config = .ok ()

/-- The configuration is in its file. -/
def InFile (raw : List UInt8) (s : Files SetupPath) : Prop := s.content .config = some raw

/-- The chain of a configuration is in its file. -/
def Saved (config : WatermarkConfig) (s : Files SetupPath) : Prop :=
  s.content .chainInfo = some (asBytes (SerdeJson.chainInfoPretty config.chain.id
    config.chain.name config.chain.blocksPerCycle))

/-- The configuration is deleted, and its chain saved. -/
def Consumed (config : WatermarkConfig) (s : Files SetupPath) : Prop :=
  s.content .config = none ∧ Saved config s

/-- What saving the chain comes to: the configuration stays in its file. -/
def Stored (raw : List UInt8) (config : WatermarkConfig) (r : Except String Unit)
    (s : Files SetupPath) : Prop :=
  InFile raw s ∧ (r = .ok () → Saved config s)

theorem saveChainInfo_triple (raw : List UInt8) (config : WatermarkConfig) :
    Triple Anything (InFile raw) (saveChainInfo config) (Stored raw config) (InFile raw) := by
  have hset : ∀ s : Files SetupPath, InFile raw s → ∀ content,
      InFile raw (s.set .chainInfo content) := by
    intro s hs content
    simpa [InFile, Files.set] using hs
  have hwrite : Triple Anything (InFile raw) (writeSync .chainInfo (asBytes
      (SerdeJson.chainInfoPretty config.chain.id config.chain.name config.chain.blocksPerCycle)))
      (fun r s => InFile raw s ∧ ((∃ u, r = .ok u) → Saved config s)) (InFile raw) := by
    refine Triple.op fun a _ s hs => ?_
    cases a with
    | ok => exact ⟨hset s hs _, fun _ => by simp [Saved, Files.set]⟩
    | failed e left => exact ⟨hset s hs _, by simp⟩
    | cut left => exact hset s hs _
  have herror : ∀ {P : Files SetupPath → Prop} (e : String), (∀ s, P s → InFile raw s) →
      Triple Anything P (pure (.error e)) (Stored raw config) (InFile raw) :=
    fun _ hP => Triple.pure fun s hs => ⟨hP s hs, by simp⟩
  have hcall : ∀ {f : Except FileStore.IoError Unit → Fs SetupPath (Except String Unit)},
      (∀ r, Triple Anything (fun s => InFile raw s ∧ Saved config s) (f r) (Stored raw config)
        (InFile raw)) →
      Triple Anything (fun s => InFile raw s ∧ Saved config s) (call >>= f) (Stored raw config)
        (InFile raw) :=
    fun hf => ((call_triple _).mono (fun _ => id) (fun _ _ => id) fun _ hs => hs.1).bind hf
  unfold saveChainInfo
  refine hwrite.bind fun r => ?_
  rcases r with e | u
  · exact herror _ fun _ hs => hs.1
  have hsaved : ∀ s, (InFile raw s ∧ ((∃ u', (.ok u : Except FileStore.IoError Unit) = .ok u') →
      Saved config s)) → InFile raw s ∧ Saved config s := fun s hs => ⟨hs.1, hs.2 ⟨u, rfl⟩⟩
  refine Triple.mono ?_ hsaved (fun _ _ => id) fun _ => id
  refine hcall fun owner => ?_
  rcases owner with e | _
  · exact herror _ fun _ hs => hs.1
  refine hcall fun metadata => ?_
  rcases metadata with e | _
  · exact herror _ fun _ hs => hs.1
  refine hcall fun mode => ?_
  rcases mode with e | _
  · exact herror _ fun _ hs => hs.1
  · exact Triple.pure fun s hs => ⟨hs.1, fun _ => hs.2⟩

/-- What processing a configuration comes to: it is still in its file, or it is consumed. -/
def Processed (raw : List UInt8) (config : WatermarkConfig) (result : WatermarkResult)
    (s : Files SetupPath) : Prop :=
  InFile raw s ∧ (result = config.configured ∨ ∃ text, result = .error text) ∨
    Consumed config s ∧ result = config.configured

theorem consumeConfig_triple (raw : List UInt8) (config : WatermarkConfig) :
    Triple Anything (InFile raw) (consumeConfig config) (Processed raw config)
      (fun s => InFile raw s ∨ Consumed config s) := by
  have hremove : Triple Anything (fun s => InFile raw s ∧ Saved config s)
      (removeFile SetupPath.config) (fun _ s => InFile raw s ∨ Consumed config s)
      (fun s => InFile raw s ∨ Consumed config s) := by
    have hunlink : ∀ s : Files SetupPath, Saved config s → Consumed config (s.unlink .config) := by
      intro s hs
      refine ⟨by simp [Files.unlink], ?_⟩
      simpa [Saved, Files.unlink] using hs
    refine Triple.op fun a _ s hs => ?_
    have hsome : (s.content .config).isSome = true := by
      rw [hs.1]
      rfl
    rw [if_pos hsome]
    cases a with
    | ok => exact .inr (hunlink s hs.2)
    | failed e left =>
      cases hleft : left.landed with
      | true =>
        simp only [Answer.take, hleft]
        exact .inr (hunlink s hs.2)
      | false =>
        simp only [Answer.take, hleft]
        exact .inl hs.1
    | cut left =>
      cases hleft : left.landed with
      | true =>
        simp only [Answer.take, hleft]
        exact .inr (hunlink s hs.2)
      | false =>
        simp only [Answer.take, hleft]
        exact .inl hs.1
  unfold consumeConfig
  refine ((saveChainInfo_triple raw config).mono (fun _ => id) (fun _ _ => id) fun _ => .inl).bind
    fun r => ?_
  rcases r with e | _
  · exact Triple.pure fun s hs => .inl ⟨hs.1, .inr ⟨e, rfl⟩⟩
  · have hsaved : ∀ s, Stored raw config (.ok ()) s → InFile raw s ∧ Saved config s :=
      fun s hs => ⟨hs.1, hs.2 rfl⟩
    refine Triple.mono ?_ hsaved (fun _ _ => id) fun _ => id
    refine hremove.bind fun _ => Triple.pure fun s hs => ?_
    exact hs.imp (fun hs => ⟨hs, .inl rfl⟩) fun hs => ⟨hs, rfl⟩

/-- **Processing a configuration that is accepted**, whatever is answered. -/
theorem processWatermarkConfig_triple {raw : List UInt8} {config : WatermarkConfig}
    (h : Accepts raw config) : Triple Anything (InFile raw) processWatermarkConfig
      (Processed raw config) (fun s => InFile raw s ∨ Consumed config s) := by
  obtain ⟨⟨content, hutf8, hparse⟩, hvalid⟩ := h
  have hread : Triple Anything (InFile raw) readAndValidateConfig
      (fun r s => r = .ok config ∧ InFile raw s) (fun s => InFile raw s ∨ Consumed config s) := by
    intro io s hio hs
    rw [run_readAndValidateConfig hs hutf8 hparse hvalid io]
    exact ⟨hio, rfl, hs⟩
  unfold processWatermarkConfig
  refine ((call_triple (InFile raw)).mono (fun _ => id) (fun _ _ => id) fun _ => .inl).bind
    fun r => ?_
  rcases r with e | _
  · exact Triple.pure fun s hs => .inl ⟨hs, .inr ⟨_, rfl⟩⟩
  refine hread.bind fun r => Triple.of_pre fun hr => ?_
  subst hr
  refine (consumeConfig_triple raw config).bind fun result => ?_
  refine ((call_triple (Processed raw config result)).mono (fun _ => id) (fun _ _ => id) ?_).bind
    fun _ => Triple.pure fun _ => id
  exact fun s hs => hs.imp (fun hs => hs.1) fun hs => hs.1

/-- A configuration that is not there is not processed. -/
theorem processWatermarkConfig_absent_triple (config : WatermarkConfig) :
    Triple Anything (Consumed config) processWatermarkConfig
      (fun result s => Consumed config s ∧ ∀ name level, result ≠ .configured name level)
      (Consumed config) := by
  have hread : Triple Anything (Consumed config) readAndValidateConfig
      (fun r s => r = .error .notFound ∧ Consumed config s) (Consumed config) := by
    unfold readAndValidateConfig
    have hexists : Triple Anything (Consumed config) (pathExists SetupPath.config)
        (fun r s => r = false ∧ Consumed config s) (Consumed config) := by
      refine Triple.read fun s hs => ⟨?_, hs⟩
      rw [hs.1]
      rfl
    refine hexists.bind fun r => Triple.of_pre fun hr => ?_
    subst hr
    exact Triple.pure fun s hs => ⟨rfl, hs⟩
  unfold processWatermarkConfig
  refine (call_triple (Consumed config)).bind fun r => ?_
  rcases r with e | _
  · exact Triple.pure fun s hs => ⟨hs, nofun⟩
  refine hread.bind fun r => Triple.of_pre fun hr => ?_
  subst hr
  exact (call_triple (Consumed config)).bind fun _ => Triple.pure fun s hs => ⟨hs, nofun⟩

/-- The level that is pending after a configuration was processed. -/
def WatermarkResult.level? : WatermarkResult → Option UInt32
  | .configured _ level => some level
  | .notFound | .error _ => none

end WatermarkSetup

/-- What `load_secret_keys` gives: the keys that are held, and a MAC key for each. -/
structure HeldKeys where
  pkhs : List PublicKeyHash
  macKeys : PublicKeyHash → Option Watermark.MacKey
  nodup : pkhs.Nodup
  derived : ∀ pkh ∈ pkhs, (macKeys pkh).isSome = true

/-- A process, as far as the floor goes. -/
structure FloorProcess where
  /-- In the first boot, before its finalisation. -/
  inSetup : Bool
  /-- `pending_watermark_level`. -/
  pending : Option UInt32
  /-- The watermarks, once the keys are unlocked. -/
  wm : Option HighWatermark

/-- A card, and the process that runs on it. -/
structure StagedFloor where
  /-- The configuration and the chain. -/
  files : Files SetupPath
  disk : Disk
  proc : Option FloorProcess
  /-- History: the disk over which a pending level was last taken. -/
  taken : Option Disk

/-- What the seeding is answered; `cut` is a power loss after that many keys, the last of them
perhaps in the middle of its writes. -/
structure SeedIo where
  load : LoadIo
  fault : PublicKeyHash → Option LoadFault
  ios : PublicKeyHash → OperationType → WriteIo
  cut : Option Nat

namespace StagedFloor

/-- What can happen to a card. -/
inductive Action
  | boot (isFirstBoot isRoot migrationPending : Bool) (io : List Answer)
  | finalize (io : List Answer)
  | unlock (io : SeedIo)
  | stop

section

variable [Blake3] [Base58]

/-- The loop of `apply_init_watermark` over the keys: an error is only logged. -/
def seedKeys (io : SeedIo) (chainId : ChainId) (level : UInt32) :
    List PublicKeyHash → Store → Store
  | [], s => s
  | pkh :: pkhs, s =>
    seedKeys io chainId level pkhs (s.seedFloor (io.fault pkh) (io.ios pkh) chainId pkh level).2

variable [SerdeJson]

/-- `apply_init_watermark`. -/
def initWatermark (keys : HeldKeys) (io : SeedIo) (c : StagedFloor) (p : FloorProcess) :
    StagedFloor :=
  let chainId := provisionedChain c.files
  match HighWatermark.new io.load c.disk keys.pkhs keys.macKeys chainId with
  | .error _ => { c with proc := none }
  | .ok wm =>
    let reached := match io.cut with
      | none => keys.pkhs
      | some n => keys.pkhs.take n
    let s : Store := match p.pending with
      | none => ⟨wm, c.disk⟩
      | some level => seedKeys io chainId level reached ⟨wm, c.disk⟩
    { c with
      disk := s.disk
      proc := if io.cut.isSome then none else some { p with pending := none, wm := some s.wm }
      taken := if p.pending.isSome then some c.disk else c.taken }

/-- Take an action; `none` where it cannot be taken. -/
def step (keys : HeldKeys) (c : StagedFloor) : Action → Option StagedFloor
  | .boot isFirstBoot isRoot migrationPending io =>
    match c.proc with
    | some _ => none
    | none =>
      if CardState.shouldRecoverWatermarkConfig isFirstBoot isRoot migrationPending then
        match processWatermarkConfig.run io c.files with
        | (none, _, files) => some { c with files }
        | (some r, _, files) => some { c with files, proc := some ⟨isFirstBoot, r.level?, none⟩ }
      else some { c with proc := some ⟨isFirstBoot, none, none⟩ }
  | .finalize io =>
    c.proc.bind fun p =>
      if p.inSetup then
        match processWatermarkConfig.run io c.files with
        | (none, _, files) => some { c with files, proc := none }
        | (some (.error _), _, files) => some { c with files, proc := none }
        | (some r, _, files) =>
          some { c with files, proc := some { p with inSetup := false, pending := r.level? } }
      else none
  | .unlock io =>
    c.proc.bind fun p =>
      if p.inSetup || p.wm.isSome then none else some (c.initWatermark keys io p)
  | .stop => some { c with proc := none }

/-- A power loss inside the processing of the configuration finds it still in its file. -/
def FileLast (io : List Answer) (c : StagedFloor) : Prop :=
  (processWatermarkConfig.run io c.files).1 = none →
    ((processWatermarkConfig.run io c.files).2.2.content .config).isSome = true

/-- The level is not dropped between the deletion of its file and the end of the seeding: no power
loss and no fatal error there, and no fault while the floors are seeded. -/
def Carried (keys : HeldKeys) (c : StagedFloor) : Action → Prop
  | .boot _ _ _ io | .finalize io => c.FileLast io
  | .unlock io =>
    ∀ p ∈ c.proc, p.pending.isSome = true →
      (HighWatermark.new io.load c.disk keys.pkhs keys.macKeys
          (provisionedChain c.files)).toOption.isSome = true ∧ io.cut = none ∧
        ∀ pkh ∈ keys.pkhs, io.fault pkh = none ∧ (∀ t ∈ OperationType.all, io.ios pkh t = .done) ∧
          ∀ t ∈ OperationType.all, (c.disk.files pkh t).length ≤ Watermark.authFileSize
  | .stop => ∀ p ∈ c.proc, p.pending = none

/-- A level is pending in the process. -/
def Pending (level : UInt32) (c : StagedFloor) : Prop :=
  ∃ p, c.proc = some p ∧ p.pending = some level

/-- The floor of every key was seeded: on the disk and, once unlocked, in memory. -/
def Floor (keys : HeldKeys) (level : UInt32) (c : StagedFloor) : Prop :=
  ∃ d, c.taken = some d ∧ ∀ pkh ∈ keys.pkhs,
    Store.Floored level (d.reload keys.macKeys (provisionedChain c.files) pkh)
        (c.disk.reload keys.macKeys (provisionedChain c.files) pkh) ∧
      ∀ p wm, c.proc = some p → p.wm = some wm →
        Store.Floored level (d.reload keys.macKeys (provisionedChain c.files) pkh)
          (Store.mem ⟨wm, c.disk⟩ pkh)

/-- The same, with what a later unlock needs: the key has a directory, and memory is as the disk. -/
def Settled (keys : HeldKeys) (level : UInt32) (c : StagedFloor) : Prop :=
  ∃ d, c.taken = some d ∧ ∀ pkh ∈ keys.pkhs, c.disk.isDir pkh = true ∧
    Store.Floored level (d.reload keys.macKeys (provisionedChain c.files) pkh)
        (c.disk.reload keys.macKeys (provisionedChain c.files) pkh) ∧
      ∀ p wm, c.proc = some p → p.wm = some wm → ∀ t, Store.mem ⟨wm, c.disk⟩ pkh t =
        c.disk.reload keys.macKeys (provisionedChain c.files) pkh t

theorem Settled.floor {keys : HeldKeys} {level : UInt32} {c : StagedFloor}
    (h : c.Settled keys level) : c.Floor keys level := by
  obtain ⟨d, htaken, hkeys⟩ := h
  refine ⟨d, htaken, fun pkh hpkh => ?_⟩
  obtain ⟨-, hfloored, hmem⟩ := hkeys pkh hpkh
  refine ⟨hfloored, fun p wm hp hwm => ?_⟩
  rw [funext (hmem p wm hp hwm)]
  exact hfloored

/-- Where the level is, and what the process has of it. -/
structure Inv (keys : HeldKeys) (raw : List UInt8) (config : WatermarkConfig) (c : StagedFloor) :
    Prop where
  level : InFile raw c.files ∨ Consumed config c.files ∧
    (c.Pending config.chain.level ∨ c.Settled keys config.chain.level)
  setup : ∀ p, c.proc = some p → p.inSetup = true → p.pending = none
  pending : ∀ p l, c.proc = some p → p.pending = some l → l = config.chain.level

omit [Blake3] in
/-- The chain is the one that was saved. -/
theorem provisionedChain_congr {config : WatermarkConfig} {s s' : Files SetupPath}
    (h : Saved config s) (h' : Saved config s') : provisionedChain s' = provisionedChain s := by
  unfold provisionedChain readChainInfo
  rw [h, h']

variable {keys : HeldKeys} {raw : List UInt8} {config : WatermarkConfig} {c c' : StagedFloor}

/-- A process that has no watermarks yet, over a disk that is settled. -/
theorem Settled.congr {level : UInt32} (h : c.Settled keys level)
    (hsaved : Saved config c.files) (hsaved' : Saved config c'.files) (hdisk : c'.disk = c.disk)
    (htaken : c'.taken = c.taken)
    (hproc : ∀ p wm, c'.proc = some p → p.wm = some wm → ∃ p', c.proc = some p' ∧ p'.wm = some wm) :
    c'.Settled keys level := by
  obtain ⟨d, hd, hkeys⟩ := h
  unfold Settled
  rw [provisionedChain_congr hsaved hsaved', hdisk]
  refine ⟨d, htaken.trans hd, fun pkh hpkh => ?_⟩
  obtain ⟨hdir, hfloored, hmem⟩ := hkeys pkh hpkh
  refine ⟨hdir, hfloored, fun p wm hp hwm => ?_⟩
  obtain ⟨p', hp', hwm'⟩ := hproc p wm hp hwm
  exact hmem p' wm hp' hwm'

omit [SerdeJson] in
/-- **Seeding the floors of the keys**, one after another, on a disk that answers. -/
theorem seedKeys_done (io : SeedIo) (chainId : ChainId) (level : UInt32) :
    ∀ {pkhs : List PublicKeyHash} {s : Store}, pkhs.Nodup → s.InSync →
      (∀ pkh ∈ pkhs, pkh ∈ s.wm.knownPkhs ∧ (s.wm.macKeys pkh).isSome = true ∧ s.disk.Fits pkh ∧
        io.fault pkh = none ∧ ∀ t, io.ios pkh t = .done) →
      let s' := seedKeys io chainId level pkhs s
      s'.InSync ∧ Store.SameConfig s s' ∧
        (∀ k, (s.wm.keys k).isSome = true → (s'.wm.keys k).isSome = true) ∧
        (∀ k ∉ pkhs, s'.disk.files k = s.disk.files k) ∧
        ∀ pkh ∈ pkhs, (s'.wm.keys pkh).isSome = true ∧
          Store.Floored level (s.reload pkh) (s'.reload pkh)
  | [], s, _, hsync, _ =>
    ⟨hsync, Store.SameConfig.refl s, fun _ => id, fun _ _ => rfl,
      fun _ h => absurd h List.not_mem_nil⟩
  | pkh :: pkhs, s, hnodup, hsync, hkeys => by
    obtain ⟨hnot, hnodup⟩ := List.nodup_cons.1 hnodup
    obtain ⟨hknown, hmac, hfits, hfault, hios⟩ := hkeys pkh List.mem_cons_self
    have hseeded : Store.Seeded pkh level s
        (s.seedFloor (io.fault pkh) (io.ios pkh) chainId pkh level).2 := by
      rw [hfault]
      exact Store.seedFloor_done chainId hsync hknown hmac hfits hios
    obtain ⟨s₁, hs₁⟩ : ∃ s₁, s₁ = (s.seedFloor (io.fault pkh) (io.ios pkh) chainId pkh level).2 :=
      ⟨_, rfl⟩
    rw [← hs₁] at hseeded
    have hrest : ∀ k ∈ pkhs, k ≠ pkh := fun k hk heq => hnot (heq ▸ hk)
    have hkeys₁ : ∀ k ∈ pkhs, k ∈ s₁.wm.knownPkhs ∧ (s₁.wm.macKeys k).isSome = true ∧
        s₁.disk.Fits k ∧ io.fault k = none ∧ ∀ t, io.ios k t = .done := by
      intro k hk
      obtain ⟨hknown, hmac, hfits, hio⟩ := hkeys k (List.mem_cons_of_mem _ hk)
      refine ⟨hseeded.config.knownPkhs ▸ hknown, hseeded.config.macKeys ▸ hmac, ?_, hio⟩
      intro t
      rw [hseeded.files k (hrest k hk)]
      exact hfits t
    obtain ⟨hsync', hconfig', hloaded', hfiles', hfloored'⟩ :=
      seedKeys_done io chainId level hnodup hseeded.sync hkeys₁
    intro s'
    have hs' : s' = seedKeys io chainId level pkhs s₁ := by rw [hs₁]; rfl
    rw [← hs'] at hsync' hconfig' hloaded' hfiles' hfloored'
    refine ⟨hsync', hseeded.config.trans hconfig', fun k hk => hloaded' k (hseeded.keys k hk), ?_,
      ?_⟩
    · intro k hk
      rw [List.mem_cons, not_or] at hk
      exact (hfiles' k hk.2).trans (hseeded.files k hk.1)
    · intro k hk
      rcases List.mem_cons.1 hk with rfl | hk
      · refine ⟨hloaded' k hseeded.loaded, ?_⟩
        rw [Store.reload_congr hconfig' (hfiles' k hnot)]
        exact hseeded.floored
      · obtain ⟨hloaded, hfloored⟩ := hfloored' k hk
        refine ⟨hloaded, ?_⟩
        rw [← Store.reload_congr hseeded.config (hseeded.files k (hrest k hk))]
        exact hfloored

/-- An unlock that does not take a level leaves a settled disk as it is. -/
theorem Settled.unlock {level : UInt32} (h : c.Settled keys level) {io : SeedIo}
    {p : FloorProcess} (hpending : p.pending = none) :
    (c.initWatermark keys io p).Settled keys level := by
  obtain ⟨d, htaken, hkeys⟩ := h
  unfold initWatermark
  dsimp only
  cases hnew : HighWatermark.new io.load c.disk keys.pkhs keys.macKeys (provisionedChain c.files) with
  | error e => exact ⟨d, htaken, fun pkh hpkh => ⟨(hkeys pkh hpkh).1, (hkeys pkh hpkh).2.1, nofun⟩⟩
  | ok wm =>
    obtain ⟨hmac, hchain, -, -⟩ := Store.new_spec hnew
    obtain ⟨hsync, hloaded⟩ := Store.new_inSync hnew
    simp only [hpending]
    refine ⟨d, htaken, fun pkh hpkh => ?_⟩
    obtain ⟨hdir, hfloored, -⟩ := hkeys pkh hpkh
    refine ⟨hdir, hfloored, fun p' wm' hp' hwm' t => ?_⟩
    split at hp'
    · cases hp'
    · cases hp'
      cases hwm'
      have hmem := (hsync pkh (hloaded pkh hpkh hdir)).2 t
      rw [Store.reload, hmac, hchain] at hmem
      exact hmem

/-- **An unlock that takes the level** settles the disk, where it is carried to the end. -/
theorem settled_of_taken {level : UInt32} {io : SeedIo} {p : FloorProcess}
    (hp : c.proc = some p) (hpending : p.pending = some level)
    (hcarried : c.Carried keys (.unlock io)) : (c.initWatermark keys io p).Settled keys level := by
  obtain ⟨hnew, hcut, hkeys⟩ := hcarried p hp (by rw [hpending]; rfl)
  unfold initWatermark
  dsimp only
  cases hwm : HighWatermark.new io.load c.disk keys.pkhs keys.macKeys (provisionedChain c.files) with
  | error e =>
    rw [hwm] at hnew
    cases hnew
  | ok wm =>
    obtain ⟨hmac, hchain, hknown, -⟩ := Store.new_spec hwm
    obtain ⟨hsync, -⟩ := Store.new_inSync hwm
    obtain ⟨hsync', hconfig, -, -, hdone⟩ := seedKeys_done io (provisionedChain c.files) level
      keys.nodup hsync (by
        intro pkh hpkh
        obtain ⟨hfault, hios, hfits⟩ := hkeys pkh hpkh
        refine ⟨hknown ▸ hpkh, ?_, fun t => hfits t (OperationType.mem_all t), hfault,
          fun t => hios t (OperationType.mem_all t)⟩
        show (wm.macKeys pkh).isSome = true
        rw [hmac]
        exact keys.derived pkh hpkh)
    simp only [hpending, hcut]
    refine ⟨c.disk, rfl, fun pkh hpkh => ?_⟩
    obtain ⟨hloaded, hfloored⟩ := hdone pkh hpkh
    obtain ⟨hdir, hmem⟩ := hsync' pkh hloaded
    have hreload : (seedKeys io (provisionedChain c.files) level keys.pkhs
        ⟨wm, c.disk⟩).reload pkh = (seedKeys io (provisionedChain c.files) level keys.pkhs
        ⟨wm, c.disk⟩).disk.reload keys.macKeys (provisionedChain c.files) pkh := by
      funext t
      rw [Store.reload, hconfig.macKeys, hconfig.chainId, hmac, hchain]
    have hbefore : Store.reload ⟨wm, c.disk⟩ pkh =
        c.disk.reload keys.macKeys (provisionedChain c.files) pkh := by
      funext t
      rw [Store.reload, hmac, hchain]
    rw [hreload, hbefore] at hfloored
    refine ⟨hdir, hfloored, fun p' wm' hp' hwm' t => ?_⟩
    cases hp'
    cases hwm'
    rw [← hreload]
    exact hmem t

/-- What processing does to a level: the file stays, is read, or was not there any more. -/
inductive Processing (raw : List UInt8) (config : WatermarkConfig) (s s' : Files SetupPath) :
    Option WatermarkResult → Prop
  | lost : InFile raw s' → Processing raw config s s' none
  | failed (text : String) : InFile raw s' → Processing raw config s s' (some (.error text))
  | read : InFile raw s' ∨ Consumed config s' → Processing raw config s s' (some config.configured)
  | absent {r : Option WatermarkResult} : Consumed config s → Consumed config s' →
      (∀ result, r = some result → result.level? = none) → Processing raw config s s' r

omit [Blake3] [Base58] in
/-- Processing the configuration, whatever is answered. -/
theorem processing (haccepts : Accepts raw config) {s s' : Files SetupPath} {io io' : List Answer}
    {r : Option WatermarkResult} (hlevel : InFile raw s ∨ Consumed config s)
    (hrun : processWatermarkConfig.run io s = (r, io', s'))
    (hlast : r = none → (s'.content .config).isSome = true) : Processing raw config s s' r := by
  have hio : ∀ a ∈ io, Anything a := fun _ _ => trivial
  rcases hlevel with hfile | hconsumed
  · have htriple := (processWatermarkConfig_triple haccepts).run hio hfile
    rw [hrun] at htriple
    rcases htriple with ⟨result, rfl, hprocessed⟩ | ⟨rfl, hcut⟩
    · rcases hprocessed with ⟨hfile', rfl | ⟨text, rfl⟩⟩ | ⟨hconsumed, rfl⟩
      · exact .read (.inl hfile')
      · exact .failed text hfile'
      · exact .read (.inr hconsumed)
    · rcases hcut with hfile' | hconsumed
      · exact .lost hfile'
      · have hsome := hlast rfl
        rw [hconsumed.1] at hsome
        cases hsome
  · have htriple := (processWatermarkConfig_absent_triple config).run hio hconsumed
    rw [hrun] at htriple
    rcases htriple with ⟨result, rfl, hconsumed', hnot⟩ | ⟨rfl, hconsumed'⟩
    · refine .absent hconsumed hconsumed' fun result' heq => ?_
      cases heq
      cases result with
      | configured name level => exact absurd rfl (hnot name level)
      | notFound | error => rfl
    · exact .absent hconsumed hconsumed' nofun

/-- A level whose file is gone is pending or settled. -/
theorem Inv.of_consumed (h : c.Inv keys raw config) (hconsumed : Consumed config c.files) :
    c.Pending config.chain.level ∨ c.Settled keys config.chain.level := by
  rcases h.level with hfile | ⟨-, hrest⟩
  · cases hfile.symm.trans hconsumed.1
  · exact hrest

/-- A settled level stays so without a process, or with one that just started. -/
theorem Inv.settled (h : c.Inv keys raw config) (hconsumed : Consumed config c.files)
    (hpending : ¬c.Pending config.chain.level) (hconsumed' : Consumed config c'.files)
    (hdisk : c'.disk = c.disk) (htaken : c'.taken = c.taken)
    (hproc : ∀ p wm, c'.proc = some p → p.wm = some wm → ∃ p', c.proc = some p' ∧ p'.wm = some wm) :
    c'.Settled keys config.chain.level :=
  ((h.of_consumed hconsumed).resolve_left hpending).congr hconsumed.2 hconsumed'.2 hdisk htaken hproc

/-- A card that is off. -/
theorem Inv.off (hproc : c.proc = none) (hlevel : InFile raw c.files ∨ Consumed config c.files ∧
    (c.Pending config.chain.level ∨ c.Settled keys config.chain.level)) :
    c.Inv keys raw config where
  level := hlevel
  setup := fun _ hp => nomatch hproc.symm.trans hp
  pending := fun _ _ hp => nomatch hproc.symm.trans hp

/-- A card with a process. -/
theorem Inv.on {p : FloorProcess} (hproc : c.proc = some p) (hlevel : InFile raw c.files ∨
      Consumed config c.files ∧ (c.Pending config.chain.level ∨ c.Settled keys config.chain.level))
    (hsetup : p.inSetup = true → p.pending = none)
    (hpending : ∀ l, p.pending = some l → l = config.chain.level) : c.Inv keys raw config where
  level := hlevel
  setup := by
    intro p' hp'
    cases hproc.symm.trans hp'
    exact hsetup
  pending := by
    intro p' l hp'
    cases hproc.symm.trans hp'
    exact hpending l

/-- A boot, of a card that is off. -/
theorem Inv.boot (h : c.Inv keys raw config) (haccepts : Accepts raw config)
    {isFirstBoot isRoot migrationPending : Bool} {io : List Answer} (hlast : c.FileLast io)
    (hstep : c.step keys (.boot isFirstBoot isRoot migrationPending io) = some c') :
    c'.Inv keys raw config := by
  simp only [step] at hstep
  cases hproc : c.proc with
  | some p =>
    simp only [hproc] at hstep
    cases hstep
  | none =>
    have hpending : ¬c.Pending config.chain.level := fun ⟨p, hp, _⟩ => nomatch hproc.symm.trans hp
    simp only [hproc] at hstep
    split at hstep
    · rename_i hrecover
      have hsetup : isFirstBoot = false := by
        simp only [CardState.shouldRecoverWatermarkConfig, Bool.and_eq_true,
          Bool.not_eq_true'] at hrecover
        exact hrecover.1.1
      rcases hrun : processWatermarkConfig.run io c.files with ⟨r, io', files⟩
      unfold FileLast at hlast
      rw [hrun] at hstep hlast
      cases processing haccepts (h.level.imp_right And.left) hrun hlast with
      | lost hfile =>
        cases hstep
        exact .off rfl (.inl hfile)
      | failed text hfile =>
        cases hstep
        exact .on rfl (.inl hfile) (fun _ => rfl) nofun
      | read hlevel =>
        cases hstep
        refine .on rfl (hlevel.imp_right fun hconsumed => ⟨hconsumed, .inl ⟨_, rfl, rfl⟩⟩) ?_ ?_
        · intro hfirst
          cases hsetup.symm.trans hfirst
        · intro l hl
          cases hl
          rfl
      | absent hconsumed hconsumed' hnone =>
        cases r with
        | none =>
          cases hstep
          exact .off rfl (.inr ⟨hconsumed', .inr (h.settled hconsumed hpending hconsumed' rfl rfl
            nofun)⟩)
        | some result =>
          cases hstep
          refine .on rfl (.inr ⟨hconsumed', .inr (h.settled hconsumed hpending hconsumed' rfl rfl
            ?_)⟩) (fun _ => hnone result rfl) ?_
          · rintro p wm ⟨⟩ hwm
            cases hwm
          · intro l hl
            cases (hnone result rfl).symm.trans hl
    · cases hstep
      refine .on rfl (h.level.imp_right fun ⟨hconsumed, _⟩ => ⟨hconsumed, .inr (h.settled hconsumed
        hpending hconsumed rfl rfl ?_)⟩) (fun _ => rfl) nofun
      rintro p wm ⟨⟩ hwm
      cases hwm

/-- The finalisation of a first boot. -/
theorem Inv.finalize (h : c.Inv keys raw config) (haccepts : Accepts raw config)
    {io : List Answer} (hlast : c.FileLast io) (hstep : c.step keys (.finalize io) = some c') :
    c'.Inv keys raw config := by
  simp only [step] at hstep
  obtain ⟨p, hp, hstep⟩ := Option.bind_eq_some_iff.1 hstep
  split at hstep
  · rename_i hsetup
    have hnotPending : p.pending = none := h.setup p hp hsetup
    have hpending : ¬c.Pending config.chain.level := by
      rintro ⟨p', hp', hlevel⟩
      cases hp.symm.trans hp'
      cases hnotPending.symm.trans hlevel
    rcases hrun : processWatermarkConfig.run io c.files with ⟨r, io', files⟩
    unfold FileLast at hlast
    rw [hrun] at hstep hlast
    cases processing haccepts (h.level.imp_right And.left) hrun hlast with
    | lost hfile =>
      cases hstep
      exact .off rfl (.inl hfile)
    | failed text hfile =>
      cases hstep
      exact .off rfl (.inl hfile)
    | read hlevel =>
      cases hstep
      refine .on rfl (hlevel.imp_right fun hconsumed => ⟨hconsumed, .inl ⟨_, rfl, rfl⟩⟩) nofun ?_
      intro l hl
      cases hl
      rfl
    | absent hconsumed hconsumed' hnone =>
      have hsettled : ∀ proc : Option FloorProcess, (∀ p' wm, proc = some p' → p'.wm = some wm →
          p.wm = some wm) → Settled keys config.chain.level { c with files, proc } :=
        fun proc hwm => h.settled hconsumed hpending hconsumed' rfl rfl fun p' wm hp' hwm' =>
          ⟨p, hp, hwm p' wm hp' hwm'⟩
      have hoff : Inv keys raw config { c with files, proc := none } :=
        .off rfl (.inr ⟨hconsumed', .inr (hsettled none nofun)⟩)
      have hon : ∀ level?, level? = none → Inv keys raw config
          { c with files, proc := some { p with inSetup := false, pending := level? } } := by
        rintro level? rfl
        refine .on rfl (.inr ⟨hconsumed', .inr (hsettled _ ?_)⟩) nofun nofun
        rintro p' wm ⟨⟩ hwm
        exact hwm
      cases r with
      | none =>
        cases hstep
        exact hoff
      | some result =>
        cases result with
        | error text =>
          cases hstep
          exact hoff
        | configured | notFound =>
          cases hstep
          exact hon _ (hnone _ rfl)
  · cases hstep

/-- The unlock. -/
theorem Inv.unlock (h : c.Inv keys raw config) {io : SeedIo}
    (hcarried : c.Carried keys (.unlock io)) (hstep : c.step keys (.unlock io) = some c') :
    c'.Inv keys raw config := by
  simp only [step] at hstep
  obtain ⟨p, hp, hstep⟩ := Option.bind_eq_some_iff.1 hstep
  split at hstep
  · cases hstep
  · cases hstep
    have hfiles : (c.initWatermark keys io p).files = c.files := by
      unfold initWatermark
      dsimp only
      split <;> rfl
    have hlevel : InFile raw (c.initWatermark keys io p).files ∨
        Consumed config (c.initWatermark keys io p).files ∧
          ((c.initWatermark keys io p).Pending config.chain.level ∨
            (c.initWatermark keys io p).Settled keys config.chain.level) := by
      rw [hfiles]
      refine h.level.imp_right fun ⟨hconsumed, hrest⟩ => ⟨hconsumed, .inr ?_⟩
      cases hpending : p.pending with
      | some level =>
        obtain rfl := h.pending p level hp hpending
        exact settled_of_taken hp hpending hcarried
      | none =>
        refine Settled.unlock (hrest.resolve_left ?_) hpending
        rintro ⟨p', hp', hlevel⟩
        cases hp.symm.trans hp'
        cases hpending.symm.trans hlevel
    have hproc : ∀ p', (c.initWatermark keys io p).proc = some p' → p'.pending = none := by
      intro p' hp'
      unfold initWatermark at hp'
      dsimp only at hp'
      split at hp'
      · cases hp'
      · cases hcut : io.cut with
        | some n =>
          rw [hcut] at hp'
          cases hp'
        | none =>
          rw [hcut] at hp'
          cases hp'
          rfl
    exact ⟨hlevel, fun p' hp' _ => hproc p' hp', fun p' l hp' hl =>
      nomatch (hproc p' hp').symm.trans hl⟩

/-- **One step keeps the level**, where it is carried. -/
theorem step_inv (haccepts : Accepts raw config) (c : StagedFloor) (a : Action) (c' : StagedFloor)
    (h : c.Inv keys raw config) (hcarried : c.Carried keys a) (hstep : c.step keys a = some c') :
    c'.Inv keys raw config := by
  cases a with
  | boot => exact h.boot haccepts hcarried hstep
  | finalize io => exact h.finalize haccepts hcarried hstep
  | unlock io => exact h.unlock hcarried hstep
  | stop =>
    cases hstep
    refine .off rfl (h.level.imp_right fun ⟨hconsumed, _⟩ => ⟨hconsumed, .inr (h.settled hconsumed ?_
      hconsumed rfl rfl nofun)⟩)
    rintro ⟨p, hp, hlevel⟩
    cases (hcarried p hp).symm.trans hlevel

/-- **A staged level is not lost as long as it is carried.** From a card on which an accepted
configuration is staged, in every run in which the level is not dropped between the deletion of the
file and the end of the seeding, the configuration is still in its file, or its level is pending in
the process, or the floor of every key that is held was seeded with it, on the disk and in memory. -/
theorem staged_level_carried (keys : HeldKeys) (haccepts : Accepts raw config)
    (files : Files SetupPath) (hfile : InFile raw files) (disk : Disk) (acts : List Action)
    (c : StagedFloor)
    (hcarried : Automaton.Along (step keys) (Carried keys) ⟨files, disk, none, none⟩ acts)
    (h : Automaton.run (step keys) ⟨files, disk, none, none⟩ acts = some c) :
    InFile raw c.files ∨ c.Pending config.chain.level ∨ c.Floor keys config.chain.level := by
  have hinv : c.Inv keys raw config :=
    Automaton.run_invariant (step_inv haccepts) (.off rfl (.inl hfile)) hcarried h
  exact hinv.level.imp_right fun ⟨_, hrest⟩ => hrest.imp_right Settled.floor

instance (keys : HeldKeys) (c : StagedFloor) (a : Action) : Decidable (c.Carried keys a) := by
  cases a <;> simp only [Carried, FileLast] <;> infer_instance

end

/-- The configuration for the main chain, as it is staged. -/
def stagedRaw : List UInt8 := asBytes (configText "NetXdQprcVkpaWU")

/-- A card on which it is staged. -/
def stagedCard : StagedFloor where
  files := ⟨fun | .config => some stagedRaw | .chainInfo => none, []⟩
  disk := ⟨fun _ => false, fun _ _ => [], []⟩
  proc := none
  taken := none

/-- Nothing fails while the floors are seeded. -/
def SeedIo.quiet : SeedIo := ⟨LoadIo.quiet, fun _ => none, fun _ _ => .done, none⟩

section

attribute [local instance] plainBlake3 mainnetBase58 plainSerdeJson

/-- One key, with its MAC key. -/
def testHeldKeys : HeldKeys where
  pkhs := [testKey 1]
  macKeys := testMacKeys [testKey 1]
  nodup := List.nodup_singleton _
  derived := by
    intro pkh hpkh
    rw [testMacKeys, if_pos hpkh]
    rfl

theorem stagedRaw_accepts : Accepts stagedRaw (testConfig "NetXdQprcVkpaWU") where
  parses := ⟨configText "NetXdQprcVkpaWU", by decide +kernel, by decide +kernel⟩
  valid := by decide +kernel

/-- A configuration that is recovered and unlocked is seeded. -/
theorem staged_level_carried_unlock : ∃ c,
    Automaton.run (step testHeldKeys) stagedCard
      [.boot false true false [], .unlock SeedIo.quiet] = some c ∧
      c.files.content .config = none ∧
      (InFile stagedRaw c.files ∨ c.Pending 1000 ∨ c.Floor testHeldKeys 1000) := by
  have hdeleted : (Automaton.run (step testHeldKeys) stagedCard
      [.boot false true false [], .unlock SeedIo.quiet]).map (fun c => c.files.content .config) =
      some none := by decide +kernel
  obtain ⟨c, hrun, hc⟩ := Option.map_eq_some_iff.1 hdeleted
  exact ⟨c, hrun, hc, staged_level_carried testHeldKeys stagedRaw_accepts stagedCard.files
    rfl _ _ c
    (by decide +kernel) hrun⟩

end

/-- **A power loss before the PIN loses the level.** -/
theorem staged_level_lost : ¬∀ [Blake3] [Base58] [SerdeJson] (keys : HeldKeys)
    (raw : List UInt8) (config : WatermarkConfig), Accepts raw config →
    ∀ files, InFile raw files → ∀ disk acts c,
      Automaton.run (step keys) ⟨files, disk, none, none⟩ acts = some c →
      ∀ p wm, c.proc = some p → p.wm = some wm →
        InFile raw c.files ∨ ∀ pkh ∈ keys.pkhs, ∀ t,
          ∃ e, Store.mem ⟨wm, c.disk⟩ pkh t = some e ∧ config.chain.level ≤ e.level := by
  intro hall
  have hlost : (@Automaton.run _ _ (@step plainBlake3 mainnetBase58 plainSerdeJson testHeldKeys)
      stagedCard [.boot false true false [], .stop, .boot false false false [],
        .unlock SeedIo.quiet]).bind (fun c => c.proc.bind fun p => p.wm.map fun wm =>
      (c.files.content .config, Store.mem ⟨wm, c.disk⟩ (testKey 1) .attestation)) =
      some (none, none) := by decide +kernel
  obtain ⟨c, hrun, hc⟩ := Option.bind_eq_some_iff.1 hlost
  obtain ⟨p, hp, hc⟩ := Option.bind_eq_some_iff.1 hc
  obtain ⟨wm, hwm, hc⟩ := Option.map_eq_some_iff.1 hc
  obtain ⟨hconfig, hmem⟩ := Prod.mk.inj hc
  rcases @hall plainBlake3 mainnetBase58 plainSerdeJson testHeldKeys stagedRaw _ stagedRaw_accepts
    stagedCard.files rfl _ _ c hrun p wm hp hwm with hfile | hmarks
  · cases hconfig.symm.trans hfile
  · obtain ⟨e, he, -⟩ := hmarks (testKey 1) (List.mem_singleton_self _) .attestation
    cases hmem.symm.trans he

/-- A disk on which the key has signed a block, and nothing else. -/
def blockDisk [Blake3] : Disk where
  isDir pkh := decide (pkh = testKey 1)
  files pkh t := match t, testMacKeys [testKey 1] pkh with
    | .block, some macKey => (Watermark.encodeAuthenticated macKey
        (ChainId.ofFour ⟨[0x7a, 0x06, 0xa7, 0x70], rfl⟩).bytes.1 2000 0).1
    | _, _ => []
  written := []

/-- A mark above the level spares the other marks of its key, also where nothing fails. -/
theorem mark_spares_floor : ¬∀ [Blake3] [Base58] [SerdeJson] (keys : HeldKeys)
    (raw : List UInt8) (config : WatermarkConfig), Accepts raw config →
    ∀ files, InFile raw files → ∀ disk acts c,
      Automaton.Along (step keys) (Carried keys) ⟨files, disk, none, none⟩ acts →
      Automaton.run (step keys) ⟨files, disk, none, none⟩ acts = some c →
      ∀ p wm, c.proc = some p → p.wm = some wm →
        InFile raw c.files ∨ ∀ pkh ∈ keys.pkhs, ∀ t,
          ∃ e, Store.mem ⟨wm, c.disk⟩ pkh t = some e ∧ config.chain.level ≤ e.level := by
  intro hall
  have hcarried : @Automaton.Along _ _
      (@step plainBlake3 mainnetBase58 plainSerdeJson testHeldKeys)
      (@Carried plainBlake3 mainnetBase58 plainSerdeJson testHeldKeys)
      { stagedCard with disk := @blockDisk plainBlake3 }
      [.boot false true false [], .unlock SeedIo.quiet] := by decide +kernel
  have hspared : (@Automaton.run _ _ (@step plainBlake3 mainnetBase58 plainSerdeJson testHeldKeys)
      { stagedCard with disk := @blockDisk plainBlake3 }
      [.boot false true false [], .unlock SeedIo.quiet]).bind (fun c => c.proc.bind fun p =>
        p.wm.map fun wm =>
          (c.files.content .config, Store.mem ⟨wm, c.disk⟩ (testKey 1) .attestation)) =
      some (none, none) := by decide +kernel
  obtain ⟨c, hrun, hc⟩ := Option.bind_eq_some_iff.1 hspared
  obtain ⟨p, hp, hc⟩ := Option.bind_eq_some_iff.1 hc
  obtain ⟨wm, hwm, hc⟩ := Option.map_eq_some_iff.1 hc
  obtain ⟨hconfig, hmem⟩ := Prod.mk.inj hc
  rcases @hall plainBlake3 mainnetBase58 plainSerdeJson testHeldKeys stagedRaw _ stagedRaw_accepts
    stagedCard.files rfl _ _ c hcarried hrun p wm hp hwm with hfile | hmarks
  · cases hconfig.symm.trans hfile
  · obtain ⟨e, he, -⟩ := hmarks (testKey 1) (List.mem_singleton_self _) .attestation
    cases hmem.symm.trans he

end StagedFloor

end Russignol
