import Russignol.Host.HealthyCard
import Russignol.Host.RepairRounds

/-!
# The repairs converge

After one round that is completed the device owns what the check found, after two its
`chain_info.json` is settled, and what is left is the staged configuration, which the third round
deletes, replaces or leaves (`Settled.round_noHostDirect`). A card whose first boot is not over, or
that is not mounted, takes one round at most.

The exception is a card of which the host is asked for a repair that it is not allowed to make, or
whose result it cannot read back (`NeverRepaired`): every round fails at it, or asks for it again
(`repairs_converge_iff`).
-/

namespace Russignol.Host

open Crypto

section

variable [Blake3] [JsonText] {host : CheckHost} {time : String} {node : Option ChainInfo}
  {img img' : CardImage} {a : RepairAction}

/-! ## Owners of the watermarks -/

omit [Blake3] [JsonText] in
/-- The code takes an owner it could not read for the right one. -/
theorem ownerOk_iff {owner : Option Owner} :
    ownerOk owner = true ↔ ∀ o, owner = some o → o = deviceOwner := by
  cases owner with
  | none => exact iff_of_true rfl nofun
  | some o =>
    rw [ownerOk, Option.all_some, decide_eq_true_iff]
    exact ⟨fun h o' ho' => Option.some.inj ho' ▸ h, fun h => h o rfl⟩

/-- The directory and the records of every key on the card are the device's. -/
def WatermarksOwned (img : CardImage) : Prop :=
  ∀ pkh ∈ cardPkhs img, (img.dir pkh).any (·.isDir) = true → OwnedByDevice pkh img

omit [JsonText] in
/-- A key has drifted where its directory or a record is not the device's. -/
theorem drifted_eq_false {pkh : String} (hdir : (img.dir pkh).any (·.isDir) = true) :
    (readKeyWatermarks img pkh).drifted = false ↔ OwnedByDevice pkh img := by
  have hfiles : (readKeyWatermarks img pkh).files =
      OperationType.all.map (readWatermarkFile img pkh) := by
    rw [readKeyWatermarks, if_pos hdir]
  rw [KeyWatermarks.drifted, Bool.or_eq_false_iff, Bool.not_eq_false', List.any_eq_false, hfiles,
    List.forall_mem_map, ownerOk_iff]
  refine and_congr ?_ ?_
  · show (∀ o, (img.dir pkh).map (·.owner) = some o → _) ↔ _
    simp only [Option.map_eq_some_iff, forall_exists_index, and_imp]
    exact ⟨fun h d hd => h _ d hd rfl, fun h _ d hd ho => ho ▸ h d hd⟩
  · have howner : ∀ t, (¬ (!ownerOk (readWatermarkFile img pkh t).owner) = true) ↔
        ∀ f, img.records pkh t = some f → f.owner = deviceOwner := by
      intro t
      rw [Bool.not_eq_true, Bool.not_eq_false', ownerOk_iff, readWatermarkFile]
      simp only [Option.map_eq_some_iff, forall_exists_index, and_imp]
      exact ⟨fun h f hf => h _ f hf rfl, fun h _ f hf ho => ho ▸ h f hf⟩
    simp only [howner]
    exact ⟨fun h t => h t (by cases t <;> decide), fun h t _ => h t⟩

/-- When the watermarks of a key are to be chowned. -/
theorem mem_actions_chownWatermarks {pkh : String} :
    .chownWatermarks pkh ∈ issueActions (checkIssues host node img) ↔
      Examines host img ∧ pkh ∈ cardPkhs img ∧ (img.dir pkh).any (·.isDir) = true ∧
        ¬ OwnedByDevice pkh img := by
  rw [checkIssues, mem_actions_classify, RepairAction.Needed, examined_iff]
  refine and_congr_right fun hexamines => ?_
  obtain ⟨-, -, -, hwatermarks, -⟩ := gather_mounted hexamines.1 hexamines.2.1 img
  rw [hwatermarks]
  constructor
  · rintro ⟨key, hkey, rfl, hdir, hdrifted⟩
    obtain ⟨pkh, hpkh, rfl⟩ := List.mem_map.1 hkey
    refine ⟨hpkh, hdir, fun howned => ?_⟩
    rw [(drifted_eq_false hdir).2 howned] at hdrifted
    cases hdrifted
  · rintro ⟨hpkh, hdir, howned⟩
    refine ⟨_, List.mem_map_of_mem hpkh, rfl, hdir, ?_⟩
    exact eq_true_of_ne_false fun h => howned ((drifted_eq_false hdir).1 h)

/-- One round that is completed, and the watermarks are the device's. -/
theorem round_watermarksOwned (h : Examines host img) (hdone : Completes host time node img) :
    WatermarksOwned (repairRound host time node img) := by
  intro pkh hpkh hdir
  rw [round_cardPkhs] at hpkh
  rw [round_isDir] at hdir
  by_cases howned : OwnedByDevice pkh img
  · exact round_keeps (P := OwnedByDevice pkh) (fun _ _ _ h _ => h.effect) howned
  · exact hdone.done (mem_actions_chownWatermarks.2 ⟨h, hpkh, hdir, howned⟩)

/-! ## The panic log -/

/-- The panic log is not over its cap. -/
def PanicLogSmall (img : CardImage) : Prop :=
  ∀ f, img.panicLog = some f → f.content.length ≤ panicLogMaxBytes

/-- The panic log is to be truncated where it was examined and is not small. -/
theorem mem_actions_truncate :
    .truncatePanicLog ∈ issueActions (checkIssues host node img) ↔
      Examines host img ∧ ¬ PanicLogSmall img := by
  rw [checkIssues, mem_actions_classify, RepairAction.Needed, examined_iff]
  refine and_congr_right fun hexamines => ?_
  obtain ⟨-, -, -, -, hpanicLog⟩ := gather_mounted hexamines.1 hexamines.2.1 img
  rw [hpanicLog, PanicLogSmall]
  push Not
  simp only [Option.map_eq_some_iff]
  constructor
  · rintro ⟨_, ⟨f, hf, rfl⟩, hlarge⟩
    exact ⟨f, hf, hlarge⟩
  · rintro ⟨f, hf, hlarge⟩
    exact ⟨_, ⟨f, hf, rfl⟩, hlarge⟩

/-- One round that is completed, and the panic log is small. -/
theorem round_panicLogSmall (h : Examines host img) (hdone : Completes host time node img) :
    PanicLogSmall (repairRound host time node img) := by
  by_cases hsmall : PanicLogSmall img
  · refine round_keeps (P := PanicLogSmall) (fun b _ img' hsmall' _ => ?_) hsmall
    cases b with
    | truncatePanicLog =>
      intro f hf
      rw [RepairAction.done_effect host time node .truncatePanicLog img' f hf]
      exact Nat.zero_le _
    | _ => exact hsmall'
  · intro f hf
    rw [hdone.done (mem_actions_truncate.2 ⟨h, hsmall⟩) f hf]
    exact Nat.zero_le _

/-! ## The chain information -/

/-- The id of the chain that the check reads from a file. -/
def CardFile.chainId (f : CardFile) : Option String :=
  (((f.readToString.bind fun content => (JsonText.parse content).toOption).bind (·.get "id")).bind
    Json.asStr).filter (· ≠ "")

omit [Blake3] in
/-- What is read of a `chain_info.json` that is there. -/
theorem readChainInfoState_some {f : CardFile} (hf : img.keys .chainInfo = some f) :
    readChainInfoState img = match f.chainId with
      | some id => .present id (some f.permissions) (some f.owner)
      | none => .unreadable (some f.owner) (some f.permissions) := by
  rw [readChainInfoState, hf]
  rfl

omit [Blake3] in
/-- A `chain_info.json` that is not there is missing. -/
theorem readChainInfoState_none (h : img.keys .chainInfo = none) :
    readChainInfoState img = .missing := by
  rw [readChainInfoState, h]

omit [Blake3] in
/-- A file that is read has an id, and not the empty one. -/
theorem CardFile.chainId_some {f : CardFile} {id : String} (h : f.chainId = some id) :
    f.readable = true ∧ id ≠ "" := by
  refine ⟨?_, of_decide_eq_true (Option.filter_eq_some_iff.1 h).2⟩
  by_contra hreadable
  rw [CardFile.chainId, CardFile.readToString, CardFile.read, if_neg hreadable] at h
  cases h

omit [Blake3] in
/-- The id depends on the content, and whether it can be read. -/
theorem CardFile.chainId_congr {f f' : CardFile} (hreadable : f'.readable = f.readable)
    (hcontent : f'.content = f.content) : f'.chainId = f.chainId := by
  simp only [CardFile.chainId, CardFile.readToString, CardFile.read, hreadable, hcontent]

omit [Blake3] in
/-- The host reads back the id of the file that it writes. -/
theorem chainId_chainInfoFile [LawfulJsonText] {n : ChainInfo} (hid : n.id ≠ "")
    (hreads : host.reads deviceOwner chainInfoMode = true) :
    (host.chainInfoFile n).chainId = some n.id := by
  have hmode : chainInfoMode &&& 0o777 = chainInfoMode := by decide
  have hparse : JsonText.parse
      (JsonText.pretty (Russignol.ChainInfo.toJson n.id n.name n.blocksPerCycle)) =
        .ok (Russignol.ChainInfo.toJson n.id n.name n.blocksPerCycle) :=
    LawfulJsonText.parse_pretty _ (Json.writable_obj Russignol.ChainInfo.nodup_names (by
      simp only [List.map_cons, List.map_nil, List.all_cons, List.all_nil, Json.writable_u32,
        Json.writable_str, Bool.and_self]))
  have hget : ((Russignol.ChainInfo.toJson n.id n.name n.blocksPerCycle).get "id").bind
      Json.asStr = some n.id := rfl
  simp only [CardFile.chainId, CardFile.readToString, CardFile.read, CheckHost.chainInfoFile,
    chainInfoBytes, CheckHost.file, hmode, hreads, if_true, Option.bind_some, fromUtf8_asBytes,
    hparse, Except.toOption, hget, Option.filter, hid, ne_eq, not_false_eq_true, decide_true]

/-- When the chain information is to be written, chowned and chmodded. -/
theorem mem_actions_chain (node : Option ChainInfo) (h : Examines host img) :
    (.writeChainInfo ∈ issueActions (checkIssues host node img) ↔
        ∃ n, node = some n ∧ (readChainInfoState img).Outdated n) ∧
      (.chownChainInfo ∈ issueActions (checkIssues host node img) ↔
        (readChainInfoState img).Drifted) ∧
      (.chmodChainInfo ∈ issueActions (checkIssues host node img) ↔
        (readChainInfoState img).Exposed) := by
  obtain ⟨-, -, hchain, -⟩ := gather_mounted h.1 h.2.1 img
  simp only [checkIssues, mem_actions_classify, RepairAction.Needed, hchain, examined_iff, h,
    true_and, and_self]

/-- The chain information is the device's. -/
def ChainInfoOwned (img : CardImage) : Prop :=
  ∀ f, img.keys .chainInfo = some f → f.owner = deviceOwner

omit [Blake3] in
/-- The owner of `chain_info.json` has drifted where it is not the device. -/
theorem drifted_iff : (readChainInfoState img).Drifted ↔ ¬ ChainInfoOwned img := by
  have howner : ∀ f : CardFile, ownerOk (some f.owner) = false ↔ ¬ f.owner = deviceOwner := by
    intro f
    rw [ownerOk, Option.all_some, decide_eq_false_iff_not]
  cases hfile : img.keys .chainInfo with
  | none =>
    rw [readChainInfoState_none hfile]
    exact iff_of_false (fun h => h) (not_not.2 fun f hf => nomatch hfile.symm.trans hf)
  | some f =>
    have howned : ChainInfoOwned img ↔ f.owner = deviceOwner :=
      ⟨fun h => h f hfile, fun h f' hf' => Option.some.inj (hfile.symm.trans hf') ▸ h⟩
    rw [howned, readChainInfoState_some hfile]
    cases f.chainId with
    | none => exact howner f
    | some id => exact howner f

/-- One round that is completed, and the chain information is the device's. -/
theorem round_chainInfoOwned (h : Examines host img) (hdone : Completes host time node img) :
    ChainInfoOwned (repairRound host time node img) := by
  by_cases howned : ChainInfoOwned img
  · exact RepairAction.Done.round (a := .chownChainInfo) rfl howned
  · exact hdone.done ((mem_actions_chain _ h).2.1.2 (drifted_iff.2 howned))

/-- Nothing of the chain information is to be repaired. -/
structure ChainInfoState.Settled (node : Option ChainInfo) (s : ChainInfoState) : Prop where
  current : ∀ n, node = some n → ¬ s.Outdated n
  owned : ¬ s.Drifted
  closed : ¬ s.Exposed

/-- The host can read back the chain information that it writes. -/
def ReadsBack (host : CheckHost) (node : Option ChainInfo) : Prop :=
  ∀ n, node = some n → n.id ≠ "" ∧ host.reads deviceOwner chainInfoMode = true

/-- Where nothing is written the content stays. -/
theorem round_content (time : String)
    (h : .writeChainInfo ∉ issueActions (checkIssues host node img)) :
    ((repairRound host time node img).keys .chainInfo).map (·.content) =
      (img.keys .chainInfo).map (·.content) := by
  refine round_keeps (P := fun img' => (img'.keys .chainInfo).map (·.content) =
    (img.keys .chainInfo).map (·.content)) (fun b hb img' hsame _ => ?_) rfl
  cases b with
  | writeChainInfo => exact absurd (mem_planRepairs.1 hb).1 h
  | chmodChainInfo =>
    rw [RepairAction.effect, CardImage.withChainInfo_chainInfo, Option.map_map]
    exact hsame
  | chownChainInfo =>
    rw [RepairAction.effect, CardImage.withChainInfo_chainInfo, Option.map_map,
      show (·.content) ∘ host.chown = (·.content) from funext host.content_chown]
    exact hsame
  | _ => exact hsame

omit [Blake3] in
/-- What is exposed is a file with a chain id. -/
theorem exists_of_exposed (h : (readChainInfoState img).Exposed) :
    ∃ f id, img.keys .chainInfo = some f ∧ f.chainId = some id := by
  cases hfile : img.keys .chainInfo with
  | none =>
    rw [readChainInfoState_none hfile] at h
    exact h.elim
  | some f =>
    rw [readChainInfoState_some hfile] at h
    cases hid : f.chainId with
    | none =>
      rw [hid] at h
      exact h.elim
    | some id => exact ⟨f, id, rfl, hid⟩

omit [Blake3] in
/-- A file with the device's mode is not exposed. -/
theorem not_exposed {f : CardFile} (hfile : img.keys .chainInfo = some f)
    (hmode : f.permissions = chainInfoMode) : ¬ (readChainInfoState img).Exposed := by
  rw [readChainInfoState_some hfile]
  cases f.chainId with
  | none => exact fun h => h
  | some id => exact not_not.2 hmode

omit [Blake3] in
/-- The device's file for the node is settled, if the host can read it. -/
theorem settled_of_chainInfoFile [LawfulJsonText] {n : ChainInfo}
    (hback : ReadsBack host (some n)) (howned : ChainInfoOwned img)
    (hfile : img.keys .chainInfo = some (host.chainInfoFile n)) :
    (readChainInfoState img).Settled (some n) where
  current := by
    rintro _ ⟨⟩
    obtain ⟨hid, hreads⟩ := hback n rfl
    rw [readChainInfoState_some hfile, chainId_chainInfoFile hid hreads]
    exact not_not.2 rfl
  owned h := drifted_iff.1 h howned
  closed := not_exposed hfile (permissions_setChainInfoMode (host.chainInfoFile n))

/-- **A file of the device is settled by one round** that is completed, if the host can read it
back. -/
theorem round_chainSettled [LawfulJsonText] (h : Examines host img) (hread : img.ReadBy host)
    (hback : ReadsBack host node) (howned : ChainInfoOwned img)
    (hdone : Completes host time node img) :
    (readChainInfoState (repairRound host time node img)).Settled node := by
  have howned' : ChainInfoOwned (repairRound host time node img) :=
    RepairAction.Done.round (a := .chownChainInfo) rfl howned
  by_cases hwrite : .writeChainInfo ∈ issueActions (checkIssues host node img)
  · obtain ⟨n, rfl, -⟩ := (mem_actions_chain _ h).1.1 hwrite
    exact settled_of_chainInfoFile hback howned' (hdone.done hwrite n rfl)
  have hcurrent : ∀ n, node = some n → ¬ (readChainInfoState img).Outdated n :=
    fun n hn houtdated => hwrite ((mem_actions_chain _ h).1.2 ⟨n, hn, houtdated⟩)
  by_cases hchmod : .chmodChainInfo ∈ issueActions (checkIssues host node img)
  · obtain ⟨f, id, hf, hid⟩ := exists_of_exposed ((mem_actions_chain _ h).2.2.1 hchmod)
    have hkept := round_content time hwrite
    rw [hf] at hkept
    obtain ⟨f', hf', hcontent⟩ := Option.map_eq_some_iff.1 hkept
    have hmode : f'.permissions = chainInfoMode := hdone.done hchmod f' hf'
    refine ⟨?_, fun hdrifted => drifted_iff.1 hdrifted howned', not_exposed hf' hmode⟩
    rintro n rfl
    have hcurrent := hcurrent n rfl
    have hreadable : f'.readable = f.readable := by
      rw [hread.round.keys .chainInfo f' hf', howned' f' hf', hmode, (hback n rfl).2,
        (CardFile.chainId_some hid).1]
    rw [readChainInfoState_some hf, hid] at hcurrent
    rw [readChainInfoState_some hf', CardFile.chainId_congr hreadable hcontent, hid]
    exact hcurrent
  · have hsame : (repairRound host time node img).keys .chainInfo = img.keys .chainInfo := by
      refine round_chainInfo fun b hb hpartition => ?_
      cases b with
      | writeChainInfo => exact hwrite hb
      | chmodChainInfo => exact hchmod hb
      | chownChainInfo => exact drifted_iff.1 ((mem_actions_chain _ h).2.1.1 hb) howned
      | _ => cases hpartition
    have hstate : readChainInfoState (repairRound host time node img) = readChainInfoState img := by
      rw [readChainInfoState, hsame]
      rfl
    rw [hstate]
    exact ⟨hcurrent, fun h => drifted_iff.1 h howned,
      fun hexposed => hchmod ((mem_actions_chain _ h).2.2.2 hexposed)⟩

/-! ## The staged configuration -/

/-- A configuration is to be deleted. -/
theorem mem_actions_delete : .deleteBootConfig ∈ issueActions (checkIssues host node img) ↔
    ∃ n bc, node = some n ∧ gatherBootConfig host.mounts img = some bc ∧
      (n.id ≠ bc.chainId ∨
        bootConfigSuperseded (gatherCardState host.mounts img) n.id bc = true) := by
  rw [checkIssues, mem_actions_classify, RepairAction.Needed, gather_bootConfig]

omit [Blake3] in
/-- What is read of the boot partition depends on nothing else. -/
theorem gatherBootConfig_congr {m : Mounts} (h : img'.boot = img.boot) :
    gatherBootConfig m img' = gatherBootConfig m img := by
  rw [gatherBootConfig, gatherBootConfig, h]

omit [Blake3] in
/-- What the check reads of a configuration that was staged. -/
theorem gatherBootConfig_staged [LawfulJsonText] {m : Mounts} {n : ChainInfo} {bc : BootConfigState}
    (hboot : img.boot = some (WatermarkConfig.bytes ⟨time, n⟩))
    (hbc : gatherBootConfig m img = some bc) : bc = ⟨n.id, n.level⟩ := by
  have hparse := JsonText.decode_pretty "struct WatermarkConfig"
    (WatermarkConfig.writable ⟨time, n⟩) (WatermarkConfig.ofJson_toJson ⟨time, n⟩)
  rw [gatherBootConfig] at hbc
  split at hbc
  · rw [hboot, Option.bind_some, WatermarkConfig.bytes, fromUtf8_asBytes, Option.bind_some,
      hparse] at hbc
    exact (Option.some.inj hbc).symm
  · cases hbc

/-- Without an action on it the configuration stays. -/
theorem round_boot (h : ∀ b ∈ issueActions (checkIssues host node img), b.partition ≠ .boot) :
    (repairRound host time node img).boot = img.boot := by
  refine round_keeps (P := fun img' => img'.boot = img.boot) (fun b hb img' hsame _ => ?_) rfl
  have hpartition := h b (mem_planRepairs.1 hb).1
  cases b with
  | deleteBootConfig => exact absurd rfl hpartition
  | stageBootConfig chain => exact absurd rfl hpartition
  | _ => exact hsame

/-- A configuration that is deleted is gone, unless another one is staged. -/
theorem round_deleted (hdone : Completes host time node img)
    (hdelete : .deleteBootConfig ∈ issueActions (checkIssues host node img))
    (hstage : ∀ n, .stageBootConfig n ∉ issueActions (checkIssues host node img)) :
    (repairRound host time node img).boot = none := by
  have hplanned : .deleteBootConfig ∈ planRepairs (checkIssues host node img) := by
    refine mem_planRepairs.2 ⟨hdelete, List.any_eq_false.2 fun b hb => ?_⟩
    cases b with
    | stageBootConfig n => exact absurd hb (hstage n)
    | _ => exact Bool.false_ne_true
  rw [hdone.round]
  refine applyAll_brings (P := fun img' => img'.boot = none) hplanned (fun _ => rfl)
    fun b hb img' hnone => ?_
  cases b with
  | deleteBootConfig => rfl
  | stageBootConfig n => exact absurd (mem_planRepairs.1 hb).1 (hstage n)
  | _ => exact hnone

/-- A configuration that is asked for is staged, whatever becomes of the rest of the plan. -/
theorem round_staged {n : ChainInfo} (hboot : host.writesBoot = true)
    (h : .stageBootConfig n ∈ issueActions (checkIssues host node img)) :
    (repairRound host time node img).boot = some (WatermarkConfig.bytes ⟨time, n⟩) :=
  executeRepairs_staged (planRepairs_plan (gatherCardState host.mounts img) node) hboot
    (mem_planRepairs.2 ⟨h, rfl⟩)

/-- **A configuration that is to be deleted after a round** was staged by it and is superseded at
once, or the round left it alone. -/
theorem deleted_again [LawfulJsonText] (hboot : ∀ n, node = some n → host.writesBoot = true)
    (hdone : .deleteBootConfig ∈ issueActions (checkIssues host node img) →
      (∀ n, .stageBootConfig n ∉ issueActions (checkIssues host node img)) →
        Completes host time node img)
    (h : .deleteBootConfig ∈
      issueActions (checkIssues host node (repairRound host time node img))) :
    (∃ n, .stageBootConfig n ∈ issueActions (checkIssues host node img) ∧
        bootConfigSuperseded (gatherCardState host.mounts (repairRound host time node img)) n.id
          ⟨n.id, n.level⟩ = true) ∨
      .deleteBootConfig ∉ issueActions (checkIssues host node img) ∧
        ∀ n, .stageBootConfig n ∉ issueActions (checkIssues host node img) := by
  obtain ⟨n, bc, rfl, hbc, hstale⟩ := mem_actions_delete.1 h
  by_cases hstage : .stageBootConfig n ∈ issueActions (checkIssues host (some n) img)
  · refine .inl ⟨n, hstage, ?_⟩
    obtain rfl := gatherBootConfig_staged (round_staged (hboot n rfl) hstage) hbc
    exact hstale.resolve_left (not_not.2 rfl)
  have hnostage : ∀ n', .stageBootConfig n' ∉ issueActions (checkIssues host (some n) img) := by
    intro n' hn'
    obtain ⟨hn, -⟩ := mem_actions_classify.1 hn'
    cases hn
    exact hstage hn'
  refine .inr ⟨fun hdelete => ?_, hnostage⟩
  rw [gatherBootConfig, round_deleted (hdone hdelete hnostage) hdelete hnostage] at hbc
  split at hbc <;> cases hbc

/-! ## What the host is allowed -/

/-- What is asked for is allowed to the host. -/
structure Able (host : CheckHost) (node : Option ChainInfo) (img : CardImage) : Prop where
  boot : ∀ n, node = some n → host.writesBoot = true
  own : .writeChainInfo ∈ issueActions (checkIssues host node img) ∨
    .chmodChainInfo ∈ issueActions (checkIssues host node img) → host.owns deviceOwner = true
  write : .writeChainInfo ∈ issueActions (checkIssues host node img) →
    host.mayWriteChainInfo img = true
  log : .truncatePanicLog ∈ issueActions (checkIssues host node img) →
    ∃ f, img.panicLog = some f ∧ host.writes f = true
  named : ∀ n, .stageBootConfig n ∈ issueActions (checkIssues host node img) →
    n.name ≠ "" ∧ n.id ≠ ""

/-- The partitions are examined when something on them is asked for. -/
theorem examines_of_asked (ha : a ∈ issueActions (checkIssues host node img))
    (hpartition : a.partition ≠ .boot) : Examines host img := by
  have hneeded := mem_actions_classify.1 ha
  cases a with
  | deleteBootConfig => exact absurd rfl hpartition
  | stageBootConfig n => exact absurd rfl hpartition
  | _ => exact examined_iff.1 hneeded.1

omit [Blake3] in
/-- The chain information is there unless it is missing. -/
theorem chainInfo_isSome (h : readChainInfoState img ≠ .missing) :
    (img.keys .chainInfo).isSome = true := by
  by_contra hnone
  exact h (readChainInfoState_none (Option.not_isSome_iff_eq_none.1 hnone))

/-- What is planned is allowed, or sets the mode of a chain information that is chowned before. -/
theorem Able.allowed (h : Able host node img) (ha : a ∈ planRepairs (checkIssues host node img)) :
    a.Allowed host node img ∨ a = .chmodChainInfo ∧
      .chownChainInfo ∈ planRepairs (checkIssues host node img) ∧
        (img.keys .chainInfo).isSome = true := by
  obtain ⟨hasked, hkept⟩ := mem_planRepairs.1 ha
  cases a with
  | chownWatermarks pkh =>
    obtain ⟨-, -, hdir, -⟩ := mem_actions_chownWatermarks.1 hasked
    exact .inl (Option.isSome_of_any hdir)
  | writeChainInfo =>
    obtain ⟨n, rfl, -⟩ := (mem_actions_chain _ (examines_of_asked hasked nofun)).1.1 hasked
    exact .inl ⟨rfl, h.write hasked⟩
  | chmodChainInfo =>
    have hchain := mem_actions_chain node (examines_of_asked hasked nofun)
    have hexposed := hchain.2.2.1 hasked
    have hsome := chainInfo_isSome fun hmissing => by rwa [hmissing] at hexposed
    obtain ⟨f, hf⟩ := Option.isSome_iff_exists.1 hsome
    by_cases howner : f.owner = deviceOwner
    · exact .inl ⟨f, hf, howner ▸ h.own (.inr hasked)⟩
    · refine .inr ⟨rfl, mem_planRepairs.2 ⟨hchain.2.1.2 (drifted_iff.2 fun howned => ?_), hkept⟩,
        hsome⟩
      exact howner (howned f hf)
  | chownChainInfo =>
    have hdrifted := (mem_actions_chain node (examines_of_asked hasked nofun)).2.1.1 hasked
    exact .inl (chainInfo_isSome fun hmissing => by rwa [hmissing] at hdrifted)
  | truncatePanicLog => exact .inl (h.log hasked)
  | deleteBootConfig =>
    obtain ⟨n, bc, hn, hbc, -⟩ := mem_actions_delete.1 hasked
    rw [gatherBootConfig] at hbc
    split at hbc
    · obtain ⟨content, hcontent, -⟩ := Option.bind_eq_some_iff.1 hbc
      obtain ⟨raw, hraw, -⟩ := Option.bind_eq_some_iff.1 hcontent
      exact .inl ⟨Option.isSome_iff_exists.2 ⟨raw, hraw⟩, h.boot n hn⟩
    · cases hbc
  | stageBootConfig n =>
    exact .inl ⟨h.boot n (mem_actions_classify.1 hasked).1, h.named n hasked⟩

/-- **A host that is allowed what is asked for** completes the round. -/
theorem Able.completes (time : String) (h : Able host node img) :
    Completes host time node img := by
  refine executeRepairs_of_allowed (fun a ha => h.allowed ha) (fun a ha haction => ?_)
    (planRepairs_nodup _) planRepairs_order
  have hasked := (mem_planRepairs.1 ha).1
  rcases haction with rfl | rfl
  · exact h.own (.inl hasked)
  · exact h.own (.inr hasked)

/-! ## Cards that are not examined -/

/-- On a card that is not examined the only repair is of the configuration. -/
theorem asked_unexamined (h : ¬ Examines host img)
    (ha : a ∈ issueActions (checkIssues host node img)) (hstage : a.isStage = false) :
    a = .deleteBootConfig := by
  cases a with
  | deleteBootConfig => rfl
  | stageBootConfig n => cases hstage
  | _ => exact absurd (examines_of_asked ha nofun) h

/-- A card that is examined after a round was examined before. -/
theorem Examines.of_round (h : Examines host (repairRound host time node img)) :
    Examines host img := by
  refine ⟨h.1, h.2.1, ?_⟩
  have hsetup := h.2.2
  rwa [round_keys (k := .setupComplete) (by decide)] at hsetup

/-- On a card that is not examined a host that stages nothing is allowed what is asked for. -/
theorem able_unexamined (hboot : ∀ n, node = some n → host.writesBoot = true)
    (h : ¬ Examines host img)
    (hstage : ∀ n, .stageBootConfig n ∉ issueActions (checkIssues host node img)) :
    Able host node img := by
  refine ⟨hboot, fun hasked => ?_, fun hasked => ?_, fun hasked => ?_,
    fun n hasked => absurd hasked (hstage n)⟩
  · rcases hasked with hasked | hasked
    · cases asked_unexamined h hasked rfl
    · cases asked_unexamined h hasked rfl
  · cases asked_unexamined h hasked rfl
  · cases asked_unexamined h hasked rfl

/-- One round at most, and nothing is left on a card that is not examined. -/
theorem unexamined_converges [LawfulJsonText]
    (hboot : ∀ n, node = some n → host.writesBoot = true) (h : ¬ Examines host img)
    (hdelete : .deleteBootConfig ∈ issueActions (checkIssues host node img)) :
    NoHostDirect (checkIssues host node (repairRound host time node img)) := by
  refine noHostDirect_iff.2 fun a ha => eq_true_of_ne_false fun hstage => ?_
  obtain rfl := asked_unexamined (fun h' => h h'.of_round) ha hstage
  have hdone : .deleteBootConfig ∈ issueActions (checkIssues host node img) →
      (∀ n, .stageBootConfig n ∉ issueActions (checkIssues host node img)) →
        Completes host time node img :=
    fun _ hnone => (able_unexamined hboot h hnone).completes time
  rcases deleted_again hboot hdone ha with ⟨n, hasked, hsuperseded⟩ | ⟨hnot, -⟩
  · obtain ⟨-, hnotCapable | ⟨-, -, hnone⟩ | ⟨hexamined, -⟩⟩ := mem_actions_classify.1 hasked
    · -- The partitions are not mounted after the round either, and no floor covers anything.
      have hmounted : ¬ (host.mounts.keys = true ∧ host.mounts.data = true) := by
        rintro ⟨hkeys, hdata⟩
        rw [(gather_mounted hkeys hdata img).1] at hnotCapable
        cases hnotCapable
      have hinspection := (gather_unmounted hmounted (repairRound host time node img)).1
      rw [bootConfigSuperseded, decide_eq_false hinspection, Bool.false_and, Bool.false_and,
        Bool.and_false] at hsuperseded
      cases hsuperseded
    · obtain ⟨_, bc, -, hbc, -⟩ := mem_actions_delete.1 hdelete
      rw [gather_bootConfig, hbc] at hnone
      cases hnone
    · exact h (examined_iff.1 hexamined)
  · exact hnot hdelete

/-! ## Cards that are examined -/

/-- Of the examined partitions nothing is to be repaired but with a configuration. -/
structure Settled (host : CheckHost) (node : Option ChainInfo) (img : CardImage) : Prop where
  examines : Examines host img
  watermarks : WatermarksOwned img
  panicLog : PanicLogSmall img
  chainInfo : (readChainInfoState img).Settled node

/-- On a settled card the only repair is of the configuration. -/
theorem Settled.asked (h : Settled host node img)
    (ha : a ∈ issueActions (checkIssues host node img)) (hstage : a.isStage = false) :
    a = .deleteBootConfig := by
  obtain ⟨hwrite, hchown, hchmod⟩ := mem_actions_chain node h.examines
  cases a with
  | chownWatermarks pkh =>
    obtain ⟨-, hpkh, hdir, hnot⟩ := mem_actions_chownWatermarks.1 ha
    exact absurd (h.watermarks pkh hpkh hdir) hnot
  | truncatePanicLog => exact absurd h.panicLog (mem_actions_truncate.1 ha).2
  | writeChainInfo =>
    obtain ⟨n, hn, houtdated⟩ := hwrite.1 ha
    exact absurd houtdated (h.chainInfo.current n hn)
  | chownChainInfo => exact absurd (hchown.1 ha) h.chainInfo.owned
  | chmodChainInfo => exact absurd (hchmod.1 ha) h.chainInfo.closed
  | deleteBootConfig => rfl
  | stageBootConfig n => cases hstage

/-- A round on a settled card changes nothing but the configuration. -/
theorem Settled.round_same (time : String) (h : Settled host node img) :
    readChainInfoState (repairRound host time node img) = readChainInfoState img ∧
      (repairRound host time node img).dir = img.dir ∧
        (repairRound host time node img).records = img.records := by
  have hboot : ∀ b ∈ issueActions (checkIssues host node img), b.partition = .boot := by
    intro b hb
    cases hstage : b.isStage with
    | false =>
      rw [h.asked hb hstage]
      rfl
    | true =>
      cases b with
      | stageBootConfig n => rfl
      | _ => cases hstage
  have hkeys : ∀ b ∈ issueActions (checkIssues host node img), b.partition ≠ .keys := by
    intro b hb hkeys
    cases (hboot b hb).symm.trans hkeys
  have hdata : ∀ pkh, .chownWatermarks pkh ∉ issueActions (checkIssues host node img) := by
    intro pkh hpkh
    cases hboot _ hpkh
  refine ⟨?_, round_records hdata⟩
  rw [readChainInfoState, round_chainInfo hkeys]
  rfl

/-- A host that may write the boot partition is allowed what a settled card asks for. -/
theorem Settled.able (h : Settled host node img)
    (hboot : ∀ n, node = some n → host.writesBoot = true)
    (hnamed : ∀ n, node = some n → n.name ≠ "" ∧ n.id ≠ "") : Able host node img := by
  refine ⟨hboot, fun hasked => ?_, fun hasked => ?_, fun hasked => ?_,
    fun n hasked => hnamed n (mem_actions_classify.1 hasked).1⟩
  · rcases hasked with hasked | hasked
    · cases h.asked hasked rfl
    · cases h.asked hasked rfl
  · cases h.asked hasked rfl
  · cases h.asked hasked rfl

/-- A card that is settled stays so over a round that completes. -/
theorem Settled.round (h : Settled host node img) (hdone : Completes host time node img) :
    Settled host node (repairRound host time node img) where
  examines := h.examines.round
  watermarks := round_watermarksOwned h.examines hdone
  panicLog := round_panicLogSmall h.examines hdone
  chainInfo := (h.round_same time).1.symm ▸ h.chainInfo

/-- What supersedes a configuration is the same after a round on a settled card. -/
theorem Settled.superseded_round (h : Settled host node img) (nodeId : String)
    (bc : BootConfigState) :
    bootConfigSuperseded (gatherCardState host.mounts (repairRound host time node img)) nodeId bc =
      bootConfigSuperseded (gatherCardState host.mounts img) nodeId bc := by
  obtain ⟨hchain, hdir, hrecords⟩ := h.round_same time
  obtain ⟨hinspected, -, hinfo, hwatermarks, -⟩ :=
    gather_mounted h.examines.1 h.examines.2.1 img
  obtain ⟨hinspected', -, hinfo', hwatermarks', -⟩ :=
    gather_mounted h.examines.1 h.examines.2.1 (repairRound host time node img)
  have hfile : readWatermarkFile (repairRound host time node img) = readWatermarkFile img := by
    funext pkh t
    simp only [readWatermarkFile, hrecords]
  have hkey : readKeyWatermarks (repairRound host time node img) = readKeyWatermarks img := by
    funext pkh
    simp only [readKeyWatermarks, hdir, hfile]
  simp only [bootConfigSuperseded, hinspected, hinspected', hinfo, hinfo', hchain, hwatermarks,
    hwatermarks', round_cardPkhs, hkey]

omit [Blake3] [JsonText] in
/-- A configuration that a fault of the watermarks asks for is not superseded. -/
theorem KeyWatermarks.Faulty.not_superseded {state : CardState} {key : KeyWatermarks}
    {n : ChainInfo} {seedsPending : Bool} (hkey : key ∈ state.watermarks)
    (hfiles : key.dirPresent = false → key.files = []) (h : key.Faulty n seedsPending)
    (nodeId chainId : String) :
    bootConfigSuperseded state nodeId ⟨chainId, n.level⟩ = false := by
  refine Bool.eq_false_iff.2 fun hsuperseded => ?_
  rw [bootConfigSuperseded, Bool.and_eq_true, Bool.and_eq_true, Bool.and_eq_true,
    List.all_eq_true] at hsuperseded
  have hcovered := hsuperseded.2.2 key hkey
  rw [Bool.and_eq_true, List.all_eq_true] at hcovered
  obtain ⟨hsome, hcovered⟩ := hcovered
  have hlevel : ∀ f ∈ key.files, ∃ level, f.level? = some level ∧ n.level ≤ level := by
    intro f hf
    have hvalid := hcovered f hf
    rw [WatermarkFile.level?]
    cases hstatus : f.status with
    | valid level =>
      rw [hstatus] at hvalid
      exact ⟨level, rfl, of_decide_eq_true hvalid⟩
    | _ =>
      rw [hstatus] at hvalid
      cases hvalid
  rcases h with ⟨hdir, -⟩ | ⟨-, ⟨f, hf, hnone⟩ | ⟨level, hmin, hbehind⟩⟩
  · rw [hfiles hdir] at hsome
    cases hsome
  · obtain ⟨level, hsome, -⟩ := hlevel f hf
    cases hnone.symm.trans hsome
  · obtain ⟨f, hf, hflevel⟩ := List.mem_filterMap.1 (List.min?_mem hmin)
    obtain ⟨level', hsome, hle⟩ := hlevel f hf
    cases hflevel.symm.trans hsome
    have hzero : saturatingSub n.level level = 0 := by
      rw [saturatingSub]
      split
      · next h => rw [UInt32.le_antisymm h hle, UInt32.sub_self]
      · rfl
    rw [floorSignificantlyBehind, hzero] at hbehind
    exact UInt32.not_lt_zero (of_decide_eq_true hbehind)

/-- **A round on a settled card** leaves nothing for the host. -/
theorem Settled.round_noHostDirect [LawfulJsonText] (h : Settled host node img)
    (hboot : ∀ n, node = some n → host.writesBoot = true)
    (hnamed : ∀ n, node = some n → n.name ≠ "" ∧ n.id ≠ "") :
    NoHostDirect (checkIssues host node (repairRound host time node img)) := by
  have hdone := (h.able hboot hnamed).completes time
  refine noHostDirect_iff.2 fun a ha => eq_true_of_ne_false fun hstage => ?_
  obtain rfl := (h.round hdone).asked ha hstage
  obtain ⟨hinspected, hsetup, -, hwatermarks, -⟩ :=
    gather_mounted h.examines.1 h.examines.2.1 img
  rcases deleted_again hboot (fun _ _ => hdone) ha with
    ⟨n, hasked, hsuperseded⟩ | ⟨hnot, hnostage⟩
  · rw [h.superseded_round] at hsuperseded
    obtain ⟨-, hnotCapable | ⟨-, hincomplete, -⟩ | ⟨-, key, hkey, hfaulty⟩⟩ :=
      mem_actions_classify.1 hasked
    · cases hinspected.symm.trans hnotCapable
    · rw [hsetup, h.examines.2.2] at hincomplete
      cases hincomplete
    · have hfiles : key.dirPresent = false → key.files = [] := by
        rw [hwatermarks] at hkey
        obtain ⟨pkh, -, rfl⟩ := List.mem_map.1 hkey
        intro hdir
        exact if_neg (Bool.eq_false_iff.1 hdir)
      rw [hfaulty.not_superseded hkey hfiles] at hsuperseded
      cases hsuperseded
  · -- Nothing was done, so what is to be deleted was to be deleted before.
    have hboot : (repairRound host time node img).boot = img.boot := by
      refine round_boot fun b hb hpartition => ?_
      cases b with
      | deleteBootConfig => exact hnot hb
      | stageBootConfig n => exact hnostage n hb
      | _ => cases hpartition
    obtain ⟨n, bc, hn, hbc, hstale⟩ := mem_actions_delete.1 ha
    rw [gatherBootConfig_congr hboot] at hbc
    rw [h.superseded_round] at hstale
    exact hnot (mem_actions_delete.2 ⟨n, bc, hn, hbc, hstale⟩)

/-! ## A host that owns what the device owns -/

/-- The panic log is over its cap, and the host may not write it. -/
def LogLocked (host : CheckHost) (img : CardImage) : Prop :=
  ∃ f, img.panicLog = some f ∧ panicLogMaxBytes < f.content.length ∧ host.writes f = false

/-- A panic log that is asked to be truncated is the host's to write, unless it is locked. -/
theorem writes_of_asked (h : ¬ LogLocked host img)
    (hasked : .truncatePanicLog ∈ issueActions (checkIssues host node img)) :
    ∃ f, img.panicLog = some f ∧ host.writes f = true := by
  have hlarge := (mem_actions_truncate.1 hasked).2
  rw [PanicLogSmall] at hlarge
  push Not at hlarge
  obtain ⟨f, hf, hlt⟩ := hlarge
  exact ⟨f, hf, eq_true_of_ne_false fun hwrites => h ⟨f, hf, hlt, hwrites⟩⟩

/-- A panic log that is not locked is not locked after a round. -/
theorem round_not_locked (h : ¬ LogLocked host img) :
    ¬ LogLocked host (repairRound host time node img) := by
  refine round_keeps (P := fun img' => ¬ LogLocked host img') (fun b _ img' hlog _ => ?_) h
  cases b with
  | truncatePanicLog =>
    rintro ⟨f, hf, hlarge, -⟩
    rw [RepairAction.done_effect host time node .truncatePanicLog img' f hf] at hlarge
    exact Nat.not_lt_zero _ hlarge
  | _ => exact hlog

/-- The host is allowed what the examined partitions may ask of it, and reads back what it
writes. -/
structure Fit (host : CheckHost) (node : Option ChainInfo) (img : CardImage) : Prop where
  own : host.owns deviceOwner = true
  id : ∀ n, node = some n → n.id ≠ ""
  create : ∀ n, node = some n → img.keys .chainInfo = none → host.creates img = true
  foreign : ∀ n f id, node = some n → img.keys .chainInfo = some f → f.chainId = some id →
    id ≠ n.id → host.owns f.owner = true
  log : ¬ LogLocked host img

omit [Blake3] in
/-- A host that is fit may write the chain information when it is asked for. -/
theorem Fit.mayWrite {n : ChainInfo} (h : Fit host (some n) img)
    (houtdated : (readChainInfoState img).Outdated n) : host.mayWriteChainInfo img = true := by
  unfold CheckHost.mayWriteChainInfo
  cases hfile : img.keys .chainInfo with
  | none => exact h.create n rfl hfile
  | some f =>
    rw [readChainInfoState_some hfile] at houtdated
    cases hid : f.chainId with
    | none =>
      rw [hid] at houtdated
      have howner : f.owner = deviceOwner := of_decide_eq_true houtdated
      dsimp only
      rw [howner]
      exact h.own
    | some id =>
      rw [hid] at houtdated
      exact h.foreign n f id rfl hfile hid (Ne.symm houtdated)

/-- A host that is fit is allowed what is asked for. -/
theorem Fit.able (h : Fit host node img) (hexamines : Examines host img)
    (hboot : ∀ n, node = some n → host.writesBoot = true)
    (hname : ∀ n, node = some n → n.id ≠ "" → n.name ≠ "") :
    Able host node img := by
  refine ⟨hboot, fun _ => h.own, fun hasked => ?_, writes_of_asked h.log, fun n hasked => ?_⟩
  · obtain ⟨n, rfl, houtdated⟩ := (mem_actions_chain _ hexamines).1.1 hasked
    exact h.mayWrite houtdated
  · have hn := (mem_actions_classify.1 hasked).1
    exact ⟨hname n hn (h.id n hn), h.id n hn⟩

/-- The root of the keys partition stays as it is. -/
theorem round_keysRoot : (repairRound host time node img).keysRoot = img.keysRoot :=
  round_keeps (P := fun img' => img'.keysRoot = img.keysRoot)
    (fun b _ _ h _ => by cases b <;> exact h) rfl

/-- The chain information that there is stays, in some form. -/
theorem round_chainInfo_isSome (h : (img.keys .chainInfo).isSome = true) :
    ((repairRound host time node img).keys .chainInfo).isSome = true :=
  round_keeps (P := fun img' => (img'.keys .chainInfo).isSome = true)
    (fun _ _ _ hsome _ => RepairAction.effect_chainInfo_isSome hsome) h

/-- A host that is fit stays so in a round that is completed. -/
theorem Fit.round (h : Fit host node img) (hexamines : Examines host img)
    (hdone : Completes host time node img) : Fit host node (repairRound host time node img) where
  own := h.own
  id := h.id
  create n hn hnone := by
    have hbefore : img.keys .chainInfo = none := by
      refine Option.not_isSome_iff_eq_none.1 fun hsome => ?_
      have hafter := @round_chainInfo_isSome _ _ host time node img hsome
      rw [hnone] at hafter
      cases hafter
    rw [CheckHost.creates, round_keysRoot]
    exact h.create n hn hbefore
  foreign n f id _ hf _ _ := by
    rw [round_chainInfoOwned hexamines hdone f hf]
    exact h.own
  log := round_not_locked h.log

/-- **Two rounds settle a card** for a host that is fit. -/
theorem Fit.settles [LawfulJsonText] {times : Nat → String} (h : Fit host node img)
    (hexamines : Examines host img) (hread : img.ReadBy host)
    (hboot : ∀ n, node = some n → host.writesBoot = true)
    (hname : ∀ n, node = some n → n.id ≠ "" → n.name ≠ "") :
    Settled host node (repairRounds host times node 2 img) := by
  have hdone : Completes host (times 0) node img :=
    (h.able hexamines hboot hname).completes _
  have hexamines' : Examines host (repairRound host (times 0) node img) := hexamines.round
  have hfit : Fit host node (repairRound host (times 0) node img) := h.round hexamines hdone
  have hdone' : Completes host (times 1) node (repairRound host (times 0) node img) :=
    (hfit.able hexamines' hboot hname).completes _
  have hback : ReadsBack host node := fun n hn => ⟨h.id n hn, host.reads_of_owns h.own⟩
  exact {
    examines := hexamines'.round
    watermarks := round_watermarksOwned hexamines' hdone'
    panicLog := round_panicLogSmall hexamines' hdone'
    chainInfo := round_chainSettled hexamines' hread.round hback
      (round_chainInfoOwned hexamines hdone) hdone' }

/-! ## A host that does not, without a node -/

/-- Without a node, of the chain information the owner and the mode are repaired. -/
theorem asked_without_node (ha : a ∈ issueActions (checkIssues host none img)) :
    a = .chownChainInfo ∨ a = .chmodChainInfo ∨ a.partition = .data := by
  have hneeded := mem_actions_classify.1 ha
  cases a with
  | writeChainInfo =>
    obtain ⟨-, n, hn, -⟩ := hneeded
    cases hn
  | deleteBootConfig =>
    obtain ⟨n, bc, hn, -⟩ := hneeded
    cases hn
  | stageBootConfig n => cases hneeded.1
  | chownChainInfo => exact .inl rfl
  | chmodChainInfo => exact .inr (.inl rfl)
  | _ => exact .inr (.inr rfl)

/-- A chain information that was chowned stays so, where the host does not own what the device
owns. -/
theorem effect_chowned {f : CardFile} (hown : host.owns deviceOwner = false)
    (hfile : img.keys .chainInfo = some f) (howner : f.owner = deviceOwner)
    (ha : a ∈ planRepairs (checkIssues host none img'))
    (hallowed : a.Allowed host none img ∨ a.isStage = true) :
    (a.effect host time none img).keys .chainInfo = some f := by
  rcases asked_without_node (mem_planRepairs.1 ha).1 with rfl | rfl | hdata
  · rw [RepairAction.effect, CardImage.withChainInfo_chainInfo, hfile, Option.map_some,
      host.chown_of_owner howner]
  · rcases hallowed with ⟨f', hf', howns⟩ | hstage
    · obtain rfl := Option.some.inj (hfile.symm.trans hf')
      rw [howner, hown] at howns
      cases howns
    · cases hstage
  · cases a with
    | chownWatermarks pkh => exact hfile
    | truncatePanicLog => exact hfile
    | _ => cases hdata

/-- **Without a node** a host that does not own what the device owns chowns the chain information,
and does nothing else to it. -/
theorem round_chowned (hexamines : Examines host img) (hown : host.owns deviceOwner = false) :
    (repairRound host time none img).keys .chainInfo =
      (img.keys .chainInfo).map host.chown := by
  cases hfile : img.keys .chainInfo with
  | none =>
    refine round_keeps (P := fun img' => img'.keys .chainInfo = none) (fun b hb img' hnone _ => ?_)
      hfile
    rcases asked_without_node (mem_planRepairs.1 hb).1 with rfl | rfl | hdata
    · rw [RepairAction.effect, CardImage.withChainInfo_chainInfo, hnone, Option.map_none]
    · rw [RepairAction.effect, CardImage.withChainInfo_chainInfo, hnone, Option.map_none]
    · cases b with
      | chownWatermarks pkh => exact hnone
      | truncatePanicLog => exact hnone
      | _ => cases hdata
  | some f =>
    rw [Option.map_some]
    by_cases howner : f.owner = deviceOwner
    · rw [host.chown_of_owner howner]
      exact round_keeps (P := fun img' => img'.keys .chainInfo = some f)
        (fun b hb _ hf hallowed => effect_chowned hown hf howner hb hallowed) hfile
    · -- The plan is to chown it first.
      have hasked : .chownChainInfo ∈ issueActions (checkIssues host none img) :=
        (mem_actions_chain none hexamines).2.1.2
          (drifted_iff.2 fun howned => howner (howned f hfile))
      have hkind := fun b (hb : b ∈ planRepairs (checkIssues host none img)) =>
        asked_without_node (mem_planRepairs.1 hb).1
      have hwrite : .writeChainInfo ∉ issueActions (checkIssues host none img) := by
        intro hwrite
        rcases asked_without_node hwrite with h | h | h <;> cases h
      have hplanned : .chownChainInfo ∈ planRepairs (checkIssues host none img) :=
        mem_planRepairs.2 ⟨hasked, Bool.eq_false_iff.2 fun h =>
          hwrite (List.contains_iff_mem.1 h)⟩
      obtain ⟨rest, hrest⟩ := @executionOrder_chown
        (planRepairs (checkIssues host none img)) (fun b hb => by
          rcases hkind b hb with rfl | rfl | hdata
          · rfl
          · rfl
          · cases b <;> first | rfl | cases hdata)
        (fun b hb hkeys => by
          rcases hkind b hb with h | h | hdata
          · exact .inl h
          · exact .inr h
          · rw [hdata] at hkeys
            cases hkeys)
        planRepairs_order hplanned
      refine executeRepairs_first (P := fun img' => img'.keys .chainInfo = some (host.chown f))
        hrest (Option.isSome_iff_exists.2 ⟨f, hfile⟩) ?_ fun b hb _ hf hallowed =>
          effect_chowned hown hf (host.owner_chown f) hb hallowed
      rw [RepairAction.effect, CardImage.withChainInfo_chainInfo, hfile, Option.map_some]

/-! ## Repairs that are never made -/

/-- The chain information is out of the reach of the host. With a node: its chain has no id, or the
host does not own what the device owns and reads nothing of what it writes, or the file is missing
or of another chain and not the host's to write. Without one: the mode of the device's file is not
the host's to set. -/
def ChainInfoLocked (host : CheckHost) (node : Option ChainInfo) (img : CardImage) : Prop :=
  match node with
  | some n => n.id = "" ∨ host.owns deviceOwner = false ∨ host.mayWriteChainInfo img = false ∧
      ∀ f, img.keys .chainInfo = some f → ∃ id, f.chainId = some id ∧ id ≠ n.id
  | none => host.owns deviceOwner = false ∧ ∃ f, img.keys .chainInfo = some f ∧
      (host.chown f).chainId.isSome = true ∧ f.permissions ≠ chainInfoMode

/-- The host is asked for a repair that it is not allowed to make, or cannot read back. -/
def NeverRepaired (host : CheckHost) (node : Option ChainInfo) (img : CardImage) : Prop :=
  Examines host img ∧ (LogLocked host img ∨ ChainInfoLocked host node img)

/-- A host that may not write the panic log leaves it. -/
theorem LogLocked.round (h : LogLocked host img) :
    LogLocked host (repairRound host time node img) := by
  obtain ⟨f, hf, hlarge, hwrites⟩ := h
  refine ⟨f, ?_, hlarge, hwrites⟩
  refine round_keeps (P := fun img' => img'.panicLog = some f) (fun b _ img' hf' hallowed => ?_) hf
  cases b with
  | truncatePanicLog =>
    obtain ⟨f', hf'', hwrites'⟩ | hstage := hallowed
    · rw [Option.some.inj (hf''.symm.trans hf'), hwrites] at hwrites'
      cases hwrites'
    · cases hstage
  | _ => exact hf'

/-- A chain information that is to be written and cannot be stays as it is. -/
theorem round_not_written {n : ChainInfo} (hexamines : Examines host img)
    (houtdated : (readChainInfoState img).Outdated n) (hnot : host.mayWriteChainInfo img = false) :
    (repairRound host time (some n) img).keys .chainInfo = img.keys .chainInfo := by
  have hasked : .writeChainInfo ∈ issueActions (checkIssues host (some n) img) :=
    (mem_actions_chain _ hexamines).1.2 ⟨n, rfl, houtdated⟩
  have hkeep : ∀ img' : CardImage, img'.keysRoot = img.keysRoot →
      img'.keys .chainInfo = img.keys .chainInfo → host.mayWriteChainInfo img' = false := by
    intro img' hroot hsame
    rwa [CheckHost.mayWriteChainInfo, hsame, CheckHost.creates, hroot]
  refine (round_keeps (P := fun img' => img'.keysRoot = img.keysRoot ∧
    img'.keys .chainInfo = img.keys .chainInfo) (fun b hb img' hsame hallowed => ?_)
      ⟨rfl, rfl⟩).2
  obtain ⟨-, hkept⟩ := mem_planRepairs.1 hb
  cases b with
  | writeChainInfo =>
    obtain ⟨-, hmay⟩ | hstage := hallowed
    · rw [hkeep img' hsame.1 hsame.2] at hmay
      cases hmay
    · cases hstage
  -- The rewrite supersedes the repairs of owner and mode.
  | chmodChainInfo => exact absurd (List.contains_iff_mem.2 hasked) (Bool.eq_false_iff.1 hkept)
  | chownChainInfo => exact absurd (List.contains_iff_mem.2 hasked) (Bool.eq_false_iff.1 hkept)
  | _ => exact hsame

omit [Blake3] in
/-- A chain information that is missing, or of another chain, is to be written. -/
theorem outdated_of_foreign {n : ChainInfo}
    (h : ∀ f, img.keys .chainInfo = some f → ∃ id, f.chainId = some id ∧ id ≠ n.id) :
    (readChainInfoState img).Outdated n := by
  cases hfile : img.keys .chainInfo with
  | none =>
    rw [readChainInfoState_none hfile]
    trivial
  | some f =>
    obtain ⟨id, hid, hne⟩ := h f hfile
    rw [readChainInfoState_some hfile, hid]
    exact hne.symm

/-- A `chain_info.json` the user may not write is still so after a round. -/
theorem ChainInfoLocked.round (h : ChainInfoLocked host node img) (hexamines : Examines host img) :
    ChainInfoLocked host node (repairRound host time node img) := by
  cases node with
  | some n =>
    obtain hid | hown | ⟨hnot, hforeign⟩ := h
    · exact .inl hid
    · exact .inr (.inl hown)
    · have hsame := @round_not_written _ _ host time img n hexamines
        (outdated_of_foreign hforeign) hnot
      refine .inr (.inr ⟨?_, fun f hf => hforeign f (hsame ▸ hf)⟩)
      rwa [CheckHost.mayWriteChainInfo, hsame, CheckHost.creates, round_keysRoot]
  | none =>
    obtain ⟨hown, f, hf, hid, hmode⟩ := h
    have hchowned := @round_chowned _ _ host time img hexamines hown
    rw [hf] at hchowned
    refine ⟨hown, _, hchowned, ?_, ?_⟩
    · rwa [host.chown_of_owner (host.owner_chown f)]
    · rwa [host.permissions_chown]

/-- **A repair that is never made** is never made in the next round either. -/
theorem NeverRepaired.round (h : NeverRepaired host node img) :
    NeverRepaired host node (repairRound host time node img) :=
  ⟨h.1.round, h.2.imp LogLocked.round fun hlocked => hlocked.round h.1⟩

omit [Blake3] in
/-- Of a chain information out of its reach the host is asked for a repair. -/
theorem ChainInfoLocked.asked (h : ChainInfoLocked host node img) (hread : img.ReadBy host) :
    (∃ n, node = some n ∧ (readChainInfoState img).Outdated n) ∨
      (readChainInfoState img).Drifted ∨ (readChainInfoState img).Exposed := by
  cases node with
  | some n =>
    have hreachable : n.id = "" ∨ host.owns deviceOwner = false →
        (readChainInfoState img).Outdated n ∨ (readChainInfoState img).Drifted ∨
          (readChainInfoState img).Exposed := by
      intro hbad
      cases hfile : img.keys .chainInfo with
      | none =>
        rw [readChainInfoState_none hfile]
        exact .inl trivial
      | some f =>
        rw [readChainInfoState_some hfile]
        cases hid : f.chainId with
        | none =>
          cases howner : ownerOk (some f.owner) with
          | true => exact .inl howner
          | false => exact .inr (.inl howner)
        | some id =>
          obtain ⟨hreadable, hne⟩ := CardFile.chainId_some hid
          rcases hbad with hempty | hown
          · exact .inl fun hsame => hne (hsame.symm.trans hempty)
          · -- The file is read, so its owner or its mode is another one.
            by_cases howner : f.owner = deviceOwner
            · refine .inr (.inr fun hmode => ?_)
              rw [hread.keys .chainInfo f hfile, howner, hmode, host.reads_of_not_owns hown]
                at hreadable
              cases hreadable
            · exact .inr (.inl (decide_eq_false howner))
    obtain hid | hown | ⟨-, hforeign⟩ := h
    · exact (hreachable (.inl hid)).imp_left fun h => ⟨n, rfl, h⟩
    · exact (hreachable (.inr hown)).imp_left fun h => ⟨n, rfl, h⟩
    · exact .inl ⟨n, rfl, outdated_of_foreign hforeign⟩
  | none =>
    obtain ⟨-, f, hf, hid, hmode⟩ := h
    by_cases howner : f.owner = deviceOwner
    · rw [host.chown_of_owner howner] at hid
      obtain ⟨id, hid⟩ := Option.isSome_iff_exists.1 hid
      rw [readChainInfoState_some hf, hid]
      exact .inr (.inr hmode)
    · exact .inr (.inl (drifted_iff.2 fun howned => howner (howned f hf)))

/-- **The host is asked for a repair that is never made.** -/
theorem NeverRepaired.asked (h : NeverRepaired host node img) (hread : img.ReadBy host) :
    ¬ NoHostDirect (checkIssues host node img) := by
  intro hquiet
  have hall := noHostDirect_iff.1 hquiet
  obtain ⟨hexamines, hlog | hchain⟩ := h
  · obtain ⟨f, hf, hlarge, -⟩ := hlog
    cases hall _ (mem_actions_truncate.2 ⟨hexamines, fun hsmall =>
      absurd (hsmall f hf) (not_le.2 hlarge)⟩)
  · obtain ⟨hwrite, hchown, hchmod⟩ := mem_actions_chain node hexamines
    rcases hchain.asked hread with houtdated | hdrifted | hexposed
    · cases hall _ (hwrite.2 houtdated)
    · cases hall _ (hchown.2 hdrifted)
    · cases hall _ (hchmod.2 hexposed)

/-- A card the host can read stays so over any number of rounds. -/
theorem CardImage.ReadBy.rounds {times : Nat → String} (h : img.ReadBy host) :
    ∀ k, (repairRounds host times node k img).ReadBy host
  | 0 => h
  | k + 1 => (h.rounds k).round

/-- A card that no round repairs is not repaired by any number of them. -/
theorem NeverRepaired.rounds {times : Nat → String} (h : NeverRepaired host node img) :
    ∀ k, NeverRepaired host node (repairRounds host times node k img)
  | 0 => h
  | k + 1 => (h.rounds k).round

/-! ## Convergence -/

omit [Blake3] in
/-- A host that owns what the device owns is fit for a card, unless a repair is never made. -/
theorem fit_of_owns (hexamines : Examines host img) (hown : host.owns deviceOwner = true)
    (h : ¬ NeverRepaired host node img) : Fit host node img := by
  have hchain := fun hlocked => h ⟨hexamines, .inr hlocked⟩
  refine ⟨hown, ?_, ?_, ?_, fun hlocked => h ⟨hexamines, .inl hlocked⟩⟩
  · rintro n rfl hid
    exact hchain (.inl hid)
  · rintro n rfl hnone
    refine eq_true_of_ne_false fun hcreates => hchain (.inr (.inr ⟨?_, fun f hf => ?_⟩))
    · rwa [CheckHost.mayWriteChainInfo, hnone]
    · cases hnone.symm.trans hf
  · rintro n f id rfl hf hid hne
    refine eq_true_of_ne_false fun howns => hchain (.inr (.inr ⟨?_, fun f' hf' => ?_⟩))
    · rwa [CheckHost.mayWriteChainInfo, hf]
    · exact ⟨id, Option.some.inj (hf.symm.trans hf') ▸ hid, hne⟩

/-- **Two rounds settle a card without a node**, for a host that does not own what the device owns:
the first chowns the chain information, and the second does the rest. -/
theorem settles_without_node {times : Nat → String} (hexamines : Examines host img)
    (hown : host.owns deviceOwner = false) (h : ¬ NeverRepaired host none img) :
    Settled host none (repairRounds host times none 2 img) := by
  have hexamines' : Examines host (repairRound host (times 0) none img) := hexamines.round
  have hchowned := @round_chowned _ _ host (times 0) img hexamines hown
  have hchain : (readChainInfoState (repairRound host (times 0) none img)).Settled none := by
    refine ⟨nofun, ?_, fun hexposed => ?_⟩
    · rw [drifted_iff, not_not]
      intro f hf
      obtain ⟨f', -, rfl⟩ := Option.map_eq_some_iff.1 (hchowned.symm.trans hf)
      exact host.owner_chown f'
    · cases hfile : img.keys .chainInfo with
      | none =>
        rw [hfile] at hchowned
        rwa [readChainInfoState_none hchowned] at hexposed
      | some f =>
        rw [hfile] at hchowned
        rw [readChainInfoState_some hchowned] at hexposed
        cases hid : (host.chown f).chainId with
        | none => rwa [hid] at hexposed
        | some id =>
          rw [hid] at hexposed
          refine h ⟨hexamines, .inr ⟨hown, f, hfile, by rw [hid]; rfl, ?_⟩⟩
          rw [← host.permissions_chown]
          exact hexposed
  have hquiet : ∀ b ∈ issueActions (checkIssues host none
      (repairRound host (times 0) none img)), b.partition ≠ .keys := by
    obtain ⟨-, hchown, hchmod⟩ := mem_actions_chain none hexamines'
    intro b hb
    rcases asked_without_node hb with rfl | rfl | hdata
    · exact absurd (hchown.1 hb) hchain.owned
    · exact absurd (hchmod.1 hb) hchain.closed
    · rw [hdata]
      decide
  have hlog := @round_not_locked _ _ host (times 0) none img fun h' => h ⟨hexamines, .inl h'⟩
  have hable : Able host none (repairRound host (times 0) none img) := by
    refine ⟨nofun, fun hasked => ?_, fun hasked => absurd rfl (hquiet _ hasked),
      writes_of_asked hlog, fun n hasked => ?_⟩
    · rcases hasked with hasked | hasked
      · exact absurd rfl (hquiet _ hasked)
      · exact absurd rfl (hquiet _ hasked)
    · cases (mem_actions_classify.1 hasked).1
  have hdone := hable.completes (times 1)
  have hsame : readChainInfoState (repairRounds host times none 2 img) =
      readChainInfoState (repairRound host (times 0) none img) := by
    show readChainInfoState (repairRound host (times 1) none
      (repairRound host (times 0) none img)) = _
    rw [readChainInfoState, round_chainInfo hquiet]
    rfl
  exact {
    examines := hexamines'.round
    watermarks := round_watermarksOwned hexamines' hdone
    panicLog := round_panicLogSmall hexamines' hdone
    chainInfo := hsame ▸ hchain }

/-- A settled card has nothing for the host without a node. -/
theorem Settled.noHostDirect (h : Settled host none img) :
    NoHostDirect (checkIssues host none img) := by
  refine noHostDirect_iff.2 fun a ha => eq_true_of_ne_false fun hstage => ?_
  obtain rfl := h.asked ha hstage
  obtain ⟨n, bc, hn, -⟩ := mem_actions_delete.1 ha
  cases hn

/-- **The repairs converge**, in three rounds at most, exactly where the host is not asked for a
repair that it is not allowed to make or cannot read back. With a node the boot partition is the
host's to write, and the node's chain has a name when it has an id. -/
theorem repairs_converge_iff [LawfulJsonText] (host : CheckHost) (times : Nat → String)
    (node : Option ChainInfo) {img : CardImage} (h : img.ReadBy host)
    (hboot : ∀ n, node = some n → host.writesBoot = true)
    (hname : ∀ n, node = some n → n.id ≠ "" → n.name ≠ "") :
    RepairsConverge host times node img ↔ ¬ NeverRepaired host node img := by
  constructor
  · rintro ⟨⟨k, -, hquiet⟩, -⟩ hnever
    exact (hnever.rounds k).asked (h.rounds k) hquiet
  · intro hnever
    refine ⟨?_, fun k => round_sound host (times k) node _⟩
    by_cases hexamines : Examines host img
    · cases hown : host.owns deviceOwner with
      | true =>
        have hfit := fit_of_owns hexamines hown hnever
        refine ⟨3, le_rfl, (hfit.settles hexamines h hboot hname).round_noHostDirect hboot ?_⟩
        exact fun n hn => ⟨hname n hn (hfit.id n hn), hfit.id n hn⟩
      | false =>
        cases node with
        | some n => exact absurd ⟨hexamines, .inr (.inr (.inl hown))⟩ hnever
        | none =>
          exact ⟨2, by decide, (settles_without_node hexamines hown hnever).noHostDirect⟩
    by_cases hdelete : .deleteBootConfig ∈ issueActions (checkIssues host node img)
    · exact ⟨1, by decide, unexamined_converges hboot hexamines hdelete⟩
    · refine ⟨0, by decide, noHostDirect_iff.2 fun a ha => eq_true_of_ne_false fun hstage => ?_⟩
      obtain rfl := asked_unexamined hexamines ha hstage
      exact hdelete ha

end

/-! ### A host that is another user -/

/-- The host runs as a user that has neither the device's uid nor its gid. -/
def otherUser : CheckHost where
  mounts := .all
  uid := 1001
  gid := 1001
  groups := []
  writesBoot := true
  mountPoint _ := "/mnt"

/-- The host runs as root. -/
def rootUser : CheckHost := { otherUser with uid := 0, gid := 0 }

section

attribute [local instance] plainBlake3 plainJson plainJson_lawful

/-- A card after the first boot, with the chain information of the node and an owner. -/
def chainCard (host : CheckHost) (owner : Owner) : CardImage where
  boot := none
  keysRoot := (deviceOwner, 0o755)
  keys := fun
    | .setupComplete => some (host.file deviceOwner 0o444 [])
    | .chainInfo => some (host.file owner chainInfoMode (chainInfoBytes recordNode))
    | _ => none
  dir _ := none
  records _ _ := none
  logsDir := true
  panicLog := none
  contained _ _ := nofun

/-- The host can read the card of the examples. -/
theorem chainCard_readBy (host : CheckHost) (owner : Owner) :
    (chainCard host owner).ReadBy host := by
  refine ⟨fun k f hf => ?_, nofun⟩
  cases k with
  | setupComplete =>
    cases hf
    rfl
  | chainInfo =>
    cases hf
    rfl
  | secretKeysEnc => cases hf
  | publicKeyHashs => cases hf

/-- The host of root gives the chain information of another user to the device. -/
theorem repairs_converge_root : RepairsConverge rootUser (fun _ => "now") (some recordNode)
    (chainCard rootUser (1001, 1001)) := by
  refine (repairs_converge_iff _ _ _ (chainCard_readBy _ _) (fun _ _ => rfl) ?_).2 ?_
  · rintro _ ⟨⟩ -
    decide
  · rintro ⟨-, ⟨f, hf, -⟩ | hid | hown | ⟨hmay, -⟩⟩
    · cases hf
    · exact absurd hid (by decide)
    · cases hown
    · cases hmay

end

/-- A host that is another user does not read the device's chain information, and is not allowed to
write it. -/
theorem repairs_diverge : ¬∀ [Blake3] [JsonText] [LawfulJsonText] (host : CheckHost)
    (times : Nat → String) (node : Option ChainInfo) (img : CardImage), img.ReadBy host →
      host.writesBoot = true → (∀ n, node = some n → n.id ≠ "" → n.name ≠ "") →
        RepairsConverge host times node img := by
  intro hall
  let _ := plainBlake3
  let _ := plainJson
  let _ := plainJson_lawful
  have hread := chainCard_readBy otherUser deviceOwner
  obtain ⟨⟨k, -, hquiet⟩, -⟩ := hall otherUser (fun _ => "now") (some recordNode)
    (chainCard otherUser deviceOwner) hread rfl (by rintro _ ⟨⟩ -; decide)
  have hnever : NeverRepaired otherUser (some recordNode) (chainCard otherUser deviceOwner) :=
    ⟨⟨rfl, rfl, rfl⟩, .inr (.inr (.inl rfl))⟩
  exact (hnever.rounds k).asked (hread.rounds k) hquiet

end Russignol.Host
