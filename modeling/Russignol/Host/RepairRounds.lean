import Russignol.Host.RepairExecutor

/-!
# Repairing until nothing is left

The disk check in rounds: the card is read and classified, and the executor is given all that is
planned (`repairRound`). In each round everything that can be fixed is planned or done by a broader
action, and no planned action undoes another (`round_sound`). What a round leaves alone it leaves
alone also where the executor fails (`round_keeps`); what it brings about it does where it takes the
whole plan (`Completes`). `RepairsConverge` says that the rounds come to an end.
-/

namespace Russignol.Host

open Crypto EarlyExit

/-! ## Issues and actions -/

/-- Nothing is left that the host can repair directly. -/
def NoHostDirect (issues : List Issue) : Prop := ∀ i ∈ issues, i.remedy ≠ .hostDirect

/-- The remedy of an issue is the kind of its action. -/
structure Issue.Matches (i : Issue) : Prop where
  hostDirect : i.remedy = .hostDirect ↔ ∃ a, i.action = some a ∧ a.isStage = false
  fatStage : i.remedy = .fatStage ↔ ∃ chain, i.action = some (.stageBootConfig chain)

/-- An issue that the host repairs directly. -/
theorem Issue.Matches.direct {i : Issue} {a : RepairAction} (hremedy : i.remedy = .hostDirect)
    (haction : i.action = some a) (hstage : a.isStage = false) : i.Matches := by
  refine ⟨iff_of_true hremedy ⟨a, haction, hstage⟩, iff_of_false ?_ ?_⟩
  · rw [hremedy]
    exact nofun
  · rintro ⟨chain, h⟩
    rw [haction] at h
    cases h
    cases hstage

/-- An issue that a staged configuration repairs. -/
theorem Issue.Matches.stage {i : Issue} {chain : ChainInfo} (hremedy : i.remedy = .fatStage)
    (haction : i.action = some (.stageBootConfig chain)) : i.Matches := by
  refine ⟨iff_of_false ?_ ?_, iff_of_true hremedy ⟨chain, haction⟩⟩
  · rw [hremedy]
    exact nofun
  · rintro ⟨a, h, hstage⟩
    rw [haction] at h
    cases h
    cases hstage

/-- An issue that is not repaired. -/
theorem Issue.Matches.none {i : Issue} (hremedy : i.remedy.isFixable = false)
    (haction : i.action = .none) : i.Matches := by
  refine ⟨iff_of_false (fun h => ?_) ?_, iff_of_false (fun h => ?_) ?_⟩
  · rw [h] at hremedy
    cases hremedy
  · rintro ⟨a, h, -⟩
    rw [haction] at h
    cases h
  · rw [h] at hremedy
    cases hremedy
  · rintro ⟨chain, h⟩
    rw [haction] at h
    cases h

/-- Every remedy of some issues is the kind of its action. -/
def AllMatch (issues : List Issue) : Prop := ∀ i ∈ issues, i.Matches

section

variable {state : CardState} {node : Option ChainInfo}

/-- Without issues there is nothing to match. -/
theorem AllMatch.nil : AllMatch [] := fun _ h => absurd h List.not_mem_nil

/-- The issues of two checks match where those of each do. -/
theorem AllMatch.append {issues issues' : List Issue} (h : AllMatch issues)
    (h' : AllMatch issues') : AllMatch (issues ++ issues') :=
  fun i hi => (List.mem_append.1 hi).elim (h i) (h' i)

/-- An issue that matches may stand in front. -/
theorem AllMatch.cons {i : Issue} {issues : List Issue} (hi : i.Matches) (h : AllMatch issues) :
    AllMatch (i :: issues) :=
  List.forall_mem_cons.2 ⟨hi, h⟩

/-- A single issue that matches. -/
theorem AllMatch.one {i : Issue} (hi : i.Matches) : AllMatch [i] := .cons hi .nil

/-- The issues of a check over a list match where those of every element do. -/
theorem AllMatch.flatMap {α : Type} {l : List α} {f : α → List Issue}
    (h : ∀ a, AllMatch (f a)) : AllMatch (l.flatMap f) := by
  intro i hi
  obtain ⟨a, -, hi⟩ := List.mem_flatMap.1 hi
  exact h a i hi

/-- An issue that is there under a condition. -/
theorem AllMatch.ite {p : Prop} [Decidable p] {i : Issue} (hi : i.Matches) :
    AllMatch (if p then [i] else []) := by
  split
  · exact .one hi
  · exact .nil

/-- A fault of the watermarks: staged for, with a node. -/
theorem matches_staged {i : Issue} (hremedy : i.remedy = stagedRemedy node)
    (haction : i.action = stageAction node) : i.Matches := by
  cases node with
  | none => exact .none (by rw [hremedy]; rfl) haction
  | some n => exact .stage hremedy haction

/-- A fault of the chain information: rewritten, with a node. -/
theorem matches_written {i : Issue} (hremedy : i.remedy = nodeBackedRemedy node)
    (haction : i.action = if node.isSome then some .writeChainInfo else none) : i.Matches := by
  cases node with
  | none => exact .none (by rw [hremedy]; rfl) haction
  | some n => exact .direct hremedy haction rfl

/-- The issues of `chain_info.json` match their actions. -/
theorem classifyChainInfo_matches : AllMatch (classifyChainInfo state node) := by
  have howner : ∀ owner, AllMatch
      (if !ownerOk owner then [chainInfoOwnership owner] else []) :=
    fun owner => .ite (.direct rfl rfl rfl)
  unfold classifyChainInfo
  cases state.chainInfo with
  | missing => exact .one (matches_written rfl rfl)
  | unreadable owner mode =>
    dsimp only
    split
    · exact .one (.direct rfl rfl rfl)
    · exact .one (matches_written rfl rfl)
  | present id mode owner =>
    refine .append (.append ?_ (howner owner)) ?_
    · unfold classifyChainId
      cases node with
      | none => exact .one (.none rfl rfl)
      | some n => exact .ite (.direct rfl rfl rfl)
    · cases mode with
      | none => exact .nil
      | some m => exact .ite (.direct rfl rfl rfl)

/-- The issues of the marks match their actions. -/
theorem classifyWatermarks_matches : AllMatch (classifyWatermarks state node) := by
  refine .append (.flatMap fun key => ?_) (.ite (.none rfl rfl))
  unfold classifyKeyWatermarks
  split
  · exact .ite (matches_staged rfl rfl)
  · refine .append (.append (.flatMap fun file => ?_) ?_) (.ite (.direct rfl rfl rfl))
    · unfold classifyWatermarkFile
      cases file.status with
      | valid level => exact .nil
      | _ => exact .one (matches_staged rfl rfl)
    · unfold classifyBelowHead
      split
      · next n _ _ => exact .ite (@matches_staged (some n) _ rfl rfl)
      · exact .nil

/-- **The remedy of an issue** is the kind of its action. -/
theorem classify_matches : AllMatch (classify state node) := by
  refine .append ?_ ?_
  · unfold classifyBootConfig
    cases state.bootConfig with
    | none => exact .nil
    | some bc =>
      cases node with
      | none => exact .one (.none rfl rfl)
      | some n =>
        dsimp only
        split
        · exact .one (.direct rfl rfl rfl)
        · split
          · exact .one (.direct rfl rfl rfl)
          · exact .one (.none rfl rfl)
  split
  · refine .cons (.none rfl rfl) ?_
    split
    · exact .one (.stage rfl rfl)
    · exact .nil
  refine .append (.ite (.none rfl rfl)) ?_
  split
  · exact .cons (.none rfl rfl) (.ite (matches_staged rfl rfl))
  refine .append (.append (.append ?_ classifyChainInfo_matches) classifyWatermarks_matches)
    (.append (.ite (.none rfl rfl)) ?_)
  · unfold classifyKeys
    cases state.keys with
    | missing => exact .one (.none rfl rfl)
    | unparseable => exact .one (.none rfl rfl)
    | parsed aliases pkhs =>
      intro i hi
      obtain ⟨role, -, rfl⟩ := List.mem_map.1 hi
      exact .none rfl rfl
  · cases state.panicLogSize with
    | none => exact .nil
    | some size => exact .ite (.direct rfl rfl rfl)

/-- Nothing is left for the host where every action is to stage a configuration. -/
theorem noHostDirect_iff :
    NoHostDirect (classify state node) ↔
      ∀ a ∈ issueActions (classify state node), a.isStage = true := by
  constructor
  · intro h a ha
    obtain ⟨i, hi, haction⟩ := List.mem_filterMap.1 ha
    by_contra hstage
    exact h i hi ((classify_matches i hi).hostDirect.2 ⟨a, haction, eq_false_of_ne_true hstage⟩)
  · intro h i hi hremedy
    obtain ⟨a, haction, hstage⟩ := (classify_matches i hi).hostDirect.1 hremedy
    exact Bool.false_ne_true (hstage.symm.trans (h a (List.mem_filterMap.2 ⟨i, hi, haction⟩)))

/-! ## When an action is asked for -/

/-- The partitions were read, and the first boot is over. -/
def CardState.Examined (state : CardState) : Prop :=
  state.inspection = .inspected ∧ state.setupComplete = true

/-- The directory or a record of a key is not the device's. -/
def KeyWatermarks.drifted (key : KeyWatermarks) : Bool :=
  !ownerOk key.dirOwner || key.files.any (!ownerOk ·.owner)

/-- The watermarks of a key are to be seeded again. -/
def KeyWatermarks.Faulty (key : KeyWatermarks) (n : ChainInfo) (seedsPending : Bool) : Prop :=
  key.dirPresent = false ∧ seedsPending = false ∨
    key.dirPresent = true ∧ ((∃ f ∈ key.files, f.level? = none) ∨
      ∃ level, key.minLevel = some level ∧ floorSignificantlyBehind level n = true)

/-- The chain information is to be written again. -/
def ChainInfoState.Outdated (n : ChainInfo) : ChainInfoState → Prop
  | .missing => True
  | .unreadable owner _ => ownerOk owner = true
  | .present id _ _ => n.id ≠ id

/-- The chain information is not the device's. -/
def ChainInfoState.Drifted : ChainInfoState → Prop
  | .missing => False
  | .unreadable owner _ | .present _ _ owner => ownerOk owner = false

/-- The chain information is read, with another mode than the device's. -/
def ChainInfoState.Exposed : ChainInfoState → Prop
  | .present _ (some mode) _ => mode ≠ chainInfoMode
  | _ => False

/-- An action is asked for. -/
def RepairAction.Needed (state : CardState) (node : Option ChainInfo) : RepairAction → Prop
  | .deleteBootConfig => ∃ n bc, node = some n ∧ state.bootConfig = some bc ∧
      (n.id ≠ bc.chainId ∨ bootConfigSuperseded state n.id bc = true)
  | .chownWatermarks pkh => state.Examined ∧ ∃ key ∈ state.watermarks, pkh = key.pkh ∧
      key.dirPresent = true ∧ key.drifted = true
  | .truncatePanicLog => state.Examined ∧
      ∃ size, state.panicLogSize = some size ∧ panicLogMaxBytes < size
  | .writeChainInfo => state.Examined ∧ ∃ n, node = some n ∧ state.chainInfo.Outdated n
  | .chownChainInfo => state.Examined ∧ state.chainInfo.Drifted
  | .chmodChainInfo => state.Examined ∧ state.chainInfo.Exposed
  | .stageBootConfig n => node = some n ∧ (state.inspection = .notCapable ∨
      state.inspection = .inspected ∧ state.setupComplete = false ∧ state.bootConfig = none ∨
      state.Examined ∧ ∃ key ∈ state.watermarks,
        key.Faulty n (stagedConfigSeedsWatermarks state node))

variable {a : RepairAction}

/-- The actions of two checks are those of each. -/
theorem issueActions_append (issues issues' : List Issue) :
    issueActions (issues ++ issues') = issueActions issues ++ issueActions issues' :=
  List.filterMap_append ..

/-- An action of a check over a list is one of an element. -/
theorem mem_issueActions_flatMap {α : Type} {l : List α} {f : α → List Issue} :
    a ∈ issueActions (l.flatMap f) ↔ ∃ x ∈ l, a ∈ issueActions (f x) := by
  rw [issueActions, List.filterMap_flatMap, List.mem_flatMap]
  rfl

/-- The action of an issue that is there under a condition. -/
theorem mem_issueActions_ite {p : Prop} [Decidable p] {i : Issue} :
    a ∈ issueActions (if p then [i] else []) ↔ p ∧ i.action = some a := by
  split
  · next h => simp [issueActions, h]
  · next h => simp [issueActions, h]

/-- The action of a single issue. -/
theorem mem_issueActions_one {i : Issue} : a ∈ issueActions [i] ↔ i.action = some a := by
  rw [issueActions, List.mem_filterMap]
  simp only [List.mem_singleton, exists_eq_left]

/-- An action is the one that was found, read the other way round. -/
theorem some_eq_iff {b : RepairAction} : some b = some a ↔ a = b := by
  rw [Option.some.injEq, eq_comm]

/-- A staged configuration is deleted where it is for another chain or superseded. -/
theorem mem_actions_bootConfig : a ∈ issueActions (classifyBootConfig state node) ↔
    a = .deleteBootConfig ∧ ∃ n bc, node = some n ∧ state.bootConfig = some bc ∧
      (n.id ≠ bc.chainId ∨ bootConfigSuperseded state n.id bc = true) := by
  unfold classifyBootConfig
  cases state.bootConfig with
  | none => exact iff_of_false List.not_mem_nil fun h => nomatch h
  | some bc =>
    cases node with
    | none => exact iff_of_false List.not_mem_nil fun h => nomatch h
    | some n =>
      have hsame : (∃ n' bc', some n = some n' ∧ some bc = some bc' ∧
          (n'.id ≠ bc'.chainId ∨ bootConfigSuperseded state n'.id bc' = true)) ↔
            (n.id ≠ bc.chainId ∨ bootConfigSuperseded state n.id bc = true) := by
        constructor
        · rintro ⟨_, _, ⟨⟩, ⟨⟩, h⟩
          exact h
        · exact fun h => ⟨n, bc, rfl, rfl, h⟩
      rw [hsame]
      dsimp only
      split
      · next hid =>
        rw [mem_issueActions_one, staleDelete, some_eq_iff]
        exact ⟨fun h => ⟨h, .inl hid⟩, fun h => h.1⟩
      · next hid =>
        split
        · next hsuperseded =>
          rw [mem_issueActions_one, staleDelete, some_eq_iff]
          exact ⟨fun h => ⟨h, .inr hsuperseded⟩, fun h => h.1⟩
        · next hsuperseded =>
          exact iff_of_false List.not_mem_nil fun h => (not_or.2 ⟨hid, hsuperseded⟩) h.2

/-- The panic log is truncated where it is too large. -/
theorem mem_actions_logs : a ∈ issueActions (classifyLogs state) ↔
    a = .truncatePanicLog ∧ ∃ size, state.panicLogSize = some size ∧ panicLogMaxBytes < size := by
  unfold classifyLogs
  rw [issueActions_append, List.mem_append, mem_issueActions_ite]
  cases state.panicLogSize with
  | none =>
    refine iff_of_false ?_ fun h => nomatch h
    rintro (⟨-, h⟩ | h)
    · cases h
    · exact List.not_mem_nil h
  | some size =>
    dsimp only
    rw [mem_issueActions_ite, some_eq_iff]
    constructor
    · rintro (⟨-, h⟩ | ⟨hsize, h⟩)
      · cases h
      · exact ⟨h, size, rfl, hsize⟩
    · rintro ⟨h, _, ⟨⟩, hsize⟩
      exact .inr ⟨hsize, h⟩

/-- The issue of an owner. -/
theorem mem_actions_owner {owner : Option Owner} :
    a ∈ issueActions (if !ownerOk owner then [chainInfoOwnership owner] else []) ↔
      a = .chownChainInfo ∧ ownerOk owner = false := by
  rw [mem_issueActions_ite, chainInfoOwnership, some_eq_iff, Bool.not_eq_true', and_comm]

/-- The issue of a chain information that is to be written. -/
theorem mem_actions_write {i : Issue}
    (haction : i.action = if node.isSome then some .writeChainInfo else none) :
    a ∈ issueActions [i] ↔ a = .writeChainInfo ∧ ∃ n, node = some n := by
  rw [mem_issueActions_one, haction]
  cases node with
  | none => exact iff_of_false nofun fun h => nomatch h
  | some n => exact some_eq_iff.trans ⟨fun h => ⟨h, n, rfl⟩, fun h => h.1⟩

/-- `chain_info.json` is rewritten where it names another chain than the node. -/
theorem mem_actions_chainId {id : String} : a ∈ issueActions (classifyChainId id node) ↔
    a = .writeChainInfo ∧ ∃ n, node = some n ∧ n.id ≠ id := by
  unfold classifyChainId
  cases node with
  | none => exact iff_of_false (fun h => nomatch mem_issueActions_one.1 h) fun h => nomatch h
  | some n =>
    dsimp only
    rw [mem_issueActions_ite, some_eq_iff]
    constructor
    · exact fun h => ⟨h.2, n, rfl, h.1⟩
    · rintro ⟨h, _, ⟨⟩, hid⟩
      exact ⟨hid, h⟩

/-- What is done about `chain_info.json`: rewritten, given to the device, or closed to others. -/
theorem mem_actions_chainInfo : a ∈ issueActions (classifyChainInfo state node) ↔
    a = .writeChainInfo ∧ (∃ n, node = some n ∧ state.chainInfo.Outdated n) ∨
      a = .chownChainInfo ∧ state.chainInfo.Drifted ∨
      a = .chmodChainInfo ∧ state.chainInfo.Exposed := by
  unfold classifyChainInfo
  cases state.chainInfo with
  | missing =>
    rw [mem_actions_write rfl]
    simp only [ChainInfoState.Outdated, ChainInfoState.Drifted, ChainInfoState.Exposed, and_true,
      and_false, or_false]
  | unreadable owner mode =>
    dsimp only
    cases howner : ownerOk owner with
    | false =>
      rw [Bool.not_false, if_pos rfl, mem_issueActions_one, chainInfoOwnership, some_eq_iff]
      simp only [ChainInfoState.Outdated, ChainInfoState.Drifted, ChainInfoState.Exposed, howner,
        Bool.false_eq_true, and_false, exists_false, and_true, or_false, false_or]
    | true =>
      rw [Bool.not_true, if_neg Bool.false_ne_true, mem_actions_write rfl]
      simp only [ChainInfoState.Outdated, ChainInfoState.Drifted, ChainInfoState.Exposed, howner,
        Bool.true_eq_false, and_false, and_true, or_false]
  | present id mode owner =>
    rw [issueActions_append, issueActions_append, List.mem_append, List.mem_append,
      mem_actions_chainId, mem_actions_owner, or_assoc]
    refine or_congr Iff.rfl (or_congr Iff.rfl ?_)
    cases mode with
    | none => exact iff_of_false List.not_mem_nil fun h => h.2
    | some m =>
      dsimp only
      rw [mem_issueActions_ite, some_eq_iff, and_comm]
      rfl

/-- Staging needs a node. -/
theorem stageAction_eq_some : stageAction node = some a ↔
    ∃ n, node = some n ∧ a = .stageBootConfig n := by
  cases node with
  | none => exact iff_of_false nofun fun h => nomatch h
  | some n =>
    rw [stageAction, Option.map_some, some_eq_iff]
    exact ⟨fun h => ⟨n, rfl, h⟩, fun ⟨_, hn, h⟩ => Option.some.inj hn ▸ h⟩

/-- A record that gives no level is answered by staging. -/
theorem mem_actions_file {pkh : String} {file : WatermarkFile} :
    a ∈ issueActions (classifyWatermarkFile pkh node file) ↔
      file.level? = none ∧ ∃ n, node = some n ∧ a = .stageBootConfig n := by
  unfold classifyWatermarkFile WatermarkFile.level?
  cases file.status with
  | valid level => exact iff_of_false List.not_mem_nil fun h => nomatch h.1
  | _ =>
    dsimp only
    rw [mem_issueActions_one, stageAction_eq_some, eq_self_iff_true, true_and]

/-- Marks far below the head are answered by staging. -/
theorem mem_actions_belowHead {key : KeyWatermarks} :
    a ∈ issueActions (classifyBelowHead key node) ↔ ∃ n, node = some n ∧
      a = .stageBootConfig n ∧ ∃ level, key.minLevel = some level ∧
        floorSignificantlyBehind level n = true := by
  unfold classifyBelowHead
  cases node with
  | none => exact iff_of_false List.not_mem_nil fun h => nomatch h
  | some n =>
    cases key.minLevel with
    | none => exact iff_of_false List.not_mem_nil fun ⟨_, _, _, _, h, _⟩ => nomatch h
    | some level =>
      dsimp only
      rw [mem_issueActions_ite, stageAction, Option.map_some, some_eq_iff]
      constructor
      · exact fun h => ⟨n, rfl, h.2, level, rfl, h.1⟩
      · rintro ⟨_, ⟨⟩, h, _, ⟨⟩, hbehind⟩
        exact ⟨hbehind, h⟩

/-- What is done for a key: its directory given to the device, or a floor staged. -/
theorem mem_actions_key {key : KeyWatermarks} {seedsPending : Bool} :
    a ∈ issueActions (classifyKeyWatermarks key node seedsPending) ↔
      a = .chownWatermarks key.pkh ∧ key.dirPresent = true ∧ key.drifted = true ∨
        ∃ n, node = some n ∧ a = .stageBootConfig n ∧ key.Faulty n seedsPending := by
  unfold classifyKeyWatermarks KeyWatermarks.Faulty
  cases hdir : key.dirPresent with
  | false =>
    rw [Bool.not_false, if_pos rfl, mem_issueActions_ite, stageAction_eq_some, Bool.not_eq_true']
    simp only [Bool.false_eq_true, false_and, and_false, false_or, or_false, true_and]
    exact ⟨fun ⟨hseeds, n, hn, h⟩ => ⟨n, hn, h, hseeds⟩, fun ⟨n, hn, h, hseeds⟩ =>
      ⟨hseeds, n, hn, h⟩⟩
  | true =>
    rw [Bool.not_true, if_neg Bool.false_ne_true, issueActions_append, issueActions_append,
      List.mem_append, List.mem_append, mem_issueActions_flatMap, mem_actions_belowHead,
      mem_issueActions_ite, some_eq_iff, or_comm]
    simp only [mem_actions_file, Bool.true_eq_false, false_and, false_or, true_and]
    refine or_congr and_comm ?_
    constructor
    · rintro (⟨f, hf, hlevel, n, hn, h⟩ | ⟨n, hn, h, hbehind⟩)
      · exact ⟨n, hn, h, .inl ⟨f, hf, hlevel⟩⟩
      · exact ⟨n, hn, h, .inr hbehind⟩
    · rintro ⟨n, hn, h, ⟨f, hf, hlevel⟩ | hbehind⟩
      · exact .inl ⟨f, hf, hlevel, n, hn, h⟩
      · exact .inr ⟨n, hn, h, hbehind⟩

/-- What is done for the marks is what is done for one of the keys. -/
theorem mem_actions_watermarks : a ∈ issueActions (classifyWatermarks state node) ↔
    ∃ key ∈ state.watermarks,
      a = .chownWatermarks key.pkh ∧ key.dirPresent = true ∧ key.drifted = true ∨
        ∃ n, node = some n ∧ a = .stageBootConfig n ∧
          key.Faulty n (stagedConfigSeedsWatermarks state node) := by
  unfold classifyWatermarks
  rw [issueActions_append, List.mem_append, mem_issueActions_flatMap]
  have hnone : ¬ a ∈ issueActions (if (state.watermarks.any fun key =>
      key.dirPresent && key.files.any (·.level?.isSome)) && node.isNone then [{
        kind := .watermarkNodeUnknown, severity := .info, partition := .data, remedy := .needsNode
        action := none
        message := "watermark floors cannot be compared to the node head without a node endpoint" }]
      else []) := fun h => nomatch (mem_issueActions_ite.1 h).2
  rw [or_iff_left hnone]
  simp only [mem_actions_key]

/-- A set of marks that is not complete is answered by staging, unless something is staged. -/
theorem mem_actions_incomplete : a ∈ issueActions (classifyIncomplete state node) ↔
    state.bootConfig = none ∧ ∃ n, node = some n ∧ a = .stageBootConfig n := by
  unfold classifyIncomplete
  rw [← List.singleton_append, issueActions_append, List.mem_append, mem_issueActions_one,
    mem_issueActions_ite, stageAction_eq_some, Option.isNone_iff_eq_none]
  exact or_iff_right nofun

/-- Marks that cannot be inspected are answered by staging. -/
theorem mem_actions_uninspected {inspection : Inspection} :
    a ∈ issueActions (classifyUninspected inspection node) ↔
      inspection = .notCapable ∧ ∃ n, node = some n ∧ a = .stageBootConfig n := by
  unfold classifyUninspected
  rw [← List.singleton_append, issueActions_append, List.mem_append, mem_issueActions_one,
    or_iff_right nofun]
  cases inspection with
  | notCapable =>
    cases node with
    | none => exact iff_of_false List.not_mem_nil fun h => nomatch h
    | some n =>
      dsimp only
      rw [mem_issueActions_one, some_eq_iff]
      exact ⟨fun h => ⟨rfl, n, rfl, h⟩, fun ⟨_, _, hn, h⟩ => Option.some.inj hn ▸ h⟩
  | inspected => exact iff_of_false List.not_mem_nil fun h => nomatch h.1
  | failed => exact iff_of_false List.not_mem_nil fun h => nomatch h.1

/-- No action is asked for the keys. -/
theorem not_mem_actions_keys : a ∉ issueActions (classifyKeys state) := by
  intro h
  obtain ⟨i, hi, haction⟩ := List.mem_filterMap.1 h
  unfold classifyKeys at hi
  cases hkeys : state.keys with
  | missing =>
    rw [hkeys] at hi
    rw [List.mem_singleton.1 hi] at haction
    cases haction
  | unparseable =>
    rw [hkeys] at hi
    rw [List.mem_singleton.1 hi] at haction
    cases haction
  | parsed aliases pkhs =>
    rw [hkeys] at hi
    obtain ⟨role, -, rfl⟩ := List.mem_map.1 hi
    cases haction

/-- The actions that a card that was examined asks for. -/
theorem mem_actions_examined (h : state.Examined) : a ∈ issueActions (classify state node) ↔
    a ∈ issueActions (classifyBootConfig state node) ∨
      a ∈ issueActions (classifyChainInfo state node) ∨
        a ∈ issueActions (classifyWatermarks state node) ∨
          a ∈ issueActions (classifyLogs state) := by
  have hmigration : ¬ a ∈ issueActions (classifyMigration state) :=
    fun h => nomatch (mem_issueActions_ite.1 h).2
  unfold classify
  rw [if_neg (not_not.2 h.1), h.2, Bool.not_true, if_neg Bool.false_ne_true]
  simp only [issueActions_append, List.mem_append, or_iff_right hmigration,
    or_iff_right not_mem_actions_keys, or_assoc]

/-- **When an action is asked for.** -/
theorem mem_actions_classify : a ∈ issueActions (classify state node) ↔ a.Needed state node := by
  by_cases hexamined : state.Examined
  · rw [mem_actions_examined hexamined, mem_actions_bootConfig, mem_actions_chainInfo,
      mem_actions_watermarks, mem_actions_logs]
    obtain ⟨hinspection, hsetup⟩ := hexamined
    cases a with
    | stageBootConfig chain =>
      have hkeys : (∃ key ∈ state.watermarks, node = some chain ∧
          key.Faulty chain (stagedConfigSeedsWatermarks state node)) ↔ node = some chain ∧
            ∃ key ∈ state.watermarks,
              key.Faulty chain (stagedConfigSeedsWatermarks state node) :=
        ⟨fun ⟨key, hkey, hn, h⟩ => ⟨hn, key, hkey, h⟩,
          fun ⟨hn, key, hkey, h⟩ => ⟨key, hkey, hn, h⟩⟩
      simpa [RepairAction.Needed, CardState.Examined, hinspection, hsetup] using hkeys
    | _ => simp [RepairAction.Needed, CardState.Examined, hinspection, hsetup]
  · have hrest : a ∈ issueActions (classify state node) ↔
        a ∈ issueActions (classifyBootConfig state node) ∨
          ((state.inspection = .notCapable ∨ state.inspection = .inspected ∧
            state.setupComplete = false ∧ state.bootConfig = none) ∧
            ∃ n, node = some n ∧ a = .stageBootConfig n) := by
      have hmigration : ¬ a ∈ issueActions (classifyMigration state) :=
        fun h => nomatch (mem_issueActions_ite.1 h).2
      unfold classify
      rw [issueActions_append, List.mem_append]
      refine or_congr Iff.rfl ?_
      by_cases hinspection : state.inspection = .inspected
      · have hsetup : state.setupComplete = false :=
          Bool.eq_false_iff.2 fun h => hexamined ⟨hinspection, h⟩
        rw [if_neg (not_not.2 hinspection), hsetup, Bool.not_false, if_pos rfl,
          issueActions_append, List.mem_append, or_iff_right hmigration, mem_actions_incomplete]
        simp [hinspection]
      · rw [if_pos hinspection, mem_actions_uninspected]
        simp [hinspection]
    rw [hrest, mem_actions_bootConfig]
    cases a <;> simp [RepairAction.Needed, hexamined, and_comm]

/-! ## In which order -/

omit state node in
/-- What is not in a list is not before anything in it. -/
theorem not_before_of_not_mem {b : RepairAction} {l : List RepairAction} (h : a ∉ l) :
    ¬ List.Sublist [a, b] l := fun hsub => h (hsub.subset List.mem_cons_self)

omit state node in
/-- Nothing comes before what is not in a list. -/
theorem not_before_of_not_mem_right {b : RepairAction} {l : List RepairAction} (h : b ∉ l) :
    ¬ List.Sublist [a, b] l :=
  fun hsub => h (hsub.subset (List.mem_cons_of_mem _ List.mem_cons_self))

omit state node in
/-- An order between two elements that the rest keeps. -/
theorem not_before_append {b : RepairAction} {l l' : List RepairAction}
    (hl : ¬ List.Sublist [a, b] l) (hl' : ¬ List.Sublist [a, b] l') (h : a ∉ l ∨ b ∉ l') :
    ¬ List.Sublist [a, b] (l ++ l') := by
  intro hsub
  obtain ⟨k, k', heq, hk, hk'⟩ := List.sublist_append_iff.1 hsub
  rcases List.cons_eq_append_iff.1 heq with ⟨rfl, rfl⟩ | ⟨k, rfl, hrest⟩
  · exact hl' hk'
  · rcases List.cons_eq_append_iff.1 hrest with ⟨rfl, rfl⟩ | ⟨k, rfl, hnil⟩
    · rcases h with h | h
      · exact h (hk.subset List.mem_cons_self)
      · exact h (hk'.subset List.mem_cons_self)
    · obtain ⟨rfl, rfl⟩ := List.append_eq_nil_iff.1 hnil.symm
      exact hl hk

/-- Of the chain information, the owner is repaired before the mode. -/
theorem chainInfo_order : ¬ List.Sublist [.chmodChainInfo, .chownChainInfo]
    (issueActions (classifyChainInfo state node)) := by
  unfold classifyChainInfo
  cases state.chainInfo with
  | missing =>
    refine not_before_of_not_mem fun h => ?_
    cases ((mem_actions_write rfl).1 h).1
  | unreadable owner mode =>
    dsimp only
    split
    · refine not_before_of_not_mem fun h => ?_
      cases mem_issueActions_one.1 h
    · refine not_before_of_not_mem fun h => ?_
      cases ((mem_actions_write rfl).1 h).1
  | present id mode owner =>
    rw [issueActions_append, issueActions_append]
    have hid : .chmodChainInfo ∉ issueActions (classifyChainId id node) := fun h => by
      cases (mem_actions_chainId.1 h).1
    have howner : .chmodChainInfo ∉ issueActions
        (if !ownerOk owner then [chainInfoOwnership owner] else []) := fun h => by
      cases (mem_actions_owner.1 h).1
    refine not_before_append (not_before_append (not_before_of_not_mem hid)
      (not_before_of_not_mem howner) (.inl hid)) (not_before_of_not_mem_right ?_) (.inr ?_)
    all_goals
      cases mode with
      | none => exact List.not_mem_nil
      | some m => exact fun h => by cases (mem_issueActions_ite.1 h).2

/-- **The owner before the mode**: the mode of the chain information is never set before its owner
in a plan. -/
theorem planRepairs_order : ¬ List.Sublist [.chmodChainInfo, .chownChainInfo]
    (planRepairs (classify state node)) := by
  refine fun hplan => ?_
  have hsub := hplan.trans (planRepairs_sublist _)
  revert hsub
  have hboot : .chmodChainInfo ∉ issueActions (classifyBootConfig state node) := fun h => by
    cases (mem_actions_bootConfig.1 h).1
  have hmigration : .chmodChainInfo ∉ issueActions (classifyMigration state) := fun h => by
    cases (mem_issueActions_ite.1 h).2
  unfold classify
  rw [issueActions_append]
  refine not_before_append (not_before_of_not_mem hboot) ?_ (.inl hboot)
  split
  · refine not_before_of_not_mem fun h => ?_
    obtain ⟨-, n, -, h⟩ := mem_actions_uninspected.1 h
    cases h
  rw [issueActions_append]
  refine not_before_append (not_before_of_not_mem hmigration) ?_ (.inl hmigration)
  split
  · refine not_before_of_not_mem fun h => ?_
    obtain ⟨-, n, -, h⟩ := mem_actions_incomplete.1 h
    cases h
  have hwatermarks : .chownChainInfo ∉ issueActions (classifyWatermarks state node) := fun h => by
    obtain ⟨key, -, ⟨h, -⟩ | ⟨n, -, h, -⟩⟩ := mem_actions_watermarks.1 h <;> cases h
  have hlogs : .chownChainInfo ∉ issueActions (classifyLogs state) := fun h => by
    cases (mem_actions_logs.1 h).1
  rw [issueActions_append, issueActions_append, issueActions_append]
  refine not_before_append (not_before_append (not_before_append ?_ chainInfo_order ?_) ?_ ?_) ?_ ?_
  · exact not_before_of_not_mem not_mem_actions_keys
  · exact .inl not_mem_actions_keys
  · exact not_before_of_not_mem_right hwatermarks
  · exact .inr hwatermarks
  · exact not_before_of_not_mem_right hlogs
  · exact .inr hlogs

end

/-! ## Rounds -/

section

variable [Blake3] [JsonText]

/-- What the check reports of a card. -/
def checkIssues (host : CheckHost) (node : Option ChainInfo) (img : CardImage) : List Issue :=
  classify (gatherCardState host.mounts img) node

/-- The card that the executor leaves, given all of the plan. -/
def repairRound (host : CheckHost) (time : String) (node : Option ChainInfo) (img : CardImage) :
    CardImage :=
  final (executeRepairs host time node (planRepairs (checkIssues host node img))) img

/-- The card after rounds, each at its time. -/
def repairRounds (host : CheckHost) (times : Nat → String) (node : Option ChainInfo) :
    Nat → CardImage → CardImage
  | 0, img => img
  | k + 1, img => repairRound host (times k) node (repairRounds host times node k img)

/-- What a round promises: all that can be fixed is planned or done by a broader action of the plan,
no planned action undoes another, and an executor that returns has brought about what was asked. -/
structure RoundSound (host : CheckHost) (time : String) (node : Option ChainInfo)
    (img : CardImage) : Prop where
  covered : ∀ i ∈ checkIssues host node img, i.remedy.isFixable = true →
    ∃ a, i.action = some a ∧ (a ∈ planRepairs (checkIssues host node img) ∨
      ∃ b ∈ planRepairs (checkIssues host node img),
        ∀ img', a.Done host time node (b.effect host time node img'))
  kept : ∀ a ∈ planRepairs (checkIssues host node img),
    ∀ b ∈ planRepairs (checkIssues host node img), ∀ img', a.Done host time node img' →
      a.Done host time node (b.effect host time node img')
  done : ∀ img', executeRepairs host time node (planRepairs (checkIssues host node img)) img =
    .ok () img' → ∀ a ∈ issueActions (checkIssues host node img), a.Done host time node img'

/-- The repairs converge: after at most three rounds the host has nothing left to repair, and every
round is sound. -/
def RepairsConverge (host : CheckHost) (times : Nat → String) (node : Option ChainInfo)
    (img : CardImage) : Prop :=
  (∃ k ≤ 3, NoHostDirect (checkIssues host node (repairRounds host times node k img))) ∧
    ∀ k, RoundSound host (times k) node (repairRounds host times node k img)

/-- The executor takes the whole plan. -/
def Completes (host : CheckHost) (time : String) (node : Option ChainInfo) (img : CardImage) :
    Prop :=
  executeRepairs host time node (planRepairs (checkIssues host node img)) img =
    .ok () (applyAll host time node (planRepairs (checkIssues host node img)) img)

variable {host : CheckHost} {time : String} {node : Option ChainInfo} {img : CardImage}
  {a : RepairAction}

/-! ## Every round is sound -/

/-- An action that was asked for is planned, or a broader one is. -/
theorem planned_or_covered (time : String)
    (ha : a ∈ issueActions (checkIssues host node img)) :
    a ∈ planRepairs (checkIssues host node img) ∨
      ∃ b ∈ planRepairs (checkIssues host node img),
        ∀ img', a.Done host time node (b.effect host time node img') := by
  cases hsuperseded : a.superseded (issueActions (checkIssues host node img)) with
  | false => exact .inl (mem_planRepairs.2 ⟨ha, hsuperseded⟩)
  | true =>
    refine .inr ?_
    have hwrite : (issueActions (checkIssues host node img)).contains .writeChainInfo = true →
        RepairAction.writeChainInfo ∈ planRepairs (checkIssues host node img) := fun h =>
      mem_planRepairs.2 ⟨List.contains_iff_mem.1 h, rfl⟩
    have hnode : RepairAction.writeChainInfo ∈ planRepairs (checkIssues host node img) →
        ∃ n, node = some n := fun h => Option.isSome_iff_exists.1 (planRepairs_rests h)
    cases a with
    | chmodChainInfo =>
      obtain ⟨n, rfl⟩ := hnode (hwrite hsuperseded)
      refine ⟨_, hwrite hsuperseded, fun img' f hf => ?_⟩
      have hdone := RepairAction.done_effect host time (some n) .writeChainInfo img' n rfl
      rw [Option.some.inj (hf.symm.trans hdone)]
      exact permissions_setChainInfoMode (host.chainInfoFile n)
    | chownChainInfo =>
      obtain ⟨n, rfl⟩ := hnode (hwrite hsuperseded)
      refine ⟨_, hwrite hsuperseded, fun img' f hf => ?_⟩
      have hdone := RepairAction.done_effect host time (some n) .writeChainInfo img' n rfl
      rw [Option.some.inj (hf.symm.trans hdone)]
      rfl
    | deleteBootConfig =>
      obtain ⟨b, hb, hstage⟩ := List.any_eq_true.1 hsuperseded
      cases b with
      | stageBootConfig chain =>
        have hplanned : RepairAction.stageBootConfig chain ∈
            planRepairs (checkIssues host node img) := mem_planRepairs.2 ⟨hb, rfl⟩
        refine ⟨_, hplanned, fun img' raw hraw => ?_⟩
        exact ⟨chain, planRepairs_rests hplanned, (Option.some.inj hraw).symm⟩
      | _ => cases hstage
    | _ => cases hsuperseded

/-- What was asked for has come about when all of the plan is done. -/
theorem done_of_asked (time : String)
    (ha : a ∈ issueActions (checkIssues host node img)) : a.Done host time node
      (applyAll host time node (planRepairs (checkIssues host node img)) img) := by
  have hplan := planRepairs_plan (gatherCardState host.mounts img) node
  rcases planned_or_covered time ha with hplanned | ⟨b, hb, hcovers⟩
  · exact hplan.done hplanned
  · refine applyAll_brings hb hcovers fun c hc img' hdone => hdone.effect ⟨?_, ?_, ?_⟩
    · rintro chain rfl
      exact (mem_actions_classify.1 ha).1
    · rintro chain rfl
      exact hplan.staged chain hc
    · rintro hstage rfl
      cases a with
      | stageBootConfig chain =>
        exact hplan.apart ⟨chain, mem_planRepairs.2 ⟨ha, rfl⟩⟩ hc
      | _ => cases hstage

/-- A round that is completed leaves what all of the plan makes of the card. -/
theorem Completes.round (h : Completes host time node img) : repairRound host time node img =
    applyAll host time node (planRepairs (checkIssues host node img)) img := by
  rw [repairRound, final, EStateM.run, h]

/-- What was asked for has come about after a round that is completed. -/
theorem Completes.done (h : Completes host time node img)
    (ha : a ∈ issueActions (checkIssues host node img)) :
    a.Done host time node (repairRound host time node img) := by
  rw [h.round]
  exact done_of_asked time ha

/-- **Every round is sound.** -/
theorem round_sound (host : CheckHost) (time : String) (node : Option ChainInfo)
    (img : CardImage) : RoundSound host time node img where
  covered i hi hfixable := by
    have hmatches := classify_matches i hi
    have hasked : ∀ b, i.action = some b → b ∈ issueActions (checkIssues host node img) :=
      fun b hb => List.mem_filterMap.2 ⟨i, hi, hb⟩
    cases hremedy : i.remedy with
    | hostDirect =>
      obtain ⟨b, hb, -⟩ := hmatches.hostDirect.1 hremedy
      exact ⟨b, hb, planned_or_covered time (hasked b hb)⟩
    | fatStage =>
      obtain ⟨chain, hb⟩ := hmatches.fatStage.1 hremedy
      exact ⟨_, hb, planned_or_covered time (hasked _ hb)⟩
    | needsNode =>
      rw [hremedy] at hfixable
      cases hfixable
    | manual =>
      rw [hremedy] at hfixable
      cases hfixable
  kept a ha b hb img' hdone :=
    hdone.effect ((planRepairs_plan (gatherCardState host.mounts img) node).compatible ha hb)
  done img' hrun a ha := by
    rw [executeRepairs_ok hrun]
    exact done_of_asked time ha

/-! ## What the rounds leave alone -/

/-- What the planned actions keep is kept by a round, whether the executor fails or not. -/
theorem round_keeps {P : CardImage → Prop}
    (h : ∀ a ∈ planRepairs (checkIssues host node img), ∀ img', P img' →
      a.Allowed host node img' ∨ a.isStage = true → P (a.effect host time node img'))
    (himg : P img) : P (repairRound host time node img) :=
  Triple.final (executeRepairs_keeps h) himg

omit [Blake3] in
/-- An action changes no other file of the keys partition. -/
theorem effect_keys {k : KeysFile} (hk : k ≠ .chainInfo) :
    (a.effect host time node img).keys k = img.keys k := by
  cases a with
  | writeChainInfo => exact img.withChainInfo_keys _ hk
  | chmodChainInfo => exact img.withChainInfo_keys _ hk
  | chownChainInfo => exact img.withChainInfo_keys _ hk
  | _ => rfl

/-- A round leaves the other files of the keys partition. -/
theorem round_keys {k : KeysFile} (hk : k ≠ .chainInfo) :
    (repairRound host time node img).keys k = img.keys k :=
  round_keeps (P := fun img' => img'.keys k = img.keys k)
    (fun _ _ _ h _ => (effect_keys hk).trans h) rfl

omit [Blake3] in
/-- A directory stays one. -/
theorem effect_isDir (pkh : String) :
    ((a.effect host time node img).dir pkh).any (·.isDir) = (img.dir pkh).any (·.isDir) := by
  cases a with
  | chownWatermarks pkh' =>
    rw [RepairAction.effect, CardImage.chownTree_dir]
    split
    · rw [Option.any_map]
    · rfl
  | _ => rfl

/-- A round leaves which keys have a directory. -/
theorem round_isDir (pkh : String) :
    ((repairRound host time node img).dir pkh).any (·.isDir) = (img.dir pkh).any (·.isDir) :=
  round_keeps (P := fun img' => (img'.dir pkh).any (·.isDir) = (img.dir pkh).any (·.isDir))
    (fun _ _ _ h _ => (effect_isDir pkh).trans h) rfl

omit [Blake3] [JsonText] in
/-- What the host can read of a file that was chowned is decided in the same way. -/
theorem readable_chown {f : CardFile} (h : f.readable = host.reads f.owner f.permissions) :
    (host.chown f).readable = host.reads (host.chown f).owner (host.chown f).permissions := by
  unfold CheckHost.chown
  split
  · exact h
  · rfl

omit [Blake3] in
/-- What the host can read is decided by owner and permissions, after an action too. -/
theorem CardImage.ReadBy.effect (h : img.ReadBy host) :
    (a.effect host time node img).ReadBy host := by
  have hkeys : ∀ g : Option CardFile, (∀ f, g = some f →
      f.readable = host.reads f.owner f.permissions) → (img.withChainInfo g).ReadBy host := by
    refine fun g hg => ⟨fun k f hf => ?_, h.records⟩
    by_cases hk : k = .chainInfo
    · rw [hk, CardImage.withChainInfo_chainInfo] at hf
      exact hg f hf
    · rw [img.withChainInfo_keys g hk] at hf
      exact h.keys k f hf
  cases a with
  | chownWatermarks pkh =>
    refine ⟨h.keys, fun name t f hf => ?_⟩
    rw [RepairAction.effect, CardImage.chownTree_records] at hf
    split at hf
    · obtain ⟨f', hf', rfl⟩ := Option.map_eq_some_iff.1 hf
      exact readable_chown (h.records name t f' hf')
    · exact h.records name t f hf
  | writeChainInfo =>
    refine hkeys _ fun f hf => ?_
    rcases Option.or_eq_some_iff.1 hf with hf | ⟨-, hf⟩
    · obtain ⟨n, -, rfl⟩ := Option.map_eq_some_iff.1 hf
      rfl
    · exact h.keys _ f hf
  | chmodChainInfo =>
    refine hkeys _ fun f hf => ?_
    obtain ⟨f', -, rfl⟩ := Option.map_eq_some_iff.1 hf
    rfl
  | chownChainInfo =>
    refine hkeys _ fun f hf => ?_
    obtain ⟨f', hf', rfl⟩ := Option.map_eq_some_iff.1 hf
    exact readable_chown (h.keys .chainInfo f' hf')
  | truncatePanicLog => exact ⟨h.keys, h.records⟩
  | deleteBootConfig => exact ⟨h.keys, h.records⟩
  | stageBootConfig chain => exact ⟨h.keys, h.records⟩

/-- A card the host can read stays so over a round. -/
theorem CardImage.ReadBy.round (h : img.ReadBy host) :
    (repairRound host time node img).ReadBy host :=
  round_keeps (P := fun img' => img'.ReadBy host) (fun _ _ _ h _ => h.effect) h

/-- What has come about stays, unless it is a staged configuration. -/
theorem RepairAction.Done.round (hstage : a.isStage = false) (h : a.Done host time node img) :
    a.Done host time node (repairRound host time node img) := by
  refine round_keeps (fun b hb img' hdone _ => hdone.effect ⟨?_, ?_, ?_⟩) h
  · rintro chain rfl
    cases hstage
  · rintro chain rfl
    exact planRepairs_rests hb
  · rw [hstage]
    exact nofun

/-- Without an action on them the directories and records stay. -/
theorem round_records (h : ∀ pkh, .chownWatermarks pkh ∉ issueActions (checkIssues host node img)) :
    (repairRound host time node img).dir = img.dir ∧
      (repairRound host time node img).records = img.records := by
  refine round_keeps (P := fun img' => img'.dir = img.dir ∧ img'.records = img.records)
    (fun b hb img' hsame _ => ?_) ⟨rfl, rfl⟩
  cases b with
  | chownWatermarks pkh => exact absurd (mem_planRepairs.1 hb).1 (h pkh)
  | _ => exact hsame

/-- Without an action on it the chain information stays. -/
theorem round_chainInfo (h : ∀ b ∈ issueActions (checkIssues host node img), b.partition ≠ .keys) :
    (repairRound host time node img).keys .chainInfo = img.keys .chainInfo := by
  refine round_keeps (P := fun img' => img'.keys .chainInfo = img.keys .chainInfo)
    (fun b hb img' hsame _ => ?_) rfl
  have hpartition := h b (mem_planRepairs.1 hb).1
  cases b with
  | writeChainInfo => exact absurd rfl hpartition
  | chmodChainInfo => exact absurd rfl hpartition
  | chownChainInfo => exact absurd rfl hpartition
  | _ => exact hsame

/-! ## What the check reads -/

/-- The hashes of the keys on a card. -/
def cardPkhs (img : CardImage) : List String :=
  match readKeysState img with
  | .parsed _ pkhs => pkhs
  | _ => []

/-- The first boot is over, and the host mounts what it examines. -/
def Examines (host : CheckHost) (img : CardImage) : Prop :=
  host.mounts.keys = true ∧ host.mounts.data = true ∧ (img.keys .setupComplete).isSome = true

/-- What the host gathers of the boot partition is what is read of it. -/
theorem gather_bootConfig (m : Mounts) (img : CardImage) :
    (gatherCardState m img).bootConfig = gatherBootConfig m img := by
  unfold gatherCardState
  split
  · rfl
  · split <;> rfl

/-- The state of a card whose partitions are mounted. -/
theorem gather_mounted {m : Mounts} (hkeys : m.keys = true) (hdata : m.data = true)
    (img : CardImage) :
    (gatherCardState m img).inspection = .inspected ∧
      (gatherCardState m img).setupComplete = (img.keys .setupComplete).isSome ∧
      (gatherCardState m img).chainInfo = readChainInfoState img ∧
      (gatherCardState m img).watermarks = (cardPkhs img).map (readKeyWatermarks img) ∧
      (gatherCardState m img).panicLogSize = img.panicLog.map (·.content.length) := by
  unfold gatherCardState
  rw [hkeys, hdata]
  exact ⟨rfl, rfl, rfl, rfl, rfl⟩

/-- The state of a card of which a partition is not mounted. -/
theorem gather_unmounted {m : Mounts} (h : ¬ (m.keys = true ∧ m.data = true)) (img : CardImage) :
    (gatherCardState m img).inspection ≠ .inspected ∧
      (gatherCardState m img).watermarks = [] := by
  unfold gatherCardState
  cases hkeys : m.keys with
  | false =>
    rw [Bool.not_false, if_pos rfl]
    refine ⟨?_, rfl⟩
    show (if m.f2fsRegistered then Inspection.failed else .notCapable) ≠ .inspected
    split <;> decide
  | true =>
    cases hdata : m.data with
    | false => exact ⟨nofun, rfl⟩
    | true => exact absurd ⟨hkeys, hdata⟩ h

/-- Whether a card is examined is read off the card and the mounts. -/
theorem examined_iff : (gatherCardState host.mounts img).Examined ↔ Examines host img := by
  by_cases hmounted : host.mounts.keys = true ∧ host.mounts.data = true
  · obtain ⟨hinspection, hsetup, -⟩ := gather_mounted hmounted.1 hmounted.2 img
    rw [CardState.Examined, hinspection, hsetup]
    exact ⟨fun h => ⟨hmounted.1, hmounted.2, h.2⟩, fun h => ⟨rfl, h.2.2⟩⟩
  · exact iff_of_false (fun h => (gather_unmounted hmounted img).1 h.1) fun h =>
      hmounted ⟨h.1, h.2.1⟩

/-- A card that is examined is so after a round. -/
theorem Examines.round (h : Examines host img) :
    Examines host (repairRound host time node img) := by
  refine ⟨h.1, h.2.1, ?_⟩
  rw [round_keys (k := .setupComplete) (by decide)]
  exact h.2.2

/-- A round leaves the keys of a card. -/
theorem round_cardPkhs : cardPkhs (repairRound host time node img) = cardPkhs img := by
  unfold cardPkhs readKeysState
  rw [round_keys (k := .publicKeyHashs) (by decide)]

end

end Russignol.Host
