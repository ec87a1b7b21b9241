import Russignol.Host.GatherCard

/-!
# The node of a disk check

The last part of `host-utility/src/disk.rs`: the card names the chain that it is for
(`cardTargetChainId`), and a node is only a reference for that chain. The node is asked up to twice,
around one plan and one choice of the operator (`resolveNodeForCard`), and the repairs are planned
from what is left of it (`diskCheck`).
-/

namespace Russignol.Host

/-! ## The choice of the node -/

/-- `MAINNET_CHAIN_ID` and `MAINNET_RPC_URL`. -/
def mainnetChainId : String := "NetXdQprcVkpaWU"

def mainnetRpcUrl : String := "https://rpc.tzbeta.net"

/-- `card_target_chain_id`. -/
def cardTargetChainId (state : CardState) : Option String :=
  match state.chainInfo with
  | .present id _ _ => some id
  | _ => state.bootConfig.map (·.chainId)

/-- `NodePlan`. -/
inductive NodePlan
  | accept
  | switch (url : String)
  | prompt
  | giveUp
  deriving DecidableEq, Repr

/-- `plan_node`. -/
def planNode (current cardChainId : Option String) (explicitEndpoint nonInteractive : Bool) :
    NodePlan :=
  match cardChainId with
  | none => .accept
  | some cid =>
    if current = some cid then .accept
    else if explicitEndpoint then .giveUp
    else if cid = mainnetChainId then .switch mainnetRpcUrl
    else if nonInteractive then .giveUp
    else .prompt

/-- `accept_if_on_chain`. -/
def acceptIfOnChain (node : Option ChainInfo) (cardChainId : Option String) : Option ChainInfo :=
  match node, cardChainId with
  | some info, some cid => if info.id ≠ cid then none else some info
  | node, _ => node

/-- The nodes behind the endpoints, each time that one is asked, and the operator. -/
structure NodeIo where
  reply : Nat → String → NodeReply
  /-- The endpoint after `select_endpoint_interactively`. -/
  selectEndpoint : String → String

/-- `fetch_node`, the nth time. -/
def fetchNode (io : NodeIo) (nth : Nat) (rpcEndpoint : String) : Option ChainInfo :=
  (prefetchChainInfo rpcEndpoint (io.reply nth rpcEndpoint)).toOption

/-- `resolve_node_for_card`. -/
def resolveNodeForCard (io : NodeIo) (rpcEndpoint : String) (explicitEndpoint : Bool)
    (cardChainId : Option String) (nonInteractive : Bool) : Option ChainInfo :=
  let node := fetchNode io 0 rpcEndpoint
  match planNode (node.map (·.id)) cardChainId explicitEndpoint nonInteractive with
  | .accept => node
  | .giveUp => none
  | .switch url => acceptIfOnChain (fetchNode io 1 url) cardChainId
  | .prompt => acceptIfOnChain (fetchNode io 1 (io.selectEndpoint rpcEndpoint)) cardChainId

/-- What `run_disk_check` was called with. -/
structure CheckArgs where
  /-- `--endpoint`. -/
  endpoint : Option String
  dryRun : Bool
  yes : Bool

/-- `run_disk_check`, up to the confirmation: the node, the issues and the planned repairs. -/
def diskCheck (io : NodeIo) (savedEndpoint : String) (args : CheckArgs) (state : CardState) :
    Option ChainInfo × List Issue × List RepairAction :=
  let node := resolveNodeForCard io (args.endpoint.getD savedEndpoint) args.endpoint.isSome
    (cardTargetChainId state) (args.yes || args.dryRun)
  let issues := classify state node
  (node, issues, planRepairs issues)

/-- What `accept_if_on_chain` keeps is on the card's chain. -/
theorem acceptIfOnChain_eq_some {node : Option ChainInfo} {cid : String} {n : ChainInfo}
    (h : acceptIfOnChain node (some cid) = some n) : n.id = cid := by
  cases node with
  | none => cases h
  | some info =>
    rw [acceptIfOnChain] at h
    split at h
    · cases h
    · next hid =>
      cases h
      exact Decidable.not_not.mp hid

/-- **The node is on the card's chain**, whatever is configured, chosen and answered. -/
theorem resolveNodeForCard_eq_some {io : NodeIo} {rpcEndpoint : String}
    {explicitEndpoint nonInteractive : Bool} {cid : String} {n : ChainInfo}
    (h : resolveNodeForCard io rpcEndpoint explicitEndpoint (some cid) nonInteractive = some n) :
    n.id = cid := by
  rw [resolveNodeForCard] at h
  cases hplan : planNode ((fetchNode io 0 rpcEndpoint).map (·.id)) (some cid) explicitEndpoint
      nonInteractive with
  | accept =>
    simp only [hplan] at h
    rw [h, Option.map_some, planNode] at hplan
    split at hplan
    · next hid => exact Option.some.inj hid
    · split at hplan
      · cases hplan
      · split at hplan
        · cases hplan
        · split at hplan <;> cases hplan
  | giveUp =>
    simp only [hplan] at h
    cases h
  | switch url =>
    simp only [hplan] at h
    exact acceptIfOnChain_eq_some h
  | prompt =>
    simp only [hplan] at h
    exact acceptIfOnChain_eq_some h

/-! ## What is planned -/

/-- An action that a broader one of the list does as well. -/
def RepairAction.superseded (actions : List RepairAction) : RepairAction → Bool
  | .chmodChainInfo | .chownChainInfo => actions.contains .writeChainInfo
  | .deleteBootConfig => actions.any fun
    | .stageBootConfig _ => true
    | _ => false
  | _ => false

/-- The actions of the issues. -/
def issueActions (issues : List Issue) : List RepairAction := issues.filterMap (·.action)

/-- Keeping the first of each kept action. -/
theorem mem_foldl_keep {α : Type} [DecidableEq α] (skip : α → Bool) (a : α) :
    ∀ (actions planned : List α),
      a ∈ actions.foldl (fun planned action =>
        if !skip action && !planned.contains action then planned ++ [action] else planned) planned ↔
        a ∈ planned ∨ a ∈ actions ∧ skip a = false
  | [], planned => by simp
  | action :: actions, planned => by
    rw [List.foldl_cons, mem_foldl_keep skip a actions]
    split
    · next hkept =>
      simp only [Bool.and_eq_true, Bool.not_eq_true', List.contains_eq_mem,
        decide_eq_false_iff_not] at hkept
      rw [List.mem_append, List.mem_singleton, List.mem_cons]
      constructor
      · rintro ((hmem | rfl) | ⟨hmem, hskip⟩)
        · exact .inl hmem
        · exact .inr ⟨.inl rfl, hkept.1⟩
        · exact .inr ⟨.inr hmem, hskip⟩
      · rintro (hmem | ⟨rfl | hmem, hskip⟩)
        · exact .inl (.inl hmem)
        · exact .inl (.inr rfl)
        · exact .inr ⟨hmem, hskip⟩
    · next hdropped =>
      simp only [Bool.and_eq_true, Bool.not_eq_true', List.contains_eq_mem,
        decide_eq_false_iff_not, not_and, Decidable.not_not] at hdropped
      rw [List.mem_cons]
      constructor
      · rintro (hmem | ⟨hmem, hskip⟩)
        · exact .inl hmem
        · exact .inr ⟨.inr hmem, hskip⟩
      · rintro (hmem | ⟨rfl | hmem, hskip⟩)
        · exact .inl hmem
        · exact .inl (hdropped hskip)
        · exact .inr ⟨hmem, hskip⟩

/-- Each action is planned once. -/
theorem nodup_foldl_keep {α : Type} [DecidableEq α] (skip : α → Bool) :
    ∀ (actions planned : List α), planned.Nodup →
      (actions.foldl (fun planned action =>
        if !skip action && !planned.contains action then planned ++ [action]
        else planned) planned).Nodup
  | [], _, h => h
  | action :: actions, planned, h => by
    rw [List.foldl_cons]
    refine nodup_foldl_keep skip actions _ ?_
    split
    · next hkept =>
      simp only [Bool.and_eq_true, Bool.not_eq_true', List.contains_eq_mem,
        decide_eq_false_iff_not] at hkept
      exact List.nodup_append.2 ⟨h, List.nodup_singleton _, fun a ha b hb heq =>
        hkept.2 (List.mem_singleton.1 hb ▸ heq ▸ ha)⟩
    · exact h

/-- The planned actions stand in the order in which they were asked for. -/
theorem sublist_foldl_keep {α : Type} [DecidableEq α] (skip : α → Bool) :
    ∀ (actions planned : List α), List.Sublist
      (actions.foldl (fun planned action =>
        if !skip action && !planned.contains action then planned ++ [action]
        else planned) planned) (planned ++ actions)
  | [], planned => by
    rw [List.append_nil]
    exact List.Sublist.refl planned
  | action :: actions, planned => by
    rw [List.foldl_cons]
    refine (sublist_foldl_keep skip actions _).trans ?_
    split
    · rw [List.append_assoc]
      exact List.Sublist.refl _
    · exact List.Sublist.append_left (List.sublist_cons_self action actions) planned

/-- The plan keeps what is not superseded. -/
theorem planRepairs_eq (issues : List Issue) :
    planRepairs issues = (issueActions issues).foldl (fun planned action =>
      if !action.superseded (issueActions issues) && !planned.contains action then
        planned ++ [action]
      else planned) [] := by
  rw [planRepairs]
  refine congrFun (congrFun (congrArg List.foldl ?_) []) _
  funext planned action
  cases action <;> rfl

/-- No action is planned twice. -/
theorem planRepairs_nodup (issues : List Issue) : (planRepairs issues).Nodup := by
  rw [planRepairs_eq]
  exact nodup_foldl_keep (RepairAction.superseded (issueActions issues)) _ [] List.nodup_nil

/-- The plan keeps the order of the issues. -/
theorem planRepairs_sublist (issues : List Issue) :
    List.Sublist (planRepairs issues) (issueActions issues) := by
  rw [planRepairs_eq]
  exact sublist_foldl_keep (RepairAction.superseded (issueActions issues)) _ []

/-- **What is planned**: the actions of the issues that no broader one supersedes. -/
theorem mem_planRepairs {issues : List Issue} {action : RepairAction} :
    action ∈ planRepairs issues ↔
      action ∈ issueActions issues ∧ action.superseded (issueActions issues) = false := by
  rw [planRepairs_eq, mem_foldl_keep (·.superseded (issueActions issues)) action]
  simp only [List.not_mem_nil, false_or]

/-- What an action of the classification rests on. -/
def RepairAction.RestsOn (state : CardState) (node : Option ChainInfo) : RepairAction → Prop
  | .writeChainInfo => node.isSome = true
  | .stageBootConfig chain => node = some chain
  | .deleteBootConfig => ∃ n bc, node = some n ∧ state.bootConfig = some bc ∧
      (n.id ≠ bc.chainId ∨ n.id = bc.chainId ∧ bootConfigSuperseded state n.id bc = true)
  | _ => True

/-- The actions of some issues rest on what was read. -/
def AllRest (state : CardState) (node : Option ChainInfo) (issues : List Issue) : Prop :=
  ∀ i ∈ issues, ∀ action, i.action = some action → action.RestsOn state node

section
variable {state : CardState} {node : Option ChainInfo}

/-- Without issues there is nothing to show. -/
theorem AllRest.nil : AllRest state node [] := fun _ h => absurd h List.not_mem_nil

/-- The actions of two checks rest on what was read where those of each do. -/
theorem AllRest.append {issues issues' : List Issue} (h : AllRest state node issues)
    (h' : AllRest state node issues') : AllRest state node (issues ++ issues') := by
  intro i hi
  rcases List.mem_append.mp hi with hi | hi
  · exact h i hi
  · exact h' i hi

/-- So does the action of an issue in front. -/
theorem AllRest.cons {i : Issue} {issues : List Issue}
    (hi : ∀ action, i.action = some action → action.RestsOn state node)
    (h : AllRest state node issues) : AllRest state node (i :: issues) := by
  intro j hj
  rcases List.mem_cons.mp hj with rfl | hj
  · exact hi
  · exact h j hj

/-- One issue, with an action or without. -/
theorem AllRest.one {i : Issue} (hi : ∀ action, i.action = some action → action.RestsOn state node) :
    AllRest state node [i] :=
  .cons hi .nil

/-- The actions of a check over a list rest on what was read where those of every element do. -/
theorem AllRest.flatMap {α : Type} {l : List α} {f : α → List Issue}
    (h : ∀ a, AllRest state node (f a)) : AllRest state node (l.flatMap f) := by
  intro i hi
  obtain ⟨a, -, hi⟩ := List.mem_flatMap.mp hi
  exact h a i hi

/-- An action that a fault in the watermarks is repaired with. -/
theorem stageAction_restsOn : ∀ action, stageAction node = some action →
    action.RestsOn state node := by
  intro action h
  cases node with
  | none => cases h
  | some n =>
    cases h
    rfl

/-- No action. -/
theorem none_restsOn : ∀ action, (none : Option RepairAction) = some action →
    action.RestsOn state node := by
  intro action h
  cases h

/-- The actions on a staged configuration rest on what was read of it. -/
theorem classifyBootConfig_rests : AllRest state node (classifyBootConfig state node) := by
  rw [classifyBootConfig]
  cases hbc : state.bootConfig with
  | none => exact .nil
  | some bc =>
    cases hnode : node with
    | none => exact .one none_restsOn
    | some n =>
      simp only
      split
      · next hid =>
        refine .one fun action h => ?_
        cases h
        exact ⟨n, bc, rfl, hbc, .inl hid⟩
      · next hid =>
        split
        · next hsuperseded =>
          refine .one fun action h => ?_
          cases h
          exact ⟨n, bc, rfl, hbc, .inr ⟨Decidable.not_not.mp hid, hsuperseded⟩⟩
        · exact .one none_restsOn

/-- What was not inspected is answered by staging, which rests on the node. -/
theorem classifyUninspected_rests {inspection : Inspection} :
    AllRest state node (classifyUninspected inspection node) := by
  refine .cons none_restsOn ?_
  cases node with
  | none => cases inspection <;> exact .nil
  | some n =>
    cases inspection with
    | notCapable =>
      refine .one fun action h => ?_
      cases h
      rfl
    | inspected => exact .nil
    | failed => exact .nil

/-- So is a set of marks that is not complete. -/
theorem classifyIncomplete_rests : AllRest state node (classifyIncomplete state node) := by
  refine .cons none_restsOn ?_
  split
  · exact .one stageAction_restsOn
  · exact .nil

/-- The migration of the keys asks for no action. -/
theorem classifyMigration_rests : AllRest state node (classifyMigration state) := by
  rw [classifyMigration]
  split
  · exact .one none_restsOn
  · exact .nil

/-- The key files ask for a change of owner or none. -/
theorem classifyKeys_rests : AllRest state node (classifyKeys state) := by
  rw [classifyKeys]
  cases state.keys with
  | missing => exact .one none_restsOn
  | unparseable => exact .one none_restsOn
  | parsed aliases pkhs =>
    intro i hi
    obtain ⟨role, -, rfl⟩ := List.mem_map.mp hi
    exact none_restsOn

/-- The actions on `chain_info.json` rest on what was read of it. -/
theorem classifyChainInfo_rests : AllRest state node (classifyChainInfo state node) := by
  have hwrite : ∀ action,
      (if node.isSome then some RepairAction.writeChainInfo else none) = some action →
        action.RestsOn state node := by
    intro action h
    split at h
    · next hsome =>
      cases h
      exact hsome
    · cases h
  have howner : ∀ owner, AllRest state node
      (if !ownerOk owner then [chainInfoOwnership owner] else []) := by
    intro owner
    split
    · refine .one fun action h => ?_
      cases h
      trivial
    · exact .nil
  rw [classifyChainInfo]
  cases state.chainInfo with
  | missing => exact .one hwrite
  | unreadable owner mode =>
    simp only
    split
    · refine .one fun action h => ?_
      cases h
      trivial
    · exact .one hwrite
  | present id mode owner =>
    refine .append (.append ?_ (howner owner)) ?_
    · cases hnode : node with
      | none => exact .one none_restsOn
      | some n =>
        rw [classifyChainId]
        split
        · refine .one fun action h => ?_
          cases h
          rfl
        · exact .nil
    · cases mode with
      | none => exact .nil
      | some m =>
        simp only
        split
        · refine .one fun action h => ?_
          cases h
          trivial
        · exact .nil

/-- The actions for the marks of a key rest on what was read of them. -/
theorem classifyKeyWatermarks_rests {key : KeyWatermarks} {seedsPending : Bool} :
    AllRest state node (classifyKeyWatermarks key node seedsPending) := by
  rw [classifyKeyWatermarks]
  split
  · split
    · exact .one stageAction_restsOn
    · exact .nil
  · refine .append (.append (.flatMap fun file => ?_) ?_) ?_
    · rw [classifyWatermarkFile]
      cases file.status with
      | missing => exact .one stageAction_restsOn
      | wrongSize => exact .one stageAction_restsOn
      | corrupt => exact .one stageAction_restsOn
      | valid level => exact .nil
    · unfold classifyBelowHead
      split
      · split
        · refine .one fun action h => ?_
          cases h
          rfl
        · exact .nil
      · exact .nil
    · split
      · refine .one fun action h => ?_
        cases h
        trivial
      · exact .nil

/-- So do those for all keys. -/
theorem classifyWatermarks_rests : AllRest state node (classifyWatermarks state node) := by
  refine .append (.flatMap fun key => classifyKeyWatermarks_rests) ?_
  split
  · exact .one none_restsOn
  · exact .nil

/-- The truncation of the panic log rests on its size. -/
theorem classifyLogs_rests : AllRest state node (classifyLogs state) := by
  refine .append ?_ ?_
  · split
    · exact .one none_restsOn
    · exact .nil
  · split
    · split
      · refine .one fun action h => ?_
        cases h
        trivial
      · exact .nil
    · exact .nil

/-- **What the actions of a check rest on.** -/
theorem classify_rests : AllRest state node (classify state node) := by
  refine .append classifyBootConfig_rests ?_
  split
  · exact classifyUninspected_rests
  · refine .append classifyMigration_rests ?_
    split
    · exact classifyIncomplete_rests
    · exact ((classifyKeys_rests.append classifyChainInfo_rests).append
        classifyWatermarks_rests).append classifyLogs_rests

/-- What is planned rests on what was read. -/
theorem planRepairs_rests {action : RepairAction} (h : action ∈ planRepairs (classify state node)) :
    action.RestsOn state node := by
  obtain ⟨i, hi, haction⟩ := List.mem_filterMap.mp (mem_planRepairs.mp h).1
  exact classify_rests i hi action haction

end

/-- **One chain.** Of a card that names a chain, whatever is configured, chosen and answered: a
`chain_info.json` or a configuration that is planned to be written is of that chain, and a staged
configuration is planned to be deleted for its chain only where the `chain_info.json` that was read
names another one. -/
theorem disk_check_one_chain {state : CardState} {cid : String}
    (hcard : cardTargetChainId state = some cid) (io : NodeIo) (savedEndpoint : String)
    (args : CheckArgs) {node : Option ChainInfo} {issues : List Issue} {plan : List RepairAction}
    (hcheck : diskCheck io savedEndpoint args state = (node, issues, plan)) :
    (.writeChainInfo ∈ plan → ∃ n, node = some n ∧ n.id = cid) ∧
    (∀ chain, .stageBootConfig chain ∈ plan → chain.id = cid) ∧
    (.deleteBootConfig ∈ plan → ∃ n bc, node = some n ∧ state.bootConfig = some bc ∧
      ((∃ id mode owner, state.chainInfo = .present id mode owner ∧ id ≠ bc.chainId) ∨
        n.id = bc.chainId ∧ bootConfigSuperseded state n.id bc = true)) := by
  cases hcheck
  rw [hcard]
  generalize hresolve : resolveNodeForCard io (args.endpoint.getD savedEndpoint)
    args.endpoint.isSome (some cid) (args.yes || args.dryRun) = node
  have hnode : ∀ n, node = some n → n.id = cid := by
    rintro n rfl
    exact resolveNodeForCard_eq_some hresolve
  refine ⟨fun h => ?_, fun chain h => hnode chain (planRepairs_rests h), fun h => ?_⟩
  · obtain ⟨n, hn⟩ := Option.isSome_iff_exists.mp (planRepairs_rests h)
    exact ⟨n, hn, hnode n hn⟩
  · obtain ⟨n, bc, hn, hbc, hother | hsuperseded⟩ := planRepairs_rests h
    · refine ⟨n, bc, hn, hbc, .inl ?_⟩
      rw [hnode n hn] at hother
      rw [cardTargetChainId] at hcard
      cases hchain : state.chainInfo with
      | present id mode owner =>
        rw [hchain] at hcard
        cases hcard
        exact ⟨_, mode, owner, rfl, hother⟩
      | missing =>
        rw [hchain, hbc] at hcard
        exact absurd (Option.some.inj hcard).symm hother
      | unreadable owner mode =>
        rw [hchain, hbc] at hcard
        exact absurd (Option.some.inj hcard).symm hother
    · exact ⟨n, bc, hn, hbc, .inr hsuperseded⟩

/-- A card of the main chain whose `chain_info.json` is missing. -/
def mainnetCard : CardState where
  inspection := .inspected
  setupComplete := true
  migrationPending := false
  keys := .missing
  chainInfo := .missing
  watermarks := []
  logsDirPresent := true
  panicLogSize := none
  bootConfig := some { chainId := mainnetChainId, level := 1 }

/-- No node at the saved endpoint, and one of the main chain at any other. -/
def switchedIo : NodeIo where
  reply nth _ := if nth = 0 then { mainnetReply 5 with verified := .error "no node" }
    else mainnetReply 5
  selectEndpoint := fun endpoint => endpoint

/-- The `chain_info.json` of the card is planned to be written of the public node. -/
theorem disk_check_one_chain_mainnet :
    ∃ n, (diskCheck switchedIo "" ⟨none, false, true⟩ mainnetCard).1 = some n ∧
      n.id = mainnetChainId := by
  have hcard : cardTargetChainId mainnetCard = some mainnetChainId := rfl
  exact (disk_check_one_chain hcard switchedIo "" ⟨none, false, true⟩ rfl).1 (by decide +kernel)

end Russignol.Host
