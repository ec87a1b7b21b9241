import Mathlib.Data.List.Basic
import Russignol.Host.ApplyRepairs

/-!
# The executor

When the executor takes an action, and what it leaves when it does not. An action finds what it
works on and is allowed to the host (`RepairAction.Allowed`), or it fails and leaves the card, but
for a configuration that is staged and then refused (`takeRepair_cases`). So what every action keeps
is kept however the executor ends (`executeRepairs_keeps`), an executor that returned has taken all
(`executeRepairs_ok`), and it takes all where each is allowed when its turn comes
(`executeRepairs_of_allowed`).
-/

namespace Russignol.Host

open Crypto EarlyExit

variable [JsonText] {host : CheckHost} {time : String} {node : Option ChainInfo} {img : CardImage}
  {a b : RepairAction} {actions : List RepairAction}

/-! ## An action -/

/-- The host may write the chain information: its file is the host's, or can be created. -/
def CheckHost.mayWriteChainInfo (host : CheckHost) (img : CardImage) : Bool :=
  match img.keys .chainInfo with
  | some f => host.owns f.owner
  | none => host.creates img

/-- The action finds what it works on, and the host is allowed to take it. -/
def RepairAction.Allowed (host : CheckHost) (node : Option ChainInfo) (img : CardImage) :
    RepairAction → Prop
  | .chownWatermarks pkh => (img.dir pkh).isSome = true
  | .writeChainInfo => node.isSome = true ∧ host.mayWriteChainInfo img = true
  | .chmodChainInfo => ∃ f, img.keys .chainInfo = some f ∧ host.owns f.owner = true
  | .chownChainInfo => (img.keys .chainInfo).isSome = true
  | .truncatePanicLog => ∃ f, img.panicLog = some f ∧ host.writes f = true
  | .deleteBootConfig => img.boot.isSome = true ∧ host.writesBoot = true
  | .stageBootConfig chain => host.writesBoot = true ∧ chain.name ≠ "" ∧ chain.id ≠ ""

/-- An action where the executor takes it. -/
def takeRepair (host : CheckHost) (time : String) (node : Option ChainInfo)
    (action : RepairAction) : Prog CardImage Unit :=
  match action with
  | .stageBootConfig chain => stageBootConfig host time chain
  | _ => applyAction host node action

/-- The executor takes the actions in its order. -/
theorem executeRepairs_eq (host : CheckHost) (time : String) (node : Option ChainInfo)
    (actions : List RepairAction) :
    executeRepairs host time node actions =
      forM (executionOrder actions) (takeRepair host time node) := by
  have hparts : ∀ part : Partition,
      ((actions.filter (!·.isStage)).filter (·.partition = part)).forM (applyAction host node) =
        forM ((actions.filter (!·.isStage)).filter (·.partition = part))
          (takeRepair host time node) := by
    refine fun part => forM_congr fun a ha => ?_
    have hnot := (List.mem_filter.1 (List.mem_filter.1 ha).1).2
    cases a with
    | stageBootConfig chain => cases hnot
    | _ => rfl
  have hstages : actions.forM (stageFirst host time) =
      forM (actions.filter (·.isStage)) (takeRepair host time node) := by
    refine forM_filter (fun a ha => ?_) (fun a ha => ?_) actions
    · cases a with
      | stageBootConfig chain => rfl
      | _ => cases ha
    · cases a with
      | stageBootConfig chain => cases ha
      | _ => rfl
  rw [executeRepairs, executionOrder, List.forM_append, hstages, ← forM_flatMap]
  exact congrArg _ (funext fun _ => forM_congr fun part _ => hparts part)

/-- Rewriting the chain information, and giving it to the device. -/
theorem takeRepair_write {n : ChainInfo} (h : host.mayWriteChainInfo img = true) :
    takeRepair host time (some n) .writeChainInfo img =
      .ok () (img.withChainInfo (some (host.chainInfoFile n))) := by
  have howned : ∀ o, host.chown (host.file o chainInfoMode (chainInfoBytes n)) =
      host.chainInfoFile n := by
    intro o
    unfold CheckHost.chown
    split
    · next ho =>
      have ho : o = deviceOwner := ho
      rw [ho]
      rfl
    · rfl
  have hthen : ∀ (path : String) (o : Owner), ensureChainInfoOwned host path
      (img.withChainInfo (some (host.file o chainInfoMode (chainInfoBytes n)))) =
        .ok () (img.withChainInfo (some (host.chainInfoFile n))) := by
    intro path o
    simp only [ensureChainInfoOwned, CardImage.withChainInfo_chainInfo, howned]
    rw [CardImage.withChainInfo_withChainInfo]
  unfold CheckHost.mayWriteChainInfo at h
  cases hfile : img.keys .chainInfo with
  | some f =>
    rw [hfile] at h
    have hwrite : ∀ path, writeChainInfo host path n img = .ok ()
        (img.withChainInfo (some (host.file f.owner chainInfoMode (chainInfoBytes n)))) := by
      intro path
      simp only [writeChainInfo, hfile, h, if_true]
    exact (bind_of_ok (hwrite _)).trans (hthen _ _)
  | none =>
    rw [hfile] at h
    have hwrite : ∀ path, writeChainInfo host path n img = .ok () (img.withChainInfo
        (some (host.file (host.uid, host.gid) chainInfoMode (chainInfoBytes n)))) := by
      intro path
      simp only [writeChainInfo, hfile, h, if_true]
    exact (bind_of_ok (hwrite _)).trans (hthen _ _)

/-- A file that the host may not write is left as it is. -/
theorem takeRepair_write_denied {n : ChainInfo} (h : host.mayWriteChainInfo img = false) :
    ∃ e, takeRepair host time (some n) .writeChainInfo img = .error e img := by
  have hwrite : ∀ path, ∃ e, writeChainInfo host path n img = .error e img := by
    intro path
    unfold CheckHost.mayWriteChainInfo at h
    cases hfile : img.keys .chainInfo with
    | some f =>
      rw [hfile] at h
      simp only [writeChainInfo, hfile, h, Bool.false_eq_true, if_false]
      exact ⟨_, rfl⟩
    | none =>
      rw [hfile] at h
      simp only [writeChainInfo, hfile, h, Bool.false_eq_true, if_false]
      exact ⟨_, rfl⟩
  obtain ⟨e, he⟩ := hwrite (host.mountPoint .keys ++ "/" ++ "chain_info.json")
  exact ⟨e, bind_of_error he⟩

/-- **An action** that is allowed does what it is for; one that is not fails and leaves the card,
but for a configuration that was staged and then refused. -/
theorem takeRepair_cases (host : CheckHost) (time : String) (node : Option ChainInfo)
    (a : RepairAction) (img : CardImage) :
    a.Allowed host node img ∧ takeRepair host time node a img =
        .ok () (a.effect host time node img) ∨
      ¬ a.Allowed host node img ∧ ∃ e, takeRepair host time node a img = .error e
        (if a.isStage && host.writesBoot then a.effect host time node img else img) := by
  cases a with
  | chownWatermarks pkh =>
    simp only [takeRepair, applyAction, RepairAction.Allowed, RepairAction.effect]
    cases img.dir pkh with
    | some d => exact .inl ⟨rfl, rfl⟩
    | none => exact .inr ⟨Bool.false_ne_true, _, rfl⟩
  | writeChainInfo =>
    cases node with
    | none => exact .inr ⟨fun h => Bool.false_ne_true h.1, _, rfl⟩
    | some n =>
      cases h : host.mayWriteChainInfo img with
      | true => exact .inl ⟨⟨rfl, h⟩, takeRepair_write h⟩
      | false =>
        refine .inr ⟨fun hallowed => ?_, takeRepair_write_denied h⟩
        exact Bool.false_ne_true (h.symm.trans hallowed.2)
  | chmodChainInfo =>
    simp only [takeRepair, applyAction, RepairAction.Allowed, RepairAction.effect]
    cases hfile : img.keys .chainInfo with
    | none => exact .inr ⟨by simp, _, rfl⟩
    | some f =>
      dsimp only
      split
      · next howns => exact .inl ⟨⟨f, rfl, howns⟩, rfl⟩
      · next howns =>
        refine .inr ⟨?_, _, rfl⟩
        rintro ⟨f', hf', howns'⟩
        exact howns (Option.some.inj hf' ▸ howns')
  | chownChainInfo =>
    simp only [takeRepair, applyAction, ensureChainInfoOwned, RepairAction.Allowed,
      RepairAction.effect]
    cases img.keys .chainInfo with
    | some f => exact .inl ⟨rfl, rfl⟩
    | none => exact .inr ⟨Bool.false_ne_true, _, rfl⟩
  | truncatePanicLog =>
    simp only [takeRepair, applyAction, RepairAction.Allowed, RepairAction.effect]
    cases img.panicLog with
    | none => exact .inr ⟨by simp, _, rfl⟩
    | some f =>
      dsimp only
      split
      · next hwrites => exact .inl ⟨⟨f, rfl, hwrites⟩, rfl⟩
      · next hwrites =>
        refine .inr ⟨?_, _, rfl⟩
        rintro ⟨f', hf', hwrites'⟩
        exact hwrites (Option.some.inj hf' ▸ hwrites')
  | deleteBootConfig =>
    simp only [takeRepair, applyAction, RepairAction.Allowed, RepairAction.effect]
    cases img.boot with
    | none => exact .inr ⟨fun h => Bool.false_ne_true h.1, _, rfl⟩
    | some raw =>
      dsimp only
      split
      · next hwrites => exact .inl ⟨⟨rfl, hwrites⟩, rfl⟩
      · next hwrites => exact .inr ⟨fun h => hwrites h.2, _, rfl⟩
  | stageBootConfig chain =>
    simp only [takeRepair, stageBootConfig, RepairAction.Allowed, RepairAction.effect,
      RepairAction.isStage, Bool.true_and]
    cases host.writesBoot with
    | false => exact .inr ⟨fun h => Bool.false_ne_true h.1, _, rfl⟩
    | true =>
      rw [Bool.not_true, if_neg Bool.false_ne_true, if_pos rfl]
      split
      · next hbad => exact .inr ⟨fun h => hbad.elim h.2.1 h.2.2, _, rfl⟩
      · next hgood => exact .inl ⟨⟨rfl, not_or.1 hgood⟩, rfl⟩

/-- An action that is allowed is taken. -/
theorem takeRepair_of_allowed (h : a.Allowed host node img) :
    takeRepair host time node a img = .ok () (a.effect host time node img) :=
  (takeRepair_cases host time node a img).elim And.right fun hnot => absurd h hnot.1

/-- What an allowed action keeps, and a staged configuration, is kept however the action ends. -/
theorem takeRepair_keeps {P : CardImage → Prop} (h : ∀ img, P img →
    a.Allowed host node img ∨ a.isStage = true → P (a.effect host time node img)) :
    Keeps P (takeRepair host time node a) := by
  intro img himg
  unfold EStateM.run
  rcases takeRepair_cases host time node a img with ⟨hallowed, hrun⟩ | ⟨-, e, hrun⟩
  · rw [hrun]
    exact h img himg (.inl hallowed)
  · rw [hrun]
    dsimp only
    split
    · next hstaged => exact h img himg (.inr (Bool.and_eq_true_iff.1 hstaged).1)
    · exact himg

/-- What the actions keep is kept by the executor, however it ends. -/
theorem executeRepairs_keeps {P : CardImage → Prop} (h : ∀ a ∈ actions, ∀ img, P img →
    a.Allowed host node img ∨ a.isStage = true → P (a.effect host time node img)) :
    Keeps P (executeRepairs host time node actions) := by
  rw [executeRepairs_eq]
  exact Keeps.forM fun a ha => takeRepair_keeps (h a (mem_executionOrder.1 ha))

/-- **An executor that returned has taken every action.** -/
theorem executeRepairs_ok {img' : CardImage}
    (h : executeRepairs host time node actions img = .ok () img') :
    img' = applyAll host time node actions img := by
  rw [executeRepairs_eq] at h
  refine forM_ok (fun a s s' hrun => ?_) h
  rcases takeRepair_cases host time node a s with ⟨-, hrun'⟩ | ⟨-, e, hrun'⟩
  · rw [hrun'] at hrun
    cases hrun
    rfl
  · rw [hrun'] at hrun
    cases hrun

/-- **A configuration that a plan stages is on the card**, also when the executor fails. -/
theorem executeRepairs_staged {n : ChainInfo} (hplan : Plan node actions)
    (hboot : host.writesBoot = true) (h : .stageBootConfig n ∈ actions) :
    (final (executeRepairs host time node actions) img).boot =
      some (WatermarkConfig.bytes ⟨time, n⟩) := by
  have hfirst : ∃ rest, executionOrder actions = .stageBootConfig n :: rest := by
    have hmem : RepairAction.stageBootConfig n ∈ actions.filter (·.isStage) :=
      List.mem_filter.2 ⟨h, rfl⟩
    rw [executionOrder]
    cases hstages : actions.filter (·.isStage) with
    | nil =>
      rw [hstages] at hmem
      cases hmem
    | cons b rest =>
      obtain ⟨hb, hstage⟩ := List.mem_filter.1 (hstages ▸ List.mem_cons_self (a := b))
      cases b with
      | stageBootConfig chain =>
        have hchain := (hplan.staged chain hb).symm.trans (hplan.staged n h)
        rw [Option.some.inj hchain]
        exact ⟨_, List.cons_append⟩
      | _ => cases hstage
  obtain ⟨rest, hrest⟩ := hfirst
  have hhead : Triple (fun _ => True) (takeRepair host time node (.stageBootConfig n))
      (fun _ img => img.boot = some (WatermarkConfig.bytes ⟨time, n⟩))
      (fun img => img.boot = some (WatermarkConfig.bytes ⟨time, n⟩)) := by
    intro img _
    unfold EStateM.run
    rcases takeRepair_cases host time node (.stageBootConfig n) img with ⟨-, hrun⟩ | ⟨-, e, hrun⟩
    · rw [hrun]
      rfl
    · rw [hrun, hboot]
      rfl
  have htail : ∀ a ∈ rest, Keeps (fun img => img.boot = some (WatermarkConfig.bytes ⟨time, n⟩))
      (takeRepair host time node a) := by
    refine fun a ha => takeRepair_keeps fun img himg _ => ?_
    have ha : a ∈ actions := mem_executionOrder.1 (hrest ▸ List.mem_cons_of_mem _ ha)
    cases a with
    | deleteBootConfig => exact absurd ha (hplan.apart ⟨n, h⟩)
    | stageBootConfig chain =>
      rw [Option.some.inj ((hplan.staged chain ha).symm.trans (hplan.staged n h))]
      rfl
    | _ => exact himg
  rw [executeRepairs_eq, hrest, List.forM_cons]
  exact Triple.final (hhead.bind fun _ => Keeps.forM htail) trivial

/-- The chain information that there is stays, in some form. -/
theorem RepairAction.effect_chainInfo_isSome (h : (img.keys .chainInfo).isSome = true) :
    ((b.effect host time node img).keys .chainInfo).isSome = true := by
  cases b with
  | writeChainInfo =>
    rw [effect, CardImage.withChainInfo_chainInfo, Option.isSome_or, h, Bool.or_true]
  | chmodChainInfo => rwa [effect, CardImage.withChainInfo_chainInfo, Option.isSome_map]
  | chownChainInfo => rwa [effect, CardImage.withChainInfo_chainInfo, Option.isSome_map]
  | _ => exact h

/-- The host may go on writing the chain information, if it owns what the device owns. -/
theorem CheckHost.mayWriteChainInfo_effect (hown : host.owns deviceOwner = true)
    (h : host.mayWriteChainInfo img = true) :
    host.mayWriteChainInfo (b.effect host time node img) = true := by
  unfold mayWriteChainInfo at h ⊢
  cases b with
  | writeChainInfo =>
    rw [RepairAction.effect, CardImage.withChainInfo_chainInfo]
    cases node with
    | some n => exact hown
    | none =>
      rw [Option.map_none, Option.none_or]
      exact h
  | chmodChainInfo =>
    rw [RepairAction.effect, CardImage.withChainInfo_chainInfo]
    cases hfile : img.keys .chainInfo with
    | some f =>
      rw [hfile] at h
      exact h
    | none =>
      rw [hfile] at h
      exact h
  | chownChainInfo =>
    rw [RepairAction.effect, CardImage.withChainInfo_chainInfo]
    cases hfile : img.keys .chainInfo with
    | some f =>
      rw [Option.map_some]
      dsimp only
      rwa [owner_chown]
    | none =>
      rw [hfile] at h
      exact h
  | _ => exact h

/-- An action is allowed after another one, if the host owns what the device owns. -/
theorem RepairAction.Allowed.effect
    (hown : a = .writeChainInfo ∨ a = .chmodChainInfo → host.owns deviceOwner = true)
    (hne : a ≠ b) (h : a.Allowed host node img) :
    a.Allowed host node (b.effect host time node img) := by
  cases a with
  | chownWatermarks pkh =>
    cases b with
    | chownWatermarks pkh' =>
      show ((img.chownTree host pkh').dir pkh).isSome = true
      rw [CardImage.chownTree_dir]
      split
      · rwa [Option.isSome_map]
      · exact h
    | _ => exact h
  | writeChainInfo => exact ⟨h.1, CheckHost.mayWriteChainInfo_effect (hown (.inl rfl)) h.2⟩
  | chmodChainInfo =>
    obtain ⟨f, hf, howns⟩ := h
    obtain ⟨f', hf'⟩ := Option.isSome_iff_exists.1
      (@effect_chainInfo_isSome _ host time node img b (Option.isSome_iff_exists.2 ⟨f, hf⟩))
    refine ⟨f', hf', ?_⟩
    obtain ⟨n, -, rfl⟩ | ⟨g, hg, hfrom⟩ := effect_chainInfo hf'
    · exact hown (.inr rfl)
    · obtain rfl := Option.some.inj (hf.symm.trans hg)
      rcases hfrom with rfl | rfl | rfl
      · exact howns
      · rw [host.owner_chown]
        exact hown (.inr rfl)
      · exact howns
  | chownChainInfo => exact effect_chainInfo_isSome h
  | truncatePanicLog =>
    cases b with
    | truncatePanicLog => exact absurd rfl hne
    | _ => exact h
  | deleteBootConfig =>
    cases b with
    | deleteBootConfig => exact absurd rfl hne
    | stageBootConfig chain => exact ⟨rfl, h.2⟩
    | _ => exact h
  | stageBootConfig chain => exact h

/-- Setting the mode of the chain information is allowed once it was chowned. -/
theorem chmod_allowed (hown : host.owns deviceOwner = true)
    (h : (img.keys .chainInfo).isSome = true) : RepairAction.Allowed host node
      (RepairAction.chownChainInfo.effect host time node img) .chmodChainInfo := by
  obtain ⟨f, hf⟩ := Option.isSome_iff_exists.1 h
  refine ⟨host.chown f, ?_, ?_⟩
  · rw [RepairAction.effect, CardImage.withChainInfo_chainInfo, hf]
    rfl
  · rwa [host.owner_chown]

/-- Actions that are allowed, or wait for the chain information to be chowned, are taken. -/
theorem forM_takeRepair : ∀ {actions : List RepairAction} {img : CardImage},
    (∀ a ∈ actions, a.Allowed host node img ∨ a = .chmodChainInfo ∧
      .chownChainInfo ∈ actions ∧ (img.keys .chainInfo).isSome = true) →
    (∀ a ∈ actions, a = .writeChainInfo ∨ a = .chmodChainInfo → host.owns deviceOwner = true) →
    actions.Nodup → ¬ List.Sublist [.chmodChainInfo, .chownChainInfo] actions →
      (forM actions (takeRepair host time node) : Prog CardImage Unit) img =
        .ok () (actions.foldl (fun img action => action.effect host time node img) img)
  | [], _, _, _, _, _ => rfl
  | a :: actions, img, hallowed, hown, hnodup, horder => by
    obtain ⟨hnotin, hnodup⟩ := List.nodup_cons.1 hnodup
    have hhead : a.Allowed host node img := by
      rcases hallowed a List.mem_cons_self with h | ⟨rfl, hchown, -⟩
      · exact h
      · have hlater := (List.mem_cons.1 hchown).resolve_left (by decide)
        exact absurd (List.cons_sublist_cons.2 (List.singleton_sublist.2 hlater)) horder
    have hrest : ∀ b ∈ actions, b.Allowed host node (a.effect host time node img) ∨
        b = .chmodChainInfo ∧ .chownChainInfo ∈ actions ∧
          ((a.effect host time node img).keys .chainInfo).isSome = true := by
      intro b hb
      have hmay := hown b (List.mem_cons_of_mem a hb)
      rcases hallowed b (List.mem_cons_of_mem a hb) with h | ⟨rfl, hchown, hsome⟩
      · exact .inl (h.effect hmay fun heq => hnotin (heq ▸ hb))
      · rcases List.mem_cons.1 hchown with rfl | hchown
        · exact .inl (chmod_allowed (hmay (.inr rfl)) hsome)
        · exact .inr ⟨rfl, hchown, RepairAction.effect_chainInfo_isSome hsome⟩
    rw [List.forM_cons, bind_of_ok (takeRepair_of_allowed hhead), List.foldl_cons]
    exact forM_takeRepair hrest (fun b hb => hown b (List.mem_cons_of_mem a hb)) hnodup
      fun hsub => horder (hsub.trans (List.sublist_cons_self a actions))

omit [JsonText] in
/-- The executor's order of the actions of the keys partition is that of the plan. -/
theorem filter_executionOrder :
    (executionOrder actions).filter (·.partition = .keys) =
      actions.filter (·.partition = .keys) := by
  have hkeep : ∀ part : Partition, ((actions.filter (!·.isStage)).filter
      (·.partition = part)).filter (·.partition = .keys) =
        if part = .keys then actions.filter (·.partition = .keys) else [] := by
    intro part
    rw [List.filter_filter, List.filter_filter]
    split
    · next hpart =>
      subst hpart
      refine List.filter_congr fun a _ => ?_
      cases a <;> rfl
    · next hpart =>
      refine List.filter_eq_nil_iff.2 fun a _ => ?_
      cases a <;> cases part <;> simp_all [RepairAction.partition]
  have hstages : (actions.filter (·.isStage)).filter (·.partition = .keys) = [] := by
    rw [List.filter_filter]
    refine List.filter_eq_nil_iff.2 fun a _ => ?_
    cases a <;> exact Bool.false_ne_true
  rw [executionOrder, List.filter_append, hstages, List.nil_append, List.filter_flatMap]
  simp only [hkeep, List.flatMap_cons, List.flatMap_nil, if_true]
  exact List.append_nil _

omit [JsonText] in
theorem nodup_executionOrder (h : actions.Nodup) : (executionOrder actions).Nodup := by
  rw [executionOrder]
  refine List.nodup_append.2 ⟨h.filter _, List.nodup_flatMap.2
    ⟨fun part _ => (h.filter _).filter _, ?_⟩, ?_⟩
  · refine List.Pairwise.imp (R := (· ≠ ·)) (fun {part part'} hne a ha ha' => hne ?_) (by decide)
    exact (of_decide_eq_true (List.mem_filter.1 ha).2).symm.trans
      (of_decide_eq_true (List.mem_filter.1 ha').2)
  · rintro a ha b hb rfl
    obtain ⟨part, -, hb⟩ := List.mem_flatMap.1 hb
    have hnot := (List.mem_filter.1 (List.mem_filter.1 hb).1).2
    rw [(List.mem_filter.1 ha).2] at hnot
    cases hnot

/-- **The executor takes every action**, where each is allowed, or sets the mode of a chain
information that is chowned before. -/
theorem executeRepairs_of_allowed
    (hallowed : ∀ a ∈ actions, a.Allowed host node img ∨ a = .chmodChainInfo ∧
      .chownChainInfo ∈ actions ∧ (img.keys .chainInfo).isSome = true)
    (hown : ∀ a ∈ actions, a = .writeChainInfo ∨ a = .chmodChainInfo →
      host.owns deviceOwner = true)
    (hnodup : actions.Nodup) (horder : ¬ List.Sublist [.chmodChainInfo, .chownChainInfo] actions) :
    executeRepairs host time node actions img =
      .ok () (applyAll host time node actions img) := by
  rw [executeRepairs_eq, applyAll]
  refine forM_takeRepair (fun a ha => ?_) (fun a ha => hown a (mem_executionOrder.1 ha))
    (nodup_executionOrder hnodup) fun hsub => horder ?_
  · rw [mem_executionOrder]
    exact hallowed a (mem_executionOrder.1 ha)
  · have hkeys := hsub.filter (·.partition = .keys)
    rw [filter_executionOrder] at hkeys
    exact hkeys.trans List.filter_sublist

omit [JsonText] in
/-- Where the chain information is chowned, and otherwise only its mode is set, that comes first. -/
theorem executionOrder_chown (hstage : ∀ a ∈ actions, a.isStage = false)
    (hkeys : ∀ a ∈ actions, a.partition = .keys → a = .chownChainInfo ∨ a = .chmodChainInfo)
    (horder : ¬ List.Sublist [.chmodChainInfo, .chownChainInfo] actions)
    (h : .chownChainInfo ∈ actions) :
    ∃ rest, executionOrder actions = .chownChainInfo :: rest := by
  have hstages : actions.filter (·.isStage) = [] :=
    List.filter_eq_nil_iff.2 fun a ha => Bool.eq_false_iff.1 (hstage a ha)
  have hmem : .chownChainInfo ∈ (actions.filter (!·.isStage)).filter (·.partition = .keys) :=
    List.mem_filter.2 ⟨List.mem_filter.2 ⟨h, rfl⟩, rfl⟩
  rw [executionOrder, hstages, List.nil_append, List.flatMap_cons]
  cases hgroup : (actions.filter (!·.isStage)).filter (·.partition = .keys) with
  | nil =>
    rw [hgroup] at hmem
    cases hmem
  | cons b rest =>
    have hsub : List.Sublist (b :: rest) actions :=
      hgroup ▸ List.filter_sublist.trans List.filter_sublist
    have hb : b ∈ (actions.filter (!·.isStage)).filter (·.partition = .keys) :=
      hgroup ▸ List.mem_cons_self
    rcases hkeys b (hsub.subset List.mem_cons_self)
        (of_decide_eq_true (List.mem_filter.1 hb).2) with rfl | rfl
    · exact ⟨_, List.cons_append⟩
    · rw [hgroup] at hmem
      have hlater := (List.mem_cons.1 hmem).resolve_left (by decide)
      refine absurd (List.Sublist.trans ?_ hsub) horder
      exact List.cons_sublist_cons.2 (List.singleton_sublist.2 hlater)

/-- What the rest keeps after an allowed first action. -/
theorem executeRepairs_first {P : CardImage → Prop} {rest : List RepairAction}
    (hrest : executionOrder actions = a :: rest) (hallowed : a.Allowed host node img)
    (himg : P (a.effect host time node img)) (h : ∀ b ∈ actions, ∀ img, P img →
      b.Allowed host node img ∨ b.isStage = true → P (b.effect host time node img)) :
    P (final (executeRepairs host time node actions) img) := by
  have hrun : (executeRepairs host time node actions) img =
      (forM rest (takeRepair host time node) : Prog CardImage Unit)
        (a.effect host time node img) := by
    rw [executeRepairs_eq, hrest, List.forM_cons, bind_of_ok (takeRepair_of_allowed hallowed)]
  have hkeeps : Keeps P (forM rest (takeRepair host time node) : Prog CardImage Unit) :=
    Keeps.forM fun b hb => takeRepair_keeps
      (h b (mem_executionOrder.1 (hrest ▸ List.mem_cons_of_mem a hb)))
  rw [final, EStateM.run, hrun]
  exact Triple.final hkeeps himg

end Russignol.Host
