import Russignol.Base.Moves
import Russignol.Host.RotateKeys

/-!
# The rollback of a promotion

`promote_aliases_with_backup` (`host-utility/src/rotate_keys.rs`) against a wallet whose renames are
made or fail: four renames, each of the last three with the renames that take the others back, and
an error that names the aliases that were not taken back (`rollback_incomplete`).
`promotion_rollback_iff` says that repairing the aliases that are named gives the wallet back,
unless one pattern of failures takes the only alias of the new consensus key.
-/

namespace Russignol.Host

open EarlyExit Moves

/-! ## The aliases an error names -/

/-- Two lists up to the first `c` are the same. -/
theorem append_cons_inj {c : Char} : ∀ {l l' r r' : List Char}, c ∉ l → c ∉ l' →
    l ++ c :: r = l' ++ c :: r' → l = l' ∧ r = r'
  | [], [], _, _, _, _, h => ⟨rfl, (List.cons.inj h).2⟩
  | [], _ :: _, _, _, _, h', h => absurd ((List.cons.inj h).1 ▸ List.mem_cons_self) h'
  | _ :: _, [], _, _, h, _, heq => absurd ((List.cons.inj heq).1 ▸ List.mem_cons_self) h
  | a :: l, a' :: l', r, r', h, h', heq => by
    obtain ⟨hhead, htail⟩ := List.cons.inj heq
    rw [List.mem_cons, not_or] at h h'
    obtain ⟨hl, hr⟩ := append_cons_inj h.2 h'.2 htail
    exact ⟨by rw [hhead, hl], hr⟩

/-- An alias has no comma and no full stop in its name. -/
theorem BakerAlias.plain_name (a : BakerAlias) : ',' ∉ a.name.toList ∧ '.' ∉ a.name.toList := by
  rcases a with (_ | _) | (_ | _) | (_ | _) <;> decide

/-- The names in a row tell the aliases. -/
theorem intercalate_names_inj : ∀ {us us' : List BakerAlias}, us ≠ [] → us' ≠ [] →
    ", ".intercalate (us.map (·.name)) = ", ".intercalate (us'.map (·.name)) → us = us'
  | [], _, h, _, _ => absurd rfl h
  | _, [], _, h, _ => absurd rfl h
  | [a], [a'], _, _, h => by
    simp only [List.map_cons, List.map_nil, String.intercalate_singleton] at h
    rw [BakerAlias.name_injective h]
  | [a], a' :: b' :: us', _, _, h => by
    refine absurd ?_ a.plain_name.1
    simp only [List.map_cons, List.map_nil, String.intercalate_singleton,
      String.intercalate_cons_cons] at h
    rw [h, String.toList_append, String.toList_append]
    exact List.mem_append_left _ (List.mem_append_right _ (by decide))
  | a :: b :: us, [a'], _, _, h => by
    refine absurd ?_ a'.plain_name.1
    simp only [List.map_cons, List.map_nil, String.intercalate_singleton,
      String.intercalate_cons_cons] at h
    rw [← h, String.toList_append, String.toList_append]
    exact List.mem_append_left _ (List.mem_append_right _ (by decide))
  | a :: b :: us, a' :: b' :: us', _, _, h => by
    simp only [List.map_cons, String.intercalate_cons_cons] at h
    have hchars := congrArg String.toList h
    simp only [String.toList_append, List.append_assoc] at hchars
    obtain ⟨hname, hrest⟩ := append_cons_inj a.plain_name.1 a'.plain_name.1 hchars
    have hrest := String.toList_injective (List.cons.inj hrest).2
    rw [BakerAlias.name_injective (String.toList_injective hname),
      intercalate_names_inj (List.cons_ne_nil _ _) (List.cons_ne_nil _ _) hrest]

/-- An error names the aliases that were not restored. -/
theorem rollbackIncomplete_inj {text text' : String} {us us' : List BakerAlias} (hus : us ≠ [])
    (hus' : us' ≠ []) (h : rollbackIncomplete text us = rollbackIncomplete text' us') :
    us = us' := by
  have hplain : ∀ {us : List BakerAlias}, '.' ∉ (", ".intercalate (us.map (·.name))).toList := by
    intro us
    induction us with
    | nil => decide
    | cons a us ih =>
      cases us with
      | nil =>
        simp only [List.map_cons, List.map_nil, String.intercalate_singleton]
        exact a.plain_name.2
      | cons b us =>
        simp only [List.map_cons, String.intercalate_cons_cons, String.toList_append,
          List.mem_append, not_or]
        exact ⟨⟨a.plain_name.2, by decide⟩, ih⟩
  unfold rollbackIncomplete at h
  rw [if_neg (by simpa using hus), if_neg (by simpa using hus')] at h
  have hchars := congrArg String.toList h
  simp only [String.toList_append, List.append_assoc] at hchars
  have hnames := List.append_cancel_left hchars
  exact intercalate_names_inj hus hus'
    (String.toList_injective (append_cons_inj hplain hplain hnames).1)

/-! ## Renames that are made or fail -/

/-- A run in which the renames of `failures` fail with a text, and the others are made. -/
def RunIo.failing (io : RunIo) (failures : String → String → Option String) : RunIo :=
  { io with rename := fun a b =>
      match failures a.name b.name with
      | some text => .failed text
      | none => .done }

/-- The rename fails. -/
def failsAt (failures : String → String → Option String) (p : String × String) : Bool :=
  (failures p.1 p.2).isSome

/-- The names of a rename. -/
def pairNames (p : BakerAlias × BakerAlias) : String × String := (p.1.name, p.2.name)

/-- The aliases of a run. -/
def World.aliasMap (w : World) : Table String String := w.now.wallet.aliasMap

section

variable {io : RunIo} {failures : String → String → Option String} {w : World}

/-- The wallet is asked, and nothing changes. -/
theorem keyHash_run (a : BakerAlias) (w : World) : keyHash a w = .ok (w.aliasMap a.name) w := rfl

/-- An effect that fails changes nothing. -/
theorem perform_failed_run (text : String) (f : Rotation → Rotation) (w : World) :
    perform (.failed text) f w = .ok (.error text) w := rfl

/-- An effect that is done is carried out. -/
theorem perform_done_run (f : Rotation → Rotation) (w : World) :
    perform .done f w = .ok (.ok ()) { w with now := f w.now } := rfl

/-- A rename of an alias that is there, which fails. -/
theorem renameAliasLocally_of_failure {a b : BakerAlias} {text : String}
    (hsome : (w.aliasMap a.name).isSome = true) (h : failures a.name b.name = some text) :
    renameAliasLocally (io.failing failures) a b w = .ok (.error text) w := by
  have hio : (io.failing failures).rename a b = .failed text := by
    simp only [RunIo.failing, h]
  unfold renameAliasLocally
  rw [hio, bind_of_ok (keyHash_run a w), bind_of_ok (perform_failed_run text _ w), if_pos hsome]
  rfl

/-- A rename of an alias that is there, which is done. -/
theorem renameAliasLocally_of_done {a b : BakerAlias} (hne : a ≠ b)
    (hsome : (w.aliasMap a.name).isSome = true) (h : failures a.name b.name = none) :
    ∃ w', renameAliasLocally (io.failing failures) a b w = .ok (.ok ()) w' ∧
      w'.aliasMap = move w.aliasMap a.name b.name := by
  have hio : (io.failing failures).rename a b = .done := by
    simp only [RunIo.failing, h]
  refine ⟨{ w with now := { w.now with wallet := w.now.wallet.renameAlias a b } }, ?_,
    Wallet.aliasMap_renameAlias hne hsome⟩
  unfold renameAliasLocally
  rw [hio, bind_of_ok (keyHash_run a w), bind_of_ok (perform_done_run _ w), if_pos hsome]
  rfl

/-- The sources of a rollback: each has a value, and each is renamed once. -/
def Sources (m : Table String String) (renames : List (BakerAlias × BakerAlias)) : Prop :=
  (∀ p ∈ renames, p.1 ≠ p.2 ∧ (m p.1.name).isSome = true) ∧
    renames.Pairwise fun p q => p.1 ≠ q.1

/-- The renames that are left have their sources after the first. -/
theorem Sources.tail {m : Table String String} {p : BakerAlias × BakerAlias}
    {renames : List (BakerAlias × BakerAlias)} (h : Sources m (p :: renames)) :
    Sources m renames ∧ Sources (move m p.1.name p.2.name) renames := by
  obtain ⟨hsome, hdistinct⟩ := h
  obtain ⟨hhead, hsome⟩ := List.forall_mem_cons.1 hsome
  obtain ⟨hfirst, hdistinct⟩ := List.pairwise_cons.1 hdistinct
  refine ⟨⟨hsome, hdistinct⟩, fun q hq => ⟨(hsome q hq).1, ?_⟩, hdistinct⟩
  have hsource : q.1.name ≠ p.1.name := fun heq => hfirst q hq (BakerAlias.name_injective heq).symm
  by_cases htarget : q.1.name = p.2.name
  · rw [htarget, move_target]
    exact hhead.2
  · rw [move_other hsource htarget]
    exact (hsome q hq).2

/-- What a rollback leaves, and what it reports. -/
theorem restore_run : ∀ {renames : List (BakerAlias × BakerAlias)} {w : World},
    Sources w.aliasMap renames →
    ∃ w', restore (io.failing failures) renames w =
        .ok ((renames.filter fun p => failsAt failures (pairNames p)).map Prod.snd) w' ∧
      w'.aliasMap = moveSome (failsAt failures) w.aliasMap (renames.map pairNames)
  | [], w, _ => ⟨w, rfl, rfl⟩
  | (a, b) :: renames, w, h => by
    obtain ⟨hkept, hmoved⟩ := h.tail
    obtain ⟨hne, hsome⟩ := h.1 (a, b) List.mem_cons_self
    cases hfails : failures a.name b.name with
    | some text =>
      have hfailsAt : failsAt failures (pairNames (a, b)) = true := by
        rw [failsAt, pairNames, hfails]
        rfl
      obtain ⟨w', hrest, hmap⟩ := restore_run hkept
      refine ⟨w', ?_, ?_⟩
      · rw [restore, bind_of_ok (renameAliasLocally_of_failure hsome hfails), bind_of_ok hrest,
          List.filter_cons, if_pos hfailsAt]
        rfl
      · rw [hmap, List.map_cons]
        exact (congrArg (moveSome _ · _) (if_pos hfailsAt)).symm
    | none =>
      have hfailsAt : failsAt failures (pairNames (a, b)) = false := by
        rw [failsAt, pairNames, hfails]
        rfl
      obtain ⟨w₁, hrename, hmap₁⟩ := @renameAliasLocally_of_done io failures w _ _ hne hsome hfails
      obtain ⟨w', hrest, hmap⟩ := restore_run (w := w₁) (hmap₁ ▸ hmoved)
      refine ⟨w', ?_, ?_⟩
      · rw [restore, bind_of_ok hrename, bind_of_ok hrest, List.filter_cons, hfailsAt]
        rfl
      · rw [hmap, hmap₁, List.map_cons]
        refine (congrArg (moveSome _ · _) (if_neg ?_)).symm
        exact fun htrue => Bool.false_ne_true (hfailsAt.symm.trans htrue)

/-- A rename of the promotion that is made. -/
theorem renameOrRestore_of_done {a b : BakerAlias} {context : String}
    {rollback : List (BakerAlias × BakerAlias)} (hne : a ≠ b)
    (hsome : (w.aliasMap a.name).isSome = true) (h : failures a.name b.name = none) :
    ∃ w', renameOrRestore (io.failing failures) a b context rollback w = .ok () w' ∧
      w'.aliasMap = move w.aliasMap a.name b.name := by
  obtain ⟨w', hrename, hmap⟩ := @renameAliasLocally_of_done io failures w _ _ hne hsome h
  refine ⟨w', ?_, hmap⟩
  unfold renameOrRestore
  rw [bind_of_ok hrename]
  rfl

/-- A rename of the promotion that fails. -/
theorem renameOrRestore_of_failure {a b : BakerAlias} {context text : String}
    {rollback : List (BakerAlias × BakerAlias)} (hsome : (w.aliasMap a.name).isSome = true)
    (h : failures a.name b.name = some text) (hrollback : Sources w.aliasMap rollback) :
    ∃ w', renameOrRestore (io.failing failures) a b context rollback w =
        .error (.failed (rollbackIncomplete (context ++ ": " ++ text)
          ((rollback.filter fun p => failsAt failures (pairNames p)).map Prod.snd))) w' ∧
      w'.aliasMap = moveSome (failsAt failures) w.aliasMap (rollback.map pairNames) := by
  obtain ⟨w', hrestore, hmap⟩ := @restore_run io failures _ _ hrollback
  refine ⟨w', ?_, hmap⟩
  unfold renameOrRestore
  rw [bind_of_ok (renameAliasLocally_of_failure hsome h)]
  dsimp only
  rw [bind_of_ok hrestore]
  rfl

end

/-! ## The promise -/

/-- A wallet in which both live and both pending keys stand, and no backup. -/
structure Promotable (m : Table String String) : Prop where
  live : ∀ role, (m (BakerAlias.live role).name).isSome = true
  pending : ∀ role, (m (BakerAlias.pending role).name).isSome = true
  noBackup : ∀ role, m (BakerAlias.old role).name = none

/-- A promotion from `m` promotes, or its error is what there is to be repaired. -/
def RollbackExact (m : Table String String) : EStateM.Result Stop World Unit → Prop
  | .ok () w => ∀ role, w.aliasMap (BakerAlias.live role).name = m (BakerAlias.pending role).name ∧
      w.aliasMap (BakerAlias.old role).name = m (BakerAlias.live role).name ∧
      w.aliasMap (BakerAlias.pending role).name = none
  | .error (.failed e) w =>
    ((∀ text us, us ≠ [] → e ≠ rollbackIncomplete text us) → w.aliasMap = m) ∧
      ∀ text us, us ≠ [] → e = rollbackIncomplete text us →
        Repairs m (us.map (·.name)) w.aliasMap m ∧
          ∀ name key, m name = some key → ∃ name', w.aliasMap name' = some key
  | .error .killed _ => False

/-- The companion key is not promoted and the consensus key is not demoted, but its backup is
restored over it. -/
def OverwritesPromoted (failures : String → String → Option String) : Prop :=
  failures "russignol-consensus" "russignol-consensus-old" = none ∧
    failures "russignol-companion" "russignol-companion-old" = none ∧
    failures "russignol-consensus-pending" "russignol-consensus" = none ∧
    (failures "russignol-companion-pending" "russignol-companion").isSome = true ∧
    (failures "russignol-consensus" "russignol-consensus-pending").isSome = true ∧
    failures "russignol-consensus-old" "russignol-consensus" = none

/-- The renames of a promotion. -/
def promotionRenames (io : RunIo) : Rotate Unit := do
  renameOrRestore io (.live .consensus) (.old .consensus) "Failed to backup consensus key" []
  renameOrRestore io (.live .companion) (.old .companion) "Failed to backup companion key"
    [(.old .consensus, .live .consensus)]
  renameOrRestore io (.pending .consensus) (.live .consensus)
    "Failed to promote pending consensus key"
    [(.old .consensus, .live .consensus), (.old .companion, .live .companion)]
  renameOrRestore io (.pending .companion) (.live .companion)
    "Failed to promote pending companion key"
    [(.live .consensus, .pending .consensus), (.old .consensus, .live .consensus),
      (.old .companion, .live .companion)]

section

variable {io : RunIo} {failures : String → String → Option String} {w : World}
  {m : Table String String}

/-- An alias that stands has a hash. -/
theorem getKeyHash_run (context : String) {a : BakerAlias}
    (h : (w.aliasMap a.name).isSome = true) :
    ∃ hash, getKeyHash context a w = .ok hash w := by
  obtain ⟨hash, hhash⟩ := Option.isSome_iff_exists.1 h
  refine ⟨hash, ?_⟩
  unfold getKeyHash
  rw [bind_of_ok (keyHash_run a w), hhash]
  rfl

/-- Where all four aliases stand, the promotion starts. -/
theorem promote_start (h : Promotable w.aliasMap) :
    ∃ w', w'.aliasMap = w.aliasMap ∧
      promoteAliasesWithBackup io w = promotionRenames io w' := by
  obtain ⟨pendingConsensus, hpendingConsensus⟩ := getKeyHash_run
    "Cannot find pending consensus key alias" (h.pending .consensus)
  obtain ⟨pendingCompanion, hpendingCompanion⟩ := getKeyHash_run
    "Cannot find pending companion key alias" (h.pending .companion)
  obtain ⟨currentConsensus, hcurrentConsensus⟩ := getKeyHash_run
    "Cannot find current consensus key alias" (h.live .consensus)
  obtain ⟨currentCompanion, hcurrentCompanion⟩ := getKeyHash_run
    "Cannot find current companion key alias" (h.live .companion)
  refine ⟨{ w with now := { w.now with promotion := some {
    old := perRole currentConsensus currentCompanion
    new := perRole pendingConsensus pendingCompanion } } }, rfl, ?_⟩
  unfold promoteAliasesWithBackup
  rw [bind_of_ok hpendingConsensus, bind_of_ok hpendingCompanion, bind_of_ok hcurrentConsensus,
    bind_of_ok hcurrentCompanion]
  rfl

/-- An error of the promotion is exact where the aliases it names repair the wallet. -/
theorem rollbackExact_error_iff {context text : String} {us : List BakerAlias}
    (hcontext : context.toList.head? = some 'F') :
    RollbackExact m (.error (.failed (rollbackIncomplete (context ++ ": " ++ text) us)) w) ↔
      Repairs m (us.map (·.name)) w.aliasMap m := by
  have hplain : ∀ text' us', us' ≠ [] → context ++ ": " ++ text ≠ rollbackIncomplete text' us' := by
    intro text' us' hus' heq
    rw [rollbackIncomplete, if_neg (by simpa using hus')] at heq
    have hrollback : (String.toList
        "Rollback incomplete — wallet is inconsistent. Could not restore alias(es): ").head? =
          some 'R' := by decide
    have hhead := congrArg (fun s => s.toList.head?) heq
    simp only [String.toList_append, List.head?_append, hcontext, hrollback,
      Option.some_or] at hhead
    exact absurd hhead (by decide)
  cases hus : us with
  | nil =>
    constructor
    · intro h
      rw [h.1 hplain]
      exact .nil m
    · intro h
      exact ⟨fun _ => h.eq_of_nil.symm,
        fun text' us' hus' heq => absurd heq (hplain text' us' hus')⟩
  | cons a us' =>
    rw [← hus]
    have hne : us ≠ [] := hus ▸ List.cons_ne_nil a us'
    constructor
    · exact fun h => (h.2 _ us hne rfl).1
    · intro h
      refine ⟨fun hnone => absurd rfl (hnone _ us hne), fun text' us'' hus'' heq => ?_⟩
      rw [← rollbackIncomplete_inj hne hus'' heq]
      exact ⟨h, fun name key hkey => h.exists_of ⟨name, hkey⟩⟩

/-- The names of a rollback's failed renames. -/
theorem map_failed (rollback : List (BakerAlias × BakerAlias)) :
    ((rollback.filter fun p => failsAt failures (pairNames p)).map Prod.snd).map (·.name) =
      ((rollback.map pairNames).filter (failsAt failures)).map Prod.snd := by
  rw [List.filter_map, List.map_map, List.map_map]
  rfl

/-- A rename of the promotion that fails is exact where its rollback repairs the wallet. -/
theorem rollbackExact_failure_iff {a b : BakerAlias} {context text : String}
    {rollback : List (BakerAlias × BakerAlias)} {next : Unit → Rotate Unit}
    (hsome : (w.aliasMap a.name).isSome = true) (h : failures a.name b.name = some text)
    (hrollback : Sources w.aliasMap rollback) (hcontext : context.toList.head? = some 'F') :
    RollbackExact m
        ((renameOrRestore (io.failing failures) a b context rollback >>= next) w) ↔
      Repairs m (((rollback.map pairNames).filter (failsAt failures)).map Prod.snd)
        (moveSome (failsAt failures) w.aliasMap (rollback.map pairNames)) m := by
  obtain ⟨w', hrun, hmap⟩ := @renameOrRestore_of_failure io failures w a b context text rollback
    hsome h hrollback
  rw [bind_of_error hrun, rollbackExact_error_iff hcontext, hmap, map_failed]

/-- A rename of the promotion: what is exact of its rollback and of the rest. -/
theorem rollbackExact_step {a b : BakerAlias} {context : String} {P : Prop}
    {rollback : List (BakerAlias × BakerAlias)} {next : Unit → Rotate Unit} (hne : a ≠ b)
    (hsome : (w.aliasMap a.name).isSome = true) (hrollback : Sources w.aliasMap rollback)
    (hcontext : context.toList.head? = some 'F')
    (hfails : (failures a.name b.name).isSome = true →
      (Repairs m (((rollback.map pairNames).filter (failsAt failures)).map Prod.snd)
        (moveSome (failsAt failures) w.aliasMap (rollback.map pairNames)) m ↔ P))
    (hdone : failures a.name b.name = none → ∀ w' : World,
      w'.aliasMap = move w.aliasMap a.name b.name → (RollbackExact m (next () w') ↔ P)) :
    RollbackExact m ((renameOrRestore (io.failing failures) a b context rollback >>= next) w) ↔
      P := by
  cases h : failures a.name b.name with
  | some text =>
    rw [rollbackExact_failure_iff hsome h hrollback hcontext]
    exact hfails (by rw [h]; rfl)
  | none =>
    obtain ⟨w', hrun, hmap⟩ := @renameOrRestore_of_done io failures w a b context rollback hne
      hsome h
    rw [bind_of_ok hrun]
    exact hdone h w' hmap

/-! ## The four renames -/

/-- The table after the first `n` renames. -/
def afterRenames (m : Table String String) (n : Nat) : Table String String :=
  moveAll m (([(.live .consensus, .old .consensus), (.live .companion, .old .companion),
    (.pending .consensus, .live .consensus), (.pending .companion, .live .companion)].take n).map
      pairNames)

/-- What stands where after each rename. -/
theorem afterRenames_apply (m : Table String String) (hm : Promotable m) :
    (afterRenames m 1 (BakerAlias.old .consensus).name =
        m (BakerAlias.live .consensus).name ∧
      afterRenames m 1 (BakerAlias.live .companion).name =
        m (BakerAlias.live .companion).name ∧
      afterRenames m 1 (BakerAlias.old .companion).name = none) ∧
    (afterRenames m 2 (BakerAlias.old .consensus).name =
        m (BakerAlias.live .consensus).name ∧
      afterRenames m 2 (BakerAlias.old .companion).name =
        m (BakerAlias.live .companion).name ∧
      afterRenames m 2 (BakerAlias.pending .consensus).name =
        m (BakerAlias.pending .consensus).name ∧
      afterRenames m 2 (BakerAlias.live .consensus).name = none) ∧
    (afterRenames m 3 (BakerAlias.live .consensus).name =
        m (BakerAlias.pending .consensus).name ∧
      afterRenames m 3 (BakerAlias.old .consensus).name =
        m (BakerAlias.live .consensus).name ∧
      afterRenames m 3 (BakerAlias.old .companion).name =
        m (BakerAlias.live .companion).name ∧
      afterRenames m 3 (BakerAlias.pending .companion).name =
        m (BakerAlias.pending .companion).name) := by
  have hold := hm.noBackup .companion
  simp only [BakerAlias.name] at hold
  simp [afterRenames, moveAll, move, pairNames, BakerAlias.name, hold]

/-- After all four renames every new key is live, and every old one is the backup. -/
theorem afterRenames_promoted (m : Table String String) (role : KeyRole) :
    afterRenames m 4 (BakerAlias.live role).name = m (BakerAlias.pending role).name ∧
      afterRenames m 4 (BakerAlias.old role).name = m (BakerAlias.live role).name ∧
      afterRenames m 4 (BakerAlias.pending role).name = none := by
  cases role <;> simp [afterRenames, moveAll, move, pairNames, BakerAlias.name]

/-- The renames that take the backups back. -/
def unbackup : List (BakerAlias × BakerAlias) :=
  [(.old .consensus, .live .consensus), (.old .companion, .live .companion)]

/-- The renames that take the promotion of the consensus key and the backups back. -/
def unpromote : List (BakerAlias × BakerAlias) :=
  (.live .consensus, .pending .consensus) :: unbackup

/-- The backups are taken back in the order in which they were made. -/
theorem moveAll_unbackup (hm : Promotable m) :
    moveAll (afterRenames m 2) (unbackup.map pairNames) = m := by
  have hapart : Apart ("russignol-companion", "russignol-companion-old")
      ("russignol-consensus-old", "russignol-consensus") := by decide
  have hswap : moveAll (afterRenames m 2) (unbackup.map pairNames) =
      move (move (move (move m "russignol-consensus" "russignol-consensus-old")
        "russignol-consensus-old" "russignol-consensus") "russignol-companion"
          "russignol-companion-old") "russignol-companion-old" "russignol-companion" :=
    congrArg (move · "russignol-companion-old" "russignol-companion")
      (move_comm hapart (afterRenames m 1))
  have hconsensus : m "russignol-consensus-old" = none := hm.noBackup .consensus
  have hcompanion : m "russignol-companion-old" = none := hm.noBackup .companion
  rw [hswap, move_back (by decide) hconsensus, move_back (by decide) hcompanion]

/-- The rollback behind the third rename restores the aliases. -/
theorem moveAll_unpromote (hm : Promotable m) :
    moveAll (afterRenames m 3) (unpromote.map pairNames) = m := by
  have hfree := (afterRenames_apply m hm).2.1.2.2.2
  calc moveAll (afterRenames m 3) (unpromote.map pairNames)
      = moveAll (move (move (afterRenames m 2) _ _) _ _) (unbackup.map pairNames) := rfl
    _ = moveAll (afterRenames m 2) (unbackup.map pairNames) := by rw [move_back (by decide) hfree]
    _ = m := moveAll_unbackup hm

/-- A rollback of these renames finds what it renames. -/
theorem sources_of {m : Table String String} {renames : List (BakerAlias × BakerAlias)}
    (hsome : ∀ p ∈ renames, (m p.1.name).isSome = true)
    (hne : ∀ p ∈ renames, p.1 ≠ p.2) (hdistinct : renames.Pairwise fun p q => p.1 ≠ q.1) :
    Sources m renames :=
  ⟨fun p hp => ⟨hne p hp, hsome p hp⟩, hdistinct⟩

/-- Renames that find what they rename can be carried out. -/
theorem Sources.movable {m : Table String String} {renames : List (BakerAlias × BakerAlias)}
    (h : Sources m renames) : Movable m (renames.map pairNames) := by
  refine movable_of_sources (fun p hp => ?_) ?_
  · obtain ⟨q, hq, rfl⟩ := List.mem_map.1 hp
    exact ⟨fun heq => (h.1 q hq).1 (BakerAlias.name_injective heq), (h.1 q hq).2⟩
  · rw [List.pairwise_map]
    exact h.2.imp fun hne heq => hne (BakerAlias.name_injective heq)

/-- The sources of the rollbacks. -/
theorem sources_rollbacks (hm : Promotable m) :
    Sources (afterRenames m 1) [(.old .consensus, .live .consensus)] ∧
      Sources (afterRenames m 2) unbackup ∧ Sources (afterRenames m 3) unpromote := by
  obtain ⟨⟨hold₁, -, -⟩, ⟨hold₂, holdCompanion₂, -, -⟩, hlive₃, hold₃, holdCompanion₃, -⟩ :=
    afterRenames_apply m hm
  refine ⟨sources_of ?_ (by decide) (by decide), sources_of ?_ (by decide) (by decide),
    sources_of ?_ (by decide) (by decide)⟩
  · simp only [List.forall_mem_cons, hold₁, hm.live, List.not_mem_nil, IsEmpty.forall_iff,
      implies_true, and_self]
  · simp only [unbackup, List.forall_mem_cons, hold₂, holdCompanion₂, hm.live, List.not_mem_nil,
      IsEmpty.forall_iff, implies_true, and_self]
  · simp only [unpromote, unbackup, List.forall_mem_cons, hlive₃, hold₃, holdCompanion₃, hm.live,
      hm.pending, List.not_mem_nil, IsEmpty.forall_iff, implies_true, and_self]

/-- What a rollback of the first backup leaves to be repaired. -/
theorem repairs_unbackupConsensus (hm : Promotable m) :
    Repairs m ((([(.old .consensus, .live .consensus)].map pairNames).filter
        (failsAt failures)).map Prod.snd)
      (moveSome (failsAt failures) (afterRenames m 1)
        ([(.old .consensus, .live .consensus)].map pairNames)) m :=
  repairs_moveSome (move_back (by decide) (hm.noBackup .consensus))
    (sources_rollbacks hm).1.movable (List.pairwise_singleton _ _)

/-- What a rollback of the backups leaves to be repaired. -/
theorem repairs_unbackup (hm : Promotable m) :
    Repairs m (((unbackup.map pairNames).filter (failsAt failures)).map Prod.snd)
      (moveSome (failsAt failures) (afterRenames m 2) (unbackup.map pairNames)) m := by
  refine repairs_moveSome (moveAll_unbackup hm) (sources_rollbacks hm).2.1.movable ?_
  exact List.Pairwise.imp (fun h => ⟨fun _ _ => h.1, h.2⟩)
    (by decide : (unbackup.map pairNames).Pairwise fun p q => Apart p q ∧ p.2 ≠ q.1 ∧ p.2 ≠ q.2)

/-- The rollback of the consensus promotion is repaired unless the backup was restored onto the
promoted key. -/
theorem repairs_unpromote_iff (hm : Promotable m) (hfinite : (keys m).Finite) :
    Repairs m (((unpromote.map pairNames).filter (failsAt failures)).map Prod.snd)
        (moveSome (failsAt failures) (afterRenames m 3) (unpromote.map pairNames)) m ↔
      ¬ (failsAt failures ("russignol-consensus", "russignol-consensus-pending") = true ∧
        failsAt failures ("russignol-consensus-old", "russignol-consensus") = false) := by
  constructor
  · rintro hrepairs ⟨hundo, hrestore⟩
    have honto : moveSome (failsAt failures) (afterRenames m 3) (unpromote.map pairNames) =
        moveSome (failsAt failures) (move (afterRenames m 3) "russignol-consensus-old"
          "russignol-consensus") [("russignol-companion-old", "russignol-companion")] := by
      simp only [unpromote, unbackup, List.map_cons, List.map_nil, pairNames, BakerAlias.name,
        moveSome, hundo, hrestore, if_true, Bool.false_eq_true, if_false]
    rw [honto] at hrepairs
    obtain ⟨-, -, hlive₃, hold₃, -, -⟩ := afterRenames_apply m hm
    have hold : (afterRenames m 3 "russignol-consensus-old").isSome = true :=
      (congrArg Option.isSome hold₃).trans (hm.live .consensus)
    have hlive : (afterRenames m 3 "russignol-consensus").isSome = true :=
      (congrArg Option.isSome hlive₃).trans (hm.pending .consensus)
    exact not_repairs_of_onto hfinite (by decide) (mem_keys.2 hold) (mem_keys.2 hlive) hrepairs
  · intro hsafe
    refine repairs_moveSome (moveAll_unpromote hm) (sources_rollbacks hm).2.2.movable ?_
    refine List.pairwise_cons.2 ⟨?_, List.Pairwise.imp (fun h => ⟨fun _ _ => h.1, h.2⟩)
      (by decide : (unbackup.map pairNames).Pairwise fun p q =>
        Apart p q ∧ p.2 ≠ q.1 ∧ p.2 ≠ q.2)⟩
    intro q hq
    rcases List.mem_cons.1 hq with rfl | hq
    · exact ⟨fun hundo hrestore => absurd ⟨hundo, hrestore⟩ hsafe, by decide, by decide⟩
    · rw [List.mem_singleton.1 hq]
      exact ⟨fun _ _ => by decide, by decide, by decide⟩

end

/-- A wallet has finitely many aliases. -/
theorem finite_keys (w : World) : (keys w.aliasMap).Finite := by
  cases hf : w.now.wallet.publicKeyHashs with
  | none =>
    refine Set.Finite.subset Set.finite_empty fun name hname => ?_
    rw [mem_keys, World.aliasMap, Wallet.aliasMap, hf] at hname
    cases hname
  | some f =>
    refine Set.Finite.subset (List.finite_toSet (f.entries.map Prod.fst)) fun name hname => ?_
    rw [mem_keys, World.aliasMap, Wallet.aliasMap, hf, Option.bind_some] at hname
    by_contra hnot
    rw [List.lookup_eq_none_iff.2 fun e he => bne_iff_ne.2 fun heq =>
      hnot (List.mem_map.2 ⟨e, he, heq.symm⟩)] at hname
    cases hname

/-- **Promoting and taking back** is exact unless the backup of the consensus key is restored onto
the promoted one. -/
theorem promotion_rollback_iff (io : RunIo) (failures : String → String → Option String) {w : World}
    (h : Promotable w.aliasMap) :
    RollbackExact w.aliasMap (promoteAliasesWithBackup (io.failing failures) w) ↔
      ¬ OverwritesPromoted failures := by
  obtain ⟨w₀, hw₀, hstart⟩ := @promote_start (io.failing failures) w h
  have hfinite := finite_keys w
  rw [hstart]
  generalize w.aliasMap = m at h hw₀ hfinite
  obtain ⟨hsource₁, hsource₂, hsource₃⟩ := sources_rollbacks h
  unfold promotionRenames
  obtain ⟨⟨-, hlive₁, -⟩, ⟨-, -, hpending₂, -⟩, -, -, -, hpending₃⟩ := afterRenames_apply m h
  have hsafe : ∀ {failures : String → String → Option String} {a b : String},
      (failures a b).isSome = true → ¬ failures a b = none := by
    intro failures a b hfails hnone
    rw [hnone] at hfails
    cases hfails
  refine rollbackExact_step (by decide) (hw₀ ▸ h.live .consensus)
    (sources_of nofun nofun .nil) (by decide) (fun hfails => ?_) fun h₁ w₁ hw₁ => ?_
  · rw [hw₀]
    exact iff_of_true (.nil m) fun hbad => hsafe hfails hbad.1
  have hw₁ : w₁.aliasMap = afterRenames m 1 := hw₁.trans (by rw [hw₀]; rfl)
  refine rollbackExact_step (by decide) (by rw [hw₁, hlive₁]; exact h.live .companion)
    (hw₁ ▸ hsource₁) (by decide) (fun hfails => ?_) fun h₂ w₂ hw₂ => ?_
  · rw [hw₁]
    exact iff_of_true (repairs_unbackupConsensus h) fun hbad => hsafe hfails hbad.2.1
  have hw₂ : w₂.aliasMap = afterRenames m 2 := hw₂.trans (by rw [hw₁]; rfl)
  refine rollbackExact_step (by decide) (by rw [hw₂, hpending₂]; exact h.pending .consensus)
    (hw₂ ▸ hsource₂) (by decide) (fun hfails => ?_) fun h₃ w₃ hw₃ => ?_
  · rw [hw₂]
    exact iff_of_true (repairs_unbackup h) fun hbad => hsafe hfails hbad.2.2.1
  have hw₃ : w₃.aliasMap = afterRenames m 3 := hw₃.trans (by rw [hw₂]; rfl)
  rw [← bind_pure (renameOrRestore _ _ _ _ _)]
  refine rollbackExact_step (by decide) (by rw [hw₃, hpending₃]; exact h.pending .companion)
    (hw₃ ▸ hsource₃) (by decide) (fun hfails => ?_) fun h₄ w₄ hw₄ => ?_
  · have hrest := @repairs_unpromote_iff failures m h hfinite
    rw [hw₃]
    refine hrest.trans (not_congr ⟨fun hbad => ?_, fun hbad => ?_⟩)
    · exact ⟨h₁, h₂, h₃, hfails, hbad.1, Option.isNone_iff_eq_none.1
        (Option.isSome_eq_false_iff.1 hbad.2)⟩
    · exact ⟨hbad.2.2.2.2.1, Option.isSome_eq_false_iff.2
        (Option.isNone_iff_eq_none.2 hbad.2.2.2.2.2)⟩
  · have hw₄ : w₄.aliasMap = afterRenames m 4 := hw₄.trans (by rw [hw₃]; rfl)
    refine iff_of_true (fun role => ?_) fun hbad => hsafe hbad.2.2.2.1 h₄
    rw [hw₄]
    exact afterRenames_promoted m role

/-- A run before a promotion. -/
def beforePromotion : World where
  now := {
    wallet := {
      publicKeyHashs := some ⟨[("russignol-consensus", "old"), ("russignol-companion", "oldC"),
        ("russignol-consensus-pending", "new"), ("russignol-companion-pending", "newC"),
        ("baker", "manager")], by decide⟩
      publicKeys := none
      secretKeys := none }
    chain := ⟨perRole ⟨none, []⟩ ⟨none, []⟩⟩
    accepted := []
    promotion := none }
  log := []

/-- The wallet of the examples can be promoted. -/
theorem beforePromotion_promotable : Promotable beforePromotion.aliasMap := by
  refine ⟨?_, ?_, ?_⟩ <;>
    exact fun role => by cases role <;> decide

/-- The companion key is not promoted, and the backup of the consensus key is not restored. -/
def refusedTwice : String → String → Option String
  | "russignol-companion-pending", "russignol-companion" => some "Permission denied"
  | "russignol-consensus-old", "russignol-consensus" => some "Permission denied"
  | _, _ => none

/-- The run says which alias that rollback did not restore. -/
theorem promotion_rollback_refusedTwice :
    RollbackExact beforePromotion.aliasMap
      (promoteAliasesWithBackup (smoothRun.failing refusedTwice) beforePromotion) :=
  (promotion_rollback_iff smoothRun refusedTwice beforePromotion_promotable).2 fun h =>
    nomatch h.2.2.2.2.2

/-- The companion key is not promoted, and the consensus key is not demoted. -/
def stuckPromotion : String → String → Option String
  | "russignol-companion-pending", "russignol-companion" => some "Permission denied"
  | "russignol-consensus", "russignol-consensus-pending" => some "Permission denied"
  | _, _ => none

/-- What an error says, and the primary file it leaves. -/
def failureOf : EStateM.Result Stop World Unit → Option (String × Option (List (String × String)))
  | .error (.failed e) w => some (e, w.now.wallet.publicKeyHashs.map (·.entries))
  | _ => none

/-- The new consensus key is under no alias any more. -/
theorem promotion_loses_key :
    ¬ ∀ (io : RunIo) (failures : String → String → Option String) (w : World),
      Promotable w.aliasMap →
        RollbackExact w.aliasMap (promoteAliasesWithBackup (io.failing failures) w) := by
  intro h
  have hexact := h smoothRun stuckPromotion beforePromotion beforePromotion_promotable
  have hrun : failureOf (promoteAliasesWithBackup (smoothRun.failing stuckPromotion)
      beforePromotion) = some (rollbackIncomplete
        "Failed to promote pending companion key: Permission denied" [.pending .consensus],
        some [("russignol-consensus", "old"), ("russignol-companion", "oldC"),
          ("russignol-companion-pending", "newC"), ("baker", "manager")]) := by
    decide +kernel
  cases hresult : promoteAliasesWithBackup (smoothRun.failing stuckPromotion) beforePromotion with
  | ok u w =>
    rw [hresult] at hrun
    cases hrun
  | error stop w =>
    rw [hresult] at hrun hexact
    cases stop with
    | killed => cases hrun
    | failed e =>
      obtain ⟨he, hfile⟩ := Prod.mk.inj (Option.some.inj hrun)
      obtain ⟨name, hname⟩ := (hexact.2 _ _ (List.cons_ne_nil _ _) he).2
        "russignol-consensus-pending" "new" rfl
      obtain ⟨f, hf, hlookup⟩ := Option.bind_eq_some_iff.1 hname
      rw [hf] at hfile
      have hfile : f.entries = _ := Option.some.inj hfile
      obtain ⟨before, after, hsplit, -⟩ := List.lookup_eq_some_iff.1 hlookup
      have hvalue : "new" ∈ f.entries.map Prod.snd := by
        rw [hsplit, List.map_append, List.map_cons]
        exact List.mem_append_right _ List.mem_cons_self
      rw [hfile] at hvalue
      exact absurd hvalue (by decide)

end Russignol.Host
