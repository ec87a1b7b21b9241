import Mathlib.Data.List.Basic
import Russignol.Base.Automaton
import Russignol.Host.RotationFlow

/-!
# An interrupted promotion

The aliases over the runs of `rotate-keys` that follow a promotion, wherever that was cut off. The
promotion is a sequence of moves of aliases, each with the moves that take it back
(`promote_triple`); what it leaves is recognised by an `-old` alias alone. A later run finishes or
undoes it (`promotion_recovers`) unless it resumes a swap in which the companion is in neither
place, or a rollback was cut in two.
-/

namespace Russignol.Host

open EarlyExit

/-! ## Moves of aliases -/

/-- What each alias stands for. -/
abbrev Aliases : Type := BakerAlias → Option String

/-- A rename of an alias that is there. -/
def Aliases.move (h : Aliases) (oldAlias newAlias : BakerAlias) : Aliases := fun a =>
  if a = newAlias then h oldAlias else if a = oldAlias then none else h a

/-- Renames, one after another. -/
def Aliases.moves : Aliases → List (BakerAlias × BakerAlias) → Aliases
  | h, [] => h
  | h, (oldAlias, newAlias) :: renames => (h.move oldAlias newAlias).moves renames

/-- Each of the renames finds its alias. -/
def Aliases.Movable : Aliases → List (BakerAlias × BakerAlias) → Prop
  | _, [] => True
  | h, (oldAlias, newAlias) :: renames =>
    oldAlias ≠ newAlias ∧ (h oldAlias).isSome = true ∧ (h.move oldAlias newAlias).Movable renames

/-- The aliases of a run are `h`; its log and all but the wallet are as given. -/
def At (log : List (Event × Rotation)) (s : Rotation) (h : Aliases) (w : World) : Prop :=
  w.log = log ∧ w.now = { s with wallet := w.now.wallet } ∧ w.now.wallet.hash = h

variable {io : RunIo} {log : List (Event × Rotation)} {s : Rotation} {h : Aliases}

/-- Renaming an alias that is there. -/
theorem rename_triple {oldAlias newAlias : BakerAlias} {E : World → Prop}
    (hne : oldAlias ≠ newAlias) (hsome : (h oldAlias).isSome = true)
    (hlanded : io.rename oldAlias newAlias = .killed true →
      ∀ w, At log s (h.move oldAlias newAlias) w → E w)
    (hkilled : io.rename oldAlias newAlias = .killed false → ∀ w, At log s h w → E w) :
    Triple (At log s h) (renameAliasLocally io oldAlias newAlias)
      (fun r w => io.rename oldAlias newAlias = .done ∧ r = .ok () ∧
          At log s (h.move oldAlias newAlias) w ∨
        ∃ text, io.rename oldAlias newAlias = .failed text ∧ r = .error text ∧
          At log s h w) E := by
  have hmoved : ∀ w, At log s h w → At log s (h.move oldAlias newAlias)
      { w with now := { w.now with wallet := w.now.wallet.renameAlias oldAlias newAlias } } := by
    rintro w ⟨hlog, hnow, hhash⟩
    refine ⟨hlog, by rw [hnow], funext fun a => ?_⟩
    rw [Wallet.hash_renameAlias hne (by rw [hhash]; exact hsome), hhash]
    rfl
  unfold renameAliasLocally
  refine Triple.bind keyHash_triple fun found => ?_
  refine Triple.bind (R := fun r w => found.isSome = true ∧ (io.rename oldAlias newAlias = .done ∧
      r = .ok () ∧ At log s (h.move oldAlias newAlias) w ∨
      ∃ text, io.rename oldAlias newAlias = .failed text ∧ r = .error text ∧ At log s h w))
    ?_ fun r => Triple.of_pre fun hfound => Triple.pure fun w hw => ?_
  · have hfound : ∀ w, found = w.now.wallet.hash oldAlias ∧ At log s h w →
        found.isSome = true := by
      rintro w ⟨rfl, -, -, hhash⟩
      rw [hhash]
      exact hsome
    exact perform_triple
      (fun hio w hw => ⟨hfound w hw, .inl ⟨hio, rfl, hmoved w hw.2⟩⟩)
      (fun text hio w hw => ⟨hfound w hw, .inr ⟨text, hio, rfl, hw.2⟩⟩)
      (fun hio w hw => hlanded hio _ (hmoved w hw.2))
      fun hio w hw => hkilled hio w hw.2
  · rw [if_pos hfound]
    exact hw

/-- No rename of a list fails. -/
def Restorable (io : RunIo) (renames : List (BakerAlias × BakerAlias)) : Prop :=
  ∀ r ∈ renames, ∀ text, io.rename r.1 r.2 ≠ .failed text

/-- Taking moves back, as far as the run gets. -/
theorem restore_triple {E : World → Prop} : ∀ {renames : List (BakerAlias × BakerAlias)}
    {h : Aliases}, h.Movable renames → Restorable io renames →
      (∀ n w, At log s (h.moves (renames.take n)) w → E w) →
      Triple (At log s h) (restore io renames)
        (fun _ => At log s (h.moves renames)) E
  | [], _, _, _, _ => Triple.pure fun _ => id
  | (oldAlias, newAlias) :: renames, h, hmovable, hio, hE => by
    obtain ⟨hne, hsome, hmovable⟩ := hmovable
    have hfirst : ∀ w, At log s h w → E w := fun w hw => hE 0 w hw
    have hsecond : ∀ w, At log s (h.move oldAlias newAlias) w → E w :=
      fun w hw => hE 1 w hw
    rw [restore]
    refine Triple.bind (R := fun _ => At log s (h.move oldAlias newAlias))
      ((rename_triple hne hsome (fun _ => hsecond) fun _ => hfirst).post ?_) fun r => ?_
    · rintro r w (⟨-, -, hw⟩ | ⟨text, hfailed, -⟩)
      · exact hw
      · exact absurd hfailed (hio _ List.mem_cons_self text)
    · refine Triple.bind (restore_triple hmovable (fun r hr => hio r (List.mem_cons_of_mem _ hr))
        fun n w hw => hE (n + 1) w hw) fun _ => Triple.pure fun _ => id

/-- A rename of the promotion: it is done, or taken back with those before it. -/
theorem renameOrRestore_triple {E : World → Prop} {oldAlias newAlias : BakerAlias}
    {context : String} {rollback : List (BakerAlias × BakerAlias)} (hne : oldAlias ≠ newAlias)
    (hsome : (h oldAlias).isSome = true) (hmovable : h.Movable rollback)
    (hio : ∀ text, io.rename oldAlias newAlias = .failed text → Restorable io rollback)
    (hlanded : ∀ w, At log s (h.move oldAlias newAlias) w → E w)
    (hE : ∀ n w, At log s (h.moves (rollback.take n)) w → E w) :
    Triple (At log s h) (renameOrRestore io oldAlias newAlias context rollback)
      (fun _ => At log s (h.move oldAlias newAlias)) E := by
  unfold renameOrRestore
  refine Triple.bind (rename_triple hne hsome (fun _ => hlanded) fun _ w hw => hE 0 w hw)
    fun r => ?_
  cases r with
  | ok u =>
    refine Triple.pure fun w hw => ?_
    rcases hw with ⟨-, -, hw⟩ | ⟨text, -, hr, -⟩
    · exact hw
    · cases hr
  | error text =>
    intro w hw
    rcases hw with ⟨-, hr, -⟩ | ⟨text', hfailed, -, hw⟩
    · cases hr
    · refine Triple.bind (restore_triple (E := E) hmovable (hio text' hfailed) hE)
        (fun _ => Triple.throw fun w hw => ?_) w hw
      exact hE rollback.length w (by rwa [List.take_length])

/-! ## The promotion -/

/-- How far a promotion has come, forth or back. -/
inductive Stage
  | ready
  | consensusBacked
  | bothBacked
  | consensusPromoted
  | promoted
  | consensusRestored
  deriving DecidableEq, Repr

/-- The aliases at a stage. -/
def Promotion.stage (p : Promotion) : Stage → Aliases
  | .ready, .live role => some (p.old role)
  | .ready, .pending role => some (p.new role)
  | .ready, .old _ => none
  | .consensusBacked, .live .consensus => none
  | .consensusBacked, .live .companion => some (p.old .companion)
  | .consensusBacked, .pending role => some (p.new role)
  | .consensusBacked, .old .consensus => some (p.old .consensus)
  | .consensusBacked, .old .companion => none
  | .bothBacked, .live _ => none
  | .bothBacked, .pending role => some (p.new role)
  | .bothBacked, .old role => some (p.old role)
  | .consensusPromoted, .live .consensus => some (p.new .consensus)
  | .consensusPromoted, .live .companion => none
  | .consensusPromoted, .pending .consensus => none
  | .consensusPromoted, .pending .companion => some (p.new .companion)
  | .consensusPromoted, .old role => some (p.old role)
  | .promoted, .live role => some (p.new role)
  | .promoted, .pending _ => none
  | .promoted, .old role => some (p.old role)
  | .consensusRestored, .live .consensus => some (p.old .consensus)
  | .consensusRestored, .live .companion => none
  | .consensusRestored, .pending role => some (p.new role)
  | .consensusRestored, .old .consensus => none
  | .consensusRestored, .old .companion => some (p.old .companion)

/-- Two tables of aliases are compared alias by alias. -/
theorem Aliases.ext_roles {h h' : Aliases}
    (hrole : ∀ role, h (.live role) = h' (.live role) ∧ h (.pending role) = h' (.pending role) ∧
      h (.old role) = h' (.old role)) : h = h' := by
  funext a
  cases a with
  | live role => exact (hrole role).1
  | pending role => exact (hrole role).2.1
  | old role => exact (hrole role).2.2

/-- The moves of the promotion, and those that take them back. -/
theorem Promotion.stage_moves (p : Promotion) :
    (p.stage .ready).move (.live .consensus) (.old .consensus) = p.stage .consensusBacked ∧
    (p.stage .consensusBacked).move (.live .companion) (.old .companion) = p.stage .bothBacked ∧
    (p.stage .bothBacked).move (.pending .consensus) (.live .consensus) =
      p.stage .consensusPromoted ∧
    (p.stage .consensusPromoted).move (.pending .companion) (.live .companion) =
      p.stage .promoted ∧
    (p.stage .consensusBacked).move (.old .consensus) (.live .consensus) = p.stage .ready ∧
    (p.stage .bothBacked).move (.old .consensus) (.live .consensus) =
      p.stage .consensusRestored ∧
    (p.stage .consensusRestored).move (.old .companion) (.live .companion) = p.stage .ready ∧
    (p.stage .consensusPromoted).move (.live .consensus) (.pending .consensus) =
      p.stage .bothBacked := by
  refine ⟨?_, ?_, ?_, ?_, ?_, ?_, ?_, ?_⟩ <;>
    exact Aliases.ext_roles fun role => by cases role <;> exact ⟨rfl, rfl, rfl⟩

/-- At most one rename of a run fails. -/
def SingleFault (io : RunIo) : Prop :=
  ∀ a b c d text text', io.rename a b = .failed text → io.rename c d = .failed text' →
    a = c ∧ b = d

/-- Where one rename fails, the others can be taken back. -/
theorem SingleFault.restorable (hio : SingleFault io) {oldAlias newAlias : BakerAlias}
    {renames : List (BakerAlias × BakerAlias)} (hne : (oldAlias, newAlias) ∉ renames)
    {text : String} (h : io.rename oldAlias newAlias = .failed text) : Restorable io renames := by
  intro r hr text' hfailed
  obtain ⟨rfl, rfl⟩ := hio _ _ _ _ _ _ h hfailed
  exact hne hr

/-- The keys of a promotion are those of the wallet it starts from. -/
def Promotion.Of (p : Promotion) (s : Rotation) : Prop :=
  ∀ role, s.wallet.hash (.live role) = some (p.old role) ∧
    s.wallet.hash (.pending role) = some (p.new role)

/-- **Promoting the aliases**, where no key is backed up before: it gets through, or leaves the
aliases at one of the stages. -/
theorem promote_triple (hio : SingleFault io) (hbackup : ∀ role, s.wallet.hash (.old role) = none) :
    Triple (fun w => w = ⟨s, log⟩) (promoteAliasesWithBackup io)
      (fun _ w => ∃ p, p.Of s ∧ At log { s with promotion := some p } (p.stage .promoted) w)
      (fun w => w = ⟨s, log⟩ ∨ ∃ p stage, p.Of s ∧
        At log { s with promotion := some p } (p.stage stage) w) := by
  obtain ⟨E, hE⟩ : ∃ E : World → Prop, E = fun w => w = ⟨s, log⟩ ∨ ∃ p stage, p.Of s ∧
    At log { s with promotion := some p } (p.stage stage) w := ⟨_, rfl⟩
  rw [← hE]
  have hstart : ∀ w : World, w = ⟨s, log⟩ → E w := fun w hw => hE ▸ .inl hw
  unfold promoteAliasesWithBackup
  refine Triple.bind (getKeyHash_triple hstart) fun pendingConsensus => ?_
  refine Triple.bind (getKeyHash_triple fun w hw => hstart w hw.2) fun pendingCompanion => ?_
  refine Triple.bind (getKeyHash_triple fun w hw => hstart w hw.2.2) fun currentConsensus => ?_
  refine Triple.bind (getKeyHash_triple fun w hw => hstart w hw.2.2.2) fun currentCompanion => ?_
  obtain ⟨p, hp⟩ : ∃ p : Promotion, p = ⟨perRole currentConsensus currentCompanion,
    perRole pendingConsensus pendingCompanion⟩ := ⟨_, rfl⟩
  rw [← hp]
  refine Triple.bind (R := fun _ w => p.Of s ∧
    At log { s with promotion := some p } (p.stage .ready) w) (Triple.modify ?_) fun _ =>
      Triple.of_pre fun hof => ?_
  · rintro w ⟨hcompanion, hconsensus, hpendingCompanion, hpendingConsensus, rfl⟩
    have hof : p.Of s := by
      intro role
      rw [hp]
      cases role with
      | consensus => exact ⟨hconsensus, hpendingConsensus⟩
      | companion => exact ⟨hcompanion, hpendingCompanion⟩
    refine ⟨hof, rfl, rfl, Aliases.ext_roles fun role => ?_⟩
    exact ⟨(hof role).1, (hof role).2, hbackup role⟩
  have hat : ∀ stage w, At log { s with promotion := some p } (p.stage stage) w → E w :=
    fun stage w hw => hE ▸ .inr ⟨p, stage, hof, hw⟩
  obtain ⟨hbackConsensus, hbackCompanion, hpromoteConsensus, hpromoteCompanion, hundoFirst,
    hundoConsensus, hundoCompanion, hundoPromote⟩ := p.stage_moves
  refine Triple.bind
    (R := fun _ => At log { s with promotion := some p } (p.stage .consensusBacked))
    (hbackConsensus ▸ renameOrRestore_triple (by decide) rfl trivial
      (fun text h => hio.restorable List.not_mem_nil h) (hbackConsensus ▸ hat .consensusBacked) ?_)
    fun _ => ?_
  · rintro n w hw
    rw [List.take_nil] at hw
    exact hat .ready w hw
  refine Triple.bind (R := fun _ => At log { s with promotion := some p } (p.stage .bothBacked))
    (hbackCompanion ▸ renameOrRestore_triple (by decide) rfl ⟨by decide, rfl, trivial⟩
      (fun text h => hio.restorable (by decide) h) (hbackCompanion ▸ hat .bothBacked) ?_)
    fun _ => ?_
  · rintro (_ | n) w hw
    · exact hat .consensusBacked w hw
    · rw [List.take_succ_cons, List.take_nil] at hw
      exact hat .ready w (hundoFirst ▸ hw)
  refine Triple.bind
    (R := fun _ => At log { s with promotion := some p } (p.stage .consensusPromoted))
    (hpromoteConsensus ▸ renameOrRestore_triple (by decide) rfl
      ⟨by decide, rfl, by decide, rfl, trivial⟩ (fun text h => hio.restorable (by decide) h)
      (hpromoteConsensus ▸ hat .consensusPromoted) ?_) fun _ => ?_
  · rintro (_ | _ | n) w hw
    · exact hat .bothBacked w hw
    · exact hat .consensusRestored w (hundoConsensus ▸ hw)
    · rw [List.take_succ_cons, List.take_succ_cons, List.take_nil] at hw
      refine hat .ready w ?_
      rw [← hundoCompanion, ← hundoConsensus]
      exact hw
  refine Triple.post (Q := fun _ => At log { s with promotion := some p } (p.stage .promoted))
    (hpromoteCompanion ▸ renameOrRestore_triple (by decide) rfl
      ⟨by decide, rfl, by decide, rfl, by decide, rfl, trivial⟩
      (fun text h => hio.restorable (by decide) h) (hpromoteCompanion ▸ hat .promoted) ?_) ?_
  · rintro (_ | _ | _ | n) w hw
    · exact hat .consensusPromoted w hw
    · exact hat .bothBacked w (hundoPromote ▸ hw)
    · refine hat .consensusRestored w ?_
      rw [← hundoConsensus, ← hundoPromote]
      exact hw
    · rw [List.take_succ_cons, List.take_succ_cons, List.take_succ_cons, List.take_nil] at hw
      refine hat .ready w ?_
      rw [← hundoCompanion, ← hundoConsensus, ← hundoPromote]
      exact hw
  · exact fun _ w hw => ⟨p, hof, hw⟩

/-! ## What the other parts of a run leave alone -/

/-- A predicate on the live and the `-old` aliases, the promotion and the log. -/
def Indifferent (I : World → Prop) : Prop :=
  ∀ w s, (∀ role, s.wallet.hash (.live role) = w.now.wallet.hash (.live role)) →
    (∀ role, s.wallet.hash (.old role) = w.now.wallet.hash (.old role)) →
    s.promotion = w.now.promotion → I w → I { w with now := s }

section

variable {I : World → Prop} (hI : Indifferent I)

include hI

/-- Looking at the chain changes no alias. -/
theorem Indifferent.polls : Polls io I := by
  intro p
  unfold query
  refine Triple.bind_get fun w => ?_
  split
  · exact Triple.throw fun _ hw => hw.2
  · refine Triple.bind (R := fun _ => I) (Triple.modify fun v hv => ?_) fun _ =>
      Triple.pure fun _ => id
    exact hI v _ (fun _ => rfl) (fun _ => rfl) rfl hv.2

/-- A change that leaves the live and the `-old` aliases alone. -/
theorem perform_keeps {effect : Effect} {f : Rotation → Rotation}
    (hlive : ∀ s role, (f s).wallet.hash (.live role) = s.wallet.hash (.live role))
    (hold : ∀ s role, (f s).wallet.hash (.old role) = s.wallet.hash (.old role))
    (hpromotion : ∀ s, (f s).promotion = s.promotion) : Keeps I (perform effect f) := by
  have hf : ∀ w, I w → I { w with now := f w.now } := fun w =>
    hI w _ (hlive w.now) (hold w.now) (hpromotion w.now)
  exact perform_triple (fun _ => hf) (fun _ _ _ => id) (fun _ => hf) fun _ _ => id

/-- Forgetting a pending alias leaves the live and the old ones. -/
theorem forgetPending_keeps (role : KeyRole) : Keeps I (forgetKeyAlias io (.pending role)) := by
  refine perform_keeps hI (fun s role' => ?_) (fun s role' => ?_) fun _ => rfl <;>
    exact (Wallet.hash_forget ..).trans (if_neg nofun)

/-- Importing the new keys leaves the live and the old aliases. -/
theorem importNewKeys_keeps (hashes : KeyRole → String) : ∀ roles : List KeyRole,
    Keeps I (importNewKeys io hashes roles)
  | [] => Keeps.pure ()
  | role :: roles => by
    refine Keeps.bind (perform_keeps hI (fun s role' => ?_) (fun s role' => ?_) fun _ => rfl)
      fun r => (orFail_keeps _).bind fun _ => importNewKeys_keeps hashes roles <;>
    exact (Wallet.hash_importKey ..).trans (if_neg nofun)

/-- The key transactions change no alias. -/
theorem setKeys_keeps : ∀ roles : List KeyRole, Keeps I (setKeys io roles)
  | [] => Keeps.pure ()
  | role :: roles => by
    have hset : Keeps I (setKey io role) := by
      refine Triple.bind keyHash_triple fun r => Triple.pre (P := I) ?_ fun _ hw => hw.2
      split
      · exact Keeps.pure _
      · exact perform_keeps hI (fun _ _ => rfl) (fun _ _ => rfl) fun _ => rfl
    exact hset.bind fun r => (orFail_keeps _).bind fun _ => setKeys_keeps roles

/-- Neither does their submission, with all it asks. -/
theorem submitKeyRotationTransactions_keeps : Keeps I (submitKeyRotationTransactions io) := by
  refine (confirm_keeps _).bind fun confirmed => ?_
  split
  · exact (setKeys_keeps hI _).bind fun _ => pollForPendingActivation_keeps hI.polls 24
  · exact Keeps.throw _

end

/-! ## The runs that do not resume a partial swap -/

section

variable {I J : World → Prop} (hI : Indifferent I) (hJ : ∀ w, I w → J w)
  (hswap : Triple I (executeSwapSequence io) (fun _ => J) J)
  (hneed : Triple I (resumeFromKeysActivatedNeedSwap io) (fun _ => J) J)

include hI hJ hswap

/-- A run that resumes with the keys imported ends as the swap does. -/
theorem resumeFromKeysImported_ends :
    Triple I (resumeFromKeysImported io) (fun _ => J) J := by
  have hretry : Keeps I (chooseRetry io) := by
    unfold chooseRetry
    split
    · exact Keeps.pure _
    · split
      · exact Keeps.pure _
      · exact Keeps.pure _
      · exact Keeps.pure _
      · exact Keeps.throw _
  refine hretry.before hJ fun retry => ?_
  split
  · exact (step_keeps _).before hJ fun _ => (step_keeps _).before hJ fun _ =>
      (submitKeyRotationTransactions_keeps hI).before hJ fun _ =>
      (getActiveConsensusKey_keeps hI.polls _).before hJ fun _ => (step_keeps _).before hJ fun _ =>
      (step_keeps _).before hJ fun _ => resumeFromPending_ends hI.polls hJ hswap
  · exact (forgetPending_keeps hI _).before hJ fun _ => (orFail_keeps _).before hJ fun _ =>
      (forgetPending_keeps hI _).before hJ fun _ => (orFail_keeps _).ends hJ

/-- So does one that resumes with the keys pending on the chain only. -/
theorem resumeFromPendingOnChainOnly_ends :
    Triple I (resumeFromPendingOnChainOnly io) (fun _ => J) J := by
  refine (hI.polls _).before hJ fun chain => (confirm_keeps _).before hJ fun import' => ?_
  split
  · split
    · split
      · exact (importNewKeys_keeps hI _ _).before hJ fun _ =>
          resumeFromPending_ends hI.polls hJ hswap
      · exact (step_keeps _).ends hJ
    · exact (step_keeps _).ends hJ
  · exact (step_keeps _).ends hJ

/-- So does one that submits the keys. -/
theorem submitAndMonitor_ends : Triple I (submitAndMonitor io) (fun _ => J) J := by
  have hsubmit : Keeps I (discard (submitKeyRotationTransactions io)) :=
    (submitKeyRotationTransactions_keeps hI).bind fun _ => Keeps.pure ()
  refine (unlessDry_keeps hsubmit).before hJ fun _ => (step_keeps _).before hJ fun _ =>
    (step_keeps _).before hJ fun _ => ?_
  unfold unlessDry
  split
  · exact (Keeps.pure ()).ends hJ
  · exact runActivationMonitoring_ends hI.polls hJ hswap

/-- The pending keys of the chain are looked at; where they are the new ones the run goes on from
there. -/
theorem checkExistingPendingKeys_triple (consensusHash : String) :
    Triple I (checkExistingPendingKeys io consensusHash)
      (fun goesOn w => (goesOn = true ∧ J w) ∨ (goesOn = false ∧ I w)) J := by
  refine Triple.bind (Triple.mono (hI.polls _) (fun _ => id) (fun _ _ => id) hJ)
    fun chain => ?_
  dsimp only
  split
  · split
    · exact Triple.pure fun _ hw => .inr ⟨rfl, hw⟩
    · split
      · refine Triple.bind (Triple.mono (step_keeps _) (fun _ => id) (fun _ _ => id) hJ) fun _ =>
          Triple.bind (Triple.mono (step_keeps _) (fun _ => id) (fun _ _ => id) hJ) fun _ => ?_
        split
        · exact Triple.throw hJ
        · exact Triple.bind (resumeFromPending_ends hI.polls hJ hswap) fun _ =>
            Triple.pure fun _ hw => .inl ⟨rfl, hw⟩
      · split
        · exact Triple.pure fun _ hw => .inr ⟨rfl, hw⟩
        · exact Triple.throw hJ
  · exact Triple.pure fun _ hw => .inr ⟨rfl, hw⟩

/-- So does one that rotates from the start. -/
theorem executeFreshRotation_ends : Triple I (executeFreshRotation io) (fun _ => J) J := by
  have hcard : Keeps I (checkSdCardReadiness io) := by
    unfold checkSdCardReadiness
    split
    · exact Keeps.pure _
    · exact ask_keeps _
  refine hcard.before hJ fun connected => (step_keeps _).before hJ fun _ =>
    (step_keeps _).before hJ fun _ => (stepUnless_keeps _ _).before hJ fun _ =>
    (step_keeps _).before hJ fun _ => ?_
  split
  · exact (Keeps.throw _).ends hJ
  · rename_i newHashes _
    refine (getActiveConsensusKey_keeps hI.polls _).before hJ fun currentConsensus => ?_
    split
    · exact (Keeps.pure ()).ends hJ
    · refine (unlessDry_keeps (importNewKeys_keeps hI _ _)).before hJ fun _ => Triple.bind
        (checkExistingPendingKeys_triple hI hJ hswap _) fun goesOn => ?_
      cases goesOn with
      | true =>
        refine Triple.pure fun w hw => ?_
        rcases hw with ⟨-, hw⟩ | ⟨h, -⟩
        · exact hw
        · cases h
      | false =>
        refine Triple.pre (submitAndMonitor_ends hI hJ hswap) fun w hw => ?_
        rcases hw with ⟨h, -⟩ | ⟨-, hw⟩
        · cases h
        · exact hw

include hneed

/-- A run that does not resume a partial swap keeps to its part of the state, up to a swap. -/
theorem handleState_ends {state : RotationState} (hstate : state ≠ .partialSwap) :
    Triple I (handleState io state) (fun _ => J) J := by
  cases state with
  | partialSwap => exact absurd rfl hstate
  | clean => exact executeFreshRotation_ends hI hJ hswap
  | keysImported consensusHash companionHash =>
    exact (step_keeps _).before hJ fun _ => (step_keeps _).before hJ fun _ =>
      resumeFromKeysImported_ends hI hJ hswap
  | pending cycle => exact resumeFromPending_ends hI.polls hJ hswap
  | pendingOnChainOnly cycle => exact resumeFromPendingOnChainOnly_ends hI hJ hswap
  | keysActivatedNeedSwap => exact (step_keeps _).before hJ fun _ => hneed

end

/-! ## What a run can find -/

/-- Both live aliases are the new keys. -/
def PromotedBoth (s : Rotation) : Prop :=
  ∃ p, s.promotion = some p ∧ ∀ role, s.wallet.hash (.live role) = some (p.new role)

/-- Both live aliases are the old keys. -/
def RestoredBoth (s : Rotation) : Prop :=
  ∃ p, s.promotion = some p ∧ ∀ role, s.wallet.hash (.live role) = some (p.old role)

/-- What a promotion may leave, and what cleaning up after it. -/
inductive Interrupted (p : Promotion) (h : Aliases) : Prop
  /-- The consensus key has no live alias: no run gets past its preconditions. -/
  | lost : h (.live .consensus) = none → Interrupted p h
  /-- Both keys are backed up, and the consensus key is promoted. -/
  | backed : h (.live .consensus) = some (p.new .consensus) →
      (h (.live .companion) = none ∨ h (.live .companion) = some (p.new .companion)) →
      (∀ role, h (.old role) = some (p.old role)) → Interrupted p h
  /-- Both keys are promoted. -/
  | cleaning : (∀ role, h (.live role) = some (p.new role)) →
      (∀ role, h (.old role) = none ∨ h (.old role) = some (p.old role)) → Interrupted p h
  /-- The consensus key is restored, and the companion key is not. -/
  | restored : h (.live .companion) = none → h (.old .consensus) = none → Interrupted p h

/-- What a run leaves to later ones. -/
def Recoverable (s : Rotation) : Prop :=
  NoBackup s ∨ ∃ p, s.promotion = some p ∧ Interrupted p s.wallet.hash

/-- Of every stage of a promotion. -/
theorem recoverable_of_stage {p : Promotion} {stage : Stage} {w : World}
    (h : At log { s with promotion := some p } (p.stage stage) w) : Recoverable w.now := by
  obtain ⟨-, hnow, hhash⟩ := h
  have hpromotion : w.now.promotion = some p := by rw [hnow]
  cases stage with
  | ready => exact .inl fun role => congrFun hhash (.old role)
  | consensusBacked => exact .inr ⟨p, hpromotion, .lost (by rw [hhash]; rfl)⟩
  | bothBacked => exact .inr ⟨p, hpromotion, .lost (by rw [hhash]; rfl)⟩
  | consensusPromoted =>
    exact .inr ⟨p, hpromotion, .backed (by rw [hhash]; rfl) (.inl (by rw [hhash]; rfl))
      fun role => by rw [hhash]; rfl⟩
  | promoted =>
    exact .inr ⟨p, hpromotion, .cleaning (fun role => by rw [hhash]; rfl)
      fun role => .inr (by rw [hhash]; rfl)⟩
  | consensusRestored =>
    exact .inr ⟨p, hpromotion, .restored (by rw [hhash]; rfl) (by rw [hhash]; rfl)⟩

/-- An event of a run that a recovery allows: completion is reported, and a backup forgotten, only
where both keys are promoted. -/
def Allowed (e : Event × Rotation) : Prop :=
  e.1 = .completed ∨ (∃ role, e.1 = .forgetting role) → PromotedBoth e.2

/-- The run did what is allowed, and no rollback. -/
def Clean (log : List (Event × Rotation)) : Prop := ∀ e ∈ log, Allowed e ∧ e.1 ≠ .rollingBack

/-- No swap was started. -/
def Quiet (w : World) : Prop := NoBackup w.now ∧ Clean w.log

/-- What a run without a rollback comes to. -/
def Ended (w : World) : Prop := Recoverable w.now ∧ Clean w.log

/-- Both keys are promoted, and the backups not all forgotten. -/
def Cleaning (w : World) : Prop :=
  (∃ p, w.now.promotion = some p ∧ (∀ role, w.now.wallet.hash (.live role) = some (p.new role)) ∧
    ∀ role, w.now.wallet.hash (.old role) = none ∨
      w.now.wallet.hash (.old role) = some (p.old role)) ∧ Clean w.log

/-- That no swap was started is said of the old aliases and the log. -/
theorem Quiet.indifferent : Indifferent Quiet :=
  fun _ _ _ hold _ hw => ⟨fun role => (hold role).trans (hw.1 role), hw.2⟩

/-- A run that started no swap leaves what can be resumed. -/
theorem Quiet.ended (w : World) (h : Quiet w) : Ended w := ⟨.inl h.1, h.2⟩

/-- So does a run with both keys promoted. -/
theorem Cleaning.ended (w : World) (h : Cleaning w) : Ended w := by
  obtain ⟨⟨p, hpromotion, hlive, hold⟩, hlog⟩ := h
  exact ⟨.inr ⟨p, hpromotion, .cleaning hlive hold⟩, hlog⟩

/-- An event that is allowed. -/
theorem Clean.cons {e : Event × Rotation} (he : Allowed e) (hroll : e.1 ≠ .rollingBack)
    (hlog : Clean log) : Clean (e :: log) := by
  intro e' he'
  rcases List.mem_cons.1 he' with rfl | he'
  · exact ⟨he, hroll⟩
  · exact hlog e' he'

/-- Forgetting the backups and reporting completion. -/
theorem Cleaning.emit {e : Event} (he : e ≠ .rollingBack) : Keeps Cleaning (Host.emit e) := by
  refine emit_triple fun w hw => ⟨hw.1, hw.2.cons (fun _ => ?_) he⟩
  obtain ⟨⟨p, hpromotion, hlive, -⟩, -⟩ := hw
  exact ⟨p, hpromotion, hlive⟩

/-- A backup that is forgotten leaves both keys promoted. -/
theorem Cleaning.forget (role : KeyRole) : Keeps Cleaning (forgetKeyAlias io (.old role)) := by
  have hf : ∀ w, Cleaning w → Cleaning
      { w with now := { w.now with wallet := w.now.wallet.forget (.old role) } } := by
    rintro w ⟨⟨p, hpromotion, hlive, hold⟩, hlog⟩
    refine ⟨⟨p, hpromotion, fun role' => ?_, fun role' => ?_⟩, hlog⟩
    · exact (Wallet.hash_forget ..).trans ((if_neg nofun).trans (hlive role'))
    · rw [Wallet.hash_forget]
      split
      · exact .inl rfl
      · exact hold role'
  exact perform_triple (fun _ => hf) (fun _ _ _ => id) (fun _ => hf) fun _ _ => id

/-- The end of a swap leaves both keys promoted. -/
theorem Cleaning.completeRotation : Keeps Cleaning (completeRotation io) :=
  completeRotation_keeps (fun role => Cleaning.emit (e := .forgetting role) nofun)
    Cleaning.forget (Cleaning.emit (e := .completed) nofun)

/-- What a promotion comes to from an idle wallet. -/
theorem promote_ends (hio : SingleFault io) :
    Triple Quiet (promoteAliasesWithBackup io) (fun _ => Cleaning) Ended := by
  rintro ⟨s, log⟩ hw
  have hrun := @promote_triple io log s hio hw.1 ⟨s, log⟩ rfl
  cases hr : (promoteAliasesWithBackup io).run ⟨s, log⟩ with
  | ok u w =>
    rw [hr] at hrun
    obtain ⟨p, -, hlog, hnow, hhash⟩ := hrun
    refine ⟨⟨p, by rw [hnow], fun role => ?_, fun role => .inr ?_⟩, hlog ▸ hw.2⟩
    · rw [hhash]
      rfl
    · rw [hhash]
      rfl
  | error e w =>
    rw [hr] at hrun
    rcases hrun with rfl | ⟨p, stage, -, hat⟩
    · exact Quiet.ended _ hw
    · exact ⟨recoverable_of_stage hat, hat.1 ▸ hw.2⟩

/-- The rest of a swap, once the keys are promoted. -/
theorem verified_ends : Triple Cleaning
    (get >>= fun w => if verifyBakerSigning io.signals w.now.wallet then completeRotation io
      else pure () : Rotate Unit) (fun _ => Ended) Ended := by
  refine Triple.bind_get fun w => Triple.pre (P := Cleaning) ?_ fun _ hv => hv.2
  split
  · exact Cleaning.completeRotation.ends Cleaning.ended
  · exact (Keeps.pure ()).ends Cleaning.ended

/-- That the swap starts is logged with no key backed up. -/
theorem Quiet.swapping : Keeps Quiet (emit .swapping) := by
  refine emit_triple fun w hw => ⟨hw.1, hw.2.cons (fun h => ?_) nofun⟩
  rcases h with h | ⟨role, h⟩ <;> cases h

/-- A swap with one fault at most leaves what can be resumed. -/
theorem executeSwapSequence_ends (hio : SingleFault io) :
    Triple Quiet (executeSwapSequence io) (fun _ => Ended) Ended := by
  refine (confirm_keeps _).before Quiet.ended fun proceed => ?_
  split
  · refine Quiet.swapping.before Quiet.ended fun _ => (step_keeps _).before Quiet.ended fun _ =>
      (step_keeps _).before Quiet.ended fun _ => (step_keeps _).before Quiet.ended fun _ =>
      Triple.bind (promote_ends hio) fun _ => (step_keeps _).before Cleaning.ended fun _ =>
      verified_ends
  · exact (Keeps.pure ()).ends Quiet.ended

/-- So does a run that finds the keys active. -/
theorem resumeFromKeysActivatedNeedSwap_ends (hio : SingleFault io) :
    Triple Quiet (resumeFromKeysActivatedNeedSwap io) (fun _ => Ended) Ended := by
  refine Triple.bind ((getKeyHash_triple Quiet.ended).post fun _ w hw => hw.2) fun pendingHash => ?_
  refine checkSigner_keeps.before Quiet.ended fun _ => ?_
  split
  · exact (Keeps.throw _).ends Quiet.ended
  · split
    · refine (confirm_keeps _).before Quiet.ended fun proceed => ?_
      split
      · refine Quiet.swapping.before Quiet.ended fun _ => Triple.bind (promote_ends hio) fun _ =>
          (ask_keeps _).before Cleaning.ended fun _ =>
          (stepUnless_keeps _ _).before Cleaning.ended fun _ => verified_ends
      · exact (Keeps.throw _).ends Quiet.ended
    · exact (Keeps.throw _).ends Quiet.ended

/-! ## Resuming a partial swap -/

/-- A step outside that a run gets past. -/
def Reply.answers : Reply → Bool
  | .yes | .no => true
  | .failed _ | .killed => false

/-- The run gets to the verification of a partial swap. -/
def ResumesSwap (s : Rotation) (io : RunIo) : Prop :=
  io.opts.monitorOnly = false ∧ io.opts.replace = false ∧ io.ask .preconditions = .yes ∧
  (s.wallet.hash (.live .consensus)).isSome = true ∧ oldAliasesExist s.wallet = true ∧
  (io.ask .restartMethod).answers = true ∧
  (io.ask .bakerRunning = .yes ∨ io.ask .bakerRunning = .no ∧ (io.ask .startBaker).answers = true)

instance (s : Rotation) (io : RunIo) : Decidable (ResumesSwap s io) := instDecidableAnd

/-- Where the run resumes a partial swap and the baker signs, the companion key has its live alias.
Where it rolls back, both keys are backed up, and the rollback is not left half done. -/
def Undisturbed (s : Rotation) (io : RunIo) : Prop :=
  ResumesSwap s io →
    (verifyBakerSigning io.signals s.wallet = true →
      (s.wallet.hash (.live .companion)).isSome = true) ∧
    (verifyBakerSigning io.signals s.wallet = false → io.ask .rollback = .yes →
      (∀ role, (s.wallet.hash (.old role)).isSome = true) ∧
      ((io.rename (.old .consensus) (.live .consensus)).lands = true →
        io.rename (.old .consensus) (.live .consensus) = .done ∧
        (io.rename (.old .companion) (.live .companion)).lands = true))

/-- The renames of the rollback are done. -/
def Writable (io : RunIo) : Prop :=
  ∀ role, io.rename (.old role) (.live role) = .done

/-- The run did only what is allowed, and its rollback, where the wallet could be written, restored
both keys. -/
def Honest (io : RunIo) (w : World) : Prop :=
  (∀ e ∈ w.log, Allowed e) ∧
  ((∃ e ∈ w.log, e.1 = .rollingBack) → Writable io → RestoredBoth w.now)

/-- What a run comes to. -/
def Resumed (io : RunIo) (w : World) : Prop := Recoverable w.now ∧ Honest io w

/-- A run without a rollback is honest about it. -/
theorem Ended.resumed (w : World) (h : Ended w) : Resumed io w := by
  refine ⟨h.1, fun e he => (h.2 e he).1, ?_⟩
  rintro ⟨e, he, hroll⟩
  exact absurd hroll (h.2 e he).2

/-- A rollback of two backed up keys. -/
theorem rollbackAliases_triple {p : Promotion} (hpromotion : s.promotion = some p)
    (hold : ∀ role, h (.old role) = some (p.old role)) (hrecoverable : ∀ w, At log s h w →
      Recoverable w.now)
    (hwhole : (io.rename (.old .consensus) (.live .consensus)).lands = true →
      io.rename (.old .consensus) (.live .consensus) = .done ∧
      (io.rename (.old .companion) (.live .companion)).lands = true) :
    Triple (At log s h) (rollbackAliases io)
      (fun _ w => w.log = log ∧ Recoverable w.now ∧ (Writable io → RestoredBoth w.now))
      (fun w => w.log = log ∧ Recoverable w.now ∧ (Writable io → RestoredBoth w.now)) := by
  have hrestored : ∀ w, At log s ((h.move (.old .consensus) (.live .consensus)).move
      (.old .companion) (.live .companion)) w →
      w.log = log ∧ Recoverable w.now ∧ (Writable io → RestoredBoth w.now) := by
    rintro w ⟨hlog, hnow, hhash⟩
    have hpromotion : w.now.promotion = some p := by rw [hnow, hpromotion]
    have hlive : RestoredBoth w.now := by
      refine ⟨p, hpromotion, fun role => ?_⟩
      rw [hhash]
      cases role with
      | consensus => exact hold .consensus
      | companion => exact hold .companion
    refine ⟨hlog, .inl fun role => ?_, fun _ => hlive⟩
    rw [hhash]
    cases role <;> rfl
  have hstays : ¬ Writable io → ∀ w, At log s h w →
      w.log = log ∧ Recoverable w.now ∧ (Writable io → RestoredBoth w.now) :=
    fun hio w hw => ⟨hw.1, hrecoverable w hw, fun hwritable => absurd hwritable hio⟩
  have hsome : ∀ role, (h (.old role)).isSome = true := fun role => by rw [hold]; rfl
  unfold rollbackAliases
  refine Triple.bind (rename_triple (by decide) (hsome .consensus) (fun hkilled => ?_)
    fun hkilled => ?_) fun r => ?_
  · rw [hkilled] at hwhole
    cases (hwhole rfl).1
  · refine hstays fun hwritable => ?_
    rw [hwritable] at hkilled
    cases hkilled
  by_cases hdone : io.rename (.old .consensus) (.live .consensus) = .done
  · rw [hdone] at hwhole
    have hsecond := (hwhole rfl).2
    refine Triple.pre (P := fun w => r = .ok () ∧
      At log s (h.move (.old .consensus) (.live .consensus)) w) (Triple.of_pre ?_) ?_
    · rintro rfl
      refine Triple.bind
        (R := fun _ => At log s (h.move (.old .consensus) (.live .consensus)))
        (Triple.pure fun _ => id) fun _ => ?_
      refine Triple.bind (rename_triple (by decide) (hsome .companion) (fun _ => hrestored)
        fun hkilled => ?_) fun r => ?_
      · rw [hkilled] at hsecond
        cases hsecond
      · refine Triple.pre (P := fun w => r = .ok () ∧ At log s
          ((h.move (.old .consensus) (.live .consensus)).move (.old .companion)
            (.live .companion)) w) (Triple.of_pre ?_) ?_
        · rintro rfl
          exact Triple.pure hrestored
        · rintro w (⟨-, hr, hw⟩ | ⟨text, hfailed, -⟩)
          · exact ⟨hr, hw⟩
          · rw [hfailed] at hsecond
            cases hsecond
    · rintro w (⟨-, hr, hw⟩ | ⟨text, hfailed, -⟩)
      · exact ⟨hr, hw⟩
      · rw [hfailed] at hdone
        cases hdone
  · refine Triple.pre (P := fun w => (∃ text, r = .error text) ∧ At log s h w)
      (Triple.of_pre ?_) ?_
    · rintro ⟨text, rfl⟩
      exact Triple.bind (R := fun _ _ => False)
        (Triple.throw (hstays fun hwritable => hdone (hwritable .consensus))) fun _ _ => False.elim
    · rintro w (⟨hio, -⟩ | ⟨text, -, hr, hw⟩)
      · exact absurd hio hdone
      · exact ⟨⟨text, hr⟩, hw⟩

/-- The aliases of a run that did nothing yet. -/
theorem At.refl (s : Rotation) (log : List (Event × Rotation)) :
    At log s s.wallet.hash ⟨s, log⟩ := ⟨rfl, rfl, rfl⟩

/-- What a run leaves to later ones is said of the aliases and the promotion. -/
theorem Recoverable.at {w : World} (h : Recoverable s) (hw : At log s s.wallet.hash w) :
    Recoverable w.now := by
  obtain ⟨-, hnow, hhash⟩ := hw
  rcases h with hbackup | ⟨p, hpromotion, hinterrupted⟩
  · exact .inl fun role => by rw [hhash]; exact hbackup role
  · exact .inr ⟨p, by rw [hnow, hpromotion], by rwa [hhash]⟩

/-- A run that does nothing. -/
theorem Recoverable.resumed (h : Recoverable s) (w : World) (hw : w = ⟨s, []⟩) :
    Resumed io w := by
  subst hw
  exact Ended.resumed _ ⟨h, fun e he => absurd he List.not_mem_nil⟩

/-- Where the baker signs with a companion alias, both keys are promoted. -/
theorem Interrupted.cleaning_of_signing {p : Promotion} (h : Interrupted p s.wallet.hash)
    (hpromotion : s.promotion = some p)
    (hsigning : verifyBakerSigning io.signals s.wallet = true)
    (hcompanion : (s.wallet.hash (.live .companion)).isSome = true) : Cleaning ⟨s, []⟩ := by
  refine ⟨⟨p, hpromotion, ?_⟩, fun e he => absurd he List.not_mem_nil⟩
  cases h with
  | lost hnone =>
    rw [verifyBakerSigning, hnone] at hsigning
    cases hsigning
  | backed hconsensus hlive hold =>
    refine ⟨fun role => ?_, fun role => .inr (hold role)⟩
    cases role with
    | consensus => exact hconsensus
    | companion =>
      rcases hlive with hnone | hsome
      · rw [hnone] at hcompanion
        cases hcompanion
      · exact hsome
  | cleaning hlive hold => exact ⟨hlive, hold⟩
  | restored hnone _ =>
    rw [hnone] at hcompanion
    cases hcompanion

/-- Two backups are the old keys. -/
theorem Interrupted.old_of_backups {p : Promotion} {h : Aliases} (hinterrupted : Interrupted p h)
    (hlive : (h (.live .consensus)).isSome = true)
    (hold : ∀ role, (h (.old role)).isSome = true) : ∀ role, h (.old role) = some (p.old role) := by
  intro role
  cases hinterrupted with
  | lost hnone =>
    rw [hnone] at hlive
    cases hlive
  | backed _ _ hbackup => exact hbackup role
  | cleaning _ hbackup =>
    rcases hbackup role with hnone | hsome
    · have := hold role
      rw [hnone] at this
      cases this
    · exact hsome
  | restored _ hnone =>
    have := hold .consensus
    rw [hnone] at this
    cases this

/-- **Resuming a partial swap** finishes it or undoes it. -/
theorem resumeFromPartialSwap_triple {p : Promotion} (hpromotion : s.promotion = some p)
    (hinterrupted : Interrupted p s.wallet.hash)
    (hlive : (s.wallet.hash (.live .consensus)).isSome = true)
    (hio : (io.ask .bakerRunning = .yes ∨
        io.ask .bakerRunning = .no ∧ (io.ask .startBaker).answers = true) →
      (verifyBakerSigning io.signals s.wallet = true →
        (s.wallet.hash (.live .companion)).isSome = true) ∧
      (verifyBakerSigning io.signals s.wallet = false → io.ask .rollback = .yes →
        (∀ role, (s.wallet.hash (.old role)).isSome = true) ∧
        ((io.rename (.old .consensus) (.live .consensus)).lands = true →
          io.rename (.old .consensus) (.live .consensus) = .done ∧
          (io.rename (.old .companion) (.live .companion)).lands = true))) :
    Triple (fun w => w = ⟨s, []⟩) (resumeFromPartialSwap io) (fun _ => Resumed io)
      (Resumed io) := by
  have hrecoverable : Recoverable s := .inr ⟨p, hpromotion, hinterrupted⟩
  have hstays : ∀ w, w = ⟨s, []⟩ → Resumed io w := hrecoverable.resumed
  have hstart : ∀ b, Triple (fun w => io.ask .bakerRunning = (if b then .yes else .no) ∧
      w = ⟨s, []⟩) (stepUnless io b .startBaker) (fun _ w => (io.ask .bakerRunning = .yes ∨
        io.ask .bakerRunning = .no ∧ (io.ask .startBaker).answers = true) ∧ w = ⟨s, []⟩)
      (Resumed io) := by
    refine fun b => Triple.of_pre fun hrunning => ?_
    cases b with
    | true => exact Triple.pure fun w hw => ⟨.inl hrunning, hw⟩
    | false =>
      refine Triple.bind (Triple.mono (ask_triple _) (fun _ => id) (fun _ _ => id) hstays)
        fun answer => Triple.pure fun w hw => ⟨.inr ⟨hrunning, ?_⟩, hw.2⟩
      rw [hw.1]
      cases answer <;> rfl
  refine Triple.bind (Triple.mono (ask_triple _) (fun _ => id) (fun _ _ => id) hstays) fun b =>
    Triple.bind (hstart b) fun _ => Triple.of_pre fun hrunning => ?_
  obtain ⟨hsigning, hrollback⟩ := hio hrunning
  refine Triple.bind_get fun w => Triple.pre (P := fun v => w = ⟨s, []⟩ ∧ v = ⟨s, []⟩)
    (Triple.of_pre ?_) fun v hv => ⟨hv.1 ▸ hv.2, hv.2⟩
  rintro rfl
  split
  · rename_i hverified
    have hcleaning := hinterrupted.cleaning_of_signing hpromotion hverified (hsigning hverified)
    refine Triple.pre (P := Cleaning) (Cleaning.completeRotation.ends fun w hw => ?_) ?_
    · exact Ended.resumed w (Cleaning.ended w hw)
    · rintro v rfl
      exact hcleaning
  · rename_i hverified
    refine Triple.bind (Triple.mono (ask_triple _) (fun _ => id) (fun _ _ => id) hstays)
      fun rollback => Triple.of_pre fun hrolling => ?_
    cases rollback with
    | false => exact Triple.pure hstays
    | true =>
      obtain ⟨hbackups, hwhole⟩ := hrollback (eq_false_of_ne_true hverified) hrolling
      have hold := hinterrupted.old_of_backups hlive hbackups
      refine Triple.bind (R := fun _ => At [(.rollingBack, s)] s s.wallet.hash)
        (emit_triple ?_) fun _ => ?_
      · rintro v rfl
        exact At.refl s _
      · refine Triple.mono (rollbackAliases_triple hpromotion hold (fun w hw => hrecoverable.at hw)
          hwhole) (fun _ => id) (fun _ => ?_) ?_ <;>
        · rintro w ⟨hlog, hleft, hrestored⟩
          refine ⟨hleft, fun e he hallowed => ?_, fun _ => hrestored⟩
          rw [hlog, List.mem_singleton] at he
          subst he
          rcases hallowed with h | ⟨role, h⟩ <;> cases h

/-! ## A run -/

/-- Without a backup a run does not resume a swap. -/
theorem detectRotationState_triple : Triple Quiet (detectRotationState io)
    (fun state w => state ≠ .partialSwap ∧ Quiet w) Quiet := by
  refine Triple.bind_get fun w => Triple.pre (P := fun v => NoBackup w.now ∧ Quiet v)
    (Triple.of_pre fun hbackup => ?_) fun v hv => ⟨hv.1 ▸ hv.2.1, hv.2⟩
  have hnone := (noBackup_iff w.now).1 hbackup
  dsimp only
  rw [if_neg (by rw [hnone]; decide)]
  refine Triple.bind (Quiet.indifferent.polls _) fun chain => ?_
  split
  · split
    · exact Triple.throw fun _ => id
    · split <;> exact Triple.pure fun _ hw => ⟨nofun, hw⟩
  · split
    · refine Triple.bind (getActiveConsensusKey_keeps Quiet.indifferent.polls _) fun activeKey => ?_
      split <;> exact Triple.pure fun _ hw => ⟨nofun, hw⟩
    · exact Triple.pure fun _ hw => ⟨nofun, hw⟩

/-- `--replace` starts no swap, and does not turn a state into a partial one. -/
theorem handleReplaceFlag_triple {state : RotationState} (hstate : state ≠ .partialSwap) :
    Triple Quiet (handleReplaceFlag io state) (fun state' w => state' ≠ .partialSwap ∧ Quiet w)
      Quiet := by
  have hclear : Triple Quiet (handleReplaceFlag io (.pending 0))
      (fun state' w => state' ≠ .partialSwap ∧ Quiet w) Quiet :=
    Triple.bind (forgetPending_keeps Quiet.indifferent _) fun _ => Triple.bind (orFail_keeps _)
      fun _ => Triple.bind (forgetPending_keeps Quiet.indifferent _) fun _ =>
      Triple.bind (orFail_keeps _) fun _ => Triple.pure fun _ hw => ⟨nofun, hw⟩
  cases state with
  | partialSwap => exact absurd rfl hstate
  | keysActivatedNeedSwap => exact Triple.throw fun _ => id
  | clean => exact Triple.pure fun _ hw => ⟨nofun, hw⟩
  | keysImported consensusHash companionHash => exact hclear
  | pending cycle => exact hclear
  | pendingOnChainOnly cycle => exact hclear

/-- A run from a wallet without a backup. -/
theorem rotateKeys_of_noBackup (hio : SingleFault io) :
    Triple Quiet (rotateKeys io) (fun _ => Ended) Ended := by
  unfold rotateKeys
  split
  · exact (Quiet.indifferent.polls _).before Quiet.ended fun _ =>
      (Keeps.pure ()).ends Quiet.ended
  · refine Triple.bind (R := fun _ => Quiet) (Triple.mono verifyPreconditions_triple
      (fun _ => id) (fun _ _ hw => hw.2.2) Quiet.ended) fun _ => ?_
    refine Triple.bind (Triple.mono detectRotationState_triple (fun _ => id) (fun _ _ => id)
      Quiet.ended) fun state => Triple.of_pre fun hstate => ?_
    have hhandle : ∀ state' : RotationState, Triple (fun w => state' ≠ .partialSwap ∧ Quiet w)
        (handleState io state') (fun _ => Ended) Ended :=
      fun state' => Triple.of_pre fun hstate' => handleState_ends Quiet.indifferent Quiet.ended
        (executeSwapSequence_ends hio) (resumeFromKeysActivatedNeedSwap_ends hio) hstate'
    split
    · exact Triple.bind (Triple.mono (handleReplaceFlag_triple hstate) (fun _ => id)
        (fun _ _ => id) Quiet.ended) hhandle
    · exact Triple.bind (R := fun state' w => state' ≠ .partialSwap ∧ Quiet w)
        (Triple.pure fun _ hw => ⟨hstate, hw⟩) hhandle

/-- A run from a wallet with a backup. -/
theorem rotateKeys_of_backup (hs : Recoverable s) (hold : oldAliasesExist s.wallet = true)
    (hio : Undisturbed s io) :
    Triple (fun w => w = ⟨s, []⟩) (rotateKeys io) (fun _ => Resumed io) (Resumed io) := by
  have hstays : ∀ w, w = ⟨s, []⟩ → Resumed io w := hs.resumed
  unfold rotateKeys
  split
  · have hquery : Triple (fun w => w = ⟨s, []⟩) (query io .monitor) (fun _ => Resumed io)
        (Resumed io) := by
      refine Triple.bind_get fun w => ?_
      split
      · exact Triple.throw fun v hv => hstays v hv.2
      · refine Triple.bind (R := fun _ => Resumed io) (Triple.modify ?_) fun _ =>
          Triple.pure fun _ => id
        rintro v ⟨-, rfl⟩
        exact Ended.resumed _ ⟨hs, fun e he => absurd he List.not_mem_nil⟩
    exact Triple.bind hquery fun _ => Triple.pure fun _ => id
  · rename_i hmonitor
    refine Triple.bind (Triple.mono verifyPreconditions_triple (fun _ => id) (fun _ _ => id)
      hstays) fun _ => Triple.of_pre fun hpreconditions => ?_
    refine Triple.bind (R := fun state w => state = .partialSwap ∧
      (s.wallet.hash (.live .consensus)).isSome = true ∧ w = ⟨s, []⟩) ?_ fun state => ?_
    · refine Triple.bind_get fun w => Triple.pre (P := fun v => w = ⟨s, []⟩ ∧
        (s.wallet.hash (.live .consensus)).isSome = true ∧ v = ⟨s, []⟩) (Triple.of_pre ?_) ?_
      · rintro rfl
        dsimp only
        rw [if_pos hold]
        exact Triple.pure fun _ hv => ⟨rfl, hv⟩
      · rintro v ⟨rfl, hlive, rfl⟩
        exact ⟨rfl, hlive, rfl⟩
    · refine Triple.of_pre ?_
      rintro rfl
      refine Triple.of_pre fun hlive => ?_
      split
      · exact Triple.bind (R := fun _ _ => False) (Triple.throw hstays) fun _ _ => False.elim
      · rename_i hreplace
        refine Triple.bind (R := fun state w => state = .partialSwap ∧ w = ⟨s, []⟩)
          (Triple.pure fun _ hw => ⟨rfl, hw⟩) fun state => Triple.of_pre ?_
        rintro rfl
        refine Triple.bind (R := fun _ w => (io.ask .restartMethod).answers = true ∧
          w = ⟨s, []⟩) ?_ fun _ => Triple.of_pre fun hrestart => ?_
        · refine Triple.bind (Triple.mono (ask_triple _) (fun _ => id) (fun _ _ => id) hstays)
            fun answer => Triple.pure fun w hw => ⟨?_, hw.2⟩
          rw [hw.1]
          cases answer <;> rfl
        · rcases hs with hbackup | ⟨p, hpromotion, hinterrupted⟩
          · rw [(noBackup_iff s).1 hbackup] at hold
            cases hold
          · exact resumeFromPartialSwap_triple hpromotion hinterrupted hlive fun hrunning =>
              hio ⟨eq_false_of_ne_true hmonitor, eq_false_of_ne_true hreplace, hpreconditions,
                hlive, hold, hrestart, hrunning⟩

/-- What one run preserves, and that it is honest. -/
theorem runOf_resumed (hs : Recoverable s) (hfault : SingleFault io) (hio : Undisturbed s io) :
    Resumed io (runOf io s) := by
  cases hold : oldAliasesExist s.wallet with
  | false =>
    refine Triple.final (E := Resumed io) ?_ (rfl : (⟨s, []⟩ : World) = ⟨s, []⟩)
    refine Triple.mono (rotateKeys_of_noBackup hfault) ?_ (fun _ => Ended.resumed) Ended.resumed
    rintro w rfl
    exact ⟨(noBackup_iff s).2 hold, fun e he => absurd he List.not_mem_nil⟩
  | true => exact (rotateKeys_of_backup hs hold hio).final rfl

/-- **An interrupted promotion recovers.** From a wallet without a backup, in each of any number of
runs, cut off anywhere, in each of which at most one rename fails: completion is reported and a
backup forgotten only where both live aliases are the new keys, and a rollback restores both. This
is so where no run resumes a swap without a live companion alias but to undo it, and no rollback is
left half done. -/
theorem promotion_recovers {ios : List RunIo} (hs : NoBackup s)
    (hfault : ∀ io ∈ ios, SingleFault io) (hios : Automaton.Along Rotation.step Undisturbed s ios) :
    Automaton.Along Rotation.step (fun s io => Honest io (runOf io s)) s ios := by
  refine Automaton.Along.of_invariant (I := Recoverable) (G := fun s io => SingleFault io ∧
    Undisturbed s io) ?_ ?_ (.inl hs) ((Automaton.along_of_forall s hfault).and hios)
  · rintro s io t hs ⟨hfault, hio⟩ hstep
    cases hstep
    exact (runOf_resumed hs hfault hio).1
  · rintro s io hs ⟨hfault, hio⟩
    exact (runOf_resumed hs hfault hio).2

/-- A wallet with both new keys imported, and the new consensus key active on the chain. -/
def readyToSwap : Rotation where
  wallet := {
    publicKeyHashs := some ⟨[("russignol-consensus", "old"), ("russignol-companion", "oldC"),
      ("russignol-consensus-pending", "new"), ("russignol-companion-pending", "newC")], by decide⟩
    publicKeys := none
    secretKeys := none }
  chain := ⟨perRole ⟨some "new", []⟩ ⟨some "newC", []⟩⟩
  accepted := []
  promotion := none

/-- The run is killed before the companion key is promoted. -/
def killedRun : RunIo :=
  { smoothRun with rename := fun oldAlias _ =>
      if oldAlias = .pending .companion then .killed false else .done }

/-- The baker does not sign, and the operator rolls back. -/
def undoingRun : RunIo := { smoothRun with signals := [] }

/-- The wallet of the examples has no backup. -/
theorem readyToSwap_noBackup : NoBackup readyToSwap := by
  rw [noBackup_iff]
  decide +kernel

/-- A run no rename of which fails has no fault. -/
theorem smoothRun_singleFault {rename : BakerAlias → BakerAlias → Effect} {signals : List Signals}
    (h : ∀ a b, rename a b = .done ∨ rename a b = .killed false) :
    SingleFault { smoothRun with rename := rename, signals := signals } := by
  intro a b c d text text' hfailed
  rcases h a b with hab | hab <;>
  · have hfailed : rename a b = .failed text := hfailed
    rw [hab] at hfailed
    cases hfailed

/-- Neither has the run that is killed. -/
theorem killedRun_singleFault : SingleFault killedRun := by
  refine smoothRun_singleFault fun a b => ?_
  split
  · exact .inr rfl
  · exact .inl rfl

/-- A promotion that is cut off before its last rename, and a rollback. -/
theorem promotion_recovers_killed : Automaton.Along Rotation.step
    (fun s io => Honest io (runOf io s)) readyToSwap [killedRun, undoingRun] := by
  refine promotion_recovers readyToSwap_noBackup ?_ ?_
  · intro io hio
    rcases List.mem_cons.1 hio with rfl | hio
    · exact killedRun_singleFault
    · rw [List.mem_singleton.1 hio]
      exact smoothRun_singleFault fun _ _ => .inl rfl
  · refine ⟨fun h => absurd h (by decide +kernel), fun t ht => ?_⟩
    rw [← Option.some.inj ht]
    refine ⟨fun _ => ⟨fun h => absurd h (by decide +kernel), fun _ _ => ⟨?_, by decide +kernel⟩⟩,
      fun _ _ => trivial⟩
    intro role
    cases role <;> decide +kernel

/-- With the companion key in no live alias, a run that is verified reports completion. -/
theorem promotion_completes_without_companion : ¬ ∀ (s : Rotation) (ios : List RunIo),
    NoBackup s → (∀ io ∈ ios, SingleFault io) →
      Automaton.Along Rotation.step (fun s io => Honest io (runOf io s)) s ios := by
  intro h
  have hrun := h readyToSwap [killedRun, smoothRun] readyToSwap_noBackup (by
    intro io hio
    rcases List.mem_cons.1 hio with rfl | hio
    · exact killedRun_singleFault
    · rw [List.mem_singleton.1 hio]
      exact smoothRun_singleFault fun _ _ => .inl rfl)
  have hallowed := (hrun.2 _ rfl).1.1
  have hreport : ((runOf smoothRun (runOf killedRun readyToSwap).now).log.head?.map fun e =>
      (e.1, e.2.wallet.hash (.live .companion))) = some (.completed, none) := by decide +kernel
  obtain ⟨e, he, hevent⟩ := Option.map_eq_some_iff.1 hreport
  obtain ⟨hcompleted, hcompanion⟩ := Prod.mk.inj hevent
  obtain ⟨p, -, hlive⟩ := hallowed e (List.mem_of_mem_head? he) (.inl hcompleted)
  exact nomatch hcompanion.symm.trans (hlive .companion)

end Russignol.Host
