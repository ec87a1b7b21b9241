import Russignol.Host.RotateKeys

/-!
# The parts of a run

What each operation of a run of `rotate-keys` does, and the parts that only ask, look at the chain
and wait: they keep whatever looking at the chain keeps (`Polls`), up to a swap.
-/

namespace Russignol.Host

open EarlyExit

/-! ## What an operation does -/

section

variable {I P E : World → Prop} {io : RunIo}

/-- A question changes nothing, whatever is answered. -/
theorem ask_keeps (p : Point) : Keeps I (ask io p) := by
  unfold ask
  cases io.ask p with
  | yes => exact Keeps.pure true
  | no => exact Keeps.pure false
  | failed text => exact Keeps.throw _
  | killed => exact Keeps.throw _

/-- A step that may fail changes nothing of what is modelled. -/
theorem step_keeps (p : Point) : Keeps I (step io p) :=
  (ask_keeps p).bind fun _ => Keeps.pure ()

/-- A confirmation changes nothing, asked or taken for granted. -/
theorem confirm_keeps (p : Point) : Keeps I (confirm io p) := by
  unfold confirm
  split
  · exact Keeps.pure true
  · exact ask_keeps p

/-- A step that is skipped where it was done before changes nothing. -/
theorem stepUnless_keeps (already : Bool) (p : Point) : Keeps I (stepUnless io already p) := by
  unfold stepUnless
  split
  · exact Keeps.pure ()
  · exact step_keeps p

/-- A part that `--dry-run` leaves out keeps what it keeps when it runs. -/
theorem unlessDry_keeps {m : Rotate Unit} (hm : Keeps I m) : Keeps I (unlessDry io m) := by
  unfold unlessDry
  split
  · exact Keeps.pure ()
  · exact hm

/-- An error that is passed on changes nothing. -/
theorem orFail_keeps (r : Except String Unit) : Keeps I (orFail r) := by
  unfold orFail
  split
  · exact Keeps.pure ()
  · exact Keeps.throw _

/-- The wallet is asked for the hash of an alias. -/
theorem keyHash_triple {a : BakerAlias} :
    Triple P (keyHash a) (fun r w => r = w.now.wallet.hash a ∧ P w) E :=
  fun _ hw => ⟨rfl, hw⟩

/-- A change is made, fails, or is made or not where the run is killed. -/
theorem perform_triple {effect : Effect} {f : Rotation → Rotation}
    {Q : Except String Unit → World → Prop}
    (hdone : effect = .done → ∀ w, P w → Q (.ok ()) { w with now := f w.now })
    (hfailed : ∀ text, effect = .failed text → ∀ w, P w → Q (.error text) w)
    (hlanded : effect = .killed true → ∀ w, P w → E { w with now := f w.now })
    (hkilled : effect = .killed false → ∀ w, P w → E w) : Triple P (perform effect f) Q E := by
  unfold perform
  cases effect with
  | done =>
    exact Triple.bind (Triple.modify (hdone rfl)) fun _ => Triple.pure fun _ => id
  | failed text => exact Triple.pure (hfailed text rfl)
  | killed landed =>
    refine Triple.bind (Triple.modify (Q := fun _ => E) fun w hw => ?_) fun _ =>
      Triple.throw fun _ => id
    cases landed with
    | true => exact hlanded rfl w hw
    | false => exact hkilled rfl w hw

/-- A question that returns tells which answer it got. -/
theorem ask_triple (p : Point) :
    Triple P (ask io p) (fun b w => io.ask p = (if b then .yes else .no) ∧ P w) P := by
  unfold ask
  cases io.ask p with
  | yes => exact Triple.pure fun _ hw => ⟨rfl, hw⟩
  | no => exact Triple.pure fun _ hw => ⟨rfl, hw⟩
  | failed text => exact Triple.throw fun _ => id
  | killed => exact Triple.throw fun _ => id

/-- An alias that has to be there. -/
theorem getKeyHash_triple {context : String} {a : BakerAlias} (hE : ∀ w, P w → E w) :
    Triple P (getKeyHash context a) (fun hash w => w.now.wallet.hash a = some hash ∧ P w) E := by
  unfold getKeyHash
  refine Triple.bind keyHash_triple fun r => ?_
  cases r with
  | none => exact Triple.throw fun w hw => hE w hw.2
  | some hash => exact Triple.pure fun w hw => ⟨hw.1.symm, hw.2⟩

/-- What is logged is logged with the state it is logged in. -/
theorem emit_triple {e : Event} {P E : World → Prop} {Q : Unit → World → Prop}
    (h : ∀ w, P w → Q () { w with log := (e, w.now) :: w.log }) : Triple P (emit e) Q E :=
  Triple.modify h

/-- The check of the signer, with its second try, changes nothing. -/
theorem checkSigner_keeps : Keeps I (checkSigner io) := by
  refine (ask_keeps _).bind fun signerOk => ?_
  split
  · exact Keeps.pure ()
  · split
    · exact Keeps.throw _
    · refine (ask_keeps _).bind fun proceed => ?_
      split
      · refine (ask_keeps _).bind fun signerOk => ?_
        split
        · exact Keeps.pure ()
        · exact Keeps.throw _
      · exact Keeps.throw _

/-- Where the preconditions hold, they were found to, and the wallet has a consensus key. -/
theorem verifyPreconditions_triple :
    Triple P (verifyPreconditions io) (fun _ w => io.ask .preconditions = .yes ∧
      (w.now.wallet.hash (.live .consensus)).isSome = true ∧ P w) P := by
  refine Triple.bind (ask_triple _) fun met => Triple.of_pre fun hmet => ?_
  refine Triple.bind keyHash_triple fun key => ?_
  split
  · rename_i hboth
    obtain ⟨rfl, hkey⟩ := Bool.and_eq_true_iff.1 hboth
    refine Triple.pure fun w hw => ⟨hmet, ?_, hw.2⟩
    rw [← hw.1, hkey]
  · exact Triple.throw fun w hw => hw.2

end

/-- No key is backed up. -/
def NoBackup (s : Rotation) : Prop := ∀ role, s.wallet.hash (.old role) = none

/-- No key is backed up, as a run sees it. -/
theorem noBackup_iff (s : Rotation) : NoBackup s ↔ oldAliasesExist s.wallet = false := by
  simp only [oldAliasesExist, Bool.or_eq_false_iff, Option.isSome_eq_false_iff,
    Option.isNone_iff_eq_none]
  refine ⟨fun h => ⟨h .consensus, h .companion⟩, fun h role => ?_⟩
  cases role with
  | consensus => exact h.1
  | companion => exact h.2

/-! ## The promotion -/

section

variable {io : RunIo} {I P Q : World → Prop}

/-- A rename is made or not. -/
theorem renameAliasLocally_triple {oldAlias newAlias : BakerAlias}
    (hrenamed : ∀ w, P w → Q { w with now := { w.now with
      wallet := w.now.wallet.renameAlias oldAlias newAlias } }) (hstays : ∀ w, P w → Q w) :
    Triple P (renameAliasLocally io oldAlias newAlias) (fun _ => Q) Q := by
  unfold renameAliasLocally
  refine Triple.bind (R := fun _ => P) (keyHash_triple.post fun _ _ hw => hw.2) fun found => ?_
  exact Triple.bind (R := fun _ => Q) (perform_triple (fun _ => hrenamed) (fun _ _ => hstays)
    (fun _ => hrenamed) fun _ => hstays) fun _ => Triple.pure fun _ => id

/-- A rollback keeps what each of its renames keeps, those that fail included. -/
theorem restore_keeps : ∀ {renames : List (BakerAlias × BakerAlias)},
    (∀ r ∈ renames, Keeps I (renameAliasLocally io r.1 r.2)) → Keeps I (restore io renames)
  | [], _ => Keeps.pure _
  | r :: _, h => (h r List.mem_cons_self).bind fun _ =>
    (restore_keeps fun r' hr' => h r' (List.mem_cons_of_mem _ hr')).bind fun _ => Keeps.pure _

/-- A rename with its rollback keeps what the renames of both keep. -/
theorem renameOrRestore_keeps {oldAlias newAlias : BakerAlias} {context : String}
    {rollback : List (BakerAlias × BakerAlias)}
    (hrename : Keeps I (renameAliasLocally io oldAlias newAlias))
    (hrollback : Keeps I (restore io rollback)) :
    Keeps I (renameOrRestore io oldAlias newAlias context rollback) := by
  refine hrename.bind fun r => ?_
  split
  · exact Keeps.pure ()
  · exact hrollback.bind fun _ => Keeps.throw _

end

/-! ## The end of a swap -/

section

variable {io : RunIo} {I : World → Prop}
  (hforgetting : ∀ role, Keeps I (emit (.forgetting role)))
  (hforget : ∀ role, Keeps I (forgetKeyAlias io (.old role)))

include hforgetting hforget

/-- Forgetting the backups of some roles keeps what each line and each removal keeps. -/
theorem forgetBackups_keeps (oldHashes : KeyRole → Option String) : ∀ roles : List KeyRole,
    Keeps I (forgetBackups io oldHashes roles)
  | [] => Keeps.pure _
  | role :: roles => by
    rw [forgetBackups]
    split
    · exact (hforgetting role).bind fun _ => (hforget role).bind fun _ =>
        (forgetBackups_keeps oldHashes roles).bind fun _ => Keeps.pure _
    · exact forgetBackups_keeps oldHashes roles

/-- The cleanup keeps it too: it asks, and forgets the backups or leaves them. -/
theorem cleanupBackupAliases_keeps : Keeps I (cleanupBackupAliases io) := by
  refine Triple.bind_get fun w => Triple.pre (P := I) ?_ fun _ hv => hv.2
  dsimp only
  split
  · exact Keeps.pure ()
  · refine (confirm_keeps _).bind fun proceed => ?_
    split
    · refine (forgetBackups_keeps hforgetting hforget _ _).bind fun unremoved => ?_
      split
      · exact Keeps.pure ()
      · exact Keeps.throw _
    · exact Keeps.pure ()

/-- The end of a swap is the cleanup and the line that reports completion. -/
theorem completeRotation_keeps (hcompleted : Keeps I (emit .completed)) :
    Keeps I (completeRotation io) :=
  (cleanupBackupAliases_keeps hforgetting hforget).bind fun _ => hcompleted

end

/-! ## Waiting for the chain -/

/-- Looking at the chain keeps a predicate. -/
def Polls (io : RunIo) (I : World → Prop) : Prop := ∀ p, Keeps I (query io p)

section

variable {io : RunIo} {I J : World → Prop} (hI : Polls io I)

include hI

/-- The query of the active key only looks at the chain. -/
theorem getActiveConsensusKey_keeps (p : QueryPoint) : Keeps I (getActiveConsensusKey io p) := by
  refine (hI p).bind fun chain => ?_
  split
  · exact Keeps.pure _
  · exact Keeps.throw _

/-- The polls for an activation cycle only look at the chain. -/
theorem pollForPendingActivation_keeps : ∀ left : Nat, Keeps I (pollForPendingActivation io left)
  | 0 => Keeps.throw _
  | left + 1 => by
    refine (hI _).bind fun chain => ?_
    dsimp only
    split
    · split
      · exact Keeps.pure _
      · exact pollForPendingActivation_keeps left
    · exact pollForPendingActivation_keeps left

/-- The wait for the activation only looks at the chain, however long it takes. -/
theorem waitForActivation_keeps : ∀ left : Nat, Keeps I (waitForActivation io left)
  | 0 => Keeps.throw _
  | left + 1 => by
    refine (hI _).bind fun chain => ?_
    split
    · exact waitForActivation_keeps left
    · exact Keeps.pure ()

variable (hJ : ∀ w, I w → J w) (hswap : Triple I (executeSwapSequence io) (fun _ => J) J)

include hJ hswap

/-- The wait and the swap end as the swap does, begun where the wait left it. -/
theorem waitForActivationAndSwap_ends :
    Triple I (waitForActivationAndSwap io) (fun _ => J) J :=
  (waitForActivation_keeps hI _).before hJ fun _ => hswap

/-- So does the monitoring, which swaps only if the operator lets it wait. -/
theorem runActivationMonitoring_ends : Triple I (runActivationMonitoring io) (fun _ => J) J := by
  refine (step_keeps _).before hJ fun _ => (confirm_keeps _).before hJ fun shouldWait => ?_
  split
  · exact waitForActivationAndSwap_ends hI hJ hswap
  · exact (Keeps.pure ()).ends hJ

/-- So does a run that resumes with the keys pending. -/
theorem resumeFromPending_ends : Triple I (resumeFromPending io) (fun _ => J) J := by
  refine (step_keeps _).before hJ fun _ => (confirm_keeps _).before hJ fun shouldWait => ?_
  split
  · exact (step_keeps _).before hJ fun _ => (step_keeps _).before hJ fun _ =>
      waitForActivationAndSwap_ends hI hJ hswap
  · exact (Keeps.pure ()).ends hJ

end

end Russignol.Host
