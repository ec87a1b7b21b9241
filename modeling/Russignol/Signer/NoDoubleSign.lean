import Russignol.Signer.TestUtils

/-!
# No double signing

Over any run that no operator intervenes in, the entries signed for one key and operation type
strictly increase (`Device.signatures_increase`), whatever crashes, reloads, failing writes and
late ceiling threads the run has. The run of a signer is, slot by slot, a run of a durable floor,
and the invariant of a durable floor orders what it issued.
-/

namespace Russignol

open FloorRegister

section

variable [Blake3] [Base58]

/-- An action no operator takes part in: BLS signs, and a failed write leaves the old record, the
new one, or one that does not authenticate. -/
def Action.Unattended (card : Card) (a : Action) : Prop :=
  a.Clean card ∧
    match a with
    | .sign _ io _ _ => ∃ signature, io.sign = .ok signature
    | .confirm .. => False
    | .fire .. | .restart _ => True

namespace Device

/-- An unattended action is steps of every slot's durable floor. -/
theorem unattended_steps {card : Card} {d d' : Device} {a : Action} (hwf : d.Wf card)
    (ha : a.Unattended card) (hstep : d.step card a = some d') :
    d'.Wf card ∧ ∀ k t, Relation.ReflTransGen Step (d.slot card k t) (d'.slot card k t) := by
  obtain ⟨hclean, ha⟩ := ha
  cases a with
  | sign seen io pkh data =>
    obtain ⟨signature, hsign⟩ := ha
    refine sign_steps hwf hclean (fun hlower => ?_) hstep
    obtain ⟨⟨e, he⟩, -⟩ := hlower.1
    cases hsign.symm.trans he
  | fire i io =>
    obtain ⟨hwf', hsteps⟩ := fire_steps hwf hclean hstep
    exact ⟨hwf', fun k t => (hsteps k t).1⟩
  | confirm => cases ha
  | restart io => exact restart_steps hstep

/-- Before the first signature every slot is safe. -/
theorem boot_safe (card : Card) (io : LoadIo) (disk : Disk) (k : PublicKeyHash)
    (t : OperationType) : Safe ((boot card io disk []).slot card k t) :=
  Safe.init (boot_slot card io disk [] k t).2 rfl

/-- Every slot stays safe over an unattended run. -/
theorem run_safe {card : Card} {d d' : Device} {as : List Action} (hwf : d.Wf card)
    {k : PublicKeyHash} {t : OperationType} (hsafe : Safe (d.slot card k t))
    (has : ∀ a ∈ as, a.Unattended card) (hrun : Automaton.run (step card) d as = some d') :
    Safe (d'.slot card k t) := by
  refine Automaton.run_simulates (f := fun d => d.slot card k t) (R := Step) (I := Safe)
    (J := Wf card) ?_ ?_ ?_ hwf hsafe (Automaton.along_of_forall d has) hrun
  · exact fun _ _ => Safe.step
  · exact fun _ _ _ hJ ha h => (unattended_steps hJ ha h).1
  · exact fun _ _ _ hJ ha h => (unattended_steps hJ ha h).2 k t

/-- **No double signing.** From a start on any disk, over any unattended run, the entries signed
for a key and operation type strictly increase (the log has the latest first). -/
theorem signatures_increase (card : Card) (io : LoadIo) (disk : Disk) (as : List Action)
    (d : Device) (has : ∀ a ∈ as, a.Unattended card)
    (hrun : Automaton.run (step card) (boot card io disk []) as = some d) (k : PublicKeyHash)
    (t : OperationType) : (d.issued k t).Pairwise (· > ·) :=
  (run_safe (boot_wf card io disk []) (boot_safe card io disk k t) has hrun).sorted

end Device

end

namespace Device

attribute [local instance] plainBlake3 plainBase58

/-- A signature, its ceiling, a signature under it, a restart, a request the ceiling refuses after
it, and one above. -/
def ceilingRun : List Action :=
  let attest level round := Action.sign (testWatermark [testKey 1] 100) SignIo.quiet (testKey 1)
    (createAttestationDataWithChain testChainBytes level round)
  [attest 101 0, .fire 0 .done, attest 102 0, .restart LoadIo.quiet, attest 102 1, attest 103 0]

/-- The log of that run, and its order. -/
theorem signatures_increase_ceilingRun : ∃ d,
    Automaton.run (step (testCard [testKey 1] 10))
        (boot (testCard [testKey 1] 10) LoadIo.quiet (testDisk [testKey 1] 100) []) ceilingRun =
      some d ∧
    d.issued (testKey 1) .attestation = [⟨103, 0⟩, ⟨102, 0⟩, ⟨101, 0⟩] ∧
    (d.issued (testKey 1) .attestation).Pairwise (· > ·) := by
  have hlog : (Automaton.run (step (testCard [testKey 1] 10))
      (boot (testCard [testKey 1] 10) LoadIo.quiet (testDisk [testKey 1] 100) []) ceilingRun).map
      (·.issued (testKey 1) .attestation) = some [⟨103, 0⟩, ⟨102, 0⟩, ⟨101, 0⟩] := by
    decide +kernel
  obtain ⟨d, hrun, hissued⟩ := Option.map_eq_some_iff.1 hlog
  refine ⟨d, hrun, hissued, signatures_increase _ _ _ _ d ?_ hrun _ _⟩
  have hquiet : ∀ level round, (Action.sign (testWatermark [testKey 1] 100) SignIo.quiet (testKey 1)
      (createAttestationDataWithChain testChainBytes level round)).Unattended
        (testCard [testKey 1] 10) :=
    fun _ _ => ⟨⟨nofun, nofun⟩, _, rfl⟩
  intro a ha
  simp only [ceilingRun, List.mem_cons, List.not_mem_nil, or_false] at ha
  rcases ha with rfl | rfl | rfl | rfl | rfl | rfl
  · exact hquiet _ _
  · exact ⟨nofun, trivial⟩
  · exact hquiet _ _
  · exact ⟨trivial, trivial⟩
  · exact hquiet _ _
  · exact hquiet _ _

end Device

end Russignol
