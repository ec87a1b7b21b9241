import Russignol.Signer.NoDoubleSign

/-!
# Ceilings

A ceiling is a promise that a reload would find at least that much. `Device.ceilings_kept` proves
the promise over every run, with BLS failures, failing writes, crashes and operator updates, as
long as no write that lowers a record under its ceiling reaches the disk and then reports an error
(`Action.KeepsCeilings`): the writers clear the ceiling only after the `fdatasync` they would have
to clear it for. `Device.ceilings_not_kept` is a run in which one does.
-/

namespace Russignol

open FloorRegister

section

variable [Blake3] [Base58]

/-- No write of the action takes a record below its ceiling and then fails: not the roll-back of a
signature that failed under a ceiling, and not the write of an operator's floor. -/
def Action.KeepsCeilings (card : Card) (d : Device) : Action → Prop
  | .sign seen io pkh data => ¬d.Lowers card seen io pkh data
  | .confirm _ ios _ pkh level => ∀ t e c, Store.firstFailure ios OperationType.all = some t →
      ios t = .failed .new e → d.ceil pkh t = some c → c ≤ ⟨level, 0⟩
  | .fire .. | .restart _ => True

namespace Device

/-- The ceilings of a state promise no more than a reload would find. -/
def CeilingsHonest (card : Card) (d : Device) : Prop :=
  ∀ k t, Honest (d.slot card k t)

omit [Blake3] [Base58] in
/-- An operator's update whose failing write does not reach the disk under a ceiling assigns the
floor. -/
theorem Moved.assign {ios : OperationType → WriteIo} {y : WatermarkEntry} {t : OperationType}
    {b b' : Register WatermarkEntry} (h : Moved ios y t b b')
    (hland : ∀ e c, Store.firstFailure ios OperationType.all = some t → ios t = .failed .new e →
      b.ceil = some c → c ≤ y) : Assign y b b' := by
  rcases h with h | ⟨hreached, r, h⟩
  · rw [h]
    exact .unreached
  · cases h with
    | done _ hd => exact .done hd
    | kept => exact .failed (.inl rfl)
    | torn => exact .failed (.inr (.inl rfl))
    | @landed _ e' _ hio hd =>
      rcases hd with rfl | rfl
      · have hfirst : Store.firstFailure ios OperationType.all = some t := by
          rcases hreached with hdone | hfirst
          · cases hdone.symm.trans hio
          · exact hfirst
        exact .failed (.inr (.inr ⟨rfl, fun c hc => hland e' c hfirst hio hc⟩))
      · exact .failed (.inr (.inl rfl))

/-- An action that keeps the ceilings keeps them honest. -/
theorem ceilingsHonest_step {card : Card} {d d' : Device} {a : Action} (hwf : d.Wf card)
    (h : d.CeilingsHonest card) (hclean : a.Clean card) (hkeep : a.KeepsCeilings card d)
    (hstep : d.step card a = some d') : d'.Wf card ∧ d'.CeilingsHonest card := by
  cases a with
  | sign seen io pkh data =>
    obtain ⟨hwf', hsteps⟩ := sign_steps hwf hclean hkeep hstep
    exact ⟨hwf', fun k t => (h k t).steps (hsteps k t)⟩
  | fire i io =>
    obtain ⟨hwf', hsteps⟩ := fire_steps hwf hclean hstep
    exact ⟨hwf', fun k t => (h k t).steps (hsteps k t).1⟩
  | restart io =>
    obtain ⟨hwf', hsteps⟩ := restart_steps hstep
    exact ⟨hwf', fun k t => (h k t).steps (hsteps k t)⟩
  | confirm fault ios chainId pkh level =>
    obtain ⟨hwf', -, hslots⟩ := confirm_slots hwf hclean hstep
    refine ⟨hwf', fun k t => ?_⟩
    rcases hslots k t with hfetch | ⟨rfl, b, hfetch, hmoved⟩
    · exact (h k t).steps hfetch.steps
    · refine ((h k t).steps hfetch.steps).assign (hmoved.assign fun e c hfirst hio hc => ?_)
      have hb : b = d.slot card k t := hfetch.of_ceil hc
      rw [hb] at hc
      exact hkeep t e c hfirst hio hc

/-- An update that a ceiling covers is refused by a new process, whatever it can read. -/
theorem covered_refused {card : Card} {d : Device} (hwf : d.Wf card) (h : d.CeilingsHonest card)
    {wm : HighWatermark} (hproc : d.proc = some wm) {u : WatermarkUpdate}
    (hcovers : wm.ceilingCovers u = true) {io : LoadIo} {wm' : HighWatermark}
    (hboot : (boot card io d.disk d.signed).proc = some wm') (fault : Option LoadFault)
    (chainId : ChainId) : ∃ e s, Store.checkAndUpdateParsed fault chainId u.pkh u.idx u.level
      u.round ⟨wm', d.disk⟩ = (.error e, s) := by
  rcases Store.checkAndUpdateParsed_cases fault chainId u.pkh u.idx u.level u.round
    ⟨wm', d.disk⟩ with ⟨e, s, hrefused, -⟩ | ⟨s, current, -, hload, hmem, hlt⟩
  · exact ⟨e, s, hrefused⟩
  · -- the mark the request is compared with is what the file holds, so at or above the ceiling
    exfalso
    obtain ⟨c, hc, hle⟩ := (Store.ceilingCovers_iff ⟨wm, d.disk⟩ u).1 hcovers
    obtain ⟨hmac, hchain, -, hnew⟩ := Store.new_spec (new_of_boot hboot)
    have hreload : Store.reload ⟨wm', d.disk⟩ u.pkh u.idx = some current := by
      have hreads : ∀ {a b : Register WatermarkEntry}, Fetch a b → b.mem = some current →
          a.mem = none ∨ a.mem = a.disk → a.disk = some current := by
        intro a b hfetch hb ha
        cases hfetch with
        | same =>
          rcases ha with hnone | heq
          · cases hnone.symm.trans hb
          · exact heq.symm.trans hb
        | read => exact hb
      refine hreads (hload.fetch u.pkh u.idx []) hmem ((hnew u.pkh u.idx).1.imp_right fun h => ?_)
      rw [Store.slot, Store.reload, hmac, hchain]
      exact h
    have hceil : (d.slot card u.pkh u.idx).ceil = some c := by
      rw [(hwf.onStore hproc).slot]
      exact hc
    have hdisk : (d.slot card u.pkh u.idx).disk = some current := by
      rw [Store.reload, hmac, hchain] at hreload
      exact hreload
    exact absurd ((hle.trans (h u.pkh u.idx c current hceil hdisk)).trans_lt hlt) (lt_irrefl _)

/-- **Ceilings promise no more than the disk holds.** Over any run from any disk whose actions
keep the ceilings, a reload of a slot with a ceiling finds nothing or at least the ceiling, and
every update a ceiling covers would be refused by a new process. -/
theorem ceilings_kept (card : Card) (io : LoadIo) (disk : Disk) (as : List Action) (d : Device)
    (hclean : ∀ a ∈ as, a.Clean card)
    (hkeep : Automaton.Along (step card) (fun d a => a.KeepsCeilings card d)
      (boot card io disk []) as)
    (hrun : Automaton.run (step card) (boot card io disk []) as = some d) :
    (∀ k t c e, d.ceil k t = some c → d.disk.reload card.macKeys card.chainId k t = some e →
      c ≤ e) ∧
    ∀ wm u, d.proc = some wm → wm.ceilingCovers u = true →
      ∀ io' wm', (boot card io' d.disk d.signed).proc = some wm' → ∀ fault chainId, ∃ e s,
        Store.checkAndUpdateParsed fault chainId u.pkh u.idx u.level u.round ⟨wm', d.disk⟩ =
          (.error e, s) := by
  have hboot : (boot card io disk []).CeilingsHonest card := by
    intro k t c e hc
    cases ((boot_slot card io disk [] k t).2).symm.trans hc
  have hinv : d.Wf card ∧ d.CeilingsHonest card := by
    refine Automaton.run_invariant (I := fun d => d.Wf card ∧ d.CeilingsHonest card) ?_
      ⟨boot_wf card io disk [], hboot⟩
      ((Automaton.along_of_forall _ hclean).and hkeep) hrun
    exact fun _ _ _ hI ha h => ceilingsHonest_step hI.1 hI.2 ha.1 ha.2 h
  exact ⟨fun k t c e => hinv.2 k t c e,
    fun wm u hproc hcovers io' wm' hboot' fault chainId =>
      covered_refused hinv.1 hinv.2 hproc hcovers hboot' fault chainId⟩

end Device

end

namespace Device

attribute [local instance] plainBlake3 plainBase58

/-- A request for level 150 raises the gap dialog. Signing goes on from 140 to 151, and the thread
of 151 writes the ceiling 152. The operator then confirms 150, and the write of the attestation
record reaches the disk but its `fdatasync` fails. -/
def loweringRun : List Action :=
  let attest seen level := Action.sign (testWatermark [testKey 1] seen) SignIo.quiet (testKey 1)
    (createAttestationDataWithChain testChainBytes level 0)
  let ios : OperationType → WriteIo
    | .attestation => .failed .new "fdatasync: Input/output error"
    | _ => .done
  [attest 100 150, attest 100 140, attest 140 151, .fire 1 .done,
    .confirm none ios testChain (testKey 1) 150]

/-- The actions of `loweringRun` are clean. -/
theorem loweringRun_clean : ∀ a ∈ loweringRun, a.Clean (testCard [testKey 1] 10) := by
  intro a ha
  simp only [loweringRun, List.mem_cons, List.not_mem_nil, or_false] at ha
  rcases ha with rfl | rfl | rfl | rfl | rfl
  · exact ⟨nofun, nofun⟩
  · exact ⟨nofun, nofun⟩
  · exact ⟨nofun, nofun⟩
  · exact nofun
  · intro t
    cases t <;> exact nofun

/-- The state before the operator confirms: a ceiling is held, and it is on the disk. -/
theorem ceilings_kept_before_confirm : ∃ d,
    Automaton.run (step (testCard [testKey 1] 10))
        (boot (testCard [testKey 1] 10) LoadIo.quiet (testDisk [testKey 1] 100) [])
        (loweringRun.take 4) = some d ∧
      d.ceil (testKey 1) .attestation = some ⟨152, 0xFFFFFFFF⟩ ∧
      ∀ e, d.disk.reload (testMacKeys [testKey 1]) testChain (testKey 1) .attestation = some e →
        ⟨152, 0xFFFFFFFF⟩ ≤ e := by
  have hceil : (Automaton.run (step (testCard [testKey 1] 10))
      (boot (testCard [testKey 1] 10) LoadIo.quiet (testDisk [testKey 1] 100) [])
      (loweringRun.take 4)).map (fun d => d.ceil (testKey 1) .attestation) =
      some (some ⟨152, 0xFFFFFFFF⟩) := by decide +kernel
  obtain ⟨d, hrun, hd⟩ := Option.map_eq_some_iff.1 hceil
  have hkeep : ∀ a ∈ loweringRun.take 4, ∀ d, a.KeepsCeilings (testCard [testKey 1] 10) d := by
    intro a ha
    simp only [loweringRun, List.take_succ_cons, List.take_zero, List.mem_cons, List.not_mem_nil,
      or_false] at ha
    rcases ha with rfl | rfl | rfl | rfl
    · exact fun _ h => nomatch h.1.1
    · exact fun _ h => nomatch h.1.1
    · exact fun _ h => nomatch h.1.1
    · exact fun _ => trivial
  have hkept := ceilings_kept (testCard [testKey 1] 10) LoadIo.quiet (testDisk [testKey 1] 100)
    (loweringRun.take 4) d (fun a ha => loweringRun_clean a (List.mem_of_mem_take ha))
    ((Automaton.along_of_forall _ hkeep).mono fun d a h => h d) hrun
  exact ⟨d, hrun, hd, fun e he => hkept.1 _ _ _ e hd he⟩

/-- **A failed `fdatasync` under a ceiling breaks the promise**: after `loweringRun` the ceiling of
the attestations is level 152, and a reload finds level 150. -/
theorem ceilings_not_kept : ¬∀ [Blake3] [Base58] (card : Card) (io : LoadIo) (disk : Disk)
    (as : List Action) (d : Device), (∀ a ∈ as, a.Clean card) →
    Automaton.run (step card) (boot card io disk []) as = some d → ∀ k t c e,
      d.ceil k t = some c → d.disk.reload card.macKeys card.chainId k t = some e → c ≤ e := by
  intro h
  have hslot : (Automaton.run (step (testCard [testKey 1] 10))
      (boot (testCard [testKey 1] 10) LoadIo.quiet (testDisk [testKey 1] 100) []) loweringRun).map
      (fun d => (d.ceil (testKey 1) .attestation,
        d.disk.reload (testMacKeys [testKey 1]) testChain (testKey 1) .attestation)) =
      some (some ⟨152, 0xFFFFFFFF⟩, some ⟨150, 0⟩) := by decide +kernel
  obtain ⟨d, hrun, hd⟩ := Option.map_eq_some_iff.1 hslot
  obtain ⟨hceil, hreload⟩ := Prod.mk.inj hd
  have hle := h (testCard [testKey 1] 10) LoadIo.quiet (testDisk [testKey 1] 100) loweringRun d
    loweringRun_clean hrun _ _ _ _ hceil hreload
  exact absurd hle (by decide)

end Device

end Russignol
