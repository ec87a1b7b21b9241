import Russignol.Rpi.KeyCustody

/-!
# The retry budget of the migration

A boot that stages v2 counts an attempt, and a boot that finds four attempts halts the migration,
whatever it finds. The fourth attempt is therefore staged and never verified (`fourth_attempt`).
`Cycle` follows runs of boots with the number that reported a staged v2; in a run in which no boot
counts a fourth attempt every staged v2 has its verification boot, and at most three are staged
(`staged_verified`).
-/

namespace Russignol.TezosEncrypt

open CrashProgram FileStore Crypto

/-- "Allow three retry cycles before halting." -/
def retryCycles : Nat := 3

section
variable [BlobCrypto]

/-- What an action returns. -/
def Action.outcome (s : Files KeyPath) : Action → Option (Except IoError DecryptOutcome)
  | .boot random pin io => ((migrateAndDecrypt random pin).run io s).1
  | .corrupt _ => none

/-- The migration event that an outcome reports. -/
def reported : Option (Except IoError DecryptOutcome) → Option MigrationEvent
  | some (.ok o) => o.migration
  | _ => none

/-- A partition, with the number of boots so far that reported a staged v2. -/
structure Cycle where
  files : Files KeyPath
  staged : Nat

/-- One action. -/
def Cycle.step (c : Cycle) (a : Action) : Option Cycle :=
  (TezosEncrypt.step c.files a).map fun files =>
    ⟨files, c.staged + if reported (a.outcome c.files) = some .stagedV2 then 1 else 0⟩

/-- The attempt that a boot counts: it finds v1 alone, opens and re-encrypts it, and its writes of
v2 and of the counter land. -/
def Counts (random : Random) (pin : List UInt8) (io : List Answer) (s : Files KeyPath) : Prop :=
  s.content (.file .v2) = none ∧ (∃ b y blob, s.content (.file .v1) = some b ∧
    decryptWithFormat pin b = .ok (y, .v1Legacy) ∧ encrypt random pin y = .ok blob) ∧
    Wrote io ∧ Landed io.tail.tail.tail

/-- The action counts no fourth attempt. -/
def Action.Spares (s : Files KeyPath) : Action → Prop
  | .boot random pin io => attempts s = migrationAttemptThreshold - 1 → ¬Counts random pin io s
  | .corrupt _ => True

/-- A boot that finds both files does not halt the migration, and promotes a v2 that opens unless
power is lost or v1 cannot be unlinked. -/
def Action.Verifies (s : Files KeyPath) : Action → Prop
  | .boot random pin io => (s.content (.file .v1)).isSome → (s.content (.file .v2)).isSome →
    (∀ n, reported ((Action.boot random pin io).outcome s) ≠ some (.migrationDisabled n)) ∧
    ∀ y, OpensFile pin s .v2 y → (∀ a ∈ io, a.Powered) → next io = .ok →
      (Action.boot random pin io).outcome s = some (.ok ⟨y, some .promotedV2⟩)
  | .corrupt _ => True

/-- **The invariant**: once a v2 was staged, and while v1 is there, the counter has counted it and
leaves a verification boot. -/
structure Cycle.Budget (c : Cycle) : Prop where
  staged : c.staged ≤ retryCycles
  counted : 0 < c.staged → (c.files.content (.file .v1)).isSome →
    c.staged ≤ (attempts c.files).toNat ∧ attempts c.files < migrationAttemptThreshold

omit [BlobCrypto] in
/-- One more attempt, below the threshold. -/
theorem attempt_succ {n : UInt32} (h : n < migrationAttemptThreshold)
    (hne : n ≠ migrationAttemptThreshold - 1) :
    (n + 1).toNat = n.toNat + 1 ∧ n + 1 < migrationAttemptThreshold := by
  have hlt : n.toNat < 4 := UInt32.lt_iff_toNat_lt.1 h
  have hne' : n.toNat ≠ 3 := fun heq => hne (UInt32.toNat_inj.1 heq)
  have hsucc : (n + 1).toNat = n.toNat + 1 := by
    rw [UInt32.toNat_add]
    exact Nat.mod_eq_of_lt (by change n.toNat + 1 < 4294967296; omega)
  refine ⟨hsucc, UInt32.lt_iff_toNat_lt.2 ?_⟩
  rw [hsucc]
  change n.toNat + 1 < 4
  omega

omit [BlobCrypto] in
/-- Where v1 and the counter stay, or v1 goes, the invariant stays. -/
theorem Cycle.Budget.of_same {c : Cycle} (h : c.Budget) {files : Files KeyPath}
    (hfiles : (files.content (.file .v1)).isSome →
      (c.files.content (.file .v1)).isSome ∧ attempts files = attempts c.files) :
    (⟨files, c.staged⟩ : Cycle).Budget := by
  refine ⟨h.staged, fun hpos hv1 => ?_⟩
  obtain ⟨hv1', hattempts⟩ := hfiles hv1
  simp only [hattempts]
  exact h.counted hpos hv1'

omit [BlobCrypto] in
/-- Files that keep v1 and the counter keep the invariant. -/
theorem Cycle.Budget.of_kept {c : Cycle} (h : c.Budget) {files : Files KeyPath}
    {ps us : List KeyPath} (hkept : Kept ps us c.files files)
    (hps : .file .v1 ∉ ps ∧ .file .counter ∉ ps) : (⟨files, c.staged⟩ : Cycle).Budget := by
  refine h.of_same fun hv1 => ⟨?_, ?_⟩
  · rwa [hkept.content _ hps.1] at hv1
  · rw [attempts, attempts, hkept.content _ hps.2]

omit [BlobCrypto] in
/-- The invariant after an attempt is counted, whether or not its v2 is reported staged. -/
theorem Cycle.Budget.count {c : Cycle} (h : c.Budget) {files : Files KeyPath} {n : Nat}
    (hn : n ≤ 1) (hv1 : (c.files.content (.file .v1)).isSome)
    (hlt : attempts c.files < migrationAttemptThreshold)
    (hne : attempts c.files ≠ migrationAttemptThreshold - 1)
    (hfiles : attempts files = attempts c.files + 1) : (⟨files, c.staged + n⟩ : Cycle).Budget := by
  obtain ⟨hsucc, hlt'⟩ := attempt_succ hlt hne
  have hstaged : c.staged ≤ (attempts c.files).toNat := by
    rcases Nat.eq_zero_or_pos c.staged with hzero | hpos
    · omega
    · exact (h.counted hpos hv1).1
  have hbound : (attempts c.files + 1).toNat < 4 := UInt32.lt_iff_toNat_lt.1 hlt'
  refine ⟨?_, fun _ _ => ?_⟩
  · change c.staged + n ≤ 3
    omega
  · simp only [hfiles]
    exact ⟨by omega, hlt'⟩

/-- **A boot that counts no fourth attempt keeps the invariant.** -/
theorem Boot.budget {random : Random} {pin : List UInt8} {io : List Answer} {c : Cycle}
    {s' : Files KeyPath} {r : Option (Except IoError DecryptOutcome)} (h : c.Budget)
    (hspares : (Action.boot random pin io).Spares c.files)
    (hboot : Boot random pin io c.files s' r) :
    (⟨s', c.staged + if reported r = some .stagedV2 then 1 else 0⟩ : Cycle).Budget := by
  cases hboot with
  | refused _ hkept => exact h.of_kept hkept (by simp)
  | steady h1 _ _ hkept hr =>
    have hnone : reported r ≠ some .stagedV2 := by rcases hr with rfl | rfl <;> nofun
    rw [if_neg hnone]
    refine h.of_same fun hv1 => ?_
    rw [hkept.content _ (by simp), h1] at hv1
    cases hv1
  | disabled _ _ _ hkept => exact h.of_kept hkept (by simp)
  | staging h1 h2 hopen hcount hkept _ hattempts hr =>
    have hnone : reported r ≠ some .stagedV2 := by rcases hr with rfl | ⟨_, rfl⟩ <;> simp [reported]
    have hv1 := hkept.content (.file .v1) (by simp)
    rw [if_neg hnone]
    rcases hattempts with hattempts | ⟨⟨blob, hblob⟩, hio, hlanded, hattempts⟩
    · exact h.of_same fun hv1' => ⟨by rwa [hv1] at hv1', hattempts⟩
    · exact h.count (Nat.zero_le 1) (by rw [h1]; rfl) hcount
        (fun heq => hspares heq ⟨h2, ⟨_, _, blob, h1, hopen, hblob⟩, hio, hlanded⟩) hattempts
  | staged h1 h2 hopen hcount _ hblob _ hattempts hio =>
    exact h.count (Nat.le_refl 1) (by rw [h1]; rfl) hcount
      (fun heq => hspares heq ⟨h2, ⟨_, _, _, h1, hopen, hblob⟩, hio.1, hio.2.landed⟩) hattempts
  | notPromoted _ _ _ _ hkept hr =>
    have hnone : reported r ≠ some .stagedV2 := by
      rcases hr with rfl | ⟨_, _, _, rfl⟩ <;> nofun
    rw [if_neg hnone]
    exact h.of_kept hkept (by simp)
  | promoted _ _ _ _ _ _ hkept hr =>
    have hnone : reported r ≠ some .stagedV2 := by
      rcases hr with rfl | ⟨_, _, _, rfl⟩ | ⟨_, rfl⟩ <;> simp [reported]
    rw [if_neg hnone]
    refine h.of_same fun hv1 => ?_
    rw [hkept.content _ (by simp)] at hv1
    simp [Files.unlink] at hv1
  | reverted _ _ _ _ _ hread hs' hr =>
    have hnone : reported r ≠ some .stagedV2 := by
      rcases hr with rfl | rfl <;> simp [reported]
    rw [if_neg hnone]
    have hkept : Kept [.file .v2] [.file .v2] c.files s' := by
      rcases hs' with rfl | rfl
      · exact hread.after (Kept.refl _ _ _)
      · exact hread.after (Kept.unlink (by simp) (by simp) _)
    exact h.of_kept hkept (by simp)

/-- **An action that counts no fourth attempt keeps the invariant.** -/
theorem Cycle.step_budget (c : Cycle) (a : Action) (c' : Cycle) (h : c.Budget)
    (hspares : a.Spares c.files) (hstep : c.step a = some c') : c'.Budget := by
  obtain ⟨files, hfiles, rfl⟩ := Option.map_eq_some_iff.1 hstep
  cases a with
  | boot random pin io =>
    obtain ⟨r, io', t, hrun, hboot⟩ := migrateAndDecrypt_boot random pin io c.files
    cases hfiles
    have hbudget := hboot.budget h hspares
    simpa only [Action.outcome, hrun] using hbudget
  | corrupt content =>
    simp only [TezosEncrypt.step] at hfiles
    split at hfiles
    · cases hfiles
      have hkept : Kept [.file .v2] [] c.files (c.files.set (.file .v2) content) :=
        Kept.set [] (by simp) _ _
      exact h.of_kept hkept (by simp)
    · cases hfiles

/-- **Under the invariant a staged v2 has its verification boot.** -/
theorem Cycle.Budget.verifies {c : Cycle} (h : c.Budget) (hpos : 0 < c.staged) (random : Random)
    (pin : List UInt8) (io : List Answer) : (Action.boot random pin io).Verifies c.files := by
  intro hv1 hv2
  obtain ⟨-, hlt⟩ := h.counted hpos hv1
  obtain ⟨r, io', t, hrun, hboot⟩ := migrateAndDecrypt_boot random pin io c.files
  simp only [Action.outcome, hrun]
  constructor
  · intro n hn
    cases hboot with
    | refused => cases hn
    | steady _ _ _ _ hr => rcases hr with rfl | rfl <;> cases hn
    | disabled _ _ hcount => exact absurd hcount (UInt32.not_le.2 hlt)
    | staging _ h2 => simp [h2] at hv2
    | staged => cases hn
    | notPromoted _ _ _ _ _ hr => rcases hr with rfl | ⟨_, _, _, rfl⟩ <;> cases hn
    | promoted _ _ _ _ _ _ _ hr =>
      rcases hr with rfl | ⟨_, _, _, rfl⟩ | ⟨_, rfl⟩ <;> cases hn
    | reverted _ _ _ _ _ _ _ hr => rcases hr with rfl | rfl <;> cases hn
  · intro y hy hio hnext
    obtain ⟨result, hresult⟩ := (migrateAndDecrypt_returns random pin).run hio c.files
    rw [hrun] at hresult
    cases hresult
    cases hboot with
    | refused hrefused =>
      cases hrefused with
      | noKeys h1 => simp [h1] at hv1
      | v2 h1 => simp [h1] at hv1
      | v1 h1 h2 =>
        rcases h2 with h2 | hcount
        · simp [h2] at hv2
        · exact absurd hcount (UInt32.not_le.2 hlt)
      | misnamed _ h2 => simp [h2] at hv2
      | both _ h2 _ _ hno2 =>
        obtain ⟨b, hb, hopen⟩ := hy
        rw [h2] at hb
        cases hb
        exact absurd hopen (hno2 y)
    | steady h1 => simp [h1] at hv1
    | disabled _ _ hcount => exact absurd hcount (UInt32.not_le.2 hlt)
    | staging _ h2 => simp [h2] at hv2
    | staged _ h2 => simp [h2] at hv2
    | notPromoted _ _ _ _ _ hr =>
      rcases hr with hr | ⟨e, left, hfailed, hr⟩
      · cases hr
      · rw [hnext] at hfailed
        cases hfailed
    | promoted _ h2 hopen _ _ _ _ hr =>
      rcases hr with hr | ⟨e, left, hfailed, hr⟩ | ⟨_, hr⟩
      · cases hr
      · rw [hnext] at hfailed
        cases hfailed
      · rw [hr, hy.eq_of_content h2 hopen]
    | reverted _ h2 _ hfail =>
      obtain ⟨b, hb, hopen⟩ := hy
      rw [h2] at hb
      cases hb
      rw [Opens, hfail] at hopen
      cases hopen

/-- **Every staged v2 is verified, and at most three are staged**, in a run of boots in which none
counts a fourth attempt: once a boot reported a staged v2, every boot that finds both files
verifies. -/
theorem staged_verified {s₀ : Files KeyPath} {as : List Action} {c : Cycle}
    (hspares : Automaton.Along Cycle.step (fun c a => a.Spares c.files) ⟨s₀, 0⟩ as)
    (hrun : Automaton.run Cycle.step ⟨s₀, 0⟩ as = some c) :
    c.staged ≤ retryCycles ∧
      (0 < c.staged → ∀ random pin io, (Action.boot random pin io).Verifies c.files) := by
  have hinit : (⟨s₀, 0⟩ : Cycle).Budget := ⟨Nat.zero_le _, nofun⟩
  have h : c.Budget := Automaton.run_invariant Cycle.step_budget hinit hspares hrun
  exact ⟨h.staged, h.verifies⟩

end

attribute [local instance] plainCrypto

/-- A boot under the right PIN in which nothing fails. -/
def quietBoot : Action := .boot plainRandom rightPin []

/-- A v2 is staged and rots, and the next boot reverts to v1. -/
def rotCycle : List Action := [quietBoot, .corrupt (some [0]), quietBoot]

/-- Two cycles, and a third staging. -/
def thirdRun : List Action := rotCycle ++ rotCycle ++ [quietBoot]

/-- The v2 that `thirdRun` staged last has its verification boot. -/
theorem staged_verified_thirdRun : ∃ c,
    Automaton.run Cycle.step ⟨keyFiles (some (plainV1 rightPin "keys")) none none, 0⟩ thirdRun =
      some c ∧ c.staged = retryCycles ∧ quietBoot.Verifies c.files := by
  have hstaged : (Automaton.run Cycle.step
      ⟨keyFiles (some (plainV1 rightPin "keys")) none none, 0⟩ thirdRun).map (·.staged) =
        some retryCycles := by decide +kernel
  have hattempts : Automaton.Along Cycle.step
      (fun c _ => attempts c.files ≠ migrationAttemptThreshold - 1)
      ⟨keyFiles (some (plainV1 rightPin "keys")) none none, 0⟩ thirdRun := by decide +kernel
  have hspares : ∀ (c : Cycle) (a : Action),
      attempts c.files ≠ migrationAttemptThreshold - 1 → a.Spares c.files := by
    intro c a hne
    cases a with
    | boot random pin io => exact fun heq => absurd heq hne
    | corrupt content => trivial
  obtain ⟨c, hrun, hc⟩ := Option.map_eq_some_iff.1 hstaged
  exact ⟨c, hrun, hc, (staged_verified (hattempts.mono hspares) hrun).2 (by rw [hc]; decide)
    plainRandom rightPin []⟩

/-- The action, when it is a boot, uses this PIN. -/
def Action.Uses (pin : List UInt8) : Action → Prop
  | .boot _ q _ => q = pin
  | .corrupt _ => True

/-- **The fourth staged v2 has no verification boot**: the boot after it finds four attempts and
halts the migration. -/
theorem fourth_attempt : ¬∀ [BlobCrypto] (pin : List UInt8) (x : String) (s₀ : Files KeyPath)
    (as : List Action) (c c' : Cycle) (random : Random) (io : List Answer),
    OpensFile pin s₀ .v1 x → (∀ a ∈ as, a.Uses pin) →
    Automaton.run Cycle.step ⟨s₀, 0⟩ as = some c →
    reported ((Action.boot random pin io).outcome c.files) = some .stagedV2 →
    c.step (.boot random pin io) = some c' →
    ∀ random' io', (Action.boot random' pin io').Verifies c'.files := by
  intro h
  have hreported : (Automaton.run Cycle.step
      ⟨keyFiles (some (plainV1 rightPin "keys")) none none, 0⟩
      (rotCycle ++ rotCycle ++ rotCycle)).map
        (fun c => reported (quietBoot.outcome c.files)) = some (some .stagedV2) := by
    decide +kernel
  have hhalted : ((Automaton.run Cycle.step
      ⟨keyFiles (some (plainV1 rightPin "keys")) none none, 0⟩
      (rotCycle ++ rotCycle ++ rotCycle)).bind (·.step quietBoot)).map
        (fun c => ((c.files.content (.file .v1)).isSome, (c.files.content (.file .v2)).isSome,
          reported (quietBoot.outcome c.files))) =
      some (true, true, some (.migrationDisabled 4)) := by decide +kernel
  have huses : ∀ a ∈ rotCycle ++ rotCycle ++ rotCycle, a.Uses rightPin := by
    intro a ha
    simp only [rotCycle, List.mem_append, List.mem_cons, List.not_mem_nil, or_false] at ha
    rcases ha with ((rfl | rfl | rfl) | rfl | rfl | rfl) | rfl | rfl | rfl
    all_goals first | exact rfl | trivial
  obtain ⟨c, hrun, hstaged⟩ := Option.map_eq_some_iff.1 hreported
  rw [hrun] at hhalted
  obtain ⟨c', hstep, hc'⟩ := Option.map_eq_some_iff.1 hhalted
  obtain ⟨hv1, hrest⟩ := Prod.mk.inj hc'
  obtain ⟨hv2, hdisabled⟩ := Prod.mk.inj hrest
  exact (h rightPin "keys" _ _ c c' plainRandom [] ⟨_, rfl, original_opens⟩ huses hrun hstaged
    hstep plainRandom [] hv1 hv2).1 4 hdisabled

end Russignol.TezosEncrypt
