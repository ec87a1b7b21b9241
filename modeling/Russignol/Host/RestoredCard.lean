import Russignol.Host.CardCopy
import Russignol.Rpi.KeyCustody
import Russignol.Rpi.UnlockAvailability

/-!
# A restored card unlocks like its source

The copy of a keys partition has the source's key files without the attempt counter. A boot of the
migration gives the same on both (`restored_unlocks_iff`), unless one of the two finds a v2 that
opens, tries to promote it, and cannot unlink v1: a source whose attempts are used up does not try.

Whatever a run leaves of a card that had one key file is in one of three states: `Custody`, where v1
is a legacy blob; `Unmigrated`, where it is not and nothing was staged; `V2Only`.
-/

namespace Russignol.TezosEncrypt

open CrashProgram FileStore Crypto

/-- The plaintext that a boot returns, if it unlocks. -/
def unlocked (r : Option (Except FileStore.IoError DecryptOutcome)) : Option String :=
  r.bind fun r => r.toOption.map (·.plaintext)

section
variable [BlobCrypto]

/-- What a boot of the migration unlocks. -/
def bootUnlocks (random : Random) (pin : List UInt8) (io : List Answer) (s : Files KeyPath) :
    Option String :=
  unlocked ((migrateAndDecrypt random pin).run io s).1

/-- The boot opens a staged v2, and the medium refuses to unlink v1. -/
def UnlinkRefused (pin : List UInt8) (io : List Answer) (s : Files KeyPath) : Prop :=
  (s.content (.file .v1)).isSome ∧ attempts s < migrationAttemptThreshold ∧
    (∃ y, OpensFile pin s .v2 y) ∧ ∃ e left, next io = .failed e left

/-- No unlink is refused where there is no v1. -/
theorem not_unlinkRefused_of_v1 {pin : List UInt8} {io : List Answer} {s : Files KeyPath}
    (h : s.content (.file .v1) = none) : ¬UnlinkRefused pin io s := by
  rintro ⟨h1, -⟩
  rw [h] at h1
  cases h1

/-- No unlink is refused where there is no v2. -/
theorem not_unlinkRefused_of_v2 {pin : List UInt8} {io : List Answer} {s : Files KeyPath}
    (h : s.content (.file .v2) = none) : ¬UnlinkRefused pin io s := by
  rintro ⟨-, -, ⟨y, b, hb, -⟩, -⟩
  rw [h] at hb
  cases hb

/-- A boot that returns, in the terms of `Boot`. -/
theorem boot_returns (random : Random) (pin : List UInt8) {io : List Answer}
    (hio : ∀ a ∈ io, a.Powered) (s : Files KeyPath) : ∃ r s',
      Boot random pin io s s' (some r) ∧ bootUnlocks random pin io s = unlocked (some r) := by
  obtain ⟨r, io', s', hrun, hboot⟩ := migrateAndDecrypt_boot random pin io s
  obtain ⟨result, hresult⟩ := (migrateAndDecrypt_returns random pin).run hio s
  rw [hrun] at hresult
  cases hresult
  exact ⟨result, s', hboot, by rw [bootUnlocks, hrun]⟩

variable {pins : Set (List UInt8)} {p q original : List UInt8} {x : String}

/-! ## A legacy v1 -/

/-- What a boot returns of a card in custody. -/
theorem Boot.outcome (hlegacy : decryptWithFormat p original = .ok (x, .v1Legacy))
    (honly : OnlyOpens pins p x original) (hq : q ∈ pins) {random : Random} {io : List Answer}
    {s s' : Files KeyPath} (h : Custody pins p x original s)
    {r : Except FileStore.IoError DecryptOutcome} (hboot : Boot random q io s s' (some r)) :
    (∃ m, r = .ok ⟨x, m⟩) ∧ q = p ∧ ¬UnlinkRefused q io s ∨
      (∃ e, r = .error e) ∧ (q = p → UnlinkRefused q io s) := by
  have hopens := opens_of_format hlegacy
  cases hboot with
  | refused hrefused =>
    refine .inr ⟨⟨_, rfl⟩, ?_⟩
    rintro rfl
    cases hrefused with
    | noKeys h1 h2 =>
      rcases h.v1 with hv1 | ⟨-, b, hb, -⟩
      · rw [h1] at hv1
        cases hv1
      · rw [h2] at hb
        cases hb
    | v2 h1 h2 hno =>
      rcases h.v1 with hv1 | ⟨-, b, hb, hopen⟩
      · rw [h1] at hv1
        cases hv1
      · rw [h2] at hb
        cases hb
        exact absurd hopen (hno x)
    | v1 h1 _ hno =>
      rw [h.v1_eq h1] at hno
      exact absurd hopens (hno x)
    | misnamed h1 _ hopen =>
      rw [h.v1_eq h1, hlegacy] at hopen
      cases hopen
    | both h1 _ _ hno1 =>
      rw [h.v1_eq h1] at hno1
      exact absurd hopens (hno1 x)
  | steady h1 h2 hopen _ hr =>
    rcases hr with hr | hr <;> cases hr
    obtain ⟨rfl, rfl⟩ := h.v2 _ h2 q hq _ hopen
    exact .inl ⟨⟨_, rfl⟩, rfl, not_unlinkRefused_of_v1 h1⟩
  | disabled h1 hopen hcount =>
    rw [h.v1_eq h1] at hopen
    obtain ⟨rfl, rfl⟩ := honly q hq _ hopen
    exact .inl ⟨⟨_, rfl⟩, rfl, fun hrefused => absurd hcount (UInt32.not_le.2 hrefused.2.1)⟩
  | staging h1 h2 hopen _ _ _ _ hr =>
    rcases hr with hr | ⟨reason, hr⟩ <;> cases hr
    rw [h.v1_eq h1] at hopen
    obtain ⟨rfl, rfl⟩ := honly q hq _ (opens_of_format hopen)
    exact .inl ⟨⟨_, rfl⟩, rfl, not_unlinkRefused_of_v2 h2⟩
  | staged h1 h2 hopen =>
    rw [h.v1_eq h1] at hopen
    obtain ⟨rfl, rfl⟩ := honly q hq _ (opens_of_format hopen)
    exact .inl ⟨⟨_, rfl⟩, rfl, not_unlinkRefused_of_v2 h2⟩
  | notPromoted h1 h2 hopen hcount _ hr =>
    rcases hr with hr | ⟨e, left, hio, hr⟩ <;> cases hr
    exact .inr ⟨⟨_, rfl⟩, fun _ => ⟨h1, hcount, ⟨_, _, h2, hopen⟩, e, left, hio⟩⟩
  | promoted h1 h2 hopen hcount _ _ _ hr =>
    rcases hr with hr | ⟨e, left, hio, hr⟩ | ⟨hio, hr⟩ <;> cases hr
    · exact .inr ⟨⟨_, rfl⟩, fun _ => ⟨h1, hcount, ⟨_, _, h2, hopen⟩, e, left, hio⟩⟩
    · obtain ⟨rfl, rfl⟩ := h.v2 _ h2 q hq _ hopen
      refine .inl ⟨⟨_, rfl⟩, rfl, ?_⟩
      rintro ⟨-, -, -, e, left, hfailed⟩
      rw [hio] at hfailed
      cases hfailed
  | reverted h1 h2 _ hfail hopen _ _ hr =>
    rcases hr with hr | hr <;> cases hr
    rw [h.v1_eq h1] at hopen
    obtain ⟨rfl, rfl⟩ := honly q hq _ hopen
    refine .inl ⟨⟨_, rfl⟩, rfl, ?_⟩
    rintro ⟨-, -, ⟨y, b, hb, hy⟩, -⟩
    rw [h2] at hb
    cases hb
    rw [Opens, hfail] at hy
    cases hy

/-- **What a boot unlocks of a card in custody**: the keys, under the right PIN, unless the unlink
of v1 is refused. -/
theorem Custody.bootUnlocks_iff (hlegacy : decryptWithFormat p original = .ok (x, .v1Legacy))
    (honly : OnlyOpens pins p x original) (hq : q ∈ pins) {s : Files KeyPath}
    (h : Custody pins p x original s) (random : Random) {io : List Answer}
    (hio : ∀ a ∈ io, a.Powered) (y : String) :
    bootUnlocks random q io s = some y ↔ y = x ∧ q = p ∧ ¬UnlinkRefused q io s := by
  obtain ⟨r, s', hboot, hunlocks⟩ := boot_returns random q hio s
  rw [hunlocks]
  rcases hboot.outcome hlegacy honly hq h with ⟨⟨m, rfl⟩, hpin, hnot⟩ | ⟨⟨e, rfl⟩, hrefused⟩
  · constructor
    · intro hy
      exact ⟨(Option.some.inj hy).symm, hpin, hnot⟩
    · rintro ⟨rfl, -, -⟩
      rfl
  · constructor
    · intro hy
      cases hy
    · rintro ⟨-, hpin, hnot⟩
      exact absurd (hrefused hpin) hnot

/-- Only under the right PIN an unlink is refused. -/
theorem Custody.eq_of_unlinkRefused (hq : q ∈ pins) {s : Files KeyPath}
    (h : Custody pins p x original s) {io : List Answer} (hrefused : UnlinkRefused q io s) :
    q = p := by
  obtain ⟨-, -, ⟨y, b, hb, hopen⟩, -⟩ := hrefused
  exact (h.v2 b hb q hq y hopen).1

/-! ## A v1 that is no legacy blob -/

/-- Nothing was staged. -/
structure Unmigrated (original : List UInt8) (s : Files KeyPath) : Prop where
  v1 : s.content (.file .v1) = some original
  v2 : s.content (.file .v2) = none
  counter : s.content (.file .counter) = none

/-- Where no PIN opens v1 as a legacy blob, a boot returns an error and leaves it so. -/
theorem Unmigrated.boot (hnot : ∀ y, decryptWithFormat q original ≠ .ok (y, .v1Legacy))
    {random : Random} {io : List Answer} {s s' : Files KeyPath} (h : Unmigrated original s)
    {r : Option (Except FileStore.IoError DecryptOutcome)} (hboot : Boot random q io s s' r) :
    Unmigrated original s' ∧ ∃ e, r = some (.error e) := by
  have hnov2 : ∀ {b}, s.content (.file .v2) = some b → False := by
    intro b hb
    rw [h.v2] at hb
    cases hb
  have hv1 : ∀ {b}, s.content (.file .v1) = some b → b = original := by
    intro b hb
    rw [h.v1] at hb
    exact (Option.some.inj hb).symm
  cases hboot with
  | refused _ hkept =>
    have hcontent := hkept.content_eq
    exact ⟨⟨by rw [hcontent, h.v1], by rw [hcontent, h.v2], by rw [hcontent, h.counter]⟩, _, rfl⟩
  | steady h1 =>
    rw [h.v1] at h1
    cases h1
  | disabled _ _ hcount =>
    rw [attempts, h.counter] at hcount
    exact absurd hcount (by decide)
  | staging h1 _ hopen =>
    rw [hv1 h1] at hopen
    exact absurd hopen (hnot _)
  | staged h1 _ hopen =>
    rw [hv1 h1] at hopen
    exact absurd hopen (hnot _)
  | notPromoted _ h2 => exact (hnov2 h2).elim
  | promoted _ h2 => exact (hnov2 h2).elim
  | reverted _ h2 => exact (hnov2 h2).elim

/-- An action leaves it so. -/
theorem step_unmigrated
    (hnot : ∀ q ∈ pins, ∀ y, decryptWithFormat q original ≠ .ok (y, .v1Legacy))
    (s : Files KeyPath) (a : Action) (s' : Files KeyPath) (h : Unmigrated original s)
    (ha : a.Honest pins p x) (hstep : step s a = some s') : Unmigrated original s' := by
  cases a with
  | boot random q io =>
    obtain ⟨r, io', t, hrun, hboot⟩ := migrateAndDecrypt_boot random q io s
    cases hstep
    rw [hrun]
    exact (h.boot (hnot q ha) hboot).1
  | corrupt content =>
    simp only [step, h.v2, Option.isSome_none, Bool.false_eq_true, and_false, if_false] at hstep
    cases hstep

/-! ## A v2 alone -/

/-- The card has a v2 only. -/
structure V2Only (blob : List UInt8) (s : Files KeyPath) : Prop where
  v1 : s.content (.file .v1) = none
  v2 : s.content (.file .v2) = some blob

/-- A boot unlocks what the PIN opens, and leaves both files. -/
theorem V2Only.boot {blob : List UInt8} {random : Random} {io : List Answer}
    {s s' : Files KeyPath} (h : V2Only blob s)
    {r : Option (Except FileStore.IoError DecryptOutcome)}
    (hboot : Boot random q io s s' r) :
    V2Only blob s' ∧ (r ≠ none → ∀ y, unlocked r = some y ↔ Opens q blob y) := by
  have hno1 : ∀ {b}, s.content (.file .v1) = some b → False := by
    intro b hb
    rw [h.v1] at hb
    cases hb
  have hno1' : (s.content (.file .v1)).isSome → False := by
    rw [h.v1]
    exact Bool.false_ne_true
  have hv2 : ∀ {b}, s.content (.file .v2) = some b → b = blob := by
    intro b hb
    rw [h.v2] at hb
    exact (Option.some.inj hb).symm
  cases hboot with
  | refused hrefused hkept =>
    have hcontent := hkept.content_eq
    refine ⟨⟨by rw [hcontent, h.v1], by rw [hcontent, h.v2]⟩, fun _ y => ?_⟩
    have hno : ¬Opens q blob y := by
      cases hrefused with
      | noKeys _ h2 =>
        rw [h.v2] at h2
        cases h2
      | v2 _ h2 hno =>
        rw [hv2 h2] at hno
        exact hno y
      | v1 h1 => exact (hno1 h1).elim
      | misnamed h1 => exact (hno1 h1).elim
      | both h1 => exact (hno1 h1).elim
    constructor
    · intro hy
      cases hy
    · intro hy
      exact absurd hy hno
  | steady _ h2 hopen hkept hr =>
    have hv1' : s'.content (.file .v1) = none := by rw [hkept.content _ (by simp), h.v1]
    have hv2' : s'.content (.file .v2) = some blob := by rw [hkept.content _ (by simp), h.v2]
    refine ⟨⟨hv1', hv2'⟩, fun hr' y => ?_⟩
    rcases hr with rfl | rfl
    · exact absurd rfl hr'
    · rw [hv2 h2] at hopen
      constructor
      · intro hy
        rw [← Option.some.inj hy]
        exact hopen
      · intro hy
        rw [Opens.unique hy hopen]
        rfl
  | disabled h1 => exact (hno1 h1).elim
  | staging h1 => exact (hno1 h1).elim
  | staged h1 => exact (hno1 h1).elim
  | notPromoted h1 => exact (hno1' h1).elim
  | promoted h1 => exact (hno1' h1).elim
  | reverted h1 => exact (hno1 h1).elim

/-- An action leaves it so. -/
theorem step_v2Only {blob : List UInt8} (s : Files KeyPath) (a : Action) (s' : Files KeyPath)
    (h : V2Only blob s) (hstep : step s a = some s') : V2Only blob s' := by
  cases a with
  | boot random q io =>
    obtain ⟨r, io', t, hrun, hboot⟩ := migrateAndDecrypt_boot random q io s
    cases hstep
    rw [hrun]
    exact (h.boot hboot).1
  | corrupt content =>
    simp only [step, h.v1, Option.isSome_none, Bool.false_eq_true, false_and, if_false] at hstep
    cases hstep

/-! ## Both cards -/

/-- The two runs of a card with one key file and of its copy, by the files that the source has at
the copy. -/
theorem bootUnlocks_eq_iff (hauth : Authenticated pins) (hp : p ∈ pins) {blob : List UInt8}
    (honly : OnlyOpens pins p x blob) {start s copy t : Files KeyPath}
    (hstart : start = keyFiles (some blob) none none ∨ start = keyFiles none (some blob) none)
    {before after : List Action} (hbefore : ∀ a ∈ before, a.Honest pins p x)
    (hsource : Automaton.run step start before = some s)
    (hv1 : copy.content (.file .v1) = s.content (.file .v1))
    (hv2 : copy.content (.file .v2) = s.content (.file .v2))
    (hcounter : copy.content (.file .counter) = none) (htrace : copy.trace = [])
    (hafter : ∀ a ∈ after, a.Honest pins p x)
    (hcopy : Automaton.run step copy after = some t) (hq : q ∈ pins) (random random' : Random)
    {io io' : List Answer} (hio : ∀ a ∈ io, a.Powered) (hio' : ∀ a ∈ io', a.Powered) :
    bootUnlocks random q io t = bootUnlocks random' q io' s ↔
      (UnlinkRefused q io t ↔ UnlinkRefused q io' s) := by
  have halong : Automaton.Along step (fun _ a => a.Honest pins p x) start before :=
    Automaton.along_of_forall start hbefore
  have halong' : Automaton.Along step (fun _ a => a.Honest pins p x) copy after :=
    Automaton.along_of_forall copy hafter
  rcases hstart with rfl | rfl
  · by_cases hlegacy : decryptWithFormat p blob = .ok (x, .v1Legacy)
    · have hkeep := step_custody hauth hp (opens_of_format hlegacy) honly
      have hs : Custody pins p x blob s := by
        refine Automaton.run_invariant hkeep ⟨.inl rfl, ?_, ?_⟩ halong hsource
        · intro b hb
          cases hb
        · trivial
      have ht : Custody pins p x blob t := by
        refine Automaton.run_invariant hkeep ⟨?_, ?_, ?_⟩ halong' hcopy
        · rw [OpensFile, hv1, hv2]
          exact hs.v1
        · rw [hv2]
          exact hs.v2
        · rw [htrace]
          trivial
      have hiff := ht.bootUnlocks_iff hlegacy honly hq random hio
      have hiff' := hs.bootUnlocks_iff hlegacy honly hq random' hio'
      constructor
      · intro heq
        rw [heq] at hiff
        constructor
        · intro hrefused
          by_contra hnot
          have hpin := ht.eq_of_unlinkRefused hq hrefused
          exact ((hiff x).1 ((hiff' x).2 ⟨rfl, hpin, hnot⟩)).2.2 hrefused
        · intro hrefused
          by_contra hnot
          have hpin := hs.eq_of_unlinkRefused hq hrefused
          exact ((hiff' x).1 ((hiff x).2 ⟨rfl, hpin, hnot⟩)).2.2 hrefused
      · intro hsame
        refine Option.ext fun y => ?_
        rw [hiff y, hiff' y, hsame]
    · have hnot : ∀ q ∈ pins, ∀ y, decryptWithFormat q blob ≠ .ok (y, .v1Legacy) := by
        intro q' hq' y hopen
        obtain ⟨rfl, rfl⟩ := honly q' hq' y (opens_of_format hopen)
        exact hlegacy hopen
      have hs : Unmigrated blob s :=
        Automaton.run_invariant (step_unmigrated hnot) ⟨rfl, rfl, rfl⟩ halong hsource
      have ht : Unmigrated blob t :=
        Automaton.run_invariant (step_unmigrated hnot)
          ⟨hv1.trans hs.v1, hv2.trans hs.v2, hcounter⟩ halong' hcopy
      obtain ⟨r, s', hboot, hunlocks⟩ := boot_returns random' q hio' s
      obtain ⟨r', t', hboot', hunlocks'⟩ := boot_returns random q hio t
      obtain ⟨-, e, he⟩ := hs.boot (hnot q hq) hboot
      obtain ⟨-, e', he'⟩ := ht.boot (hnot q hq) hboot'
      rw [hunlocks, hunlocks', he, he']
      exact iff_of_true rfl (iff_of_false (not_unlinkRefused_of_v2 ht.v2)
        (not_unlinkRefused_of_v2 hs.v2))
  · have hkeep : ∀ s (a : Action) s', V2Only blob s → a.Honest pins p x →
        step s a = some s' → V2Only blob s' := fun s a s' h _ hstep => step_v2Only s a s' h hstep
    have hs : V2Only blob s := Automaton.run_invariant hkeep ⟨rfl, rfl⟩ halong hsource
    have ht : V2Only blob t :=
      Automaton.run_invariant hkeep ⟨hv1.trans hs.v1, hv2.trans hs.v2⟩ halong' hcopy
    obtain ⟨r, s', hboot, hunlocks⟩ := boot_returns random' q hio' s
    obtain ⟨r', t', hboot', hunlocks'⟩ := boot_returns random q hio t
    have hopens := (hs.boot hboot).2 (Option.some_ne_none r)
    have hopens' := (ht.boot hboot').2 (Option.some_ne_none r')
    refine iff_of_true (Option.ext fun y => ?_) (iff_of_false (not_unlinkRefused_of_v1 ht.v1)
      (not_unlinkRefused_of_v1 hs.v1))
    rw [hunlocks, hunlocks', hopens, hopens']

end

end Russignol.TezosEncrypt

namespace Russignol.Host

open CrashProgram FileStore TezosEncrypt Crypto

/-- The device with the new card in it. -/
def newCard (target : KeysDir) (files : Files KeyPath) (config : Bool) : Russignol.CardState where
  keysPart := true
  dataPart := true
  marker := (target.read ".setup_complete").isSome
  files := files
  config := config

/-- **A restored card unlocks like its source.** Whatever a run left of a card that had a v1 or a
v2 only, and whatever boots the new card has behind it: a boot gives on the new card what it would
give on the source, under every PIN tried, exactly when the medium refuses on both or on neither
the unlink of v1 under a v2 that opens. And the new card is past its first boot. -/
theorem restored_unlocks_iff [BlobCrypto] [JsonText] {pins : Set (List UInt8)} {p : List UInt8}
    {x : String} (hauth : Authenticated pins) (hp : p ∈ pins) {blob : List UInt8}
    (honly : OnlyOpens pins p x blob) {start s : Files KeyPath}
    (hstart : start = keyFiles (some blob) none none ∨ start = keyFiles none (some blob) none)
    {before : List TezosEncrypt.Action} (hbefore : ∀ a ∈ before, a.Honest pins p x)
    (hsource : Automaton.run TezosEncrypt.step start before = some s)
    {card : SourceCard} {keys : KeysDir} (hkeys : card.keys = some keys)
    (hcontent : keys.keyFiles.content = s.content) {p3Path : String} {cardId : Option String}
    {backup : SourceBackup} (hread : readSourceCard p3Path cardId card = .ok backup)
    {copyIo : CopyIo} {chain : ChainInfo} {target : KeysDir}
    (hwrite : writeBackupToTarget copyIo .empty backup chain = .ok target)
    {after : List TezosEncrypt.Action} (hafter : ∀ a ∈ after, a.Honest pins p x)
    {t : Files KeyPath} (hrun : Automaton.run TezosEncrypt.step target.keyFiles after = some t)
    {q : List UInt8} (hq : q ∈ pins) (random random' : Random) {io io' : List Answer}
    (hio : ∀ a ∈ io, a.Powered) (hio' : ∀ a ∈ io', a.Powered) :
    (bootUnlocks random q io t = bootUnlocks random' q io' s ↔
      (UnlinkRefused q io t ↔ UnlinkRefused q io' s)) ∧
    ∀ config (bootIo : BootIo), bootIo.mounts = true →
      (newCard target t config).isFirstBoot
        ((newCard target t config).init bootIo).keysMounted = false := by
  obtain ⟨keys', hkeys', hfiles, hmarker⟩ := copied_files hread hwrite
  rw [hkeys] at hkeys'
  cases hkeys'
  have hv1 : target.keyFiles.content (.file .v1) = s.content (.file .v1) := by
    rw [hfiles, if_pos (by decide +kernel), hcontent]
  have hv2 : target.keyFiles.content (.file .v2) = s.content (.file .v2) := by
    rw [hfiles, if_pos (by decide +kernel), hcontent]
  have hcounter : target.keyFiles.content (.file .counter) = none := by
    rw [hfiles, if_neg (by decide +kernel)]
  refine ⟨bootUnlocks_eq_iff hauth hp honly hstart hbefore hsource hv1 hv2 hcounter rfl hafter
    hrun hq random random' hio hio', fun config bootIo hmounts => ?_⟩
  have hmounted : ((newCard target t config).init bootIo).keysMounted = true := by
    simp only [CardState.init, CardState.initKeysPartition, newCard, hmarker, hmounts, if_true,
      Bool.not_true, Bool.false_eq_true, if_false]
    split
    · rfl
    · split
      · rfl
      · rfl
  rw [hmounted]
  simp [CardState.isFirstBoot, newCard, hmarker]

section

attribute [local instance] plainCrypto plainJson

/-- Three times a staged v2 rots and is reverted; the fourth is there, with the attempts used up. -/
def usedUpRun : List TezosEncrypt.Action :=
  (List.replicate 3 [.boot plainRandom rightPin [], .corrupt (some [0]),
    .boot plainRandom rightPin []]).flatten ++ [.boot plainRandom rightPin []]

/-- The keys partition after it. -/
def usedUpKeys : KeysDir where
  entries := [("public_key_hashs", []), ("public_keys", []), (".migration_attempts", asBytes "4"),
    ("secret_keys.enc", plainV1 rightPin "keys"), ("secret_keys.enc.v2", plainV2 rightPin "keys")]
  distinct := by decide

theorem usedUpRun_honest : ∀ a ∈ usedUpRun, a.Honest triedPins rightPin "keys" := by
  have hrot : (TezosEncrypt.Action.corrupt (some [0])).Honest triedPins rightPin "keys" := by
    intro b hb q _ y hy
    cases hb
    cases hy
  have hboot : (TezosEncrypt.Action.boot plainRandom rightPin []).Honest triedPins rightPin
      "keys" := .inl rfl
  intro a ha
  rcases List.mem_append.1 ha with ha | ha
  · obtain ⟨cycle, hcycle, ha⟩ := List.mem_flatten.1 ha
    rw [List.eq_of_mem_replicate hcycle] at ha
    rcases List.mem_cons.1 ha with rfl | ha
    · exact hboot
    rcases List.mem_cons.1 ha with rfl | ha
    · exact hrot
    · rw [List.mem_singleton.1 ha]
      exact hboot
  · rw [List.mem_singleton.1 ha]
    exact hboot

theorem noBoots_honest : ∀ a ∈ ([] : List TezosEncrypt.Action),
    a.Honest triedPins rightPin "keys" :=
  fun _ ha => absurd ha List.not_mem_nil

/-- Its files are those of the partition. -/
theorem usedUpRun_files : ∃ s,
    Automaton.run TezosEncrypt.step (keyFiles (some (plainV1 rightPin "keys")) none none)
      usedUpRun = some s ∧
      usedUpKeys.keyFiles.content = s.content := by
  have hfiles : (Automaton.run TezosEncrypt.step
      (keyFiles (some (plainV1 rightPin "keys")) none none) usedUpRun).map (fun s =>
        [KeyFile.v1, .v2, .counter].map fun f => (s.content (.file f), s.content (.tmp f))) =
      some [(some (plainV1 rightPin "keys"), none), (some (plainV2 rightPin "keys"), none),
        (some (asBytes "4"), none)] := by decide +kernel
  obtain ⟨s, hrun, hs⟩ := Option.map_eq_some_iff.1 hfiles
  refine ⟨s, hrun, funext fun path => ?_⟩
  simp only [List.map_cons, List.map_nil, List.cons.injEq, Prod.mk.injEq, and_true] at hs
  obtain ⟨⟨h1, h1'⟩, ⟨h2, h2'⟩, h3, h3'⟩ := hs
  rcases path with (_ | _ | _) | (_ | _ | _)
  · exact h1.symm
  · exact h2.symm
  · exact h3.symm
  · exact h1'.symm
  · exact h2'.symm
  · exact h3'.symm

/-- The card is read. -/
theorem usedUpKeys_read : ∃ backup,
    readSourceCard "/dev/sdb3" none ⟨some usedUpKeys, none, none⟩ = .ok backup := by
  have hread : (readSourceCard "/dev/sdb3" none
      ⟨some usedUpKeys, none, none⟩).toOption.isSome = true := by decide +kernel
  cases h : readSourceCard "/dev/sdb3" none ⟨some usedUpKeys, none, none⟩ with
  | error e =>
    rw [h] at hread
    cases hread
  | ok backup => exact ⟨backup, rfl⟩

/-- The new card's first boot under the right PIN gives what the source would have given. -/
theorem restored_unlocks_iff_usedUp : ∃ s target,
    Automaton.run TezosEncrypt.step (keyFiles (some (plainV1 rightPin "keys")) none none)
      usedUpRun = some s ∧
      bootUnlocks plainRandom rightPin [] target = bootUnlocks plainRandom rightPin [] s := by
  obtain ⟨s, hrun, hfiles⟩ := usedUpRun_files
  obtain ⟨backup, hread⟩ := usedUpKeys_read
  obtain ⟨target, hwrite⟩ := writeBackupToTarget_quiet .empty backup (mainnetChain 1)
  have hok : ∀ files, ¬UnlinkRefused rightPin [] files := by
    rintro files ⟨-, -, -, e, left, hfailed⟩
    cases hfailed
  have hpowered : ∀ a ∈ ([] : List Answer), a.Powered := fun a ha => absurd ha List.not_mem_nil
  have hiff := restored_unlocks_iff triedPins_authenticated (.inl rfl) original_onlyOpens
    (.inl rfl) usedUpRun_honest hrun rfl hfiles hread hwrite noBoots_honest rfl
    (q := rightPin) (.inl rfl) plainRandom plainRandom hpowered hpowered
  exact ⟨s, target.keyFiles, hrun, hiff.1.2 (iff_of_false (hok _) (hok _))⟩

/-- **The right PIN is refused on the new card alone**: the medium does not unlink v1, and the
source, whose attempts are used up, would not have tried. -/
theorem restored_card_refuses : ¬∀ [BlobCrypto] [JsonText] (pins : Set (List UInt8))
    (p : List UInt8) (x : String) (blob : List UInt8) (s : Files KeyPath)
    (before : List TezosEncrypt.Action) (card : SourceCard) (keys : KeysDir) (p3Path : String)
    (cardId : Option String) (backup : SourceBackup) (copyIo : CopyIo) (chain : ChainInfo)
    (target : KeysDir) (random : Random) (q : List UInt8) (io : List Answer),
    Authenticated pins → p ∈ pins → OnlyOpens pins p x blob →
    (∀ a ∈ before, a.Honest pins p x) →
    Automaton.run TezosEncrypt.step (keyFiles (some blob) none none) before = some s →
    card.keys = some keys → keys.keyFiles.content = s.content →
    readSourceCard p3Path cardId card = .ok backup →
    writeBackupToTarget copyIo .empty backup chain = .ok target → q ∈ pins →
    (∀ a ∈ io, a.Powered) →
      bootUnlocks random q io target.keyFiles = bootUnlocks random q io s := by
  intro hall
  obtain ⟨s, hrun, hfiles⟩ := usedUpRun_files
  obtain ⟨backup, hread⟩ := usedUpKeys_read
  obtain ⟨target, hwrite⟩ := writeBackupToTarget_quiet .empty backup (mainnetChain 1)
  obtain ⟨io, hio⟩ : ∃ io : List Answer, io = [.failed ioError ⟨none, false⟩] := ⟨_, rfl⟩
  have hpowered : ∀ a ∈ io, a.Powered := by
    rw [hio]
    decide
  obtain ⟨keys, hkeys, hcopied, -⟩ := copied_files hread hwrite
  cases hkeys
  have hv1 : target.keyFiles.content (.file .v1) = some (plainV1 rightPin "keys") := by
    rw [hcopied, if_pos (by decide +kernel)]
    decide +kernel
  have hv2 : target.keyFiles.content (.file .v2) = some (plainV2 rightPin "keys") := by
    rw [hcopied, if_pos (by decide +kernel)]
    decide +kernel
  have hcounter : target.keyFiles.content (.file .counter) = none := by
    rw [hcopied, if_neg (by decide +kernel)]
  have heq := hall triedPins rightPin "keys" (plainV1 rightPin "keys") s usedUpRun _ _ _ _ backup
    _ _ target plainRandom rightPin io triedPins_authenticated (.inl rfl) original_onlyOpens
    usedUpRun_honest hrun rfl hfiles hread hwrite (.inl rfl) hpowered
  have hrefused : UnlinkRefused rightPin io target.keyFiles := by
    refine ⟨?_, ?_, ⟨"keys", plainV2 rightPin "keys", hv2, by decide +kernel⟩, ioError,
      ⟨none, false⟩, ?_⟩
    · rw [hv1]
      rfl
    · rw [attempts, hcounter]
      decide
    · rw [hio]
      rfl
  have hspared : ¬UnlinkRefused rightPin io s := by
    rintro ⟨-, hcount, -⟩
    rw [← attempts_congr hfiles] at hcount
    exact absurd hcount (by decide +kernel)
  have hiff := bootUnlocks_eq_iff triedPins_authenticated (.inl rfl) original_onlyOpens
    (.inl rfl) usedUpRun_honest hrun (hv1.trans ?_) (hv2.trans ?_) hcounter rfl noBoots_honest
    rfl (q := rightPin) (.inl rfl) plainRandom plainRandom hpowered hpowered
  · exact hspared ((hiff.1 heq).1 hrefused)
  · rw [← hfiles]
    decide +kernel
  · rw [← hfiles]
    decide +kernel

end

end Russignol.Host
