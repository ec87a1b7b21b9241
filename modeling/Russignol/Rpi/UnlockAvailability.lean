import Russignol.Rpi.TezosEncrypt

/-!
# Unlocking with the right PIN

When does a boot whose PIN opens a key file, in the format the file's name says, unlock? `Unlocks`
is the exact condition while power is there (`migrateAndDecrypt_ok_iff`). It fails in two kinds of
states with both files: the attempts are used up and v1 does not open, or v2 opens and v1 cannot be
unlinked; the boot then returns an error, which the caller counts as a wrong PIN.
-/

namespace Russignol.TezosEncrypt

open CrashProgram FileStore Crypto

section
variable [BlobCrypto]

/-- The PIN opens a key file in the format its name says. -/
def WellNamed (pin : List UInt8) (s : Files KeyPath) (y : String) : Prop :=
  (∃ b, s.content (.file .v1) = some b ∧ decryptWithFormat pin b = .ok (y, .v1Legacy)) ∨
    ∃ b, s.content (.file .v2) = some b ∧ decryptWithFormat pin b = .ok (y, .v2)

/-- The states, and the answers to the unlink of v1, in which a boot with a right PIN unlocks. -/
def Unlocks (pin : List UInt8) (io : List Answer) (s : Files KeyPath) : Prop :=
  s.content (.file .v1) = none ∨ s.content (.file .v2) = none ∨
    (migrationAttemptThreshold ≤ attempts s ∧ ∃ y, OpensFile pin s .v1 y ∧ WellNamed pin s y) ∨
    attempts s < migrationAttemptThreshold ∧
      ((∀ y, ¬OpensFile pin s .v2 y) ∨
        (∃ y, OpensFile pin s .v2 y ∧ WellNamed pin s y) ∧ ∀ e left, next io ≠ .failed e left)

/-- What a well-named file gives. -/
theorem WellNamed.opens {pin : List UInt8} {s : Files KeyPath} {y : String}
    (h : WellNamed pin s y) : OpensFile pin s .v1 y ∨ OpensFile pin s .v2 y := by
  rcases h with ⟨b, hb, hdec⟩ | ⟨b, hb, hdec⟩
  · exact .inl ⟨b, hb, opens_of_format hdec⟩
  · exact .inr ⟨b, hb, opens_of_format hdec⟩

/-- A PIN that a boot refuses opens no well-named file, unless the attempts are used up and v1 does
not open. -/
theorem Refused.not_unlocks {pin : List UInt8} {io : List Answer} {s : Files KeyPath}
    (h : Refused pin s) {y : String} (hy : WellNamed pin s y) : ¬Unlocks pin io s := by
  have hopens := hy.opens
  cases h with
  | noKeys h1 h2 => rcases hopens with ⟨b, hb, -⟩ | ⟨b, hb, -⟩ <;> simp [h1, h2] at hb
  | v2 h1 h2 hno =>
    rcases hopens with ⟨b, hb, -⟩ | hopen
    · simp [h1] at hb
    · obtain ⟨b, hb, hopen⟩ := hopen
      rw [h2] at hb
      cases hb
      exact absurd hopen (hno y)
  | v1 h1 h2 hno =>
    have hno1 : ∀ z, ¬OpensFile pin s .v1 z := by
      rintro z ⟨b, hb, hopen⟩
      rw [h1] at hb
      cases hb
      exact hno z hopen
    have hopen2 := hopens.resolve_left (hno1 y)
    obtain ⟨b2, hb2, -⟩ := hopen2
    have hcount := h2.resolve_left (by simp [hb2])
    rintro (hnone | hnone | ⟨-, z, hz, -⟩ | ⟨hlt, -⟩)
    · simp [h1] at hnone
    · simp [hb2] at hnone
    · exact hno1 z hz
    · exact absurd hcount (UInt32.not_le.2 hlt)
  | misnamed h1 h2 hopen =>
    rcases hy with ⟨b, hb, hdec⟩ | ⟨b, hb, -⟩
    · rw [h1] at hb
      cases hb
      rw [hopen] at hdec
      cases hdec
    · simp [h2] at hb
  | both h1 h2 hcount hno1 hno2 =>
    rcases hopens with ⟨b, hb, hopen⟩ | ⟨b, hb, hopen⟩
    · rw [h1] at hb
      cases hb
      exact absurd hopen (hno1 y)
    · rw [h2] at hb
      cases hb
      exact absurd hopen (hno2 y)

/-- A boot that unlocks does so in a state, and under an answer, of `Unlocks`. -/
theorem Boot.unlocks {random : Random} {pin : List UInt8} {io : List Answer}
    {s s' : Files KeyPath} {o : DecryptOutcome}
    (h : Boot random pin io s s' (some (.ok o))) (ho : WellNamed pin s o.plaintext) :
    Unlocks pin io s := by
  cases h with
  | steady h1 => exact .inl h1
  | staging _ h2 => exact .inr (.inl h2)
  | staged _ h2 => exact .inr (.inl h2)
  | disabled h1 hopen hcount => exact .inr (.inr (.inl ⟨hcount, _, ⟨_, h1, hopen⟩, ho⟩))
  | notPromoted _ _ _ _ _ hr =>
    rcases hr with hr | ⟨e, left, -, hr⟩ <;> cases hr
  | promoted _ h2 hopen hcount _ _ _ hr =>
    rcases hr with hr | ⟨e, left, -, hr⟩ | ⟨hio, hr⟩ <;> cases hr
    exact .inr (.inr (.inr ⟨hcount, .inr ⟨⟨_, ⟨_, h2, hopen⟩, ho⟩, by simp [hio]⟩⟩))
  | reverted _ h2 hcount hfail =>
    refine .inr (.inr (.inr ⟨hcount, .inl ?_⟩))
    rintro y ⟨b, hb, hopen⟩
    rw [h2] at hb
    cases hb
    rw [Opens, hfail] at hopen
    cases hopen

/-- In a state, and under an answer, of `Unlocks` a boot that returns unlocks. -/
theorem Unlocks.boot {random : Random} {pin : List UInt8} {io : List Answer}
    {s s' : Files KeyPath} {r : Except IoError DecryptOutcome} {y : String}
    (h : Unlocks pin io s) (hy : WellNamed pin s y) (hboot : Boot random pin io s s' (some r)) :
    ∃ o, r = .ok o ∧ WellNamed pin s o.plaintext := by
  have hopens := hy.opens
  cases hboot with
  | refused hrefused => exact absurd h (hrefused.not_unlocks hy)
  | steady h1 h2 hopen _ hr =>
    rcases hr with hr | hr <;> cases hr
    have hv2 := hopens.resolve_left (by rintro ⟨b, hb, -⟩; simp [h1] at hb)
    exact ⟨_, rfl, by rwa [← hv2.eq_of_content h2 hopen]⟩
  | staging h1 h2 hopen _ _ _ _ hr =>
    rcases hr with hr | ⟨reason, hr⟩ <;> cases hr
    exact ⟨_, rfl, .inl ⟨_, h1, hopen⟩⟩
  | staged h1 h2 hopen => exact ⟨_, rfl, .inl ⟨_, h1, hopen⟩⟩
  | disabled h1 hopen hcount =>
    refine ⟨_, rfl, ?_⟩
    rcases h with hnone | hnone | ⟨-, z, hz, hnamed⟩ | ⟨hlt, -⟩
    · simp [h1] at hnone
    · have hv1 := hopens.resolve_right (by rintro ⟨b, hb, -⟩; simp [hnone] at hb)
      rwa [← hv1.eq_of_content h1 hopen]
    · rwa [← hz.eq_of_content h1 hopen]
    · exact absurd hcount (UInt32.not_le.2 hlt)
  | notPromoted h1 h2 hopen hcount _ hr =>
    rcases hr with hr | ⟨e, left, hio, hr⟩ <;> cases hr
    rcases h with hnone | hnone | ⟨hle, -⟩ | ⟨-, hno | ⟨-, hio'⟩⟩
    · simp [hnone] at h1
    · simp [h2] at hnone
    · exact absurd hle (UInt32.not_le.2 hcount)
    · exact absurd ⟨_, h2, hopen⟩ (hno _)
    · exact absurd hio (hio' e left)
  | promoted h1 h2 hopen hcount _ _ _ hr =>
    rcases h with hnone | hnone | ⟨hle, -⟩ | ⟨-, hno | ⟨⟨z, hz, hnamed⟩, hio'⟩⟩
    · simp [hnone] at h1
    · simp [h2] at hnone
    · exact absurd hle (UInt32.not_le.2 hcount)
    · exact absurd ⟨_, h2, hopen⟩ (hno _)
    · rcases hr with hr | ⟨e, left, hio, hr⟩ | ⟨-, hr⟩ <;> cases hr
      · exact absurd hio (hio' e left)
      · exact ⟨_, rfl, by rwa [← hz.eq_of_content h2 hopen]⟩
  | reverted h1 h2 hcount hfail hopen _ _ hr =>
    rcases hr with hr | hr <;> cases hr
    have hv1 := hopens.resolve_right (by
      rintro ⟨b, hb, hopen2⟩
      rw [h2] at hb
      cases hb
      rw [Opens, hfail] at hopen2
      cases hopen2)
    exact ⟨_, rfl, by rwa [← hv1.eq_of_content h1 hopen]⟩

/-- **Exactly when a right PIN unlocks.** -/
theorem migrateAndDecrypt_ok_iff (random : Random) (pin : List UInt8) (io : List Answer)
    (s : Files KeyPath) (hio : ∀ a ∈ io, a.Powered) (hright : ∃ y, WellNamed pin s y) :
    (∃ o, ((migrateAndDecrypt random pin).run io s).1 = some (.ok o) ∧
      WellNamed pin s o.plaintext) ↔ Unlocks pin io s := by
  obtain ⟨y, hy⟩ := hright
  obtain ⟨r, io', s', hrun, hboot⟩ := migrateAndDecrypt_boot random pin io s
  obtain ⟨result, hresult⟩ := (migrateAndDecrypt_returns random pin).run hio s
  rw [hrun] at hresult ⊢
  cases hresult
  constructor
  · rintro ⟨o, ho, hnamed⟩
    cases ho
    exact hboot.unlocks hnamed
  · intro hunlocks
    obtain ⟨o, rfl, ho⟩ := hunlocks.boot hy hboot
    exact ⟨o, rfl, ho⟩

end

attribute [local instance] plainCrypto

/-- A PIN to evaluate with. -/
def testPin : List UInt8 := asBytes "123456"

/-- Both files, each opening to the same keys. -/
def bothFiles : Files KeyPath :=
  keyFiles (some (plainV1 testPin "keys")) (some (plainV2 testPin "keys")) none

/-- The error of a failing disk. -/
def ioError : IoError := ⟨.other, "Input/output error (os error 5)"⟩

/-- The test PIN opens both files. -/
theorem bothFiles_wellNamed : WellNamed testPin bothFiles "keys" :=
  .inl ⟨plainV1 testPin "keys", rfl, by decide +kernel⟩

/-- The promotion unlocks when v1 can be unlinked and the counter cannot. -/
theorem migrateAndDecrypt_ok_iff_bothFiles :
    (∃ o, ((migrateAndDecrypt plainRandom testPin).run [.ok, .failed ioError ⟨none, false⟩]
        bothFiles).1 = some (.ok o) ∧ WellNamed testPin bothFiles o.plaintext) ∧
      Unlocks testPin [.ok, .failed ioError ⟨none, false⟩] bothFiles := by
  have hio : ∀ a ∈ [Answer.ok, .failed ioError ⟨none, false⟩], a.Powered := by decide
  have hunlocks : Unlocks testPin [.ok, .failed ioError ⟨none, false⟩] bothFiles := by
    refine .inr (.inr (.inr ⟨by decide, .inr ⟨⟨"keys", ⟨plainV2 testPin "keys", rfl, ?_⟩,
      bothFiles_wellNamed⟩, by simp [next]⟩⟩))
    decide +kernel
  exact ⟨(migrateAndDecrypt_ok_iff plainRandom testPin _ bothFiles hio
    ⟨"keys", bothFiles_wellNamed⟩).2 hunlocks, hunlocks⟩

/-- **A right PIN is refused**: both files open, and v1 cannot be unlinked. -/
theorem right_pin_refused : ¬∀ [BlobCrypto] (random : Random) (pin : List UInt8)
    (io : List Answer) (s : Files KeyPath), (∀ a ∈ io, a.Powered) → (∃ y, WellNamed pin s y) →
    ∃ o, ((migrateAndDecrypt random pin).run io s).1 = some (.ok o) ∧
      WellNamed pin s o.plaintext := by
  intro h
  have hio : ∀ a ∈ [Answer.failed ioError ⟨none, false⟩], a.Powered := by decide
  have hrefused : ((migrateAndDecrypt plainRandom testPin).run
      [.failed ioError ⟨none, false⟩] bothFiles).1 = some (.error ioError) := by decide +kernel
  obtain ⟨o, ho, -⟩ := h plainRandom testPin _ bothFiles hio ⟨"keys", bothFiles_wellNamed⟩
  rw [hrefused] at ho
  cases ho

end Russignol.TezosEncrypt
