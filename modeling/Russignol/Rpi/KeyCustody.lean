import Russignol.Base.Automaton
import Russignol.Rpi.TezosEncrypt

/-!
# The migration keeps the keys

Runs of boots with right and wrong PINs, which may lose power or fail in any operation, and in
which a v2 file may rot while v1 is there. `Custody` is the invariant: v1 is as it was, or v2 has
taken over; and whatever v2 holds opens under the right PIN only, and to the right keys, if it opens
at all. A stale v2 of other keys is therefore the one thing the run may not start from
(`stale_v2_takes_over`).
-/

namespace Russignol.TezosEncrypt

open CrashProgram FileStore Crypto

/-- What happens to the keys partition. -/
inductive Action
  | boot (random : Random) (pin : List UInt8) (io : List Answer)
  | corrupt (content : Option (List UInt8))

section
variable [BlobCrypto]

/-- One action. A v2 file rots only while it is not verified, so while v1 is there. -/
def step (s : Files KeyPath) : Action → Option (Files KeyPath)
  | .boot random pin io => some ((migrateAndDecrypt random pin).run io s).2.2
  | .corrupt content =>
    if (s.content (.file .v1)).isSome ∧ (s.content (.file .v2)).isSome then
      some (s.set (.file .v2) content)
    else none

/-- Of the PINs in `pins` a blob opens under `p` only, and to `x` only. -/
def OnlyOpens (pins : Set (List UInt8)) (p : List UInt8) (x : String) (b : List UInt8) : Prop :=
  ∀ q ∈ pins, ∀ y, Opens q b y → q = p ∧ y = x

/-- The PINs tried are among `pins`, and a blob that rots does not come to open otherwise. -/
def Action.Honest (pins : Set (List UInt8)) (p : List UInt8) (x : String) : Action → Prop
  | .boot _ pin _ => pin ∈ pins
  | .corrupt content => ∀ b, content = some b → OnlyOpens pins p x b

/-- v1 is unlinked after a v2 was read that opens to `x` and is still there, v2 while v1 opens to
`x`. -/
def UnlinkAllowed (p : List UInt8) (x : String) : Event KeyPath → List (Event KeyPath) → Prop
  | .unlinked (.file .v1) files, before =>
    ∃ b, .read (.file .v2) b ∈ before ∧ files (.file .v2) = some b ∧ Opens p b x
  | .unlinked (.file .v2) files, _ => ∃ b, files (.file .v1) = some b ∧ Opens p b x
  | _, _ => True

/-- **The invariant.** -/
structure Custody (pins : Set (List UInt8)) (p : List UInt8) (x : String) (original : List UInt8)
    (s : Files KeyPath) : Prop where
  v1 : s.content (.file .v1) = some original ∨
    s.content (.file .v1) = none ∧ OpensFile p s .v2 x
  v2 : ∀ b, s.content (.file .v2) = some b → OnlyOpens pins p x b
  trace : Justified (UnlinkAllowed p x) s.trace

variable {pins : Set (List UInt8)} {p : List UInt8} {x : String} {original : List UInt8}

/-- A v1 that is there is the original. -/
theorem Custody.v1_eq {s : Files KeyPath} (h : Custody pins p x original s) {b : List UInt8}
    (hb : s.content (.file .v1) = some b) : b = original := by
  rcases h.v1 with h1 | ⟨h1, -⟩
  · rw [h1] at hb
    exact (Option.some.inj hb).symm
  · rw [h1] at hb
    cases hb

/-- Unlinks of other files are allowed. -/
theorem unlinkAllowed_of_minor {us : List KeyPath} {e : Event KeyPath} (h : e.Minor us)
    (hus : .file .v1 ∉ us ∧ .file .v2 ∉ us) (before : List (Event KeyPath)) :
    UnlinkAllowed p x e before := by
  cases e with
  | read => trivial
  | unlinked q files =>
    rcases q with (_ | _ | _) | _
    · exact absurd h hus.1
    · exact absurd h hus.2
    · trivial
    · trivial

/-- Where neither key file was unlinked the trace stays justified. -/
theorem justified_of_kept {ps us : List KeyPath} {s s' : Files KeyPath}
    (h : Justified (UnlinkAllowed p x) s.trace) (hkept : Kept ps us s s')
    (hus : .file .v1 ∉ us ∧ .file .v2 ∉ us) : Justified (UnlinkAllowed p x) s'.trace := by
  obtain ⟨events, hevents, htrace⟩ := hkept.trace
  rw [htrace]
  exact Justified.append (fun e he => unlinkAllowed_of_minor (hevents e he) hus) h

/-- Files that change elsewhere keep the invariant. -/
theorem Custody.of_kept {ps us : List KeyPath} {s s' : Files KeyPath}
    (h : Custody pins p x original s) (hkept : Kept ps us s s')
    (hps : .file .v1 ∉ ps ∧ .file .v2 ∉ ps) (hus : .file .v1 ∉ us ∧ .file .v2 ∉ us) :
    Custody pins p x original s' := by
  have h1 := hkept.content _ hps.1
  have h2 := hkept.content _ hps.2
  refine ⟨?_, ?_, justified_of_kept h.trace hkept hus⟩
  · rw [h1, OpensFile, h2]
    exact h.v1
  · rw [h2]
    exact h.v2

/-- A blob sealed under `p` opens under `p` only, to what was sealed. -/
theorem OnlyOpens.sealed (hauth : Authenticated pins) (hp : p ∈ pins) {random : Random}
    {blob : List UInt8} (h : encrypt random p x = .ok blob) : OnlyOpens pins p x blob := by
  intro q hq y hy
  by_cases hqp : q = p
  · rw [hqp] at hy
    exact ⟨hqp, Opens.unique hy (opens_of_format (hauth.decrypt_encrypt h))⟩
  · exact absurd hy (hauth.not_opens hp hq hqp h)

/-- The invariant after v2 was staged. -/
theorem Custody.of_staging (hauth : Authenticated pins) (hp : p ∈ pins)
    (honly : OnlyOpens pins p x original) {random : Random} {q b : List UInt8} {y : String}
    (hq : q ∈ pins) {s s' : Files KeyPath} (h : Custody pins p x original s)
    (h1 : s.content (.file .v1) = some b) (hopen : Opens q b y)
    (hkept : Kept [.tmp .v2, .file .v2, .tmp .counter, .file .counter] [] s s')
    (hblob : s'.content (.file .v2) = none ∨
      ∃ blob, encrypt random q y = .ok blob ∧ s'.content (.file .v2) = some blob) :
    Custody pins p x original s' := by
  have hv1 : s'.content (.file .v1) = some original := by
    rw [hkept.content _ (by simp), h1, h.v1_eq h1]
  rw [h.v1_eq h1] at hopen
  obtain ⟨rfl, rfl⟩ := honly q hq y hopen
  refine ⟨.inl hv1, ?_, justified_of_kept h.trace hkept (by simp)⟩
  intro b' hb'
  rcases hblob with hnone | ⟨blob, hblob, hsome⟩
  · rw [hnone] at hb'
    cases hb'
  · rw [hsome] at hb'
    cases hb'
    exact OnlyOpens.sealed hauth hp hblob

/-- The invariant after v1 was unlinked under a v2 that opens. -/
theorem Custody.unlink_v1 {q b : List UInt8} {y : String} (hq : q ∈ pins) {s : Files KeyPath}
    (h : Custody pins p x original s) (h2 : s.content (.file .v2) = some b) (hopen : Opens q b y)
    (hmem : .read (.file .v2) b ∈ s.trace) :
    Custody pins p x original (s.unlink (.file .v1)) := by
  obtain ⟨rfl, rfl⟩ := h.v2 b h2 q hq y hopen
  have h2' : (s.unlink (.file .v1)).content (.file .v2) = s.content (.file .v2) := by
    simp [Files.unlink]
  refine ⟨.inr ⟨by simp [Files.unlink], b, by rw [h2', h2], hopen⟩, ?_, ?_, h.trace⟩
  · rw [h2']
    exact h.v2
  · exact ⟨b, hmem, h2, hopen⟩

/-- The invariant after v2 was unlinked while v1 is there. -/
theorem Custody.unlink_v2 (hopen : Opens p original x) {b : List UInt8} {s : Files KeyPath}
    (h : Custody pins p x original s) (h1 : s.content (.file .v1) = some b) :
    Custody pins p x original (s.unlink (.file .v2)) := by
  rw [h.v1_eq h1] at h1
  refine ⟨.inl ?_, ?_, ⟨original, h1, hopen⟩, h.trace⟩
  · simp [Files.unlink, h1]
  · simp [Files.unlink]

/-- **A boot keeps the invariant.** -/
theorem Boot.custody (hauth : Authenticated pins) (hp : p ∈ pins) (hopen : Opens p original x)
    (honly : OnlyOpens pins p x original) {random : Random} {q : List UInt8} (hq : q ∈ pins)
    {io : List Answer} {s s' : Files KeyPath} {r : Option (Except IoError DecryptOutcome)}
    (h : Custody pins p x original s) (hboot : Boot random q io s s' r) :
    Custody pins p x original s' := by
  cases hboot with
  | refused _ hkept => exact h.of_kept hkept (by simp) (by simp)
  | steady _ _ _ hkept => exact h.of_kept hkept (by simp) (by simp)
  | disabled _ _ _ hkept => exact h.of_kept hkept (by simp) (by simp)
  | staging h1 _ hdec _ hkept hblob =>
    exact h.of_staging hauth hp honly hq h1 (opens_of_format hdec) hkept hblob
  | staged h1 _ hdec _ hkept hencrypt hblob =>
    exact h.of_staging hauth hp honly hq h1 (opens_of_format hdec) hkept
      (.inr ⟨_, hencrypt, hblob⟩)
  | notPromoted _ _ _ _ hkept => exact h.of_kept hkept (by simp) (by simp)
  | promoted _ h2 hdec _ hread hmem hkept =>
    have ht := h.of_kept hread (by simp) (by simp)
    rw [← hread.content_eq] at h2
    exact (ht.unlink_v1 hq h2 hdec hmem).of_kept hkept (by simp) (by simp)
  | reverted h1 _ _ _ _ hread hs' =>
    have ht := h.of_kept hread (by simp) (by simp)
    rw [← hread.content_eq] at h1
    rcases hs' with rfl | rfl
    · exact ht
    · exact ht.unlink_v2 hopen h1

/-- **A boot with a wrong PIN leaves both key files as they are.** -/
theorem Boot.keys_eq (honly : OnlyOpens pins p x original) {random : Random} {q : List UInt8}
    (hq : q ∈ pins) (hne : q ≠ p) {io : List Answer} {s s' : Files KeyPath}
    {r : Option (Except IoError DecryptOutcome)} (h : Custody pins p x original s)
    (hboot : Boot random q io s s' r) :
    s'.content (.file .v1) = s.content (.file .v1) ∧
      s'.content (.file .v2) = s.content (.file .v2) := by
  have hno1 : ∀ b y, s.content (.file .v1) = some b → ¬Opens q b y := by
    intro b y hb hy
    rw [h.v1_eq hb] at hy
    exact hne (honly q hq y hy).1
  have hno2 : ∀ b y, s.content (.file .v2) = some b → ¬Opens q b y :=
    fun b y hb hy => hne (h.v2 b hb q hq y hy).1
  cases hboot with
  | refused _ hkept => exact ⟨hkept.content _ (by simp), hkept.content _ (by simp)⟩
  | steady _ h2 hopen => exact absurd hopen (hno2 _ _ h2)
  | disabled h1 hopen => exact absurd hopen (hno1 _ _ h1)
  | staging h1 _ hdec => exact absurd (opens_of_format hdec) (hno1 _ _ h1)
  | staged h1 _ hdec => exact absurd (opens_of_format hdec) (hno1 _ _ h1)
  | notPromoted _ h2 hopen => exact absurd hopen (hno2 _ _ h2)
  | promoted _ h2 hopen => exact absurd hopen (hno2 _ _ h2)
  | reverted h1 _ _ _ hopen => exact absurd hopen (hno1 _ _ h1)

/-- Rot keeps the invariant. -/
theorem Custody.corrupt {content : Option (List UInt8)} {s : Files KeyPath}
    (h : Custody pins p x original s) (h1 : (s.content (.file .v1)).isSome)
    (hcontent : ∀ b, content = some b → OnlyOpens pins p x b) :
    Custody pins p x original (s.set (.file .v2) content) := by
  obtain ⟨b, hb⟩ := Option.isSome_iff_exists.1 h1
  have hv1 := h.v1_eq hb
  rw [hv1] at hb
  exact ⟨.inl (by simp [Files.set, hb]), by simpa [Files.set] using hcontent, h.trace⟩

/-- An action keeps the invariant. -/
theorem step_custody (hauth : Authenticated pins) (hp : p ∈ pins) (hopen : Opens p original x)
    (honly : OnlyOpens pins p x original) (s : Files KeyPath) (a : Action) (s' : Files KeyPath)
    (h : Custody pins p x original s) (ha : a.Honest pins p x) (hstep : step s a = some s') :
    Custody pins p x original s' := by
  cases a with
  | boot random q io =>
    obtain ⟨r, io', t, hrun, hboot⟩ := migrateAndDecrypt_boot random q io s
    cases hstep
    rw [hrun]
    exact hboot.custody hauth hp hopen honly ha h
  | corrupt content =>
    simp only [step] at hstep
    split at hstep
    · next hboth =>
      cases hstep
      exact h.corrupt hboth.1 ha
    · cases hstep

/-- What the invariant says of the files that are there. -/
theorem Custody.opensFile (hopen : Opens p original x) {s : Files KeyPath}
    (h : Custody pins p x original s) : OpensFile p s .v1 x ∨ OpensFile p s .v2 x :=
  h.v1.imp (fun h1 => ⟨original, h1, hopen⟩) And.right

/-- **The migration never loses the keys.** In every run from a v1 that opens to `x` under `p` and
under no other PIN tried, whatever lies at v2 not opening otherwise: in every state reached a key
file opens to `x` under `p`; v1 was unlinked only under a v2 read before and still there that opens
to `x`, v2 only beside a v1 that does; and a boot with a wrong PIN changes neither. A boot that
loses power ends in the state in which it does, so the states reached are all those there are. -/
theorem keys_survive (hauth : Authenticated pins) (hp : p ∈ pins) (hopen : Opens p original x)
    (honly : OnlyOpens pins p x original) {s₀ : Files KeyPath}
    (h1 : s₀.content (.file .v1) = some original)
    (hstale : ∀ b, s₀.content (.file .v2) = some b → OnlyOpens pins p x b)
    (htrace : s₀.trace = []) {as : List Action} (has : ∀ a ∈ as, a.Honest pins p x)
    {s : Files KeyPath} (hrun : Automaton.run step s₀ as = some s) :
    (OpensFile p s .v1 x ∨ OpensFile p s .v2 x) ∧
    (∀ files before, .unlinked (.file .v1) files :: before <:+ s.trace →
      ∃ b, .read (.file .v2) b ∈ before ∧ files (.file .v2) = some b ∧ Opens p b x) ∧
    (∀ files before, .unlinked (.file .v2) files :: before <:+ s.trace →
      ∃ b, files (.file .v1) = some b ∧ Opens p b x) ∧
    ∀ random q io, q ∈ pins → q ≠ p →
      ((migrateAndDecrypt random q).run io s).2.2.content (.file .v1) = s.content (.file .v1) ∧
      ((migrateAndDecrypt random q).run io s).2.2.content (.file .v2) =
        s.content (.file .v2) := by
  have hinit : Custody pins p x original s₀ := by
    refine ⟨.inl h1, hstale, ?_⟩
    rw [htrace]
    trivial
  have h : Custody pins p x original s :=
    Automaton.run_invariant (step_custody hauth hp hopen honly) hinit
      (Automaton.along_of_forall s₀ has) hrun
  refine ⟨h.opensFile hopen, fun files before hmem => h.trace.of_suffix hmem,
    fun files before hmem => h.trace.of_suffix hmem, fun random q io hq hne => ?_⟩
  obtain ⟨r, io', t, hrun, hboot⟩ := migrateAndDecrypt_boot random q io s
  rw [hrun]
  exact hboot.keys_eq honly hq hne h

end

attribute [local instance] plainCrypto

/-- The PIN of the test keys, and another. -/
def rightPin : List UInt8 := asBytes "123456"
def wrongPin : List UInt8 := asBytes "654321"

/-- The PINs tried. -/
def triedPins : Set (List UInt8) := {rightPin, wrongPin}

/-- The plain cipher tells the PINs tried apart. -/
theorem triedPins_authenticated : Authenticated triedPins := by
  refine plainCrypto_authenticated ?_
  rintro q (rfl | rfl) q' (rfl | rfl) h
  · rfl
  · exact absurd h (by decide)
  · exact absurd h (by decide)
  · rfl

/-- The right PIN opens the original. -/
theorem original_opens : Opens rightPin (plainV1 rightPin "keys") "keys" := by decide +kernel

/-- Of the PINs tried the original opens under the right one only. -/
theorem original_onlyOpens :
    OnlyOpens triedPins rightPin "keys" (plainV1 rightPin "keys") := by
  have hwrong : decrypt wrongPin (plainV1 rightPin "keys") =
      .error ⟨.invalidData, "Decryption failed (wrong PIN?): aead::Error"⟩ := by decide +kernel
  rintro q (rfl | rfl) y hy
  · exact ⟨rfl, Opens.unique hy original_opens⟩
  · rw [Opens, hwrong] at hy
    cases hy

/-- A staging, rot, a wrong PIN, the revert, a staging that loses power after v2 is renamed, and
the promotion. -/
def rotRun : List Action :=
  [.boot plainRandom rightPin [], .corrupt (some [0]), .boot plainRandom wrongPin [],
    .boot plainRandom rightPin [], .boot plainRandom rightPin [.ok, .ok, .cut ⟨none, false⟩],
    .boot plainRandom rightPin []]

/-- After `rotRun` v2 has taken over, and opens to the keys. -/
theorem keys_survive_rotRun : ∃ s,
    Automaton.run step (keyFiles (some (plainV1 rightPin "keys")) none none) rotRun = some s ∧
    s.content (.file .v1) = none ∧
      (OpensFile rightPin s .v1 "keys" ∨ OpensFile rightPin s .v2 "keys") := by
  have hgone : (Automaton.run step (keyFiles (some (plainV1 rightPin "keys")) none none)
      rotRun).map (·.content (.file .v1)) = some none := by decide +kernel
  have hhonest : ∀ a ∈ rotRun, a.Honest triedPins rightPin "keys" := by
    intro a ha
    simp only [rotRun, List.mem_cons, List.not_mem_nil, or_false] at ha
    rcases ha with rfl | rfl | rfl | rfl | rfl | rfl
    · exact .inl rfl
    · intro b hb q _ y hy
      cases hb
      cases hy
    · exact .inr rfl
    · exact .inl rfl
    · exact .inl rfl
    · exact .inl rfl
  have hstale : ∀ b, (keyFiles (some (plainV1 rightPin "keys")) none none).content (.file .v2) =
      some b → OnlyOpens triedPins rightPin "keys" b := by
    intro b hb
    cases hb
  obtain ⟨s, hrun, hv1⟩ := Option.map_eq_some_iff.1 hgone
  exact ⟨s, hrun, hv1, (keys_survive triedPins_authenticated (.inl rfl) original_opens
    original_onlyOpens rfl hstale rfl hhonest hrun).1⟩

/-- **A stale v2 of other keys takes over**: it opens under the PIN, so v1 is unlinked. -/
theorem stale_v2_takes_over : ¬∀ [BlobCrypto] (pins : Set (List UInt8)) (p : List UInt8)
    (x : String) (original : List UInt8) (s₀ s : Files KeyPath) (as : List Action),
    Authenticated pins → p ∈ pins → Opens p original x → OnlyOpens pins p x original →
    s₀.content (.file .v1) = some original → s₀.trace = [] →
    (∀ a ∈ as, a.Honest pins p x) → Automaton.run step s₀ as = some s →
    OpensFile p s .v1 x ∨ OpensFile p s .v2 x := by
  intro h
  have hleft : (Automaton.run step (keyFiles (some (plainV1 rightPin "keys"))
      (some (plainV2 rightPin "old keys")) none) [.boot plainRandom rightPin []]).map
      (fun s => (s.content (.file .v1), s.content (.file .v2))) =
        some (none, some (plainV2 rightPin "old keys")) := by decide +kernel
  have hold : Opens rightPin (plainV2 rightPin "old keys") "old keys" := by decide +kernel
  obtain ⟨s, hrun, hfiles⟩ := Option.map_eq_some_iff.1 hleft
  obtain ⟨hv1, hv2⟩ := Prod.mk.inj hfiles
  have hhonest : ∀ a ∈ [Action.boot plainRandom rightPin []],
      a.Honest triedPins rightPin "keys" := by
    intro a ha
    rw [List.mem_singleton.1 ha]
    exact .inl rfl
  rcases h triedPins rightPin "keys" _ _ s _ triedPins_authenticated (.inl rfl) original_opens
    original_onlyOpens rfl rfl hhonest hrun with ⟨b, hb, -⟩ | hopen
  · rw [hv1] at hb
    cases hb
  · exact absurd (hopen.eq_of_content hv2 hold) (by decide)

end Russignol.TezosEncrypt
