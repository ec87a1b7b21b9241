import Russignol.Crypto.Blob

/-!
# The key files

`rpi-signer/src/tezos_encrypt.rs`: the secret keys lie encrypted in a v1 or a v2 file, and the PIN
drives the migration from the one to the other over several boots, with an attempt counter on disk.
The functions are programs over the keys partition that may lose power in any operation.

`Boot` lists what one boot of `migrateAndDecrypt` can do (`migrateAndDecrypt_boot`); what is proved
of the migration is proved from it. The hook that swaps the progress page is left out.
-/

namespace Russignol

open CrashProgram FileStore

/-- `MigrationEvent`. -/
inductive MigrationEvent
  | stagedV2
  | promotedV2
  | revertedFromCorruptV2 (reason : String)
  | stagingFailed (reason : String)
  | migrationDisabled (attempts : UInt32)
  deriving DecidableEq, Repr

namespace TezosEncrypt

open Crypto

/-- The files of the migration. -/
inductive KeyFile
  | v1
  | v2
  | counter
  deriving DecidableEq, Repr

/-- `SECRET_KEYS_ENC_PATH`, `SECRET_KEYS_ENC_V2_PATH` and `MIGRATION_ATTEMPTS_PATH`. -/
def KeyFile.path : KeyFile → String
  | .v1 => "/keys/secret_keys.enc"
  | .v2 => "/keys/secret_keys.enc.v2"
  | .counter => "/keys/.migration_attempts"

/-- A path: a file or its `.tmp` sibling. -/
inductive KeyPath
  | file (f : KeyFile)
  | tmp (f : KeyFile)
  deriving DecidableEq, Repr

/-- The files of a partition without leftovers of a write. -/
def keyFiles (v1 v2 counter : Option (List UInt8)) : Files KeyPath where
  content
    | .file .v1 => v1
    | .file .v2 => v2
    | .file .counter => counter
    | .tmp _ => none
  trace := []

/-- `MIGRATION_ATTEMPT_THRESHOLD`. -/
def migrationAttemptThreshold : UInt32 := 4

/-- `DecryptOutcome`. -/
structure DecryptOutcome where
  plaintext : String
  migration : Option MigrationEvent
  deriving DecidableEq, Repr

/-! ## The attempt counter -/

/-- `char::is_whitespace`. -/
def isWhitespace (c : Char) : Bool :=
  (0x09 ≤ c.toNat && c.toNat ≤ 0x0d) || c.toNat == 0x20 || c.toNat == 0x85 || c.toNat == 0xa0 ||
    c.toNat == 0x1680 || (0x2000 ≤ c.toNat && c.toNat ≤ 0x200a) || c.toNat == 0x2028 ||
    c.toNat == 0x2029 || c.toNat == 0x202f || c.toNat == 0x205f || c.toNat == 0x3000

/-- `str::trim`. -/
def trim (s : List Char) : List Char :=
  ((s.dropWhile isWhitespace).reverse.dropWhile isWhitespace).reverse

/-- The digits of a number, after a plus sign if there is one. -/
def stripPlus : List Char → List Char
  | '+' :: rest => rest
  | s => s

/-- `str::parse::<u32>`. -/
def parseU32 (s : List Char) : Option UInt32 :=
  let digits := stripPlus s
  if digits ≠ [] ∧ digits.all Char.isDigit ∧ Nat.ofDigitChars 10 digits 0 < UInt32.size then
    some (UInt32.ofNat (Nat.ofDigitChars 10 digits 0))
  else none

/-- The value of a counter file's bytes. -/
def counterValue (raw : List UInt8) : UInt32 :=
  ((fromUtf8 raw).bind fun text => parseU32 (trim text.toList)).getD 0

/-- A text without whitespace at its ends is its own trim. -/
theorem trim_of_forall {s : List Char} (h : ∀ c ∈ s, isWhitespace c = false) : trim s = s := by
  have hdrop : ∀ l : List Char, (∀ c ∈ l, isWhitespace c = false) → l.dropWhile isWhitespace = l := by
    intro l hl
    cases l with
    | nil => rfl
    | cons c l => simp [hl c List.mem_cons_self]
  rw [trim, hdrop s h, hdrop s.reverse fun c hc => h c (List.mem_reverse.1 hc), List.reverse_reverse]

/-- A digit is no whitespace. -/
theorem isWhitespace_of_isDigit {c : Char} (h : c.isDigit) : isWhitespace c = false := by
  have hrange : 48 ≤ c.toNat ∧ c.toNat ≤ 57 := by
    simpa [Char.isDigit, UInt32.le_iff_toNat_le] using h
  simp only [isWhitespace, Bool.or_eq_false_iff, Bool.and_eq_false_iff, beq_eq_false_iff_ne,
    decide_eq_false_iff_not]
  omega

/-- A number is read back from its digits. -/
theorem parseU32_toDigits (n : UInt32) : parseU32 (Nat.toDigits 10 n.toNat) = some n := by
  have hdigits : ∀ c ∈ Nat.toDigits 10 n.toNat, c.isDigit :=
    fun c hc => Nat.isDigit_of_mem_toDigits (by decide) (by decide) hc
  have hstrip : stripPlus (Nat.toDigits 10 n.toNat) = Nat.toDigits 10 n.toNat := by
    unfold stripPlus
    split
    · next heq => exact absurd (hdigits '+' (heq ▸ List.mem_cons_self)) (by decide)
    · rfl
  have hvalue : Nat.ofDigitChars 10 (Nat.toDigits 10 n.toNat) 0 = n.toNat :=
    Nat.ofDigitChars_ten_toDigits
  rw [parseU32, hstrip]
  simp only [hvalue]
  rw [if_pos ⟨Nat.toDigits_ne_nil, List.all_eq_true.2 hdigits, n.toNat_lt⟩, UInt32.ofNat_toNat]

/-- The counter is read back. -/
theorem counterValue_asBytes (n : UInt32) : counterValue (asBytes (toString n)) = n := by
  have htext : (toString n).toList = Nat.toDigits 10 n.toNat := Nat.toList_repr
  have hspace : ∀ c ∈ Nat.toDigits 10 n.toNat, isWhitespace c = false := fun c hc =>
    isWhitespace_of_isDigit (Nat.isDigit_of_mem_toDigits (by decide) (by decide) hc)
  rw [counterValue, fromUtf8_asBytes, Option.bind_some, htext, trim_of_forall hspace,
    parseU32_toDigits, Option.getD_some]

/-- `read_counter`. -/
def readCounter : Fs KeyPath UInt32 := do
  match ← readFile (.file .counter) with
  | .ok raw => pure (counterValue raw)
  | .error _ => pure 0

/-! ## Writing -/

/-- `atomic_write`. -/
def atomicWrite (target : KeyFile) (data : List UInt8) : Fs KeyPath (Except IoError Unit) := do
  match ← writeSync (.tmp target) data with
  | .error e => pure (.error e)
  | .ok _ =>
    match ← rename (.tmp target) (.file target) with
    | .error e => pure (.error e)
    | .ok _ =>
      syncDir
      pure (.ok ())

/-- `increment_counter`, with `saturating_add`. -/
def incrementCounter (current : UInt32) : Fs KeyPath (Except IoError UInt32) := do
  let next := if current = UInt32.ofNat (UInt32.size - 1) then current else current + 1
  match ← atomicWrite .counter (asBytes (toString next)) with
  | .error e => pure (.error e)
  | .ok _ => pure (.ok next)

/-- `clear_counter`. -/
def clearCounter : Fs KeyPath (Except IoError Unit) := do
  match ← removeFile (.file .counter) with
  | .ok _ => pure (.ok ())
  | .error e => pure (if e.kind = .notFound then .ok () else .error e)

/-- The answers under which `atomicWrite` succeeds: the directory sync may fail. -/
def Wrote (io : List Answer) : Prop :=
  next io = .ok ∧ next io.tail = .ok ∧ (next io.tail.tail).Powered

instance (io : List Answer) : Decidable (Wrote io) := inferInstanceAs (Decidable (_ ∧ _ ∧ _))

/-- The answers under which `atomicWrite` puts the data at the target. -/
def Landed (io : List Answer) : Prop := next io = .ok ∧ (next io.tail).taken = true

instance (io : List Answer) : Decidable (Landed io) := inferInstanceAs (Decidable (_ ∧ _))

/-- A write that succeeds has put the data at the target. -/
theorem Wrote.landed {io : List Answer} (h : Wrote io) : Landed io := ⟨h.1, by rw [h.2.1]; rfl⟩

/-- What `atomicWrite` does. -/
structure AtomicWrite (target : KeyFile) (data : List UInt8) (io io' : List Answer)
    (s s' : Files KeyPath) (r : Option (Except IoError Unit)) : Prop where
  kept : Kept [.tmp target, .file target] [] s s'
  file : s'.content (.file target) = if Landed io then some data else s.content (.file target)
  ok_iff : r = some (.ok ()) ↔ Wrote io
  rest : Wrote io → io' = io.tail.tail.tail

/-- The specification of `atomicWrite`. -/
theorem atomicWrite_spec (target : KeyFile) (data : List UInt8) (io : List Answer)
    (s : Files KeyPath) : ∃ r io' s', (atomicWrite target data).run io s = (r, io', s') ∧
      AtomicWrite target data io io' s s' r := by
  have hset : ∀ content, Kept [.tmp target, .file target] [] s (s.set (.tmp target) content) :=
    fun content => Kept.set [] (by simp) s content
  have hsame : ∀ content, (s.set (.tmp target) content).content (.file target) =
      s.content (.file target) := fun content => by simp [Files.set]
  obtain ⟨t, ht⟩ : ∃ t, t = s.set (.tmp target) (some data) := ⟨_, rfl⟩
  obtain ⟨u, hu⟩ : ∃ u, u = t.move (.tmp target) (.file target) := ⟨_, rfl⟩
  have htmp : (t.content (.tmp target)).isSome := by simp [ht, Files.set]
  have htarget : t.content (.file target) = s.content (.file target) := ht ▸ hsame _
  have hmoved : u.content (.file target) = some data := by simp [hu, ht, Files.move, Files.set]
  have hkept : Kept [.tmp target, .file target] [] s u :=
    hu ▸ (ht ▸ hset _).trans (Kept.move [] (by simp) (by simp) t)
  have hleft : ∀ a : Answer, Kept [.tmp target, .file target] [] s (a.take t u).2 ∧
      (a.take t u).2.content (.file target) =
        if a.taken = true then some data else s.content (.file target) := by
    intro a
    rw [Answer.take_snd]
    cases a.taken
    · exact ⟨ht ▸ hset _, htarget⟩
    · exact ⟨hkept, hmoved⟩
  cases h0 : next io with
  | failed e left =>
    refine ⟨some (.error e), io.tail, s.set (.tmp target) left.content, ?_, hset _, ?_, ?_, ?_⟩
    · simp [atomicWrite, writeSync, run_bind, h0]
    · simp [Landed, h0, hsame]
    · simp [Wrote, h0]
    · simp [Wrote, h0]
  | cut left =>
    refine ⟨none, io.tail, s.set (.tmp target) left.content, ?_, hset _, ?_, ?_, ?_⟩
    · simp [atomicWrite, writeSync, run_bind, h0]
    · simp [Landed, h0, hsame]
    · simp [Wrote, h0]
    · simp [Wrote, h0]
  | ok =>
    have hwrite : (writeSync (.tmp target) data).run io s = (some (.ok ()), io.tail, t) := by
      rw [writeSync, run_op, h0, ht]
    have hrename : (rename (.tmp target) (.file target)).run io.tail t =
        (((next io.tail).take t u).1, io.tail.tail, ((next io.tail).take t u).2) := by
      rw [rename, run_op, if_pos htmp, hu]
    have hfile : ((next io.tail).take t u).2.content (.file target) =
        if Landed io then some data else s.content (.file target) := by
      simp [(hleft (next io.tail)).2, Landed, h0]
    rw [atomicWrite, run_bind_of_some hwrite]
    simp only
    rw [run_bind, hrename]
    cases h1 : next io.tail with
    | failed e left =>
      rw [h1] at hfile
      exact ⟨_, _, _, rfl, (hleft _).1, hfile, by simp [Wrote, h1], by simp [Wrote, h1]⟩
    | cut left =>
      rw [h1] at hfile
      exact ⟨_, _, _, rfl, (hleft _).1, hfile, by simp [Wrote, h1], by simp [Wrote, h1]⟩
    | ok =>
      have hu' : (Answer.ok.take t u).2 = u := rfl
      rw [h1, hu'] at hfile
      cases h2 : next io.tail.tail with
      | cut left =>
        refine ⟨none, io.tail.tail.tail, u, ?_, hkept, hfile, ?_, ?_⟩
        · simp [syncDir, run_bind, h2, Answer.take]
        · simp [Wrote, h2, Answer.Powered]
        · simp [Wrote, h2, Answer.Powered]
      | ok =>
        refine ⟨some (.ok ()), io.tail.tail.tail, u, ?_, hkept, hfile, ?_, fun _ => rfl⟩
        · simp [syncDir, run_bind, h2, Answer.take]
        · simp [Wrote, h0, h1, h2, Answer.Powered]
      | failed e left =>
        refine ⟨some (.ok ()), io.tail.tail.tail, u, ?_, hkept, hfile, ?_, fun _ => rfl⟩
        · simp [syncDir, run_bind, h2, Answer.take]
        · simp [Wrote, h0, h1, h2, Answer.Powered]

/-! ## The migration -/

variable [BlobCrypto]

/-- `encrypt_secret_keys`. -/
def encryptSecretKeys (random : Random) (password : List UInt8) (secretKeysJson : String) :
    Fs KeyPath (Except IoError Unit) :=
  match encrypt random password secretKeysJson with
  | .error e => pure (.error e)
  | .ok encrypted => atomicWrite .v2 encrypted

/-- The end of `stage_v1_to_v2`, from the re-encryption. -/
def stage (random : Random) (password : List UInt8) (plaintext : String) (attempts : UInt32) :
    Fs KeyPath (Except IoError DecryptOutcome) := do
  let stageResult ← match encrypt random password plaintext with
    | .ok v2Blob => atomicWrite .v2 v2Blob
    | .error err => pure (.error ⟨.other, "re-encrypt failed: " ++ err.text⟩)
  match stageResult with
  | .ok _ =>
    match ← incrementCounter attempts with
    | .ok _ => pure (.ok ⟨plaintext, some .stagedV2⟩)
    | .error e => pure (.ok ⟨plaintext, some (.stagingFailed ("counter persist: " ++ e.text))⟩)
  | .error e => pure (.ok ⟨plaintext, some (.stagingFailed e.text)⟩)

/-- `stage_v1_to_v2`. -/
def stageV1ToV2 (random : Random) (password : List UInt8) :
    Fs KeyPath (Except IoError DecryptOutcome) := do
  match ← readFile (.file .v1) with
  | .error e => pure (.error e)
  | .ok v1 =>
    let attempts ← readCounter
    if migrationAttemptThreshold ≤ attempts then
      match decryptWithFormat password v1 with
      | .error e => pure (.error e)
      | .ok (plaintext, _) => pure (.ok ⟨plaintext, some (.migrationDisabled attempts)⟩)
    else
      match decryptWithFormat password v1 with
      | .error e => pure (.error e)
      | .ok (_, .v2) => pure (.error ⟨.other, "v1-named file contains non-v1 format"⟩)
      | .ok (plaintext, .v1Legacy) => stage random password plaintext attempts

/-- `verify_v2_or_revert`. -/
def verifyV2OrRevert (password : List UInt8) : Fs KeyPath (Except IoError DecryptOutcome) := do
  let attempts ← readCounter
  if migrationAttemptThreshold ≤ attempts then
    match ← readFile (.file .v1) with
    | .error e => pure (.error e)
    | .ok v1 =>
      match decryptWithFormat password v1 with
      | .error e => pure (.error e)
      | .ok (plaintext, _) => pure (.ok ⟨plaintext, some (.migrationDisabled attempts)⟩)
  else
    match ← readFile (.file .v2) with
    | .error e => pure (.error e)
    | .ok v2 =>
      match decrypt password v2 with
      | .ok plaintext =>
        match ← removeFile (.file .v1) with
        | .error e => pure (.error e)
        | .ok _ =>
          let _ ← clearCounter
          pure (.ok ⟨plaintext, some .promotedV2⟩)
      | .error v2Err =>
        match ← readFile (.file .v1) with
        | .error e => pure (.error e)
        | .ok v1 =>
          match decryptWithFormat password v1 with
          | .error v1Err => pure (.error v1Err)
          | .ok (plaintext, _) =>
            let _ ← removeFile (.file .v2)
            pure (.ok ⟨plaintext, some (.revertedFromCorruptV2 v2Err.text)⟩)

/-- `migrate_and_decrypt` on the paths that `decrypt_secret_keys` gives it. -/
def migrateAndDecrypt (random : Random) (password : List UInt8) :
    Fs KeyPath (Except IoError DecryptOutcome) := do
  let v1Present ← pathExists (.file .v1)
  let v2Present ← pathExists (.file .v2)
  match v1Present, v2Present with
  | false, false =>
    pure (.error ⟨.notFound, "No encrypted secret keys at " ++ KeyFile.v1.path ++ " or " ++
      KeyFile.v2.path⟩)
  | false, true =>
    match ← readFile (.file .v2) with
    | .error e => pure (.error e)
    | .ok v2 =>
      match decrypt password v2 with
      | .error e => pure (.error e)
      | .ok plaintext =>
        let _ ← clearCounter
        pure (.ok ⟨plaintext, none⟩)
  | true, false => stageV1ToV2 random password
  | true, true => verifyV2OrRevert password

/-! ## What one boot can do -/

/-- The attempts that a boot finds. -/
def attempts (s : Files KeyPath) : UInt32 := (s.content (.file .counter)).elim 0 counterValue

/-- The states in which a boot returns an error and changes nothing. -/
inductive Refused (pin : List UInt8) (s : Files KeyPath) : Prop
  | noKeys (h1 : s.content (.file .v1) = none) (h2 : s.content (.file .v2) = none)
  | v2 {b : List UInt8} (h1 : s.content (.file .v1) = none) (h2 : s.content (.file .v2) = some b)
    (hno : ∀ y, ¬Opens pin b y)
  | v1 {b : List UInt8} (h1 : s.content (.file .v1) = some b)
    (h2 : s.content (.file .v2) = none ∨ migrationAttemptThreshold ≤ attempts s)
    (hno : ∀ y, ¬Opens pin b y)
  | misnamed {b : List UInt8} {y : String} (h1 : s.content (.file .v1) = some b)
    (h2 : s.content (.file .v2) = none) (hopen : decryptWithFormat pin b = .ok (y, .v2))
  | both {b1 b2 : List UInt8} (h1 : s.content (.file .v1) = some b1)
    (h2 : s.content (.file .v2) = some b2) (hcount : attempts s < migrationAttemptThreshold)
    (hno1 : ∀ y, ¬Opens pin b1 y) (hno2 : ∀ y, ¬Opens pin b2 y)

/-- What one boot can return, with the files it leaves; `none` is a loss of power. -/
inductive Boot (random : Random) (pin : List UInt8) (io : List Answer) (s s' : Files KeyPath) :
    Option (Except IoError DecryptOutcome) → Prop
  | refused {e : IoError} (hrefused : Refused pin s) (hkept : Kept [] [] s s') :
    Boot random pin io s s' (some (.error e))
  | steady {b : List UInt8} {y : String} {r : Option (Except IoError DecryptOutcome)}
    (h1 : s.content (.file .v1) = none) (h2 : s.content (.file .v2) = some b)
    (hopen : Opens pin b y) (hkept : Kept [.file .counter] [.file .counter] s s')
    (hr : r = none ∨ r = some (.ok ⟨y, none⟩)) : Boot random pin io s s' r
  | disabled {b : List UInt8} {y : String} (h1 : s.content (.file .v1) = some b)
    (hopen : Opens pin b y) (hcount : migrationAttemptThreshold ≤ attempts s)
    (hkept : Kept [] [] s s') :
    Boot random pin io s s' (some (.ok ⟨y, some (.migrationDisabled (attempts s))⟩))
  | staging {b : List UInt8} {y : String} {r : Option (Except IoError DecryptOutcome)}
    (h1 : s.content (.file .v1) = some b) (h2 : s.content (.file .v2) = none)
    (hopen : decryptWithFormat pin b = .ok (y, .v1Legacy))
    (hcount : attempts s < migrationAttemptThreshold)
    (hkept : Kept [.tmp .v2, .file .v2, .tmp .counter, .file .counter] [] s s')
    (hblob : s'.content (.file .v2) = none ∨
      ∃ blob, encrypt random pin y = .ok blob ∧ s'.content (.file .v2) = some blob)
    (hattempts : attempts s' = attempts s ∨ (∃ blob, encrypt random pin y = .ok blob) ∧
      Wrote io ∧ Landed io.tail.tail.tail ∧ attempts s' = attempts s + 1)
    (hr : r = none ∨ ∃ reason, r = some (.ok ⟨y, some (.stagingFailed reason)⟩)) :
    Boot random pin io s s' r
  | staged {b blob : List UInt8} {y : String}
    (h1 : s.content (.file .v1) = some b) (h2 : s.content (.file .v2) = none)
    (hopen : decryptWithFormat pin b = .ok (y, .v1Legacy))
    (hcount : attempts s < migrationAttemptThreshold)
    (hkept : Kept [.tmp .v2, .file .v2, .tmp .counter, .file .counter] [] s s')
    (hencrypt : encrypt random pin y = .ok blob) (hblob : s'.content (.file .v2) = some blob)
    (hattempts : attempts s' = attempts s + 1) (hio : Wrote io ∧ Wrote io.tail.tail.tail) :
    Boot random pin io s s' (some (.ok ⟨y, some .stagedV2⟩))
  | notPromoted {b : List UInt8} {y : String} {r : Option (Except IoError DecryptOutcome)}
    (h1 : (s.content (.file .v1)).isSome) (h2 : s.content (.file .v2) = some b)
    (hopen : Opens pin b y) (hcount : attempts s < migrationAttemptThreshold)
    (hkept : Kept [] [] s s')
    (hr : r = none ∨ ∃ e left, next io = .failed e left ∧ r = some (.error e)) :
    Boot random pin io s s' r
  | promoted {b : List UInt8} {y : String} {t : Files KeyPath}
    {r : Option (Except IoError DecryptOutcome)}
    (h1 : (s.content (.file .v1)).isSome) (h2 : s.content (.file .v2) = some b)
    (hopen : Opens pin b y) (hcount : attempts s < migrationAttemptThreshold)
    (hread : Kept [] [] s t) (hmem : .read (.file .v2) b ∈ t.trace)
    (hkept : Kept [.file .counter] [.file .counter] (t.unlink (.file .v1)) s')
    (hr : r = none ∨ (∃ e left, next io = .failed e left ∧ r = some (.error e)) ∨
      next io = .ok ∧ r = some (.ok ⟨y, some .promotedV2⟩)) : Boot random pin io s s' r
  | reverted {b1 b2 : List UInt8} {y : String} {e : IoError} {t : Files KeyPath}
    {r : Option (Except IoError DecryptOutcome)} (h1 : s.content (.file .v1) = some b1)
    (h2 : s.content (.file .v2) = some b2) (hcount : attempts s < migrationAttemptThreshold)
    (hfail : decrypt pin b2 = .error e) (hopen : Opens pin b1 y) (hread : Kept [] [] s t)
    (hkept : s' = t ∨ s' = t.unlink (.file .v2))
    (hr : r = none ∨ r = some (.ok ⟨y, some (.revertedFromCorruptV2 e.text)⟩)) :
    Boot random pin io s s' r

omit [BlobCrypto] in
/-- `readCounter` returns the attempts and changes nothing. -/
theorem readCounter_spec (io : List Answer) (s : Files KeyPath) :
    ∃ t, readCounter.run io s = (some (attempts s), io, t) ∧ t.content = s.content ∧
      Kept [] [] s t := by
  rw [readCounter, attempts]
  cases h : s.content (.file .counter) with
  | none =>
    rw [run_bind_of_some (run_readFile_none h io)]
    exact ⟨s, rfl, rfl, Kept.refl _ _ s⟩
  | some raw =>
    rw [run_bind_of_some (run_readFile h io)]
    exact ⟨_, rfl, rfl, Kept.noteRead _ _ s _ _⟩

omit [BlobCrypto] in
/-- `clearCounter` changes the counter only. -/
theorem clearCounter_kept (io : List Answer) (s : Files KeyPath) :
    Kept [.file .counter] [.file .counter] s (clearCounter.run io s).2.2 := by
  have hkept := removeFile_kept (.file .counter) io s
  rw [clearCounter, run_bind]
  rcases hrun : (removeFile (.file .counter)).run io s with ⟨_ | _ | _, io', t⟩
  all_goals
    rw [hrun] at hkept ⊢
    exact hkept

omit [BlobCrypto] in
/-- What is returned after `clearCounter`, unless power is lost in it. -/
theorem run_clearCounter_bind {α : Type} (a : α) (io : List Answer) (s : Files KeyPath) :
    ∃ r io' t, (clearCounter >>= fun _ => (pure a : Fs KeyPath α)).run io s = (r, io', t) ∧
      (r = none ∨ r = some a) ∧ Kept [.file .counter] [.file .counter] s t := by
  have hkept := clearCounter_kept io s
  rw [run_bind]
  rcases hrun : clearCounter.run io s with ⟨_ | _, io', t⟩ <;> rw [hrun] at hkept
  · exact ⟨none, io', t, rfl, .inl rfl, hkept⟩
  · exact ⟨some a, io', t, rfl, .inr rfl, hkept⟩

omit [BlobCrypto] in
/-- `incrementCounter` counts where its write lands. -/
theorem incrementCounter_spec {n : UInt32} (io : List Answer) {s : Files KeyPath}
    (hn : n < migrationAttemptThreshold) (hs : attempts s = n) :
    ∃ r io' t, (incrementCounter n).run io s = (r, io', t) ∧
      Kept [.tmp .counter, .file .counter] [] s t ∧
      (attempts t = if Landed io then n + 1 else n) ∧ ((∃ m, r = some (.ok m)) ↔ Wrote io) := by
  have hnext : ¬n = UInt32.ofNat (UInt32.size - 1) := by
    rintro rfl
    exact absurd hn (by decide)
  obtain ⟨r, io', t, hrun, hwrite⟩ := atomicWrite_spec .counter (asBytes (toString (n + 1))) io s
  have hattempts : attempts t = if Landed io then n + 1 else n := by
    rw [attempts, hwrite.file]
    split
    · exact counterValue_asBytes _
    · exact hs
  have hok := hwrite.ok_iff
  rw [incrementCounter, if_neg hnext, run_bind, hrun]
  rcases r with _ | _ | _
  · exact ⟨_, _, t, rfl, hwrite.kept, hattempts, by simpa using hok⟩
  · exact ⟨_, _, t, rfl, hwrite.kept, hattempts, by simpa using hok⟩
  · exact ⟨_, _, t, rfl, hwrite.kept, hattempts, by simpa using hok⟩

omit [BlobCrypto] in
/-- States with the same files have the same attempts. -/
theorem attempts_congr {s t : Files KeyPath} (h : t.content = s.content) :
    attempts t = attempts s := by rw [attempts, attempts, h]

/-- `decrypt` where `decryptWithFormat` returns. -/
theorem opens_of_format {pin b : List UInt8} {y : String} {format : BlobFormat}
    (h : decryptWithFormat pin b = .ok (y, format)) : Opens pin b y := by
  rw [Opens, decrypt, h]
  rfl

/-- `decrypt` where `decryptWithFormat` fails. -/
theorem not_opens_of_error {pin b : List UInt8} {e : IoError}
    (h : decryptWithFormat pin b = .error e) (y : String) : ¬Opens pin b y := by
  rw [Opens, decrypt, h]
  intro hy
  cases hy

/-- The staging of a boot that found v1 alone and opened it. -/
theorem stage_boot {random : Random} {pin b : List UInt8} {y : String} {s t : Files KeyPath}
    (h1 : s.content (.file .v1) = some b) (h2 : s.content (.file .v2) = none)
    (hopen : decryptWithFormat pin b = .ok (y, .v1Legacy))
    (hcount : attempts s < migrationAttemptThreshold) (hread : Kept [] [] s t) (io : List Answer) :
    ∃ r io' s', (stage random pin y (attempts s)).run io t = (r, io', s') ∧
      Boot random pin io s s' r := by
  have hcontent := hread.content_eq
  have hall : [KeyPath.tmp .v2, .file .v2] ⊆
      [.tmp .v2, .file .v2, .tmp .counter, .file .counter] := by simp
  have hall' : [KeyPath.tmp .counter, .file .counter] ⊆
      [.tmp .v2, .file .v2, .tmp .counter, .file .counter] := by simp
  unfold stage
  cases hblob : encrypt random pin y with
  | error e =>
    exact ⟨_, _, _, rfl, .staging h1 h2 hopen hcount (hread.after (Kept.refl _ _ t))
      (.inl (by rw [hcontent, h2])) (.inl (attempts_congr hcontent)) (.inr ⟨_, rfl⟩)⟩
  | ok blob =>
    obtain ⟨r, io', u, hrun, hwrite⟩ := atomicWrite_spec .v2 blob io t
    have hattempts : attempts u = attempts s := by
      rw [← attempts_congr hcontent, attempts, attempts, hwrite.kept.content _ (by simp)]
    have hv2 : u.content (.file .v2) = none ∨
        ∃ blob, encrypt random pin y = .ok blob ∧ u.content (.file .v2) = some blob := by
      rw [hwrite.file, hcontent, h2]
      split
      · exact .inr ⟨blob, hblob, rfl⟩
      · exact .inl rfl
    have hk := hread.after (hwrite.kept.mono hall (List.nil_subset []))
    rw [run_bind, hrun]
    rcases r with _ | e | _
    · exact ⟨_, _, _, rfl, .staging h1 h2 hopen hcount hk hv2 (.inl hattempts) (.inl rfl)⟩
    · exact ⟨_, _, _, rfl, .staging h1 h2 hopen hcount hk hv2 (.inl hattempts) (.inr ⟨_, rfl⟩)⟩
    · have hio := hwrite.ok_iff.1 rfl
      have hfile : u.content (.file .v2) = some blob := by rw [hwrite.file, if_pos hio.landed]
      rw [hwrite.rest hio]
      obtain ⟨r, io', u', hrun', hkept', hattempts', hok⟩ :=
        incrementCounter_spec io.tail.tail.tail hcount hattempts
      have hfile' : u'.content (.file .v2) = some blob := by
        rw [hkept'.content _ (by simp), hfile]
      have hk' := hk.trans (hkept'.mono hall' (List.nil_subset []))
      have hcounted : attempts u' = attempts s ∨ (∃ blob, encrypt random pin y = .ok blob) ∧
          Wrote io ∧ Landed io.tail.tail.tail ∧ attempts u' = attempts s + 1 := by
        rw [hattempts']
        split
        · next hlanded => exact .inr ⟨⟨blob, hblob⟩, hio, hlanded, rfl⟩
        · exact .inl rfl
      simp only
      rw [run_bind, hrun']
      rcases r with _ | e | m
      · exact ⟨_, _, _, rfl, .staging h1 h2 hopen hcount hk' (.inr ⟨blob, hblob, hfile'⟩)
          hcounted (.inl rfl)⟩
      · exact ⟨_, _, _, rfl, .staging h1 h2 hopen hcount hk' (.inr ⟨blob, hblob, hfile'⟩)
          hcounted (.inr ⟨_, rfl⟩)⟩
      · have hio' := hok.1 ⟨m, rfl⟩
        rw [if_pos hio'.landed] at hattempts'
        exact ⟨_, _, _, rfl, .staged h1 h2 hopen hcount hk' hblob hfile' hattempts' ⟨hio, hio'⟩⟩

/-- A boot that finds v1 alone. -/
theorem stageV1ToV2_boot {random : Random} {pin b : List UInt8} {s : Files KeyPath}
    (h1 : s.content (.file .v1) = some b) (h2 : s.content (.file .v2) = none)
    (io : List Answer) : ∃ r io' s', (stageV1ToV2 random pin).run io s = (r, io', s') ∧
      Boot random pin io s s' r := by
  obtain ⟨t, hrun, hcontent, hkept⟩ := readCounter_spec io (s.noteRead (.file .v1) b)
  have hattempts : attempts (s.noteRead (.file .v1) b) = attempts s := rfl
  have hread : Kept [] [] s t := (Kept.noteRead [] [] s _ b).trans hkept
  rw [stageV1ToV2, run_bind_of_some (run_readFile h1 io)]
  simp only
  rw [run_bind_of_some hrun, hattempts]
  by_cases hcount : migrationAttemptThreshold ≤ attempts s
  · rw [if_pos hcount]
    cases hdec : decryptWithFormat pin b with
    | error e =>
      exact ⟨_, _, _, rfl, .refused (.v1 h1 (.inr hcount) (not_opens_of_error hdec)) hread⟩
    | ok opened => exact ⟨_, _, _, rfl, .disabled h1 (opens_of_format hdec) hcount hread⟩
  · rw [if_neg hcount]
    cases hdec : decryptWithFormat pin b with
    | error e =>
      exact ⟨_, _, _, rfl, .refused (.v1 h1 (.inl h2) (not_opens_of_error hdec)) hread⟩
    | ok opened =>
      obtain ⟨y, format⟩ := opened
      cases format with
      | v2 => exact ⟨_, _, _, rfl, .refused (.misnamed h1 h2 hdec) hread⟩
      | v1Legacy => exact stage_boot h1 h2 hdec (UInt32.not_le.1 hcount) hread io

/-- The promotion of a boot that found both files and opened v2. -/
theorem promote_boot {random : Random} {pin b : List UInt8} {y : String} {s t : Files KeyPath}
    (h1 : (s.content (.file .v1)).isSome) (h2 : s.content (.file .v2) = some b)
    (hopen : Opens pin b y) (hcount : attempts s < migrationAttemptThreshold)
    (hread : Kept [] [] s t) (hmem : .read (.file .v2) b ∈ t.trace) (io : List Answer) :
    ∃ r io' s', Prog.run (do
        match ← removeFile (.file .v1) with
        | .error e => pure (.error e)
        | .ok _ =>
          let _ ← clearCounter
          pure (.ok ⟨y, some .promotedV2⟩)) io t = (r, io', s') ∧
      Boot random pin io s s' r := by
  have ht1 : (t.content (.file .v1)).isSome := by rwa [hread.content _ (by simp)]
  have hleft : ∀ landed : Bool, ∀ {r}, (r = none ∨
      ∃ e left, next io = .failed e left ∧ r = some (.error e)) →
      Boot random pin io s (if landed then t.unlink (.file .v1) else t) r := by
    intro landed r hr
    cases landed
    · exact .notPromoted h1 h2 hopen hcount hread hr
    · exact .promoted h1 h2 hopen hcount hread hmem (Kept.refl _ _ _) (hr.imp_right .inl)
  rw [run_bind, run_removeFile ht1]
  cases hio : next io with
  | failed e left => exact ⟨_, _, _, rfl, hleft _ (.inr ⟨e, left, hio, rfl⟩)⟩
  | cut left => exact ⟨_, _, _, rfl, hleft _ (.inl rfl)⟩
  | ok =>
    obtain ⟨r, io', s', hrun, hr, hkept⟩ := run_clearCounter_bind
      (Except.ok ⟨y, some .promotedV2⟩ : Except IoError DecryptOutcome) io.tail
      (t.unlink (.file .v1))
    exact ⟨r, io', s', hrun, .promoted h1 h2 hopen hcount hread hmem hkept
      (hr.imp_right fun hr => .inr ⟨hio, hr⟩)⟩

/-- A boot that finds both files. -/
theorem verifyV2OrRevert_boot {random : Random} {pin b1 b2 : List UInt8} {s : Files KeyPath}
    (h1 : s.content (.file .v1) = some b1) (h2 : s.content (.file .v2) = some b2)
    (io : List Answer) : ∃ r io' s', (verifyV2OrRevert pin).run io s = (r, io', s') ∧
      Boot random pin io s s' r := by
  obtain ⟨t, hrun, hcontent, hread⟩ := readCounter_spec io s
  have ht1 : t.content (.file .v1) = some b1 := by rw [hcontent, h1]
  have ht2 : t.content (.file .v2) = some b2 := by rw [hcontent, h2]
  have hread1 : Kept [] [] s (t.noteRead (.file .v1) b1) := hread.trans (Kept.noteRead [] [] t _ b1)
  have hread2 : Kept [] [] s (t.noteRead (.file .v2) b2) := hread.trans (Kept.noteRead [] [] t _ b2)
  rw [verifyV2OrRevert, run_bind_of_some hrun]
  by_cases hcount : migrationAttemptThreshold ≤ attempts s
  · rw [if_pos hcount, run_bind_of_some (run_readFile ht1 io)]
    simp only
    cases hdec : decryptWithFormat pin b1 with
    | error e =>
      exact ⟨_, _, _, rfl, .refused (.v1 h1 (.inr hcount) (not_opens_of_error hdec)) hread1⟩
    | ok opened => exact ⟨_, _, _, rfl, .disabled h1 (opens_of_format hdec) hcount hread1⟩
  · have hlt := UInt32.not_le.1 hcount
    rw [if_neg hcount, run_bind_of_some (run_readFile ht2 io)]
    simp only
    cases hdec2 : decrypt pin b2 with
    | ok y =>
      exact promote_boot (by rw [h1]; rfl) h2 hdec2 hlt hread2 List.mem_cons_self io
    | error e2 =>
      have hno2 : ∀ y, ¬Opens pin b2 y := fun y hy => by
        rw [Opens, hdec2] at hy
        cases hy
      have ht1' : (t.noteRead (.file .v2) b2).content (.file .v1) = some b1 := ht1
      have hread12 := hread2.trans (Kept.noteRead [] [] _ (.file .v1) b1)
      simp only
      rw [run_bind_of_some (run_readFile ht1' io)]
      simp only
      cases hdec1 : decryptWithFormat pin b1 with
      | error e =>
        exact ⟨_, _, _, rfl,
          .refused (.both h1 h2 hlt (not_opens_of_error hdec1) hno2) hread12⟩
      | ok opened =>
        have ht2' : (((t.noteRead (.file .v2) b2).noteRead (.file .v1) b1).content
            (.file .v2)).isSome := by
          rw [noteRead_content, noteRead_content, ht2]
          rfl
        have hleft := (next io).take_snd_or ((t.noteRead (.file .v2) b2).noteRead (.file .v1) b1)
          (((t.noteRead (.file .v2) b2).noteRead (.file .v1) b1).unlink (.file .v2))
        simp only
        rw [run_bind, run_removeFile ht2']
        cases hio : next io with
        | cut left =>
          exact ⟨_, _, _, rfl, .reverted h1 h2 hlt hdec2 (opens_of_format hdec1) hread12
            (by rw [hio] at hleft; exact hleft) (.inl rfl)⟩
        | ok =>
          exact ⟨_, _, _, rfl, .reverted h1 h2 hlt hdec2 (opens_of_format hdec1) hread12
            (by rw [hio] at hleft; exact hleft) (.inr rfl)⟩
        | failed e left =>
          exact ⟨_, _, _, rfl, .reverted h1 h2 hlt hdec2 (opens_of_format hdec1) hread12
            (by rw [hio] at hleft; exact hleft) (.inr rfl)⟩

/-- **What a boot of `migrateAndDecrypt` does is one of the cases of `Boot`.** -/
theorem migrateAndDecrypt_boot (random : Random) (pin : List UInt8) (io : List Answer)
    (s : Files KeyPath) : ∃ r io' s', (migrateAndDecrypt random pin).run io s = (r, io', s') ∧
      Boot random pin io s s' r := by
  rw [migrateAndDecrypt, run_bind_of_some (run_pathExists _ io s),
    run_bind_of_some (run_pathExists _ io s)]
  cases h1 : s.content (.file .v1) with
  | none =>
    cases h2 : s.content (.file .v2) with
    | none => exact ⟨_, _, _, rfl, .refused (.noKeys h1 h2) (Kept.refl _ _ s)⟩
    | some b =>
      have hread := Kept.noteRead [] [] s (.file .v2) b
      simp only [Option.isSome]
      rw [run_bind_of_some (run_readFile h2 io)]
      simp only
      cases hdec : decrypt pin b with
      | error e =>
        have hno : ∀ y, ¬Opens pin b y := fun y hy => by
          rw [Opens, hdec] at hy
          cases hy
        exact ⟨_, _, _, rfl, .refused (.v2 h1 h2 hno) hread⟩
      | ok y =>
        obtain ⟨r, io', s', hrun, hr, hkept⟩ := run_clearCounter_bind
          (Except.ok ⟨y, none⟩ : Except IoError DecryptOutcome) io (s.noteRead (.file .v2) b)
        exact ⟨r, io', s', hrun,
          .steady h1 h2 hdec (hread.after hkept) hr⟩
  | some b1 =>
    cases h2 : s.content (.file .v2) with
    | none => exact stageV1ToV2_boot h1 h2 io
    | some b2 => exact verifyV2OrRevert_boot h1 h2 io

/-- A boot that finds both files and opens v2 unlinks v1. -/
theorem run_migrateAndDecrypt_promote (random : Random) {pin b1 b2 : List UInt8} {y : String}
    {s : Files KeyPath} (h1 : s.content (.file .v1) = some b1)
    (h2 : s.content (.file .v2) = some b2) (hcount : attempts s < migrationAttemptThreshold)
    (hopen : decrypt pin b2 = .ok y) (io : List Answer) :
    ∃ t, t.content = s.content ∧ (migrateAndDecrypt random pin).run io s = Prog.run (do
      match ← removeFile (.file .v1) with
      | .error e => pure (.error e)
      | .ok _ =>
        let _ ← clearCounter
        pure (.ok ⟨y, some .promotedV2⟩)) io t := by
  obtain ⟨t, hrun, hcontent, -⟩ := readCounter_spec io s
  have ht2 : t.content (.file .v2) = some b2 := by rw [hcontent, h2]
  refine ⟨t.noteRead (.file .v2) b2, hcontent, ?_⟩
  rw [migrateAndDecrypt, run_bind_of_some (run_pathExists _ io s),
    run_bind_of_some (run_pathExists _ io s), h1, h2]
  simp only [Option.isSome_some]
  rw [verifyV2OrRevert, run_bind_of_some hrun, if_neg (UInt32.not_le.2 hcount),
    run_bind_of_some (run_readFile ht2 io)]
  simp only [hopen]

/-- **A v1 file goes only with its promotion**, where an unlink that reports a failure did not
happen. -/
theorem migrateAndDecrypt_keeps_v1 {random : Random} {pin : List UInt8} {io io' : List Answer}
    {s s' : Files KeyPath} {r : Except IoError DecryptOutcome}
    (hrun : (migrateAndDecrypt random pin).run io s = (some r, io', s'))
    (h1 : (s.content (.file .v1)).isSome)
    (hio : ∀ e left, next io = .failed e left → left.landed = false) :
    (∃ y, r = .ok ⟨y, some .promotedV2⟩) ∨ (s'.content (.file .v1)).isSome ∧
      ∀ y m, r = .ok ⟨y, m⟩ → m ≠ none ∧ m ≠ some .promotedV2 := by
  obtain ⟨r', io₁, s₁, hrun', hboot⟩ := migrateAndDecrypt_boot random pin io s
  rw [hrun] at hrun'
  obtain ⟨rfl, rfl, rfl⟩ : some r = r' ∧ io' = io₁ ∧ s' = s₁ := by
    simpa only [Prod.mk.injEq] using hrun'
  have hkept : ∀ {ps us : List KeyPath}, .file .v1 ∉ ps → Kept ps us s s' →
      (s'.content (.file .v1)).isSome := by
    intro ps us hps hk
    rwa [hk.content _ hps]
  generalize hr' : some r = r' at hboot
  cases hboot with
  | refused _ hk =>
    cases hr'
    exact .inr ⟨hkept (by simp) hk, by simp⟩
  | steady h1' => simp [h1'] at h1
  | disabled _ _ _ hk =>
    cases hr'
    exact .inr ⟨hkept (by simp) hk, by simp⟩
  | staging _ _ _ _ hk _ _ hr =>
    rcases hr with rfl | ⟨reason, rfl⟩
    · cases hr'
    · cases hr'
      exact .inr ⟨hkept (by simp) hk, by simp⟩
  | staged _ _ _ _ hk =>
    cases hr'
    exact .inr ⟨hkept (by simp) hk, by simp⟩
  | notPromoted _ _ _ _ hk hr =>
    rcases hr with rfl | ⟨e, left, -, rfl⟩
    · cases hr'
    · cases hr'
      exact .inr ⟨hkept (by simp) hk, by simp⟩
  | promoted _ h2 hopen hcount _ _ _ hr =>
    rcases hr with rfl | ⟨e, left, hnext, rfl⟩ | ⟨-, rfl⟩
    · cases hr'
    · cases hr'
      obtain ⟨b1, hb1⟩ := Option.isSome_iff_exists.1 h1
      obtain ⟨t, ht, hpromote⟩ := run_migrateAndDecrypt_promote random hb1 h2 hcount hopen io
      have ht1 : (t.content (.file .v1)).isSome := by rwa [ht]
      rw [hpromote, run_bind, run_removeFile ht1, hnext] at hrun
      simp only [Answer.take, hio e left hnext] at hrun
      cases hrun
      exact .inr ⟨ht1, by simp⟩
    · cases hr'
      exact .inl ⟨_, rfl⟩
  | @reverted b1 b2 y e t _ h1' h2 _ _ _ hread hk hr =>
    have hsame : (s'.content (.file .v1)).isSome := by
      have ht : (t.content (.file .v1)).isSome := by rwa [hread.content _ (by simp)]
      rcases hk with rfl | rfl
      · exact ht
      · simpa [Files.unlink] using ht
    rcases hr with rfl | rfl
    · cases hr'
    · cases hr'
      exact .inr ⟨hsame, by simp⟩

/-! ## What opens -/

/-- The PIN opens a file that is there. -/
def OpensFile (pin : List UInt8) (s : Files KeyPath) (f : KeyFile) (y : String) : Prop :=
  ∃ b, s.content (.file f) = some b ∧ Opens pin b y

/-- A blob opens to one plaintext. -/
theorem Opens.unique {pin b : List UInt8} {y z : String} (hy : Opens pin b y) (hz : Opens pin b z) :
    y = z := by
  rw [Opens, hy] at hz
  exact Except.ok.inj hz

/-- A file opens to one plaintext. -/
theorem OpensFile.eq_of_content {pin b : List UInt8} {s : Files KeyPath} {f : KeyFile}
    {y z : String} (hy : OpensFile pin s f y) (hb : s.content (.file f) = some b)
    (hz : Opens pin b z) : y = z := by
  obtain ⟨b', hb', hy⟩ := hy
  rw [hb] at hb'
  cases hb'
  exact Opens.unique hy hz

/-! ## Without a loss of power -/

omit [BlobCrypto] in
/-- An atomic write returns while power is there. -/
theorem atomicWrite_returns (target : KeyFile) (data : List UInt8) :
    Returns (atomicWrite target data) := by
  refine .bind (.writeSync _ _) fun r => ?_
  cases r with
  | error => exact .pure _
  | ok =>
    refine .bind (.rename _ _) fun r => ?_
    cases r with
    | error => exact .pure _
    | ok => exact .bind .syncDir fun _ => .pure _

omit [BlobCrypto] in
/-- The removal of the counter returns. -/
theorem clearCounter_returns : Returns clearCounter := by
  refine .bind (.removeFile _) fun r => ?_
  cases r <;> exact .pure _

omit [BlobCrypto] in
/-- The reading of the counter returns. -/
theorem readCounter_returns : Returns readCounter := by
  refine .bind (.readFile _) fun r => ?_
  cases r <;> exact .pure _

/-- The staging of a blob returns. -/
theorem stage_returns (random : Random) (pin : List UInt8) (y : String) (n : UInt32) :
    Returns (stage random pin y n) := by
  unfold stage
  cases encrypt random pin y with
  | error => exact .pure _
  | ok blob =>
    refine .bind (atomicWrite_returns _ _) fun r => ?_
    cases r with
    | error => exact .pure _
    | ok =>
      refine .bind (.bind (atomicWrite_returns _ _) fun r => ?_) fun r => ?_
      · cases r <;> exact .pure _
      · cases r <;> exact .pure _

/-- The staging of the migration returns. -/
theorem stageV1ToV2_returns (random : Random) (pin : List UInt8) :
    Returns (stageV1ToV2 random pin) := by
  refine .bind (.readFile _) fun r => ?_
  cases r with
  | error => exact .pure _
  | ok v1 =>
    refine .bind readCounter_returns fun n => ?_
    split
    · cases decryptWithFormat pin v1 <;> exact .pure _
    · rcases decryptWithFormat pin v1 with _ | ⟨y, _ | _⟩
      · exact .pure _
      · exact stage_returns random pin y n
      · exact .pure _

/-- The check of what was staged returns. -/
theorem verifyV2OrRevert_returns (pin : List UInt8) : Returns (verifyV2OrRevert pin) := by
  refine .bind readCounter_returns fun n => ?_
  split
  · refine .bind (.readFile _) fun r => ?_
    rcases r with _ | v1
    · exact .pure _
    · simp only
      cases decryptWithFormat pin v1 <;> exact .pure _
  · refine .bind (.readFile _) fun r => ?_
    rcases r with _ | v2
    · exact .pure _
    · simp only
      cases decrypt pin v2 with
      | ok y =>
        refine .bind (.removeFile _) fun r => ?_
        cases r with
        | error => exact .pure _
        | ok => exact .bind clearCounter_returns fun _ => .pure _
      | error =>
        refine .bind (.readFile _) fun r => ?_
        rcases r with _ | v1
        · exact .pure _
        · simp only
          cases decryptWithFormat pin v1 with
          | error => exact .pure _
          | ok => exact .bind (.removeFile _) fun _ => .pure _

/-- **A boot returns while power is there.** -/
theorem migrateAndDecrypt_returns (random : Random) (pin : List UInt8) :
    Returns (migrateAndDecrypt random pin) := by
  refine .bind (.pathExists _) fun v1Present => .bind (.pathExists _) fun v2Present => ?_
  cases v1Present
  · cases v2Present
    · exact .pure _
    · refine .bind (.readFile _) fun r => ?_
      rcases r with _ | v2
      · exact .pure _
      · simp only
        cases decrypt pin v2 with
        | error => exact .pure _
        | ok => exact .bind clearCounter_returns fun _ => .pure _
  · cases v2Present
    · exact stageV1ToV2_returns random pin
    · exact verifyV2OrRevert_returns pin

end TezosEncrypt

end Russignol
