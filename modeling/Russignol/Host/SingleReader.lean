import Russignol.Host.CardCopy
import Russignol.Host.Flash

/-!
# Restoring with one reader

`run_single_reader_restore` of `host-utility/src/restore_keys.rs`: the source card is read, taken
out, and the card that is put in is flashed, unless it is told to be the source again. What a card is
told by is read anew each time, and each of the two probes may fail, so the source may not be
recognised: `source_spared_iff` says when it is flashed.

The cards are told apart by where they came from (`κ`), not by what is on them. The operator and the
calls are inputs (`SingleReaderIo`); a list of swaps that ends leaves the run waiting for the next.
-/

namespace Russignol.Host

/-! ## The identity of a card -/

/-- Which probes of a card succeed: that of its manifest and that of its partition table. -/
structure Probe where
  manifest : Bool
  table : Bool
  deriving DecidableEq, Repr

/-- `read_card_id`. -/
def readCardId (probe : Probe) (card : SourceCard) : Option String :=
  if probe.manifest then card.cardId else none

/-- `source_disk_ptuuid`. -/
def sourceDiskPtuuid (probe : Probe) (card : SourceCard) : Option String :=
  if probe.table then card.ptuuid else none

/-- `card_ids_match`. -/
def cardIdsMatch : Option String → Option String → Bool
  | some s, some t => s == t
  | _, _ => false

/-- A read that fails: with `AbortRead`, or so that another card may help. -/
inductive ReadError
  | abort (e : String)
  | failed (e : String)
  deriving DecidableEq, Repr

/-- `CardSource`, over the cards and what a read is answered. -/
structure CardSource (κ ρ : Type) where
  read : ρ → κ → Except ReadError SourceBackup
  identity : Probe → κ → Option String

/-- How the calls of a read end: the error of one that fails, and the probe of the manifest. -/
structure ReadIo where
  fails : Option String
  probe : Probe
  deriving DecidableEq, Repr

/-- `RestoreSource`, of what is on each card. -/
def restoreSource [JsonText] {κ : Type} (p3Path : String) (contents : κ → SourceCard) :
    CardSource κ ReadIo where
  read io card :=
    match io.fails with
    | some e => .error (.failed e)
    | none =>
      (readSourceCard p3Path (readCardId io.probe (contents card)) (contents card)).mapError .failed
  identity probe card :=
    (readCardId probe (contents card)).or (sourceDiskPtuuid probe (contents card))

/-! ## The run -/

variable {κ ρ : Type}

/-- How the reading of the source ends. -/
inductive ReadLoop (κ : Type)
  | waiting
  | aborted (e : String)
  | read (card : κ) (backup : SourceBackup)

/-- The reads, each but the first of the card that was put in for the one before. -/
def readSource (source : CardSource κ ρ) : List (κ × ρ) → κ → ρ → ReadLoop κ
  | retries, card, io =>
    match source.read io card with
    | .ok backup => .read card backup
    | .error (.abort e) => .aborted e
    | .error (.failed _) =>
      match retries with
      | [] => .waiting
      | (next, io) :: retries => readSource source retries next io

/-- `warn_network_mismatch`, with the operator's answer, unless the prompt fails. -/
def warnNetworkMismatch (backup : SourceBackup) (chain : ChainInfo) (yes : Bool)
    (answer : Option Bool) : Except String Bool :=
  if backup.sourceChainId = some chain.id then .ok true
  else if yes then .ok true
  else orError "prompt failed" answer

/-- The swaps, each with the probe of the card that was put in, up to the first that is not told to
be the source. -/
def swapTarget (source : CardSource κ ρ) (sourceId : Option String) : List (κ × Probe) → Option κ
  | [] => none
  | (card, probe) :: swaps =>
    if cardIdsMatch sourceId (source.identity probe card) then swapTarget source sourceId swaps
    else some card

/-- What the operator and the calls do: the card in the reader or put into it, the probe for write
access, the reads, the answer to a mismatch, the probe of the source's identity, the swaps, the
confirmation, and the flash. -/
structure SingleReaderIo (κ ρ : Type) where
  first : κ
  denied : Option String
  read : ρ
  retries : List (κ × ρ)
  network : Option Bool
  sourceProbe : Probe
  swaps : List (κ × Probe)
  confirmed : Option Bool
  flash : FlashIo

/-- `FlashJob`. -/
structure FlashJob where
  image : Image
  yes : Bool
  chainInfo : ChainInfo

/-- Where a run stands when it ends. -/
inductive SingleReaderEnd (κ : Type)
  | waiting
  | failed (e : String)
  | cancelled
  | flashed (card : κ) (result : Except String Target)

/-- A run: the card whose backup was taken, whether the operator was told that it cannot be
identified, and the end. -/
structure SingleReaderRun (κ : Type) where
  source : Option κ
  guardDisabled : Bool
  ending : SingleReaderEnd κ

/-- `run_single_reader_restore`. -/
def runSingleReaderRestore [JsonText] (source : CardSource κ ρ) (targets : κ → Target)
    (job : FlashJob) (io : SingleReaderIo κ ρ) : SingleReaderRun κ :=
  match io.denied with
  | some e => ⟨none, false, .failed e⟩
  | none =>
    match readSource source io.retries io.first io.read with
    | .waiting => ⟨none, false, .waiting⟩
    | .aborted e => ⟨none, false, .failed e⟩
    | .read card backup =>
      match warnNetworkMismatch backup job.chainInfo job.yes io.network with
      | .error e => ⟨some card, false, .failed e⟩
      | .ok false => ⟨some card, false, .cancelled⟩
      | .ok true =>
        let sourceId := source.identity io.sourceProbe card
        match swapTarget source sourceId io.swaps with
        | none => ⟨some card, sourceId.isNone, .waiting⟩
        | some target =>
          match runDualReaderRestore job.yes io.confirmed io.flash job.image backup
              (targets target) with
          | .failed e => ⟨some card, sourceId.isNone, .failed e⟩
          | .cancelled => ⟨some card, sourceId.isNone, .cancelled⟩
          | .flashed result => ⟨some card, sourceId.isNone, .flashed target result⟩

/-! ## The source card -/

/-- The source is not flashed, unless the operator was told. -/
def SingleReaderRun.SourceSpared (run : SingleReaderRun κ) : Prop :=
  ∀ card result, run.source = some card → run.ending = .flashed card result →
    run.guardDisabled = true

/-- The source gives, whenever it is in the reader at a swap that is looked at, the identity it gave
at the backup. -/
def Recognised (source : CardSource κ ρ) (original : κ) (id : String) : List (κ × Probe) → Prop
  | [] => True
  | (card, probe) :: swaps =>
    (card = original → source.identity probe card = some id) ∧
      (source.identity probe card = some id → Recognised source original id swaps)

/-- The run has a backup of the card, and neither a call nor the operator ends it before a flash. -/
structure Committed [JsonText] (source : CardSource κ ρ) (job : FlashJob)
    (io : SingleReaderIo κ ρ) (original : κ) (backup : SourceBackup) : Prop where
  granted : io.denied = none
  read : readSource source io.retries io.first io.read = .read original backup
  network : warnNetworkMismatch backup job.chainInfo job.yes io.network = .ok true
  keys : ∃ keys, extractNamedKeys backup.publicKeyHashs = .ok keys
  confirmed : confirmRestoreOperation job.yes io.confirmed = .ok true

theorem cardIdsMatch_iff {id : String} {other : Option String} :
    cardIdsMatch (some id) other = true ↔ other = some id := by
  cases other with
  | none => simp [cardIdsMatch]
  | some t =>
    constructor
    · intro h
      exact congrArg some (eq_of_beq h).symm
    · intro h
      exact beq_iff_eq.2 (Option.some.inj h).symm

/-- **The swaps end with another card** exactly where the source is recognised. -/
theorem swapTarget_ne_iff {source : CardSource κ ρ} {original : κ} {id : String}
    {swaps : List (κ × Probe)} :
    swapTarget source (some id) swaps ≠ some original ↔ Recognised source original id swaps := by
  induction swaps with
  | nil => simp [swapTarget, Recognised]
  | cons swap swaps ih =>
    obtain ⟨card, probe⟩ := swap
    rw [swapTarget, Recognised]
    by_cases hmatch : source.identity probe card = some id
    · rw [if_pos (cardIdsMatch_iff.2 hmatch), ih]
      constructor
      · intro hrest
        exact ⟨fun _ => hmatch, fun _ => hrest⟩
      · intro h
        exact h.2 hmatch
    · rw [if_neg fun h => hmatch (cardIdsMatch_iff.1 h)]
      constructor
      · intro hne
        refine ⟨fun heq => ?_, fun h => absurd h hmatch⟩
        exact absurd (congrArg some heq) hne
      · rintro ⟨hsame, -⟩ heq
        exact hmatch (hsame (Option.some.inj heq))

section

variable [JsonText] {source : CardSource κ ρ} {targets : κ → Target} {job : FlashJob}
  {io : SingleReaderIo κ ρ}

/-- The flash of a run that neither a call nor the operator ends. -/
theorem Committed.flashes {original : κ} {backup : SourceBackup}
    (h : Committed source job io original backup) {target : κ}
    (htarget : swapTarget source (source.identity io.sourceProbe original) io.swaps =
      some target) :
    runSingleReaderRestore source targets job io =
      ⟨some original, (source.identity io.sourceProbe original).isNone,
        .flashed target (flashKeyed io.flash job.image (targets target))⟩ := by
  obtain ⟨keys, hkeys⟩ := h.keys
  have hdual : runDualReaderRestore job.yes io.confirmed io.flash job.image backup
      (targets target) = .flashed (flashKeyed io.flash job.image (targets target)) := by
    rw [runDualReaderRestore, hkeys, h.confirmed]
  rw [runSingleReaderRestore, h.granted]
  dsimp only
  rw [h.read]
  dsimp only
  rw [h.network]
  dsimp only
  rw [htarget]
  dsimp only
  rw [hdual]

/-- A run that flashes. -/
theorem committed_of_flashed {target : κ} {result : Except String Target}
    (h : (runSingleReaderRestore source targets job io).ending = .flashed target result) :
    ∃ original backup, Committed source job io original backup ∧
      swapTarget source (source.identity io.sourceProbe original) io.swaps = some target := by
  unfold runSingleReaderRestore at h
  cases hdenied : io.denied with
  | some e =>
    rw [hdenied] at h
    cases h
  | none =>
    rw [hdenied] at h
    cases hread : readSource source io.retries io.first io.read with
    | waiting =>
      rw [hread] at h
      cases h
    | aborted e =>
      rw [hread] at h
      cases h
    | read original backup =>
      rw [hread] at h
      dsimp only at h
      rcases hnetwork : warnNetworkMismatch backup job.chainInfo job.yes io.network with e | _ | _
      · rw [hnetwork] at h
        cases h
      · rw [hnetwork] at h
        cases h
      · rw [hnetwork] at h
        dsimp only at h
        cases hswap : swapTarget source (source.identity io.sourceProbe original) io.swaps with
        | none =>
          rw [hswap] at h
          cases h
        | some card =>
          rw [hswap] at h
          dsimp only [runDualReaderRestore] at h
          cases hkeys : extractNamedKeys backup.publicKeyHashs with
          | error e =>
            rw [hkeys] at h
            cases h
          | ok keys =>
            rw [hkeys] at h
            dsimp only at h
            rcases hconfirm : confirmRestoreOperation job.yes io.confirmed with e | _ | _
            · rw [hconfirm] at h
              cases h
            · rw [hconfirm] at h
              cases h
            · rw [hconfirm] at h
              cases h
              exact ⟨original, backup, ⟨hdenied, hread, hnetwork, ⟨keys, hkeys⟩, hconfirm⟩, hswap⟩

/-- When a source card is spared, whatever it is told by. -/
theorem sourceSpared_iff : (runSingleReaderRestore source targets job io).SourceSpared ↔
    ∀ original backup id, Committed source job io original backup →
      source.identity io.sourceProbe original = some id →
        Recognised source original id io.swaps := by
  constructor
  · intro hspared original backup id hcommitted hid
    rw [← swapTarget_ne_iff]
    intro htarget
    rw [← hid] at htarget
    have hrun : runSingleReaderRestore source targets job io = _ := hcommitted.flashes htarget
    have htold := hspared original _ (by rw [hrun]) (by rw [hrun])
    rw [hrun, hid] at htold
    cases htold
  · intro hrecognised card result hsource hending
    obtain ⟨original, backup, hcommitted, htarget⟩ := committed_of_flashed hending
    have hrun : runSingleReaderRestore source targets job io = _ := hcommitted.flashes htarget
    rw [hrun] at hsource hending ⊢
    cases hsource
    cases hending
    cases hid : source.identity io.sourceProbe card with
    | none => rfl
    | some id =>
      rw [hid] at htarget
      exact absurd htarget (swapTarget_ne_iff.2 (hrecognised card backup id hcommitted hid))

/-- **When the source card is spared**: exactly where, once it was identified at its backup, every
probe of it after a swap that is looked at gives the same identity, in the runs that nothing else
ends before the flash. -/
theorem source_spared_iff (p3Path : String) (contents : κ → SourceCard) (targets : κ → Target)
    (job : FlashJob) (io : SingleReaderIo κ ReadIo) :
    (runSingleReaderRestore (restoreSource p3Path contents) targets job io).SourceSpared ↔
      ∀ original backup id, Committed (restoreSource p3Path contents) job io original backup →
        (restoreSource p3Path contents).identity io.sourceProbe original = some id →
          Recognised (restoreSource p3Path contents) original id io.swaps :=
  sourceSpared_iff

end

section

attribute [local instance] plainJson

/-- A card that was set up, with a manifest and a partition table. -/
def setUpCard : SourceCard where
  keys := some {
    entries := [("secret_keys.enc.v2", [0]), ("public_keys", []),
      ("public_key_hashs", Crypto.asBytes "[]")]
    distinct := by decide }
  cardId := some "a1b2c3d4e5f6a7b8a1b2c3d4e5f6a7b8"
  ptuuid := some "00c0ffee"

/-- A table without partitions, and a card and an image with it. -/
def noPartitions : Table := ⟨[], by decide, List.Pairwise.nil⟩

def blankTarget : Target := ⟨noPartitions, noPartitions, fun _ => none, []⟩

def blankImage : Image where
  table := noPartitions
  sectors := 0
  volumes _ := none
  inside := by decide
  partitioned o v h := by cases h

def blankJob : FlashJob := ⟨blankImage, true, mainnetChain 1⟩

/-- The source is put in again, and its manifest cannot be read this time. -/
def rereadIo : SingleReaderIo Unit ReadIo where
  first := ()
  denied := none
  read := ⟨none, ⟨true, true⟩⟩
  retries := []
  network := none
  sourceProbe := ⟨true, true⟩
  swaps := [((), ⟨false, true⟩)]
  confirmed := none
  flash := ⟨false, ⟨false, false⟩, ⟨false, false⟩, 0, fun _ => true⟩

/-- **The source is flashed**: it was told by its manifest, and is told by its partition table. -/
theorem source_flashed : ¬∀ [JsonText] (κ : Type) (p3Path : String) (contents : κ → SourceCard)
    (targets : κ → Target) (job : FlashJob) (io : SingleReaderIo κ ReadIo),
    (runSingleReaderRestore (restoreSource p3Path contents) targets job io).SourceSpared := by
  intro hall
  obtain ⟨source, hsource⟩ : ∃ source : CardSource Unit ReadIo,
    source = restoreSource "/dev/sdb3" fun _ => setUpCard := ⟨_, rfl⟩
  have hbackup : ((readSourceCard "/dev/sdb3" setUpCard.cardId setUpCard).toOption.map fun b =>
      (b.publicKeyHashs, b.sourceChainId)) = some (Crypto.asBytes "[]", none) := by
    decide +kernel
  obtain ⟨backup, hread, hfields⟩ := Option.map_eq_some_iff.1 hbackup
  obtain ⟨hhashs, hchain⟩ := Prod.mk.inj hfields
  have hread' : readSourceCard "/dev/sdb3" setUpCard.cardId setUpCard = .ok backup := by
    cases h : readSourceCard "/dev/sdb3" setUpCard.cardId setUpCard with
    | error e =>
      rw [h] at hread
      cases hread
    | ok b =>
      rw [h] at hread
      cases hread
      rfl
  have hkeys : extractNamedKeys (Crypto.asBytes "[]") = .ok [] := by decide +kernel
  have hcommitted : Committed source blankJob rereadIo () backup := by
    refine ⟨rfl, ?_, ?_, ⟨[], by rw [hhashs, hkeys]⟩, rfl⟩
    · rw [hsource]
      change readSource _ [] () rereadIo.read = _
      rw [readSource]
      simp only [restoreSource, rereadIo, readCardId, if_true, hread', Except.mapError]
    · rw [warnNetworkMismatch, hchain]
      rfl
  have htarget : swapTarget source (source.identity rereadIo.sourceProbe ()) rereadIo.swaps =
      some () := by
    rw [hsource]
    decide +kernel
  have hrun : runSingleReaderRestore source (fun _ => blankTarget) blankJob rereadIo = _ :=
    hcommitted.flashes htarget
  have htold := hall Unit "/dev/sdb3" (fun _ => setUpCard) (fun _ => blankTarget) blankJob
    rereadIo
  rw [← hsource, hrun] at htold
  have hnone := htold () _ rfl rfl
  rw [hsource] at hnone
  exact absurd hnone (by decide +kernel)

end

end Russignol.Host
