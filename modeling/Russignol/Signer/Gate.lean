import Russignol.Signer.TestUtils

/-!
# The two gates of a consensus request

A consensus request must not be signed without its watermark, and a request whose mark is missing
must raise the recovery dialog. The code meets each under a condition, and only under it. A body
too short to name its chain has no watermark check (`RequestHandler.watermarked_iff`); and the
precheck for a missing mark looks at the three marks of the key together, so that a mark of
another operation type hides the missing one (`RequestHandler.missing_offered_iff`).
-/

namespace Russignol

open Bytes FloorRegister

section

variable [Blake3]

namespace Store

omit [Blake3] in
/-- The highest level is missing exactly where all three marks are. -/
theorem getMaxLevel_eq_none (s : Store) (pkh : PublicKeyHash) :
    s.wm.getMaxLevel pkh = none ↔ ∀ t, s.mem pkh t = none := by
  simp only [HighWatermark.getMaxLevel, mem]
  cases s.wm.keys pkh with
  | none => simp
  | some perKey =>
    simp only [Option.bind_some, List.max?_eq_none_iff, List.filterMap_eq_nil_iff,
      Option.map_eq_none_iff]
    exact ⟨fun h t => h t (OperationType.mem_all t), fun h t _ => h t⟩

variable [Base58]

/-- A request that is signed under the lock keeps the mark the check gave it. -/
theorem mem_signAndPersist {io : SignIo} {u : WatermarkUpdate} {s s' : Store}
    {signature : Signature} (h : s.signAndPersist io u = (.ok signature, s'))
    (k : PublicKeyHash) (t : OperationType) : s'.mem k t = s.mem k t := by
  have hpersist : (s.persistUpdate io u).2.mem k t = s.mem k t := by
    rw [persistUpdate]
    split
    · rfl
    · exact mem_persist _ _ _ _ _ _ _ _
  rw [signAndPersist] at h
  generalize s.persistUpdate io u = r at h hpersist
  obtain ⟨r, s₁⟩ := r
  cases r with
  | error e => cases h
  | ok _ =>
    cases hsign : io.sign with
    | error e => simp only [hsign] at h; cases h
    | ok _ => simp only [hsign] at h; cases h; exact hpersist

end Store

variable [Base58]

/-- A signature that its watermark stands behind: the request names the provisioned chain, the
check of that request succeeded for its key, and the mark was advanced, strictly, to the level and
round of the data. -/
def SignedUnderWatermark (h : RequestHandler) (io : SignIo) (pkh : PublicKeyHash)
    (data : List UInt8) (s : Store) (reply : Reply) : Prop :=
  ∃ chainId t x current s', (parseSignPayload data).chainId = some chainId ∧
    h.provisionedChainId = some chainId ∧ markOf data = some (t, x) ∧
    s.checkAndUpdate io.load chainId pkh data =
      (.ok (some ⟨pkh, t, x.level, x.round, some current⟩), s') ∧
    current < x ∧ reply.store.mem pkh t = some x

namespace RequestHandler

/-- The check on a body that parses is the check on its level and round. -/
theorem checkAndUpdate_of_markOf {data : List UInt8} {t : OperationType} {x : WatermarkEntry}
    (h : markOf data = some (t, x)) (fault : Option LoadFault) (chainId : ChainId)
    (pkh : PublicKeyHash) (s : Store) :
    s.checkAndUpdate fault chainId pkh data =
      s.checkAndUpdateParsed fault chainId pkh t x.level x.round := by
  cases data with
  | nil => cases h
  | cons magicByte rest =>
    simp only [markOf, Option.bind_eq_some_iff, Option.map_eq_some_iff] at h
    obtain ⟨t', ht, ⟨level, round⟩, hlr, heq⟩ := h
    cases heq
    cases hparse : MagicBytes.levelRoundOf t (magicByte :: rest) with
    | error e => rw [hparse] at hlr; cases hlr
    | ok lr =>
      rw [hparse] at hlr
      cases hlr
      simp only [Store.checkAndUpdate, ht, hparse]

omit [Blake3] [Base58] in
/-- A consensus body names its chain exactly when it has the five bytes for it. -/
theorem chainId_eq_none_iff {data : List UInt8} {magic : UInt8} (hmagic : magic ∈ MagicBytes.all)
    (hhead : data.head? = some magic) : (parseSignPayload data).chainId = none ↔ data.length < 5 := by
  cases data with
  | nil => cases hhead
  | cons magicByte rest =>
    cases hhead
    have hbyte : magic = 0x11 ∨ magic = 0x12 ∨ magic = 0x13 := by
      simpa only [MagicBytes.all, List.mem_cons, List.not_mem_nil, or_false] using hmagic
    have hop : (magic :: rest)[0] = 0x11 ∨ (magic :: rest)[0] = 0x12 ∨
        (magic :: rest)[0] = 0x13 := hbyte
    simp only [parseSignPayload, MagicBytes.getChainIdForTenderbake, Option.map_eq_none_iff]
    constructor
    · intro h
      by_contra hlen
      rw [dif_neg hlen, if_pos hop] at h
      cases h
    · exact fun hlen => dif_pos hlen

omit [Blake3] [Base58] in
/-- A body that names a chain starts with a magic byte that is signed. -/
theorem checkMagicByte_of_chain {data : List UInt8} {chain : ChainId}
    (h : (parseSignPayload data).chainId = some chain) :
    MagicBytes.checkMagicByte data (some MagicBytes.all) = .ok () := by
  cases data with
  | nil => cases h
  | cons magicByte rest =>
    obtain ⟨four, hfour, -⟩ := Option.map_eq_some_iff.1 h
    exact MagicBytes.checkMagicByte_of_chain hfour

/-- A body that names no chain is signed with no check at all. -/
theorem handleSign_of_no_chain {h : RequestHandler} {pkh : PublicKeyHash} {data : List UInt8}
    (hmagic : MagicBytes.checkMagicByte data h.allowedMagicBytes = .ok ())
    (hheld : (h.keys.signers.lookup pkh).isSome)
    (hchain : (parseSignPayload data).chainId = none) (seen : HighWatermark) (io : SignIo)
    (s : Store) : h.handleSign seen io pkh data s =
      h.justSign io (h.keyName pkh) data (parseSignPayload data) s := by
  have hgate : h.chainGate pkh (parseSignPayload data) = none := by
    simp only [chainGate, hchain]
  have hpre : h.precheck seen pkh (parseSignPayload data) = none := by
    simp only [precheck, hchain]
  rcases h.handleSign_cases seen io pkh data s with ⟨hrefused, -⟩ | ⟨-, -, heq⟩ |
    ⟨chainId, -, hsome, -⟩
  · exact absurd ⟨hmagic, hheld, hgate, hpre⟩ hrefused
  · exact heq
  · cases hchain.symm.trans hsome

/-- A request whose BLS signature fails is refused. -/
theorem result_of_sign_error {h : RequestHandler} {io : SignIo} {e : SignerError}
    (hsign : io.sign = .error e) (seen : HighWatermark) (pkh : PublicKeyHash) (data : List UInt8)
    (s : Store) (v : Signature × Option ChainId) :
    (h.handleSign seen io pkh data s).result ≠ .ok v := by
  have hplain : ∀ s', (h.justSign io (h.keyName pkh) data (parseSignPayload data) s').result ≠
      .ok v := by
    intro s'
    rw [justSign, hsign]
    intro hok
    cases hok
  rcases h.handleSign_cases seen io pkh data s with ⟨-, _, _, heq⟩ | ⟨-, -, heq⟩ |
    ⟨chainId, -, -, -, heq⟩
  · rw [heq]
    intro hok
    cases hok
  · rw [heq]
    exact hplain s
  · rw [heq, signWatermarked]
    split
    · intro hok
      cases hok
    · exact hplain _
    · next u s' _ =>
      have hfail : ∀ signature s'', s'.signAndPersist io u ≠ (.ok signature, s'') := by
        intro signature s'' h'
        rw [Store.signAndPersist] at h'
        split at h'
        · cases h'
        · rw [hsign] at h'
          cases h'
      split
      · intro hok
        cases hok
      · next signature s'' h' => exact absurd h' (hfail signature s'')

/-- **A consensus request is signed under its watermark exactly when its body can name a chain**:
no signature is returned without the check, but for the bodies of less than five bytes, whose
signature, for a held key, is returned with no check at all. -/
theorem watermarked_iff (h : RequestHandler) (hw : h.watermark = true) (s : Store)
    (hprovisioned : h.provisionedChainId = some s.wm.chainId)
    (hallowed : h.allowedMagicBytes = some MagicBytes.all) (seen : HighWatermark) (io : SignIo)
    (pkh : PublicKeyHash) (data : List UInt8) (magic : UInt8) (hmagic : magic ∈ MagicBytes.all)
    (hhead : data.head? = some magic) :
    (∀ v, (h.handleSign seen io pkh data s).result = .ok v →
        SignedUnderWatermark h io pkh data s (h.handleSign seen io pkh data s)) ↔
      5 ≤ data.length ∨ h.keys.signers.lookup pkh = none ∨ ∃ e, io.sign = .error e := by
  constructor
  · intro hsigned
    by_contra hnot
    rw [not_or, not_or, not_le] at hnot
    obtain ⟨hlen, hkey, hsign⟩ := hnot
    have hchain := (chainId_eq_none_iff hmagic hhead).2 hlen
    have hbyte : MagicBytes.checkMagicByte data h.allowedMagicBytes = .ok () := by
      rw [hallowed]
      exact MagicBytes.checkMagicByte_of_head hhead hmagic
    have heq := handleSign_of_no_chain hbyte (Option.isSome_iff_ne_none.2 hkey) hchain seen io s
    cases hio : io.sign with
    | error e => exact hsign ⟨e, hio⟩
    | ok signature =>
      have hok : (h.handleSign seen io pkh data s).result =
          .ok (signature, (parseSignPayload data).chainId) := by
        rw [heq, justSign, hio]
        rfl
      obtain ⟨chainId, -, -, -, -, hsome, -⟩ := hsigned _ hok
      cases hchain.symm.trans hsome
  · intro hcond v hok
    rcases h.handleSign_cases seen io pkh data s with ⟨-, _, _, heq⟩ | ⟨hadmits, hplain, heq⟩ |
      ⟨chainId, hadmits, hchain, -, heq⟩
    · rw [heq] at hok
      cases hok
    · exfalso
      rcases hcond with hlen | hkey | ⟨e, hsign⟩
      · rcases hplain with hnone | hoff
        · exact absurd ((chainId_eq_none_iff hmagic hhead).1 hnone) (not_lt.2 hlen)
        · cases hw.symm.trans hoff
      · have hheld := hadmits.held
        rw [hkey] at hheld
        cases hheld
      · exact result_of_sign_error hsign seen pkh data s v hok
    · have hgate : chainId = s.wm.chainId := by
        by_contra hne
        have := hadmits.chain
        simp only [chainGate, hchain, hprovisioned, ne_eq, hne, not_false_eq_true, if_true] at this
        cases this
      rw [heq, signWatermarked] at hok ⊢
      rcases Store.check_cases io pkh hchain s with ⟨e, s', hcheck, -⟩ |
        ⟨t, level, round, s', m, hmark, hcheck, -, hmem, hlt⟩
      · rw [hcheck] at hok
        cases hok
      · simp only [hcheck] at hok ⊢
        have hcheck' := checkAndUpdate_of_markOf hmark io.load chainId pkh s
        obtain ⟨ht, hl, hr⟩ := parseSignPayload_of_markOf hmark
        simp only [Store.check, ht, hl, hr] at hcheck
        generalize hr' : Store.signAndPersist io ⟨pkh, t, level, round, some m⟩
          { s' with wm := s'.wm.setEntry pkh t (some ⟨level, round⟩) } = r at hok
        obtain ⟨r, s''⟩ := r
        cases r with
        | error e => cases hok
        | ok signature =>
          refine ⟨chainId, t, ⟨level, round⟩, m, _, hchain, hgate ▸ hprovisioned, hmark,
            hcheck'.trans hcheck, hlt, ?_⟩
          have hmem' : Store.mem { s' with wm := s'.wm.setEntry pkh t (some ⟨level, round⟩) } pkh t =
              some ⟨level, round⟩ := congrArg Register.mem (Store.mem_setEntry hmem _ [])
          exact (Store.mem_signAndPersist hr' pkh t).trans hmem'

/-! ## The missing mark -/

omit [Blake3] in
/-- The precheck of a well-formed request, where the missing-watermark callback is installed: it
fires where the key has no mark at all, and otherwise at most the large-gap callback does. -/
theorem precheck_of_missing {h : RequestHandler} (hw : h.watermark = true)
    (hmissing : h.missingWatermarkCallback = true) {pkh : PublicKeyHash} {data : List UInt8}
    {t : OperationType} {x : WatermarkEntry} {chainId : ChainId} (hmark : markOf data = some (t, x))
    (hchain : (parseSignPayload data).chainId = some chainId) (s : Store) :
    ((∀ t', s.mem pkh t' = none) ∧ h.precheck s.wm pkh (parseSignPayload data) =
      some (.watermark (.notInitialized chainId.toB58check pkh.toB58check),
        [.missingWatermark pkh chainId x.level])) ∨
    (∃ t' m, s.mem pkh t' = some m) ∧
      (h.precheck s.wm pkh (parseSignPayload data) = none ∨
        ∃ e current, h.precheck s.wm pkh (parseSignPayload data) =
          some (e, [.largeGap pkh chainId current x.level])) := by
  obtain ⟨-, hlevel, -⟩ := parseSignPayload_of_markOf hmark
  simp only [precheck, hchain, hw, hlevel, hmissing, Bool.or_true, if_true,
    HighWatermark.getCurrentLevel]
  cases hmax : s.wm.getMaxLevel pkh with
  | none => exact .inl ⟨(Store.getMaxLevel_eq_none s pkh).1 hmax, rfl⟩
  | some current =>
    right
    constructor
    · by_contra hnone
      simp only [not_exists] at hnone
      have hall : ∀ t', s.mem pkh t' = none := fun t' =>
        Option.eq_none_iff_forall_ne_some.2 (hnone t')
      cases ((Store.getMaxLevel_eq_none s pkh).2 hall).symm.trans hmax
    · dsimp only
      generalize (if current ≤ x.level then x.level - current else 0) = gap
      split
      · by_cases hgap : gap > largeGapCycles * h.blocksPerCycle.getD 0
        · rw [if_pos hgap]
          exact .inr ⟨_, current, rfl⟩
        · rw [if_neg hgap]
          exact .inl rfl
      · exact .inl rfl

/-- **A missing mark raises the recovery dialog exactly when the key has no mark at all**: a mark
of another operation type, at whatever level, hides the missing one from the precheck, and the
refusal that follows fires another callback. -/
theorem missing_offered_iff (h : RequestHandler) (hw : h.watermark = true) (s : Store)
    (hprovisioned : h.provisionedChainId = some s.wm.chainId)
    (hallowed : h.allowedMagicBytes = some MagicBytes.all)
    (hmissing : h.missingWatermarkCallback = true) (io : SignIo) (pkh : PublicKeyHash)
    (hheld : (h.keys.signers.lookup pkh).isSome) (data : List UInt8)
    (hchain : (parseSignPayload data).chainId = some s.wm.chainId) (t : OperationType)
    (x : WatermarkEntry) (hmark : markOf data = some (t, x)) (_habsent : s.mem pkh t = none) :
    ((∃ e, (h.handleSign s.wm io pkh data s).result = .error e) ∧
        .missingWatermark pkh s.wm.chainId x.level ∈
          (h.handleSign s.wm io pkh data s).callbacks) ↔
      ∀ t', s.mem pkh t' = none := by
  obtain ⟨ht, hl, hr⟩ := parseSignPayload_of_markOf hmark
  have hbyte : MagicBytes.checkMagicByte data h.allowedMagicBytes = .ok () := by
    rw [hallowed]
    exact checkMagicByte_of_chain hchain
  have hgate : h.chainGate pkh (parseSignPayload data) = none := by
    simp only [chainGate, hchain, hprovisioned, ne_eq, not_true_eq_false, if_false]
  obtain ⟨signer, hkey⟩ := Option.isSome_iff_exists.1 hheld
  rcases precheck_of_missing hw hmissing hmark hchain s with ⟨hall, hpre⟩ | ⟨hsome, hpre⟩
  · -- no mark at all
    refine iff_of_true ⟨⟨.watermark (.notInitialized s.wm.chainId.toB58check pkh.toB58check), ?_⟩,
      ?_⟩ hall
    · simp only [handleSign, hbyte, resolveSigner, hkey, hgate, hpre]
      rfl
    · simp only [handleSign, hbyte, resolveSigner, hkey, hgate, hpre]
      exact List.mem_singleton.2 rfl
  · -- a sibling mark: no path fires the callback
    refine iff_of_false ?_ fun hall => ?_
    · rintro ⟨-, hmem⟩
      rcases hpre with hpre | ⟨e, current, hpre⟩
      · have hrefused : h.handleSign s.wm io pkh data s =
            h.signWatermarked io s.wm.chainId pkh (h.keyName pkh) data (parseSignPayload data) s := by
          simp only [handleSign, hbyte, resolveSigner, hkey, hgate, hpre, hchain, hw]
        rw [hrefused, signWatermarked] at hmem
        rcases Store.check_cases io pkh hchain s with ⟨e, s', hcheck, -⟩ |
          ⟨t', level, round, s', m, hmark', hcheck, -, -, -⟩
        · simp only [hcheck, Reply.refuse, Callback.fire] at hmem
          split at hmem
          · cases List.mem_singleton.1 hmem
          · cases hmem
        · simp only [hcheck] at hmem
          split at hmem
          · cases hmem
          · simp only [finish, Callback.fire] at hmem
            split at hmem
            · cases List.mem_singleton.1 hmem
            · cases hmem
      · simp only [handleSign, hbyte, resolveSigner, hkey, hgate, hpre, Reply.refuse] at hmem
        cases List.mem_singleton.1 hmem
    · obtain ⟨t', m, hm⟩ := hsome
      cases (hall t').symm.trans hm

end RequestHandler

end

namespace RequestHandler

attribute [local instance] plainBlake3 plainBase58

/-- An attestation of level 101 over marks at level 100 is signed, under its watermark. -/
theorem watermarked_attestation :
    let s : Store := ⟨testWatermark [testKey 1] 100, testDisk [testKey 1] 100⟩
    let data := createAttestationDataWithChain testChainBytes 101 0
    let h := (testCard [testKey 1] 10).handler
    SignedUnderWatermark h SignIo.quiet (testKey 1) data s
      (h.handleSign s.wm SignIo.quiet (testKey 1) data s) :=
  (watermarked_iff (testCard [testKey 1] 10).handler rfl
    ⟨testWatermark [testKey 1] 100, testDisk [testKey 1] 100⟩ rfl rfl
    (testWatermark [testKey 1] 100) SignIo.quiet (testKey 1)
    (createAttestationDataWithChain testChainBytes 101 0) 0x13 (by decide) rfl).2
    (.inl (by decide)) (zeros 96, some testChain) (by rfl)

/-- **A body of one byte is signed with no watermark check**: the magic byte of a block, alone. -/
theorem bare_magic_byte_signed : ¬∀ [Blake3] [Base58] (h : RequestHandler) (s : Store)
    (seen : HighWatermark) (io : SignIo) (pkh : PublicKeyHash) (data : List UInt8) (magic : UInt8),
    h.watermark = true → h.provisionedChainId = some s.wm.chainId →
    h.allowedMagicBytes = some MagicBytes.all → magic ∈ MagicBytes.all →
    data.head? = some magic → ∀ v, (h.handleSign seen io pkh data s).result = .ok v →
      SignedUnderWatermark h io pkh data s (h.handleSign seen io pkh data s) := by
  intro hclaim
  obtain ⟨chainId, _, _, _, _, hchain, _⟩ := hclaim (testCard [testKey 1] 10).handler
    ⟨testWatermark [testKey 1] 100, testDisk [testKey 1] 100⟩ (testWatermark [testKey 1] 100)
    SignIo.quiet (testKey 1) [0x11] 0x11 rfl rfl rfl (by decide) rfl (zeros 96, none) rfl
  cases hchain

/-- On a card with no record at all the recovery dialog is offered. -/
theorem missing_offered_fresh_card :
    let s : Store := ⟨⟨[testKey 1], fun _ => none, testMacKeys [testKey 1], testChain⟩,
      ⟨fun _ => false, fun _ _ => [], []⟩⟩
    let reply := (testCard [testKey 1] 10).handler.handleSign s.wm SignIo.quiet (testKey 1)
      (createAttestationDataWithChain testChainBytes 101 0) s
    (∃ e, reply.result = .error e) ∧
      .missingWatermark (testKey 1) testChain 101 ∈ reply.callbacks :=
  (missing_offered_iff (testCard [testKey 1] 10).handler rfl
    ⟨⟨[testKey 1], fun _ => none, testMacKeys [testKey 1], testChain⟩,
      ⟨fun _ => false, fun _ _ => [], []⟩⟩ rfl rfl rfl SignIo.quiet (testKey 1) (by decide +kernel)
    (createAttestationDataWithChain testChainBytes 101 0) rfl .attestation ⟨101, 0⟩
    (markOf_createAttestationData testChainBytes 101 0) rfl).2 fun _ => rfl

/-- A disk whose attestation record was cut short by a power loss. -/
def tornDisk : Disk :=
  (testDisk [testKey 1] 100).setFile (testKey 1) .attestation
    (((testDisk [testKey 1] 100).files (testKey 1) .attestation).take 40)

/-- **One unreadable record is not offered for recovery**: with the two sibling records at level
100, an attestation of level 101 is refused and the missing-watermark callback does not fire. -/
theorem torn_record_not_offered : ¬∀ [Blake3] [Base58] (card : Card) (io : LoadIo) (disk : Disk)
    (wm : HighWatermark), (Device.boot card io disk []).proc = some wm →
    card.handler.allowedMagicBytes = some MagicBytes.all →
    card.handler.missingWatermarkCallback = true → ∀ (io : SignIo) (pkh : PublicKeyHash),
    (card.handler.keys.signers.lookup pkh).isSome → ∀ (data : List UInt8),
    (parseSignPayload data).chainId = some card.chainId → ∀ t x, markOf data = some (t, x) →
    Store.mem ⟨wm, disk⟩ pkh t = none →
    (∃ e, (card.handler.handleSign wm io pkh data ⟨wm, disk⟩).result = .error e) ∧
      .missingWatermark pkh card.chainId x.level ∈
        (card.handler.handleSign wm io pkh data ⟨wm, disk⟩).callbacks := by
  intro hclaim
  have hrun : (Device.boot (testCard [testKey 1] 10) LoadIo.quiet tornDisk []).proc.map
      (fun wm => (Store.mem ⟨wm, tornDisk⟩ (testKey 1) .attestation,
        decide (.missingWatermark (testKey 1) testChain 101 ∈
          ((testCard [testKey 1] 10).handler.handleSign wm SignIo.quiet (testKey 1)
            (createAttestationDataWithChain testChainBytes 101 0) ⟨wm, tornDisk⟩).callbacks))) =
      some (none, false) := by decide +kernel
  obtain ⟨wm, hproc, hwm⟩ := Option.map_eq_some_iff.1 hrun
  obtain ⟨habsent, hcallbacks⟩ := Prod.mk.inj hwm
  have hoffered := (hclaim (testCard [testKey 1] 10) LoadIo.quiet tornDisk wm hproc rfl rfl
    SignIo.quiet (testKey 1) (by decide +kernel)
    (createAttestationDataWithChain testChainBytes 101 0) rfl .attestation ⟨101, 0⟩
    (markOf_createAttestationData testChainBytes 101 0) habsent).2
  exact absurd hoffered (of_decide_eq_false hcallbacks)

end RequestHandler

end Russignol
