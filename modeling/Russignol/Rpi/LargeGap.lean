import Russignol.Rpi.WatermarkSetup
import Russignol.Signer.FloorMarks

/-!
# The large gap

A request whose level is more than four cycles above the mark is refused and shown to the operator.
The four cycles are a product of 32 bits, of a number that `validate_config` does not look at: where
it wraps around, the refusal is against a smaller gap. When the refusal is exact:
`large_gap_exact_iff`.
-/

namespace Russignol

open Bytes

section

variable [Blake3] [Base58]

namespace RequestHandler

/-- A request that gets to the gap: the gates before are passed, the callback is installed for the
length of a cycle, and the key has a level. -/
structure GapChecked (h : RequestHandler) (seen : HighWatermark) (pkh : PublicKeyHash)
    (data : List UInt8) (chainId : ChainId) (blocksPerCycle current requested : UInt32) : Prop where
  magic : MagicBytes.checkMagicByte data h.allowedMagicBytes = .ok ()
  held : (h.keys.signers.lookup pkh).isSome
  gate : h.chainGate pkh (parseSignPayload data) = none
  chain : (parseSignPayload data).chainId = some chainId
  level : (parseSignPayload data).level = some requested
  watermark : h.watermark = true
  callback : h.largeGapCallback = true
  cycle : h.blocksPerCycle = some blocksPerCycle
  positive : 0 < blocksPerCycle
  current : seen.getCurrentLevel chainId pkh = some current

/-- A request is refused for a gap, and the gap is shown. -/
def RefusedForGap (reply : Reply) (pkh : PublicKeyHash) (chainId : ChainId)
    (current requested gap cycles : UInt32) : Prop :=
  reply.result = .error (.watermark (.largeLevelGap current requested gap cycles)) ∧
    .largeGap pkh chainId current requested ∈ reply.callbacks

omit [Blake3] [Base58] in
/-- The difference that saturates, as a number. -/
theorem toNat_gap (current requested : UInt32) :
    (if current ≤ requested then requested - current else 0).toNat =
      requested.toNat - current.toNat := by
  split
  · rename_i hle
    exact UInt32.toNat_sub_of_le _ _ hle
  · rename_i hlt
    have := UInt32.lt_iff_toNat_lt.1 (UInt32.not_le.1 hlt)
    rw [Nat.sub_eq_zero_of_le (by omega)]
    rfl

omit [Blake3] [Base58] in
/-- The product that wraps around, as a number. -/
theorem toNat_threshold (blocksPerCycle : UInt32) :
    (largeGapCycles * blocksPerCycle).toNat = 4 * blocksPerCycle.toNat % 2 ^ 32 := by
  rw [UInt32.toNat_mul]
  rfl

variable {h : RequestHandler} {seen : HighWatermark} {pkh : PublicKeyHash} {data : List UInt8}
  {chainId : ChainId} {blocksPerCycle current requested : UInt32}

omit [Blake3] in
/-- The check of the gap. -/
theorem precheck_of_gapChecked
    (hgap : h.GapChecked seen pkh data chainId blocksPerCycle current requested) :
    h.precheck seen pkh (parseSignPayload data) =
      let gap := if current ≤ requested then requested - current else 0
      if gap > largeGapCycles * blocksPerCycle then
        some (.watermark (.largeLevelGap current requested gap (gap / blocksPerCycle)),
          [.largeGap pkh chainId current requested])
      else none := by
  have hpositive : decide (blocksPerCycle > 0) = true := decide_eq_true hgap.positive
  simp only [precheck, hgap.chain, hgap.watermark, hgap.level, hgap.callback, hgap.cycle,
    Option.any_some, hpositive, Bool.and_self, Bool.true_or, if_true, hgap.current,
    Option.getD_some]

/-- Under the write lock no gap is shown. -/
theorem largeGap_notMem_signWatermarked (io : SignIo) (keyName : String) (s : Store) :
    .largeGap pkh chainId current requested ∉
      (h.signWatermarked io chainId pkh keyName data (parseSignPayload data) s).callbacks := by
  have hfinish : ∀ signature ceiling s, .largeGap pkh chainId current requested ∉
      (h.finish keyName data (parseSignPayload data) signature ceiling s).callbacks := by
    intro signature ceiling s hmem
    unfold finish Callback.fire at hmem
    dsimp only at hmem
    split at hmem
    · cases List.mem_singleton.1 hmem
    · cases hmem
  intro hmem
  unfold signWatermarked at hmem
  split at hmem
  · unfold Reply.refuse Callback.fire at hmem
    dsimp only at hmem
    split at hmem
    · cases List.mem_singleton.1 hmem
    · cases hmem
  · unfold justSign at hmem
    split at hmem
    · cases hmem
    · exact hfinish _ _ _ hmem
  · split at hmem
    · cases hmem
    · exact hfinish _ _ _ hmem

/-- **The refusal as the code decides it**, against the product that wraps around. -/
theorem refusedForGap_iff
    (hgap : h.GapChecked seen pkh data chainId blocksPerCycle current requested) (io : SignIo)
    (s : Store) (gap cycles : UInt32) :
    RefusedForGap (h.handleSign seen io pkh data s) pkh chainId current requested gap cycles ↔
      4 * blocksPerCycle.toNat % 2 ^ 32 < requested.toNat - current.toNat ∧
        gap.toNat = requested.toNat - current.toNat ∧ cycles = gap / blocksPerCycle := by
  obtain ⟨signer, hsigner⟩ := Option.isSome_iff_exists.1 hgap.held
  have hpre := precheck_of_gapChecked hgap
  have hnat := toNat_gap current requested
  have hthreshold := toNat_threshold blocksPerCycle
  obtain ⟨exact, hexact⟩ : ∃ g, g = if current ≤ requested then requested - current else 0 :=
    ⟨_, rfl⟩
  rw [← hexact] at hpre hnat
  unfold handleSign
  simp only [hgap.magic, resolveSigner, hsigner, hgap.gate, hpre]
  by_cases hlarge : exact > largeGapCycles * blocksPerCycle
  · rw [if_pos hlarge]
    have hlt := UInt32.lt_iff_toNat_lt.1 hlarge
    rw [hthreshold, hnat] at hlt
    simp only [RefusedForGap, Reply.refuse]
    constructor
    · rintro ⟨herror, -⟩
      injection herror with herror
      injection herror with herror
      injection herror with _ _ hg hc
      subst hg
      exact ⟨hlt, hnat, hc.symm⟩
    · rintro ⟨-, hg, rfl⟩
      obtain rfl : exact = gap := UInt32.toNat_inj.1 (hnat.trans hg.symm)
      exact ⟨rfl, List.mem_singleton_self _⟩
  · rw [if_neg hlarge]
    have hle := UInt32.le_iff_toNat_le.1 (UInt32.not_lt.1 hlarge)
    rw [hthreshold, hnat] at hle
    simp only [hgap.chain, hgap.watermark]
    constructor
    · rintro ⟨-, hmem⟩
      exact absurd hmem (largeGap_notMem_signWatermarked io _ s)
    · rintro ⟨hlt, -⟩
      omega

/-- **The refusal is exact where four cycles stay within 32 bits, or the gap is within what is left
of them**: a request is refused for its gap if and only if the gap is more than four cycles, and
what is reported is the gap and its cycles. -/
theorem large_gap_exact_iff
    (hgap : h.GapChecked seen pkh data chainId blocksPerCycle current requested) (io : SignIo)
    (s : Store) :
    (((∃ gap cycles, RefusedForGap (h.handleSign seen io pkh data s) pkh chainId current requested
        gap cycles) ↔ (4 * blocksPerCycle.toNat : Int) < requested.toNat - current.toNat) ∧
      ∀ gap cycles, RefusedForGap (h.handleSign seen io pkh data s) pkh chainId current requested
          gap cycles → (gap.toNat : Int) = requested.toNat - current.toNat ∧
        (cycles.toNat : Int) = (requested.toNat - current.toNat) / blocksPerCycle.toNat) ↔
    4 * blocksPerCycle.toNat < 2 ^ 32 ∨
      requested.toNat ≤ current.toNat + 4 * blocksPerCycle.toNat % 2 ^ 32 := by
  have hrequested := requested.toNat_lt
  have hcode : (∃ gap cycles, RefusedForGap (h.handleSign seen io pkh data s) pkh chainId current
      requested gap cycles) ↔
        4 * blocksPerCycle.toNat % 2 ^ 32 < requested.toNat - current.toNat := by
    simp only [refusedForGap_iff hgap io s]
    constructor
    · rintro ⟨gap, cycles, hlt, -⟩
      exact hlt
    · intro hlt
      refine ⟨UInt32.ofNat (requested.toNat - current.toNat), _, hlt, ?_, rfl⟩
      rw [UInt32.toNat_ofNat']
      exact Nat.mod_eq_of_lt (by omega)
  have hreported : ∀ gap cycles, RefusedForGap (h.handleSign seen io pkh data s) pkh chainId current
      requested gap cycles → (gap.toNat : Int) = requested.toNat - current.toNat ∧
        (cycles.toNat : Int) = (requested.toNat - current.toNat) / blocksPerCycle.toNat := by
    intro gap cycles hrefused
    obtain ⟨hlt, hg, rfl⟩ := (refusedForGap_iff hgap io s gap cycles).1 hrefused
    have hint : (gap.toNat : Int) = requested.toNat - current.toNat := by omega
    refine ⟨hint, ?_⟩
    rw [UInt32.toNat_div, ← hint]
    exact Int.natCast_ediv ..
  rw [hcode]
  constructor
  · rintro ⟨hiff, -⟩
    by_contra hnot
    rw [not_or] at hnot
    have := hiff.1 (by omega)
    omega
  · intro hor
    refine ⟨?_, hreported⟩
    rcases hor with hsmall | hwithin
    · rw [Nat.mod_eq_of_lt hsmall]
      omega
    · constructor
      · intro hlt
        omega
      · intro hlt
        omega

end RequestHandler

end

section

attribute [local instance] plainBlake3 plainBase58

/-- An attestation on a card with the given cycles whose marks are all at the level 100. -/
theorem gapChecked_attestation {blocksPerCycle : UInt32} (hpositive : 0 < blocksPerCycle)
    (requested : UInt32) :
    (testCard [testKey 1] blocksPerCycle).handler.GapChecked (testWatermark [testKey 1] 100)
      (testKey 1) (createAttestationDataWithChain testChainBytes requested 0) testChain
      blocksPerCycle 100 requested := by
  obtain ⟨-, hlevel, -⟩ :=
    parseSignPayload_of_markOf (markOf_createAttestationData testChainBytes requested 0)
  have hchain : (parseSignPayload
      (createAttestationDataWithChain testChainBytes requested 0)).chainId = some testChain := rfl
  have hheld : ((testCard [testKey 1] 1).handler.keys.signers.lookup (testKey 1)).isSome := by
    decide +kernel
  refine ⟨rfl, hheld, ?_, hchain, hlevel, rfl, rfl, rfl, hpositive, by decide +kernel⟩
  rw [RequestHandler.chainGate, hchain]
  exact if_neg fun hne => hne rfl

/-- Cycles of ten blocks: 41 blocks ahead are refused, 40 are not. -/
theorem large_gap_exact_ten :
    let reply := fun requested => (testCard [testKey 1] 10).handler.handleSign
      (testWatermark [testKey 1] 100) SignIo.quiet (testKey 1)
      (createAttestationDataWithChain testChainBytes requested 0) (testMarks fun _ => 100)
    (∃ gap cycles, RequestHandler.RefusedForGap (reply 141) (testKey 1) testChain 100 141
      gap cycles) ∧
    ¬∃ gap cycles, RequestHandler.RefusedForGap (reply 140) (testKey 1) testChain 100 140
      gap cycles := by
  intro reply
  have hrefused := fun requested => ((RequestHandler.large_gap_exact_iff
    (gapChecked_attestation (show (0 : UInt32) < 10 by decide) requested) SignIo.quiet
    (testMarks fun _ => 100)).2 (Or.inl (by decide))).1
  constructor
  · exact (hrefused 141).2 (by decide)
  · intro h
    exact absurd ((hrefused 140).1 h) (by decide)

/-- Cycles of `2 ^ 30` blocks, which `validate_config` lets through: four of them are zero, and an
attestation five blocks ahead is refused. -/
theorem large_gap_wraps :
    ¬∀ (config : WatermarkSetup.WatermarkConfig) (h : RequestHandler) (seen : HighWatermark)
        (pkh : PublicKeyHash) (data : List UInt8) (chainId : ChainId) (current requested : UInt32)
        (io : SignIo) (s : Store),
      WatermarkSetup.validateConfig config = .ok () →
      h.GapChecked seen pkh data chainId config.chain.blocksPerCycle current requested →
      ((∃ gap cycles, RequestHandler.RefusedForGap (h.handleSign seen io pkh data s) pkh chainId
        current requested gap cycles) ↔
          (4 * config.chain.blocksPerCycle.toNat : Int) < requested.toNat - current.toNat) := by
  intro hall
  have hexact := hall ⟨⟨"NetXdQprcVkpaWU", 100, "mainnet", 0x40000000⟩⟩ _ _ _ _ _ _ _
    SignIo.quiet (testMarks fun _ => 100) rfl (gapChecked_attestation (by decide) 105)
  have hrefused := (RequestHandler.refusedForGap_iff
    (gapChecked_attestation (show (0 : UInt32) < 0x40000000 by decide) 105) SignIo.quiet
    (testMarks fun _ => 100) 5 0).2 (by decide)
  exact absurd (hexact.1 ⟨5, 0, hrefused⟩) (by decide)

end

end Russignol
