import Russignol.Signer.Slots

/-!
# What a sign request does

`SignEffect` lists what the branch under the write lock does to its slot: a signature returned
under a ceiling or after a write, or an advance taken back after the write or the signature failed.
`handleSign_cases` is the inversion of the whole request: refused, signed without a watermark, or
one `SignEffect` on one slot.
-/

namespace Russignol

open Bytes FloorRegister

/-- The operation type and entry a request claims, where its body parses. -/
def markOf (data : List UInt8) : Option (OperationType × WatermarkEntry) :=
  match data with
  | [] => none
  | magicByte :: _ =>
    (OperationType.fromMagicByte magicByte).bind fun t =>
      (MagicBytes.levelRoundOf t data).toOption.map fun (level, round) => (t, ⟨level, round⟩)

/-- The mark of a body that parses for the operation type its first byte names. -/
theorem markOf_eq {data : List UInt8} {t : OperationType} {level round : UInt32}
    (ht : data.head?.bind OperationType.fromMagicByte = some t)
    (h : MagicBytes.levelRoundOf t data = .ok (level, round)) :
    markOf data = some (t, ⟨level, round⟩) := by
  cases data with
  | nil => cases ht
  | cons magicByte rest =>
    have ht' : OperationType.fromMagicByte magicByte = some t := ht
    simp only [markOf, ht', Option.bind_some, h, Except.toOption, Option.map_some]

/-- The fields of a request whose body parses. -/
theorem parseSignPayload_of_markOf {data : List UInt8} {t : OperationType} {x : WatermarkEntry}
    (h : markOf data = some (t, x)) :
    (parseSignPayload data).opType = some t ∧ (parseSignPayload data).level = some x.level ∧
      (parseSignPayload data).round = some x.round := by
  cases data with
  | nil => cases h
  | cons magicByte rest =>
    simp only [markOf, Option.bind_eq_some_iff, Option.map_eq_some_iff] at h
    obtain ⟨t', ht, ⟨level, round⟩, hlr, heq⟩ := h
    cases heq
    simp only [parseSignPayload, ht, Option.bind_some, hlr, Option.map_some, and_self]

/-- A body that parses is long enough to name its chain. -/
theorem chainId_of_markOf {data : List UInt8} {m : OperationType × WatermarkEntry}
    (h : markOf data = some m) : ∃ chainId, (parseSignPayload data).chainId = some chainId := by
  cases data with
  | nil => cases h
  | cons magicByte rest =>
    simp only [markOf, Option.bind_eq_some_iff, Option.map_eq_some_iff] at h
    obtain ⟨t, ht, lr, hlr, -⟩ := h
    have hlen : 5 ≤ (magicByte :: rest).length := by
      by_contra hlt
      cases t with
      | block =>
        rw [MagicBytes.levelRoundOf, MagicBytes.getLevelAndRoundForTenderbakeBlock,
          dif_pos (by simp only [MagicBytes.fitnessOffset]; omega)] at hlr
        cases hlr
      | preattestation | attestation =>
        rw [MagicBytes.levelRoundOf, MagicBytes.getLevelAndRoundForTenderbakeAttestation,
          dif_pos (by simp only [if_true]; omega)] at hlr
        cases hlr
    have hmagic := OperationType.fromMagicByte_isSome.1 ⟨t, ht⟩
    have hhead : (magicByte :: rest)[0] = magicByte := rfl
    simp only [parseSignPayload, MagicBytes.getChainIdForTenderbake]
    rw [dif_neg (by omega), hhead, if_pos hmagic]
    exact ⟨_, rfl⟩

/-- A request that names its chain names its operation type. -/
theorem opType_of_chainId {data : List UInt8} {chainId : ChainId}
    (h : (parseSignPayload data).chainId = some chainId) :
    ∃ t, (parseSignPayload data).opType = some t := by
  cases data with
  | nil => cases h
  | cons magicByte rest =>
    refine OperationType.fromMagicByte_isSome.2 ?_
    simp only [parseSignPayload, MagicBytes.getChainIdForTenderbake] at h
    split at h
    · cases h
    · split at h
      · next hmagic => exact hmagic
      · cases h

variable [Blake3]

/-- What a request under the write lock does to a slot whose mark is `m`, for the entry `x`. -/
inductive SignEffect (io : SignIo) (m x : WatermarkEntry) (a : Register WatermarkEntry) :
    Except ServerError Signature → Register WatermarkEntry → Prop
  /-- Signed under a ceiling. -/
  | covered {c : WatermarkEntry} {signature : Signature} : io.sign = .ok signature →
      a.ceil = some c → x ≤ c → SignEffect io m x a (.ok signature) { a with mem := some x }
  /-- Written and signed. -/
  | written {d : Option WatermarkEntry} {signature : Signature} : io.sign = .ok signature →
      Shows d x →
      SignEffect io m x a (.ok signature) { a with mem := some x, disk := d, ceil := none }
  /-- The write failed. -/
  | unwritten {e : ServerError} {e' : WatermarkError} {b : Register WatermarkEntry} :
      (∀ c, a.ceil = some c → c < x) → PersistEffect io.write x none a (.error e') b →
      SignEffect io m x a (.error e) b
  /-- The signature failed under a ceiling, and the mark was written back over it. -/
  | unsignedCovered {e : SignerError} {c : WatermarkEntry} {r : Except WatermarkError Unit}
      {b : Register WatermarkEntry} : io.sign = .error e → a.ceil = some c → x ≤ c →
      PersistEffect io.rollback m none a r b → SignEffect io m x a (.error (.signer e)) b
  /-- The signature failed after the write, and the mark was written back over it. -/
  | unsignedWritten {e : SignerError} {d : Option WatermarkEntry}
      {r : Except WatermarkError Unit} {b : Register WatermarkEntry} : io.sign = .error e →
      Shows d x → PersistEffect io.rollback m none { a with disk := d, ceil := none } r b →
      SignEffect io m x a (.error (.signer e)) b

omit [Blake3] in
/-- A write neither reads nor changes the mark in memory. -/
theorem PersistEffect.setMem {io : WriteIo} {entry : WatermarkEntry}
    {ceiling : Option WatermarkEntry} {a b : Register WatermarkEntry}
    {r : Except WatermarkError Unit} (h : PersistEffect io entry ceiling a r b)
    (m : Option WatermarkEntry) :
    PersistEffect io entry ceiling { a with mem := m } r { b with mem := m } := by
  cases h with
  | done hio hd => exact .done hio hd
  | kept => exact .kept
  | landed hio hd => exact .landed hio hd
  | torn => exact .torn

omit [Blake3] in
/-- A write does not change the mark in memory. -/
theorem PersistEffect.mem_eq {io : WriteIo} {entry : WatermarkEntry}
    {ceiling : Option WatermarkEntry} {a b : Register WatermarkEntry}
    {r : Except WatermarkError Unit} (h : PersistEffect io entry ceiling a r b) :
    b.mem = a.mem := by
  cases h <;> rfl

omit [Blake3] in
/-- A write does not touch the history. -/
theorem PersistEffect.issued_eq {io : WriteIo} {entry : WatermarkEntry}
    {ceiling : Option WatermarkEntry} {a b : Register WatermarkEntry}
    {r : Except WatermarkError Unit} (h : PersistEffect io entry ceiling a r b) :
    b.issued = a.issued := by
  cases h <;> rfl

omit [Blake3] in
/-- Nor does a request under the write lock: the history is kept apart. -/
theorem SignEffect.issued_eq {io : SignIo} {m x : WatermarkEntry} {a b : Register WatermarkEntry}
    {r : Except ServerError Signature} (h : SignEffect io m x a r b) : b.issued = a.issued := by
  cases h with
  | covered | written => rfl
  | unwritten _ hp => exact hp.issued_eq
  | unsignedCovered _ _ _ hp => exact hp.issued_eq
  | unsignedWritten _ _ hp => exact hp.issued_eq

omit [Blake3] in
/-- A request under the write lock leaves a mark: the old one or its own. -/
theorem SignEffect.mem_eq {io : SignIo} {m x : WatermarkEntry} {a b : Register WatermarkEntry}
    {r : Except ServerError Signature} (h : SignEffect io m x a r b) (hm : a.mem = some m) :
    b.mem = some (match r with | .ok _ => x | .error _ => m) := by
  cases h with
  | covered | written => rfl
  | unwritten _ hp => exact hp.mem_eq.trans hm
  | unsignedCovered _ _ _ hp => exact hp.mem_eq.trans hm
  | unsignedWritten _ _ hp => exact hp.mem_eq.trans hm

namespace Store

omit [Blake3] in
/-- `ceiling_covers`, in the order of the entries. -/
theorem ceilingCovers_iff (s : Store) (u : WatermarkUpdate) :
    s.wm.ceilingCovers u = true ↔ ∃ c, s.ceil u.pkh u.idx = some c ∧ u.entry ≤ c := by
  simp only [HighWatermark.ceilingCovers, ceil]
  cases s.wm.keys u.pkh with
  | none => simp
  | some perKey =>
    simp only [Option.bind_some]
    cases perKey.diskCeiling u.idx with
    | none => simp
    | some c =>
      simp only [decide_eq_true_eq, Option.some.injEq, exists_eq_left', WatermarkEntry.le_iff,
        WatermarkUpdate.entry, gt_iff_lt, ge_iff_le]
      constructor <;> rintro (h | ⟨h, h'⟩)
      · exact .inl h
      · exact .inr ⟨h.symm, h'⟩
      · exact .inl h
      · exact .inr ⟨h.symm, h'⟩

variable [Base58]

/-- After a failed signature the mark and then the record are written back. -/
theorem undo_spec {io : SignIo} {e : SignerError} (hsign : io.sign = .error e) {s : Store}
    {u : WatermarkUpdate} {m x : WatermarkEntry} (hprev : u.prev = some m)
    (hx : s.mem u.pkh u.idx = some x)
    (hrollback : io.rollback.Clean s.wm.macKeys s.wm.chainId) :
    (∀ issued, ∃ r, PersistEffect io.rollback m none
      { s.slot u.pkh u.idx issued with mem := some m } r
      ((s.undo io u (.ok ())).slot u.pkh u.idx issued)) ∧
    (∀ k t issued, ¬(k = u.pkh ∧ t = u.idx) →
      (s.undo io u (.ok ())).slot k t issued = s.slot k t issued) ∧
    SameConfig s (s.undo io u (.ok ())) := by
  have hundo : s.undo io u (.ok ()) = (Store.persist io.rollback u.pkh u.idx m none
      { s with wm := s.wm.rollbackUpdate u }).2 := by
    simp only [undo, hsign, rollbackDiskWatermark, hprev]
  have hback : SameConfig s { s with wm := s.wm.rollbackUpdate u } := sameConfig_setEntry s _ _ _
  have hclean : io.rollback.Clean (s.wm.rollbackUpdate u).macKeys (s.wm.rollbackUpdate u).chainId := by
    rw [hback.macKeys, hback.chainId]
    exact hrollback
  obtain ⟨hself, hother, hconfig⟩ := persist_spec io.rollback u.pkh u.idx m none
    { s with wm := s.wm.rollbackUpdate u } hclean
  rw [hundo]
  refine ⟨fun issued => ?_, fun k t issued h => ?_, hback.trans hconfig⟩
  · have hslot : Store.slot { s with wm := s.wm.rollbackUpdate u } u.pkh u.idx issued =
        { s.slot u.pkh u.idx issued with mem := u.prev } := mem_setEntry hx u.prev issued
    rw [hprev] at hslot
    have heff := hself issued
    rw [hslot] at heff
    exact ⟨_, heff⟩
  · rw [hother k t issued h]
    exact slot_setEntry_ne h u.prev issued

/-- **The branch under the write lock**, on the store the check left: its slot, the other slots,
and the configuration. -/
theorem signAndPersist_spec (io : SignIo) {s : Store} {pkh : PublicKeyHash} {t : OperationType}
    {m : WatermarkEntry} (hm : s.mem pkh t = some m) (level round : UInt32)
    (hwrite : io.write.Clean s.wm.macKeys s.wm.chainId)
    (hrollback : io.rollback.Clean s.wm.macKeys s.wm.chainId) :
    let u : WatermarkUpdate := ⟨pkh, t, level, round, some m⟩
    let r := Store.signAndPersist io u
      { s with wm := s.wm.setEntry pkh t (some ⟨level, round⟩) }
    (∀ issued, SignEffect io m ⟨level, round⟩ (s.slot pkh t issued) r.1
      (r.2.slot pkh t issued)) ∧
    (∀ k t' issued, ¬(k = pkh ∧ t' = t) → r.2.slot k t' issued = s.slot k t' issued) ∧
    SameConfig s r.2 := by
  intro u r
  obtain ⟨s₁, hs₁⟩ : ∃ s₁ : Store,
      s₁ = { s with wm := s.wm.setEntry pkh t (some ⟨level, round⟩) } := ⟨_, rfl⟩
  have hr : r = s₁.signAndPersist io u := by rw [hs₁]
  have hself : ∀ issued, s₁.slot pkh t issued =
      { s.slot pkh t issued with mem := some ⟨level, round⟩ } := hs₁ ▸ mem_setEntry hm _
  have hother : ∀ k t' issued, ¬(k = pkh ∧ t' = t) → s₁.slot k t' issued = s.slot k t' issued :=
    fun k t' issued h => hs₁ ▸ slot_setEntry_ne h _ _
  have hconfig : SameConfig s s₁ := hs₁ ▸ sameConfig_setEntry s pkh t _
  have hmem : s₁.mem pkh t = some ⟨level, round⟩ := congrArg Register.mem (hself [])
  have hrestore : ∀ issued, { s.slot pkh t issued with mem := some m } = s.slot pkh t issued := by
    intro issued
    rw [← hm]
    rfl
  have hcov : s₁.wm.ceilingCovers u = true ↔ ∃ c, s.ceil pkh t = some c ∧ ⟨level, round⟩ ≤ c := by
    have hceil : s₁.ceil pkh t = s.ceil pkh t := congrArg Register.ceil (hself [])
    rw [ceilingCovers_iff, ← hceil]
    rfl
  rw [← hconfig.macKeys, ← hconfig.chainId] at hwrite hrollback
  rw [hr, signAndPersist, persistUpdate]
  by_cases hc : s₁.wm.ceilingCovers u = true
  · -- a ceiling covers the update: nothing is written beside the signature
    obtain ⟨c, hceil, hle⟩ := hcov.1 hc
    rw [if_pos hc]
    cases hsign : io.sign with
    | ok signature =>
      refine ⟨fun issued => ?_, hother, hconfig⟩
      rw [hself]
      exact .covered hsign hceil hle
    | error e =>
      obtain ⟨hu, hu', hu''⟩ := undo_spec (u := u) hsign rfl hmem hrollback
      refine ⟨fun issued => ?_, fun k t' issued h => ?_, hconfig.trans hu''⟩
      · obtain ⟨r', hr'⟩ := hu issued
        rw [hself, hrestore] at hr'
        exact .unsignedCovered hsign hceil hle hr'
      · exact (hu' k t' issued h).trans (hother k t' issued h)
  · -- no ceiling does: the record is written beside the signature
    rw [if_neg hc]
    have huncovered : ∀ c, s.ceil pkh t = some c → c < ⟨level, round⟩ :=
      fun c hceil => not_le.1 fun hle => hc (hcov.2 ⟨c, hceil, hle⟩)
    obtain ⟨hw, hw', hw''⟩ := persist_spec io.write pkh t ⟨level, round⟩ none s₁ hwrite
    have hwrite_eq : s₁.writeWatermark io.write u =
        s₁.persist io.write pkh t ⟨level, round⟩ none := rfl
    rw [hwrite_eq]
    generalize s₁.persist io.write pkh t ⟨level, round⟩ none = w at hw hw' hw''
    obtain ⟨w, s₂⟩ := w
    have hmem₂ : s₂.mem pkh t = some ⟨level, round⟩ := (hw []).mem_eq.trans hmem
    have hother₂ : ∀ k t' issued, ¬(k = pkh ∧ t' = t) →
        s₂.slot k t' issued = s.slot k t' issued :=
      fun k t' issued h => (hw' k t' issued h).trans (hother k t' issued h)
    cases w with
    | error e =>
      have hundo : s₂.undo io u (.error e) = { s₂ with wm := s₂.wm.rollbackUpdate u } := by
        cases hsign : io.sign <;> simp only [undo, hsign]
      dsimp only
      rw [hundo]
      refine ⟨fun issued => ?_, fun k t' issued h => ?_, ?_⟩
      · have hslot : Store.slot { s₂ with wm := s₂.wm.rollbackUpdate u } pkh t issued =
            { s₂.slot pkh t issued with mem := some m } := mem_setEntry hmem₂ _ issued
        have heff := (hw issued).setMem (some m)
        rw [hself] at heff
        rw [hslot]
        exact .unwritten huncovered (hrestore issued ▸ heff)
      · exact (slot_setEntry_ne h _ issued).trans (hother₂ k t' issued h)
      · exact (hconfig.trans hw'').trans (sameConfig_setEntry s₂ _ _ _)
    | ok _ =>
      have hdone : ∀ issued, ∃ d, Shows d ⟨level, round⟩ ∧ s₂.slot pkh t issued =
          { s.slot pkh t issued with mem := some ⟨level, round⟩, disk := d, ceil := none } := by
        intro issued
        have h := hw issued
        rw [hself] at h
        generalize s₂.slot pkh t issued = b at h
        cases h with
        | done _ hd => exact ⟨_, hd, rfl⟩
      dsimp only
      cases hsign : io.sign with
      | ok signature =>
        refine ⟨fun issued => ?_, hother₂, hconfig.trans hw''⟩
        obtain ⟨d, hd, hslot⟩ := hdone issued
        rw [hslot]
        exact .written hsign hd
      | error e =>
        have hrollback₂ : io.rollback.Clean s₂.wm.macKeys s₂.wm.chainId := by
          rw [hw''.macKeys, hw''.chainId]
          exact hrollback
        obtain ⟨hu, hu', hu''⟩ := undo_spec (u := u) hsign rfl hmem₂ hrollback₂
        refine ⟨fun issued => ?_, fun k t' issued h => ?_, (hconfig.trans hw'').trans hu''⟩
        · obtain ⟨d, hd, hslot⟩ := hdone issued
          obtain ⟨r', hr'⟩ := hu issued
          have heq : ({ s₂.slot pkh t issued with mem := some m } : Register WatermarkEntry) =
              { s.slot pkh t issued with disk := d, ceil := none } := by
            rw [hslot, ← hrestore issued]
          exact .unsignedWritten hsign hd (heq ▸ hr')
        · exact (hu' k t' issued h).trans (hother₂ k t' issued h)

/-- **The check of a request that names its chain**: an error, or the mark of a body that parses
was below the request and is the request's now. -/
theorem check_cases {chainId : ChainId} (io : SignIo) (pkh : PublicKeyHash) {data : List UInt8}
    (hchain : (parseSignPayload data).chainId = some chainId) (s : Store) :
    (∃ e s', s.check io chainId pkh data (parseSignPayload data) = (.error e, s') ∧ Loaded s s') ∨
    ∃ t level round s' current, markOf data = some (t, ⟨level, round⟩) ∧
      s.check io chainId pkh data (parseSignPayload data) =
        (.ok (some ⟨pkh, t, level, round, some current⟩),
          { s' with wm := s'.wm.setEntry pkh t (some ⟨level, round⟩) }) ∧
      Loaded s s' ∧ s'.mem pkh t = some current ∧ current < ⟨level, round⟩ := by
  cases hmark : markOf data with
  | some m =>
    obtain ⟨t, level, round⟩ := m
    obtain ⟨ht, hl, hr⟩ := parseSignPayload_of_markOf hmark
    have hcheck : s.check io chainId pkh data (parseSignPayload data) =
        s.checkAndUpdateParsed io.load chainId pkh t level round := by
      simp only [check, ht, hl, hr]
    rw [hcheck]
    rcases checkAndUpdateParsed_cases io.load chainId pkh t level round s with h | h
    · exact .inl h
    · obtain ⟨s', current, h⟩ := h
      exact .inr ⟨t, level, round, s', current, rfl, h⟩
  | none =>
    -- the body does not parse: the parsing path returns its error
    obtain ⟨t, ht⟩ := opType_of_chainId hchain
    left
    cases data with
    | nil => cases ht
    | cons magicByte rest =>
      have ht' : OperationType.fromMagicByte magicByte = some t := ht
      simp only [markOf, ht', Option.bind_some, Option.map_eq_none_iff] at hmark
      have hlevel : (parseSignPayload (magicByte :: rest)).level = none := by
        simp only [parseSignPayload, ht', Option.bind_some, hmark, Option.map_none]
      cases hlr : MagicBytes.levelRoundOf t (magicByte :: rest) with
      | ok lr => rw [hlr] at hmark; cases hmark
      | error e =>
        refine ⟨.invalidData e.toString, s, ?_, Loaded.refl s⟩
        simp only [check, ht, hlevel, checkAndUpdate, ht', hlr]

end Store

namespace RequestHandler

variable [Base58]

/-- The gates before the write lock, in order: the magic byte, the key, the chain and the two
prechecks. -/
structure Admits (h : RequestHandler) (seen : HighWatermark) (pkh : PublicKeyHash)
    (data : List UInt8) : Prop where
  magic : MagicBytes.checkMagicByte data h.allowedMagicBytes = .ok ()
  held : (h.keys.signers.lookup pkh).isSome
  chain : h.chainGate pkh (parseSignPayload data) = none
  precheck : h.precheck seen pkh (parseSignPayload data) = none

/-- **A sign request**: refused at a gate, signed with no watermark, or under the lock. -/
theorem handleSign_cases (h : RequestHandler) (seen : HighWatermark) (io : SignIo)
    (pkh : PublicKeyHash) (data : List UInt8) (s : Store) :
    (¬h.Admits seen pkh data ∧
      ∃ e callbacks, h.handleSign seen io pkh data s = .refuse e callbacks s) ∨
    (h.Admits seen pkh data ∧ ((parseSignPayload data).chainId = none ∨ h.watermark = false) ∧
      h.handleSign seen io pkh data s =
        h.justSign io (h.keyName pkh) data (parseSignPayload data) s) ∨
    ∃ chainId, h.Admits seen pkh data ∧ (parseSignPayload data).chainId = some chainId ∧
      h.watermark = true ∧
      h.handleSign seen io pkh data s =
        h.signWatermarked io chainId pkh (h.keyName pkh) data (parseSignPayload data) s := by
  cases hmagic : MagicBytes.checkMagicByte data h.allowedMagicBytes with
  | error e =>
    refine .inl ⟨fun ha => ?_, .magicByte e, [], ?_⟩
    · cases hmagic.symm.trans ha.magic
    · simp only [handleSign, hmagic]
  | ok _ =>
    cases hkey : h.keys.signers.lookup pkh with
    | none =>
      refine .inl ⟨fun ha => ?_, .keyNotFound pkh.toB58check,
        Callback.fire h.unknownKeyCallback (.unknownKey pkh), ?_⟩
      · have := ha.held
        rw [hkey] at this
        cases this
      · simp only [handleSign, hmagic, resolveSigner, hkey]
    | some signer =>
      have hheld : (h.keys.signers.lookup pkh).isSome := by rw [hkey]; rfl
      cases hgate : h.chainGate pkh (parseSignPayload data) with
      | some r =>
        refine .inl ⟨fun ha => ?_, r.1, r.2, ?_⟩
        · cases hgate.symm.trans ha.chain
        · simp only [handleSign, hmagic, resolveSigner, hkey, hgate]
      | none =>
        cases hpre : h.precheck seen pkh (parseSignPayload data) with
        | some r =>
          refine .inl ⟨fun ha => ?_, r.1, r.2, ?_⟩
          · cases hpre.symm.trans ha.precheck
          · simp only [handleSign, hmagic, resolveSigner, hkey, hgate, hpre]
        | none =>
          right
          cases hchain : (parseSignPayload data).chainId with
          | none =>
            refine .inl ⟨⟨hmagic, hheld, hgate, hpre⟩, .inl rfl, ?_⟩
            simp only [handleSign, hmagic, resolveSigner, hkey, hgate, hpre, hchain]
          | some chainId =>
            cases hwm : h.watermark with
            | false =>
              refine .inl ⟨⟨hmagic, hheld, hgate, hpre⟩, .inr rfl, ?_⟩
              simp only [handleSign, hmagic, resolveSigner, hkey, hgate, hpre, hchain, hwm]
            | true =>
              refine .inr ⟨chainId, ⟨hmagic, hheld, hgate, hpre⟩, rfl, rfl, ?_⟩
              simp only [handleSign, hmagic, resolveSigner, hkey, hgate, hpre, hchain, hwm]

/-- A request that got past the watermark check: its slot, on the store the check loaded. -/
structure Attempt (h : RequestHandler) (seen : HighWatermark) (io : SignIo) (pkh : PublicKeyHash)
    (data : List UInt8) (s : Store) (reply : Reply) (t : OperationType) (m x : WatermarkEntry)
    (s' : Store) (r : Except ServerError Signature) : Prop where
  admits : h.Admits seen pkh data
  mark : markOf data = some (t, x)
  loaded : s.Loaded s'
  mem : s'.mem pkh t = some m
  lt : m < x
  effect : ∀ issued, SignEffect io m x (s'.slot pkh t issued) r (reply.store.slot pkh t issued)
  frame : ∀ k t' issued, ¬(k = pkh ∧ t' = t) →
    reply.store.slot k t' issued = s'.slot k t' issued
  result : reply.result =
    r.map fun signature => (signature, (parseSignPayload data).chainId)
  ceiling : ∀ task, reply.ceiling = some task →
    task.pkh = pkh ∧ task.idx = t ∧ ∃ signature, r = .ok signature

/-- **What a sign request does** where a watermark is configured: it loads keys at most, and signs
nothing that has a mark, or it is one attempt on one slot. -/
theorem handleSign_spec (h : RequestHandler) (hw : h.watermark = true) (seen : HighWatermark)
    (io : SignIo) (pkh : PublicKeyHash) (data : List UInt8) (s : Store)
    (hwrite : io.write.Clean s.wm.macKeys s.wm.chainId)
    (hrollback : io.rollback.Clean s.wm.macKeys s.wm.chainId) :
    let reply := h.handleSign seen io pkh data s
    s.SameConfig reply.store ∧
      (s.Loaded reply.store ∧ reply.ceiling = none ∧
          (∀ v, reply.result = .ok v → markOf data = none) ∨
        ∃ t m x s' r, h.Attempt seen io pkh data s reply t m x s' r) := by
  intro reply
  have hreply : reply = h.handleSign seen io pkh data s := rfl
  rcases h.handleSign_cases seen io pkh data s with ⟨-, e, callbacks, heq⟩ |
    ⟨-, hplain, heq⟩ | ⟨chainId, hadmits, hchain, -, heq⟩
  · rw [hreply, heq]
    exact ⟨Store.SameConfig.refl s, .inl ⟨Store.Loaded.refl s, rfl, nofun⟩⟩
  · have hnone : (parseSignPayload data).chainId = none := by
      rcases hplain with h' | h'
      · exact h'
      · rw [hw] at h'
        cases h'
    have hmark : markOf data = none := by
      by_contra hne
      obtain ⟨m, hm⟩ := Option.ne_none_iff_exists'.1 hne
      obtain ⟨chainId, hc⟩ := chainId_of_markOf hm
      cases hnone.symm.trans hc
    rw [hreply, heq, justSign]
    cases io.sign with
    | error e => exact ⟨Store.SameConfig.refl s, .inl ⟨Store.Loaded.refl s, rfl, nofun⟩⟩
    | ok signature =>
      exact ⟨Store.SameConfig.refl s, .inl ⟨Store.Loaded.refl s, rfl, fun _ _ => hmark⟩⟩
  · rw [hreply, heq, signWatermarked]
    rcases Store.check_cases io pkh hchain s with ⟨e, s', hcheck, hload⟩ |
      ⟨t, level, round, s', m, hmark, hcheck, hload, hmem, hlt⟩
    · simp only [hcheck]
      exact ⟨hload.config, .inl ⟨hload, rfl, nofun⟩⟩
    · simp only [hcheck]
      rw [← hload.config.macKeys, ← hload.config.chainId] at hwrite hrollback
      obtain ⟨heffect, hframe, hconfig⟩ :=
        Store.signAndPersist_spec io hmem level round hwrite hrollback
      generalize Store.signAndPersist io ⟨pkh, t, level, round, some m⟩
        { s' with wm := s'.wm.setEntry pkh t (some ⟨level, round⟩) } = r at heffect hframe hconfig
      obtain ⟨r, s''⟩ := r
      cases r with
      | error e =>
        exact ⟨hload.config.trans hconfig,
          .inr ⟨t, m, ⟨level, round⟩, s', .error e, hadmits, hmark, hload, hmem, hlt, heffect,
            hframe, rfl, nofun⟩⟩
      | ok signature =>
        refine ⟨hload.config.trans hconfig,
          .inr ⟨t, m, ⟨level, round⟩, s', .ok signature, hadmits, hmark, hload, hmem, hlt, heffect,
            hframe, rfl, fun task htask => ?_⟩⟩
        have htask' : WatermarkUpdate.ceilingTask ⟨pkh, t, level, round, some m⟩ = some task := htask
        rw [WatermarkUpdate.ceilingTask] at htask'
        split at htask'
        · cases htask'
        · cases htask'
          exact ⟨rfl, rfl, signature, rfl⟩

end RequestHandler

end Russignol
