import Russignol.Signer.FloorMarks

/-!
# A failed request

What a sign request leaves of the marks, whatever the BLS library and the disk answer: a request
touches one slot at most (`Within`), and one that fails leaves the mark of that slot as it was, so
the same request passes the check again (`failed_signing_keeps_marks`). Nothing is assumed of what a
failed write leaves in a record file.
-/

namespace Russignol

open Bytes FloorRegister

section

variable [Blake3]

namespace Store

/-- Of the slots only one may differ, and every key that was loaded still is. -/
structure Within (pkh : PublicKeyHash) (t : OperationType) (s s' : Store) : Prop where
  config : SameConfig s s'
  keys : ∀ k, (s'.wm.keys k).isSome = (s.wm.keys k).isSome
  mem : ∀ k t', ¬(k = pkh ∧ t' = t) → s'.mem k t' = s.mem k t'
  files : ∀ k t', ¬(k = pkh ∧ t' = t) → s'.disk.files k t' = s.disk.files k t'

omit [Blake3] in
theorem Within.trans {pkh : PublicKeyHash} {t : OperationType} {s s' s'' : Store}
    (h : Within pkh t s s') (h' : Within pkh t s' s'') : Within pkh t s s'' where
  config := h.config.trans h'.config
  keys k := (h'.keys k).trans (h.keys k)
  mem k t' hk := (h'.mem k t' hk).trans (h.mem k t' hk)
  files k t' hk := (h'.files k t' hk).trans (h.files k t' hk)

omit [Blake3] in
theorem Within.refl (pkh : PublicKeyHash) (t : OperationType) (s : Store) : Within pkh t s s :=
  ⟨SameConfig.refl s, fun _ => rfl, fun _ _ _ => rfl, fun _ _ _ => rfl⟩

/-- Setting a mark. -/
theorem within_setEntry (s : Store) (pkh : PublicKeyHash) (t : OperationType)
    (entry : Option WatermarkEntry) :
    Within pkh t s { s with wm := s.wm.setEntry pkh t entry } := by
  refine ⟨sameConfig_setEntry s pkh t entry, fun k => ?_, fun k t' hk => ?_, fun _ _ _ => rfl⟩
  · cases hkey : s.wm.keys pkh with
    | none => simp only [HighWatermark.setEntry, hkey]
    | some perKey =>
      simp only [HighWatermark.setEntry, hkey, HighWatermark.setKey]
      by_cases hkk : k = pkh
      · rw [hkk, Function.update_self, hkey]
        rfl
      · rw [Function.update_of_ne hkk]
  · exact congrArg Register.mem (slot_setEntry_ne hk entry [])

/-- Setting the mark of a loaded key. -/
theorem mem_setEntry_self {s : Store} {pkh : PublicKeyHash} {t : OperationType}
    {m : WatermarkEntry} (hm : s.mem pkh t = some m) (entry : Option WatermarkEntry) :
    Store.mem { s with wm := s.wm.setEntry pkh t entry } pkh t = entry :=
  congrArg Register.mem (mem_setEntry hm entry [])

variable [Base58]

/-- Writing a record, however it ends. -/
theorem within_persist (io : WriteIo) (pkh : PublicKeyHash) (t : OperationType)
    (entry : WatermarkEntry) (ceiling : Option WatermarkEntry) (s : Store) :
    Within pkh t s (s.persist io pkh t entry ceiling).2 := by
  refine ⟨(persist_recorded io pkh t entry ceiling s).config, fun k => ?_,
    fun k t' _ => mem_persist io pkh t entry ceiling s k t', fun k t' hk => ?_⟩
  · rw [persist]
    split
    · rfl
    · cases hkey : s.wm.keys pkh with
      | none => simp only [HighWatermark.perKey, hkey]
      | some perKey =>
        simp only [HighWatermark.perKey, hkey]
        split
        · rfl
        · by_cases hkk : k = pkh
          · simp only [HighWatermark.setKey, hkk, Function.update_self, hkey, Option.isSome_some]
          · simp only [HighWatermark.setKey, Function.update_of_ne hkk]
  · have hfile : ∀ d : Disk, ∀ content, (d.setFile pkh t content).files k t' = d.files k t' := by
      intro d content
      by_cases hkk : k = pkh
      · subst hkk
        have ht : t' ≠ t := fun ht => hk ⟨rfl, ht⟩
        simp only [Disk.setFile, Function.update_self, Function.update_of_ne ht]
      · simp only [Disk.setFile, Function.update_of_ne hkk]
    rw [persist]
    split
    · rfl
    · cases hkey : s.wm.keys pkh with
      | none => simp only [HighWatermark.perKey, hkey]
      | some perKey =>
        simp only [HighWatermark.perKey, hkey]
        cases io with
        | done => exact hfile s.disk _
        | failed left e => cases left <;> exact hfile s.disk _

/-- The roll-back of the mark and of the record, however it ends. -/
theorem undo_error (io : SignIo) {s : Store} {u : WatermarkUpdate} {m x : WatermarkEntry}
    (hprev : u.prev = some m) (hx : s.mem u.pkh u.idx = some x)
    (written : Except WatermarkError Unit) (hfailed : ¬(io.sign.isOk = true ∧ written = .ok ())) :
    Within u.pkh u.idx s (s.undo io u written) ∧
      (s.undo io u written).mem u.pkh u.idx = some m := by
  have hback := within_setEntry s u.pkh u.idx u.prev
  have hmem : Store.mem { s with wm := s.wm.rollbackUpdate u } u.pkh u.idx = some m :=
    (mem_setEntry_self hx u.prev).trans hprev
  cases hsign : io.sign with
  | ok signature =>
    cases written with
    | ok _ => exact absurd ⟨by rw [hsign]; rfl, rfl⟩ hfailed
    | error e =>
      simp only [undo, hsign]
      exact ⟨hback, hmem⟩
  | error e =>
    cases written with
    | error e' =>
      simp only [undo, hsign]
      exact ⟨hback, hmem⟩
    | ok _ =>
      simp only [undo, hsign, rollbackDiskWatermark, hprev]
      exact ⟨hback.trans (within_persist ..), (mem_persist ..).trans hmem⟩

/-- **Signing and writing** on the store the check left: one slot is touched, and its mark is the
old one after an error. -/
theorem signAndPersist_within (io : SignIo) {s : Store} {pkh : PublicKeyHash} {t : OperationType}
    {m : WatermarkEntry} (hm : s.mem pkh t = some m) (level round : UInt32) :
    let r := Store.signAndPersist io ⟨pkh, t, level, round, some m⟩
      { s with wm := s.wm.setEntry pkh t (some ⟨level, round⟩) }
    Within pkh t s r.2 ∧ ∀ e, r.1 = .error e → r.2.mem pkh t = some m := by
  intro r
  obtain ⟨s₁, hs₁⟩ : ∃ s₁ : Store,
      s₁ = { s with wm := s.wm.setEntry pkh t (some ⟨level, round⟩) } := ⟨_, rfl⟩
  obtain ⟨u, hu⟩ : ∃ u : WatermarkUpdate, u = ⟨pkh, t, level, round, some m⟩ := ⟨_, rfl⟩
  have hpkh : u.pkh = pkh := by rw [hu]
  have hidx : u.idx = t := by rw [hu]
  have hprev : u.prev = some m := by rw [hu]
  have hr : r = s₁.signAndPersist io u := by rw [hs₁, hu]
  have hset : Within pkh t s s₁ := hs₁ ▸ within_setEntry s pkh t _
  have hmem₁ : s₁.mem pkh t = some ⟨level, round⟩ := hs₁ ▸ mem_setEntry_self hm _
  obtain ⟨hwrite, hmem₂⟩ : Within pkh t s₁ (s₁.persistUpdate io u).2 ∧
      (s₁.persistUpdate io u).2.mem pkh t = some ⟨level, round⟩ := by
    unfold persistUpdate
    split
    · exact ⟨Within.refl pkh t s₁, hmem₁⟩
    · rw [writeWatermark, hpkh, hidx]
      exact ⟨within_persist .., (mem_persist ..).trans hmem₁⟩
  rw [hr, signAndPersist]
  generalize s₁.persistUpdate io u = w at hwrite hmem₂
  obtain ⟨w, s₂⟩ := w
  have hmemU : s₂.mem u.pkh u.idx = some ⟨level, round⟩ := by
    rw [hpkh, hidx]
    exact hmem₂
  cases w with
  | error e =>
    obtain ⟨hundo, hback⟩ := undo_error io hprev hmemU (.error e) fun h => by cases h.2
    rw [hpkh, hidx] at hundo hback
    exact ⟨(hset.trans hwrite).trans hundo, fun _ _ => hback⟩
  | ok _ =>
    dsimp only
    cases hsign : io.sign with
    | ok signature => exact ⟨hset.trans hwrite, fun e he => by cases he⟩
    | error e =>
      obtain ⟨hundo, hback⟩ := undo_error io hprev hmemU (.ok ()) fun h => by
        rw [hsign] at h
        cases h.1
      rw [hpkh, hidx] at hundo hback
      exact ⟨(hset.trans hwrite).trans hundo, fun _ _ => hback⟩

/-! ## Marks across a load -/

omit [Blake3] [Base58] in
/-- A key with a mark is loaded. -/
theorem isSome_of_mem {s : Store} {k : PublicKeyHash} {t : OperationType} {m : WatermarkEntry}
    (h : s.mem k t = some m) : (s.wm.keys k).isSome = true := by
  obtain ⟨perKey, hkey, -⟩ := Option.bind_eq_some_iff.1 h
  rw [hkey]
  rfl

omit [Base58] in
/-- Loading keys changes no mark. -/
theorem Loaded.opened_eq {s s' : Store} (h : Loaded s s') (k : PublicKeyHash) (t : OperationType) :
    s'.opened k t = s.opened k t := by
  have hreload : s'.reload k t = s.reload k t :=
    congrFun (reload_congr h.config (congrFun h.files k)) t
  by_cases hkey : (s'.wm.keys k).isSome = true
  · rw [opened, if_pos hkey, h.mem_eq_opened hkey]
  · have hnot : ¬(s.wm.keys k).isSome = true := by
      rcases h.keys k with hk | ⟨hnone, -⟩
      · rwa [← hk]
      · rw [hnone]
        exact Bool.false_ne_true
    rw [opened, if_neg hkey, opened, if_neg hnot, hreload]

omit [Base58] in
/-- Nor does a request on another slot. -/
theorem Within.opened_eq {pkh : PublicKeyHash} {t : OperationType} {s s' : Store}
    (h : Within pkh t s s') {k : PublicKeyHash} {t' : OperationType} (hk : ¬(k = pkh ∧ t' = t)) :
    s'.opened k t' = s.opened k t' := by
  have hreload : s'.reload k t' = s.reload k t' := by
    rw [reload, reload, Disk.reload, Disk.reload, h.config.macKeys, h.config.chainId,
      h.files k t' hk]
  rw [opened, opened, h.keys, h.mem k t' hk, hreload]

/-- The check of a mark that is there, and below the request. -/
theorem checkAndUpdateParsed_of_mem (fault : Option LoadFault) (chainId : ChainId) {s : Store}
    {pkh : PublicKeyHash} {t : OperationType} {current : WatermarkEntry} {level round : UInt32}
    (hmem : s.mem pkh t = some current) (hlt : current < ⟨level, round⟩) :
    s.checkAndUpdateParsed fault chainId pkh t level round =
      (.ok (some ⟨pkh, t, level, round, some current⟩),
        { s with wm := s.wm.setEntry pkh t (some ⟨level, round⟩) }) := by
  obtain ⟨perKey, hkey, hentry⟩ := Option.bind_eq_some_iff.1 hmem
  have hloaded : (s.wm.keys pkh).isSome = true := by
    rw [hkey]
    rfl
  have hensure : s.ensureKey fault pkh = (.ok (), s) := by
    unfold ensureKey
    exact if_pos hloaded
  rw [checkAndUpdateParsed, hensure]
  simp only [hkey, Option.bind_some, hentry]
  rcases WatermarkEntry.lt_iff.1 hlt with hlevel | ⟨hlevel, hround⟩
  · rw [if_neg (UInt32.not_lt.2 (UInt32.le_of_lt hlevel)),
      if_neg fun h => UInt32.ne_of_lt hlevel h.1.symm]
  · rw [if_neg (UInt32.not_lt.2 (by rw [hlevel]; exact UInt32.le_refl _)),
      if_neg fun h => UInt32.not_le.2 hround h.2]

end Store

namespace RequestHandler

variable [Base58]

/-- The slot of a request: its key, and the operation its first byte names. -/
def OwnSlot (pkh : PublicKeyHash) (data : List UInt8) (k : PublicKeyHash) (t : OperationType) :
    Prop :=
  k = pkh ∧ data.head?.bind OperationType.fromMagicByte = some t

omit [Blake3] [Base58] in
/-- A body that parses names its operation. -/
theorem head_of_markOf {data : List UInt8} {t : OperationType} {x : WatermarkEntry}
    (h : markOf data = some (t, x)) : data.head?.bind OperationType.fromMagicByte = some t := by
  cases data with
  | nil => cases h
  | cons magicByte rest =>
    obtain ⟨t', ht, hx⟩ := Option.bind_eq_some_iff.1 h
    obtain ⟨lr, -, heq⟩ := Option.map_eq_some_iff.1 hx
    obtain ⟨rfl, -⟩ := Prod.mk.inj heq
    exact ht

/-- **What a request leaves of the marks.** It changes the mark and the record of its own slot at
most; one that fails changes no mark; and one that fails after the check had advanced its mark
passes the check again. -/
theorem failed_signing_keeps_marks (h : RequestHandler) (seen : HighWatermark) (io : SignIo)
    (pkh : PublicKeyHash) (data : List UInt8) (s : Store) :
    let reply := h.handleSign seen io pkh data s
    (∀ k, (s.wm.keys k).isSome = true → (reply.store.wm.keys k).isSome = true) ∧
    (∀ k t, ¬OwnSlot pkh data k t → reply.store.opened k t = s.opened k t ∧
      reply.store.disk.files k t = s.disk.files k t) ∧
    (∀ e, reply.result = .error e → ∀ k t, reply.store.opened k t = s.opened k t) ∧
    ∀ e chainId u s₁, reply.result = .error e → h.Admits seen pkh data → h.watermark = true →
      (parseSignPayload data).chainId = some chainId →
      s.check io chainId pkh data (parseSignPayload data) = (.ok (some u), s₁) →
      ∀ retry : SignIo, ∃ s₂,
        reply.store.check retry chainId pkh data (parseSignPayload data) = (.ok (some u), s₂) := by
  intro reply
  have hreply : reply = h.handleSign seen io pkh data s := rfl
  rcases h.handleSign_cases seen io pkh data s with ⟨hrefused, e, callbacks, heq⟩ |
    ⟨-, hplain, heq⟩ | ⟨chainId, -, hchain, -, heq⟩
  · rw [hreply, heq]
    exact ⟨fun _ => id, fun _ _ _ => ⟨rfl, rfl⟩, fun _ _ _ _ => rfl,
      fun _ _ _ _ _ hadmits => absurd hadmits hrefused⟩
  · have hstore : reply.store = s := by
      rw [hreply, heq, justSign]
      cases io.sign <;> rfl
    rw [hstore]
    refine ⟨fun _ => id, fun _ _ _ => ⟨rfl, rfl⟩, fun _ _ _ _ => rfl, ?_⟩
    intro e chainId u s₁ _ _ hwm hchain
    rcases hplain with hnone | hnone
    · rw [hnone] at hchain
      cases hchain
    · rw [hnone] at hwm
      cases hwm
  · rw [hreply, heq, signWatermarked]
    rcases Store.check_cases io pkh hchain s with ⟨e, s', hcheck, hload⟩ |
      ⟨t, level, round, s', m, hmark, hcheck, hload, hmem, hlt⟩
    · simp only [hcheck]
      refine ⟨fun k => hload.isSome, fun k t _ => ⟨hload.opened_eq k t, ?_⟩,
        fun _ _ k t => hload.opened_eq k t, ?_⟩
      · exact congrFun (congrFun hload.files k) t
      · intro e' chainId' u s₁ _ _ _ hchain' hchecked
        rw [hchain] at hchain'
        cases hchain'
        rw [hcheck] at hchecked
        cases hchecked
    · simp only [hcheck]
      obtain ⟨hwithin, hback⟩ := Store.signAndPersist_within io hmem level round
      have hkeys : ∀ s'' : Store, Store.Within pkh t s' s'' → ∀ k,
          (s.wm.keys k).isSome = true → (s''.wm.keys k).isSome = true := by
        intro s'' hw k hk
        rw [hw.keys]
        exact hload.isSome hk
      have hothers : ∀ s'' : Store, Store.Within pkh t s' s'' → ∀ k t', ¬OwnSlot pkh data k t' →
          s''.opened k t' = s.opened k t' ∧ s''.disk.files k t' = s.disk.files k t' := by
        intro s'' hw k t' hown
        have hne : ¬(k = pkh ∧ t' = t) := fun h => hown ⟨h.1, h.2 ▸ head_of_markOf hmark⟩
        exact ⟨(hw.opened_eq hne).trans (hload.opened_eq k t'),
          (hw.files k t' hne).trans (congrFun (congrFun hload.files k) t')⟩
      generalize Store.signAndPersist io ⟨pkh, t, level, round, some m⟩
        { s' with wm := s'.wm.setEntry pkh t (some ⟨level, round⟩) } = r at hwithin hback
      obtain ⟨r, s''⟩ := r
      cases r with
      | ok signature =>
        refine ⟨hkeys s'' hwithin, hothers s'' hwithin, fun e he => ?_, fun e _ _ _ he => ?_⟩
        · cases he
        · cases he
      | error e =>
        have hmark' : s''.mem pkh t = some m := hback e rfl
        refine ⟨hkeys s'' hwithin, hothers s'' hwithin, fun _ _ k t' => ?_, ?_⟩
        · by_cases hne : k = pkh ∧ t' = t
          · obtain ⟨rfl, rfl⟩ := hne
            have hopened : s'.opened k t' = some m := by
              rw [← hmem, Store.opened, if_pos (Store.isSome_of_mem hmem)]
            rw [← hload.opened_eq, hopened]
            exact (if_pos (Store.isSome_of_mem hmark')).trans hmark'
          · exact (hwithin.opened_eq hne).trans (hload.opened_eq k t')
        · intro _ chainId' u s₁ _ _ _ hchain' hchecked retry
          rw [hchain] at hchain'
          obtain rfl := Option.some.inj hchain'
          rw [hcheck] at hchecked
          obtain rfl := Option.some.inj (Except.ok.inj (Prod.mk.inj hchecked).1)
          obtain ⟨ht, hl, hr⟩ := parseSignPayload_of_markOf hmark
          have hretry := Store.checkAndUpdateParsed_of_mem retry.load chainId hmark' hlt
          refine ⟨{ s'' with wm := s''.wm.setEntry pkh t (some ⟨level, round⟩) }, ?_⟩
          simp only [Reply.refuse, Store.check, ht, hl, hr]
          exact hretry

end RequestHandler

end

section

attribute [local instance] plainBlake3 plainBase58

/-- The BLS library fails beside a write that is done, and the write of the roll-back fails. -/
def SignIo.unsigned : SignIo :=
  ⟨none, .error (.bls "BLST_BAD_SCALAR"), .done, .failed .old "Input/output error (os error 5)"⟩

/-- An attestation that is not signed, and its retry. -/
theorem failed_signing_keeps_marks_attestation :
    let handler := (testCard [testKey 1] 10).handler
    let data := createAttestationDataWithChain testChainBytes 101 0
    let s := testMarks fun _ => 100
    let reply := handler.handleSign s.wm SignIo.unsigned (testKey 1) data s
    (∀ k t, reply.store.opened k t = s.opened k t) ∧
      ∃ u s₂, reply.store.check SignIo.quiet testChain (testKey 1) data (parseSignPayload data) =
        (.ok (some u), s₂) := by
  intro handler data s reply
  obtain ⟨-, -, hkept, hretry⟩ :=
    handler.failed_signing_keeps_marks s.wm SignIo.unsigned (testKey 1) data s
  have hresult : reply.result.toOption = none := by decide +kernel
  obtain ⟨ht, hl, hr⟩ :=
    parseSignPayload_of_markOf (markOf_createAttestationData testChainBytes 101 0)
  have hcheck : ∃ s₁, s.check SignIo.unsigned testChain (testKey 1) data (parseSignPayload data) =
      (.ok (some ⟨testKey 1, .attestation, 101, 0, some ⟨100, 0⟩⟩), s₁) := by
    refine ⟨{ s with wm := s.wm.setEntry (testKey 1) .attestation (some ⟨101, 0⟩) }, ?_⟩
    simp only [Store.check, data, ht, hl, hr]
    exact Store.checkAndUpdateParsed_of_mem none testChain rfl (by decide)
  obtain ⟨s₁, hcheck⟩ := hcheck
  cases herror : reply.result with
  | ok v =>
    rw [herror] at hresult
    cases hresult
  | error e =>
    refine ⟨hkept e herror, _, hretry e testChain _ s₁ herror ?_ rfl ?_ hcheck SignIo.quiet⟩
    · exact ⟨by decide +kernel, by decide +kernel, by decide +kernel, by decide +kernel⟩
    · decide +kernel

end

end Russignol
