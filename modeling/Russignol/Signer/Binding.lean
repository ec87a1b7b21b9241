import Russignol.Signer.TestUtils

/-!
# What a record is bound to

Whoever holds the card can copy and swap its record files. A record that loads was then written by
the device for the same key and chain (`Life.load_written`): the MAC is keyed per key and covers
the chain. It does not cover the operation type, so a record loads under each of the three file
names of its key and chain (`Life.moved_between_types`).

The argument follows what each writer hands to the kernel. A file holds nothing readable, or the
record of some mark that was written (`Disk.Authentic`); every writer and every copy keeps this,
and a record that loads under another key or chain would be a forged MAC (`Unforged`).
-/

namespace Russignol

open Bytes FloorRegister

section

variable [Blake3]

/-- The record of a mark under a MAC key: what `mark_bytes` and `seed_watermarks` build. -/
def Mark.record (m : Mark) (macKey : Watermark.MacKey) : List UInt8 :=
  (Watermark.encodeAuthenticated macKey m.chainId.bytes.1 m.entry.level m.entry.round).1

/-- The content of a file is the record of a mark under the MAC key of its key. -/
def Mark.IsRecord (macKeys : PublicKeyHash → Option Watermark.MacKey) (m : Mark)
    (content : List UInt8) : Prop :=
  ∃ macKey, macKeys m.pkh = some macKey ∧ content = m.record macKey

/-- A content that loads under no key and no chain. -/
def Unreadable (macKeys : PublicKeyHash → Option Watermark.MacKey) (content : List UInt8) : Prop :=
  ∀ k macKey (chainId : ChainId), macKeys k = some macKey →
    loadEntryAuthenticated macKey chainId.bytes.1 content = none

/-- The MAC is not forged: where the tag of a written record verifies for a key and chain, the
device has computed the MAC of that message under that key. -/
def Unforged (macKeys : PublicKeyHash → Option Watermark.MacKey) (written : List Mark)
    (k : PublicKeyHash) (chainId : ChainId) : Prop :=
  ∀ m ∈ written, ∀ macKey macKey', macKeys m.pkh = some macKey → macKeys k = some macKey' →
    let message := Watermark.levelRound m.entry.level m.entry.round
    Watermark.mac macKey m.chainId.bytes.1 message = Watermark.mac macKey' chainId.bytes.1 message →
    ∃ m' ∈ written, macKeys m'.pkh = some macKey' ∧
      m'.chainId.bytes.1 ++ Watermark.levelRound m'.entry.level m'.entry.round =
        chainId.bytes.1 ++ message

/-- Every file holds nothing readable, or the record of a mark that was written. -/
def Disk.Authentic (macKeys : PublicKeyHash → Option Watermark.MacKey) (d : Disk) : Prop :=
  ∀ k t, Unreadable macKeys (d.files k t) ∨ ∃ m ∈ d.written, m.IsRecord macKeys (d.files k t)

/-- What the writers, the kernel's faults and a thief's copies do to the disk. -/
inductive DiskStep (macKeys : PublicKeyHash → Option Watermark.MacKey) : Disk → Disk → Prop
  | dirs {d : Disk} {isDir : PublicKeyHash → Bool} : DiskStep macKeys d { d with isDir := isDir }
  | put {d : Disk} {m : Mark} {content record : List UInt8} : m.IsRecord macKeys record →
      (content = record ∨ content = writeAt0 record (d.files m.pkh m.idx)) →
      DiskStep macKeys d (d.put m content)
  | torn {d : Disk} {k : PublicKeyHash} {t : OperationType} {content : List UInt8} :
      Unreadable macKeys content → DiskStep macKeys d (d.setFile k t content)
  | copied {d : Disk} {k : PublicKeyHash} {t : OperationType} {content : List UInt8} {m : Mark} :
      m ∈ d.written → m.IsRecord macKeys content → DiskStep macKeys d (d.setFile k t content)

/-! ## Records that load -/

theorem Mark.length_record (m : Mark) (macKey : Watermark.MacKey) :
    (m.record macKey).length = Watermark.authFileSize :=
  (Watermark.encodeAuthenticated _ _ _ _).2

/-- A content of another length than a record's is unreadable. -/
theorem unreadable_of_length {macKeys : PublicKeyHash → Option Watermark.MacKey}
    {content : List UInt8} (h : content.length ≠ Watermark.authFileSize) :
    Unreadable macKeys content :=
  fun _ _ _ _ => dif_neg h

/-- **A record that loads was written for the key and the chain it loads under.** -/
theorem Disk.Authentic.written_of_reload {macKeys : PublicKeyHash → Option Watermark.MacKey}
    (hdistinct : ∀ k k' macKey, macKeys k = some macKey → macKeys k' = some macKey → k = k')
    {d : Disk} (h : d.Authentic macKeys) {k : PublicKeyHash} {chainId : ChainId}
    (hunforged : Unforged macKeys d.written k chainId) {t : OperationType} {e : WatermarkEntry}
    (hload : d.reload macKeys chainId k t = some e) : ∃ t', ⟨k, chainId, t', e⟩ ∈ d.written := by
  rw [Disk.reload, Option.bind_eq_some_iff] at hload
  obtain ⟨macKey', hmac', hload⟩ := hload
  rcases h k t with hunreadable | ⟨m, hm, macKey, hmac, hcontent⟩
  · cases (hunreadable k macKey' chainId hmac').symm.trans hload
  · -- the content is the record of `m`, and of what it loads as
    have hsame : (Watermark.encodeAuthenticated macKey m.chainId.bytes.1 m.entry.level
        m.entry.round).1 =
        (Watermark.encodeAuthenticated macKey' chainId.bytes.1 e.level e.round).1 :=
      hcontent.symm.trans (loadEntryAuthenticated_some hload)
    obtain ⟨hlevel, hround, htag⟩ := Watermark.encodeAuthenticated_inj hsame
    rw [← hlevel, ← hround] at htag
    obtain ⟨m', hm', hmac'', hmessage⟩ := hunforged m hm macKey macKey' hmac hmac' htag
    have hkey : m'.pkh = k := hdistinct _ _ macKey' hmac'' hmac'
    obtain ⟨hchain, hentry⟩ := List.append_inj hmessage (by
      rw [m'.chainId.bytes.2, chainId.bytes.2])
    obtain ⟨hlevel', hround'⟩ := be32_append_inj hentry
    refine ⟨m'.idx, ?_⟩
    have hmark : m' = ⟨k, chainId, m'.idx, e⟩ := by
      obtain ⟨pkh, ⟨bytes⟩, idx, ⟨level, round⟩⟩ := m'
      obtain ⟨bytes'⟩ := chainId
      obtain ⟨level', round'⟩ := e
      simp only at hkey hchain hlevel' hround' hlevel hround
      rw [hkey, Subtype.ext hchain, hlevel', hround', hlevel, hround]
    exact hmark ▸ hm'

/-! ## The disk over the writers -/

namespace Disk.Authentic

variable {macKeys : PublicKeyHash → Option Watermark.MacKey}

/-- A step on the disk keeps every file unreadable or written. -/
theorem step {d d' : Disk} (h : d.Authentic macKeys) (hs : DiskStep macKeys d d') :
    d'.Authentic macKeys := by
  -- replacing one file keeps what holds of the others
  have hset : ∀ {k t content} {written : List Mark}, d.written ⊆ written →
      (Unreadable macKeys content ∨ ∃ m ∈ written, m.IsRecord macKeys content) → ∀ k' t',
      Unreadable macKeys ((d.setFile k t content).files k' t') ∨
        ∃ m ∈ written, m.IsRecord macKeys ((d.setFile k t content).files k' t') := by
    intro k t content written hsub hnew k' t'
    simp only [Disk.setFile]
    have hold : Unreadable macKeys (d.files k' t') ∨
        ∃ m ∈ written, m.IsRecord macKeys (d.files k' t') := by
      rcases h k' t' with hunreadable | ⟨m, hm, hrec⟩
      · exact .inl hunreadable
      · exact .inr ⟨m, hsub hm, hrec⟩
    by_cases hk : k' = k
    · subst hk
      by_cases ht : t' = t
      · subst ht
        rwa [Function.update_self, Function.update_self]
      · rwa [Function.update_self, Function.update_of_ne ht]
    · rwa [Function.update_of_ne hk]
  cases hs with
  | dirs => exact h
  | @put m content record hrec hcontent =>
    refine hset (List.subset_cons_self _ _) ?_
    by_cases hlen : (d.files m.pkh m.idx).length ≤ record.length
    · have heq : content = record := hcontent.elim id fun hw => hw.trans (writeAt0_of_le hlen)
      exact .inr ⟨m, List.mem_cons_self, heq ▸ hrec⟩
    · rcases hcontent with rfl | rfl
      · exact .inr ⟨m, List.mem_cons_self, hrec⟩
      · left
        obtain ⟨macKey, -, rfl⟩ := hrec
        refine unreadable_of_length ?_
        rw [length_writeAt0]
        have := m.length_record macKey
        omega
  | torn hun => exact hset (List.Subset.refl _) (.inl hun)
  | copied hm hrec => exact hset (List.Subset.refl _) (.inr ⟨_, hm, hrec⟩)

/-- So do any number of steps. -/
theorem steps {d d' : Disk} (h : d.Authentic macKeys)
    (hs : Relation.ReflTransGen (DiskStep macKeys) d d') : d'.Authentic macKeys := by
  induction hs with
  | refl => exact h
  | tail _ hstep ih => exact ih.step hstep

end Disk.Authentic

/-! ## What the writers hand to the kernel -/

namespace Store

variable [Base58]

/-- An operation keeps the MAC keys, and does to the disk only what the writers do. -/
structure Journaled (s s' : Store) : Prop where
  macKeys : s'.wm.macKeys = s.wm.macKeys
  disk : Relation.ReflTransGen (DiskStep s.wm.macKeys) s.disk s'.disk

omit [Base58] in
theorem Journaled.refl (s : Store) : Journaled s s := ⟨rfl, .refl⟩

omit [Base58] in
theorem Journaled.trans {s s' s'' : Store} (h : Journaled s s') (h' : Journaled s' s'') :
    Journaled s s'' :=
  ⟨h'.macKeys.trans h.macKeys, h.disk.trans (h.macKeys ▸ h'.disk)⟩

omit [Base58] in
/-- Setting a mark in memory. -/
theorem journaled_setEntry (s : Store) (k : PublicKeyHash) (t : OperationType)
    (entry : Option WatermarkEntry) : Journaled s { s with wm := s.wm.setEntry k t entry } :=
  ⟨(sameConfig_setEntry s k t entry).macKeys, .refl⟩

/-- Loading keys makes directories at most. -/
theorem journaled_ensureKey (fault : Option LoadFault) (pkh : PublicKeyHash) (s : Store) :
    Journaled s (s.ensureKey fault pkh).2 := by
  refine ⟨(ensureKey_spec fault pkh s).1.config.macKeys, ?_⟩
  have hdir : Relation.ReflTransGen (DiskStep s.wm.macKeys) s.disk (s.disk.mkDir pkh) :=
    .single .dirs
  unfold ensureKey
  split
  · exact .refl
  · split
    · exact .refl
    · split
      · exact .refl
      · dsimp only
        split <;> exact hdir
      · dsimp only
        split <;> exact hdir

/-- The check loads keys and sets a mark. -/
theorem journaled_checkAndUpdateParsed (fault : Option LoadFault) (chainId : ChainId)
    (pkh : PublicKeyHash) (t : OperationType) (level round : UInt32) (s : Store) :
    Journaled s (s.checkAndUpdateParsed fault chainId pkh t level round).2 := by
  have hload := journaled_ensureKey fault pkh s
  rw [checkAndUpdateParsed]
  generalize s.ensureKey fault pkh = r at hload
  obtain ⟨r, s'⟩ := r
  cases r with
  | error e => exact hload
  | ok _ =>
    dsimp only
    split
    · exact hload
    · split
      · exact hload
      · split
        · exact hload
        · exact hload.trans (journaled_setEntry s' pkh t _)

/-- A record write hands the kernel the record of its key, its slot and the tracker's chain. -/
theorem journaled_persist {s : Store} {io : WriteIo}
    (hclean : ∀ chainId, io.Clean s.wm.macKeys chainId) (pkh : PublicKeyHash) (t : OperationType)
    (entry : WatermarkEntry) (ceiling : Option WatermarkEntry) :
    Journaled s (s.persist io pkh t entry ceiling).2 := by
  refine ⟨(persist_spec io pkh t entry ceiling s (hclean s.wm.chainId)).2.2.macKeys, ?_⟩
  cases hmac : s.wm.macKeys pkh with
  | none =>
    simp only [persist, HighWatermark.markBytes, HighWatermark.macKey, hmac, Except.map]
    exact .refl
  | some macKey =>
    cases hkey : s.wm.keys pkh with
    | none =>
      simp only [persist, HighWatermark.markBytes, HighWatermark.macKey, hmac, Except.map,
        HighWatermark.perKey, hkey]
      exact .refl
    | some perKey =>
      simp only [persist, HighWatermark.markBytes, HighWatermark.macKey, hmac, Except.map,
        HighWatermark.perKey, hkey]
      have hrec : (Mark.mk pkh s.wm.chainId t entry).IsRecord s.wm.macKeys
          (Watermark.encodeAuthenticated macKey s.wm.chainId.bytes.1 entry.level entry.round).1 :=
        ⟨macKey, hmac, rfl⟩
      cases io with
      | done => exact .single (.put hrec (.inr rfl))
      | failed left e =>
        cases left with
        | new => exact .single (.put hrec (.inr rfl))
        | old =>
          have hsame : s.disk.setFile pkh t (s.disk.files pkh t) = s.disk := by
            simp only [Disk.setFile, Function.update_eq_self]
          simp only [Disk.writeRecord, Left.content, hsame]
          exact .refl
        | garbled bytes =>
          exact .single (.torn fun k mk chainId hk => hclean chainId bytes e k mk rfl hk)

/-- `rollback_disk_watermark` writes the mark it restores. -/
theorem journaled_rollbackDiskWatermark {s : Store} {io : WriteIo}
    (hclean : ∀ chainId, io.Clean s.wm.macKeys chainId) (u : WatermarkUpdate) :
    Journaled s (s.rollbackDiskWatermark io u).2 := by
  rw [rollbackDiskWatermark]
  split
  · exact Journaled.refl s
  · exact journaled_persist hclean _ _ _ _

/-- `write_ceiling` writes its ceiling, or nothing. -/
theorem journaled_writeCeiling {s : Store} {io : WriteIo}
    (hclean : ∀ chainId, io.Clean s.wm.macKeys chainId) (pkh : PublicKeyHash) (t : OperationType)
    (ceilingLevel : UInt32) : Journaled s (s.writeCeiling io pkh t ceilingLevel).2 := by
  rcases writeCeiling_spec io pkh t ceilingLevel s with h | ⟨-, -, h⟩
  · rw [h]
    exact Journaled.refl s
  · rw [h]
    exact journaled_persist hclean _ _ _ _

/-- The writes of `update_to_level`. -/
theorem journaled_writeAll {ios : OperationType → WriteIo} : ∀ {us : List WatermarkUpdate}
    {s : Store}, (∀ t chainId, (ios t).Clean s.wm.macKeys chainId) →
    Journaled s (s.writeAll ios us).2
  | [], s, _ => Journaled.refl s
  | u :: us, s, hclean => by
    have hwrite : Journaled s (s.writeWatermark (ios u.idx) u).2 :=
      journaled_persist (hclean u.idx) _ _ _ _
    rw [writeAll]
    generalize s.writeWatermark (ios u.idx) u = r at hwrite
    obtain ⟨r, s'⟩ := r
    cases r with
    | error e => exact hwrite
    | ok _ => exact hwrite.trans (journaled_writeAll (hwrite.macKeys ▸ hclean))

/-- `update_to_level`. -/
theorem journaled_updateToLevel {s : Store} {ios : OperationType → WriteIo}
    (hclean : ∀ t chainId, (ios t).Clean s.wm.macKeys chainId) (fault : Option LoadFault)
    (chainId : ChainId) (pkh : PublicKeyHash) (level : UInt32) :
    Journaled s (s.updateToLevel fault ios chainId pkh level).2 := by
  have hload := journaled_ensureKey fault pkh s
  rw [updateToLevel]
  generalize s.ensureKey fault pkh = r at hload
  obtain ⟨r, s'⟩ := r
  cases r with
  | error e => exact hload
  | ok _ =>
    dsimp only
    split
    · exact hload
    · have hset : ∀ perKey, Journaled s' { s' with wm := s'.wm.setKey pkh perKey } :=
        fun _ => ⟨rfl, .refl⟩
      exact (hload.trans (hset _)).trans (journaled_writeAll (hload.macKeys ▸ hclean))

/-- `seed_floor`. -/
theorem journaled_seedFloor {s : Store} {ios : OperationType → WriteIo}
    (hclean : ∀ t chainId, (ios t).Clean s.wm.macKeys chainId) (fault : Option LoadFault)
    (chainId : ChainId) (pkh : PublicKeyHash) (level : UInt32) :
    Journaled s (s.seedFloor fault ios chainId pkh level).2 := by
  have hload := journaled_ensureKey fault pkh s
  rw [seedFloor]
  generalize s.ensureKey fault pkh = r at hload
  obtain ⟨r, s'⟩ := r
  cases r with
  | error e => exact hload
  | ok _ =>
    dsimp only
    split
    · exact hload
    · exact hload.trans (journaled_updateToLevel (hload.macKeys ▸ hclean) _ _ _ _)

end Store

/-- The file writes of `seed_watermarks`. -/
theorem Disk.seedFiles_steps {macKeys : PublicKeyHash → Option Watermark.MacKey}
    {ios : OperationType → WriteIo} (hclean : ∀ t chainId, (ios t).Clean macKeys chainId)
    {pkh : PublicKeyHash} {chainId : ChainId} {entry : WatermarkEntry} {buf : List UInt8}
    (hbuf : ∀ t, (Mark.mk pkh chainId t entry).IsRecord macKeys buf) :
    ∀ (ts : List OperationType) (d : Disk), Relation.ReflTransGen (DiskStep macKeys) d
      (d.seedFiles ios pkh chainId entry buf ts).2
  | [], _ => .refl
  | t :: ts, d => by
    rw [Disk.seedFiles]
    split
    · exact .head (.put (hbuf t) (.inl rfl)) (seedFiles_steps hclean hbuf ts _)
    · exact .single (.put (hbuf t) (.inl rfl))
    · exact .refl
    · next bytes e hio =>
      exact .single (.torn fun k macKey c hk => hclean t c bytes e k macKey hio hk)

/-! ## The life of a card -/

/-- A card: the tracker of the running session, if any, and the disk. -/
structure Life where
  proc : Option HighWatermark
  disk : Disk

/-- What happens to a card: sessions that start on any keys and chain, the operations of the
tracker in any order and with any arguments, the host's seeding, and a thief's copies. -/
inductive LifeEvent
  | start (io : LoadIo) (pkhs : List PublicKeyHash) (chainId : ChainId)
  | check (fault : Option LoadFault) (chainId : ChainId) (pkh : PublicKeyHash) (t : OperationType)
      (level round : UInt32)
  | rollbackUpdate (u : WatermarkUpdate)
  | writeWatermark (io : WriteIo) (u : WatermarkUpdate)
  | rollbackDiskWatermark (io : WriteIo) (u : WatermarkUpdate)
  | writeCeiling (io : WriteIo) (pkh : PublicKeyHash) (t : OperationType) (level : UInt32)
  | updateToLevel (fault : Option LoadFault) (ios : OperationType → WriteIo) (chainId : ChainId)
      (pkh : PublicKeyHash) (level : UInt32)
  | seedFloor (fault : Option LoadFault) (ios : OperationType → WriteIo) (chainId : ChainId)
      (pkh : PublicKeyHash) (level : UInt32)
  | seedWatermarks (dir : Option IoError) (ios : OperationType → WriteIo) (pkh : PublicKeyHash)
      (level : UInt32) (macKey : Watermark.MacKey) (chainId : ChainId)
  | copy (pkh : PublicKeyHash) (t : OperationType) (content : List UInt8)

namespace Life

variable [Base58]

/-- An operation of the running tracker. -/
def onTracker (life : Life) (f : Store → Store) : Option Life :=
  life.proc.map fun wm =>
    let s := f ⟨wm, life.disk⟩
    ⟨some s.wm, s.disk⟩

/-- One event; `none` where no tracker runs for it. -/
def step (macKeys : PublicKeyHash → Option Watermark.MacKey) (life : Life) :
    LifeEvent → Option Life
  | .start io pkhs chainId =>
    some ⟨(HighWatermark.new io life.disk pkhs macKeys chainId).toOption, life.disk⟩
  | .check fault chainId pkh t level round =>
    life.onTracker fun s => (s.checkAndUpdateParsed fault chainId pkh t level round).2
  | .rollbackUpdate u => life.onTracker fun s => { s with wm := s.wm.rollbackUpdate u }
  | .writeWatermark io u => life.onTracker fun s => (s.writeWatermark io u).2
  | .rollbackDiskWatermark io u => life.onTracker fun s => (s.rollbackDiskWatermark io u).2
  | .writeCeiling io pkh t level => life.onTracker fun s => (s.writeCeiling io pkh t level).2
  | .updateToLevel fault ios chainId pkh level =>
    life.onTracker fun s => (s.updateToLevel fault ios chainId pkh level).2
  | .seedFloor fault ios chainId pkh level =>
    life.onTracker fun s => (s.seedFloor fault ios chainId pkh level).2
  | .seedWatermarks dir ios pkh level macKey chainId =>
    some { life with
      disk := (Disk.seedWatermarks dir ios pkh level macKey chainId life.disk).2 }
  | .copy pkh t content => some { life with disk := life.disk.setFile pkh t content }

/-- What an event is trusted to do: a failed write leaves nothing that loads besides the old and
the new content, the host seeds a key under its own MAC key, and a copy is the record of a mark
that was written, or nothing that loads. -/
def Fair (macKeys : PublicKeyHash → Option Watermark.MacKey) (life : Life) : LifeEvent → Prop
  | .start .. | .check .. | .rollbackUpdate _ => True
  | .writeWatermark io _ | .rollbackDiskWatermark io _ | .writeCeiling io .. =>
    ∀ chainId, io.Clean macKeys chainId
  | .updateToLevel _ ios .. | .seedFloor _ ios .. => ∀ t chainId, (ios t).Clean macKeys chainId
  | .seedWatermarks _ ios pkh _ macKey _ =>
    macKeys pkh = some macKey ∧ ∀ t chainId, (ios t).Clean macKeys chainId
  | .copy _ _ content =>
    Unreadable macKeys content ∨ ∃ m ∈ life.disk.written, m.IsRecord macKeys content

/-- What every state of a life satisfies. -/
structure Genuine (macKeys : PublicKeyHash → Option Watermark.MacKey) (life : Life) : Prop where
  tracker : ∀ wm, life.proc = some wm → wm.macKeys = macKeys
  disk : life.disk.Authentic macKeys

omit [Base58] in
/-- An operation of the tracker keeps the card genuine. -/
theorem Genuine.onTracker {macKeys : PublicKeyHash → Option Watermark.MacKey} {life life' : Life}
    (h : life.Genuine macKeys) {f : Store → Store}
    (hf : ∀ s : Store, s.wm.macKeys = macKeys → Store.Journaled s (f s))
    (hstep : life.onTracker f = some life') : life'.Genuine macKeys := by
  rw [Life.onTracker, Option.map_eq_some_iff] at hstep
  obtain ⟨wm, hproc, rfl⟩ := hstep
  have hmac := h.tracker wm hproc
  have hj := hf ⟨wm, life.disk⟩ hmac
  refine ⟨fun wm' hwm' => ?_, ?_⟩
  · cases hwm'
    exact hj.macKeys.trans hmac
  · exact h.disk.steps (hmac ▸ hj.disk)

/-- A fair event keeps the card genuine. -/
theorem Genuine.step {macKeys : PublicKeyHash → Option Watermark.MacKey} {life life' : Life}
    {e : LifeEvent} (h : life.Genuine macKeys) (hfair : life.Fair macKeys e)
    (hstep : life.step macKeys e = some life') : life'.Genuine macKeys := by
  cases e with
  | start io pkhs chainId =>
    cases hstep
    refine ⟨fun wm hwm => ?_, h.disk⟩
    exact (Store.new_spec (ok_of_toOption hwm)).1
  | check =>
    exact h.onTracker (fun s _ => Store.journaled_checkAndUpdateParsed _ _ _ _ _ _ s) hstep
  | rollbackUpdate u => exact h.onTracker (fun s _ => Store.journaled_setEntry s _ _ _) hstep
  | writeWatermark io u =>
    exact h.onTracker (fun s hs => Store.journaled_persist (hs ▸ hfair) _ _ _ _) hstep
  | rollbackDiskWatermark io u =>
    exact h.onTracker (fun s hs => Store.journaled_rollbackDiskWatermark (hs ▸ hfair) u) hstep
  | writeCeiling io pkh t level =>
    exact h.onTracker (fun s hs => Store.journaled_writeCeiling (hs ▸ hfair) _ _ _) hstep
  | updateToLevel fault ios chainId pkh level =>
    exact h.onTracker (fun s hs => Store.journaled_updateToLevel (hs ▸ hfair) _ _ _ _) hstep
  | seedFloor fault ios chainId pkh level =>
    exact h.onTracker (fun s hs => Store.journaled_seedFloor (hs ▸ hfair) _ _ _ _) hstep
  | seedWatermarks dir ios pkh level macKey chainId =>
    cases hstep
    obtain ⟨hmac, hclean⟩ := hfair
    refine ⟨h.tracker, ?_⟩
    unfold Disk.seedWatermarks
    split
    · exact h.disk
    · exact (h.disk.step (.dirs : DiskStep macKeys life.disk (life.disk.mkDir pkh))).steps
        (Disk.seedFiles_steps hclean (fun t => ⟨macKey, hmac, rfl⟩) _ _)
  | copy pkh t content =>
    cases hstep
    refine ⟨h.tracker, ?_⟩
    rcases hfair with hun | ⟨m, hm, hrec⟩
    · exact h.disk.step (.torn hun)
    · exact h.disk.step (.copied hm hrec)

/-- **A record that loads was written for its key and chain.** Over any life of a card that
started with nothing readable, whatever was copied where: a new tracker for a chain takes the
record of a file as the mark of a key only if the device wrote that mark for that key and chain,
under one of the three operation types. -/
theorem load_written (macKeys : PublicKeyHash → Option Watermark.MacKey)
    (hdistinct : ∀ k k' macKey, macKeys k = some macKey → macKeys k' = some macKey → k = k')
    (disk : Disk) (hblank : ∀ k t, Unreadable macKeys (disk.files k t)) (es : List LifeEvent)
    (life : Life) (hfair : Automaton.Along (step macKeys) (Fair macKeys) ⟨none, disk⟩ es)
    (hrun : Automaton.run (step macKeys) ⟨none, disk⟩ es = some life) (k : PublicKeyHash)
    (chainId : ChainId) (hunforged : Unforged macKeys life.disk.written k chainId) (io : LoadIo)
    (pkhs : List PublicKeyHash) (wm : HighWatermark)
    (hnew : HighWatermark.new io life.disk pkhs macKeys chainId = .ok wm) (t : OperationType)
    (e : WatermarkEntry) (hmark : Store.mem ⟨wm, life.disk⟩ k t = some e) :
    ∃ t', ⟨k, chainId, t', e⟩ ∈ life.disk.written := by
  have hgenuine : life.Genuine macKeys :=
    Automaton.run_invariant (fun _ _ _ hI hG h => hI.step hG h)
      (⟨nofun, fun k t => .inl (hblank k t)⟩ : Life.Genuine macKeys ⟨none, disk⟩) hfair hrun
  obtain ⟨-, -, -, hslot⟩ := Store.new_spec hnew
  rcases (hslot k t).1 with hnone | hreload
  · cases hnone.symm.trans hmark
  · exact hgenuine.disk.written_of_reload hdistinct hunforged (hreload.symm.trans hmark)

end Life

end

namespace Life

attribute [local instance] plainBlake3 plainBase58

/-- A card that is seeded at level 100 and signs an attestation of level 105. -/
def attestedLife : List LifeEvent :=
  [.start LoadIo.quiet [testKey 1] testChain,
    .updateToLevel none (fun _ => .done) testChain (testKey 1) 100,
    .check none testChain (testKey 1) .attestation 105 0,
    .writeWatermark .done ⟨testKey 1, .attestation, 105, 0, some ⟨100, 0⟩⟩]

/-- The attestation record of that card. -/
def attestedRecord : List UInt8 :=
  match testMacKeys [testKey 1] (testKey 1) with
  | some macKey => (Watermark.encodeAuthenticated macKey testChain.bytes.1 105 0).1
  | none => []

/-- The marks that card has written. -/
def attestedMarks : List Mark :=
  [⟨testKey 1, testChain, .attestation, ⟨105, 0⟩⟩, ⟨testKey 1, testChain, .attestation, ⟨100, 0⟩⟩,
    ⟨testKey 1, testChain, .preattestation, ⟨100, 0⟩⟩, ⟨testKey 1, testChain, .block, ⟨100, 0⟩⟩]

/-- A disk with the key's directory and no record. -/
def blankDisk : Disk := ⟨fun _ => true, fun _ _ => [], []⟩

/-- A single key has a MAC key of its own. -/
theorem testMacKeys_distinct (k k' : PublicKeyHash) (macKey : Watermark.MacKey)
    (h : testMacKeys [testKey 1] k = some macKey) (h' : testMacKeys [testKey 1] k' = some macKey) :
    k = k' := by
  simp only [testMacKeys, List.mem_singleton] at h h'
  split at h
  · next hk =>
    split at h'
    · next hk' => exact hk.trans hk'.symm
    · cases h'
  · cases h

/-- Nothing loads from a blank disk. -/
theorem blankDisk_unreadable (k : PublicKeyHash) (t : OperationType) :
    Unreadable (testMacKeys [testKey 1]) (blankDisk.files k t) :=
  unreadable_of_length (show (0 : ℕ) ≠ 72 by decide)

/-- Marks of one key and chain are not forged for that chain. -/
theorem attestedMarks_unforged :
    Unforged (testMacKeys [testKey 1]) attestedMarks (testKey 1) testChain := by
  have hall : ∀ m ∈ attestedMarks, m.pkh = testKey 1 ∧ m.chainId = testChain := by decide
  intro m hm macKey macKey' _ hmac' message _
  obtain ⟨hpkh, hchain⟩ := hall m hm
  exact ⟨m, hm, hpkh ▸ hmac', by rw [hchain]⟩

/-- The life of that card is fair, and ends with its marks. -/
theorem attestedLife_run : Automaton.Along (step (testMacKeys [testKey 1]))
      (Fair (testMacKeys [testKey 1])) ⟨none, blankDisk⟩ attestedLife ∧
    (Automaton.run (step (testMacKeys [testKey 1])) ⟨none, blankDisk⟩ attestedLife).map
      (·.disk.written) = some attestedMarks := by
  have hfair : ∀ e ∈ attestedLife, ∀ life, Fair (testMacKeys [testKey 1]) life e := by
    intro e he
    simp only [attestedLife, List.mem_cons, List.not_mem_nil, or_false] at he
    rcases he with rfl | rfl | rfl | rfl
    · exact fun _ => trivial
    · exact fun _ _ _ => nofun
    · exact fun _ => trivial
    · exact fun _ _ => nofun
  exact ⟨(Automaton.along_of_forall _ hfair).mono fun life e h => h life, by decide +kernel⟩

/-- The attestation mark of that card loads after a restart, and was written for it. -/
theorem load_written_attestation : ∃ life wm,
    Automaton.run (step (testMacKeys [testKey 1])) ⟨none, blankDisk⟩ attestedLife = some life ∧
      HighWatermark.new LoadIo.quiet life.disk [testKey 1] (testMacKeys [testKey 1]) testChain =
        .ok wm ∧
      Store.mem ⟨wm, life.disk⟩ (testKey 1) .attestation = some ⟨105, 0⟩ ∧
      ∃ t', ⟨testKey 1, testChain, t', ⟨105, 0⟩⟩ ∈ life.disk.written := by
  have hload : (Automaton.run (step (testMacKeys [testKey 1])) ⟨none, blankDisk⟩
      attestedLife).map (fun life =>
        (HighWatermark.new LoadIo.quiet life.disk [testKey 1] (testMacKeys [testKey 1])
          testChain).toOption.map fun wm =>
            Store.mem ⟨wm, life.disk⟩ (testKey 1) .attestation) =
      some (some (some ⟨105, 0⟩)) := by decide +kernel
  obtain ⟨life, hrun, hlife⟩ := Option.map_eq_some_iff.1 hload
  obtain ⟨wm, hnew, hmark⟩ := Option.map_eq_some_iff.1 hlife
  have hnew' := ok_of_toOption hnew
  obtain ⟨hfair, hwritten⟩ := attestedLife_run
  rw [hrun] at hwritten
  have hmarks : life.disk.written = attestedMarks := Option.some.inj hwritten
  refine ⟨life, wm, hrun, hnew', hmark, ?_⟩
  exact load_written _ testMacKeys_distinct blankDisk blankDisk_unreadable attestedLife life hfair
    hrun (testKey 1) testChain (hmarks ▸ attestedMarks_unforged) LoadIo.quiet
    [testKey 1] wm hnew' .attestation ⟨105, 0⟩ hmark

/-- **A record loads under another operation type**: the attestation record of that card, copied
to the file of the blocks, is the mark of the blocks after a restart. -/
theorem moved_between_types : ¬∀ [Blake3] [Base58]
    (macKeys : PublicKeyHash → Option Watermark.MacKey),
    (∀ k k' macKey, macKeys k = some macKey → macKeys k' = some macKey → k = k') →
    ∀ (disk : Disk), (∀ k t, Unreadable macKeys (disk.files k t)) →
    ∀ (es : List LifeEvent) (life : Life),
    Automaton.Along (step macKeys) (Fair macKeys) ⟨none, disk⟩ es →
    Automaton.run (step macKeys) ⟨none, disk⟩ es = some life → ∀ k chainId,
    Unforged macKeys life.disk.written k chainId → ∀ io pkhs wm,
    HighWatermark.new io life.disk pkhs macKeys chainId = .ok wm → ∀ t e,
    Store.mem ⟨wm, life.disk⟩ k t = some e → ⟨k, chainId, t, e⟩ ∈ life.disk.written := by
  intro hclaim
  obtain ⟨hfair, hwritten⟩ := attestedLife_run
  -- the copy is of a record the device wrote
  have hfair' : Automaton.Along (step (testMacKeys [testKey 1])) (Fair (testMacKeys [testKey 1]))
      ⟨none, blankDisk⟩ (attestedLife ++ [.copy (testKey 1) .block attestedRecord]) := by
    refine hfair.concat fun life hlife => .inr ⟨⟨testKey 1, testChain, .attestation, ⟨105, 0⟩⟩, ?_,
      Blake3.keyedHash ⟨List.replicate 32 0xAB, rfl⟩ (testKey 1).hash.1, by decide +kernel, rfl⟩
    rw [hlife] at hwritten
    have hmarks : life.disk.written = attestedMarks := Option.some.inj hwritten
    rw [hmarks]
    decide
  have hload : (Automaton.run (step (testMacKeys [testKey 1])) ⟨none, blankDisk⟩
      (attestedLife ++ [.copy (testKey 1) .block attestedRecord])).map (fun life =>
        (life.disk.written, (HighWatermark.new LoadIo.quiet life.disk [testKey 1]
          (testMacKeys [testKey 1]) testChain).toOption.map fun wm =>
            Store.mem ⟨wm, life.disk⟩ (testKey 1) .block)) =
      some (attestedMarks, some (some ⟨105, 0⟩)) := by decide +kernel
  obtain ⟨life, hrun, hlife⟩ := Option.map_eq_some_iff.1 hload
  obtain ⟨hmarks, hnew⟩ := Prod.mk.inj hlife
  obtain ⟨wm, hnew, hmark⟩ := Option.map_eq_some_iff.1 hnew
  have hbound := hclaim (testMacKeys [testKey 1]) testMacKeys_distinct blankDisk
    blankDisk_unreadable _ life hfair' hrun (testKey 1) testChain
    (hmarks ▸ attestedMarks_unforged) LoadIo.quiet [testKey 1] wm (ok_of_toOption hnew) .block
    ⟨105, 0⟩ hmark
  rw [hmarks] at hbound
  exact absurd hbound (by decide)

end Life

end Russignol
