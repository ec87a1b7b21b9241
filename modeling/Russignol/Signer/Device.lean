import Russignol.Base.Automaton
import Russignol.Signer.SignEffect

/-!
# Runs of the signer

A signer process over its disk, with the ceiling threads that sleep and the log of what it signed.
An action is a sign request, a ceiling thread waking, an operator's `update_to_level`, or a power
loss followed by a new process; every fault the kernel or the BLS library can answer with is part
of the action, and a power loss during a write is that write failing, then a restart.

Slot by slot a step of the signer is steps of a durable floor (`step_slot`): the relation
`FloorRegister.Step`, and `FloorRegister.Assign` for the operator. The one way out of the relation
is a signature that fails under a ceiling and whose roll-back reaches the disk but reports an error
(`SignIo.Lowers`).
-/

namespace Russignol

open Bytes FloorRegister Relation

variable [Blake3] [Base58]

/-- What stays the same over the restarts of one card: the keys, the provisioned chain, and a
handler that was built over the watermarks of that chain. -/
structure Card where
  handler : RequestHandler
  pkhs : List PublicKeyHash
  macKeys : PublicKeyHash → Option Watermark.MacKey
  chainId : ChainId
  watermarked : handler.watermark = true
  provisioned : handler.provisionedChainId = some chainId

/-- The signer. -/
structure Device where
  /-- `none` where the watermarks could not be loaded: nothing is served. -/
  proc : Option HighWatermark
  disk : Disk
  /-- The ceiling threads that sleep. -/
  scheduled : List CeilingTask
  /-- The requests signed, the latest first. -/
  signed : List (PublicKeyHash × List UInt8)

/-- What can happen to a signer. -/
inductive Action
  | sign (seen : HighWatermark) (io : SignIo) (pkh : PublicKeyHash) (data : List UInt8)
  | fire (i : Nat) (io : WriteIo)
  | confirm (fault : Option LoadFault) (ios : OperationType → WriteIo) (chainId : ChainId)
      (pkh : PublicKeyHash) (level : UInt32)
  | restart (io : LoadIo)

namespace Device

/-- A signer that starts on a disk. -/
def boot (card : Card) (io : LoadIo) (disk : Disk)
    (signed : List (PublicKeyHash × List UInt8)) : Device where
  proc := (HighWatermark.new io disk card.pkhs card.macKeys card.chainId).toOption
  disk := disk
  scheduled := []
  signed := signed

/-- Take an action; `none` where it cannot be taken. -/
def step (card : Card) (d : Device) : Action → Option Device
  | .sign seen io pkh data =>
    d.proc.map fun wm =>
      let reply := card.handler.handleSign seen io pkh data ⟨wm, d.disk⟩
      { proc := some reply.store.wm
        disk := reply.store.disk
        scheduled := d.scheduled ++ reply.ceiling.toList
        signed := match reply.result with
          | .ok _ => (pkh, data) :: d.signed
          | .error _ => d.signed }
  | .fire i io =>
    d.proc.bind fun wm => d.scheduled[i]?.map fun task =>
      let s := (Store.writeCeiling io task.pkh task.idx task.level ⟨wm, d.disk⟩).2
      { d with proc := some s.wm, disk := s.disk, scheduled := d.scheduled.eraseIdx i }
  | .confirm fault ios chainId pkh level =>
    d.proc.map fun wm =>
      let s := (Store.updateToLevel fault ios chainId pkh level ⟨wm, d.disk⟩).2
      { d with proc := some s.wm, disk := s.disk }
  | .restart io => some (boot card io d.disk d.signed)

/-- The entries signed for a key and operation type, the latest first. -/
def issued (d : Device) (k : PublicKeyHash) (t : OperationType) : List WatermarkEntry :=
  d.signed.filterMap fun (pkh, data) =>
    (markOf data).bind fun (t', x) => if pkh = k ∧ t' = t then some x else none

/-- The mark in memory. -/
def mem (d : Device) (k : PublicKeyHash) (t : OperationType) : Option WatermarkEntry :=
  d.proc.bind fun wm => Store.mem ⟨wm, d.disk⟩ k t

/-- The ceiling believed to be on stable storage. -/
def ceil (d : Device) (k : PublicKeyHash) (t : OperationType) : Option WatermarkEntry :=
  d.proc.bind fun wm => Store.ceil ⟨wm, d.disk⟩ k t

/-- A slot as a durable floor, with what was signed for it. -/
def slot (card : Card) (d : Device) (k : PublicKeyHash) (t : OperationType) :
    Register WatermarkEntry :=
  ⟨d.mem k t, d.disk.reload card.macKeys card.chainId k t, d.ceil k t, d.issued k t⟩

/-- What every state of a run satisfies. -/
structure Wf (card : Card) (d : Device) : Prop where
  macKeys : ∀ wm, d.proc = some wm → wm.macKeys = card.macKeys
  chainId : ∀ wm, d.proc = some wm → wm.chainId = card.chainId
  /-- A ceiling thread was started by a signature, so its slot has a mark. -/
  scheduled : ∀ task ∈ d.scheduled, ∃ m, d.mem task.pkh task.idx = some m

end Device

/-- The faults of an action leave nothing readable besides the old and the new records. -/
def Action.Clean (card : Card) : Action → Prop
  | .sign _ io _ _ =>
    io.write.Clean card.macKeys card.chainId ∧ io.rollback.Clean card.macKeys card.chainId
  | .fire _ io => io.Clean card.macKeys card.chainId
  | .confirm _ ios _ _ _ => ∀ t, (ios t).Clean card.macKeys card.chainId
  | .restart _ => True

namespace PersistEffect

omit [Blake3] [Base58] in
/-- A record at or above the mark is written, and becomes the ceiling or clears it: a step of the
durable floor, unless the write fails over a higher ceiling. -/
theorem steps {io : WriteIo} {y m : WatermarkEntry} {ceiling : Option WatermarkEntry}
    {a b : Register WatermarkEntry} {r : Except WatermarkError Unit}
    (h : PersistEffect io y ceiling a r b) (hm : a.mem = some m) (hle : m ≤ y)
    (hceiling : ceiling = none ∨ ceiling = some y)
    (hland : ∀ e, io = .failed .new e → ∀ c, a.ceil = some c → c ≤ y) :
    ReflTransGen Step a b := by
  cases h with
  | done _ hd =>
    rcases hceiling with rfl | rfl
    · exact .single (.settled hm hle hd)
    · exact .single (.raised hm hle hd)
  | kept => exact .refl
  | landed hio hd => exact .single (.missed hm hle (hland _ hio) hd)
  | torn => exact .single .torn

end PersistEffect

/-- A signature that fails under a ceiling, and whose roll-back reaches the disk but reports an
error. -/
def SignIo.Lowers (io : SignIo) : Prop :=
  (∃ e, io.sign = .error e) ∧ ∃ e, io.rollback = .failed .new e

namespace SignEffect

/-- A slot with the outcome of a request noted: an entry that was signed has been issued. -/
def noted (r : Except ServerError Signature) (x : WatermarkEntry) (b : Register WatermarkEntry) :
    Register WatermarkEntry :=
  match r with
  | .ok _ => { b with issued := x :: b.issued }
  | .error _ => b

omit [Blake3] [Base58] in
/-- A request under the write lock is steps of the durable floor. -/
theorem steps {io : SignIo} {m x : WatermarkEntry} {a b : Register WatermarkEntry}
    {r : Except ServerError Signature} (h : SignEffect io m x a r b) (hm : a.mem = some m)
    (hx : m < x) (hlower : io.Lowers → ∀ c, a.ceil = some c → c < x) :
    ReflTransGen Step a (noted r x b) := by
  cases h with
  | covered _ hc hle => exact .single (.covered hm hx hc hle)
  | written _ hd => exact .single (.written hm hx hd)
  | unwritten hlt hp => exact hp.steps hm hx.le (.inl rfl) fun _ _ c hc => (hlt c hc).le
  | unsignedCovered hsign hc hle hp =>
    refine hp.steps hm le_rfl (.inl rfl) fun e hio => ?_
    exact absurd (hlower ⟨⟨_, hsign⟩, e, hio⟩ _ hc) hle.not_gt
  | @unsignedWritten e d r b hsign hd hp =>
    have hfirst : Step a { a with disk := d, ceil := none } := .settled hm hx.le hd
    have hrest : ReflTransGen Step { a with disk := d, ceil := none } b := by
      refine hp.steps hm le_rfl (.inl rfl) fun e _ c hc => ?_
      cases hc
    exact .head hfirst hrest

end SignEffect

namespace Device

/-! ## Steps, slot by slot -/

/-- A signer that runs on a store of its card. -/
structure OnStore (card : Card) (d : Device) (s : Store) : Prop where
  proc : d.proc = some s.wm
  disk : d.disk = s.disk
  macKeys : s.wm.macKeys = card.macKeys
  chainId : s.wm.chainId = card.chainId

omit [Blake3] [Base58] in
/-- A running signer runs on its own store. -/
theorem Wf.onStore {card : Card} {d : Device} (hwf : d.Wf card) {wm : HighWatermark}
    (hproc : d.proc = some wm) : d.OnStore card ⟨wm, d.disk⟩ :=
  ⟨hproc, rfl, hwf.macKeys wm hproc, hwf.chainId wm hproc⟩

namespace OnStore

variable {card : Card} {d d' : Device} {s s' : Store}

omit [Base58] in
/-- A slot of the signer is the slot of its store. -/
theorem slot (h : d.OnStore card s) (k : PublicKeyHash) (t : OperationType) :
    d.slot card k t = s.slot k t (d.issued k t) := by
  obtain ⟨hproc, hdisk, hmac, hchain⟩ := h
  simp only [Device.slot, Device.mem, Device.ceil, hproc, Option.bind_some, Store.slot,
    Store.reload, hmac, hchain, hdisk]

omit [Base58] in
/-- So is its mark. -/
theorem mem (h : d.OnStore card s) (k : PublicKeyHash) (t : OperationType) :
    d.mem k t = s.mem k t :=
  congrArg Register.mem (h.slot k t)

omit [Blake3] [Base58] in
/-- A step to another store of the same configuration. -/
theorem next (h : d.OnStore card s) (hconfig : s.SameConfig s') (hproc : d'.proc = some s'.wm)
    (hdisk : d'.disk = s'.disk) : d'.OnStore card s' :=
  ⟨hproc, hdisk, hconfig.macKeys.trans h.macKeys, hconfig.chainId.trans h.chainId⟩

omit [Base58] in
/-- It is well formed where the sleeping threads have their marks. -/
theorem wf (h : d.OnStore card s)
    (hscheduled : ∀ task ∈ d.scheduled, ∃ m, s.mem task.pkh task.idx = some m) : d.Wf card where
  macKeys wm hwm := by
    cases h.proc.symm.trans hwm
    exact h.macKeys
  chainId wm hwm := by
    cases h.proc.symm.trans hwm
    exact h.chainId
  scheduled task htask := by
    obtain ⟨m, hm⟩ := hscheduled task htask
    exact ⟨m, (h.mem _ _).trans hm⟩

end OnStore

omit [Blake3] [Base58] in
/-- A request with no mark adds nothing to what was issued. -/
theorem issued_of_none {d d' : Device} {pkh : PublicKeyHash} {data : List UInt8}
    (hmark : markOf data = none) (hsigned : d'.signed = (pkh, data) :: d.signed)
    (k : PublicKeyHash) (t : OperationType) : d'.issued k t = d.issued k t := by
  simp only [issued, hsigned, List.filterMap_cons, hmark, Option.bind_none]

omit [Blake3] [Base58] in
/-- A signed request adds its entry to its own slot. -/
theorem issued_of_some {d d' : Device} {pkh : PublicKeyHash} {data : List UInt8}
    {t : OperationType} {x : WatermarkEntry} (hmark : markOf data = some (t, x))
    (hsigned : d'.signed = (pkh, data) :: d.signed) (k : PublicKeyHash) (t' : OperationType) :
    d'.issued k t' = if pkh = k ∧ t = t' then x :: d.issued k t' else d.issued k t' := by
  simp only [issued, hsigned, List.filterMap_cons, hmark, Option.bind_some]
  split_ifs <;> rfl

/-- What a sign request does to the slots of a signer: marks may be read from their files, and
where the request passes the check its own slot takes one effect, and what was signed is noted. -/
inductive Requested (card : Card) (d : Device) (seen : HighWatermark) (io : SignIo)
    (pkh : PublicKeyHash) (data : List UInt8) (d' : Device) : Prop
  | refused : (∀ k t, Fetch (d.slot card k t) (d'.slot card k t)) →
      Requested card d seen io pkh data d'
  | attempted (t : OperationType) (m x : WatermarkEntry) (r : Except ServerError Signature)
      (b b' : Register WatermarkEntry) : card.handler.Admits seen pkh data →
      markOf data = some (t, x) → m < x → Fetch (d.slot card pkh t) b → b.mem = some m →
      SignEffect io m x b r b' →
      d'.slot card pkh t = SignEffect.noted r x b' →
      (∀ k t', ¬(k = pkh ∧ t' = t) → Fetch (d.slot card k t') (d'.slot card k t')) →
      Requested card d seen io pkh data d'

/-- **A sign request, slot by slot.** -/
theorem sign_slots {card : Card} {d d' : Device} (hwf : d.Wf card) {seen : HighWatermark}
    {io : SignIo} {pkh : PublicKeyHash} {data : List UInt8}
    (hclean : (Action.sign seen io pkh data).Clean card)
    (hstep : d.step card (.sign seen io pkh data) = some d') :
    d'.Wf card ∧ Requested card d seen io pkh data d' := by
  rw [step, Option.map_eq_some_iff] at hstep
  obtain ⟨wm, hproc, hd'⟩ := hstep
  have hon := hwf.onStore hproc
  have hspec := card.handler.handleSign_spec card.watermarked seen io pkh data ⟨wm, d.disk⟩
    (hon.macKeys.symm ▸ hon.chainId.symm ▸ hclean.1)
    (hon.macKeys.symm ▸ hon.chainId.symm ▸ hclean.2)
  dsimp only at hd' hspec
  generalize card.handler.handleSign seen io pkh data ⟨wm, d.disk⟩ = reply at hd' hspec
  obtain ⟨hconfig, hcases⟩ := hspec
  have hon' : d'.OnStore card reply.store :=
    hon.next hconfig (by rw [← hd']) (by rw [← hd'])
  have hscheduled : d'.scheduled = d.scheduled ++ reply.ceiling.toList := by rw [← hd']
  rcases hcases with ⟨hload, hceiling, hunmarked⟩ | ⟨t, m, x, s, r, hattempt⟩
  · -- refused, or signed with no mark: keys may have been loaded
    have hissued : ∀ k t, d'.issued k t = d.issued k t := by
      intro k t
      cases hresult : reply.result with
      | ok v => exact issued_of_none (hunmarked v hresult) (by rw [← hd', hresult]) k t
      | error e =>
        have hsigned : d'.signed = d.signed := by rw [← hd', hresult]
        rw [issued, issued, hsigned]
    refine ⟨hon'.wf fun task htask => ?_, .refused fun k t => ?_⟩
    · rw [hscheduled, hceiling, Option.toList_none, List.append_nil] at htask
      obtain ⟨m, hm⟩ := hwf.scheduled task htask
      exact ⟨m, hload.mem_of_some ((hon.mem _ _).symm.trans hm)⟩
    · rw [hon.slot, hon'.slot, hissued]
      exact hload.fetch k t _
  · -- an attempt on the slot of the request
    have hown : ∃ y, reply.store.mem pkh t = some y := ⟨_, (hattempt.effect []).mem_eq hattempt.mem⟩
    have hkeep : ∀ k t' m', d.mem k t' = some m' → ∃ y, reply.store.mem k t' = some y := by
      intro k t' m' hm'
      by_cases hkt : k = pkh ∧ t' = t
      · rw [hkt.1, hkt.2]
        exact hown
      · have hload := hattempt.loaded.mem_of_some ((hon.mem k t').symm.trans hm')
        exact ⟨m', (congrArg Register.mem (hattempt.frame k t' [] hkt)).trans hload⟩
    have hother : ∀ k t', ¬(k = pkh ∧ t' = t) → d'.issued k t' = d.issued k t' := by
      intro k t' hkt
      cases r with
      | ok signature =>
        rw [issued_of_some hattempt.mark (by rw [← hd', hattempt.result]; rfl),
          if_neg fun h => hkt ⟨h.1.symm, h.2.symm⟩]
      | error e =>
        have hsigned : d'.signed = d.signed := by rw [← hd', hattempt.result]; rfl
        rw [issued, issued, hsigned]
    refine ⟨hon'.wf fun task htask => ?_, ?_⟩
    · rw [hscheduled, List.mem_append] at htask
      rcases htask with htask | htask
      · obtain ⟨m', hm'⟩ := hwf.scheduled task htask
        exact hkeep _ _ m' hm'
      · obtain ⟨hpkh, hidx, -⟩ := hattempt.ceiling task (Option.mem_toList.1 htask)
        rw [hpkh, hidx]
        exact hown
    · have hload := hattempt.loaded.fetch pkh t (d.issued pkh t)
      rw [← hon.slot] at hload
      refine .attempted t m x r _ _ hattempt.admits hattempt.mark hattempt.lt hload hattempt.mem
        (hattempt.effect _) ?_ fun k t' hkt => ?_
      · rw [hon'.slot]
        cases r with
        | ok signature =>
          rw [issued_of_some hattempt.mark (by rw [← hd', hattempt.result]; rfl),
            if_pos ⟨rfl, rfl⟩]
          rfl
        | error e =>
          have hsigned : d'.signed = d.signed := by rw [← hd', hattempt.result]; rfl
          have hissued : d'.issued pkh t = d.issued pkh t := by rw [issued, issued, hsigned]
          rw [hissued]
          rfl
      · rw [hon.slot, hon'.slot, hother k t' hkt, hattempt.frame k t' _ hkt]
        exact hattempt.loaded.fetch k t' _

/-- The signatures that a sign action can return while they must not lower a record: a request
that passes the gates and the check, under a ceiling, with a signature that fails and a roll-back
that reaches the disk all the same. -/
def Lowers (card : Card) (d : Device) (seen : HighWatermark) (io : SignIo) (pkh : PublicKeyHash)
    (data : List UInt8) : Prop :=
  io.Lowers ∧ card.handler.Admits seen pkh data ∧ ∃ t x m c, markOf data = some (t, x) ∧
    d.mem pkh t = some m ∧ m < x ∧ d.ceil pkh t = some c ∧ x ≤ c

/-- **A sign request** is steps of every slot's durable floor. -/
theorem sign_steps {card : Card} {d d' : Device} (hwf : d.Wf card) {seen : HighWatermark}
    {io : SignIo} {pkh : PublicKeyHash} {data : List UInt8}
    (hclean : (Action.sign seen io pkh data).Clean card) (hlower : ¬d.Lowers card seen io pkh data)
    (hstep : d.step card (.sign seen io pkh data) = some d') :
    d'.Wf card ∧ ∀ k t, ReflTransGen Step (d.slot card k t) (d'.slot card k t) := by
  obtain ⟨hwf', hslots⟩ := sign_slots hwf hclean hstep
  refine ⟨hwf', fun k t' => ?_⟩
  cases hslots with
  | refused hfetch => exact (hfetch k t').steps
  | attempted t m x r b b' hadmits hmark hlt hfetch hmem heffect hslot hframe =>
    by_cases hkt : k = pkh ∧ t' = t
    · obtain ⟨rfl, rfl⟩ := hkt
      -- the signature fails under a ceiling only where the roll-back does not lower the record
      have hguard : io.Lowers → ∀ c, b.ceil = some c → c < x := by
        intro hio c hc
        by_contra hle
        have hb : b = d.slot card k t' := hfetch.of_ceil hc
        rw [hb] at hmem hc
        exact hlower ⟨hio, hadmits, t', x, m, c, hmark, hmem, hlt, hc, not_lt.1 hle⟩
      rw [hslot]
      exact hfetch.steps.trans (heffect.steps hmem hlt hguard)
    · exact (hframe k t' hkt).steps

/-- **A ceiling thread** is steps of every slot's durable floor, and moves no mark. -/
theorem fire_steps {card : Card} {d d' : Device} (hwf : d.Wf card) {i : Nat} {io : WriteIo}
    (hclean : (Action.fire i io).Clean card) (hstep : d.step card (.fire i io) = some d') :
    d'.Wf card ∧ ∀ k t, ReflTransGen Step (d.slot card k t) (d'.slot card k t) ∧
      d'.mem k t = d.mem k t ∧ d'.issued k t = d.issued k t := by
  rw [step, Option.bind_eq_some_iff] at hstep
  obtain ⟨wm, hproc, hstep⟩ := hstep
  rw [Option.map_eq_some_iff] at hstep
  obtain ⟨task, htask, hd'⟩ := hstep
  have hon := hwf.onStore hproc
  have hclean' : io.Clean wm.macKeys wm.chainId := hon.macKeys.symm ▸ hon.chainId.symm ▸ hclean
  have hspec := Store.writeCeiling_spec io task.pkh task.idx task.level ⟨wm, d.disk⟩
  obtain ⟨hself, hother, hconfig⟩ := Store.persist_spec io task.pkh task.idx
    ⟨task.level, 0xFFFFFFFF⟩ (some ⟨task.level, 0xFFFFFFFF⟩) ⟨wm, d.disk⟩ hclean'
  dsimp only at hd'
  -- the store after the thread: the slots, their marks and the configuration
  obtain ⟨s', hs'⟩ : ∃ s', s' = (Store.writeCeiling io task.pkh task.idx task.level ⟨wm, d.disk⟩).2 :=
    ⟨_, rfl⟩
  rw [← hs'] at hd'
  obtain ⟨m, hm⟩ := hwf.scheduled task (List.mem_of_getElem? htask)
  have hm' : Store.mem ⟨wm, d.disk⟩ task.pkh task.idx = some m := (hon.mem _ _).symm.trans hm
  have heffect : Store.SameConfig ⟨wm, d.disk⟩ s' ∧ ∀ k t issued,
      ReflTransGen Step (Store.slot ⟨wm, d.disk⟩ k t issued) (s'.slot k t issued) ∧
        s'.mem k t = Store.mem ⟨wm, d.disk⟩ k t := by
    rcases hspec with hsame | ⟨hlt, hle, heq⟩
    · rw [hs', hsame]
      exact ⟨Store.SameConfig.refl _, fun k t issued => ⟨.refl, rfl⟩⟩
    · rw [hs', heq]
      refine ⟨hconfig, fun k t issued => ?_⟩
      by_cases hkt : k = task.pkh ∧ t = task.idx
      · rw [hkt.1, hkt.2]
        exact ⟨(hself issued).steps hm' (hlt m hm').le (.inr rfl) fun _ _ => hle,
          (hself issued).mem_eq⟩
      · have hs := hother k t issued hkt
        exact ⟨by rw [hs], congrArg Register.mem hs⟩
  have hon' : d'.OnStore card s' := hon.next heffect.1 (by rw [← hd']) (by rw [← hd'])
  have hissued : ∀ k t, d'.issued k t = d.issued k t := fun k t => by rw [← hd']; rfl
  have hmem : ∀ k t, d'.mem k t = d.mem k t := fun k t => by
    rw [hon'.mem, (heffect.2 k t []).2, hon.mem]
  refine ⟨hon'.wf fun task' htask' => ?_, fun k t => ⟨?_, hmem k t, hissued k t⟩⟩
  · have htask'' : task' ∈ d.scheduled := by
      rw [← hd'] at htask'
      exact List.mem_of_mem_eraseIdx htask'
    obtain ⟨m', hm'⟩ := hwf.scheduled task' htask''
    exact ⟨m', by rw [(heffect.2 _ _ []).2, ← hon.mem, hm']⟩
  · rw [hon.slot, hon'.slot, hissued]
    exact (heffect.2 k t _).1

/-- The tracker of a new process. -/
theorem new_of_boot {card : Card} {io : LoadIo} {disk : Disk}
    {signed : List (PublicKeyHash × List UInt8)} {wm : HighWatermark}
    (h : (boot card io disk signed).proc = some wm) :
    HighWatermark.new io disk card.pkhs card.macKeys card.chainId = .ok wm :=
  ok_of_toOption h

/-- A new process has the card's configuration, and no thread sleeps. -/
theorem boot_wf (card : Card) (io : LoadIo) (disk : Disk)
    (signed : List (PublicKeyHash × List UInt8)) : (boot card io disk signed).Wf card where
  macKeys _ h := (Store.new_spec (new_of_boot h)).1
  chainId _ h := (Store.new_spec (new_of_boot h)).2.1
  scheduled _ h := absurd h List.not_mem_nil

/-- A new process: a slot is empty or holds what its file does, and there is no ceiling. -/
theorem boot_slot (card : Card) (io : LoadIo) (disk : Disk)
    (signed : List (PublicKeyHash × List UInt8)) (k : PublicKeyHash) (t : OperationType) :
    ((boot card io disk signed).mem k t = none ∨
      (boot card io disk signed).mem k t = disk.reload card.macKeys card.chainId k t) ∧
    (boot card io disk signed).ceil k t = none := by
  cases hproc : (boot card io disk signed).proc with
  | none => simp only [mem, ceil, hproc, Option.bind_none, true_or, and_self]
  | some wm =>
    obtain ⟨-, -, -, hslot⟩ := Store.new_spec (new_of_boot hproc)
    simp only [mem, ceil, hproc, Option.bind_some]
    exact hslot k t

/-- **A restart** is a step of every slot's durable floor. -/
theorem restart_steps {card : Card} {d d' : Device} {io : LoadIo}
    (hstep : d.step card (.restart io) = some d') :
    d'.Wf card ∧ ∀ k t, ReflTransGen Step (d.slot card k t) (d'.slot card k t) := by
  cases hstep
  refine ⟨boot_wf card io d.disk d.signed, fun k t => ?_⟩
  obtain ⟨hmem, hceil⟩ := boot_slot card io d.disk d.signed k t
  have hslot : (boot card io d.disk d.signed).slot card k t =
      { d.slot card k t with mem := (boot card io d.disk d.signed).mem k t, ceil := none } := by
    rw [slot, hceil]
    rfl
  rw [hslot]
  exact .single (.reloaded hmem)

/-- What an operator's `update_to_level` does to a slot of its key, on the slot that loading the
key left. -/
def Moved (ios : OperationType → WriteIo) (y : WatermarkEntry) (t : OperationType)
    (b b' : Register WatermarkEntry) : Prop :=
  b' = { b with mem := some y } ∨
    (ios t = .done ∨ Store.firstFailure ios OperationType.all = some t) ∧
      ∃ r, PersistEffect (ios t) y none { b with mem := some y } r b'

omit [Blake3] [Base58] in
/-- The mark is the new floor. -/
theorem Moved.mem_eq {ios : OperationType → WriteIo} {y : WatermarkEntry} {t : OperationType}
    {b b' : Register WatermarkEntry} (h : Moved ios y t b b') : b'.mem = some y := by
  rcases h with rfl | ⟨-, r, h⟩
  · rfl
  · exact h.mem_eq

/-- **An operator's update** moves the floor of every slot of one key, or moves nothing. -/
theorem confirm_slots {card : Card} {d d' : Device} (hwf : d.Wf card) {fault : Option LoadFault}
    {ios : OperationType → WriteIo} {chainId : ChainId} {pkh : PublicKeyHash} {level : UInt32}
    (hclean : (Action.confirm fault ios chainId pkh level).Clean card)
    (hstep : d.step card (.confirm fault ios chainId pkh level) = some d') :
    d'.Wf card ∧ (∀ k t, d'.issued k t = d.issued k t) ∧
      ∀ k t, Fetch (d.slot card k t) (d'.slot card k t) ∨
        k = pkh ∧ ∃ b, Fetch (d.slot card k t) b ∧
          Moved ios ⟨level, 0⟩ t b (d'.slot card k t) := by
  rw [step, Option.map_eq_some_iff] at hstep
  obtain ⟨wm, hproc, hd'⟩ := hstep
  have hon := hwf.onStore hproc
  have hclean' : ∀ t, (ios t).Clean wm.macKeys wm.chainId := fun t =>
    hon.macKeys.symm ▸ hon.chainId.symm ▸ hclean t
  obtain ⟨hconfig, hcases⟩ :=
    Store.updateToLevel_spec fault ios chainId pkh level ⟨wm, d.disk⟩ hclean'
  generalize Store.updateToLevel fault ios chainId pkh level ⟨wm, d.disk⟩ = r at hd' hconfig hcases
  obtain ⟨r, s'⟩ := r
  dsimp only at hd' hconfig hcases
  have hon' : d'.OnStore card s' := hon.next hconfig (by rw [← hd']) (by rw [← hd'])
  have hissued : ∀ k t, d'.issued k t = d.issued k t := fun k t => by rw [← hd']; rfl
  have hwf' : (∀ k t m, Store.mem ⟨wm, d.disk⟩ k t = some m → ∃ y, s'.mem k t = some y) →
      d'.Wf card := by
    intro hkeep
    refine hon'.wf fun task htask => ?_
    obtain ⟨m, hm⟩ := hwf.scheduled task (by rw [← hd'] at htask; exact htask)
    exact hkeep _ _ m ((hon.mem _ _).symm.trans hm)
  rcases hcases with ⟨-, hload⟩ | ⟨s₁, hload, -, hmoved, -, hother⟩
  · refine ⟨hwf' fun k t m hm => ⟨m, hload.mem_of_some hm⟩, hissued, fun k t => .inl ?_⟩
    rw [hon.slot, hon'.slot, hissued]
    exact hload.fetch k t _
  · have hmoved' : ∀ t, Moved ios ⟨level, 0⟩ t (s₁.slot pkh t (d.issued pkh t))
        (d'.slot card pkh t) := by
      intro t
      rw [hon'.slot, hissued]
      exact hmoved t _
    refine ⟨hwf' fun k t m hm => ?_, hissued, fun k t => ?_⟩
    · by_cases hk : k = pkh
      · subst hk
        exact ⟨⟨level, 0⟩, (hon'.mem k t).symm.trans (hmoved' t).mem_eq⟩
      · have h1 := hload.mem_of_some hm
        have h2 : s'.mem k t = s₁.mem k t := congrArg Register.mem (hother k t [] hk)
        exact ⟨m, h2.trans h1⟩
    · have hfetch := hload.fetch k t (d.issued k t)
      rw [← hon.slot] at hfetch
      by_cases hk : k = pkh
      · subst hk
        exact .inr ⟨rfl, _, hfetch, hmoved' t⟩
      · left
        rw [hon'.slot, hissued, hother k t _ hk]
        exact hfetch

end Device

end Russignol
