import Russignol.Base.Automaton
import Russignol.Rpi.InitScript
import Russignol.Rpi.UnlockAvailability

/-!
# The privileges a signer serves with

The event loop of `rpi-signer/src/main.rs` from any boot, as far as the user it runs as and the
mount of the keys partition go: the events in order, the effects of an event one by one, and beside
them the threads that verify a PIN, which work on the key files and report later, and the threads
that set up the storage, which mount the keys partition writable. `served` records how the signer
was started.

A result without a migration event is taken for that of an unprivileged boot. As root there is such
a result only once the v1 file is gone, and the thread that unlinks it reports the promotion. The
invariant (`Guarded`) follows the v1 file from there: it is still there, its promotion is not yet
sent, or is in the channel ahead of every result without one.
-/

namespace Russignol

open CrashProgram FileStore TezosEncrypt

/-- The process, as far as privileges go. -/
structure Session where
  app : App
  /-- The events that wait. -/
  queue : List AppEvent
  /-- The effects of the event at hand that are still to be carried out. -/
  effects : List Effect
  root : Bool
  keysWritable : Bool
  files : Files KeyPath
  /-- The PINs under verification. -/
  verifying : List Pin
  /-- The results of threads that did not report yet. -/
  verified : List AppEvent
  /-- The threads at work on the storage. -/
  storage : Nat
  /-- The user and the mount under which the signer was started, root and writable if true. -/
  served : List (Bool × Bool)

namespace Session

/-- What can happen to the process. -/
inductive Action
  | post (event : AppEvent)
  | verify (i : Nat) (random : Crypto.Random) (io : List Answer)
  | report (i : Nat)
  | storageMount
  | storageEnd
  | handle (io : AppIo)
  | effect (succeeds : Bool)

/-- The loop of a boot; `none` where an error is shown for good. -/
def start (card : CardState) (io : BootIo) : Option Session :=
  card.bootDecision io |>.map fun (isFirstBoot, p) =>
    { app := App.new isFirstBoot
      queue := []
      effects := []
      root := p.root
      keysWritable := p.keysWritable
      files := card.files
      verifying := []
      verified := []
      storage := 0
      served := [] }

/-- An event that only one place sends: the result of a PIN verification, and the keys. -/
def Sourced : AppEvent → Bool
  | .pinVerified .. | .keysDecrypted _ => true
  | _ => false

/-- `apply_effects`, one effect; `none` where the process ends. What fails without ending it leaves
the privileges alone. -/
def applyEffect (succeeds : Bool) (c : Session) : Effect → Option Session
  | .emit event => some { c with queue := c.queue ++ [event] }
  | .startSigner =>
    if succeeds then some { c with served := (c.root, c.keysWritable) :: c.served } else none
  | .spawnPinVerify pin => some { c with verifying := c.verifying ++ [pin] }
  | .spawnStorageSetup => some { c with storage := c.storage + 1 }
  | .remountKeysReadonly => if succeeds then some { c with keysWritable := false } else none
  -- an unprivileged process has nothing to drop
  | .dropPrivileges => if succeeds || !c.root then some { c with root := false } else none
  | .fatalError .. | .exit _ => none
  | .syncDisk | .writeSetupMarker | .setKeyPermissions | .spawnKeygen _ => some c
  | .validateWatermarkConfig | .resetActivity | .sleep _ => some c
  | _ => if succeeds then some c else none

/-- One turn of `drain_events`, up to its effects; `none` where no event waits, or the loop ends. -/
def handleNext (io : AppIo) (c : Session) : Option Session :=
  match c.queue with
  | [] => none
  | .touch .. :: queue | .invalidate :: queue => some { c with queue }
  | event :: queue =>
    let (app, action, effects) := c.app.handleEvent io event
    match action with
    | .continue => some { c with app, queue }
    | .break => none
    | .proceed => some { c with app, queue, effects }

section

variable [BlobCrypto]

/-- The event a verification thread sends. -/
def resultEvent : Except FileStore.IoError DecryptOutcome → AppEvent
  | .ok outcome => .pinVerified outcome.plaintext outcome.migration
  | .error _ => .pinVerificationFailed

/-- Take an action; `none` where it cannot be taken, or the process ends. -/
def step (c : Session) : Action → Option Session
  | .post event => if Sourced event then none else some { c with queue := c.queue ++ [event] }
  | .verify i random io =>
    c.verifying[i]?.bind fun pin =>
      match (migrateAndDecrypt random pin).run io c.files with
      | (none, _, _) => none
      | (some r, _, files) =>
        some { c with
          files
          verifying := c.verifying.eraseIdx i
          verified := c.verified ++ [resultEvent r] }
  | .report i =>
    c.verified[i]?.map fun event =>
      { c with queue := c.queue ++ [event], verified := c.verified.eraseIdx i }
  -- `mount_partitions`, which only root may
  | .storageMount =>
    if c.storage = 0 then none else some { c with keysWritable := c.keysWritable || c.root }
  | .storageEnd => if c.storage = 0 then none else some { c with storage := c.storage - 1 }
  | .handle io => if c.effects = [] then c.handleNext io else none
  | .effect succeeds =>
    match c.effects with
    | [] => none
    | e :: es => { c with effects := es }.applyEffect succeeds e

end

/-! ## Handing the privileges back -/

/-- The keys partition is read-only, and the process is unprivileged. -/
def Safe (c : Session) : Prop := c.keysWritable = false ∧ c.root = false

/-- The effects start no signer and no storage setup and send nothing that has one source before
the privileges are handed back, and hand them back in the end if they must. -/
def Demotes (must : Bool) : Bool → Bool → List Effect → Prop
  | writable, root, [] => must = true → writable = false ∧ root = false
  | _, root, .remountKeysReadonly :: es => Demotes must false root es
  | writable, _, .dropPrivileges :: es => writable = false ∧ Demotes must writable false es
  | _, _, .startSigner :: _ | _, _, .spawnStorageSetup :: _ => False
  | writable, root, .emit event :: es =>
    if Sourced event then writable = false ∧ root = false else Demotes must writable root es
  | writable, root, _ :: es => Demotes must writable root es

/-- What a result says of the v1 file: that it was promoted away, or that it was not there. -/
def decisive : AppEvent → Option Bool
  | .pinVerified _ none => some false
  | .pinVerified _ (some .promotedV2) => some true
  | _ => none

/-- The first that says so. -/
def lead (queue : List AppEvent) : Option Bool := queue.findSome? decisive

/-- An effect that verifies a PIN. -/
def isSpawn : Effect → Bool
  | .spawnPinVerify _ => true
  | _ => false

/-- **Where the v1 file went**: it is there, while one verification at most is at work; or it was
unlinked, and its promotion is still to be sent, or is the first result in the channel. -/
inductive Tracked (c : Session) : Prop
  | pending : (c.files.content (.file .v1)).isSome →
    c.effects.countP isSpawn + c.verifying.length + c.verified.length ≤ 1 →
    lead c.queue = none → (∀ e ∈ c.verified, decisive e = none) → Tracked c
  | promoted {json : String} : c.effects.countP isSpawn = 0 → c.verifying = [] →
    c.verified = [.pinVerified json (some .promotedV2)] → lead c.queue = none → Tracked c
  | led : lead c.queue = some true → Tracked c

/-- An effect of the setup before it is finalised. -/
def Harmless : Effect → Prop
  | .startSigner => False
  | .emit event => Sourced event = false
  | _ => True

/-- What each state of the application has while the process is privileged. -/
def GuardedState (c : Session) : AppState → Prop
  | .setup _ => ∀ e ∈ c.effects, Harmless e
  | .pinEntry .. =>
    c.storage = 0 ∧ c.root = true ∧ Demotes false c.keysWritable c.root c.effects ∧ Tracked c
  | .active _ => c.storage = 0 ∧ Demotes true c.keysWritable c.root c.effects
  | .locked => c.storage = 0 ∧ Demotes false c.keysWritable c.root c.effects

/-- The invariant of a privileged process. -/
structure Guarded (c : Session) : Prop where
  queue : ∀ json, .keysDecrypted json ∉ c.queue
  verified : ∀ json, .keysDecrypted json ∉ c.verified
  state : c.GuardedState c.app.state

/-- The invariant of a run. -/
structure Inv (c : Session) : Prop where
  served : ∀ p ∈ c.served, p = (false, false)
  posture : c.Safe ∨ c.Guarded

/-- An unlink that reports a failure did not happen. -/
def Honest : Answer → Prop
  | .failed _ left => left.landed = false
  | _ => True

/-- The threads do not overlap: as root a PIN is verified when no verification is at work, and the
setup is finalised when no storage setup is. -/
def InTurn (c : Session) : Action → Prop
  | .handle _ =>
    match c.queue with
    | .pinEntered _ :: _ => c.root = true → c.verifying = [] ∧ c.verified = []
    | .keyGenSuccess _ :: _ => c.storage = 0
    | _ => True
  | .verify _ _ io => ∀ a ∈ io, Honest a
  | _ => True

/-! ## What an event asks for -/

/-- One more event in the channel. -/
theorem lead_append (queue : List AppEvent) (e : AppEvent) :
    lead (queue ++ [e]) = (lead queue).or (decisive e) := by
  simp only [lead, List.findSome?_append]
  cases hd : decisive e <;> simp [hd]

/-- The first event in the channel. -/
theorem lead_cons (e : AppEvent) (queue : List AppEvent) :
    lead (e :: queue) = (decisive e).or (lead queue) := by
  simp only [lead, List.findSome?_cons]
  cases decisive e <;> rfl

/-- An event that has more than one source says nothing of the v1 file. -/
theorem decisive_of_not_sourced {e : AppEvent} (h : Sourced e = false) : decisive e = none := by
  cases e with
  | pinVerified => cases h
  | _ => rfl

/-- Setup is harmless until it is finalised, which hands the privileges back. -/
theorem handleSetup_guarded (io : AppIo) {app : App} {firstPin : Option Pin}
    (h : app.state = .setup firstPin) (event : AppEvent) (writable root : Bool) :
    ((∃ firstPin', (app.handleSetup io event).1.state = .setup firstPin') ∧
      ∀ e ∈ (app.handleSetup io event).2, Harmless e) ∨
    (∃ json, event = .keyGenSuccess json) ∧ (app.handleSetup io event).1.state = .active false ∧
      Demotes true writable root (app.handleSetup io event).2 := by
  have hstate := @App.handleSetup_state io app event firstPin h
  cases event with
  | keyGenSuccess json =>
    refine .inr ⟨⟨json, rfl⟩, hstate, ?_⟩
    simp [App.handleSetup, App.finalizeFirstBoot, Demotes, Sourced]
  | pinEntered pin =>
    refine .inl ⟨?_, ?_⟩
    · rw [hstate]
      dsimp only
      split <;> exact ⟨_, rfl⟩
    · simp only [App.handleSetup, App.handleSetupPinConfirm]
      split
      · split <;> simp [Harmless, Sourced]
      · simp
  | startSetup =>
    refine .inl ⟨⟨_, hstate⟩, ?_⟩
    simp only [App.handleSetup]
    split <;> simp [Harmless, Sourced]
  | watermarkConfigChecked presence =>
    refine .inl ⟨⟨_, hstate⟩, ?_⟩
    simp only [App.handleSetup]
    split <;> simp [Harmless]
  | _ =>
    refine .inl ⟨⟨_, hstate⟩, ?_⟩
    simp [App.handleSetup, Harmless]

/-- **The PIN entry hands the privileges back** before the signer starts, unless a result comes
without a migration event. -/
theorem handlePinEntry_guarded (io : AppIo) {app : App} {failed : UInt32}
    {lockoutUntil : Option Nat} (h : app.state = .pinEntry failed lockoutUntil) {event : AppEvent}
    (he : decisive event ≠ some false) (writable root : Bool) :
    match (app.handlePinEntry io event).1.state with
    | .setup _ => False
    | .active _ => Demotes true writable root (app.handlePinEntry io event).2
    | _ =>
      Demotes false writable root (app.handlePinEntry io event).2 ∧ decisive event = none ∧
        (app.handlePinEntry io event).2.countP isSpawn ≤ 1 ∧
        ((∀ pin, event ≠ .pinEntered pin) → (app.handlePinEntry io event).2.countP isSpawn = 0) := by
  cases event with
  | pinEntered pin =>
    cases lockoutUntil with
    | none => simp [App.handlePinEntry, h, Demotes, decisive, isSpawn]
    | some t =>
      by_cases hlt : io.now < t
      · simp [App.handlePinEntry, h, hlt, Demotes, Sourced, decisive, isSpawn]
      · simp [App.handlePinEntry, h, hlt, Demotes, decisive, isSpawn]
  | pinVerified json migration =>
    cases migration with
    | none => exact absurd rfl he
    | some m =>
      cases m with
      | stagedV2 =>
        simp [App.handlePinEntry, App.dispatchPinVerified, h, App.demoteEffects,
          pushRebootProgress, Demotes, decisive, isSpawn]
      | promotedV2 =>
        simp [App.handlePinEntry, App.dispatchPinVerified, App.proceedToActive,
          App.demoteEffects, Demotes, Sourced]
      | _ =>
        simp [App.handlePinEntry, App.dispatchPinVerified, h, pushMigrationNotice, Demotes,
          decisive, isSpawn]
  | acknowledgeMigrationNotice json =>
    simp [App.handlePinEntry, App.proceedToActive, App.demoteEffects, Demotes, Sourced]
  | invalidPinEntered =>
    by_cases hfull : failed + 1 ≥ maxFailedAttempts
    · simp [App.handlePinEntry, h, hfull, Demotes, Sourced, decisive, isSpawn]
    · simp [App.handlePinEntry, h, hfull, Demotes, decisive, isSpawn]
  | pinVerificationFailed =>
    simp [App.handlePinEntry, h, Demotes, Sourced, decisive, isSpawn]
  | _ => simp [App.handlePinEntry, h, Demotes, decisive, isSpawn]

/-! ## Steps of a privileged process -/

section
variable {c c' : Session} {e : AppEvent} {rest : List AppEvent}

/-- The rest of the channel holds the keys no more than all of it. -/
theorem Guarded.tail (h : c.Guarded) (hq : c.queue = e :: rest) :
    ∀ json, .keysDecrypted json ∉ rest :=
  fun json hmem => h.queue json (hq ▸ List.mem_cons_of_mem _ hmem)

/-- A channel whose first result is the same keeps track of the v1 file. -/
theorem Tracked.congr_lead (h : c.Tracked) {queue : List AppEvent}
    (hlead : lead queue = lead c.queue) : Tracked { c with queue } := by
  cases h with
  | pending h1 hcount hq hv => exact .pending h1 hcount (hlead.trans hq) hv
  | promoted hs hv hvd hq => exact .promoted hs hv hvd (hlead.trans hq)
  | led hq => exact .led (hlead.trans hq)

/-- What touches neither the effects nor the privileges keeps the guard of a state, where it keeps
track of the v1 file. -/
theorem GuardedState.congr {state : AppState} (h : c.GuardedState state)
    (heffects : c'.effects = c.effects) (hstorage : c'.storage = c.storage)
    (hroot : c'.root = c.root) (hwritable : c'.keysWritable = c.keysWritable)
    (htracked : c.Tracked → c'.Tracked) : c'.GuardedState state := by
  cases state with
  | setup firstPin =>
    intro e he
    exact h e (heffects ▸ he)
  | pinEntry failed lockoutUntil =>
    obtain ⟨h1, h2, h3, h4⟩ := h
    refine ⟨hstorage.trans h1, hroot.trans h2, ?_, htracked h4⟩
    rw [hwritable, hroot, heffects]
    exact h3
  | active | locked =>
    obtain ⟨h1, h2⟩ := h
    refine ⟨hstorage.trans h1, ?_⟩
    rw [hwritable, hroot, heffects]
    exact h2

/-- A touch, or a refresh, is taken from the channel and the privileges stay guarded. -/
theorem Guarded.skip (h : c.Guarded) (hq : c.queue = e :: rest) (he : decisive e = none) :
    Guarded { c with queue := rest } := by
  have hlead : lead rest = lead c.queue := by rw [hq, lead_cons, he, Option.none_or]
  exact ⟨h.tail hq, h.verified, h.state.congr rfl rfl rfl rfl fun ht => ht.congr_lead hlead⟩

/-- A result without a migration event is not the first in the channel of a privileged process. -/
theorem Tracked.not_bare (h : c.Tracked) (hq : c.queue = e :: rest) : decisive e ≠ some false := by
  intro he
  have hlead : lead c.queue = some false := by rw [hq, lead_cons, he, Option.some_or]
  cases h with
  | pending _ _ hq' => cases hlead.symm.trans hq'
  | promoted _ _ _ hq' => cases hlead.symm.trans hq'
  | led hq' => cases hlead.symm.trans hq'

/-- The process once the application handled an event. -/
def handled (io : AppIo) (c : Session) (e : AppEvent) (rest : List AppEvent) : Session :=
  { c with
    app := (c.app.handleEvent io e).1
    queue := rest
    effects := if (c.app.handleEvent io e).2.1 = .proceed then (c.app.handleEvent io e).2.2 else [] }

/-- What handling an event comes to: it is a touch or a refresh, or the application handles it. -/
theorem handleNext_cases {io : AppIo} (hempty : c.effects = []) (hstep : c.handleNext io = some c') :
    ∃ e rest, c.queue = e :: rest ∧ (decisive e = none ∧ c' = { c with queue := rest } ∨
      e ≠ .shutdown ∧ c' = c.handled io e rest) := by
  unfold handleNext at hstep
  split at hstep
  · cases hstep
  · rename_i x y rest hq
    cases hstep
    exact ⟨_, rest, hq, .inl ⟨rfl, rfl⟩⟩
  · rename_i rest hq
    cases hstep
    exact ⟨_, rest, hq, .inl ⟨rfl, rfl⟩⟩
  · rename_i e rest _ _ hq
    refine ⟨e, rest, hq, .inr ⟨?_, ?_⟩⟩
    · rintro rfl
      cases hstep
    · unfold handled
      dsimp only at hstep
      split at hstep
      · rename_i haction
        cases hstep
        rw [haction, if_neg (by decide), ← hempty]
      · cases hstep
      · rename_i haction
        cases hstep
        rw [haction, if_pos rfl]

/-- An event that is no shutdown is a fatal error, or goes to the handler of the state. -/
theorem handleEvent_eq (io : AppIo) (app : App) (he : e ≠ .shutdown) :
    (∃ title message, e = .fatalError title message ∧
      app.handleEvent io e = (app, .proceed, [.fatalError title message])) ∨
      app.handleEvent io e = match app.state with
        | .setup _ => ((app.handleSetup io e).1, .proceed, (app.handleSetup io e).2)
        | .pinEntry .. => ((app.handlePinEntry io e).1, .proceed, (app.handlePinEntry io e).2)
        | .active _ => app.handleActive e
        | .locked => (app, .continue, []) := by
  cases e with
  | shutdown => exact absurd rfl he
  | fatalError title message => exact .inl ⟨title, message, rfl, rfl⟩
  | _ => exact .inr rfl

/-- Handling an event of the setup. -/
theorem Guarded.handle_setup {io : AppIo} {firstPin : Option Pin} (h : c.Guarded)
    (hst : c.app.state = .setup firstPin) (hq : c.queue = e :: rest) (he : e ≠ .shutdown)
    (hturn : ∀ json, e = .keyGenSuccess json → c.storage = 0) : (c.handled io e rest).Guarded := by
  refine ⟨h.tail hq, h.verified, ?_⟩
  unfold handled
  rcases handleEvent_eq io c.app he with ⟨title, message, -, heq⟩ | heq
  · rw [heq]
    show GuardedState _ c.app.state
    rw [hst]
    simp [GuardedState, Harmless]
  · rw [hst] at heq
    rw [heq]
    show GuardedState _ (c.app.handleSetup io e).1.state
    rcases handleSetup_guarded io hst e c.keysWritable c.root with ⟨⟨firstPin', hsetup⟩, hall⟩ |
        ⟨⟨json, rfl⟩, hactive, hdemotes⟩
    · rw [hsetup]
      simpa only [GuardedState, if_true] using hall
    · rw [hactive]
      refine ⟨hturn json rfl, ?_⟩
      simpa only [if_true] using hdemotes

/-- An event that says nothing of the v1 file is taken from the channel; only an entered PIN starts
a verification. -/
theorem Tracked.handled (h : c.Tracked) (hq : c.queue = e :: rest) (he : decisive e = none)
    {app : App} {effects : List Effect} (hspawn : effects.countP isSpawn ≤ 1)
    (hnone : (∀ pin, e ≠ .pinEntered pin) → effects.countP isSpawn = 0)
    (hturn : ∀ pin, e = .pinEntered pin → c.verifying = [] ∧ c.verified = []) :
    Tracked { c with app, queue := rest, effects } := by
  have hlead : lead c.queue = lead rest := by rw [hq, lead_cons, he, Option.none_or]
  have hfree : effects.countP isSpawn = 0 ∨ c.verifying = [] ∧ c.verified = [] := by
    by_cases hpin : ∀ pin, e ≠ .pinEntered pin
    · exact .inl (hnone hpin)
    · rw [not_forall] at hpin
      obtain ⟨pin, hpin⟩ := hpin
      exact .inr (hturn pin (not_not.1 hpin))
  cases h with
  | pending h1 hcount hq' hv =>
    refine .pending h1 ?_ (hlead ▸ hq') hv
    show effects.countP isSpawn + c.verifying.length + c.verified.length ≤ 1
    rcases hfree with hzero | ⟨hverifying, hverified⟩
    · omega
    · rw [hverifying, hverified]
      exact hspawn
  | promoted _ hverifying hverified hq' =>
    rcases hfree with hzero | ⟨-, hnil⟩
    · exact .promoted hzero hverifying hverified (hlead ▸ hq')
    · cases hverified.symm.trans hnil
  | led hq' => exact .led (hlead ▸ hq')

/-- Handling an event of the PIN entry. -/
theorem Guarded.handle_pinEntry {io : AppIo} {failed : UInt32} {lockoutUntil : Option Nat}
    (h : c.Guarded) (hst : c.app.state = .pinEntry failed lockoutUntil)
    (hq : c.queue = e :: rest) (he : e ≠ .shutdown)
    (hturn : ∀ pin, e = .pinEntered pin → c.root = true → c.verifying = [] ∧ c.verified = []) :
    (c.handled io e rest).Guarded := by
  have hstate := h.state
  rw [hst] at hstate
  obtain ⟨hstorage, hroot, -, htracked⟩ := hstate
  have hturn := fun pin hpin => hturn pin hpin hroot
  refine ⟨h.tail hq, h.verified, ?_⟩
  unfold handled
  rcases handleEvent_eq io c.app he with ⟨title, message, rfl, heq⟩ | heq
  · rw [heq]
    show GuardedState _ c.app.state
    rw [hst]
    exact ⟨hstorage, hroot, by simp [Demotes],
      htracked.handled hq rfl (by simp [isSpawn]) (by simp [isSpawn]) (by simp)⟩
  · rw [hst] at heq
    have hguarded := handlePinEntry_guarded io hst (htracked.not_bare hq) c.keysWritable c.root
    rw [heq]
    show GuardedState _ (c.app.handlePinEntry io e).1.state
    cases hnext : (c.app.handlePinEntry io e).1.state with
    | setup firstPin =>
      rw [hnext] at hguarded
      exact hguarded.elim
    | active b =>
      rw [hnext] at hguarded
      exact ⟨hstorage, by simpa only [if_true] using hguarded⟩
    | pinEntry failed' lockoutUntil' =>
      rw [hnext] at hguarded
      obtain ⟨hdemotes, hnone, hspawn, hfree⟩ := hguarded
      exact ⟨hstorage, hroot, by simpa only [if_true] using hdemotes,
        htracked.handled hq hnone (by simpa only [if_true] using hspawn)
          (by simpa only [if_true] using hfree) hturn⟩
    | locked =>
      rw [hnext] at hguarded
      exact ⟨hstorage, by simpa only [if_true] using hguarded.1⟩

/-- **Handling an event in its turn** keeps the privileges guarded. -/
theorem Guarded.handle {io : AppIo} (h : c.Guarded) (hempty : c.effects = [])
    (hturn : c.InTurn (.handle io)) (hstep : c.handleNext io = some c') :
    c'.Safe ∨ c'.Guarded := by
  obtain ⟨e, rest, hq, ⟨he, rfl⟩ | ⟨hshutdown, rfl⟩⟩ := handleNext_cases hempty hstep
  · exact .inr (h.skip hq he)
  · have hstate := h.state
    simp only [InTurn, hq] at hturn
    cases hst : c.app.state with
    | setup firstPin =>
      refine .inr (h.handle_setup hst hq hshutdown ?_)
      rintro json rfl
      exact hturn
    | pinEntry failed lockoutUntil =>
      refine .inr (h.handle_pinEntry hst hq hshutdown ?_)
      rintro pin rfl
      exact hturn
    | active b =>
      rw [hst] at hstate
      refine .inl ?_
      have hdone := hstate.2
      rw [hempty] at hdone
      exact hdone rfl
    | locked =>
      rw [hst] at hstate
      refine .inr ⟨h.tail hq, h.verified, ?_⟩
      unfold handled
      rcases handleEvent_eq io c.app hshutdown with ⟨title, message, -, heq⟩ | heq
      · rw [heq]
        show GuardedState _ c.app.state
        rw [hst]
        exact ⟨hstate.1, by simp [Demotes]⟩
      · rw [hst] at heq
        rw [heq]
        show GuardedState _ c.app.state
        rw [hst]
        exact ⟨hstate.1, by simp [Demotes]⟩

/-- An effect that ends the process where it fails did not fail in a process that goes on. -/
theorem eq_of_ite {b : Bool} {d : Session} (h : (if b = true then some d else none) = some c') :
    c' = d :=
  (Option.some.inj (Option.ite_none_right_eq_some.1 h).2).symm

/-- What every effect but the start of the signer leaves alone. -/
structure Framed (c c' : Session) (e : Effect) : Prop where
  app : c'.app = c.app
  effects : c'.effects = c.effects
  files : c'.files = c.files
  verified : c'.verified = c.verified
  served : c'.served = c.served
  queue : c'.queue = c.queue ∨ ∃ event, e = .emit event ∧ c'.queue = c.queue ++ [event]

/-- An effect other than the start of the signer. -/
theorem applyEffect_framed {e : Effect} {succeeds : Bool} (he : e ≠ .startSigner)
    (h : c.applyEffect succeeds e = some c') : Framed c c' e := by
  cases e with
  | emit event =>
    cases h
    exact ⟨rfl, rfl, rfl, rfl, rfl, .inr ⟨event, rfl, rfl⟩⟩
  | startSigner => exact absurd rfl he
  | fatalError | exit => cases h
  | spawnPinVerify | spawnStorageSetup | syncDisk | writeSetupMarker | setKeyPermissions
  | spawnKeygen | validateWatermarkConfig | resetActivity | sleep =>
    cases h
    exact ⟨rfl, rfl, rfl, rfl, rfl, .inl rfl⟩
  | _ =>
    rw [eq_of_ite h]
    exact ⟨rfl, rfl, rfl, rfl, rfl, .inl rfl⟩

/-- An event that any place may send leaves the channel free of the keys. -/
theorem keysDecrypted_not_mem (h : ∀ json, .keysDecrypted json ∉ c.queue) {event : AppEvent}
    (he : Sourced event = false) (json : String) : .keysDecrypted json ∉ c.queue ++ [event] := by
  intro hmem
  rcases List.mem_append.1 hmem with hold | hnew
  · exact h json hold
  · rw [← List.mem_singleton.1 hnew] at he
    cases he

/-- **One effect of a hand-over**: the privileges are handed back, or the hand-over goes on. -/
theorem Demotes.applyEffect {must : Bool} {e : Effect} {es : List Effect} {succeeds : Bool}
    (hdemotes : Demotes must c.keysWritable c.root (e :: es))
    (h : { c with effects := es }.applyEffect succeeds e = some c') :
    c'.Safe ∨ Demotes must c'.keysWritable c'.root es ∧ c'.root = c.root ∧
      c'.storage = c.storage ∧ (∀ event, e = .emit event → Sourced event = false) ∧
      es.countP isSpawn + c'.verifying.length =
        (e :: es).countP isSpawn + c.verifying.length := by
  cases e with
  | emit event =>
    cases h
    simp only [Demotes] at hdemotes
    split at hdemotes
    · exact .inl hdemotes
    · rename_i hsourced
      refine .inr ⟨hdemotes, rfl, rfl, ?_, by simp [isSpawn]⟩
      rintro event' heq
      cases heq
      simpa using hsourced
  | startSigner | spawnStorageSetup => exact hdemotes.elim
  | remountKeysReadonly =>
    rw [eq_of_ite h]
    exact .inr ⟨hdemotes, rfl, rfl, by simp, by simp [isSpawn]⟩
  | dropPrivileges =>
    rw [eq_of_ite h]
    exact .inl ⟨hdemotes.1, rfl⟩
  | spawnPinVerify pin =>
    cases h
    refine .inr ⟨hdemotes, rfl, rfl, by simp, ?_⟩
    simp only [List.length_append, List.length_singleton, List.countP_cons, isSpawn, if_true]
    omega
  | fatalError | exit => cases h
  | syncDisk | writeSetupMarker | setKeyPermissions | spawnKeygen | validateWatermarkConfig
  | resetActivity | sleep =>
    cases h
    exact .inr ⟨hdemotes, rfl, rfl, by simp, by simp [isSpawn]⟩
  | _ =>
    rw [eq_of_ite h]
    exact .inr ⟨hdemotes, rfl, rfl, by simp, by simp [isSpawn]⟩

/-- An effect keeps track of the v1 file. -/
theorem Tracked.effect (h : c.Tracked) {e : Effect} {es : List Effect} (heffects : c.effects = e :: es)
    (hframed : Framed { c with effects := es } c' e)
    (hsourced : ∀ event, e = .emit event → Sourced event = false)
    (hcount : es.countP isSpawn + c'.verifying.length =
      (e :: es).countP isSpawn + c.verifying.length) : c'.Tracked := by
  have hlead : lead c'.queue = lead c.queue := by
    rcases hframed.queue with heq | ⟨event, he, heq⟩
    · rw [heq]
    · rw [heq, lead_append, decisive_of_not_sourced (hsourced event he), Option.or_none]
  have heffects' : c'.effects = es := hframed.effects
  have hverified : c'.verified = c.verified := hframed.verified
  have hfiles : c'.files = c.files := hframed.files
  rw [← heffects] at hcount
  cases h with
  | pending h1 hle hq hv =>
    refine .pending (hfiles ▸ h1) ?_ (hlead.trans hq) (hverified ▸ hv)
    rw [heffects', hverified]
    omega
  | promoted hs hverifying hvd hq =>
    rw [hs, hverifying, List.length_nil, Nat.add_zero] at hcount
    refine .promoted ?_ ?_ (hverified.trans hvd) (hlead.trans hq)
    · rw [heffects']
      omega
    · exact List.length_eq_zero_iff.1 (by omega)
  | led hq => exact .led (hlead.trans hq)

/-- **Carrying out an effect** keeps the privileges guarded, and starts no signer. -/
theorem Guarded.effect (h : c.Guarded) {e : Effect} {es : List Effect} {succeeds : Bool}
    (heffects : c.effects = e :: es)
    (hstep : { c with effects := es }.applyEffect succeeds e = some c') :
    c'.served = c.served ∧ (c'.Safe ∨ c'.Guarded) := by
  have hstate := h.state
  have hdone : ∀ must, Demotes must c.keysWritable c.root c.effects →
      c'.served = c.served ∧ (c'.Safe ∨ Framed { c with effects := es } c' e ∧
        Demotes must c'.keysWritable c'.root c'.effects ∧ c'.root = c.root ∧
        c'.storage = c.storage ∧ (∀ event, e = .emit event → Sourced event = false) ∧
        es.countP isSpawn + c'.verifying.length = (e :: es).countP isSpawn + c.verifying.length) := by
    intro must hdemotes
    rw [heffects] at hdemotes
    have hframed : Framed { c with effects := es } c' e := by
      refine applyEffect_framed ?_ hstep
      rintro rfl
      exact hdemotes
    refine ⟨hframed.served, ?_⟩
    have heffects' : c'.effects = es := hframed.effects
    rcases hdemotes.applyEffect hstep with hsafe | hnext
    · exact .inl hsafe
    · rw [heffects']
      exact .inr ⟨hframed, hnext⟩
  have hqueues : Framed { c with effects := es } c' e →
      (∀ event, e = .emit event → Sourced event = false) →
      (∀ json, .keysDecrypted json ∉ c'.queue) ∧ ∀ json, .keysDecrypted json ∉ c'.verified := by
    intro hframed hsourced
    refine ⟨?_, hframed.verified ▸ h.verified⟩
    rcases hframed.queue with heq | ⟨event, he, heq⟩
    · rw [heq]
      exact h.queue
    · rw [heq]
      exact keysDecrypted_not_mem h.queue (hsourced event he)
  cases hst : c.app.state with
  | setup firstPin =>
    rw [hst] at hstate
    have hall : ∀ e' ∈ e :: es, Harmless e' := heffects ▸ hstate
    have he := hall e List.mem_cons_self
    have hframed : Framed { c with effects := es } c' e := by
      refine applyEffect_framed ?_ hstep
      rintro rfl
      exact he
    obtain ⟨hqueue, hverified⟩ := hqueues hframed (by rintro event rfl; exact he)
    refine ⟨hframed.served, .inr ⟨hqueue, hverified, ?_⟩⟩
    have happ : c'.app = c.app := hframed.app
    have heffects' : c'.effects = es := hframed.effects
    rw [happ, hst]
    show ∀ e ∈ c'.effects, Harmless e
    rw [heffects']
    exact fun e' he' => hall e' (List.mem_cons_of_mem _ he')
  | pinEntry failed lockoutUntil =>
    rw [hst] at hstate
    obtain ⟨hstorage, hroot, hdemotes, htracked⟩ := hstate
    obtain ⟨hserved, hsafe | ⟨hframed, hdemotes', hroot', hstorage', hsourced, hcount⟩⟩ :=
      hdone false hdemotes
    · exact ⟨hserved, .inl hsafe⟩
    · obtain ⟨hqueue, hverified⟩ := hqueues hframed hsourced
      have happ : c'.app = c.app := hframed.app
      refine ⟨hserved, .inr ⟨hqueue, hverified, ?_⟩⟩
      rw [happ, hst]
      exact ⟨hstorage'.trans hstorage, hroot'.trans hroot, hdemotes',
        htracked.effect heffects hframed hsourced hcount⟩
  | active | locked =>
    rw [hst] at hstate
    obtain ⟨hstorage, hdemotes⟩ := hstate
    obtain ⟨hserved, hsafe | ⟨hframed, hdemotes', -, hstorage', hsourced, -⟩⟩ := hdone _ hdemotes
    · exact ⟨hserved, .inl hsafe⟩
    · obtain ⟨hqueue, hverified⟩ := hqueues hframed hsourced
      have happ : c'.app = c.app := hframed.app
      refine ⟨hserved, .inr ⟨hqueue, hverified, ?_⟩⟩
      rw [happ, hst]
      exact ⟨hstorage'.trans hstorage, hdemotes'⟩

/-! ## The other steps -/

variable [BlobCrypto]

/-- A verification works on the files, and has a result to send. -/
theorem step_verify {i : Nat} {random : Crypto.Random} {io : List Answer}
    (hstep : c.step (.verify i random io) = some c') :
    ∃ pin r io' files, c.verifying[i]? = some pin ∧
      (migrateAndDecrypt random pin).run io c.files = (some r, io', files) ∧
      c' = { c with
        files
        verifying := c.verifying.eraseIdx i
        verified := c.verified ++ [resultEvent r] } := by
  obtain ⟨pin, hpin, hstep⟩ := Option.bind_eq_some_iff.1 hstep
  rcases hrun : (migrateAndDecrypt random pin).run io c.files with ⟨_ | r, io', files⟩
  · rw [hrun] at hstep
    cases hstep
  · rw [hrun] at hstep
    cases hstep
    exact ⟨pin, r, io', files, hpin, hrun, rfl⟩

/-- **A verification** ends with the v1 file there, or its promotion to be sent. -/
theorem Tracked.verify (h : c.Tracked) {i : Nat} {random : Crypto.Random} {io : List Answer}
    (hio : ∀ a ∈ io, Honest a) (hstep : c.step (.verify i random io) = some c') : c'.Tracked := by
  obtain ⟨pin, r, io', files, hpin, hrun, rfl⟩ := step_verify hstep
  cases h with
  | led hq => exact .led hq
  | promoted _ hverifying =>
    rw [hverifying] at hpin
    cases hpin
  | pending h1 hcount hq hv =>
    have hpos : 0 < c.verifying.length := by
      obtain ⟨hlt, -⟩ := List.getElem?_eq_some_iff.1 hpin
      omega
    obtain ⟨hspawn, hone, hnil⟩ : c.effects.countP isSpawn = 0 ∧ c.verifying.length = 1 ∧
        c.verified.length = 0 := by omega
    have hverified : c.verified = [] := List.length_eq_zero_iff.1 hnil
    have hi : i = 0 := by
      obtain ⟨hlt, -⟩ := List.getElem?_eq_some_iff.1 hpin
      omega
    have hverifying : c.verifying.eraseIdx i = [] := by
      refine List.length_eq_zero_iff.1 ?_
      rw [List.length_eraseIdx_of_lt (by omega), hone]
    have hnext : ∀ e left, next io = .failed e left → left.landed = false := by
      intro e left heq
      cases io with
      | nil => cases heq
      | cons a io =>
        have ha : a = .failed e left := heq
        have hhonest := hio a List.mem_cons_self
        rw [ha] at hhonest
        exact hhonest
    rcases migrateAndDecrypt_keeps_v1 hrun h1 hnext with ⟨y, rfl⟩ | ⟨h1', hr⟩
    · have hpromoted : c.verified ++ [resultEvent (.ok ⟨y, some .promotedV2⟩)] =
          [.pinVerified y (some .promotedV2)] := by
        rw [hverified]
        rfl
      exact .promoted hspawn hverifying hpromoted hq
    · refine .pending h1' ?_ hq ?_
      · show c.effects.countP isSpawn + (c.verifying.eraseIdx i).length +
          (c.verified ++ [resultEvent r]).length ≤ 1
        rw [hspawn, hverifying, hverified]
        exact Nat.le_refl 1
      · intro e he
        rw [hverified] at he
        rw [List.mem_singleton.1 he]
        cases r with
        | error => rfl
        | ok outcome =>
          obtain ⟨hsome, hpromoted⟩ := hr outcome.plaintext outcome.migration rfl
          simp only [resultEvent]
          cases hm : outcome.migration with
          | none => exact absurd hm hsome
          | some m =>
            cases m with
            | promotedV2 => exact absurd hm hpromoted
            | _ => rfl

omit [BlobCrypto] in
/-- An event that says nothing of the v1 file joins the channel. -/
theorem Guarded.enqueue (h : c.Guarded) (he : Sourced e = false) :
    Guarded { c with queue := c.queue ++ [e] } := by
  have hlead : lead (c.queue ++ [e]) = lead c.queue := by
    rw [lead_append, decisive_of_not_sourced he, Option.or_none]
  exact ⟨keysDecrypted_not_mem h.queue he, h.verified,
    h.state.congr rfl rfl rfl rfl fun ht => ht.congr_lead hlead⟩

omit [BlobCrypto] in
/-- **A report** joins the channel. -/
theorem Guarded.report (h : c.Guarded) {i : Nat} (hi : c.verified[i]? = some e) :
    Guarded { c with queue := c.queue ++ [e], verified := c.verified.eraseIdx i } := by
  have hmem : e ∈ c.verified := List.mem_of_getElem? hi
  refine ⟨?_, fun json hj => h.verified json (List.mem_of_mem_eraseIdx hj), ?_⟩
  · intro json hj
    rcases List.mem_append.1 hj with hold | hnew
    · exact h.queue json hold
    · rw [← List.mem_singleton.1 hnew] at hmem
      exact h.verified json hmem
  refine h.state.congr rfl rfl rfl rfl fun htracked => ?_
  cases htracked with
  | pending h1 hcount hq hv =>
    refine .pending h1 ?_ ?_ fun e' he' => hv e' (List.mem_of_mem_eraseIdx he')
    · have hle := List.length_eraseIdx_le c.verified i
      show c.effects.countP isSpawn + c.verifying.length + (c.verified.eraseIdx i).length ≤ 1
      omega
    · show lead (c.queue ++ [e]) = none
      rw [lead_append, hq, hv e hmem, Option.none_or]
  | promoted hs hv hvd hq =>
    refine .led ?_
    rw [hvd] at hmem
    show lead (c.queue ++ [e]) = some true
    rw [lead_append, hq, List.mem_singleton.1 hmem]
    rfl
  | led hq =>
    refine .led ?_
    show lead (c.queue ++ [e]) = some true
    rw [lead_append, hq, Option.some_or]

omit [BlobCrypto] in
/-- A storage setup is at work in the setup only, whose guard is its effects. -/
theorem Guarded.setup_of_storage (h : c.Guarded) (hstorage : c.storage ≠ 0) (happ : c'.app = c.app)
    (heffects : c'.effects = c.effects) : c'.GuardedState c'.app.state := by
  have hstate := h.state
  rw [happ]
  cases hst : c.app.state with
  | setup firstPin =>
    rw [hst] at hstate
    show ∀ e ∈ c'.effects, Harmless e
    rw [heffects]
    exact hstate
  | _ =>
    rw [hst] at hstate
    exact absurd hstate.1 hstorage

/-- Every action taken in its turn keeps the privileges guarded. -/
theorem Guarded.step (h : c.Guarded) {a : Action} (hturn : c.InTurn a)
    (hstep : c.step a = some c') : c'.served = c.served ∧ (c'.Safe ∨ c'.Guarded) := by
  cases a with
  | post e =>
    simp only [Session.step] at hstep
    split at hstep
    · cases hstep
    · rename_i he
      cases hstep
      exact ⟨rfl, .inr (h.enqueue (by simpa using he))⟩
  | verify i random io =>
    obtain ⟨pin, r, io', files, -, -, heq⟩ := step_verify hstep
    have htracked : c.Tracked → c'.Tracked := fun ht => ht.verify hturn hstep
    subst heq
    refine ⟨rfl, .inr ⟨h.queue, ?_, h.state.congr rfl rfl rfl rfl htracked⟩⟩
    intro json hj
    rcases List.mem_append.1 hj with hold | hnew
    · exact h.verified json hold
    · have hresult := List.mem_singleton.1 hnew
      cases r <;> cases hresult
  | report i =>
    obtain ⟨e, he, rfl⟩ := Option.map_eq_some_iff.1 hstep
    exact ⟨rfl, .inr (h.report he)⟩
  | storageMount =>
    simp only [Session.step] at hstep
    split at hstep
    · cases hstep
    · rename_i hstorage
      cases hstep
      exact ⟨rfl, .inr ⟨h.queue, h.verified, h.setup_of_storage hstorage rfl rfl⟩⟩
  | storageEnd =>
    simp only [Session.step] at hstep
    split at hstep
    · cases hstep
    · rename_i hstorage
      cases hstep
      exact ⟨rfl, .inr ⟨h.queue, h.verified, h.setup_of_storage hstorage rfl rfl⟩⟩
  | handle io =>
    simp only [Session.step] at hstep
    split at hstep
    · rename_i hempty
      refine ⟨?_, h.handle hempty hturn hstep⟩
      obtain ⟨e, rest, -, ⟨-, rfl⟩ | ⟨-, rfl⟩⟩ := handleNext_cases hempty hstep <;> rfl
    · cases hstep
  | effect succeeds =>
    simp only [Session.step] at hstep
    split at hstep
    · cases hstep
    · rename_i e es heffects
      exact h.effect heffects hstep

omit [BlobCrypto] in
/-- An effect of an unprivileged process leaves it so, and starts the signer so. -/
theorem Safe.applyEffect (h : c.Safe) {e : Effect} {es : List Effect} {succeeds : Bool}
    (hstep : { c with effects := es }.applyEffect succeeds e = some c') :
    c'.Safe ∧ ∀ p ∈ c'.served, p = (false, false) ∨ p ∈ c.served := by
  cases e with
  | startSigner =>
    rw [eq_of_ite hstep]
    refine ⟨h, fun p hp => ?_⟩
    rcases List.mem_cons.1 hp with rfl | hold
    · exact .inl (Prod.ext h.2 h.1)
    · exact .inr hold
  | remountKeysReadonly =>
    rw [eq_of_ite hstep]
    exact ⟨⟨rfl, h.2⟩, fun p hp => .inr hp⟩
  | dropPrivileges =>
    rw [eq_of_ite hstep]
    exact ⟨⟨h.1, rfl⟩, fun p hp => .inr hp⟩
  | fatalError | exit => cases hstep
  | emit | spawnPinVerify | spawnStorageSetup | syncDisk | writeSetupMarker | setKeyPermissions
  | spawnKeygen | validateWatermarkConfig | resetActivity | sleep =>
    cases hstep
    exact ⟨h, fun p hp => .inr hp⟩
  | _ =>
    rw [eq_of_ite hstep]
    exact ⟨h, fun p hp => .inr hp⟩

/-- An unprivileged process stays so, and starts the signer so. -/
theorem Safe.step (h : c.Safe) {a : Action} (hstep : c.step a = some c') :
    c'.Safe ∧ ∀ p ∈ c'.served, p = (false, false) ∨ p ∈ c.served := by
  have hsame : ∀ {d : Session}, d.keysWritable = c.keysWritable → d.root = c.root →
      d.served = c.served → d.Safe ∧ ∀ p ∈ d.served, p = (false, false) ∨ p ∈ c.served :=
    fun hw hr hs => ⟨⟨hw.trans h.1, hr.trans h.2⟩, fun p hp => .inr (hs ▸ hp)⟩
  cases a with
  | post e =>
    simp only [Session.step] at hstep
    split at hstep
    · cases hstep
    · cases hstep
      exact hsame rfl rfl rfl
  | verify i random io =>
    obtain ⟨pin, r, io', files, -, -, rfl⟩ := step_verify hstep
    exact hsame rfl rfl rfl
  | report i =>
    obtain ⟨e, -, rfl⟩ := Option.map_eq_some_iff.1 hstep
    exact hsame rfl rfl rfl
  | storageMount =>
    simp only [Session.step] at hstep
    split at hstep
    · cases hstep
    · cases hstep
      refine hsame ?_ rfl rfl
      show (c.keysWritable || c.root) = c.keysWritable
      rw [h.2, Bool.or_false]
  | storageEnd =>
    simp only [Session.step] at hstep
    split at hstep
    · cases hstep
    · cases hstep
      exact hsame rfl rfl rfl
  | handle io =>
    simp only [Session.step] at hstep
    split at hstep
    · rename_i hempty
      obtain ⟨e, rest, -, ⟨-, rfl⟩ | ⟨-, rfl⟩⟩ := handleNext_cases hempty hstep
      · exact hsame rfl rfl rfl
      · exact hsame rfl rfl rfl
    · cases hstep
  | effect succeeds =>
    simp only [Session.step] at hstep
    split at hstep
    · cases hstep
    · rename_i e es heffects
      exact h.applyEffect hstep

end

/-- Every action taken in its turn keeps the invariant. -/
theorem step_inv [BlobCrypto] (c : Session) (a : Action) (c' : Session) (h : c.Inv)
    (hturn : c.InTurn a) (hstep : c.step a = some c') : c'.Inv := by
  rcases h.posture with hsafe | hguarded
  · obtain ⟨hsafe', hserved⟩ := hsafe.step hstep
    refine ⟨fun p hp => ?_, .inl hsafe'⟩
    rcases hserved p hp with heq | hold
    · exact heq
    · exact h.served p hold
  · obtain ⟨hserved, hposture⟩ := hguarded.step hturn hstep
    exact ⟨hserved ▸ h.served, hposture⟩

/-- The loop of every boot starts in the invariant. -/
theorem start_inv {card : CardState} {io : BootIo} {c : Session} (h : start card io = some c)
    (hremounts : (card.init io).root = false → io.remounts = true) : c.Inv := by
  obtain ⟨⟨isFirstBoot, p⟩, hdecision, rfl⟩ := Option.map_eq_some_iff.1 h
  have hnil : ∀ {α : Type} (a : α), a ∉ [] := fun _ => List.not_mem_nil
  refine ⟨fun p hp => absurd hp (hnil p), ?_⟩
  cases isFirstBoot with
  | true =>
    refine .inr ⟨fun json => hnil _, fun json => hnil _, ?_⟩
    show ∀ e ∈ [], Harmless e
    exact fun e he => absurd he (hnil e)
  | false =>
    rcases CardState.bootDecision_normal hdecision hremounts with ⟨hroot, hwritable⟩ | ⟨hroot, h1⟩
    · exact .inl ⟨hwritable, hroot⟩
    · refine .inr ⟨fun json => hnil _, fun json => hnil _, rfl, hroot, ?_, ?_⟩
      · intro hmust
        cases hmust
      · exact .pending h1 (Nat.zero_le _) rfl fun e he => absurd he (hnil e)

/-- **The signer serves unprivileged over a read-only keys partition**: on every boot, in every run
whose threads do not overlap, as long as the remount of the init script succeeds where it leaves the
signer unprivileged. -/
theorem serves_unprivileged [BlobCrypto] (card : CardState) (io : BootIo) (c₀ : Session)
    (hboot : start card io = some c₀)
    (hremounts : (card.init io).root = false → io.remounts = true) (acts : List Action)
    (c : Session) (hturn : Automaton.Along step InTurn c₀ acts)
    (h : Automaton.run step c₀ acts = some c) : ∀ p ∈ c.served, p = (false, false) :=
  (Automaton.run_invariant step_inv (start_inv hboot hremounts) hturn h).served

instance : DecidablePred Honest
  | .failed _ left => inferInstanceAs (Decidable (left.landed = false))
  | .ok | .cut _ => isTrue trivial

instance (c : Session) (a : Action) : Decidable (c.InTurn a) := by
  unfold InTurn
  split
  · split <;> infer_instance
  · infer_instance
  · infer_instance

/-- A card that was set up, with the key files given. -/
def setUpCard (files : Files KeyPath) : CardState := ⟨true, true, true, files, false⟩

/-- A boot on which everything succeeds, but maybe the remount of the script. -/
def bootIo (remounts : Bool) : BootIo := ⟨true, true, remounts, true, true, true⟩

/-- An unlock: the PIN is entered, verified and reported, and the effects are carried out up to the
start of the signer. -/
def unlock (io : AppIo) (effects : Nat) : List Action :=
  [.post (.pinEntered testPin), .handle io, .effect true, .effect true,
    .verify 0 Crypto.plainRandom [], .report 0, .handle io] ++
    List.replicate effects (.effect true) ++ [.handle io, .effect true]

section

attribute [local instance] Crypto.plainCrypto

/-- The boot that promotes the v2 file starts as root, and serves unprivileged. -/
theorem serves_unprivileged_promotion : ∃ c₀ c,
    start (setUpCard bothFiles) (bootIo false) = some c₀ ∧ c₀.root = true ∧
      Automaton.run step c₀ (unlock ⟨0, false⟩ 6) = some c ∧ c.served.length = 1 ∧
      ∀ p ∈ c.served, p = (false, false) := by
  have hstart : (start (setUpCard bothFiles) (bootIo false)).map (fun c₀ =>
      (c₀.root, (Automaton.run step c₀ (unlock ⟨0, false⟩ 6)).map fun c => c.served.length,
        decide (Automaton.Along step InTurn c₀ (unlock ⟨0, false⟩ 6)))) =
      some (true, some 1, true) := by decide +kernel
  obtain ⟨c₀, hboot, hc₀⟩ := Option.map_eq_some_iff.1 hstart
  obtain ⟨hroot, hrest⟩ := Prod.mk.inj hc₀
  obtain ⟨hrun, hturn⟩ := Prod.mk.inj hrest
  obtain ⟨c, hrun, hserved⟩ := Option.map_eq_some_iff.1 hrun
  exact ⟨c₀, c, hboot, hroot, hrun, hserved, serves_unprivileged (setUpCard bothFiles)
    (bootIo false) c₀ hboot (by decide +kernel) _ c (of_decide_eq_true hturn) hrun⟩

end

/-- **The signer serves over a writable keys partition**: on a normal boot whose remount fails, in
the init script. -/
theorem serves_writable : ¬∀ [BlobCrypto] (card : CardState) (io : BootIo) (c₀ : Session),
    start card io = some c₀ → ∀ acts c, Automaton.run step c₀ acts = some c →
      ∀ p ∈ c.served, p = (false, false) := by
  intro hall
  have hstart : (start (setUpCard (keyFiles none (some (Crypto.plainV2 testPin "keys")) none))
      (bootIo false)).map (fun c₀ =>
        (@Automaton.run _ _ (@step Crypto.plainCrypto) c₀ (unlock ⟨0, false⟩ 2)).map served) =
      some (some [(false, true)]) := by decide +kernel
  obtain ⟨c₀, hboot, hc₀⟩ := Option.map_eq_some_iff.1 hstart
  obtain ⟨c, hrun, hserved⟩ := Option.map_eq_some_iff.1 hc₀
  have hpair := @hall Crypto.plainCrypto _ _ c₀ hboot _ c hrun (false, true)
    (hserved ▸ List.mem_singleton_self _)
  cases hpair

end Session

end Russignol
