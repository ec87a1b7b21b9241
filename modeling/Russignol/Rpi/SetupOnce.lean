import Russignol.Base.Automaton
import Russignol.Rpi.FirstBoot

/-!
# The first boot, once

The event loop of `rpi-signer/src/main.rs` through a first boot: one channel, in order, the page
under the operator's finger, and the threads that partition the card and generate the keys. A page
goes on taking touches until the event it sent is handled, so a touch is a step of its own
(`press`). The run counts the threads it started and the finalisations.

The stages of a setup follow each other (`Stage`): before the first touch of the greeting, the
storage, the two PINs, the keys. One token passes from the storage thread over its result to the
check of the configuration, and the PINs that wait in the channel have an order. Both hold as long
as setup is started once and no PIN overtakes a mismatch (`InTurn`).
-/

namespace Russignol

/-- The process through a first boot. -/
structure SetupLoop where
  app : App
  /-- The page on the panel; `none` is a progress page. -/
  page : Option PageSpec
  /-- The events that wait. -/
  queue : List AppEvent
  /-- The threads at work. -/
  storage : Nat
  keygen : Nat
  /-- Setup was started. -/
  started : Bool
  /-- How often each was asked for. -/
  storageSpawns : Nat
  keygenSpawns : Nat
  finalisations : Nat

/-- What the device answers while one event is handled. -/
structure SetupIo where
  app : AppIo
  /-- What the check of the staged configuration finds. -/
  presence : ConfigPresence
  /-- An effect that fails, and ends the process. -/
  fails : Effect → Bool

namespace SetupLoop

/-- What can happen to the process. -/
inductive Action
  | press (event : AppEvent)
  | storageEvent (event : AppEvent)
  | keygenEvent (event : AppEvent)
  | post (event : AppEvent)
  | handle (io : SetupIo)

/-- The process at its start, with the greeting on the panel. -/
def start : SetupLoop := ⟨App.new true, some .greeting, [], 0, 0, false, 0, 0, 0⟩

/-- What a touch of a page can send. -/
def Sends : Option PageSpec → AppEvent → Prop
  | some .pinCreate, .firstPinEntered _ => True
  | some .pinConfirm, .pinEntered _ | some .pinVerify, .pinEntered _ => True
  | some spec, event => event ∈ spec.buttons
  | none, _ => False

instance (page : Option PageSpec) (event : AppEvent) : Decidable (Sends page event) := by
  unfold Sends
  split <;> infer_instance

/-- What an effect of the setup does. -/
def after (io : SetupIo) (c : SetupLoop) : Effect → SetupLoop
  | .showPage spec => { c with page := some spec }
  | .showProgress .. => { c with page := none }
  | .emit event => { c with queue := c.queue ++ [event] }
  | .validateWatermarkConfig =>
    { c with queue := c.queue ++ [.watermarkConfigChecked io.presence] }
  | .spawnStorageSetup =>
    { c with storage := c.storage + 1, storageSpawns := c.storageSpawns + 1 }
  | .spawnKeygen _ => { c with keygen := c.keygen + 1, keygenSpawns := c.keygenSpawns + 1 }
  | .processWatermarkConfig => { c with finalisations := c.finalisations + 1 }
  | _ => c

/-- An effect that ends the process. -/
def ends : Effect → Bool
  | .fatalError .. | .exit _ => true
  | _ => false

/-- `apply_effects`, one effect; `none` where the process ends. -/
def applyEffect (io : SetupIo) (c : SetupLoop) (e : Effect) : Option SetupLoop :=
  if io.fails e || ends e then none else some (c.after io e)

/-- `apply_effects`. -/
def applyEffects (io : SetupIo) : List Effect → SetupLoop → Option SetupLoop
  | [], c => some c
  | e :: es, c => (c.applyEffect io e).bind (applyEffects io es)

/-- The event that starts the setup. -/
def isStart : AppEvent → Bool
  | .startSetup => true
  | _ => false

/-- One turn of `drain_events`, past the touches; `none` where no event waits, or the loop ends. -/
def handleNext (io : SetupIo) (c : SetupLoop) : Option SetupLoop :=
  match c.queue with
  | [] => none
  | .invalidate :: queue => some { c with queue }
  | event :: queue =>
    let (app, action, effects) := c.app.handleEvent io.app event
    let c := { c with app, queue, started := isStart event || c.started }
    match action with
    | .continue => some c
    | .break => none
    | .proceed => applyEffects io effects c

/-- An event of the setup: its pages, its threads and its effects send it. -/
def OfSetup : AppEvent → Prop
  | .startSetup | .storageProgress .. | .storageSetupComplete | .storageSetupFailed _ => True
  | .watermarkConfigChecked _ | .firstPinEntered _ | .pinMismatch | .pinEntered _ => True
  | .keyGenSuccess _ | .keyGenFailed _ => True
  | _ => False

instance : DecidablePred OfSetup := fun e => by
  cases e <;> simp only [OfSetup] <;> infer_instance

/-- Take an action; `none` where it cannot be taken, or the process ends. -/
def step (c : SetupLoop) : Action → Option SetupLoop
  | .press event =>
    if Sends c.page event then some { c with queue := c.queue ++ [event] } else none
  -- the timers, the signals and the signer
  | .post event => if OfSetup event then none else some { c with queue := c.queue ++ [event] }
  | .storageEvent event =>
    if c.storage = 0 then none
    else
      match event with
      | .storageProgress .. => some { c with queue := c.queue ++ [event] }
      | .storageSetupComplete | .storageSetupFailed _ =>
        some { c with queue := c.queue ++ [event], storage := c.storage - 1 }
      | _ => none
  | .keygenEvent event =>
    if c.keygen = 0 then none
    else
      match event with
      | .keyGenSuccess _ | .keyGenFailed _ =>
        some { c with queue := c.queue ++ [event], keygen := c.keygen - 1 }
      | _ => none
  | .handle io => c.handleNext io

/-! ## Stages -/

/-- The PIN events, less the PINs. -/
inductive PinKind
  | first
  | entered
  | mismatch
  deriving DecidableEq

/-- What a PIN event is. -/
def pinKind : AppEvent → Option PinKind
  | .firstPinEntered _ => some .first
  | .pinEntered _ => some .entered
  | .pinMismatch => some .mismatch
  | _ => none

/-- The result of a storage setup, or of the check that follows it. -/
def isToken : AppEvent → Bool
  | .storageSetupComplete | .storageSetupFailed _ | .watermarkConfigChecked _ => true
  | _ => false

/-- The result of a key generation. -/
def isKeyGen : AppEvent → Bool
  | .keyGenSuccess _ | .keyGenFailed _ => true
  | _ => false

/-- An event that no stage waits for. -/
structure Inert (e : AppEvent) : Prop where
  pin : pinKind e = none
  token : isToken e = false
  keyGen : isKeyGen e = false

instance (e : AppEvent) : Decidable (Inert e) :=
  decidable_of_iff (pinKind e = none ∧ isToken e = false ∧ isKeyGen e = false)
    ⟨fun h => ⟨h.1, h.2.1, h.2.2⟩, fun h => ⟨h.pin, h.token, h.keyGen⟩⟩

/-- A page without a keypad, which sends nothing a stage waits for. -/
structure Plain (page : Option PageSpec) : Prop where
  not_create : page ≠ some .pinCreate
  not_confirm : page ≠ some .pinConfirm
  not_verify : page ≠ some .pinVerify
  inert : ∀ spec, page = some spec → ∀ e ∈ spec.buttons, Inert e

/-- **The stages of a setup**: whether it was started, the storage results and threads there are,
the keys asked for, the first PIN, the page, and the PIN events that wait. -/
inductive Stage : Bool → Nat → Nat → Option Pin → Option PageSpec → List PinKind → Prop
  | greeting {page} : Plain page → Stage false 0 0 none page []
  | storage {page} : Plain page → Stage true 1 0 none page []
  /-- Stale PINs, then first ones. -/
  | firstPin {page u b} : .first ∉ u → Plain page ∨ page = some .pinCreate →
      Stage true 0 0 none page (u ++ List.replicate b .first)
  /-- More first PINs, then the second ones, or mismatches that wait. -/
  | secondPin {page p a u} : .first ∉ u → (.mismatch ∈ u → a = 0) →
      Plain page ∨ page = some .pinConfirm →
      Stage true 0 0 (some p) page (List.replicate a .first ++ u)
  | keys {page u} : (∀ k ∈ u, k = .entered) → Plain page → Stage true 0 1 none page u

/-- The storage results and threads there are. -/
def tokens (c : SetupLoop) : Nat := c.storage + c.queue.countP isToken

/-- The PIN events that wait. -/
def kinds (c : SetupLoop) : List PinKind := c.queue.filterMap pinKind

/-- The invariant while the setup runs. -/
structure Running (c : SetupLoop) (firstPin : Option Pin) : Prop where
  state : c.app.state = .setup firstPin
  stage : Stage c.started c.tokens c.keygenSpawns firstPin c.page c.kinds
  spawns : c.storageSpawns ≤ 1
  unstarted : c.started = false → c.storageSpawns = 0
  keyGen : (c.keygen ≠ 0 ∨ ∃ e ∈ c.queue, isKeyGen e = true) → c.keygenSpawns ≠ 0
  finalisations : c.finalisations = 0

/-- The invariant once it is over. -/
structure Done (c : SetupLoop) : Prop where
  state : ∃ b, c.app.state = .active b
  storage : c.storage = 0
  spawns : c.storageSpawns ≤ 1
  keygenSpawns : c.keygenSpawns ≤ 1
  finalisations : c.finalisations ≤ 1

/-- The invariant of a run. -/
def Inv (c : SetupLoop) : Prop := (∃ firstPin, c.Running firstPin) ∨ c.Done

/-- An event that waits at the head comes in its turn: setup is started once, and the PIN that
repeats the first does not overtake a mismatch. -/
def InTurn (c : SetupLoop) : Action → Prop
  | .handle _ =>
    match c.queue, c.app.state with
    | .startSetup :: _, .setup _ => c.started = false
    | .pinEntered pin :: queue, .setup (some saved) => saved = pin → .pinMismatch ∉ queue
    | _, _ => True
  | _ => True

/-! ## Waiting events -/

/-- One more event waits. -/
def enqueue (c : SetupLoop) (e : AppEvent) : SetupLoop := { c with queue := c.queue ++ [e] }

/-- An event that is sent adds its kind behind the others. -/
theorem kinds_enqueue (c : SetupLoop) (e : AppEvent) :
    (c.enqueue e).kinds = c.kinds ++ (pinKind e).toList := by
  simp only [enqueue, kinds, List.filterMap_append]
  cases hk : pinKind e <;> simp [hk]

/-- An event that is sent adds its token to the count. -/
theorem tokens_enqueue (c : SetupLoop) (e : AppEvent) :
    (c.enqueue e).tokens = c.tokens + (isToken e).toNat := by
  simp only [enqueue, tokens, List.countP_append, List.countP_singleton]
  cases isToken e
  · simp
  · simp only [if_true, Bool.toNat_true]
    omega

/-- The effects of a handled event that does not end the process. -/
theorem applyEffects_eq {io : SetupIo} : ∀ {es : List Effect} {c c' : SetupLoop},
    applyEffects io es c = some c' → c' = es.foldl (after io) c ∧ ∀ e ∈ es, ends e = false
  | [], c, c', h => by
    cases h
    exact ⟨rfl, fun e he => by cases he⟩
  | e :: es, c, c', h => by
    obtain ⟨c₁, h₁, h₂⟩ := Option.bind_eq_some_iff.1 h
    unfold applyEffect at h₁
    split at h₁
    · cases h₁
    · rename_i hends
      cases h₁
      obtain ⟨hc', hrest⟩ := applyEffects_eq h₂
      refine ⟨hc', ?_⟩
      intro e' he'
      rcases List.mem_cons.1 he' with rfl | hmem
      · simp only [Bool.or_eq_true, not_or, Bool.not_eq_true] at hends
        exact hends.2
      · exact hrest e' hmem

/-- A plain page sends nothing a stage waits for. -/
theorem Plain.sends {page : Option PageSpec} {e : AppEvent} (h : Plain page)
    (hs : Sends page e) : Inert e := by
  cases page with
  | none => exact absurd hs id
  | some spec =>
    have hmem : e ∈ spec.buttons := by
      cases spec with
      | pinCreate => exact absurd rfl h.not_create
      | pinConfirm => exact absurd rfl h.not_confirm
      | pinVerify => exact absurd rfl h.not_verify
      | _ => exact hs
    exact h.inert spec rfl e hmem

/-- The page of the first PIN sends one. -/
theorem sends_pinCreate {e : AppEvent} (hs : Sends (some .pinCreate) e) :
    ∃ p, e = .firstPinEntered p := by
  cases e with
  | firstPinEntered p => exact ⟨p, rfl⟩
  | _ => exact absurd hs (by simp [Sends, PageSpec.buttons])

/-- The page of the second PIN sends one. -/
theorem sends_pinConfirm {e : AppEvent} (hs : Sends (some .pinConfirm) e) :
    ∃ p, e = .pinEntered p := by
  cases e with
  | pinEntered p => exact ⟨p, rfl⟩
  | _ => exact absurd hs (by simp [Sends, PageSpec.buttons])

/-- Another event waits, and the stage goes on. -/
theorem Running.enqueue {c : SetupLoop} {firstPin : Option Pin} (h : c.Running firstPin)
    {e : AppEvent} (hkeyGen : isKeyGen e = false)
    (hstage : Stage c.started (c.tokens + (isToken e).toNat) c.keygenSpawns firstPin c.page
      (c.kinds ++ (pinKind e).toList)) : (c.enqueue e).Running firstPin := by
  refine ⟨h.state, ?_, h.spawns, h.unstarted, ?_, h.finalisations⟩
  · rw [tokens_enqueue, kinds_enqueue]
    exact hstage
  · rintro (hrun | ⟨e', he', hk⟩)
    · exact h.keyGen (.inl hrun)
    · rcases List.mem_append.1 he' with hold | hnew
      · exact h.keyGen (.inr ⟨e', hold, hk⟩)
      · rw [List.mem_singleton.1 hnew, hkeyGen] at hk
        cases hk

/-- So it does when the event is none that a stage waits for. -/
theorem Running.enqueue_inert {c : SetupLoop} {firstPin : Option Pin} (h : c.Running firstPin)
    {e : AppEvent} (he : Inert e) : (c.enqueue e).Running firstPin := by
  refine h.enqueue he.keyGen ?_
  rw [he.token, he.pin]
  simpa using h.stage

/-- **A touch** of the page keeps the stage. -/
theorem Running.press {c : SetupLoop} {firstPin : Option Pin} (h : c.Running firstPin)
    {e : AppEvent} (hs : Sends c.page e) : (c.enqueue e).Running firstPin := by
  have hplain : Plain c.page → (c.enqueue e).Running firstPin :=
    fun hp => h.enqueue_inert (hp.sends hs)
  have hstage := h.stage
  generalize hs' : c.started = started, ht : c.tokens = tokens, hk : c.keygenSpawns = spawns,
    hp : c.page = page, hw : c.kinds = word at hstage
  cases hstage with
  | greeting hpage | storage hpage | keys _ hpage => exact hplain (hp ▸ hpage)
  | @firstPin _ u b hu hpage =>
    rcases hpage with hpage | rfl
    · exact hplain (hp ▸ hpage)
    · rw [hp] at hs
      obtain ⟨p, rfl⟩ := sends_pinCreate hs
      refine h.enqueue rfl ?_
      rw [hs', ht, hk, hp, hw]
      have hword : u ++ List.replicate b .first ++ (pinKind (.firstPinEntered p)).toList =
          u ++ List.replicate (b + 1) .first := by
        rw [List.append_assoc, List.replicate_succ']
        rfl
      rw [hword]
      exact .firstPin hu (.inr rfl)
  | @secondPin _ saved a u hu hmis hpage =>
    rcases hpage with hpage | rfl
    · exact hplain (hp ▸ hpage)
    · rw [hp] at hs
      obtain ⟨p, rfl⟩ := sends_pinConfirm hs
      refine h.enqueue rfl ?_
      rw [hs', ht, hk, hp, hw, List.append_assoc]
      refine .secondPin ?_ ?_ (.inr rfl)
      · simp [pinKind, hu]
      · intro hmem
        rcases List.mem_append.1 hmem with hold | hnew
        · exact hmis hold
        · simp [pinKind] at hnew

/-! ## What a stage allows -/

section
variable {started : Bool} {tokens spawns : Nat} {firstPin : Option Pin} {page : Option PageSpec}
  {word : List PinKind}

/-- Before the setup is started nothing is at work. -/
theorem Stage.of_unstarted (h : Stage false tokens spawns firstPin page word) :
    tokens = 0 ∧ spawns = 0 ∧ firstPin = none ∧ word = [] ∧ Plain page := by
  cases h with
  | greeting hpage => exact ⟨rfl, rfl, rfl, rfl, hpage⟩

/-- While the storage is at work nothing else is. -/
theorem Stage.of_token (h : Stage started (tokens + 1) spawns firstPin page word) :
    started = true ∧ tokens = 0 ∧ spawns = 0 ∧ firstPin = none ∧ word = [] ∧ Plain page := by
  generalize ht : tokens + 1 = t at h
  cases h with
  | storage hpage => exact ⟨rfl, by omega, rfl, rfl, rfl, hpage⟩
  | _ => omega

/-- A first PIN comes before the second ones. -/
theorem Stage.of_first (h : Stage started tokens spawns firstPin page (.first :: word)) :
    started = true ∧ tokens = 0 ∧ spawns = 0 ∧ ∃ a u, word = List.replicate a .first ++ u ∧
      .first ∉ u ∧ (.mismatch ∈ u → a = 0) := by
  generalize hw : PinKind.first :: word = w at h
  cases h with
  | greeting | storage => cases hw
  | @firstPin _ u b hu hpage =>
    cases u with
    | nil =>
      cases b with
      | zero => cases hw
      | succ b =>
        rw [List.nil_append, List.replicate_succ] at hw
        cases hw
        exact ⟨rfl, rfl, rfl, b, [], (List.append_nil _).symm, by simp, by simp⟩
    | cons k u =>
      cases hw
      exact absurd List.mem_cons_self hu
  | @secondPin _ p a u hu hmis hpage =>
    cases a with
    | zero =>
      cases u with
      | nil => cases hw
      | cons k u =>
        cases hw
        exact absurd List.mem_cons_self hu
    | succ a =>
      rw [List.replicate_succ] at hw
      cases hw
      exact ⟨rfl, rfl, rfl, a, u, rfl, hu, fun hmem => by cases hmis hmem⟩
  | keys hu =>
    subst hw
    cases hu _ List.mem_cons_self

/-- A second PIN is stale, or the first one waits for it. -/
theorem Stage.of_entered (h : Stage started tokens spawns firstPin page (.entered :: word)) :
    (firstPin = none ∧ Stage started tokens spawns none page word) ∨
      ∃ p, firstPin = some p ∧ started = true ∧ tokens = 0 ∧ spawns = 0 ∧ .first ∉ word ∧
        (Plain page ∨ page = some .pinConfirm) := by
  generalize hw : PinKind.entered :: word = w at h
  cases h with
  | greeting | storage => cases hw
  | @firstPin _ u b hu hpage =>
    cases u with
    | nil =>
      cases b with
      | zero => cases hw
      | succ b =>
        rw [List.nil_append, List.replicate_succ] at hw
        cases hw
    | cons k u =>
      cases hw
      exact .inl ⟨rfl, .firstPin (fun hmem => hu (List.mem_cons_of_mem _ hmem)) hpage⟩
  | @secondPin _ p a u hu hmis hpage =>
    cases a with
    | zero =>
      cases u with
      | nil => cases hw
      | cons k u =>
        cases hw
        exact .inr ⟨p, rfl, rfl, rfl, rfl, fun hmem => hu (List.mem_cons_of_mem _ hmem), hpage⟩
    | succ a =>
      rw [List.replicate_succ] at hw
      cases hw
  | keys hu hpage =>
    subst hw
    exact .inl ⟨rfl, .keys (fun k hk => hu k (List.mem_cons_of_mem _ hk)) hpage⟩

/-- A mismatch that waits is one of the PINs' stages. -/
theorem Stage.of_mismatch (h : Stage started tokens spawns firstPin page (.mismatch :: word)) :
    started = true ∧ tokens = 0 ∧ spawns = 0 ∧ ∃ u b, word = u ++ List.replicate b .first ∧
      .first ∉ u := by
  generalize hw : PinKind.mismatch :: word = w at h
  cases h with
  | greeting | storage => cases hw
  | @firstPin _ u b hu hpage =>
    cases u with
    | nil =>
      cases b with
      | zero => cases hw
      | succ b =>
        rw [List.nil_append, List.replicate_succ] at hw
        cases hw
    | cons k u =>
      cases hw
      exact ⟨rfl, rfl, rfl, u, b, rfl, fun hmem => hu (List.mem_cons_of_mem _ hmem)⟩
  | @secondPin _ p a u hu hmis hpage =>
    cases a with
    | zero =>
      cases u with
      | nil => cases hw
      | cons k u =>
        cases hw
        exact ⟨rfl, rfl, rfl, word, 0, (List.append_nil _).symm,
          fun hmem => hu (List.mem_cons_of_mem _ hmem)⟩
    | succ a =>
      rw [List.replicate_succ] at hw
      cases hw
  | keys hu =>
    subst hw
    cases hu _ List.mem_cons_self

/-- Keys that were asked for were asked for once, after the storage and the PINs. -/
theorem Stage.of_spawned (h : Stage started tokens spawns firstPin page word)
    (hspawns : spawns ≠ 0) : tokens = 0 ∧ spawns = 1 := by
  cases h with
  | keys => exact ⟨rfl, rfl⟩
  | _ => exact absurd rfl hspawns

end

/-! ## Handling an event -/

/-- A stage goes on under another plain page. -/
theorem Stage.page {started : Bool} {tokens spawns : Nat} {firstPin : Option Pin}
    {page page' : Option PageSpec} {word : List PinKind}
    (h : Stage started tokens spawns firstPin page word) (hpage : Plain page') :
    Stage started tokens spawns firstPin page' word := by
  cases h with
  | greeting => exact .greeting hpage
  | storage => exact .storage hpage
  | firstPin hu => exact .firstPin hu (.inl hpage)
  | secondPin hu hmis => exact .secondPin hu hmis (.inl hpage)
  | keys hu => exact .keys hu hpage

section
variable {c : SetupLoop} {firstPin : Option Pin} {e : AppEvent} {rest : List AppEvent}

/-- The kinds of a queue are those of its first event and of the rest. -/
theorem kinds_cons (hq : c.queue = e :: rest) :
    c.kinds = (pinKind e).toList ++ rest.filterMap pinKind := by
  rw [kinds, hq, List.filterMap_cons]
  cases pinKind e <;> rfl

/-- The tokens are those of the first event and of the rest, with what the storage holds. -/
theorem tokens_cons (hq : c.queue = e :: rest) :
    c.tokens = c.storage + rest.countP isToken + (isToken e).toNat := by
  rw [tokens, hq, List.countP_cons]
  cases isToken e
  · simp
  · simp only [if_true, Bool.toNat_true]
    omega

/-- The rest of the channel holds no more results of the keys. -/
theorem Running.keyGen_rest (h : c.Running firstPin) (hq : c.queue = e :: rest) :
    (c.keygen ≠ 0 ∨ ∃ e ∈ rest, isKeyGen e = true) → c.keygenSpawns ≠ 0 := by
  rintro (hrun | ⟨e', he', hk⟩)
  · exact h.keyGen (.inl hrun)
  · exact h.keyGen (.inr ⟨e', hq ▸ List.mem_cons_of_mem _ he', hk⟩)

/-- Nor does it with another event behind it that is none. -/
theorem Running.keyGen_append (h : c.Running firstPin) (hq : c.queue = e :: rest)
    {e' : AppEvent} (he' : isKeyGen e' = false) :
    (c.keygen ≠ 0 ∨ ∃ e ∈ rest ++ [e'], isKeyGen e = true) → c.keygenSpawns ≠ 0 := by
  rintro (hrun | ⟨e₁, he₁, hk⟩)
  · exact h.keyGen (.inl hrun)
  · rcases List.mem_append.1 he₁ with hold | hnew
    · exact h.keyGen_rest hq (.inr ⟨e₁, hold, hk⟩)
    · rw [List.mem_singleton.1 hnew, he'] at hk
      cases hk

/-- **An event that no stage waits for** leaves the stage, whatever plain page it shows. -/
theorem Running.dequeue_inert (h : c.Running firstPin) (hq : c.queue = e :: rest) (he : Inert e)
    {app : App} (happ : app.state = .setup firstPin) {page : Option PageSpec}
    (hpage : page = c.page ∨ Plain page) :
    Running { c with app, page, queue := rest } firstPin := by
  have hstage : Stage c.started (c.storage + rest.countP isToken) c.keygenSpawns firstPin c.page
      (rest.filterMap pinKind) := by
    have hstage := h.stage
    rwa [kinds_cons hq, tokens_cons hq, he.pin, he.token] at hstage
  refine ⟨happ, ?_, h.spawns, h.unstarted, h.keyGen_rest hq, h.finalisations⟩
  rcases hpage with rfl | hpage
  · exact hstage
  · exact hstage.page hpage

/-- What handling an event of the setup comes to. -/
theorem handleNext_eq {io : SetupIo} {c' : SetupLoop} (h : c.Running firstPin)
    (hq : c.queue = e :: rest) (hstep : c.handleNext io = some c')
    (he : e ≠ .invalidate ∧ e ≠ .shutdown ∧ ∀ title message, e ≠ .fatalError title message) :
    c' = (c.app.handleSetup io.app e).2.foldl (after io)
        { c with
          app := (c.app.handleSetup io.app e).1
          queue := rest
          started := isStart e || c.started } ∧
      ∀ e' ∈ (c.app.handleSetup io.app e).2, ends e' = false := by
  unfold handleNext at hstep
  rw [hq] at hstep
  cases e with
  | invalidate => exact absurd rfl he.1
  | shutdown => exact absurd rfl he.2.1
  | fatalError title message => exact absurd rfl (he.2.2 title message)
  | _ =>
    simp only [App.handleEvent, h.state] at hstep
    exact applyEffects_eq hstep

/-- A page that sends nothing a stage waits for, and is no keypad. -/
theorem plain_none : Plain none := ⟨by simp, by simp, by simp, by simp⟩

/-- An image page is plain. -/
theorem plain_image (back : BackTarget) : Plain (some (.image back)) := by
  refine ⟨by simp, by simp, by simp, ?_⟩
  rintro spec ⟨⟩ e he
  cases back
  · rw [List.mem_singleton.1 he]
    decide
  · rw [List.mem_singleton.1 he]
    decide

/-- The greeting is plain. -/
theorem plain_greeting : Plain (some .greeting) := by
  refine ⟨by simp, by simp, by simp, ?_⟩
  rintro spec ⟨⟩ e he
  simp only [PageSpec.buttons, List.mem_cons, List.not_mem_nil, or_false] at he
  rcases he with rfl | rfl <;> decide

/-- Starting the setup sets the storage to work. -/
theorem Running.handle_startSetup {io : SetupIo} {c' : SetupLoop} (h : c.Running firstPin)
    (hq : c.queue = .startSetup :: rest) (hturn : c.started = false)
    (hstep : c.handleNext io = some c') : c'.Running none := by
  have hstage := h.stage
  rw [hturn, kinds_cons hq, tokens_cons hq] at hstage
  obtain ⟨htokens, hspawns, rfl, hword, hpage⟩ := hstage.of_unstarted
  have hspawned := h.unstarted hturn
  have hword : rest.filterMap pinKind = [] := hword
  obtain ⟨rfl, -⟩ := handleNext_eq h hq hstep (by simp)
  simp only [App.handleSetup]
  split
  · refine ⟨h.state, ?_, ?_, fun hst => (by cases hst), h.keyGen_rest hq, h.finalisations⟩
    · show Stage true (c.storage + 1 + rest.countP isToken) c.keygenSpawns none none
        (rest.filterMap pinKind)
      have hone : c.storage + 1 + rest.countP isToken = 1 := by omega
      rw [hone, hspawns, hword]
      exact .storage plain_none
    · show c.storageSpawns + 1 ≤ 1
      omega
  · refine ⟨h.state, ?_, h.spawns, fun hst => (by cases hst), h.keyGen_append hq rfl,
      h.finalisations⟩
    show Stage true (c.storage + (rest ++ [AppEvent.storageSetupComplete]).countP isToken)
      c.keygenSpawns none c.page ((rest ++ [AppEvent.storageSetupComplete]).filterMap pinKind)
    have hone : c.storage + (rest ++ [AppEvent.storageSetupComplete]).countP isToken = 1 := by
      rw [List.countP_append]
      show c.storage + (rest.countP isToken + 1) = 1
      omega
    rw [hone, hspawns, List.filterMap_append, hword]
    exact .storage hpage

/-- The storage is there, and the configuration is checked. -/
theorem Running.handle_storageSetupComplete {io : SetupIo} {c' : SetupLoop}
    (h : c.Running firstPin) (hq : c.queue = .storageSetupComplete :: rest)
    (hstep : c.handleNext io = some c') : c'.Running none := by
  have hstage := h.stage
  rw [kinds_cons hq, tokens_cons hq] at hstage
  obtain ⟨hstarted, htokens, hspawns, rfl, hword, hpage⟩ := hstage.of_token
  have hword : rest.filterMap pinKind = [] := hword
  obtain ⟨rfl, -⟩ := handleNext_eq h hq hstep (by simp)
  refine ⟨h.state, ?_, h.spawns, h.unstarted, h.keyGen_append hq rfl, h.finalisations⟩
  show Stage c.started
    (c.storage + (rest ++ [AppEvent.watermarkConfigChecked io.presence]).countP isToken)
    c.keygenSpawns none c.page
    ((rest ++ [AppEvent.watermarkConfigChecked io.presence]).filterMap pinKind)
  have hone :
      c.storage + (rest ++ [AppEvent.watermarkConfigChecked io.presence]).countP isToken = 1 := by
    rw [List.countP_append]
    show c.storage + (rest.countP isToken + 1) = 1
    omega
  rw [hone, hspawns, hstarted, List.filterMap_append, hword]
  exact .storage hpage

/-- The configuration is there, and the first PIN is asked for. -/
theorem Running.handle_watermarkConfigChecked {io : SetupIo} {c' : SetupLoop}
    {presence : ConfigPresence} (h : c.Running firstPin)
    (hq : c.queue = .watermarkConfigChecked presence :: rest)
    (hstep : c.handleNext io = some c') : c'.Running none := by
  have hstage := h.stage
  rw [kinds_cons hq, tokens_cons hq] at hstage
  obtain ⟨hstarted, htokens, hspawns, rfl, hword, hpage⟩ := hstage.of_token
  have hword : rest.filterMap pinKind = [] := hword
  obtain ⟨rfl, hends⟩ := handleNext_eq h hq hstep (by simp)
  simp only [App.handleSetup] at hends ⊢
  split
  · refine ⟨h.state, ?_, h.spawns, h.unstarted, h.keyGen_rest hq, h.finalisations⟩
    show Stage c.started (c.storage + rest.countP isToken) c.keygenSpawns none (some .pinCreate)
      (rest.filterMap pinKind)
    have hword : rest.filterMap pinKind = [] ++ List.replicate 0 PinKind.first := hword
    rw [htokens, hspawns, hstarted, hword]
    exact .firstPin (by simp) (.inr rfl)
  · rename_i hgate
    rw [if_neg hgate] at hends
    cases hends _ (List.mem_singleton_self _)

/-- A first PIN is kept, and asked for again. -/
theorem Running.handle_firstPinEntered {io : SetupIo} {c' : SetupLoop} {pin : Pin}
    (h : c.Running firstPin) (hq : c.queue = .firstPinEntered pin :: rest)
    (hstep : c.handleNext io = some c') : c'.Running (some pin) := by
  have hstage := h.stage
  rw [kinds_cons hq, tokens_cons hq] at hstage
  obtain ⟨hstarted, htokens, hspawns, a, u, hword, hu, hmis⟩ := hstage.of_first
  obtain ⟨rfl, -⟩ := handleNext_eq h hq hstep (by simp)
  refine ⟨?_, ?_, h.spawns, h.unstarted, h.keyGen_rest hq, h.finalisations⟩
  · show (c.app.setFirstPin (some pin)).state = _
    simp only [App.setFirstPin, h.state]
  · show Stage c.started (c.storage + rest.countP isToken) c.keygenSpawns (some pin)
      (some .pinConfirm) (rest.filterMap pinKind)
    have htokens : c.storage + rest.countP isToken = 0 := htokens
    have hword : rest.filterMap pinKind = _ := hword
    rw [htokens, hspawns, hstarted, hword]
    exact .secondPin hu hmis (.inr rfl)

/-- A mismatch lets the PIN be entered again. -/
theorem Running.handle_pinMismatch {io : SetupIo} {c' : SetupLoop}
    (h : c.Running firstPin) (hq : c.queue = .pinMismatch :: rest)
    (hstep : c.handleNext io = some c') : c'.Running none := by
  have hstage := h.stage
  rw [kinds_cons hq, tokens_cons hq] at hstage
  obtain ⟨hstarted, htokens, hspawns, u, b, hword, hu⟩ := hstage.of_mismatch
  obtain ⟨rfl, -⟩ := handleNext_eq h hq hstep (by simp)
  refine ⟨?_, ?_, h.spawns, h.unstarted, h.keyGen_rest hq, h.finalisations⟩
  · show (c.app.setFirstPin none).state = _
    simp only [App.setFirstPin, h.state]
  · show Stage c.started (c.storage + rest.countP isToken) c.keygenSpawns none
      (some .pinCreate) (rest.filterMap pinKind)
    have htokens : c.storage + rest.countP isToken = 0 := htokens
    have hword : rest.filterMap pinKind = _ := hword
    rw [htokens, hspawns, hstarted, hword]
    exact .firstPin hu (.inr rfl)

/-- A mismatch that waits is a mismatch event. -/
theorem mismatch_mem {queue : List AppEvent} (h : .mismatch ∈ queue.filterMap pinKind) :
    .pinMismatch ∈ queue := by
  obtain ⟨e, he, hk⟩ := List.mem_filterMap.1 h
  cases e with
  | pinMismatch => exact he
  | _ => simp [pinKind] at hk

/-- A second PIN that repeats the first asks for the keys; another one is a mismatch; and where no
first one was entered it is stale. -/
theorem Running.handle_pinEntered {io : SetupIo} {c' : SetupLoop} {pin : Pin}
    (h : c.Running firstPin) (hq : c.queue = .pinEntered pin :: rest)
    (hturn : ∀ saved, firstPin = some saved → saved = pin → .pinMismatch ∉ rest)
    (hstep : c.handleNext io = some c') : ∃ firstPin', c'.Running firstPin' := by
  have hstage := h.stage
  rw [kinds_cons hq, tokens_cons hq] at hstage
  obtain ⟨rfl, -⟩ := handleNext_eq h hq hstep (by simp)
  have hstate := h.state
  rcases hstage.of_entered with ⟨rfl, hafter⟩ |
      ⟨saved, rfl, hstarted, htokens, hspawns, hfirst, hpage⟩
  · refine ⟨none, ?_⟩
    simp only [App.handleSetup, App.handleSetupPinConfirm, hstate]
    exact ⟨hstate, hafter, h.spawns, h.unstarted, h.keyGen_rest hq, h.finalisations⟩
  · have htokens : c.storage + rest.countP isToken = 0 := htokens
    have hfirst : .first ∉ rest.filterMap pinKind := hfirst
    simp only [App.handleSetup, App.handleSetupPinConfirm, hstate]
    split
    · rename_i heq
      have hentered : ∀ k ∈ rest.filterMap pinKind, k = .entered := by
        intro k hk
        cases k with
        | first => exact absurd hk hfirst
        | entered => rfl
        | mismatch => exact absurd (mismatch_mem hk) (hturn saved rfl heq)
      refine ⟨none, rfl, ?_, h.spawns, h.unstarted, fun _ => Nat.succ_ne_zero _, h.finalisations⟩
      show Stage c.started (c.storage + rest.countP isToken) (c.keygenSpawns + 1) none none
        (rest.filterMap pinKind)
      rw [htokens, hspawns, hstarted]
      exact .keys hentered plain_none
    · refine ⟨some saved, hstate, ?_, h.spawns, h.unstarted, h.keyGen_append hq rfl,
        h.finalisations⟩
      show Stage c.started (c.storage + (rest ++ [AppEvent.pinMismatch]).countP isToken)
        c.keygenSpawns (some saved) c.page
        (List.replicate 0 .first ++ (rest ++ [AppEvent.pinMismatch]).filterMap pinKind)
      have hzero : c.storage + (rest ++ [AppEvent.pinMismatch]).countP isToken = 0 := by
        rw [List.countP_append]
        exact htokens
      rw [hzero, hspawns, hstarted, List.filterMap_append]
      refine .secondPin ?_ (fun _ => rfl) hpage
      rw [List.mem_append, not_or]
      exact ⟨hfirst, by simp [pinKind]⟩

/-- The keys are there: the setup is over. -/
theorem Running.handle_keyGenSuccess {io : SetupIo} {c' : SetupLoop} {json : String}
    (h : c.Running firstPin) (hq : c.queue = .keyGenSuccess json :: rest)
    (hstep : c.handleNext io = some c') : c'.Done := by
  have hspawned : c.keygenSpawns ≠ 0 := h.keyGen (.inr ⟨_, hq ▸ List.mem_cons_self, rfl⟩)
  obtain ⟨htokens, hone⟩ := h.stage.of_spawned hspawned
  obtain ⟨rfl, -⟩ := handleNext_eq h hq hstep (by simp)
  have hstorage : c.storage = 0 := by
    unfold tokens at htokens
    omega
  refine ⟨⟨false, rfl⟩, hstorage, h.spawns, Nat.le_of_eq hone, ?_⟩
  show c.finalisations + 1 ≤ 1
  rw [h.finalisations]

/-- **Handling an event in its turn** keeps the stages, or ends the setup. -/
theorem Running.handle {io : SetupIo} {c' : SetupLoop} (h : c.Running firstPin)
    (hq : c.queue = e :: rest) (hturn : c.InTurn (.handle io))
    (hstep : c.handleNext io = some c') : c'.Inv := by
  have hnext := handleNext_eq h hq hstep
  simp only [InTurn, hq, h.state] at hturn
  cases e with
  | invalidate =>
    unfold handleNext at hstep
    rw [hq] at hstep
    cases hstep
    exact .inl ⟨firstPin, h.dequeue_inert hq (by decide) h.state (.inl rfl)⟩
  | shutdown =>
    unfold handleNext at hstep
    rw [hq] at hstep
    cases hstep
  | fatalError title message =>
    unfold handleNext at hstep
    rw [hq] at hstep
    obtain ⟨-, hends⟩ := applyEffects_eq hstep
    cases hends _ (List.mem_singleton_self _)
  | storageSetupFailed | keyGenFailed =>
    obtain ⟨-, hends⟩ := hnext (by simp)
    cases hends _ (List.mem_singleton_self _)
  | startSetup => exact .inl ⟨none, h.handle_startSetup hq hturn hstep⟩
  | storageSetupComplete => exact .inl ⟨none, h.handle_storageSetupComplete hq hstep⟩
  | watermarkConfigChecked => exact .inl ⟨none, h.handle_watermarkConfigChecked hq hstep⟩
  | firstPinEntered pin => exact .inl ⟨some pin, h.handle_firstPinEntered hq hstep⟩
  | pinEntered pin =>
    refine .inl (h.handle_pinEntered hq ?_ hstep)
    rintro saved rfl
    exact hturn
  | pinMismatch => exact .inl ⟨none, h.handle_pinMismatch hq hstep⟩
  | keyGenSuccess => exact .inr (h.handle_keyGenSuccess hq hstep)
  | storageProgress =>
    obtain ⟨rfl, -⟩ := hnext (by simp)
    exact .inl ⟨firstPin, h.dequeue_inert hq ⟨rfl, rfl, rfl⟩ h.state (.inr plain_none)⟩
  | showImage back =>
    obtain ⟨rfl, -⟩ := hnext (by simp)
    exact .inl ⟨firstPin, h.dequeue_inert hq ⟨rfl, rfl, rfl⟩ h.state (.inr (plain_image back))⟩
  | showGreeting =>
    obtain ⟨rfl, -⟩ := hnext (by simp)
    exact .inl ⟨firstPin, h.dequeue_inert hq ⟨rfl, rfl, rfl⟩ h.state (.inr plain_greeting)⟩
  | _ =>
    obtain ⟨rfl, -⟩ := hnext (by simp)
    exact .inl ⟨firstPin, h.dequeue_inert hq ⟨rfl, rfl, rfl⟩ h.state (.inl rfl)⟩

end

/-! ## The run -/

/-- What the effects of a device that signs leave alone. -/
theorem foldl_signing (io : SetupIo) : ∀ {es : List Effect} (c : SetupLoop),
    (∀ e ∈ es, App.signing e = true) →
    let c' := es.foldl (after io) c
    c'.app = c.app ∧ c'.storage = c.storage ∧ c'.storageSpawns = c.storageSpawns ∧
      c'.keygenSpawns = c.keygenSpawns ∧ c'.finalisations = c.finalisations
  | [], c, _ => ⟨rfl, rfl, rfl, rfl, rfl⟩
  | e :: es, c, h => by
    have hrest := foldl_signing io (c.after io e) fun e' he' => h e' (List.mem_cons_of_mem _ he')
    have he := h e List.mem_cons_self
    have hafter : (c.after io e).app = c.app ∧ (c.after io e).storage = c.storage ∧
        (c.after io e).storageSpawns = c.storageSpawns ∧
        (c.after io e).keygenSpawns = c.keygenSpawns ∧
        (c.after io e).finalisations = c.finalisations := by
      cases e with
      | showProgress | emit | spawnKeygen | spawnPinVerify | spawnStorageSetup
      | validateWatermarkConfig | processWatermarkConfig => cases he
      | _ => exact ⟨rfl, rfl, rfl, rfl, rfl⟩
    exact ⟨hrest.1.trans hafter.1, hrest.2.1.trans hafter.2.1, hrest.2.2.1.trans hafter.2.2.1,
      hrest.2.2.2.1.trans hafter.2.2.2.1, hrest.2.2.2.2.trans hafter.2.2.2.2⟩

/-- After the setup no event starts it again. -/
theorem Done.handle {c c' : SetupLoop} {io : SetupIo} (h : c.Done)
    (hstep : c.handleNext io = some c') : c'.Done := by
  obtain ⟨b, hb⟩ := h.state
  unfold handleNext at hstep
  split at hstep
  · cases hstep
  · cases hstep
    exact ⟨⟨b, hb⟩, h.storage, h.spawns, h.keygenSpawns, h.finalisations⟩
  · rename_i event queue _ hq
    have hactive : ∃ b', (c.app.handleEvent io.app event).1.state = .active b' := by
      unfold App.handleEvent
      cases event with
      | shutdown | fatalError => exact ⟨b, hb⟩
      | _ =>
        simp only [hb]
        exact App.handleActive_state hb
    have hsigning : (∃ e, (c.app.handleEvent io.app event).2.2 = [e] ∧ ends e = true) ∨
        (c.app.handleEvent io.app event).2.1 = .break ∨
        ∀ e ∈ (c.app.handleEvent io.app event).2.2, App.signing e = true := by
      unfold App.handleEvent
      cases event with
      | shutdown => exact .inr (.inl rfl)
      | fatalError title message => exact .inl ⟨_, rfl, rfl⟩
      | _ =>
        simp only [hb]
        exact .inr (.inr fun e he => App.handleActive_signing he)
    dsimp only at hstep
    split at hstep
    · cases hstep
      exact ⟨hactive, h.storage, h.spawns, h.keygenSpawns, h.finalisations⟩
    · cases hstep
    · rename_i haction
      obtain ⟨rfl, hends⟩ := applyEffects_eq hstep
      rcases hsigning with ⟨e, heffects, he⟩ | hbreak | hsigning
      · rw [heffects] at hends
        rw [hends e (List.mem_singleton_self e)] at he
        cases he
      · rw [haction] at hbreak
        cases hbreak
      · obtain ⟨happ, hstorage, hspawns, hkeygen, hfinal⟩ := foldl_signing io
          { c with
            app := (c.app.handleEvent io.app event).1
            queue := queue
            started := isStart event || c.started } hsigning
        refine ⟨?_, ?_, ?_, ?_, ?_⟩
        · rw [happ]
          exact hactive
        · rw [hstorage]
          exact h.storage
        · rw [hspawns]
          exact h.spawns
        · rw [hkeygen]
          exact h.keygenSpawns
        · rw [hfinal]
          exact h.finalisations

/-- **The storage thread** reports, and its result takes the place of the thread. -/
theorem Running.storageEvent {c c' : SetupLoop} {firstPin : Option Pin} {e : AppEvent}
    (h : c.Running firstPin) (hstep : c.step (.storageEvent e) = some c') :
    c'.Running firstPin := by
  simp only [SetupLoop.step] at hstep
  split at hstep
  · cases hstep
  · rename_i hstorage
    have hdone : ∀ e', isToken e' = true → pinKind e' = none → isKeyGen e' = false →
        Running { c.enqueue e' with storage := c.storage - 1 } firstPin := by
      intro e' htoken hpin hkeyGen
      have hold := h.stage
      refine ⟨h.state, ?_, h.spawns, h.unstarted, ?_, h.finalisations⟩
      · have htokens : tokens { c.enqueue e' with storage := c.storage - 1 } = c.tokens := by
          have := tokens_enqueue c e'
          rw [htoken, Bool.toNat_true] at this
          unfold tokens at this ⊢
          simp only [SetupLoop.enqueue] at this ⊢
          omega
        have hkinds : kinds { c.enqueue e' with storage := c.storage - 1 } = c.kinds := by
          have := kinds_enqueue c e'
          rw [hpin, Option.toList_none, List.append_nil] at this
          exact this
        rw [htokens, hkinds]
        exact hold
      · rintro (hrun | ⟨e₁, he₁, hk⟩)
        · exact h.keyGen (.inl hrun)
        · rcases List.mem_append.1 he₁ with hmem | hnew
          · exact h.keyGen (.inr ⟨e₁, hmem, hk⟩)
          · rw [List.mem_singleton.1 hnew, hkeyGen] at hk
            cases hk
    split at hstep
    · cases hstep
      exact h.enqueue_inert ⟨rfl, rfl, rfl⟩
    · cases hstep
      exact hdone _ rfl rfl rfl
    · cases hstep
      exact hdone _ rfl rfl rfl
    · cases hstep

/-- **The keygen thread** reports. -/
theorem Running.keygenEvent {c c' : SetupLoop} {firstPin : Option Pin} {e : AppEvent}
    (h : c.Running firstPin) (hstep : c.step (.keygenEvent e) = some c') :
    c'.Running firstPin := by
  simp only [SetupLoop.step] at hstep
  split at hstep
  · cases hstep
  · rename_i hkeygen
    have hdone : ∀ e', isToken e' = false → pinKind e' = none →
        Running { c.enqueue e' with keygen := c.keygen - 1 } firstPin := by
      intro e' htoken hpin
      refine ⟨h.state, ?_, h.spawns, h.unstarted, fun _ => h.keyGen (.inl hkeygen),
        h.finalisations⟩
      show Stage c.started (c.enqueue e').tokens c.keygenSpawns firstPin c.page (c.enqueue e').kinds
      rw [tokens_enqueue, kinds_enqueue, htoken, hpin]
      simpa using h.stage
    split at hstep
    · cases hstep
      exact hdone _ rfl rfl
    · cases hstep
      exact hdone _ rfl rfl
    · cases hstep

/-- An event that is none of the setup's is none that a stage waits for. -/
theorem inert_of_not_ofSetup {e : AppEvent} (h : ¬OfSetup e) : Inert e := by
  cases e with
  | storageSetupComplete | storageSetupFailed | watermarkConfigChecked | firstPinEntered
  | pinEntered | pinMismatch | keyGenSuccess | keyGenFailed => exact absurd trivial h
  | _ => exact ⟨rfl, rfl, rfl⟩

/-- Every action taken in its turn keeps the stages, or ends the setup. -/
theorem Running.step {c c' : SetupLoop} {firstPin : Option Pin} {a : Action}
    (h : c.Running firstPin) (hturn : c.InTurn a) (hstep : c.step a = some c') : c'.Inv := by
  cases a with
  | press e =>
    simp only [SetupLoop.step] at hstep
    split at hstep
    · rename_i hsends
      cases hstep
      exact .inl ⟨firstPin, h.press hsends⟩
    · cases hstep
  | post e =>
    simp only [SetupLoop.step] at hstep
    split at hstep
    · cases hstep
    · rename_i hnot
      cases hstep
      exact .inl ⟨firstPin, h.enqueue_inert (inert_of_not_ofSetup hnot)⟩
  | storageEvent e => exact .inl ⟨firstPin, h.storageEvent hstep⟩
  | keygenEvent e => exact .inl ⟨firstPin, h.keygenEvent hstep⟩
  | handle io =>
    cases hq : c.queue with
    | nil =>
      simp only [SetupLoop.step, handleNext, hq] at hstep
      cases hstep
    | cons e rest => exact h.handle hq hturn hstep

/-- Every action keeps a setup that is over so. -/
theorem Done.step {c c' : SetupLoop} {a : Action} (h : c.Done) (hstep : c.step a = some c') :
    c'.Done := by
  cases a with
  | press e =>
    simp only [SetupLoop.step] at hstep
    split at hstep
    · cases hstep
      exact ⟨h.state, h.storage, h.spawns, h.keygenSpawns, h.finalisations⟩
    · cases hstep
  | post e =>
    simp only [SetupLoop.step] at hstep
    split at hstep
    · cases hstep
    · cases hstep
      exact ⟨h.state, h.storage, h.spawns, h.keygenSpawns, h.finalisations⟩
  | storageEvent e =>
    simp only [SetupLoop.step, if_pos h.storage] at hstep
    cases hstep
  | keygenEvent e =>
    simp only [SetupLoop.step] at hstep
    split at hstep
    · cases hstep
    · split at hstep
      · cases hstep
        exact ⟨h.state, h.storage, h.spawns, h.keygenSpawns, h.finalisations⟩
      · cases hstep
        exact ⟨h.state, h.storage, h.spawns, h.keygenSpawns, h.finalisations⟩
      · cases hstep
  | handle io => exact h.handle hstep

/-- Every action taken in its turn keeps the invariant. -/
theorem step_inv (c : SetupLoop) (a : Action) (c' : SetupLoop) (h : c.Inv) (hturn : c.InTurn a)
    (hstep : c.step a = some c') : c'.Inv := by
  rcases h with ⟨firstPin, h⟩ | h
  · exact h.step hturn hstep
  · exact .inr (h.step hstep)

/-- **A first boot runs once.** In every run whose events are handled in their turn, the storage
and the keys are asked for once at most, the setup is finalised once at most, and no storage setup
is at work once keys were asked for. -/
theorem setup_once (acts : List Action) (c : SetupLoop)
    (hturn : Automaton.Along step InTurn start acts)
    (h : Automaton.run step start acts = some c) :
    c.storageSpawns ≤ 1 ∧ c.keygenSpawns ≤ 1 ∧ c.finalisations ≤ 1 ∧
      (c.keygenSpawns ≠ 0 → c.storage = 0) := by
  have hinv : c.Inv := by
    refine Automaton.run_invariant step_inv (.inl ⟨none, ?_⟩) hturn h
    exact ⟨rfl, .greeting plain_greeting, Nat.zero_le _, fun _ => rfl, by simp [start], rfl⟩
  rcases hinv with ⟨firstPin, hrun⟩ | hdone
  · refine ⟨hrun.spawns, ?_, ?_, ?_⟩
    · by_contra hlt
      have := (hrun.stage.of_spawned (by omega)).2
      omega
    · rw [hrun.finalisations]
      exact Nat.zero_le _
    · intro hspawned
      have htokens := (hrun.stage.of_spawned hspawned).1
      unfold tokens at htokens
      omega
  · exact ⟨hdone.spawns, hdone.keygenSpawns, hdone.finalisations, fun _ => hdone.storage⟩

instance (c : SetupLoop) (a : Action) : Decidable (c.InTurn a) := by
  unfold InTurn
  split
  · split <;> infer_instance
  · infer_instance

/-- A device whose card is not partitioned, or is. -/
def freshIo (needsStorageSetup : Bool) : SetupIo where
  app := ⟨0, needsStorageSetup⟩
  presence := .present
  fails _ := false

/-- A first boot from the greeting to the keys. -/
def cleanSetup : List Action :=
  [.press .startSetup, .handle (freshIo true), .storageEvent .storageSetupComplete,
    .handle (freshIo false), .handle (freshIo false), .press (.firstPinEntered [1, 2]),
    .handle (freshIo false), .press (.pinEntered [1, 2]), .handle (freshIo false),
    .keygenEvent (.keyGenSuccess "keys"), .handle (freshIo false)]

/-- A setup in which nothing goes wrong. -/
theorem setup_once_clean : ∃ c, Automaton.run step start cleanSetup = some c ∧
    c.finalisations = 1 ∧ c.storageSpawns ≤ 1 ∧ c.keygenSpawns ≤ 1 ∧ c.finalisations ≤ 1 ∧
      (c.keygenSpawns ≠ 0 → c.storage = 0) := by
  have hdone : (Automaton.run step start cleanSetup).map finalisations = some 1 := by
    decide +kernel
  obtain ⟨c, hrun, hc⟩ := Option.map_eq_some_iff.1 hdone
  exact ⟨c, hrun, hc, setup_once cleanSetup c (by decide +kernel) hrun⟩

/-- Two touches of "Begin" that wait together partition the card twice. -/
theorem two_storage_setups : ¬∀ acts c, Automaton.run step start acts = some c →
    c.storageSpawns ≤ 1 ∧ c.keygenSpawns ≤ 1 ∧ c.finalisations ≤ 1 ∧
      (c.keygenSpawns ≠ 0 → c.storage = 0) := by
  intro hall
  have htwo : (Automaton.run step start [.press .startSetup, .press .startSetup,
      .handle (freshIo true), .handle (freshIo true)]).map storageSpawns = some 2 := by
    decide +kernel
  obtain ⟨c, hrun, hc⟩ := Option.map_eq_some_iff.1 htwo
  have hone := (hall _ c hrun).1
  omega

end SetupLoop

end Russignol
