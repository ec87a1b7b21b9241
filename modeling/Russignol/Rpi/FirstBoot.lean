import Russignol.Base.Automaton
import Russignol.Rpi.App

/-!
# The setup gate

A process from its first page, driven by whatever its own pages and effects can send, in any order,
late or repeated: once something can send an event, it may send it at any time after (`Emits`). The
record of the events handled and the effects applied says what an event rests on (`Grounded`): a
first PIN on a watermark configuration that was found, an acknowledged notice on a verified PIN. No
page and no effect sends an event that lacks its grounds (`Inv.grounded`), so keys are generated
and the device serves only where `setup_gate` says.
-/

namespace Russignol

/-! ## What the handlers send on -/

/-- An event that any page may send at any time. -/
def AppEvent.Free : AppEvent → Prop
  | .watermarkConfigChecked _ | .firstPinEntered _ | .pinMismatch | .keyGenSuccess _ => False
  | .pinVerified .. | .acknowledgeMigrationNotice _ => False
  | _ => True

/-- An effect that leads to such events only. -/
def Effect.Free : Effect → Prop
  | .showPage spec => spec ≠ .pinCreate ∧ ∀ e ∈ spec.buttons, e.Free
  | .emit e => e.Free
  | _ => True

namespace App

/-- A page that the navigation opens. -/
theorem navigationPage_free {event : AppEvent} {spec : PageSpec}
    (h : navigationPage event = some spec) : Effect.Free (.showPage spec) := by
  cases event with
  | showImage back =>
    cases h
    cases back <;> simp [Effect.Free, AppEvent.Free, PageSpec.buttons]
  | showStatus | showSignatures | showWatermarks | showBlockchain | showAbout | showGreeting =>
    cases h
    simp [Effect.Free, AppEvent.Free, PageSpec.buttons]
  | _ => cases h

/-- What is quiet sends nothing. -/
theorem free_of_isQuiet {e : Effect} (h : isQuiet e = true) : e.Free := by
  cases e with
  | showPage | emit => cases h
  | _ => trivial

/-- What a device that signs shows and sends. -/
theorem ActiveEffect.free {event : AppEvent} {e : Effect} (h : ActiveEffect event e) : e.Free := by
  cases h with
  | quiet hquiet => exact free_of_isQuiet hquiet
  | navigation hnav => exact navigationPage_free hnav
  | update => trivial
  | _ => simp [Effect.Free, AppEvent.Free, PageSpec.buttons]

/-- What an event makes the process show and send: all of it free, but for three effects with
grounds of their own. The page of the first PIN follows the configuration that was found, or a
mismatch; a mismatch follows a first PIN; a notice to acknowledge follows a verified PIN. -/
theorem handleEvent_free {io : AppIo} {app : App} {event : AppEvent} {e : Effect}
    (h : e ∈ (app.handleEvent io event).2.2) : e.Free ∨
      (e = .showPage .pinCreate ∧
        (event = .watermarkConfigChecked .present ∨ event = .pinMismatch)) ∨
      (e = .emit .pinMismatch ∧ ∃ saved, app.state = .setup (some saved)) ∨
      ∃ title message json m, e = .showPage (.notice title message
        (.acknowledgeMigrationNotice json)) ∧ event = .pinVerified json m := by
  cases handleEvent_effect h with
  | quiet hquiet => exact .inl (free_of_isQuiet hquiet)
  | setup _ heffect =>
    cases heffect with
    | quiet hquiet => exact .inl (free_of_isQuiet hquiet)
    | navigation hnav => exact .inl (navigationPage_free hnav)
    | firstPin hor => exact .inr (.inl ⟨rfl, hor⟩)
    | mismatch hstate => exact .inr (.inr (.inl ⟨rfl, _, hstate⟩))
    | _ => exact .inl (by simp [Effect.Free, AppEvent.Free, PageSpec.buttons])
  | pinEntry _ heffect =>
    cases heffect with
    | quiet hquiet => exact .inl (free_of_isQuiet hquiet)
    | notice title message hevent =>
      exact .inr (.inr (.inr ⟨title, message, _, _, rfl, hevent⟩))
    | _ => exact .inl (by simp [Effect.Free, AppEvent.Free, PageSpec.buttons])
  | active _ heffect => exact .inl heffect.free

/-- Keys are generated for a PIN that repeats the first, and in setup only. -/
theorem handleEvent_keygen {io : AppIo} {app : App} {event : AppEvent} {p : Pin}
    (h : .spawnKeygen p ∈ (app.handleEvent io event).2.2) :
    event = .pinEntered p ∧ app.state = .setup (some p) := by
  cases handleEvent_effect h with
  | quiet hquiet => cases hquiet
  | setup _ heffect =>
    cases heffect with
    | quiet hquiet => cases hquiet
    | keygen hevent hstate => exact ⟨hevent, hstate⟩
  | pinEntry _ heffect =>
    cases heffect with
    | quiet hquiet => cases hquiet
  | active _ heffect =>
    cases heffect with
    | quiet hquiet => cases hquiet

/-- Setup keeps the first PIN that was entered. -/
theorem handleSetup_firstPin {io : AppIo} {app : App} {event : AppEvent} {firstPin : Option Pin}
    {p : Pin} (hstate : app.state = .setup firstPin)
    (h : (app.handleSetup io event).1.state = .setup (some p)) :
    firstPin = some p ∨ event = .firstPinEntered p := by
  rw [handleSetup_state hstate] at h
  cases event with
  | pinEntered pin =>
    dsimp only at h
    split at h
    · cases h
    · cases h
      exact .inl rfl
  | firstPinEntered pin =>
    cases h
    exact .inr rfl
  | pinMismatch | keyGenSuccess => cases h
  | _ =>
    cases h
    exact .inl rfl

/-- The PIN entry does not lead back to setup. -/
theorem handlePinEntry_not_setup {io : AppIo} {app : App} {event : AppEvent} {failed : UInt32}
    {lockoutUntil : Option Nat} (hstate : app.state = .pinEntry failed lockoutUntil)
    (firstPin : Option Pin) : (app.handleEvent io event).1.state ≠ .setup firstPin := by
  rw [handlePinEntry_state hstate]
  unfold nextPinEntry
  split
  · split <;> simp
  · split <;> simp
  all_goals simp

/-- A first PIN that setup holds was entered. -/
theorem handleEvent_firstPin {io : AppIo} {app : App} {event : AppEvent} {p : Pin}
    (h : (app.handleEvent io event).1.state = .setup (some p)) :
    app.state = .setup (some p) ∨ event = .firstPinEntered p := by
  cases hstate : app.state with
  | setup firstPin =>
    unfold handleEvent at h
    cases event with
    | shutdown | fatalError => exact .inl (hstate ▸ h)
    | _ =>
      simp only [hstate] at h
      rcases handleSetup_firstPin hstate h with rfl | hfirst
      · exact .inl rfl
      · exact .inr hfirst
  | pinEntry failed lockoutUntil => exact absurd h (handlePinEntry_not_setup hstate (some p))
  | active b =>
    unfold handleEvent at h
    cases event with
    | shutdown | fatalError =>
      rw [hstate] at h
      cases h
    | _ =>
      simp only [hstate] at h
      obtain ⟨b', hb'⟩ := handleActive_state hstate
      rw [hb'] at h
      cases h
  | locked =>
    rw [handleEvent_locked event hstate] at h
    cases h

/-- Setup ends when the keys are there. -/
theorem handleSetup_active {io : AppIo} {app : App} {event : AppEvent} {firstPin : Option Pin}
    {b : Bool} (hstate : app.state = .setup firstPin)
    (h : (app.handleSetup io event).1.state = .active b) : ∃ json, event = .keyGenSuccess json := by
  rw [handleSetup_state hstate] at h
  cases event with
  | pinEntered pin =>
    dsimp only at h
    split at h <;> cases h
  | keyGenSuccess json => exact ⟨json, rfl⟩
  | _ => cases h

/-- The PIN entry ends with a verified PIN, or its acknowledged notice. -/
theorem handlePinEntry_active {io : AppIo} {app : App} {event : AppEvent} {failed : UInt32}
    {lockoutUntil : Option Nat} {b : Bool} (hstate : app.state = .pinEntry failed lockoutUntil)
    (h : (app.handleEvent io event).1.state = .active b) :
    (∃ json m, event = .pinVerified json m) ∨ ∃ json, event = .acknowledgeMigrationNotice json := by
  rw [handlePinEntry_state hstate] at h
  unfold nextPinEntry at h
  cases event with
  | invalidPinEntered =>
    dsimp only at h
    split at h <;> cases h
  | pinEntered pin =>
    cases lockoutUntil with
    | none => cases h
    | some t =>
      dsimp only at h
      split at h <;> cases h
  | pinVerified json m => exact .inl ⟨json, m, rfl⟩
  | acknowledgeMigrationNotice json => exact .inr ⟨json, rfl⟩
  | _ => cases h

/-- A device serves from when its keys were generated, its PIN was verified, or the notice of a
migration was acknowledged. -/
theorem handleEvent_active {io : AppIo} {app : App} {event : AppEvent} {b' : Bool}
    (h : (app.handleEvent io event).1.state = .active b') :
    (∃ b, app.state = .active b) ∨ (∃ json, event = .keyGenSuccess json) ∨
      (∃ json m, event = .pinVerified json m) ∨
      ∃ json, event = .acknowledgeMigrationNotice json := by
  cases hstate : app.state with
  | setup firstPin =>
    unfold handleEvent at h
    cases event with
    | shutdown | fatalError =>
      rw [hstate] at h
      cases h
    | _ =>
      simp only [hstate] at h
      exact .inr (.inl (handleSetup_active hstate h))
  | pinEntry failed lockoutUntil => exact .inr (.inr (handlePinEntry_active hstate h))
  | active b => exact .inl ⟨b, rfl⟩
  | locked =>
    rw [handleEvent_locked event hstate] at h
    cases h

end App

/-! ## The run -/

/-- A process, with the events it handled and the effects it applied, oldest first. -/
structure Journal where
  app : App
  handled : List AppEvent
  applied : List Effect

/-- The page a process opens with. -/
def openingPage (isFirstBoot : Bool) : PageSpec := if isFirstBoot then .greeting else .pinVerify

namespace Journal

/-- The process at its start. -/
def start (isFirstBoot : Bool) : Journal := ⟨App.new isFirstBoot, [], []⟩

/-- A page that was shown. -/
def Shown (isFirstBoot : Bool) (j : Journal) (spec : PageSpec) : Prop :=
  spec = openingPage isFirstBoot ∨ .showPage spec ∈ j.applied

/-- What the pages shown and the effects applied can send, at any time after. -/
inductive Emits (isFirstBoot : Bool) (j : Journal) : AppEvent → Prop
  | button {spec e} : j.Shown isFirstBoot spec → e ∈ spec.buttons → Emits isFirstBoot j e
  | firstPin (p) : j.Shown isFirstBoot .pinCreate → Emits isFirstBoot j (.firstPinEntered p)
  | pin (p) : j.Shown isFirstBoot .pinConfirm ∨ j.Shown isFirstBoot .pinVerify →
      Emits isFirstBoot j (.pinEntered p)
  | emit {e} : .emit e ∈ j.applied → Emits isFirstBoot j e
  | configChecked (presence) : .validateWatermarkConfig ∈ j.applied →
      Emits isFirstBoot j (.watermarkConfigChecked presence)
  | keyGenSuccess {p} (json) : .spawnKeygen p ∈ j.applied →
      Emits isFirstBoot j (.keyGenSuccess json)
  | keyGenFailed {p} (text) : .spawnKeygen p ∈ j.applied → Emits isFirstBoot j (.keyGenFailed text)
  | pinVerified {p} (json m) : .spawnPinVerify p ∈ j.applied →
      Emits isFirstBoot j (.pinVerified json m)
  | pinVerifyProgress {p} (message duration) : .spawnPinVerify p ∈ j.applied →
      Emits isFirstBoot j (.pinVerifyProgress message duration)
  | pinVerificationFailed {p} : .spawnPinVerify p ∈ j.applied →
      Emits isFirstBoot j .pinVerificationFailed
  | storageProgress (message percent) : .spawnStorageSetup ∈ j.applied →
      Emits isFirstBoot j (.storageProgress message percent)
  | storageSetupComplete : .spawnStorageSetup ∈ j.applied →
      Emits isFirstBoot j .storageSetupComplete
  | storageSetupFailed (text) : .spawnStorageSetup ∈ j.applied →
      Emits isFirstBoot j (.storageSetupFailed text)
  | watermarkError (pkh chainId text) : .startSigner ∈ j.applied →
      Emits isFirstBoot j (.watermarkError pkh chainId text)
  | largeWatermarkGap (pkh chainId current requested) : .startSigner ∈ j.applied →
      Emits isFirstBoot j (.largeWatermarkGap pkh chainId current requested)
  | watermarkMissing (pkh chainId requested) : .startSigner ∈ j.applied →
      Emits isFirstBoot j (.watermarkMissing pkh chainId requested)
  | unknownKeyRequested (pkh) : .startSigner ∈ j.applied →
      Emits isFirstBoot j (.unknownKeyRequested pkh)
  | watermarkUpdated {pkh chainId level e} : .updateWatermark pkh chainId level ∈ j.applied →
      e = .watermarkUpdateSuccess ∨ e = .dialogDismissed → Emits isFirstBoot j e
  | touch (x y) : Emits isFirstBoot j (.touch x y)
  | invalidate : Emits isFirstBoot j .invalidate
  | activateScreensaver : Emits isFirstBoot j .activateScreensaver
  | deactivateScreensaver : Emits isFirstBoot j .deactivateScreensaver
  | shutdown : Emits isFirstBoot j .shutdown
  | fatalError (title message) : Emits isFirstBoot j (.fatalError title message)

/-- Handle an event and apply its effects; a process that they end is let run on. -/
def handle (io : AppIo) (event : AppEvent) (j : Journal) : Journal where
  app := (j.app.handleEvent io event).1
  handled := j.handled ++ [event]
  applied := j.applied ++ (j.app.handleEvent io event).2.2

/-- An event; or what the application records of the page that is shown. -/
inductive Action
  | handle (io : AppIo) (event : AppEvent)
  | page (modal : Bool) (spec : Option PageSpec)

/-- Take an action. -/
def step (j : Journal) : Action → Option Journal
  | .handle io event => some (j.handle io event)
  | .page modal spec =>
    some { j with app := { j.app with currentPageModal := modal, currentPageSpec := spec } }

/-- An event that something sent. -/
def Sent (isFirstBoot : Bool) (j : Journal) : Action → Prop
  | .handle _ event => j.Emits isFirstBoot event
  | .page .. => True

/-! ## Grounds -/

/-- The watermark configuration was checked, and found. -/
def ConfigFound (j : Journal) : Prop :=
  .validateWatermarkConfig ∈ j.applied ∧ .watermarkConfigChecked .present ∈ j.handled

/-- Keys were generated. -/
def Generated (j : Journal) : Prop :=
  (∃ p, .spawnKeygen p ∈ j.applied) ∧ ∃ json, .keyGenSuccess json ∈ j.handled

/-- A PIN was verified. -/
def Verified (j : Journal) : Prop :=
  (∃ p, .spawnPinVerify p ∈ j.applied) ∧ ∃ json m, .pinVerified json m ∈ j.handled

/-- What an event rests on. -/
def Grounded (j : Journal) : AppEvent → Prop
  | .watermarkConfigChecked _ => .validateWatermarkConfig ∈ j.applied
  | .firstPinEntered _ | .pinMismatch => j.ConfigFound
  | .keyGenSuccess _ => ∃ p, .spawnKeygen p ∈ j.applied
  | .pinVerified .. => ∃ p, .spawnPinVerify p ∈ j.applied
  | .acknowledgeMigrationNotice _ => j.Verified
  | _ => True

/-- What an effect rests on: the events it leads to. -/
def EffectGrounded (j : Journal) : Effect → Prop
  | .showPage spec => (spec = .pinCreate → j.ConfigFound) ∧ ∀ e ∈ spec.buttons, j.Grounded e
  | .emit e => j.Grounded e
  | _ => True

/-- The invariant of a run. -/
structure Inv (j : Journal) : Prop where
  handled : ∀ e ∈ j.handled, j.Grounded e
  applied : ∀ e ∈ j.applied, j.EffectGrounded e
  firstPin : ∀ p, j.app.state = .setup (some p) → .firstPinEntered p ∈ j.handled
  active : ∀ b, j.app.state = .active b → j.Generated ∨ j.Verified

/-- A record that goes on. -/
structure Extends (j j' : Journal) : Prop where
  handled : ∀ e ∈ j.handled, e ∈ j'.handled
  applied : ∀ e ∈ j.applied, e ∈ j'.applied

/-- Handling an event only adds to the journal. -/
theorem extends_handle (io : AppIo) (event : AppEvent) (j : Journal) :
    j.Extends (j.handle io event) :=
  ⟨fun _ he => List.mem_append_left _ he, fun _ he => List.mem_append_left _ he⟩

section
variable {j j' : Journal} (h : j.Extends j')
include h

/-- What was found stays found. -/
theorem Extends.configFound (hc : j.ConfigFound) : j'.ConfigFound :=
  ⟨h.applied _ hc.1, h.handled _ hc.2⟩

/-- What was verified stays verified. -/
theorem Extends.verified (hv : j.Verified) : j'.Verified := by
  obtain ⟨⟨p, hp⟩, json, m, hm⟩ := hv
  exact ⟨⟨p, h.applied _ hp⟩, json, m, h.handled _ hm⟩

/-- What was generated stays so. -/
theorem Extends.generated (hg : j.Generated) : j'.Generated := by
  obtain ⟨⟨p, hp⟩, json, hm⟩ := hg
  exact ⟨⟨p, h.applied _ hp⟩, json, h.handled _ hm⟩

/-- Grounds stay. -/
theorem Extends.grounded {e : AppEvent} (he : j.Grounded e) : j'.Grounded e := by
  cases e with
  | watermarkConfigChecked => exact h.applied _ he
  | firstPinEntered | pinMismatch => exact h.configFound he
  | keyGenSuccess | pinVerified =>
    obtain ⟨p, hp⟩ := he
    exact ⟨p, h.applied _ hp⟩
  | acknowledgeMigrationNotice => exact h.verified he
  | _ => trivial

/-- A grounded effect stays grounded. -/
theorem Extends.effectGrounded {e : Effect} (he : j.EffectGrounded e) : j'.EffectGrounded e := by
  cases e with
  | showPage spec =>
    exact ⟨fun hspec => h.configFound (he.1 hspec), fun b hb => h.grounded (he.2 b hb)⟩
  | emit e => exact h.grounded he
  | _ => trivial

end

/-- A free event needs no grounds. -/
theorem grounded_of_free {j : Journal} {e : AppEvent} (h : e.Free) : j.Grounded e := by
  cases e with
  | watermarkConfigChecked | firstPinEntered | pinMismatch | keyGenSuccess | pinVerified
  | acknowledgeMigrationNotice => exact absurd h id
  | _ => trivial

/-- Nor does a free effect. -/
theorem effectGrounded_of_free {j : Journal} {e : Effect} (h : e.Free) : j.EffectGrounded e := by
  cases e with
  | showPage spec =>
    exact ⟨fun hspec => absurd hspec h.1, fun b hb => grounded_of_free (h.2 b hb)⟩
  | emit e => exact grounded_of_free h
  | _ => trivial

/-- **What the pages and the effects send has its grounds.** -/
theorem Inv.grounded {isFirstBoot : Bool} {j : Journal} (hinv : j.Inv) {e : AppEvent}
    (h : j.Emits isFirstBoot e) : j.Grounded e := by
  have hshown : ∀ spec, j.Shown isFirstBoot spec → j.EffectGrounded (.showPage spec) := by
    rintro spec (rfl | happlied)
    · cases isFirstBoot <;>
        exact effectGrounded_of_free (by simp [openingPage, Effect.Free, PageSpec.buttons,
          AppEvent.Free])
    · exact hinv.applied _ happlied
  cases h with
  | button hspec hmem => exact (hshown _ hspec).2 _ hmem
  | firstPin p hspec => exact (hshown _ hspec).1 rfl
  | emit hmem => exact hinv.applied _ hmem
  | configChecked presence hmem => exact hmem
  | keyGenSuccess json hmem => exact ⟨_, hmem⟩
  | pinVerified json m hmem => exact ⟨_, hmem⟩
  | watermarkUpdated hmem hor => rcases hor with rfl | rfl <;> trivial
  | _ => trivial

/-- The invariant holds of the journal at its start. -/
theorem start_inv (isFirstBoot : Bool) : (start isFirstBoot).Inv := by
  refine ⟨?_, ?_, ?_, ?_⟩
  · intro e he
    cases he
  · intro e he
    cases he
  · intro p h
    cases isFirstBoot <;> cases h
  · intro b h
    cases isFirstBoot <;> cases h

/-- Handling an event that has its grounds keeps the invariant. -/
theorem Inv.handle {j : Journal} (hinv : j.Inv) {io : AppIo} {event : AppEvent}
    (hevent : j.Grounded event) : (j.handle io event).Inv := by
  have hext := extends_handle io event j
  have hmem : event ∈ (j.handle io event).handled :=
    List.mem_append_right _ (List.mem_singleton_self _)
  refine ⟨?_, ?_, ?_, ?_⟩
  · intro e he
    rcases List.mem_append.1 he with hold | hnew
    · exact hext.grounded (hinv.handled e hold)
    · rw [List.mem_singleton.1 hnew]
      exact hext.grounded hevent
  · intro e he
    rcases List.mem_append.1 he with hold | hnew
    · exact hext.effectGrounded (hinv.applied e hold)
    · have hfound : j.ConfigFound → (j.handle io event).EffectGrounded (.showPage .pinCreate) :=
        fun hc => ⟨fun _ => hext.configFound hc, fun b hb => by cases hb⟩
      rcases App.handleEvent_free hnew with hfree | ⟨rfl, hor⟩ | ⟨rfl, saved, hstate⟩ |
          ⟨title, message, json, m, rfl, rfl⟩
      · exact effectGrounded_of_free hfree
      · rcases hor with rfl | rfl
        · exact ⟨fun _ => ⟨hext.applied _ hevent, hmem⟩, fun b hb => by cases hb⟩
        · exact hfound hevent
      · exact hext.configFound (hinv.handled _ (hinv.firstPin saved hstate))
      · refine ⟨fun hspec => (by cases hspec), ?_⟩
        intro b hb
        rw [List.mem_singleton.1 hb]
        obtain ⟨p, hp⟩ := hevent
        exact ⟨⟨p, hext.applied _ hp⟩, json, m, hmem⟩
  · intro p hstate
    rcases App.handleEvent_firstPin hstate with hold | rfl
    · exact hext.handled _ (hinv.firstPin p hold)
    · exact hmem
  · intro b hstate
    rcases App.handleEvent_active hstate with ⟨b', hold⟩ | ⟨json, rfl⟩ | ⟨json, m, rfl⟩ |
        ⟨json, rfl⟩
    · exact (hinv.active b' hold).imp hext.generated hext.verified
    · obtain ⟨p, hp⟩ := hevent
      exact .inl ⟨⟨p, hext.applied _ hp⟩, json, hmem⟩
    · obtain ⟨p, hp⟩ := hevent
      exact .inr ⟨⟨p, hext.applied _ hp⟩, json, m, hmem⟩
    · exact .inr (hext.verified hevent)

/-- **The setup gate.** In every run of events that something sent, keys are generated for a PIN
only where it is entered a second time, after the first and after the watermark configuration was
checked and found; and the device serves only after keys were generated or a PIN was verified. -/
theorem setup_gate (isFirstBoot : Bool) (acts : List Action) (j : Journal)
    (hsent : Automaton.Along step (Sent isFirstBoot) (start isFirstBoot) acts)
    (h : Automaton.run step (start isFirstBoot) acts = some j) :
    (∀ io event p, j.Emits isFirstBoot event →
      .spawnKeygen p ∈ (j.app.handleEvent io event).2.2 →
      event = .pinEntered p ∧ .firstPinEntered p ∈ j.handled ∧
        .validateWatermarkConfig ∈ j.applied ∧ .watermarkConfigChecked .present ∈ j.handled) ∧
    ∀ b, j.app.state = .active b → j.Generated ∨ j.Verified := by
  have hinv : j.Inv := by
    refine Automaton.run_invariant ?_ (start_inv isFirstBoot) hsent h
    intro s a s' hs hsent hstep
    cases a with
    | handle io event =>
      cases hstep
      exact hs.handle (hs.grounded hsent)
    | page modal spec =>
      cases hstep
      exact ⟨hs.handled, hs.applied, hs.firstPin, hs.active⟩
  refine ⟨?_, hinv.active⟩
  intro io event p _ hkeygen
  obtain ⟨hevent, hstate⟩ := App.handleEvent_keygen hkeygen
  have hfirst := hinv.firstPin p hstate
  have hfound : j.ConfigFound := hinv.handled _ hfirst
  exact ⟨hevent, hfirst, hfound.1, hfound.2⟩

/-- The events of a first boot up to the second entry of the PIN. -/
def firstBoot (pin : Pin) : List AppEvent :=
  [.startSetup, .storageSetupComplete, .watermarkConfigChecked .present, .firstPinEntered pin]

/-- A first boot that comes to key generation has its PIN and its configuration behind it. -/
theorem setup_gate_first_boot : ∃ j : Journal,
    .spawnKeygen [1, 2, 3, 4, 5] ∈
      (j.app.handleEvent ⟨0, false⟩ (.pinEntered [1, 2, 3, 4, 5])).2.2 ∧
    .firstPinEntered [1, 2, 3, 4, 5] ∈ j.handled ∧
    .watermarkConfigChecked .present ∈ j.handled := by
  let pin : Pin := [1, 2, 3, 4, 5]
  let acts : List Action := (firstBoot pin).map (.handle ⟨0, false⟩)
  have hsent : Automaton.Along step (Sent true) (start true) acts := by
    refine ⟨.button (.inl rfl) List.mem_cons_self, ?_⟩
    rintro _ ⟨⟩
    refine ⟨.emit (by decide), ?_⟩
    rintro _ ⟨⟩
    refine ⟨.configChecked .present (by decide), ?_⟩
    rintro _ ⟨⟩
    refine ⟨.firstPin pin (.inr (by decide)), ?_⟩
    rintro _ ⟨⟩
    trivial
  have hrun : Automaton.run step (start true) acts = some _ := rfl
  have hkeygen := (setup_gate true acts _ hsent hrun).1 ⟨0, false⟩ (.pinEntered pin) pin
    (.pin pin (.inl (.inr (by decide)))) (by decide)
  exact ⟨_, by decide, hkeygen.2.1, hkeygen.2.2.2⟩

end Journal

end Russignol
