import Russignol.Base.Automaton
import Russignol.Rpi.Console
import Russignol.Rpi.FirstBoot
import Russignol.Signer.TestUtils

/-!
# What the operator saw

The event loop of `rpi-signer/src/main.rs` with the panel: the page that takes the touches, the page
that the panel shows, and the channel advance apart. A page takes touches from the moment it is put
up; its frame is pushed then, or, where the panel is in the middle of a refresh, at the end of a
later turn of the loop. A touch waits in the channel with all other events and goes to the page that
is up when it is taken out.

Every event in the channel carries what the panel showed when it was posted; the event of a button
carries what the panel showed when the touch was received. `updates` is what the operator is held to
have seen of each watermark update.
-/

namespace Russignol

/-- A key, a chain and a level, as a dialog carries them. -/
abbrev Update := String × ChainId × UInt32

/-- The update an event asks for. -/
def AppEvent.update? : AppEvent → Option Update
  | .updateWatermarkToLevel pkh chainId level => some (pkh, chainId, level)
  | _ => none

/-- The update that a confirmation page is for. -/
def PageSpec.confirms : PageSpec → Option Update
  | .confirmation _ onConfirm _ _ _ => onConfirm.update?
  | .confirmationWithPairs _ _ onConfirm _ _ _ => onConfirm.update?
  | _ => none

/-- What is up: a page that a spec builds, a progress page or the screensaver. The panel may show
the text of a locked device too, or nothing of this process. -/
inductive Screen
  | blank
  | page (spec : PageSpec)
  | progress
  | screensaver
  | locked
  deriving DecidableEq

namespace Screen

/-- A confirmation page for exactly this update. -/
def Confirms (s : Screen) (u : Update) : Prop := ∃ spec, s = .page spec ∧ spec.confirms = some u

/-- The button that is hit at a point. -/
def pressed [PageLayout] (x y : Int) : Screen → Option AppEvent
  | .page spec => (PageLayout.buttonAt spec x y).bind fun i => spec.buttons[i]?
  | _ => none

/-- The update that an event, if it is a touch, confirms on a page. -/
def confirmedBy [PageLayout] (s : Screen) : AppEvent → Option Update
  | .touch x y => (s.pressed x y).bind AppEvent.update?
  | _ => none

end Screen

/-- `UpdateOutcome`. -/
inductive UpdateOutcome
  | done
  | busy
  deriving DecidableEq, Repr

/-- `PendingRender`. -/
inductive PendingRender
  | none
  | inPlace
  | transition
  deriving DecidableEq, Repr

/-- `PendingRender::record`. -/
def PendingRender.record : PendingRender → PendingRender → PendingRender
  | .transition, _ | _, .transition => .transition
  | .inPlace, _ | _, .inPlace => .inPlace
  | .none, .none => .none

namespace App

/-- `should_repaint_on_invalidate`. -/
def shouldRepaintOnInvalidate (app : App) : Bool := !app.isScreensaverActive

/-- `should_flush_repaint`. -/
def shouldFlushRepaint (app : App) : PendingRender → Bool
  | .none => false
  | .inPlace => app.shouldRepaintOnInvalidate
  | .transition => true

end App

/-- An event in the channel, with what the panel showed to who caused it. -/
structure Waiting where
  event : AppEvent
  panel : Screen

/-- The event loop. -/
structure EventLoop where
  app : App
  /-- `current_page`. -/
  page : Screen
  /-- What was last pushed to the panel. -/
  panel : Screen
  /-- `pending_render`. -/
  pending : PendingRender
  needsAnimation : Bool
  /-- Inside `drain_events`. -/
  draining : Bool
  /-- The effects of the event at hand that are still to be carried out. -/
  effects : List Effect
  queue : List Waiting
  /-- The watermark updates handed to the application, with what the panel showed. -/
  updates : List (Update × Screen)

/-- How an effect ends. -/
structure EffectIo where
  push : UpdateOutcome
  result : Except String Unit

namespace EventLoop

/-- What can happen to the loop. -/
inductive Action
  | post (event : AppEvent)
  | handle (io : AppIo)
  | effect (io : EffectIo)
  | flush (push : UpdateOutcome)
  | timeout (animation push : UpdateOutcome)

/-- `tx.send`. -/
def send (event : AppEvent) (c : EventLoop) : EventLoop :=
  { c with queue := c.queue ++ [⟨event, c.panel⟩] }

/-- `try_render_page`. -/
def tryRenderPage (push : UpdateOutcome) (c : EventLoop) : EventLoop :=
  match push with
  | .done => { c with panel := c.page }
  | .busy => c

/-- `try_render_page_transition`. -/
def tryRenderPageTransition (push : UpdateOutcome) (c : EventLoop) : EventLoop :=
  match push with
  | .done => { c with panel := c.page }
  | .busy => { c with pending := c.pending.record .transition }

/-- Put a page up that a spec builds. -/
def putUp (push : UpdateOutcome) (spec : PageSpec) (c : EventLoop) : EventLoop :=
  tryRenderPageTransition push
    { c with
      page := .page spec
      app := { c.app with currentPageModal := spec.isModal }
      needsAnimation := false }

/-- `apply_watermark_update`, as far as the loop goes. -/
def applyWatermarkUpdate (io : EffectIo) (c : EventLoop) : EventLoop :=
  match io.result with
  | .ok () => c.send .watermarkUpdateSuccess
  | .error message =>
    tryRenderPageTransition io.push
      { c with
        page := .page (.dialog ("Update failed:\n" ++ message) .dialogDismissed)
        app := { c.app with currentPageModal := true } }

/-- A frame of an animated page, if one is due. -/
def animate (push : UpdateOutcome) (c : EventLoop) : EventLoop :=
  if c.needsAnimation && !c.app.isScreensaverActive then c.tryRenderPage push else c

/-- `apply_effects`, one effect; `none` where the process ends. -/
def applyEffect (io : EffectIo) (c : EventLoop) : Effect → Option EventLoop
  | .showPage .deviceLocked => some { c with panel := .locked }
  | .showPage spec =>
    some ({ c with app := { c.app with currentPageSpec := some spec } }.putUp io.push spec)
  | .showProgress _ estimatedDuration modal _ =>
    some (tryRenderPageTransition io.push
      { c with
        page := .progress
        app := { c.app with currentPageModal := estimatedDuration.isSome && modal }
        needsAnimation := estimatedDuration.isSome })
  | .clearDisplay => some { c with panel := .blank }
  | .emit event => some (c.send event)
  | .updateWatermark .. => some (c.applyWatermarkUpdate io)
  -- blocks until the panel took the screensaver
  | .dropCurrentPage =>
    some { c with page := .screensaver, panel := .screensaver, pending := .none }
  | .rebuildSavedPage =>
    match c.app.currentPageSpec with
    | none => some c
    | some spec => some (c.putUp io.push spec)
  | .sleep _ => some (c.animate io.push)
  | .fatalError .. | .exit _ => none
  | .syncDisk | .writeSetupMarker | .setKeyPermissions | .resetActivity => some c
  | .spawnKeygen _ | .spawnPinVerify _ | .spawnStorageSetup | .validateWatermarkConfig => some c
  | _ =>
    match io.result with
    | .ok () => some c
    | .error _ => none

variable [PageLayout]

/-- `handle_touch`. -/
def handleTouch (x y : Int) (panel : Screen) (c : EventLoop) : EventLoop :=
  if c.app.isScreensaverActive then
    { c with queue := c.queue ++ [⟨.deactivateScreensaver, panel⟩] }
  else { c with queue := c.queue ++ (c.page.pressed x y).toList.map fun e => ⟨e, panel⟩ }

/-- One turn of `drain_events`, up to its effects; `none` where no event waits, or the loop ends. -/
def handleNext (io : AppIo) (c : EventLoop) : Option EventLoop :=
  match c.queue with
  | [] => none
  | ⟨event, panel⟩ :: queue =>
    let c := { c with queue, draining := true }
    match event with
    | .touch x y => some (c.handleTouch x y panel)
    | .invalidate => some { c with pending := c.pending.record .inPlace }
    | event =>
      let (app, action, effects) := c.app.handleEvent io event
      let updates := c.updates ++ event.update?.toList.map fun u => (u, panel)
      match action with
      | .continue => some { c with app, updates }
      | .break => none
      | .proceed => some { c with app, updates, effects }

omit [PageLayout] in
/-- The end of a turn of the loop: the deferred render, if it is still due. -/
def flush (push : UpdateOutcome) (c : EventLoop) : EventLoop :=
  let kind := c.pending
  let c := { c with pending := .none }
  if c.app.shouldFlushRepaint kind then
    match kind with
    | .none => c
    | .inPlace =>
      match push with
      | .done => c.tryRenderPage .done
      | .busy => { c with pending := c.pending.record .inPlace }
    | .transition => c.tryRenderPageTransition push
  else c

omit [PageLayout] in
/-- The loop of a boot, with the touches that came before its first page was pushed. -/
def start (isFirstBoot : Bool) (touches : List (Int × Int)) : EventLoop where
  app := App.new isFirstBoot
  page := .page (openingPage isFirstBoot)
  panel := .page (openingPage isFirstBoot)
  pending := .none
  needsAnimation := false
  draining := false
  effects := []
  queue := touches.map fun p => ⟨.touch p.1 p.2, .blank⟩
  updates := []

/-- Take an action; `none` where it cannot be taken, or the process ends. Any thread may post any
event at any time, but a watermark update, which only a page sends. -/
def step (c : EventLoop) : Action → Option EventLoop
  | .post event => if event.update?.isSome then none else some (c.send event)
  | .handle io => if c.effects.isEmpty then c.handleNext io else none
  | .effect io =>
    match c.effects with
    | [] => none
    | e :: es => { c with effects := es }.applyEffect io e
  | .flush push =>
    if c.effects.isEmpty && c.draining && c.queue.isEmpty then
      some { c.flush push with draining := false }
    else none
  | .timeout animation push =>
    if c.effects.isEmpty && !c.draining && c.queue.isEmpty then
      some ((c.animate animation).flush push)
    else none

/-- The page that the next effect puts up. -/
def raised (c : EventLoop) : Option PageSpec :=
  match c.effects with
  | .showPage spec :: _ => some spec
  | .rebuildSavedPage :: _ => c.app.currentPageSpec
  | _ => none

/-- No touch meets the confirm button of a dialog that was not on the panel: none waits when the
dialog is put up, and none arrives while its frame is deferred. -/
def Undisturbed (c : EventLoop) : Action → Prop
  | .post event => (c.page.confirmedBy event).isSome → c.panel = c.page
  | .effect _ =>
    ∀ spec ∈ c.raised, ∀ w ∈ c.queue, (Screen.page spec).confirmedBy w.event = none
  | .handle _ | .flush _ | .timeout .. => True

end EventLoop

/-! ## Which pages confirm an update -/

/-- An event that is neither a touch nor an update. -/
def AppEvent.Plain (e : AppEvent) : Prop := (∀ x y, e ≠ .touch x y) ∧ e.update? = none

/-- The only button of a page that sends an update is the one that confirms it. -/
def PageSpec.Faithful (spec : PageSpec) : Prop :=
  ∀ e ∈ spec.buttons, (∀ x y, e ≠ .touch x y) ∧ ∀ u, e.update? = some u → spec.confirms = some u

/-- An effect that shows such a page, if any, and sends no update. -/
def Effect.Faithful : Effect → Prop
  | .showPage spec => spec.Faithful
  | .emit event => event.Plain
  | _ => True

/-- A page whose buttons post plain events only is faithful. -/
theorem PageSpec.faithful_of_plain {spec : PageSpec} (h : ∀ e ∈ spec.buttons, e.Plain) :
    spec.Faithful := fun e he => ⟨(h e he).1, fun _ hu => nomatch (h e he).2.symm.trans hu⟩

/-- So is a page without buttons. -/
theorem PageSpec.faithful_of_buttonless {spec : PageSpec} (h : spec.buttons = []) :
    spec.Faithful := by
  intro e he
  rw [h] at he
  cases he

namespace App

/-- The pages that navigation opens are faithful. -/
theorem navigationPage_faithful {event : AppEvent} {spec : PageSpec}
    (h : navigationPage event = some spec) : spec.Faithful := by
  apply PageSpec.faithful_of_plain
  cases event with
  | showImage back =>
    cases h
    cases back <;> simp [PageSpec.buttons, AppEvent.Plain, AppEvent.update?]
  | showStatus | showSignatures | showWatermarks | showBlockchain | showAbout | showGreeting =>
    cases h
    simp [PageSpec.buttons, AppEvent.Plain, AppEvent.update?]
  | _ => cases h

/-- What is quiet sends nothing. -/
theorem faithful_of_isQuiet {e : Effect} (h : isQuiet e = true) : e.Faithful := by
  cases e with
  | showPage | emit => cases h
  | _ => trivial

/-- **A page that the application shows sends an update only where it confirms it.** -/
theorem handleEvent_faithful {io : AppIo} {app : App} {event : AppEvent} {e : Effect}
    (h : e ∈ (app.handleEvent io event).2.2) : e.Faithful := by
  cases handleEvent_effect h with
  | quiet hquiet => exact faithful_of_isQuiet hquiet
  | setup _ heffect =>
    cases heffect with
    | quiet hquiet => exact faithful_of_isQuiet hquiet
    | navigation hnav => exact navigationPage_faithful hnav
    | firstPin | secondPin | mismatchShown => exact PageSpec.faithful_of_buttonless rfl
    | keygen => trivial
    | _ => simp [Effect.Faithful, AppEvent.Plain, AppEvent.update?]
  | pinEntry _ heffect =>
    cases heffect with
    | quiet hquiet => exact faithful_of_isQuiet hquiet
    | again | locked => exact PageSpec.faithful_of_buttonless rfl
    | verify => trivial
    | notice | invalid =>
      apply PageSpec.faithful_of_plain
      simp [PageSpec.buttons, AppEvent.Plain, AppEvent.update?]
    | _ => simp [Effect.Faithful, AppEvent.Plain, AppEvent.update?]
  | active _ heffect =>
    cases heffect with
    | quiet hquiet => exact faithful_of_isQuiet hquiet
    | navigation hnav => exact navigationPage_faithful hnav
    | largeGap | missing =>
      simp [Effect.Faithful, PageSpec.Faithful, PageSpec.buttons, PageSpec.confirms,
        AppEvent.update?]
    | update => trivial
    | menu | shutdown | unknownKey =>
      apply PageSpec.faithful_of_plain
      simp [PageSpec.buttons, AppEvent.Plain, AppEvent.update?]

/-! ## The saved page -/

/-- The screensaver leaves the page it comes back to. -/
theorem setScreensaver_spec (app : App) (active : Bool) :
    (app.setScreensaver active).currentPageSpec = app.currentPageSpec := by
  unfold setScreensaver
  split <;> rfl

/-- Waking leaves the page to come back to. -/
theorem wakeFromScreensaver_spec (app : App) :
    app.wakeFromScreensaver.1.currentPageSpec = app.currentPageSpec := by
  unfold wakeFromScreensaver
  split
  · exact app.setScreensaver_spec false
  · rfl

/-- In the active state the reducer changes no page itself: the effects do. -/
theorem handleActive_spec (app : App) (event : AppEvent) :
    (app.handleActive event).1.currentPageSpec = app.currentPageSpec := by
  have hwake := app.wakeFromScreensaver_spec
  unfold handleActive
  cases (if app.currentPageModal then none else navigationPage event) with
  | some spec => rfl
  | none =>
    cases event with
    | activateScreensaver =>
      dsimp only
      split
      · rfl
      · exact app.setScreensaver_spec true
    | deactivateScreensaver | largeWatermarkGap | watermarkMissing =>
      dsimp only
      split <;> first | exact hwake | rfl
    | unknownKeyRequested =>
      simp only [unknownKeyRequested, wakeWithoutRebuild]
      split
      · rfl
      · split
        · rfl
        · split
          · exact setScreensaver_spec _ false
          · rfl
    | _ => rfl

/-- Nor does it in the set-up. -/
theorem handleSetup_spec (io : AppIo) (app : App) (event : AppEvent) :
    (app.handleSetup io event).1.currentPageSpec = app.currentPageSpec := by
  cases event with
  | pinEntered pin =>
    simp only [handleSetup, handleSetupPinConfirm]
    split
    · split <;> rfl
    · rfl
  | startSetup | watermarkConfigChecked =>
    simp only [handleSetup]
    split <;> rfl
  | firstPinEntered | pinMismatch =>
    simp only [handleSetup, setFirstPin]
    split <;> rfl
  | _ => rfl

/-- Nor does it at the PIN. -/
theorem handlePinEntry_spec (io : AppIo) (app : App) (event : AppEvent) :
    (app.handlePinEntry io event).1.currentPageSpec = app.currentPageSpec := by
  cases event with
  | pinEntered pin =>
    simp only [handlePinEntry]
    split
    · split <;> rfl
    · rfl
  | invalidPinEntered =>
    simp only [handlePinEntry]
    split
    · split <;> rfl
    · rfl
  | pinVerified json migration =>
    simp only [handlePinEntry, dispatchPinVerified]
    split <;> rfl
  | _ => rfl

/-- No handler touches the saved page. -/
theorem handleEvent_spec (io : AppIo) (app : App) (event : AppEvent) :
    (app.handleEvent io event).1.currentPageSpec = app.currentPageSpec := by
  unfold handleEvent
  cases event with
  | shutdown | fatalError => rfl
  | _ =>
    dsimp only
    split
    · exact handleSetup_spec io app _
    · exact handlePinEntry_spec io app _
    · exact handleActive_spec app _
    · rfl

end App

namespace EventLoop

/-- What holds between two actions: the pages are faithful, a touch that waits and meets the confirm
button saw its page, and every update came from a touch that saw its confirmation. -/
structure Inv [PageLayout] (c : EventLoop) : Prop where
  page : ∀ spec, c.page = .page spec → spec.Faithful
  saved : ∀ spec, c.app.currentPageSpec = some spec → spec.Faithful
  effects : ∀ e ∈ c.effects, e.Faithful
  touches : ∀ w ∈ c.queue, ∀ u, c.page.confirmedBy w.event = some u → w.panel = c.page
  sent : ∀ w ∈ c.queue, ∀ u, w.event.update? = some u → w.panel.Confirms u
  updates : ∀ p ∈ c.updates, p.2.Confirms p.1

/-- A panel that changes, and what is kept to render it, change nothing of this. -/
theorem Inv.congr [PageLayout] {c c' : EventLoop} (h : c.Inv) (hpage : c'.page = c.page)
    (hsaved : c'.app.currentPageSpec = c.app.currentPageSpec) (heffects : c'.effects = c.effects)
    (hqueue : c'.queue = c.queue) (hupdates : c'.updates = c.updates) : c'.Inv where
  page := hpage ▸ h.page
  saved := hsaved ▸ h.saved
  effects := heffects ▸ h.effects
  touches := by
    rw [hpage, hqueue]
    exact h.touches
  sent := hqueue ▸ h.sent
  updates := hupdates ▸ h.updates

section

variable [PageLayout] {c c' : EventLoop}

/-- Only a touch confirms. -/
theorem confirmedBy_plain {s : Screen} {e : AppEvent} (he : ∀ x y, e ≠ .touch x y) :
    s.confirmedBy e = none := by
  cases e with
  | touch x y => exact absurd rfl (he x y)
  | _ => rfl

/-- A page without a confirm button is met by no touch. -/
theorem confirmedBy_of_buttons {spec : PageSpec} (h : ∀ e ∈ spec.buttons, e.update? = none)
    (e : AppEvent) : (Screen.page spec).confirmedBy e = none := by
  cases e with
  | touch x y =>
    show ((PageLayout.buttonAt spec x y).bind fun i => spec.buttons[i]?).bind AppEvent.update? = none
    rw [Option.bind_eq_none_iff]
    intro event hevent
    obtain ⟨i, -, hi⟩ := Option.bind_eq_some_iff.1 hevent
    exact h event (List.mem_of_getElem? hi)
  | _ => rfl

/-- An event that enters the channel. -/
theorem Inv.enqueue (h : c.Inv) {w : Waiting}
    (htouch : ∀ u, c.page.confirmedBy w.event = some u → w.panel = c.page)
    (hsent : ∀ u, w.event.update? = some u → w.panel.Confirms u) :
    Inv { c with queue := c.queue ++ [w] } where
  page := h.page
  saved := h.saved
  effects := h.effects
  touches := by
    intro w' hw'
    rcases List.mem_append.1 hw' with hw' | hw'
    · exact h.touches w' hw'
    · rw [List.mem_singleton.1 hw']
      exact htouch
  sent := by
    intro w' hw'
    rcases List.mem_append.1 hw' with hw' | hw'
    · exact h.sent w' hw'
    · rw [List.mem_singleton.1 hw']
      exact hsent
  updates := h.updates

/-- An event that is neither a touch nor an update enters it freely. -/
theorem Inv.enqueue_plain (h : c.Inv) {e : AppEvent} (he : e.Plain) (panel : Screen) :
    Inv { c with queue := c.queue ++ [⟨e, panel⟩] } :=
  h.enqueue (fun _ hu => nomatch (confirmedBy_plain he.1).symm.trans hu)
    fun _ hu => nomatch he.2.symm.trans hu

/-- A page that is put up, which no waiting touch confirms. -/
theorem Inv.turn (h : c.Inv) (s : Screen) (app : App) (needsAnimation : Bool)
    (hpage : ∀ spec, s = .page spec → spec.Faithful)
    (hsaved : ∀ spec, app.currentPageSpec = some spec → spec.Faithful)
    (htouches : ∀ w ∈ c.queue, s.confirmedBy w.event = none) :
    Inv { c with page := s, app, needsAnimation } where
  page := hpage
  saved := hsaved
  effects := h.effects
  touches := fun w hw _ hu => nomatch (htouches w hw).symm.trans hu
  sent := h.sent
  updates := h.updates

/-- A push, whatever comes of it. -/
theorem Inv.tryRenderPageTransition (h : c.Inv) (push : UpdateOutcome) :
    (c.tryRenderPageTransition push).Inv := by
  cases push <;> exact h.congr rfl rfl rfl rfl rfl

/-- A push keeps the invariant. -/
theorem Inv.tryRenderPage (h : c.Inv) (push : UpdateOutcome) : (c.tryRenderPage push).Inv := by
  cases push <;> exact h.congr rfl rfl rfl rfl rfl

/-- An animation tick keeps the invariant. -/
theorem Inv.animate (h : c.Inv) (push : UpdateOutcome) : (c.animate push).Inv := by
  unfold EventLoop.animate
  split
  · exact h.tryRenderPage push
  · exact h

/-- The flush of a pending render keeps the invariant. -/
theorem Inv.flush (h : c.Inv) (push : UpdateOutcome) : (c.flush push).Inv := by
  have hnone : Inv { c with pending := .none } := h.congr rfl rfl rfl rfl rfl
  unfold EventLoop.flush
  dsimp only
  split
  · cases c.pending with
    | none => exact hnone
    | inPlace =>
      cases push with
      | done => exact hnone.tryRenderPage .done
      | busy => exact hnone.congr rfl rfl rfl rfl rfl
    | transition => exact hnone.tryRenderPageTransition push
  · exact hnone

/-- A page that the application puts up. -/
theorem Inv.putUp (h : c.Inv) {spec : PageSpec} (hspec : spec.Faithful) (push : UpdateOutcome)
    (hqueue : ∀ w ∈ c.queue, (Screen.page spec).confirmedBy w.event = none) :
    (c.putUp push spec).Inv := by
  have hpage : ∀ spec', Screen.page spec = .page spec' → spec'.Faithful := by
    intro spec' heq
    cases heq
    exact hspec
  exact (h.turn _ { c.app with currentPageModal := spec.isModal } false hpage h.saved
    hqueue).tryRenderPageTransition push

/-- The outcome of an update. -/
theorem Inv.applyWatermarkUpdate (h : c.Inv) (io : EffectIo) :
    (c.applyWatermarkUpdate io).Inv := by
  have hsuccess : AppEvent.watermarkUpdateSuccess.Plain := ⟨nofun, rfl⟩
  unfold EventLoop.applyWatermarkUpdate
  split
  · exact h.enqueue_plain hsuccess c.panel
  · rename_i message _
    have hbuttons : ∀ e ∈ (PageSpec.dialog ("Update failed:\n" ++ message)
        .dialogDismissed).buttons, e.Plain := by
      simp [PageSpec.buttons, AppEvent.Plain, AppEvent.update?]
    have hpage : ∀ spec, Screen.page (.dialog ("Update failed:\n" ++ message) .dialogDismissed) =
        .page spec → spec.Faithful := by
      intro spec heq
      cases heq
      exact PageSpec.faithful_of_plain hbuttons
    exact (h.turn _ { c.app with currentPageModal := true } c.needsAnimation hpage h.saved
      fun w _ => confirmedBy_of_buttons (fun e he => (hbuttons e he).2) w.event
      ).tryRenderPageTransition io.push

omit [PageLayout] in
/-- A page other than `DeviceLocked` is put up, and remembered as the page to come back to. -/
theorem applyEffect_showPage {io : EffectIo} {spec : PageSpec} (h : spec ≠ .deviceLocked) :
    c.applyEffect io (.showPage spec) =
      some ({ c with app := { c.app with currentPageSpec := some spec } }.putUp io.push spec) := by
  cases spec with
  | deviceLocked => exact absurd rfl h
  | _ => rfl

/-- **An effect** keeps the invariant, where the page that it puts up meets no waiting touch. -/
theorem Inv.applyEffect (h : c.Inv) {io : EffectIo} {e : Effect} (he : e.Faithful)
    (hqueue : ∀ spec, e = .showPage spec ∨ e = .rebuildSavedPage ∧
        c.app.currentPageSpec = some spec →
      ∀ w ∈ c.queue, (Screen.page spec).confirmedBy w.event = none)
    (hstep : c.applyEffect io e = some c') : c'.Inv := by
  have hprogress : ∀ w ∈ c.queue, Screen.progress.confirmedBy w.event = none := by
    intro w _
    cases w.event <;> rfl
  have hscreensaver : ∀ w ∈ c.queue, Screen.screensaver.confirmedBy w.event = none := by
    intro w _
    cases w.event <;> rfl
  cases e with
  | showPage spec =>
    by_cases hlocked : spec = .deviceLocked
    · subst hlocked
      cases hstep
      exact h.congr rfl rfl rfl rfl rfl
    · rw [applyEffect_showPage hlocked] at hstep
      cases hstep
      have hsaved : Inv { c with app := { c.app with currentPageSpec := some spec } } := by
        refine ⟨h.page, ?_, h.effects, h.touches, h.sent, h.updates⟩
        intro spec' heq
        cases heq
        exact he
      exact hsaved.putUp he io.push (hqueue spec (.inl rfl))
  | showProgress message duration modal percent =>
    cases hstep
    exact (h.turn .progress { c.app with currentPageModal := duration.isSome && modal }
      duration.isSome (fun _ heq => nomatch heq) h.saved hprogress).tryRenderPageTransition io.push
  | emit event =>
    cases hstep
    exact h.enqueue_plain he c.panel
  | updateWatermark pkh chainId level =>
    cases hstep
    exact h.applyWatermarkUpdate io
  | dropCurrentPage =>
    cases hstep
    exact (h.turn .screensaver c.app c.needsAnimation (fun _ heq => nomatch heq) h.saved
      hscreensaver).congr rfl rfl rfl rfl rfl
  | rebuildSavedPage =>
    simp only [EventLoop.applyEffect] at hstep
    cases hsaved : c.app.currentPageSpec with
    | none =>
      simp only [hsaved] at hstep
      cases hstep
      exact h
    | some spec =>
      simp only [hsaved] at hstep
      cases hstep
      exact h.putUp (h.saved spec hsaved) io.push (hqueue spec (.inr ⟨rfl, hsaved⟩))
  | clearDisplay =>
    cases hstep
    exact h.congr rfl rfl rfl rfl rfl
  | sleep duration =>
    cases hstep
    exact h.animate io.push
  | fatalError title message => cases hstep
  | exit code => cases hstep
  | wakeDisplay | sleepDisplay | sleepDevice | startSigner | initWatermark | dropPrivileges
  | remountKeysReadonly | processWatermarkConfig | verifyStorage =>
    simp only [EventLoop.applyEffect] at hstep
    split at hstep <;> cases hstep
    exact h
  | spawnKeygen | spawnPinVerify | spawnStorageSetup | syncDisk | writeSetupMarker
  | setKeyPermissions | validateWatermarkConfig | resetActivity =>
    cases hstep
    exact h

/-- A touch sends what the button that it hits sends, and an update only where it saw the page. -/
theorem Inv.handleTouch (h : c.Inv) {x y : Int} {panel : Screen}
    (hseen : ∀ u, c.page.confirmedBy (.touch x y) = some u → panel = c.page) :
    (c.handleTouch x y panel).Inv := by
  have hwake : AppEvent.deactivateScreensaver.Plain := ⟨nofun, rfl⟩
  unfold EventLoop.handleTouch
  split
  · exact h.enqueue_plain hwake panel
  · cases hpressed : c.page.pressed x y with
    | none => exact h.congr rfl rfl rfl (List.append_nil _) rfl
    | some event =>
      cases hpage : c.page with
      | page spec =>
        rw [hpage] at hpressed hseen
        obtain ⟨i, -, hi⟩ := Option.bind_eq_some_iff.1 hpressed
        obtain ⟨htouch, hconfirms⟩ := h.page spec hpage event (List.mem_of_getElem? hi)
        have hinert : c.page.confirmedBy event = none := confirmedBy_plain htouch
        rw [← hpage]
        refine h.enqueue ?_ ?_
        · intro u hu
          cases hinert.symm.trans hu
        intro u hu
        have hconfirmed : (Screen.page spec).confirmedBy (.touch x y) = some u := by
          show ((Screen.page spec).pressed x y).bind AppEvent.update? = some u
          rw [hpressed]
          exact hu
        exact ⟨spec, hseen u hconfirmed, hconfirms u hu⟩
      | _ =>
        rw [hpage] at hpressed
        cases hpressed

/-- **Handling an event** keeps it. -/
theorem Inv.handleNext (h : c.Inv) {io : AppIo} (hstep : c.handleNext io = some c') : c'.Inv := by
  unfold EventLoop.handleNext at hstep
  cases hq : c.queue with
  | nil =>
    simp only [hq] at hstep
    cases hstep
  | cons w queue =>
    obtain ⟨event, panel⟩ := w
    have hhead : (⟨event, panel⟩ : Waiting) ∈ c.queue := hq ▸ List.mem_cons_self
    have htail : ∀ w ∈ queue, w ∈ c.queue := fun w hw => hq ▸ List.mem_cons_of_mem _ hw
    have hrest : Inv { c with queue, draining := true } :=
      ⟨h.page, h.saved, h.effects, fun w hw => h.touches w (htail w hw),
        fun w hw => h.sent w (htail w hw), h.updates⟩
    -- the events that reach the application
    have happ : ∀ effects, (∀ e ∈ effects, e.Faithful) →
        Inv { c with
          queue, draining := true, effects, app := (c.app.handleEvent io event).1
          updates := c.updates ++ event.update?.toList.map fun u => (u, panel) } := by
      intro effects hfaithful
      refine ⟨h.page, ?_, hfaithful, hrest.touches, hrest.sent, ?_⟩
      · rw [App.handleEvent_spec]
        exact h.saved
      · intro p hp
        rcases List.mem_append.1 hp with hp | hp
        · exact h.updates p hp
        · obtain ⟨u, hu, rfl⟩ := List.mem_map.1 hp
          exact h.sent _ hhead u (Option.mem_toList.1 hu)
    have hfaithful : ∀ e ∈ (c.app.handleEvent io event).2.2, e.Faithful :=
      fun _ he => App.handleEvent_faithful he
    simp only [hq] at hstep
    cases event with
    | touch x y =>
      cases hstep
      exact hrest.handleTouch (h.touches _ hhead)
    | invalidate =>
      cases hstep
      exact hrest.congr rfl rfl rfl rfl rfl
    | _ =>
      dsimp only at hstep
      split at hstep
      · cases hstep
        exact happ c.effects h.effects
      · cases hstep
      · cases hstep
        exact happ _ hfaithful

/-- **One step keeps the invariant**, where it is undisturbed. -/
theorem step_inv (c : EventLoop) (a : Action) (c' : EventLoop) (h : c.Inv)
    (hcond : c.Undisturbed a) (hstep : c.step a = some c') : c'.Inv := by
  cases a with
  | post event =>
    simp only [step] at hstep
    split at hstep
    · cases hstep
    · rename_i hupdate
      cases hstep
      refine h.enqueue ?_ ?_
      · exact fun u hu => hcond (by rw [hu]; rfl)
      · intro u hu
        rw [hu] at hupdate
        exact absurd rfl hupdate
  | handle io =>
    simp only [step] at hstep
    split at hstep
    · exact h.handleNext hstep
    · cases hstep
  | effect io =>
    simp only [step] at hstep
    cases heffects : c.effects with
    | nil =>
      simp only [heffects] at hstep
      cases hstep
    | cons e es =>
      simp only [heffects] at hstep
      have hrest : Inv { c with effects := es } :=
        ⟨h.page, h.saved, fun e' he' => h.effects e' (heffects ▸ List.mem_cons_of_mem _ he'),
          h.touches, h.sent, h.updates⟩
      refine hrest.applyEffect (h.effects e (heffects ▸ List.mem_cons_self)) ?_ hstep
      intro spec hspec
      refine hcond spec ?_
      rcases hspec with rfl | ⟨rfl, hsaved⟩
      · simp only [raised, heffects]
        rfl
      · simp only [raised, heffects]
        exact hsaved
  | flush push =>
    simp only [step] at hstep
    split at hstep <;> cases hstep
    exact (h.flush push).congr rfl rfl rfl rfl rfl
  | timeout animation push =>
    simp only [step] at hstep
    split at hstep <;> cases hstep
    exact (h.animate animation).flush push

/-- The invariant holds of the loop at its start. -/
theorem start_inv (isFirstBoot : Bool) (touches : List (Int × Int)) :
    (start isFirstBoot touches).Inv := by
  have hbuttons : ∀ e ∈ (openingPage isFirstBoot).buttons, e.Plain := by
    cases isFirstBoot <;> simp [openingPage, PageSpec.buttons, AppEvent.Plain, AppEvent.update?]
  refine ⟨?_, ?_, ?_, ?_, ?_, ?_⟩
  · intro spec heq
    cases heq
    exact PageSpec.faithful_of_plain hbuttons
  · intro spec heq
    cases heq
  · exact List.forall_mem_nil _
  · intro w _ u hu
    cases (confirmedBy_of_buttons (fun e he => (hbuttons e he).2) w.event).symm.trans hu
  · intro w hw u hu
    obtain ⟨p, -, rfl⟩ := List.mem_map.1 hw
    cases hu
  · exact List.forall_mem_nil _

/-- **No watermark update without its dialog.** In a run in which no touch meets the confirm button
of a dialog that was not on the panel, every update that reaches the application was confirmed by a
touch that was received while the panel showed a confirmation for exactly that key, chain and
level. -/
theorem updates_confirmed (isFirstBoot : Bool) (touches : List (Int × Int)) (acts : List Action)
    (c : EventLoop) (hundisturbed : Automaton.Along step Undisturbed (start isFirstBoot touches) acts)
    (h : Automaton.run step (start isFirstBoot touches) acts = some c) :
    ∀ p ∈ c.updates, p.2.Confirms p.1 :=
  (Automaton.run_invariant step_inv (start_inv isFirstBoot touches) hundisturbed h).updates

instance (c : EventLoop) (a : Action) : Decidable (c.Undisturbed a) := by
  cases a <;> simp only [Undisturbed] <;> infer_instance

end

/-- A panel with the two buttons of a confirmation in its lower part. -/
@[reducible] def dialogLayout : PageLayout where
  buttonAt spec x y :=
    match spec with
    | .confirmation .. | .confirmationWithPairs .. =>
      if 96 ≤ y then some (if x < 125 then 0 else 1) else none
    | _ => none

/-- An effect that succeeds, on an idle panel. -/
def quiet : EffectIo := ⟨.done, .ok ()⟩

/-- An unlock, up to the menu. -/
def unlockRun : List Action :=
  [.post (.pinEntered [1, 2]), .handle ⟨0, false⟩, .effect quiet, .effect quiet, .flush .done,
    .post (.pinVerified "keys" none), .handle ⟨0, false⟩, .effect quiet, .effect quiet,
    .handle ⟨0, false⟩, .effect quiet, .effect quiet, .effect quiet, .flush .done]

/-- A request that is far ahead of the mark. -/
def gapEvent : AppEvent := .largeWatermarkGap "tz4" testChain 100 150

/-- The operator reads the dialog and confirms it. -/
def readRun : List Action :=
  unlockRun ++ [.post gapEvent, .handle ⟨0, false⟩, .effect quiet, .flush .done,
    .post (.touch 60 110), .handle ⟨0, false⟩, .handle ⟨0, false⟩, .effect quiet]

/-- The operator touches the menu while the request comes in. -/
def unreadRun : List Action :=
  unlockRun ++ [.post gapEvent, .post (.touch 60 110), .handle ⟨0, false⟩, .effect quiet,
    .handle ⟨0, false⟩, .handle ⟨0, false⟩]

section

attribute [local instance] dialogLayout

/-- A dialog that was read is confirmed. -/
theorem updates_confirmed_read : ∃ c, Automaton.run step (start false []) readRun = some c ∧
    c.updates.length = 1 ∧ ∀ p ∈ c.updates, p.2.Confirms p.1 := by
  have hone : (Automaton.run step (start false []) readRun).map (fun c => c.updates.length) =
      some 1 := by decide +kernel
  obtain ⟨c, hrun, hc⟩ := Option.map_eq_some_iff.1 hone
  exact ⟨c, hrun, hc, updates_confirmed false [] readRun c (by decide +kernel) hrun⟩

end

/-- **A touch of the menu confirms a dialog that came after it.** -/
theorem update_unseen : ¬∀ [PageLayout] (isFirstBoot : Bool) (touches : List (Int × Int))
    (acts : List Action) (c : EventLoop),
    Automaton.run step (start isFirstBoot touches) acts = some c →
      ∀ p ∈ c.updates, p.2.Confirms p.1 := by
  intro hall
  have hmenu : (@Automaton.run _ _ (@step dialogLayout) (start false []) unreadRun).map updates =
      some [(("tz4", testChain, 150), .page .menu)] := by decide +kernel
  obtain ⟨c, hrun, hupdates⟩ := Option.map_eq_some_iff.1 hmenu
  obtain ⟨spec, hspec, hconfirms⟩ := @hall dialogLayout _ _ _ c hrun _
    (hupdates ▸ List.mem_singleton_self _)
  cases hspec
  cases hconfirms

end EventLoop

end Russignol
