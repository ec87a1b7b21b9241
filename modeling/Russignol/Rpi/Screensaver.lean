import Russignol.Rpi.EventLoop

/-!
# The screensaver

What one event makes of the screensaver of `rpi-signer/src/app.rs`: it falls asleep with
`DropCurrentPage` and `SleepDisplay`, it wakes with a list that starts with `WakeDisplay`, and no
other event moves it (`Response`).

A page that an event puts up wakes nothing by itself. The events of a page that was up before the
screensaver may wait behind it in the channel: `AppEvent.unwaking` are those that paint without a
wake.
-/

namespace Russignol

/-- An effect that leaves the panel as awake as it is, and the page up. -/
def Effect.calm : Effect → Bool
  | .sleepDisplay | .wakeDisplay | .dropCurrentPage | .clearDisplay | .sleepDevice => false
  | .showPage .deviceLocked => false
  | _ => true

/-- A watermark update, the one effect of a device that signs that paints only where it fails. -/
def Effect.isUpdate : Effect → Bool
  | .updateWatermark .. => true
  | _ => false

/-- A page that is sure to be put up. -/
def Effect.raises : Effect → Bool
  | .showPage _ | .rebuildSavedPage => true
  | _ => false

/-- An event that puts a page up, and does not wake the panel for it. -/
def AppEvent.unwaking (modal : Bool) : AppEvent → Bool
  | .keysDecrypted _ | .unknownKeyDismissed | .watermarkUpdateSuccess => true
  | .dialogDismissed | .showMenu | .requestShutdown | .fatalError .. => true
  | event => !modal && (App.navigationPage event).isSome

namespace App

/-! ## What an event makes of the screensaver -/

/-- What an event that the loop goes on with leads to: with the screensaver as it was, the device
locked, asleep, or woken with a page to put up. -/
inductive Response (app : App) (event : AppEvent) (app' : App) : List Effect → Prop
  | same {effects : List Effect} : app'.isScreensaverActive = app.isScreensaverActive →
    (∀ e ∈ effects, e.calm = true) →
    (app.isScreensaverActive = true → event.unwaking app.currentPageModal = false →
      ∀ e ∈ effects, e.isUpdate = true) → Response app event app' effects
  | locked : app.isScreensaverActive = false → app'.isScreensaverActive = false →
    Response app event app' [.showPage .deviceLocked, .exit 1]
  | asleep : app.isScreensaverActive = false → app'.isScreensaverActive = true →
    Response app event app' [.dropCurrentPage, .sleepDisplay]
  | woken {effects : List Effect} : app.isScreensaverActive = true →
    app'.isScreensaverActive = false → (∀ e ∈ effects, e.calm = true) →
    (∃ e ∈ effects, e.raises = true) → Response app event app' (.wakeDisplay :: effects)

/-- Only a device that signs shows the screensaver. -/
theorem isScreensaverActive_iff {app : App} :
    app.isScreensaverActive = true ↔ app.state = .active true := by
  unfold isScreensaverActive
  exact decide_eq_true_iff

/-- Whether the screensaver is on is a part of the active state. -/
theorem isScreensaverActive_eq {app : App} {b : Bool} (h : app.state = .active b) :
    app.isScreensaverActive = b := by
  unfold isScreensaverActive
  rw [h]
  cases b <;> rfl

/-- A response before the device signs. -/
theorem Response.before {app app' : App} {event : AppEvent} {effects : List Effect}
    (happ : app.isScreensaverActive = false) (happ' : app'.isScreensaverActive = false)
    (hcalm : ∀ e ∈ effects, e.calm = true) : Response app event app' effects :=
  .same (happ'.trans happ.symm) hcalm fun h => by rw [happ] at h; cases h

/-- Setup leaves the panel awake. -/
theorem handleSetup_calm {io : AppIo} {app : App} {event : AppEvent} :
    ∀ e ∈ (app.handleSetup io event).2, e.calm = true := by
  cases event with
  | pinEntered pin =>
    simp only [handleSetup, handleSetupPinConfirm]
    split
    · split <;> simp [Effect.calm]
    · exact List.forall_mem_nil _
  | startSetup | watermarkConfigChecked =>
    simp only [handleSetup]
    split <;> simp [Effect.calm]
  | keyGenSuccess json => simp [handleSetup, finalizeFirstBoot, Effect.calm]
  | _ => simp [handleSetup, Effect.calm]

/-- So does the PIN entry, until it locks the device. -/
theorem handlePinEntry_calm {io : AppIo} {app : App} {event : AppEvent}
    (h : event ≠ .deviceLocked) : ∀ e ∈ (app.handlePinEntry io event).2, e.calm = true := by
  have hproceed : ∀ json demote, ∀ e ∈ (app.proceedToActive json demote).2, e.calm = true := by
    intro json demote
    cases demote <;> simp [proceedToActive, demoteEffects, Effect.calm]
  cases event with
  | deviceLocked => exact absurd rfl h
  | pinEntered pin =>
    simp only [handlePinEntry]
    split
    · split <;> simp [Effect.calm]
    · simp [Effect.calm]
  | pinVerified json migration =>
    cases migration with
    | none => exact hproceed json false
    | some m =>
      cases m with
      | promotedV2 => exact hproceed json true
      | stagedV2 =>
        simp [handlePinEntry, dispatchPinVerified, demoteEffects, pushRebootProgress, Effect.calm]
      | _ => simp [handlePinEntry, dispatchPinVerified, pushMigrationNotice, Effect.calm]
  | acknowledgeMigrationNotice json => exact hproceed json true
  | invalidPinEntered =>
    simp only [handlePinEntry]
    split
    · split <;> simp [Effect.calm]
    · exact List.forall_mem_nil _
  | _ => simp [handlePinEntry, Effect.calm]

/-- Waking up, with a page or without one. -/
theorem wakeWithoutRebuild_active {app : App} (h : app.state = .active true) :
    app.wakeWithoutRebuild = (app.setScreensaver false, [.wakeDisplay, .resetActivity]) :=
  if_pos (isScreensaverActive_eq h)

/-- A device in the screensaver is woken, and its page rebuilt. -/
theorem wakeFromScreensaver_active {app : App} (h : app.state = .active true) :
    app.wakeFromScreensaver =
      (app.setScreensaver false, [.wakeDisplay, .rebuildSavedPage, .resetActivity]) :=
  if_pos (isScreensaverActive_eq h)

/-- A device that is awake is not woken. -/
theorem wakeWithoutRebuild_awake {app : App} (h : app.state = .active false) :
    app.wakeWithoutRebuild = (app, []) :=
  if_neg (by rw [isScreensaverActive_eq h]; exact Bool.false_ne_true)

/-- Nor is its page rebuilt. -/
theorem wakeFromScreensaver_awake {app : App} (h : app.state = .active false) :
    app.wakeFromScreensaver = (app, []) :=
  if_neg (by rw [isScreensaverActive_eq h]; exact Bool.false_ne_true)

/-- A page over the screensaver, with the saved page under it. -/
theorem wakeFromScreensaver_raise {app : App} {event : AppEvent} {b : Bool}
    (h : app.state = .active b) {spec : PageSpec} (hspec : (Effect.showPage spec).calm = true) :
    Response app event app.wakeFromScreensaver.1
      (app.wakeFromScreensaver.2 ++ [.showPage spec]) := by
  cases b with
  | true =>
    rw [wakeFromScreensaver_active h]
    show Response _ _ _ (.wakeDisplay :: [.rebuildSavedPage, .resetActivity, .showPage spec])
    refine .woken (isScreensaverActive_eq h)
      (isScreensaverActive_eq (setScreensaver_state h false)) ?_ ⟨.rebuildSavedPage, ?_, rfl⟩
    · simp only [List.forall_mem_cons]
      exact ⟨rfl, rfl, hspec, List.forall_mem_nil _⟩
    · exact List.mem_cons_self
  | false =>
    rw [wakeFromScreensaver_awake h]
    refine .before (isScreensaverActive_eq h) (isScreensaverActive_eq h) ?_
    simp [hspec]

/-- A page over the screensaver alone. -/
theorem wakeWithoutRebuild_raise {app app' : App} {event : AppEvent} {b : Bool}
    (h : app.state = .active b) (h' : app'.state = .active b) {spec : PageSpec}
    (hspec : (Effect.showPage spec).calm = true) :
    Response app event app'.wakeWithoutRebuild.1
      (app'.wakeWithoutRebuild.2 ++ [.showPage spec]) := by
  cases b with
  | true =>
    rw [wakeWithoutRebuild_active h']
    show Response _ _ _ (.wakeDisplay :: [.resetActivity, .showPage spec])
    refine .woken (isScreensaverActive_eq h)
      (isScreensaverActive_eq (setScreensaver_state h' false)) ?_ ⟨.showPage spec, ?_, rfl⟩
    · simp only [List.forall_mem_cons]
      exact ⟨rfl, hspec, List.forall_mem_nil _⟩
    · exact List.mem_cons_of_mem _ List.mem_cons_self
  | false =>
    rw [wakeWithoutRebuild_awake h']
    refine .before (isScreensaverActive_eq h) (isScreensaverActive_eq h') ?_
    simp [hspec]

/-- A page of an event that does not wake the panel. -/
theorem Response.shown {app app' : App} {event : AppEvent} {effects : List Effect}
    (hstate : app'.isScreensaverActive = app.isScreensaverActive)
    (hcalm : ∀ e ∈ effects, e.calm = true)
    (hevent : event.unwaking app.currentPageModal = true) : Response app event app' effects :=
  .same hstate hcalm fun _ h => by rw [hevent] at h; cases h

/-- A navigation page is an ordinary one. -/
theorem navigationPage_calm {event : AppEvent} {spec : PageSpec}
    (h : navigationPage event = some spec) : (Effect.showPage spec).calm = true := by
  cases event with
  | showImage | showStatus | showSignatures | showWatermarks | showBlockchain | showAbout
  | showGreeting =>
    cases h
    rfl
  | _ => cases h

/-- **What an event makes of the screensaver of a device that signs.** -/
theorem handleActive_response {app : App} {event : AppEvent} {b : Bool}
    (h : app.state = .active b) (hproceed : (app.handleActive event).2.1 = .proceed) :
    Response app event (app.handleActive event).1 (app.handleActive event).2.2 := by
  have hb := isScreensaverActive_eq h
  have hnone : Response app event app [] :=
    .same rfl (List.forall_mem_nil _) fun _ _ => List.forall_mem_nil _
  unfold handleActive at hproceed ⊢
  cases hnav : (if app.currentPageModal then none else navigationPage event) with
  | some spec =>
    split at hnav
    · cases hnav
    · rename_i hmodal
      refine .shown rfl ?_ ?_
      · simp [navigationPage_calm hnav]
      · cases event with
        | showImage | showStatus | showSignatures | showWatermarks | showBlockchain | showAbout
        | showGreeting => simp [AppEvent.unwaking, hmodal, hnav]
        | _ => cases hnav
  | none =>
    simp only [hnav] at hproceed
    cases event with
    | keysDecrypted | watermarkUpdateSuccess | dialogDismissed | showMenu | requestShutdown =>
      exact .shown rfl (by simp [Effect.calm]) rfl
    | unknownKeyDismissed => exact .shown rfl (by simp [Effect.calm]) rfl
    | activateScreensaver =>
      dsimp only at hproceed ⊢
      split at hproceed
      · cases hproceed
      · rename_i hasleep
        rw [if_neg hasleep]
        refine .asleep ?_ (isScreensaverActive_eq (setScreensaver_state h true))
        simp only [Bool.or_eq_true, not_or, Bool.not_eq_true] at hasleep
        exact hasleep.2
    | deactivateScreensaver =>
      dsimp only
      split
      · rename_i hactive
        have hstate := isScreensaverActive_iff.1 hactive
        rw [wakeFromScreensaver_active hstate]
        exact .woken hactive (isScreensaverActive_eq (setScreensaver_state hstate false))
          (by simp [Effect.calm]) ⟨.rebuildSavedPage, List.mem_cons_self, rfl⟩
      · exact hnone
    | largeWatermarkGap | watermarkMissing =>
      dsimp only
      split
      · exact hnone
      · exact wakeFromScreensaver_raise h rfl
    | unknownKeyRequested pkh =>
      simp only [unknownKeyRequested]
      split
      · exact hnone
      · split
        · exact hnone
        · refine wakeWithoutRebuild_raise h ?_ ?_
          · exact h
          · exact rfl
    | updateWatermarkToLevel => exact .same rfl (by simp [Effect.calm]) (by simp [Effect.isUpdate])
    | _ => exact hnone

/-- The device that is set up, or takes the PIN, shows no screensaver after an event either. -/
theorem handleSetup_awake {io : AppIo} {app : App} {event : AppEvent} {firstPin : Option Pin}
    (h : app.state = .setup firstPin) : (app.handleSetup io event).1.isScreensaverActive = false := by
  have hnext := @handleSetup_state io app event firstPin h
  unfold isScreensaverActive
  rw [hnext]
  cases event with
  | pinEntered pin =>
    dsimp only
    split <;> rfl
  | _ => rfl

/-- No screensaver comes on at the PIN. -/
theorem handlePinEntry_awake {io : AppIo} {app : App} {event : AppEvent} {failed : UInt32}
    {lockoutUntil : Option Nat} (h : app.state = .pinEntry failed lockoutUntil) :
    (app.handleEvent io event).1.isScreensaverActive = false := by
  have hnext : (app.handleEvent io event).1.state ≠ .active true := by
    rw [handlePinEntry_state h]
    unfold nextPinEntry
    split
    · split <;> simp
    · split <;> simp
    · simp
    · simp
    · simp
    · simp
    · simp
  unfold isScreensaverActive
  exact decide_eq_false hnext

/-- **What an event makes of the screensaver**, in any state. -/
theorem handleEvent_response {io : AppIo} {app : App} {event : AppEvent}
    (hproceed : (app.handleEvent io event).2.1 = .proceed) :
    Response app event (app.handleEvent io event).1 (app.handleEvent io event).2.2 := by
  cases hstate : app.state with
  | setup firstPin =>
    have hsetup := @handleSetup_awake io app event firstPin hstate
    have happ : app.isScreensaverActive = false := by simp [isScreensaverActive, hstate]
    unfold handleEvent at hproceed ⊢
    cases event with
    | shutdown => cases hproceed
    | fatalError => exact .shown rfl (by simp [Effect.calm]) rfl
    | _ =>
      simp only [hstate]
      exact .before happ hsetup handleSetup_calm
  | pinEntry failed lockoutUntil =>
    have hpin := @handlePinEntry_awake io app event failed lockoutUntil hstate
    have happ : app.isScreensaverActive = false := by simp [isScreensaverActive, hstate]
    unfold handleEvent at hproceed hpin ⊢
    cases event with
    | shutdown => cases hproceed
    | fatalError => exact .shown rfl (by simp [Effect.calm]) rfl
    | deviceLocked =>
      simp only [hstate] at hpin ⊢
      exact .locked happ hpin
    | _ =>
      simp only [hstate] at hpin ⊢
      exact .before happ hpin (handlePinEntry_calm AppEvent.noConfusion)
  | active b =>
    unfold handleEvent at hproceed ⊢
    cases event with
    | shutdown => cases hproceed
    | fatalError => exact .shown rfl (by simp [Effect.calm]) rfl
    | _ =>
      simp only [hstate] at hproceed ⊢
      exact handleActive_response hstate hproceed
  | locked =>
    unfold handleEvent at hproceed ⊢
    cases event with
    | shutdown => cases hproceed
    | fatalError => exact .shown rfl (by simp [Effect.calm]) rfl
    | _ =>
      simp only [hstate] at hproceed
      cases hproceed

/-- **An event that does not wake the panel paints on it**: behind the screensaver, it puts a page
up, or the fatal one, and asks for no wake. -/
theorem handleEvent_unwaking {io : AppIo} {app : App} {event : AppEvent}
    (hactive : app.state = .active true) (h : event.unwaking app.currentPageModal = true) :
    (app.handleEvent io event).1.isScreensaverActive = true ∧
      .wakeDisplay ∉ (app.handleEvent io event).2.2 ∧
      ((app.handleEvent io event).2.2.any Effect.raises = true ∨
        ∃ title message, event = .fatalError title message) := by
  have happ := isScreensaverActive_eq hactive
  unfold handleEvent
  cases event with
  | fatalError title message => exact ⟨happ, by simp, .inr ⟨title, message, rfl⟩⟩
  | keysDecrypted | watermarkUpdateSuccess | dialogDismissed | showMenu | requestShutdown =>
    simp only [hactive, handleActive, navigationPage, ite_self]
    exact ⟨happ, by simp, .inl rfl⟩
  | unknownKeyDismissed =>
    simp only [hactive, handleActive, navigationPage, ite_self]
    exact ⟨rfl, by simp, .inl rfl⟩
  | showImage | showStatus | showSignatures | showWatermarks | showBlockchain | showAbout
  | showGreeting =>
    have hmodal : app.currentPageModal = false := by
      simpa [AppEvent.unwaking, navigationPage] using h
    simp only [hactive, handleActive, hmodal, navigationPage]
    exact ⟨happ, by simp, .inl rfl⟩
  | _ => simp [AppEvent.unwaking, navigationPage] at h

end App

end Russignol
