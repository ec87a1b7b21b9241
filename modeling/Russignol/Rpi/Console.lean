import Russignol.Rpi.App
import Russignol.Signer.Device

/-!
# The console

The signing device after the unlock, as `rpi-signer/src/main.rs` runs it: the signer, the
application, the page on the panel, and the channel between them. The signer thread posts what its
callbacks fire; the touch, timer and signal threads post their own events; the event loop takes one
event at a time, hands it to the page or to the application, and carries out the effects it asks
for. The one effect that reaches back into the signer is the update of a watermark
(`applyWatermarkUpdate`).

Where the buttons of a page are drawn is the display's business (`PageLayout`). The effects of the
setup and of the unlock, which no handler asks for while the device signs, are left out.
-/

namespace Russignol

open Bytes

/-- The text of a watermark error. -/
def WatermarkError.text : WatermarkError → String
  | .levelTooLow current requested =>
    "Level too low: requested " ++ toString requested ++ ", current high watermark " ++
      toString current
  | .roundTooLow level current requested =>
    "Round too low at level " ++ toString level ++ ": requested " ++ toString requested ++
      ", current high watermark " ++ toString current
  | .invalidData text => "Invalid data: " ++ text
  | .io e => "IO error: " ++ e
  | .internal text => "Internal error: " ++ text
  | .notInitialized chainId pkh =>
    "Watermark not initialized for chain " ++ chainId ++ ", key " ++ pkh ++
      ". Configure watermarks before signing."
  | .largeLevelGap currentLevel requestedLevel gap cycles =>
    "Large level gap: " ++ toString gap ++ " blocks (~" ++ toString cycles ++
      " cycles). Current: " ++ toString currentLevel ++ ", requested: " ++ toString requestedLevel
  | .chainMismatch expected got =>
    "Chain mismatch: provisioned for " ++ expected ++ ", operation for " ++ got

/-- Which button of a page is at a point of the panel. -/
class PageLayout where
  buttonAt : PageSpec → Int → Int → Option Nat

section

variable [Base58]

/-- `build_signer_event_callbacks`: the event a callback posts. -/
def Callback.event : Callback → AppEvent
  | .watermarkError pkh chainId e => .watermarkError pkh.toB58check chainId e.text
  | .largeGap pkh chainId currentLevel requestedLevel =>
    .largeWatermarkGap pkh.toB58check chainId currentLevel requestedLevel
  | .missingWatermark pkh chainId requestedLevel =>
    .watermarkMissing pkh.toB58check chainId requestedLevel
  | .unknownKey pkh => .unknownKeyRequested pkh.toB58check
  | .signingNotify => .invalidate

end

/-- An event that a thread of its own posts: a touch, the inactivity timer, a refresh of the shown
page, a signal, or the end of the signer thread. -/
def AppEvent.External : AppEvent → Prop
  | .touch .. | .activateScreensaver | .invalidate | .shutdown | .fatalError .. => True
  | _ => False

instance : DecidablePred AppEvent.External
  | .touch .. | .activateScreensaver | .invalidate | .shutdown | .fatalError .. => isTrue trivial
  | .startSetup | .storageSetupComplete | .storageSetupFailed _ => isFalse not_false
  | .storageProgress .. | .watermarkConfigChecked _ | .firstPinEntered _ => isFalse not_false
  | .pinMismatch | .keyGenSuccess _ | .keyGenFailed _ | .enterPin => isFalse not_false
  | .invalidPinEntered | .pinVerified .. | .pinVerifyProgress .. => isFalse not_false
  | .acknowledgeMigrationNotice _ | .pinVerificationFailed | .deviceLocked => isFalse not_false
  | .keysDecrypted _ | .pinEntered _ | .deactivateScreensaver => isFalse not_false
  | .watermarkError .. | .watermarkUpdateSuccess | .largeWatermarkGap .. => isFalse not_false
  | .watermarkMissing .. | .unknownKeyRequested _ | .unknownKeyDismissed => isFalse not_false
  | .updateWatermarkToLevel .. | .dialogDismissed | .showMenu | .showStatus => isFalse not_false
  | .showSignatures | .showWatermarks | .showBlockchain | .showAbout => isFalse not_false
  | .showGreeting | .showImage _ | .requestShutdown => isFalse not_false

/-- The device while it signs. -/
structure Console where
  device : Device
  app : App
  /-- The page on the panel; `none` is the screensaver's. -/
  page : Option PageSpec
  /-- The events that wait. -/
  queue : List AppEvent

/-- What the device answers while one event is handled. -/
structure HandleIo where
  app : AppIo
  fault : Option LoadFault
  ios : OperationType → WriteIo

namespace Console

/-- What can happen to the console. -/
inductive Action
  | sign (seen : HighWatermark) (io : SignIo) (pkh : PublicKeyHash) (data : List UInt8)
  | fire (i : Nat) (io : WriteIo)
  | post (event : AppEvent)
  | handle (io : HandleIo)

variable [Blake3] [Base58]

/-- The dialog of an update that failed. -/
def showUpdateError (c : Console) (message : String) : Console :=
  { c with
    page := some (.dialog message .dialogDismissed)
    app := { c.app with currentPageModal := true } }

/-- `apply_watermark_update`. -/
def applyWatermarkUpdate (io : HandleIo) (pkh : String) (chainId : ChainId) (newLevel : UInt32)
    (c : Console) : Console :=
  match c.device.proc with
  | none => c.showUpdateError "Update failed:\nWatermark not ready"
  | some wm =>
    match PublicKeyHash.fromB58check pkh with
    | none => c.showUpdateError "Update failed:\nInvalid key hash"
    | some pkh =>
      match Store.updateToLevel io.fault io.ios chainId pkh newLevel ⟨wm, c.device.disk⟩ with
      | (.error e, s) =>
        { c with device := { c.device with proc := some s.wm, disk := s.disk } }.showUpdateError
          ("Update failed:\n" ++ e.text)
      | (.ok (), s) =>
        { c with
          device := { c.device with proc := some s.wm, disk := s.disk }
          queue := c.queue ++ [.watermarkUpdateSuccess] }

omit [Blake3] [Base58] in
/-- `apply_show_page`. -/
def showPage (c : Console) (spec : PageSpec) : Console :=
  match spec with
  | .deviceLocked => c
  | spec =>
    { c with
      page := some spec
      app := { c.app with currentPageSpec := some spec, currentPageModal := spec.isModal } }

/-- `apply_effects`, one effect; `none` where the process ends. -/
def applyEffect (io : HandleIo) (c : Console) : Effect → Option Console
  | .showPage spec => some (c.showPage spec)
  | .emit event => some { c with queue := c.queue ++ [event] }
  | .startSigner =>
    match c.app.pendingKeyManager with
    | none => none
    | some _ => some { c with app := { c.app with pendingKeyManager := none } }
  | .updateWatermark pkh chainId newLevel =>
    some (c.applyWatermarkUpdate io pkh chainId newLevel)
  | .dropCurrentPage => some { c with page := none }
  | .rebuildSavedPage =>
    match c.app.currentPageSpec with
    | none => some c
    | some spec =>
      some { c with page := some spec, app := { c.app with currentPageModal := spec.isModal } }
  | .fatalError .. | .exit _ => none
  | _ => some c

/-- `apply_effects`. -/
def applyEffects (io : HandleIo) : List Effect → Console → Option Console
  | [], c => some c
  | e :: es, c => (c.applyEffect io e).bind (applyEffects io es)

omit [Blake3] [Base58] in
/-- `handle_touch`: a touch wakes the screensaver, or presses the button under it. -/
def handleTouch [PageLayout] (x y : Int) (c : Console) : Console :=
  if c.app.isScreensaverActive then { c with queue := c.queue ++ [.deactivateScreensaver] }
  else
    { c with
      queue := c.queue ++ (c.page.bind fun spec =>
        (PageLayout.buttonAt spec x y).bind fun i => spec.buttons[i]?).toList }

/-- One turn of `drain_events`; `none` where no event waits, or the loop ends. -/
def handleNext [PageLayout] (io : HandleIo) (c : Console) : Option Console :=
  match c.queue with
  | [] => none
  | event :: queue =>
    let c := { c with queue }
    match event with
    | .touch x y => some (c.handleTouch x y)
    | .invalidate => some c
    | event =>
      let (app, action, effects) := c.app.handleEvent io.app event
      match action with
      | .continue => some { c with app }
      | .break => none
      | .proceed => applyEffects io effects { c with app }

/-- The console after the unlock, with the menu on the panel. -/
def start (card : Card) (io : LoadIo) (disk : Disk) : Console where
  device := Device.boot card io disk []
  app := { App.new false with state := .active false, currentPageSpec := some .menu }
  page := some .menu
  queue := []

/-- Take an action; `none` where it cannot be taken, or the process ends. -/
def step [PageLayout] (card : Card) (c : Console) : Action → Option Console
  | .sign seen io pkh data =>
    c.device.proc.bind fun wm =>
      let reply := card.handler.handleSign seen io pkh data ⟨wm, c.device.disk⟩
      (c.device.step card (.sign seen io pkh data)).map fun device =>
        { c with device, queue := c.queue ++ reply.callbacks.map Callback.event }
  | .fire i io => (c.device.step card (.fire i io)).map fun device => { c with device }
  | .post event => if event.External then some { c with queue := c.queue ++ [event] } else none
  | .handle io => c.handleNext io

/-! ## What an event does to the signer -/

/-- The update the operator confirmed that waits at the head of the channel, for a key that
reads. -/
def confirmed? (c : Console) : Option (PublicKeyHash × ChainId × UInt32) :=
  match c.queue with
  | .updateWatermarkToLevel text chainId level :: _ =>
    (PublicKeyHash.fromB58check text).map fun pkh => (pkh, chainId, level)
  | _ => none

/-- Updating a watermark is the signer's update, where the key reads. -/
theorem applyWatermarkUpdate_device (card : Card) (io : HandleIo) (text : String)
    (chainId : ChainId) (level : UInt32) (c : Console) :
    (c.applyWatermarkUpdate io text chainId level).device = c.device ∨
      ∃ pkh, PublicKeyHash.fromB58check text = some pkh ∧
        c.device.step card (.confirm io.fault io.ios chainId pkh level) =
          some (c.applyWatermarkUpdate io text chainId level).device := by
  rw [applyWatermarkUpdate]
  cases hproc : c.device.proc with
  | none => exact .inl rfl
  | some wm =>
    cases hpkh : PublicKeyHash.fromB58check text with
    | none => exact .inl rfl
    | some pkh =>
      refine .inr ⟨pkh, rfl, ?_⟩
      simp only [Device.step, hproc, Option.map_some]
      split
      · next heq => simp only [heq, showUpdateError]
      · next heq => simp only [heq]

/-- An effect that is no watermark update leaves the signer alone. -/
theorem applyEffect_device {io : HandleIo} {c c' : Console} {e : Effect}
    (he : ∀ pkh chainId level, e ≠ .updateWatermark pkh chainId level)
    (h : c.applyEffect io e = some c') : c'.device = c.device := by
  cases e with
  | updateWatermark pkh chainId level => exact absurd rfl (he pkh chainId level)
  | showPage spec =>
    cases h
    cases spec <;> rfl
  | startSigner =>
    simp only [applyEffect] at h
    split at h <;> cases h
    rfl
  | rebuildSavedPage =>
    simp only [applyEffect] at h
    split at h <;> cases h <;> rfl
  | fatalError | exit => cases h
  | _ =>
    cases h
    rfl

/-- So do any number of them. -/
theorem applyEffects_device {io : HandleIo} : ∀ {effects : List Effect} {c c' : Console},
    App.NoUpdate effects → applyEffects io effects c = some c' → c'.device = c.device
  | [], c, c', _, h => by
    cases h
    rfl
  | e :: es, c, c', hno, h => by
    obtain ⟨c₁, h₁, h₂⟩ := Option.bind_eq_some_iff.1 h
    have he : c₁.device = c.device := applyEffect_device
      (fun pkh chainId level heq => hno pkh chainId level (heq ▸ List.mem_cons_self)) h₁
    have hes : c'.device = c₁.device := applyEffects_device
      (fun pkh chainId level hmem => hno pkh chainId level (List.mem_cons_of_mem _ hmem)) h₂
    exact hes.trans he

/-- **Handling an event** leaves the signer alone, or is the signer's update of a watermark that
the operator confirmed. -/
theorem handle_device [PageLayout] {card : Card} {c c' : Console} {io : HandleIo}
    (h : c.step card (.handle io) = some c') :
    c'.device = c.device ∨ ∃ pkh chainId level, c.confirmed? = some (pkh, chainId, level) ∧
      c.device.step card (.confirm io.fault io.ios chainId pkh level) = some c'.device := by
  have h : c.handleNext io = some c' := h
  cases hqueue : c.queue with
  | nil =>
    simp only [handleNext, hqueue] at h
    cases h
  | cons event rest =>
    -- the events that reach the application
    have happ : ∀ c₁ : Console, c₁.device = c.device →
        (match (c.app.handleEvent io.app event).2.1 with
          | .continue => some { c₁ with app := (c.app.handleEvent io.app event).1 }
          | .break => none
          | .proceed => applyEffects io (c.app.handleEvent io.app event).2.2
              { c₁ with app := (c.app.handleEvent io.app event).1 }) = some c' →
        c'.device = c.device ∨ ∃ pkh chainId level, c.confirmed? = some (pkh, chainId, level) ∧
          c.device.step card (.confirm io.fault io.ios chainId pkh level) = some c'.device := by
      intro c₁ hc₁ h
      split at h
      · cases h
        exact .inl hc₁
      · cases h
      · by_cases hno : App.NoUpdate (c.app.handleEvent io.app event).2.2
        · exact .inl ((applyEffects_device hno h).trans hc₁)
        · simp only [App.NoUpdate, not_forall, not_not] at hno
          obtain ⟨text, chainId, level, hmem⟩ := hno
          obtain ⟨hevent, heffects⟩ := App.handleEvent_update hmem
          rw [heffects, applyEffects, Option.bind_eq_some_iff] at h
          obtain ⟨c₂, h₂, h₃⟩ := h
          cases h₃
          cases h₂
          rcases applyWatermarkUpdate_device card io text chainId level
              { c₁ with app := (c.app.handleEvent io.app event).1 } with hsame | ⟨pkh, hpkh, hstep⟩
          · exact .inl (hsame.trans hc₁)
          · refine .inr ⟨pkh, chainId, level, ?_, ?_⟩
            · rw [confirmed?, hqueue, hevent]
              simp only [hpkh, Option.map_some]
            · rw [← hc₁]
              exact hstep
    simp only [handleNext, hqueue] at h
    cases event with
    | touch x y =>
      cases h
      left
      simp only [handleTouch]
      split <;> rfl
    | invalidate =>
      cases h
      exact .inl rfl
    | _ => exact happ { c with queue := rest } rfl h

/-- The other actions are the signer's own, or leave it alone. -/
theorem step_device [PageLayout] {card : Card} {c c' : Console} {a : Action}
    (h : c.step card a = some c') :
    (match a with
      | .sign seen io pkh data => c.device.step card (.sign seen io pkh data) = some c'.device
      | .fire i io => c.device.step card (.fire i io) = some c'.device
      | .post _ => c'.device = c.device
      | .handle _ => True) := by
  cases a with
  | sign seen io pkh data =>
    obtain ⟨wm, -, h⟩ := Option.bind_eq_some_iff.1 h
    obtain ⟨device, hdevice, rfl⟩ := Option.map_eq_some_iff.1 h
    exact hdevice
  | fire i io =>
    obtain ⟨device, hdevice, rfl⟩ := Option.map_eq_some_iff.1 h
    exact hdevice
  | post event =>
    simp only [step] at h
    split at h <;> cases h
    rfl
  | handle io => trivial

end Console

end Russignol
