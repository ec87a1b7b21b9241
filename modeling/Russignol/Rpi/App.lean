import Russignol.Base.CharBoundary
import Russignol.Signer.Server
import Russignol.Rpi.TezosEncrypt

/-!
# The application

`App` of `rpi-signer/src/app.rs`: the life of the device from the first boot or the PIN to the
signing screens, as a state, the events it reads and the effects it asks for. `handleEvent` is pure
but for two questions to the device, the time and whether the card still needs its partitions
(`AppIo`); what carries the effects out is modelled apart.

Times are milliseconds. The render bookkeeping, which no handler reads, is left out, and so is the
page built for a page spec: a page is its spec.
-/

namespace Russignol

/-- The digits of a PIN. -/
abbrev Pin := List UInt8

/-- `BackTarget`. -/
inductive BackTarget
  | about
  | greeting
  deriving DecidableEq, Repr

/-- `ConfigPresence`. -/
inductive ConfigPresence
  | present
  | missing
  | invalid
  deriving DecidableEq, Repr

/-- `AppEvent`. -/
inductive AppEvent
  | startSetup
  | storageSetupComplete
  | storageSetupFailed (e : String)
  | storageProgress (message : String) (percent : UInt8)
  | watermarkConfigChecked (presence : ConfigPresence)
  | firstPinEntered (pin : Pin)
  | pinMismatch
  | keyGenSuccess (json : String)
  | keyGenFailed (e : String)
  | enterPin
  | invalidPinEntered
  | pinVerified (json : String) (migration : Option MigrationEvent)
  | pinVerifyProgress (message : String) (estimatedDuration : Nat)
  | acknowledgeMigrationNotice (json : String)
  | pinVerificationFailed
  | deviceLocked
  | keysDecrypted (json : String)
  | invalidate
  | touch (x y : Int)
  | pinEntered (pin : Pin)
  | activateScreensaver
  | deactivateScreensaver
  | shutdown
  | watermarkError (pkh : String) (chainId : ChainId) (errorMessage : String)
  | watermarkUpdateSuccess
  | largeWatermarkGap (pkh : String) (chainId : ChainId) (currentLevel requestedLevel : UInt32)
  | watermarkMissing (pkh : String) (chainId : ChainId) (requestedLevel : UInt32)
  | unknownKeyRequested (pkh : String)
  | unknownKeyDismissed
  | updateWatermarkToLevel (pkh : String) (chainId : ChainId) (newLevel : UInt32)
  | dialogDismissed
  | showMenu
  | showStatus
  | showSignatures
  | showWatermarks
  | showBlockchain
  | showAbout
  | showGreeting
  | showImage (back : BackTarget)
  | requestShutdown
  | fatalError (title message : String)
  deriving DecidableEq

/-- `PageSpec`. -/
inductive PageSpec
  | pinCreate
  | pinConfirm
  | pinVerify
  | menu
  | status
  | signatures
  | watermarks
  | blockchain
  | about
  | greeting
  | image (back : BackTarget)
  | dialog (message : String) (onDismiss : AppEvent)
  | confirmation (message : String) (onConfirm onCancel : AppEvent) (warning : Bool)
      (buttonText : String)
  | confirmationWithPairs (title : String) (pairs : List (String × String))
      (onConfirm onCancel : AppEvent) (warning : Bool) (buttonText : String)
  | error (title message : String)
  | notice (title message : String) (onDismiss : AppEvent)
  | deviceLocked
  deriving DecidableEq

namespace PageSpec

/-- `is_modal` of the page a spec builds. -/
def isModal : PageSpec → Bool
  | pinCreate | pinConfirm | pinVerify => true
  | dialog .. | confirmation .. | confirmationWithPairs .. | notice .. => true
  | menu | status | signatures | watermarks | blockchain | about | greeting => false
  | image _ | error .. | deviceLocked => false

/-- What the buttons of a page send, in the order of its `handle_touch`. The PIN page, which keeps
the digits touched so far, is left out. -/
def buttons : PageSpec → List AppEvent
  | menu => [.showStatus, .showSignatures, .showBlockchain, .showWatermarks, .showAbout,
      .requestShutdown]
  | status | signatures | watermarks | blockchain => [.showMenu]
  | about => [.showImage .about, .showMenu]
  | greeting => [.startSetup, .showImage .greeting]
  | image .about => [.showAbout]
  | image .greeting => [.showGreeting]
  | dialog _ onDismiss | notice _ _ onDismiss => [onDismiss]
  | confirmation _ onConfirm onCancel _ _ => [onConfirm, onCancel]
  | confirmationWithPairs _ _ onConfirm onCancel _ _ => [onConfirm, onCancel]
  | pinCreate | pinConfirm | pinVerify | error .. | deviceLocked => []

end PageSpec

/-- `Effect`. -/
inductive Effect
  | showPage (spec : PageSpec)
  | showProgress (message : String) (estimatedDuration : Option Nat) (modal : Bool)
      (percent : UInt8)
  | wakeDisplay
  | sleepDisplay
  | sleepDevice
  | clearDisplay
  | emit (event : AppEvent)
  | startSigner
  | initWatermark (context secretKeys : String)
  | spawnKeygen (pin : Pin)
  | spawnPinVerify (pin : Pin)
  | spawnStorageSetup
  | syncDisk
  | dropPrivileges
  | remountKeysReadonly
  | writeSetupMarker
  | setKeyPermissions
  | processWatermarkConfig
  | validateWatermarkConfig
  | verifyStorage
  | updateWatermark (pkh : String) (chainId : ChainId) (newLevel : UInt32)
  | resetActivity
  | dropCurrentPage
  | rebuildSavedPage
  | fatalError (title message : String)
  | exit (code : Int)
  | sleep (duration : Nat)
  deriving DecidableEq

/-- `LoopAction`. -/
inductive LoopAction
  | continue
  | break
  | proceed
  deriving DecidableEq, Repr

/-! ## Unknown keys -/

/-- `UnknownKeyAlert`. -/
structure UnknownKeyAlert where
  pkhs : List String
  overflow : Bool
  active : Bool
  deriving DecidableEq, Repr

/-- `AlertContent`. -/
structure AlertContent where
  pkh : String
  others : Nat
  overflow : Bool
  deriving DecidableEq, Repr

/-- The three dots between the parts. -/
def ellipsis : List Char := ['.', '.', '.']

/-- `truncate_middle`; `none` where a slice does not lie between characters. -/
def truncateMiddle (s : List Char) (pre suffix : Nat) : Option (List Char) :=
  if String.utf8Len s ≤ pre + suffix + 3 then some s
  else do
    let (head, _) ← CharBoundary.splitAtByte s pre
    let (_, tail) ← CharBoundary.splitAtByte s (String.utf8Len s - suffix)
    pure (head ++ ellipsis ++ tail)

/-- A key hash, shortened. Its characters take one byte each, so that it is cut between them. -/
def shortHash (pkh : String) (pre suffix : Nat) : String :=
  ((truncateMiddle pkh.toList pre suffix).map String.ofList).getD pkh

namespace UnknownKeyAlert

/-- `UNKNOWN_KEY_CAP`. -/
def cap : Nat := 8

/-- `UNKNOWN_KEY_TITLE`. -/
def title : String := "Unknown Key"

/-- `UNKNOWN_KEY_GUIDANCE`. -/
def guidance : String :=
  "This device lacks this key. Fix the baker's signer config and restart it."

/-- `UnknownKeyAlert::default`. -/
def default : UnknownKeyAlert := ⟨[], false, false⟩

/-- `UnknownKeyAlert::record`. -/
def record (a : UnknownKeyAlert) (pkh : String) : Bool × UnknownKeyAlert :=
  if pkh ∈ a.pkhs then (false, a)
  else if a.pkhs.length < cap then (true, { a with pkhs := a.pkhs ++ [pkh], active := true })
  else if a.overflow then (false, a)
  else (true, { a with overflow := true, active := true })

/-- `UnknownKeyAlert::dismiss`. -/
def dismiss (a : UnknownKeyAlert) : UnknownKeyAlert := { a with active := false }

/-- `UnknownKeyAlert::active`. -/
def content (a : UnknownKeyAlert) : Option AlertContent :=
  if a.active then
    a.pkhs.getLast?.map fun pkh => ⟨pkh, a.pkhs.length - 1, a.overflow⟩
  else none

/-- `unknown_key_message`. -/
def message (content : AlertContent) : String :=
  let suffix := match content.others, content.overflow with
    | 0, false => ""
    | n, false => " +" ++ toString n
    | n, true => " +" ++ toString n ++ "+"
  shortHash content.pkh 8 6 ++ suffix ++ "\n" ++ guidance

end UnknownKeyAlert

/-! ## The state -/

/-- `AppState`. -/
inductive AppState
  | setup (firstPin : Option Pin)
  | pinEntry (failedAttempts : UInt32) (lockoutUntil : Option Nat)
  | active (screensaverActive : Bool)
  | locked
  deriving DecidableEq

/-- `App`, less the channels and the render bookkeeping. -/
structure App where
  state : AppState
  currentPageModal : Bool
  currentPageSpec : Option PageSpec
  pendingWatermarkLevel : Option UInt32
  pendingKeyManager : Option KeyManager
  unknownKeys : UnknownKeyAlert

/-- What a handler asks of the device. -/
structure AppIo where
  now : Nat
  needsStorageSetup : Bool

/-- `GatePolicy`. -/
inductive GatePolicy
  | hardFail
  | warnAndContinue
  deriving DecidableEq, Repr

/-- `KEYGEN_GATE_POLICY`, without the `warn-only-gate` feature. -/
def keygenGatePolicy : GatePolicy := .hardFail

/-- `should_proceed_to_keygen`. -/
def shouldProceedToKeygen (presence : ConfigPresence) : GatePolicy → Bool
  | .warnAndContinue => true
  | .hardFail => presence = .present

/-- `MAX_FAILED_ATTEMPTS`. -/
def maxFailedAttempts : UInt32 := 5

/-- `LOCKOUT_DURATION`. -/
def lockoutDuration : Nat := 300000

/-- `EXIT_CODE_REBOOT`. -/
def exitCodeReboot : Int := 42

/-- `MIGRATION_REBOOT_COUNTDOWN`. -/
def migrationRebootCountdown : Nat := 5000

/-- `CONFIG_GATE_TITLE`. -/
def configGateTitle : String := "Card Not Ready"

/-- `CONFIG_GATE_MESSAGE`. -/
def configGateMessage : String :=
  "No watermark config is staged on this card. Prepare it on the host with: russignol check disk"

/-- `push_reboot_progress`. -/
def pushRebootProgress (message : String) : List Effect :=
  [.showProgress message (some migrationRebootCountdown) true 0, .sleep migrationRebootCountdown,
    .exit exitCodeReboot]

/-- `push_migration_notice`. -/
def pushMigrationNotice (title message json : String) : List Effect :=
  [.showPage (.notice title message (.acknowledgeMigrationNotice json))]

namespace App

/-- `App::new`. -/
def new (isFirstBoot : Bool) : App where
  state := if isFirstBoot then .setup none else .pinEntry 0 none
  currentPageModal := false
  currentPageSpec := none
  pendingWatermarkLevel := none
  pendingKeyManager := none
  unknownKeys := UnknownKeyAlert.default

/-- `is_screensaver_active`. -/
def isScreensaverActive (app : App) : Bool := app.state = .active true

/-- `set_screensaver`. -/
def setScreensaver (app : App) (active : Bool) : App :=
  match app.state with
  | .active _ => { app with state := .active active }
  | _ => app

/-- `wake_without_rebuild_effects`. -/
def wakeWithoutRebuild (app : App) : App × List Effect :=
  if app.isScreensaverActive then (app.setScreensaver false, [.wakeDisplay, .resetActivity])
  else (app, [])

/-- `wake_from_screensaver_effects`. -/
def wakeFromScreensaver (app : App) : App × List Effect :=
  if app.isScreensaverActive then
    (app.setScreensaver false, [.wakeDisplay, .rebuildSavedPage, .resetActivity])
  else (app, [])

/-- `navigation_page`. -/
def navigationPage : AppEvent → Option PageSpec
  | .showStatus => some .status
  | .showSignatures => some .signatures
  | .showWatermarks => some .watermarks
  | .showBlockchain => some .blockchain
  | .showAbout => some .about
  | .showGreeting => some .greeting
  | .showImage back => some (.image back)
  | _ => none

/-! ## First boot -/

/-- `finalize_first_boot`. -/
def finalizeFirstBoot (app : App) (json : String) : App × List Effect :=
  ({ app with state := .active false },
    [.processWatermarkConfig, .writeSetupMarker, .setKeyPermissions, .syncDisk,
      .remountKeysReadonly, .dropPrivileges, .initWatermark "first boot setup" json,
      .emit (.keysDecrypted json)])

/-- `handle_setup_pin_confirm`. -/
def handleSetupPinConfirm (app : App) (pin : Pin) : App × List Effect :=
  match app.state with
  | .setup (some saved) =>
    if saved = pin then
      ({ app with state := .setup none },
        [.showProgress "Generating keys..." (some 8000) true 0, .spawnKeygen pin])
    else (app, [.emit .pinMismatch])
  | _ => (app, [])

/-- Remember the first PIN, while in setup. -/
def setFirstPin (app : App) (pin : Option Pin) : App :=
  match app.state with
  | .setup _ => { app with state := .setup pin }
  | _ => app

/-- `handle_setup`. -/
def handleSetup (io : AppIo) (app : App) (event : AppEvent) : App × List Effect :=
  match event with
  | .showImage back => (app, [.showPage (.image back)])
  | .showGreeting => (app, [.showPage .greeting])
  | .startSetup =>
    if io.needsStorageSetup then
      (app, [.showProgress "Preparing storage..." none false 0, .spawnStorageSetup])
    else (app, [.emit .storageSetupComplete])
  | .storageProgress message percent => (app, [.showProgress message none false percent])
  | .storageSetupComplete => (app, [.verifyStorage, .validateWatermarkConfig])
  | .watermarkConfigChecked presence =>
    if shouldProceedToKeygen presence keygenGatePolicy then (app, [.showPage .pinCreate])
    else (app, [.fatalError configGateTitle configGateMessage])
  | .storageSetupFailed e => (app, [.fatalError "STORAGE FAILED" e])
  | .firstPinEntered pin => (app.setFirstPin (some pin), [.showPage .pinConfirm])
  | .pinMismatch =>
    (app.setFirstPin none,
      [.showPage (.error "PIN MISMATCH" "PINs don't match. Please try again."), .sleep 2000,
        .showPage .pinCreate])
  | .pinEntered pin => app.handleSetupPinConfirm pin
  | .keyGenSuccess json => app.finalizeFirstBoot json
  | .keyGenFailed e => (app, [.fatalError "KEY GEN FAILED" e])
  | _ => (app, [])

/-! ## The PIN -/

/-- The hand-over of the privileges that setup and migration run under. -/
def demoteEffects : List Effect :=
  [.setKeyPermissions, .syncDisk, .remountKeysReadonly, .dropPrivileges]

/-- `proceed_to_active`. -/
def proceedToActive (app : App) (json : String) (demote : Bool) : App × List Effect :=
  ({ app with state := .active false },
    (if demote then demoteEffects else []) ++
      [.initWatermark "PIN entry" json, .emit (.keysDecrypted json)])

/-- `dispatch_pin_verified`. -/
def dispatchPinVerified (app : App) (json : String) : Option MigrationEvent → App × List Effect
  | none => app.proceedToActive json false
  | some .stagedV2 => (app, demoteEffects ++ pushRebootProgress "Upgrade staged, rebooting...")
  | some .promotedV2 => app.proceedToActive json true
  | some (.revertedFromCorruptV2 reason) =>
    (app, pushMigrationNotice "PIN UPGRADE FAILED" ("Reverted to legacy format.\n" ++ reason) json)
  | some (.stagingFailed reason) =>
    (app, pushMigrationNotice "PIN UPGRADE FAILED" ("Could not stage v2 blob.\n" ++ reason) json)
  | some (.migrationDisabled attempts) =>
    (app, pushMigrationNotice "MIGRATION DISABLED"
      (toString attempts ++ " attempts; re-image device.\nUnlocking on legacy format.") json)

/-- `handle_pin_entry`. -/
def handlePinEntry (io : AppIo) (app : App) (event : AppEvent) : App × List Effect :=
  match event with
  | .pinEntered pin =>
    let verify : List Effect :=
      [.showProgress "Verifying PIN..." (some 8000) true 0, .spawnPinVerify pin]
    match app.state with
    | .pinEntry _ (some lockoutTime) =>
      if io.now < lockoutTime then (app, [.emit .deviceLocked])
      else ({ app with state := .pinEntry 0 none }, verify)
    | _ => (app, verify)
  | .pinVerified json migration => app.dispatchPinVerified json migration
  | .pinVerifyProgress message estimatedDuration =>
    (app, [.showProgress message (some estimatedDuration) true 0])
  | .acknowledgeMigrationNotice json => app.proceedToActive json true
  | .pinVerificationFailed => (app, [.emit .invalidPinEntered])
  | .invalidPinEntered =>
    match app.state with
    | .pinEntry failedAttempts lockoutUntil =>
      let failedAttempts := failedAttempts + 1
      if failedAttempts ≥ maxFailedAttempts then
        ({ app with state := .pinEntry failedAttempts (some (io.now + lockoutDuration)) },
          [.emit .deviceLocked])
      else
        let message := match maxFailedAttempts - failedAttempts with
          | 1 => "Invalid PIN\n1 attempt left"
          | 2 => "Invalid PIN\n2 attempts left"
          | _ => "Invalid PIN"
        ({ app with state := .pinEntry failedAttempts lockoutUntil },
          [.showPage (.dialog message .enterPin)])
    | _ => (app, [])
  | .enterPin => (app, [.showPage .pinVerify])
  | .deviceLocked => ({ app with state := .locked }, [.showPage .deviceLocked, .exit 1])
  | _ => (app, [])

/-! ## Signing -/

/-- `unknown_key_requested_effects`. -/
def unknownKeyRequested (app : App) (pkh : String) : App × List Effect :=
  if app.currentPageModal then (app, [])
  else
    match app.unknownKeys.record pkh with
    | (false, _) => (app, [])
    | (true, unknownKeys) =>
      let message := (unknownKeys.content.map UnknownKeyAlert.message).getD ""
      let (app, effects) := { app with unknownKeys }.wakeWithoutRebuild
      (app, effects ++ [.showPage (.notice UnknownKeyAlert.title message .unknownKeyDismissed)])

/-- `large_watermark_gap_effects`. -/
def largeWatermarkGap (app : App) (pkh : String) (chainId : ChainId)
    (currentLevel requestedLevel : UInt32) : App × List Effect :=
  let (app, effects) := app.wakeFromScreensaver
  -- `saturating_sub`
  let gap := if currentLevel ≤ requestedLevel then requestedLevel - currentLevel else 0
  (app, effects ++ [.showPage (.confirmationWithPairs "Stale watermark."
    [("Current:", toString currentLevel), ("Requested:", toString requestedLevel),
      ("Gap:", toString gap ++ " blocks")]
    (.updateWatermarkToLevel pkh chainId requestedLevel) .dialogDismissed true
    ("Update to " ++ toString requestedLevel))])

/-- `watermark_missing_effects`. -/
def watermarkMissing (app : App) (pkh : String) (chainId : ChainId) (requestedLevel : UInt32) :
    App × List Effect :=
  let (app, effects) := app.wakeFromScreensaver
  (app, effects ++ [.showPage (.confirmation
    ("No watermark: " ++ shortHash pkh 6 0 ++
      "\nOr run russignol check disk then reboot on host.")
    (.updateWatermarkToLevel pkh chainId requestedLevel) .dialogDismissed true
    ("Set level to " ++ toString requestedLevel))])

/-- `handle_active`. -/
def handleActive (app : App) (event : AppEvent) : App × LoopAction × List Effect :=
  let nav := if app.currentPageModal then none else navigationPage event
  match nav with
  | some spec => (app, .proceed, [.showPage spec])
  | none =>
    match event with
    | .keysDecrypted _ => (app, .proceed, [.startSigner, .showPage .menu, .resetActivity])
    | .activateScreensaver =>
      if app.currentPageModal || app.isScreensaverActive then (app, .continue, [])
      else (app.setScreensaver true, .proceed, [.dropCurrentPage, .sleepDisplay])
    | .deactivateScreensaver =>
      if app.isScreensaverActive then
        let (app, effects) := app.wakeFromScreensaver
        (app, .proceed, effects)
      else (app, .proceed, [])
    | .largeWatermarkGap pkh chainId currentLevel requestedLevel =>
      if app.currentPageModal then (app, .proceed, [])
      else
        let (app, effects) := app.largeWatermarkGap pkh chainId currentLevel requestedLevel
        (app, .proceed, effects)
    | .watermarkMissing pkh chainId requestedLevel =>
      if app.currentPageModal then (app, .proceed, [])
      else
        let (app, effects) := app.watermarkMissing pkh chainId requestedLevel
        (app, .proceed, effects)
    | .unknownKeyRequested pkh =>
      let (app, effects) := app.unknownKeyRequested pkh
      (app, .proceed, effects)
    | .unknownKeyDismissed =>
      ({ app with unknownKeys := app.unknownKeys.dismiss }, .proceed, [.showPage .menu])
    | .updateWatermarkToLevel pkh chainId newLevel =>
      (app, .proceed, [.updateWatermark pkh chainId newLevel])
    | .watermarkUpdateSuccess | .dialogDismissed | .showMenu =>
      (app, .proceed, [.showPage .menu])
    | .requestShutdown =>
      (app, .proceed,
        [.showPage (.confirmation "Shutdown the device?" .shutdown .showMenu false "Shutdown")])
    | _ => (app, .proceed, [])

/-- `handle_shutdown`. -/
def handleShutdown (app : App) : LoopAction × List Effect :=
  (.break, [.syncDisk] ++ (if app.isScreensaverActive then [.wakeDisplay] else []) ++
    [.clearDisplay, .sleepDevice])

/-- `handle_event`. -/
def handleEvent (io : AppIo) (app : App) (event : AppEvent) : App × LoopAction × List Effect :=
  match event with
  | .shutdown => (app, app.handleShutdown)
  | .fatalError title message => (app, .proceed, [.fatalError title message])
  | event =>
    match app.state with
    | .setup _ =>
      let (app, effects) := app.handleSetup io event
      (app, .proceed, effects)
    | .pinEntry .. =>
      let (app, effects) := app.handlePinEntry io event
      (app, .proceed, effects)
    | .active _ => app.handleActive event
    | .locked => (app, .continue, [])

/-! ## Which effects an event has -/

/-- No effect of the list updates a watermark. -/
def NoUpdate (effects : List Effect) : Prop :=
  ∀ pkh chainId level, .updateWatermark pkh chainId level ∉ effects

/-- An effect that shows no page, sends no event, starts no work on a PIN and updates no watermark. -/
def isQuiet : Effect → Bool
  | .showPage _ | .emit _ | .spawnKeygen _ | .spawnPinVerify _ | .updateWatermark .. => false
  | _ => true

/-- The effects a device that signs asks for. -/
def signing : Effect → Bool
  | .showPage _ | .wakeDisplay | .sleepDisplay | .dropCurrentPage | .rebuildSavedPage => true
  | .resetActivity | .startSigner | .updateWatermark .. => true
  | _ => false

/-- What setup asks for on an event. -/
inductive SetupEffect (app : App) (event : AppEvent) : Effect → Prop
  | quiet {e : Effect} : isQuiet e = true → SetupEffect app event e
  | navigation {spec : PageSpec} : navigationPage event = some spec →
    SetupEffect app event (.showPage spec)
  | firstPin : event = .watermarkConfigChecked .present ∨ event = .pinMismatch →
    SetupEffect app event (.showPage .pinCreate)
  | secondPin : SetupEffect app event (.showPage .pinConfirm)
  | mismatchShown (title message : String) :
    SetupEffect app event (.showPage (.error title message))
  | prepared : SetupEffect app event (.emit .storageSetupComplete)
  | mismatch {saved : Pin} : app.state = .setup (some saved) →
    SetupEffect app event (.emit .pinMismatch)
  | keygen {pin : Pin} : event = .pinEntered pin → app.state = .setup (some pin) →
    SetupEffect app event (.spawnKeygen pin)
  | finalised (json : String) : SetupEffect app event (.emit (.keysDecrypted json))

/-- What the PIN entry asks for on an event. -/
inductive PinEntryEffect (io : AppIo) (app : App) (event : AppEvent) : Effect → Prop
  | quiet {e : Effect} : isQuiet e = true → PinEntryEffect io app event e
  | verify {pin : Pin} : event = .pinEntered pin →
    (∀ failed t, app.state = .pinEntry failed (some t) → t ≤ io.now) →
    PinEntryEffect io app event (.spawnPinVerify pin)
  | notice {json : String} {migration : Option MigrationEvent} (title message : String) :
    event = .pinVerified json migration →
    PinEntryEffect io app event (.showPage (.notice title message
      (.acknowledgeMigrationNotice json)))
  | proceed (json : String) : PinEntryEffect io app event (.emit (.keysDecrypted json))
  | failed : PinEntryEffect io app event (.emit .invalidPinEntered)
  | lockout : PinEntryEffect io app event (.emit .deviceLocked)
  | invalid (message : String) : PinEntryEffect io app event (.showPage (.dialog message .enterPin))
  | again : PinEntryEffect io app event (.showPage .pinVerify)
  | locked : PinEntryEffect io app event (.showPage .deviceLocked)

/-- What a device that signs asks for on an event. -/
inductive ActiveEffect (event : AppEvent) : Effect → Prop
  | quiet {e : Effect} : isQuiet e = true → signing e = true → ActiveEffect event e
  | navigation {spec : PageSpec} : navigationPage event = some spec →
    ActiveEffect event (.showPage spec)
  | menu : ActiveEffect event (.showPage .menu)
  | shutdown : ActiveEffect event (.showPage (.confirmation "Shutdown the device?" .shutdown
      .showMenu false "Shutdown"))
  | largeGap {pkh : String} {chainId : ChainId} {level : UInt32} (title : String)
    (pairs : List (String × String)) (label : String) :
    ActiveEffect event (.showPage (.confirmationWithPairs title pairs
      (.updateWatermarkToLevel pkh chainId level) .dialogDismissed true label))
  | missing {pkh : String} {chainId : ChainId} {level : UInt32} (title label : String) :
    ActiveEffect event (.showPage (.confirmation title
      (.updateWatermarkToLevel pkh chainId level) .dialogDismissed true label))
  | unknownKey (title message : String) :
    ActiveEffect event (.showPage (.notice title message .unknownKeyDismissed))
  | update {pkh : String} {chainId : ChainId} {level : UInt32} :
    event = .updateWatermarkToLevel pkh chainId level →
    ActiveEffect event (.updateWatermark pkh chainId level)

/-- **The effects of setup.** -/
theorem handleSetup_effect {io : AppIo} {app : App} {event : AppEvent} {e : Effect}
    (h : e ∈ (app.handleSetup io event).2) : SetupEffect app event e := by
  cases event with
  | pinEntered pin =>
    simp only [handleSetup, handleSetupPinConfirm] at h
    split at h
    · rename_i saved hstate
      split at h
      · rename_i heq
        simp only [List.mem_cons, List.not_mem_nil, or_false] at h
        rcases h with rfl | rfl
        · exact .quiet rfl
        · exact .keygen rfl (heq ▸ hstate)
      · rw [List.mem_singleton.1 h]
        exact .mismatch hstate
    · cases h
  | startSetup =>
    simp only [handleSetup] at h
    split at h
    · simp only [List.mem_cons, List.not_mem_nil, or_false] at h
      rcases h with rfl | rfl <;> exact .quiet rfl
    · rw [List.mem_singleton.1 h]
      exact .prepared
  | watermarkConfigChecked presence =>
    simp only [handleSetup] at h
    split at h
    · rename_i hproceed
      have hpresent : presence = .present := by
        simpa [shouldProceedToKeygen, keygenGatePolicy] using hproceed
      rw [List.mem_singleton.1 h]
      exact .firstPin (.inl (hpresent ▸ rfl))
    · rw [List.mem_singleton.1 h]
      exact .quiet rfl
  | pinMismatch =>
    simp only [handleSetup, List.mem_cons, List.not_mem_nil, or_false] at h
    rcases h with rfl | rfl | rfl
    · exact .mismatchShown _ _
    · exact .quiet rfl
    · exact .firstPin (.inr rfl)
  | showImage | showGreeting =>
    rw [List.mem_singleton.1 h]
    exact .navigation rfl
  | firstPinEntered pin =>
    rw [List.mem_singleton.1 h]
    exact .secondPin
  | keyGenSuccess json =>
    simp only [handleSetup, finalizeFirstBoot, List.mem_cons, List.not_mem_nil, or_false] at h
    rcases h with rfl | rfl | rfl | rfl | rfl | rfl | rfl | rfl
    case keyGenSuccess.inr.inr.inr.inr.inr.inr.inr => exact .finalised json
    all_goals exact .quiet rfl
  | storageProgress | storageSetupComplete | storageSetupFailed | keyGenFailed =>
    simp only [handleSetup, List.mem_cons, List.not_mem_nil, or_false] at h
    rcases h with rfl | rfl <;> exact .quiet rfl
  | _ => simp [handleSetup] at h

/-- Handing the privileges back is quiet. -/
theorem isQuiet_of_demoteEffects {e : Effect} (h : e ∈ demoteEffects) : isQuiet e = true := by
  simp only [demoteEffects, List.mem_cons, List.not_mem_nil, or_false] at h
  rcases h with rfl | rfl | rfl | rfl <;> rfl

/-- Going on to sign sends the keys, and is quiet otherwise. -/
theorem proceedToActive_effect {io : AppIo} {app : App} {event : AppEvent} {json : String}
    {demote : Bool} {e : Effect} (h : e ∈ (app.proceedToActive json demote).2) :
    PinEntryEffect io app event e := by
  simp only [proceedToActive, List.mem_append, List.mem_cons, List.not_mem_nil, or_false] at h
  rcases h with h | rfl | rfl
  · split at h
    · exact .quiet (isQuiet_of_demoteEffects h)
    · cases h
  · exact .quiet rfl
  · exact .proceed json

/-- **The effects of the PIN entry.** -/
theorem handlePinEntry_effect {io : AppIo} {app : App} {event : AppEvent} {e : Effect}
    (h : e ∈ (app.handlePinEntry io event).2) : PinEntryEffect io app event e := by
  cases event with
  | pinEntered pin =>
    have hverify : (∀ failed t, app.state = .pinEntry failed (some t) → t ≤ io.now) →
        e ∈ [.showProgress "Verifying PIN..." (some 8000) true 0, .spawnPinVerify pin] →
        PinEntryEffect io app (.pinEntered pin) e := by
      intro htime hmem
      simp only [List.mem_cons, List.not_mem_nil, or_false] at hmem
      rcases hmem with rfl | rfl
      · exact .quiet rfl
      · exact .verify rfl htime
    simp only [handlePinEntry] at h
    split at h
    · rename_i failed t hstate
      split at h
      · rw [List.mem_singleton.1 h]
        exact .lockout
      · rename_i hnow
        refine hverify (fun failed' t' hstate' => ?_) h
        rw [hstate] at hstate'
        cases hstate'
        exact Nat.not_lt.1 hnow
    · rename_i hstate
      exact hverify (fun failed t hst => absurd hst (hstate failed t)) h
  | pinVerified json migration =>
    have hnotice : ∀ title message, e ∈ pushMigrationNotice title message json →
        PinEntryEffect io app (.pinVerified json migration) e := by
      intro title message hmem
      rw [List.mem_singleton.1 hmem]
      exact .notice title message rfl
    cases migration with
    | none => exact proceedToActive_effect h
    | some m =>
      cases m with
      | stagedV2 =>
        rcases List.mem_append.1 h with hdemote | hreboot
        · exact .quiet (isQuiet_of_demoteEffects hdemote)
        · simp only [pushRebootProgress, List.mem_cons, List.not_mem_nil, or_false] at hreboot
          rcases hreboot with rfl | rfl | rfl <;> exact .quiet rfl
      | promotedV2 => exact proceedToActive_effect h
      | _ => exact hnotice _ _ h
  | acknowledgeMigrationNotice json => exact proceedToActive_effect h
  | invalidPinEntered =>
    simp only [handlePinEntry] at h
    split at h
    · split at h
      · rw [List.mem_singleton.1 h]
        exact .lockout
      · rw [List.mem_singleton.1 h]
        exact .invalid _
    · cases h
  | pinVerifyProgress =>
    rw [List.mem_singleton.1 h]
    exact .quiet rfl
  | pinVerificationFailed =>
    rw [List.mem_singleton.1 h]
    exact .failed
  | enterPin =>
    rw [List.mem_singleton.1 h]
    exact .again
  | deviceLocked =>
    simp only [handlePinEntry, List.mem_cons, List.not_mem_nil, or_false] at h
    rcases h with rfl | rfl
    · exact .locked
    · exact .quiet rfl
  | _ => simp [handlePinEntry] at h

/-- Waking the screensaver is quiet. -/
theorem wakeFromScreensaver_effect {app : App} {event : AppEvent} {e : Effect}
    (h : e ∈ app.wakeFromScreensaver.2) : ActiveEffect event e := by
  unfold wakeFromScreensaver at h
  split at h
  · simp only [List.mem_cons, List.not_mem_nil, or_false] at h
    rcases h with rfl | rfl | rfl <;> exact .quiet rfl rfl
  · cases h

/-- **The effects of a device that signs.** -/
theorem handleActive_effect {app : App} {event : AppEvent} {e : Effect}
    (h : e ∈ (app.handleActive event).2.2) : ActiveEffect event e := by
  unfold handleActive at h
  cases hnav : (if app.currentPageModal then none else navigationPage event) with
  | some spec =>
    simp only [hnav, List.mem_singleton] at h
    subst h
    split at hnav
    · cases hnav
    · exact .navigation hnav
  | none =>
    simp only [hnav] at h
    cases event with
    | keysDecrypted =>
      simp only [List.mem_cons, List.not_mem_nil, or_false] at h
      rcases h with rfl | rfl | rfl
      · exact .quiet rfl rfl
      · exact .menu
      · exact .quiet rfl rfl
    | activateScreensaver =>
      dsimp only at h
      split at h
      · cases h
      · simp only [List.mem_cons, List.not_mem_nil, or_false] at h
        rcases h with rfl | rfl <;> exact .quiet rfl rfl
    | deactivateScreensaver =>
      dsimp only at h
      split at h
      · exact wakeFromScreensaver_effect h
      · cases h
    | largeWatermarkGap =>
      dsimp only at h
      split at h
      · cases h
      · rcases List.mem_append.1 h with hwake | hpage
        · exact wakeFromScreensaver_effect hwake
        · rw [List.mem_singleton.1 hpage]
          exact .largeGap _ _ _
    | watermarkMissing =>
      dsimp only at h
      split at h
      · cases h
      · rcases List.mem_append.1 h with hwake | hpage
        · exact wakeFromScreensaver_effect hwake
        · rw [List.mem_singleton.1 hpage]
          exact .missing _ _
    | unknownKeyRequested =>
      simp only [unknownKeyRequested, wakeWithoutRebuild] at h
      split at h
      · cases h
      · split at h
        · cases h
        · rcases List.mem_append.1 h with hwake | hpage
          · split at hwake
            · simp only [List.mem_cons, List.not_mem_nil, or_false] at hwake
              rcases hwake with rfl | rfl <;> exact .quiet rfl rfl
            · cases hwake
          · rw [List.mem_singleton.1 hpage]
            exact .unknownKey _ _
    | unknownKeyDismissed | watermarkUpdateSuccess | dialogDismissed | showMenu =>
      rw [List.mem_singleton.1 h]
      exact .menu
    | updateWatermarkToLevel =>
      rw [List.mem_singleton.1 h]
      exact .update rfl
    | requestShutdown =>
      rw [List.mem_singleton.1 h]
      exact .shutdown
    | _ => simp at h

/-- What the application asks for on an event, in each of its states. -/
inductive EventEffect (io : AppIo) (app : App) (event : AppEvent) (e : Effect) : Prop
  | quiet : isQuiet e = true → EventEffect io app event e
  | setup {firstPin : Option Pin} : app.state = .setup firstPin → SetupEffect app event e →
    EventEffect io app event e
  | pinEntry {failed : UInt32} {lockoutUntil : Option Nat} :
    app.state = .pinEntry failed lockoutUntil → PinEntryEffect io app event e →
    EventEffect io app event e
  | active {b : Bool} : app.state = .active b → ActiveEffect event e → EventEffect io app event e

/-- **The effects of an event.** -/
theorem handleEvent_effect {io : AppIo} {app : App} {event : AppEvent} {e : Effect}
    (h : e ∈ (app.handleEvent io event).2.2) : EventEffect io app event e := by
  unfold handleEvent at h
  cases event with
  | shutdown =>
    simp only [handleShutdown, List.mem_append, List.mem_cons, List.not_mem_nil, or_false] at h
    rcases h with (rfl | h) | rfl | rfl
    · exact .quiet rfl
    · split at h
      · rw [List.mem_singleton.1 h]
        exact .quiet rfl
      · cases h
    · exact .quiet rfl
    · exact .quiet rfl
  | fatalError title message =>
    rw [List.mem_singleton.1 h]
    exact .quiet rfl
  | _ =>
    simp only at h
    split at h
    · rename_i hstate
      exact .setup hstate (@handleSetup_effect io _ _ _ h)
    · rename_i hstate
      exact .pinEntry hstate (handlePinEntry_effect h)
    · rename_i hstate
      exact .active hstate (handleActive_effect h)
    · cases h

/-- The device that signs asks for no other effects: it starts no thread and touches no key. -/
theorem handleActive_signing {app : App} {event : AppEvent} {e : Effect}
    (h : e ∈ (app.handleActive event).2.2) : signing e = true := by
  cases handleActive_effect h with
  | quiet _ hsigning => exact hsigning
  | _ => rfl

/-- **Only a confirmed update, while the device signs, asks for a watermark update**, and for that
alone. -/
theorem handleEvent_update {io : AppIo} {app : App} {event : AppEvent} {pkh : String}
    {chainId : ChainId} {level : UInt32}
    (h : .updateWatermark pkh chainId level ∈ (app.handleEvent io event).2.2) :
    event = .updateWatermarkToLevel pkh chainId level ∧
      (app.handleEvent io event).2.2 = [.updateWatermark pkh chainId level] := by
  cases handleEvent_effect h with
  | quiet hquiet => cases hquiet
  | setup _ heffect =>
    cases heffect with
    | quiet hquiet => cases hquiet
  | pinEntry _ heffect =>
    cases heffect with
    | quiet hquiet => cases hquiet
  | active hstate heffect =>
    cases heffect with
    | quiet hquiet => cases hquiet
    | update hevent =>
      subst hevent
      refine ⟨rfl, ?_⟩
      simp only [handleEvent, hstate, handleActive, navigationPage, ite_self]

/-! ## Where an event leads -/

/-- Where an event leads from setup. -/
theorem handleSetup_state {io : AppIo} {app : App} {event : AppEvent} {firstPin : Option Pin}
    (h : app.state = .setup firstPin) :
    (app.handleSetup io event).1.state = match event with
      | .firstPinEntered pin => .setup (some pin)
      | .pinMismatch => .setup none
      | .pinEntered pin => if firstPin = some pin then .setup none else .setup firstPin
      | .keyGenSuccess _ => .active false
      | _ => .setup firstPin := by
  cases event with
  | pinEntered pin =>
    simp only [handleSetup, handleSetupPinConfirm, h]
    cases firstPin with
    | none => simp [h]
    | some saved =>
      simp only [Option.some.injEq]
      split
      · rfl
      · exact h
  | firstPinEntered pin => simp only [handleSetup, setFirstPin, h]
  | pinMismatch => simp only [handleSetup, setFirstPin, h]
  | startSetup =>
    simp only [handleSetup]
    split <;> exact h
  | watermarkConfigChecked presence =>
    simp only [handleSetup]
    split <;> exact h
  | _ => simp only [handleSetup, finalizeFirstBoot, h]

/-- The state of a device that signs, waking or not. -/
theorem setScreensaver_state {app : App} {b : Bool} (h : app.state = .active b) (active : Bool) :
    (app.setScreensaver active).state = .active active := by
  simp only [setScreensaver, h]

theorem wakeFromScreensaver_state {app : App} {b : Bool} (h : app.state = .active b) :
    ∃ b', app.wakeFromScreensaver.1.state = .active b' := by
  unfold wakeFromScreensaver
  split
  · exact ⟨false, setScreensaver_state h false⟩
  · exact ⟨b, h⟩

/-- A device that signs goes on signing. -/
theorem handleActive_state {app : App} {event : AppEvent} {b : Bool} (h : app.state = .active b) :
    ∃ b', (app.handleActive event).1.state = .active b' := by
  have hwake := wakeFromScreensaver_state h
  unfold handleActive
  cases (if app.currentPageModal then none else navigationPage event) with
  | some spec => exact ⟨b, h⟩
  | none =>
    cases event with
    | activateScreensaver =>
      dsimp only
      split
      · exact ⟨b, h⟩
      · exact ⟨true, setScreensaver_state h true⟩
    | deactivateScreensaver =>
      dsimp only
      split
      · exact hwake
      · exact ⟨b, h⟩
    | largeWatermarkGap =>
      dsimp only
      split
      · exact ⟨b, h⟩
      · exact hwake
    | watermarkMissing =>
      dsimp only
      split
      · exact ⟨b, h⟩
      · exact hwake
    | unknownKeyRequested pkh =>
      simp only [unknownKeyRequested, wakeWithoutRebuild]
      split
      · exact ⟨b, h⟩
      · split
        · exact ⟨b, h⟩
        · split
          · refine ⟨false, setScreensaver_state (b := b) ?_ false⟩
            exact h
          · exact ⟨b, h⟩
    | _ => exact ⟨b, h⟩

/-- An event that the loop skips changed nothing and asked for nothing. -/
theorem handleActive_skipped {app : App} {event : AppEvent}
    (h : (app.handleActive event).2.1 = .continue) :
    app.handleActive event = (app, .continue, []) := by
  unfold handleActive at h ⊢
  cases hnav : (if app.currentPageModal then none else navigationPage event) with
  | some spec =>
    simp only [hnav] at h
    cases h
  | none =>
    simp only [hnav] at h
    cases event with
    | activateScreensaver =>
      dsimp only at h ⊢
      split at h
      · rename_i hstay
        rw [if_pos hstay]
      · cases h
    | deactivateScreensaver | largeWatermarkGap | watermarkMissing =>
      dsimp only at h
      split at h <;> cases h
    | _ => cases h

theorem handleEvent_skipped {io : AppIo} {app : App} {event : AppEvent}
    (h : (app.handleEvent io event).2.1 = .continue) :
    app.handleEvent io event = (app, .continue, []) := by
  unfold handleEvent at h ⊢
  cases event with
  | shutdown | fatalError => cases h
  | _ =>
    simp only at h ⊢
    split at h
    · cases h
    · cases h
    · exact handleActive_skipped h
    · rfl

/-- What an event makes of the PIN entry: an invalid result is counted, and locks the entry when the
count is full; a PIN entered after the lockout starts a new count; the other events leave both, or
leave the PIN entry. -/
def nextPinEntry (now : Nat) (failed : UInt32) (lockoutUntil : Option Nat) (event : AppEvent) :
    AppState :=
  match event, lockoutUntil with
  | .invalidPinEntered, _ =>
    if failed + 1 ≥ maxFailedAttempts then .pinEntry (failed + 1) (some (now + lockoutDuration))
    else .pinEntry (failed + 1) lockoutUntil
  | .pinEntered _, some t => if now < t then .pinEntry failed (some t) else .pinEntry 0 none
  | .pinVerified _ none, _ | .pinVerified _ (some .promotedV2), _ => .active false
  | .acknowledgeMigrationNotice _, _ => .active false
  | .deviceLocked, _ => .locked
  | _, _ => .pinEntry failed lockoutUntil

/-- Where an event leads from the PIN entry. -/
theorem handlePinEntry_state {io : AppIo} {app : App} {event : AppEvent} {failed : UInt32}
    {lockoutUntil : Option Nat} (h : app.state = .pinEntry failed lockoutUntil) :
    (app.handleEvent io event).1.state = nextPinEntry io.now failed lockoutUntil event := by
  unfold handleEvent
  cases event with
  | pinEntered pin =>
    simp only [h, handlePinEntry]
    cases lockoutUntil with
    | none => exact h
    | some t =>
      dsimp only [nextPinEntry]
      split
      · exact h
      · rfl
  | invalidPinEntered =>
    simp only [h, handlePinEntry, nextPinEntry]
    split <;> rfl
  | pinVerified json migration =>
    simp only [h, handlePinEntry, dispatchPinVerified]
    cases migration with
    | none => rfl
    | some m => cases m <;> first | rfl | exact h
  | acknowledgeMigrationNotice | deviceLocked =>
    simp only [h, handlePinEntry, proceedToActive, nextPinEntry]
  | _ => simp only [h, handlePinEntry, nextPinEntry]

/-- The locked state stays, and asks for nothing but the shutdown and the fatal page. -/
theorem handleEvent_locked {io : AppIo} {app : App} (event : AppEvent)
    (h : app.state = .locked) : (app.handleEvent io event).1.state = .locked := by
  unfold handleEvent
  cases event <;> simp [h]

end App

end Russignol
