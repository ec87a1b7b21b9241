import Russignol.Base.Bytes
import Russignol.Base.EarlyExit
import Russignol.Base.InFlight

/-!
# The panel driver

`Epd2in13v4` of `libs/epd-2in13-v4/src/display_driver.rs`: the commands of a push, the waits for the
busy line, and what the driver keeps of the frames that it pushed. What the lines answer is an input
of each call, one answer for each time they are asked; a wait reads the busy line until it is low or
the time is up.

Beside the driver stands the panel. It takes a frame into its memory, shows the memory when a
refresh is started, and is idle where the busy line reads low, unless the reset pulse of the call at
hand has dropped the line. A write that fails may have reached it.
-/

namespace Russignol.EPaper

open EarlyExit Bytes

/-- `WIDTH`, `HEIGHT`. -/
def width : Nat := 122

def height : Nat := 250

/-- `BUFFER_SIZE`. -/
def bufferSize : Nat := (width + 7) / 8 * height

/-- A frame, one bit a pixel, a set bit white. -/
abbrev Frame := Fixed bufferSize

/-- A frame whose bytes are all the same. -/
def Frame.fill (b : UInt8) : Frame := ⟨List.replicate bufferSize b, List.length_replicate⟩

/-- `DisplayMode`. -/
inductive DisplayMode
  | full
  | partialUpdate
  deriving DecidableEq, Repr

/-- `WaitPolicy`. -/
inductive WaitPolicy
  | block
  | bail
  deriving DecidableEq, Repr

/-- `PushOutcome`. -/
inductive PushOutcome
  | pushed
  | busy
  deriving DecidableEq, Repr

/-- `EpdCommand`. -/
inductive EpdCommand
  | driverOutputControl
  | dataEntryMode
  | softwareReset
  | temperatureSensor
  | displayUpdateControl
  | displayUpdateControl2
  | writeRam
  | writeRamRed
  | borderWaveform
  | setRamXAddress
  | setRamYAddress
  | deepSleep
  | activateDisplayUpdateSequence
  | setRamXAddressCounter
  | setRamYAddressCounter
  deriving DecidableEq, Repr

/-- The commands that `send_command` waits before. -/
def EpdCommand.waits : EpdCommand → Bool
  | activateDisplayUpdateSequence | softwareReset | displayUpdateControl | displayUpdateControl2
  | writeRam | writeRamRed | deepSleep | temperatureSensor => true
  | _ => false

/-- `EpdData`. -/
inductive EpdData
  | driverOutputControl
  | dataEntryMode
  | borderWaveform
  | displayUpdateControl2
  | temperatureSensor
  | displayFrame
  | deepSleep
  | displayPartial
  | partialUpdateBorderWaveform
  | partialUpdateDriverOutputControl
  | partialUpdateDataEntryMode
  | ramX
  | ramY
  deriving DecidableEq, Repr

/-- `as_slice`. -/
def EpdData.asSlice : EpdData → List UInt8
  | driverOutputControl | partialUpdateDriverOutputControl => [0xF9, 0x00, 0x00]
  | dataEntryMode | partialUpdateDataEntryMode => [0x03]
  | borderWaveform => [0x05]
  | displayUpdateControl2 => [0x00, 0x80]
  | temperatureSensor | partialUpdateBorderWaveform => [0x80]
  | displayFrame => [0xf7]
  | deepSleep => [0x01]
  | displayPartial => [0xff]
  | ramX => [0x00, 0x0F]
  | ramY => [0x00, 0x00, 0xF9, 0x00]

/-! ## What the lines answer -/

/-- The busy line where it is read, and the milliseconds since the wait began. -/
structure Reading where
  busy : Except String Bool
  elapsed : Nat

/-- An idle line. -/
def Reading.idle : Reading := ⟨.ok false, 0⟩

/-- How a write to the bus ends. A write that fails may have been taken. -/
inductive SpiIo
  | ok
  | failed (e : String) (taken : Bool)

/-- The answers to one command: the readings of its wait, the data line before the command and
before its data, which fails with an error or does not, and the two writes. -/
structure SendIo where
  wait : List Reading
  dcLow : Option String
  command : SpiIo
  dcHigh : Option String
  data : SpiIo

/-- The answers to a push, which sends each command once. -/
structure PushIo where
  busy : Except String Bool
  wait : List Reading
  rstLow : Option String
  rstHigh : Option String
  send : EpdCommand → SendIo

/-- A push during which nothing fails, on a line that is busy at its start or is not. -/
def PushIo.calm (busy : Bool) : PushIo :=
  ⟨.ok busy, [], none, none, fun _ => ⟨[], none, .ok, none, .ok⟩⟩

/-- The answers to `wake`. -/
structure WakeIo where
  rstHigh : Option String
  rstLow : Option String
  rstRelease : Option String
  send : EpdCommand → SendIo

/-! ## The panel and the driver -/

/-- What the panel was asked for. -/
structure Panel where
  ram : List UInt8
  /-- The frame on the panel when it was last idle. -/
  shown : List UInt8
  /-- The frames whose refresh was started since, the newest first. -/
  started : List (List UInt8)
  /-- The last reading of the busy line. -/
  high : Bool
  /-- The reset pulse of the call at hand has dropped the busy line. -/
  pulsed : Bool

namespace Panel

/-- A reading of the busy line. -/
def read (p : Panel) (busy : Bool) : Panel :=
  if busy || p.pulsed then { p with high := busy }
  else { p with high := busy, shown := p.started.head?.getD p.shown, started := [] }

/-- A read of the busy pin leaves the RAM of the panel. -/
@[simp] theorem ram_read (p : Panel) (busy : Bool) : (p.read busy).ram = p.ram := by
  unfold read
  split <;> rfl

/-- A read of the busy pin leaves whether the panel was reset. -/
@[simp] theorem pulsed_read (p : Panel) (busy : Bool) : (p.read busy).pulsed = p.pulsed := by
  unfold read
  split <;> rfl

/-- A command that is taken. -/
def take (p : Panel) : EpdCommand → Panel
  | .activateDisplayUpdateSequence => { p with started := p.ram :: p.started }
  | _ => p

/-- The data of a command that are taken. -/
def takeData (p : Panel) (data : List UInt8) : EpdCommand → Panel
  | .writeRam => { p with ram := data }
  | _ => p

end Panel

/-- `Epd2in13v4`, with its panel. -/
structure Epd where
  lastUpdateMode : Option DisplayMode
  dirtyMask : Frame
  lastFrame : Frame
  panel : Panel
  /-- The mode of the last push whose frame was sent, whether or not its refresh was started. -/
  sent : Option DisplayMode
  /-- The pushes that succeeded, the newest first. -/
  pushes : List (DisplayMode × Frame)

/-- A driver call. -/
abbrev Call := Prog Epd

namespace Epd

/-- A driver that was just made, before a panel that shows a frame. -/
def new (shown : Frame) : Epd where
  lastUpdateMode := none
  dirtyMask := .fill 0x00
  lastFrame := .fill 0xFF
  panel := ⟨[], shown.1, [], false, false⟩
  sent := none
  pushes := []

/-- `frame_differs`. -/
def frameDiffers (e : Epd) (buffer : Frame) : Bool := decide (e.lastFrame ≠ buffer)

/-! ## Lines -/

/-- Setting a pin. -/
def setPin : Option String → Call Unit
  | none => pure ()
  | some e => throw (.failed e)

/-- `busy.is_high`. -/
def isHigh : Except String Bool → Call Bool
  | .ok busy => do
    modify fun e => { e with panel := e.panel.read busy }
    pure busy
  | .error e => throw (.failed e)

/-- `spi.write`. -/
def spiWrite (effect : Panel → Panel) : SpiIo → Call Unit
  | .ok => modify fun e => { e with panel := effect e.panel }
  | .failed error taken => do
    modify fun e => { e with panel := if taken then effect e.panel else e.panel }
    throw (.failed error)

/-- `WAIT_IDLE_TIMEOUT_MS`. -/
def waitIdleTimeoutMs : Nat := 10000

/-- The loop of `wait_until_idle`, and the readings after it. -/
def pollIdle : List Reading → Call (List Reading)
  | [] => do
    let _ ← isHigh Reading.idle.busy
    pure []
  | r :: rs => do
    let busy ← isHigh r.busy
    if busy && decide (r.elapsed ≤ waitIdleTimeoutMs) then pollIdle rs else pure rs

/-- `wait_until_idle`. -/
def waitUntilIdle (readings : List Reading) : Call Unit := do
  let _ ← isHigh (readings.headD .idle).busy
  let readings ← pollIdle readings.tail
  let busy ← isHigh (readings.headD .idle).busy
  if busy then throw (.failed "Timeout waiting for busy pin") else pure ()

/-- `send_data`. -/
def sendData (io : SendIo) (command : EpdCommand) (data : List UInt8) : Call Unit := do
  setPin io.dcHigh
  spiWrite (·.takeData data command) io.data

/-- `send_command`. -/
def sendCommand (io : EpdCommand → SendIo) (command : EpdCommand) (data : Option (List UInt8)) :
    Call Unit := do
  (if command.waits then waitUntilIdle (io command).wait else pure ())
  setPin (io command).dcLow
  spiWrite (·.take command) (io command).command
  match data with
  | none => pure ()
  | some data => sendData (io command) command data

/-- `set_full_ram_window`. -/
def setFullRamWindow (io : EpdCommand → SendIo) : Call Unit := do
  sendCommand io .setRamXAddress (some EpdData.ramX.asSlice)
  sendCommand io .setRamYAddress (some EpdData.ramY.asSlice)
  sendCommand io .setRamXAddressCounter (some [0])
  sendCommand io .setRamYAddressCounter (some [0, 0])

/-- The reset line is pulled low. -/
def pullReset (fault : Option String) : Call Unit := do
  setPin fault
  modify fun e => { e with panel := { e.panel with pulsed := true } }

/-- A call begins: no pulse of it has dropped the busy line yet. -/
def beginCall : Call Unit :=
  modify fun e => { e with panel := { e.panel with pulsed := false } }

/-! ## Pushing a frame -/

/-- `has_overlap`. -/
def hasOverlap (dirtyMask lastFrame newFrame : List UInt8) : Bool :=
  ((dirtyMask.zip lastFrame).zip newFrame).any fun (d, new) => d.1 &&& (d.2 ^^^ new) ≠ 0

/-- `needs_idle_wait`. -/
def needsIdleWait (mode : DisplayMode) (isBusy : Bool) (lastUpdateMode : Option DisplayMode)
    (overlap : Bool) : Bool :=
  isBusy && match mode with
    | .full => true
    | .partialUpdate => overlap || decide (lastUpdateMode ≠ some .partialUpdate)

/-- The start of `display_with_policy`: whether the push goes on, or is deferred. -/
def awaitPanel (io : PushIo) (buffer : Frame) (mode : DisplayMode) (policy : WaitPolicy) :
    Call Bool := do
  beginCall
  let isBusy ← isHigh io.busy
  let e ← get
  let overlap := isBusy && hasOverlap e.dirtyMask.1 e.lastFrame.1 buffer.1
  let mustWait := needsIdleWait mode isBusy e.lastUpdateMode overlap
  if mustWait && decide (policy = .bail) then pure false
  else
    (if mustWait then waitUntilIdle io.wait else pure ())
    -- idle at entry or after the wait: the refresh before has finished
    (if !isBusy || mustWait then modify fun e => { e with dirtyMask := .fill 0x00 } else pure ())
    pure true

/-- The commands of a push before its refresh is started. -/
def sendFrame (io : PushIo) (buffer : Frame) : DisplayMode → Call Unit
  | .full => do
    setFullRamWindow io.send
    sendCommand io.send .driverOutputControl (some EpdData.driverOutputControl.asSlice)
    sendCommand io.send .dataEntryMode (some EpdData.dataEntryMode.asSlice)
    sendCommand io.send .borderWaveform (some EpdData.borderWaveform.asSlice)
    sendCommand io.send .displayUpdateControl2 (some EpdData.displayUpdateControl2.asSlice)
    sendCommand io.send .temperatureSensor (some EpdData.temperatureSensor.asSlice)
    sendCommand io.send .writeRam (some buffer.1)
    sendCommand io.send .writeRamRed (some buffer.1)
    sendCommand io.send .displayUpdateControl (some EpdData.displayFrame.asSlice)
  | .partialUpdate => do
    pullReset io.rstLow
    setPin io.rstHigh
    setFullRamWindow io.send
    sendCommand io.send .borderWaveform (some EpdData.partialUpdateBorderWaveform.asSlice)
    sendCommand io.send .driverOutputControl
      (some EpdData.partialUpdateDriverOutputControl.asSlice)
    sendCommand io.send .dataEntryMode (some EpdData.partialUpdateDataEntryMode.asSlice)
    sendCommand io.send .writeRam (some buffer.1)
    sendCommand io.send .displayUpdateControl (some EpdData.displayPartial.asSlice)

/-- The dirty mask after a push. -/
def accumulate (dirtyMask lastFrame buffer : Frame) : Frame :=
  ⟨List.zipWith (fun dirty change => dirty ||| change) dirtyMask.1
      (List.zipWith (fun last buf => last ^^^ buf) lastFrame.1 buffer.1), by
    simp only [List.length_zipWith, dirtyMask.2, lastFrame.2, buffer.2, Nat.min_self]⟩

/-- A push that succeeded. -/
def track (buffer : Frame) (mode : DisplayMode) (e : Epd) : Epd :=
  { e with
    dirtyMask := accumulate e.dirtyMask e.lastFrame buffer
    lastFrame := buffer
    pushes := (mode, buffer) :: e.pushes }

/-- The mode of a push is noted, whether or not its refresh was started. -/
def noteMode (mode : DisplayMode) (e : Epd) : Epd :=
  { e with lastUpdateMode := some mode, sent := some mode }

/-- The refresh of a push. -/
def activate (io : PushIo) (buffer : Frame) (mode : DisplayMode) : Call PushOutcome := do
  let result ← attempt (sendCommand io.send .activateDisplayUpdateSequence none)
  (if result.isOk then modify (track buffer mode) else pure ())
  modify (noteMode mode)
  match result with
  | .ok () => pure .pushed
  | .error e => throw (.failed e)

/-- `display_with_policy`. -/
def displayWithPolicy (io : PushIo) (buffer : Frame) (mode : DisplayMode) (policy : WaitPolicy) :
    Call PushOutcome := do
  let goesOn ← awaitPanel io buffer mode policy
  if goesOn then
    sendFrame io buffer mode
    activate io buffer mode
  else pure .busy

/-! ## Sleeping -/

/-- `sleep`. -/
def sleep (io : EpdCommand → SendIo) : Call Unit := do
  beginCall
  sendCommand io .deepSleep (some EpdData.deepSleep.asSlice)

/-- `hardware_reset`. -/
def hardwareReset (io : WakeIo) : Call Unit := do
  setPin io.rstHigh
  pullReset io.rstLow
  setPin io.rstRelease

/-- `wake`. -/
def wake (io : WakeIo) : Call Unit := do
  beginCall
  hardwareReset io
  sendCommand io.send .driverOutputControl (some EpdData.driverOutputControl.asSlice)
  sendCommand io.send .dataEntryMode (some EpdData.dataEntryMode.asSlice)
  setFullRamWindow io.send
  modify fun e => { e with lastUpdateMode := none }

/-! ## What a call leaves alone -/

/-- A predicate that no reading of the busy line, no new frame in memory and no reset pulse
affects. -/
structure Inert (I : Epd → Prop) : Prop where
  read : ∀ e b, I e → I { e with panel := e.panel.read b }
  ram : ∀ e data, I e → I { e with panel := { e.panel with ram := data } }
  pulsed : ∀ e b, I e → I { e with panel := { e.panel with pulsed := b } }

variable {I : Epd → Prop} {io : PushIo} {buffer : Frame} {mode : DisplayMode}
  {policy : WaitPolicy}

/-- A pin that is set or fails changes no predicate. -/
theorem keeps_setPin (fault : Option String) : Keeps I (setPin fault) := by
  cases fault with
  | none => exact Keeps.pure ()
  | some e => exact Keeps.throw _

/-- A read of the busy pin keeps what the panel keeps when it answers. -/
theorem keeps_isHigh (h : ∀ e b, I e → I { e with panel := e.panel.read b })
    (busy : Except String Bool) : Keeps I (isHigh busy) := by
  cases busy with
  | ok busy => exact Keeps.bind (Keeps.modify fun e => h e busy) fun _ => Keeps.pure busy
  | error e => exact Keeps.throw _

/-- So do the polls until it is idle. -/
theorem keeps_pollIdle (h : ∀ e b, I e → I { e with panel := e.panel.read b })
    (readings : List Reading) : Keeps I (pollIdle readings) := by
  induction readings with
  | nil => exact Keeps.bind (keeps_isHigh h _) fun _ => Keeps.pure _
  | cons r rs ih => exact Keeps.bind (keeps_isHigh h _) fun _ => Keeps.ite ih (Keeps.pure _)

/-- So does the wait, also where it ends with the error of a panel that never is idle. -/
theorem keeps_waitUntilIdle (h : ∀ e b, I e → I { e with panel := e.panel.read b })
    (readings : List Reading) : Keeps I (waitUntilIdle readings) := by
  refine Keeps.bind (keeps_isHigh h _) fun _ => Keeps.bind (keeps_pollIdle h _) fun _ => ?_
  exact Keeps.bind (keeps_isHigh h _) fun busy => Keeps.ite (Keeps.throw _) (Keeps.pure _)

/-- A write on the bus keeps what its effect on the panel keeps. -/
theorem keeps_spiWrite {effect : Panel → Panel} (h : ∀ e, I e → I { e with panel := effect e.panel })
    (io : SpiIo) : Keeps I (spiWrite effect io) := by
  cases io with
  | ok => exact Keeps.modify h
  | failed error taken =>
    refine Keeps.bind (Keeps.modify fun e he => ?_) fun _ => Keeps.throw _
    cases taken with
    | true => exact h e he
    | false => exact he

/-- A command keeps what it does not affect. -/
theorem keeps_sendCommand {io : EpdCommand → SendIo} {command : EpdCommand}
    {data : Option (List UInt8)} (hread : ∀ e b, I e → I { e with panel := e.panel.read b })
    (htake : ∀ e, I e → I { e with panel := e.panel.take command })
    (hdata : ∀ e data, I e → I { e with panel := e.panel.takeData data command }) :
    Keeps I (sendCommand io command data) := by
  unfold sendCommand
  refine Keeps.bind ?_ fun _ => Keeps.bind (keeps_setPin _) fun _ => Keeps.bind ?_ fun _ => ?_
  · exact Keeps.ite (keeps_waitUntilIdle hread _) (Keeps.pure _)
  · exact keeps_spiWrite htake _
  · cases data with
    | none => exact Keeps.pure _
    | some data =>
      refine Keeps.bind (keeps_setPin _) fun _ => ?_
      exact keeps_spiWrite (fun e => hdata e data) _

namespace Inert

/-- Only the last command of a push starts a refresh. -/
theorem sendCommand (h : Inert I) {io : EpdCommand → SendIo} {command : EpdCommand}
    {data : Option (List UInt8)} (hcommand : command ≠ .activateDisplayUpdateSequence) :
    Keeps I (sendCommand io command data) := by
  refine keeps_sendCommand h.read (fun e he => ?_) fun e data he => ?_
  · cases command with
    | activateDisplayUpdateSequence => exact absurd rfl hcommand
    | _ => exact he
  · cases command with
    | writeRam => exact h.ram e data he
    | _ => exact he

/-- A call of the driver begins. -/
theorem beginCall (h : Inert I) : Keeps I beginCall := Keeps.modify fun e => h.pulsed e false

/-- The reset pin is pulled, or the pin fails. -/
theorem pullReset (h : Inert I) (fault : Option String) : Keeps I (pullReset fault) :=
  Keeps.bind (keeps_setPin _) fun _ => Keeps.modify fun e => h.pulsed e true

/-- The window is set to all of the RAM. -/
theorem setFullRamWindow (h : Inert I) (io : EpdCommand → SendIo) :
    Keeps I (setFullRamWindow io) :=
  Keeps.bind (h.sendCommand (by decide)) fun _ => Keeps.bind (h.sendCommand (by decide)) fun _ =>
    Keeps.bind (h.sendCommand (by decide)) fun _ => h.sendCommand (by decide)

/-- The panel is sent to sleep. -/
theorem sleep (h : Inert I) (io : EpdCommand → SendIo) : Keeps I (sleep io) :=
  Keeps.bind h.beginCall fun _ => h.sendCommand (by decide)

/-- Waking keeps what does not depend on the last mode either. -/
theorem wake (h : Inert I) (hmode : ∀ e, I e → I { e with lastUpdateMode := none }) (io : WakeIo) :
    Keeps I (wake io) := by
  have hreset : Keeps I (hardwareReset io) :=
    Keeps.bind (keeps_setPin _) fun _ => Keeps.bind (h.pullReset _) fun _ => keeps_setPin _
  exact Keeps.bind h.beginCall fun _ => Keeps.bind hreset fun _ =>
    Keeps.bind (h.sendCommand (by decide)) fun _ => Keeps.bind (h.sendCommand (by decide)) fun _ =>
      Keeps.bind (h.setFullRamWindow _) fun _ => Keeps.modify hmode

/-- Waiting for the panel keeps what does not depend on the mask either. -/
theorem awaitPanel (h : Inert I) (hmask : ∀ e mask, I e → I { e with dirtyMask := mask }) :
    Keeps I (awaitPanel io buffer mode policy) := by
  refine Keeps.bind h.beginCall fun _ => Keeps.bind (keeps_isHigh h.read _) fun _ => ?_
  refine Keeps.bind Keeps.get fun e => Keeps.ite (Keeps.pure _) ?_
  refine Keeps.bind (Keeps.ite (keeps_waitUntilIdle h.read _) (Keeps.pure ())) fun _ => ?_
  exact Keeps.bind (Keeps.ite (Keeps.modify fun e => hmask e _) (Keeps.pure ())) fun _ =>
    Keeps.pure _

end Inert

/-! ## The frame and its refresh -/

/-- A command that is not the frame's leaves the memory alone. -/
theorem keeps_ram {ram : List UInt8} {send : EpdCommand → SendIo} {command : EpdCommand}
    {data : Option (List UInt8)} (hcommand : command ≠ .writeRam) :
    Keeps (fun e => e.panel.ram = ram) (sendCommand send command data) := by
  refine keeps_sendCommand (fun e busy h => (e.panel.ram_read busy).trans h) (fun e h => ?_)
    fun e data h => ?_
  · cases command <;> exact h
  · cases command with
    | writeRam => exact absurd rfl hcommand
    | _ => exact h

/-- The frame is in memory once its command is done. -/
theorem writeRam_spec {I : Epd → Prop} (hI : Inert I) (send : EpdCommand → SendIo)
    (data : List UInt8) : Triple I (sendCommand send .writeRam (some data))
      (fun _ e => I e ∧ e.panel.ram = data) I := by
  unfold sendCommand
  refine Triple.bind (R := fun _ => I) ?_ fun _ => Triple.bind (keeps_setPin _) fun _ => ?_
  · exact Keeps.ite (keeps_waitUntilIdle hI.read _) (Keeps.pure ())
  refine Triple.bind (keeps_spiWrite (fun _ h => h) _) fun _ => ?_
  refine Triple.bind (keeps_setPin _) fun _ => ?_
  cases (send .writeRam).data with
  | ok => exact Triple.modify fun e h => ⟨hI.ram e data h, rfl⟩
  | failed error taken =>
    refine Triple.bind (R := fun _ => I) (Triple.modify fun e h => ?_) fun _ =>
      Triple.throw fun _ => id
    cases taken with
    | true => exact hI.ram e data h
    | false => exact h

/-- **The commands of a push** end with the frame in memory, and start no refresh. -/
theorem sendFrame_spec {I : Epd → Prop} (hI : Inert I) :
    Triple I (sendFrame io buffer mode) (fun _ e => I e ∧ e.panel.ram = buffer.1) I := by
  have hlast : ∀ command data, command ≠ .activateDisplayUpdateSequence → command ≠ .writeRam →
      Triple (fun e => I e ∧ e.panel.ram = buffer.1) (sendCommand io.send command data)
        (fun _ e => I e ∧ e.panel.ram = buffer.1) I := fun command data h h' =>
    Triple.mono (Keeps.and (hI.sendCommand h) (keeps_ram h')) (fun _ => id) (fun _ _ => id)
      fun _ h => h.1
  cases mode with
  | full =>
    refine Triple.bind (hI.setFullRamWindow _) fun _ => ?_
    refine Triple.bind (hI.sendCommand (by decide)) fun _ => ?_
    refine Triple.bind (hI.sendCommand (by decide)) fun _ => ?_
    refine Triple.bind (hI.sendCommand (by decide)) fun _ => ?_
    refine Triple.bind (hI.sendCommand (by decide)) fun _ => ?_
    refine Triple.bind (hI.sendCommand (by decide)) fun _ => ?_
    refine Triple.bind (writeRam_spec hI _ _) fun _ => ?_
    exact Triple.bind (hlast _ _ (by decide) (by decide)) fun _ =>
      hlast _ _ (by decide) (by decide)
  | partialUpdate =>
    refine Triple.bind (hI.pullReset _) fun _ => Triple.bind (keeps_setPin _) fun _ => ?_
    refine Triple.bind (hI.setFullRamWindow _) fun _ => ?_
    refine Triple.bind (hI.sendCommand (by decide)) fun _ => ?_
    refine Triple.bind (hI.sendCommand (by decide)) fun _ => ?_
    refine Triple.bind (hI.sendCommand (by decide)) fun _ => ?_
    exact Triple.bind (writeRam_spec hI _ _) fun _ => hlast _ _ (by decide) (by decide)

/-- **The refresh of a push** tracks the frame where its command succeeds, and notes the mode in any
case. -/
theorem activate_spec {I J K : Epd → Prop} {Q : PushOutcome → Epd → Prop} {E : Epd → Prop}
    (hcommand : Triple I (sendCommand io.send .activateDisplayUpdateSequence none) (fun _ => J) K)
    (hok : ∀ e, J e → Q .pushed ((e.track buffer mode).noteMode mode))
    (hfailed : ∀ e, K e → E (e.noteMode mode)) (hkilled : ∀ e, K e → E e) :
    Triple I (activate io buffer mode) Q E := by
  refine Triple.bind (hcommand.attempt.mono (fun _ => id) (fun _ _ => id) hkilled) fun result => ?_
  cases result with
  | ok =>
    refine Triple.bind (R := fun _ e => ∃ t, J t ∧ e = t.track buffer mode)
      (Triple.modify fun e he => ⟨e, he, rfl⟩) fun _ => ?_
    refine Triple.bind (R := fun _ e => Q .pushed e) (Triple.modify ?_) fun _ =>
      Triple.pure fun _ => id
    rintro e ⟨t, ht, rfl⟩
    exact hok t ht
  | error text =>
    refine Triple.bind (R := fun _ => K) (Triple.pure fun _ => id) fun _ => ?_
    exact Triple.bind (R := fun _ => E) (Triple.modify hfailed) fun _ => Triple.throw fun _ => id

end Epd

end Russignol.EPaper
