import Mathlib.Algebra.Ring.Nat
import Russignol.Base.Automaton
import Russignol.EPaper.DisplayDriver

/-!
# The display

`refresh_policy.rs` and `Display` of `display.rs`: what a refresh does is decided from the driver's
last frame, from a counter of partial pushes and from whether anything was ever pushed. The driver
notes a push that succeeded before the wrapper does, and either may be kept from it by a busy panel
or by an error. The wrapper's counters follow the driver's pushes over every run
(`Display.refresh_booked`).
-/

namespace Russignol.EPaper

open EarlyExit Bytes

/-! ## The refresh policy -/

/-- `PARTIALS_BETWEEN_FULLS`. -/
def partialsBetweenFulls : UInt16 := 1000

/-- `RefreshOpportunity`. -/
inductive RefreshOpportunity
  | inPlace
  | transition
  | forcedFull
  deriving DecidableEq, Repr

/-- `RefreshAction`. -/
inductive RefreshAction
  | skip
  | push (mode : DisplayMode)
  deriving DecidableEq, Repr

/-- `RefreshDecision`. -/
structure RefreshDecision where
  action : RefreshAction
  partialsSinceFull : UInt16
  deriving DecidableEq, Repr

/-- `saturating_add(1)`. -/
def saturatingSucc (n : UInt16) : UInt16 := if n = 65535 then n else n + 1

namespace RefreshPolicy

/-- The action of `decide`. -/
def action (frameChanged hasEverPushed : Bool) (partialsSinceFull : UInt16) :
    RefreshOpportunity → RefreshAction
  | .forcedFull => .push .full
  | opportunity =>
    if !hasEverPushed then .push .full
    else if opportunity = .transition ∧ partialsBetweenFulls ≤ partialsSinceFull then .push .full
    else if !frameChanged then .skip
    else .push .partialUpdate

/-- The counter after an action. -/
def count (partialsSinceFull : UInt16) : RefreshAction → UInt16
  | .push .full => 0
  | .push .partialUpdate => saturatingSucc partialsSinceFull
  | .skip => partialsSinceFull

/-- `decide`. -/
def decide (frameChanged hasEverPushed : Bool) (partialsSinceFull : UInt16)
    (opportunity : RefreshOpportunity) : RefreshDecision :=
  let action := action frameChanged hasEverPushed partialsSinceFull opportunity
  ⟨action, count partialsSinceFull action⟩

end RefreshPolicy

/-! ## The display -/

/-- `Rotation`. -/
inductive Rotation
  | deg0
  | deg90
  deriving DecidableEq, Repr

/-- `UpdateOutcome`. -/
inductive UpdateOutcome
  | done
  | busy
  deriving DecidableEq, Repr

/-- `Display`. -/
structure Display where
  driver : Epd
  buffer : Frame
  partialsSinceFull : UInt16
  hasEverPushed : Bool
  rotation : Rotation

namespace Display

/-- `new`. -/
def new (driver : Epd) (rotation : Rotation) : Display where
  driver := driver
  buffer := .fill 0xFF
  partialsSinceFull := 0
  hasEverPushed := false
  rotation := rotation

/-- A call of the driver. -/
def onDriver {α : Type} (m : Call α) : Prog Display α :=
  zoom Display.driver (fun driver d => { d with driver }) m

/-- The end of a push: the counter that the policy decided is stored. -/
def store (partialsSinceFull : UInt16) : Prog Display UpdateOutcome := do
  modify fun d => { d with partialsSinceFull }
  pure .done

/-- The end of `push`: what was decided is done. -/
def carryOut (decision : RefreshDecision) (buffer : Frame) (policy : WaitPolicy) (io : PushIo) :
    Prog Display UpdateOutcome :=
  match decision.action with
  | .skip => store decision.partialsSinceFull
  | .push mode => do
    let outcome ← onDriver (Epd.displayWithPolicy io buffer mode policy)
    if outcome = .busy then pure .busy
    else
      modify fun d => { d with hasEverPushed := true }
      store decision.partialsSinceFull

/-- `push`. -/
def push (opportunity : RefreshOpportunity) (policy : WaitPolicy) (io : PushIo) :
    Prog Display UpdateOutcome := do
  let d ← get
  let decision := RefreshPolicy.decide (d.driver.frameDiffers d.buffer) d.hasEverPushed
    d.partialsSinceFull opportunity
  carryOut decision d.buffer policy io

/-- `update`. -/
def update (io : PushIo) : Prog Display Unit := do
  let _ ← push .inPlace .block io

/-- `try_update`. -/
def tryUpdate (io : PushIo) : Prog Display UpdateOutcome := push .inPlace .bail io

/-- `update_transition`. -/
def updateTransition (io : PushIo) : Prog Display Unit := do
  let _ ← push .transition .block io

/-- `try_update_transition`. -/
def tryUpdateTransition (io : PushIo) : Prog Display UpdateOutcome := push .transition .bail io

/-- `update_full`. -/
def updateFull (io : PushIo) : Prog Display Unit := do
  let _ ← push .forcedFull .block io

/-! ## Drawing -/

/-- A pixel that a drawing call sets: its place, and whether it is on. -/
structure DrawnPixel where
  x : Int
  y : Int
  on : Bool
  deriving DecidableEq, Repr

/-- `size`. -/
def size : Rotation → Nat × Nat
  | .deg0 => (width, height)
  | .deg90 => (height, width)

/-- Where a pixel of the rotated display stands. -/
def rotated (x y : Int) : Rotation → Int × Int
  | .deg0 => (x, y)
  | .deg90 => ((width : Int) - 1 - y, x)

/-- Where a pixel stands on the panel, if it does. -/
def place (rotation : Rotation) (pixel : DrawnPixel) : Option (Nat × Nat) :=
  if pixel.x < 0 ∨ pixel.x ≥ (size rotation).1 ∨ pixel.y < 0 ∨ pixel.y ≥ (size rotation).2 then none
  else
    let (x, y) := rotated pixel.x pixel.y rotation
    if (0 ≤ x ∧ x < width) ∧ 0 ≤ y ∧ y < height then some (x.toNat, y.toNat) else none

/-- `row_pitch_bytes`. -/
def rowPitchBytes : Nat := (width + 7) / 8

/-- The byte of a pixel. -/
def byteIndex (x y : Nat) : Nat := y * rowPitchBytes + x / 8

/-- One pixel of `draw_iter`. -/
def drawPixel (rotation : Rotation) (buffer : Frame) (pixel : DrawnPixel) : Frame :=
  match place rotation pixel with
  | none => buffer
  | some (x, y) =>
    let mask : UInt8 := 1 <<< UInt8.ofNat (7 - x % 8)
    let byte := buffer.1.getD (byteIndex x y) 0
    ⟨buffer.1.set (byteIndex x y) (if pixel.on then byte ||| mask else byte &&& ~~~mask), by
      rw [List.length_set, buffer.2]⟩

/-- `draw_iter`. -/
def drawIter (pixels : List DrawnPixel) : Prog Display Unit :=
  modify fun d => { d with buffer := pixels.foldl (drawPixel d.rotation) d.buffer }

/-- `fill_solid`: the points of the area that lie on the display are drawn in one colour. -/
def fillSolid (points : List (Int × Int)) (on : Bool) : Prog Display Unit :=
  drawIter (points.map fun (x, y) => ⟨x, y, on⟩)

/-- `clear`. -/
def clear (on : Bool) : Prog Display Unit :=
  modify fun d => { d with buffer := .fill (if on then 0xFF else 0x00) }

end Display

/-! ## The driver's books -/

namespace Epd

variable {f : Frame} {l : List (DisplayMode × Frame)} {io : PushIo} {buffer : Frame}
  {mode : DisplayMode} {policy : WaitPolicy}

/-- The last frame and the pushes that succeeded. -/
def Books (f : Frame) (l : List (DisplayMode × Frame)) (e : Epd) : Prop :=
  e.lastFrame = f ∧ e.pushes = l

/-- The books of the display are inert: the driver does not touch them. -/
theorem inert_books : Inert (Books f l) where
  read := fun _ _ h => h
  ram := fun _ _ h => h
  pulsed := fun _ _ h => h

/-- A push that waits goes on. -/
theorem awaitPanel_block : Triple (fun _ => True) (awaitPanel io buffer mode .block)
    (fun goesOn _ => goesOn = true) (fun _ => True) := by
  have hwait : ∀ readings, Keeps (fun _ : Epd => True) (waitUntilIdle readings) :=
    keeps_waitUntilIdle fun _ _ => id
  unfold awaitPanel
  refine Triple.bind (Keeps.modify fun _ => id) fun _ => ?_
  refine Triple.bind (keeps_isHigh (fun _ _ => id) _) fun isBusy => Triple.bind Keeps.get fun e => ?_
  dsimp only
  rw [if_neg (by rw [Bool.and_eq_true]; exact fun h => absurd h.2 (by decide))]
  refine Triple.bind (Keeps.ite (hwait _) (Keeps.pure ())) fun _ => ?_
  refine Triple.bind (Keeps.ite (Keeps.modify fun _ => id) (Keeps.pure ())) fun _ => ?_
  exact Triple.pure fun _ _ => rfl

/-- **A push** is noted where it succeeds, and nowhere else; only one that may be deferred finds the
panel busy. -/
theorem displayWithPolicy_books : Triple (Books f l) (displayWithPolicy io buffer mode policy)
    (fun outcome e => match outcome with
      | .pushed => e.Books buffer ((mode, buffer) :: l)
      | .busy => policy = .bail ∧ e.Books f l)
    (Books f l) := by
  have hawait : Triple (Books f l) (awaitPanel io buffer mode policy)
      (fun goesOn e => (goesOn = false → policy = .bail) ∧ e.Books f l) (Books f l) := by
    have hkept : Keeps (Books f l) (awaitPanel io buffer mode policy) :=
      inert_books.awaitPanel fun _ _ h => h
    cases policy with
    | bail => exact hkept.post fun _ _ h => ⟨fun _ => rfl, h⟩
    | block =>
      refine (Triple.and hkept awaitPanel_block).mono (fun _ h => ⟨h, trivial⟩) ?_ fun _ h => h.1
      rintro goesOn e ⟨h, rfl⟩
      exact ⟨fun hfalse => absurd hfalse (by decide), h⟩
  have hcommand : Keeps (Books f l) (sendCommand io.send .activateDisplayUpdateSequence none) :=
    keeps_sendCommand inert_books.read (fun _ h => h) fun e data => inert_books.ram e data
  unfold displayWithPolicy
  refine Triple.bind hawait fun goesOn => ?_
  cases goesOn with
  | false => exact Triple.pure fun e h => ⟨h.1 rfl, h.2⟩
  | true =>
    refine Triple.bind ((sendFrame_spec inert_books).mono (fun _ h => h.2) (fun _ _ h => h.1)
      fun _ => id) fun _ => ?_
    refine activate_spec hcommand (fun e h => ?_) (fun _ => id) fun _ => id
    exact ⟨rfl, congrArg ((mode, buffer) :: ·) h.2⟩

end Epd

namespace RefreshPolicy

variable {frameChanged : Bool} {partialsSinceFull : UInt16} {opportunity : RefreshOpportunity}

/-- Before anything was pushed every push is a full one. -/
theorem action_first : action frameChanged false partialsSinceFull opportunity = .push .full := by
  cases opportunity <;> rfl

/-- A repaint in place is a partial push of a frame that has changed. -/
theorem action_inPlace : action frameChanged true partialsSinceFull .inPlace =
    if frameChanged then .push .partialUpdate else .skip := by
  cases frameChanged <;> rfl

/-- Only a frame that has not changed is skipped. -/
theorem unchanged_of_skip {hasEverPushed : Bool}
    (h : action frameChanged hasEverPushed partialsSinceFull opportunity = .skip) :
    frameChanged = false := by
  cases opportunity with
  | forcedFull => cases h
  | _ =>
    dsimp only [action] at h
    split at h
    · cases h
    · split at h
      · cases h
      · split at h
        · rename_i hunchanged
          simpa using hunchanged
        · cases h

end RefreshPolicy

/-! ## The display's books -/

namespace Display

variable {d t : Display} {opportunity : RefreshOpportunity} {policy : WaitPolicy} {io : PushIo}
  {mode : DisplayMode}

/-- What the policy decides. -/
def action (d : Display) (opportunity : RefreshOpportunity) : RefreshAction :=
  RefreshPolicy.action (d.driver.frameDiffers d.buffer) d.hasEverPushed d.partialsSinceFull
    opportunity

/-- A push carries out the action that its policy comes to, with the count of partial updates. -/
theorem push_eq : push opportunity policy io d =
    carryOut ⟨d.action opportunity, RefreshPolicy.count d.partialsSinceFull (d.action opportunity)⟩
      d.buffer policy io d :=
  rfl

/-- A push that is not needed does nothing. -/
theorem push_of_skip (h : d.action opportunity = .skip) :
    push opportunity policy io d = .ok .done d := by
  rw [push_eq, h]
  rfl

/-- A push is the driver's; where that goes through, it is noted. -/
theorem push_of_push (h : d.action opportunity = .push mode) :
    push opportunity policy io d =
      match Epd.displayWithPolicy io d.buffer mode policy d.driver with
      | .ok .busy driver => .ok .busy { d with driver }
      | .ok .pushed driver => .ok .done { d with
          driver, hasEverPushed := true
          partialsSinceFull := RefreshPolicy.count d.partialsSinceFull (.push mode) }
      | .error stop driver => .error stop { d with driver } := by
  rw [push_eq, h]
  unfold carryOut
  cases hdriver : Epd.displayWithPolicy io d.buffer mode policy d.driver with
  | error stop driver =>
    refine bind_of_error ?_
    unfold onDriver zoom
    rw [hdriver]
  | ok outcome driver =>
    have hrun : onDriver (Epd.displayWithPolicy io d.buffer mode policy) d =
        .ok outcome { d with driver } := by
      unfold onDriver zoom
      rw [hdriver]
    refine (bind_of_ok hrun).trans ?_
    cases outcome <;> rfl

/-- The partial pushes since the last full one. -/
def partialsSince (pushes : List (DisplayMode × Frame)) : Nat :=
  (pushes.takeWhile fun push => push.1 = .partialUpdate).length

/-- The wrapper's counters are those of the driver's pushes, the first of which is a full one. -/
structure Booked (d : Display) : Prop where
  first : ∀ push, d.driver.pushes.getLast? = some push → push.1 = .full
  partialsSinceFull : d.partialsSinceFull.toNat = min 65535 (partialsSince d.driver.pushes)
  hasEverPushed : d.hasEverPushed = true ↔ d.driver.pushes ≠ []
  lastFrame : d.driver.lastFrame = ((d.driver.pushes.head?).map Prod.snd).getD (.fill 0xFF)

/-- Nothing is noted of a push. -/
structure Unrecorded (d t : Display) : Prop where
  buffer : t.buffer = d.buffer
  hasEverPushed : t.hasEverPushed = d.hasEverPushed
  partialsSinceFull : t.partialsSinceFull = d.partialsSinceFull
  lastFrame : t.driver.lastFrame = d.driver.lastFrame
  pushes : t.driver.pushes = d.driver.pushes

/-- A push is noted. -/
structure Recorded (mode : DisplayMode) (d t : Display) : Prop where
  buffer : t.buffer = d.buffer
  hasEverPushed : t.hasEverPushed = true
  partialsSinceFull :
    t.partialsSinceFull = RefreshPolicy.count d.partialsSinceFull (.push mode)
  lastFrame : t.driver.lastFrame = d.buffer
  pushes : t.driver.pushes = (mode, d.buffer) :: d.driver.pushes

/-- Where nothing was pushed, nothing went unrecorded. -/
theorem Unrecorded.refl (d : Display) : d.Unrecorded d := ⟨rfl, rfl, rfl, rfl, rfl⟩

/-- How a push ends. -/
inductive Ended (opportunity : RefreshOpportunity) (policy : WaitPolicy) (d : Display) :
    EStateM.Result Stop Display UpdateOutcome → Prop
  | skipped (h : d.action opportunity = .skip) : Ended opportunity policy d (.ok .done d)
  | recorded {mode : DisplayMode} {t : Display} (h : d.action opportunity = .push mode)
    (ht : d.Recorded mode t) : Ended opportunity policy d (.ok .done t)
  | busy {t : Display} (h : policy = .bail) (ht : d.Unrecorded t) :
    Ended opportunity policy d (.ok .busy t)
  | failed {stop : Stop} {t : Display} (ht : d.Unrecorded t) :
    Ended opportunity policy d (.error stop t)

/-- **A push** is noted where it is done, and only there. -/
theorem push_ended : Ended opportunity policy d (push opportunity policy io d) := by
  cases haction : d.action opportunity with
  | skip =>
    rw [push_of_skip haction]
    exact .skipped haction
  | push mode =>
    rw [push_of_push haction]
    have hbooks : Triple (Epd.Books d.driver.lastFrame d.driver.pushes)
        (Epd.displayWithPolicy io d.buffer mode policy) _ _ := Epd.displayWithPolicy_books
    have hdriver := hbooks d.driver ⟨rfl, rfl⟩
    unfold EStateM.run at hdriver
    cases hrun : Epd.displayWithPolicy io d.buffer mode policy d.driver with
    | error stop driver =>
      rw [hrun] at hdriver
      exact .failed ⟨rfl, rfl, rfl, hdriver.1, hdriver.2⟩
    | ok outcome driver =>
      rw [hrun] at hdriver
      cases outcome with
      | busy => exact .busy hdriver.1 ⟨rfl, rfl, rfl, hdriver.2.1, hdriver.2.2⟩
      | pushed => exact .recorded haction ⟨rfl, rfl, rfl, hdriver.1, hdriver.2⟩

/-- A push that is not noted keeps the books. -/
theorem Unrecorded.booked (h : d.Unrecorded t) (hd : d.Booked) : t.Booked where
  first := h.pushes ▸ hd.first
  partialsSinceFull := by
    rw [h.partialsSinceFull, h.pushes]
    exact hd.partialsSinceFull
  hasEverPushed := by
    rw [h.hasEverPushed, h.pushes]
    exact hd.hasEverPushed
  lastFrame := by
    rw [h.lastFrame, h.pushes]
    exact hd.lastFrame

/-- A saturating count goes up to the largest word. -/
theorem toNat_saturatingSucc (n : UInt16) : (saturatingSucc n).toNat = min 65535 (n.toNat + 1) := by
  unfold saturatingSucc
  split
  · subst n
    rfl
  · rename_i hmax
    have hmax : n.toNat ≠ 65535 := fun h => hmax (UInt16.toNat_inj.1 h)
    have hsize := n.toNat_lt
    have hsucc : (n + 1).toNat = (n.toNat + 1) % 2 ^ 16 := UInt16.toNat_add n 1
    omega

/-- A push that is noted keeps the books. -/
theorem Recorded.booked (h : d.Recorded mode t) (haction : d.action opportunity = .push mode)
    (hd : d.Booked) : t.Booked where
  first := by
    rw [h.pushes]
    intro push hpush
    cases hpushes : d.driver.pushes with
    | nil =>
      have hnever : d.hasEverPushed = false :=
        Bool.eq_false_iff.2 fun hever => hd.hasEverPushed.1 hever hpushes
      rw [action, hnever, RefreshPolicy.action_first] at haction
      cases haction
      rw [hpushes] at hpush
      cases hpush
      rfl
    | cons p l =>
      rw [hpushes, List.getLast?_cons_cons] at hpush
      exact hd.first push (hpushes ▸ hpush)
  partialsSinceFull := by
    rw [h.partialsSinceFull, h.pushes]
    cases mode with
    | full => rfl
    | partialUpdate =>
      have hcount : partialsSince ((.partialUpdate, d.buffer) :: d.driver.pushes) =
          partialsSince d.driver.pushes + 1 := rfl
      rw [RefreshPolicy.count, toNat_saturatingSucc, hd.partialsSinceFull, hcount]
      omega
  hasEverPushed := by
    rw [h.pushes]
    exact ⟨fun _ => List.cons_ne_nil _ _, fun _ => h.hasEverPushed⟩
  lastFrame := by
    rw [h.lastFrame, h.pushes]
    rfl

/-! ## Runs -/

/-- The calls of a display. -/
inductive Action
  | update (io : PushIo)
  | tryUpdate (io : PushIo)
  | updateTransition (io : PushIo)
  | tryUpdateTransition (io : PushIo)
  | updateFull (io : PushIo)
  | sleep (io : EpdCommand → SendIo)
  | wake (io : WakeIo)
  | drawIter (pixels : List DrawnPixel)
  | fillSolid (points : List (Int × Int)) (on : Bool)
  | clear (on : Bool)

/-- A call, whether or not it succeeds. -/
def step (d : Display) : Action → Option Display
  | .update io => some (final (update io) d)
  | .tryUpdate io => some (final (tryUpdate io) d)
  | .updateTransition io => some (final (updateTransition io) d)
  | .tryUpdateTransition io => some (final (tryUpdateTransition io) d)
  | .updateFull io => some (final (updateFull io) d)
  | .sleep io => some (final (onDriver (Epd.sleep io)) d)
  | .wake io => some (final (onDriver (Epd.wake io)) d)
  | .drawIter pixels => some (final (drawIter pixels) d)
  | .fillSolid points on => some (final (fillSolid points on) d)
  | .clear on => some (final (clear on) d)

/-- What the wrapper counts on of a push: it is noted where it is done, and only there; one in
place, once anything was pushed, is a partial push of the driver where the frame has changed, and
nothing otherwise. -/
structure Tells (d : Display) : Prop where
  done : ∀ opportunity policy io t, push opportunity policy io d = .ok .done t →
    t.buffer = d.buffer ∧ t.driver.lastFrame = t.buffer
  busy : ∀ opportunity policy io t, push opportunity policy io d = .ok .busy t →
    policy = .bail ∧ d.Unrecorded t
  failed : ∀ opportunity policy io stop t, push opportunity policy io d = .error stop t →
    d.Unrecorded t
  unchanged : ∀ policy io mode rest, d.driver.pushes = (mode, d.buffer) :: rest →
    push .inPlace policy io d = .ok .done d
  changed : ∀ policy io mode frame rest, d.driver.pushes = (mode, frame) :: rest →
    frame ≠ d.buffer →
    (final (push .inPlace policy io) d).driver =
        final (Epd.displayWithPolicy io d.buffer .partialUpdate policy) d.driver ∧
      ∀ t, push .inPlace policy io d = .ok .done t →
        t.driver.pushes = (.partialUpdate, d.buffer) :: d.driver.pushes

/-- A display in order tells what is on its panel. -/
theorem Booked.tells (hd : d.Booked) : d.Tells := by
  have hended : ∀ opportunity policy io,
      Ended opportunity policy d (push opportunity policy io d) := fun _ _ _ => push_ended
  have hframe : ∀ mode frame rest, d.driver.pushes = (mode, frame) :: rest →
      d.action .inPlace = if frame = d.buffer then .skip else .push .partialUpdate := by
    intro mode frame rest hpushes
    have hever : d.hasEverPushed = true := by
      rw [hd.hasEverPushed, hpushes]
      exact List.cons_ne_nil _ _
    have hlast : d.driver.lastFrame = frame := by
      rw [hd.lastFrame, hpushes]
      rfl
    rw [action, hever, RefreshPolicy.action_inPlace, Epd.frameDiffers, hlast]
    by_cases hsame : frame = d.buffer
    · simp [hsame]
    · simp [hsame]
  refine ⟨?_, ?_, ?_, ?_, ?_⟩
  · intro opportunity policy io t hpush
    have h := hended opportunity policy io
    rw [hpush] at h
    cases h with
    | skipped haction =>
      exact ⟨rfl, not_not.1 (of_decide_eq_false (RefreshPolicy.unchanged_of_skip haction))⟩
    | recorded _ ht => exact ⟨ht.buffer, ht.lastFrame.trans ht.buffer.symm⟩
  · intro opportunity policy io t hpush
    have h := hended opportunity policy io
    rw [hpush] at h
    cases h with
    | busy hpolicy ht => exact ⟨hpolicy, ht⟩
  · intro opportunity policy io stop t hpush
    have h := hended opportunity policy io
    rw [hpush] at h
    cases h with
    | failed ht => exact ht
  · intro policy io mode rest hpushes
    exact push_of_skip ((hframe mode d.buffer rest hpushes).trans (if_pos rfl))
  · intro policy io mode frame rest hpushes hchanged
    have haction := (hframe mode frame rest hpushes).trans (if_neg hchanged)
    refine ⟨?_, fun t hpush => ?_⟩
    · unfold final EStateM.run
      rw [push_of_push haction]
      rcases Epd.displayWithPolicy io d.buffer .partialUpdate policy d.driver with
        ⟨_ | _, driver⟩ | ⟨stop, driver⟩ <;> rfl
    · have h := hended .inPlace policy io
      rw [hpush] at h
      cases h with
      | skipped hskip => cases haction.symm.trans hskip
      | recorded hmode ht =>
        cases haction.symm.trans hmode
        exact ht.pushes

/-- A push keeps the books, however it ends. -/
theorem Booked.push (hd : d.Booked) : (final (push opportunity policy io) d).Booked := by
  have h : Ended opportunity policy d (Display.push opportunity policy io d) := push_ended
  unfold final EStateM.run
  generalize Display.push opportunity policy io d = result at h
  cases h with
  | skipped _ => exact hd
  | recorded haction ht => exact ht.booked haction hd
  | busy _ ht => exact ht.booked hd
  | failed ht => exact ht.booked hd

/-- A push whose outcome is thrown away leaves the display in order too. -/
theorem Booked.discard (hd : d.Booked) :
    (final (Display.push opportunity policy io >>= fun _ => pure ()) d).Booked := by
  rw [final_discard]
  exact hd.push

/-- A call of the driver that pushes nothing keeps the books. -/
theorem Booked.onDriver {m : Call Unit} (hm : ∀ f l, Keeps (Epd.Books f l) m) (hd : d.Booked) :
    (final (onDriver m) d).Booked := by
  obtain ⟨hlast, hpushes⟩ := (hm _ _).final (s := d.driver) ⟨rfl, rfl⟩
  rw [Display.onDriver, final_zoom]
  have hkept : d.Unrecorded { d with driver := final m d.driver } :=
    ⟨rfl, rfl, rfl, hlast, hpushes⟩
  exact hkept.booked hd

/-- Drawing keeps the books. -/
theorem Booked.draw (hd : d.Booked) (buffer : Frame) : Booked { d with buffer } :=
  ⟨hd.first, hd.partialsSinceFull, hd.hasEverPushed, hd.lastFrame⟩

/-- **One call** keeps the books. -/
theorem step_booked {a : Action} (hd : d.Booked) (hstep : step d a = some t) : t.Booked := by
  cases a with
  | update io | updateTransition io | updateFull io =>
    cases hstep
    exact hd.discard
  | tryUpdate io | tryUpdateTransition io =>
    cases hstep
    exact hd.push
  | sleep io =>
    cases hstep
    exact hd.onDriver fun f l => Epd.inert_books.sleep io
  | wake io =>
    cases hstep
    exact hd.onDriver fun f l => Epd.inert_books.wake (fun _ h => h) io
  | drawIter pixels =>
    cases hstep
    exact hd.draw _
  | fillSolid points on =>
    cases hstep
    exact hd.draw _
  | clear on =>
    cases hstep
    exact hd.draw _

/-- **The wrapper's books are the driver's**, over every sequence of refreshes and drawing calls, and
of sleeps and wakes between them. -/
theorem refresh_booked (shown : Frame) (rotation : Rotation) (acts : List Action) (d : Display)
    (hrun : Automaton.run step (new (Epd.new shown) rotation) acts = some d) :
    d.Booked ∧ d.Tells := by
  have hstart : (new (Epd.new shown) rotation).Booked := by
    refine ⟨fun _ h => ?_, rfl, ⟨fun h => ?_, fun h => absurd rfl h⟩, rfl⟩
    · cases h
    · cases h
  have hd : d.Booked := Automaton.run_invariant (G := fun _ _ => True)
    (fun _ _ _ h _ hs => step_booked h hs) hstart (Automaton.along_of_forall _ fun _ _ => trivial)
    hrun
  exact ⟨hd, hd.tells⟩

/-- A full refresh, a pixel, and a partial one. -/
theorem refresh_booked_pixel :
    ∃ d, Automaton.run step (new (Epd.new (.fill 0x00)) .deg90) [.updateFull (.calm false),
      .drawIter [⟨3, 5, false⟩], .tryUpdate (.calm false)] = some d ∧ d.Booked ∧ d.Tells :=
  ⟨_, rfl, refresh_booked (.fill 0x00) .deg90 [.updateFull (.calm false),
    .drawIter [⟨3, 5, false⟩], .tryUpdate (.calm false)] _ rfl⟩

end Display

end Russignol.EPaper
