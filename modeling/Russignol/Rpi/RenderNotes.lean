import Russignol.Rpi.LoopActions

/-!
# What a run says of its renders

A push that meets a panel in the middle of a refresh gives up, and the event loop keeps in
`pending_render` that one is due. `Renders` is what is noted of the requests and the pushes of a
run: the strongest request that no push has answered, and whether a `Sleep` or an `Exit` came
behind a frame of its effect list that was not pushed.
-/

namespace Russignol

namespace PendingRender

/-- The order of escalation: what is recorded on top of something covers it. -/
instance : LE PendingRender := ⟨fun a b => a.record b = b⟩

variable {a b k : PendingRender}

/-- Nothing is recorded below every render. -/
theorem none_le : none ≤ b := by cases b <;> rfl

/-- What is covered by no render is none. -/
theorem le_none (h : a ≤ none) : a = none := by cases a <;> first | rfl | cases h

/-- What covers a render still does with one more recorded. -/
theorem le_record (h : a ≤ b) : a ≤ b.record k := by
  cases a <;> cases b <;> cases k <;> first | rfl | cases h

/-- The same record on both sides keeps the order. -/
theorem record_le_record (h : a ≤ b) : a.record k ≤ b.record k := by
  cases a <;> cases b <;> cases k <;> first | rfl | cases h

/-- A transition recorded on both sides puts them in order, since nothing is stronger. -/
theorem record_le_record_transition : a.record .transition ≤ b.record .transition := by
  cases a <;> cases b <;> rfl

/-- What is empty after a record was empty before. -/
theorem record_eq_none (h : a.record k = none) : a = none := by
  cases a <;> cases k <;> first | rfl | cases h

end PendingRender

/-- What is noted of the renders: the strongest one requested since the last push; of the effect
list at hand, whether the frame it showed last is still to be pushed, and whether one before was
never pushed; and whether a `Sleep` or an `Exit` came behind such a frame. -/
structure Renders where
  owed : PendingRender
  due : Bool
  missed : Bool
  lost : Bool
  deriving DecidableEq

namespace Renders

/-- Nothing was requested yet. -/
def blank : Renders := ⟨.none, false, false, false⟩

/-- The page that is up was pushed. -/
def pushed (r : Renders) : Renders := { r with owed := .none, due := false }

/-- A push that is not kept where it meets a busy panel. -/
def tick (push : UpdateOutcome) (r : Renders) : Renders :=
  match push with
  | .done => r.pushed
  | .busy => r

/-- A page or a progress frame, with its push. -/
def shown (push : UpdateOutcome) (r : Renders) : Renders :=
  match push with
  | .done => { r with missed := r.missed || r.due }.pushed
  | .busy => { r with owed := r.owed.record .transition, missed := r.missed || r.due, due := true }

/-- The end of a `Sleep`, or of the process. -/
def passed (r : Renders) : Renders := { r with lost := r.lost || r.due || r.missed }

/-- A push outside an effect list loses no frame for good. -/
@[simp] theorem tick_lost (push : UpdateOutcome) (r : Renders) : (r.tick push).lost = r.lost := by
  cases push <;> rfl

/-- A push outside an effect list leaves what was missed in one. -/
@[simp] theorem tick_missed (push : UpdateOutcome) (r : Renders) :
    (r.tick push).missed = r.missed := by
  cases push <;> rfl

/-- That a page is shown loses no frame: only a `Sleep` or an `Exit` behind it does. -/
@[simp] theorem shown_lost (push : UpdateOutcome) (r : Renders) : (r.shown push).lost = r.lost := by
  cases push <;> rfl

/-- A frame that the panel takes leaves nothing behind, where nothing was left before. -/
theorem shown_clear {r : Renders} (h : r.missed = false ∧ r.due = false) :
    (r.shown .done).missed = false ∧ (r.shown .done).due = false := by
  simp [shown, pushed, h.1, h.2]

end Renders

/-- A `Sleep` or an `Exit`. -/
def Effect.waits : Effect → Bool
  | .sleep _ | .exit _ => true
  | _ => false

namespace EventLoop

/-- Whether an effect puts a page or a progress frame up with a push that may be deferred. -/
def defers (io : EffectIo) (c : EventLoop) : Effect → Bool
  | .showPage .deviceLocked => false
  | .showPage _ | .showProgress .. => true
  | .rebuildSavedPage => c.app.currentPageSpec.isSome
  | .updateWatermark .. => io.fails
  | _ => false

/-- What is noted of an animation tick. -/
def noteAnimation (push : UpdateOutcome) (c : EventLoop) (r : Renders) : Renders :=
  if c.needsAnimation && !c.app.isScreensaverActive then r.tick push else r

/-- An animation tick loses no frame for good. -/
@[simp] theorem noteAnimation_lost (push : UpdateOutcome) (c : EventLoop) (r : Renders) :
    (c.noteAnimation push r).lost = r.lost := by
  unfold noteAnimation
  split
  · exact r.tick_lost push
  · rfl

/-- An animation tick leaves what was missed in an effect list. -/
@[simp] theorem noteAnimation_missed (push : UpdateOutcome) (c : EventLoop) (r : Renders) :
    (c.noteAnimation push r).missed = r.missed := by
  unfold noteAnimation
  split
  · exact r.tick_missed push
  · rfl

/-- What is noted of the end of a turn. -/
def noteFlush (push : UpdateOutcome) (c : EventLoop) (r : Renders) : Renders :=
  if c.app.shouldFlushRepaint c.pending then r.tick push else r

/-- The flush of a pending render loses no frame for good. -/
@[simp] theorem noteFlush_lost (push : UpdateOutcome) (c : EventLoop) (r : Renders) :
    (c.noteFlush push r).lost = r.lost := by
  unfold noteFlush
  split
  · exact r.tick_lost push
  · rfl

/-- What is noted of an effect. -/
def noteEffect (io : EffectIo) (c : EventLoop) (e : Effect) (r : Renders) : Renders :=
  match e with
  -- these two wait until the panel took the frame
  | .showPage .deviceLocked => { r with missed := r.missed || r.due, due := false }
  | .dropCurrentPage => { r with missed := r.missed || r.due }.pushed
  | .sleep _ => (c.noteAnimation io.push r).passed
  | .exit _ => r.passed
  | e => if c.defers io e then r.shown io.push else r

/-- A page other than `DeviceLocked` is noted as shown, with its push. -/
theorem noteEffect_showPage {io : EffectIo} {c : EventLoop} {r : Renders} {spec : PageSpec}
    (h : spec ≠ .deviceLocked) : c.noteEffect io (.showPage spec) r = r.shown io.push := by
  cases spec with
  | deviceLocked => exact absurd rfl h
  | _ => rfl

/-- What is noted of an event: a new effect list, and the repaint that an `Invalidate` requests. The
screensaver has nothing to repaint. -/
def noteEvent (c : EventLoop) (r : Renders) : Renders :=
  match c.queue with
  | ⟨.invalidate, _⟩ :: _ =>
    { r with
      owed := if c.page = .screensaver then r.owed else r.owed.record .inPlace
      due := false
      missed := false }
  | _ => { r with due := false, missed := false }

/-- What is noted of an action. -/
def noteRender (c : EventLoop) (a : Action) (r : Renders) : Renders :=
  match a with
  | .post _ => r
  | .handle _ => c.noteEvent r
  | .effect io =>
    match c.effects with
    | [] => r
    | e :: _ => c.noteEffect io e r
  | .flush push => c.noteFlush push r
  | .timeout animation push => c.noteFlush push (c.noteAnimation animation r)

/-- An event other than an invalidation opens a new effect list, and requests no render itself. -/
theorem noteEvent_of_ne {c : EventLoop} {r : Renders} {w : Waiting} {queue : List Waiting}
    (hqueue : c.queue = w :: queue) (h : w.event ≠ .invalidate) :
    c.noteEvent r = { r with due := false, missed := false } := by
  unfold noteEvent
  rw [hqueue]
  obtain ⟨event, panel⟩ := w
  cases event with
  | invalidate => exact absurd rfl h
  | _ => rfl

variable [PageLayout]

/-- The loop, and its renders. -/
def rendering : Automaton.Monitor EventLoop Action Renders := watching noteRender

end EventLoop

end Russignol
