import Russignol.Base.Monitor
import Russignol.Rpi.EventLoop

/-!
# The actions of the event loop, one by one

When the loop is ready for an action, what a turn of `drain_events` comes to (`Handled`), and what
the pushes, the effects and the end of a turn leave as it was.
-/

namespace Russignol

/-- Whether what an effect does fails. -/
def EffectIo.fails (io : EffectIo) : Bool :=
  match io.result with
  | .ok () => false
  | .error _ => true

namespace EventLoop

/-- Whether the loop can take an action now. -/
def ready (c : EventLoop) : Action → Bool
  | .post event => event.update?.isNone
  | .handle _ => c.effects.isEmpty && !c.queue.isEmpty
  | .effect _ => !c.effects.isEmpty
  | .flush _ => c.effects.isEmpty && c.draining && c.queue.isEmpty
  | .timeout .. => c.effects.isEmpty && !c.draining && c.queue.isEmpty

section

variable [PageLayout]

/-- The loop, with notes on its actions. -/
def watching {τ : Type} (note : EventLoop → Action → τ → τ) :
    Automaton.Monitor EventLoop Action τ where
  open? := ready
  step := step
  note := note

/-- A turn of `drain_events` that the loop goes on after. -/
inductive Handled (io : AppIo) (c : EventLoop) : EventLoop → Prop
  | touched {x y : Int} {panel : Screen} {queue : List Waiting} :
    c.queue = ⟨.touch x y, panel⟩ :: queue →
    Handled io c ({ c with queue, draining := true }.handleTouch x y panel)
  | invalidated {panel : Screen} {queue : List Waiting} :
    c.queue = ⟨.invalidate, panel⟩ :: queue →
    Handled io c { c with queue, draining := true, pending := c.pending.record .inPlace }
  | skipped {w : Waiting} {queue : List Waiting} {updates : List (Update × Screen)} :
    c.queue = w :: queue → w.event ≠ .invalidate →
    Handled io c { c with queue, draining := true, updates }
  | proceeded {event : AppEvent} {panel : Screen} {queue : List Waiting}
    {updates : List (Update × Screen)} : c.queue = ⟨event, panel⟩ :: queue → event ≠ .invalidate →
    (c.app.handleEvent io event).2.1 = .proceed →
    Handled io c
      { c with
        queue, draining := true, updates, app := (c.app.handleEvent io event).1
        effects := (c.app.handleEvent io event).2.2 }

/-- **Every turn is one of these.** -/
theorem handleNext_cases {io : AppIo} {c c' : EventLoop} (h : c.handleNext io = some c') :
    Handled io c c' := by
  unfold handleNext at h
  cases hqueue : c.queue with
  | nil =>
    simp only [hqueue] at h
    cases h
  | cons w queue =>
    obtain ⟨event, panel⟩ := w
    simp only [hqueue] at h
    cases event with
    | touch x y =>
      cases h
      exact .touched hqueue
    | invalidate =>
      cases h
      exact .invalidated hqueue
    | _ =>
      dsimp only at h
      split at h
      · rename_i hcontinue
        cases h
        rw [App.handleEvent_skipped hcontinue]
        exact .skipped hqueue AppEvent.noConfusion
      · cases h
      · rename_i hproceed
        cases h
        exact .proceeded hqueue AppEvent.noConfusion hproceed

end

section

variable {c c' : EventLoop}

/-- A push leaves the state of the app. -/
@[simp] theorem tryRenderPage_app (push : UpdateOutcome) : (c.tryRenderPage push).app = c.app := by
  cases push <;> rfl

/-- A push leaves the effects that are waiting. -/
@[simp] theorem tryRenderPage_effects (push : UpdateOutcome) :
    (c.tryRenderPage push).effects = c.effects := by
  cases push <;> rfl

/-- A push of a transition leaves the state of the app. -/
@[simp] theorem tryRenderPageTransition_app (push : UpdateOutcome) :
    (c.tryRenderPageTransition push).app = c.app := by
  cases push <;> rfl

/-- A push of a transition leaves the effects that are waiting. -/
@[simp] theorem tryRenderPageTransition_effects (push : UpdateOutcome) :
    (c.tryRenderPageTransition push).effects = c.effects := by
  cases push <;> rfl

/-- An animation tick leaves the state of the app. -/
@[simp] theorem animate_app (push : UpdateOutcome) : (c.animate push).app = c.app := by
  unfold animate
  split
  · exact c.tryRenderPage_app push
  · rfl

/-- An animation tick leaves the effects that are waiting. -/
@[simp] theorem animate_effects (push : UpdateOutcome) : (c.animate push).effects = c.effects := by
  unfold animate
  split
  · exact c.tryRenderPage_effects push
  · rfl

/-- An effect leaves the state of the device and the effects behind it. -/
theorem applyEffect_frame {io : EffectIo} {e : Effect} (h : c.applyEffect io e = some c') :
    c'.app.state = c.app.state ∧ c'.effects = c.effects := by
  cases e with
  | showPage spec =>
    by_cases hlocked : spec = .deviceLocked
    · subst hlocked
      cases h
      exact ⟨rfl, rfl⟩
    · rw [applyEffect_showPage hlocked] at h
      cases h
      simp [putUp]
  | showProgress =>
    cases h
    simp
  | updateWatermark =>
    cases h
    unfold applyWatermarkUpdate
    split <;> simp [send]
  | rebuildSavedPage =>
    simp only [applyEffect] at h
    split at h <;> cases h
    · exact ⟨rfl, rfl⟩
    · simp [putUp]
  | sleep duration =>
    cases h
    simp
  | wakeDisplay | sleepDisplay | sleepDevice | startSigner | initWatermark | dropPrivileges
  | remountKeysReadonly | processWatermarkConfig | verifyStorage =>
    simp only [applyEffect] at h
    split at h <;> cases h
    exact ⟨rfl, rfl⟩
  | fatalError | exit => cases h
  | _ =>
    cases h
    exact ⟨rfl, rfl⟩

/-- So it leaves the screensaver. -/
theorem applyEffect_screensaver {io : EffectIo} {e : Effect} (h : c.applyEffect io e = some c') :
    c'.app.isScreensaverActive = c.app.isScreensaverActive := by
  unfold App.isScreensaverActive
  rw [(applyEffect_frame h).1]

/-- An animation tick leaves the page that is up. -/
@[simp] theorem animate_page (push : UpdateOutcome) : (c.animate push).page = c.page := by
  unfold animate
  split
  · cases push <;> rfl
  · rfl

/-- An animation tick leaves the events that are waiting. -/
@[simp] theorem animate_queue (push : UpdateOutcome) : (c.animate push).queue = c.queue := by
  unfold animate
  split
  · cases push <;> rfl
  · rfl

/-- An animation tick leaves the renders that are pending. -/
@[simp] theorem animate_pending (push : UpdateOutcome) : (c.animate push).pending = c.pending := by
  unfold animate
  split
  · cases push <;> rfl
  · rfl

/-- The deferred render leaves the application alone, and defers no more than was deferred. -/
@[simp] theorem flush_app (push : UpdateOutcome) : (c.flush push).app = c.app := by
  unfold flush
  dsimp only
  split
  · cases c.pending <;> cases push <;> rfl
  · rfl

/-- The flush of a pending render leaves the page that is up. -/
@[simp] theorem flush_page (push : UpdateOutcome) : (c.flush push).page = c.page := by
  unfold flush
  dsimp only
  split
  · cases c.pending <;> cases push <;> rfl
  · rfl

/-- The flush of a pending render leaves the events that are waiting. -/
@[simp] theorem flush_queue (push : UpdateOutcome) : (c.flush push).queue = c.queue := by
  unfold flush
  dsimp only
  split
  · cases c.pending <;> cases push <;> rfl
  · rfl

/-- The flush of a pending render leaves the effects that are waiting. -/
@[simp] theorem flush_effects (push : UpdateOutcome) : (c.flush push).effects = c.effects := by
  unfold flush
  dsimp only
  split
  · cases c.pending <;> cases push <;> rfl
  · rfl

end

end EventLoop

end Russignol
