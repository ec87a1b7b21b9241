import Russignol.Rpi.LoopActions
import Russignol.Rpi.Screensaver

/-!
# The panel asleep

The screensaver sends the panel to sleep and a wake effect gets it up again. The event loop is
watched for what it pushes in between (`Night`): every action of the loop tells whether it pushes,
`fatal_error` included, and `Phase` is how far the loop is with falling asleep or waking, which
every action keeps.
-/

namespace Russignol

namespace EventLoop

/-! ## What is pushed, and when -/

/-- Whether an effect pushes to the panel: a page that it puts up, or `fatal_error` where it
fails. -/
def paints (io : EffectIo) (c : EventLoop) : Effect → Bool
  | .showPage _ | .showProgress .. | .clearDisplay | .dropCurrentPage | .fatalError .. => true
  | .rebuildSavedPage => c.app.currentPageSpec.isSome
  | .sleep _ => c.needsAnimation && !c.app.isScreensaverActive
  | .emit _ | .exit _ => false
  | .syncDisk | .writeSetupMarker | .setKeyPermissions | .resetActivity => false
  | .spawnKeygen _ | .spawnPinVerify _ | .spawnStorageSetup | .validateWatermarkConfig => false
  | _ => io.fails

/-- Whether an action pushes to the panel before it wakes it. The effects of a shutdown are carried
out as it is handled. -/
def pushes (c : EventLoop) : Action → Bool
  | .post _ => false
  | .handle _ =>
    match c.queue with
    | ⟨.shutdown, _⟩ :: _ =>
      (c.app.handleShutdown.2.takeWhile (· ≠ .wakeDisplay)).any (c.paints ⟨.done, .ok ()⟩)
    | _ => false
  | .effect io =>
    match c.effects with
    | [] | .wakeDisplay :: _ => false
    | e :: _ => c.paints io e
  | .flush _ => c.app.shouldFlushRepaint c.pending
  | .timeout .. =>
    c.needsAnimation && !c.app.isScreensaverActive || c.app.shouldFlushRepaint c.pending

/-- What is noted of the panel: whether it is between an applied `SleepDisplay` and the next
`WakeDisplay`, and whether something was pushed to it there. -/
structure Night where
  asleep : Bool
  painted : Bool
  deriving DecidableEq

/-- The panel after an action. -/
def asleepAfter (c : EventLoop) (asleep : Bool) : Action → Bool
  | .effect io =>
    match c.effects with
    | .sleepDisplay :: _ => asleep || !io.fails
    | .wakeDisplay :: _ => false
    | _ => asleep
  | _ => asleep

section

variable [PageLayout]

/-- The loop, and its panel at night. -/
def night : Automaton.Monitor EventLoop Action Night :=
  watching fun c a n => ⟨c.asleepAfter n.asleep a, n.painted || n.asleep && c.pushes a⟩

/-- While the screensaver is on, no event is handled that paints without a wake, and no watermark
update fails. -/
def Wakeful (c : EventLoop) : Action → Prop
  | .handle _ => c.app.isScreensaverActive = true →
    ∀ w ∈ c.queue.head?, w.event.unwaking c.app.currentPageModal = false
  | .effect io => c.app.isScreensaverActive = true →
    ∀ e ∈ c.effects.head?, e.isUpdate = true → io.fails = false
  | _ => True

/-- How a night goes: the panel is awake, is about to fall asleep, sleeps, or is about to wake. -/
inductive Phase (c : EventLoop) : Bool → Prop
  | awake : c.app.isScreensaverActive = false → .sleepDisplay ∉ c.effects → Phase c false
  | dropping : c.app.isScreensaverActive = true → c.effects = [.dropCurrentPage, .sleepDisplay] →
    Phase c false
  | falling : c.app.isScreensaverActive = true → c.effects = [.sleepDisplay] → c.pending = .none →
    Phase c false
  | asleep : c.app.isScreensaverActive = true → (∀ e ∈ c.effects, e.isUpdate = true) →
    c.pending ≠ .transition → Phase c true
  | waking {effects : List Effect} : c.app.isScreensaverActive = false →
    c.effects = .wakeDisplay :: effects → .sleepDisplay ∉ effects → Phase c true

section

omit [PageLayout]

variable {c c' : EventLoop}

theorem flush_pending (push : UpdateOutcome) (h : c.pending ≠ .transition) :
    (c.flush push).pending ≠ .transition := by
  unfold flush
  dsimp only
  split
  · cases hpending : c.pending with
    | none => simp
    | inPlace => cases push <;> simp [tryRenderPage, PendingRender.record]
    | transition => exact absurd hpending h
  · simp

/-- Behind the screensaver only a transition is still due. -/
theorem shouldFlushRepaint_asleep {app : App} {pending : PendingRender}
    (happ : app.isScreensaverActive = true) (hpending : pending ≠ .transition) :
    app.shouldFlushRepaint pending = false := by
  cases pending with
  | none => rfl
  | inPlace => simp [App.shouldFlushRepaint, App.shouldRepaintOnInvalidate, happ]
  | transition => exact absurd rfl hpending

namespace Phase

/-- What the phase depends on. -/
theorem congr {asleep : Bool} (h : Phase c asleep)
    (happ : c'.app.isScreensaverActive = c.app.isScreensaverActive)
    (heffects : c'.effects = c.effects) (hpending : c'.pending = c.pending) : Phase c' asleep := by
  cases h with
  | awake hactive hsleep => exact .awake (happ.trans hactive) (heffects ▸ hsleep)
  | dropping hactive hdrop => exact .dropping (happ.trans hactive) (heffects.trans hdrop)
  | falling hactive hfall hnone =>
    exact .falling (happ.trans hactive) (heffects.trans hfall) (hpending.trans hnone)
  | asleep hactive hupdate htransition =>
    exact .asleep (happ.trans hactive) (heffects ▸ hupdate) (hpending ▸ htransition)
  | waking hactive hwake hsleep => exact .waking (happ.trans hactive) (heffects.trans hwake) hsleep

/-- Between two events the panel sleeps exactly while the screensaver is on. -/
theorem asleep_iff {asleep : Bool} (h : Phase c asleep) (heffects : c.effects = []) :
    asleep = c.app.isScreensaverActive := by
  cases h with
  | awake hactive => exact hactive.symm
  | asleep hactive => exact hactive.symm
  | dropping _ hdrop => cases hdrop.symm.trans heffects
  | falling _ hfall => cases hfall.symm.trans heffects
  | waking _ hwake => cases hwake.symm.trans heffects

/-- **Nothing is pushed to a panel that sleeps.** -/
theorem pushes {a : Action} (h : Phase c true) (hready : c.ready a = true)
    (hwakeful : c.Wakeful a) : c.pushes a = false := by
  cases h with
  | asleep hactive hupdate hpending =>
    have hflush := shouldFlushRepaint_asleep hactive hpending
    cases a with
    | post => rfl
    | handle io =>
      simp only [EventLoop.pushes]
      split
      · simp [App.handleShutdown, hactive, paints]
      · rfl
    | effect io =>
      cases heffects : c.effects with
      | nil => simp only [EventLoop.pushes, heffects]
      | cons e es =>
        have hfails := hwakeful hactive e (by rw [heffects]; rfl)
        rw [heffects] at hupdate
        have he := hupdate e List.mem_cons_self
        cases e with
        | updateWatermark =>
          simp only [EventLoop.pushes, heffects]
          exact hfails he
        | _ => cases he
    | flush => exact hflush
    | timeout => simp [EventLoop.pushes, hactive, hflush]
  | waking hactive hwake =>
    cases a with
    | post => rfl
    | effect io => simp only [EventLoop.pushes, hwake]
    | handle | flush | timeout => simp [ready, hwake] at hready

/-- A calm list sends nothing to sleep. -/
theorem not_sleepDisplay {effects : List Effect} (h : ∀ e ∈ effects, e.calm = true) :
    .sleepDisplay ∉ effects := by
  intro hmem
  cases h _ hmem

/-- **An effect** leads from one phase to the next. -/
theorem effect {asleep : Bool} {io : EffectIo} {e : Effect} {es : List Effect}
    (h : Phase c asleep) (heffects : c.effects = e :: es) (hwakeful : c.Wakeful (.effect io))
    (hstep : { c with effects := es }.applyEffect io e = some c') :
    Phase c' (c.asleepAfter asleep (.effect io)) := by
  have happ : c'.app.isScreensaverActive = c.app.isScreensaverActive :=
    applyEffect_screensaver (c := { c with effects := es }) hstep
  have hrest : c'.effects = es := (applyEffect_frame hstep).2
  cases h with
  | awake hactive hsleep =>
    rw [heffects] at hsleep
    have hafter : c.asleepAfter false (.effect io) = false := by
      simp only [asleepAfter, heffects]
      cases e with
      | sleepDisplay => exact absurd List.mem_cons_self hsleep
      | _ => rfl
    rw [hafter]
    exact .awake (happ.trans hactive) (hrest ▸ fun hmem => hsleep (List.mem_cons_of_mem _ hmem))
  | dropping hactive hdrop =>
    obtain ⟨rfl, rfl⟩ := List.cons.inj (heffects.symm.trans hdrop)
    have hafter : c.asleepAfter false (.effect io) = false := by
      simp only [asleepAfter, heffects]
    rw [hafter]
    refine .falling (happ.trans hactive) hrest ?_
    cases hstep
    rfl
  | falling hactive hfall hnone =>
    obtain ⟨rfl, rfl⟩ := List.cons.inj (heffects.symm.trans hfall)
    simp only [EventLoop.applyEffect] at hstep
    split at hstep
    · rename_i hresult
      cases hstep
      have hafter : c.asleepAfter false (.effect io) = true := by
        simp [asleepAfter, heffects, EffectIo.fails, hresult]
      rw [hafter]
      exact .asleep hactive (List.forall_mem_nil _) (by simp [hnone])
    · cases hstep
  | asleep hactive hupdate hpending =>
    rw [heffects] at hupdate
    have he := hupdate e List.mem_cons_self
    have hfails := hwakeful hactive e (by rw [heffects]; rfl)
    cases e with
    | updateWatermark pkh chainId level =>
      have hafter : c.asleepAfter true (.effect io) = true := by
        simp only [asleepAfter, heffects]
      rw [hafter]
      refine .asleep (happ.trans hactive)
        (hrest ▸ fun e he => hupdate e (List.mem_cons_of_mem _ he)) ?_
      cases hstep
      have hok := hfails he
      unfold applyWatermarkUpdate
      cases hresult : io.result with
      | ok => exact hpending
      | error => simp [EffectIo.fails, hresult] at hok
    | _ => cases he
  | waking hactive hwake hsleep =>
    obtain ⟨rfl, rfl⟩ := List.cons.inj (heffects.symm.trans hwake)
    have hafter : c.asleepAfter true (.effect io) = false := by
      simp only [asleepAfter, heffects]
    rw [hafter]
    exact .awake (happ.trans hactive) (hrest ▸ hsleep)

/-- **An event** falls asleep, wakes, or keeps the phase. -/
theorem handle [PageLayout] {asleep : Bool} {io : AppIo} (h : Phase c asleep)
    (heffects : c.effects = []) (hwakeful : c.Wakeful (.handle io))
    (hstep : c.handleNext io = some c') : Phase c' asleep := by
  cases handleNext_cases hstep with
  | touched hqueue =>
    refine h.congr ?_ ?_ ?_ <;> (unfold handleTouch; split <;> rfl)
  | skipped => exact h.congr rfl rfl rfl
  | invalidated hqueue =>
    cases h with
    | awake hactive hsleep => exact .awake hactive hsleep
    | asleep hactive hupdate hpending =>
      refine .asleep hactive hupdate ?_
      cases hc : c.pending with
      | transition => exact absurd hc hpending
      | _ => simp [PendingRender.record]
    | dropping _ hdrop => cases hdrop.symm.trans heffects
    | falling _ hfall => cases hfall.symm.trans heffects
    | waking _ hwake => cases hwake.symm.trans heffects
  | @proceeded event panel queue updates hqueue _ hproceed =>
    have hasleep := h.asleep_iff heffects
    have hunwaking : c.app.isScreensaverActive = true →
        event.unwaking c.app.currentPageModal = false :=
      fun hactive => hwakeful hactive ⟨event, panel⟩ (by rw [hqueue]; rfl)
    have hresponse := App.handleEvent_response hproceed
    clear hstep
    generalize (c.app.handleEvent io event).1 = app at hresponse ⊢
    generalize (c.app.handleEvent io event).2.2 = effects at hresponse ⊢
    cases hresponse with
    | same hstate hcalm hupdates =>
      cases h with
      | awake hactive => exact .awake (hstate.trans hactive) (not_sleepDisplay hcalm)
      | asleep hactive _ hpending =>
        exact .asleep (hstate.trans hactive) (hupdates hactive (hunwaking hactive)) hpending
      | dropping _ hdrop => cases hdrop.symm.trans heffects
      | falling _ hfall => cases hfall.symm.trans heffects
      | waking _ hwake => cases hwake.symm.trans heffects
    | locked happ happ' =>
      obtain rfl : asleep = false := hasleep.trans happ
      exact .awake happ' (by simp)
    | asleep happ happ' =>
      obtain rfl : asleep = false := hasleep.trans happ
      exact .dropping happ' rfl
    | woken happ happ' hcalm _ =>
      obtain rfl : asleep = true := hasleep.trans happ
      exact .waking happ' rfl (not_sleepDisplay hcalm)

/-- The end of a turn keeps the phase. -/
theorem flush {asleep : Bool} (h : Phase c asleep) (heffects : c.effects = [])
    (push : UpdateOutcome) : Phase (c.flush push) asleep := by
  have happ := c.flush_app push
  have hrest := (c.flush_effects push).trans heffects
  cases h with
  | awake hactive => exact .awake (happ ▸ hactive) (hrest ▸ List.not_mem_nil)
  | asleep hactive _ hpending =>
    exact .asleep (happ ▸ hactive) (hrest ▸ List.forall_mem_nil _) (flush_pending push hpending)
  | dropping _ hdrop => cases hdrop.symm.trans heffects
  | falling _ hfall => cases hfall.symm.trans heffects
  | waking _ hwake => cases hwake.symm.trans heffects

/-- **One step of the loop** leads from phase to phase. -/
theorem step [PageLayout] {asleep : Bool} {a : Action} (h : Phase c asleep)
    (hwakeful : c.Wakeful a) (hstep : c.step a = some c') : Phase c' (c.asleepAfter asleep a) := by
  cases a with
  | post event =>
    simp only [EventLoop.step] at hstep
    split at hstep <;> cases hstep
    exact h.congr rfl rfl rfl
  | handle io =>
    simp only [EventLoop.step] at hstep
    split at hstep
    · rename_i heffects
      exact h.handle (List.isEmpty_iff.1 heffects) hwakeful hstep
    · cases hstep
  | effect io =>
    simp only [EventLoop.step] at hstep
    cases heffects : c.effects with
    | nil =>
      simp only [heffects] at hstep
      cases hstep
    | cons e es =>
      simp only [heffects] at hstep
      exact h.effect heffects hwakeful hstep
  | flush push =>
    simp only [EventLoop.step] at hstep
    split at hstep <;> cases hstep
    rename_i hready
    simp only [Bool.and_eq_true, List.isEmpty_iff] at hready
    exact (h.flush hready.1.1 push).congr rfl rfl rfl
  | timeout animation push =>
    simp only [EventLoop.step] at hstep
    split at hstep <;> cases hstep
    rename_i hready
    simp only [Bool.and_eq_true, List.isEmpty_iff] at hready
    have hanimate : Phase (c.animate animation) asleep := by
      refine h.congr ?_ ?_ ?_
      · simp
      · simp
      · simp
    exact hanimate.flush (by simp [hready.1.1]) push

end Phase

end

/-- **Nothing is painted on a sleeping panel.** In a run in which, while the screensaver is on, no
event that paints without a wake is handled and no watermark update fails: nothing is pushed to the
panel between `SleepDisplay` and `WakeDisplay`, and between two events it sleeps exactly while the
screensaver is on. -/
theorem nothing_painted (isFirstBoot : Bool) (touches : List (Int × Int)) (acts : List Action)
    (w : Automaton.Watched EventLoop Night)
    (hwakeful : Automaton.Along night.watch (Automaton.Monitor.When fun c _ a => c.Wakeful a)
      ⟨some (start isFirstBoot touches), ⟨false, false⟩⟩ acts)
    (h : Automaton.run night.watch ⟨some (start isFirstBoot touches), ⟨false, false⟩⟩ acts =
      some w) :
    w.notes.painted = false ∧
      ∀ c ∈ w.state, c.effects = [] → w.notes.asleep = c.app.isScreensaverActive := by
  have hstart : (start isFirstBoot touches).Phase false := by
    cases isFirstBoot <;> exact .awake rfl List.not_mem_nil
  have hstep : ∀ (c : EventLoop) (n : Night) (a : Action), c.Phase n.asleep → n.painted = false →
      c.Wakeful a → c.ready a = true → (night.note c a n).painted = false ∧
        ∀ c', c.step a = some c' → c'.Phase (night.note c a n).asleep := by
    intro c n a hphase hpainted hcond hready
    refine ⟨?_, fun c' hc' => hphase.step hcond hc'⟩
    show (n.painted || n.asleep && c.pushes a) = false
    rw [hpainted]
    cases hasleep : n.asleep with
    | false => rfl
    | true => exact (hasleep ▸ hphase).pushes hready hcond
  obtain ⟨hpainted, hphase⟩ := Automaton.Monitor.watch_invariant
    (I := fun c n => c.Phase n.asleep) (P := fun n => n.painted = false) hstep
    ⟨rfl, by rintro _ ⟨⟩; exact hstart⟩ hwakeful h
  exact ⟨hpainted, fun c hc heffects => (hphase c hc).asleep_iff heffects⟩

instance (c : EventLoop) (a : Action) : Decidable (c.Wakeful a) :=
  match a with
  | .handle _ => inferInstanceAs (Decidable (c.app.isScreensaverActive = true →
      ∀ w ∈ c.queue.head?, w.event.unwaking c.app.currentPageModal = false))
  | .effect io => inferInstanceAs (Decidable (c.app.isScreensaverActive = true →
      ∀ e ∈ c.effects.head?, e.isUpdate = true → io.fails = false))
  | .post _ | .flush _ | .timeout .. => isTrue trivial

end

/-- A panel with the first button of the menu in its upper half. -/
@[reducible] def menuLayout : PageLayout where
  buttonAt spec _ y :=
    match spec with
    | .menu => if y < 61 then some 0 else none
    | _ => none

/-- A night: the timer fires, the signer asks for repaints, and a touch wakes the panel. -/
def nightRun : List Action :=
  unlockRun ++ [.post .activateScreensaver, .handle ⟨0, false⟩, .effect quiet, .effect quiet,
    .flush .done, .post .invalidate, .handle ⟨0, false⟩, .flush .done, .post (.touch 60 30),
    .handle ⟨0, false⟩, .handle ⟨0, false⟩, .effect quiet, .effect quiet, .effect quiet,
    .flush .done]

/-- The timer fires between a touch of the menu and the event of its button. -/
def behindRun : List Action :=
  unlockRun ++ [.post (.touch 60 30), .post .activateScreensaver, .handle ⟨0, false⟩,
    .handle ⟨0, false⟩, .effect quiet, .effect quiet, .handle ⟨0, false⟩, .effect quiet]

section

attribute [local instance] menuLayout

/-- A night without a page is dark. -/
theorem nothing_painted_night : ∃ w, Automaton.run night.watch
    ⟨some (start false []), ⟨false, false⟩⟩ nightRun = some w ∧ w.notes.painted = false ∧
      ∀ c ∈ w.state, c.effects = [] → w.notes.asleep = c.app.isScreensaverActive := by
  have hnotes : (Automaton.run night.watch ⟨some (start false []), ⟨false, false⟩⟩ nightRun).map
      (·.notes) = some ⟨false, false⟩ := by decide +kernel
  obtain ⟨w, hrun, -⟩ := Option.map_eq_some_iff.1 hnotes
  exact ⟨w, hrun, nothing_painted false [] nightRun w (by decide +kernel) hrun⟩

end

/-- **A page of the menu is painted on the sleeping panel.** -/
theorem painted_asleep : ¬∀ [PageLayout] (isFirstBoot : Bool) (touches : List (Int × Int))
    (acts : List Action) (w : Automaton.Watched EventLoop Night),
    Automaton.run night.watch ⟨some (start isFirstBoot touches), ⟨false, false⟩⟩ acts = some w →
      w.notes.painted = false ∧
        ∀ c ∈ w.state, c.effects = [] → w.notes.asleep = c.app.isScreensaverActive := by
  intro hall
  have hpainted : (Automaton.run (@night menuLayout).watch
      ⟨some (start false []), ⟨false, false⟩⟩ behindRun).map (·.notes) = some ⟨true, true⟩ := by
    decide +kernel
  obtain ⟨w, hrun, hnotes⟩ := Option.map_eq_some_iff.1 hpainted
  have hnone := (@hall menuLayout _ _ _ w hrun).1
  rw [hnotes] at hnone
  cases hnone

end EventLoop

end Russignol
