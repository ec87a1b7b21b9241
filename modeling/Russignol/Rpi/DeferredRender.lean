import Russignol.Rpi.RenderNotes
import Russignol.Rpi.Screensaver

/-!
# A render that is owed is deferred

Between two events the pending render covers what is owed and the page that is up is on the panel
where nothing is (`Settled`), or the screensaver is on: a repaint behind it is dropped, and a wake
puts the saved page up. Without a saved page the screensaver stays up after the wake, with nothing
owed (`Behind`): a page that asks for a watermark update is a saved one, so that no failed update
puts a dialog up before (`Silent`). `Going` is what every step keeps.
-/

namespace Russignol

/-- An effect that leaves the panel to the page that is up. -/
def Effect.orderly : Effect → Bool
  | .clearDisplay | .showPage .deviceLocked => false
  | _ => true

/-- A calm effect leaves the panel to the page that is up. -/
theorem orderly_of_calm {e : Effect} (h : e.calm = true) : e.orderly = true := by
  cases e with
  | clearDisplay => cases h
  | showPage spec =>
    cases spec with
    | deviceLocked => cases h
    | _ => rfl
  | _ => rfl

/-- A progress frame. -/
def Effect.isProgress : Effect → Bool
  | .showProgress .. => true
  | _ => false

/-- An effect that neither carries a watermark update out nor sends one. -/
def Effect.Silent : Effect → Prop
  | .updateWatermark .. => False
  | .emit event => event.update? = none
  | _ => True

/-- A page no button of which asks for a watermark update. -/
def Screen.Silent (s : Screen) : Prop :=
  ∀ spec, s = .page spec → ∀ e ∈ spec.buttons, e.update? = none

/-- The progress page has no buttons. -/
theorem Screen.silent_progress : Screen.progress.Silent := fun _ heq => by cases heq

/-- The screensaver has no buttons. -/
theorem Screen.silent_screensaver : Screen.screensaver.Silent := fun _ heq => by cases heq

namespace App

/-- What an event other than an update asks for is silent. -/
theorem handleEvent_silent {io : AppIo} {app : App} {event : AppEvent}
    (h : event.update? = none) : ∀ e ∈ (app.handleEvent io event).2.2, e.Silent := by
  intro e he
  have hfaithful := handleEvent_faithful he
  cases e with
  | updateWatermark pkh chainId level =>
    rw [(handleEvent_update he).1] at h
    cases h
  | emit event' => exact hfaithful.2
  | _ => trivial

/-- Behind the screensaver no progress is shown. -/
theorem handleEvent_progress {io : AppIo} {app : App} {event : AppEvent}
    (h : app.isScreensaverActive = true) :
    ∀ e ∈ (app.handleEvent io event).2.2, e.isProgress = false := by
  have hstate := isScreensaverActive_iff.1 h
  intro e he
  unfold handleEvent at he
  cases event with
  | shutdown =>
    simp only [handleShutdown, h, if_true, List.mem_append, List.mem_cons, List.not_mem_nil,
      or_false] at he
    rcases he with (rfl | rfl) | rfl | rfl <;> rfl
  | fatalError =>
    rw [List.mem_singleton.1 he]
    rfl
  | _ =>
    simp only [hstate] at he
    have hsigning := handleActive_signing he
    cases e with
    | showProgress => cases hsigning
    | _ => rfl

end App

namespace EventLoop

/-- A render that is owed is deferred, and where none is owed the page that is up is on the
panel. -/
structure Settled (c : EventLoop) (owed : PendingRender) : Prop where
  covered : owed ≤ c.pending
  onPanel : owed = .none → c.panel = c.page

namespace Settled

variable {c c' : EventLoop} {r : Renders}

/-- It is said of what is pending, the panel and the page. -/
theorem congr {owed : PendingRender} (h : Settled c owed) (hpending : c'.pending = c.pending)
    (hpanel : c'.panel = c.panel) (hpage : c'.page = c.page) : Settled c' owed where
  covered := hpending ▸ h.covered
  onPanel hnone := by rw [hpanel, hpage, h.onPanel hnone]

/-- After a push nothing is owed. -/
theorem of_push (h : c.panel = c.page) : Settled c .none := ⟨PendingRender.none_le, fun _ => h⟩

/-- A page that is put up is on the panel, or deferred. -/
theorem shown (push : UpdateOutcome) :
    Settled (c.tryRenderPageTransition push) (r.shown push).owed := by
  cases push with
  | done => exact of_push rfl
  | busy =>
    refine ⟨?_, fun hnone => ?_⟩
    · exact PendingRender.record_le_record_transition
    · cases howed : r.owed <;> simp [Renders.shown, howed, PendingRender.record] at hnone

/-- An animation tick that meets a busy panel changes nothing. -/
theorem animate (h : Settled c r.owed) (push : UpdateOutcome) :
    Settled (c.animate push) (c.noteAnimation push r).owed := by
  unfold EventLoop.animate noteAnimation
  split
  · cases push with
    | done => exact of_push rfl
    | busy => exact h
  · exact h

/-- The end of a turn takes the pending render, and keeps it where the panel is busy. Behind the
screensaver it drops a repaint. -/
theorem flush (h : Settled c r.owed) (push : UpdateOutcome)
    (hactive : c.app.isScreensaverActive = true → r.owed = .none) :
    Settled (c.flush push) (c.noteFlush push r).owed := by
  have hcovered := h.covered
  cases hpending : c.pending with
  | none =>
    rw [hpending] at hcovered
    have hnone := PendingRender.le_none hcovered
    simp only [EventLoop.flush, noteFlush, hpending, App.shouldFlushRepaint, Bool.false_eq_true,
      if_false]
    rw [hnone]
    exact of_push (h.onPanel hnone)
  | inPlace =>
    rw [hpending] at hcovered
    cases hscreensaver : c.app.isScreensaverActive with
    | true =>
      have hnone := hactive hscreensaver
      simp only [EventLoop.flush, noteFlush, hpending, App.shouldFlushRepaint,
        App.shouldRepaintOnInvalidate, hscreensaver, Bool.not_true, Bool.false_eq_true, if_false]
      rw [hnone]
      exact of_push (h.onPanel hnone)
    | false =>
      simp only [EventLoop.flush, noteFlush, hpending, App.shouldFlushRepaint,
        App.shouldRepaintOnInvalidate, hscreensaver, Bool.not_false, if_true]
      cases push with
      | done => exact of_push rfl
      | busy => exact ⟨hcovered, h.onPanel⟩
  | transition =>
    rw [hpending] at hcovered
    simp only [EventLoop.flush, noteFlush, hpending, App.shouldFlushRepaint, if_true]
    cases push with
    | done => exact of_push rfl
    | busy => exact ⟨hcovered, h.onPanel⟩

end Settled

/-! ## What is behind the screensaver -/

/-- Before a page was saved no watermark update is on its way: none waits, none is about to be sent
or carried out, and no button of the page that is up asks for one. -/
structure Silent (c : EventLoop) : Prop where
  queue : ∀ w ∈ c.queue, w.event.update? = none
  effects : ∀ e ∈ c.effects, e.Silent
  page : c.page.Silent

namespace Silent

variable {c c' : EventLoop}

/-- It is said of the queue, the effects and the page. -/
theorem congr (h : c.Silent) (hqueue : c'.queue = c.queue) (heffects : c'.effects = c.effects)
    (hpage : c'.page = c.page) : c'.Silent where
  queue := hqueue ▸ h.queue
  effects := heffects ▸ h.effects
  page := hpage ▸ h.page

/-- An event that enters the channel. -/
theorem enqueue (h : c.Silent) {w : Waiting} (hw : w.event.update? = none) :
    Silent { c with queue := c.queue ++ [w] } where
  queue := by
    intro w' hw'
    rcases List.mem_append.1 hw' with hw' | hw'
    · exact h.queue w' hw'
    · rw [List.mem_singleton.1 hw']
      exact hw
  effects := h.effects
  page := h.page

end Silent

/-- The panel shows the screensaver, with nothing owed. -/
structure Behind (c : EventLoop) (owed : PendingRender) : Prop where
  page : c.page = .screensaver
  panel : c.panel = .screensaver
  owed : owed = .none

/-- The screensaver is on, or a page is about to be put up over it, and a page is saved. -/
def Waking (c : EventLoop) : Prop :=
  c.app.currentPageSpec.isSome = true ∧
    (c.app.isScreensaverActive = true ∨ ∃ e ∈ c.effects, e.raises = true)

/-- What holds of the effects that are still to be carried out, on a device that does not exit. -/
structure Tidy (c : EventLoop) : Prop where
  orderly : ∀ e ∈ c.effects, e.orderly = true
  silent : c.app.currentPageSpec = none → c.Silent
  progress : c.app.isScreensaverActive = true → ∀ e ∈ c.effects, e.isProgress = false

/-- What holds between two actions: what is owed is deferred or behind the screensaver. Without a
saved page the screensaver itself is what is up. -/
structure Rendered (c : EventLoop) (owed : PendingRender) : Prop extends Tidy c where
  unsaved : c.app.isScreensaverActive = true → c.app.currentPageSpec = none →
    .dropCurrentPage ∈ c.effects ∨ c.Behind owed
  settled : c.Settled owed ∨ c.Waking

namespace Tidy

variable {c c' : EventLoop}

/-- It is said of these parts of the loop. -/
theorem congr (h : Tidy c) (happ : c'.app = c.app) (heffects : c'.effects = c.effects)
    (hqueue : c'.queue = c.queue) (hpage : c'.page = c.page) : Tidy c' where
  orderly := heffects ▸ h.orderly
  silent hnone := (h.silent (happ ▸ hnone)).congr hqueue heffects hpage
  progress hactive := by
    rw [heffects]
    exact h.progress (happ ▸ hactive)

/-- The effects behind the first. -/
theorem pop {e : Effect} {es : List Effect} (h : Tidy c) (heffects : c.effects = e :: es) :
    Tidy { c with effects := es } where
  orderly e' he' := h.orderly e' (heffects ▸ List.mem_cons_of_mem _ he')
  silent hnone :=
    ⟨(h.silent hnone).queue,
      fun e' he' => (h.silent hnone).effects e' (heffects ▸ List.mem_cons_of_mem _ he'),
      (h.silent hnone).page⟩
  progress hactive e' he' := h.progress hactive e' (heffects ▸ List.mem_cons_of_mem _ he')

/-- A page or a progress frame that is put up. -/
theorem putUp {r : Renders} (h : Tidy c) (heffects : c'.effects = c.effects)
    (hqueue : c'.queue = c.queue)
    (hscreensaver : c'.app.isScreensaverActive = c.app.isScreensaverActive)
    (hsilent : c'.app.currentPageSpec = none → c.app.currentPageSpec = none ∧ c'.page.Silent ∧
      c.app.isScreensaverActive = false) (push : UpdateOutcome) :
    Rendered (c'.tryRenderPageTransition push) (r.shown push).owed where
  orderly := by
    rw [tryRenderPageTransition_effects, heffects]
    exact h.orderly
  silent hnone := by
    rw [tryRenderPageTransition_app] at hnone
    obtain ⟨hc, hpage, -⟩ := hsilent hnone
    have hsaved := h.silent hc
    have hturned : c'.Silent := ⟨hqueue ▸ hsaved.queue, heffects ▸ hsaved.effects, hpage⟩
    cases push <;> exact hturned.congr rfl rfl rfl
  progress hactive := by
    rw [tryRenderPageTransition_app, hscreensaver] at hactive
    rw [tryRenderPageTransition_effects, heffects]
    exact h.progress hactive
  unsaved hactive hnone := by
    rw [tryRenderPageTransition_app] at hactive hnone
    rw [hscreensaver, (hsilent hnone).2.2] at hactive
    cases hactive
  settled := .inl (.shown push)

end Tidy

namespace Rendered

variable {c c' : EventLoop} {r : Renders}

/-- The effects behind one that puts nothing up. -/
theorem pop {owed : PendingRender} {e : Effect} {es : List Effect} (h : Rendered c owed)
    (heffects : c.effects = e :: es) (hraises : e.raises = false) (hdrop : e ≠ .dropCurrentPage) :
    Rendered { c with effects := es } owed where
  toTidy := h.toTidy.pop heffects
  unsaved hactive hnone := by
    rcases h.unsaved hactive hnone with hmem | hbehind
    · rw [heffects] at hmem
      rcases List.mem_cons.1 hmem with rfl | hmem
      · exact absurd rfl hdrop
      · exact .inl hmem
    · exact .inr ⟨hbehind.page, hbehind.panel, hbehind.owed⟩
  settled := by
    rcases h.settled with hsettled | ⟨hsome, hactive | ⟨e', he', hraises'⟩⟩
    · exact .inl (hsettled.congr rfl rfl rfl)
    · exact .inr ⟨hsome, .inl hactive⟩
    · rw [heffects] at he'
      rcases List.mem_cons.1 he' with rfl | he'
      · rw [hraises] at hraises'
        cases hraises'
      · exact .inr ⟨hsome, .inr ⟨e', he', hraises'⟩⟩

/-- What the channel holds matters only until a page is saved. -/
theorem requeue {owed : PendingRender} (h : Rendered c owed) (happ : c'.app = c.app)
    (heffects : c'.effects = c.effects) (hpage : c'.page = c.page) (hpanel : c'.panel = c.panel)
    (hpending : c'.pending = c.pending)
    (hqueue : c.app.currentPageSpec = none → ∀ w ∈ c'.queue, w.event.update? = none) :
    Rendered c' owed where
  orderly := heffects ▸ h.orderly
  silent hnone := by
    rw [happ] at hnone
    have hsilent := h.silent hnone
    exact ⟨hqueue hnone, heffects ▸ hsilent.effects, hpage ▸ hsilent.page⟩
  progress hactive := by
    rw [heffects]
    exact h.progress (happ ▸ hactive)
  unsaved hactive hnone := by
    rw [happ] at hactive hnone
    rw [heffects]
    refine (h.unsaved hactive hnone).imp_right fun hbehind => ?_
    exact ⟨hpage.trans hbehind.page, hpanel.trans hbehind.panel, hbehind.owed⟩
  settled := by
    unfold Waking
    rw [happ, heffects]
    exact h.settled.imp_left (·.congr hpending hpanel hpage)

/-- An event that enters the channel. -/
theorem enqueue {owed : PendingRender} {w : Waiting} (h : Rendered c owed)
    (hw : c.app.currentPageSpec = none → w.event.update? = none) :
    Rendered { c with queue := c.queue ++ [w] } owed :=
  h.requeue rfl rfl rfl rfl rfl fun hnone => ((h.silent hnone).enqueue (hw hnone)).queue

/-- An animation tick. -/
theorem animate (h : Rendered c r.owed) (push : UpdateOutcome) :
    Rendered (c.animate push) (c.noteAnimation push r).owed where
  toTidy := h.toTidy.congr (c.animate_app push) (c.animate_effects push) (c.animate_queue push)
    (c.animate_page push)
  unsaved hactive hnone := by
    rw [animate_app] at hactive hnone
    have hstill : (c.needsAnimation && !c.app.isScreensaverActive) = false := by simp [hactive]
    have hunsaved := h.unsaved hactive hnone
    unfold EventLoop.animate noteAnimation
    rw [hstill]
    exact hunsaved
  settled := by
    refine h.settled.imp (·.animate push) fun hwaking => ?_
    unfold Waking
    rw [animate_app, animate_effects]
    exact hwaking

/-- The end of a turn. -/
theorem flush (h : Rendered c r.owed) (heffects : c.effects = []) (push : UpdateOutcome) :
    Rendered (c.flush push) (c.noteFlush push r).owed := by
  have hbehind : c.app.isScreensaverActive = true → c.app.currentPageSpec = none →
      c.Behind r.owed := by
    intro hactive hnone
    rcases h.unsaved hactive hnone with hmem | hbehind
    · rw [heffects] at hmem
      cases hmem
    · exact hbehind
  refine ⟨h.toTidy.congr (c.flush_app push) (c.flush_effects push) (c.flush_queue push)
    (c.flush_page push), fun hactive hnone => .inr ?_, ?_⟩
  · rw [flush_app] at hactive hnone
    obtain ⟨hpage, hpanel, howed⟩ := hbehind hactive hnone
    have howed' : (c.noteFlush push r).owed = .none := by
      unfold noteFlush
      split
      · cases push with
        | done => rfl
        | busy => exact howed
      · exact howed
    have hc : c.Settled r.owed := howed ▸ .of_push (hpanel.trans hpage.symm)
    have hsettled := hc.flush push fun _ => howed
    have hpage' := (c.flush_page push).trans hpage
    exact ⟨hpage', (hsettled.onPanel howed').trans hpage', howed'⟩
  · cases hactive : c.app.isScreensaverActive with
    | false =>
      rcases h.settled with hsettled | ⟨-, hwake | ⟨e, he, -⟩⟩
      · refine .inl (hsettled.flush push fun htrue => ?_)
        rw [hactive] at htrue
        cases htrue
      · rw [hactive] at hwake
        cases hwake
      · rw [heffects] at he
        cases he
    | true =>
      cases hsaved : c.app.currentPageSpec with
      | some spec =>
        refine .inr ⟨?_, .inl ?_⟩
        · rw [flush_app, hsaved]
          rfl
        · rw [flush_app]
          exact hactive
      | none =>
        obtain ⟨hpage, hpanel, howed⟩ := hbehind hactive hsaved
        have hc : c.Settled r.owed := howed ▸ .of_push (hpanel.trans hpage.symm)
        exact .inl (hc.flush push fun _ => howed)

/-- **An effect** puts a page up, or leaves what is owed. -/
theorem effect {io : EffectIo} {e : Effect} {es : List Effect} (h : Rendered c r.owed)
    (heffects : c.effects = e :: es) (hstep : { c with effects := es }.applyEffect io e = some c') :
    Rendered c' (c.noteEffect io e r).owed := by
  have hmem : e ∈ c.effects := heffects ▸ List.mem_cons_self
  have hrest := h.pop heffects
  have htidy := h.toTidy.pop heffects
  cases e with
  | showPage spec =>
    have hlocked : spec ≠ .deviceLocked := by
      rintro rfl
      cases h.orderly _ hmem
    rw [applyEffect_showPage hlocked] at hstep
    rw [noteEffect_showPage hlocked]
    cases hstep
    refine htidy.putUp ?_ ?_ ?_ ?_ io.push
    · rfl
    · rfl
    · rfl
    · intro hnone
      cases hnone
  | showProgress message duration modal percent =>
    cases hstep
    refine htidy.putUp ?_ ?_ ?_ ?_ io.push
    · rfl
    · rfl
    · rfl
    · intro hnone
      refine ⟨hnone, Screen.silent_progress, ?_⟩
      cases hactive : c.app.isScreensaverActive with
      | false => rfl
      | true => cases h.progress hactive _ hmem
  | rebuildSavedPage =>
    simp only [applyEffect] at hstep
    cases hsaved : c.app.currentPageSpec with
    | none =>
      simp only [hsaved] at hstep
      cases hstep
      simp only [noteEffect, defers, hsaved]
      refine ⟨htidy, fun hactive hnone => ?_, ?_⟩
      · rcases h.unsaved hactive hnone with hdrop | hbehind
        · rw [heffects] at hdrop
          rcases List.mem_cons.1 hdrop with heq | hdrop
          · cases heq
          · exact .inl hdrop
        · exact .inr ⟨hbehind.page, hbehind.panel, hbehind.owed⟩
      · rcases h.settled with hsettled | ⟨hsome, -⟩
        · exact .inl (hsettled.congr rfl rfl rfl)
        · rw [hsaved] at hsome
          cases hsome
    | some spec =>
      simp only [hsaved] at hstep
      cases hstep
      simp only [noteEffect, defers, hsaved]
      refine htidy.putUp ?_ ?_ ?_ ?_ io.push
      · rfl
      · rfl
      · rfl
      · intro hnone
        rw [hsaved] at hnone
        cases hnone
  | updateWatermark pkh chainId level =>
    have hsaved : c.app.currentPageSpec ≠ none := fun hnone => (h.silent hnone).effects _ hmem
    cases hstep
    unfold applyWatermarkUpdate
    cases hresult : io.result with
    | ok =>
      have hnote : c.noteEffect io (.updateWatermark pkh chainId level) r = r := by
        simp [noteEffect, defers, EffectIo.fails, hresult]
      rw [hnote]
      refine (hrest rfl Effect.noConfusion).enqueue ?_
      exact fun _ => rfl
    | error message =>
      have hnote : c.noteEffect io (.updateWatermark pkh chainId level) r = r.shown io.push := by
        simp [noteEffect, defers, EffectIo.fails, hresult]
      rw [hnote]
      refine htidy.putUp ?_ ?_ ?_ ?_ io.push
      · rfl
      · rfl
      · rfl
      · exact fun hnone => absurd hnone hsaved
  | dropCurrentPage =>
    cases hstep
    refine ⟨⟨htidy.orderly, fun hnone => ?_, htidy.progress⟩, fun _ _ => .inr ⟨rfl, rfl, rfl⟩,
      .inl (.of_push rfl)⟩
    exact ⟨(htidy.silent hnone).queue, (htidy.silent hnone).effects, Screen.silent_screensaver⟩
  | emit event =>
    cases hstep
    exact (hrest rfl Effect.noConfusion).enqueue fun hnone => (h.silent hnone).effects _ hmem
  | sleep duration =>
    cases hstep
    exact (hrest rfl Effect.noConfusion).animate io.push
  | clearDisplay => cases h.orderly _ hmem
  | fatalError | exit => cases hstep
  | wakeDisplay | sleepDisplay | sleepDevice | startSigner | initWatermark | dropPrivileges
  | remountKeysReadonly | processWatermarkConfig | verifyStorage =>
    simp only [applyEffect] at hstep
    split at hstep <;> cases hstep
    exact hrest rfl Effect.noConfusion
  | _ =>
    cases hstep
    exact hrest rfl Effect.noConfusion

/-- A touch sends what a button of the page sends. -/
theorem touched [PageLayout] {owed : PendingRender} {x y : Int} {panel : Screen}
    {queue : List Waiting} (h : Rendered c owed) (hqueue : c.queue = ⟨.touch x y, panel⟩ :: queue)
    (hnone : c.app.currentPageSpec = none) :
    ∀ w ∈ ({ c with queue, draining := true }.handleTouch x y panel).queue,
      w.event.update? = none := by
  have hsilent := h.silent hnone
  have hrest : ∀ w ∈ queue, w.event.update? = none :=
    fun w hw => hsilent.queue w (hqueue ▸ List.mem_cons_of_mem _ hw)
  unfold handleTouch
  split
  · intro w hw
    rcases List.mem_append.1 hw with hw | hw
    · exact hrest w hw
    · rw [List.mem_singleton.1 hw]
      rfl
  · intro w hw
    rcases List.mem_append.1 hw with hw | hw
    · exact hrest w hw
    · obtain ⟨e, he, rfl⟩ := List.mem_map.1 hw
      have hpressed := Option.mem_toList.1 he
      cases hpage : c.page with
      | page spec =>
        rw [hpage] at hpressed
        obtain ⟨i, -, hi⟩ := Option.bind_eq_some_iff.1 hpressed
        exact hsilent.page spec hpage e (List.mem_of_getElem? hi)
      | _ =>
        rw [hpage] at hpressed
        cases hpressed

/-- A repaint is recorded, where there is something to repaint. -/
theorem invalidated {panel : Screen} {queue : List Waiting} (h : Rendered c r.owed)
    (hqueue : c.queue = ⟨.invalidate, panel⟩ :: queue) :
    Rendered { c with queue, draining := true, pending := c.pending.record .inPlace }
      (c.noteEvent r).owed := by
  have howed : (c.noteEvent r).owed =
      if c.page = .screensaver then r.owed else r.owed.record .inPlace := by
    unfold noteEvent
    rw [hqueue]
  rw [howed]
  refine ⟨⟨h.orderly, fun hnone => ?_, h.progress⟩, fun hactive hnone => ?_, ?_⟩
  · have hsilent := h.silent hnone
    exact ⟨fun w hw => hsilent.queue w (hqueue ▸ List.mem_cons_of_mem _ hw), hsilent.effects,
      hsilent.page⟩
  · refine (h.unsaved hactive hnone).imp_right fun hbehind => ?_
    rw [if_pos hbehind.page]
    exact ⟨hbehind.page, hbehind.panel, hbehind.owed⟩
  · refine h.settled.imp_left fun hsettled => ?_
    split
    · exact ⟨PendingRender.le_record hsettled.covered, hsettled.onPanel⟩
    · exact ⟨PendingRender.record_le_record hsettled.covered,
        fun hnone => hsettled.onPanel (PendingRender.record_eq_none hnone)⟩

/-- An event that the application answers, unless it exits. -/
theorem answered {owed : PendingRender} {event : AppEvent} {app : App} {effects : List Effect}
    (h : Rendered c owed) (heffects : c.effects = []) (hresponse : App.Response c.app event app effects)
    (hspec : app.currentPageSpec = c.app.currentPageSpec)
    (hsilent : c.app.currentPageSpec = none → ∀ e ∈ effects, e.Silent)
    (hprogress : c.app.isScreensaverActive = true → ∀ e ∈ effects, e.isProgress = false) :
    (∃ code, .exit code ∈ effects) ∨ Rendered { c with app, effects } owed := by
  have hpage : app.currentPageSpec = none → Silent { c with app, effects } := by
    intro hnone
    rw [hspec] at hnone
    exact ⟨(h.silent hnone).queue, hsilent hnone, (h.silent hnone).page⟩
  have hbehind : c.app.isScreensaverActive = true → app.currentPageSpec = none →
      Behind { c with app, effects } owed := by
    intro hactive hnone
    rw [hspec] at hnone
    rcases h.unsaved hactive hnone with hmem | hbehind
    · rw [heffects] at hmem
      cases hmem
    · exact ⟨hbehind.page, hbehind.panel, hbehind.owed⟩
  have hsettled : c.Settled owed ∨
      app.currentPageSpec.isSome = true ∧ c.app.isScreensaverActive = true := by
    rcases h.settled with hsettled | ⟨hsome, hactive | ⟨e, he, -⟩⟩
    · exact .inl hsettled
    · exact .inr ⟨hspec ▸ hsome, hactive⟩
    · rw [heffects] at he
      cases he
  cases hresponse with
  | same hstate hcalm _ =>
    refine .inr ⟨⟨fun e he => orderly_of_calm (hcalm e he), hpage, ?_⟩, ?_, ?_⟩
    · exact fun hactive => hprogress (hstate ▸ hactive)
    · exact fun hactive hnone => .inr (hbehind (hstate ▸ hactive) hnone)
    · rcases hsettled with hsettled | ⟨hsome, hactive⟩
      · exact .inl (hsettled.congr rfl rfl rfl)
      · exact .inr ⟨hsome, .inl (hstate.trans hactive)⟩
  | locked => exact .inl ⟨1, by simp⟩
  | asleep happ happ' =>
    refine .inr ⟨⟨?_, hpage, ?_⟩, fun _ _ => .inl List.mem_cons_self, ?_⟩
    · simp [Effect.orderly]
    · simp [Effect.isProgress]
    · rcases hsettled with hsettled | ⟨-, hactive⟩
      · exact .inl (hsettled.congr rfl rfl rfl)
      · rw [happ] at hactive
        cases hactive
  | woken happ happ' hcalm hraises =>
    refine .inr ⟨⟨?_, hpage, fun hactive => ?_⟩, fun hactive => ?_, ?_⟩
    · exact List.forall_mem_cons.2 ⟨rfl, fun e he => orderly_of_calm (hcalm e he)⟩
    · rw [happ'] at hactive
      cases hactive
    · rw [happ'] at hactive
      cases hactive
    · rcases hsettled with hsettled | ⟨hsome, -⟩
      · exact .inl (hsettled.congr rfl rfl rfl)
      · obtain ⟨e, he, hraise⟩ := hraises
        exact .inr ⟨hsome, .inr ⟨e, List.mem_cons_of_mem _ he, hraise⟩⟩

/-- **Handling an event**, that does not lead to an exit. -/
theorem handle [PageLayout] {io : AppIo} (h : Rendered c r.owed) (heffects : c.effects = [])
    (hstep : c.handleNext io = some c') :
    (∃ code, .exit code ∈ c'.effects) ∨ Rendered c' (c.noteEvent r).owed := by
  have hrest : ∀ {w : Waiting} {queue : List Waiting}, c.queue = w :: queue →
      c.app.currentPageSpec = none → ∀ w' ∈ queue, w'.event.update? = none :=
    fun hqueue hnone w' hw' => (h.silent hnone).queue w' (hqueue ▸ List.mem_cons_of_mem _ hw')
  cases handleNext_cases hstep with
  | @touched x y panel queue hqueue =>
    rw [noteEvent_of_ne hqueue AppEvent.noConfusion]
    refine .inr (h.requeue ?_ ?_ ?_ ?_ ?_ fun hnone w hw => ?_)
    any_goals (unfold handleTouch; split <;> rfl)
    exact h.touched hqueue hnone w hw
  | @skipped w queue updates hqueue hne =>
    rw [noteEvent_of_ne hqueue hne]
    exact .inr (h.requeue rfl rfl rfl rfl rfl (hrest hqueue))
  | @invalidated panel queue hqueue => exact .inr (h.invalidated hqueue)
  | @proceeded event panel queue updates hqueue hne hproceed =>
    rw [noteEvent_of_ne hqueue hne]
    have hevent : c.app.currentPageSpec = none → event.update? = none :=
      fun hnone => (h.silent hnone).queue ⟨event, panel⟩ (hqueue ▸ List.mem_cons_self)
    have hrequeued : Rendered { c with queue, draining := true, updates } r.owed :=
      h.requeue rfl rfl rfl rfl rfl (hrest hqueue)
    exact hrequeued.answered heffects (App.handleEvent_response hproceed)
      (App.handleEvent_spec io c.app event)
      (fun hnone => App.handleEvent_silent (hevent hnone)) App.handleEvent_progress

end Rendered

/-- The device exits once the effects at hand are carried out, or all of this holds. -/
def Going (c : EventLoop) (owed : PendingRender) : Prop :=
  (∃ code, .exit code ∈ c.effects) ∨ c.Rendered owed

section

variable [PageLayout] {c c' : EventLoop} {r : Renders}

/-- **One step of the loop** keeps what is owed deferred. -/
theorem Going.step {a : Action} (h : c.Going r.owed) (hstep : c.step a = some c') :
    c'.Going (c.noteRender a r).owed := by
  rcases h with ⟨code, hexit⟩ | h
  · -- until the exit, only events come in
    have hne : c.effects ≠ [] := List.ne_nil_of_mem hexit
    refine .inl ⟨code, ?_⟩
    cases a with
    | post event =>
      simp only [EventLoop.step] at hstep
      split at hstep <;> cases hstep
      exact hexit
    | effect io =>
      simp only [EventLoop.step] at hstep
      cases heffects : c.effects with
      | nil => exact absurd heffects hne
      | cons e es =>
        simp only [heffects] at hstep
        rw [(applyEffect_frame hstep).2]
        rw [heffects] at hexit
        rcases List.mem_cons.1 hexit with rfl | hexit
        · cases hstep
        · exact hexit
    | handle | flush | timeout =>
      simp only [EventLoop.step] at hstep
      split at hstep
      · rename_i hready
        simp only [Bool.and_eq_true, List.isEmpty_iff] at hready
        simp [hne] at hready
      · cases hstep
  · cases a with
    | post event =>
      simp only [EventLoop.step] at hstep
      split at hstep <;> cases hstep
      rename_i hupdate
      exact .inr (h.enqueue fun _ => by simpa using hupdate)
    | handle io =>
      simp only [EventLoop.step] at hstep
      split at hstep
      · rename_i heffects
        exact h.handle (List.isEmpty_iff.1 heffects) hstep
      · cases hstep
    | effect io =>
      simp only [EventLoop.step] at hstep
      cases heffects : c.effects with
      | nil =>
        simp only [heffects] at hstep
        cases hstep
      | cons e es =>
        simp only [heffects] at hstep
        simp only [noteRender, heffects]
        exact .inr (h.effect heffects hstep)
    | flush push =>
      simp only [EventLoop.step] at hstep
      split at hstep <;> cases hstep
      rename_i hready
      simp only [Bool.and_eq_true, List.isEmpty_iff] at hready
      have hflushed := h.flush hready.1.1 push
      exact .inr (hflushed.requeue rfl rfl rfl rfl rfl fun hnone => (hflushed.silent hnone).queue)
    | timeout animation push =>
      simp only [EventLoop.step] at hstep
      split at hstep <;> cases hstep
      rename_i hready
      simp only [Bool.and_eq_true, List.isEmpty_iff] at hready
      have hanimated := h.animate animation
      have hflushed := hanimated.flush ((c.animate_effects animation).trans hready.1.1) push
      have hnote : (c.animate animation).noteFlush push = c.noteFlush push := by
        unfold noteFlush
        rw [animate_app, animate_pending]
      rw [hnote] at hflushed
      exact .inr hflushed

omit [PageLayout] in
/-- Between two events a device that does not exit owes nothing that is not deferred, or shows the
screensaver. -/
theorem Going.settled {owed : PendingRender} (h : c.Going owed) (heffects : c.effects = []) :
    c.app.isScreensaverActive = true ∨ c.Settled owed := by
  rcases h with ⟨code, hexit⟩ | h
  · rw [heffects] at hexit
    cases hexit
  · rcases h.settled with hsettled | ⟨-, hactive | ⟨e, he, -⟩⟩
    · exact .inr hsettled
    · exact .inl hactive
    · rw [heffects] at he
      cases he

omit [PageLayout] in
/-- It holds of the loop at its start. -/
theorem start_going (isFirstBoot : Bool) (touches : List (Int × Int)) :
    (start isFirstBoot touches).Going .none := by
  refine .inr ⟨⟨List.forall_mem_nil _, fun _ => ⟨?_, List.forall_mem_nil _, ?_⟩,
    fun _ => List.forall_mem_nil _⟩, fun hactive => ?_, .inl (.of_push rfl)⟩
  · intro w hw
    obtain ⟨p, -, rfl⟩ := List.mem_map.1 hw
    rfl
  · intro spec heq
    cases heq
    cases isFirstBoot <;> simp [openingPage, PageSpec.buttons, AppEvent.update?]
  · cases isFirstBoot <;> cases hactive

end

end EventLoop

end Russignol
