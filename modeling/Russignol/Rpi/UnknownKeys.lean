import Russignol.Rpi.LoopActions

/-!
# Alerts for unknown keys

A baker that asks for a key the device does not hold is shown to the operator once a key
(`UnknownKeyAlert` of `rpi-signer/src/app.rs`): the first keys are remembered, the first one past
them flips a marker, and nothing else changes the record. `Recorded` ties the record to the keys
that raised the alert so far; `unknown_key_alerts` says what follows over every run of the event
loop of a device that signs.
-/

namespace Russignol

namespace UnknownKeyAlert

/-- The record of the keys that raised the alert so far: they are distinct, at most one more than
are remembered, and the marker stands for the one that is not. -/
structure Recorded (a : UnknownKeyAlert) (shown : List String) : Prop where
  pkhs : a.pkhs = shown.take cap
  nodup : shown.Nodup
  bounded : shown.length ≤ cap + 1
  overflow : a.overflow = decide (cap < shown.length)

namespace Recorded

variable {a : UnknownKeyAlert} {shown : List String} {pkh : String}

/-- While there is room, every key that raised the alert is remembered. -/
theorem pkhs_eq (h : a.Recorded shown) (hroom : shown.length ≤ cap) : a.pkhs = shown := by
  rw [h.pkhs, List.take_of_length_le hroom]

/-- A key raises the alert where it did not raise it before and the marker is not set. -/
theorem record_iff (h : a.Recorded shown) :
    (a.record pkh).1 = true ↔ pkh ∉ shown ∧ shown.length ≤ cap := by
  unfold record
  by_cases hroom : shown.length ≤ cap
  · have hpkhs := h.pkhs_eq hroom
    have hoverflow : a.overflow = false := by
      rw [h.overflow]
      exact decide_eq_false (by omega)
    rw [hpkhs]
    by_cases hmem : pkh ∈ shown
    · simp [hmem]
    · simp only [if_neg hmem, hoverflow]
      split <;> simp [hmem, hroom]
  · have hlen : a.pkhs.length = cap := by
      rw [h.pkhs, List.length_take]
      omega
    have hoverflow : a.overflow = true := by
      rw [h.overflow]
      exact decide_eq_true (by omega)
    simp [hlen, hoverflow, hroom]

/-- What the record is after a key. -/
theorem record (h : a.Recorded shown) :
    (a.record pkh).2.Recorded (shown ++ if (a.record pkh).1 then [pkh] else []) := by
  cases hraised : (a.record pkh).1 with
  | false =>
    have hsame : (a.record pkh).2 = a := by
      unfold UnknownKeyAlert.record at hraised ⊢
      split_ifs at hraised ⊢ <;> rfl
    rw [hsame]
    simpa using h
  | true =>
    obtain ⟨hnew, hroom⟩ := h.record_iff.1 hraised
    have hpkhs := h.pkhs_eq hroom
    have hnodup : (shown ++ [pkh]).Nodup :=
      List.Nodup.append h.nodup (List.nodup_singleton _) (by simpa using hnew)
    have hlen : (shown ++ [pkh]).length = shown.length + 1 := by simp
    have hnot : a.overflow = false := by
      rw [h.overflow]
      exact decide_eq_false (by omega)
    simp only [if_true]
    unfold UnknownKeyAlert.record
    rw [hpkhs, if_neg hnew]
    by_cases hlt : shown.length < cap
    · rw [if_pos hlt]
      refine ⟨?_, hnodup, by omega, ?_⟩
      · have hfit : (shown ++ [pkh]).length ≤ cap := by omega
        exact (List.take_of_length_le hfit).symm
      · exact hnot.trans (decide_eq_false (by omega)).symm
    · rw [if_neg hlt, hnot, if_neg Bool.false_ne_true]
      refine ⟨?_, hnodup, by omega, ?_⟩
      · show shown = _
        rw [List.take_append_of_le_length (by omega), List.take_of_length_le hroom]
      · exact (decide_eq_true (by omega)).symm

/-- A dismissal forgets nothing. -/
theorem dismiss (h : a.Recorded shown) : a.dismiss.Recorded shown :=
  ⟨h.pkhs, h.nodup, h.bounded, h.overflow⟩

/-- The alert that a key raises while there is room names it. -/
theorem content (h : a.Recorded shown) (hnew : pkh ∉ shown) (hroom : shown.length < cap) :
    (a.record pkh).2.content = some ⟨pkh, shown.length, false⟩ := by
  have hpkhs := h.pkhs_eq (by omega)
  have hnot : a.overflow = false := by
    rw [h.overflow]
    exact decide_eq_false (by omega)
  unfold UnknownKeyAlert.record
  rw [hpkhs, if_neg hnew, if_pos hroom]
  simp [UnknownKeyAlert.content, hnot]

end Recorded

end UnknownKeyAlert

/-! ## What an event does while the device signs -/

/-- The page of an unknown-key alert. -/
def PageSpec.isAlert : PageSpec → Bool
  | .notice _ _ .unknownKeyDismissed => true
  | _ => false

/-- An effect that shows one. -/
def Effect.isAlert : Effect → Bool
  | .showPage spec => spec.isAlert
  | _ => false

/-- An effect that may turn the page. -/
def Effect.turns : Effect → Bool
  | .showPage _ | .showProgress .. | .dropCurrentPage | .rebuildSavedPage => true
  | .updateWatermark .. => true
  | _ => false

namespace App

/-- **What an event does while the device signs**, as far as the pages and the alerts go: the
application after it and the effects. -/
inductive ActiveTurn (app : App) : AppEvent → App → List Effect → Prop
  | still (event : AppEvent) : (∀ pkh, event = .unknownKeyRequested pkh →
      app.currentPageModal = true ∨ (app.unknownKeys.record pkh).1 = false) →
    ActiveTurn app event app []
  | shown (event : AppEvent) {spec : PageSpec} : (∀ pkh, event ≠ .unknownKeyRequested pkh) →
    spec.isAlert = false → ActiveTurn app event app [.showPage spec]
  | started (json : String) :
    ActiveTurn app (.keysDecrypted json) app [.startSigner, .showPage .menu, .resetActivity]
  | updated (pkh : String) (chainId : ChainId) (level : UInt32) :
    ActiveTurn app (.updateWatermarkToLevel pkh chainId level) app
      [.updateWatermark pkh chainId level]
  | asleep : app.currentPageModal = false →
    ActiveTurn app .activateScreensaver (app.setScreensaver true) [.dropCurrentPage, .sleepDisplay]
  | woken (event : AppEvent) (pages : List PageSpec) :
    (∀ pkh, event ≠ .unknownKeyRequested pkh) → app.isScreensaverActive = true →
    (∀ spec ∈ pages, spec.isAlert = false) →
    ActiveTurn app event (app.setScreensaver false)
      ([.wakeDisplay, .rebuildSavedPage, .resetActivity] ++ pages.map .showPage)
  | raised (pkh : String) : app.currentPageModal = false →
    (app.unknownKeys.record pkh).1 = true →
    ActiveTurn app (.unknownKeyRequested pkh)
      { app with unknownKeys := (app.unknownKeys.record pkh).2 }.wakeWithoutRebuild.1
      ({ app with unknownKeys := (app.unknownKeys.record pkh).2 }.wakeWithoutRebuild.2 ++
        [.showPage (.notice UnknownKeyAlert.title
          (((app.unknownKeys.record pkh).2.content.map UnknownKeyAlert.message).getD "")
          .unknownKeyDismissed)])
  | dismissed : ActiveTurn app .unknownKeyDismissed
      { app with unknownKeys := app.unknownKeys.dismiss } [.showPage .menu]

/-- Navigation opens no alert. -/
theorem navigationPage_isAlert {event : AppEvent} {spec : PageSpec}
    (h : navigationPage event = some spec) :
    spec.isAlert = false ∧ ∀ pkh, event ≠ .unknownKeyRequested pkh := by
  cases event <;> cases h <;> exact ⟨rfl, fun _ heq => nomatch heq⟩

/-- An event with a page of its own that wakes the screensaver. -/
theorem activeTurn_wake (app : App) {event : AppEvent} {spec : PageSpec}
    (hevent : ∀ pkh, event ≠ .unknownKeyRequested pkh) (hspec : spec.isAlert = false) :
    ActiveTurn app event app.wakeFromScreensaver.1
      (app.wakeFromScreensaver.2 ++ [.showPage spec]) := by
  unfold wakeFromScreensaver
  split
  · rename_i hasleep
    refine .woken event [spec] hevent hasleep ?_
    intro spec' hspec'
    rw [List.mem_singleton.1 hspec']
    exact hspec
  · exact .shown event hevent hspec

/-- The cases of `handle_active`. -/
theorem handleActive_turn (app : App) (event : AppEvent) :
    ActiveTurn app event (app.handleActive event).1 (app.handleActive event).2.2 := by
  unfold handleActive
  cases hnav : (if app.currentPageModal then none else navigationPage event) with
  | some spec =>
    split at hnav
    · cases hnav
    · obtain ⟨hspec, hevent⟩ := navigationPage_isAlert hnav
      exact .shown event hevent hspec
  | none =>
    cases event with
    | keysDecrypted json => exact .started json
    | activateScreensaver =>
      dsimp only
      split
      · exact .still _ fun _ heq => nomatch heq
      · rename_i hcond
        rw [Bool.or_eq_true, not_or, Bool.not_eq_true] at hcond
        exact .asleep hcond.1
    | deactivateScreensaver =>
      dsimp only
      split
      · rename_i hasleep
        rw [wakeFromScreensaver, if_pos hasleep]
        exact .woken _ [] (fun _ heq => nomatch heq) hasleep (List.forall_mem_nil _)
      · exact .still _ fun _ heq => nomatch heq
    | largeWatermarkGap =>
      dsimp only
      split
      · exact .still _ fun _ heq => nomatch heq
      · exact activeTurn_wake app (fun _ heq => nomatch heq) rfl
    | watermarkMissing =>
      dsimp only
      split
      · exact .still _ fun _ heq => nomatch heq
      · exact activeTurn_wake app (fun _ heq => nomatch heq) rfl
    | unknownKeyRequested pkh =>
      dsimp only [unknownKeyRequested]
      split
      · rename_i hmodal
        exact .still _ fun _ _ => .inl hmodal
      · rename_i hmodal
        cases hrecord : app.unknownKeys.record pkh with
        | mk raised unknownKeys =>
          cases raised with
          | false =>
            refine .still _ fun pkh' heq => .inr ?_
            cases heq
            rw [hrecord]
          | true =>
            have hturn : ActiveTurn app _ _ _ := .raised pkh (Bool.not_eq_true _ ▸ hmodal)
              (by rw [hrecord])
            rw [hrecord] at hturn
            exact hturn
    | unknownKeyDismissed => exact .dismissed
    | updateWatermarkToLevel pkh chainId level => exact .updated pkh chainId level
    | watermarkUpdateSuccess | dialogDismissed | showMenu =>
      exact .shown _ (fun _ heq => nomatch heq) rfl
    | requestShutdown => exact .shown _ (fun _ heq => nomatch heq) rfl
    | _ => exact .still _ fun _ heq => nomatch heq

/-- A turn that is not passed on asks for nothing. -/
theorem handleActive_continue {app : App} {event : AppEvent}
    (h : (app.handleActive event).2.1 = .continue) : (app.handleActive event).2.2 = [] := by
  rw [handleActive_skipped h]

/-- The cases of an event, while the device signs. -/
theorem handleEvent_turn (io : AppIo) {app : App} {event : AppEvent} {b : Bool}
    (hstate : app.state = .active b) (hshutdown : event ≠ .shutdown)
    (hfatal : ∀ title message, event ≠ .fatalError title message) :
    ActiveTurn app event (app.handleEvent io event).1 (app.handleEvent io event).2.2 ∧
      ((app.handleEvent io event).2.1 = .continue → (app.handleEvent io event).2.2 = []) := by
  have hactive : app.handleEvent io event = app.handleActive event := by
    unfold handleEvent
    cases event with
    | shutdown => exact absurd rfl hshutdown
    | fatalError title message => exact absurd rfl (hfatal title message)
    | _ => simp only [hstate]
  rw [hactive]
  exact ⟨handleActive_turn app event, handleActive_continue⟩

/-- A key that raises the alert: the screensaver is left, and the alert is put up. -/
theorem handleEvent_unknownKey (io : AppIo) {app : App} {pkh : String} {b : Bool}
    (hstate : app.state = .active b) (hmodal : app.currentPageModal = false)
    (hraised : (app.unknownKeys.record pkh).1 = true) :
    app.handleEvent io (.unknownKeyRequested pkh) =
      ({ app with unknownKeys := (app.unknownKeys.record pkh).2 }.wakeWithoutRebuild.1, .proceed,
        { app with unknownKeys := (app.unknownKeys.record pkh).2 }.wakeWithoutRebuild.2 ++
          [.showPage (.notice UnknownKeyAlert.title
            (((app.unknownKeys.record pkh).2.content.map UnknownKeyAlert.message).getD "")
            .unknownKeyDismissed)]) := by
  cases hrecord : app.unknownKeys.record pkh with
  | mk raised unknownKeys =>
    rw [hrecord] at hraised
    obtain rfl : raised = true := hraised
    simp only [handleEvent, hstate, handleActive, hmodal, navigationPage, unknownKeyRequested,
      hrecord, if_neg Bool.false_ne_true]

/-- The key that an event raises the alert for, by the effects it has. -/
def raisedBy (effects : List Effect) (event : AppEvent) : Option String :=
  match event with
  | .unknownKeyRequested pkh => if effects.any Effect.isAlert then some pkh else none
  | _ => none

/-- Waking without a rebuild shows no page and turns nothing but the screensaver off. -/
theorem wakeWithoutRebuild_cases (app : App) :
    (app.isScreensaverActive = true ∧
      app.wakeWithoutRebuild = (app.setScreensaver false, [.wakeDisplay, .resetActivity])) ∨
    (app.isScreensaverActive = false ∧ app.wakeWithoutRebuild = (app, [])) := by
  unfold wakeWithoutRebuild
  cases app.isScreensaverActive with
  | true => exact .inl ⟨rfl, rfl⟩
  | false => exact .inr ⟨rfl, rfl⟩

theorem setScreensaver_unknownKeys (app : App) (active : Bool) :
    (app.setScreensaver active).unknownKeys = app.unknownKeys := by
  unfold setScreensaver
  split <;> rfl

theorem setScreensaver_modal (app : App) (active : Bool) :
    (app.setScreensaver active).currentPageModal = app.currentPageModal := by
  unfold setScreensaver
  split <;> rfl

/-- An event leaves the record with the keys that raised the alert. -/
theorem ActiveTurn.recorded {app app' : App} {event : AppEvent} {effects : List Effect}
    (h : ActiveTurn app event app' effects) {shown : List String}
    (hrecorded : app.unknownKeys.Recorded shown) :
    app'.unknownKeys.Recorded (shown ++ (raisedBy effects event).toList) := by
  have hquiet : (∀ pkh, event ≠ .unknownKeyRequested pkh) →
      shown ++ (raisedBy effects event).toList = shown := by
    intro hevent
    cases event with
    | unknownKeyRequested pkh => exact absurd rfl (hevent pkh)
    | _ => exact List.append_nil _
  cases h with
  | still _ _ =>
    have hnone : raisedBy [] event = none := by cases event <;> rfl
    rw [hnone]
    simpa using hrecorded
  | shown _ hevent _ =>
    rw [hquiet hevent]
    exact hrecorded
  | started _ =>
    rw [hquiet fun _ heq => nomatch heq]
    exact hrecorded
  | updated _ _ _ =>
    rw [hquiet fun _ heq => nomatch heq]
    exact hrecorded
  | asleep _ =>
    rw [hquiet (fun _ heq => nomatch heq), setScreensaver_unknownKeys]
    exact hrecorded
  | woken _ _ hevent _ _ =>
    rw [hquiet hevent, setScreensaver_unknownKeys]
    exact hrecorded
  | raised pkh _ hraised =>
    have hwake : (wakeWithoutRebuild
        { app with unknownKeys := (app.unknownKeys.record pkh).2 }).1.unknownKeys =
          (app.unknownKeys.record pkh).2 := by
      rcases wakeWithoutRebuild_cases
        { app with unknownKeys := (app.unknownKeys.record pkh).2 } with ⟨-, heq⟩ | ⟨-, heq⟩
      · rw [heq]
        exact setScreensaver_unknownKeys _ false
      · rw [heq]
    have hrecord : (app.unknownKeys.record pkh).2.Recorded _ := hrecorded.record
    rw [hraised] at hrecord
    rw [hwake]
    simpa [raisedBy, Effect.isAlert, PageSpec.isAlert] using hrecord
  | dismissed =>
    rw [hquiet fun _ heq => nomatch heq]
    exact hrecorded.dismiss

end App

/-- A page that must be answered; a progress page is taken for one. -/
def Screen.isModal : Screen → Bool
  | .page spec => spec.isModal
  | .progress => true
  | .blank | .screensaver | .locked => false

namespace EventLoop

/-- The loop of a device whose signer was started, with the menu up. -/
def signerStarted (queue : List Waiting) (panel : Screen) : EventLoop where
  app := { App.new false with state := .active false, currentPageSpec := some .menu }
  page := .page .menu
  panel := panel
  pending := .none
  needsAnimation := false
  draining := false
  effects := []
  queue := queue
  updates := []

/-- The key that an action raises the alert for: it is asked for, and a page of the alert with
it. -/
def alerting (c : EventLoop) : Action → Option String
  | .handle io =>
    match c.effects, c.queue with
    | [], ⟨event, _⟩ :: _ => App.raisedBy (c.app.handleEvent io event).2.2 event
    | _, _ => none
  | _ => none

/-- What holds between two actions, as far as the pages go: the application knows whether the page
that is up is modal, an alert or the screensaver is on its way only where it is not, and a saved
alert is the page that is up. -/
structure Paged (c : EventLoop) : Prop where
  active : ∃ b, c.app.state = .active b
  modal : c.app.currentPageModal = c.page.isModal
  signing : ∀ e ∈ c.effects, App.signing e = true ∨ ∃ title message, e = .fatalError title message
  due : ∀ e ∈ c.effects, e.isAlert = true ∨ e = .dropCurrentPage →
    c.app.currentPageModal = false ∧ c.effects.countP Effect.turns ≤ 1
  awake : ∀ e ∈ c.effects, e.isAlert = true → c.app.state = .active false
  saved : ∀ spec, c.app.currentPageSpec = some spec → spec.isAlert = true →
    c.app.currentPageModal = true ∧ c.app.state = .active false
  rebuilt : .rebuildSavedPage ∈ c.effects → ∀ spec, c.app.currentPageSpec = some spec →
    spec.isAlert = false

namespace Paged

variable {c c' : EventLoop}

/-- What is pushed to the panel or posted changes nothing of this. -/
theorem congr (h : c.Paged) (hpage : c'.page = c.page) (happ : c'.app = c.app)
    (heffects : c'.effects = c.effects) : c'.Paged where
  active := happ ▸ h.active
  modal := by rw [happ, hpage, h.modal]
  signing := heffects ▸ h.signing
  due := by
    rw [happ, heffects]
    exact h.due
  awake := by
    rw [happ, heffects]
    exact h.awake
  saved := happ ▸ h.saved
  rebuilt := by
    rw [happ, heffects]
    exact h.rebuilt

theorem tryRenderPage (h : c.Paged) (push : UpdateOutcome) : (c.tryRenderPage push).Paged := by
  cases push <;> exact h.congr rfl rfl rfl

theorem tryRenderPageTransition (h : c.Paged) (push : UpdateOutcome) :
    (c.tryRenderPageTransition push).Paged := by
  cases push <;> exact h.congr rfl rfl rfl

theorem animate (h : c.Paged) (push : UpdateOutcome) : (c.animate push).Paged := by
  unfold EventLoop.animate
  split
  · exact h.tryRenderPage push
  · exact h

theorem flush (h : c.Paged) (push : UpdateOutcome) : (c.flush push).Paged := by
  have hnone : Paged { c with pending := .none } := h.congr rfl rfl rfl
  unfold EventLoop.flush
  dsimp only
  split
  · cases c.pending with
    | none => exact hnone
    | inPlace =>
      cases push with
      | done => exact hnone.tryRenderPage .done
      | busy => exact hnone.congr rfl rfl rfl
    | transition => exact hnone.tryRenderPageTransition push
  · exact hnone

/-- The effects that are left, once the first is taken: the alert and the screensaver turn the page
alone. -/
theorem rest {e : Effect} {es : List Effect} (h : c.Paged) (heffects : c.effects = e :: es) :
    Paged { c with effects := es } ∧
      (e.turns = true → ∀ e' ∈ es, e'.isAlert = false ∧ e' ≠ .dropCurrentPage) := by
  have htail : ∀ e' ∈ es, e' ∈ c.effects := fun e' he' => heffects ▸ List.mem_cons_of_mem _ he'
  have hcount : es.countP Effect.turns ≤ c.effects.countP Effect.turns := by
    rw [heffects]
    exact (List.sublist_cons_self e es).countP_le
  refine ⟨⟨h.active, h.modal, fun e' he' => h.signing e' (htail e' he'), ?_,
    fun e' he' => h.awake e' (htail e' he'), h.saved, fun he' => h.rebuilt (htail _ he')⟩, ?_⟩
  · intro e' he' hdue
    obtain ⟨hmodal, hone⟩ := h.due e' (htail e' he') hdue
    exact ⟨hmodal, hcount.trans hone⟩
  · intro hturns e' he'
    by_contra hnot
    have hdue : e'.isAlert = true ∨ e' = .dropCurrentPage := by
      cases halert : e'.isAlert with
      | true => exact .inl rfl
      | false =>
        refine .inr ?_
        by_contra hdrop
        exact hnot ⟨halert, hdrop⟩
    have hturns' : e'.turns = true := by
      rcases hdue with halert | rfl
      · cases e' <;> first | rfl | cases halert
      · rfl
    have hone := (h.due e' (htail e' he') hdue).2
    have hpos := List.countP_pos_iff.2 ⟨e', he', hturns'⟩
    rw [heffects, List.countP_cons_of_pos hturns] at hone
    omega

/-- A page that is put up for an effect that turns the page, with the page that is saved. -/
theorem turn (h : c.Paged) (s : Screen) (app : App) (needsAnimation : Bool)
    (hstate : app.state = c.app.state) (hmodal : app.currentPageModal = s.isModal)
    (hnone : ∀ e ∈ c.effects, e.isAlert = false ∧ e ≠ .dropCurrentPage)
    (hsaved : ∀ spec, app.currentPageSpec = some spec → spec.isAlert = true →
      app.currentPageModal = true ∧ app.state = .active false)
    (hrebuilt : .rebuildSavedPage ∈ c.effects → ∀ spec, app.currentPageSpec = some spec →
      spec.isAlert = false) :
    Paged { c with page := s, app, needsAnimation } where
  active := hstate ▸ h.active
  modal := hmodal
  signing := h.signing
  due := by
    intro e he hdue
    rcases hdue with halert | hdrop
    · rw [(hnone e he).1] at halert
      cases halert
    · exact absurd hdrop (hnone e he).2
  awake := by
    intro e he halert
    rw [(hnone e he).1] at halert
    cases halert
  saved := hsaved
  rebuilt := hrebuilt

/-- The saved page, put up. -/
theorem putUp (h : c.Paged) {spec : PageSpec} (app : App) (push : UpdateOutcome)
    (hstate : app.state = c.app.state) (hsaved : app.currentPageSpec = some spec)
    (hnone : ∀ e ∈ c.effects, e.isAlert = false ∧ e ≠ .dropCurrentPage)
    (halert : spec.isAlert = true → c.app.state = .active false ∧ .rebuildSavedPage ∉ c.effects) :
    (EventLoop.putUp push spec { c with app }).Paged := by
  have hmodal : spec.isAlert = true → spec.isModal = true := by
    intro hspec
    cases spec <;> first | rfl | cases hspec
  refine (h.turn (.page spec) { app with currentPageModal := spec.isModal } false hstate rfl hnone
    ?_ ?_).tryRenderPageTransition push
  · intro spec' hspec' halert'
    obtain rfl := Option.some.inj (hsaved.symm.trans hspec')
    exact ⟨hmodal halert', hstate.trans (halert halert').1⟩
  · intro hrebuild spec' hspec'
    obtain rfl := Option.some.inj (hsaved.symm.trans hspec')
    cases hspec : spec.isAlert with
    | false => rfl
    | true => exact absurd hrebuild (halert hspec).2

/-- **An effect** keeps it. -/
theorem applyEffect {io : EffectIo} {e : Effect} {es : List Effect} (h : c.Paged)
    (heffects : c.effects = e :: es)
    (hstep : EventLoop.applyEffect io { c with effects := es } e = some c') : c'.Paged := by
  have hhead : e ∈ c.effects := heffects ▸ List.mem_cons_self
  obtain ⟨hrest, hnone⟩ := h.rest heffects
  have hsigning : App.signing e = true := by
    rcases h.signing e hhead with hsigning | ⟨title, message, rfl⟩
    · exact hsigning
    · cases hstep
  cases e with
  | showPage spec =>
    by_cases hlocked : spec = .deviceLocked
    · subst hlocked
      cases hstep
      exact hrest.congr rfl rfl rfl
    · rw [applyEffect_showPage hlocked] at hstep
      cases hstep
      -- an alert is the only effect of its list that turns the page
      refine hrest.putUp { c.app with currentPageSpec := some spec } io.push rfl rfl (hnone rfl)
        fun hspec => ⟨h.awake _ hhead hspec, fun hrebuild => ?_⟩
      have hone := (h.due _ hhead (.inl hspec)).2
      have hpos : 0 < es.countP Effect.turns := List.countP_pos_iff.2 ⟨_, hrebuild, rfl⟩
      rw [heffects, List.countP_cons_of_pos rfl] at hone
      omega
  | showProgress => cases hsigning
  | emit event => cases hsigning
  | updateWatermark pkh chainId level =>
    cases hstep
    unfold EventLoop.applyWatermarkUpdate
    split
    · exact hrest.congr rfl rfl rfl
    · refine (hrest.turn _ { c.app with currentPageModal := true } c.needsAnimation rfl rfl
        (hnone rfl) (fun spec hspec halert => ⟨rfl, (h.saved spec hspec halert).2⟩)
        hrest.rebuilt).tryRenderPageTransition io.push
  | dropCurrentPage =>
    cases hstep
    exact (hrest.turn .screensaver c.app c.needsAnimation rfl (h.due _ hhead (.inr rfl)).1
      (hnone rfl) h.saved hrest.rebuilt).congr rfl rfl rfl
  | rebuildSavedPage =>
    simp only [EventLoop.applyEffect] at hstep
    cases hsaved : c.app.currentPageSpec with
    | none =>
      simp only [hsaved] at hstep
      cases hstep
      exact hrest
    | some spec =>
      simp only [hsaved] at hstep
      cases hstep
      refine hrest.putUp c.app io.push rfl hsaved (hnone rfl) fun halert => ?_
      rw [h.rebuilt hhead spec hsaved] at halert
      cases halert
  | wakeDisplay | sleepDisplay | startSigner =>
    simp only [EventLoop.applyEffect] at hstep
    split at hstep <;> cases hstep
    exact hrest
  | resetActivity =>
    cases hstep
    exact hrest
  | _ => cases hsigning

/-- Effects that show no alert and leave the screensaver alone. -/
theorem ask (h : c.Paged) (app : App) (effects : List Effect) (hstate : app.state = c.app.state)
    (hmodal : app.currentPageModal = c.app.currentPageModal)
    (hspec : app.currentPageSpec = c.app.currentPageSpec)
    (heffects : ∀ e ∈ effects, App.signing e = true ∧ e.isAlert = false ∧ e ≠ .dropCurrentPage ∧
      e ≠ .rebuildSavedPage) : Paged { c with app, effects } where
  active := hstate ▸ h.active
  modal := hmodal.trans h.modal
  signing := fun e he => .inl (heffects e he).1
  due := by
    intro e he hdue
    rcases hdue with halert | hdrop
    · rw [(heffects e he).2.1] at halert
      cases halert
    · exact absurd hdrop (heffects e he).2.2.1
  awake := by
    intro e he halert
    rw [(heffects e he).2.1] at halert
    cases halert
  saved := by
    intro spec hsaved halert
    obtain ⟨hm, hs⟩ := h.saved spec (hspec ▸ hsaved) halert
    exact ⟨hmodal.trans hm, hstate.trans hs⟩
  rebuilt := fun he => absurd rfl (heffects _ he).2.2.2

/-- A saved alert keeps the device from the screensaver. -/
theorem saved_awake (h : c.Paged) (hasleep : c.app.isScreensaverActive = true) (spec : PageSpec)
    (hsaved : c.app.currentPageSpec = some spec) : spec.isAlert = false := by
  cases halert : spec.isAlert with
  | false => rfl
  | true =>
    have hstate := (h.saved spec hsaved halert).2
    rw [App.isScreensaverActive, hstate] at hasleep
    cases hasleep

/-- Nor is one saved while no modal page is up. -/
theorem saved_calm (h : c.Paged) (hmodal : c.app.currentPageModal = false) (spec : PageSpec)
    (hsaved : c.app.currentPageSpec = some spec) : spec.isAlert = false := by
  cases halert : spec.isAlert with
  | false => rfl
  | true =>
    rw [(h.saved spec hsaved halert).1] at hmodal
    cases hmodal

/-- Effects of which one turns the page, while no modal page is up. -/
theorem askAlone (h : c.Paged) (app : App) (effects : List Effect) {b : Bool}
    (hstate : app.state = .active b) (hcalm : c.app.currentPageModal = false)
    (hmodal : app.currentPageModal = c.app.currentPageModal)
    (hspec : app.currentPageSpec = c.app.currentPageSpec)
    (hsigning : ∀ e ∈ effects, App.signing e = true) (hone : effects.countP Effect.turns = 1)
    (hawake : ∀ e ∈ effects, e.isAlert = true → b = false) :
    Paged { c with app, effects } where
  active := ⟨b, hstate⟩
  modal := hmodal.trans h.modal
  signing := fun e he => .inl (hsigning e he)
  due := fun _ _ _ => ⟨hmodal.trans hcalm, hone.le⟩
  awake := fun e he halert => hawake e he halert ▸ hstate
  saved := by
    intro spec hsaved halert
    rw [h.saved_calm hcalm spec (hspec ▸ hsaved)] at halert
    cases halert
  rebuilt := fun _ spec hsaved => h.saved_calm hcalm spec (hspec ▸ hsaved)

/-- **An event** keeps it. -/
theorem turnActive {event : AppEvent} {app : App} {effects : List Effect} (h : c.Paged)
    (hturn : App.ActiveTurn c.app event app effects) : Paged { c with app, effects } := by
  obtain ⟨b, hactive⟩ := h.active
  cases hturn with
  | still _ _ => exact h.ask _ _ rfl rfl rfl (List.forall_mem_nil _)
  | shown _ _ hspec =>
    refine h.ask _ _ rfl rfl rfl fun e he => ?_
    rw [List.mem_singleton.1 he]
    exact ⟨rfl, hspec, nofun, nofun⟩
  | started _ =>
    refine h.ask _ _ rfl rfl rfl fun e he => ?_
    simp only [List.mem_cons, List.not_mem_nil, or_false] at he
    rcases he with rfl | rfl | rfl <;> exact ⟨rfl, rfl, nofun, nofun⟩
  | updated _ _ _ =>
    refine h.ask _ _ rfl rfl rfl fun e he => ?_
    rw [List.mem_singleton.1 he]
    exact ⟨rfl, rfl, nofun, nofun⟩
  | dismissed =>
    refine h.ask _ _ rfl rfl rfl fun e he => ?_
    rw [List.mem_singleton.1 he]
    exact ⟨rfl, rfl, nofun, nofun⟩
  | asleep hmodal =>
    refine h.askAlone _ _ (App.setScreensaver_state hactive true) hmodal
      (c.app.setScreensaver_modal true) (c.app.setScreensaver_spec true) ?_ rfl ?_
    · simp [App.signing]
    · simp [Effect.isAlert]
  | woken _ pages _ hasleep hpages =>
    have hsaved : ∀ spec, (c.app.setScreensaver false).currentPageSpec = some spec →
        spec.isAlert = false := by
      intro spec hspec
      rw [App.setScreensaver_spec] at hspec
      exact h.saved_awake hasleep spec hspec
    have hnone : ∀ e ∈ [.wakeDisplay, .rebuildSavedPage, .resetActivity] ++
        pages.map Effect.showPage, App.signing e = true ∧ e.isAlert = false ∧
          e ≠ .dropCurrentPage := by
      intro e he
      rcases List.mem_append.1 he with he | he
      · simp only [List.mem_cons, List.not_mem_nil, or_false] at he
        rcases he with rfl | rfl | rfl <;> exact ⟨rfl, rfl, nofun⟩
      · obtain ⟨spec, hspec, rfl⟩ := List.mem_map.1 he
        exact ⟨rfl, hpages spec hspec, nofun⟩
    refine ⟨⟨false, App.setScreensaver_state hactive false⟩, ?_, fun e he => .inl (hnone e he).1, ?_,
      ?_, ?_, fun _ => hsaved⟩
    · exact (c.app.setScreensaver_modal false).trans h.modal
    · intro e he hdue
      rcases hdue with halert | hdrop
      · rw [(hnone e he).2.1] at halert
        cases halert
      · exact absurd hdrop (hnone e he).2.2
    · intro e he halert
      rw [(hnone e he).2.1] at halert
      cases halert
    · intro spec hspec halert
      rw [hsaved spec hspec] at halert
      cases halert
  | raised pkh hmodal hraised =>
    obtain ⟨asked, hasked⟩ : ∃ app : App,
        app = { c.app with unknownKeys := (c.app.unknownKeys.record pkh).2 } := ⟨_, rfl⟩
    have hkept : asked.currentPageModal = c.app.currentPageModal ∧
        asked.currentPageSpec = c.app.currentPageSpec ∧ asked.state = .active b := by
      rw [hasked]
      exact ⟨rfl, rfl, hactive⟩
    obtain ⟨hm, hs, hstate⟩ := hkept
    rw [← hasked]
    rcases asked.wakeWithoutRebuild_cases with ⟨-, hwake⟩ | ⟨hawake, hwake⟩
    · rw [hwake]
      refine h.askAlone _ _ (App.setScreensaver_state hstate false) hmodal
        ((asked.setScreensaver_modal false).trans hm) ((asked.setScreensaver_spec false).trans hs)
        ?_ rfl fun _ _ _ => rfl
      simp [App.signing]
    · rw [hwake]
      have hfalse : asked.state = .active false := by
        rw [App.isScreensaverActive, hstate] at hawake
        rw [hstate]
        cases b with
        | false => rfl
        | true => cases hawake
      refine h.askAlone _ _ hfalse hmodal hm hs ?_ rfl fun _ _ _ => rfl
      simp [App.signing]

end Paged

/-- No effect touches the record of the alert. -/
theorem applyEffect_unknownKeys {c c' : EventLoop} {io : EffectIo} {e : Effect}
    (hstep : c.applyEffect io e = some c') : c'.app.unknownKeys = c.app.unknownKeys := by
  have hrender : ∀ (push : UpdateOutcome) (c : EventLoop),
      (c.tryRenderPageTransition push).app.unknownKeys = c.app.unknownKeys := by
    intro push c
    cases push <;> rfl
  cases e with
  | showPage spec =>
    by_cases hlocked : spec = .deviceLocked
    · subst hlocked
      cases hstep
      rfl
    · rw [applyEffect_showPage hlocked] at hstep
      cases hstep
      exact hrender ..
  | showProgress =>
    cases hstep
    exact hrender ..
  | updateWatermark =>
    cases hstep
    unfold EventLoop.applyWatermarkUpdate
    split
    · rfl
    · exact hrender ..
  | rebuildSavedPage =>
    simp only [EventLoop.applyEffect] at hstep
    split at hstep <;> cases hstep
    · rfl
    · exact hrender ..
  | sleep =>
    cases hstep
    unfold EventLoop.animate
    split
    · unfold EventLoop.tryRenderPage
      split <;> rfl
    · rfl
  | fatalError => cases hstep
  | exit => cases hstep
  | wakeDisplay | sleepDisplay | sleepDevice | startSigner | initWatermark | dropPrivileges
  | remountKeysReadonly | processWatermarkConfig | verifyStorage =>
    simp only [EventLoop.applyEffect] at hstep
    split at hstep <;> cases hstep
    rfl
  | _ =>
    cases hstep
    rfl

/-- What holds between two actions, with the keys that raised the alert so far. -/
def Alerted (c : EventLoop) (shown : List String) : Prop :=
  c.Paged ∧ c.app.unknownKeys.Recorded shown

section

variable [PageLayout] {c c' : EventLoop} {shown : List String}

/-- Handling an event. -/
theorem Alerted.handleNext {io : AppIo} (h : c.Alerted shown) (hempty : c.effects = [])
    (hstep : c.handleNext io = some c') :
    c'.Alerted (shown ++ (c.alerting (.handle io)).toList) := by
  obtain ⟨hpaged, hrecorded⟩ := h
  unfold EventLoop.handleNext at hstep
  cases hq : c.queue with
  | nil =>
    simp only [hq] at hstep
    cases hstep
  | cons w queue =>
    obtain ⟨event, panel⟩ := w
    have halerting : c.alerting (.handle io) =
        App.raisedBy (c.app.handleEvent io event).2.2 event := by
      simp only [alerting, hempty, hq]
    rw [halerting]
    simp only [hq] at hstep
    have hnone : App.raisedBy (c.app.handleEvent io event).2.2 event = none →
        shown ++ (App.raisedBy (c.app.handleEvent io event).2.2 event).toList = shown := by
      intro hnone
      rw [hnone]
      exact List.append_nil _
    obtain ⟨b, hstate⟩ := hpaged.active
    have hturned : event ≠ .shutdown → (∀ title message, event ≠ .fatalError title message) →
        Alerted { c with
          app := (c.app.handleEvent io event).1, effects := (c.app.handleEvent io event).2.2 }
          (shown ++ (App.raisedBy (c.app.handleEvent io event).2.2 event).toList) ∧
        ((c.app.handleEvent io event).2.1 = .continue → (c.app.handleEvent io event).2.2 = []) := by
      intro hshutdown hfatal
      obtain ⟨hturn, hcontinue⟩ := App.handleEvent_turn io hstate hshutdown hfatal
      exact ⟨⟨hpaged.turnActive hturn, hturn.recorded hrecorded⟩, hcontinue⟩
    cases event with
    | touch x y =>
      rw [hnone rfl]
      cases hstep
      unfold EventLoop.handleTouch
      split <;> exact ⟨hpaged.congr rfl rfl rfl, hrecorded⟩
    | invalidate =>
      rw [hnone rfl]
      cases hstep
      exact ⟨hpaged.congr rfl rfl rfl, hrecorded⟩
    | shutdown => cases hstep
    | fatalError title message =>
      rw [hnone rfl]
      cases hstep
      refine ⟨⟨hpaged.active, hpaged.modal, ?_, ?_, ?_, hpaged.saved, ?_⟩, hrecorded⟩
      · intro e he
        exact .inr ⟨title, message, List.mem_singleton.1 he⟩
      · intro e he hdue
        rw [List.mem_singleton.1 he] at hdue
        rcases hdue with halert | hdrop
        · cases halert
        · cases hdrop
      · intro e he halert
        rw [List.mem_singleton.1 he] at halert
        cases halert
      · intro he
        cases List.mem_singleton.1 he
    | _ =>
      obtain ⟨⟨hpaged', hrecorded'⟩, hcontinue⟩ := hturned nofun nofun
      dsimp only at hstep
      split at hstep
      · rename_i haction
        cases hstep
        refine ⟨hpaged'.congr rfl rfl ?_, hrecorded'⟩
        exact hempty.trans (hcontinue haction).symm
      · cases hstep
      · cases hstep
        exact ⟨hpaged'.congr rfl rfl rfl, hrecorded'⟩

/-- **One step** keeps it, with the key that the step raises the alert for. -/
theorem step_alerted (c : EventLoop) (a : Action) (c' : EventLoop) (shown : List String)
    (h : c.Alerted shown) (hstep : c.step a = some c') :
    c'.Alerted (shown ++ (c.alerting a).toList) := by
  have hkeep : c'.Paged → c'.app.unknownKeys = c.app.unknownKeys → c.alerting a = none →
      c'.Alerted (shown ++ (c.alerting a).toList) := by
    intro hpaged hsame hnone
    rw [hnone, Option.toList_none, List.append_nil]
    exact ⟨hpaged, hsame ▸ h.2⟩
  cases a with
  | post event =>
    simp only [step] at hstep
    split at hstep <;> cases hstep
    exact hkeep (h.1.congr rfl rfl rfl) rfl rfl
  | handle io =>
    simp only [step] at hstep
    split at hstep
    · rename_i hempty
      exact h.handleNext (List.isEmpty_iff.1 hempty) hstep
    · cases hstep
  | effect io =>
    simp only [step] at hstep
    cases heffects : c.effects with
    | nil =>
      simp only [heffects] at hstep
      cases hstep
    | cons e es =>
      simp only [heffects] at hstep
      have hsame := applyEffect_unknownKeys hstep
      exact hkeep (h.1.applyEffect heffects hstep) hsame rfl
  | flush push =>
    simp only [step] at hstep
    split at hstep <;> cases hstep
    exact hkeep ((h.1.flush push).congr rfl rfl rfl) (congrArg App.unknownKeys (c.flush_app push))
      rfl
  | timeout animation push =>
    simp only [step] at hstep
    split at hstep <;> cases hstep
    refine hkeep ((h.1.animate animation).flush push) ?_ rfl
    rw [flush_app, animate_app]

omit [PageLayout] in
/-- The device whose signer was started. -/
theorem signerStarted_alerted (queue : List Waiting) (panel : Screen) :
    (signerStarted queue panel).Alerted [] where
  left := by
    refine ⟨⟨false, rfl⟩, rfl, List.forall_mem_nil _, ?_, ?_, ?_, ?_⟩
    · intro e he
      cases he
    · intro e he
      cases he
    · intro spec hspec halert
      cases hspec
      cases halert
    · intro he
      cases he
  right := ⟨rfl, List.nodup_nil, Nat.zero_le _, rfl⟩

/-- The keys that the actions of a run raise the alert for. -/
def alerts (c : EventLoop) (acts : List Action) : List String := Automaton.emitted step alerting c acts

/-- **The alerts for unknown keys.** In every run of a device that signs, whatever is asked for,
dismissed, touched or shown besides: the keys remembered are distinct and at most as many as the
cap; the alert is raised once for a key, and at most once more often than the cap; a key that was
not shown, with room left, raises an alert that names it, where no modal page is up; and no alert is
put up where one is. -/
theorem unknown_key_alerts (queue : List Waiting) (panel : Screen) (acts : List Action)
    (c : EventLoop) (h : Automaton.run step (signerStarted queue panel) acts = some c) :
    let shown := alerts (signerStarted queue panel) acts
    (c.app.unknownKeys.pkhs.Nodup ∧ c.app.unknownKeys.pkhs.length ≤ UnknownKeyAlert.cap) ∧
    (shown.Nodup ∧ shown.length ≤ UnknownKeyAlert.cap + 1) ∧
    (∀ io pkh seen rest, c.effects = [] → c.queue = ⟨.unknownKeyRequested pkh, seen⟩ :: rest →
      c.page.isModal = false → pkh ∉ shown → shown.length < UnknownKeyAlert.cap →
      ∃ c', c.step (.handle io) = some c' ∧ c.alerting (.handle io) = some pkh ∧
        .showPage (.notice UnknownKeyAlert.title
          (UnknownKeyAlert.message ⟨pkh, shown.length, false⟩) .unknownKeyDismissed) ∈
            c'.effects) ∧
    ∀ spec, c.raised = some spec → spec.isAlert = true → c.page.isModal = false := by
  intro shown
  obtain ⟨hpaged, hrecorded⟩ : c.Alerted shown :=
    Automaton.run_emitted step_alerted (signerStarted_alerted queue panel) h
  refine ⟨⟨?_, ?_⟩, ⟨hrecorded.nodup, hrecorded.bounded⟩, ?_, ?_⟩
  · rw [hrecorded.pkhs]
    exact hrecorded.nodup.sublist (List.take_sublist _ _)
  · rw [hrecorded.pkhs]
    exact List.length_take_le _ _
  · intro io pkh seen rest hempty hqueue hcalm hnew hroom
    obtain ⟨b, hstate⟩ := hpaged.active
    have hmodal : c.app.currentPageModal = false := hpaged.modal.trans hcalm
    have hraised := hrecorded.record_iff.2 ⟨hnew, hroom.le⟩
    have hevent := App.handleEvent_unknownKey io hstate hmodal hraised
    rw [hrecorded.content hnew hroom] at hevent
    refine ⟨{ c with
      queue := rest, draining := true, app := (c.app.handleEvent io (.unknownKeyRequested pkh)).1
      updates := c.updates ++ []
      effects := (c.app.handleEvent io (.unknownKeyRequested pkh)).2.2 }, ?_, ?_, ?_⟩
    · simp only [step, hempty, List.isEmpty_nil, if_true, handleNext, hqueue]
      rw [hevent]
      rfl
    · simp only [alerting, hempty, hqueue]
      rw [hevent, App.raisedBy, if_pos]
      rw [List.any_append, Bool.or_eq_true]
      exact .inr rfl
    · rw [hevent]
      exact List.mem_append_right _ (List.mem_singleton_self _)
  · intro spec hraised halert
    unfold raised at hraised
    cases heffects : c.effects with
    | nil =>
      rw [heffects] at hraised
      cases hraised
    | cons e es =>
      rw [heffects] at hraised
      have hmem : e ∈ c.effects := heffects ▸ List.mem_cons_self
      cases e with
      | showPage spec' =>
        cases hraised
        rw [← hpaged.modal]
        exact (hpaged.due _ hmem (.inl halert)).1
      | rebuildSavedPage =>
        rw [hpaged.rebuilt hmem spec hraised] at halert
        cases halert
      | _ => cases hraised

end

section

attribute [local instance] dialogLayout

/-- A key is asked for, acknowledged and asked for again; then another one is. -/
def acknowledgedRun : List Action :=
  [.post (.unknownKeyRequested "tz4first"), .handle ⟨0, false⟩, .effect quiet,
    .post .unknownKeyDismissed, .handle ⟨0, false⟩, .effect quiet,
    .post (.unknownKeyRequested "tz4first"), .handle ⟨0, false⟩, .flush .done,
    .post (.unknownKeyRequested "tz4second")]

/-- The first key raised the alert once, and the second one raises it. -/
theorem unknown_key_alerts_second : ∃ c c',
    Automaton.run step (signerStarted [] (.page .menu)) acknowledgedRun = some c ∧
      alerts (signerStarted [] (.page .menu)) acknowledgedRun = ["tz4first"] ∧
      c.step (.handle ⟨0, false⟩) = some c' ∧
      c.alerting (.handle ⟨0, false⟩) = some "tz4second" := by
  have hend : (Automaton.run step (signerStarted [] (.page .menu)) acknowledgedRun).map
      (fun c => (c.effects, c.queue.map (·.event), c.page)) =
        some ([], [.unknownKeyRequested "tz4second"], .page .menu) := by decide +kernel
  have hshown : alerts (signerStarted [] (.page .menu)) acknowledgedRun = ["tz4first"] := by
    decide +kernel
  obtain ⟨c, hrun, hc⟩ := Option.map_eq_some_iff.1 hend
  obtain ⟨heffects, hrest⟩ := Prod.mk.inj hc
  obtain ⟨hqueue, hpage⟩ := Prod.mk.inj hrest
  obtain ⟨⟨event, seen⟩, rest, hqueue, hevent, -⟩ := List.map_eq_cons_iff.1 hqueue
  obtain rfl : event = .unknownKeyRequested "tz4second" := hevent
  obtain ⟨-, -, hraise, -⟩ := unknown_key_alerts [] (.page .menu) acknowledgedRun c hrun
  rw [hshown] at hraise
  obtain ⟨c', hstep, halerting, -⟩ := hraise ⟨0, false⟩ _ _ _ heffects hqueue
    (by rw [hpage]; rfl) (by decide) (by decide)
  exact ⟨c, c', hrun, hshown, hstep, halerting⟩

end

end EventLoop

end Russignol
