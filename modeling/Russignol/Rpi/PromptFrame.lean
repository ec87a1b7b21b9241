import Russignol.Rpi.DeferredRender

/-!
# A frame before a `Sleep` or an `Exit`

A `Sleep` or an `Exit` waits for nothing: a frame before it in its effect list is on the panel only
if the panel took it at once, or at an animation tick of the `Sleep` (`Taken`). `Prompt` is what
every step keeps then. A frame that no such effect is behind is deferred as any other.
-/

namespace Russignol

namespace EventLoop

/-- Where a `Sleep` or an `Exit` is ahead, no frame of its list was left behind, but the one that
the animation of a `Sleep` just ahead still pushes. -/
structure Prompt (c : EventLoop) (r : Renders) : Prop where
  missed : c.effects.any Effect.waits = true → r.missed = false
  due : c.effects.any Effect.waits = true → r.due = true →
    (∃ duration es, c.effects = .sleep duration :: es) ∧ c.needsAnimation = true ∧
      c.app.isScreensaverActive = false

/-- A frame with a `Sleep` or an `Exit` behind it meets an idle panel: as it is shown, or, where it
is a timed progress frame right before a `Sleep`, at a tick of its animation. -/
def Taken (c : EventLoop) (r : Renders) : Action → Prop
  | .effect io =>
    match c.effects with
    | [] => True
    | .sleep _ :: _ => r.due = true → io.push = .done
    | .showProgress _ (some _) _ _ :: .sleep _ :: _ =>
      io.push = .done ∨ c.app.isScreensaverActive = false
    | e :: es => c.defers io e = true → es.any Effect.waits = true → io.push = .done
  | _ => True

namespace Prompt

variable {c c' : EventLoop} {r : Renders}

/-- It is enough that nothing was left behind at all. -/
theorem of_clear (h : c.effects.any Effect.waits = true → r.missed = false ∧ r.due = false) :
    Prompt c r where
  missed hwaits := (h hwaits).1
  due hwaits hdue := by
    rw [(h hwaits).2] at hdue
    cases hdue

theorem congr (h : Prompt c r) (heffects : c'.effects = c.effects)
    (hanimation : c'.needsAnimation = c.needsAnimation) (happ : c'.app = c.app) : Prompt c' r where
  missed hwaits := h.missed (heffects ▸ hwaits)
  due hwaits hdue := by
    rw [heffects] at hwaits ⊢
    rw [hanimation, happ]
    exact h.due hwaits hdue

/-- A list whose first effect is not a `Sleep` has no frame that is due. -/
theorem clear (h : Prompt c r) {e : Effect} {es : List Effect} (heffects : c.effects = e :: es)
    (hsleep : ∀ duration, e ≠ .sleep duration) (hwaits : (e :: es).any Effect.waits = true) :
    r.missed = false ∧ r.due = false := by
  rw [← heffects] at hwaits
  refine ⟨h.missed hwaits, ?_⟩
  cases hdue : r.due with
  | false => rfl
  | true =>
    obtain ⟨⟨duration, es', hlist⟩, -⟩ := h.due hwaits hdue
    rw [heffects] at hlist
    exact absurd (List.cons.inj hlist).1 (hsleep duration)

end Prompt

section

variable [PageLayout] {c c' : EventLoop} {r : Renders}

omit [PageLayout] in
/-- **An effect loses no frame** that meets the condition, and leaves none behind. -/
theorem Prompt.effect {io : EffectIo} {e : Effect} {es : List Effect} (h : Prompt c r)
    (hlost : r.lost = false) (heffects : c.effects = e :: es) (htaken : c.Taken r (.effect io)) :
    (c.noteEffect io e r).lost = false ∧
      ∀ c', { c with effects := es }.applyEffect io e = some c' →
        Prompt c' (c.noteEffect io e r) := by
  -- what is left behind when the effects after this one hold a `Sleep` or an `Exit`
  have hclear : (∀ duration, e ≠ .sleep duration) → es.any Effect.waits = true →
      r.missed = false ∧ r.due = false := by
    intro hsleep hwaits
    refine h.clear heffects hsleep ?_
    rw [List.any_cons, hwaits, Bool.or_true]
  have hafter : ∀ {r' : Renders}, (es.any Effect.waits = true → r'.missed = false ∧ r'.due = false) →
      ∀ c', { c with effects := es }.applyEffect io e = some c' → Prompt c' r' := by
    intro r' hr' c' hstep
    have hrest : c'.effects = es := (applyEffect_frame hstep).2
    refine .of_clear fun hwaits => hr' ?_
    rw [← hrest]
    exact hwaits
  have hshown : (∀ duration, e ≠ .sleep duration) →
      (es.any Effect.waits = true → io.push = .done) →
      es.any Effect.waits = true → (r.shown io.push).missed = false ∧
        (r.shown io.push).due = false := by
    intro hsleep hdone hwaits
    rw [hdone hwaits]
    exact Renders.shown_clear (hclear hsleep hwaits)
  have hdefers : (∀ duration, e ≠ .sleep duration) →
      (c.defers io e = true → es.any Effect.waits = true → io.push = .done) →
      ∀ c', { c with effects := es }.applyEffect io e = some c' →
        Prompt c' (if c.defers io e then r.shown io.push else r) := by
    intro hsleep hdone
    refine hafter ?_
    split
    · rename_i hdefer
      exact hshown hsleep (hdone hdefer)
    · exact hclear hsleep
  simp only [Taken, heffects] at htaken
  cases e with
  | sleep duration =>
    have hmissed : r.missed = false := h.missed (by rw [heffects]; rfl)
    have hticked : (c.noteAnimation io.push r).due = false := by
      cases hdue : r.due with
      | false =>
        unfold noteAnimation
        split
        · cases io.push with
          | done => rfl
          | busy => exact hdue
        · exact hdue
      | true =>
        obtain ⟨-, hanimation, hactive⟩ := h.due (by rw [heffects]; rfl) hdue
        rw [htaken hdue]
        simp [noteAnimation, hanimation, hactive, Renders.tick, Renders.pushed]
    refine ⟨?_, hafter fun _ => ⟨?_, hticked⟩⟩
    · show ((c.noteAnimation io.push r).lost || (c.noteAnimation io.push r).due ||
        (c.noteAnimation io.push r).missed) = false
      rw [hticked, noteAnimation_lost, noteAnimation_missed, hlost, hmissed]
      rfl
    · exact (noteAnimation_missed io.push c r).trans hmissed
  | exit code =>
    obtain ⟨hmissed, hdue⟩ := h.clear heffects (fun _ => Effect.noConfusion) rfl
    refine ⟨?_, fun c' hstep => by cases hstep⟩
    show (r.lost || r.due || r.missed) = false
    rw [hlost, hdue, hmissed]
    rfl
  | showPage spec =>
    by_cases hlocked : spec = .deviceLocked
    · subst hlocked
      refine ⟨hlost, hafter fun hwaits => ⟨?_, rfl⟩⟩
      obtain ⟨hmissed, hdue⟩ := hclear (fun _ => Effect.noConfusion) hwaits
      show (r.missed || r.due) = false
      rw [hmissed, hdue]
      rfl
    · rw [noteEffect_showPage hlocked]
      refine ⟨(r.shown_lost io.push).trans hlost, hafter ?_⟩
      refine hshown (fun _ => Effect.noConfusion) (htaken ?_)
      cases spec with
      | deviceLocked => exact absurd rfl hlocked
      | _ => rfl
  | showProgress message duration modal percent =>
    refine ⟨(r.shown_lost io.push).trans hlost, ?_⟩
    cases duration with
    | none => exact hafter (hshown (fun _ => Effect.noConfusion) (htaken rfl))
    | some estimated =>
      cases es with
      | nil => exact hafter (hshown (fun _ => Effect.noConfusion) fun hwaits => by cases hwaits)
      | cons e es =>
        cases e with
        | sleep duration =>
          rcases htaken with hdone | hactive
          · exact hafter (hshown (fun _ => Effect.noConfusion) fun _ => hdone)
          · -- the animation of the `Sleep` pushes it
            intro c' hstep
            obtain ⟨hmissed, hdue⟩ := hclear (fun _ => Effect.noConfusion) rfl
            have hleft : (r.shown io.push).missed = false := by
              cases io.push <;> simp [Renders.shown, Renders.pushed, hmissed, hdue]
            cases hstep
            refine ⟨fun _ => hleft, fun _ _ => ⟨⟨duration, es, ?_⟩, ?_, ?_⟩⟩
            · simp
            · cases io.push <;> rfl
            · rw [tryRenderPageTransition_app]
              exact hactive
        | _ => exact hafter (hshown (fun _ => Effect.noConfusion) (htaken rfl))
  | rebuildSavedPage =>
    simp only [noteEffect]
    refine ⟨?_, hdefers (fun _ => Effect.noConfusion) htaken⟩
    split
    · exact (r.shown_lost io.push).trans hlost
    · exact hlost
  | updateWatermark pkh chainId level =>
    simp only [noteEffect]
    refine ⟨?_, hdefers (fun _ => Effect.noConfusion) htaken⟩
    split
    · exact (r.shown_lost io.push).trans hlost
    · exact hlost
  | dropCurrentPage =>
    refine ⟨hlost, hafter fun hwaits => ⟨?_, rfl⟩⟩
    obtain ⟨hmissed, hdue⟩ := hclear (fun _ => Effect.noConfusion) hwaits
    show (r.missed || r.due) = false
    rw [hmissed, hdue]
    rfl
  | _ => exact ⟨hlost, hafter (hclear fun _ => Effect.noConfusion)⟩

/-- **One step of the loop** loses no frame that meets the condition. -/
theorem Prompt.step {a : Action} (h : Prompt c r) (hlost : r.lost = false) (htaken : c.Taken r a) :
    (c.noteRender a r).lost = false ∧
      ∀ c', c.step a = some c' → Prompt c' (c.noteRender a r) := by
  cases a with
  | post event =>
    refine ⟨hlost, fun c' hstep => ?_⟩
    simp only [EventLoop.step] at hstep
    split at hstep <;> cases hstep
    exact h.congr rfl rfl rfl
  | handle io =>
    have hfresh : (c.noteEvent r).lost = r.lost ∧ (c.noteEvent r).missed = false ∧
        (c.noteEvent r).due = false := by
      unfold noteEvent
      split <;> exact ⟨rfl, rfl, rfl⟩
    exact ⟨hfresh.1.trans hlost, fun c' _ => .of_clear fun _ => hfresh.2⟩
  | effect io =>
    simp only [noteRender, EventLoop.step]
    cases heffects : c.effects with
    | nil => exact ⟨hlost, fun c' hstep => by cases hstep⟩
    | cons e es => exact h.effect hlost heffects htaken
  | flush push =>
    refine ⟨by simp [noteRender, hlost], fun c' hstep => ?_⟩
    simp only [EventLoop.step] at hstep
    split at hstep <;> cases hstep
    rename_i hready
    simp only [Bool.and_eq_true, List.isEmpty_iff] at hready
    refine .of_clear fun hwaits => ?_
    simp [hready.1.1] at hwaits
  | timeout animation push =>
    refine ⟨by simp [noteRender, hlost], fun c' hstep => ?_⟩
    simp only [EventLoop.step] at hstep
    split at hstep <;> cases hstep
    rename_i hready
    simp only [Bool.and_eq_true, List.isEmpty_iff] at hready
    refine .of_clear fun hwaits => ?_
    simp [hready.1.1] at hwaits

/-- **Deferred rendering loses no page.** Between two events of every run, so at the end of each
turn of the loop, the screensaver is on, or what is owed is deferred and the page that is up is on
the panel where nothing is owed. In a run in which every frame with a `Sleep` or an `Exit` behind it
meets an idle panel, each of them was pushed before that `Sleep` ended or the process exited. -/
theorem renders_kept (isFirstBoot : Bool) (touches : List (Int × Int)) (acts : List Action)
    (w : Automaton.Watched EventLoop Renders)
    (h : Automaton.run rendering.watch ⟨some (start isFirstBoot touches), Renders.blank⟩ acts =
      some w) :
    (∀ c ∈ w.state, c.effects = [] →
      c.app.isScreensaverActive = true ∨ c.Settled w.notes.owed) ∧
    (Automaton.Along rendering.watch (Automaton.Monitor.When Taken)
      ⟨some (start isFirstBoot touches), Renders.blank⟩ acts → w.notes.lost = false) := by
  constructor
  · have hgoing : ∀ c ∈ w.state, c.Going w.notes.owed :=
      Automaton.Monitor.watch_reaches (I := fun c r => c.Going r.owed)
        (fun _ _ _ _ hc hstep => hc.step hstep)
        (by rintro _ ⟨⟩; exact start_going isFirstBoot touches) h
    exact fun c hc heffects => (hgoing c hc).settled heffects
  · intro htaken
    have hprompt := Automaton.Monitor.watch_invariant (m := rendering) (I := Prompt)
      (P := fun r => r.lost = false)
      (fun c r a hc hlost htaken _ => hc.step hlost htaken)
      ⟨rfl, by rintro _ ⟨⟩; exact .of_clear fun _ => ⟨rfl, rfl⟩⟩ htaken h
    exact hprompt.1

instance (c : EventLoop) (r : Renders) (a : Action) : Decidable (c.Taken r a) :=
  match a with
  | .effect io => by
    unfold Taken
    dsimp only
    split <;> infer_instance
  | .post _ | .handle _ | .flush _ | .timeout .. => isTrue trivial

end

/-- The second PIN of a first boot is not the first one: the error page meets the panel so. -/
def mismatchRun (push : UpdateOutcome) : List Action :=
  [.post (.watermarkConfigChecked .present), .handle ⟨0, false⟩, .effect quiet, .flush .done,
    .post (.firstPinEntered [1]), .handle ⟨0, false⟩, .effect quiet, .flush .done,
    .post (.pinEntered [2]), .handle ⟨0, false⟩, .effect quiet, .handle ⟨0, false⟩,
    .effect ⟨push, .ok ()⟩, .effect quiet, .effect quiet, .flush .done]

section

attribute [local instance] dialogLayout

/-- On an idle panel the error page is shown before the wait. -/
theorem renders_kept_mismatch : ∃ w, Automaton.run rendering.watch
    ⟨some (start true []), Renders.blank⟩ (mismatchRun .done) = some w ∧ w.notes.lost = false := by
  have hnotes : (Automaton.run rendering.watch ⟨some (start true []), Renders.blank⟩
      (mismatchRun .done)).map (·.notes) = some Renders.blank := by decide +kernel
  obtain ⟨w, hrun, -⟩ := Option.map_eq_some_iff.1 hnotes
  exact ⟨w, hrun, (renders_kept true [] (mismatchRun .done) w hrun).2 (by decide +kernel)⟩

end

/-- **On a busy panel the error page is never shown**: the wait is over before its push is tried
again, and the PIN page takes its place. -/
theorem mismatch_unseen : ¬∀ [PageLayout] (isFirstBoot : Bool) (touches : List (Int × Int))
    (acts : List Action) (w : Automaton.Watched EventLoop Renders),
    Automaton.run rendering.watch ⟨some (start isFirstBoot touches), Renders.blank⟩ acts = some w →
      (∀ c ∈ w.state, c.effects = [] →
        c.app.isScreensaverActive = true ∨ c.Settled w.notes.owed) ∧ w.notes.lost = false := by
  intro hall
  have hlost : (Automaton.run (@rendering dialogLayout).watch ⟨some (start true []), Renders.blank⟩
      (mismatchRun .busy)).map (·.notes.lost) = some true := by decide +kernel
  obtain ⟨w, hrun, hnotes⟩ := Option.map_eq_some_iff.1 hlost
  rw [(@hall dialogLayout _ _ _ w hrun).2] at hnotes
  cases hnotes

end EventLoop

end Russignol
