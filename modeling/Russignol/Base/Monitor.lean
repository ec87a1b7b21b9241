import Russignol.Base.Automaton

/-!
# Runs under watch

A partial step function says that an action is refused and that the run is over in one way, by
`none`. `Monitor` tells them apart, and notes something at every action, the last one too: what it
notes outlives the run. `watch_invariant` is the induction rule: an invariant of the states and the
notes, and a property of the notes alone, which every action keeps.
-/

namespace Automaton

variable {σ ε τ : Type*}

/-- Who watches: which actions are open, where they lead (`none` where the run ends), and what is
noted of them. -/
structure Monitor (σ ε τ : Type*) where
  open? : σ → ε → Bool
  step : σ → ε → Option σ
  note : σ → ε → τ → τ

/-- A run, which may be over, and the notes on it. -/
structure Watched (σ τ : Type*) where
  state : Option σ
  notes : τ

namespace Monitor

/-- Take an action, if it is open. -/
def watch (m : Monitor σ ε τ) (w : Watched σ τ) (e : ε) : Option (Watched σ τ) :=
  w.state.bind fun s => if m.open? s e then some ⟨m.step s e, m.note s e w.notes⟩ else none

/-- A condition on the actions, with the state that they are taken from and the notes. -/
def When (G : σ → τ → ε → Prop) (w : Watched σ τ) (e : ε) : Prop := ∀ s ∈ w.state, G s w.notes e

instance {G : σ → τ → ε → Prop} [∀ s t e, Decidable (G s t e)] (w : Watched σ τ) (e : ε) :
    Decidable (When G w e) := by
  unfold When
  infer_instance

/-- What is known of a run: the notes are good, and its state, if it goes on, is as they say. -/
def Holds (I : σ → τ → Prop) (P : τ → Prop) (w : Watched σ τ) : Prop :=
  P w.notes ∧ ∀ s ∈ w.state, I s w.notes

/-- Under watch, an action is an open one. -/
theorem watch_cases {m : Monitor σ ε τ} {w w' : Watched σ τ} {e : ε} (h : m.watch w e = some w') :
    ∃ s, w.state = some s ∧ m.open? s e = true ∧ w' = ⟨m.step s e, m.note s e w.notes⟩ := by
  obtain ⟨s, hs, h⟩ := Option.bind_eq_some_iff.1 h
  split at h
  · rename_i hopen
    exact ⟨s, hs, hopen, (Option.some.inj h).symm⟩
  · cases h

/-- **The rule of the watch.** What every open action keeps, under a condition, is known of a run
all of whose actions meet it. -/
theorem watch_invariant {m : Monitor σ ε τ} {I : σ → τ → Prop} {P : τ → Prop}
    {G : σ → τ → ε → Prop}
    (hstep : ∀ s t e, I s t → P t → G s t e → m.open? s e = true →
      P (m.note s e t) ∧ ∀ s', m.step s e = some s' → I s' (m.note s e t))
    {es : List ε} {w w' : Watched σ τ} (hw : Holds I P w) (hG : Along m.watch (When G) w es)
    (hr : run m.watch w es = some w') : Holds I P w' := by
  refine run_invariant ?_ hw hG hr
  intro w e w' hw hG hstep'
  obtain ⟨s, hs, hopen, rfl⟩ := watch_cases hstep'
  exact hstep s w.notes e (hw.2 s hs) hw.1 (hG s hs) hopen

/-- Its form without a condition, for an invariant of the states that go on. -/
theorem watch_reaches {m : Monitor σ ε τ} {I : σ → τ → Prop}
    (hstep : ∀ s t e s', I s t → m.step s e = some s' → I s' (m.note s e t))
    {es : List ε} {w w' : Watched σ τ} (hw : ∀ s ∈ w.state, I s w.notes)
    (hr : run m.watch w es = some w') : ∀ s ∈ w'.state, I s w'.notes := by
  have hany : Along m.watch (When fun _ _ _ => True) w es :=
    Along.mono (fun _ _ _ _ _ => trivial) (along_of_forall (P := fun _ => True) w fun _ _ => trivial)
  have hholds : Holds I (fun _ => True) w' := by
    refine watch_invariant ?_ ⟨trivial, hw⟩ hany hr
    exact fun s t e hs _ _ _ => ⟨trivial, fun s' => hstep s t e s' hs⟩
  exact hholds.2

end Monitor

end Automaton
