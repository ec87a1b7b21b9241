import Mathlib.Data.List.Basic
import Mathlib.Logic.Relation
import Mathlib.Tactic.Common

/-!
# Runs of a partial step function

`run step s es` executes the actions `es` from `s`, where `step` may refuse an action. Two
induction rules carry every safety proof over runs: `run_invariant`, for an invariant that each
step keeps, and its form under a condition that every step of the run meets in the state it is
taken from (`Along`). `Simulated` is the same for a run that one step at a time follows steps of
an abstract relation.
-/

namespace Automaton

variable {σ ε : Type*} {step : σ → ε → Option σ}

/-- Execute the actions in order; `none` once an action is refused. -/
def run (step : σ → ε → Option σ) : σ → List ε → Option σ
  | s, [] => some s
  | s, e :: es => (step s e).bind (run step · es)

/-- Every action of the run is taken in a state in which it meets the condition `G`. -/
def Along (step : σ → ε → Option σ) (G : σ → ε → Prop) : σ → List ε → Prop
  | _, [] => True
  | s, e :: es => G s e ∧ ∀ t, step s e = some t → Along step G t es

/-- A condition that can be decided can be decided along a run. -/
def Along.decide {G : σ → ε → Prop} (hG : ∀ s e, Decidable (G s e)) :
    ∀ (s : σ) (es : List ε), Decidable (Along step G s es)
  | _, [] => isTrue trivial
  | s, e :: es =>
    match h : step s e with
    | none => @decidable_of_iff _ (G s e)
        ⟨fun hse => ⟨hse, fun _ ht => nomatch h.symm.trans ht⟩, And.left⟩ (hG s e)
    | some t => @decidable_of_iff _ (G s e ∧ Along step G t es)
        ⟨fun hse => ⟨hse.1, fun _ hu => Option.some.inj (h.symm.trans hu) ▸ hse.2⟩,
          fun hse => ⟨hse.1, hse.2 t h⟩⟩ (@instDecidableAnd _ _ (hG s e) (Along.decide hG t es))

instance {G : σ → ε → Prop} [hG : ∀ s e, Decidable (G s e)] (s : σ) (es : List ε) :
    Decidable (Along step G s es) := Along.decide hG s es

@[simp] theorem run_nil (s : σ) : run step s [] = some s := rfl

/-- A run of a non-empty list is a step and a run of the rest. -/
theorem run_cons {s u : σ} {e : ε} {es : List ε} :
    run step s (e :: es) = some u ↔ ∃ t, step s e = some t ∧ run step t es = some u := by
  simp only [run, Option.bind_eq_some_iff]

/-- A run of a list and then of another. -/
theorem run_append {s t u : σ} {es es' : List ε} (h : run step s es = some t)
    (h' : run step t es' = some u) : run step s (es ++ es') = some u := by
  induction es generalizing s with
  | nil =>
    cases h
    exact h'
  | cons e es ih =>
    obtain ⟨r, hr, hrun⟩ := run_cons.1 h
    exact run_cons.2 ⟨r, hr, ih hrun⟩

/-- A condition on the actions alone holds along a run when every action meets it. -/
theorem along_of_forall {P : ε → Prop} : ∀ {es : List ε} (s : σ), (∀ e ∈ es, P e) →
    Along step (fun _ e => P e) s es
  | [], _, _ => trivial
  | e :: _, _, h =>
    ⟨h e List.mem_cons_self, fun t _ => along_of_forall t fun e' he' =>
      h e' (List.mem_cons_of_mem _ he')⟩

/-- A condition that is implied holds along the run too. -/
theorem Along.mono {G H : σ → ε → Prop} (hGH : ∀ s e, G s e → H s e) : ∀ {es : List ε} {s : σ},
    Along step G s es → Along step H s es
  | [], _, _ => trivial
  | _ :: _, _, h => ⟨hGH _ _ h.1, fun t ht => Along.mono hGH (h.2 t ht)⟩

/-- Two conditions along one run. -/
theorem Along.and {G H : σ → ε → Prop} : ∀ {es : List ε} {s : σ},
    Along step G s es → Along step H s es → Along step (fun s e => G s e ∧ H s e) s es
  | [], _, _, _ => trivial
  | _ :: _, _, h, h' => ⟨⟨h.1, h'.1⟩, fun t ht => (h.2 t ht).and (h'.2 t ht)⟩

/-- A condition along a run and one more action. -/
theorem Along.concat {G : σ → ε → Prop} {e : ε} : ∀ {es : List ε} {s : σ}, Along step G s es →
    (∀ t, run step s es = some t → G t e) → Along step G s (es ++ [e])
  | [], s, _, h => ⟨h s rfl, fun _ _ => trivial⟩
  | _ :: _, _, hes, h =>
    ⟨hes.1, fun t ht => (hes.2 t ht).concat fun u hu => h u (run_cons.2 ⟨t, ht, hu⟩)⟩

/-- **The invariant rule.** An invariant that every step meeting `G` keeps holds at the end of a
run all of whose steps meet `G`. -/
theorem run_invariant {I : σ → Prop} {G : σ → ε → Prop}
    (hstep : ∀ s e t, I s → G s e → step s e = some t → I t) :
    ∀ {es : List ε} {s u : σ}, I s → Along step G s es → run step s es = some u → I u
  | [], s, u, hs, _, hr => by
    cases hr
    exact hs
  | e :: es, s, u, hs, hG, hr => by
    obtain ⟨t, ht, hr'⟩ := run_cons.1 hr
    exact run_invariant hstep (hstep s e t hs hG.1 ht) (hG.2 t ht) hr'

/-- Under an invariant that the steps keep, a condition that it gives holds along the run. -/
theorem Along.of_invariant {I : σ → Prop} {G H : σ → ε → Prop}
    (hstep : ∀ s e t, I s → G s e → step s e = some t → I t) (hH : ∀ s e, I s → G s e → H s e) :
    ∀ {es : List ε} {s : σ}, I s → Along step G s es → Along step H s es
  | [], _, _, _ => trivial
  | e :: _, s, hs, hG =>
    ⟨hH s e hs hG.1, fun t ht => of_invariant hstep hH (hstep s e t hs hG.1 ht) (hG.2 t ht)⟩

/-- **The simulation rule.** Where every step meeting `G` is matched, under `f`, by steps of the
relation `R` whose states carry `I`, the end of the run carries `I` too. -/
theorem run_simulates {τ : Type*} {f : σ → τ} {R : τ → τ → Prop} {I : τ → Prop}
    {G : σ → ε → Prop} {J : σ → Prop}
    (hR : ∀ a b, I a → R a b → I b)
    (hJ : ∀ s e t, J s → G s e → step s e = some t → J t)
    (hsim : ∀ s e t, J s → G s e → step s e = some t → Relation.ReflTransGen R (f s) (f t))
    {es : List ε} {s u : σ} (hJs : J s) (hIs : I (f s)) (hG : Along step G s es)
    (hr : run step s es = some u) : I (f u) := by
  have hkeep : ∀ a b, Relation.ReflTransGen R a b → I a → I b := by
    intro a b hab ha
    induction hab with
    | refl => exact ha
    | tail _ hbc ih => exact hR _ _ ih hbc
  have key : J u ∧ I (f u) := run_invariant (I := fun s => J s ∧ I (f s))
    (fun s e t h hg ht => ⟨hJ s e t h.1 hg ht, hkeep _ _ (hsim s e t h.1 hg ht) h.2⟩)
    ⟨hJs, hIs⟩ hG hr
  exact key.2

/-- What the actions of a run emit, in order. -/
def emitted {α : Type*} (step : σ → ε → Option σ) (out : σ → ε → Option α) : σ → List ε → List α
  | _, [] => []
  | s, e :: es =>
    (out s e).toList ++ match step s e with
      | none => []
      | some t => emitted step out t es

/-- **The rule for what is emitted.** A relation between the state and what was emitted so far,
which every step keeps, holds at the end of a run. -/
theorem run_emitted {α : Type*} {out : σ → ε → Option α} {I : σ → List α → Prop}
    (hstep : ∀ s e t l, I s l → step s e = some t → I t (l ++ (out s e).toList)) :
    ∀ {es : List ε} {s u : σ} {l : List α}, I s l → run step s es = some u →
      I u (l ++ emitted step out s es)
  | [], s, u, l, hs, hr => by
    cases hr
    rw [emitted, List.append_nil]
    exact hs
  | e :: es, s, u, l, hs, hr => by
    obtain ⟨t, ht, hr'⟩ := run_cons.1 hr
    rw [emitted, ht, ← List.append_assoc]
    exact run_emitted hstep (hstep s e t l hs ht) hr'

end Automaton
