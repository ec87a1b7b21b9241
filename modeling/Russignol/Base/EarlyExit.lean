import Mathlib.Tactic.Common

/-!
# Programs that end early

A program over a state that returns, fails, or is killed. Either way the state stays as the program
left it: a failure undoes nothing.

`Triple P m Q E` says that from a state that satisfies `P` the program `m` returns in `Q`, or ends
early in `E`. `Keeps I m` is the case of one predicate throughout; since a program may be killed in
any of its operations, `I` then holds after every one of them.
-/

namespace EarlyExit

/-- Why a program ended early. -/
inductive Stop
  | failed (text : String)
  | killed
  deriving DecidableEq, Repr

/-- A program over a state. -/
abbrev Prog (σ α : Type) : Type := EStateM Stop σ α

variable {σ α β : Type}

/-- A program after one that returned. -/
theorem bind_of_ok {m : Prog σ β} {f : β → Prog σ α} {s s' : σ} {b : β} (h : m s = .ok b s') :
    (m >>= f) s = f b s' := by
  show EStateM.bind m f s = f b s'
  rw [EStateM.bind, h]

/-- A program after one that ended early. -/
theorem bind_of_error {m : Prog σ β} {f : β → Prog σ α} {s s' : σ} {e : Stop}
    (h : m s = .error e s') : (m >>= f) s = .error e s' := by
  show EStateM.bind m f s = .error e s'
  rw [EStateM.bind, h]

/-- A program that may fail, with its failure as a value. -/
def attempt (m : Prog σ α) : Prog σ (Except String α) := fun s =>
  match m s with
  | .ok a s' => .ok (.ok a) s'
  | .error (.failed text) s' => .ok (.error text) s'
  | .error .killed s' => .error .killed s'

/-- A program over a part of a state. -/
def zoom {τ : Type} (part : τ → σ) (set : σ → τ → τ) (m : Prog σ α) : Prog τ α := fun t =>
  match m (part t) with
  | .ok a s => .ok a (set s t)
  | .error e s => .error e (set s t)

/-- The state a program leaves. -/
def final (m : Prog σ α) (s : σ) : σ :=
  match m.run s with
  | .ok _ s' | .error _ s' => s'

/-- A program whose result is dropped. -/
theorem final_discard (m : Prog σ α) (s : σ) : final (m >>= fun _ => pure ()) s = final m s := by
  unfold final EStateM.run
  cases h : m s with
  | ok a s' => rw [bind_of_ok h]; rfl
  | error e s' => rw [bind_of_error h]

/-- A program over a part of the state changes that part only. -/
theorem final_zoom {τ : Type} (part : τ → σ) (set : σ → τ → τ) (m : Prog σ α) (t : τ) :
    final (zoom part set m) t = set (final m (part t)) t := by
  unfold final EStateM.run zoom
  cases m (part t) <;> rfl

/-- From `P` the program returns in `Q`, or ends early in `E`. -/
def Triple (P : σ → Prop) (m : Prog σ α) (Q : α → σ → Prop) (E : σ → Prop) : Prop :=
  ∀ s, P s →
    match m.run s with
    | .ok a s' => Q a s'
    | .error _ s' => E s'

namespace Triple

variable {P P' : σ → Prop} {Q Q' : α → σ → Prop} {R : β → σ → Prop} {E E' : σ → Prop}

theorem pure {a : α} (h : ∀ s, P s → Q a s) : Triple P (Pure.pure a : Prog σ α) Q E :=
  fun s hs => h s hs

theorem throw {e : Stop} (h : ∀ s, P s → E s) : Triple P (throw e : Prog σ α) Q E :=
  fun s hs => h s hs

/-- Reading the state. -/
theorem get {Q : σ → σ → Prop} (h : ∀ s, P s → Q s s) : Triple P (get : Prog σ σ) Q E :=
  fun s hs => h s hs

/-- Changing the state. -/
theorem modify {f : σ → σ} {Q : Unit → σ → Prop} (h : ∀ s, P s → Q () (f s)) :
    Triple P (modify f : Prog σ Unit) Q E :=
  fun s hs => h s hs

/-- One program after another. -/
theorem bind {m : Prog σ β} {f : β → Prog σ α} (hm : Triple P m R E)
    (hf : ∀ b, Triple (R b) (f b) Q E) : Triple P (m >>= f) Q E := by
  intro s hs
  have hrun := hm s hs
  show match EStateM.bind m f s with
    | .ok a s' => Q a s'
    | .error _ s' => E s'
  unfold EStateM.bind
  unfold EStateM.run at hrun
  cases hb : m s with
  | ok b s' =>
    rw [hb] at hrun
    exact hf b s' hrun
  | error e s' =>
    rw [hb] at hrun
    exact hrun

/-- Reading the state first: the rest has it at hand. -/
theorem bind_get {f : σ → Prog σ α} (h : ∀ t, Triple (fun s => s = t ∧ P s) (f t) Q E) :
    Triple P (MonadState.get >>= f) Q E :=
  fun s hs => h s s ⟨rfl, hs⟩

/-- Taking a failure as a value. -/
theorem attempt {m : Prog σ α} (h : Triple P m Q E) :
    Triple P (attempt m) (fun r s => match r with
      | .ok a => Q a s
      | .error _ => E s) E := by
  intro s hs
  have hrun := h s hs
  unfold EStateM.run at hrun ⊢
  unfold EarlyExit.attempt
  cases hb : m s with
  | ok a s' =>
    rw [hb] at hrun
    exact hrun
  | error e s' =>
    rw [hb] at hrun
    cases e with
    | failed text => exact hrun
    | killed => exact hrun

/-- Consequence. -/
theorem mono {m : Prog σ α} (h : Triple P m Q E) (hP : ∀ s, P' s → P s)
    (hQ : ∀ a s, Q a s → Q' a s) (hE : ∀ s, E s → E' s) : Triple P' m Q' E' := by
  intro s hs
  have hrun := h s (hP s hs)
  cases hb : m.run s with
  | ok a s' =>
    rw [hb] at hrun
    exact hQ a s' hrun
  | error e s' =>
    rw [hb] at hrun
    exact hE s' hrun

/-- A weaker precondition. -/
theorem pre {m : Prog σ α} (h : Triple P m Q E) (hP : ∀ s, P' s → P s) : Triple P' m Q E :=
  h.mono hP (fun _ _ => id) fun _ => id

/-- A stronger result. -/
theorem post {m : Prog σ α} (h : Triple P m Q E) (hQ : ∀ a s, Q a s → Q' a s) :
    Triple P m Q' E :=
  h.mono (fun _ => id) hQ fun _ => id

/-- Two triples of one program. -/
theorem and {m : Prog σ α} (h : Triple P m Q E) (h' : Triple P' m Q' E') :
    Triple (fun s => P s ∧ P' s) m (fun a s => Q a s ∧ Q' a s) (fun s => E s ∧ E' s) := by
  intro s hs
  have hrun := h s hs.1
  have hrun' := h' s hs.2
  cases hb : m.run s with
  | ok a s' =>
    rw [hb] at hrun hrun'
    exact ⟨hrun, hrun'⟩
  | error e s' =>
    rw [hb] at hrun hrun'
    exact ⟨hrun, hrun'⟩

/-- A fact that does not depend on the state is had beforehand. -/
theorem of_pre {m : Prog σ α} {p : Prop} (h : p → Triple P m Q E) :
    Triple (fun s => p ∧ P s) m Q E :=
  fun s hs => h hs.1 s hs.2

/-- What a triple says of the state at the end. -/
theorem final {m : Prog σ α} (h : Triple P m (fun _ => E) E) {s : σ} (hs : P s) :
    E (EarlyExit.final m s) := by
  have hrun := h s hs
  unfold EarlyExit.final
  cases hb : m.run s with
  | ok a s' =>
    rw [hb] at hrun
    exact hrun
  | error e s' =>
    rw [hb] at hrun
    exact hrun

end Triple

/-- The program keeps a predicate, however it ends. -/
def Keeps (I : σ → Prop) (m : Prog σ α) : Prop := Triple I m (fun _ => I) I

namespace Keeps

variable {I : σ → Prop}

theorem pure (a : α) : Keeps I (Pure.pure a : Prog σ α) := Triple.pure fun _ => id

theorem throw (e : Stop) : Keeps I (throw e : Prog σ α) := Triple.throw fun _ => id

theorem get : Keeps I (get : Prog σ σ) := Triple.get fun _ => id

theorem bind {m : Prog σ β} {f : β → Prog σ α} (hm : Keeps I m) (hf : ∀ b, Keeps I (f b)) :
    Keeps I (m >>= f) :=
  Triple.bind hm hf

theorem modify {f : σ → σ} (h : ∀ s, I s → I (f s)) : Keeps I (modify f : Prog σ Unit) :=
  Triple.modify h

/-- A part that is run on a condition. -/
theorem ite {p : Prop} [Decidable p] {m m' : Prog σ α} (hm : Keeps I m) (hm' : Keeps I m') :
    Keeps I (if p then m else m') := by
  split
  · exact hm
  · exact hm'

/-- A loop over a list. -/
theorem forM {f : α → Prog σ PUnit} : ∀ {l : List α}, (∀ a ∈ l, Keeps I (f a)) →
    Keeps I (forM l f)
  | [], _ => by
    rw [List.forM_nil]
    exact Keeps.pure _
  | a :: l, h => by
    rw [List.forM_cons]
    exact (h a List.mem_cons_self).bind fun _ => Keeps.forM fun b hb =>
      h b (List.mem_cons_of_mem a hb)

/-- Two predicates that are kept. -/
theorem and {J : σ → Prop} {m : Prog σ α} (h : Keeps I m) (h' : Keeps J m) :
    Keeps (fun s => I s ∧ J s) m :=
  Triple.and h h'

/-- A part that keeps a predicate ends in whatever that implies. -/
theorem ends {m : Prog σ α} {J : σ → Prop} (h : Keeps I m) (hJ : ∀ s, I s → J s) :
    Triple I m (fun _ => J) J :=
  Triple.mono h (fun _ => id) (fun _ => hJ) hJ

/-- A part that keeps a predicate, before one that does not. -/
theorem before {m : Prog σ β} {f : β → Prog σ α} {J : σ → Prop} (hm : Keeps I m)
    (hJ : ∀ s, I s → J s) (hf : ∀ b, Triple I (f b) (fun _ => J) J) :
    Triple I (m >>= f) (fun _ => J) J :=
  Triple.bind (Triple.mono hm (fun _ => id) (fun _ _ => id) hJ) hf

end Keeps

/-! ## Loops -/

section

variable {f g : α → Prog σ PUnit}

/-- Loops that run the same programs. -/
theorem forM_congr : ∀ {l : List α}, (∀ a ∈ l, f a = g a) → forM l f = forM l g
  | [], _ => rfl
  | a :: l, h => by
    rw [List.forM_cons, List.forM_cons, h a List.mem_cons_self,
      forM_congr fun b hb => h b (List.mem_cons_of_mem a hb)]

/-- A loop that runs a program for some elements, and nothing for the others. -/
theorem forM_filter {p : α → Bool} (hp : ∀ a, p a = true → f a = g a)
    (hnot : ∀ a, p a = false → f a = pure ⟨⟩) : ∀ l : List α, forM l f = forM (l.filter p) g
  | [] => rfl
  | a :: l => by
    rw [List.forM_cons]
    cases h : p a with
    | true => rw [List.filter_cons_of_pos h, List.forM_cons, hp a h, forM_filter hp hnot l]
    | false =>
      rw [List.filter_cons_of_neg (Bool.eq_false_iff.1 h), hnot a h, forM_filter hp hnot l,
        pure_bind]

/-- A loop of loops. -/
theorem forM_flatMap (f : α → List β) (g : β → Prog σ PUnit) : ∀ l : List α,
    forM l (fun a => forM (f a) g) = forM (l.flatMap f) g
  | [] => rfl
  | a :: l => by
    rw [List.forM_cons, List.flatMap_cons, List.forM_append, forM_flatMap f g l]

/-- A loop that returned has run every program to its end. -/
theorem forM_ok {step : α → σ → σ} (h : ∀ a s s', f a s = .ok ⟨⟩ s' → s' = step a s) :
    ∀ {l : List α} {s s' : σ}, (forM l f : Prog σ PUnit) s = .ok ⟨⟩ s' →
      s' = l.foldl (fun s a => step a s) s
  | [], s, s', hrun => by
    rw [List.forM_nil] at hrun
    cases hrun
    rfl
  | a :: l, s, s', hrun => by
    rw [List.forM_cons] at hrun
    cases ha : f a s with
    | ok u t =>
      rw [bind_of_ok ha] at hrun
      rw [List.foldl_cons, ← h a s t ha]
      exact forM_ok h hrun
    | error e t =>
      rw [bind_of_error ha] at hrun
      cases hrun

end

end EarlyExit
