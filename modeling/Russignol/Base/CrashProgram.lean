import Mathlib.Tactic.Common

/-!
# Programs that may lose power

A program works on a storage by operations of a medium. Each operation is answered: it succeeds,
fails, or power is lost in it. The answers are an input, so a program is a function, and a statement
about every list of answers is one about every pattern of faults; when they run out the medium
answers as it does by default.

`Triple A P m Q C` is the crash triple: from a storage that satisfies `P`, while every answer meets
`A`, the program `m` returns in `Q`, or loses power in `C`. Since power can be lost before and
after every operation, `C` holds of every storage in between. The rules follow the program: `pure`,
`read`, `bind`, `op`, and consequence.
-/

namespace CrashProgram

/-- A program: it takes answers, changes the storage, and returns, or loses power (`none`). -/
def Prog (ι σ α : Type) : Type := List ι → σ → Option α × List ι × σ

variable {ι σ α β : Type}

/-- The outcome, the answers left over and the storage afterwards. -/
def Prog.run (m : Prog ι σ α) (io : List ι) (s : σ) : Option α × List ι × σ := m io s

instance : Monad (Prog ι σ) where
  pure a := fun io s => (some a, io, s)
  bind m f := fun io s =>
    match m.run io s with
    | (some a, io, s) => (f a).run io s
    | (none, io, s) => (none, io, s)

/-- A look at the storage. -/
def read (f : σ → α) : Prog ι σ α := fun io s => (some (f s), io, s)

/-- The next answer. -/
def next [Inhabited ι] (io : List ι) : ι := io.head?.getD default

/-- An operation of the medium, under the next answer. -/
def op [Inhabited ι] (f : ι → σ → Option α × σ) : Prog ι σ α := fun io s =>
  ((f (next io) s).1, io.tail, (f (next io) s).2)

@[simp] theorem run_pure (a : α) (io : List ι) (s : σ) :
    (pure a : Prog ι σ α).run io s = (some a, io, s) := rfl

@[simp] theorem run_read (f : σ → α) (io : List ι) (s : σ) :
    (read f : Prog ι σ α).run io s = (some (f s), io, s) := rfl

@[simp] theorem run_op [Inhabited ι] (f : ι → σ → Option α × σ) (io : List ι) (s : σ) :
    (op f).run io s = ((f (next io) s).1, io.tail, (f (next io) s).2) := rfl

/-- Running a sequence. -/
theorem run_bind (m : Prog ι σ α) (f : α → Prog ι σ β) (io : List ι) (s : σ) :
    (m >>= f).run io s =
      match m.run io s with
      | (some a, io, s) => (f a).run io s
      | (none, io, s) => (none, io, s) := rfl

/-- Running a sequence whose first part returns. -/
theorem run_bind_of_some {m : Prog ι σ α} {a : α} {io io' : List ι} {s s' : σ}
    (h : m.run io s = (some a, io', s')) (f : α → Prog ι σ β) :
    (m >>= f).run io s = (f a).run io' s' := by
  rw [run_bind, h]

/-- The crash triple. -/
def Triple (A : ι → Prop) (P : σ → Prop) (m : Prog ι σ α) (Q : α → σ → Prop) (C : σ → Prop) :
    Prop :=
  ∀ io s, (∀ a ∈ io, A a) → P s →
    match m.run io s with
    | (some a, io', s') => (∀ a ∈ io', A a) ∧ Q a s'
    | (none, _, s') => C s'

namespace Triple

variable {A : ι → Prop} {P P' : σ → Prop} {Q Q' : α → σ → Prop} {R : β → σ → Prop}
  {C C' : σ → Prop}

/-- What a triple says of one run. -/
theorem run {m : Prog ι σ α} (h : Triple A P m Q C) {io : List ι} (hio : ∀ a ∈ io, A a) {s : σ}
    (hs : P s) :
    (∃ a, (m.run io s).1 = some a ∧ Q a (m.run io s).2.2) ∨
      (m.run io s).1 = none ∧ C (m.run io s).2.2 := by
  have hrun := h io s hio hs
  rcases hm : m.run io s with ⟨_ | a, io', s'⟩
  · rw [hm] at hrun
    exact .inr ⟨rfl, hrun⟩
  · rw [hm] at hrun
    exact .inl ⟨a, rfl, hrun.2⟩

/-- Returning. -/
theorem pure {a : α} (h : ∀ s, P s → Q a s) : Triple A P (Pure.pure a) Q C :=
  fun _ s hio hs => ⟨hio, h s hs⟩

/-- Looking at the storage. -/
theorem read {f : σ → α} (h : ∀ s, P s → Q (f s) s) : Triple A P (CrashProgram.read f) Q C :=
  fun _ s hio hs => ⟨hio, h s hs⟩

/-- One program after another. -/
theorem bind {m : Prog ι σ β} {f : β → Prog ι σ α} (hm : Triple A P m R C)
    (hf : ∀ b, Triple A (R b) (f b) Q C) : Triple A P (m >>= f) Q C := by
  intro io s hio hs
  have hrun := hm io s hio hs
  rw [run_bind]
  rcases hb : m.run io s with ⟨_ | b, io', s'⟩
  · rw [hb] at hrun
    exact hrun
  · rw [hb] at hrun
    exact hf b io' s' hrun.1 hrun.2

/-- One operation: every answer that may come, and the default. -/
theorem op [Inhabited ι] {f : ι → σ → Option α × σ}
    (h : ∀ a, A a ∨ a = default → ∀ s, P s →
      match f a s with
      | (some b, s') => Q b s'
      | (none, s') => C s') : Triple A P (op f) Q C := by
  intro io s hio hs
  have hanswer : A (next io) ∨ next io = default := by
    cases io with
    | nil => exact .inr rfl
    | cons a io => exact .inl (hio a List.mem_cons_self)
  have hrun := h _ hanswer s hs
  have htail : ∀ a ∈ io.tail, A a := fun a ha => hio a (List.mem_of_mem_tail ha)
  rw [run_op]
  rcases hb : f (next io) s with ⟨_ | b, s'⟩
  · rw [hb] at hrun
    exact hrun
  · rw [hb] at hrun
    exact ⟨htail, hrun⟩

/-- Consequence. -/
theorem mono {m : Prog ι σ α} (h : Triple A P m Q C) (hP : ∀ s, P' s → P s)
    (hQ : ∀ a s, Q a s → Q' a s) (hC : ∀ s, C s → C' s) : Triple A P' m Q' C' := by
  intro io s hio hs
  have hrun := h io s hio (hP s hs)
  rcases hb : m.run io s with ⟨_ | b, io', s'⟩
  · rw [hb] at hrun
    exact hC _ hrun
  · rw [hb] at hrun
    exact ⟨hrun.1, hQ _ _ hrun.2⟩

/-- A fact that does not depend on the storage is had beforehand. -/
theorem of_pre {m : Prog ι σ α} {p : Prop} (h : p → Triple A P m Q C) :
    Triple A (fun s => p ∧ P s) m Q C :=
  fun io s hio hs => h hs.1 io s hio hs.2

end Triple

end CrashProgram
