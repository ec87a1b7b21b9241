import Mathlib.Order.Basic
import Mathlib.Order.Lattice
import Mathlib.Logic.Relation
import Mathlib.Tactic.Common

/-!
# A durable floor

The abstract purpose of a high watermark, over any linear order. A register issues values, each
strictly above a floor it keeps in memory, and must never issue a value at or below one it issued
before, even after a crash that leaves only what is on stable storage. Between a write per issued
value and no write at all stands the *ceiling*: a value written ahead of time, whose presence on
stable storage lets every value up to it be issued without a write.

`Safe` is the invariant that makes this work: the floor in memory and the value a reload would
find are each at or above every issued value, and the ceiling believed to be on stable storage is
at or below what a reload would find. `Step` lists what may happen to a register, failing and torn
writes and reloads included, and keeps `Safe` (`Safe.step`); so the issued values strictly increase
over any history (`Safe.sorted`). `Assign` is the one operation that does not: an operator sets the
floor. It keeps the ceiling honest (`Honest.assign`), and nothing more.

`Bounded` is the weaker invariant of a register that is not reloaded, which an operator's
assignment keeps where it lowers nothing.
-/

namespace FloorRegister

variable {α : Type*}

/-- A durable floor, with the history of the values it has issued. -/
structure Register (α : Type*) where
  /-- The floor in memory. -/
  mem : Option α
  /-- What a reload would find on stable storage: nothing where no readable record is there. -/
  disk : Option α
  /-- The value believed to be on stable storage ahead of time. -/
  ceil : Option α
  /-- The values issued so far, the latest first. -/
  issued : List α

/-- The ceiling promises no more than a reload would find. -/
def Honest [LE α] (r : Register α) : Prop :=
  ∀ c d, r.ceil = some c → r.disk = some d → c ≤ d

/-- The value a write of `x` leaves readable: the record itself, or nothing where the medium
cannot show it. -/
def Shows (d : Option α) (x : α) : Prop := d = some x ∨ d = none

/-- A record that shows at all shows its value. -/
theorem Shows.eq {d : Option α} {x y : α} (h : Shows d x) (hd : d = some y) : y = x := by
  rcases h with h | h
  · exact Option.some.inj (hd.symm.trans h)
  · rw [hd] at h
    cases h

/-- An empty floor is read from stable storage, or nothing happens. -/
inductive Fetch : Register α → Register α → Prop
  | same {r : Register α} : Fetch r r
  | read {r : Register α} : r.mem = none → r.ceil = none →
      Fetch r { r with mem := r.disk, ceil := none }

namespace Fetch

/-- A floor that is there stays. -/
theorem mem_of_some {a b : Register α} (h : Fetch a b) {m : α} (hm : a.mem = some m) :
    b.mem = some m := by
  cases h with
  | same => exact hm
  | read hnone _ => cases hnone.symm.trans hm

/-- The record stays. -/
theorem disk_eq {a b : Register α} (h : Fetch a b) : b.disk = a.disk := by
  cases h <;> rfl

/-- The history stays. -/
theorem issued_eq {a b : Register α} (h : Fetch a b) : b.issued = a.issued := by
  cases h <;> rfl

/-- A ceiling that is there afterwards was there before, beside the same floor. -/
theorem of_ceil {a b : Register α} (h : Fetch a b) {c : α} (hc : b.ceil = some c) : b = a := by
  cases h with
  | same => rfl
  | read => cases hc

end Fetch

variable [LinearOrder α]

/-- What can happen to a durable floor. -/
inductive Step : Register α → Register α → Prop
  /-- A value under the ceiling is issued with no write. -/
  | covered {r : Register α} {m x c : α} : r.mem = some m → m < x → r.ceil = some c → x ≤ c →
      Step r { r with mem := some x, issued := x :: r.issued }
  /-- A value is written, then issued. -/
  | written {r : Register α} {m x : α} {d : Option α} : r.mem = some m → m < x → Shows d x →
      Step r { mem := some x, disk := d, ceil := none, issued := x :: r.issued }
  /-- A write of a value at or above the floor and the ceiling fails; the record may have
  reached the medium all the same. -/
  | missed {r : Register α} {m x : α} {d : Option α} : r.mem = some m → m ≤ x →
      (∀ c, r.ceil = some c → c ≤ x) → Shows d x → Step r { r with disk := d }
  /-- A write fails and leaves nothing readable. -/
  | torn {r : Register α} : Step r { r with disk := none }
  /-- A value at or above the floor is written ahead of time and becomes the ceiling. -/
  | raised {r : Register α} {m x : α} {d : Option α} : r.mem = some m → m ≤ x → Shows d x →
      Step r { r with disk := d, ceil := some x }
  /-- A value at or above the floor is written and the ceiling is forgotten. -/
  | settled {r : Register α} {m x : α} {d : Option α} : r.mem = some m → m ≤ x → Shows d x →
      Step r { r with disk := d, ceil := none }
  /-- A crash: the floor is what stable storage holds, or is not read. -/
  | reloaded {r : Register α} {m : Option α} : m = none ∨ m = r.disk →
      Step r { r with mem := m, ceil := none }

/-- An operator sets the floor to `y`; the write of the new floor is not reached, completes, or
fails, and one that fails after reaching the medium stays at or above the ceiling. -/
inductive Assign (y : α) : Register α → Register α → Prop
  | unreached {r : Register α} : Assign y r { r with mem := some y }
  | done {r : Register α} {d : Option α} : Shows d y →
      Assign y r { r with mem := some y, disk := d, ceil := none }
  | failed {r : Register α} {d : Option α} : d = r.disk ∨ d = none ∨
      (d = some y ∧ ∀ c, r.ceil = some c → c ≤ y) → Assign y r { r with mem := some y, disk := d }

/-- Reading an empty floor, as steps. -/
theorem Fetch.steps {a b : Register α} (h : Fetch a b) : Relation.ReflTransGen Step a b := by
  cases h with
  | same => exact .refl
  | read => exact .single (.reloaded (.inr rfl))

/-- The invariant of a durable floor. -/
structure Safe (r : Register α) : Prop where
  /-- The floor in memory bounds everything issued. -/
  memBound : ∀ m, r.mem = some m → ∀ x ∈ r.issued, x ≤ m
  /-- So does what a reload would find. -/
  diskBound : ∀ d, r.disk = some d → ∀ x ∈ r.issued, x ≤ d
  /-- The ceiling is on stable storage. -/
  honest : Honest r
  /-- What was issued strictly increases. -/
  sorted : r.issued.Pairwise (· > ·)

/-- A register that has issued nothing, with no ceiling, is safe. -/
theorem Safe.init {r : Register α} (hc : r.ceil = none) (hi : r.issued = []) : Safe r where
  memBound := by simp [hi]
  diskBound := by simp [hi]
  honest := by
    intro c d h
    rw [hc] at h
    cases h
  sorted := by simp [hi]

/-- A step keeps the ceiling honest. -/
theorem Honest.step {r r' : Register α} (h : Honest r) (hs : Step r r') : Honest r' := by
  cases hs with
  | covered => exact h
  | written | settled | reloaded =>
    intro c d hc
    cases hc
  | missed _ _ hle hd =>
    intro c d hc hd'
    rw [hd.eq hd']
    exact hle c hc
  | torn =>
    intro c d _ hd
    cases hd
  | raised _ _ hd =>
    intro c d hc hd'
    cases hc
    exact (hd.eq hd').ge

/-- So does any number of steps. -/
theorem Honest.steps {r r' : Register α} (h : Honest r) (hs : Relation.ReflTransGen Step r r') :
    Honest r' := by
  induction hs with
  | refl => exact h
  | tail _ hstep ih => exact ih.step hstep

/-- An operator's assignment keeps the ceiling honest. -/
theorem Honest.assign {y : α} {r r' : Register α} (h : Honest r) (hs : Assign y r r') :
    Honest r' := by
  cases hs with
  | unreached => exact h
  | done =>
    intro c d hc
    cases hc
  | failed hd =>
    intro c d hc hd'
    rcases hd with hd | hd | ⟨hd, hle⟩
    · exact h c d hc (hd.symm.trans hd')
    · cases hd.symm.trans hd'
    · cases hd.symm.trans hd'
      exact hle c hc

/-- A value above the floor is above everything issued. -/
theorem Safe.above {r : Register α} (h : Safe r) {m x : α} (hm : r.mem = some m) (hx : m < x) :
    ∀ y ∈ r.issued, y < x :=
  fun y hy => (h.memBound m hm y hy).trans_lt hx

/-- A readable record at or above the floor is at or above everything issued. -/
theorem Safe.bound {r : Register α} (h : Safe r) {m x e : α} {d : Option α} (hm : r.mem = some m)
    (hx : m ≤ x) (hd : Shows d x) (hde : d = some e) : ∀ y ∈ r.issued, y ≤ e := by
  intro y hy
  rw [hd.eq hde]
  exact (h.memBound m hm y hy).trans hx

/-- **Every step keeps the invariant.** -/
theorem Safe.step {r r' : Register α} (h : Safe r) (hs : Step r r') : Safe r' := by
  refine ⟨?_, ?_, h.honest.step hs, ?_⟩
  · -- the floor in memory
    cases hs with
    | covered hm hx | written hm hx =>
      intro m hm' y hy
      cases hm'
      rcases List.mem_cons.1 hy with rfl | hy
      · exact le_rfl
      · exact (h.above hm hx y hy).le
    | missed | torn | raised | settled => exact h.memBound
    | reloaded hm =>
      intro m hm'
      rcases hm with hm | hm
      · cases hm'.symm.trans hm
      · exact h.diskBound m (hm.symm.trans hm')
  · -- what a reload would find
    cases hs with
    | @covered m x c hm hx hc hxc =>
      intro d hd y hy
      rcases List.mem_cons.1 hy with rfl | hy
      · exact hxc.trans (h.honest c d hc hd)
      · exact h.diskBound d hd y hy
    | @written m x d hm hx hd =>
      intro e he y hy
      rw [hd.eq he]
      rcases List.mem_cons.1 hy with rfl | hy
      · exact le_rfl
      · exact (h.above hm hx y hy).le
    | missed hm hx _ hd | raised hm hx hd | settled hm hx hd =>
      exact fun e he => h.bound hm hx hd he
    | torn =>
      intro d hd
      cases hd
    | reloaded => exact h.diskBound
  · -- the order of what was issued
    cases hs with
    | covered hm hx | written hm hx => exact List.pairwise_cons.2 ⟨h.above hm hx, h.sorted⟩
    | missed | torn | raised | settled | reloaded => exact h.sorted

/-! ## A floor that is not reloaded -/

/-- The invariant of a floor while it is never reloaded: what was issued strictly increases, up to
the floor in memory at most. -/
structure Bounded (r : Register α) : Prop where
  below : ∀ x ∈ r.issued, ∃ m, r.mem = some m ∧ x ≤ m
  sorted : r.issued.Pairwise (· > ·)

/-- Neither the floor nor the record that reads went down. -/
structure NotLowered (r r' : Register α) : Prop where
  mem : ∀ m m', r.mem = some m → r'.mem = some m' → m ≤ m'
  disk : ∀ d d', r.disk = some d → r'.disk = some d' → d ≤ d'

theorem NotLowered.refl (r : Register α) : NotLowered r r where
  mem := by
    intro m m' h h'
    cases h.symm.trans h'
    exact le_rfl
  disk := by
    intro d d' h h'
    cases h.symm.trans h'
    exact le_rfl

/-- A register that has issued nothing is bounded. -/
theorem Bounded.init {r : Register α} (hi : r.issued = []) : Bounded r where
  below := by simp [hi]
  sorted := by simp [hi]

/-- A floor that stays or rises bounds what it bounded. -/
theorem Bounded.rise {r r' : Register α} (h : Bounded r) (hi : r'.issued = r.issued)
    (hm : ∀ m, r.mem = some m → ∃ m', r'.mem = some m' ∧ m ≤ m') : Bounded r' where
  below := by
    intro x hx
    obtain ⟨m, hmem, hle⟩ := h.below x (hi ▸ hx)
    obtain ⟨m', hmem', hle'⟩ := hm m hmem
    exact ⟨m', hmem', hle.trans hle'⟩
  sorted := hi ▸ h.sorted

/-- Reading an empty floor keeps the bound. -/
theorem Bounded.fetch {r r' : Register α} (h : Bounded r) (hf : Fetch r r') : Bounded r' :=
  h.rise hf.issued_eq fun m hm => ⟨m, hf.mem_of_some hm, le_rfl⟩

/-- Issuing a value above the floor, which becomes the floor, keeps the bound. -/
theorem Bounded.issue {r r' : Register α} (h : Bounded r) {m x : α} (hm : r.mem = some m)
    (hx : m < x) (hi : r'.issued = x :: r.issued) (hm' : r'.mem = some x) : Bounded r' := by
  have hbelow : ∀ y ∈ r.issued, y < x := by
    intro y hy
    obtain ⟨m', hmem, hle⟩ := h.below y hy
    cases hm.symm.trans hmem
    exact hle.trans_lt hx
  refine ⟨fun y hy => ⟨x, hm', ?_⟩, ?_⟩
  · rw [hi] at hy
    rcases List.mem_cons.1 hy with rfl | hy
    · exact le_rfl
    · exact (hbelow y hy).le
  · rw [hi]
    exact List.pairwise_cons.2 ⟨hbelow, h.sorted⟩

end FloorRegister
