import Mathlib.Data.List.DropRight
import Mathlib.Data.Nat.ModEq
import Mathlib.Tactic.Common

/-!
# The last of what was pushed

A ring of `n` slots keeps the last `n` values that were pushed to it. It knows the slot to write
next and how many slots were written, up to `n`; the values are read from the oldest one on, around
the end of the ring (`RingBuffer.Holds.toList`).
-/

/-- A ring of slots: the slot that is written next, and how many are written. -/
structure RingBuffer (α : Type*) (n : Nat) where
  slots : Vector (Option α) n
  head : Nat
  len : Nat

namespace RingBuffer

variable {α : Type*} {n : Nat}

/-- Nothing was pushed. -/
def empty : RingBuffer α n := ⟨Vector.replicate n none, 0, 0⟩

variable [NeZero n]

/-- The slot of an index around the ring. -/
def slot (b : RingBuffer α n) (i : Nat) : Option α :=
  b.slots.get ⟨i % n, Nat.mod_lt i (Nat.pos_of_neZero n)⟩

/-- The value goes to the head, over the oldest one where the ring is full. -/
def push (b : RingBuffer α n) (a : α) : RingBuffer α n where
  slots := b.slots.set (b.head % n) (some a) (Nat.mod_lt _ (Nat.pos_of_neZero n))
  head := (b.head + 1) % n
  len := if b.len < n then b.len + 1 else b.len

/-- The values, from the oldest one on. -/
def toList (b : RingBuffer α n) : List α :=
  (List.range b.len).filterMap fun i => b.slot (b.head + n - b.len + i)

/-- The ring after the values of a list were pushed to it. -/
structure Holds (b : RingBuffer α n) (l : List α) : Prop where
  head : b.head = l.length % n
  len : b.len = min l.length n
  slot : ∀ i (h : i < l.length), l.length ≤ i + n → b.slot i = some l[i]

variable {b : RingBuffer α n} {l : List α}

/-- An empty ring holds nothing. -/
theorem holds_empty : (empty : RingBuffer α n).Holds [] where
  head := (Nat.zero_mod n).symm
  len := (Nat.zero_min n).symm
  slot := fun i h => absurd h (Nat.not_lt_zero i)

/-- A push sets the slot at the head, and no other. -/
theorem slot_push (b : RingBuffer α n) (a : α) (i : Nat) :
    (b.push a).slot i = if b.head % n = i % n then some a else b.slot i :=
  Vector.getElem_set (Nat.mod_lt _ (Nat.pos_of_neZero n)) (Nat.mod_lt _ (Nat.pos_of_neZero n))

/-- The slots repeat after the size of the ring. -/
theorem slot_mod (b : RingBuffer α n) (i : Nat) : b.slot (i % n) = b.slot i := by
  unfold slot
  simp only [Nat.mod_mod]

omit [NeZero n] in
/-- Two places less than a turn apart are different slots. -/
theorem mod_ne_mod {i j : Nat} (hij : i < j) (hturn : j < i + n) : j % n ≠ i % n := by
  intro heq
  have hdvd : n ∣ j - i := (Nat.modEq_iff_dvd' hij.le).1 heq.symm
  have hle := Nat.le_of_dvd (by omega) hdvd
  omega

/-- One value more. -/
theorem Holds.push (h : b.Holds l) (a : α) : (b.push a).Holds (l ++ [a]) where
  head := by
    show (b.head + 1) % n = _
    rw [h.head, Nat.mod_add_mod, List.length_append, List.length_singleton]
  len := by
    show (if b.len < n then b.len + 1 else b.len) = _
    rw [h.len, List.length_append, List.length_singleton]
    split <;> omega
  slot := by
    intro i hi hrecent
    rw [List.length_append, List.length_singleton] at hi hrecent
    rw [slot_push, h.head, Nat.mod_mod]
    rcases Nat.lt_succ_iff_lt_or_eq.1 hi with hlt | rfl
    · rw [if_neg (mod_ne_mod hlt (by omega)), List.getElem_append_left hlt]
      exact h.slot i hlt (by omega)
    · rw [if_pos rfl, List.getElem_append_right le_rfl]
      simp only [Nat.sub_self, List.getElem_singleton]

omit [NeZero n] in
/-- The elements of a list, looked up one after another. -/
theorem filterMap_lookup (l : List α) : (List.range l.length).filterMap (fun i => l[i]?) = l := by
  induction l with
  | nil => rfl
  | cons a l ih =>
    have hhead : (a :: l)[0]? = some a := rfl
    rw [List.length_cons, List.range_succ_eq_map, List.filterMap_cons, hhead, List.filterMap_map]
    exact congrArg (a :: ·) ih

/-- **The ring is the last `n` values**, the oldest first. -/
theorem Holds.toList (h : b.Holds l) : b.toList = l.rtake n := by
  have hslot : ∀ i < b.len, b.slot (b.head + n - b.len + i) = l[l.length - b.len + i]? := by
    intro i hi
    have hlen := h.len
    have hplace : (b.head + n - b.len + i) % n = (l.length - b.len + i) % n := by
      have hstart : b.head + n - b.len + i + b.len ≡ l.length - b.len + i + b.len [MOD n] := by
        have hleft : b.head + n - b.len + i + b.len = l.length % n + i + n := by
          rw [← h.head]
          omega
        have hright : l.length - b.len + i + b.len = l.length + i := by omega
        rw [hleft, hright]
        exact (Nat.add_modEq_right).trans ((Nat.mod_modEq _ _).add_right i)
      exact Nat.ModEq.add_right_cancel' b.len hstart
    have hlt : l.length - b.len + i < l.length := by omega
    rw [← slot_mod, hplace, slot_mod, h.slot _ hlt (by omega), List.getElem?_eq_getElem hlt]
  have hlen : b.len = (l.drop (l.length - b.len)).length := by
    rw [List.length_drop, h.len]
    omega
  have hdrop : l.length - n = l.length - b.len := by
    rw [h.len]
    omega
  rw [List.rtake, hdrop]
  calc b.toList = (List.range b.len).filterMap fun i => (l.drop (l.length - b.len))[i]? := by
        refine List.filterMap_congr fun i hi => ?_
        rw [hslot i (List.mem_range.1 hi), List.getElem?_drop]
    _ = l.drop (l.length - b.len) := by
        generalize l.drop (l.length - b.len) = rest at hlen
        rw [hlen]
        exact filterMap_lookup rest

/-- The head stays on the ring. -/
theorem Holds.head_lt (h : b.Holds l) : b.head < n := by
  rw [h.head]
  exact Nat.mod_lt _ (Nat.pos_of_neZero n)

/-- A ring holds no more than its size. -/
theorem Holds.len_le (h : b.Holds l) : b.len ≤ n := by
  rw [h.len]
  exact Nat.min_le_right _ _

end RingBuffer
