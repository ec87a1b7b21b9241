import Mathlib.Data.List.Basic
import Mathlib.Data.Set.Card

/-!
# Moves in a table

A table gives some keys a value. A move takes the value of one key to another one, in place of what
stood there. A list of moves of which some do not happen (`moveSome`) leaves a table that is
repaired by making up for those, in their order (`repairs_moveSome`), as long as none of them has a
key in common with a later one that did happen. A move onto a key that has a value takes that value
out for good (`not_repairs_of_onto`).
-/

namespace Moves

/-- A table. -/
abbrev Table (α β : Type) : Type := α → Option β

variable {α β : Type} [DecidableEq α]

/-- The value of `a` becomes that of `b`. -/
def move (m : Table α β) (a b : α) : Table α β := fun c =>
  if c = b then m a else if c = a then none else m c

/-- One move after another. -/
def moveAll : Table α β → List (α × α) → Table α β
  | m, [] => m
  | m, (a, b) :: moves => moveAll (move m a b) moves

/-- One move after another, but for those that fail. -/
def moveSome (fails : α × α → Bool) : Table α β → List (α × α) → Table α β
  | m, [] => m
  | m, (a, b) :: moves =>
    moveSome fails (if fails (a, b) then m else move m a b) moves

/-- `m` becomes `m'` when the value that each of the keys has in `m₀` is moved to it from another
key, one key after another. -/
inductive Repairs (m₀ : Table α β) : List α → Table α β → Table α β → Prop
  | nil (m : Table α β) : Repairs m₀ [] m m
  | cons {m m' : Table α β} {a b : α} {keys : List α} (hne : a ≠ b) (hsome : (m a).isSome = true)
      (hvalue : m a = m₀ b) (hrest : Repairs m₀ keys (move m a b) m') :
      Repairs m₀ (b :: keys) m m'

/-- Two moves have no key in common. -/
def Apart (p q : α × α) : Prop := p.1 ≠ q.1 ∧ p.1 ≠ q.2 ∧ p.2 ≠ q.1 ∧ p.2 ≠ q.2

instance (p q : α × α) : Decidable (Apart p q) := by
  unfold Apart
  infer_instance

variable {m m₀ m' : Table α β} {a b c : α} {fails : α × α → Bool}

/-! ## One move -/

/-- The new name has what the old one had. -/
theorem move_target (m : Table α β) (a b : α) : move m a b b = m a := if_pos rfl

/-- The old name has nothing. -/
theorem move_source (hne : a ≠ b) (m : Table α β) : move m a b a = none := by
  rw [move, if_neg hne, if_pos rfl]

/-- The other names have what they had. -/
theorem move_other (ha : c ≠ a) (hb : c ≠ b) (m : Table α β) : move m a b c = m c := by
  rw [move, if_neg hb, if_neg ha]

/-- Moves without a common key are made in any order. -/
theorem move_comm {p q : α × α} (h : Apart p q) (m : Table α β) :
    move (move m p.1 p.2) q.1 q.2 = move (move m q.1 q.2) p.1 p.2 := by
  obtain ⟨h11, h12, h21, h22⟩ := h
  funext c
  by_cases hp2 : c = p.2
  · rw [hp2, move_other h21 h22, move_target, move_target, move_other h11 h12]
  by_cases hp1 : c = p.1
  · rw [hp1, move_other h11 h12]
    by_cases hp : p.1 = p.2
    · rw [hp, move_target, move_target, move_other h21 h22]
    · rw [move_source hp, move_source hp]
  rw [move_other hp1 hp2]
  by_cases hq2 : c = q.2
  · rw [hq2, move_target, move_target, move_other (Ne.symm h11) (Ne.symm h21)]
  by_cases hq1 : c = q.1
  · rw [hq1]
    by_cases hq : q.1 = q.2
    · rw [hq, move_target, move_target, move_other (Ne.symm h12) (Ne.symm h22)]
    · rw [move_source hq, move_source hq]
  rw [move_other hq1 hq2, move_other hq1 hq2, move_other hp1 hp2]

/-- A move to a key without a value is taken back. -/
theorem move_back (hne : a ≠ b) (hfree : m b = none) : move (move m a b) b a = m := by
  funext c
  by_cases ha : c = a
  · rw [ha, move_target, move_target]
  by_cases hb : c = b
  · rw [hb, move_source (Ne.symm hne), hfree]
  · rw [move_other hb ha, move_other ha hb]

/-- A move brings no value in. -/
theorem exists_of_move {v : β} (h : move m a b c = some v) : ∃ d, m d = some v := by
  unfold move at h
  split at h
  · exact ⟨a, h⟩
  · split at h
    · cases h
    · exact ⟨c, h⟩

/-- What a repair ends with was there. -/
theorem Repairs.exists_of {keys : List α} (h : Repairs m₀ keys m m') {v : β} :
    (∃ d, m' d = some v) → ∃ d, m d = some v := by
  induction h with
  | nil => exact id
  | cons _ _ _ _ ih => exact fun hv => (ih hv).elim fun _ hd => exists_of_move hd

/-- A repair of no key changes nothing. -/
theorem Repairs.eq_of_nil (h : Repairs m₀ [] m m') : m' = m := by
  cases h
  rfl

/-! ## Moves that fail -/

/-- A key that no move has keeps its value. -/
theorem moveAll_other : ∀ {moves : List (α × α)}, (∀ p ∈ moves, c ≠ p.1 ∧ c ≠ p.2) →
    ∀ m : Table α β, moveAll m moves c = m c
  | [], _, _ => rfl
  | (a, b) :: moves, h, m => by
    obtain ⟨⟨ha, hb⟩, h⟩ := List.forall_mem_cons.1 h
    rw [moveAll, moveAll_other h, move_other ha hb]

/-- A key that no move that happens has keeps its value. -/
theorem moveSome_other : ∀ {moves : List (α × α)},
    (∀ p ∈ moves, fails p = false → c ≠ p.1 ∧ c ≠ p.2) →
    ∀ m : Table α β, moveSome fails m moves c = m c
  | [], _, _ => rfl
  | (a, b) :: moves, h, m => by
    obtain ⟨hhead, htail⟩ := List.forall_mem_cons.1 h
    rw [moveSome, moveSome_other htail]
    cases hfails : fails (a, b) with
    | true => rw [if_pos rfl]
    | false => rw [if_neg Bool.false_ne_true, move_other (hhead hfails).1 (hhead hfails).2]

/-- A move is made before or after those that happen and have no key in common with it. -/
theorem move_moveSome (p : α × α) : ∀ {moves : List (α × α)},
    (∀ q ∈ moves, fails q = false → Apart p q) → ∀ m : Table α β,
    move (moveSome fails m moves) p.1 p.2 = moveSome fails (move m p.1 p.2) moves
  | [], _, _ => rfl
  | q :: moves, h, m => by
    obtain ⟨hhead, htail⟩ := List.forall_mem_cons.1 h
    rw [moveSome, moveSome, move_moveSome p htail]
    cases hfails : fails q with
    | true => rw [if_pos rfl, if_pos rfl]
    | false =>
      rw [if_neg Bool.false_ne_true, if_neg Bool.false_ne_true,
        ← move_comm (hhead hfails)]

/-- Every move finds a value. -/
def Movable : Table α β → List (α × α) → Prop
  | _, [] => True
  | m, (a, b) :: moves => a ≠ b ∧ (m a).isSome = true ∧ Movable (move m a b) moves

/-- **Making up for the moves that failed**, in their order, ends with what all moves together
would have made of the table. -/
theorem repairs_moveSome : ∀ {moves : List (α × α)} {m : Table α β}, moveAll m moves = m₀ →
    Movable m moves →
    moves.Pairwise (fun p q => (fails p = true → fails q = false → Apart p q) ∧
      p.2 ≠ q.1 ∧ p.2 ≠ q.2) →
    Repairs m₀ ((moves.filter fails).map Prod.snd) (moveSome fails m moves) m₀
  | [], m, hall, _, _ => by
    rw [← hall]
    exact .nil m
  | (a, b) :: moves, m, hall, ⟨hne, hsome, hmovable⟩, hapart => by
    obtain ⟨hhead, htail⟩ := List.pairwise_cons.1 hapart
    have hrest : moveAll (move m a b) moves = m₀ := hall
    have ih := repairs_moveSome hrest hmovable htail
    rw [moveSome]
    cases hfails : fails (a, b) with
    | false =>
      rw [List.filter_cons_of_neg (by rw [hfails]; exact Bool.false_ne_true),
        if_neg Bool.false_ne_true]
      exact ih
    | true =>
      rw [List.filter_cons_of_pos hfails, List.map_cons, if_pos rfl]
      have hother : moveSome fails m moves a = m a := moveSome_other (fun q hq hfalse =>
        ⟨((hhead q hq).1 hfails hfalse).1, ((hhead q hq).1 hfails hfalse).2.1⟩) m
      have htarget : m₀ b = m a := by
        rw [← hall, moveAll, moveAll_other fun q hq => (hhead q hq).2, move_target]
      refine .cons hne (hother ▸ hsome) (hother.trans htarget.symm) ?_
      rw [move_moveSome (a, b) fun q hq => (hhead q hq).1 hfails]
      exact ih

/-- Moves that find their values: no key is moved twice. -/
theorem movable_of_sources : ∀ {moves : List (α × α)} {m : Table α β},
    (∀ p ∈ moves, p.1 ≠ p.2 ∧ (m p.1).isSome = true) →
    moves.Pairwise (fun p q => p.1 ≠ q.1) → Movable m moves
  | [], _, _, _ => trivial
  | (a, b) :: moves, m, hsome, hsources => by
    obtain ⟨⟨hne, hhead⟩, htail⟩ := List.forall_mem_cons.1 hsome
    obtain ⟨hdistinct, hsources⟩ := List.pairwise_cons.1 hsources
    refine ⟨hne, hhead, movable_of_sources (fun p hp => ⟨(htail p hp).1, ?_⟩) hsources⟩
    by_cases hb : p.1 = b
    · rw [hb, move_target]
      exact hhead
    · rw [move_other (Ne.symm (hdistinct p hp)) hb]
      exact (htail p hp).2

/-! ## Values that are lost -/

/-- The keys that have a value. -/
def keys (m : Table α β) : Set α := {a | (m a).isSome = true}

omit [DecidableEq α] in
/-- The keys of a table are the names it has something under. -/
theorem mem_keys : a ∈ keys m ↔ (m a).isSome = true := Iff.rfl

/-- The keys after a move come from those before. -/
theorem encard_keys_move_le (m : Table α β) (a b : α) :
    (keys (move m a b)).encard ≤ (keys m).encard := by
  have himage : keys (move m a b) ⊆ (fun c => if c = a then b else c) '' keys m := by
    intro c hc
    have hc : (move m a b c).isSome = true := hc
    by_cases hb : c = b
    · rw [hb, move_target] at hc
      exact ⟨a, hc, (if_pos rfl).trans hb.symm⟩
    · by_cases ha : c = a
      · rw [ha, move_source (ha ▸ hb)] at hc
        cases hc
      · rw [move_other ha hb] at hc
        exact ⟨c, hc, if_neg ha⟩
  exact (Set.encard_le_encard himage).trans (Set.encard_image_le _ _)

/-- Moves that may fail make no new keys. -/
theorem encard_keys_moveSome_le : ∀ (moves : List (α × α)) (m : Table α β),
    (keys (moveSome fails m moves)).encard ≤ (keys m).encard
  | [], _ => le_rfl
  | (a, b) :: moves, m => by
    rw [moveSome]
    refine (encard_keys_moveSome_le moves _).trans ?_
    cases fails (a, b) with
    | true => exact le_rfl
    | false => exact encard_keys_move_le m a b

/-- Moves make no new keys. -/
theorem encard_keys_moveAll_le : ∀ (moves : List (α × α)) (m : Table α β),
    (keys (moveAll m moves)).encard ≤ (keys m).encard
  | [], _ => le_rfl
  | (a, b) :: moves, m =>
    (encard_keys_moveAll_le moves (move m a b)).trans (encard_keys_move_le m a b)

/-- A move onto a key that has a value leaves one key less. -/
theorem encard_keys_move_onto (hne : a ≠ b) (ha : a ∈ keys m) (hb : b ∈ keys m) :
    (keys (move m a b)).encard + 1 = (keys m).encard := by
  have hkeys : keys (move m a b) = keys m \ {a} := by
    ext c
    rw [Set.mem_sdiff, Set.mem_singleton_iff, mem_keys]
    by_cases hcb : c = b
    · rw [hcb]
      rw [move_target]
      exact iff_of_true ha ⟨hb, Ne.symm hne⟩
    · by_cases hca : c = a
      · refine iff_of_false (fun h => ?_) fun h => h.2 hca
        rw [hca, move_source hne] at h
        cases h
      · rw [move_other hca hcb]
        exact ⟨fun h => ⟨h, hca⟩, fun h => h.1⟩
  rw [hkeys, Set.encard_sdiff_singleton_add_one ha]

/-- A repair makes no new keys. -/
theorem Repairs.encard_le {names : List α} (h : Repairs m₀ names m m') :
    (keys m').encard ≤ (keys m).encard := by
  induction h with
  | nil => exact le_rfl
  | cons _ _ _ _ ih => exact ih.trans (encard_keys_move_le _ _ _)

/-- **What was moved onto is lost**: no repair gets back to the table before the moves. -/
theorem not_repairs_of_onto (hfinite : (keys m₀).Finite) {before after : List (α × α)}
    (hne : a ≠ b) (ha : a ∈ keys (moveAll m₀ before)) (hb : b ∈ keys (moveAll m₀ before))
    {names : List α} :
    ¬ Repairs m₀ names (moveSome fails (move (moveAll m₀ before) a b) after) m₀ := by
  intro h
  have hle : (keys m₀).encard + 1 ≤ (keys m₀).encard := by
    calc (keys m₀).encard + 1
        ≤ (keys (moveSome fails (move (moveAll m₀ before) a b) after)).encard + 1 :=
          add_le_add_left h.encard_le 1
      _ ≤ (keys (move (moveAll m₀ before) a b)).encard + 1 :=
          add_le_add_left (encard_keys_moveSome_le after _) 1
      _ = (keys (moveAll m₀ before)).encard := encard_keys_move_onto hne ha hb
      _ ≤ (keys m₀).encard := encard_keys_moveAll_le before m₀
  exact absurd hle (not_le_of_gt (ENat.lt_add_one_iff hfinite.encard_lt_top.ne |>.2 le_rfl))

end Moves
