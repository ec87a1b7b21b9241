import Mathlib.Data.List.Basic
import Mathlib.Tactic.Common

/-!
# Cursor readers

A reader takes what is left under a cursor and returns a value with the rest, or fails.
`Reads r V enc` names the language of a reader: it succeeds on the inputs that start with the
coding of a value of `V`, and consumes exactly that coding. Such a reader is complete
(`Reads.run_enc`) and sound (`Reads.eq_enc`) for its language, and the language has unique
parsings (`Reads.unique`). The rules `next`, `readExact`, `seq`, `header` and `except` give the
language of a reader from those of its parts.
-/

/-- A reader over a cursor: from what is left, a value and the new rest. -/
abbrev Reader (β ε α : Type) := StateT (List β) (Except ε) α

namespace Reader

variable {β ε α γ : Type}

/-! ## Runs that succeed -/

theorem ok_bind {ε' : Type} (a : α) (f : α → Except ε' γ) :
    (Except.ok a : Except ε' α).bind f = f a := rfl

theorem run_pure_ok {a b : α} {s rest : List β} :
    (pure a : Reader β ε α).run s = .ok (b, rest) ↔ a = b ∧ s = rest := by
  show Except.ok (a, s) = .ok (b, rest) ↔ _
  rw [Except.ok.injEq, Prod.mk.injEq]

theorem run_throw_ok {e : ε} {b : α} {s rest : List β} :
    (throw e : Reader β ε α).run s ≠ .ok (b, rest) := by
  intro h
  cases h

/-- A run of two readers succeeds when the second succeeds on what the first left. -/
theorem run_bind_ok {r : Reader β ε α} {f : α → Reader β ε γ} {b : γ} {s rest : List β} :
    (r >>= f).run s = .ok (b, rest) ↔
      ∃ a mid, r.run s = .ok (a, mid) ∧ (f a).run mid = .ok (b, rest) := by
  rw [StateT.run_bind]
  cases hr : r.run s with
  | error e =>
    constructor
    · intro h
      cases h
    · rintro ⟨a, mid, ha, -⟩
      cases ha
  | ok p =>
    obtain ⟨a, mid⟩ := p
    constructor
    · exact fun h => ⟨a, mid, rfl, h⟩
    · rintro ⟨a', mid', ha, h⟩
      cases ha
      exact h

/-- A run that drops what is left. -/
theorem run'_ok {r : Reader β ε α} {a : α} {s : List β} :
    r.run' s = .ok a ↔ ∃ rest, r.run s = .ok (a, rest) := by
  show (r.run s).map Prod.fst = .ok a ↔ _
  cases hr : r.run s with
  | error e => simp [Except.map]
  | ok p =>
    obtain ⟨b, mid⟩ := p
    simp [Except.map]

/-! ## Primitive readers -/

/-- The next item; `eof` at the end of the input. -/
def next (eof : ε) : Reader β ε β
  | [] => .error eof
  | b :: rest => .ok (b, rest)

/-- The next `n` items; `eof` when fewer are left. -/
def readExact (eof : ε) (n : Nat) : Reader β ε { l : List β // l.length = n } := fun s =>
  if h : n ≤ s.length then .ok (⟨s.take n, List.length_take_of_le h⟩, s.drop n) else .error eof

/-! ## The language of a reader -/

/-- `r` reads the codings of the values of `V`: it succeeds exactly on an input that starts with
one, with that value, and leaves what follows the coding. -/
structure Reads (r : Reader β ε α) (V : α → Prop) (enc : α → List β) : Prop where
  run_ok_iff : ∀ {s rest : List β} {a : α}, r.run s = .ok (a, rest) ↔ V a ∧ s = enc a ++ rest

namespace Reads

variable {r : Reader β ε α} {V : α → Prop} {enc : α → List β}

/-- A coding is read back, whatever follows it. -/
theorem run_enc (h : Reads r V enc) {a : α} (ha : V a) (rest : List β) :
    r.run (enc a ++ rest) = .ok (a, rest) :=
  h.run_ok_iff.2 ⟨ha, rfl⟩

/-- A coding is read back when it is all of the input. -/
theorem run_enc_nil (h : Reads r V enc) {a : α} (ha : V a) : r.run (enc a) = .ok (a, []) := by
  have hrun := h.run_enc ha []
  rwa [List.append_nil] at hrun

/-- What is read is the coding of the value returned. -/
theorem eq_enc (h : Reads r V enc) {s rest : List β} {a : α} (hs : r.run s = .ok (a, rest)) :
    V a ∧ s = enc a ++ rest :=
  h.run_ok_iff.1 hs

/-- Two codings of the language that start one input are the same. -/
theorem unique (h : Reads r V enc) {a b : α} {s t : List β} (ha : V a) (hb : V b)
    (heq : enc a ++ s = enc b ++ t) : a = b ∧ s = t := by
  have hrun := h.run_enc ha s
  rw [heq, h.run_enc hb t] at hrun
  cases hrun
  exact ⟨rfl, rfl⟩

/-- A language may be named by other values and codings that agree with it. -/
theorem congr (h : Reads r V enc) {V' : α → Prop} {enc' : α → List β} (hV : ∀ a, V a ↔ V' a)
    (henc : ∀ a, V a → enc a = enc' a) : Reads r V' enc' := by
  constructor
  intro s rest a
  rw [h.run_ok_iff, ← hV a]
  exact and_congr_right fun ha => by rw [henc a ha]

/-- The next item is its own coding. -/
theorem next (eof : ε) : Reads (Reader.next eof : Reader β ε β) (fun _ => True) fun b => [b] := by
  constructor
  intro s rest a
  cases s with
  | nil =>
    constructor
    · intro h
      cases h
    · rintro ⟨-, h⟩
      cases h
  | cons b s =>
    constructor
    · intro h
      cases h
      exact ⟨trivial, rfl⟩
    · rintro ⟨-, h⟩
      cases h
      rfl

/-- `n` items are their own coding. -/
theorem readExact (eof : ε) (n : Nat) :
    Reads (Reader.readExact eof n : Reader β ε _) (fun _ => True) Subtype.val := by
  constructor
  intro s rest a
  show Reader.readExact eof n s = .ok (a, rest) ↔ _
  unfold Reader.readExact
  constructor
  · intro h
    split at h
    · cases h
      exact ⟨trivial, (List.take_append_drop n s).symm⟩
    · cases h
  · rintro ⟨-, rfl⟩
    obtain ⟨l, rfl⟩ := a
    simp

/-- One reader after another: the codings follow each other. -/
theorem seq {r' : Reader β ε γ} {V' : γ → Prop} {enc' : γ → List β} (h : Reads r V enc)
    (h' : Reads r' V' enc') :
    Reads (do
      let a ← r
      let b ← r'
      return (a, b)) (fun p => V p.1 ∧ V' p.2) fun p => enc p.1 ++ enc' p.2 := by
  constructor
  intro s rest p
  simp only [run_bind_ok, run_pure_ok]
  constructor
  · rintro ⟨a, mid, ha, b, mid', hb, rfl, rfl⟩
    obtain ⟨hVa, rfl⟩ := h.eq_enc ha
    obtain ⟨hVb, rfl⟩ := h'.eq_enc hb
    exact ⟨⟨hVa, hVb⟩, (List.append_assoc ..).symm⟩
  · rintro ⟨⟨hVa, hVb⟩, rfl⟩
    refine ⟨p.1, enc' p.2 ++ rest, ?_, p.2, rest, h'.run_enc hVb rest, rfl, rfl⟩
    rw [List.append_assoc]
    exact h.run_enc hVa _

/-- A reader under a header whose value selects it. -/
theorem header {f : α → Reader β ε γ} {a : α} {V' : γ → Prop} {enc' : γ → List β}
    (h : Reads r V enc) (ha : V a) (hf : Reads (f a) V' enc')
    (hother : ∀ a', a' ≠ a → ∀ s b rest, (f a').run s ≠ .ok (b, rest)) :
    Reads (r >>= f) V' fun b => enc a ++ enc' b := by
  constructor
  intro s rest b
  rw [run_bind_ok]
  constructor
  · rintro ⟨a', mid, ha', hb⟩
    have heq : a' = a := by
      by_contra hne
      exact hother a' hne mid b rest hb
    subst heq
    obtain ⟨-, rfl⟩ := h.eq_enc ha'
    obtain ⟨hV, rfl⟩ := hf.eq_enc hb
    exact ⟨hV, (List.append_assoc ..).symm⟩
  · rintro ⟨hV, rfl⟩
    refine ⟨a, enc' b ++ rest, ?_, hf.run_enc hV rest⟩
    rw [List.append_assoc]
    exact h.run_enc ha _

/-- A value that a partial inverse of its coding makes of what was read. -/
theorem except {ofRaw : α → Except ε γ} {raw : γ → α} (h : Reads r V enc)
    (hinv : ∀ a b, ofRaw a = .ok b ↔ a = raw b) :
    Reads (do liftM (ofRaw (← r))) (fun b => V (raw b)) fun b => enc (raw b) := by
  constructor
  intro s rest b
  have hlift : ∀ a mid, (liftM (ofRaw a) : Reader β ε γ).run mid = .ok (b, rest) ↔
      a = raw b ∧ mid = rest := by
    intro a mid
    rw [← hinv]
    cases ofRaw a with
    | error e =>
      constructor
      · intro hrun
        cases hrun
      · rintro ⟨hb, -⟩
        cases hb
    | ok b' =>
      constructor
      · intro hrun
        cases hrun
        exact ⟨rfl, rfl⟩
      · rintro ⟨hb, rfl⟩
        cases hb
        rfl
  simp only [run_bind_ok, hlift]
  constructor
  · rintro ⟨a, mid, ha, rfl, rfl⟩
    exact h.eq_enc ha
  · rintro ⟨hV, rfl⟩
    exact ⟨raw b, rest, h.run_enc hV rest, rfl, rfl⟩

end Reads

end Reader
