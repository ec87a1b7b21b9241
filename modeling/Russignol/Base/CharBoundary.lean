import Mathlib.Data.String.Basic
import Mathlib.Tactic.Common

/-!
# Places between characters

A text whose characters take one to four bytes can be cut at a byte only where a character begins
or the text ends. A number of bytes is the same number of characters exactly where each takes one
byte.
-/

namespace CharBoundary

open String

/-- The text before a byte and the text from it on, where it lies between characters. -/
def splitAtByte : List Char → Nat → Option (List Char × List Char)
  | cs, 0 => some ([], cs)
  | [], _ + 1 => none
  | c :: cs, n + 1 =>
    if c.utf8Size ≤ n + 1 then
      (splitAtByte cs (n + 1 - c.utf8Size)).map fun (before, rest) => (c :: before, rest)
    else none

variable {cs a b : List Char} {n : Nat}

/-- A text is cut between two parts. -/
theorem splitAtByte_append (a b : List Char) : splitAtByte (a ++ b) (utf8Len a) = some (a, b) := by
  induction a with
  | nil => cases b <;> rfl
  | cons c a ih =>
    have hpos := c.utf8Size_pos
    obtain ⟨n, hn⟩ : ∃ n, utf8Len (c :: a) = n + 1 := ⟨utf8Len a + c.utf8Size - 1, by
      rw [utf8Len_cons]
      omega⟩
    have hrest : n + 1 - c.utf8Size = utf8Len a := by
      rw [← hn, utf8Len_cons, Nat.add_sub_cancel]
    rw [hn, List.cons_append, splitAtByte, if_pos (by rw [← hn, utf8Len_cons]; omega), hrest, ih]
    rfl

/-- What is cut is the whole text, and the first part has the bytes. -/
theorem eq_append_of_splitAtByte (h : splitAtByte cs n = some (a, b)) :
    cs = a ++ b ∧ utf8Len a = n := by
  induction cs generalizing n a with
  | nil =>
    cases n with
    | zero =>
      cases h
      exact ⟨rfl, rfl⟩
    | succ n => cases h
  | cons c cs ih =>
    cases n with
    | zero =>
      cases h
      exact ⟨rfl, rfl⟩
    | succ n =>
      rw [splitAtByte] at h
      split at h
      · rename_i hfits
        obtain ⟨⟨before, rest⟩, hsplit, hparts⟩ := Option.map_eq_some_iff.1 h
        cases hparts
        obtain ⟨rfl, hlen⟩ := ih hsplit
        refine ⟨rfl, ?_⟩
        rw [utf8Len_cons, hlen]
        omega
      · cases h

theorem length_le_utf8Len (cs : List Char) : cs.length ≤ utf8Len cs := by
  induction cs with
  | nil => exact le_rfl
  | cons c cs ih =>
    have hpos := c.utf8Size_pos
    rw [List.length_cons, utf8Len_cons]
    omega

/-- As many bytes as characters: each character takes one. -/
theorem utf8Len_eq_length : utf8Len cs = cs.length ↔ ∀ c ∈ cs, c.utf8Size = 1 := by
  induction cs with
  | nil => exact ⟨fun _ c hc => absurd hc List.not_mem_nil, fun _ => rfl⟩
  | cons c cs ih =>
    have hpos := c.utf8Size_pos
    have hrest := length_le_utf8Len cs
    rw [List.forall_mem_cons, ← ih, utf8Len_cons, List.length_cons]
    omega

end CharBoundary
