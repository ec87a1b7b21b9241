import Mathlib.Data.List.Basic
import Mathlib.Tactic.Common

/-!
# The words of a shell command

How a POSIX shell splits the text of a simple command into words and removes their quotes. A
character that the shell gives another meaning to (an operator, an expansion, a pattern, a comment,
a line end) is read inside quotes only: where it stands elsewhere there are no words, which is
`none`. `Spells t s` says that a text reads as one word; words that are spelled and put together
with blanks are read back (`words_intercalate`).
-/

namespace ShellWords

/-- Where the shell stands in a text: between two words, or in a word of which it has read a part,
outside quotes, inside single quotes or after a backslash. -/
inductive State
  | between
  | word (w : List Char)
  | quotes (w : List Char)
  | escaped (w : List Char)

def isBlank (c : Char) : Bool := c = ' ' || c = '\t'

/-- The characters that mean something else outside quotes. -/
def special : List Char := "\n|&;<>()$\x60\"*?[]#~%!\x7b\x7d^,".toList

/-- A character of a word outside quotes. -/
def next (w : List Char) (c : Char) : Option State :=
  if c = '\'' then some (.quotes w)
  else if c = '\\' then some (.escaped w)
  else if c ∈ special then none
  else some (.word (w ++ [c]))

/-- The words of a text. -/
def lex : State → List Char → Option (List (List Char))
  | .between, [] => some []
  | .word w, [] => some [w]
  | .quotes _, [] | .escaped _, [] => none
  | .between, c :: cs => if isBlank c then lex .between cs else (next [] c).bind (lex · cs)
  | .word w, c :: cs =>
    if isBlank c then (lex .between cs).map (w :: ·) else (next w c).bind (lex · cs)
  | .quotes w, c :: cs => if c = '\'' then lex (.word w) cs else lex (.quotes (w ++ [c])) cs
  | .escaped w, c :: cs => if c = '\n' then none else lex (.word (w ++ [c])) cs

/-- The words of a command. -/
def words (text : List Char) : Option (List (List Char)) := lex .between text

/-- The words of a command that names its program by a path from the root: such a name is neither an
assignment nor a word of the shell's own. -/
def command (text : List Char) : Option (List (List Char)) :=
  (words text).filter fun ws => ws.head?.bind List.head? = some '/'

/-! ## Spelling a word -/

/-- The text reads as one word, whatever follows. -/
structure Spells (t s : List Char) : Prop where
  head : ∃ c cs, t = c :: cs ∧ isBlank c = false
  reads : ∀ w rest, lex (.word w) (t ++ rest) = lex (.word (w ++ s)) rest

/-- A character that stands for itself outside quotes. -/
def Plain (c : Char) : Prop := isBlank c = false ∧ c ≠ '\'' ∧ c ≠ '\\' ∧ c ∉ special

/-- A plain character goes on with the word. -/
theorem lex_plain {c : Char} (h : Plain c) (w cs : List Char) :
    lex (.word w) (c :: cs) = lex (.word (w ++ [c])) cs := by
  obtain ⟨hblank, hquote, hescape, hspecial⟩ := h
  rw [lex, hblank, if_neg Bool.false_ne_true, next, if_neg hquote, if_neg hescape,
    if_neg hspecial]
  rfl

/-- A word of plain characters spells itself. -/
theorem spells_plain {s : List Char} (hne : s ≠ []) (h : ∀ c ∈ s, Plain c) : Spells s s where
  head := by
    cases s with
    | nil => exact absurd rfl hne
    | cons c cs => exact ⟨c, cs, rfl, (h c List.mem_cons_self).1⟩
  reads := by
    clear hne
    intro w rest
    induction s generalizing w with
    | nil => rw [List.nil_append, List.append_nil]
    | cons c cs ih =>
      rw [List.cons_append, lex_plain (h c List.mem_cons_self),
        ih (fun d hd => h d (List.mem_cons_of_mem c hd)), List.append_assoc]
      rfl

/-- Inside single quotes: a quote ends them, stands escaped, and begins them again. -/
def escape (s : List Char) : List Char :=
  s.flatMap fun c => if c = '\'' then ['\'', '\\', '\'', '\''] else [c]

/-- What is escaped within quotes goes on with the word as it was. -/
theorem lex_escape (s w rest : List Char) :
    lex (.quotes w) (escape s ++ '\'' :: rest) = lex (.word (w ++ s)) rest := by
  induction s generalizing w with
  | nil =>
    rw [List.append_nil]
    exact if_pos rfl
  | cons c cs ih =>
    by_cases hc : c = '\''
    · subst hc
      have hstep : ∀ cs, lex (.quotes w) ('\'' :: '\\' :: '\'' :: '\'' :: cs) =
          lex (.quotes (w ++ ['\''])) cs := fun cs => rfl
      rw [escape, List.flatMap_cons, if_pos rfl]
      refine (hstep _).trans ((ih _).trans ?_)
      rw [List.append_assoc]
      rfl
    · have hstep : ∀ cs, lex (.quotes w) (c :: cs) = lex (.quotes (w ++ [c])) cs :=
        fun cs => if_neg hc
      rw [escape, List.flatMap_cons, if_neg hc]
      refine (hstep _).trans ((ih _).trans ?_)
      rw [List.append_assoc]
      rfl

/-- Any word is spelled in single quotes. -/
theorem spells_quoted (s : List Char) : Spells ('\'' :: (escape s ++ ['\''])) s where
  head := ⟨_, _, rfl, by decide⟩
  reads := by
    intro w rest
    have hopen : ∀ cs, lex (.word w) ('\'' :: cs) = lex (.quotes w) cs := fun cs => rfl
    rw [List.cons_append, List.append_assoc, hopen]
    exact lex_escape s w rest

/-! ## Words put together -/

variable {t s : List Char} {ts ss : List (List Char)}

/-- A word begins. -/
theorem Spells.begins (h : Spells t s) (rest : List Char) :
    lex .between (t ++ rest) = lex (.word s) rest := by
  obtain ⟨c, cs, rfl, hc⟩ := h.head
  have hreads := h.reads [] rest
  rw [List.nil_append] at hreads
  rw [← hreads, List.cons_append, lex, lex, hc]
  rfl

/-- **Words that are spelled** and put together with blanks are read back. -/
theorem words_intercalate (h : List.Forall₂ Spells ts ss) :
    words (List.intercalate [' '] ts) = some ss := by
  unfold words
  induction h with
  | nil => rfl
  | @cons t s ts ss hts hrest ih =>
    cases hrest with
    | nil =>
      have hbegins := hts.begins []
      rw [List.append_nil] at hbegins
      exact (congrArg (lex .between) (List.append_nil t)).trans hbegins
    | cons htail hrest =>
      rw [List.intercalate_cons_cons, List.append_assoc, hts.begins]
      exact congrArg (Option.map (s :: ·)) ih

end ShellWords
