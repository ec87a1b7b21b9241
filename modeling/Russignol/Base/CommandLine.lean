import Mathlib.Data.List.Basic
import Mathlib.Tactic.Common

/-!
# The options of a command line

The usual reading of a command line by a table of options. An option is given by its long name, with
a value after an equals sign or in the next word, or by a letter, which may share a word with others;
a word that begins with a hyphen is not taken for a value, and after two hyphens every word is
positional. Words that are added at the end give what they give by themselves (`parse_append`),
unless they are all positional (`parse_append_escaped`).
-/

namespace CommandLine

abbrev Word := List Char

/-- What an option takes: nothing, a value, or a value that has a default. -/
inductive Arity
  | flag
  | value
  | optional (default : Word)
  deriving DecidableEq, Repr

/-- An option of the table. -/
structure Opt where
  name : Word
  short : Option Char
  arity : Arity
  deriving DecidableEq, Repr

/-- An option that is given, with its value, which is empty for one that takes none. -/
abbrev Given := Word × Word

/-- A word that begins with a hyphen and is not one. -/
def isOption : Word → Bool
  | '-' :: _ :: _ => true
  | _ => false

/-- Two hyphens. -/
def twoHyphens : Word := ['-', '-']

/-- What a word gives: its options, or itself; and whether the next word is a value of it. -/
structure Item where
  given : List Given
  positional : List Word
  took : Bool

/-- An option whose word has no value in it. -/
def Opt.alone (o : Opt) (following : Option Word) : Option Item :=
  match o.arity, following with
  | .flag, _ => some ⟨[(o.name, [])], [], false⟩
  | .value, some v => if isOption v then none else some ⟨[(o.name, v)], [], true⟩
  | .value, none => none
  | .optional default, some v =>
    if isOption v then some ⟨[(o.name, default)], [], false⟩
    else some ⟨[(o.name, v)], [], true⟩
  | .optional default, none => some ⟨[(o.name, default)], [], false⟩

/-- An option whose word has its value in it. -/
def Opt.valued (o : Opt) (v : Word) : Option Item :=
  match o.arity with
  | .flag => none
  | _ => some ⟨[(o.name, v)], [], false⟩

/-- The letters of a word. -/
def readShorts (opts : List Opt) (following : Option Word) : List Char → Option Item
  | [] => some ⟨[], [], false⟩
  | c :: cs =>
    match opts.find? fun o => o.short = some c with
    | none => none
    | some o =>
      if o.arity = .flag then
        (readShorts opts following cs).map fun item =>
          { item with given := (o.name, []) :: item.given }
      else
        match cs with
        | [] => o.alone following
        | '=' :: v => o.valued v
        | v => o.valued v

/-- A long name, with a value after an equals sign. -/
def readLong (opts : List Opt) (following : Option Word) (w : List Char) : Option Item :=
  match opts.find? fun o => o.name = w.takeWhile (· ≠ '=') with
  | none => none
  | some o =>
    match w.dropWhile (· ≠ '=') with
    | [] => o.alone following
    | _ :: v => o.valued v

/-- One word. -/
def read (opts : List Opt) (following : Option Word) : Word → Option Item
  | '-' :: '-' :: w => readLong opts following w
  | '-' :: c :: cs => readShorts opts following (c :: cs)
  | w => some ⟨[], [w], false⟩

/-- The options and the positional words of a command line. -/
def parse (opts : List Opt) : List Word → Option (List Given × List Word)
  | [] => some ([], [])
  | w :: ws =>
    if w = twoHyphens then some ([], ws)
    else
      match read opts ws.head? w with
      | none => none
      | some item =>
        let rest := match item.took, ws with
          | true, _ :: ws => parse opts ws
          | _, ws => parse opts ws
        rest.map fun (given, positional) => (item.given ++ given, item.positional ++ positional)

/-! ## The next word -/

variable {opts : List Opt} {w : Word} {ws tail : List Word} {item : Item}
  {given : List Given} {positional : List Word}

/-- What reads one word: it takes no word that begins with a hyphen, and does not need one. -/
structure Closed (f : Option Word → Option Item) : Prop where
  alone : ∀ item, f none = some item → item.took = false
  following : ∀ item v, f none = some item → isOption v = true → f (some v) = some item
  taken : ∀ item v, f (some v) = some item → item.took = true → isOption v = false

/-- What reads nothing is closed. -/
theorem closed_none : Closed fun _ => none where
  alone := by
    rintro _ ⟨⟩
  following := by
    rintro _ _ ⟨⟩
  taken := by
    rintro _ _ ⟨⟩

/-- An item that does not depend on the next word. -/
theorem closed_const {item : Item} (htook : item.took = false) : Closed fun _ => some item where
  alone := by
    rintro _ ⟨⟩
    exact htook
  following := fun _ _ h _ => h
  taken := by
    rintro _ v ⟨⟩ h
    rw [htook] at h
    cases h

/-- An option that stands alone is closed. -/
theorem closed_alone (o : Opt) : Closed o.alone := by
  unfold Opt.alone
  cases o.arity with
  | flag => exact closed_const rfl
  | value =>
    refine ⟨fun _ h => ?_, fun _ _ h => ?_, fun item v h _ => ?_⟩
    · cases h
    · cases h
    · dsimp only at h
      split at h
      · cases h
      · exact Bool.eq_false_iff.2 ‹_›
  | optional default =>
    refine ⟨fun item h => ?_, fun item v h hv => ?_, fun item v h htook => ?_⟩
    · cases h
      rfl
    · cases h
      exact if_pos hv
    · dsimp only at h
      split at h
      · cases h
        cases htook
      · exact Bool.eq_false_iff.2 ‹_›

/-- An option with its value in the same word is closed. -/
theorem closed_valued (o : Opt) (v : Word) : Closed fun _ => o.valued v := by
  unfold Opt.valued
  cases o.arity with
  | flag => exact closed_none
  | value | optional default => exact closed_const rfl

/-- A word of short options is closed, by its letters. -/
theorem closed_readShorts (opts : List Opt) (cs : List Char) :
    Closed fun following => readShorts opts following cs := by
  induction cs with
  | nil => exact closed_const rfl
  | cons c cs ih =>
    unfold readShorts
    cases opts.find? fun o => o.short = some c with
    | none => exact closed_none
    | some o =>
      dsimp only
      by_cases hflag : o.arity = .flag
      · simp only [if_pos hflag]
        refine ⟨fun item h => ?_, fun item v h hv => ?_, fun item v h htook => ?_⟩
        · obtain ⟨rest, hrest, rfl⟩ := Option.map_eq_some_iff.1 h
          exact ih.alone rest hrest
        · obtain ⟨rest, hrest, rfl⟩ := Option.map_eq_some_iff.1 h
          exact Option.map_eq_some_iff.2 ⟨rest, ih.following rest v hrest hv, rfl⟩
        · obtain ⟨rest, hrest, rfl⟩ := Option.map_eq_some_iff.1 h
          exact ih.taken rest v hrest htook
      · simp only [if_neg hflag]
        split
        · exact closed_alone o
        · exact closed_valued o _
        · exact closed_valued o _

/-- A long option is closed. -/
theorem closed_readLong (opts : List Opt) (w : List Char) :
    Closed fun following => readLong opts following w := by
  unfold readLong
  cases opts.find? fun o => o.name = w.takeWhile (· ≠ '=') with
  | none => exact closed_none
  | some o =>
    dsimp only
    split
    · exact closed_alone o
    · exact closed_valued o _

/-- Every word is closed. -/
theorem closed_read (opts : List Opt) (w : Word) : Closed fun following => read opts following w := by
  unfold read
  split
  · exact closed_readLong opts _
  · exact closed_readShorts opts _
  · exact closed_const rfl

/-! ## Words at the end -/

/-- What is left after a word. -/
def Item.left (item : Item) (ws : List Word) : List Word := if item.took then ws.tail else ws

/-- A command line that is read. -/
inductive Parsed (opts : List Opt) : List Word → List Given → List Word → Prop
  | nil : Parsed opts [] [] []
  | escape (ws : List Word) : Parsed opts (twoHyphens :: ws) [] ws
  | word {w : Word} {ws : List Word} {item : Item} {given : List Given} {positional : List Word}
    (hw : w ≠ twoHyphens) (hread : read opts ws.head? w = some item)
    (hrest : Parsed opts (item.left ws) given positional) :
    Parsed opts (w :: ws) (item.given ++ given) (item.positional ++ positional)

/-- One word and the rest. -/
theorem parse_cons (hw : w ≠ twoHyphens) : parse opts (w :: ws) =
    (read opts ws.head? w).bind fun item =>
      (parse opts (item.left ws)).map fun (given, positional) =>
        (item.given ++ given, item.positional ++ positional) := by
  rw [parse, if_neg hw]
  cases read opts ws.head? w with
  | none => rfl
  | some item =>
    obtain ⟨given, positional, took⟩ := item
    cases took with
    | false => rfl
    | true => cases ws <;> rfl

/-- An item takes words away, and adds none. -/
theorem length_left_le (item : Item) (ws : List Word) : (item.left ws).length ≤ ws.length := by
  unfold Item.left
  split
  · rw [List.length_tail]
    omega
  · exact Nat.le_refl _

/-- What the parser returns is a reading of the words. -/
theorem parsed_of_parse {n : Nat} (hn : ws.length ≤ n)
    (h : parse opts ws = some (given, positional)) : Parsed opts ws given positional := by
  induction n generalizing ws given positional with
  | zero =>
    cases List.eq_nil_of_length_eq_zero (Nat.le_zero.1 hn)
    cases h
    exact .nil
  | succ n ih =>
    cases ws with
    | nil =>
      cases h
      exact .nil
    | cons w ws =>
      by_cases hw : w = twoHyphens
      · rw [parse, if_pos hw] at h
        cases h
        exact hw ▸ .escape _
      · rw [parse_cons hw] at h
        obtain ⟨item, hread, h⟩ := Option.bind_eq_some_iff.1 h
        obtain ⟨⟨given', positional'⟩, hrest, h⟩ := Option.map_eq_some_iff.1 h
        cases h
        have hleft := length_left_le item ws
        rw [List.length_cons] at hn
        exact .word hw hread (ih (by omega) hrest)

/-- A word of a command line, before words at the end. -/
theorem read_append (hread : read opts ws.head? w = some item)
    (htail : ∀ v ∈ tail.head?, isOption v = true) :
    read opts (ws ++ tail).head? w = some item ∧ item.left (ws ++ tail) = item.left ws ++ tail := by
  cases ws with
  | nil =>
    have htook := (closed_read opts w).alone item hread
    refine ⟨?_, ?_⟩
    · cases tail with
      | nil => exact hread
      | cons v tail => exact (closed_read opts w).following item v hread (htail v rfl)
    · rw [Item.left, Item.left, htook]
      rfl
  | cons v ws =>
    refine ⟨hread, ?_⟩
    unfold Item.left
    split <;> rfl

/-- **Words at the end** give what they give by themselves. -/
theorem Parsed.append (h : Parsed opts ws given positional)
    (htail : ∀ v ∈ tail.head?, isOption v = true) (hescape : twoHyphens ∉ ws) :
    parse opts (ws ++ tail) = (parse opts tail).map fun (given', positional') =>
      (given ++ given', positional ++ positional') := by
  induction h with
  | nil =>
    rw [List.nil_append]
    cases parse opts tail <;> rfl
  | escape ws => exact absurd List.mem_cons_self hescape
  | @word w ws item given positional hw hread _ ih =>
    obtain ⟨hread', hleft⟩ := read_append hread htail
    have hrest : twoHyphens ∉ item.left ws := by
      unfold Item.left
      split
      · exact fun hmem => hescape (List.mem_cons_of_mem w (List.mem_of_mem_tail hmem))
      · exact fun hmem => hescape (List.mem_cons_of_mem w hmem)
    rw [List.cons_append, parse_cons hw, hread', Option.bind_some, hleft, ih hrest,
      Option.map_map]
    cases parse opts tail with
    | none => rfl
    | some rest => simp only [Option.map_some, Function.comp_apply, List.append_assoc]

/-- **After two hyphens** words at the end are positional. -/
theorem Parsed.append_escaped (h : Parsed opts ws given positional) (hescape : twoHyphens ∈ ws)
    (tail : List Word) : parse opts (ws ++ tail) = some (given, positional ++ tail) := by
  induction h with
  | nil => cases hescape
  | escape ws =>
    rw [List.cons_append, parse]
    exact if_pos rfl
  | @word w ws item given positional hw hread _ ih =>
    have hws : twoHyphens ∈ ws := (List.mem_cons.1 hescape).resolve_left (Ne.symm hw)
    obtain ⟨v, ws, rfl⟩ := List.exists_cons_of_ne_nil (List.ne_nil_of_mem hws)
    have hread' : read opts (some v) w = some item := hread
    have hrest : twoHyphens ∈ item.left (v :: ws) := by
      unfold Item.left
      split
      · rename_i htook
        refine (List.mem_cons.1 hws).resolve_left ?_
        rintro rfl
        cases (closed_read opts w).taken item _ hread' htook
      · exact hws
    have hleft : item.left (v :: ws ++ tail) = item.left (v :: ws) ++ tail := by
      unfold Item.left
      split <;> rfl
    rw [List.cons_append, parse_cons hw, List.cons_append, List.head?_cons, hread',
      Option.bind_some, ← List.cons_append, hleft, ih hrest, Option.map_some]
    simp only [List.append_assoc]

end CommandLine
