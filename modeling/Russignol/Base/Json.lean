import Mathlib.Algebra.Ring.Int.Defs
import Mathlib.Data.List.Basic
import Mathlib.Tactic.Common

/-!
# JSON

The syntax tree of a JSON text, and what a program relies on of a crate that reads and writes it
(`JsonText`, `LawfulJsonText`): a tree that is nested no deeper than the reader's limit, that holds
64-bit integers and names no field twice (`Json.writable`) is read back as it was written. The
fields of an object are kept in the order of the text, so a reader can tell that one stands twice.

A crate may also hand out strings as they are spelled in the text, to borrow them from it
(`JsonSpelling`): one that is spelled as it reads holds no escape.

`plainJson` is such a reader and writer: the layout with one item a line and an indent of two.
`parseValue_print` reads back what it prints, and `readValue_compact` what stands without spaces,
however its strings are spelled, by recursion over the tree with the length of the text as fuel.
-/

/-- A JSON value, as its text spells it. -/
inductive Json
  | null
  | bool (b : Bool)
  /-- An integer. -/
  | num (n : Int)
  /-- A number with a fraction or an exponent, by its text. -/
  | float (text : String)
  | str (s : String)
  | arr (items : List Json)
  | obj (fields : List (String × Json))

namespace Json

/-! ## Access -/

/-- The field of an object that a table of its fields keeps: the last of a name. -/
def get (key : String) : Json → Option Json
  | .obj fields => fields.reverse.lookup key
  | _ => none

/-- A string. -/
def asStr : Json → Option String
  | .str s => some s
  | _ => none

/-- A 32-bit unsigned integer: one that is the number of a word. -/
def asU32 : Json → Option UInt32
  | .num n =>
    let word := UInt32.ofNat n.toNat
    if (word.toNat : Int) = n then some word else none
  | _ => none

/-- A 64-bit signed integer. -/
def asI64 : Json → Option Int
  | .num n => if -2 ^ 63 ≤ n ∧ n < 2 ^ 63 then some n else none
  | _ => none

/-- The items of an array. -/
def asArr : Json → Option (List Json)
  | .arr items => some items
  | _ => none

/-- The fields of a record of these names: from an object in which none of them stands twice, or
by position from an array that has no more items. -/
def record (names : List String) : Json → Option (String → Option Json)
  | .obj fields =>
    if ((fields.map Prod.fst).filter (· ∈ names)).Nodup then some fun name => fields.lookup name
    else none
  | .arr items =>
    if items.length ≤ names.length then some fun name => items[names.idxOf name]? else none
  | _ => none

/-- The fields of a record of these names, from a value whose objects are tables already. -/
def valueRecord (names : List String) : Json → Option (String → Option Json)
  | .arr items =>
    if items.length = names.length then some fun name => items[names.idxOf name]? else none
  | .obj fields => some fun name => get name (.obj fields)
  | _ => none

/-- The number of a word is read as that word. -/
theorem asU32_num (n : UInt32) : asU32 (.num n.toNat) = some n := by
  rw [asU32, Int.toNat_natCast, UInt32.ofNat_toNat]
  exact if_pos rfl

/-- A string field. -/
def strField (field : String → Option Json) (name : String) : Option String :=
  (field name).bind asStr

/-- A 32-bit field. -/
def u32Field (field : String → Option Json) (name : String) : Option UInt32 :=
  (field name).bind asU32

/-- A field with a text is read. -/
theorem strField_of {field : String → Option Json} {name s : String}
    (h : field name = some (.str s)) : strField field name = some s := by
  rw [strField, h]
  rfl

/-- A field with the number of a word is read. -/
theorem u32Field_of {field : String → Option Json} {name : String} {n : UInt32}
    (h : field name = some (.num n.toNat)) : u32Field field name = some n := by
  rw [u32Field, h]
  exact asU32_num n

/-- A record of an object in which no field stands twice. -/
theorem record_obj (names : List String) {fields : List (String × Json)}
    (h : (fields.map Prod.fst).Nodup) :
    record names (.obj fields) = some fun name => fields.lookup name :=
  if_pos (h.filter _)

/-- What a reader with a limit on nesting reads back: integers of 64 bits, fields that stand once. -/
def writable : Nat → Json → Bool
  | _, .null | _, .bool _ | _, .str _ => true
  | _, .num n => -2 ^ 63 ≤ n && n < 2 ^ 64
  | _, .float _ | 0, .arr _ | 0, .obj _ => false
  | depth + 1, .arr items => items.all (writable depth)
  | depth + 1, .obj fields =>
    decide (fields.map Prod.fst).Nodup && (fields.map Prod.snd).all (writable depth)

/-- A 32-bit integer is one of 64 bits. -/
theorem writable_u32 (depth : Nat) (n : UInt32) : writable depth (.num n.toNat) = true := by
  have hn := n.toNat_lt
  have hlt : (n.toNat : Int) < 2 ^ 64 := by
    calc (n.toNat : Int) < 2 ^ 32 := by exact_mod_cast hn
      _ < 2 ^ 64 := by decide
  cases depth <;> simp only [writable, Bool.and_eq_true, decide_eq_true_eq] <;>
    exact ⟨by omega, hlt⟩

/-- A text can be written. -/
theorem writable_str (depth : Nat) (s : String) : writable depth (.str s) = true := by
  cases depth <;> rfl

/-- An object can be written where its names differ and its values can, one level below. -/
theorem writable_obj {depth : Nat} {fields : List (String × Json)}
    (hnames : (fields.map Prod.fst).Nodup)
    (hvalues : (fields.map Prod.snd).all (writable depth) = true) :
    writable (depth + 1) (.obj fields) = true := by
  rw [writable, hvalues, decide_eq_true hnames, Bool.and_self]

end Json

/-! ## The crate -/

/-- A crate that reads and writes JSON. -/
class JsonText where
  /-- The tree of a text, or the error. -/
  parse : String → Except String Json
  /-- The text of a tree, on several lines. -/
  pretty : Json → String
  /-- The error for a tree that is not of the type that was asked for. -/
  mismatch : (expected : String) → Json → String

/-- What is written is read back. -/
class LawfulJsonText [JsonText] : Prop where
  parse_pretty : ∀ j, j.writable 127 = true → JsonText.parse (JsonText.pretty j) = .ok j

/-- Reading a value of a type that a tree is decoded into. -/
def JsonText.decode [JsonText] {α : Type} (expected : String) (ofJson : Json → Option α)
    (text : String) : Except String α :=
  match JsonText.parse text with
  | .error e => .error e
  | .ok j =>
    match ofJson j with
    | some a => .ok a
    | none => .error (JsonText.mismatch expected j)

/-- Reading what was written. -/
theorem JsonText.decode_pretty [JsonText] [LawfulJsonText] {α : Type} (expected : String)
    {ofJson : Json → Option α} {j : Json} {a : α} (hj : j.writable 127 = true)
    (ha : ofJson j = some a) : JsonText.decode expected ofJson (JsonText.pretty j) = .ok a := by
  rw [JsonText.decode, LawfulJsonText.parse_pretty j hj]
  simp only [ha]

/-! ## A writer -/

namespace Json

/-- The hexadecimal digit of a number below 16. -/
def hexDigit (n : Nat) : Char := if n < 10 then Char.ofNat (48 + n) else Char.ofNat (87 + n)

/-- The number of a hexadecimal digit. -/
def hexVal (c : Char) : Option Nat :=
  if c.isDigit then some (c.toNat - 48)
  else if 'a' ≤ c ∧ c ≤ 'f' then some (c.toNat - 87)
  else if 'A' ≤ c ∧ c ≤ 'F' then some (c.toNat - 55)
  else none

/-- A character inside a string. -/
def escapeChar (c : Char) : List Char :=
  if c = '"' ∨ c = '\\' then ['\\', c]
  else if c = '\n' then ['\\', 'n']
  else if c = '\r' then ['\\', 'r']
  else if c = '\t' then ['\\', 't']
  else if c = '\x08' then ['\\', 'b']
  else if c = '\x0c' then ['\\', 'f']
  else if c.toNat < 32 then ['\\', 'u', '0', '0', hexDigit (c.toNat / 16), hexDigit (c.toNat % 16)]
  else [c]

/-- A string with its quotes. -/
def printStr (s : String) : List Char := '"' :: (s.toList.flatMap escapeChar ++ ['"'])

/-- An integer. -/
def printInt : Int → List Char
  | .ofNat n => Nat.toDigits 10 n
  | .negSucc n => '-' :: Nat.toDigits 10 (n + 1)

/-- A new line at an indent. -/
def newline (indent : Nat) : List Char := '\n' :: List.replicate (2 * indent) ' '

mutual

/-- The text of a value that starts at an indent. -/
def print (indent : Nat) : Json → List Char
  | .null => ['n', 'u', 'l', 'l']
  | .bool true => ['t', 'r', 'u', 'e']
  | .bool false => ['f', 'a', 'l', 's', 'e']
  | .num n => printInt n
  | .float text => text.toList
  | .str s => printStr s
  | .arr [] => ['[', ']']
  | .arr (j :: js) => '[' :: (newline (indent + 1) ++ print (indent + 1) j ++ printItems indent js)
  | .obj [] => ['\x7b', '\x7d']
  | .obj ((name, j) :: fields) =>
    '\x7b' :: (newline (indent + 1) ++ printStr name ++ ':' :: ' ' :: print (indent + 1) j ++
      printFields indent fields)

/-- The items after the first, and the closing bracket. -/
def printItems (indent : Nat) : List Json → List Char
  | [] => newline indent ++ [']']
  | j :: js => ',' :: (newline (indent + 1) ++ print (indent + 1) j ++ printItems indent js)

/-- The fields after the first, and the closing brace. -/
def printFields (indent : Nat) : List (String × Json) → List Char
  | [] => newline indent ++ ['\x7d']
  | (name, j) :: fields =>
    ',' :: (newline (indent + 1) ++ printStr name ++ ':' :: ' ' :: print (indent + 1) j ++
      printFields indent fields)

end

mutual

/-- The text of a value without spaces. -/
def compact : Json → List Char
  | .null => ['n', 'u', 'l', 'l']
  | .bool true => ['t', 'r', 'u', 'e']
  | .bool false => ['f', 'a', 'l', 's', 'e']
  | .num n => printInt n
  | .float text => text.toList
  | .str s => printStr s
  | .arr [] => ['[', ']']
  | .arr (j :: js) => '[' :: (compact j ++ compactItems js)
  | .obj [] => ['\x7b', '\x7d']
  | .obj ((name, j) :: fields) =>
    '\x7b' :: (printStr name ++ ':' :: compact j ++ compactFields fields)

/-- The items after the first, and the closing bracket. -/
def compactItems : List Json → List Char
  | [] => [']']
  | j :: js => ',' :: (compact j ++ compactItems js)

/-- The fields after the first, and the closing brace. -/
def compactFields : List (String × Json) → List Char
  | [] => ['\x7d']
  | (name, j) :: fields => ',' :: (printStr name ++ ':' :: compact j ++ compactFields fields)

end

/-- A string with its quotes, its characters spelled in some way. -/
def spellStr (spell : Char → List Char) (s : String) : List Char :=
  '"' :: (s.toList.flatMap spell ++ ['"'])

mutual

/-- The text of a value without spaces, the characters of its strings spelled in some way. -/
def compactWith (spell : Char → List Char) : Json → List Char
  | .null => ['n', 'u', 'l', 'l']
  | .bool true => ['t', 'r', 'u', 'e']
  | .bool false => ['f', 'a', 'l', 's', 'e']
  | .num n => printInt n
  | .float text => text.toList
  | .str s => spellStr spell s
  | .arr [] => ['[', ']']
  | .arr (j :: js) => '[' :: (compactWith spell j ++ compactItemsWith spell js)
  | .obj [] => ['\x7b', '\x7d']
  | .obj ((name, j) :: fields) =>
    '\x7b' :: (spellStr spell name ++ ':' :: compactWith spell j ++
      compactFieldsWith spell fields)

/-- The items after the first, and the closing bracket. -/
def compactItemsWith (spell : Char → List Char) : List Json → List Char
  | [] => [']']
  | j :: js => ',' :: (compactWith spell j ++ compactItemsWith spell js)

/-- The fields after the first, and the closing brace. -/
def compactFieldsWith (spell : Char → List Char) : List (String × Json) → List Char
  | [] => ['\x7d']
  | (name, j) :: fields =>
    ',' :: (spellStr spell name ++ ':' :: compactWith spell j ++ compactFieldsWith spell fields)

end

mutual

/-- The value with other strings; the names of fields stay. -/
def mapStr (f : List Char → List Char) : Json → Json
  | .null => .null
  | .bool b => .bool b
  | .num n => .num n
  | .float text => .float text
  | .str s => .str (String.ofList (f s.toList))
  | .arr items => .arr (mapStrItems f items)
  | .obj fields => .obj (mapStrFields f fields)

/-- The items of an array. -/
def mapStrItems (f : List Char → List Char) : List Json → List Json
  | [] => []
  | j :: js => mapStr f j :: mapStrItems f js

/-- The fields of an object. -/
def mapStrFields (f : List Char → List Char) : List (String × Json) → List (String × Json)
  | [] => []
  | (name, j) :: fields => (name, mapStr f j) :: mapStrFields f fields

end

/-! ## A reader -/

/-- White space. -/
def isSpace (c : Char) : Bool := c = ' ' || c = '\n' || c = '\r' || c = '\t'

/-- The text after white space. -/
def skipSpace (text : List Char) : List Char := text.dropWhile isSpace

/-- The character of an escape, after its backslash. -/
def parseEscape : List Char → Option (Char × List Char)
  | '"' :: rest => some ('"', rest)
  | '\\' :: rest => some ('\\', rest)
  | '/' :: rest => some ('/', rest)
  | 'n' :: rest => some ('\n', rest)
  | 'r' :: rest => some ('\r', rest)
  | 't' :: rest => some ('\t', rest)
  | 'b' :: rest => some ('\x08', rest)
  | 'f' :: rest => some ('\x0c', rest)
  | 'u' :: a :: b :: c :: d :: rest => do
    let n := (((← hexVal a) * 16 + (← hexVal b)) * 16 + (← hexVal c)) * 16 + (← hexVal d)
    if n.isValidChar then some (Char.ofNat n, rest) else none
  | _ => none

/-- A string after its opening quote, and what follows its closing one. -/
def parseStr : Nat → List Char → Option (List Char × List Char)
  | 0, _ | _, [] => none
  | fuel + 1, c :: rest =>
    if c = '"' then some ([], rest)
    else if c = '\\' then do
      let (d, rest) ← parseEscape rest
      let (cs, rest) ← parseStr fuel rest
      some (d :: cs, rest)
    else if c.toNat < 32 then none
    else do
      let (cs, rest) ← parseStr fuel rest
      some (c :: cs, rest)

/-- An integer, and what follows its digits. -/
def parseInt (text : List Char) : Option (Int × List Char) :=
  match text with
  | '-' :: text =>
    let digits := text.takeWhile Char.isDigit
    if digits = [] then none
    else some (-(Nat.ofDigitChars 10 digits 0), text.dropWhile Char.isDigit)
  | text =>
    let digits := text.takeWhile Char.isDigit
    if digits = [] then none else some (Nat.ofDigitChars 10 digits 0, text.dropWhile Char.isDigit)

mutual

/-- A value, and what follows it. -/
def parseValue : Nat → List Char → Option (Json × List Char)
  | 0, _ => none
  | fuel + 1, text =>
    match skipSpace text with
    | 'n' :: 'u' :: 'l' :: 'l' :: rest => some (.null, rest)
    | 't' :: 'r' :: 'u' :: 'e' :: rest => some (.bool true, rest)
    | 'f' :: 'a' :: 'l' :: 's' :: 'e' :: rest => some (.bool false, rest)
    | '"' :: rest => (parseStr fuel rest).map fun (cs, rest) => (.str (String.ofList cs), rest)
    | '[' :: rest =>
      match skipSpace rest with
      | ']' :: rest => some (.arr [], rest)
      | rest => do
        let (j, rest) ← parseValue fuel rest
        let (js, rest) ← parseItems fuel rest
        some (.arr (j :: js), rest)
    | '\x7b' :: rest =>
      match skipSpace rest with
      | '\x7d' :: rest => some (.obj [], rest)
      | rest => do
        let (field, rest) ← parseField fuel rest
        let (fields, rest) ← parseFields fuel rest
        some (.obj (field :: fields), rest)
    | text => (parseInt text).map fun (n, rest) => (.num n, rest)

/-- The items after the first, up to the closing bracket. -/
def parseItems : Nat → List Char → Option (List Json × List Char)
  | 0, _ => none
  | fuel + 1, text =>
    match skipSpace text with
    | ']' :: rest => some ([], rest)
    | ',' :: rest => do
      let (j, rest) ← parseValue fuel rest
      let (js, rest) ← parseItems fuel rest
      some (j :: js, rest)
    | _ => none

/-- A field: its name, a colon, its value. -/
def parseField : Nat → List Char → Option ((String × Json) × List Char)
  | 0, _ => none
  | fuel + 1, text =>
    match skipSpace text with
    | '"' :: rest => do
      let (name, rest) ← parseStr fuel rest
      match skipSpace rest with
      | ':' :: rest => (parseValue fuel rest).map fun (j, rest) => ((String.ofList name, j), rest)
      | _ => none
    | _ => none

/-- The fields after the first, up to the closing brace. -/
def parseFields : Nat → List Char → Option (List (String × Json) × List Char)
  | 0, _ => none
  | fuel + 1, text =>
    match skipSpace text with
    | '\x7d' :: rest => some ([], rest)
    | ',' :: rest => do
      let (field, rest) ← parseField fuel rest
      let (fields, rest) ← parseFields fuel rest
      some (field :: fields, rest)
    | _ => none

end

/-- A string after its opening quote as it is spelled, and what follows its closing one. -/
def spelledStr : Nat → List Char → Option (List Char × List Char)
  | 0, _ | _, [] => none
  | fuel + 1, c :: rest =>
    if c = '"' then some ([], rest)
    else if c = '\\' then do
      let (_, after) ← parseEscape rest
      let (cs, after') ← spelledStr fuel after
      some (c :: rest.take (rest.length - after.length) ++ cs, after')
    else if c.toNat < 32 then none
    else do
      let (cs, rest) ← spelledStr fuel rest
      some (c :: cs, rest)

mutual

/-- A value whose strings are read by `str`, and what follows it. -/
def readValue (str : Nat → List Char → Option (List Char × List Char)) :
    Nat → List Char → Option (Json × List Char)
  | 0, _ => none
  | fuel + 1, text =>
    match skipSpace text with
    | 'n' :: 'u' :: 'l' :: 'l' :: rest => some (.null, rest)
    | 't' :: 'r' :: 'u' :: 'e' :: rest => some (.bool true, rest)
    | 'f' :: 'a' :: 'l' :: 's' :: 'e' :: rest => some (.bool false, rest)
    | '"' :: rest => (str fuel rest).map fun (cs, rest) => (.str (String.ofList cs), rest)
    | '[' :: rest =>
      match skipSpace rest with
      | ']' :: rest => some (.arr [], rest)
      | rest => do
        let (j, rest) ← readValue str fuel rest
        let (js, rest) ← readItems str fuel rest
        some (.arr (j :: js), rest)
    | '\x7b' :: rest =>
      match skipSpace rest with
      | '\x7d' :: rest => some (.obj [], rest)
      | rest => do
        let (field, rest) ← readField str fuel rest
        let (fields, rest) ← readFields str fuel rest
        some (.obj (field :: fields), rest)
    | text => (parseInt text).map fun (n, rest) => (.num n, rest)

/-- The items after the first, up to the closing bracket. -/
def readItems (str : Nat → List Char → Option (List Char × List Char)) :
    Nat → List Char → Option (List Json × List Char)
  | 0, _ => none
  | fuel + 1, text =>
    match skipSpace text with
    | ']' :: rest => some ([], rest)
    | ',' :: rest => do
      let (j, rest) ← readValue str fuel rest
      let (js, rest) ← readItems str fuel rest
      some (j :: js, rest)
    | _ => none

/-- A field: its name, a colon, its value. -/
def readField (str : Nat → List Char → Option (List Char × List Char)) :
    Nat → List Char → Option ((String × Json) × List Char)
  | 0, _ => none
  | fuel + 1, text =>
    match skipSpace text with
    | '"' :: rest => do
      let (name, rest) ← parseStr fuel rest
      match skipSpace rest with
      | ':' :: rest => (readValue str fuel rest).map fun (j, rest) =>
        ((String.ofList name, j), rest)
      | _ => none
    | _ => none

/-- The fields after the first, up to the closing brace. -/
def readFields (str : Nat → List Char → Option (List Char × List Char)) :
    Nat → List Char → Option (List (String × Json) × List Char)
  | 0, _ => none
  | fuel + 1, text =>
    match skipSpace text with
    | '\x7d' :: rest => some ([], rest)
    | ',' :: rest => do
      let (field, rest) ← readField str fuel rest
      let (fields, rest) ← readFields str fuel rest
      some (field :: fields, rest)
    | _ => none

end

/-- The reader that reads strings out is `parseValue`. -/
theorem readValue_parseStr (fuel : Nat) :
    readValue parseStr fuel = parseValue fuel ∧ readItems parseStr fuel = parseItems fuel ∧
      readField parseStr fuel = parseField fuel ∧ readFields parseStr fuel = parseFields fuel := by
  induction fuel with
  | zero => exact ⟨funext fun _ => rfl, funext fun _ => rfl, funext fun _ => rfl,
      funext fun _ => rfl⟩
  | succ fuel ih =>
    obtain ⟨hvalue, hitems, hfield, hfields⟩ := ih
    refine ⟨funext fun text => ?_, funext fun text => ?_, funext fun text => ?_,
      funext fun text => ?_⟩
    · rw [readValue, hvalue, hitems, hfield, hfields]
      rfl
    · rw [readItems, hvalue, hitems]
      rfl
    · rw [readField, hvalue]
      rfl
    · rw [readFields, hfield, hfields]
      rfl

/-! ## Round trip -/

/-- A hex digit is read as it was written. -/
theorem hexVal_hexDigit : ∀ n < 16, hexVal (hexDigit n) = some n := by decide

/-- A text inside a string that is read as one character: the character itself, or an escape. -/
def Spells (c : Char) (text : List Char) : Prop :=
  (text = [c] ∧ c ≠ '"' ∧ c ≠ '\\' ∧ ¬c.toNat < 32) ∨
    ∃ tail, text = '\\' :: tail ∧ ∀ rest, parseEscape (tail ++ rest) = some (c, rest)

/-- A character below 256 by its hexadecimal digits. -/
theorem spells_hex {c : Char} (h : c.toNat < 256) :
    Spells c ['\\', 'u', '0', '0', hexDigit (c.toNat / 16), hexDigit (c.toNat % 16)] := by
  refine .inr ⟨_, rfl, fun rest => ?_⟩
  have hzero : hexVal '0' = some 0 := rfl
  have hval : (((0 * 16 + 0) * 16 + c.toNat / 16) * 16 + c.toNat % 16) = c.toNat := by omega
  simp only [List.cons_append, List.nil_append, parseEscape, hzero,
    hexVal_hexDigit (c.toNat / 16) (by omega), hexVal_hexDigit (c.toNat % 16) (by omega),
    Option.bind_eq_bind, Option.bind_some, hval]
  have hvalid : c.toNat.isValidChar := c.valid
  rw [if_pos hvalid, c.ofNat_toNat]

/-- A character stands for itself inside a string, or its escape is read as it. -/
theorem escapeChar_spells (c : Char) : Spells c (escapeChar c) := by
  unfold escapeChar
  split_ifs with h1 h2 h3 h4 h5 h6 h7
  · refine .inr ⟨[c], rfl, fun rest => ?_⟩
    rcases h1 with rfl | rfl <;> rfl
  · exact .inr ⟨['n'], rfl, fun rest => h2 ▸ rfl⟩
  · exact .inr ⟨['r'], rfl, fun rest => h3 ▸ rfl⟩
  · exact .inr ⟨['t'], rfl, fun rest => h4 ▸ rfl⟩
  · exact .inr ⟨['b'], rfl, fun rest => h5 ▸ rfl⟩
  · exact .inr ⟨['f'], rfl, fun rest => h6 ▸ rfl⟩
  · exact spells_hex (by omega)
  · rw [not_or] at h1
    exact .inl ⟨rfl, h1.1, h1.2, h7⟩

/-- A reader of strings reads what is spelled in some way as a function of the characters. -/
def Reads (str : Nat → List Char → Option (List Char × List Char)) (spell : Char → List Char)
    (f : List Char → List Char) : Prop :=
  ∀ (rest cs : List Char) (fuel : Nat), (cs.flatMap spell).length < fuel →
    str fuel (cs.flatMap spell ++ '"' :: rest) = some (f cs, rest)

section

variable {spell : Char → List Char}

/-- A string is read back, however its characters are spelled. -/
theorem parseStr_reads (hspell : ∀ c, Spells c (spell c)) : Reads parseStr spell id := by
  intro rest cs
  induction cs with
  | nil =>
    intro fuel hfuel
    obtain ⟨fuel, rfl⟩ : ∃ n, fuel = n + 1 := ⟨fuel - 1, by omega⟩
    rw [List.flatMap_nil, List.nil_append, parseStr, if_pos rfl]
    rfl
  | cons c cs ih =>
    intro fuel hfuel
    obtain ⟨fuel, rfl⟩ : ∃ n, fuel = n + 1 := ⟨fuel - 1, by omega⟩
    rw [List.flatMap_cons, List.length_append] at hfuel
    rw [List.flatMap_cons, List.append_assoc]
    rcases hspell c with ⟨hplain, hquote, hback, hcontrol⟩ | ⟨tail, htail, hread⟩
    · rw [hplain] at hfuel ⊢
      have ih := ih fuel (by simp only [List.length_singleton] at hfuel; omega)
      rw [List.cons_append, List.nil_append, parseStr, if_neg hquote, if_neg hback,
        if_neg hcontrol, ih]
      rfl
    · rw [htail] at hfuel ⊢
      have ih := ih fuel (by simp only [List.length_cons] at hfuel; omega)
      rw [List.cons_append, parseStr, if_neg (by decide), if_pos rfl, hread]
      simp only [Option.bind_eq_bind, Option.bind_some, ih]
      rfl

/-- A string is read as it is spelled. -/
theorem spelledStr_reads (hspell : ∀ c, Spells c (spell c)) :
    Reads spelledStr spell (·.flatMap spell) := by
  intro rest cs
  induction cs with
  | nil =>
    intro fuel hfuel
    obtain ⟨fuel, rfl⟩ : ∃ n, fuel = n + 1 := ⟨fuel - 1, by omega⟩
    rw [List.flatMap_nil, List.nil_append, spelledStr, if_pos rfl]
    rfl
  | cons c cs ih =>
    intro fuel hfuel
    obtain ⟨fuel, rfl⟩ : ∃ n, fuel = n + 1 := ⟨fuel - 1, by omega⟩
    rw [List.flatMap_cons, List.length_append] at hfuel
    rw [List.flatMap_cons, List.append_assoc]
    rcases hspell c with ⟨hplain, hquote, hback, hcontrol⟩ | ⟨tail, htail, hread⟩
    · rw [hplain] at hfuel ⊢
      have ih := ih fuel (by simp only [List.length_singleton] at hfuel; omega)
      rw [List.cons_append, List.nil_append, spelledStr, if_neg hquote, if_neg hback,
        if_neg hcontrol, ih]
      simp only [List.flatMap_cons, hplain]
      rfl
    · rw [htail] at hfuel ⊢
      have ih := ih fuel (by simp only [List.length_cons] at hfuel; omega)
      rw [List.cons_append, spelledStr, if_neg (by decide), if_pos rfl, hread]
      simp only [Option.bind_eq_bind, Option.bind_some, ih, List.length_append,
        Nat.add_sub_cancel, List.take_left, List.flatMap_cons, htail]

end

/-- The text of a string is read back. -/
theorem parseStr_escape (rest cs : List Char) (fuel : Nat)
    (hfuel : (cs.flatMap escapeChar).length < fuel) :
    parseStr fuel (cs.flatMap escapeChar ++ '"' :: rest) = some (cs, rest) :=
  parseStr_reads escapeChar_spells rest cs fuel hfuel

/-- What follows a value does not go on with its number. -/
def Stops (rest : List Char) : Prop := ∀ c ∈ rest.head?, c.isDigit = false

/-- The digits of a number are cut off at what is no digit. -/
theorem takeWhile_digits {rest : List Char} (hrest : Stops rest) (n : Nat) :
    (Nat.toDigits 10 n ++ rest).takeWhile Char.isDigit = Nat.toDigits 10 n ∧
      (Nat.toDigits 10 n ++ rest).dropWhile Char.isDigit = rest := by
  have hall : ∀ c ∈ Nat.toDigits 10 n, c.isDigit = true :=
    fun c hc => Nat.isDigit_of_mem_toDigits (by decide) (by decide) hc
  rw [List.takeWhile_append_of_pos hall, List.dropWhile_append_of_pos hall]
  cases rest with
  | nil => exact ⟨List.append_nil _, rfl⟩
  | cons c rest =>
    have hc : ¬c.isDigit = true := by simp [hrest c rfl]
    rw [List.takeWhile_cons_of_neg hc, List.dropWhile_cons_of_neg hc, List.append_nil]
    exact ⟨rfl, rfl⟩

/-- The text of an integer is read back. -/
theorem parseInt_printInt {rest : List Char} (hrest : Stops rest) (n : Int) :
    parseInt (printInt n ++ rest) = some (n, rest) := by
  cases n with
  | ofNat n =>
    obtain ⟨htake, hdrop⟩ := takeWhile_digits hrest n
    have hne : Nat.toDigits 10 n ≠ [] := Nat.toDigits_ne_nil
    have hminus : ∀ text, Nat.toDigits 10 n ++ rest ≠ '-' :: text := by
      intro text heq
      cases hdigits : Nat.toDigits 10 n with
      | nil => exact hne hdigits
      | cons c cs =>
        rw [hdigits] at heq
        have hc : c.isDigit = true :=
          Nat.isDigit_of_mem_toDigits (b := 10) (n := n) (by decide) (by decide)
            (hdigits ▸ List.mem_cons_self)
        rw [(List.cons.inj heq).1] at hc
        exact absurd hc (by decide)
    unfold parseInt
    split
    · exact absurd ‹_› (hminus _)
    · simp only [printInt, htake, hdrop, hne, if_false, Nat.ofDigitChars_ten_toDigits]
      rfl
  | negSucc n =>
    obtain ⟨htake, hdrop⟩ := takeWhile_digits hrest (n + 1)
    have hne : Nat.toDigits 10 (n + 1) ≠ [] := Nat.toDigits_ne_nil
    simp only [printInt, List.cons_append, parseInt, htake, hdrop, hne, if_false,
      Nat.ofDigitChars_ten_toDigits]
    rfl

/-- No space is skipped where there is none. -/
theorem skipSpace_cons {c : Char} (hc : isSpace c = false) (rest : List Char) :
    skipSpace (c :: rest) = c :: rest := by
  rw [skipSpace, List.dropWhile_cons_of_neg (by simp [hc])]

/-- A new line is white space. -/
theorem skipSpace_newline (indent : Nat) (rest : List Char) :
    skipSpace (newline indent ++ rest) = skipSpace rest := by
  have hall : ∀ c ∈ newline indent, isSpace c = true := by
    intro c hc
    rcases List.mem_cons.1 hc with rfl | hc
    · rfl
    · rw [List.eq_of_mem_replicate hc]
      rfl
  rw [skipSpace, skipSpace, List.dropWhile_append_of_pos hall]

/-- White space before a value is skipped. -/
theorem parseValue_newline (fuel indent : Nat) (rest : List Char) :
    parseValue fuel (newline indent ++ rest) = parseValue fuel rest := by
  cases fuel with
  | zero => rfl
  | succ fuel => rw [parseValue, parseValue, skipSpace_newline]

/-- White space before a field is skipped. -/
theorem parseField_newline (fuel indent : Nat) (rest : List Char) :
    parseField fuel (newline indent ++ rest) = parseField fuel rest := by
  cases fuel with
  | zero => rfl
  | succ fuel => rw [parseField, parseField, skipSpace_newline]

/-- A digit or a sign is no space. -/
theorem isSpace_of_int {c : Char} (hc : c.isDigit = true ∨ c = '-') : isSpace c = false := by
  rcases hc with hc | rfl
  · simp only [isSpace, Bool.or_eq_false_iff, decide_eq_false_iff_not]
    refine ⟨⟨⟨?_, ?_⟩, ?_⟩, ?_⟩ <;> rintro rfl <;> exact absurd hc (by decide)
  · rfl

/-- The text of an integer starts with a digit or a sign. -/
theorem printInt_head (n : Int) : ∃ c tail, printInt n = c :: tail ∧ (c.isDigit = true ∨ c = '-') := by
  cases n with
  | negSucc n => exact ⟨'-', _, rfl, .inr rfl⟩
  | ofNat n =>
    cases hdigits : Nat.toDigits 10 n with
    | nil => exact absurd hdigits Nat.toDigits_ne_nil
    | cons c cs =>
      exact ⟨c, cs, hdigits, .inl (Nat.isDigit_of_mem_toDigits (b := 10) (n := n) (by decide)
        (by decide) (hdigits ▸ List.mem_cons_self))⟩

/-- A value that starts with a digit or a sign is an integer. -/
theorem parseValue_int (fuel : Nat) {c : Char} (hc : c.isDigit = true ∨ c = '-')
    (tail : List Char) : parseValue (fuel + 1) (c :: tail) =
      (parseInt (c :: tail)).map fun (n, rest) => (.num n, rest) := by
  have hne : ∀ d : Char, d.isDigit = false → d ≠ '-' → c ≠ d := by
    rintro d hd hminus rfl
    rcases hc with hc | hc
    · exact absurd (hc.symm.trans hd) (by decide)
    · exact hminus hc
  rw [parseValue, skipSpace_cons (isSpace_of_int hc)]
  split
  · next heq => exact absurd (List.cons.inj heq).1 (hne _ (by decide) (by decide))
  · next heq => exact absurd (List.cons.inj heq).1 (hne _ (by decide) (by decide))
  · next heq => exact absurd (List.cons.inj heq).1 (hne _ (by decide) (by decide))
  · next heq => exact absurd (List.cons.inj heq).1 (hne _ (by decide) (by decide))
  · next heq => exact absurd (List.cons.inj heq).1 (hne _ (by decide) (by decide))
  · next heq => exact absurd (List.cons.inj heq).1 (hne _ (by decide) (by decide))
  · rfl

/-- The text of a value starts with no space and no closing bracket. -/
theorem print_head {depth : Nat} {j : Json} (hj : writable depth j = true) (indent : Nat) :
    ∃ c tail, print indent j = c :: tail ∧ isSpace c = false ∧ c ≠ ']' := by
  match j, hj with
  | .null, _ => exact ⟨'n', _, by rw [print], rfl, by decide⟩
  | .bool true, _ => exact ⟨'t', _, by rw [print], rfl, by decide⟩
  | .bool false, _ => exact ⟨'f', _, by rw [print], rfl, by decide⟩
  | .str s, _ => exact ⟨'"', _, by rw [print, printStr], rfl, by decide⟩
  | .float _, hj => cases depth <;> cases hj
  | .num n, _ =>
    obtain ⟨c, tail, hprint, hc⟩ := printInt_head n
    refine ⟨c, tail, by rw [print, hprint], isSpace_of_int hc, ?_⟩
    rintro rfl
    exact absurd hc (by decide)
  | .arr [], _ => exact ⟨'[', _, by rw [print], rfl, by decide⟩
  | .arr (j :: js), _ => exact ⟨'[', _, by rw [print], rfl, by decide⟩
  | .obj [], _ => exact ⟨'\x7b', _, by rw [print], rfl, by decide⟩
  | .obj ((name, j) :: fields), _ => exact ⟨'\x7b', _, by rw [print], rfl, by decide⟩

/-- A new line ends a number. -/
theorem stops_newline (indent : Nat) (rest : List Char) : Stops (newline indent ++ rest) := by
  intro c hc
  cases hc
  rfl

/-- What is printed of further items ends a number. -/
theorem stops_printItems (indent : Nat) (js : List Json) (rest : List Char) :
    Stops (printItems indent js ++ rest) := by
  cases js with
  | nil =>
    rw [printItems, List.append_assoc]
    exact stops_newline indent _
  | cons j js =>
    rw [printItems]
    intro c hc
    cases hc
    rfl

/-- What is printed of further fields ends a number. -/
theorem stops_printFields (indent : Nat) (fields : List (String × Json)) (rest : List Char) :
    Stops (printFields indent fields ++ rest) := by
  cases fields with
  | nil =>
    rw [printFields, List.append_assoc]
    exact stops_newline indent _
  | cons field fields =>
    obtain ⟨name, j⟩ := field
    rw [printFields]
    intro c hc
    cases hc
    rfl

/-- The text of a field is read back, if that of its value is. -/
theorem parseField_print {fuel indent : Nat} (name : String) {j : Json} {rest : List Char}
    (hfuel : (printStr name).length < fuel)
    (hvalue : parseValue fuel (print indent j ++ rest) = some (j, rest)) (hspace :
      ∃ c tail, print indent j = c :: tail ∧ isSpace c = false) :
    parseField (fuel + 1) (printStr name ++ ':' :: ' ' :: print indent j ++ rest) =
      some ((name, j), rest) := by
  obtain ⟨c, tail, hprint, hc⟩ := hspace
  have hvalue' : parseValue fuel (' ' :: (print indent j ++ rest)) = some (j, rest) := by
    rw [← hvalue]
    cases fuel with
    | zero => rfl
    | succ fuel =>
      rw [parseValue, parseValue, skipSpace, List.dropWhile_cons_of_pos (by rfl)]
      rfl
  have hname : parseStr fuel (name.toList.flatMap escapeChar ++
      '"' :: ':' :: ' ' :: (print indent j ++ rest)) =
        some (name.toList, ':' :: ' ' :: (print indent j ++ rest)) :=
    parseStr_escape _ _ _ (by
      simp only [printStr, List.length_cons, List.length_append, List.length_nil] at hfuel
      omega)
  have htext : printStr name ++ ':' :: ' ' :: print indent j ++ rest = '"' ::
      (name.toList.flatMap escapeChar ++ '"' :: ':' :: ' ' :: (print indent j ++ rest)) := by
    simp only [printStr, List.cons_append, List.append_assoc, List.nil_append]
  rw [htext, parseField, skipSpace_cons (by rfl)]
  simp only [hname, Option.bind_eq_bind, Option.bind_some, skipSpace_cons (c := ':') rfl, hvalue',
    Option.map_some, String.ofList_toList]

mutual

/-- **The text of a value is read back**, with its length as fuel. -/
theorem parseValue_print (j : Json) {depth : Nat} (hj : writable depth j = true)
    (indent fuel : Nat) {rest : List Char} (hrest : Stops rest)
    (hfuel : (print indent j).length < fuel) :
    parseValue fuel (print indent j ++ rest) = some (j, rest) := by
  obtain ⟨fuel, rfl⟩ : ∃ n, fuel = n + 1 := ⟨fuel - 1, by omega⟩
  match j with
  | .null => rfl
  | .bool true => rfl
  | .bool false => rfl
  | .float _ => cases depth <;> cases hj
  | .num n =>
    obtain ⟨c, tail, hprint, hc⟩ := printInt_head n
    have hint := parseInt_printInt hrest n
    rw [print, hprint] at *
    rw [List.cons_append, parseValue_int fuel hc, ← List.cons_append, hint]
    rfl
  | .str s =>
    rw [print, printStr] at *
    simp only [List.length_cons, List.length_append, List.length_nil] at hfuel
    have hstr := parseStr_escape rest s.toList fuel (by omega)
    simp only [List.cons_append, List.append_assoc, List.nil_append]
    rw [parseValue, skipSpace_cons (by rfl)]
    simp only [hstr, Option.map_some, String.ofList_toList]
  | .arr [] => rfl
  | .arr (j :: js) =>
    obtain ⟨depth, rfl⟩ : ∃ n, depth = n + 1 := by
      cases depth with
      | zero => cases hj
      | succ n => exact ⟨n, rfl⟩
    obtain ⟨hj, hjs⟩ := Bool.and_eq_true_iff.1 hj
    rw [print] at hfuel ⊢
    simp only [List.length_cons, List.length_append] at hfuel
    obtain ⟨c, tail, hprint, hspace, hclose⟩ := print_head hj (indent + 1)
    have hfirst := parseValue_print j hj (indent + 1) fuel (stops_printItems indent js rest)
      (by omega)
    have hrestItems := parseItems_print js hjs indent fuel rest (by omega)
    rw [hprint] at hfirst ⊢
    simp only [List.cons_append, List.append_assoc] at hfirst ⊢
    rw [parseValue, skipSpace_cons (by rfl)]
    simp only [skipSpace_newline, skipSpace_cons hspace]
    split
    · next heq => exact absurd (List.cons.inj heq).1 hclose
    · simp only [hfirst, hrestItems, Option.bind_eq_bind, Option.bind_some]
  | .obj [] => rfl
  | .obj ((name, j) :: fields) =>
    obtain ⟨depth, rfl⟩ : ∃ n, depth = n + 1 := by
      cases depth with
      | zero => cases hj
      | succ n => exact ⟨n, rfl⟩
    obtain ⟨hj, hfields⟩ := Bool.and_eq_true_iff.1 (Bool.and_eq_true_iff.1 hj).2
    rw [print] at hfuel ⊢
    simp only [List.length_cons, List.length_append] at hfuel
    obtain ⟨fuel, rfl⟩ : ∃ n, fuel = n + 1 := ⟨fuel - 1, by omega⟩
    obtain ⟨c, tail, hprint, hspace, -⟩ := print_head hj (indent + 1)
    have hvalue := parseValue_print j hj (indent + 1) fuel (stops_printFields indent fields rest)
      (by omega)
    have hfield := parseField_print name (by omega) hvalue ⟨c, tail, hprint, hspace⟩
    have hrestFields := parseFields_print fields hfields indent (fuel + 1) rest (by omega)
    simp only [printStr, List.cons_append, List.append_assoc] at hfield ⊢
    rw [parseValue, skipSpace_cons (by rfl)]
    simp only [skipSpace_newline, skipSpace_cons (c := '"') rfl]
    split
    · next heq => exact absurd (List.cons.inj heq).1 (by decide)
    · simp only [hfield, hrestFields, Option.bind_eq_bind, Option.bind_some]

/-- The text of the items after the first is read back. -/
theorem parseItems_print (js : List Json) {depth : Nat}
    (hjs : js.all (writable depth) = true) (indent fuel : Nat) (rest : List Char)
    (hfuel : (printItems indent js).length < fuel) :
    parseItems fuel (printItems indent js ++ rest) = some (js, rest) := by
  obtain ⟨fuel, rfl⟩ : ∃ n, fuel = n + 1 := ⟨fuel - 1, by omega⟩
  match js with
  | [] =>
    rw [printItems, List.append_assoc, parseItems, skipSpace_newline]
    rfl
  | j :: js =>
    obtain ⟨hj, hjs⟩ := Bool.and_eq_true_iff.1 hjs
    rw [printItems] at hfuel ⊢
    simp only [List.length_cons, List.length_append] at hfuel
    have hfirst := parseValue_print j hj (indent + 1) fuel (stops_printItems indent js rest)
      (by omega)
    have hrestItems := parseItems_print js hjs indent fuel rest (by omega)
    simp only [List.cons_append, List.append_assoc] at hfirst ⊢
    rw [parseItems, skipSpace_cons (by rfl)]
    simp only [parseValue_newline, hfirst, hrestItems, Option.bind_eq_bind, Option.bind_some]

/-- The text of the fields after the first is read back. -/
theorem parseFields_print (fields : List (String × Json)) {depth : Nat}
    (hfields : (fields.map Prod.snd).all (writable depth) = true) (indent fuel : Nat)
    (rest : List Char) (hfuel : (printFields indent fields).length < fuel) :
    parseFields fuel (printFields indent fields ++ rest) = some (fields, rest) := by
  obtain ⟨fuel, rfl⟩ : ∃ n, fuel = n + 1 := ⟨fuel - 1, by omega⟩
  match fields with
  | [] =>
    rw [printFields, List.append_assoc, parseFields, skipSpace_newline]
    rfl
  | (name, j) :: fields =>
    obtain ⟨hj, hfields⟩ := Bool.and_eq_true_iff.1 hfields
    rw [printFields] at hfuel ⊢
    simp only [List.length_cons, List.length_append] at hfuel
    obtain ⟨fuel, rfl⟩ : ∃ n, fuel = n + 1 := ⟨fuel - 1, by omega⟩
    obtain ⟨c, tail, hprint, hspace, -⟩ := print_head hj (indent + 1)
    have hvalue := parseValue_print j hj (indent + 1) fuel (stops_printFields indent fields rest)
      (by omega)
    have hfield := parseField_print name (by omega) hvalue ⟨c, tail, hprint, hspace⟩
    have hrestFields := parseFields_print fields hfields indent (fuel + 1) rest (by omega)
    simp only [List.cons_append, List.append_assoc] at hfield ⊢
    rw [parseFields, skipSpace_cons (by rfl)]
    simp only [parseField_newline, hfield, hrestFields, Option.bind_eq_bind, Option.bind_some]

end

/-! ### Without spaces -/

section

variable {spell : Char → List Char}

/-- The text of a value starts with no space and no closing bracket. -/
theorem compactWith_head (spell : Char → List Char) {depth : Nat} {j : Json}
    (hj : writable depth j = true) :
    ∃ c tail, compactWith spell j = c :: tail ∧ isSpace c = false ∧ c ≠ ']' := by
  match j, hj with
  | .null, _ => exact ⟨'n', _, by rw [compactWith], rfl, by decide⟩
  | .bool true, _ => exact ⟨'t', _, by rw [compactWith], rfl, by decide⟩
  | .bool false, _ => exact ⟨'f', _, by rw [compactWith], rfl, by decide⟩
  | .str s, _ => exact ⟨'"', _, by rw [compactWith, spellStr], rfl, by decide⟩
  | .float _, hj => cases depth <;> cases hj
  | .num n, _ =>
    obtain ⟨c, tail, hprint, hc⟩ := printInt_head n
    refine ⟨c, tail, by rw [compactWith, hprint], isSpace_of_int hc, ?_⟩
    rintro rfl
    exact absurd hc (by decide)
  | .arr [], _ => exact ⟨'[', _, by rw [compactWith], rfl, by decide⟩
  | .arr (j :: js), _ => exact ⟨'[', _, by rw [compactWith], rfl, by decide⟩
  | .obj [], _ => exact ⟨'\x7b', _, by rw [compactWith], rfl, by decide⟩
  | .obj ((name, j) :: fields), _ => exact ⟨'\x7b', _, by rw [compactWith], rfl, by decide⟩

/-- In the compact form too, further items end a number. -/
theorem stops_compactItemsWith (spell : Char → List Char) (js : List Json) (rest : List Char) :
    Stops (compactItemsWith spell js ++ rest) := by
  cases js with
  | nil =>
    intro c hc
    cases hc
    rfl
  | cons j js =>
    rw [compactItemsWith]
    intro c hc
    cases hc
    rfl

/-- In the compact form too, further fields end a number. -/
theorem stops_compactFieldsWith (spell : Char → List Char) (fields : List (String × Json))
    (rest : List Char) : Stops (compactFieldsWith spell fields ++ rest) := by
  cases fields with
  | nil =>
    intro c hc
    cases hc
    rfl
  | cons field fields =>
    obtain ⟨name, j⟩ := field
    rw [compactFieldsWith]
    intro c hc
    cases hc
    rfl

variable {str : Nat → List Char → Option (List Char × List Char)} {f : List Char → List Char}

/-- An integer is read by its digits. -/
theorem readValue_int (fuel : Nat) {c : Char} (hc : c.isDigit = true ∨ c = '-')
    (tail : List Char) : readValue str (fuel + 1) (c :: tail) =
      (parseInt (c :: tail)).map fun (n, rest) => (.num n, rest) := by
  rw [readValue, skipSpace_cons (isSpace_of_int hc)]
  split
  case h_7 => rfl
  all_goals
    rename_i heq
    rw [(List.cons.inj heq).1] at hc
    exact absurd hc (by decide)

/-- The text of a field is read, if that of its value is. -/
theorem readField_compact (hspell : ∀ c, Spells c (spell c)) {fuel : Nat} (name : String)
    {j j' : Json} {rest : List Char} (hfuel : (spellStr spell name).length < fuel)
    (hvalue : readValue str fuel (compactWith spell j ++ rest) = some (j', rest)) :
    readField str (fuel + 1) (spellStr spell name ++ ':' :: compactWith spell j ++ rest) =
      some ((name, j'), rest) := by
  have hname : parseStr fuel (name.toList.flatMap spell ++
      '"' :: ':' :: (compactWith spell j ++ rest)) =
        some (name.toList, ':' :: (compactWith spell j ++ rest)) :=
    parseStr_reads hspell _ _ _ (by
      simp only [spellStr, List.length_cons, List.length_append, List.length_nil] at hfuel
      omega)
  have htext : spellStr spell name ++ ':' :: compactWith spell j ++ rest = '"' ::
      (name.toList.flatMap spell ++ '"' :: ':' :: (compactWith spell j ++ rest)) := by
    simp only [spellStr, List.cons_append, List.append_assoc, List.nil_append]
  rw [htext, readField, skipSpace_cons (by rfl)]
  simp only [hname, Option.bind_eq_bind, Option.bind_some, skipSpace_cons (c := ':') rfl, hvalue,
    Option.map_some, String.ofList_toList]

mutual

/-- **The text of a value without spaces is read**, with its length as fuel: its strings are what
their reader makes of them. -/
theorem readValue_compact (hspell : ∀ c, Spells c (spell c)) (hstr : Reads str spell f) (j : Json)
    {depth : Nat} (hj : writable depth j = true) (fuel : Nat) {rest : List Char}
    (hrest : Stops rest) (hfuel : (compactWith spell j).length < fuel) :
    readValue str fuel (compactWith spell j ++ rest) = some (mapStr f j, rest) := by
  obtain ⟨fuel, rfl⟩ : ∃ n, fuel = n + 1 := ⟨fuel - 1, by omega⟩
  match j with
  | .null => rfl
  | .bool true => rfl
  | .bool false => rfl
  | .float _ => cases depth <;> cases hj
  | .num n =>
    obtain ⟨c, tail, hprint, hc⟩ := printInt_head n
    have hint := parseInt_printInt hrest n
    rw [compactWith, hprint] at *
    rw [List.cons_append, readValue_int fuel hc, ← List.cons_append, hint]
    rfl
  | .str s =>
    rw [compactWith, spellStr] at *
    simp only [List.length_cons, List.length_append, List.length_nil] at hfuel
    have hread := hstr rest s.toList fuel (by omega)
    simp only [List.cons_append, List.append_assoc, List.nil_append]
    rw [readValue, skipSpace_cons (by rfl)]
    simp only [hread, Option.map_some]
    rfl
  | .arr [] => rfl
  | .arr (j :: js) =>
    obtain ⟨depth, rfl⟩ : ∃ n, depth = n + 1 := by
      cases depth with
      | zero => cases hj
      | succ n => exact ⟨n, rfl⟩
    obtain ⟨hj, hjs⟩ := Bool.and_eq_true_iff.1 hj
    rw [compactWith] at hfuel ⊢
    simp only [List.length_cons, List.length_append] at hfuel
    obtain ⟨c, tail, hprint, hspace, hclose⟩ := compactWith_head spell hj
    have hfirst := readValue_compact hspell hstr j hj fuel (stops_compactItemsWith spell js rest)
      (by omega)
    have hrestItems := readItems_compact hspell hstr js hjs fuel rest (by omega)
    rw [hprint] at hfirst ⊢
    simp only [List.cons_append, List.append_assoc] at hfirst ⊢
    rw [readValue, skipSpace_cons (by rfl)]
    simp only [skipSpace_cons hspace]
    split
    · next heq => exact absurd (List.cons.inj heq).1 hclose
    · simp only [hfirst, hrestItems, Option.bind_eq_bind, Option.bind_some]
      rfl
  | .obj [] => rfl
  | .obj ((name, j) :: fields) =>
    obtain ⟨depth, rfl⟩ : ∃ n, depth = n + 1 := by
      cases depth with
      | zero => cases hj
      | succ n => exact ⟨n, rfl⟩
    obtain ⟨hj, hfields⟩ := Bool.and_eq_true_iff.1 (Bool.and_eq_true_iff.1 hj).2
    rw [compactWith] at hfuel ⊢
    simp only [List.length_cons, List.length_append] at hfuel
    obtain ⟨fuel, rfl⟩ : ∃ n, fuel = n + 1 := ⟨fuel - 1, by omega⟩
    have hvalue := readValue_compact hspell hstr j hj fuel (stops_compactFieldsWith spell fields rest)
      (by omega)
    have hfield := readField_compact hspell name (by omega) hvalue
    have hrestFields := readFields_compact hspell hstr fields hfields (fuel + 1) rest (by omega)
    simp only [spellStr, List.cons_append, List.append_assoc] at hfield ⊢
    rw [readValue, skipSpace_cons (by rfl)]
    simp only [skipSpace_cons (c := '"') rfl]
    split
    · next heq => exact absurd (List.cons.inj heq).1 (by decide)
    · simp only [hfield, hrestFields, Option.bind_eq_bind, Option.bind_some]
      rfl

/-- The text of the items after the first is read. -/
theorem readItems_compact (hspell : ∀ c, Spells c (spell c)) (hstr : Reads str spell f)
    (js : List Json) {depth : Nat} (hjs : js.all (writable depth) = true) (fuel : Nat)
    (rest : List Char) (hfuel : (compactItemsWith spell js).length < fuel) :
    readItems str fuel (compactItemsWith spell js ++ rest) = some (mapStrItems f js, rest) := by
  obtain ⟨fuel, rfl⟩ : ∃ n, fuel = n + 1 := ⟨fuel - 1, by omega⟩
  match js with
  | [] => rfl
  | j :: js =>
    obtain ⟨hj, hjs⟩ := Bool.and_eq_true_iff.1 hjs
    rw [compactItemsWith] at hfuel ⊢
    simp only [List.length_cons, List.length_append] at hfuel
    have hfirst := readValue_compact hspell hstr j hj fuel (stops_compactItemsWith spell js rest)
      (by omega)
    have hrestItems := readItems_compact hspell hstr js hjs fuel rest (by omega)
    simp only [List.cons_append, List.append_assoc] at hfirst ⊢
    rw [readItems, skipSpace_cons (by rfl)]
    simp only [hfirst, hrestItems, Option.bind_eq_bind, Option.bind_some]
    rfl

/-- The text of the fields after the first is read. -/
theorem readFields_compact (hspell : ∀ c, Spells c (spell c)) (hstr : Reads str spell f)
    (fields : List (String × Json)) {depth : Nat}
    (hfields : (fields.map Prod.snd).all (writable depth) = true) (fuel : Nat)
    (rest : List Char) (hfuel : (compactFieldsWith spell fields).length < fuel) :
    readFields str fuel (compactFieldsWith spell fields ++ rest) =
      some (mapStrFields f fields, rest) := by
  obtain ⟨fuel, rfl⟩ : ∃ n, fuel = n + 1 := ⟨fuel - 1, by omega⟩
  match fields with
  | [] => rfl
  | (name, j) :: fields =>
    obtain ⟨hj, hfields⟩ := Bool.and_eq_true_iff.1 hfields
    rw [compactFieldsWith] at hfuel ⊢
    simp only [List.length_cons, List.length_append] at hfuel
    obtain ⟨fuel, rfl⟩ : ∃ n, fuel = n + 1 := ⟨fuel - 1, by omega⟩
    have hvalue := readValue_compact hspell hstr j hj fuel (stops_compactFieldsWith spell fields rest)
      (by omega)
    have hfield := readField_compact hspell name (by omega) hvalue
    have hrestFields := readFields_compact hspell hstr fields hfields (fuel + 1) rest (by omega)
    simp only [List.cons_append, List.append_assoc] at hfield ⊢
    rw [readFields, skipSpace_cons (by rfl)]
    simp only [hfield, hrestFields, Option.bind_eq_bind, Option.bind_some]
    rfl

end

end

mutual

/-- A value whose texts are left as they are is left as it is. -/
theorem mapStr_id : ∀ j : Json, mapStr id j = j
  | .null | .bool _ | .num _ | .float _ => by rw [mapStr]
  | .str s => by rw [mapStr, id_eq, String.ofList_toList]
  | .arr items => by rw [mapStr, mapStrItems_id items]
  | .obj fields => by rw [mapStr, mapStrFields_id fields]

/-- So are the items of a list. -/
theorem mapStrItems_id : ∀ js : List Json, mapStrItems id js = js
  | [] => rfl
  | j :: js => by rw [mapStrItems, mapStr_id j, mapStrItems_id js]

/-- So are the fields of an object. -/
theorem mapStrFields_id : ∀ fields : List (String × Json), mapStrFields id fields = fields
  | [] => rfl
  | (name, j) :: fields => by rw [mapStrFields, mapStr_id j, mapStrFields_id fields]

end

mutual

/-- Without spaces the characters are spelled as with them. -/
theorem compact_eq : ∀ j : Json, compact j = compactWith escapeChar j
  | .null | .bool true | .bool false | .num _ | .float _ | .str _ => by
    rw [compact, compactWith]
    try rfl
  | .arr [] | .obj [] => by rw [compact, compactWith]
  | .arr (j :: js) => by rw [compact, compactWith, compact_eq j, compactItems_eq js]
  | .obj ((name, j) :: fields) => by
    rw [compact, compactWith, compact_eq j, compactFields_eq fields]
    rfl

/-- The compact form of items spells texts with their escapes. -/
theorem compactItems_eq : ∀ js : List Json, compactItems js = compactItemsWith escapeChar js
  | [] => rfl
  | j :: js => by rw [compactItems, compactItemsWith, compact_eq j, compactItems_eq js]

/-- So does the compact form of fields. -/
theorem compactFields_eq :
    ∀ fields : List (String × Json), compactFields fields = compactFieldsWith escapeChar fields
  | [] => rfl
  | (name, j) :: fields => by
    rw [compactFields, compactFieldsWith, compact_eq j, compactFields_eq fields]
    rfl

end

end Json

/-- A text without spaces is read. -/
class LawfulJsonReader [JsonText] : Prop where
  parse_compact : ∀ j, j.writable 127 = true →
    JsonText.parse (String.ofList j.compact) = .ok j

/-- A crate that also tells how the strings of a text are spelled: one that is spelled as it reads
can be borrowed from the text. -/
class JsonSpelling where
  /-- The tree of a text, with its strings as they stand between their quotes. -/
  spelled : String → Except String Json

/-- A text without spaces is read, however the characters of its strings are spelled. -/
class LawfulJsonSpelling [JsonText] [JsonSpelling] : Prop where
  parse_compactWith : ∀ spell : Char → List Char, (∀ c, Json.Spells c (spell c)) →
    ∀ j : Json, j.writable 127 = true →
      JsonText.parse (String.ofList (j.compactWith spell)) = .ok j
  spelled_compactWith : ∀ spell : Char → List Char, (∀ c, Json.Spells c (spell c)) →
    ∀ j : Json, j.writable 127 = true →
      JsonSpelling.spelled (String.ofList (j.compactWith spell)) = .ok (j.mapStr (·.flatMap spell))

/-- An object is written between its braces, with nothing around them. -/
class LawfulJsonLayout [JsonText] : Prop where
  pretty_obj : ∀ fields, ∃ inner,
    (JsonText.pretty (.obj fields)).toList = '\x7b' :: (inner ++ ['\x7d'])

/-- A stand-in for the crate. -/
@[reducible] def plainJson : JsonText where
  parse text :=
    match Json.parseValue (text.toList.length + 1) text.toList with
    | some (j, rest) =>
      if Json.skipSpace rest = [] then .ok j else .error "trailing characters"
    | none => .error "expected value"
  pretty j := String.ofList (Json.print 0 j)
  mismatch expected _ := "invalid type, expected " ++ expected

/-- The same reader, with the strings as they are spelled. -/
@[reducible] def plainSpelling : JsonSpelling where
  spelled text :=
    match Json.readValue Json.spelledStr (text.toList.length + 1) text.toList with
    | some (j, rest) =>
      if Json.skipSpace rest = [] then .ok j else .error "trailing characters"
    | none => .error "expected value"

/-- A text that is read to its end is one value. -/
theorem Json.readText_eq {read : Nat → List Char → Option (Json × List Char)} {text : List Char}
    {j : Json} (h : read (text.length + 1) (text ++ []) = some (j, [])) :
    (match read ((String.ofList text).toList.length + 1) (String.ofList text).toList with
    | some (j, rest) =>
      if Json.skipSpace rest = [] then Except.ok j else .error "trailing characters"
    | none => .error "expected value") = .ok j := by
  rw [List.append_nil] at h
  rw [String.toList_ofList, h]
  rfl

/-- What the stand-in writes it reads back. -/
theorem plainJson_lawful : @LawfulJsonText plainJson := by
  refine @LawfulJsonText.mk plainJson fun j hj => Json.readText_eq ?_
  exact Json.parseValue_print j hj 0 _ (fun c hc => by cases hc) (Nat.lt_succ_self _)

/-- The stand-in reads strings however they are spelled. -/
theorem plainJson_spelling : @LawfulJsonSpelling plainJson plainSpelling := by
  have hstops : Json.Stops [] := fun c hc => by cases hc
  refine @LawfulJsonSpelling.mk plainJson plainSpelling
    (fun spell hspell j hj => Json.readText_eq ?_) fun spell hspell j hj => Json.readText_eq ?_
  · have hread := Json.readValue_compact hspell (Json.parseStr_reads hspell) j hj _ hstops
      (Nat.lt_succ_self _)
    rwa [Json.mapStr_id, (Json.readValue_parseStr _).1] at hread
  · exact Json.readValue_compact hspell (Json.spelledStr_reads hspell) j hj _ hstops
      (Nat.lt_succ_self _)

/-- The stand-in reads what stands without spaces. -/
theorem plainJson_reader : @LawfulJsonReader plainJson := by
  refine @LawfulJsonReader.mk plainJson fun j hj => ?_
  rw [Json.compact_eq]
  exact @LawfulJsonSpelling.parse_compactWith plainJson plainSpelling plainJson_spelling _
    Json.escapeChar_spells j hj

/-- The fields after the first end with the brace. -/
theorem Json.printFields_eq (indent : Nat) (fields : List (String × Json)) :
    ∃ inner, Json.printFields indent fields = inner ++ ['\x7d'] := by
  induction fields with
  | nil => exact ⟨Json.newline indent, by rw [Json.printFields]⟩
  | cons field fields ih =>
    obtain ⟨inner, hinner⟩ := ih
    rw [Json.printFields, hinner, ← List.append_assoc, ← List.cons_append]
    exact ⟨_, rfl⟩

/-- The stand-in writes an object between its braces. -/
theorem plainJson_layout : @LawfulJsonLayout plainJson := by
  refine @LawfulJsonLayout.mk plainJson fun fields => ?_
  change ∃ inner, (String.ofList (Json.print 0 (.obj fields))).toList = _
  rw [String.toList_ofList]
  cases fields with
  | nil => exact ⟨[], by rw [Json.print, List.nil_append]⟩
  | cons field fields =>
    obtain ⟨inner, hinner⟩ := Json.printFields_eq 0 fields
    rw [Json.print, hinner, ← List.append_assoc]
    exact ⟨_, rfl⟩
