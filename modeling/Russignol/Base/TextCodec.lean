import Mathlib.Data.List.Basic
import Mathlib.Tactic.Common
import Russignol.Base.Json

/-!
# Lines and hexadecimal text

Texts that are read line by line, in two parts around a separator, word by word, or as the
hexadecimal digits of bytes. What is written a line at a time, around a separator that its first
part does not start, in words between single separators, or in lower case digits is read back.
-/

namespace TextCodec

/-! ## Lines -/

/-- A line without the carriage return at its end. -/
def stripCr (line : List Char) : List Char :=
  if line.getLast? = some '\r' then line.dropLast else line

/-- The lines of a text whose first one has begun. -/
def linesFrom (line : List Char) : List Char → List (List Char)
  | [] => if line = [] then [] else [line]
  | c :: text =>
    if c = '\n' then stripCr line :: linesFrom [] text else linesFrom (line ++ [c]) text

/-- The lines of a text: each ends at a newline, and the last one also at the end. -/
def lines (text : List Char) : List (List Char) := linesFrom [] text

/-- A text that can be a line. -/
def IsLine (line : List Char) : Prop := '\n' ∉ line ∧ line.getLast? ≠ some '\r'

/-- A line is read up to its newline. -/
theorem linesFrom_append {line : List Char} (h : '\n' ∉ line) (text : List Char) :
    ∀ start, linesFrom start (line ++ '\n' :: text) = stripCr (start ++ line) :: lines text := by
  induction line with
  | nil =>
    intro start
    rw [List.nil_append, linesFrom, if_pos rfl, List.append_nil]
    rfl
  | cons c line ih =>
    intro start
    have hc : c ≠ '\n' := fun hc => h (hc ▸ List.mem_cons_self)
    rw [List.cons_append, linesFrom, if_neg hc, ih fun hmem => h (List.mem_cons_of_mem _ hmem),
      List.append_assoc, List.singleton_append]

/-- **Lines that are written are read back.** -/
theorem lines_flatMap : ∀ {ls : List (List Char)}, (∀ l ∈ ls, IsLine l) →
    lines (ls.flatMap (· ++ ['\n'])) = ls
  | [], _ => rfl
  | l :: ls, h => by
    obtain ⟨hnewline, hreturn⟩ := h l List.mem_cons_self
    rw [List.flatMap_cons, List.append_assoc, List.singleton_append, lines,
      linesFrom_append hnewline, List.nil_append, stripCr, if_neg hreturn,
      lines_flatMap fun l hl => h l (List.mem_cons_of_mem _ hl)]

/-! ## Two parts -/

/-- A text in two parts around the first occurrence of a separator. -/
def splitOnce (sep : List Char) : List Char → Option (List Char × List Char)
  | [] => if sep = [] then some ([], []) else none
  | c :: text =>
    if sep.isPrefixOf (c :: text) then some ([], (c :: text).drop sep.length)
    else (splitOnce sep text).map fun (a, b) => (c :: a, b)

/-- Two parts around a separator whose first character is not in the first part are told apart. -/
theorem splitOnce_append {c : Char} (sep b : List Char) : ∀ {a : List Char}, c ∉ a →
    splitOnce (c :: sep) (a ++ (c :: sep) ++ b) = some (a, b)
  | [], _ => by
    have hprefix : (c :: sep).isPrefixOf (c :: (sep ++ b)) = true :=
      List.isPrefixOf_iff_prefix.2 ⟨b, rfl⟩
    rw [List.nil_append, List.cons_append, splitOnce, if_pos hprefix]
    simp
  | d :: a, h => by
    have hd : c ≠ d := fun hd => h (hd ▸ List.mem_cons_self)
    have hprefix : (c :: sep).isPrefixOf (d :: (a ++ (c :: sep) ++ b)) = false := by
      rw [List.isPrefixOf, beq_false_of_ne hd, Bool.false_and]
    rw [List.cons_append, List.cons_append, splitOnce, hprefix, if_neg Bool.false_ne_true,
      splitOnce_append sep b fun hmem => h (List.mem_cons_of_mem _ hmem)]
    rfl

/-! ## Words -/

/-- The words of a text between separators, of which several may follow each other. -/
def words (sep : Char → Bool) (text : List Char) : List (List Char) :=
  (text.splitOnP sep).filter (· ≠ [])

/-- Words that stand between single separators are told apart. -/
theorem words_intercalate {sep : Char → Bool} {c : Char} (hc : sep c = true) :
    ∀ {ws : List (List Char)}, (∀ w ∈ ws, w ≠ [] ∧ ∀ d ∈ w, sep d = false) →
      words sep ([c].intercalate ws) = ws
  | [], _ => rfl
  | [w], h => by
    obtain ⟨hne, hplain⟩ := h w List.mem_cons_self
    rw [List.intercalate_singleton, words, List.splitOnP_eq_singleton hplain]
    exact List.filter_cons_of_pos (decide_eq_true hne)
  | w :: w' :: ws, h => by
    obtain ⟨hne, hplain⟩ := h w List.mem_cons_self
    have ih : words sep ([c].intercalate (w' :: ws)) = w' :: ws :=
      words_intercalate hc fun v hv => h v (List.mem_cons_of_mem _ hv)
    rw [List.intercalate_cons_of_ne_nil (List.cons_ne_nil _ _), List.append_assoc,
      List.singleton_append, words, List.splitOnP_append_cons_of_forall_mem hplain c hc]
    exact (List.filter_cons_of_pos (p := (· ≠ [])) (decide_eq_true hne)).trans
      (congrArg (w :: ·) ih)

/-- A character of words and separators is one of them. -/
theorem mem_intercalate {c d : Char} : ∀ {ws : List (List Char)}, d ∈ [c].intercalate ws →
    d = c ∨ ∃ w ∈ ws, d ∈ w
  | [], h => absurd h List.not_mem_nil
  | [w], h => by
    rw [List.intercalate_singleton] at h
    exact .inr ⟨w, List.mem_cons_self, h⟩
  | w :: w' :: ws, h => by
    rw [List.intercalate_cons_of_ne_nil (List.cons_ne_nil _ _), List.mem_append, List.mem_append,
      List.mem_singleton] at h
    rcases h with (h | h) | h
    · exact .inr ⟨w, List.mem_cons_self, h⟩
    · exact .inl h
    · rcases mem_intercalate h with h | ⟨v, hv, h⟩
      · exact .inl h
      · exact .inr ⟨v, List.mem_cons_of_mem _ hv, h⟩

/-! ## Hexadecimal -/

/-- The digits of bytes, in lower case. -/
def hexEncode (bytes : List UInt8) : List Char :=
  bytes.flatMap fun b => [Json.hexDigit (b.toNat / 16), Json.hexDigit (b.toNat % 16)]

/-- The bytes of an even number of digits. -/
def hexDecode : List Char → Option (List UInt8)
  | [] => some []
  | [_] => none
  | high :: low :: text =>
    match Json.hexVal high, Json.hexVal low, hexDecode text with
    | some h, some l, some bytes => some (UInt8.ofNat (16 * h + l) :: bytes)
    | _, _, _ => none

/-- **Digits are read back.** -/
theorem hexDecode_hexEncode (bytes : List UInt8) : hexDecode (hexEncode bytes) = some bytes := by
  induction bytes with
  | nil => rfl
  | cons b bytes ih =>
    have hb := b.toNat_lt
    have hhigh := Json.hexVal_hexDigit (b.toNat / 16) (by omega)
    have hlow := Json.hexVal_hexDigit (b.toNat % 16) (by omega)
    change hexDecode (Json.hexDigit _ :: Json.hexDigit _ :: hexEncode bytes) = _
    rw [hexDecode, hhigh, hlow, ih]
    have hsum : 16 * (b.toNat / 16) + b.toNat % 16 = b.toNat := by omega
    dsimp only
    rw [hsum, UInt8.ofNat_toNat]

/-- A byte is two digits. -/
theorem length_hexEncode (bytes : List UInt8) : (hexEncode bytes).length = 2 * bytes.length := by
  induction bytes with
  | nil => rfl
  | cons b bytes ih =>
    change (hexEncode bytes).length + 1 + 1 = _
    rw [ih, List.length_cons]
    omega

/-- The characters of a hexadecimal text. -/
def IsHex (c : Char) : Prop := ∃ n < 16, c = Json.hexDigit n

/-- The digits of bytes are such characters. -/
theorem isHex_of_mem {bytes : List UInt8} {c : Char} (h : c ∈ hexEncode bytes) : IsHex c := by
  obtain ⟨b, -, hc⟩ := List.mem_flatMap.1 h
  have hb := b.toNat_lt
  rcases List.mem_pair.1 hc with rfl | rfl
  · exact ⟨_, by omega, rfl⟩
  · exact ⟨_, by omega, rfl⟩

/-- A property of the digits is one of every character of a hexadecimal text. -/
theorem forall_hexEncode {p : Char → Bool} (h : (List.range 16).all (p ∘ Json.hexDigit) = true)
    (bytes : List UInt8) : ∀ c ∈ hexEncode bytes, p c = true := by
  intro c hc
  obtain ⟨n, hn, rfl⟩ := isHex_of_mem hc
  exact List.all_eq_true.1 h n (List.mem_range.2 hn)

end TextCodec
