import Mathlib.Logic.Function.Basic
import Russignol.Base.Json
import Russignol.Host.Wallet

/-!
# Renaming an alias in the files

`rename_alias_locally` (`host-utility/src/keys.rs`) as it edits the three files of the wallet: each
is absent, or holds a text that is no JSON array, or holds any array. A file is read, edited and
written before the next one is looked at, and whether the primary file had the alias is asked at
the end. `rename_whole_iff` says when the wallet ends as a whole, renamed or as it was;
`renameAliasLocally_refines` that on a wallet of distinct names this is `Wallet.renameAlias`.
-/

namespace Russignol.Host

/-! ## Entries -/

/-- `entry.get("name").and_then(|n| n.as_str())`. -/
def entryName (entry : Json) : Option String := (entry.get "name").bind Json.asStr

/-- `entry["name"] = …`, of an object that has the field. -/
def setEntryName (name : String) : Json → Json
  | .obj fields => .obj (fields.map fun field => if field.1 = "name" then ("name", .str name)
      else field)
  | entry => entry

/-- What an entry says of its alias. -/
def entryValue : Json → List (String × Json)
  | .obj fields => fields.filter (·.1 ≠ "name")
  | _ => []

/-- An entry of this name. -/
def isNamed (keyAlias : String) (entry : Json) : Bool := entryName entry = some keyAlias

/-- An entry has the alias where its name is it. -/
theorem isNamed_iff {keyAlias : String} {entry : Json} :
    isNamed keyAlias entry = true ↔ entryName entry = some keyAlias :=
  decide_eq_true_iff

/-- A renamed entry has its new name. -/
theorem entryName_setEntryName {entry : Json} {oldAlias : String} (newAlias : String)
    (h : entryName entry = some oldAlias) :
    entryName (setEntryName newAlias entry) = some newAlias := by
  cases entry with
  | obj fields =>
    have hlookup : ∀ fields : List (String × Json), (fields.lookup "name").isSome = true →
        (fields.map fun field => if field.1 = "name" then ("name", Json.str newAlias)
          else field).lookup "name" = some (.str newAlias) := by
      intro fields
      induction fields with
      | nil => exact nofun
      | cons field fields ih =>
        intro hsome
        rw [List.map_cons]
        by_cases hfield : field.1 = "name"
        · rw [if_pos hfield]
          rfl
        · have hbeq : ("name" == field.1) = false := beq_false_of_ne (Ne.symm hfield)
          rw [List.lookup_cons, hbeq] at hsome
          rw [if_neg hfield, List.lookup_cons, hbeq]
          exact ih hsome
    obtain ⟨value, hvalue, -⟩ := Option.bind_eq_some_iff.1 h
    have hvalue : fields.reverse.lookup "name" = some value := hvalue
    rw [setEntryName, entryName, Json.get, ← List.map_reverse, hlookup _ (by rw [hvalue]; rfl)]
    rfl
  | _ => cases h

/-- A renamed entry has the value it had. -/
theorem entryValue_setEntryName (name : String) (entry : Json) :
    entryValue (setEntryName name entry) = entryValue entry := by
  cases entry with
  | obj fields =>
    rw [setEntryName, entryValue, entryValue]
    induction fields with
    | nil => rfl
    | cons field fields ih =>
      rw [List.map_cons]
      by_cases hfield : field.1 = "name"
      · rw [if_pos hfield, List.filter_cons_of_neg (by simp), ih,
          List.filter_cons_of_neg (by simpa using hfield)]
      · rw [if_neg hfield, List.filter_cons_of_pos (by simpa using hfield), ih,
          List.filter_cons_of_pos (by simpa using hfield)]
  | _ => rfl

/-- The first entry of a name, renamed; `none` where there is none. -/
def renameEntry (oldAlias newAlias : String) : List Json → Option (List Json)
  | [] => none
  | entry :: entries =>
    if entryName entry = some oldAlias then some (setEntryName newAlias entry :: entries)
    else (renameEntry oldAlias newAlias entries).map (entry :: ·)

/-- The edit of one file: the entries of the new name are dropped, then the old one takes it. -/
def editEntries (oldAlias newAlias : String) (entries : List Json) : Option (List Json) :=
  renameEntry oldAlias newAlias (entries.filter fun entry => !isNamed newAlias entry)

/-- What an alias denotes in a file: what its first entry says. -/
def denotes (entries : List Json) (keyAlias : String) : Option (List (String × Json)) :=
  (entries.find? (isNamed keyAlias)).map entryValue

/-- A file of the wallet after an alias was renamed. -/
structure Renamed (oldAlias newAlias : String) (before after : List Json) : Prop where
  moved : denotes after newAlias = denotes before oldAlias
  gone : ∀ entry ∈ after, isNamed oldAlias entry = false
  others : (after.filter fun entry => !isNamed oldAlias entry && !isNamed newAlias entry) =
    before.filter fun entry => !isNamed oldAlias entry && !isNamed newAlias entry

/-- A file that a rename leaves renamed: it holds the alias once, or neither of the two. -/
def Orderly (oldAlias newAlias : String) (entries : List Json) : Prop :=
  entries.countP (isNamed oldAlias) ≤ 1 ∧
    (entries.countP (isNamed oldAlias) = 0 → entries.countP (isNamed newAlias) = 0)

section

variable {oldAlias newAlias : String}

/-- A list in which an entry is renamed is cut at the first entry of the name. -/
theorem renameEntry_eq_some : ∀ {entries entries' : List Json},
    renameEntry oldAlias newAlias entries = some entries' →
    ∃ before entry after, entries = before ++ entry :: after ∧
      (∀ e ∈ before, isNamed oldAlias e = false) ∧ entryName entry = some oldAlias ∧
      entries' = before ++ setEntryName newAlias entry :: after
  | [], _, h => by cases h
  | e :: entries, entries', h => by
    rw [renameEntry] at h
    split at h
    · rename_i hname
      cases h
      exact ⟨[], e, entries, rfl, nofun, hname, rfl⟩
    · rename_i hname
      obtain ⟨rest, hrest, rfl⟩ := Option.map_eq_some_iff.1 h
      obtain ⟨before, entry, after, rfl, hbefore, hentry, rfl⟩ := renameEntry_eq_some hrest
      refine ⟨e :: before, entry, after, rfl, ?_, hentry, rfl⟩
      intro x hx
      rcases List.mem_cons.1 hx with rfl | hx
      · exact decide_eq_false hname
      · exact hbefore x hx

/-- Where nothing is renamed no entry has the name. -/
theorem renameEntry_eq_none {entries : List Json} :
    renameEntry oldAlias newAlias entries = none ↔ entries.countP (isNamed oldAlias) = 0 := by
  induction entries with
  | nil => simp [renameEntry]
  | cons entry entries ih =>
    rw [renameEntry]
    by_cases hname : entryName entry = some oldAlias
    · rw [if_pos hname, List.countP_cons_of_pos (isNamed_iff.2 hname)]
      constructor
      · intro h
        cases h
      · intro h
        cases h
    · rw [if_neg hname, Option.map_eq_none_iff,
        List.countP_cons_of_neg fun hnamed => hname (isNamed_iff.1 hnamed)]
      exact ih

/-- An entry has one name. -/
theorem isNamed_of_isNamed (hne : oldAlias ≠ newAlias) {entry : Json}
    (h : isNamed oldAlias entry = true) : isNamed newAlias entry = false := by
  refine decide_eq_false fun hnew => hne ?_
  exact Option.some.inj ((isNamed_iff.1 h).symm.trans hnew)

/-- The entries of a name that is not dropped are all kept. -/
theorem countP_filter_named (hne : oldAlias ≠ newAlias) (entries : List Json) :
    (entries.filter fun entry => !isNamed newAlias entry).countP (isNamed oldAlias) =
      entries.countP (isNamed oldAlias) := by
  rw [List.countP_filter]
  refine List.countP_congr fun entry _ => ?_
  rw [Bool.and_eq_true]
  refine ⟨fun h => h.1, fun h => ⟨h, ?_⟩⟩
  rw [isNamed_of_isNamed hne h]
  rfl

/-- Nothing is edited where no entry has the old alias. -/
theorem editEntries_eq_none (hne : oldAlias ≠ newAlias) {entries : List Json} :
    editEntries oldAlias newAlias entries = none ↔ entries.countP (isNamed oldAlias) = 0 := by
  rw [editEntries, renameEntry_eq_none, countP_filter_named hne]

/-- An edit removes an entry of the old name. -/
theorem countP_editEntries (hne : oldAlias ≠ newAlias) {entries entries' : List Json}
    (h : editEntries oldAlias newAlias entries = some entries') :
    entries.countP (isNamed oldAlias) = entries'.countP (isNamed oldAlias) + 1 := by
  obtain ⟨before, entry, after, hsplit, -, hentry, rfl⟩ := renameEntry_eq_some h
  have hnew := isNamed_iff.2 (entryName_setEntryName newAlias hentry)
  have hset : ¬ isNamed oldAlias (setEntryName newAlias entry) = true := fun h =>
    Bool.false_ne_true ((isNamed_of_isNamed hne h).symm.trans hnew)
  rw [← countP_filter_named hne, hsplit, List.countP_append, List.countP_append,
    List.countP_cons_of_pos (isNamed_iff.2 hentry), List.countP_cons_of_neg hset]
  omega

/-- A file that was edited is renamed if and only if it held the alias once. -/
theorem renamed_edit_iff (hne : oldAlias ≠ newAlias) {entries entries' : List Json}
    (h : editEntries oldAlias newAlias entries = some entries') :
    Renamed oldAlias newAlias entries entries' ↔ entries.countP (isNamed oldAlias) ≤ 1 := by
  have hcount := countP_editEntries hne h
  obtain ⟨before, entry, after, hsplit, hbefore, hentry, rfl⟩ := renameEntry_eq_some h
  have hold := isNamed_iff.2 hentry
  have hnew := isNamed_iff.2 (entryName_setEntryName newAlias hentry)
  constructor
  · intro hrenamed
    have hnone : (before ++ setEntryName newAlias entry :: after).countP (isNamed oldAlias) = 0 :=
      List.countP_eq_zero.2 fun e he hnamed =>
        Bool.false_ne_true ((hrenamed.gone e he).symm.trans hnamed)
    omega
  · intro hle
    refine ⟨?_, ?_, ?_⟩
    · have hdropped : ∀ e ∈ before, ¬ isNamed newAlias e = true := by
        intro e he
        have hmem : e ∈ entries.filter fun entry => !isNamed newAlias entry := by
          rw [hsplit]
          exact List.mem_append_left _ he
        simpa using (List.mem_filter.1 hmem).2
      have hfound : entries.find? (isNamed oldAlias) = some entry := by
        have hfilter : (entries.filter fun entry => !isNamed newAlias entry).find?
            (isNamed oldAlias) = entries.find? (isNamed oldAlias) := by
          rw [List.find?_filter]
          congr 1
          funext e
          cases he : isNamed oldAlias e with
          | false => exact decide_eq_false fun h => Bool.false_ne_true h.2
          | true =>
            rw [isNamed_of_isNamed hne he]
            rfl
        rw [← hfilter, hsplit, List.find?_append,
          List.find?_eq_none.2 fun e he => by rw [hbefore e he]; exact Bool.false_ne_true,
          Option.none_or, List.find?_cons_of_pos hold]
      rw [denotes, denotes, hfound, List.find?_append, List.find?_eq_none.2 hdropped,
        Option.none_or, List.find?_cons_of_pos hnew, Option.map_some, Option.map_some,
        entryValue_setEntryName]
    · have hnone :
          (before ++ setEntryName newAlias entry :: after).countP (isNamed oldAlias) = 0 := by
        omega
      intro e he
      exact Bool.eq_false_iff.2 (List.countP_eq_zero.1 hnone e he)
    · have hkept : (entries.filter fun e => !isNamed oldAlias e && !isNamed newAlias e) =
          (before ++ entry :: after).filter fun e =>
            !isNamed oldAlias e && !isNamed newAlias e := by
        rw [← hsplit, List.filter_filter]
        refine List.filter_congr fun e _ => ?_
        cases isNamed newAlias e <;> cases isNamed oldAlias e <;> rfl
      rw [hkept, List.filter_append, List.filter_append,
        List.filter_cons_of_neg (by rw [hnew]; simp),
        List.filter_cons_of_neg (by rw [hold]; simp)]

/-- A file that was not edited is renamed if and only if it held no entry of the new name. -/
theorem renamed_same_iff {entries : List Json} (h : entries.countP (isNamed oldAlias) = 0) :
    Renamed oldAlias newAlias entries entries ↔ entries.countP (isNamed newAlias) = 0 := by
  have hold := List.countP_eq_zero.1 h
  have hnone : denotes entries oldAlias = none := by
    rw [denotes, List.find?_eq_none.2 hold]
    rfl
  constructor
  · intro hrenamed
    have hmoved := hrenamed.moved
    rw [hnone, denotes, Option.map_eq_none_iff] at hmoved
    exact List.countP_eq_zero.2 (List.find?_eq_none.1 hmoved)
  · intro hnew
    refine ⟨?_, fun e he => Bool.eq_false_iff.2 (hold e he), rfl⟩
    rw [hnone, denotes, List.find?_eq_none.2 (List.countP_eq_zero.1 hnew)]
    rfl

end

/-! ## The files -/

/-- `wallet_files`; the first is the primary one. -/
inductive WalletFileName
  | publicKeyHashs
  | publicKeys
  | secretKeys
  deriving DecidableEq, Repr

namespace WalletFileName

/-- The files in the order they are edited. -/
def all : List WalletFileName := [publicKeyHashs, publicKeys, secretKeys]

/-- The name in the directory of `octez-client`. -/
def text : WalletFileName → String
  | publicKeyHashs => "public_key_hashs"
  | publicKeys => "public_keys"
  | secretKeys => "secret_keys"

/-- The list has every file of the wallet. -/
theorem mem_all (file : WalletFileName) : file ∈ all := by
  cases file <;> decide

/-- The list has each file once. -/
theorem nodup_all : all.Nodup := by decide

end WalletFileName

/-- What `serde_json` makes of a file: the error, or the values of its array. -/
abbrev WalletText : Type := Except String (List Json)

/-- The directory; a file that does not exist is `none`. -/
abbrev WalletDir : Type := WalletFileName → Option WalletText

/-- How the file system fails a rename. -/
structure FileFaults where
  /-- The error of `read_to_string`. -/
  read : WalletFileName → Option String
  /-- The error of `fs::write`, and what it leaves in the file. -/
  write : WalletFileName → Option (String × WalletText)

/-- The file holds an entry of the name. -/
def holds (keyAlias : String) : Option WalletText → Bool
  | some (.ok entries) => 0 < entries.countP (isNamed keyAlias)
  | _ => false

/-- The rename stops at the file: it cannot be read or parsed, or it holds the alias and cannot be
written. -/
def stopsAt (faults : FileFaults) (oldAlias : String) (file : WalletFileName) :
    Option WalletText → Bool
  | none => false
  | some (.error _) => true
  | some (.ok entries) => (faults.read file).isSome ||
      holds oldAlias (some (.ok entries)) && (faults.write file).isSome

/-- What is in a file at which the rename stops: what a write that failed left. -/
def leftAt (faults : FileFaults) (oldAlias : String) (file : WalletFileName)
    (content : Option WalletText) : Option WalletText :=
  if (faults.read file).isNone && holds oldAlias content then
    match faults.write file with
    | some (_, left) => some left
    | none => content
  else content

namespace WalletDir

/-- One file: whether it held the alias, and what is in it now. -/
def renameInFile (faults : FileFaults) (oldAlias newAlias : String) (file : WalletFileName)
    (content : Option WalletText) : Except String Bool × Option WalletText :=
  match content with
  | none => (.ok false, content)
  | some text =>
    match faults.read file with
    | some e => (.error ("Failed to read " ++ file.text ++ ": " ++ e), content)
    | none =>
      match text with
      | .error e => (.error ("Failed to parse " ++ file.text ++ ": " ++ e), content)
      | .ok entries =>
        match editEntries oldAlias newAlias entries with
        | none => (.ok false, content)
        | some entries =>
          match faults.write file with
          | some (e, left) => (.error ("Failed to write " ++ file.text ++ ": " ++ e), some left)
          | none => (.ok true, some (.ok entries))

/-- The loop over the files: whether the primary one held the alias, and the directory. -/
def renameFiles (faults : FileFaults) (oldAlias newAlias : String) :
    List WalletFileName → Bool → WalletDir → Except String Bool × WalletDir
  | [], foundInPrimary, dir => (.ok foundInPrimary, dir)
  | file :: files, foundInPrimary, dir =>
    match renameInFile faults oldAlias newAlias file (dir file) with
    | (.error e, content) => (.error e, Function.update dir file content)
    | (.ok found, content) =>
      renameFiles faults oldAlias newAlias files
        (if file = .publicKeyHashs then found else foundInPrimary)
        (Function.update dir file content)

/-- `rename_alias_locally`. -/
def renameAliasLocally (faults : FileFaults) (oldAlias newAlias : String) (dir : WalletDir) :
    Except String Unit × WalletDir :=
  match renameFiles faults oldAlias newAlias WalletFileName.all false dir with
  | (.error e, dir) => (.error e, dir)
  | (.ok true, dir) => (.ok (), dir)
  | (.ok false, dir) => (.error ("Alias '" ++ oldAlias ++ "' not found in wallet. Cannot rename " ++
      "to '" ++ newAlias ++ "'."), dir)

end WalletDir

/-- A file before and after a rename of the wallet. -/
def FileRenamed (oldAlias newAlias : String) : Option WalletText → Option WalletText → Prop
  | none, none => True
  | some (.ok before), some (.ok after) => Renamed oldAlias newAlias before after
  | _, _ => False

/-- The wallet is renamed as a whole, or an error leaves it as it was. -/
def AllOrNothing (oldAlias newAlias : String) (dir : WalletDir) :
    Except String Unit × WalletDir → Prop
  | (.ok (), dir') => ∀ file, FileRenamed oldAlias newAlias (dir file) (dir' file)
  | (.error _, dir') => dir' = dir

/-- A file that the rename passes without an error and leaves renamed. -/
def OrderlyFile (oldAlias newAlias : String) : Option WalletText → Prop
  | some (.ok entries) => Orderly oldAlias newAlias entries
  | _ => True

/-- The rename stops at no file, and each is in order or none holds the alias; or no file before
the one it stops at holds the alias, and that one is left as it was. -/
def RenamesWhole (faults : FileFaults) (oldAlias newAlias : String) (dir : WalletDir) : Prop :=
  match WalletFileName.all.find? fun file => stopsAt faults oldAlias file (dir file) with
  | none =>
    if holds oldAlias (dir .publicKeyHashs) then ∀ file, OrderlyFile oldAlias newAlias (dir file)
    else ∀ file, holds oldAlias (dir file) = false
  | some stop =>
    (∀ file ∈ WalletFileName.all.takeWhile (· ≠ stop), holds oldAlias (dir file) = false) ∧
      leftAt faults oldAlias stop (dir stop) = dir stop

/-! ## The edit of a file -/

section

variable {faults : FileFaults} {oldAlias newAlias : String} {file : WalletFileName}

/-- A file after the edit. -/
def edited (oldAlias newAlias : String) : Option WalletText → Option WalletText
  | some (.ok entries) => some (.ok ((editEntries oldAlias newAlias entries).getD entries))
  | content => content

/-- A file that is read holds an alias where one of its entries has it. -/
theorem holds_ok {keyAlias : String} {entries : List Json} :
    holds keyAlias (some (.ok entries)) = false ↔ entries.countP (isNamed keyAlias) = 0 := by
  rw [holds, decide_eq_false_iff_not]
  omega

/-- The edit changes a file that holds the alias, and no other. -/
theorem edited_eq_self_iff (hne : oldAlias ≠ newAlias) (content : Option WalletText) :
    edited oldAlias newAlias content = content ↔ holds oldAlias content = false := by
  match content with
  | none => exact iff_of_true rfl rfl
  | some (.error _) => exact iff_of_true rfl rfl
  | some (.ok entries) =>
    rw [holds_ok, edited, Option.some.injEq, Except.ok.injEq]
    cases hedit : editEntries oldAlias newAlias entries with
    | none => exact iff_of_true rfl ((editEntries_eq_none hne).1 hedit)
    | some entries' =>
      have hcount := countP_editEntries hne hedit
      refine iff_of_false (fun heq => ?_) (by omega)
      rw [Option.getD_some] at heq
      rw [heq] at hcount
      omega

/-- A file that does not stop the rename is edited. -/
theorem renameInFile_of_passes (hne : oldAlias ≠ newAlias) {content : Option WalletText}
    (h : stopsAt faults oldAlias file content = false) :
    WalletDir.renameInFile faults oldAlias newAlias file content =
      (.ok (holds oldAlias content), edited oldAlias newAlias content) := by
  match content with
  | none => rfl
  | some (.error _) => cases h
  | some (.ok entries) =>
    obtain ⟨hread, hwrite⟩ := Bool.or_eq_false_iff.1 h
    rw [Option.isSome_eq_false_iff, Option.isNone_iff_eq_none] at hread
    unfold WalletDir.renameInFile
    simp only [hread, edited]
    cases hedit : editEntries oldAlias newAlias entries with
    | none => rw [holds_ok.2 ((editEntries_eq_none hne).1 hedit), Option.getD_none]
    | some entries' =>
      have hcount := countP_editEntries hne hedit
      have hheld : holds oldAlias (some (.ok entries)) = true := decide_eq_true (by omega)
      rw [hheld, Bool.true_and, Option.isSome_eq_false_iff, Option.isNone_iff_eq_none] at hwrite
      simp only [hwrite, hheld, Option.getD_some]

/-- A file that stops the rename. -/
theorem renameInFile_of_stops (hne : oldAlias ≠ newAlias) {content : Option WalletText}
    (h : stopsAt faults oldAlias file content = true) :
    ∃ e, WalletDir.renameInFile faults oldAlias newAlias file content =
      (.error e, leftAt faults oldAlias file content) := by
  match content with
  | none => cases h
  | some (.error e) =>
    unfold WalletDir.renameInFile leftAt
    cases hread : faults.read file with
    | some e' => exact ⟨_, rfl⟩
    | none => exact ⟨_, rfl⟩
  | some (.ok entries) =>
    unfold WalletDir.renameInFile leftAt
    cases hread : faults.read file with
    | some e => exact ⟨_, rfl⟩
    | none =>
      rw [stopsAt, hread, Option.isSome_none, Bool.false_or, Bool.and_eq_true] at h
      obtain ⟨hheld, hwrite⟩ := h
      obtain ⟨⟨e, left⟩, hwrite⟩ := Option.isSome_iff_exists.1 hwrite
      have hedit : editEntries oldAlias newAlias entries ≠ none := fun hnone =>
        Bool.false_ne_true ((holds_ok.2 ((editEntries_eq_none hne).1 hnone)).symm.trans hheld)
      obtain ⟨entries', hedit⟩ := Option.ne_none_iff_exists'.1 hedit
      simp only [hedit, hwrite, hheld, Option.isNone_none, Bool.and_self, if_true]
      exact ⟨_, rfl⟩

/-- A file that passes ends up renamed if and only if it was in order. -/
theorem fileRenamed_edited_iff (hne : oldAlias ≠ newAlias) {content : Option WalletText}
    (h : stopsAt faults oldAlias file content = false) :
    FileRenamed oldAlias newAlias content (edited oldAlias newAlias content) ↔
      OrderlyFile oldAlias newAlias content := by
  match content with
  | none => exact iff_of_true trivial trivial
  | some (.error _) => cases h
  | some (.ok entries) =>
    show Renamed oldAlias newAlias entries ((editEntries oldAlias newAlias entries).getD entries) ↔
      Orderly oldAlias newAlias entries
    cases hedit : editEntries oldAlias newAlias entries with
    | none =>
      have hzero := (editEntries_eq_none hne).1 hedit
      rw [Option.getD_none, renamed_same_iff hzero, Orderly, hzero]
      exact ⟨fun h => ⟨Nat.zero_le _, fun _ => h⟩, fun h => h.2 rfl⟩
    | some entries' =>
      have hcount := countP_editEntries hne hedit
      rw [Option.getD_some, renamed_edit_iff hne hedit, Orderly]
      exact ⟨fun h => ⟨h, fun hzero => by omega⟩, fun h => h.1⟩

end

/-! ## The loop -/

namespace WalletDir

variable {faults : FileFaults} {oldAlias newAlias : String}

/-- The loop changes the files it goes through. -/
theorem renameFiles_frame : ∀ (files : List WalletFileName) (found : Bool) (dir : WalletDir)
    {file : WalletFileName}, file ∉ files →
    (renameFiles faults oldAlias newAlias files found dir).2 file = dir file
  | [], _, _, _, _ => rfl
  | first :: files, found, dir, file, hfile => by
    rw [List.mem_cons, not_or] at hfile
    rw [renameFiles]
    split
    · exact Function.update_of_ne hfile.1 _ _
    · rw [renameFiles_frame files _ _ hfile.2]
      exact Function.update_of_ne hfile.1 _ _

/-- A file that is edited stops the rename at no other one. -/
theorem find?_update {file : WalletFileName} {files : List WalletFileName} (h : file ∉ files)
    (dir : WalletDir) (content : Option WalletText) :
    (files.find? fun f => stopsAt faults oldAlias f (Function.update dir file content f)) =
      files.find? fun f => stopsAt faults oldAlias f (dir f) := by
  induction files with
  | nil => rfl
  | cons first files ih =>
    rw [List.mem_cons, not_or] at h
    rw [List.find?_cons, List.find?_cons, Function.update_of_ne (Ne.symm h.1), ih h.2]

/-- A file without a fault is edited, and the next one is taken up. -/
theorem renameFiles_cons_of_passes (hne : oldAlias ≠ newAlias) {file : WalletFileName}
    {dir : WalletDir} (h : stopsAt faults oldAlias file (dir file) = false)
    (files : List WalletFileName) (found : Bool) :
    renameFiles faults oldAlias newAlias (file :: files) found dir =
      renameFiles faults oldAlias newAlias files
        (if file = .publicKeyHashs then holds oldAlias (dir file) else found)
        (Function.update dir file (edited oldAlias newAlias (dir file))) := by
  rw [renameFiles, renameInFile_of_passes hne h]

/-- A file with a fault ends the rename there. -/
theorem renameFiles_cons_of_stops (hne : oldAlias ≠ newAlias) {file : WalletFileName}
    {dir : WalletDir} (h : stopsAt faults oldAlias file (dir file) = true)
    (files : List WalletFileName) (found : Bool) :
    ∃ e, renameFiles faults oldAlias newAlias (file :: files) found dir =
      (.error e, Function.update dir file (leftAt faults oldAlias file (dir file))) := by
  obtain ⟨e, he⟩ := renameInFile_of_stops hne h
  refine ⟨e, ?_⟩
  rw [renameFiles, he]

/-- A loop that stops nowhere edits every file. -/
theorem renameFiles_of_passes (hne : oldAlias ≠ newAlias) :
    ∀ {files : List WalletFileName}, files.Nodup → ∀ (found : Bool) (dir : WalletDir),
      (files.find? fun f => stopsAt faults oldAlias f (dir f)) = none →
      renameFiles faults oldAlias newAlias files found dir =
        (.ok (if .publicKeyHashs ∈ files then holds oldAlias (dir .publicKeyHashs) else found),
          fun f => if f ∈ files then edited oldAlias newAlias (dir f) else dir f)
  | [], _, found, dir, _ => by
    rw [renameFiles, if_neg List.not_mem_nil]
    simp only [List.not_mem_nil, if_false]
  | file :: files, hnodup, found, dir, hpass => by
    obtain ⟨hfile, hnodup⟩ := List.nodup_cons.1 hnodup
    have hhead : stopsAt faults oldAlias file (dir file) = false :=
      Bool.eq_false_iff.2 (List.find?_eq_none.1 hpass file List.mem_cons_self)
    have htail : (files.find? fun f => stopsAt faults oldAlias f (dir f)) = none :=
      List.find?_eq_none.2 fun f hf => List.find?_eq_none.1 hpass f (List.mem_cons_of_mem _ hf)
    rw [renameFiles_cons_of_passes hne hhead,
      renameFiles_of_passes hne hnodup _ _ ((find?_update hfile dir _).trans htail)]
    refine Prod.ext ?_ (funext fun f => ?_)
    · by_cases hprimary : file = .publicKeyHashs
      · rw [if_pos hprimary, if_neg (hprimary ▸ hfile),
          if_pos (hprimary ▸ List.mem_cons_self), ← hprimary]
      · rw [if_neg hprimary, Function.update_of_ne (Ne.symm hprimary)]
        simp only [List.mem_cons, Ne.symm hprimary, false_or]
    · by_cases hf : f = file
      · simp only [hf, if_neg hfile, List.mem_cons_self, if_true, Function.update_self]
      · simp only [Function.update_of_ne hf, List.mem_cons, hf, false_or]

/-- A loop that stops leaves the directory as it was if and only if it edited no file before and
tore none. -/
theorem renameFiles_of_stops (hne : oldAlias ≠ newAlias) {stop : WalletFileName} :
    ∀ {files : List WalletFileName}, files.Nodup → ∀ (found : Bool) (dir : WalletDir),
      (files.find? fun f => stopsAt faults oldAlias f (dir f)) = some stop →
      ∃ e dir', renameFiles faults oldAlias newAlias files found dir = (.error e, dir') ∧
        (dir' = dir ↔ (∀ f ∈ files.takeWhile (· ≠ stop), holds oldAlias (dir f) = false) ∧
          leftAt faults oldAlias stop (dir stop) = dir stop)
  | [], _, _, _, hstop => by cases hstop
  | file :: files, hnodup, found, dir, hstop => by
    obtain ⟨hfile, hnodup⟩ := List.nodup_cons.1 hnodup
    cases hhead : stopsAt faults oldAlias file (dir file) with
    | true =>
      rw [List.find?_cons, hhead] at hstop
      obtain rfl := Option.some.inj hstop
      obtain ⟨e, he⟩ := renameFiles_cons_of_stops hne hhead files found
      refine ⟨e, _, he, ?_⟩
      rw [Function.update_eq_self_iff, List.takeWhile_cons_of_neg (by simp)]
      exact ⟨fun h => ⟨nofun, h⟩, fun h => h.2⟩
    | false =>
      rw [List.find?_cons, hhead] at hstop
      have hmem : stop ∈ files := List.mem_of_find?_eq_some hstop
      have hstopFile : stop ≠ file := fun heq => hfile (heq ▸ hmem)
      obtain ⟨e, dir', hrun, hsame⟩ := renameFiles_of_stops hne hnodup
        (if file = .publicKeyHashs then holds oldAlias (dir file) else found)
        (Function.update dir file (edited oldAlias newAlias (dir file)))
        ((find?_update hfile dir _).trans hstop)
      have hframe := @renameFiles_frame faults oldAlias newAlias files
        (if file = .publicKeyHashs then holds oldAlias (dir file) else found)
        (Function.update dir file (edited oldAlias newAlias (dir file))) file hfile
      rw [hrun, Function.update_self] at hframe
      refine ⟨e, dir', (renameFiles_cons_of_passes hne hhead files found).trans hrun, ?_⟩
      rw [List.takeWhile_cons_of_pos (by simpa using hstopFile.symm), List.forall_mem_cons,
        and_assoc, ← edited_eq_self_iff hne (dir file)]
      constructor
      · intro hdir
        have hself : edited oldAlias newAlias (dir file) = dir file := by rw [← hframe, hdir]
        rw [Function.update_eq_self_iff.2 hself] at hsame
        exact ⟨hself, hsame.1 hdir⟩
      · rintro ⟨hself, hrest⟩
        rw [Function.update_eq_self_iff.2 hself] at hsame
        exact hsame.2 hrest

end WalletDir

/-! ## The wallet -/

/-- The wallet ends renamed as a whole, or as it was with an error, exactly where `RenamesWhole`
holds. -/
theorem rename_whole_iff (faults : FileFaults) (dir : WalletDir) {oldAlias newAlias : String}
    (hne : oldAlias ≠ newAlias) :
    AllOrNothing oldAlias newAlias dir
        (WalletDir.renameAliasLocally faults oldAlias newAlias dir) ↔
      RenamesWhole faults oldAlias newAlias dir := by
  unfold WalletDir.renameAliasLocally RenamesWhole
  cases hfind : WalletFileName.all.find? fun file => stopsAt faults oldAlias file (dir file) with
  | some stop =>
    obtain ⟨e, dir', hrun, hsame⟩ := WalletDir.renameFiles_of_stops hne
      WalletFileName.nodup_all false dir hfind
    rw [hrun]
    exact hsame
  | none =>
    have hpass : ∀ file, stopsAt faults oldAlias file (dir file) = false := fun file =>
      Bool.eq_false_iff.2 (List.find?_eq_none.1 hfind file file.mem_all)
    rw [WalletDir.renameFiles_of_passes hne WalletFileName.nodup_all false dir hfind]
    simp only [WalletFileName.mem_all, if_true]
    cases hprimary : holds oldAlias (dir .publicKeyHashs) with
    | true => exact forall_congr' fun file => fileRenamed_edited_iff hne (hpass file)
    | false =>
      show (fun file => edited oldAlias newAlias (dir file)) = dir ↔
        ∀ file, holds oldAlias (dir file) = false
      rw [funext_iff]
      exact forall_congr' fun file => edited_eq_self_iff hne (dir file)

section

/-- No fault. -/
def noFaults : FileFaults := ⟨fun _ => none, fun _ => none⟩

/-- An entry of a wallet file. -/
def walletEntry (keyAlias value : String) : Json :=
  .obj [("name", .str keyAlias), ("value", .str value)]

/-- A pending key to be promoted over a live one. -/
def promotedWallet : WalletDir
  | .publicKeyHashs => some (.ok [walletEntry "live" "tz4a", walletEntry "pending" "tz4b"])
  | .publicKeys => none
  | .secretKeys => some (.ok [walletEntry "pending" "http://signer/tz4b", .null])

/-- A promotion in a wallet one file of which is not there. -/
theorem rename_whole_promoted :
    AllOrNothing "pending" "live" promotedWallet
      (WalletDir.renameAliasLocally noFaults "pending" "live" promotedWallet) := by
  refine (rename_whole_iff noFaults promotedWallet (by decide)).2 ?_
  show ∀ file, OrderlyFile "pending" "live" (promotedWallet file)
  intro file
  cases file with
  | publicKeyHashs => exact ⟨by decide, nofun⟩
  | publicKeys => trivial
  | secretKeys => exact ⟨by decide, nofun⟩

/-- A wallet whose primary file has lost the alias. -/
def orphanedWallet : WalletDir
  | .publicKeyHashs => some (.ok [walletEntry "live" "tz4a"])
  | .publicKeys => none
  | .secretKeys => some (.ok [walletEntry "live" "http://signer/tz4a",
      walletEntry "pending" "http://signer/tz4b"])

/-- The rename is refused, after the secret key of the live alias was replaced. -/
theorem rename_not_whole :
    ¬ ∀ (faults : FileFaults) (dir : WalletDir) (oldAlias newAlias : String),
      oldAlias ≠ newAlias → AllOrNothing oldAlias newAlias dir
        (WalletDir.renameAliasLocally faults oldAlias newAlias dir) := by
  intro h
  have hsame : (WalletDir.renameAliasLocally noFaults "pending" "live" orphanedWallet).2 =
      orphanedWallet := h noFaults orphanedWallet "pending" "live" (by decide)
  have hheld : holds "pending" ((WalletDir.renameAliasLocally noFaults "pending" "live"
      orphanedWallet).2 .secretKeys) = false := by decide
  rw [hsame] at hheld
  exact absurd hheld (by decide)

end

/-! ## The wallet of distinct names -/

/-- The file that `w` keeps under a name. -/
def Wallet.file (w : Wallet) : WalletFileName → Option WalletFile
  | .publicKeyHashs => w.publicKeyHashs
  | .publicKeys => w.publicKeys
  | .secretKeys => w.secretKeys

/-- What an entry says, its value spelled by `spell`. -/
def said (spell : List (String × Json) → String) (entry : Json) : Option String × String :=
  (entryName entry, spell (entryValue entry))

/-- An entry of the wallet of distinct names, as one of a file says it. -/
def named (pair : String × String) : Option String × String := (some pair.1, pair.2)

/-- A file holds the entries of `f`. -/
def Represents (spell : List (String × Json) → String) :
    Option WalletFile → Option WalletText → Prop
  | none, none => True
  | some f, some (.ok entries) => entries.map (said spell) = f.entries.map named
  | _, _ => False

section

variable {spell : List (String × Json) → String} {oldAlias newAlias : String}

/-- The edit of the entries is the edit of what they say. -/
theorem renameEntry_said : ∀ {entries : List Json} {pairs : List (String × String)},
    entries.map (said spell) = pairs.map named →
    (renameEntry oldAlias newAlias entries).map (List.map (said spell)) =
      (renameFirst oldAlias newAlias pairs).map (List.map named)
  | [], [], _ => rfl
  | [], _ :: _, h => by cases h
  | _ :: _, [], h => by cases h
  | entry :: entries, pair :: pairs, h => by
    obtain ⟨hpair, hrest⟩ := List.cons.inj h
    obtain ⟨hname, hvalue⟩ := Prod.mk.inj hpair
    rw [renameEntry, renameFirst, hname]
    by_cases hold : pair.1 = oldAlias
    · have hset : said spell (setEntryName newAlias entry) = named (newAlias, pair.2) := by
        rw [said, entryValue_setEntryName, hvalue,
          entryName_setEntryName newAlias (hname.trans (congrArg some hold)), named]
      rw [if_pos hold, if_pos (congrArg some hold), Option.map_some, Option.map_some,
        List.map_cons, List.map_cons, hrest, hset]
    · have hcons : ∀ {α β : Type} (f : α → β) (a : α) (rest : Option (List α)),
          (rest.map (a :: ·)).map (List.map f) = (rest.map (List.map f)).map (f a :: ·) := by
        intro α β f a rest
        cases rest <;> rfl
      rw [if_neg hold, if_neg fun heq => hold (Option.some.inj heq), hcons, hcons,
        renameEntry_said hrest, hpair]

/-- The entries after a rename. -/
theorem WalletFile.rename_entries (f : WalletFile) :
    (f.rename oldAlias newAlias).map (·.entries) =
      renameFirst oldAlias newAlias (f.drop newAlias).entries := by
  unfold WalletFile.rename
  split
  · rename_i h
    exact h.symm
  · rename_i h
    exact h.symm

/-- The edit of a file is the edit of what it holds. -/
theorem represents_edited {f : Option WalletFile} {content : Option WalletText}
    (h : Represents spell f content) :
    Represents spell (Wallet.editFile (·.rename oldAlias newAlias) f)
      (edited oldAlias newAlias content) := by
  match f, content, h with
  | none, none, _ => trivial
  | some f, some (.ok entries), h =>
    have h : entries.map (said spell) = f.entries.map named := h
    have hdrop : (entries.filter fun entry => !isNamed newAlias entry).map (said spell) =
        (f.drop newAlias).entries.map named := by
      have hside : (entries.map (said spell)).filter (fun p => !decide (p.1 = some newAlias)) =
          (f.entries.map named).filter fun p => !decide (p.1 = some newAlias) := by rw [h]
      rw [List.filter_map, List.filter_map] at hside
      refine hside.trans (congrArg _ (List.filter_congr fun pair _ => ?_))
      show (!decide (some pair.1 = some newAlias)) = decide (pair.1 ≠ newAlias)
      simp only [Option.some.injEq, decide_not]
    have hedit := @renameEntry_said spell oldAlias newAlias _ _ hdrop
    rw [← WalletFile.rename_entries] at hedit
    show ((editEntries oldAlias newAlias entries).getD entries).map (said spell) =
      ((f.rename oldAlias newAlias).getD f).entries.map named
    rw [editEntries]
    cases hleft : renameEntry oldAlias newAlias
        (entries.filter fun entry => !isNamed newAlias entry) <;>
      cases hright : f.rename oldAlias newAlias <;>
      rw [hleft, hright] at hedit
    · exact h
    · cases hedit
    · cases hedit
    · exact Option.some.inj hedit

/-- A file that is represented holds the names of what it represents. -/
theorem holds_represents {f : Option WalletFile} {content : Option WalletText}
    (h : Represents spell f content) (keyAlias : String) :
    holds keyAlias content = (f.bind fun f => f.entries.lookup keyAlias).isSome := by
  match f, content, h with
  | none, none, _ => rfl
  | some f, some (.ok entries), h =>
    have h : entries.map (said spell) = f.entries.map named := h
    rw [Option.bind_some, holds, Bool.eq_iff_iff, decide_eq_true_iff, List.countP_pos_iff,
      Option.isSome_iff_ne_none, Ne, List.lookup_eq_none_iff]
    push Not
    constructor
    · rintro ⟨entry, hmem, hname⟩
      have hsaid : said spell entry ∈ f.entries.map named := h ▸ List.mem_map_of_mem hmem
      obtain ⟨pair, hpair, hnamed⟩ := List.mem_map.1 hsaid
      have hfst := (congrArg Prod.fst hnamed).trans (isNamed_iff.1 hname)
      exact ⟨pair, hpair, by simpa using (Option.some.inj hfst).symm⟩
    · rintro ⟨pair, hmem, hname⟩
      have hnamed : named pair ∈ entries.map (said spell) := h ▸ List.mem_map_of_mem hmem
      obtain ⟨entry, hentry, hsaid⟩ := List.mem_map.1 hnamed
      have hpair : keyAlias = pair.1 := by simpa using hname
      exact ⟨entry, hentry, isNamed_iff.2 ((congrArg Prod.fst hsaid).trans
        (congrArg some hpair.symm))⟩

/-- A file that is represented stops no rename by itself. -/
theorem passes_represents {f : Option WalletFile} {content : Option WalletText}
    (h : Represents spell f content) (file : WalletFileName) :
    stopsAt noFaults oldAlias file content = false := by
  match f, content, h with
  | none, none, _ => rfl
  | some _, some (.ok _), _ => exact Bool.and_false _

end

/-- Without faults a wallet of distinct names is renamed by `Wallet.renameAlias`, and the rename
succeeds where the alias is there. -/
theorem renameAliasLocally_refines {spell : List (String × Json) → String} {w : Wallet}
    {dir : WalletDir} (h : ∀ file, Represents spell (w.file file) (dir file))
    {a b : BakerAlias} (hne : a ≠ b) :
    let r := WalletDir.renameAliasLocally noFaults a.name b.name dir
    (∀ file, Represents spell ((w.renameAlias a b).file file) (r.2 file)) ∧
      r.1.isOk = (w.hash a).isSome := by
  have hnames : a.name ≠ b.name := fun heq => hne (BakerAlias.name_injective heq)
  have hpass : (WalletFileName.all.find? fun f => stopsAt noFaults a.name f (dir f)) = none :=
    List.find?_eq_none.2 fun f _ => Bool.eq_false_iff.1 (passes_represents (h f) f)
  have hrun := WalletDir.renameFiles_of_passes hnames WalletFileName.nodup_all false dir hpass
  have hfiles : ∀ file, Represents spell ((w.renameAlias a b).file file)
      (edited a.name b.name (dir file)) := by
    intro file
    cases file with
    | publicKeyHashs => exact represents_edited (h .publicKeyHashs)
    | publicKeys => exact represents_edited (h .publicKeys)
    | secretKeys => exact represents_edited (h .secretKeys)
  have hhash : holds a.name (dir .publicKeyHashs) = (w.hash a).isSome :=
    holds_represents (h .publicKeyHashs) a.name
  simp only [WalletFileName.mem_all, if_true] at hrun
  unfold WalletDir.renameAliasLocally
  rw [hrun, ← hhash]
  cases holds a.name (dir .publicKeyHashs) with
  | true => exact ⟨hfiles, rfl⟩
  | false => exact ⟨hfiles, rfl⟩

end Russignol.Host
