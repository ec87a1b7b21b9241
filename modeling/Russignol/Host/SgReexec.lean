import Mathlib.Data.List.Forall2
import Mathlib.Data.List.Nodup
import Russignol.Base.CommandLine
import Russignol.Base.ShellWords

/-!
# Running again under `sg`

`shell_quote` and `sg_reexec_command` of `host-utility/src/device_access.rs`: the command that runs
the same invocation once more in a group. The shell gives back every word as it was; but whether a
device is appended is decided by the spelling of the arguments, and the parser accepts a device in
spellings that the test does not know. The exact condition is `Carried` (`reproduces_iff`).

The parser is a crate's; its laws are in `LawfulFlashParser`, and `plainFlashParser` reads the
options that `image.rs` declares by the usual conventions.
-/

namespace Russignol.SgReexec

open CommandLine

/-! ## The command -/

/-- A character that needs no quotes. -/
def isSafe (c : Char) : Bool := c.isAlphanum || decide (c ∈ "-_./=:@".toList)

/-- `shell_quote`. -/
def shellQuote (s : Word) : Word :=
  if s ≠ [] ∧ s.all isSafe then s else '\'' :: (ShellWords.escape s ++ ['\''])

/-- `--device`. -/
def deviceOption : Word := "--device".toList

/-- `has_device`. -/
def hasDevice (args : List Word) : Bool :=
  args.any fun a => decide (a = deviceOption) || (deviceOption ++ ['=']).isPrefixOf a

/-- The words that are appended. -/
def appended (args : List Word) : Option Word → List Word
  | some device => if hasDevice args then [] else [deviceOption, device]
  | none => []

/-- `sg_reexec_command`; the option itself is safe as it is. -/
def sgReexecCommand (exePath : Word) (args : List Word) (selectedDevice : Option Word) : Word :=
  List.intercalate [' '] (shellQuote exePath :: (args.map shellQuote ++
    match selectedDevice with
    | some device => if hasDevice args then [] else [deviceOption, shellQuote device]
    | none => []))

/-! ## The parser -/

/-- `ImageCommands::Flash`. -/
structure FlashArgs where
  image : Option Word
  url : Option Word
  device : Option Word
  endpoint : Option Word
  yes : Bool
  restoreKeys : Option Word
  migrateKeys : Option Word
  consensusKey : Option Word
  companionKey : Option Word
  beta : Bool
  skipVerify : Bool
  signature : Option Word
  allowUnsigned : Bool
  deriving DecidableEq, Repr

/-- The parser of the command line, where it is that of `image flash`. -/
class FlashParser where
  parse : List Word → Option FlashArgs

open FlashParser

/-- A path that the parser takes for the value of an option in the next word. -/
def IsValue (w : Word) : Prop := w ≠ [] ∧ isOption w = false

instance (w : Word) : Decidable (IsValue w) := instDecidableAnd

/-- What the parser does with a device at the end. -/
class LawfulFlashParser [FlashParser] : Prop where
  /-- It is the device, unless there is one: an option is not given twice. -/
  parse_device : ∀ (args : List Word) (m : FlashArgs) (device : Word), parse args = some m →
    twoHyphens ∉ args → IsValue device →
      parse (args ++ [deviceOption, device]) =
        if m.device = none then some { m with device := some device } else none
  /-- After two hyphens its two words are positional, and there is one positional at most. -/
  parse_escaped : ∀ (args : List Word) (m : FlashArgs) (device : Word), parse args = some m →
    twoHyphens ∈ args → parse (args ++ [deviceOption, device]) = none
  /-- A word that begins with a hyphen is not a value, and neither is an empty path. -/
  parse_hyphen : ∀ (args : List Word) (m : FlashArgs) (device : Word), parse args = some m →
    twoHyphens ∉ args → ¬IsValue device → parse (args ++ [deviceOption, device]) = none

/-! ## A parser -/

/-- The options of `image flash`. -/
def flashOptions : List Opt :=
  [⟨"url".toList, none, .value⟩,
    ⟨"device".toList, some 'd', .value⟩,
    ⟨"endpoint".toList, none, .value⟩,
    ⟨"yes".toList, some 'y', .flag⟩,
    ⟨"restore-keys".toList, none, .optional "auto".toList⟩,
    ⟨"migrate-keys".toList, none, .optional "auto".toList⟩,
    ⟨"consensus-key".toList, none, .value⟩,
    ⟨"companion-key".toList, none, .value⟩,
    ⟨"beta".toList, none, .flag⟩,
    ⟨"skip-verify".toList, none, .flag⟩,
    ⟨"signature".toList, none, .value⟩,
    ⟨"allow-unsigned".toList, none, .flag⟩]

namespace FlashArgs

/-- The arguments by their names. -/
def ofGiven (given : List Given) (positional : List Word) : FlashArgs where
  image := positional.head?
  url := given.lookup "url".toList
  device := given.lookup "device".toList
  endpoint := given.lookup "endpoint".toList
  yes := (given.lookup "yes".toList).isSome
  restoreKeys := given.lookup "restore-keys".toList
  migrateKeys := given.lookup "migrate-keys".toList
  consensusKey := given.lookup "consensus-key".toList
  companionKey := given.lookup "companion-key".toList
  beta := (given.lookup "beta".toList).isSome
  skipVerify := (given.lookup "skip-verify".toList).isSome
  signature := given.lookup "signature".toList
  allowUnsigned := (given.lookup "allow-unsigned".toList).isSome

/-- The options that exclude or require others, and the paths, none of which is empty. -/
def allowed (m : FlashArgs) : Bool :=
  !(m.url.isSome && m.image.isSome) && !(m.beta && m.image.isSome) &&
    !(m.signature.isSome && (m.image.isNone || m.url.isSome || m.beta)) &&
    [m.image, m.device, m.restoreKeys, m.migrateKeys, m.signature].all fun path =>
      decide (path ≠ some [])

/-- Every option once, and one positional at most. -/
def accept (given : List Given) (positional : List Word) : Option FlashArgs :=
  if (given.map Prod.fst).Nodup ∧ positional.length ≤ 1 ∧ (ofGiven given positional).allowed then
    some (ofGiven given positional)
  else none

end FlashArgs

/-- The command line by the usual conventions. -/
def plainParse : List Word → Option FlashArgs
  | image :: flash :: rest =>
    if image = "image".toList ∧ flash = "flash".toList then
      (CommandLine.parse flashOptions rest).bind fun (given, positional) =>
        FlashArgs.accept given positional
    else none
  | _ => none

@[reducible] def plainFlashParser : FlashParser := ⟨plainParse⟩

/-- A device at the end. -/
theorem parse_device_option (device : Word) :
    CommandLine.parse flashOptions [deviceOption, device] =
      if isOption device then none else some ([("device".toList, device)], []) := by
  have hread : read flashOptions (some device) deviceOption =
      if isOption device then none else some ⟨[("device".toList, device)], [], true⟩ := rfl
  rw [parse_cons (by decide), List.head?_cons, hread]
  split <;> rfl

namespace FlashArgs

variable {given : List Given} {positional : List Word} {m : FlashArgs} {device : Word}

/-- A device at the end is found where there is none before it, and nothing else is. -/
theorem ofGiven_device (hnone : (ofGiven given positional).device = none) :
    ofGiven (given ++ [("device".toList, device)]) positional =
      { ofGiven given positional with device := some device } := by
  have hother : ∀ name : Word, name ≠ "device".toList →
      (given ++ [("device".toList, device)]).lookup name = given.lookup name := by
    intro name hname
    rw [List.lookup_append, List.lookup_cons, beq_eq_false_iff_ne.2 hname]
    exact Option.or_none
  have hdevice : (given ++ [("device".toList, device)]).lookup "device".toList = some device := by
    have hnone : given.lookup "device".toList = none := hnone
    rw [List.lookup_append, hnone, List.lookup_cons, beq_self_eq_true]
    rfl
  unfold ofGiven
  rw [hdevice, hother _ (by decide), hother _ (by decide), hother _ (by decide),
    hother _ (by decide), hother _ (by decide), hother _ (by decide), hother _ (by decide),
    hother _ (by decide), hother _ (by decide), hother _ (by decide), hother _ (by decide)]

/-- A device path that is not empty is allowed. -/
theorem allowed_device (hallowed : m.allowed = true) (hnone : m.device = none) :
    { m with device := some device }.allowed = decide (device ≠ []) := by
  unfold allowed at hallowed ⊢
  rw [Bool.and_eq_true] at hallowed
  obtain ⟨hothers, hpaths⟩ := hallowed
  rw [hnone] at hpaths
  simp only [List.all_cons, List.all_nil, Bool.and_eq_true, decide_eq_true_eq] at hpaths
  obtain ⟨himage, -, hrestore, hmigrate, hsignature, -⟩ := hpaths
  rw [hothers, Bool.true_and]
  simp only [List.all_cons, List.all_nil, decide_eq_true himage, decide_eq_true hrestore,
    decide_eq_true hmigrate, decide_eq_true hsignature, Bool.true_and, Bool.and_true,
    ne_eq, Option.some.injEq]

/-- A device at the end is given once where there is none before it. -/
theorem nodup_device (hnodup : (given.map Prod.fst).Nodup) :
    ((given ++ [("device".toList, device)]).map Prod.fst).Nodup ↔
      (ofGiven given positional).device = none := by
  have hlookup : (ofGiven given positional).device = none ↔
      "device".toList ∉ given.map Prod.fst := by
    show given.lookup _ = none ↔ _
    rw [List.lookup_eq_none_iff, List.mem_map]
    constructor
    · rintro h ⟨p, hp, hname⟩
      have hne := h p hp
      rw [hname] at hne
      simp at hne
    · intro h p hp
      have hne : "device".toList ≠ p.1 := fun hname => h ⟨p, hp, hname.symm⟩
      simpa using hne
  rw [hlookup, List.map_append, List.nodup_append]
  refine ⟨fun h hmem => h.2.2 _ hmem _ (List.mem_singleton_self _) rfl, fun h => ?_⟩
  refine ⟨hnodup, List.nodup_singleton _, fun a ha b hb => ?_⟩
  rintro rfl
  cases List.mem_singleton.1 hb
  exact h ha

/-- A device at the end is accepted where there is none before it. -/
theorem accept_device (h : accept given positional = some m) :
    accept (given ++ [("device".toList, device)]) positional =
      if m.device = none ∧ device ≠ [] then some { m with device := some device } else none := by
  unfold accept at h
  split at h
  · rename_i haccepted
    obtain ⟨hnodup, hlength, hallowed⟩ := haccepted
    cases h
    have hnames : ((given ++ [("device".toList, device)]).map Prod.fst).Nodup ↔
        (ofGiven given positional).device = none := nodup_device hnodup
    by_cases hnone : (ofGiven given positional).device = none
    · have hdevice : { ofGiven given positional with device := some device }.allowed =
          decide (device ≠ []) := allowed_device hallowed hnone
      rw [accept, ofGiven_device hnone, hdevice]
      by_cases hempty : device = []
      · have hrefused : ¬decide (device ≠ []) = true := by
          rw [hempty]
          decide
        rw [if_neg fun h => hrefused h.2.2, if_neg fun h => h.2 hempty]
      · rw [if_pos ⟨hnames.2 hnone, hlength, decide_eq_true hempty⟩, if_pos ⟨hnone, hempty⟩]
    · rw [accept, if_neg fun h => hnone (hnames.1 h.1), if_neg fun h => hnone h.1]
  · cases h

theorem length_of_accept (h : accept given positional = some m) : positional.length ≤ 1 := by
  unfold accept at h
  split at h
  · rename_i haccepted
    exact haccepted.2.1
  · cases h

end FlashArgs

/-- A command line of `image flash`, and one with more words. -/
theorem plainParse_append {args : List Word} {m : FlashArgs} (h : plainParse args = some m) :
    ∃ rest given positional, Parsed flashOptions rest given positional ∧
      FlashArgs.accept given positional = some m ∧ (twoHyphens ∈ args ↔ twoHyphens ∈ rest) ∧
      ∀ tail, plainParse (args ++ tail) = (CommandLine.parse flashOptions (rest ++ tail)).bind
        fun (given, positional) => FlashArgs.accept given positional := by
  match args with
  | image :: flash :: rest =>
    rw [plainParse] at h
    split at h
    · rename_i hcommand
      obtain ⟨⟨given, positional⟩, hparse, haccept⟩ := Option.bind_eq_some_iff.1 h
      refine ⟨rest, given, positional, parsed_of_parse (Nat.le_refl _) hparse, haccept, ?_, ?_⟩
      · rw [List.mem_cons, List.mem_cons, hcommand.1, hcommand.2]
        exact ⟨fun hmem => (hmem.resolve_left (by decide)).resolve_left (by decide),
          fun hmem => .inr (.inr hmem)⟩
      · exact fun tail => if_pos hcommand
    · cases h

/-- The stand-in is lawful. -/
theorem plainFlashParser_lawful : @LawfulFlashParser plainFlashParser := by
  have hdevice : ∀ (args : List Word) (m : FlashArgs) (device : Word),
      plainParse args = some m → twoHyphens ∉ args →
        plainParse (args ++ [deviceOption, device]) =
          if isOption device = false ∧ m.device = none ∧ device ≠ [] then
            some { m with device := some device }
          else none := by
    intro args m device hargs hescaped
    obtain ⟨rest, given, positional, hparsed, haccept, hmem, happend⟩ := plainParse_append hargs
    have htail : ∀ v ∈ [deviceOption, device].head?, isOption v = true := by
      rintro v ⟨⟩
      rfl
    rw [happend, hparsed.append htail (mt hmem.2 hescaped), parse_device_option]
    cases isOption device with
    | true => rfl
    | false =>
      have haccept' : FlashArgs.accept (given ++ [("device".toList, device)]) positional = _ :=
        FlashArgs.accept_device haccept
      simpa using haccept'
  refine @LawfulFlashParser.mk plainFlashParser ?_ ?_ ?_
  · intro args m device hargs hescaped hvalue
    refine (hdevice args m device hargs hescaped).trans ?_
    by_cases hnone : m.device = none
    · rw [if_pos ⟨hvalue.2, hnone, hvalue.1⟩, if_pos hnone]
    · rw [if_neg fun h => hnone h.2.1, if_neg hnone]
  · intro args m device hargs hescaped
    obtain ⟨rest, given, positional, hparsed, haccept, hmem, happend⟩ := plainParse_append hargs
    refine (happend _).trans ?_
    rw [hparsed.append_escaped (hmem.1 hescaped), Option.bind_some]
    cases haccepted : FlashArgs.accept given (positional ++ [deviceOption, device]) with
    | none => exact haccepted
    | some m' =>
      have hlength := FlashArgs.length_of_accept haccepted
      rw [List.length_append, List.length_cons, List.length_singleton] at hlength
      omega
  · intro args m device hargs hescaped hvalue
    refine (hdevice args m device hargs hescaped).trans (if_neg fun h => ?_)
    exact hvalue ⟨h.2.2, h.1⟩

/-! ## What is run -/

/-- The shell runs the executable with the arguments, and with the selected device where they name
none; and the parser accepts them and finds the device. -/
def Reproduces [FlashParser] (exePath : Word) (args : List Word) (device : Word) (m : FlashArgs) :
    Prop :=
  let args' := args ++ if m.device = none then [deviceOption, device] else []
  ShellWords.command (sgReexecCommand exePath args (some device)) = some (exePath :: args') ∧
    ∃ m', parse args' = some m' ∧ m'.device = some (m.device.getD device)

/-- The arguments name a device in a spelling that is tested for; or they name none, no positional
word is spelled so, and the device can be appended. -/
def Carried (args : List Word) (device : Word) (m : FlashArgs) : Prop :=
  if m.device = none then hasDevice args = false ∧ twoHyphens ∉ args ∧ IsValue device
  else hasDevice args = true

theorem plain_of_isSafe {c : Char} (h : isSafe c = true) : ShellWords.Plain c := by
  have hspecial : (' ' :: '\t' :: '\'' :: '\\' :: ShellWords.special).all (!isSafe ·) = true := by
    decide
  have hne : ∀ d ∈ ' ' :: '\t' :: '\'' :: '\\' :: ShellWords.special, c ≠ d := by
    rintro d hd rfl
    have hunsafe := List.all_eq_true.1 hspecial c hd
    rw [h] at hunsafe
    cases hunsafe
  obtain ⟨hspace, hne⟩ := List.forall_mem_cons.1 hne
  obtain ⟨htab, hne⟩ := List.forall_mem_cons.1 hne
  obtain ⟨hquote, hne⟩ := List.forall_mem_cons.1 hne
  obtain ⟨hescape, hne⟩ := List.forall_mem_cons.1 hne
  refine ⟨?_, hquote, hescape, fun hmem => hne c hmem rfl⟩
  rw [ShellWords.isBlank, decide_eq_false hspace, decide_eq_false htab, Bool.or_self]

/-- A word that is quoted is spelled. -/
theorem spells_shellQuote (s : Word) : ShellWords.Spells (shellQuote s) s := by
  unfold shellQuote
  split
  · rename_i hsafe
    exact ShellWords.spells_plain hsafe.1 fun c hc =>
      plain_of_isSafe (List.all_eq_true.1 hsafe.2 c hc)
  · exact ShellWords.spells_quoted s

/-- The parts of the command are its words, quoted. -/
theorem sgReexecCommand_eq (exePath : Word) (args : List Word) (selectedDevice : Option Word) :
    sgReexecCommand exePath args selectedDevice =
      List.intercalate [' '] ((exePath :: (args ++ appended args selectedDevice)).map shellQuote) := by
  have hoption : shellQuote deviceOption = deviceOption := by decide
  unfold sgReexecCommand
  rw [List.map_cons, List.map_append]
  cases selectedDevice with
  | none => rfl
  | some device =>
    dsimp only [appended]
    split
    · rfl
    · rw [List.map_cons, hoption]
      rfl

/-- **The shell** gives back the executable, the arguments and what was appended. -/
theorem command_sgReexecCommand {exePath : Word} (habsolute : exePath.head? = some '/')
    (args : List Word) (selectedDevice : Option Word) :
    ShellWords.command (sgReexecCommand exePath args selectedDevice) =
      some (exePath :: (args ++ appended args selectedDevice)) := by
  have hspells : ∀ ws : List Word, List.Forall₂ ShellWords.Spells (ws.map shellQuote) ws :=
    fun ws => List.forall₂_map_left_iff.2 (List.forall₂_same.2 fun w _ => spells_shellQuote w)
  rw [sgReexecCommand_eq, ShellWords.command, ShellWords.words_intercalate (hspells _)]
  exact Option.filter_some_pos (decide_eq_true habsolute)

section

variable [FlashParser] [LawfulFlashParser] {args : List Word} {m : FlashArgs} {device : Word}

/-- A device that is appended is found exactly where it can be. -/
theorem parse_appended (hargs : parse args = some m) (hnone : m.device = none) :
    (∃ m', parse (args ++ [deviceOption, device]) = some m' ∧ m'.device = some device) ↔
      twoHyphens ∉ args ∧ IsValue device := by
  constructor
  · rintro ⟨m', hparse, -⟩
    have hescaped : twoHyphens ∉ args := by
      intro hescaped
      rw [LawfulFlashParser.parse_escaped args m device hargs hescaped] at hparse
      cases hparse
    refine ⟨hescaped, ?_⟩
    by_contra hvalue
    rw [LawfulFlashParser.parse_hyphen args m device hargs hescaped hvalue] at hparse
    cases hparse
  · rintro ⟨hescaped, hvalue⟩
    refine ⟨{ m with device := some device }, ?_, rfl⟩
    rw [LawfulFlashParser.parse_device args m device hargs hescaped hvalue, if_pos hnone]

/-- **The invocation is reproduced** exactly where the test of the arguments agrees with the parser,
and a device that is appended can be. -/
theorem reproduces_iff (exePath : Word) (habsolute : exePath.head? = some '/') (args : List Word)
    (m : FlashArgs) (hargs : parse args = some m) (device : Word) :
    Reproduces exePath args device m ↔ Carried args device m := by
  have hwords : ∀ ws, ShellWords.command (sgReexecCommand exePath args (some device)) =
      some (exePath :: (args ++ ws)) ↔ appended args (some device) = ws := by
    intro ws
    rw [command_sgReexecCommand habsolute]
    simp only [Option.some.injEq, List.cons.injEq, true_and, List.append_cancel_left_eq]
  unfold Reproduces Carried
  dsimp only
  rw [hwords, appended]
  by_cases hnone : m.device = none
  · rw [if_pos hnone, if_pos hnone, hnone, Option.getD_none, parse_appended hargs hnone]
    refine and_congr_left fun _ => ?_
    cases hasDevice args <;> simp
  · obtain ⟨found, hfound⟩ := Option.ne_none_iff_exists'.1 hnone
    rw [if_neg hnone, if_neg hnone, List.append_nil, hargs]
    cases hasDevice args with
    | false => simp
    | true => exact ⟨fun _ => rfl, fun _ => ⟨rfl, m, rfl, by rw [hfound, Option.getD_some]⟩⟩

end

/-- An image whose name has a blank, and a device that was selected. -/
theorem reproduces_selected :
    @Reproduces plainFlashParser "/usr/local/bin/russignol".toList
      ["image".toList, "flash".toList, "my image.xz".toList] "/dev/sdc".toList
      (FlashArgs.ofGiven [] ["my image.xz".toList]) := by
  have hcarried : Carried ["image".toList, "flash".toList, "my image.xz".toList]
      "/dev/sdc".toList (FlashArgs.ofGiven [] ["my image.xz".toList]) := by
    unfold Carried
    decide +kernel
  exact (@reproduces_iff plainFlashParser plainFlashParser_lawful _ (by decide) _ _
    (by decide +kernel) _).2 hcarried

/-- A device that is given by its letter is appended once more. -/
theorem short_device_repeated : ¬ ∀ (exePath : Word) (args : List Word) (m : FlashArgs)
    (device : Word), exePath.head? = some '/' → plainParse args = some m →
      @Reproduces plainFlashParser exePath args device m := by
  intro hclaim
  have hwords := (hclaim "/usr/local/bin/russignol".toList
    ["image".toList, "flash".toList, "-d".toList, "/dev/sdc".toList]
    (FlashArgs.ofGiven [("device".toList, "/dev/sdc".toList)] []) "/dev/sdc".toList
    (by decide) (by decide +kernel)).1
  revert hwords
  decide +kernel

end Russignol.SgReexec
