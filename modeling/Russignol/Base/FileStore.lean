import Mathlib.Logic.Function.Basic
import Russignol.Base.CrashProgram

/-!
# Files

The file system as a medium for `CrashProgram`: each path is absent or holds bytes. A write that
also syncs leaves, when it fails or power is lost, whatever it leaves; a rename and an unlink
happen or do not happen, whatever they report. What happened is durable and in order. A path that
is there can be read.

What was read and what was unlinked is kept in a trace that no operation reads. `Kept ps us`
says that only the paths in `ps` may have changed and only those in `us` been unlinked;
`Justified` that every event of a trace is allowed by the events before it.
-/

namespace FileStore

open CrashProgram

/-- `io::ErrorKind`, the kinds that programs tell apart. -/
inductive ErrorKind
  | notFound
  | invalidInput
  | invalidData
  | other
  deriving DecidableEq, Repr

/-- `io::Error`. -/
structure IoError where
  kind : ErrorKind
  text : String
  deriving DecidableEq, Repr

/-- What every path holds. -/
abbrev Content (P : Type) := P → Option (List UInt8)

/-- A read, with what it read, or an unlink, with the files before it. -/
inductive Event (P : Type)
  | read (p : P) (data : List UInt8)
  | unlinked (p : P) (before : Content P)

/-- A file system, with the trace of reads and unlinks, the latest first. -/
structure Files (P : Type) where
  content : Content P
  trace : List (Event P)

/-- What an operation that did not complete left behind: for a write the content, for a rename or
an unlink whether it happened. -/
structure Residue where
  content : Option (List UInt8)
  landed : Bool
  deriving DecidableEq

/-- What the medium answers. -/
inductive Answer
  | ok
  | failed (e : IoError) (left : Residue)
  | cut (left : Residue)
  deriving DecidableEq

instance : Inhabited Answer := ⟨.ok⟩

/-- Whether a rename or an unlink happens. -/
def Answer.taken : Answer → Bool
  | .ok => true
  | .failed _ left | .cut left => left.landed

/-- Power is there. -/
def Answer.Powered : Answer → Prop
  | .ok | .failed .. => True
  | .cut _ => False

instance : DecidablePred Answer.Powered
  | .ok | .failed .. => isTrue trivial
  | .cut _ => isFalse id

variable {P : Type}

/-- A program over files. -/
abbrev Fs (P α : Type) := Prog Answer (Files P) α

/-- Note a read. -/
def Files.noteRead (s : Files P) (p : P) (data : List UInt8) : Files P :=
  { s with trace := .read p data :: s.trace }

/-- An operation that happens or does not, under an answer. -/
def Answer.take (a : Answer) (s s' : Files P) : Option (Except IoError Unit) × Files P :=
  match a with
  | .ok => (some (.ok ()), s')
  | .failed e left => (some (.error e), if left.landed then s' else s)
  | .cut left => (none, if left.landed then s' else s)

/-- `Path::exists`. -/
def pathExists (p : P) : Fs P Bool := read fun s => (s.content p).isSome

/-- The error of a path that is not there. -/
def noSuchFile : IoError := ⟨.notFound, "No such file or directory (os error 2)"⟩

/-- `fs::read`. -/
def readFile (p : P) : Fs P (Except IoError (List UInt8)) := fun io s =>
  match s.content p with
  | some data => (some (.ok data), io, s.noteRead p data)
  | none => (some (.error noSuchFile), io, s)

/-- Syncing a directory, whose failure is ignored. -/
def syncDir : Fs P Unit := op fun a s =>
  match a with
  | .ok | .failed .. => (some (), s)
  | .cut _ => (none, s)

/-- A read, or an unlink of a path in `us`. -/
def Event.Minor (us : List P) : Event P → Prop
  | .read .. => True
  | .unlinked p _ => p ∈ us

/-- Only the paths in `ps` may have changed, and only those in `us` have been unlinked. -/
structure Kept (ps us : List P) (s s' : Files P) : Prop where
  content : ∀ p ∉ ps, s'.content p = s.content p
  trace : ∃ events, (∀ e ∈ events, e.Minor us) ∧ s'.trace = events ++ s.trace

namespace Kept

variable {ps qs us vs : List P} {s s' s'' : Files P}

/-- Where nothing happened, everything is kept. -/
theorem refl (ps us : List P) (s : Files P) : Kept ps us s s :=
  ⟨fun _ _ => rfl, [], nofun, rfl⟩

/-- What both of two parts keep is kept by the two. -/
theorem trans (h : Kept ps us s s') (h' : Kept ps us s' s'') : Kept ps us s s'' := by
  obtain ⟨hc, events, hevents, htrace⟩ := h
  obtain ⟨hc', events', hevents', htrace'⟩ := h'
  refine ⟨fun p hp => (hc' p hp).trans (hc p hp), events' ++ events, ?_, ?_⟩
  · intro e he
    rcases List.mem_append.1 he with he | he
    · exact hevents' e he
    · exact hevents e he
  · rw [htrace', htrace, List.append_assoc]

/-- More files may be left out of what is kept. -/
theorem mono (h : Kept ps us s s') (hps : ps ⊆ qs) (hus : us ⊆ vs) : Kept qs vs s s' := by
  obtain ⟨hc, events, hevents, htrace⟩ := h
  refine ⟨fun p hp => hc p fun hmem => hp (hps hmem), events, fun e he => ?_, htrace⟩
  cases e with
  | read => trivial
  | unlinked p before => exact hus (hevents _ he)

/-- A read is noted, and every file kept. -/
theorem noteRead (ps us : List P) (s : Files P) (p : P) (data : List UInt8) :
    Kept ps us s (s.noteRead p data) := by
  refine ⟨fun _ _ => rfl, [.read p data], fun e he => ?_, rfl⟩
  rw [List.mem_singleton.1 he]
  trivial

/-- Where nothing may have changed nothing has. -/
theorem content_eq (h : Kept [] us s s') : s'.content = s.content :=
  funext fun p => h.content p List.not_mem_nil

/-- A change of nothing and a further change. -/
theorem after (h : Kept [] [] s s') (h' : Kept ps us s' s'') : Kept ps us s s'' :=
  (h.mono (List.nil_subset _) (List.nil_subset _)).trans h'

end Kept

/-- Every event of a trace is allowed by the events before it. -/
def Justified (allowed : Event P → List (Event P) → Prop) : List (Event P) → Prop
  | [] => True
  | e :: before => allowed e before ∧ Justified allowed before

/-- Events that are always allowed can be added. -/
theorem Justified.append {allowed : Event P → List (Event P) → Prop} {events before : List (Event P)}
    (hevents : ∀ e ∈ events, ∀ before, allowed e before) (h : Justified allowed before) :
    Justified allowed (events ++ before) := by
  induction events with
  | nil => exact h
  | cons e events ih =>
    exact ⟨hevents e List.mem_cons_self _, ih fun e' he' => hevents e' (List.mem_cons_of_mem _ he')⟩

/-- What a justified trace says of each of its events. -/
theorem Justified.of_suffix {allowed : Event P → List (Event P) → Prop} {e : Event P}
    {before trace : List (Event P)} (h : Justified allowed trace) (hmem : e :: before <:+ trace) :
    allowed e before := by
  induction trace with
  | nil => exact absurd (List.suffix_nil.1 hmem) (List.cons_ne_nil _ _)
  | cons e' trace ih =>
    rcases List.suffix_cons_iff.1 hmem with heq | hmem
    · cases heq
      exact h.1
    · exact ih h.2 hmem

/-- A file is there or not, and asking changes nothing. -/
@[simp] theorem run_pathExists (p : P) (io : List Answer) (s : Files P) :
    (pathExists p).run io s = (some (s.content p).isSome, io, s) := rfl

/-- A read that is noted changes no file. -/
@[simp] theorem noteRead_content (s : Files P) (p : P) (data : List UInt8) :
    (s.noteRead p data).content = s.content := rfl

/-- Reading a path that is there. -/
theorem run_readFile {p : P} {data : List UInt8} {s : Files P} (h : s.content p = some data)
    (io : List Answer) : (readFile p).run io s = (some (.ok data), io, s.noteRead p data) := by
  rw [Prog.run, readFile, h]

/-- Reading a path that is not there. -/
theorem run_readFile_none {p : P} {s : Files P} (h : s.content p = none) (io : List Answer) :
    (readFile p).run io s = (some (.error noSuchFile), io, s) := by
  rw [Prog.run, readFile, h]

/-- A program returns while power is there. -/
def Returns {α : Type} (m : Fs P α) : Prop :=
  Triple Answer.Powered (fun _ => True) m (fun _ _ => True) fun _ => False

namespace Returns

variable {α β : Type}

/-- What returns has a result where the power stays on. -/
theorem run {m : Fs P α} (h : Returns m) {io : List Answer} (hio : ∀ a ∈ io, a.Powered)
    (s : Files P) : ∃ a, (m.run io s).1 = some a := by
  rcases Triple.run h hio (s := s) trivial with ⟨a, ha, -⟩ | ⟨-, hfalse⟩
  · exact ⟨a, ha⟩
  · exact hfalse.elim

/-- A value returns. -/
theorem pure (a : α) : Returns (Pure.pure a : Fs P α) := Triple.pure fun _ _ => trivial

/-- Two parts that return do so one after the other. -/
theorem bind {m : Fs P α} {f : α → Fs P β} (hm : Returns m) (hf : ∀ a, Returns (f a)) :
    Returns (m >>= f) := Triple.bind hm hf

/-- Asking for a file returns. -/
theorem pathExists (p : P) : Returns (pathExists p) := Triple.read fun _ _ => trivial

/-- Reading a file returns. -/
theorem readFile (p : P) : Returns (readFile p) := by
  intro io s hio _
  rw [Prog.run, FileStore.readFile]
  cases s.content p <;> exact ⟨hio, trivial⟩

/-- An operation that loses power only when the answer says so. -/
theorem op {f : Answer → Files P → Option α × Files P}
    (h : ∀ a s, a.Powered → (f a s).1 ≠ none) : Returns (CrashProgram.op f) := by
  refine Triple.op fun a ha s _ => ?_
  have hpowered : a.Powered := by
    rcases ha with ha | rfl
    · exact ha
    · trivial
  rcases hf : f a s with ⟨_ | b, t⟩
  · exact absurd (congrArg Prod.fst hf) (h a s hpowered)
  · trivial

/-- A sync of the directory returns. -/
theorem syncDir : Returns (P := P) syncDir := by
  refine op fun a s ha => ?_
  cases a with
  | ok | failed => nofun
  | cut => exact ha.elim

end Returns

/-- While power is there an operation that is taken or not reports. -/
theorem Answer.take_fst {a : Answer} (ha : a.Powered) (s s' : Files P) : (a.take s s').1 ≠ none := by
  cases a with
  | ok | failed => nofun
  | cut => exact ha.elim

/-- The state that an operation that is taken or not leaves. -/
theorem Answer.take_snd (a : Answer) (s s' : Files P) :
    (a.take s s').2 = if a.taken then s' else s := by cases a <;> rfl

/-- Whatever is answered, an operation that is taken or not leaves one of the two states. -/
theorem Answer.take_snd_or (a : Answer) (s s' : Files P) :
    (a.take s s').2 = s ∨ (a.take s s').2 = s' := by
  rw [take_snd]
  cases a.taken
  · exact .inl rfl
  · exact .inr rfl

section
variable [DecidableEq P]

namespace Files

/-- Replace what a path holds. -/
def set (s : Files P) (p : P) (content : Option (List UInt8)) : Files P :=
  { s with content := Function.update s.content p content }

/-- Move a file over another. -/
def move (s : Files P) (p q : P) : Files P := (s.set q (s.content p)).set p none

/-- Unlink a path. -/
def unlink (s : Files P) (p : P) : Files P where
  content := Function.update s.content p none
  trace := .unlinked p s.content :: s.trace

end Files

/-- `File::create`, `write_all` and `sync_all`. -/
def writeSync (p : P) (data : List UInt8) : Fs P (Except IoError Unit) := op fun a s =>
  match a with
  | .ok => (some (.ok ()), s.set p (some data))
  | .failed e left => (some (.error e), s.set p left.content)
  | .cut left => (none, s.set p left.content)

/-- `fs::rename`. -/
def rename (p q : P) : Fs P (Except IoError Unit) := op fun a s =>
  if (s.content p).isSome then a.take s (s.move p q)
  else
    match a with
    | .ok => (some (.error noSuchFile), s)
    | a => a.take s s

/-- `fs::remove_file`. -/
def removeFile (p : P) : Fs P (Except IoError Unit) := op fun a s =>
  if (s.content p).isSome then a.take s (s.unlink p)
  else
    match a with
    | .ok => (some (.error noSuchFile), s)
    | a => a.take s s

namespace Kept

variable {ps us : List P} {p q : P}

/-- Setting a file keeps the others. -/
theorem set (us : List P) (hp : p ∈ ps) (s : Files P) (content : Option (List UInt8)) :
    Kept ps us s (s.set p content) := by
  refine ⟨fun q hq => ?_, [], nofun, rfl⟩
  have hne : q ≠ p := fun heq => hq (by rwa [heq])
  exact Function.update_of_ne hne _ _

/-- A move keeps the files other than its two. -/
theorem move (us : List P) (hp : p ∈ ps) (hq : q ∈ ps) (s : Files P) :
    Kept ps us s (s.move p q) :=
  (set us hq s _).trans (set us hp _ _)

/-- A removal keeps the files other than the one it removes. -/
theorem unlink (hp : p ∈ ps) (hu : p ∈ us) (s : Files P) : Kept ps us s (s.unlink p) := by
  refine ⟨(set us hp s none).content, [.unlinked p s.content], fun e he => ?_, rfl⟩
  rw [List.mem_singleton.1 he]
  exact hu

end Kept

namespace Returns

/-- A write with its sync returns. -/
theorem writeSync (p : P) (data : List UInt8) : Returns (writeSync p data) := by
  refine op fun a s ha => ?_
  cases a with
  | ok | failed => nofun
  | cut => exact ha.elim

/-- A rename returns. -/
theorem rename (p q : P) : Returns (rename p q) := by
  refine op fun a s ha => ?_
  split
  · exact Answer.take_fst ha _ _
  · cases a with
    | ok => nofun
    | failed | cut => exact Answer.take_fst ha _ _

/-- A removal returns. -/
theorem removeFile (p : P) : Returns (removeFile p) := by
  refine op fun a s ha => ?_
  split
  · exact Answer.take_fst ha _ _
  · cases a with
    | ok => nofun
    | failed | cut => exact Answer.take_fst ha _ _

end Returns

/-- Unlinking a path that is there. -/
theorem run_removeFile {p : P} {s : Files P} (h : (s.content p).isSome) (io : List Answer) :
    (removeFile p).run io s =
      (((next io).take s (s.unlink p)).1, io.tail, ((next io).take s (s.unlink p)).2) := by
  rw [removeFile, run_op, if_pos h]

/-- Unlinking a path that may not be there. -/
theorem removeFile_kept (p : P) (io : List Answer) (s : Files P) :
    Kept [p] [p] s ((removeFile p).run io s).2.2 := by
  have htake : ∀ s', Kept [p] [p] s s' → Kept [p] [p] s ((next io).take s s').2 := by
    intro s' hkept
    rw [Answer.take_snd]
    split
    · exact hkept
    · exact Kept.refl _ _ s
  rw [removeFile, run_op]
  by_cases h : (s.content p).isSome
  · rw [if_pos h]
    exact htake _ (Kept.unlink (List.mem_singleton.2 rfl) (List.mem_singleton.2 rfl) s)
  · rw [if_neg h]
    have hsame := htake s (Kept.refl _ _ s)
    cases hio : next io with
    | ok => exact Kept.refl _ _ s
    | failed | cut =>
      rw [hio] at hsame
      exact hsame

end

end FileStore
