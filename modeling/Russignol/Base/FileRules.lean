import Russignol.Base.FileStore

/-!
# Rules for programs over files

The crash triples of the operations of `FileStore`, of any predicates on what the files hold: each
operation may complete, fail or lose power, and whether it happened when it does not complete is
open.
-/

namespace FileStore

open CrashProgram

variable {P : Type} {A : Answer → Prop} {I : Files P → Prop} {C : Files P → Prop}

/-- An operation that leaves what the files hold, such as a change of permissions. -/
def touch : Fs P (Except IoError Unit) := op fun a s => a.take s s

/-- A change is taken, fails or loses power, and happens or does not where it is not taken. -/
theorem Answer.take_cases (a : Answer) (s s' : Files P) :
    a.take s s' = (some (.ok ()), s') ∨
      (∃ e, a.take s s' = (some (.error e), s) ∨ a.take s s' = (some (.error e), s')) ∨
      a.take s s' = (none, s) ∨ a.take s s' = (none, s') := by
  cases a with
  | ok => exact .inl rfl
  | failed e left =>
    obtain ⟨content, landed⟩ := left
    cases landed with
    | true => exact .inr (.inl ⟨e, .inr rfl⟩)
    | false => exact .inr (.inl ⟨e, .inl rfl⟩)
  | cut left =>
    obtain ⟨content, landed⟩ := left
    cases landed with
    | true => exact .inr (.inr (.inr rfl))
    | false => exact .inr (.inr (.inl rfl))

/-- An operation that changes nothing. -/
theorem touch_triple (hcut : ∀ s, I s → C s) : Triple A I (touch (P := P)) (fun _ => I) C := by
  refine Triple.op fun a _ s hs => ?_
  rcases a.take_cases s s with h | ⟨e, h | h⟩ | h | h
  all_goals rw [h]
  all_goals first | exact hs | exact hcut s hs

/-- Looking whether a path is there. -/
theorem pathExists_triple (p : P) :
    Triple A I (pathExists p) (fun b s => b = (s.content p).isSome ∧ I s) C :=
  Triple.read fun _ hs => ⟨rfl, hs⟩

/-- Reading a file, where no read is noted in `I`. -/
theorem readFile_triple (p : P) (hnote : ∀ s data, I s → I (s.noteRead p data)) :
    Triple A I (readFile p)
      (fun r s => (∀ data, r = .ok data → s.content p = some data) ∧ I s) C := by
  intro io s hio hs
  cases hp : s.content p with
  | none =>
    rw [run_readFile_none hp]
    refine ⟨hio, ?_, hs⟩
    intro data h
    cases h
  | some data =>
    rw [run_readFile hp]
    refine ⟨hio, ?_, hnote s data hs⟩
    intro data' h
    cases h
    exact hp

/-- Reading a file of files that are known. -/
theorem readFile_content_triple (p : P) (c : Content P) :
    Triple A (fun s => s.content = c) (readFile p)
      (fun r s => r = (c p).elim (.error noSuchFile) .ok ∧ s.content = c) C := by
  intro io s hio hs
  obtain rfl : s.content = c := hs
  cases hp : s.content p with
  | none =>
    rw [run_readFile_none hp]
    exact ⟨hio, rfl, rfl⟩
  | some data =>
    rw [run_readFile hp]
    exact ⟨hio, rfl, rfl⟩

section
variable [DecidableEq P]

/-- Writing a file: what is left of a write that does not complete is open. -/
theorem writeSync_triple {p : P} {data : List UInt8} {Q : Except IoError Unit → Files P → Prop}
    (hok : ∀ s, I s → Q (.ok ()) (s.set p (some data)))
    (herror : ∀ e content s, I s → Q (.error e) (s.set p content))
    (hcut : ∀ content s, I s → C (s.set p content)) : Triple A I (writeSync p data) Q C := by
  refine Triple.op fun a _ s hs => ?_
  cases a with
  | ok => exact hok s hs
  | failed e left => exact herror e left.content s hs
  | cut left => exact hcut left.content s hs

/-- Renaming a file that may be there. -/
theorem renameFile_triple {p q : P} {Q : Except IoError Unit → Files P → Prop}
    (hok : ∀ s, I s → (s.content p).isSome → Q (.ok ()) (s.move p q))
    (herror : ∀ e s, I s → Q (.error e) s ∧ ((s.content p).isSome → Q (.error e) (s.move p q)))
    (hcut : ∀ s, I s → C s ∧ ((s.content p).isSome → C (s.move p q))) :
    Triple A I (rename p q) Q C := by
  refine Triple.op fun a _ s hs => ?_
  by_cases hp : (s.content p).isSome
  · rw [if_pos hp]
    rcases a.take_cases s (s.move p q) with h | ⟨e, h | h⟩ | h | h
    all_goals rw [h]
    · exact hok s hs hp
    · exact (herror e s hs).1
    · exact (herror e s hs).2 hp
    · exact (hcut s hs).1
    · exact (hcut s hs).2 hp
  · rw [if_neg hp]
    cases a with
    | ok => exact (herror _ s hs).1
    | failed e left =>
      obtain ⟨content, landed⟩ := left
      cases landed <;> exact (herror e s hs).1
    | cut left =>
      obtain ⟨content, landed⟩ := left
      cases landed <;> exact (hcut s hs).1

/-- Unlinking a file that may be there. -/
theorem removeFile_triple {p : P} {Q : Except IoError Unit → Files P → Prop}
    (hok : ∀ s, I s → (s.content p).isSome → Q (.ok ()) (s.unlink p))
    (herror : ∀ e s, I s → Q (.error e) s ∧ ((s.content p).isSome → Q (.error e) (s.unlink p)))
    (hcut : ∀ s, I s → C s ∧ ((s.content p).isSome → C (s.unlink p))) :
    Triple A I (removeFile p) Q C := by
  refine Triple.op fun a _ s hs => ?_
  by_cases hp : (s.content p).isSome
  · rw [if_pos hp]
    rcases a.take_cases s (s.unlink p) with h | ⟨e, h | h⟩ | h | h
    all_goals rw [h]
    · exact hok s hs hp
    · exact (herror e s hs).1
    · exact (herror e s hs).2 hp
    · exact (hcut s hs).1
    · exact (hcut s hs).2 hp
  · rw [if_neg hp]
    cases a with
    | ok => exact (herror _ s hs).1
    | failed e left =>
      obtain ⟨content, landed⟩ := left
      cases landed <;> exact (herror e s hs).1
    | cut left =>
      obtain ⟨content, landed⟩ := left
      cases landed <;> exact (hcut s hs).1

namespace Files

variable (s : Files P) (p q : P)

/-- A path that is set. -/
@[simp] theorem set_content_self (content : Option (List UInt8)) :
    (s.set p content).content p = content := Function.update_self _ _ _

variable {p q}

/-- Another path. -/
theorem set_content_of_ne (h : q ≠ p) (content : Option (List UInt8)) :
    (s.set p content).content q = s.content q := Function.update_of_ne h _ _

/-- What was moved is at the new path. -/
theorem move_content_target (h : q ≠ p) : (s.move p q).content q = s.content p := by
  rw [move, set_content_of_ne _ h, set_content_self]

/-- A path that is neither. -/
theorem move_content_of_ne {r : P} (hp : r ≠ p) (hq : r ≠ q) :
    (s.move p q).content r = s.content r := by
  rw [move, set_content_of_ne _ hp, set_content_of_ne _ hq]

/-- A path that is not unlinked. -/
theorem unlink_content_of_ne (h : q ≠ p) : (s.unlink p).content q = s.content q :=
  Function.update_of_ne h _ _

end Files

/-! ## What a program leaves alone -/

/-- The files hold what they held, but for some paths. -/
def Same (ps : List P) (c : Content P) (s : Files P) : Prop := ∀ p ∉ ps, s.content p = c p

namespace Same

variable {ps qs : List P} {c : Content P} {s : Files P} {p q : P}

omit [DecidableEq P] in
theorem mono (h : Same ps c s) (hps : ps ⊆ qs) : Same qs c s :=
  fun p hp => h p fun hmem => hp (hps hmem)

theorem set (h : Same ps c s) (hp : p ∈ ps) (content : Option (List UInt8)) :
    Same ps c (s.set p content) := by
  intro q hq
  have hne : q ≠ p := fun heq => hq (heq ▸ hp)
  exact (s.set_content_of_ne hne content).trans (h q hq)

theorem move (h : Same ps c s) (hp : p ∈ ps) (hq : q ∈ ps) : Same ps c (s.move p q) :=
  (h.set hq (s.content p)).set hp none

end Same

/-- A call that fails on a file that is there does not say that it is not there. -/
def Answer.Honest : Answer → Prop
  | .failed e _ => e.kind ≠ .notFound
  | .ok | .cut _ => True

/-- A file that is unlinked, or was not there, is not there. -/
theorem removeFile_gone (p : P) (c : Content P) (hcut : ∀ s, C s) :
    Triple Answer.Honest (fun s => s.content = c) (removeFile p)
      (fun r s => (∀ e, r = .error e → e.kind = .notFound) → s.content p = none ∧ Same [p] c s)
      C := by
  refine Triple.op fun a ha s hs => ?_
  have hsame : Same [p] c s := fun q _ => congrFun hs q
  have hgone : (s.unlink p).content p = none ∧ Same [p] c (s.unlink p) :=
    ⟨Function.update_self _ _ _, hsame.set (List.mem_singleton_self p) none⟩
  have hdishonest : ∀ {e : IoError} {left : Residue}, Answer.failed e left = a →
      e.kind ≠ .notFound := by
    rintro e left rfl
    rcases ha with ha | ha
    · exact ha
    · cases ha
  by_cases hp : (s.content p).isSome
  · rw [if_pos hp]
    cases a with
    | ok => exact fun _ => hgone
    | failed e left => exact fun h => absurd (h e rfl) (hdishonest rfl)
    | cut left => exact hcut _
  · rw [if_neg hp]
    cases a with
    | ok => exact fun _ => ⟨Option.not_isSome_iff_eq_none.1 hp, hsame⟩
    | failed e left => exact fun h => absurd (h e rfl) (hdishonest rfl)
    | cut left => exact hcut _

end

end FileStore
