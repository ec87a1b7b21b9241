import Mathlib.Data.List.Basic
import Mathlib.Tactic.Common
import Russignol.Base.Automaton

/-!
# The rotating log

`RotatingWriter` of `rpi-signer/src/log_writer.rs`: where a write would take the log past its
maximal size, the file is renamed and a new one is opened. A rename that fails leaves everything as
it was. An open that fails after its rename leaves the handle on the renamed file and nothing at the
path, so that every later rename fails too and the renamed file grows (`run_moved`).
`rotating_log_bounded` says what holds where that does not happen.

The kernel's answers are inputs (`LogIo`). Flushing a file does nothing and cannot fail; a poisoned
lock is left out.
-/

namespace Russignol

/-- `MAX_LOG_SIZE`. -/
def maxLogSize : Nat := 512 * 1024

/-- The two files, by where the file of the handle is. -/
inductive LogFiles
  /-- It is at `path`; the rotated one, if there is one, is at `old_path`. -/
  | atPath (current : List UInt8) (old : Option (List UInt8))
  /-- It was renamed to `old_path`, and there is nothing at `path`. -/
  | moved (old : List UInt8)
  deriving DecidableEq, Repr

/-- `Inner`, with the files. -/
structure LogWriter where
  files : LogFiles
  bytesWritten : Nat
  deriving DecidableEq, Repr

/-- How the calls of one write end: the rename, the open after it, and the write itself, which takes
some of the bytes or fails. -/
structure LogIo where
  rename : Bool
  openNew : Bool
  written : Option Nat
  deriving DecidableEq, Repr

namespace LogFiles

/-- `File::write`, of the bytes that are taken. -/
def append (bytes : List UInt8) : LogFiles → LogFiles
  | atPath current old => atPath (current ++ bytes) old
  | moved old => moved (old ++ bytes)

/-- The bytes on disk. -/
def size : LogFiles → Nat
  | atPath current old => current.length + (old.getD []).length
  | moved old => old.length

/-- The rotated file and the current one after it. -/
def contents : LogFiles → List UInt8
  | atPath current old => old.getD [] ++ current
  | moved old => old

end LogFiles

/-- A write, with what becomes of its calls. -/
structure LogWrite where
  buf : List UInt8
  io : LogIo
  deriving DecidableEq, Repr

/-- The bytes that the file takes of a write. -/
def LogWrite.accepted (a : LogWrite) : List UInt8 :=
  match a.io.written with
  | some n => a.buf.take n
  | none => []

namespace LogWriter

/-- `RotatingWriter::new`, over what is at the two paths; the size of the file is read, or not. -/
def new (metadata : Bool) (current old : Option (List UInt8)) : LogWriter where
  files := .atPath (current.getD []) old
  bytesWritten := if metadata then (current.getD []).length else 0

/-- `rotate`: the writer after it, and whether it was done. -/
def rotate (io : LogIo) (w : LogWriter) : LogWriter × Bool :=
  match w.files with
  -- there is nothing to rename
  | .moved _ => (w, false)
  | .atPath current _ =>
    if io.rename then
      if io.openNew then (⟨.atPath [] (some current), 0⟩, true)
      else ({ w with files := .moved current }, false)
    else (w, false)

/-- A write would take the log past its size. -/
def Due (maxSize : Nat) (w : LogWriter) (buf : List UInt8) : Prop :=
  maxSize < w.bytesWritten + buf.length

instance (maxSize : Nat) (w : LogWriter) (buf : List UInt8) : Decidable (w.Due maxSize buf) :=
  inferInstanceAs (Decidable (_ < _))

/-- `write_with_rotation`: the writer after it, and what it returns. -/
def writeWithRotation (maxSize : Nat) (a : LogWrite) (w : LogWriter) : LogWriter × Nat :=
  let w := if w.Due maxSize a.buf then (w.rotate a.io).1 else w
  match a.io.written with
  | some n =>
    (⟨w.files.append (a.buf.take n), w.bytesWritten + (a.buf.take n).length⟩, (a.buf.take n).length)
  -- logging must not stop the signer
  | none => (w, a.buf.length)

/-- A write leaves the writer with the bytes the file took. -/
theorem writeWithRotation_fst (maxSize : Nat) (a : LogWrite) (w : LogWriter) :
    (w.writeWithRotation maxSize a).1 =
      let w := if w.Due maxSize a.buf then (w.rotate a.io).1 else w
      ⟨w.files.append a.accepted, w.bytesWritten + a.accepted.length⟩ := by
  unfold writeWithRotation LogWrite.accepted
  cases a.io.written with
  | some n => rfl
  | none =>
    dsimp only
    split
    · cases (w.rotate a.io).1 with
      | mk files bytesWritten => cases files <;> simp [LogFiles.append]
    · cases w with
      | mk files bytesWritten => cases files <;> simp [LogFiles.append]

theorem length_accepted_le (a : LogWrite) : a.accepted.length ≤ a.buf.length := by
  unfold LogWrite.accepted
  split
  · exact List.length_take_le' _ _
  · exact Nat.zero_le _

end LogWriter

/-! ## Runs -/

/-- The writer, and the rotations that failed since the last one that was done. -/
structure Log where
  writer : LogWriter
  failed : Nat
  deriving DecidableEq, Repr

namespace Log

open LogWriter

/-- The log after `RotatingWriter::new`. -/
def start (metadata : Bool) (current old : Option (List UInt8)) : Log :=
  ⟨LogWriter.new metadata current old, 0⟩

/-- A write. -/
def step (maxSize : Nat) (s : Log) (a : LogWrite) : Option Log :=
  some {
    writer := (s.writer.writeWithRotation maxSize a).1
    failed :=
      if s.writer.Due maxSize a.buf then
        if (s.writer.rotate a.io).2 then 0 else s.failed + 1
      else s.failed }

/-- A write of at most the maximal size, whose rotation, if one is due, does not fail between the
rename and the open, and fails at the rename for the `limit`th time in a row at most. -/
structure Tolerated (maxSize limit : Nat) (s : Log) (a : LogWrite) : Prop where
  fits : a.buf.length ≤ maxSize
  opened : s.writer.Due maxSize a.buf → a.io.rename = true → a.io.openNew = true
  renamed : s.writer.Due maxSize a.buf → a.io.rename = false → s.failed < limit

instance (maxSize limit : Nat) (s : Log) (a : LogWrite) : Decidable (s.Tolerated maxSize limit a) :=
  decidable_of_iff (a.buf.length ≤ maxSize ∧
      (s.writer.Due maxSize a.buf → a.io.rename = true → a.io.openNew = true) ∧
      (s.writer.Due maxSize a.buf → a.io.rename = false → s.failed < limit))
    ⟨fun h => ⟨h.1, h.2.1, h.2.2⟩, fun h => ⟨h.fits, h.opened, h.renamed⟩⟩

/-- What holds between two writes: the handle is on the file at the path, the counter is short of
its size by what was there at the start at most, neither file is past its share, and the two are the
end of what was written. -/
structure Inv (maxSize limit initial : Nat) (stream : List UInt8) (s : Log) (current : List UInt8)
    (old : Option (List UInt8)) : Prop where
  files : s.writer.files = .atPath current old
  tolerated : s.failed ≤ limit
  counted : current.length ≤ s.writer.bytesWritten + initial
  bounded : current.length ≤ (s.failed + 1) * maxSize + initial
  rotated : (old.getD []).length ≤ (limit + 1) * maxSize + initial
  suffix : old.getD [] ++ current <:+ stream

variable {maxSize limit initial : Nat} {stream current : List UInt8} {old : Option (List UInt8)}
  {s t : Log}

/-- **One write** keeps it. -/
theorem Inv.step (h : s.Inv maxSize limit initial stream current old) {a : LogWrite}
    (htolerated : s.Tolerated maxSize limit a) (hstep : s.step maxSize a = some t) :
    ∃ current' old', t.Inv maxSize limit initial (stream ++ a.accepted) current' old' := by
  have haccepted := Nat.le_trans (length_accepted_le a) htolerated.fits
  have hgrown : old.getD [] ++ (current ++ a.accepted) <:+ stream ++ a.accepted := by
    obtain ⟨before, hbefore⟩ := h.suffix
    refine ⟨before, ?_⟩
    rw [← hbefore]
    simp only [List.append_assoc]
  cases hstep
  by_cases hdue : s.writer.Due maxSize a.buf
  · cases hrename : a.io.rename with
    | true =>
      have hopen := htolerated.opened hdue hrename
      have hrotate : s.writer.rotate a.io = (⟨.atPath [] (some current), 0⟩, true) := by
        simp only [rotate, h.files, hrename, hopen, if_true]
      have hlimit : (s.failed + 1) * maxSize ≤ (limit + 1) * maxSize :=
        Nat.mul_le_mul_right _ (Nat.succ_le_succ h.tolerated)
      refine ⟨a.accepted, some current, ?_, ?_, ?_, ?_, ?_, ?_⟩
      · rw [writeWithRotation_fst, if_pos hdue, hrotate]
        rfl
      · simp [hdue, hrotate]
      · rw [writeWithRotation_fst, if_pos hdue, hrotate]
        simp
      · simp only [hdue, hrotate, if_true]
        omega
      · exact Nat.le_trans h.bounded (Nat.add_le_add_right hlimit _)
      · obtain ⟨before, hbefore⟩ := h.suffix
        refine ⟨before ++ old.getD [], ?_⟩
        rw [← hbefore]
        simp
    | false =>
      have hrotate : s.writer.rotate a.io = (s.writer, false) := by
        simp only [rotate, h.files, hrename, Bool.false_eq_true, if_false]
      have hfailed := htolerated.renamed hdue hrename
      refine ⟨current ++ a.accepted, old, ?_, ?_, ?_, ?_, h.rotated, hgrown⟩
      · rw [writeWithRotation_fst, if_pos hdue, hrotate]
        exact congrArg (LogFiles.append a.accepted) h.files
      · simp only [hdue, hrotate, if_true, Bool.false_eq_true, if_false]
        omega
      · rw [writeWithRotation_fst, if_pos hdue, hrotate, List.length_append]
        have := h.counted
        dsimp only
        omega
      · simp only [hdue, hrotate, if_true, Bool.false_eq_true, if_false, List.length_append]
        have := h.bounded
        rw [Nat.succ_mul]
        omega
  · refine ⟨current ++ a.accepted, old, ?_, ?_, ?_, ?_, h.rotated, hgrown⟩
    · rw [writeWithRotation_fst, if_neg hdue]
      exact congrArg (LogFiles.append a.accepted) h.files
    · simp only [hdue, if_false]
      exact h.tolerated
    · rw [writeWithRotation_fst, if_neg hdue, List.length_append]
      have := h.counted
      dsimp only
      omega
    · simp only [hdue, if_false, List.length_append]
      have hcounted := h.counted
      have hroom := Nat.not_lt.1 hdue
      have hpart := length_accepted_le a
      rw [Nat.succ_mul]
      omega

/-- **A run** keeps it. -/
theorem Inv.run : ∀ {acts : List LogWrite} {s : Log} {stream current : List UInt8}
    {old : Option (List UInt8)}, s.Inv maxSize limit initial stream current old →
    Automaton.Along (Log.step maxSize) (Tolerated maxSize limit) s acts →
    Automaton.run (Log.step maxSize) s acts = some t →
    ∃ current' old',
      t.Inv maxSize limit initial (stream ++ acts.flatMap LogWrite.accepted) current' old'
  | [], s, stream, current, old, h, _, hrun => by
    cases hrun
    rw [List.flatMap_nil, List.append_nil]
    exact ⟨current, old, h⟩
  | a :: acts, s, stream, current, old, h, htolerated, hrun => by
    obtain ⟨u, hstep, hrest⟩ := Automaton.run_cons.1 hrun
    obtain ⟨current', old', hnext⟩ := h.step htolerated.1 hstep
    rw [List.flatMap_cons, ← List.append_assoc]
    exact hnext.run (htolerated.2 u hstep) hrest

/-- What was there at the start. -/
theorem start_inv (maxSize limit : Nat) (metadata : Bool) (current old : Option (List UInt8)) :
    (start metadata current old).Inv maxSize limit
      ((current.getD []).length + (old.getD []).length) (old.getD [] ++ current.getD [])
      (current.getD []) old where
  files := rfl
  tolerated := Nat.zero_le _
  counted := by omega
  bounded := by omega
  rotated := by omega
  suffix := List.suffix_refl _

/-- **The rotating log.** In every run in which no open fails after its rename, and no more than
`limit` rotations in a row fail at the rename, the two files stay within a multiple of the maximal
size and what was there at the start; a rotation whose calls do not fail is done; and the rotated
file with the current one after it is the end of what was written. -/
theorem rotating_log_bounded (maxSize limit : Nat) (metadata : Bool)
    (current old : Option (List UInt8)) (acts : List LogWrite) (s : Log)
    (htolerated : Automaton.Along (step maxSize) (Tolerated maxSize limit)
      (start metadata current old) acts)
    (h : Automaton.run (step maxSize) (start metadata current old) acts = some s) :
    s.writer.files.size ≤
      2 * (limit + 1) * (maxSize + (current.getD []).length + (old.getD []).length) ∧
    (∀ io, io.rename = true → io.openNew = true → ∃ rotated,
      s.writer.rotate io = (⟨.atPath [] (some rotated), 0⟩, true)) ∧
    s.writer.files.contents <:+
      old.getD [] ++ current.getD [] ++ acts.flatMap LogWrite.accepted := by
  obtain ⟨current', old', hinv⟩ := (start_inv maxSize limit metadata current old).run htolerated h
  refine ⟨?_, fun io hrename hopen => ⟨current', ?_⟩, ?_⟩
  · obtain ⟨initial, hinitial⟩ :
        ∃ n, n = (current.getD []).length + (old.getD []).length := ⟨_, rfl⟩
    have hbounded := hinv.bounded
    have hrotated := hinv.rotated
    rw [← hinitial] at hbounded hrotated
    have hfailed : (s.failed + 1) * maxSize ≤ (limit + 1) * maxSize :=
      Nat.mul_le_mul_right _ (Nat.succ_le_succ hinv.tolerated)
    have hstart : initial ≤ (limit + 1) * initial := Nat.le_mul_of_pos_left _ (Nat.succ_pos _)
    have hshare : 2 * (limit + 1) * (maxSize + (current.getD []).length + (old.getD []).length) =
        2 * ((limit + 1) * maxSize) + 2 * ((limit + 1) * initial) := by
      rw [Nat.add_assoc, ← hinitial, Nat.mul_assoc, Nat.mul_add, Nat.mul_add]
    rw [hshare, hinv.files, LogFiles.size]
    omega
  · simp only [rotate, hinv.files, hrename, hopen, if_true]
  · rw [hinv.files]
    exact hinv.suffix

/-- Three writes of a log of ten bytes, of which the second finds the rename failing. -/
def rotationRun : List LogWrite :=
  [⟨List.replicate 8 97, ⟨true, true, some 8⟩⟩, ⟨List.replicate 5 98, ⟨false, true, some 5⟩⟩,
    ⟨List.replicate 4 99, ⟨true, true, some 4⟩⟩]

/-- They stay within four times the size. -/
theorem rotating_log_bounded_three : ∃ s,
    Automaton.run (step 10) (start true none none) rotationRun = some s ∧
      s.writer.files.size ≤ 40 ∧ s.writer.files.contents <:+ rotationRun.flatMap (·.buf) := by
  obtain ⟨s, hs⟩ : ∃ s, Automaton.run (step 10) (start true none none) rotationRun = some s :=
    ⟨_, rfl⟩
  obtain ⟨hsize, -, hcontents⟩ := rotating_log_bounded 10 1 true none none rotationRun s
    (by decide +kernel) hs
  exact ⟨s, hs, hsize, hcontents⟩

/-! ## After an open that failed -/

/-- **Nothing is rotated once an open failed**: whatever the kernel answers from then on, the
renamed file takes every byte. -/
theorem run_moved : ∀ {acts : List LogWrite} {s t : Log} {old : List UInt8},
    s.writer.files = .moved old → Automaton.run (step maxSize) s acts = some t →
    t.writer.files = .moved (old ++ acts.flatMap LogWrite.accepted)
  | [], s, t, old, hmoved, hrun => by
    cases hrun
    rw [hmoved, List.flatMap_nil, List.append_nil]
  | a :: acts, s, t, old, hmoved, hrun => by
    obtain ⟨u, hstep, hrest⟩ := Automaton.run_cons.1 hrun
    have hrotate : s.writer.rotate a.io = (s.writer, false) := by simp only [rotate, hmoved]
    have hnext : u.writer.files = .moved (old ++ a.accepted) := by
      cases hstep
      dsimp only
      rw [writeWithRotation_fst, hrotate, ite_self]
      exact congrArg (LogFiles.append a.accepted) hmoved
    rw [List.flatMap_cons, ← List.append_assoc]
    exact run_moved hnext hrest

/-- A write is never refused. -/
theorem run_total : ∀ (acts : List LogWrite) (s : Log),
    ∃ t, Automaton.run (step maxSize) s acts = some t
  | [], s => ⟨s, rfl⟩
  | _ :: acts, _ => by
    obtain ⟨t, hrun⟩ := run_total acts _
    exact ⟨t, Automaton.run_cons.2 ⟨_, rfl, hrun⟩⟩

/-- A write of the maximal size that the file takes whole, with how the open after a rename ends. -/
def fullWrite (maxSize : Nat) (openNew : Bool) : LogWrite :=
  ⟨List.replicate maxSize 0, ⟨true, openNew, some maxSize⟩⟩

/-- Writes of the maximal size, of which the second finds the open failing after its rename. -/
def stuckRun (maxSize n : Nat) : List LogWrite :=
  fullWrite maxSize true :: fullWrite maxSize false :: List.replicate n (fullWrite maxSize true)

@[simp] theorem length_fullWrite (maxSize : Nat) (openNew : Bool) :
    (fullWrite maxSize openNew).accepted.length = maxSize := by
  simp [fullWrite, LogWrite.accepted]

/-- What a number of them add. -/
theorem length_accepted_replicate (maxSize n : Nat) (openNew : Bool) :
    ((List.replicate n (fullWrite maxSize openNew)).flatMap LogWrite.accepted).length =
      n * maxSize := by
  induction n with
  | zero => rw [List.replicate_zero, List.flatMap_nil, List.length_nil, Nat.zero_mul]
  | succ n ih =>
    rw [List.replicate_succ, List.flatMap_cons, List.length_append, ih, length_fullWrite,
      Nat.succ_mul, Nat.add_comm]

/-- The writes after the second all go to the renamed file. -/
theorem stuckRun_grows (hpos : 0 < maxSize) (n : Nat) : ∃ s,
    Automaton.run (step maxSize) (start true none none) (stuckRun maxSize n) = some s ∧
      s.writer.files.size = (n + 2) * maxSize := by
  obtain ⟨first, hfirst⟩ :
      ∃ s, step maxSize (start true none none) (fullWrite maxSize true) = some s := ⟨_, rfl⟩
  have hfull : first.writer = ⟨.atPath (fullWrite maxSize true).accepted none, maxSize⟩ := by
    have hdue : ¬(LogWriter.new true none none).Due maxSize (fullWrite maxSize true).buf := by
      simp [Due, LogWriter.new, fullWrite]
    cases hfirst
    dsimp only [start]
    rw [writeWithRotation_fst, if_neg hdue, length_fullWrite]
    simp [LogWriter.new, LogFiles.append]
  obtain ⟨second, hsecond⟩ : ∃ s, step maxSize first (fullWrite maxSize false) = some s := ⟨_, rfl⟩
  have hmoved : second.writer.files =
      .moved ((fullWrite maxSize true).accepted ++ (fullWrite maxSize false).accepted) := by
    have hdue : first.writer.Due maxSize (fullWrite maxSize false).buf := by
      simp only [Due, hfull, fullWrite, List.length_replicate]
      omega
    cases hsecond
    dsimp only
    rw [writeWithRotation_fst, if_pos hdue, hfull]
    rfl
  obtain ⟨s, hrest⟩ := run_total (List.replicate n (fullWrite maxSize true)) second
  refine ⟨s, Automaton.run_cons.2 ⟨_, hfirst, Automaton.run_cons.2 ⟨_, hsecond, hrest⟩⟩, ?_⟩
  rw [run_moved hmoved hrest, LogFiles.size, List.length_append, List.length_append,
    length_fullWrite, length_fullWrite, length_accepted_replicate, Nat.add_mul]
  omega

/-- **One failure, and the log is past every multiple of its size.** -/
theorem rotating_log_unbounded : ¬∃ k, ∀ (acts : List LogWrite) (s : Log),
    (∀ a ∈ acts, a.buf.length ≤ maxLogSize) →
    Automaton.run (step maxLogSize) (start true none none) acts = some s →
      s.writer.files.size ≤ k * maxLogSize := by
  rintro ⟨k, hall⟩
  have hpos : 0 < maxLogSize := Nat.mul_pos (by decide) (by decide)
  obtain ⟨s, hrun, hsize⟩ := stuckRun_grows hpos k
  have hfits : ∀ a ∈ stuckRun maxLogSize k, a.buf.length ≤ maxLogSize := by
    intro a ha
    rcases List.mem_cons.1 ha with rfl | ha
    · exact Nat.le_of_eq List.length_replicate
    rcases List.mem_cons.1 ha with rfl | ha
    · exact Nat.le_of_eq List.length_replicate
    · rw [List.eq_of_mem_replicate ha]
      exact Nat.le_of_eq List.length_replicate
  have hle := hall _ s hfits hrun
  rw [hsize, Nat.add_mul] at hle
  omega

end Log

end Russignol
