import Mathlib.Data.List.Basic
import Mathlib.Tactic.Common

/-!
# Byte sinks

A sink is handed a buffer and says how many of its bytes it took. `writeAll` hands it the rest until
nothing is left, `writeChunks` one buffer after another. What the outside does at each call is an
`Answer`, so that a run is a function of its answers.

`pipe` keeps what it takes: whatever the answers, that is a beginning of the chunks
(`writeChunks_pipe`), and all of them when the run is done. A sink that acts on another as on its own
(`Over`) ends as the other does (`Over.writeChunks`), and what every call keeps is kept along a run
(`Keeps.writeChunks`).
-/

namespace ByteSink

variable {σ τ ε : Type}

/-- What the outside does at a call. -/
inductive Answer (ε : Type)
  /-- It takes the bytes, no more than so many. -/
  | takes (n : Nat)
  | interrupted
  | fails (e : ε)

/-- A call that fails. -/
inductive Error (ε : Type)
  | interrupted
  | writeZero
  | failed (e : ε)

/-- One call: how many bytes were taken, or the error, and the sink after it. -/
abbrev Write (σ ε : Type) := Answer ε → List UInt8 → σ → Except (Error ε) Nat × σ

/-- The sink that keeps what it takes. -/
def pipe : Write (List UInt8) ε
  | .takes n, buf, taken => (.ok (min n buf.length), taken ++ buf.take n)
  | .interrupted, _, taken => (.error .interrupted, taken)
  | .fails e, _, taken => (.error (.failed e), taken)

/-- How a run ends. -/
inductive Ending (ε : Type)
  | done
  /-- The run waits for its next answer. -/
  | waiting
  | failed (e : Error ε)

/-- Handing over a buffer: an interrupted call is made again, and one that takes nothing is an
error. -/
def writeAll (write : Write σ ε) : List (Answer ε) → List UInt8 → σ →
    Ending ε × List (Answer ε) × σ
  | answers, [], s => (.done, answers, s)
  | [], _ :: _, s => (.waiting, [], s)
  | a :: answers, b :: buf, s =>
    match write a (b :: buf) s with
    | (.ok 0, s) => (.failed .writeZero, answers, s)
    | (.ok n, s) => writeAll write answers ((b :: buf).drop n) s
    | (.error .interrupted, s) => writeAll write answers (b :: buf) s
    | (.error e, s) => (.failed e, answers, s)

/-- Handing over one buffer after another. -/
def writeChunks (write : Write σ ε) : List (Answer ε) → List (List UInt8) → σ →
    Ending ε × List (Answer ε) × σ
  | answers, [], s => (.done, answers, s)
  | answers, chunk :: chunks, s =>
    match writeAll write answers chunk s with
    | (.done, answers, s) => writeChunks write answers chunks s
    | stopped => stopped

/-! ## The pipe -/

/-- What a pipe takes of a buffer is a beginning of it, and all of it at the end. -/
theorem writeAll_pipe : ∀ (answers : List (Answer ε)) (buf taken : List UInt8),
    ∃ l, l <+: buf ∧ (writeAll pipe answers buf taken).2.2 = taken ++ l ∧
      ((writeAll pipe answers buf taken).1 = .done → l = buf)
  | answers, [], taken => ⟨[], List.nil_prefix, by simp [writeAll], fun _ => rfl⟩
  | [], b :: buf, taken => ⟨[], List.nil_prefix, by simp [writeAll], by simp [writeAll]⟩
  | .takes 0 :: answers, b :: buf, taken =>
    ⟨[], List.nil_prefix, by simp [writeAll, pipe], by simp [writeAll, pipe]⟩
  | .takes (n + 1) :: answers, b :: buf, taken => by
    obtain ⟨m, hm⟩ : ∃ m, min (n + 1) (b :: buf).length = m + 1 := by
      rw [List.length_cons]
      exact ⟨min n buf.length, by omega⟩
    have htake : (b :: buf).take (n + 1) = (b :: buf).take (m + 1) := by
      rw [← hm, List.take_eq_take_min]
    obtain ⟨l, hl, hstate, hdone⟩ :=
      writeAll_pipe answers ((b :: buf).drop (m + 1)) (taken ++ (b :: buf).take (m + 1))
    have hrun : writeAll pipe (.takes (n + 1) :: answers) (b :: buf) taken =
        writeAll pipe answers ((b :: buf).drop (m + 1)) (taken ++ (b :: buf).take (m + 1)) := by
      rw [writeAll, pipe, hm, htake]
      rfl
    refine ⟨(b :: buf).take (m + 1) ++ l, ?_, ?_, fun h => ?_⟩
    · obtain ⟨rest, hrest⟩ := hl
      exact ⟨rest, by rw [List.append_assoc, hrest, List.take_append_drop]⟩
    · rw [hrun, hstate, List.append_assoc]
    · rw [hdone (hrun ▸ h), List.take_append_drop]
  | .interrupted :: answers, b :: buf, taken => by
    obtain ⟨l, hl, hstate, hdone⟩ := writeAll_pipe answers (b :: buf) taken
    have hrun : writeAll pipe (.interrupted :: answers) (b :: buf) taken =
        writeAll pipe answers (b :: buf) taken := by
      rw [writeAll, pipe]
    exact ⟨l, hl, by rw [hrun, hstate], fun h => hdone (hrun ▸ h)⟩
  | .fails e :: answers, b :: buf, taken =>
    ⟨[], List.nil_prefix, by simp [writeAll, pipe], by simp [writeAll, pipe]⟩

/-- **What a pipe takes of the chunks** is a beginning of them, and all of them at the end. -/
theorem writeChunks_pipe : ∀ (answers : List (Answer ε)) (chunks : List (List UInt8))
    (taken : List UInt8), ∃ l, l <+: chunks.flatten ∧
      (writeChunks pipe answers chunks taken).2.2 = taken ++ l ∧
      ((writeChunks pipe answers chunks taken).1 = .done → l = chunks.flatten)
  | answers, [], taken => ⟨[], List.nil_prefix, by simp [writeChunks], fun _ => rfl⟩
  | answers, chunk :: chunks, taken => by
    obtain ⟨l, hl, hstate, hdone⟩ := writeAll_pipe answers chunk taken
    rw [writeChunks, List.flatten_cons]
    generalize hrun : writeAll pipe answers chunk taken = run at hstate hdone
    obtain ⟨ending, answers', taken'⟩ := run
    cases ending with
    | done =>
      obtain rfl := hdone rfl
      obtain ⟨l', hl', hstate', hdone'⟩ := writeChunks_pipe answers' chunks taken'
      refine ⟨l ++ l', (List.prefix_append_right_inj l).2 hl', ?_, fun h => by rw [hdone' h]⟩
      rw [hstate', show taken' = taken ++ l from hstate, List.append_assoc]
    | waiting => exact ⟨l, hl.trans (List.prefix_append _ _), hstate, nofun⟩
    | failed e => exact ⟨l, hl.trans (List.prefix_append _ _), hstate, nofun⟩

/-- An answer that takes something of every buffer. -/
def Answer.Takes : Answer ε → Prop
  | takes n => 0 < n
  | _ => False

/-- Answers that take something, as many as there are bytes, are enough for a buffer. -/
theorem writeAll_pipe_done : ∀ (answers : List (Answer ε)) (buf taken : List UInt8),
    (∀ a ∈ answers, a.Takes) → buf.length ≤ answers.length →
      ∃ rest, writeAll pipe answers buf taken = (.done, rest, taken ++ buf) ∧
        (∀ a ∈ rest, a.Takes) ∧ answers.length ≤ rest.length + buf.length
  | answers, [], taken, htakes, _ => ⟨answers, by simp [writeAll], htakes, by simp⟩
  | [], _ :: _, _, _, hlen => absurd hlen (by simp)
  | a :: answers, b :: buf, taken, htakes, hlen => by
    cases a with
    | takes n =>
      have hn : 0 < n := htakes _ List.mem_cons_self
      obtain ⟨m, hm⟩ : ∃ m, min n (b :: buf).length = m + 1 := by
        rw [List.length_cons]
        exact ⟨min (n - 1) buf.length, by omega⟩
      have htake : (b :: buf).take n = (b :: buf).take (m + 1) := by
        rw [← hm, List.take_eq_take_min]
      have hm' : m ≤ buf.length := by
        rw [List.length_cons] at hm
        omega
      obtain ⟨rest, hrun, hrest, hcount⟩ := writeAll_pipe_done answers ((b :: buf).drop (m + 1))
        (taken ++ (b :: buf).take (m + 1)) (fun a ha => htakes a (List.mem_cons_of_mem _ ha)) (by
          rw [List.length_drop, List.length_cons]
          rw [List.length_cons, List.length_cons] at hlen
          omega)
      refine ⟨rest, ?_, hrest, ?_⟩
      · rw [writeAll, pipe, hm, htake]
        change writeAll pipe answers _ _ = _
        rw [hrun, List.append_assoc, List.take_append_drop]
      · rw [List.length_drop] at hcount
        rw [List.length_cons] at hcount ⊢
        rw [List.length_cons]
        omega
    | interrupted => exact (htakes _ List.mem_cons_self).elim
    | fails e => exact (htakes _ List.mem_cons_self).elim

/-- **Answers that take something**, as many as there are bytes, are enough for the chunks. -/
theorem writeChunks_pipe_done : ∀ (answers : List (Answer ε)) (chunks : List (List UInt8))
    (taken : List UInt8), (∀ a ∈ answers, a.Takes) → chunks.flatten.length ≤ answers.length →
      (writeChunks pipe answers chunks taken).1 = .done
  | _, [], _, _, _ => by simp [writeChunks]
  | answers, chunk :: chunks, taken, htakes, hlen => by
    rw [List.flatten_cons, List.length_append] at hlen
    obtain ⟨rest, hrun, hrest, hcount⟩ := writeAll_pipe_done answers chunk taken htakes (by omega)
    rw [writeChunks, hrun]
    exact writeChunks_pipe_done rest chunks _ hrest (by omega)

/-! ## Sinks over sinks -/

/-- A sink that acts on another one as the other does by itself. -/
def Over (write : Write σ ε) (inner : Write τ ε) (proj : σ → τ) : Prop :=
  ∀ a buf s, (write a buf s).1 = (inner a buf (proj s)).1 ∧
    proj (write a buf s).2 = (inner a buf (proj s)).2

section
variable {write : Write σ ε} {inner : Write τ ε} {proj : σ → τ}

theorem Over.writeAll (h : Over write inner proj) : ∀ (answers : List (Answer ε))
    (buf : List UInt8) (s : σ),
    (ByteSink.writeAll write answers buf s).1 = (ByteSink.writeAll inner answers buf (proj s)).1 ∧
      (ByteSink.writeAll write answers buf s).2.1 =
        (ByteSink.writeAll inner answers buf (proj s)).2.1 ∧
      proj (ByteSink.writeAll write answers buf s).2.2 =
        (ByteSink.writeAll inner answers buf (proj s)).2.2
  | answers, [], s => by simp [ByteSink.writeAll]
  | [], b :: buf, s => by simp [ByteSink.writeAll]
  | a :: answers, b :: buf, s => by
    obtain ⟨hres, hproj⟩ := h a (b :: buf) s
    rw [ByteSink.writeAll, ByteSink.writeAll]
    generalize write a (b :: buf) s = outer at hres hproj
    generalize inner a (b :: buf) (proj s) = below at hres hproj
    obtain ⟨res, s'⟩ := outer
    obtain ⟨res', t'⟩ := below
    cases hres
    cases hproj
    rcases res with (_ | _ | e) | _ | n
    · exact Over.writeAll h answers (b :: buf) s'
    · exact ⟨rfl, rfl, rfl⟩
    · exact ⟨rfl, rfl, rfl⟩
    · exact ⟨rfl, rfl, rfl⟩
    · exact Over.writeAll h answers ((b :: buf).drop (n + 1)) s'

/-- **A sink over another ends as the other does**, and leaves it as it would be. -/
theorem Over.writeChunks (h : Over write inner proj) : ∀ (answers : List (Answer ε))
    (chunks : List (List UInt8)) (s : σ),
    (ByteSink.writeChunks write answers chunks s).1 =
        (ByteSink.writeChunks inner answers chunks (proj s)).1 ∧
      proj (ByteSink.writeChunks write answers chunks s).2.2 =
        (ByteSink.writeChunks inner answers chunks (proj s)).2.2
  | answers, [], s => by simp [ByteSink.writeChunks]
  | answers, chunk :: chunks, s => by
    obtain ⟨hend, hrest, hproj⟩ := h.writeAll answers chunk s
    rw [ByteSink.writeChunks, ByteSink.writeChunks]
    generalize ByteSink.writeAll write answers chunk s = outer at hend hrest hproj
    generalize ByteSink.writeAll inner answers chunk (proj s) = below at hend hrest hproj
    obtain ⟨ending, rest, s'⟩ := outer
    obtain ⟨ending', rest', t'⟩ := below
    cases hend
    cases hrest
    cases hproj
    cases ending with
    | done => exact Over.writeChunks h rest chunks s'
    | waiting => exact ⟨rfl, rfl⟩
    | failed e => exact ⟨rfl, rfl⟩

/-! ## Invariants -/

/-- A property that every call keeps. -/
def Keeps (write : Write σ ε) (I : σ → Prop) : Prop :=
  ∀ a buf s, I s → I (write a buf s).2

theorem Keeps.writeAll {I : σ → Prop} (h : Keeps write I) : ∀ (answers : List (Answer ε))
    (buf : List UInt8) (s : σ), I s → I (ByteSink.writeAll write answers buf s).2.2
  | answers, [], s, hs => by simpa [ByteSink.writeAll] using hs
  | [], b :: buf, s, hs => by simpa [ByteSink.writeAll] using hs
  | a :: answers, b :: buf, s, hs => by
    have hnext := h a (b :: buf) s hs
    rw [ByteSink.writeAll]
    generalize write a (b :: buf) s = next at hnext
    obtain ⟨res, s'⟩ := next
    rcases res with (_ | _ | e) | _ | n
    · exact Keeps.writeAll h answers (b :: buf) s' hnext
    · exact hnext
    · exact hnext
    · exact hnext
    · exact Keeps.writeAll h answers ((b :: buf).drop (n + 1)) s' hnext

/-- **What every call keeps is kept along a run.** -/
theorem Keeps.writeChunks {I : σ → Prop} (h : Keeps write I) : ∀ (answers : List (Answer ε))
    (chunks : List (List UInt8)) (s : σ), I s → I (ByteSink.writeChunks write answers chunks s).2.2
  | answers, [], s, hs => by simpa [ByteSink.writeChunks] using hs
  | answers, chunk :: chunks, s, hs => by
    have hnext := h.writeAll answers chunk s hs
    rw [ByteSink.writeChunks]
    generalize ByteSink.writeAll write answers chunk s = next at hnext
    obtain ⟨ending, rest, s'⟩ := next
    cases ending with
    | done => exact Keeps.writeChunks h rest chunks s' hnext
    | waiting => exact hnext
    | failed e => exact hnext

end

end ByteSink
