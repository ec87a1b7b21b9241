import Russignol.Base.Reader

/-!
# Length-prefixed frames

A message on a stream goes behind a header of fixed width that codes its length. `Header.unframe`
cuts what has arrived of a stream into the messages that are complete and the part behind them.
How the stream was cut when it arrived does not matter (`unframe_append`), and a stream of frames
gives its messages back (`unframe_frames`).
-/

/-- Headers of one width, which code the lengths up to a limit. -/
structure Header (β : Type) where
  width : Nat
  limit : Nat
  encode : Nat → List β
  decode : { h : List β // h.length = width } → Nat
  width_pos : 0 < width
  length_encode : ∀ n, (encode n).length = width
  decode_encode : ∀ n, n ≤ limit → decode ⟨encode n, length_encode n⟩ = n
  encode_decode : ∀ h, encode (decode h) = h.1 ∧ decode h ≤ limit

namespace Header

variable {β : Type} (H : Header β)

/-- A message behind its header. -/
def frame (m : List β) : List β := H.encode m.length ++ m

/-- The next frame of a stream; it fails where the stream is cut short. -/
def readFrame : Reader β Unit (List β) := do
  let h ← Reader.readExact () H.width
  let m ← Reader.readExact () (H.decode h)
  return m.1

/-- The frames are the language of `readFrame`. -/
theorem readFrame_reads :
    Reader.Reads H.readFrame (fun m => m.length ≤ H.limit) H.frame := by
  constructor
  intro s rest m
  rw [readFrame, Reader.run_bind_ok]
  constructor
  · rintro ⟨h, mid, hhead, hbody⟩
    obtain ⟨⟨body, hlen⟩, mid', hbody, hpure⟩ := Reader.run_bind_ok.1 hbody
    obtain ⟨-, rfl⟩ := (Reader.Reads.readExact () _).run_ok_iff.1 hhead
    obtain ⟨-, rfl⟩ := (Reader.Reads.readExact () _).run_ok_iff.1 hbody
    obtain ⟨rfl, rfl⟩ := Reader.run_pure_ok.1 hpure
    obtain ⟨hcode, hlimit⟩ := H.encode_decode h
    exact ⟨Nat.le_trans (Nat.le_of_eq hlen) hlimit, by rw [frame, hlen, hcode, List.append_assoc]⟩
  · rintro ⟨hlimit, rfl⟩
    have hlen : m.length = H.decode ⟨H.encode m.length, H.length_encode _⟩ :=
      (H.decode_encode _ hlimit).symm
    refine ⟨⟨_, H.length_encode m.length⟩, m ++ rest, ?_, ?_⟩
    · rw [frame, List.append_assoc]
      exact (Reader.Reads.readExact () H.width).run_enc (a := ⟨_, H.length_encode _⟩) trivial _
    · exact Reader.run_bind_ok.2 ⟨⟨m, hlen⟩, rest,
        (Reader.Reads.readExact () _).run_enc (a := ⟨m, hlen⟩) trivial rest,
        Reader.run_pure_ok.2 ⟨rfl, rfl⟩⟩

/-- A frame is longer than its message. -/
theorem length_frame (m : List β) : (H.frame m).length = H.width + m.length := by
  rw [frame, List.length_append, H.length_encode]

/-- What follows a frame is shorter than the stream. -/
theorem length_rest {s m rest : List β} (h : H.readFrame.run s = .ok (m, rest)) :
    rest.length < s.length := by
  obtain ⟨-, rfl⟩ := H.readFrame_reads.run_ok_iff.1 h
  have hpos := H.width_pos
  rw [List.length_append, length_frame]
  omega

/-- The messages that a stream holds, and what is left behind them. -/
def unframe (s : List β) : List (List β) × List β :=
  match h : H.readFrame.run s with
  | .error _ => ([], s)
  | .ok (m, rest) =>
    have := H.length_rest h
    (m :: (unframe rest).1, (unframe rest).2)
termination_by s.length

/-- A stream that starts with no complete frame holds no message. -/
theorem unframe_of_error {s : List β} {e : Unit} (h : H.readFrame.run s = .error e) :
    H.unframe s = ([], s) := by
  rw [unframe]
  split
  · rfl
  · rename_i hok
    cases h.symm.trans hok

@[simp] theorem unframe_nil : H.unframe [] = ([], []) := by
  cases hrun : H.readFrame.run [] with
  | error e => exact H.unframe_of_error hrun
  | ok p => exact absurd (H.length_rest hrun) (Nat.not_lt_zero _)

/-- The first frame of a stream comes off. -/
theorem unframe_frame {m : List β} (hm : m.length ≤ H.limit) (rest : List β) :
    H.unframe (H.frame m ++ rest) = (m :: (H.unframe rest).1, (H.unframe rest).2) := by
  rw [unframe]
  split
  · rename_i herror
    cases (H.readFrame_reads.run_enc hm rest).symm.trans herror
  · rename_i hok
    cases (H.readFrame_reads.run_enc hm rest).symm.trans hok
    rfl

/-- A frame that is cut short holds no message. -/
theorem unframe_take {m : List β} (hm : m.length ≤ H.limit) {n : Nat}
    (hn : n < (H.frame m).length) :
    H.unframe ((H.frame m).take n) = ([], (H.frame m).take n) := by
  cases hrun : H.readFrame.run ((H.frame m).take n) with
  | error e => exact H.unframe_of_error hrun
  | ok p =>
    obtain ⟨m', rest⟩ := p
    obtain ⟨hm', htake⟩ := H.readFrame_reads.run_ok_iff.1 hrun
    have hwhole : H.frame m ++ [] = H.frame m' ++ (rest ++ (H.frame m).drop n) := by
      rw [List.append_nil, ← List.append_assoc, ← htake, List.take_append_drop]
    obtain ⟨-, hnil⟩ := H.readFrame_reads.unique hm hm' hwhole
    have hdrop := congrArg List.length (List.append_eq_nil_iff.1 hnil.symm).2
    rw [List.length_drop, List.length_nil] at hdrop
    omega

/-- A stream of frames gives its messages back, and then those of what follows. -/
theorem unframe_frames : ∀ {ms : List (List β)} (rest : List β), (∀ m ∈ ms, m.length ≤ H.limit) →
    H.unframe (ms.flatMap H.frame ++ rest) = (ms ++ (H.unframe rest).1, (H.unframe rest).2)
  | [], _, _ => rfl
  | m :: ms, rest, h => by
    obtain ⟨hm, hms⟩ := List.forall_mem_cons.1 h
    rw [List.flatMap_cons, List.append_assoc, H.unframe_frame hm, unframe_frames rest hms]
    rfl

/-- What was cut off is frames, and no frame starts what is left. -/
theorem unframe_spec (s : List β) :
    s = (H.unframe s).1.flatMap H.frame ++ (H.unframe s).2 ∧
      (∀ m ∈ (H.unframe s).1, m.length ≤ H.limit) ∧
      H.readFrame.run (H.unframe s).2 = .error () := by
  induction s using unframe.induct H with
  | case1 s e h =>
    rw [H.unframe_of_error h]
    exact ⟨rfl, fun _ hm => absurd hm List.not_mem_nil, h⟩
  | case2 s m rest h _ ih =>
    obtain ⟨hm, rfl⟩ := H.readFrame_reads.run_ok_iff.1 h
    obtain ⟨hrest, hms, hleft⟩ := ih
    rw [H.unframe_frame hm]
    refine ⟨?_, List.forall_mem_cons.2 ⟨hm, hms⟩, hleft⟩
    rw [List.flatMap_cons, List.append_assoc, ← hrest]

/-- **The cutting of a stream does not matter**: what arrives later is cut behind what was left. -/
theorem unframe_append (s t : List β) :
    H.unframe (s ++ t) =
      ((H.unframe s).1 ++ (H.unframe ((H.unframe s).2 ++ t)).1,
        (H.unframe ((H.unframe s).2 ++ t)).2) := by
  obtain ⟨hs, hms, -⟩ := H.unframe_spec s
  have happ : s ++ t = (H.unframe s).1.flatMap H.frame ++ ((H.unframe s).2 ++ t) := by
    rw [← List.append_assoc, ← hs]
  rw [happ, H.unframe_frames _ hms]

end Header
