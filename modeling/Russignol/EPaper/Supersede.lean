import Mathlib.Algebra.Ring.Nat
import Russignol.Base.Automaton
import Russignol.EPaper.DisplayDriver

/-!
# Superseding refreshes

A partial push may go on while the panel is busy. The driver then relies on its dirty mask, which is
to cover every pixel in flight. It does so over every run (`Epd.supersede_apart`) in which no push
reports an error of a refresh that the panel started all the same, since such a push leaves the mask
as it was; and in which the first frame pushed is black wherever the panel is, since the driver
takes the panel to be white when it is made.
-/

namespace Russignol.EPaper

open EarlyExit InFlight

/-- A pixel, by its byte and its bit. -/
abbrev Pixel := Fin bufferSize × Fin 8

/-- Whether a pixel of a frame is white, or a pixel of a mask is set. -/
def pixels (frame : List UInt8) : Pixel → Bool := fun p => (frame.getD p.1 0).toNat.testBit p.2

/-- The pixels that are set in a mask. -/
def marks (mask : List UInt8) : Set Pixel := {p | pixels mask p = true}

/-- What the panel was asked for, by pixels. -/
def Panel.history (p : Panel) : History Pixel Bool := ⟨pixels p.shown, p.started.map pixels⟩

/-! ## The mask by pixels -/

/-- An operation on the bits, byte by byte. -/
theorem pixels_zipWith {f : UInt8 → UInt8 → UInt8} {g : Bool → Bool → Bool}
    (hfg : ∀ a b bit, (f a b).toNat.testBit bit = g (a.toNat.testBit bit) (b.toNat.testBit bit))
    (hg : g false false = false) {l l' : List UInt8} (h : l.length = l'.length) (p : Pixel) :
    pixels (List.zipWith f l l') p = g (pixels l p) (pixels l' p) := by
  obtain ⟨i, bit⟩ := p
  simp only [pixels, List.getD_eq_getElem?_getD, List.getElem?_zipWith]
  by_cases hi : i < l.length
  · rw [List.getElem?_eq_getElem hi, List.getElem?_eq_getElem (h ▸ hi)]
    exact hfg _ _ bit
  · rw [List.getElem?_eq_none (not_lt.1 hi), List.getElem?_eq_none (h ▸ not_lt.1 hi)]
    simp [hg]

/-- The mask after a push has the pixels that the push changes too. -/
theorem marks_accumulate (dirtyMask lastFrame buffer : Frame) :
    marks (Epd.accumulate dirtyMask lastFrame buffer).1 =
      marks dirtyMask.1 ∪ changed (pixels lastFrame.1) (pixels buffer.1) := by
  ext p
  have hlength : lastFrame.1.length = buffer.1.length := lastFrame.2.trans buffer.2.symm
  have hzip : dirtyMask.1.length =
      (List.zipWith (fun last buf => last ^^^ buf) lastFrame.1 buffer.1).length := by
    rw [List.length_zipWith, ← hlength, Nat.min_self, dirtyMask.2, lastFrame.2]
  show pixels (List.zipWith _ _ _) p = true ↔ _
  have hor := pixels_zipWith (f := fun a b => a ||| b) (g := or)
    (fun a b bit => by rw [UInt8.toNat_or, Nat.testBit_or]) rfl hzip p
  have hxor := pixels_zipWith (f := fun a b => a ^^^ b) (g := xor)
    (fun a b bit => by rw [UInt8.toNat_xor, Nat.testBit_xor]) rfl hlength p
  rw [hor, hxor, Bool.or_eq_true, bne_iff_ne]
  rfl

/-- Without an overlap the push changes no pixel of the mask. -/
theorem disjoint_of_hasOverlap {dirtyMask lastFrame newFrame : Frame}
    (h : Epd.hasOverlap dirtyMask.1 lastFrame.1 newFrame.1 = false) :
    Disjoint (marks dirtyMask.1) (changed (pixels lastFrame.1) (pixels newFrame.1)) := by
  rw [Set.disjoint_left]
  rintro ⟨i, bit⟩ hmask hchanged
  have hd : i.val < dirtyMask.1.length := dirtyMask.2.symm ▸ i.isLt
  have hl : i.val < lastFrame.1.length := lastFrame.2.symm ▸ i.isLt
  have hn : i.val < newFrame.1.length := newFrame.2.symm ▸ i.isLt
  have hmem : ((dirtyMask.1[i.val], lastFrame.1[i.val]), newFrame.1[i.val]) ∈
      (dirtyMask.1.zip lastFrame.1).zip newFrame.1 := by
    refine List.mem_iff_getElem.2 ⟨i.val, ?_, ?_⟩
    · simp only [List.length_zip, dirtyMask.2, lastFrame.2, newFrame.2, Nat.min_self]
      exact i.isLt
    · simp only [List.getElem_zip]
  have hbits : dirtyMask.1[i.val] &&& (lastFrame.1[i.val] ^^^ newFrame.1[i.val]) = 0 := by
    simpa using List.any_eq_false.1 h _ hmem
  have htest : (dirtyMask.1[i.val] &&& (lastFrame.1[i.val] ^^^ newFrame.1[i.val])).toNat.testBit
      bit = true := by
    have hmask : pixels dirtyMask.1 (i, bit) = true := hmask
    have hchanged : pixels lastFrame.1 (i, bit) ≠ pixels newFrame.1 (i, bit) := hchanged
    simp only [pixels, List.getD_eq_getElem?_getD, List.getElem?_eq_getElem hd,
      List.getElem?_eq_getElem hl, List.getElem?_eq_getElem hn, Option.getD_some]
      at hmask hchanged
    rw [UInt8.toNat_and, UInt8.toNat_xor, Nat.testBit_and, Nat.testBit_xor, hmask, Bool.true_and]
    exact bne_iff_ne.2 hchanged
  rw [hbits] at htest
  simp at htest

/-! ## The mask and the panel -/

/-- A low reading is an idle panel, and a high one changes nothing. -/
theorem Panel.history_read (p : Panel) (busy : Bool) :
    (p.read busy).history = if busy || p.pulsed then p.history else p.history.idle := by
  unfold Panel.read
  split
  · rfl
  · unfold history History.idle History.latest
    cases p.started <;> rfl

namespace Epd

/-- The mask covers the pixels in flight; before the first push nothing is in flight, and the panel
shows a frame that meets `S`. -/
def Tracks (S : List UInt8 → Prop) (e : Epd) : Prop :=
  (e.pushes = [] ∧ e.panel.started = [] ∧ e.lastFrame = .fill 0xFF ∧ S e.panel.shown) ∨
    Covers (marks e.dirtyMask.1) (pixels e.lastFrame.1) e.panel.history

variable {S : List UInt8 → Prop} {e e' : Epd} {io : PushIo} {buffer : Frame} {mode : DisplayMode}
  {policy : WaitPolicy}

/-- The pixels in flight are those of the mask. -/
theorem Tracks.inFlight (h : e.Tracks S) : e.panel.history.inFlight ⊆ marks e.dirtyMask.1 := by
  rcases h with ⟨-, hstarted, -, -⟩ | h
  · rw [History.inFlight_of_nil]
    · exact Set.empty_subset _
    · rw [Panel.history, hstarted, List.map_nil]
  · exact h.inFlight

/-- What lies outside the mask is not in flight. -/
theorem Tracks.apart (h : e.Tracks S)
    (hmask : Disjoint (marks e.dirtyMask.1) (changed (pixels e.lastFrame.1) (pixels buffer.1))) :
    Disjoint e.panel.history.inFlight (changed e.panel.history.latest (pixels buffer.1)) := by
  rcases h with ⟨-, hstarted, -, -⟩ | h
  · rw [History.inFlight_of_nil]
    · exact Set.empty_disjoint _
    · rw [Panel.history, hstarted, List.map_nil]
  · exact h.latest ▸ h.apart hmask

/-- No command but the last of a push, and no reading, affects it. -/
theorem inert_tracks : Inert (Tracks S) where
  read := by
    rintro e busy (⟨hpushes, hstarted, hlast, hS⟩ | h)
    · refine .inl ⟨hpushes, ?_, hlast, ?_⟩
      · show (e.panel.read busy).started = []
        unfold Panel.read
        split
        · exact hstarted
        · rfl
      · show S (e.panel.read busy).shown
        unfold Panel.read
        split
        · exact hS
        · simpa only [hstarted, List.head?_nil, Option.getD_none] using hS
    · refine .inr ?_
      show Covers _ _ (e.panel.read busy).history
      rw [Panel.history_read]
      split
      · exact h
      · exact h.idle _
  ram := fun _ _ h => h
  pulsed := fun _ _ h => h

/-- A panel that is idle has nothing in flight, whatever the mask. -/
theorem Tracks.clear (h : e.Tracks S) (hstarted : e.panel.started = []) (mask : Frame) :
    Tracks S { e with dirtyMask := mask } := by
  rcases h with h | h
  · exact .inl h
  · refine .inr ⟨h.latest, ?_⟩
    rw [History.inFlight_of_nil]
    · exact Set.empty_subset _
    · show e.panel.started.map pixels = []
      rw [hstarted, List.map_nil]

/-! ## Waiting for the panel -/

/-- The panel is idle, and was seen to be. -/
def Idle (e : Epd) : Prop := e.panel.started = [] ∧ e.panel.high = false

/-- A low reading outside a push is an idle panel. -/
theorem isHigh_idle (busy : Except String Bool) :
    Triple (fun e => e.panel.pulsed = false) (isHigh busy)
      (fun busy e => e.panel.pulsed = false ∧ (busy = false → e.Idle))
      (fun e => e.panel.pulsed = false) := by
  cases busy with
  | error error => exact Triple.throw fun _ h => h
  | ok busy =>
    refine Triple.bind (R := fun _ e => e.panel.pulsed = false ∧ (busy = false → e.Idle))
      (Triple.modify fun e h => ?_) fun _ => Triple.pure fun _ h => h
    cases busy with
    | true => exact ⟨h, fun hbusy => nomatch hbusy⟩
    | false =>
      have hread : e.panel.read false = { e.panel with
          high := false, shown := e.panel.started.head?.getD e.panel.shown, started := [] } := by
        rw [Panel.read, if_neg]
        rw [h]
        decide
      exact ⟨hread ▸ h, fun _ => ⟨hread ▸ rfl, hread ▸ rfl⟩⟩

/-- A wait outside a push that completes leaves an idle panel. -/
theorem waitUntilIdle_idle (readings : List Reading) :
    Triple (fun e : Epd => e.panel.pulsed = false) (waitUntilIdle readings) (fun _ => Idle)
      (fun e => e.panel.pulsed = false) := by
  have hread : ∀ (e : Epd) busy, e.panel.pulsed = false → (e.panel.read busy).pulsed = false :=
    fun e busy h => (e.panel.pulsed_read busy).trans h
  have hpoll : Keeps (fun e => e.panel.pulsed = false) (pollIdle readings.tail) :=
    keeps_pollIdle hread _
  refine Triple.bind (keeps_isHigh hread _) fun _ => Triple.bind hpoll fun rest => ?_
  refine Triple.bind (isHigh_idle _) fun busy => ?_
  cases busy with
  | true => exact Triple.throw fun _ h => h.1
  | false => exact Triple.pure fun _ h => h.2 rfl

/-! ## A push -/

/-- A push that goes on while the panel is busy is a partial one after a partial one, and changes no
pixel in flight. -/
structure Overtakes (buffer : Frame) (mode : DisplayMode) (e : Epd) : Prop where
  mode : mode = .partialUpdate
  last : e.lastUpdateMode = some .partialUpdate
  apart : Disjoint e.panel.history.inFlight (changed e.panel.history.latest (pixels buffer.1))

/-- **A push that goes on** finds the panel idle, or overtakes. -/
theorem awaitPanel_spec : Triple (Tracks S) (awaitPanel io buffer mode policy)
    (fun goesOn e => e.Tracks S ∧ (goesOn = true → e.panel.high = true → Overtakes buffer mode e))
    (Tracks S) := by
  have hbegin : Triple (Tracks S) beginCall (fun _ e => e.Tracks S ∧ e.panel.pulsed = false)
      (Tracks S) := Triple.modify fun e h => ⟨h, rfl⟩
  have hread : Triple (fun e => e.Tracks S ∧ e.panel.pulsed = false) (isHigh io.busy)
      (fun isBusy e => e.Tracks S ∧ e.panel.pulsed = false ∧ (isBusy = false → e.Idle))
      (Tracks S) :=
    (Triple.and (keeps_isHigh inert_tracks.read io.busy) (isHigh_idle io.busy)).mono
      (fun _ => id) (fun _ _ => id) fun _ h => h.1
  have hwaited : Triple (fun e => e.Tracks S ∧ e.panel.pulsed = false) (waitUntilIdle io.wait)
      (fun _ e => e.Tracks S ∧ e.Idle) (Tracks S) :=
    (Triple.and (keeps_waitUntilIdle inert_tracks.read io.wait)
      (waitUntilIdle_idle io.wait)).mono (fun _ => id) (fun _ _ => id) fun _ h => h.1
  have hclear : Triple (fun e => e.Tracks S ∧ e.Idle)
      (modify fun e : Epd => { e with dirtyMask := .fill 0x00 })
      (fun _ e => e.Tracks S ∧ e.panel.high = false) (Tracks S) :=
    Triple.modify fun e h => ⟨h.1.clear h.2.1 _, h.2.2⟩
  unfold awaitPanel
  refine Triple.bind hbegin fun _ => Triple.bind hread fun isBusy => Triple.bind_get fun t => ?_
  dsimp only
  generalize hwait : needsIdleWait mode isBusy t.lastUpdateMode
    (isBusy && hasOverlap t.dirtyMask.1 t.lastFrame.1 buffer.1) = mustWait
  cases mustWait with
  | true =>
    split
    · exact Triple.pure fun e h => ⟨h.2.1, fun hfalse => nomatch hfalse⟩
    · rw [if_pos rfl, Bool.or_true, if_pos rfl]
      refine Triple.bind (hwaited.pre fun e h => ⟨h.2.1, h.2.2.1⟩) fun _ => ?_
      refine Triple.bind hclear fun _ => Triple.pure fun e h => ⟨h.1, fun _ hhigh => ?_⟩
      rw [h.2] at hhigh
      cases hhigh
  | false =>
    rw [Bool.false_and, if_neg Bool.false_ne_true, if_neg Bool.false_ne_true, Bool.or_false]
    refine Triple.bind (R := fun _ e => e = t ∧ e.Tracks S ∧ e.panel.pulsed = false ∧
      (isBusy = false → e.Idle)) (Triple.pure fun _ => id) fun _ => ?_
    cases isBusy with
    | false =>
      refine Triple.bind (hclear.pre fun e h => ⟨h.2.1, h.2.2.2 rfl⟩) fun _ => ?_
      refine Triple.pure fun e h => ⟨h.1, fun _ hhigh => ?_⟩
      rw [h.2] at hhigh
      cases hhigh
    | true =>
      refine Triple.bind (R := fun _ e => e = t ∧ e.Tracks S)
        (Triple.pure fun _ h => ⟨h.1, h.2.1⟩) fun _ => Triple.pure ?_
      rintro e ⟨rfl, htracks⟩
      refine ⟨htracks, fun _ _ => ?_⟩
      cases mode with
      | full => cases hwait
      | partialUpdate =>
        obtain ⟨hoverlap, hlast⟩ := Bool.or_eq_false_iff.1 hwait
        refine ⟨rfl, not_not.1 (of_decide_eq_false hlast), ?_⟩
        exact htracks.apart (disjoint_of_hasOverlap hoverlap)

/-- The refresh of the frame in memory was started, from a state that meets `I`. -/
def Started (I : Epd → Prop) (e : Epd) : Prop :=
  ∃ panel, e.panel = panel.take .activateDisplayUpdateSequence ∧ I { e with panel }

/-- The last command of a push starts the refresh, or fails before. -/
theorem activate_command {I : Epd → Prop}
    (hread : ∀ e b, I e → I { e with panel := e.panel.read b }) {send : EpdCommand → SendIo}
    (htaken : ∀ error, (send .activateDisplayUpdateSequence).command ≠ .failed error true) :
    Triple I (sendCommand send .activateDisplayUpdateSequence none) (fun _ => Started I) I := by
  unfold sendCommand
  refine Triple.bind (R := fun _ => I) ?_ fun _ => Triple.bind (keeps_setPin _) fun _ => ?_
  · exact Keeps.ite (keeps_waitUntilIdle hread _) (Keeps.pure ())
  refine Triple.bind (R := fun _ => Started I) ?_ fun _ => Triple.pure fun _ => id
  cases hcommand : (send .activateDisplayUpdateSequence).command with
  | ok => exact Triple.modify fun e h => ⟨e.panel, rfl, h⟩
  | failed error taken =>
    cases taken with
    | true => exact absurd hcommand (htaken error)
    | false => exact Triple.bind (Triple.modify fun _ => id) fun _ => Triple.throw fun _ => id

/-- A panel that shows a frame is white wherever the frame is. -/
def WhiteUnder (buffer : Frame) (shown : List UInt8) : Prop :=
  ∀ p, pixels buffer.1 p = true → pixels shown p = true

theorem pixels_fill (b : UInt8) (p : Pixel) :
    pixels (Frame.fill b).1 p = b.toNat.testBit p.2 := by
  rw [pixels, Frame.fill, List.getD_eq_getElem?_getD, List.getElem?_replicate, if_pos p.1.isLt,
    Option.getD_some]

theorem pixels_white (p : Pixel) : pixels (Frame.fill 0xFF).1 p = true := by
  have hbits : ∀ bit : Fin 8, (0xFF : UInt8).toNat.testBit bit = true := by decide
  exact (pixels_fill _ p).trans (hbits p.2)

theorem pixels_black (p : Pixel) : pixels (Frame.fill 0x00).1 p = false :=
  (pixels_fill _ p).trans (Nat.zero_testBit _)

/-- A push that succeeded is tracked. -/
theorem Started.track (h : Started (fun e => e.Tracks (WhiteUnder buffer) ∧
    e.panel.ram = buffer.1) e) : (e.track buffer mode).Tracks S := by
  obtain ⟨panel, hpanel, htracks, hram⟩ := h
  have hhistory : (e.track buffer mode).panel.history =
      panel.history.start (pixels buffer.1) := by
    show e.panel.history = _
    rw [hpanel, ← hram]
    rfl
  refine .inr ?_
  rw [hhistory]
  show Covers (marks (accumulate e.dirtyMask e.lastFrame buffer).1) (pixels buffer.1) _
  rw [marks_accumulate]
  rcases htracks with ⟨-, hstarted, hlast, hwhite⟩ | hcovers
  · refine Covers.first ?_ fun p hp => .inr ?_
    · show panel.started.map pixels = []
      have hstarted : panel.started = [] := hstarted
      rw [hstarted, List.map_nil]
    · have hlast : e.lastFrame = .fill 0xFF := hlast
      have hp : pixels panel.shown p ≠ pixels buffer.1 p := hp
      show pixels e.lastFrame.1 p ≠ pixels buffer.1 p
      rw [hlast, pixels_white]
      intro hbuffer
      exact hp ((hwhite p hbuffer.symm).trans hbuffer)
  · exact hcovers.start

/-- The first frame does not matter any more. -/
theorem Tracks.weaken (h : e.Tracks S) : e.Tracks fun _ => True :=
  h.imp_left fun ⟨hpushes, hstarted, hlast, _⟩ => ⟨hpushes, hstarted, hlast, trivial⟩

/-- **A push** keeps track of the pixels, where the panel is white under the first frame, and where
no error hides a refresh that was started. -/
theorem displayWithPolicy_tracks
    (htaken : ∀ error, (io.send .activateDisplayUpdateSequence).command ≠ .failed error true) :
    Triple (Tracks (WhiteUnder buffer)) (displayWithPolicy io buffer mode policy)
      (fun _ => Tracks fun _ => True) (Tracks fun _ => True) := by
  have hwhite := inert_tracks (S := WhiteUnder buffer)
  have hactivate : Triple (fun e => e.Tracks (WhiteUnder buffer) ∧ e.panel.ram = buffer.1)
      (activate io buffer mode) (fun _ => Tracks fun _ => True) (Tracks fun _ => True) := by
    refine activate_spec (activate_command (fun e busy h => ?_) htaken) (fun e h => ?_)
      (fun e h => h.1.weaken) fun e h => h.1.weaken
    · exact ⟨hwhite.read e busy h.1, (e.panel.ram_read busy).trans h.2⟩
    · have htrack : (e.track buffer mode).Tracks fun _ => True := h.track
      exact htrack
  unfold displayWithPolicy
  refine Triple.bind (awaitPanel_spec.mono (fun _ => id) (fun _ _ => id) fun _ => Tracks.weaken)
    fun goesOn => ?_
  cases goesOn with
  | false => exact Triple.pure fun e h => h.1.weaken
  | true =>
    exact Triple.bind ((sendFrame_spec hwhite).mono (fun _ h => h.1) (fun _ _ => id)
      fun _ => Tracks.weaken) fun _ => hactivate

/-! ## Runs -/

/-- The mode that the driver remembers is that of the last push. -/
def ModeSent (e : Epd) : Prop := ∀ mode, e.lastUpdateMode = some mode → e.sent = some mode

theorem inert_modeSent : Inert ModeSent where
  read := fun _ _ h => h
  ram := fun _ _ h => h
  pulsed := fun _ _ h => h

theorem keeps_modeSent : Keeps ModeSent (displayWithPolicy io buffer mode policy) := by
  have hcommand : Keeps ModeSent (sendCommand io.send .activateDisplayUpdateSequence none) :=
    keeps_sendCommand inert_modeSent.read (fun _ h => h) fun e data => inert_modeSent.ram e data
  refine Keeps.bind (inert_modeSent.awaitPanel fun _ _ h => h) fun _ => Keeps.ite ?_ (Keeps.pure _)
  refine Keeps.bind ((sendFrame_spec inert_modeSent).post fun _ _ h => h.1) fun _ => ?_
  exact activate_spec hcommand (fun _ _ _ => id) (fun _ _ _ => id) fun _ => id

/-- The calls of a driver. -/
inductive Action
  | push (io : PushIo) (buffer : Frame) (mode : DisplayMode) (policy : WaitPolicy)
  | sleep (io : EpdCommand → SendIo)
  | wake (io : WakeIo)

/-- A call, whether or not it succeeds. -/
def step (e : Epd) : Action → Option Epd
  | .push io buffer mode policy => some (final (displayWithPolicy io buffer mode policy) e)
  | .sleep io => some (final (sleep io) e)
  | .wake io => some (final (wake io) e)

/-- No error hides a refresh that the panel started, and the first frame is white only where the
panel is. -/
def Action.Tracked (e : Epd) : Action → Prop
  | .push io buffer _ _ =>
    (∀ error, (io.send .activateDisplayUpdateSequence).command ≠ .failed error true) ∧
      (e.pushes = [] → WhiteUnder buffer e.panel.shown)
  | _ => True

/-- The mask has every pixel in flight, and a push that goes on while the panel is busy is a partial
one after a partial one, and changes no pixel in flight. -/
structure Apart (e : Epd) : Prop where
  covered : e.panel.history.inFlight ⊆ marks e.dirtyMask.1
  overtakes : ∀ io buffer mode policy e', awaitPanel io buffer mode policy e = .ok true e' →
    e'.panel.high = true → mode = .partialUpdate ∧ e'.sent = some .partialUpdate ∧
      Disjoint e'.panel.history.inFlight (changed e'.panel.history.latest (pixels buffer.1))

/-- One call keeps track of the pixels and of the mode. -/
theorem step_tracks {a : Action} (h : e.Tracks (fun _ => True) ∧ e.ModeSent)
    (htracked : a.Tracked e) (hstep : step e a = some e') :
    e'.Tracks (fun _ => True) ∧ e'.ModeSent := by
  have hinert := inert_tracks (S := fun _ => True)
  cases a with
  | push io buffer mode policy =>
    cases hstep
    have hwhite : e.Tracks (WhiteUnder buffer) := by
      rcases h.1 with ⟨hpushes, hstarted, hlast, -⟩ | hcovers
      · exact .inl ⟨hpushes, hstarted, hlast, htracked.2 hpushes⟩
      · exact .inr hcovers
    exact ⟨(displayWithPolicy_tracks htracked.1).final hwhite, keeps_modeSent.final h.2⟩
  | sleep io =>
    cases hstep
    exact ⟨(hinert.sleep io).final h.1, (inert_modeSent.sleep io).final h.2⟩
  | wake io =>
    cases hstep
    refine ⟨(hinert.wake (fun _ h => h) io).final h.1, ?_⟩
    exact (inert_modeSent.wake (fun _ _ _ hnone => nomatch hnone) io).final h.2

/-- **No superseding refresh touches a pixel in flight.** -/
theorem supersede_apart (shown : Frame) (acts : List Action) (e : Epd)
    (htracked : Automaton.Along step (fun e a => a.Tracked e) (new shown) acts)
    (hrun : Automaton.run step (new shown) acts = some e) : e.Apart := by
  have hstart : (new shown).Tracks (fun _ => True) ∧ (new shown).ModeSent :=
    ⟨.inl ⟨rfl, rfl, rfl, trivial⟩, fun _ hmode => nomatch hmode⟩
  obtain ⟨htracks, hsent⟩ := Automaton.run_invariant
    (fun _ _ _ h hg hs => step_tracks h hg hs) hstart htracked hrun
  refine ⟨htracks.inFlight, fun io buffer mode policy e' hawait hhigh => ?_⟩
  have hspec : Triple (Tracks fun _ => True) (awaitPanel io buffer mode policy) _ _ :=
    awaitPanel_spec
  have hkept : Keeps ModeSent (awaitPanel io buffer mode policy) :=
    inert_modeSent.awaitPanel fun _ _ h => h
  replace hspec := hspec e htracks
  replace hkept := hkept e hsent
  unfold EStateM.run at hspec hkept
  rw [hawait] at hspec hkept
  obtain ⟨htracks', hovertakes⟩ := hspec
  obtain ⟨hmode, hlast, hapart⟩ := hovertakes rfl hhigh
  exact ⟨hmode, hkept _ hlast, hapart⟩

/-- A partial push of a black frame, and one that goes on before its refresh is done, where no pixel
changes. -/
theorem supersede_apart_twice :
    ∃ e, Automaton.run step (new (.fill 0xFF)) [.push (.calm false) (.fill 0x00) .partialUpdate .bail,
      .push (.calm true) (.fill 0x00) .partialUpdate .bail] = some e ∧ e.Apart := by
  have htaken : ∀ (busy : Bool) (error : String),
      ((PushIo.calm busy).send .activateDisplayUpdateSequence).command ≠ .failed error true :=
    fun busy error htaken => by cases htaken
  have htracked : Automaton.Along step (fun e a => a.Tracked e) (new (.fill 0xFF))
      [.push (.calm false) (.fill 0x00) .partialUpdate .bail,
        .push (.calm true) (.fill 0x00) .partialUpdate .bail] := by
    refine ⟨⟨htaken false, fun _ p _ => pixels_white p⟩, fun t ht => ⟨⟨htaken true, ?_⟩, ?_⟩⟩
    · intro hpushes
      cases ht
      cases hpushes
    · exact fun _ _ => trivial
  exact ⟨_, rfl, supersede_apart _ _ _ htracked rfl⟩

/-- A driver that is made before a panel which still shows an image takes it to be white: the pixels
that its first frame turns white are in flight, and not in the mask. -/
theorem first_frame_untracked : ¬ ∀ (shown : Frame) (acts : List Action) (e : Epd),
    Automaton.run step (new shown) acts = some e → e.Apart := by
  intro hclaim
  obtain ⟨e, hrun, hshown, hstarted, hmask⟩ : ∃ e, Automaton.run step (new (.fill 0x00))
      [.push (.calm false) (.fill 0xFF) .full .block] = some e ∧
      e.panel.shown = (Frame.fill 0x00).1 ∧ e.panel.started = [(Frame.fill 0xFF).1] ∧
      e.dirtyMask = accumulate (.fill 0x00) (.fill 0xFF) (.fill 0xFF) := ⟨_, rfl, rfl, rfl, rfl⟩
  let p : Pixel := (⟨0, by decide⟩, 0)
  have hflight : p ∈ e.panel.history.inFlight := by
    refine ⟨pixels (Frame.fill 0xFF).1, ?_, ?_⟩
    · rw [Panel.history, hstarted]
      exact List.mem_singleton_self _
    · show pixels e.panel.shown p ≠ pixels (Frame.fill 0xFF).1 p
      rw [hshown, pixels_black, pixels_white]
      decide
  have hmarked := (hclaim _ _ e hrun).covered hflight
  rw [hmask, marks_accumulate] at hmarked
  rcases hmarked with hmarked | hchanged
  · cases (pixels_black p).symm.trans hmarked
  · exact hchanged rfl

end Epd

end Russignol.EPaper
