import Mathlib.Data.Vector.Basic
import Russignol.Base.RingBuffer
import Russignol.Signer.Server

/-!
# The recent signatures

`SigningEventRing` of `libs/signer/src/signing_activity.rs`, which the server pushes to, and the
page of `rpi-signer/src/pages/signatures.rs` that shows it in five rows. The ring counts in bytes
and the page subtracts the number of its records from five; sums and differences that leave their
type end the program, which is `none` here.
-/

namespace Russignol

/-- `SigningEvent`: the times of its activity, in nanoseconds, stand beside the rest. -/
structure SigningEvent where
  role : KeyRole
  activity : SignatureActivity
  timestamp : Nat
  duration : Option Nat
  deriving DecidableEq, Repr

/-- `a + b` of bytes. -/
def checkedAdd (a b : UInt8) : Option UInt8 := if a.toNat + b.toNat < 256 then some (a + b) else none

/-- `a - b` of sizes. -/
def checkedSub (a b : Nat) : Option Nat := if b ≤ a then some (a - b) else none

/-- `SigningEventRing`. -/
structure SigningEventRing where
  events : Vector (Option SigningEvent) 5
  head : UInt8
  len : UInt8

namespace SigningEventRing

/-- `default`. -/
def default : SigningEventRing := ⟨Vector.replicate 5 none, 0, 0⟩

/-- `push`. -/
def push (ring : SigningEventRing) (event : SigningEvent) : Option SigningEventRing := do
  let events := ring.events.set (ring.head.toNat % 5) (some event) (Nat.mod_lt _ (by decide))
  let head ← checkedAdd ring.head 1
  let len ← (if ring.len < 5 then checkedAdd ring.len 1 else some ring.len)
  pure ⟨events, head % 5, len⟩

/-- `iter`. -/
def iter (ring : SigningEventRing) : Option (List SigningEvent) := do
  let start ← checkedSub (ring.head.toNat + 5) ring.len.toNat
  pure ((List.range ring.len.toNat).filterMap fun i =>
    ring.events.get ⟨(start + i) % 5, Nat.mod_lt _ (by decide)⟩)

/-- The ring with its counters as numbers. -/
def buffer (ring : SigningEventRing) : RingBuffer SigningEvent 5 :=
  ⟨ring.events, ring.head.toNat, ring.len.toNat⟩

variable {ring : SigningEventRing} {pushed : List SigningEvent}

/-- The ring after its pushes. -/
def Holds (ring : SigningEventRing) (pushed : List SigningEvent) : Prop := ring.buffer.Holds pushed

/-- The ring is empty at the start. -/
theorem holds_default : default.Holds [] := RingBuffer.holds_empty

/-- The addition of one within the ring does not overflow. -/
theorem checkedAdd_one {n : UInt8} (h : n.toNat ≤ 5) :
    checkedAdd n 1 = some (n + 1) ∧ (n + 1).toNat = n.toNat + 1 := by
  have hsum : (n + 1).toNat = (n.toNat + 1) % 2 ^ 8 := UInt8.toNat_add n 1
  refine ⟨if_pos ?_, by omega⟩
  show n.toNat + 1 < 256
  omega

/-- **A push** does not overflow, and is that of a ring of five slots. -/
theorem Holds.push (h : ring.Holds pushed) (event : SigningEvent) :
    ∃ ring', ring.push event = some ring' ∧ ring'.Holds (pushed ++ [event]) := by
  have hhead : ring.head.toNat < 5 := h.head_lt
  have hlen : ring.len.toNat ≤ 5 := h.len_le
  obtain ⟨hheadSum, hheadNat⟩ := checkedAdd_one hhead.le
  obtain ⟨hlenSum, hlenNat⟩ := checkedAdd_one hlen
  have hlt : ring.len < 5 ↔ ring.len.toNat < 5 := UInt8.lt_iff_toNat_lt
  obtain ⟨len, hlenStep, hlenStepNat⟩ : ∃ len,
      (if ring.len < 5 then checkedAdd ring.len 1 else some ring.len) = some len ∧
        len.toNat = if ring.len.toNat < 5 then ring.len.toNat + 1 else ring.len.toNat := by
    by_cases hroom : ring.len < 5
    · exact ⟨ring.len + 1, (if_pos hroom).trans hlenSum,
        hlenNat.trans (if_pos (hlt.1 hroom)).symm⟩
    · exact ⟨ring.len, if_neg hroom, (if_neg (mt hlt.2 hroom)).symm⟩
  have hheadMod : ((ring.head + 1) % 5).toNat = (ring.head.toNat + 1) % 5 := by
    rw [UInt8.toNat_mod, hheadNat]
    rfl
  refine ⟨⟨ring.events.set (ring.head.toNat % 5) (some event) (Nat.mod_lt _ (by decide)),
    (ring.head + 1) % 5, len⟩, ?_, ?_⟩
  · unfold SigningEventRing.push
    rw [hheadSum, hlenStep]
    rfl
  · have hpush := RingBuffer.Holds.push h event
    unfold Holds buffer
    dsimp only
    rw [hheadMod, hlenStepNat]
    exact hpush

/-- Pushes one after another. -/
theorem Holds.pushes (h : ring.Holds pushed) (events : List SigningEvent) :
    ∃ ring', events.foldlM SigningEventRing.push ring = some ring' ∧ ring'.Holds (pushed ++ events) := by
  induction events generalizing ring pushed with
  | nil => exact ⟨ring, rfl, (List.append_nil pushed).symm ▸ h⟩
  | cons event events ih =>
    obtain ⟨ring', hpush, h'⟩ := h.push event
    obtain ⟨ring'', hrest, h''⟩ := ih h'
    refine ⟨ring'', ?_, ?_⟩
    · rw [List.foldlM_cons, hpush]
      exact hrest
    · rwa [List.append_assoc] at h''

/-- The ring yields the last five events, the oldest first. -/
theorem Holds.iter (h : ring.Holds pushed) : ring.iter = some (pushed.rtake 5) := by
  have hlen : ring.len.toNat ≤ 5 := h.len_le
  have hstart : checkedSub (ring.head.toNat + 5) ring.len.toNat =
      some (ring.head.toNat + 5 - ring.len.toNat) := if_pos (by omega)
  unfold SigningEventRing.iter
  rw [hstart, ← RingBuffer.Holds.toList h]
  rfl

/-- The ring after pushes. -/
def pushAll (events : List SigningEvent) : Option SigningEventRing := events.foldlM push default

end SigningEventRing

/-! ## The page -/

/-- `SigningRecord`. -/
structure SigningRecord where
  role : KeyRole
  pkhShort : String
  level : UInt32
  opType : OperationType
  signTime : Nat
  deriving DecidableEq, Repr

namespace SignaturesPage

/-- One record of `build_records`: an event that is not whole has none. -/
def record (shortByRole : KeyRole → Option String) (event : SigningEvent) :
    Option SigningRecord := do
  let level ← event.activity.level
  let duration ← event.duration
  let opType ← event.activity.operationType
  pure ⟨event.role, (shortByRole event.role).getD "???", level, opType, duration⟩

/-- `build_records`. -/
def buildRecords (shortByRole : KeyRole → Option String) (ring : SigningEventRing) :
    Option (List SigningRecord) :=
  ring.iter.map fun events => events.filterMap (record shortByRole)

/-- `ROW_HEIGHT`, `ROW_1_Y`. -/
def rowHeight : Int := 24

def row1Y : Int := 13

/-- `draw`: the records with the heights of their rows. -/
def draw (shortByRole : KeyRole → Option String) (ring : SigningEventRing) :
    Option (List (SigningRecord × Int)) := do
  let records ← buildRecords shortByRole ring
  if records = [] then pure []
  else
    let startRow ← checkedSub 5 records.length
    pure (records.zipIdx.map fun (record, index) =>
      (record, row1Y + ((startRow + index : Nat) : Int) * rowHeight))

/-- **The page** shows the records of what the ring yields, each in a row of its own. -/
theorem draw_of_iter {ring : SigningEventRing} {events : List SigningEvent}
    (hiter : ring.iter = some events) (hfive : events.length ≤ 5)
    (shortByRole : KeyRole → Option String) :
    ∃ rows, draw shortByRole ring = some rows ∧
      rows.map Prod.fst = events.filterMap (record shortByRole) := by
  have hrecords : buildRecords shortByRole ring = some (events.filterMap (record shortByRole)) := by
    rw [buildRecords, hiter, Option.map_some]
  have hlength : (events.filterMap (record shortByRole)).length ≤ 5 :=
    (List.length_filterMap_le _ _).trans hfive
  generalize events.filterMap (record shortByRole) = records at hrecords hlength
  unfold draw
  rw [hrecords, Option.bind_eq_bind, Option.bind_some]
  split
  · rename_i hempty
    exact ⟨[], rfl, hempty.symm⟩
  · rw [checkedSub, if_pos hlength]
    refine ⟨_, rfl, ?_⟩
    rw [List.map_map]
    exact List.zipIdx_map_fst 0 records

end SignaturesPage

/-- **The ring of signing events** is the last five of them, the oldest first, after any pushes, and
the page always has a row for each of its records. -/
theorem SigningEventRing.lastFive (events : List SigningEvent) :
    ∃ ring, pushAll events = some ring ∧ ring.iter = some (events.rtake 5) ∧
      ring.head.toNat < 5 ∧ ring.len.toNat = min events.length 5 ∧
      ∀ shortByRole, ∃ rows, SignaturesPage.draw shortByRole ring = some rows ∧
        rows.map Prod.fst = (events.rtake 5).filterMap (SignaturesPage.record shortByRole) := by
  obtain ⟨ring, hring, hholds⟩ := Holds.pushes holds_default events
  rw [List.nil_append] at hholds
  have hfive : (events.rtake 5).length ≤ 5 := by
    rw [List.rtake, List.length_drop]
    omega
  exact ⟨ring, hring, hholds.iter, hholds.head_lt, RingBuffer.Holds.len hholds,
    SignaturesPage.draw_of_iter hholds.iter hfive⟩

end Russignol
