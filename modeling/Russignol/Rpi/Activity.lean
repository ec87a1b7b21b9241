import Mathlib.Algebra.Ring.Int.Defs
import Mathlib.Algebra.Ring.Nat
import Mathlib.Data.List.Basic
import Mathlib.Tactic.Common
import Russignol.Base.Automaton

/-!
# The activity LED and the CPU boost

`Led` of `rpi-signer/src/led.rs` and `CpuBoost` of `rpi-signer/src/cpu_freq.rs`, which every signer
connection calls when it opens and when it closes. Both count the connections between their two
calls under a lock that is held over the sysfs write; the LED is switched off by a thread that wakes
later, and the generation tells it whether the LED was lit again. The counters are words of 32 bits
that saturate, so the nesting is that of at most `2 ^ 32 - 1` connections: `activity_nesting`.

A connection takes the two locks one after the other, so a step is one call of one connection or
one thread that wakes, in any order. A write to sysfs may fail, which is logged and nothing else.
-/

namespace Russignol

/-- A file of sysfs: what it holds, and whether the last write to it failed. -/
structure Sysfs (α : Type) where
  content : α
  stale : Bool
  deriving DecidableEq, Repr

namespace Sysfs

variable {α : Type}

/-- `fs::write`. -/
def write (f : Sysfs α) (ok : Bool) (value : α) : Sysfs α :=
  if ok then ⟨value, false⟩ else { f with stale := true }

/-- The file holds the value, unless the last write failed. -/
def Shows (f : Sysfs α) (value : α) : Prop := f.stale = false → f.content = value

/-- A written file shows what was written, unless the write failed. -/
theorem shows_write (f : Sysfs α) (ok : Bool) (value : α) : (f.write ok value).Shows value := by
  intro h
  cases ok with
  | true => rfl
  | false => cases h

end Sysfs

/-- `saturating_add(1)`. -/
def saturatingSucc (n : UInt32) : UInt32 := if n.toNat + 1 < 2 ^ 32 then n + 1 else n

/-- A saturating count goes up to the largest word. -/
theorem toNat_saturatingSucc (n : UInt32) :
    (saturatingSucc n).toNat = min (n.toNat + 1) (2 ^ 32 - 1) := by
  have hlt := n.toNat_lt
  unfold saturatingSucc
  split
  · rename_i hfits
    rw [UInt32.toNat_add, UInt32.toNat_one, Nat.mod_eq_of_lt hfits]
    omega
  · omega

/-- A count that is not zero goes down by one. -/
theorem toNat_pred {n : UInt32} (h : n ≠ 0) : (n - 1).toNat = n.toNat - 1 := by
  have hpos : 0 < n.toNat := by
    rcases Nat.eq_zero_or_pos n.toNat with hzero | hpos
    · exact absurd (UInt32.toNat_inj.1 hzero) h
    · exact hpos
  exact UInt32.toNat_sub_of_le _ _ (UInt32.le_iff_toNat_le.2 hpos)

/-! ## The LED -/

/-- `MIN_ON_DURATION`, in milliseconds. -/
def minOnDuration : Nat := 200

/-- `LedState`, with the file it lights the LED through. -/
structure Led where
  active : UInt32
  generation : UInt64
  onAt : Option Nat
  brightness : Sysfs String
  deriving DecidableEq, Repr

/-- A thread that switches the LED off: the generation it was started for, and how long it
sleeps. -/
structure DeferredOff where
  generation : UInt64
  remaining : Nat
  deriving DecidableEq, Repr

namespace Led

/-- `Led::init`. -/
def init : Led := ⟨0, 0, none, ⟨"0", false⟩⟩

/-- `Led::on`. -/
def on (now : Nat) (ok : Bool) (l : Led) : Led :=
  let l := { l with active := saturatingSucc l.active }
  if l.active ≠ 1 then l
  else
    { l with
      generation := l.generation + 1
      onAt := some now
      brightness := l.brightness.write ok "1" }

/-- `Led::off`, up to the thread it starts. -/
def off (now : Nat) (l : Led) : Led × Option DeferredOff :=
  if l.active = 0 then (l, none)
  else
    let l := { l with active := l.active - 1 }
    if l.active > 0 then (l, none)
    else
      let onAt := l.onAt.getD now
      ({ l with onAt := none }, some ⟨l.generation, minOnDuration - (now - onAt)⟩)

/-- What the thread does when it wakes. -/
def fire (ok : Bool) (d : DeferredOff) (l : Led) : Led :=
  if l.active ≠ 0 ∨ l.generation ≠ d.generation then l
  else { l with brightness := l.brightness.write ok "0" }

/-- The LED counts the connections and is lit for them; when there is none it is dark, or the
thread that darkens it still sleeps. -/
structure Nested (l : Led) (connections : Nat) (deferred : List DeferredOff) : Prop where
  count : l.active.toNat = connections
  lit : 0 < connections → l.brightness.Shows "1"
  dark : connections = 0 → l.brightness.Shows "0" ∨ ∃ d ∈ deferred, d.generation = l.generation

variable {l : Led} {connections : Nat} {deferred : List DeferredOff}

/-- Nothing is running at the start. -/
theorem init_nested : init.Nested 0 [] := ⟨rfl, fun h => absurd h (Nat.lt_irrefl 0),
  fun _ => .inl fun _ => rfl⟩

/-- A connection more. -/
theorem Nested.on (h : l.Nested connections deferred) (hfits : connections + 1 < 2 ^ 32)
    (now : Nat) (ok : Bool) : (l.on now ok).Nested (connections + 1) deferred := by
  have hcount : (saturatingSucc l.active).toNat = connections + 1 := by
    rw [toNat_saturatingSucc, h.count]
    omega
  unfold Led.on
  by_cases hone : saturatingSucc l.active = 1
  · rw [if_neg (not_not_intro hone)]
    exact ⟨hcount, fun _ => Sysfs.shows_write _ _ _, fun hzero => absurd hzero (by omega)⟩
  · rw [if_pos hone]
    refine ⟨hcount, fun _ => h.lit ?_, fun hzero => absurd hzero (by omega)⟩
    by_contra hzero
    exact hone (UInt32.toNat_inj.1 (hcount.trans (by rw [UInt32.toNat_one]; omega)))

/-- A connection less. -/
theorem Nested.off (h : l.Nested (connections + 1) deferred) (now : Nat) :
    (l.off now).1.Nested connections (deferred ++ (l.off now).2.toList) := by
  have hpos : l.active ≠ 0 := by
    intro hzero
    have hcount := h.count
    rw [hzero] at hcount
    cases hcount
  have hcount : (l.active - 1).toNat = connections := by
    rw [toNat_pred hpos, h.count, Nat.add_sub_cancel]
  unfold Led.off
  rw [if_neg hpos]
  dsimp only
  by_cases hmore : l.active - 1 > 0
  · rw [if_pos hmore]
    refine ⟨hcount, fun _ => h.lit (Nat.succ_pos _), fun hzero => ?_⟩
    have hlt := UInt32.lt_iff_toNat_lt.1 hmore
    rw [hcount, hzero] at hlt
    exact absurd hlt (Nat.lt_irrefl 0)
  · rw [if_neg hmore]
    exact ⟨hcount, fun _ => h.lit (Nat.succ_pos _), fun _ =>
      .inr ⟨_, List.mem_append_right _ (List.mem_singleton_self _), rfl⟩⟩

/-- A thread that wakes, however late. -/
theorem Nested.fire (h : l.Nested connections deferred) {i : Nat} {d : DeferredOff}
    (hd : deferred[i]? = some d) (ok : Bool) :
    (l.fire ok d).Nested connections (deferred.eraseIdx i) := by
  unfold Led.fire
  by_cases hidle : l.active ≠ 0 ∨ l.generation ≠ d.generation
  · rw [if_pos hidle]
    refine ⟨h.count, h.lit, fun hzero => ?_⟩
    have hactive : l.active = 0 := UInt32.toNat_inj.1 (h.count.trans hzero)
    rcases h.dark hzero with hdark | ⟨d', hd', hgeneration⟩
    · exact .inl hdark
    · -- the thread that darkens the LED is another one
      obtain ⟨j, hj⟩ := List.mem_iff_getElem?.1 hd'
      refine .inr ⟨d', List.mem_eraseIdx_iff_getElem?.2 ⟨j, ?_, hj⟩, hgeneration⟩
      rintro rfl
      obtain rfl := Option.some.inj (hd.symm.trans hj)
      rcases hidle with hne | hne
      · exact hne hactive
      · exact hne hgeneration.symm
  · rw [if_neg hidle]
    rw [not_or, not_not, not_not] at hidle
    have hzero : connections = 0 := by
      rw [← h.count, hidle.1]
      rfl
    exact ⟨h.count, fun hpos => absurd hzero (by omega), fun _ => .inl (Sysfs.shows_write _ _ _)⟩

end Led

/-! ## The CPU boost -/

/-- `CpuBoostInner`. -/
structure CpuBoost where
  setspeed : Sysfs (List UInt8)
  minFreq : List UInt8
  maxFreq : List UInt8
  active : UInt32
  deriving DecidableEq, Repr

namespace CpuBoost

/-- `CpuBoost::init`. -/
def init (minFreq maxFreq : List UInt8) : CpuBoost := ⟨⟨minFreq, false⟩, minFreq, maxFreq, 0⟩

/-- `CpuBoost::boost`. -/
def boost (ok : Bool) (b : CpuBoost) : CpuBoost :=
  let b := { b with active := saturatingSucc b.active }
  if b.active = 1 then { b with setspeed := b.setspeed.write ok b.maxFreq } else b

/-- `CpuBoost::restore`. -/
def restore (ok : Bool) (b : CpuBoost) : CpuBoost :=
  if b.active = 0 then b
  else
    let b := { b with active := b.active - 1 }
    if b.active = 0 then { b with setspeed := b.setspeed.write ok b.minFreq } else b

/-- The CPU counts the connections and is at its speed for them. -/
structure Nested (b : CpuBoost) (minFreq maxFreq : List UInt8) (connections : Nat) : Prop where
  speeds : b.minFreq = minFreq ∧ b.maxFreq = maxFreq
  count : b.active.toNat = connections
  fast : 0 < connections → b.setspeed.Shows maxFreq
  slow : connections = 0 → b.setspeed.Shows minFreq

variable {b : CpuBoost} {minFreq maxFreq : List UInt8} {connections : Nat}

/-- Nothing is running at the start. -/
theorem init_nested (minFreq maxFreq : List UInt8) :
    (init minFreq maxFreq).Nested minFreq maxFreq 0 :=
  ⟨⟨rfl, rfl⟩, rfl, fun h => absurd h (Nat.lt_irrefl 0), fun _ _ => rfl⟩

/-- A connection more. -/
theorem Nested.boost (h : b.Nested minFreq maxFreq connections) (hfits : connections + 1 < 2 ^ 32)
    (ok : Bool) : (b.boost ok).Nested minFreq maxFreq (connections + 1) := by
  have hcount : (saturatingSucc b.active).toNat = connections + 1 := by
    rw [toNat_saturatingSucc, h.count]
    omega
  unfold CpuBoost.boost
  by_cases hone : saturatingSucc b.active = 1
  · rw [if_pos hone]
    refine ⟨h.speeds, hcount, fun _ => ?_, fun hzero => absurd hzero (by omega)⟩
    rw [← h.speeds.2]
    exact Sysfs.shows_write _ _ _
  · rw [if_neg hone]
    refine ⟨h.speeds, hcount, fun _ => h.fast ?_, fun hzero => absurd hzero (by omega)⟩
    by_contra hzero
    exact hone (UInt32.toNat_inj.1 (hcount.trans (by rw [UInt32.toNat_one]; omega)))

/-- A connection less. -/
theorem Nested.restore (h : b.Nested minFreq maxFreq (connections + 1)) (ok : Bool) :
    (b.restore ok).Nested minFreq maxFreq connections := by
  have hpos : b.active ≠ 0 := by
    intro hzero
    have hcount := h.count
    rw [hzero] at hcount
    cases hcount
  have hcount : (b.active - 1).toNat = connections := by
    rw [toNat_pred hpos, h.count, Nat.add_sub_cancel]
  unfold CpuBoost.restore
  rw [if_neg hpos]
  by_cases hlast : b.active - 1 = 0
  · rw [if_pos hlast]
    have hzero : connections = 0 := by
      rw [← hcount, hlast]
      rfl
    refine ⟨h.speeds, hcount, fun hmore => absurd hzero (by omega), fun _ => ?_⟩
    rw [← h.speeds.1]
    exact Sysfs.shows_write _ _ _
  · rw [if_neg hlast]
    refine ⟨h.speeds, hcount, fun _ => h.fast (Nat.succ_pos _), fun hzero => ?_⟩
    rw [hzero] at hcount
    exact absurd (UInt32.toNat_inj.1 hcount) hlast

end CpuBoost

/-! ## The connections -/

/-- The LED and the CPU beside the connections between their two calls of either, and the threads
that sleep. -/
structure Activity where
  led : Led
  cpu : CpuBoost
  deferred : List DeferredOff
  /-- Connections between `Led::on` and `Led::off`. -/
  lit : Nat
  /-- Connections, and other work, between `CpuBoost::boost` and `CpuBoost::restore`. -/
  boosted : Nat
  deriving DecidableEq, Repr

namespace Activity

/-- A call of a connection, or a thread that wakes, with what becomes of its write. -/
inductive Action
  | on (now : Nat) (ok : Bool)
  | off (now : Nat)
  | fire (i : Nat) (ok : Bool)
  | boost (ok : Bool)
  | restore (ok : Bool)
  deriving DecidableEq, Repr

namespace Action

def isOn : Action → Bool
  | on .. => true
  | _ => false

def isOff : Action → Bool
  | off _ => true
  | _ => false

def isBoost : Action → Bool
  | boost _ => true
  | _ => false

def isRestore : Action → Bool
  | restore _ => true
  | _ => false

end Action

/-- The device before the first connection. -/
def start (minFreq maxFreq : List UInt8) : Activity :=
  ⟨Led.init, CpuBoost.init minFreq maxFreq, [], 0, 0⟩

/-- Take an action; a connection that closes was open. -/
def step (s : Activity) : Action → Option Activity
  | .on now ok => some { s with led := s.led.on now ok, lit := s.lit + 1 }
  | .off now =>
    if s.lit = 0 then none
    else
      some { s with
        led := (s.led.off now).1
        deferred := s.deferred ++ (s.led.off now).2.toList
        lit := s.lit - 1 }
  | .fire i ok =>
    (s.deferred[i]?).map fun d =>
      { s with led := s.led.fire ok d, deferred := s.deferred.eraseIdx i }
  | .boost ok => some { s with cpu := s.cpu.boost ok, boosted := s.boosted + 1 }
  | .restore ok =>
    if s.boosted = 0 then none
    else some { s with cpu := s.cpu.restore ok, boosted := s.boosted - 1 }

/-- A connection that opens finds fewer open than the counters count to. -/
def Fits (s : Activity) : Action → Prop
  | .on .. => s.lit + 1 < 2 ^ 32
  | .boost _ => s.boosted + 1 < 2 ^ 32
  | _ => True

instance (s : Activity) (a : Action) : Decidable (s.Fits a) := by
  cases a <;> simp only [Fits] <;> infer_instance

/-- What holds between two actions. -/
structure Inv (minFreq maxFreq : List UInt8) (s : Activity) : Prop where
  led : s.led.Nested s.lit s.deferred
  cpu : s.cpu.Nested minFreq maxFreq s.boosted

/-- **One step** keeps it, where the counters count on. -/
theorem step_inv {minFreq maxFreq : List UInt8} (s : Activity) (a : Action) (t : Activity)
    (h : s.Inv minFreq maxFreq) (hfits : s.Fits a) (hstep : s.step a = some t) :
    t.Inv minFreq maxFreq := by
  cases a with
  | on now ok =>
    cases hstep
    exact ⟨h.led.on hfits now ok, h.cpu⟩
  | off now =>
    simp only [step] at hstep
    split at hstep
    · cases hstep
    · rename_i hopen
      cases hstep
      obtain ⟨n, hn⟩ := Nat.exists_eq_succ_of_ne_zero hopen
      have hled := h.led
      rw [hn] at hled
      refine ⟨?_, h.cpu⟩
      rw [hn]
      exact hled.off now
  | fire i ok =>
    obtain ⟨d, hd, rfl⟩ := Option.map_eq_some_iff.1 hstep
    exact ⟨h.led.fire hd ok, h.cpu⟩
  | boost ok =>
    cases hstep
    exact ⟨h.led, h.cpu.boost hfits ok⟩
  | restore ok =>
    simp only [step] at hstep
    split at hstep
    · cases hstep
    · rename_i hopen
      cases hstep
      obtain ⟨n, hn⟩ := Nat.exists_eq_succ_of_ne_zero hopen
      have hcpu := h.cpu
      rw [hn] at hcpu
      refine ⟨h.led, ?_⟩
      rw [hn]
      exact hcpu.restore ok

/-- The connections between two calls are those that made the first, less those that made the
second. -/
theorem run_count : ∀ {acts : List Action} {s t : Activity}, Automaton.run step s acts = some t →
    t.lit + acts.countP Action.isOff = s.lit + acts.countP Action.isOn ∧
      t.boosted + acts.countP Action.isRestore = s.boosted + acts.countP Action.isBoost
  | [], s, t, h => by
    cases h
    exact ⟨rfl, rfl⟩
  | a :: acts, s, t, h => by
    obtain ⟨u, hstep, hrun⟩ := Automaton.run_cons.1 h
    obtain ⟨hlit, hboosted⟩ := run_count hrun
    simp only [List.countP_cons]
    cases a with
    | on now ok =>
      cases hstep
      simp only [Action.isOn, Action.isOff, Action.isBoost, Action.isRestore] at *
      simp only [if_true, Bool.false_eq_true, if_false]
      omega
    | off now =>
      simp only [step] at hstep
      split at hstep <;> cases hstep
      simp only [Action.isOn, Action.isOff, Action.isBoost, Action.isRestore] at *
      simp only [if_true, Bool.false_eq_true, if_false]
      omega
    | fire i ok =>
      obtain ⟨d, hd, rfl⟩ := Option.map_eq_some_iff.1 hstep
      simp only [Action.isOn, Action.isOff, Action.isBoost, Action.isRestore] at *
      simp only [Bool.false_eq_true, if_false]
      omega
    | boost ok =>
      cases hstep
      simp only [Action.isOn, Action.isOff, Action.isBoost, Action.isRestore] at *
      simp only [if_true, Bool.false_eq_true, if_false]
      omega
    | restore ok =>
      simp only [step] at hstep
      split at hstep <;> cases hstep
      simp only [Action.isOn, Action.isOff, Action.isBoost, Action.isRestore] at *
      simp only [if_true, Bool.false_eq_true, if_false]
      omega

/-- **The nesting of the connections.** In every run in which fewer than `2 ^ 32` connections
overlap, the counters are the connections between their two calls, the LED is lit and the CPU at its
speed while there is one, the CPU is slow when there is none, and so is the LED dark once no thread
sleeps. -/
theorem activity_nesting (minFreq maxFreq : List UInt8) (acts : List Action) (s : Activity)
    (hfits : Automaton.Along step Fits (start minFreq maxFreq) acts)
    (h : Automaton.run step (start minFreq maxFreq) acts = some s) :
    (s.led.active.toNat + acts.countP Action.isOff = acts.countP Action.isOn ∧
      (0 < s.led.active.toNat → s.led.brightness.Shows "1") ∧
      (s.led.active.toNat = 0 → s.deferred = [] → s.led.brightness.Shows "0")) ∧
    s.cpu.active.toNat + acts.countP Action.isRestore = acts.countP Action.isBoost ∧
      (0 < s.cpu.active.toNat → s.cpu.setspeed.Shows maxFreq) ∧
      (s.cpu.active.toNat = 0 → s.cpu.setspeed.Shows minFreq) := by
  obtain ⟨hled, hcpu⟩ : s.Inv minFreq maxFreq := Automaton.run_invariant step_inv
    ⟨Led.init_nested, CpuBoost.init_nested minFreq maxFreq⟩ hfits h
  obtain ⟨hlit, hboosted⟩ := run_count h
  rw [hled.count, hcpu.count]
  refine ⟨⟨hlit.trans (Nat.zero_add _), hled.lit, fun hzero hnone => ?_⟩,
    hboosted.trans (Nat.zero_add _), hcpu.fast, hcpu.slow⟩
  rcases hled.dark hzero with hdark | ⟨d, hd, -⟩
  · exact hdark
  · rw [hnone] at hd
    cases hd

/-- Two connections that overlap, and the thread of the second one to close. -/
def overlapRun : List Action :=
  [.on 0 true, .boost true, .on 10 true, .restore true, .off 20, .off 30, .fire 0 true]

/-- The LED is dark after the thread woke, and the CPU slow before. -/
theorem activity_nesting_two : ∃ s, Automaton.run step (start [54] [57]) overlapRun = some s ∧
    s.led.brightness.Shows "0" ∧ s.cpu.setspeed.Shows [54] := by
  obtain ⟨s, hs⟩ : ∃ s, Automaton.run step (start [54] [57]) overlapRun = some s := ⟨_, rfl⟩
  obtain ⟨⟨-, -, hdark⟩, -, -, hslow⟩ := activity_nesting [54] [57] overlapRun s
    (by decide +kernel) hs
  cases hs
  exact ⟨_, rfl, hdark rfl rfl, hslow rfl⟩

/-! ## Where the counter stops -/

/-- A device whose LED was lit once and never darkened, by its count and its connections. -/
def lighted (count : UInt32) (connections : Nat) : Activity :=
  ⟨⟨count, 1, some 0, ⟨"1", false⟩⟩, CpuBoost.init [] [], [], connections, 0⟩

/-- Connections that open while the LED is lit. -/
theorem run_on : ∀ (n : Nat) (count : UInt32) (connections : Nat), 0 < count.toNat →
    ∃ count' : UInt32, count'.toNat = min (count.toNat + n) (2 ^ 32 - 1) ∧
      Automaton.run step (lighted count connections) (List.replicate n (.on 0 true)) =
        some (lighted count' (connections + n))
  | 0, count, connections, _ => by
    refine ⟨count, ?_, rfl⟩
    have hlt := count.toNat_lt
    omega
  | n + 1, count, connections, hpos => by
    have hcount := toNat_saturatingSucc count
    have hlt := count.toNat_lt
    have hmany : saturatingSucc count ≠ 1 := by
      intro hone
      rw [hone, UInt32.toNat_one] at hcount
      omega
    obtain ⟨count', hcount', hrun⟩ := run_on n (saturatingSucc count) (connections + 1) (by omega)
    refine ⟨count', by omega, Automaton.run_cons.2 ⟨_, rfl, ?_⟩⟩
    have hstep : ({ lighted count connections with
        led := (lighted count connections).led.on 0 true
        lit := (lighted count connections).lit + 1 } : Activity) =
          lighted (saturatingSucc count) (connections + 1) := by
      show Activity.mk (Led.on 0 true _) _ _ _ _ = _
      rw [Led.on]
      exact congrArg (fun led => Activity.mk led _ _ _ _) (if_pos hmany)
    have hsum : connections + 1 + n = connections + (n + 1) := by omega
    rw [hsum] at hrun
    exact hstep ▸ hrun

/-- Connections that close while others are counted. -/
theorem run_off : ∀ (n : Nat) (count : UInt32) (connections : Nat), count.toNat = n + 1 →
    Automaton.run step (lighted count (connections + n)) (List.replicate n (.off 0)) =
      some (lighted 1 connections)
  | 0, count, connections, hcount => by
    obtain rfl : count = 1 := UInt32.toNat_inj.1 hcount
    rfl
  | n + 1, count, connections, hcount => by
    have hpos : count ≠ 0 := by
      rintro rfl
      cases hcount
    have hless : (count - 1).toNat = n + 1 := by
      rw [toNat_pred hpos, hcount]
      rfl
    have hmore : count - 1 > 0 := UInt32.lt_iff_toNat_lt.2 (by rw [hless]; exact Nat.succ_pos n)
    refine Automaton.run_cons.2 ⟨lighted (count - 1) (connections + n), ?_,
      run_off n (count - 1) connections hless⟩
    have hled : (lighted count (connections + (n + 1))).led.off 0 =
        (⟨count - 1, 1, some 0, ⟨"1", false⟩⟩, none) := by
      exact (if_neg hpos).trans (if_pos hmore)
    have hlit : (lighted count (connections + (n + 1))).lit ≠ 0 := Nat.succ_ne_zero _
    simp only [step]
    rw [if_neg hlit, hled]
    rfl

/-- **The LED is dark over an open connection** where `2 ^ 32` connections overlapped: the counter
had stopped one before. -/
theorem led_dark_past_count : ¬∀ (minFreq maxFreq : List UInt8) (acts : List Action) (s : Activity),
    Automaton.run step (start minFreq maxFreq) acts = some s →
      s.led.active.toNat + acts.countP Action.isOff = acts.countP Action.isOn ∧
        (acts.countP Action.isOff < acts.countP Action.isOn → s.led.brightness.Shows "1") := by
  intro hall
  obtain ⟨n, hn⟩ : ∃ n, n + 2 = 2 ^ 32 := ⟨2 ^ 32 - 2, rfl⟩
  obtain ⟨count, hcount, hopened⟩ := run_on (n + 1) 1 1 (by decide)
  have hopen : Automaton.run step (start [] []) (.on 0 true :: List.replicate (n + 1) (.on 0 true)) =
      some (lighted count (2 + n)) := by
    refine Automaton.run_cons.2 ⟨lighted 1 1, rfl, ?_⟩
    have hsum : 1 + (n + 1) = 2 + n := by omega
    rw [hsum] at hopened
    exact hopened
  have hclosed := run_off n count 2 (by rw [UInt32.toNat_one] at hcount; omega)
  have hlast : Automaton.run step (lighted 1 2) [.off 0, .fire 0 true] =
      some ⟨⟨0, 1, none, ⟨"0", false⟩⟩, CpuBoost.init [] [], [], 1, 0⟩ := rfl
  obtain ⟨-, hlit⟩ := hall [] [] _ _
    (Automaton.run_append (Automaton.run_append hopen hclosed) hlast)
  have hoff : ∀ n, (List.replicate n (Action.off 0)).countP Action.isOff = n ∧
      (List.replicate n (Action.off 0)).countP Action.isOn = 0 := by
    intro n
    simp [List.countP_replicate, Action.isOff, Action.isOn]
  have hon : ∀ n, (List.replicate n (Action.on 0 true)).countP Action.isOn = n ∧
      (List.replicate n (Action.on 0 true)).countP Action.isOff = 0 := by
    intro n
    simp [List.countP_replicate, Action.isOff, Action.isOn]
  have hdark : ("0" : String) = "1" := by
    refine hlit ?_ rfl
    simp only [List.countP_append, List.countP_cons, List.countP_nil, (hoff _).1, (hoff _).2,
      (hon _).1, (hon _).2, Action.isOn, Action.isOff]
    simp
  exact absurd hdark (by decide)

end Activity

end Russignol
