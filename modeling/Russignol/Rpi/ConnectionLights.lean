import Russignol.Rpi.Activity
import Russignol.Signer.WireSafety

/-!
# The connections of a signer

The connection limit of `libs/signer/src/server.rs`, and the LED and the CPU boost that
`connection_callbacks` of `rpi-signer/src/main.rs` hangs on a connection that opens and one that
closes. The counter of an accept loop is the threads that hold its guard, so it never drops below
zero and no more than the limit are alive. An accept loop that is started again counts from zero,
and the threads of earlier ones live on: what is alive altogether is bounded by the number of loops.

The callbacks are called in pairs whatever a connection dies of, so while the threads fit the
counters of `Activity` the LED is lit and the CPU fast exactly as long as a connection is open
(`connections_light`).
-/

namespace Russignol

/-! ## The threads -/

namespace Phase

/-- The thread holds its connection guard. -/
def alive : Phase → Bool
  | .ended => false
  | _ => true

/-- The thread is between `Led::on` and `Led::off`. -/
def lit : Phase → Bool
  | .opening | .serving | .left | .closing => true
  | _ => false

/-- The thread is between `CpuBoost::boost` and `CpuBoost::restore`. -/
def boosted : Phase → Bool
  | .serving | .left => true
  | _ => false

end Phase

/-- Setting one entry moves a count by that entry. -/
theorem countP_set_of {α : Type} {p : α → Bool} {l : List α} {i : Nat} {a b : α}
    (h : l[i]? = some a) :
    (l.set i b).countP p + (if p a then 1 else 0) = l.countP p + if p b then 1 else 0 := by
  obtain ⟨hi, rfl⟩ := List.getElem?_eq_some_iff.1 h
  have hcount := List.countP_set (p := p) (a := b) hi
  have hpos : p l[i] = true → 0 < l.countP p := fun hp =>
    List.countP_pos_iff.2 ⟨l[i], List.getElem_mem hi, hp⟩
  split at hcount
  · rename_i hp
    have hle := hpos hp
    rw [if_pos hp]
    omega
  · rename_i hp
    rw [if_neg hp]
    omega

namespace SocketServer

section
variable [Blst]

/-- The threads that are alive. -/
def alive (s : SocketServer) : Nat := s.conns.countP (·.phase.alive)

/-- The threads that hold a guard of this accept loop. -/
def guarded (s : SocketServer) : Nat :=
  s.conns.countP fun c => c.phase.alive && decide (c.generation = s.generation)

/-- The threads between the calls of the LED. -/
def lit (s : SocketServer) : Nat := s.conns.countP (·.phase.lit)

/-- The threads between the calls of the CPU boost. -/
def boosted (s : SocketServer) : Nat := s.conns.countP (·.phase.boosted)

/-- A thread that is lit is alive. -/
theorem lit_le_alive (s : SocketServer) : s.lit ≤ s.alive := by
  refine List.countP_mono_left fun c _ h => ?_
  rcases c with ⟨_, phase, _, _, _⟩
  cases phase <;> first | rfl | cases h

/-- A thread that is boosted is lit. -/
theorem boosted_le_lit (s : SocketServer) : s.boosted ≤ s.lit := by
  refine List.countP_mono_left fun c _ h => ?_
  rcases c with ⟨_, phase, _, _, _⟩
  cases phase <;> first | rfl | cases h

variable [Blake3] [Base58] {cfg : SocketConfig} {s s' : SocketServer}

/-- What an event does to the threads: nothing, one more that holds a guard, one that goes on with
its guard or drops it, another accept loop, or the end of all. -/
inductive ThreadEffect (cfg : SocketConfig) (s s' : SocketServer) : Prop
  | still : s'.conns = s.conns → s'.counter = s.counter → s'.generation = s.generation →
      ThreadEffect cfg s s'
  | taken (c : Conn) : s.counter < cfg.maxConnections → c.generation = s.generation →
      c.phase = .spawned → s'.conns = s.conns ++ [c] → s'.counter = s.counter + 1 →
      s'.generation = s.generation → ThreadEffect cfg s s'
  | moved (i : Nat) (c c' : Conn) : s.conns[i]? = some c → s'.conns = s.conns.set i c' →
      c'.generation = c.generation → c'.phase.alive = c.phase.alive → s'.counter = s.counter →
      s'.generation = s.generation → ThreadEffect cfg s s'
  | dropped (i : Nat) (c : Conn) : s.conns[i]? = some c → c.phase = .closed →
      s'.conns = s.conns.set i { c with phase := .ended } →
      s'.counter = (if c.generation = s.generation then s.counter - 1 else s.counter) →
      s'.generation = s.generation → ThreadEffect cfg s s'
  | reopened : s'.conns = s.conns → s'.counter = 0 → s'.generation = s.generation + 1 →
      ThreadEffect cfg s s'
  | lost : s'.conns = s.conns.map (fun c => { c with phase := .ended }) → s'.counter = 0 →
      s'.generation = s.generation + 1 → ThreadEffect cfg s s'

omit [Blake3] [Base58] in
/-- A thread that moves on holds its guard before and after. -/
theorem ThreadEffect.of_move {i : Nat} {p q : Phase} (hpq : q.alive = p.alive)
    (h : s.move i p q = some s') : ThreadEffect cfg s s' := by
  obtain ⟨c, hc, rfl, rfl⟩ := move_spec h
  exact .moved i c _ hc rfl rfl hpq rfl rfl

/-- **An event, as the threads see it.** -/
theorem step_threads [BlsKeys] [Bson] {e : SocketEvent cfg} (h : s.step cfg e = some s') :
    ThreadEffect cfg s s' := by
  cases e with
  | accept =>
    obtain ⟨wm, -, h⟩ := Option.map_eq_some_iff.1 h
    split at h
    · cases h
      exact .still rfl rfl rfl
    · rename_i hfree
      cases h
      exact .taken _ (Nat.lt_of_not_le hfree) rfl rfl rfl rfl rfl
  | acceptFailed =>
    cases h
    exact .reopened rfl rfl rfl
  | configure i ok => exact .of_move (by cases ok <;> rfl) h
  | opened i => exact .of_move (by rfl) h
  | hangUp i => exact .of_move (by rfl) h
  | complete i => exact .of_move (by rfl) h
  | completed i => exact .of_move (by rfl) h
  | receive i bytes =>
    obtain ⟨c, hc, rfl⟩ := Option.map_eq_some_iff.1 h
    exact .moved i c _ hc rfl rfl rfl rfl rfl
  | serve i io =>
    obtain ⟨c, hc, h⟩ := Option.bind_eq_some_iff.1 h
    obtain ⟨wm, hproc, h⟩ := Option.bind_eq_some_iff.1 h
    split at h
    · rename_i hphase
      have hleft : Phase.left.alive = c.phase.alive := by rw [hphase]; rfl
      cases serve_spec hproc h with
      | refused => exact .moved i c _ hc rfl rfl hleft rfl rfl
      | unanswered => exact .moved i c _ hc rfl rfl hleft rfl rfl
      | answered => exact .moved i c _ hc rfl rfl rfl rfl rfl
    · cases h
  | drop i =>
    obtain ⟨c, hc, hphase, rfl⟩ := dropGuard_spec h
    exact .dropped i c hc hphase rfl rfl rfl
  | fire | confirm =>
    obtain ⟨d, -, rfl⟩ := Option.map_eq_some_iff.1 h
    exact .still rfl rfl rfl
  | restart io =>
    rw [step, Option.map_eq_some_iff] at h
    obtain ⟨d, -, rfl⟩ := h
    exact .lost rfl rfl rfl

/-- The counter of the accept loop is the threads that hold its guards, and within the limit; and
each earlier loop left at most a limit of threads behind. -/
structure Limited (cfg : SocketConfig) (s : SocketServer) : Prop where
  counter : s.counter = s.guarded
  limit : s.counter ≤ cfg.maxConnections
  generations : ∀ c ∈ s.conns, c.generation ≤ s.generation
  alive : s.alive ≤ cfg.maxConnections * s.generation + s.counter

omit [Blake3] [Base58] in
/-- **One event** keeps it. -/
theorem Limited.step (h : s.Limited cfg) (heffect : ThreadEffect cfg s s') : s'.Limited cfg := by
  obtain ⟨hcounter, hlimit, hgenerations, halive⟩ := h
  unfold guarded at hcounter
  unfold SocketServer.alive at halive
  cases heffect with
  | still hconns hcount hgen =>
    refine ⟨?_, hcount ▸ hlimit, ?_, ?_⟩
    · rw [guarded, hconns, hcount, hgen, hcounter]
    · rw [hconns, hgen]
      exact hgenerations
    · rw [SocketServer.alive, hconns, hcount, hgen]
      exact halive
  | taken c hfree hc hphase hconns hcount hgen =>
    refine ⟨?_, by omega, ?_, ?_⟩
    · rw [guarded, hconns, hcount, hgen, List.countP_append, hcounter, List.countP_singleton, hc,
        hphase, decide_eq_true rfl]
      rfl
    · rw [hconns, hgen]
      exact List.forall_mem_append.2 ⟨hgenerations, fun c' hc' =>
        List.mem_singleton.1 hc' ▸ hc.le⟩
    · rw [SocketServer.alive, hconns, hcount, hgen, List.countP_append, List.countP_singleton,
        hphase]
      show _ + 1 ≤ _
      omega
  | moved i c c' hc hconns hc' hphase hcount hgen =>
    have hset := fun p : Conn → Bool => countP_set_of (p := p) (b := c') hc
    refine ⟨?_, hcount ▸ hlimit, ?_, ?_⟩
    · rw [guarded, hconns, hcount, hgen, hcounter]
      have hone := hset fun c => c.phase.alive && decide (c.generation = s.generation)
      simp only [hc', hphase] at hone
      omega
    · rw [hconns, hgen]
      intro d hd
      rcases List.mem_or_eq_of_mem_set hd with hd | rfl
      · exact hgenerations d hd
      · exact hc'.le.trans (hgenerations c (List.mem_of_getElem? hc))
    · rw [SocketServer.alive, hconns, hcount, hgen]
      have hone := hset fun c => c.phase.alive
      simp only [hphase] at hone
      omega
  | dropped i c hc hphase hconns hcount hgen =>
    have hset := fun p : Conn → Bool => countP_set_of (p := p) (b := { c with phase := .ended }) hc
    have hown := hset fun c => c.phase.alive && decide (c.generation = s.generation)
    have hall := hset fun c => c.phase.alive
    have hclosed : Phase.closed.alive = true := rfl
    have hended : Phase.ended.alive = false := rfl
    simp only [hphase, hclosed, hended, Bool.true_and, Bool.false_and, Bool.false_eq_true, if_false,
      if_true, decide_eq_true_eq] at hown hall
    refine ⟨?_, ?_, ?_, ?_⟩
    · rw [guarded, hconns, hcount, hgen]
      split at hown <;> split <;> omega
    · rw [hcount]
      split <;> omega
    · rw [hconns, hgen]
      intro d hd
      rcases List.mem_or_eq_of_mem_set hd with hd | rfl
      · exact hgenerations d hd
      · exact hgenerations c (List.mem_of_getElem? hc)
    · rw [SocketServer.alive, hconns, hcount, hgen]
      split at hown <;> split <;> omega
  | reopened hconns hcount hgen =>
    refine ⟨?_, by omega, ?_, ?_⟩
    · rw [guarded, hconns, hcount, hgen, eq_comm, List.countP_eq_zero]
      intro c hc hnew
      have hle := hgenerations c hc
      rw [Bool.and_eq_true, decide_eq_true_eq] at hnew
      omega
    · rw [hconns, hgen]
      exact fun c hc => (hgenerations c hc).trans (Nat.le_succ _)
    · rw [SocketServer.alive, hconns, hcount, hgen, Nat.mul_succ]
      omega
  | lost hconns hcount hgen =>
    have hnone : ∀ p : Conn → Bool, (∀ c : Conn, p { c with phase := .ended } = false) →
        (s.conns.map fun c : Conn => { c with phase := .ended }).countP p = 0 := by
      intro p hp
      rw [List.countP_eq_zero]
      intro c hc
      obtain ⟨c, -, rfl⟩ := List.mem_map.1 hc
      rw [hp]
      exact Bool.false_ne_true
    refine ⟨?_, by omega, ?_, ?_⟩
    · rw [guarded, hconns, hcount, hgen, hnone _ fun _ => rfl]
    · rw [hconns, hgen]
      intro _ hmem
      obtain ⟨c, hc, rfl⟩ := List.mem_map.1 hmem
      exact (hgenerations c hc).trans (Nat.le_succ _)
    · rw [SocketServer.alive, hconns, hnone _ fun _ => rfl]
      exact Nat.zero_le _

end

end SocketServer

/-! ## What the threads call -/

section
variable [Blst] [BlsKeys] [Bson] [Blake3] [Base58] {cfg : SocketConfig} {s s' : SocketServer}

/-- An event in which no thread enters or leaves a callback and none is lost. -/
def SocketEvent.Quiet : SocketEvent cfg → Prop
  | .configure _ ok => ok = false
  | .opened _ | .complete _ | .completed _ | .restart _ => False
  | _ => True

namespace SocketServer

omit [BlsKeys] [Bson] [Blake3] [Base58] in
/-- A thread that moves on is counted where it was and where it is. -/
theorem countP_move {i : Nat} {p q : Phase} (h : s.move i p q = some s') (f : Phase → Bool) :
    s'.conns.countP (f ·.phase) + (if f p then 1 else 0) =
      s.conns.countP (f ·.phase) + if f q then 1 else 0 := by
  obtain ⟨c, hc, rfl, rfl⟩ := move_spec h
  exact countP_set_of (p := fun c => f c.phase) hc

/-- What a quiet event leaves of a count that starts with the callback of an open connection and
ends with that of a closed one. -/
theorem countP_quiet {e : SocketEvent cfg} (h : s.step cfg e = some s') (hquiet : e.Quiet)
    {f : Phase → Bool} (hspawned : f .spawned = false) (hclosed : f .closed = false)
    (hended : f .ended = false) (hleft : f .left = f .serving) :
    s'.conns.countP (f ·.phase) = s.conns.countP (f ·.phase) := by
  cases e with
  | accept =>
    obtain ⟨wm, -, h⟩ := Option.map_eq_some_iff.1 h
    split at h
    · cases h
      rfl
    · cases h
      rw [List.countP_append, List.countP_singleton, hspawned]
      rfl
  | acceptFailed =>
    cases h
    rfl
  | configure i ok =>
    obtain rfl : ok = false := hquiet
    have hcount := countP_move h f
    simp only [hspawned, hclosed, Bool.false_eq_true, if_false] at hcount
    omega
  | receive i bytes =>
    obtain ⟨c, hc, rfl⟩ := Option.map_eq_some_iff.1 h
    have hcount := countP_set_of (p := fun c => f c.phase)
      (b := { c with received := c.received ++ bytes, inbox := c.inbox ++ bytes }) hc
    exact Nat.add_right_cancel hcount
  | serve i io =>
    obtain ⟨c, hc, h⟩ := Option.bind_eq_some_iff.1 h
    obtain ⟨wm, hproc, h⟩ := Option.bind_eq_some_iff.1 h
    split at h
    · rename_i hphase
      have hsame : ∀ c' : Conn, f c'.phase = f c.phase →
          (s.conns.set i c').countP (f ·.phase) = s.conns.countP (f ·.phase) := by
        intro c' hc'
        have hcount := countP_set_of (p := fun c => f c.phase) (b := c') hc
        simp only [hc'] at hcount
        exact Nat.add_right_cancel hcount
      cases serve_spec hproc h with
      | refused => exact hsame _ (hphase ▸ hleft)
      | unanswered => exact hsame _ (hphase ▸ hleft)
      | answered => exact hsame _ rfl
    · cases h
  | hangUp i =>
    have hcount := countP_move h f
    rw [hleft] at hcount
    exact Nat.add_right_cancel hcount
  | drop i =>
    obtain ⟨c, hc, hphase, rfl⟩ := dropGuard_spec h
    have hcount := countP_set_of (p := fun c => f c.phase) (b := { c with phase := .ended }) hc
    simp only [hphase, hclosed, hended, Bool.false_eq_true, if_false] at hcount
    exact hcount
  | fire | confirm =>
    obtain ⟨d, -, rfl⟩ := Option.map_eq_some_iff.1 h
    rfl
  | opened | complete | completed | restart => cases hquiet

end SocketServer

/-! ## The lights -/

/-- A server with its LED and its CPU, and the PIN checks and key generations that boost the CPU
too. -/
structure Lights where
  server : SocketServer
  activity : Activity
  work : Nat

/-- What can happen: an event of the server, with the time and what becomes of the write to sysfs,
an LED thread that wakes, and a PIN check or key generation (`spawn_pin_verify`, `spawn_keygen`)
that starts or ends. -/
inductive LightEvent (cfg : SocketConfig)
  | socket (e : SocketEvent cfg) (now : Nat) (ok : Bool)
  | fire (i : Nat) (ok : Bool)
  | workStarts (ok : Bool)
  | workEnds (ok : Bool)

namespace Lights

/-- The device before the first connection. -/
def start (d : Device) (minFreq maxFreq : List UInt8) : Lights :=
  ⟨.start d, .start minFreq maxFreq, 0⟩

/-- A callback is called. -/
def call (l : Lights) (a : Activity.Action) : Option Lights :=
  (l.activity.step a).map fun activity => { l with activity := activity }

variable (cfg) (minFreq maxFreq : List UInt8)

/-- Take an event. The LED is lit before the CPU is fast and dark after it is slow
(`connection_callbacks`). -/
def step (l : Lights) : LightEvent cfg → Option Lights
  | .socket e now ok =>
    (l.server.step cfg e).bind fun server =>
      match e with
      | .configure _ true => { l with server := server }.call (.on now ok)
      | .opened _ => { l with server := server }.call (.boost ok)
      | .complete _ => { l with server := server }.call (.restore ok)
      | .completed _ => { l with server := server }.call (.off now)
      | .restart _ => some ⟨server, .start minFreq maxFreq, 0⟩
      | _ => some { l with server := server }
  | .fire i ok => l.call (.fire i ok)
  | .workStarts ok => { l with work := l.work + 1 }.call (.boost ok)
  | .workEnds ok => if l.work = 0 then none else { l with work := l.work - 1 }.call (.restore ok)

/-- The counters of the LED and the CPU can count all threads of all accept loops so far. -/
def Fits (l : Lights) : Prop :=
  cfg.maxConnections * (l.server.generation + 1) + l.work + 1 < 2 ^ 32

instance (l : Lights) : Decidable (l.Fits cfg) := inferInstanceAs (Decidable (_ < _))

/-- What holds between two events. -/
structure Inv (l : Lights) : Prop where
  limited : l.server.Limited cfg
  activity : l.activity.Inv minFreq maxFreq
  lit : l.activity.lit = l.server.lit
  boosted : l.activity.boosted = l.server.boosted + l.work

variable {cfg minFreq maxFreq} {l l' : Lights}

omit [BlsKeys] [Bson] [Blake3] [Base58] in
/-- Another callback of the CPU or the LED finds room in the counters. -/
theorem Inv.fits (h : l.Inv cfg minFreq maxFreq) (hfits : l.Fits cfg) :
    l.activity.lit + 1 < 2 ^ 32 ∧ l.activity.boosted + 1 < 2 ^ 32 := by
  have halive := h.limited.alive
  have hlimit := h.limited.limit
  have hlit := l.server.lit_le_alive
  have hboosted := l.server.boosted_le_lit
  rw [h.lit, h.boosted]
  rw [Fits, Nat.mul_succ] at hfits
  omega

omit [BlsKeys] [Bson] [Blake3] [Base58] in
/-- A callback that is called finds the counts before it, and leaves those after it. -/
theorem Inv.call {server : SocketServer} {a : Activity.Action} {work : Nat}
    (hstep : { l with server := server, work := work }.call a = some l')
    (hlimited : server.Limited cfg) (hactivity : l.activity.Inv minFreq maxFreq)
    (hfits : l.activity.Fits a)
    (hlit : ∀ t, l.activity.step a = some t → t.lit = server.lit)
    (hboosted : ∀ t, l.activity.step a = some t → t.boosted = server.boosted + work) :
    l'.Inv cfg minFreq maxFreq := by
  obtain ⟨t, ht, rfl⟩ := Option.map_eq_some_iff.1 hstep
  exact ⟨hlimited, Activity.step_inv _ _ _ hactivity hfits ht, hlit t ht, hboosted t ht⟩

/-- **One event** keeps the lights with the threads. -/
theorem Inv.step (h : l.Inv cfg minFreq maxFreq) (hfits : l.Fits cfg) {e : LightEvent cfg}
    (hstep : l.step cfg minFreq maxFreq e = some l') : l'.Inv cfg minFreq maxFreq := by
  obtain ⟨hroomLit, hroomBoosted⟩ := h.fits hfits
  obtain ⟨hlimited, hactivity, hlit, hboosted⟩ := h
  cases e with
  | socket e now ok =>
    obtain ⟨server, hserver, hstep⟩ := Option.bind_eq_some_iff.1 hstep
    replace hlimited := hlimited.step (SocketServer.step_threads hserver)
    have hquiet : e.Quiet → { l with server := server }.Inv cfg minFreq maxFreq := fun hq =>
      ⟨hlimited, hactivity,
        hlit.trans (SocketServer.countP_quiet hserver hq rfl rfl rfl rfl).symm,
        hboosted.trans (congrArg (· + l.work)
          (SocketServer.countP_quiet hserver hq rfl rfl rfl rfl).symm)⟩
    cases e with
    | configure i opens =>
      cases opens with
      | true =>
        have hmoreLit := SocketServer.countP_move hserver Phase.lit
        have hsameBoosted := SocketServer.countP_move hserver Phase.boosted
        refine .call hstep hlimited hactivity hroomLit (fun t ht => ?_) (fun t ht => ?_)
        · cases ht
          simp only [hlit]
          exact hmoreLit.symm
        · cases ht
          simp only [hboosted]
          exact congrArg (· + l.work) hsameBoosted.symm
      | false =>
        cases hstep
        exact hquiet rfl
    | opened i =>
      have hsameLit := SocketServer.countP_move hserver Phase.lit
      have hmoreBoosted := SocketServer.countP_move hserver Phase.boosted
      refine .call hstep hlimited hactivity hroomBoosted (fun t ht => ?_) (fun t ht => ?_)
      · cases ht
        exact hlit.trans (Nat.add_right_cancel hsameLit.symm)
      · cases ht
        change server.boosted + 0 = l.server.boosted + 1 at hmoreBoosted
        dsimp only
        omega
    | complete i =>
      have hsameLit := SocketServer.countP_move hserver Phase.lit
      have hlessBoosted := SocketServer.countP_move hserver Phase.boosted
      change server.boosted + 1 = l.server.boosted + 0 at hlessBoosted
      refine .call hstep hlimited hactivity trivial (fun t ht => ?_) (fun t ht => ?_)
      · simp only [Activity.step] at ht
        split at ht <;> cases ht
        exact hlit.trans (Nat.add_right_cancel hsameLit.symm)
      · simp only [Activity.step] at ht
        split at ht <;> cases ht
        dsimp only
        omega
    | completed i =>
      have hlessLit := SocketServer.countP_move hserver Phase.lit
      have hsameBoosted := SocketServer.countP_move hserver Phase.boosted
      change server.lit + 1 = l.server.lit + 0 at hlessLit
      refine .call hstep hlimited hactivity trivial (fun t ht => ?_) (fun t ht => ?_)
      · simp only [Activity.step] at ht
        split at ht <;> cases ht
        dsimp only
        omega
      · simp only [Activity.step] at ht
        split at ht <;> cases ht
        exact hboosted.trans (congrArg (· + l.work) (Nat.add_right_cancel hsameBoosted.symm))
    | restart io =>
      cases hstep
      rw [SocketServer.step, Option.map_eq_some_iff] at hserver
      obtain ⟨d, -, rfl⟩ := hserver
      have hnone : ∀ f : Phase → Bool, f .ended = false →
          (l.server.conns.map fun c : Conn => { c with phase := .ended }).countP (f ·.phase) =
            0 := by
        intro f hf
        rw [List.countP_map, List.countP_eq_zero]
        intro c _
        rw [Function.comp_apply, hf]
        exact Bool.false_ne_true
      refine ⟨hlimited, ⟨Led.init_nested, CpuBoost.init_nested minFreq maxFreq⟩, ?_, ?_⟩
      · exact (hnone Phase.lit rfl).symm
      · exact (hnone Phase.boosted rfl).symm
    | accept | acceptFailed | receive | serve | hangUp | drop | fire | confirm =>
      cases hstep
      exact hquiet trivial
  | fire i ok =>
    refine .call hstep hlimited hactivity trivial (fun t ht => ?_) (fun t ht => ?_)
    · obtain ⟨d, -, rfl⟩ := Option.map_eq_some_iff.1 ht
      exact hlit
    · obtain ⟨d, -, rfl⟩ := Option.map_eq_some_iff.1 ht
      exact hboosted
  | workStarts ok =>
    refine .call hstep hlimited hactivity hroomBoosted (fun t ht => ?_) (fun t ht => ?_)
    · cases ht
      exact hlit
    · cases ht
      exact congrArg (· + 1) hboosted
  | workEnds ok =>
    simp only [Lights.step] at hstep
    split at hstep
    · cases hstep
    · rename_i hwork
      refine .call hstep hlimited hactivity trivial (fun t ht => ?_) (fun t ht => ?_)
      · simp only [Activity.step] at ht
        split at ht <;> cases ht
        exact hlit
      · simp only [Activity.step] at ht
        split at ht <;> cases ht
        dsimp only
        omega

/-- No callback finds its counter at zero: what the server does, it does with its lights. -/
theorem Inv.taken (h : l.Inv cfg minFreq maxFreq) {e : SocketEvent cfg} {server : SocketServer}
    (hserver : l.server.step cfg e = some server) (now : Nat) (ok : Bool) :
    ∃ l', l.step cfg minFreq maxFreq (.socket e now ok) = some l' ∧ l'.server = server := by
  have htake : ∀ a : Activity.Action, (∃ t, l.activity.step a = some t) →
      ∃ l', ({ l with server := server } : Lights).call a = some l' ∧ l'.server = server := by
    rintro a ⟨t, ht⟩
    exact ⟨_, Option.map_eq_some_iff.2 ⟨t, ht, rfl⟩, rfl⟩
  simp only [Lights.step, hserver, Option.bind_some]
  cases e with
  | configure i opens =>
    cases opens with
    | true => exact htake _ ⟨_, rfl⟩
    | false => exact ⟨_, rfl, rfl⟩
  | opened i => exact htake _ ⟨_, rfl⟩
  | complete i =>
    have hless := SocketServer.countP_move hserver Phase.boosted
    change server.boosted + 1 = l.server.boosted + 0 at hless
    have hopen : l.activity.boosted ≠ 0 := by
      rw [h.boosted]
      omega
    exact htake _ ⟨_, if_neg hopen⟩
  | completed i =>
    have hless := SocketServer.countP_move hserver Phase.lit
    change server.lit + 1 = l.server.lit + 0 at hless
    have hopen : l.activity.lit ≠ 0 := by
      rw [h.lit]
      omega
    exact htake _ ⟨_, if_neg hopen⟩
  | accept | acceptFailed | receive | serve | hangUp | drop | fire | confirm | restart =>
    exact ⟨_, rfl, rfl⟩

/-- **The lights of the connections.** In every run whose connections and PIN checks a `u32` can
count: no more threads than the limit hold a guard of the accept loop, whose counter they are; while
a connection is served the LED is lit and the CPU fast, whatever other connections, PIN checks and
deferred threads do; and once no thread is in or between the callbacks the LED is dark, or a thread
that darkens it sleeps, and the CPU is slow when nothing else boosts it. A file whose last write
failed shows neither. No event of the server is held up by the counters. -/
theorem connections_light (cfg : SocketConfig) (d : Device) (minFreq maxFreq : List UInt8)
    (events : List (LightEvent cfg)) (l : Lights)
    (hfits : Automaton.Along (step cfg minFreq maxFreq) (fun l _ => l.Fits cfg)
      (start d minFreq maxFreq) events)
    (hrun : Automaton.run (step cfg minFreq maxFreq) (start d minFreq maxFreq) events = some l) :
    (l.server.counter = l.server.guarded ∧ l.server.guarded ≤ cfg.maxConnections) ∧
    ((∃ c ∈ l.server.conns, c.phase = .serving) →
      l.activity.led.brightness.Shows "1" ∧ l.activity.cpu.setspeed.Shows maxFreq) ∧
    ((∀ c ∈ l.server.conns, c.phase.lit = false) →
      (l.activity.deferred = [] → l.activity.led.brightness.Shows "0") ∧
      (l.work = 0 → l.activity.cpu.setspeed.Shows minFreq)) ∧
    ∀ e server, l.server.step cfg e = some server → ∀ now ok, ∃ l',
      l.step cfg minFreq maxFreq (.socket e now ok) = some l' ∧ l'.server = server := by
  have hstart : (start d minFreq maxFreq).Inv cfg minFreq maxFreq :=
    ⟨⟨rfl, Nat.zero_le _, fun c hc => absurd hc List.not_mem_nil, Nat.zero_le _⟩,
      ⟨Led.init_nested, CpuBoost.init_nested minFreq maxFreq⟩, rfl, rfl⟩
  have hkeep : ∀ (a : Lights) (e : LightEvent cfg) (b : Lights), a.Inv cfg minFreq maxFreq →
      a.Fits cfg → a.step cfg minFreq maxFreq e = some b → b.Inv cfg minFreq maxFreq :=
    fun _ _ _ hinv hroom hstep => hinv.step hroom hstep
  have hinv : l.Inv cfg minFreq maxFreq := Automaton.run_invariant hkeep hstart hfits hrun
  obtain ⟨hled, hcpu⟩ := hinv.activity
  refine ⟨⟨hinv.limited.counter, hinv.limited.counter ▸ hinv.limited.limit⟩, ?_, ?_,
    fun e server hserver now ok => hinv.taken hserver now ok⟩
  · rintro ⟨c, hc, hphase⟩
    have hboosted : 0 < l.server.boosted := List.countP_pos_iff.2 ⟨c, hc, by rw [hphase]; rfl⟩
    have hlit := hboosted.trans_le l.server.boosted_le_lit
    exact ⟨hled.lit (hinv.lit ▸ hlit), hcpu.fast (hinv.boosted ▸ Nat.add_pos_left hboosted _)⟩
  · intro hidle
    have hlit : l.server.lit = 0 := List.countP_eq_zero.2 fun c hc => by
      rw [hidle c hc]
      exact Bool.false_ne_true
    have hboosted : l.server.boosted = 0 := Nat.le_zero.1 (hlit ▸ l.server.boosted_le_lit)
    refine ⟨fun hnone => ?_, fun hwork => hcpu.slow (by rw [hinv.boosted, hboosted, hwork])⟩
    rcases hled.dark (hinv.lit.trans hlit) with hdark | ⟨d, hd, -⟩
    · exact hdark
    · rw [hnone] at hd
      cases hd

end Lights

end

section
attribute [local instance] plainBlake3 plainBase58 plainBlst plainBlsKeys plainBson

/-- Two clients that are both served while a PIN is checked. -/
def litRun : List (LightEvent testSocketConfig) :=
  .workStarts true :: twoClients.map (.socket · 0 true) ++ [.workEnds true]

/-- The LED is lit and the CPU fast after the PIN check too. -/
theorem connections_light_twoClients : ∃ l,
    Automaton.run (Lights.step testSocketConfig [54] [57])
        (.start (.boot testSocketConfig.card LoadIo.quiet (testDisk [testKey 1] 100) []) [54] [57])
        litRun = some l ∧
      l.activity.led.brightness.Shows "1" ∧ l.activity.cpu.setspeed.Shows [57] := by
  have hserved : (Automaton.run (Lights.step testSocketConfig [54] [57])
      (.start (.boot testSocketConfig.card LoadIo.quiet (testDisk [testKey 1] 100) []) [54] [57])
      litRun).map (fun l => l.server.conns.any (·.phase = .serving)) = some true := by
    decide +kernel
  obtain ⟨l, hrun, hserved⟩ := Option.map_eq_some_iff.1 hserved
  obtain ⟨c, hc, hphase⟩ := List.any_eq_true.1 hserved
  obtain ⟨-, hlit, -⟩ := Lights.connections_light testSocketConfig _ [54] [57] litRun l
    (by decide +kernel) hrun
  exact ⟨l, hrun, hlit ⟨c, hc, of_decide_eq_true hphase⟩⟩

end

end Russignol
