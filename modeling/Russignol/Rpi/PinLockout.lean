import Mathlib.Data.List.Infix
import Russignol.Base.Automaton
import Russignol.Rpi.App

/-!
# The PIN lockout

The failed attempts of one process, over any sequence of events at any pace. The events wait in one
channel, in order (`drain_events` of `rpi-signer/src/main.rs`), and so do those that the reducer
emits: the `DeviceLocked` of the fifth failure stands behind whatever waited when it was counted.
Any event may be posted at any time, and a verification that is at work reports once.

Until it is handled, the lockout keeps the PINs that stand before it from a verification
(`Lockout.Agrees`); then the locked state is never left. What the reducer does not keep is how many
verifications are out: `pin_lockout` says that the steps that break a part of the claim are the PINs
that are handled while one is (`Lockout.InTurn`).
-/

namespace Russignol

namespace App

/-! ## Who spawns a verification -/

/-- **A verification is spawned by an entered PIN only**, at the PIN, when no lockout runs. -/
theorem handleEvent_verify {io : AppIo} {app : App} {event : AppEvent} {p : Pin}
    (h : .spawnPinVerify p ∈ (app.handleEvent io event).2.2) :
    event = .pinEntered p ∧ (∃ failed lockoutUntil, app.state = .pinEntry failed lockoutUntil) ∧
      (∀ failed t, app.state = .pinEntry failed (some t) → t ≤ io.now) ∧
      (app.handleEvent io event).2.2 =
        [.showProgress "Verifying PIN..." (some 8000) true 0, .spawnPinVerify p] := by
  cases handleEvent_effect h with
  | quiet hquiet => cases hquiet
  | setup _ heffect =>
    cases heffect with
    | quiet hquiet => cases hquiet
  | @pinEntry failed lockoutUntil hstate heffect =>
    cases heffect with
    | quiet hquiet => cases hquiet
    | verify hevent htime =>
      subst hevent
      refine ⟨rfl, ⟨failed, lockoutUntil, hstate⟩, htime, ?_⟩
      cases lockoutUntil with
      | none => simp only [handleEvent, hstate, handlePinEntry]
      | some t =>
        have hpast := Nat.not_lt.2 (htime failed t hstate)
        simp only [handleEvent, hstate, handlePinEntry, if_neg hpast]
  | active _ heffect =>
    cases heffect with
    | quiet hquiet => cases hquiet

/-- Setup does not lead to the PIN entry. -/
theorem handleSetup_not_pinEntry {io : AppIo} {app : App} {event : AppEvent}
    {firstPin : Option Pin} (h : app.state = .setup firstPin) (failed : UInt32) (t : Option Nat) :
    (app.handleSetup io event).1.state ≠ .pinEntry failed t := by
  rw [handleSetup_state h]
  cases event with
  | pinEntered pin =>
    dsimp only
    split <;> simp
  | _ => simp

/-- The PIN entry is not entered again once it is left, nor from setup. -/
theorem handleEvent_not_pinEntry {io : AppIo} {app : App} {event : AppEvent}
    (h : ∀ failed t, app.state ≠ .pinEntry failed t) (failed : UInt32) (t : Option Nat) :
    (app.handleEvent io event).1.state ≠ .pinEntry failed t := by
  intro hstate
  unfold handleEvent at hstate
  cases event with
  | shutdown | fatalError => exact h failed t hstate
  | _ =>
    simp only at hstate
    split at hstate
    · rename_i firstPin hsetup
      exact handleSetup_not_pinEntry hsetup failed t hstate
    · rename_i failed' t' hentry
      exact h failed' t' hentry
    · rename_i b hactive
      obtain ⟨b', hb'⟩ := handleActive_state hactive
      rw [hb'] at hstate
      cases hstate
    · exact h failed t hstate

end App

/-- A process that waits for the PIN, or does not. -/
structure Lockout where
  app : App
  /-- The events that wait, in order; marked are the results of verifications. -/
  queue : List (AppEvent × Bool)
  /-- The verifications at work. -/
  running : Nat
  /-- The invalid results that were handled at the PIN entry. -/
  invalid : Nat

namespace Lockout

/-- What can happen: another page is shown, an event is posted, a verification reports, or the next
event is handled. -/
inductive Action
  | page (modal : Bool) (spec : Option PageSpec)
  | post (event : AppEvent)
  | report (event : AppEvent)
  | handle (io : AppIo)

/-- The process at its start. -/
def start (isFirstBoot : Bool) : Lockout := ⟨App.new isFirstBoot, [], 0, 0⟩

/-- The result of a verification. -/
def isResult : AppEvent → Bool
  | .pinVerified .. | .pinVerificationFailed => true
  | _ => false

/-- An event that the loop takes itself, without the reducer. -/
def ofLoop : AppEvent → Bool
  | .invalidate | .touch .. => true
  | _ => false

/-- An effect that starts a verification. -/
def verifies : Effect → Bool
  | .spawnPinVerify _ => true
  | _ => false

/-- The event that an effect sends. -/
def emitted : Effect → Option (AppEvent × Bool)
  | .emit event => some (event, false)
  | _ => none

/-- An invalid result counts at the PIN entry. -/
def counts (app : App) (event : AppEvent) : Bool :=
  match app.state, event with
  | .pinEntry .., .invalidPinEntered => true
  | _, _ => false

/-- The verifications that were started and whose result was not handled. -/
def outstanding (s : Lockout) : Nat := s.running + s.queue.countP (·.2)

/-- What an action asks for. -/
def effects (s : Lockout) : Action → List Effect
  | .handle io =>
    match s.queue with
    | (event, _) :: _ => if ofLoop event then [] else (s.app.handleEvent io event).2.2
    | [] => []
  | _ => []

/-- Take an action; `none` where it cannot be taken, or the loop ends. An effect that ends the
process does not end the run: what follows the locked state is said of all that might. -/
def step (s : Lockout) : Action → Option Lockout
  | .page modal spec =>
    some { s with app := { s.app with currentPageModal := modal, currentPageSpec := spec } }
  | .post event => some { s with queue := s.queue ++ [(event, false)] }
  | .report event =>
    if 0 < s.running ∧ isResult event = true then
      some { s with queue := s.queue ++ [(event, true)], running := s.running - 1 }
    else none
  | .handle io =>
    match s.queue with
    | [] => none
    | (event, _) :: queue =>
      if ofLoop event then some { s with queue }
      else
        let (app, action, effects) := s.app.handleEvent io event
        let s' : Lockout := { s with app, queue, invalid := s.invalid + (counts s.app event).toNat }
        match action with
        | .continue => some s'
        | .break => none
        | .proceed => some { s' with
            queue := queue ++ effects.filterMap emitted
            running := s.running + effects.countP verifies }

/-- What the claim says of a step: with the count full nothing is verified, at most one verification
is out, and the locked state is not left. -/
def Sound (s : Lockout) (a : Action) : Prop :=
  (maxFailedAttempts.toNat ≤ s.invalid → ∀ p, .spawnPinVerify p ∉ s.effects a) ∧
    ∀ t, s.step a = some t → t.outstanding ≤ 1 ∧ (s.app.state = .locked → t.app.state = .locked)

/-- A PIN that is handled at the PIN entry comes in its turn: no verification is out; or a lockout
runs, and has not run out. -/
def InTurn (s : Lockout) : Action → Prop
  | .handle io =>
    match s.queue, s.app.state with
    | (.pinEntered _, _) :: _, .pinEntry _ none => s.outstanding = 0
    | (.pinEntered _, _) :: _, .pinEntry _ (some t) => io.now < t
    | _, _ => True
  | _ => True

instance (s : Lockout) (a : Action) : Decidable (s.InTurn a) := by
  unfold InTurn
  split
  · split <;> infer_instance
  · infer_instance

/-! ## The invariant -/

/-- The state agrees with the count: without a lockout the reducer's count is the count, below the
maximum; with one the count is full, and a `DeviceLocked` waits. -/
def Agrees (state : AppState) (invalid : Nat) (waiting : List AppEvent) : Prop :=
  match state with
  | .setup _ => invalid = 0
  | .pinEntry failed none => invalid = failed.toNat ∧ failed < maxFailedAttempts
  | .pinEntry _ (some _) => maxFailedAttempts.toNat ≤ invalid ∧ .deviceLocked ∈ waiting
  | _ => True

/-- The invariant of a run. -/
structure Inv (s : Lockout) : Prop where
  agrees : Agrees s.app.state s.invalid (s.queue.map Prod.fst)
  marked : ∀ w ∈ s.queue, w.2 = true → isResult w.1 = true
  alone : s.outstanding ≤ 1

theorem start_inv (isFirstBoot : Bool) : (start isFirstBoot).Inv where
  agrees := by
    cases isFirstBoot
    · exact ⟨rfl, by decide⟩
    · rfl
  marked := by simp [start]
  alone := Nat.zero_le _

/-- More events wait. -/
theorem Agrees.mono {state : AppState} {invalid : Nat} {waiting waiting' : List AppEvent}
    (h : Agrees state invalid waiting) (hsub : waiting ⊆ waiting') :
    Agrees state invalid waiting' := by
  unfold Agrees at h ⊢
  split
  · exact h
  · exact h
  · exact ⟨h.1, hsub h.2⟩
  · trivial

/-- A count below the maximum does not wrap. -/
theorem toNat_succ {failed : UInt32} (h : failed < maxFailedAttempts) :
    (failed + 1).toNat = failed.toNat + 1 := by
  have hlt := UInt32.lt_iff_toNat_lt.1 h
  have hmax : maxFailedAttempts.toNat = 5 := rfl
  rw [UInt32.toNat_add]
  exact Nat.mod_eq_of_lt (by show failed.toNat + 1 < 2 ^ 32; omega)

/-- The `DeviceLocked` of a full count is emitted. -/
theorem emits_deviceLocked {io : AppIo} {app : App} {failed : UInt32} {lockoutUntil : Option Nat}
    (h : app.state = .pinEntry failed lockoutUntil) (hfull : failed + 1 ≥ maxFailedAttempts) :
    app.handleEvent io .invalidPinEntered =
      ({ app with state := .pinEntry (failed + 1) (some (io.now + lockoutDuration)) }, .proceed,
        [.emit .deviceLocked]) := by
  simp only [App.handleEvent, App.handlePinEntry, h, if_pos hfull]

/-- An invalid result at the PIN entry keeps the agreement. -/
theorem agrees_invalid {io : AppIo} {app : App} {failed : UInt32} {lockoutUntil : Option Nat}
    {invalid : Nat} {waiting : List AppEvent} (hstate : app.state = .pinEntry failed lockoutUntil)
    (h : Agrees app.state invalid (.invalidPinEntered :: waiting)) :
    Agrees (app.handleEvent io .invalidPinEntered).1.state (invalid + 1) (waiting ++
      ((app.handleEvent io .invalidPinEntered).2.2.filterMap emitted).map Prod.fst) := by
  rw [hstate] at h
  by_cases hfull : failed + 1 ≥ maxFailedAttempts
  · rw [emits_deviceLocked hstate hfull]
    refine ⟨?_, List.mem_append_right _ List.mem_cons_self⟩
    cases lockoutUntil with
    | none =>
      obtain ⟨hcount, hlt⟩ := h
      rw [hcount, ← toNat_succ hlt]
      exact UInt32.le_iff_toNat_le.1 hfull
    | some t => exact Nat.le_succ_of_le h.1
  · rw [App.handlePinEntry_state hstate, App.nextPinEntry, if_neg hfull]
    cases lockoutUntil with
    | none =>
      obtain ⟨hcount, hlt⟩ := h
      exact ⟨by rw [hcount, toNat_succ hlt], UInt32.not_le.1 hfull⟩
    | some t =>
      -- a reducer's count that wrapped around: the lockout goes on
      have hwaits := (List.mem_cons.1 h.2).resolve_left (by decide)
      exact ⟨Nat.le_succ_of_le h.1, List.mem_append_left _ hwaits⟩

/-- Another event at the PIN entry keeps the agreement, where a PIN comes in its turn. -/
theorem agrees_other {io : AppIo} {app : App} {event : AppEvent} {failed : UInt32}
    {lockoutUntil : Option Nat} {invalid : Nat} {waiting : List AppEvent}
    (hstate : app.state = .pinEntry failed lockoutUntil) (hother : event ≠ .invalidPinEntered)
    (hturn : ∀ pin t, event = .pinEntered pin → lockoutUntil = some t → io.now < t)
    (h : Agrees app.state invalid (event :: waiting)) :
    Agrees (app.handleEvent io event).1.state invalid waiting := by
  have hsame : event ≠ .deviceLocked → Agrees (.pinEntry failed lockoutUntil) invalid waiting := by
    intro hne
    rw [hstate] at h
    cases lockoutUntil with
    | none => exact h
    | some t => exact ⟨h.1, (List.mem_cons.1 h.2).resolve_left (Ne.symm hne)⟩
  rw [App.handlePinEntry_state hstate]
  cases event with
  | invalidPinEntered => exact absurd rfl hother
  | pinEntered pin =>
    cases lockoutUntil with
    | none => exact hsame (by simp)
    | some t =>
      rw [App.nextPinEntry, if_pos (hturn pin t rfl rfl)]
      exact hsame (by simp)
  | pinVerified json migration =>
    cases migration with
    | none => trivial
    | some m =>
      cases m with
      | promotedV2 => trivial
      | _ => exact hsame (by simp)
  | acknowledgeMigrationNotice json => trivial
  | deviceLocked => trivial
  | _ => exact hsame (by simp)

/-- A device that signs goes on signing. -/
theorem handleEvent_active {io : AppIo} {app : App} {event : AppEvent} {b : Bool}
    (h : app.state = .active b) : ∃ b', (app.handleEvent io event).1.state = .active b' := by
  unfold App.handleEvent
  cases event with
  | shutdown | fatalError => exact ⟨b, h⟩
  | _ =>
    simp only [h]
    exact App.handleActive_state h

/-- **The next event keeps the agreement**, where a PIN comes in its turn. -/
theorem agrees_handle {io : AppIo} {app : App} {event : AppEvent} {invalid : Nat}
    {waiting : List AppEvent} (h : Agrees app.state invalid (event :: waiting))
    (hturn : ∀ pin failed t, event = .pinEntered pin → app.state = .pinEntry failed (some t) →
      io.now < t) :
    Agrees (app.handleEvent io event).1.state (invalid + (counts app event).toNat) (waiting ++
      ((app.handleEvent io event).2.2.filterMap emitted).map Prod.fst) := by
  cases hstate : app.state with
  | setup firstPin =>
    have hnot : ∀ failed t, (app.handleEvent io event).1.state ≠ .pinEntry failed t :=
      App.handleEvent_not_pinEntry (by rw [hstate]; simp)
    rw [hstate] at h
    have hcounts : counts app event = false := by
      unfold counts
      rw [hstate]
    rw [hcounts, show invalid = 0 from h]
    unfold Agrees
    split
    · rfl
    · next failed heq => exact absurd heq (hnot failed none)
    · next failed t heq => exact absurd heq (hnot failed (some t))
    · trivial
  | pinEntry failed lockoutUntil =>
    by_cases hinvalid : event = .invalidPinEntered
    · subst hinvalid
      have hcounts : counts app .invalidPinEntered = true := by
        unfold counts
        rw [hstate]
      rw [hcounts]
      exact agrees_invalid hstate h
    · have hcounts : counts app event = false := by
        unfold counts
        split
        · exact absurd rfl hinvalid
        · rfl
      rw [hcounts]
      refine (agrees_other hstate hinvalid ?_ h).mono (List.subset_append_left _ _)
      rintro pin t hevent rfl
      exact hturn pin failed t hevent hstate
  | active b =>
    obtain ⟨b', hb'⟩ := @handleEvent_active io app event b hstate
    rw [hb']
    trivial
  | locked =>
    rw [App.handleEvent_locked event hstate]
    trivial

/-! ## A step -/

/-- What is taken from the channel. -/
theorem countP_cons_marked (w : AppEvent × Bool) (queue : List (AppEvent × Bool)) :
    (w :: queue).countP (·.2) = queue.countP (·.2) + w.2.toNat := by
  rw [List.countP_cons]
  cases w.2 <;> rfl

/-- What is out before an event is taken. -/
theorem outstanding_cons {s : Lockout} {w : AppEvent × Bool} {queue : List (AppEvent × Bool)}
    (h : s.queue = w :: queue) :
    s.outstanding = s.running + queue.countP (·.2) + w.2.toNat := by
  rw [outstanding, h, countP_cons_marked, Nat.add_assoc]

/-- What is emitted is no result of a verification. -/
theorem countP_emitted (effects : List Effect) : (effects.filterMap emitted).countP (·.2) = 0 := by
  refine List.countP_eq_zero.2 fun w hw => ?_
  obtain ⟨e, -, he⟩ := List.mem_filterMap.1 hw
  cases e with
  | emit event =>
    cases he
    exact Bool.false_ne_true
  | _ => cases he

/-- An event starts one verification at most, and one only when a PIN was entered. -/
theorem countP_verifies (io : AppIo) (app : App) (event : AppEvent) :
    (app.handleEvent io event).2.2.countP verifies = 0 ∨
      (app.handleEvent io event).2.2.countP verifies = 1 ∧
        ∃ p, .spawnPinVerify p ∈ (app.handleEvent io event).2.2 := by
  by_cases h : ∃ p, .spawnPinVerify p ∈ (app.handleEvent io event).2.2
  · obtain ⟨p, hp⟩ := h
    obtain ⟨-, -, -, heffects⟩ := App.handleEvent_verify hp
    refine .inr ⟨?_, p, hp⟩
    rw [heffects]
    rfl
  · refine .inl (List.countP_eq_zero.2 ?_)
    intro e he hverifies
    cases e with
    | spawnPinVerify p => exact h ⟨p, he⟩
    | _ => cases hverifies

/-- What handling an event does: the loop takes it, or the reducer, whose effects are carried
out. -/
theorem step_handle {s t : Lockout} {io : AppIo} (h : s.step (.handle io) = some t) :
    ∃ event mark queue, s.queue = (event, mark) :: queue ∧
      (ofLoop event = true ∧ t = { s with queue } ∨
        ofLoop event = false ∧ t = {
          app := (s.app.handleEvent io event).1
          queue := queue ++ (s.app.handleEvent io event).2.2.filterMap emitted
          running := s.running + (s.app.handleEvent io event).2.2.countP verifies
          invalid := s.invalid + (counts s.app event).toNat }) := by
  simp only [step] at h
  split at h
  · cases h
  · next event mark queue hqueue =>
    refine ⟨event, mark, queue, hqueue, ?_⟩
    cases hloop : ofLoop event with
    | true =>
      rw [hloop, if_pos rfl] at h
      exact .inl ⟨rfl, (Option.some.inj h).symm⟩
    | false =>
      rw [hloop, if_neg Bool.false_ne_true] at h
      refine .inr ⟨rfl, ?_⟩
      cases haction : (s.app.handleEvent io event).2.1 with
      | «continue» =>
        rw [haction] at h
        rw [← Option.some.inj h, App.handleEvent_skipped haction, List.filterMap_nil,
          List.append_nil, List.countP_nil]
        rfl
      | «break» =>
        rw [haction] at h
        cases h
      | proceed =>
        rw [haction] at h
        exact (Option.some.inj h).symm

/-- A PIN is in its turn where the PIN entry is locked out. -/
theorem InTurn.lockout {s : Lockout} {io : AppIo} {pin : Pin} {mark : Bool}
    {queue : List (AppEvent × Bool)} {failed : UInt32} {t : Nat} (h : s.InTurn (.handle io))
    (hqueue : s.queue = (.pinEntered pin, mark) :: queue)
    (hstate : s.app.state = .pinEntry failed (some t)) : io.now < t := by
  simpa only [InTurn, hqueue, hstate] using h

/-- What starts a verification, in its turn, does so alone. -/
theorem InTurn.alone {s : Lockout} {io : AppIo} {event : AppEvent} {mark : Bool}
    {queue : List (AppEvent × Bool)} {p : Pin} (h : s.InTurn (.handle io))
    (hqueue : s.queue = (event, mark) :: queue)
    (hspawn : .spawnPinVerify p ∈ (s.app.handleEvent io event).2.2) :
    s.outstanding = 0 ∧ ∃ failed, s.app.state = .pinEntry failed none := by
  obtain ⟨rfl, ⟨failed, lockoutUntil, hstate⟩, htime, -⟩ := App.handleEvent_verify hspawn
  cases lockoutUntil with
  | none => exact ⟨by simpa only [InTurn, hqueue, hstate] using h, failed, hstate⟩
  | some t => exact absurd (h.lockout hqueue hstate) (Nat.not_lt.2 (htime failed t hstate))

/-- An event that comes into the channel keeps the invariant, if it is out no more than before. -/
theorem Inv.queued {s t : Lockout} {w : AppEvent × Bool} (hinv : s.Inv) (happ : t.app = s.app)
    (hinvalid : t.invalid = s.invalid) (hqueue : t.queue = s.queue ++ [w])
    (hmark : w.2 = true → isResult w.1 = true) (hout : t.running + w.2.toNat = s.running) :
    t.Inv where
  agrees := by
    rw [happ, hinvalid, hqueue, List.map_append]
    exact hinv.agrees.mono (List.subset_append_left _ _)
  marked w' hw' hmark' := by
    rw [hqueue] at hw'
    rcases List.mem_append.1 hw' with hw' | hw'
    · exact hinv.marked w' hw' hmark'
    · rw [List.mem_singleton] at hw'
      subst hw'
      exact hmark hmark'
  alone := by
    have halone := hinv.alone
    rw [outstanding] at halone ⊢
    rw [hqueue, List.countP_append, countP_cons_marked, List.countP_nil]
    omega

/-- The loop takes an event of its own: it is no `DeviceLocked`. -/
theorem Inv.dropped {s : Lockout} {event : AppEvent} {mark : Bool}
    {queue : List (AppEvent × Bool)} (hinv : s.Inv) (hqueue : s.queue = (event, mark) :: queue)
    (hloop : ofLoop event = true) : Inv { s with queue } where
  agrees := by
    have hagrees := hinv.agrees
    rw [hqueue, List.map_cons] at hagrees
    unfold Agrees at hagrees ⊢
    split
    · next heq => rwa [heq] at hagrees
    · next heq => rwa [heq] at hagrees
    · next heq =>
      rw [heq] at hagrees
      refine ⟨hagrees.1, (List.mem_cons.1 hagrees.2).resolve_left ?_⟩
      rintro rfl
      cases hloop
    · trivial
  marked w hw := hinv.marked w (hqueue ▸ List.mem_cons_of_mem _ hw)
  alone := by
    have halone := hinv.alone
    rw [outstanding_cons hqueue] at halone
    exact Nat.le_trans (Nat.le_add_right _ _) halone

/-- The verifications that are out after the reducer took an event, in its turn. -/
theorem Inv.handled_alone {s : Lockout} {io : AppIo} {event : AppEvent} {mark : Bool}
    {queue : List (AppEvent × Bool)} (hinv : s.Inv) (hturn : s.InTurn (.handle io))
    (hqueue : s.queue = (event, mark) :: queue) :
    s.running + (s.app.handleEvent io event).2.2.countP verifies + queue.countP (·.2) ≤ 1 := by
  have halone := hinv.alone
  rw [outstanding_cons hqueue] at halone
  rcases countP_verifies io s.app event with hzero | ⟨hone, p, hspawn⟩
  · rw [hzero]
    omega
  · obtain ⟨hout, -⟩ := hturn.alone hqueue hspawn
    rw [outstanding_cons hqueue] at hout
    rw [hone]
    omega

/-- **Every step keeps the invariant** in which a PIN comes in its turn. -/
theorem step_inv (s : Lockout) (a : Action) (t : Lockout) (hinv : s.Inv) (hturn : s.InTurn a)
    (h : s.step a = some t) : t.Inv := by
  cases a with
  | page modal spec =>
    cases h
    exact ⟨hinv.agrees, hinv.marked, hinv.alone⟩
  | post event =>
    cases h
    exact hinv.queued rfl rfl rfl nofun rfl
  | report event =>
    simp only [step] at h
    split at h
    · next hreport =>
      cases h
      exact hinv.queued rfl rfl rfl (fun _ => hreport.2) (Nat.sub_add_cancel hreport.1)
    · cases h
  | handle io =>
    obtain ⟨event, mark, queue, hqueue, ⟨hloop, rfl⟩ | ⟨-, rfl⟩⟩ := step_handle h
    · exact hinv.dropped hqueue hloop
    · have hagrees := hinv.agrees
      rw [hqueue, List.map_cons] at hagrees
      refine ⟨?_, fun w hw hmark => ?_, ?_⟩
      · rw [List.map_append]
        refine agrees_handle hagrees fun pin failed t hevent hstate => ?_
        subst hevent
        exact hturn.lockout hqueue hstate
      · rcases List.mem_append.1 hw with hw | hw
        · exact hinv.marked w (hqueue ▸ List.mem_cons_of_mem _ hw) hmark
        · exact absurd hmark (List.countP_eq_zero.1 (countP_emitted _) w hw)
      · rw [outstanding, List.countP_append, countP_emitted, Nat.add_zero]
        exact hinv.handled_alone hturn hqueue

/-- With the count full a PIN that comes in its turn is not verified. -/
theorem quiet_of_inTurn {s : Lockout} {a : Action} (hinv : s.Inv) (hturn : s.InTurn a)
    (hfull : maxFailedAttempts.toNat ≤ s.invalid) (p : Pin) : .spawnPinVerify p ∉ s.effects a := by
  intro hspawn
  cases a with
  | handle io =>
    simp only [effects] at hspawn
    split at hspawn
    · next event mark queue hqueue =>
      split at hspawn
      · cases hspawn
      · obtain ⟨-, failed, hstate⟩ := hturn.alone hqueue hspawn
        have hagrees := hinv.agrees
        rw [hstate] at hagrees
        have hlt := UInt32.lt_iff_toNat_lt.1 hagrees.2
        have hcount := hagrees.1
        omega
    · cases hspawn
  | _ => cases hspawn

/-- No step leaves the locked state. -/
theorem step_locked {s t : Lockout} {a : Action} (h : s.app.state = .locked)
    (hstep : s.step a = some t) : t.app.state = .locked := by
  cases a with
  | handle io =>
    obtain ⟨event, mark, queue, -, ⟨-, rfl⟩ | ⟨-, rfl⟩⟩ := step_handle hstep
    · exact h
    · exact App.handleEvent_locked event h
  | report event =>
    simp only [step] at hstep
    split at hstep
    · cases hstep
      exact h
    · cases hstep
  | page modal spec =>
    cases hstep
    exact h
  | post event =>
    cases hstep
    exact h

/-- In a sound step a PIN comes in its turn: without a lockout its verification is the only one, and
with one it is not verified. -/
theorem Sound.inTurn {s : Lockout} {a : Action} (h : s.Sound a) (hinv : s.Inv) : s.InTurn a := by
  obtain ⟨hquiet, hkept⟩ := h
  cases a with
  | handle io =>
    simp only [InTurn]
    split
    · next pin mark queue failed hqueue hstate =>
      have hmark : mark = false := by
        refine eq_false_of_ne_true fun hmark => ?_
        cases hinv.marked (.pinEntered pin, mark) (hqueue ▸ List.mem_cons_self) hmark
      subst hmark
      have hhandle : s.app.handleEvent io (.pinEntered pin) = (s.app, .proceed,
          [.showProgress "Verifying PIN..." (some 8000) true 0, .spawnPinVerify pin]) := by
        simp only [App.handleEvent, App.handlePinEntry, hstate]
      have hstep := (hkept { s with
        queue := queue
        running := s.running + 1 } (by
          simp only [step, hqueue, ofLoop, hhandle, counts, hstate]
          simp [emitted, verifies])).1
      rw [outstanding] at hstep ⊢
      rw [hqueue, countP_cons_marked]
      simp only [Bool.toNat_false] at hstep ⊢
      omega
    · next pin mark queue failed t hqueue hstate =>
      by_contra hlate
      have hagrees := hinv.agrees
      rw [hstate] at hagrees
      refine hquiet hagrees.1 pin ?_
      simp only [effects, hqueue, ofLoop, App.handleEvent, App.handlePinEntry, hstate,
        if_neg hlate]
      simp
    · trivial
  | _ => trivial

/-- **A step is sound** exactly where a PIN comes in its turn. -/
theorem sound_iff_inTurn {s : Lockout} {a : Action} (hinv : s.Inv) : s.Sound a ↔ s.InTurn a := by
  constructor
  · exact fun hsound => hsound.inTurn hinv
  · intro hturn
    refine ⟨quiet_of_inTurn hinv hturn, fun t hstep => ⟨?_, fun hlocked => ?_⟩⟩
    · exact (step_inv s a t hinv hturn hstep).alone
    · exact step_locked hlocked hstep

/-! ## The lock -/

/-- An event is handled. -/
def isHandle : Action → Bool
  | .handle _ => true
  | _ => false

/-- The PIN entry is left; or it is locked out, and a `DeviceLocked` is among the next `n`
events. -/
def Closes (n : Nat) (s : Lockout) : Prop :=
  s.app.state = .locked ∨ (∃ b, s.app.state = .active b) ∨
    (∃ failed t, s.app.state = .pinEntry failed (some t)) ∧
      .deviceLocked ∈ (s.queue.take n).map Prod.fst

/-- A full count closes the PIN entry when all that waits is handled. -/
theorem Inv.closes {s : Lockout} (hinv : s.Inv) (hfull : maxFailedAttempts.toNat ≤ s.invalid) :
    s.Closes s.queue.length := by
  have hagrees := hinv.agrees
  unfold Closes
  rw [List.take_length]
  unfold Agrees at hagrees
  split at hagrees
  · rw [hagrees] at hfull
    cases hfull
  · have hlt := UInt32.lt_iff_toNat_lt.1 hagrees.2
    have hcount := hagrees.1
    omega
  · next failed t hstate => exact .inr (.inr ⟨⟨failed, t, hstate⟩, hagrees.2⟩)
  · cases hstate : s.app.state with
    | locked => exact .inl rfl
    | active b => exact .inr (.inl ⟨b, rfl⟩)
    | setup firstPin => simp_all
    | pinEntry failed lockoutUntil => cases lockoutUntil <;> simp_all

/-- More events wait: the next ones are the same. -/
theorem Closes.append {n : Nat} {s t : Lockout} {more : List (AppEvent × Bool)} (h : s.Closes n)
    (hstate : t.app.state = s.app.state) (hqueue : t.queue = s.queue ++ more) : t.Closes n := by
  unfold Closes at h ⊢
  rw [hstate, hqueue]
  refine h.imp_right (Or.imp_right (And.imp_right fun hmem => ?_))
  exact List.map_subset _ (List.IsPrefix.take (List.prefix_append s.queue more) n).subset hmem

/-- A PIN entry that is locked out stays so, or is left, where a PIN comes in its turn. -/
theorem lockedOut_handle {io : AppIo} {app : App} {event : AppEvent} {failed : UInt32} {t : Nat}
    (hstate : app.state = .pinEntry failed (some t))
    (hturn : ∀ pin, event = .pinEntered pin → io.now < t) :
    (app.handleEvent io event).1.state = .locked ∨
      (∃ b, (app.handleEvent io event).1.state = .active b) ∨ event ≠ .deviceLocked ∧
        ∃ failed' t', (app.handleEvent io event).1.state = .pinEntry failed' (some t') := by
  rw [App.handlePinEntry_state hstate]
  cases event with
  | deviceLocked => exact .inl rfl
  | invalidPinEntered =>
    rw [App.nextPinEntry]
    split
    · exact .inr (.inr ⟨by decide, _, _, rfl⟩)
    · exact .inr (.inr ⟨by decide, _, _, rfl⟩)
  | pinEntered pin =>
    rw [App.nextPinEntry, if_pos (hturn pin rfl)]
    exact .inr (.inr ⟨by simp, _, _, rfl⟩)
  | pinVerified json migration =>
    cases migration with
    | none => exact .inr (.inl ⟨false, rfl⟩)
    | some m =>
      cases m with
      | promotedV2 => exact .inr (.inl ⟨false, rfl⟩)
      | _ => exact .inr (.inr ⟨by simp, _, _, rfl⟩)
  | acknowledgeMigrationNotice json => exact .inr (.inl ⟨false, rfl⟩)
  | _ => exact .inr (.inr ⟨by simp, _, _, rfl⟩)

/-- An event that is handled brings the `DeviceLocked` nearer. -/
theorem Closes.step {n : Nat} {s t : Lockout} {a : Action} (h : s.Closes n) (hturn : s.InTurn a)
    (hstep : s.step a = some t) : t.Closes (n - (isHandle a).toNat) := by
  cases a with
  | page modal spec =>
    cases hstep
    exact h
  | post event =>
    cases hstep
    exact h.append rfl rfl
  | report event =>
    simp only [Lockout.step] at hstep
    split at hstep
    · cases hstep
      exact h.append rfl rfl
    · cases hstep
  | handle io =>
    obtain ⟨event, mark, queue, hqueue, ⟨hloop, rfl⟩ | ⟨-, rfl⟩⟩ := step_handle hstep
    · refine h.imp_right (Or.imp_right (And.imp_right fun hmem => ?_))
      rw [hqueue] at hmem
      cases n with
      | zero => cases hmem
      | succ n =>
        refine (List.mem_cons.1 hmem).resolve_left ?_
        rintro rfl
        cases hloop
    · rcases h with hlocked | ⟨b, hactive⟩ | ⟨⟨failed, t, hstate⟩, hmem⟩
      · exact .inl (App.handleEvent_locked event hlocked)
      · exact .inr (.inl (handleEvent_active hactive))
      · have hnext := @lockedOut_handle io _ event failed t hstate fun pin hevent => by
          subst hevent
          exact hturn.lockout hqueue hstate
        rcases hnext with hlocked | hactive | ⟨hne, hlockout⟩
        · exact .inl hlocked
        · exact .inr (.inl hactive)
        · refine .inr (.inr ⟨hlockout, ?_⟩)
          rw [hqueue] at hmem
          cases n with
          | zero => cases hmem
          | succ n =>
            have hrest := (List.mem_cons.1 hmem).resolve_left (Ne.symm hne)
            exact List.map_subset _ (List.IsPrefix.take (List.prefix_append queue _) n).subset hrest

/-- Handling the events that wait closes the PIN entry. -/
theorem Closes.run {n : Nat} {s t : Lockout} : ∀ {acts : List Action}, s.Closes n →
    Automaton.Along Lockout.step InTurn s acts → Automaton.run Lockout.step s acts = some t →
      t.Closes (n - acts.countP isHandle) := by
  intro acts
  induction acts generalizing n s with
  | nil =>
    intro h _ hrun
    cases hrun
    exact h
  | cons a acts ih =>
    intro h halong hrun
    obtain ⟨u, hu, hrun⟩ := Automaton.run_cons.1 hrun
    have hrest := ih (h.step halong.1 hu) (halong.2 u hu) hrun
    have hcount : n - (a :: acts).countP isHandle =
        n - (isHandle a).toNat - acts.countP isHandle := by
      rw [List.countP_cons, Nat.sub_sub, Nat.add_comm]
      cases isHandle a <;> rfl
    rwa [hcount]

/-- With no event left to wait for, the PIN entry is left. -/
theorem Closes.left {s : Lockout} (h : s.Closes 0) :
    s.app.state = .locked ∨ ∃ b, s.app.state = .active b := by
  rcases h with hlocked | hactive | ⟨-, hmem⟩
  · exact .inl hlocked
  · exact .inr hactive
  · cases hmem

/-! ## The run -/

/-- **The lockout of a process.** Every step of a run is sound exactly where every PIN that it
handles comes in its turn. In such a run the fifth failure locks the device: with the count full,
handling the events that wait leads to the locked state, unless the result of a verification that
was still out opened the keys. -/
theorem pin_lockout (isFirstBoot : Bool) (acts : List Action) :
    (Automaton.Along step Sound (start isFirstBoot) acts ↔
      Automaton.Along step InTurn (start isFirstBoot) acts) ∧
    ∀ s, Automaton.run step (start isFirstBoot) acts = some s →
      Automaton.Along step InTurn (start isFirstBoot) acts →
      maxFailedAttempts.toNat ≤ s.invalid → ∀ rest t, Automaton.run step s rest = some t →
        Automaton.Along step InTurn s rest → s.queue.length ≤ rest.countP isHandle →
          t.app.state = .locked ∨ ∃ b, t.app.state = .active b := by
  have hstart := start_inv isFirstBoot
  refine ⟨⟨fun h => ?_, fun h => ?_⟩, fun s hs halong hfull rest t ht hrest hhandled => ?_⟩
  · refine Automaton.Along.of_invariant (I := Inv) (fun s a t hinv hsound hstep => ?_)
      (fun s a hinv => (sound_iff_inTurn hinv).1) hstart h
    exact step_inv s a t hinv ((sound_iff_inTurn hinv).1 hsound) hstep
  · exact Automaton.Along.of_invariant (I := Inv) step_inv
      (fun s a hinv => (sound_iff_inTurn hinv).2) hstart h
  · have hinv : s.Inv := Automaton.run_invariant step_inv hstart halong hs
    have hclosed := (hinv.closes hfull).run hrest ht
    rw [Nat.sub_eq_zero_of_le hhandled] at hclosed
    exact hclosed.left

/-- The next event, at a time. -/
def handleAt (now : Nat) : Action := .handle ⟨now, false⟩

/-- Five results of PINs that do not open the keys. -/
def fiveInvalid : List Action :=
  List.replicate 5 (.post .invalidPinEntered) ++ List.replicate 5 (handleAt 0)

/-- A PIN that is posted behind the fifth failure. -/
def lateEnter : List Action := [.post (.pinEntered [1]), handleAt 0, handleAt 400000]

/-- Five failures and a PIN that is posted behind them: it is handled in the locked state. -/
theorem pin_lockout_five : ∃ s t, Automaton.run step (start false) fiveInvalid = some s ∧
    Automaton.run step s lateEnter = some t ∧
      Automaton.Along step Sound (start false) fiveInvalid ∧
        (t.app.state = .locked ∨ ∃ b, t.app.state = .active b) := by
  have halong : Automaton.Along step InTurn (start false) fiveInvalid := by decide
  obtain ⟨s, t, hs, ht, hfull, hrest, hlength⟩ : ∃ s t,
      Automaton.run step (start false) fiveInvalid = some s ∧
        Automaton.run step s lateEnter = some t ∧ maxFailedAttempts.toNat ≤ s.invalid ∧
          Automaton.Along step InTurn s lateEnter ∧ s.queue.length ≤ 2 :=
    ⟨_, _, rfl, rfl, by decide, by decide, by decide⟩
  obtain ⟨hsound, hlocks⟩ := pin_lockout false fiveInvalid
  exact ⟨s, t, hs, ht, hsound.2 halong, hlocks s hs halong hfull lateEnter t ht hrest hlength⟩

/-- **Two verifications are out**: two touches of Enter that wait in the channel hand in the PIN and
then an empty one, and the second is handled before the first is answered. -/
theorem two_verifications_out : ¬ ∀ (acts : List Action) (s : Lockout),
    Automaton.run step (start false) acts = some s → s.outstanding ≤ 1 := by
  intro h
  obtain ⟨s, hs, hout⟩ : ∃ s, Automaton.run step (start false)
      [.post (.pinEntered [1, 2, 3, 4, 5]), .post (.pinEntered []), handleAt 0, handleAt 0] =
        some s ∧ s.outstanding = 2 := Option.map_eq_some_iff.1 (by rfl)
  have := h _ s hs
  omega

end Lockout

end Russignol
