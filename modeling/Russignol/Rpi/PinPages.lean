import Russignol.Rpi.SetupOnce

/-!
# The PIN pages

The keypad of `rpi-signer/src/pages/pin.rs`, on the pages of a first boot. `SetupLoop` lets a PIN
page send any PIN; here a touch is one of a button, and the page sends what was typed. The loop with
the keypad is a `SetupLoop` (`PinSetup.refines`), so what holds of its runs holds here; and the keys
are generated under a PIN of five to ten digits that was entered on both pages.
-/

namespace Russignol

/-! ## The keypad -/

/-- `Mode`. -/
inductive PinMode
  | create
  | confirm
  | verify
  deriving DecidableEq, Repr

namespace PinPage

/-- `MAX_PIN_LENGTH`. -/
def maxPinLength : Nat := 10

/-- `MIN_PIN_LENGTH`. -/
def minPinLength : Nat := 5

/-- The texts of the buttons; the last two are icons. -/
def buttons : List (Option String) :=
  [some "1", some "2", some "3", some "4", some "5", some "6", some "7", some "8", some "Enter",
    some "9", some "0", none, none]

/-- `str::parse::<u8>`. -/
def parseU8 (text : String) : Option UInt8 :=
  (TezosEncrypt.parseU32 text.toList).bind fun n => if n < 256 then some n.toUInt8 else none

/-- `handle_touch`, of the button that contains the point: the digits, and what is sent. -/
def handleTouch (mode : PinMode) (pin : Pin) (i : Nat) : Pin × List AppEvent :=
  if i = 11 then (pin.dropLast, [.invalidate])
  else if i = 12 then ([], [.invalidate])
  else
    match buttons[i]?.join with
    | none => (pin, [])
    | some text =>
      if text = "Enter" then
        match mode with
        | .create => ([], if minPinLength ≤ pin.length then [.firstPinEntered pin] else [])
        | .confirm | .verify => ([], [.pinEntered pin])
      else
        match parseU8 text with
        | some digit =>
          if pin.length < maxPinLength then (pin ++ [digit], [.invalidate]) else (pin, [])
        | none => (pin, [])

end PinPage

/-- The mode of a page with a keypad. -/
def PageSpec.pinMode : PageSpec → Option PinMode
  | .pinCreate => some .create
  | .pinConfirm => some .confirm
  | .pinVerify => some .verify
  | _ => none

/-! ## The loop with the keypad -/

/-- The process through a first boot, with the digits on the page. -/
structure PinSetup where
  loop : SetupLoop
  pin : Pin
  /-- The PINs that were entered, and on which page. -/
  entered : List (PinMode × Pin)
  /-- The PINs that keys were generated under. -/
  generated : List Pin

namespace PinSetup

open SetupLoop (applyEffects)

/-- The process at its start. -/
def start : PinSetup := ⟨SetupLoop.start, [], [], []⟩

/-- A button is touched, or something else happens. -/
inductive Action
  | touch (button : Nat)
  | other (a : SetupLoop.Action)

/-- The mode of the page on the panel. -/
def mode (c : PinSetup) : Option PinMode := c.loop.page.bind PageSpec.pinMode

/-- A PIN that waits, by the page that it was entered on. -/
def entryOf : AppEvent → Option (PinMode × Pin)
  | .firstPinEntered pin => some (.create, pin)
  | .pinEntered pin => some (.confirm, pin)
  | _ => none

/-- The effects of the event at the head, which `drain_events` applies. -/
def headEffects (io : SetupIo) (loop : SetupLoop) : List Effect :=
  match loop.queue with
  | [] | .invalidate :: _ => []
  | event :: _ =>
    let next := loop.app.handleEvent io.app event
    if next.2.1 = .proceed then next.2.2 else []

/-- An effect that builds another page. -/
def builds : Effect → Bool
  | .showPage _ | .showProgress .. => true
  | _ => false

/-- The PIN of a key generation. -/
def keygenPin : Effect → Option Pin
  | .spawnKeygen pin => some pin
  | _ => none

/-- Take an action; `none` where it cannot be taken, or the process ends. -/
def step (c : PinSetup) : Action → Option PinSetup
  | .touch button =>
    c.mode.map fun mode =>
      let (pin, events) := PinPage.handleTouch mode c.pin button
      { c with
        loop := { c.loop with queue := c.loop.queue ++ events }
        pin
        entered := c.entered ++ (events.filterMap entryOf).map fun e => (mode, e.2) }
  | .other (.handle io) =>
    let effects := headEffects io c.loop
    (c.loop.step (.handle io)).map fun loop =>
      { c with
        loop
        pin := if effects.any builds then [] else c.pin
        generated := c.generated ++ effects.filterMap keygenPin }
  | .other (.press event) =>
    if c.mode.isSome then none
    else (c.loop.step (.press event)).map fun loop => { c with loop }
  | .other a => (c.loop.step a).map fun loop => { c with loop }

/-! ## Touches -/

/-- What a touch of the keypad does: it changes the digits, or enters them. -/
inductive Touched (mode : PinMode) (pin : Pin) : Pin × List AppEvent → Prop
  | kept : Touched mode pin (pin, [])
  | typed {digit : UInt8} : digit < 10 → pin.length < PinPage.maxPinLength →
      Touched mode pin (pin ++ [digit], [.invalidate])
  | removed : Touched mode pin (pin.dropLast, [.invalidate])
  | cleared : Touched mode pin ([], [.invalidate])
  | short : Touched mode pin ([], [])
  | first : mode = .create → PinPage.minPinLength ≤ pin.length →
      Touched mode pin ([], [.firstPinEntered pin])
  | entered : mode ≠ .create → Touched mode pin ([], [.pinEntered pin])

/-- The texts of the buttons are "Enter" and the digits. -/
theorem digit_of_button {i : Nat} {text : String} (h : PinPage.buttons[i]?.join = some text)
    (hne : text ≠ "Enter") : ∃ digit, PinPage.parseU8 text = some digit ∧ digit < 10 := by
  have hmem : some text ∈ PinPage.buttons := by
    rw [Option.join_eq_some_iff] at h
    exact List.mem_of_getElem? h
  have hall : ∀ b ∈ PinPage.buttons, (b.all fun text =>
      text = "Enter" || (PinPage.parseU8 text).any (· < 10)) = true := by decide +kernel
  have htext := hall _ hmem
  rw [Option.all_some, Bool.or_eq_true, decide_eq_true_iff] at htext
  obtain ⟨digit, hdigit, hlt⟩ := (Option.any_eq_true _ _).1 (htext.resolve_left hne)
  exact ⟨digit, hdigit, of_decide_eq_true hlt⟩

/-- A touch of the PIN page does what `Touched` says. -/
theorem touched (mode : PinMode) (pin : Pin) (i : Nat) :
    Touched mode pin (PinPage.handleTouch mode pin i) := by
  unfold PinPage.handleTouch
  split
  · exact .removed
  split
  · exact .cleared
  split
  · exact .kept
  · next text htext =>
    split
    · cases mode with
      | create =>
        dsimp only
        split
        · next hlength => exact .first rfl hlength
        · exact .short
      | confirm => exact .entered (by rintro ⟨⟩)
      | verify => exact .entered (by rintro ⟨⟩)
    · next hne =>
      obtain ⟨digit, hdigit, hlt⟩ := digit_of_button htext hne
      rw [hdigit]
      dsimp only
      split
      · next hlength => exact .typed hlt hlength
      · exact .kept

/-! ## The loop without the keypad -/

section
variable {c c' : PinSetup} {a : Action}

/-- What a page with a keypad sends, the loop lets it send. -/
theorem sends_of_touched {spec : PageSpec} {mode : PinMode} (hmode : spec.pinMode = some mode)
    {pin : Pin} {result : Pin × List AppEvent} (h : Touched mode pin result) :
    result.2 = [] ∨ result.2 = [.invalidate] ∨
      ∃ event, result.2 = [event] ∧ SetupLoop.Sends (some spec) event := by
  cases h with
  | kept | short => exact .inl rfl
  | typed | removed | cleared => exact .inr (.inl rfl)
  | first hcreate hlength =>
    subst hcreate
    refine .inr (.inr ⟨_, rfl, ?_⟩)
    cases spec with
    | pinCreate => trivial
    | _ => cases hmode
  | entered hne =>
    refine .inr (.inr ⟨_, rfl, ?_⟩)
    cases spec with
    | pinCreate => cases hmode; exact absurd rfl hne
    | pinConfirm => trivial
    | pinVerify => trivial
    | _ => cases hmode

/-- A step is one of the loop, or leaves it as it is. -/
theorem step_refines (h : c.step a = some c') :
    c'.loop = c.loop ∨ ∃ b, c.loop.step b = some c'.loop := by
  cases a with
  | touch button =>
    obtain ⟨mode, hmode, rfl⟩ := Option.map_eq_some_iff.1 h
    obtain ⟨spec, hspec, hmode⟩ := Option.bind_eq_some_iff.1 hmode
    have htouched := touched mode c.pin button
    rcases sends_of_touched hmode htouched with hnone | hinvalidate | ⟨event, hevent, hsends⟩
    · refine .inl ?_
      dsimp only
      rw [hnone, List.append_nil]
    · refine .inr ⟨.post .invalidate, ?_⟩
      dsimp only
      rw [hinvalidate]
      rfl
    · refine .inr ⟨.press event, ?_⟩
      dsimp only
      rw [hevent, SetupLoop.step, hspec, if_pos hsends]
  | other b =>
    refine .inr ⟨b, ?_⟩
    cases b with
    | handle io =>
      obtain ⟨loop, hloop, rfl⟩ := Option.map_eq_some_iff.1 h
      exact hloop
    | press event =>
      obtain ⟨-, h⟩ := Option.ite_none_left_eq_some.1 h
      obtain ⟨loop, hloop, rfl⟩ := Option.map_eq_some_iff.1 h
      exact hloop
    | storageEvent event =>
      obtain ⟨loop, hloop, rfl⟩ := Option.map_eq_some_iff.1 h
      exact hloop
    | keygenEvent event =>
      obtain ⟨loop, hloop, rfl⟩ := Option.map_eq_some_iff.1 h
      exact hloop
    | post event =>
      obtain ⟨loop, hloop, rfl⟩ := Option.map_eq_some_iff.1 h
      exact hloop

/-- **The loop with the keypad is the loop of the first boot**: every run of it is a run of that
one. -/
theorem refines : ∀ {actions : List Action} {c c' : PinSetup},
    Automaton.run step c actions = some c' →
      ∃ steps, Automaton.run SetupLoop.step c.loop steps = some c'.loop
  | [], c, c', h => by
    cases h
    exact ⟨[], rfl⟩
  | a :: actions, c, c', h => by
    obtain ⟨d, hd, hrun⟩ := Automaton.run_cons.1 h
    obtain ⟨steps, hsteps⟩ := refines hrun
    rcases step_refines hd with hsame | ⟨b, hb⟩
    · exact ⟨steps, hsame ▸ hsteps⟩
    · exact ⟨b :: steps, Automaton.run_cons.2 ⟨_, hb, hsteps⟩⟩

end

/-! ## The effects of the first boot -/

/-- A page that the first boot shows: no page to verify a PIN, and no button sends one. -/
structure Shown (spec : PageSpec) : Prop where
  not_verify : spec ≠ .pinVerify
  buttons : ∀ event ∈ spec.buttons, entryOf event = none

/-- An effect that shows such a page, if any, and sends no PIN. -/
structure Tame (e : Effect) : Prop where
  shows : ∀ spec, e = .showPage spec → Shown spec
  emits : ∀ event, e = .emit event → entryOf event = none

/-- An effect that shows nothing and sends nothing is tame. -/
theorem Tame.of_quiet {e : Effect} (h : App.isQuiet e = true) : Tame e := by
  refine ⟨fun spec hspec => ?_, fun event hevent => ?_⟩
  · rw [hspec] at h; cases h
  · rw [hevent] at h; cases h

/-- A page other than the verification, with no button that enters a PIN, is tame. -/
theorem Tame.of_page {spec : PageSpec} (hne : spec ≠ .pinVerify)
    (h : ∀ event ∈ spec.buttons, entryOf event = none) : Tame (.showPage spec) :=
  ⟨fun _ hspec => by cases hspec; exact ⟨hne, h⟩, by rintro _ ⟨⟩⟩

/-- An event that enters no PIN may be sent. -/
theorem Tame.of_emit {event : AppEvent} (h : entryOf event = none) : Tame (.emit event) :=
  ⟨by rintro _ ⟨⟩, fun _ hevent => by cases hevent; exact h⟩

/-- The pages that navigation opens are tame. -/
theorem Tame.of_navigation {event : AppEvent} {spec : PageSpec}
    (h : App.navigationPage event = some spec) : Tame (.showPage spec) := by
  cases event with
  | showImage back =>
    cases h
    cases back with
    | about => exact .of_page (by decide) (by decide)
    | greeting => exact .of_page (by decide) (by decide)
  | showStatus | showSignatures | showWatermarks | showBlockchain | showAbout | showGreeting =>
    cases h
    exact .of_page (by decide) (by decide)
  | _ => cases h

/-- The effects of an event, less those of the PIN entry, are tame. -/
theorem tame_of_effect {io : AppIo} {app : App} {event : AppEvent} {e : Effect}
    (hstate : ∀ failed lockoutUntil, app.state ≠ .pinEntry failed lockoutUntil)
    (h : e ∈ (app.handleEvent io event).2.2) : Tame e := by
  cases App.handleEvent_effect h with
  | quiet hquiet => exact .of_quiet hquiet
  | pinEntry hentry _ => exact absurd hentry (hstate _ _)
  | setup _ heffect =>
    cases heffect with
    | quiet hquiet => exact .of_quiet hquiet
    | navigation hnav => exact .of_navigation hnav
    | firstPin _ => exact .of_page (by decide) (by decide)
    | secondPin => exact .of_page (by decide) (by decide)
    | mismatchShown title message => exact .of_page (by rintro ⟨⟩) (List.forall_mem_nil _)
    | prepared => exact .of_emit rfl
    | mismatch _ => exact .of_emit rfl
    | keygen _ _ => exact ⟨by rintro _ ⟨⟩, by rintro _ ⟨⟩⟩
    | finalised json => exact .of_emit rfl
  | active _ heffect =>
    cases heffect with
    | quiet hquiet _ => exact .of_quiet hquiet
    | navigation hnav => exact .of_navigation hnav
    | menu => exact .of_page (by decide) (by decide)
    | shutdown => exact .of_page (by rintro ⟨⟩) (by decide)
    | largeGap title pairs label =>
      refine .of_page (by rintro ⟨⟩) ?_
      simp only [PageSpec.buttons, List.forall_mem_cons]
      exact ⟨rfl, rfl, List.forall_mem_nil _⟩
    | missing title label =>
      refine .of_page (by rintro ⟨⟩) ?_
      simp only [PageSpec.buttons, List.forall_mem_cons]
      exact ⟨rfl, rfl, List.forall_mem_nil _⟩
    | unknownKey title message =>
      exact .of_page (by rintro ⟨⟩) (List.forall_mem_singleton.2 rfl)
    | update _ => exact ⟨by rintro _ ⟨⟩, by rintro _ ⟨⟩⟩

/-- A key generation is under the PIN that is entered, where it is the first one again. -/
theorem keygen_of_effect {io : AppIo} {app : App} {event : AppEvent} {pin : Pin}
    (h : .spawnKeygen pin ∈ (app.handleEvent io event).2.2) :
    event = .pinEntered pin ∧ app.state = .setup (some pin) := by
  cases App.handleEvent_effect h with
  | quiet hquiet => cases hquiet
  | setup _ heffect =>
    cases heffect with
    | quiet hquiet => cases hquiet
    | keygen hevent hstate => exact ⟨hevent, hstate⟩
  | pinEntry _ heffect =>
    cases heffect with
    | quiet hquiet => cases hquiet
  | active _ heffect =>
    cases heffect with
    | quiet hquiet => cases hquiet

/-- A first boot, or the device that signs after it. -/
def FirstBoot (state : AppState) : Prop :=
  (∃ firstPin, state = .setup firstPin) ∨ ∃ screensaver, state = .active screensaver

/-- Where an event leads from the first boot: the first PIN is the one that is entered, or the one
before. -/
theorem state_handleEvent (io : AppIo) {app : App} (event : AppEvent) (h : FirstBoot app.state) :
    FirstBoot (app.handleEvent io event).1.state ∧
      ∀ pin, (app.handleEvent io event).1.state = .setup (some pin) →
        event = .firstPinEntered pin ∨ app.state = .setup (some pin) := by
  rcases h with ⟨firstPin, hstate⟩ | ⟨screensaver, hstate⟩
  · have hnext : (app.handleEvent io event).1.state = app.state ∨
        (app.handleEvent io event).1.state = (app.handleSetup io event).1.state := by
      unfold App.handleEvent
      cases event with
      | shutdown => exact .inl rfl
      | fatalError title message => exact .inl rfl
      | _ => exact .inr (by simp only [hstate])
    rcases hnext with hsame | hsetup
    · rw [hsame]
      exact ⟨.inl ⟨firstPin, hstate⟩, fun pin hpin => .inr hpin⟩
    · rw [hsetup, App.handleSetup_state hstate]
      cases event with
      | firstPinEntered pin =>
        exact ⟨.inl ⟨_, rfl⟩, fun pin' hpin => .inl (by cases hpin; rfl)⟩
      | pinMismatch => exact ⟨.inl ⟨_, rfl⟩, fun _ hpin => by cases hpin⟩
      | pinEntered pin =>
        dsimp only
        split
        · exact ⟨.inl ⟨_, rfl⟩, fun _ hpin => by cases hpin⟩
        · exact ⟨.inl ⟨_, rfl⟩, fun _ hpin => .inr (hstate.trans hpin)⟩
      | keyGenSuccess json => exact ⟨.inr ⟨_, rfl⟩, fun _ hpin => by cases hpin⟩
      | _ => exact ⟨.inl ⟨_, rfl⟩, fun _ hpin => .inr (hstate.trans hpin)⟩
  · have hnext : ∃ b, (app.handleEvent io event).1.state = .active b := by
      have hactive : ∃ b, (app.handleActive event).1.state = .active b :=
        App.handleActive_state hstate
      unfold App.handleEvent
      cases event with
      | shutdown => exact ⟨_, hstate⟩
      | fatalError title message => exact ⟨_, hstate⟩
      | _ => simp only [hstate]; exact hactive
    obtain ⟨b, hb⟩ := hnext
    rw [hb]
    exact ⟨.inr ⟨b, rfl⟩, fun _ hpin => by cases hpin⟩

/-- An event that is no PIN may wait. -/
theorem filterMap_concat {queue : List AppEvent} {event : AppEvent} (h : entryOf event = none) :
    (queue ++ [event]).filterMap entryOf = queue.filterMap entryOf := by
  rw [List.filterMap_append, List.filterMap_cons_none h, List.filterMap_nil, List.append_nil]

/-- What tame effects leave of a process: the PINs that wait, a page that the first boot shows, and
the application. -/
theorem after_tame (io : SetupIo) {loop : SetupLoop} {e : Effect} (h : Tame e)
    (hpage : ∀ spec, loop.page = some spec → Shown spec) :
    (loop.after io e).queue.filterMap entryOf = loop.queue.filterMap entryOf ∧
      (∀ spec, (loop.after io e).page = some spec → Shown spec) ∧
      (loop.after io e).app = loop.app := by
  cases e with
  | showPage spec => exact ⟨rfl, fun spec' hspec => by cases hspec; exact h.shows _ rfl, rfl⟩
  | showProgress => exact ⟨rfl, by rintro _ ⟨⟩, rfl⟩
  | emit event =>
    exact ⟨filterMap_concat (h.emits event rfl), hpage, rfl⟩
  | validateWatermarkConfig => exact ⟨filterMap_concat rfl, hpage, rfl⟩
  | _ => exact ⟨rfl, hpage, rfl⟩

/-- Tame effects add no entry to the queue and put up pages that are shown. -/
theorem foldl_after_tame (io : SetupIo) : ∀ {effects : List Effect} {loop : SetupLoop},
    (∀ e ∈ effects, Tame e) → (∀ spec, loop.page = some spec → Shown spec) →
    (effects.foldl (SetupLoop.after io) loop).queue.filterMap entryOf =
        loop.queue.filterMap entryOf ∧
      (∀ spec, (effects.foldl (SetupLoop.after io) loop).page = some spec → Shown spec) ∧
      (effects.foldl (SetupLoop.after io) loop).app = loop.app
  | [], _, _, hpage => ⟨rfl, hpage, rfl⟩
  | e :: effects, loop, htame, hpage => by
    obtain ⟨hqueue, hpage', happ⟩ := after_tame io (htame e List.mem_cons_self) hpage
    obtain ⟨hqueues, hpages, happs⟩ :=
      foldl_after_tame io (fun e he => htame e (List.mem_cons_of_mem _ he)) hpage'
    exact ⟨hqueues.trans hqueue, hpages, happs.trans happ⟩

/-! ## The policy -/

/-- A PIN that may be set: five to ten digits. -/
structure Allowed (pin : Pin) : Prop where
  min : PinPage.minPinLength ≤ pin.length
  max : pin.length ≤ PinPage.maxPinLength
  digits : ∀ digit ∈ pin, digit < 10

/-- What a touch leaves on the page are digits, ten at most. -/
theorem Touched.digits {mode : PinMode} {pin : Pin} {result : Pin × List AppEvent}
    (h : Touched mode pin result) (hmax : pin.length ≤ PinPage.maxPinLength)
    (hdigits : ∀ digit ∈ pin, digit < 10) :
    result.1.length ≤ PinPage.maxPinLength ∧ ∀ digit ∈ result.1, digit < 10 := by
  cases h with
  | kept => exact ⟨hmax, hdigits⟩
  | typed hdigit hlength =>
    refine ⟨?_, fun d hd => ?_⟩
    · rw [List.length_append]
      exact hlength
    · rcases List.mem_append.1 hd with hd | hd
      · exact hdigits d hd
      · rw [List.mem_singleton.1 hd]
        exact hdigit
  | removed =>
    refine ⟨?_, fun d hd => hdigits d (pin.dropLast_sublist.subset hd)⟩
    rw [List.length_dropLast]
    omega
  | cleared | short | first | entered => exact ⟨Nat.zero_le _, List.forall_mem_nil _⟩

/-- The invariant: the PINs that were entered are those that were handled and those that wait, in
order, each on its page. -/
structure Inv (c : PinSetup) : Prop where
  state : FirstBoot c.loop.app.state
  page : ∀ spec, c.loop.page = some spec → Shown spec
  max : c.pin.length ≤ PinPage.maxPinLength
  digits : ∀ digit ∈ c.pin, digit < 10
  allowed : ∀ pin, (.create, pin) ∈ c.entered → Allowed pin
  handled : ∃ past, c.entered = past ++ c.loop.queue.filterMap entryOf ∧
    (∀ pin, c.loop.app.state = .setup (some pin) → (.create, pin) ∈ past) ∧
    ∀ pin ∈ c.generated, [(.create, pin), (.confirm, pin)].Sublist past

section
variable {c c' : PinSetup}

/-- The mode of the page is that of a page of the first boot. -/
theorem Inv.mode_cases (h : Inv c) {mode : PinMode} (hmode : c.mode = some mode) :
    mode = .create ∨ mode = .confirm := by
  obtain ⟨spec, hspec, hmode⟩ := Option.bind_eq_some_iff.1 hmode
  have hne := (h.page spec hspec).not_verify
  cases spec with
  | pinCreate => cases hmode; exact .inl rfl
  | pinConfirm => cases hmode; exact .inr rfl
  | pinVerify => exact absurd rfl hne
  | _ => cases hmode

/-- A touch of the keypad keeps the invariant. -/
theorem Inv.touch (h : Inv c) {button : Nat} (hstep : c.step (.touch button) = some c') :
    Inv c' := by
  obtain ⟨mode, hmode, rfl⟩ := Option.map_eq_some_iff.1 hstep
  have htouched := touched mode c.pin button
  obtain ⟨hmax, hdigits⟩ := htouched.digits h.max h.digits
  obtain ⟨past, hentered, hfirst, hgenerated⟩ := h.handled
  -- What is entered on a page waits as an entry of that page.
  have hentries : ((PinPage.handleTouch mode c.pin button).2.filterMap entryOf).map
      (fun e => (mode, e.2)) = (PinPage.handleTouch mode c.pin button).2.filterMap entryOf ∧
      ∀ pin, (.create, pin) ∈ (PinPage.handleTouch mode c.pin button).2.filterMap entryOf →
        Allowed pin := by
    generalize PinPage.handleTouch mode c.pin button = result at htouched
    cases htouched with
    | first hcreate hlength =>
      subst hcreate
      refine ⟨rfl, fun pin hpin => ?_⟩
      cases List.mem_singleton.1 hpin
      exact ⟨hlength, h.max, h.digits⟩
    | entered hne =>
      have hconfirm := (h.mode_cases hmode).resolve_left hne
      subst hconfirm
      refine ⟨rfl, fun pin hpin => ?_⟩
      cases List.mem_singleton.1 hpin
    | _ => exact ⟨rfl, fun pin hpin => absurd hpin List.not_mem_nil⟩
  refine ⟨h.state, h.page, hmax, hdigits, fun pin hpin => ?_, past, ?_, hfirst, hgenerated⟩
  · dsimp only at hpin
    rw [hentries.1] at hpin
    exact (List.mem_append.1 hpin).elim (h.allowed pin) (hentries.2 pin)
  · dsimp only
    rw [hentries.1, hentered, List.filterMap_append, List.append_assoc]

/-- The invariant is kept where no PIN comes to wait, and the application stays as it is. -/
theorem Inv.keep (h : Inv c) {loop : SetupLoop} (happ : loop.app = c.loop.app)
    (hpage : loop.page = c.loop.page)
    (hqueue : loop.queue.filterMap entryOf = c.loop.queue.filterMap entryOf) :
    Inv { c with loop } := by
  refine ⟨happ ▸ h.state, hpage ▸ h.page, h.max, h.digits, h.allowed, ?_⟩
  dsimp only
  rw [hqueue, happ]
  exact h.handled

/-- An event that is handled, but for a redraw. -/
theorem handleNext_cons {io : SetupIo} {loop : SetupLoop} {event : AppEvent}
    {rest : List AppEvent} (hqueue : loop.queue = event :: rest) (hne : event ≠ .invalidate) :
    loop.handleNext io =
      let next := loop.app.handleEvent io.app event
      let loop := { loop with
        app := next.1, queue := rest, started := SetupLoop.isStart event || loop.started }
      match next.2.1 with
      | .continue => some loop
      | .break => none
      | .proceed => applyEffects io next.2.2 loop := by
  unfold SetupLoop.handleNext
  rw [hqueue]
  cases event <;> first | rfl | exact absurd rfl hne

/-- The effects of the event in front, unless it is an invalidation. -/
theorem headEffects_cons {io : SetupIo} {loop : SetupLoop} {event : AppEvent}
    {rest : List AppEvent} (hqueue : loop.queue = event :: rest) (hne : event ≠ .invalidate) :
    headEffects io loop = if (loop.app.handleEvent io.app event).2.1 = .proceed then
      (loop.app.handleEvent io.app event).2.2 else [] := by
  unfold headEffects
  rw [hqueue]
  cases event <;> first | rfl | exact absurd rfl hne

/-- An event that is handled keeps the invariant. -/
theorem Inv.handle (h : Inv c) {io : SetupIo} (hstep : c.step (.other (.handle io)) = some c') :
    Inv c' := by
  obtain ⟨loop, hloop, rfl⟩ := Option.map_eq_some_iff.1 hstep
  obtain ⟨past, hentered, hfirst, hgenerated⟩ := h.handled
  have hpin : ∀ b : Bool, (if b then ([] : Pin) else c.pin).length ≤ PinPage.maxPinLength ∧
      ∀ digit ∈ (if b then ([] : Pin) else c.pin), digit < 10 := by
    intro b
    cases b with
    | false => exact ⟨h.max, h.digits⟩
    | true => exact ⟨Nat.zero_le _, List.forall_mem_nil _⟩
  obtain ⟨hmax, hdigits⟩ := hpin ((headEffects io c.loop).any builds)
  cases hqueue : c.loop.queue with
  | nil =>
    rw [SetupLoop.step, SetupLoop.handleNext, hqueue] at hloop
    cases hloop
  | cons event rest =>
  rw [hqueue] at hentered
  by_cases hinvalidate : event = .invalidate
  · subst hinvalidate
    rw [SetupLoop.step, SetupLoop.handleNext, hqueue] at hloop
    cases hloop
    have hnone : headEffects io c.loop = [] := by rw [headEffects, hqueue]
    refine ⟨h.state, h.page, hmax, hdigits, h.allowed, past, hentered, hfirst, ?_⟩
    dsimp only
    rw [hnone, List.filterMap_nil, List.append_nil]
    exact hgenerated
  · rw [SetupLoop.step, handleNext_cons hqueue hinvalidate] at hloop
    obtain ⟨hstate, hnext⟩ := state_handleEvent io.app event h.state
    have htame : ∀ e ∈ (c.loop.app.handleEvent io.app event).2.2, Tame e := by
      intro e he
      refine tame_of_effect (fun failed lockoutUntil hentry => ?_) he
      rcases h.state with ⟨firstPin, hsetup⟩ | ⟨screensaver, hactive⟩
      · cases hsetup.symm.trans hentry
      · cases hactive.symm.trans hentry
    -- The event is handled: what it enters is no longer waiting.
    have hloop' : loop.queue.filterMap entryOf = rest.filterMap entryOf ∧
        (∀ spec, loop.page = some spec → Shown spec) ∧
        loop.app = (c.loop.app.handleEvent io.app event).1 := by
      dsimp only at hloop
      cases haction : (c.loop.app.handleEvent io.app event).2.1 with
      | «continue» =>
        rw [haction] at hloop
        cases hloop
        exact ⟨rfl, h.page, rfl⟩
      | «break» =>
        rw [haction] at hloop
        cases hloop
      | proceed =>
        rw [haction] at hloop
        obtain ⟨rfl, -⟩ := SetupLoop.applyEffects_eq hloop
        exact foldl_after_tame io htame h.page
    obtain ⟨hwaiting, hpage, happ⟩ := hloop'
    refine ⟨happ ▸ hstate, hpage, hmax, hdigits, h.allowed, past ++ (entryOf event).toList, ?_, ?_,
      ?_⟩
    · dsimp only
      rw [hwaiting, hentered, List.append_assoc]
      cases hentry : entryOf event with
      | none => rw [List.filterMap_cons_none hentry]; rfl
      | some entry => rw [List.filterMap_cons_some hentry]; rfl
    · intro pin hpin
      dsimp only at hpin
      rw [happ] at hpin
      rcases hnext pin hpin with rfl | hold
      · exact List.mem_append_right _ List.mem_cons_self
      · exact List.mem_append_left _ (hfirst pin hold)
    · intro pin hpin
      rcases List.mem_append.1 hpin with hpin | hpin
      · exact (hgenerated pin hpin).trans (List.sublist_append_left _ _)
      · obtain ⟨e, he, hkeygen⟩ := List.mem_filterMap.1 hpin
        rw [headEffects_cons hqueue hinvalidate] at he
        have hmem : e ∈ (c.loop.app.handleEvent io.app event).2.2 := by
          split at he
          · exact he
          · cases he
        cases e with
        | spawnKeygen pin' =>
          cases hkeygen
          obtain ⟨rfl, hsaved⟩ := keygen_of_effect hmem
          exact List.Sublist.append (List.singleton_sublist.2 (hfirst pin hsaved))
            (List.Sublist.refl [(PinMode.confirm, pin)])
        | _ => cases hkeygen

/-- Every step keeps the invariant. -/
theorem Inv.step (h : Inv c) {a : Action} (hstep : c.step a = some c') : Inv c' := by
  cases a with
  | touch button => exact h.touch hstep
  | other a =>
    cases a with
    | handle io => exact h.handle hstep
    | press event =>
      obtain ⟨hnone, hstep⟩ := Option.ite_none_left_eq_some.1 hstep
      obtain ⟨loop, hloop, rfl⟩ := Option.map_eq_some_iff.1 hstep
      obtain ⟨hsends, hloop⟩ := Option.ite_none_right_eq_some.1 hloop
      cases hloop
      refine h.keep rfl rfl (filterMap_concat ?_)
      cases hpage : c.loop.page with
      | none => rw [hpage] at hsends; cases hsends
      | some spec =>
        have hmode : spec.pinMode = none := by
          cases hspec : spec.pinMode with
          | none => rfl
          | some mode =>
            refine absurd ?_ hnone
            rw [PinSetup.mode, hpage, Option.bind_some, hspec]
            rfl
        rw [hpage] at hsends
        refine (h.page spec hpage).buttons event ?_
        cases spec with
        | pinCreate | pinConfirm | pinVerify => cases hmode
        | _ => exact hsends
    | post event =>
      obtain ⟨loop, hloop, rfl⟩ := Option.map_eq_some_iff.1 hstep
      obtain ⟨hnot, hloop⟩ := Option.ite_none_left_eq_some.1 hloop
      cases hloop
      refine h.keep rfl rfl (filterMap_concat ?_)
      cases event with
      | firstPinEntered pin => exact absurd trivial hnot
      | pinEntered pin => exact absurd trivial hnot
      | _ => rfl
    | storageEvent event =>
      obtain ⟨loop, hloop, rfl⟩ := Option.map_eq_some_iff.1 hstep
      obtain ⟨-, hloop⟩ := Option.ite_none_left_eq_some.1 hloop
      cases event with
      | storageProgress | storageSetupComplete | storageSetupFailed =>
        cases hloop
        exact h.keep rfl rfl (filterMap_concat rfl)
      | _ => cases hloop
    | keygenEvent event =>
      obtain ⟨loop, hloop, rfl⟩ := Option.map_eq_some_iff.1 hstep
      obtain ⟨-, hloop⟩ := Option.ite_none_left_eq_some.1 hloop
      cases event with
      | keyGenSuccess | keyGenFailed =>
        cases hloop
        exact h.keep rfl rfl (filterMap_concat rfl)
      | _ => cases hloop

/-- The invariant holds in every state that is reached. -/
theorem inv_run {actions : List Action} (h : Automaton.run PinSetup.step start actions = some c) :
    Inv c := by
  have hstart : Inv start := by
    refine ⟨.inl ⟨none, rfl⟩, ?_, Nat.zero_le _, List.forall_mem_nil _, ?_, [], rfl, ?_, ?_⟩
    · rintro _ ⟨⟩
      exact ⟨by decide, by decide⟩
    · exact fun pin hpin => absurd hpin List.not_mem_nil
    · rintro _ ⟨⟩
    · exact List.forall_mem_nil _
  exact Automaton.run_invariant (G := fun _ _ => True) (fun _ _ _ hinv _ hstep => hinv.step hstep)
    hstart (Automaton.along_of_forall _ fun _ _ => trivial) h

end

/-- **The PIN of the keys.** In every first boot, whatever is touched and in whatever order the
events are handled, the loop with the keypad runs as the loop of the first boot, and keys are
generated only under a PIN of five to ten digits that was entered on the page that creates it and
after that on the page that confirms it. -/
theorem keys_under_confirmed_pin {actions : List Action} {c : PinSetup}
    (h : Automaton.run step start actions = some c) :
    (∃ steps, Automaton.run SetupLoop.step SetupLoop.start steps = some c.loop) ∧
      ∀ pin ∈ c.generated, Allowed pin ∧
        [(.create, pin), (.confirm, pin)].Sublist c.entered := by
  have hinv := inv_run h
  obtain ⟨past, hentered, -, hgenerated⟩ := hinv.handled
  refine ⟨refines h, fun pin hpin => ?_⟩
  have hsublist : [(.create, pin), (.confirm, pin)].Sublist c.entered := by
    rw [hentered]
    exact (hgenerated pin hpin).trans (List.sublist_append_left _ _)
  exact ⟨hinv.allowed pin (hsublist.subset List.mem_cons_self), hsublist⟩

/-- The operator types too few digits, then six with a slip, and the same six again. -/
def typedTwice : List Action :=
  let others : List SetupLoop.Action :=
    [.press .startSetup, .handle (SetupLoop.freshIo true), .storageEvent .storageSetupComplete,
      .handle (SetupLoop.freshIo false), .handle (SetupLoop.freshIo false)]
  let redraws (n : Nat) : List Action :=
    List.replicate n (.other (.handle (SetupLoop.freshIo false)))
  others.map .other ++ [0, 1, 8, 0, 1, 2, 3, 4, 9, 11, 10, 8].map .touch ++ redraws 11 ++
    [0, 1, 2, 3, 4, 10, 8].map .touch ++ redraws 7

/-- A PIN typed twice, with a digit taken back in between. -/
theorem keys_under_confirmed_pin_typedTwice : ∃ c,
    Automaton.run step start typedTwice = some c ∧ c.generated = [[1, 2, 3, 4, 5, 0]] ∧
      (∃ steps, Automaton.run SetupLoop.step SetupLoop.start steps = some c.loop) ∧
      ∀ pin ∈ c.generated, Allowed pin ∧
        [(.create, pin), (.confirm, pin)].Sublist c.entered := by
  have hgenerated : (Automaton.run step start typedTwice).map generated =
      some [[1, 2, 3, 4, 5, 0]] := by decide +kernel
  obtain ⟨c, hrun, hc⟩ := Option.map_eq_some_iff.1 hgenerated
  exact ⟨c, hrun, hc, keys_under_confirmed_pin hrun⟩

end PinSetup

end Russignol
