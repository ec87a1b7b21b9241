import Russignol.Rpi.Console
import Russignol.Signer.TestUtils

/-!
# Confirmed updates

A dialog for a stale or missing watermark carries the level of the request that raised it, and the
confirmation sets all three marks of the key to that level, round 0, whatever they have become
meanwhile. Where no mark of the key has passed the level, in memory or on disk, the update lowers
nothing and nothing is signed twice (`Console.confirmations_raise`); otherwise it takes back
what was signed since the dialog was raised (`Console.confirmation_lowers`).
-/

namespace Russignol

open FloorRegister

section

variable [Blake3] [Base58]

namespace Console

/-- The faults of an action leave nothing readable besides the old and the new records. -/
def Action.Clean (card : Card) : Action → Prop
  | .sign seen io pkh data => (Russignol.Action.sign seen io pkh data).Clean card
  | .fire i io => (Russignol.Action.fire i io).Clean card
  | .post _ => True
  | .handle io => ∀ t, (io.ios t).Clean card.macKeys card.chainId

/-- An update that the operator confirmed finds no mark of its key above its level, neither in
memory nor on disk. -/
def Action.Raises (card : Card) (c : Console) : Action → Prop
  | .handle _ => ∀ u ∈ c.confirmed?, ∀ t ∈ OperationType.all,
      (∀ m ∈ c.device.mem u.1 t, m ≤ ⟨u.2.2, 0⟩) ∧
      ∀ e ∈ c.device.disk.reload card.macKeys card.chainId u.1 t, e ≤ ⟨u.2.2, 0⟩
  | .sign .. | .fire .. | .post _ => True

instance (card : Card) (c : Console) (a : Action) : Decidable (a.Raises card c) := by
  cases a <;> simp only [Action.Raises] <;> infer_instance

/-- Handling an event lowers no mark, neither in memory nor on disk. -/
def Action.LowersNothing [PageLayout] (card : Card) (c : Console) (a : Action) : Prop :=
  ∀ io c', a = .handle io → c.step card a = some c' → ∀ k t,
    NotLowered (c.device.slot card k t) (c'.device.slot card k t)

end Console

namespace Device

omit [Blake3] [Base58] in
/-- An update to a level that no mark has passed lowers nothing. -/
theorem Moved.notLowered {ios : OperationType → WriteIo} {y : WatermarkEntry} {t : OperationType}
    {a b b' : Register WatermarkEntry} (hfetch : Fetch a b) (h : Moved ios y t b b')
    (hmem : ∀ m, a.mem = some m → m ≤ y) (hdisk : ∀ e, a.disk = some e → e ≤ y) :
    NotLowered a b' := by
  refine ⟨fun m m' hm hm' => ?_, fun e e' he he' => ?_⟩
  · cases h.mem_eq.symm.trans hm'
    exact hmem m hm
  · have hsame : b'.disk = a.disk → e ≤ e' := by
      intro heq
      cases he.symm.trans (heq.symm.trans he')
      exact le_rfl
    have hshows : ∀ d, Shows d y → b'.disk = d → e ≤ e' := by
      intro d hd heq
      rw [hd.eq (heq.symm.trans he')]
      exact hdisk e he
    rcases h with rfl | ⟨-, r, h⟩
    · exact hsame hfetch.disk_eq
    · cases h with
      | done _ hd => exact hshows _ hd rfl
      | kept => exact hsame hfetch.disk_eq
      | landed _ hd => exact hshows _ hd rfl
      | torn => cases he'

omit [Blake3] [Base58] in
/-- A slot that was fetched is not lower. -/
theorem notLowered_of_fetch {a b : Register WatermarkEntry} (h : Fetch a b) : NotLowered a b := by
  refine ⟨fun m m' hm hm' => ?_, fun e e' he he' => ?_⟩
  · cases (h.mem_of_some hm).symm.trans hm'
    exact le_rfl
  · cases he.symm.trans (h.disk_eq.symm.trans he')
    exact le_rfl

/-- A sign request keeps every slot bounded. -/
theorem Requested.bounded {card : Card} {d d' : Device} {seen : HighWatermark} {io : SignIo}
    {pkh : PublicKeyHash} {data : List UInt8} (h : Requested card d seen io pkh data d')
    (hd : ∀ k t, Bounded (d.slot card k t)) (k : PublicKeyHash) (t : OperationType) :
    Bounded (d'.slot card k t) := by
  cases h with
  | refused hfetch => exact (hd k t).fetch (hfetch k t)
  | attempted t' m x r b b' _ _ hlt hfetch hmem heffect hslot hframe =>
    by_cases hkt : k = pkh ∧ t = t'
    · obtain ⟨rfl, rfl⟩ := hkt
      have hb : Bounded b := (hd k t).fetch hfetch
      have hissued : b'.issued = b.issued := heffect.issued_eq
      rw [hslot]
      cases r with
      | ok signature =>
        exact hb.issue hmem hlt (congrArg (x :: ·) hissued) (heffect.mem_eq hmem)
      | error e =>
        refine hb.rise hissued fun m' hm' => ⟨m', ?_, le_rfl⟩
        cases hmem.symm.trans hm'
        exact heffect.mem_eq hmem
    · exact (hd k t).fetch (hframe k t hkt)

end Device

namespace Console

/-- **One action** keeps every slot bounded, and an event that is handled lowers nothing, where the
confirmed updates raise. -/
theorem step_bounded [PageLayout] {card : Card} {c c' : Console} {a : Action}
    (hwf : c.device.Wf card) (hbounded : ∀ k t, Bounded (c.device.slot card k t))
    (hclean : a.Clean card) (hraises : a.Raises card c) (hstep : c.step card a = some c') :
    c'.device.Wf card ∧ (∀ k t, Bounded (c'.device.slot card k t)) ∧
      ∀ io, a = .handle io → ∀ k t,
        NotLowered (c.device.slot card k t) (c'.device.slot card k t) := by
  have hdevice := step_device hstep
  cases a with
  | sign seen io pkh data =>
    obtain ⟨hwf', hrequested⟩ := Device.sign_slots hwf hclean hdevice
    exact ⟨hwf', hrequested.bounded hbounded, nofun⟩
  | fire i io =>
    obtain ⟨hwf', hslots⟩ := Device.fire_steps hwf hclean hdevice
    refine ⟨hwf', fun k t => (hbounded k t).rise (hslots k t).2.2 fun m hm => ⟨m, ?_, le_rfl⟩, nofun⟩
    exact (hslots k t).2.1.trans hm
  | post event =>
    have hsame : c'.device = c.device := hdevice
    rw [hsame]
    exact ⟨hwf, hbounded, nofun⟩
  | handle io =>
    rcases handle_device hstep with hsame | ⟨pkh, chainId, level, hconfirms, hconfirm⟩
    · rw [hsame]
      exact ⟨hwf, hbounded, fun _ _ k t => NotLowered.refl _⟩
    · have hraises : ∀ t, (∀ m, c.device.mem pkh t = some m → m ≤ ⟨level, 0⟩) ∧
          ∀ e, c.device.disk.reload card.macKeys card.chainId pkh t = some e → e ≤ ⟨level, 0⟩ :=
        fun t => hraises _ hconfirms t (OperationType.mem_all t)
      obtain ⟨hwf', hissued, hslots⟩ := Device.confirm_slots hwf hclean hconfirm
      refine ⟨hwf', fun k t => ?_, fun _ _ k t => ?_⟩
      · rcases hslots k t with hfetch | ⟨rfl, b, hfetch, hmoved⟩
        · exact (hbounded k t).fetch hfetch
        · refine (hbounded k t).rise (hissued k t) fun m hm => ⟨_, hmoved.mem_eq, ?_⟩
          exact (hraises t).1 m hm
      · rcases hslots k t with hfetch | ⟨rfl, b, hfetch, hmoved⟩
        · exact Device.notLowered_of_fetch hfetch
        · obtain ⟨hmem, hdisk⟩ := hraises t
          exact hmoved.notLowered hfetch hmem hdisk

/-- **Confirmed updates that raise open no window.** Over any run of the console from a start on
any disk, in which every update that the operator confirms finds no mark of its key above its
level, no event that is handled lowers a mark, in memory or on disk, and what is signed for a key
and operation type strictly increases. -/
theorem confirmations_raise [PageLayout] (card : Card) (io : LoadIo) (disk : Disk)
    (as : List Action) (c : Console) (hclean : ∀ a ∈ as, a.Clean card)
    (hraises : Automaton.Along (step card) (fun c a => a.Raises card c) (start card io disk) as)
    (hrun : Automaton.run (step card) (start card io disk) as = some c) :
    Automaton.Along (step card) (fun c a => a.LowersNothing card c) (start card io disk) as ∧
      ∀ k t, (c.device.issued k t).Pairwise (· > ·) := by
  have hboot : (start card io disk).device.Wf card ∧
      ∀ k t, Bounded ((start card io disk).device.slot card k t) :=
    ⟨Device.boot_wf card io disk [], fun k t => Bounded.init rfl⟩
  have hmeets := (Automaton.along_of_forall (start card io disk) hclean).and hraises
  have hkeep : ∀ c a c', (c.device.Wf card ∧ ∀ k t, Bounded (c.device.slot card k t)) →
      a.Clean card ∧ a.Raises card c → step card c a = some c' →
      c'.device.Wf card ∧ ∀ k t, Bounded (c'.device.slot card k t) := by
    intro c a c' hc ha hstep
    obtain ⟨hwf, hbounded, -⟩ := step_bounded hc.1 hc.2 ha.1 ha.2 hstep
    exact ⟨hwf, hbounded⟩
  constructor
  · refine Automaton.Along.of_invariant hkeep (fun c a hc ha => ?_) hboot hmeets
    intro io c' heq hstep
    exact (step_bounded hc.1 hc.2 ha.1 ha.2 hstep).2.2 io heq
  · intro k t
    exact ((Automaton.run_invariant hkeep hboot hmeets hrun).2 k t).sorted

end Console

end

namespace Console

attribute [local instance] plainBlake3 plainBase58

/-- A panel on which the buttons of a page stand side by side. -/
@[reducible] def testLayout : PageLayout where
  buttonAt _ x _ := if 0 ≤ x then some x.toNat else none

attribute [local instance] testLayout

/-- Nothing fails while an event is handled. -/
def HandleIo.quiet : HandleIo := ⟨⟨0, false⟩, none, fun _ => .done⟩

/-- An attestation that nothing goes wrong with. -/
def attest (seen level : UInt32) : Action :=
  .sign (testWatermark [testKey 1] seen) SignIo.quiet (testKey 1)
    (createAttestationDataWithChain testChainBytes level 0)

/-- A request for level 150 over a mark at 100 raises the gap dialog. The operator confirms it
at once, and level 151 is signed. -/
def promptRun : List Action :=
  [attest 100 150, .handle HandleIo.quiet, .post (.touch 0 0), .handle HandleIo.quiet,
    .handle HandleIo.quiet, attest 150 151]

/-- The dialog of `promptRun` is left open while the levels 140 and 151 are signed; after the
confirmation 151 is requested again. -/
def lateRun : List Action :=
  [attest 100 150, .handle HandleIo.quiet, attest 100 140, attest 140 151,
    .post (.touch 0 0), .handle HandleIo.quiet, .handle HandleIo.quiet, .handle HandleIo.quiet,
    .handle HandleIo.quiet, attest 150 151]

/-- The actions of `promptRun` and of `lateRun` are clean. -/
theorem attest_clean (seen level : UInt32) : (attest seen level).Clean (testCard [testKey 1] 10) :=
  ⟨nofun, nofun⟩

theorem promptRun_clean : ∀ a ∈ promptRun, a.Clean (testCard [testKey 1] 10) := by
  intro a ha
  simp only [promptRun, List.mem_cons, List.not_mem_nil, or_false] at ha
  rcases ha with rfl | rfl | rfl | rfl | rfl | rfl
  · exact attest_clean _ _
  · exact fun _ => nofun
  · trivial
  · exact fun _ => nofun
  · exact fun _ => nofun
  · exact attest_clean _ _

/-- The log of `promptRun`, and its order. -/
theorem confirmations_raise_promptRun : ∃ c,
    Automaton.run (step (testCard [testKey 1] 10))
        (start (testCard [testKey 1] 10) LoadIo.quiet (testDisk [testKey 1] 100)) promptRun =
      some c ∧
    c.device.issued (testKey 1) .attestation = [⟨151, 0⟩] ∧
    (c.device.issued (testKey 1) .attestation).Pairwise (· > ·) := by
  have hlog : (Automaton.run (step (testCard [testKey 1] 10))
      (start (testCard [testKey 1] 10) LoadIo.quiet (testDisk [testKey 1] 100)) promptRun).map
      (·.device.issued (testKey 1) .attestation) = some [⟨151, 0⟩] := by decide +kernel
  have hraises : Automaton.Along (step (testCard [testKey 1] 10))
      (fun c a => a.Raises (testCard [testKey 1] 10) c)
      (start (testCard [testKey 1] 10) LoadIo.quiet (testDisk [testKey 1] 100)) promptRun := by
    decide +kernel
  obtain ⟨c, hrun, hissued⟩ := Option.map_eq_some_iff.1 hlog
  exact ⟨c, hrun, hissued, (confirmations_raise _ _ _ _ c promptRun_clean hraises hrun).2 _ _⟩

/-- **A confirmation that comes late lowers the floor**: in `lateRun` the attestation of level 151
is signed before the confirmation and again after it. -/
theorem confirmation_lowers : ¬∀ [Blake3] [Base58] [PageLayout] (card : Card) (io : LoadIo)
    (disk : Disk) (as : List Action) (c : Console), (∀ a ∈ as, a.Clean card) →
    Automaton.run (step card) (start card io disk) as = some c →
    Automaton.Along (step card) (fun c a => a.LowersNothing card c) (start card io disk) as ∧
      ∀ k t, (c.device.issued k t).Nodup := by
  intro h
  have hclean : ∀ a ∈ lateRun, a.Clean (testCard [testKey 1] 10) := by
    intro a ha
    simp only [lateRun, List.mem_cons, List.not_mem_nil, or_false] at ha
    rcases ha with rfl | rfl | rfl | rfl | rfl | rfl | rfl | rfl | rfl | rfl
    · exact attest_clean _ _
    · exact fun _ => nofun
    · exact attest_clean _ _
    · exact attest_clean _ _
    · trivial
    · exact fun _ => nofun
    · exact fun _ => nofun
    · exact fun _ => nofun
    · exact fun _ => nofun
    · exact attest_clean _ _
  have hlog : (Automaton.run (step (testCard [testKey 1] 10))
      (start (testCard [testKey 1] 10) LoadIo.quiet (testDisk [testKey 1] 100)) lateRun).map
      (·.device.issued (testKey 1) .attestation) = some [⟨151, 0⟩, ⟨151, 0⟩, ⟨140, 0⟩] := by
    decide +kernel
  obtain ⟨c, hrun, hissued⟩ := Option.map_eq_some_iff.1 hlog
  have hnodup := (h _ _ _ _ c hclean hrun).2 (testKey 1) .attestation
  rw [hissued] at hnodup
  exact absurd hnodup (by decide)

end Console

end Russignol
