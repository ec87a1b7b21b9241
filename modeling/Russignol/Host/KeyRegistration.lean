import Mathlib.Data.List.Basic
import Russignol.Base.Automaton
import Russignol.Host.RotationFlow

/-!
# Both keys are registered

The runs of `rotate-keys` against a chain that reports what is so. The invariant (`Accounted`) ties
the chain to the key transactions that were accepted, and says that a rotation that is underway, as
a run sees it by the consensus key alone, has both its keys on record. A submission that stops
between the two transactions breaks it, and so does an import over a rotation that is underway; in
runs without either a swap finds both keys registered (`rotation_registers`).
-/

namespace Russignol.Host

open EarlyExit

/-! ## The chain and time -/

/-- Time passes: the first of the pending keys become active, one after another. -/
def KeyStatus.Elapses (st st' : KeyStatus) : Prop :=
  ∃ activated, st.pendings = activated ++ st'.pendings ∧
    st'.active = (activated.getLast?.map (·.pkh)).or st.active

def Delegate.Elapses (d d' : Delegate) : Prop := ∀ role, (d.key role).Elapses (d'.key role)

/-- The chain reports what is so: between two queries only time passes. -/
def Truthful (io : RunIo) : Prop := ∀ p d d', io.observe p d = some d' → d.Elapses d'

/-- The key that is active in the end. -/
def KeyStatus.newest (st : KeyStatus) : Option String :=
  (st.pendings.getLast?.map (·.pkh)).or st.active

/-- A key is pending or active. -/
def Registered (s : Rotation) (role : KeyRole) (key : String) : Prop :=
  (s.chain.key role).active = some key ∨ ∃ p ∈ (s.chain.key role).pendings, p.pkh = key

/-- Time does not change which key is active in the end. -/
theorem KeyStatus.Elapses.newest {st st' : KeyStatus} (h : st.Elapses st') :
    st'.newest = st.newest := by
  obtain ⟨activated, hpendings, hactive⟩ := h
  rw [KeyStatus.newest, KeyStatus.newest, hpendings, hactive, List.getLast?_append]
  cases st'.pendings.getLast? <;> rfl

/-- Time makes no key pending. -/
theorem KeyStatus.Elapses.subset {st st' : KeyStatus} (h : st.Elapses st') :
    st'.pendings ⊆ st.pendings := by
  obtain ⟨activated, hpendings, -⟩ := h
  rw [hpendings]
  exact List.subset_append_right _ _

/-- Nothing becomes active where nothing is pending. -/
theorem KeyStatus.Elapses.of_nil {st st' : KeyStatus} (h : st.Elapses st')
    (hnil : st.pendings = []) : st'.pendings = [] ∧ st'.active = st.active := by
  obtain ⟨activated, hpendings, hactive⟩ := h
  obtain ⟨rfl, hrest⟩ := List.append_eq_nil_iff.1 (hpendings.symm.trans hnil)
  exact ⟨hrest, hactive⟩

/-- The key that is active in the end is registered. -/
theorem registered_of_newest {s : Rotation} {role : KeyRole} {key : String}
    (h : (s.chain.key role).newest = some key) : Registered s role key := by
  unfold KeyStatus.newest at h
  cases hlast : (s.chain.key role).pendings.getLast? with
  | none =>
    rw [hlast] at h
    exact .inl h
  | some p =>
    rw [hlast] at h
    exact .inr ⟨p, List.mem_of_getLast? hlast, Option.some.inj h⟩

/-- An accepted key is the one of its role that is active in the end. -/
theorem Delegate.newest_accept (d : Delegate) (role role' : KeyRole) (pending : PendingKey) :
    ((d.accept role pending).key role').newest =
      if role' = role then some pending.pkh else (d.key role').newest := by
  unfold Delegate.accept
  by_cases hrole : role' = role
  · subst hrole
    rw [if_pos rfl]
    simp [KeyStatus.newest]
  · rw [if_neg hrole]
    exact congrArg KeyStatus.newest (Function.update_of_ne hrole ..)

/-! ## The accepted keys -/

/-- The key of a role that was set last. -/
def latest (accepted : List (KeyRole × String)) (role : KeyRole) : Option String :=
  (accepted.find? (·.1 = role)).map (·.2)

/-- The keys that were set last are these two. -/
def BothAccepted (s : Rotation) (keys : KeyRole → String) : Prop :=
  ∃ before, s.accepted =
    (.companion, keys .companion) :: (.consensus, keys .consensus) :: before

/-- Where both keys were set last, each is the latest of its role. -/
theorem BothAccepted.latest {s : Rotation} {keys : KeyRole → String} (h : BothAccepted s keys)
    (role : KeyRole) : latest s.accepted role = some (keys role) := by
  obtain ⟨before, h⟩ := h
  rw [h]
  cases role <;> rfl

/-- The keys were accepted after what is on record. -/
def SubmittedSince (s t : Rotation) (role : KeyRole) (key : String) : Prop :=
  ∃ since, t.accepted = since ++ s.accepted ∧ (role, key) ∈ since

/-- What is latest was submitted since, or is latest on the older record. -/
theorem latest_since {s t : Rotation} {since : List (KeyRole × String)}
    (h : t.accepted = since ++ s.accepted) {role : KeyRole} {key : String}
    (hlatest : latest t.accepted role = some key) :
    SubmittedSince s t role key ∨ latest s.accepted role = some key := by
  rw [h, latest, List.find?_append] at hlatest
  cases hfind : since.find? (·.1 = role) with
  | none =>
    rw [hfind] at hlatest
    exact .inr hlatest
  | some e =>
    rw [hfind] at hlatest
    refine .inl ⟨since, h, ?_⟩
    have hfound := List.find?_some hfind
    have hrole : e.1 = role := of_decide_eq_true hfound
    have hkey : e.2 = key := Option.some.inj hlatest
    rw [← hrole, ← hkey]
    exact List.mem_of_find?_eq_some hfind

/-! ## What the claims of a run rest on -/

/-- What a run does is in order: it starts a swap only where both of the new keys were accepted,
nothing else is about to be promoted, and both are registered, those that were not at the start of
the run because it submitted them; it reports completion only of keys that were both accepted. -/
def InOrder (s : Rotation) (e : Event × Rotation) : Prop :=
  (e.1 = .swapping → ∃ keys, BothAccepted e.2 keys ∧
    (∀ role key, e.2.wallet.hash (.pending role) = some key → key = keys role) ∧
    ∀ role, Registered e.2 role (keys role) ∧
      (Registered s role (keys role) ∨ SubmittedSince s e.2 role (keys role))) ∧
  (e.1 = .completed → ∃ p, e.2.promotion = some p ∧ BothAccepted e.2 p.new)

/-- The keys that were set last are the pair whose aliases are still to be promoted. -/
def Paired (s : Rotation) : Prop :=
  ∃ keys, BothAccepted s keys ∧
    ∀ role key, s.wallet.hash (.pending role) = some key → key = keys role

/-- A run takes the rotation to be underway: a consensus key is pending, or the one to be promoted
is active. -/
def Underway (s : Rotation) : Prop :=
  (s.chain.key .consensus).pendings ≠ [] ∨
  ∃ key, s.wallet.hash (.pending .consensus) = some key ∧
    (s.chain.key .consensus).active = some key

/-- The chain has what was accepted, and a promotion was one of accepted keys. -/
structure OnRecord (s : Rotation) : Prop where
  newest : ∀ role key, latest s.accepted role = some key →
    (s.chain.key role).newest = some key
  silent : latest s.accepted .consensus = none → (s.chain.key .consensus).pendings = []
  backed : oldAliasesExist s.wallet = true → ∃ p, s.promotion = some p ∧ BothAccepted s p.new

/-- What every run leaves to the next. -/
def Accounted (s : Rotation) : Prop := OnRecord s ∧ (Underway s → Paired s)

/-- What a run that began at `s` has done so far. -/
structure Tracked (s : Rotation) (w : World) : Prop where
  record : OnRecord w.now
  since : ∃ since, w.now.accepted = since ++ s.accepted
  log : ∀ e ∈ w.log, InOrder s e

def Known (s : Rotation) (w : World) : Prop :=
  Tracked s w ∧ (Underway w.now → Paired w.now)

/-- The swap may start. -/
def Swappable (s : Rotation) (w : World) : Prop := Tracked s w ∧ Paired w.now

/-- The last promotion was one of accepted keys. -/
def Promoted (s : Rotation) (w : World) : Prop :=
  Known s w ∧ ∃ p, w.now.promotion = some p ∧ BothAccepted w.now p.new

variable {s : Rotation} {io : RunIo}

/-- A run that may swap has its keys paired. -/
theorem Swappable.known (w : World) (h : Swappable s w) : Known s w := ⟨h.1, fun _ => h.2⟩

/-! ### Time -/

/-- The chain keeps what was accepted while time goes by. -/
theorem OnRecord.elapse {d : Delegate} (h : OnRecord s) (hd : s.chain.Elapses d) :
    OnRecord { s with chain := d } where
  newest := fun role key hkey => (hd role).newest.trans (h.newest role key hkey)
  silent := fun hnone => ((hd .consensus).of_nil (h.silent hnone)).1
  backed := h.backed

/-- A rotation that time finds underway was so before: time begins none. -/
theorem Underway.of_elapse {d : Delegate} (hd : s.chain.Elapses d)
    (h : Underway { s with chain := d }) : Underway s := by
  by_cases hnil : (s.chain.key .consensus).pendings = []
  · obtain ⟨hnil', hactive⟩ := (hd .consensus).of_nil hnil
    rcases h with hpendings | ⟨key, halias, hkey⟩
    · exact absurd hnil' hpendings
    · exact .inr ⟨key, halias, hactive.symm.trans hkey⟩
  · exact .inl hnil

/-- Time adds nothing to what a run did. -/
theorem Tracked.elapse {w : World} {d : Delegate} (h : Tracked s w)
    (hd : w.now.chain.Elapses d) : Tracked s { w with now := { w.now with chain := d } } :=
  ⟨h.record.elapse hd, h.since, h.log⟩

/-- What a run knows stays so while time goes by. -/
theorem Known.elapse {w : World} {d : Delegate} (h : Known s w) (hd : w.now.chain.Elapses d) :
    Known s { w with now := { w.now with chain := d } } :=
  ⟨h.1.elapse hd, fun hunderway => h.2 (hunderway.of_elapse hd)⟩

/-- A predicate that only time can end. -/
def Lasting (I : World → Prop) : Prop :=
  ∀ w d, w.now.chain.Elapses d → I w → I { w with now := { w.now with chain := d } }

/-- A query of a chain that reports what is so. -/
theorem query_lasting {I : World → Prop} (hio : Truthful io) (hI : Lasting I) (p : QueryPoint) :
    Triple I (query io p) (fun d w => w.now.chain = d ∧ I w) I := by
  unfold query
  refine Triple.bind_get fun w => ?_
  split
  · exact Triple.throw fun _ hw => hw.2
  · rename_i d hd
    refine Triple.bind (R := fun _ v => v.now.chain = d ∧ I v) (Triple.modify ?_) fun _ =>
      Triple.pure fun _ => id
    rintro v ⟨rfl, hv⟩
    exact ⟨rfl, hI v d (hio p _ d hd) hv⟩

/-- Against a chain that reports what is so, looking at it keeps what only time can end. -/
theorem Lasting.polls {I : World → Prop} (hI : Lasting I) (hio : Truthful io) : Polls io I :=
  fun p => (query_lasting hio hI p).post fun _ _ hw => hw.2

/-- A swap that may start still may after a look at the chain. -/
theorem Swappable.lasting : Lasting (Swappable s) := fun _ _ hd h => ⟨h.1.elapse hd, h.2⟩

/-! ## The swap -/

/-- Starting a swap that may start. -/
theorem emit_swapping (hs : OnRecord s) : Keeps (Swappable s) (emit .swapping) := by
  refine emit_triple fun w hw => ⟨⟨hw.1.record, hw.1.since, fun e he => ?_⟩, hw.2⟩
  rcases List.mem_cons.1 he with rfl | he
  · obtain ⟨keys, hboth, haliases⟩ := hw.2
    obtain ⟨since, hsince⟩ := hw.1.since
    refine ⟨fun _ => ⟨keys, hboth, haliases, fun role => ?_⟩, nofun⟩
    have hlatest := hboth.latest role
    refine ⟨registered_of_newest (hw.1.record.newest role _ hlatest), ?_⟩
    rcases latest_since hsince hlatest with hsubmitted | hbefore
    · exact .inr hsubmitted
    · exact .inl (registered_of_newest (hs.newest role _ hbefore))
  · exact hw.1.log e he

/-- Any event but the start of a swap, once promoted. -/
theorem Promoted.emit {e : Event} (he : e ≠ .swapping) : Keeps (Promoted s) (Host.emit e) := by
  refine emit_triple fun w hw => ⟨⟨⟨hw.1.1.record, hw.1.1.since, fun e' he' => ?_⟩, hw.1.2⟩, hw.2⟩
  rcases List.mem_cons.1 he' with rfl | he'
  · exact ⟨fun h => absurd h he, fun _ => hw.2⟩
  · exact hw.1.1.log e' he'

/-- Pending aliases may go. -/
theorem Known.fewer {w : World} {wallet : Wallet} (h : Known s w)
    (htracked : Tracked s { w with now := { w.now with wallet } })
    (hpending : ∀ role key, wallet.hash (.pending role) = some key →
      w.now.wallet.hash (.pending role) = some key) :
    Known s { w with now := { w.now with wallet } } := by
  refine ⟨htracked, fun hunderway => ?_⟩
  have hunderway : Underway w.now := by
    rcases hunderway with hpendings | ⟨key, halias, hactive⟩
    · exact .inl hpendings
    · exact .inr ⟨key, hpending .consensus key halias, hactive⟩
  obtain ⟨keys, hboth, haliases⟩ := h.2 hunderway
  exact ⟨keys, hboth, fun role key hkey => haliases role key (hpending role key hkey)⟩

/-- Once promoted, the wallet may lose any aliases. -/
theorem Promoted.wallet {w : World} {wallet : Wallet} (h : Promoted s w)
    (hpending : ∀ role key, wallet.hash (.pending role) = some key →
      w.now.wallet.hash (.pending role) = some key) :
    Promoted s { w with now := { w.now with wallet } } :=
  ⟨h.1.fewer ⟨⟨h.1.1.record.newest, h.1.1.record.silent, fun _ => h.2⟩, h.1.1.since, h.1.1.log⟩
    hpending, h.2⟩

/-- A backup that is forgotten was one of a promotion of accepted keys. -/
theorem Promoted.forgetBackup (role : KeyRole) :
    Keeps (Promoted s) (forgetKeyAlias io (.old role)) := by
  have hforget : ∀ w, Promoted s w → Promoted s
      { w with now := { w.now with wallet := w.now.wallet.forget (.old role) } } := by
    intro w hw
    refine hw.wallet fun role' key hkey => ?_
    rw [Wallet.hash_forget, if_neg nofun] at hkey
    exact hkey
  exact perform_triple (fun _ => hforget) (fun _ _ _ => id) (fun _ => hforget) fun _ _ => id

/-- A backup that goes back to its alias leaves the promotion one of accepted keys. -/
theorem Promoted.restoreBackup (role : KeyRole) :
    Keeps (Promoted s) (renameAliasLocally io (.old role) (.live role)) := by
  refine renameAliasLocally_triple (fun w hw => ?_) fun _ => id
  refine hw.wallet fun role' key hkey => ?_
  have hne : BakerAlias.old role ≠ .live role := nofun
  rcases Wallet.hash_of_renameAlias hne hkey with hkey | ⟨h, -⟩
  · exact hkey
  · cases h

/-- Completion is reported of the accepted keys that were promoted. -/
theorem Promoted.completeRotation : Keeps (Promoted s) (Host.completeRotation io) :=
  completeRotation_keeps (fun role => Promoted.emit (e := .forgetting role) nofun)
    Promoted.forgetBackup (Promoted.emit (e := .completed) nofun)

/-- A promotion that has begun: what is left to promote are its keys. -/
def Promoting (s : Rotation) (p : Promotion) (w : World) : Prop :=
  Tracked s w ∧ w.now.promotion = some p ∧ BothAccepted w.now p.new ∧
  ∀ role key, w.now.wallet.hash (.pending role) = some key → key = p.new role

variable {p : Promotion}

/-- A promotion that has begun promotes accepted keys. -/
theorem Promoting.promoted (w : World) (h : Promoting s p w) : Promoted s w :=
  ⟨⟨h.1, fun _ => ⟨p.new, h.2.2⟩⟩, p, h.2.1, h.2.2.1⟩

/-- A rename that gives a pending alias none but its own key. -/
theorem Promoting.renamed {w : World} {oldAlias newAlias : BakerAlias} (h : Promoting s p w)
    (hne : oldAlias ≠ newAlias) (hkey : ∀ role key, newAlias = .pending role →
      w.now.wallet.hash oldAlias = some key → key = p.new role) :
    Promoting s p { w with now := { w.now with
      wallet := w.now.wallet.renameAlias oldAlias newAlias } } := by
  obtain ⟨⟨hrecord, hsince, hlog⟩, hpromotion, hboth, haliases⟩ := h
  refine ⟨⟨⟨hrecord.newest, hrecord.silent, fun _ => ⟨p, hpromotion, hboth⟩⟩, hsince, hlog⟩,
    hpromotion, hboth, fun role key hhash => ?_⟩
  rcases Wallet.hash_of_renameAlias hne hhash with hhash | ⟨hnew, hhash⟩
  · exact haliases role key hhash
  · exact hkey role key hnew.symm hhash

/-- A rename to an alias that is not pending goes on with the promotion. -/
theorem Promoting.rename {oldAlias newAlias : BakerAlias} (hne : oldAlias ≠ newAlias)
    (hnew : ∀ role, newAlias ≠ .pending role) :
    Keeps (Promoting s p) (renameAliasLocally io oldAlias newAlias) :=
  renameAliasLocally_triple
    (fun _ hw => hw.renamed hne fun role _ h => absurd h (hnew role)) fun _ => id

/-- Taking the backups back. -/
theorem Promoting.restore : ∀ roles : List KeyRole, Keeps (Promoting s p)
    (Host.restore io (roles.map fun role => (.old role, .live role))) := by
  refine fun roles => restore_keeps fun r hr => ?_
  obtain ⟨role, -, rfl⟩ := List.mem_map.1 hr
  exact Promoting.rename nofun nofun

/-- The consensus key is promoted, and could be given back. -/
def ConsensusPromoted (s : Rotation) (p : Promotion) (w : World) : Prop :=
  Promoting s p w ∧
  ∀ key, w.now.wallet.hash (.live .consensus) = some key → key = p.new .consensus

/-- The consensus key is promoted, or the backups go back and nothing is. -/
theorem promoteConsensus_triple {context : String} : Triple (Promoting s p)
    (renameOrRestore io (.pending .consensus) (.live .consensus) context
      [(.old .consensus, .live .consensus), (.old .companion, .live .companion)])
    (fun _ => ConsensusPromoted s p) (Promoting s p) := by
  have hne : BakerAlias.pending .consensus ≠ .live .consensus := nofun
  refine Triple.bind (R := fun r w => Promoting s p w ∧ (r = .ok () → ConsensusPromoted s p w))
    ?_ fun r => ?_
  · refine Triple.bind keyHash_triple fun found => ?_
    have hrenamed : ∀ w, found = w.now.wallet.hash (.pending .consensus) ∧ Promoting s p w →
        Promoting s p { w with now := { w.now with
          wallet := w.now.wallet.renameAlias (.pending .consensus) (.live .consensus) } } :=
      fun w hw => hw.2.renamed hne nofun
    refine Triple.bind (R := fun r w => Promoting s p w ∧
      (found.isSome = true → r = .ok () → ConsensusPromoted s p w))
      (perform_triple (fun _ w hw => ⟨hrenamed w hw, fun hfound _ => ⟨hrenamed w hw, ?_⟩⟩)
        (fun _ _ w hw => ⟨hw.2, nofun⟩) (fun _ => hrenamed) fun _ w hw => hw.2)
      fun r => Triple.pure fun w hw => ⟨hw.1, fun hr => ?_⟩
    · intro key hkey
      rw [hw.1] at hfound
      rw [Wallet.hash_renameAlias hne hfound, if_pos rfl] at hkey
      exact hw.2.2.2.2 .consensus key hkey
    · cases hfound : found.isSome with
      | true =>
        rw [hfound, if_pos rfl] at hr
        exact hw.2 hfound hr
      | false =>
        rw [hfound] at hr
        cases r <;> cases hr
  · cases r with
    | ok u => exact Triple.pure fun w hw => hw.2 rfl
    | error text =>
      exact Triple.pre (P := Promoting s p) (Triple.bind (Promoting.restore KeyRole.all)
        fun _ => Triple.throw fun _ => id) fun w hw => hw.1

/-- The companion key is promoted, or the consensus key is given back too. -/
theorem promoteCompanion_triple {context : String} : Triple (ConsensusPromoted s p)
    (renameOrRestore io (.pending .companion) (.live .companion) context
      [(.live .consensus, .pending .consensus), (.old .consensus, .live .consensus),
        (.old .companion, .live .companion)])
    (fun _ => Promoting s p) (Promoting s p) := by
  have hrename : Keeps (ConsensusPromoted s p)
      (renameAliasLocally io (.pending .companion) (.live .companion)) := by
    have hne : BakerAlias.pending .companion ≠ .live .companion := nofun
    refine renameAliasLocally_triple (fun w hw => ⟨hw.1.renamed hne nofun, fun key hkey => ?_⟩)
      fun _ => id
    rcases Wallet.hash_of_renameAlias hne hkey with hkey | ⟨h, -⟩
    · exact hw.2 key hkey
    · cases h
  have hback : Triple (ConsensusPromoted s p)
      (renameAliasLocally io (.live .consensus) (.pending .consensus))
      (fun _ => Promoting s p) (Promoting s p) := by
    refine renameAliasLocally_triple (fun w hw => hw.1.renamed nofun fun role key h hkey => ?_)
      fun w hw => hw.1
    cases h
    exact hw.2 key hkey
  refine Triple.bind (Triple.mono hrename (fun _ => id) (fun _ _ => id) fun w hw => hw.1)
    fun r => ?_
  cases r with
  | ok u => exact Triple.pure fun w hw => hw.1
  | error text =>
    refine Triple.bind (R := fun _ => Promoting s p) ?_ fun _ => Triple.throw fun _ => id
    exact Triple.bind hback fun _ => (Promoting.restore KeyRole.all).bind fun _ => Keeps.pure _

/-- **A swap that may start** promotes the accepted keys, as far as it gets. -/
theorem promote_promoted : Triple (Swappable s) (promoteAliasesWithBackup io)
    (fun _ => Promoted s) (Known s) := by
  have hstart := Swappable.known (s := s)
  refine Triple.bind (getKeyHash_triple hstart) fun pendingConsensus => ?_
  refine Triple.bind (getKeyHash_triple fun w hw => hstart w hw.2) fun pendingCompanion => ?_
  refine Triple.bind (getKeyHash_triple fun w hw => hstart w hw.2.2) fun currentConsensus => ?_
  refine Triple.bind (getKeyHash_triple fun w hw => hstart w hw.2.2.2) fun currentCompanion => ?_
  obtain ⟨p, hp⟩ : ∃ p : Promotion, p = ⟨perRole currentConsensus currentCompanion,
    perRole pendingConsensus pendingCompanion⟩ := ⟨_, rfl⟩
  rw [← hp]
  refine Triple.bind (R := fun _ => Promoting s p) (Triple.modify ?_) fun _ => ?_
  · rintro w ⟨-, -, hpendingCompanion, hpendingConsensus, htracked, keys, hboth, haliases⟩
    have hnew : p.new = keys := by
      funext role
      rw [hp]
      cases role with
      | consensus => exact haliases .consensus _ hpendingConsensus
      | companion => exact haliases .companion _ hpendingCompanion
    have hboth : BothAccepted w.now p.new := hnew ▸ hboth
    exact ⟨⟨⟨htracked.record.newest, htracked.record.silent, fun _ => ⟨p, rfl, hboth⟩⟩,
      htracked.since, htracked.log⟩, rfl, hboth, hnew ▸ haliases⟩
  have hend : ∀ w, Promoting s p w → Known s w := fun w hw => hw.promoted.1
  refine Triple.mono (Q := fun _ => Promoting s p) (E := Promoting s p) ?_ (fun _ => id)
    (fun _ => Promoting.promoted) hend
  refine Triple.bind (renameOrRestore_keeps (Promoting.rename nofun nofun)
    (Promoting.restore [])) fun _ => ?_
  refine Triple.bind (renameOrRestore_keeps (Promoting.rename nofun nofun)
    (Promoting.restore [.consensus])) fun _ => ?_
  exact Triple.bind promoteConsensus_triple fun _ => promoteCompanion_triple

/-- A promotion leaves what a run knows. -/
theorem Promoted.known (w : World) (h : Promoted s w) : Known s w := h.1

/-- The rest of a swap, once the keys are promoted. -/
theorem verified_known : Triple (Promoted s)
    (get >>= fun w => if verifyBakerSigning io.signals w.now.wallet then completeRotation io
      else pure () : Rotate Unit) (fun _ => Known s) (Known s) := by
  refine Triple.bind_get fun w => Triple.pre (P := Promoted s) ?_ fun _ hv => hv.2
  split
  · exact Promoted.completeRotation.ends Promoted.known
  · exact (Keeps.pure ()).ends Promoted.known

/-- A swap leaves what a run knows, done or broken off. -/
theorem executeSwapSequence_known (hs : OnRecord s) :
    Triple (Swappable s) (executeSwapSequence io) (fun _ => Known s) (Known s) := by
  refine (confirm_keeps _).before Swappable.known fun proceed => ?_
  split
  · refine (emit_swapping hs).before Swappable.known fun _ =>
      (step_keeps _).before Swappable.known fun _ =>
      (step_keeps _).before Swappable.known fun _ =>
      (step_keeps _).before Swappable.known fun _ => Triple.bind promote_promoted fun _ =>
      (step_keeps _).before Promoted.known fun _ => verified_known
  · exact (Keeps.pure ()).ends Swappable.known

/-- So does a run that goes on with a swap broken off before. -/
theorem resumeFromPartialSwap_known :
    Triple (Promoted s) (resumeFromPartialSwap io) (fun _ => Known s) (Known s) := by
  refine (ask_keeps _).before Promoted.known fun _ =>
    (stepUnless_keeps _ _).before Promoted.known fun _ => ?_
  refine Triple.bind_get fun w => Triple.pre (P := Promoted s) ?_ fun _ hv => hv.2
  split
  · exact Promoted.completeRotation.ends Promoted.known
  · refine (ask_keeps _).before Promoted.known fun rollback => ?_
    split
    · exact (Promoted.emit (e := .rollingBack) nofun).before Promoted.known fun _ =>
        (Promoted.restoreBackup .consensus).before Promoted.known fun _ =>
        (orFail_keeps _).before Promoted.known fun _ =>
        (Promoted.restoreBackup .companion).before Promoted.known fun _ =>
        (orFail_keeps _).ends Promoted.known
    · exact (Keeps.pure ()).ends Promoted.known

/-- Where the key to be promoted is active, the swap may start. -/
theorem resumeFromKeysActivatedNeedSwap_known (hs : OnRecord s) : Triple (Swappable s)
    (resumeFromKeysActivatedNeedSwap io) (fun _ => Known s) (Known s) := by
  refine Triple.bind ((getKeyHash_triple Swappable.known).post fun _ w hw => hw.2)
    fun pendingHash => checkSigner_keeps.before Swappable.known fun _ => ?_
  split
  · exact (Keeps.throw _).ends Swappable.known
  · split
    · refine (confirm_keeps _).before Swappable.known fun proceed => ?_
      split
      · exact (emit_swapping hs).before Swappable.known fun _ => Triple.bind promote_promoted
          fun _ => (ask_keeps _).before Promoted.known fun _ =>
          (stepUnless_keeps _ _).before Promoted.known fun _ => verified_known
      · exact (Keeps.throw _).ends Swappable.known
    · exact (Keeps.throw _).ends Swappable.known

/-! ## The submission -/

/-- What a run is answered to the two key transactions: where the first is accepted, so is the
second, in the same run. -/
def SubmitsBoth (io : RunIo) : Prop :=
  (io.setKey .consensus).lands = true →
    io.setKey .consensus = .done ∧ (io.setKey .companion).lands = true

/-- The run imports both keys and submits them. -/
def CompletesImport (io : RunIo) : Prop :=
  (∀ role, io.importKey role = .done) ∧ (∀ d, (io.observe .existing d).isSome = true) ∧
  (io.opts.autoConfirm = true ∨ io.ask .submit = .yes) ∧ io.setKey .consensus = .done

/-- An import that is not on record, of a run that completes it. -/
def Rushed (s : Rotation) (io : RunIo) (keys : KeyRole → String) (w : World) : Prop :=
  Tracked s w ∧ (io.opts.replace = true ∧ io.opts.dryRun = false ∧ CompletesImport io) ∧
  (∀ role, w.now.wallet.hash (.pending role) = some (keys role)) ∧
  ∀ p ∈ (w.now.chain.key .consensus).pendings, p.pkh ≠ keys .consensus

/-- The state in which the keys are submitted. -/
def Submittable (s : Rotation) (io : RunIo) (w : World) : Prop :=
  NoBackup w.now ∧ (Known s w ∨ ∃ keys, Rushed s io keys w) ∧
  ((io.setKey .consensus).lands = true →
    (w.now.wallet.hash (.pending .consensus)).isSome = true →
    (w.now.wallet.hash (.pending .companion)).isSome = true)

/-- The chain takes a key. -/
theorem OnRecord.accept (h : OnRecord s) (role : KeyRole) (pending : PendingKey)
    (hbacked : oldAliasesExist s.wallet = false) :
    OnRecord { s with
      chain := s.chain.accept role pending, accepted := (role, pending.pkh) :: s.accepted } := by
  have hlatest : ∀ role', latest ((role, pending.pkh) :: s.accepted) role' =
      if role' = role then some pending.pkh else latest s.accepted role' := by
    intro role'
    unfold latest
    rw [List.find?_cons]
    by_cases hrole : role' = role
    · rw [if_pos hrole, hrole]
      simp
    · rw [if_neg hrole]
      simp [Ne.symm hrole]
  refine ⟨fun role' key hkey => ?_, fun hnone => ?_, fun hold => ?_⟩
  · rw [hlatest] at hkey
    rw [Delegate.newest_accept]
    split
    · rename_i hrole
      rwa [if_pos hrole] at hkey
    · rename_i hrole
      rw [if_neg hrole] at hkey
      exact h.newest role' key hkey
  · rw [hlatest] at hnone
    split at hnone
    · cases hnone
    · rename_i hrole
      exact (congrArg KeyStatus.pendings (Function.update_of_ne hrole ..)).trans (h.silent hnone)
  · exact absurd (hbacked.symm.trans hold) nofun

/-- The consensus key is set, and the companion key is still to be. -/
def HalfSubmitted (s : Rotation) (w : World) : Prop :=
  Tracked s w ∧ NoBackup w.now ∧
  ∃ (keys : KeyRole → String) (before : List (KeyRole × String)),
    w.now.accepted = (.consensus, keys .consensus) :: before ∧
    ∀ role : KeyRole, w.now.wallet.hash (.pending role) = some (keys role)

/-- A key that the chain takes goes on record, with no backup in the way. -/
theorem Tracked.accept {w : World} (h : Tracked s w) (hbackup : NoBackup w.now) (role : KeyRole)
    (pending : PendingKey) : Tracked s { w with now := { w.now with
      chain := w.now.chain.accept role pending
      accepted := (role, pending.pkh) :: w.now.accepted } } := by
  obtain ⟨since, hsince⟩ := h.since
  exact ⟨h.record.accept role pending ((noBackup_iff _).1 hbackup),
    ⟨(role, pending.pkh) :: since, congrArg _ hsince⟩, h.log⟩

/-- The consensus key is set and the companion key will be, or neither is and the run knows. -/
theorem setConsensus_triple (hboth : SubmitsBoth io) : Triple (Submittable s io)
    (setKey io .consensus) (fun r w => r = .ok () ∧ (io.setKey .companion).lands = true ∧
      HalfSubmitted s w ∨ (∃ text, r = .error text) ∧ Known s w) (Known s) := by
  -- A run that completes its import has the key accepted: it does not get to the other ends.
  have hknown : io.setKey .consensus ≠ .done → ∀ w, Submittable s io w → Known s w := by
    rintro hio w ⟨-, hknown | ⟨keys, -, hcompletes, -⟩, -⟩
    · exact hknown
    · exact absurd hcompletes.2.2.2.2.2 hio
  refine Triple.bind keyHash_triple fun hash => ?_
  cases hash with
  | none =>
    refine Triple.pure fun w hw => .inr ⟨⟨_, rfl⟩, ?_⟩
    obtain ⟨hnone, -, hknown | ⟨keys, -, -, haliases, -⟩, -⟩ := hw
    · exact hknown
    · exact nomatch hnone.trans (haliases .consensus)
  | some key =>
    refine perform_triple (fun hdone w hw => .inl ?_)
      (fun text hfailed w hw => .inr ⟨⟨text, rfl⟩, ?_⟩)
      (fun hkilled w hw => ?_) fun hkilled w hw => hknown (by rw [hkilled]; nofun) w hw.2
    · have hlands : (io.setKey .consensus).lands = true := by rw [hdone]; rfl
      obtain ⟨hkey, hbackup, hknown, hcompanion⟩ := hw
      obtain ⟨companion, hcompanion⟩ :=
        Option.isSome_iff_exists.1 (hcompanion hlands (by rw [← hkey]; rfl))
      have htracked : Tracked s w := by
        rcases hknown with hknown | ⟨keys, htracked, -⟩
        · exact hknown.1
        · exact htracked
      refine ⟨rfl, (hboth hlands).2, htracked.accept hbackup .consensus ⟨_, key⟩, hbackup,
        perRole key companion, _, rfl, fun role => ?_⟩
      cases role with
      | consensus => exact hkey.symm
      | companion => exact hcompanion
    · exact hknown (by rw [hfailed]; nofun) w hw.2
    · have hlands : (io.setKey .consensus).lands = true := by rw [hkilled]; rfl
      have hdone := (hboth hlands).1
      rw [hkilled] at hdone
      cases hdone

/-- With the companion key set as well, the swap may start. -/
theorem setCompanion_triple (hlands : (io.setKey .companion).lands = true) :
    Triple (HalfSubmitted s) (setKey io .companion) (fun r w => r = .ok () ∧ Swappable s w)
      (Known s) := by
  refine Triple.bind keyHash_triple fun hash => ?_
  have haccepted : ∀ key w, some key = w.now.wallet.hash (.pending .companion) ∧
      HalfSubmitted s w → Swappable s { w with now := { w.now with
        chain := w.now.chain.accept .companion ⟨io.activationCycle .companion, key⟩
        accepted := (.companion, key) :: w.now.accepted } } := by
    rintro key w ⟨hkey, htracked, hbackup, keys, before, haccepted, haliases⟩
    have hkey : key = keys .companion := Option.some.inj (hkey.trans (haliases .companion))
    refine ⟨htracked.accept hbackup .companion ⟨_, key⟩, keys, ⟨before, ?_⟩, fun role key' hhash =>
      Option.some.inj (hhash.symm.trans (haliases role))⟩
    rw [hkey, haccepted]
  cases hash with
  | none =>
    refine Triple.pure fun w hw => ?_
    obtain ⟨hnone, -, -, keys, -, -, haliases⟩ := hw
    exact nomatch hnone.trans (haliases .companion)
  | some key =>
    refine perform_triple (fun _ w hw => ⟨rfl, haccepted key w hw⟩) (fun text hfailed w _ => ?_)
      (fun _ w hw => (haccepted key w hw).known) fun hkilled w _ => ?_
    · rw [hfailed] at hlands
      cases hlands
    · rw [hkilled] at hlands
      cases hlands

/-- **The two transactions**, where both are accepted or none. -/
theorem setKeys_triple (hboth : SubmitsBoth io) :
    Triple (Submittable s io) (setKeys io KeyRole.all) (fun _ => Swappable s) (Known s) := by
  refine Triple.bind (setConsensus_triple hboth) fun r => ?_
  refine Triple.bind (R := fun _ w => (io.setKey .companion).lands = true ∧ HalfSubmitted s w)
    ?_ fun _ => Triple.of_pre fun hlands => ?_
  · cases r with
    | ok u =>
      refine Triple.pure fun w hw => ?_
      rcases hw with ⟨-, hw⟩ | ⟨⟨text, hr⟩, -⟩
      · exact hw
      · cases hr
    | error text =>
      refine Triple.throw fun w hw => ?_
      rcases hw with ⟨hr, -⟩ | ⟨-, hw⟩
      · cases hr
      · exact hw
  · refine Triple.bind (setCompanion_triple hlands) fun r => Triple.of_pre ?_
    rintro rfl
    exact Triple.pure fun _ => id

/-- The submission sets both keys, so that the swap may start, or leaves what the run knows. -/
theorem submitKeyRotationTransactions_triple (hio : Truthful io) (hboth : SubmitsBoth io) :
    Triple (Submittable s io) (submitKeyRotationTransactions io) (fun _ => Swappable s)
      (Known s) := by
  refine Triple.bind (R := fun confirmed w => (confirmed = false → Known s w) ∧
    Submittable s io w) ?_ fun confirmed => ?_
  · unfold confirm
    split
    · exact Triple.pure fun w hw => ⟨nofun, hw⟩
    · rename_i hconfirm
      have hknown : io.ask .submit ≠ .yes → ∀ w, Submittable s io w → Known s w := by
        rintro hask w ⟨-, hknown | ⟨keys, -, ⟨-, -, -, -, hyes, -⟩, -⟩, -⟩
        · exact hknown
        · rcases hyes with hyes | hyes
          · exact absurd hyes hconfirm
          · exact absurd hyes hask
      unfold ask
      cases hask : io.ask .submit with
      | yes => exact Triple.pure fun w hw => ⟨nofun, hw⟩
      | no => exact Triple.pure fun w hw => ⟨fun _ => hknown (by rw [hask]; nofun) w hw, hw⟩
      | failed text => exact Triple.throw (hknown (by rw [hask]; nofun))
      | killed => exact Triple.throw (hknown (by rw [hask]; nofun))
  · cases confirmed with
    | true =>
      refine Triple.pre (P := Submittable s io) ?_ fun w hw => hw.2
      exact Triple.bind (setKeys_triple hboth) fun _ => (pollForPendingActivation_keeps
        (Swappable.lasting.polls hio) 24).mono (fun _ => id) (fun _ _ => id) Swappable.known
    | false => exact Triple.throw fun w hw => hw.1 rfl

/-! ## The import -/

/-- A change of the pending aliases alone. -/
theorem Tracked.pending {w : World} {wallet : Wallet} (h : Tracked s w)
    (hold : ∀ role, wallet.hash (.old role) = w.now.wallet.hash (.old role)) :
    Tracked s { w with now := { w.now with wallet } } := by
  refine ⟨⟨h.record.newest, h.record.silent, fun hexists => h.record.backed ?_⟩, h.since, h.log⟩
  unfold oldAliasesExist at hexists ⊢
  rw [hold .consensus, hold .companion] at hexists
  exact hexists

/-- A key is imported. -/
def World.imported (io : RunIo) (keys : KeyRole → String) (role : KeyRole) (w : World) : World :=
  { w with now := { w.now with
      wallet := w.now.wallet.importKey (.pending role) (io.signerUri ++ "/" ++ keys role)
        (keys role) } }

/-- The pending aliases of other roles stay. -/
theorem World.hash_imported (keys : KeyRole → String) (role role' : KeyRole) (w : World) :
    (w.imported io keys role).now.wallet.hash (.pending role') =
      if role' = role then some (keys role) else w.now.wallet.hash (.pending role') := by
  unfold imported
  rw [Wallet.hash_importKey]
  by_cases hrole : role' = role
  · rw [if_pos (congrArg _ hrole), if_pos hrole]
  · rw [if_neg fun h => hrole (BakerAlias.pending.inj h), if_neg hrole]

/-- What importing keys keeps, where it is not cut off or may be. -/
theorem importNewKeys_triple {I E : World → Prop} {keys : KeyRole → String}
    (hI : ∀ w role, I w → I (w.imported io keys role))
    (hE : (∀ role, io.importKey role = .done) ∨ ∀ w, I w → E w) : ∀ roles : List KeyRole,
    Triple (fun w => I w ∧ ∀ role, role ∉ roles →
        w.now.wallet.hash (.pending role) = some (keys role)) (importNewKeys io keys roles)
      (fun _ w => I w ∧ ∀ role, w.now.wallet.hash (.pending role) = some (keys role)) E
  | [] => Triple.pure fun _ hw => ⟨hw.1, fun role => hw.2 role List.not_mem_nil⟩
  | role :: roles => by
    have hfail : io.importKey role ≠ .done → ∀ w, I w → E w := by
      rcases hE with hdone | hE
      · exact fun hne => absurd (hdone role) hne
      · exact fun _ => hE
    have himported : ∀ w, (I w ∧ ∀ role', role' ∉ role :: roles →
        w.now.wallet.hash (.pending role') = some (keys role')) →
        I (w.imported io keys role) ∧ ∀ role', role' ∉ roles →
          (w.imported io keys role).now.wallet.hash (.pending role') = some (keys role') := by
      refine fun w hw => ⟨hI w role hw.1, fun role' hrole' => ?_⟩
      rw [World.hash_imported]
      split
      · rename_i h
        rw [h]
      · rename_i h
        exact hw.2 role' fun hmem => (List.mem_cons.1 hmem).elim h hrole'
    refine Triple.bind (R := fun r w => (r = .ok () → I w ∧ ∀ role', role' ∉ roles →
      w.now.wallet.hash (.pending role') = some (keys role')) ∧ (r ≠ .ok () → E w))
      (perform_triple (fun _ w hw => ⟨fun _ => himported w hw, fun h => absurd rfl h⟩)
        (fun text hfailed w hw => ⟨nofun, fun _ => hfail (by rw [hfailed]; nofun) w hw.1⟩)
        (fun hkilled w hw => hfail (by rw [hkilled]; nofun) _ (hI w role hw.1))
        fun hkilled w hw => hfail (by rw [hkilled]; nofun) w hw.1) fun r => ?_
    refine Triple.bind (R := fun _ w => I w ∧ ∀ role', role' ∉ roles →
      w.now.wallet.hash (.pending role') = some (keys role')) ?_ fun _ =>
        importNewKeys_triple hI hE roles
    cases r with
    | ok u => exact Triple.pure fun w hw => hw.1 rfl
    | error text => exact Triple.throw fun w hw => hw.2 nofun

/-- An import changes nothing that is on record, and backs nothing up. -/
theorem Tracked.imported (w : World) (role : KeyRole) (keys : KeyRole → String)
    (h : Tracked s w) (hbackup : NoBackup w.now) :
    Tracked s (w.imported io keys role) ∧ NoBackup (w.imported io keys role).now := by
  have hold : ∀ role', (w.imported io keys role).now.wallet.hash (.old role') =
      w.now.wallet.hash (.old role') :=
    fun role' => (Wallet.hash_importKey ..).trans (if_neg nofun)
  exact ⟨h.pending hold, fun role' => (hold role').trans (hbackup role')⟩

/-- Nothing is pending, and the key to be imported is not the active one. -/
def Unclaimed (s : Rotation) (keys : KeyRole → String) (w : World) : Prop :=
  Tracked s w ∧ NoBackup w.now ∧ (w.now.chain.key .consensus).pendings = [] ∧
  (w.now.chain.key .consensus).active ≠ some (keys .consensus) ∧
  ∀ key, w.now.wallet.hash (.pending .consensus) = some key → key = keys .consensus

/-- The keys to be imported are those set last. -/
def Reimported (s : Rotation) (keys : KeyRole → String) (w : World) : Prop :=
  Tracked s w ∧ NoBackup w.now ∧ BothAccepted w.now keys ∧
  ∀ role key, w.now.wallet.hash (.pending role) = some key → key = keys role

/-- No pending key is to be imported. -/
def Overriding (s : Rotation) (keys : KeyRole → String) (w : World) : Prop :=
  Tracked s w ∧ NoBackup w.now ∧
  ∀ p ∈ (w.now.chain.key .consensus).pendings, p.pkh ≠ keys .consensus

variable {keys : KeyRole → String}

/-- Where nothing is pending and the key to be imported is not active, nothing is underway. -/
theorem Unclaimed.known (w : World) (h : Unclaimed s keys w) : Known s w := by
  obtain ⟨htracked, -, hnil, hactive, halias⟩ := h
  refine ⟨htracked, fun hunderway => ?_⟩
  rcases hunderway with hpendings | ⟨key, hkey, hkey'⟩
  · exact absurd hnil hpendings
  · rw [halias key hkey] at hkey'
    exact absurd hkey' hactive

/-- A pair that was set last may be swapped in. -/
theorem Reimported.swappable (w : World) (h : Reimported s keys w) : Swappable s w :=
  ⟨h.1, keys, h.2.2⟩

/-- With the key imported, still nothing is underway. -/
theorem Unclaimed.imported (w : World) (role : KeyRole) (h : Unclaimed s keys w) :
    Unclaimed s keys (w.imported io keys role) := by
  obtain ⟨htracked, hbackup, hnil, hactive, halias⟩ := h
  have himported : Tracked s (w.imported io keys role) ∧ NoBackup (w.imported io keys role).now :=
    htracked.imported w role keys hbackup
  refine ⟨himported.1, himported.2, hnil, hactive, fun key hkey => ?_⟩
  rw [World.hash_imported] at hkey
  split at hkey
  · rename_i hrole
    rw [hrole]
    exact (Option.some.inj hkey).symm
  · exact halias key hkey

/-- An import of the keys set last keeps the pair. -/
theorem Reimported.imported (w : World) (role : KeyRole) (h : Reimported s keys w) :
    Reimported s keys (w.imported io keys role) := by
  obtain ⟨htracked, hbackup, hboth, haliases⟩ := h
  have himported : Tracked s (w.imported io keys role) ∧ NoBackup (w.imported io keys role).now :=
    htracked.imported w role keys hbackup
  refine ⟨himported.1, himported.2, hboth, fun role' key hkey => ?_⟩
  rw [World.hash_imported] at hkey
  split at hkey
  · rename_i hrole
    rw [hrole]
    exact (Option.some.inj hkey).symm
  · exact haliases role' key hkey

/-- An import of keys that are not pending keeps them so. -/
theorem Overriding.imported (w : World) (role : KeyRole) (h : Overriding s keys w) :
    Overriding s keys (w.imported io keys role) := by
  have himported : Tracked s (w.imported io keys role) ∧ NoBackup (w.imported io keys role).now :=
    h.1.imported w role keys h.2.1
  exact ⟨himported.1, himported.2, h.2.2⟩

/-! ## The runs that keep the keys together -/

/-- A run that imports keys while a consensus key is pending imports those set last, or replaces
keys that are none of its own and submits its own. -/
def ImportsRegistered (s : Rotation) (io : RunIo) : Prop :=
  (s.chain.key .consensus).pendings ≠ [] →
    io.opts.replace = true ∨ pendingAliasesExist s.wallet = false →
      ∀ keys, discoverKeyHashes io = .ok keys → BothAccepted s keys ∨
        (∀ p ∈ (s.chain.key .consensus).pendings, p.pkh ≠ keys .consensus) ∧
        (io.opts.replace = true → io.opts.dryRun = true ∨
          (io.importKey .consensus).lands = false ∨ CompletesImport io)

/-- A run that does not part the two keys. -/
structure KeepsPair (s : Rotation) (io : RunIo) : Prop where
  submits : SubmitsBoth io
  /-- It does not submit a consensus key alone. -/
  aliases : (io.setKey .consensus).lands = true → io.opts.replace = false →
    (s.wallet.hash (.pending .consensus)).isSome = true →
    (s.wallet.hash (.pending .companion)).isSome = true
  imports : ImportsRegistered s io

/-- The run looked at the chain only. -/
def Watching (s : Rotation) (w : World) : Prop :=
  Known s w ∧ w.now.accepted = s.accepted ∧ w.now.wallet = s.wallet ∧
  (w.now.chain.key .consensus).pendings ⊆ (s.chain.key .consensus).pendings

/-- A run that only looked at the chain did so after one look more. -/
theorem Watching.lasting : Lasting (Watching s) :=
  fun _ _ hd h => ⟨h.1.elapse hd, h.2.1, h.2.2.1, fun _ hp => h.2.2.2 ((hd _).subset hp)⟩

/-- A run that only looked at the chain knows what it found. -/
theorem Watching.known (w : World) (h : Watching s w) : Known s w := h.1

/-- What a run knows of the state it detected. -/
def Detected (w : World) : RotationState → Prop
  | .partialSwap => oldAliasesExist w.now.wallet = true
  | .clean => NoBackup w.now ∧ (w.now.chain.key .consensus).pendings = [] ∧
      pendingAliasesExist w.now.wallet = false
  | .keysImported _ _ => NoBackup w.now
  | .pending _ => NoBackup w.now ∧ Paired w.now
  | .pendingOnChainOnly _ => NoBackup w.now ∧ Paired w.now ∧
      pendingAliasesExist w.now.wallet = false
  | .keysActivatedNeedSwap => NoBackup w.now ∧
      ((w.now.wallet.hash (.pending .consensus)).isSome = true → Paired w.now)

/-- **The detection** by the consensus key finds the pair. -/
theorem detectRotationState_known (hio : Truthful io) : Triple (Watching s)
    (detectRotationState io) (fun state w => Watching s w ∧ Detected w state) (Watching s) := by
  refine Triple.bind_get fun w => ?_
  dsimp only
  split
  · rename_i hold
    refine Triple.pure fun v hv => ⟨hv.2, ?_⟩
    rw [hv.1]
    exact hold
  · rename_i hold
    have hwallet : ∀ v, v = w ∧ Watching s v → v.now.wallet = w.now.wallet ∧ Watching s v :=
      fun v hv => ⟨hv.1 ▸ rfl, hv.2⟩
    have hlasting : Lasting fun v => v.now.wallet = w.now.wallet ∧ Watching s v :=
      fun v d hd hv => ⟨hv.1, Watching.lasting v d hd hv.2⟩
    have hbackup : ∀ v : World, v.now.wallet = w.now.wallet → NoBackup v.now := by
      intro v hv
      rw [noBackup_iff, hv]
      exact eq_false_of_ne_true hold
    refine Triple.pre (P := fun v => v.now.wallet = w.now.wallet ∧ Watching s v) ?_ hwallet
    refine Triple.bind (Triple.mono (query_lasting hio hlasting _) (fun _ => id) (fun _ _ => id)
      fun v hv => hv.2) fun chain => ?_
    split
    · rename_i hpending
      have hpendings : (chain.key .consensus).pendings ≠ [] := by
        intro hnil
        rw [Delegate.activationStatus, hnil] at hpending
        cases hpending
      have hpaired : ∀ v : World, v.now.chain = chain → Watching s v → Paired v.now :=
        fun v hv hwatching => hwatching.1.2 (.inl (hv ▸ hpendings))
      split
      · exact Triple.throw fun v hv => hv.2.2
      · split
        · exact Triple.pure fun v hv => ⟨hv.2.2, hbackup v hv.2.1, hpaired v hv.1 hv.2.2⟩
        · rename_i haliases
          refine Triple.pure fun v hv => ⟨hv.2.2, hbackup v hv.2.1, hpaired v hv.1 hv.2.2, ?_⟩
          rw [hv.2.1]
          exact eq_false_of_ne_true haliases
    · rename_i hpending
      have hnil : (chain.key .consensus).pendings = [] := by
        cases hchain : (chain.key .consensus).pendings with
        | nil => rfl
        | cons p ps =>
          rw [Delegate.activationStatus, hchain] at hpending
          exact absurd rfl hpending
      split
      · refine Triple.pre (P := fun v => (v.now.chain.key .consensus).pendings = [] ∧
          v.now.wallet = w.now.wallet ∧ Watching s v) ?_ fun v hv => ⟨hv.1 ▸ hnil, hv.2⟩
        have hlasting : Lasting fun v => (v.now.chain.key .consensus).pendings = [] ∧
            v.now.wallet = w.now.wallet ∧ Watching s v :=
          fun v d hd hv => ⟨((hd _).of_nil hv.1).1, hlasting v d hd hv.2⟩
        refine Triple.bind (R := fun activeKey v =>
          (v.now.chain.key .consensus).active = some activeKey ∧
          v.now.wallet = w.now.wallet ∧ Watching s v) ?_ fun activeKey => ?_
        · refine Triple.bind (Triple.mono (query_lasting hio hlasting _) (fun _ => id)
            (fun _ _ => id) fun v hv => hv.2.2) fun chain => ?_
          split
          · rename_i pkh hactive
            exact Triple.pure fun v hv => ⟨hv.1 ▸ hactive, hv.2.2⟩
          · exact Triple.throw fun v hv => hv.2.2.2
        · split
          · rename_i hactive
            refine Triple.pure fun v hv => ⟨hv.2.2, hbackup v hv.2.1, fun hsome => ?_⟩
            obtain ⟨key, hkey⟩ := Option.isSome_iff_exists.1 hsome
            refine hv.2.2.1.2 (.inr ⟨key, hkey, hv.1.trans ?_⟩)
            rw [hactive, ← hv.2.1, hkey]
            rfl
          · exact Triple.pure fun v hv => ⟨hv.2.2, hbackup v hv.2.1⟩
      · rename_i haliases
        refine Triple.pure fun v hv => ⟨hv.2.2, hbackup v hv.2.1, hv.1 ▸ hnil, ?_⟩
        rw [hv.2.1]
        exact eq_false_of_ne_true haliases

/-! ## A fresh rotation -/

/-- The run starts anew: no alias is to be promoted, and where keys are pending it replaces them. -/
def Anew (s : Rotation) (io : RunIo) (w : World) : Prop :=
  Known s w ∧ NoBackup w.now ∧ w.now.accepted = s.accepted ∧
  (w.now.chain.key .consensus).pendings ⊆ (s.chain.key .consensus).pendings ∧
  ((w.now.chain.key .consensus).pendings = [] ∨ io.opts.replace = true) ∧
  ∀ role, w.now.wallet.hash (.pending role) = none

/-- A run that starts anew knows where it starts. -/
theorem Anew.known (w : World) (h : Anew s io w) : Known s w := h.1

/-- A run that starts anew still does after a look at the chain. -/
theorem Anew.lasting : Lasting (Anew s io) :=
  fun _ _ hd h => ⟨h.1.elapse hd, h.2.1, h.2.2.1, fun _ hp => h.2.2.2.1 ((hd _).subset hp),
    h.2.2.2.2.1.imp_left fun hnil => ((hd _).of_nil hnil).1, h.2.2.2.2.2⟩

/-- A state the run knows, with or without keys that it will submit in any case. -/
def Prepared (s : Rotation) (io : RunIo) (keys : KeyRole → String) (w : World) : Prop :=
  NoBackup w.now ∧ (Known s w ∨ Rushed s io keys w) ∧
  (io.opts.dryRun = false → ∀ role, w.now.wallet.hash (.pending role) = some (keys role))

/-- A run that is prepared still is after a look at the chain. -/
theorem Prepared.lasting : Lasting (Prepared s io keys) :=
  fun _ _ hd h => ⟨h.1, h.2.1.imp (fun hknown => hknown.elapse hd) fun hrushed =>
    ⟨hrushed.1.elapse hd, hrushed.2.1, hrushed.2.2.1,
      fun p hp => hrushed.2.2.2 p ((hd _).subset hp)⟩, h.2.2⟩

/-- A run that is prepared, and not a dry one, may submit. -/
theorem Prepared.submittable {w : World} (hdry : io.opts.dryRun = false)
    (h : Prepared s io keys w) : Submittable s io w :=
  ⟨h.1, h.2.1.imp_right fun hrushed => ⟨keys, hrushed⟩, fun _ _ => by rw [h.2.2 hdry]; rfl⟩

/-- A run of `--dry-run` has nothing of its own in the wallet. -/
theorem Prepared.known_of_dry (hdry : io.opts.dryRun = true) (w : World)
    (h : Prepared s io keys w) : Known s w := by
  rcases h.2.1 with hknown | ⟨-, ⟨-, hdry', -⟩, -⟩
  · exact hknown
  · exact nomatch hdry.symm.trans hdry'

/-- **The import** of a fresh rotation. -/
theorem import_prepared (hpair : KeepsPair s io) (hkeys : discoverKeyHashes io = .ok keys)
    (hdry : io.opts.dryRun = false) :
    Triple (fun w => (w.now.chain.key .consensus).active ≠ some (keys .consensus) ∧ Anew s io w)
      (importNewKeys io keys KeyRole.all) (fun _ => Prepared s io keys) (Known s) := by
  rintro w ⟨hactive, hknown, hbackup, haccepted, hsubset, hreplace, hnone⟩
  have hall : ∀ role, role ∉ KeyRole.all → w.now.wallet.hash (.pending role) =
      some (keys role) := fun role hrole => absurd (by cases role <;> decide) hrole
  by_cases hnil : (w.now.chain.key .consensus).pendings = []
  · -- Nothing is pending, and the imported key is not active.
    have himport : Triple _ (importNewKeys io keys KeyRole.all) _ (Known s) :=
      importNewKeys_triple (fun v role => Unclaimed.imported v role) (.inr Unclaimed.known) _
    refine himport.post (fun _ v hv => ⟨hv.1.2.1, .inl (hv.1.known), fun _ => hv.2⟩) w
      ⟨⟨hknown.1, hbackup, hnil, hactive, fun key hkey => ?_⟩, hall⟩
    rw [hnone .consensus] at hkey
    cases hkey
  · have hreplace : io.opts.replace = true := hreplace.resolve_left hnil
    have hpendings : (s.chain.key .consensus).pendings ≠ [] := fun h =>
      hnil (List.eq_nil_of_subset_nil (h ▸ hsubset))
    rcases hpair.imports hpendings (.inl hreplace) keys hkeys with hboth | ⟨hother, hown⟩
    · -- The imported keys are those that are pending.
      have himport : Triple _ (importNewKeys io keys KeyRole.all) _ (Known s) :=
        importNewKeys_triple (fun v role => Reimported.imported v role)
          (.inr fun v hv => hv.swappable.known) _
      refine himport.post (fun _ v hv => ⟨hv.1.2.1, .inl hv.1.swappable.known, fun _ => hv.2⟩) w
        ⟨⟨hknown.1, hbackup, ?_, fun role key hkey => ?_⟩, hall⟩
      · unfold BothAccepted at hboth ⊢
        rw [haccepted]
        exact hboth
      · rw [hnone role] at hkey
        cases hkey
    · rcases hown hreplace with hdry' | hkept | hcompletes
      · exact nomatch hdry.symm.trans hdry'
      · -- The first import does nothing, and the run ends there.
        have hfail : Triple (Known s) (importNewKeys io keys KeyRole.all)
            (fun _ => Prepared s io keys) (Known s) := by
          refine Triple.bind (R := fun r v => (∃ text, r = .error text) ∧ Known s v)
            (perform_triple (fun hdone => ?_) (fun text _ v hv => ⟨⟨text, rfl⟩, hv⟩)
              (fun hkilled => ?_) fun _ _ => id) fun r => Triple.of_pre ?_
          · rw [hdone] at hkept
            cases hkept
          · rw [hkilled] at hkept
            cases hkept
          · rintro ⟨text, rfl⟩
            exact Triple.bind (R := fun _ _ => False) (Triple.throw fun _ => id) fun _ _ =>
              False.elim
        exact hfail w hknown
      · -- The run gets both keys accepted.
        have himport : Triple _ (importNewKeys io keys KeyRole.all) _ (Known s) :=
          importNewKeys_triple (I := Overriding s keys) (fun v role => Overriding.imported v role)
            (.inl hcompletes.1) _
        exact himport.post (fun _ v hv => ⟨hv.1.2.1, .inr ⟨hv.1.1, ⟨hreplace, hdry, hcompletes⟩,
          hv.2, hv.1.2.2⟩, fun _ => hv.2⟩) w
          ⟨⟨hknown.1, hbackup, fun p hp => hother p (hsubset hp)⟩, hall⟩

/-- The pending keys of the chain are looked at; where they are the new ones the run goes on from
there. -/
theorem checkExistingPendingKeys_known (hs : OnRecord s) (hio : Truthful io) :
    Triple (Prepared s io keys) (checkExistingPendingKeys io (keys .consensus))
      (fun goesOn w => (goesOn = true ∧ Known s w) ∨ (goesOn = false ∧ Prepared s io keys w))
      (Known s) := by
  have hquery : Triple (Prepared s io keys) (query io .existing)
      (fun chain w => w.now.chain = chain ∧ Prepared s io keys w) (Known s) := by
    refine Triple.bind_get fun w => ?_
    split
    · rename_i hnone
      refine Triple.throw fun v hv => ?_
      rcases hv.2.2.1 with hknown | ⟨-, ⟨-, -, -, hanswered, -⟩, -⟩
      · exact hknown
      · have := hanswered w.now.chain
        rw [hnone] at this
        cases this
    · rename_i chain hchain
      refine Triple.bind (R := fun _ v => v.now.chain = chain ∧ Prepared s io keys v)
        (Triple.modify ?_) fun _ => Triple.pure fun _ => id
      rintro v ⟨rfl, hv⟩
      exact ⟨rfl, Prepared.lasting v chain (hio _ _ _ hchain) hv⟩
  refine Triple.bind hquery fun chain => ?_
  dsimp only
  split
  · split
    · exact Triple.pure fun _ hw => .inr ⟨rfl, hw.2⟩
    · rename_i pendingHash hpending
      obtain ⟨pending, hhead, hpkh⟩ := Option.map_eq_some_iff.1 hpending
      have hmem : pending ∈ (chain.key .consensus).pendings := List.mem_of_head? hhead
      split
      · rename_i hkey
        refine Triple.pre (P := Swappable s) ?_ ?_
        · have hstep : ∀ p, Triple (Swappable s) (step io p) (fun _ => Swappable s) (Known s) :=
            fun p => Triple.mono (step_keeps p) (fun _ => id) (fun _ _ => id) Swappable.known
          refine Triple.bind (hstep _) fun _ => Triple.bind (hstep _) fun _ => ?_
          split
          · exact Triple.throw Swappable.known
          · exact Triple.bind (resumeFromPending_ends (Swappable.lasting.polls hio)
              Swappable.known (executeSwapSequence_known hs)) fun _ =>
                Triple.pure fun _ hw => .inl ⟨rfl, hw⟩
        · rintro w ⟨hchain, -, hknown | ⟨-, -, -, hother⟩, -⟩
          · exact ⟨hknown.1, hknown.2 (.inl (hchain ▸ List.ne_nil_of_mem hmem))⟩
          · exact absurd (hpkh.trans hkey) (hother pending (hchain ▸ hmem))
      · split
        · exact Triple.pure fun _ hw => .inr ⟨rfl, hw.2⟩
        · rename_i hreplace
          refine Triple.throw fun w hw => ?_
          rcases hw.2.2.1 with hknown | ⟨-, ⟨hreplace', -⟩, -⟩
          · exact hknown
          · exact absurd hreplace' hreplace
  · exact Triple.pure fun _ hw => .inr ⟨rfl, hw.2⟩

/-- The submission and the monitoring leave what the run knows. -/
theorem submitAndMonitor_known (hs : OnRecord s) (hio : Truthful io) (hpair : KeepsPair s io) :
    Triple (Prepared s io keys) (submitAndMonitor io) (fun _ => Known s) (Known s) := by
  unfold submitAndMonitor unlessDry
  split
  · rename_i hdry
    exact Triple.pre ((Keeps.pure ()).before (fun _ => id) fun _ =>
      (step_keeps _).before (fun _ => id) fun _ => (step_keeps _).before (fun _ => id) fun _ =>
      Keeps.pure ()) (Prepared.known_of_dry hdry)
  · rename_i hdry
    refine Triple.pre (P := Submittable s io) ?_ fun w =>
      Prepared.submittable (eq_false_of_ne_true hdry)
    refine Triple.bind (R := fun _ => Swappable s) (Triple.bind
      (submitKeyRotationTransactions_triple hio hpair.submits) fun _ => Triple.pure fun _ => id)
      fun _ => ?_
    exact (step_keeps _).before Swappable.known fun _ => (step_keeps _).before Swappable.known
      fun _ => runActivationMonitoring_ends (Swappable.lasting.polls hio) Swappable.known
        (executeSwapSequence_known hs)

/-- So does a rotation from the start: import, submission and monitoring. -/
theorem executeFreshRotation_known (hs : OnRecord s) (hio : Truthful io)
    (hpair : KeepsPair s io) :
    Triple (Anew s io) (executeFreshRotation io) (fun _ => Known s) (Known s) := by
  have hcard : Keeps (Anew s io) (checkSdCardReadiness io) := by
    unfold checkSdCardReadiness
    split
    · exact Keeps.pure _
    · exact ask_keeps _
  refine hcard.before Anew.known fun connected => (step_keeps _).before Anew.known fun _ =>
    (step_keeps _).before Anew.known fun _ => (stepUnless_keeps _ _).before Anew.known fun _ =>
    (step_keeps _).before Anew.known fun _ => ?_
  split
  · exact (Keeps.throw _).ends Anew.known
  · rename_i keys hkeys
    refine Triple.bind (R := fun current w =>
      (w.now.chain.key .consensus).active = some current ∧ Anew s io w) ?_ fun current => ?_
    · refine Triple.bind (Triple.mono (query_lasting hio Anew.lasting _) (fun _ => id)
        (fun _ _ => id) Anew.known) fun chain => ?_
      split
      · rename_i pkh hactive
        exact Triple.pure fun w hw => ⟨hw.1 ▸ hactive, hw.2⟩
      · exact Triple.throw fun w hw => hw.2.1
    · split
      · exact Triple.pure fun w hw => hw.2.1
      · rename_i hcurrent
        refine Triple.bind (R := fun _ => Prepared s io keys) ?_ fun _ => ?_
        · unfold unlessDry
          split
          · rename_i hdry
            exact Triple.pure fun w hw => ⟨hw.2.2.1, .inl hw.2.1, fun hdry' =>
              nomatch hdry.symm.trans hdry'⟩
          · rename_i hdry
            refine Triple.pre (import_prepared hpair hkeys (eq_false_of_ne_true hdry)) fun w hw =>
              ⟨fun hactive => hcurrent ?_, hw.2⟩
            exact (Option.some.inj (hw.1.symm.trans hactive)).symm
        · refine Triple.bind (checkExistingPendingKeys_known hs hio) fun goesOn => ?_
          cases goesOn with
          | true =>
            refine Triple.pure fun w hw => ?_
            rcases hw with ⟨-, hw⟩ | ⟨h, -⟩
            · exact hw
            · cases h
          | false =>
            refine Triple.pre (P := Prepared s io keys) (submitAndMonitor_known hs hio hpair)
              fun w hw => ?_
            rcases hw with ⟨h, -⟩ | ⟨-, hw⟩
            · cases h
            · exact hw

/-! ## Resuming -/

/-- The code finds pending aliases where one of the roles has one. -/
theorem noPending_iff (w : Wallet) : pendingAliasesExist w = false ↔
    ∀ role, w.hash (.pending role) = none := by
  simp only [pendingAliasesExist, Bool.or_eq_false_iff, Option.isSome_eq_false_iff,
    Option.isNone_iff_eq_none]
  refine ⟨fun h role => ?_, fun h => ⟨h .consensus, h .companion⟩⟩
  cases role with
  | consensus => exact h.1
  | companion => exact h.2

/-- A pending alias is forgotten, and the others stay. -/
theorem forgetPending_triple {I E : World → Prop} (role : KeyRole)
    (hforget : ∀ w, I w → I { w with now := { w.now with
      wallet := w.now.wallet.forget (.pending role) } }) (hE : ∀ w, I w → E w) :
    Triple I (forgetKeyAlias io (.pending role)) (fun r w => I w ∧
      (r = .ok () → w.now.wallet.hash (.pending role) = none)) E := by
  refine perform_triple (fun _ w hw => ⟨hforget w hw, fun _ => ?_⟩) (fun _ _ w hw => ⟨hw, nofun⟩)
    (fun _ w hw => hE _ (hforget w hw)) fun _ w hw => hE w hw
  exact (Wallet.hash_forget ..).trans (if_pos rfl)

/-- A pending alias that is forgotten leaves what the run knows. -/
theorem Known.forgetPending (role : KeyRole) (w : World) (h : Known s w) :
    Known s { w with now := { w.now with wallet := w.now.wallet.forget (.pending role) } } := by
  refine h.fewer (h.1.pending fun role' => ?_) fun role' key hkey => ?_
  · exact (Wallet.hash_forget ..).trans (if_neg nofun)
  · rw [Wallet.hash_forget] at hkey
    split at hkey
    · cases hkey
    · exact hkey

/-- A run that goes on with imported keys submits them as they are. -/
theorem resumeFromKeysImported_known (hs : OnRecord s) (hio : Truthful io)
    (hpair : KeepsPair s io) (hreplace : io.opts.replace = false) :
    Triple (fun w => Watching s w ∧ NoBackup w.now) (resumeFromKeysImported io)
      (fun _ => Known s) (Known s) := by
  have hknown : ∀ w, Watching s w ∧ NoBackup w.now → Known s w := fun w hw => hw.1.1
  have hretry : Keeps (fun w => Watching s w ∧ NoBackup w.now) (chooseRetry io) := by
    unfold chooseRetry
    split
    · exact Keeps.pure _
    · split
      · exact Keeps.pure _
      · exact Keeps.pure _
      · exact Keeps.pure _
      · exact Keeps.throw _
  refine hretry.before hknown fun retry => ?_
  split
  · refine (step_keeps _).before hknown fun _ => (step_keeps _).before hknown fun _ => ?_
    have hpolls : Polls io (Swappable s) := Swappable.lasting.polls hio
    refine Triple.bind (Triple.pre (submitKeyRotationTransactions_triple hio hpair.submits) ?_)
      fun _ => (getActiveConsensusKey_keeps hpolls _).before Swappable.known fun _ =>
        (step_keeps _).before Swappable.known fun _ => (step_keeps _).before Swappable.known
        fun _ => resumeFromPending_ends hpolls Swappable.known (executeSwapSequence_known hs)
    rintro w ⟨⟨hknown, -, hwallet, -⟩, hbackup⟩
    refine ⟨hbackup, .inl hknown, fun hlands => ?_⟩
    rw [hwallet]
    exact hpair.aliases hlands hreplace
  · have hforget : ∀ role, Keeps (Known s) (forgetKeyAlias io (.pending role)) := fun role =>
      (forgetPending_triple role (Known.forgetPending role) fun _ => id).post fun _ _ hw => hw.1
    exact Triple.pre ((hforget .consensus).bind fun _ => (orFail_keeps _).bind fun _ =>
      (hforget .companion).bind fun _ => orFail_keeps _) hknown

/-- A run that finds the keys pending, and no aliases, imports the keys set last. -/
theorem resumeFromPendingOnChainOnly_known (hs : OnRecord s) (hio : Truthful io)
    (hpair : KeepsPair s io) :
    Triple (fun w => pendingAliasesExist s.wallet = false ∧ Watching s w ∧ NoBackup w.now ∧
        Paired w.now) (resumeFromPendingOnChainOnly io) (fun _ => Known s) (Known s) := by
  refine Triple.of_pre fun haliases => ?_
  have hlasting : Lasting fun w => Watching s w ∧ NoBackup w.now ∧ Paired w.now :=
    fun w d hd hw => ⟨Watching.lasting w d hd hw.1, hw.2⟩
  refine Triple.bind (Triple.mono (query_lasting hio hlasting _) (fun _ => id) (fun _ _ => id)
    fun w hw => hw.1.1) fun chain => ?_
  have hknown : ∀ w : World, w.now.chain = chain ∧ Watching s w ∧ NoBackup w.now ∧
      Paired w.now → Known s w := fun w hw => hw.2.1.1
  have hdisplay : Triple (fun w : World => w.now.chain = chain ∧ Watching s w ∧
      NoBackup w.now ∧ Paired w.now) (step io .display) (fun _ => Known s) (Known s) :=
    (step_keeps _).ends hknown
  refine (confirm_keeps _).before hknown fun connected => ?_
  split
  · split
    · rename_i keys hkeys
      split
      · rename_i hpending
        obtain ⟨pending, hhead, hpkh⟩ := Option.map_eq_some_iff.1 hpending
        have hmem : pending ∈ (chain.key .consensus).pendings := List.mem_of_head? hhead
        have himport : Triple _ (importNewKeys io keys KeyRole.all) _ (Known s) :=
          importNewKeys_triple (fun v role => Reimported.imported v role)
            (.inr fun v hv => hv.swappable.known) _
        refine Triple.bind (R := fun _ => Swappable s) (Triple.mono himport ?_
          (fun _ v hv => hv.1.swappable) fun _ => id) fun _ => resumeFromPending_ends
            (Swappable.lasting.polls hio) Swappable.known (executeSwapSequence_known hs)
        rintro w ⟨rfl, ⟨hknown, haccepted, hwallet, hsubset⟩, hbackup, -⟩
        -- The key found pending was pending at the start: it is one of those set last.
        have hboth : BothAccepted s keys := by
          rcases hpair.imports (List.ne_nil_of_mem (hsubset hmem)) (.inr haliases) keys hkeys with
            hboth | ⟨hother, -⟩
          · exact hboth
          · exact absurd hpkh (hother pending (hsubset hmem))
        unfold BothAccepted at hboth
        rw [← haccepted] at hboth
        have hnone : ∀ role, w.now.wallet.hash (.pending role) = none := by
          intro role
          rw [hwallet]
          exact (noPending_iff _).1 haliases role
        refine ⟨⟨hknown.1, hbackup, hboth, fun role key hkey => ?_⟩, fun role hrole =>
          absurd (by cases role <;> decide) hrole⟩
        rw [hnone role] at hkey
        cases hkey
      · exact hdisplay
    · exact hdisplay
  · exact hdisplay

/-- What the run goes on from. -/
def Ready (s : Rotation) (io : RunIo) (state : RotationState) (w : World) : Prop :=
  if state = .clean then Anew s io w
  else io.opts.replace = false ∧ Watching s w ∧ Detected w state

/-- `--replace` makes the run start anew, or leaves what it knows. -/
theorem handleReplaceFlag_ready {state : RotationState} (hreplace : io.opts.replace = true) :
    Triple (fun w => Watching s w ∧ Detected w state) (handleReplaceFlag io state)
      (fun state' => Ready s io state') (Known s) := by
  have hclear : Triple (fun w => Watching s w ∧ NoBackup w.now) (handleReplaceFlag io (.pending 0))
      (fun state' => Ready s io state') (Known s) := by
    -- Forgetting the aliases leaves the chain and the record as the run found them.
    let I : World → Prop := fun w => Known s w ∧ NoBackup w.now ∧
      w.now.accepted = s.accepted ∧
      (w.now.chain.key .consensus).pendings ⊆ (s.chain.key .consensus).pendings
    have hI : ∀ role w, I w → I { w with now := { w.now with
        wallet := w.now.wallet.forget (.pending role) } } := by
      rintro role w ⟨hknown, hbackup, hrest⟩
      refine ⟨hknown.forgetPending role, fun role' => ?_, hrest⟩
      exact (Wallet.hash_forget ..).trans ((if_neg nofun).trans (hbackup role'))
    refine Triple.pre (P := I) ?_ fun w hw => ⟨hw.1.1, hw.2, hw.1.2.1, hw.1.2.2.2⟩
    refine Triple.bind (forgetPending_triple .consensus (hI .consensus) fun _ hw => hw.1)
      fun r => ?_
    refine Triple.bind (R := fun _ w => I w ∧ w.now.wallet.hash (.pending .consensus) = none) ?_
      fun _ => ?_
    · cases r with
      | ok u => exact Triple.pure fun w hw => ⟨hw.1, hw.2 rfl⟩
      | error text => exact Triple.throw fun w hw => hw.1.1
    · refine Triple.bind (forgetPending_triple .companion (fun w hw => ⟨hI .companion w hw.1, ?_⟩)
        fun _ hw => hw.1.1) fun r => ?_
      · rw [Wallet.hash_forget]
        split
        · rfl
        · exact hw.2
      refine Triple.bind (R := fun _ w => I w ∧ ∀ role, w.now.wallet.hash (.pending role) = none)
        ?_ fun _ => ?_
      · cases r with
        | ok u =>
          refine Triple.pure fun w hw => ⟨hw.1.1, fun role => ?_⟩
          cases role with
          | consensus => exact hw.1.2
          | companion => exact hw.2 rfl
        | error text => exact Triple.throw fun w hw => hw.1.1.1
      · refine Triple.pure fun w hw => ?_
        rw [Ready, if_pos rfl]
        obtain ⟨⟨hknown, hbackup, haccepted, hsubset⟩, hnone⟩ := hw
        exact ⟨hknown, hbackup, haccepted, hsubset, .inr hreplace, hnone⟩
  cases state with
  | partialSwap => exact Triple.throw fun w hw => hw.1.1
  | keysActivatedNeedSwap => exact Triple.throw fun w hw => hw.1.1
  | clean =>
    refine Triple.pure fun w hw => ?_
    rw [Ready, if_pos rfl]
    obtain ⟨⟨hknown, haccepted, -, hsubset⟩, hbackup, hnil, haliases⟩ := hw
    exact ⟨hknown, hbackup, haccepted, hsubset, .inl hnil, (noPending_iff _).1 haliases⟩
  | keysImported consensusHash companionHash => exact hclear
  | pending cycle => exact Triple.pre hclear fun w hw => ⟨hw.1, hw.2.1⟩
  | pendingOnChainOnly cycle => exact Triple.pre hclear fun w hw => ⟨hw.1, hw.2.1⟩

/-- Each state that can be detected is handled so that the run knows what it leaves. -/
theorem handleState_known (hs : OnRecord s) (hio : Truthful io) (hpair : KeepsPair s io)
    (state : RotationState) :
    Triple (Ready s io state) (handleState io state) (fun _ => Known s) (Known s) := by
  have hpolls : Polls io (Swappable s) := Swappable.lasting.polls hio
  have hknown : ∀ w, Watching s w ∧ Detected w state → Known s w := fun w hw => hw.1.1
  cases state with
  | clean => exact executeFreshRotation_known hs hio hpair
  | partialSwap =>
    refine Triple.of_pre fun _ => (step_keeps _).before hknown fun _ =>
      Triple.pre resumeFromPartialSwap_known fun w hw => ?_
    exact ⟨hw.1.1, hw.1.1.1.record.backed hw.2⟩
  | keysImported consensusHash companionHash =>
    exact Triple.of_pre fun hreplace => (step_keeps _).before hknown fun _ =>
      (step_keeps _).before hknown fun _ => resumeFromKeysImported_known hs hio hpair hreplace
  | pending cycle =>
    refine Triple.of_pre fun _ => Triple.pre (resumeFromPending_ends hpolls Swappable.known
      (executeSwapSequence_known hs)) fun w hw => ?_
    exact ⟨hw.1.1.1, hw.2.2⟩
  | pendingOnChainOnly cycle =>
    refine Triple.of_pre fun _ => Triple.pre (resumeFromPendingOnChainOnly_known hs hio hpair) ?_
    rintro w ⟨hwatching, hbackup, hpaired, haliases⟩
    exact ⟨hwatching.2.2.1 ▸ haliases, hwatching, hbackup, hpaired⟩
  | keysActivatedNeedSwap =>
    refine Triple.of_pre fun _ => (step_keeps _).before hknown fun _ => ?_
    -- Without an alias to promote the run ends before the swap.
    intro w hw
    cases hkey : w.now.wallet.hash (.pending .consensus) with
    | some key =>
      exact resumeFromKeysActivatedNeedSwap_known hs w
        ⟨hw.1.1.1, hw.2.2 (by rw [hkey]; rfl)⟩
    | none =>
      have hfail : Triple (fun w => none = w.now.wallet.hash (.pending .consensus) ∧ Known s w)
          (resumeFromKeysActivatedNeedSwap io) (fun _ => Known s) (Known s) := by
        refine Triple.bind (R := fun _ _ => False) ((getKeyHash_triple fun w hw => hw.2).post ?_)
          fun _ _ => False.elim
        rintro hash v ⟨hsome, hnone, -⟩
        exact nomatch hnone.trans hsome
      exact hfail w ⟨hkey.symm, hw.1.1⟩

/-! ## Runs -/

/-- A run of `rotate-keys`. -/
theorem rotateKeys_known (hs : OnRecord s) (hio : Truthful io) (hpair : KeepsPair s io) :
    Triple (Watching s) (rotateKeys io) (fun _ => Known s) (Known s) := by
  unfold rotateKeys
  split
  · exact ((Watching.lasting.polls hio _).bind fun _ => Keeps.pure ()).ends Watching.known
  · refine Triple.bind (R := fun _ => Watching s) (Triple.mono verifyPreconditions_triple
      (fun _ => id) (fun _ _ hw => hw.2.2) Watching.known) fun _ => ?_
    refine Triple.bind (Triple.mono (detectRotationState_known hio) (fun _ => id)
      (fun _ _ => id) Watching.known) fun state => ?_
    split
    · rename_i hreplace
      exact Triple.bind (handleReplaceFlag_ready hreplace) (handleState_known hs hio hpair)
    · rename_i hreplace
      refine Triple.bind (R := fun state' => Ready s io state') (Triple.pure fun w hw => ?_)
        (handleState_known hs hio hpair)
      unfold Ready
      split
      · rename_i hclean
        obtain ⟨⟨hknown, haccepted, -, hsubset⟩, hdetected⟩ := hw
        rw [hclean] at hdetected
        obtain ⟨hbackup, hnil, haliases⟩ := hdetected
        exact ⟨hknown, hbackup, haccepted, hsubset, .inl hnil, (noPending_iff _).1 haliases⟩
      · exact ⟨eq_false_of_ne_true hreplace, hw⟩

/-- What one run preserves, and that it is in order. -/
theorem runOf_known (hs : Accounted s) (hio : Truthful io) (hpair : KeepsPair s io) :
    Known s (runOf io s) := by
  refine Triple.final (Triple.mono (rotateKeys_known hs.1 hio hpair) (fun _ => id)
    (fun _ _ => id) fun _ => id) ?_
  exact ⟨⟨⟨hs.1, ⟨[], rfl⟩, fun e he => absurd he List.not_mem_nil⟩, hs.2⟩, rfl, rfl,
    fun _ => id⟩

/-- No rotation was ever begun. -/
structure Unrotated (s : Rotation) : Prop where
  accepted : s.accepted = []
  pendings : (s.chain.key .consensus).pendings = []
  aliases : ∀ role, s.wallet.hash (.pending role) = none ∧ s.wallet.hash (.old role) = none

/-- A baker that never rotated accounts for nothing. -/
theorem Unrotated.accounted (h : Unrotated s) : Accounted s := by
  refine ⟨⟨fun role key hkey => ?_, fun _ => h.pendings, fun hold => ?_⟩, fun hunderway => ?_⟩
  · rw [h.accepted] at hkey
    cases hkey
  · rw [(noBackup_iff s).1 fun role => (h.aliases role).2] at hold
    cases hold
  · rcases hunderway with hpendings | ⟨key, hkey, -⟩
    · exact absurd h.pendings hpendings
    · rw [(h.aliases .consensus).1] at hkey
      cases hkey

/-- **A swap finds both keys registered.** In any number of runs against a chain that reports what
is so, each answered anything and cut off anywhere, the swap is started, and completion reported,
only of two accepted keys. This is so where no run parts the two: the consensus key is not accepted
without the companion key, and no other keys are imported over pending ones and left there. -/
theorem rotation_registers {ios : List RunIo} (hs : Unrotated s) (htruth : ∀ io ∈ ios, Truthful io)
    (hios : Automaton.Along Rotation.step KeepsPair s ios) :
    Automaton.Along Rotation.step (fun s io => ∀ e ∈ (runOf io s).log, InOrder s e) s ios := by
  refine Automaton.Along.of_invariant (I := Accounted) (G := fun s io => Truthful io ∧
    KeepsPair s io) ?_ ?_ hs.accounted ((Automaton.along_of_forall s htruth).and hios)
  · rintro s io t hs ⟨hio, hpair⟩ hstep
    cases hstep
    have hknown := runOf_known hs hio hpair
    exact ⟨hknown.1.record, hknown.2⟩
  · rintro s io hs ⟨hio, hpair⟩
    exact (runOf_known hs hio hpair).1.log

/-- A baker before its first rotation. -/
def unrotated : Rotation where
  wallet := {
    publicKeyHashs := some ⟨[("russignol-consensus", "old"), ("russignol-companion", "oldC")],
      by decide⟩
    publicKeys := none
    secretKeys := none }
  chain := ⟨perRole ⟨some "old", []⟩ ⟨some "oldC", []⟩⟩
  accepted := []
  promotion := none

/-- Where what a run is answered to its key transactions varies. -/
def submittingRun (setKey : KeyRole → Effect) : RunIo := { smoothRun with setKey }

/-- These runs see the chain as it is. -/
theorem submittingRun_truthful (setKey : KeyRole → Effect) :
    Truthful (submittingRun setKey) := by
  intro p d d' h
  have hsame : ∀ d', some d = some d' → d.Elapses d' := by
    rintro _ ⟨⟩ role
    exact ⟨[], rfl, rfl⟩
  cases p with
  | wait left =>
    cases h
    exact fun role => ⟨(d.key role).pendings, (List.append_nil _).symm, rfl⟩
  | _ => exact hsame d' h

/-- The baker of the examples never rotated. -/
theorem unrotated_unrotated : Unrotated unrotated where
  accepted := rfl
  pendings := rfl
  aliases := fun role => by cases role <;> decide +kernel

/-- A run that is killed before its first transaction, and one that goes through. -/
theorem rotation_registers_killed : Automaton.Along Rotation.step
    (fun s io => ∀ e ∈ (runOf io s).log, InOrder s e) unrotated
    [submittingRun fun _ => .killed false, submittingRun fun _ => .done] := by
  refine rotation_registers unrotated_unrotated (fun io hio => ?_) ⟨?_, fun t ht => ?_⟩
  · rcases List.mem_cons.1 hio with rfl | hio
    · exact submittingRun_truthful _
    · rw [List.mem_singleton.1 hio]
      exact submittingRun_truthful _
  · exact ⟨nofun, nofun, fun h => absurd rfl h⟩
  · rw [← Option.some.inj ht]
    exact ⟨⟨fun _ => ⟨rfl, rfl⟩, fun _ _ _ => by decide +kernel, fun h =>
      absurd (by decide +kernel) h⟩, fun _ _ => trivial⟩

/-- Where the companion key is refused, the next run swaps to both. -/
theorem rotation_swaps_unregistered : ¬ ∀ (s : Rotation) (ios : List RunIo), Unrotated s →
    (∀ io ∈ ios, Truthful io) →
      Automaton.Along Rotation.step (fun s io => ∀ e ∈ (runOf io s).log, InOrder s e) s ios := by
  intro h
  let refused : RunIo := submittingRun (perRole .done (.failed "Counter"))
  have hrun := h unrotated [refused, submittingRun fun _ => .done] unrotated_unrotated
    fun io hio => by
      rcases List.mem_cons.1 hio with rfl | hio
      · exact submittingRun_truthful _
      · rw [List.mem_singleton.1 hio]
        exact submittingRun_truthful _
  have hlog := (hrun.2 _ rfl).1
  have hswap : ((runOf (submittingRun fun _ => .done)
      (runOf refused unrotated).now).log.getLast?.map fun e => (e.1, e.2.accepted)) =
      some (.swapping, [(.consensus, "new")]) := by decide +kernel
  obtain ⟨e, he, hevent⟩ := Option.map_eq_some_iff.1 hswap
  obtain ⟨hswapping, haccepted⟩ := Prod.mk.inj hevent
  obtain ⟨keys, ⟨before, hboth⟩, -⟩ := (hlog e (List.mem_of_getLast? he)).1 hswapping
  rw [haccepted] at hboth
  exact nomatch (List.cons.inj hboth).1

end Russignol.Host
