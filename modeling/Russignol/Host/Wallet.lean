import Russignol.Base.Moves
import Russignol.Signer.Server

/-!
# The baker's wallet

The aliases of `octez-client`, in the three files that `rename_alias_locally` edits
(`host-utility/src/keys.rs`), and the six names a rotation uses (`key_role.rs`). A file holds one
entry a name. Only `public_key_hashs` has to hold an alias for a rename to succeed.
-/

namespace Russignol.Host

/-! ## The names -/

/-- An alias of a role: `baker_alias`, `baker_pending_alias`, `baker_old_alias`. -/
inductive BakerAlias
  | live (role : KeyRole)
  | pending (role : KeyRole)
  | old (role : KeyRole)
  deriving DecidableEq, Repr

namespace BakerAlias

/-- The name in the wallet. -/
def name : BakerAlias → String
  | live .consensus => "russignol-consensus"
  | live .companion => "russignol-companion"
  | pending .consensus => "russignol-consensus-pending"
  | pending .companion => "russignol-companion-pending"
  | old .consensus => "russignol-consensus-old"
  | old .companion => "russignol-companion-old"

/-- Different aliases have different names. -/
theorem name_injective {a b : BakerAlias} (h : a.name = b.name) : a = b := by
  rcases a with (_ | _) | (_ | _) | (_ | _) <;> rcases b with (_ | _) | (_ | _) | (_ | _) <;>
    first
      | rfl
      | exact absurd h (by decide)

end BakerAlias

/-! ## A file -/

/-- A file of the wallet: the aliases and what each stands for. -/
structure WalletFile where
  entries : List (String × String)
  nodup : (entries.map Prod.fst).Nodup

/-- The first entry of a name, renamed; `none` where there is none. -/
def renameFirst (oldAlias newAlias : String) :
    List (String × String) → Option (List (String × String))
  | [] => none
  | e :: entries =>
    if e.1 = oldAlias then some ((newAlias, e.2) :: entries)
    else (renameFirst oldAlias newAlias entries).map (e :: ·)

/-- The names after a rename to one that is not there. -/
theorem renameFirst_names {oldAlias newAlias : String} :
    ∀ {entries entries' : List (String × String)},
      renameFirst oldAlias newAlias entries = some entries' →
      newAlias ∉ entries.map Prod.fst → (entries.map Prod.fst).Nodup →
      (entries'.map Prod.fst).Nodup ∧
        ∀ name ∈ entries'.map Prod.fst, name = newAlias ∨ name ∈ entries.map Prod.fst
  | [], _, h, _, _ => by cases h
  | e :: entries, entries', h, hnew, hnodup => by
    rw [List.map_cons, List.mem_cons, not_or] at hnew
    rw [List.map_cons, List.nodup_cons] at hnodup
    rw [renameFirst] at h
    split at h
    · cases h
      rw [List.map_cons]
      exact ⟨List.nodup_cons.2 ⟨hnew.2, hnodup.2⟩, fun name hname =>
        (List.mem_cons.1 hname).imp id (List.mem_cons_of_mem _)⟩
    · obtain ⟨rest, hrest, rfl⟩ := Option.map_eq_some_iff.1 h
      obtain ⟨hrestNodup, hnames⟩ := renameFirst_names hrest hnew.2 hnodup.2
      rw [List.map_cons]
      refine ⟨List.nodup_cons.2 ⟨fun he => ?_, hrestNodup⟩, fun name hname => ?_⟩
      · exact (hnames _ he).elim (fun h => hnew.1 h.symm) hnodup.1
      · rcases List.mem_cons.1 hname with rfl | hname
        · exact .inr List.mem_cons_self
        · exact (hnames name hname).imp id (List.mem_cons_of_mem _)

/-- What a name stands for after a rename. -/
theorem renameFirst_lookup {oldAlias newAlias : String} :
    ∀ {entries entries' : List (String × String)},
      renameFirst oldAlias newAlias entries = some entries' →
      newAlias ∉ entries.map Prod.fst → (entries.map Prod.fst).Nodup → ∀ name,
      entries'.lookup name =
        if name = newAlias then entries.lookup oldAlias
        else if name = oldAlias then none
        else entries.lookup name
  | [], _, h, _, _, _ => by cases h
  | (alias', value) :: entries, entries', h, hnew, hnodup, name => by
    rw [List.map_cons, List.mem_cons, not_or] at hnew
    rw [List.map_cons, List.nodup_cons] at hnodup
    rw [renameFirst] at h
    split at h
    · rename_i hold
      have hold : alias' = oldAlias := hold
      cases h
      have hgone : entries.lookup oldAlias = none := by
        rw [List.lookup_eq_none_iff]
        intro e he
        refine bne_iff_ne.2 fun heq => hnodup.1 ?_
        exact List.mem_map.2 ⟨e, he, (hold.trans heq).symm⟩
      by_cases hname : name = newAlias
      · simp only [hname, List.lookup_cons, beq_self_eq_true, if_true, hold]
      · have hbeq : (name == newAlias) = false := beq_false_of_ne hname
        simp only [List.lookup_cons, hbeq, if_neg hname, hold]
        by_cases hname' : name = oldAlias
        · rw [if_pos hname', hname', hgone]
        · rw [if_neg hname', beq_false_of_ne hname']
    · rename_i hold
      have hold : alias' ≠ oldAlias := hold
      obtain ⟨rest, hrest, rfl⟩ := Option.map_eq_some_iff.1 h
      have ih := renameFirst_lookup hrest hnew.2 hnodup.2 name
      simp only [List.lookup_cons, beq_false_of_ne (Ne.symm hold)]
      by_cases hname : name = newAlias
      · have hbeq : (name == alias') = false := beq_false_of_ne fun h => hnew.1 (hname ▸ h)
        rw [hbeq]
        rw [if_pos hname] at ih ⊢
        exact ih
      · rw [if_neg hname] at ih ⊢
        by_cases hname' : name = oldAlias
        · have hbeq : (name == alias') = false :=
            beq_false_of_ne fun h => hold (hname' ▸ h).symm
          rw [if_pos hname'] at ih ⊢
          rw [hbeq]
          exact ih
        · rw [if_neg hname'] at ih ⊢
          cases name == alias' with
          | true => rfl
          | false => exact ih

/-- `renameFirst` finds every entry that is there. -/
theorem renameFirst_isSome {oldAlias newAlias : String} : ∀ {entries : List (String × String)},
    (renameFirst oldAlias newAlias entries).isSome = (entries.lookup oldAlias).isSome
  | [] => rfl
  | (alias', value) :: entries => by
    rw [renameFirst, List.lookup_cons]
    by_cases h : alias' = oldAlias
    · rw [if_pos h, h, beq_self_eq_true]
      rfl
    · rw [if_neg h, beq_false_of_ne (Ne.symm h), Option.isSome_map]
      exact renameFirst_isSome

namespace WalletFile

/-- The file without an alias. -/
def drop (f : WalletFile) (keyAlias : String) : WalletFile where
  entries := f.entries.filter (·.1 ≠ keyAlias)
  nodup := f.nodup.sublist (List.filter_sublist.map _)

/-- The names that are left. -/
theorem not_mem_drop (f : WalletFile) (keyAlias : String) :
    keyAlias ∉ (f.drop keyAlias).entries.map Prod.fst := by
  intro h
  obtain ⟨e, he, rfl⟩ := List.mem_map.1 h
  exact of_decide_eq_true (List.mem_filter.1 he).2 rfl

/-- What is dropped is gone, and nothing else. -/
theorem lookup_drop (f : WalletFile) (keyAlias name : String) :
    (f.drop keyAlias).entries.lookup name =
      if name = keyAlias then none else f.entries.lookup name := by
  have hfilter : ∀ entries : List (String × String),
      (entries.filter (·.1 ≠ keyAlias)).lookup name =
        if name = keyAlias then none else entries.lookup name := by
    intro entries
    induction entries with
    | nil => simp
    | cons e entries ih =>
      by_cases he : e.1 = keyAlias
      · rw [List.filter_cons_of_neg (by simpa using he), ih]
        by_cases hname : name = keyAlias
        · rw [if_pos hname, if_pos hname]
        · rw [if_neg hname, if_neg hname, List.lookup_cons,
            beq_false_of_ne fun h => hname (h.trans he)]
      · rw [List.filter_cons_of_pos (by simpa using he), List.lookup_cons, List.lookup_cons, ih]
        by_cases hname : name = keyAlias
        · rw [if_pos hname, if_pos hname, beq_false_of_ne fun h => he (h.symm.trans hname)]
        · rw [if_neg hname, if_neg hname]
  exact hfilter f.entries

/-- The edit of `rename_alias_locally` in one file: the entries of the new name are dropped, and the
entry of the old one takes it. `none` where there is none, and the file is not written. -/
def rename (f : WalletFile) (oldAlias newAlias : String) : Option WalletFile :=
  match h : renameFirst oldAlias newAlias (f.drop newAlias).entries with
  | some entries => some ⟨entries,
      (renameFirst_names h (f.not_mem_drop newAlias) (f.drop newAlias).nodup).1⟩
  | none => none

/-- What a name stands for after a rename that found its alias. -/
theorem lookup_rename {f f' : WalletFile} {oldAlias newAlias : String}
    (h : f.rename oldAlias newAlias = some f') (hne : oldAlias ≠ newAlias) (name : String) :
    f'.entries.lookup name =
      if name = newAlias then f.entries.lookup oldAlias
      else if name = oldAlias then none
      else f.entries.lookup name := by
  unfold rename at h
  split at h
  · rename_i entries hentries
    cases h
    rw [renameFirst_lookup hentries (f.not_mem_drop newAlias) (f.drop newAlias).nodup,
      lookup_drop, if_neg hne, lookup_drop]
    by_cases hname : name = newAlias
    · rw [if_pos hname, if_pos hname]
    · rw [if_neg hname, if_neg hname, if_neg hname]
  · cases h

/-- A rename succeeds where the old alias is in the file. -/
theorem rename_isSome {f : WalletFile} {oldAlias newAlias : String} (hne : oldAlias ≠ newAlias) :
    (f.rename oldAlias newAlias).isSome = (f.entries.lookup oldAlias).isSome := by
  have hfirst : (f.rename oldAlias newAlias).isSome =
      (renameFirst oldAlias newAlias (f.drop newAlias).entries).isSome := by
    unfold rename
    split
    · rename_i h
      exact (congrArg Option.isSome h).symm
    · rename_i h
      exact (congrArg Option.isSome h).symm
  rw [hfirst, renameFirst_isSome, lookup_drop, if_neg hne]

/-- Set an alias: `import --force`. -/
def set (f : WalletFile) (keyAlias value : String) : WalletFile where
  entries := (keyAlias, value) :: (f.drop keyAlias).entries
  nodup := List.nodup_cons.2 ⟨f.not_mem_drop keyAlias, (f.drop keyAlias).nodup⟩

/-- What is set is there, and nothing else changed. -/
theorem lookup_set (f : WalletFile) (keyAlias value name : String) :
    (f.set keyAlias value).entries.lookup name =
      if name = keyAlias then some value else f.entries.lookup name := by
  rw [set, List.lookup_cons]
  by_cases h : name = keyAlias
  · rw [if_pos h, h, beq_self_eq_true]
  · rw [if_neg h, beq_false_of_ne h, lookup_drop, if_neg h]

end WalletFile

/-! ## The wallet -/

/-- The three files; one that does not exist is passed over. -/
structure Wallet where
  publicKeyHashs : Option WalletFile
  publicKeys : Option WalletFile
  secretKeys : Option WalletFile

namespace Wallet

/-- `get_key_hash`: what `octez-client show address` prints. -/
def hash (w : Wallet) (a : BakerAlias) : Option String :=
  w.publicKeyHashs.bind fun f => f.entries.lookup a.name

/-- An edit of one file that leaves it alone where it finds nothing. -/
def editFile (edit : WalletFile → Option WalletFile) (file : Option WalletFile) :
    Option WalletFile :=
  file.map fun f => (edit f).getD f

/-- The writes of `rename_alias_locally`. -/
def renameAlias (w : Wallet) (oldAlias newAlias : BakerAlias) : Wallet where
  publicKeyHashs := editFile (·.rename oldAlias.name newAlias.name) w.publicKeyHashs
  publicKeys := editFile (·.rename oldAlias.name newAlias.name) w.publicKeys
  secretKeys := editFile (·.rename oldAlias.name newAlias.name) w.secretKeys

/-- `forget address --force`. -/
def forget (w : Wallet) (a : BakerAlias) : Wallet where
  publicKeyHashs := w.publicKeyHashs.map (·.drop a.name)
  publicKeys := w.publicKeys.map (·.drop a.name)
  secretKeys := w.secretKeys.map (·.drop a.name)

/-- `import secret key --force`: a file that does not exist is made. -/
def importKey (w : Wallet) (a : BakerAlias) (uri hash : String) : Wallet where
  publicKeyHashs := some ((w.publicKeyHashs.getD ⟨[], List.nodup_nil⟩).set a.name hash)
  publicKeys := some ((w.publicKeys.getD ⟨[], List.nodup_nil⟩).set a.name uri)
  secretKeys := some ((w.secretKeys.getD ⟨[], List.nodup_nil⟩).set a.name uri)

/-- What the names of the primary file stand for. -/
def aliasMap (w : Wallet) : Moves.Table String String := fun name =>
  w.publicKeyHashs.bind fun f => f.entries.lookup name

/-- The wallet finds a hash by the name of the alias. -/
theorem hash_eq (w : Wallet) (a : BakerAlias) : w.hash a = w.aliasMap a.name := rfl

/-- A rename of an alias that is there is a move. -/
theorem aliasMap_renameAlias {w : Wallet} {oldAlias newAlias : BakerAlias}
    (hne : oldAlias ≠ newAlias) (h : (w.hash oldAlias).isSome = true) :
    (w.renameAlias oldAlias newAlias).aliasMap =
      Moves.move w.aliasMap oldAlias.name newAlias.name := by
  have hnames : oldAlias.name ≠ newAlias.name := fun h => hne (BakerAlias.name_injective h)
  obtain ⟨value, hvalue⟩ := Option.isSome_iff_exists.1 h
  obtain ⟨f, hf, -⟩ := Option.bind_eq_some_iff.1 hvalue
  have hfound : (f.rename oldAlias.name newAlias.name).isSome = true := by
    rw [WalletFile.rename_isSome hnames]
    simpa only [hash, hf, Option.bind_some] using h
  obtain ⟨f', hf'⟩ := Option.isSome_iff_exists.1 hfound
  funext name
  simp only [aliasMap, Moves.move, renameAlias, hf, editFile, Option.map_some, hf',
    Option.getD_some, Option.bind_some, WalletFile.lookup_rename hf' hnames]

/-- A rename of an alias that is there moves its hash. -/
theorem hash_renameAlias {w : Wallet} {oldAlias newAlias : BakerAlias} (hne : oldAlias ≠ newAlias)
    (h : (w.hash oldAlias).isSome = true) (a : BakerAlias) :
    (w.renameAlias oldAlias newAlias).hash a =
      if a = newAlias then w.hash oldAlias else if a = oldAlias then none else w.hash a := by
  have hname : ∀ b : BakerAlias, a.name = b.name ↔ a = b :=
    fun b => ⟨BakerAlias.name_injective, congrArg _⟩
  rw [hash_eq, aliasMap_renameAlias hne h]
  simp only [Moves.move, hname, hash_eq]

/-- A rename of an alias that is not there changes no hash. -/
theorem hash_renameAlias_of_none {w : Wallet} {oldAlias newAlias : BakerAlias}
    (hne : oldAlias ≠ newAlias) (h : w.hash oldAlias = none) (a : BakerAlias) :
    (w.renameAlias oldAlias newAlias).hash a = w.hash a := by
  have hnames : oldAlias.name ≠ newAlias.name := fun h => hne (BakerAlias.name_injective h)
  unfold hash renameAlias at *
  cases hf : w.publicKeyHashs with
  | none => rfl
  | some f =>
    rw [hf] at h
    have hfound : f.rename oldAlias.name newAlias.name = none := by
      rw [← Option.isNone_iff_eq_none, ← Option.not_isSome, WalletFile.rename_isSome hnames]
      exact congrArg (fun value : Option String => !value.isSome) h
    rw [editFile, Option.map_some, hfound]
    rfl

/-- A rename gives an alias no value but the one it is renamed to. -/
theorem hash_of_renameAlias {w : Wallet} {oldAlias newAlias a : BakerAlias} {key : String}
    (hne : oldAlias ≠ newAlias) (h : (w.renameAlias oldAlias newAlias).hash a = some key) :
    w.hash a = some key ∨ a = newAlias ∧ w.hash oldAlias = some key := by
  cases hfound : w.hash oldAlias with
  | none =>
    rw [hash_renameAlias_of_none hne hfound] at h
    exact .inl h
  | some value =>
    rw [hash_renameAlias hne (by rw [hfound]; rfl), hfound] at h
    split at h
    · rename_i ha
      exact .inr ⟨ha, h⟩
    · split at h
      · cases h
      · exact .inl h

/-- A forgotten alias has no hash, and the others keep theirs. -/
theorem hash_forget (w : Wallet) (b a : BakerAlias) :
    (w.forget b).hash a = if a = b then none else w.hash a := by
  have hname : a.name = b.name ↔ a = b := ⟨BakerAlias.name_injective, congrArg _⟩
  unfold hash forget
  cases w.publicKeyHashs with
  | none => simp
  | some f => simp only [Option.map_some, Option.bind_some, WalletFile.lookup_drop, hname]

/-- An imported alias has the hash it was imported with, and the others keep theirs. -/
theorem hash_importKey (w : Wallet) (b a : BakerAlias) (uri hash : String) :
    (w.importKey b uri hash).hash a = if a = b then some hash else w.hash a := by
  have hname : a.name = b.name ↔ a = b := ⟨BakerAlias.name_injective, congrArg _⟩
  unfold Wallet.hash importKey
  cases w.publicKeyHashs with
  | none => simp [WalletFile.lookup_set, hname]
  | some f =>
    simp only [Option.getD_some, Option.bind_some, WalletFile.lookup_set, hname]

end Wallet

end Russignol.Host
