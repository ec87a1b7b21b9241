import Russignol.Host.MigrateKeys

/-!
# The roles of migrated keys

What the backup of `build_migrated_backup` holds: `migrated_keys_in_roles`. The blob opens to two
entries whose secrets are entries of the source, and what is published of a role is derived from the
secret that stands under it, however the aliases collide (`InRoles.derived`, `InRoles.hashs`).
Whether an override or the chain is followed depends on the aliases being different
(`InRoles.named`, `InRoles.chain`), and whether the two secrets are different on no secret standing
twice (`InRoles.distinct`).
-/

namespace Russignol

/-- `KeyRole`, the one that is not this. -/
def KeyRole.other : KeyRole → KeyRole
  | .consensus => .companion
  | .companion => .consensus

namespace Host

/-! ## The text of the two secrets -/

/-- The characters of base58 are digits and letters. -/
theorem toNat_of_base58 {c : Char} (h : isBase58 c = true) :
    48 ≤ c.toNat ∧ c.toNat ≤ 122 ∧ c.toNat ≠ 92 := by
  have hclass : (decide (65 ≤ c.val ∧ c.val ≤ 90) || (decide (97 ≤ c.val) &&
      decide (c.val ≤ 122)) || (decide (48 ≤ c.val) && decide (c.val ≤ 57))) = true :=
    (Bool.and_eq_true_iff.1 (Bool.and_eq_true_iff.1 (Bool.and_eq_true_iff.1
      (Bool.and_eq_true_iff.1 h).1).1).1).1
  simp only [Bool.or_eq_true, Bool.and_eq_true, decide_eq_true_eq, UInt32.le_iff_toNat_le,
    show c.val.toNat = c.toNat from rfl, UInt32.reduceToNat] at hclass
  omega

/-- A character of base58 is none that JSON escapes. -/
theorem ne_of_base58 {c : Char} (h : isBase58 c = true) {d : Char}
    (hd : d.toNat < 48 ∨ d.toNat = 92) : c ≠ d := by
  have hc := toNat_of_base58 h
  rintro rfl
  omega

/-- A character of base58 stands in a JSON string as it is. -/
theorem escapeChar_of_base58 {c : Char} (h : isBase58 c = true) : Json.escapeChar c = [c] := by
  have hc := toNat_of_base58 h
  unfold Json.escapeChar
  rw [if_neg (not_or.2 ⟨ne_of_base58 h (by decide), ne_of_base58 h (by decide)⟩),
    if_neg (ne_of_base58 h (by decide)), if_neg (ne_of_base58 h (by decide)),
    if_neg (ne_of_base58 h (by decide)), if_neg (ne_of_base58 h (by decide)),
    if_neg (ne_of_base58 h (by decide)), if_neg (by omega)]

/-- A text whose characters stand for themselves. -/
theorem flatMap_plain {spell : Char → List Char} {cs : List Char} (h : ∀ c ∈ cs, spell c = [c]) :
    cs.flatMap spell = cs := by
  induction cs with
  | nil => rfl
  | cons c cs ih =>
    obtain ⟨hc, hcs⟩ := List.forall_mem_cons.1 h
    rw [List.flatMap_cons, hc, ih hcs]
    rfl

/-- A string without anything to escape. -/
theorem printStr_of_plain {s : String} (h : ∀ c ∈ s.toList, Json.escapeChar c = [c]) :
    Json.printStr s = '"' :: (s.toList ++ ['"']) := by
  rw [Json.printStr, flatMap_plain h]

/-- The tree of the two relabeled secrets. -/
def relabeledJson (value : KeyRole → String) : List Json :=
  mapAll fun role => .obj [("name", .str role.deviceAlias), ("value", .str (value role))]

/-- Characters that are checked one by one. -/
theorem escapeChar_of_all {cs : List Char}
    (h : (cs.all fun c => Json.escapeChar c == [c]) = true) :
    ∀ c ∈ cs, Json.escapeChar c = [c] :=
  fun c hc => eq_of_beq (List.all_eq_true.1 h c hc)

/-- The text that is put together by hand is that of the tree. -/
theorem relabeled_eq_compact {source value : KeyRole → String}
    (h : ∀ role, ∀ c ∈ (value role).toList, Json.escapeChar c = [c]) :
    relabeledSecretKeysJson (mapAll fun role => ⟨role, source role, value role⟩) =
      String.ofList (Json.arr (relabeledJson value)).compact := by
  apply String.toList_injective
  have hname : ∀ s : String, s ∈ ["name", "value", "consensus", "companion"] →
      Json.printStr s = '"' :: (s.toList ++ ['"']) := by
    intro s hs
    refine printStr_of_plain (escapeChar_of_all ?_)
    revert s
    decide
  have hjoin : ∀ a b : String, ",".intercalate [a, b] = a ++ "," ++ b := fun _ _ => rfl
  simp only [relabeledSecretKeysJson, relabeledJson, mapAll, KeyRole.all, List.map_cons,
    List.map_nil, Json.compact, Json.compactItems, Json.compactFields, String.toList_ofList,
    KeyRole.deviceAlias, printStr_of_plain (h _), hname "name" (by decide),
    hname "value" (by decide), hname "consensus" (by decide), hname "companion" (by decide)]
  simp only [hjoin, String.toList_append]
  simp

/-- A reader takes the list of the two secrets. -/
theorem relabeledJson_writable (value : KeyRole → String) :
    (Json.arr (relabeledJson value)).writable 127 = true := by
  simp only [relabeledJson, mapAll, KeyRole.all, List.map_cons, List.map_nil, Json.writable,
    List.all_cons, List.all_nil, KeyRole.deviceAlias]
  rfl

/-- A public file that was written is read. -/
theorem jsonItems_pretty [JsonText] [LawfulJsonText] {items : List Json}
    (h : (Json.arr items).writable 127 = true) :
    jsonItems (Crypto.asBytes (JsonText.pretty (.arr items))) = some items := by
  rw [jsonItems, Crypto.fromUtf8_asBytes, Option.bind_some, LawfulJsonText.parse_pretty _ h]
  rfl

/-- A reader takes the entries of a public file. -/
theorem writable_entries {α : Type} {entry : α → Json} {depth : Nat} (items : List α)
    (h : ∀ item, (entry item).writable depth = true) :
    (Json.arr (items.map entry)).writable (depth + 1) = true := by
  rw [Json.writable, List.all_map]
  exact List.all_eq_true.2 fun item _ => h item

section

variable [Base58] [BlsSecret]

/-- The value of a key that a signer is made of has nothing to escape. -/
theorem escapeChar_of_parse [LawfulBase58] {value : String} {pub : Unencrypted}
    (h : parseUnencryptedBls value = .ok pub) : ∀ c ∈ value.toList, Json.escapeChar c = [c] := by
  unfold parseUnencryptedBls at h
  cases hstrip : stripStart unencryptedPrefix value with
  | none =>
    rw [hstrip] at h
    cases h
  | some blsk =>
    rw [hstrip] at h
    replace h : Unencrypted.fromB58check blsk = .ok pub := h
    have hbase : ∀ c ∈ blsk.toList, isBase58 c = true := by
      unfold Unencrypted.fromB58check Base58check.decode at h
      cases hdecode : Base58.decode blsk with
      | none =>
        rw [hdecode] at h
        cases h
      | some bytes => exact LawfulBase58.alphabet _ _ hdecode
    unfold stripStart at hstrip
    split at hstrip
    · rename_i hprefix
      obtain ⟨rest, hrest⟩ := hprefix
      obtain rfl := Option.some.inj hstrip
      rw [← hrest, String.toList_ofList,
        show unencryptedPrefix.length = unencryptedPrefix.toList.length from rfl,
        List.drop_left] at hbase
      intro c hc
      rw [← hrest, List.mem_append] at hc
      rcases hc with hc | hc
      · exact escapeChar_of_all (by decide) c hc
      · exact escapeChar_of_base58 (hbase c hc)
    · cases hstrip

end

/-! ## How the roles are resolved -/

/-- A role with a name is the key of that name. -/
theorem sourceFor_named {entries : List SourceKey} {mapping : RoleMapping}
    {source : KeyRole → String} (h : sourceFor entries mapping = .ok source) {role : KeyRole}
    {name : String} (hname : mapping.named role = some name) : source role = name := by
  obtain ⟨consensus, companion⟩ := mapping
  unfold sourceFor at h
  cases consensus with
  | none =>
    cases companion with
    | none => cases role <;> cases hname
    | some k =>
      cases hrest : remainingSourceKey entries k with
      | error e =>
        simp only [hrest] at h
        cases h
      | ok rest =>
        simp only [hrest] at h
        cases h
        cases role with
        | consensus => cases hname
        | companion => exact Option.some.inj hname
  | some c =>
    cases companion with
    | none =>
      cases hrest : remainingSourceKey entries c with
      | error e =>
        simp only [hrest] at h
        cases h
      | ok rest =>
        simp only [hrest] at h
        cases h
        cases role with
        | consensus => exact Option.some.inj hname
        | companion => cases hname
    | some k =>
      cases h
      cases role <;> exact Option.some.inj hname

/-- What is left beside a key is the first of another alias. -/
theorem remainingSourceKey_eq_ok {entries : List SourceKey} {taken rest : String}
    (h : remainingSourceKey entries taken = .ok rest) :
    ∃ key, entries.find? (·.1 ≠ taken) = some key ∧ key.1 = rest := by
  unfold remainingSourceKey orError at h
  cases hfind : entries.find? (·.1 ≠ taken) with
  | none =>
    rw [hfind] at h
    cases h
  | some key =>
    rw [hfind] at h
    exact ⟨key, rfl, Except.ok.inj h⟩

/-- **The role without a name** is the first key that is left. -/
theorem sourceFor_remaining {entries : List SourceKey} {mapping : RoleMapping}
    {source : KeyRole → String} (h : sourceFor entries mapping = .ok source) {role : KeyRole}
    {name : String} (hname : mapping.named role = some name)
    (hother : mapping.named role.other = none) :
    ∃ key, entries.find? (·.1 ≠ name) = some key ∧ key.1 = source role.other := by
  obtain ⟨consensus, companion⟩ := mapping
  unfold sourceFor at h
  cases role with
  | consensus =>
    obtain rfl : companion = none := hother
    obtain rfl : consensus = some name := hname
    cases hrest : remainingSourceKey entries name with
    | error e =>
      simp only [hrest] at h
      cases h
    | ok rest =>
      simp only [hrest] at h
      cases h
      exact remainingSourceKey_eq_ok hrest
  | companion =>
    obtain rfl : consensus = none := hother
    obtain rfl : companion = some name := hname
    cases hrest : remainingSourceKey entries name with
    | error e =>
      simp only [hrest] at h
      cases h
    | ok rest =>
      simp only [hrest] at h
      cases h
      exact remainingSourceKey_eq_ok hrest

/-- Without any name there are two keys, in the roles' order. -/
theorem sourceFor_positional {entries : List SourceKey} {source : KeyRole → String}
    (h : sourceFor entries ⟨none, none⟩ = .ok source) :
    ∃ first second : SourceKey, entries = [first, second] ∧ source .consensus = first.1 ∧
      source .companion = second.1 := by
  unfold sourceFor at h
  match entries, h with
  | [first, second], h =>
    cases h
    exact ⟨first, second, rfl, rfl, rfl⟩

/-- A name that is given is looked up, whatever the chain says. -/
theorem resolveRoleMapping_named (derived : List DerivedPub) {explicit : RoleMapping}
    (chainConsensus : Option String) {role : KeyRole} {name : String}
    (h : explicit.named role = some name) :
    resolveRoleMapping derived explicit chainConsensus =
      ⟨explicit.consensus.map fun key => (sourceAliasFor derived key).getD key,
        explicit.companion.map fun key => (sourceAliasFor derived key).getD key⟩ := by
  obtain ⟨consensus, companion⟩ := explicit
  cases role with
  | consensus =>
    obtain rfl : consensus = some name := h
    rfl
  | companion =>
    obtain rfl : companion = some name := h
    cases consensus <;> rfl

/-- Without a name the chain decides, if one key is its target. -/
theorem resolveRoleMapping_none (derived : List DerivedPub) (chainConsensus : Option String) :
    (resolveRoleMapping derived ⟨none, none⟩ chainConsensus = ⟨none, none⟩ ∧
      ∀ target only, chainConsensus = some target → derived.filter (·.pkh = target) ≠ [only]) ∨
    ∃ target only, chainConsensus = some target ∧ derived.filter (·.pkh = target) = [only] ∧
      resolveRoleMapping derived ⟨none, none⟩ chainConsensus = ⟨some only.sourceName, none⟩ := by
  cases chainConsensus with
  | none => exact .inl ⟨rfl, fun target only h => by cases h⟩
  | some target =>
    unfold resolveRoleMapping
    simp only [Option.map_none]
    split
    · rename_i only honly
      exact .inr ⟨target, only, rfl, honly, rfl⟩
    · rename_i hmany
      refine .inl ⟨rfl, fun target' only htarget honly => ?_⟩
      obtain rfl := Option.some.inj htarget
      exact hmany only honly

section

variable [Base58] [BlsSecret]

/-- The address of a source key. -/
def pkhOf (key : SourceKey) : Option String :=
  (parseUnencryptedBls key.2).toOption.map Unencrypted.pkh

/-- How the keys of the roles were found. -/
structure Assigned (entries : List SourceKey) (derived : List DerivedPub) (explicit : RoleMapping)
    (chainConsensus : Option String) (key : KeyRole → SourceKey) (pub : KeyRole → Unencrypted) :
    Prop where
  derives : List.Forall₂ (fun key d => deriveSourcePub key = .ok d) entries derived
  resolved : sourceFor entries (resolveRoleMapping derived explicit chainConsensus) =
    .ok fun role => (key role).1
  first : ∀ role, entries.lookup (key role).1 = some (key role).2
  parsed : ∀ role, parseUnencryptedBls (key role).2 = .ok (pub role)
  aliases : (key .consensus).1 ≠ (key .companion).1

variable {entries : List SourceKey} {derived : List DerivedPub} {explicit : RoleMapping}
  {chainConsensus : Option String} {key : KeyRole → SourceKey} {pub : KeyRole → Unencrypted}

/-- The key of a role is an entry. -/
theorem Assigned.mem (h : Assigned entries derived explicit chainConsensus key pub)
    (role : KeyRole) : key role ∈ entries :=
  mem_of_lookup (h.first role)

/-- The key of a role is the only one of its alias, where no alias is repeated. -/
theorem Assigned.eq_of_alias (h : Assigned entries derived explicit chainConsensus key pub)
    (hnodup : (entries.map Prod.fst).Nodup) {role : KeyRole} {entry : SourceKey}
    (hentry : entry ∈ entries) (hname : (key role).1 = entry.1) : entry = key role := by
  have hfirst := h.first role
  rw [hname, lookup_of_mem hnodup hentry] at hfirst
  exact Prod.ext hname.symm (Option.some.inj hfirst)

/-- What is derived under the alias of a role is derived from its key. -/
theorem Assigned.derived_eq (h : Assigned entries derived explicit chainConsensus key pub)
    (hnodup : (entries.map Prod.fst).Nodup) {role : KeyRole} {d : DerivedPub} (hd : d ∈ derived)
    (hname : (key role).1 = d.sourceName) : d.pkh = (pub role).pkh := by
  obtain ⟨entry, hentry, hderive⟩ := mem_derived h.derives hd
  obtain ⟨pub', hpub', rfl⟩ := deriveSourcePub_eq_ok hderive
  obtain rfl := h.eq_of_alias hnodup hentry hname
  rw [h.parsed role] at hpub'
  rw [Except.ok.inj hpub']

/-- **A name that is given is obeyed**: it is the alias of the key or its address. -/
theorem Assigned.obeys (h : Assigned entries derived explicit chainConsensus key pub)
    (hnodup : (entries.map Prod.fst).Nodup) {role : KeyRole} {name : String}
    (hname : explicit.named role = some name) :
    (key role).1 = name ∨ (pub role).pkh = name := by
  have hresolved := h.resolved
  rw [resolveRoleMapping_named derived chainConsensus hname] at hresolved
  have halias : (key role).1 = (sourceAliasFor derived name).getD name := by
    refine sourceFor_named hresolved (?_ : (RoleMapping.named _ role) = _)
    cases role with
    | consensus =>
      rw [show explicit.consensus = some name from hname]
      rfl
    | companion =>
      rw [show explicit.companion = some name from hname]
      rfl
  unfold sourceAliasFor at halias
  cases hfind : derived.find? (fun d => d.sourceName = name ∨ d.pkh = name) with
  | none =>
    rw [hfind] at halias
    exact .inl halias
  | some d =>
    rw [hfind] at halias
    have hd := List.find?_some hfind
    replace hd : d.sourceName = name ∨ d.pkh = name := of_decide_eq_true hd
    have hpkh := h.derived_eq hnodup (List.mem_of_find?_eq_some hfind) halias
    rcases hd with hd | hd
    · exact .inl (halias.trans hd)
    · exact .inr (hpkh ▸ hd)

/-- The first key of another alias is the key of the other role, if that is its alias. -/
theorem Assigned.find_eq (h : Assigned entries derived explicit chainConsensus key pub)
    {role : KeyRole} {taken : String} {entry : SourceKey}
    (hfind : entries.find? (·.1 ≠ taken) = some entry) (hname : entry.1 = (key role).1) :
    entries.find? (·.1 ≠ taken) = some (key role) := by
  have hvalue := lookup_of_find hfind
  rw [hname, h.first role] at hvalue
  rw [hfind]
  exact congrArg some (Prod.ext hname (Option.some.inj hvalue).symm)

/-- **The role that was not named** has the first key that is left. -/
theorem Assigned.takes_first (h : Assigned entries derived explicit chainConsensus key pub)
    {role : KeyRole} {name : String} (hname : explicit.named role = some name)
    (hother : explicit.named role.other = none) :
    entries.find? (·.1 ≠ (key role).1) = some (key role.other) := by
  have hresolved := h.resolved
  rw [resolveRoleMapping_named derived chainConsensus hname] at hresolved
  have hnamed : ∃ taken, RoleMapping.named
      ⟨explicit.consensus.map fun key => (sourceAliasFor derived key).getD key,
        explicit.companion.map fun key => (sourceAliasFor derived key).getD key⟩ role =
          some taken := by
    cases role with
    | consensus =>
      rw [show explicit.consensus = some name from hname]
      exact ⟨_, rfl⟩
    | companion =>
      rw [show explicit.companion = some name from hname]
      exact ⟨_, rfl⟩
  obtain ⟨taken, htaken⟩ := hnamed
  have hnone : RoleMapping.named
      ⟨explicit.consensus.map fun key => (sourceAliasFor derived key).getD key,
        explicit.companion.map fun key => (sourceAliasFor derived key).getD key⟩ role.other =
          none := by
    cases role with
    | consensus =>
      rw [show explicit.companion = none from hother]
      rfl
    | companion =>
      rw [show explicit.consensus = none from hother]
      rfl
  obtain ⟨entry, hfind, hentry⟩ := sourceFor_remaining hresolved htaken hnone
  obtain rfl : (key role).1 = taken := sourceFor_named hresolved htaken
  exact h.find_eq hfind hentry

/-- As many keys have an address as are derived with it. -/
theorem countP_derived (target : String)
    (h : List.Forall₂ (fun key d => deriveSourcePub key = .ok d) entries derived) :
    entries.countP (pkhOf · = some target) = (derived.filter (·.pkh = target)).length := by
  induction h with
  | nil => rfl
  | @cons key d entries derived hkey _ ih =>
    obtain ⟨pub, hpub, rfl⟩ := deriveSourcePub_eq_ok hkey
    have hpkh : pkhOf key = some pub.pkh := by
      rw [pkhOf, hpub]
      rfl
    by_cases htarget : pub.pkh = target
    · rw [List.countP_cons_of_pos (by simpa [hpkh] using htarget),
        List.filter_cons_of_pos (by simpa using htarget), List.length_cons, ih]
    · rw [List.countP_cons_of_neg (by simpa [hpkh] using htarget),
        List.filter_cons_of_neg (by simpa using htarget), ih]

/-- **Without any name** the chain names the consensus key, or there are two keys. -/
theorem Assigned.unnamed (h : Assigned entries derived ⟨none, none⟩ chainConsensus key pub) :
    (entries = [key .consensus, key .companion] ∧
      ∀ target, chainConsensus = some target → entries.countP (pkhOf · = some target) ≠ 1) ∨
    (∃ target, chainConsensus = some target ∧ entries.countP (pkhOf · = some target) = 1 ∧
      ((entries.map Prod.fst).Nodup → (pub .consensus).pkh = target)) ∧
    entries.find? (·.1 ≠ (key .consensus).1) = some (key .companion) := by
  have hresolved := h.resolved
  rcases resolveRoleMapping_none derived chainConsensus with
    ⟨hnone, hmany⟩ | ⟨target, only, htarget, honly, hchain⟩
  · rw [hnone] at hresolved
    obtain ⟨first, second, hentries, hfirst, hsecond⟩ := sourceFor_positional hresolved
    have hconsensus := h.first .consensus
    rw [hentries, hfirst, List.lookup_cons, beq_self_eq_true] at hconsensus
    have hcompanion := h.first .companion
    have hne : second.1 ≠ first.1 := by
      rw [← hfirst, ← hsecond]
      exact h.aliases.symm
    rw [hentries, hsecond, List.lookup_cons, beq_false_of_ne hne, List.lookup_cons,
      beq_self_eq_true] at hcompanion
    refine .inl ⟨?_, fun target htarget hcount => ?_⟩
    · rw [hentries, show key .consensus = first from
          Prod.ext hfirst (Option.some.inj hconsensus).symm,
        show key .companion = second from Prod.ext hsecond (Option.some.inj hcompanion).symm]
    · rw [countP_derived target h.derives] at hcount
      obtain ⟨only, honly⟩ := List.length_eq_one_iff.1 hcount
      exact hmany target only htarget honly
  · rw [hchain] at hresolved
    have hnamed : RoleMapping.named ⟨some only.sourceName, none⟩ .consensus =
        some only.sourceName := rfl
    obtain ⟨entry, hfind, hentry⟩ := sourceFor_remaining hresolved hnamed rfl
    obtain hname : (key .consensus).1 = only.sourceName := sourceFor_named hresolved hnamed
    rw [← hname] at hfind
    have hmem : only ∈ derived.filter (·.pkh = target) := by
      rw [honly]
      exact List.mem_singleton_self _
    obtain ⟨hmem, hpkh⟩ := List.mem_filter.1 hmem
    refine .inr ⟨⟨target, htarget, ?_, fun hnodup => ?_⟩, h.find_eq hfind hentry⟩
    · rw [countP_derived target h.derives, honly, List.length_singleton]
    · rw [← h.derived_eq hnodup hmem hname]
      exact of_decide_eq_true hpkh

/-- **The chain is followed** where its target is the address of one secret. -/
theorem Assigned.follows_chain {target : String}
    (h : Assigned entries derived ⟨none, none⟩ (some target) key pub)
    (hnodup : (entries.map Prod.fst).Nodup) {secret : Unencrypted}
    (hmem : ∃ entry ∈ entries, parseUnencryptedBls entry.2 = .ok secret)
    (honly : ∀ entry ∈ entries, ∀ other, parseUnencryptedBls entry.2 = .ok other →
      (other.pkh = target ↔ other = secret)) : pub .consensus = secret := by
  have hconsensus := honly _ (h.mem .consensus) _ (h.parsed .consensus)
  rcases h.unnamed with ⟨hentries, hmany⟩ | ⟨⟨target', htarget, -, hpkh⟩, -⟩
  · by_contra hne
    obtain ⟨entry, hentry, hsecret⟩ := hmem
    rw [hentries] at hentry
    have hcompanion : entry = key .companion := by
      rcases List.mem_cons.1 hentry with rfl | hentry
      · rw [h.parsed .consensus] at hsecret
        exact absurd (Except.ok.inj hsecret) hne
      · exact List.mem_singleton.1 hentry
    rw [hcompanion, h.parsed .companion] at hsecret
    have hfirst : pkhOf (key .consensus) ≠ some target := by
      rw [pkhOf, h.parsed .consensus]
      exact fun heq => hne (hconsensus.1 (Option.some.inj heq))
    have hsecond : pkhOf (key .companion) = some target := by
      have hpub := honly _ (h.mem .companion) _ (h.parsed .companion)
      rw [pkhOf, h.parsed .companion]
      exact congrArg some (hpub.2 (Except.ok.inj hsecret))
    refine hmany target rfl ?_
    rw [hentries, List.countP_cons_of_neg (by simpa using hfirst),
      List.countP_cons_of_pos (by simpa using hsecond), List.countP_nil]
  · obtain rfl := Option.some.inj htarget
    exact hconsensus.1 (hpkh hnodup)

/-- **The two secrets are different** where no secret stands twice. -/
theorem Assigned.distinct (h : Assigned entries derived explicit chainConsensus key pub)
    (hnodup : (entries.map fun entry => parseUnencryptedBls entry.2).Nodup) :
    pub .consensus ≠ pub .companion := by
  intro heq
  have hparsed : parseUnencryptedBls (key .consensus).2 =
      parseUnencryptedBls (key .companion).2 := by
    rw [h.parsed, h.parsed, heq]
  have hkey := List.inj_on_of_nodup_map hnodup (h.mem .consensus) (h.mem .companion) hparsed
  exact h.aliases (congrArg Prod.fst hkey)

/-- What is published of a role is derived from its key. -/
theorem Assigned.publishes (h : Assigned entries derived explicit chainConsensus key pub)
    {sourcePkh : Option (String → Option String)} {role : KeyRole} {stored : StoredKey}
    (hstored : storedKey derived sourcePkh ⟨role, (key role).1, (key role).2⟩ = .ok stored) :
    stored = ⟨role.deviceAlias, (pub role).pkh, (pub role).pk⟩ := by
  obtain ⟨pub', hpub', hfind⟩ := find_derived h.derives (h.first role)
  rw [h.parsed role] at hpub'
  obtain rfl := Except.ok.inj hpub'
  unfold storedKey at hstored
  rw [hfind] at hstored
  dsimp only at hstored
  split at hstored
  · split at hstored
    · exact (Except.ok.inj hstored).symm
    · cases hstored
  · exact (Except.ok.inj hstored).symm

end

/-! ## The backup -/

section

variable [JsonText] [Base58] [BlsSecret] [BlobCrypto]

/-- The keys of a backup and how they got their roles. -/
structure InRoles (entries : List SourceKey) (explicit : RoleMapping)
    (chainConsensus : Option String) (newPin : List UInt8) (backup : SourceBackup)
    (key : KeyRole → SourceKey) (pub : KeyRole → Unencrypted) : Prop where
  mem : ∀ role, key role ∈ entries
  derived : ∀ role, parseUnencryptedBls (key role).2 = .ok (pub role)
  aliases : (key .consensus).1 ≠ (key .companion).1
  distinct : (entries.map fun entry => parseUnencryptedBls entry.2).Nodup →
    pub .consensus ≠ pub .companion
  opened : ∃ blob text, backup.pinBlobs = [(secretKeysEncV2Filename, blob)] ∧
    Crypto.Opens newPin blob text ∧
    JsonText.parse text = .ok (.arr (relabeledJson fun role => (key role).2))
  hashs : jsonItems backup.publicKeyHashs = some (mapAll fun role =>
    (StoredKey.mk role.deviceAlias (pub role).pkh (pub role).pk).hashJson)
  keys : jsonItems backup.publicKeys = some (mapAll fun role =>
    (StoredKey.mk role.deviceAlias (pub role).pkh (pub role).pk).keyJson)
  named : (entries.map Prod.fst).Nodup → ∀ role name, explicit.named role = some name →
    (key role).1 = name ∨ (pub role).pkh = name
  remaining : ∀ role name, explicit.named role = some name → explicit.named role.other = none →
    entries.find? (·.1 ≠ (key role).1) = some (key role.other)
  chain : explicit = ⟨none, none⟩ → (entries.map Prod.fst).Nodup → ∀ target secret,
    chainConsensus = some target →
    (∃ entry ∈ entries, parseUnencryptedBls entry.2 = .ok secret) →
    (∀ entry ∈ entries, ∀ other, parseUnencryptedBls entry.2 = .ok other →
      (other.pkh = target ↔ other = secret)) → pub .consensus = secret
  unnamed : explicit = ⟨none, none⟩ →
    entries = [key .consensus, key .companion] ∨
      (∃ target, chainConsensus = some target ∧ entries.countP (pkhOf · = some target) = 1) ∧
      entries.find? (·.1 ≠ (key .consensus).1) = some (key .companion)

/-- **Migrated keys stand in their roles**: what the backup holds, and which keys of the source it
holds in which role. -/
theorem migrated_keys_in_roles [LawfulJsonText] [LawfulJsonReader] [LawfulBase58]
    {random : Crypto.Random} {saved : Except String Unit} {sourceSecretKeys : List UInt8}
    {sourcePublicKeyHashs : Option (List UInt8)} {newPin : List UInt8} {explicit : RoleMapping}
    {chainConsensus : Option String} {backup : SourceBackup}
    (hauth : Crypto.Authenticated {newPin})
    (h : buildMigratedBackup random saved sourceSecretKeys sourcePublicKeyHashs newPin explicit
      chainConsensus = .ok backup) :
    ∃ entries key pub, parseOctezSecretKeys sourceSecretKeys = .ok entries ∧
      InRoles entries explicit chainConsensus newPin backup key pub := by
  obtain ⟨entries, hentries, h⟩ := bind_eq_ok h
  obtain ⟨derived, hderived, h⟩ := bind_eq_ok h
  obtain ⟨assignments, hassign, h⟩ := bind_eq_ok h
  obtain ⟨sourcePkh, -, h⟩ := bind_eq_ok h
  obtain ⟨stored, hstored, h⟩ := bind_eq_ok h
  obtain ⟨blob, hblob, h⟩ := bind_eq_ok h
  obtain ⟨-, -, h⟩ := bind_eq_ok h
  obtain rfl := Except.ok.inj h
  obtain ⟨source, value, hsource, haliases, hfirst, rfl⟩ := assignRoles_eq_ok hassign
  have hderives := forall₂_of_mapM hderived
  have hparsed : ∀ role, ∃ pub, parseUnencryptedBls (value role) = .ok pub := by
    intro role
    obtain ⟨pub, hpub, -⟩ := find_derived hderives (hfirst role)
    exact ⟨pub, hpub⟩
  choose pub hpub using hparsed
  have hassigned : Assigned entries derived explicit chainConsensus
      (fun role => (source role, value role)) pub :=
    ⟨hderives, hsource, hfirst, hpub, haliases⟩
  have hpublished : stored = mapAll fun role =>
      ⟨role.deviceAlias, (pub role).pkh, (pub role).pk⟩ := by
    have hall := forall₂_of_mapM hstored
    unfold mapAll KeyRole.all at hall ⊢
    cases hall with
    | cons hconsensus hrest =>
      cases hrest with
      | cons hcompanion hrest =>
        cases hrest
        rw [hassigned.publishes hconsensus, hassigned.publishes hcompanion]
        rfl
  have hopened : Crypto.Opens newPin blob
      (String.ofList (Json.arr (relabeledJson value)).compact) := by
    rw [← @relabeled_eq_compact source _ fun role => escapeChar_of_parse (hpub role)]
    cases hencrypt : Crypto.encrypt random newPin
        (relabeledSecretKeysJson (mapAll fun role => ⟨role, source role, value role⟩)) with
    | error e =>
      rw [hencrypt] at hblob
      cases hblob
    | ok sealed =>
      rw [hencrypt] at hblob
      obtain rfl : sealed = blob := Except.ok.inj hblob
      rw [Crypto.Opens, Crypto.decrypt, hauth.decrypt_encrypt hencrypt]
      rfl
  refine ⟨entries, _, pub, hentries, {
    mem := hassigned.mem
    derived := hpub
    aliases := haliases
    distinct := hassigned.distinct
    opened := ⟨blob, _, rfl, hopened,
      LawfulJsonReader.parse_compact _ (relabeledJson_writable value)⟩
    hashs := ?_
    keys := ?_
    named := fun hnodup role name hname => hassigned.obeys hnodup hname
    remaining := fun role name hname hother => hassigned.takes_first hname hother
    chain := ?_
    unnamed := ?_ }⟩
  · rw [hpublished]
    refine (jsonItems_pretty (writable_entries _ fun item => ?_)).trans ?_
    · rfl
    · rfl
  · rw [hpublished]
    refine (jsonItems_pretty (writable_entries _ fun item => ?_)).trans ?_
    · rfl
    · rfl
  · rintro rfl hnodup target secret rfl hmem honly
    exact hassigned.follows_chain hnodup hmem honly
  · rintro rfl
    rcases hassigned.unnamed with ⟨htwo, -⟩ | ⟨⟨target, htarget, hcount, -⟩, hfind⟩
    · exact .inl htwo
    · exact .inr ⟨⟨target, htarget, hcount⟩, hfind⟩

end

/-! ## Base58, to evaluate with -/

/-- The digits of base58. -/
def base58Alphabet : List Char :=
  "123456789ABCDEFGHJKLMNPQRSTUVWXYZabcdefghijkmnopqrstuvwxyz".toList

/-- Each digit is a character of base58. -/
theorem isBase58_of_mem {c : Char} (h : c ∈ base58Alphabet) : isBase58 c = true := by
  have hall : base58Alphabet.all isBase58 = true := by decide
  exact List.all_eq_true.1 hall c h

/-- The bytes of a number, most significant first. -/
def natBytes : Nat → Nat → List UInt8 → List UInt8
  | 0, _, acc => acc
  | fuel + 1, n, acc => if n = 0 then acc else natBytes fuel (n / 256) (UInt8.ofNat n :: acc)

/-- The digits of a number, most significant first. -/
def natDigits : Nat → Nat → List Char → List Char
  | 0, _, acc => acc
  | fuel + 1, n, acc =>
    if n = 0 then acc else natDigits fuel (n / 58) (base58Alphabet.getD (n % 58) '1' :: acc)

/-- The text of some bytes, without leading zeros. -/
def digitsOf (bytes : List UInt8) : String :=
  String.ofList (natDigits (2 * bytes.length) (bytes.foldl (fun n b => 256 * n + b.toNat) 0) [])

/-- The bytes of a text, without leading ones. -/
def digitsBytes (s : String) : Option (List UInt8) :=
  if s.toList.all (· ∈ base58Alphabet) then
    some (natBytes s.toList.length
      (s.toList.foldl (fun n c => 58 * n + base58Alphabet.idxOf c) 0) [])
  else none

/-- Base58 with a checksum of zeros. -/
@[reducible] def digitBase58 : Base58 where
  sha256 _ := Bytes.zeros 32
  encode := digitsOf
  decode := digitsBytes
  encodeCheck bytes := digitsOf (bytes ++ List.replicate 4 0)
  decodeCheck s := (digitsBytes s).map fun bytes => bytes.take (bytes.length - 4)

/-- Only digits are decoded. -/
theorem digitBase58_lawful : @LawfulBase58 digitBase58 := by
  refine @LawfulBase58.mk digitBase58 ?_
  intro s bytes h c hc
  replace h : digitsBytes s = some bytes := h
  unfold digitsBytes at h
  split at h
  · rename_i hall
    exact isBase58_of_mem (of_decide_eq_true (List.all_eq_true.1 hall c hc))
  · cases h

/-- A stand-in for the curve: a public key spells its secret. -/
@[reducible] def plainBls : BlsSecret where
  check _ := .ok ()
  toPk secret := ⟨secret.1 ++ List.replicate 16 0, by rw [List.length_append, secret.2]; rfl⟩
  blake2b20 bytes := ⟨(bytes ++ List.replicate 20 0).take 20, by simp⟩

/-- The keys of the tests. -/
inductive TestKey
  | first
  | second
  | third
  deriving DecidableEq

namespace TestKey

/-- The value of a key. -/
def secret : TestKey → String
  | first => "unencrypted:BLsk1WMUygAiAwd5FSm5AuBdLzDd3b52JTd5jAVUZN6kzkrY8NSMLB"
  | second => "unencrypted:BLsk1Wo8KWwke76sgRXawqgjvx5cLuBKxqCG9C6kmE4v6N7QjWkC9V"
  | third => "unencrypted:BLsk1XEmfMio7Gag7QJ6inBrWuwbeDHddCmSZDi2y635ByNHLf42xo"

/-- The key itself: its bytes are one digit. -/
def pub : TestKey → Unencrypted
  | first => ⟨⟨List.replicate 32 1, rfl⟩⟩
  | second => ⟨⟨List.replicate 32 2, rfl⟩⟩
  | third => ⟨⟨List.replicate 32 3, rfl⟩⟩

end TestKey

/-- The address of the second key. -/
def testAddress : String := "tz49BsLmdii5ihoPug5fe38gw3HuxNPwSH9h"

/-- The entries of some keys under aliases. -/
def testEntries (keys : List (String × TestKey)) : List SourceKey :=
  keys.map fun key => (key.1, key.2.secret)

/-- An entry of `secret_keys`. -/
def entryJson (entry : SourceKey) : Json :=
  .obj [("name", .str entry.1), ("value", .str entry.2)]

/-- A `secret_keys` file. -/
def secretKeysText (entries : List SourceKey) : List UInt8 :=
  Crypto.asBytes (String.ofList (Json.arr (entries.map entryJson)).compact)

section

attribute [local instance] plainJson digitBase58 plainBls Crypto.plainCrypto

/-- The migration of some keys, under a PIN of five digits. -/
def migrateTest (keys : List (String × TestKey)) (explicit : RoleMapping)
    (chainConsensus : Option String) : Except String SourceBackup :=
  buildMigratedBackup Crypto.plainRandom (.ok ()) (secretKeysText (testEntries keys)) none
    [1, 2, 3, 4, 5] explicit chainConsensus

/-- The entries that a backup opens to under the PIN. -/
def openedKeys (backup : Except String SourceBackup) : Option (List SourceKey) :=
  match backup with
  | .error _ => none
  | .ok backup =>
    match backup.pinBlobs with
    | [(_, blob)] =>
      (Crypto.decrypt [1, 2, 3, 4, 5] blob).toOption.bind fun text =>
        (parseOctezSecretKeys (Crypto.asBytes text)).toOption
    | _ => none

/-- What is derived from some keys. -/
def testDerived (keys : List (String × TestKey)) : List DerivedPub :=
  keys.map fun key => ⟨key.1, key.2.pub.pkh, key.2.pub.pk⟩

/-- A signer is made of each key. -/
theorem parse_secret (k : TestKey) : parseUnencryptedBls k.secret = .ok k.pub := by
  have hok : (parseUnencryptedBls k.secret).toOption = some k.pub := by
    cases k with
    | first => decide +kernel
    | second => decide +kernel
    | third => decide +kernel
  cases h : parseUnencryptedBls k.secret with
  | error e =>
    rw [h] at hok
    cases hok
  | ok pub =>
    rw [h] at hok
    rw [Option.some.inj hok]

/-- The address is that of the second key alone. -/
theorem pkh_pub (k : TestKey) : k.pub.pkh = testAddress ↔ k = .second := by
  have hpkh : decide (k.pub.pkh = testAddress) = decide (k = .second) := by
    cases k with
    | first => decide +kernel
    | second => decide +kernel
    | third => decide +kernel
  exact decide_eq_decide.1 hpkh

/-- An entry of a key is read, whatever its alias. -/
theorem parse_entryJson (name : String) (k : TestKey) :
    parseSecretKeyEntry (entryJson (name, k.secret)) = .ok (name, k.secret) := by
  have hblsk : (stripStart unencryptedPrefix k.secret).any
      (fun blsk => "BLsk".toList <+: blsk.toList) = true := by
    cases k with
    | first => decide +kernel
    | second => decide +kernel
    | third => decide +kernel
  cases hstrip : stripStart unencryptedPrefix k.secret with
  | none =>
    rw [hstrip] at hblsk
    cases hblsk
  | some blsk =>
    rw [hstrip] at hblsk
    show (orError _ (stripStart unencryptedPrefix k.secret) >>= fun blsk =>
      if "BLsk".toList <+: blsk.toList then _ else _) = _
    rw [hstrip]
    exact if_pos (of_decide_eq_true hblsk)

/-- A file of keys is read. -/
theorem parse_secretKeysText (keys : List (String × TestKey)) :
    parseOctezSecretKeys (secretKeysText (testEntries keys)) = .ok (testEntries keys) := by
  have := plainJson_reader
  have hentries : ((testEntries keys).map entryJson).mapM parseSecretKeyEntry =
      .ok (testEntries keys) := by
    unfold testEntries
    induction keys with
    | nil => rfl
    | cons key keys ih =>
      rw [List.map_cons, List.map_cons, List.mapM_cons, parse_entryJson, ih]
      rfl
  have hitems : jsonItems (secretKeysText (testEntries keys)) =
      some ((testEntries keys).map entryJson) := by
    rw [jsonItems, secretKeysText, Crypto.fromUtf8_asBytes, Option.bind_some,
      LawfulJsonReader.parse_compact _ (writable_entries _ fun entry => rfl)]
    rfl
  rw [parseOctezSecretKeys, hitems]
  exact hentries

/-- What is derived from a file of keys. -/
theorem derive_testEntries (keys : List (String × TestKey)) :
    deriveSourcePubs (testEntries keys) = .ok (testDerived keys) := by
  unfold deriveSourcePubs testEntries testDerived
  induction keys with
  | nil => rfl
  | cons key keys ih =>
    have hkey : deriveSourcePub (key.1, key.2.secret) =
        .ok ⟨key.1, key.2.pub.pkh, key.2.pub.pk⟩ := by
      rw [deriveSourcePub, parse_secret]
    rw [List.map_cons, List.mapM_cons, hkey, ih]
    rfl

/-- **A migration whose roles are assigned** makes a backup that opens to what was assigned. -/
theorem openedKeys_migrateTest {keys : List (String × TestKey)} {explicit : RoleMapping}
    {chainConsensus : Option String} {resolved : RoleMapping} {assignments : List RoleAssignment}
    {stored : List StoredKey} {opened : List SourceKey}
    (hresolved : resolveRoleMapping (testDerived keys) explicit chainConsensus = resolved)
    (hassign : assignRoles (testEntries keys) resolved = .ok assignments)
    (hstored : assignments.mapM (storedKey (testDerived keys) none) = .ok stored)
    (hopened : assignments.map (fun a => (a.role.deviceAlias, a.secretValue)) = opened) :
    openedKeys (migrateTest keys explicit chainConsensus) = some opened := by
  subst hopened
  subst hresolved
  obtain ⟨source, value, -, -, hfirst, rfl⟩ := assignRoles_eq_ok hassign
  have hvalue : ∀ role, ∃ k : TestKey, value role = k.secret := by
    intro role
    obtain ⟨key, -, hkey⟩ := List.mem_map.1 (mem_of_lookup (hfirst role))
    exact ⟨key.2, (Prod.ext_iff.1 hkey).2.symm⟩
  choose k hk using hvalue
  have hopen : openedKeys (migrateTest keys explicit chainConsensus) =
      (parseOctezSecretKeys (Crypto.asBytes (relabeledSecretKeysJson
        (mapAll fun role => ⟨role, source role, value role⟩)))).toOption := by
    obtain ⟨blob, hblob⟩ : ∃ blob, Crypto.encrypt Crypto.plainRandom [1, 2, 3, 4, 5]
        (relabeledSecretKeysJson (mapAll fun role => ⟨role, source role, value role⟩)) =
          .ok blob := ⟨_, rfl⟩
    have hdecrypt := (Crypto.plainCrypto_authenticated
      (Set.injOn_singleton _ [1, 2, 3, 4, 5])).decrypt_encrypt hblob
    have hpkh : (none : Option (List UInt8)).mapM parsePkhMap = .ok none := rfl
    unfold migrateTest buildMigratedBackup
    simp only [parse_secretKeysText, derive_testEntries, hassign, hpkh, hstored, hblob, bind,
      Except.bind, pure, Except.pure, Except.mapError, openedKeys, Crypto.decrypt, hdecrypt]
    rfl
  have hrelabeled : relabeledSecretKeysJson (mapAll fun role => ⟨role, source role, value role⟩) =
      String.ofList (Json.arr ((testEntries (mapAll fun role => (role.deviceAlias, k role))).map
        entryJson)).compact := by
    have := digitBase58_lawful
    rw [relabeled_eq_compact fun role => ?_]
    · simp only [relabeledJson, testEntries, mapAll, entryJson, List.map_map, Function.comp_def, hk]
    · rw [hk role]
      exact escapeChar_of_parse (parse_secret (k role))
  rw [hopen, hrelabeled]
  refine (congrArg Except.toOption (parse_secretKeysText _)).trans ?_
  simp only [testEntries, mapAll, List.map_map, Function.comp_def, hk, Except.toOption]

/-- The alias of the second key, by its address. -/
theorem resolve_testAddress :
    resolveRoleMapping (testDerived [("key1", .first), ("key2", .second)]) ⟨some testAddress, none⟩
      none = ⟨some "key2", none⟩ := by
  have hne : "key1" ≠ testAddress ∧ "key2" ≠ testAddress := by decide
  simp [resolveRoleMapping, sourceAliasFor, testDerived, pkh_pub, hne]

/-- Two keys, of which the second is named by its address. -/
theorem migrated_keys_in_roles_two :
    ∃ backup, migrateTest [("key1", .first), ("key2", .second)] ⟨some testAddress, none⟩ none =
        .ok backup ∧
      ∃ entries key pub, parseOctezSecretKeys (secretKeysText
          (testEntries [("key1", .first), ("key2", .second)])) = .ok entries ∧
        InRoles entries ⟨some testAddress, none⟩ none [1, 2, 3, 4, 5] backup key pub := by
  have hopened : openedKeys (migrateTest [("key1", .first), ("key2", .second)]
      ⟨some testAddress, none⟩ none) =
        some [("consensus", TestKey.second.secret), ("companion", TestKey.first.secret)] :=
    openedKeys_migrateTest resolve_testAddress rfl rfl rfl
  cases hbackup : migrateTest [("key1", .first), ("key2", .second)] ⟨some testAddress, none⟩
      none with
  | error e =>
    rw [hbackup] at hopened
    cases hopened
  | ok backup =>
    have := plainJson_lawful
    have := plainJson_reader
    have := digitBase58_lawful
    exact ⟨backup, rfl, migrated_keys_in_roles
      (Crypto.plainCrypto_authenticated (Set.injOn_singleton _ _)) hbackup⟩

/-- What the resolution by aliases does not give: of one secret under two aliases both entries are
made; an address is not obeyed, and the chain not followed, where the alias of the key it belongs to
stands twice; and of two keys that are left the first is taken. -/
theorem migrated_keys_collide :
    openedKeys (migrateTest [("key1", .first), ("key2", .first)] ⟨none, none⟩ none) =
        some [("consensus", TestKey.first.secret), ("companion", TestKey.first.secret)] ∧
      openedKeys (migrateTest [("key1", .first), ("key1", .second), ("key2", .third)]
          ⟨some testAddress, none⟩ none) =
        some [("consensus", TestKey.first.secret), ("companion", TestKey.third.secret)] ∧
      openedKeys (migrateTest [("key1", .first), ("key1", .second), ("key2", .third)]
          ⟨none, none⟩ (some testAddress)) =
        some [("consensus", TestKey.first.secret), ("companion", TestKey.third.secret)] ∧
      openedKeys (migrateTest [("key1", .first), ("key2", .second), ("key3", .third)]
          ⟨some "key1", none⟩ none) =
        some [("consensus", TestKey.first.secret), ("companion", TestKey.second.secret)] ∧
      TestKey.second.pub.pkh = testAddress := by
  have hne : "key1" ≠ testAddress ∧ "key2" ≠ testAddress := by decide
  have haddress : resolveRoleMapping (testDerived [("key1", .first), ("key1", .second),
      ("key2", .third)]) ⟨some testAddress, none⟩ none = ⟨some "key1", none⟩ := by
    simp [resolveRoleMapping, sourceAliasFor, testDerived, pkh_pub, hne]
  have hchain : resolveRoleMapping (testDerived [("key1", .first), ("key1", .second),
      ("key2", .third)]) ⟨none, none⟩ (some testAddress) = ⟨some "key1", none⟩ := by
    simp [resolveRoleMapping, testDerived, pkh_pub]
  have hname : resolveRoleMapping (testDerived [("key1", .first), ("key2", .second),
      ("key3", .third)]) ⟨some "key1", none⟩ none = ⟨some "key1", none⟩ := by
    simp [resolveRoleMapping, sourceAliasFor, testDerived]
  refine ⟨?_, ?_, ?_, ?_, ?_⟩
  · exact openedKeys_migrateTest rfl rfl rfl rfl
  · exact openedKeys_migrateTest haddress rfl rfl rfl
  · exact openedKeys_migrateTest hchain rfl rfl rfl
  · exact openedKeys_migrateTest hname rfl rfl rfl
  · exact (pkh_pub .second).2 rfl

end

end Host

end Russignol
