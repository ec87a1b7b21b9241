import Mathlib.Data.List.MinMax
import Mathlib.Data.List.Sort
import Mathlib.Data.String.Basic
import Russignol.Signer.TestUtils

/-!
# The listing of the keys

`KeyManager::list_keys` of `libs/signer/src/server.rs`: the key of each role in the global order,
then the others, with ties broken by base58. It walks two hash maps, whose order of iteration is
unspecified: `Iteration` is any order of the two, and `listKeys_ordering` says that the listing
depends on the last alias of each key and on nothing else.
-/

namespace Russignol

open Bytes

/-- `str::eq_ignore_ascii_case`. -/
def eqIgnoreAsciiCase (a b : String) : Bool :=
  a.toList.map Char.toLower == b.toList.map Char.toLower

/-- No alias is that of both roles. -/
theorem role_unique {name : String} {role role' : KeyRole}
    (h : eqIgnoreAsciiCase name role.deviceAlias = true)
    (h' : eqIgnoreAsciiCase name role'.deviceAlias = true) : role = role' := by
  have heq := (eq_of_beq h).symm.trans (eq_of_beq h')
  cases role <;> cases role' <;> first | rfl | exact absurd heq (by decide)

namespace KeyManager

/-- The manager after a sequence of `add_signer` calls on an empty one. -/
def ofCalls (calls : List (PublicKeyHash × Unencrypted × String)) : KeyManager :=
  calls.foldl (fun m call => m.addSigner call.1 call.2.1 call.2.2) ⟨∅, ∅⟩

/-- An order in which the two hash maps are iterated. -/
structure Iteration (m : KeyManager) where
  names : List (Sigma fun _ : PublicKeyHash => String)
  perm_names : names.Perm m.keyNames.entries
  signers : List PublicKeyHash
  perm_signers : signers.Perm m.signers.keys

/-- The alias of every key, as the calls leave it. -/
def aliasOf (calls : List (PublicKeyHash × Unencrypted × String)) (pkh : PublicKeyHash) :
    Option String :=
  (calls.reverse.find? (·.1 = pkh)).map (·.2.2)

/-- The two maps hold the same keys, each under the last alias it was given. -/
theorem ofCalls_spec (calls : List (PublicKeyHash × Unencrypted × String)) :
    (ofCalls calls).signers.keys = (ofCalls calls).keyNames.keys ∧
      ∀ pkh, (ofCalls calls).keyNames.lookup pkh = aliasOf calls pkh := by
  induction calls using List.reverseRecOn with
  | nil => exact ⟨rfl, fun _ => rfl⟩
  | append_singleton calls call ih =>
    obtain ⟨pkh, signer, name⟩ := call
    have hstep : ofCalls (calls ++ [(pkh, signer, name)]) =
        (ofCalls calls).addSigner pkh signer name := List.foldl_concat ..
    rw [hstep]
    refine ⟨?_, fun pkh' => ?_⟩
    · simp only [addSigner, AList.keys_insert, ih.1]
    · simp only [addSigner, aliasOf, List.reverse_append, List.reverse_singleton,
        List.singleton_append]
      by_cases heq : pkh = pkh'
      · subst heq
        rw [AList.lookup_insert, List.find?_cons_of_pos (by simp)]
        rfl
      · rw [AList.lookup_insert_ne (Ne.symm heq), List.find?_cons_of_neg (by simpa using heq)]
        exact ih.2 pkh'

section

variable [Base58]

/-- The key of a role: the first by base58 among the keys with its alias, case aside. -/
def Iteration.roleKey {m : KeyManager} (it : m.Iteration) (role : KeyRole) :
    Option PublicKeyHash :=
  ((it.names.filter fun entry => eqIgnoreAsciiCase entry.2 role.deviceAlias).map
    (·.1)).argmin PublicKeyHash.toB58check

/-- `KeyManager::list_keys`. -/
def listKeys {m : KeyManager} (it : m.Iteration) : List PublicKeyHash :=
  let seen := KeyRole.all.filterMap it.roleKey
  let extras := it.signers.filter (· ∉ seen)
  -- `sort_by_cached_key` is stable, as an insertion sort is
  seen ++ extras.insertionSort fun k k' => k.toB58check ≤ k'.toB58check

/-- A key is least by base58 among the keys with the alias of a role. -/
def Least (names : PublicKeyHash → Option String) (role : KeyRole) (k : PublicKeyHash) : Prop :=
  (names k).any (eqIgnoreAsciiCase · role.deviceAlias) ∧
    ∀ k', (names k').any (eqIgnoreAsciiCase · role.deviceAlias) → k.toB58check ≤ k'.toB58check

/-- What a listing of an alias map is: the least key of either role, where it has one, and the
other keys in order. -/
structure Listing (names : PublicKeyHash → Option String) (keys : List PublicKeyHash) :
    Prop where
  nodup : keys.Nodup
  mem : ∀ k, k ∈ keys ↔ (names k).isSome
  prefixed : ∃ (first : KeyRole → Option PublicKeyHash) (extras : List PublicKeyHash),
    keys = (first .consensus).toList ++ (first .companion).toList ++ extras ∧
    (∀ role k, first role = some k ↔ Least names role k) ∧
    (∀ role, first role = none ↔
      ∀ k, ¬(names k).any (eqIgnoreAsciiCase · role.deviceAlias)) ∧
    extras.Pairwise fun k k' => k.toB58check ≤ k'.toB58check

/-- The base58 crate tells byte strings apart, and so does the text of a key. -/
theorem toB58check_injective (hencode : Function.Injective Base58.encode) :
    Function.Injective PublicKeyHash.toB58check := by
  intro k k' h
  have hlen : k.hash.1.length = k'.hash.1.length := by rw [k.hash.2, k'.hash.2]
  have hdata := List.append_inj_left (hencode h) (by simp [hlen])
  exact congrArg PublicKeyHash.mk (Subtype.ext (List.append_cancel_left hdata))

variable {calls : List (PublicKeyHash × Unencrypted × String)}
  (it : (ofCalls calls).Iteration)

include it

omit [Base58] in
/-- The keys with the alias of a role, as the iteration meets them. -/
theorem mem_named (role : KeyRole) (k : PublicKeyHash) :
    k ∈ (it.names.filter fun entry => eqIgnoreAsciiCase entry.2 role.deviceAlias).map (·.1) ↔
      (aliasOf calls k).any (eqIgnoreAsciiCase · role.deviceAlias) := by
  rw [← (ofCalls_spec calls).2 k, Option.any_eq_true]
  constructor
  · intro hmem
    obtain ⟨⟨k', name⟩, hentry, rfl⟩ := List.mem_map.1 hmem
    obtain ⟨hentry, hrole⟩ := List.mem_filter.1 hentry
    exact ⟨name, AList.mem_lookup_iff.2 (it.perm_names.mem_iff.1 hentry), hrole⟩
  · rintro ⟨name, hname, hrole⟩
    refine List.mem_map.2 ⟨⟨k, name⟩, List.mem_filter.2 ⟨?_, hrole⟩, rfl⟩
    exact it.perm_names.mem_iff.2 (AList.mem_lookup_iff.1 hname)

/-- The key of a role is the least one. -/
theorem roleKey_iff (hencode : Function.Injective Base58.encode) (role : KeyRole)
    (k : PublicKeyHash) : it.roleKey role = some k ↔ Least (aliasOf calls) role k := by
  constructor
  · intro hk
    refine ⟨(mem_named it role k).1 (List.argmin_mem hk), fun k' hk' => ?_⟩
    exact List.le_of_mem_argmin ((mem_named it role k').2 hk') hk
  · rintro ⟨hmem, hleast⟩
    cases hrole : it.roleKey role with
    | none =>
      have hnil := List.argmin_eq_none.1 hrole
      have := (mem_named it role k).2 hmem
      rw [hnil] at this
      cases this
    | some k' =>
      have hle := List.le_of_mem_argmin ((mem_named it role k).2 hmem) hrole
      have hge := hleast k' ((mem_named it role k').1 (List.argmin_mem hrole))
      exact congrArg some (toB58check_injective hencode (le_antisymm hle hge))

/-- A role without a key is one no key has the alias of. -/
theorem roleKey_none (role : KeyRole) : it.roleKey role = none ↔
    ∀ k, ¬(aliasOf calls k).any (eqIgnoreAsciiCase · role.deviceAlias) := by
  rw [Iteration.roleKey, List.argmin_eq_none, List.eq_nil_iff_forall_not_mem]
  exact forall_congr' fun k => not_congr (mem_named it role k)

omit [Base58] in
/-- The keys iterated are the ones with an alias. -/
theorem mem_signers (k : PublicKeyHash) : k ∈ it.signers ↔ (aliasOf calls k).isSome := by
  rw [it.perm_signers.mem_iff, (ofCalls_spec calls).1, ← (ofCalls_spec calls).2 k,
    AList.lookup_isSome]
  rfl

/-- The two roles have two keys. -/
theorem roleKey_ne {k : PublicKeyHash} (hconsensus : it.roleKey .consensus = some k) :
    it.roleKey .companion ≠ some k := by
  intro hcompanion
  obtain ⟨name, hname, hrole⟩ := (Option.any_eq_true ..).1
    ((mem_named it .consensus k).1 (List.argmin_mem hconsensus))
  obtain ⟨name', hname', hrole'⟩ := (Option.any_eq_true ..).1
    ((mem_named it .companion k).1 (List.argmin_mem hcompanion))
  obtain rfl := Option.some.inj (hname.symm.trans hname')
  cases role_unique hrole hrole'

omit it in
/-- The keys of the roles, in their order. -/
theorem heads_eq {m : KeyManager} (it : m.Iteration) : KeyRole.all.filterMap it.roleKey =
    (it.roleKey .consensus).toList ++ (it.roleKey .companion).toList := by
  cases hconsensus : it.roleKey .consensus <;> cases hcompanion : it.roleKey .companion <;>
    simp [KeyRole.all, hconsensus, hcompanion]

/-- They are not one key twice. -/
theorem heads_nodup : (KeyRole.all.filterMap it.roleKey).Nodup := by
  rw [heads_eq]
  cases hconsensus : it.roleKey .consensus with
  | none => cases it.roleKey .companion <;> simp
  | some k =>
    have hne := roleKey_ne it hconsensus
    cases hcompanion : it.roleKey .companion with
    | none => simp
    | some k' =>
      rw [hcompanion] at hne
      simpa using fun h => hne (congrArg some h.symm)

/-- What `list_keys` returns is a listing of the aliases. -/
theorem listing_listKeys (hencode : Function.Injective Base58.encode) :
    Listing (aliasOf calls) (listKeys it) := by
  obtain ⟨seen, hseen⟩ : ∃ seen, seen = KeyRole.all.filterMap it.roleKey := ⟨_, rfl⟩
  obtain ⟨extras, hextras⟩ : ∃ extras, extras = (it.signers.filter (· ∉ seen)).insertionSort
      fun k k' => k.toB58check ≤ k'.toB58check := ⟨_, rfl⟩
  have hkeys : listKeys it = seen ++ extras := by
    rw [hextras, hseen]
    rfl
  have hmem : ∀ k, k ∈ extras ↔ k ∈ it.signers ∧ k ∉ seen := by
    intro k
    rw [hextras, List.mem_insertionSort, List.mem_filter, decide_eq_true_iff]
  have hheld : ∀ k ∈ seen, k ∈ it.signers := by
    intro k hk
    rw [hseen] at hk
    obtain ⟨role, -, hrole⟩ := List.mem_filterMap.1 hk
    obtain ⟨name, hname, -⟩ := (Option.any_eq_true ..).1
      ((roleKey_iff it hencode role k).1 hrole).1
    rw [mem_signers it k, hname]
    rfl
  rw [hkeys]
  refine ⟨?_, fun k => ?_, it.roleKey, extras, ?_, roleKey_iff it hencode, roleKey_none it, ?_⟩
  · refine List.Nodup.append ?_ ?_ fun k hk hk' => ((hmem k).1 hk').2 hk
    · rw [hseen]
      exact heads_nodup it
    · rw [hextras]
      refine (List.perm_insertionSort _ _).nodup_iff.2 (List.Nodup.filter _ ?_)
      exact it.perm_signers.nodup_iff.2 (ofCalls calls).signers.keys_nodup
  · rw [List.mem_append, hmem, ← mem_signers it k]
    constructor
    · rintro (hk | ⟨hk, -⟩)
      · exact hheld k hk
      · exact hk
    · intro hk
      by_cases hin : k ∈ seen
      · exact .inl hin
      · exact .inr ⟨hk, hin⟩
  · rw [hseen, heads_eq]
  · have htotal : Std.Total fun k k' : PublicKeyHash => k.toB58check ≤ k'.toB58check :=
      ⟨fun k k' => le_total _ _⟩
    have htrans : IsTrans PublicKeyHash fun k k' => k.toB58check ≤ k'.toB58check :=
      ⟨fun _ _ _ => le_trans⟩
    rw [hextras]
    exact List.pairwise_insertionSort _ _

omit it in
/-- An alias map has one listing. -/
theorem Listing.unique (hencode : Function.Injective Base58.encode)
    {names : PublicKeyHash → Option String} {keys keys' : List PublicKeyHash}
    (h : Listing names keys) (h' : Listing names keys') : keys = keys' := by
  obtain ⟨first, extras, rfl, hfirst, -, hsorted⟩ := h.prefixed
  obtain ⟨first', extras', rfl, hfirst', -, hsorted'⟩ := h'.prefixed
  obtain rfl : first = first' := by
    funext role
    exact Option.ext fun k => (hfirst role k).trans (hfirst' role k).symm
  have hperm : extras.Perm extras' := by
    refine (List.perm_append_left_iff _).1 ((List.perm_ext_iff_of_nodup h.nodup h'.nodup).2 ?_)
    exact fun k => (h.mem k).trans (h'.mem k).symm
  have hantisymm : ∀ k k', k ∈ extras → k' ∈ extras' → k.toB58check ≤ k'.toB58check →
      k'.toB58check ≤ k.toB58check → k = k' :=
    fun k k' _ _ hle hge => toB58check_injective hencode (le_antisymm hle hge)
  rw [hperm.eq_of_pairwise hantisymm hsorted hsorted']

omit it in
/-- **The listing of the keys.** Whatever the calls and the order in which the maps are iterated,
`list_keys` lists the keys held, each once: the least key with the alias of the consensus role, the
least with that of the companion role, and the others in the order of their base58. Calls that
leave the same aliases give the same listing. -/
theorem listKeys_ordering (hencode : Function.Injective Base58.encode)
    (calls : List (PublicKeyHash × Unencrypted × String)) (it : (ofCalls calls).Iteration) :
    (∀ k, (aliasOf calls k).isSome ↔ ((ofCalls calls).signers.lookup k).isSome) ∧
      Listing (aliasOf calls) (listKeys it) ∧
      ∀ (calls' : List (PublicKeyHash × Unencrypted × String))
        (it' : (ofCalls calls').Iteration), aliasOf calls' = aliasOf calls →
          listKeys it' = listKeys it := by
  refine ⟨fun k => ?_, listing_listKeys it hencode, fun calls' it' hnames => ?_⟩
  · rw [AList.lookup_isSome, ← mem_signers it k, it.perm_signers.mem_iff]
    rfl
  · exact (hnames ▸ listing_listKeys it' hencode).unique hencode (listing_listKeys it hencode)

end

section

attribute [local instance] plainBase58

/-- The character of a byte has its number. -/
theorem toNat_byteChar (b : UInt8) : (Char.ofNat b.toNat).toNat = b.toNat := by
  have hvalid : b.toNat.isValidChar := .inl (by have := b.toNat_lt; omega)
  rw [Char.ofNat, dif_pos hvalid]
  rfl

/-- The plain encoding tells byte strings apart. -/
theorem plainBase58_injective : Function.Injective plainBase58.encode := by
  intro a b h
  have hchars := (String.ofList_inj).1 h
  refine List.map_injective_iff.2 (fun x y hxy => ?_) hchars
  have hx := toNat_byteChar x
  rw [hxy, toNat_byteChar] at hx
  exact (UInt8.toNat_inj.1 hx).symm

/-- A key that loses its role, a second key in the role, and two others. -/
def testCalls : List (PublicKeyHash × Unencrypted × String) :=
  [(testKey 2, ⟨zeros 32⟩, "consensus"), (testKey 5, ⟨zeros 32⟩, "Companion"),
    (testKey 4, ⟨zeros 32⟩, "consensus"), (testKey 3, ⟨zeros 32⟩, "CONSENSUS"),
    (testKey 2, ⟨zeros 32⟩, "retired")]

/-- An order of iteration: that of the entries. -/
def testIteration : (ofCalls testCalls).Iteration :=
  ⟨_, List.Perm.refl _, _, List.Perm.refl _⟩

/-- The listing of the four. -/
theorem listKeys_ordering_four :
    listKeys testIteration = [testKey 3, testKey 5, testKey 2, testKey 4] ∧
      Listing (aliasOf testCalls) [testKey 3, testKey 5, testKey 2, testKey 4] := by
  have hlisted : listKeys testIteration = [testKey 3, testKey 5, testKey 2, testKey 4] := by
    decide +kernel
  exact ⟨hlisted, hlisted ▸ (listKeys_ordering plainBase58_injective testCalls testIteration).2.1⟩

end

end KeyManager

end Russignol
