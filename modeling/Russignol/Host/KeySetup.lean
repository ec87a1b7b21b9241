import Mathlib.Data.List.Infix
import Russignol.Base.Automaton
import Russignol.Host.KeyRegistration

/-!
# Setting up the keys

The first registration of the keys of a signer, from `wait_for_signer` on (`run` of
`host-utility/src/phase3.rs`, with `host-utility/src/keys.rs`): the keys of both roles are imported
into the wallet under their live aliases and set on the chain. A set-up may fail or be killed in
each of its commands and be started again; commands of `octez-client` are done or they are not.

A set-up that ends well has both aliases at the keys of the signer, which are or become the active
ones unless other keys were pending behind them, and one that follows it does nothing. A secret key
that it replaces was copied before (`key_setup`).
-/

namespace Russignol.Host

open EarlyExit

/-- `str::contains`. -/
def mentions (text part : String) : Bool := decide (part.toList <:+: text.toList)

/-- `value.rsplit('/').next()`. -/
def lastSegment (value : String) : String :=
  String.ofList (value.toList.reverse.takeWhile (· ≠ '/')).reverse

/-! ## The state and the answers -/

/-- What a set-up changes, with the key transactions that were accepted as history. -/
structure KeySetup where
  wallet : Wallet
  chain : Delegate
  /-- History: the keys that were set, the last first. -/
  accepted : List (KeyRole × String)
  /-- The copies of `secret_keys` in the backup directory. -/
  copies : String → Option WalletFile

/-- What a command of `octez-client` comes to. -/
inductive CommandEnd
  | done
  | refused (stderr : String) (landed : Bool)
  | notRun (text : String)
  | killed (landed : Bool)
  deriving DecidableEq, Repr

/-- Where `secret_keys` is read. -/
inductive SecretRead
  | imported
  | local
  | exists (role : KeyRole)
  | validate
  deriving DecidableEq, Repr

/-- Where the delegate is fetched. -/
inductive DelegateFetch
  | all
  | of (role : KeyRole)
  deriving DecidableEq, Repr

/-- What a set-up is answered. -/
structure KeySetupIo where
  dryRun : Bool
  autoConfirm : Bool
  signerUri : String
  secretKeysFile : String
  /-- `discover_remote_keys`, in the attempts of `wait_for_signer`. -/
  remoteKeys : Nat → Except String (List String)
  retry : Reply
  readable : SecretRead → Bool
  /-- The chain at a fetch, after what it was before; `none` where the fetch fails. -/
  observe : DelegateFetch → Delegate → Option Delegate
  overwrite : KeyRole → Reply
  /-- The time of a backup, to the second. -/
  stamp : KeyRole → String
  copy : KeyRole → Effect
  importKey : KeyRole → CommandEnd
  /-- What the client says to an import without `--force` of an alias that is there. -/
  aliasTaken : String
  setKey : KeyRole → Delegate → CommandEnd
  /-- The cycle from which a key that is set is active. -/
  activationCycle : KeyRole → Int
  knownAddresses : Except String String

/-- `signer_ip`. -/
def KeySetupIo.signerIp (io : KeySetupIo) : String :=
  if "tcp://".toList.isPrefixOf io.signerUri.toList then
    String.ofList ((io.signerUri.toList.drop 6).takeWhile (· ≠ ':'))
  else "169.254.1.1"

/-- The name of a copy in the backup directory. -/
def KeySetupIo.copyName (io : KeySetupIo) (role : KeyRole) : String :=
  "secret_keys.before-force-" ++ io.stamp role

namespace KeySetup

/-- A part of a set-up. -/
abbrev SetUp (α : Type) : Type := Prog KeySetup α

/-- The entry of a live alias in `secret_keys`. -/
def secret (s : KeySetup) (role : KeyRole) : Option String :=
  s.wallet.secretKeys.bind fun f => f.entries.lookup (BakerAlias.live role).name

/-! ## Operations -/

/-- A command: whether it succeeded, or what it printed. -/
def command (e : CommandEnd) (f : KeySetup → KeySetup) : SetUp (Except String Unit) :=
  match e with
  | .done => do
    modify f
    pure (.ok ())
  | .refused stderr landed => do
    modify fun s => if landed then f s else s
    pure (.error stderr)
  | .notRun text => throw (.failed text)
  | .killed landed => do
    modify fun s => if landed then f s else s
    throw .killed

/-- `prompt_yes_no`. -/
def prompt (io : KeySetupIo) (r : Reply) : SetUp Bool :=
  if io.autoConfirm then pure true
  else
    match r with
    | .yes => pure true
    | .no => pure false
    | .failed text => throw (.failed text)
    | .killed => throw .killed

/-- `fetch_delegate_info`. -/
def fetchDelegateInfo (io : KeySetupIo) (p : DelegateFetch) : SetUp (Option Delegate) := do
  let s ← get
  match io.observe p s.chain with
  | none => pure none
  | some chain =>
    modify fun s => { s with chain }
    pure (some chain)

/-- `role_key_set_on_chain`. -/
def roleKeySetOnChain (d : Delegate) (role : KeyRole) (expectedPkh : String) : Bool :=
  ((d.key role).active.getD "" == expectedPkh) ||
    (d.key role).pendings.any fun pending => pending.pkh == expectedPkh

/-- The copy before a forced import: `backup_file_if_exists`. -/
def backUp (io : KeySetupIo) (role : KeyRole) : SetUp Unit := do
  let s ← get
  match s.wallet.secretKeys with
  | none => pure ()
  | some file =>
    let copied := fun t : KeySetup => { t with
      copies := Function.update t.copies (io.copyName role) (some file) }
    match io.copy role with
    | .done => modify copied
    | .failed text => throw (.failed text)
    | .killed landed => do
      modify fun t => if landed then copied t else t
      throw .killed

/-- `octez-client import secret key`: without `--force` it refuses an alias that is there. -/
def importSecretKey (io : KeySetupIo) (role : KeyRole) (keyHash : String) (force : Bool) :
    SetUp (Except String Unit) := do
  let s ← get
  if !force && ((s.wallet.hash (.live role)).isSome || (s.secret role).isSome) then
    match io.importKey role with
    | .done => pure (.error io.aliasTaken)
    | e => command e id
  else command (io.importKey role) fun t => { t with
    wallet := t.wallet.importKey (.live role) (io.signerUri ++ "/" ++ keyHash) keyHash }

/-- `import_key_from_signer`. -/
def importKeyFromSigner (io : KeySetupIo) (role : KeyRole) (keyHash : String) (force : Bool) :
    SetUp Unit := do
  let result ← importSecretKey io role keyHash force
  match result with
  | .ok () => pure ()
  | .error stderr =>
    let name := (BakerAlias.live role).name
    if !force && (mentions stderr "already" || mentions stderr "use --force" ||
        mentions stderr "Use --force") then throw (.failed ("alias_exists:" ++ name))
    else throw (.failed ("Failed to import key '" ++ name ++ "': " ++ stderr))

/-- `get_key_hash`. -/
def getKeyHash (role : KeyRole) : SetUp String := do
  let s ← get
  match s.wallet.hash (.live role) with
  | some hash => pure hash
  | none => throw (.failed "Could not parse key hash from octez-client output")

/-- `octez-client set <kind> key for <baker> to <alias>`, and what is made of a refusal. -/
def setLiveKey (io : KeySetupIo) (role : KeyRole) (pkh : String) : SetUp Unit := do
  let s ← get
  let result ← command (io.setKey role s.chain) fun t => { t with
    chain := t.chain.accept role ⟨io.activationCycle role, pkh⟩
    accepted := (role, pkh) :: t.accepted }
  match result with
  | .ok () => pure ()
  | .error stderr =>
    if mentions stderr "already active" then pure ()
    else throw (.failed ("Failed to set " ++ role.deviceAlias ++ " key: " ++ stderr))

/-! ## The set-up -/

/-- A key for each role, in the order of the device. -/
def atLeastTwo (remoteKeys : Except String (List String)) : Option (List String) :=
  match remoteKeys with
  | .ok keys => if KeyRole.all.length ≤ keys.length then some keys else none
  | .error _ => none

/-- `wait_for_signer`. -/
def waitForSigner (io : KeySetupIo) : SetUp (List String) :=
  match (atLeastTwo (io.remoteKeys 0)).or (atLeastTwo (io.remoteKeys 1)) with
  | some keys => pure keys
  | none =>
    if io.autoConfirm then throw
      (.failed "Signer not accessible and --yes specified. Cannot proceed automatically.")
    else
      match io.retry with
      | .failed text => throw (.failed text)
      | .killed => throw .killed
      | .no => throw (.failed "User aborted")
      | .yes =>
        match atLeastTwo (io.remoteKeys 2) with
        | some keys => pure keys
        | none => throw (.failed ("Signer still not accessible. Please check the device " ++
            "connection and try again."))

/-- The checks of "Discovering remote keys": the key of each role. -/
def keyOfRole (remoteKeys : List String) : SetUp (KeyRole → String) :=
  match remoteKeys with
  | consensus :: companion :: _ =>
    if consensus = companion then throw (.failed ("Signer returned duplicate keys - " ++
      KeyRole.consensus.deviceAlias ++ " and " ++ KeyRole.companion.deviceAlias ++
      " have the same public key hash"))
    else pure (perRole consensus companion)
  | _ => throw (.failed ("Expected at least 2 remote keys but found " ++
      toString remoteKeys.length ++ ". Please ensure the signer is properly configured."))

/-- `roles_correctly_imported`, of a role. An alias has one entry. -/
def roleImported (io : KeySetupIo) (s : KeySetup) (key : String) (role : KeyRole) : Bool :=
  io.readable .imported &&
    (s.secret role).any fun value => mentions value key && mentions value io.signerIp

/-- `read_local_key_hashes`, of a role. -/
def localKeyHash (io : KeySetupIo) (s : KeySetup) (role : KeyRole) : Option String :=
  if io.readable .local then
    (((s.secret role).filter (mentions · io.signerIp)).map lastSegment).filter fun hash =>
      "tz".toList.isPrefixOf hash.toList
  else none

/-- `validate_imported_keys`, with `validate_keys_in_filesystem`. -/
def validateImportedKeys (io : KeySetupIo) : SetUp Unit := do
  match io.knownAddresses with
  | .error text => throw (.failed text)
  | .ok output =>
    let known := mentions output "tcp sk known" || mentions output "tcp:sk known"
    if !(known && KeyRole.all.all fun role => mentions output (BakerAlias.live role).name) then
      throw (.failed "Keys not found in octez-client after import (CLI validation failed)")
    else
      let s ← get
      if !io.readable .validate then
        throw (.failed ("Failed to read file: " ++ io.secretKeysFile))
      else if KeyRole.all.all fun role => (s.secret role).any (mentions · io.signerIp) then pure ()
      else throw (.failed
        "Keys validation failed: keys not found in filesystem with correct URIs")

/-- The prompt and the backup of `import_and_set_key`: whether the import is forced. -/
def confirmOverwrite (io : KeySetupIo) (role : KeyRole) (imported : Bool) : SetUp Bool := do
  let s ← get
  if !imported && io.readable (.exists role) && (s.secret role).isSome then
    let shouldOverwrite ← prompt io (io.overwrite role)
    if shouldOverwrite then
      backUp io role
      pure true
    else throw (.failed ("Cannot proceed without importing key '" ++
      (BakerAlias.live role).name ++ "'"))
  else pure false

/-- `import_and_set_key`. -/
def importAndSetKey (io : KeySetupIo) (role : KeyRole) (key : String) (imported : Bool) :
    SetUp Unit := do
  let force ← confirmOverwrite io role imported
  (if imported then pure () else importKeyFromSigner io role key force)
  let pkh ← getKeyHash role
  let info ← fetchDelegateInfo io (.of role)
  if info.any (roleKeySetOnChain · role pkh) then pure () else setLiveKey io role pkh

/-- The loop over the roles. -/
def importAndSetKeys (io : KeySetupIo) (keys : KeyRole → String) (imported : KeyRole → Bool) :
    List KeyRole → SetUp Unit
  | [] => pure ()
  | role :: roles => do
    importAndSetKey io role (keys role) (imported role)
    importAndSetKeys io keys imported roles

/-- Whether all roles are set already; it is asked where all are imported. -/
def allOnChain (io : KeySetupIo) : SetUp Bool := do
  let s ← get
  let info ← fetchDelegateInfo io .all
  pure (info.any fun d => KeyRole.all.all fun role =>
    (localKeyHash io s role).any (roleKeySetOnChain d role))

/-- `discover_and_import_keys`. -/
def discoverAndImportKeys (io : KeySetupIo) (remoteKeys : List String) : SetUp Unit :=
  if io.dryRun then pure ()
  else do
    let keys ← keyOfRole remoteKeys
    let s ← get
    let imported := fun role => roleImported io s (keys role) role
    let already ← (if KeyRole.all.all imported then allOnChain io else pure false)
    if already then validateImportedKeys io
    else
      importAndSetKeys io keys imported KeyRole.all
      validateImportedKeys io

/-- `run`, from `wait_for_signer` on. -/
def setUpKeys (io : KeySetupIo) : SetUp Unit := do
  let remoteKeys ← (if io.dryRun then pure [] else waitForSigner io)
  discoverAndImportKeys io remoteKeys

/-- What a set-up leaves. -/
def setUpOf (io : KeySetupIo) (s : KeySetup) : KeySetup := final (setUpKeys io) s

/-- One set-up after another. -/
def step (s : KeySetup) (io : KeySetupIo) : Option KeySetup := some (setUpOf io s)

/-! ## Keys in the wallet -/

/-- A key hash in base 58. -/
structure IsKeyHash (hash : String) : Prop where
  length : hash.toList.length = 36
  start : "tz4".toList <+: hash.toList
  slash : '/' ∉ hash.toList

/-- An entry of `secret_keys` is the address of a signer and the hash of a key. -/
def IsKeyEntry (value hash : String) : Prop :=
  ∃ uri, value = uri ++ "/" ++ hash ∧ IsKeyHash hash ∧ mentions uri "tz4" = false

/-- The files of the wallet agree on the live aliases, where these are at a signer. -/
def Agrees (s : KeySetup) : Prop :=
  ∀ role value, s.secret role = some value → mentions value "tz4" = false ∨
    ∃ hash, IsKeyEntry value hash ∧ s.wallet.hash (.live role) = some hash

/-- A text mentions its parts. -/
theorem mentions_iff {text part : String} :
    mentions text part = true ↔ part.toList <:+: text.toList := decide_eq_true_iff

/-- A part without a separator is on one side of it. -/
theorem infix_of_infix_append_cons {α : Type} {x a b : List α} {c : α} (hx : c ∉ x)
    (h : x <:+: a ++ c :: b) : x <:+: a ∨ x <:+: b := by
  obtain ⟨before, after, h⟩ := h
  rw [List.append_assoc] at h
  rcases List.append_eq_append_iff.1 h with ⟨l, ha, hl⟩ | ⟨l, hbefore, hl⟩
  · rcases List.append_eq_append_iff.1 hl with ⟨m, hm, -⟩ | ⟨m, hm, hafter⟩
    · exact .inl ⟨before, m, by rw [ha, hm, List.append_assoc]⟩
    · cases m with
      | nil =>
        rw [List.append_nil] at hm
        exact .inl ⟨before, [], by rw [ha, hm, List.append_nil]⟩
      | cons d m =>
        obtain ⟨rfl, -⟩ := List.cons.inj hafter
        exact absurd (hm ▸ List.mem_append_right l List.mem_cons_self) hx
  · cases l with
    | nil =>
      cases x with
      | nil => exact .inl ⟨[], a, rfl⟩
      | cons d x =>
        obtain ⟨rfl, -⟩ := List.cons.inj hl
        exact absurd List.mem_cons_self hx
    | cons d l =>
      obtain ⟨-, hb⟩ := List.cons.inj hl
      exact .inr ⟨l, after, (List.append_assoc ..).trans hb.symm⟩

/-- The characters of an entry. -/
theorem toList_entry (uri hash : String) :
    (uri ++ "/" ++ hash).toList = uri.toList ++ '/' :: hash.toList := by
  rw [String.toList_append, String.toList_append, List.append_assoc]
  rfl

/-- The hash that an entry mentions is its own. -/
theorem IsKeyEntry.eq_of_mentions {value hash key : String} (h : IsKeyEntry value hash)
    (hkey : IsKeyHash key) (hmentions : mentions value key = true) : hash = key := by
  obtain ⟨uri, rfl, hhash, huri⟩ := h
  rw [mentions_iff, toList_entry] at hmentions
  rcases infix_of_infix_append_cons hkey.slash hmentions with hinfix | hinfix
  · have htz : mentions uri "tz4" = true :=
      mentions_iff.2 (hkey.start.isInfix.trans hinfix)
    rw [huri] at htz
    cases htz
  · have heq := hinfix.eq_of_length (hkey.length.trans hhash.length.symm)
    exact (String.toList_inj.1 heq).symm

/-- The entry of an alias that mentions a key is of this key, and so is the alias. -/
theorem Agrees.entry {s : KeySetup} {role : KeyRole} {value key : String} (h : Agrees s)
    (hvalue : s.secret role = some value) (hkey : IsKeyHash key)
    (hmentions : mentions value key = true) :
    IsKeyEntry value key ∧ s.wallet.hash (.live role) = some key := by
  rcases h role value hvalue with hnone | ⟨hash, hentry, hhash⟩
  · have htz : mentions value "tz4" = true :=
      mentions_iff.2 (hkey.start.isInfix.trans (mentions_iff.1 hmentions))
    rw [hnone] at htz
    cases htz
  · obtain rfl := hentry.eq_of_mentions hkey hmentions
    exact ⟨hentry, hhash⟩

/-- The last segment of an entry is the hash. -/
theorem IsKeyEntry.lastSegment {value hash : String} (h : IsKeyEntry value hash) :
    lastSegment value = hash := by
  obtain ⟨uri, rfl, hhash, -⟩ := h
  have hall : ∀ c ∈ hash.toList.reverse, (decide (c ≠ '/')) = true := fun c hc =>
    decide_eq_true fun heq => hhash.slash (heq ▸ List.mem_reverse.1 hc)
  rw [Host.lastSegment, toList_entry, List.reverse_append, List.reverse_cons, List.append_assoc,
    List.takeWhile_append_of_pos hall, List.singleton_append,
    List.takeWhile_cons_of_neg (by decide), List.append_nil, List.reverse_reverse,
    String.ofList_toList]

/-- An import sets the entry of its own alias, and of no other. -/
theorem secret_importKey (s : KeySetup) (role role' : KeyRole) (uri hash : String) :
    ({ s with wallet := s.wallet.importKey (.live role) uri hash } : KeySetup).secret role' =
      if role' = role then some uri else s.secret role' := by
  have hname : (BakerAlias.live role').name = (BakerAlias.live role).name ↔ role' = role :=
    ⟨fun h => by cases BakerAlias.name_injective h; rfl, fun h => h ▸ rfl⟩
  unfold secret Wallet.importKey
  cases s.wallet.secretKeys with
  | none =>
    simp only [Option.getD_none, Option.bind_some, WalletFile.lookup_set, hname, List.lookup_nil,
      Option.bind_none]
  | some f => simp only [Option.getD_some, Option.bind_some, WalletFile.lookup_set, hname]

/-! ## Keys on the chain -/

/-- A key of a role is active or pending. -/
def Holds (d : Delegate) (role : KeyRole) (key : String) : Prop :=
  (d.key role).active = some key ∨ ∃ p ∈ (d.key role).pendings, p.pkh = key

/-- The check of the code is whether the key is active or pending. -/
theorem roleKeySetOnChain_iff {d : Delegate} {role : KeyRole} {key : String} (hkey : key ≠ "") :
    roleKeySetOnChain d role key = true ↔ Holds d role key := by
  rw [roleKeySetOnChain, Bool.or_eq_true, List.any_eq_true]
  refine or_congr ?_ (exists_congr fun p => and_congr_right fun _ => beq_iff_eq)
  rw [beq_iff_eq]
  cases (d.key role).active with
  | none => exact ⟨fun h => absurd h.symm hkey, fun h => by cases h⟩
  | some active => exact ⟨congrArg some, Option.some.inj⟩

/-- A key that is active or pending after a time was so before: time sets no key. -/
theorem Holds.of_elapses {d d' : Delegate} {role : KeyRole} {key : String} (h : d.Elapses d')
    (hholds : Holds d' role key) : Holds d role key := by
  obtain ⟨activated, hpendings, hactive⟩ := h role
  rcases hholds with hkey | ⟨p, hp, hkey⟩
  · rw [hactive] at hkey
    cases hlast : activated.getLast? with
    | none =>
      rw [hlast] at hkey
      exact .inl hkey
    | some p =>
      rw [hlast] at hkey
      refine .inr ⟨p, ?_, Option.some.inj hkey⟩
      rw [hpendings]
      exact List.mem_append_left _ (List.mem_of_getLast? hlast)
  · exact .inr ⟨p, (h role).subset hp, hkey⟩

/-- The newest key is active or pending. -/
theorem Holds.of_newest {d : Delegate} {role : KeyRole} {key : String}
    (h : (d.key role).newest = some key) : Holds d role key := by
  unfold KeyStatus.newest at h
  cases hlast : (d.key role).pendings.getLast? with
  | none =>
    rw [hlast] at h
    exact .inl h
  | some p =>
    rw [hlast] at h
    exact .inr ⟨p, List.mem_of_getLast? hlast, Option.some.inj h⟩

/-- A key transaction of one role leaves the keys of the other. -/
theorem key_accept_of_ne {d : Delegate} {role role' : KeyRole} (pending : PendingKey)
    (h : role' ≠ role) : (d.accept role pending).key role' = d.key role' :=
  Function.update_of_ne h ..

/-! ## What a set-up keeps -/

/-- The keys of both roles are on a signer that a set-up talks to, and its answers are true. -/
structure Faces (io : KeySetupIo) (keys : KeyRole → String) : Prop where
  signer : ∀ n remoteKeys, io.remoteKeys n = .ok remoteKeys →
    KeyRole.all.length ≤ remoteKeys.length → ∀ role, remoteKeys[role.index]? = some (keys role)
  hash : ∀ role, IsKeyHash (keys role)
  uri : mentions io.signerUri "tz4" = false
  truthful : ∀ p d d', io.observe p d = some d' → d.Elapses d'
  /-- A key that is refused as active is active. -/
  refusal : ∀ role d stderr, io.setKey role d = .refused stderr false →
    mentions stderr "already active" = true → (d.key role).active = some (keys role)
  /-- Backups of the same second have one name. -/
  stamps : io.stamp .consensus ≠ io.stamp .companion

/-- The operator agreed that an alias is overwritten. -/
def Overwrites (io : KeySetupIo) (role : KeyRole) : Prop :=
  io.autoConfirm = true ∨ io.overwrite role = .yes

/-- What a set-up from `s` has left of it at `t`. Only the live aliases change, and to the keys of
the signer; these are what it submits; and a secret key that it replaced, which the operator agreed
to, is in a copy. -/
structure Kept (keys : KeyRole → String) (io : KeySetupIo) (s t : KeySetup) : Prop where
  others : ∀ a, (∀ role, a ≠ .live role) → t.wallet.hash a = s.wallet.hash a
  live : ∀ role, t.wallet.hash (.live role) = s.wallet.hash (.live role) ∨
    t.wallet.hash (.live role) = some (keys role)
  accepted : ∃ since, t.accepted = since ++ s.accepted ∧ ∀ e ∈ since, e.2 = keys e.1
  newest : ∀ role, (t.chain.key role).newest = (s.chain.key role).newest ∨
    (t.chain.key role).newest = some (keys role)
  secrets : ∀ role value, s.secret role = some value → t.secret role = some value ∨
    Overwrites io role ∧ ∃ file, t.copies (io.copyName role) = some file ∧
      file.entries.lookup (BakerAlias.live role).name = some value
  copies : ∀ name, (∀ role, name ≠ io.copyName role) → t.copies name = s.copies name

/-- The invariant of a set-up from `s`. -/
structure Tracks (keys : KeyRole → String) (io : KeySetupIo) (s t : KeySetup) : Prop where
  kept : Kept keys io s t
  agrees : Agrees t
  holds : ∀ role, Holds t.chain role (keys role) → Holds s.chain role (keys role) ∨
    (t.chain.key role).newest = some (keys role)

/-- A role is imported. -/
def Imported (keys : KeyRole → String) (t : KeySetup) (role : KeyRole) : Prop :=
  t.wallet.hash (.live role) = some (keys role) ∧
    ∃ value, t.secret role = some value ∧ mentions value (keys role) = true

/-- A role is imported, and its key was found on the chain or accepted. -/
def Done (keys : KeyRole → String) (s t : KeySetup) (role : KeyRole) : Prop :=
  Imported keys t role ∧
    (Holds s.chain role (keys role) ∨ (t.chain.key role).newest = some (keys role))

variable {keys : KeyRole → String} {io : KeySetupIo} {s t : KeySetup}

/-- The copies of the two roles have different names. -/
theorem Faces.copyName_injective (h : Faces io keys) {role role' : KeyRole}
    (hname : io.copyName role = io.copyName role') : role = role' := by
  have hstamp : io.stamp role = io.stamp role' := String.append_right_inj _ |>.1 hname
  cases role <;> cases role'
  · rfl
  · exact absurd hstamp h.stamps
  · exact absurd hstamp.symm h.stamps
  · rfl

/-- A key hash is not the empty text. -/
theorem Faces.ne_empty (h : Faces io keys) (role : KeyRole) : keys role ≠ "" := by
  intro hempty
  have hlength := (h.hash role).length
  rw [hempty] at hlength
  cases hlength

/-- A set-up that has done nothing is on its way. -/
theorem Tracks.refl (hs : Agrees s) : Tracks keys io s s where
  kept := {
    others := fun _ _ => rfl
    live := fun _ => .inl rfl
    accepted := ⟨[], rfl, fun _ h => absurd h List.not_mem_nil⟩
    newest := fun _ => .inl rfl
    secrets := fun _ _ h => .inl h
    copies := fun _ _ => rfl }
  agrees := hs
  holds := fun _ => .inl

/-! ### Time -/

/-- A set-up stays on its way while time goes by. -/
theorem Tracks.elapse {d : Delegate} (h : Tracks keys io s t) (hd : t.chain.Elapses d) :
    Tracks keys io s { t with chain := d } where
  kept := {
    others := h.kept.others
    live := h.kept.live
    accepted := h.kept.accepted
    newest := fun role => (h.kept.newest role).imp (hd role).newest.trans (hd role).newest.trans
    secrets := h.kept.secrets
    copies := h.kept.copies }
  agrees := h.agrees
  holds := fun role hholds =>
    (h.holds role (hholds.of_elapses hd)).imp id (hd role).newest.trans

/-- A role that is done stays so while time goes by. -/
theorem Done.elapse {d : Delegate} {role : KeyRole} (h : Done keys s t role)
    (hd : t.chain.Elapses d) : Done keys s { t with chain := d } role :=
  ⟨h.1, h.2.imp id (hd role).newest.trans⟩

/-! ### A key is set -/

/-- The effect of a key transaction. -/
def set (io : KeySetupIo) (role : KeyRole) (pkh : String) (t : KeySetup) : KeySetup := { t with
  chain := t.chain.accept role ⟨io.activationCycle role, pkh⟩
  accepted := (role, pkh) :: t.accepted }

/-- A key transaction makes its key the newest of its role, and of no other. -/
theorem newest_set (role role' : KeyRole) :
    ((set io role (keys role) t).chain.key role').newest =
      if role' = role then some (keys role) else (t.chain.key role').newest :=
  Delegate.newest_accept ..

/-- A set-up stays on its way when it sets a key of the signer. -/
theorem Tracks.set (h : Tracks keys io s t) (role : KeyRole) :
    Tracks keys io s (set io role (keys role) t) where
  kept := {
    others := h.kept.others
    live := h.kept.live
    accepted := by
      obtain ⟨since, hsince, hkeys⟩ := h.kept.accepted
      refine ⟨(role, keys role) :: since, congrArg _ hsince, ?_⟩
      exact List.forall_mem_cons.2 ⟨rfl, hkeys⟩
    newest := fun role' => by
      rw [newest_set]
      split
      · rename_i hrole
        exact .inr (hrole ▸ rfl)
      · exact h.kept.newest role'
    secrets := h.kept.secrets
    copies := h.kept.copies }
  agrees := h.agrees
  holds := fun role' hholds => by
    rw [newest_set]
    split
    · rename_i hrole
      exact .inr (hrole ▸ rfl)
    · rename_i hrole
      refine h.holds role' ?_
      rw [Holds, KeySetup.set, key_accept_of_ne _ hrole] at hholds
      exact hholds

/-- A role that is done stays so when a key of the signer is set. -/
theorem Done.set {role role' : KeyRole} (h : Done keys s t role') :
    Done keys s (set io role (keys role) t) role' := by
  refine ⟨h.1, ?_⟩
  rw [newest_set]
  split
  · rename_i hrole
    exact .inr (hrole ▸ rfl)
  · exact h.2

/-! ### A key is imported -/

/-- The effect of an import. -/
def imported (io : KeySetupIo) (role : KeyRole) (key : String) (t : KeySetup) : KeySetup :=
  { t with wallet := t.wallet.importKey (.live role) (io.signerUri ++ "/" ++ key) key }

/-- What is imported is the entry of its role, and of no other. -/
theorem secret_imported (role role' : KeyRole) (key : String) :
    (imported io role key t).secret role' =
      if role' = role then some (io.signerUri ++ "/" ++ key) else t.secret role' :=
  secret_importKey ..

/-- What is imported is the hash of its alias, and of no other. -/
theorem hash_imported (role : KeyRole) (key : String) (a : BakerAlias) :
    (imported io role key t).wallet.hash a =
      if a = .live role then some key else t.wallet.hash a :=
  Wallet.hash_importKey ..

/-- An entry mentions its key. -/
theorem mentions_entry (uri key : String) : mentions (uri ++ "/" ++ key) key = true := by
  rw [mentions_iff, toList_entry]
  exact ⟨uri.toList ++ ['/'], [], by rw [List.append_nil, List.append_assoc]; rfl⟩

/-- A key that is imported is imported. -/
theorem Imported.imported (role : KeyRole) : Imported keys (imported io role (keys role) t) role :=
  ⟨by rw [hash_imported, if_pos rfl], _, by rw [secret_imported, if_pos rfl], mentions_entry ..⟩

/-- A role that is done stays so when the key of the other one is imported. -/
theorem Done.imported {role role' : KeyRole} (h : Done keys s t role') (hne : role' ≠ role) :
    Done keys s (imported io role (keys role) t) role' := by
  obtain ⟨⟨hhash, value, hsecret, hmentions⟩, hset⟩ := h
  refine ⟨⟨?_, value, ?_, hmentions⟩, hset⟩
  · rw [hash_imported, if_neg fun h => hne (BakerAlias.live.inj h)]
    exact hhash
  · rw [secret_imported, if_neg hne]
    exact hsecret

/-- An import over a secret key that is in a copy, or where there is none. -/
theorem Tracks.imported (hio : Faces io keys) (h : Tracks keys io s t) (role : KeyRole)
    (hcopied : ∀ value, s.secret role = some value → Overwrites io role ∧
      ∃ file, t.copies (io.copyName role) = some file ∧
        file.entries.lookup (BakerAlias.live role).name = some value) :
    Tracks keys io s (imported io role (keys role) t) where
  kept := {
    others := fun a ha => by
      rw [hash_imported, if_neg (ha role)]
      exact h.kept.others a ha
    live := fun role' => by
      rw [hash_imported]
      split
      · rename_i hrole
        exact .inr (BakerAlias.live.inj hrole ▸ rfl)
      · exact h.kept.live role'
    accepted := h.kept.accepted
    newest := h.kept.newest
    secrets := fun role' value hvalue => by
      by_cases hrole : role' = role
      · subst hrole
        exact .inr (hcopied value hvalue)
      · rw [secret_imported, if_neg hrole]
        exact h.kept.secrets role' value hvalue
    copies := h.kept.copies }
  agrees := fun role' value hvalue => by
    rw [secret_imported] at hvalue
    rw [hash_imported]
    by_cases hrole : role' = role
    · subst hrole
      rw [if_pos rfl] at hvalue
      cases hvalue
      exact .inr ⟨_, ⟨_, rfl, hio.hash role', hio.uri⟩, if_pos rfl⟩
    · rw [if_neg hrole] at hvalue
      rw [if_neg fun h => hrole (BakerAlias.live.inj h)]
      exact h.agrees role' value hvalue
  holds := h.holds

/-! ### A copy is made -/

/-- The effect of a copy. -/
def copied (io : KeySetupIo) (role : KeyRole) (file : WalletFile) (t : KeySetup) : KeySetup :=
  { t with copies := Function.update t.copies (io.copyName role) (some file) }

/-- A set-up that copies `secret_keys` before it replaces an entry stays on its way. -/
theorem Tracks.copied (hio : Faces io keys) (h : Tracks keys io s t) {role : KeyRole}
    {file : WalletFile} (htodo : t.secret role = s.secret role) :
    Tracks keys io s (copied io role file t) where
  kept := {
    others := h.kept.others
    live := h.kept.live
    accepted := h.kept.accepted
    newest := h.kept.newest
    secrets := fun role' value hvalue => by
      by_cases hrole : role' = role
      · subst hrole
        exact .inl (htodo.trans hvalue)
      · refine (h.kept.secrets role' value hvalue).imp id ?_
        rintro ⟨hover, kept, hkept, hlookup⟩
        refine ⟨hover, kept, (Function.update_of_ne ?_ ..).trans hkept, hlookup⟩
        exact fun hname => hrole (hio.copyName_injective hname)
    copies := fun name hname =>
      (Function.update_of_ne (hname role) ..).trans (h.kept.copies name hname) }
  agrees := h.agrees
  holds := h.holds

/-! ## The role that is being set up -/

/-- While a role is being set up: the roles after it are as they were, those before it are done. -/
structure During (keys : KeyRole → String) (io : KeySetupIo) (s : KeySetup) (role : KeyRole)
    (roles : List KeyRole) (t : KeySetup) : Prop where
  tracks : Tracks keys io s t
  todo : ∀ r ∈ roles, t.secret r = s.secret r
  done : ∀ r, r ≠ role → r ∉ roles → Done keys s t r

/-- Between two roles. -/
structure Stage (keys : KeyRole → String) (io : KeySetupIo) (s : KeySetup)
    (roles : List KeyRole) (t : KeySetup) : Prop where
  tracks : Tracks keys io s t
  todo : ∀ r ∈ roles, t.secret r = s.secret r
  done : ∀ r, r ∉ roles → Done keys s t r

/-- Where a secret key is replaced, it is in a copy, and the operator agreed. -/
def Copied (io : KeySetupIo) (s : KeySetup) (role : KeyRole) (t : KeySetup) : Prop :=
  ∀ value, s.secret role = some value → Overwrites io role ∧
    ∃ file, t.copies (io.copyName role) = some file ∧
      file.entries.lookup (BakerAlias.live role).name = some value

variable {role : KeyRole} {roles : List KeyRole}

/-- The next role of those that are left is at work, and its entry is not replaced yet. -/
theorem Stage.during (h : Stage keys io s (role :: roles) t) :
    During keys io s role roles t ∧ t.secret role = s.secret role :=
  ⟨⟨h.tracks, fun r hr => h.todo r (List.mem_cons_of_mem _ hr), fun r hne hr =>
    h.done r fun hmem => (List.mem_cons.1 hmem).elim hne hr⟩, h.todo role List.mem_cons_self⟩

/-- With the role at work done, the others are left. -/
theorem During.stage (h : During keys io s role roles t) (hdone : Done keys s t role) :
    Stage keys io s roles t where
  tracks := h.tracks
  todo := h.todo
  done := fun r hr => by
    by_cases hrole : r = role
    · exact hrole ▸ hdone
    · exact h.done r hrole hr

/-- A role stays at work while time goes by. -/
theorem During.elapse {d : Delegate} (h : During keys io s role roles t)
    (hd : t.chain.Elapses d) : During keys io s role roles { t with chain := d } :=
  ⟨h.tracks.elapse hd, h.todo, fun r hne hr => (h.done r hne hr).elapse hd⟩

/-- A role stays at work when its key is set. -/
theorem During.set (h : During keys io s role roles t) :
    During keys io s role roles (set io role (keys role) t) :=
  ⟨h.tracks.set role, h.todo, fun r hne hr => (h.done r hne hr).set⟩

/-- A role stays at work when its key is imported, if what that replaces was copied. -/
theorem During.imported (hio : Faces io keys) (h : During keys io s role roles t)
    (hrole : role ∉ roles) (hcopied : Copied io s role t) :
    During keys io s role roles (imported io role (keys role) t) where
  tracks := h.tracks.imported hio role hcopied
  todo := fun r hr => by
    have hne : r ≠ role := fun heq => hrole (heq ▸ hr)
    rw [secret_imported, if_neg hne]
    exact h.todo r hr
  done := fun r hne hr => (h.done r hne hr).imported hne

/-- A role stays at work when `secret_keys` is copied. -/
theorem During.copied (hio : Faces io keys) (h : During keys io s role roles t)
    (htodo : t.secret role = s.secret role) {file : WalletFile} :
    During keys io s role roles (copied io role file t) :=
  ⟨h.tracks.copied hio htodo, h.todo, h.done⟩

/-! ### The operations -/

/-- The rule of a command: it is done, refused with or without effect, not run, or killed. -/
theorem command_triple {P E : KeySetup → Prop} {Q : Except String Unit → KeySetup → Prop}
    {e : CommandEnd} {f : KeySetup → KeySetup} (hdone : e = .done → ∀ t, P t → Q (.ok ()) (f t))
    (hrefused : ∀ stderr landed, e = .refused stderr landed → ∀ t, P t →
      Q (.error stderr) (if landed then f t else t))
    (hP : ∀ t, P t → E t) (hf : ∀ t, P t → E (f t)) : Triple P (command e f) Q E := by
  unfold command
  cases e with
  | done => exact Triple.bind (Triple.modify (hdone rfl)) fun _ => Triple.pure fun _ => id
  | refused stderr landed =>
    exact Triple.bind (Triple.modify (hrefused stderr landed rfl)) fun _ => Triple.pure fun _ => id
  | notRun text => exact Triple.throw hP
  | killed landed =>
    refine Triple.bind (R := fun _ => E) (Triple.modify fun t ht => ?_) fun _ =>
      Triple.throw fun _ => id
    cases landed
    · exact hP t ht
    · exact hf t ht

/-- A prompt that is agreed to is an agreement. -/
theorem prompt_triple {P E : KeySetup → Prop} (hP : ∀ t, P t → E t) :
    Triple P (prompt io (io.overwrite role)) (fun b t => P t ∧ (b = true → Overwrites io role))
      E := by
  unfold prompt
  split
  · rename_i hauto
    exact Triple.pure fun _ ht => ⟨ht, fun _ => .inl hauto⟩
  · split
    · rename_i hyes
      exact Triple.pure fun _ ht => ⟨ht, fun _ => .inr hyes⟩
    · exact Triple.pure fun _ ht => ⟨ht, fun h => by cases h⟩
    · exact Triple.throw hP
    · exact Triple.throw hP

/-- A fetch lets time go by, and what it returns is the chain then. -/
theorem fetchDelegateInfo_triple {P E : KeySetup → Prop} (hio : Faces io keys)
    (helapse : ∀ t d, t.chain.Elapses d → P t → P { t with chain := d }) (p : DelegateFetch) :
    Triple P (fetchDelegateInfo io p) (fun info t => P t ∧ ∀ d, info = some d → t.chain = d) E := by
  unfold fetchDelegateInfo
  refine Triple.bind_get fun u => ?_
  split
  · exact Triple.pure fun _ ht => ⟨ht.2, fun _ h => by cases h⟩
  · rename_i d hd
    refine Triple.bind (R := fun _ t => P t ∧ t.chain = d) (Triple.modify ?_) fun _ =>
      Triple.pure fun _ ht => ⟨ht.1, fun _ h => ht.2.trans (Option.some.inj h)⟩
    rintro t ⟨rfl, ht⟩
    exact ⟨helapse t d (hio.truthful p _ d hd) ht, rfl⟩

/-- The backup leaves a copy of the entry that is there. -/
theorem backUp_triple (hio : Faces io keys) (hover : Overwrites io role) :
    Triple (fun t => During keys io s role roles t ∧ t.secret role = s.secret role)
      (backUp io role) (fun _ t => (During keys io s role roles t ∧
        t.secret role = s.secret role) ∧ Copied io s role t) (Tracks keys io s) := by
  unfold backUp
  refine Triple.bind_get fun u => ?_
  cases hfile : u.wallet.secretKeys with
  | none =>
    refine Triple.pure ?_
    rintro t ⟨rfl, ht⟩
    refine ⟨ht, fun value hvalue => ?_⟩
    rw [← ht.2, secret, hfile] at hvalue
    cases hvalue
  | some file =>
    have hcopied : ∀ t, (t = u ∧ During keys io s role roles t ∧
        t.secret role = s.secret role) → (During keys io s role roles (copied io role file t) ∧
        t.secret role = s.secret role) ∧ Copied io s role (copied io role file t) := by
      rintro t ⟨rfl, ht, htodo⟩
      refine ⟨⟨ht.copied hio htodo, htodo⟩, fun value hvalue => ⟨hover, file, ?_, ?_⟩⟩
      · exact Function.update_self ..
      · rw [← htodo, secret, hfile] at hvalue
        exact hvalue
    dsimp only
    cases io.copy role with
    | done => exact Triple.modify hcopied
    | failed text => exact Triple.throw fun _ ht => ht.2.1.tracks
    | killed landed =>
      refine Triple.bind (R := fun _ => Tracks keys io s) (Triple.modify fun t ht => ?_) fun _ =>
        Triple.throw fun _ => id
      cases landed
      · exact ht.2.1.tracks
      · exact (hcopied t ht).1.1.tracks

/-- An import is forced only where the operator agreed and the entry was copied. -/
theorem confirmOverwrite_triple (hio : Faces io keys) (imported : Bool) :
    Triple (fun t => During keys io s role roles t ∧ t.secret role = s.secret role)
      (confirmOverwrite io role imported) (fun force t => (During keys io s role roles t ∧
        t.secret role = s.secret role) ∧ (force = true → Copied io s role t))
      (Tracks keys io s) := by
  unfold confirmOverwrite
  refine Triple.bind_get fun u => Triple.pre ?_ fun _ ht => ht.2
  split
  · refine Triple.bind (prompt_triple fun t ht => ht.1.tracks) fun overwrite => ?_
    split
    · rename_i hoverwrite
      refine Triple.pre (Triple.of_pre fun hover => Triple.bind (backUp_triple hio hover) fun _ =>
        Triple.pure fun _ ht => ⟨ht.1, fun _ => ht.2⟩) ?_
      exact fun _ ht => ⟨ht.2 hoverwrite, ht.1⟩
    · exact Triple.throw fun _ ht => ht.1.1.tracks
  · exact Triple.pure fun _ ht => ⟨ht, fun h => by cases h⟩

/-- The import of the client replaces an entry only if forced, and then to the key of the signer. -/
theorem importSecretKey_triple (hio : Faces io keys) (hrole : role ∉ roles) (force : Bool) :
    Triple (fun t => (During keys io s role roles t ∧ t.secret role = s.secret role) ∧
        (force = true → Copied io s role t)) (importSecretKey io role (keys role) force)
      (fun result t => match result with
        | .ok () => During keys io s role roles t ∧ Imported keys t role
        | .error _ => Tracks keys io s t) (Tracks keys io s) := by
  unfold importSecretKey
  refine Triple.bind_get fun u => ?_
  split
  · split
    · exact Triple.pure fun _ ht => ht.2.1.1.tracks
    · rename_i hne
      refine command_triple (fun h => absurd h hne) (fun _ landed _ t ht => ?_)
        (fun _ ht => ht.2.1.1.tracks) fun _ ht => ht.2.1.1.tracks
      cases landed <;> exact ht.2.1.1.tracks
  · rename_i htaken
    have himported : ∀ t, (t = u ∧ (During keys io s role roles t ∧
        t.secret role = s.secret role) ∧ (force = true → Copied io s role t)) →
        During keys io s role roles (imported io role (keys role) t) := by
      rintro t ⟨rfl, ⟨ht, htodo⟩, hforce⟩
      refine ht.imported hio hrole fun value hvalue => ?_
      cases force with
      | true => exact hforce rfl value hvalue
      | false =>
        rw [← htodo] at hvalue
        refine absurd ?_ htaken
        rw [hvalue, Option.isSome_some, Bool.or_true]
        rfl
    refine command_triple (fun _ t ht => ⟨himported t ht, .imported role⟩)
      (fun _ landed _ t ht => ?_) (fun _ ht => ht.2.1.1.tracks) fun t ht => (himported t ht).tracks
    cases landed
    · exact ht.2.1.1.tracks
    · exact (himported t ht).tracks

/-- An import that succeeds leaves the key of the signer under the alias. -/
theorem importKeyFromSigner_triple (hio : Faces io keys) (hrole : role ∉ roles) (force : Bool) :
    Triple (fun t => (During keys io s role roles t ∧ t.secret role = s.secret role) ∧
        (force = true → Copied io s role t)) (importKeyFromSigner io role (keys role) force)
      (fun _ t => During keys io s role roles t ∧ Imported keys t role) (Tracks keys io s) := by
  unfold importKeyFromSigner
  refine Triple.bind (importSecretKey_triple hio hrole force) fun result => ?_
  cases result with
  | ok => exact Triple.pure fun _ => id
  | error stderr =>
    dsimp only
    split
    · exact Triple.throw fun _ => id
    · exact Triple.throw fun _ => id

/-- The hash of an imported alias is the key of the signer. -/
theorem getKeyHash_triple {P : KeySetup → Prop} (hP : ∀ t, P t → Tracks keys io s t) :
    Triple (fun t => P t ∧ Imported keys t role) (getKeyHash role)
      (fun pkh t => pkh = keys role ∧ P t ∧ Imported keys t role) (Tracks keys io s) := by
  unfold getKeyHash
  refine Triple.bind_get fun u => ?_
  split
  · rename_i hash hhash
    refine Triple.pure ?_
    rintro t ⟨rfl, ht⟩
    exact ⟨Option.some.inj (hhash.symm.trans ht.2.1), ht⟩
  · exact Triple.throw fun t ht => hP t ht.2.1

/-- A role is done when its key is imported and on the chain. -/
theorem Tracks.done (h : Tracks keys io s t) (himported : Imported keys t role)
    (hholds : Holds t.chain role (keys role)) : Done keys s t role :=
  ⟨himported, h.holds role hholds⟩

/-- Setting the key of a role brings it on the chain, or it is active already. -/
theorem setLiveKey_triple (hio : Faces io keys) :
    Triple (fun t => During keys io s role roles t ∧ Imported keys t role)
      (setLiveKey io role (keys role)) (fun _ => Stage keys io s roles) (Tracks keys io s) := by
  unfold setLiveKey
  refine Triple.bind_get fun u => ?_
  have hset : ∀ t, (t = u ∧ During keys io s role roles t ∧ Imported keys t role) →
      Stage keys io s roles (set io role (keys role) t) := fun t ht =>
    ht.2.1.set.stage ⟨ht.2.2, .inr (by rw [newest_set, if_pos rfl])⟩
  refine Triple.bind (R := fun result t => match result with
    | .ok () => Stage keys io s roles t
    | .error stderr => Tracks keys io s t ∧
      (mentions stderr "already active" = true → Stage keys io s roles t))
    (command_triple (fun _ => hset) (fun stderr landed hrefused t ht => ?_)
      (fun _ ht => ht.2.1.tracks) fun t ht => (hset t ht).tracks) fun result => ?_
  · cases landed with
    | true => exact ⟨(hset t ht).tracks, fun _ => hset t ht⟩
    | false =>
      obtain ⟨rfl, hduring, himported⟩ := ht
      refine ⟨hduring.tracks, fun hactive => hduring.stage (hduring.tracks.done himported ?_)⟩
      exact .inl (hio.refusal role _ stderr hrefused hactive)
  · cases result with
    | ok => exact Triple.pure fun _ => id
    | error stderr =>
      dsimp only
      split
      · rename_i hactive
        exact Triple.pure fun _ ht => ht.2 hactive
      · exact Triple.throw fun _ ht => ht.1

/-- What is known of the roles that count as imported. -/
def ImportedAt (keys : KeyRole → String) (s : KeySetup) (role : KeyRole) : Prop :=
  ∃ value, s.secret role = some value ∧ mentions value (keys role) = true

/-- Whether a key was imported is read off the entry of its role. -/
theorem ImportedAt.congr (h : ImportedAt keys s role) (hsecret : t.secret role = s.secret role) :
    ImportedAt keys t role := by
  obtain ⟨value, hvalue, hmentions⟩ := h
  exact ⟨value, hsecret.trans hvalue, hmentions⟩

/-- In a wallet that agrees, the alias of an imported key is at it too. -/
theorem Agrees.imported (hio : Faces io keys) (h : Agrees t) (hrole : ImportedAt keys t role) :
    Imported keys t role := by
  obtain ⟨value, hvalue, hmentions⟩ := hrole
  exact ⟨(h.entry hvalue (hio.hash role) hmentions).2, value, hvalue, hmentions⟩

/-- One role: its key is imported and set. -/
theorem importAndSetKey_triple (hio : Faces io keys) (hrole : role ∉ roles) {imported : Bool}
    (himported : imported = true → ImportedAt keys s role) :
    Triple (Stage keys io s (role :: roles)) (importAndSetKey io role (keys role) imported)
      (fun _ => Stage keys io s roles) (Tracks keys io s) := by
  unfold importAndSetKey
  refine Triple.bind (Triple.pre (confirmOverwrite_triple hio imported) fun _ ht => ht.during)
    fun force => ?_
  refine Triple.bind (R := fun _ t => During keys io s role roles t ∧ Imported keys t role) ?_
    fun _ => ?_
  · split
    · rename_i h
      exact Triple.pure fun t ht => ⟨ht.1.1, ht.1.1.tracks.agrees.imported hio
        ((himported h).congr ht.1.2)⟩
    · exact importKeyFromSigner_triple hio hrole force
  · refine Triple.bind (getKeyHash_triple fun _ ht => ht.tracks) fun pkh =>
      Triple.of_pre fun hpkh => ?_
    subst hpkh
    refine Triple.bind (fetchDelegateInfo_triple hio
      (fun t d hd ht => ⟨ht.1.elapse hd, ht.2⟩) (.of role)) fun info => ?_
    split
    · rename_i hinfo
      refine Triple.pure fun t ht => ht.1.1.stage (ht.1.1.tracks.done ht.1.2 ?_)
      cases info with
      | none => cases hinfo
      | some d =>
        rw [ht.2 d rfl]
        exact (roleKeySetOnChain_iff (hio.ne_empty role)).1 hinfo
    · exact Triple.pre (setLiveKey_triple hio) fun _ ht => ht.1

/-- All roles that are left, one after another. -/
theorem importAndSetKeys_triple (hio : Faces io keys) {imported : KeyRole → Bool}
    (himported : ∀ role, imported role = true → ImportedAt keys s role) :
    ∀ {roles : List KeyRole}, roles.Nodup → Triple (Stage keys io s roles)
      (importAndSetKeys io keys imported roles) (fun _ => Stage keys io s []) (Tracks keys io s)
  | [], _ => Triple.pure fun _ => id
  | _ :: _, hnodup => by
    obtain ⟨hrole, hroles⟩ := List.nodup_cons.1 hnodup
    exact Triple.bind (importAndSetKey_triple hio hrole (himported _)) fun _ =>
      importAndSetKeys_triple hio himported hroles

/-! ## The set-up as a whole -/

/-- Every role is in the list of roles. -/
theorem mem_all (role : KeyRole) : role ∈ KeyRole.all := by cases role <;> decide

/-- The hash that is read off an imported entry is the key of the signer. -/
theorem Agrees.localKeyHash (hio : Faces io keys) (h : Agrees t) (hrole : ImportedAt keys t role)
    {hash : String} (hlocal : localKeyHash io t role = some hash) : hash = keys role := by
  obtain ⟨value, hvalue, hmentions⟩ := hrole
  obtain ⟨hentry, -⟩ := h.entry hvalue (hio.hash role) hmentions
  rw [KeySetup.localKeyHash] at hlocal
  split at hlocal
  · obtain ⟨hlocal, -⟩ := Option.filter_eq_some_iff.1 hlocal
    obtain ⟨value', hvalue', rfl⟩ := Option.map_eq_some_iff.1 hlocal
    obtain ⟨hvalue', -⟩ := Option.filter_eq_some_iff.1 hvalue'
    cases hvalue.symm.trans hvalue'
    exact hentry.lastSegment
  · cases hlocal

/-- The roles that are left stay so while time goes by. -/
theorem Stage.elapse {d : Delegate} (h : Stage keys io s roles t) (hd : t.chain.Elapses d) :
    Stage keys io s roles { t with chain := d } :=
  ⟨h.tracks.elapse hd, h.todo, fun r hr => (h.done r hr).elapse hd⟩

/-- Where all keys are found on the chain, all roles are done. -/
theorem allOnChain_triple (hio : Faces io keys) (himported : ∀ role, ImportedAt keys s role) :
    Triple (Stage keys io s KeyRole.all) (allOnChain io)
      (fun already t => Stage keys io s KeyRole.all t ∧
        (already = true → Stage keys io s [] t)) (Tracks keys io s) := by
  unfold allOnChain
  refine Triple.bind_get fun u => ?_
  refine Triple.bind (R := fun info t => (Agrees u ∧ (∀ role, u.secret role = s.secret role) ∧
    Stage keys io s KeyRole.all t) ∧ ∀ d, info = some d → t.chain = d) (Triple.pre
      (fetchDelegateInfo_triple hio (fun t d hd ht => ⟨ht.1, ht.2.1, ht.2.2.elapse hd⟩) .all) ?_)
    fun info => Triple.pure ?_
  · rintro t ⟨rfl, ht⟩
    exact ⟨ht.tracks.agrees, fun role => ht.todo role (mem_all role), ht⟩
  · rintro t ⟨⟨hagrees, hsecret, ht⟩, hchain⟩
    refine ⟨ht, fun halready => ⟨ht.tracks, fun r hr => absurd hr List.not_mem_nil, fun r _ => ?_⟩⟩
    have htodo := (himported r).congr (ht.todo r (mem_all r))
    refine ht.tracks.done (ht.tracks.agrees.imported hio htodo) ?_
    cases info with
    | none => cases halready
    | some d =>
      have hset := List.all_eq_true.1 halready r (mem_all r)
      obtain ⟨hash, hlocal, hhash⟩ := (Option.any_eq_true _ _).1 hset
      rw [hagrees.localKeyHash hio ((himported r).congr (hsecret r)) hlocal] at hhash
      rw [hchain d rfl]
      exact (roleKeySetOnChain_iff (hio.ne_empty r)).1 hhash

/-- The keys that the signer answers. -/
def Answers (keys : KeyRole → String) (remoteKeys : List String) : Prop :=
  ∀ role : KeyRole, remoteKeys[role.index]? = some (keys role)

/-- A list of at least two keys begins with those of the roles. -/
theorem Faces.answers (hio : Faces io keys) {n : Nat} {remoteKeys : List String}
    (h : atLeastTwo (io.remoteKeys n) = some remoteKeys) : Answers keys remoteKeys := by
  cases hkeys : io.remoteKeys n with
  | error e =>
    rw [hkeys] at h
    cases h
  | ok remoteKeys' =>
    rw [hkeys, atLeastTwo] at h
    split at h
    · rename_i hlength
      cases h
      exact hio.signer n _ hkeys hlength
    · cases h

/-- Waiting for the signer changes nothing, and ends with its keys. -/
theorem waitForSigner_triple {P E : KeySetup → Prop} (hio : Faces io keys)
    (hP : ∀ t, P t → E t) :
    Triple P (waitForSigner io) (fun remoteKeys t => Answers keys remoteKeys ∧ P t) E := by
  unfold waitForSigner
  split
  · rename_i remoteKeys hkeys
    refine Triple.pure fun t ht => ⟨?_, ht⟩
    rcases Option.or_eq_some_iff.1 hkeys with hkeys | ⟨-, hkeys⟩
    · exact hio.answers hkeys
    · exact hio.answers hkeys
  · split
    · exact Triple.throw hP
    · split
      · exact Triple.throw hP
      · exact Triple.throw hP
      · exact Triple.throw hP
      · split
        · rename_i remoteKeys hkeys
          exact Triple.pure fun t ht => ⟨hio.answers hkeys, ht⟩
        · exact Triple.throw hP

/-- The keys are taken in the order of the roles. -/
theorem keyOfRole_triple {P E : KeySetup → Prop} {remoteKeys : List String}
    (hkeys : Answers keys remoteKeys) (hP : ∀ t, P t → E t) :
    Triple P (keyOfRole remoteKeys) (fun k t => k = keys ∧ P t) E := by
  unfold keyOfRole
  split
  · rename_i consensus companion _
    split
    · exact Triple.throw hP
    · refine Triple.pure fun t ht => ⟨funext fun role => ?_, ht⟩
      cases role with
      | consensus => exact Option.some.inj (hkeys .consensus)
      | companion => exact Option.some.inj (hkeys .companion)
  · exact Triple.throw hP

/-- The validation changes nothing, and finds an entry of each role at the signer. -/
theorem validateImportedKeys_triple {P E : KeySetup → Prop} (hP : ∀ t, P t → E t) :
    Triple P (validateImportedKeys io) (fun _ t => P t ∧ ∀ role, ∃ value,
      t.secret role = some value ∧ mentions value io.signerIp = true) E := by
  unfold validateImportedKeys
  split
  · exact Triple.throw hP
  · dsimp only
    split
    · exact Triple.throw hP
    · refine Triple.bind_get fun u => ?_
      split
      · exact Triple.throw fun t ht => hP t ht.2
      · split
        · rename_i hall
          refine Triple.pure ?_
          rintro t ⟨rfl, ht⟩
          refine ⟨ht, fun role => ?_⟩
          exact (Option.any_eq_true _ _).1 (List.all_eq_true.1 hall role (mem_all role))
        · exact Triple.throw fun t ht => hP t ht.2

/-- The check of the code of an imported role. -/
theorem roleImported_iff {key : String} : roleImported io t key role = true ↔
    io.readable .imported = true ∧ ∃ value, t.secret role = some value ∧
      mentions value key = true ∧ mentions value io.signerIp = true := by
  rw [roleImported, Bool.and_eq_true, Option.any_eq_true]
  simp only [Bool.and_eq_true]

/-- From the keys of the signer on: all roles are done, and their entries are at the signer. -/
theorem discoverAndImportKeys_triple (hio : Faces io keys) (hs : Agrees s)
    (hdry : io.dryRun = false) {remoteKeys : List String} (hkeys : Answers keys remoteKeys) :
    Triple (fun t => t = s) (discoverAndImportKeys io remoteKeys)
      (fun _ t => Stage keys io s [] t ∧ ∀ role, ∃ value,
        t.secret role = some value ∧ mentions value io.signerIp = true) (Tracks keys io s) := by
  unfold discoverAndImportKeys
  rw [if_neg (by rw [hdry]; decide)]
  have hstart : ∀ t, t = s → Tracks keys io s t := by
    rintro t rfl
    exact .refl hs
  refine Triple.bind (keyOfRole_triple hkeys hstart) fun keys' => Triple.of_pre fun hkeys' => ?_
  subst hkeys'
  refine Triple.bind_get fun u => Triple.pre (P := fun t => u = s ∧ t = s) (Triple.of_pre ?_) ?_
  · rintro rfl
    have himported : ∀ role, roleImported io u (keys' role) role = true →
        ImportedAt keys' u role := by
      intro role himported
      obtain ⟨-, value, hvalue, hmentions, -⟩ := roleImported_iff.1 himported
      exact ⟨value, hvalue, hmentions⟩
    have hstage : ∀ t, t = u → Stage keys' io u KeyRole.all t := by
      rintro t rfl
      exact ⟨.refl hs, fun _ _ => rfl, fun r hr => absurd (mem_all r) hr⟩
    dsimp only
    refine Triple.bind (R := fun already t => Stage keys' io u KeyRole.all t ∧
      (already = true → Stage keys' io u [] t)) ?_ fun already => ?_
    · split
      · rename_i hall
        exact Triple.pre (allOnChain_triple hio fun role =>
          himported role (List.all_eq_true.1 hall role (mem_all role))) hstage
      · exact Triple.pure fun t ht => ⟨hstage t ht, fun h => by cases h⟩
    · split
      · rename_i halready
        exact Triple.pre (validateImportedKeys_triple fun _ ht => ht.tracks) fun _ ht =>
          ht.2 halready
      · exact Triple.bind (Triple.pre (importAndSetKeys_triple hio himported (by decide))
          fun _ ht => ht.1) fun _ => validateImportedKeys_triple fun _ ht => ht.tracks
  · rintro t ⟨rfl, rfl⟩
    exact ⟨rfl, rfl⟩

/-- A set-up: what it keeps however it ends, and what it comes to where it succeeds. -/
theorem setUpKeys_triple (hio : Faces io keys) (hs : Agrees s) (hdry : io.dryRun = false) :
    Triple (fun t => t = s) (setUpKeys io) (fun _ t => Stage keys io s [] t ∧
      ∀ role, ∃ value, t.secret role = some value ∧ mentions value io.signerIp = true)
      (Tracks keys io s) := by
  have hstart : ∀ t, t = s → Tracks keys io s t := by
    rintro t rfl
    exact .refl hs
  unfold setUpKeys
  refine Triple.bind (R := fun remoteKeys t => Answers keys remoteKeys ∧ t = s) ?_
    fun remoteKeys => Triple.of_pre fun hkeys => discoverAndImportKeys_triple hio hs hdry hkeys
  rw [if_neg (by rw [hdry]; decide)]
  exact waitForSigner_triple hio hstart

/-- A dry run does nothing. -/
theorem setUpKeys_dryRun (hdry : io.dryRun = true) : setUpKeys io s = .ok () s := by
  unfold setUpKeys discoverAndImportKeys
  rw [hdry]
  rfl

/-- However a set-up ends, it was on its way. -/
theorem setUpOf_tracks (hio : Faces io keys) (hs : Agrees s) : Tracks keys io s (setUpOf io s) := by
  cases hdry : io.dryRun with
  | true =>
    have hsame : setUpOf io s = s := by
      unfold setUpOf final EStateM.run
      rw [setUpKeys_dryRun hdry]
    rw [hsame]
    exact .refl hs
  | false =>
    exact Triple.final ((setUpKeys_triple hio hs hdry).post fun _ _ ht => ht.1.tracks) rfl

/-! ## A set-up after one -/

/-- The keys of the signer are set up: the aliases are at them, in the wallet of this address, and
on the chain nothing is to come after them. -/
def IsSetUp (keys : KeyRole → String) (signerIp : String) (t : KeySetup) : Prop :=
  ∀ role, t.wallet.hash (.live role) = some (keys role) ∧
    (t.chain.key role).newest = some (keys role) ∧
    ∃ value, t.secret role = some value ∧ mentions value (keys role) = true ∧
      mentions value signerIp = true

/-- No other key is pending behind one of the signer's. -/
def Unsuperseded (keys : KeyRole → String) (s : KeySetup) : Prop :=
  ∀ role, Holds s.chain role (keys role) → (s.chain.key role).newest = some (keys role)

/-- The chain and the wallet can be read. -/
def Answered (io : KeySetupIo) : Prop :=
  io.readable .imported = true ∧ ∀ p d, (io.observe p d).isSome = true

/-- With all roles done the keys are set up, if no others were pending behind them. -/
theorem isSetUp_of_done (hs : Unsuperseded keys s) {signerIp : String}
    (hstage : Stage keys io s [] t) (hip : ∀ role, ∃ value, t.secret role = some value ∧
      mentions value signerIp = true) : IsSetUp keys signerIp t := by
  intro role
  obtain ⟨⟨hhash, value, hvalue, hmentions⟩, hset⟩ := hstage.done role List.not_mem_nil
  refine ⟨hhash, ?_, value, hvalue, hmentions, ?_⟩
  · rcases hset with hholds | hnewest
    · rcases hstage.tracks.kept.newest role with hsame | hnewest
      · exact hsame.trans (hs role hholds)
      · exact hnewest
    · exact hnewest
  · obtain ⟨value', hvalue', hmentions'⟩ := hip role
    cases hvalue.symm.trans hvalue'
    exact hmentions'

/-- Nothing but time has passed since `s`. -/
structure Unchanged (keys : KeyRole → String) (s t : KeySetup) : Prop where
  wallet : t.wallet = s.wallet
  accepted : t.accepted = s.accepted
  copies : t.copies = s.copies
  newest : ∀ role, (t.chain.key role).newest = some (keys role)

/-- Time changes nothing of what a set-up does. -/
theorem Unchanged.elapse {d : Delegate} (h : Unchanged keys s t) (hd : t.chain.Elapses d) :
    Unchanged keys s { t with chain := d } :=
  ⟨h.wallet, h.accepted, h.copies, fun role => (hd role).newest.trans (h.newest role)⟩

/-- A role whose key is imported and on the chain is left alone. -/
theorem importAndSetKey_unchanged (hio : Faces io keys) (hanswered : Answered io)
    (hs : s.wallet.hash (.live role) = some (keys role)) :
    Keeps (Unchanged keys s) (importAndSetKey io role (keys role) true) := by
  unfold importAndSetKey
  refine Triple.bind (R := fun _ => Unchanged keys s) ?_ fun force => ?_
  · unfold confirmOverwrite
    refine Triple.bind_get fun u => ?_
    rw [Bool.not_true, Bool.false_and, Bool.false_and, if_neg Bool.false_ne_true]
    exact Triple.pure fun _ ht => ht.2
  rw [if_pos rfl]
  refine Triple.bind (R := fun _ => Unchanged keys s) (Triple.pure fun _ => id) fun _ => ?_
  refine Triple.bind (R := fun pkh t => pkh = keys role ∧ Unchanged keys s t) ?_ fun pkh =>
    Triple.of_pre fun hpkh => ?_
  · unfold getKeyHash
    refine Triple.bind_get fun u => ?_
    split
    · rename_i hash hhash
      refine Triple.pure ?_
      rintro t ⟨rfl, ht⟩
      rw [ht.wallet, hs] at hhash
      exact ⟨(Option.some.inj hhash).symm, ht⟩
    · exact Triple.throw fun _ ht => ht.2
  subst hpkh
  unfold fetchDelegateInfo
  rw [bind_assoc]
  refine Triple.bind_get fun u => ?_
  obtain ⟨d, hd⟩ := Option.isSome_iff_exists.1 (hanswered.2 (.of role) u.chain)
  rw [hd]
  dsimp only
  rw [bind_assoc]
  refine Triple.bind (R := fun _ t => Unchanged keys s t ∧ t.chain = d) (Triple.modify ?_)
    fun _ => ?_
  · rintro t ⟨rfl, ht⟩
    exact ⟨ht.elapse (hio.truthful _ _ _ hd), rfl⟩
  rw [pure_bind]
  split
  · exact Triple.pure fun _ ht => ht.1
  · rename_i hunset
    rintro t ⟨ht, rfl⟩
    refine absurd ?_ hunset
    exact (roleKeySetOnChain_iff (hio.ne_empty role)).2 (.of_newest (ht.newest role))

/-- So are all of them. -/
theorem importAndSetKeys_unchanged (hio : Faces io keys) (hanswered : Answered io)
    (hs : ∀ role, s.wallet.hash (.live role) = some (keys role)) {imported : KeyRole → Bool}
    (himported : ∀ role, imported role = true) : ∀ roles : List KeyRole,
    Keeps (Unchanged keys s) (importAndSetKeys io keys imported roles)
  | [] => .pure ()
  | role :: roles => by
    unfold importAndSetKeys
    rw [himported role]
    exact (importAndSetKey_unchanged hio hanswered (hs role)).bind fun _ =>
      importAndSetKeys_unchanged hio hanswered hs himported roles

/-- A set-up of keys that are set up changes nothing. -/
theorem setUpKeys_unchanged (hio : Faces io keys) (hanswered : Answered io)
    (hs : IsSetUp keys io.signerIp s) : Triple (fun t => t = s) (setUpKeys io)
      (fun _ => Unchanged keys s) (Unchanged keys s) := by
  have hstart : ∀ t, t = s → Unchanged keys s t := by
    rintro t rfl
    exact ⟨rfl, rfl, rfl, fun role => (hs role).2.1⟩
  cases hdry : io.dryRun with
  | true =>
    rintro t rfl
    have hrun : (setUpKeys io).run t = .ok () t := setUpKeys_dryRun hdry
    rw [hrun]
    exact hstart t rfl
  | false =>
    have hvalidate : Keeps (Unchanged keys s) (validateImportedKeys io) :=
      (validateImportedKeys_triple fun _ => id).post fun _ _ ht => ht.1
    unfold setUpKeys discoverAndImportKeys
    rw [if_neg (by rw [hdry]; decide)]
    refine Triple.bind (waitForSigner_triple hio hstart) fun remoteKeys =>
      Triple.of_pre fun hkeys => ?_
    rw [if_neg (by rw [hdry]; decide)]
    refine Triple.bind (keyOfRole_triple hkeys hstart) fun keys' => Triple.of_pre fun hkeys' => ?_
    subst hkeys'
    refine Triple.bind_get fun u => Triple.pre (P := fun t => u = s ∧ t = s) (Triple.of_pre ?_) ?_
    · rintro rfl
      have himported : ∀ role, roleImported io u (keys' role) role = true := fun role =>
        roleImported_iff.2 ⟨hanswered.1, (hs role).2.2⟩
      dsimp only
      rw [if_pos (List.all_eq_true.2 fun role _ => himported role)]
      refine Triple.bind (R := fun _ => Unchanged keys' u) ?_ fun already => ?_
      · unfold allOnChain
        refine Triple.bind_get fun v => Triple.pre ?_ fun t ht => hstart t ht.2
        exact Triple.bind (fetchDelegateInfo_triple hio (fun t d hd ht => ht.elapse hd) .all)
          fun info => Triple.pure fun _ ht => ht.1
      · split
        · exact hvalidate
        · exact (importAndSetKeys_unchanged hio hanswered (fun role => (hs role).1) himported
            KeyRole.all).bind fun _ => hvalidate
    · rintro t ⟨rfl, rfl⟩
      exact ⟨rfl, rfl⟩

/-! ## Set-up after set-up -/

/-- What a set-up from `s` comes to. However it ends it keeps what it should; where it succeeds the
keys of the signer are set up, if no other keys were pending behind them; and where they were set up
before, it does nothing. -/
structure Outcome (keys : KeyRole → String) (io : KeySetupIo) (s : KeySetup) : Prop where
  kept : Kept keys io s (setUpOf io s)
  completed : io.dryRun = false → Unsuperseded keys s → ∀ t, (setUpKeys io).run s = .ok () t →
    IsSetUp keys io.signerIp t
  again : IsSetUp keys io.signerIp s → Answered io → (setUpOf io s).wallet = s.wallet ∧
    (setUpOf io s).accepted = s.accepted ∧ (setUpOf io s).copies = s.copies ∧
    IsSetUp keys io.signerIp (setUpOf io s)

/-- **One set-up** keeps what it should, completes what it began, and repeats nothing. -/
theorem outcome (hio : Faces io keys) (hs : Agrees s) : Outcome keys io s where
  kept := (setUpOf_tracks hio hs).kept
  completed := fun hdry hnewest t hrun => by
    have hdone := setUpKeys_triple hio hs hdry s rfl
    rw [hrun] at hdone
    exact isSetUp_of_done hnewest hdone.1 hdone.2
  again := fun hset hanswered => by
    have hsame : Unchanged keys s (setUpOf io s) :=
      Triple.final (setUpKeys_unchanged hio hanswered hset) rfl
    refine ⟨hsame.wallet, hsame.accepted, hsame.copies, fun role => ?_⟩
    obtain ⟨hhash, -, hsecret⟩ := hset role
    refine ⟨?_, hsame.newest role, ?_⟩
    · rw [hsame.wallet]
      exact hhash
    · rw [secret, hsame.wallet]
      exact hsecret

/-- **Setting up the keys.** Let the files of the wallet agree on the live aliases (`Agrees`). In
any number of set-ups with one signer and a chain that reports what is so, whose two backups differ
in their second (`Faces`), each agreed to or not by the operator and cut off anywhere: only the live
aliases change, and to the keys of the signer, only these are submitted, and a secret key that is
replaced is in a copy that the operator agreed to; a set-up that succeeds has both keys in the
wallet and on the chain, if no others were pending behind them; and the next one does nothing. -/
theorem key_setup {ios : List KeySetupIo} (hs : Agrees s) (hios : ∀ io ∈ ios, Faces io keys) :
    Automaton.Along step (fun s io => Outcome keys io s) s ios := by
  refine Automaton.Along.of_invariant (I := Agrees) (G := fun _ io => Faces io keys) ?_ ?_ hs
    (Automaton.along_of_forall s hios)
  · rintro s io t hs hio hstep
    cases hstep
    exact (setUpOf_tracks hio hs).agrees
  · exact fun s io hs hio => outcome hio hs

/-- A baker that is new to the signer. -/
def newBaker : KeySetup where
  wallet := {
    publicKeyHashs := some ⟨[("baker", "tz1"), ("russignol-consensus", "tz4" ++ String.ofList
      (List.replicate 33 'a'))], by decide⟩
    publicKeys := none
    secretKeys := some ⟨[("russignol-consensus", "tcp://169.254.1.1:7732/tz4" ++ String.ofList
      (List.replicate 33 'a'))], by decide⟩ }
  chain := ⟨perRole ⟨some "tz1", []⟩ ⟨none, []⟩⟩
  accepted := []
  copies := fun _ => none

/-- The keys of a signer. -/
def newSignerKeys : KeyRole → String :=
  perRole ("tz4" ++ String.ofList (List.replicate 33 'b'))
    ("tz4" ++ String.ofList (List.replicate 33 'c'))

/-- A set-up in which the command for a key transaction may end anyhow. -/
def newSignerIo (setKey : KeyRole → CommandEnd) : KeySetupIo where
  dryRun := false
  autoConfirm := true
  signerUri := "tcp://169.254.1.1:7732"
  secretKeysFile := "secret_keys"
  remoteKeys := fun _ => .ok [newSignerKeys .consensus, newSignerKeys .companion]
  retry := .yes
  readable := fun _ => true
  observe := fun _ => some
  overwrite := fun _ => .yes
  stamp := perRole "20260101-000000" "20260101-000007"
  copy := fun _ => .done
  importKey := fun _ => .done
  aliasTaken := "already exists"
  setKey := fun role _ => setKey role
  activationCycle := fun _ => 3
  knownAddresses := .ok ("russignol-companion: tz4 (tcp sk known)\n" ++
    "russignol-consensus: tz4 (tcp sk known)\n")

/-- The answers of the signer are true where no key transaction is refused without effect. -/
theorem newSignerIo_faces {setKey : KeyRole → CommandEnd}
    (h : ∀ role stderr, setKey role ≠ .refused stderr false) :
    Faces (newSignerIo setKey) newSignerKeys where
  signer := by
    rintro n remoteKeys ⟨⟩ - role
    cases role <;> rfl
  hash := fun role => by
    cases role
    · exact ⟨by decide +kernel, by decide +kernel, by decide +kernel⟩
    · exact ⟨by decide +kernel, by decide +kernel, by decide +kernel⟩
  uri := (by decide +kernel : mentions "tcp://169.254.1.1:7732" "tz4" = false)
  truthful := by
    rintro p d d' ⟨⟩ role
    exact ⟨[], rfl, rfl⟩
  refusal := fun role d stderr hrefused => absurd hrefused (h role stderr)
  stamps := (by decide : "20260101-000000" ≠ "20260101-000007")

/-- The files of the new wallet agree. -/
theorem newBaker_agrees : Agrees newBaker := by
  intro role value hvalue
  cases role with
  | consensus =>
    cases hvalue
    refine .inr ⟨_, ⟨"tcp://169.254.1.1:7732", ?_, ⟨?_, ?_, ?_⟩, ?_⟩, rfl⟩ <;> decide +kernel
  | companion => cases hvalue

/-- A set-up that is killed after its first transaction, and one that goes through. -/
theorem key_setup_killed : Automaton.Along step (fun s io => Outcome newSignerKeys io s) newBaker
    [newSignerIo (perRole (.killed true) .done), newSignerIo fun _ => .done] := by
  refine key_setup newBaker_agrees fun io hio => ?_
  rcases List.mem_cons.1 hio with rfl | hio
  · exact newSignerIo_faces fun role stderr h => by cases role <;> cases h
  · rw [List.mem_singleton.1 hio]
    exact newSignerIo_faces fun role stderr h => by cases h

end KeySetup

end Russignol.Host
