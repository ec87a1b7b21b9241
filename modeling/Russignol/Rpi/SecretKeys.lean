import Mathlib.Data.Nat.Digits.Lemmas
import Russignol.Host.MigratedRoles
import Russignol.Signer.ListKeys

/-!
# The document of the secret keys

`build_secret_keys_json` (`rpi-signer/src/main.rs`) writes the generated keys into the text that is
encrypted, and `parse_secret_keys` (`rpi-signer/src/signer_server.rs`) makes the key manager of the
text that was decrypted. The aliases are written with escapes; the secrets are written as they are,
and the loader borrows them from the text, which refuses one that is spelled with an escape.

The document of some keys is the text without spaces of their entries (`buildSecretKeysJson_eq`),
whatever their aliases, so it is read back; `secretKeys_roundTrip` says which lists of keys the
loader then holds.
-/

namespace Russignol

open Bytes (Fixed)

namespace Unencrypted

variable [Base58] [BlsSecret]

omit [BlsSecret] in
/-- `secret_key().to_b58check()`. -/
def skB58 (u : Unencrypted) : String := Base58check.encode Bls.blskPrefix u.secretKey.1

omit [Base58] in
/-- `public_key_hash`. -/
def publicKeyHash (u : Unencrypted) : PublicKeyHash := ⟨BlsSecret.blake2b20 u.publicKey.1⟩

end Unencrypted

namespace SecretKeys

open Host (unencryptedPrefix stripStart)

/-! ## The writer -/

/-- `StoredKey`. -/
structure StoredKey where
  keyAlias : String
  publicKeyHash : String
  publicKey : String
  secretKey : Option String

/-- What `write_escaped` writes of a character. -/
def escapedChar (c : Char) : List Char :=
  if c = '"' then ['\\', '"']
  else if c = '\\' then ['\\', '\\']
  else if c.toNat < 0x20 then
    let digits := Nat.toDigits 16 c.toNat
    '\\' :: 'u' :: (List.replicate (4 - digits.length) '0' ++ digits)
  else [c]

/-- `write_escaped`. -/
def writeEscaped (s : String) : List Char := s.toList.flatMap escapedChar

/-- An entry of the document. -/
def writeEntry (keyAlias sk : String) : List Char :=
  "\x7b\"name\":\"".toList ++ writeEscaped keyAlias ++ "\",\"value\":\"unencrypted:".toList ++
    sk.toList ++ "\"\x7d".toList

/-- The loop of `build_secret_keys_json`: a key without its secret is left out. -/
def writeEntries (first : Bool) : List StoredKey → List Char
  | [] => []
  | key :: keys =>
    match key.secretKey with
    | none => writeEntries first keys
    | some sk =>
      (if first then [] else [',']) ++ writeEntry key.keyAlias sk ++ writeEntries false keys

/-- `build_secret_keys_json`. -/
def buildSecretKeysJson (keys : List StoredKey) : String :=
  String.ofList ('[' :: (writeEntries true keys ++ [']']))

/-! ## The loader -/

/-- `BorrowedKeyEntry`: the value stands in the text as it reads. -/
def borrowedKeyEntry (j spelled : Json) : Option (String × String) := do
  let field ← j.record ["name", "value"]
  let spelledField ← spelled.record ["name", "value"]
  let name ← Json.strField field "name"
  let value ← Json.strField field "value"
  if Json.strField spelledField "value" = some value then some (name, value) else none

/-- `Vec<BorrowedKeyEntry>`. -/
def borrowedKeyEntries (j spelled : Json) : Option (List (String × String)) := do
  let items ← j.asArr
  let spelledItems ← spelled.asArr
  (items.zip spelledItems).mapM fun item => borrowedKeyEntry item.1 item.2

section

variable [JsonText] [JsonSpelling] [Base58] [BlsSecret]

omit [Base58] [BlsSecret] in
/-- `serde_json::from_str`, of the entries. -/
def decodeEntries (text : String) : Except String (List (String × String)) := do
  let j ← JsonText.parse text
  let spelled ← JsonSpelling.spelled text
  match borrowedKeyEntries j spelled with
  | some entries => .ok entries
  | none => .error (JsonText.mismatch "a sequence" j)

omit [JsonText] [JsonSpelling] in
/-- The key of an entry is added to the manager, or the loading is aborted. -/
def loadEntry (m : KeyManager) (entry : String × String) : Except String KeyManager :=
  let skB58 := (stripStart unencryptedPrefix entry.2).getD entry.2
  match Unencrypted.fromB58check skB58 with
  | .ok signer => .ok (m.addSigner signer.publicKeyHash signer entry.1)
  | .error e => .error ("Failed to load key '" ++ entry.1 ++ "': " ++ e)

/-- `parse_secret_keys`. -/
def parseSecretKeys (secretKeysJson : String) : Except String KeyManager :=
  match decodeEntries secretKeysJson with
  | .error e => .error ("Failed to parse secret_keys JSON: " ++ e)
  | .ok entries =>
    if entries.isEmpty then .error "No keys found in secret_keys"
    else entries.foldlM loadEntry ⟨∅, ∅⟩

end

/-! ## Generated keys -/

/-- A key that was generated: the curve accepts its secret. -/
structure Generated [BlsSecret] where
  keyAlias : String
  signer : Unencrypted
  accepted : BlsSecret.check (Unencrypted.reversed signer.secretKey) = .ok ()

namespace Generated

variable [BlsSecret]

/-- What `gen_keys_in_memory` returns. -/
def stored [Base58] (g : Generated) : StoredKey where
  keyAlias := g.keyAlias
  publicKeyHash := g.signer.pkh
  publicKey := g.signer.pk
  secretKey := some g.signer.skB58

/-- The `add_signer` call of the key. -/
def call (g : Generated) : PublicKeyHash × Unencrypted × String :=
  (g.signer.publicKeyHash, g.signer, g.keyAlias)

end Generated

/-- A manager holds exactly some keys, each under its own alias. -/
structure Holds [BlsSecret] (m : KeyManager) (keys : List Generated) : Prop where
  signers : m.signers.entries.Perm (keys.map fun g => ⟨g.signer.publicKeyHash, g.signer⟩)
  keyNames : m.keyNames.entries.Perm (keys.map fun g => ⟨g.signer.publicKeyHash, g.keyAlias⟩)

/-- The document of some keys is loaded, and the manager holds exactly these. -/
def RoundTrips [JsonText] [JsonSpelling] [Base58] [BlsSecret] (keys : List Generated) : Prop :=
  ∃ m, parseSecretKeys (buildSecretKeysJson (keys.map Generated.stored)) = .ok m ∧ Holds m keys

end SecretKeys

/-! ## Base58 -/

/-- What is encoded is decoded. -/
class LawfulBase58Codec [Base58] : Prop where
  decode_encode : ∀ bytes : List UInt8, Base58.decode (Base58.encode bytes) = some bytes

/-- What is encoded with a checksum is decoded. -/
theorem Base58check.decode_encode [Base58] [LawfulBase58Codec] (pre data : List UInt8) :
    Base58check.decode (Base58check.encode pre data) pre = .ok data := by
  have hchecksum : ((computeChecksum (pre ++ data)).1.take 4).length = 4 := by
    rw [List.length_take, (computeChecksum (pre ++ data)).2]
    rfl
  have hlen : (pre ++ data ++ (computeChecksum (pre ++ data)).1.take 4).length =
      (pre ++ data).length + 4 := by rw [List.length_append, hchecksum]
  have hend : (pre ++ data ++ (computeChecksum (pre ++ data)).1.take 4).length - 4 =
      (pre ++ data).length := by omega
  have hlong : ¬ (pre ++ data ++ (computeChecksum (pre ++ data)).1.take 4).length <
      pre.length + 4 := by
    rw [hlen, List.length_append]
    omega
  have hpre : (pre ++ data ++ (computeChecksum (pre ++ data)).1.take 4).take pre.length = pre := by
    rw [List.append_assoc, List.take_left]
  unfold Base58check.encode Base58check.decode
  dsimp only
  rw [LawfulBase58Codec.decode_encode]
  dsimp only
  rw [if_neg hlong, if_neg (not_not.2 hpre), hend, List.take_left, List.drop_left,
    if_neg (not_not.2 rfl), List.drop_left]

namespace SecretKeys

open Host (unencryptedPrefix stripStart flatMap_plain)

section

variable [Base58]

/-- The characters of a secret are base58. -/
theorem isBase58_skB58 [LawfulBase58] [LawfulBase58Codec] (u : Unencrypted) :
    ∀ c ∈ u.skB58.toList, isBase58 c = true :=
  LawfulBase58.alphabet _ _ (LawfulBase58Codec.decode_encode _)

variable [BlsSecret]

/-- The secret of a generated key is read back. -/
theorem fromB58check_skB58 [LawfulBase58Codec] (g : Generated) :
    Unencrypted.fromB58check g.signer.skB58 = .ok g.signer := by
  have hbytes : Unencrypted.fromBytes g.signer.secretKey.1 = .ok g.signer := by
    rw [Unencrypted.fromBytes, dif_pos g.signer.secretKey.2, g.accepted]
    rfl
  rw [Unencrypted.fromB58check, Unencrypted.skB58, Base58check.decode_encode]
  show (Unencrypted.fromBytes g.signer.secretKey.1).mapError _ = _
  rw [hbytes]
  rfl

end

/-! ## What is written -/

/-- `write_escaped` writes each character as JSON reads it. -/
theorem escapedChar_spells (c : Char) : Json.Spells c (escapedChar c) := by
  unfold escapedChar
  split_ifs with hquote hback hcontrol
  · exact .inr ⟨['"'], rfl, fun rest => by rw [hquote]; rfl⟩
  · exact .inr ⟨['\\'], rfl, fun rest => by rw [hback]; rfl⟩
  · have hdigits : ∀ n < 32, List.replicate (4 - (Nat.toDigits 16 n).length) '0' ++
        Nat.toDigits 16 n = ['0', '0', Json.hexDigit (n / 16), Json.hexDigit (n % 16)] := by
      decide
    dsimp only
    rw [hdigits c.toNat hcontrol]
    exact Json.spells_hex (by omega)
  · exact .inl ⟨rfl, hquote, hback, hcontrol⟩

/-- A character of base58 needs no escape. -/
theorem escapedChar_base58 {c : Char} (h : isBase58 c = true) : escapedChar c = [c] := by
  have hc := Host.toNat_of_base58 h
  rw [escapedChar, if_neg (Host.ne_of_base58 h (by decide)),
    if_neg (Host.ne_of_base58 h (by decide)), if_neg (by omega)]

/-- An entry of the document. -/
def entryJson (keyAlias value : String) : Json :=
  .obj [("name", .str keyAlias), ("value", .str value)]

/-- The text of an entry without spaces. -/
theorem compactWith_entry (keyAlias value : String) :
    (entryJson keyAlias value).compactWith escapedChar =
      "\x7b\"name\":\"".toList ++ writeEscaped keyAlias ++ "\",\"value\":\"".toList ++
        writeEscaped value ++ "\"\x7d".toList := by
  have hname : Json.spellStr escapedChar "name" = ['"', 'n', 'a', 'm', 'e', '"'] := by decide
  have hvalue : Json.spellStr escapedChar "value" = ['"', 'v', 'a', 'l', 'u', 'e', '"'] := by decide
  have hspell : ∀ s, '"' :: (writeEscaped s ++ ['"']) = Json.spellStr escapedChar s := fun _ => rfl
  simp only [entryJson, Json.compactWith, Json.compactFieldsWith, hname, hvalue, ← hspell]
  simp

/-- An entry is written as JSON is without spaces, if its secret needs no escape. -/
theorem writeEntry_eq {sk : String} (h : ∀ c ∈ sk.toList, escapedChar c = [c])
    (keyAlias : String) : writeEntry keyAlias sk =
      (entryJson keyAlias (unencryptedPrefix ++ sk)).compactWith escapedChar := by
  have hvalue : writeEscaped (unencryptedPrefix ++ sk) = "unencrypted:".toList ++ sk.toList := by
    rw [writeEscaped, String.toList_append, List.flatMap_append, flatMap_plain h]
    rfl
  have hmiddle : "\",\"value\":\"unencrypted:".toList =
      "\",\"value\":\"".toList ++ "unencrypted:".toList := by simp
  rw [compactWith_entry, hvalue]
  refine (congrArg (fun middle => "\x7b\"name\":\"".toList ++ writeEscaped keyAlias ++ middle ++
    sk.toList ++ "\"\x7d".toList) hmiddle).trans ?_
  simp only [List.append_assoc]

section

variable [Base58] [BlsSecret]

/-- The entry of a generated key. -/
def Generated.entry (g : Generated) : String × String :=
  (g.keyAlias, unencryptedPrefix ++ g.signer.skB58)

/-- The document of some keys, as a tree. -/
def document (keys : List Generated) : Json :=
  .arr (keys.map fun g => entryJson g.entry.1 g.entry.2)

/-- The document is no deeper than a reader goes. -/
theorem document_writable (keys : List Generated) : (document keys).writable 127 = true := by
  rw [document, Json.writable, List.all_map]
  refine List.all_eq_true.2 fun g _ => ?_
  simp [entryJson, Json.writable]

variable [LawfulBase58] [LawfulBase58Codec]

/-- The secret of a key needs no escape. -/
theorem escapedChar_skB58 (g : Generated) :
    ∀ c ∈ g.signer.skB58.toList, escapedChar c = [c] :=
  fun c hc => escapedChar_base58 (isBase58_skB58 g.signer c hc)

/-- The entries after the first are written as JSON is without spaces. -/
theorem writeEntries_rest (keys : List Generated) :
    writeEntries false (keys.map Generated.stored) ++ [']'] =
      Json.compactItemsWith escapedChar (keys.map fun g => entryJson g.entry.1 g.entry.2) := by
  induction keys with
  | nil => rfl
  | cons g keys ih =>
    rw [List.map_cons, List.map_cons, Json.compactItemsWith, ← ih]
    show [','] ++ writeEntry g.keyAlias g.signer.skB58 ++ _ ++ _ = _
    rw [writeEntry_eq (escapedChar_skB58 g), List.append_assoc]
    rfl

/-- **The document is JSON without spaces**, whatever the aliases. -/
theorem buildSecretKeysJson_eq (keys : List Generated) :
    buildSecretKeysJson (keys.map Generated.stored) =
      String.ofList ((document keys).compactWith escapedChar) := by
  cases keys with
  | nil => rfl
  | cons g keys =>
    refine congrArg String.ofList ?_
    rw [document, List.map_cons, List.map_cons, Json.compactWith, ← writeEntries_rest]
    show '[' :: ([] ++ writeEntry g.keyAlias g.signer.skB58 ++ _ ++ _) = _
    rw [writeEntry_eq (escapedChar_skB58 g), List.nil_append, List.append_assoc]
    rfl

/-! ## What is loaded -/

/-- A value is spelled as it reads. -/
theorem flatMap_value (g : Generated) :
    g.entry.2.toList.flatMap escapedChar = g.entry.2.toList := by
  rw [Generated.entry, String.toList_append, List.flatMap_append,
    flatMap_plain (escapedChar_skB58 g)]
  rfl

/-- The entry of a key is borrowed. -/
theorem borrowedKeyEntry_entry (g : Generated) :
    borrowedKeyEntry (entryJson g.entry.1 g.entry.2)
      ((entryJson g.entry.1 g.entry.2).mapStr (·.flatMap escapedChar)) = some g.entry := by
  have hspelled : (entryJson g.entry.1 g.entry.2).mapStr (·.flatMap escapedChar) =
      .obj [("name", .str (String.ofList (g.entry.1.toList.flatMap escapedChar))),
        ("value", .str g.entry.2)] := by
    simp only [entryJson, Json.mapStr, Json.mapStrFields, flatMap_value, String.ofList_toList]
  rw [hspelled]
  have hnodup : ["name", "value"].Nodup := by decide
  have hrecord : ∀ a b : Json, Json.record ["name", "value"] (.obj [("name", a), ("value", b)]) =
      some fun name => [("name", a), ("value", b)].lookup name := fun a b =>
    Json.record_obj _ hnodup
  simp only [borrowedKeyEntry, entryJson, hrecord, Option.bind_eq_bind, Option.bind_some]
  have hname : ∀ a b : Json, [("name", a), ("value", b)].lookup "name" = some a := fun _ _ => rfl
  have hvalue : ∀ a b : Json, [("name", a), ("value", b)].lookup "value" = some b :=
    fun _ _ => rfl
  simp only [Json.strField, hname, hvalue, Option.bind_some, Json.asStr, if_true]

/-- The document is decoded into the entries. -/
theorem borrowedKeyEntries_document (keys : List Generated) :
    borrowedKeyEntries (document keys) ((document keys).mapStr (·.flatMap escapedChar)) =
      some (keys.map Generated.entry) := by
  have hentries : ∀ keys : List Generated,
      ((keys.map fun g => entryJson g.entry.1 g.entry.2).zip
        (Json.mapStrItems (·.flatMap escapedChar)
          (keys.map fun g => entryJson g.entry.1 g.entry.2))).mapM
            (fun item => borrowedKeyEntry item.1 item.2) = some (keys.map Generated.entry) := by
    intro keys
    induction keys with
    | nil => rfl
    | cons g keys ih =>
      rw [List.map_cons, Json.mapStrItems, List.zip_cons_cons, List.mapM_cons, ih,
        borrowedKeyEntry_entry]
      rfl
  rw [borrowedKeyEntries, document, Json.mapStr]
  exact hentries keys

omit [LawfulBase58] in
/-- The entry of a key is loaded. -/
theorem loadEntry_entry (m : KeyManager) (g : Generated) :
    loadEntry m g.entry = .ok (m.addSigner g.call.1 g.call.2.1 g.call.2.2) := by
  have hstrip : stripStart unencryptedPrefix (unencryptedPrefix ++ g.signer.skB58) =
      some g.signer.skB58 := by
    rw [stripStart, String.toList_append, if_pos (List.prefix_append ..),
      show unencryptedPrefix.length = unencryptedPrefix.toList.length from rfl, List.drop_left,
      String.ofList_toList]
  rw [loadEntry, Generated.entry, hstrip, Option.getD_some, fromB58check_skB58]
  rfl

omit [LawfulBase58] in
/-- The entries of the keys are loaded one after another. -/
theorem foldlM_loadEntry (keys : List Generated) : ∀ m : KeyManager,
    (keys.map Generated.entry).foldlM loadEntry m =
      .ok ((keys.map Generated.call).foldl (fun m call => m.addSigner call.1 call.2.1 call.2.2) m) := by
  induction keys with
  | nil => exact fun _ => rfl
  | cons g keys ih =>
    intro m
    rw [List.map_cons, List.map_cons, List.foldlM_cons, loadEntry_entry, List.foldl_cons]
    exact ih _

variable [JsonText] [JsonSpelling] [LawfulJsonSpelling]

/-- **What the loader makes of the document**: the calls of the keys in their order, or the refusal
of the empty one. -/
theorem parseSecretKeys_built (keys : List Generated) :
    parseSecretKeys (buildSecretKeysJson (keys.map Generated.stored)) =
      if keys = [] then .error "No keys found in secret_keys"
      else .ok (KeyManager.ofCalls (keys.map Generated.call)) := by
  have hparse := LawfulJsonSpelling.parse_compactWith _ escapedChar_spells _
    (document_writable keys)
  have hspelled := LawfulJsonSpelling.spelled_compactWith _ escapedChar_spells _
    (document_writable keys)
  have hentries : decodeEntries (buildSecretKeysJson (keys.map Generated.stored)) =
      .ok (keys.map Generated.entry) := by
    rw [decodeEntries, buildSecretKeysJson_eq, hparse, hspelled]
    show (match borrowedKeyEntries _ _ with
      | some entries => Except.ok entries
      | none => Except.error _) = _
    rw [borrowedKeyEntries_document]
  rw [parseSecretKeys, hentries]
  cases keys with
  | nil => rfl
  | cons g keys => exact foldlM_loadEntry (g :: keys) _

end

/-! ## Which keys are held -/

section

/-- A map with a new key. -/
theorem insert_entries {β : PublicKeyHash → Type} {m : AList β} {entries : List (Sigma β)}
    (h : m.entries.Perm entries) {pkh : PublicKeyHash} (hnew : pkh ∉ entries.map Sigma.fst)
    (b : β pkh) : (m.insert pkh b).entries.Perm (entries ++ [⟨pkh, b⟩]) := by
  have hnot : pkh ∉ m := fun hmem => hnew ((h.map Sigma.fst).subset hmem)
  rw [AList.entries_insert_of_notMem hnot]
  exact (h.cons _).trans (List.perm_append_singleton _ _).symm

/-- The maps after calls for different keys. -/
theorem ofCalls_entries {calls : List (PublicKeyHash × Unencrypted × String)}
    (h : (calls.map (·.1)).Nodup) :
    (KeyManager.ofCalls calls).signers.entries.Perm (calls.map fun call => ⟨call.1, call.2.1⟩) ∧
      (KeyManager.ofCalls calls).keyNames.entries.Perm
        (calls.map fun call => ⟨call.1, call.2.2⟩) := by
  induction calls using List.reverseRecOn with
  | nil => exact ⟨.refl _, .refl _⟩
  | append_singleton calls call ih =>
    rw [List.map_append, List.nodup_append] at h
    obtain ⟨hcalls, -, hdisjoint⟩ := h
    obtain ⟨hsigners, hnames⟩ := ih hcalls
    have hstep : KeyManager.ofCalls (calls ++ [call]) =
        (KeyManager.ofCalls calls).addSigner call.1 call.2.1 call.2.2 := List.foldl_concat ..
    have hnew : call.1 ∉ calls.map (·.1) := fun hmem =>
      hdisjoint _ hmem _ (List.mem_singleton_self _) rfl
    rw [hstep, List.map_append, List.map_append]
    refine ⟨insert_entries hsigners ?_ _, insert_entries hnames ?_ _⟩
    · rwa [List.map_map]
    · rwa [List.map_map]

variable [BlsSecret]

/-- **The manager holds exactly the keys** where no two have the same hash. -/
theorem holds_iff (keys : List Generated) :
    Holds (KeyManager.ofCalls (keys.map Generated.call)) keys ↔
      (keys.map (·.signer.publicKeyHash)).Nodup := by
  constructor
  · intro h
    have hkeys := (h.signers.map Sigma.fst).nodup (AList.keys_nodup _)
    rwa [List.map_map] at hkeys
  · intro h
    obtain ⟨hsigners, hnames⟩ := @ofCalls_entries (keys.map Generated.call)
      (by rwa [List.map_map])
    rw [List.map_map] at hsigners hnames
    exact ⟨hsigners, hnames⟩

variable [JsonText] [JsonSpelling] [LawfulJsonSpelling] [Base58] [LawfulBase58]
  [LawfulBase58Codec]

/-- **The document round trips** for the lists that name some key and no address twice. The loader
refuses the empty one, and takes any other, in which the last of two keys with an address stays. -/
theorem secretKeys_roundTrip (keys : List Generated) :
    (RoundTrips keys ↔ keys ≠ [] ∧ (keys.map (·.signer.publicKeyHash)).Nodup) ∧
      parseSecretKeys (buildSecretKeysJson (keys.map Generated.stored)) =
        if keys = [] then .error "No keys found in secret_keys"
        else .ok (KeyManager.ofCalls (keys.map Generated.call)) := by
  refine ⟨?_, parseSecretKeys_built keys⟩
  rw [RoundTrips, parseSecretKeys_built]
  by_cases hempty : keys = []
  · rw [if_pos hempty]
    exact iff_of_false (fun ⟨_, hm, _⟩ => nomatch hm) fun h => h.1 hempty
  · rw [if_neg hempty, ← holds_iff]
    constructor
    · rintro ⟨m, ⟨⟩, hholds⟩
      exact ⟨hempty, hholds⟩
    · rintro ⟨-, hholds⟩
      exact ⟨_, rfl, hholds⟩

end

/-! ### Two keys -/

/-- The digits of a byte string after its leading zeros, most significant first. -/
def base58Digits (bytes : List UInt8) : List Nat :=
  (Nat.digits 58 (Nat.ofDigits 256 (bytes.reverse.map UInt8.toNat))).reverse

/-- The bytes of digits after their leading zeros, most significant first. -/
def base58Bytes (digits : List Nat) : List UInt8 :=
  (Nat.digits 256 (Nat.ofDigits 58 digits.reverse)).reverse.map UInt8.ofNat

/-- Base58 with a checksum of zeros: a leading zero is a leading one. -/
@[reducible] def leadingBase58 : Base58 where
  sha256 _ := Bytes.zeros 32
  encode bytes := String.ofList ((bytes.takeWhile (· = 0)).map fun _ => '1') ++
    String.ofList ((base58Digits (bytes.dropWhile (· = 0))).map
      (Host.base58Alphabet.getD · '1'))
  decode s :=
    if s.toList.all (· ∈ Host.base58Alphabet) then
      some ((s.toList.takeWhile (· = '1')).map (fun _ => 0) ++
        base58Bytes ((s.toList.dropWhile (· = '1')).map Host.base58Alphabet.idxOf))
    else none
  encodeCheck _ := ""
  decodeCheck _ := none

/-- Digits are read as they are written. -/
theorem idxOf_base58 : ∀ d < 58, Host.base58Alphabet.idxOf (Host.base58Alphabet.getD d '1') = d ∧
    Host.base58Alphabet.getD d '1' ∈ Host.base58Alphabet ∧
      (d ≠ 0 → Host.base58Alphabet.getD d '1' ≠ '1') := by
  decide +kernel

/-- A byte string that starts with no zero is that of its digits. -/
theorem base58Bytes_digits {bytes : List UInt8} (h : ∀ b ∈ bytes.head?, b ≠ 0) :
    base58Bytes (base58Digits bytes) = bytes := by
  have hsmall : ∀ d ∈ bytes.reverse.map UInt8.toNat, d < 256 := by
    intro d hd
    obtain ⟨b, -, rfl⟩ := List.mem_map.1 hd
    exact b.toNat_lt
  have hlast : ∀ hne : bytes.reverse.map UInt8.toNat ≠ [],
      (bytes.reverse.map UInt8.toNat).getLast hne ≠ 0 := by
    intro hne hzero
    rw [List.getLast_map, List.getLast_reverse] at hzero
    exact h _ (List.head?_eq_some_head _) (UInt8.toNat_inj.1 hzero)
  rw [base58Bytes, base58Digits, List.reverse_reverse, Nat.ofDigits_digits,
    Nat.digits_ofDigits 256 (by decide) _ hsmall hlast, ← List.map_reverse,
    List.reverse_reverse, List.map_map]
  exact (List.map_congr_left fun b _ => UInt8.ofNat_toNat).trans (List.map_id _)

/-- The digits of a byte string start with no zero. -/
theorem base58Digits_head {bytes : List UInt8} : ∀ d ∈ (base58Digits bytes).head?, d ≠ 0 := by
  intro d hd
  rw [base58Digits, List.head?_reverse] at hd
  by_cases hzero : Nat.ofDigits 256 (bytes.reverse.map UInt8.toNat) = 0
  · rw [hzero, Nat.digits_zero] at hd
    cases hd
  · rw [List.getLast?_eq_some_getLast (Nat.digits_ne_nil_iff_ne_zero.2 hzero)] at hd
    rw [← Option.some.inj hd]
    exact Nat.getLast_digit_ne_zero 58 hzero

/-- The characters of some digits start with no one. -/
theorem base58Chars_head {digits : List Nat} (hsmall : ∀ d ∈ digits, d < 58)
    (hhead : ∀ d ∈ digits.head?, d ≠ 0) :
    ∀ c ∈ (digits.map (Host.base58Alphabet.getD · '1')).head?, c ≠ '1' := by
  intro c hc
  cases digits with
  | nil => cases hc
  | cons d digits =>
    cases hc
    exact (idxOf_base58 d (hsmall d List.mem_cons_self)).2.2 (hhead d rfl)

/-- A run of one value is told from what follows it. -/
theorem while_run {α : Type} [DecidableEq α] {a : α} {run rest : List α} (hrun : ∀ x ∈ run, x = a)
    (hrest : ∀ x ∈ rest.head?, x ≠ a) :
    (run ++ rest).takeWhile (· = a) = run ∧ (run ++ rest).dropWhile (· = a) = rest := by
  have hall : ∀ x ∈ run, decide (x = a) = true := fun x hx => decide_eq_true (hrun x hx)
  rw [List.takeWhile_append_of_pos hall, List.dropWhile_append_of_pos hall]
  cases rest with
  | nil => exact ⟨List.append_nil _, rfl⟩
  | cons x rest =>
    have hx : decide (x = a) = false := decide_eq_false (hrest x rfl)
    simp only [List.takeWhile_cons, List.dropWhile_cons, hx, Bool.false_eq_true, if_false,
      List.append_nil, and_self]

/-- The stand-in decodes what it encodes. -/
theorem leadingBase58_codec : @LawfulBase58Codec leadingBase58 := by
  refine @LawfulBase58Codec.mk leadingBase58 fun bytes => ?_
  obtain ⟨zeros, hzeros⟩ : ∃ l, l = bytes.takeWhile (· = 0) := ⟨_, rfl⟩
  obtain ⟨rest, hrest⟩ : ∃ l, l = bytes.dropWhile (· = 0) := ⟨_, rfl⟩
  have hzero : ∀ b ∈ zeros, b = 0 := fun b hb =>
    of_decide_eq_true (List.all_eq_true.1 (hzeros ▸ List.all_takeWhile) b hb)
  have hstart : ∀ b ∈ rest.head?, b ≠ 0 := by
    intro b hb
    have hnot := List.head?_dropWhile_not (fun b : UInt8 => decide (b = 0)) bytes
    rw [← hrest, Option.mem_def.1 hb] at hnot
    exact of_decide_eq_false hnot
  have hsmall : ∀ d ∈ base58Digits rest, d < 58 := fun d hd =>
    Nat.digits_lt_base (by decide) (List.mem_reverse.1 hd)
  obtain ⟨chars, hchars⟩ : ∃ l, l = (base58Digits rest).map (Host.base58Alphabet.getD · '1') :=
    ⟨_, rfl⟩
  have htext : (leadingBase58.encode bytes).toList = zeros.map (fun _ => '1') ++ chars := by
    show (String.ofList _ ++ String.ofList _).toList = _
    rw [String.toList_append, String.toList_ofList, String.toList_ofList, hchars, hrest, hzeros]
  obtain ⟨htake, hdrop⟩ := @while_run Char _ '1' (zeros.map fun _ => '1') chars
    (fun c hc => by obtain ⟨b, -, rfl⟩ := List.mem_map.1 hc; rfl)
    (hchars ▸ base58Chars_head hsmall base58Digits_head)
  have hall : (zeros.map (fun _ => '1') ++ chars).all (· ∈ Host.base58Alphabet) = true := by
    rw [List.all_append, Bool.and_eq_true, List.all_eq_true, List.all_eq_true]
    refine ⟨fun c hc => ?_, fun c hc => ?_⟩
    · obtain ⟨b, -, rfl⟩ := List.mem_map.1 hc
      decide
    · rw [hchars] at hc
      obtain ⟨d, hd, rfl⟩ := List.mem_map.1 hc
      exact decide_eq_true (idxOf_base58 d (hsmall d hd)).2.1
  have hleading : (zeros.map fun _ => '1').map (fun _ => (0 : UInt8)) = zeros := by
    rw [List.map_map]
    exact (List.map_congr_left fun b hb => (hzero b hb).symm).trans (List.map_id _)
  have hindices : chars.map Host.base58Alphabet.idxOf = base58Digits rest := by
    rw [hchars, List.map_map]
    exact (List.map_congr_left fun d hd => (idxOf_base58 d (hsmall d hd)).1).trans (List.map_id _)
  show (if (leadingBase58.encode bytes).toList.all _ then some _ else none) = _
  rw [htext, if_pos hall, htake, hdrop, hleading, hindices, base58Bytes_digits hstart, hzeros,
    hrest, List.takeWhile_append_dropWhile]

/-- The stand-in decodes characters of base58 only. -/
theorem leadingBase58_lawful : @LawfulBase58 leadingBase58 := by
  refine @LawfulBase58.mk leadingBase58 fun s bytes h c hc => ?_
  replace h : (if s.toList.all (· ∈ Host.base58Alphabet) then _ else none) = some bytes := h
  split at h
  · next hall =>
    exact Host.isBase58_of_mem (of_decide_eq_true (List.all_eq_true.1 hall c hc))
  · cases h

section

attribute [local instance] plainJson plainSpelling plainJson_spelling Host.plainBls leadingBase58
  leadingBase58_lawful leadingBase58_codec

/-- A key whose secret is one byte over and over. -/
def byteKey (keyAlias : String) (b : UInt8) : Generated :=
  ⟨keyAlias, ⟨⟨List.replicate 32 b, List.length_replicate⟩⟩, rfl⟩

/-- Two keys, of which one has an alias with all that JSON escapes. -/
theorem secretKeys_roundTrip_escaped :
    RoundTrips [byteKey "a\"b\\c\n\x01" 1, byteKey "a\"b\\c\n\x01" 2] :=
  (secretKeys_roundTrip _).1.2 ⟨by decide, by decide⟩

end

/-- The document of no key is refused, and of two keys with one secret the first is lost. -/
theorem secretKeys_refused_and_merged :
    (¬∀ [JsonText] [JsonSpelling] [LawfulJsonSpelling] [Base58] [LawfulBase58] [LawfulBase58Codec]
      [BlsSecret] (keys : List Generated), RoundTrips keys) ∧
    ¬∀ [JsonText] [JsonSpelling] [LawfulJsonSpelling] [Base58] [LawfulBase58] [LawfulBase58Codec]
      [BlsSecret] (keys : List Generated), keys ≠ [] → RoundTrips keys := by
  let _ := plainJson
  let _ := plainSpelling
  let _ := plainJson_spelling
  let _ := Host.plainBls
  let _ := leadingBase58
  let _ := leadingBase58_lawful
  let _ := leadingBase58_codec
  refine ⟨fun hall => ?_, fun hall => ?_⟩
  · obtain ⟨m, hm, -⟩ := hall []
    rw [parseSecretKeys_built] at hm
    cases hm
  · obtain ⟨m, hm, hholds⟩ := hall [byteKey "consensus" 1, byteKey "companion" 1] (by decide)
    rw [parseSecretKeys_built, if_neg (by decide)] at hm
    cases hm
    exact absurd ((holds_iff _).1 hholds) (by decide)

end SecretKeys

end Russignol
