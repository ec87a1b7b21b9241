import Russignol.Base.Reader
import Russignol.Crypto.Blob
import Russignol.Signer.Identity

/-!
# The signer's messages

The codec of `libs/signer/src/protocol.rs`. A decoder reads from a cursor (`Reader`) and an
encoder appends to a buffer, so an encoder is the bytes it appends; writing to a `Vec` never
fails. Curve points, BSON and JSON come from crates: `Blst` and `Bson` are their parts the codec
calls, and `LawfulBlst` and `LawfulBson` say that each reads back what it wrote.
-/

namespace Russignol

open Bytes Reader

/-- The `blst` crate: compressed points of the two groups, with the text of a `BLST_ERROR`. -/
class Blst where
  Pk : Type
  Sig : Type
  pkFromBytes : List UInt8 → Except String Pk
  pkToBytes : Pk → Fixed 48
  sigFromBytes : List UInt8 → Except String Sig
  sigToBytes : Sig → Fixed 96

/-- A valid point has one compressed encoding, which decodes to it. -/
class LawfulBlst [Blst] : Prop where
  pk_inverse : ∀ (bytes : Fixed 48) p, Blst.pkFromBytes bytes.1 = .ok p ↔ bytes = Blst.pkToBytes p
  sig_inverse : ∀ (bytes : Fixed 96) s,
    Blst.sigFromBytes bytes.1 = .ok s ↔ bytes = Blst.sigToBytes s

/-- The `bson` and `serde_json` crates. -/
class Bson where
  Document : Type
  /-- `doc!`, of string values. -/
  doc : List (String × String) → Document
  /-- `Document::to_writer`. -/
  toWriter : Document → Except String (List UInt8)
  /-- `Document::from_reader`. -/
  fromReader : List UInt8 → Option Document
  /-- `Document::get_str`. -/
  getStr : Document → String → Option String
  /-- `serde_json::from_slice`, then the string at a key. -/
  jsonStr : List UInt8 → String → Option String

/-- A document that was written is read back, and has the fields it was built of. -/
class LawfulBson [Bson] : Prop where
  fromReader_toWriter : ∀ (d : Bson.Document) bytes,
    Bson.toWriter d = .ok bytes → Bson.fromReader bytes = some d
  getStr_doc : ∀ (fields : List (String × String)) key,
    Bson.getStr (Bson.doc fields) key = fields.lookup key

/-- `protocol::Error`. -/
inductive ProtocolError
  | unknownTag (tag : UInt8)
  | invalidFormat (text : String)
  | pkhDecodeError (text : String)
  | pkDecodeError (text : String)
  | signatureDecodeError (text : String)
  | io (text : String)
  | dataTooLarge (size max : Nat)
  deriving DecidableEq, Repr

namespace ProtocolError

/-- A digit of `{:X}`. -/
def hexDigit (n : Nat) : Char := Char.ofNat (if n < 10 then 48 + n else 55 + n)

/-- A byte as `0x{:02X}`. -/
def hex (b : UInt8) : String :=
  "0x" ++ String.ofList [hexDigit (b.toNat / 16), hexDigit (b.toNat % 16)]

/-- What `read_exact` fails with at the end of its input. -/
def unexpectedEof : ProtocolError := .io "failed to fill whole buffer"

end ProtocolError

namespace Lossy

/-- A scalar that is being read: the bytes it still takes, what they spell so far, and the range
of the next one. -/
structure Pending where
  left : Nat
  acc : Nat
  lo : UInt8
  hi : UInt8

/-- What a byte starts outside a scalar: a character, U+FFFD for one that can start none, or a
scalar of several bytes. -/
def lead (b : UInt8) : Char ⊕ Pending :=
  if b < 0x80 then .inl (Char.ofNat b.toNat)
  else if b < 0xC2 then .inl (Char.ofNat 0xFFFD)
  else if b < 0xE0 then .inr ⟨0, b.toNat - 0xC0, 0x80, 0xBF⟩
  else if b < 0xF0 then
    .inr ⟨1, b.toNat - 0xE0, if b = 0xE0 then 0xA0 else 0x80, if b = 0xED then 0x9F else 0xBF⟩
  else if b < 0xF5 then
    .inr ⟨2, b.toNat - 0xF0, if b = 0xF0 then 0x90 else 0x80, if b = 0xF4 then 0x8F else 0xBF⟩
  else .inl (Char.ofNat 0xFFFD)

/-- The characters of a byte string, each maximal part that spells none as one U+FFFD. -/
def chars : Option Pending → List UInt8 → List Char
  | none, [] => []
  | some _, [] => [Char.ofNat 0xFFFD]
  | none, b :: bytes =>
    match lead b with
    | .inl c => c :: chars none bytes
    | .inr p => chars (some p) bytes
  | some p, b :: bytes =>
    if p.lo ≤ b ∧ b ≤ p.hi then
      let acc := p.acc * 64 + (b.toNat - 0x80)
      match p.left with
      | 0 => Char.ofNat acc :: chars none bytes
      | left + 1 => chars (some ⟨left, acc, 0x80, 0xBF⟩) bytes
    else
      Char.ofNat 0xFFFD ::
        match lead b with
        | .inl c => c :: chars none bytes
        | .inr p => chars (some p) bytes

/-- `String::from_utf8_lossy`. -/
def fromUtf8Lossy (bytes : List UInt8) : String := String.ofList (chars none bytes)

end Lossy

/-! ## Keys and signatures -/

/-- `bls::Error::InvalidKeyLength`, displayed. -/
def invalidKeyLength (expected actual : Nat) : String :=
  s!"Invalid key length: expected {expected}, got {actual}"

/-- `PublicKeyHash::from_bytes`. -/
def PublicKeyHash.fromBytes (bytes : List UInt8) : Except String PublicKeyHash :=
  if h : bytes.length = 20 then .ok ⟨⟨bytes, h⟩⟩ else .error (invalidKeyLength 20 bytes.length)

section
variable [Blst]

/-- `bls::PublicKey`. -/
abbrev PublicKey := Blst.Pk

/-- `bls::Signature`. -/
abbrev BlsSignature := Blst.Sig

/-- `PublicKey::from_bytes`. -/
def PublicKey.fromBytes (bytes : List UInt8) : Except String PublicKey :=
  if bytes.length = 48 then (Blst.pkFromBytes bytes).mapError ("Invalid public key: " ++ ·)
  else .error (invalidKeyLength 48 bytes.length)

/-- `Signature::from_bytes`. -/
def BlsSignature.fromBytes (bytes : List UInt8) : Except String BlsSignature :=
  if bytes.length = 96 then (Blst.sigFromBytes bytes).mapError ("Invalid signature: " ++ ·)
  else .error (invalidKeyLength 96 bytes.length)

end

/-- `VersionedPublicKeyHash`: a hash and the signature version asked for. -/
abbrev VersionedPublicKeyHash := PublicKeyHash × UInt8

/-! ## Messages -/

/-- `SignerRequest`. -/
inductive SignerRequest [Blst]
  | sign (pkh : VersionedPublicKeyHash) (data : List UInt8) (signature : Option BlsSignature)
  | publicKey (pkh : PublicKeyHash)
  | authorizedKeys
  | deterministicNonce (pkh : VersionedPublicKeyHash) (data : List UInt8)
      (signature : Option BlsSignature)
  | deterministicNonceHash (pkh : VersionedPublicKeyHash) (data : List UInt8)
      (signature : Option BlsSignature)
  | supportsDeterministicNonces (pkh : PublicKeyHash)
  | knownKeys
  | blsProveRequest (pkh : PublicKeyHash) (overridePk : Option PublicKey)

/-- `SignerResponse`. -/
inductive SignerResponse [Blst]
  | signature (sig : BlsSignature)
  | publicKey (pk : PublicKey)
  | authorizedKeys (keys : Option (List PublicKeyHash))
  | nonce (nonce : Fixed 32)
  | nonceHash (hash : Fixed 32)
  | bool (b : Bool)
  | knownKeys (keys : List PublicKeyHash)
  | error (msg : String)

/-- `SignerRequest::tag`. -/
def SignerRequest.tag [Blst] : SignerRequest → UInt8
  | sign .. => 0x00
  | publicKey .. => 0x01
  | authorizedKeys => 0x02
  | deterministicNonce .. => 0x03
  | deterministicNonceHash .. => 0x04
  | supportsDeterministicNonces .. => 0x05
  | knownKeys => 0x06
  | blsProveRequest .. => 0x07

namespace Encoding

/-- `MAX_DATA_LEN`. -/
def maxDataLen : Nat := 65535

/-- A decoder of the protocol. -/
abbrev Decoder (α : Type) := Reader UInt8 ProtocolError α

/-! ## Primitives -/

/-- `read_u8`. -/
def readU8 : Decoder UInt8 := next .unexpectedEof

/-- `read_u32_be`. -/
def readU32Be : Decoder UInt32 := do
  let buf : Fixed 4 ← readExact .unexpectedEof 4
  return ofBe32 (buf.get 0) (buf.get 1) (buf.get 2) (buf.get 3)

/-- `encode_raw_pkh`. -/
def encodeRawPkh (pkh : PublicKeyHash) : List UInt8 := [3] ++ pkh.hash.1

/-- `decode_raw_pkh`. -/
def decodeRawPkh : Decoder PublicKeyHash := do
  let tag ← readU8
  match tag with
  | 0x03 => do
    let bytes ← readExact .unexpectedEof 20
    liftM ((PublicKeyHash.fromBytes bytes.1).mapError ProtocolError.pkhDecodeError)
  | tag => throw (.invalidFormat <| "Unsupported PKH encoding tag: " ++ ProtocolError.hex tag ++
      ". Only BLS (tag 3) is supported.")

/-- `encode_versioned_pkh`. -/
def encodeVersionedPkh (pkh : VersionedPublicKeyHash) : List UInt8 :=
  [3] ++ (encodeRawPkh pkh.1 ++ [pkh.2])

/-- `decode_versioned_pkh`. -/
def decodeVersionedPkh : Decoder VersionedPublicKeyHash := do
  let outerTag ← readU8
  if outerTag ≠ 3 then
    throw (.invalidFormat <| "Unsupported versioned PKH tag: " ++ ProtocolError.hex outerTag ++
      ". Only BLS (tag 3) is supported.")
  else do
    let pkh ← decodeRawPkh
    let version ← readU8
    return (pkh, version)

/-- `encode_bytes`. -/
def encodeBytes (data : List UInt8) : Except ProtocolError (List UInt8) :=
  if data.length < 2 ^ 32 then .ok (be32 (UInt32.ofNat data.length) ++ data)
  else .error (.invalidFormat "Data length exceeds u32::MAX")

/-- `decode_bytes`. -/
def decodeBytes : Decoder (List UInt8) := do
  let len ← readU32Be
  if len.toNat > maxDataLen then throw (.dataTooLarge len.toNat maxDataLen)
  else do
    let data ← readExact .unexpectedEof len.toNat
    return data.1

/-- `encode_pkh_list`: the list is prefixed by its size in bytes. -/
def encodePkhList (list : List PublicKeyHash) : Except ProtocolError (List UInt8) :=
  let totalByteSize := list.length * (1 + 20)
  if totalByteSize < 2 ^ 32 then
    .ok (be32 (UInt32.ofNat totalByteSize) ++ list.flatMap encodeRawPkh)
  else .error (.invalidFormat "List byte size exceeds u32::MAX")

/-- The loop of `decode_pkh_list`. -/
def decodePkhLoop (lenBytes bytesRead : Nat) : Decoder (List PublicKeyHash) :=
  if bytesRead < lenBytes then do
    let pkh ← decodeRawPkh
    let pkhs ← decodePkhLoop lenBytes (bytesRead + 21)
    return pkh :: pkhs
  else return []
termination_by lenBytes - bytesRead

/-- `decode_pkh_list`. -/
def decodePkhList : Decoder (List PublicKeyHash) := do
  let lenBytes ← readU32Be
  decodePkhLoop lenBytes.toNat 0

/-- The refusal of an option tag. -/
def invalidOptionTag (tag : UInt8) : ProtocolError :=
  .invalidFormat ("Invalid option tag: " ++ ProtocolError.hex tag)

/-- `decode_option_pkh_list`. -/
def decodeOptionPkhList : Decoder (Option (List PublicKeyHash)) := do
  let tag ← readU8
  match tag with
  | 0xFF => do return some (← decodePkhList)
  | 0x00 => return none
  | tag => throw (invalidOptionTag tag)

section
variable [Blst]

/-- `encode_pk`. -/
def encodePk (pk : PublicKey) : List UInt8 := [3] ++ (Blst.pkToBytes pk).1

/-- `decode_pk`. -/
def decodePk : Decoder PublicKey := do
  let tag ← readU8
  if tag ≠ 3 then
    throw (.invalidFormat <| "Unsupported PK encoding tag: " ++ ProtocolError.hex tag ++
      ". Only BLS (tag 3) is supported.")
  else do
    let bytes ← readExact .unexpectedEof 48
    liftM ((PublicKey.fromBytes bytes.1).mapError ProtocolError.pkDecodeError)

/-- `encode_signature`. -/
def encodeSignature (sig : BlsSignature) : List UInt8 := (Blst.sigToBytes sig).1

/-- `decode_signature`. -/
def decodeSignature : Decoder BlsSignature := do
  let bytes ← readExact .unexpectedEof 96
  liftM ((BlsSignature.fromBytes bytes.1).mapError ProtocolError.signatureDecodeError)

/-- `encode_option_signature`: an absent signature is left out. -/
def encodeOptionSignature : Option BlsSignature → List UInt8
  | some s => [0xFF] ++ encodeSignature s
  | none => []

/-- `decode_option_signature`: at the end of the input the signature is absent. -/
def decodeOptionSignature : Decoder (Option BlsSignature)
  | [] => .ok (none, [])
  | b :: rest =>
    if b = 0xFF then (do return some (← decodeSignature) : Decoder _).run rest
    else .error (invalidOptionTag b)

/-- `encode_option_pk`. -/
def encodeOptionPk : Option PublicKey → List UInt8
  | some p => [0xFF] ++ encodePk p
  | none => [0x00]

/-- `decode_option_pk`. -/
def decodeOptionPk : Decoder (Option PublicKey) := do
  let tag ← readU8
  match tag with
  | 0xFF => do return some (← decodePk)
  | 0x00 => return none
  | tag => throw (invalidOptionTag tag)

/-! ## Requests -/

/-- The fields of the three requests that carry data, as `encode_request` writes them. -/
def encodeData (pkh : VersionedPublicKeyHash) (data : List UInt8)
    (signature : Option BlsSignature) : Except ProtocolError (List UInt8) := do
  let bytes ← encodeBytes data
  return encodeVersionedPkh pkh ++ (bytes ++ encodeOptionSignature signature)

/-- `encode_request`. -/
def encodeRequest (req : SignerRequest) : Except ProtocolError (List UInt8) := do
  let fields ← match req with
    | .sign pkh data signature
    | .deterministicNonce pkh data signature
    | .deterministicNonceHash pkh data signature => encodeData pkh data signature
    | .publicKey pkh
    | .supportsDeterministicNonces pkh => pure (encodeRawPkh pkh)
    | .authorizedKeys
    | .knownKeys => pure []
    | .blsProveRequest pkh overridePk => pure (encodeRawPkh pkh ++ encodeOptionPk overridePk)
  return req.tag :: fields

/-- The fields of the three requests that carry data, as `decode_request` reads them. -/
def decodeData
    (make : VersionedPublicKeyHash → List UInt8 → Option BlsSignature → SignerRequest) :
    Decoder SignerRequest := do
  let pkh ← decodeVersionedPkh
  let data ← decodeBytes
  let signature ← decodeOptionSignature
  return make pkh data signature

/-- `decode_request`, on the cursor it opens. -/
def decodeRequestAt : Decoder SignerRequest := do
  let tag ← readU8
  match tag with
  | 0x00 => decodeData .sign
  | 0x01 => do return .publicKey (← decodeRawPkh)
  | 0x02 => return .authorizedKeys
  | 0x03 => decodeData .deterministicNonce
  | 0x04 => decodeData .deterministicNonceHash
  | 0x05 => do return .supportsDeterministicNonces (← decodeRawPkh)
  | 0x06 => return .knownKeys
  | 0x07 => do
    let pkh ← decodeRawPkh
    let overridePk ← decodeOptionPk
    return .blsProveRequest pkh overridePk
  | tag => throw (.unknownTag tag)

/-- `decode_request`: what is left under the cursor is dropped. -/
def decodeRequest (data : List UInt8) : Except ProtocolError SignerRequest :=
  decodeRequestAt.run' data

/-! ## Responses -/

/-- The document of an error response. -/
def errorDoc [Bson] (msg : String) : Bson.Document :=
  Bson.doc [("kind", "generic"), ("error", msg)]

/-- `encode_response` of an error: a trace of one item, each under its length. -/
def encodeError [Bson] (msg : String) : Except ProtocolError (List UInt8) := do
  let bsonBytes ← (Bson.toWriter (errorDoc msg)).mapError fun e =>
    .invalidFormat ("BSON serialization error: " ++ e)
  if bsonBytes.length < 2 ^ 32 then
    let itemLen := UInt32.ofNat bsonBytes.length
    let totalLen := itemLen + 4
    return [0x01] ++ (be32 totalLen ++ (be32 itemLen ++ bsonBytes))
  else throw (.invalidFormat "BSON error message too large")

/-- The payload of a response that is no error. -/
def encodePayload : SignerResponse → Except ProtocolError (List UInt8)
  | .signature sig => .ok (encodeSignature sig)
  | .publicKey pk => .ok (encodePk pk)
  | .authorizedKeys none => .ok [0x00]
  | .authorizedKeys (some list) => do return [0x01] ++ (← encodePkhList list)
  | .nonce nonce => .ok nonce.1
  | .nonceHash hash => .ok hash.1
  | .bool b => .ok [if b then 0xFF else 0x00]
  | .knownKeys keys => encodePkhList keys
  | .error _ => .ok []

/-- `encode_response`. -/
def encodeResponse [Bson] (resp : SignerResponse) : Except ProtocolError (List UInt8) :=
  match resp with
  | .error msg => encodeError msg
  | resp => do return [0x00] ++ (← encodePayload resp)

/-- The message of one item of a trace: its BSON, else its JSON. -/
def itemMessage [Bson] (bytes : List UInt8) : Option String :=
  match Bson.fromReader bytes with
  | some doc => Bson.getStr doc "error"
  | none => Bson.jsonStr bytes "error"

/-- The loop over a trace: the messages of its items, up to the first cut short. -/
def traceMessages [Bson] (trace : List UInt8) : List String :=
  match trace with
  | a :: b :: c :: d :: rest =>
    let itemLen := (ofBe32 a b c d).toNat
    if itemLen > rest.length then []
    else (itemMessage (rest.take itemLen)).toList ++ traceMessages (rest.drop itemLen)
  | _ => []
termination_by trace.length
decreasing_by
  simp only [List.length_cons, List.length_drop]
  omega

/-- `decode_response` after the error tag. -/
def decodeError [Bson] : Decoder SignerResponse := do
  let traceBytes ← decodeBytes
  let errorMsgs := traceMessages traceBytes
  if errorMsgs.isEmpty then return .error (Lossy.fromUtf8Lossy traceBytes)
  else return .error ("; ".intercalate errorMsgs)

/-- `decode_response` after the tag of success: the request says what to read. -/
def decodePayload : SignerRequest → Decoder SignerResponse
  | .sign .. | .blsProveRequest .. => do return .signature (← decodeSignature)
  | .publicKey _ => do return .publicKey (← decodePk)
  | .authorizedKeys => do return .authorizedKeys (← decodeOptionPkhList)
  | .deterministicNonce .. => do return .nonce (← readExact .unexpectedEof 32)
  | .deterministicNonceHash .. => do return .nonceHash (← readExact .unexpectedEof 32)
  | .supportsDeterministicNonces _ => do return .bool ((← readU8) != 0x00)
  | .knownKeys => do return .knownKeys (← decodePkhList)

/-- `decode_response`. -/
def decodeResponse [Bson] (data : List UInt8) (request : SignerRequest) :
    Except ProtocolError SignerResponse :=
  StateT.run' (do
    let resultTag ← readU8
    match resultTag with
    | 0x01 => decodeError
    | 0x00 => decodePayload request
    | tag => throw (.invalidFormat ("Invalid Result tag: " ++ ProtocolError.hex tag)) :
      Decoder SignerResponse) data

end

end Encoding

/-! ## Stand-ins for the crates -/

/-- A point that is any bytes with the compression bit set. -/
def Compressed (n : Nat) := { b : Fixed (n + 1) // 0x80 ≤ b.get 0 }

/-- The point of a byte string, refused where the bit is not set. -/
def Compressed.ofBytes (n : Nat) (bytes : List UInt8) : Except String (Compressed n) :=
  if h : bytes.length = n + 1 then
    if hc : 0x80 ≤ Fixed.get ⟨bytes, h⟩ 0 then .ok ⟨⟨bytes, h⟩, hc⟩
    else .error "BLST_BAD_ENCODING"
  else .error "BLST_BAD_ENCODING"

/-- The bytes of a compressed point are the point itself. -/
theorem Compressed.ofBytes_eq_ok {n : Nat} (bytes : Fixed (n + 1)) (p : Compressed n) :
    ofBytes n bytes.1 = .ok p ↔ bytes = p.1 := by
  rw [ofBytes, dif_pos bytes.2]
  constructor
  · intro h
    split at h
    · cases h
      rfl
    · cases h
  · rintro rfl
    exact dif_pos p.2

/-- The codec over such points. -/
@[reducible] def plainBlst : Blst where
  Pk := Compressed 47
  Sig := Compressed 95
  pkFromBytes := Compressed.ofBytes 47
  pkToBytes p := p.1
  sigFromBytes := Compressed.ofBytes 95
  sigToBytes s := s.1

/-- The point at infinity. -/
def infinity (n : Nat) : Compressed n :=
  ⟨⟨0xC0 :: List.replicate n 0, by simp⟩, show (0x80 : UInt8) ≤ 0xC0 by decide⟩

/-- A library whose keys and signatures are their bytes meets the law. -/
theorem plainBlst_lawful : @LawfulBlst plainBlst :=
  @LawfulBlst.mk plainBlst Compressed.ofBytes_eq_ok Compressed.ofBytes_eq_ok

/-- The four bytes of a length in BSON, least significant first. -/
def bsonLength (n : Nat) : List UInt8 := (be32 (UInt32.ofNat n)).reverse

/-- What stands between the length of the document of an error and its message. -/
def bsonHead (msg : List UInt8) : List UInt8 :=
  [0x02] ++ Crypto.asBytes "kind" ++ [0] ++ bsonLength 8 ++ Crypto.asBytes "generic" ++ [0] ++
    [0x02] ++ Crypto.asBytes "error" ++ [0] ++ bsonLength (msg.length + 1)

/-- The document of an error in BSON. -/
def bsonError (msg : List UInt8) : List UInt8 :=
  bsonLength (msg.length + 35) ++ bsonHead msg ++ msg ++ [0, 0]

/-- BSON of the documents the signer writes. -/
@[reducible] def plainBson : Bson where
  Document := List (String × String)
  doc fields := fields
  toWriter
    | [("kind", "generic"), ("error", msg)] => .ok (bsonError (Crypto.asBytes msg))
    | _ => .error "unsupported"
  fromReader bytes := do
    let msg ← Crypto.fromUtf8 (bytes.drop 33).dropLast.dropLast
    if bsonError (Crypto.asBytes msg) = bytes then some [("kind", "generic"), ("error", msg)]
    else none
  getStr doc key := doc.lookup key
  jsonStr _ _ := none

/-- The message lies between the head of the document and its two closing zeros. -/
theorem bsonError_middle (msg : List UInt8) :
    ((bsonError msg).drop 33).dropLast.dropLast = msg := by
  have hkind : (Crypto.asBytes "kind").length = 4 := by decide +kernel
  have hgeneric : (Crypto.asBytes "generic").length = 7 := by decide +kernel
  have herror : (Crypto.asBytes "error").length = 5 := by decide +kernel
  have hhead : (bsonLength (msg.length + 35) ++ bsonHead msg).length = 33 := by
    simp [bsonHead, bsonLength, hkind, hgeneric, herror]
  rw [bsonError, List.append_assoc _ msg, List.drop_left' hhead]
  simp [List.dropLast_append_of_ne_nil]

/-- A document format that writes its entries one after another meets the law. -/
theorem plainBson_lawful : @LawfulBson plainBson := by
  refine @LawfulBson.mk plainBson ?_ fun _ _ => rfl
  intro d bytes h
  unfold plainBson at h
  simp only at h
  split at h
  · rename_i msg
    cases h
    show (Crypto.fromUtf8 ((bsonError (Crypto.asBytes msg)).drop 33).dropLast.dropLast).bind _ = _
    rw [bsonError_middle, Crypto.fromUtf8_asBytes]
    exact if_pos rfl
  · cases h

end Russignol
