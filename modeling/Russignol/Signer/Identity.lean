import Mathlib.Tactic.Common
import Russignol.Base.Bytes

/-!
# Keys and chains

The names the signer gives to keys and chains (`libs/signer/src/bls.rs`, `high_watermark.rs`,
`base58check.rs`). Base58 and SHA-256 come from crates, so they are fields of `Base58`.
-/

namespace Russignol

open Bytes

/-- The operation types a watermark is kept for, in the order of the record files. -/
inductive OperationType
  | block
  | preattestation
  | attestation
  deriving DecidableEq, Repr

namespace OperationType

/-- `OperationType::ALL`. -/
def all : List OperationType := [block, preattestation, attestation]

/-- `OperationType::from_magic_byte`. -/
def fromMagicByte (magic : UInt8) : Option OperationType :=
  if magic = 0x11 then some block
  else if magic = 0x12 then some preattestation
  else if magic = 0x13 then some attestation
  else none

/-- `ALL` lists every operation type. -/
theorem mem_all (t : OperationType) : t ∈ all := by cases t <;> decide

theorem all_nodup : all.Nodup := by decide

/-- The three magic bytes are those of an operation type. -/
theorem fromMagicByte_isSome {magic : UInt8} :
    (∃ t, fromMagicByte magic = some t) ↔ magic = 0x11 ∨ magic = 0x12 ∨ magic = 0x13 := by
  constructor
  · rintro ⟨t, ht⟩
    simp only [fromMagicByte] at ht
    split_ifs at ht with h1 h2 h3
    · exact .inl h1
    · exact .inr (.inl h2)
    · exact .inr (.inr h3)
  · rintro (rfl | rfl | rfl)
    · exact ⟨block, rfl⟩
    · exact ⟨preattestation, rfl⟩
    · exact ⟨attestation, rfl⟩

end OperationType

/-- The `bs58` and `sha2` crates. -/
class Base58 where
  /-- `Sha256::digest`. -/
  sha256 : List UInt8 → Fixed 32
  /-- `bs58::encode(..).into_string()`. -/
  encode : List UInt8 → String
  /-- `bs58::decode(..).into_vec()`. -/
  decode : String → Option (List UInt8)
  /-- `bs58::encode(..).with_check().into_string()`. -/
  encodeCheck : List UInt8 → String
  /-- `bs58::decode(..).with_check(None).into_vec()`. -/
  decodeCheck : String → Option (List UInt8)

variable [Base58]

namespace Base58check

/-- `compute_checksum`: double SHA-256. -/
def computeChecksum (data : List UInt8) : Fixed 32 := Base58.sha256 (Base58.sha256 data).1

/-- `base58check::encode`. -/
def encode (pre data : List UInt8) : String :=
  let payload := pre ++ data
  Base58.encode (payload ++ (computeChecksum payload).1.take 4)

/-- `base58check::decode`. -/
def decode (s : String) (pre : List UInt8) : Except String (List UInt8) :=
  match Base58.decode s with
  | none => .error "Base58 decode error"
  | some decoded =>
    if decoded.length < pre.length + 4 then .error "Invalid length"
    else if decoded.take pre.length ≠ pre then .error "Invalid prefix"
    else
      let dataEnd := decoded.length - 4
      let dataWithPrefix := decoded.take dataEnd
      if decoded.drop dataEnd ≠ (computeChecksum dataWithPrefix).1.take 4 then
        .error "Invalid checksum"
      else .ok (dataWithPrefix.drop pre.length)

end Base58check

/-- Chain identifier: 32 bytes, of which the leading four are the chain's own. -/
structure ChainId where
  bytes : Fixed 32
  deriving DecidableEq

namespace ChainId

/-- The "Net" prefix of a chain id in base58check. -/
def netPrefix : List UInt8 := [87, 82, 0]

/-- `ChainId::to_b58check`. -/
def toB58check (c : ChainId) : String := Base58.encodeCheck (netPrefix ++ c.bytes.1.take 4)

/-- The id whose leading bytes are the four given, the rest zero. -/
def ofFour (four : Fixed 4) : ChainId := ⟨⟨four.1 ++ List.replicate 28 0, by simp [four.2]⟩⟩

/-- `ChainId::from_b58check`. -/
def fromB58check (s : String) : Option ChainId :=
  match Base58.decodeCheck s with
  | none => none
  | some decoded =>
    if decoded.take 3 = netPrefix then
      if h : ((decoded.drop 3).take 4).length = 4 then some (ofFour ⟨(decoded.drop 3).take 4, h⟩)
      else none
    else none

/-- `ChainId::from_bytes(&[0u8; 32])`, the id of a device that was never provisioned. -/
def zero : ChainId := ⟨zeros 32⟩

end ChainId

/-- Hash of a BLS public key. -/
structure PublicKeyHash where
  hash : Fixed 20
  deriving DecidableEq

namespace PublicKeyHash

/-- `TZ4_PREFIX`. -/
def tz4Prefix : List UInt8 := [0x06, 0xa1, 0xa6]

/-- `PublicKeyHash::to_b58check`. -/
def toB58check (k : PublicKeyHash) : String := Base58check.encode tz4Prefix k.hash.1

/-- `PublicKeyHash::from_b58check`. -/
def fromB58check (s : String) : Option PublicKeyHash :=
  match Base58check.decode s tz4Prefix with
  | .error _ => none
  | .ok decoded => if h : decoded.length = 20 then some ⟨⟨decoded, h⟩⟩ else none

end PublicKeyHash

end Russignol
