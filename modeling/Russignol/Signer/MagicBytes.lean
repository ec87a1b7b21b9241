import Russignol.Signer.Identity

/-!
# Magic bytes

The parsers of `libs/signer/src/magic_bytes.rs`: the first byte names the operation, and the
chain, the level and the round stand at fixed offsets, save the round of a block, whose place
depends on the length of the fitness. Each parser checks the lengths it needs and no more, and the
three have different minima: 5 bytes for the chain, 46 for an attestation and 87 for a block.
-/

namespace Russignol

open Bytes

/-- `MagicByteError`. -/
inductive MagicByteError
  | emptyData
  | notAllowed (byte : UInt8)
  | truncatedData (expected actual : Nat)
  deriving DecidableEq, Repr

namespace MagicByteError

/-- One upper-case hexadecimal digit. -/
def hexDigit (n : Nat) : Char := ("0123456789ABCDEF".toList).getD n '0'

/-- The texts of the errors. -/
def toString : MagicByteError → String
  | emptyData => "Cannot sign empty data"
  | notAllowed byte =>
    "Magic byte 0x" ++ String.ofList [hexDigit (byte.toNat / 16), hexDigit (byte.toNat % 16)] ++
      " not allowed"
  | truncatedData expected actual =>
    "Truncated data: expected " ++ Nat.repr expected ++ " bytes, got " ++ Nat.repr actual

end MagicByteError

namespace MagicBytes

/-- `MagicByte::all`: block, preattestation, attestation. -/
def all : List UInt8 := [0x11, 0x12, 0x13]

/-- `check_magic_byte`. -/
def checkMagicByte (data : List UInt8) (allowed : Option (List UInt8)) :
    Except MagicByteError Unit :=
  match allowed with
  | none => .ok ()
  | some allowed =>
    match data with
    | [] => .error .emptyData
    | byte :: _ => if byte ∈ allowed then .ok () else .error (.notAllowed byte)

/-- The offset of the fitness length in a block header. -/
def fitnessOffset : Nat := 1 + 4 + 4 + 1 + 32 + 8 + 1 + 32

/-- `get_level_and_round_for_tenderbake_block`. -/
def getLevelAndRoundForTenderbakeBlock (data : List UInt8) :
    Except MagicByteError (UInt32 × UInt32) :=
  if hmin : data.length < fitnessOffset then .error .emptyData
  else
    have hlevel : 5 + 4 ≤ data.length := by simp only [fitnessOffset] at hmin; omega
    let level := read32 data 5 hlevel
    if hfit : data.length < fitnessOffset + 4 then
      .error (.truncatedData (fitnessOffset + 4) data.length)
    else
      let fitnessLength := (read32 data fitnessOffset (by omega)).toNat
      let roundOffset := fitnessOffset + fitnessLength
      -- the round is the word that ends here
      if hround : roundOffset < 4 ∨ data.length < roundOffset then
        .error (.truncatedData (max roundOffset 4) data.length)
      else .ok (level, read32 data (roundOffset - 4) (by omega))

/-- `get_level_and_round_for_tenderbake_attestation`, preattestations included. -/
def getLevelAndRoundForTenderbakeAttestation (data : List UInt8) (isBls : Bool) :
    Except MagicByteError (UInt32 × UInt32) :=
  -- only the other key types sign the slot
  let levelOffset := if isBls then 1 + 4 + 32 + 1 else 1 + 4 + 32 + 1 + 2
  if h : data.length < levelOffset + 8 then
    .error (.truncatedData (levelOffset + 8) data.length)
  else .ok (read32 data levelOffset (by omega), read32 data (levelOffset + 4) (by omega))

/-- `get_chain_id_for_tenderbake`. -/
def getChainIdForTenderbake (data : List UInt8) : Option (Fixed 4) :=
  if h : data.length < 5 then none
  else if data[0] = 0x11 ∨ data[0] = 0x12 ∨ data[0] = 0x13 then
    some ⟨(data.drop 1).take 4, by simp only [List.length_take, List.length_drop]; omega⟩
  else none

/-- A body whose first byte is allowed passes the check. -/
theorem checkMagicByte_of_head {data : List UInt8} {magic : UInt8} {allowed : List UInt8}
    (hhead : data.head? = some magic) (hmagic : magic ∈ allowed) :
    checkMagicByte data (some allowed) = .ok () := by
  cases data with
  | nil => cases hhead
  | cons magicByte rest =>
    cases hhead
    exact if_pos hmagic

/-- A body that names a chain starts with a byte that is allowed. -/
theorem checkMagicByte_of_chain {data : List UInt8} {chain : Fixed 4}
    (h : getChainIdForTenderbake data = some chain) : checkMagicByte data (some all) = .ok () := by
  rw [getChainIdForTenderbake] at h
  split_ifs at h with hlen hop
  have hhead : data.head? = some data[0] :=
    List.head?_eq_getElem? ▸ List.getElem?_eq_getElem (by omega)
  have hmagic : data[0] ∈ all := by
    simpa only [all, List.mem_cons, List.not_mem_nil, or_false] using hop
  exact checkMagicByte_of_head hhead hmagic

/-! ## What the parsers have in common -/

/-- The level and round of a request whose first byte names the operation type. -/
def levelRoundOf : OperationType → List UInt8 → Except MagicByteError (UInt32 × UInt32)
  | .block, data => getLevelAndRoundForTenderbakeBlock data
  | .preattestation, data | .attestation, data =>
    getLevelAndRoundForTenderbakeAttestation data true

end MagicBytes

end Russignol
