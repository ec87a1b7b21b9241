import Russignol.Signer.Device

/-!
# Requests and cards to run

A request builder of `libs/signer/src/test_utils.rs`, whose requests parse to the entry they are
given (`markOf_createAttestationData`), and a card with one key over stand-ins for the crates that
spell their input instead of digesting it.
-/

namespace Russignol

open Bytes

/-- A byte string cut or zero-filled to a length. -/
def padTo (n : Nat) (l : List UInt8) : Fixed n :=
  ⟨(l ++ List.replicate n 0).take n, by
    simp only [List.length_take, List.length_append, List.length_replicate]
    omega⟩

/-! ## Requests -/

/-- `create_attestation_data_with_chain`. -/
def createAttestationDataWithChain (chainId : Fixed 4) (level round : UInt32) : List UInt8 :=
  [0x13] ++ chainId.1 ++ List.replicate 32 0 ++ [0x15] ++ be32 level ++ be32 round

/-- An attestation body: level at 38 and round at 42. -/
theorem getLevelAndRound_attestation {data before : List UInt8} {level round : UInt32}
    (hdata : data = before ++ be32 level ++ be32 round) (hbefore : before.length = 38) :
    MagicBytes.getLevelAndRoundForTenderbakeAttestation data true = .ok (level, round) := by
  have hlen : data.length = 46 := by
    rw [hdata, List.length_append, List.length_append, hbefore, be32_length, be32_length]
  have hlevel : read32 data 38 (by omega) = level :=
    read32_eq before (be32 round) (by rw [hdata, List.append_assoc]) hbefore.symm _
  have hround : read32 data 42 (by omega) = round := by
    refine read32_eq (before ++ be32 level) [] ?_ ?_ _
    · rw [hdata, List.append_nil]
    · rw [List.length_append, hbefore, be32_length]
  simp only [MagicBytes.getLevelAndRoundForTenderbakeAttestation, if_true]
  rw [dif_neg (by omega)]
  exact congrArg Except.ok (Prod.ext hlevel hround)

/-- An attestation request claims the entry it was built with. -/
theorem markOf_createAttestationData (chainId : Fixed 4) (level round : UInt32) :
    markOf (createAttestationDataWithChain chainId level round) =
      some (.attestation, ⟨level, round⟩) :=
  markOf_eq rfl (getLevelAndRound_attestation rfl (by simp [chainId.2]))

/-! ## A card -/

/-- A stand-in for `blake3` that spells its input: the key's first bytes, the chain's and the
record's for the keyed hash. -/
@[reducible] def plainBlake3 : Blake3 where
  hash data := padTo 32 data
  keyedHash key data := padTo 32 (key.1.take 8 ++ data.take 4 ++ data.drop 32)

/-- A stand-in for the base58 crates that spells its input, one character a byte. -/
@[reducible] def plainBase58 : Base58 where
  sha256 _ := zeros 32
  encode data := String.ofList (data.map fun b => Char.ofNat b.toNat)
  decode s := some (s.toList.map fun c => UInt8.ofNat c.toNat)
  encodeCheck data := String.ofList (data.map fun b => Char.ofNat b.toNat)
  decodeCheck s := some (s.toList.map fun c => UInt8.ofNat c.toNat)

/-- The four bytes of `default_test_chain_id`. -/
def testChainBytes : Fixed 4 := ⟨[0, 0, 0, 1], rfl⟩

/-- `default_test_chain_id`. -/
def testChain : ChainId := ChainId.ofFour testChainBytes

/-- A key, by its first byte. -/
def testKey (n : UInt8) : PublicKeyHash := ⟨padTo 20 [n]⟩

/-- `test_mac_keys`: the MAC key of a key is a function of its hash. -/
def testMacKeys [Blake3] (pkhs : List PublicKeyHash) (pkh : PublicKeyHash) :
    Option Watermark.MacKey :=
  if pkh ∈ pkhs then some (Blake3.keyedHash ⟨List.replicate 32 0xAB, rfl⟩ pkh.hash.1) else none

/-- A card that holds the given keys, under the alias of the consensus key. -/
def testCard [Blake3] (pkhs : List PublicKeyHash) (blocksPerCycle : UInt32) : Card where
  handler := RequestHandler.ofSigner
    (pkhs.foldl (fun m pkh => m.addSigner pkh ⟨zeros 32⟩ "consensus") ⟨∅, ∅⟩) testChain
    (some blocksPerCycle)
  pkhs := pkhs
  macKeys := testMacKeys pkhs
  chainId := testChain
  watermarked := rfl
  provisioned := rfl

/-- A disk on which every record of the given keys is at the level, round 0. -/
def testDisk [Blake3] (pkhs : List PublicKeyHash) (level : UInt32) : Disk where
  isDir pkh := decide (pkh ∈ pkhs)
  files pkh _ := match testMacKeys pkhs pkh with
    | some macKey => (Watermark.encodeAuthenticated macKey testChain.bytes.1 level 0).1
    | none => []
  written := []

/-- A tracker with every mark of every key at the level, round 0. -/
def testWatermark [Blake3] (pkhs : List PublicKeyHash) (level : UInt32) : HighWatermark where
  knownPkhs := pkhs
  keys _ := some ⟨fun _ => some ⟨level, 0⟩, fun _ => none, fun _ => some ⟨level, 0⟩⟩
  macKeys := testMacKeys pkhs
  chainId := testChain

/-- Nothing fails while the watermarks are loaded. -/
def LoadIo.quiet : LoadIo := ⟨none, fun _ => none⟩

/-- Nothing fails during a request. -/
def SignIo.quiet : SignIo := ⟨none, .ok (zeros 96), .done, .done⟩

end Russignol
