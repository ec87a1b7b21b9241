import Mathlib.Order.Nat
import Russignol.Base.Bytes

/-!
# Watermark records

The record formats of `libs/storage/src/watermark.rs`: 40 bytes of level, round and checksum, and
72 bytes with a keyed MAC over the associated data and the level and round. BLAKE3 comes from a
crate, so its two modes are the fields of `Blake3`; nothing here depends on what they compute. A
record decodes under the key and data it was encoded with (`decodeAuthenticated_encode`), and a
record that decodes is the encoding of what it decodes to (`decodeAuthenticated_some`): the
decoder ignores no byte.
-/

namespace Russignol

open Bytes

/-- The `blake3` crate: the plain hash and the keyed hash. -/
class Blake3 where
  hash : List UInt8 → Fixed 32
  keyedHash : Fixed 32 → List UInt8 → Fixed 32

namespace Watermark

/-- A MAC key of a signing key's watermark files. -/
abbrev MacKey := Fixed 32

/-- `FILE_SIZE`. -/
abbrev fileSize : Nat := 40

/-- `AUTH_FILE_SIZE`. -/
abbrev authFileSize : Nat := fileSize + 32

/-- The first eight bytes of a record. -/
def levelRound (level round : UInt32) : List UInt8 := be32 level ++ be32 round

@[simp] theorem levelRound_length (level round : UInt32) : (levelRound level round).length = 8 :=
  rfl

/-- A level and a round read from eight bytes spell those bytes. -/
theorem levelRound_ofBe32 (a b c d e f g h : UInt8) :
    levelRound (ofBe32 a b c d) (ofBe32 e f g h) = [a, b, c, d, e, f, g, h] := by
  rw [levelRound, be32_ofBe32, be32_ofBe32]
  rfl

variable [Blake3]

/-- `encode`. -/
def encode (level round : UInt32) : Fixed fileSize :=
  ⟨levelRound level round ++ (Blake3.hash (levelRound level round)).1, by
    simp [levelRound, (Blake3.hash _).2]⟩

/-- `decode`. -/
def decode (buf : Fixed fileSize) : Option (UInt32 × UInt32) :=
  let level := ofBe32 (buf.get 0) (buf.get 1) (buf.get 2) (buf.get 3)
  let round := ofBe32 (buf.get 4) (buf.get 5) (buf.get 6) (buf.get 7)
  let computed := Blake3.hash (buf.1.take 8)
  if (buf.1.drop 8).take 32 ≠ computed.1 then none else some (level, round)

/-- `mac`: the keyed hash over the associated data followed by level and round. -/
def mac (macKey : MacKey) (ad levelRound : List UInt8) : Fixed 32 :=
  Blake3.keyedHash macKey (ad ++ levelRound)

/-- `encode_authenticated`. -/
def encodeAuthenticated (macKey : MacKey) (ad : List UInt8) (level round : UInt32) :
    Fixed authFileSize :=
  ⟨(encode level round).1 ++ (mac macKey ad (levelRound level round)).1, by
    rw [List.length_append, (encode level round).2, (mac _ _ _).2]⟩

/-- `decode_authenticated`. -/
def decodeAuthenticated (macKey : MacKey) (ad : List UInt8) (buf : Fixed authFileSize) :
    Option (UInt32 × UInt32) :=
  match decode ⟨buf.1.take fileSize, by simp [buf.2]⟩ with
  | none => none
  | some lr =>
    let expected := mac macKey ad (buf.1.take 8)
    if expected.1 = (buf.1.drop fileSize).take 32 then some lr else none

/-! ## Round trips -/

/-- The bytes of a plain record. -/
theorem encode_val (level round : UInt32) : (encode level round).1 =
    levelRound level round ++ (Blake3.hash (levelRound level round)).1 := rfl

/-- The bytes of an authenticated record. -/
theorem encodeAuthenticated_val (macKey : MacKey) (ad : List UInt8) (level round : UInt32) :
    (encodeAuthenticated macKey ad level round).1 =
      (encode level round).1 ++ (mac macKey ad (levelRound level round)).1 := rfl

/-- The header of a plain record. -/
theorem take_encode (level round : UInt32) :
    (encode level round).1.take 8 = levelRound level round := by
  rw [encode_val, List.take_append_of_le_length (by simp)]
  rfl

/-- A plain record decodes to what it encodes. -/
theorem decode_encode (level round : UInt32) : decode (encode level round) = some (level, round) := by
  have htail : ((encode level round).1.drop 8).take 32 =
      (Blake3.hash (levelRound level round)).1 := by
    rw [encode_val, List.drop_append_of_le_length (by simp)]
    exact List.take_of_length_le (Blake3.hash _).2.le
  have hlevel : ofBe32 ((encode level round).get 0) ((encode level round).get 1)
      ((encode level round).get 2) ((encode level round).get 3) = level := ofBe32_be32 level
  have hround : ofBe32 ((encode level round).get 4) ((encode level round).get 5)
      ((encode level round).get 6) ((encode level round).get 7) = round := ofBe32_be32 round
  simp only [decode, take_encode, htail, hlevel, hround, ne_eq, not_true_eq_false, if_false]

/-- A plain record that decodes is the encoding of what it decodes to. -/
theorem decode_some {buf : Fixed fileSize} {level round : UInt32}
    (h : decode buf = some (level, round)) : buf = encode level round := by
  obtain ⟨l, hl⟩ := buf
  match l, hl with
  | a :: b :: c :: d :: e :: f :: g :: i :: rest, hl =>
    have hrest : rest.length = 32 := by
      simp only [List.length_cons, fileSize] at hl
      omega
    simp only [decode] at h
    split at h
    · cases h
    · next hhash =>
      have hhash' : rest = (Blake3.hash [a, b, c, d, e, f, g, i]).1 := by
        have := not_not.1 hhash
        rwa [List.take_of_length_le (by simp [hrest])] at this
      cases h
      have hlr := levelRound_ofBe32 a b c d e f g i
      apply Subtype.ext
      change a :: b :: c :: d :: e :: f :: g :: i :: rest =
        levelRound (ofBe32 a b c d) (ofBe32 e f g i) ++
          (Blake3.hash (levelRound (ofBe32 a b c d) (ofBe32 e f g i))).1
      rw [hlr, ← hhash']
      rfl

/-- The record part of an authenticated record. -/
theorem take_encodeAuthenticated (macKey : MacKey) (ad : List UInt8) (level round : UInt32) :
    (encodeAuthenticated macKey ad level round).1.take fileSize = (encode level round).1 := by
  rw [encodeAuthenticated_val, List.take_append_of_le_length (encode level round).2.ge]
  exact List.take_of_length_le (encode level round).2.le

/-- The MAC part of an authenticated record. -/
theorem drop_encodeAuthenticated (macKey : MacKey) (ad : List UInt8) (level round : UInt32) :
    (encodeAuthenticated macKey ad level round).1.drop fileSize =
      (mac macKey ad (levelRound level round)).1 := by
  rw [encodeAuthenticated_val, List.drop_append_of_le_length (encode level round).2.ge,
    List.drop_of_length_le (encode level round).2.le, List.nil_append]

omit [Blake3] in
/-- The first eight bytes of a longer prefix. -/
theorem take_eight (buf : List UInt8) : (buf.take fileSize).take 8 = buf.take 8 := by
  rw [List.take_take]
  rfl

/-- The header of an authenticated record. -/
theorem take_eight_encodeAuthenticated (macKey : MacKey) (ad : List UInt8) (level round : UInt32) :
    (encodeAuthenticated macKey ad level round).1.take 8 = levelRound level round := by
  rw [← take_eight, take_encodeAuthenticated, take_encode]

/-- Equal records are of equal level and round, and carry equal MACs. -/
theorem encodeAuthenticated_inj {macKey macKey' : MacKey} {ad ad' : List UInt8}
    {level round level' round' : UInt32} (h : (encodeAuthenticated macKey ad level round).1 =
      (encodeAuthenticated macKey' ad' level' round').1) :
    level = level' ∧ round = round' ∧
      mac macKey ad (levelRound level round) = mac macKey' ad' (levelRound level' round') := by
  have hhead := congrArg (List.take 8) h
  have htail := congrArg (List.drop fileSize) h
  rw [take_eight_encodeAuthenticated, take_eight_encodeAuthenticated] at hhead
  rw [drop_encodeAuthenticated, drop_encodeAuthenticated] at htail
  obtain ⟨hlevel, hround⟩ := be32_append_inj hhead
  exact ⟨hlevel, hround, Subtype.ext htail⟩

/-- **An authenticated record decodes under the key and data it was encoded with.** -/
theorem decodeAuthenticated_encode (macKey : MacKey) (ad : List UInt8) (level round : UInt32) :
    decodeAuthenticated macKey ad (encodeAuthenticated macKey ad level round) =
      some (level, round) := by
  have hhead := take_eight_encodeAuthenticated macKey ad level round
  have hmac : (mac macKey ad (levelRound level round)).1.take 32 =
      (mac macKey ad (levelRound level round)).1 := List.take_of_length_le (mac _ _ _).2.le
  simp only [decodeAuthenticated, take_encodeAuthenticated, drop_encodeAuthenticated, hhead, hmac,
    Subtype.coe_eta, decode_encode, if_true]

/-- **An authenticated record that decodes is the encoding of what it decodes to.** -/
theorem decodeAuthenticated_some {macKey : MacKey} {ad : List UInt8} {buf : Fixed authFileSize}
    {level round : UInt32} (h : decodeAuthenticated macKey ad buf = some (level, round)) :
    buf = encodeAuthenticated macKey ad level round := by
  simp only [decodeAuthenticated] at h
  split at h
  · cases h
  · next lr hdec =>
    split at h
    · next hmac =>
      cases h
      have hrecord : buf.1.take fileSize = (encode level round).1 :=
        congrArg Subtype.val (decode_some hdec)
      have hhead : buf.1.take 8 = levelRound level round := by
        rw [← take_eight, hrecord, take_encode]
      have htail : buf.1.drop fileSize = (mac macKey ad (levelRound level round)).1 := by
        have hlen : (buf.1.drop fileSize).length ≤ 32 := by
          rw [List.length_drop, buf.2]
          rfl
        rw [← hhead, hmac, List.take_of_length_le hlen]
      apply Subtype.ext
      calc buf.1 = buf.1.take fileSize ++ buf.1.drop fileSize :=
            (List.take_append_drop fileSize buf.1).symm
        _ = (encodeAuthenticated macKey ad level round).1 := by
            rw [hrecord, htail, encodeAuthenticated_val]
    · cases h

end Watermark

end Russignol
