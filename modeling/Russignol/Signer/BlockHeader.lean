import Russignol.Signer.SignEffect

/-!
# The round of a block

A Tenderbake block header closes with its fitness: the length of the fitness, its bytes, and among
these the round last. `get_level_and_round_for_tenderbake_block` takes the length to count itself:
what it returns as the round stands four bytes before the round (`levelAndRound_encode`), and the
two agree in `tenderbake_round_iff`. Whatever the length word says, the addition stays within 64
bits and every read within the data (`getLevelAndRoundUsize_eq`).
-/

namespace Russignol

open Bytes

/-- A block header, and what follows it. -/
structure BlockHeader where
  chainId : Fixed 4
  level : UInt32
  proto : UInt8
  predecessor : Fixed 32
  timestamp : Fixed 8
  validationPass : UInt8
  operationsHash : Fixed 32
  fitness : List UInt8
  rest : List UInt8
  hasRound : 4 ≤ fitness.length
  hasLength : fitness.length < 2 ^ 32

namespace BlockHeader

/-- The header up to the fitness. -/
def start (h : BlockHeader) : List UInt8 :=
  [0x11] ++ h.chainId.1 ++ be32 h.level ++ [h.proto] ++ h.predecessor.1 ++ h.timestamp.1 ++
    [h.validationPass] ++ h.operationsHash.1

/-- The fitness after its length. -/
def sizedFitness (h : BlockHeader) : List UInt8 :=
  be32 (UInt32.ofNat h.fitness.length) ++ h.fitness

/-- The bytes of a header. -/
def encode (h : BlockHeader) : List UInt8 := h.start ++ h.sizedFitness ++ h.rest

/-- The fitness starts where the code looks for it. -/
theorem length_start (h : BlockHeader) : h.start.length = MagicBytes.fitnessOffset := by
  simp [start, h.chainId.2, h.predecessor.2, h.timestamp.2, h.operationsHash.2,
    MagicBytes.fitnessOffset]

/-- The fitness has four bytes of length in front. -/
theorem length_sizedFitness (h : BlockHeader) : h.sizedFitness.length = 4 + h.fitness.length := by
  rw [sizedFitness, List.length_append, be32_length]

/-- The length of a header. -/
theorem length_encode (h : BlockHeader) :
    h.encode.length = MagicBytes.fitnessOffset + (4 + h.fitness.length) + h.rest.length := by
  rw [encode, List.length_append, List.length_append, length_start, length_sizedFitness]

/-- The round: the last four bytes of the fitness. -/
def round (h : BlockHeader) : UInt32 :=
  read32 h.fitness (h.fitness.length - 4) (by have := h.hasRound; omega)

/-- The four bytes before the round: of a fitness of four bytes, its length. -/
def beforeRound (h : BlockHeader) : UInt32 :=
  read32 h.sizedFitness (h.fitness.length - 4) (by
    have := h.hasRound
    rw [length_sizedFitness]
    omega)

end BlockHeader

/-- Reading a word inside a part of the data. -/
theorem read32_append (before data after : List UInt8) {i j : Nat} (h : i + 4 ≤ data.length)
    (hj : j = before.length + i) (h' : j + 4 ≤ (before ++ data ++ after).length) :
    read32 (before ++ data ++ after) j h' = read32 data i h := by
  subst hj
  have hat : ∀ k, (hk : i + k < data.length) →
      (hk' : before.length + i + k < (before ++ data ++ after).length) →
      (before ++ data ++ after)[before.length + i + k] = data[i + k] := by
    intro k hk hk'
    rw [List.getElem_append_left (by rw [List.length_append]; omega),
      List.getElem_append_right (by omega)]
    congr 1
    omega
  have h0 := hat 0 (by omega) (by omega)
  have h1 := hat 1 (by omega) (by omega)
  have h2 := hat 2 (by omega) (by omega)
  have h3 := hat 3 (by omega) (by omega)
  simp only [Nat.add_zero] at h0
  rw [read32, read32, h0, h1, h2, h3]

/-- **What the parser reads of a header**: its level, and the four bytes before its round. -/
theorem levelAndRound_encode (h : BlockHeader) :
    MagicBytes.getLevelAndRoundForTenderbakeBlock h.encode = .ok (h.level, h.beforeRound) := by
  have hmin := h.hasRound
  have hmax := h.hasLength
  have hlen := h.length_encode
  have hoffset : MagicBytes.fitnessOffset = 83 := rfl
  have hlevel : read32 h.encode 5 (by omega) = h.level := by
    refine read32_eq ([0x11] ++ h.chainId.1) ([h.proto] ++ (h.predecessor.1 ++ (h.timestamp.1 ++
      ([h.validationPass] ++ (h.operationsHash.1 ++ (h.sizedFitness ++ h.rest)))))) ?_ ?_ _
    · simp only [BlockHeader.encode, BlockHeader.start, List.append_assoc]
    · rw [List.length_append, h.chainId.2]
      rfl
  have hsize : read32 h.encode 83 (by omega) = UInt32.ofNat h.fitness.length := by
    refine read32_eq h.start (h.fitness ++ h.rest) ?_ ?_ _
    · simp only [BlockHeader.encode, BlockHeader.sizedFitness, List.append_assoc]
    · rw [h.length_start, hoffset]
  have hnat : (UInt32.ofNat h.fitness.length).toNat = h.fitness.length := by
    rw [UInt32.toNat_ofNat']
    exact Nat.mod_eq_of_lt hmax
  have hround : read32 h.encode (83 + h.fitness.length - 4) (by omega) = h.beforeRound := by
    refine read32_append h.start h.sizedFitness h.rest _ ?_ _
    rw [h.length_start, hoffset]
    omega
  simp only [MagicBytes.getLevelAndRoundForTenderbakeBlock, hoffset, hsize, hnat]
  rw [dif_neg (by omega), dif_neg (by omega), dif_neg (by omega)]
  exact congrArg Except.ok (Prod.ext hlevel hround)

/-! ## The arithmetic of the machine -/

/-- The word of four bytes of a slice; an index out of bounds has no value. -/
def wordAt (data : List UInt8) (a b c d : UInt64) : Option UInt32 :=
  match data[a.toNat]?, data[b.toNat]?, data[c.toNat]?, data[d.toNat]? with
  | some a, some b, some c, some d => some (ofBe32 a b c d)
  | _, _, _, _ => none

/-- `get_level_and_round_for_tenderbake_block` with the offsets in 64 bits, where sums wrap around,
and the indices checked where the bytes are read. -/
def getLevelAndRoundUsize (data : List UInt8) :
    Option (Except MagicByteError (UInt32 × UInt32)) :=
  if data.length < MagicBytes.fitnessOffset then some (.error .emptyData)
  else
    match wordAt data 5 6 7 8 with
    | none => none
    | some level =>
      if data.length < MagicBytes.fitnessOffset + 4 then
        some (.error (.truncatedData (MagicBytes.fitnessOffset + 4) data.length))
      else
        match wordAt data 83 84 85 86 with
        | none => none
        | some fitnessLength =>
          let roundOffset := 83 + fitnessLength.toUInt64
          if roundOffset.toNat < 4 ∨ data.length < roundOffset.toNat then
            some (.error (.truncatedData (max roundOffset.toNat 4) data.length))
          else
            (wordAt data (roundOffset - 4) (roundOffset - 3) (roundOffset - 2)
              (roundOffset - 1)).map fun round => .ok (level, round)

/-- Four indices in a row, within the slice. -/
theorem wordAt_eq {data : List UInt8} {a b c d : UInt64} {i : Nat} (ha : a.toNat = i)
    (hb : b.toNat = i + 1) (hc : c.toNat = i + 2) (hd : d.toNat = i + 3)
    (h : i + 4 ≤ data.length) : wordAt data a b c d = some (read32 data i h) := by
  rw [wordAt, ha, hb, hc, hd, List.getElem?_eq_getElem (by omega),
    List.getElem?_eq_getElem (by omega), List.getElem?_eq_getElem (by omega),
    List.getElem?_eq_getElem (by omega)]
  rfl

/-- **No sum wraps around and no index is out of bounds**, of whatever bytes. -/
theorem getLevelAndRoundUsize_eq (data : List UInt8) :
    getLevelAndRoundUsize data = some (MagicBytes.getLevelAndRoundForTenderbakeBlock data) := by
  have hoffset : MagicBytes.fitnessOffset = 83 := rfl
  unfold getLevelAndRoundUsize MagicBytes.getLevelAndRoundForTenderbakeBlock
  by_cases hmin : data.length < 83
  · rw [if_pos (hoffset ▸ hmin), dif_pos (hoffset ▸ hmin)]
  · have hlevel : wordAt data 5 6 7 8 = some (read32 data 5 (by omega)) :=
      wordAt_eq rfl rfl rfl rfl _
    rw [if_neg (hoffset ▸ hmin), dif_neg (hoffset ▸ hmin), hlevel]
    by_cases hfit : data.length < 83 + 4
    · simp only [hoffset, if_pos hfit, dif_pos hfit]
    · have hword : wordAt data 83 84 85 86 = some (read32 data 83 (by omega)) :=
        wordAt_eq rfl rfl rfl rfl _
      simp only [hoffset, if_neg hfit, dif_neg hfit, hword]
      obtain ⟨size, hsize⟩ : ∃ size, size = read32 data 83 (by omega) := ⟨_, rfl⟩
      simp only [← hsize]
      have hlt := size.toNat_lt
      have hsum : ((83 : UInt64) + size.toUInt64).toNat = 83 + size.toNat := by
        rw [UInt64.toNat_add, UInt32.toNat_toUInt64]
        exact Nat.mod_eq_of_lt (by
          show 83 + size.toNat < 2 ^ 64
          omega)
      obtain ⟨roundOffset, hround⟩ : ∃ o, o = (83 : UInt64) + size.toUInt64 := ⟨_, rfl⟩
      rw [← hround] at hsum ⊢
      by_cases hdata : data.length < 83 + size.toNat
      · rw [if_pos (.inr (hsum ▸ hdata)), dif_pos (.inr hdata), hsum]
      · have hback : ∀ k : UInt64, k.toNat ≤ 4 →
            (roundOffset - k).toNat = 83 + size.toNat - k.toNat := by
          intro k hk
          rw [UInt64.toNat_sub_of_le _ _ (UInt64.le_iff_toNat_le.2 (by omega)), hsum]
        have h4 : (roundOffset - 4).toNat = 83 + size.toNat - 4 := hback 4 (by decide)
        have h3 : (roundOffset - 3).toNat = 83 + size.toNat - 4 + 1 := by
          have := hback 3 (by decide)
          rw [show (3 : UInt64).toNat = 3 from rfl] at this
          omega
        have h2 : (roundOffset - 2).toNat = 83 + size.toNat - 4 + 2 := by
          have := hback 2 (by decide)
          rw [show (2 : UInt64).toNat = 2 from rfl] at this
          omega
        have h1 : (roundOffset - 1).toNat = 83 + size.toNat - 4 + 3 := by
          have := hback 1 (by decide)
          rw [show (1 : UInt64).toNat = 1 from rfl] at this
          omega
        rw [if_neg (by omega), dif_neg (by omega), wordAt_eq h4 h3 h2 h1 (by omega)]
        rfl

/-! ## The round -/

/-- **The round of a block is read where the four bytes before it are the same**, of every header;
and of whatever bytes the parser neither wraps around nor reads out of bounds. -/
theorem tenderbake_round_iff (h : BlockHeader) (data : List UInt8) :
    (MagicBytes.getLevelAndRoundForTenderbakeBlock h.encode = .ok (h.level, h.round) ↔
      h.beforeRound = h.round) ∧
    getLevelAndRoundUsize data =
      some (MagicBytes.getLevelAndRoundForTenderbakeBlock data) := by
  refine ⟨?_, getLevelAndRoundUsize_eq data⟩
  rw [levelAndRound_encode]
  constructor
  · intro heq
    exact (Prod.ext_iff.1 (Except.ok.inj heq)).2
  · intro heq
    rw [heq]

/-- The block of a level with a round: the fitness is a version, the level, no locked round, the
round before and the round, each after its length. -/
def tenderbakeBlock (level round : UInt32) : BlockHeader where
  chainId := zeros 4
  level := level
  proto := 0
  predecessor := zeros 32
  timestamp := zeros 8
  validationPass := 0
  operationsHash := zeros 32
  fitness := be32 1 ++ [2] ++ be32 4 ++ be32 level ++ be32 0 ++ be32 4 ++ be32 0xffffffff ++
    be32 4 ++ be32 round
  rest := []
  hasRound := by simp
  hasLength := by simp

/-- Of the blocks of a level all have the round four. -/
theorem tenderbake_round_frozen :
    (¬∀ h : BlockHeader, MagicBytes.getLevelAndRoundForTenderbakeBlock h.encode =
      .ok (h.level, h.round)) ∧
    ¬∀ h h' : BlockHeader, h.level = h'.level → h.round ≠ h'.round →
      markOf h.encode ≠ markOf h'.encode := by
  constructor
  · intro hall
    have hparse := hall (tenderbakeBlock 1 0)
    rw [levelAndRound_encode] at hparse
    revert hparse
    decide +kernel
  · intro hall
    refine hall (tenderbakeBlock 1 0) (tenderbakeBlock 1 1) rfl (by decide +kernel) ?_
    decide +kernel

end Russignol
