import Mathlib.Data.Set.Function
import Russignol.Signer.TestUtils

/-!
# Torn records

A record that was being overwritten when the power went holds the first bytes of the new record and
the last of the old one. Its checksum is still that of one of the two where it authenticates at all,
so it reads as the old mark, as the new one, or not (`torn_record_reads`).
-/

namespace Russignol

open Bytes

namespace Watermark

/-- The first `k` bytes of the new record before the rest of the old one. -/
def torn (k : Nat) (new old : Fixed authFileSize) : Fixed authFileSize :=
  ⟨new.1.take k ++ old.1.drop k, by
    rw [List.length_append, List.length_take, List.length_drop, new.2, old.2]
    omega⟩

/-- Behind the cut everything is old. -/
theorem drop_torn {k n : Nat} (new old : Fixed authFileSize) (h : k ≤ n) :
    (torn k new old).1.drop n = old.1.drop n := by
  have hlen : (new.1.take k).length ≤ n := (List.length_take_le k new.1).trans h
  by_cases hk : k ≤ authFileSize
  · have htake : (new.1.take k).length = k := by
      rw [List.length_take, new.2, Nat.min_eq_left hk]
    rw [torn, List.drop_append, List.drop_of_length_le hlen, List.nil_append, htake,
      List.drop_drop, Nat.add_sub_cancel' h]
  · have hold : old.1.drop n = [] := List.drop_of_length_le (by rw [old.2]; omega)
    rw [hold]
    exact List.drop_of_length_le (by rw [(torn k new old).2]; omega)

/-- Before the cut everything is new. -/
theorem take_torn {k n : Nat} (new old : Fixed authFileSize) (h : n ≤ k)
    (hn : n ≤ authFileSize) : (torn k new old).1.take n = new.1.take n := by
  have hlen : n ≤ (new.1.take k).length := by
    rw [List.length_take, new.2]
    exact le_min h hn
  rw [torn, List.take_append_of_le_length hlen, List.take_take, Nat.min_eq_left h]

variable [Blake3]

/-- The checksum of an authenticated record. -/
theorem hash_encodeAuthenticated (macKey : MacKey) (ad : List UInt8) (level round : UInt32) :
    ((encodeAuthenticated macKey ad level round).1.drop 8).take 32 =
      (Blake3.hash (levelRound level round)).1 := by
  have hdrop : (encode level round).1.drop 8 = (Blake3.hash (levelRound level round)).1 := by
    rw [encode_val, List.drop_append_of_le_length (by simp)]
    rfl
  have hlen : ((encode level round).1.drop 8).length = 32 := by
    rw [hdrop]
    exact (Blake3.hash _).2
  have height : 8 ≤ (encode level round).1.length := by
    rw [(encode level round).2]
    decide
  rw [encodeAuthenticated_val, List.drop_append_of_le_length height,
    List.take_append_of_le_length hlen.ge, List.take_of_length_le hlen.le, hdrop]

/-- What the checksum is of, of records whose checksum is of one header each. -/
theorem levelRound_of_hash {level round level' round' : UInt32}
    (hhash : Set.InjOn Blake3.hash {data : List UInt8 | data.length = 8})
    (h : (Blake3.hash (levelRound level round)).1 = (Blake3.hash (levelRound level' round')).1) :
    level = level' ∧ round = round' := by
  have hhead := hhash (levelRound_length level round) (levelRound_length level' round')
    (Subtype.ext h)
  exact be32_append_inj hhead

/-- **Records are read exactly, and torn ones as one of the two or not at all**: of every key and
associated data, every pair of records that are read and every cut. -/
theorem torn_record_reads (hhash : Set.InjOn Blake3.hash {data : List UInt8 | data.length = 8})
    (macKey : MacKey) (ad : List UInt8) :
    (∀ buf level round, decodeAuthenticated macKey ad buf = some (level, round) ↔
      buf = encodeAuthenticated macKey ad level round) ∧
    ∀ old new oldMark newMark k, decodeAuthenticated macKey ad old = some oldMark →
      decodeAuthenticated macKey ad new = some newMark →
      decodeAuthenticated macKey ad (torn k new old) = some oldMark ∨
        decodeAuthenticated macKey ad (torn k new old) = some newMark ∨
        decodeAuthenticated macKey ad (torn k new old) = none := by
  constructor
  · intro buf level round
    constructor
    · exact decodeAuthenticated_some
    · rintro rfl
      exact decodeAuthenticated_encode macKey ad level round
  · intro old new oldMark newMark k hold hnew
    obtain ⟨oldLevel, oldRound⟩ := oldMark
    obtain ⟨newLevel, newRound⟩ := newMark
    obtain rfl := decodeAuthenticated_some hold
    obtain rfl := decodeAuthenticated_some hnew
    obtain ⟨buf, hbuf⟩ : ∃ buf, buf = torn k (encodeAuthenticated macKey ad newLevel newRound)
      (encodeAuthenticated macKey ad oldLevel oldRound) := ⟨_, rfl⟩
    rw [← hbuf]
    cases hread : decodeAuthenticated macKey ad buf with
    | none => exact .inr (.inr rfl)
    | some mark =>
      obtain ⟨level, round⟩ := mark
      have hval := congrArg Subtype.val (decodeAuthenticated_some hread)
      rcases Nat.le_total k 8 with hk | hk
      · -- the checksum is the old one
        have hdrop := drop_torn (encodeAuthenticated macKey ad newLevel newRound)
          (encodeAuthenticated macKey ad oldLevel oldRound) hk
        rw [← hbuf, hval] at hdrop
        have hsum := congrArg (List.take 32) hdrop
        rw [hash_encodeAuthenticated, hash_encodeAuthenticated] at hsum
        obtain ⟨rfl, rfl⟩ := levelRound_of_hash hhash hsum
        exact .inl rfl
      · -- the header is the new one
        have hhead := take_torn (encodeAuthenticated macKey ad newLevel newRound)
          (encodeAuthenticated macKey ad oldLevel oldRound) hk (by decide)
        rw [← hbuf, hval, take_eight_encodeAuthenticated, take_eight_encodeAuthenticated] at hhead
        obtain ⟨rfl, rfl⟩ := be32_append_inj hhead
        exact .inr (.inl rfl)

end Watermark

section

attribute [local instance] plainBlake3

/-- A record of level 5 under one of level 261, torn inside the level. -/
theorem torn_record_reads_level :
    let record level round := Watermark.encodeAuthenticated (zeros 32) [] level round
    let read buf := Watermark.decodeAuthenticated (zeros 32) [] buf
    (read (record 5 0) = some (5, 0) ↔ record 5 0 = record 5 0) ∧
      (read (Watermark.torn 3 (record 261 1) (record 5 0)) = some (5, 0) ∨
        read (Watermark.torn 3 (record 261 1) (record 5 0)) = some (261, 1) ∨
        read (Watermark.torn 3 (record 261 1) (record 5 0)) = none) := by
  have hhash : Set.InjOn Blake3.hash {data : List UInt8 | data.length = 8} := by
    intro data hdata data' hdata' heq
    have hval : (data ++ List.replicate 32 0).take 32 = (data' ++ List.replicate 32 0).take 32 :=
      congrArg Subtype.val heq
    have hhead := congrArg (List.take 8) hval
    rw [List.take_take, List.take_take, show min 8 32 = 8 from rfl, List.take_left' hdata,
      List.take_left' hdata'] at hhead
    exact hhead
  obtain ⟨hexact, htorn⟩ := Watermark.torn_record_reads hhash (zeros 32) []
  exact ⟨hexact _ 5 0, htorn _ _ _ _ 3 (Watermark.decodeAuthenticated_encode ..)
    (Watermark.decodeAuthenticated_encode ..)⟩

end

end Russignol
