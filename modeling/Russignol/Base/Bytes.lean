import Mathlib.Algebra.Ring.Nat
import Mathlib.Data.List.Basic
import Mathlib.Tactic.Common

/-!
# Byte strings

Fixed-length byte arrays as subtypes of `List UInt8`, the big-endian coding of 32-bit words, and
the positional write that overwrites a prefix of a file and keeps the rest. The coding is a
bijection between words and four-byte strings (`ofBe32_be32`, `be32_ofBe32`), so a header of words
determines its words (`be32_append_inj`).
-/

namespace Bytes

/-- A byte array of length `n`. -/
abbrev Fixed (n : Nat) := { l : List UInt8 // l.length = n }

/-- The byte at an index of a fixed array, in bounds by its type. -/
def Fixed.get {n : Nat} (b : Fixed n) (i : Fin n) : UInt8 := b.1.get (i.cast b.2.symm)

/-- The array of `n` zero bytes. -/
def zeros (n : Nat) : Fixed n := ⟨List.replicate n 0, List.length_replicate⟩

/-- A 32-bit word, most significant byte first. -/
def be32 (x : UInt32) : List UInt8 :=
  [UInt8.ofNat (x.toNat / 2 ^ 24), UInt8.ofNat (x.toNat / 2 ^ 16), UInt8.ofNat (x.toNat / 2 ^ 8),
    UInt8.ofNat x.toNat]

/-- The 32-bit word of four bytes, most significant first. -/
def ofBe32 (a b c d : UInt8) : UInt32 :=
  UInt32.ofNat (a.toNat * 2 ^ 24 + b.toNat * 2 ^ 16 + c.toNat * 2 ^ 8 + d.toNat)

/-- The 32-bit word at an index of a byte string, in bounds by its last argument. -/
def read32 (data : List UInt8) (i : Nat) (h : i + 4 ≤ data.length) : UInt32 :=
  ofBe32 data[i] data[i + 1] data[i + 2] data[i + 3]

@[simp] theorem be32_length (x : UInt32) : (be32 x).length = 4 := rfl

/-- The value of a word read from four bytes. -/
theorem ofBe32_toNat (a b c d : UInt8) : (ofBe32 a b c d).toNat =
    a.toNat * 2 ^ 24 + b.toNat * 2 ^ 16 + c.toNat * 2 ^ 8 + d.toNat := by
  have ha := a.toNat_lt
  have hb := b.toNat_lt
  have hc := c.toNat_lt
  have hd := d.toNat_lt
  rw [ofBe32, UInt32.toNat_ofNat']
  exact Nat.mod_eq_of_lt (by omega)

/-- Reading back a written word. -/
theorem ofBe32_be32 (x : UInt32) :
    ofBe32 (UInt8.ofNat (x.toNat / 2 ^ 24)) (UInt8.ofNat (x.toNat / 2 ^ 16))
      (UInt8.ofNat (x.toNat / 2 ^ 8)) (UInt8.ofNat x.toNat) = x := by
  apply UInt32.toNat_inj.1
  have hx := x.toNat_lt
  simp only [ofBe32_toNat, UInt8.toNat_ofNat']
  omega

/-- Reading a word where it was written. -/
theorem read32_eq (before after : List UInt8) {data : List UInt8} {x : UInt32} {i : Nat}
    (hdata : data = before ++ (be32 x ++ after)) (hi : i = before.length)
    (h : i + 4 ≤ data.length) : read32 data i h = x := by
  subst hdata hi
  simpa [read32, be32, List.getElem_append_right] using ofBe32_be32 x

/-- Four bytes are the coding of the word they spell. -/
theorem be32_ofBe32 (a b c d : UInt8) : be32 (ofBe32 a b c d) = [a, b, c, d] := by
  have ha := a.toNat_lt
  have hb := b.toNat_lt
  have hc := c.toNat_lt
  have hd := d.toNat_lt
  simp only [be32, ofBe32_toNat, List.cons.injEq, and_true]
  refine ⟨?_, ?_, ?_, ?_⟩ <;> (apply UInt8.toNat_inj.1; rw [UInt8.toNat_ofNat']; omega)

/-- The coding of a word determines it. -/
theorem be32_injective : Function.Injective be32 := by
  intro x y h
  simp only [be32, List.cons.injEq, and_true] at h
  rw [← ofBe32_be32 x, ← ofBe32_be32 y, h.1, h.2.1, h.2.2.1, h.2.2.2]

/-- A header of two words determines both. -/
theorem be32_append_inj {x y x' y' : UInt32} (h : be32 x ++ be32 y = be32 x' ++ be32 y') :
    x = x' ∧ y = y' := by
  obtain ⟨h1, h2⟩ := List.append_inj h rfl
  exact ⟨be32_injective h1, be32_injective h2⟩

/-- Overwriting the start of `old` with `buf`: bytes past the end of `buf` stay. -/
def writeAt0 (buf old : List UInt8) : List UInt8 := buf ++ old.drop buf.length

/-- A positional write never shortens a file. -/
theorem length_writeAt0 (buf old : List UInt8) :
    (writeAt0 buf old).length = max buf.length old.length := by
  simp only [writeAt0, List.length_append, List.length_drop]
  omega

/-- On a file no longer than the buffer, the write leaves exactly the buffer. -/
theorem writeAt0_of_le {buf old : List UInt8} (h : old.length ≤ buf.length) :
    writeAt0 buf old = buf := by
  rw [writeAt0, List.drop_of_length_le h, List.append_nil]

end Bytes
