/-!
# Big-endian words

A class file stores every word with its most significant byte first.  `ofUInt16`, `ofUInt32` and
`ofUInt64` write a word as its bytes; `toUInt16`, `toUInt32` and `toUInt64` put the bytes together
again.  Both directions are plain arithmetic on `Nat`, and the lemmas say that they undo each other.
-/

namespace AnnotationGraft

/-- A piece of a file. -/
abbrev Bytes := List UInt8

namespace BigEndian

/-- The two bytes of a word. -/
def ofUInt16 (w : UInt16) : Bytes :=
  [UInt8.ofNat (w.toNat / 0x100), UInt8.ofNat w.toNat]

/-- The four bytes of a word. -/
def ofUInt32 (w : UInt32) : Bytes :=
  [UInt8.ofNat (w.toNat / 0x1000000), UInt8.ofNat (w.toNat / 0x10000),
    UInt8.ofNat (w.toNat / 0x100), UInt8.ofNat w.toNat]

/-- The eight bytes of a word. -/
def ofUInt64 (w : UInt64) : Bytes :=
  [UInt8.ofNat (w.toNat / 0x100000000000000), UInt8.ofNat (w.toNat / 0x1000000000000),
    UInt8.ofNat (w.toNat / 0x10000000000), UInt8.ofNat (w.toNat / 0x100000000),
    UInt8.ofNat (w.toNat / 0x1000000), UInt8.ofNat (w.toNat / 0x10000),
    UInt8.ofNat (w.toNat / 0x100), UInt8.ofNat w.toNat]

/-- The word made of two bytes. -/
def toUInt16 (b1 b0 : UInt8) : UInt16 :=
  UInt16.ofNat (b1.toNat * 0x100 + b0.toNat)

/-- The word made of four bytes. -/
def toUInt32 (b3 b2 b1 b0 : UInt8) : UInt32 :=
  UInt32.ofNat (b3.toNat * 0x1000000 + b2.toNat * 0x10000 + b1.toNat * 0x100 + b0.toNat)

/-- The word made of eight bytes. -/
def toUInt64 (b7 b6 b5 b4 b3 b2 b1 b0 : UInt8) : UInt64 :=
  UInt64.ofNat (b7.toNat * 0x100000000000000 + b6.toNat * 0x1000000000000
    + b5.toNat * 0x10000000000 + b4.toNat * 0x100000000 + b3.toNat * 0x1000000
    + b2.toNat * 0x10000 + b1.toNat * 0x100 + b0.toNat)

@[simp] theorem length_ofUInt16 (w : UInt16) : (ofUInt16 w).length = 2 := rfl

@[simp] theorem length_ofUInt32 (w : UInt32) : (ofUInt32 w).length = 4 := rfl

@[simp] theorem length_ofUInt64 (w : UInt64) : (ofUInt64 w).length = 8 := rfl

/-- A word is the word of its two bytes. -/
theorem toUInt16_bytes (w : UInt16) :
    toUInt16 (UInt8.ofNat (w.toNat / 0x100)) (UInt8.ofNat w.toNat) = w := by
  apply UInt16.toNat_inj.1
  have := w.toNat_lt
  simp only [toUInt16, UInt16.toNat_ofNat', UInt8.toNat_ofNat']
  omega

/-- A word is the word of its four bytes. -/
theorem toUInt32_bytes (w : UInt32) :
    toUInt32 (UInt8.ofNat (w.toNat / 0x1000000)) (UInt8.ofNat (w.toNat / 0x10000))
      (UInt8.ofNat (w.toNat / 0x100)) (UInt8.ofNat w.toNat) = w := by
  apply UInt32.toNat_inj.1
  have := w.toNat_lt
  simp only [toUInt32, UInt32.toNat_ofNat', UInt8.toNat_ofNat']
  omega

/-- A word is the word of its eight bytes. -/
theorem toUInt64_bytes (w : UInt64) :
    toUInt64 (UInt8.ofNat (w.toNat / 0x100000000000000)) (UInt8.ofNat (w.toNat / 0x1000000000000))
      (UInt8.ofNat (w.toNat / 0x10000000000)) (UInt8.ofNat (w.toNat / 0x100000000))
      (UInt8.ofNat (w.toNat / 0x1000000)) (UInt8.ofNat (w.toNat / 0x10000))
      (UInt8.ofNat (w.toNat / 0x100)) (UInt8.ofNat w.toNat) = w := by
  apply UInt64.toNat_inj.1
  have := w.toNat_lt
  simp only [toUInt64, UInt64.toNat_ofNat', UInt8.toNat_ofNat']
  omega

/-- Two bytes are the bytes of their word. -/
theorem ofUInt16_toUInt16 (b1 b0 : UInt8) : ofUInt16 (toUInt16 b1 b0) = [b1, b0] := by
  have h1 := b1.toNat_lt
  have h0 := b0.toNat_lt
  simp only [ofUInt16, toUInt16, UInt16.toNat_ofNat', List.cons.injEq, and_true]
  constructor <;> apply UInt8.toNat_inj.1 <;> simp only [UInt8.toNat_ofNat'] <;> omega

/-- Four bytes are the bytes of their word. -/
theorem ofUInt32_toUInt32 (b3 b2 b1 b0 : UInt8) :
    ofUInt32 (toUInt32 b3 b2 b1 b0) = [b3, b2, b1, b0] := by
  have h3 := b3.toNat_lt
  have h2 := b2.toNat_lt
  have h1 := b1.toNat_lt
  have h0 := b0.toNat_lt
  simp only [ofUInt32, toUInt32, UInt32.toNat_ofNat', List.cons.injEq, and_true]
  refine ⟨?_, ?_, ?_, ?_⟩ <;> apply UInt8.toNat_inj.1 <;> simp only [UInt8.toNat_ofNat'] <;> omega

/-- Eight bytes are the bytes of their word. -/
theorem ofUInt64_toUInt64 (b7 b6 b5 b4 b3 b2 b1 b0 : UInt8) :
    ofUInt64 (toUInt64 b7 b6 b5 b4 b3 b2 b1 b0) = [b7, b6, b5, b4, b3, b2, b1, b0] := by
  have h7 := b7.toNat_lt
  have h6 := b6.toNat_lt
  have h5 := b5.toNat_lt
  have h4 := b4.toNat_lt
  have h3 := b3.toNat_lt
  have h2 := b2.toNat_lt
  have h1 := b1.toNat_lt
  have h0 := b0.toNat_lt
  simp only [ofUInt64, toUInt64, UInt64.toNat_ofNat', List.cons.injEq, and_true]
  refine ⟨?_, ?_, ?_, ?_, ?_, ?_, ?_, ?_⟩ <;> apply UInt8.toNat_inj.1 <;>
    simp only [UInt8.toNat_ofNat'] <;> omega

end BigEndian

end AnnotationGraft
