import Mathlib.Data.UInt

/-!
# Words in memory

The bytes of a word of 16 or 32 bits, the lowest first, and the word that the bytes make.
-/
namespace Fzsvn.Library.LittleEndian

def bytes32 (word : UInt32) : List UInt8 :=
  [word.toUInt8, (word >>> 8).toUInt8, (word >>> 16).toUInt8, (word >>> 24).toUInt8]

/-- The word in the first four bytes. -/
def word32 : List UInt8 → UInt32
  | b0 :: b1 :: b2 :: b3 :: _ =>
    UInt32.ofNat (b0.toNat + b1.toNat * 2 ^ 8 + b2.toNat * 2 ^ 16 + b3.toNat * 2 ^ 24)
  | _ => 0

def bytes16 (word : UInt16) : List UInt8 := [word.toUInt8, (word >>> 8).toUInt8]

/-- The word in the first two bytes. -/
def word16 : List UInt8 → UInt16
  | b0 :: b1 :: _ => UInt16.ofNat (b0.toNat + b1.toNat * 2 ^ 8)
  | _ => 0

lemma word32_bytes32 (word : UInt32) (rest : List UInt8) : word32 (bytes32 word ++ rest) = word := by
  have bound := word.toNat_lt
  simp only [bytes32, List.cons_append, word32]
  rw [← UInt32.toNat_inj]
  simp only [UInt32.toNat_ofNat', UInt32.toNat_toUInt8, UInt32.toNat_shiftRight, UInt32.reduceToNat,
    Nat.reduceMod, Nat.shiftRight_eq_div_pow]
  omega

lemma word16_bytes16 (word : UInt16) (rest : List UInt8) : word16 (bytes16 word ++ rest) = word := by
  have bound := word.toNat_lt
  simp only [bytes16, List.cons_append, word16]
  rw [← UInt16.toNat_inj]
  simp only [UInt16.toNat_ofNat', UInt16.toNat_toUInt8, UInt16.toNat_shiftRight, UInt16.reduceToNat,
    Nat.reduceMod, Nat.shiftRight_eq_div_pow]
  omega

end Fzsvn.Library.LittleEndian
