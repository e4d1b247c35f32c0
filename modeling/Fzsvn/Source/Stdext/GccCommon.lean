import Mathlib.Init

/-!
# Alignment

`align_num` and `align_ptr` of `basic/stdext/gcc_common.h` on a 64-bit machine. Addresses are
numbers, and the mask of `align_ptr` clears the three low bits.
-/
namespace Fzsvn.Source.Stdext

def alignNum (n : Nat) : Nat := (n + 7) / 8 * 8

def alignPtr (p : Nat) : Nat := (p + 7) / 8 * 8

variable {n p q : Nat}

lemma le_alignNum : n ≤ alignNum n := by
  rw [alignNum]
  omega

lemma alignNum_mod : alignNum n % 8 = 0 := Nat.mul_mod_left _ _

lemma le_alignPtr : p ≤ alignPtr p := le_alignNum

lemma alignPtr_mod : alignPtr p % 8 = 0 := alignNum_mod

/-- An aligned address stays an upper bound. -/
lemma alignPtr_le (below : p ≤ q) (aligned : q % 8 = 0) : alignPtr p ≤ q := by
  rw [alignPtr]
  omega

end Fzsvn.Source.Stdext
