import Mathlib.Algebra.Group.Int.Defs
import Mathlib.Algebra.Group.Nat.Defs
import Mathlib.Data.Int.Basic

/-!
# Conversions to machine integers

A number that is converted to a signed 32-bit integer keeps its low bits, as one that is
converted to an unsigned 64-bit integer does. A number in the range is not changed.
-/
namespace Fzsvn.Library.MachineInt

/-- A number converted to `int`. -/
def toInt (n : Int) : Int := Int.bmod n (2 ^ 32)

/-- A number converted to `size_t`. -/
def toSize (n : Int) : Nat := (n % 2 ^ 64).toNat

variable {n : Int}

lemma toInt_small (low : -2 ^ 31 ≤ n) (hh : n < 2 ^ 31) : toInt n = n :=
  Int.bmod_eq_of_le_mul_two (by omega) (by omega)

/-- What is added may be added before the conversion. -/
lemma toInt_add (n k : Int) : toInt (toInt n + k) = toInt (n + k) :=
  Int.bmod_add_bmod

lemma toSize_small (low : 0 ≤ n) (hh : n < 2 ^ 64) : (toSize n : Int) = n := by
  rw [toSize, Int.emod_eq_of_lt low hh, Int.toNat_of_nonneg low]

lemma ofInt_natCast (n : Nat) : UInt32.ofInt n = UInt32.ofNat n := by
  rw [← UInt32.toNat_inj, UInt32.toNat_ofNat', UInt32.ofInt, UInt32.toNat_ofNat']
  omega

end Fzsvn.Library.MachineInt
