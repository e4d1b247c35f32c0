import Mathlib.Init

/-!
# Flat memory

Bytes by their address, with the writes of `memset` and `memcpy`.
-/
namespace Fzsvn.Library.FlatMemory

abbrev Memory := Nat → UInt8

def memset (mem : Memory) (ptr : Nat) (byte : UInt8) (n : Nat) : Memory := fun addr =>
  if ptr ≤ addr ∧ addr < ptr + n then byte else mem addr

/-- The two blocks are apart. -/
def memcpy (mem : Memory) (dst src n : Nat) : Memory := fun addr =>
  if dst ≤ addr ∧ addr < dst + n then mem (src + (addr - dst)) else mem addr

variable {mem : Memory} {ptr dst src n i addr : Nat} {byte : UInt8}

lemma memset_inside (inside : i < n) : memset mem ptr byte n (ptr + i) = byte :=
  if_pos ⟨Nat.le_add_right _ _, Nat.add_lt_add_left inside _⟩

lemma memset_outside (outside : addr < ptr ∨ ptr + n ≤ addr) : memset mem ptr byte n addr = mem addr :=
  if_neg fun inside => by omega

lemma memcpy_inside (inside : i < n) : memcpy mem dst src n (dst + i) = mem (src + i) := by
  have offset : dst + i - dst = i := Nat.add_sub_cancel_left ..
  rw [memcpy, if_pos ⟨Nat.le_add_right _ _, Nat.add_lt_add_left inside _⟩, offset]

end Fzsvn.Library.FlatMemory
