import Mathlib.Data.UInt

/-!
# Numbers in network byte order

The number that bytes make with the highest first. Of two blocks of one length, the one that
compares lower byte by byte is the one with the lower number.
-/
namespace Fzsvn.Library.BigEndian

def number : List UInt8 → Nat
  | [] => 0
  | byte :: rest => byte.toNat * 256 ^ rest.length + number rest

/-- `memcmp`: the difference of the first two bytes that differ. -/
def memcmp : List UInt8 → List UInt8 → Int
  | byte :: rest, byte' :: rest' =>
    if byte = byte' then memcmp rest rest' else (byte.toNat : Int) - byte'.toNat
  | _, _ => 0

lemma number_lt (bytes : List UInt8) : number bytes < 256 ^ bytes.length := by
  induction bytes with
  | nil => exact Nat.one_pos
  | cons byte rest ih =>
    have most : (byte.toNat + 1) * 256 ^ rest.length ≤ 256 * 256 ^ rest.length :=
      Nat.mul_le_mul_right _ byte.toNat_lt
    rw [Nat.add_mul, Nat.one_mul] at most
    rw [number, List.length_cons, Nat.pow_succ']
    omega

lemma number_append (front back : List UInt8) :
    number (front ++ back) = number front * 256 ^ back.length + number back := by
  induction front with
  | nil => simp [number]
  | cons byte rest ih =>
    rw [List.cons_append, number, number, ih, List.length_append, Nat.pow_add, Nat.add_mul,
      Nat.mul_assoc, Nat.add_assoc]

/-- A higher first byte outweighs whatever follows. -/
lemma number_lt_of_byte_lt {byte byte' : UInt8} {rest rest' : List UInt8}
    (lower : byte.toNat < byte'.toNat) (even : rest.length = rest'.length) :
    number (byte :: rest) < number (byte' :: rest') := by
  have below := number_lt rest
  have step : (byte.toNat + 1) * 256 ^ rest.length ≤ byte'.toNat * 256 ^ rest.length :=
    Nat.mul_le_mul_right _ lower
  rw [Nat.add_mul, Nat.one_mul] at step
  rw [number, number, ← even]
  omega

lemma sign_memcmp : ∀ {front back : List UInt8}, front.length = back.length →
    (memcmp front back).sign = ((number front : Int) - number back).sign
  | [], [], _ => rfl
  | byte :: rest, byte' :: rest', even => by
    have even' : rest.length = rest'.length := Nat.succ.inj even
    rw [memcmp]
    by_cases same : byte = byte'
    · rw [if_pos same, sign_memcmp even', same, number, number, even']
      congr 1
      push_cast
      omega
    · rw [if_neg same]
      rcases Nat.lt_or_gt_of_ne (mt UInt8.toNat_inj.mp same) with lower | higher
      · have := number_lt_of_byte_lt lower even'
        rw [Int.sign_eq_neg_one_of_neg (by omega), Int.sign_eq_neg_one_of_neg (by omega)]
      · have := number_lt_of_byte_lt higher even'.symm
        rw [Int.sign_eq_one_of_pos (by omega), Int.sign_eq_one_of_pos (by omega)]

lemma number_inj {front back : List UInt8} (even : front.length = back.length)
    (same : number front = number back) : front = back := by
  induction front generalizing back with
  | nil => exact (List.length_eq_zero_iff.mp even.symm).symm
  | cons byte rest ih =>
    obtain _ | ⟨byte', rest'⟩ := back
    · cases even
    have even' : rest.length = rest'.length := Nat.succ.inj even
    have heads : byte = byte' := by
      rw [← UInt8.toNat_inj]
      by_contra differ
      rcases Nat.lt_or_gt_of_ne differ with lower | higher
      · exact absurd same (Nat.ne_of_lt (number_lt_of_byte_lt lower even'))
      · exact absurd same.symm (Nat.ne_of_lt (number_lt_of_byte_lt higher even'.symm))
    subst heads
    rw [number, number, even', Nat.add_left_cancel_iff] at same
    rw [ih even' same]

end Fzsvn.Library.BigEndian
