import Fzsvn.Source.Packet.Decode
import Mathlib.Algebra.GroupWithZero.Nat

/-!
# The checksum of an IPv4 header

A header of at most 30 words has a sum below `2 ^ 21`, which the accumulator holds, and two
folds are enough for it: what they leave is the sum modulo 65535, with 65535 in the place of 0
unless the sum itself is 0. The complement completes the sum to a multiple of 65535.
-/
namespace Fzsvn.Guarantees.Packet.HeaderChecksum
open Source.Packet List

/-- The sum of the words. -/
def total (w : List UInt16) : Nat := (w.map UInt16.toNat).sum

/-- The sum after both folds, without a carry. -/
def folded (s : Nat) : Nat :=
  (s / 2 ^ 16 + s % 2 ^ 16 + (s / 2 ^ 16 + s % 2 ^ 16) / 2 ^ 16) % 2 ^ 16

lemma folded_spec {s : Nat} (hs : s < 2 ^ 24) :
    folded s ≤ 65535 ∧ (∃ k, s = 65535 * k + folded s) ∧ (folded s = 0 → s = 0) := by
  have hh : (s / 2 ^ 16 + s % 2 ^ 16) / 2 ^ 16 = 0 ∨ (s / 2 ^ 16 + s % 2 ^ 16) / 2 ^ 16 = 1 := by omega
  unfold folded
  refine ⟨by omega, ⟨s / 2 ^ 16 + (s / 2 ^ 16 + s % 2 ^ 16) / 2 ^ 16, by omega⟩, fun hzero => ?_⟩
  rcases hh with h | h <;> rw [h] at hzero <;> omega

lemma folded_eq_iff {s : Nat} (hs : s < 2 ^ 24) : folded s = 65535 ↔ 0 < s ∧ 65535 ∣ s := by
  obtain ⟨hle, ⟨k, hk⟩, hh⟩ := folded_spec hs
  omega

/-! ## The sum -/

lemma total_le (w : List UInt16) : total w ≤ 65535 * w.length := by
  induction w with
  | nil => exact Nat.le_refl 0
  | cons x w ih =>
    have hx := x.toNat_lt
    simp only [total, map_cons, sum_cons, length_cons] at ih ⊢
    omega

lemma total_set {i : Nat} {c : UInt16} {w : List UInt16} (hh : w[i]? = some 0) :
    total (w.set i c) = total w + c.toNat := by
  induction w generalizing i with
  | nil => cases hh
  | cons x w ih =>
    cases i with
    | zero =>
      cases hh
      simp [total, Nat.add_comm]
    | succ i =>
      have h := ih hh
      simp only [total, set_cons_succ, map_cons, sum_cons] at h ⊢
      omega

lemma foldl_total {a : UInt32} {w : List UInt16} (hhf : a.toNat + total w < 2 ^ 32) :
    (w.foldl (fun cksum word => cksum + word.toUInt32) a).toNat = a.toNat + total w := by
  induction w generalizing a with
  | nil => rfl
  | cons x w ih =>
    simp only [total, map_cons, sum_cons] at hhf ih ⊢
    have hh : (a + x.toUInt32).toNat = a.toNat + x.toNat := by
      rw [UInt32.toNat_add, UInt16.toNat_toUInt32, Nat.mod_eq_of_lt (by omega)]
    rw [foldl_cons, ih (by omega), hh, Nat.add_assoc]

/-! ## The checksum -/

/-- A header of a length that is accepted. -/
structure Header (w : List UInt16) : Prop where
  least : 10 ≤ w.length
  most : w.length ≤ 30
  even : w.length % 2 = 0

variable {w : List UInt16}

lemma Header.total_lt (h : Header w) : total w < 2 ^ 24 := by
  have hle := total_le w
  have hh := h.most
  omega

lemma and_mask {n : Nat} : n &&& 65535 = n % 2 ^ 16 := Nat.and_two_pow_sub_one_eq_mod n 16

lemma Header.cksum (h : Header w) : ipv4Cksum w = (65535 - folded (total w) : Nat) := by
  have hh := h.total_lt
  have hsum := foldl_total (a := 0) (w := w) (by simpa using Nat.lt_trans hh (by decide))
  rw [show (0 : UInt32).toNat = 0 from rfl, Nat.zero_add] at hsum
  have hlen : ¬ (w.length < 10 ∨ w.length > 30 ∨ w.length % 2 ≠ 0) := by
    obtain ⟨hleast, hmost, heven⟩ := h
    omega
  rw [ipv4Cksum, if_neg hlen]
  simp only [UInt32.toNat_toUInt16, UInt32.toNat_not, UInt32.toNat_add, UInt32.toNat_shiftRight, UInt32.toNat_and, hsum]
  simp only [UInt32.reduceToNat, Nat.reduceMod, Nat.shiftRight_eq_div_pow, and_mask, UInt32.size, folded]
  omega

/-- The checksum, stored in a word that was zero, completes the header; the order of the words
does not matter; and the checksum is zero exactly for a sum that is a multiple of 65535. -/
theorem cksum_completes (h : Header w) :
    (∀ i, w[i]? = some 0 → ∃ c : UInt16, ipv4Cksum w = c.toNat ∧ ipv4Cksum (w.set i c) = 0) ∧
      (∀ w' : List UInt16, w.Perm w' → ipv4Cksum w' = ipv4Cksum w) ∧
      (ipv4Cksum w = 0 ↔ 0 < (w.map UInt16.toNat).sum ∧ 65535 ∣ (w.map UInt16.toNat).sum) := by
  obtain ⟨hle, ⟨k, hk⟩, -⟩ := folded_spec h.total_lt
  refine ⟨fun i hzero => ?_, fun w' hperm => ?_, ?_⟩
  · have hhn : (UInt16.ofNat (65535 - folded (total w))).toNat = 65535 - folded (total w) :=
      UInt16.toNat_ofNat_of_lt' (Nat.lt_succ_of_le (Nat.sub_le _ _))
    refine ⟨UInt16.ofNat (65535 - folded (total w)), by rw [h.cksum, hhn], ?_⟩
    have h' : Header (w.set i (UInt16.ofNat (65535 - folded (total w)))) := by
      constructor <;> rw [length_set]
      exacts [h.least, h.most, h.even]
    have hh := (folded_eq_iff h'.total_lt).mpr (by
      rw [total_set hzero, hhn]
      omega)
    rw [h'.cksum, hh]
    rfl
  · have h' : Header w' := ⟨hperm.length_eq ▸ h.least, hperm.length_eq ▸ h.most, hperm.length_eq ▸ h.even⟩
    rw [h.cksum, h'.cksum, show total w' = total w from ((hperm.map _).sum_nat).symm]
  · have hhi := folded_eq_iff h.total_lt
    rw [h.cksum]
    change _ ↔ 0 < total w ∧ 65535 ∣ total w
    rw [← hhi]
    omega

/-- The header of a datagram of 115 bytes, before its checksum is filled in. -/
def datagram : List UInt16 :=
  [0x4500, 0x0073, 0x0000, 0x4000, 0x4011, 0x0000, 0xc0a8, 0x0001, 0xc0a8, 0x00c7]

theorem cksum_completes_datagram :
    ∃ c : UInt16, ipv4Cksum datagram = c.toNat ∧ ipv4Cksum (datagram.set 5 c) = 0 :=
  (cksum_completes ⟨by decide, by decide, by decide⟩).1 5 rfl

end Fzsvn.Guarantees.Packet.HeaderChecksum
