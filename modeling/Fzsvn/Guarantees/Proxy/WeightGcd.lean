import Fzsvn.Library.Fallible
import Fzsvn.Source.Proxy.Servers
import Mathlib.Algebra.GCDMonoid.Multiset
import Mathlib.Algebra.GCDMonoid.Nat

/-!
# The divisor of the weights

`_spdata_calc_gcd` never divides by zero and stores the greatest common divisor of the
weights. The accumulator of its loop is 0 as long as all weights were 0, which the code
takes for "not set": since 0 is neutral for the divisor, both readings agree.
-/
namespace Fzsvn.Guarantees.Proxy.WeightGcd
open Source.Proxy Library.Fallible List
open Source.Proxy.Servers hiding gcd

/-- The greatest common divisor of the weights, whatever their order; 0 if there is none
other than 0. -/
def poolGcd (weights : List Int) : Nat := ((weights : Multiset Int).map Int.natAbs).gcd

lemma poolGcd_concat {weights : List Int} {weight : Int} :
    poolGcd (weights ++ [weight]) = Nat.gcd weight.natAbs (poolGcd weights) := by
  have ho : ((weights ++ [weight] : List Int) : Multiset Int) = weight ::ₘ weights := by
    rw [← Multiset.coe_add, Multiset.coe_singleton, add_comm, Multiset.singleton_add]
  rw [poolGcd, ho, Multiset.map_cons, Multiset.gcd_cons]
  rfl

lemma poolGcd_perm {weights weights' : List Int} (he : weights'.Perm weights) :
    poolGcd weights' = poolGcd weights := by
  rw [poolGcd, Multiset.coe_eq_coe.mpr he, poolGcd]

/-! ## The step model -/

lemma gcd_of_checked {a b g : Int} (hr : gcdChecked a b = .ok g) : Servers.gcd a b = g := by
  fun_induction gcdChecked a b with
  | case1 a => cases hr
  | case2 a b hn hd =>
    rw [Servers.gcd, if_pos (.inr hd)]
    exact Except.ok.inj hr
  | case3 a b hn hm ih =>
    rw [Servers.gcd, if_neg (not_or.mpr ⟨hn, hm⟩)]
    exact ih hr

lemma foldl_of_checked {weights : List Int} {acc : Int} : Gives (weights.foldlM
      (fun gcd weight => if gcd > 0 then gcdChecked weight gcd else .ok weight) acc)
    (weights.foldl (fun acc weight => if acc > 0 then Servers.gcd weight acc else weight) acc = ·) := by
  induction weights generalizing acc with
  | nil => exact (gives_pure acc).mpr rfl
  | cons weight rest ih =>
    rw [foldlM_cons, foldl_cons, gives_bind]
    intro g hd
    split_ifs at hd ⊢ with set
    · rw [gcd_of_checked hd]
      exact ih
    · cases hd
      exact ih

/-- `calcGcd`, with which `Instr.fill` fills the table, is what the function stores. -/
lemma calcGcd_of_checked {weights : List Int} :
    Gives (spdataCalcGcd weights) (UInt32.ofInt (calcGcd weights) = ·) := by
  rw [spdataCalcGcd, gives_bind]
  intro g hg
  rw [gives_pure, calcGcd, foldl_of_checked g hg, ite_not]

/-! ## The divisor -/

/-- Euclid's loop, from a divisor that is not zero. -/
lemma gcdChecked_eq (a : Nat) {b : Nat} (hp : 0 < b) : gcdChecked a b = .ok (Nat.gcd a b) := by
  induction b using Nat.strong_induction_on generalizing a with
  | _ b ih =>
    have hn : (b : Int) ≠ 0 := by omega
    rw [gcdChecked, if_neg hn, ← Int.ofNat_tmod, Nat.gcd_comm, Nat.gcd_rec]
    split_ifs with hd
    · rw [Int.natCast_eq_zero.mp hd, Nat.gcd_zero_left]
    · have left : 0 < a % b := Nat.pos_of_ne_zero fun zero => hd (by rw [zero]; rfl)
      rw [ih (a % b) (Nat.mod_lt a hp) b left, Nat.gcd_comm]

/-- The loop over the servers: the accumulator is the divisor of what was read. -/
lemma foldlM_eq (weights : List Int) (hn : ∀ w ∈ weights, 0 ≤ w) (seen : List Int) :
    weights.foldlM (fun gcd weight => if gcd > 0 then gcdChecked weight gcd else .ok weight)
      (poolGcd seen : Int) = .ok (poolGcd (seen ++ weights) : Int) := by
  induction weights generalizing seen with
  | nil =>
    rw [append_nil]
    rfl
  | cons weight rest ih =>
    obtain ⟨w, rfl⟩ := Int.eq_ofNat_of_zero_le (hn weight mem_cons_self)
    have ht : (if (poolGcd seen : Int) > 0 then gcdChecked w (poolGcd seen) else .ok (w : Int)) =
        .ok (poolGcd (seen ++ [(w : Int)]) : Int) := by
      rw [poolGcd_concat, Int.natAbs_natCast]
      split_ifs with set
      · exact gcdChecked_eq w (Int.natCast_pos.mp set)
      · rw [Nat.eq_zero_of_not_pos fun hp => set (Int.natCast_pos.mpr hp),
          Nat.gcd_zero_right]
    have hl := ih (fun w' hm => hn w' (mem_cons_of_mem _ hm)) (seen ++ [(w : Int)])
    rw [append_assoc, singleton_append] at hl
    rw [foldlM_cons, ht]
    exact hl

lemma poolGcd_lt {weights : List Int} (hi : ∀ w ∈ weights, 0 ≤ w ∧ w < 2 ^ 31) :
    poolGcd weights < 2 ^ 31 := by
  rcases Nat.eq_zero_or_pos (poolGcd weights) with zero | hp
  · rw [zero]
    decide
  · -- Some weight is not 0, and the divisor is at most that.
    by_contra hl
    have hz : ∀ x ∈ (weights : Multiset Int).map Int.natAbs, x = 0 := by
      intro x hm
      obtain ⟨w, hf, rfl⟩ := Multiset.mem_map.mp hm
      have hb := hi w hf
      have hd : poolGcd weights ∣ w.natAbs := Multiset.gcd_dvd hm
      by_contra hn
      have most := Nat.le_of_dvd (Nat.pos_of_ne_zero hn) hd
      omega
    have zero : poolGcd weights = 0 := Multiset.gcd_eq_zero_iff _ |>.mpr hz
    omega

lemma spdataCalcGcd_eq {weights : List Int} (nonneg : ∀ w ∈ weights, 0 ≤ w) : spdataCalcGcd weights =
      .ok (UInt32.ofNat (if poolGcd weights = 0 then 1 else poolGcd weights)) := by
  have hl := foldlM_eq weights nonneg []
  rw [nil_append] at hl
  have hn : (poolGcd [] : Int) = 0 := rfl
  rw [hn] at hl
  rw [spdataCalcGcd, hl]
  by_cases zero : poolGcd weights = 0
  · rw [zero]
    rfl
  · have nonzero : (poolGcd weights : Int) ≠ 0 := Int.natCast_ne_zero.mpr zero
    simp only [bind, Except.bind, pure, Except.pure, if_pos nonzero, if_neg zero]
    rw [Library.MachineInt.ofInt_natCast]

/-- For weights that are not negative, the function returns, what it stores is the greatest
common divisor, or 1 if there is none, and the order of the servers does not matter. -/
theorem spdataCalcGcd_stores (weights : List Int) (ints : ∀ w ∈ weights, 0 ≤ w ∧ w < 2 ^ 31) :
    ∃ stored, spdataCalcGcd weights = .ok stored ∧
      (stored.toNat = if ∀ w ∈ weights, w = 0 then 1 else poolGcd weights) ∧
      ∀ weights', weights'.Perm weights → spdataCalcGcd weights' = .ok stored := by
  have hn : ∀ w ∈ weights, 0 ≤ w := fun w hm => (ints w hm).1
  refine ⟨_, spdataCalcGcd_eq hn, ?_, ?_⟩
  · have hb := poolGcd_lt ints
    have hz : poolGcd weights = 0 ↔ ∀ w ∈ weights, w = 0 := by
      rw [poolGcd, Multiset.gcd_eq_zero_iff]
      simp
    simp only [hz]
    split_ifs
    · rfl
    · rw [UInt32.toNat_ofNat', Nat.mod_eq_of_lt (by omega)]
  · intro weights' hs
    rw [spdataCalcGcd_eq fun w hm => hn w (hs.mem_iff.mp hm), poolGcd_perm hs]

theorem spdataCalcGcd_stores_three : ∃ stored, spdataCalcGcd [6, 0, 4] = .ok stored ∧
      (stored.toNat = if ∀ w ∈ ([6, 0, 4] : List Int), w = 0 then 1 else poolGcd [6, 0, 4]) ∧
      ∀ weights', weights'.Perm [6, 0, 4] → spdataCalcGcd weights' = .ok stored :=
  spdataCalcGcd_stores [6, 0, 4] (by decide)

end Fzsvn.Guarantees.Proxy.WeightGcd
