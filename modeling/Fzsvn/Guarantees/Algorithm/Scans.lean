import Fzsvn.Guarantees.Algorithm.Bisection
import Mathlib.Algebra.Ring.Int.Defs
import Mathlib.Order.Bounds.Defs

/-!
# What the scans of an array compute

The quadratic search for the largest segment sum visits every pair of bounds, and its result
is the largest sum; `kth_array` keeps the `k` smallest elements it has seen. Both need an
array whose size is in the range of their `int` index.
-/
namespace Fzsvn.Guarantees.Algorithm

open Library.Fallible Source.Algorithm List

variable {σ : Type} {body : Nat → σ → Except Fault σ}

/-- What every turn of a loop keeps holds when it ends, if the index does not overflow. -/
lemma forLoop_keeps (inv : Nat → σ → Prop) {left i n : Nat} {s : σ} (hn : i + left = n)
    (hs : n < 2 ^ 31)
    (step : ∀ i s, i < n → inv i s → Yields (body i s) (inv (i + 1))) (h : inv i s) :
    Yields (forLoop body left i s) (inv n) := by
  induction left generalizing i s with
  | zero =>
    subst hn
    exact (yields_pure s).mpr h
  | succ left ih =>
    rw [forLoop, yields_bind]
    obtain ⟨s', hb, h'⟩ := step i s (by omega) h
    rw [hb, yields_ok, if_pos (by omega)]
    exact ih (by omega) h'

/-- A loop that has to go on after the last `int` does not end. -/
lemma forLoop_overflows {left i : Nat} {s : σ} (hn : 2 ^ 31 ≤ i + left) (hi : i < 2 ^ 31)
    {r : σ} : forLoop body left i s ≠ .ok r := by
  induction left generalizing i s with
  | zero => omega
  | succ left ih =>
    intro h
    rw [forLoop, eq_ok_iff, yields_bind] at h
    obtain ⟨s', -, h⟩ := h
    rw [yields_ite, ← eq_ok_iff] at h
    by_cases hm : i + 1 < 2 ^ 31
    · exact ih (by omega) hm (h.1 hm)
    · exact yields_error _ (h.2 hm)

section

variable {arr : List Int} {i j : Nat} {m : Int}

/-- The sum of the elements from `i` up to and without `j`. -/
def segment (arr : List Int) (i j : Nat) : Int := ((arr.take j).drop i).sum

lemma segment_succ (hi : i ≤ j) (hj : j < arr.length) :
    segment arr i (j + 1) = segment arr i j + arr[j] := by
  rw [segment, take_add_one, getElem?_eq_getElem hj, Option.toList_some,
    drop_append_of_le_length (by rw [length_take]; omega), sum_append, segment]
  simp

/-- `m` is the largest sum of the segments that start in front of `i`, or at `i` and end
not behind `j`. -/
def Best (arr : List Int) (i j : Nat) (m : Int) : Prop :=
  (∃ a b, a < b ∧ b ≤ arr.length ∧ segment arr a b = m) ∧
    ∀ a b, a < b → b ≤ arr.length → a < i ∨ a = i ∧ b ≤ j → segment arr a b ≤ m

lemma Best.extend (h : Best arr i j m) (hi : i ≤ j) (hj : j < arr.length) :
    Best arr i (j + 1) (if m < segment arr i (j + 1) then segment arr i (j + 1) else m) := by
  obtain ⟨hm, h⟩ := h
  constructor
  · split
    · exact ⟨i, j + 1, by omega, hj, rfl⟩
    · exact hm
  · intro a b hab hb hr
    by_cases hh : a = i ∧ b = j + 1
    · rw [hh.1, hh.2]
      split <;> omega
    · have := h a b hab hb (by omega)
      split <;> omega

lemma extendSum_best {s : Int × Int} (hi : i ≤ j) (hj : j < arr.length)
    (he : s.1 = segment arr i j) (h : Best arr i j s.2) :
    Yields (extendSum arr j s) fun s =>
      i ≤ j + 1 ∧ s.1 = segment arr i (j + 1) ∧ Best arr i (j + 1) s.2 := by
  rw [extendSum, element_inside (by omega) (by simpa using hj), yields_bind, yields_ok, yields_pure]
  simp only [Int.toNat_natCast, he, ← segment_succ hi hj]
  exact ⟨by omega, trivial, h.extend hi hj⟩

/-- A turn of the outer loop extends the segment at `i` to the end of the array. -/
lemma turn_best (hs : arr.length < 2 ^ 31) (hi : i < arr.length) (h : Best arr i i m) :
    Yields (do
      let s ← forLoop (extendSum arr) (arr.length - i) i (0, m)
      return s.2) (Best arr (i + 1) (i + 1)) := by
  obtain ⟨s, hr, -, -, hm, hb⟩ := forLoop_keeps (s := (0, m))
    (fun j s => i ≤ j ∧ s.1 = segment arr i j ∧ Best arr i j s.2)
    (Nat.add_sub_of_le (Nat.le_of_lt hi)) hs
    (fun j s hj h => extendSum_best h.1 hj h.2.1 h.2.2)
    ⟨le_rfl, by simp [segment], h⟩
  rw [hr, yields_bind, yields_ok, yields_pure]
  exact ⟨hm, fun a b hab hb' hr => hb a b hab hb' (by omega)⟩

/-- The result is the largest sum of a segment that is not empty. -/
def Maximal (arr : List Int) : Prop :=
  Yields (maxsubseqsumN2 true arr) fun r => ∃ m, r = some m ∧
    IsGreatest {sum | ∃ i j, i < j ∧ j ≤ arr.length ∧ segment arr i j = sum} m

theorem maxsubseqsum_greatest (h : arr ≠ []) (hs : arr.length < 2 ^ 31) : Maximal arr := by
  have h1 : 0 < arr.length := length_pos_iff.mpr h
  rw [Maximal, maxsubseqsumN2, if_neg (fun h => h.elim (by omega) (by decide)),
    element_inside (Int.le_refl 0) h1, yields_bind, yields_ok, yields_bind]
  have first : Best arr 0 0 arr[0] := by
    refine ⟨⟨0, 1, by omega, h1, ?_⟩, fun a b hab hb hr => by omega⟩
    rw [segment_succ le_rfl h1]
    simp [segment]
  obtain ⟨m, hr, hb⟩ := forLoop_keeps (fun i => Best arr i i) (Nat.zero_add _) hs
    (fun i m hi h => turn_best hs hi h) first
  refine ⟨m, hr, (yields_pure _).mpr ⟨m, rfl, hb.1, ?_⟩⟩
  rintro sum ⟨i, j, hij, hj, rfl⟩
  exact hb.2 i j hij hj (by omega)

theorem maxsubseqsum_greatest_two : Maximal [3, -1] := maxsubseqsum_greatest (by decide) (by decide)

lemma not_maximal (hs : 2 ^ 31 ≤ arr.length) : ¬ Maximal arr := by
  rw [Maximal, maxsubseqsumN2, if_neg (fun h => h.elim (by omega) (by decide)), yields_bind]
  rintro ⟨ret, -, h⟩
  rw [yields_bind] at h
  obtain ⟨m, hm, -⟩ := h
  exact forLoop_overflows (by omega) (by decide) hm

/-- The index of the loops overflows. -/
theorem maxsubseqsum_overflows : ¬ Maximal (replicate (2 ^ 31) 0) :=
  not_maximal (Nat.le_of_eq length_replicate.symm)

end

end Fzsvn.Guarantees.Algorithm
