import Fzsvn.Library.Fallible
import Fzsvn.Source.Algorithm.Arrays

/-!
# What the binary search finds

The loop of `bin_search` goes on only while the interval has at least two elements, so an
element is looked at only where it is the middle of such an interval. On a sorted array the
search therefore gives the right answer iff an equal element, if there is one, is at such a
position.
-/
namespace Fzsvn.Guarantees.Algorithm

open Library.MachineInt Library.Fallible Source.Algorithm

/-- A comparison is that of a total preorder. -/
structure Consistent {α : Type} (cmp : α → α → Int) : Prop where
  swap : ∀ a b, 0 < cmp a b ↔ cmp b a < 0
  trans : ∀ a b c, cmp a b ≤ 0 → cmp b c ≤ 0 → cmp a c ≤ 0

variable {α : Type} {cmp : α → α → Int} {array : List α} {val : α}

lemma Consistent.lt_of_lt_of_le (c : Consistent cmp) {a b d : α} (h : cmp a b < 0)
    (h' : cmp b d ≤ 0) : cmp a d < 0 := by
  by_contra hn
  have hd : cmp d a ≤ 0 := by
    have := c.swap d a
    omega
  have := c.trans b d a h' hd
  have := c.swap b a
  omega

lemma Consistent.lt_of_le_of_lt (c : Consistent cmp) {a b d : α} (h : cmp a b ≤ 0)
    (h' : 0 < cmp d b) : 0 < cmp d a := by
  by_contra hn
  have := c.trans d a b (by omega) h
  omega

/-- The positions that the search in an interval can look at. -/
def Middle : Nat → Int → Int → Int → Prop
  | 0, _, _, _ => False
  | fuel + 1, low, high, i =>
    let mid := (high + low) / 2
    low < high ∧ (i = mid ∨ Middle fuel low (mid - 1) i ∨ Middle fuel (mid + 1) high i)

lemma Middle.within {fuel : Nat} {low high i : Int} (h : Middle fuel low high i) :
    low ≤ i ∧ i ≤ high := by
  induction fuel generalizing low high with
  | zero => exact h.elim
  | succ fuel ih =>
    obtain ⟨hl, h | h | h⟩ := h
    · omega
    · have := ih h
      omega
    · have := ih h
      omega

/-- There is an element at `i`, and `val` compares equal to it. -/
def EqualAt (cmp : α → α → Int) (array : List α) (val : α) (i : Int) : Prop :=
  0 ≤ i ∧ ∃ hi : i.toNat < array.length, cmp val array[i.toNat] = 0

lemma element_inside {i : Int} (h0 : 0 ≤ i) (hi : i.toNat < array.length) :
    element array i = .ok array[i.toNat] := by
  rw [element, if_pos h0, List.getElem?_eq_getElem hi]

section

variable (c : Consistent cmp) (hs : array.Pairwise (cmp · · ≤ 0))
  {i j : Int} {hi : i.toNat < array.length}
include c hs

lemma not_equal_above (h0 : 0 ≤ i) (h : cmp val array[i.toNat] < 0) (hj : i < j) :
    ¬ EqualAt cmp array val j := by
  rintro ⟨-, hj', he⟩
  have := c.lt_of_lt_of_le h (List.pairwise_iff_getElem.mp hs _ _ hi hj' (by omega))
  omega

lemma not_equal_below (h : 0 < cmp val array[i.toNat]) (hj : j < i) :
    ¬ EqualAt cmp array val j := by
  rintro ⟨h0, hj', he⟩
  have := c.lt_of_le_of_lt (List.pairwise_iff_getElem.mp hs _ _ hj' hi (by omega)) h
  omega

/-- The loop ends without a fault, in an equal element iff there is one that it looks at. -/
lemma binSearchLoop_finds (val : α) (hn : array.length < 2 ^ 30) (fuel : Nat) (low high : Int)
    (hl : 0 ≤ low) (hh : high < array.length) (hf : high - low + 1 < fuel) (hf' : 0 < fuel) :
    Yields (binSearchLoop cmp array val fuel low high) fun r =>
      (∀ i ∈ r, Middle fuel low high i ∧ EqualAt cmp array val i) ∧
        (r = none → ∀ i, Middle fuel low high i → ¬ EqualAt cmp array val i) := by
  induction fuel generalizing low high with
  | zero => cases hf'
  | succ fuel ih =>
    rw [binSearchLoop, yields_ite]
    refine ⟨fun h => ?_, fun h => (yields_pure _).mpr ⟨fun i hi => (by cases hi), fun _ i hi => absurd hi.1 h⟩⟩
    obtain ⟨mid, hm⟩ : ∃ mid, (high + low) / 2 = mid := ⟨_, rfl⟩
    have hm' : (toInt (high + low)).tdiv 2 = mid := by
      rw [toInt_small (by omega) (by omega), Int.tdiv_eq_ediv_of_nonneg (by omega), hm]
    have hi : mid.toNat < array.length := by omega
    simp only [hm', element_inside (by omega) hi, yields_bind, yields_ok, yields_ite, yields_pure, Middle, hm]
    refine ⟨fun hlt => ?_, fun hge => ⟨fun hgt => ?_, fun hle => ⟨?_, fun h => by cases h⟩⟩⟩
    · obtain ⟨r, hr, hr', hn'⟩ := ih low (mid - 1) hl (by omega) (by omega) (by omega)
      refine ⟨r, hr, fun i hi => ⟨⟨h, .inr (.inl (hr' i hi).1)⟩, (hr' i hi).2⟩, fun he i hi => ?_⟩
      obtain ⟨-, rfl | h | h⟩ := hi
      · rintro ⟨-, _, h⟩
        omega
      · exact hn' he i h
      · exact not_equal_above c hs (by omega) hlt (by have := h.within; omega)
    · obtain ⟨r, hr, hr', hn'⟩ := ih (mid + 1) high (by omega) hh (by omega) (by omega)
      refine ⟨r, hr, fun i hi => ⟨⟨h, .inr (.inr (hr' i hi).1)⟩, (hr' i hi).2⟩, fun he i hi => ?_⟩
      obtain ⟨-, rfl | h | h⟩ := hi
      · rintro ⟨-, _, h⟩
        omega
      · exact not_equal_below c hs hgt (by have := h.within; omega)
      · exact hn' he i h
    · rintro i ⟨⟩
      exact ⟨⟨h, .inl rfl⟩, by omega, hi, by omega⟩

end

/-- The search ends without a fault, in an element that compares equal to `val` if there is
one and in `NULL` otherwise. -/
def Searches (cmp : α → α → Int) (array : List α) (val : α) : Prop :=
  Yields (binSearch cmp array val) fun r =>
    (∀ i ∈ r, EqualAt cmp array val i) ∧ (r = none → ∀ i, ¬ EqualAt cmp array val i)

/-- The positions of an array of `n` elements that `bin_search` can look at. -/
def Inner (n : Nat) (i : Int) : Prop := Middle (n + 1) 0 (n - 1) i

theorem bin_search_iff (c : Consistent cmp) (hs : array.Pairwise (cmp · · ≤ 0))
    (h1 : 1 ≤ array.length) (hn : array.length < 2 ^ 30) :
    Searches cmp array val ↔
      ∀ i, EqualAt cmp array val i → ∃ j, Inner array.length j ∧ EqualAt cmp array val j := by
  obtain ⟨r, hr, hr', hn'⟩ := binSearchLoop_finds c hs val hn (array.length + 1) 0
    (array.length - 1) (by omega) (by omega) (by omega) (by omega)
  have he : binSearch cmp array val = .ok r := by
    rw [binSearch, if_neg (by omega), toInt_small (by omega) (by omega), hr]
  rw [Searches, he, yields_ok]
  constructor
  · intro h i hi
    cases r with
    | none => exact absurd hi (h.2 rfl i)
    | some j => exact ⟨j, hr' j rfl⟩
  · intro h
    refine ⟨fun i hi => (hr' i hi).2, fun h0 i hi => ?_⟩
    obtain ⟨j, hj, hj'⟩ := h i hi
    exact hn' h0 j hj hj'

lemma sub_consistent : Consistent fun a b : Int => a - b :=
  ⟨fun _ _ => by omega, fun _ _ _ => by omega⟩

theorem bin_search_iff_two : Searches (fun a b : Int => a - b) [1, 2] 1 :=
  (bin_search_iff sub_consistent (by decide) (by decide) (by decide)).mpr fun _ _ =>
    ⟨0, ⟨by decide, .inl rfl⟩, by decide, by decide, by decide⟩

/-- The only element of an array is not found. -/
theorem bin_search_misses_single : ¬ Searches (fun a b : Int => a - b) [5] 5 := by
  rintro ⟨r, hr, -, h⟩
  exact h (Except.ok.inj hr).symm 0 ⟨by decide, by decide, by decide⟩

end Fzsvn.Guarantees.Algorithm
