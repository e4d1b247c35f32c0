import Fzsvn.Guarantees.Algorithm.Scans
import Mathlib.Algebra.Order.Group.Int
import Mathlib.Data.List.Perm.Basic
import Mathlib.Data.List.Sort

/-!
# The k-th element of an array

An element has rank `k` if fewer than `k` elements are below it and at least `k` are not
above it. The rank does not depend on the order of the array, and elements of the same rank
compare equal, so what `kth_array` and `kth_sort` return is compared through it with the
k-th element of the sorted array.
-/
namespace Fzsvn.Guarantees.Algorithm

open Library.Fallible Source.Algorithm List

variable {α : Type} {cmp : α → α → Int} {array front rest : List α} {x y : α} {k : Nat}

/-- `qsort` gives the elements back in ascending order. -/
def Sorts (cmp : α → α → Int) (qsort : List α → List α) : Prop :=
  ∀ l, (qsort l).Perm l ∧ (qsort l).Pairwise (cmp · · ≤ 0)

def Ranked (cmp : α → α → Int) (l : List α) (k : Nat) (x : α) : Prop :=
  l.countP (cmp · x < 0) < k ∧ k ≤ l.countP (cmp · x ≤ 0)

/-- `x` is the largest element of `front`, and nothing in `rest` is below it. -/
structure Splits (cmp : α → α → Int) (front rest : List α) (x : α) : Prop where
  mem : x ∈ front
  front : ∀ z ∈ front, cmp z x ≤ 0
  rest : ∀ z ∈ rest, cmp x z ≤ 0

section

variable (c : Consistent cmp)
include c

lemma Consistent.refl (a : α) : cmp a a = 0 := by
  have := c.swap a a
  omega

lemma Splits.ranked (h : Splits cmp front rest x) : Ranked cmp (front ++ rest) front.length x := by
  constructor
  · have hr : rest.countP (cmp · x < 0) = 0 := by
      rw [countP_eq_zero]
      intro z hz
      have := h.rest z hz
      have := c.swap x z
      simp
      omega
    rw [countP_append, hr, Nat.add_zero]
    apply Nat.lt_of_le_of_ne countP_le_length
    intro he
    have := countP_eq_length.mp he x h.mem
    simp [c.refl] at this
  · rw [countP_append, countP_eq_length.mpr fun z hz => by simpa using h.front z hz]
    exact Nat.le_add_right _ _

lemma Ranked.le {l : List α} (hx : Ranked cmp l k x) (hy : Ranked cmp l k y) : cmp x y ≤ 0 := by
  by_contra hn
  -- otherwise everything that is not above `y` is below `x`
  have : l.countP (cmp · y ≤ 0) ≤ l.countP (cmp · x < 0) := by
    apply countP_mono_left
    intro z _ hz
    have := c.lt_of_le_of_lt (a := z) (by simpa using hz) (by omega : 0 < cmp x y)
    have := c.swap x z
    simp
    omega
  have := hx.1
  have := hy.2
  omega

lemma splits_sorted {l : List α} (hs : l.Pairwise (cmp · · ≤ 0)) (hk : k < l.length) :
    Splits cmp (l.take (k + 1)) (l.drop (k + 1)) l[k] := by
  have hp := pairwise_iff_getElem.mp hs
  refine ⟨mem_take_iff_getElem.mpr ⟨k, by omega, rfl⟩, fun z hz => ?_, fun z hz => ?_⟩
  · obtain ⟨i, hi, rfl⟩ := mem_take_iff_getElem.mp hz
    by_cases he : i = k
    · subst he
      exact Int.le_of_eq (c.refl _)
    · exact hp i k (by omega) hk (by omega)
  · obtain ⟨i, hi, rfl⟩ := mem_drop_iff_getElem.mp hz
    exact hp k _ hk (by omega) (by omega)

variable {qsort : List α → List α} (hq : Sorts cmp qsort)
include hq

lemma kept_sort (front rest : List α) (hk : front.length = k + 1) (h : ∀ a ∈ front, ∀ z ∈ rest, cmp a z ≤ 0) :
    ∃ x, element (qsort front) k = .ok x ∧ Splits cmp (qsort front) rest x := by
  obtain ⟨hp, hs⟩ := hq front
  have hl : k < (qsort front).length := by
    rw [hp.length_eq]
    omega
  have hx := splits_sorted c hs hl
  rw [take_of_length_le (by rw [hp.length_eq]; omega)] at hx
  exact ⟨_, element_inside (by omega) (by simpa using hl), hx.mem, hx.front,
    h _ (hp.mem_iff.mp hx.mem)⟩

/-- `karray` has the `k + 1` smallest of the first `i` elements. -/
def Kept (cmp : α → α → Int) (array : List α) (k i : Nat) (karray : List α) : Prop :=
  karray.length = k + 1 ∧ ∃ x rest, element karray k = .ok x ∧ Splits cmp karray rest x ∧
    (karray ++ rest).Perm (array.take i)

lemma kept_first (hk : k < array.length) :
    Kept cmp array k (k + 1) (qsort (array.take (k + 1))) := by
  have hl : (array.take (k + 1)).length = k + 1 := by
    rw [length_take]
    omega
  have hp := (hq (array.take (k + 1))).1
  obtain ⟨x, hx, h⟩ := kept_sort c hq _ [] hl (fun _ _ _ hz => (by cases hz))
  exact ⟨hp.length_eq.trans hl, x, [], hx, h, by rwa [append_nil]⟩

lemma kept_turn {i : Nat} {karray : List α} (hi : i < array.length)
    (h : Kept cmp array k i karray) : Yields (do
      let x ← element array i
      let last ← element karray k
      return if cmp x last < 0 then qsort (karray.set k x) else karray) (Kept cmp array k (i + 1)) := by
  obtain ⟨hk, last, rest, hl, h, hp⟩ := h
  have ht : array.take (i + 1) = array.take i ++ [array[i]] := by
    rw [take_add_one, getElem?_eq_getElem hi, Option.toList_some]
  have hh : karray[k] = last := by
    rw [element_inside (by omega) (by simp; omega)] at hl
    exact Except.ok.inj hl
  rw [element_inside (by omega) (by simpa using hi), hl]
  simp only [yields_bind, yields_ok, yields_pure, Int.toNat_natCast]
  split
  next hlt =>
    have hle : ∀ a ∈ karray.set k array[i], cmp a last ≤ 0 := by
      intro a ha
      rcases mem_or_eq_of_mem_set ha with ha | rfl
      · exact h.front a ha
      · omega
    obtain ⟨x, hx, h'⟩ := kept_sort c hq (karray.set k array[i]) (last :: rest)
      (by simpa using hk) (by
        intro a ha z hz
        rcases mem_cons.mp hz with rfl | hz
        · exact hle a ha
        · exact c.trans _ _ _ (hle a ha) (h.rest z hz))
    have hs := (hq (karray.set k array[i])).1
    refine ⟨by simpa [hs.length_eq] using hk, x, _, hx, h', ?_⟩
    calc qsort (karray.set k array[i]) ++ last :: rest
      _ ~ array[i] :: karray.eraseIdx k ++ last :: rest :=
        (hs.trans (set_perm_cons_eraseIdx (by omega) _)).append_right _
      _ ~ array[i] :: (last :: karray.eraseIdx k ++ rest) := .cons _ perm_middle
      _ ~ array[i] :: (karray ++ rest) := by
        rw [← hh]
        exact .cons _ ((getElem_cons_eraseIdx_perm (by omega)).append_right _)
      _ ~ array[i] :: array.take i := hp.cons _
      _ ~ array.take (i + 1) := ht ▸ (perm_append_singleton _ _).symm
  next hge =>
    refine ⟨hk, last, rest ++ [array[i]], hl, ⟨h.mem, h.front, ?_⟩, ?_⟩
    · intro z hz
      rcases mem_append.mp hz with hz | hz
      · exact h.rest z hz
      · have := c.swap last array[i]
        rw [mem_singleton.mp hz]
        omega
    · rw [← append_assoc, ht]
      exact hp.append_right _

end

/-- The result is an element of the array that compares equal to the k-th one of the sorted
array. -/
def Selects (cmp : α → α → Int) (array : List α) (k : Nat) (run : Except Fault (Option α)) : Prop :=
  Yields run fun r => ∃ x ∈ array, r = some x ∧ ∀ sorted : List α, sorted.Perm array →
    sorted.Pairwise (cmp · · ≤ 0) → ∃ y, sorted[k - 1]? = some y ∧ cmp x y = 0

section

variable (c : Consistent cmp) (hk : k < array.length)
include c hk

lemma selects_of_splits (h : Splits cmp front rest x) (hf : front.length = k + 1)
    (hp : front ++ rest ~ array) : Selects cmp array (k + 1) (.ok (some x)) := by
  refine (yields_ok _).mpr ⟨x, hp.mem_iff.mp (mem_append_left _ h.mem), rfl, fun l hl hs => ?_⟩
  have hkl : k < l.length := hl.length_eq ▸ hk
  have hy := (splits_sorted c hs hkl).ranked c
  have hx := h.ranked c
  rw [take_append_drop, length_take_of_le hkl, Ranked, hl.countP_eq, hl.countP_eq] at hy
  rw [hf, Ranked, hp.countP_eq, hp.countP_eq] at hx
  refine ⟨l[k], getElem?_eq_getElem hkl, ?_⟩
  have := Ranked.le c hx hy
  have := Ranked.le c hy hx
  have := c.swap l[k] x
  omega

variable {qsort : List α → List α} (hq : Sorts cmp qsort)
include hq

lemma kthSort_selects : Selects cmp array (k + 1) (kthSort array qsort true ↑(k + 1)) := by
  obtain ⟨hp, hs⟩ := hq array
  have hl : k < (qsort array).length := hp.length_eq ▸ hk
  have h := selects_of_splits c hk (splits_sorted c hs hl) (length_take_of_le hl)
    (by rwa [take_append_drop])
  rw [kthSort, if_neg (by simp; omega), Int.natCast_add, Int.cast_ofNat_Int, Int.add_sub_cancel,
    element_inside (by omega) (by simpa using hl)]
  exact h

lemma kthArray_selects (hs : array.length < 2 ^ 31) :
    Selects cmp array (k + 1) (kthArray cmp array qsort true ↑(k + 1)) := by
  obtain ⟨karray, hr, hf, x, rest, hx, h, hp⟩ := forLoop_keeps (Kept cmp array k)
    (Nat.add_sub_of_le hk) hs (fun i l hi h => kept_turn c hq hi h) (kept_first c hq hk)
  rw [take_length] at hp
  rw [kthArray, if_neg (by simp; omega), Int.natCast_add, Int.cast_ofNat_Int]
  simp only [Int.add_sub_cancel, Int.toNat_natCast, Int.toNat_natCast_add_one]
  unfold Selects
  rw [hr, yields_bind, yields_ok, hx]
  exact selects_of_splits c hk h hf hp

end

/-- Both functions select, and what they return compares equal. -/
theorem kth_selects {qsort : List α → List α} (c : Consistent cmp) (hq : Sorts cmp qsort)
    (h1 : 1 ≤ k) (hk : k ≤ array.length) :
    Selects cmp array k (kthSort array qsort true k) ∧ (array.length < 2 ^ 31 →
      Selects cmp array k (kthArray cmp array qsort true k) ∧ ∃ x y,
        kthArray cmp array qsort true k = .ok (some x) ∧
          kthSort array qsort true k = .ok (some y) ∧ cmp x y = 0) := by
  obtain ⟨k, rfl⟩ := Nat.exists_eq_add_of_le' h1
  have hh := kthSort_selects c hk hq
  refine ⟨hh, fun hs => ⟨kthArray_selects c hk hq hs, ?_⟩⟩
  obtain ⟨_, hx, x, -, rfl, hx'⟩ := kthArray_selects c hk hq hs
  obtain ⟨_, hy, y, -, rfl, hy'⟩ := hh
  obtain ⟨z, hz, hxz⟩ := hx' _ (hq array).1 (hq array).2
  obtain ⟨_, hz', hyz⟩ := hy' _ (hq array).1 (hq array).2
  obtain rfl := Option.some.inj (hz.symm.trans hz')
  refine ⟨x, y, hx, hy, ?_⟩
  have := c.trans x z y
  have := c.trans y z x
  have := c.swap z x
  have := c.swap z y
  have := c.swap y x
  omega

theorem kth_selects_two : Selects (fun a b : Int => a - b) [2, 1] 1
    (kthArray (fun a b => a - b) [2, 1] (insertionSort (· ≤ ·)) true 1) := by
  have hq : Sorts (fun a b : Int => a - b) (insertionSort (· ≤ ·)) := fun l =>
    ⟨perm_insertionSort _ l, (pairwise_insertionSort _ l).imp Int.sub_nonpos_of_le⟩
  exact ((kth_selects sub_consistent hq (by decide) (by decide)).2 (by decide)).1

lemma kthArray_overflows {qsort : List α → List α} {r : Option α} (hk : k < 2 ^ 31)
    (hn : 2 ^ 31 ≤ array.length) : kthArray cmp array qsort true k ≠ .ok r := by
  rw [kthArray, if_neg (by simp; omega), Ne, eq_ok_iff, yields_bind]
  rintro ⟨karray, h, -⟩
  exact forLoop_overflows (by simp; omega) (by simpa using hk) h

/-- The index of the loop overflows. -/
theorem kth_array_overflows : ¬ Selects (fun a b : Int => a - b) (replicate (2 ^ 31) 0) 1
    (kthArray (fun a b => a - b) (replicate (2 ^ 31) 0) (insertionSort (· ≤ ·)) true 1) := by
  rintro ⟨r, hr, -⟩
  exact kthArray_overflows (k := 1) (by decide) (Nat.le_of_eq length_replicate.symm) hr

end Fzsvn.Guarantees.Algorithm
