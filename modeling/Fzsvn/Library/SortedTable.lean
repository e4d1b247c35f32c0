import Mathlib.Order.Bounds.Basic

/-!
# Sorted tables

A table with ascending entries that is searched for a key. The answer of the search is the
least entry that is not below the key; where it stands is decided by its left neighbour.
-/
namespace Fzsvn.Library.SortedTable

variable {α : Type*} [LinearOrder α] {table : List α} {i j : Nat} {key a b : α}

lemma entry_le (sorted : table.Pairwise (· < ·)) (before : i ≤ j)
    (left : table[i]? = some a) (right : table[j]? = some b) : a ≤ b := by
  obtain ⟨hi, rfl⟩ := List.getElem?_eq_some_iff.mp left
  obtain ⟨hj, rfl⟩ := List.getElem?_eq_some_iff.mp right
  rcases Nat.lt_or_eq_of_le before with less | rfl
  · exact le_of_lt (List.pairwise_iff_getElem.mp sorted i j hi hj less)
  · exact le_rfl

/-- The entry whose left neighbour is below the key is the least that is not. -/
lemma isLeast_of_left (sorted : table.Pairwise (· < ·)) (found : table[i]? = some a)
    (above : key ≤ a) (left : i = 0 ∨ ∃ b, table[i - 1]? = some b ∧ b < key) :
    IsLeast {e | e ∈ table ∧ key ≤ e} a := by
  constructor
  · exact ⟨List.mem_of_getElem? found, above⟩
  · rintro e ⟨member, notBelow⟩
    obtain ⟨j, at_j⟩ := List.mem_iff_getElem?.mp member
    apply entry_le sorted _ found at_j
    -- an entry on the left of `i` is not above the neighbour, hence below the key
    by_contra! before
    rcases left with rfl | ⟨b, at_left, below⟩
    · exact absurd before (Nat.not_lt_zero j)
    · have low : e ≤ b := entry_le sorted (Nat.le_sub_one_of_lt before) at_j at_left
      exact absurd (lt_of_le_of_lt low below) (not_lt.mpr notBelow)

end Fzsvn.Library.SortedTable
