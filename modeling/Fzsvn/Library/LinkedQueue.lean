import Mathlib.Data.List.Basic

/-!
# Queues threaded through their elements

Each element holds the next one, the last one `stop`. A queue is taken from at the front
and put to at the rear, so it hands its elements out in the order it got them.
-/
namespace Fzsvn.Library.LinkedQueue

variable {α : Type} (stop : α)

/-- Following `next` from `first` visits the elements of the queue and then stops. -/
def Chained (next : α → α) : α → List α → Prop
  | first, [] => first = stop
  | first, a :: queue => first = a ∧ a ≠ stop ∧ Chained next (next a) queue

variable {stop} {next next' : α → α} {first a last : α} {queue : List α}

lemma Chained.congr (chained : Chained stop next first queue)
    (same : ∀ b ∈ queue, next' b = next b) : Chained stop next' first queue := by
  induction queue generalizing first with
  | nil => exact chained
  | cons b queue ih =>
    obtain ⟨hh, apart, rest⟩ := chained
    obtain ⟨same_b, same_rest⟩ := List.forall_mem_cons.mp same
    exact ⟨hh, apart, same_b ▸ ih rest same_rest⟩

/-- `a` put behind the last element. -/
lemma Chained.append (chained : Chained stop next first (queue ++ [last]))
    (same : ∀ b ∈ queue, next' b = next b) (linked : next' last = a) (apart : a ≠ stop)
    (ended : next' a = stop) : Chained stop next' first (queue ++ [last] ++ [a]) := by
  induction queue generalizing first with
  | nil =>
    obtain ⟨hh, valid, -⟩ := chained
    exact ⟨hh, valid, linked, apart, ended⟩
  | cons b queue ih =>
    obtain ⟨hh, valid, rest⟩ := chained
    obtain ⟨same_b, same_rest⟩ := List.forall_mem_cons.mp same
    exact ⟨hh, valid, same_b ▸ ih rest same_rest⟩

/-- A queue of `count` elements in the order of an enumeration. -/
lemma chained_range (element : Nat → α) {count : Nat} (apart : ∀ i < count, element i ≠ stop)
    (links : ∀ i, i + 1 < count → next (element i) = element (i + 1))
    (ended : ∀ i, i + 1 = count → next (element i) = stop) (some : 0 < count) :
    Chained stop next (element 0) ((List.range count).map element) := by
  -- from any position on, by induction on what is left
  have tail : ∀ left start, start + left + 1 = count →
      Chained stop next (element start) ((List.range' start (left + 1)).map element) := by
    intro left
    induction left with
    | zero => exact fun start total => ⟨rfl, apart start (by omega), ended start total⟩
    | succ left ih =>
      intro start total
      rw [List.range'_succ, List.map_cons]
      refine ⟨rfl, apart start (by omega), ?_⟩
      rw [links start (by omega)]
      exact ih (start + 1) (by omega)
  rw [List.range_eq_range', ← Nat.sub_add_cancel some]
  exact tail (count - 1) 0 (by omega)

end Fzsvn.Library.LinkedQueue
