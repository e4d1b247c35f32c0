import Mathlib.Algebra.Group.Int.Defs
import Mathlib.Algebra.Group.Nat.Defs
import Mathlib.Data.List.Nodup
import Mathlib.Data.Nat.Find
import Mathlib.Logic.Function.Iterate

/-!
# Circular doubly linked lists

Nodes carry a previous and a next pointer. A ring is a head and the sequence of nodes
that the next pointers run through before they return to it, with the previous pointers
running back. Rings are taken apart into paths, and a write to the heap is followed along
the two ends of a path.
-/
namespace Fzsvn.Library.CircularList
open List Function

variable {α : Type}

structure Links (α : Type) where
  p : α → α
  n : α → α

namespace Links

variable [DecidableEq α] (h : Links α) (a v : α)

@[simps]
def setP : Links α := { h with p := update h.p a v }

@[simps]
def setN : Links α := { h with n := update h.n a v }

end Links

/-! ## Paths -/

/-- From `a` through `xs` to `b`, in both directions. -/
def Path (h : Links α) : α → List α → α → Prop
  | a, [], b => h.n a = b ∧ h.p b = a
  | a, x :: xs, b => h.n a = x ∧ h.p x = a ∧ Path h x xs b

section

variable {h h' : Links α} {a b c : α} {xs ys : List α}

lemma path_append {y : α} : Path h a (xs ++ y :: ys) b ↔ Path h a xs y ∧ Path h y ys b := by
  induction xs generalizing a with
  | nil => simp [Path, and_assoc]
  | cons x xs ih => simp [Path, ih, and_assoc]

section

variable (path : Path h a xs b)
include path

/-- A path reads the next pointers of all nodes but the last, and the previous pointers
of all but the first. -/
lemma path_frame (next : ∀ x ∈ a :: xs, h'.n x = h.n x) (prev : ∀ x ∈ xs ++ [b], h'.p x = h.p x)
    : Path h' a xs b := by
  induction xs generalizing a with
  | nil => exact ⟨(next a (by simp)).trans path.1, (prev b (by simp)).trans path.2⟩
  | cons x xs ih =>
    obtain ⟨first, back, rest⟩ := path
    refine ⟨(next a (by simp)).trans first, (prev x (by simp)).trans back, ih rest ?_ ?_⟩
    · exact fun y member => next y (mem_cons_of_mem a member)
    · exact fun y member => prev y (mem_cons_of_mem x member)

lemma path_first : h.n a ∈ xs ++ [b] := by
  cases xs with
  | nil => simp [path.1]
  | cons x xs => simp [path.1]

lemma path_last : h.p b ∈ a :: xs := by
  induction xs generalizing a with
  | nil => simp [path.2]
  | cons x xs ih => exact mem_cons_of_mem a (ih path.2.2)

/-- The last edge is turned to another node. -/
lemma path_retarget (distinct : (a :: xs).Nodup) (last : h'.n (h.p b) = c) (back : h'.p c = h.p b)
    (next : ∀ x ∈ a :: xs, x ≠ h.p b → h'.n x = h.n x) (prev : ∀ x ∈ xs, h'.p x = h.p x) :
    Path h' a xs c := by
  induction xs generalizing a with
  | nil =>
    obtain ⟨-, back'⟩ := path
    rw [back'] at last back
    exact ⟨last, back⟩
  | cons x xs ih =>
    obtain ⟨first, back', rest⟩ := path
    obtain ⟨absent, distinct'⟩ := nodup_cons.mp distinct
    have inner : a ≠ h.p b := fun same => absent (same ▸ path_last rest)
    refine ⟨(next a (by simp) inner).trans first, (prev x (by simp)).trans back',
      ih rest distinct' ?_ fun y member => prev y (mem_cons_of_mem x member)⟩
    exact fun y member => next y (mem_cons_of_mem a member)

/-- The first edge is turned to start at another node. -/
lemma path_restart (first : h'.n c = h.n a) (back : h'.p (h.n a) = c)
    (next : ∀ x ∈ xs, h'.n x = h.n x) (prev : ∀ x ∈ xs ++ [b], x ≠ h.n a → h'.p x = h.p x)
    (distinct : (xs ++ [b]).Nodup) : Path h' c xs b := by
  cases xs with
  | nil =>
    rw [path.1] at first back
    exact ⟨first, back⟩
  | cons x xs =>
    obtain ⟨start, -, rest⟩ := path
    rw [start] at first back prev
    have absent := (nodup_cons.mp distinct).1
    refine ⟨first, back, path_frame rest (fun y member => next y member) fun y member => ?_⟩
    refine prev y (mem_cons_of_mem x member) ?_
    rintro rfl
    exact absent member

end

variable {x : α}

section

variable (path : Path h a xs b)
include path

lemma path_inverse (member : x ∈ a :: xs) : h.p (h.n x) = x := by
  induction xs generalizing a with
  | nil =>
    rw [mem_singleton.mp member, path.1, path.2]
  | cons y xs ih =>
    obtain ⟨first, back, rest⟩ := path
    rcases mem_cons.mp member with rfl | later
    · rw [first, back]
    · exact ih rest later

lemma path_closed (member : x ∈ a :: xs) : h.n x ∈ xs ++ [b] := by
  induction xs generalizing a with
  | nil => simp [mem_singleton.mp member, path.1]
  | cons y xs ih =>
    obtain ⟨first, -, rest⟩ := path
    rcases mem_cons.mp member with rfl | later
    · simp [first]
    · exact mem_cons_of_mem y (ih rest later)

lemma path_inverse' (member : x ∈ xs ++ [b]) : h.n (h.p x) = x := by
  induction xs generalizing a with
  | nil =>
    have same : x = b := by simpa using member
    rw [same, path.2, path.1]
  | cons y xs ih =>
    obtain ⟨first, back, rest⟩ := path
    rcases mem_cons.mp member with rfl | later
    · rw [back, first]
    · exact ih rest later

/-- The next pointers lead to the end. -/
lemma path_reaches (member : x ∈ a :: xs) : ∃ k, h.n^[k] x = b := by
  induction xs generalizing a x with
  | nil => exact ⟨1, by rw [mem_singleton.mp member]; exact path.1⟩
  | cons y xs ih =>
    obtain ⟨first, -, rest⟩ := path
    rcases mem_cons.mp member with rfl | later
    · obtain ⟨k, reached⟩ := ih rest (mem_cons_self ..)
      exact ⟨k + 1, by rw [iterate_succ_apply, first, reached]⟩
    · exact ih rest later

lemma path_reached (member : x ∈ a :: xs) : ∃ k, h.n^[k] a = x := by
  induction xs generalizing a with
  | nil => exact ⟨0, (mem_singleton.mp member).symm⟩
  | cons y xs ih =>
    obtain ⟨first, -, rest⟩ := path
    rcases mem_cons.mp member with rfl | later
    · exact ⟨0, rfl⟩
    · obtain ⟨k, reached⟩ := ih rest later
      exact ⟨k + 1, by rw [iterate_succ_apply, first, reached]⟩

end

end

/-! ## Rings -/

/-- The head and the sequence it represents. -/
structure Ring (h : Links α) (lh : α) (xs : List α) : Prop where
  path : Path h lh xs lh
  nodup : (lh :: xs).Nodup

/-- The pointers are inverse to each other at all nodes reachable from the head, and lead
back to it. -/
def Closed (h : Links α) (lh : α) : Prop :=
  ∀ i, h.p (h.n (h.n^[i] lh)) = h.n^[i] lh ∧ h.n (h.p (h.n^[i] lh)) = h.n^[i] lh ∧
    ∃ k, h.n^[k] (h.n^[i] lh) = lh

section

variable {h h' : Links α} {lh : α} {xs ys : List α}

lemma ring_empty : Ring h lh [] ↔ h.n lh = lh ∧ h.p lh = lh :=
  ⟨fun ring => ring.path, fun self => ⟨self, by simp⟩⟩

/-- A ring reads the pointers of its own nodes. -/
lemma ring_frame (ring : Ring h lh xs) (next : ∀ x ∈ lh :: xs, h'.n x = h.n x)
    (prev : ∀ x ∈ lh :: xs, h'.p x = h.p x) : Ring h' lh xs :=
  ⟨path_frame ring.path next fun x member => prev x (by simpa [or_comm] using member), ring.nodup⟩

lemma ring_reached (ring : Ring h lh xs) (i : Nat) : h.n^[i] lh ∈ lh :: xs := by
  induction i with
  | zero => simp
  | succ i ih =>
    rw [iterate_succ_apply']
    simpa [or_comm] using path_closed ring.path ih

lemma ring_closed (ring : Ring h lh xs) : Closed h lh := by
  intro i
  have member := ring_reached ring i
  exact ⟨path_inverse ring.path member,
    path_inverse' ring.path (by simpa [or_comm] using member), path_reaches ring.path member⟩

/-- The nodes from `a` on, for `k` steps. -/
def walk (h : Links α) (a : α) : Nat → List α
  | 0 => []
  | k + 1 => h.n a :: walk h (h.n a) k

lemma mem_walk {a x : α} {k : Nat} : x ∈ walk h a k ↔ ∃ i < k, x = h.n^[i + 1] a := by
  induction k generalizing a with
  | zero => simp [walk]
  | succ k ih =>
    simp only [walk, mem_cons, ih]
    constructor
    · rintro (rfl | ⟨i, bound, rfl⟩)
      · exact ⟨0, by omega, rfl⟩
      · exact ⟨i + 1, by omega, rfl⟩
    · rintro ⟨i, bound, rfl⟩
      cases i with
      | zero => exact .inl rfl
      | succ i => exact .inr ⟨i, by omega, rfl⟩

lemma path_walk {a b : α} {k : Nat} (inverse : ∀ i ≤ k, h.p (h.n (h.n^[i] a)) = h.n^[i] a)
    (reached : h.n^[k + 1] a = b) : Path h a (walk h a k) b := by
  induction k generalizing a with
  | zero => exact ⟨reached, by rw [← reached]; exact inverse 0 (by omega)⟩
  | succ k ih =>
    refine ⟨rfl, inverse 0 (by omega), ih (fun i bound => ?_) reached⟩
    exact inverse (i + 1) (by omega)

/-- Conversely, pointers that lead back represent a sequence. -/
lemma closed_ring (closed : Closed h lh) : ∃ xs, Ring h lh xs := by
  classical
  have returns : ∃ k, h.n^[k + 1] lh = lh := by
    obtain ⟨-, -, k, back⟩ := closed 1
    exact ⟨k, back⟩
  -- the first return
  let k := Nat.find returns
  have back : h.n^[k + 1] lh = lh := Nat.find_spec returns
  have first : ∀ i < k, h.n^[i + 1] lh ≠ lh := fun i bound => Nat.find_min returns bound
  have apart : ∀ i j, i < j → j ≤ k → h.n^[i] lh ≠ h.n^[j] lh := by
    intro i j less bound same
    refine first (k - j + i) (by omega) ?_
    have shift : k - j + i + 1 = (k + 1 - j) + i := by omega
    rw [shift, iterate_add_apply, same, ← iterate_add_apply, Nat.sub_add_cancel (by omega), back]
  have nodup : ∀ m ≤ k, ∀ i, i + m = k → (h.n^[i] lh :: walk h (h.n^[i] lh) m).Nodup := by
    intro m
    induction m with
    | zero => simp [walk]
    | succ m ih =>
      intro bound i sum
      have next := ih (by omega) (i + 1) (by omega)
      rw [iterate_succ_apply'] at next
      refine nodup_cons.mpr ⟨fun member => ?_, next⟩
      obtain ⟨j, less, same⟩ := mem_walk.mp member
      rw [← iterate_add_apply] at same
      exact apart i (j + 1 + i) (by omega) (by omega) same
  refine ⟨walk h lh k, path_walk (fun i _ => (closed i).1) back, nodup k le_rfl 0 (by omega)⟩

/-- A head represents one sequence. -/
lemma path_unique {a b : α} (first : Path h a xs b) (second : Path h a ys b)
    (absent : b ∉ xs) (absent' : b ∉ ys) : xs = ys := by
  induction xs generalizing a ys with
  | nil =>
    cases ys with
    | nil => rfl
    | cons y ys =>
      have same : y = b := second.1.symm.trans first.1
      exact absurd (by simp [same]) absent'
  | cons x xs ih =>
    cases ys with
    | nil =>
      have same : x = b := first.1.symm.trans second.1
      exact absurd (by simp [same]) absent
    | cons y ys =>
      obtain ⟨start, -, rest⟩ := first
      obtain ⟨start', -, rest'⟩ := second
      have same : x = y := start.symm.trans start'
      subst same
      rw [ih rest rest' (fun m => absent (by simp [m])) fun m => absent' (by simp [m])]

end

end Fzsvn.Library.CircularList
