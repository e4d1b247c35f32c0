import Mathlib.Algebra.Order.BigOperators.Group.Finset
import Mathlib.Data.Fintype.BigOperators

/-!
# Reference counts

A ledger has, for each object, the count that is stored in it, the number of references
that somebody holds, and the number of those who are about to free it. References may move
from one holder to another at any time; only the four entries below change the ledger. It
balances when every object that is allocated either has one reference more than its count
says, or has none left and exactly one who frees it.
-/
namespace Fzsvn.Library.RefCount
open Finset Function

variable {A : Type}

@[ext]
structure Ledger (A : Type) where
  alive : Finset A
  count : A → Int
  holders : A → Nat
  sweepers : A → Nat

/-- What the ledger says about one object. -/
def Settled (alive : Prop) (count : Int) (holders sweepers : Nat) : Prop :=
  (alive ∧ sweepers = 0 ∧ (holders : Int) = count + 1 ∧ 0 ≤ count) ∨
  (alive ∧ sweepers = 1 ∧ holders = 0 ∧ count = -1) ∨
  (¬alive ∧ sweepers = 0 ∧ holders = 0)

def Balanced (l : Ledger A) : Prop :=
  ∀ x, Settled (x ∈ l.alive) (l.count x) (l.holders x) (l.sweepers x)

variable {l : Ledger A} {x : A}

lemma Balanced.alive (hb : Balanced l) (hh : 0 < l.holders x) : x ∈ l.alive := by
  rcases hb x with ⟨alive, -⟩ | ⟨alive, -⟩ | ⟨-, -, none⟩
  · exact alive
  · exact alive
  · omega

lemma Balanced.count (hb : Balanced l) (hh : 0 < l.holders x) :
    l.sweepers x = 0 ∧ (l.holders x : Int) = l.count x + 1 := by
  rcases hb x with ⟨-, sweepers, counted, -⟩ | ⟨-, -, none, -⟩ | ⟨-, -, none⟩
  · exact ⟨sweepers, counted⟩
  · omega
  · omega

lemma Balanced.sweeper (hb : Balanced l) (sweeps : 0 < l.sweepers x) :
    x ∈ l.alive ∧ l.sweepers x = 1 ∧ l.holders x = 0 := by
  rcases hb x with ⟨-, none, -⟩ | ⟨alive, one, none, -⟩ | ⟨-, none, -⟩
  · omega
  · exact ⟨alive, one, none⟩
  · omega

lemma Balanced.gone (hb : Balanced l) (gone : x ∉ l.alive) : l.holders x = 0 ∧ l.sweepers x = 0 := by
  rcases hb x with ⟨alive, -⟩ | ⟨alive, -⟩ | ⟨-, sweepers, holders⟩
  · exact absurd alive gone
  · exact absurd alive gone
  · exact ⟨holders, sweepers⟩

variable [DecidableEq A] {l' : Ledger A}

/-- One more reference is counted. -/
structure Acquires (l l' : Ledger A) (x : A) : Prop where
  alive : l'.alive = l.alive
  count : l'.count = update l.count x (l.count x + 1)
  holders : ∀ y, l'.holders y = l.holders y + [x].count y
  sweepers : ∀ y, l'.sweepers y = l.sweepers y

/-- A reference is given up; who gives up the last one is to free the object. -/
structure Drops (l l' : Ledger A) (x : A) : Prop where
  alive : l'.alive = l.alive
  count : l'.count = update l.count x (l.count x - 1)
  holders : ∀ y, l'.holders y + [x].count y = l.holders y
  sweepers : ∀ y, l'.sweepers y = l.sweepers y + if l.count x = 0 then [x].count y else 0

structure Frees (l l' : Ledger A) (x : A) : Prop where
  alive : l'.alive = l.alive.erase x
  count : l'.count = l.count
  holders : ∀ y, l'.holders y = l.holders y
  sweepers : ∀ y, l'.sweepers y + [x].count y = l.sweepers y

/-- A new object has one holder, which its count does not say. -/
structure Allocs (l l' : Ledger A) (x : A) : Prop where
  alive : l'.alive = insert x l.alive
  count : l'.count = update l.count x 0
  holders : ∀ y, l'.holders y = l.holders y + [x].count y
  sweepers : ∀ y, l'.sweepers y = l.sweepers y

lemma count_other {y : A} (other : y ≠ x) : [x].count y = 0 :=
  List.count_eq_zero.mpr fun inside => other (List.mem_singleton.mp inside)

section

variable (hb : Balanced l)
include hb

lemma Balanced.acquire (hh : 0 < l.holders x) (step : Acquires l l' x) : Balanced l' := by
  intro y
  rw [step.alive, step.count, step.holders, step.sweepers]
  by_cases same : y = x
  · subst same
    obtain ⟨sweepers, counted⟩ := hb.count hh
    rw [update_self, List.count_singleton_self]
    exact .inl ⟨hb.alive hh, sweepers, by omega, by omega⟩
  · rw [update_of_ne same, count_other same]
    exact hb y

lemma Balanced.drop (hh : 0 < l.holders x) (step : Drops l l' x) : Balanced l' := by
  intro y
  have holders := step.holders y
  rw [step.alive, step.count, step.sweepers]
  by_cases same : y = x
  · subst same
    obtain ⟨sweepers, counted⟩ := hb.count hh
    rw [List.count_singleton_self] at holders ⊢
    rw [update_self]
    by_cases last : l.count y = 0
    · rw [if_pos last]
      exact .inr (.inl ⟨hb.alive hh, by omega, by omega, by omega⟩)
    · rw [if_neg last]
      exact .inl ⟨hb.alive hh, by omega, by omega, by omega⟩
  · rw [count_other same, Nat.add_zero] at holders
    rw [count_other same, update_of_ne same, ite_self, holders]
    exact hb y

lemma Balanced.free (sweeps : 0 < l.sweepers x) (step : Frees l l' x) : Balanced l' := by
  intro y
  have sweepers := step.sweepers y
  rw [step.alive, step.count, step.holders]
  by_cases same : y = x
  · subst same
    obtain ⟨-, one, none⟩ := hb.sweeper sweeps
    rw [List.count_singleton_self] at sweepers
    exact .inr (.inr ⟨notMem_erase y l.alive, by omega, none⟩)
  · rw [count_other same, Nat.add_zero] at sweepers
    rw [sweepers, mem_erase, and_iff_right same]
    exact hb y

lemma Balanced.alloc (fresh : x ∉ l.alive) (step : Allocs l l' x) : Balanced l' := by
  intro y
  rw [step.alive, step.count, step.holders, step.sweepers]
  by_cases same : y = x
  · subst same
    obtain ⟨holders, sweepers⟩ := hb.gone fresh
    rw [update_self, List.count_singleton_self]
    exact .inl ⟨mem_insert_self y l.alive, sweepers, by omega, by omega⟩
  · rw [update_of_ne same, count_other same, mem_insert, or_iff_right same]
    exact hb y

end

/-! ## Who holds the references

Each thread and each object has a list of the references that it holds. -/

section

variable {T : Type} [Fintype T] [DecidableEq T]

def total (threads : T → List A) (alive : Finset A) (owned : A → List A) (x : A) : Nat :=
  ∑ t, (threads t).count x + ∑ a ∈ alive, (owned a).count x

variable {threads threads' : T → List A} {alive : Finset A} {owned owned' : A → List A} {t : T} {a : A}

/-- One thread's references are others. -/
lemma sum_count_thread (others : ∀ u, u ≠ t → threads' u = threads u) (x : A) :
    ∑ u, (threads' u).count x + (threads t).count x = ∑ u, (threads u).count x + (threads' t).count x := by
  have rest : ∑ u ∈ univ.erase t, (threads' u).count x = ∑ u ∈ univ.erase t, (threads u).count x :=
    sum_congr rfl fun u inside => by rw [others u (ne_of_mem_erase inside)]
  rw [← add_sum_erase univ _ (mem_univ t),
    ← add_sum_erase univ (fun u => (threads u).count x) (mem_univ t), rest]
  omega

omit [Fintype T] [DecidableEq T] in
lemma sum_split (a : A) (f : A → Nat) (alive : Finset A) :
    ∑ b ∈ alive, f b = (if a ∈ alive then f a else 0) + ∑ b ∈ alive.erase a, f b := by
  split
  · next member => exact (add_sum_erase alive f member).symm
  · next gone => rw [erase_eq_of_notMem gone, Nat.zero_add]

/-- One thread has other references, and one object, which may be new or gone. -/
lemma total_step {alive' : Finset A} (others : ∀ u, u ≠ t → threads' u = threads u)
    (members : ∀ b, b ≠ a → (b ∈ alive' ↔ b ∈ alive))
    (kept : ∀ b ∈ alive, b ≠ a → owned' b = owned b) (x : A) :
    total threads' alive' owned' x + (threads t).count x + (if a ∈ alive then (owned a).count x else 0) =
      total threads alive owned x + (threads' t).count x +
        (if a ∈ alive' then (owned' a).count x else 0) := by
  have moved := sum_count_thread others x
  have same : alive'.erase a = alive.erase a := by
    ext b
    rw [mem_erase, mem_erase]
    exact and_congr_right fun other => members b other
  have rest : ∑ b ∈ alive.erase a, (owned' b).count x = ∑ b ∈ alive.erase a, (owned b).count x :=
    sum_congr rfl fun b inside =>
      by rw [kept b (mem_of_mem_erase inside) (ne_of_mem_erase inside)]
  rw [total, total, sum_split a _ alive', sum_split a _ alive, same, rest]
  omega

omit [DecidableEq T] in
lemma total_of_thread (hh : x ∈ threads t) : 0 < total threads alive owned x :=
  Nat.lt_of_lt_of_le (List.count_pos_iff.mpr hh) (Nat.le_trans
    (single_le_sum (f := fun u => (threads u).count x) (fun _ _ => Nat.zero_le _)
      (mem_univ t)) (Nat.le_add_right ..))

omit [DecidableEq T] in
lemma total_of_owned (member : a ∈ alive) (holds : x ∈ owned a) : 0 < total threads alive owned x :=
  Nat.lt_of_lt_of_le (List.count_pos_iff.mpr holds) (Nat.le_trans
    (single_le_sum (f := fun b => (owned b).count x) (fun _ _ => Nat.zero_le _) member)
    (Nat.le_add_left ..))

lemma sum_count_two {u : T} (apart : t ≠ u) (first : x ∈ threads t) (second : x ∈ threads u) :
    2 ≤ ∑ v, (threads v).count x := by
  have one := List.count_pos_iff.mpr first
  have two : (threads u).count x ≤ ∑ v ∈ univ.erase t, (threads v).count x :=
    single_le_sum (f := fun v => (threads v).count x) (fun _ _ => Nat.zero_le _)
      (mem_erase.mpr ⟨apart.symm, mem_univ u⟩)
  have more := List.count_pos_iff.mpr second
  rw [← add_sum_erase univ _ (mem_univ t)]
  omega

lemma total_of_two {u : T} (apart : t ≠ u) (first : x ∈ threads t) (second : x ∈ threads u) :
    2 ≤ total threads alive owned x :=
  Nat.le_trans (sum_count_two apart first second) (Nat.le_add_right ..)

end

end Fzsvn.Library.RefCount
