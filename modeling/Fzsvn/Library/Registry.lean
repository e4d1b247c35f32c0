import Mathlib.Data.List.Nodup

/-!
# Lists of entries that are filled in one at a time

Entries are appended while they are still empty and filled in later, one at a time.
`Registered key done opened xs` says that the entries of `xs` that have a key have different
ones, and that each entry is done, apart from the one at `opened`. The rules say what keeps
this: opening a new entry, changing the open one, closing it, and changes to an entry that
touch neither its key nor what makes it done.
-/
namespace Fzsvn.Library.Registry
open List Option

variable {α κ : Type}

/-- Entries with a key have different ones. -/
def Unique (key : α → Option κ) (xs : List α) : Prop := (xs.filterMap key).Nodup

lemma eq_take_append {xs : List α} {i : Nat} {a : α} (entry : xs[i]? = some a) :
    xs = xs.take i ++ a :: xs.drop (i + 1) := by
  obtain ⟨bound, rfl⟩ := List.getElem?_eq_some_iff.mp entry
  rw [← drop_eq_getElem_cons bound, take_append_drop]

lemma set_eq_take_append {xs : List α} {i : Nat} {a b : α} (entry : xs[i]? = some a) :
    xs.set i b = xs.take i ++ b :: xs.drop (i + 1) := by
  obtain ⟨bound, -⟩ := List.getElem?_eq_some_iff.mp entry
  rw [set_eq_take_append_cons_drop, if_pos bound]

section

variable {key : α → Option κ} {xs : List α} {i : Nat} {a b : α}

section

variable (unique : Unique key xs)
include unique

lemma Unique.append (empty : key b = none) : Unique key (xs ++ [b]) := by
  rw [Unique, filterMap_append, filterMap_cons_none empty, filterMap_nil, append_nil]
  exact unique

lemma Unique.set_same (entry : xs[i]? = some a) (same : key b = key a) : Unique key (xs.set i b) := by
  have keys : (xs.set i b).filterMap key = xs.filterMap key := by
    conv_rhs => rw [eq_take_append entry]
    rw [set_eq_take_append entry, filterMap_append, filterMap_append, filterMap_cons, filterMap_cons, same]
  rw [Unique, keys]
  exact unique

lemma Unique.set_fresh (entry : xs[i]? = some a) (fresh : ∀ c ∈ xs, key c ≠ key b)
    : Unique key (xs.set i b) := by
  have rest : ((xs.take i ++ xs.drop (i + 1)).filterMap key).Nodup := by
    rw [Unique, eq_take_append entry] at unique
    refine unique.sublist (List.Sublist.filterMap key ?_)
    exact (List.Sublist.refl _).append (sublist_cons_self _ _)
  rw [Unique, set_eq_take_append entry, filterMap_append]
  cases used : key b with
  | none =>
    rw [filterMap_cons_none used, ← filterMap_append]
    exact rest
  | some k =>
    have others : k ∉ (xs.take i ++ xs.drop (i + 1)).filterMap key := by
      rw [mem_filterMap]
      rintro ⟨c, member, same⟩
      apply fresh c _ (same.trans used.symm)
      rcases mem_append.mp member with front | back
      · exact mem_of_mem_take front
      · exact mem_of_mem_drop back
    rw [filterMap_cons_some used, nodup_middle, ← filterMap_append]
    exact nodup_cons.mpr ⟨others, rest⟩

/-- When each entry has a key, the keys are a list without repetitions. -/
lemma Unique.nodup_map {name : α → κ} (named : ∀ c ∈ xs, key c = some (name c)) : (xs.map name).Nodup := by
  have keys : xs.filterMap key = xs.map name :=
    (filterMap_congr named).trans (congrFun filterMap_eq_map xs)
  rw [← keys]
  exact unique

end

end

structure Registered (key : α → Option κ) (done : α → Prop) (opened : Option Nat) (xs : List α) : Prop where
  unique : Unique key xs
  finished : ∀ i c, xs[i]? = some c → opened ≠ some i → done c

namespace Registered

variable {key : α → Option κ} {done : α → Prop} {opened : Option Nat} {xs : List α} {i : Nat}
  {a b : α}

lemma nil : Registered key done opened [] where
  unique := nodup_nil
  finished i c entry := by simp at entry

/-- A new entry is the open one. -/
lemma add (hh : Registered key done none xs) (empty : key b = none) :
    Registered key done (some xs.length) (xs ++ [b]) where
  unique := hh.unique.append empty
  finished i c entry other := by
    have front : i < xs.length := by
      have bound := (List.getElem?_eq_some_iff.mp entry).1
      rw [length_append, length_singleton] at bound
      have apart : xs.length ≠ i := fun same => other (congrArg some same)
      omega
    rw [getElem?_append_left front] at entry
    exact hh.finished i c entry nofun

lemma close (hh : Registered key done (some i) xs) (entry : xs[i]? = some a) (whole : done a) :
    Registered key done none xs where
  unique := hh.unique
  finished j c found _ := by
    by_cases same : i = j
    · subst j
      exact some.inj (entry.symm.trans found) ▸ whole
    · exact hh.finished j c found fun eq => same (some.inj eq)

/-- An entry changes, the open one or one that stays done. -/
lemma set (hh : Registered key done opened xs) (entry : xs[i]? = some a)
    (change : key b = key a ∨ ∀ c ∈ xs, key c ≠ key b)
    (kept : opened = some i ∨ (done a → done b)) : Registered key done opened (xs.set i b) where
  unique := by
    rcases change with same | fresh
    · exact hh.unique.set_same entry same
    · exact hh.unique.set_fresh entry fresh
  finished j c found other := by
    by_cases same : i = j
    · subst j
      rw [getElem?_set_self (List.getElem?_eq_some_iff.mp entry).1] at found
      rcases kept with isOpen | keeps
      · exact absurd isOpen other
      · exact some.inj found ▸ keeps (hh.finished i a entry other)
    · rw [getElem?_set_ne same] at found
      exact hh.finished j c found other

lemma all_done (hh : Registered key done none xs) : ∀ c ∈ xs, done c := by
  intro c member
  obtain ⟨i, entry⟩ := mem_iff_getElem?.mp member
  exact hh.finished i c entry nofun

end Registered

/-! ## Searching -/

/-- The last entry with `p`. -/
def lastIdx? (p : α → Bool) : List α → Option Nat
  | [] => none
  | x :: xs =>
    match lastIdx? p xs with
    | some i => some (i + 1)
    | none => if p x then some 0 else none

lemma lastIdx?_eq_none {p : α → Bool} {xs : List α} (missing : lastIdx? p xs = none) :
    ∀ c ∈ xs, p c = false := by
  induction xs with
  | nil => exact nofun
  | cons x xs ih =>
    unfold lastIdx? at missing
    split at missing
    · cases missing
    · rename_i none
      intro c member
      rcases mem_cons.mp member with rfl | later
      · cases shown : p c with
        | false => rfl
        | true =>
          rw [if_pos shown] at missing
          cases missing
      · exact ih none c later

end Fzsvn.Library.Registry
