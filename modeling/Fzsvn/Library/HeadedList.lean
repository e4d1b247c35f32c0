import Mathlib.Data.List.Basic

/-!
# Lists with a back pointer to the slot

A list of nodes with a `next` pointer and a `pprev` pointer to the place that holds the
pointer to the node: the head pointer of the list or the `next` of the node before. Nodes
are put in front and taken out from anywhere. `Linked` says that the pointers form a list
of given nodes; the operations are shown to do to these what they are named for.
-/
namespace Fzsvn.Library.HeadedList
open List Option

/-- What a `pprev` points to. -/
inductive Slot (α : Type) where
  | head
  | next (a : α)
deriving DecidableEq

structure Pointers (α : Type) where
  head : Option α
  next : α → Option α
  pprev : α → Option (Slot α)

variable {α : Type}

def Pointers.read (h : Pointers α) : Slot α → Option α
  | .head => h.head
  | .next a => h.next a

section Operations

variable [DecidableEq α]

def Pointers.setNext (h : Pointers α) (a : α) (v : Option α) : Pointers α :=
  { h with next := Function.update h.next a v }

def Pointers.setPprev (h : Pointers α) (a : α) (v : Option (Slot α)) : Pointers α :=
  { h with pprev := Function.update h.pprev a v }

def Pointers.write (h : Pointers α) (slot : Slot α) (v : Option α) : Pointers α :=
  match slot with
  | .head => { h with head := v }
  | .next a => h.setNext a v

/-- `if (a) a->pprev = slot` -/
def Pointers.back (h : Pointers α) (a : Option α) (slot : Slot α) : Pointers α :=
  match a with
  | some a => h.setPprev a (some slot)
  | none => h

/-- `a` put in front. -/
def push (h : Pointers α) (a : α) : Pointers α :=
  let h := h.back h.head (.next a)
  let h := h.setPprev a (some .head)
  let h := h.setNext a h.head
  { h with head := some a }

/-- `a`, pointed to by `slot`, taken out; its own pointers stay. -/
def unlink (h : Pointers α) (a : α) (slot : Slot α) : Pointers α :=
  let h := h.back (h.next a) slot
  h.write slot (h.next a)

/-- The pointers of `a` cleared. -/
def clear (h : Pointers α) (a : α) : Pointers α :=
  (h.setNext a none).setPprev a none

end Operations

/-! ## Representation -/

/-- The nodes found from `slot` on. -/
def Segment (h : Pointers α) : Slot α → List α → Prop
  | slot, [] => h.read slot = none
  | slot, x :: xs => h.read slot = some x ∧ h.pprev x = some slot ∧ Segment h (.next x) xs

structure Linked (h : Pointers α) (xs : List α) : Prop where
  segment : Segment h .head xs
  nodup : xs.Nodup

variable {h h' : Pointers α} {slot slot' : Slot α} {a : α} {xs : List α}

section

variable (segment : Segment h slot xs)
include segment

lemma segment_read : h.read slot = xs.head? := by
  cases xs with
  | nil => exact segment
  | cons x xs => exact segment.1

/-- A segment reads its slot and the pointers of its own nodes. -/
lemma segment_frame (start : h'.read slot = h.read slot) (next : ∀ x ∈ xs, h'.next x = h.next x)
    (pprev : ∀ x ∈ xs, h'.pprev x = h.pprev x) : Segment h' slot xs := by
  induction xs generalizing slot with
  | nil => exact start.trans segment
  | cons x xs ih =>
    obtain ⟨first, back, rest⟩ := segment
    exact ⟨start.trans first, (pprev x (by simp)).trans back,
      ih rest (next x (by simp)) (fun y member => next y (by simp [member]))
        fun y member => pprev y (by simp [member])⟩

/-- The nodes of a segment hung under another slot. -/
lemma segment_move (distinct : xs.Nodup) (start : h'.read slot' = h.read slot)
    (back : ∀ x ∈ xs.head?, h'.pprev x = some slot') (next : ∀ x ∈ xs, h'.next x = h.next x)
    (pprev : ∀ x ∈ xs, xs.head? ≠ some x → h'.pprev x = h.pprev x) : Segment h' slot' xs := by
  cases xs with
  | nil => exact start.trans segment
  | cons x xs =>
    obtain ⟨first, -, rest⟩ := segment
    have other : ∀ y ∈ xs, (x :: xs).head? ≠ some y := by
      intro y member same
      exact (nodup_cons.mp distinct).1 (some.inj same ▸ member)
    exact ⟨start.trans first, back x rfl, segment_frame rest (next x (by simp))
      (fun y member => next y (by simp [member]))
      fun y member => pprev y (by simp [member]) (other y member)⟩

lemma segment_pprev (member : a ∈ xs) :
    ∃ back, h.pprev a = some back ∧ (back = slot ∨ ∃ y ∈ xs, back = .next y) := by
  induction xs generalizing slot with
  | nil => cases member
  | cons x xs ih =>
    obtain ⟨-, back, rest⟩ := segment
    rcases mem_cons.mp member with rfl | later
    · exact ⟨slot, back, .inl rfl⟩
    · obtain ⟨prev, found, rfl | ⟨y, inside, rfl⟩⟩ := ih rest later
      · exact ⟨_, found, .inr ⟨x, by simp, rfl⟩⟩
      · exact ⟨_, found, .inr ⟨y, by simp [inside], rfl⟩⟩

/-- A node is not pointed to by itself. -/
lemma segment_apart (distinct : xs.Nodup) (outside : ∀ y ∈ xs, slot ≠ .next y) (member : a ∈ xs)
    : h.pprev a ≠ some (.next a) := by
  induction xs generalizing slot with
  | nil => cases member
  | cons x xs ih =>
    obtain ⟨-, back, rest⟩ := segment
    obtain ⟨absent, distinct'⟩ := nodup_cons.mp distinct
    rcases mem_cons.mp member with rfl | later
    · rw [back]
      exact fun same => outside a (by simp) (some.inj same)
    · refine ih rest distinct' (fun y inside same => ?_) later
      exact absent (Slot.next.inj same ▸ inside)

lemma segment_next {k : Nat} (found : xs[k]? = some a) : h.next a = xs[k + 1]? := by
  induction xs generalizing slot k with
  | nil => simp at found
  | cons x xs ih =>
    obtain ⟨-, -, rest⟩ := segment
    cases k with
    | zero =>
      obtain rfl : x = a := by simpa using found
      rw [getElem?_cons_succ, ← head?_eq_getElem?]
      exact segment_read rest
    | succ k => exact ih rest (by simpa using found)

end

lemma linked_frame (linked : Linked h xs) (hh : h'.head = h.head)
    (next : ∀ x ∈ xs, h'.next x = h.next x) (pprev : ∀ x ∈ xs, h'.pprev x = h.pprev x) : Linked h' xs :=
  ⟨segment_frame linked.segment hh next pprev, linked.nodup⟩

lemma linked_head (linked : Linked h xs) : h.head = xs.head? := segment_read linked.segment

lemma linked_pprev (linked : Linked h xs) (member : a ∈ xs) : ∃ back, h.pprev a = some back := by
  obtain ⟨back, found, -⟩ := segment_pprev linked.segment member
  exact ⟨back, found⟩

lemma linked_empty (hh : h.head = none) : Linked h [] := ⟨hh, nodup_nil⟩

/-! ## Reachable nodes -/

/-- The node after `k` steps from the head. -/
def walk (h : Pointers α) : Nat → Option α
  | 0 => h.head
  | k + 1 => walk h k >>= h.next

def Reaches (h : Pointers α) (a : α) : Prop := ∃ k, walk h k = some a

lemma linked_reaches (linked : Linked h xs) : Reaches h a ↔ a ∈ xs := by
  have steps : ∀ k, walk h k = xs[k]? := by
    intro k
    induction k with
    | zero => rw [walk, linked_head linked, head?_eq_getElem?]
    | succ k ih =>
      rw [walk, ih]
      cases found : xs[k]? with
      | none =>
        have short : xs.length ≤ k := getElem?_eq_none_iff.mp found
        simp [Nat.le_succ_of_le short]
      | some x => exact segment_next linked.segment found
  simp only [Reaches, steps, mem_iff_getElem?]

/-! ## Operations -/

section Operations

variable [DecidableEq α]

@[simp] lemma back_head (a : Option α) (slot : Slot α) : (h.back a slot).head = h.head := by
  cases a <;> rfl

@[simp] lemma back_next (a : Option α) (slot : Slot α) : (h.back a slot).next = h.next := by
  cases a <;> rfl

lemma back_pprev (a : Option α) (slot : Slot α) (x : α) :
    (h.back a slot).pprev x = if a = some x then some slot else h.pprev x := by
  cases a with
  | none => simp [Pointers.back]
  | some a =>
    by_cases same : x = a
    · simp [Pointers.back, Pointers.setPprev, same]
    · simp [Pointers.back, Pointers.setPprev, same, Ne.symm same]

@[simp] lemma write_pprev (v : Option α) : (h.write slot v).pprev = h.pprev := by
  cases slot <;> rfl

lemma linked_push (linked : Linked h xs) (absent : a ∉ xs) : Linked (push h a) (a :: xs) := by
  have next : ∀ x ∈ xs, (push h a).next x = h.next x := by
    intro x member
    have other : x ≠ a := fun same => absent (same ▸ member)
    simp [push, Pointers.setNext, Pointers.setPprev, other]
  have pprev : ∀ x ∈ xs, (push h a).pprev x = if h.head = some x then some (.next a) else h.pprev x := by
    intro x member
    have other : x ≠ a := fun same => absent (same ▸ member)
    simp [push, Pointers.setNext, Pointers.setPprev, other, back_pprev]
  have start := linked_head linked
  refine ⟨⟨rfl, by simp [push, Pointers.setNext, Pointers.setPprev], ?_⟩,
    nodup_cons.mpr ⟨absent, linked.nodup⟩⟩
  refine segment_move linked.segment linked.nodup ?_ (fun x first => ?_) next fun x member later => ?_
  · simp [Pointers.read, push, Pointers.setNext, Pointers.setPprev]
  · rw [pprev x (mem_of_mem_head? first), if_pos (start.trans first)]
  · rw [pprev x member, if_neg (start ▸ later)]

lemma unlink_pprev (x : α) :
    (unlink h a slot).pprev x = if h.next a = some x then some slot else h.pprev x := by
  simp [unlink, back_pprev]

lemma unlink_read (slot' : Slot α) :
    (unlink h a slot).read slot' = if slot' = slot then h.next a else h.read slot' := by
  cases slot' with
  | head =>
    cases slot <;> simp [unlink, Pointers.read, Pointers.write, Pointers.setNext]
  | next b =>
    cases slot with
    | head => simp [unlink, Pointers.read, Pointers.write]
    | next c =>
      simp only [unlink, Pointers.read, Pointers.write, Pointers.setNext, back_next,
        Function.update_apply, Slot.next.injEq]

lemma segment_unlink (segment : Segment h slot xs) (distinct : xs.Nodup)
    (outside : ∀ y ∈ xs, slot ≠ .next y) (member : a ∈ xs) (back : h.pprev a = some slot') :
    Segment (unlink h a slot') slot (xs.erase a) := by
  induction xs generalizing slot with
  | nil => cases member
  | cons x xs ih =>
    obtain ⟨first, xback, rest⟩ := segment
    obtain ⟨absent, distinct'⟩ := nodup_cons.mp distinct
    by_cases hh : x = a
    · subst hh
      obtain rfl : slot' = slot := some.inj (back.symm.trans xback)
      have after : h.next x = xs.head? := segment_read rest
      rw [erase_cons_head]
      refine segment_move rest distinct' ?_ (fun y found => ?_) (fun y inside => ?_) fun y inside later => ?_
      · rw [unlink_read, if_pos rfl]
        rfl
      · rw [unlink_pprev, if_pos (after.trans found)]
      · have other : ¬ Slot.next y = slot' := fun same => outside y (by simp [inside]) same.symm
        exact (unlink_read (.next y)).trans (if_neg other)
      · rw [unlink_pprev, if_neg (after ▸ later)]
    · have inside : a ∈ xs := (mem_cons.mp member).resolve_left (Ne.symm hh)
      have before : ¬ slot = slot' := by
        obtain ⟨prev, found, place⟩ := segment_pprev rest inside
        obtain rfl : slot' = prev := some.inj (back.symm.trans found)
        rcases place with rfl | ⟨y, within, rfl⟩
        · exact outside x (by simp)
        · exact outside y (by simp [within])
      have apart : ¬ h.next a = some x := by
        intro next
        obtain ⟨k, found⟩ := mem_iff_getElem?.mp inside
        rw [segment_next rest found] at next
        exact absent (mem_iff_getElem?.mpr ⟨_, next⟩)
      rw [erase_cons_tail (by simpa using hh)]
      refine ⟨?_, ?_, ih rest distinct' (fun y within same => ?_) inside⟩
      · rw [unlink_read, if_neg before, first]
      · rw [unlink_pprev, if_neg apart, xback]
      · exact absent (Slot.next.inj same ▸ within)

lemma linked_unlink (linked : Linked h xs) (member : a ∈ xs) (back : h.pprev a = some slot) :
    Linked (unlink h a slot) (xs.erase a) :=
  ⟨segment_unlink linked.segment linked.nodup (fun _ _ same => by cases same) member back,
    linked.nodup.erase a⟩

lemma linked_unlink_head (linked : Linked h (a :: xs)) : Linked (unlink h a .head) xs := by
  have unlinked := linked_unlink linked mem_cons_self linked.segment.2.1
  rwa [erase_cons_head] at unlinked

/-- What is left of the list, whatever comparison decides the membership. -/
lemma linked_unlink_rest (linked : Linked h xs) (member : a ∈ xs) (back : h.pprev a = some slot) :
    ∃ rest, Linked (unlink h a slot) rest ∧ (∀ x, x ∈ rest ↔ x ≠ a ∧ x ∈ xs) ∧ rest.length + 1 = xs.length :=
  ⟨xs.erase a, linked_unlink linked member back, fun _ => linked.nodup.mem_erase_iff,
    length_erase_add_one member⟩

lemma linked_clear (linked : Linked h xs) (absent : a ∉ xs) : Linked (clear h a) xs := by
  have other : ∀ x ∈ xs, x ≠ a := fun x member same => absent (same ▸ member)
  refine linked_frame linked rfl (fun x member => ?_) fun x member => ?_
  · simp [clear, Pointers.setNext, Pointers.setPprev, other x member]
  · simp [clear, Pointers.setNext, Pointers.setPprev, other x member]

end Operations

end Fzsvn.Library.HeadedList
