import Fzsvn.Source.Socket.Sockets
import Fzsvn.Library.HeadedList

/-!
# The lists of a socket pool

Each hash entry is the head of a list of items. Seen from one entry the operations on the
lists are those of `HeadedList`, a `prev` that is NULL standing for the pointer of the
entry; the other lists and the rest of the items are left alone.
-/
namespace Fzsvn.Guarantees.Socket.PoolLists
open Library.HeadedList Source.Socket.Sockets List Function

/-- What holds the pointer to an item. -/
def slotOf : Option Nat → Slot Nat
  | none => .head
  | some prev => .next prev

/-- The pointers as one entry sees them. -/
def view (pool : Sockpool) (entry : Nat) : Pointers Nat where
  head := (pool.hash entry).head
  next item := (pool.pool item).next
  pprev item := some (slotOf (pool.pool item).prev)

/-- What the lists do not use. -/
def content (item : SockpoolItem) : Int × UInt16 × UInt32 × UInt16 :=
  (item.fd, item.flags, item.ip, item.port)

/-- What an operation on the lists leaves alone. -/
structure Keeps (pool pool' : Sockpool) : Prop where
  size : pool'.size = pool.size
  nused : pool'.nused = pool.nused
  content : ∀ i, content (pool'.pool i) = content (pool.pool i)

lemma Keeps.trans {pool pool' pool'' : Sockpool} (hf : Keeps pool pool') (hs : Keeps pool' pool'') :
    Keeps pool pool'' :=
  ⟨hs.size.trans hf.size, hs.nused.trans hf.nused,
    fun i => (hs.content i).trans (hf.content i)⟩

lemma content_eq {a b : SockpoolItem} (he : content a = content b) :
    a.fd = b.fd ∧ a.flags = b.flags ∧ a.ip = b.ip ∧ a.port = b.port := by
  simpa only [content, Prod.mk.injEq] using he

lemma Keeps.fields {pool pool' : Sockpool} (hk : Keeps pool pool') (i : Nat) :
    (pool'.pool i).fd = (pool.pool i).fd ∧ (pool'.pool i).flags = (pool.pool i).flags ∧
      (pool'.pool i).ip = (pool.pool i).ip ∧ (pool'.pool i).port = (pool.pool i).port :=
  content_eq (hk.content i)

/-- What an operation on the contents leaves alone. -/
structure SameLinks (pool pool' : Sockpool) : Prop where
  hash : pool'.hash = pool.hash
  next : ∀ i, (pool'.pool i).next = (pool.pool i).next
  prev : ∀ i, (pool'.pool i).prev = (pool.pool i).prev

variable {pool : Sockpool} {k i j x : Nat}

/-! ## The operations on the pointers -/

section

variable (pool : Sockpool) (k i j x : Nat)

@[simp] lemma setNext_pool (next : Option Nat) : (pool.setNext i next).pool x =
    { pool.pool x with next := if x = i then next else (pool.pool x).next } := by
  by_cases he : x = i
  · simp [Sockpool.setNext, Sockpool.modify, he]
  · simp [Sockpool.setNext, Sockpool.modify, he]

@[simp] lemma setPrev_pool (prev : Option Nat) : (pool.setPrev i prev).pool x =
    { pool.pool x with prev := if x = i then prev else (pool.pool x).prev } := by
  by_cases he : x = i
  · simp [Sockpool.setPrev, Sockpool.modify, he]
  · simp [Sockpool.setPrev, Sockpool.modify, he]

@[simp] lemma setHead_hash (head : Option Nat) : (pool.setHead k head).hash j =
    { pool.hash j with head := if j = k then head else (pool.hash j).head } := by
  by_cases he : j = k
  · simp [Sockpool.setHead, he]
  · simp [Sockpool.setHead, he]

@[simp] lemma setSize_hash (size : UInt32) : (pool.setSize k size).hash j =
    { pool.hash j with size := if j = k then size else (pool.hash j).size } := by
  by_cases he : j = k
  · simp [Sockpool.setSize, he]
  · simp [Sockpool.setSize, he]

@[simp] lemma setNext_hash (next : Option Nat) : (pool.setNext i next).hash = pool.hash := rfl
@[simp] lemma setPrev_hash (prev : Option Nat) : (pool.setPrev i prev).hash = pool.hash := rfl
@[simp] lemma setHead_pool (head : Option Nat) : (pool.setHead k head).pool = pool.pool := rfl
@[simp] lemma setSize_pool (size : UInt32) : (pool.setSize k size).pool = pool.pool := rfl

lemma add_pool : (sockpoolHashAdd pool k i).pool x = { pool.pool x with
      next := if x = i then (pool.hash k).head else (pool.pool x).next
      prev := if x = i then none else if (pool.hash k).head = some x then some i else (pool.pool x).prev } := by
  unfold sockpoolHashAdd
  cases head : (pool.hash k).head with
  | none => simp
  | some first => simp [eq_comm]

lemma add_hash : (sockpoolHashAdd pool k i).hash j =
    if j = k then { size := (pool.hash k).size + 1, head := some i } else pool.hash j := by
  unfold sockpoolHashAdd
  cases (pool.hash k).head <;> by_cases he : j = k <;> simp [he]

lemma del_pool (hd : (pool.pool i).prev ≠ some i) : (sockpoolHashDel pool k i).pool x =
    { pool.pool x with
      next := if (pool.pool i).prev = some x then (pool.pool i).next else (pool.pool x).next
      prev := if (pool.pool i).next = some x then (pool.pool i).prev else (pool.pool x).prev } := by
  unfold sockpoolHashDel
  cases prev : (pool.pool i).prev with
  | none => cases next : (pool.pool i).next <;> simp [next, prev, eq_comm]
  | some before =>
    have ho : i ≠ before := by
      rintro rfl
      exact hd prev
    cases next : (pool.pool i).next <;> simp [next, prev, ho, eq_comm]

lemma del_hash : (sockpoolHashDel pool k i).hash j = if j = k then
      { size := (pool.hash k).size - 1
        head := if (pool.pool i).prev = none then (pool.pool i).next else (pool.hash k).head }
    else pool.hash j := by
  unfold sockpoolHashDel
  cases prev : (pool.pool i).prev <;> cases next : (pool.pool i).next <;> by_cases he : j = k <;>
    simp [next, prev, he]

end

/-- Taking the first item is deleting it. -/
lemma get_eq (hf : (pool.hash k).size ≠ 0) (head : (pool.hash k).head = some i)
    (first : (pool.pool i).prev = none) : sockpoolHashGet pool k = (some i, sockpoolHashDel pool k i) := by
  unfold sockpoolHashGet sockpoolHashDel
  rw [if_pos hf]
  simp [head, first]

/-! ## One list -/

section

variable {xs : List Nat}

lemma linked_add (hl : Linked (view pool k) xs) (ha : i ∉ xs) :
    Linked (view (sockpoolHashAdd pool k i) k) (i :: xs) := by
  refine linked_frame (linked_push hl ha) ?_ (fun x _ => ?_) fun x _ => ?_
  · simp [view, add_hash, push]
  · by_cases he : x = i
    · simp [view, add_pool, push, Pointers.setNext, Pointers.setPprev, he]
    · simp [view, add_pool, push, Pointers.setNext, Pointers.setPprev, he]
  · by_cases he : x = i
    · simp [view, add_pool, push, Pointers.setNext, Pointers.setPprev, he, slotOf]
    · by_cases hf : (pool.hash k).head = some x
      · simp [view, add_pool, push, Pointers.setNext, Pointers.setPprev, he, hf, back_pprev, slotOf]
      · simp [view, add_pool, push, Pointers.setNext, Pointers.setPprev, he, hf, back_pprev]

lemma slotOf_eq_head (prev : Option Nat) : .head = slotOf prev ↔ prev = none := by
  cases prev <;> simp [slotOf]

lemma slotOf_eq_next (prev : Option Nat) : .next x = slotOf prev ↔ prev = some x := by
  cases prev <;> simp [slotOf, eq_comm]

/-- An item is not its own predecessor. -/
lemma prev_ne (hl : Linked (view pool k) xs) (hm : i ∈ xs) : (pool.pool i).prev ≠ some i := by
  intro he
  apply segment_apart hl.segment hl.nodup (fun _ _ he => by cases he) hm
  simp only [view, he, slotOf]

lemma linked_del (hl : Linked (view pool k) xs) (hm : i ∈ xs) :
    Linked (view (sockpoolHashDel pool k i) k) (xs.erase i) := by
  have hd := prev_ne hl hm
  refine linked_frame (linked_unlink hl hm rfl) ?_ (fun x _ => ?_) fun x _ => ?_
  · have hr : (unlink (view pool k) i (slotOf (pool.pool i).prev)).read .head = _ := unlink_read .head
    simp only [slotOf_eq_head] at hr
    refine Eq.trans ?_ hr.symm
    simp [view, del_hash, Pointers.read]
  · have hr : (unlink (view pool k) i (slotOf (pool.pool i).prev)).read (.next x) = _ :=
      unlink_read (.next x)
    simp only [slotOf_eq_next] at hr
    refine Eq.trans ?_ hr.symm
    simp [view, del_pool, hd, Pointers.read]
  · rw [unlink_pprev]
    simp only [view, del_pool _ _ _ _ hd]
    by_cases ha : (pool.pool i).next = some x <;> simp [ha]

end

/-! ## All lists -/

/-- The lists of the entries have no item in common, and each entry knows how long its list
is. -/
structure Lists (pool : Sockpool) (lists : Nat → List Nat) : Prop where
  linked : ∀ k, Linked (view pool k) (lists k)
  size : ∀ k, (pool.hash k).size.toNat = (lists k).length
  apart : ∀ j k i, i ∈ lists j → i ∈ lists k → j = k

variable {pool' : Sockpool}

namespace Lists

variable {lists : Nat → List Nat}

section

variable (hv : Lists pool lists)
include hv

lemma head (k : Nat) : (pool.hash k).head = (lists k).head? :=
  linked_head (hv.linked k)

/-- An item in front of the rest of the list. -/
lemma next {before rest : List Nat} (split : lists k = before ++ i :: rest) :
    (pool.pool i).next = rest.head? := by
  have here : (lists k)[before.length]? = some i := by simp [split]
  refine (segment_next (hv.linked k).segment here).trans ?_
  rw [split, getElem?_append_right (by omega), head?_eq_getElem?, Nat.add_sub_cancel_left, getElem?_cons_succ]

/-- Another list is not touched when the pointers of its items are not. -/
lemma other (hh : (pool'.hash j).head = (pool.hash j).head)
    (next : ∀ x ∈ lists j, (pool'.pool x).next = (pool.pool x).next)
    (hp : ∀ x ∈ lists j, (pool'.pool x).prev = (pool.pool x).prev) : Linked (view pool' j) (lists j) :=
  linked_frame (hv.linked j) hh next fun x hm => by simp only [view, hp x hm]

/-- One list gets other items, which were in it before or in no list. -/
lemma apart_update {list : List Nat} (ho : ∀ x ∈ list, x ∈ lists k ∨ ∀ j, x ∉ lists j)
    (j l x : Nat) (hh : x ∈ update lists k list j) (ht : x ∈ update lists k list l) : j = l := by
  by_cases atJ : j = k
  · by_cases atL : l = k
    · exact atJ.trans atL.symm
    · rw [atJ, update_self] at hh
      rw [update_of_ne atL] at ht
      rcases ho x hh with hb | new
      · exact atJ.trans (hv.apart k l x hb ht)
      · exact absurd ht (new l)
  · rw [update_of_ne atJ] at hh
    by_cases atL : l = k
    · rw [atL, update_self] at ht
      rcases ho x ht with hb | new
      · exact (hv.apart j k x hh hb).trans atL.symm
      · exact absurd hh (new j)
    · rw [update_of_ne atL] at ht
      exact hv.apart j l x hh ht

lemma add (hf : ∀ j, i ∉ lists j) (hr : (lists k).length + 1 < 2 ^ 32) :
    Lists (sockpoolHashAdd pool k i) (update lists k (i :: lists k)) := by
  have first := hv.head k
  refine ⟨?_, ?_, ?_⟩
  · intro j
    by_cases he : j = k
    · subst he
      rw [update_self]
      exact linked_add (hv.linked j) (hf j)
    · rw [update_of_ne he]
      refine hv.other ?_ (fun x hm => ?_) fun x hm => ?_
      · rw [add_hash, if_neg he]
      · have notNew : x ≠ i := fun isNew => hf j (isNew ▸ hm)
        simp [add_pool, notNew]
      · have notNew : x ≠ i := fun isNew => hf j (isNew ▸ hm)
        have hn : (pool.hash k).head ≠ some x := by
          rw [first]
          exact fun hi => he (hv.apart j k x hm (mem_of_head? hi))
        simp [add_pool, notNew, hn]
  · intro j
    by_cases he : j = k
    · subst he
      have hs := hv.size j
      rw [update_self, add_hash, if_pos rfl, length_cons]
      rw [UInt32.toNat_add, hs]
      exact Nat.mod_eq_of_lt hr
    · rw [update_of_ne he, add_hash, if_neg he]
      exact hv.size j
  · apply hv.apart_update
    intro x hm
    rcases mem_cons.mp hm with rfl | hb
    · exact .inr hf
    · exact .inl hb

/-- What the pointers of an item lead to is in the same list. -/
lemma neighbours (hm : i ∈ lists k) (x : Nat) :
    ((pool.pool i).prev = some x → x ∈ lists k) ∧ ((pool.pool i).next = some x → x ∈ lists k) := by
  constructor
  · intro prev
    obtain ⟨back, hf, hp⟩ := segment_pprev (hv.linked k).segment hm
    have he : slotOf (pool.pool i).prev = back := Option.some.inj hf
    rw [prev] at he
    rcases hp with rfl | ⟨y, hi, rfl⟩
    · cases he
    · cases he
      exact hi
  · intro next
    obtain ⟨before, rest, split⟩ := append_of_mem hm
    rw [hv.next split] at next
    rw [split]
    exact mem_append_right _ (mem_cons_of_mem _ (mem_of_head? next))

lemma del (hm : i ∈ lists k) :
    Lists (sockpoolHashDel pool k i) (update lists k ((lists k).erase i)) := by
  have notSelf := prev_ne (hv.linked k) hm
  have hn := hv.neighbours hm
  refine ⟨?_, ?_, ?_⟩
  · intro j
    by_cases he : j = k
    · subst he
      rw [update_self]
      exact linked_del (hv.linked j) hm
    · rw [update_of_ne he]
      refine hv.other ?_ (fun x hi => ?_) fun x hi => ?_
      · rw [del_hash, if_neg he]
      · have notPrev : (pool.pool i).prev ≠ some x :=
          fun isPrev => he (hv.apart j k x hi ((hn x).1 isPrev))
        simp [del_pool _ _ _ _ notSelf, notPrev]
      · have notNext : (pool.pool i).next ≠ some x :=
          fun isNext => he (hv.apart j k x hi ((hn x).2 isNext))
        simp [del_pool _ _ _ _ notSelf, notNext]
  · intro j
    by_cases he : j = k
    · subst he
      have hs := hv.size j
      have hf := length_pos_of_mem hm
      have hl : (1 : UInt32) ≤ (pool.hash j).size := by
        rw [UInt32.le_iff_toNat_le]
        exact hs ▸ hf
      rw [update_self, del_hash, if_pos rfl, length_erase_of_mem hm]
      rw [UInt32.toNat_sub_of_le _ _ hl, hs]
      rfl
    · rw [update_of_ne he, del_hash, if_neg he]
      exact hv.size j
  · exact hv.apart_update fun x inRest => .inl (mem_of_mem_erase inRest)

lemma get {rest : List Nat} (hf : lists k = i :: rest) :
    sockpoolHashGet pool k = (some i, sockpoolHashDel pool k i) := by
  have hl := hv.linked k
  rw [hf] at hl
  apply get_eq
  · intro zero
    have hs := hv.size k
    rw [zero, hf] at hs
    cases hs
  · exact hl.segment.1
  · have hb : slotOf (pool.pool i).prev = .head := Option.some.inj hl.segment.2.1
    exact (slotOf_eq_head _).mp hb.symm

lemma relink (hl : SameLinks pool pool') : Lists pool' lists where
  linked j :=
    hv.other (congrArg SockpoolHash.head (congrFun hl.hash j)) (fun x _ => hl.next x)
      fun x _ => hl.prev x
  size j := by
    rw [hl.hash]
    exact hv.size j
  apart := hv.apart

end

end Lists

/-! ## An item goes to another list -/

def moved (lists : Nat → List Nat) (source target i : Nat) : Nat → List Nat :=
  update (update lists source ((lists source).erase i)) target (i :: lists target)

section

variable {lists : Nat → List Nat} {source target : Nat}

lemma moved_target : moved lists source target i target = i :: lists target := update_self ..

lemma moved_source (hd : source ≠ target) : moved lists source target i source = (lists source).erase i := by
  rw [moved, update_of_ne hd, update_self]

namespace Lists

lemma mem_moved (hv : Lists pool lists) (hd : source ≠ target) (hm : i ∈ lists source) :
    x ∈ moved lists source target i j ↔ (x = i ∧ j = target) ∨ (x ≠ i ∧ x ∈ lists j) := by
  by_cases atTarget : j = target
  · subst atTarget
    have ha : i ∉ lists j := fun hi => hd (hv.apart source j i hm hi)
    rw [moved_target, mem_cons]
    by_cases he : x = i
    · simp [he]
    · simp [he]
  · by_cases atSource : j = source
    · subst atSource
      rw [moved_source hd, (hv.linked j).nodup.mem_erase_iff]
      simp [atTarget]
    · have ha : i ∉ lists j := fun hi => atSource (hv.apart j source i hi hm)
      rw [moved, update_of_ne atTarget, update_of_ne atSource]
      by_cases he : x = i
      · simp [he, ha, atTarget]
      · simp [he]

/-- Between the two operations everything but the pointers may change. -/
lemma move (hv : Lists pool lists) (hd : source ≠ target) (hm : i ∈ lists source)
    (hr : (lists target).length + 1 < 2 ^ 32) (hl : SameLinks (sockpoolHashDel pool source i) pool') :
    Lists (sockpoolHashAdd pool' target i) (moved lists source target i) := by
  have deleted := (hv.del hm).relink hl
  have ho : update lists source ((lists source).erase i) target = lists target :=
    update_of_ne hd.symm _ _
  have ha := deleted.add (k := target) (i := i) ?_ ?_
  · rwa [ho] at ha
  · intro j hi
    by_cases he : j = source
    · subst he
      rw [update_self] at hi
      exact (hv.linked j).nodup.not_mem_erase hi
    · rw [update_of_ne he] at hi
      exact he (hv.apart j source i hi hm)
  · rw [ho]
    exact hr

end Lists

end

lemma add_keeps (pool : Sockpool) (k i : Nat) : Keeps pool (sockpoolHashAdd pool k i) := by
  refine ⟨?_, ?_, fun x => ?_⟩
  · unfold sockpoolHashAdd
    cases (pool.hash k).head <;> rfl
  · unfold sockpoolHashAdd
    cases (pool.hash k).head <;> rfl
  · rw [add_pool]
    rfl

lemma del_keeps (k i : Nat) (hd : (pool.pool i).prev ≠ some i) :
    Keeps pool (sockpoolHashDel pool k i) := by
  refine ⟨?_, ?_, fun x => ?_⟩
  · dsimp only [sockpoolHashDel]
    cases (pool.pool i).prev <;> dsimp only <;> split <;> rfl
  · dsimp only [sockpoolHashDel]
    cases (pool.pool i).prev <;> dsimp only <;> split <;> rfl
  · rw [del_pool _ _ _ _ hd]
    rfl

end Fzsvn.Guarantees.Socket.PoolLists
