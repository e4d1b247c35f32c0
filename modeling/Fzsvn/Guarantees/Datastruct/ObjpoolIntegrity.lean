import Fzsvn.Source.Datastruct.Objpool
import Mathlib.Algebra.Order.BigOperators.Group.List
import Mathlib.Algebra.Order.Group.Nat
import Mathlib.Data.UInt

/-!
# Integrity of the object pool

Whatever is taken from a pool and given back, its free list holds exactly the unused nodes of
its caches, no object is handed out twice, and a cache is released only when none of its
nodes is held, so no assertion fails. The two counters of the pool have 32 bits and are right
modulo `2 ^ 32`; a pool with more nodes than that miscounts them (`counter_wraps`).
-/
namespace Fzsvn.Guarantees.Datastruct.ObjpoolIntegrity
open Library.HeadedList Source.Datastruct Source.Stdext List Function Option UInt16

variable {C R : Type}

/-! ## The property -/

/-- The node lies in the region of the cache. -/
def InCache (op : Objpool C R) (c : C) (node : R × Nat) : Prop :=
  (op.caches c).pool = some node.1 ∧ node.2 < (op.caches c).capacity.toNat

section

variable [DecidableEq R]

/-- `live` are the caches, `free` is the free list and `held` what was handed out. -/
structure Integrity (op : Objpool C R) (held free : List (R × Nat)) (live : List C) : Prop where
  caches : Linked op.cacheList live
  nodes : Linked op.nodeList free
  unused : ∀ node, node ∈ free ↔ (∃ c ∈ live, InCache op c node) ∧ (op.nodes node).isUsed = false
  used : ∀ node, node ∈ held ↔ (∃ c ∈ live, InCache op c node) ∧ (op.nodes node).isUsed = true
  nfreed : op.nfreed = UInt32.ofNat free.length
  nalloced : op.nalloced = UInt32.ofNat (live.map fun c => (op.caches c).capacity.toNat).sum
  nused : ∀ c ∈ live,
    (op.caches c).nused.toNat = held.countP fun node => (op.caches c).pool = some node.1

inductive PoolOp (C R : Type) where
  | get (malloc : CacheMalloc C R)
  | put (node : R × Nat)

variable [DecidableEq C]

/-- The operation does not fault; what it returns is not held yet. -/
def PoolOp.Right (op : Objpool C R) (held : List (R × Nat)) : PoolOp C R → Objpool C R → List (R × Nat) → Prop
  | .get malloc, op', held' => ∃ result, objpoolGet op malloc = .ok (result, op') ∧
      match result with
      | none => held' = held
      | some node => node ∉ held ∧ held' = node :: held
  | .put node, op', held' => objpoolPut op (some node) = .ok (0, op') ∧ held' = held.erase node

/-- `P` holds of the pool, the held objects, the free list and the caches all along the run. -/
def Along (P : Objpool C R → List (R × Nat) → List (R × Nat) → List C → Prop) :
    List (PoolOp C R) → Objpool C R → List (R × Nat) → Prop
  | [], op, held => ∃ free live, P op held free live
  | pop :: pops, op, held => (∃ free live, P op held free live) ∧
      ∃ op' held', pop.Right op held op' held' ∧ Along P pops op' held'

/-- `malloc` returns no address that is in use. -/
def FreshCache (op : Objpool C R) (malloc : CacheMalloc C R) : Prop :=
  (∀ c, malloc.cache = some c → ¬Reaches op.cacheList c) ∧
  ∀ r, malloc.pool = some r → ∀ c, Reaches op.cacheList c → (op.caches c).pool ≠ some r

def PoolOp.Allowed (op : Objpool C R) (held : List (R × Nat)) : PoolOp C R → Prop
  | .get malloc => FreshCache op malloc
  | .put node => node ∈ held

def AllAllowed : List (PoolOp C R) → Objpool C R → List (R × Nat) → Prop
  | [], _, _ => True
  | pop :: pops, op, held => pop.Allowed op held ∧
      ∀ op' held', pop.Right op held op' held' → AllAllowed pops op' held'

end

/-! ## The invariant -/

def Owned (op : Objpool C R) (c : C) (node : R × Nat) : Prop :=
  (op.caches c).pool = some node.1 ∧ node.2 < op.incsize.toNat

/-- The node is one of a cache in the pool. -/
def Belongs (op : Objpool C R) (live : List C) (node : R × Nat) : Prop := ∃ c ∈ live, Owned op c node

structure Valid [DecidableEq R] (op : Objpool C R) (held free : List (R × Nat)) (live : List C) : Prop where
  caches : Linked op.cacheList live
  nodes : Linked op.nodeList free
  unused : ∀ node, node ∈ free ↔ Belongs op live node ∧ (op.nodes node).isUsed = false
  used : ∀ node, node ∈ held ↔ Belongs op live node ∧ (op.nodes node).isUsed = true
  nfreed : op.nfreed = UInt32.ofNat free.length
  nalloced : op.nalloced = UInt32.ofNat (live.length * op.incsize.toNat)
  nused : ∀ c ∈ live,
    (op.caches c).nused.toNat = held.countP fun node => (op.caches c).pool = some node.1
  cache : ∀ c ∈ live, (op.caches c).magic = op.magic ∧
    (op.caches c).capacity = op.incsize.toUInt32 ∧ (op.caches c).pool ≠ none
  node : ∀ c ∈ live, ∀ node, Owned op c node → op.nodes node =
    { magic := op.magic, isUsed := (op.nodes node).isUsed, cache := some c, pool := true }
  positive : 0 < op.incsize.toNat
  heldNodup : held.Nodup

variable {op op' : Objpool C R} {held held' free free' : List (R × Nat)} {live : List C} {c c' : C}
  {r : R} {node : R × Nat}

/-- The nodes of a new region, the last one in front. -/
def newNodes (r : R) (n : Nat) : List (R × Nat) := (List.range n).reverse.map (r, ·)

lemma newNodes_succ {n : Nat} : newNodes r (n + 1) = (r, n) :: newNodes r n := by
  simp [newNodes, range_succ]

lemma mem_newNodes {n : Nat} : node ∈ newNodes r n ↔ node.1 = r ∧ node.2 < n := by
  simp [newNodes, Prod.ext_iff, eq_comm, and_comm]

lemma opLock_eq (hu : op.locked = false) : opLock op = some { op with locked := op.needLock } := by
  obtain ⟨magic, needLock, locked⟩ := op
  cases hu
  cases needLock
  · rfl
  · rfl

lemma opUnlock_eq (locked : op.locked = op.needLock) : opUnlock op = { op with locked := false } := by
  obtain ⟨magic, needLock, locked'⟩ := op
  cases locked
  cases needLock
  · rfl
  · rfl

section

variable [DecidableEq R]

section

variable (hv : Valid op held free live)
include hv

lemma Valid.capacity (hi : c ∈ live) : (op.caches c).capacity.toNat = op.incsize.toNat := by
  rw [(hv.cache c hi).2.1, toNat_toUInt32]

lemma Valid.inCache (hi : c ∈ live) : InCache op c node ↔ Owned op c node := by
  rw [InCache, Owned, hv.capacity hi]

lemma Valid.integrity : Integrity op held free live := by
  have hi : ∀ node, (∃ c ∈ live, InCache op c node) ↔ Belongs op live node := fun node =>
    exists_congr fun c => and_congr_right fun isLive => hv.inCache isLive
  refine ⟨hv.caches, hv.nodes, ?_, ?_, hv.nfreed, ?_, hv.nused⟩
  · intro node
    rw [hi]
    exact hv.unused node
  · intro node
    rw [hi]
    exact hv.used node
  · have hs : live.map (fun c => (op.caches c).capacity.toNat) =
        live.map fun _ => op.incsize.toNat :=
      map_congr_left fun c isLive => hv.capacity isLive
    rw [hv.nalloced, hs, map_const', sum_replicate_nat]

/-- Two caches do not share a region. -/
lemma Valid.owner (hi : c ∈ live) (hi' : c' ∈ live)
    (he : (op.caches c).pool = (op.caches c').pool) : c = c' := by
  obtain ⟨r, hr⟩ := ne_none_iff_exists'.mp (hv.cache c hi).2.2
  have hf := hv.node c hi (r, 0) ⟨hr, hv.positive⟩
  have hs := hv.node c' hi' (r, 0) ⟨he ▸ hr, hv.positive⟩
  have hc := congrArg OpNode.cache (hf.symm.trans hs)
  exact some.inj hc

/-- A cache has no more held nodes than it has nodes. -/
lemma Valid.held_le (hr : (op.caches c).pool = some r) :
    (held.countP fun node => (op.caches c).pool = some node.1) ≤ op.incsize.toNat := by
  rw [countP_eq_length_filter]
  have hi : ∀ node ∈ held.filter fun node => (op.caches c).pool = some node.1,
      node.1 = r ∧ node.2 < op.incsize.toNat := by
    intro node hf
    obtain ⟨hh, hm⟩ := mem_filter.mp hf
    obtain ⟨⟨c', hi', ho⟩, -⟩ := (hv.used node).mp hh
    rw [hr] at hm
    exact ⟨(some.inj (of_decide_eq_true hm)).symm, ho.2⟩
  have hd : ((held.filter fun node => (op.caches c).pool = some node.1).map Prod.snd).Nodup := by
    refine List.Nodup.map_on ?_ (hv.heldNodup.filter _)
    intro x inX y inY he
    exact Prod.ext ((hi x inX).1.trans (hi y inY).1.symm) he
  have range : (held.filter fun node => (op.caches c).pool = some node.1).map Prod.snd ⊆
      List.range op.incsize.toNat := by
    intro i hf
    obtain ⟨node, inHeld, rfl⟩ := mem_map.mp hf
    exact mem_range.mpr (hi node inHeld).2
  have hs := (subperm_of_subset hd range).length_le
  rwa [length_map, length_range] at hs

lemma Valid.lock (needLock locked : Bool) :
    Valid { op with needLock := needLock, locked := locked } held free live :=
  { hv with }

end

/-! ## A new cache -/

/-- The loop that links the nodes of a new region, in front of those that are free. -/
lemma opInitNodes_spec (hl : Linked op.nodeList free) (ha : ∀ i, (r, i) ∉ free) (c : C)
    (n : Nat) : ∃ list nodes, opInitNodes op c r n = { op with nodeList := list, nodes := nodes } ∧
      Linked list (newNodes r n ++ free) ∧ ∀ node, nodes node = if node ∈ newNodes r n then
        { magic := op.magic, isUsed := false, cache := some c, pool := true } else op.nodes node := by
  induction n with
  | zero => exact ⟨op.nodeList, op.nodes, rfl, hl, fun _ => rfl⟩
  | succ n ih =>
    obtain ⟨list, nodes, initialised, hl', hc⟩ := ih
    have hi : (r, n) ∉ newNodes r n ++ free := by
      simp [mem_newNodes, ha]
    refine ⟨push list (r, n), update nodes (r, n)
      { magic := op.magic, isUsed := false, cache := some c, pool := true }, ?_, ?_, ?_⟩
    · rw [opInitNodes, initialised]
      rfl
    · rw [newNodes_succ]
      exact linked_push hl' hi
    · intro node
      by_cases last : node = (r, n)
      · simp [last, newNodes_succ]
      · simp [last, newNodes_succ, hc]

end

variable [DecidableEq C] [DecidableEq R]

lemma toUInt32_eq {n : UInt16} : n.toUInt32 = UInt32.ofNat n.toNat := by
  rw [← toNat_toUInt32, UInt32.ofNat_toNat]

/-- A new cache brings its nodes, none of which is used. -/
lemma Valid.alloc (hv : Valid op held free live) (hn : c ∉ live)
    (newRegion : ∀ c' ∈ live, (op.caches c').pool ≠ some r) :
    ∃ op', opAllocCache op { cache := some c, pool := some r } = (0, op') ∧
      Valid op' held (newNodes r op.incsize.toNat ++ free) (c :: live) ∧ op'.nodesize = op.nodesize ∧
      op'.incsize = op.incsize ∧ op'.needLock = op.needLock ∧ op'.locked = op.locked := by
  have ho : ∀ node, Belongs op live node → node.1 ≠ r := by
    rintro node ⟨c', isLive, hr, -⟩ rfl
    exact newRegion c' isLive hr
  have ha : ∀ i, (r, i) ∉ free := fun i hi =>
    ho _ ((hv.unused _).mp hi).1 rfl
  obtain ⟨list, nodes, initialised, hl, hc⟩ :=
    opInitNodes_spec hv.nodes ha c op.incsize.toNat
  simp only [mem_newNodes] at hc
  let cache : OpCache R :=
    { magic := op.magic, nused := 0, pool := some r, capacity := op.incsize.toUInt32 }
  let op' : Objpool C R := { op with
    nodeList := list
    nodes := nodes
    caches := update op.caches c cache
    nalloced := op.nalloced + op.incsize.toUInt32
    nfreed := op.nfreed + op.incsize.toUInt32
    cacheList := push op.cacheList c }
  have hm : op'.caches c = cache := update_self ..
  have he : ∀ c' ∈ live, op'.caches c' = op.caches c' := by
    intro c' isLive
    refine update_of_ne ?_ _ _
    rintro rfl
    exact hn isLive
  have owned : ∀ c' ∈ live, ∀ node, Owned op' c' node ↔ Owned op c' node := by
    intro c' isLive node
    rw [Owned, Owned, he c' isLive]
  have inside_iff : ∀ node, Owned op' c node ↔ node.1 = r ∧ node.2 < op.incsize.toNat := by
    intro node
    rw [Owned, hm]
    exact and_congr_left fun _ => ⟨fun is => (some.inj is).symm, fun is => congrArg some is.symm⟩
  have hb : ∀ node, Belongs op' (c :: live) node ↔
      (node.1 = r ∧ node.2 < op.incsize.toNat) ∨ Belongs op live node := by
    intro node
    rw [Belongs, exists_mem_cons_iff, inside_iff]
    exact or_congr_right (exists_congr fun c' => and_congr_right fun isLive => owned c' isLive node)
  have hu : ∀ node, node.1 = r ∧ node.2 < op.incsize.toNat → nodes node =
      { magic := op.magic, isUsed := false, cache := some c, pool := true } := by
    intro node hi
    rw [hc, if_pos hi]
  have hk : ∀ node, ¬(node.1 = r ∧ node.2 < op.incsize.toNat) → nodes node = op.nodes node := by
    intro node other
    rw [hc, if_neg other]
  refine ⟨op', ?_, ?_, rfl, rfl, rfl, rfl⟩
  · rw [opAllocCache]
    dsimp only
    rw [initialised]
    rfl
  refine ⟨linked_push hv.caches hn, hl, ?_, ?_, ?_, ?_, ?_, ?_, ?_, hv.positive,
    hv.heldNodup⟩
  · intro node
    rw [mem_append, mem_newNodes, hb, hv.unused]
    change _ ↔ _ ∧ (nodes node).isUsed = false
    by_cases hi : node.1 = r ∧ node.2 < op.incsize.toNat
    · simp [hi, hu node hi]
    · simp [hi, hk node hi]
  · intro node
    rw [hb, hv.used]
    change _ ↔ _ ∧ (nodes node).isUsed = true
    by_cases hi : node.1 = r ∧ node.2 < op.incsize.toNat
    · have away : ¬Belongs op live node := fun old => ho node old hi.1
      simp [away, hu node hi]
    · simp [hi, hk node hi]
  · change op.nfreed + _ = _
    rw [hv.nfreed, toUInt32_eq, ← UInt32.ofNat_add]
    simp [newNodes, Nat.add_comm]
  · change op.nalloced + _ = UInt32.ofNat ((c :: live).length * op.incsize.toNat)
    rw [hv.nalloced, toUInt32_eq, ← UInt32.ofNat_add, length_cons, Nat.add_mul, Nat.one_mul]
  · refine forall_mem_cons.mpr ⟨?_, fun c' isLive => ?_⟩
    · rw [hm, eq_comm]
      refine countP_eq_zero.mpr fun node hh => ?_
      simpa [cache] using (ho node ((hv.used node).mp hh).1).symm
    · rw [he c' isLive]
      exact hv.nused c' isLive
  · refine forall_mem_cons.mpr ⟨?_, fun c' isLive => ?_⟩
    · rw [hm]
      exact ⟨rfl, rfl, some_ne_none r⟩
    · rw [he c' isLive]
      exact hv.cache c' isLive
  · refine forall_mem_cons.mpr ⟨fun node hi => ?_, fun c' isLive node hi => ?_⟩
    · have isFresh := hu node ((inside_iff node).mp hi)
      change nodes node = { magic := _, isUsed := (nodes node).isUsed, cache := _, pool := _ }
      rw [isFresh]
    · have old := (owned c' isLive node).mp hi
      have isKept := hk node fun hhe => ho node ⟨c', isLive, old⟩ hhe.1
      change nodes node = { magic := _, isUsed := (nodes node).isUsed, cache := _, pool := _ }
      rw [isKept]
      exact hv.node c' isLive node old

/-! ## Handing out and taking back -/

/-- The pool after the node of a cache was handed out or taken back. -/
def flip (op : Objpool C R) (c : C) (node : R × Nat) (isUsed : Bool) (nused nfreed : UInt32)
    (list : Pointers (R × Nat)) : Objpool C R :=
  { op with
    nodeList := list
    nodes := update op.nodes node { op.nodes node with isUsed := isUsed }
    caches := update op.caches c { op.caches c with nused := nused }
    nfreed := nfreed }

section

variable (hv : Valid op held free live)
include hv

/-- The cache of a node that changes hands counts it; nothing else changes. -/
lemma Valid.flipped (isLive : c ∈ live) (owned : Owned op c node) {isUsed : Bool}
    {nused nfreed : UInt32} {list : Pointers (R × Nat)} (hl : Linked list free')
    (hu : ∀ x, x ∈ free' ↔ if x = node then isUsed = false else x ∈ free)
    (used : ∀ x, x ∈ held' ↔ if x = node then isUsed = true else x ∈ held) (hn : held'.Nodup)
    (hf : nfreed = UInt32.ofNat free'.length)
    (hc : nused.toNat = held'.countP fun node => (op.caches c).pool = some node.1)
    (ho : ∀ p : R × Nat → Bool, p node = false → held'.countP p = held.countP p) :
    Valid (flip op c node isUsed nused nfreed list) held' free' live := by
  have caches : ∀ c', (flip op c node isUsed nused nfreed list).caches c' =
      if c' = c then { op.caches c with nused := nused } else op.caches c' := by
    intro c'
    exact update_apply ..
  have hp : ∀ c', ((flip op c node isUsed nused nfreed list).caches c').pool = (op.caches c').pool := by
    intro c'
    rw [caches]
    split
    · next he => rw [he]
    · rfl
  have nodes : ∀ x, (flip op c node isUsed nused nfreed list).nodes x =
      if x = node then { op.nodes node with isUsed := isUsed } else op.nodes x := by
    intro x
    exact update_apply ..
  have owns : ∀ c' x, Owned (flip op c node isUsed nused nfreed list) c' x ↔ Owned op c' x := by
    intro c' x
    rw [Owned, Owned, hp]
    rfl
  have hb : ∀ x, Belongs (flip op c node isUsed nused nfreed list) live x ↔ Belongs op live x := by
    intro x
    exact exists_congr fun c' => and_congr_right fun _ => owns c' x
  have hm : Belongs op live node := ⟨c, isLive, owned⟩
  refine ⟨hv.caches, hl, ?_, ?_, hf, hv.nalloced, ?_, ?_, ?_, hv.positive, hn⟩
  · intro x
    rw [hu, hb, nodes]
    by_cases he : x = node
    · simp [he, hm]
    · simpa [he] using hv.unused x
  · intro x
    rw [used, hb, nodes]
    by_cases he : x = node
    · simp [he, hm]
    · simpa [he] using hv.used x
  · intro c' hi'
    simp only [hp]
    rw [caches]
    by_cases he : c' = c
    · rw [if_pos he, he]
      exact hc
    · rw [if_neg he, hv.nused c' hi', ho]
      have hd : (op.caches c').pool ≠ (op.caches c).pool := fun hs =>
        he (hv.owner hi' isLive hs)
      simpa [← owned.1] using hd
  · intro c' hi'
    rw [caches]
    split
    · exact hv.cache c isLive
    · exact hv.cache c' hi'
  · intro c' hi' x hi
    have old := hv.node c' hi' x ((owns c' x).mp hi)
    rw [nodes]
    split
    · next he =>
      rw [he] at old
      rw [old]
      rfl
    · exact old

/-- The first node of the free list is handed out. -/
lemma Valid.take (hf : free ≠ []) :
    ∃ node c rest, op.nodeList.head = some node ∧ (op.nodes node).cache = some c ∧ node ∉ held ∧
      Valid (flip op c node true ((op.caches c).nused + 1) (op.nfreed - 1)
        (clear (unlink op.nodeList node .head) node)) (node :: held) rest live := by
  obtain ⟨node, rest, rfl⟩ := exists_cons_of_ne_nil hf
  obtain ⟨⟨c, isLive, owned⟩, isFree⟩ := (hv.unused node).mp mem_cons_self
  have hd : node ∉ held := by
    intro hh
    have hi := ((hv.used node).mp hh).2
    rw [isFree] at hi
    cases hi
  have ha : node ∉ rest := (nodup_cons.mp hv.nodes.nodup).1
  have hl : Linked (clear (unlink op.nodeList node .head) node) rest :=
    linked_clear (linked_unlink_head hv.nodes) ha
  refine ⟨node, c, rest, linked_head hv.nodes, ?_, hd, ?_⟩
  · rw [hv.node c isLive node owned]
  · refine hv.flipped isLive owned hl ?_ ?_ (nodup_cons.mpr ⟨hd, hv.heldNodup⟩) ?_ ?_ ?_
    · intro x
      by_cases he : x = node
      · simp [he, ha]
      · simp [he]
    · intro x
      by_cases he : x = node
      · simp [he]
      · simp [he]
    · rw [hv.nfreed, length_cons, UInt32.ofNat_add]
      exact UInt32.add_sub_cancel ..
    · have hb := hv.held_le owned.1
      have hs := op.incsize.toNat_lt
      rw [countP_cons_of_pos (by simp [owned.1]), UInt32.toNat_add, hv.nused c isLive]
      exact Nat.mod_eq_of_lt (by change _ + 1 < _; omega)
    · intro p ho
      exact countP_cons_of_neg (by simp [ho])

/-- A held node goes back to the front of the free list. -/
lemma Valid.give (hh : node ∈ held) : ∃ c ∈ live, op.nodes node =
        { magic := op.magic, isUsed := true, cache := some c, pool := true } ∧
      Valid (flip op c node false ((op.caches c).nused - 1) (op.nfreed + 1) (push op.nodeList node))
        (held.erase node) (node :: free) live := by
  obtain ⟨⟨c, isLive, owned⟩, isUsed⟩ := (hv.used node).mp hh
  have hd : node ∉ free := by
    intro hi
    have hu := ((hv.unused node).mp hi).2
    rw [isUsed] at hu
    cases hu
  refine ⟨c, isLive, ?_, ?_⟩
  · rw [hv.node c isLive node owned, isUsed]
  · refine hv.flipped isLive owned (linked_push hv.nodes hd) ?_ ?_
      (hv.heldNodup.erase node) ?_ ?_ ?_
    · intro x
      by_cases he : x = node
      · simp [he]
      · simp [he]
    · intro x
      rw [hv.heldNodup.mem_erase_iff]
      by_cases he : x = node
      · simp [he]
      · simp [he]
    · rw [hv.nfreed, length_cons, UInt32.ofNat_add]
      rfl
    · have hc : decide ((op.caches c).pool = some node.1) = true := decide_eq_true owned.1
      have one : 0 < held.countP fun node => (op.caches c).pool = some node.1 :=
        List.countP_pos_iff.mpr ⟨node, hh, hc⟩
      have hn := hv.nused c isLive
      rw [countP_erase, if_pos ⟨hh, hc⟩, UInt32.toNat_sub_of_le, hn]
      · rfl
      · rw [UInt32.le_iff_toNat_le, hn]
        exact one
    · intro p ho
      rw [countP_erase, if_neg (by simp [ho]), Nat.sub_zero]

end

/-! ## A cache that is released -/

omit [DecidableEq C] in
/-- The loop that takes the nodes of a region out of the free list. -/
lemma opFreeNodes_spec (linked : Linked op.nodeList free) {n : Nat}
    (all : ∀ i < n, (r, i) ∈ free ∧ (op.nodes (r, i)).isUsed = false) :
    ∃ list free', opFreeNodes op r n = .ok { op with nodeList := list } ∧ Linked list free' ∧
      (∀ node, node ∈ free' ↔ node ∈ free ∧ ¬(node.1 = r ∧ node.2 < n)) ∧
      free'.length + n = free.length := by
  induction n with
  | zero => exact ⟨op.nodeList, free, rfl, linked, by simp, rfl⟩
  | succ n ih =>
    obtain ⟨list, free', ran, hl', hm, length⟩ :=
      ih fun i hl => all i (Nat.lt_succ_of_lt hl)
    obtain ⟨inFree, unused⟩ := all n (Nat.lt_succ_self n)
    have hi : (r, n) ∈ free' := (hm _).mpr ⟨inFree, fun hl => Nat.lt_irrefl n hl.2⟩
    obtain ⟨slot, back⟩ := linked_pprev hl' hi
    obtain ⟨rest, hu, left, one⟩ := linked_unlink_rest hl' hi back
    refine ⟨unlink list (r, n) slot, rest, ?_, hu, ?_, ?_⟩
    · rw [opFreeNodes, ran]
      change opFreeNode { op with nodeList := list } (r, n) = _
      simp only [opFreeNode, opAssert, unused, Bool.not_false, if_true, back, bind, Except.bind]
      rfl
    · rintro ⟨r', i⟩
      rw [left, hm]
      constructor
      · rintro ⟨ho, old, hb⟩
        refine ⟨old, fun ⟨hr, hl⟩ => ?_⟩
        rcases Nat.lt_succ_iff_lt_or_eq.mp hl with less | he
        · exact hb ⟨hr, less⟩
        · exact ho (Prod.ext hr he)
      · rintro ⟨old, hb⟩
        refine ⟨?_, old, fun ⟨hr, hl⟩ => hb ⟨hr, Nat.lt_succ_of_lt hl⟩⟩
        rintro ⟨⟩
        exact hb ⟨rfl, Nat.lt_succ_self _⟩
    · omega

/-- A cache of which no node is held is released: its nodes are all in the free list. -/
lemma Valid.release (hv : Valid op held free live) (isLive : c ∈ live) (idle : (op.caches c).nused = 0) :
    ∃ op' free', opFreeCache op c = .ok op' ∧ Valid op' held free' (live.erase c) ∧
      op'.needLock = op.needLock ∧ op'.locked = op.locked := by
  obtain ⟨r, hr⟩ := ne_none_iff_exists'.mp (hv.cache c isLive).2.2
  obtain ⟨slot, back⟩ := linked_pprev hv.caches isLive
  have magic := (hv.cache c isLive).1
  have hn : ∀ node ∈ held, node.1 ≠ r := by
    have none : (held.countP fun node => (op.caches c).pool = some node.1) = 0 := by
      rw [← hv.nused c isLive, idle]
      rfl
    intro node hh he
    have hd := countP_eq_zero.mp none node hh
    rw [hr, he] at hd
    exact hd (decide_eq_true rfl)
  have all : ∀ i < op.incsize.toNat, (r, i) ∈ free ∧ (op.nodes (r, i)).isUsed = false := by
    intro i hl
    have mine : Belongs op live (r, i) := ⟨c, isLive, hr, hl⟩
    have hu : (op.nodes (r, i)).isUsed = false := by
      rw [← Bool.not_eq_true]
      intro isUsed
      exact hn _ ((hv.used _).mpr ⟨mine, isUsed⟩) rfl
    exact ⟨(hv.unused _).mpr ⟨mine, hu⟩, hu⟩
  let cut : Objpool C R := { op with cacheList := clear (unlink op.cacheList c slot) c }
  obtain ⟨list, free', ran, linked, hm, length⟩ :=
    opFreeNodes_spec (show Linked cut.nodeList free from hv.nodes) all
  have hb : ∀ node, Belongs op (live.erase c) node ↔ Belongs op live node ∧ node.1 ≠ r := by
    intro node
    constructor
    · rintro ⟨c', hi', owned⟩
      obtain ⟨other, old⟩ := hv.caches.nodup.mem_erase_iff.mp hi'
      refine ⟨⟨c', old, owned⟩, fun he => other (hv.owner old isLive ?_)⟩
      rw [owned.1, hr, he]
    · rintro ⟨⟨c', hi', owned⟩, hd⟩
      refine ⟨c', hv.caches.nodup.mem_erase_iff.mpr ⟨?_, hi'⟩, owned⟩
      rintro rfl
      exact hd (some.inj (owned.1.symm.trans hr))
  have old : ∀ c' ∈ live.erase c, c' ∈ live := fun c' hi' => mem_of_mem_erase hi'
  let op' : Objpool C R := { op with
    cacheList := clear (unlink op.cacheList c slot) c
    nodeList := list
    nalloced := op.nalloced - op.incsize.toUInt32
    nfreed := op.nfreed - op.incsize.toUInt32 }
  refine ⟨op', free', ?_, ?_, rfl, rfl⟩
  · simp only [opFreeCache, opAssert, idle, back, hr, magic, beq_self_eq_true, if_true, bind,
      Except.bind]
    change (opFreeNodes cut r op.incsize.toNat >>= _) = _
    rw [ran]
    rfl
  refine ⟨?_, linked, ?_, ?_, ?_, ?_, fun c' hi' => hv.nused c' (old c' hi'),
    fun c' hi' => hv.cache c' (old c' hi'),
    fun c' hi' => hv.node c' (old c' hi'), hv.positive, hv.heldNodup⟩
  · refine linked_clear (linked_unlink hv.caches isLive back) ?_
    intro hs
    exact (hv.caches.nodup.mem_erase_iff.mp hs).1 rfl
  · intro node
    change _ ↔ Belongs op _ node ∧ _
    rw [hm, hb, hv.unused]
    constructor
    · rintro ⟨⟨mine, hu⟩, ho⟩
      obtain ⟨c', hi', owned⟩ := mine
      exact ⟨⟨⟨c', hi', owned⟩, fun he => ho ⟨he, owned.2⟩⟩, hu⟩
    · rintro ⟨⟨mine, hd⟩, hu⟩
      exact ⟨⟨mine, hu⟩, fun hi => hd hi.1⟩
  · intro node
    change _ ↔ Belongs op _ node ∧ _
    rw [hb]
    constructor
    · intro hh
      obtain ⟨mine, isUsed⟩ := (hv.used node).mp hh
      exact ⟨⟨mine, hn node hh⟩, isUsed⟩
    · rintro ⟨⟨mine, -⟩, isUsed⟩
      exact (hv.used node).mpr ⟨mine, isUsed⟩
  · change op.nfreed - _ = _
    rw [hv.nfreed, ← length, UInt32.ofNat_add, toUInt32_eq]
    exact UInt32.add_sub_cancel ..
  · change op.nalloced - _ = UInt32.ofNat ((live.erase c).length * op.incsize.toNat)
    rw [hv.nalloced, ← length_erase_add_one isLive, Nat.add_mul, Nat.one_mul,
      UInt32.ofNat_add, toUInt32_eq]
    exact UInt32.add_sub_cancel ..

/-! ## The operations -/

variable {malloc : CacheMalloc C R} {op1 op2 : Objpool C R}

lemma objpoolGet_taken (lock : opLock op = some op1)
    (hs : (if op1.nfreed = 0 then opAllocCache op1 malloc else (0, op1)) = (0, op2))
    (head : op2.nodeList.head = some node) (ho : (op2.nodes node).cache = some c) :
    objpoolGet op malloc = .ok (some node, opUnlock (flip op2 c node true ((op2.caches c).nused + 1)
      (op2.nfreed - 1) (clear (unlink op2.nodeList node .head) node))) := by
  simp only [objpoolGet, lock, hs, head, Objpool.setNode, update_self, ho, flip]
  rw [if_neg (by decide)]
  rfl

/-- What the pool is after a get. -/
structure Got (op' : Objpool C R) (held held' : List (R × Nat)) (result : Option (R × Nat)) : Prop where
  unlocked : op'.locked = false
  valid : ∃ free' live', Valid op' held' free' live'
  held : match result with
    | none => held' = held
    | some node => node ∉ held ∧ held' = node :: held

/-- With a node in stock, the get takes it. -/
lemma Valid.get_stocked (hl : opLock op = some op1)
    (hs : (if op1.nfreed = 0 then opAllocCache op1 malloc else (0, op1)) = (0, op2))
    (locked : op2.locked = op2.needLock) (hv : Valid op2 held free live) (hf : free ≠ []) :
    ∃ node op', objpoolGet op malloc = .ok (some node, op') ∧ Got op' held (node :: held) (some node) := by
  obtain ⟨node, c, rest, hh, ho, hd, ht⟩ := hv.take hf
  refine ⟨node, _, objpoolGet_taken hl hs hh ho, ?_⟩
  rw [opUnlock_eq]
  · exact ⟨rfl, ⟨rest, live, ht.lock _ false⟩, hd, rfl⟩
  · exact locked

/-- A get that can allocate a cache returns a node. -/
lemma Valid.get_some (hv : Valid op held free live) (hu : op.locked = false) {c : C} {r : R}
    (hf : FreshCache op { cache := some c, pool := some r }) :
    ∃ node op', objpoolGet op { cache := some c, pool := some r } = .ok (some node, op') ∧
      Got op' held (node :: held) (some node) := by
  have hl := opLock_eq hu
  have valid1 := hv.lock op.needLock op.needLock
  by_cases hn : op.nfreed = 0
  · have newCache : c ∉ live := fun hi => hf.1 c rfl ((linked_reaches hv.caches).mpr hi)
    have newRegion : ∀ c' ∈ live, (op.caches c').pool ≠ some r := fun c' hi =>
      hf.2 r rfl c' ((linked_reaches hv.caches).mpr hi)
    obtain ⟨op2, ha, valid2, -, -, needLock, locked⟩ := valid1.alloc newCache newRegion
    refine valid2.get_stocked hl ((if_pos hn).trans ha) (locked.trans needLock.symm) ?_
    simp [newNodes, hv.positive.ne']
  · refine valid1.get_stocked hl (if_neg hn) rfl ?_
    rintro rfl
    exact hn hv.nfreed

lemma Valid.get (hv : Valid op held free live) (hu : op.locked = false)
    (fresh : FreshCache op malloc) :
    ∃ result op' held', objpoolGet op malloc = .ok (result, op') ∧ Got op' held held' result := by
  have lock := opLock_eq hu
  by_cases hn : op.nfreed = 0
  · -- an allocation that fails leaves the pool as it was
    have failed : opAllocCache { op with locked := op.needLock } malloc =
          (-1, { op with locked := op.needLock }) →
        ∃ result op' held', objpoolGet op malloc = .ok (result, op') ∧ Got op' held held' result := by
      intro failed
      refine ⟨none, { op with locked := false }, held, ?_, rfl, ⟨free, live, hv.lock _ false⟩, rfl⟩
      simp only [objpoolGet, lock, (if_pos hn).trans failed]
      rw [opUnlock_eq rfl]
      rfl
    obtain ⟨_ | c, _ | r⟩ := malloc
    · exact failed rfl
    · exact failed rfl
    · exact failed rfl
    · obtain ⟨node, op', ran, got⟩ := hv.get_some hu fresh
      exact ⟨some node, op', node :: held, ran, got⟩
  · have hf : free ≠ [] := by
      rintro rfl
      exact hn hv.nfreed
    obtain ⟨node, op', ran, got⟩ :=
      (hv.lock _ op.needLock).get_stocked lock (if_neg hn) rfl hf
    exact ⟨some node, op', node :: held, ran, got⟩

/-- The node is back in the free list; its cache may follow. -/
lemma opPutNode_given (hc : op.nodes node =
      { magic := op.magic, isUsed := true, cache := some c, pool := true })
    (magic : (op.caches c).magic = op.magic) : opPutNode op node =
      if (op.caches c).nused - 1 = 0 ∧ op.nfreed + 1 > 2 * op.incsize.toUInt32 then
        opFreeCache (flip op c node false ((op.caches c).nused - 1) (op.nfreed + 1) (push op.nodeList node)) c
      else .ok (flip op c node false ((op.caches c).nused - 1) (op.nfreed + 1)
        (push op.nodeList node)) := by
  simp only [opPutNode, opAssert, hc, magic, beq_self_eq_true, if_true, bind, Except.bind,
    Objpool.setNode, Objpool.setCache, flip, update_self]
  rfl

lemma Valid.put (hv : Valid op held free live) (hu : op.locked = false) (hh : node ∈ held) :
    ∃ op' free' live', objpoolPut op (some node) = .ok (0, op') ∧ op'.locked = false ∧
      Valid op' (held.erase node) free' live' := by
  obtain ⟨c, hi, hc, hg⟩ := (hv.lock _ op.needLock).give hh
  have magic := (hv.cache c hi).1
  -- the node is back; its cache may follow
  have hf : ∀ {free' live'} {op2 : Objpool C R}, opPutNode { op with locked := op.needLock } node = .ok op2 →
      op2.locked = op2.needLock → Valid op2 (held.erase node) free' live' →
      ∃ op' free' live', objpoolPut op (some node) = .ok (0, op') ∧ op'.locked = false ∧
        Valid op' (held.erase node) free' live' := by
    intro free' live' op2 ran locked valid2
    refine ⟨{ op2 with locked := false }, free', live', ?_, rfl, valid2.lock _ false⟩
    change op.nodes node = _ at hc
    simp only [objpoolPut, opAssert, hc, opLock_eq hu, if_true, bind, Except.bind, ran,
      opUnlock_eq locked]
    rfl
  have ran := opPutNode_given hc magic
  by_cases idle : (op.caches c).nused - 1 = 0 ∧ op.nfreed + 1 > 2 * op.incsize.toUInt32
  · obtain ⟨op2, free', freed, valid2, hn, locked⟩ :=
      hg.release hi (by simpa [flip] using idle.1)
    exact hf (ran.trans ((if_pos idle).trans freed)) (locked.trans hn.symm) valid2
  · exact hf (ran.trans (if_neg idle)) rfl hg

/-! ## Runs -/

lemma Valid.step (hv : Valid op held free live) (hu : op.locked = false)
    {pop : PoolOp C R} (ha : pop.Allowed op held) :
    ∃ op' held', pop.Right op held op' held' ∧ op'.locked = false ∧
      ∃ free' live', Valid op' held' free' live' := by
  cases pop with
  | get malloc =>
    obtain ⟨result, op', held', ran, got⟩ := hv.get hu ha
    exact ⟨op', held', ⟨result, ran, got.held⟩, got.unlocked, got.valid⟩
  | put node =>
    obtain ⟨op', free', live', ran, hu', hv'⟩ := hv.put hu ha
    exact ⟨op', held.erase node, ⟨ran, rfl⟩, hu', free', live', hv'⟩

lemma Valid.along (pops : List (PoolOp C R)) (hv : Valid op held free live)
    (hu : op.locked = false) (ha : AllAllowed pops op held) : Along Integrity pops op held := by
  induction pops generalizing op held free live with
  | nil => exact ⟨free, live, hv.integrity⟩
  | cons pop pops ih =>
    obtain ⟨op', held', right, hu', free', live', hv'⟩ := hv.step hu ha.1
    exact ⟨⟨free, live, hv.integrity⟩, op', held', right, ih hv' hu' (ha.2 op' held' right)⟩

/-! ## The new pool -/

/-- The sizes fit the fields of the pool. -/
def SizesFit (objsize : Nat) (incsize : Int) : Prop :=
  alignNum objsize + alignNum opNodeHeader < 2 ^ 16 ∧ incsize < 2 ^ 16

instance (objsize : Nat) (incsize : Int) : Decidable (SizesFit objsize incsize) :=
  inferInstanceAs (Decidable (_ ∧ _))

omit [DecidableEq C] in
/-- A pool without a cache, before `_op_alloc_cache`. -/
lemma Valid.empty (hp : 0 < op.incsize.toNat) (nodes : op.nodeList.head = none)
    (hc : op.cacheList.head = none) (nfreed : op.nfreed = 0) (hn : op.nalloced = 0) :
    Valid op [] [] [] := by
  refine ⟨linked_empty hc, linked_empty nodes, ?_, ?_, nfreed, ?_, ?_, ?_, ?_, hp, nodup_nil⟩
  · simp [Belongs]
  · simp [Belongs]
  · rw [hn, length_nil, Nat.zero_mul]
    rfl
  · simp
  · simp
  · simp

/-- The pool that `_op_alloc_cache` fills first. -/
def unfilled (memory : Objpool C R) (objsize : Nat) (incsize : Int) (magic : UInt32) : Objpool C R :=
  { memory with
    magic
    objsize := UInt16.ofNat (alignNum objsize)
    needLock := false
    locked := false
    incsize := UInt16.ofNat (if incsize < 1 then (objpoolIncSize : Int) else incsize).toNat
    nodesize := UInt16.ofNat ((UInt16.ofNat (alignNum objsize)).toNat + alignNum opNodeHeader)
    nalloced := 0
    nfreed := 0
    nodeList.head := none
    cacheList.head := none }

section

variable {memory : Objpool C R} {objsize : Nat} {incsize : Int} {locked pool : Bool} {magic : UInt32}

omit [DecidableEq C] [DecidableEq R] in
lemma unfilled_incsize : 0 < (unfilled memory objsize incsize magic).incsize.toNat ↔
    incsize < 1 ∨ incsize % 2 ^ 16 ≠ 0 := by
  rw [unfilled, toNat_ofNat']
  split
  · simp [objpoolIncSize, *]
  · omega

variable (hm : objpoolAlloc memory objsize incsize locked magic pool malloc = some op)
include hm

lemma objpoolAlloc_some : ∃ c r op1, opAllocCache (unfilled memory objsize incsize magic)
    { cache := some c, pool := some r } = (0, op1) ∧ op = { op1 with needLock := locked } := by
  by_cases hs : objsize < 1
  · simp [objpoolAlloc, hs] at hm
  cases pool with
  | false => simp [objpoolAlloc] at hm
  | true =>
    simp only [objpoolAlloc, if_neg hs, Bool.not_true, Bool.false_eq_true, if_false] at hm
    obtain ⟨_ | c, _ | r⟩ := malloc
    · cases hm
    · cases hm
    · cases hm
    · exact ⟨c, r, _, rfl, (some.inj hm).symm⟩

lemma objpoolAlloc_valid (hp : incsize < 1 ∨ incsize % 2 ^ 16 ≠ 0) :
    op.locked = false ∧ op.nodesize = (unfilled memory objsize incsize magic).nodesize ∧
      ∃ c r, Valid op [] (newNodes r op.incsize.toNat) [c] := by
  obtain ⟨c, r, op1, ran, rfl⟩ := objpoolAlloc_some hm
  have hv : Valid (unfilled memory objsize incsize magic) [] [] [] :=
    .empty (unfilled_incsize.mpr hp) rfl rfl rfl rfl
  obtain ⟨op', hr', hv', nodesize, hs, -, hu⟩ :=
    hv.alloc (c := c) (r := r) not_mem_nil (by simp)
  cases ran.symm.trans hr'
  rw [append_nil, ← hs] at hv'
  exact ⟨hu, nodesize, c, r, hv'.lock locked op1.locked⟩

end

lemma SizesFit.positive {objsize : Nat} {incsize : Int} (fit : SizesFit objsize incsize) :
    incsize < 1 ∨ incsize % 2 ^ 16 ≠ 0 := by
  have hu := fit.2
  omega

/-- Every pool and every run that gives back only what it holds: the free list has exactly the
unused nodes, the counters agree with it, and nothing held is handed out again. -/
theorem pool_integrity (memory : Objpool C R) (objsize : Nat) (incsize : Int) (locked pool : Bool)
    (magic : UInt32) (malloc : CacheMalloc C R) (fit : SizesFit objsize incsize) (op : Objpool C R)
    (made : objpoolAlloc memory objsize incsize locked magic pool malloc = some op)
    (pops : List (PoolOp C R)) (allowed : AllAllowed pops op []) : Along Integrity pops op [] := by
  obtain ⟨hu, -, c, r, hv⟩ := objpoolAlloc_valid made fit.positive
  exact hv.along pops hu allowed

/-- Memory before the pool is made. -/
def blank : Objpool Nat Nat where
  magic := 0
  needLock := false
  locked := false
  objsize := 0
  incsize := 0
  nodesize := 0
  nalloced := 0
  nfreed := 0
  nodeList := { head := none, next := fun _ => none, pprev := fun _ => none }
  cacheList := { head := none, next := fun _ => none, pprev := fun _ => none }
  nodes _ := { magic := 0, isUsed := false, cache := none, pool := false }
  caches _ := { magic := 0, nused := 0, pool := none, capacity := 0 }

/-- The only node of a pool is taken, asked for again in vain and given back. -/
theorem pool_integrity_one_node : ∃ op : Objpool Nat Nat,
    objpoolAlloc blank 8 1 true 7 true { cache := some 0, pool := some 0 } = some op ∧
      Along Integrity [.get { cache := none, pool := none }, .get { cache := none, pool := none },
        .put (0, 0)] op [] := by
  have nothing : ∀ op : Objpool Nat Nat, FreshCache op { cache := none, pool := none } := by
    intro op
    constructor
    · rintro c ⟨⟩
    · rintro r ⟨⟩
  refine ⟨_, rfl, pool_integrity blank 8 1 true true 7 { cache := some 0, pool := some 0 } (by decide)
    _ rfl _ ⟨nothing _, ?_⟩⟩
  rintro op held ⟨result, ran, shape⟩
  cases ran
  obtain ⟨-, rfl⟩ := shape
  refine ⟨nothing _, ?_⟩
  rintro op held ⟨result, ran, shape⟩
  cases ran
  cases shape
  exact ⟨mem_cons_self, fun _ _ _ => trivial⟩

/-! ## Pools that outgrow their counters -/

/-- The counters are the numbers they stand for. -/
structure Exact (op : Objpool C R) (free : List (R × Nat)) (live : List C) : Prop where
  nfreed : op.nfreed.toNat = free.length
  nalloced : op.nalloced.toNat = (live.map fun c => (op.caches c).capacity.toNat).sum

omit [DecidableEq C] in
lemma Integrity.held_le (integrity : Integrity op held free live) (hn : held.Nodup) :
    held.length ≤ (live.map fun c => (op.caches c).capacity.toNat).sum := by
  let region (c : C) : List (R × Nat) :=
    (List.range (op.caches c).capacity.toNat).filterMap fun i =>
      (op.caches c).pool.map fun r => (r, i)
  have hi : held ⊆ live.flatMap region := by
    intro node hh
    obtain ⟨⟨c, isLive, region, hl⟩, -⟩ := (integrity.used node).mp hh
    refine mem_flatMap.mpr ⟨c, isLive, mem_filterMap.mpr ⟨node.2, ?_, ?_⟩⟩
    · exact mem_range.mpr hl
    · rw [region]
      rfl
  calc held.length ≤ (live.flatMap region).length := (hn.subperm hi).length_le
    _ = (live.map fun c => (region c).length).sum := length_flatMap
    _ ≤ (live.map fun c => (op.caches c).capacity.toNat).sum := by
      refine sum_le_sum fun c _ => ?_
      exact (length_filterMap_le ..).trans_eq length_range

omit [DecidableEq C] in
/-- There is always an address that is not in use. -/
lemma exists_fresh [Infinite C] [Infinite R] (hl : Linked op.cacheList live) :
    ∃ c r, FreshCache op { cache := some c, pool := some r } := by
  classical
  obtain ⟨c, hn⟩ := Infinite.exists_notMem_finset live.toFinset
  obtain ⟨r, newRegion⟩ :=
    Infinite.exists_notMem_finset (live.filterMap fun c => (op.caches c).pool).toFinset
  refine ⟨c, r, ?_, ?_⟩
  · rintro c' ⟨⟩ hr
    exact hn (mem_toFinset.mpr ((linked_reaches hl).mp hr))
  · rintro r' ⟨⟩ c' hr region
    have hi := (linked_reaches hl).mp hr
    exact newRegion (mem_toFinset.mpr (mem_filterMap.mpr ⟨c', hi, region⟩))

/-- Objects are taken until more are held than the counters can say. -/
lemma Valid.outgrows [Infinite C] [Infinite R] (n : Nat) (hv : Valid op held free live)
    (hu : op.locked = false) (hm : 2 ^ 32 ≤ held.length + n) : ∃ pops, AllAllowed pops op held ∧
      ¬Along (fun op held free live => Integrity op held free live ∧ Exact op free live) pops op held := by
  induction n generalizing op held free live with
  | zero =>
    refine ⟨[], trivial, ?_⟩
    rintro ⟨free', live', hi, exact⟩
    have most := hi.held_le hv.heldNodup
    have counter := op.nalloced.toNat_lt
    have hc := exact.nalloced
    omega
  | succ n ih =>
    obtain ⟨c, r, hf⟩ := exists_fresh hv.caches
    obtain ⟨node, op', ran, got⟩ := hv.get_some hu hf
    obtain ⟨free', live', hv'⟩ := got.valid
    obtain ⟨pops, ha, hw⟩ := ih hv' got.unlocked (by rw [length_cons]; omega)
    have ho : ∀ op'' held'', (PoolOp.get { cache := some c, pool := some r }).Right op held op'' held'' →
        op'' = op' ∧ held'' = node :: held := by
      rintro op'' held'' ⟨result, hr', hs⟩
      cases ran.symm.trans hr'
      exact ⟨rfl, hs.2⟩
    refine ⟨.get { cache := some c, pool := some r } :: pops, ⟨hf, ?_⟩, ?_⟩
    · intro op'' held'' right
      obtain ⟨rfl, rfl⟩ := ho op'' held'' right
      exact ha
    · rintro ⟨-, op'', held'', right, along⟩
      obtain ⟨rfl, rfl⟩ := ho op'' held'' right
      exact hw along

/-- The counters of a pool from which `2 ^ 32` objects are held have wrapped around. -/
theorem counter_wraps : ¬∀ (memory : Objpool Nat Nat) (objsize : Nat) (incsize : Int)
    (locked pool : Bool) (magic : UInt32) (malloc : CacheMalloc Nat Nat) (op : Objpool Nat Nat)
    (pops : List (PoolOp Nat Nat)), SizesFit objsize incsize →
    objpoolAlloc memory objsize incsize locked magic pool malloc = some op → AllAllowed pops op [] →
    Along (fun op held free live => Integrity op held free live ∧ Exact op free live) pops op [] := by
  intro always
  have fit : SizesFit 8 1 := by decide
  obtain ⟨op, made⟩ : ∃ op,
      objpoolAlloc blank 8 1 true 7 true { cache := some 0, pool := some 0 } = some op := ⟨_, rfl⟩
  obtain ⟨unlocked, -, c, r, valid⟩ := objpoolAlloc_valid made fit.positive
  obtain ⟨pops, allowed, wrong⟩ := valid.outgrows (2 ^ 32) unlocked (Nat.le_add_left ..)
  exact wrong (always blank 8 1 true true 7 _ op pops fit made allowed)

/-! ## Sizes -/

/-- The byte of its region where the object of a node begins. -/
def place (nodesize : Nat) (node : R × Nat) : Nat := node.2 * nodesize + alignNum opNodeHeader

/-- The objects are `objsize` bytes each, apart from one another and inside the regions of the
caches. The `nodesize` is the one the pool was made with: nothing else writes it. -/
structure Laid (nodesize objsize : Nat) (op : Objpool C R) (held : List (R × Nat)) : Prop where
  inside : ∀ node ∈ held, ∃ c, Reaches op.cacheList c ∧ (op.caches c).pool = some node.1 ∧
    place nodesize node + objsize ≤ (op.caches c).capacity.toNat * nodesize
  apart : ∀ a ∈ held, ∀ b ∈ held, a ≠ b → a.1 = b.1 →
    place nodesize a + objsize ≤ place nodesize b ∨ place nodesize b + objsize ≤ place nodesize a

variable {nodesize objsize : Nat}

omit [DecidableEq C] in
lemma Integrity.laid (hi : Integrity op held free live)
    (hf : alignNum opNodeHeader + objsize ≤ nodesize) : Laid nodesize objsize op held := by
  have ends : ∀ {i j : Nat}, i < j → i * nodesize + alignNum opNodeHeader + objsize ≤ j * nodesize := by
    intro i j hb
    have next := Nat.mul_le_mul_right nodesize (Nat.succ_le_of_lt hb)
    rw [Nat.succ_mul] at next
    omega
  constructor
  · intro node hh
    obtain ⟨⟨c, isLive, hr, hl⟩, -⟩ := (hi.used node).mp hh
    exact ⟨c, (linked_reaches hi.caches).mpr isLive, hr, ends hl⟩
  · intro a _ b _ ho he
    rcases Nat.lt_or_gt_of_ne fun index => ho (Prod.ext he index) with hb | ha
    · exact .inl ((ends hb).trans (Nat.le_add_right ..))
    · exact .inr ((ends ha).trans (Nat.le_add_right ..))

lemma Along.laid {pops : List (PoolOp C R)} (hf : alignNum opNodeHeader + objsize ≤ nodesize)
    (ha : Along Integrity pops op held) :
    Along (fun op held _ _ => Laid nodesize objsize op held) pops op held := by
  induction pops generalizing op held with
  | nil =>
    obtain ⟨free, live, hi⟩ := ha
    exact ⟨free, live, hi.laid hf⟩
  | cons pop pops ih =>
    obtain ⟨⟨free, live, hi⟩, op', held', right, rest⟩ := ha
    exact ⟨⟨free, live, hi.laid hf⟩, op', held', right, ih rest⟩

/-- The first object of a pool is the last of its region. -/
lemma Valid.laid_first (hv : Valid op [] (newNodes r op.incsize.toNat) live)
    (hu : op.locked = false)
    (ha : Along (fun op held _ _ => Laid nodesize objsize op held) [.get malloc] op []) :
    alignNum opNodeHeader + objsize ≤ nodesize := by
  obtain ⟨m, size⟩ := Nat.exists_eq_succ_of_ne_zero hv.positive.ne'
  have stock : op.nfreed ≠ 0 := by
    intro hn
    have hl := congrArg UInt32.toNat (hv.nfreed.symm.trans hn)
    have hs := op.incsize.toNat_lt
    simp [newNodes] at hl
    omega
  have first := linked_head hv.nodes
  rw [size, newNodes_succ] at first
  obtain ⟨_, c, rest, hh, ho, -, ht⟩ := (hv.lock op.needLock op.needLock).take
    (by simp [size, newNodes_succ])
  cases first.symm.trans hh
  obtain ⟨-, op', held', ⟨result, ran, shape⟩, -, -, laid⟩ := ha
  cases (objpoolGet_taken (opLock_eq hu) (if_neg stock) hh ho).symm.trans ran
  obtain ⟨-, rfl⟩ := shape
  rw [opUnlock_eq rfl] at laid
  obtain ⟨c', hr, -, hf⟩ := laid.inside _ mem_cons_self
  rw [(ht.lock op.needLock false).capacity ((linked_reaches ht.caches).mp hr)] at hf
  change m * nodesize + _ + objsize ≤ op.incsize.toNat * nodesize at hf
  rw [size, Nat.succ_mul] at hf
  omega

lemma opAllocCache_zero (zero : op.incsize = 0) : opAllocCache op { cache := some c, pool := some r } =
      (0, { op with
        caches := update op.caches c
          { magic := op.magic, nused := 0, pool := some r, capacity := 0 }
        cacheList := push op.cacheList c }) := by
  obtain ⟨magic, needLock, locked, objsize, incsize⟩ := op
  cases zero
  simp [opAllocCache, opInitNodes, Objpool.setCache]

/-- `objpool_get` does not look whether there is a node. -/
lemma objpoolGet_zero (hu : op.locked = false) (zero : op.incsize = 0)
    (hn : op.nfreed = 0) (hh : op.nodeList.head = none) :
    objpoolGet op { cache := some c, pool := some r } = .error .nullDeref := by
  have hf : opAllocCache { op with locked := op.needLock } ⟨some c, some r⟩ = _ := opAllocCache_zero zero
  simp only [objpoolGet, opLock_eq hu, if_pos hn, hf, hh]
  rfl

end Fzsvn.Guarantees.Datastruct.ObjpoolIntegrity
