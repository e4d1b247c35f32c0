import Fzsvn.Library.HeadedList
import Fzsvn.Source.Stdext.GccCommon

/-!
# Object pool

Embedding of `basic/datastruct/objpool.c`. `C` are the addresses of `_op_cache_t`, `R` those
of the regions behind `cache->pool`; the node at index `i` of a region is `(r, i)`, which
stands for the address `pool + i * nodesize`, and for the object handed out, which lies
behind the node's header. The two lists of the pool are `HeadedList`s: the source writes
out `push` and `unlink` at each place. What `malloc` returns is an argument.
-/
namespace Fzsvn.Source.Datastruct
open Library.HeadedList Stdext

def objpoolIncSize : Nat := 1000

/-- `sizeof(_op_node_t)` -/
def opNodeHeader : Nat := 40

structure OpNode (C : Type) where
  magic : UInt32
  isUsed : Bool
  cache : Option C
  /-- `pool` is set; there is one pool. -/
  pool : Bool

structure OpCache (R : Type) where
  magic : UInt32
  nused : UInt32
  pool : Option R
  capacity : UInt32

structure Objpool (C R : Type) where
  magic : UInt32
  needLock : Bool
  locked : Bool
  objsize : UInt16
  incsize : UInt16
  nodesize : UInt16
  nalloced : UInt32
  nfreed : UInt32
  nodeList : Pointers (R × Nat)
  cacheList : Pointers C
  nodes : R × Nat → OpNode C
  caches : C → OpCache R

inductive OpFault where
  | assert (text : String)
  | nullDeref

/-- What the two `malloc`s of `_op_alloc_cache` return. -/
structure CacheMalloc (C R : Type) where
  cache : Option C
  pool : Option R

section

variable {C R : Type} [DecidableEq C] [DecidableEq R]

def opAssert (cond : Bool) (text : String) : Except OpFault Unit :=
  if cond then .ok () else .error (.assert text)

def Objpool.setNode (op : Objpool C R) (node : R × Nat) (f : OpNode C → OpNode C) : Objpool C R :=
  { op with nodes := Function.update op.nodes node (f (op.nodes node)) }

def Objpool.setCache (op : Objpool C R) (cache : C) (f : OpCache R → OpCache R) : Objpool C R :=
  { op with caches := Function.update op.caches cache (f (op.caches cache)) }

/-- The loop of `_op_alloc_cache` up to index `n`. -/
def opInitNodes (op : Objpool C R) (cache : C) (pool : R) : Nat → Objpool C R
  | 0 => op
  | i + 1 =>
    let op := opInitNodes op cache pool i
    let op := op.setNode (pool, i) fun _ =>
      { magic := op.magic, isUsed := false, cache := some cache, pool := true }
    { op with nodeList := push op.nodeList (pool, i) }

/-- A cache whose region cannot be allocated is not given back. -/
def opAllocCache (op : Objpool C R) (malloc : CacheMalloc C R) : Int × Objpool C R :=
  match malloc.cache with
  | none => (-1, op)
  | some cache =>
    match malloc.pool with
    | none => (-1, op)
    | some pool =>
      let op := opInitNodes op cache pool op.incsize.toNat
      let op := op.setCache cache fun _ =>
        { magic := op.magic, nused := 0, pool := some pool, capacity := op.incsize.toUInt32 }
      let op := { op with
        nalloced := op.nalloced + op.incsize.toUInt32
        nfreed := op.nfreed + op.incsize.toUInt32 }
      (0, { op with cacheList := push op.cacheList cache })

/-- The body of the loop of `_op_free_cache`. -/
def opFreeNode (op : Objpool C R) (node : R × Nat) : Except OpFault (Objpool C R) := do
  opAssert (!(op.nodes node).isUsed) "node->is_used == 0"
  match op.nodeList.pprev node with
  | none => throw (.assert "node->pprev")
  | some slot => return { op with nodeList := unlink op.nodeList node slot }

def opFreeNodes (op : Objpool C R) (pool : R) : Nat → Except OpFault (Objpool C R)
  | 0 => .ok op
  | i + 1 => do
    let op ← opFreeNodes op pool i
    opFreeNode op (pool, i)

def opFreeCache (op : Objpool C R) (cache : C) : Except OpFault (Objpool C R) := do
  opAssert ((op.caches cache).nused == 0) "cache->nused == 0"
  match op.cacheList.pprev cache with
  | none => throw (.assert "cache->pprev")
  | some slot =>
    match (op.caches cache).pool with
    | none => throw (.assert "cache->pool")
    | some pool =>
      opAssert (op.magic == (op.caches cache).magic) "op->magic == cache->magic"
      let op := { op with cacheList := clear (unlink op.cacheList cache slot) cache }
      let op ← opFreeNodes op pool op.incsize.toNat
      return { op with
        nalloced := op.nalloced - op.incsize.toUInt32
        nfreed := op.nfreed - op.incsize.toUInt32 }

def opPutNode (op : Objpool C R) (node : R × Nat) : Except OpFault (Objpool C R) := do
  match (op.nodes node).cache with
  | none => throw (.assert "node->cache")
  | some cache =>
    opAssert (op.magic == (op.nodes node).magic) "op->magic == node->magic"
    opAssert (op.magic == (op.caches cache).magic) "op->magic == cache->magic"
    opAssert (op.nodes node).isUsed "node->is_used == 1"
    let op := { op with nodeList := push op.nodeList node }
    let op := op.setNode node fun n => { n with isUsed := false }
    let op := { op with nfreed := op.nfreed + 1 }
    let op := op.setCache cache fun c => { c with nused := c.nused - 1 }
    if (op.caches cache).nused = 0 ∧ op.nfreed > 2 * op.incsize.toUInt32 then
      opFreeCache op cache
    else return op

/-- `_OP_LOCK_RET` on the error-checking mutex; `none` when the caller returns. -/
def opLock (op : Objpool C R) : Option (Objpool C R) :=
  if op.needLock then
    if op.locked then none else some { op with locked := true }
  else some op

def opUnlock (op : Objpool C R) : Objpool C R :=
  if op.needLock then { op with locked := false } else op

/-- `memory` is what the allocated memory held before. -/
def objpoolAlloc (memory : Objpool C R) (objsize : Nat) (incsize : Int) (locked : Bool)
    (magic : UInt32) (pool : Bool) (malloc : CacheMalloc C R) : Option (Objpool C R) :=
  if objsize < 1 then none
  else
    let incsize := if incsize < 1 then (objpoolIncSize : Int) else incsize
    if !pool then none
    else
      let objsize := UInt16.ofNat (alignNum objsize)
      let op := { memory with
        magic, objsize
        needLock := false
        locked := false
        incsize := UInt16.ofNat incsize.toNat
        nodesize := UInt16.ofNat (objsize.toNat + alignNum opNodeHeader)
        nalloced := 0
        nfreed := 0
        nodeList.head := none
        cacheList.head := none }
      match opAllocCache op malloc with
      | (0, op) => some { op with needLock := locked }
      | _ => none

def objpoolGet (op : Objpool C R) (malloc : CacheMalloc C R) :
    Except OpFault (Option (R × Nat) × Objpool C R) :=
  match opLock op with
  | none => return (none, op)
  | some op =>
    let (ret, op) := if op.nfreed = 0 then opAllocCache op malloc else (0, op)
    if ret ≠ 0 then return (none, opUnlock op)
    else match op.nodeList.head with
      | none => throw .nullDeref
      | some node =>
        let op := { op with nodeList := clear (unlink op.nodeList node .head) node }
        let op := op.setNode node fun n => { n with isUsed := true }
        match (op.nodes node).cache with
        | none => throw (.assert "node->cache")
        | some cache =>
          let op := op.setCache cache fun c => { c with nused := c.nused + 1 }
          let op := { op with nfreed := op.nfreed - 1 }
          return (some node, opUnlock op)

def objpoolPut (op : Objpool C R) (node : Option (R × Nat)) : Except OpFault (Int × Objpool C R) := do
  match node with
  | none => return (-1, op)
  | some node =>
    opAssert (op.nodes node).pool "node->pool"
    match opLock op with
    | none => return (-1, op)
    | some op =>
      let op ← opPutNode op node
      return (0, opUnlock op)

end

end Fzsvn.Source.Datastruct
