import Fzsvn.Library.FlatMemory
import Fzsvn.Library.MachineInt
import Fzsvn.Source.Stdext.GccCommon

/-!
# Memory pool

Embedding of `basic/datastruct/mempool.h` with 64-bit pointers. An address is a number. The
headers of the pool and of its nodes are the fields of `Mempool`, so the memory is that of
the blocks; `nodes` is the list of the nodes, the newest first. The answer of `malloc` is an
argument. Sizes do not wrap around, except for what the source converts to `u_int32_t`, and
for the pointer difference, which it converts to `size_t`.
-/
namespace Fzsvn.Source.Datastruct
open Library.FlatMemory Library.MachineInt Stdext

structure Mempool where
  addr : Nat
  max : UInt32
  last : Nat
  tail : Nat
  nodes : List Nat

/-- `sizeof(mempool_t)`. -/
def mempoolHeader : Nat := 32

/-- `sizeof(mempool_node_t)`. -/
def mempoolNodeHeader : Nat := 8

/-- `max` in `_mp_alloc_node`. -/
def mpNodeMax (pool : Mempool) (n : Nat) : Nat := if n > pool.max.toNat then n else pool.max.toNat

/-- `newsize` in `_mp_alloc_node`. -/
def mpNodeSize (pool : Mempool) (n : Nat) : Nat := alignNum (mpNodeMax pool n + mempoolNodeHeader)

def mpAllocNode (pool : Mempool) (n : Nat) (answer : Option Nat) : Option Nat × Mempool :=
  match answer with
  | none => (none, pool)
  | some node =>
    let ptr := alignPtr (node + mempoolNodeHeader)
    (some ptr, { pool with
      nodes := node :: pool.nodes
      last := ptr + n
      tail := node + mpNodeSize pool n
      max := UInt32.ofNat (mpNodeMax pool n) })

/-- The test of `_mp_malloc` whether the block fits behind the last one. -/
def mpFits (pool : Mempool) (size : Nat) : Bool :=
  size < pool.max.toNat && toSize ((pool.tail : Int) - alignPtr pool.last) > size

def mpMalloc (pool : Mempool) (size : Nat) (zero : Bool) (answer : Option Nat) (mem : Memory) :
    Option Nat × Mempool × Memory :=
  if size < 1 then (none, pool, mem)
  else if mpFits pool size then
    let ptr := alignPtr pool.last
    (some ptr, { pool with last := ptr + size }, if zero then memset mem ptr 0 size else mem)
  else
    let (ptr, pool) := mpAllocNode pool size answer
    (ptr, pool, mem)

/-- `newsize` in `mempool_create`. -/
def mempoolSize (size : Nat) : Nat := alignNum (size + mempoolHeader)

def mempoolCreate (size : Nat) (answer : Option Nat) : Option Mempool :=
  if size < 1 then none
  else
    match answer with
    | none => none
    | some pool => some {
        addr := pool
        max := UInt32.ofNat size
        last := pool + mempoolHeader
        tail := pool + mempoolSize size
        nodes := [] }

def mempoolAlloc (pool : Mempool) (size : Nat) (answer : Option Nat) (mem : Memory) :
    Option Nat × Mempool × Memory :=
  mpMalloc pool size false answer mem

def mempoolCalloc (pool : Mempool) (size : Nat) (answer : Option Nat) (mem : Memory) :
    Option Nat × Mempool × Memory :=
  mpMalloc pool size true answer mem

def mempoolRealloc (pool : Mempool) (ptr oldsize newsize : Nat) (answer : Option Nat)
    (mem : Memory) : Option Nat × Mempool × Memory :=
  if oldsize < 1 ∨ newsize < 1 then (none, pool, mem)
  else
    let copysize := if oldsize < newsize then oldsize else newsize
    match mpMalloc pool newsize false answer mem with
    | (none, pool, mem) => (none, pool, mem)
    | (some newptr, pool, mem) =>
      let mem := memcpy mem newptr ptr copysize
      let mem :=
        if newsize > copysize then memset mem (newptr + copysize) 0 (newsize - copysize) else mem
      (some newptr, pool, mem)

end Fzsvn.Source.Datastruct
