import Fzsvn.Library.MachineInt

/-!
# Shared memory pool

Embedding of `system/ipc/shmpool.c`. A node is known by its offset behind the pool header,
and a pointer to a node is `none` for `NULL`. `nodes` is the memory behind the header. Here a
call runs on its own, so its `semop`s find the semaphore free and succeed;
`ShmpoolSteps` has the calls as sequences of single accesses.
-/
namespace Fzsvn.Source.Ipc
open Library.MachineInt

structure ShmNode where
  next : Int
  flags : UInt32
  size : Int
  len : Int

structure Shmpool where
  objsize : Int
  maxobjs : Int
  freed : Int
  front : Int
  rear : Int
  nodes : Int → ShmNode

inductive ShmFault where
  | nullPointer

def shmpoolUsed : UInt32 := 0x1

def align4 (n : Int) : Int := ((n - 1).tdiv 4 + 1) * 4

/-- `sizeof(shmpool_node_t)` is 16. -/
def nodesize (pool : Shmpool) : Int := pool.objsize + 16

/-- The offset of the last node, a `size_t`. -/
def lastPos (pool : Shmpool) : Nat := toSize ((pool.maxobjs - 1) * nodesize pool)

def shmpoolPtr (pool : Shmpool) (pos : Int) : Option Int :=
  if pos < 0 ∨ pos > lastPos pool then none
  else if pos % nodesize pool ≠ 0 then none
  else some pos

def shmpoolIdx (pool : Shmpool) (node : Int) : Int :=
  if node < 0 ∨ node > lastPos pool then -1
  else if node % nodesize pool ≠ 0 then -1
  else node

def initNode (pool : Shmpool) (i : Nat) : ShmNode :=
  { next := if i < pool.maxobjs - 1 then toInt ((i + 1) * nodesize pool) else -1
    flags := 0
    size := pool.objsize
    len := 0 }

def shmpoolInit (pool : Shmpool) : Shmpool :=
  { pool with
    nodes := (List.range pool.maxobjs.toNat).foldl
      (fun nodes (i : Nat) => Function.update nodes (toInt (i * nodesize pool)) (initNode pool i)) pool.nodes
    front := 0
    rear := toInt ((pool.maxobjs - 1) * nodesize pool)
    freed := pool.maxobjs }

/-- `memory` is what the segment holds, or `none` if one of the system calls fails. -/
def shmpoolAlloc (objsize maxobjs : Int) (memory : Option (Int → ShmNode)) : Option Shmpool :=
  if objsize < 1 ∨ maxobjs < 0 then none
  else memory.map fun nodes =>
    shmpoolInit { objsize := align4 objsize, maxobjs, freed := 0, front := 0, rear := 0, nodes }

def shmpoolGet (pool : Shmpool) : Except ShmFault (Option Int × Shmpool) :=
  if pool.freed = 0 then .ok (none, pool)
  else
    match shmpoolPtr pool pool.front with
    | none => .error .nullPointer
    | some node =>
      let front := (pool.nodes node).next
      .ok (some node, { pool with
        front
        rear := if front = -1 then -1 else pool.rear
        nodes := Function.update pool.nodes node
          { pool.nodes node with next := -1, flags := shmpoolUsed }
        freed := toInt (pool.freed - 1) })

def shmpoolPut (pool : Shmpool) (node : Int) : Except ShmFault (Int × Shmpool) :=
  if (pool.nodes node).flags &&& shmpoolUsed = 0 then .ok (-1, pool)
  else
    let nodes := Function.update pool.nodes node { pool.nodes node with next := -1, flags := 0 }
    let idx := shmpoolIdx pool node
    if pool.freed < 1 then
      .ok (0, { pool with nodes, front := idx, rear := idx, freed := toInt (pool.freed + 1) })
    else
      match shmpoolPtr pool pool.rear with
      | none => .error .nullPointer
      | some rear =>
        .ok (0, { pool with
          nodes := Function.update nodes rear { nodes rear with next := idx }
          rear := idx
          freed := toInt (pool.freed + 1) })

end Fzsvn.Source.Ipc
