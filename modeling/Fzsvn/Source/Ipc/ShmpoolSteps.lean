import Fzsvn.Source.Ipc.Shmpool

/-!
# Shared memory pool, access by access

`shmpool_get` and `shmpool_put` as sequences of single reads and writes of the shared
memory and of `semop` calls, for processes that run them at the same time. A position says
which access comes next and holds the local variables. The first `semop` waits until the
semaphore is 0 and then adds 1 to it, in one step; the second subtracts 1.
-/
namespace Fzsvn.Source.Ipc
open Library.MachineInt

inductive Pc where
  | idle
  -- shmpool_get
  | getCheck
  | getLock
  | getFront
  | getNext (node : Option Int)
  | getSetFront (node next : Int)
  | getTest (node : Int)
  | getClearRear (node : Int)
  | getClearNext (node : Int)
  | getSetFlags (node : Int)
  | getFreed (node : Int)
  | getSetFreed (node freed : Int)
  | getUnlock (node : Int)
  -- shmpool_put
  | putCheck (node : Int)
  | putLock (node : Int)
  | putClearNext (node : Int)
  | putClearFlags (node : Int)
  | putTest (node : Int)
  | putSetFront (node : Int)
  | putSetRear (node : Int)
  | putLast (node : Int)
  | putLink (node : Int) (rear : Option Int)
  | putAppend (node : Int)
  | putFreed (node : Int)
  | putSetFreed (node freed : Int)
  | putUnlock (node : Int)

/-- A process and the nodes it holds: those that `shmpool_get` returned to it and that it
has not put back. -/
structure Proc where
  pc : Pc
  held : List Int

structure Shared where
  pool : Shmpool
  sem : Nat

def Shmpool.modifyNode (pool : Shmpool) (node : Int) (change : ShmNode → ShmNode) : Shmpool :=
  { pool with nodes := Function.update pool.nodes node (change (pool.nodes node)) }

/-- The next access of a process; `none` if it is in no call or waits. -/
def Proc.step (proc : Proc) (shared : Shared) : Option (Except ShmFault (Proc × Shared)) :=
  let pool := shared.pool
  let goto (pc : Pc) (pool : Shmpool) := some (.ok ({ proc with pc }, { shared with pool }))
  match proc.pc with
  | .idle => none
  | .getCheck => if pool.freed = 0 then goto .idle pool else goto .getLock pool
  | .getLock =>
    if shared.sem = 0 then some (.ok ({ proc with pc := .getFront }, { shared with sem := 1 })) else none
  | .getFront => goto (.getNext (shmpoolPtr pool pool.front)) pool
  | .getNext none => some (.error .nullPointer)
  | .getNext (some node) => goto (.getSetFront node (pool.nodes node).next) pool
  | .getSetFront node next => goto (.getTest node) { pool with front := next }
  | .getTest node =>
    if pool.front = -1 then goto (.getClearRear node) pool else goto (.getClearNext node) pool
  | .getClearRear node => goto (.getClearNext node) { pool with rear := -1 }
  | .getClearNext node => goto (.getSetFlags node) (pool.modifyNode node ({ · with next := -1 }))
  | .getSetFlags node => goto (.getFreed node) (pool.modifyNode node ({ · with flags := shmpoolUsed }))
  | .getFreed node => goto (.getSetFreed node pool.freed) pool
  | .getSetFreed node freed => goto (.getUnlock node) { pool with freed := toInt (freed - 1) }
  | .getUnlock node =>
    some (.ok ({ pc := .idle, held := node :: proc.held }, { shared with sem := shared.sem - 1 }))
  | .putCheck node =>
    if (pool.nodes node).flags &&& shmpoolUsed = 0 then goto .idle pool else goto (.putLock node) pool
  | .putLock node =>
    if shared.sem = 0 then some (.ok ({ proc with pc := .putClearNext node }, { shared with sem := 1 }))
    else none
  | .putClearNext node => goto (.putClearFlags node) (pool.modifyNode node ({ · with next := -1 }))
  | .putClearFlags node => goto (.putTest node) (pool.modifyNode node ({ · with flags := 0 }))
  | .putTest node => if pool.freed < 1 then goto (.putSetFront node) pool else goto (.putLast node) pool
  | .putSetFront node => goto (.putSetRear node) { pool with front := shmpoolIdx pool node }
  | .putSetRear node => goto (.putFreed node) { pool with rear := shmpoolIdx pool node }
  | .putLast node => goto (.putLink node (shmpoolPtr pool pool.rear)) pool
  | .putLink _ none => some (.error .nullPointer)
  | .putLink node (some rear) =>
    goto (.putAppend node) (pool.modifyNode rear ({ · with next := shmpoolIdx pool node }))
  | .putAppend node => goto (.putFreed node) { pool with rear := shmpoolIdx pool node }
  | .putFreed node => goto (.putSetFreed node pool.freed) pool
  | .putSetFreed node freed => goto (.putUnlock node) { pool with freed := toInt (freed + 1) }
  | .putUnlock node =>
    some (.ok ({ pc := .idle, held := proc.held.erase node }, { shared with sem := shared.sem - 1 }))

/-- The processes `P` and the memory they share. -/
structure State (P : Type) where
  shared : Shared
  procs : P → Proc

/-- A process calls one of the functions, or makes its next access. -/
inductive Event (P : Type) where
  | get (p : P)
  | put (p : P) (node : Int)
  | run (p : P)

/-- `none` if the event is not possible; a process puts only nodes that it holds. -/
def State.step {P : Type} [DecidableEq P] (s : State P) : Event P → Option (Except ShmFault (State P))
  | .get p =>
    match (s.procs p).pc with
    | .idle => some (.ok { s with procs := Function.update s.procs p { s.procs p with pc := .getCheck } })
    | _ => none
  | .put p node =>
    match (s.procs p).pc with
    | .idle =>
      if node ∈ (s.procs p).held then
        some (.ok { s with procs := Function.update s.procs p { s.procs p with pc := .putCheck node } })
      else none
    | _ => none
  | .run p => ((s.procs p).step s.shared).map fun outcome => outcome.map fun (proc, shared) =>
      { shared, procs := Function.update s.procs p proc }

/-- A pool that no process has called yet. -/
def start (P : Type) (pool : Shmpool) : State P :=
  { shared := { pool, sem := 0 }, procs := fun _ => { pc := .idle, held := [] } }

end Fzsvn.Source.Ipc
