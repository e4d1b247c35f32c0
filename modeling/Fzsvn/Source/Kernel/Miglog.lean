import Fzsvn.Library.MachineInt

/-!
# The log device

Embedding of `kernel/miglog/miglog.c`: the queue of messages, and `miglog_read` and
`miglog_write` as the steps of threads that run at the same time. A list operation is one
step, as its spinlock makes it. A position says which step comes next and holds the local
variables. An allocated message is known by a number that `kmalloc` gives once; memory that
is not allocated is not accessible. The queue is not NULL. Waking up those who poll does
nothing to the queue and is left out.
-/
namespace Fzsvn.Source.Kernel
open Library.MachineInt

def miglogMaxlen : Nat := 1024
def miglogMaxlog : Int := 8192

def efault : Int := 14
def enomem : Int := 12
def enospc : Int := 28

inductive Fault where
  | notAllocated

/-- A message; its `length` is that of the log. -/
structure Migloghdr where
  next : Option Nat
  log : List UInt8

abbrev Heap := Nat → Option Migloghdr

def Heap.get (heap : Heap) (msg : Nat) : Except Fault Migloghdr :=
  match heap msg with
  | some hdr => .ok hdr
  | none => .error .notAllocated

def Heap.modify (heap : Heap) (msg : Nat) (change : Migloghdr → Migloghdr) : Except Fault Heap := do
  return Function.update heap msg (some (change (← heap.get msg)))

def Heap.free (heap : Heap) (msg : Nat) : Except Fault Heap := do
  let _ ← heap.get msg
  return Function.update heap msg none

/-! ## The queue -/

structure MigloghdrQueue where
  lock : Bool
  head : Option Nat
  tail : Option Nat
  size : Int

def miglogQueueInit : MigloghdrQueue where
  lock := false
  head := none
  tail := none
  size := 0

def miglogQueueAdd (heap : Heap) (mq : MigloghdrQueue) (msg : Nat) :
    Except Fault (Heap × MigloghdrQueue) := do
  let heap ← match mq.tail with
    | some tail => heap.modify tail ({ · with next := some msg })
    | none => .ok heap
  let heap ← heap.modify msg ({ · with next := none })
  return (heap, { mq with
    head := match mq.head with
      | some head => some head
      | none => some msg
    tail := some msg
    size := toInt (mq.size + 1) })

/-- The message that was removed, or `none` for NULL. -/
def miglogQueueDel (heap : Heap) (mq : MigloghdrQueue) : Except Fault (Option Nat × MigloghdrQueue) :=
  match mq.head with
  | none => .ok (none, { mq with tail := none })
  | some msg => do
    let head := (← heap.get msg).next
    return (some msg, { mq with
      head
      tail := if head = none then none else mq.tail
      size := toInt (mq.size - 1) })

/-! ## The threads -/

inductive Pc where
  /-- Not in a call; the last one returned `result`. -/
  | out (result : Int)
  -- miglog_read
  | readCheck (len : Nat)
  | readLock (len : Nat)
  | readDel (len : Nat)
  | readUnlock (len : Nat) (msg : Option Nat)
  | readCopy (len : Nat) (msg : Option Nat)
  | readFree (msg nreads : Nat)
  -- miglog_write
  | writeCheck (buf : List UInt8)
  | writeAlloc (buf : List UInt8)
  | writeCopy (buf : List UInt8) (msg nwrites : Nat)
  | writeLock (msg nwrites : Nat)
  | writeAdd (msg nwrites : Nat)
  | writeUnlock (nwrites : Nat)

/-- The threads `T`, the queue and the memory; `blocks` messages were allocated so far. The
last three fields are a record that the code does not keep: the messages that were linked,
those that left the queue, each with the thread that removed it, and those that a read
returned to its caller, with the thread. -/
structure State (T : Type) where
  mq : MigloghdrQueue
  heap : Heap
  blocks : Nat
  threads : T → Pc
  linked : List Nat
  left : List (T × Nat)
  returned : List (T × Nat)

variable {T : Type}

def start (T : Type) : State T where
  mq := miglogQueueInit
  heap := fun _ => none
  blocks := 0
  threads := fun _ => .out 0
  linked := []
  left := []
  returned := []

variable [DecidableEq T]

def State.goto (s : State T) (t : T) (pc : Pc) : State T :=
  { s with threads := Function.update s.threads t pc }

/-- `spin_lock`, which waits, and `spin_unlock`. -/
def State.setLock (s : State T) (lock : Bool) : State T := { s with mq := { s.mq with lock } }

/-- The next step of a thread; `none` if it is in no call or waits. `answer` says whether
`kmalloc`, `copy_to_user` or `copy_from_user` succeeds, if the step calls one of them. -/
def State.run (s : State T) (t : T) (answer : Bool) : Option (Except Fault (State T)) :=
  match s.threads t with
  | .out _ => none
  | .readCheck len => some (.ok (s.goto t (if s.mq.size = 0 then .out 0 else .readLock len)))
  | .readLock len => if s.mq.lock then none else some (.ok ((s.setLock true).goto t (.readDel len)))
  | .readDel len => some do
    let (msg, mq) ← miglogQueueDel s.heap s.mq
    return { s with mq, left := s.left ++ msg.toList.map (t, ·) }.goto t (.readUnlock len msg)
  | .readUnlock len msg => some (.ok ((s.setLock false).goto t (.readCopy len msg)))
  | .readCopy _ none => some (.ok (s.goto t (.out 0)))
  | .readCopy len (some msg) => some do
    let size := (← s.heap.get msg).log.length + 4
    let nreads := if len < size then len else size
    return s.goto t (if answer then .readFree msg nreads else .out (-efault))
  | .readFree msg nreads => some do
    let heap ← s.heap.free msg
    return { s with heap, returned := s.returned ++ [(t, msg)] }.goto t (.out nreads)
  | .writeCheck buf =>
    some (.ok (s.goto t (if s.mq.size ≥ miglogMaxlog then .out (-enospc) else .writeAlloc buf)))
  | .writeAlloc buf =>
    let nwrites := if buf.length > miglogMaxlen then miglogMaxlen else buf.length
    if answer then
      let hdr : Migloghdr := { next := none, log := List.replicate nwrites 0 }
      some (.ok ({ s with
        heap := Function.update s.heap s.blocks (some hdr)
        blocks := s.blocks + 1 }.goto t (.writeCopy buf s.blocks nwrites)))
    else
      some (.ok (s.goto t (.out (-enomem))))
  | .writeCopy buf msg nwrites =>
    if answer then some do
      let heap ← s.heap.modify msg ({ · with log := buf.take nwrites })
      return { s with heap }.goto t (.writeLock msg nwrites)
    else some do
      let heap ← s.heap.free msg
      return { s with heap }.goto t (.out (-efault))
  | .writeLock msg nwrites =>
    if s.mq.lock then none else some (.ok ((s.setLock true).goto t (.writeAdd msg nwrites)))
  | .writeAdd msg nwrites => some do
    let (heap, mq) ← miglogQueueAdd s.heap s.mq msg
    return { s with heap, mq, linked := s.linked ++ [msg] }.goto t (.writeUnlock nwrites)
  | .writeUnlock nwrites => some (.ok ((s.setLock false).goto t (.out nwrites)))

/-- A thread calls `miglog_read` or `miglog_write`, or goes on. -/
inductive Event (T : Type) where
  | read (t : T) (len : Nat)
  | write (t : T) (buf : List UInt8)
  | run (t : T) (answer : Bool)

/-- `none` if the event is not possible. -/
def State.step (s : State T) : Event T → Option (Except Fault (State T))
  | .read t len =>
    match s.threads t with
    | .out _ => some (.ok (s.goto t (.readCheck len)))
    | _ => none
  | .write t buf =>
    match s.threads t with
    | .out _ => some (.ok (s.goto t (.writeCheck buf)))
    | _ => none
  | .run t answer => s.run t answer

end Fzsvn.Source.Kernel
