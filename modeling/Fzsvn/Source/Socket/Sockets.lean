import Mathlib.Data.UInt

/-!
# The socket pool

Embedding of `network/socket/proxy/utils/sockpool.c`. A pointer to an item is its index in
the array of items, and a pointer to a hash entry its index in the table; the entry at
`SOCKPOOL_HSIZE` is the list of the free items. The sockets are those that `sock_tcpcli` has
connected and `close` has not closed yet, each with the address it is connected to. The lock
is left out, as `memsize` is, and the message texts.
-/
namespace Fzsvn.Source.Socket.Sockets

inductive Fault where
  /-- The counter of a loop, an `int`, overflows. -/
  | overflow
  | assertion
  | outOfFuel

/-- `SOCKPOOL_HSIZE` -/
def sockpoolHsize : Nat := 10001

structure SockpoolItem where
  prev : Option Nat
  next : Option Nat
  fd : Int
  nused : UInt32
  flags : UInt16
  port : UInt16
  ip : UInt32

structure SockpoolHash where
  size : UInt32
  head : Option Nat

structure Sockpool where
  size : UInt32
  success : UInt32
  failed : UInt32
  nused : UInt32
  pool : Nat → SockpoolItem
  hash : Nat → SockpoolHash

/-! ## Flags and keys -/

/-- `_SOCKPOOL_USED` -/
def sockpoolUsed : UInt16 := 1

def sockpoolIsUsed (flags : UInt16) : Bool := flags &&& sockpoolUsed ≠ 0

def sockpoolSetUsed (flags : UInt16) : UInt16 := flags ||| sockpoolUsed

def sockpoolClrUsed (flags : UInt16) : UInt16 := flags &&& ~~~sockpoolUsed

/-- The bytes are added as 32-bit numbers; the key has eight bits. -/
def sockpoolKeygen (ip : UInt32) (port : UInt16) : Nat :=
  let key := ip.toNat / 2 ^ 24 % 256
  let key := key + ip.toNat / 2 ^ 16 % 256
  let key := key + ip.toNat / 2 ^ 8 % 256
  let key := key + ip.toNat % 256
  let key := key + port.toNat / 2 ^ 8 % 256
  let key := key + port.toNat % 256
  key % sockpoolHsize % 256

/-! ## The lists -/

namespace Sockpool

def modify (pool : Sockpool) (item : Nat) (change : SockpoolItem → SockpoolItem) : Sockpool :=
  { pool with pool := Function.update pool.pool item (change (pool.pool item)) }

def setNext (pool : Sockpool) (item : Nat) (next : Option Nat) : Sockpool :=
  pool.modify item ({ · with next })

def setPrev (pool : Sockpool) (item : Nat) (prev : Option Nat) : Sockpool :=
  pool.modify item ({ · with prev })

def setHead (pool : Sockpool) (entry : Nat) (head : Option Nat) : Sockpool :=
  { pool with hash := Function.update pool.hash entry { pool.hash entry with head } }

def setSize (pool : Sockpool) (entry : Nat) (size : UInt32) : Sockpool :=
  { pool with hash := Function.update pool.hash entry { pool.hash entry with size } }

end Sockpool

def sockpoolHashGet (pool : Sockpool) (entry : Nat) : Option Nat × Sockpool :=
  if (pool.hash entry).size ≠ 0 then
    let item := (pool.hash entry).head
    let pool := match item with
      | some item => pool.setHead entry (pool.pool item).next
      | none => pool
    let pool := match (pool.hash entry).head with
      | some head => pool.setPrev head none
      | none => pool
    (item, pool.setSize entry ((pool.hash entry).size - 1))
  else
    (none, pool)

def sockpoolHashAdd (pool : Sockpool) (entry item : Nat) : Sockpool :=
  let pool := match (pool.hash entry).head with
    | some head => (pool.setNext item (some head)).setPrev head (some item)
    | none => pool.setNext item none
  let pool := pool.setHead entry (some item)
  let pool := pool.setPrev item none
  pool.setSize entry ((pool.hash entry).size + 1)

def sockpoolHashDel (pool : Sockpool) (entry item : Nat) : Sockpool :=
  let pool := match (pool.pool item).prev with
    | some prev => pool.setNext prev (pool.pool item).next
    | none => pool.setHead entry (pool.pool item).next
  let pool := match (pool.pool item).next with
    | some next => pool.setPrev next (pool.pool item).prev
    | none => pool
  pool.setSize entry ((pool.hash entry).size - 1)

/-! ## The pool and the sockets -/

/-- The pool and, for each socket that is open, the address it is connected to. `held` is a
record that the code does not keep: the sockets that were got and not put back. -/
structure World where
  pool : Sockpool
  peer : Int → Option (UInt32 × UInt16)
  held : List Int

def World.close (w : World) (fd : Int) : World := { w with peer := Function.update w.peer fd none }

/-- The loop of `_sockpool_hash_find_free`; `test` says of which sockets
`_sockpool_testfd` returns 0. -/
def findFreeLoop (test : Int → Bool) (entry : Nat) :
    Nat → Option Nat → World → Except Fault (Option Nat × World)
  | 0, _, _ => .error .outOfFuel
  | _ + 1, none, w => .ok (none, w)
  | fuel + 1, some item, w =>
    let it := w.pool.pool item
    if it.fd < 0 then .error .assertion
    else if sockpoolIsUsed it.flags then findFreeLoop test entry fuel it.next w
    else if !test it.fd then
      let pool := sockpoolHashDel w.pool entry item
      let pool := sockpoolHashAdd pool sockpoolHsize item
      let pool := { pool with nused := pool.nused - 1 }
      findFreeLoop test entry fuel it.next ({ w with pool }.close it.fd)
    else .ok (some item, w)

/-- The loop of `_sockpool_hash_find`. -/
def findLoop (pool : Sockpool) (fd : Int) (ip : UInt32) (port : UInt16) :
    Nat → Option Nat → Except Fault (Option Nat)
  | 0, _ => .error .outOfFuel
  | _ + 1, none => .ok none
  | fuel + 1, some item =>
    let it := pool.pool item
    if it.fd < 0 then .error .assertion
    else if it.fd = fd then
      if it.ip = ip ∧ it.port = port then .ok (some item) else .error .assertion
    else findLoop pool fd ip port fuel it.next

/-- The loop of `_sockpool_hash_unique`: how often the socket is in the list. -/
def uniqueLoop (pool : Sockpool) (fd : Int) : Nat → Option Nat → Nat → Except Fault Nat
  | 0, _, _ => .error .outOfFuel
  | _ + 1, none, count => .ok count
  | fuel + 1, some item, count =>
    let it := pool.pool item
    if it.fd < 0 then .error .assertion
    else uniqueLoop pool fd fuel it.next (if it.fd = fd then count + 1 else count)

/-- As many turns as a list can have, and one to see its end. -/
def Sockpool.turns (pool : Sockpool) : Nat := pool.size.toNat + 1

def sockpoolHashFindFree (test : Int → Bool) (w : World) (entry : Nat) : Except Fault (Option Nat × World) :=
  findFreeLoop test entry w.pool.turns (w.pool.hash entry).head w

/-- The items: each is put behind the one before, with an `int` as the index. -/
def initItems (size : Nat) : Nat → Nat → (Nat → SockpoolItem) → Except Fault (Nat → SockpoolItem)
  | 0, _, items => .ok items
  | left + 1, i, items =>
    let items := Function.update items i {
      prev := if i = 0 then none else some (i - 1)
      next := if i = size - 1 then none else some (i + 1)
      fd := -1, nused := 0, flags := 0, port := 0, ip := 0 }
    if i + 1 < 2 ^ 31 then initItems size left (i + 1) items else .error .overflow

/-- `none` is NULL; `memory` says whether the calls of `malloc` succeed, and `items` is what
is in the memory that they return. -/
def sockpoolAlloc (size : Nat) (memory : Bool) (items : Nat → SockpoolItem) :
    Except Fault (Option Sockpool) := do
  if size < 1 ∨ !memory then return none
  let items ← initItems size size 0 items
  return some {
    size := .ofNat size
    success := 0
    failed := 0
    nused := 0
    pool := items
    hash := fun entry =>
      if entry = sockpoolHsize then { size := .ofNat size, head := some 0 }
      else { size := 0, head := none } }

/-- How `sockpool_get` ends. -/
inductive GetResult where
  | invalid
  | reused (fd : Int)
  /-- "can't alloc more fd" -/
  | full
  /-- "can't connect to" the address -/
  | refused
  /-- "can't get item from pool" -/
  | noItem
  | connected (fd : Int)
  deriving DecidableEq

/-- What `sockpool_get` returns. -/
def GetResult.fd : GetResult → Int
  | .reused fd | .connected fd => fd
  | _ => -1

/-- `sock_tcpcli`: the kernel gives a socket that is not open, which is then connected to the
address. -/
def sockTcpcli (w : World) (ip : UInt32) (port : UInt16) (answer : Option Int) : Option (Int × World) :=
  match answer with
  | some fd =>
    if 0 ≤ fd ∧ w.peer fd = none then
      some (fd, { w with peer := Function.update w.peer fd (some (ip, port)) })
    else none
  | none => none

def World.fail (w : World) : World :=
  { w with pool := { w.pool with failed := w.pool.failed + 1 } }

/-- The caller holds the socket from now on. -/
def World.succeed (w : World) (fd : Int) : World :=
  { w with pool := { w.pool with success := w.pool.success + 1 }, held := fd :: w.held }

def sockpoolGet (w : World) (ip : UInt32) (port : UInt16) (test : Int → Bool) (answer : Option Int) :
    Except Fault (GetResult × World) := do
  if ip < 1 ∨ port < 1 then return (.invalid, w)
  let entry := sockpoolKeygen ip port
  match ← sockpoolHashFindFree test w entry with
  | (some item, w) =>
    let pool := w.pool.modify item fun it => { it with nused := it.nused + 1 }
    let fd := (pool.pool item).fd
    -- The number is only printed.
    let _ ← uniqueLoop pool fd pool.turns (pool.hash entry).head 0
    let pool := pool.modify item fun it => { it with flags := sockpoolSetUsed it.flags }
    return (.reused fd, { w with pool }.succeed fd)
  | (none, w) =>
    if w.pool.nused ≥ w.pool.size then return (.full, w.fail)
    match sockTcpcli w ip port answer with
    | none => return (.refused, w.fail)
    | some (fd, w) =>
      match sockpoolHashGet w.pool sockpoolHsize with
      | (none, pool) => return (.noItem, ({ w with pool }.fail).close fd)
      | (some item, pool) =>
        let pool := pool.modify item fun it =>
          { it with flags := sockpoolSetUsed 0, fd, nused := 1, ip, port }
        let pool := sockpoolHashAdd pool entry item
        return (.connected fd, { w with pool := { pool with nused := pool.nused + 1 } }.succeed fd)

/-- Whether 0 is returned. `getpeername` fails for a socket that is not open. -/
def sockpoolPut (w : World) (fd : Int) (isclose : Bool) : Except Fault (Bool × World) := do
  if fd < 0 then return (false, w)
  match w.peer fd with
  | none => return (false, w)
  | some (ip, port) =>
    let entry := sockpoolKeygen ip port
    match ← findLoop w.pool fd ip port w.pool.turns (w.pool.hash entry).head with
    | none => return (false, w)
    | some item =>
      let w := { w with held := w.held.erase fd }
      if !isclose then
        return (true, { w with pool := w.pool.modify item fun it =>
          { it with flags := sockpoolClrUsed it.flags } })
      else
        let pool := sockpoolHashDel w.pool entry item
        let pool := sockpoolHashAdd pool sockpoolHsize item
        return (true, { w with pool := { pool with nused := pool.nused - 1 } }.close fd)

end Fzsvn.Source.Socket.Sockets
