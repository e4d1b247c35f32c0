import Fzsvn.Library.MachineInt
import Mathlib.Data.Finset.Basic

/-!
# Server pools

The reference counts of `network/proxy/utils/svrpool.c`, for threads that run its functions
at the same time. A step of a thread goes up to its next access to memory that other threads
may use, so each `__sync_fetch_and_add` and each `__sync_fetch_and_sub` is a step of its own;
what a function has still to do is a list of such steps. `alive` are the objects that are
allocated: an access to any other is a fault.

`server_clone`, `server_clone_data`, `svrpool_clone` and `svrpool_clone_data` differ only in
the object they count, as `Obj` says; the four functions that free an object differ in what
they do when the count was 0. A reference that a thread holds is an element of `held`. The
names, addresses and statistics are left out.
-/
namespace Fzsvn.Source.Proxy.Servers
open Library.MachineInt Function

def maxServer : Nat := 256

/-- The four structures with a `refcnt`, by their addresses. -/
inductive Obj where
  /-- `server_t` -/
  | server (s : Nat)
  /-- `server_data_t` -/
  | data (d : Nat)
  /-- `svrpool_t` -/
  | pool (p : Nat)
  /-- `svrpool_data_t` -/
  | table (q : Nat)
  deriving DecidableEq, Repr

/-- `linked` is `!CBLIST_IS_EMPTY(&svr->list)`. -/
structure Server where
  refcnt : Int
  weight : Int
  ssl : Bool
  linked : Bool

structure ServerData where
  server : Option Nat
  refcnt : Int

structure Svrpool where
  svrlist : List Nat
  refcnt : Int

/-- `servers` are the entries that were written, from the first one on; the others are
`NULL`. -/
structure SvrpoolData where
  servers : List (Option Nat)
  nserver : Nat
  gcd : UInt32
  rrpos : Int
  refcnt : Int

inductive Fault where
  | useAfterFree (x : Obj)
  | nullPointer
  | outOfBounds (index : Int)
  | divideByZero
  deriving DecidableEq, Repr

structure World where
  alive : Finset Obj
  server : Nat → Server
  data : Nat → ServerData
  pool : Nat → Svrpool
  table : Nat → SvrpoolData

namespace World

def access (w : World) (x : Obj) : Except Fault Unit :=
  if x ∈ w.alive then .ok () else .error (.useAfterFree x)

def refcnt (w : World) : Obj → Int
  | .server s => (w.server s).refcnt
  | .data d => (w.data d).refcnt
  | .pool p => (w.pool p).refcnt
  | .table q => (w.table q).refcnt

def setRefcnt (w : World) (x : Obj) (n : Int) : World :=
  match x with
  | .server s => { w with server := update w.server s { w.server s with refcnt := n } }
  | .data d => { w with data := update w.data d { w.data d with refcnt := n } }
  | .pool p => { w with pool := update w.pool p { w.pool p with refcnt := n } }
  | .table q => { w with table := update w.table q { w.table q with refcnt := n } }

/-- `__sync_fetch_and_add(&x->refcnt, 1)` -/
def add (w : World) (x : Obj) : World := w.setRefcnt x (toInt (w.refcnt x + 1))

/-- `__sync_fetch_and_sub(&x->refcnt, 1)` -/
def sub (w : World) (x : Obj) : World := w.setRefcnt x (toInt (w.refcnt x - 1))

def setTable (w : World) (q : Nat) (t : SvrpoolData) : World :=
  { w with table := update w.table q t }

/-- `spdata->servers[i] = svrdata`, where `i` entries were written before. -/
def putEntry (w : World) (q : Nat) (entry : Option Nat) : Except Fault World :=
  if (w.table q).servers.length < maxServer then
    .ok (w.setTable q { w.table q with servers := (w.table q).servers ++ [entry] })
  else .error (.outOfBounds (w.table q).servers.length)

/-- `spdata->servers[i]->server->cfg.weight` -/
def weight (w : World) : Option Nat → Except Fault Int
  | none => .error .nullPointer
  | some d => do
    w.access (.data d)
    match (w.data d).server with
    | none => .error .nullPointer
    | some s => do
      w.access (.server s)
      return (w.server s).weight

end World

lemma natAbs_tmod_lt {a : Int} {b : Int} (nonzero : b ≠ 0) : (a.tmod b).natAbs < b.natAbs := by
  rw [Int.natAbs_tmod]
  exact Nat.mod_lt _ (Int.natAbs_pos.mpr nonzero)

/-- `_gcd`; it is never called with `b = 0`. -/
def gcd (a b : Int) : Int :=
  if b = 0 ∨ a.tmod b = 0 then b else gcd b (a.tmod b)
termination_by b.natAbs
decreasing_by
  rename_i more
  exact natAbs_tmod_lt fun zero => more (.inl zero)

/-- `_spdata_calc_gcd`, from the weights of the servers. -/
def calcGcd (weights : List Int) : Int :=
  let result := weights.foldl (fun acc weight => if acc > 0 then gcd weight acc else weight) 0
  if result = 0 then 1 else result

/-- `_gcd`, where a remainder by zero is a fault. -/
def gcdChecked (a b : Int) : Except Fault Int :=
  if b = 0 then .error .divideByZero
  else if a.tmod b = 0 then .ok b
  else gcdChecked b (a.tmod b)
termination_by b.natAbs
decreasing_by
  rename_i nonzero _
  exact natAbs_tmod_lt nonzero

/-- `_spdata_calc_gcd`, from the weights of the servers: what it stores in `gcd`. -/
def spdataCalcGcd (weights : List Int) : Except Fault UInt32 := do
  let gcd ← weights.foldlM
    (fun gcd weight => if gcd > 0 then gcdChecked weight gcd else .ok weight) 0
  return UInt32.ofInt (if gcd ≠ 0 then gcd else 1)

/-- What a thread has still to do. -/
inductive Instr where
  /-- the `__sync_fetch_and_sub` of a function that frees -/
  | dec (x : Obj)
  | free (x : Obj)
  /-- `server_free(svrdata->server)` -/
  | dataServer (d : Nat)
  /-- the loop of `svrpool_free` -/
  | eachServer (p : Nat)
  /-- the loop of `svrpool_free_data` -/
  | eachData (q i : Nat)
  /-- `svrpool_get_rp_server` -/
  | pick (q : Nat)
  | grab (q : Nat) (pos : Int)
  /-- `svrpool_alloc_data` -/
  | allocTable (p : Nat)
  | fill (p q : Nat)
  | putNull (q : Nat)

def serverFree (s : Nat) : List Instr := [.dec (.server s)]

def serverFreeData (d : Nat) : List Instr := [.dec (.data d)]

def svrpoolFree (p : Nat) : List Instr := [.dec (.pool p)]

def svrpoolFreeData (q : Nat) : List Instr := [.dec (.table q)]

/-- The call that gives up a reference. -/
def Obj.freeCall : Obj → List Instr
  | .server s => serverFree s
  | .data d => serverFreeData d
  | .pool p => svrpoolFree p
  | .table q => svrpoolFreeData q

/-- The branch `refcnt == 0` of each of them. -/
def Obj.released : Obj → Instr
  | .server s => .free (.server s)
  | .data d => .dataServer d
  | .pool p => .eachServer p
  | .table q => .eachData q 0

/-- What the allocators return: `calloc` of a `svrpool_data_t`, `calloc` of a
`server_data_t`, and whether an SSL context was allocated. -/
structure Answers where
  table : Option Nat
  data : Option Nat
  sslctx : Bool

/-- One step: the memory and the references after it, and what it leaves to do. -/
def Instr.run (w : World) (held : List Obj) (m : Answers) :
    Instr → Except Fault (World × List Obj × List Instr)
  | .dec x => do
    w.access x
    return (w.sub x, held, if w.refcnt x = 0 then [x.released] else [])
  | .free x => do
    w.access x
    return ({ w with alive := w.alive.erase x }, held, [])
  | .dataServer d => do
    w.access (.data d)
    match (w.data d).server with
    -- server_free(NULL) returns -1
    | none => return (w, held, [.free (.data d)])
    | some s => return (w, held, serverFree s ++ [.free (.data d)])
  | .eachServer p => do
    w.access (.pool p)
    match (w.pool p).svrlist with
    | [] => return (w, held, [.free (.pool p)])
    | s :: rest => do
      -- CBLIST_DEL writes to the next server's list, too
      w.access (.server s)
      rest.head?.forM fun next => w.access (.server next)
      let w := { w with
        pool := update w.pool p { w.pool p with svrlist := rest }
        server := update w.server s { w.server s with linked := false } }
      return (w, held, serverFree s ++ [.eachServer p])
  | .eachData q i => do
    w.access (.table q)
    if i < (w.table q).nserver then
      match (w.table q).servers[i]?.join with
      | none => throw .nullPointer
      | some d => do
        w.access (.data d)
        return (w, held, serverFreeData d ++ [.eachData q (i + 1)])
    else return (w, held, [.free (.table q)])
  | .pick q => do
    w.access (.table q)
    let pos := (w.table q).rrpos
    return (w.setTable q { w.table q with rrpos := toInt (pos + 1) }, held, [.grab q pos])
  | .grab q pos => do
    w.access (.table q)
    if (w.table q).nserver = 0 then throw .divideByZero
    let pos := pos.tmod (w.table q).nserver
    if pos < 0 then throw (.outOfBounds pos)
    match (w.table q).servers[pos.toNat]?.join with
    -- server_clone_data(NULL) is NULL
    | none => return (w, held, [])
    | some d => do
      w.access (.data d)
      return (w.add (.data d), .data d :: held, [])
  | .allocTable p =>
    match m.table with
    | none => return (w, held, [])
    | some q => do
      let w := w.setTable q { servers := [], nserver := 0, gcd := 0, rrpos := 0, refcnt := 0 }
      return ({ w with alive := insert (.table q) w.alive }, held, [.fill p q])
  | .fill p q => do
    w.access (.pool p)
    w.access (.table q)
    match (w.pool p).svrlist[(w.table q).servers.length]? with
    | none => do
      let weights ← (w.table q).servers.mapM w.weight
      let table := { w.table q with nserver := (w.table q).servers.length, gcd := UInt32.ofInt (calcGcd weights) }
      return (w.setTable q table, .table q :: held, [])
    | some s =>
      -- server_alloc_data
      match m.data with
      | none => return (← w.putEntry q none, held, [.fill p q])
      | some d => do
        w.access (.server s)
        let w := w.add (.server s)
        let w := { w with
          alive := insert (.data d) w.alive
          data := update w.data d { server := some s, refcnt := 0 } }
        if (w.server s).ssl && !m.sslctx then
          return (w, held, serverFree s ++ [.free (.data d), .putNull q, .fill p q])
        else return (← w.putEntry q (some d), held, [.fill p q])
  | .putNull q => return (← w.putEntry q none, held, [])

structure Thread where
  held : List Obj
  stack : List Instr

structure State (T : Type) where
  world : World
  threads : T → Thread

/-- What a thread does. A server that is made is configured, too. -/
inductive Event (T : Type) where
  | serverAlloc (t : T) (s : Nat) (weight : Int) (ssl : Bool)
  | svrpoolAlloc (t : T) (p : Nat)
  /-- `CBLIST_ADD_TAIL(&sp->svrlist, &svr->list)` -/
  | addServer (t : T) (p s : Nat)
  | clone (t : T) (x : Obj)
  | release (t : T) (x : Obj)
  | getRpServer (t : T) (q : Nat)
  | allocData (t : T) (p : Nat)
  /-- a reference goes to another thread -/
  | pass (t u : T) (x : Obj)
  | run (t : T) (m : Answers)

section

variable {T : Type} [DecidableEq T]

def State.set (s : State T) (t : T) (w : World) (held : List Obj) (stack : List Instr) : State T :=
  { world := w, threads := update s.threads t { held, stack } }

/-- `none` if the event is not possible: a thread calls one function at a time, clones and
uses only what it holds, gives up only what it holds, and an allocator returns no address
that is in use. -/
def State.step (s : State T) : Event T → Option (Except Fault (State T))
  | .serverAlloc t a weight ssl =>
    let w := { s.world with
      alive := insert (.server a) s.world.alive
      server := update s.world.server a { refcnt := 0, weight, ssl, linked := false } }
    if (s.threads t).stack = [] ∧ .server a ∉ s.world.alive then
      some (.ok (s.set t w (.server a :: (s.threads t).held) []))
    else none
  | .svrpoolAlloc t p =>
    let w := { s.world with
      alive := insert (.pool p) s.world.alive
      pool := update s.world.pool p { svrlist := [], refcnt := 0 } }
    if (s.threads t).stack = [] ∧ .pool p ∉ s.world.alive then
      some (.ok (s.set t w (.pool p :: (s.threads t).held) []))
    else none
  | .addServer t p a =>
    let w := { s.world with
      pool := update s.world.pool p
        { s.world.pool p with svrlist := (s.world.pool p).svrlist ++ [a] }
      server := update s.world.server a { s.world.server a with linked := true } }
    if (s.threads t).stack = [] ∧ .pool p ∈ (s.threads t).held ∧ .server a ∈ (s.threads t).held ∧
        (s.world.server a).linked = false then
      some (.ok (s.set t w ((s.threads t).held.erase (.server a)) []))
    else none
  | .clone t x =>
    if (s.threads t).stack = [] ∧ x ∈ (s.threads t).held then
      some (do
        s.world.access x
        return s.set t (s.world.add x) (x :: (s.threads t).held) [])
    else none
  | .release t x =>
    if (s.threads t).stack = [] ∧ x ∈ (s.threads t).held then
      some (.ok (s.set t s.world ((s.threads t).held.erase x) x.freeCall))
    else none
  | .getRpServer t q =>
    if (s.threads t).stack = [] ∧ .table q ∈ (s.threads t).held then
      some (.ok (s.set t s.world (s.threads t).held [.pick q]))
    else none
  | .allocData t p =>
    if (s.threads t).stack = [] ∧ .pool p ∈ (s.threads t).held then
      some (.ok (s.set t s.world (s.threads t).held [.allocTable p]))
    else none
  | .pass t u x =>
    if (s.threads t).stack = [] ∧ x ∈ (s.threads t).held ∧ t ≠ u then
      some (.ok ((s.set t s.world ((s.threads t).held.erase x) []).set u s.world
        (x :: (s.threads u).held) (s.threads u).stack))
    else none
  | .run t m =>
    match (s.threads t).stack with
    | [] => none
    | next :: rest =>
      if (∀ q ∈ m.table, .table q ∉ s.world.alive) ∧ ∀ d ∈ m.data, .data d ∉ s.world.alive then
        some ((next.run s.world (s.threads t).held m).map fun (w, held, more) =>
          s.set t w held (more ++ rest))
      else none

end

/-- Nothing is allocated. -/
def State.start (T : Type) : State T where
  world :=
    { alive := ∅
      server := fun _ => { refcnt := 0, weight := 0, ssl := false, linked := false }
      data := fun _ => { server := none, refcnt := 0 }
      pool := fun _ => { svrlist := [], refcnt := 0 }
      table := fun _ => { servers := [], nserver := 0, gcd := 0, rrpos := 0, refcnt := 0 } }
  threads _ := { held := [], stack := [] }

end Fzsvn.Source.Proxy.Servers
