import Fzsvn.Library.MachineInt

/-!
# The session table

Embedding of the table of `network/socket/proxy/utils/session.c`. A session is known by its
address, and of its fields the table uses `id` and `magic`. The arguments are not NULL and
the lock is free. The loop that looks for a free id may go round for ever, so it has fuel;
that this is used up is a `Stop` of its own.
-/
namespace Fzsvn.Source.Socket.Sessions
open Library.MachineInt

/-- `_SESSION_MAGIC`. -/
def sessionMagic : Nat := 0x87654321

inductive Stop where
  | outOfBounds
  | assertion
  | outOfFuel

structure SessionTable (S : Type) where
  table : List (Option S)
  max : Nat
  nfreed : Nat
  freeid : Nat

/-- The table and the fields of the sessions. -/
structure World (S : Type) where
  st : SessionTable S
  id : S → Int
  magic : S → Nat

/-- `table[id]` -/
def SessionTable.read {S : Type} (st : SessionTable S) (id : Nat) : Except Stop (Option S) :=
  match st.table[id]? with
  | some entry => .ok entry
  | none => .error .outOfBounds

variable {S : Type}

/-- The loop of `_st_get_free_id`: the id, or `none` for -1, and the new `freeid`. -/
def freeIdLoop (st : SessionTable S) : Nat → Nat → Except Stop (Option Nat × Nat)
  | 0, _ => .error .outOfFuel
  | fuel + 1, id => do
    let id := if (id : Int) ≥ toInt st.max then 0 else id
    match ← st.read id with
    | none => return (some id, id + 1)
    | some _ => if id + 1 ≠ st.freeid then freeIdLoop st fuel (id + 1) else return (none, st.freeid)

def stGetFreeId (fuel : Nat) (st : SessionTable S) : Except Stop (Option Nat × Nat) :=
  freeIdLoop st fuel st.freeid

/-- The sessions keep what was in their memory. -/
def sessionTableAlloc (max : Nat) (id : S → Int) (magic : S → Nat) : Option (World S) :=
  if max < 1 then none
  else some { st := { table := List.replicate max none, max, nfreed := max, freeid := 0 }, id, magic }

section

variable [DecidableEq S]

/-- Whether 0 is returned. -/
def sessionTableAdd (fuel : Nat) (w : World S) (s : S) : Except Stop (Bool × World S) :=
  if w.st.nfreed < 1 then .ok (false, w)
  else do
    match ← stGetFreeId fuel w.st with
    | (none, freeid) => return (false, { w with st := { w.st with freeid } })
    | (some id, freeid) =>
      return (true,
        { st := { w.st with table := w.st.table.set id (some s), nfreed := w.st.nfreed - 1, freeid }
          id := Function.update w.id s id
          magic := Function.update w.magic s sessionMagic })

def sessionTableFind (w : World S) (id : Int) : Except Stop (Option S) :=
  if id < 0 ∨ id ≥ toInt w.st.max then .ok none
  else do
    match ← w.st.read id.toNat with
    | none => return none
    | some s => if w.magic s = sessionMagic then return some s else throw .assertion

/-- Whether 0 is returned. -/
def sessionTableDel (w : World S) (id : Int) : Except Stop (Bool × World S) :=
  if id < 0 ∨ id ≥ toInt w.st.max then .ok (false, w)
  else do
    match ← w.st.read id.toNat with
    | none => return (false, w)
    | some s =>
      return (true,
        { w with
          st := { w.st with table := w.st.table.set id.toNat none, nfreed := w.st.nfreed + 1 }
          magic := Function.update w.magic s 0 })

/-! ## Calls -/

inductive Call (S : Type) where
  | add (s : S)
  | find (id : Int)
  | del (id : Int)

/-- What a call returned; for `add`, the id that the session then has. -/
inductive Result (S : Type) where
  | added (id : Option Int)
  | found (s : Option S)
  | deleted (success : Bool)
  deriving DecidableEq

def World.call (fuel : Nat) (w : World S) : Call S → Except Stop (Result S × World S)
  | .add s => do
    let (success, w') ← sessionTableAdd fuel w s
    return (.added (if success then some (w'.id s) else none), w')
  | .find id => do return (.found (← sessionTableFind w id), w)
  | .del id => do
    let (success, w') ← sessionTableDel w id
    return (.deleted success, w')

end

end Fzsvn.Source.Socket.Sessions
