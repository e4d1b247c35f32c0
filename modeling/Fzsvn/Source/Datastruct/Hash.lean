import Fzsvn.Source.Datastruct.Cblist

/-!
# Chained hash table

Embedding of `basic/datastruct/hash.c`. The number of entries is what `_hash_choose_size`
makes of the requested size; the items come from the table's object pool, whose answer to
`objpool_get` is an argument of the inserts. A `void *` value is an `Option`, `none` for
`NULL`; the bucket loops take the fuel of `CBLIST_FOR_EACH`. The statistics, which nothing
reads back, are natural numbers.
-/
namespace Fzsvn.Source.Datastruct
open Library.CircularList

/-- A `cblist_t` of the table: that of an entry or that of an item. -/
inductive Cell (N : Type) where
  | entry (index : Nat)
  | item (node : N)
deriving DecidableEq

structure HashStat where
  nconflict : Nat := 0
  nfindFailed : Nat := 0
  nfindSuccess : Nat := 0

structure Hash (N V : Type) where
  links : Links (Cell N)
  /-- The `data` member of the item. -/
  data : Cell N → V
  nentry : Nat
  cmpFunc : V → V → Int
  size : UInt32
  stat : HashStat
  needLock : Bool
  /-- The mutex is of the error-checking kind: locking it twice fails. -/
  locked : Bool

/-- Which allocations of `hash_alloc` succeed. -/
structure HashAllocs where
  hash : Bool
  pool : Bool
  entries : Bool

section

variable {N V : Type} [DecidableEq N]

def initEntries (links : Links (Cell N)) : Nat → Links (Cell N)
  | 0 => links
  | i + 1 => cblistInit (initEntries links i) (.entry i)

/-- `links` and `data` are what the allocated memory held before. -/
def hashAlloc (chooseSize : UInt32 → Nat) (allocs : HashAllocs) (links : Links (Cell N))
    (data : Cell N → V) (size : UInt32) (cmpFunc : Option (V → V → Int)) (needLock : Bool) :
    Option (Hash N V) :=
  if size < 1 then none
  else match cmpFunc with
    | none => none
    | some cmpFunc =>
      if !allocs.hash then none
      else if !allocs.pool then none
      else
        let nentry := chooseSize size
        if !allocs.entries then none
        else some {
          links := initEntries links nentry
          data, nentry, cmpFunc, needLock
          size := 0
          stat := {}
          locked := false }

/-- `_HH_LOCK_RET`; `none` when the caller returns. -/
def hashLock (hash : Hash N V) : Option (Hash N V) :=
  if hash.needLock then
    if hash.locked then none else some { hash with locked := true }
  else some hash

def hashUnlock (hash : Hash N V) : Hash N V :=
  if hash.needLock then { hash with locked := false } else hash

/-- `&hash->entries[key % hash->nentry].list` -/
def hashEntry (hash : Hash N V) (key : UInt32) : Cell N := .entry (key.toNat % hash.nentry)

def Hash.conflict (hash : Hash N V) : Hash N V :=
  { hash with stat.nconflict := hash.stat.nconflict + 1 }

def Hash.findSuccess (hash : Hash N V) : Hash N V :=
  { hash with stat.nfindSuccess := hash.stat.nfindSuccess + 1 }

def Hash.findFailed (hash : Hash N V) : Hash N V :=
  { hash with stat.nfindFailed := hash.stat.nfindFailed + 1 }

/-- The loops carry `ret` and the table. -/
def searchBody (val : V) (item : Cell N) (s : Option V × Hash N V) : (Option V × Hash N V) × Bool :=
  if s.2.cmpFunc (s.2.data item) val ≠ 0 then ((s.1, s.2.conflict), false)
  else ((some (s.2.data item), s.2.findSuccess), true)

def hashSearch (fuel : Nat) (hash : Hash N V) (key : UInt32) (val : Option V) :
    Option (Option V × Hash N V) :=
  match val with
  | none => some (none, hash)
  | some val =>
    match hashLock hash with
    | none => some (none, hash)
    | some hash => do
      let (ret, hash) ← cblistForEach (fun s => s.2.links) (searchBody val) (hashEntry hash key)
        fuel (none, hash)
      let hash := if ret.isNone then hash.findFailed else hash
      return (ret, hashUnlock hash)

/-- `item->data = val`, `CBLIST_ADD_TAIL` and the count. -/
def Hash.link (hash : Hash N V) (key : UInt32) (item : N) (val : V) : Hash N V :=
  { hash with
    data := Function.update hash.data (.item item) val
    links := cblistAddTail hash.links (hashEntry hash key) (.item item)
    size := hash.size + 1 }

/-- `item` is what `objpool_get` returns. -/
def hashInsert (hash : Hash N V) (key : UInt32) (val : Option V) (item : Option N) : Int × Hash N V :=
  match val with
  | none => (-1, hash)
  | some val =>
    match hashLock hash with
    | none => (-1, hash)
    | some hash =>
      match item with
      | none => (-1, hashUnlock hash)
      | some item => (0, hashUnlock (hash.link key item val))

def dupBody (val : V) (item : Cell N) (s : Int × Hash N V) : (Int × Hash N V) × Bool :=
  if s.2.cmpFunc (s.2.data item) val = 0 then ((-1, s.2), true) else (s, false)

def hashInsertNodup (fuel : Nat) (hash : Hash N V) (key : UInt32) (val : Option V)
    (item : Option N) : Option (Int × Hash N V) :=
  match val with
  | none => some (-1, hash)
  | some val =>
    match hashLock hash with
    | none => some (-1, hash)
    | some hash => do
      let (ret, hash) ← cblistForEach (fun s => s.2.links) (dupBody val) (hashEntry hash key)
        fuel (0, hash)
      if ret = 0 then
        match item with
        | some item => return (ret, hashUnlock (hash.link key item val))
        | none => return (-1, hashUnlock hash)
      else return (ret, hashUnlock hash)

/-- The item goes back to the pool with `objpool_put`. -/
def deleteBody (val : V) (item : Cell N) (s : Option V × Hash N V) : (Option V × Hash N V) × Bool :=
  if s.2.cmpFunc (s.2.data item) val ≠ 0 then ((s.1, s.2.conflict), false)
  else
    let hash := s.2.findSuccess
    let hash := { hash with links := cblistDel hash.links item, size := hash.size - 1 }
    ((some (s.2.data item), hash), true)

def hashDelete (fuel : Nat) (hash : Hash N V) (key : UInt32) (val : Option V) :
    Option (Option V × Hash N V) :=
  match val with
  | none => some (none, hash)
  | some val =>
    match hashLock hash with
    | none => some (none, hash)
    | some hash => do
      let (ret, hash) ← cblistForEachSafe (fun s => s.2.links) (deleteBody val)
        (hashEntry hash key) fuel (none, hash)
      let hash := if ret.isNone then hash.findFailed else hash
      return (ret, hashUnlock hash)

def hashSize (hash : Hash N V) : Int × Hash N V :=
  match hashLock hash with
  | none => (-1, hash)
  | some hash => (hash.size.toInt32.toInt, hashUnlock hash)

end

end Fzsvn.Source.Datastruct
