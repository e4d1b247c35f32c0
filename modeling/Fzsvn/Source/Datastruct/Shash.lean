import Fzsvn.Source.Datastruct.Hash

/-!
# Simple hash

Embedding of `basic/datastruct/shash.h`: the buckets count their items, and so does the
table. Items and buckets are the `Cell`s of `Hash`, the values are pointers; what
`objpool_get` returns is an argument of `shash_add`. The loops over the buckets have an `int`
index: with more than 2^31 buckets it becomes negative and leaves the array.
-/
namespace Fzsvn.Source.Datastruct
open Library.CircularList

structure Shash (N V : Type) where
  links : Links (Cell N)
  data : Cell N → V
  bucketSize : Nat → UInt32
  nbucket : UInt32
  size : UInt32
  cmpFunc : V → V → Int

inductive ShashFault where
  | outOfBounds

/-- Which allocations of `shash_alloc` succeed. -/
structure ShashAllocs where
  hash : Bool
  buckets : Bool
  itempool : Bool

section

variable {N V : Type} [DecidableEq N]

/-- `links` and `data` are what the allocated memory held before. -/
def shashAlloc (allocs : ShashAllocs) (links : Links (Cell N)) (data : Cell N → V)
    (bucket : UInt32) (cfunc : V → V → Int) : Except ShashFault (Option (Shash N V)) :=
  if bucket < 1 then .ok none
  else if !allocs.hash then .ok none
  else if !allocs.buckets then .ok none
  else if bucket.toNat > 2 ^ 31 then .error .outOfBounds
  else if !allocs.itempool then .ok none
  else .ok <| some {
    links := initEntries links bucket.toNat
    data
    bucketSize := fun _ => 0
    nbucket := bucket
    size := 0
    cmpFunc := cfunc }

/-- `&h->buckets[hval % h->nbucket].list` -/
def shashBucket (h : Shash N V) (hval : UInt32) : Nat := hval.toNat % h.nbucket.toNat

/-- The check carries whether it has returned. -/
def shashCheckBody [DecidableEq V] (d : V) (item : Cell N) (s : Bool × Shash N V) :
    (Bool × Shash N V) × Bool :=
  if s.2.data item = d ∨ s.2.cmpFunc (s.2.data item) d = 0 then ((true, s.2), true)
  else (s, false)

/-- `item->data = d`, `CBLIST_ADD_TAIL` and the two counts. -/
def Shash.link (h : Shash N V) (hval : UInt32) (item : N) (d : V) : Shash N V :=
  { h with
    data := Function.update h.data (.item item) d
    links := cblistAddTail h.links (.entry (shashBucket h hval)) (.item item)
    bucketSize := Function.update h.bucketSize (shashBucket h hval)
      (h.bucketSize (shashBucket h hval) + 1)
    size := h.size + 1 }

def shashAdd [DecidableEq V] (fuel : Nat) (h : Shash N V) (d : Option V) (hval : UInt32)
    (check : Bool) (item : Option N) : Option (Int × Shash N V) :=
  match d with
  | none => some (-1, h)
  | some d => do
    let (dup, h) ←
      if check then
        cblistForEach (fun s => s.2.links) (shashCheckBody d) (.entry (shashBucket h hval)) fuel
          (false, h)
      else some (false, h)
    if dup then return (-1, h)
    else match item with
      | none => return (-1, h)
      | some item => return (0, h.link hval item d)

/-- Neither count is touched. -/
def shashDelBody (d : V) (item : Cell N) (s : Option V × Shash N V) : (Option V × Shash N V) × Bool :=
  if s.2.cmpFunc (s.2.data item) d = 0 then
    ((some (s.2.data item), { s.2 with links := cblistDel s.2.links item }), true)
  else (s, false)

def shashDel (fuel : Nat) (h : Shash N V) (d : Option V) (hval : UInt32) : Option (Option V × Shash N V) :=
  match d with
  | none => some (none, h)
  | some d =>
    cblistForEachSafe (fun s => s.2.links) (shashDelBody d) (.entry (shashBucket h hval)) fuel
      (none, h)

def shashFindBody (d : V) (item : Cell N) (s : Option V × Shash N V) : (Option V × Shash N V) × Bool :=
  if s.2.cmpFunc (s.2.data item) d = 0 then ((some (s.2.data item), s.2), true) else (s, false)

def shashFind (fuel : Nat) (h : Shash N V) (d : Option V) (hval : UInt32) : Option (Option V × Shash N V) :=
  match d with
  | none => some (none, h)
  | some d =>
    cblistForEach (fun s => s.2.links) (shashFindBody d) (.entry (shashBucket h hval)) fuel
      (none, h)

def shashFreeBody (i : Nat) (item : Cell N) (h : Shash N V) : Shash N V × Bool :=
  ({ h with
    links := cblistDel h.links item
    bucketSize := Function.update h.bucketSize i (h.bucketSize i - 1) }, false)

/-- The buckets below `n`. -/
def shashFreeBuckets (fuel : Nat) (h : Shash N V) : Nat → Option (Shash N V)
  | 0 => some h
  | i + 1 => do
    let h ← shashFreeBuckets fuel h i
    cblistForEachSafe (fun h => h.links) (shashFreeBody i) (.entry i) fuel h

/-- The table as it is before its memory is given back; `none` also if the index leaves the
array. -/
def shashFree (fuel : Nat) (h : Shash N V) : Option (Shash N V) :=
  if h.nbucket.toNat > 2 ^ 31 then none else shashFreeBuckets fuel h h.nbucket.toNat

end

end Fzsvn.Source.Datastruct
