import Fzsvn.Library.MachineInt

/-!
# Number of buckets

Embedding of `_hash_choose_size` of `basic/datastruct/hash.c`, the search in the table of
bucket counts. A read beside the table, a variable that is read before it is assigned and
a loop that is not left are the faults of the model; what C does there is not defined. The
sizes are only compared and the indices never get below 0: both are natural numbers.
-/
namespace Fzsvn.Source.Datastruct
open Library.MachineInt

def htSizeSz : Nat := 44

def htSize : List Nat := [
  7, 47, 79, 97, 163, 197, 331, 397, 673, 797, 1361, 1597,
  2729, 3203, 5471, 6421, 10949, 12853, 21911, 25717, 43853,
  51437, 87719, 102877, 175447, 205759, 350899, 411527, 701819,
  823117, 1403641, 1646237, 2807303, 3292489, 5614657, 6584983,
  11229331, 13169977, 22458671, 26339969, 44917381, 52679969,
  89834777, 105359939]

inductive ChooseFault where
  | outside (index : Nat)
  | unassigned
  | endless
deriving DecidableEq, Repr

/-- `ht_size[index]`. -/
def htRead (index : Nat) : Except ChooseFault Nat :=
  match htSize[index]? with
  | some entry => .ok entry
  | none => .error (.outside index)

/-- How the body of the loop ends: with a `break`, after which `newsize` is what the body
assigned to it, or with new bounds. -/
inductive Turn where
  | leave (newsize : Option Nat)
  | again (bottom top : Nat)
deriving DecidableEq, Repr

def chooseTurn (size bottom top mid : Nat) : Except ChooseFault Turn := do
  let entry ← htRead mid
  if size = entry then
    return .leave (some entry)
  else if size > entry ∧ mid < htSizeSz then
    let above ← htRead (mid + 1)
    if size ≤ above then return .leave (some above) else return .again (mid + 1) top
  else if size < entry ∧ mid > 0 then
    let below ← htRead (mid - 1)
    if size ≥ below then
      if size = below then return .leave (some size) else return .leave (some entry)
    else return .again bottom (mid - 1)
  else if mid = top ∧ mid = bottom then
    return .leave none
  else
    return .again bottom top

/-- The loop with `mid` and `newsize` as they are behind it. -/
def chooseLoop (size : Nat) : Nat → Option Nat → Nat → Nat → Except ChooseFault (Option Nat × Option Nat)
  | 0, _, _, _ => .error .endless
  | fuel + 1, mid, bottom, top =>
    if bottom ≤ top then do
      let mid := (bottom + top) / 2
      match ← chooseTurn size bottom top mid with
      | .leave newsize => .ok (some mid, newsize)
      | .again bottom top => chooseLoop size fuel (some mid) bottom top
    else .ok (mid, none)

def hashChooseSize (size : UInt32) : Except ChooseFault Int := do
  let (mid, newsize) ← chooseLoop size.toNat (htSizeSz + 1) none 0 (htSizeSz - 1)
  match mid with
  | none => .error .unassigned
  | some mid =>
    let newsize ←
      if mid = 0 then (htRead 0).map some
      else if mid = htSizeSz - 1 then (htRead (htSizeSz - 1)).map some
      else pure newsize
    match newsize with
    | none => .error .unassigned
    | some newsize => .ok (toInt newsize)

end Fzsvn.Source.Datastruct
