import Fzsvn.Library.MachineInt

/-!
# Algorithms on arrays

`bin_search` of `bsearch.c`, `kth_array` and `kth_sort` of `kth.c`, `maxsubseqsum_n2` of
`maxsubseqsum.c`. Pointers are not `NULL` and elements have at least one byte, so that an
array is the list of its elements. An access beside it is a fault, as is an index that
overflows. A comparison gives a negative number, zero or a positive one; `malloc` says
whether there is memory, and `none` stands for the -1 of a function that stores its result.
-/
namespace Fzsvn.Source.Algorithm

open Library.MachineInt

inductive Fault where
  | outOfBounds
  | overflow
  | outOfFuel

variable {α : Type} (cmp : α → α → Int) (array : List α)

/-- `array + i * objsize` -/
def element (i : Int) : Except Fault α :=
  match if 0 ≤ i then array[i.toNat]? else none with
  | some x => .ok x
  | none => .error .outOfBounds

def binSearchLoop (val : α) : Nat → Int → Int → Except Fault (Option Int)
  | 0, _, _ => .error .outOfFuel
  | fuel + 1, low, high =>
    if low < high then do
      let mid := (toInt (high + low)).tdiv 2
      let x ← element array mid
      if cmp val x < 0 then binSearchLoop val fuel low (mid - 1)
      else if 0 < cmp val x then binSearchLoop val fuel (mid + 1) high
      else return some mid
    else return none

/-- `bin_search`, with the index of the element that it returns -/
def binSearch (val : α) : Except Fault (Option Int) :=
  if array.length < 1 then return none
  else binSearchLoop cmp array val (array.length + 1) 0 (toInt (array.length - 1))

/-- `for (; i < n; i++)` with an `int` as `i`, where `left` turns remain -/
def forLoop {σ : Type} (body : Nat → σ → Except Fault σ) : (left i : Nat) → σ → Except Fault σ
  | 0, _, s => return s
  | left + 1, i, s => do
    let s ← body i s
    if i + 1 < 2 ^ 31 then forLoop body left (i + 1) s else throw .overflow

/-- `kth_array` -/
def kthArray (qsort : List α → List α) (malloc : Bool) (k : Int) : Except Fault (Option α) := do
  if k < 0 ∨ array.length < k ∨ malloc = false then return none
  let karray ← forLoop (fun i karray => do
      let x ← element array i
      let last ← element karray (k - 1)
      return if cmp x last < 0 then qsort (karray.set (k - 1).toNat x) else karray)
    (array.length - k.toNat) k.toNat (qsort (array.take k.toNat))
  let x ← element karray (k - 1)
  return some x

/-- `kth_sort` -/
def kthSort (qsort : List α → List α) (malloc : Bool) (k : Int) : Except Fault (Option α) := do
  if k < 0 ∨ array.length < k ∨ malloc = false then return none
  let x ← element (qsort array) (k - 1)
  return some x

/-- The inner loop of `maxsubseqsum_n2`, with the sum so far and the largest one -/
def extendSum (arr : List Int) (j : Nat) (s : Int × Int) : Except Fault (Int × Int) := do
  let x ← element arr j
  return (s.1 + x, if s.2 < s.1 + x then s.1 + x else s.2)

/-- `maxsubseqsum_n2` for integers -/
def maxsubseqsumN2 (malloc : Bool) (arr : List Int) : Except Fault (Option Int) := do
  if arr.length < 1 ∨ malloc = false then return none
  let ret ← element arr 0
  let ret ← forLoop (fun i ret => do
    let s ← forLoop (extendSum arr) (arr.length - i) i (0, ret)
    return s.2) arr.length 0 ret
  return some ret

end Fzsvn.Source.Algorithm
