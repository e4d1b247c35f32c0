import Fzsvn.Library.BigEndian
import Fzsvn.Library.Block
import Fzsvn.Library.MachineInt

/-!
# Bounded string functions

The functions of `str_util.c`. A pointer is not `NULL` and stands for the bytes from it to the
end of its object; it goes with a size of its own. An access behind the object is a fault. A
pointer that is returned is an index, `NULL` is `none`, and `char` is signed.
-/
namespace Fzsvn.Source.Stdext.StrUtil

open Library.BigEndian Library.Block Library.MachineInt

inductive Fault where
  | outOfBounds
  | outOfFuel

def load (mem : List UInt8) (p : Nat) : Except Fault UInt8 :=
  match mem[p]? with
  | some c => .ok c
  | none => .error .outOfBounds

/-- `STR_GET_TAIL`, where `p` is `left` bytes in front of the end: `*p` is read before `p` is
compared with the end. -/
def strTail (str : List UInt8) : (left p : Nat) → Except Fault Nat
  | 0, p => do
    let _ ← load str p
    return p
  | left + 1, p => do
    let c ← load str p
    if c = 0 then return p else strTail str left (p + 1)

/-- `str_len` -/
def strLen (str : List UInt8) (siz : Nat) : Except Fault Int := do
  if siz < 1 then return -1
  let p ← strTail str siz 0
  return toInt p

/-- `n` bytes copied to `dst + p`, and the NUL behind them -/
def copyEnd (src : List UInt8) (n : Nat) (dst : List UInt8) (p : Nat) : Except Fault (List UInt8) :=
  if n ≤ src.length ∧ p + n < dst.length then return overwrite dst p (src.take n ++ [0])
  else throw .outOfBounds

/-- `str_copy`, with `dst` after the call -/
def strCopy (src : List UInt8) (ssiz : Nat) (dst : List UInt8) (dsiz : Nat) :
    Except Fault (Int × List UInt8) := do
  if dsiz < 1 ∨ ssiz < 1 then return (-1, dst)
  let n ← strTail src ssiz 0
  if dsiz ≤ n then return (-1, dst)
  let dst ← copyEnd src n dst 0
  return (toInt n, dst)

/-- `str_cat`, with `dst` after the call -/
def strCat (src : List UInt8) (ssiz : Nat) (dst : List UInt8) (dsiz : Nat) :
    Except Fault (Int × List UInt8) := do
  let p ← strTail dst dsiz 0
  if p = dsiz then return (-1, dst)
  let n ← strTail src ssiz 0
  if dsiz - (p + 1) < n then return (-1, dst)
  let dst ← copyEnd src n dst p
  return (toInt n, dst)

/-- `str_cmp`, where `same` says that the pointers are equal -/
def strCmp (same : Bool) (str1 : List UInt8) (siz1 : Nat) (str2 : List UInt8) (siz2 : Nat) :
    Except Fault Int := do
  if siz1 < 1 ∨ siz2 < 1 then return -1
  if same ∧ siz1 = siz2 then return 0
  let n1 ← strTail str1 siz1 0
  let n2 ← strTail str2 siz2 0
  let n := min n1 n2
  if str1.length < n ∨ str2.length < n then throw .outOfBounds
  let ret := memcmp (str1.take n) (str2.take n)
  return if ret = 0 then toInt (n1 - n2) else ret

/-- `do … while` over the positions `ps` -/
def scan (test : Nat → Except Fault Bool) : (ps : List Nat) → Except Fault (Option Nat)
  | [] => return none
  | p :: ps => do
    if ← test p then return some p else scan test ps

def testChar (str : List UInt8) (test : Int → Bool) (p : Nat) : Except Fault Bool := do
  let c ← load str p
  return test c.toInt8.toInt

def find (test : Int → Bool) (str : List UInt8) (siz : Nat) : Except Fault (Option Nat) := do
  if siz < 1 then return none
  let p ← strTail str siz 0
  scan (testChar str test) (List.range (max p 1))

def findBack (test : Int → Bool) (str : List UInt8) (siz : Nat) : Except Fault (Option Nat) := do
  if siz < 1 then return none
  let p ← strTail str siz 0
  scan (testChar str test) (List.range (p + 1)).reverse

/-- `str_chr` -/
def strChr (str : List UInt8) (siz : Nat) (c : Int) := find (· = c) str siz

/-- `str_rchr` -/
def strRchr (str : List UInt8) (siz : Nat) (c : Int) := findBack (· = c) str siz

/-- `str_find1` -/
def strFind1 (str : List UInt8) (siz : Nat) (func : Int → Int) := find (func · ≠ 0) str siz

/-- `str_rfind1` -/
def strRfind1 (str : List UInt8) (siz : Nat) (func : Int → Int) := findBack (0 < func ·) str siz

def toLower (c : UInt8) : UInt8 := if 65 ≤ c ∧ c ≤ 90 then c + 32 else c

/-- Whether `strncmp`, or `strncasecmp` with another `fold`, gives 0 -/
def strncmpEq (fold : UInt8 → UInt8) (str pat : List UInt8) : (n p q : Nat) → Except Fault Bool
  | 0, _, _ => return true
  | n + 1, p, q => do
    let a ← load str p
    let b ← load pat q
    if fold a ≠ fold b then return false
    if a = 0 then return true
    strncmpEq fold str pat n (p + 1) (q + 1)

/-- `cmp_func` -/
def folding (caseSens : Bool) : UInt8 → UInt8 := if caseSens then id else toLower

/-- What `str_str` and `str_rstr` share; `ps` are the positions up to the last in the order in
which they are tried -/
def search (ps : Nat → List Nat) (str : List UInt8) (siz : Nat) (pat : List UInt8) (psiz : Nat)
    (caseSens : Bool) : Except Fault (Option Nat) := do
  if siz < 1 ∨ psiz < 1 then return none
  let n ← strTail str siz 0
  let m ← strTail pat psiz 0
  if n < m then return none
  scan (fun p => strncmpEq (folding caseSens) str pat m p 0) (ps (n - m))

/-- `str_str` -/
def strStr := search fun last => List.range (last + 1)

/-- `str_rstr` -/
def strRstr := search fun last => (List.range (last + 1)).reverse

/-- The loops of `str_token`: how far the first delimiter is, if there is one -/
def tokenEnd (delim : List UInt8) : List UInt8 → Except Fault (Option Nat)
  | [] => throw .outOfBounds
  | c :: rest => do
    if c = 0 then return none
    if c ∈ delim.takeWhile (· ≠ 0) then return some 0
    return (← tokenEnd delim rest).map (· + 1)

/-- `str_token` on the string `mem`, or on `NULL` if it is not the first call; what is
returned, `*off` and the string after the call -/
def strToken (siz : Nat) (delim : List UInt8) (first : Bool) (off : Option Nat) (mem : List UInt8) :
    Except Fault (Option Nat × Option Nat × List UInt8) := do
  if siz < 1 ∨ delim.length < 1 then return (none, off, mem)
  let start ← if first then do
      -- the search for the end leaves `p` there
      let p ← strTail mem siz 0
      pure (if p = siz then none else some (p, 0))
    else pure (off.map fun p => (p, p))
  match start with
  | none => return (none, off, mem)
  | some (p, ptr) =>
    match ← tokenEnd delim (mem.drop p) with
    | some n => return (some ptr, some (p + n + 1), mem.set (p + n) 0)
    | none => return (if first then some 0 else none, none, mem)

/-- The strings that repeated calls return until they return `NULL` -/
def strTokens (siz : Nat) (delim : List UInt8) :
    Nat → Bool → Option Nat → List UInt8 → Except Fault (List (List UInt8))
  | 0, _, _, _ => throw .outOfFuel
  | fuel + 1, first, off, mem => do
    let (ptr, off, mem) ← strToken siz delim first off mem
    match ptr with
    | none => return []
    | some p =>
      let rest ← strTokens siz delim fuel false off mem
      return (mem.drop p).takeWhile (· ≠ 0) :: rest

end Fzsvn.Source.Stdext.StrUtil
