import Fzsvn.Library.Block
import Mathlib.Algebra.Group.Nat.Defs

/-!
# The character device of `scull.c`

One device of a 64-bit kernel and its open descriptors `D`. Copies from and to the user succeed,
and one beside the data is a fault. An offset is not negative; the functions give its new value.
-/
namespace Fzsvn.Source.Kernel.Scull

open Function (update)
open Library.Block

inductive Fault where
  | outOfBounds

/-- `SCULL_QUANTUM` -/
def scullQuantum : Nat := 1024

/-- `ENOMEM` -/
def enomem : Int := 12

structure ScullDev where
  data : List UInt8
  size : Nat

/-- A device after `memset` and `scull_dev_clear` -/
def scullDevClear : ScullDev := ⟨List.replicate scullQuantum 0, 0⟩

/-- `scull_open`, write-only or not -/
def scullOpen (wronly : Bool) (dev : ScullDev) : ScullDev := if wronly then scullDevClear else dev

/-- `scull_read`, with what is copied to the user -/
def scullRead (dev : ScullDev) (len offset : Nat) : Except Fault (Int × Nat × List UInt8) := do
  if dev.size ≤ offset then return (0, offset, [])
  let nreads := if dev.size ≤ (offset + len) % 2 ^ 64 then dev.size - offset else len
  if dev.data.length < offset + nreads then throw .outOfBounds
  return (nreads, offset + nreads, slice dev.data offset nreads)

/-- `scull_write`, with the device afterwards -/
def scullWrite (dev : ScullDev) (buf : List UInt8) (offset : Nat) :
    Except Fault (Int × Nat × ScullDev) := do
  if scullQuantum ≤ offset then return (-enomem, offset, dev)
  let nwrites := if scullQuantum ≤ (offset + buf.length) % 2 ^ 64 then scullQuantum - offset else buf.length
  if dev.data.length < offset + nwrites then throw .outOfBounds
  return (nwrites, offset + nwrites, ⟨overwrite dev.data offset (buf.take nwrites), max (offset + nwrites) dev.size⟩)

inductive Event (D : Type) where
  | open (d : D) (wronly : Bool)
  | seek (d : D) (offset : Nat)
  | read (d : D) (len : Nat)
  | write (d : D) (buf : List UInt8)

variable {D : Type} [DecidableEq D]

/-- What an event returns, and what is copied to the user -/
abbrev Reply := Int × List UInt8

/-- An event at the device and the offsets -/
def step (s : ScullDev × (D → Nat)) : Event D → Except Fault ((ScullDev × (D → Nat)) × Reply)
  | .open d wronly => return ((scullOpen wronly s.1, update s.2 d 0), 0, [])
  | .seek d offset => return ((s.1, update s.2 d offset), offset, [])
  | .read d len => do
    let (n, offset, bytes) ← scullRead s.1 len (s.2 d)
    return ((s.1, update s.2 d offset), n, bytes)
  | .write d buf => do
    let (n, offset, dev) ← scullWrite s.1 buf (s.2 d)
    return ((dev, update s.2 d offset), n, [])

end Fzsvn.Source.Kernel.Scull
