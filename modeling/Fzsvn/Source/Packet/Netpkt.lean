import Fzsvn.Library.Block
import Fzsvn.Library.MachineInt

/-!
# Packet buffer

Embedding of `network/packet/netpkt.h`. The memory between `start` and `end` is a block and
the cursors are offsets into it. Header pointers are offsets from `head`. An `int` that
takes a pointer difference keeps its low 32 bits, and a comparison with a `size_t` is one
of unsigned 64-bit numbers.
-/
namespace Fzsvn.Source.Packet
open Library.Block Library.MachineInt

structure Netpkt where
  mem : List UInt8
  head : Nat
  tail : Nat
  /-- There is no memory: the cursors are `NULL`. -/
  null : Bool := false
  eth : Option Nat := none
  hdr2Len : UInt32 := 0
  vlanPcp : UInt16 := 0
  vlanCfi : UInt16 := 0
  vlanVid : UInt16 := 0
  hdr3Type : UInt32 := 0
  hdr3 : Option Nat := none
  fragId : UInt32 := 0
  fragOff : UInt16 := 0
  hdr3Len : UInt16 := 0
  hdr4Type : UInt32 := 0
  hdr4 : Option Nat := none
  hdr4Len : UInt32 := 0

inductive PktFault where
  | outOfBounds
  | overflow

/-- `mem` is what `data` points to. -/
def netpktInit (mem : List UInt8) : Netpkt := { mem, head := 0, tail := 0 }

def netpktHeadroom (pkt : Netpkt) : Int := toInt pkt.head

def netpktTailroom (pkt : Netpkt) : Int := toInt (pkt.mem.length - pkt.tail)

def netpktReserve (pkt : Netpkt) (len : Int32) : Except PktFault (Int × Netpkt) :=
  let len := len.toInt
  if len < 1 then .ok (-1, pkt)
  else
    let headroom := netpktHeadroom pkt
    if headroom < 0 then .ok (-1, pkt)
    else if headroom ≥ len then .ok (0, pkt)
    else
      let tailroom := netpktTailroom pkt
      if tailroom < 0 then .ok (-1, pkt)
      else if len > toInt (headroom + tailroom) then .ok (-1, pkt)
      else if pkt.tail = pkt.head then .ok (0, { pkt with head := len.toNat })
      else
        let m := toInt ((pkt.tail : Int) - pkt.head)
        if m < 1 then .ok (-1, pkt)
        else
          let n := (len - headroom).toNat
          let m := m.toNat
          -- memmove
          if pkt.head + n + m ≤ pkt.mem.length then
            .ok (0, { pkt with
              mem := overwrite pkt.mem pkt.head (slice pkt.mem (pkt.head + n) m)
              head := pkt.head + n
              tail := pkt.tail + n })
          else .error .outOfBounds

/-- `buf` is `none` for `NULL`, and otherwise the `len` bytes it points to. -/
def netpktPushData (pkt : Netpkt) (buf : Option (List UInt8)) : Except PktFault (Int × Netpkt) :=
  match buf with
  | none => .ok (-1, pkt)
  | some buf =>
    if buf.length < 1 then .ok (-1, pkt)
    else if buf.length ≥ toSize (netpktHeadroom pkt) then .ok (-1, pkt)
    else if buf.length ≤ pkt.head ∧ pkt.head ≤ pkt.mem.length then
      .ok (0, { pkt with
        head := pkt.head - buf.length
        mem := overwrite pkt.mem (pkt.head - buf.length) buf })
    else .error .outOfBounds

def netpktAddData (pkt : Netpkt) (buf : Option (List UInt8)) : Except PktFault (Int × Netpkt) :=
  match buf with
  | none => .ok (-1, pkt)
  | some buf =>
    if buf.length < 1 then .ok (-1, pkt)
    else if buf.length > toSize (netpktTailroom pkt) then .ok (-1, pkt)
    else if pkt.tail + buf.length ≤ pkt.mem.length then
      .ok (0, { pkt with
        mem := overwrite pkt.mem pkt.tail buf
        tail := pkt.tail + buf.length })
    else .error .outOfBounds

end Fzsvn.Source.Packet
