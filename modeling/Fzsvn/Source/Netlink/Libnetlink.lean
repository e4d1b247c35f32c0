import Fzsvn.Library.Block
import Fzsvn.Library.LittleEndian
import Fzsvn.Library.MachineInt

/-!
# Netlink attributes

Embedding of `rtnl_add_attr` and `rtnl_parse_attr` of `network/netlink/libnetlink.c`, with
the macros of `linux/netlink.h` and `linux/rtnetlink.h` that they use. A message is the
bytes of its buffer, `nlmsg_len` being the first four, and a pointer into it is an offset.
The fields of `struct rtattr` are `rta_len` and `rta_type`, of 16 bits each. The pointer
arguments are not NULL.
-/
namespace Fzsvn.Source.Netlink
open Library.Block Library.LittleEndian Library.MachineInt

inductive Fault where
  | outOfBounds
  | outOfFuel
  deriving DecidableEq

def load (bytes : List UInt8) (pos len : Nat) : Except Fault (List UInt8) :=
  if pos + len ≤ bytes.length then .ok (slice bytes pos len) else .error .outOfBounds

def store (bytes : List UInt8) (pos : Nat) (data : List UInt8) : Except Fault (List UInt8) :=
  if pos + data.length ≤ bytes.length then .ok (overwrite bytes pos data) else .error .outOfBounds

/-- `nlh->nlmsg_len` -/
def nlmsgLen (bytes : List UInt8) : Nat := (word32 (slice bytes 0 4)).toNat

/-- `NLMSG_ALIGN`, of a `__u32`. -/
def nlmsgAlign (len : Nat) : Nat := (len + 3) % 2 ^ 32 / 4 * 4

/-- `RTA_ALIGN`, of a length that has 16 bits. -/
def rtaAlign (len : Nat) : Nat := (len + 3) / 4 * 4

/-- `sizeof(struct rtattr)` -/
def rtattrSize : Nat := 4

/-- `RTA_LENGTH` -/
def rtaLength (len : Nat) : Nat := toSize (rtaAlign rtattrSize + len)

/-! ## Adding an attribute -/

/-- Whether 0 is returned, and the message. -/
def rtnlAddAttr (bytes : List UInt8) (len : Nat) (type : Int) (data : List UInt8) :
    Except Fault (Bool × List UInt8) := do
  let dlen := data.length
  let alen := toInt (rtaLength dlen)
  if toSize (nlmsgAlign (nlmsgLen bytes) + dlen) > len then
    return (false, bytes)
  let rta := nlmsgAlign (nlmsgLen bytes)
  let bytes ← store bytes (rta + 2) (bytes16 (.ofInt type))
  let bytes ← store bytes rta (bytes16 (.ofNat dlen))
  let bytes ← (if dlen > 0 then store bytes (rta + rtattrSize) data else .ok bytes)
  let bytes ← store bytes 0 (bytes32 (.ofInt (nlmsgAlign (nlmsgLen bytes) + alen)))
  return (true, bytes)

/-! ## Parsing the attributes -/

/-- `rta->rta_len` -/
def rtaLen (bytes : List UInt8) (rta : Nat) : Except Fault Nat := do
  return (word16 (← load bytes rta 2)).toNat

/-- `rta->rta_type` -/
def rtaType (bytes : List UInt8) (rta : Nat) : Except Fault Nat := do
  return (word16 (← load bytes (rta + 2) 2)).toNat

/-- `RTA_OK` -/
def rtaOk (bytes : List UInt8) (rta len : Nat) : Except Fault Bool := do
  if len ≥ rtattrSize then
    let rtaLen ← rtaLen bytes rta
    return decide (rtaLen ≥ rtattrSize ∧ rtaLen ≤ len)
  else
    return false

/-- The turns of the loop: the assignments to `rtb`, each the type and the attribute. -/
def parseLoop (bytes : List UInt8) (nrtb : Int) : Nat → Nat → Nat → Except Fault (List (Nat × Nat))
  | 0, _, _ => .error .outOfFuel
  | fuel + 1, rta, len => do
    if ← rtaOk bytes rta len then
      let type ← rtaType bytes rta
      -- `RTA_NEXT`; `len` is unsigned and may wrap around.
      let next := rtaAlign (← rtaLen bytes rta)
      let rest ← parseLoop bytes nrtb fuel (rta + next) (toSize (len - next))
      return if (type : Int) ≤ nrtb then (type, rta) :: rest else rest
    else
      return []

/-- The assignments to `rtb`, in their order. Each turn goes on by at least four bytes. -/
def rtnlParseAttr (bytes : List UInt8) (nrtb : Int) (rta len : Nat) : Except Fault (List (Nat × Nat)) :=
  parseLoop bytes nrtb (bytes.length + 1) rta len

/-- `RTA_DATA`, as long as `RTA_PAYLOAD` says. -/
def rtaData (bytes : List UInt8) (rta : Nat) : Except Fault (List UInt8) := do
  let rtaLen ← rtaLen bytes rta
  load bytes (rta + rtattrSize) (rtaLen - rtattrSize)

end Fzsvn.Source.Netlink
