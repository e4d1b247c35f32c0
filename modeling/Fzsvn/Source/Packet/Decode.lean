import Fzsvn.Library.Fallible
import Fzsvn.Source.Packet.Netpkt

/-!
# Header decoders

Embedding of `eth_decode`, `ipv4_decode`, `ipv4_cksum`, `ipv6_decode` and `tcp_decode`
(`network/packet/packet_*.c`). A decoder reads the packet through `byteAt`; a read outside
`head … tail` is a fault, and so is an `int` that overflows. `.ok ()` stands for 0 and
`.error text` for -1 after printing the text; `pkt` itself is never `NULL` here.
-/
namespace Fzsvn.Source.Packet
open Library.Fallible Library.MachineInt

abbrev Answer := Except String Unit

def byteAt (pkt : Netpkt) (off : Nat) : Except PktFault UInt8 :=
  if off < pkt.tail - pkt.head then
    match pkt.mem[pkt.head + off]? with
    | some byte => .ok byte
    | none => .error .outOfBounds
  else .error .outOfBounds

lemma byteAt_inside {pkt : Netpkt} {off : Nat} {byte : UInt8} (read : byteAt pkt off = .ok byte) :
    off < pkt.tail - pkt.head := by
  by_contra outside
  simp [byteAt, outside] at read

/-- `ntohs` of the two bytes at `off`. -/
def be16At (pkt : Netpkt) (off : Nat) : Except PktFault UInt16 := do
  let high ← byteAt pkt off
  let low ← byteAt pkt (off + 1)
  return high.toUInt16 <<< 8 ||| low.toUInt16

/-- `ntohl` of the four bytes at `off`. -/
def be32At (pkt : Netpkt) (off : Nat) : Except PktFault UInt32 := do
  let high ← be16At pkt off
  let low ← be16At pkt (off + 2)
  return high.toUInt32 <<< 16 ||| low.toUInt32

/-- The four bytes at `off` as the host loads them. -/
def le32At (pkt : Netpkt) (off : Nat) : Except PktFault UInt32 := do
  let b0 ← byteAt pkt off
  let b1 ← byteAt pkt (off + 1)
  let b2 ← byteAt pkt (off + 2)
  let b3 ← byteAt pkt (off + 3)
  return UInt32.ofNat (b0.toNat + b1.toNat * 2 ^ 8 + b2.toNat * 2 ^ 16 + b3.toNat * 2 ^ 24)

def ethHlen : Nat := 14
def ethertypeVlan : UInt32 := 0x8100
def ethertypeIp : UInt32 := 0x0800
def ethertypeIpv6 : UInt32 := 0x86dd
def ipprotoHopopts : UInt8 := 0
def ipprotoTcp : UInt32 := 6
def ipprotoRouting : UInt8 := 43
def ipprotoFragment : UInt8 := 44
def ipprotoDstopts : UInt8 := 60
def ipprotoMh : UInt8 := 135
def ipv4Hlen : UInt16 := 20

def ethDecode (pkt : Netpkt) : Except PktFault (Answer × Netpkt) :=
  if pkt.null then .ok (.error "no data in packet\n", pkt)
  else
    let n := toInt ((pkt.tail : Int) - pkt.head)
    if n < ethHlen then .ok (.error "invalid ether header\n", pkt)
    else do
      let etherType ← be16At pkt 12
      let pkt := { pkt with eth := some 0, hdr2Len := 14, hdr3Type := etherType.toUInt32 }
      if pkt.hdr3Type = ethertypeVlan then
        let vlan ← be16At pkt ethHlen
        let type ← be16At pkt (ethHlen + 2)
        return (.ok (), { pkt with
          vlanCfi := (vlan >>> 12) &&& 0x1
          vlanPcp := (vlan >>> 13) &&& 0x7
          vlanVid := vlan &&& 0xfff
          hdr3Type := type.toUInt32
          hdr2Len := pkt.hdr2Len + 4 })
      else return (.ok (), pkt)

def ipv4Decode (pkt : Netpkt) : Except PktFault (Answer × Netpkt) :=
  if pkt.hdr3Type ≠ ethertypeIp then .ok (.error "not IPv4 header\n", pkt)
  else if pkt.null then .ok (.error "no data in packet\n", pkt)
  else
    let n := toInt ((pkt.tail : Int) - pkt.head)
    let m : Int := pkt.hdr2Len.toNat
    -- the difference is an `int`, `sizeof(struct iphdr)` a `size_t`
    if toSize (n - m) < 20 then .ok (.error "invalid IPv4 header\n", pkt)
    else do
      let first ← byteAt pkt pkt.hdr2Len.toNat
      let pkt := { pkt with
        hdr3 := some pkt.hdr2Len.toNat
        hdr3Len := (first &&& 0xf).toUInt16 * 4 }
      if pkt.hdr3Len < ipv4Hlen then return (.error "ip header length is too small\n", pkt)
      else
        let protocol ← byteAt pkt (pkt.hdr2Len.toNat + 9)
        return (.ok (), { pkt with hdr4Type := protocol.toUInt32 })

def ipv4Cksum (w : List UInt16) : Int :=
  let len := w.length
  if len < 10 ∨ len > 30 ∨ len % 2 ≠ 0 then -1
  else
    let cksum := w.foldl (fun cksum word => cksum + word.toUInt32) 0
    let cksum := (cksum >>> 16) + (cksum &&& 0x0000ffff)
    let cksum := cksum + (cksum >>> 16)
    (~~~cksum).toUInt16.toNat

def ip6hdrIsExt (type : UInt8) : Bool :=
  type == ipprotoHopopts || type == ipprotoRouting || type == ipprotoFragment ||
    type == ipprotoDstopts || type == ipprotoMh

/-- The sum of two `int`s that are not negative. -/
def addInt (a b : Nat) : Except PktFault Nat :=
  if a + b < 2 ^ 31 then .ok (a + b) else .error .overflow

lemma yields_addInt {a b : Nat} {post : Nat → Prop} :
    Yields (addInt a b) post ↔ a + b < 2 ^ 31 ∧ post (a + b) := by
  by_cases fits : a + b < 2 ^ 31
  · rw [addInt, if_pos fits, yields_ok, and_iff_right fits]
  · rw [addInt, if_neg fits]
    exact iff_of_false (yields_error _) fun both => fits both.1

/-- The body of the loop over the extension headers. -/
def ipv6Ext (pkt : Netpkt) (n m : Nat) : Except PktFault (Netpkt × UInt8 × Nat) := do
  let nexthdr ← byteAt pkt (n + m)
  if nexthdr = ipprotoFragment then
    let fragId ← be32At pkt (n + 4)
    let fragOff ← be16At pkt (n + 2)
    let m ← addInt m 8
    return ({ pkt with fragId, fragOff }, nexthdr, m)
  else
    let len ← byteAt pkt (n + m + 1)
    let m ← addInt m (8 + len.toNat * 8)
    return (pkt, nexthdr, m)

/-- A round of the loop reads at its position and goes at least eight bytes further. -/
lemma ipv6Ext_advances {pkt pkt' : Netpkt} {n m m' : Nat} {nexthdr : UInt8}
    (ran : ipv6Ext pkt n m = .ok (pkt', nexthdr, m')) :
    n + m < pkt.tail - pkt.head ∧ m + 8 ≤ m' ∧ pkt'.tail - pkt'.head = pkt.tail - pkt.head := by
  simp only [ipv6Ext, eq_ok_iff, yields_bind, yields_ite, yields_addInt, yields_pure,
    Prod.mk.injEq] at ran
  obtain ⟨next, read, fragment, other⟩ := ran
  refine ⟨byteAt_inside read, ?_⟩
  by_cases last : next = ipprotoFragment
  · obtain ⟨fragId, -, fragOff, -, -, rfl, -, rfl⟩ := fragment last
    exact ⟨Nat.le_refl _, rfl⟩
  · obtain ⟨len, -, -, rfl, -, rfl⟩ := other last
    exact ⟨by omega, rfl⟩

def ipv6Exts (pkt : Netpkt) (n : Nat) (nexthdr : UInt8) (m : Nat) : Except PktFault (Netpkt × UInt8 × Nat) :=
  if ip6hdrIsExt nexthdr then
    match ran : ipv6Ext pkt n m with
    | .error fault => .error fault
    | .ok (pkt', nexthdr', m') =>
      have := ipv6Ext_advances ran
      ipv6Exts pkt' n nexthdr' m'
  else .ok (pkt, nexthdr, m)
termination_by pkt.tail - pkt.head - m
decreasing_by omega

def ipv6Decode (pkt : Netpkt) : Except PktFault (Answer × Netpkt) :=
  if pkt.null then .ok (.error "not data in packet\n", pkt)
  else if pkt.hdr3Type ≠ ethertypeIpv6 then .ok (.error "hdr3 type is not IPv6\n", pkt)
  else do
    let n := pkt.hdr2Len.toNat
    let pkt := { pkt with hdr3 := some n, hdr3Len := 40 }
    let flow ← le32At pkt n
    if (flow &&& 0xff) >>> 4 ≠ 6 then return (.error "invalid IPv6 header version\n", pkt)
    else
      let nxt ← byteAt pkt (n + 6)
      let (pkt, nexthdr, m) ← ipv6Exts pkt (n + 40) nxt 0
      let len ← addInt 40 m
      return (.ok (), { pkt with hdr3Len := UInt16.ofNat len, hdr4Type := nexthdr.toUInt32 })

def tcpDecode (pkt : Netpkt) : Except PktFault (Answer × Netpkt) :=
  if pkt.hdr4Type ≠ ipprotoTcp then .ok (.error "not TCP packet\n", pkt)
  else if pkt.null then .ok (.error "no data in packet\n", pkt)
  else do
    let n := pkt.hdr2Len.toNat + pkt.hdr3Len.toNat
    let doff ← byteAt pkt (n + 12)
    return (.ok (), { pkt with hdr4 := some n, hdr4Len := (doff >>> 4).toUInt32 * 4 })

end Fzsvn.Source.Packet
