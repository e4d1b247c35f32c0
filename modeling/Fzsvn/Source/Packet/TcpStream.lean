import Fzsvn.Source.Packet.Decode

/-!
# TCP reassembly

Embedding of the packet queues and the state machine of `network/packet/tcp_stream.c`. `pkts`
is the array that `realloc` returned: its address, and its slots. The answer of `realloc` is
an argument; the slots that it adds hold whatever the memory holds. A slot's `pkt` is a
pointer to a packet, and one that was freed or never set cannot be followed.
-/
namespace Fzsvn.Source.Packet
open Library.Block Library.MachineInt

inductive TcpFault where
  /-- The TCP header is outside the packet. -/
  | header (fault : PktFault)
  | doubleFree
  | wildPointer
  | outOfBounds
  /-- `memcpy` with a negative size or behind the end of the buffer. -/
  | badCopy
  /-- The search for a position does not end. -/
  | endless

inductive PktPtr where
  | null
  | live (pkt : Netpkt)
  | wild

structure TcpPkt where
  seq : UInt32
  len : UInt16
  off : UInt16
  pkt : PktPtr

structure TcpPktq where
  pkts : Option (Nat × List TcpPkt) := none
  npkt : UInt16 := 0
  max : UInt16 := 0
  len : UInt32 := 0
  nassembly : UInt32 := 0
  firstSeq : UInt32 := 0

inductive TcpState where
  | syn | synAck | est | fin1 | fin1Ack | fin2 | close
  deriving DecidableEq

/-- `seqacks` holds the member `seq` of each direction. -/
structure TcpStream where
  seqacks : Fin 2 → UInt32 := fun _ => 0
  pktqs : Fin 2 → TcpPktq := fun _ => {}
  state : TcpState := .syn

/-- `TCP_PKTQ_MAX`. -/
def tcpPktqMax : UInt16 := 128

/-- `TCP_PKTQ_INC`. -/
def tcpPktqInc : Nat := 16

/-- `NETPKT_HLEN`. -/
def netpktHlen (pkt : Netpkt) : Nat := (pkt.hdr2Len + pkt.hdr3Len.toUInt32 + pkt.hdr4Len).toNat

structure TcpHdr where
  seq : UInt32
  fin : Bool
  syn : Bool
  rst : Bool
  psh : Bool
  ack : Bool

/-- The header at `off`, with `seq` in host byte order. -/
def tcpHdrAt (pkt : Netpkt) (off : Nat) : Except PktFault TcpHdr := do
  let seq ← be32At pkt (off + 4)
  let flags ← byteAt pkt (off + 13)
  let flag (i : Nat) : Bool := flags.toNat.testBit i
  return { seq, fin := flag 0, syn := flag 1, rst := flag 2, psh := flag 3, ack := flag 4 }

/-- The answer of `realloc`: an address, and what the memory there holds. -/
abbrev Realloc := Option (Nat × (Nat → TcpPkt))

/-- True for 0. -/
def tcpPktqInit (q : TcpPktq) (max : Nat) (answer : Realloc) : Except TcpFault (Bool × TcpPktq) :=
  match answer with
  | none => .ok (false, q)
  | some (ptr, memory) =>
    match q.pkts with
    | none => .ok (true, { q with pkts := some (ptr, (List.range max).map memory) })
    | some (old, slots) =>
      -- A block that moved was freed by realloc already.
      if old ≠ ptr then .error .doubleFree
      else
        let slots := (List.range max).map fun i => slots[i]?.getD (memory i)
        .ok (true, { q with pkts := some (ptr, slots) })

def slotAt (q : TcpPktq) (i : Int) : Except TcpFault TcpPkt :=
  match q.pkts with
  | none => .error .outOfBounds
  | some (_, slots) =>
    if i < 0 then .error .outOfBounds
    else
      match slots[i.toNat]? with
      | none => .error .outOfBounds
      | some slot => .ok slot

/-- The search of `_tcp_pktq_find_pos`. The range from `l` to `h` gets smaller in every step
until `l` is above `h`, from where on the two never meet. -/
def findPosLoop (q : TcpPktq) (seq size : UInt32) : Nat → Int → Int → Except TcpFault Int
  | 0, _, _ => .error .endless
  | fuel + 1, l, h => do
    let m := (l + h).tdiv 2
    let pkt ← slotAt q m
    if seq > pkt.seq then
      if seq < pkt.seq + pkt.len.toUInt32 then return -1
      else if m + 1 = h then return m + 1
      else findPosLoop q seq size fuel (m + 1) h
    else if seq < pkt.seq then
      if seq + size > pkt.seq then return -1
      else if l = m - 1 then return l
      else findPosLoop q seq size fuel l (m - 1)
    else return -1

def tcpPktqFindPos (q : TcpPktq) (seq size : UInt32) : Except TcpFault Int :=
  if q.npkt = 0 then .ok 0 else findPosLoop q seq size (q.npkt.toNat + 2) 0 q.npkt.toNat

/-- The slots from `pos` on move up by one, and the slot at `pos` is set. -/
def placePkt (q : TcpPktq) (pos : Nat) (seq : UInt32) (size : Nat) (pkt : Netpkt) : Except TcpFault TcpPktq :=
  match q.pkts with
  | none => .error .outOfBounds
  | some (ptr, slots) =>
    let m := q.npkt.toNat - pos
    if 0 < m ∧ pos + 1 + m > slots.length then .error .outOfBounds
    else
      let slots := if 0 < m then overwrite slots (pos + 1) (slice slots pos m) else slots
      match slots[pos]? with
      | none => .error .outOfBounds
      | some tp =>
        -- off keeps what the memory holds.
        let tp := { tp with seq, len := UInt16.ofNat size, pkt := .live pkt }
        .ok { q with pkts := some (ptr, slots.set pos tp) }

/-- The check whether the data is in sequence. -/
def assemble (q : TcpPktq) (seq size : UInt32) : TcpPktq :=
  if q.firstSeq = seq then
    { q with nassembly := q.nassembly + 1, len := q.len + size, firstSeq := seq + size }
  else q

/-- `hdr` is the decoded `hdr4_tcp`. -/
def tcpPktqAdd (q : TcpPktq) (pkt : Netpkt) (hdr : TcpHdr) (answer : Realloc) :
    Except TcpFault (Int × TcpPktq) :=
  let n := toInt ((pkt.tail : Int) - pkt.head)
  let m := toInt (netpktHlen pkt)
  let size := n - m
  if size < 0 then .ok (-1, q)
  else if size = 0 then .ok (0, q)
  else if q.npkt ≥ tcpPktqMax then .ok (-1, q)
  else do
    let (done, q) ←
      if q.npkt = q.max then tcpPktqInit q (q.max.toNat + tcpPktqInc) answer else .ok (true, q)
    if !done then return (-1, q)
    let size := size.toNat
    let pos ← tcpPktqFindPos q hdr.seq (UInt32.ofNat size)
    if pos < 0 then return (-1, q)
    let q ← placePkt q pos.toNat hdr.seq size pkt
    let q := assemble q hdr.seq (UInt32.ofNat size)
    return (toInt q.len.toNat, q)

/-- What the loop of `_tcp_pktq_get_data` leaves: the slots, `nfree` and the buffer. -/
structure Copied where
  slots : List TcpPkt
  nfree : Nat
  buf : List UInt8

/-- The loop, with `left` rounds to go at slot `i`. False stands for the return of -1. -/
def getDataLoop (slots : List TcpPkt) : Nat → Nat → Int → Int → Nat → List UInt8 →
    Except TcpFault (Bool × Copied)
  | 0, _, _, _, nfree, buf => .ok (true, { slots, nfree, buf })
  | left + 1, i, pos, m, nfree, buf =>
    match slots[i]? with
    | none => .error .outOfBounds
    | some slot =>
      match slot.pkt with
      | .null => .ok (false, { slots, nfree, buf })
      | .wild => .error .wildPointer
      | .live pkt =>
        let len : Int := slot.len.toNat - slot.off.toNat
        let n := if m > len then len else m
        if n < 0 ∨ pos + n > buf.length then .error .badCopy
        else
          let data := slice pkt.mem (pkt.head + netpktHlen pkt + slot.off.toNat) n.toNat
          let buf := overwrite buf pos.toNat data
          if m - n = 0 then
            if n = len then .ok (true, { slots, nfree := nfree + 1, buf })
            else
              let slot := { slot with off := slot.off + UInt16.ofNat n.toNat }
              .ok (true, { slots := slots.set i slot, nfree, buf })
          else getDataLoop slots left (i + 1) (pos + len) (m - n) (nfree + 1) buf

/-- The first `nfree` packets are freed and their slots dropped. -/
def dropPkts (q : TcpPktq) (ptr : Nat) (slots : List TcpPkt) (nfree : Nat) : Except TcpFault TcpPktq :=
  let slots := (slots.take nfree).map (fun slot => { slot with pkt := .wild }) ++ slots.drop nfree
  let m := q.npkt.toNat - nfree
  let q := { q with npkt := q.npkt - UInt16.ofNat nfree
                    nassembly := q.nassembly - UInt32.ofNat nfree }
  if 0 < m then
    if nfree + m > slots.length then .error .outOfBounds
    else .ok { q with pkts := some (ptr, overwrite slots 0 (slice slots nfree m)) }
  else .ok { q with pkts := some (ptr, slots) }

/-- The buffer of the caller, and what it holds after the call. -/
def tcpPktqGetData (q : TcpPktq) (buf : List UInt8) (size : Nat) :
    Except TcpFault (Int × List UInt8 × TcpPktq) :=
  match q.pkts with
  | none => if q.nassembly = 0 then .ok (size, buf, q) else .error .outOfBounds
  | some (ptr, slots) => do
    let (done, copied) ← getDataLoop slots q.nassembly.toNat 0 0 size 0 buf
    if !done then return (-1, copied.buf, q)
    if copied.nfree > 0 then
      let q ← dropPkts q ptr copied.slots copied.nfree
      return (size, copied.buf, q)
    else return (size, copied.buf, { q with pkts := some (ptr, copied.slots) })

def tcpCheckSeq (t : TcpStream) (h : TcpHdr) (dir : Fin 2) : Bool :=
  t.seqacks dir = 0 || !(h.seq ≤ t.seqacks dir)

/-- The packet goes into the queue of its direction. -/
def queuePkt (t : TcpStream) (pkt : Netpkt) (h : TcpHdr) (dir : Fin 2) (answer : Realloc) :
    Except TcpFault (Option Int × TcpStream) := do
  let (ret, q) ← tcpPktqAdd (t.pktqs dir) pkt h answer
  return (some ret, { t with pktqs := Function.update t.pktqs dir q })

/-- No result stands for a `ret` that was never set. -/
def tcpStreamFlow (t : TcpStream) (pkt : Netpkt) (dir : Fin 2) (answer : Realloc) :
    Except TcpFault (Option Int × TcpStream) :=
  match pkt.hdr4 with
  | none => .ok (some (-1), t)
  | some off =>
    match tcpHdrAt pkt off with
    | .error fault => .error (.header fault)
    | .ok h =>
      if !tcpCheckSeq t h dir then .ok (some (-1), t)
      else if h.rst then .ok (some (-1), t)
      else
        match t.state with
        | .syn =>
          .ok (none, if dir = 1 && h.syn && h.ack then { t with state := .synAck } else t)
        | .synAck => .ok (none, if dir = 0 && h.ack then { t with state := .est } else t)
        | .est =>
          let t := if h.fin then { t with state := .fin1 } else t
          if h.psh then queuePkt t pkt h dir answer else .ok (none, t)
        | .fin1 =>
          let t := if h.ack then { t with state := .fin1Ack } else t
          let t := if h.fin then { t with state := .fin2 } else t
          if h.psh then queuePkt t pkt h dir answer else .ok (none, t)
        | .fin1Ack => .ok (none, if h.fin then { t with state := .fin2 } else t)
        | .fin2 => if h.ack then .ok (some 0, { t with state := .close }) else .ok (none, t)
        | .close => .ok (none, t)

/-- The stream that `_decode_tcp` creates for a packet that belongs to none. -/
def tcpStreamNew (h : TcpHdr) : Option TcpStream :=
  if h.syn && !h.ack && !h.fin && !h.psh && !h.rst then
    some { seqacks := Function.update (fun _ => 0) 0 h.seq }
  else none

def tcpStreamDataLen (t : TcpStream) (dir : Fin 2) : Int := toInt (t.pktqs dir).len.toNat

/-- `size` is the length of the buffer. -/
def tcpStreamGetData (t : TcpStream) (buf : List UInt8) (dir : Fin 2) :
    Except TcpFault (Int × List UInt8 × TcpStream) :=
  let size := buf.length
  if size < 1 then .ok (-1, buf, t)
  else
    let q := t.pktqs dir
    let tot := toInt (if q.len.toNat > size then size else q.len.toNat : Nat)
    if tot = 0 then .ok (0, buf, t)
    else do
      let (ret, buf, q) ← tcpPktqGetData q buf tot.toNat
      return (ret, buf, { t with pktqs := Function.update t.pktqs dir q })

end Fzsvn.Source.Packet
