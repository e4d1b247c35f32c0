import Fzsvn.Library.MachineInt
import Fzsvn.Source.Proxy.State

/-!
# Connections

Embedding of `proxy/utils/connection.c`. A callback's early exits become early
returns; the code behind its `err_free` label is `errFree`, except in
`conn_send_data`, whose label does something else.
-/
namespace Fzsvn.Source.Proxy
open Library.Exec Library.MachineInt

/-! ## Packet lists -/

namespace Session

/-- The counter is an `int`. -/
@[simps]
def setAlloced (x : Session) (n : Int) : Session := { x with nalloced := toInt n }

/-- A packet from the pool, linked at the tail of `in`. -/
def allocPacket (x : Session) (d : Dir) : Session :=
  (x.setConn d { x.conns d with input := (x.conns d).input ++ [.init] }).setAlloced
    (x.nalloced + 1)

/-- The packet at `i` unlinked from `in` and returned to the pool. -/
def freePacket (x : Session) (d : Dir) (i : Nat) : Session :=
  (x.setConn d { x.conns d with input := (x.conns d).input.eraseIdx i }).setAlloced
    (x.nalloced - 1)

/-- The bytes of a raw receive, stored in the packet at `i`. On a plain socket they
leave the kernel's buffer. -/
def storeBytes (x : Session) (d : Dir) (i : Nat) (bytes : List UInt8) : Session :=
  let c := x.conns d
  x.setConn d { c with
    input := c.input.modify i (·.fill bytes)
    sock := { c.sock with
      rx := if c.ssl.isSome then c.sock.rx else c.sock.rx.drop bytes.length
      received := c.sock.received ++ bytes } }

end Session

/-! ## `conn_free` -/

def dropPackets (x : Session) (d : Dir) : Session :=
  let c := x.conns d
  (x.setConn d { c with input := [], output := [] }).setAlloced
    (x.nalloced - c.input.length - c.output.length)

def connFree (s : Nat) (d : Dir) : Run Unit := do
  let x ← session s
  require (x.worker = true)
  modifySession s (dropPackets · d)
  let fd := (x.conns d).fd
  onlyIf (fd > 0) do
    let i ← itemOf fd
    writeItem i fun _ => .zero
    closeFd s fd.toNat
    modifyConn s d ({ · with fd := -1 })
  modifyConn s d (setKind · .none)

/-! ## `conn_recv_data` -/

/-- The answers to one pass through the receive loop, and whether `SSL_pending` sends
it round again. -/
inductive RecvRun where
  | last (io : RecvIO)
  | pending (io : RecvIO) (rest : RecvRun)
  deriving Repr

/-- The packet the receive loop continues to fill, if it is not full.
`CBLIST_GET_TAIL` takes it from `(lh)->n`: it is the first packet, not the last. -/
def recvSlot (input : List Packet) : Option Nat :=
  match input.head? with
  | none => none
  | some p => if p.full then none else some 0

/-- The index of the packet to receive into. -/
def takeSlot (alloc : Bool) (s : Nat) (d : Dir) : Run (Option Nat) := do
  let c ← conn s d
  match recvSlot c.input with
  | some i => return some i
  | none =>
    if alloc = false then return none
    modifySession s (·.allocPacket d)
    return some c.input.length

def slotSpace (input : List Packet) (i : Nat) : Nat :=
  match input[i]? with
  | some p => p.space
  | none => 0

/-- Lines 174 to 184: the peer may have asked for a renegotiation. -/
def recvHandshake (raw : RawRecv) (fd : Int) (s : Nat) (d : Dir) : Run Bool := do
  if raw.handshake = false then return true
  modifyFlags s d ({ · with sslHsk := true })
  let ret ← addEvent fd fdOut (some .connHandshake)
  return ret = 0

/-- Lines 190 to 206: the event to wait for once the peer has shut down its side. -/
def recvCloseEvent (fd : Int) (s : Nat) (d : Dir) : Run Int := do
  let c ← conn s d
  match c.ssl with
  | some _ =>
    modifyFlags s d ({ · with sslShut := true })
    addEvent fd fdOut (some .connShutdown)
  | none => addEvent fd 0#32 none

/-- Lines 186 to 216: end of stream, or the event says that the peer has shut down. -/
def recvClose (raw : RawRecv) (fd : Int) (events : Mask) (s : Nat) (d : Dir) (i : Nat) : Run Bool := do
  if raw.closed = false ∧ events.has epollRdHup = false then return true
  modifyFlags s d ({ · with shutRd := true })
  let ret ← recvCloseEvent fd s d
  if ret ≠ 0 then return false
  let c ← conn s d
  onlyIf ((c.input[i]?).map Packet.len = some 0) (modifySession s (·.freePacket d i))
  return true

/-- What follows a successful raw receive; `false` is `goto err_free`. -/
def recvAfter (raw : RawRecv) (fd : Int) (events : Mask) (s : Nat) (d : Dir) (i : Nat) : Run Bool := do
  let ok ← recvHandshake raw fd s d
  if ok = false then return false
  recvClose raw fd events s d i

/-- One pass from label `ssl_read`; `none` is `goto err_free`. -/
def recvPass (io : RecvIO) (fd : Int) (events : Mask) (s : Nat) (d : Dir) : Run (Option Int) := do
  let slot ← takeSlot io.alloc s d
  match slot with
  | none => return none
  | some i =>
    let c ← conn s d
    sslUse s d c
    match connRawRecv c.ssl.isSome c.sock (slotSpace c.input i) io with
    | none => throw .kernel
    | some raw =>
      if raw.n < 0 then
        modifyFlags s d ({ · with error := true })
        return none
      modifySession s (·.storeBytes d i raw.bytes)
      let ok ← recvAfter raw fd events s d i
      if ok = false then return none
      return some raw.n

def recvLoop (fd : Int) (events : Mask) (s : Nat) (d : Dir) : RecvRun → Run (Option Int)
  | .last io => recvPass io fd events s d
  | .pending io rest => do
    let n ← recvPass io fd events s d
    if n = none then return none
    let c ← conn s d
    if c.ssl.isSome then recvLoop fd events s d rest else return n

def connRecvData (io : RecvRun) (fd : Int) (events : Mask) (s : Nat) (d : Dir) : Run Int := do
  if fd < 0 ∨ events = 0#32 then return -1
  let x ← session s
  require (x.worker = true)
  require (fd = (x.conns d).fd)
  if events.has epollErr then
    modifyFlags s d ({ · with error := true })
    errFree s d
  else
    let n ← recvLoop fd events s d io
    match n with
    | none => errFree s d
    | some n =>
      let queued ← queueTask s d .parse
      return if queued then n else -1

/-! ## `conn_send_data` -/

inductive SendExit where
  | drained | blocked | failed
  deriving DecidableEq, Repr

/-- What the loop over `out` leaves: the list, the bytes accepted, how many packets
went back to the pool, and why it ended. -/
structure Sent where
  rest : List Packet
  bytes : List UInt8
  freed : Nat
  exit : SendExit
  deriving DecidableEq, Repr

/-- Lines 286 to 344; the send of the `i`-th packet is answered by `ios i`. -/
def sendPackets (usesSsl : Bool) (ios : Nat → SendIO) : Nat → List Packet → Sent
  | _, [] => ⟨[], [], 0, .drained⟩
  | i, p :: rest =>
    let len := p.len - p.sendpos
    let n := connRawSend usesSsl len (ios i)
    if n < 0 then ⟨p :: rest, [], 0, .failed⟩
    else if n ≠ len then ⟨p.advance n.toNat :: rest, p.unsent.take n.toNat, 0, .blocked⟩
    else
      let more := sendPackets usesSsl ios (i + 1) rest
      ⟨more.rest, p.unsent.take n.toNat ++ more.bytes, more.freed + 1, more.exit⟩

def Session.applySent (x : Session) (d : Dir) (sent : Sent) : Session :=
  let c := x.conns d
  (x.setConn d { c with
    output := sent.rest
    sock := { c.sock with accepted := c.sock.accepted ++ sent.bytes } }).setAlloced
      (x.nalloced - sent.freed)

/-- Label `err_free` of `conn_send_data`: it acts only in an event callback, and then
queues the task whether or not it is queued already. -/
def sendErrFree (events : Mask) (s : Nat) (d : Dir) : Run Int := do
  onlyIf (events ≠ 0#32) do
    modifyConn s d (setKind · .delete)
    let c ← conn s d
    onlyIf (c.task.linked = true) (emit (.busy s d))
    taskAddQueue s d
  return -1

/-- `fi = fd_epoll_map(..); assert(fi); fi->arg = c`. -/
def claimItem (fd : Int) (s : Nat) (d : Dir) : Run Unit := do
  let i ← itemOf fd
  writeItem i ({ · with arg := some (.conn s d) })

/-- Lines 306 to 334: watch for writability, stop reading from the peer. -/
def sendBlock (fd : Int) (events : Mask) (s : Nat) (d : Dir) : Run Int := do
  let x ← session s
  if (x.conns d).flags.blocked then return 0
  claimItem fd s d
  let ret ← addEvent fd fdOut (some .connSendData)
  if ret ≠ 0 then sendErrFree events s d
  else
    let peerFd := (x.conns d.peer).fd
    let _ ← itemOf peerFd
    let ret ← addEvent peerFd 0#32 none
    if ret ≠ 0 then sendErrFree events s d
    else
      modifyFlags s d ({ · with blocked := true })
      return 0

/-- Lines 348 to 376: everything is out, read again on both sides. -/
def sendUnblock (fd : Int) (s : Nat) (d : Dir) : Run Bool := do
  let x ← session s
  if (x.conns d).flags.blocked = false then return true
  claimItem fd s d
  let ret ← addEvent fd fdIn (some .connRecvData)
  if ret ≠ 0 then return false
  let peerFd := (x.conns d.peer).fd
  claimItem peerFd s d.peer
  let ret ← addEvent peerFd fdIn (some .connRecvData)
  if ret ≠ 0 then return false
  modifyFlags s d ({ · with blocked := false })
  return true

/-- `shutdown(fd, SHUT_WR)` and the flag for it. -/
def cutBy (c : Connection) (source : Socket) : Connection :=
  { c with
    flags := { c.flags with shutWr := true }
    cut := some ⟨source.received ++ source.rx, source.fin, c.sock.accepted⟩ }

/-- Lines 378 to 394: the peer will send nothing more. -/
def sendShut (fd : Int) (events : Mask) (s : Nat) (d : Dir) : Run Int := do
  let x ← session s
  if (x.conns d.peer).flags.shutRd = false then return 0
  match (x.conns d).ssl with
  | some _ =>
    modifyFlags s d ({ · with sslShut := true })
    let ret ← addEvent fd fdOut (some .connShutdown)
    if ret ≠ 0 then sendErrFree events s d else return 0
  | none =>
    modifyConn s d (cutBy · (x.conns d.peer).sock)
    return 0

def connSendData (ios : Nat → SendIO) (fd : Int) (events : Mask) (s : Nat) (d : Dir) : Run Int := do
  if fd < 0 then return -1
  let x ← session s
  require (x.worker = true)
  require (x.policy.isSome = true)
  require (fd = (x.conns d).fd)
  let c := x.conns d
  if c.flags.hsk || c.flags.sslHsk then return 0
  onlyIf (c.output ≠ []) (sslUse s d c)
  let sent := sendPackets c.ssl.isSome ios 0 c.output
  modifySession s (·.applySent d sent)
  match sent.exit with
  | .failed =>
    modifyFlags s d ({ · with error := true })
    sendErrFree events s d
  | .blocked => sendBlock fd events s d
  | .drained =>
    let ok ← sendUnblock fd s d
    if ok = false then sendErrFree events s d else sendShut fd events s d

/-! ## `conn_handshake` and `conn_shutdown` -/

/-- `ssl_wt_e`. -/
inductive SslWait where
  | none | read | write
  deriving DecidableEq, Repr

/-- `sk_is_connected`, and `ssl_handshake` with its `wait`; `none` is a failure. -/
structure HandshakeIO where
  connected : Bool
  ssl : Option SslWait
  deriving DecidableEq, Repr

/-- The event to wait for, 0 when the requested one fits already. -/
def waitEvent (wait : SslWait) (events : Mask) : Mask :=
  if wait = .read ∧ events.has epollOut then fdIn
  else if wait = .write ∧ events.has epollIn then fdOut
  else 0#32

/-- How a stage of a callback ends: go on, `return ret`, or `goto err_free`. -/
inductive Stage where
  | next
  | done (ret : Int)
  | fail
  deriving DecidableEq, Repr

/-- Lines 443 to 462. -/
def tcpHandshake (io : HandshakeIO) (s : Nat) (d : Dir) : Run Stage := do
  let c ← conn s d
  if c.flags.hsk = false then return .next
  if io.connected = false then
    modifyFlags s d ({ · with error := true })
    return .fail
  modifyFlags s d fun f => { f with hsk := false, sslHsk := f.sslHsk || c.ssl.isSome }
  return .next

def requestWait (fd : Int) (e : Mask) : Run Int :=
  if e = 0#32 then return 0 else addEvent fd e (some .connHandshake)

/-- The tail shared by the handshake and the shutdown: request an event and wait. -/
def sslWaitFor (wait : SslWait) (fd : Int) (events : Mask) : Run Stage := do
  let ret ← requestWait fd (waitEvent wait events)
  if ret ≠ 0 then return .fail
  return if wait = .none then .next else .done 0

/-- Lines 465 to 491. -/
def sslHandshake (io : HandshakeIO) (fd : Int) (events : Mask) (s : Nat) (d : Dir) : Run Stage := do
  let c ← conn s d
  if c.flags.sslHsk = false then return .next
  sslUse s d c
  match c.ssl, io.ssl with
  | none, _ => return .fail
  | some _, none => return .fail
  | some _, some wait =>
    let stage ← sslWaitFor wait fd events
    onlyIf (stage = .next) (modifyFlags s d ({ · with sslHsk := false }))
    return stage

/-- Lines 493 to 512. -/
def handshakeDone (fd : Int) (s : Nat) (d : Dir) : Run Int := do
  let ret ← addEvent fd fdIn (some .connRecvData)
  if ret ≠ 0 then errFree s d
  else
    let queued ← queueTask s d .send
    return if queued then 0 else -1

def connHandshake (io : HandshakeIO) (fd : Int) (events : Mask) (s : Nat) (d : Dir) : Run Int := do
  if fd < 0 ∨ events = 0#32 then return -1
  let x ← session s
  require (x.worker = true)
  require (fd = (x.conns d).fd)
  if events.has (epollErr ||| epollRdHup) then errFree s d
  else
    let tcp ← tcpHandshake io s d
    if tcp = .fail then errFree s d
    else
      let stage ← sslHandshake io fd events s d
      match stage with
      | .fail => errFree s d
      | .done ret => return ret
      | .next => handshakeDone fd s d

/-- `ssl_shutdown` with its `wait`, and `ssl_free`. -/
structure ShutdownIO where
  ssl : Option SslWait
  free : Bool
  deriving DecidableEq, Repr

/-- Lines 558 to 591. While it waits, the shutdown requests `conn_handshake`. -/
def sslShutdown (io : ShutdownIO) (fd : Int) (events : Mask) (s : Nat) (d : Dir) : Run Stage := do
  let c ← conn s d
  if c.flags.sslShut = false then return .next
  sslUse s d c
  match c.ssl, io.ssl with
  | none, _ => return .fail
  | some _, none => return .fail
  | some _, some wait =>
    let stage ← sslWaitFor wait fd events
    if stage ≠ .next then return stage
    if io.free = false then return .fail
    emit (.sslFree s d)
    modifyConn s d ({ · with ssl := none })
    return .next

def connShutdown (io : ShutdownIO) (fd : Int) (events : Mask) (s : Nat) (d : Dir) : Run Int := do
  if fd < 0 ∨ events = 0#32 then return -1
  let x ← session s
  require (x.worker = true)
  require (fd = (x.conns d).fd)
  if events.has epollErr then errFree s d
  else
    let stage ← sslShutdown io fd events s d
    match stage with
    | .fail => errFree s d
    | .done ret => return ret
    | .next =>
      let ret ← addEvent fd 0#32 none
      if ret ≠ 0 then errFree s d else return 0

end Fzsvn.Source.Proxy
