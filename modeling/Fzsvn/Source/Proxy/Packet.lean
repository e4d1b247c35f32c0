import Mathlib.Data.List.Basic

/-!
# Packets, sockets and the raw receive and send wrappers

Embedding of `proxy/utils/packet.h`, of `sk_recv` and `sk_send` from
`netutil/sock_util.c`, of `ssl_recv` and `ssl_send` from `ssl/ssl_util.c`, and of
`conn_raw_recv` and `conn_raw_send` from `proxy/utils/connection.h`. The answers of
`recv`, `send`, `SSL_read` and `SSL_write` are arguments; the wrappers classify
them. NULL buffers and missing SSL application data do not occur at the call
sites and have no counterpart.
-/
namespace Fzsvn.Source.Proxy

def maxPktSize : Nat := 4096 - 40

/-- `sizeof(packet_t)` on a 64-bit machine. -/
def sizeofPacket : Nat := 32

def maxPktLen : Nat := maxPktSize - sizeofPacket

/-- `data` holds the first `len` bytes of the buffer. `max` is `MAX_PKTLEN` in every
packet after `PKT_INIT`, and `recvpos` is never read. -/
structure Packet where
  data : List UInt8
  sendpos : Nat
  len_le : data.length ≤ maxPktLen
  sendpos_le : sendpos ≤ data.length
  deriving DecidableEq, Repr

namespace Packet

/-- `PKT_INIT`. -/
def init : Packet := ⟨[], 0, Nat.zero_le _, Nat.zero_le _⟩

def len (p : Packet) : Nat := p.data.length

/-- `pkt->max - pkt->len`. -/
def space (p : Packet) : Nat := maxPktLen - p.len

/-- `pkt->len >= pkt->max`. -/
def full (p : Packet) : Bool := decide (maxPktLen ≤ p.len)

/-- The bytes behind the send cursor. -/
def unsent (p : Packet) : List UInt8 := p.data.drop p.sendpos

/-- The bytes a receive call stored at `data + len`, followed by `pkt->len += n`. -/
def fill (p : Packet) (bytes : List UInt8) : Packet where
  data := p.data ++ bytes.take p.space
  sendpos := p.sendpos
  len_le := by
    have := p.len_le
    simp only [List.length_append, List.length_take, space, len]
    omega
  sendpos_le := by
    have := p.sendpos_le
    simp only [List.length_append]
    omega

/-- `pkt->sendpos += n` for the `n` bytes a send call accepted. -/
def advance (p : Packet) (n : Nat) : Packet where
  data := p.data
  sendpos := p.sendpos + min n (p.len - p.sendpos)
  len_le := p.len_le
  sendpos_le := by
    have := p.sendpos_le
    simp only [len]
    omega

@[simp] lemma init_len : init.len = 0 := rfl

@[simp] lemma init_unsent : init.unsent = [] := rfl

lemma unsent_length {p : Packet} : p.unsent.length = p.len - p.sendpos := by
  simp [unsent, len]

/-- Received bytes that fit are appended to the unsent part. -/
lemma fill_unsent (p : Packet) (bytes : List UInt8) (fits : bytes.length ≤ p.space) :
    (p.fill bytes).unsent = p.unsent ++ bytes := by
  have hle := p.sendpos_le
  simp only [unsent, fill, List.take_of_length_le fits]
  rw [List.drop_append_of_le_length hle]

lemma advance_unsent {p : Packet} {n : Nat} : (p.advance n).unsent = p.unsent.drop n := by
  simp only [unsent, advance, List.drop_drop, len]
  rcases Nat.le_total n (p.data.length - p.sendpos) with h | h
  · rw [Nat.min_eq_left h]
  · have hle := p.sendpos_le
    rw [Nat.min_eq_right h, List.drop_of_length_le (by omega), List.drop_of_length_le (by omega)]

lemma not_full_iff {p : Packet} : p.full = false ↔ 0 < p.space := by
  simp only [full, space, decide_eq_false_iff_not, Nat.not_le]
  omega

end Packet

/-- The bytes a packet list still carries, in order. -/
def carried (packets : List Packet) : List UInt8 := packets.flatMap Packet.unsent

@[simp] lemma carried_nil : carried [] = [] := rfl

@[simp] lemma carried_cons (p : Packet) (rest : List Packet) :
    carried (p :: rest) = p.unsent ++ carried rest := rfl

@[simp] lemma carried_append (a b : List Packet) : carried (a ++ b) = carried a ++ carried b := by
  simp [carried]

/-! ## Sockets and system calls -/

/-- The kernel's side of one connected socket: what the remote end sent and was not
read, whether its FIN arrived behind that, and everything the proxy's receive
calls returned and its send calls had accepted so far. -/
structure Socket where
  rx : List UInt8
  fin : Bool
  received : List UInt8
  accepted : List UInt8
  deriving DecidableEq, Repr

def Socket.fresh : Socket := ⟨[], false, [], []⟩

inductive Errno where
  | eagain | eintr | other
  deriving DecidableEq, Repr

/-- The answer of `recv`: `n` bytes, end of stream, or an error. -/
inductive RecvAnswer where
  | data (n : Nat)
  | eof
  | err (errno : Errno)
  deriving DecidableEq, Repr

inductive SslError where
  | wantRead | wantWrite | other
  deriving DecidableEq, Repr

/-- The answer of `SSL_read`. -/
inductive SslReadRet where
  | data (first : UInt8) (more : List UInt8)
  | zero
  | err (error : SslError)
  deriving DecidableEq, Repr

/-- `SSL_read` with `si->in_handshake` after it, and whether `sc` or `si` enable
renegotiation. -/
structure SslRead where
  ret : SslReadRet
  inHandshake : Bool
  renegotiate : Bool
  deriving DecidableEq, Repr

/-- What a raw receive leaves behind: the return value, the bytes stored in the
buffer, and the two flags. -/
structure RawRecv where
  n : Int
  bytes : List UInt8
  closed : Bool
  handshake : Bool
  deriving DecidableEq, Repr

def RawRecv.failed : RawRecv := ⟨-1, [], false, false⟩

def RawRecv.got (bytes : List UInt8) : RawRecv := ⟨bytes.length, bytes, false, false⟩

/-- `sk_recv`. `none` marks an answer the kernel cannot give: more bytes than asked
for or than it has, no bytes at all, or end of stream without a FIN. -/
def skRecv (sock : Socket) (len : Nat) : RecvAnswer → Option RawRecv
  | .data n =>
    if 1 ≤ n ∧ n ≤ len ∧ n ≤ sock.rx.length then some (.got (sock.rx.take n)) else none
  | .eof => if sock.rx = [] ∧ sock.fin = true then some ⟨0, [], true, false⟩ else none
  | .err errno => if errno = .eintr ∨ errno = .eagain then some (.got []) else some .failed

/-- `ssl_recv`. When `SSL_read` would block its negative value is returned as it is. -/
def sslRecv (len : Nat) (answer : SslRead) : RawRecv :=
  if answer.inHandshake then
    if answer.renegotiate = false then .failed else ⟨0, [], false, true⟩
  else
    match answer.ret with
    | .data first more => .got ((first :: more).take len)
    | .zero => ⟨0, [], true, false⟩
    | .err error => if error ≠ .wantRead then .failed else ⟨-1, [], false, false⟩

/-- The environment of one receive: `objpool_get` for a packet, and the answers of
`recv` and `SSL_read`, of which the connection's kind selects one. -/
structure RecvIO where
  alloc : Bool
  sys : RecvAnswer
  ssl : SslRead
  deriving DecidableEq, Repr

def connRawRecv (usesSsl : Bool) (sock : Socket) (len : Nat) (io : RecvIO) : Option RawRecv :=
  if len < 1 then some .failed
  else if usesSsl then some (sslRecv len io.ssl)
  else skRecv sock len io.sys

/-- The answer of `send`: `n` bytes taken (never more than offered), or an error. -/
inductive SendAnswer where
  | sent (n : Nat)
  | err (errno : Errno)
  deriving DecidableEq, Repr

inductive SslWriteRet where
  | sent (n : Nat)
  | err (error : SslError)
  deriving DecidableEq, Repr

/-- `SSL_write`; `refused` is the renegotiation check in front of it. -/
structure SslWrite where
  refused : Bool
  ret : SslWriteRet
  deriving DecidableEq, Repr

/-- `sk_send`. The error test of the source is a disjunction. -/
def skSend (len : Nat) : SendAnswer → Int
  | .sent n => (min n len : Nat)
  | .err errno => if errno ≠ .eintr ∨ errno ≠ .eagain then -1 else 0

def sslSend (len : Nat) (answer : SslWrite) : Int :=
  if answer.refused then -1
  else
    match answer.ret with
    | .sent n => if min n len = 0 then -1 else (min n len : Nat)
    | .err error => if error = .wantRead then 0 else if error = .wantWrite then 0 else -1

structure SendIO where
  sys : SendAnswer
  ssl : SslWrite
  deriving DecidableEq, Repr

def connRawSend (usesSsl : Bool) (len : Nat) (io : SendIO) : Int :=
  if len < 1 then -1
  else if usesSsl then sslSend len io.ssl
  else skSend len io.sys

/-- A raw receive stores at most the bytes asked for, and reports their number. -/
lemma connRawRecv_bounds {usesSsl : Bool} {sock : Socket} {len : Nat} {io : RecvIO}
    {raw : RawRecv} (h : connRawRecv usesSsl sock len io = some raw) :
    raw.bytes.length ≤ len ∧ (0 ≤ raw.n → raw.n = raw.bytes.length) ∧
      (raw.n < 0 → raw.bytes = []) := by
  unfold connRawRecv at h
  split at h
  · cases h
    simp [RawRecv.failed]
  split at h
  · cases h
    unfold sslRecv
    split
    · split <;> simp [RawRecv.failed]
    · split
      · next first more _ =>
        simp only [RawRecv.got, List.length_take]
        refine ⟨Nat.min_le_left _ _, fun _ => trivial, fun hneg => ?_⟩
        omega
      · simp
      · split <;> simp [RawRecv.failed]
  · unfold skRecv at h
    split at h
    · split at h
      · next hn =>
        cases h
        simp only [RawRecv.got, List.length_take]
        refine ⟨by omega, fun _ => trivial, fun hneg => ?_⟩
        omega
      · cases h
    · split at h
      · cases h
        simp
      · cases h
    · split at h <;> cases h <;> simp [RawRecv.failed, RawRecv.got]

/-- A raw send accepts at most the bytes offered, and needs at least one. -/
lemma connRawSend_bounds (usesSsl : Bool) (len : Nat) (io : SendIO) :
    connRawSend usesSsl len io ≤ len ∧ (0 ≤ connRawSend usesSsl len io → 1 ≤ len) := by
  unfold connRawSend
  split
  · constructor <;> omega
  · next hlen =>
    refine ⟨?_, fun _ => by omega⟩
    split
    · unfold sslSend
      split
      · omega
      · split
        · split <;> omega
        · split
          · omega
          · split <;> omega
    · unfold skSend
      split
      · omega
      · split <;> omega

end Fzsvn.Source.Proxy
