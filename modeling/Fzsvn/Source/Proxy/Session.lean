import Fzsvn.Source.Proxy.Connection

/-!
# Sessions

Embedding of `proxy/utils/session.c`: the parse, forward and release steps of a
session and `session_run_task`, which the task queue calls. `session_parse` does
nothing and is called by nothing.
-/
namespace Fzsvn.Source.Proxy
open Session
open Library.Exec

/-- The list the fast parser moves the packets of `c->in` to: `request` for the
client's connection, `response` for the server's. -/
def Session.staged (x : Session) : Dir → List Packet
  | .client => x.request
  | .server => x.response

def Session.setStaged (x : Session) (d : Dir) (packets : List Packet) : Session :=
  match d with
  | .client => { x with request := packets }
  | .server => { x with response := packets }

section

variable (x : Session) (d : Dir) (packets : List Packet)
include x d packets

@[simp] lemma setStaged_staged_self :
    (x.setStaged d packets).staged d = packets := by cases d <;> rfl

@[simp] lemma setStaged_staged_peer :
    (x.setStaged d packets).staged d.peer = x.staged d.peer := by cases d <;> rfl

@[simp] lemma setStaged_peer_staged :
    (x.setStaged d.peer packets).staged d = x.staged d := by cases d <;> rfl

@[simp] lemma setStaged_conns : (x.setStaged d packets).conns = x.conns := by cases d <;> rfl

@[simp] lemma setStaged_nalloced :
    (x.setStaged d packets).nalloced = x.nalloced := by cases d <;> rfl

@[simp] lemma setStaged_worker : (x.setStaged d packets).worker = x.worker := by cases d <;> rfl

@[simp] lemma setStaged_policy : (x.setStaged d packets).policy = x.policy := by cases d <;> rfl

end

@[simp] lemma setConn_staged (x : Session) (d : Dir) (c : Connection) :
    (x.setConn d c).staged = x.staged := by
  funext e
  cases e <;> rfl

@[simp] lemma setAlloced_staged (x : Session) (n : Int) : (x.setAlloced n).staged = x.staged := by
  funext e
  cases e <;> rfl

/-- `CBLIST_JOIN(&s->request, &c->in)`, or with `response` for the server. -/
def Session.joinInput (x : Session) (d : Dir) : Session :=
  (x.setStaged d (x.staged d ++ (x.conns d).input)).setConn d { x.conns d with input := [] }

/-- `CBLIST_JOIN(&c->out, &s->request)`, or with `response` for the client. -/
def Session.joinOutput (x : Session) (d : Dir) : Session :=
  (x.setStaged d.peer []).setConn d
    { x.conns d with output := (x.conns d).output ++ x.staged d.peer }

def sessionFparse (s : Nat) (d : Dir) : Run Int := do
  let x ← session s
  require (x.worker = true)
  modifySession s (·.joinInput d)
  return 0

/-- The environment of `session_get_server` and `session_forward`: the server pool,
the chosen server (and whether it uses SSL), `ssl_alloc`, `socket`, the result of
`sk_tcp_client_nb` with its `wait`, and `ssl_set_fd`. -/
structure ForwardIO where
  spdata : Bool
  server : Option Bool
  sslAlloc : Bool
  socket : Option Nat
  connect : Option (Nat × Bool)
  sslSetFd : Bool
  deriving DecidableEq, Repr

/-- `s->svrdata = svrdata`. -/
@[simps]
def Session.chooseServer (x : Session) (usesSsl : Bool) : Session :=
  { x with svrdata := some usesSsl }

def sessionGetServer (io : ForwardIO) (s : Nat) (d : Dir) : Run Int := do
  let x ← session s
  require (x.worker = true)
  require (x.policy.isSome = true)
  if io.spdata = false then return -1
  match io.server with
  | none => return -1
  | some usesSsl =>
    modifySession s (·.chooseServer usesSsl)
    if usesSsl = false then return 0
    -- `c->ssl` is NULL when the allocation fails
    onlyIf (io.sslAlloc = true) (emit (.sslAlloc s d))
    modifyConn s d ({ · with ssl := if io.sslAlloc then some ⟨none⟩ else none })
    return if io.sslAlloc then 0 else -1

/-- `c->fd = sk_tcp_client_nb(...)`; the result is `wait`, or `none` on failure. -/
def clientNb (io : ForwardIO) (s : Nat) (d : Dir) : Run (Option Bool) := do
  match io.connect with
  | none =>
    modifyConn s d ({ · with fd := -1, sock := .fresh })
    return none
  | some (fd, wait) =>
    openFd s fd
    modifyConn s d ({ · with fd := fd, sock := .fresh })
    return some wait

/-- `c->fd = socket(...)`. -/
def plainSocket (io : ForwardIO) (s : Nat) (d : Dir) : Run Bool := do
  match io.socket with
  | none =>
    modifyConn s d ({ · with fd := -1, sock := .fresh })
    return false
  | some fd =>
    openFd s fd
    modifyConn s d ({ · with fd := fd, sock := .fresh })
    return true

/-- Lines 310 to 348, by policy mode. The transparent mode opens a socket and then
replaces it; the trapt mode ignores the result of its connect. -/
def connectServer (io : ForwardIO) (mode : PolicyMode) (s : Nat) (d : Dir) : Run (Option Bool) := do
  match mode with
  | .reverse => clientNb io s d
  | .tproxy =>
    let ok ← plainSocket io s d
    if ok = false then return none
    clientNb io s d
  | .trapt =>
    let ok ← plainSocket io s d
    return if ok then some false else none

/-- Lines 361 to 386: what to wait for on the new connection. -/
def watchServer (io : ForwardIO) (wait : Bool) (s : Nat) (d : Dir) : Run Int := do
  let c ← conn s d
  if wait then
    modifyFlags s d ({ · with hsk := true })
    addEvent c.fd fdOut (some .connHandshake)
  else
    match c.ssl with
    | none => addEvent c.fd fdIn (some .connRecvData)
    | some _ =>
      if io.sslSetFd = false then return -1
      modifyConn s d fun c => { c with
        ssl := some ⟨some c.fd⟩
        flags := { c.flags with sslHsk := true } }
      addEvent c.fd fdOut (some .connHandshake)

def sessionForward (io : ForwardIO) (s : Nat) (d : Dir) : Run Int := do
  let x ← session s
  require (x.worker = true)
  match x.policy with
  | none => throw .assertion
  | some mode =>
    modifySession s (·.joinOutput d)
    if (x.conns d).fd > 0 then return 0
    let ret ← sessionGetServer io s d
    if ret ≠ 0 then return -1
    let wait ← connectServer io mode s d
    match wait with
    | none => return -1
    | some wait =>
      let c ← conn s d
      let i ← itemOf c.fd
      writeItem i fun _ => freshItem (.conn s d)
      let ret ← watchServer io wait s d
      return if ret ≠ 0 then -1 else 0

/-- `objpool_put(s)`, whose first assertion is that the object is in use. -/
def putSession (s : Nat) : Run Unit := do
  require ((← get).used s = true)
  let x ← session s
  modify fun w => { w with used := Function.update w.used s false }
  emit (.put s (x.conns .client).task.linked (x.conns .server).task.linked)

/-- `CBLIST_DEL(&s->lfd)`. -/
@[simps]
def unlinkSession (w : Worker) (s : Nat) : Worker :=
  { w with lfds := w.lfds.map fun l => { l with ssnlist := l.ssnlist.erase s } }

/-- `session_free`. A task of the peer that is still queued takes over the release. -/
def sessionFree (s : Nat) (d : Dir) : Run Int := do
  emit (.released s)
  let x ← session s
  require (x.worker = true)
  require (x.policy.isSome = true)
  connFree s d
  let peer ← conn s d.peer
  if peer.task.linked then
    modifyConn s d.peer (setKind · .delete)
    return 0
  connFree s d.peer
  let x ← session s
  stopUnless .leaked (x.nalloced = 0)
  modify (unlinkSession · s)
  putSession s
  return 0

/-- The environment of one task. -/
structure TaskIO where
  forward : ForwardIO
  send : Nat → SendIO

/-- The tail of `session_run_task` behind its `switch`. -/
def closeIfDone (s : Nat) (d : Dir) : Run Int := do
  let x ← session s
  if (x.conns d).flags.isClosed && (x.conns d.peer).flags.isClosed then
    let _ ← sessionFree s d
    return 0
  return 0

/-- `case TASK_PARSE`. A failing send releases the session and then `break`s. -/
def runParse (io : TaskIO) (s : Nat) (d : Dir) : Run Int := do
  let ret ← sessionFparse s d
  if ret ≠ 0 then
    let _ ← sessionFree s d
    return -1
  let ret ← sessionForward io.forward s d.peer
  if ret ≠ 0 then
    let _ ← sessionFree s d
    return -1
  let peer ← conn s d.peer
  let ret ← connSendData io.send peer.fd 0#32 s d.peer
  onlyIf (ret ≠ 0) do
    let _ ← sessionFree s d
  closeIfDone s d

/-- `case TASK_SEND`. -/
def runSend (io : TaskIO) (s : Nat) (d : Dir) : Run Int := do
  let c ← conn s d
  let ret ← connSendData io.send c.fd 0#32 s d
  if ret ≠ 0 then
    let _ ← sessionFree s d
    return -1
  closeIfDone s d

def sessionRunTask (io : TaskIO) (s : Nat) (d : Dir) : Run Int := do
  let x ← session s
  require (x.worker = true)
  match (x.conns d).task.kind with
  | .none => return -1
  | .delete =>
    let _ ← sessionFree s d
    return 0
  | .parse => runParse io s d
  | .send => runSend io s d

end Fzsvn.Source.Proxy
