import Fzsvn.Source.Proxy.Session

/-!
# Listeners and the worker loop

Embedding of `proxy/utils/listener.c`, of `task_run_queue` from `proxy/utils/task.h`,
of `fd_epoll_poll` and of the commands and the loop of `proxy/tproxy/worker.c`.

One round of the loop is cut into actions: commands, the flush with `epoll_wait`,
one dispatched event, the start of the task queue and one task. Between any two of
them the network may deliver bytes. `listener.c` is compiled with `NDEBUG`, so its
assertions are not there.
-/
namespace Fzsvn.Source.Proxy
open Library.Exec

/-! ## Accepting clients -/

/-- The environment of `_ltn_accept`: the descriptor of `sk_tcp_accept_nb` or whether
`errno` is `EAGAIN`, the object of `objpool_get`, `ssl_alloc`, `ssl_set_fd` and
`tat_get_dstaddr`. -/
structure AcceptIO where
  fd : Option Nat
  eagain : Bool
  obj : Option Nat
  sslAlloc : Bool
  sslSetFd : Bool
  dstaddr : Bool
  deriving DecidableEq, Repr

/-- `objpool_get` for a session; the pool hands out an object that is not in use. -/
def getSession (s : Nat) : Run Unit := do
  answers ((← get).used s = false)
  modify fun w => { w with used := Function.update w.used s true }

/-- Label `err_free` of `_ltn_accept`. The item of `clifd` stays as it is. -/
def acceptErr (s clifd : Nat) (ssl : Bool) : Run Int := do
  putSession s
  onlyIf (ssl = true) (emit (.sslFree s .client))
  closeFd s clifd
  return -1

/-- Lines 109 to 116. The item keeps its `events`, `pevents` and `is_updated`. -/
def acceptWatch (s clifd : Nat) (ssl : Bool) : Run Int := do
  match fdEpollMap (← get).epoll.fe clifd with
  | none => throw .outOfBounds
  | some i =>
    writeItem i ({ · with state := .ready, arg := some (.conn s .client) })
    addEvent clifd fdIn (some (if ssl then .connHandshake else .connRecvData))

/-- `CBLIST_ADD_TAIL(&lfd->ssnlist, &s->lfd)`. -/
@[simps]
def linkSession (w : Worker) (addr s : Nat) : Worker :=
  { w with lfds := w.lfds.map fun l =>
      if l.addr = addr then { l with ssnlist := l.ssnlist ++ [s] } else l }

/-- From line 109 to the end. -/
def acceptFinish (io : AcceptIO) (l : ListenerFd) (s clifd : Nat) : Run Int := do
  let ret ← acceptWatch s clifd l.sslctx
  if ret ≠ 0 then acceptErr s clifd l.sslctx
  else
    modifyConn s .client fun c => { c with
      fd := clifd
      ssl := if l.sslctx then some ⟨some clifd⟩ else none }
    if l.mode = .trapt ∧ io.dstaddr = false then acceptErr s clifd l.sslctx
    else
      modifyFlags s .client fun f => { f with sslHsk := f.sslHsk || l.sslctx }
      modifySession s fun x => { x with worker := true, policy := some l.mode }
      modify (linkSession · l.addr s)
      emit (.accepted s clifd)
      return 0

/-- Lines 90 to 107 and on. -/
def acceptSession (io : AcceptIO) (l : ListenerFd) (s clifd : Nat) : Run Int := do
  getSession s
  modifySession s sessionInit
  emit (.sockOpen s clifd)
  if l.sslctx then
    if io.sslAlloc = false then acceptErr s clifd false
    else
      emit (.sslAlloc s .client)
      if io.sslSetFd = false then acceptErr s clifd true
      else acceptFinish io l s clifd
  else acceptFinish io l s clifd

def ltnAccept (io : AcceptIO) (fd : Nat) (l : ListenerFd) : Run Int := do
  if fd < 1 then return -1
  match io.fd with
  | none => return if io.eagain then 0 else -1
  | some clifd =>
    takeFd clifd
    match io.obj with
    | none =>
      dropFd clifd
      return -1
    | some s => acceptSession io l s clifd

/-- The loop of `listener_accept`; the `i`-th accept is answered by `ios i`. -/
def acceptLoop (ios : Nat → AcceptIO) (fd : Nat) (l : ListenerFd) : Nat → Nat → Run Int
  | _, 0 => return 0
  | i, n + 1 => do
    let ret ← ltnAccept (ios i) fd l
    if ret ≠ 0 then return ret
    acceptLoop ios fd l (i + 1) n

def listenerAccept (ios : Nat → AcceptIO) (fd : Nat) (events : Mask) (addr : Nat) : Run Int := do
  if events = 0#32 then return -1
  match (← get).lfds.find? (·.addr = addr) with
  | none => throw .stale
  | some l => acceptLoop ios fd l 0 (← get).naccept

/-! ## Commands -/

/-- The sessions of a listener, released through their client connection. -/
def freeSessions : List Nat → Run Unit
  | [] => return
  | s :: rest => do
    let _ ← sessionFree s .client
    freeSessions rest

/-- `listener_free_fd` of a listener that is in no list. It closes the descriptor and
leaves its item in the table. -/
def listenerFreeFd (l : ListenerFd) : Run Unit := do
  freeSessions l.ssnlist
  onlyIf (l.fd > 0) (dropFd l.fd.toNat)

/-- `WORKER_CMD_ADD_POLICY` with the listener's address and the descriptor
`listener_alloc_fd` opens. -/
structure PolicyIO where
  policy : Nat
  mode : PolicyMode
  sslctx : Bool
  addr : Nat
  fd : Option Nat
  deriving DecidableEq, Repr

def workerAddPolicy (io : PolicyIO) : Run Int := do
  match io.fd with
  | none => return -1
  | some fd =>
    takeFd fd
    answers (∀ l ∈ (← get).lfds, l.addr ≠ io.addr)
    let i ← itemOf fd
    writeItem i fun _ => freshItem (.listener io.addr)
    let ret ← addEvent fd fdIn (some .listenerAccept)
    let l : ListenerFd := ⟨io.addr, fd, io.policy, io.mode, io.sslctx, []⟩
    if ret ≠ 0 then
      listenerFreeFd l
      return -1
    modify fun w => { w with lfds := w.lfds ++ [l] }
    return 0

def workerDelPolicy (policy : Nat) : Run Int := do
  match (← get).lfds.find? (·.policy = policy) with
  | none => return -1
  | some l =>
    modify fun w => { w with lfds := w.lfds.erase l }
    listenerFreeFd l
    return 0

/-! ## Polling -/

/-- The answers to whatever callback an event reaches. -/
structure CallbackIO where
  recv : RecvRun
  send : Nat → SendIO
  handshake : HandshakeIO
  shutdown : ShutdownIO
  accept : Nat → AcceptIO

/-- `fi->iocb(fd, events, fi->arg)`. -/
def callIocb (io : CallbackIO) (cb : Callback) (arg : Arg) (fd : Nat) (events : Mask) : Run Int :=
  match cb, arg with
  | .connRecvData, .conn s d => connRecvData io.recv fd events s d
  | .connSendData, .conn s d => connSendData io.send fd events s d
  | .connHandshake, .conn s d => connHandshake io.handshake fd events s d
  | .connShutdown, .conn s d => connShutdown io.shutdown fd events s d
  | .listenerAccept, .listener addr => listenerAccept io.accept fd events addr
  | _, _ => throw .stale

/-- One iteration of `fd_epoll_poll`. -/
def dispatchEvent (io : CallbackIO) (fd : Nat) (events : Mask) : Run Unit := do
  if events = 0#32 then return
  let i ← itemOf fd
  let w ← get
  stopUnless .outOfBounds (i < w.epoll.fe.maxfd)
  let fi := w.item i
  if fi.state ≠ .ready then return
  match fi.iocb, fi.arg with
  | none, _ => throw .exited
  | some _, none => return
  | some cb, some arg =>
    let _ ← callIocb io cb arg fd events

/-- `fe->maxwait`. -/
def maxwait : Nat := 200

/-- What `epoll_wait` reports: each descriptor at most once, only registered ones,
with some of the requested events or an error condition. -/
def reportable (interest : Nat → Option Mask) (batch : List (Nat × Mask)) : Prop :=
  batch.length ≤ maxwait ∧ (batch.map Prod.fst).Nodup ∧
    ∀ e ∈ batch, ∃ m ∈ interest e.1,
      e.2 ≠ 0#32 ∧ e.2 &&& ~~~(m ||| epollErr ||| epollHup) = 0#32

instance (interest : Nat → Option Mask) (batch : List (Nat × Mask)) : Decidable (reportable interest batch) :=
  have : ∀ e : Nat × Mask, Decidable (∃ m ∈ interest e.1,
      e.2 ≠ 0#32 ∧ e.2 &&& ~~~(m ||| epollErr ||| epollHup) = 0#32) :=
    fun e => Option.decidableExistsMem (interest e.1)
  inferInstanceAs (Decidable (_ ∧ _ ∧ _))

/-! ## The task queue -/

/-- `b = b->list.n` for the node the cursor moves to: the successor in the chain, and
the node itself when it is not linked. -/
def nextTask (w : Worker) (t : TaskRef) : Option TaskRef :=
  if (w.conn t.session t.dir).task.linked then
    (w.taskq.dropWhile (· ≠ t)).tail.head?
  else some t

/-- `t = b, b = b->list.n`. -/
def cursorAt (w : Worker) : Option TaskRef → Phase
  | none => .idle
  | some t => .running t (nextTask w t)

/-- The body of `task_run_queue`. -/
def runQueued (io : TaskIO) (t : TaskRef) : Run Unit := do
  taskDelQueue t.session t.dir
  let c ← conn t.session t.dir
  if c.task.armed = false then return
  emit (.ran t.session t.dir c.task.kind)
  let _ ← sessionRunTask io t.session t.dir

/-! ## The loop -/

inductive Action where
  | deliver (session : Nat) (dir : Dir) (bytes : List UInt8) (fin : Bool)
  | addPolicy (io : PolicyIO)
  | delPolicy (policy : Nat)
  | poll (ctl : Nat → Bool) (batch : List (Nat × Mask))
  | dispatch (io : CallbackIO)
  | drain
  | runTask (io : TaskIO)

/-- The remote end sends, and possibly closes its side. -/
def Connection.deliver (c : Connection) (bytes : List UInt8) (fin : Bool) : Connection :=
  { c with sock := { c.sock with rx := c.sock.rx ++ bytes, fin := fin } }

def setPhase (p : Phase) : Run Unit := modify fun w => { w with phase := p }

def pollEvents (ctl : Nat → Bool) (batch : List (Nat × Mask)) : Run Unit := do
  modify fun w => { w with epoll := fdEpollFlushEvents ctl w.epoll }
  emit .flushed
  answers (reportable (← get).epoll.interest batch)
  setPhase (.polling batch)

/-- `EPOLLRDHUP` is reported for a connection whose remote end has closed its side. -/
def hangupSeen (w : Worker) (fd : Nat) (events : Mask) : Bool :=
  match (w.item fd).arg with
  | some (.conn s d) => !events.has epollRdHup || (w.conn s d).sock.fin
  | _ => true

def dispatchNext (io : CallbackIO) : List (Nat × Mask) → Run Unit
  | [] => throw .kernel
  | (fd, events) :: rest => do
    answers (hangupSeen (← get) fd events = true)
    setPhase (.polling rest)
    dispatchEvent io fd events

/-- One action of the loop; an action that is not next there is no execution. -/
def workerStep (a : Action) : Run Unit := do
  let w ← get
  match a, w.phase with
  | .deliver s d bytes fin, _ =>
    answers (w.used s = true ∧ (w.conn s d).fd > 0 ∧ (w.conn s d).sock.fin = false)
    modify (·.mapConn s d (·.deliver bytes fin))
  | .addPolicy io, .idle =>
    let _ ← workerAddPolicy io
  | .delPolicy policy, .idle =>
    let _ ← workerDelPolicy policy
  | .poll ctl batch, .idle => pollEvents ctl batch
  | .dispatch io, .polling batch => dispatchNext io batch
  | .drain, .polling [] => setPhase (cursorAt w w.taskq.head?)
  | .runTask io, .running t next =>
    runQueued io t
    setPhase (cursorAt (← get) next)
  | _, _ => throw .kernel

/-- Rounds of `_worker_loop`, and what the network does meanwhile. -/
def runWorker : List Action → Run Unit := runAll workerStep

/-- The worker after `_worker_init`. `opened` are the descriptors the process has at
that point; no session object was handed out yet. -/
def Worker.start (maxfd naccept : Nat) (opened : Nat → Bool) : Worker where
  epoll := .start maxfd
  opened := opened
  taskq := []
  ntask := 0
  used := fun _ => false
  sessions := fun _ => .zero
  lfds := []
  naccept := naccept
  phase := .idle
  log := []

end Fzsvn.Source.Proxy
