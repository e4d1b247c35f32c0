import Fzsvn.Library.Exec
import Fzsvn.Source.Proxy.FdEpoll
import Fzsvn.Source.Proxy.Packet

/-!
# The worker's memory

The data of `connection.h`, `session.h`, `task.h`, `listener.h` and `worker.h`: a
worker thread with its epoll table, its task queue, its pool of session objects
and its listeners, next to the descriptor table and the interest set the kernel
keeps for it. Session objects and listeners are named by the address their
allocator returned.

Code runs in `Run`, which stops where the process would: at a failed `assert`, at
`exit`, or at an access outside an array. Session memory is reached only through
`session`, `modifySession` and `modifyConn`, and every such access is logged, so
that an access after the object went back to its pool can be seen.
Addresses of peers, names, statistics and debug output are left out.
-/
namespace Fzsvn.Source.Proxy
open Library.Exec

/-- `conns[0]` is the client's connection, `conns[1]` the server's. -/
inductive Dir where
  | client | server
  deriving DecidableEq, Repr

/-- `(dir + 1) % 2`. -/
def Dir.peer : Dir → Dir
  | .client => .server
  | .server => .client

@[simp] lemma Dir.peer_peer (d : Dir) : d.peer.peer = d := by cases d <;> rfl

@[simp] lemma Dir.peer_ne (d : Dir) : d.peer ≠ d := by cases d <;> decide

@[simp] lemma Dir.ne_peer (d : Dir) : d ≠ d.peer := by cases d <;> decide

lemma Dir.sides (d x : Dir) : x = d ∨ x = d.peer := by cases d <;> cases x <;> decide

inductive TaskKind where
  | none | parse | send | delete
  deriving DecidableEq, Repr

/-- `linked` is `!CBLIST_IS_EMPTY(&t->list)`; `armed` says that `task_init` has set
`arg` and `cb`. -/
structure Task where
  kind : TaskKind
  linked : Bool
  armed : Bool
  deriving DecidableEq, Repr

structure TaskRef where
  session : Nat
  dir : Dir
  deriving DecidableEq, Repr

/-- The bits `CONN_F_*`. -/
structure ConnFlags where
  error : Bool
  hsk : Bool
  sslHsk : Bool
  shutRd : Bool
  shutWr : Bool
  sslShut : Bool
  blocked : Bool
  deriving DecidableEq, Repr

def ConnFlags.none : ConnFlags := ⟨false, false, false, false, false, false, false⟩

/-- `CONN_IS_CLOSED`. -/
def ConnFlags.isClosed (f : ConnFlags) : Bool := f.shutRd && f.shutWr

/-- An SSL object and the descriptor `ssl_set_fd` bound it to. -/
structure Ssl where
  fd : Option Int
  deriving DecidableEq, Repr

/-- What was known when the write side of a connection was shut down: everything the
peer's remote end had sent by then, whether its FIN was seen, and what this
connection's socket had accepted. -/
structure Cut where
  sent : List UInt8
  fin : Bool
  accepted : List UInt8
  deriving DecidableEq, Repr

/-- `sock` is the kernel's side of the connection and `cut` an observation; neither is a
field of the source. -/
structure Connection where
  fd : Int
  ssl : Option Ssl
  input : List Packet
  output : List Packet
  task : Task
  flags : ConnFlags
  sock : Socket
  cut : Option Cut
  deriving DecidableEq, Repr

/-- `conn_init`. -/
def connInit : Connection where
  fd := -1
  ssl := none
  input := []
  output := []
  task := ⟨.none, false, true⟩
  flags := .none
  sock := .fresh
  cut := none

inductive PolicyMode where
  | reverse | trapt | tproxy
  deriving DecidableEq, Repr

/-- `worker` says that `s->worker` and `s->thread`, which are set together, are not
NULL. A policy is represented by its mode, the chosen server by whether it uses SSL. -/
structure Session where
  conns : Dir → Connection
  nalloced : Int
  request : List Packet
  response : List Packet
  worker : Bool
  policy : Option PolicyMode
  svrdata : Option Bool

@[simps]
def Session.setConn (x : Session) (d : Dir) (c : Connection) : Session :=
  { x with conns := Function.update x.conns d c }

@[simp] lemma Session.setConn_setConn (x : Session) (d : Dir) (c c' : Connection) :
    (x.setConn d c).setConn d c' = x.setConn d c' := by
  simp [Session.setConn]

/-- `session_init`. It does not write `nalloced`. -/
def sessionInit (s : Session) : Session :=
  { s with
    worker := false
    policy := none
    svrdata := none
    conns := fun _ => connInit
    request := []
    response := [] }

/-- The object as `_op_alloc_cache` zeroes it. -/
def Session.zero : Session where
  conns := fun _ => ⟨0, none, [], [], ⟨.none, false, false⟩, .none, .fresh, none⟩
  nalloced := 0
  request := []
  response := []
  worker := false
  policy := none
  svrdata := none

/-- `ssnlist` holds the sessions accepted through the listener. `policy` names the
policy, `sslctx` says that its listener data carries an SSL context. -/
structure ListenerFd where
  addr : Nat
  fd : Int
  policy : Nat
  mode : PolicyMode
  sslctx : Bool
  ssnlist : List Nat
  deriving DecidableEq, Repr

/-- `fi->arg` and `fi->iocb`. -/
inductive Arg where
  | conn (session : Nat) (dir : Dir)
  | listener (addr : Nat)
  deriving DecidableEq, Repr

inductive Callback where
  | connRecvData | connSendData | connHandshake | connShutdown | listenerAccept
  deriving DecidableEq, Repr

/-- Observations. `field` and `put` are accesses to session memory and its return to
the pool (with the link state of the two tasks at that moment), `busy` is the
"task already in queue" branch, `queued` and `ran` are `task_add_queue` and the
call of a task's callback, `released` is the entry of `session_free`, `accepted` the
successful end of `_ltn_accept`, and `flushed` a `fd_epoll_flush_events`. -/
inductive Event where
  | field (session : Nat)
  | put (session : Nat) (client server : Bool)
  | busy (session : Nat) (dir : Dir)
  | queued (session : Nat) (dir : Dir) (kind : TaskKind)
  | ran (session : Nat) (dir : Dir) (kind : TaskKind)
  | released (session : Nat)
  | accepted (session fd : Nat)
  | flushed
  | sslUse (session : Nat) (dir : Dir) (bound : Option Int) (fd : Int)
  | sslAlloc (session : Nat) (dir : Dir)
  | sslFree (session : Nat) (dir : Dir)
  | sockOpen (session fd : Nat)
  | sockClose (session fd : Nat)
  deriving DecidableEq, Repr

/-- Where `_worker_loop` is: before `_worker_get_cmd`, inside `fd_epoll_poll` with the
events not yet dispatched, or inside `task_run_queue` with the current task and the
saved next pointer, `none` being the list head. -/
inductive Phase where
  | idle
  | polling (batch : List (Nat × Mask))
  | running (current : TaskRef) (next : Option TaskRef)
  deriving DecidableEq, Repr

structure Worker where
  epoll : EpollSys Arg Callback
  opened : Nat → Bool
  taskq : List TaskRef
  ntask : Int
  used : Nat → Bool
  sessions : Nat → Session
  lfds : List ListenerFd
  naccept : Nat
  phase : Phase
  log : List Event

/-- Why an execution ends: a failed `assert`, among them `assert(s->nalloced == 0)` of
`session_free`, the `exit` in `fd_epoll_poll`, an access outside the epoll table or
through NULL, a call through a stale pointer. `kernel` marks answers the environment
cannot give; no execution of the code ends there. -/
inductive Halt where
  | assertion | leaked | exited | outOfBounds | stale | kernel
  deriving DecidableEq, Repr

abbrev Run := EStateM Halt Worker

namespace Worker

@[simps]
def emit (w : Worker) (e : Event) : Worker := { w with log := w.log ++ [e] }

@[simps]
def mapSession (w : Worker) (s : Nat) (f : Session → Session) : Worker :=
  { w with sessions := Function.update w.sessions s (f (w.sessions s)) }

@[simp]
abbrev conn (w : Worker) (s : Nat) (d : Dir) : Connection := (w.sessions s).conns d

@[simps!]
def mapConn (w : Worker) (s : Nat) (d : Dir) (f : Connection → Connection) : Worker :=
  w.mapSession s fun x => x.setConn d (f (x.conns d))

@[simp]
abbrev item (w : Worker) (fd : Nat) : FdItem Arg Callback := w.epoll.fe.maps fd

@[simps]
def setTable (w : Worker) (fe : FdEpoll Arg Callback) : Worker :=
  { w with epoll := { w.epoll with fe := fe } }

@[simps!]
def mapItem (w : Worker) (fd : Nat) (f : FdItem Arg Callback → FdItem Arg Callback) : Worker :=
  w.setTable (w.epoll.fe.setItem fd (f (w.item fd)))

end Worker

/-! ## Primitive operations -/

def emit (e : Event) : Run Unit := modify (·.emit e)

def stopUnless (halt : Halt) (c : Prop) [Decidable c] : Run Unit :=
  if c then return else throw halt

/-- `assert`. -/
def require (c : Prop) [Decidable c] : Run Unit := stopUnless .assertion c

/-- The environment only gives answers that satisfy `c`. -/
def answers (c : Prop) [Decidable c] : Run Unit := stopUnless .kernel c

def onlyIf (c : Prop) [Decidable c] (prog : Run Unit) : Run Unit :=
  if c then prog else return

def session (s : Nat) : Run Session := do
  emit (.field s)
  return (← get).sessions s

def conn (s : Nat) (d : Dir) : Run Connection := do
  return (← session s).conns d

def modifySession (s : Nat) (f : Session → Session) : Run Unit := do
  emit (.field s)
  modify (·.mapSession s f)

def modifyConn (s : Nat) (d : Dir) (f : Connection → Connection) : Run Unit := do
  emit (.field s)
  modify (·.mapConn s d f)

def modifyFlags (s : Nat) (d : Dir) (f : ConnFlags → ConnFlags) : Run Unit :=
  modifyConn s d fun c => { c with flags := f c.flags }

/-- `fd_epoll_map` followed by `assert(fi)`. -/
def itemOf (fd : Int) : Run Nat := do
  match fdEpollMap (← get).epoll.fe fd with
  | none => throw .assertion
  | some i => return i

/-- A write through the pointer `fd_epoll_map` returned. -/
def writeItem (i : Nat) (f : FdItem Arg Callback → FdItem Arg Callback) : Run Unit := do
  if i < (← get).epoll.fe.maxfd then modify (·.mapItem i f) else throw .outOfBounds

def addEvent (fd : Int) (events : Mask) (iocb : Option Callback) : Run Int := do
  match fdEpollAddEvent (← get).epoll.fe fd events iocb with
  | none => throw .outOfBounds
  | some (fe, ret) =>
    modify (·.setTable fe)
    return ret

/-- `memset(fi, 0, sizeof(*fi))` followed by `fi->state = FD_READY` and `fi->arg`. -/
def freshItem (arg : Arg) : FdItem Arg Callback :=
  ⟨0#32, 0#32, .ready, some arg, false, none⟩

/-- A descriptor the kernel hands out was not open before, and 0 is never free. -/
def takeFd (fd : Nat) : Run Unit := do
  answers ((← get).opened fd = false ∧ fd ≠ 0)
  modify fun w => { w with opened := Function.update w.opened fd true }

/-- `close`, which also removes the descriptor from the interest set. -/
def dropFd (fd : Nat) : Run Unit :=
  modify fun w => { w with
    opened := Function.update w.opened fd false
    epoll := { w.epoll with interest := Function.update w.epoll.interest fd none } }

/-- A socket opened and closed on behalf of a session. -/
def openFd (s fd : Nat) : Run Unit := do
  takeFd fd
  emit (.sockOpen s fd)

def closeFd (s fd : Nat) : Run Unit := do
  dropFd fd
  emit (.sockClose s fd)

/-- An OpenSSL call on the connection's SSL object. -/
def sslUse (s : Nat) (d : Dir) (c : Connection) : Run Unit :=
  match c.ssl with
  | none => return
  | some ssl => emit (.sslUse s d ssl.fd c.fd)

/-! ## The task queue -/

/-- The forward chain after `CBLIST_ADD_TAIL` of `t`. Linking a node that is linked
already cuts off what followed it. -/
def linkTail (queue : List TaskRef) (t : TaskRef) (linked : Bool) : List TaskRef :=
  if linked then queue.takeWhile (· ≠ t) ++ [t] else queue ++ [t]

def setLinked (c : Connection) (linked : Bool) : Connection :=
  { c with task := { c.task with linked := linked } }

def setKind (c : Connection) (kind : TaskKind) : Connection :=
  { c with task := { c.task with kind := kind } }

def taskAddQueue (s : Nat) (d : Dir) : Run Unit := do
  let c ← conn s d
  modify fun w => { w with
    taskq := linkTail w.taskq ⟨s, d⟩ c.task.linked
    ntask := w.ntask + 1 }
  modifyConn s d (setLinked · true)
  emit (.queued s d c.task.kind)

def taskDelQueue (s : Nat) (d : Dir) : Run Unit := do
  modify fun w => { w with
    taskq := w.taskq.erase ⟨s, d⟩
    ntask := w.ntask - 1 }
  modifyConn s d (setLinked · false)

/-- The callbacks' way to queue a task: the kind is written before the queue is
looked at, and an already queued task is reported and not queued again. -/
def queueTask (s : Nat) (d : Dir) (kind : TaskKind) : Run Bool := do
  modifyConn s d (setKind · kind)
  let c ← conn s d
  if c.task.linked then
    emit (.busy s d)
    return false
  taskAddQueue s d
  return true

/-- Label `err_free` of the event callbacks. -/
def errFree (s : Nat) (d : Dir) : Run Int := do
  let _ ← queueTask s d .delete
  return -1

/-! ## Rules for the primitive operations -/

section

variable {w : Worker} {E : Halt → Worker → Prop} {Q : Unit → Worker → Prop}

@[simp] lemma ensures_emit (e : Event) : Ensures (emit e) w Q E ↔ Q () (w.emit e) := by
  simp only [emit, ensures_modify]

@[simp] lemma ensures_stopUnless (halt : Halt) (c : Prop) [Decidable c] :
    Ensures (stopUnless halt c) w Q E ↔ (c → Q () w) ∧ (¬ c → E halt w) := by
  simp [stopUnless, ensures_ite]

@[simp] lemma ensures_takeFd (fd : Nat) : Ensures (takeFd fd) w Q E ↔
      (w.opened fd = false ∧ fd ≠ 0 →
        Q () { w with opened := Function.update w.opened fd true }) ∧
      (¬ (w.opened fd = false ∧ fd ≠ 0) → E .kernel w) := by
  simp only [takeFd, answers, ensures_bind, ensures_get, ensures_stopUnless, ensures_modify]

variable {rel : Worker → Worker → Prop}

lemma keeps_stopUnless [IsPreorder Worker rel] (halt : Halt) (c : Prop) [Decidable c] :
    Keeps rel (stopUnless halt c) :=
  keeps_ite (keeps_pure ()) (keeps_throw halt)

lemma keeps_onlyIf [IsPreorder Worker rel] (c : Prop) [Decidable c] {prog : Run Unit}
    (h : Keeps rel prog) : Keeps rel (onlyIf c prog) :=
  keeps_ite h (keeps_pure ())

@[simp] lemma ensures_require (c : Prop) [Decidable c] :
    Ensures (require c) w Q E ↔ (c → Q () w) ∧ (¬ c → E .assertion w) :=
  ensures_stopUnless .assertion c

@[simp] lemma ensures_answers (c : Prop) [Decidable c] :
    Ensures (answers c) w Q E ↔ (c → Q () w) ∧ (¬ c → E .kernel w) :=
  ensures_stopUnless .kernel c

@[simp] lemma ensures_onlyIf (c : Prop) [Decidable c] (prog : Run Unit) :
    Ensures (onlyIf c prog) w Q E ↔ (c → Ensures prog w Q E) ∧ (¬ c → Q () w) := by
  simp [onlyIf, ensures_ite]

@[simp] lemma ensures_session {Q : Session → Worker → Prop} (s : Nat) :
    Ensures (session s) w Q E ↔ Q (w.sessions s) (w.emit (.field s)) := by
  simp [session]

@[simp] lemma ensures_conn {Q : Connection → Worker → Prop} (s : Nat) (d : Dir) :
    Ensures (conn s d) w Q E ↔ Q (w.conn s d) (w.emit (.field s)) := by
  simp [conn]

@[simp] lemma ensures_modifySession (s : Nat) (f : Session → Session) :
    Ensures (modifySession s f) w Q E ↔ Q () ((w.emit (.field s)).mapSession s f) := by
  simp [modifySession]

@[simp] lemma ensures_modifyConn (s : Nat) (d : Dir) (f : Connection → Connection) :
    Ensures (modifyConn s d f) w Q E ↔ Q () ((w.emit (.field s)).mapConn s d f) := by
  simp [modifyConn]

@[simp] lemma ensures_modifyFlags (s : Nat) (d : Dir) (f : ConnFlags → ConnFlags) :
    Ensures (modifyFlags s d f) w Q E ↔
      Q () ((w.emit (.field s)).mapConn s d fun c => { c with flags := f c.flags }) :=
  ensures_modifyConn s d _

@[simp] lemma ensures_itemOf {Q : Nat → Worker → Prop} (fd : Int) : Ensures (itemOf fd) w Q E ↔
      (0 ≤ fd → fd ≤ w.epoll.fe.maxfd → Q fd.toNat w) ∧
      (fd < 0 ∨ fd > w.epoll.fe.maxfd → E .assertion w) := by
  simp only [itemOf, ensures_bind, ensures_get, fdEpollMap]
  split
  · next h =>
    have bad : fd < 0 ∨ fd > w.epoll.fe.maxfd := by
      by_contra hok
      rw [if_neg hok] at h
      cases h
    simp only [ensures_throw, bad, forall_const]
    exact ⟨fun hE => ⟨fun _ _ => by omega, hE⟩, fun h => h.2⟩
  · next i h =>
    split at h
    · cases h
    · next hok =>
      cases h
      simp only [ensures_pure, hok, false_imp_iff, and_true]
      exact ⟨fun hQ _ _ => hQ, fun hQ => hQ (by omega) (by omega)⟩

@[simp] lemma ensures_writeItem (i : Nat) (f : FdItem Arg Callback → FdItem Arg Callback) :
    Ensures (writeItem i f) w Q E ↔
      (i < w.epoll.fe.maxfd → Q () (w.mapItem i f)) ∧
      (w.epoll.fe.maxfd ≤ i → E .outOfBounds w) := by
  simp [writeItem, ensures_ite]

/-- `fd_epoll_add_event` refuses a descriptor outside the table, and otherwise records
the request unless the update array is full. -/
@[simp] lemma ensures_addEvent {Q : Int → Worker → Prop} (fd : Int) (events : Mask)
    (iocb : Option Callback) : Ensures (addEvent fd events iocb) w Q E ↔
      (fd < 0 ∨ fd ≥ w.epoll.fe.maxfd → Q (-1) w) ∧
      (0 ≤ fd → fd < w.epoll.fe.maxfd →
        (∀ fe, w.epoll.fe.request fd.toNat events iocb = some fe → Q 0 (w.setTable fe)) ∧
        (w.epoll.fe.request fd.toNat events iocb = none → E .outOfBounds w)) := by
  have again : w.setTable w.epoll.fe = w := rfl
  simp only [addEvent, ensures_bind, ensures_get, fdEpollAddEvent]
  split_ifs with hneg hge
  · simp only [ensures_bind, ensures_modify, ensures_pure, again, hneg, true_or, forall_const]
    exact ⟨fun h => ⟨h, fun _ => by omega⟩, fun h => h.1⟩
  · simp only [ensures_bind, ensures_modify, ensures_pure, again, hge, or_true, forall_const]
    exact ⟨fun h => ⟨h, fun _ _ => by omega⟩, fun h => h.1⟩
  · have bad : ¬ (fd < 0 ∨ fd ≥ w.epoll.fe.maxfd) := by omega
    have inside : 0 ≤ fd ∧ fd < w.epoll.fe.maxfd := by omega
    cases w.epoll.fe.request fd.toNat events iocb with
    | none => simp [bad, inside]
    | some fe => simp [bad, inside]

end

end Fzsvn.Source.Proxy
