import Fzsvn.Library.MachineInt
import Fzsvn.Source.Proxy.FdEpoll

/-!
# Epoll events

Embedding of `socket/proxy/utils/epoll_event.{c,h}`. `E` stands for the pointers to events
and `F` for the handlers. The kernel keeps the registrations behind `epfd` by descriptor;
whether an `epoll_ctl` call succeeds is an argument, as is the answer of `epoll_wait`. What
the handlers of a loop do to the events is given by the calls they make.

`calls` is not in the source: it records the `epoll_ctl` calls. The `events` array of the
context is the batch that the loop is given, and the statistics, which only the loop counts,
stand there. The private data of an event and the counters `naccept` and `nconn` are not used
by these functions.
-/
namespace Fzsvn.Source.Socket
open Library.MachineInt
open Proxy (Mask CtlOp epollIn epollOut epollErr)

structure EpEvent (F : Type) where
  fd : Int32
  isRead : Bool
  isWrite : Bool
  readFunc : Option F
  writeFunc : Option F
  errorFunc : Option F

structure EpCtx where
  epfd : Int32
  nfd : Int
  nevent : Int

/-- What `struct epoll_event` holds: the mask and the `data.ptr`. -/
structure Registration (E : Type) where
  events : Mask
  data : E

/-- One `epoll_ctl` call and whether its descriptor was registered then. -/
structure EpCtl where
  cmd : CtlOp
  fd : Int32
  registered : Bool

/-- The kernel rejects to add what is registered and to change or delete what is not. -/
def EpCtl.legal (ctl : EpCtl) : Bool :=
  match ctl.cmd with
  | .add => !ctl.registered
  | .mod | .del => ctl.registered

structure EpSys (E F : Type) where
  ctx : EpCtx
  events : E → EpEvent F
  kernel : Int32 → Option (Registration E)
  calls : List EpCtl

/-- `mallocCtx` and `mallocEvents` are whether the allocations succeed, `epfd` is the answer
of `epoll_create`. -/
def epEventCreate (max : Int) (mallocCtx : Bool) (epfd : Int32) (mallocEvents : Bool) : Option EpCtx :=
  if max < 1 then none
  else if !mallocCtx then none
  else if epfd < 0 then none
  else if !mallocEvents then none
  else some { epfd, nfd := 0, nevent := max }

/-! ## The interest in one direction -/

inductive Direction where
  | read | write
deriving DecidableEq, Repr

def Direction.other : Direction → Direction
  | .read => .write
  | .write => .read

def Direction.bit : Direction → Mask
  | .read => epollIn
  | .write => epollOut

def EpEvent.flag {F : Type} (ev : EpEvent F) : Direction → Bool
  | .read => ev.isRead
  | .write => ev.isWrite

def EpEvent.setFlag {F : Type} (ev : EpEvent F) (dir : Direction) (value : Bool) : EpEvent F :=
  match dir with
  | .read => { ev with isRead := value }
  | .write => { ev with isWrite := value }

variable {E F : Type} [DecidableEq E]

/-- `epoll_ctl`; `event` is `none` for `NULL`. Besides what is not legal the kernel refuses
descriptors that are not open and `epfd` itself; `ok` is its answer otherwise. -/
def EpSys.epollCtl (sys : EpSys E F) (ok : Bool) (cmd : CtlOp) (fd : Int32)
    (event : Option (Registration E)) : Bool × EpSys E F :=
  let ctl : EpCtl := ⟨cmd, fd, (sys.kernel fd).isSome⟩
  let issued := { sys with calls := sys.calls ++ [ctl] }
  if ok && ctl.legal && (0 : Int32) ≤ fd && fd ≠ sys.ctx.epfd then
    (true, { issued with
      kernel := Function.update sys.kernel fd (if cmd = .del then none else event) })
  else (false, issued)

def EpSys.setEvent (sys : EpSys E F) (e : E) (ev : EpEvent F) : EpSys E F :=
  { sys with events := Function.update sys.events e ev }

/-- `ctx->nfd += d` for an `int`. -/
def EpSys.addNfd (sys : EpSys E F) (d : Int) : EpSys E F :=
  { sys with ctx := { sys.ctx with nfd := toInt (sys.ctx.nfd + d) } }

/-- The two functions that add an interest differ in the flag and the bit only. -/
def epEventAddDirection (dir : Direction) (sys : EpSys E F) (e : E) (ok : Bool) : Int × EpSys E F :=
  let ev := sys.events e
  if ev.flag dir then (-1, sys)
  else
    let cmd : CtlOp := if ev.flag dir.other then .mod else .add
    let events := if ev.flag dir.other then epollIn ||| epollOut ||| epollErr
      else dir.bit ||| epollErr
    match sys.epollCtl ok cmd ev.fd (some ⟨events, e⟩) with
    | (false, sys) => (-1, sys)
    | (true, sys) =>
      let sys := sys.setEvent e (ev.setFlag dir true)
      (0, if cmd = .add then sys.addNfd 1 else sys)

/-- The two functions that delete an interest. -/
def epEventDelDirection (dir : Direction) (sys : EpSys E F) (e : E) (ok : Bool) : Int × EpSys E F :=
  let ev := sys.events e
  if !ev.flag dir then (-1, sys)
  else
    let cmd : CtlOp := if ev.flag dir.other then .mod else .del
    let events := if ev.flag dir.other then dir.other.bit ||| epollErr else 0#32
    match sys.epollCtl ok cmd ev.fd (some ⟨events, e⟩) with
    | (false, sys) => (-1, sys)
    | (true, sys) =>
      let sys := sys.setEvent e (ev.setFlag dir false)
      (0, if cmd = .del then sys.addNfd (-1) else sys)

/-- `_ep_event_del`. -/
def epEventDelBoth (sys : EpSys E F) (e : E) (ok : Bool) : Int × EpSys E F :=
  let ev := sys.events e
  if !ev.isRead && !ev.isWrite then (-1, sys)
  else
    match sys.epollCtl ok .del ev.fd none with
    | (false, sys) => (-1, sys)
    | (true, sys) =>
      (0, (sys.setEvent e { ev with isRead := false, isWrite := false }).addNfd (-1))

/-! ## The functions of the header -/

/-- `ctx` is whether the pointer to the context is given. -/
def epEventAddRead (sys : EpSys E F) (ctx : Bool) (ev : Option E) (ok : Bool) : Int × EpSys E F :=
  match ctx, ev with
  | true, some e =>
    if (sys.events e).readFunc.isNone then (-1, sys) else epEventAddDirection .read sys e ok
  | _, _ => (-1, sys)

def epEventAddWrite (sys : EpSys E F) (ctx : Bool) (ev : Option E) (ok : Bool) : Int × EpSys E F :=
  match ctx, ev with
  | true, some e =>
    if (sys.events e).writeFunc.isNone then (-1, sys) else epEventAddDirection .write sys e ok
  | _, _ => (-1, sys)

def epEventDelRead (sys : EpSys E F) (ctx : Bool) (ev : Option E) (ok : Bool) : Int × EpSys E F :=
  match ctx, ev with
  | true, some e => epEventDelDirection .read sys e ok
  | _, _ => (-1, sys)

def epEventDelWrite (sys : EpSys E F) (ctx : Bool) (ev : Option E) (ok : Bool) : Int × EpSys E F :=
  match ctx, ev with
  | true, some e => epEventDelDirection .write sys e ok
  | _, _ => (-1, sys)

def epEventDel (sys : EpSys E F) (ctx : Bool) (ev : Option E) (ok : Bool) : Int × EpSys E F :=
  match ctx, ev with
  | true, some e => epEventDelBoth sys e ok
  | _, _ => (-1, sys)

inductive EpOp where
  | addRead | addWrite | delRead | delWrite | del
deriving DecidableEq, Repr

/-- A call of one of the functions, with the kernel's answer to the `epoll_ctl` in it. -/
structure EpCall (E : Type) where
  op : EpOp
  ctx : Bool := true
  ev : Option E
  ok : Bool := true

def EpCall.apply (call : EpCall E) (sys : EpSys E F) : Int × EpSys E F :=
  match call.op with
  | .addRead => epEventAddRead sys call.ctx call.ev call.ok
  | .addWrite => epEventAddWrite sys call.ctx call.ev call.ok
  | .delRead => epEventDelRead sys call.ctx call.ev call.ok
  | .delWrite => epEventDelWrite sys call.ctx call.ev call.ok
  | .del => epEventDel sys call.ctx call.ev call.ok

def runCalls (sys : EpSys E F) (calls : List (EpCall E)) : EpSys E F :=
  calls.foldl (fun sys call => (call.apply sys).2) sys

/-! ## The loop -/

/-- The answer of `epoll_wait`; `again` is `errno` being `EAGAIN` or `EINTR`. An element of
the batch is the mask and the `data.ptr`. -/
inductive EpWait (E : Type) where
  | failed (again : Bool)
  | ready (batch : List (Mask × Option E))

inductive Handler where
  | read | write | error
deriving DecidableEq, Repr

/-- A handler that is called, with the flags of its event at that moment. -/
structure Invocation (E : Type) where
  handler : Handler
  ev : E
  isRead : Bool
  isWrite : Bool
deriving DecidableEq, Repr

structure EpStat where
  nread : UInt64 := 0
  nwrite : UInt64 := 0
  nerror : UInt64 := 0

/-- The loop under way: `invoked` is not in the source. -/
structure EpLoop (E F : Type) where
  sys : EpSys E F
  stat : EpStat
  invoked : List (Invocation E)

def EpStat.count (stat : EpStat) : Handler → EpStat
  | .read => { stat with nread := stat.nread + 1 }
  | .write => { stat with nwrite := stat.nwrite + 1 }
  | .error => { stat with nerror := stat.nerror + 1 }

/-- A handler is called and counted; the `k`-th one of the loop makes the calls `acts k`. -/
def EpLoop.invoke (acts : Nat → List (EpCall E)) (loop : EpLoop E F) (handler : Handler)
    (e : E) : EpLoop E F :=
  let ev := loop.sys.events e
  { sys := runCalls loop.sys (acts loop.invoked.length)
    stat := loop.stat.count handler
    invoked := loop.invoked ++ [⟨handler, e, ev.isRead, ev.isWrite⟩] }

/-- The body of the loop. -/
def dispatch (acts : Nat → List (EpCall E)) (loop : EpLoop E F) (entry : Mask × Option E) : EpLoop E F :=
  match entry with
  | (_, none) => loop
  | (events, some e) =>
    if events.has epollErr && (loop.sys.events e).errorFunc.isSome then
      loop.invoke acts .error e
    else
      let loop := if events.has epollOut && (loop.sys.events e).writeFunc.isSome
        then loop.invoke acts .write e else loop
      if events.has epollIn && (loop.sys.events e).readFunc.isSome
        then loop.invoke acts .read e else loop

def epEventLoop (acts : Nat → List (EpCall E)) (sys : EpSys E F) (stat : EpStat) (ctx : Bool)
    (wait : EpWait E) : Int × EpLoop E F :=
  match ctx, wait with
  | false, _ => (-1, ⟨sys, stat, []⟩)
  | true, .failed again => (if again then 0 else -1, ⟨sys, stat, []⟩)
  | true, .ready batch => (batch.length, batch.foldl (dispatch acts) ⟨sys, stat, []⟩)

end Fzsvn.Source.Socket
