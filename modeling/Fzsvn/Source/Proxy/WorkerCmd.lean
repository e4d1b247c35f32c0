import Fzsvn.Source.Datastruct.Cblist

/-!
# Commands for a worker

Embedding of `worker_add_cmd`, `_worker_get_cmd` and `_worker_run_cmd` of
`network/proxy/tproxy/worker.c`, as the steps of the threads that add commands and of the
worker. A step is a lock or unlock, an operation on a list or one on the counter. A position
says which step comes next and holds the local variables. What a command does when it is run
is not part of the model. A command's memory is in use from the call that adds it until the
worker frees it; other memory of commands may change at any time. The pointer arguments are
not NULL and locking does not fail.
-/
namespace Fzsvn.Source.Proxy.WorkerCmd
open Library.CircularList Datastruct

/-- The list nodes: `cmdlist` of the worker, the local `cmdlist` of `_worker_get_cmd` and the
`list` member of each command. -/
inductive Node (C : Type) where
  | cmdlist
  | drained
  | cmd (c : C)
  deriving DecidableEq

/-- Positions in `worker_add_cmd`. -/
inductive AddPc (C : Type) where
  | out
  | lock (c : C)
  | link (c : C)
  | count
  | unlock

/-- Positions in `_worker_get_cmd`; `e` and `b` are `cmd` and `bak`. -/
inductive GetPc (C : Type) where
  | out
  | init
  | lock
  | test
  | join
  | reset
  | unlock
  | first
  | loop (e b : Node C)
  | del (e b : Node C)
  | run (e b : Node C)
  | next (b : Node C)

inductive Fault where
  /-- The counter, an `int`, overflows. -/
  | overflow
  /-- What is run is not a command. -/
  | notCommand

/-- The threads `T` that add commands, and the worker. `owner` has the mutex: nobody, the
worker (`some none`) or a thread. The last three fields are a record that the code does not
keep: the commands in the order in which their additions got the lock, those that were run,
and how many additions had got the lock when the last round did. -/
structure State (T C : Type) where
  links : Links (Node C)
  ncmd : Int
  owner : Option (Option T)
  inUse : C → Bool
  adders : T → AddPc C
  worker : GetPc C
  added : List C
  executed : List C
  due : Nat

variable {T C : Type} [DecidableEq T] [DecidableEq C]

/-- A worker that `_worker_alloc` has set up; nothing is known of the other memory. -/
def start (T : Type) (links : Links (Node C)) : State T C where
  links := cblistInit links .cmdlist
  ncmd := 0
  owner := none
  inUse := fun _ => false
  adders := fun _ => .out
  worker := .out
  added := []
  executed := []
  due := 0

def State.goto (s : State T C) (t : T) (pc : AddPc C) : State T C :=
  { s with adders := Function.update s.adders t pc }

/-- The next step of `worker_add_cmd`; `none` if the thread is not in it or waits. -/
def State.runAdder (s : State T C) (t : T) : Option (Except Fault (State T C)) :=
  match s.adders t with
  | .out => none
  | .lock c =>
    if s.owner.isSome then none
    else some (.ok ({ s with owner := some (some t), added := s.added ++ [c] }.goto t (.link c)))
  | .link c => some (.ok ({ s with links := cblistAddTail s.links .cmdlist (.cmd c) }.goto t .count))
  | .count =>
    if s.ncmd + 1 < 2 ^ 31 then some (.ok ({ s with ncmd := s.ncmd + 1 }.goto t .unlock))
    else some (.error .overflow)
  | .unlock => some (.ok ({ s with owner := none }.goto t .out))

/-- The next step of `_worker_get_cmd`; `none` if the worker is not in it or waits. -/
def State.runWorker (s : State T C) : Option (Except Fault (State T C)) :=
  match s.worker with
  | .out => none
  | .init => some (.ok { s with links := cblistInit s.links .drained, worker := .lock })
  | .lock =>
    if s.owner.isSome then none
    else some (.ok { s with owner := some none, due := s.added.length, worker := .test })
  | .test => some (.ok { s with worker := if s.ncmd > 0 then .join else .unlock })
  | .join => some (.ok { s with links := cblistJoin s.links .drained .cmdlist, worker := .reset })
  | .reset => some (.ok { s with ncmd := 0, worker := .unlock })
  | .unlock => some (.ok { s with owner := none, worker := .first })
  -- CBLIST_FOR_EACH_SAFE
  | .first =>
    let e := s.links.n .drained
    some (.ok { s with worker := .loop e (s.links.n e) })
  | .loop e b => some (.ok { s with worker := if e = .drained then .out else .del e b })
  | .del e b => some (.ok { s with links := cblistDel s.links e, worker := .run e b })
  | .run (.cmd c) b =>
    some (.ok { s with
      executed := s.executed ++ [c], inUse := Function.update s.inUse c false, worker := .next b })
  | .run _ _ => some (.error .notCommand)
  | .next b => some (.ok { s with worker := .loop b (s.links.n b) })

/-- A thread calls `worker_add_cmd` with a command that is not in use, the worker calls
`_worker_get_cmd`, one of them goes on, or memory that is not in use changes. -/
inductive Event (T C : Type) where
  | add (t : T) (c : C)
  | get
  | adder (t : T)
  | worker
  | overwrite (c : C) (p n : Node C)

/-- `none` if the event is not possible. -/
def State.step (s : State T C) : Event T C → Option (Except Fault (State T C))
  | .add t c =>
    match s.adders t with
    | .out =>
      if s.inUse c then none
      else some (.ok ({ s with inUse := Function.update s.inUse c true }.goto t (.lock c)))
    | _ => none
  | .get =>
    match s.worker with
    | .out => some (.ok { s with worker := .init })
    | _ => none
  | .adder t => s.runAdder t
  | .worker => s.runWorker
  | .overwrite c p n =>
    if s.inUse c then none
    else some (.ok { s with links := (s.links.setP (.cmd c) p).setN (.cmd c) n })

end Fzsvn.Source.Proxy.WorkerCmd
