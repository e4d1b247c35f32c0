import Mathlib.Data.List.Basic

/-!
# The batched epoll table

Embedding of `proxy/utils/fd_epoll.{c,h}`: the item table `maps`, the update
array `updates` with its counter, and the flush that turns pending requests into
`epoll_ctl` calls. The kernel side is the interest set behind `epfd`; every
`epoll_ctl` answer is an argument of the flush. The callback argument and the
callback of an item are opaque here, as `void *` and `fd_func` are in the source.

`revents`, `nmap` and the `events` buffer of `epoll_wait` are never read by these
functions and are left out.
-/
namespace Fzsvn.Source.Proxy

/-- The C `int` that carries epoll event bits. -/
abbrev Mask := BitVec 32

def epollIn : Mask := 0x001#32
def epollOut : Mask := 0x004#32
def epollErr : Mask := 0x008#32
def epollHup : Mask := 0x010#32
def epollRdHup : Mask := 0x2000#32

def fdIn : Mask := epollIn ||| epollRdHup
def fdOut : Mask := epollOut

/-- `events & bit` read as a C condition. -/
def Mask.has (events bit : Mask) : Bool := events &&& bit != 0#32

inductive FdState where
  | closed | ready
  deriving DecidableEq, Repr

structure FdItem (α β : Type) where
  events : Mask
  pevents : Mask
  state : FdState
  arg : Option α
  isUpdated : Bool
  iocb : Option β
  deriving Repr

/-- `memset(fi, 0, sizeof(*fi))`, which is also the `calloc`ed state. -/
def FdItem.zero {α β : Type} : FdItem α β := ⟨0#32, 0#32, .closed, none, false, none⟩

/-- `updates` lists the first `nupdate` cells of the array of `maxfd` cells. -/
structure FdEpoll (α β : Type) where
  maxfd : Nat
  maps : Nat → FdItem α β
  updates : List Nat

variable {α β : Type}

/-- `fd_epoll_alloc` after its checks. -/
def fdEpollAlloc (maxfd : Nat) : FdEpoll α β := ⟨maxfd, fun _ => .zero, []⟩

def FdEpoll.setItem (fe : FdEpoll α β) (fd : Nat) (fi : FdItem α β) : FdEpoll α β :=
  { fe with maps := Function.update fe.maps fd fi }

section

variable (fe : FdEpoll α β) (fd : Nat) (fi : FdItem α β)
include fe fd fi

@[simp] lemma FdEpoll.setItem_maxfd : (fe.setItem fd fi).maxfd = fe.maxfd := rfl

@[simp] lemma FdEpoll.setItem_updates : (fe.setItem fd fi).updates = fe.updates := rfl

@[simp] lemma FdEpoll.setItem_maps_self : (fe.setItem fd fi).maps fd = fi := by
  simp [FdEpoll.setItem]

end

variable {fd other : Nat}

lemma FdEpoll.setItem_maps_other (fe : FdEpoll α β) (fi : FdItem α β) (different : other ≠ fd) :
    (fe.setItem fd fi).maps other = fe.maps other := by
  simp [FdEpoll.setItem, different]

/-- `fd_epoll_map`: the index of the returned item. The test is `fd > maxfd`, so
`maxfd` itself is answered although the table ends before it. -/
def fdEpollMap (fe : FdEpoll α β) (fd : Int) : Option Nat :=
  if fd < 0 ∨ fd > fe.maxfd then none else some fd.toNat

/-- `fd_epoll_add_event` on a valid descriptor. `none` is the write behind the
last cell of `updates`, after which nothing is known of the process. -/
def FdEpoll.request (fe : FdEpoll α β) (fd : Nat) (events : Mask) (iocb : Option β) : Option (FdEpoll α β) :=
  let fi := { fe.maps fd with events := events, iocb := iocb }
  if fi.isUpdated then some (fe.setItem fd fi)
  else if fe.updates.length < fe.maxfd then
    some { fe.setItem fd { fi with isUpdated := true } with updates := fe.updates ++ [fd] }
  else none

/-- A request that is accepted rewrites the item of its descriptor and queues it
unless it was marked already. -/
lemma FdEpoll.request_effect {fe after : FdEpoll α β} {fd : Nat} {events : Mask}
    {iocb : Option β} (h : fe.request fd events iocb = some after) : after.maxfd = fe.maxfd ∧
    after.maps fd = { fe.maps fd with events := events, iocb := iocb, isUpdated := true } ∧
    (∀ other, other ≠ fd → after.maps other = fe.maps other) ∧
    after.updates = if (fe.maps fd).isUpdated then fe.updates else fe.updates ++ [fd] := by
  simp only [FdEpoll.request] at h
  split at h
  next hmark =>
    cases h
    refine ⟨rfl, ?_, fun other h => FdEpoll.setItem_maps_other _ _ h, ?_⟩
    · rw [FdEpoll.setItem_maps_self]
      simpa using hmark
    · rw [if_pos hmark]
      rfl
  next hmark =>
    split at h
    · cases h
      refine ⟨rfl, FdEpoll.setItem_maps_self _ _ _, fun other h => ?_, ?_⟩
      · exact FdEpoll.setItem_maps_other _ _ h
      · rw [if_neg hmark]
    · cases h

def fdEpollAddEvent (fe : FdEpoll α β) (fd : Int) (events : Mask) (iocb : Option β) :
    Option (FdEpoll α β × Int) :=
  if fd < 0 then some (fe, -1)
  else if fd ≥ fe.maxfd then some (fe, -1)
  else (fe.request fd.toNat events iocb).map (·, 0)

inductive CtlOp where
  | add | mod | del
  deriving DecidableEq, Repr

/-- One `epoll_ctl` call, with what the kernel had registered when it was made. -/
structure CtlCall where
  op : CtlOp
  fd : Nat
  events : Mask
  registered : Option Mask
  deriving DecidableEq, Repr

/-- The table, the kernel's interest set and the calls of the last flush. -/
structure EpollSys (α β : Type) where
  fe : FdEpoll α β
  interest : Nat → Option Mask
  calls : List CtlCall

/-- A successful `epoll_ctl`. -/
def epollCtl (interest : Nat → Option Mask) (op : CtlOp) (fd : Nat) (events : Mask) : Nat → Option Mask :=
  Function.update interest fd (match op with
    | .add => some events
    | .mod => some events
    | .del => none)

def ctlOp (fi : FdItem α β) : CtlOp :=
  if fi.pevents = 0#32 then .add else if fi.events = 0#32 then .del else .mod

/-- The part of the loop body behind the checks: the `epoll_ctl` call. A failed
call leaves the item as it is. -/
def commit (ok : Bool) (sys : EpollSys α β) (fd : Nat) : EpollSys α β :=
  let fi := sys.fe.maps fd
  let op := ctlOp fi
  let called := { sys with
    calls := sys.calls ++ [⟨op, fd, fi.events, sys.interest fd⟩] }
  if ok then
    { called with
      interest := epollCtl sys.interest op fd fi.events
      fe := sys.fe.setItem fd { fi with pevents := fi.events, isUpdated := false } }
  else called

/-- One iteration of `fd_epoll_flush_events`; `ok` is the answer of `epoll_ctl`. -/
def flushOne (ok : Bool) (sys : EpollSys α β) (fd : Nat) : EpollSys α β :=
  let fi := sys.fe.maps fd
  if fd = 0 then sys
  else if fi.arg.isNone then sys
  else if fi.isUpdated = false then sys
  else if fi.state ≠ .ready then
    { sys with fe := sys.fe.setItem fd { fi with isUpdated := false } }
  else if fi.events = fi.pevents then
    { sys with fe := sys.fe.setItem fd { fi with isUpdated := false } }
  else commit ok sys fd

/-- The loop over `updates[i..]`; the call made at index `i` is answered by `ok i`. -/
def flushFrom (ok : Nat → Bool) : Nat → List Nat → EpollSys α β → EpollSys α β
  | _, [], sys => sys
  | i, fd :: rest, sys => flushFrom ok (i + 1) rest (flushOne (ok i) sys fd)

def fdEpollFlushEvents (ok : Nat → Bool) (sys : EpollSys α β) : EpollSys α β :=
  let done := flushFrom ok 0 sys.fe.updates { sys with calls := [] }
  { done with fe := { done.fe with updates := [] } }

/-! ## What one iteration can do -/

section

variable (ok : Bool) (sys : EpollSys α β)
include ok sys

/-- The loop body either skips the entry, drops its mark, or calls `epoll_ctl`. -/
lemma flushOne_cases (fd : Nat) : (flushOne ok sys fd = sys ∧
      (fd = 0 ∨ (sys.fe.maps fd).arg = none ∨ (sys.fe.maps fd).isUpdated = false)) ∨ (flushOne ok sys fd =
        { sys with fe := sys.fe.setItem fd { sys.fe.maps fd with isUpdated := false } } ∧
      fd ≠ 0 ∧ (sys.fe.maps fd).arg ≠ none ∧ (sys.fe.maps fd).isUpdated = true ∧
      ((sys.fe.maps fd).state ≠ .ready ∨
        (sys.fe.maps fd).events = (sys.fe.maps fd).pevents)) ∨ (flushOne ok sys fd = commit ok sys fd ∧
      fd ≠ 0 ∧ (sys.fe.maps fd).arg ≠ none ∧ (sys.fe.maps fd).isUpdated = true ∧
      (sys.fe.maps fd).state = .ready ∧
      (sys.fe.maps fd).events ≠ (sys.fe.maps fd).pevents) := by
  unfold flushOne
  dsimp only
  split
  · next h => exact .inl ⟨rfl, .inl h⟩
  next hfd =>
    split
    · next h => exact .inl ⟨rfl, .inr (.inl (Option.isNone_iff_eq_none.mp h))⟩
    next harg =>
      have harg' : (sys.fe.maps fd).arg ≠ none := fun h => harg (by simp [h])
      split
      · next h => exact .inl ⟨rfl, .inr (.inr h)⟩
      next hupd =>
        have hupd' : (sys.fe.maps fd).isUpdated = true := by simpa using hupd
        split
        · next h => exact .inr (.inl ⟨rfl, hfd, harg', hupd', .inl h⟩)
        next hst =>
          have hst' : (sys.fe.maps fd).state = .ready := by
            by_contra h
            exact hst h
          split
          · next h => exact .inr (.inl ⟨rfl, hfd, harg', hupd', .inr h⟩)
          · next h => exact .inr (.inr ⟨rfl, hfd, harg', hupd', hst', h⟩)

@[simp] lemma commit_maxfd (fd : Nat) : (commit ok sys fd).fe.maxfd = sys.fe.maxfd := by
  unfold commit
  cases ok <;> rfl

@[simp] lemma commit_updates (fd : Nat) : (commit ok sys fd).fe.updates = sys.fe.updates := by
  unfold commit
  cases ok <;> rfl

@[simp] lemma flushOne_maxfd (fd : Nat) : (flushOne ok sys fd).fe.maxfd = sys.fe.maxfd := by
  rcases flushOne_cases ok sys fd with ⟨h, -⟩ | ⟨h, -⟩ | ⟨h, -⟩ <;> rw [h] <;> simp

@[simp] lemma flushOne_updates (fd : Nat) : (flushOne ok sys fd).fe.updates = sys.fe.updates := by
  rcases flushOne_cases ok sys fd with ⟨h, -⟩ | ⟨h, -⟩ | ⟨h, -⟩ <;> rw [h] <;> simp

lemma flushOne_maps_other (different : other ≠ fd) :
    (flushOne ok sys fd).fe.maps other = sys.fe.maps other := by
  rcases flushOne_cases ok sys fd with ⟨h, -⟩ | ⟨h, -⟩ | ⟨h, -⟩ <;> rw [h]
  · exact FdEpoll.setItem_maps_other _ _ different
  · cases ok
    · rfl
    · exact FdEpoll.setItem_maps_other _ _ different

lemma flushOne_interest_other (different : other ≠ fd) :
    (flushOne ok sys fd).interest other = sys.interest other := by
  rcases flushOne_cases ok sys fd with ⟨h, -⟩ | ⟨h, -⟩ | ⟨h, -⟩ <;> rw [h]
  cases ok
  · rfl
  · simp [commit, epollCtl, different]

end

lemma flushFrom_frame (ok : Nat → Bool) (queue : List Nat) (i : Nat) (sys : EpollSys α β) :
    (flushFrom ok i queue sys).fe.maxfd = sys.fe.maxfd ∧
    (flushFrom ok i queue sys).fe.updates = sys.fe.updates := by
  induction queue generalizing i sys with
  | nil => exact ⟨rfl, rfl⟩
  | cons fd rest ih =>
    obtain ⟨h1, h2⟩ := ih (i + 1) (flushOne (ok i) sys fd)
    exact ⟨h1.trans (flushOne_maxfd _ _ _), h2.trans (flushOne_updates _ _ _)⟩

lemma flushFrom_maps_other (ok : Nat → Bool) {queue : List Nat} (i : Nat) (sys : EpollSys α β)
    {x : Nat} (absent : x ∉ queue) : (flushFrom ok i queue sys).fe.maps x = sys.fe.maps x := by
  induction queue generalizing i sys with
  | nil => rfl
  | cons fd rest ih =>
    have hx : x ≠ fd ∧ x ∉ rest := by simpa using absent
    rw [flushFrom, ih (i + 1) _ hx.2, flushOne_maps_other _ _ hx.1]

/-- A flush writes `pevents` and `is_updated`; the request and its owner stay. -/
structure SameRequest (fi fi' : FdItem α β) : Prop where
  events : fi'.events = fi.events
  state : fi'.state = fi.state
  arg : fi'.arg = fi.arg
  iocb : fi'.iocb = fi.iocb

lemma flushOne_request (ok : Bool) (sys : EpollSys α β) (fd i : Nat) :
    SameRequest (sys.fe.maps i) ((flushOne ok sys fd).fe.maps i) := by
  by_cases same : i = fd
  · subst same
    rcases flushOne_cases ok sys i with ⟨h, -⟩ | ⟨h, -⟩ | ⟨h, -⟩
    · rw [h]
      exact ⟨rfl, rfl, rfl, rfl⟩
    · rw [h, FdEpoll.setItem_maps_self]
      exact ⟨rfl, rfl, rfl, rfl⟩
    · rw [h]
      cases ok <;> simp only [commit, if_true, FdEpoll.setItem_maps_self] <;>
        exact ⟨rfl, rfl, rfl, rfl⟩
  · rw [flushOne_maps_other ok sys same]
    exact ⟨rfl, rfl, rfl, rfl⟩

lemma flushFrom_request (ok : Nat → Bool) (queue : List Nat) (n : Nat) (sys : EpollSys α β)
    (i : Nat) : SameRequest (sys.fe.maps i) ((flushFrom ok n queue sys).fe.maps i) := by
  induction queue generalizing n sys with
  | nil => exact ⟨rfl, rfl, rfl, rfl⟩
  | cons fd rest ih =>
    have first := flushOne_request (ok n) sys fd i
    have later := ih (n + 1) (flushOne (ok n) sys fd)
    exact ⟨later.events.trans first.events, later.state.trans first.state,
      later.arg.trans first.arg, later.iocb.trans first.iocb⟩

lemma flush_request (ok : Nat → Bool) (sys : EpollSys α β) (i : Nat) :
    SameRequest (sys.fe.maps i) ((fdEpollFlushEvents ok sys).fe.maps i) :=
  flushFrom_request ok sys.fe.updates 0 { sys with calls := [] } i

@[simp] lemma flush_maxfd (ok : Nat → Bool) (sys : EpollSys α β) :
    (fdEpollFlushEvents ok sys).fe.maxfd = sys.fe.maxfd :=
  (flushFrom_frame ok sys.fe.updates 0 { sys with calls := [] }).1

/-! ## The table as its owners drive it -/

/-- What happens to the table: a request, an owner writing `state` and `arg` through
`fd_epoll_map`, an owner zeroing the item and closing the descriptor (which removes
it from the kernel's set), and a flush with the kernel's answers. -/
inductive TableOp (α β : Type) where
  | add (fd : Nat) (events : Mask) (iocb : Option β)
  | own (fd : Nat) (state : FdState) (arg : Option α)
  | reset (fd : Nat)
  | flush (ok : Nat → Bool)

def EpollSys.start (maxfd : Nat) : EpollSys α β := ⟨fdEpollAlloc maxfd, fun _ => none, []⟩

def EpollSys.own (sys : EpollSys α β) (fd : Nat) (state : FdState) (arg : Option α) : EpollSys α β :=
  { sys with fe := sys.fe.setItem fd { sys.fe.maps fd with state := state, arg := arg } }

def EpollSys.reset (sys : EpollSys α β) (fd : Nat) : EpollSys α β :=
  { sys with fe := sys.fe.setItem fd .zero, interest := Function.update sys.interest fd none }

def TableOp.apply (sys : EpollSys α β) : TableOp α β → Option (EpollSys α β)
  | .add fd events iocb =>
    (fdEpollAddEvent sys.fe fd events iocb).map fun r => { sys with fe := r.1 }
  | .own fd state arg => some (sys.own fd state arg)
  | .reset fd => some (sys.reset fd)
  | .flush ok => some (fdEpollFlushEvents ok sys)

def runTable (sys : EpollSys α β) : List (TableOp α β) → Option (EpollSys α β)
  | [] => some sys
  | op :: rest => (op.apply sys).bind fun next => runTable next rest

end Fzsvn.Source.Proxy
