import Fzsvn.Guarantees.Socket.EventMirror

/-!
# Which handlers a batch calls

The loop decides by the masks that `epoll_wait` returned and by the handlers of the events,
neither of which a handler changes: the handlers that are called are fixed when the batch is
returned. The flags are not looked at, so a handler is called although an earlier one of the
same batch deleted its interest. Whether it did is seen from the calls that the earlier ones
make: in a state that mirrors the kernel a call takes effect exactly if it gets to the kernel
with a descriptor that can be registered and `epoll_ctl` succeeds.
-/
namespace Fzsvn.Guarantees.Socket
open Source.Socket List Function
open Source.Proxy (Mask CtlOp epollIn epollOut epollErr)

variable {E F : Type}

/-- The interest that a handler is called for is set. -/
def live : Handler → Bool → Bool → Bool
  | .read, isRead, _ => isRead
  | .write, _, isWrite => isWrite
  | .error, isRead, isWrite => isRead || isWrite

/-- The handlers that an element of the batch asks for, in their order. -/
def due (events : E → EpEvent F) : Mask × Option E → List (Handler × E)
  | (_, none) => []
  | (mask, some e) =>
    if mask.has epollErr && (events e).errorFunc.isSome then [(.error, e)]
    else
      (if mask.has epollOut && (events e).writeFunc.isSome then [(.write, e)] else []) ++
      (if mask.has epollIn && (events e).readFunc.isSome then [(.read, e)] else [])

/-! ## Calls keep the handlers -/

def handlers (events : E → EpEvent F) (e : E) : Option F × Option F × Option F :=
  ((events e).readFunc, (events e).writeFunc, (events e).errorFunc)

lemma due_congr {events after : E → EpEvent F} (he : handlers after = handlers events) :
    due after = due events := by
  funext entry
  obtain ⟨mask, _ | e⟩ := entry
  · rfl
  · have hh := congrFun he e
    simp only [handlers, Prod.mk.injEq] at hh
    simp only [due, hh]

variable [DecidableEq E]

lemma handlers_update {events : E → EpEvent F} {e : E} {ev : EpEvent F}
    (he : (ev.readFunc, ev.writeFunc, ev.errorFunc) = handlers events e) :
    handlers (update events e ev) = handlers events := by
  funext i
  by_cases isE : i = e
  · rw [isE, handlers, update_self, he]
  · rw [handlers, update_of_ne isE, handlers]

/-- The kernel can register the descriptor of the event. -/
def Registrable (sys : EpSys E F) (e : E) : Prop := 0 ≤ (sys.events e).fd ∧ (sys.events e).fd ≠ sys.ctx.epfd

instance {sys : EpSys E F} {e : E} : Decidable (Registrable sys e) := inferInstanceAs (Decidable (_ ∧ _))

/-- What a function leaves that writes `ev` where there is something to do: the events are as they
were or have `ev`, and in a state that mirrors the kernel it is known when. -/
structure Writes (sys : EpSys E F) (e : E) (ev : EpEvent F) (todo ok : Bool) (after : E → EpEvent F) : Prop where
  either : after = sys.events ∨ after = update sys.events e ev
  known : Asked sys → after = if todo ∧ ok ∧ Registrable sys e then update sys.events e ev else sys.events

section

variable {sys : EpSys E F} {e : E} {ev : EpEvent F} {dir : Direction} {ok : Bool}

lemma writes_nothing : Writes sys e ev false ok sys.events :=
  ⟨.inl rfl, fun _ => (if_neg (by simp)).symm⟩

/-- The shape all functions share: an `epoll_ctl` that is legal where the kernel is mirrored. -/
lemma writes_ctl (cmd : CtlOp) {event : Option (Registration E)} {result : Int × EpSys E F}
    (legal : Asked sys → EpCtl.legal ⟨cmd, (sys.events e).fd, (sys.kernel (sys.events e).fd).isSome⟩)
    (refused : ∀ next, sys.epollCtl ok cmd (sys.events e).fd event = (false, next) →
      result.2.events = next.events)
    (done : ∀ next, sys.epollCtl ok cmd (sys.events e).fd event = (true, next) →
      result.2.events = update next.events e ev) : Writes sys e ev true ok result.2.events := by
  constructor
  · rcases epollCtl_cases sys ok cmd (sys.events e).fd event with failed | ⟨succeeded, -⟩
    · exact .inl (by rw [refused _ failed])
    · exact .inr (by rw [done _ succeeded])
  · intro asked
    unfold EpSys.epollCtl at refused done
    dsimp only at refused done
    by_cases accepted : ok ∧ Registrable sys e
    · have written := done _ (if_pos (by simp [legal asked, accepted.1, accepted.2.1, accepted.2.2]))
      rwa [if_pos ⟨rfl, accepted⟩]
    · have left := refused _ (if_neg (by simpa [legal asked, Registrable, and_assoc] using accepted))
      rwa [if_neg fun all => accepted all.2]

lemma add_writes : Writes sys e ((sys.events e).setFlag dir true) (!(sys.events e).flag dir) ok
    (epEventAddDirection dir sys e ok).2.events := by
  unfold epEventAddDirection
  dsimp only
  split
  next isSet =>
    rw [isSet]
    exact writes_nothing
  next off =>
    rw [Bool.not_eq_true] at off
    rw [off]
    apply writes_ctl (if (sys.events e).flag dir.other then .mod else .add)
    · intro asked
      rw [asked.registered e, active_flags _, off, Bool.false_or]
      cases (sys.events e).flag dir.other <;> rfl
    · intro next refused
      rw [refused]
    · intro next done
      rw [done]
      dsimp only
      split <;> rfl

lemma del_writes : Writes sys e ((sys.events e).setFlag dir false) ((sys.events e).flag dir) ok
    (epEventDelDirection dir sys e ok).2.events := by
  unfold epEventDelDirection
  dsimp only
  split
  next off =>
    rw [Bool.not_eq_true'] at off
    rw [off]
    exact writes_nothing
  next isSet =>
    rw [Bool.not_eq_true, Bool.not_eq_false'] at isSet
    rw [isSet]
    apply writes_ctl (if (sys.events e).flag dir.other then .mod else .del)
    · intro asked
      rw [asked.registered e, active_flags _, isSet, Bool.true_or]
      cases (sys.events e).flag dir.other <;> rfl
    · intro next refused
      rw [refused]
    · intro next done
      rw [done]
      dsimp only
      split <;> rfl

lemma delBoth_writes : Writes sys e { sys.events e with isRead := false, isWrite := false }
    (Active (sys.events e)) ok (epEventDelBoth sys e ok).2.events := by
  unfold epEventDelBoth
  dsimp only
  split
  next idle =>
    have isIdle : Active (sys.events e) = false := by simpa [Active] using idle
    rw [isIdle]
    exact writes_nothing
  next active =>
    have isActive : Active (sys.events e) = true := by
      simpa [Active, imp_iff_not_or, or_comm] using active
    rw [isActive]
    apply writes_ctl .del
    · intro asked
      rw [asked.registered e]
      exact isActive
    · intro next refused
      rw [refused]
    · intro next done
      rw [done]
      rfl

lemma Writes.handlers {todo : Bool} {after : E → EpEvent F} (writes : Writes sys e ev todo ok after)
    (same : (ev.readFunc, ev.writeFunc, ev.errorFunc) = handlers sys.events e) :
    Socket.handlers after = Socket.handlers sys.events := by
  rcases writes.either with rfl | rfl
  · rfl
  · exact handlers_update same

end

lemma apply_handlers (call : EpCall E) (sys : EpSys E F) :
    handlers (call.apply sys).2.events = handlers sys.events := by
  apply apply_cases (P := fun result => handlers result.2.events = handlers sys.events) call
  · rfl
  · exact fun dir e => add_writes.handlers (by cases dir <;> rfl)
  · exact fun dir e => del_writes.handlers (by cases dir <;> rfl)
  · exact fun e => delBoth_writes.handlers rfl

lemma runCalls_handlers (calls : List (EpCall E)) (sys : EpSys E F) :
    handlers (runCalls sys calls).events = handlers sys.events := by
  induction calls generalizing sys with
  | nil => rfl
  | cons call rest ih => exact (ih _).trans (apply_handlers call sys)

/-! ## The loop calls what is due -/

variable (acts : Nat → List (EpCall E))

def invokeAll (loop : EpLoop E F) (called : List (Handler × E)) : EpLoop E F :=
  called.foldl (fun loop h => loop.invoke acts h.1 h.2) loop

lemma invokeAll_handlers (called : List (Handler × E)) (loop : EpLoop E F) :
    handlers (invokeAll acts loop called).sys.events = handlers loop.sys.events := by
  induction called generalizing loop with
  | nil => rfl
  | cons h rest ih => exact (ih _).trans (runCalls_handlers _ _)

lemma dispatch_due (loop : EpLoop E F) (entry : Mask × Option E) :
    dispatch acts loop entry = invokeAll acts loop (due loop.sys.events entry) := by
  obtain ⟨mask, _ | e⟩ := entry
  · rfl
  unfold dispatch due
  dsimp only
  by_cases he : mask.has epollErr && (loop.sys.events e).errorFunc.isSome
  · rw [if_pos he, if_pos he]
    rfl
  rw [if_neg he, if_neg he]
  -- the handler for writing leaves the one for reading in place
  have hk := congrFun (runCalls_handlers (acts loop.invoked.length) loop.sys) e
  simp only [handlers, Prod.mk.injEq] at hk
  by_cases hw : mask.has epollOut && (loop.sys.events e).writeFunc.isSome
  · rw [if_pos hw, if_pos hw]
    simp only [EpLoop.invoke, hk.1]
    split <;> rfl
  · rw [if_neg hw, if_neg hw]
    split <;> rfl

lemma dispatchAll_due (batch : List (Mask × Option E)) (loop : EpLoop E F) :
    batch.foldl (dispatch acts) loop = invokeAll acts loop (batch.flatMap (due loop.sys.events)) := by
  induction batch generalizing loop with
  | nil => rfl
  | cons entry rest ih =>
    rw [foldl_cons, ih, dispatch_due, due_congr (invokeAll_handlers acts _ loop),
      flatMap_cons, invokeAll, invokeAll, invokeAll, foldl_append]

/-- Each handler finds the state that the calls of those before it lead to. -/
lemma invokeAll_live (called : List (Handler × E)) (loop : EpLoop E F) :
    (∀ inv ∈ (invokeAll acts loop called).invoked, live inv.handler inv.isRead inv.isWrite) ↔
      (∀ inv ∈ loop.invoked, live inv.handler inv.isRead inv.isWrite) ∧
      ∀ k h e, called[k]? = some (h, e) →
        let ev := (runCalls loop.sys ((range' loop.invoked.length k).flatMap acts)).events e
        live h ev.isRead ev.isWrite := by
  induction called generalizing loop with
  | nil => simp [invokeAll]
  | cons first rest ih =>
    obtain ⟨h, e⟩ := first
    have later (k : Nat) : runCalls loop.sys ((range' loop.invoked.length (k + 1)).flatMap acts) =
        runCalls (loop.invoke acts h e).sys ((range' (loop.invoke acts h e).invoked.length k).flatMap acts) := by
      rw [range'_succ, flatMap_cons, runCalls, foldl_append]
      simp only [EpLoop.invoke, length_append, length_singleton, runCalls]
    rw [invokeAll, foldl_cons]
    refine (ih _).trans ?_
    have called₀ : (∀ inv ∈ (loop.invoke acts h e).invoked, live inv.handler inv.isRead inv.isWrite) ↔
        (∀ inv ∈ loop.invoked, live inv.handler inv.isRead inv.isWrite) ∧
          live h (loop.sys.events e).isRead (loop.sys.events e).isWrite := by
      simp only [EpLoop.invoke, forall_mem_append, forall_mem_singleton]
    rw [called₀, and_assoc]
    refine and_congr_right fun _ => ⟨?_, ?_⟩
    · rintro ⟨first, others⟩ k i j hk
      cases k with
      | zero =>
        obtain ⟨rfl, rfl⟩ := Prod.mk.inj (Option.some.inj hk)
        exact first
      | succ k =>
        rw [later]
        exact others k i j hk
    · intro all
      refine ⟨all 0 h e rfl, fun k i j hk => ?_⟩
      rw [← later]
      exact all (k + 1) i j hk

/-! ## What the calls do to an interest -/

def addOp : Direction → EpOp
  | .read => .addRead
  | .write => .addWrite

def delOp : Direction → EpOp
  | .read => .delRead
  | .write => .delWrite

def func (ev : EpEvent F) : Direction → Option F
  | .read => ev.readFunc
  | .write => ev.writeFunc

/-- The call adds the interest, unless it is there already. -/
def Adds (sys : EpSys E F) (call : EpCall E) (dir : Direction) (e : E) : Prop :=
  (call.ctx ∧ call.ev = some e ∧ call.ok ∧ call.op = addOp dir) ∧ (func (sys.events e) dir).isSome ∧
    Registrable sys e

/-- The call deletes the interest, if it is there. -/
def Deletes (call : EpCall E) (dir : Direction) (e : E) : Prop :=
  call.ctx ∧ call.ev = some e ∧ call.ok ∧ (call.op = delOp dir ∨ call.op = .del)

/-- The interest is there after the calls: it was there before them, or one of them adds it, and
none after that deletes it. -/
def Stays (sys : EpSys E F) (calls : List (EpCall E)) (e : E) (dir : Direction) : Prop :=
  ((sys.events e).flag dir ∧ ∀ call ∈ calls, ¬ Deletes call dir e) ∨
    ∃ add after, add :: after <:+ calls ∧ Adds sys add dir e ∧ ∀ call ∈ after, ¬ Deletes call dir e

variable {sys : EpSys E F} {e : E} {dir : Direction} {ok : Bool}

lemma flag_setFlag (ev : EpEvent F) (value : Bool) (other : Direction) :
    (ev.setFlag dir value).flag other = if other = dir then value else ev.flag other := by
  cases dir <;> cases other <;> rfl

/-! ## What is left of an interest -/

lemma apply_add {i : E} (d : Direction) : EpCall.apply ⟨addOp d, true, some i, ok⟩ sys =
    if (func (sys.events i) d).isNone then (-1, sys) else epEventAddDirection d sys i ok := by
  cases d <;> rfl

lemma apply_del {i : E} (d : Direction) :
    EpCall.apply ⟨delOp d, true, some i, ok⟩ sys = epEventDelDirection d sys i ok := by
  cases d <;> rfl

lemma op_cases (op : EpOp) : (∃ d, op = addOp d) ∨ (∃ d, op = delOp d) ∨ op = .del := by
  cases op with
  | addRead => exact .inl ⟨.read, rfl⟩
  | addWrite => exact .inl ⟨.write, rfl⟩
  | delRead => exact .inr (.inl ⟨.read, rfl⟩)
  | delWrite => exact .inr (.inl ⟨.write, rfl⟩)
  | del => exact .inr (.inr rfl)

lemma addOp_inj {d : Direction} : addOp d = addOp dir ↔ d = dir := by
  cases d <;> cases dir <;> decide

lemma delOp_inj {d : Direction} : delOp d = delOp dir ↔ d = dir := by
  cases d <;> cases dir <;> decide

lemma addOp_ne_delOp {d : Direction} : addOp d ≠ delOp dir := by
  cases d <;> cases dir <;> decide

lemma addOp_ne_del {d : Direction} : addOp d ≠ .del := by
  cases d <;> decide

lemma delOp_ne_del {d : Direction} : delOp d ≠ .del := by
  cases d <;> decide

variable [Fintype E]

omit [DecidableEq E] in
/-- What is interesting can be registered. -/
lemma Mirrored.registrable (mirrored : Mirrored sys) (isSet : (sys.events e).flag dir) : Registrable sys e :=
  mirrored.accepted e (by rw [@active_flags _ _ dir, isSet, Bool.true_or])

section

variable (mirrored : Mirrored sys) {i : E} {d : Direction}
include mirrored

lemma add_flag : ((epEventAddDirection d sys i ok).2.events e).flag dir ↔
    (i = e ∧ d = dir ∧ ok ∧ Registrable sys e) ∨ (sys.events e).flag dir := by
  rw [add_writes.known mirrored.asked]
  by_cases same : i = e
  · subst same
    by_cases direct : d = dir
    · subst direct
      cases isSet : (sys.events i).flag d <;> split <;> simp_all [flag_setFlag]
    · split <;> simp [flag_setFlag, direct, Ne.symm direct]
  · split <;> simp [same, update_of_ne (Ne.symm same)]

lemma del_flag : ((epEventDelDirection d sys i ok).2.events e).flag dir ↔
    (sys.events e).flag dir ∧ ¬ (i = e ∧ d = dir ∧ ok) := by
  rw [del_writes.known mirrored.asked]
  by_cases same : i = e
  · subst same
    by_cases direct : d = dir
    · subst direct
      have able : (sys.events i).flag d = true → Registrable sys i := mirrored.registrable
      split <;> simp_all [flag_setFlag]
    · split <;> simp [flag_setFlag, direct, Ne.symm direct]
  · split <;> simp [same, update_of_ne (Ne.symm same)]

lemma delBoth_flag : ((epEventDelBoth sys i ok).2.events e).flag dir ↔
    (sys.events e).flag dir ∧ ¬ (i = e ∧ ok) := by
  rw [delBoth_writes.known mirrored.asked]
  by_cases same : i = e
  · subst same
    have able : (sys.events i).flag dir = true → Active (sys.events i) ∧ Registrable sys i := fun isSet =>
      ⟨by rw [@active_flags _ _ dir, isSet, Bool.true_or], mirrored.registrable isSet⟩
    have cleared : EpEvent.flag { sys.events i with isRead := false, isWrite := false } dir = false := by
      cases dir <;> rfl
    split
    next done => simp [cleared, done.2.1]
    next refused =>
      exact (and_iff_left_of_imp fun isSet accepted =>
        refused ⟨(able isSet).1, accepted.2, (able isSet).2⟩).symm
  · split <;> simp [same, update_of_ne (Ne.symm same)]

end

/-- One call. -/
lemma Mirrored.flag_apply (mirrored : Mirrored sys) (call : EpCall E) :
    ((call.apply sys).2.events e).flag dir ↔
      Adds sys call dir e ∨ ((sys.events e).flag dir ∧ ¬ Deletes call dir e) := by
  obtain ⟨op, ctx, ev, ok⟩ := call
  by_cases given : ctx = true ∧ ev.isSome
  case neg =>
    have unchanged : EpCall.apply ⟨op, ctx, ev, ok⟩ sys = (-1, sys) := by
      cases ctx <;> cases ev <;> cases op <;> first | rfl | exact absurd ⟨rfl, rfl⟩ given
    rw [unchanged]
    cases ctx <;> cases ev <;> simp [Adds, Deletes] at given ⊢
  obtain ⟨rfl, isSome⟩ := given
  obtain ⟨i, rfl⟩ := Option.isSome_iff_exists.mp isSome
  rcases op_cases op with ⟨d, rfl⟩ | ⟨d, rfl⟩ | rfl
  · have kept : ¬ Deletes ⟨addOp d, true, some i, ok⟩ dir e := by
      rintro ⟨-, -, -, deletes⟩
      exact deletes.elim addOp_ne_delOp addOp_ne_del
    rw [apply_add, and_iff_left kept, Adds, addOp_inj]
    split
    next unset =>
      refine (or_iff_right ?_).symm
      rintro ⟨⟨-, same, -, rfl⟩, handled, -⟩
      cases same
      simp_all
    next handled =>
      rw [add_flag mirrored]
      refine or_congr_left ⟨?_, ?_⟩
      · rintro ⟨rfl, rfl, accepted, able⟩
        exact ⟨⟨rfl, rfl, accepted, rfl⟩, Option.isSome_iff_ne_none.mpr (by simpa using handled), able⟩
      · rintro ⟨⟨-, same, accepted, rfl⟩, -, able⟩
        exact ⟨Option.some.inj same, rfl, accepted, able⟩
  · have none : ¬ Adds sys ⟨delOp d, true, some i, ok⟩ dir e := fun adds => addOp_ne_delOp adds.1.2.2.2.symm
    rw [apply_del, del_flag mirrored, or_iff_right none, Deletes, delOp_inj, or_iff_left delOp_ne_del]
    simp only [true_and, Option.some.injEq, and_comm (a := d = dir)]
  · have none : ¬ Adds sys ⟨.del, true, some i, ok⟩ dir e := fun adds => addOp_ne_del adds.1.2.2.2.symm
    simp only [EpCall.apply, epEventDel]
    rw [delBoth_flag mirrored, or_iff_right none, Deletes]
    simp

/-- A call leaves the handlers and the descriptors as they are. -/
lemma Mirrored.adds_apply (mirrored : Mirrored sys) (first call : EpCall E) :
    Adds (first.apply sys).2 call dir e ↔ Adds sys call dir e := by
  have handled := congrFun (apply_handlers first sys) e
  have same : ((first.apply sys).2.events e).fd = (sys.events e).fd ∧
      (first.apply sys).2.ctx.epfd = sys.ctx.epfd := by
    obtain ⟨-, ⟨-, failed⟩ | ⟨-, i, ev, rewrote⟩⟩ := mirrored.asked.apply first
    · rw [failed]
      exact ⟨rfl, rfl⟩
    · refine ⟨?_, rewrote.epfd⟩
      rw [rewrote.events]
      by_cases isE : e = i
      · rw [isE, update_self, rewrote.fd]
      · rw [update_of_ne isE]
  simp only [handlers, Prod.mk.injEq] at handled
  have funcs : func ((first.apply sys).2.events e) dir = func (sys.events e) dir := by
    cases dir
    · exact handled.1
    · exact handled.2.1
  rw [Adds, Adds, funcs, Registrable, Registrable, same.1, same.2]

/-- Any calls. -/
lemma Mirrored.flag_run (mirrored : Mirrored sys) (dir : Direction) (calls : List (EpCall E)) :
    ((runCalls sys calls).events e).flag dir ↔ Stays sys calls e dir := by
  induction calls generalizing sys with
  | nil => simp [runCalls, Stays]
  | cons call rest ih =>
    have step := ih (mirrored.apply call)
    simp only [Stays, mirrored.flag_apply, mirrored.adds_apply] at step
    refine step.trans ?_
    simp only [Stays, suffix_cons_iff, forall_mem_cons, or_and_right, exists_or, cons.injEq, and_assoc,
      exists_and_left, exists_eq_left, or_assoc]
    exact or_left_comm

/-! ## The loop -/

/-- The interest that a handler is called for is left by the calls. -/
def Left (sys : EpSys E F) (calls : List (EpCall E)) : Handler → E → Prop
  | .read, e => Stays sys calls e .read
  | .write, e => Stays sys calls e .write
  | .error, e => Stays sys calls e .read ∨ Stays sys calls e .write

lemma Mirrored.live_run (mirrored : Mirrored sys) (calls : List (EpCall E)) (h : Handler) :
    live h ((runCalls sys calls).events e).isRead ((runCalls sys calls).events e).isWrite ↔
      Left sys calls h e := by
  cases h with
  | read => exact mirrored.flag_run .read calls
  | write => exact mirrored.flag_run .write calls
  | error =>
    rw [live, Bool.or_eq_true]
    exact or_congr (mirrored.flag_run .read calls) (mirrored.flag_run .write calls)

/-- From any state that calls lead to, a loop calls handlers of live interests only, exactly if
the handlers called before one leave its interest there: they do not delete it, or add it again. -/
theorem epEventLoop_live_iff {max : Int} {mallocCtx mallocEvents : Bool} {epfd : Int32} {ctx : EpCtx}
    {events : E → EpEvent F} (created : epEventCreate max mallocCtx epfd mallocEvents = some ctx)
    (distinct : Function.Injective fun e => (events e).fd)
    (idle : ∀ e, (events e).isRead = false ∧ (events e).isWrite = false) (history : List (EpCall E))
    (reached : sys = runCalls (freshSys ctx events) history) (stat : EpStat) (batch : List (Mask × Option E)) :
    (∀ inv ∈ (epEventLoop acts sys stat true (.ready batch)).2.invoked,
      live inv.handler inv.isRead inv.isWrite) ↔
    ∀ k h e, (batch.flatMap (due sys.events))[k]? = some (h, e) → Left sys ((range k).flatMap acts) h e := by
  have mirrored : Mirrored sys := reached ▸ (mirrored_fresh created distinct idle).run history
  rw [epEventLoop, dispatchAll_due, invokeAll_live, and_iff_right (by simp)]
  simp only [length_nil, ← range_eq_range', mirrored.live_run]

/-- Two events that can be read. -/
def readable (e : Bool) : EpEvent Unit := ⟨if e then 4 else 5, false, false, some (), none, none⟩

/-- An interest in both of them. -/
def readers : EpSys Bool Unit :=
  runCalls (freshSys ⟨3, 0, 10⟩ readable) [⟨.addRead, true, some true, true⟩, ⟨.addRead, true, some false, true⟩]

/-- The handler of the first deletes the second and adds it again. -/
def again (k : Nat) : List (EpCall Bool) :=
  if k = 0 then [⟨.del, true, some false, true⟩, ⟨.addRead, true, some false, true⟩] else []

/-- Both are ready, and both are called with their interest set. -/
theorem epEventLoop_live_iff_again :
    let loop := (epEventLoop again readers {} true (.ready [(epollIn, some true), (epollIn, some false)])).2
    loop.invoked.length = 2 ∧ ∀ inv ∈ loop.invoked, live inv.handler inv.isRead inv.isWrite := by
  refine ⟨by decide, ?_⟩
  refine (@epEventLoop_live_iff Bool Unit _ _ readers _ 10 true true 3 _ readable rfl (by decide) (by decide) _
    rfl {} _).mpr ?_
  intro k h e called
  rcases k with _ | _ | k <;> cases called
  · exact .inl ⟨rfl, by simp⟩
  · exact .inr ⟨⟨.addRead, true, some false, true⟩, [], ⟨[⟨.del, true, some false, true⟩], rfl⟩,
      ⟨⟨rfl, rfl, rfl, rfl⟩, rfl, by decide⟩, by simp⟩

/-- Both are ready; the handler of the first deletes the second, whose handler is called all
the same. -/
theorem deleted_reader_called :
    (∀ e, (readers.kernel (readers.events e).fd).map (·.events.has epollIn) = some true) ∧
    (epEventLoop (fun k => if k = 0 then [⟨.del, true, some false, true⟩] else []) readers {} true
      (.ready [(epollIn, some true), (epollIn, some false)])).2.invoked =
      [⟨.read, true, true, false⟩, ⟨.read, false, false, false⟩] := by decide

end Fzsvn.Guarantees.Socket
