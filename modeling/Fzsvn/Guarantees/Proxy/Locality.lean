import Fzsvn.Source.Proxy.Worker

/-!
# What a callback or task of one session can touch

Everything a connection callback does stays with its session: its own data, the
epoll items of its two descriptors, and at most one entry in the task queue. The
relations below say so for each function once, and the invariants of the worker are
derived from them.
-/
namespace Fzsvn.Guarantees.Proxy.Locality
open Library.Exec Source.Proxy List Function

/-- The events that concern scheduling and release. -/
def scheduling : Event → Bool
  | .put .. | .busy .. | .queued .. | .ran .. | .released .. | .accepted .. | .flushed => true
  | _ => false

def schedule (log : List Event) : List Event := log.filter scheduling

@[simp] lemma schedule_append (a b : List Event) : schedule (a ++ b) = schedule a ++ schedule b :=
  filter_append ..

@[simp] lemma schedule_nil : schedule [] = [] := rfl

@[simp] lemma schedule_cons (e : Event) (log : List Event) :
    schedule (e :: log) = if scheduling e then e :: schedule log else schedule log :=
  filter_cons

/-- The session an event concerns. -/
def about : Event → Option Nat
  | .field s | .put s _ _ | .busy s _ | .queued s _ _ | .ran s _ _ | .released s | .accepted s _
  | .sslUse s _ _ _ | .sslAlloc s _ | .sslFree s _ | .sockOpen s _ | .sockClose s _ => some s
  | .flushed => none

/-- What was scheduled for session `s`, and when the table was flushed. -/
def history (s : Nat) (log : List Event) : List Event :=
  (schedule log).filter fun e => about e = some s ∨ about e = none

/-- What was observed of session `s`, apart from accesses to its memory. -/
def noted (s : Nat) (log : List Event) : List Event :=
  log.filter fun e => about e = some s ∧ e ≠ .field s

@[simp] lemma noted_append (s : Nat) (a b : List Event) : noted s (a ++ b) = noted s a ++ noted s b :=
  filter_append ..

@[simp] lemma noted_nil (s : Nat) : noted s [] = [] := rfl

@[simp] lemma noted_cons (s : Nat) (e : Event) (log : List Event) :
    noted s (e :: log) = if about e = some s ∧ e ≠ .field s then e :: noted s log else noted s log := by
  simp [noted, filter_cons]

/-- The log has grown by events that concern session `s`. -/
def Notes (s : Nat) (w w' : Worker) : Prop :=
  ∃ more, w'.log = w.log ++ more ∧ ∀ e ∈ more, about e = some s

variable {w w' : Worker}

lemma notes_of_log {s : Nat} (he : w'.log = w.log) : Notes s w w' :=
  ⟨[], by simp [he], by simp⟩

lemma notes_emit {s : Nat} {e : Event} (own : about e = some s) (log : w'.log = w.log ++ [e]) :
    Notes s w w' :=
  ⟨[e], log, by simpa using own⟩

variable {w1 w2 w3 : Worker}

lemma notes_trans {s : Nat} (h1 : Notes s w1 w2) (h2 : Notes s w2 w3) : Notes s w1 w3 := by
  obtain ⟨more1, log1, own1⟩ := h1
  obtain ⟨more2, log2, own2⟩ := h2
  refine ⟨more1 ++ more2, by rw [log2, log1, append_assoc], fun e hm => ?_⟩
  rcases mem_append.mp hm with first | hs
  · exact own1 e first
  · exact own2 e hs

/-- The other sessions' observations do not change. -/
lemma Notes.noted {s r : Nat} (h : Notes s w w') (different : r ≠ s) :
    noted r w'.log = Locality.noted r w.log := by
  obtain ⟨more, log, own⟩ := h
  have none : Locality.noted r more = [] := by
    refine List.filter_eq_nil_iff.mpr fun e hm => ?_
    simp [own e hm, different.symm]
  rw [log, noted_append, none, append_nil]

lemma Notes.history {s r : Nat} (h : Notes s w w') (different : r ≠ s) :
    history r w'.log = Locality.history r w.log := by
  obtain ⟨more, log, own⟩ := h
  have none : (schedule more).filter (fun e => about e = some r ∨ about e = none) = [] := by
    refine List.filter_eq_nil_iff.mpr fun e hm => ?_
    simp [own e (mem_of_mem_filter hm), different.symm]
  rw [Locality.history, log, schedule_append, filter_append, none, append_nil, Locality.history]

/-- Only open descriptors are registered. -/
def Registered (w : Worker) : Prop := ∀ i, w.opened i = false → w.epoll.interest i = none

/-- The item records no registration, and a request on it is not lost. -/
def Clear (w : Worker) (i : Nat) : Prop :=
  (w.item i).pevents = 0#32 ∧ ((w.item i).isUpdated = true → i ∈ w.epoll.fe.updates)

instance (w : Worker) (i : Nat) : Decidable (Clear w i) := inferInstanceAs (Decidable (_ ∧ _))

/-- Between two flushes nothing is registered, and no item is left behind that a later
owner could not use. -/
structure Unflushed (w w' : Worker) : Prop where
  interest : ∀ i, w.epoll.interest i = none → w'.epoll.interest i = none
  registered : Registered w → Registered w'
  clear : ∀ i, Clear w i → Clear w' i

lemma unflushed_refl (w : Worker) : Unflushed w w :=
  ⟨fun _ h => h, fun h => h, fun _ h => h⟩

lemma unflushed_trans (h1 : Unflushed w1 w2) (h2 : Unflushed w2 w3) : Unflushed w1 w3 where
  interest i h := h2.interest i (h1.interest i h)
  registered h := h2.registered (h1.registered h)
  clear i h := h2.clear i (h1.clear i h)

/-- More descriptors may be open. -/
lemma unflushed_same (ho : ∀ i, w.opened i = true → w'.opened i = true)
    (he : w'.epoll = w.epoll) : Unflushed w w' where
  interest i h := by rw [he]; exact h
  registered h i closed := by
    rw [he]
    refine h i ?_
    cases hb : w.opened i with
    | false => rfl
    | true => rw [ho i hb] at closed; cases closed
  clear i h := by simpa only [Clear, Worker.item, he] using h

lemma unflushed_drop (w : Worker) (i : Nat) : Unflushed w { w with
      opened := update w.opened i false
      epoll := { w.epoll with interest := update w.epoll.interest i none } } where
  interest j h := by
    by_cases he : j = i
    · simp [he]
    · simpa [he] using h
  registered h j closed := by
    by_cases he : j = i
    · simp [he]
    · simp only [update_of_ne he] at closed ⊢
      exact h j closed
  clear _ h := h

/-- A descriptor that was not open is not registered either. -/
lemma unflushed_forget (w : Worker) (i : Nat) : Unflushed w { w with
      epoll := { w.epoll with interest := update w.epoll.interest i none } } where
  interest j h := by by_cases he : j = i <;> simp [he, h]
  registered h j closed := by
    have hb := h j closed
    by_cases he : j = i <;> simp [he, hb]
  clear _ h := h

lemma unflushed_request {w : Worker} {fe : FdEpoll Arg Callback} {i : Nat} {events : Mask}
    {iocb : Option Callback} (hr : w.epoll.fe.request i events iocb = some fe) :
    Unflushed w (w.setTable fe) where
  interest _ h := h
  registered h := h
  clear j h := by
    obtain ⟨-, self, ho, hu⟩ := FdEpoll.request_effect hr
    have more : j ∈ w.epoll.fe.updates → j ∈ fe.updates := by
      intro hm
      rw [hu]
      split
      · exact hm
      · exact mem_append_left _ hm
    by_cases he : j = i
    · subst he
      refine ⟨by simpa [self] using h.1, fun _ => ?_⟩
      cases marked : (w.epoll.fe.maps j).isUpdated with
      | true => exact more (h.2 marked)
      | false => simp [hu, marked]
    · refine ⟨by simpa [ho j he] using h.1, fun marked => more (h.2 ?_)⟩
      simpa [ho j he] using marked

/-- An item is written without a trace of a registration. -/
lemma unflushed_mapItem (w : Worker) (i : Nat) {f : FdItem Arg Callback → FdItem Arg Callback}
    (hp : (w.item i).pevents = 0#32 → (f (w.item i)).pevents = 0#32)
    (hm : (f (w.item i)).isUpdated = true → (w.item i).isUpdated = true) :
    Unflushed w (w.mapItem i f) where
  interest _ h := h
  registered h := h
  clear j h := by
    by_cases he : j = i
    · subst he
      exact ⟨by simpa using hp h.1, fun m => h.2 (hm (by simpa using m))⟩
    · simpa [Clear, he] using h

/-- Nothing but the data of session `s`, the requests on its descriptors `fds` and the
task queue. -/
structure Confined (s : Nat) (fds : Dir → Int) (w w' : Worker) : Prop where
  others : ∀ r, r ≠ s → w'.sessions r = w.sessions r
  fd : ∀ d, (w'.conn s d).fd = (w.conn s d).fd
  armed : ∀ d, (w'.conn s d).task.armed = (w.conn s d).task.armed
  worker : (w'.sessions s).worker = (w.sessions s).worker
  policy : (w'.sessions s).policy = (w.sessions s).policy
  used : w'.used = w.used
  opened : w'.opened = w.opened
  lfds : w'.lfds = w.lfds
  naccept : w'.naccept = w.naccept
  phase : w'.phase = w.phase
  interest : w'.epoll.interest = w.epoll.interest
  maxfd : w'.epoll.fe.maxfd = w.epoll.fe.maxfd
  updates : ∀ i ∈ w.epoll.fe.updates, i ∈ w'.epoll.fe.updates
  items : ∀ i : Nat, (∀ d, fds d ≠ i) → w'.item i = w.item i
  state : ∀ i, (w'.item i).state = (w.item i).state
  arg : ∀ i : Nat, (w'.item i).arg = (w.item i).arg ∨ ∃ d, fds d = i ∧ (w'.item i).arg = some (.conn s d)
  notes : Notes s w w'
  unflushed : Unflushed w w'

/-- The queue is not touched either. -/
structure Local (s : Nat) (fds : Dir → Int) (w w' : Worker) : Prop extends Confined s fds w w' where
  linked : ∀ d, (w'.conn s d).task.linked = (w.conn s d).task.linked
  taskq : w'.taskq = w.taskq
  ntask : w'.ntask = w.ntask
  log : schedule w'.log = schedule w.log

/-- The task of connection `d` was appended to the queue. -/
structure Enqueued (s : Nat) (fds : Dir → Int) (d : Dir) (kind : TaskKind) (w w' : Worker) : Prop
    extends Confined s fds w w' where
  linked : (w'.conn s d).task.linked = true
  linkedPeer : (w'.conn s d.peer).task.linked = (w.conn s d.peer).task.linked
  taskq : w'.taskq = w.taskq ++ [⟨s, d⟩]
  ntask : w'.ntask = w.ntask + 1
  log : schedule w'.log = schedule w.log ++ [.queued s d kind]

/-- What a callback of connection `d` leaves behind. -/
def Reacts (s : Nat) (fds : Dir → Int) (d : Dir) (w w' : Worker) : Prop :=
  Local s fds w w' ∨ ∃ kind, Enqueued s fds d kind w w'

section

variable {s : Nat} {fds : Dir → Int}

lemma Confined.trans (h1 : Confined s fds w1 w2) (h2 : Confined s fds w2 w3) : Confined s fds w1 w3 where
  others r hr := (h2.others r hr).trans (h1.others r hr)
  fd d := (h2.fd d).trans (h1.fd d)
  armed d := (h2.armed d).trans (h1.armed d)
  worker := h2.worker.trans h1.worker
  policy := h2.policy.trans h1.policy
  used := h2.used.trans h1.used
  opened := h2.opened.trans h1.opened
  lfds := h2.lfds.trans h1.lfds
  naccept := h2.naccept.trans h1.naccept
  phase := h2.phase.trans h1.phase
  interest := h2.interest.trans h1.interest
  maxfd := h2.maxfd.trans h1.maxfd
  updates i hi := h2.updates i (h1.updates i hi)
  items i hi := (h2.items i hi).trans (h1.items i hi)
  state i := (h2.state i).trans (h1.state i)
  arg i := by
    rcases h2.arg i with he | hc
    · rw [he]
      exact h1.arg i
    · exact .inr hc
  notes := notes_trans h1.notes h2.notes
  unflushed := unflushed_trans h1.unflushed h2.unflushed

lemma local_refl (w : Worker) : Local s fds w w := by
  constructor
  constructor
  all_goals intros
  all_goals
    first | rfl | assumption | exact .inl rfl | exact notes_of_log rfl | exact unflushed_refl w

lemma Local.trans (h1 : Local s fds w1 w2) (h2 : Local s fds w2 w3) : Local s fds w1 w3 where
  toConfined := h1.toConfined.trans h2.toConfined
  linked d := (h2.linked d).trans (h1.linked d)
  taskq := h2.taskq.trans h1.taskq
  ntask := h2.ntask.trans h1.ntask
  log := h2.log.trans h1.log

instance : IsPreorder Worker (Local s fds) where
  refl := local_refl
  trans _ _ _ := Local.trans

variable {d : Dir} {fd : Int} {events : Mask}

lemma Local.enqueued {kind : TaskKind} (h1 : Local s fds w1 w2)
    (h2 : Enqueued s fds d kind w2 w3) : Enqueued s fds d kind w1 w3 where
  toConfined := h1.toConfined.trans h2.toConfined
  linked := h2.linked
  linkedPeer := h2.linkedPeer.trans (h1.linked _)
  taskq := by rw [h2.taskq, h1.taskq]
  ntask := by rw [h2.ntask, h1.ntask]
  log := by rw [h2.log, h1.log]

lemma local_emit (w : Worker) {e : Event} (hs : scheduling e = false)
    (own : about e = some s) : Local s fds w (w.emit e) := by
  refine ⟨?_, fun _ => rfl, rfl, rfl, by simp [hs]⟩
  constructor <;> intros <;>
    first
    | rfl
    | assumption
    | exact .inl rfl
    | exact notes_emit own rfl
    | exact unflushed_same (fun _ h => h) rfl

lemma Local.noted (h : Local s fds w w1) : Local s fds w (w1.emit (.field s)) :=
  h.trans (local_emit w1 rfl rfl)

variable {f : Session → Session}

lemma local_mapSession (fd : ∀ d, ((f (w.sessions s)).conns d).fd = (w.conn s d).fd)
    (ht : ∀ d, ((f (w.sessions s)).conns d).task.linked = (w.conn s d).task.linked ∧
      ((f (w.sessions s)).conns d).task.armed = (w.conn s d).task.armed)
    (ho : (f (w.sessions s)).worker = (w.sessions s).worker ∧ (f (w.sessions s)).policy = (w.sessions s).policy) :
    Local s fds w (w.mapSession s f) := by
  refine ⟨?_, fun d => by simpa using (ht d).1, rfl, rfl, rfl⟩
  constructor <;> intros <;>
    first | rfl | assumption | exact .inl rfl | exact notes_of_log rfl | skip
  · next different => simp [different]
  · simpa using fd _
  · simpa using (ht _).2
  · simpa using ho.1
  · simpa using ho.2
  · exact unflushed_same (fun _ h => h) rfl

lemma local_request {w : Worker} {i : Nat} {events : Mask} {iocb : Option Callback}
    {fe : FdEpoll Arg Callback} (h : w.epoll.fe.request i events iocb = some fe)
    (own : ∃ d, fds d = i) : Local s fds w (w.setTable fe) := by
  obtain ⟨maxfd, self, ho, hu⟩ := FdEpoll.request_effect h
  have he : ∀ j, ((w.setTable fe).item j).state = (w.item j).state ∧
      ((w.setTable fe).item j).arg = (w.item j).arg := by
    intro j
    by_cases hj : j = i
    · subst hj
      simp [self]
    · simp [ho j hj]
  refine ⟨?_, fun _ => rfl, rfl, rfl, rfl⟩
  constructor <;> intros <;>
    first | rfl | exact maxfd | exact (he _).1 | exact notes_of_log rfl | skip
  · next j hm =>
    simp only [Worker.setTable_epoll_fe, hu]
    split
    · exact hm
    · exact mem_append_left _ hm
  · next j free =>
    obtain ⟨d, hd⟩ := own
    exact ho j fun h => free d (by rw [hd, h])
  · exact .inl (he _).2
  · exact unflushed_request h

lemma addEvent_local {iocb : Option Callback}
    (own : ∃ d, fds d = fd) : Keeps (Local s fds) (addEvent fd events iocb) := by
  intro w
  simp only [ensures_addEvent]
  refine ⟨fun _ => local_refl w, fun pos _ => ⟨fun fe h => ?_, fun _ => local_refl w⟩⟩
  obtain ⟨d, hd⟩ := own
  exact local_request h ⟨d, by omega⟩

lemma session_local : Keeps (Local s fds) (session s) := by
  intro w
  simp only [ensures_session]
  exact local_emit w rfl rfl

lemma conn_local : Keeps (Local s fds) (conn s d) := by
  intro w
  simp only [ensures_conn]
  exact local_emit w rfl rfl

lemma modifySession_local (fd : ∀ x d, ((f x).conns d).fd = (x.conns d).fd)
    (ht : ∀ x d, ((f x).conns d).task = (x.conns d).task)
    (ho : ∀ x, (f x).worker = x.worker ∧ (f x).policy = x.policy) :
    Keeps (Local s fds) (modifySession s f) := by
  intro w
  simp only [ensures_modifySession]
  refine Local.trans (local_emit w rfl rfl) (local_mapSession (fd _) (fun d => ?_) (ho _))
  rw [ht]
  exact ⟨rfl, rfl⟩

/-- Packets of one connection are moved. -/
lemma modifyPackets_local {c : Session → Connection} (hc : ∀ x, (f x).conns = update x.conns d (c x))
    (he : ∀ x, (c x).fd = (x.conns d).fd ∧ (c x).task = (x.conns d).task)
    (ho : ∀ x, (f x).worker = x.worker ∧ (f x).policy = x.policy) :
    Keeps (Local s fds) (modifySession s f) := by
  refine modifySession_local (fun x e => ?_) (fun x e => ?_) ho <;>
    rcases d.sides e with rfl | rfl <;> simp [hc, he]

lemma local_mapConn (w : Worker) {f : Connection → Connection} (fd : ∀ c, (f c).fd = c.fd)
    (ht : ∀ c, (f c).task.linked = c.task.linked ∧ (f c).task.armed = c.task.armed) :
    Local s fds w ((w.emit (.field s)).mapConn s d f) := by
  refine Local.trans (local_emit w rfl rfl) (local_mapSession (fun e => ?_) (fun e => ?_) ⟨rfl, rfl⟩)
  · rcases d.sides e with rfl | rfl <;> simp [fd]
  · rcases d.sides e with rfl | rfl <;> simp [ht]

lemma modifyConn_local {f : Connection → Connection} (fd : ∀ c, (f c).fd = c.fd)
    (ht : ∀ c, (f c).task.linked = c.task.linked ∧ (f c).task.armed = c.task.armed) :
    Keeps (Local s fds) (modifyConn s d f) := by
  intro w
  simp only [ensures_modifyConn]
  exact local_mapConn w fd ht

lemma modifyFlags_local {f : ConnFlags → ConnFlags} : Keeps (Local s fds) (modifyFlags s d f) :=
  modifyConn_local (fun _ => rfl) (fun _ => ⟨rfl, rfl⟩)

lemma emit_local {e : Event} (hs : scheduling e = false) (own : about e = some s) :
    Keeps (Local s fds) (emit e) := by
  intro w
  simp only [ensures_emit]
  exact local_emit w hs own

lemma sslUse_local {c : Connection} : Keeps (Local s fds) (sslUse s d c) := by
  unfold sslUse
  split
  · exact keeps_pure _
  · exact emit_local rfl rfl

lemma claimItem_local (own : fds d = fd) : Keeps (Local s fds) (claimItem fd s d) := by
  intro w
  simp only [claimItem, ensures_bind, ensures_itemOf, ensures_writeItem]
  refine ⟨fun pos _ => ⟨fun _ => ?_, fun _ => local_refl w⟩, fun _ => local_refl w⟩
  have hi : fds d = (fd.toNat : Int) := by omega
  refine ⟨?_, fun _ => rfl, rfl, rfl, rfl⟩
  constructor <;> intros <;> first | rfl | assumption | exact notes_of_log rfl | skip
  · next j free =>
    have ne : j ≠ fd.toNat := fun h => free d (by rw [hi, h])
    simp [ne]
  · next j =>
    by_cases hj : j = fd.toNat
    · subst hj
      simp
    · simp [hj]
  · next j =>
    by_cases hj : j = fd.toNat
    · subst hj
      exact .inr ⟨d, hi, by simp⟩
    · exact .inl (by simp [hj])
  · exact unflushed_mapItem w _ (fun h => h) fun h => h

/-! ## Queueing -/

lemma taskAddQueue_enqueues (fds : Dir → Int) {w : Worker} (hu : (w.conn s d).task.linked = false) :
    Ensures (taskAddQueue s d) w (fun _ w' => Enqueued s fds d (w.conn s d).task.kind w w')
      (fun _ _ => False) := by
  simp only [taskAddQueue, ensures_bind, ensures_conn, ensures_modify, ensures_modifyConn, ensures_emit]
  refine ⟨?_, by simp [setLinked], by simp [setLinked], by simp [linkTail, hu], by simp,
    by simp [scheduling]⟩
  constructor <;> intros <;> first | rfl | assumption | exact .inl rfl | skip
  · next different => simp [different]
  · next e => rcases d.sides e with rfl | rfl <;> simp [setLinked]
  · next e => rcases d.sides e with rfl | rfl <;> simp [setLinked]
  · simp
  · simp
  · refine ⟨[.field s, .field s, .queued s d (w.conn s d).task.kind], by simp, ?_⟩
    simp [about]
  · exact unflushed_same (fun _ h => h) rfl

lemma queueTask_enqueues (fds : Dir → Int) {w : Worker} {kind : TaskKind}
    (hu : (w.conn s d).task.linked = false) :
    Ensures (queueTask s d kind) w (fun _ w' => Enqueued s fds d kind w w') (fun _ _ => False) := by
  simp only [queueTask, ensures_bind, ensures_modifyConn, ensures_conn]
  rw [if_neg (by simpa [setKind] using hu)]
  simp only [ensures_bind, ensures_pure]
  have hm : Local s fds w (((w.emit (.field s)).mapConn s d (setKind · kind)).emit (.field s)) := by
    refine Local.trans ?_ (local_emit _ rfl rfl)
    exact local_mapConn w (fun _ => rfl) (fun _ => ⟨rfl, rfl⟩)
  refine (taskAddQueue_enqueues fds (by simpa [setKind] using hu)).imp (fun _ w' h => ?_)
  simp [setKind] at h
  exact hm.enqueued h

/-- Behind local steps: label `err_free` of the event callbacks. -/
lemma Local.errFree {w w1 : Worker} (h : Local s fds w w1) (hu : (w.conn s d).task.linked = false) :
    Ensures (errFree s d) w1 (fun _ w' => Reacts s fds d w w') (fun _ w' => Local s fds w w') := by
  simp only [Source.Proxy.errFree, ensures_bind, ensures_pure]
  exact (queueTask_enqueues fds ((h.linked d).trans hu)).mono
    (fun _ _ hq => .inr ⟨_, h.enqueued hq⟩) (fun _ _ none => none.elim)

lemma Local.queueTask {w w1 : Worker} (h : Local s fds w w1)
    (hu : (w.conn s d).task.linked = false) (kind : TaskKind) :
    Ensures (queueTask s d kind) w1 (fun _ w' => Reacts s fds d w w') (fun _ w' => Local s fds w w') :=
  (queueTask_enqueues fds ((h.linked d).trans hu)).mono
    (fun _ _ hq => .inr ⟨_, h.enqueued hq⟩) (fun _ _ none => none.elim)

/-- The error exit of `conn_send_data` queues the task only in an event callback. -/
lemma Local.sendErrFree (events : Mask) {w w1 : Worker} (h : Local s fds w w1)
    (hu : events ≠ 0#32 → (w.conn s d).task.linked = false) : Ensures (sendErrFree events s d) w1
      (fun _ w' => Reacts s fds d w w' ∧ (events = 0#32 → Local s fds w w'))
      (fun _ w' => Local s fds w w') := by
  simp only [Source.Proxy.sendErrFree, ensures_bind, ensures_onlyIf, ensures_modifyConn,
    ensures_conn, ensures_emit, ensures_pure]
  refine ⟨fun he => ?_, fun none => ⟨.inl h, fun _ => h⟩⟩
  have hf := (h.linked d).trans (hu he)
  refine ⟨fun hl => by simp [setKind, hf] at hl, fun _ => ?_⟩
  have hm : Local s fds w (((w1.emit (.field s)).mapConn s d (setKind · .delete)).emit (.field s)) := by
    refine Local.trans h (Local.trans ?_ (local_emit _ rfl rfl))
    exact local_mapConn w1 (fun _ => rfl) (fun _ => ⟨rfl, rfl⟩)
  refine (taskAddQueue_enqueues fds (by simpa [setKind] using hf)).mono (fun _ w' hq => ?_)
    (fun _ _ none => none.elim)
  exact ⟨.inr ⟨_, hm.enqueued hq⟩, fun none => absurd none he⟩

/-! ## Receiving -/

lemma takeSlot_local {alloc : Bool} : Keeps (Local s fds) (takeSlot alloc s d) := by
  refine keeps_bind conn_local fun c => ?_
  split
  · exact keeps_pure _
  · refine keeps_ite (keeps_pure _) ?_
    exact keeps_bind (modifyPackets_local (fun _ => rfl) (fun _ => ⟨rfl, rfl⟩) fun _ => ⟨rfl, rfl⟩)
      fun _ => keeps_pure _

lemma recvHandshake_local {raw : RawRecv} (own : fds d = fd) :
    Keeps (Local s fds) (recvHandshake raw fd s d) := by
  refine keeps_ite (keeps_pure _) ?_
  refine keeps_bind modifyFlags_local fun _ => ?_
  exact keeps_bind (addEvent_local ⟨d, own⟩) fun _ => keeps_pure _

lemma recvCloseEvent_local (own : fds d = fd) : Keeps (Local s fds) (recvCloseEvent fd s d) := by
  refine keeps_bind conn_local fun c => ?_
  split
  · refine keeps_bind modifyFlags_local fun _ => ?_
    exact addEvent_local ⟨d, own⟩
  · exact addEvent_local ⟨d, own⟩

lemma recvClose_local {raw : RawRecv} {i : Nat} (own : fds d = fd) :
    Keeps (Local s fds) (recvClose raw fd events s d i) := by
  refine keeps_ite (keeps_pure _) ?_
  refine keeps_bind modifyFlags_local fun _ => ?_
  refine keeps_bind (recvCloseEvent_local own) fun ret => ?_
  refine keeps_ite (keeps_pure _) ?_
  refine keeps_bind conn_local fun c => ?_
  exact keeps_bind (keeps_onlyIf _ (modifyPackets_local (fun _ => rfl) (fun _ => ⟨rfl, rfl⟩)
    fun _ => ⟨rfl, rfl⟩)) fun _ => keeps_pure _

lemma recvPass_local {io : RecvIO} (own : fds d = fd) :
    Keeps (Local s fds) (recvPass io fd events s d) := by
  refine keeps_bind takeSlot_local fun slot => ?_
  split
  · exact keeps_pure _
  · next i =>
    refine keeps_bind conn_local fun c => ?_
    refine keeps_bind sslUse_local fun _ => ?_
    split
    · exact keeps_throw _
    · next raw _ =>
      refine keeps_ite ?_ ?_
      · exact keeps_bind modifyFlags_local fun _ => keeps_pure _
      · refine keeps_bind (modifyPackets_local (fun _ => rfl) (fun _ => ⟨rfl, rfl⟩)
          fun _ => ⟨rfl, rfl⟩) fun _ => ?_
        refine keeps_bind ?_ fun ok => keeps_ite (keeps_pure _) (keeps_pure _)
        refine keeps_bind (recvHandshake_local own) fun ok => ?_
        exact keeps_ite (keeps_pure _) (recvClose_local own)

lemma recvLoop_local {io : RecvRun} (own : fds d = fd) :
    Keeps (Local s fds) (recvLoop fd events s d io) := by
  induction io with
  | last io => exact recvPass_local own
  | pending io rest ih =>
    refine keeps_bind (recvPass_local own) fun n => ?_
    refine keeps_ite (keeps_pure _) ?_
    exact keeps_bind conn_local fun c => keeps_ite ih (keeps_pure _)

/-! ## Handshakes and shutdown -/

lemma tcpHandshake_local {io : HandshakeIO} : Keeps (Local s fds) (tcpHandshake io s d) := by
  refine keeps_bind conn_local fun c => ?_
  refine keeps_ite (keeps_pure _) (keeps_ite ?_ ?_)
  · exact keeps_bind modifyFlags_local fun _ => keeps_pure _
  · exact keeps_bind modifyFlags_local fun _ => keeps_pure _

lemma sslWaitFor_local {wait : SslWait} (own : fds d = fd) :
    Keeps (Local s fds) (sslWaitFor wait fd events) := by
  refine keeps_bind (keeps_ite (keeps_pure _) ?_) fun ret =>
    keeps_ite (keeps_pure _) (keeps_pure _)
  exact addEvent_local ⟨d, own⟩

lemma sslHandshake_local {io : HandshakeIO} (own : fds d = fd) :
    Keeps (Local s fds) (sslHandshake io fd events s d) := by
  refine keeps_bind conn_local fun c => ?_
  refine keeps_ite (keeps_pure _) ?_
  refine keeps_bind sslUse_local fun _ => ?_
  split
  · exact keeps_pure _
  · exact keeps_pure _
  · refine keeps_bind (sslWaitFor_local own) fun stage => ?_
    exact keeps_bind (keeps_onlyIf _ modifyFlags_local) fun _ =>
      keeps_pure _

lemma sslShutdown_local {io : ShutdownIO} (own : fds d = fd) :
    Keeps (Local s fds) (sslShutdown io fd events s d) := by
  refine keeps_bind conn_local fun c => ?_
  refine keeps_ite (keeps_pure _) ?_
  refine keeps_bind sslUse_local fun _ => ?_
  split
  · exact keeps_pure _
  · exact keeps_pure _
  · refine keeps_bind (sslWaitFor_local own) fun stage => ?_
    refine keeps_ite (keeps_pure _) (keeps_ite (keeps_pure _) ?_)
    refine keeps_bind (emit_local rfl rfl) fun _ => ?_
    refine keeps_bind (modifyConn_local ?_ ?_) fun _ => keeps_pure _
    · exact fun _ => rfl
    · exact fun _ => ⟨rfl, rfl⟩

end

/-! ## Callbacks -/

/-- The descriptors of a session. -/
def fdsOf (w : Worker) (s : Nat) : Dir → Int := fun d => (w.conn s d).fd

/-- Only the descriptor of one connection. -/
def only (d : Dir) (fd : Int) : Dir → Int := fun e => if e = d then fd else -1

@[simp] lemma only_self (d : Dir) (fd : Int) : only d fd d = fd := by simp [only]

/-- What a callback has checked of its arguments when it gets to work. -/
structure Served (w : Worker) (s : Nat) (d : Dir) (fd : Int) : Prop where
  worker : (w.sessions s).worker = true
  fd : (w.conn s d).fd = fd

variable {s : Nat} {d : Dir} {fd : Int} {events : Mask}

lemma handshakeDone_reacts {w1 : Worker} (h : Local s (only d fd) w w1)
    (hf : (w.conn s d).task.linked = false) :
    Ensures (handshakeDone fd s d) w1 (fun _ w' => Reacts s (only d fd) d w w')
      (fun _ w' => Local s (only d fd) w w') := by
  simp only [handshakeDone, ensures_bind]
  refine ((addEvent_local ⟨d, only_self d fd⟩).after h).imp (fun ret w2 h2 => ?_)
  rw [ensures_ite]
  refine ⟨fun _ => h2.errFree hf, fun _ => ?_⟩
  simp only [ensures_bind, ensures_pure]
  exact h2.queueTask hf .send

section

variable (open_ : 0 ≤ fd) (he : events ≠ 0#32)
  (hu : (w.conn s d).fd = fd → (w.conn s d).task.linked = false)
include open_ he hu

/-- The checks at the head of `conn_recv_data`, `conn_handshake` and `conn_shutdown`. -/
lemma checked_reacts {body : Run Int} (work : Local s (only d fd) w (w.emit (.field s)) →
      (w.conn s d).task.linked = false → Ensures body (w.emit (.field s))
      (fun _ w' => Reacts s (only d fd) d w w') (fun _ w' => Local s (only d fd) w w')) : Ensures
      (do
        if fd < 0 ∨ events = 0#32 then return -1
        let x ← session s
        require (x.worker = true)
        require (fd = (x.conns d).fd)
        body) w
      (fun _ w' => Served w s d fd ∧ Reacts s (only d fd) d w w')
      (fun _ w' => Local s (only d fd) w w') := by
  have hn : Local s (only d fd) w (w.emit (.field s)) := local_emit w rfl rfl
  rw [if_neg (by simp only [not_or]; exact ⟨by omega, he⟩)]
  simp only [ensures_bind, ensures_session, ensures_require]
  refine ⟨fun hw => ⟨fun own => ?_, fun _ => hn⟩, fun _ => hn⟩
  exact (work hn (hu own.symm)).imp (fun _ _ h => ⟨⟨hw, own.symm⟩, h⟩)

lemma connRecvData_reacts (io : RecvRun) : Ensures (connRecvData io fd events s d) w
      (fun _ w' => Served w s d fd ∧ Reacts s (only d fd) d w w')
      (fun _ w' => Local s (only d fd) w w') := by
  refine checked_reacts open_ he hu fun hn hf => ?_
  rw [ensures_ite]
  refine ⟨fun _ => ?_, fun _ => ?_⟩
  · simp only [ensures_bind]
    exact (modifyFlags_local.after hn).imp (fun _ _ hm => hm.errFree hf)
  · simp only [ensures_bind]
    refine ((recvLoop_local (only_self d fd)).after hn).imp (fun n w1 h1 => ?_)
    cases n with
    | none => exact h1.errFree hf
    | some n =>
      simp only [ensures_bind, ensures_pure]
      exact h1.queueTask hf .parse

lemma connHandshake_reacts {io : HandshakeIO} : Ensures (connHandshake io fd events s d) w
      (fun _ w' => Served w s d fd ∧ Reacts s (only d fd) d w w')
      (fun _ w' => Local s (only d fd) w w') := by
  refine checked_reacts open_ he hu fun hn hf => ?_
  rw [ensures_ite]
  refine ⟨fun _ => hn.errFree hf, fun _ => ?_⟩
  simp only [ensures_bind]
  refine (tcpHandshake_local.after hn).imp (fun tcp w1 h1 => ?_)
  rw [ensures_ite]
  refine ⟨fun _ => h1.errFree hf, fun _ => ?_⟩
  simp only [ensures_bind]
  refine ((sslHandshake_local (only_self d fd)).after h1).imp (fun stage w2 h2 => ?_)
  cases stage with
  | fail => exact h2.errFree hf
  | done ret => exact (ensures_pure _).mpr (.inl h2)
  | next => exact handshakeDone_reacts h2 hf

lemma connShutdown_reacts {io : ShutdownIO} : Ensures (connShutdown io fd events s d) w
      (fun _ w' => Served w s d fd ∧ Reacts s (only d fd) d w w')
      (fun _ w' => Local s (only d fd) w w') := by
  refine checked_reacts open_ he hu fun hn hf => ?_
  rw [ensures_ite]
  refine ⟨fun _ => hn.errFree hf, fun _ => ?_⟩
  simp only [ensures_bind]
  refine ((sslShutdown_local (only_self d fd)).after hn).imp (fun stage w1 h1 => ?_)
  cases stage with
  | fail => exact h1.errFree hf
  | done ret => exact (ensures_pure _).mpr (.inl h1)
  | next =>
    simp only [ensures_bind]
    refine ((addEvent_local ⟨d, only_self d fd⟩).after h1).imp (fun ret w2 h2 => ?_)
    rw [ensures_ite]
    exact ⟨fun _ => h2.errFree hf, fun _ => (ensures_pure _).mpr (.inl h2)⟩

end

/-! ## Sending -/

lemma sendBlock_reacts (h : Local s (fdsOf w s) w w1) (own : fdsOf w s d = fd)
    (hu : events ≠ 0#32 → (w.conn s d).task.linked = false) : Ensures (sendBlock fd events s d) w1
      (fun _ w' => Reacts s (fdsOf w s) d w w' ∧ (events = 0#32 → Local s (fdsOf w s) w w'))
      (fun _ w' => Local s (fdsOf w s) w w') := by
  have hn := h.noted
  have hp : fdsOf w s d.peer = ((w1.sessions s).conns d.peer).fd := (h.fd d.peer).symm
  simp only [sendBlock, ensures_bind, ensures_session]
  rw [ensures_ite, ensures_pure]
  refine ⟨fun _ => ⟨.inl hn, fun _ => hn⟩, fun _ => ?_⟩
  simp only [ensures_bind]
  refine ((claimItem_local own).after hn).imp (fun _ w2 h2 => ?_)
  refine ((addEvent_local ⟨d, own⟩).after h2).imp (fun ret w3 h3 => ?_)
  rw [ensures_ite]
  refine ⟨fun _ => h3.sendErrFree events hu, fun _ => ?_⟩
  simp only [ensures_bind, ensures_itemOf]
  refine ⟨fun _ _ => ?_, fun _ => h3⟩
  refine ((addEvent_local ⟨d.peer, hp⟩).after h3).imp (fun ret w4 h4 => ?_)
  rw [ensures_ite]
  refine ⟨fun _ => h4.sendErrFree events hu, fun _ => ?_⟩
  simp only [ensures_bind, ensures_pure]
  exact (modifyFlags_local.after h4).imp (fun _ _ h => ⟨.inl h, fun _ => h⟩)

lemma sendUnblock_local (h : Local s (fdsOf w s) w w1) (own : fdsOf w s d = fd) :
    Ensures (sendUnblock fd s d) w1 (fun _ w' => Local s (fdsOf w s) w w')
      (fun _ w' => Local s (fdsOf w s) w w') := by
  have hn := h.noted
  have hp : fdsOf w s d.peer = ((w1.sessions s).conns d.peer).fd := (h.fd d.peer).symm
  simp only [sendUnblock, ensures_bind, ensures_session]
  rw [ensures_ite, ensures_pure]
  refine ⟨fun _ => hn, fun _ => ?_⟩
  refine Keeps.after ?_ hn
  refine keeps_bind (claimItem_local own) fun _ => ?_
  refine keeps_bind (addEvent_local ⟨d, own⟩) fun ret => ?_
  refine keeps_ite (keeps_pure _) ?_
  refine keeps_bind (claimItem_local hp) fun _ => ?_
  refine keeps_bind (addEvent_local ⟨d.peer, hp⟩) fun ret => ?_
  refine keeps_ite (keeps_pure _) ?_
  exact keeps_bind modifyFlags_local fun _ => keeps_pure _

lemma sendShut_reacts (h : Local s (fdsOf w s) w w1) (own : fdsOf w s d = fd)
    (hu : events ≠ 0#32 → (w.conn s d).task.linked = false) : Ensures (sendShut fd events s d) w1
      (fun _ w' => Reacts s (fdsOf w s) d w w' ∧ (events = 0#32 → Local s (fdsOf w s) w w'))
      (fun _ w' => Local s (fdsOf w s) w w') := by
  have hn := h.noted
  simp only [sendShut, ensures_bind, ensures_session]
  rw [ensures_ite, ensures_pure]
  refine ⟨fun _ => ⟨.inl hn, fun _ => hn⟩, fun _ => ?_⟩
  split
  · simp only [ensures_bind]
    refine (modifyFlags_local.after hn).imp (fun _ w2 h2 => ?_)
    refine ((addEvent_local ⟨d, own⟩).after h2).imp (fun ret w3 h3 => ?_)
    rw [ensures_ite, ensures_pure]
    exact ⟨fun _ => h3.sendErrFree events hu, fun _ => ⟨.inl h3, fun _ => h3⟩⟩
  · simp only [ensures_bind, ensures_pure]
    refine ((modifyConn_local ?_ ?_).after hn).imp (fun _ _ h => ⟨.inl h, fun _ => h⟩)
    · exact fun _ => rfl
    · exact fun _ => ⟨rfl, rfl⟩

/-- As an event callback `conn_send_data` may queue its task; as part of a task
(`events` is 0) it leaves the queue alone. -/
lemma connSendData_reacts (ios : Nat → SendIO)
    (hu : (w.conn s d).fd = fd → events ≠ 0#32 → (w.conn s d).task.linked = false) :
    Ensures (connSendData ios fd events s d) w
      (fun _ w' => (0 ≤ fd → Served w s d fd) ∧ Reacts s (fdsOf w s) d w w' ∧
        (events = 0#32 → Local s (fdsOf w s) w w'))
      (fun _ w' => Local s (fdsOf w s) w w') := by
  have hn : Local s (fdsOf w s) w (w.emit (.field s)) := local_emit w rfl rfl
  simp only [connSendData]
  rw [ensures_ite, ensures_pure]
  refine ⟨fun hc => ⟨fun _ => by omega, .inl (local_refl w), fun _ => local_refl w⟩, fun _ => ?_⟩
  simp only [ensures_bind, ensures_session, ensures_require]
  refine ⟨fun hw => ⟨fun _ => ⟨fun own => ?_, fun _ => hn⟩, fun _ => hn⟩, fun _ => hn⟩
  have hs : Served w s d fd := ⟨hw, own.symm⟩
  have ho' : fdsOf w s d = fd := hs.fd
  have hf := hu hs.fd
  refine Ensures.imp ?_ (fun _ _ h => ⟨fun _ => hs, h⟩)
  rw [ensures_ite, ensures_pure]
  refine ⟨fun _ => ⟨.inl hn, fun _ => hn⟩, fun _ => ?_⟩
  simp only [ensures_bind]
  refine ((keeps_onlyIf _ sslUse_local).after hn).imp (fun _ w1 h1 => ?_)
  refine ((modifyPackets_local (f := (·.applySent d _)) (fun _ => rfl) (fun _ => ⟨rfl, rfl⟩)
    fun _ => ⟨rfl, rfl⟩).after h1).imp (fun _ w2 h2 => ?_)
  split
  · simp only [ensures_bind]
    exact (modifyFlags_local.after h2).imp (fun _ _ h => h.sendErrFree events hf)
  · exact sendBlock_reacts h2 ho' hf
  · simp only [ensures_bind]
    refine (sendUnblock_local h2 ho').imp (fun ok w3 h3 => ?_)
    rw [ensures_ite]
    exact ⟨fun _ => h3.sendErrFree events hf, fun _ => sendShut_reacts h3 ho' hf⟩

end Fzsvn.Guarantees.Proxy.Locality
