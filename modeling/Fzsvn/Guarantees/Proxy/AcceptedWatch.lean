import Fzsvn.Guarantees.Proxy.ViewRule

/-!
# Accepted clients are watched

`_ltn_accept` requests `FD_IN` on the descriptor it got and relies on what the descriptor's
last owner left in the epoll table. The flush behind the accept registers the client if the
item records no registration and a mark on it is backed by a place in the update array.

Not every owner leaves the item so. `listener_free_fd` closes its descriptor and keeps
`pevents`, and an accept that fails behind its request leaves a mark that the next flush
cannot clear.
-/
namespace Fzsvn.Guarantees.Proxy.AcceptedWatch
open Library.Exec Source.Proxy Locality Lifecycle LoopRules TaskRun WorkerInvariant List Connection Option
  SessionRule ViewRule

/-! ## What a flush registers -/

variable {α β : Type} {ok : Nat → Bool} {i : Nat}

section

variable (queue : List Nat) (n : Nat) (sys : EpollSys α β)

/-- An item without a mark is passed over. -/
lemma flushFrom_unmarked (hu : (sys.fe.maps i).isUpdated = false) :
    (flushFrom ok n queue sys).interest i = sys.interest i := by
  induction queue generalizing n sys with
  | nil => rfl
  | cons fd rest ih =>
    rw [flushFrom]
    by_cases he : i = fd
    · subst he
      rcases flushOne_cases (ok n) sys i with ⟨h, -⟩ | ⟨-, -, -, hm, -⟩ | ⟨-, -, -, hm, -⟩
      · rw [h]
        exact ih (n + 1) sys hu
      all_goals rw [hu] at hm; cases hm
    · rw [ih (n + 1) _ (by rwa [flushOne_maps_other _ _ he]), flushOne_interest_other _ _ he]

/-- A request on an item that records no registration takes effect if the kernel answers. -/
lemma flushFrom_registers (hq : i ∈ queue) (hp : i ≠ 0)
    (arg : (sys.fe.maps i).arg ≠ none) (marked : (sys.fe.maps i).isUpdated = true)
    (hr : (sys.fe.maps i).state = .ready) (new : (sys.fe.maps i).pevents = 0#32)
    (some_ : (sys.fe.maps i).events ≠ 0#32) (ha : ∀ p ∈ queue.zipIdx n, p.1 = i → ok p.2 = true) :
    (flushFrom ok n queue sys).interest i = some (sys.fe.maps i).events := by
  induction queue generalizing n sys with
  | nil => cases hq
  | cons fd rest ih =>
    rw [flushFrom]
    by_cases he : i = fd
    · subst he
      have answer : ok n = true := ha (i, n) (by simp) rfl
      rcases flushOne_cases (ok n) sys i with ⟨-, hs⟩ | ⟨-, -, -, -, hs⟩ | ⟨h, -⟩
      · rcases hs with zero | hn | hu
        · exact absurd zero hp
        · exact absurd hn arg
        · rw [marked] at hu
          cases hu
      · rcases hs with hc | equal
        · exact absurd hr hc
        · exact absurd (equal.trans new) some_
      · rw [flushFrom_unmarked rest (n + 1) _ (by rw [h]; simp [commit, answer]), h]
        simp [commit, answer, epollCtl, ctlOp, new]
    · have hl : i ∈ rest := by simpa [he] using hq
      have hi := flushOne_maps_other (ok n) sys he
      rw [ih (n + 1) _ hl (by rwa [hi]) (by rwa [hi]) (by rwa [hi]) (by rwa [hi])
        (by rwa [hi]) fun p hm => ha p (by simp [hm]), hi]

/-- Nothing is registered where the kernel refuses. -/
lemma flushFrom_refused (none_ : sys.interest i = none)
    (ha : ∀ p ∈ queue.zipIdx n, p.1 = i → ok p.2 = false) :
    (flushFrom ok n queue sys).interest i = none := by
  induction queue generalizing n sys with
  | nil => exact none_
  | cons fd rest ih =>
    rw [flushFrom]
    refine ih (n + 1) _ ?_ fun p hm => ha p (by simp [hm])
    by_cases he : i = fd
    · subst he
      have answer : ok n = false := ha (i, n) (by simp) rfl
      rcases flushOne_cases (ok n) sys i with ⟨h, -⟩ | ⟨h, -⟩ | ⟨h, -⟩
      · rwa [h]
      · rwa [h]
      · rw [h]
        simpa [commit, answer] using none_
    · rwa [flushOne_interest_other _ _ he]

end

/-! ## Waiting for the flush -/

/-- The descriptor of the session's last accept, until its release or a flush. -/
def track (s : Nat) (fd : Option Nat) : Event → Option Nat
  | .accepted r i => if r = s then some i else fd
  | .released r => if r = s then none else fd
  | .flushed => none
  | _ => fd

def awaits (s : Nat) (log : List Event) : Option Nat := log.foldl (track s) none

/-- `epoll_ctl` fails on closed descriptors and on no others. -/
def Truthful (w : Worker) (ctl : Nat → Bool) : Prop :=
  ∀ p ∈ w.epoll.fe.updates.zipIdx, ctl p.2 = w.opened p.1

instance (w : Worker) (ctl : Nat → Bool) : Decidable (Truthful w ctl) :=
  inferInstanceAs (Decidable (∀ p ∈ w.epoll.fe.updates.zipIdx, ctl p.2 = w.opened p.1))

/-- The flush that comes next registers every client that was accepted since the last one
and is still served. -/
def Watches (w : Worker) : Prop :=
  ∀ s fd, awaits s w.log = some fd → ∀ ctl, Truthful w ctl →
    (fdEpollFlushEvents ctl w.epoll).interest fd = some fdIn

/-- The kernel's answers to the flushes of a run. -/
def Kernel : Worker → Action → Prop
  | w, .poll ctl _ => Truthful w ctl
  | _, _ => True

/-- And every number an accept returns has an item that records no registration, and no
mark without a place in the update array. -/
def Reusable : Worker → Action → Prop
  | w, .poll ctl _ => Truthful w ctl
  | w, .dispatch io => ∀ k < w.naccept, ∀ i ∈ (io.accept k).fd, Clear w i
  | _, _ => True

instance (w : Worker) : (a : Action) → Decidable (Kernel w a)
  | .poll ctl _ => inferInstanceAs (Decidable (Truthful w ctl))
  | .deliver .. | .addPolicy _ | .delPolicy _ | .dispatch _ | .drain | .runTask _ => isTrue trivial

instance (w : Worker) : (a : Action) → Decidable (Reusable w a)
  | .poll ctl _ => inferInstanceAs (Decidable (Truthful w ctl))
  | .dispatch io =>
    have : ∀ k, Decidable (∀ i ∈ (io.accept k).fd, Clear w i) :=
      fun _ => Option.decidableForallMem _
    inferInstanceAs (Decidable (∀ k < w.naccept, ∀ i ∈ (io.accept k).fd, Clear w i))
  | .deliver .. | .addPolicy _ | .delPolicy _ | .drain | .runTask _ => isTrue trivial

variable {s : Nat} {log log' more : List Event}

lemma awaits_append : awaits s (log ++ more) = more.foldl (track s) (awaits s log) :=
  foldl_append

lemma awaits_schedule : awaits s (schedule log) = awaits s log := by
  rw [awaits, schedule, foldl_filter]
  congr 1
  funext fd e
  cases e <;> rfl

lemma awaits_history : awaits s (history s log) = awaits s log := by
  have hs : awaits s (schedule log) = awaits s log := awaits_schedule
  rw [← hs, history, awaits, foldl_filter]
  congr 1
  funext fd e
  cases e <;> simp +contextual [track, about]

lemma awaits_of_schedule (he : schedule log' = schedule log ++ more) :
    awaits s log' = more.foldl (track s) (awaits s log) := by
  rw [← awaits_schedule, he, awaits_append, awaits_schedule]

/-- Releases start no wait. -/
lemma awaits_releasing (rest : ∀ e ∈ more, releasing e = true)
    (hb : awaits s log = none) (he : schedule log' = schedule log ++ more) : awaits s log' = none := by
  rw [awaits_of_schedule he, hb]
  clear he hb
  induction more with
  | nil => rfl
  | cons e more ih =>
    have hs : track s none e = none := by
      have := rest e (by simp)
      cases e <;> simp_all [track, releasing]
    rw [foldl_cons, hs]
    exact ih fun e hm => rest e (by simp [hm])

/-- A session that waits for the flush: nothing was done for it, and its request stands. -/
structure Pending (w : Worker) (s fd : Nat) : Prop where
  inUse : w.used s = true
  client : (w.conn s .client).fd = fd
  server : (w.conn s .server).fd < 0
  unlinked : ∀ d, (w.conn s d).task.linked = false
  events : (w.item fd).events = fdIn
  pevents : (w.item fd).pevents = 0#32
  marked : (w.item fd).isUpdated = true
  queued : fd ∈ w.epoll.fe.updates
  unregistered : w.epoll.interest fd = none

def Waits (w : Worker) (s : Nat) : Prop := ∀ fd, awaits s w.log = some fd → Pending w s fd

variable {fd : Nat} {w w' : Worker}

lemma pending_registers (hs : Sane w) (hp : Pending w s fd) {ctl : Nat → Bool}
    (ht : Truthful w ctl) : (fdEpollFlushEvents ctl w.epoll).interest fd = some fdIn := by
  have hh := (hs.tidy s).owns hp.inUse .client fd hp.client
  rw [← hp.events]
  refine flushFrom_registers w.epoll.fe.updates 0 { w.epoll with calls := [] } hp.queued
    hh.pos (by simp [hh.arg]) hp.marked hh.state hp.pevents ?_ fun p hm he => ?_
  · have events : (w.epoll.fe.maps fd).events = fdIn := hp.events
    simp [events, fdIn, epollIn, epollRdHup]
  · rw [ht p hm, he, hh.opened]

lemma waits_of_none (none_ : awaits s w.log = none) : Waits w s := by
  intro fd h
  rw [none_] at h
  cases h

lemma waits_elsewhere (he : Elsewhere s w w') (hw : Waits w s) : Waits w' s := by
  intro fd h
  rw [← awaits_history, he.history, awaits_history] at h
  have hp := hw fd h
  obtain ⟨item, hi⟩ := he.kept hp.inUse .client fd hp.client
  have hs := he.session
  exact ⟨he.used.trans hp.inUse, by rw [Worker.conn, hs]; exact hp.client,
    by rw [Worker.conn, hs]; exact hp.server,
    fun d => by rw [Worker.conn, hs]; exact hp.unlinked d, by rw [item, hp.events],
    by rw [item, hp.pevents], by rw [item, hp.marked],
    he.updates fd hp.queued, by rw [hi, hp.unregistered]⟩

lemma waits_accepted {l : ListenerFd} (ha : Accepted l s fd w w')
    (hr : Registered w) (hu : Unflushed w w') (hc : Clear w fd) : Waits w' s := by
  intro i h
  have he : i = fd := by
    rw [awaits_of_schedule ha.log] at h
    simpa [track] using h.symm
  subst he
  have hq : i ∈ w'.epoll.fe.updates := by
    cases hm : (w.item i).isUpdated with
    | false => exact ha.pending hm
    | true => exact ha.updates i (hc.2 hm)
  have conns : (w'.sessions s).conns = (acceptedSession (w.sessions s) l i).conns := by
    rw [ha.session]
  refine ⟨ha.inUse, ?_, ?_, fun d => ?_, ha.events, ha.pevents.trans hc.1,
    ha.marked, hq, hu.interest i (hr i ha.free)⟩
  · simp [conns, acceptedSession]
  · simp [conns, acceptedSession, sessionInit, connInit]
  · cases d <;> simp [conns, acceptedSession, sessionInit, connInit]

/-! ## Only open descriptors are registered -/

lemma flush_registered {ctl : Nat → Bool} (hr : Registered w) (ht : Truthful w ctl) :
    Registered ({ w with epoll := fdEpollFlushEvents ctl w.epoll }.emit .flushed) := by
  intro i hc
  refine flushFrom_refused w.epoll.fe.updates 0 { w.epoll with calls := [] } (hr i hc)
    fun p hm he => ?_
  rw [ht p hm, he]
  exact hc

lemma registered_preserved : Preserved (fun w _ => Registered w) (fun _ _ => True) Kernel where
  frame he registered := he.unflushed.registered registered
  fits _ _ := trivial
  accept {ios k fd l w} _ _ _ all :=
    (ltnAccept_accepting (ios k) fd l w).imp_true
      (fun _ _ h => ⟨trivial, fun s _ _ _ _ => h.unflushed.registered (all s),
        fun s _ _ => h.unflushed.registered (all s)⟩)
  deliver _ registered _ _ _ _ := registered
  flush _ registered truthful := flush_registered registered truthful
  call {w io cb fd events rest s d} sane registered _ _ phase _ event _ _ _ unlinked := by
    refine (callIocb_reacts (w := { w with phase := .polling rest }) io cb (fun _ => unlinked)
      event).imp_true (fun _ w' h => ?_)
    obtain ⟨-, fds, hw, hr⟩ := h
    exact (reacts_apart hr hw).unflushed.registered registered
  task {w io s d next} sane registered hi _ running linked := by
    have hp := sane.paced
    simp only [Paced, running] at hp
    obtain ⟨rest, queue, -⟩ := hp
    obtain ⟨hs, -, hi'⟩ := dequeue_stable sane.toStable queue
    exact (sessionRunTask_ran io ((hs.tidy s).owns hi') (dequeue_linked w)).imp_true
      (fun _ _ ran => ran.unflushed.registered registered)
  free _ _ _ _ sane registered hi idle :=
    (sessionFree_released (sane.tidy _).owns_of_worker (idle_unlinked sane idle _ .client)).imp_true
      (fun _ _ released => released.unflushed.registered registered)

/-! ## Only registered descriptors are dispatched -/

def Polled (w : Worker) : Prop :=
  ∀ batch, w.phase = .polling batch → ∀ e ∈ batch, w.epoll.interest e.1 ≠ none

lemma polled_of_phase {batch : List (Nat × Mask)} (hp : w.phase = .polling batch)
    (hr : ∀ e ∈ batch, w.epoll.interest e.1 ≠ none) : Polled w := by
  intro other he
  rw [hp] at he
  cases he
  exact hr

lemma polled_cursor (t : Option TaskRef) : Polled { w with phase := cursorAt w t } := by
  intro batch phase
  cases t <;> cases phase

lemma polled_of_idle (hi : w.phase = .idle) : Polled w := by
  intro batch hp
  rw [hi] at hp
  cases hp

/-- What is open stays as it was while clients are accepted. -/
lemma acceptLoop_kept (ios : Nat → AcceptIO) (fd : Nat) (l : ListenerFd) (k n : Nat) (w : Worker) :
    Ensures (acceptLoop ios fd l k n) w (fun _ w' => w'.phase = w.phase ∧
      ∀ i, w.opened i = true → w'.opened i = true ∧ w'.epoll.interest i = w.epoll.interest i)
      (fun _ _ => True) := by
  induction n generalizing k w with
  | zero => exact (ensures_pure _).mpr ⟨rfl, fun i ho => ⟨ho, rfl⟩⟩
  | succ n ih =>
    simp only [acceptLoop, ensures_bind]
    refine (ltnAccept_accepting (ios k) fd l w).imp_true (fun ret w1 h1 => ?_)
    rw [ensures_ite, ensures_pure]
    refine ⟨fun _ => ⟨h1.same.2, fun i ho => h1.kept ho⟩, fun _ => ?_⟩
    refine (ih (k + 1) w1).imp_true (fun _ w2 h2 => ⟨h2.1.trans h1.same.2, fun i ho => ?_⟩)
    obtain ⟨opened1, interest1⟩ := h1.kept ho
    obtain ⟨opened2, interest2⟩ := h2.2 i opened1
    exact ⟨opened2, interest2.trans interest1⟩

lemma listenerAccept_polled {ios : Nat → AcceptIO} {fd : Nat} {events : Mask} {addr : Nat}
    (hr : Registered w) (hp : Polled w) :
    Ensures (listenerAccept ios fd events addr) w (fun _ w' => Polled w') (fun _ _ => True) := by
  simp only [listenerAccept]
  rw [ensures_ite, ensures_pure]
  refine ⟨fun _ => hp, fun _ => ?_⟩
  simp only [ensures_bind, ensures_get]
  split
  · exact (ensures_throw _).mpr trivial
  simp only [ensures_bind, ensures_get]
  refine (acceptLoop_kept ios fd _ 0 _ w).imp_true (fun _ w' h batch phase e hm => ?_)
  rw [h.1] at phase
  have hi := hp batch phase e hm
  have ho : w.opened e.1 = true := by
    by_contra hc
    exact hi (hr e.1 (by simpa using hc))
  rw [(h.2 e.1 ho).2]
  exact hi

lemma dispatch_polled {io : CallbackIO} {fd : Nat} {events : Mask} {rest : List (Nat × Mask)}
    (sane : Sane w) (hr : Registered w) (hp : Polled w)
    (phase : w.phase = .polling ((fd, events) :: rest)) :
    Ensures (dispatchEvent io fd events) { w with phase := .polling rest }
      (fun _ w' => Polled w') (fun _ _ => True) := by
  have ht : Polled { w with phase := .polling rest } :=
    polled_of_phase rfl fun e hm => hp _ phase e (mem_cons_of_mem _ hm)
  refine ensures_dispatchEvent io ht (fun _ => trivial) fun cb arg he hi hh => ?_
  cases arg with
  | listener addr =>
    cases cb with
    | listenerAccept => exact listenerAccept_polled hr ht
    | _ => exact (ensures_throw _).mpr trivial
  | conn s d =>
    obtain ⟨hs, -, unqueued⟩ := taken_sane sane phase
    have hu := fun own => unlinked_of_unqueued (s := s) (d := d) hs unqueued own
    refine (callIocb_reacts io cb hu he).imp_true (fun _ w' h => ?_)
    obtain ⟨-, fds, hw, reacts⟩ := h
    have hc : Confined s fds { w with phase := .polling rest } w' := by
      rcases reacts with still | ⟨_, hq⟩
      · exact still.toConfined
      · exact hq.toConfined
    refine polled_of_phase hc.phase fun e hm => ?_
    rw [hc.interest]
    exact ht rest rfl e hm

lemma workerStep_polled {a : Action} (hs : Sane w) (hr : Registered w) (hp : Polled w) :
    Ensures (workerStep a) w (fun _ w' => Polled w') (fun _ _ => True) := by
  refine ensures_workerStep trivial ?_ ?_ ?_ ?_ ?_ ?_ ?_
  · rintro s d bytes fin rfl hg
    exact hp
  · intro io _ hi
    refine (workerAddPolicy_aside io w).imp_true (fun _ w' h => ?_)
    rcases h with rfl | ⟨i, ha, -⟩
    · exact hp
    · exact polled_of_idle (ha.phase.trans hi)
  · rintro policy rfl hi
    simp only [workerDelPolicy, ensures_bind, ensures_get]
    split
    · exact (ensures_pure _).mpr hp
    next l found =>
    obtain ⟨he, hu⟩ := erased_sane hs found
    simp only [ensures_bind, ensures_modify, listenerFreeFd, ensures_pure]
    refine (freeSessions_sane he l.ssnlist hi hu).imp_true (fun _ w1 h1 => ?_)
    simp only [ensures_onlyIf, dropFd, ensures_modify]
    exact ⟨fun _ => polled_of_idle h1.2.1, fun _ => polled_of_idle h1.2.1⟩
  · rintro ctl batch rfl hi
    simp only [pollEvents, ensures_bind, ensures_modify, ensures_emit, ensures_get, ensures_answers, setPhase]
    refine ⟨fun reported => polled_of_phase rfl fun e hm => ?_, fun _ => trivial⟩
    obtain ⟨m, hr, -⟩ := reported.2.2 e hm
    rw [mem_def.mp hr]
    simp
  · rintro io fd events rest rfl phase hh
    exact dispatch_polled hs hr hp phase
  · intro _ phase
    exact polled_cursor _
  · rintro io ⟨s, d⟩ next rfl running
    exact ensures_of_forall fun _ w' _ => polled_cursor _

/-! ## Every wait ends in a registration -/

/-- What the accepts of one dispatched event rely on. -/
def Fits (ios : Nat → AcceptIO) (w : Worker) : Prop :=
  Registered w ∧ ∀ k < w.naccept, ∀ i ∈ (ios k).fd, Clear w i

/-- The condition on the actions, and what may be relied on in the state before. -/
def Relies (w : Worker) (a : Action) : Prop := Reusable w a ∧ Sane w ∧ Registered w ∧ Polled w

lemma kernel_of_reusable {w : Worker} {a : Action} (h : Reusable w a) : Kernel w a := by
  cases a with
  | poll ctl batch => exact h
  | _ => trivial

/-- Along a run with truthful answers only open descriptors are registered, and only
registered ones are dispatched. -/
lemma relies_along {actions : List Action} {w : Worker} (hs : Sane w)
    (hr : Registered w) (hp : Polled w)
    (ha : Along workerStep Reusable actions w) : Along workerStep Relies actions w := by
  refine ha.and_invariant (fun a w h ok => ?_) ⟨hs, hr, hp⟩
  obtain ⟨hs, hr, hp⟩ := h
  have open_ := registered_preserved.workerStep a hs (fun _ => hr) (kernel_of_reusable ok)
  refine (((workerStep_sane hs a).and open_).and (workerStep_polled hs hr
    hp)).imp_true (fun _ w' h => ?_)
  obtain ⟨⟨hs', open_⟩, hp'⟩ := h
  exact ⟨hs', open_ 0, hp'⟩

variable {d : Dir}

lemma fits_accepting {ios : Nat → AcceptIO} {k : Nat} {l : ListenerFd} {w' : Worker}
    (hf : Fits ios w) (h : Accepting (ios k) l w w') : Fits ios w' := by
  refine ⟨h.unflushed.registered hf.1, fun j hb i hm => ?_⟩
  rw [h.same.1] at hb
  exact h.unflushed.clear i (hf.2 j hb i hm)

/-- A session whose descriptor is registered does not wait. -/
lemma not_awaiting_of_served (hw : Waits w s) (own : (w.conn s d).fd = fd)
    (hr : w.epoll.interest fd ≠ none) : awaits s w.log = none := by
  by_contra some_
  obtain ⟨i, waiting⟩ := ne_none_iff_exists'.mp some_
  have hp := hw i waiting
  cases d with
  | client =>
    have he : i = fd := by
      have client := hp.client
      omega
    rw [he] at hp
    exact hr hp.unregistered
  | server =>
    have server := hp.server
    omega

/-- Nor does an object in the pool. -/
lemma not_awaiting_of_unused (hw : Waits w s) (hu : w.used s = false) : awaits s w.log = none := by
  by_contra some_
  obtain ⟨i, waiting⟩ := ne_none_iff_exists'.mp some_
  have hi := (hw i waiting).inUse
  rw [hu] at hi
  cases hi

/-- Nor does one whose task is queued. -/
lemma not_awaiting_of_linked (hw : Waits w s) (hl : (w.conn s d).task.linked = true) :
    awaits s w.log = none := by
  by_contra some_
  obtain ⟨i, waiting⟩ := ne_none_iff_exists'.mp some_
  have hu := (hw i waiting).unlinked d
  rw [hl] at hu
  cases hu

lemma waits_preserved : Preserved Waits Fits Relies where
  frame := waits_elsewhere
  fits ok _ := ⟨ok.2.2.1, ok.1⟩
  accept {ios k fd l w} hb _ hf all := by
    refine (ltnAccept_accepting (ios k) fd l w).imp_true (fun _ w' h => ⟨fits_accepting hf h, ?_⟩)
    refine ⟨fun s i answer _ ha => ?_, fun s hu refused => ?_⟩
    · exact waits_accepted ha hf.1 h.unflushed (hf.2 k hb i answer)
    · refine waits_of_none ?_
      rw [awaits_of_schedule refused.log]
      exact not_awaiting_of_unused (all s) hu
  deliver {w s d bytes fin} _ hw _ _ _ _ := by
    intro fd h
    have pending := hw fd h
    refine { pending with client := ?_, server := ?_, unlinked := fun e => ?_ }
    · cases d <;> simpa [deliver] using pending.client
    · cases d <;> simpa [deliver] using pending.server
    · have unlinked := pending.unlinked e
      rcases d.sides e with rfl | rfl <;> simpa [deliver] using unlinked
  flush {w s ctl batch} _ _ _ := by
    refine waits_of_none ?_
    simp [awaits, track]
  call {w io cb fd events rest s d} sane hw _ ok phase _ he _ _ own unlinked := by
    have hr := ok.2.2.2 _ phase (fd, events) (by simp)
    have idle := not_awaiting_of_served hw own hr
    refine (callIocb_reacts (w := { w with phase := .polling rest }) io cb (fun _ => unlinked)
      he).imp_true (fun _ w' h => ?_)
    obtain ⟨-, fds, -, still | ⟨kind, hq⟩⟩ := h
    · refine waits_of_none ?_
      rw [← awaits_schedule, still.log, awaits_schedule]
      exact idle
    · refine waits_of_none ?_
      rw [awaits_of_schedule hq.log]
      exact idle
  task {w io s d next} sane hw hi _ running linked := by
    have idle := not_awaiting_of_linked hw linked
    have hp := sane.paced
    simp only [Paced, running] at hp
    obtain ⟨rest, queue, -⟩ := hp
    obtain ⟨hs, -, hi'⟩ := dequeue_stable sane.toStable queue
    refine (sessionRunTask_ran io ((hs.tidy s).owns hi') (dequeue_linked w)).imp_true
      (fun _ w' ran => ?_)
    obtain ⟨more, log, releases⟩ := ran.log
    refine waits_of_none (awaits_releasing (fun e hm => (releases e hm).1) ?_ log)
    simpa [dequeue, awaits, track] using idle
  free {w0 w s policy l} _ _ _ _ sane _ _ idle := by
    refine (sessionFree_released (sane.tidy s).owns_of_worker
      (idle_unlinked sane idle s .client)).imp_true (fun _ w' released => ?_)
    refine waits_of_none ?_
    cases released.outcome with
    | deferred _ _ _ log => simp [awaits_of_schedule log, track]
    | returned _ _ _ _ log _ => simp [awaits_of_schedule log, track]

/-- In every run whose accepts get numbers with a clear item, the flush behind an accept
registers the client with `FD_IN`. -/
theorem accepted_watched {maxfd naccept : Nat} {opened : Nat → Bool} {actions : List Action}
    (along : Along workerStep Reusable actions (Worker.start maxfd naccept opened)) :
    Ensures (runWorker actions) (Worker.start maxfd naccept opened)
      (fun _ w => Watches w) (fun _ _ => True) := by
  have hs := start_sane maxfd naccept opened
  have hr := relies_along hs (fun _ _ => rfl) (polled_of_idle rfl) along
  have start : All Waits (Worker.start maxfd naccept opened) := fun _ => waits_of_none rfl
  refine (waits_preserved.run hs start hr).imp_true (fun _ w h => ?_)
  intro s fd hw ctl ht
  exact pending_registers h.1 (h.2 s fd hw) ht

theorem accepted_watched_firstClient :
    Along workerStep Reusable (acceptRound .reverse false) (Worker.start 16 1 fun _ => false) ∧
    Ensures (runWorker (acceptRound .reverse false)) (Worker.start 16 1 fun _ => false)
      (fun _ w => Watches w) (fun _ _ => True) :=
  ⟨by decide +kernel, accepted_watched (by decide +kernel)⟩

/-! ## Stale items -/

/-- A policy is deleted, and a client of another gets the number of its descriptor. -/
def listenerReplaced : List Action :=
  .addPolicy ⟨1, .reverse, false, 1, some 4⟩ :: .addPolicy ⟨0, .reverse, false, 0, some 3⟩ ::
    polls [] ++ .delPolicy 1 :: polls [((3, epollIn), willing)]

/-- An accept fails at `tat_get_dstaddr`, behind its request, and the next client gets the
same number. -/
def acceptRepeated : List Action :=
  .addPolicy ⟨0, .trapt, false, 0, some 3⟩ ::
    polls [((3, epollIn), { willing with accept _ := ⟨some 4, false, some 0, true, true, false⟩ })] ++
    [.poll (fun _ => false) [(3, epollIn)], .dispatch willing, .drain]

/-- The accepted client of session 0 is left out by the next flush. -/
def LeftOut (w : Worker) (fd : Nat) : Prop :=
  awaits 0 w.log = some fd ∧ Truthful w (fun _ => true) ∧
    (fdEpollFlushEvents (fun _ => true) w.epoll).interest fd = none

instance (w : Worker) (fd : Nat) : Decidable (LeftOut w fd) :=
  inferInstanceAs (Decidable (_ ∧ _ ∧ _))

lemma not_watches_of_leftOut {w : Worker} {fd : Nat} (h : LeftOut w fd) : ¬ Watches w := by
  intro hw
  have hr := hw 0 fd h.1 (fun _ => true) h.2.1
  rw [h.2.2] at hr
  cases hr

theorem stale_item_unwatched : (Along workerStep Kernel listenerReplaced emptyWorker ∧
      Ensures (runWorker listenerReplaced) emptyWorker (fun _ w => ¬ Watches w)
        (fun _ _ => False)) ∧ (Along workerStep Kernel acceptRepeated emptyWorker ∧
      Ensures (runWorker acceptRepeated) emptyWorker (fun _ w => ¬ Watches w) (fun _ _ => False)) := by
  refine ⟨⟨by decide +kernel, ?_⟩, ⟨by decide +kernel, ?_⟩⟩
  · refine Ensures.mono (Q := fun _ w => LeftOut w 4) (E := fun _ _ => False) (by decide +kernel)
      (fun _ _ => not_watches_of_leftOut) (fun _ _ h => h)
  · refine Ensures.mono (Q := fun _ w => LeftOut w 4) (E := fun _ _ => False) (by decide +kernel)
      (fun _ _ => not_watches_of_leftOut) (fun _ _ h => h)

end Fzsvn.Guarantees.Proxy.AcceptedWatch
