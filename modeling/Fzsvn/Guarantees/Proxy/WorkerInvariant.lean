import Fzsvn.Guarantees.Proxy.TaskRun
import Mathlib.Data.List.Sigma

/-!
# The invariant of the worker loop

What holds between two actions of the loop: what the queue links are worth, who owns
which descriptor, where the cursor of `task_run_queue` stands, and what was logged.
Every action keeps it, whatever the system calls answer.
-/
namespace Fzsvn.Guarantees.Proxy.WorkerInvariant
open Library.Exec Source.Proxy Locality Lifecycle LoopRules TaskRun Function
open List hiding keys

/-! ## The log -/

/-- The tasks queued so far, in order. -/
def queuedOf (log : List Event) : List TaskRef :=
  log.filterMap fun
    | .queued s d _ => some ⟨s, d⟩
    | _ => none

/-- The tasks run so far, in order. -/
def ranOf (log : List Event) : List TaskRef :=
  log.filterMap fun
    | .ran s d _ => some ⟨s, d⟩
    | _ => none

/-- No "task already in queue", and no release of a session with a linked task. -/
def clean : Event → Prop
  | .busy _ _ => False
  | .put _ client server => client = false ∧ server = false
  | _ => True

@[simp] lemma queuedOf_schedule (log : List Event) : queuedOf (schedule log) = queuedOf log := by
  simp only [queuedOf, schedule, filterMap_filter]
  congr 1
  funext e
  cases e <;> rfl

@[simp] lemma ranOf_schedule (log : List Event) : ranOf (schedule log) = ranOf log := by
  simp only [ranOf, schedule, filterMap_filter]
  congr 1
  funext e
  cases e <;> rfl

lemma clean_schedule {log : List Event} (h : ∀ e ∈ schedule log, clean e) : ∀ e ∈ log, clean e := by
  intro e hm
  cases hl : scheduling e with
  | true => exact h e (mem_filter.mpr ⟨hm, hl⟩)
  | false => cases e <;> trivial

/-- The log of a worker whose queue is `taskq`. -/
structure Orderly (log : List Event) (taskq : List TaskRef) : Prop where
  clean : ∀ e ∈ log, clean e
  order : queuedOf log = ranOf log ++ taskq

/-- What remains of it where the process stops. -/
structure Settled (log : List Event) : Prop where
  clean : ∀ e ∈ log, clean e
  order : ranOf log <+: queuedOf log

variable {s : Nat} {d : Dir} {kind : TaskKind} {log log' more : List Event} {taskq : List TaskRef}

section

variable (h : Orderly log taskq)
include h

lemma Orderly.settled : Settled log :=
  ⟨h.clean, taskq, h.order.symm⟩

lemma orderly_same (he : schedule log' = schedule log) : Orderly log' taskq where
  clean := clean_schedule (by
    rw [he]
    exact fun e hm => h.clean e (mem_filter.mp hm).1)
  order := by
    rw [← queuedOf_schedule, ← ranOf_schedule, he, queuedOf_schedule, ranOf_schedule]
    exact h.order

lemma orderly_queued (he : schedule log' = schedule log ++ [.queued s d kind]) :
    Orderly log' (taskq ++ [⟨s, d⟩]) where
  clean := clean_schedule (by
    rw [he]
    intro e hm
    rcases mem_append.mp hm with old | new
    · exact h.clean e (mem_filter.mp old).1
    · rw [mem_singleton.mp new]
      trivial)
  order := by
    have old := h.order
    rw [← queuedOf_schedule, ← ranOf_schedule] at old ⊢
    rw [he]
    simp only [queuedOf, ranOf, filterMap_append] at old ⊢
    simp [old]

end

lemma orderly_ran (h : Orderly log (⟨s, d⟩ :: taskq)) : Orderly (log ++ [.ran s d kind]) taskq where
  clean e member := by
    rcases mem_append.mp member with old | new
    · exact h.clean e old
    · rw [mem_singleton.mp new]
      trivial
  order := by
    have old := h.order
    simp only [queuedOf, ranOf, filterMap_append] at old ⊢
    simp [old]

lemma orderly_append (h : Orderly log taskq) (he : schedule log' = schedule log ++ more)
    (rest : ∀ e ∈ more, passive e = true) : Orderly log' taskq where
  clean := clean_schedule (by
    rw [he]
    intro e hm
    rcases mem_append.mp hm with old | new
    · exact h.clean e (mem_filter.mp old).1
    · have := rest e new
      cases e <;> simp_all [passive, WorkerInvariant.clean])
  order := by
    have old := h.order
    have none : queuedOf more = [] ∧ ranOf more = [] := by
      constructor <;>
      · refine List.filterMap_eq_nil_iff.mpr fun e hm => ?_
        have := rest e hm
        cases e <;> simp_all [passive]
    rw [← queuedOf_schedule, ← ranOf_schedule] at old ⊢
    rw [he]
    simp only [queuedOf, ranOf, filterMap_append] at old none ⊢
    rw [none.1, none.2, append_nil, append_nil, old]

/-! ## The invariant -/

/-- The queue links are true. -/
structure Chained (w : Worker) : Prop where
  nodup : w.taskq.Nodup
  linked : ∀ s d, ⟨s, d⟩ ∈ w.taskq ↔ (w.conn s d).task.linked = true
  ntask : w.ntask = w.taskq.length

/-- An object in the pool is unlinked and answers no callback; one in use has tasks that
run and holds its descriptors. -/
structure Tidy (w : Worker) (s : Nat) : Prop where
  unlinked : w.used s = false → ∀ d, (w.conn s d).task.linked = false
  closed : w.used s = false → (w.sessions s).worker = true → ∀ d, (w.conn s d).fd < 0
  armed : w.used s = true → ∀ d, (w.conn s d).task.armed = true
  owns : w.used s = true → Owns w s

/-- Every listener has its own open descriptor, whose item points to it. -/
structure Listening (w : Worker) : Prop where
  nodup : ((keys w).map Prod.fst).Nodup
  item : ∀ a fd, (a, fd) ∈ keys w → ∀ i : Nat, fd = i →
    w.opened i = true ∧ (w.item i).arg = some (.listener a)

/-- Where the loop is. While a batch is dispatched, no connection of a queued task is
still to come; while the queue runs, the cursor is at its head. -/
def Paced (w : Worker) : Prop :=
  match w.phase with
  | .idle => w.taskq = []
  | .polling batch => (batch.map Prod.fst).Nodup ∧
      ∀ t ∈ w.taskq, ∀ e ∈ batch, (w.conn t.session t.dir).fd ≠ e.1
  | .running t next => ∃ rest, w.taskq = t :: rest ∧ next = rest.head?

/-- What holds between two actions, apart from where the loop is. -/
structure Stable (w : Worker) : Prop where
  chained : Chained w
  tidy : ∀ s, Tidy w s
  listening : Listening w
  log : Orderly w.log w.taskq

structure Sane (w : Worker) : Prop extends Stable w where
  paced : Paced w

variable {w w' : Worker}

/-- Another session keeps what it has. -/
lemma apart_tidy (hd : Apart s w w') (owns : Owns w s) {r : Nat} (different : r ≠ s)
    (ht : Tidy w r) : Tidy w' r := by
  have hu := hd.used r different
  have he := hd.sessions r different
  have hc : ∀ d, w'.conn r d = w.conn r d := fun d => by rw [Worker.conn, he]
  refine ⟨?_, ?_, ?_, ?_⟩
  · simpa only [hu, hc] using ht.unlinked
  · simpa only [hu, he, hc] using ht.closed
  · simpa only [hu, hc] using ht.armed
  · intro hi d i fd
    rw [hu] at hi
    rw [hc] at fd
    have hh := ht.owns hi d i fd
    have hf : ∀ e, (w.conn s e).fd ≠ i := fun e h =>
      different (ht.owns hi |>.distinct owns fd h).1
    obtain ⟨ho, item, -⟩ := hd.kept i hh.opened hf
    exact ⟨hh.pos, by rw [hd.maxfd]; exact hh.inside, ho, by rw [item, hh.state],
      by rw [item, hh.arg]⟩

lemma apart_listening (hd : Apart s w w') (owns : Owns w s) (hl : Listening w) :
    Listening w' := by
  refine ⟨by rw [hd.keys]; exact hl.nodup, fun a fd hm i hi => ?_⟩
  rw [hd.keys] at hm
  obtain ⟨ho, arg⟩ := hl.item a fd hm i hi
  have hf : ∀ e, (w.conn s e).fd ≠ i := by
    intro e h
    have hh := owns e i h
    rw [hh.arg] at arg
    cases arg
  obtain ⟨ho', item, -⟩ := hd.kept i ho hf
  exact ⟨ho', by rw [item, arg]⟩

/-- Links that did not change are still true. -/
lemma chained_same (hc : Chained w) (ho : ∀ r, r ≠ s → w'.sessions r = w.sessions r)
    (hl : ∀ d, (w'.conn s d).task.linked = (w.conn s d).task.linked)
    (taskq : w'.taskq = w.taskq) (hn : w'.ntask = w.ntask) : Chained w' := by
  refine ⟨by rw [taskq]; exact hc.nodup, fun r d => ?_, by rw [hn, taskq, hc.ntask]⟩
  rw [taskq, hc.linked]
  by_cases he : r = s
  · subst he
    rw [hl]
  · rw [Worker.conn, Worker.conn, ho r he]

/-- The same for a session nothing of which changed that counts here. -/
lemma tidy_congr {r : Nat} (ht : Tidy w r) (hu : w'.used r = w.used r)
    (hw : (w'.sessions r).worker = (w.sessions r).worker) (fd : ∀ d, (w'.conn r d).fd = (w.conn r d).fd)
    (hl : ∀ d, (w'.conn r d).task.linked = (w.conn r d).task.linked)
    (ha : ∀ d, (w'.conn r d).task.armed = (w.conn r d).task.armed)
    (ho : w'.opened = w.opened) (hm : w'.epoll.fe.maxfd = w.epoll.fe.maxfd)
    (item : ∀ i, (w'.item i).state = (w.item i).state ∧ (w'.item i).arg = (w.item i).arg) : Tidy w' r := by
  refine ⟨?_, ?_, ?_, ?_⟩
  · simpa only [hu, hl] using ht.unlinked
  · simpa only [hu, hw, fd] using ht.closed
  · simpa only [hu, ha] using ht.armed
  · intro inUse d i hi
    rw [hu] at inUse
    rw [fd] at hi
    have hh := ht.owns inUse d i hi
    exact ⟨hh.pos, by rw [hm]; exact hh.inside, by rw [ho, hh.opened],
      (item i).1.trans hh.state, (item i).2.trans hh.arg⟩

lemma stable_served (ho : ∀ r, r ≠ s → Tidy w r) (listening : Listening w)
    (hd : Apart s w w') (owns : Owns w s) (chained : Chained w') (tidy : Tidy w' s)
    (log : Orderly w'.log w'.taskq) : Stable w' where
  chained := chained
  tidy r := by
    by_cases he : r = s
    · rw [he]
      exact tidy
    · exact apart_tidy hd owns he (ho r he)
  listening := apart_listening hd owns listening
  log := log

/-- The loop is where it was if the queued connections kept their descriptors. -/
lemma paced_same (hp : Paced w) (phase : w'.phase = w.phase) (taskq : w'.taskq = w.taskq)
    (fds : ∀ t ∈ w.taskq, (w'.conn t.session t.dir).fd = (w.conn t.session t.dir).fd) : Paced w' := by
  unfold Paced at hp ⊢
  rw [phase, taskq]
  split <;> rename_i found
  · simpa [found] using hp
  · simp only [found] at hp
    refine ⟨hp.1, fun t hm e batch => ?_⟩
    rw [fds t hm]
    exact hp.2 t hm e batch
  · simpa [found] using hp

/-! ## Callbacks -/

variable {rest : List (Nat × Mask)}

variable {fds : Dir → Int}

/-- A callback that passed its checks serves an object in use. -/
lemma used_of_served {fd : Int} (ht : Tidy w s) (hs : Served w s d fd) (open_ : 0 ≤ fd) :
    w.used s = true := by
  by_contra hu
  have hc := ht.closed (by simpa using hu) hs.worker d
  rw [hs.fd] at hc
  omega

lemma confined_tidy (h : Confined s fds w w') (hw : Within fds w s)
    (hi : w.used s = true) (ht : Tidy w s) : Tidy w' s := by
  have hi' : w'.used s = true := by rw [h.used, hi]
  refine ⟨fun hu => ?_, fun hu => ?_, fun _ d => ?_, fun _ => ?_⟩
  · rw [hi'] at hu
    cases hu
  · rw [hi'] at hu
    cases hu
  · rw [h.armed]
    exact ht.armed hi d
  · exact confined_owns h hw (ht.owns hi)

lemma confined_fd (h : Confined s fds w w') {r : Nat} {e : Dir} : (w'.conn r e).fd = (w.conn r e).fd := by
  by_cases he : r = s
  · rw [he]
    exact h.fd e
  · rw [Worker.conn, h.others r he]

lemma local_sane (sane : Sane w) (hi : w.used s = true) (hw : Within fds w s)
    (h : Local s fds w w') : Sane w' where
  toStable := by
    refine stable_served (fun r _ => sane.tidy r) sane.listening (local_solo h hw).toApart
      ((sane.tidy s).owns hi) (chained_same sane.chained h.others h.linked h.taskq h.ntask)
      (confined_tidy h.toConfined hw hi (sane.tidy s)) ?_
    rw [h.taskq]
    exact orderly_same sane.log h.log
  paced := paced_same sane.paced h.phase h.taskq fun _ _ => confined_fd h.toConfined

lemma enqueued_chained {kind : TaskKind} (hc : Chained w)
    (hu : (w.conn s d).task.linked = false) (h : Enqueued s fds d kind w w') : Chained w' := by
  have hn : ⟨s, d⟩ ∉ w.taskq := by
    intro hm
    rw [hc.linked, hu] at hm
    cases hm
  refine ⟨?_, fun r e => ?_, ?_⟩
  · rw [h.taskq]
    exact nodup_append.mpr ⟨hc.nodup, by simp, by
      intro a ha b hb
      rw [mem_singleton.mp hb]
      rintro rfl
      exact hn ha⟩
  · rw [h.taskq, mem_append, hc.linked, mem_singleton]
    by_cases he : r = s
    · subst he
      rcases d.sides e with rfl | rfl
      · simp [h.linked]
      · rw [h.linkedPeer]
        simp
    · rw [Worker.conn, Worker.conn, h.others r he]
      simp [he]
  · rw [h.ntask, h.taskq, hc.ntask]
    simp

lemma enqueued_sane {kind : TaskKind} (sane : Sane w) (hi : w.used s = true)
    (hw : Within fds w s) (hp : w.phase = .polling rest)
    (hf : ∀ e ∈ rest, (w.conn s d).fd ≠ e.1) (hu : (w.conn s d).task.linked = false)
    (h : Enqueued s fds d kind w w') : Sane w' where
  toStable := by
    refine stable_served (fun r _ => sane.tidy r) sane.listening (enqueued_apart h hw)
      ((sane.tidy s).owns hi)
      (enqueued_chained sane.chained hu h)
      (confined_tidy h.toConfined hw hi (sane.tidy s)) ?_
    rw [h.taskq]
    exact orderly_queued sane.log h.log
  paced := by
    have hb := sane.paced
    simp only [Paced, hp] at hb
    simp only [Paced, h.phase, hp]
    refine ⟨hb.1, fun t hm e batch => ?_⟩
    rw [confined_fd h.toConfined]
    rw [h.taskq, mem_append, mem_singleton] at hm
    rcases hm with old | rfl
    · exact hb.2 t old e batch
    · exact hf e batch

lemma reacts_apart (h : Reacts s fds d w w') (hw : Within fds w s) : Apart s w w' := by
  rcases h with hs | ⟨kind, hq⟩
  · exact (local_solo hs hw).toApart
  · exact enqueued_apart hq hw

/-- What a callback of a connection leaves is sane again. -/
lemma reacts_sane {fd : Int} (sane : Sane w) (open_ : 0 ≤ fd) (hs : Served w s d fd)
    (hw : Within fds w s) (hp : w.phase = .polling rest) (hf : ∀ e ∈ rest, fd ≠ e.1)
    (hu : (w.conn s d).task.linked = false) (h : Reacts s fds d w w') : Sane w' := by
  have hi := used_of_served (sane.tidy s) hs open_
  rcases h with still | ⟨kind, hq⟩
  · exact local_sane sane hi hw still
  · refine enqueued_sane sane hi hw hp (fun e hb => ?_) hu hq
    rw [hs.fd]
    exact hf e hb

/-! ## Accept -/

variable {i : Nat} {l : ListenerFd}

/-- Around an object taken from the pool everything is as before. -/
lemma admitted_others (sane : Sane w) : (∀ r, r ≠ s → Tidy (admitted w s) r) ∧
    Listening (admitted w s) ∧ Owns (admitted w s) s := by
  refine ⟨fun r different => ?_, ⟨sane.listening.nodup, sane.listening.item⟩, fun d i fd => ?_⟩
  · refine tidy_congr (sane.tidy r) ?_ ?_ ?_ ?_ ?_ rfl rfl fun _ => ⟨rfl, rfl⟩
    all_goals simp [admitted, different]
  · simp [admitted, sessionInit, connInit] at fd

section

variable (sane : Sane w) (hu : w.used s = false)
include sane hu

/-- No task of an object in the pool is queued. -/
lemma not_queued : ∀ t ∈ w.taskq, t.session ≠ s := by
  rintro ⟨r, d⟩ hm rfl
  rw [sane.chained.linked, (sane.tidy r).unlinked hu d] at hm
  cases hm

lemma settled_sane (hd : Apart s (admitted w s) w')
    (hl : ∀ d, (w'.conn s d).task.linked = false) (taskq : w'.taskq = w.taskq)
    (hn : w'.ntask = w.ntask) (ht : Tidy w' s) (log : Orderly w'.log w'.taskq) : Sane w' where
  toStable := by
    obtain ⟨ho, listening, owns⟩ := admitted_others (s := s) sane
    refine stable_served ho listening hd owns ?_ ht log
    refine chained_same sane.chained (s := s) (fun r different => ?_) (fun d => ?_) taskq hn
    · rw [hd.sessions r different]
      simp [admitted, different]
    · rw [hl d, (sane.tidy s).unlinked hu d]
  paced := by
    refine paced_same sane.paced hd.phase taskq fun t hm => ?_
    have different := not_queued sane hu t hm
    rw [Worker.conn, hd.sessions _ different]
    simp [admitted, different]

lemma accepted_sane (h : Accepted l s i w w') : Sane w' := by
  have hc : ∀ d, (w'.conn s d).task = ⟨.none, false, true⟩ := by
    intro d
    rw [Worker.conn, h.session]
    cases d <;> rfl
  refine settled_sane sane hu h.toApart (fun d => by rw [hc]) h.taskq h.ntask ?_ ?_
  · refine ⟨fun hu' => ?_, fun hu' => ?_, fun _ d => by rw [hc], fun _ d j fd => ?_⟩
    · rw [h.inUse] at hu'
      cases hu'
    · rw [h.inUse] at hu'
      cases hu'
    · rw [Worker.conn, h.session] at fd
      cases d with
      | client =>
        have : j = i := by
          have : (i : Int) = j := by simpa [acceptedSession] using fd
          omega
        subst this
        exact h.held
      | server => simp [acceptedSession, sessionInit, connInit] at fd
  · rw [h.taskq]
    exact orderly_append sane.log h.log (by simp [passive])

lemma refused_sane (h : Refused s w w') : Sane w' := by
  refine settled_sane sane hu h.toApart h.linked h.taskq h.ntask ?_ ?_
  · refine ⟨fun _ => h.linked, fun _ hw => ?_, fun hi => ?_, fun hi => ?_⟩
    · rw [h.worker] at hw
      cases hw
    · rw [h.after] at hi
      cases hi
    · rw [h.after] at hi
      cases hi
  · rw [h.taskq]
    exact orderly_append sane.log h.log (by simp [passive])

end

/-- Nothing that counts here changed. -/
lemma sane_congr (sane : Sane w) (hw : ∀ s, (w'.sessions s).worker = (w.sessions s).worker)
    (fd : ∀ s d, (w'.conn s d).fd = (w.conn s d).fd)
    (ht : ∀ s d, (w'.conn s d).task = (w.conn s d).task) (hu : w'.used = w.used)
    (ho : w'.opened = w.opened) (hl : w'.lfds = w.lfds) (maxfd : w'.epoll.fe.maxfd = w.epoll.fe.maxfd)
    (item : ∀ i, (w'.item i).state = (w.item i).state ∧ (w'.item i).arg = (w.item i).arg)
    (taskq : w'.taskq = w.taskq) (hn : w'.ntask = w.ntask) (paced : Paced w')
    (log : Orderly w'.log w.taskq) : Sane w' where
  chained := by
    refine ⟨by rw [taskq]; exact sane.chained.nodup, fun s d => ?_, ?_⟩
    · rw [taskq, ht]
      exact sane.chained.linked s d
    · rw [hn, taskq]
      exact sane.chained.ntask
  tidy r := tidy_congr (sane.tidy r) (by rw [hu]) (hw r) (fd r) (fun d => by rw [ht])
    (fun d => by rw [ht]) ho maxfd item
  listening := by
    have he : keys w' = keys w := by rw [keys, hl, keys]
    refine ⟨by rw [he]; exact sane.listening.nodup, fun a fd hm j hj => ?_⟩
    rw [he] at hm
    obtain ⟨hi, arg⟩ := sane.listening.item a fd hm j hj
    exact ⟨by rw [ho, hi], (item j).2.trans arg⟩
  log := by
    rw [taskq]
    exact log
  paced := paced

lemma accepting_sane {io : AcceptIO} (sane : Sane w) (h : Accepting io l w w') : Sane w' ∧ w'.phase = w.phase := by
  cases h with
  | nothing hs =>
    rw [hs]
    exact ⟨sane, rfl⟩
  | noObject i hf hs =>
    rw [hs]
    refine ⟨?_, rfl⟩
    exact sane_congr sane (fun _ => rfl) (fun _ _ => rfl) (fun _ _ => rfl) rfl rfl rfl rfl
      (fun _ => ⟨rfl, rfl⟩) rfl rfl sane.paced sane.log
  | accepted s i _ hu accepted =>
    exact ⟨accepted_sane sane hu accepted, accepted.phase⟩
  | refused s hu refused => exact ⟨refused_sane sane hu refused, refused.phase⟩

lemma acceptLoop_sane (sane : Sane w) {ios : Nat → AcceptIO} {fd : Nat} (i n : Nat) :
    Ensures (acceptLoop ios fd l i n) w (fun _ w' => Sane w') (fun _ w' => Settled w'.log) := by
  induction n generalizing i w with
  | zero => exact (ensures_pure _).mpr sane
  | succ n ih =>
    simp only [acceptLoop, ensures_bind]
    refine (ltnAccept_accepting (ios i) fd l w).mono (fun ret w1 h1 => ?_) (fun _ w1 he => ?_)
    · have sane1 := (accepting_sane sane h1).1
      rw [ensures_ite, ensures_pure]
      exact ⟨fun _ => sane1, fun _ => ih sane1 (i + 1)⟩
    · exact (orderly_same sane.log he).settled

/-! ## Dispatching an event -/

variable {fd : Nat} {events : Mask}

lemma listenerAccept_sane (sane : Sane w) {ios : Nat → AcceptIO} {addr : Nat} :
    Ensures (listenerAccept ios fd events addr) w (fun _ w' => Sane w') (fun _ w' => Settled w'.log) := by
  simp only [listenerAccept]
  rw [ensures_ite, ensures_pure]
  refine ⟨fun _ => sane, fun _ => ?_⟩
  simp only [ensures_bind, ensures_get]
  split
  · exact (ensures_throw _).mpr sane.log.settled
  · simp only [ensures_bind, ensures_get]
    exact acceptLoop_sane sane 0 _

/-- A callback of a connection stays with its session. -/
lemma callIocb_reacts (io : CallbackIO) (cb : Callback) {s : Nat} {d : Dir}
    (hu : (w.conn s d).fd = fd → (w.conn s d).task.linked = false) (he : events ≠ 0#32) :
    Ensures (callIocb io cb (.conn s d) fd events) w
      (fun _ w' => Served w s d fd ∧ ∃ fds, Within fds w s ∧ Reacts s fds d w w')
      (fun _ w' => schedule w'.log = schedule w.log) := by
  have open_ : 0 ≤ (fd : Int) := Int.natCast_nonneg fd
  cases cb with
  | connRecvData =>
    exact (connRecvData_reacts open_ he hu io.recv).mono
      (fun _ _ h => ⟨h.1, _, within_only h.1, h.2⟩) (fun _ _ h => h.log)
  | connSendData =>
    exact (connSendData_reacts io.send fun own _ => hu own).mono
      (fun _ _ h => ⟨h.1 open_, _, within_fdsOf w s, h.2.1⟩) (fun _ _ h => h.log)
  | connHandshake =>
    exact (connHandshake_reacts open_ he hu).mono
      (fun _ _ h => ⟨h.1, _, within_only h.1, h.2⟩) (fun _ _ h => h.log)
  | connShutdown =>
    exact (connShutdown_reacts open_ he hu).mono
      (fun _ _ h => ⟨h.1, _, within_only h.1, h.2⟩) (fun _ _ h => h.log)
  | listenerAccept => exact (ensures_throw _).mpr rfl

/-- A connection with a queued task has no event to come in the batch. -/
lemma unlinked_of_unqueued (sane : Sane w)
    (hu : ∀ t ∈ w.taskq, (w.conn t.session t.dir).fd ≠ fd) {s : Nat} {d : Dir}
    (own : (w.conn s d).fd = fd) : (w.conn s d).task.linked = false := by
  by_contra hl
  have hm := (sane.chained.linked s d).mpr (by simpa using hl)
  exact hu ⟨s, d⟩ hm own

lemma callIocb_sane (sane : Sane w) {io : CallbackIO} {cb : Callback} {arg : Arg}
    (hp : w.phase = .polling rest) (hf : ∀ e ∈ rest, fd ≠ e.1)
    (hu : ∀ t ∈ w.taskq, (w.conn t.session t.dir).fd ≠ fd) (event : events ≠ 0#32) :
    Ensures (callIocb io cb arg fd events) w (fun _ w' => Sane w') (fun _ w' => Settled w'.log) := by
  have hf' : ∀ e ∈ rest, (fd : Int) ≠ e.1 := fun e hm he =>
    hf e hm (by omega)
  cases arg with
  | listener addr =>
    cases cb with
    | listenerAccept => exact listenerAccept_sane sane
    | _ => exact (ensures_throw _).mpr sane.log.settled
  | conn s d =>
    refine (callIocb_reacts io cb (unlinked_of_unqueued sane hu) event).mono
      (fun _ w' h => ?_) (fun _ _ he => (orderly_same sane.log he).settled)
    obtain ⟨hs, fds, hw, hr⟩ := h
    exact reacts_sane sane (Int.natCast_nonneg fd) hs hw hp hf'
      (unlinked_of_unqueued sane hu hs.fd) hr

/-- The next event of the batch is taken: its descriptor comes once, and nothing is queued
for it. -/
lemma taken_sane (sane : Sane w) (phase : w.phase = .polling ((fd, events) :: rest)) :
    Sane { w with phase := .polling rest } ∧ (∀ e ∈ rest, fd ≠ e.1) ∧
      ∀ t ∈ w.taskq, (w.conn t.session t.dir).fd ≠ fd := by
  have hb := sane.paced
  simp only [Paced, phase, map_cons, nodup_cons, mem_cons, forall_eq_or_imp] at hb
  refine ⟨?_, fun e hm he => ?_, fun t hm => (hb.2 t hm).1⟩
  · refine sane_congr sane (fun _ => rfl) (fun _ _ => rfl) (fun _ _ => rfl) rfl rfl rfl rfl
      (fun _ => ⟨rfl, rfl⟩) rfl rfl ?_ sane.log
    exact ⟨hb.1.2, fun t hm => (hb.2 t hm).2⟩
  · exact hb.1.1 (by rw [he]; exact mem_map_of_mem hm)

lemma dispatchEvent_sane (sane : Sane w) {io : CallbackIO}
    (phase : w.phase = .polling ((fd, events) :: rest)) :
    Ensures (dispatchEvent io fd events) { w with phase := .polling rest } (fun _ w' => Sane w')
      (fun _ w' => Settled w'.log) := by
  obtain ⟨ht, hf, hu⟩ := taken_sane sane phase
  exact ensures_dispatchEvent io ht (fun _ => ht.log.settled) fun cb arg he _ _ =>
    callIocb_sane ht rfl hf hu he

/-! ## Running the queue -/

section

variable {s : Nat} {d : Dir} {w w' : Worker} {rest : List TaskRef}

/-- The node at the head of the queue taken off, and its callback noted. -/
def dequeue (w : Worker) (s : Nat) (d : Dir) : Worker :=
  let removed := (({ w with taskq := w.taskq.erase ⟨s, d⟩, ntask := w.ntask - 1 } : Worker).emit
    (.field s)).mapConn s d (setLinked · false)
  (removed.emit (.field s)).emit (.ran s d (removed.conn s d).task.kind)

lemma dequeue_conn_other (w : Worker) {r : Nat} (different : r ≠ s) :
    (dequeue w s d).sessions r = w.sessions r := by
  simp [dequeue, different]

lemma dequeue_linked (w : Worker) : ((dequeue w s d).conn s d).task.linked = false := by
  simp [dequeue, setLinked]

lemma dequeue_stable (hs : Stable w) (hhead : w.taskq = ⟨s, d⟩ :: rest) :
    Stable (dequeue w s d) ∧ (dequeue w s d).taskq = rest ∧ w.used s = true := by
  have hn := hs.chained.nodup
  rw [hhead] at hn
  have notIn : ⟨s, d⟩ ∉ rest := (nodup_cons.mp hn).1
  have taskq : (dequeue w s d).taskq = rest := by simp [dequeue, hhead]
  have hl : (w.conn s d).task.linked = true :=
    (hs.chained.linked s d).mp (by simp [hhead])
  have hi : w.used s = true := by
    by_contra hu
    rw [(hs.tidy s).unlinked (by simpa using hu) d] at hl
    cases hl
  refine ⟨⟨⟨?_, fun r e => ?_, ?_⟩, fun r => ?_, ?_, ?_⟩, taskq, hi⟩
  · rw [taskq]
    exact (nodup_cons.mp hn).2
  · have hb := hs.chained.linked r e
    rw [hhead, mem_cons] at hb
    rw [taskq]
    by_cases he : r = s
    · subst he
      rcases d.sides e with rfl | rfl
      · rw [dequeue_linked]
        simp [notIn]
      · simpa [dequeue] using hb
    · rw [Worker.conn, dequeue_conn_other w he]
      simpa [he] using hb
  · have := hs.chained.ntask
    rw [hhead] at this
    rw [taskq]
    simp only [dequeue, Worker.emit_ntask, Worker.mapConn_ntask, length_cons] at this ⊢
    omega
  · have ht := hs.tidy r
    by_cases he : r = s
    · subst he
      refine ⟨fun hu => ?_, fun hu => ?_, fun _ e => ?_, fun _ e i fd => ?_⟩
      · exact absurd hi (by simpa [dequeue] using hu)
      · exact absurd hi (by simpa [dequeue] using hu)
      · have ha := ht.armed hi e
        rcases d.sides e with rfl | rfl <;> simpa [dequeue, setLinked] using ha
      · have hb : (w.conn r e).fd = i := by
          rcases d.sides e with rfl | rfl <;> simpa [dequeue, setLinked] using fd
        have hh := ht.owns hi e i hb
        exact { hh with }
    · refine tidy_congr ht rfl ?_ ?_ ?_ ?_ rfl rfl fun _ => ⟨rfl, rfl⟩
      all_goals simp [dequeue, he]
  · exact ⟨hs.listening.nodup, hs.listening.item⟩
  · rw [taskq]
    have hb : Orderly w.log (⟨s, d⟩ :: rest) := by
      rw [← hhead]
      exact hs.log
    exact orderly_ran (orderly_same hb (by simp [scheduling]))

/-- What the callback leaves is stable again, with the same queue. -/
lemma ran_stable (hs : Stable w) (hi : w.used s = true) (h : Ran s w w') : Stable w' := by
  obtain ⟨more, log, hr⟩ := h.log
  refine stable_served (fun r _ => hs.tidy r) hs.listening h.toApart ((hs.tidy s).owns hi)
    (chained_same hs.chained h.sessions h.linked h.taskq h.ntask) ?_ ?_
  · refine ⟨fun hu e => ?_, fun hu _ e => ?_, fun _ e => ?_, fun _ => h.owns⟩
    · rcases h.outcome with he | ⟨_, hg⟩
      · rw [hu, hi] at he
        cases he
      · exact (h.linked e).trans (hg e).2
    · rcases h.outcome with he | ⟨_, hg⟩
      · rw [hu, hi] at he
        cases he
      · exact (hg e).1
    · exact (h.armed e).trans ((hs.tidy s).armed hi e)
  · rw [h.taskq]
    exact orderly_append hs.log log fun e hm =>
      passive_of_releasing (hr e hm).1

/-- The cursor stands at the head of a queue that is all linked. -/
lemma cursor_sane (hs : Stable w) : Sane { w with phase := cursorAt w w.taskq.head? } where
  chained := ⟨hs.chained.nodup, hs.chained.linked, hs.chained.ntask⟩
  tidy r := tidy_congr (hs.tidy r) rfl rfl (fun _ => rfl) (fun _ => rfl) (fun _ => rfl) rfl rfl
    fun _ => ⟨rfl, rfl⟩
  listening := ⟨hs.listening.nodup, hs.listening.item⟩
  log := hs.log
  paced := by
    cases hq : w.taskq with
    | nil => simp [Paced, cursorAt]
    | cons t rest =>
      have hl : (w.conn t.session t.dir).task.linked = true :=
        (hs.chained.linked t.session t.dir).mp (by simp [hq])
      have hl' : ((w.sessions t.session).conns t.dir).task.linked = true := hl
      simp [Paced, cursorAt, hq, nextTask, hl']

/-- A task of a session in use has its callback. -/
lemma runQueued_of_task {io : TaskIO} (hs : Stable w) (hi : w.used s = true)
    {Q : Worker → Prop} {E : Halt → Worker → Prop}
    (ht : Ensures (sessionRunTask io s d) (dequeue w s d) (fun _ => Q) E) :
    Ensures (runQueued io ⟨s, d⟩) w (fun _ => Q) E := by
  have ha := (hs.tidy s).armed hi d
  simp only [runQueued, taskDelQueue, ensures_bind, ensures_modify, ensures_modifyConn, ensures_conn]
  rw [if_neg (by simpa [setLinked] using ha)]
  simp only [ensures_bind, ensures_emit, ensures_pure]
  exact ht

lemma runQueued_stable {io : TaskIO} (hs : Stable w) (hh : w.taskq = ⟨s, d⟩ :: rest) :
    Ensures (runQueued io ⟨s, d⟩) w (fun _ w' => Stable w' ∧ w'.taskq = rest)
      (fun _ w' => Settled w'.log) := by
  obtain ⟨stable1, taskq1, hi⟩ := dequeue_stable hs hh
  have ran := sessionRunTask_ran io ((stable1.tidy s).owns hi) (dequeue_linked w)
  refine runQueued_of_task hs hi (ran.mono (fun _ w' ran => ?_) (fun _ w' stopped => ?_))
  · exact ⟨ran_stable stable1 hi ran, ran.taskq.trans taskq1⟩
  · obtain ⟨more, log, hr⟩ := stopped
    exact (orderly_append stable1.log log fun e hm =>
      passive_of_releasing (hr e hm).1).settled

end

/-! ## Commands -/

/-- Nothing but descriptor `i`, which was free, and the listeners. -/
structure Aside (i : Nat) (w w' : Worker) : Prop where
  free : w.opened i = false
  sessions : w'.sessions = w.sessions
  used : w'.used = w.used
  taskq : w'.taskq = w.taskq
  ntask : w'.ntask = w.ntask
  phase : w'.phase = w.phase
  log : w'.log = w.log
  maxfd : w'.epoll.fe.maxfd = w.epoll.fe.maxfd
  updates : ∀ j ∈ w.epoll.fe.updates, j ∈ w'.epoll.fe.updates
  kept : ∀ j, j ≠ i → w'.opened j = w.opened j ∧ w'.item j = w.item j ∧
    w'.epoll.interest j = w.epoll.interest j
  unflushed : Unflushed w w'

variable {w1 : Worker}

lemma Aside.ne_of_opened (h : Aside i w w') {j : Nat} (ho : w.opened j = true) : j ≠ i := by
  rintro rfl
  rw [h.free] at ho
  cases ho

lemma aside_take (hf : w.opened i = false) : Aside i w { w with opened := update w.opened i true } :=
  ⟨hf, rfl, rfl, rfl, rfl, rfl, rfl, rfl, fun _ h => h, fun _ ho => by simp [ho],
    unflushed_same (fun j h => by by_cases he : j = i <;> simp [he, h]) rfl⟩

lemma aside_freshItem (h : Aside i w w1) (arg : Arg) : Aside i w (w1.mapItem i fun _ => freshItem arg) :=
  { h with
    kept := fun j ho => by simpa [ho] using h.kept j ho
    unflushed := unflushed_trans h.unflushed
      (unflushed_mapItem w1 i (f := fun _ => freshItem arg) (fun _ => rfl) fun h => by cases h) }

lemma aside_request {fe : FdEpoll Arg Callback} {events : Mask} {iocb : Option Callback}
    (h : Aside i w w1) (hr : w1.epoll.fe.request i events iocb = some fe) :
    Aside i w (w1.setTable fe) := by
  obtain ⟨hm, -, others, hu⟩ := FdEpoll.request_effect hr
  refine ⟨h.free, h.sessions, h.used, h.taskq, h.ntask, h.phase, h.log, hm.trans h.maxfd,
    fun j hj => ?_, fun j other => ?_,
    unflushed_trans h.unflushed (unflushed_request hr)⟩
  · rw [Worker.setTable_epoll_fe, hu]
    split
    · exact h.updates j hj
    · exact mem_append_left _ (h.updates j hj)
  · obtain ⟨ho, item, hi⟩ := h.kept j other
    exact ⟨ho, (others j other).trans item, hi⟩

lemma aside_drop (h : Aside i w w1) : Aside i w { w1 with
      opened := update w1.opened i false
      epoll := { w1.epoll with interest := update w1.epoll.interest i none } } :=
  { h with
    kept := fun j ho => by simpa [ho] using h.kept j ho
    unflushed := unflushed_trans h.unflushed (unflushed_drop w1 i) }

lemma aside_sane (sane : Sane w) (h : Aside i w w') (listening : Listening w') : Sane w' where
  chained := chained_same (s := 0) sane.chained (fun r _ => by rw [h.sessions])
    (fun d => by rw [Worker.conn, h.sessions]) h.taskq h.ntask
  tidy r := by
    have tidy := sane.tidy r
    refine ⟨?_, ?_, ?_, fun hi d j fd => ?_⟩
    · simpa [h.used, h.sessions] using tidy.unlinked
    · simpa [h.used, h.sessions] using tidy.closed
    · simpa [h.used, h.sessions] using tidy.armed
    · rw [h.used] at hi
      rw [Worker.conn, h.sessions] at fd
      have hh := tidy.owns hi d j fd
      obtain ⟨ho, item, -⟩ := h.kept j (h.ne_of_opened hh.opened)
      exact ⟨hh.pos, by rw [h.maxfd]; exact hh.inside, by rw [ho, hh.opened],
        by rw [item, hh.state], by rw [item, hh.arg]⟩
  listening := listening
  log := by
    rw [h.log, h.taskq]
    exact sane.log
  paced := paced_same sane.paced h.phase h.taskq fun t _ => by rw [Worker.conn, h.sessions]

/-- The listeners there were before. -/
lemma aside_item (sane : Sane w) (h : Aside i w w') {a : Nat} {fd : Int}
    (hm : (a, fd) ∈ keys w) (j : Nat) (hj : fd = j) :
    w'.opened j = true ∧ (w'.item j).arg = some (.listener a) := by
  obtain ⟨ho, arg⟩ := sane.listening.item a fd hm j hj
  obtain ⟨ho', hi, -⟩ := h.kept j (h.ne_of_opened ho)
  exact ⟨by rw [ho', ho], by rw [hi, arg]⟩

/-- A listener with a new address and descriptor. -/
structure Listed (addr i : Nat) (w w' : Worker) : Prop where
  keys : keys w' = keys w ++ [(addr, (i : Int))]
  fresh : addr ∉ (Lifecycle.keys w).map Prod.fst
  opened : w'.opened i = true
  arg : (w'.item i).arg = some (.listener addr)

lemma workerAddPolicy_aside (io : PolicyIO) (w : Worker) : Ensures (workerAddPolicy io) w
      (fun _ w' => w' = w ∨ ∃ i, Aside i w w' ∧ (keys w' = keys w ∨ Listed io.addr i w w'))
      (fun _ w' => w'.log = w.log) := by
  simp only [workerAddPolicy]
  split
  · exact (ensures_pure _).mpr (.inl rfl)
  next i _ =>
  simp only [ensures_bind, ensures_takeFd, ensures_get, ensures_answers, ensures_itemOf,
    ensures_writeItem, ensures_addEvent, Int.toNat_natCast]
  refine ⟨fun hf => ⟨fun hn => ⟨fun _ _ => ⟨fun hi => ?_, fun _ => trivial⟩,
    fun _ => trivial⟩, fun _ => trivial⟩, fun _ => trivial⟩
  have hc := aside_freshItem (aside_take hf.1) (.listener io.addr)
  refine ⟨fun _ => ?_, fun _ _ => ⟨fun fe request => ?_, fun _ => rfl⟩⟩
  · -- the descriptor does not fit the table: the listener is freed again
    simp only [listenerFreeFd, freeSessions, ensures_bind, ensures_pure, ensures_onlyIf, dropFd,
      ensures_modify, Int.toNat_natCast, ensures_ite]
    refine ⟨fun _ => ⟨fun _ => ?_, fun _ => ?_⟩, fun h => absurd h (by decide)⟩
    · exact .inr ⟨i, aside_drop hc, .inl rfl⟩
    · exact .inr ⟨i, hc, .inl rfl⟩
  · simp only [ensures_bind, ensures_modify, ensures_pure, ne_eq, not_true_eq_false, if_false]
    have hr := aside_request hc request
    obtain ⟨-, self, -, -⟩ := FdEpoll.request_effect request
    refine .inr ⟨i, { hr with
      unflushed := unflushed_trans hr.unflushed (unflushed_same (fun _ h => h) rfl) },
      .inr ⟨by simp [keys], ?_, by simp, ?_⟩⟩
    · intro hm
      simp only [keys, map_map, mem_map, Function.comp] at hm
      obtain ⟨l, hm, he⟩ := hm
      exact hn l hm he
    · simp only [Worker.item, Worker.setTable_epoll_fe, self]
      simp [freshItem]

lemma workerAddPolicy_sane (sane : Sane w) {io : PolicyIO} :
    Ensures (workerAddPolicy io) w (fun _ w' => Sane w') (fun _ w' => Settled w'.log) := by
  refine (workerAddPolicy_aside io w).mono (fun _ w' h => ?_)
    (fun _ _ he => by rw [he]; exact sane.log.settled)
  rcases h with rfl | ⟨i, ha, he | hl⟩
  · exact sane
  · refine aside_sane sane ha ⟨by rw [he]; exact sane.listening.nodup, fun a fd hm => ?_⟩
    rw [he] at hm
    exact aside_item sane ha hm
  · refine aside_sane sane ha ⟨?_, fun a fd hm j hj => ?_⟩
    · rw [hl.keys, map_append]
      refine nodup_append.mpr ⟨sane.listening.nodup, by simp, ?_⟩
      rintro a old b new rfl
      simp only [map_cons, map_nil, mem_singleton] at new
      exact hl.fresh (new ▸ old)
    · rw [hl.keys, mem_append, mem_singleton] at hm
      rcases hm with old | new
      · exact aside_item sane ha old j hj
      · cases new
        have : j = i := by omega
        subst this
        exact ⟨hl.opened, hl.arg⟩

/-- A listener taken out of the list still has its descriptor. -/
structure Unlisted (l : ListenerFd) (w : Worker) : Prop where
  item : ∀ i : Nat, l.fd = i → w.opened i = true ∧ (w.item i).arg = some (.listener l.addr)
  gone : l.addr ∉ (keys w).map Prod.fst

lemma Tidy.owns_of_worker {s : Nat} (ht : Tidy w s) (hw : (w.sessions s).worker = true) :
    Owns w s := by
  cases hi : w.used s with
  | true => exact ht.owns hi
  | false =>
    intro d i fd
    have := ht.closed hi hw d
    omega

section

variable (sane : Sane w)
include sane

/-- Between the rounds a release is never deferred. -/
lemma released_sane {s : Nat} {d : Dir} (idle : w.phase = .idle) (h : Released s d w w') :
    Sane w' ∧ w'.phase = .idle ∧ w.used s = true ∧ w'.used s = false := by
  have hn : w.taskq = [] := by
    have := sane.paced
    simpa [Paced, idle] using this
  have hp : w'.phase = .idle := h.phase.trans idle
  cases h.outcome with
  | deferred peer _ _ _ =>
    have hm := (sane.chained.linked s d.peer).mpr peer
    rw [hn] at hm
    cases hm
  | returned hu hb ha hc log _ =>
    refine ⟨⟨?_, ?_⟩, hp, hb, ha⟩
    · refine stable_served (fun r _ => sane.tidy r) sane.listening h.toApart
        ((sane.tidy s).owns hb)
        (chained_same sane.chained h.sessions h.linked h.taskq h.ntask) ?_ ?_
      · refine ⟨fun _ e => (h.linked e).trans (hu e), fun _ _ => hc, fun hi => ?_,
          fun _ => h.owns⟩
        rw [ha] at hi
        cases hi
      · rw [h.taskq]
        exact orderly_append sane.log log (by simp [passive])
    · simp [Paced, hp, h.taskq, hn]

/-- Between the rounds nothing is queued. -/
lemma idle_unlinked (hi : w.phase = .idle) (s : Nat) (d : Dir) : (w.conn s d).task.linked = false := by
  by_contra hl
  have hm := (sane.chained.linked s d).mpr (by simpa using hl)
  have hn : w.taskq = [] := by simpa [Paced, hi] using sane.paced
  rw [hn] at hm
  cases hm

lemma freeSessions_sane (sessions : List Nat) (idle : w.phase = .idle)
    (hu : Unlisted l w) : Ensures (freeSessions sessions) w
      (fun _ w' => Sane w' ∧ w'.phase = .idle ∧ Unlisted l w') (fun _ w' => Settled w'.log) := by
  induction sessions generalizing w with
  | nil => exact (ensures_pure _).mpr ⟨sane, idle, hu⟩
  | cons s rest ih =>
    simp only [freeSessions, ensures_bind]
    refine (sessionFree_released (sane.tidy s).owns_of_worker
      (idle_unlinked sane idle s .client)).mono (fun _ w1 h1 => ?_)
      (fun _ _ hs => (orderly_append sane.log hs.2 (by simp [passive])).settled)
    obtain ⟨sane1, idle1, hi, -⟩ := released_sane sane idle h1
    refine ih sane1 idle1 ⟨fun i fd => ?_, by rw [h1.keys]; exact hu.gone⟩
    obtain ⟨ho, arg⟩ := hu.item i fd
    have hf : ∀ e, (w.conn s e).fd ≠ i := by
      intro e own
      rw [((sane.tidy s).owns hi e i own).arg] at arg
      cases arg
    obtain ⟨ho', item, -⟩ := h1.kept i ho hf
    exact ⟨ho', by rw [item, arg]⟩

/-- Closing the descriptor of a listener that is in no list. -/
lemma close_listener_sane {l : ListenerFd} (hu : Unlisted l w) (fd : l.fd = i) : Sane { w with
      opened := update w.opened i false
      epoll := { w.epoll with interest := update w.epoll.interest i none } } := by
  have arg := (hu.item i fd).2
  have ho : ∀ s, w.used s = true → ∀ d j, (w.conn s d).fd = (j : Nat) → j ≠ i := by
    rintro s hi d j own rfl
    rw [((sane.tidy s).owns hi d j own).arg] at arg
    cases arg
  refine ⟨⟨⟨sane.chained.nodup, sane.chained.linked, sane.chained.ntask⟩, fun r => ?_, ?_,
    sane.log⟩, sane.paced⟩
  · have ht := sane.tidy r
    refine ⟨ht.unlinked, ht.closed, ht.armed, fun hi d j own => ?_⟩
    have hh := ht.owns hi d j own
    exact { hh with opened := by simpa [ho r hi d j own] using hh.opened }
  · refine ⟨sane.listening.nodup, fun a fd' hm j hj => ?_⟩
    obtain ⟨opened, ha'⟩ := sane.listening.item a fd' hm j hj
    have different : j ≠ i := by
      rintro rfl
      rw [arg] at ha'
      simp only [Option.some.injEq, Arg.listener.injEq] at ha'
      exact hu.gone (mem_map.mpr ⟨(a, fd'), hm, ha'.symm⟩)
    exact ⟨by simpa [different] using opened, ha'⟩

/-- A listener taken out of the list. -/
lemma erased_sane {policy : Nat} {l : ListenerFd} (hf : w.lfds.find? (·.policy = policy) = some l) :
    Sane { w with lfds := w.lfds.erase l } ∧ Unlisted l { w with lfds := w.lfds.erase l } := by
  have hm := mem_of_find?_eq_some hf
  have hs : (keys { w with lfds := w.lfds.erase l }).Sublist (keys w) :=
    List.Sublist.map _ erase_sublist
  refine ⟨⟨⟨⟨sane.chained.nodup, sane.chained.linked, sane.chained.ntask⟩, fun r => ?_, ?_,
    sane.log⟩, sane.paced⟩, ?_, ?_⟩
  · exact tidy_congr (sane.tidy r) rfl rfl (fun _ => rfl) (fun _ => rfl) (fun _ => rfl) rfl rfl
      fun _ => ⟨rfl, rfl⟩
  · exact ⟨(hs.map Prod.fst).nodup sane.listening.nodup,
      fun a fd hm => sane.listening.item a fd (hs.subset hm)⟩
  · exact sane.listening.item l.addr l.fd (mem_map.mpr ⟨l, hm, rfl⟩)
  · have hn : (w.lfds.map ListenerFd.addr).Nodup := by
      simpa [keys, Function.comp_def] using sane.listening.nodup
    intro still
    simp only [keys, map_map, mem_map, Function.comp] at still
    obtain ⟨l', hm', he⟩ := still
    have hd : w.lfds.Nodup := List.Nodup.of_map _ hn
    have ne : l' ≠ l := fun h => (List.Nodup.mem_erase_iff hd).mp hm' |>.1 h
    exact ne (inj_on_of_nodup_map hn (mem_of_mem_erase hm') hm he)

lemma workerDelPolicy_sane {policy : Nat} (hi : w.phase = .idle) :
    Ensures (workerDelPolicy policy) w (fun _ w' => Sane w') (fun _ w' => Settled w'.log) := by
  simp only [workerDelPolicy, ensures_bind, ensures_get]
  split
  · exact (ensures_pure _).mpr sane
  next l found =>
  obtain ⟨he, hu⟩ := erased_sane sane found
  simp only [ensures_bind, ensures_modify, listenerFreeFd, ensures_pure]
  refine (freeSessions_sane he l.ssnlist hi hu).imp (fun _ w1 h1 => ?_)
  simp only [ensures_onlyIf, dropFd, ensures_modify]
  refine ⟨fun hp => ?_, fun _ => h1.1⟩
  exact close_listener_sane h1.1 h1.2.2 (Int.toNat_of_nonneg (by omega)).symm

end

/-! ## The loop -/

lemma pollEvents_sane (sane : Sane w) {ctl : Nat → Bool} (batch : List (Nat × Mask))
    (hi : w.phase = .idle) :
    Ensures (pollEvents ctl batch) w (fun _ w' => Sane w') (fun _ w' => Settled w'.log) := by
  have hn : w.taskq = [] := by
    have := sane.paced
    simpa [Paced, hi] using this
  have noted : schedule (w.log ++ [.flushed]) = schedule w.log ++ [.flushed] := by
    simp [scheduling]
  have hf : Orderly (w.log ++ [.flushed]) w.taskq :=
    orderly_append sane.log noted (by simp [passive])
  simp only [pollEvents, ensures_bind, ensures_modify, ensures_emit, ensures_get, ensures_answers, setPhase]
  refine ⟨fun hr => ?_, fun _ => hf.settled⟩
  refine sane_congr sane (fun _ => rfl) (fun _ _ => rfl) (fun _ _ => rfl) rfl rfl rfl
    (flush_maxfd ctl w.epoll) (fun i => ?_) rfl rfl ?_ hf
  · have he := flush_request ctl w.epoll i
    exact ⟨he.state, he.arg⟩
  · simp only [Paced, Worker.emit_taskq, hn]
    exact ⟨hr.2.1, fun t hm => by cases hm⟩

lemma deliver_sane (sane : Sane w) {bytes : List UInt8} {fin : Bool} :
    Sane (w.mapConn s d (·.deliver bytes fin)) := by
  have he : ∀ r e, ((w.mapConn s d (·.deliver bytes fin)).conn r e).fd = (w.conn r e).fd ∧
      ((w.mapConn s d (·.deliver bytes fin)).conn r e).task = (w.conn r e).task := by
    intro r e
    by_cases own : r = s
    · subst own
      rcases d.sides e with rfl | rfl <;> simp [Connection.deliver]
    · simp [own]
  refine sane_congr sane (fun r => ?_) (fun r e => (he r e).1) (fun r e => (he r e).2) rfl rfl
    rfl rfl (fun _ => ⟨rfl, rfl⟩) rfl rfl ?_ sane.log
  · by_cases own : r = s
    · subst own
      simp
    · simp [own]
  · exact paced_same sane.paced rfl rfl fun t _ => (he t.session t.dir).1

/-- One task: the head of the queue is gone, and the cursor is at the next one. -/
lemma runQueued_sane (sane : Sane w) (io : TaskIO) {t : TaskRef} {next : Option TaskRef}
    (hr : w.phase = .running t next) : Ensures (runQueued io t) w
      (fun _ w' => Sane { w' with phase := cursorAt w' next } ∧ w.taskq = t :: w'.taskq ∧
        next = w'.taskq.head?)
      (fun _ w' => Settled w'.log) := by
  have hp := sane.paced
  simp only [Paced, hr] at hp
  obtain ⟨rest, hq, rfl⟩ := hp
  refine (runQueued_stable sane.toStable hq).imp (fun _ w1 h1 => ?_)
  obtain ⟨stable1, rfl⟩ := h1
  exact ⟨cursor_sane stable1, hq, rfl⟩

lemma workerStep_sane (sane : Sane w) (a : Action) :
    Ensures (workerStep a) w (fun _ w' => Sane w') (fun _ w' => Settled w'.log) := by
  refine ensures_workerStep sane.log.settled ?_ ?_ ?_ ?_ ?_ ?_ ?_
  · intro s d bytes fin _ _
    exact deliver_sane sane
  · intro io _ _
    exact workerAddPolicy_sane sane
  · intro policy _ hi
    exact workerDelPolicy_sane sane hi
  · intro ctl batch _ hi
    exact pollEvents_sane sane batch hi
  · intro io fd events rest _ hp _
    exact dispatchEvent_sane sane hp
  · intro _ _
    exact cursor_sane sane.toStable
  · intro io t next _ hr
    exact (runQueued_sane sane io hr).imp (fun _ _ h => h.1)

lemma start_sane (maxfd naccept : Nat) (opened : Nat → Bool) :
    Sane (Worker.start maxfd naccept opened) where
  chained := ⟨nodup_nil, fun s d => by simp [Worker.start, Session.zero], rfl⟩
  tidy s := by
    refine ⟨fun _ _ => rfl, fun _ hw => ?_, fun hi => ?_, fun hi => ?_⟩
    · cases hw
    · cases hi
    · cases hi
  listening := ⟨nodup_nil, fun a fd hm => by cases hm⟩
  log := ⟨(fun e hm => by cases hm), rfl⟩
  paced := rfl

end Fzsvn.Guarantees.Proxy.WorkerInvariant
