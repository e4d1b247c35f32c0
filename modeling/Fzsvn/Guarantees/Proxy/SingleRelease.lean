import Fzsvn.Guarantees.Proxy.ForwardStep
import Fzsvn.Guarantees.Proxy.PacketAccounting
import Fzsvn.Guarantees.Proxy.TaskViews

/-!
# One task releases its session once

`session_run_task` reaches `session_free` from five places. Four of them return at once.
Behind a failed send of `TASK_PARSE` the code leaves the `switch` instead and looks at
both connections, which by then may be back in the pool. This is the only way a task
touches the object after returning it, and the answers of the system calls that lead
there are characterised.
-/
namespace Fzsvn.Guarantees.Proxy.SingleRelease
open Library.Exec Source.Proxy Locality Lifecycle TaskRun SendStep List Session
  ForwardStep SessionView CallbackViews TaskViews PacketFlow PacketAccounting

/-- Nothing accesses the session or returns it again once it is back in the pool. -/
def ReleasedOnce (s : Nat) (log : List Event) : Prop :=
  ∀ before client server after, log = before ++ .put s client server :: after →
    .field s ∉ after ∧ ∀ client' server', .put s client' server' ∉ after

/-! ## The task -/

/-- A task as `task_run_queue` hands it over, its session being as all steps leave one. The
log is what this execution adds. -/
structure Runnable (w : Worker) (s : Nat) (d : Dir) : Prop where
  log : w.log = []
  used : w.used s = true
  worker : (w.sessions s).worker = true
  policy : (w.sessions s).policy.isSome = true
  unlinked : (w.conn s d).task.linked = false
  owns : Owns w s
  accounted : Accounted (w.sessions s)
  staged : (w.sessions s).staged d.peer = []

/-- What the send step of `TASK_PARSE` finds to send. -/
def pendingSend (w : Worker) (s : Nat) (d : Dir) : List Packet :=
  (w.conn s d.peer).output ++ ((w.sessions s).staged d ++ (w.conn s d).input)

/-- The task parses, nothing defers the release to the peer, and `send` fails. -/
structure Breaks (io : TaskIO) (w : Worker) (s : Nat) (d : Dir) : Prop where
  kind : (w.conn s d).task.kind = .parse
  alone : (w.conn s d.peer).task.linked = false
  sends : SendsAtOnce io.forward w s d.peer
  fails : (sendPackets (w.conn s d.peer).ssl.isSome io.send 0 (pendingSend w s d)).exit = .failed

/-- The session was not given back. -/
def NoPut (s : Nat) (log : List Event) : Prop := ∀ client server, .put s client server ∉ log

variable {ios : Nat → SendIO} {log : List Event}

variable {s : Nat} {d : Dir} {w w1 w2 : Worker} {io : TaskIO}

lemma NoPut.releasedOnce (h : NoPut s log) : ReleasedOnce s log := by
  intro before client server after split
  exact absurd (by simp [split]) (h client server)

lemma noPut_iff_schedule : NoPut s log ↔ NoPut s (schedule log) := by
  simp [NoPut, schedule, scheduling]

lemma releasedOnce_last {before : List Event} {client server : Bool} (h : NoPut s before) :
    ReleasedOnce s (before ++ [.put s client server]) := by
  intro before' client' server' after split
  rcases after.eq_nil_or_concat with rfl | ⟨rest, last, rfl⟩
  · simp
  · -- otherwise the first of the two would be in `before`
    rw [concat_eq_append, ← cons_append, ← append_assoc] at split
    have he := append_inj_left' split rfl
    exact absurd (by simp [he]) (h client' server')

lemma noPut_of_solo (hf : NoPut s w.log) (h : Solo s w w1) : NoPut s w1.log := by
  rw [noPut_iff_schedule] at hf ⊢
  rwa [h.log]

/-- A release of a session that was not given back before. -/
lemma sessionFree_once (h : Ran s w w1) (hf : NoPut s w1.log)
    (hu : (w.conn s d).task.linked = false) : Ensures (sessionFree s d) w1
      (fun _ w' => ReleasedOnce s w'.log ∧
        ((w.conn s d.peer).task.linked = true → Ran s w w' ∧ NoPut s w'.log))
      (fun _ w' => ReleasedOnce s w'.log) := by
  have hn : NoPut s (schedule w1.log ++ [.released s]) := by
    intro client server hm
    simp only [mem_append, mem_singleton, reduceCtorEq, or_false] at hm
    exact (noPut_iff_schedule).mp hf client server hm
  refine (sessionFree_released (fun _ => h.owns) ((h.linked d).trans hu)).mono
    (fun _ w' hr => ?_) (fun _ w' hs => ?_)
  · cases hr.outcome with
    | deferred _ _ _ log =>
      have none : NoPut s w'.log := by
        rw [noPut_iff_schedule, log]
        exact hn
      exact ⟨none.releasedOnce, fun _ => ⟨ran_released h hr, none⟩⟩
    | returned ha _ _ _ log last =>
      refine ⟨?_, fun hl => ?_⟩
      · obtain ⟨before, last⟩ := last
        have he : NoPut s before := by
          rw [noPut_iff_schedule]
          have hl' : schedule before ++ [.put s false false] =
              (schedule w1.log ++ [.released s]) ++ [.put s false false] := by
            rw [last] at log
            simpa [scheduling] using log
          rw [append_inj_left' hl' rfl]
          exact hn
        rw [last]
        exact releasedOnce_last he
      · rw [← h.linked, ha] at hl
        cases hl
  · refine NoPut.releasedOnce ((noPut_iff_schedule).mpr ?_)
    rw [hs.2]
    exact hn

/-- The common tail, wherever it is entered from while the session is there. -/
lemma closeIfDone_once (h : Ran s w w1) (hf : NoPut s w1.log)
    (hu : (w.conn s d).task.linked = false) :
    Ensures (closeIfDone s d) w1 (fun _ w' => ReleasedOnce s w'.log) (fun _ w' => ReleasedOnce s w'.log) := by
  have hf' : NoPut s (w1.emit (.field s)).log := by
    intro client server
    simpa using hf client server
  simp only [closeIfDone, ensures_bind, ensures_session]
  rw [ensures_ite, ensures_pure]
  refine ⟨fun _ => ?_, fun _ => hf'.releasedOnce⟩
  simp only [ensures_bind, ensures_pure]
  exact (sessionFree_once (ran_emit h) hf' hu).imp (fun _ _ h => h.1)

/-! ### No second access -/

lemma sendData_fails {events : Mask} {v : View} (bad : (View.sendData ios events v d).1 ≠ 0) :
    handshaking (v.conn d) = false ∧ (sendLoop ios (v.conn d)).exit = .failed := by
  unfold View.sendData at bad
  split at bad
  · exact absurd rfl bad
  · next ready =>
    refine ⟨by simpa using ready, ?_⟩
    dsimp only at bad
    split at bad
    · assumption
    · exact absurd rfl bad
    · exact absurd rfl bad

lemma sendData_staged (ios : Nat → SendIO) (v : View) :
    (View.sendData ios 0#32 v d).2.session.staged = v.session.staged := by
  unfold View.sendData
  split
  · rfl
  dsimp only
  split
  · simp [View.sendErr]
  · unfold View.sendBlock
    split <;> simp
  · unfold View.sendShut View.sendUnblock
    repeat' split
    all_goals simp

lemma forward_opens {io : ForwardIO} {v : View} (ok : (View.forward io v d).1 = 0) :
    ((View.forward io v d).2.conn d).fd > 0 ∧
      (View.forward io v d).2.session.staged = (v.session.joinOutput d).staged := by
  unfold View.forward at ok ⊢
  split at ok
  · cases ok
  dsimp only at ok ⊢
  split at ok
  · next opened =>
    rw [if_pos opened]
    exact ⟨by simpa [joinOutput] using opened, rfl⟩
  · next mode _ closed =>
    rw [if_neg closed]
    exact ⟨dial_opened io mode ok, (dial_redials io mode).staged⟩

/-- A forward step that returns 0 leaves a connected socket. -/
lemma sessionForward_opens {io : ForwardIO} (owns : Owns w s) (hu : w.used s = true) :
    Ensures (sessionForward io s d) w (fun ret w' => ret = 0 → (w'.conn s d).fd > 0 ∧
        (w'.sessions s).staged = ((w.sessions s).joinOutput d).staged) (fun _ _ => True) := by
  refine (sessionForward_shows (v := view w s) io hu w ⟨rfl, owns⟩).imp (fun ret w' left ok => ?_)
  obtain ⟨v', hl, left⟩ := left
  have id := (forward_frame (v := view w s) (d := d) io).1
  have ho := @forward_opens d io (view w s)
  rw [← left] at id ho
  have hs := hl.session
  rw [show v'.id = s from id] at hs
  rw [Worker.conn, hs]
  exact ho ok

lemma connSendData_sends {i : Nat} (ho : Owns w s) (hu : w.used s = true)
    (own : (w.conn s d).fd = i) : Ensures (connSendData ios i 0#32 s d) w
      (fun ret w' => (w'.sessions s).staged = (w.sessions s).staged ∧
        (ret ≠ 0 → handshaking (w.conn s d) = false ∧
          (sendLoop ios (w.conn s d)).exit = .failed)) (fun _ _ => True) := by
  refine (connSendData_shows (v := view w s) hu own ios (absurd rfl) w ⟨rfl, ho⟩).imp
    (fun ret w' sent => ?_)
  obtain ⟨v', hl, sent⟩ := sent
  have id := sendData_id (v := view w s) (d := d) ios 0#32
  have staged := sendData_staged (d := d) ios (view w s)
  have hf := @sendData_fails ios d 0#32 (view w s)
  rw [← sent] at id staged hf
  have hs := hl.session
  rw [show v'.id = s from id] at hs
  exact ⟨by rw [hs]; exact staged, hf⟩

lemma sessionFparse_joins : Ensures (sessionFparse s d) w
      (fun ret w' => ret = 0 ∧ w'.sessions s = (w.sessions s).joinInput d ∧ w'.epoll = w.epoll ∧
        w'.opened = w.opened) (fun _ _ => (w.sessions s).worker = false) := by
  simp only [sessionFparse, ensures_bind, ensures_session, ensures_require, ensures_modifySession,
    ensures_pure]
  exact ⟨fun _ => ⟨trivial, by simp, by simp, funext fun _ => by simp⟩, fun no => by simpa using no⟩

/-- What the send step behind `session_fparse` does can be told before. -/
lemma sendsAtOnce_congr {io : ForwardIO} (hc : w1.conn s d = w.conn s d)
    (hp : (w1.sessions s).policy = (w.sessions s).policy) (he : w1.epoll = w.epoll)
    (ho : w1.opened = w.opened) (h : SendsAtOnce io w s d) : SendsAtOnce io w1 s d := by
  refine ⟨by rw [hc]; exact h.hsk, by rw [hc]; exact h.sslHsk, ?_⟩
  rw [hc, hp]
  refine h.connected.imp id fun ⟨ssl, mode, fd, mode_eq, hd⟩ => ⟨ssl, mode, fd, mode_eq, ?_⟩
  refine ⟨hd.spdata, hd.server, ?_, by rw [he]; exact hd.inside, by rw [he]; exact hd.room⟩
  unfold ConnectsAtOnce
  rw [ho]
  exact hd.connects

/-- The forward step of `TASK_PARSE`: what it hands to the send step can be told from what
the task starts with. -/
lemma sessionForward_hands (hs : w1.sessions s = (w.sessions s).joinInput d)
    (he : w1.epoll = w.epoll) (ho : w1.opened = w.opened) :
    Ensures (sessionForward io.forward s d.peer) w1
      (fun ret w' => ret = 0 → (w'.conn s d.peer).flags.hsk = false →
        (w'.conn s d.peer).flags.sslHsk = false → SendsAtOnce io.forward w s d.peer ∧
          sendLoop io.send (w'.conn s d.peer) =
            sendPackets (w.conn s d.peer).ssl.isSome io.send 0 (pendingSend w s d))
      (fun _ _ => True) := by
  have conn1 : w.conn s d.peer = w1.conn s d.peer := by
    rw [Worker.conn, Worker.conn, hs]
    simp [joinInput]
  have policy1 : (w.sessions s).policy = (w1.sessions s).policy := by
    rw [hs]
    simp [joinInput]
  have staged1 : (w1.sessions s).staged d.peer.peer = (w.sessions s).staged d ++ (w.conn s d).input := by
    rw [hs]
    simp [joinInput]
  refine (sendsAtOnce_of_forward w1).imp (fun ret w' h ok hsk sslHsk => ?_)
  obtain ⟨sends, hr⟩ := h ok hsk sslHsk
  refine ⟨sendsAtOnce_congr conn1 policy1 he.symm ho.symm sends, ?_⟩
  rw [sendLoop, hr.ssl, hr.output, staged1, pendingSend, conn1]

/-- Unless the send step fails with no task of the peer to wait for, `TASK_PARSE` leaves the
session alone once it is given back. -/
lemma runParse_once (hf : NoPut s w.log) (used : w.used s = true) (h : Alone s w w1)
    (he : w1.sessions = w.sessions) (epoll : w1.epoll = w.epoll) (ho : w1.opened = w.opened)
    (hu : (w.conn s d).task.linked = false) (hk : (w.conn s d).task.kind = .parse)
    (hw : ¬ Breaks io w s d) : Ensures (runParse io s d) w1 (fun _ w' => ReleasedOnce s w'.log)
      (fun _ w' => ReleasedOnce s w'.log) := by
  have hq : ∀ {w'}, Solo s w w' → NoPut s w'.log := fun solo => noPut_of_solo hf solo
  have hr : ∀ {w'}, Alone s w w' → Ensures (sessionFree s d) w'
      (fun _ w'' => ReleasedOnce s w''.log) (fun _ w'' => ReleasedOnce s w''.log) := fun ha =>
    (sessionFree_once (ran_of_solo ha.1 ha.2) (hq ha.1) hu).imp (fun _ _ h => h.1)
  simp only [runParse, ensures_bind]
  refine ((sessionFparse_alone h).and sessionFparse_joins).mono (fun ret w2 h2 => ?_)
    (fun _ _ stopped => (hq stopped.1).releasedOnce)
  obtain ⟨alone2, rfl, session2, epoll2, opened2⟩ := h2
  rw [if_neg (by simp)]
  simp only [ensures_bind]
  refine ((sessionForward_alone io.forward alone2).and
    ((sessionForward_opens alone2.2 (alone2.1.own.trans used)).and
    (sessionForward_hands (w := w) (by rw [session2, he]) (epoll2.trans epoll)
      (opened2.trans ho)))).mono (fun ret w3 h3 => ?_)
    (fun _ _ stopped => (hq stopped.1).releasedOnce)
  obtain ⟨alone3, opens, hh⟩ := h3
  rw [ensures_ite]
  refine ⟨fun _ => ?_, fun ok => ?_⟩
  · simp only [ensures_bind, ensures_pure]
    exact hr alone3
  have ok := not_not.mp ok
  obtain ⟨i, fd⟩ : ∃ i : Nat, (w3.conn s d.peer).fd = i :=
    ⟨_, (Int.toNat_of_nonneg (Int.le_of_lt (opens ok).1)).symm⟩
  have fd' : ((w3.sessions s).conns d.peer).fd = i := fd
  have alone3' := alone_emit alone3
  simp only [ensures_bind, ensures_conn, fd']
  refine ((connSendData_alone io.send i alone3').and
    (connSendData_sends alone3'.2 (alone3'.1.own.trans used) fd)).mono
    (fun ret w4 h4 => ?_) (fun _ _ stopped => (hq stopped.1).releasedOnce)
  obtain ⟨alone4, sent⟩ := h4
  simp only [ensures_onlyIf, ensures_bind, ensures_pure]
  refine ⟨fun bad => ?_, fun _ => closeIfDone_once (ran_of_solo alone4.1 alone4.2) (hq alone4.1) hu⟩
  -- the release was deferred, so that the tail finds the session in place
  obtain ⟨ready, failed⟩ := sent.2 bad
  simp only [handshaking, Bool.or_eq_false_iff] at ready
  obtain ⟨hs, loop⟩ := hh ok ready.1 ready.2
  have hl : (w.conn s d.peer).task.linked = true := by
    by_contra hn
    refine hw ⟨hk, by simpa using hn, hs, ?_⟩
    rw [← loop]
    exact failed
  refine (sessionFree_once (ran_of_solo alone4.1 alone4.2) (hq alone4.1) hu).imp (fun _ w5 h5 => ?_)
  obtain ⟨ran5, fresh5⟩ := h5.2 hl
  exact closeIfDone_once ran5 fresh5 hu

lemma runSend_once (hf : NoPut s w.log) (h : Alone s w w1)
    (hu : (w.conn s d).task.linked = false) :
    Ensures (runSend io s d) w1 (fun _ w' => ReleasedOnce s w'.log) (fun _ w' => ReleasedOnce s w'.log) := by
  have hq : ∀ {w'}, Solo s w w' → NoPut s w'.log := fun solo => noPut_of_solo hf solo
  simp only [runSend, ensures_bind, ensures_conn]
  refine (connSendData_alone io.send _ (alone_emit h)).mono (fun ret w2 h2 => ?_)
    (fun _ _ hs => (hq hs).releasedOnce)
  have ran2 := ran_of_solo h2.1 h2.2
  rw [ensures_ite]
  refine ⟨fun _ => ?_, fun _ => closeIfDone_once ran2 (hq h2.1) hu⟩
  simp only [ensures_bind, ensures_pure]
  exact (sessionFree_once ran2 (hq h2.1) hu).imp (fun _ _ h => h.1)

lemma sessionRunTask_once (ht : Runnable w s d) (hw : ¬ Breaks io w s d) :
    Ensures (sessionRunTask io s d) w (fun _ w' => ReleasedOnce s w'.log)
      (fun _ w' => ReleasedOnce s w'.log) := by
  have hf : NoPut s w.log := by
    rw [ht.log]
    exact fun _ _ => not_mem_nil
  have alone1 : Alone s w (w.emit (.field s)) := alone_emit ⟨solo_refl w, ht.owns⟩
  have fresh1 := noPut_of_solo hf alone1.1
  simp only [sessionRunTask, ensures_bind, ensures_session, ensures_require]
  refine ⟨fun _ => ?_, fun _ => fresh1.releasedOnce⟩
  split
  · exact (ensures_pure _).mpr fresh1.releasedOnce
  · simp only [ensures_bind, ensures_pure]
    exact (sessionFree_once (ran_of_solo alone1.1 alone1.2) fresh1 ht.unlinked).imp (fun _ _ h => h.1)
  · next kind =>
    exact runParse_once hf ht.used alone1 rfl rfl rfl ht.unlinked kind hw
  · exact runSend_once hf alone1 ht.unlinked

/-! ### The second access -/

/-- The session was accessed after it was given back. -/
def Dangling (s : Nat) (log : List Event) : Prop :=
  ∃ before client server after, log = before ++ .put s client server :: after ∧ .field s ∈ after

lemma Dangling.not_releasedOnce (h : Dangling s log) : ¬ ReleasedOnce s log := by
  obtain ⟨before, client, server, after, split, hm⟩ := h
  exact fun ho => (ho before client server after split).1 hm

@[simp] lemma dangling_append (h : Dangling s log) (more : List Event) : Dangling s (log ++ more) := by
  obtain ⟨before, client, server, after, split, hm⟩ := h
  exact ⟨before, client, server, after ++ more, by simp [split], by simp [hm]⟩

lemma connFree_dangling (h : Dangling s w.log) :
    Ensures (connFree s d) w (fun _ w' => Dangling s w'.log) (fun _ w' => Dangling s w'.log) := by
  simp [connFree, closeFd, dropFd, h]

/-- Whatever the second release does, what has happened stays. -/
lemma sessionFree_dangling (h : Dangling s w.log) :
    Ensures (sessionFree s d) w (fun _ w' => Dangling s w'.log) (fun _ w' => Dangling s w'.log) := by
  simp only [sessionFree, ensures_bind, ensures_emit, ensures_session, ensures_require]
  refine ⟨fun _ => ⟨fun _ => ?_, fun _ => by simp [h]⟩, fun _ => by simp [h]⟩
  refine (connFree_dangling (by simp [h])).imp (fun _ w1 h1 => ?_)
  simp only [ensures_conn]
  rw [ensures_ite]
  refine ⟨fun _ => by simp [h1], fun _ => ?_⟩
  simp only [ensures_bind]
  refine (connFree_dangling (by simp [h1])).imp (fun _ w2 h2 => ?_)
  simp [putSession, h2]

lemma closeIfDone_dangling (h : Dangling s (w.emit (.field s)).log) :
    Ensures (closeIfDone s d) w (fun _ w' => Dangling s w'.log) (fun _ w' => Dangling s w'.log) := by
  simp only [closeIfDone, ensures_bind, ensures_session]
  rw [ensures_ite, ensures_pure]
  refine ⟨fun _ => ?_, fun _ => h⟩
  simp only [ensures_bind, ensures_pure]
  exact sessionFree_dangling h

/-- A connection whose descriptor is in the table is freed to the end. -/
lemma connFree_returns (owns : Owns w s) (hw : (w.sessions s).worker = true) :
    Ensures (connFree s d) w (fun _ _ => True) (fun _ _ => False) := by
  simp only [connFree, ensures_bind, ensures_session, ensures_require, ensures_modifySession,
    ensures_onlyIf, ensures_itemOf, ensures_writeItem, closeFd, dropFd, ensures_modify, ensures_emit,
    ensures_modifyConn]
  refine ⟨fun _ => ⟨fun ho => ?_, fun _ => trivial⟩, fun no => absurd hw no⟩
  have ho' : (w.conn s d).fd > 0 := ho
  obtain ⟨i, fd⟩ : ∃ i : Nat, (w.conn s d).fd = i := ⟨_, (Int.toNat_of_nonneg (by omega)).symm⟩
  have fd' : ((w.sessions s).conns d).fd = i := fd
  have hi := (owns d i fd).inside
  simp only [fd', Int.toNat_natCast]
  refine ⟨fun _ _ => ⟨fun _ => trivial, fun out => ?_⟩, fun out => ?_⟩
  · exact absurd hi (Nat.not_lt.mpr out)
  · have hh' : (i : Int) < 0 ∨ (i : Int) > w.epoll.fe.maxfd := out
    omega

/-- A session of which all packets are counted and no task is queued goes back to the pool. -/
lemma sessionFree_returns (h : Alone s w w1) (used : w.used s = true)
    (hw : (w.sessions s).worker = true) (hp : (w.sessions s).policy.isSome = true)
    (hu : ∀ e, (w.conn s e).task.linked = false) (ha : Accounted (w1.sessions s))
    (hs : ∀ e, (w1.sessions s).staged e = []) :
    Ensures (sessionFree s d) w1 (fun _ w' => ∃ before, w'.log = before ++ [.put s false false])
      (fun _ _ => False) := by
  have whole : Ensures (sessionFree s d) w1 (fun _ _ => True) (fun _ _ => False) := by
    simp only [sessionFree, ensures_bind, ensures_emit, ensures_session, ensures_require]
    have worker1 := h.1.worker.trans hw
    have policy1 : (w1.sessions s).policy.isSome = true := by rw [h.1.policy]; exact hp
    refine ⟨fun _ => ⟨fun _ => ?_, fun no => absurd policy1 no⟩, fun no => absurd worker1 no⟩
    have owns1 : Owns ((w1.emit (.released s)).emit (.field s)) s := owns_emit _ (owns_emit _ h.2)
    refine ((connFree_returns owns1 worker1).and ((connFree_freed owns1).and
      (connFree_half d ha hs))).mono (fun _ w2 h2 => ?_) (fun _ _ stopped => stopped.1)
    obtain ⟨-, hf, hh⟩ := h2
    simp only [ensures_conn]
    have unlinked2 : (w2.conn s d.peer).task.linked = false :=
      ((hf.linked d.peer).trans (h.1.linked d.peer)).trans (hu d.peer)
    rw [if_neg (by simpa using unlinked2)]
    simp only [ensures_bind]
    have worker2 : (w2.sessions s).worker = true := hf.worker.trans worker1
    refine ((connFree_returns (owns_emit _ hf.owns) worker2).and
      ((connFree_freed (owns_emit _ hf.owns)).and (connFree_rest (w := w2.emit (.field s)) hh))).mono
      (fun _ w3 h3 => ?_) (fun _ _ stopped => stopped.1)
    obtain ⟨-, freed3, none⟩ := h3
    simp only [ensures_session, ensures_stopUnless, ensures_modify, ensures_pure]
    refine ⟨fun _ => ?_, fun hl => absurd none hl⟩
    have used3 : w3.used s = true := (freed3.own.trans (hf.own.trans h.1.own)).trans used
    simp [putSession, used3]
  refine (whole.and (sessionFree_released (fun _ => h.2) ((h.1.linked d).trans (hu d)))).mono
    (fun _ w' left => ?_) (fun _ _ stopped => stopped.1)
  cases left.2.outcome with
  | deferred linked _ _ _ =>
    rw [h.1.linked, hu] at linked
    cases linked
  | returned _ _ _ _ _ last => exact last

/-- A send step that calls `send` in vain ends with an error and halts nowhere. -/
lemma connSendData_fails {i : Nat} (own : (w.conn s d).fd = i)
    (hw : (w.sessions s).worker = true) (hp : (w.sessions s).policy.isSome = true)
    (hr : handshaking (w.conn s d) = false) (hf : (sendLoop ios (w.conn s d)).exit = .failed) :
    Ensures (connSendData ios i 0#32 s d) w (fun ret _ => ret ≠ 0) (fun _ _ => False) := by
  simp only [connSendData]
  rw [if_neg (by omega)]
  simp only [ensures_bind, ensures_session, ensures_require]
  refine ⟨fun _ => ⟨fun _ => ⟨fun _ => ?_, fun no => absurd own.symm no⟩, fun no => absurd hp no⟩,
    fun no => absurd hw no⟩
  have hr' : ¬ (((w.sessions s).conns d).flags.hsk || ((w.sessions s).conns d).flags.sslHsk) = true := by
    simpa [handshaking] using hr
  have hf' : (sendPackets ((w.sessions s).conns d).ssl.isSome ios 0
      ((w.sessions s).conns d).output).exit = .failed := hf
  rw [if_neg hr']
  simp only [ensures_bind]
  refine (sslUse_logs _ _ _ _ _).imp (fun _ w1 _ => ?_)
  simp [hf', sendErrFree]

/-- Where `TASK_PARSE` calls `send` in vain, the session with all its packets is back in the
pool when the tail looks at it. -/
lemma relay_dangling {i : Nat} (ht : Runnable w s d) (alone : (w.conn s d.peer).task.linked = false)
    (h : Alone s w w1) (ha : Accounted (w1.sessions s))
    (hs : ∀ e, (w1.sessions s).staged e = []) (fd : (w1.conn s d.peer).fd = i)
    (hr : handshaking (w1.conn s d.peer) = false)
    (hf : (sendLoop io.send (w1.conn s d.peer)).exit = .failed) : Ensures (do
        let ret ← connSendData io.send i 0#32 s d.peer
        onlyIf (ret ≠ 0) do
          let _ ← sessionFree s d
        closeIfDone s d : Run Int) w1
      (fun _ w' => Dangling s w'.log) (fun _ w' => Dangling s w'.log) := by
  have hp : (w1.sessions s).policy.isSome = true := by rw [h.1.policy]; exact ht.policy
  simp only [ensures_bind]
  refine ((connSendData_fails fd (h.1.worker.trans ht.worker) hp hr hf).and
    ((connSendData_alone io.send i h).and ((connSendData_flows io.send w1).and
      (connSendData_sends h.2 (h.1.own.trans ht.used) fd)))).mono (fun ret w2 h2 => ?_)
    (fun _ _ stopped => stopped.1.elim)
  obtain ⟨bad, alone2, flows2, sent⟩ := h2
  have staged2 : ∀ e, (w2.sessions s).staged e = [] := fun e => by
    rw [sent.1]
    exact hs e
  have hu : ∀ e, (w.conn s e).task.linked = false := by
    intro e
    rcases d.sides e with rfl | rfl
    · exact ht.unlinked
    · exact alone
  simp only [ensures_onlyIf, ensures_bind, ensures_pure]
  refine ⟨fun _ => ?_, fun ok => absurd bad ok⟩
  refine (sessionFree_returns alone2 ht.used ht.worker ht.policy hu
    (moves_invariant accounted_shift flows2 ha) staged2).mono (fun _ w3 h3 => ?_)
    (fun _ _ stopped => stopped.elim)
  obtain ⟨before, log⟩ := h3
  refine closeIfDone_dangling ⟨before, false, false, [.field s], ?_, by simp⟩
  simp [log]

lemma breaks_dangling (ht : Runnable w s d) (h : Breaks io w s d) :
    Ensures (sessionRunTask io s d) w (fun _ w' => Dangling s w'.log) (fun _ w' => Dangling s w'.log) := by
  have worker := ht.worker
  have hk' : ((w.sessions s).conns d).task.kind = .parse := h.kind
  simp only [sessionRunTask, ensures_bind, ensures_session, ensures_require, hk']
  refine ⟨fun _ => ?_, fun no => absurd worker no⟩
  have alone1 : Alone s w (w.emit (.field s)) := alone_emit ⟨solo_refl w, ht.owns⟩
  simp only [runParse, ensures_bind]
  refine ((sessionFparse_joins).and ((sessionFparse_alone alone1).and
    (sessionFparse_flows _))).mono (fun ret w2 h2 => ?_)
    (fun _ _ hs => absurd worker (by simpa using hs.1))
  obtain ⟨⟨rfl, session2, epoll2, opened2⟩, alone2, flows2⟩ := h2
  have session2 : w2.sessions s = (w.sessions s).joinInput d := session2
  have conn2 : w2.conn s d.peer = w.conn s d.peer := by
    rw [Worker.conn, Worker.conn, session2]
    simp [joinInput]
  have sends2 : SendsAtOnce io.forward w2 s d.peer :=
    sendsAtOnce_congr conn2 alone2.1.policy epoll2 opened2 h.sends
  have policy2 : (w2.sessions s).policy.isSome = true := by rw [alone2.1.policy]; exact ht.policy
  rw [if_neg (by simp)]
  simp only [ensures_bind]
  refine ((sessionForward_ready sends2 (alone2.1.worker.trans worker) policy2).and
    ((sessionForward_alone io.forward alone2).and ((sessionForward_flows w2).and
      (sessionForward_opens alone2.2 (alone2.1.own.trans ht.used))))).mono (fun ret w3 h3 => ?_)
    (fun _ _ hs => hs.1.elim)
  obtain ⟨⟨rfl, hr⟩, alone3, flows3, ho⟩ := h3
  rw [if_neg (by simp)]
  obtain ⟨i, fd⟩ : ∃ i : Nat, (w3.conn s d.peer).fd = i :=
    ⟨_, (Int.toNat_of_nonneg (Int.le_of_lt hr.fd)).symm⟩
  have fd' : ((w3.sessions s).conns d.peer).fd = i := fd
  simp only [ensures_bind, ensures_conn, fd']
  have accounted3 : Accounted (w3.sessions s) :=
    moves_invariant accounted_shift (flows2.trans flows3) ht.accounted
  have staged3 : ∀ e, (w3.sessions s).staged e = [] := by
    intro e
    rw [(ho rfl).2, session2]
    rcases d.sides e with rfl | rfl
    · simp [joinOutput]
    · simpa [joinOutput, joinInput] using ht.staged
  have hf : (sendLoop io.send (w3.conn s d.peer)).exit = .failed := by
    rw [sendLoop, hr.ssl, hr.output, conn2, session2]
    simpa [joinInput, pendingSend] using h.fails
  have hw : handshaking (w3.conn s d.peer) = false := by
    rw [handshaking, hr.hsk, hr.sslHsk]
    rfl
  have alone3' := alone_emit alone3
  simpa only [ensures_bind] using relay_dangling ht h.alone alone3' accounted3 staged3 fd hw hf

/-! ## One execution -/

/-- An execution of `session_run_task`, for any kind of task and any flags, touches its
session after giving it back exactly if it parses, `send` fails, and no queued task of the
peer keeps the session. -/
theorem task_releases_once_iff {w : Worker} {s : Nat} {d : Dir} (task : Runnable w s d) (io : TaskIO) :
    ReleasedOnce s (final (sessionRunTask io s d) w).log ↔ ¬ Breaks io w s d := by
  refine ⟨fun ho hb => ?_, fun hw => ?_⟩
  · exact (breaks_dangling task hb).final.not_releasedOnce ho
  · exact (sessionRunTask_once task hw).final

/-- A client was accepted and two of its bytes wait to be parsed; the log starts here. -/
def parseReady : Worker :=
  { final
      (do
        let _ ← ltnAccept ⟨some 5, false, some 0, true, true, true⟩ 4 ⟨0, 4, 0, .reverse, false, []⟩
        modify (·.mapConn 0 .client (·.deliver [7, 9] false))
        let _ ← connRecvData (.last ⟨true, .data 2, ⟨.zero, false, false⟩⟩) 5 epollIn 0 .client
        taskDelQueue 0 .client : Run Unit) (Worker.start 16 1 fun _ => false) with log := [] }

lemma parseReady_runnable : Runnable parseReady 0 .client where
  log := rfl
  used := by decide +kernel
  worker := by decide +kernel
  policy := by decide +kernel
  unlinked := by decide +kernel
  owns := by
    have client : (parseReady.conn 0 .client).fd = (5 : Nat) := by decide +kernel
    have server : (parseReady.conn 0 .server).fd = -1 := by decide +kernel
    intro d i fd
    cases d with
    | client =>
      have : i = 5 := by omega
      subst this
      exact ⟨by decide, by decide +kernel, by decide +kernel, by decide +kernel, by decide +kernel⟩
    | server => omega
  accounted := by
    unfold Accounted
    decide +kernel
  staged := by decide +kernel

/-- The server is connected at once, and every `send` gives the answer. -/
def sendAnswers (answer : SendAnswer) : TaskIO :=
  ⟨⟨true, some false, true, some 6, some (6, false), true⟩, fun _ => ⟨answer, ⟨false, .sent 1⟩⟩⟩

theorem task_releases_once_parseReady : Runnable parseReady 0 .client ∧
    (ReleasedOnce 0 (final (sessionRunTask (sendAnswers (.sent 2)) 0 .client) parseReady).log ↔
      ¬ Breaks (sendAnswers (.sent 2)) parseReady 0 .client) :=
  ⟨parseReady_runnable, task_releases_once_iff parseReady_runnable (sendAnswers (.sent 2))⟩

/-- The first bytes of a client meet a server that resets the connection: the session goes
back to the pool, and then its flags are read. -/
theorem reset_reads_returned_session : Runnable parseReady 0 .client ∧ ¬ ReleasedOnce 0
      (final (sessionRunTask (sendAnswers (.err .other)) 0 .client) parseReady).log := by
  have log : (final (sessionRunTask (sendAnswers (.err .other)) 0 .client) parseReady).log =
      (final (sessionRunTask (sendAnswers (.err .other)) 0 .client) parseReady).log.take 30 ++
        [.put 0 false false, .field 0] := by decide +kernel
  exact ⟨parseReady_runnable, Dangling.not_releasedOnce ⟨_, _, _, _, log, by simp⟩⟩

end Fzsvn.Guarantees.Proxy.SingleRelease
