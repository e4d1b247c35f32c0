import Fzsvn.Guarantees.Proxy.TaskViews

/-!
# Invariants of views

An invariant of views has to be kept by the functions of `CallbackViews` and `TaskViews`,
by what the network delivers and by accepts. It then holds for every session in every
state of every run, as far as the run keeps to the limits set for single steps.
-/
namespace Fzsvn.Guarantees.Proxy.ViewRule
open Library.Exec Source.Proxy Locality Lifecycle WorkerInvariant SessionRule SessionView
open CallbackViews TaskViews
open View (call relay sendData taken)

/-- Which callbacks, tasks and releases of a session are considered, given its view
before the step. -/
structure Limits where
  call : View → Dir → Callback → CallbackIO → Mask → Prop
  task : View → Dir → TaskIO → Prop
  free : View → Prop

/-- A callback of a connection that is about to be called. -/
structure Call where
  session : Nat
  dir : Dir
  iocb : Callback
  events : Mask

def nextCall (w : Worker) : Option Call :=
  match w.phase with
  | .polling ((fd, events) :: _) =>
    match (w.item fd).arg, (w.item fd).iocb with
    | some (.conn s d), some cb => some ⟨s, d, cb, events⟩
    | _, _ => none
  | _ => none

def currentTask (w : Worker) : Option TaskRef :=
  match w.phase with
  | .running t _ => some t
  | _ => none

/-- Every step that serves a session keeps to the limits. -/
def Limits.allow (limits : Limits) (w : Worker) : Action → Prop
  | .dispatch io =>
    ∀ c ∈ nextCall w, limits.call (view w c.session) c.dir c.iocb io c.events
  | .runTask io => ∀ t ∈ currentTask w, limits.task (view w t.session) t.dir io
  | .delPolicy policy => ∀ l ∈ w.lfds.find? (·.policy = policy),
    ∀ s ∈ l.ssnlist, limits.free (view w s)
  | _ => True

instance (limits : Limits) [∀ v d cb io events, Decidable (limits.call v d cb io events)]
    [∀ v d io, Decidable (limits.task v d io)] [∀ v, Decidable (limits.free v)] (w : Worker) :
    (a : Action) → Decidable (limits.allow w a)
  | .dispatch io => inferInstanceAs (Decidable
      (∀ c ∈ nextCall w, limits.call (view w c.session) c.dir c.iocb io c.events))
  | .runTask io => inferInstanceAs (Decidable
      (∀ t ∈ currentTask w, limits.task (view w t.session) t.dir io))
  | .delPolicy policy => inferInstanceAs (Decidable
      (∀ l ∈ w.lfds.find? (·.policy = policy), ∀ s ∈ l.ssnlist, limits.free (view w s)))
  | .deliver _ _ _ _ | .addPolicy _ | .poll _ _ | .drain => isTrue trivial

instance (p : Dir → Prop) [DecidablePred p] : Decidable (∀ e, p e) :=
  decidable_of_iff (p .client ∧ p .server)
    ⟨fun h e => by cases e <;> simp [h], fun h => ⟨h .client, h .server⟩⟩

/-- A view as an accept leaves it. -/
def accepted (v : View) (l : ListenerFd) (fd : Nat) : View where
  id := v.id
  used := true
  session := acceptedSession v.session l fd
  request := fun
    | .client => some ⟨fdIn, some (if l.sslctx then .connHandshake else .connRecvData)⟩
    | .server => none
  log := v.log ++ (opening v.id fd l.sslctx ++ [.accepted v.id fd])

lemma accepted_client (v : View) (l : ListenerFd) (fd : Nat) : (accepted v l fd).session.conns .client =
      { connInit with
        fd := fd
        ssl := if l.sslctx then some ⟨some fd⟩ else none
        flags := { ConnFlags.none with sslHsk := l.sslctx } } := by
  simp [accepted, acceptedSession]

lemma accepted_server (v : View) (l : ListenerFd) (fd : Nat) :
    (accepted v l fd).session.conns .server = connInit := by
  simp [accepted, acceptedSession, sessionInit]

/-- A view as a failed accept leaves it. -/
structure Refuses (v v' : View) : Prop where
  id : v'.id = v.id
  used : v'.used = false
  uncut : ∀ d, (v'.conn d).cut = none
  log : ∃ fd ssl, v'.log = v.log ++ (opening v.id fd ssl ++ refusing v.id fd ssl)

/-- What the requests of a session in use always are. -/
structure Sound (v : View) : Prop where
  used : v.used = true
  fd : ∀ d, (v.conn d).fd ≠ 0
  request : ∀ d, (v.request d).isSome = decide ((v.conn d).fd > 0)

/-- The event a callback is called with. -/
structure Called (v : View) (d : Dir) (cb : Callback) (events : Mask) : Prop extends Sound v where
  event : events ≠ 0#32
  hangup : events.has epollRdHup = true → (v.conn d).sock.fin = true
  opened : (v.conn d).fd > 0
  requested : ∃ e, v.request d = some ⟨e, some cb⟩
  unlinked : (v.conn d).task.linked = false

structure Kept (I : View → Prop) (limits : Limits) : Prop where
  start : ∀ {v}, v.used = false → v.session = .zero → v.log = [] → I v
  deliver : ∀ {v d bytes fin}, I v → Sound v → (v.conn d).fd > 0 → (v.conn d).sock.fin = false →
    I (v.mapConn d (·.deliver bytes fin))
  accept : ∀ {v l fd}, I v → v.used = false → fd ≠ 0 → I (accepted v l fd)
  refuse : ∀ {v v'}, I v → v.used = false → Refuses v v' → I v'
  call : ∀ {v d cb io events}, I v → Called v d cb events → limits.call v d cb io events →
    I (View.call io cb events v d)
  task : ∀ {v d io}, I v → Sound v → (v.conn d).task.linked = true → limits.task v d io →
    I (View.runTask io (View.taken v d) d)
  free : ∀ {v}, I v → Sound v → (∀ d, (v.conn d).task.linked = false) → limits.free v →
    I (View.free v .client)

/-! ## The session keeps its identity -/

variable {v : View} {d : Dir}

lemma sendData_used {ios : Nat → SendIO} {events : Mask} :
    (sendData ios events v d).2.used = v.used := by
  unfold sendData View.sendErr View.sendBlock View.sendShut View.sendUnblock
  dsimp only
  repeat' split
  all_goals simp [(queue_moves).own.used]

/-- A callback neither changes the session's identity nor releases it. -/
lemma call_frame {io : CallbackIO} {cb : Callback} {events : Mask} :
    (call io cb events v d).id = v.id ∧ (call io cb events v d).used = v.used := by
  unfold call
  split
  · exact ⟨recvData_moves.own.id, recvData_moves.own.used⟩
  · exact ⟨sendData_id io.send events, sendData_used⟩
  · exact ⟨handshake_moves.own.id, handshake_moves.own.used⟩
  · exact ⟨shutdown_moves.own.id, shutdown_moves.own.used⟩
  · exact ⟨rfl, rfl⟩

lemma closeIfDone_id : (View.closeIfDone v d).id = v.id := by
  unfold View.closeIfDone
  split
  · exact free_id
  · rfl

lemma abandon_id : (View.abandon v d).id = v.id := by
  unfold View.abandon
  dsimp only
  split
  · rw [closeIfDone_id, free_id]
  · exact free_id

lemma runTask_id {io : TaskIO} : (View.runTask io v d).id = v.id := by
  have sent : ∀ {v : View} {d : Dir}, (View.send io.send v d).2.id = v.id :=
    (send_frame io.send).1
  unfold View.runTask
  split
  · rfl
  · exact free_id
  · have hf := (forward_frame (v := v.mapSession (·.joinInput d)) (d := d.peer) io.forward).1
    unfold View.runParse relay
    dsimp only
    split
    · exact free_id.trans hf
    · split
      · exact abandon_id.trans (sent.trans hf)
      · exact closeIfDone_id.trans (sent.trans hf)
  · unfold View.runSend
    dsimp only
    split
    · exact free_id.trans sent
    · exact closeIfDone_id.trans sent

/-! ## The rule -/

variable {I : View → Prop} {limits : Limits} {w w' : Worker} {s : Nat}

lemma looks_view (ho : Owns w s) : Looks w (view w s) := ⟨rfl, ho⟩

lemma view_sound (owns : Owns w s) (hi : w.used s = true) : Sound (view w s) where
  used := hi
  fd d zero := (owns d 0 zero).pos rfl
  request d := by
    by_cases ho : ((w.sessions s).conns d).fd > 0 <;> simp [view, requestOf, hi, ho]

/-- A program that computes a function of the view. -/
lemma view_of_shows {α : Type} {prog : Run α} {v final : View}
    (hs : Shows prog v fun _ v' => v' = final) (hl : Looks w v) (id : final.id = s)
    (hk : I final) : Ensures prog w (fun _ w' => I (view w' s)) (fun _ _ => True) := by
  refine (hs w hl).imp_true (fun _ w' h => ?_)
  obtain ⟨v', hl', rfl⟩ := h
  rw [← id, hl'.view]
  exact hk

/-- Flushing turns requests into registrations, which views do not show. -/
lemma flush_view (ctl : Nat → Bool) (s : Nat) :
    view ({ w with epoll := fdEpollFlushEvents ctl w.epoll }.emit .flushed) s = view w s := by
  have hr : requestOf ({ w with epoll := fdEpollFlushEvents ctl w.epoll }.emit .flushed) s =
      requestOf w s := by
    funext d
    have he := flush_request ctl w.epoll ((w.sessions s).conns d).fd.toNat
    simp only [requestOf, Worker.emit, Worker.conn, Worker.item, he.events, he.iocb]
  simp [view, hr, about]

lemma view_deliver {bytes : List UInt8} {fin : Bool} :
    view (w.mapConn s d (·.deliver bytes fin)) s = (view w s).mapConn d (·.deliver bytes fin) := by
  have hr : requestOf (w.mapConn s d (·.deliver bytes fin)) s = requestOf w s := by
    funext e
    have fd : (((w.mapConn s d (·.deliver bytes fin)).sessions s).conns e).fd =
        ((w.sessions s).conns e).fd := by
      rcases d.sides e with rfl | rfl <;> simp [Connection.deliver]
    simp only [requestOf, Worker.conn, fd]
    rfl
  simp [view, hr, View.mapConn, View.mapSession]

lemma view_accepted {l : ListenerFd} {fd : Nat} (h : Accepted l s fd w w') :
    view w' s = accepted (view w s) l fd := by
  have client : ((w'.sessions s).conns .client).fd = fd := by rw [h.session]; rfl
  have server : ((w'.sessions s).conns .server).fd = -1 := by rw [h.session]; rfl
  have hr : requestOf w' s = (accepted (view w s) l fd).request := by
    funext d
    cases d with
    | client => simp [requestOf, client, h.inUse, h.held.pos, h.events, h.iocb, accepted]
    | server => simp [requestOf, server, accepted]
  simp only [view, hr, h.session, h.inUse, h.noted]
  rfl

lemma Kept.settles (k : Kept I limits) (io : AcceptIO) (l : ListenerFd)
    (all : ∀ s, I (view w s)) : Settles (fun w s => I (view w s)) io l w w' := by
  refine ⟨fun s fd _ hu h => ?_, fun s hu h => ?_⟩
  · change I (view w' s)
    rw [view_accepted h]
    exact k.accept (all s) hu h.held.pos
  · exact k.refuse (all s) hu ⟨rfl, h.after, h.uncut, h.noted⟩

lemma Kept.preserved (k : Kept I limits) :
    Preserved (fun w s => I (view w s)) (fun _ _ => True) limits.allow where
  frame he kept := by rwa [elsewhere_view he]
  fits _ _ := trivial
  accept _ _ _ all := ensures_of_forall fun _ _ _ => ⟨trivial, k.settles _ _ all⟩
  deliver sane kept hi _ ho notFin := by
    rw [view_deliver]
    exact k.deliver kept (view_sound ((sane.tidy _).owns hi) hi) ho notFin
  flush _ kept _ := by rwa [flush_view]
  call {w io cb fd events rest s d} sane kept hi ok phase hangup event iocb arg own unlinked := by
    have owns := (sane.tidy s).owns hi
    have hh := owns d fd own
    have ho' : ((w.sessions s).conns d).fd = fd := own
    have hs := view_sound owns hi
    have hc : Called (view w s) d cb events := by
      refine ⟨hs, event, fun hr => ?_, ?_, ⟨(w.item fd).events, ?_⟩, unlinked⟩
      · simpa [hangupSeen, arg, hr, view] using hangup
      · have := hh.pos
        change ((w.sessions s).conns d).fd > 0
        omega
      · have hi' : (w.epoll.fe.maps fd).iocb = some cb := iocb
        simp [view, requestOf, hi, ho', hh.pos, hi']
    have hk' := k.call kept hc (ok ⟨s, d, cb, events⟩ (by simp_all [nextCall]))
    have hl : Looks { w with phase := .polling rest } (view w s) :=
      ⟨rfl, fun e i h => have hh := owns e i h
        { hh with }⟩
    exact view_of_shows (callIocb_shows (v := view w s) hi own io cb event unlinked) hl
      (call_frame).1 hk'
  task {w io s d next} sane kept hi ok running linked := by
    have owns := (sane.tidy s).owns hi
    have hk' := k.task kept (view_sound owns hi) linked (ok ⟨s, d⟩ (by simp [currentTask, running]))
    exact view_of_shows (sessionRunTask_shows (v := taken (view w s) d) io hi)
      (looks_dequeue (looks_view owns)) runTask_id hk'
  free {w0 w s policy l} ok hf listed still sane kept hi idle := by
    have owns := (sane.tidy s).owns hi
    have ha : limits.free (view w s) := by
      rw [elsewhere_view still]
      exact ok l hf s listed
    have hk' := k.free kept (view_sound owns hi) (idle_unlinked sane idle s) ha
    exact view_of_shows ((sessionFree_shows (v := view w s)).mono fun _ _ h => h.1)
      (looks_view owns) free_id hk'

/-- In every run within the limits, every session keeps the invariant. -/
lemma Kept.run (k : Kept I limits) (maxfd naccept : Nat) (opened : Nat → Bool) {actions : List Action}
    (ha : Along workerStep limits.allow actions (Worker.start maxfd naccept opened)) :
    Ensures (runWorker actions) (Worker.start maxfd naccept opened)
      (fun _ w => Sane w ∧ ∀ s, I (view w s)) (fun _ _ => True) :=
  k.preserved.run (start_sane maxfd naccept opened) (fun _ => k.start rfl rfl rfl) ha

/-! ## Sessions that are served, and the others -/

/-- One connection is gone; the queued task of the other one will release the session. -/
structure Halved (v : View) (d : Dir) : Prop where
  linked : (v.conn d).task.linked = true
  kind : (v.conn d).task.kind = .delete
  peer : (v.conn d.peer).task.linked = false
  closed : (v.conn d.peer).fd < 0

/-- `P` holds for a session that is served, `G` for one that is released, or half so. -/
def Lives (P G : View → Prop) (v : View) : Prop :=
  (v.used = true ∧ P v) ∨ (G v ∧ (v.used = true → ∃ d, Halved v d))

/-- The result of the step a task ends with. -/
structure Ends (P G : View → Prop) (d : Dir) (r : Int × View) : Prop where
  failed : r.1 ≠ 0 → G (View.free r.2 d)
  served : r.1 = 0 → P r.2

structure Serves (P G : View → Prop) (limits : Limits) : Prop where
  start : ∀ {v}, v.used = false → v.session = .zero → v.log = [] → G v
  accept : ∀ {v l fd}, G v → v.used = false → fd ≠ 0 → P (accepted v l fd)
  refuse : ∀ {v v'}, G v → v.used = false → Refuses v v' → G v'
  deliver : ∀ {v d bytes fin}, P v → Sound v → (v.conn d).fd > 0 → (v.conn d).sock.fin = false →
    P (v.mapConn d (·.deliver bytes fin))
  late : ∀ {v d bytes fin}, G v → G (v.mapConn d (·.deliver bytes fin))
  call : ∀ {v d cb io events}, P v → Called v d cb events → limits.call v d cb io events →
    P (View.call io cb events v d)
  idle : ∀ {v d}, P v → Sound v → (v.conn d).task.kind = .none → P (View.taken v d)
  delete : ∀ {v d io}, P v → Sound v → (v.conn d).task.kind = .delete → limits.task v d io →
    G (View.free (View.taken v d) d)
  forward : ∀ {v d io}, P v → Sound v → (v.conn d).task.kind = .parse → limits.task v d io →
    (View.forward io.forward ((View.taken v d).mapSession (·.joinInput d)) d.peer).1 ≠ 0 →
    G (View.free (View.forward io.forward ((View.taken v d).mapSession (·.joinInput d)) d.peer).2 d)
  parse : ∀ {v d io}, P v → Sound v → (v.conn d).task.kind = .parse → limits.task v d io →
    (View.forward io.forward ((View.taken v d).mapSession (·.joinInput d)) d.peer).1 = 0 →
    Ends P G d (View.send io.send
      (View.forward io.forward ((View.taken v d).mapSession (·.joinInput d)) d.peer).2 d.peer)
  send : ∀ {v d io}, P v → Sound v → (v.conn d).task.kind = .send → limits.task v d io →
    Ends P G d (View.send io.send (View.taken v d) d)
  closed : ∀ {v d}, P v → (∀ e, (v.conn e).flags.isClosed = true) → G (View.free v d)
  free : ∀ {v}, P v → Sound v → limits.free v → G (View.free v .client)
  rest : ∀ {v d}, G v → v.used = true → Halved v d → G (View.free (View.taken v d) d)
  again : ∀ {v d}, G v → v.used = true → (v.conn d).fd < 0 → (v.conn d.peer).task.linked = true →
    G (View.free v d)

variable {P G : View → Prop}

lemma connFree_fd (zero : (v.conn d).fd ≠ 0) : ((View.connFree v d).conn d).fd < 0 := by
  unfold View.connFree
  split
  · simp [View.giveUp, setKind]
  · have fd : (v.conn d).fd < 0 := by omega
    simpa [dropPackets, setKind] using fd

lemma free_halved (hu : (v.conn d).task.linked = false) (zero : (v.conn d).fd ≠ 0)
    (hl : (v.conn d.peer).task.linked = true) : Halved (View.free v d) d.peer := by
  have hc := connFree_fd (v := v.note (.released v.id)) zero
  refine ⟨by rw [free_linked]; exact hl, ?_, by rw [free_linked, Dir.peer_peer]; exact hu, ?_⟩
  · simp only [View.free, hl, if_true]
    simp [setKind]
  · rw [Dir.peer_peer]
    simp only [View.free, hl, if_true]
    simpa using hc

lemma free_lives (hu : (v.conn d).task.linked = false) (zero : (v.conn d).fd ≠ 0)
    (hg : G (View.free v d)) : Lives P G (View.free v d) := by
  refine .inr ⟨hg, fun hi => ⟨d.peer, free_halved hu zero ?_⟩⟩
  rw [free_used] at hi
  simpa using (Bool.and_eq_true_iff.mp hi).2

section

variable (h : Serves P G limits)
include h

/-- Behind a step that succeeded. -/
lemma Serves.closeIfDone (hi : v.used = true) (hu : (v.conn d).task.linked = false)
    (zero : (v.conn d).fd ≠ 0) (hs : P v) : Lives P G (View.closeIfDone v d) := by
  unfold View.closeIfDone
  split
  · next hb =>
    refine free_lives hu zero (h.closed hs fun e => ?_)
    obtain ⟨own, hp⟩ := Bool.and_eq_true_iff.mp hb
    rcases d.sides e with rfl | rfl
    · exact own
    · exact hp
  · exact .inl ⟨hi, hs⟩

/-- Behind a send that failed. -/
lemma Serves.abandon (hu : (v.conn d).task.linked = false) (zero : (v.conn d).fd ≠ 0)
    (good : G (View.free v d)) : Lives P G (View.abandon v d) := by
  unfold View.abandon
  dsimp only
  split
  · next hi =>
    have hb := hi
    rw [free_used] at hb
    have hl : (v.conn d.peer).task.linked = true := (Bool.and_eq_true_iff.mp hb).2
    have hh := free_halved hu zero hl
    have hg : ((View.free v d).conn d).fd < 0 := by simpa using hh.closed
    unfold View.closeIfDone
    split
    · refine free_lives (by rw [free_linked]; exact hu) (by omega) (h.again good hi hg ?_)
      rw [free_linked]
      exact hl
    · exact .inr ⟨good, fun _ => ⟨d.peer, hh⟩⟩
  · next unused => exact .inr ⟨good, fun hi => absurd hi unused⟩

lemma Serves.runTask {io : TaskIO} (hs : P v) (sound : Sound v) (ok : limits.task v d io) :
    Lives P G (View.runTask io (taken v d) d) := by
  have hi : (taken v d).used = true := sound.used
  have hu : ((taken v d).conn d).task.linked = false := by simp [taken, setLinked]
  have zero : ((taken v d).conn d).fd ≠ 0 := by
    simpa [taken, setLinked] using sound.fd d
  have hk : ((taken v d).conn d).task.kind = (v.conn d).task.kind := by
    simp [taken, setLinked]
  unfold View.runTask
  split
  · next none => exact .inl ⟨hi, h.idle hs sound (hk.symm.trans none)⟩
  · next delete =>
    exact free_lives hu zero (h.delete hs sound (hk.symm.trans delete) ok)
  · next parse =>
    have hf := h.forward hs sound (hk.symm.trans parse) ok
    have he := h.parse hs sound (hk.symm.trans parse) ok
    obtain ⟨-, used1, peer1⟩ := forward_frame
      (v := (taken v d).mapSession (·.joinInput d)) (d := d.peer) io.forward
    rw [Dir.peer_peer] at peer1
    unfold View.runParse
    generalize View.forward io.forward ((taken v d).mapSession (·.joinInput d)) d.peer = r at *
    obtain ⟨ret, v1⟩ := r
    dsimp only at hf he used1 peer1 ⊢
    have unlinked1 : (v1.conn d).task.linked = false := by
      rw [peer1]
      simpa [Session.joinInput] using hu
    have zero1 : (v1.conn d).fd ≠ 0 := by
      rw [peer1]
      simpa [Session.joinInput] using zero
    split
    · next failed => exact free_lives unlinked1 zero1 (hf failed)
    · next fine =>
      have he := he (not_not.mp fine)
      obtain ⟨-, used2, frame2⟩ := send_frame (v := v1) (d := d.peer) io.send
      unfold relay
      generalize View.send io.send v1 d.peer = r at *
      obtain ⟨ret, v2⟩ := r
      dsimp only at he used2 frame2 ⊢
      have unlinked2 : (v2.conn d).task.linked = false := by rw [(frame2 d).2, unlinked1]
      have zero2 : (v2.conn d).fd ≠ 0 := by rw [(frame2 d).1]; exact zero1
      split
      · next failed => exact h.abandon unlinked2 zero2 (he.failed failed)
      · next sent =>
        exact h.closeIfDone (used2.trans (used1.trans hi)) unlinked2 zero2 (he.served (not_not.mp sent))
  · next send =>
    have he := h.send hs sound (hk.symm.trans send) ok
    obtain ⟨-, used1, frame1⟩ := send_frame (v := taken v d) (d := d) io.send
    unfold View.runSend
    generalize View.send io.send (taken v d) d = r at *
    obtain ⟨ret, v1⟩ := r
    dsimp only at he used1 frame1 ⊢
    have unlinked1 : (v1.conn d).task.linked = false := by rw [(frame1 d).2, hu]
    have zero1 : (v1.conn d).fd ≠ 0 := by rw [(frame1 d).1]; exact zero
    split
    · next failed => exact free_lives unlinked1 zero1 (he.failed failed)
    · next sent =>
      exact h.closeIfDone (used1.trans hi) unlinked1 zero1 (he.served (not_not.mp sent))

/-- The task of a session that is half released. -/
lemma Serves.runRest {io : TaskIO} {e : Dir} (hg : G v) (hs : v.used = true)
    (hh : Halved v e) (hl : (v.conn d).task.linked = true) :
    Lives P G (View.runTask io (taken v d) d) := by
  have he : d = e := by
    rcases e.sides d with rfl | rfl
    · rfl
    · rw [hh.peer] at hl
      cases hl
  subst he
  have hk : ((taken v d).conn d).task.kind = .delete := by
    simpa [taken, setLinked] using hh.kind
  have hp : ((taken v d).conn d.peer).task.linked = false := by
    simpa [taken] using hh.peer
  simp only [View.runTask, hk]
  refine .inr ⟨h.rest hg hs hh, fun hi => ?_⟩
  rw [free_used, hp] at hi
  simp at hi

lemma Serves.kept : Kept (Lives P G) limits where
  start unused zero empty := .inr ⟨h.start unused zero empty, fun hi => by simp [unused] at hi⟩
  deliver {v d bytes fin} lives sound ho notFin := by
    rcases lives with ⟨hi, hs⟩ | ⟨hg, hha⟩
    · exact .inl ⟨hi, h.deliver hs sound ho notFin⟩
    · refine .inr ⟨h.late hg, fun hi => ?_⟩
      obtain ⟨e, hh⟩ := hha hi
      have he : ∀ e', ((v.mapConn d (·.deliver bytes fin)).conn e').task = (v.conn e').task ∧
          ((v.mapConn d (·.deliver bytes fin)).conn e').fd = (v.conn e').fd := by
        intro e'
        rcases d.sides e' with rfl | rfl <;> simp [Connection.deliver]
      exact ⟨e, by rw [(he e).1]; exact hh.linked, by rw [(he e).1]; exact hh.kind,
        by rw [(he e.peer).1]; exact hh.peer, by rw [(he e.peer).2]; exact hh.closed⟩
  accept lives unused pos := by
    rcases lives with ⟨hi, -⟩ | ⟨hg, -⟩
    · simp [unused] at hi
    · exact .inl ⟨rfl, h.accept hg unused pos⟩
  refuse lives unused refuses := by
    rcases lives with ⟨hi, -⟩ | ⟨hg, -⟩
    · simp [unused] at hi
    · refine .inr ⟨h.refuse hg unused refuses, fun hi => ?_⟩
      simp [refuses.used] at hi
  call {v d cb io events} lives hc ok := by
    rcases lives with ⟨hi, hs⟩ | ⟨-, hha⟩
    · exact .inl ⟨(call_frame).2.trans hi, h.call hs hc ok⟩
    · obtain ⟨e, hh⟩ := hha hc.used
      rcases e.sides d with rfl | rfl
      · have hl := hh.linked
        rw [hc.unlinked] at hl
        cases hl
      · exact absurd hc.opened (by have := hh.closed; omega)
  task {v d io} lives sound hl ok := by
    rcases lives with ⟨hi, hs⟩ | ⟨hg, hha⟩
    · exact h.runTask hs sound ok
    · obtain ⟨e, hh⟩ := hha sound.used
      exact h.runRest hg sound.used hh hl
  free {v} lives sound hu ok := by
    rcases lives with ⟨hi, hs⟩ | ⟨hg, hha⟩
    · exact free_lives (hu .client) (sound.fd .client) (h.free hs sound ok)
    · obtain ⟨e, hh⟩ := hha sound.used
      have hl := hh.linked
      rw [hu e] at hl
      cases hl

end

/-- At the end of a round no session is half released. -/
lemma lives_idle {w : Worker} {s : Nat} (sane : Sane w) (idle : w.phase = .idle)
    (hi : w.used s = true) (hl : Lives P G (view w s)) : P (view w s) := by
  rcases hl with ⟨-, hs⟩ | ⟨-, hha⟩
  · exact hs
  · obtain ⟨d, hh⟩ := hha hi
    have linked : (w.conn s d).task.linked = true := hh.linked
    rw [idle_unlinked sane idle s d] at linked
    cases linked

/-! ## Rounds with one client

The pieces of the runs that later modules show: descriptor 3 is the listener's, 4 the
client's and 5 the server's; session 0 serves them. -/

def emptyWorker : Worker := .start 16 1 fun _ => false

/-- Nothing fails, and every send takes all it is offered. -/
def willing : CallbackIO where
  recv := .last ⟨true, .err .eagain, ⟨.zero, false, false⟩⟩
  send _ := ⟨.sent maxPktLen, ⟨false, .sent maxPktLen⟩⟩
  handshake := ⟨true, some .none⟩
  shutdown := ⟨some .none, true⟩
  accept _ := ⟨some 4, false, some 0, true, true, true⟩

/-- The next `n` bytes are received. -/
def receives (n : Nat) : CallbackIO :=
  { willing with recv := .last ⟨true, .data n, ⟨.zero, false, false⟩⟩ }

/-- The server is dialled, with SSL or without; every send takes `n` bytes. -/
def relays (usesSsl wait : Bool) (n : Nat) : TaskIO where
  forward := ⟨true, some usesSsl, true, some 5, some (5, wait), true⟩
  send _ := ⟨.sent n, ⟨false, .sent n⟩⟩

/-- Events of one poll, with the answers their callbacks get. -/
def polls (events : List ((Nat × Mask) × CallbackIO)) : List Action :=
  .poll (fun _ => true) (events.map Prod.fst) :: (events.map fun e => .dispatch e.2) ++ [.drain]

/-- A policy is added and its first client accepted. -/
def acceptRound (mode : PolicyMode) (ssl : Bool) : List Action :=
  .addPolicy ⟨0, mode, ssl, 0, some 3⟩ :: polls [((3, epollIn), willing)]

/-- A plain client sends two bytes, and they are relayed to a plain server. -/
def plainExchange : List Action :=
  acceptRound .reverse false ++ .deliver 0 .client [7, 9] false ::
    polls [((4, epollIn), receives 2)] ++ [.runTask (relays false false maxPktLen)]

end Fzsvn.Guarantees.Proxy.ViewRule
