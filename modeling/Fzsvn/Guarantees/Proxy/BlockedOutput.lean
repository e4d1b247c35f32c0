import Fzsvn.Guarantees.Proxy.ViewRule

/-!
# Who waits for a blocked output

A connection whose `send` took only a part of its output is blocked: its descriptor waits
for writability and that of the peer for nothing, until the output is drained and both
sides are read again. Each transition writes the requests of both sides. So a connection
that blocks while its peer is blocked takes the peer's request away, and the peer's output
is forgotten (`output_forgotten`). As long as no send is short while the peer is blocked,
every blocked output is waited for at the end of every round
(`blocked_output_waited`).
-/
namespace Fzsvn.Guarantees.Proxy.BlockedOutput
open Library.Exec Source.Proxy WorkerInvariant SendStep SessionView CallbackViews TaskViews ViewRule

/-- Every connection with `CONN_F_BLOCKED` requests `FD_OUT` with `conn_send_data`. -/
def OutputWaited (w : Worker) : Prop :=
  ∀ s d, w.used s = true → (w.conn s d).flags.blocked = true →
    ∃ fd : Nat, (w.conn s d).fd = fd ∧ (w.item fd).events.has fdOut = true ∧
      (w.item fd).iocb = some .connSendData

/-- While its peer is blocked, no send of a connection is short. The pending output of a
parse task is `out` of the peer, what is staged for it and what was received. -/
def oneAtATime : Limits where
  call v d cb io _ := cb = .connSendData → (v.conn d.peer).flags.blocked = true →
    .short ∉ sendResults (v.conn d).ssl.isSome io.send (v.conn d).output
  task v d io :=
    ((v.conn d).task.kind = .send → (v.conn d.peer).flags.blocked = true →
      .short ∉ sendResults (v.conn d).ssl.isSome io.send (v.conn d).output) ∧
    ((v.conn d).task.kind = .parse → (v.conn d).flags.blocked = true →
      .short ∉ sendResults (v.conn d.peer).ssl.isSome io.send (View.pending v d))
  free _ := True

instance (v : View) (d : Dir) (cb : Callback) (io : CallbackIO) (events : Mask) :
    Decidable (oneAtATime.call v d cb io events) := inferInstanceAs (Decidable (_ → _ → _))

instance (v : View) (d : Dir) (io : TaskIO) : Decidable (oneAtATime.task v d io) :=
  inferInstanceAs (Decidable ((_ → _ → _) ∧ (_ → _ → _)))

instance (v : View) : Decidable (oneAtATime.free v) := isTrue trivial

lemma sendLoop_notBlocked {ios : Nat → SendIO} {c : Connection}
    (hw : .short ∉ sendResults c.ssl.isSome ios c.output) : (sendLoop ios c).exit ≠ .blocked := by
  intro hb
  have hs := sendLoop_results ios c
  rw [hb] at hs
  exact hw hs

/-! ## The invariant -/

/-- At most one side is blocked; it waits for writability, and both sides are open. -/
def Waits (v : View) : Prop :=
  ∀ d, (v.conn d).flags.blocked = true → (v.conn d.peer).flags.blocked = false ∧
    v.request d = some ⟨fdOut, some .connSendData⟩ ∧ (v.request d.peer).isSome = true

variable {v v' : View} {d : Dir}

/-- What is written to the session alone is not seen. -/
lemma waits_congr (waits : Waits v) (hr : v'.request = v.request)
    (hb : ∀ e, (v'.conn e).flags.blocked = (v.conn e).flags.blocked) : Waits v' := by
  intro e h
  rw [hb] at h
  rw [hb, hr]
  exact waits e h

lemma waits_unblocked (hb : ∀ e, (v.conn e).flags.blocked = false) : Waits v := by
  intro e h
  rw [hb] at h
  cases h

section

variable (waits : Waits v)
include waits

/-- A connection that is not blocked may change its own request. -/
lemma own_waits (own : Own d v v') (hf : (v.conn d).flags.blocked = false) : Waits v' := by
  intro e h
  rcases d.sides e with rfl | rfl
  · rw [own.blocked, hf] at h
    cases h
  · rw [own.peer] at h
    obtain ⟨-, hr, ha⟩ := waits d.peer h
    rw [Dir.peer_peer] at ha ⊢
    exact ⟨own.blocked.trans hf, own.request.trans hr, own.asked ha⟩

/-- The callback that is requested says whether the connection is blocked. -/
lemma unblocked_of_requested {events : Mask} {cb : Callback}
    (hr : v.request d = some ⟨events, some cb⟩) (ho : cb ≠ .connSendData) :
    (v.conn d).flags.blocked = false := by
  cases hb : (v.conn d).flags.blocked with
  | false => rfl
  | true =>
    have he := (waits d hb).2.1
    rw [hr] at he
    simp only [Option.some.injEq, Request.mk.injEq] at he
    exact absurd he.2 ho

lemma sendBlock_waits (hf : (v.conn d.peer).flags.blocked = false) : Waits (View.sendBlock v d) := by
  unfold View.sendBlock
  split
  · exact waits
  · intro e h
    rcases d.sides e with rfl | rfl
    · have hf' : (v.session.conns e.peer).flags.blocked = false := hf
      simp [hf']
    · simp [hf] at h

/-- Reading is resumed on both sides, neither of which is blocked any more. -/
lemma sendUnblock_waits :
    Waits (View.sendUnblock v d) ∧ ((View.sendUnblock v d).conn d).flags.blocked = false := by
  unfold View.sendUnblock
  split
  · next free => exact ⟨waits, free⟩
  · next hb =>
    have hp : (v.session.conns d.peer).flags.blocked = false :=
      (waits d (by simpa using hb)).1
    refine ⟨waits_unblocked fun e => ?_, by simp⟩
    rcases d.sides e with rfl | rfl <;> simp [hp]

end

lemma sendShut_own : Own d v (View.sendShut v d) := by
  unfold View.sendShut
  split
  · exact own_refl v d
  · split
    · exact own_trans (own_mapFlags rfl) own_ask
    · exact own_mapConn rfl rfl

section

variable (waits : Waits v)
include waits

lemma sendData_waits {ios : Nat → SendIO} {events : Mask}
    (hw : (v.conn d.peer).flags.blocked = true → (sendLoop ios (v.conn d)).exit ≠ .blocked) :
    Waits (View.sendData ios events v d).2 := by
  unfold View.sendData
  split
  · exact waits
  have hl : Waits (View.sendLooped ios v d) :=
    waits_congr waits (sendLooped_request ios) fun e => by rw [(sendLooped_frame ios e).2.2]
  have peer : ((View.sendLooped ios v d).conn d.peer).flags.blocked =
      (v.conn d.peer).flags.blocked := by rw [(sendLooped_frame ios d.peer).2.2]
  dsimp only
  split
  · -- a failed send touches no request
    refine waits_congr hl ?_ fun e => ?_
    · unfold View.sendErr View.queue
      dsimp only
      repeat' split
      all_goals rfl
    · unfold View.sendErr View.queue
      rcases d.sides e with rfl | rfl <;> dsimp only <;> repeat' split
      all_goals simp [setKind, setLinked]
  · next blocks =>
    refine sendBlock_waits hl ?_
    rw [peer]
    cases hb : (v.conn d.peer).flags.blocked with
    | false => rfl
    | true => exact absurd blocks (hw hb)
  · obtain ⟨unblocked, free⟩ := sendUnblock_waits (d := d) hl
    exact own_waits unblocked sendShut_own free

lemma send_waits {ios : Nat → SendIO}
    (hw : (v.conn d.peer).flags.blocked = true → (sendLoop ios (v.conn d)).exit ≠ .blocked) :
    Waits (View.send ios v d).2 := by
  unfold View.send
  split
  · exact waits
  · exact sendData_waits waits hw

lemma joined_waits : Waits (View.joined v d) := by
  refine waits_congr waits rfl fun e => ?_
  rcases d.sides e with rfl | rfl
  · rw [joined_conn]
    rfl
  · rw [joined_peer]

lemma forward_waits {io : TaskIO} (hs : Sound v)
    (hw : (v.conn d).flags.blocked = true → .short ∉ sendResults (v.conn d.peer).ssl.isSome io.send (View.pending v d))
    (hf : (View.forwarded io.forward v d).1 = 0) : Waits (View.send io.send
      (View.forwarded io.forward v d).2 d.peer).2 := by
  obtain ⟨mode, hp⟩ := forwarded_policy hf
  by_cases ho : (v.conn d.peer).fd > 0
  · rw [forward_connected io.forward ho hp]
    refine send_waits (joined_waits waits) fun hb => sendLoop_notBlocked ?_
    rw [Dir.peer_peer, joined_conn] at hb
    rw [joined_peer]
    exact hw hb
  · -- a connection that is dialled has no blocked peer, and is not blocked itself
    have hu : v.request d.peer = none := by
      simpa [ho] using hs.request d.peer
    have own : (v.conn d).flags.blocked = false := by
      cases hb : (v.conn d).flags.blocked with
      | false => rfl
      | true => simpa [hu] using (waits d hb).2.2
    have peer : (v.conn d.peer).flags.blocked = false := by
      cases hb : (v.conn d.peer).flags.blocked with
      | false => rfl
      | true => simpa [hu] using (waits d.peer hb).2.1
    rw [forward_dials io.forward ho hp]
    have hd := dial_redials (v := View.joined v d) (d := d.peer) io.forward mode
    have untouched := hd.peer
    rw [Dir.peer_peer] at untouched
    have free : ∀ e, ((View.dial io.forward mode (View.joined v d) d.peer).2.conn e).flags.blocked =
        false := by
      intro e
      rcases d.sides e with rfl | rfl
      · rw [untouched, joined_conn]
        exact own
      · rw [hd.flags, joined_peer]
        exact peer
    refine send_waits (waits_unblocked free) fun hb => ?_
    rw [free] at hb
    cases hb

lemma call_waits {cb : Callback} {io : CallbackIO} {events : Mask} (hc : Called v d cb events)
    (ok : oneAtATime.call v d cb io events) : Waits (View.call io cb events v d) := by
  obtain ⟨e, hr⟩ := hc.requested
  have hf := fun ho => unblocked_of_requested (d := d) waits hr ho
  cases cb with
  | connRecvData => exact own_waits waits recvData_moves.own (hf (by simp))
  | connSendData =>
    exact sendData_waits waits fun hb => sendLoop_notBlocked (ok rfl hb)
  | connHandshake => exact own_waits waits handshake_moves.own (hf (by simp))
  | connShutdown => exact own_waits waits shutdown_moves.own (hf (by simp))
  | listenerAccept => exact waits

lemma taken_waits : Waits (View.taken v d) := by
  refine waits_congr waits rfl fun e => ?_
  rcases d.sides e with rfl | rfl
  · rw [taken_conn]
    rfl
  · rw [taken_peer]

end

lemma oneAtATime_serves : Serves Waits (fun _ => True) oneAtATime where
  start _ _ _ := trivial
  accept _ _ _ := waits_unblocked fun e => by cases e <;> rfl
  refuse _ _ _ := trivial
  deliver {v d bytes fin} waits _ _ _ := waits_congr waits rfl fun e => by
    rcases d.sides e with rfl | rfl <;> simp [Connection.deliver]
  late _ := trivial
  call waits := call_waits waits
  idle waits _ _ := taken_waits waits
  delete _ _ _ _ := trivial
  forward _ _ _ _ _ := trivial
  parse {v d io} waits hs hk ok forwarded := by
    exact ⟨fun _ => trivial, fun _ => forward_waits waits hs (ok.2 hk) forwarded⟩
  send {v d io} waits hs hk ok := by
    refine ⟨fun _ => trivial, fun _ => send_waits (taken_waits waits) fun hb =>
      sendLoop_notBlocked ?_⟩
    rw [taken_peer] at hb
    rw [taken_conn]
    exact ok.1 hk hb
  closed _ _ := trivial
  free _ _ _ := trivial
  rest _ _ _ := trivial
  again _ _ _ _ := trivial

/-! ## Every round -/

lemma outputWaited_of_views {w : Worker} (hs : Sane w) (idle : w.phase = .idle)
    (hl : ∀ s, Lives Waits (fun _ => True) (view w s)) : OutputWaited w := by
  intro s d hi hb
  have waits := lives_idle hs idle hi (hl s)
  have hr : requestOf w s d = some ⟨fdOut, some .connSendData⟩ := (waits d hb).2.1
  unfold requestOf at hr
  split at hr
  · next live =>
    refine ⟨(w.conn s d).fd.toNat, (Int.toNat_of_nonneg (Int.le_of_lt live.2)).symm, ?_⟩
    simp only [Option.some.injEq, Request.mk.injEq] at hr
    exact ⟨by rw [hr.1]; decide, hr.2⟩
  · cases hr

/-- As long as no send is short while the peer of its connection is blocked, every blocked
output is waited for at the end of every round. -/
theorem blocked_output_waited (maxfd naccept : Nat) (opened : Nat → Bool) {actions : List Action}
    (along : Along workerStep oneAtATime.allow actions (Worker.start maxfd naccept opened)) :
    Ensures (runWorker actions) (Worker.start maxfd naccept opened)
      (fun _ w => w.phase = .idle → OutputWaited w) (fun _ _ => True) :=
  (oneAtATime_serves.kept.run maxfd naccept opened along).imp_true
    (fun _ _ h hi => outputWaited_of_views h.1 hi h.2)

/-- The server takes one of the two bytes it is sent; its output is drained in the next
round. -/
def serverBlocked : List Action :=
  plainExchange ++ .deliver 0 .client [1, 2] false :: polls [((4, epollIn), receives 2)] ++
    .runTask (relays false false 1) :: polls [((5, epollOut), willing)]

theorem blocked_output_waited_serverBlocked :
    Along workerStep oneAtATime.allow serverBlocked (Worker.start 16 1 fun _ => false) ∧
    Ensures (runWorker serverBlocked) (Worker.start 16 1 fun _ => false)
      (fun _ w => w.phase = .idle → OutputWaited w) (fun _ _ => True) :=
  ⟨by decide +kernel, blocked_output_waited 16 1 (fun _ => false) (by decide +kernel)⟩

/-- Client and server both send, and both take one byte only: the two directions block in
one round. -/
def bothBlocked : List Action :=
  plainExchange ++ [.deliver 0 .client [1, 2] false, .deliver 0 .server [3, 4] false] ++
    polls [((4, epollIn), receives 2), ((5, epollIn), receives 2)] ++
    [.runTask (relays false false 1), .runTask (relays false false 1)]

theorem output_forgotten : Ensures (runWorker bothBlocked) emptyWorker
      (fun _ w => w.phase = .idle ∧ ¬ OutputWaited w) (fun _ _ => False) := by
  have he : Ensures (runWorker bothBlocked) emptyWorker
      (fun _ w => w.phase = .idle ∧ w.used 0 = true ∧ (w.conn 0 .server).flags.blocked = true ∧
        (w.conn 0 .server).fd = 5 ∧ (w.item 5).iocb = none) (fun _ _ => False) := by
    decide +kernel
  refine he.imp (fun _ w h => ?_)
  obtain ⟨hi, inUse, hb, fd, iocb⟩ := h
  refine ⟨hi, fun hw => ?_⟩
  obtain ⟨i, fd', -, hi'⟩ := hw 0 .server inUse hb
  have hs : i = 5 := by omega
  rw [hs, iocb] at hi'
  cases hi'

end Fzsvn.Guarantees.Proxy.BlockedOutput
