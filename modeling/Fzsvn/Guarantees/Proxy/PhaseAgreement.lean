import Fzsvn.Guarantees.Proxy.ViewRule

/-!
# The requested callback and the phase of a connection

The callback requested for a descriptor should say what the connection is doing:
`conn_handshake` during a handshake, `conn_shutdown` during an SSL shutdown and
`conn_recv_data` only while nothing of the kind is going on. Three transitions break this.
A connection that was blocked and has sent everything requests `conn_recv_data` for both
sides, whatever their flags (`drained_after_half_close`); an SSL shutdown that has to wait
requests `conn_handshake`; and a handshake that ends on a connection which is shutting down
goes on to `conn_recv_data`. In runs without them callback and phase agree at the end of
every round (`callbacks_agree`).
-/
namespace Fzsvn.Guarantees.Proxy.PhaseAgreement
open Library.Exec Source.Proxy Lifecycle WorkerInvariant SendStep SessionView CallbackViews
open TaskViews ViewRule Session

/-- No handshake, no SSL shutdown, and the remote end may still send. -/
def settled (f : ConnFlags) : Bool := !f.hsk && !f.sslHsk && !f.sslShut && !f.shutRd

/-- What the callback `cb` says about the phase. -/
def Fits (cb : Callback) (f : ConnFlags) : Prop :=
  (cb = .connHandshake → f.hsk = true ∨ f.sslHsk = true) ∧
    (cb = .connShutdown → f.sslShut = true) ∧
    (cb = .connRecvData → settled f = true)

/-- For every open connection the requested callback fits the flags. -/
def CallbacksAgree (w : Worker) : Prop :=
  ∀ s d (fd : Nat) cb, w.used s = true → (w.conn s d).fd = fd → (w.item fd).iocb = some cb →
    Fits cb (w.conn s d).flags

/-! ## The transitions that break it -/

/-- The output of a blocked connection is not drained while one of the two sides is not
settled. -/
def Resumes (v : View) (d : Dir) (ios : Nat → SendIO) (packets : List Packet) : Prop :=
  (v.conn d).flags.blocked = true → handshaking (v.conn d) = false →
    (∀ r ∈ sendResults (v.conn d).ssl.isSome ios packets, r = .full) →
    ∀ e, settled (v.conn e).flags = true

instance (v : View) (d : Dir) (ios : Nat → SendIO) (packets : List Packet) :
    Decidable (Resumes v d ios packets) :=
  inferInstanceAs (Decidable (_ → _ → _ → ∀ e, settled (v.conn e).flags = true))

def undisturbed : Limits where
  call v d cb io events :=
    (cb = .connSendData → Resumes v d io.send (v.conn d).output) ∧
    (cb = .connHandshake → events.has (epollErr ||| epollRdHup) = false →
      (v.conn d).flags.shutRd = false ∧ (v.conn d).flags.sslShut = false) ∧
    (cb = .connShutdown → events.has epollErr = false → (v.conn d).flags.sslShut = true →
      ∀ wait ∈ io.shutdown.ssl, waitEvent wait events ≠ 0#32 → handshaking (v.conn d) = true)
  task v d io :=
    ((v.conn d).task.kind = .send → Resumes v d io.send (v.conn d).output) ∧
    ((v.conn d).task.kind = .parse → Resumes v d.peer io.send (View.pending v d))
  free _ := True

instance (v : View) (d : Dir) (cb : Callback) (io : CallbackIO) (events : Mask) :
    Decidable (undisturbed.call v d cb io events) :=
  inferInstanceAs (Decidable ((_ → _) ∧ (_ → _ → _) ∧
    (_ → _ → _ → ∀ wait ∈ io.shutdown.ssl, waitEvent wait events ≠ 0#32 → _)))

instance (v : View) (d : Dir) (io : TaskIO) : Decidable (undisturbed.task v d io) :=
  inferInstanceAs (Decidable ((_ → _) ∧ (_ → _)))

instance (v : View) : Decidable (undisturbed.free v) := isTrue trivial

/-! ## The invariant -/

/-- A connection that is not open has nothing to do yet. -/
def Agrees (request : Option Request) (f : ConnFlags) : Prop :=
  match request with
  | none => settled f = true ∧ f.blocked = false
  | some r => ∀ cb, r.iocb = some cb → Fits cb f

def InPhase (v : View) : Prop := ∀ d, Agrees (v.request d) (v.conn d).flags

/-- One of the two directions. -/
@[simp]
abbrev AgreesAt (v : View) (d : Dir) : Prop := Agrees (v.request d) (v.conn d).flags

variable {events : Mask}

variable {f : ConnFlags}

lemma settled_iff : settled f = true ↔
    f.hsk = false ∧ f.sslHsk = false ∧ f.sslShut = false ∧ f.shutRd = false := by
  simp [settled, and_assoc]

lemma fits_handshake (h : f.hsk = true ∨ f.sslHsk = true) : Fits .connHandshake f :=
  ⟨fun _ => h, fun no => (by cases no), fun no => (by cases no)⟩

lemma fits_shutdown (h : f.sslShut = true) : Fits .connShutdown f :=
  ⟨fun no => (by cases no), fun _ => h, fun no => (by cases no)⟩

lemma fits_recv (h : settled f = true) : Fits .connRecvData f :=
  ⟨fun no => (by cases no), fun no => (by cases no), fun _ => h⟩

lemma fits_send : Fits .connSendData f :=
  ⟨fun no => (by cases no), fun no => (by cases no), fun no => (by cases no)⟩

lemma agrees_some {cb : Callback} (hf : Fits cb f) : Agrees (some ⟨events, some cb⟩) f := by
  intro cb' he
  cases he
  exact hf

lemma agrees_nothing : Agrees (some ⟨events, none⟩) f := by
  intro cb no
  cases no

/-- The other flags do not matter. -/
lemma agrees_congr {request : Option Request} {g : ConnFlags} (ha : Agrees request f)
    (hsk : g.hsk = f.hsk) (sslHsk : g.sslHsk = f.sslHsk) (sslShut : g.sslShut = f.sslShut)
    (hs : g.shutRd = f.shutRd) (hb : g.blocked = f.blocked) : Agrees request g := by
  have he : settled g = settled f := by simp [settled, hsk, sslHsk, sslShut, hs]
  unfold Agrees Fits at *
  rw [he, hb, hsk, sslHsk, sslShut]
  exact ha

variable {v v' : View} {d : Dir}

/-- What a callback does to its own connection. -/
lemma own_inPhase (inPhase : InPhase v) (own : Own d v v') (ha : AgreesAt v' d) : InPhase v' := by
  intro e
  rcases d.sides e with rfl | rfl
  · exact ha
  · rw [own.request, own.peer]
    exact inPhase d.peer

lemma queue_agrees {kind : TaskKind} (ha : AgreesAt v d) : AgreesAt (v.queue d kind) d := by
  unfold View.queue
  dsimp only
  split <;> simpa [setKind, setLinked] using ha

lemma error_agrees (ha : AgreesAt v d) : AgreesAt (v.mapFlags d ({ · with error := true })) d := by
  have error : Agrees (v.request d) { (v.conn d).flags with error := true } :=
    agrees_congr ha rfl rfl rfl rfl rfl
  simpa using error

lemma takeSlot_flags {alloc : Bool} : ((View.takeSlot alloc v d).2.conn d).flags = (v.conn d).flags ∧
      (View.takeSlot alloc v d).2.request = v.request := by
  unfold View.takeSlot
  repeat' split
  all_goals simp [allocPacket]

lemma recvTrim_flags {i : Nat} : ((View.recvTrim v d i).conn d).flags = (v.conn d).flags ∧
      (View.recvTrim v d i).request = v.request := by
  unfold View.recvTrim
  split <;> simp [freePacket]

/-- A renegotiation requests the handshake, whatever was going on. -/
lemma recvHandshake_agrees {raw : RawRecv} (ha : AgreesAt v d) :
    AgreesAt (View.recvHandshake raw v d) d := by
  unfold View.recvHandshake
  split
  · exact ha
  · simpa using agrees_some (fits_handshake (.inr rfl))

lemma recvClose_agrees {raw : RawRecv} {i : Nat}
    (ha : AgreesAt v d) : AgreesAt (View.recvClose raw events v d i) d := by
  unfold View.recvClose
  split
  · exact ha
  · rw [AgreesAt, (recvTrim_flags).1, (recvTrim_flags).2]
    unfold View.recvCloseEvent
    split
    · simpa using agrees_some (fits_shutdown rfl)
    · simpa using agrees_nothing

lemma recvPass_agrees (io : RecvIO) (events : Mask) (ha : AgreesAt v d) :
    AgreesAt (View.recvPass io events v d).2 d := by
  obtain ⟨hf, hr⟩ := takeSlot_flags (v := v) (d := d)
  unfold View.recvPass
  split
  · next h =>
    rw [h] at hf hr
    rw [AgreesAt, hf, hr]
    exact ha
  next i v1 h =>
  rw [h] at hf hr
  dsimp only at hf hr
  rw [AgreesAt, ← hf, ← hr] at ha
  unfold View.recvInto
  split
  · exact ha
  · dsimp only
    split
    · exact error_agrees (by simpa using ha)
    · refine recvClose_agrees (recvHandshake_agrees ?_)
      simpa [storeBytes] using ha

lemma recvLoop_agrees (io : RecvRun) (events : Mask) (ha : AgreesAt v d) :
    AgreesAt (View.recvLoop events d io v).2 d := by
  induction io generalizing v with
  | last io => exact recvPass_agrees io events ha
  | pending io rest ih =>
    have hf := recvPass_agrees io events ha
    unfold View.recvLoop
    split
    · next h =>
      rw [h] at hf
      exact hf
    · next h =>
      rw [h] at hf
      split
      · exact ih hf
      · exact hf

lemma recvData_inPhase (inPhase : InPhase v) {io : RecvRun} : InPhase (View.recvData io events v d) := by
  refine own_inPhase inPhase recvData_moves.own ?_
  have hl := recvLoop_agrees (d := d) io events (inPhase d)
  unfold View.recvData
  split
  · exact queue_agrees (error_agrees (inPhase d))
  · split
    · next h =>
      rw [h] at hl
      exact queue_agrees hl
    · next h =>
      rw [h] at hl
      exact queue_agrees hl

section

variable (inPhase : InPhase v)
include inPhase

lemma inPhase_congr (hr : v'.request = v.request)
    (hf : ∀ e, (v'.conn e).flags = (v.conn e).flags) : InPhase v' := by
  intro e
  rw [hr, hf]
  exact inPhase e

lemma sendBlock_inPhase : InPhase (View.sendBlock v d) := by
  unfold View.sendBlock
  split
  · exact inPhase
  · intro e
    rcases d.sides e with rfl | rfl
    · simpa using agrees_some fits_send
    · simpa using agrees_nothing

lemma sendUnblock_inPhase
    (hr : (v.conn d).flags.blocked = true → ∀ e, settled (v.conn e).flags = true) :
    InPhase (View.sendUnblock v d) := by
  unfold View.sendUnblock
  split
  · exact inPhase
  · next blocked =>
    have ready := hr (by simpa using blocked)
    intro e
    rcases d.sides e with rfl | rfl
    · simpa using agrees_some (fits_recv (f := { (v.conn e).flags with blocked := false }) (ready e))
    · simpa using agrees_some (fits_recv (ready d.peer))

lemma sendShut_inPhase : InPhase (View.sendShut v d) := by
  unfold View.sendShut
  split
  · exact inPhase
  · split
    · refine own_inPhase inPhase (own_trans (own_mapFlags rfl) own_ask) ?_
      simpa using agrees_some (fits_shutdown rfl)
    · refine own_inPhase inPhase (own_mapConn rfl rfl) ?_
      have cut : Agrees (v.request d) { (v.conn d).flags with shutWr := true } :=
        agrees_congr (inPhase d) rfl rfl rfl rfl rfl
      simpa [cutBy] using cut

lemma sendErr_inPhase : InPhase (View.sendErr events (v.mapFlags d ({ · with error := true })) d) := by
  have error := error_agrees (inPhase d)
  have own : Own d v (v.mapFlags d ({ · with error := true })) := own_mapFlags rfl
  unfold View.sendErr
  split
  · exact own_inPhase inPhase own error
  · refine own_inPhase inPhase (own_trans own queue_moves.own) ?_
    exact queue_agrees error

lemma sendData_inPhase {ios : Nat → SendIO}
    (hr : Resumes v d ios (v.conn d).output) : InPhase (View.sendData ios events v d).2 := by
  unfold View.sendData
  split
  · exact inPhase
  next ready =>
  have hl : InPhase (View.sendLooped ios v d) :=
    inPhase_congr inPhase (sendLooped_request ios) fun e => (sendLooped_frame ios e).2.2
  have results := sendLoop_results ios (v.conn d)
  dsimp only
  split
  · exact sendErr_inPhase hl
  · exact sendBlock_inPhase hl
  · next drained =>
    rw [drained] at results
    refine sendShut_inPhase (sendUnblock_inPhase hl fun hb e => ?_)
    rw [(sendLooped_frame ios d).2.2] at hb
    rw [(sendLooped_frame ios e).2.2]
    exact hr hb (by simpa using ready) results e

lemma send_inPhase {ios : Nat → SendIO} (hr : Resumes v d ios (v.conn d).output)
    : InPhase (View.send ios v d).2 := by
  unfold View.send
  split
  · exact inPhase
  · exact sendData_inPhase inPhase hr

end

variable {e : Mask}

lemma handshakeDone_agrees (hr : settled (v.conn d).flags = true) :
    AgreesAt (View.handshakeDone v d) d := by
  unfold View.handshakeDone
  exact queue_agrees (by simpa using agrees_some (fits_recv hr))

lemma waitFor_request {wait : SslWait} : (View.waitFor wait events v d).request d = v.request d ∨
      waitEvent wait events ≠ 0#32 ∧
      (View.waitFor wait events v d).request d = some ⟨waitEvent wait events, some .connHandshake⟩ := by
  unfold View.waitFor
  split
  · exact .inl rfl
  · next some => exact .inr ⟨some, by simp⟩

lemma sslHandshake_agrees {io : HandshakeIO}
    (hr : v.request d = some ⟨e, some .connHandshake⟩) (hsk : (v.conn d).flags.hsk = false)
    (hs : (v.conn d).flags.shutRd = false) (sslShut : (v.conn d).flags.sslShut = false) :
    AgreesAt (View.sslHandshake io events v d) d := by
  unfold View.sslHandshake
  split
  · next done => exact handshakeDone_agrees (settled_iff.mpr ⟨hsk, done, sslShut, hs⟩)
  next busy =>
  have sslHsk : (v.conn d).flags.sslHsk = true := by simpa using busy
  have hh : ∀ events, Agrees (some ⟨events, some .connHandshake⟩) (v.conn d).flags :=
    fun _ => agrees_some (fits_handshake (.inr sslHsk))
  split
  · next wait _ _ =>
    obtain ⟨-, -, session⟩ := waitFor_frame (v := v.useSsl d) (d := d) events wait
    dsimp only
    split
    · refine handshakeDone_agrees (settled_iff.mpr ?_)
      simpa [session] using ⟨hsk, sslShut, hs⟩
    · have hf : ((View.waitFor wait events (v.useSsl d) d).conn d).flags = (v.conn d).flags := by
        simp [session]
      rw [AgreesAt, hf]
      rcases waitFor_request (v := v.useSsl d) (d := d) with he | ⟨-, ha⟩
      · rw [he, useSsl_request, hr]
        exact hh e
      · rw [ha]
        exact hh _
  · exact queue_agrees (by simpa [hr] using hh e)

lemma handshake_inPhase (inPhase : InPhase v) {io : HandshakeIO}
    (hr : v.request d = some ⟨e, some .connHandshake⟩)
    (hc : events.has (epollErr ||| epollRdHup) = false →
      (v.conn d).flags.shutRd = false ∧ (v.conn d).flags.sslShut = false) :
    InPhase (View.handshake io events v d) := by
  refine own_inPhase inPhase handshake_moves.own ?_
  unfold View.handshake
  split
  · exact queue_agrees (inPhase d)
  next noErr =>
  obtain ⟨hs, sslShut⟩ := hc (by simpa using noErr)
  split
  · next idle => exact sslHandshake_agrees hr idle hs sslShut
  split
  · exact queue_agrees (error_agrees (inPhase d))
  · exact sslHandshake_agrees (v := v.mapFlags d _) hr (by simp) (by simpa using hs)
      (by simpa using sslShut)

lemma shutdown_inPhase (inPhase : InPhase v) {io : ShutdownIO}
    (hc : events.has epollErr = false → (v.conn d).flags.sslShut = true →
      ∀ wait ∈ io.ssl, waitEvent wait events ≠ 0#32 → handshaking (v.conn d) = true) :
    InPhase (View.shutdown io events v d) := by
  refine own_inPhase inPhase shutdown_moves.own ?_
  unfold View.shutdown
  split
  · exact queue_agrees (inPhase d)
  next noErr =>
  split
  · simpa using agrees_nothing
  next shutting =>
  have hc := hc (by simpa using noErr) (by simpa using shutting)
  split
  · next wait _ answer =>
    obtain ⟨-, -, session⟩ := waitFor_frame (v := v.useSsl d) (d := d) events wait
    have hw : AgreesAt (View.waitFor wait events (v.useSsl d) d) d := by
      have hf : ((View.waitFor wait events (v.useSsl d) d).conn d).flags = (v.conn d).flags := by
        simp [session]
      rw [AgreesAt, hf]
      rcases waitFor_request (v := v.useSsl d) (d := d) with he | ⟨some, ha⟩
      · rw [he, useSsl_request]
        exact inPhase d
      · rw [ha]
        have hs := hc wait answer some
        exact agrees_some (fits_handshake (by simpa [handshaking] using hs))
    dsimp only
    split
    · exact hw
    · split
      · exact queue_agrees hw
      · simpa using agrees_nothing
  · exact queue_agrees (by simpa using inPhase d)

lemma getServer_flags (io : ForwardIO) : ((View.getServer io v d).2.conn d).flags = (v.conn d).flags := by
  unfold View.getServer
  repeat' split
  all_goals simp

lemma connectServer_flags (io : ForwardIO) (mode : PolicyMode) :
    ((View.connectServer io mode v d).2.conn d).flags = (v.conn d).flags :=
  connectServer_keeps (P := fun v' => (v'.conn d).flags = (v.conn d).flags) io mode
    (fun _ h => by simpa [View.redial] using h)
    (fun _ _ _ h => by simpa [View.openSocket, View.redial] using h) rfl

lemma watchServer_agrees {io : ForwardIO} {wait : Bool} (hr : settled (v.conn d).flags = true)
    (hw : (View.watchServer io wait v d).1 = 0) : AgreesAt (View.watchServer io wait v d).2 d := by
  unfold View.watchServer at hw ⊢
  split
  · simpa using agrees_some (fits_handshake (.inl rfl))
  next atOnce =>
  rw [if_neg atOnce] at hw
  split
  · simpa using agrees_some (fits_recv hr)
  next ssl =>
  simp only [ssl] at hw
  split
  · next bad => simp [bad] at hw
  · simpa using agrees_some (fits_handshake (.inr rfl))

lemma dial_inPhase (inPhase : InPhase v) {io : ForwardIO} {mode : PolicyMode}
    (hr : settled (v.conn d).flags = true) (hd : (View.dial io mode v d).1 = 0) :
    InPhase (View.dial io mode v d).2 := by
  have redials := dial_redials (v := v) (d := d) io mode
  have ha : AgreesAt (View.dial io mode v d).2 d := by
    have hf := (connectServer_flags io mode).trans (getServer_flags (v := v) (d := d) io)
    revert hd
    apply dial_cases (P := fun r => r.1 = 0 → AgreesAt r.2 d) io mode
    · exact fun bad => by cases bad
    · exact fun _ _ bad => by cases bad
    · intro wait v2 _ hc
      rw [hc] at hf
      exact watchServer_agrees (by rw [hf]; exact hr)
  intro e
  rcases d.sides e with rfl | rfl
  · exact ha
  · rw [redials.request, redials.peer]
    exact inPhase d.peer

/-! ## The rule applies -/

section

variable (inPhase : InPhase v)
include inPhase

lemma joined_inPhase : InPhase (View.joined v d) := by
  refine inPhase_congr inPhase rfl fun e => ?_
  rcases d.sides e with rfl | rfl
  · rw [joined_conn]
    rfl
  · rw [joined_peer]

lemma taken_inPhase : InPhase (View.taken v d) := by
  refine inPhase_congr inPhase rfl fun e => ?_
  rcases d.sides e with rfl | rfl
  · rw [taken_conn]
    rfl
  · rw [taken_peer]

lemma forward_inPhase {io : TaskIO} (hs : Sound v)
    (hr : Resumes v d.peer io.send (View.pending v d))
    (hf : (View.forwarded io.forward v d).1 = 0) : InPhase (View.send io.send
      (View.forwarded io.forward v d).2 d.peer).2 := by
  have hj := joined_inPhase (d := d) inPhase
  have flags : ∀ e, ((View.joined v d).conn e).flags = (v.conn e).flags := by
    intro e
    rcases d.sides e with rfl | rfl
    · rw [joined_conn]
      rfl
    · rw [joined_peer]
  obtain ⟨mode, hp⟩ := forwarded_policy hf
  by_cases ho : (v.conn d.peer).fd > 0
  · rw [forward_connected io.forward ho hp]
    refine send_inPhase hj fun hb ready hd e => ?_
    rw [joined_peer] at hb ready hd
    rw [flags]
    exact hr hb ready hd e
  · have hu : v.request d.peer = none := by simpa [ho] using hs.request d.peer
    have ready := inPhase d.peer
    rw [hu] at ready
    rw [forward_dials io.forward ho hp] at hf ⊢
    have redials := dial_redials (v := View.joined v d) (d := d.peer) io.forward mode
    refine send_inPhase (dial_inPhase hj (by rw [flags]; exact ready.1) hf) fun hb => ?_
    -- a connection that was just dialled is not blocked
    rw [redials.flags, flags] at hb
    rw [ready.2] at hb
    cases hb

lemma call_inPhase {cb : Callback} {io : CallbackIO} (hc : Called v d cb events)
    (ok : undisturbed.call v d cb io events) : InPhase (View.call io cb events v d) := by
  obtain ⟨e, hr⟩ := hc.requested
  cases cb with
  | connRecvData => exact recvData_inPhase inPhase
  | connSendData => exact sendData_inPhase inPhase (ok.1 rfl)
  | connHandshake => exact handshake_inPhase inPhase hr (ok.2.1 rfl)
  | connShutdown => exact shutdown_inPhase inPhase (ok.2.2 rfl)
  | listenerAccept => exact inPhase

end

lemma accepted_inPhase {l : ListenerFd} {fd : Nat} : InPhase (accepted v l fd) := by
  intro d
  cases d with
  | client =>
    cases ssl : l.sslctx with
    | true =>
      have hs : ((accepted v l fd).conn .client).flags.sslHsk = true := ssl
      simpa [accepted, ssl] using agrees_some (fits_handshake (.inr hs))
    | false =>
      have hr : settled ((accepted v l fd).conn .client).flags = true := by
        simp [accepted, acceptedSession, settled, ssl, ConnFlags.none]
      simpa [accepted, ssl] using agrees_some (fits_recv hr)
  | server => exact ⟨rfl, rfl⟩

lemma undisturbed_serves : Serves InPhase (fun _ => True) undisturbed where
  start _ _ _ := trivial
  accept _ _ _ := accepted_inPhase
  refuse _ _ _ := trivial
  deliver {v d bytes fin} inPhase _ _ _ := inPhase_congr inPhase rfl fun e => by
    rcases d.sides e with rfl | rfl <;> simp [Connection.deliver]
  late _ := trivial
  call inPhase := call_inPhase inPhase
  idle inPhase _ _ := taken_inPhase inPhase
  delete _ _ _ _ := trivial
  forward _ _ _ _ _ := trivial
  parse inPhase sound hk ok forwarded :=
    ⟨fun _ => trivial, fun _ => forward_inPhase inPhase sound (ok.2 hk) forwarded⟩
  send {v d io} inPhase sound hk ok := by
    refine ⟨fun _ => trivial, fun _ => send_inPhase (taken_inPhase inPhase) ?_⟩
    intro hb hr hd e
    rw [taken_conn] at hb hr hd
    have hs := ok.1 hk hb hr hd e
    rcases d.sides e with rfl | rfl
    · rw [taken_conn]
      exact hs
    · rw [taken_peer]
      exact hs
  closed _ _ := trivial
  free _ _ _ := trivial
  rest _ _ _ := trivial
  again _ _ _ _ := trivial

/-! ## Every round -/

lemma callbacksAgree_of_views {w : Worker} (hs : Sane w) (idle : w.phase = .idle)
    (hl : ∀ s, Lives InPhase (fun _ => True) (view w s)) : CallbacksAgree w := by
  intro s d fd cb hi own iocb
  have inPhase := lives_idle hs idle hi (hl s) d
  have pos := ((hs.tidy s).owns hi d fd own).pos
  have ho' : ((w.sessions s).conns d).fd = fd := own
  have hr : requestOf w s d = some ⟨(w.item fd).events, some cb⟩ := by
    simp only [requestOf, Worker.conn, ho', hi]
    rw [if_pos ⟨trivial, by omega⟩]
    simp only [Int.toNat_natCast, Option.some.injEq, Request.mk.injEq, true_and]
    exact iocb
  change Agrees (requestOf w s d) (w.conn s d).flags at inPhase
  rw [hr] at inPhase
  exact inPhase cb rfl

/-- In every run without the three transitions, callback and phase agree at the end of
every round. -/
theorem callbacks_agree (maxfd naccept : Nat) (opened : Nat → Bool) {actions : List Action}
    (along : Along workerStep undisturbed.allow actions (Worker.start maxfd naccept opened)) :
    Ensures (runWorker actions) (Worker.start maxfd naccept opened)
      (fun _ w => w.phase = .idle → CallbacksAgree w) (fun _ _ => True) :=
  (undisturbed_serves.kept.run maxfd naccept opened along).imp_true
    (fun _ _ h hi => callbacksAgree_of_views h.1 hi h.2)

/-- An SSL client finishes its handshake and is served. -/
def sslHandshaken : List Action :=
  acceptRound .reverse true ++ polls [((4, epollIn), willing)] ++ [.runTask (relays false false maxPktLen)]

theorem callbacks_agree_sslHandshaken :
    Along workerStep undisturbed.allow sslHandshaken (Worker.start 16 1 fun _ => false) ∧
    Ensures (runWorker sslHandshaken) (Worker.start 16 1 fun _ => false)
      (fun _ w => w.phase = .idle → CallbacksAgree w) (fun _ _ => True) :=
  ⟨by decide +kernel, callbacks_agree 16 1 (fun _ => false) (by decide +kernel)⟩

/-- The client sends its last two bytes, of which the server takes one at first. -/
def halfClosed : List Action :=
  plainExchange ++ .deliver 0 .client [1, 2] true :: polls [((4, epollIn ||| epollRdHup), receives 2)] ++
    .runTask (relays false false 1) :: polls [((5, epollOut), willing)]

/-- Once the server's output is drained, the client's descriptor is read again, although
the client has closed its side. -/
theorem drained_after_half_close : Ensures (runWorker halfClosed) emptyWorker
      (fun _ w => w.phase = .idle ∧ ¬ CallbacksAgree w) (fun _ _ => False) := by
  have he : Ensures (runWorker halfClosed) emptyWorker
      (fun _ w => w.phase = .idle ∧ w.used 0 = true ∧ (w.conn 0 .client).flags.shutRd = true ∧
        (w.conn 0 .client).fd = 4 ∧ (w.item 4).iocb = some .connRecvData) (fun _ _ => False) := by
    decide +kernel
  refine he.imp (fun _ w h => ?_)
  obtain ⟨hi, inUse, hs, fd, iocb⟩ := h
  refine ⟨hi, fun ha => ?_⟩
  have hr := settled_iff.mp ((ha 0 .client 4 .connRecvData inUse fd iocb).2.2 rfl)
  rw [hr.2.2.2] at hs
  cases hs

end Fzsvn.Guarantees.Proxy.PhaseAgreement
