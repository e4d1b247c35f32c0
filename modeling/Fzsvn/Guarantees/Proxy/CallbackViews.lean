import Fzsvn.Guarantees.Proxy.SessionView
import Fzsvn.Guarantees.Proxy.SendStep

/-!
# What the connection callbacks do to a session's view

Each callback is a function of the view and of the answers its system calls get. An
impossible answer leaves the view alone; the code does not run there.
-/
namespace Fzsvn.Guarantees.Proxy.CallbackViews
open Source.Proxy SendStep SessionView

/-! ## The functions -/

namespace View

open SessionView.View

/-! ### `conn_recv_data` -/

def takeSlot (alloc : Bool) (v : View) (d : Dir) : Option Nat × View :=
  match recvSlot (v.conn d).input with
  | some i => (some i, v)
  | none =>
    if alloc = false then (none, v)
    else (some (v.conn d).input.length, v.mapSession (·.allocPacket d))

def recvHandshake (raw : RawRecv) (v : View) (d : Dir) : View :=
  if raw.handshake = false then v
  else (v.mapFlags d ({ · with sslHsk := true })).ask d fdOut (some .connHandshake)

def recvCloseEvent (v : View) (d : Dir) : View :=
  match (v.conn d).ssl with
  | some _ => (v.mapFlags d ({ · with sslShut := true })).ask d fdOut (some .connShutdown)
  | none => v.ask d 0#32 none

/-- An empty packet goes back to the pool. -/
def recvTrim (v : View) (d : Dir) (i : Nat) : View :=
  if ((v.conn d).input[i]?).map Packet.len = some 0 then v.mapSession (·.freePacket d i) else v

def recvClose (raw : RawRecv) (events : Mask) (v : View) (d : Dir) (i : Nat) : View :=
  if raw.closed = false ∧ events.has epollRdHup = false then v
  else recvTrim (recvCloseEvent (v.mapFlags d ({ · with shutRd := true })) d) d i

/-- The raw receive and what follows it. -/
def recvInto (io : RecvIO) (events : Mask) (v : View) (d : Dir) (i : Nat) : Option Int × View :=
  match connRawRecv (v.conn d).ssl.isSome (v.conn d).sock (slotSpace (v.conn d).input i) io with
  | none => (none, v)
  | some raw =>
    let used := v.useSsl d
    if raw.n < 0 then (none, used.mapFlags d ({ · with error := true }))
    else
      let stored := used.mapSession (·.storeBytes d i raw.bytes)
      (some raw.n, recvClose raw events (recvHandshake raw stored d) d i)

def recvPass (io : RecvIO) (events : Mask) (v : View) (d : Dir) : Option Int × View :=
  match takeSlot io.alloc v d with
  | (none, v') => (none, v')
  | (some i, v') => recvInto io events v' d i

def recvLoop (events : Mask) (d : Dir) : RecvRun → View → Option Int × View
  | .last io, v => recvPass io events v d
  | .pending io rest, v =>
    match recvPass io events v d with
    | (none, v') => (none, v')
    | (some n, v') => if (v'.conn d).ssl.isSome then recvLoop events d rest v' else (some n, v')

def recvData (io : RecvRun) (events : Mask) (v : View) (d : Dir) : View :=
  if events.has epollErr then (v.mapFlags d ({ · with error := true })).queue d .delete
  else
    match recvLoop events d io v with
    | (none, v') => v'.queue d .delete
    | (some _, v') => v'.queue d .parse

/-! ### `conn_send_data` -/

def sendErr (events : Mask) (v : View) (d : Dir) : View :=
  if events = 0#32 then v else v.queue d .delete

def sendBlock (v : View) (d : Dir) : View :=
  if (v.conn d).flags.blocked then v
  else ((v.ask d fdOut (some .connSendData)).ask d.peer 0#32 none).mapFlags d
    ({ · with blocked := true })

def sendUnblock (v : View) (d : Dir) : View :=
  if (v.conn d).flags.blocked = false then v
  else ((v.ask d fdIn (some .connRecvData)).ask d.peer fdIn (some .connRecvData)).mapFlags d
    ({ · with blocked := false })

def sendShut (v : View) (d : Dir) : View :=
  if (v.conn d.peer).flags.shutRd = false then v
  else
    match (v.conn d).ssl with
    | some _ => (v.mapFlags d ({ · with sslShut := true })).ask d fdOut (some .connShutdown)
    | none => v.mapConn d (cutBy · (v.conn d.peer).sock)

/-- Behind the handshake check: the loop over `out` is done. -/
def sendLooped (ios : Nat → SendIO) (v : View) (d : Dir) : View :=
  (if (v.conn d).output ≠ [] then v.useSsl d else v).mapSession (·.applySent d (sendLoop ios (v.conn d)))

def sendData (ios : Nat → SendIO) (events : Mask) (v : View) (d : Dir) : Int × View :=
  if handshaking (v.conn d) then (0, v)
  else
    let looped := sendLooped ios v d
    match (sendLoop ios (v.conn d)).exit with
    | .failed => (-1, sendErr events (looped.mapFlags d ({ · with error := true })) d)
    | .blocked => (0, sendBlock looped d)
    | .drained => (0, sendShut (sendUnblock looped d) d)

/-! ### `conn_handshake` and `conn_shutdown` -/

def waitFor (wait : SslWait) (events : Mask) (v : View) (d : Dir) : View :=
  if waitEvent wait events = 0#32 then v
  else v.ask d (waitEvent wait events) (some .connHandshake)

def handshakeDone (v : View) (d : Dir) : View :=
  (v.ask d fdIn (some .connRecvData)).queue d .send

/-- Behind the TCP handshake. -/
def sslHandshake (io : HandshakeIO) (events : Mask) (v : View) (d : Dir) : View :=
  if (v.conn d).flags.sslHsk = false then handshakeDone v d
  else
    match (v.conn d).ssl, io.ssl with
    | some _, some wait =>
      let waiting := waitFor wait events (v.useSsl d) d
      if wait = .none then handshakeDone (waiting.mapFlags d ({ · with sslHsk := false })) d
      else waiting
    | _, _ => (v.useSsl d).queue d .delete

def handshake (io : HandshakeIO) (events : Mask) (v : View) (d : Dir) : View :=
  if events.has (epollErr ||| epollRdHup) then v.queue d .delete
  else if (v.conn d).flags.hsk = false then sslHandshake io events v d
  else if io.connected = false then
    (v.mapFlags d ({ · with error := true })).queue d .delete
  else sslHandshake io events (v.mapFlags d fun f =>
    { f with hsk := false, sslHsk := f.sslHsk || (v.conn d).ssl.isSome }) d

/-- `ssl_free(c->ssl); c->ssl = NULL`. -/
def freeSsl (v : View) (d : Dir) : View :=
  (v.note (.sslFree v.id d)).mapConn d ({ · with ssl := none })

def shutdown (io : ShutdownIO) (events : Mask) (v : View) (d : Dir) : View :=
  if events.has epollErr then v.queue d .delete
  else if (v.conn d).flags.sslShut = false then v.ask d 0#32 none
  else
    match (v.conn d).ssl, io.ssl with
    | some _, some wait =>
      let waiting := waitFor wait events (v.useSsl d) d
      if wait ≠ .none then waiting
      else if io.free = false then waiting.queue d .delete
      else (freeSsl waiting d).ask d 0#32 none
    | _, _ => (v.useSsl d).queue d .delete

/-- The callback an event reaches. -/
def call (io : CallbackIO) (cb : Callback) (events : Mask) (v : View) (d : Dir) : View :=
  match cb with
  | .connRecvData => recvData io.recv events v d
  | .connSendData => (sendData io.send events v d).2
  | .connHandshake => handshake io.handshake events v d
  | .connShutdown => shutdown io.shutdown events v d
  | .listenerAccept => v

end View

open View (sendLooped waitFor)

/-! ## What a callback leaves alone -/

variable {v : View} {d : Dir}

@[simp] lemma useSsl_id : (v.useSsl d).id = v.id := by
  unfold View.useSsl
  split <;> rfl

@[simp] lemma useSsl_used : (v.useSsl d).used = v.used := by
  unfold View.useSsl
  split <;> rfl

@[simp] lemma useSsl_session : (v.useSsl d).session = v.session := by
  unfold View.useSsl
  split <;> rfl

@[simp] lemma useSsl_request : (v.useSsl d).request = v.request := by
  unfold View.useSsl
  split <;> rfl

/-- The connection behind the loop over `out`. -/
def sentConn (ios : Nat → SendIO) (c : Connection) : Connection :=
  { c with
    output := (sendLoop ios c).rest
    sock := { c.sock with accepted := c.sock.accepted ++ (sendLoop ios c).bytes } }

section

variable {v : View} {d : Dir} (ios : Nat → SendIO)

@[simp] lemma sendLooped_id : (sendLooped ios v d).id = v.id := by
  unfold sendLooped
  split <;> simp

@[simp] lemma sendLooped_used : (sendLooped ios v d).used = v.used := by
  unfold sendLooped
  split <;> simp

@[simp] lemma sendLooped_request : (sendLooped ios v d).request = v.request := by
  unfold sendLooped
  split <;> simp

@[simp] lemma sendLooped_self :
    (sendLooped ios v d).session.conns d = sentConn ios (v.session.conns d) := by
  unfold sendLooped
  split <;> simp [Session.applySent, sentConn]

@[simp] lemma sendLooped_peer :
    (sendLooped ios v d).session.conns d.peer = v.session.conns d.peer := by
  unfold sendLooped
  split <;> simp [Session.applySent]

@[simp] lemma sendLooped_staged : (sendLooped ios v d).session.staged = v.session.staged := by
  unfold sendLooped
  split <;> simp [Session.applySent]

/-- Descriptors, tasks and flags are as they were. -/
lemma sendLooped_frame (e : Dir) : ((sendLooped ios v d).conn e).fd = (v.conn e).fd ∧
      ((sendLooped ios v d).conn e).task = (v.conn e).task ∧
      ((sendLooped ios v d).conn e).flags = (v.conn e).flags := by
  rcases d.sides e with rfl | rfl <;> simp [sentConn]

end

/-- The receive, handshake and shutdown callbacks act on their own connection only. -/
structure Own (d : Dir) (v v' : View) : Prop where
  id : v'.id = v.id
  used : v'.used = v.used
  fd : (v'.conn d).fd = (v.conn d).fd
  blocked : (v'.conn d).flags.blocked = (v.conn d).flags.blocked
  peer : v'.conn d.peer = v.conn d.peer
  staged : v'.session.staged = v.session.staged
  policy : v'.session.policy = v.session.policy
  request : v'.request d.peer = v.request d.peer
  asked : (v.request d).isSome = true → (v'.request d).isSome = true

variable {v1 v2 v3 : View} {events : Mask}

lemma own_refl (v : View) (d : Dir) : Own d v v :=
  ⟨rfl, rfl, rfl, rfl, rfl, rfl, rfl, rfl, fun h => h⟩

lemma own_trans (h1 : Own d v1 v2) (h2 : Own d v2 v3) : Own d v1 v3 :=
  ⟨h2.id.trans h1.id, h2.used.trans h1.used, h2.fd.trans h1.fd, h2.blocked.trans h1.blocked,
    h2.peer.trans h1.peer, h2.staged.trans h1.staged, h2.policy.trans h1.policy,
    h2.request.trans h1.request, fun h => h2.asked (h1.asked h)⟩

lemma own_note {e : Event} : Own d v (v.note e) :=
  ⟨rfl, rfl, rfl, rfl, rfl, rfl, rfl, rfl, fun h => h⟩

lemma own_mapConn {f : Connection → Connection} (fd : (f (v.conn d)).fd = (v.conn d).fd)
    (hb : (f (v.conn d)).flags.blocked = (v.conn d).flags.blocked) : Own d v (v.mapConn d f) :=
  ⟨rfl, rfl, by simpa using fd, by simpa using hb, by simp, by simp, by simp, rfl,
    fun h => h⟩

lemma own_mapFlags {f : ConnFlags → ConnFlags}
    (hb : (f (v.conn d).flags).blocked = (v.conn d).flags.blocked) :
    Own d v (v.mapFlags d f) := own_mapConn rfl hb

lemma own_ask {iocb : Option Callback} : Own d v (v.ask d events iocb) :=
  ⟨rfl, rfl, rfl, rfl, rfl, rfl, rfl, by simp, fun _ => by simp⟩

/-! ## What a callback does -/

/-- One thing that the receive, handshake and shutdown callbacks do: they note that a task is
queued, call OpenSSL, edit flags and task of their connection, request events for it, move
packets, or free its SSL object. -/
inductive Move (d : Dir) (v : View) : View → Prop where
  | note {e : Event} (queue : e = .busy v.id d ∨ ∃ kind, e = .queued v.id d kind) : Move d v (v.note e)
  | use : Move d v (v.useSsl d)
  | conn {f : Connection → Connection} (fd : (f (v.conn d)).fd = (v.conn d).fd)
      (ssl : (f (v.conn d)).ssl = (v.conn d).ssl)
      (blocked : (f (v.conn d)).flags.blocked = (v.conn d).flags.blocked)
      (shutWr : (f (v.conn d)).flags.shutWr = (v.conn d).flags.shutWr)
      (sslShut : (v.conn d).flags.sslShut = true → (f (v.conn d)).flags.sslShut = true) :
      Move d v (v.mapConn d f)
  | ask (events : Mask) (iocb : Option Callback) : Move d v (v.ask d events iocb)
  | packets {f : Session → Session} {c : Connection}
      (conns : (f v.session).conns = Function.update v.session.conns d c)
      (same : c.fd = (v.conn d).fd ∧ c.ssl = (v.conn d).ssl ∧ c.flags = (v.conn d).flags)
      (staged : (f v.session).staged = v.session.staged)
      (policy : (f v.session).policy = v.session.policy) : Move d v (v.mapSession f)
  | free (held : (v.conn d).ssl.isSome = true) (shutting : (v.conn d).flags.sslShut = true) :
      Move d v (View.freeSsl v d)

abbrev Moves (d : Dir) : View → View → Prop := Relation.ReflTransGen (Move d)

variable {v' : View}

lemma Move.own (hm : Move d v v') : Own d v v' := by
  cases hm with
  | note _ => exact own_note
  | use =>
    unfold View.useSsl
    split
    · exact own_refl v d
    · exact own_note
  | conn fd _ hb _ _ => exact own_mapConn fd hb
  | ask events iocb => exact own_ask
  | packets hc he hs hp =>
    refine ⟨rfl, rfl, ?_, ?_, ?_, hs, hp, rfl, fun h => h⟩
    all_goals simp [hc, he]
  | free _ _ => exact own_trans own_note (own_mapConn rfl rfl)

lemma Moves.own (hm : Moves d v v') : Own d v v' := by
  induction hm with
  | refl => exact own_refl v d
  | tail _ hl ih => exact own_trans ih hl.own

lemma moves_flags {f : ConnFlags → ConnFlags}
    (hb : (f (v.conn d).flags).blocked = (v.conn d).flags.blocked)
    (hs : (f (v.conn d).flags).shutWr = (v.conn d).flags.shutWr)
    (sslShut : (v.conn d).flags.sslShut = true → (f (v.conn d).flags).sslShut = true) :
    Moves d v (v.mapFlags d f) := .single (.conn rfl rfl hb hs sslShut)

lemma moves_ask {iocb : Option Callback} : Moves d v (v.ask d events iocb) :=
  .single (.ask events iocb)

lemma moves_useSsl : Moves d v (v.useSsl d) := .single .use

lemma queue_moves {kind : TaskKind} : Moves d v (v.queue d kind) := by
  have hm : Moves d v (v.mapConn d (setKind · kind)) := .single (.conn rfl rfl rfl rfl id)
  unfold SessionView.View.queue
  dsimp only
  split
  · exact hm.tail (.note (.inl rfl))
  · exact (hm.tail (.conn rfl rfl rfl rfl id)).tail (.note (.inr ⟨kind, rfl⟩))

lemma takeSlot_moves (alloc : Bool) : Moves d v (View.takeSlot alloc v d).2 := by
  unfold View.takeSlot
  split
  · exact .refl
  · split
    · exact .refl
    · have ht : Move d v (v.mapSession (·.allocPacket d)) := .packets rfl ⟨rfl, rfl, rfl⟩ rfl rfl
      exact .single ht

lemma recvHandshake_moves {raw : RawRecv} : Moves d v (View.recvHandshake raw v d) := by
  unfold View.recvHandshake
  split
  · exact .refl
  · exact (moves_flags rfl rfl id).trans moves_ask

lemma recvCloseEvent_moves : Moves d v (View.recvCloseEvent v d) := by
  unfold View.recvCloseEvent
  split
  · exact (moves_flags rfl rfl fun _ => rfl).trans moves_ask
  · exact moves_ask

lemma recvTrim_moves {i : Nat} : Moves d v (View.recvTrim v d i) := by
  unfold View.recvTrim
  split
  · exact .single (.packets rfl ⟨rfl, rfl, rfl⟩ (by simp [Session.freePacket]) rfl)
  · exact .refl

lemma recvClose_moves {raw : RawRecv} {i : Nat} : Moves d v (View.recvClose raw events v d i) := by
  unfold View.recvClose
  split
  · exact .refl
  · exact ((moves_flags rfl rfl id).trans recvCloseEvent_moves).trans recvTrim_moves

lemma storeBytes_moves {i : Nat} {bytes : List UInt8} : Moves d v (v.mapSession (·.storeBytes d i bytes)) :=
  .single (.packets rfl ⟨rfl, rfl, rfl⟩ (by simp [Session.storeBytes]) rfl)

lemma recvInto_moves {io : RecvIO} {i : Nat} : Moves d v (View.recvInto io events v d i).2 := by
  unfold View.recvInto
  split
  · exact .refl
  next raw _ =>
  dsimp only
  split
  · have hf : Moves d (v.useSsl d) ((v.useSsl d).mapFlags d ({ · with error := true })) :=
      moves_flags rfl rfl id
    exact moves_useSsl.trans hf
  · exact (moves_useSsl.trans storeBytes_moves).trans
      (recvHandshake_moves.trans recvClose_moves)

lemma recvPass_moves (io : RecvIO) (events : Mask) : Moves d v (View.recvPass io events v d).2 := by
  have hs := takeSlot_moves (v := v) (d := d) io.alloc
  unfold View.recvPass
  split
  · next h =>
    rw [h] at hs
    exact hs
  · next h =>
    rw [h] at hs
    exact hs.trans recvInto_moves

lemma recvLoop_moves (events : Mask) (io : RecvRun) : Moves d v (View.recvLoop events d io v).2 := by
  induction io generalizing v with
  | last io => exact recvPass_moves io events
  | pending io rest ih =>
    have hf := recvPass_moves (v := v) (d := d) io events
    unfold View.recvLoop
    split
    · next h =>
      rw [h] at hf
      exact hf
    · next h =>
      rw [h] at hf
      split
      · exact hf.trans ih
      · exact hf

lemma recvData_moves {io : RecvRun} : Moves d v (View.recvData io events v d) := by
  have hl := recvLoop_moves (v := v) (d := d) events io
  unfold View.recvData
  split
  · exact (moves_flags rfl rfl id).trans queue_moves
  · split
    · next h =>
      rw [h] at hl
      exact hl.trans queue_moves
    · next h =>
      rw [h] at hl
      exact hl.trans queue_moves

lemma waitFor_moves {wait : SslWait} : Moves d v (waitFor wait events v d) := by
  unfold waitFor
  split
  · exact .refl
  · exact moves_ask

lemma handshakeDone_moves : Moves d v (View.handshakeDone v d) :=
  moves_ask.trans queue_moves

lemma sslHandshake_moves {io : HandshakeIO} : Moves d v (View.sslHandshake io events v d) := by
  unfold View.sslHandshake
  split
  · exact handshakeDone_moves
  · split
    · dsimp only
      split
      · exact ((moves_useSsl.trans waitFor_moves).trans (moves_flags rfl rfl id)).trans handshakeDone_moves
      · exact moves_useSsl.trans waitFor_moves
    · exact moves_useSsl.trans queue_moves

lemma handshake_moves {io : HandshakeIO} : Moves d v (View.handshake io events v d) := by
  unfold View.handshake
  split
  · exact queue_moves
  · split
    · exact sslHandshake_moves
    · split
      · exact (moves_flags rfl rfl id).trans queue_moves
      · exact (moves_flags rfl rfl id).trans sslHandshake_moves

lemma waitFor_frame (events : Mask) (wait : SslWait) :
    (waitFor wait events v d).id = v.id ∧ (waitFor wait events v d).used = v.used ∧
      (waitFor wait events v d).session = v.session := by
  unfold waitFor
  split <;> simp

lemma shutdown_moves {io : ShutdownIO} : Moves d v (View.shutdown io events v d) := by
  unfold View.shutdown
  split
  · exact queue_moves
  · split
    · exact moves_ask
    next shutting =>
    · split
      · next wait ssl _ =>
        have hw : Moves d v (waitFor wait events (v.useSsl d) d) :=
          moves_useSsl.trans waitFor_moves
        obtain ⟨-, -, hs⟩ := waitFor_frame (v := v.useSsl d) (d := d) events wait
        dsimp only
        split
        · exact hw
        · split
          · exact hw.trans queue_moves
          · have hh : ((waitFor wait events (v.useSsl d) d).conn d).ssl.isSome = true := by
              have hs' : (v.session.conns d).ssl = some _ := ssl
              simp [hs, hs']
            have hb : ((waitFor wait events (v.useSsl d) d).conn d).flags.sslShut = true := by
              simpa [hs] using shutting
            exact (hw.tail (.free hh hb)).trans moves_ask
      · exact moves_useSsl.trans queue_moves

/-! ## The code computes them -/

variable {v : View} {d : Dir} {i : Nat} {events : Mask}

lemma takeSlot_shows {alloc : Bool} :
    Shows (takeSlot alloc v.id d) v fun slot v' => (slot, v') = View.takeSlot alloc v d := by
  refine shows_bind (shows_conn ?_)
  unfold View.takeSlot
  cases slot : recvSlot (v.conn d).input with
  | some k => exact shows_pure rfl
  | none =>
    refine shows_ite (fun hn => shows_pure (by simp [hn])) fun some => ?_
    refine shows_bind (shows_modifySession (fun e => ?_) (shows_pure (by simp [some])))
    rcases d.sides e with rfl | rfl <;> simp [Session.allocPacket]

/-- The error label queues the task whatever its state; in a callback it is not queued. -/
lemma sendErrFree_shows (hu : events ≠ 0#32 → (v.conn d).task.linked = false) :
    Shows (sendErrFree events v.id d) v fun ret v' => ret = -1 ∧ v' = View.sendErr events v d := by
  unfold View.sendErr
  refine shows_bind (shows_onlyIf (fun he => ?_) fun none => ?_)
  · have hf := hu he
    rw [if_neg he]
    refine shows_bind (shows_modifyConn rfl (shows_bind (shows_conn ?_)))
    refine shows_bind (shows_onlyIf (fun hl => ?_) fun _ => ?_)
    · simp [setKind] at hl
      rw [hl] at hf
      cases hf
    · refine shows_taskAddQueue (shows_pure ⟨rfl, ?_⟩)
      have hf' : (v.session.conns d).task.linked = false := hf
      simp [SessionView.View.queue, hf', setKind]
  · rw [not_not.mp none]
    exact shows_pure ⟨rfl, by simp⟩

lemma sendUnblock_frame : (View.sendUnblock v d).id = v.id ∧ (View.sendUnblock v d).used = v.used ∧
      ((View.sendUnblock v d).conn d).fd = (v.conn d).fd := by
  unfold View.sendUnblock
  split <;> simp

/-- The checks in front of a callback. -/
lemma checked_shows {rest : Run Int} {post : Int → View → Prop} (he : events ≠ 0#32)
    (h : Shows rest v post) : Shows (do
      if (i : Int) < 0 ∨ events = 0#32 then return -1
      let x ← session v.id
      require (x.worker = true)
      require ((i : Int) = (x.conns d).fd)
      rest) v post := by
  refine shows_ite (fun bad => absurd bad (by simp [he])) fun _ => ?_
  refine shows_bind (shows_session (shows_bind (shows_require fun _ => ?_)))
  exact shows_bind (shows_require fun _ => h)

lemma useSsl_errFree :
    Shows (errFree v.id d) (v.useSsl d) fun _ v' => v' = (v.useSsl d).queue d .delete := by
  rw [← useSsl_id (d := d)]
  exact shows_errFree rfl

variable (inUse : v.used = true) (own : (v.conn d).fd = i)
include inUse own

lemma recvHandshake_shows {raw : RawRecv} :
    Shows (recvHandshake raw i v.id d) v fun ok v' => ok = true ∧ v' = View.recvHandshake raw v d := by
  unfold recvHandshake View.recvHandshake
  refine shows_ite (fun no => shows_pure (by simp [no])) fun ha => ?_
  refine shows_bind (shows_modifyFlags ?_)
  refine shows_bind (shows_addEvent (v := v.mapFlags d _) (d := d) inUse (by simpa using own) ?_)
  exact shows_pure ⟨by simp, by rw [if_neg ha]⟩

lemma recvCloseEvent_shows :
    Shows (recvCloseEvent i v.id d) v fun ret v' => ret = 0 ∧ v' = View.recvCloseEvent v d := by
  refine shows_bind (shows_conn ?_)
  unfold View.recvCloseEvent
  cases ssl : (v.conn d).ssl with
  | some _ =>
    refine shows_bind (shows_modifyFlags ?_)
    exact shows_addEvent (v := v.mapFlags d _) (d := d) inUse (by simpa using own) ⟨rfl, rfl⟩
  | none => exact shows_addEvent inUse own ⟨rfl, rfl⟩

lemma recvClose_shows (raw : RawRecv) (events : Mask) (k : Nat) : Shows (recvClose raw i events v.id d k) v
      fun ok v' => ok = true ∧ v' = View.recvClose raw events v d k := by
  unfold recvClose View.recvClose
  refine shows_ite (fun no => shows_pure ⟨rfl, by rw [if_pos no]⟩) fun hc => ?_
  rw [if_neg hc]
  refine shows_bind (shows_modifyFlags ?_)
  refine shows_bind ((recvCloseEvent_shows (v := v.mapFlags d _) inUse
    (by simpa using own)).mono fun ret v1 h1 => ?_)
  obtain ⟨rfl, h1⟩ := h1
  refine shows_passed ?_
  have id1 : v.id = v1.id := by rw [h1, recvCloseEvent_moves.own.id, SessionView.View.mapFlags_id]
  rw [id1, ← h1]
  refine shows_bind (shows_conn (shows_bind (shows_onlyIf (fun hn => ?_) fun hf => ?_)))
  · refine shows_modifySession (fun e => ?_) (shows_pure ⟨rfl, ?_⟩)
    · rcases d.sides e with rfl | rfl <;> simp [Session.freePacket]
    · rw [View.recvTrim, if_pos hn]
  · exact shows_pure ⟨rfl, by rw [View.recvTrim, if_neg hf]⟩

lemma recvInto_shows {io : RecvIO} (events : Mask) {k : Nat} : Shows (do
        let c ← conn v.id d
        sslUse v.id d c
        match connRawRecv c.ssl.isSome c.sock (slotSpace c.input k) io with
        | none => throw .kernel
        | some raw =>
          if raw.n < 0 then
            modifyFlags v.id d ({ · with error := true })
            return none
          modifySession v.id (·.storeBytes d k raw.bytes)
          let ok ← recvAfter raw i events v.id d k
          if ok = false then return none
          return some raw.n : Run (Option Int)) v
      fun n v' => (n, v') = View.recvInto io events v d k := by
  refine shows_bind (shows_conn (shows_bind (shows_sslUse ?_)))
  have id1 : v.id = (v.useSsl d).id := useSsl_id.symm
  unfold View.recvInto
  split
  · exact shows_throw _
  next raw answer =>
  refine shows_ite (fun hf => ?_) fun fine => ?_
  · rw [id1]
    exact shows_bind (shows_modifyFlags (shows_pure (by rw [if_pos hf])))
  rw [if_neg fine, id1]
  refine shows_bind (shows_modifySession (fun e => ?_) ?_)
  · rcases d.sides e with rfl | rfl <;> simp [Session.storeBytes]
  have own2 : (((v.useSsl d).mapSession (·.storeBytes d k raw.bytes)).conn d).fd = i := by
    simpa [Session.storeBytes] using own
  have inUse2 : ((v.useSsl d).mapSession (·.storeBytes d k raw.bytes)).used = true := by
    simpa using inUse
  unfold recvAfter
  refine shows_bind (shows_bind ((recvHandshake_shows inUse2 own2).mono fun ok v3 h3 => ?_))
  obtain ⟨rfl, h3⟩ := h3
  rw [if_neg (by simp)]
  dsimp only
  rw [← h3]
  have ha : Own d ((v.useSsl d).mapSession (·.storeBytes d k raw.bytes)) v3 := by
    rw [h3]
    exact recvHandshake_moves.own
  have id3 : (v.useSsl d).id = v3.id := ha.id.symm
  rw [id3]
  refine (recvClose_shows (ha.used.trans inUse2) (ha.fd.trans own2)
    raw events k).mono fun ok v4 h4 => ?_
  obtain ⟨rfl, rfl⟩ := h4
  exact shows_ite (fun no => by cases no) fun _ => shows_pure rfl

lemma recvPass_shows (io : RecvIO) (events : Mask) :
    Shows (recvPass io i events v.id d) v fun n v' => (n, v') = View.recvPass io events v d := by
  refine shows_bind ((takeSlot_shows).mono fun slot v1 h1 => ?_)
  have hs := (takeSlot_moves (v := v) (d := d) io.alloc).own
  unfold View.recvPass
  rw [← h1] at hs ⊢
  have id1 : v.id = v1.id := hs.id.symm
  cases slot with
  | none => exact shows_pure rfl
  | some k =>
    rw [id1]
    exact recvInto_shows (hs.used.trans inUse) (hs.fd.trans own) events

lemma recvLoop_shows {io : RecvRun} :
    Shows (recvLoop i events v.id d io) v fun n v' => (n, v') = View.recvLoop events d io v := by
  induction io generalizing v with
  | last io => exact recvPass_shows inUse own io events
  | pending io rest ih =>
    refine shows_bind ((recvPass_shows inUse own io events).mono fun n v1 h1 => ?_)
    have hf := (recvPass_moves (v := v) (d := d) io events).own
    rw [← h1] at hf
    unfold View.recvLoop
    rw [← h1]
    refine shows_ite (fun failed => ?_) fun fine => ?_
    · rw [failed]
      exact shows_pure rfl
    · obtain ⟨m, rfl⟩ := Option.ne_none_iff_exists'.mp fine
      have id1 : v.id = v1.id := hf.id.symm
      rw [id1]
      refine shows_bind (shows_conn (shows_ite (fun ssl => ?_) fun hp => ?_))
      · simp only [ssl, if_true]
        exact ih (hf.used.trans inUse) (hf.fd.trans own)
      · refine shows_pure ?_
        dsimp only
        rw [if_neg hp]

lemma connRecvData_shows {io : RecvRun} (he : events ≠ 0#32) :
    Shows (connRecvData io i events v.id d) v fun _ v' => v' = View.recvData io events v d := by
  refine checked_shows he ?_
  unfold View.recvData
  refine shows_ite (fun err => ?_) fun hn => ?_
  · rw [if_pos err]
    exact shows_bind (shows_modifyFlags (shows_errFree (v := v.mapFlags d _) rfl))
  rw [if_neg hn]
  refine shows_bind ((recvLoop_shows inUse own).mono fun n v1 h1 => ?_)
  have id1 : v.id = v1.id := by
    have hl := (recvLoop_moves (v := v) (d := d) events io).own
    rw [← h1] at hl
    exact hl.id.symm
  rw [← h1, id1]
  cases n with
  | none => exact shows_errFree rfl
  | some n => exact shows_bind (shows_queueTask fun _ => shows_pure rfl)

lemma sendBlock_shows :
    Shows (sendBlock i events v.id d) v fun ret v' => ret = 0 ∧ v' = View.sendBlock v d := by
  unfold View.sendBlock
  refine shows_bind (shows_session (shows_ite (fun hb => ?_) fun open_ => ?_))
  · exact shows_pure ⟨rfl, by rw [if_pos hb]⟩
  rw [if_neg open_]
  refine shows_bind (shows_claimItem own fun _ => ?_)
  refine shows_bind (shows_addEvent inUse own ?_)
  refine shows_passed ?_
  refine shows_bind (shows_itemOf fun pos => ?_)
  -- the peer's descriptor is open, or the assertion in front of the request fails
  obtain ⟨j, hp⟩ : ∃ j : Nat, (v.conn d.peer).fd = j := ⟨_, (Int.toNat_of_nonneg pos).symm⟩
  rw [show (v.session.conns d.peer).fd = j from hp]
  refine shows_bind (shows_addEvent (v := v.ask d fdOut (some .connSendData)) (d := d.peer) inUse hp ?_)
  refine shows_passed ?_
  exact shows_bind (shows_modifyFlags (v := (v.ask d _ _).ask d.peer _ _) (shows_pure ⟨rfl, rfl⟩))

lemma sendUnblock_shows :
    Shows (sendUnblock i v.id d) v fun ok v' => ok = true ∧ v' = View.sendUnblock v d := by
  unfold View.sendUnblock
  refine shows_bind (shows_session (shows_ite (fun hf => ?_) fun hb => ?_))
  · exact shows_pure ⟨rfl, by rw [if_pos hf]⟩
  rw [if_neg hb]
  refine shows_bind (shows_claimItem own fun _ => ?_)
  refine shows_bind (shows_addEvent inUse own ?_)
  refine shows_passed ?_
  refine shows_bind (shows_claimItem (v := v.ask d _ _) (d := d.peer) rfl fun pos => ?_)
  obtain ⟨j, hp⟩ : ∃ j : Nat, (v.conn d.peer).fd = j := ⟨_, (Int.toNat_of_nonneg pos).symm⟩
  rw [show (v.session.conns d.peer).fd = j from hp]
  refine shows_bind (shows_addEvent (v := v.ask d fdIn (some .connRecvData)) (d := d.peer) inUse hp ?_)
  refine shows_passed ?_
  exact shows_bind (shows_modifyFlags (v := (v.ask d _ _).ask d.peer _ _) (shows_pure ⟨rfl, rfl⟩))

lemma sendShut_shows :
    Shows (sendShut i events v.id d) v fun ret v' => ret = 0 ∧ v' = View.sendShut v d := by
  unfold View.sendShut
  refine shows_bind (shows_session (shows_ite (fun hm => ?_) fun hs => ?_))
  · exact shows_pure ⟨rfl, by rw [if_pos hm]⟩
  rw [if_neg hs]
  cases ssl : (v.conn d).ssl with
  | some _ =>
    refine shows_bind (shows_modifyFlags ?_)
    refine shows_bind (shows_addEvent (v := v.mapFlags d _) (d := d) inUse (by simpa using own) ?_)
    exact shows_passed (shows_pure ⟨rfl, rfl⟩)
  | none => exact shows_bind (shows_modifyConn rfl (shows_pure ⟨rfl, rfl⟩))

lemma connSendData_shows (ios : Nat → SendIO) (hu : events ≠ 0#32 → (v.conn d).task.linked = false) :
    Shows (connSendData ios i events v.id d) v fun ret v' => (ret, v') = View.sendData ios events v d := by
  refine shows_ite (fun neg => by omega) fun _ => ?_
  refine shows_bind (shows_session (shows_bind (shows_require fun _ => ?_)))
  refine shows_bind (shows_require fun _ => shows_bind (shows_require fun _ => ?_))
  unfold View.sendData
  refine shows_ite (fun hw => ?_) fun hr => ?_
  · have hw' : handshaking (v.conn d) = true := hw
    exact shows_pure (by rw [if_pos hw'])
  have hr' : ¬ handshaking (v.conn d) = true := hr
  rw [if_neg hr']
  have id := sendLooped_id (v := v) (d := d) ios
  have used := sendLooped_used (v := v) (d := d) ios
  have fd := (sendLooped_frame (v := v) (d := d) ios d).1
  have hl : Shows (do
      onlyIf ((v.conn d).output ≠ []) (sslUse v.id d (v.conn d))
      modifySession v.id (·.applySent d (sendLoop ios (v.conn d))) : Run Unit) v
      fun _ v' => v' = sendLooped ios v d := by
    have fds : ∀ (x : Session) e, ((x.applySent d (sendLoop ios (v.conn d))).conns e).fd =
        (x.conns e).fd := by
      intro x e
      rcases d.sides e with rfl | rfl <;> simp [Session.applySent]
    unfold sendLooped
    refine shows_bind (shows_onlyIf (fun some => shows_sslUse ?_) fun none => ?_)
    · rw [if_pos some, ← useSsl_id (v := v) (d := d)]
      exact shows_modifySession (fds _) rfl
    · rw [if_neg none]
      exact shows_modifySession (fds _) rfl
  have rest : Shows (match (sendLoop ios (v.conn d)).exit with
      | .failed => do
        modifyFlags v.id d ({ · with error := true })
        sendErrFree events v.id d
      | .blocked => Source.Proxy.sendBlock i events v.id d
      | .drained => do
        let ok ← Source.Proxy.sendUnblock i v.id d
        if ok = false then sendErrFree events v.id d else Source.Proxy.sendShut i events v.id d :
        Run Int) (sendLooped ios v d)
      fun ret v' => (ret, v') = match (sendLoop ios (v.conn d)).exit with
        | .failed => (-1, View.sendErr events
            ((sendLooped ios v d).mapFlags d ({ · with error := true })) d)
        | .blocked => (0, View.sendBlock (sendLooped ios v d) d)
        | .drained => (0, View.sendShut (View.sendUnblock (sendLooped ios v d) d) d) := by
    rw [← id]
    cases (sendLoop ios (v.conn d)).exit with
    | failed =>
      refine shows_bind (shows_modifyFlags ?_)
      refine (sendErrFree_shows (v := (sendLooped ios v d).mapFlags d _) fun he => ?_).mono
        fun ret v' h => by rw [h.1, h.2]
      simpa [sentConn] using hu he
    | blocked =>
      exact (sendBlock_shows (used.trans inUse) (fd.trans own)).mono fun ret v' h => by rw [h.1, h.2]
    | drained =>
      refine shows_bind ((sendUnblock_shows (used.trans inUse) (fd.trans own)).mono fun ok v1 h1 => ?_)
      obtain ⟨rfl, rfl⟩ := h1
      obtain ⟨id1, used1, fd1⟩ := sendUnblock_frame (v := sendLooped ios v d) (d := d)
      rw [if_neg (by simp), ← id1]
      exact (sendShut_shows (used1.trans (used.trans inUse)) (fd1.trans (fd.trans own))).mono
        fun ret v' h => by rw [h.1, h.2]
  have hb := shows_bind (hl.mono fun _ v' h => by rw [h]; exact rest)
  rw [bind_assoc] at hb
  exact hb

lemma sslWaitFor_shows {wait : SslWait} : Shows (sslWaitFor wait i events) v fun stage v' =>
      stage = (if wait = .none then .next else .done 0) ∧ v' = waitFor wait events v d := by
  unfold sslWaitFor requestWait waitFor
  refine shows_bind (shows_ite (fun none => shows_pure ?_) fun some => ?_)
  · rw [if_pos none]
    exact shows_passed (shows_pure ⟨rfl, rfl⟩)
  · rw [if_neg some]
    refine shows_addEvent (d := d) inUse own ?_
    exact shows_passed (shows_pure ⟨rfl, rfl⟩)

lemma handshakeDone_shows : Shows (handshakeDone i v.id d) v fun _ v' => v' = View.handshakeDone v d := by
  refine shows_bind (shows_addEvent inUse own ?_)
  refine shows_passed ?_
  exact shows_bind (shows_queueTask (v := v.ask d _ _) fun _ => shows_pure rfl)

/-- From the SSL handshake to the end of `conn_handshake`. -/
lemma sslHandshake_shows {io : HandshakeIO} : Shows (do
        let stage ← sslHandshake io i events v.id d
        match stage with
        | .fail => errFree v.id d
        | .done ret => return ret
        | .next => handshakeDone i v.id d : Run Int) v
      fun _ v' => v' = View.sslHandshake io events v d := by
  unfold View.sslHandshake
  refine shows_bind (shows_bind (shows_conn ?_))
  refine shows_ite (fun hd => shows_pure ?_) fun hn => ?_
  · rw [if_pos hd]
    exact handshakeDone_shows inUse own
  rw [if_neg hn]
  refine shows_bind (shows_sslUse ?_)
  have hf := useSsl_errFree (v := v) (d := d)
  cases ssl : (v.conn d).ssl with
  | none => exact shows_pure hf
  | some _ =>
    cases ha : io.ssl with
    | none => exact shows_pure hf
    | some wait =>
      refine shows_bind ((sslWaitFor_shows (v := v.useSsl d) (by simpa using inUse)
        (by simpa using own)).mono fun stage v2 h2 => ?_)
      obtain ⟨rfl, rfl⟩ := h2
      obtain ⟨id2, used2, session2⟩ := waitFor_frame (v := v.useSsl d) (d := d) events wait
      rw [← useSsl_id (d := d), ← id2]
      dsimp only
      by_cases hr : wait = .none
      · rw [if_pos hr, if_pos hr]
        refine shows_bind (shows_onlyIf (fun _ => shows_modifyFlags (shows_pure ?_)) fun no => absurd rfl no)
        refine handshakeDone_shows (v := (waitFor wait events (v.useSsl d) d).mapFlags d _) ?_ ?_
        · simpa [used2] using inUse
        · simpa [session2] using own
      · rw [if_neg hr, if_neg hr]
        exact shows_bind (shows_onlyIf (fun no => by cases no) fun _ =>
          shows_pure (shows_pure rfl))

lemma connHandshake_shows {io : HandshakeIO} (he : events ≠ 0#32) :
    Shows (connHandshake io i events v.id d) v fun _ v' => v' = View.handshake io events v d := by
  refine checked_shows he ?_
  unfold View.handshake
  refine shows_ite (fun err => ?_) fun hn => ?_
  · rw [if_pos err]
    exact shows_errFree rfl
  rw [if_neg hn]
  refine shows_bind (shows_bind (shows_conn ?_))
  refine shows_ite (fun hi => shows_pure ?_) fun hb => ?_
  · rw [if_pos hi]
    exact shows_ite (fun no => by cases no) fun _ => sslHandshake_shows inUse own
  rw [if_neg hb]
  refine shows_ite (fun hr => ?_) fun hc => ?_
  · rw [if_pos hr]
    refine shows_bind (shows_modifyFlags (shows_pure ?_))
    exact shows_ite (fun _ => shows_errFree (v := v.mapFlags d _) rfl) fun no => absurd rfl no
  rw [if_neg hc]
  refine shows_bind (shows_modifyFlags (shows_pure ?_))
  refine shows_ite (fun no => by cases no) fun _ => ?_
  exact sslHandshake_shows (v := v.mapFlags d _) inUse (by simpa using own)

lemma connShutdown_shows {io : ShutdownIO} (he : events ≠ 0#32) :
    Shows (connShutdown io i events v.id d) v fun _ v' => v' = View.shutdown io events v d := by
  refine checked_shows he ?_
  unfold View.shutdown
  refine shows_ite (fun err => ?_) fun hn => ?_
  · rw [if_pos err]
    exact shows_errFree rfl
  rw [if_neg hn]
  refine shows_bind (shows_bind (shows_conn ?_))
  refine shows_ite (fun hi => shows_pure ?_) fun hb => ?_
  · rw [if_pos hi]
    refine shows_bind (shows_addEvent inUse own ?_)
    exact shows_passed (shows_pure rfl)
  rw [if_neg hb]
  refine shows_bind (shows_sslUse ?_)
  have hf := useSsl_errFree (v := v) (d := d)
  cases ssl : (v.conn d).ssl with
  | none => exact shows_pure hf
  | some _ =>
    cases ha : io.ssl with
    | none => exact shows_pure hf
    | some wait =>
      refine shows_bind ((sslWaitFor_shows (v := v.useSsl d) (by simpa using inUse)
        (by simpa using own)).mono fun stage v2 h2 => ?_)
      obtain ⟨rfl, rfl⟩ := h2
      obtain ⟨id2, used2, session2⟩ := waitFor_frame (v := v.useSsl d) (d := d) events wait
      rw [← useSsl_id (d := d), ← id2]
      dsimp only
      by_cases hr : wait = .none
      · rw [if_pos hr, if_neg (not_not.mpr hr)]
        refine shows_ite (fun no => absurd rfl no) fun _ => ?_
        refine shows_ite (fun hs => shows_pure ?_) fun freed => ?_
        · rw [if_pos hs]
          exact shows_errFree rfl
        rw [if_neg freed]
        refine shows_bind (shows_emit rfl (by simp) (shows_bind ?_))
        refine shows_modifyConn (v := (waitFor wait events (v.useSsl d) d).note _) rfl (shows_pure ?_)
        refine shows_bind (shows_addEvent (v := View.freeSsl (waitFor wait events (v.useSsl d) d) d)
          (d := d) ?_ ?_ ?_)
        · simpa [View.freeSsl, used2] using inUse
        · simpa [View.freeSsl, session2] using own
        · exact shows_passed (shows_pure rfl)
      · rw [if_neg hr, if_pos hr]
        exact shows_ite (fun _ => shows_pure (shows_pure rfl)) fun no => absurd (by simp) no

/-- The callback of an event, on a connection whose task is not queued. -/
lemma callIocb_shows (io : CallbackIO) (cb : Callback) (he : events ≠ 0#32)
    (hu : (v.conn d).task.linked = false) : Shows (callIocb io cb (.conn v.id d) i events) v
      fun _ v' => v' = View.call io cb events v d := by
  cases cb with
  | connRecvData => exact connRecvData_shows inUse own he
  | connSendData =>
    exact (connSendData_shows inUse own io.send fun _ => hu).mono fun ret v' h => congrArg Prod.snd h
  | connHandshake => exact connHandshake_shows inUse own he
  | connShutdown => exact connShutdown_shows inUse own he
  | listenerAccept => exact shows_throw _

end Fzsvn.Guarantees.Proxy.CallbackViews
