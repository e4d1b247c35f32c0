import Fzsvn.Guarantees.Proxy.CallbackViews

/-!
# What tasks and releases do to a session's view

`session_run_task` as a function of the view and of the answers of the system calls, from
the parse and forward steps to `session_free`.
-/
namespace Fzsvn.Guarantees.Proxy.TaskViews
open Library.Exec Source.Proxy Locality Lifecycle WorkerInvariant SendStep SessionView CallbackViews Function

/-! ## The functions -/

namespace View

open SessionView.View

/-! ### `session_forward` -/

def getServer (io : ForwardIO) (v : View) (d : Dir) : Int × View :=
  if io.spdata = false then (-1, v)
  else
    match io.server with
    | none => (-1, v)
    | some usesSsl =>
      let chosen := v.mapSession (·.chooseServer usesSsl)
      if usesSsl = false then (0, chosen)
      else if io.sslAlloc = false then (-1, chosen.mapConn d ({ · with ssl := none }))
      else (0, (chosen.note (.sslAlloc v.id d)).mapConn d ({ · with ssl := some ⟨none⟩ }))

/-- `c->fd` is written. The item of a new descriptor will be zeroed. -/
def redial (v : View) (d : Dir) (fd : Int) (request : Option Request) : View :=
  { v.mapConn d ({ · with fd := fd, sock := .fresh }) with
    request := update v.request d request }

def openSocket (v : View) (d : Dir) (fd : Nat) : View :=
  redial (v.note (.sockOpen v.id fd)) d fd (some ⟨0#32, none⟩)

/-- A new descriptor is never 0. -/
def clientNb (io : ForwardIO) (v : View) (d : Dir) : Option Bool × View :=
  match io.connect with
  | none => (none, redial v d (-1) none)
  | some (fd, wait) =>
    if fd = 0 then (none, redial v d (-1) none) else (some wait, openSocket v d fd)

def plainSocket (io : ForwardIO) (v : View) (d : Dir) : Bool × View :=
  match io.socket with
  | none => (false, redial v d (-1) none)
  | some fd => if fd = 0 then (false, redial v d (-1) none) else (true, openSocket v d fd)

def connectServer (io : ForwardIO) (mode : PolicyMode) (v : View) (d : Dir) : Option Bool × View :=
  match mode with
  | .reverse => clientNb io v d
  | .tproxy =>
    match plainSocket io v d with
    | (false, v') => (none, v')
    | (true, v') => clientNb io v' d
  | .trapt =>
    match plainSocket io v d with
    | (false, v') => (none, v')
    | (true, v') => (some false, v')

def watchServer (io : ForwardIO) (wait : Bool) (v : View) (d : Dir) : Int × View :=
  if wait then
    (0, (v.mapFlags d ({ · with hsk := true })).ask d fdOut (some .connHandshake))
  else
    match (v.conn d).ssl with
    | none => (0, v.ask d fdIn (some .connRecvData))
    | some _ =>
      if io.sslSetFd = false then (-1, v)
      else (0, (v.mapConn d fun c => { c with
        ssl := some ⟨some c.fd⟩
        flags := { c.flags with sslHsk := true } }).ask d fdOut (some .connHandshake))

/-- The connection is dialled. -/
def dial (io : ForwardIO) (mode : PolicyMode) (v : View) (d : Dir) : Int × View :=
  match getServer io v d with
  | (ret, v₁) =>
    if ret ≠ 0 then (-1, v₁)
    else
      match connectServer io mode v₁ d with
      | (none, v₂) => (-1, v₂)
      | (some wait, v₂) => watchServer io wait v₂ d

def forward (io : ForwardIO) (v : View) (d : Dir) : Int × View :=
  match v.session.policy with
  | none => (-1, v)
  | some mode =>
    let joined := v.mapSession (·.joinOutput d)
    if (v.conn d).fd > 0 then (0, joined) else dial io mode joined d

/-! ### `session_free` -/

/-- The descriptor is closed, its item zeroed. -/
def giveUp (v : View) (d : Dir) : View :=
  { (v.note (.sockClose v.id (v.conn d).fd.toNat)).mapConn d ({ · with fd := -1 }) with
    request := update v.request d none }

def connFree (v : View) (d : Dir) : View :=
  let dropped := v.mapSession (dropPackets · d)
  (if (v.conn d).fd > 0 then giveUp dropped d else dropped).mapConn d (setKind · .none)

/-- The object goes back to the pool. -/
def put (v : View) : View :=
  { v.note (.put v.id (v.conn .client).task.linked (v.conn .server).task.linked) with
    used := false
    request := fun _ => none }

def free (v : View) (d : Dir) : View :=
  let first := connFree (v.note (.released v.id)) d
  if (v.conn d.peer).task.linked then first.mapConn d.peer (setKind · .delete)
  else put (connFree first d.peer)

/-! ### `session_run_task` -/

def closeIfDone (v : View) (d : Dir) : View :=
  if (v.conn d).flags.isClosed && (v.conn d.peer).flags.isClosed then free v d else v

/-- The send step of a task. -/
def send (ios : Nat → SendIO) (v : View) (d : Dir) : Int × View :=
  if (v.conn d).fd < 0 then (-1, v) else CallbackViews.View.sendData ios 0#32 v d

/-- After a failed send the session is released and then looked at once more. An object
that is back in the pool is not released again: `objpool_put` stops there. -/
def abandon (v : View) (d : Dir) : View :=
  let freed := free v d
  if freed.used then closeIfDone freed d else freed

def relay (io : TaskIO) (v : View) (d : Dir) : View :=
  match send io.send v d.peer with
  | (ret, sent) => if ret ≠ 0 then abandon sent d else closeIfDone sent d

def runParse (io : TaskIO) (v : View) (d : Dir) : View :=
  match forward io.forward (v.mapSession (·.joinInput d)) d.peer with
  | (ret, forwarded) => if ret ≠ 0 then free forwarded d else relay io forwarded d

def runSend (io : TaskIO) (v : View) (d : Dir) : View :=
  match send io.send v d with
  | (ret, sent) => if ret ≠ 0 then free sent d else closeIfDone sent d

def runTask (io : TaskIO) (v : View) (d : Dir) : View :=
  match (v.conn d).task.kind with
  | .none => v
  | .delete => free v d
  | .parse => runParse io v d
  | .send => runSend io v d

/-- The task was taken from the queue. -/
def taken (v : View) (d : Dir) : View :=
  (v.mapConn d (setLinked · false)).note (.ran v.id d (v.conn d).task.kind)

/-- What the connection received was parsed. -/
abbrev parsed (v : View) (d : Dir) : View := (taken v d).mapSession (·.joinInput d)

/-- And it was forwarded to the peer. -/
abbrev forwarded (io : ForwardIO) (v : View) (d : Dir) : Int × View := forward io (parsed v d) d.peer

/-- The packets a parse task of `d` has the peer send. -/
def pending (v : View) (d : Dir) : List Packet :=
  (v.conn d.peer).output ++ (v.session.staged d ++ (v.conn d).input)

/-- A parse task has moved what the connection received to the output of the peer. -/
def joined (v : View) (d : Dir) : View :=
  ((taken v d).mapSession (·.joinInput d)).mapSession (·.joinOutput d.peer)

end View

open View (dial forward forwarded free getServer joined openSocket redial send taken)

/-! ## What a parse task forwards -/

variable {mode : PolicyMode}

variable {v : View} {d : Dir}

@[simp] lemma taken_conn : (taken v d).conn d = setLinked (v.conn d) false := by
  simp [taken]

@[simp] lemma taken_peer : (taken v d).conn d.peer = v.conn d.peer := by
  simp [taken]

lemma joined_conn : (joined v d).conn d = { setLinked (v.conn d) false with input := [] } := by
  simp [joined, Session.joinInput, Session.joinOutput, taken]

lemma joined_peer : (joined v d).conn d.peer = { v.conn d.peer with output := View.pending v d } := by
  simp [joined, View.pending, Session.joinInput, Session.joinOutput, taken, setLinked]

lemma joined_staged : (joined v d).session.staged d = [] := by
  simp [joined, Session.joinInput, Session.joinOutput]

lemma joined_staged_peer : (joined v d).session.staged d.peer = v.session.staged d.peer := by
  simp [joined, Session.joinInput, Session.joinOutput, taken]

/-- A connected peer is only given its output. -/
lemma forward_connected (io : ForwardIO) (ho : (v.conn d.peer).fd > 0)
    (hp : v.session.policy = some mode) : forwarded io v d = (0, joined v d) := by
  have ho' : (v.session.conns d.peer).fd > 0 := ho
  simp [forward, View.parsed, joined, Session.joinInput, taken, hp, ho']

lemma forward_dials (io : ForwardIO) (hc : ¬ (v.conn d.peer).fd > 0)
    (hp : v.session.policy = some mode) :
    forwarded io v d = dial io mode (joined v d) d.peer := by
  have hc' : ¬ (v.session.conns d.peer).fd > 0 := hc
  simp [forward, View.parsed, joined, Session.joinInput, taken, hp, hc']

lemma forward_unset (io : ForwardIO) (hp : v.session.policy = none) :
    forwarded io v d = (-1, View.parsed v d) := by
  simp [forward, Session.joinInput, taken, hp]

lemma forwarded_policy {io : ForwardIO} (hd : (forwarded io v d).1 = 0) :
    ∃ mode, v.session.policy = some mode := by
  cases hp : v.session.policy with
  | none => simp [forward_unset io hp] at hd
  | some mode => exact ⟨mode, rfl⟩

/-! ## The code computes them -/

variable {v' : View} {w w' : Worker}

lemma sessionFparse_shows : Shows (sessionFparse v.id d) v
      fun ret v' => ret = 0 ∧ v' = v.mapSession (·.joinInput d) := by
  refine shows_bind (shows_session (shows_bind (shows_require fun _ => ?_)))
  refine shows_bind (shows_modifySession (fun e => ?_) (shows_pure ⟨rfl, rfl⟩))
  rcases d.sides e with rfl | rfl <;> simp [Session.joinInput]

lemma sessionGetServer_shows {io : ForwardIO} :
    Shows (sessionGetServer io v.id d) v fun ret v' => (ret, v') = getServer io v d := by
  refine shows_bind (shows_session (shows_bind (shows_require fun _ => ?_)))
  refine shows_bind (shows_require fun _ => ?_)
  unfold getServer
  refine shows_ite (fun none => shows_pure (by rw [if_pos none])) fun some => ?_
  rw [if_neg some]
  cases hs : io.server with
  | none => exact shows_pure rfl
  | some usesSsl =>
    refine shows_bind (shows_modifySession (fun _ => rfl) ?_)
    refine shows_ite (fun hp => shows_pure (by simp [hp])) fun ssl => ?_
    dsimp only
    rw [if_neg ssl]
    refine shows_bind (shows_onlyIf (fun ha => ?_) fun hf => ?_)
    · refine shows_emit (v := v.mapSession _) rfl (by simp) (shows_bind ?_)
      refine shows_modifyConn (v := (v.mapSession _).note _) rfl (shows_pure ?_)
      simp [ha]
    · refine shows_bind (shows_modifyConn (v := v.mapSession _) rfl (shows_pure ?_))
      simp [hf]

/-- What dialling leaves alone: all but the descriptor, its socket and request, the SSL
object and the two handshake flags. -/
structure Redials (d : Dir) (v v' : View) : Prop where
  id : v'.id = v.id
  used : v'.used = v.used
  task : (v'.conn d).task = (v.conn d).task
  flags : (v'.conn d).flags = { (v.conn d).flags with
    hsk := (v'.conn d).flags.hsk
    sslHsk := (v'.conn d).flags.sslHsk }
  input : (v'.conn d).input = (v.conn d).input
  output : (v'.conn d).output = (v.conn d).output
  cut : (v'.conn d).cut = (v.conn d).cut
  staged : v'.session.staged = v.session.staged
  policy : v'.session.policy = v.session.policy
  peer : v'.conn d.peer = v.conn d.peer
  request : v'.request d.peer = v.request d.peer

lemma redials_trans {v₁ v₂ v3 : View} (h1 : Redials d v₁ v₂) (h2 : Redials d v₂ v3) : Redials d v₁ v3 where
  id := h2.id.trans h1.id
  used := h2.used.trans h1.used
  task := h2.task.trans h1.task
  flags := by
    have flags := h2.flags
    rw [h1.flags] at flags
    exact flags
  input := h2.input.trans h1.input
  output := h2.output.trans h1.output
  cut := h2.cut.trans h1.cut
  staged := h2.staged.trans h1.staged
  policy := h2.policy.trans h1.policy
  peer := h2.peer.trans h1.peer
  request := h2.request.trans h1.request

@[simp] lemma chooseServer_staged (x : Session) (usesSsl : Bool) :
    (x.chooseServer usesSsl).staged = x.staged := by
  funext e
  cases e <;> rfl

lemma getServer_redials (io : ForwardIO) : Redials d v (getServer io v d).2 := by
  unfold getServer
  repeat' split
  all_goals constructor
  all_goals simp

/-- The worker has the view's object and log; its requests are not there yet. -/
structure Written (w : Worker) (v : View) : Prop where
  session : w.sessions v.id = v.session
  used : w.used v.id = v.used
  log : noted v.id w.log = v.log

lemma redial_written (h : Written w v) {fd : Int} (request : Option Request) :
    Written ((w.emit (.field v.id)).mapConn v.id d ({ · with fd := fd, sock := .fresh }))
      (redial v d fd request) :=
  ⟨by simp [redial, h.session], h.used, by simpa [redial] using h.log⟩

lemma openSocket_written (h : Written w v) (fd : Nat) :
    Written ((((({ w with opened := update w.opened fd true } : Worker).emit
        (.sockOpen v.id fd)).emit (.field v.id)).mapConn v.id d
          ({ · with fd := fd, sock := .fresh }))) (openSocket v d fd) := by
  have hn : Written (({ w with opened := update w.opened fd true } : Worker).emit
      (.sockOpen v.id fd)) (v.note (.sockOpen v.id fd)) :=
    ⟨h.session, h.used, by simp [about, h.log]⟩
  exact redial_written hn _

section

variable (io : ForwardIO)

lemma sockets_write (h : Written w v) : Ensures (clientNb io v.id d) w
      (fun r w' => r = (View.clientNb io v d).1 ∧ Written w' (View.clientNb io v d).2) (fun _ _ => True) ∧
    Ensures (plainSocket io v.id d) w
      (fun r w' => r = (View.plainSocket io v d).1 ∧ Written w' (View.plainSocket io v d).2)
      (fun _ _ => True) := by
  unfold clientNb plainSocket View.clientNb View.plainSocket
  constructor
  on_goal 1 => cases io.connect
  on_goal 3 => cases io.socket
  all_goals
    simp only [ensures_bind, openFd, ensures_takeFd, ensures_emit, ensures_modifyConn, ensures_pure]
  case left.none | right.none => exact ⟨trivial, redial_written h _⟩
  all_goals
    refine ⟨fun hf => ?_, fun _ => trivial⟩
    rw [if_neg hf.2]
    exact ⟨rfl, openSocket_written h _⟩

lemma plainSocket_id : (View.plainSocket io v d).2.id = v.id := by
  unfold View.plainSocket
  repeat' split
  all_goals rfl

lemma connectServer_writes (h : Written w v) : Ensures (connectServer io mode v.id d) w
      (fun r w' => r = (View.connectServer io mode v d).1 ∧
        Written w' (View.connectServer io mode v d).2) (fun _ _ => True) := by
  cases mode with
  | reverse => exact (sockets_write io h).1
  | tproxy =>
    simp only [connectServer, ensures_bind]
    refine (sockets_write io h).2.imp (fun ok w1 h1 => ?_)
    obtain ⟨ok1, written1⟩ := h1
    have id1 := plainSocket_id (v := v) (d := d) io
    unfold View.connectServer
    dsimp only
    generalize View.plainSocket io v d = r at *
    obtain ⟨ok', v₁⟩ := r
    dsimp only at ok1 written1 id1
    subst ok1
    rw [ensures_ite, ensures_pure]
    cases ok with
    | false => exact ⟨fun _ => ⟨rfl, written1⟩, fun no => absurd rfl no⟩
    | true =>
      refine ⟨fun no => (by cases no), fun _ => ?_⟩
      rw [← id1]
      exact (sockets_write io written1).1
  | trapt =>
    simp only [connectServer, ensures_bind, ensures_pure]
    refine (sockets_write io h).2.imp (fun ok w1 h1 => ?_)
    obtain ⟨ok1, written1⟩ := h1
    unfold View.connectServer
    dsimp only
    generalize View.plainSocket io v d = r at *
    obtain ⟨ok', v₁⟩ := r
    dsimp only at ok1 written1
    subst ok1
    cases ok with
    | false => exact ⟨rfl, written1⟩
    | true => exact ⟨rfl, written1⟩

/-- The sockets that a connect opens, one after the other, or gives up. -/
inductive Connects (d : Dir) : View → Option Bool × View → Prop
  | closed {v : View} : Connects d v (none, View.redial v d (-1) none)
  | opened {v : View} (fd : Nat) (valid : fd ≠ 0) (wait : Bool) :
      Connects d v (some wait, View.openSocket v d fd)
  | again {v : View} {r : Option Bool × View} (fd : Nat) (valid : fd ≠ 0)
      (rest : Connects d (View.openSocket v d fd) r) : Connects d v r

lemma connectServer_connects (mode : PolicyMode) : Connects d v (View.connectServer io mode v d) := by
  have hc : ∀ v, Connects d v (View.clientNb io v d) := by
    intro v
    unfold View.clientNb
    repeat' split
    · exact .closed
    · exact .closed
    · next hv => exact .opened _ hv _
  cases mode with
  | reverse => exact hc v
  | _ =>
    unfold View.connectServer View.plainSocket
    cases io.socket with
    | none => exact .closed
    | some fd =>
      by_cases zero : fd = 0
      · simp only [zero, if_true]
        exact .closed
      · simp only [if_neg zero]
        first | exact .again fd zero (hc _) | exact .opened fd zero false

/-- What opening and giving up a socket keep is kept by the connect. -/
lemma connectServer_keeps {P : View → Prop} (mode : PolicyMode)
    (closed : ∀ v, P v → P (redial v d (-1) none))
    (opened : ∀ v (fd : Nat), fd ≠ 0 → P v → P (openSocket v d fd)) (hs : P v) :
    P (View.connectServer io mode v d).2 := by
  have hc := connectServer_connects (v := v) (d := d) io mode
  generalize View.connectServer io mode v d = r at hc ⊢
  induction hc with
  | closed => exact closed _ hs
  | opened fd hv wait => exact opened _ fd hv hs
  | again fd hv rest ih => exact ih (opened _ fd hv hs)

/-- A connect that succeeds leaves a descriptor. -/
lemma connectServer_opened (mode : PolicyMode) (some : (View.connectServer io mode v d).1.isSome = true) :
    ((View.connectServer io mode v d).2.conn d).fd > 0 := by
  have hc := connectServer_connects (v := v) (d := d) io mode
  generalize View.connectServer io mode v d = r at hc some ⊢
  induction hc with
  | closed => cases some
  | opened fd hv wait => simpa [openSocket, redial] using Nat.pos_of_ne_zero hv
  | again fd hv rest ih => exact ih some

lemma connectServer_redials (mode : PolicyMode) : Redials d v (View.connectServer io mode v d).2 := by
  refine connectServer_keeps (P := Redials d v) io mode (fun v' h => redials_trans h ?_)
    (fun v' fd _ h => redials_trans h ?_) ?_
  all_goals constructor
  all_goals simp [openSocket, redial]

/-- The request of the dialled descriptor, as it will be. -/
lemma connectServer_request (mode : PolicyMode) :
    (View.connectServer io mode v d).2.request = update v.request d
      (if (View.connectServer io mode v d).1.isSome then some ⟨0#32, none⟩ else none) := by
  have hc := connectServer_connects (v := v) (d := d) io mode
  generalize View.connectServer io mode v d = r at hc ⊢
  induction hc with
  | closed => rfl
  | opened fd hv wait => rfl
  | again fd hv rest ih =>
    rw [ih]
    exact update_idem ..

end

/-- The item of the new descriptor is zeroed and points at the connection. -/
lemma looks_dialed {i : Nat} (h : Looks w v) (inUse : v.used = true)
    (hd : Dialed v.id d true w w') (hw : Written w' v') (id : v'.id = v.id)
    (hr : v'.request = update v.request d (some ⟨0#32, none⟩))
    (fd : (w'.conn v.id d).fd = i) (hi : i < w'.epoll.fe.maxfd) :
    Looks (w'.mapItem i fun _ => freshItem (.conn v.id d)) v' := by
  obtain ⟨j, fd', pos, free, -⟩ := hd.dialed rfl
  have he : j = i := by omega
  subst he
  have hi' : w'.used v.id = true := hd.own.trans (h.used.trans inUse)
  have fd'' : ((w'.sessions v.id).conns d).fd = j := fd
  refine looks_of hw.session hw.used ?_ hw.log ?_
  · rw [id, hr]
    funext e
    rcases d.sides e with rfl | rfl
    · simp [requestOf, hi', fd'', pos, freshItem]
    · rw [update_of_ne d.peer_ne, ← h.request]
      have hp : ((w'.sessions v.id).conns d.peer).fd = ((w.sessions v.id).conns d.peer).fd :=
        hd.peer
      simp only [requestOf, Worker.mapItem_used, Worker.conn, Worker.mapItem_sessions, hp, hi',
        h.used.trans inUse]
      split
      · next live =>
        have hf : (w.conn v.id d.peer).fd = ((w.conn v.id d.peer).fd.toNat : Nat) :=
          (Int.toNat_of_nonneg (Int.le_of_lt live.2)).symm
        have different : (w.conn v.id d.peer).fd.toNat ≠ j := by
          intro hc
          have hh := h.owns d.peer _ hf
          rw [hc] at hh
          rw [hh.opened] at free
          cases free
        have hd' : ((w.sessions v.id).conns d.peer).fd.toNat ≠ j := different
        simp [hd', hd.epoll]
      · rfl
  · rw [id]
    exact hd.owns h.owns fd hi

lemma looks_notDialed (h : Looks w v) (inUse : v.used = true)
    (hd : Dialed v.id d false w w') (hw : Written w' v') (id : v'.id = v.id)
    (hr : v'.request = update v.request d none) : Looks w' v' := by
  have hi' : w'.used v.id = true := hd.own.trans (h.used.trans inUse)
  have hc : ((w'.sessions v.id).conns d).fd = -1 := hd.failed rfl
  refine looks_of hw.session hw.used ?_ hw.log ?_
  · rw [id, hr]
    funext e
    rcases d.sides e with rfl | rfl
    · simp [requestOf, hc]
    · rw [update_of_ne d.peer_ne, ← h.request]
      have hp : ((w'.sessions v.id).conns d.peer).fd = ((w.sessions v.id).conns d.peer).fd :=
        hd.peer
      simp only [requestOf, Worker.conn, hp, hi', h.used.trans inUse, Worker.item, hd.epoll]
  · rw [id]
    exact hd.owns_failed h.owns

lemma watchServer_shows (io : ForwardIO) (wait : Bool) {i : Nat} (inUse : v.used = true)
    (own : (v.conn d).fd = i) : Shows (watchServer io wait v.id d) v
      fun ret v' => (ret, v') = View.watchServer io wait v d := by
  refine shows_bind (shows_conn ?_)
  unfold View.watchServer
  rw [own]
  refine shows_ite (fun hw => ?_) fun ha => ?_
  · rw [if_pos hw]
    refine shows_bind (shows_modifyFlags ?_)
    exact shows_addEvent (v := v.mapFlags d _) (d := d) inUse (by simpa using own) rfl
  rw [if_neg ha]
  cases ssl : (v.conn d).ssl with
  | none => exact shows_addEvent inUse own rfl
  | some _ =>
    refine shows_ite (fun bad => shows_pure (by rw [if_pos bad])) fun hg => ?_
    rw [if_neg hg]
    refine shows_bind (shows_modifyConn rfl ?_)
    exact shows_addEvent (v := v.mapConn d _) (d := d) inUse (by simpa using own) rfl

/-- From the connect to the end of `session_forward`. -/
lemma dialServer_shows (io : ForwardIO) (mode : PolicyMode) (inUse : v.used = true) : Shows (do
        let wait ← connectServer io mode v.id d
        match wait with
        | none => return -1
        | some wait =>
          let c ← conn v.id d
          let i ← itemOf c.fd
          writeItem i fun _ => freshItem (.conn v.id d)
          let ret ← watchServer io wait v.id d
          return if ret ≠ 0 then -1 else 0 : Run Int) v
      fun ret v' => (ret, v') = match View.connectServer io mode v d with
        | (none, v₂) => (-1, v₂)
        | (some wait, v₂) => View.watchServer io wait v₂ d := by
  intro w hl
  rw [ensures_bind]
  refine ((connectServer_dialed (d := d) io mode w).and
    (connectServer_writes (d := d) io ⟨hl.session, hl.used, hl.log⟩)).imp_true (fun wait w2 h2 => ?_)
  obtain ⟨hd, ha, written⟩ := h2
  have hr := connectServer_redials (v := v) (d := d) io mode
  have id := hr.id
  have hu := hr.used
  have request := connectServer_request (v := v) (d := d) io mode
  generalize View.connectServer io mode v d = r at *
  obtain ⟨wait', v₂⟩ := r
  dsimp only at ha written id hu request
  subst ha
  cases wait with
  | none =>
    exact (ensures_pure _).mpr ⟨v₂, looks_notDialed hl inUse hd written id request, rfl⟩
  | some wait =>
    obtain ⟨i, fd, -, -, -⟩ := hd.dialed rfl
    have fd' : ((w2.sessions v.id).conns d).fd = i := fd
    simp only [ensures_bind, ensures_conn, ensures_itemOf, ensures_writeItem, fd', Int.toNat_natCast]
    refine ⟨fun _ _ => ⟨fun hi => ?_, fun _ => trivial⟩, fun _ => trivial⟩
    have looks2 := looks_dialed hl inUse hd written id request fd hi
    have looks3 := looks_field looks2
    have own : (v₂.conn d).fd = i := by
      rw [View.conn, ← written.session, id]
      exact fd
    have hw := watchServer_shows (v := v₂) io wait (hu.trans inUse) own
    rw [id] at hw looks3
    refine (hw _ looks3).imp_true (fun ret w4 h4 => ?_)
    obtain ⟨v4, looks4, done⟩ := h4
    refine (ensures_pure _).mpr ⟨v4, looks4, ?_⟩
    have hr' : ret = 0 ∨ ret = -1 := by
      have := congrArg Prod.fst done
      unfold View.watchServer at this
      dsimp only at this
      split at this
      · exact .inl this
      · split at this
        · exact .inl this
        · split at this
          · exact .inr this
          · exact .inl this
    rw [← done]
    rcases hr' with rfl | rfl <;> rfl

lemma sessionForward_shows (io : ForwardIO) (inUse : v.used = true) :
    Shows (sessionForward io v.id d) v fun ret v' => (ret, v') = forward io v d := by
  refine shows_bind (shows_session (shows_bind (shows_require fun _ => ?_)))
  unfold forward
  cases hp : v.session.policy with
  | none => exact shows_throw _
  | some mode =>
    refine shows_bind (shows_modifySession (fun e => ?_) ?_)
    · rcases d.sides e with rfl | rfl <;> simp [Session.joinOutput]
    refine shows_ite (fun ho => shows_pure (by simp only; rw [if_pos ho])) fun closed => ?_
    simp only
    rw [if_neg closed]
    unfold dial
    refine shows_bind ((sessionGetServer_shows (v := v.mapSession _)).mono fun ret v₁ h1 => ?_)
    have hc := getServer_redials (v := v.mapSession (·.joinOutput d)) (d := d) io
    rw [← h1] at hc ⊢
    refine shows_ite (fun hf => shows_pure (by simp only; rw [if_pos hf])) fun fine => ?_
    simp only
    rw [if_neg fine]
    have id1 : v.id = v₁.id := hc.id.symm
    rw [id1]
    exact dialServer_shows io mode (hc.used.trans inUse)

lemma looks_giveUp {i : Nat} (h : Looks w v) (fd : (v.conn d).fd = i) :
    Looks (Lifecycle.giveUp w v.id d i) (View.giveUp v d) := by
  have fd' : (w.conn v.id d).fd = i := by rw [h.conn]; exact fd
  have fd'' : ((w.sessions v.id).conns d).fd = i := fd'
  have fdv : (v.session.conns d).fd = i := fd
  refine looks_of ?_ h.used ?_ ?_ (giveUp_owns h.owns fd')
  · simp [Lifecycle.giveUp, View.giveUp, h.session]
  · refine Eq.trans ?_ (congrArg (fun request => update request d none) h.request)
    have id : (View.giveUp v d).id = v.id := rfl
    rw [id]
    funext e
    rcases d.sides e with rfl | rfl
    · simp [requestOf, Lifecycle.giveUp]
    · rw [update_of_ne d.peer_ne]
      have hp : ((Lifecycle.giveUp w v.id d i).conn v.id d.peer).fd = (w.conn v.id d.peer).fd := by
        simp [Lifecycle.giveUp]
      have hu : (Lifecycle.giveUp w v.id d i).used = w.used := rfl
      simp only [requestOf, hp, hu]
      split
      · next live =>
        have hf : (w.conn v.id d.peer).fd = ((w.conn v.id d.peer).fd.toNat : Nat) :=
          (Int.toNat_of_nonneg (Int.le_of_lt live.2)).symm
        have different : (w.conn v.id d.peer).fd.toNat ≠ i := by
          rintro rfl
          exact absurd (h.owns.distinct h.owns hf fd').2 d.peer_ne
        have hd' : ((w.sessions v.id).conns d.peer).fd.toNat ≠ i := different
        simp [Lifecycle.giveUp, hd']
      · rfl
  · simp [Lifecycle.giveUp, View.giveUp, about, h.log, fdv]

lemma giveUp_shows (ho : (v.conn d).fd > 0) : Shows (do
        let i ← itemOf (v.conn d).fd
        writeItem i fun _ => .zero
        closeFd v.id (v.conn d).fd.toNat
        modifyConn v.id d ({ · with fd := -1 }) : Run Unit) v fun _ v' => v' = View.giveUp v d := by
  intro w hl
  obtain ⟨i, fd⟩ : ∃ i : Nat, (v.conn d).fd = i := ⟨_, (Int.toNat_of_nonneg (by omega)).symm⟩
  have hd := looks_giveUp hl fd
  rw [fd]
  simp only [ensures_bind, ensures_itemOf, ensures_writeItem, closeFd, dropFd, ensures_modify,
    ensures_emit, ensures_modifyConn, Int.toNat_natCast]
  exact ⟨fun _ _ => ⟨fun _ => ⟨_, hd, rfl⟩, fun _ => trivial⟩, fun _ => trivial⟩

/-- A session that holds its descriptors never holds 0. -/
lemma connFree_closed (hl : Looks w v) : ((View.connFree v d).conn d).fd < 0 := by
  unfold View.connFree
  split
  · simp [View.giveUp, setKind]
  · next closed =>
    by_contra hn
    have fd : (w.conn v.id d).fd = (0 : Nat) := by
      rw [hl.conn]
      have : ¬ (v.conn d).fd < 0 := by simpa [dropPackets, setKind] using hn
      omega
    exact (hl.owns d 0 fd).pos rfl

lemma connFree_shows : Shows (connFree v.id d) v
      fun _ v' => v' = View.connFree v d ∧ ((View.connFree v d).conn d).fd < 0 := by
  intro w hl
  have hc := connFree_closed (d := d) hl
  refine (show Shows _ v _ from ?_) w hl
  refine shows_bind (shows_session (shows_bind (shows_require fun _ => ?_)))
  have fds : ∀ e, ((dropPackets v.session d).conns e).fd = (v.conn e).fd := by
    intro e
    rcases d.sides e with rfl | rfl <;> simp [dropPackets]
  refine shows_bind (shows_modifySession fds ?_)
  have he : ((v.mapSession (dropPackets · d)).conn d).fd = (v.session.conns d).fd := fds d
  rw [← he]
  refine shows_bind (shows_onlyIf (fun ho => ?_) fun hn => ?_)
  · refine (giveUp_shows (v := v.mapSession (dropPackets · d)) ho).mono fun _ v₁ h1 => ?_
    rw [h1]
    refine shows_modifyConn (v := View.giveUp (v.mapSession (dropPackets · d)) d) rfl ⟨?_, hc⟩
    rw [he] at ho
    simp only [View.connFree, View.conn, if_pos ho]
  · refine shows_modifyConn (v := v.mapSession (dropPackets · d)) rfl ⟨?_, hc⟩
    rw [he] at hn
    simp only [View.connFree, View.conn, if_neg hn]

lemma connFree_frame : (View.connFree v d).id = v.id ∧ (View.connFree v d).used = v.used ∧
      (View.connFree v d).conn d.peer = v.conn d.peer ∧
      ((View.connFree v d).conn d).task.linked = (v.conn d).task.linked := by
  unfold View.connFree
  split <;> simp [View.giveUp, dropPackets, setKind]

/-- A release changes no SSL object, flag or cut. -/
lemma connFree_kept (e : Dir) : ((View.connFree v d).conn e).ssl = (v.conn e).ssl ∧
      ((View.connFree v d).conn e).flags = (v.conn e).flags ∧
      ((View.connFree v d).conn e).cut = (v.conn e).cut := by
  unfold View.connFree
  rcases d.sides e with rfl | rfl <;> split <;>
    simp [View.giveUp, dropPackets, setKind]

/-- The list of the listener is not seen, and an object in the pool requests nothing. -/
lemma putSession_shows (hc : ∀ e, (v.conn e).fd < 0) :
    Shows (do modify (unlinkSession · v.id); putSession v.id : Run Unit) v
      fun _ v' => v' = View.put v ∧ v.used = true := by
  intro w hl
  have fds : ∀ e, ((w.sessions v.id).conns e).fd < 0 := fun e => by
    rw [hl.session]
    exact hc e
  simp only [putSession, ensures_bind, ensures_get, ensures_require, ensures_session,
    ensures_modify, ensures_emit, unlinkSession_used, unlinkSession_sessions]
  refine ⟨fun inUse => ?_, fun _ => trivial⟩
  refine ⟨View.put v, looks_of hl.session (by simp [View.put]) ?_ ?_ ?_, rfl, hl.used.symm.trans inUse⟩
  · funext e
    simp [requestOf, View.put]
  · simp [View.put, about, hl.log, hl.session]
  · intro e i fd
    have := fds e
    have fd' : ((w.sessions v.id).conns e).fd = i := fd
    omega

lemma sessionFree_shows : Shows (sessionFree v.id d) v
      fun _ v' => v' = free v d ∧ ((v.conn d.peer).task.linked = false → v.used = true) := by
  refine shows_bind (shows_emit rfl (by simp) (shows_bind ?_))
  refine shows_session (v := v.note _) (shows_bind (shows_require fun _ => ?_))
  refine shows_bind (shows_require fun _ => shows_bind ?_)
  refine (connFree_shows (v := v.note (.released v.id)) (d := d)).mono fun _ v₁ h1 => ?_
  obtain ⟨eq1, closed1⟩ := h1
  obtain ⟨id1, used1, peer1, -⟩ := connFree_frame (v := v.note (.released v.id)) (d := d)
  unfold free
  rw [← eq1] at closed1 id1 used1 peer1 ⊢
  have id1' : v.id = v₁.id := id1.symm
  have linked1 : (v₁.conn d.peer).task.linked = (v.conn d.peer).task.linked := by rw [peer1]; rfl
  rw [id1']
  refine shows_bind (shows_conn (shows_ite (fun hl => ?_) fun hu => ?_))
  · rw [linked1] at hl
    refine shows_bind (shows_modifyConn rfl (shows_pure ⟨by rw [if_pos hl], fun no => ?_⟩))
    rw [no] at hl
    cases hl
  rw [linked1] at hu
  simp only
  rw [if_neg hu]
  refine shows_bind ((connFree_shows (v := v₁) (d := d.peer)).mono fun _ v3 h3 => ?_)
  obtain ⟨eq3, closed3⟩ := h3
  obtain ⟨id3, used3, peer3, -⟩ := connFree_frame (v := v₁) (d := d.peer)
  rw [← eq3] at closed3 id3 used3 peer3 ⊢
  have id3' : v₁.id = v3.id := id3.symm
  rw [id3']
  refine shows_bind (shows_session (shows_bind (shows_stopUnless fun _ => ?_)))
  have hc : ∀ e, (v3.conn e).fd < 0 := by
    intro e
    rcases d.sides e with rfl | rfl
    · rw [Dir.peer_peer] at peer3
      rw [peer3]
      exact closed1
    · exact closed3
  have hf : Shows ((modify (unlinkSession · v3.id) >>= fun _ => putSession v3.id) >>=
      fun _ => (pure 0 : Run Int)) v3
      (fun _ v' => v' = View.put v3 ∧ ((v.conn d.peer).task.linked = false → v.used = true)) :=
    shows_bind ((putSession_shows hc).mono fun _ v4 h4 =>
      shows_pure ⟨h4.1, fun _ => by rw [← h4.2, used3, used1]; rfl⟩)
  rw [bind_assoc] at hf
  exact hf

lemma free_id : (free v d).id = v.id := by
  obtain ⟨id1, -⟩ := connFree_frame (v := v.note (.released v.id)) (d := d)
  unfold free
  split
  · exact id1
  · exact (connFree_frame (d := d.peer)).1.trans id1

/-- A queued task of the peer keeps the object in use. -/
lemma free_used : (free v d).used = (v.used && (v.conn d.peer).task.linked) := by
  obtain ⟨-, used1, -⟩ := connFree_frame (v := v.note (.released v.id)) (d := d)
  unfold free
  split
  · next linked => simp [linked, used1]
  · next unlinked => simp [unlinked, View.put]

lemma free_linked (e : Dir) : ((free v d).conn e).task.linked = (v.conn e).task.linked := by
  have hf : ∀ {v : View} {d : Dir} (e : Dir),
      ((View.connFree v d).conn e).task.linked = (v.conn e).task.linked := by
    intro v d e
    obtain ⟨-, -, hp, own⟩ := connFree_frame (v := v) (d := d)
    rcases d.sides e with rfl | rfl
    · exact own
    · rw [hp]
  unfold free
  split
  · rcases d.peer.sides e with rfl | rfl <;> simp [setKind, hf]
  · exact (hf e).trans (hf e)

lemma free_kept (e : Dir) : ((free v d).conn e).ssl = (v.conn e).ssl ∧
      ((free v d).conn e).flags = (v.conn e).flags ∧
      ((free v d).conn e).cut = (v.conn e).cut := by
  have hf := connFree_kept (v := v.note (.released v.id)) (d := d) e
  unfold free
  split
  · rcases d.peer.sides e with rfl | rfl <;> simpa [setKind] using hf
  · have hs := connFree_kept (v := View.connFree (v.note (.released v.id)) d) (d := d.peer) e
    exact ⟨hs.1.trans hf.1, hs.2.1.trans hf.2.1, hs.2.2.trans hf.2.2⟩

lemma closeIfDone_shows : Shows (closeIfDone v.id d) v fun _ v' => v' = View.closeIfDone v d ∧
      (v' = v ∨ ((v.conn d.peer).task.linked = false → v.used = true)) := by
  unfold View.closeIfDone
  refine shows_bind (shows_session (shows_ite (fun hb => ?_) fun no => ?_))
  · rw [if_pos hb]
    exact shows_bind (sessionFree_shows.mono fun _ v₁ h1 => shows_pure ⟨h1.1, .inr h1.2⟩)
  · exact shows_pure ⟨by rw [if_neg no], .inl rfl⟩

/-- The tail of a task whose send failed. -/
lemma abandon_shows (inUse : v.used = true) : Shows (do
        let _ ← sessionFree v.id d
        closeIfDone v.id d : Run Int) v fun _ v' => v' = View.abandon v d := by
  refine shows_bind (sessionFree_shows.mono fun _ v₁ h1 => ?_)
  obtain ⟨rfl, -⟩ := h1
  rw [← free_id (v := v) (d := d)]
  refine closeIfDone_shows.mono fun _ v₂ h2 => ?_
  obtain ⟨hc, hb⟩ := h2
  unfold View.abandon
  dsimp only
  split
  · exact hc
  · next unused =>
    rcases hb with he | inUse1
    · exact he
    · refine absurd (inUse1 ?_) unused
      rw [free_linked]
      simpa [free_used, inUse] using unused

lemma sendData_id (ios : Nat → SendIO) (events : Mask) :
    (CallbackViews.View.sendData ios events v d).2.id = v.id := by
  have id := sendLooped_id (v := v) (d := d) ios
  unfold CallbackViews.View.sendData
  split
  · rfl
  · dsimp only
    split
    · unfold CallbackViews.View.sendErr SessionView.View.queue
      split
      · exact id
      · split <;> exact id
    · unfold CallbackViews.View.sendBlock
      split <;> exact id
    · obtain ⟨id1, -⟩ := sendUnblock_frame (v := CallbackViews.View.sendLooped ios v d) (d := d)
      unfold CallbackViews.View.sendShut
      split
      · exact id1.trans id
      · split <;> exact id1.trans id

/-- A send step leaves the descriptors and, outside of callbacks, the tasks. -/
lemma send_frame (ios : Nat → SendIO) :
    (send ios v d).2.id = v.id ∧ (send ios v d).2.used = v.used ∧
      ∀ e, ((send ios v d).2.conn e).fd = (v.conn e).fd ∧
        ((send ios v d).2.conn e).task = (v.conn e).task := by
  have hl : ∀ e, ((CallbackViews.View.sendLooped ios v d).conn e).fd = (v.conn e).fd ∧
      ((CallbackViews.View.sendLooped ios v d).conn e).task = (v.conn e).task := fun e =>
    ⟨(sendLooped_frame ios e).1, (sendLooped_frame ios e).2.1⟩
  have used := sendLooped_used (v := v) (d := d) ios
  have id : (send ios v d).2.id = v.id := by
    unfold send
    split
    · rfl
    · exact sendData_id ios _
  refine ⟨id, ?_⟩
  unfold send CallbackViews.View.sendData
  split
  · exact ⟨rfl, fun _ => ⟨rfl, rfl⟩⟩
  split
  · exact ⟨rfl, fun _ => ⟨rfl, rfl⟩⟩
  dsimp only
  generalize CallbackViews.View.sendLooped ios v d = v₁ at hl used
  split
  · refine ⟨used, fun e => ?_⟩
    rcases d.sides e with rfl | rfl <;> simpa [CallbackViews.View.sendErr] using hl _
  · unfold CallbackViews.View.sendBlock
    split
    · exact ⟨used, hl⟩
    · refine ⟨used, fun e => ?_⟩
      rcases d.sides e with rfl | rfl <;> simpa using hl _
  · have hu : (CallbackViews.View.sendUnblock v₁ d).used = v.used ∧
        ∀ e, ((CallbackViews.View.sendUnblock v₁ d).conn e).fd = (v.conn e).fd ∧
          ((CallbackViews.View.sendUnblock v₁ d).conn e).task = (v.conn e).task := by
      unfold CallbackViews.View.sendUnblock
      split
      · exact ⟨used, hl⟩
      · refine ⟨used, fun e => ?_⟩
        rcases d.sides e with rfl | rfl <;> simpa using hl _
    generalize CallbackViews.View.sendUnblock v₁ d = v₂ at hu
    unfold CallbackViews.View.sendShut
    split
    · exact hu
    · split
      · refine ⟨hu.1, fun e => ?_⟩
        rcases d.sides e with rfl | rfl <;> simpa using hu.2 _
      · refine ⟨hu.1, fun e => ?_⟩
        rcases d.sides e with rfl | rfl <;> simpa [cutBy] using hu.2 _

/-- The send step of a task, on whatever descriptor the connection has. -/
lemma send_shows {ios : Nat → SendIO} (inUse : v.used = true) :
    Shows (connSendData ios (v.conn d).fd 0#32 v.id d) v fun ret v' => (ret, v') = send ios v d := by
  unfold send
  by_cases hc : (v.conn d).fd < 0
  · rw [if_pos hc]
    exact shows_ite (fun _ => shows_pure rfl) fun no => absurd hc no
  · rw [if_neg hc]
    obtain ⟨i, fd⟩ : ∃ i : Nat, (v.conn d).fd = i := ⟨_, (Int.toNat_of_nonneg (by omega)).symm⟩
    rw [fd]
    exact connSendData_shows inUse fd ios fun no => absurd rfl no

section

variable (io : ForwardIO)

lemma watchServer_redials (wait : Bool) : Redials d v (View.watchServer io wait v d).2 := by
  unfold View.watchServer
  repeat' split
  all_goals constructor
  all_goals simp

/-- The ways through a dial. -/
lemma dial_cases {P : Int × View → Prop} (mode : PolicyMode) (hr : P (-1, (getServer io v d).2))
    (hc : ∀ v₂, View.connectServer io mode (getServer io v d).2 d = (none, v₂) → P (-1, v₂))
    (hw : ∀ wait v₂, (getServer io v d).1 = 0 →
      View.connectServer io mode (getServer io v d).2 d = (some wait, v₂) → P (View.watchServer io wait v₂ d)) :
    P (dial io mode v d) := by
  unfold dial
  dsimp only
  split
  · exact hr
  next fine =>
  split
  · next connected => exact hc _ connected
  · next connected => exact hw _ _ (not_not.mp fine) connected

lemma dial_redials (mode : PolicyMode) : Redials d v (dial io mode v d).2 := by
  have hf := getServer_redials (v := v) (d := d) io
  have hs := redials_trans hf (connectServer_redials io mode)
  apply dial_cases (P := fun r => Redials d v r.2) io mode
  · exact hf
  · intro v₂ hc
    rwa [hc] at hs
  · intro wait v₂ _ hc
    rw [hc] at hs
    exact redials_trans hs (watchServer_redials io wait)

lemma watchServer_fd {wait : Bool} : ((View.watchServer io wait v d).2.conn d).fd = (v.conn d).fd := by
  unfold View.watchServer
  repeat' split
  all_goals simp

lemma watchServer_log {wait : Bool} : (View.watchServer io wait v d).2.log = v.log := by
  unfold View.watchServer
  repeat' split
  all_goals rfl

/-- What dialling adds to the log. -/
def Opens : Event → Prop
  | .sockOpen _ _ | .sslAlloc _ _ => True
  | _ => False

lemma dial_log {e : Event} (hm : e ∈ (dial io mode v d).2.log) : e ∈ v.log ∨ Opens e := by
  have hn : ∀ {v' : View} {e' : Event}, (e ∈ v'.log → e ∈ v.log ∨ Opens e) → Opens e' →
      e ∈ (v'.note e').log → e ∈ v.log ∨ Opens e := by
    intro v' e' old ho hm
    rcases List.mem_append.mp hm with hb | new
    · exact old hb
    · rw [List.mem_singleton.mp new]
      exact .inr ho
  have hc : e ∈ (getServer io v d).2.log → e ∈ v.log ∨ Opens e := by
    unfold getServer
    repeat' split
    · exact .inl
    · exact .inl
    · exact .inl
    · exact .inl
    · exact hn Or.inl trivial
  have hd : e ∈ (View.connectServer io mode (getServer io v d).2 d).2.log → e ∈ v.log ∨ Opens e :=
    connectServer_keeps (P := fun v' => e ∈ v'.log → e ∈ v.log ∨ Opens e) io mode
      (fun _ old => old) (fun _ _ _ old => hn old trivial) hc
  revert hm
  apply dial_cases (P := fun r => e ∈ r.2.log → e ∈ v.log ∨ Opens e) io mode hc
  · intro v₂ connected
    rwa [connected] at hd
  · intro wait v₂ _ connected
    rw [watchServer_log]
    rwa [connected] at hd

lemma dial_opened (mode : PolicyMode) :
    (dial io mode v d).1 = 0 → ((dial io mode v d).2.conn d).fd > 0 := by
  have ho := connectServer_opened (v := (getServer io v d).2) (d := d) io mode
  apply dial_cases (P := fun r => r.1 = 0 → (r.2.conn d).fd > 0) io mode
  · exact fun bad => by cases bad
  · exact fun _ _ bad => by cases bad
  · intro wait v₂ _ hc _
    rw [hc] at ho
    rw [watchServer_fd]
    exact ho rfl

/-- The answers with which a server is chosen and connected. -/
def dials (io : ForwardIO) (mode : PolicyMode) : Bool :=
  io.spdata &&
    match io.server with
    | none => false
    | some usesSsl =>
      (!usesSsl || io.sslAlloc) &&
        match mode with
        | .reverse =>
          match io.connect with
          | none => false
          | some (fd, wait) => fd ≠ 0 && (wait || !usesSsl || io.sslSetFd)
        | .trapt =>
          match io.socket with
          | none => false
          | some fd => fd ≠ 0 && (!usesSsl || io.sslSetFd)
        | .tproxy =>
          match io.socket, io.connect with
          | some first, some (fd, wait) =>
            first ≠ 0 && fd ≠ 0 && (wait || !usesSsl || io.sslSetFd)
          | _, _ => false

lemma dial_succeeds (hp : (v.conn d).ssl = none) (ok : dials io mode = true) :
    (dial io mode v d).1 = 0 := by
  have hp' : (v.session.conns d).ssl = none := hp
  unfold dials at ok
  cases hs : io.server with
  | none => simp [hs] at ok
  | some usesSsl =>
    cases mode with
    | reverse =>
      cases hc : io.connect with
      | none => simp [hs, hc] at ok
      | some answer =>
        obtain ⟨fd, wait⟩ := answer
        simp only [hs, hc] at ok
        cases usesSsl <;> cases wait <;>
          simp_all [dial, getServer, View.connectServer, View.clientNb, View.watchServer,
            openSocket, redial]
    | tproxy =>
      cases socket : io.socket with
      | none => simp [hs, socket] at ok
      | some first =>
        cases hc : io.connect with
        | none => simp [hs, socket, hc] at ok
        | some answer =>
          obtain ⟨fd, wait⟩ := answer
          simp only [hs, socket, hc] at ok
          cases usesSsl <;> cases wait <;>
            simp_all [dial, getServer, View.connectServer, View.plainSocket,
              View.clientNb, View.watchServer, openSocket, redial]
    | trapt =>
      cases socket : io.socket with
      | none => simp [hs, socket] at ok
      | some fd =>
        simp only [hs, socket] at ok
        cases usesSsl <;>
          simp_all [dial, getServer, View.connectServer, View.plainSocket, View.watchServer,
            openSocket, redial]

/-- Behind a dial a handshake is under way, unless the server has no SSL. -/
lemma watchServer_ready {wait : Bool} (hw : (View.watchServer io wait v d).1 = 0) :
    handshaking ((View.watchServer io wait v d).2.conn d) = true ∨
      ((View.watchServer io wait v d).2.conn d).ssl = none := by
  unfold View.watchServer at hw ⊢
  split
  · exact .inl (by simp [handshaking])
  next now =>
  rw [if_neg now] at hw
  split
  · next plain => exact .inr (by simpa using plain)
  next ssl =>
  simp only [ssl] at hw
  split
  · next bad => simp [bad] at hw
  · exact .inl (by simp [handshaking])

lemma dial_ready (mode : PolicyMode) :
    (dial io mode v d).1 = 0 → handshaking ((dial io mode v d).2.conn d) = true ∨
      ((dial io mode v d).2.conn d).ssl = none := by
  apply dial_cases (P := fun r => r.1 = 0 → handshaking (r.2.conn d) = true ∨ (r.2.conn d).ssl = none) io mode
  · exact fun bad => by cases bad
  · exact fun _ _ bad => by cases bad
  · exact fun wait _ _ _ => watchServer_ready io

end

/-- The send step where no packet's send fails. -/
lemma send_succeeds {ios : Nat → SendIO} (ho : (v.conn d).fd > 0)
    (hf : handshaking (v.conn d) = true ∨
      .failed ∉ sendResults (v.conn d).ssl.isSome ios (v.conn d).output) : (send ios v d).1 = 0 := by
  have hr := sendLoop_results ios (v.conn d)
  unfold send
  rw [if_neg (by omega)]
  unfold View.sendData
  split
  · rfl
  next ready =>
  rcases hf with hw | hf
  · exact absurd hw ready
  dsimp only
  split
  · next failed =>
    rw [failed] at hr
    exact absurd hr hf
  · rfl
  · rfl

lemma forward_frame (io : ForwardIO) :
    (forward io v d).2.id = v.id ∧ (forward io v d).2.used = v.used ∧
      (forward io v d).2.conn d.peer = v.conn d.peer := by
  unfold forward
  split
  · exact ⟨rfl, rfl, rfl⟩
  dsimp only
  split
  · exact ⟨rfl, rfl, by simp [Session.joinOutput]⟩
  · have hd := dial_redials (v := v.mapSession (·.joinOutput d)) (d := d) io
    exact ⟨(hd _).id, (hd _).used, (hd _).peer.trans (by simp [Session.joinOutput])⟩

section

variable (io : TaskIO) (inUse : v.used = true)
include inUse

lemma relay_shows : Shows (do
        let peer ← conn v.id d.peer
        let ret ← connSendData io.send peer.fd 0#32 v.id d.peer
        onlyIf (ret ≠ 0) do
          let _ ← sessionFree v.id d
        closeIfDone v.id d : Run Int) v fun _ v' => v' = View.relay io v d := by
  refine shows_bind (shows_conn (shows_bind ((send_shows inUse).mono fun ret v₁ h1 => ?_)))
  obtain ⟨id1, used1, -⟩ := send_frame (v := v) (d := d.peer) io.send
  unfold View.relay
  rw [← h1] at id1 used1 ⊢
  have id1' : v.id = v₁.id := id1.symm
  rw [id1']
  dsimp only
  by_cases hf : ret ≠ 0
  · rw [if_pos hf]
    unfold onlyIf
    rw [if_pos hf, bind_assoc]
    exact abandon_shows (used1.trans inUse)
  · rw [if_neg hf]
    refine shows_bind (shows_onlyIf (fun bad => absurd bad hf) fun _ => ?_)
    exact closeIfDone_shows.mono fun _ _ h => h.1

lemma runParse_shows : Shows (runParse io v.id d) v fun _ v' => v' = View.runParse io v d := by
  refine shows_bind (sessionFparse_shows.mono fun ret v₁ h1 => ?_)
  obtain ⟨rfl, rfl⟩ := h1
  refine shows_passed ?_
  refine shows_bind ((sessionForward_shows (v := v.mapSession (·.joinInput d)) (d := d.peer)
    io.forward inUse).mono fun ret v₂ h2 => ?_)
  obtain ⟨id2, used2, -⟩ :=
    forward_frame (v := v.mapSession (·.joinInput d)) (d := d.peer) io.forward
  unfold View.runParse
  rw [← h2] at id2 used2 ⊢
  have id2' : v.id = v₂.id := id2.symm
  rw [id2']
  dsimp only
  refine shows_ite (fun hf => ?_) fun fine => ?_
  · rw [if_pos hf]
    exact shows_bind (sessionFree_shows.mono fun _ v3 h3 => shows_pure h3.1)
  · rw [if_neg fine]
    exact relay_shows io (used2.trans inUse)

lemma runSend_shows : Shows (runSend io v.id d) v fun _ v' => v' = View.runSend io v d := by
  refine shows_bind (shows_conn (shows_bind ((send_shows inUse).mono fun ret v₁ h1 => ?_)))
  obtain ⟨id1, -⟩ := send_frame (v := v) (d := d) io.send
  unfold View.runSend
  rw [← h1] at id1 ⊢
  have id1' : v.id = v₁.id := id1.symm
  rw [id1']
  dsimp only
  refine shows_ite (fun hf => ?_) fun sent => ?_
  · rw [if_pos hf]
    exact shows_bind (sessionFree_shows.mono fun _ v₂ h2 => shows_pure h2.1)
  · rw [if_neg sent]
    exact closeIfDone_shows.mono fun _ _ h => h.1

lemma sessionRunTask_shows : Shows (sessionRunTask io v.id d) v fun _ v' => v' = View.runTask io v d := by
  refine shows_bind (shows_session (shows_bind (shows_require fun _ => ?_)))
  unfold View.runTask
  cases hk : (v.conn d).task.kind with
  | none => exact shows_pure rfl
  | delete => exact shows_bind (sessionFree_shows.mono fun _ v₁ h1 => shows_pure h1.1)
  | parse => exact runParse_shows io inUse
  | send => exact runSend_shows io inUse

end

/-- The head of the queue is taken off. -/
lemma looks_dequeue (h : Looks w v) : Looks (dequeue w v.id d) (taken v d) := by
  have looks1 : Looks ({ w with taskq := w.taskq.erase ⟨v.id, d⟩, ntask := w.ntask - 1 } : Worker) v :=
    looks_of h.session h.used h.request h.log fun e i fd =>
      have hh := h.owns e i fd
      { hh with }
  have looks2 := looks_mapSession (looks_field looks1)
    (f := fun x => x.setConn d (setLinked (x.conns d) false)) fun e => by
      rcases d.sides e with rfl | rfl <;> simp [setLinked]
  have looks3 := looks_note (looks_field looks2) (e := .ran v.id d (v.conn d).task.kind) rfl (by simp)
  have hk : (v.session.conns d).task.kind = ((w.sessions v.id).conns d).task.kind := by
    rw [h.session]
  simpa [dequeue, taken, Worker.mapConn, SessionView.View.mapConn, setLinked, hk] using looks3

end Fzsvn.Guarantees.Proxy.TaskViews
