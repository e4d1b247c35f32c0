import Fzsvn.Guarantees.Proxy.SessionRule

/-!
# One session as its own code sees it

A view of a session is its object, what is requested for its two descriptors and what was
observed of it. Code of the session acts on the view alone: the table, the queue and the
other sessions of the worker are seen through it. `Shows` is the logic for such code, with
one rule for each primitive operation.
-/
namespace Fzsvn.Guarantees.Proxy.SessionView
open Library.Exec Source.Proxy Locality Lifecycle SessionRule

/-- What `fd_epoll_add_event` was last called with. -/
structure Request where
  events : Mask
  iocb : Option Callback
  deriving DecidableEq, Repr

/-- A descriptor that is not open has no request. -/
structure View where
  id : Nat
  used : Bool
  session : Session
  request : Dir → Option Request
  log : List Event

namespace View

@[simp]
abbrev conn (v : View) (d : Dir) : Connection := v.session.conns d

@[simps -fullyApplied]
def note (v : View) (e : Event) : View := { v with log := v.log ++ [e] }

@[simps -fullyApplied]
def mapSession (v : View) (f : Session → Session) : View := { v with session := f v.session }

@[simps! -fullyApplied id used session request log]
def mapConn (v : View) (d : Dir) (f : Connection → Connection) : View :=
  v.mapSession fun x => x.setConn d (f (x.conns d))

@[simps! -fullyApplied id used session request log]
def mapFlags (v : View) (d : Dir) (f : ConnFlags → ConnFlags) : View :=
  v.mapConn d fun c => { c with flags := f c.flags }

@[simps -fullyApplied]
def ask (v : View) (d : Dir) (events : Mask) (iocb : Option Callback) : View :=
  { v with request := Function.update v.request d (some ⟨events, iocb⟩) }

/-- A call into OpenSSL with the connection's object. -/
def useSsl (v : View) (d : Dir) : View :=
  match (v.conn d).ssl with
  | none => v
  | some ssl => v.note (.sslUse v.id d ssl.fd (v.conn d).fd)

/-- `queueTask`. -/
def queue (v : View) (d : Dir) (kind : TaskKind) : View :=
  let marked := v.mapConn d (setKind · kind)
  if (v.conn d).task.linked then marked.note (.busy v.id d)
  else (marked.mapConn d (setLinked · true)).note (.queued v.id d kind)

end View

/-- What the item of an open descriptor says. -/
def requestOf (w : Worker) (s : Nat) (d : Dir) : Option Request :=
  if w.used s = true ∧ (w.conn s d).fd > 0 then
    let fi := w.item (w.conn s d).fd.toNat
    some ⟨fi.events, fi.iocb⟩
  else none

def view (w : Worker) (s : Nat) : View :=
  ⟨s, w.used s, w.sessions s, requestOf w s, noted s w.log⟩

/-- Work done elsewhere is not seen. -/
lemma elsewhere_view {r : Nat} {w w' : Worker} (h : Elsewhere r w w') : view w' r = view w r := by
  have hr : requestOf w' r = requestOf w r := by
    funext d
    simp only [requestOf, h.used, Worker.conn, h.session]
    split
    · next live =>
      have fd : ((w.sessions r).conns d).fd = (((w.sessions r).conns d).fd.toNat : Nat) :=
        (Int.toNat_of_nonneg (Int.le_of_lt live.2)).symm
      rw [(h.kept live.1 d _ fd).1]
    · rfl
  simp [view, h.session, h.used, h.noted, hr]

/-- The worker shows the view, and the session holds its descriptors. -/
structure Looks (w : Worker) (v : View) : Prop where
  view : view w v.id = v
  owns : Owns w v.id

variable {w : Worker} {v : View} {d : Dir}

section

variable (h : Looks w v)
include h

lemma Looks.session : w.sessions v.id = v.session := congrArg View.session h.view

lemma Looks.used : w.used v.id = v.used := congrArg View.used h.view

lemma Looks.request : requestOf w v.id = v.request := congrArg View.request h.view

lemma Looks.log : noted v.id w.log = v.log := congrArg View.log h.view

lemma Looks.conn (d : Dir) : w.conn v.id d = v.conn d := by
  rw [Worker.conn, h.session]

end

lemma looks_of (hs : w.sessions v.id = v.session) (hu : w.used v.id = v.used)
    (hr : requestOf w v.id = v.request) (log : noted v.id w.log = v.log)
    (ho : Owns w v.id) : Looks w v :=
  ⟨by simp [SessionView.view, hs, hu, hr, log], ho⟩

section

variable (h : Looks w v)
include h

lemma looks_field : Looks (w.emit (.field v.id)) v :=
  looks_of h.session h.used h.request (by simpa using h.log) (owns_emit _ h.owns)

lemma looks_note {e : Event} (own : about e = some v.id) (hs : e ≠ .field v.id) :
    Looks (w.emit e) (v.note e) :=
  looks_of h.session h.used h.request (by simp [own, hs, h.log]) (owns_emit _ h.owns)

/-- A write to the object that leaves its descriptors alone. -/
lemma looks_mapSession {f : Session → Session} (fd : ∀ d, ((f v.session).conns d).fd = (v.conn d).fd) :
    Looks (w.mapSession v.id f) (v.mapSession f) := by
  have he : ∀ d, ((w.mapSession v.id f).conn v.id d).fd = (w.conn v.id d).fd := by
    intro d
    simpa [h.session] using fd d
  refine looks_of (by simp [h.session]) h.used ?_ h.log ?_
  · refine Eq.trans ?_ h.request
    funext d
    simp only [View.mapSession_id, requestOf, he]
    rfl
  · intro d i own
    have hh := h.owns d i ((he d).symm.trans own)
    exact { hh with }

/-- A request on the session's own descriptor. -/
lemma looks_ask (hi : v.used = true) {i : Nat} (own : (v.conn d).fd = i) {events : Mask}
    {iocb : Option Callback} {fe : FdEpoll Arg Callback}
    (hr : w.epoll.fe.request i events iocb = some fe) : Looks (w.setTable fe) (v.ask d events iocb) := by
  have hh' : (w.conn v.id d).fd = i := by rw [h.conn]; exact own
  have hs : Local v.id (fdsOf w v.id) w (w.setTable fe) := local_request hr ⟨d, hh'⟩
  have ho' := confined_owns hs.toConfined (within_fdsOf w v.id) h.owns
  obtain ⟨-, self, ho, -⟩ := FdEpoll.request_effect hr
  refine looks_of h.session h.used ?_ h.log ho'
  refine Eq.trans ?_ (congrArg (fun hr => Function.update hr d (some ⟨events, iocb⟩)) h.request)
  funext e
  rw [View.ask_id]
  rcases d.sides e with rfl | rfl
  · have pos := (h.owns e i hh').pos
    have own'' : ((w.sessions v.id).conns e).fd = i := hh'
    simp [requestOf, h.used.trans hi, own'', self, pos]
  · rw [Function.update_of_ne d.peer_ne]
    simp only [requestOf, Worker.setTable_used, Worker.conn, Worker.setTable_sessions]
    split
    · next live =>
      have fd : (w.conn v.id d.peer).fd = ((w.conn v.id d.peer).fd.toNat : Nat) :=
        (Int.toNat_of_nonneg (Int.le_of_lt live.2)).symm
      have different : (w.conn v.id d.peer).fd.toNat ≠ i := by
        rintro rfl
        exact absurd (h.owns.distinct h.owns fd hh').2 d.peer_ne
      simp only [Worker.item, Worker.setTable_epoll_fe]
      rw [ho _ different]
    · rfl

/-- The item of an own descriptor is pointed at the connection once more. -/
lemma looks_claim {i : Nat} (own : (v.conn d).fd = i) :
    Looks (w.mapItem i ({ · with arg := some (.conn v.id d) })) v := by
  have ho' : (w.conn v.id d).fd = i := by rw [h.conn]; exact own
  refine looks_of h.session h.used ?_ h.log fun e j fd => ?_
  · rw [← h.request]
    funext e
    simp only [requestOf, Worker.mapItem_used, Worker.conn, Worker.mapItem_sessions]
    split
    · next live =>
      by_cases he : ((w.sessions v.id).conns e).fd.toNat = i
      · simp [he]
      · simp [he]
    · rfl
  · have hh := h.owns e j fd
    by_cases he : j = i
    · subst he
      obtain ⟨-, rfl⟩ := h.owns.distinct h.owns ho' fd
      exact ⟨hh.pos, hh.inside, hh.opened, by simpa using hh.state, by simp⟩
    · exact ⟨hh.pos, hh.inside, hh.opened, by simpa [he] using hh.state,
        by simpa [he] using hh.arg⟩

end

/-! ## A logic of views -/

/-- Run where the view is `v`, the program leaves a view that satisfies `post`. -/
def Shows {α : Type} (prog : Run α) (v : View) (post : α → View → Prop) : Prop :=
  ∀ w, Looks w v → Ensures prog w (fun a w' => ∃ v', Looks w' v' ∧ post a v') (fun _ _ => True)

section

variable {α β : Type} {v : View} {d : Dir}

lemma shows_pure {a : α} {post : α → View → Prop} (h : post a v) : Shows (pure a) v post :=
  fun _ hl => (ensures_pure _).mpr ⟨v, hl, h⟩

lemma shows_throw (halt : Halt) {post : α → View → Prop} : Shows (throw halt : Run α) v post :=
  fun _ _ => (ensures_throw _).mpr trivial

lemma shows_bind {prog : Run α} {next : α → Run β} {post : β → View → Prop}
    (h : Shows prog v fun a v' => Shows (next a) v' post) : Shows (prog >>= next) v post := by
  intro w hl
  rw [ensures_bind]
  refine (h w hl).imp_true (fun a w' hd => ?_)
  obtain ⟨v', hl', rest⟩ := hd
  exact rest w' hl'

lemma Shows.mono {prog : Run α} {post post' : α → View → Prop} (h : Shows prog v post)
    (hw : ∀ a v', post a v' → post' a v') : Shows prog v post' :=
  fun w hl => (h w hl).imp_true (fun a _ hd => hd.imp fun v' hb => ⟨hb.1, hw a v' hb.2⟩)

variable {c : Prop}

lemma shows_ite [Decidable c] {yes no : Run α} {post : α → View → Prop}
    (h1 : c → Shows yes v post) (h2 : ¬ c → Shows no v post) : Shows (if c then yes else no) v post := by
  intro w hl
  rw [ensures_ite]
  exact ⟨fun hh => h1 hh w hl, fun hf => h2 hf w hl⟩

lemma shows_passed {ret : Int} {yes no : Run α} {post : α → View → Prop} (h : Shows no v post) :
    Shows (if ret ≠ ret then yes else no) v post :=
  shows_ite (fun bad => absurd rfl bad) fun _ => h

variable {post : Unit → View → Prop}

lemma shows_onlyIf [Decidable c] {prog : Run Unit} (h1 : c → Shows prog v post)
    (h2 : ¬ c → post () v) : Shows (onlyIf c prog) v post :=
  shows_ite h1 fun hf => shows_pure (h2 hf)

lemma shows_stopUnless {halt : Halt} [Decidable c] (h : c → post () v) : Shows (stopUnless halt c) v post :=
  shows_ite (fun hh => shows_pure (h hh)) fun _ => shows_throw halt

lemma shows_require [Decidable c] (h : c → post () v) : Shows (require c) v post := shows_stopUnless h

lemma shows_emit {e : Event} (own : about e = some v.id) (hs : e ≠ .field v.id)
    (h : post () (v.note e)) : Shows (emit e) v post :=
  fun _ hl => (ensures_emit e).mpr ⟨_, looks_note hl own hs, h⟩

lemma shows_session {post : Session → View → Prop} (h : post v.session v) :
    Shows (session v.id) v post := by
  intro w hl
  rw [ensures_session, hl.session]
  exact ⟨v, looks_field hl, h⟩

lemma shows_conn {post : Connection → View → Prop} (h : post (v.conn d) v) :
    Shows (conn v.id d) v post := by
  intro w hl
  rw [ensures_conn, hl.conn]
  exact ⟨v, looks_field hl, h⟩

lemma shows_modifySession {f : Session → Session}
    (fd : ∀ e, ((f v.session).conns e).fd = (v.conn e).fd) (h : post () (v.mapSession f)) :
    Shows (modifySession v.id f) v post :=
  fun _ hl => (ensures_modifySession v.id f).mpr ⟨_, looks_mapSession (looks_field hl) fd, h⟩

lemma shows_modifyConn {f : Connection → Connection} (fd : (f (v.conn d)).fd = (v.conn d).fd)
    (h : post () (v.mapConn d f)) : Shows (modifyConn v.id d f) v post := by
  intro w hl
  refine (ensures_modifyConn v.id d f).mpr ⟨_, looks_mapSession (looks_field hl) fun e => ?_, h⟩
  rcases d.sides e with rfl | rfl
  · simpa using fd
  · simp

lemma shows_modifyFlags {f : ConnFlags → ConnFlags} (h : post () (v.mapFlags d f)) :
    Shows (modifyFlags v.id d f) v post :=
  shows_modifyConn rfl h

/-- A request for the connection's own descriptor succeeds. -/
lemma shows_addEvent {i : Nat} {events : Mask} {iocb : Option Callback}
    {post : Int → View → Prop} (inUse : v.used = true) (own : (v.conn d).fd = i)
    (h : post 0 (v.ask d events iocb)) : Shows (addEvent i events iocb) v post := by
  intro w hl
  have ho' : (w.conn v.id d).fd = i := by rw [hl.conn]; exact own
  have hi := (hl.owns d i ho').inside
  simp only [ensures_addEvent, Int.toNat_natCast]
  exact ⟨fun out => by omega, fun _ _ =>
    ⟨fun fe hr => ⟨_, looks_ask hl inUse own hr, h⟩, fun _ => trivial⟩⟩

lemma shows_itemOf {fd : Int} {post : Nat → View → Prop} (h : 0 ≤ fd → post fd.toNat v) :
    Shows (itemOf fd) v post := by
  intro w hl
  simp only [ensures_itemOf]
  exact ⟨fun pos _ => ⟨v, hl, h pos⟩, fun _ => trivial⟩

lemma shows_claimItem {fd : Int} (own : (v.conn d).fd = fd) (h : 0 ≤ fd → post () v) :
    Shows (claimItem fd v.id d) v post := by
  refine shows_bind (shows_itemOf fun pos w hl => ?_)
  have fd' : (v.conn d).fd = (fd.toNat : Nat) := by rw [own, Int.toNat_of_nonneg pos]
  simp only [ensures_writeItem]
  exact ⟨fun _ => ⟨v, looks_claim hl fd', h pos⟩, fun _ => trivial⟩

lemma shows_sslUse (h : post () (v.useSsl d)) : Shows (sslUse v.id d (v.conn d)) v post := by
  unfold sslUse
  unfold View.useSsl at h
  split
  · next none =>
    rw [none] at h
    exact shows_pure h
  · next ssl some =>
    rw [some] at h
    exact shows_emit rfl (by simp) h

/-- The chain of the queue is not seen. -/
lemma shows_taskAddQueue
    (h : post () ((v.mapConn d (setLinked · true)).note (.queued v.id d (v.conn d).task.kind))) :
    Shows (taskAddQueue v.id d) v post := by
  refine shows_bind (shows_conn (shows_bind fun w hl => ?_))
  refine (ensures_modify _).mpr ⟨v, looks_of hl.session hl.used hl.request hl.log
    fun e i fd => ?_, ?_⟩
  · have hh := hl.owns e i fd
    exact { hh with }
  · exact shows_bind (shows_modifyConn rfl (shows_emit rfl (by simp) h))

lemma shows_queueTask {kind : TaskKind} {post : Bool → View → Prop}
    (h : ∀ ok, post ok (v.queue d kind)) : Shows (queueTask v.id d kind) v post := by
  have he : ((v.mapConn d (setKind · kind)).conn d).task.linked = (v.conn d).task.linked := by
    simp [setKind]
  simp only [View.queue] at h
  refine shows_bind (shows_modifyConn rfl (shows_bind (shows_conn ?_)))
  refine shows_ite (fun hl => ?_) fun hu => ?_
  · rw [he] at hl
    rw [if_pos hl] at h
    exact shows_bind (shows_emit rfl (by simp) (shows_pure (h _)))
  · rw [he] at hu
    rw [if_neg hu] at h
    refine shows_bind (shows_taskAddQueue (shows_pure ?_))
    simpa [setKind] using h true

lemma shows_errFree {post : Int → View → Prop} (h : post (-1) (v.queue d .delete)) :
    Shows (errFree v.id d) v post :=
  shows_bind (shows_queueTask fun _ => shows_pure h)

end

end Fzsvn.Guarantees.Proxy.SessionView
