import Fzsvn.Guarantees.Proxy.ViewRule

/-!
# Callbacks as sequences of acts

As far as descriptors and SSL objects are concerned, a callback only does a few kinds of
things: it edits the session and its requests, it makes an OpenSSL call on the object of
its connection, it queues a task, or it frees the SSL object. A property that every such
act keeps is kept by all callbacks and by the send and join steps of tasks (`Acts.keep`).
-/
namespace Fzsvn.Guarantees.Proxy.ConnectionActs
open Source.Proxy SendStep SessionView CallbackViews TaskViews Session

/-- Descriptors and SSL objects are left alone; a write side is shut down only on an open
connection without SSL, and an SSL shutdown is never taken back. -/
structure Edits (v v' : View) : Prop where
  id : v'.id = v.id
  used : v'.used = v.used
  log : v'.log = v.log
  fd : ∀ e, (v'.conn e).fd = (v.conn e).fd
  ssl : ∀ e, (v'.conn e).ssl = (v.conn e).ssl
  shutWr : ∀ e, (v'.conn e).flags.shutWr = true →
    (v.conn e).flags.shutWr = true ∨ (v.conn e).ssl = none ∧ ¬ (v.conn e).fd < 0
  sslShut : ∀ e, (v.conn e).flags.sslShut = true → (v'.conn e).flags.sslShut = true
  asked : ∀ e, (v.request e).isSome = true → (v'.request e).isSome = true

/-- Events of the task queue. -/
def Bookkeeping : Event → Prop
  | .busy _ _ | .queued _ _ _ | .ran _ _ _ => True
  | _ => False

inductive Act (d : Dir) : View → View → Prop where
  | edit {v v' : View} (edits : Edits v v') : Act d v v'
  | note (v : View) {e : Event} (queue : Bookkeeping e) : Act d v (v.note e)
  | use (v : View) : Act d v (v.useSsl d)
  | free {v : View} (held : (v.conn d).ssl.isSome = true)
      (shutting : (v.conn d).flags.sslShut = true) : Act d v (View.freeSsl v d)

abbrev Acts (d : Dir) : View → View → Prop := Relation.ReflTransGen (Act d)

/-- What every act keeps is kept. -/
lemma Acts.keep {P : View → Prop} {d : Dir} {v v' : View} (ha : Acts d v v')
    (step : ∀ {v v'}, Act d v v' → P v → P v') (hs : P v) : P v' := by
  induction ha with
  | refl => exact hs
  | tail _ act ih => exact step act ih

variable {v : View} {d : Dir}

lemma edits_mapConn {f : Connection → Connection} (fd : (f (v.conn d)).fd = (v.conn d).fd)
    (ssl : (f (v.conn d)).ssl = (v.conn d).ssl) (hs : (f (v.conn d)).flags.shutWr = true →
      (v.conn d).flags.shutWr = true ∨ (v.conn d).ssl = none ∧ ¬ (v.conn d).fd < 0)
    (shuts : (v.conn d).flags.sslShut = true → (f (v.conn d)).flags.sslShut = true) :
    Edits v (v.mapConn d f) where
  id := rfl
  used := rfl
  log := rfl
  fd e := by
    rcases d.sides e with rfl | rfl
    · simpa using fd
    · simp
  ssl e := by
    rcases d.sides e with rfl | rfl
    · simpa using ssl
    · simp
  shutWr e h := by
    rcases d.sides e with rfl | rfl
    · exact hs (by simpa using h)
    · exact .inl (by simpa using h)
  sslShut e h := by
    rcases d.sides e with rfl | rfl
    · simpa using shuts h
    · simpa using h
  asked _ h := h

/-- A write to the session that keeps descriptors, SSL objects and flags. -/
lemma edits_mapSession {f : Session → Session} (he : ∀ e, ((f v.session).conns e).fd = (v.conn e).fd ∧
      ((f v.session).conns e).ssl = (v.conn e).ssl ∧
      ((f v.session).conns e).flags = (v.conn e).flags) : Edits v (v.mapSession f) where
  id := rfl
  used := rfl
  log := rfl
  fd e := (he e).1
  ssl e := (he e).2.1
  shutWr e h := .inl (by rw [← (he e).2.2]; exact h)
  sslShut e h := by
    rw [View.conn, View.mapSession_session, (he e).2.2]
    exact h
  asked _ h := h

lemma edits_ask {e : Dir} {events : Mask} (iocb : Option Callback) : Edits v (v.ask e events iocb) where
  id := rfl
  used := rfl
  log := rfl
  fd _ := rfl
  ssl _ := rfl
  shutWr _ h := .inl h
  sslShut _ h := h
  asked e' h := by
    rcases e.sides e' with rfl | rfl
    · simp
    · simpa using h

lemma edit_flags {f : ConnFlags → ConnFlags}
    (hs : (f (v.conn d).flags).shutWr = (v.conn d).flags.shutWr)
    (sslShut : (v.conn d).flags.sslShut = true → (f (v.conn d).flags).sslShut = true) :
    Acts d v (v.mapFlags d f) :=
  .single (.edit (edits_mapConn rfl rfl (fun h => .inl (by rw [← hs]; exact h)) sslShut))

lemma edit_ask {e : Dir} {events : Mask} (iocb : Option Callback) :
    Acts d v (v.ask e events iocb) := .single (.edit (edits_ask iocb))

/-! ## Callbacks -/

variable {v' : View}

lemma act_of_move (hm : Move d v v') : Act d v v' := by
  cases hm with
  | note hq =>
    refine .note v ?_
    rcases hq with rfl | ⟨kind, rfl⟩ <;> trivial
  | use => exact .use v
  | conn fd ssl _ hs sslShut =>
    exact .edit (edits_mapConn fd ssl (fun h => .inl (by rw [← hs]; exact h)) sslShut)
  | ask events iocb => exact .edit (edits_ask iocb)
  | packets hc he _ _ =>
    refine .edit (edits_mapSession fun e => ?_)
    rcases d.sides e with rfl | rfl <;> simp [hc, he]
  | free hh shutting => exact .free hh shutting

lemma acts_of_moves (hm : Moves d v v') : Acts d v v' :=
  Relation.ReflTransGen.mono (fun _ _ move => act_of_move move) _ _ hm

lemma sendLooped_acts (ios : Nat → SendIO) : Acts d v (View.sendLooped ios v d) := by
  have hs : ∀ v' : View, v'.session = v.session →
      Acts d v' (v'.mapSession (·.applySent d (sendLoop ios (v.conn d)))) := by
    intro v' _
    refine .single (.edit (edits_mapSession fun e => ?_))
    rcases d.sides e with rfl | rfl <;> simp [applySent]
  unfold View.sendLooped
  split
  · exact (Relation.ReflTransGen.single (.use v)).trans (hs _ useSsl_session)
  · exact hs v rfl

lemma sendBlock_acts : Acts d v (View.sendBlock v d) := by
  unfold View.sendBlock
  split
  · exact .refl
  · exact ((edit_ask _).trans (edit_ask _)).trans (edit_flags rfl id)

lemma sendUnblock_acts : Acts d v (View.sendUnblock v d) := by
  unfold View.sendUnblock
  split
  · exact .refl
  · exact ((edit_ask _).trans (edit_ask _)).trans (edit_flags rfl id)

lemma sendShut_acts (ho : ¬ (v.conn d).fd < 0) : Acts d v (View.sendShut v d) := by
  unfold View.sendShut
  split
  · exact .refl
  · split
    · exact (edit_flags rfl fun _ => rfl).trans (edit_ask _)
    · next plain => exact .single (.edit (edits_mapConn rfl rfl (fun _ => .inr ⟨plain, ho⟩) id))

lemma sendData_acts {ios : Nat → SendIO} {events : Mask} (ho : ¬ (v.conn d).fd < 0) :
    Acts d v (View.sendData ios events v d).2 := by
  have hl := sendLooped_acts (v := v) (d := d) ios
  unfold View.sendData
  split
  · exact .refl
  dsimp only
  split
  · have hf : Acts d (View.sendLooped ios v d)
        ((View.sendLooped ios v d).mapFlags d ({ · with error := true })) := edit_flags rfl id
    unfold View.sendErr
    split
    · exact hl.trans hf
    · exact (hl.trans hf).trans (acts_of_moves queue_moves)
  · exact hl.trans sendBlock_acts
  · have fd : ((View.sendUnblock (View.sendLooped ios v d) d).conn d).fd = (v.conn d).fd :=
      (sendUnblock_frame (v := View.sendLooped ios v d) (d := d)).2.2.trans (sendLooped_frame ios d).1
    exact (hl.trans sendUnblock_acts).trans (sendShut_acts (by rw [fd]; exact ho))

/-- Whatever callback an event reaches. -/
lemma call_acts (io : CallbackIO) (cb : Callback) (events : Mask) (ho : (v.conn d).fd > 0) :
    Acts d v (View.call io cb events v d) := by
  cases cb with
  | connRecvData => exact acts_of_moves recvData_moves
  | connSendData => exact sendData_acts (by omega)
  | connHandshake => exact acts_of_moves handshake_moves
  | connShutdown => exact acts_of_moves shutdown_moves
  | listenerAccept => exact .refl

/-! ## Tasks -/

lemma taken_acts : Acts d v (View.taken v d) := by
  have hu : Acts d v (v.mapConn d (setLinked · false)) :=
    .single (.edit (edits_mapConn rfl rfl .inl id))
  exact hu.tail (.note _ trivial)

lemma parsed_acts : Acts d v (View.parsed v d) := by
  refine taken_acts.tail (.edit (edits_mapSession fun e => ?_))
  rcases d.sides e with rfl | rfl <;> simp [joinInput]

lemma joined_acts : Acts d v (View.joined v d) := by
  have hf : Edits (View.parsed v d) (View.joined v d) :=
    edits_mapSession fun e => by
      rcases d.peer.sides e with rfl | rfl <;> simp [joinOutput]
  exact parsed_acts.tail (.edit hf)

lemma send_acts (ios : Nat → SendIO) : Acts d v (View.send ios v d).2 := by
  unfold View.send
  split
  · exact .refl
  · next opened => exact sendData_acts opened

lemma deliver_edits (bytes : List UInt8) (fin : Bool) :
    Edits v (v.mapConn d (·.deliver bytes fin)) := edits_mapConn rfl rfl .inl id

/-! ## Sessions without SSL -/

/-- No connection has an SSL object. -/
def Plain (v : View) : Prop := ∀ e, (v.conn e).ssl = none

/-- No connection has or had one: an object is freed only by an SSL shutdown. -/
def PlainTcp (x : Session) : Prop := ∀ e, (x.conns e).ssl = none ∧ (x.conns e).flags.sslShut = false

lemma plain_act (act : Act d v v') (h : Plain v) : Plain v' := by
  cases act with
  | edit he => exact fun e => (he.ssl e).trans (h e)
  | note _ => exact h
  | use =>
    unfold View.useSsl
    split <;> exact h
  | free hh _ =>
    rw [h d] at hh
    cases hh

lemma plain_acts (ha : Acts d v v') (h : Plain v) : Plain v' := ha.keep plain_act h

/-- A session with SSL stays one. -/
lemma plainTcp_act (act : Act d v v') (h : PlainTcp v'.session) : PlainTcp v.session := by
  cases act with
  | edit he =>
    intro e
    refine ⟨(he.ssl e).symm.trans (h e).1, ?_⟩
    cases shut : (v.session.conns e).flags.sslShut with
    | false => rfl
    | true => rw [← he.sslShut e shut]; exact (h e).2
  | note _ => exact h
  | use => simpa using h
  | free _ hs =>
    have hk : ((View.freeSsl v d).session.conns d).flags.sslShut = true := by
      simpa [View.freeSsl] using hs
    rw [(h d).2] at hk
    cases hk

lemma plainTcp_acts (ha : Acts d v v') (h : PlainTcp v'.session) : PlainTcp v.session := by
  induction ha with
  | refl => exact h
  | tail _ act ih => exact ih (plainTcp_act act h)

end Fzsvn.Guarantees.Proxy.ConnectionActs
