import Fzsvn.Guarantees.Proxy.RelayStream
import Fzsvn.Guarantees.Proxy.ConnectionActs

/-!
# What is sent before a write side is shut down

When one side of a plain session has closed its end, the proxy shuts down the write side of
the other connection as soon as its output is empty. Two things can be left behind. An
`EPOLLRDHUP` marks the connection as closed although one `recv` need not take all that was
sent, and a send of the other connection may find the output empty while received packets
still wait for their parse task (`closed_too_early`). Where a receive that is told of the
FIN takes everything and no such send comes first, everything that was sent has been
accepted (`half_close_complete`).
-/
namespace Fzsvn.Guarantees.Proxy.HalfClose
open Library.Exec Source.Proxy SendStep SessionView CallbackViews TaskViews ViewRule ConnectionActs
open PacketFlow RelayStream Connection
open View (forwarded getServer joined redial sendLooped taken)

/-- Whenever the write side of a connection of a plain session was shut down, the peer's FIN
had arrived and all that was sent before it was accepted by this connection's sends. -/
def HalfCloseComplete (w : Worker) : Prop :=
  ∀ s, PlainTcp (w.sessions s) → ∀ d c, (w.conn s d).cut = some c → c.fin = true ∧ c.accepted = c.sent

/-- On a plain connection only the first pass is made. -/
def firstPass : RecvRun → RecvIO
  | .last io => io
  | .pending io _ => io

/-- The answer of a `recv` that leaves nothing unread. -/
def TakesAll (sock : Socket) : RecvAnswer → Prop
  | .data n => n = sock.rx.length
  | .eof => True
  | .err _ => sock.rx = []

instance (sock : Socket) : (answer : RecvAnswer) → Decidable (TakesAll sock answer)
  | .data n => inferInstanceAs (Decidable (n = sock.rx.length))
  | .eof => isTrue trivial
  | .err _ => inferInstanceAs (Decidable (sock.rx = []))

/-- A send that drains the output finds nothing the closed peer sent waiting. -/
def NothingWaits (v : View) (d : Dir) (ios : Nat → SendIO) : Prop :=
  handshaking (v.conn d) = false → (v.conn d.peer).flags.shutRd = true →
    (∀ r ∈ sendResults (v.conn d).ssl.isSome ios (v.conn d).output, r = .full) →
    carried (v.conn d.peer).input = []

instance (v : View) (d : Dir) (ios : Nat → SendIO) : Decidable (NothingWaits v d ios) :=
  inferInstanceAs (Decidable (_ → _ → _ → _))

def readFirst : Limits where
  call v d cb io events := PlainTcp v.session →
    (cb = .connRecvData → events.has epollErr = false → events.has epollRdHup = true →
      TakesAll (v.conn d).sock (firstPass io.recv).sys) ∧
    (cb = .connSendData → NothingWaits v d io.send)
  task v d io := PlainTcp v.session → (v.conn d).task.kind = .send → NothingWaits v d io.send
  free _ := True

instance (x : Session) : Decidable (PlainTcp x) :=
  inferInstanceAs (Decidable (∀ e, (x.conns e).ssl = none ∧ (x.conns e).flags.sslShut = false))

instance (v : View) (d : Dir) (cb : Callback) (io : CallbackIO) (events : Mask) :
    Decidable (readFirst.call v d cb io events) :=
  inferInstanceAs (Decidable (PlainTcp v.session → (_ → _ → _ → _) ∧ (_ → _)))

instance (v : View) (d : Dir) (io : TaskIO) : Decidable (readFirst.task v d io) :=
  inferInstanceAs (Decidable (PlainTcp v.session → _ → _))

instance (v : View) : Decidable (readFirst.free v) := isTrue trivial

/-! ## The invariant -/

/-- All cuts so far were complete. -/
def CutsComplete (v : View) : Prop :=
  ∀ d c, (v.conn d).cut = some c → c.fin = true ∧ c.accepted = c.sent

/-- A read side is marked as closed only behind the FIN, with nothing left to read. -/
structure Complete (v : View) : Prop where
  relays : ∀ d, Relays v.session d
  staged : ∀ d, v.session.staged d = []
  shut : ∀ d, (v.conn d).flags.shutRd = true → (v.conn d).sock.fin = true ∧ (v.conn d).sock.rx = []
  closed : ∀ d, (v.conn d).fd < 0 → (v.conn d).flags.shutRd = false
  cuts : CutsComplete v

/-- Lists, sockets, descriptors and read sides are as they were, and so are the cuts. -/
structure Calm (v v' : View) : Prop where
  data : SameData v.session v'.session
  shutRd : ∀ e, (v'.conn e).flags.shutRd = (v.conn e).flags.shutRd
  cut : ∀ e, (v'.conn e).cut = (v.conn e).cut

variable {v v1 v2 v3 : View} {d : Dir}

lemma calm_refl : Calm v v := ⟨.refl _, fun _ => rfl, fun _ => rfl⟩

lemma calm_trans (h1 : Calm v1 v2) (h2 : Calm v2 v3) : Calm v1 v3 :=
  ⟨h1.data.trans h2.data, fun e => (h2.shutRd e).trans (h1.shutRd e), fun e => (h2.cut e).trans (h1.cut e)⟩

lemma calm_of_session {v' : View} (he : v'.session = v.session) : Calm v v' := by
  refine ⟨by rw [he]; exact .refl _, fun e => ?_, fun e => ?_⟩ <;> rw [View.conn, he]

lemma calm_mapConn {f : Connection → Connection} (hi : (f (v.conn d)).input = (v.conn d).input)
    (ho : (f (v.conn d)).output = (v.conn d).output)
    (sock : (f (v.conn d)).sock = (v.conn d).sock) (fd : (f (v.conn d)).fd = (v.conn d).fd)
    (hs : (f (v.conn d)).flags.shutRd = (v.conn d).flags.shutRd)
    (cut : (f (v.conn d)).cut = (v.conn d).cut) : Calm v (v.mapConn d f) := by
  refine ⟨(SameData.refl _).setConn hi ho sock fd, fun e => ?_, fun e => ?_⟩
  · rcases d.sides e with rfl | rfl
    · simpa using hs
    · simp
  · rcases d.sides e with rfl | rfl
    · simpa using cut
    · simp

lemma calm_mapFlags {f : ConnFlags → ConnFlags}
    (hs : (f (v.conn d).flags).shutRd = (v.conn d).flags.shutRd) : Calm v (v.mapFlags d f) :=
  calm_mapConn rfl rfl rfl rfl hs rfl

lemma calm_note {e : Event} : Calm v (v.note e) := calm_of_session rfl

lemma calm_useSsl : Calm v (v.useSsl d) := calm_of_session useSsl_session

lemma calm_ask {events : Mask} (iocb : Option Callback) : Calm v (v.ask d events iocb) :=
  calm_of_session rfl

lemma calm_queue {kind : TaskKind} : Calm v (v.queue d kind) := by
  have hm : Calm v (v.mapConn d (setKind · kind)) := calm_mapConn rfl rfl rfl rfl rfl rfl
  unfold View.queue
  dsimp only
  split
  · exact calm_trans hm calm_note
  · exact calm_trans hm (calm_trans (calm_mapConn rfl rfl rfl rfl rfl rfl) calm_note)

lemma taken_calm : Calm v (taken v d) :=
  calm_trans (calm_mapConn (f := (setLinked · false)) rfl rfl rfl rfl rfl rfl) calm_note

lemma waitFor_calm {wait : SslWait} {events : Mask} : Calm v (View.waitFor wait events v d) :=
  calm_of_session (waitFor_frame events wait).2.2

lemma handshakeDone_calm : Calm v (View.handshakeDone v d) :=
  calm_trans (calm_ask _) calm_queue

lemma sslHandshake_calm {io : HandshakeIO} {events : Mask} : Calm v (View.sslHandshake io events v d) := by
  unfold View.sslHandshake
  split
  · exact handshakeDone_calm
  · split
    · dsimp only
      split
      · exact calm_trans calm_useSsl (calm_trans waitFor_calm
          (calm_trans (calm_mapFlags rfl) handshakeDone_calm))
      · exact calm_trans calm_useSsl waitFor_calm
    · exact calm_trans calm_useSsl calm_queue

lemma handshake_calm {io : HandshakeIO} {events : Mask} : Calm v (View.handshake io events v d) := by
  unfold View.handshake
  split
  · exact calm_queue
  · split
    · exact sslHandshake_calm
    · split
      · exact calm_trans (calm_mapFlags rfl) calm_queue
      · exact calm_trans (calm_mapFlags rfl) sslHandshake_calm

lemma shutdown_calm {io : ShutdownIO} {events : Mask} : Calm v (View.shutdown io events v d) := by
  unfold View.shutdown
  split
  · exact calm_queue
  · split
    · exact calm_ask _
    · split
      · dsimp only
        split
        · exact calm_trans calm_useSsl waitFor_calm
        · split
          · exact calm_trans calm_useSsl (calm_trans waitFor_calm calm_queue)
          · exact calm_trans calm_useSsl (calm_trans waitFor_calm (calm_trans calm_note
              (calm_trans (calm_mapConn rfl rfl rfl rfl rfl rfl) (calm_ask _))))
      · exact calm_trans calm_useSsl calm_queue

lemma sendBlock_calm : Calm v (View.sendBlock v d) := by
  unfold View.sendBlock
  split
  · exact calm_refl
  · exact calm_trans (calm_ask _) (calm_trans (calm_ask _) (calm_mapFlags rfl))

lemma sendUnblock_calm : Calm v (View.sendUnblock v d) := by
  unfold View.sendUnblock
  split
  · exact calm_refl
  · exact calm_trans (calm_ask _) (calm_trans (calm_ask _) (calm_mapFlags rfl))

lemma complete_calm {v' : View} (hc : Calm v v') (h : Complete v) : Complete v' where
  relays := relays_same h.relays hc.data
  staged d := (hc.data.staged d).trans (h.staged d)
  shut d shut := by
    rw [hc.shutRd] at shut
    rw [View.conn, hc.data.sock]
    exact h.shut d shut
  closed d closed := by
    rw [View.conn, hc.data.fd] at closed
    rw [hc.shutRd]
    exact h.closed d closed
  cuts d c cut := by
    rw [hc.cut] at cut
    exact h.cuts d c cut

/-- A connection whose lists or socket were used: its read side is as it was. -/
structure SameSide (c c' : Connection) : Prop where
  fin : c'.sock.fin = c.sock.fin
  rx : c.sock.rx = [] → c'.sock.rx = []
  fd : c'.fd = c.fd
  shutRd : c'.flags.shutRd = c.flags.shutRd
  cut : c'.cut = c.cut

lemma complete_moved {v v' : View} (h : Complete v) (relays : ∀ d, Relays v'.session d)
    (staged : ∀ d, v'.session.staged d = []) (hs : ∀ d, SameSide (v.conn d) (v'.conn d)) : Complete v' where
  relays := relays
  staged := staged
  shut d shut := by
    rw [(hs d).shutRd] at shut
    obtain ⟨fin, rx⟩ := h.shut d shut
    exact ⟨(hs d).fin.trans fin, (hs d).rx rx⟩
  closed d closed := by
    rw [(hs d).fd] at closed
    exact (hs d).shutRd.trans (h.closed d closed)
  cuts d c cut := by
    rw [(hs d).cut] at cut
    exact h.cuts d c cut

/-! ## Receiving -/

variable {events : Mask}

lemma takeSlot_complete (h : Complete v) (alloc : Bool) : Complete (View.takeSlot alloc v d).2 := by
  unfold View.takeSlot
  split
  · exact h
  next hn =>
  split
  · exact h
  refine complete_moved h (relays_alloc h.relays hn) (fun e => ?_) fun e => ?_
  · simpa [Session.allocPacket] using h.staged e
  · rcases d.sides e with rfl | rfl <;> constructor <;> simp [Session.allocPacket]

/-- The slot is the first packet or the last one, and the rest of the connection is as it was. -/
lemma takeSlot_slot (alloc : Bool) (i : Nat) (hs : (View.takeSlot alloc v d).1 = some i) :
    (i = 0 ∨ i + 1 = ((View.takeSlot alloc v d).2.conn d).input.length) ∧
      ((View.takeSlot alloc v d).2.conn d).sock = (v.conn d).sock ∧
      ((View.takeSlot alloc v d).2.conn d).ssl = (v.conn d).ssl := by
  unfold View.takeSlot at hs ⊢
  split at hs
  · next j hf =>
    refine ⟨.inl ?_, rfl, rfl⟩
    unfold recvSlot at hf
    split at hf
    · cases hf
    · split at hf <;> simp_all
  · split at hs
    · cases hs
    · next alloc =>
      have he : (v.conn d).input.length = i := by simpa using hs
      rw [if_neg alloc]
      simp [Session.allocPacket, ← he]

lemma recvTrim_complete (h : Complete v) {i : Nat} : Complete (View.recvTrim v d i) := by
  unfold View.recvTrim
  split
  · next hn =>
    refine complete_moved h (relays_free h.relays hn) (fun e => ?_) fun e => ?_
    · simpa [Session.freePacket] using h.staged e
    · rcases d.sides e with rfl | rfl <;> constructor <;> simp [Session.freePacket]
  · exact h

lemma recvCloseEvent_calm (hp : (v.conn d).ssl = none) : Calm v (View.recvCloseEvent v d) := by
  unfold View.recvCloseEvent
  rw [hp]
  exact calm_ask _

/-- The read side is marked as closed: everything was read. -/
lemma shutRd_complete (h : Complete v) (ho : (v.conn d).fd > 0)
    (all : (v.conn d).sock.fin = true ∧ (v.conn d).sock.rx = []) :
    Complete (v.mapFlags d ({ · with shutRd := true })) where
  relays := relays_same h.relays ((SameData.refl _).setConn rfl rfl rfl rfl)
  staged e := by simpa using h.staged e
  shut e shut := by
    rcases d.sides e with rfl | rfl
    · simpa using all
    · simpa using h.shut d.peer (by simpa using shut)
  closed e closed := by
    rcases d.sides e with rfl | rfl
    · have ho' : (v.session.conns e).fd > 0 := ho
      simp at closed
      omega
    · simpa using h.closed d.peer (by simpa using closed)
  cuts e c cut := by
    refine h.cuts e c ?_
    rcases d.sides e with rfl | rfl <;> simpa using cut

lemma storeBytes_complete {i : Nat} {bytes : List UInt8} (h : Complete v)
    (ho : (v.conn d).fd > 0) (hp : (v.conn d).ssl = none)
    (hs : i = 0 ∨ i + 1 = (v.conn d).input.length) (hf : bytes.length ≤ slotSpace (v.conn d).input i) :
    Complete (v.mapSession (·.storeBytes d i bytes)) := by
  have hp' : (v.session.conns d).ssl = none := hp
  have ho' : 0 ≤ (v.session.conns d).fd := Int.le_of_lt ho
  refine complete_moved h (relays_store h.relays ho' hs hf) (fun e => ?_) fun e => ?_
  · simpa [Session.storeBytes] using h.staged e
  · rcases d.sides e with rfl | rfl
    · constructor <;> simp [Session.storeBytes, hp']
      intro hn
      simp [hn]
    · constructor <;> simp [Session.storeBytes]

/-- What a plain `recv` that left nothing unread, or found the end of the stream, returned. -/
lemma skRecv_all {sock : Socket} {len : Nat} {answer : RecvAnswer} {raw : RawRecv}
    (h : skRecv sock len answer = some raw) :
    raw.handshake = false ∧ (raw.closed = true → sock.fin = true ∧ sock.rx = []) ∧
      (TakesAll sock answer → sock.rx.drop raw.bytes.length = []) := by
  unfold skRecv at h
  split at h
  · next n =>
    split at h
    · cases h
      refine ⟨rfl, (fun no => by cases no), fun all => ?_⟩
      have ha' : n = sock.rx.length := all
      simp [RawRecv.got, ha']
    · cases h
  · split at h
    · next ended =>
      cases h
      exact ⟨rfl, fun _ => ended.symm, fun _ => by simp [ended.1]⟩
    · cases h
  · split at h
    · cases h
      refine ⟨rfl, (fun no => by cases no), fun all => ?_⟩
      have ha' : sock.rx = [] := all
      simp [ha']
    · cases h
      refine ⟨rfl, (fun no => by cases no), fun all => ?_⟩
      have ha' : sock.rx = [] := all
      simp [ha']

lemma recvInto_complete (h : Complete v) {io : RecvIO} {i : Nat} (ho : (v.conn d).fd > 0)
    (hp : (v.conn d).ssl = none) (slot : i = 0 ∨ i + 1 = (v.conn d).input.length)
    (hh : events.has epollRdHup = true → (v.conn d).sock.fin = true)
    (all : events.has epollRdHup = true → TakesAll (v.conn d).sock io.sys) :
    Complete (View.recvInto io events v d i).2 := by
  have hp' : (v.session.conns d).ssl = none := hp
  unfold View.recvInto
  split
  · exact h
  next raw ha =>
  have used : v.useSsl d = v := by simp [View.useSsl, hp']
  have hb := (connRawRecv_bounds ha).1
  rw [used]
  dsimp only
  split
  · exact complete_calm (calm_mapFlags (d := d) (f := ({ · with error := true })) rfl) h
  next hf =>
  have received : skRecv (v.conn d).sock (slotSpace (v.conn d).input i) io.sys = some raw := by
    rw [hp] at ha
    unfold connRawRecv at ha
    split at ha
    · cases ha
      exact absurd (by simp [RawRecv.failed]) hf
    · simpa using ha
  obtain ⟨handshake, he, rest⟩ := skRecv_all received
  have hs := storeBytes_complete h ho hp slot hb
  have rx : ((v.mapSession (·.storeBytes d i raw.bytes)).conn d).sock.rx =
      (v.conn d).sock.rx.drop raw.bytes.length := by simp [Session.storeBytes, hp']
  have fin : ((v.mapSession (·.storeBytes d i raw.bytes)).conn d).sock.fin = (v.conn d).sock.fin := by
    simp [Session.storeBytes]
  have ho' : ((v.mapSession (·.storeBytes d i raw.bytes)).conn d).fd > 0 := by
    simpa [Session.storeBytes] using ho
  have plain2 : ((v.mapSession (·.storeBytes d i raw.bytes)).conn d).ssl = none := by
    simpa [Session.storeBytes] using hp
  generalize v.mapSession (·.storeBytes d i raw.bytes) = v2 at *
  rw [View.recvHandshake, if_pos handshake, View.recvClose]
  split
  · exact hs
  next closing =>
  have hn : (v2.conn d).sock.fin = true ∧ (v2.conn d).sock.rx = [] := by
    rw [fin, rx]
    cases hc : raw.closed with
    | true => exact ⟨(he hc).1, by simp [(he hc).2]⟩
    | false =>
      have hr : events.has epollRdHup = true := by simpa [hc] using closing
      exact ⟨hh hr, rest (all hr)⟩
  refine recvTrim_complete (complete_calm (recvCloseEvent_calm ?_) (shutRd_complete hs ho' hn))
  simpa using plain2

lemma recvLoop_plain {io : RecvRun} (hp : Plain v) :
    View.recvLoop events d io v = View.recvPass (firstPass io) events v d := by
  cases io with
  | last io => rfl
  | pending io rest =>
    have hp' := plain_acts (acts_of_moves (recvPass_moves (v := v) (d := d) io events)) hp d
    unfold View.recvLoop firstPass
    dsimp only
    split
    · next h => exact h.symm
    · next n v' h =>
      rw [h] at hp'
      dsimp only at hp'
      rw [hp', h]
      rfl

lemma recvData_complete (h : Complete v) {io : RecvRun} (hp : Plain v) (ho : (v.conn d).fd > 0)
    (hh : events.has epollRdHup = true → (v.conn d).sock.fin = true)
    (all : events.has epollErr = false → events.has epollRdHup = true →
      TakesAll (v.conn d).sock (firstPass io).sys) :
    Complete (View.recvData io events v d) := by
  have hs := takeSlot_slot (v := v) (d := d) (firstPass io).alloc
  have ht := takeSlot_complete (d := d) h (firstPass io).alloc
  have fd := (takeSlot_moves (v := v) (d := d) (firstPass io).alloc).own.fd
  have hl : events.has epollErr = false → Complete (View.recvLoop events d io v).2 := by
    intro hn
    rw [recvLoop_plain hp, View.recvPass]
    generalize View.takeSlot (firstPass io).alloc v d = r at *
    obtain ⟨i, v1⟩ := r
    cases i with
    | none => exact ht
    | some i =>
      obtain ⟨slot, sock, ssl⟩ := hs i rfl
      dsimp only at ht fd slot sock ssl ⊢
      refine recvInto_complete ht (by rw [fd]; exact ho) (ssl.trans (hp d)) slot ?_ ?_
      · rw [sock]
        exact hh
      · rw [sock]
        exact all hn
  unfold View.recvData
  split
  · exact complete_calm (calm_trans (calm_mapFlags rfl) calm_queue) h
  next hn =>
  have hl := hl (by simpa using hn)
  split
  · next eq =>
    rw [eq] at hl
    exact complete_calm calm_queue hl
  · next eq =>
    rw [eq] at hl
    exact complete_calm calm_queue hl

/-! ## Sending -/

lemma sendPackets_drained {usesSsl : Bool} {ios : Nat → SendIO} {i : Nat} {packets : List Packet}
    (hd : (sendPackets usesSsl ios i packets).exit = .drained) :
    (sendPackets usesSsl ios i packets).rest = [] := by
  induction packets generalizing i with
  | nil => rfl
  | cons p rest ih =>
    unfold sendPackets at hd ⊢
    dsimp only at hd ⊢
    split at hd
    · cases hd
    next nonneg =>
    split at hd
    · cases hd
    next whole =>
    rw [if_neg nonneg, if_neg whole]
    exact ih hd

lemma sendLooped_complete (h : Complete v) (ios : Nat → SendIO) (ho : ¬ (v.conn d).fd < 0) :
    Complete (sendLooped ios v d) := by
  have ho' : 0 ≤ (v.session.conns d).fd := Int.not_lt.mp ho
  have hs : (sendLooped ios v d).session =
      v.session.applySent d (sendPackets (v.conn d).ssl.isSome ios 0 (v.conn d).output) := by
    unfold sendLooped sendLoop
    split <;> simp
  refine complete_moved h (by rw [hs]; exact relays_send h.relays _ ios ho')
    (fun e => ?_) fun e => ?_
  · rw [sendLooped_staged]
    exact h.staged e
  · rcases d.sides e with rfl | rfl <;> constructor <;> simp [sentConn]

/-- The write side is shut down behind an empty output. -/
lemma sendShut_complete (h : Complete v) (hp : (v.conn d).ssl = none) (hd : (v.conn d).output = [])
    (hn : (v.conn d.peer).flags.shutRd = true → carried (v.conn d.peer).input = []) :
    Complete (View.sendShut v d) := by
  have hp' : (v.session.conns d).ssl = none := hp
  unfold View.sendShut
  split
  · exact h
  next shut =>
  rw [hp]
  dsimp only
  have hs' : (v.conn d.peer).flags.shutRd = true := by simpa using shut
  obtain ⟨fin, rx⟩ := h.shut d.peer hs'
  have hs := (h.relays d.peer).stream
  have ha : (v.conn d).sock.accepted = (v.conn d.peer).sock.received := by
    rw [View.conn, View.conn, hs]
    have hd' : (v.session.conns d).output = [] := hd
    have hn' : carried (v.session.conns d.peer).input = [] := hn hs'
    simp [inFlight, hd', hn', h.staged d.peer]
  refine ⟨relays_same h.relays ((SameData.refl _).setConn rfl rfl rfl rfl), fun e => ?_,
    fun e side => ?_, fun e hc => ?_, fun e c cut => ?_⟩
  · simpa using h.staged e
  · rcases d.sides e with rfl | rfl
    · simpa [cutBy] using h.shut e (by simpa [cutBy] using side)
    · simpa using h.shut d.peer (by simpa using side)
  · rcases d.sides e with rfl | rfl
    · simpa [cutBy] using h.closed e (by simpa [cutBy] using hc)
    · simpa using h.closed d.peer (by simpa using hc)
  · rcases d.sides e with rfl | rfl
    · have he : (⟨(v.conn e.peer).sock.received ++ (v.conn e.peer).sock.rx,
          (v.conn e.peer).sock.fin, (v.conn e).sock.accepted⟩ : Cut) = c := by
        simpa [cutBy] using cut
      rw [← he]
      exact ⟨fin, by rw [ha, rx, List.append_nil]⟩
    · exact h.cuts d.peer c (by simpa using cut)

lemma sendData_complete (h : Complete v) {ios : Nat → SendIO} (hp : Plain v)
    (ho : ¬ (v.conn d).fd < 0) (hn : NothingWaits v d ios) :
    Complete (View.sendData ios events v d).2 := by
  have hr := sendLoop_results ios (v.conn d)
  unfold View.sendData
  split
  · exact h
  next ready =>
  have hl := sendLooped_complete h ios ho
  dsimp only
  split
  · have hf := complete_calm (calm_mapFlags (d := d) (f := ({ · with error := true })) rfl) hl
    unfold View.sendErr
    split
    · exact hf
    · exact complete_calm calm_queue hf
  · exact complete_calm sendBlock_calm hl
  · next drained =>
    rw [drained] at hr
    have hc := sendUnblock_calm (v := sendLooped ios v d) (d := d)
    have ha := (sendLooped_acts (v := v) (d := d) ios).trans sendUnblock_acts
    refine sendShut_complete (complete_calm hc hl) (plain_acts ha hp d) ?_ fun hs => ?_
    · rw [View.conn, hc.data.output, sendLooped_self]
      exact sendPackets_drained drained
    · rw [hc.shutRd, View.conn, sendLooped_peer] at hs
      rw [View.conn, hc.data.input, sendLooped_peer]
      exact hn (by simpa using ready) hs hr

/-! ## Tasks -/

variable {io : TaskIO}

lemma getServer_calm (io : ForwardIO) : Calm v (getServer io v d).2 := by
  have hc : ∀ usesSsl, Calm v (v.mapSession (·.chooseServer usesSsl)) := fun usesSsl =>
    ⟨(SameData.refl _).chooseServer usesSsl, fun _ => rfl, fun _ => rfl⟩
  unfold getServer
  repeat' split
  · exact calm_refl
  · exact calm_refl
  · exact hc _
  · dsimp only
    exact calm_trans (hc _) (calm_mapConn rfl rfl rfl rfl rfl rfl)
  · dsimp only
    exact calm_trans (hc _) (calm_trans calm_note (calm_mapConn rfl rfl rfl rfl rfl rfl))

lemma watchServer_calm {io : ForwardIO} {wait : Bool} : Calm v (View.watchServer io wait v d).2 := by
  unfold View.watchServer
  repeat' split
  · exact calm_trans (calm_mapFlags (d := d) rfl) (calm_ask _)
  · exact calm_ask _
  · exact calm_refl
  · exact calm_trans (calm_mapConn (d := d) rfl rfl rfl rfl rfl rfl) (calm_ask _)

/-- A connection that was never used gets a socket, or fails to. -/
structure Unused (v : View) (d : Dir) : Prop extends Complete v where
  idle : (v.conn d).fd ≤ 0 ∨ (v.conn d).sock = .fresh
  reads : (v.conn d).flags.shutRd = false

lemma redial_unused {fd : Int} (request : Option Request) (h : Unused v d) (pos : fd ≠ 0) :
    Unused (redial v d fd request) d where
  relays := relays_dial h.relays h.idle pos
  staged e := by simpa [redial] using h.staged e
  shut e shut := by
    rcases d.sides e with rfl | rfl
    · have reads : (v.session.conns e).flags.shutRd = false := h.reads
      simp [redial, reads] at shut
    · simpa [redial] using h.shut d.peer (by simpa [redial] using shut)
  closed e closed := by
    rcases d.sides e with rfl | rfl
    · simpa [redial] using h.reads
    · simpa [redial] using h.closed d.peer (by simpa [redial] using closed)
  cuts e c cut := by
    refine h.cuts e c ?_
    rcases d.sides e with rfl | rfl <;> simpa [redial] using cut
  idle := .inr (by simp [redial])
  reads := by simpa [redial] using h.reads

lemma dial_complete (h : Complete v) {io : ForwardIO} {mode : PolicyMode}
    (hc : (v.conn d).fd < 0) : Complete (View.dial io mode v d).2 := by
  have calm := getServer_calm (v := v) (d := d) io
  have chosen := complete_calm calm h
  have hu : Unused (getServer io v d).2 d := by
    refine ⟨chosen, .inl ?_, ?_⟩
    · rw [View.conn, calm.data.fd]
      exact Int.le_of_lt hc
    · rw [calm.shutRd]
      exact h.closed d hc
  have hd : Unused (View.connectServer io mode (getServer io v d).2 d).2 d :=
    connectServer_keeps (P := (Unused · d)) io mode (fun _ h => redial_unused none h (by decide))
      (fun _ fd pos h => redial_unused _ ⟨complete_calm calm_note h.toComplete, h.idle, h.reads⟩
        (by simpa using pos)) hu
  apply dial_cases (P := fun r => Complete r.2) io mode chosen
  · intro v2 connected
    rw [connected] at hd
    exact hd.toComplete
  · intro wait v2 _ connected
    rw [connected] at hd
    exact complete_calm watchServer_calm hd.toComplete

lemma joined_complete (h : Complete v) : Complete (joined v d) := by
  have ht := complete_calm (taken_calm (d := d)) h
  have hr := relays_forward (d := d.peer) (relays_parse (d := d) ht.relays)
  refine complete_moved ht hr (fun e => ?_) fun e => ?_
  · rcases d.sides e with rfl | rfl
    · exact joined_staged
    · rw [joined_staged_peer]
      exact h.staged d.peer
  · rcases d.sides e with rfl | rfl
    · rw [joined_conn, taken_conn]
      constructor <;> simp
    · rw [joined_peer, taken_peer]
      constructor <;> simp

/-! ## Every step -/

/-- A session in use that has no SSL is complete. -/
structure Tracked (v : View) : Prop where
  fresh : ∀ e, (v.conn e).fd < 0 → (v.conn e).ssl = none
  complete : PlainTcp v.session → Complete v

/-- What remains of a session that is released. -/
def Settled (v : View) : Prop := PlainTcp v.session → CutsComplete v

variable {v' : View}

lemma plainTcp_plain (h : PlainTcp v.session) : Plain v := fun e => (h e).1

lemma fresh_act (act : Act d v v') (h : ∀ e, (v.conn e).fd < 0 → (v.conn e).ssl = none) {e : Dir}
    (hc : (v'.conn e).fd < 0) : (v'.conn e).ssl = none := by
  cases act with
  | edit he =>
    rw [he.fd] at hc
    exact (he.ssl e).trans (h e hc)
  | note _ => exact h e hc
  | use =>
    rw [View.conn, useSsl_session] at hc ⊢
    exact h e hc
  | free _ _ =>
    rcases d.sides e with rfl | rfl
    · simp [View.freeSsl]
    · simpa [View.freeSsl] using h d.peer (by simpa [View.freeSsl] using hc)

/-- Whatever a callback or a send does to a session that has SSL. -/
lemma tracked_acts (ha : Acts d v v') (h : Tracked v)
    (hc : PlainTcp v.session → Complete v → Complete v') : Tracked v' where
  fresh := ha.keep (P := fun v => ∀ e, (v.conn e).fd < 0 → (v.conn e).ssl = none) fresh_act h.fresh
  complete plain :=
    have hb := plainTcp_acts ha plain
    hc hb (h.complete hb)

lemma taken_tracked (h : Tracked v) : Tracked (taken v d) :=
  tracked_acts taken_acts h fun _ => complete_calm taken_calm

lemma call_tracked {io : CallbackIO} {cb : Callback} (h : Tracked v)
    (hc : Called v d cb events) (ok : readFirst.call v d cb io events) :
    Tracked (View.call io cb events v d) := by
  refine tracked_acts (call_acts io cb events hc.opened) h fun tcp complete => ?_
  have hp := plainTcp_plain tcp
  cases cb with
  | connRecvData =>
    exact recvData_complete complete hp hc.opened hc.hangup ((ok tcp).1 rfl)
  | connSendData =>
    have ho := hc.opened
    exact sendData_complete complete hp (by omega) ((ok tcp).2 rfl)
  | connHandshake => exact complete_calm handshake_calm complete
  | connShutdown => exact complete_calm shutdown_calm complete
  | listenerAccept => exact complete

lemma send_tracked {ios : Nat → SendIO} (h : Tracked v)
    (hn : PlainTcp v.session → NothingWaits v d ios) : Tracked (View.send ios v d).2 := by
  refine tracked_acts (send_acts ios) h fun tcp hc => ?_
  unfold View.send
  split
  · exact hc
  · next opened =>
    exact sendData_complete hc (plainTcp_plain tcp) opened (hn tcp)

/-- Dialling does not take SSL away from the session. -/
lemma dial_plainTcp {io : ForwardIO} {mode : PolicyMode} (none : (v.conn d).ssl = none)
    (h : PlainTcp (View.dial io mode v d).2.session) : PlainTcp v.session := by
  have hr := dial_redials (v := v) (d := d) io mode
  intro e
  rcases d.sides e with rfl | rfl
  · have hf := congrArg ConnFlags.sslShut hr.flags
    exact ⟨none, hf.symm.trans (h e).2⟩
  · have hp := h d.peer
    rw [show (View.dial io mode v d).2.session.conns d.peer = v.session.conns d.peer from
      hr.peer] at hp
    exact hp

lemma joined_tracked (h : Tracked v) : Tracked (joined v d) :=
  tracked_acts joined_acts h fun _ hc => joined_complete hc

lemma forward_tracked (h : Tracked v) (hs : Sound v)
    (hf : (forwarded io.forward v d).1 = 0) : Tracked (forwarded io.forward v d).2 := by
  have hj := joined_tracked (d := d) h
  obtain ⟨mode, hp⟩ := forwarded_policy hf
  by_cases ho : (v.conn d.peer).fd > 0
  · rw [forward_connected io.forward ho hp]
    exact hj
  · rw [forward_dials io.forward ho hp] at hf ⊢
    have hc : ((joined v d).conn d.peer).fd < 0 := by
      have zero := hs.fd d.peer
      rw [joined_peer]
      dsimp only
      omega
    have hr := dial_redials (v := joined v d) (d := d.peer) io.forward mode
    refine ⟨fun e hn => ?_, fun tcp => ?_⟩
    · rcases d.peer.sides e with rfl | rfl
      · exact absurd (dial_opened io.forward mode hf) (by omega)
      · rw [hr.peer] at hn ⊢
        exact hj.fresh _ hn
    · have hb := dial_plainTcp (hj.fresh _ hc) tcp
      exact dial_complete (hj.complete hb) hc

lemma free_settled (h : Settled v) : Settled (View.free v d) := by
  intro tcp e c cut
  rw [(free_kept e).2.2] at cut
  refine h (fun e' => ?_) e c cut
  obtain ⟨ssl, hf, -⟩ := free_kept (v := v) (d := d) e'
  have hk := tcp e'
  rw [show ((View.free v d).session.conns e').ssl = (v.session.conns e').ssl from ssl,
    show ((View.free v d).session.conns e').flags = (v.session.conns e').flags from hf] at hk
  exact hk

lemma Tracked.settled (h : Tracked v) : Settled v := fun tcp => (h.complete tcp).cuts

lemma taken_settled (h : Settled v) : Settled (taken v d) := by
  intro tcp e c cut
  rw [taken_calm.cut] at cut
  exact h (plainTcp_acts taken_acts tcp) e c cut

lemma forward_settled (h : Tracked v) (hs : Sound v) : Settled (forwarded io.forward v d).2 := by
  have hj := joined_tracked (d := d) h
  cases hp : v.session.policy with
  | none =>
    rw [forward_unset io.forward hp]
    intro tcp e c cut
    have hb := plainTcp_acts (parsed_acts (v := v) (d := d)) tcp
    refine (h.complete hb).cuts e c ?_
    rcases d.sides e with rfl | rfl
    · simpa [Session.joinInput, taken, setLinked] using cut
    · simpa [Session.joinInput, taken, setLinked] using cut
  | some mode =>
    by_cases ho : (v.conn d.peer).fd > 0
    · rw [forward_connected io.forward ho hp]
      exact hj.settled
    · rw [forward_dials io.forward ho hp]
      have hc : ((joined v d).conn d.peer).fd < 0 := by
        have zero := hs.fd d.peer
        rw [joined_peer]
        dsimp only
        omega
      intro tcp
      have hb := dial_plainTcp (hj.fresh _ hc) tcp
      exact (dial_complete (hj.complete hb) hc).cuts

/-- A parse task has moved all that was received to the output. -/
lemma forward_waits (ios : Nat → SendIO) : NothingWaits (forwarded io.forward v d).2 d.peer ios := by
  intro _ _ _
  have hm : ((forwarded io.forward v d).2.conn d.peer.peer).input = [] := by
    rw [(forward_frame io.forward).2.2, Dir.peer_peer]
    simp [Session.joinInput]
  rw [hm]
  rfl

lemma tracked_ends {r : Int × View} (h : Tracked r.2) : Ends Tracked Settled d r :=
  ⟨fun _ => free_settled h.settled, fun _ => h⟩

lemma accepted_tracked {v : View} {l : ListenerFd} {fd : Nat} (pos : fd ≠ 0) :
    Tracked (accepted v l fd) := by
  have hc := accepted_client v l fd
  have hs := accepted_server v l fd
  have staged : ∀ e, (accepted v l fd).session.staged e = [] := by
    intro e
    cases e <;> rfl
  refine ⟨fun e closed => ?_, fun _ => ⟨fun e => ?_, staged, fun e shut => ?_, fun e closed => ?_,
    fun e c cut => ?_⟩⟩
  · cases e
    · simp [hc] at closed
      omega
    · simp [hs, connInit]
  · cases e
    · constructor <;> simp [hc, hs, Dir.peer, inFlight, staged, connInit, Socket.fresh, pos]
    · constructor <;> simp [hc, hs, Dir.peer, inFlight, staged, connInit, Socket.fresh]
  · cases e
    · simp [hc, ConnFlags.none] at shut
    · simp [hs, connInit, ConnFlags.none] at shut
  · cases e
    · simp [hc, ConnFlags.none]
    · simp [hs, connInit, ConnFlags.none]
  · cases e
    · simp [hc, connInit] at cut
    · simp [hs, connInit] at cut

lemma deliver_tracked {v : View} {d : Dir} {bytes : List UInt8} {fin : Bool} (h : Tracked v)
    (hn : (v.conn d).sock.fin = false) : Tracked (v.mapConn d (·.deliver bytes fin)) := by
  have he := deliver_edits (v := v) (d := d) bytes fin
  refine ⟨fun e closed => ?_, fun tcp => ?_⟩
  · rw [he.fd] at closed
    exact (he.ssl e).trans (h.fresh e closed)
  · have hc := h.complete (plainTcp_act (d := d) (.edit he) tcp)
    refine ⟨relays_deliver bytes fin hc.relays, fun e => ?_, fun e hs => ?_,
      fun e closed => ?_, fun e c cut => ?_⟩
    · simpa using hc.staged e
    · rcases d.sides e with rfl | rfl
      · -- the remote end sends nothing behind its FIN
        have ended := (hc.shut e (by simpa [deliver] using hs)).1
        rw [hn] at ended
        cases ended
      · simpa using hc.shut d.peer (by simpa using hs)
    · rw [he.fd] at closed
      rcases d.sides e with rfl | rfl <;>
        simpa [deliver] using hc.closed _ closed
    · refine hc.cuts e c ?_
      rcases d.sides e with rfl | rfl <;> simpa [deliver] using cut

lemma readFirst_serves : Serves Tracked Settled readFirst where
  start _ zero _ _ := fun e c cut => by simp [zero, Session.zero] at cut
  accept _ _ pos := accepted_tracked pos
  refuse _ _ refuses _ := fun e c cut => by simp [refuses.uncut e] at cut
  deliver h _ _ notFin := deliver_tracked h notFin
  late {v d bytes fin} h tcp e c cut := by
    refine h (plainTcp_act (d := d) (.edit (deliver_edits bytes fin)) tcp) e c ?_
    rcases d.sides e with rfl | rfl <;> simpa [deliver] using cut
  call h hc ok := call_tracked h hc ok
  idle h _ _ := taken_tracked h
  delete h _ _ _ := free_settled (taken_tracked h).settled
  forward h hs _ _ _ := free_settled (forward_settled h hs)
  parse {v d io} h hs _ _ forwarded := tracked_ends
    (send_tracked (forward_tracked h hs forwarded) fun _ => forward_waits io.send)
  send {v d io} h _ hk ok := by
    refine tracked_ends (send_tracked (taken_tracked h) fun tcp => ?_)
    have hn := ok (plainTcp_acts taken_acts tcp) hk
    intro hr shut hf
    rw [taken_conn] at hr hf
    rw [taken_peer] at shut ⊢
    exact hn hr shut hf
  closed h _ := free_settled h.settled
  free h _ _ := free_settled h.settled
  rest h _ _ := free_settled (taken_settled h)
  again h _ _ _ := free_settled h

/-! ## Every run -/

/-- In every run in which a receive that is told of the FIN takes everything, and no send
drains the output while something received waits, every half-close is complete. -/
theorem half_close_complete (maxfd naccept : Nat) (opened : Nat → Bool) {actions : List Action}
    (along : Along workerStep readFirst.allow actions (Worker.start maxfd naccept opened)) :
    Ensures (runWorker actions) (Worker.start maxfd naccept opened)
      (fun _ w => HalfCloseComplete w) (fun _ _ => True) := by
  refine (readFirst_serves.kept.run maxfd naccept opened along).imp_true (fun _ w h s tcp => ?_)
  rcases h.2 s with ⟨-, ht⟩ | ⟨hs, -⟩
  · exact ht.settled tcp
  · exact hs tcp

/-- The client sends two bytes, then one more and its FIN. -/
def clientCloses : List Action :=
  plainExchange ++ .deliver 0 .client [5] true ::
    polls [((4, epollIn ||| epollRdHup), receives 1)] ++ [.runTask (relays false false maxPktLen)]

theorem half_close_complete_clientCloses :
    Along workerStep readFirst.allow clientCloses (Worker.start 16 1 fun _ => false) ∧
    Ensures (runWorker clientCloses) (Worker.start 16 1 fun _ => false)
      (fun _ w => HalfCloseComplete w) (fun _ _ => True) :=
  ⟨by decide +kernel, half_close_complete 16 1 (fun _ => false) (by decide +kernel)⟩

/-- The client sends two bytes and its FIN; the first receive takes one of them. -/
def readInParts : List Action :=
  acceptRound .reverse false ++ .deliver 0 .client [7, 9] true ::
    polls [((4, epollIn ||| epollRdHup), receives 1)] ++ [.runTask (relays false false maxPktLen)]

/-- The server's connect is pending. It completes in the round in which the rest of the
client's data arrives with its FIN, and the server's task comes first. -/
def connectedLate : List Action :=
  acceptRound .reverse false ++ .deliver 0 .client [7, 9] false ::
    polls [((4, epollIn), receives 2)] ++ .runTask (relays false true maxPktLen) ::
    .deliver 0 .client [5] true ::
    polls [((5, epollOut), willing), ((4, epollIn ||| epollRdHup), receives 1)] ++
    [.runTask (relays false true maxPktLen)]

/-- Both times the server's write side is shut down before all was sent. -/
theorem closed_too_early : Ensures (runWorker readInParts) emptyWorker (fun _ w => ¬ HalfCloseComplete w)
      (fun _ _ => False) ∧ Ensures (runWorker connectedLate) emptyWorker (fun _ w => ¬ HalfCloseComplete w)
      (fun _ _ => False) := by
  have hc : ∀ {w : Worker} {c : Cut}, PlainTcp (w.sessions 0) →
      (w.conn 0 .server).cut = some c → c.accepted ≠ c.sent → ¬ HalfCloseComplete w :=
    fun tcp cut hs all => hs (all 0 tcp .server _ cut).2
  have hp : Ensures (runWorker readInParts) emptyWorker
      (fun _ w => PlainTcp (w.sessions 0) ∧ (w.conn 0 .server).cut = some ⟨[7, 9], true, [7]⟩)
      (fun _ _ => False) := by decide +kernel
  have hl : Ensures (runWorker connectedLate) emptyWorker (fun _ w => PlainTcp (w.sessions 0) ∧
        (w.conn 0 .server).cut = some ⟨[7, 9, 5], true, [7, 9]⟩)
      (fun _ _ => False) := by decide +kernel
  exact ⟨hp.imp (fun _ _ h => hc h.1 h.2 (by decide)),
    hl.imp (fun _ _ h => hc h.1 h.2 (by decide))⟩

end Fzsvn.Guarantees.Proxy.HalfClose
