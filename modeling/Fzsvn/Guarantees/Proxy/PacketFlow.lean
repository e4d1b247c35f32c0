import Fzsvn.Source.Proxy.Worker
import Mathlib.Logic.Relation

/-!
# How packets move through a session

The abstract view of a session's data. Whatever the callbacks and tasks do, each of
them takes the session through a sequence of the few moves below: a packet is
allocated behind a full one, bytes are stored in it, an empty packet is dropped, a
list is joined to the next one, a send takes bytes off the output. Invariants of
the data are proved for the moves, and hold for the code because its functions only
make moves.
-/
namespace Fzsvn.Guarantees.Proxy.PacketFlow
open Library.Exec Source.Proxy Session

/-! ## Moves -/

/-- Nothing that concerns packets or sockets differs. -/
structure SameData (x y : Session) : Prop where
  input : ∀ d, (y.conns d).input = (x.conns d).input
  output : ∀ d, (y.conns d).output = (x.conns d).output
  sock : ∀ d, (y.conns d).sock = (x.conns d).sock
  fd : ∀ d, (y.conns d).fd = (x.conns d).fd
  staged : ∀ d, y.staged d = x.staged d
  nalloced : y.nalloced = x.nalloced

@[simp] lemma SameData.refl (x : Session) : SameData x x :=
  ⟨fun _ => rfl, fun _ => rfl, fun _ => rfl, fun _ => rfl, fun _ => rfl, rfl⟩

lemma SameData.trans {x y z : Session} (h1 : SameData x y) (h2 : SameData y z) : SameData x z where
  input d := (h2.input d).trans (h1.input d)
  output d := (h2.output d).trans (h1.output d)
  sock d := (h2.sock d).trans (h1.sock d)
  fd d := (h2.fd d).trans (h1.fd d)
  staged d := (h2.staged d).trans (h1.staged d)
  nalloced := h2.nalloced.trans h1.nalloced

variable {x y : Session}

/-- A connection is overwritten by one with the same lists, socket and descriptor. -/
@[simp] lemma SameData.setConn {d : Dir} {c : Connection} (h : SameData x y)
    (hi : c.input = (y.conns d).input) (ho : c.output = (y.conns d).output)
    (hs : c.sock = (y.conns d).sock) (fd : c.fd = (y.conns d).fd) : SameData x (y.setConn d c) := by
  refine h.trans ⟨?_, ?_, ?_, ?_, by simp, rfl⟩ <;>
  · intro e
    rcases d.sides e with rfl | rfl <;> simp [hi, ho, hs, fd]

@[simp] lemma SameData.chooseServer (h : SameData x y) (usesSsl : Bool) :
    SameData x (y.chooseServer usesSsl) := by
  refine { h with staged := fun d => ?_ }
  rw [← h.staged d]
  cases d <;> rfl

/-- One move of a session's data. -/
inductive Shift (x : Session) : Session → Prop where
  | same {y : Session} (same : SameData x y) : Shift x y
  | alloc (d : Dir) (noSlot : recvSlot (x.conns d).input = none) : Shift x (x.allocPacket d)
  | store (d : Dir) (i : Nat) (bytes : List UInt8) (opened : 0 ≤ (x.conns d).fd)
      (slot : i = 0 ∨ i + 1 = (x.conns d).input.length)
      (fits : bytes.length ≤ slotSpace (x.conns d).input i) : Shift x (x.storeBytes d i bytes)
  | free (d : Dir) (i : Nat) (empty : ((x.conns d).input[i]?).map Packet.len = some 0) :
      Shift x (x.freePacket d i)
  | parse (d : Dir) : Shift x (x.joinInput d)
  | forward (d : Dir) : Shift x (x.joinOutput d)
  | send (d : Dir) (usesSsl : Bool) (ios : Nat → SendIO) (opened : 0 ≤ (x.conns d).fd) :
      Shift x (x.applySent d (sendPackets usesSsl ios 0 (x.conns d).output))
  | dial (d : Dir) (fd : Int) (idle : (x.conns d).fd ≤ 0 ∨ (x.conns d).sock = .fresh)
      (fd_ne : fd ≠ 0) : Shift x (x.setConn d { x.conns d with fd := fd, sock := .fresh })

/-- The session `s` went through moves. -/
def Flows (s : Nat) (w w' : Worker) : Prop :=
  Relation.ReflTransGen Shift (w.sessions s) (w'.sessions s)

/-- Its packets and sockets did not change. -/
def Quiet (s : Nat) (w w' : Worker) : Prop := SameData (w.sessions s) (w'.sessions s)

variable {s : Nat} {d : Dir} {fd : Int} {events : Mask}

variable {w1 w2 w3 : Worker}

lemma Quiet.trans (h1 : Quiet s w1 w2) (h2 : Quiet s w2 w3) : Quiet s w1 w3 := SameData.trans h1 h2

lemma flows_refl (w : Worker) : Flows s w w := .refl

lemma Flows.trans (h1 : Flows s w1 w2) (h2 : Flows s w2 w3) :
    Flows s w1 w3 := Relation.ReflTransGen.trans h1 h2

instance (s : Nat) : IsPreorder Worker (Quiet s) where
  refl _ := SameData.refl _
  trans _ _ _ := Quiet.trans

instance (s : Nat) : IsPreorder Worker (Flows s) where
  refl := flows_refl
  trans _ _ _ := Flows.trans

lemma Quiet.flows {w w' : Worker} (h : Quiet s w w') : Flows s w w' :=
  .single (.same h)

/-- It went through moves that leave its descriptors alone. -/
def Steady (s : Nat) (w w' : Worker) : Prop :=
  Flows s w w' ∧ ∀ d, (w'.conn s d).fd = (w.conn s d).fd

lemma Steady.trans (h1 : Steady s w1 w2) (h2 : Steady s w2 w3) : Steady s w1 w3 :=
  ⟨Flows.trans h1.1 h2.1, fun d => (h2.2 d).trans (h1.2 d)⟩

instance (s : Nat) : IsPreorder Worker (Steady s) where
  refl w := ⟨flows_refl w, fun _ => rfl⟩
  trans _ _ _ := Steady.trans

lemma Quiet.steady {w w' : Worker} (h : Quiet s w w') : Steady s w w' :=
  ⟨h.flows, h.fd⟩

lemma steady_of_quiet {α : Type} {prog : Run α} (h : Keeps (Quiet s) prog) :
    Keeps (Steady s) prog := fun w => (h w).mono (fun _ _ => Quiet.steady) (fun _ _ => Quiet.steady)

lemma flows_of_quiet {α : Type} {prog : Run α} (h : Keeps (Quiet s) prog) :
    Keeps (Flows s) prog := fun w => (h w).mono (fun _ _ => Quiet.flows) (fun _ _ => Quiet.flows)

/-! ## Functions that move nothing -/

lemma session_quiet : Keeps (Quiet s) (session s) := by
  intro w
  simp [Quiet]

lemma modifyFlags_quiet (f : ConnFlags → ConnFlags) : Keeps (Quiet s) (modifyFlags s d f) := by
  intro w
  simp [Quiet]

lemma sslUse_quiet {c : Connection} : Keeps (Quiet s) (sslUse s d c) := by
  intro w
  unfold sslUse
  split <;> simp [Quiet]

lemma queueTask_quiet {kind : TaskKind} : Keeps (Quiet s) (queueTask s d kind) := by
  intro w
  simp [queueTask, taskAddQueue, setKind, setLinked, ensures_ite, Quiet]

lemma errFree_quiet : Keeps (Quiet s) (errFree s d) := by
  intro w
  simp only [errFree, ensures_bind, ensures_pure]
  exact queueTask_quiet w

lemma sendErrFree_quiet : Keeps (Quiet s) (sendErrFree events s d) := by
  intro w
  simp [sendErrFree, taskAddQueue, setKind, setLinked, Quiet]

lemma sendBlock_quiet : Keeps (Quiet s) (sendBlock fd events s d) := by
  intro w
  simp [sendBlock, claimItem, sendErrFree, taskAddQueue, setKind, setLinked, ensures_ite, Quiet]

lemma sendUnblock_quiet : Keeps (Quiet s) (sendUnblock fd s d) := by
  intro w
  simp [sendUnblock, claimItem, ensures_ite, Quiet]

lemma sendShut_quiet : Keeps (Quiet s) (sendShut fd events s d) := by
  intro w
  simp only [sendShut, ensures_bind, ensures_session]
  rw [ensures_ite]
  refine ⟨fun _ => by simp [Quiet], fun _ => ?_⟩
  cases ((w.sessions s).conns d).ssl <;>
    simp [sendErrFree, taskAddQueue, setKind, setLinked, cutBy, ensures_ite, Quiet]

lemma sslWaitFor_quiet {wait : SslWait} : Keeps (Quiet s) (sslWaitFor wait fd events) := by
  intro w
  simp [sslWaitFor, requestWait, ensures_ite, Quiet]

lemma conn_quiet : Keeps (Quiet s) (conn s d) := by
  intro w
  simp [Quiet]

lemma sslHandshake_quiet {io : HandshakeIO} : Keeps (Quiet s) (sslHandshake io fd events s d) := by
  refine keeps_bind conn_quiet fun c => keeps_ite (keeps_pure _) ?_
  refine keeps_bind sslUse_quiet fun _ => ?_
  split
  · exact keeps_pure _
  · exact keeps_pure _
  · refine keeps_bind sslWaitFor_quiet fun stage => ?_
    exact keeps_bind (keeps_onlyIf _ (modifyFlags_quiet _)) fun _ => keeps_pure _

lemma handshakeDone_quiet : Keeps (Quiet s) (handshakeDone fd s d) := by
  intro w
  simp [handshakeDone, errFree, queueTask, taskAddQueue, setKind, setLinked, ensures_ite, Quiet]

lemma connHandshake_quiet {io : HandshakeIO} : Keeps (Quiet s) (connHandshake io fd events s d) := by
  refine keeps_ite (keeps_pure _) ?_
  refine keeps_bind session_quiet fun x => ?_
  refine keeps_bind (keeps_stopUnless _ _) fun _ => ?_
  refine keeps_bind (keeps_stopUnless _ _) fun _ => ?_
  refine keeps_ite errFree_quiet ?_
  refine keeps_bind (fun w => by simp [tcpHandshake, ensures_ite, Quiet]) fun tcp => ?_
  refine keeps_ite errFree_quiet ?_
  refine keeps_bind sslHandshake_quiet fun stage => ?_
  cases stage with
  | next => exact handshakeDone_quiet
  | done ret => exact keeps_pure ret
  | fail => exact errFree_quiet

lemma sslShutdown_quiet {io : ShutdownIO} : Keeps (Quiet s) (sslShutdown io fd events s d) := by
  refine keeps_bind conn_quiet fun c => keeps_ite (keeps_pure _) ?_
  refine keeps_bind sslUse_quiet fun _ => ?_
  split
  · exact keeps_pure _
  · exact keeps_pure _
  · refine keeps_bind sslWaitFor_quiet fun stage => ?_
    refine keeps_ite (keeps_pure _) (keeps_ite (keeps_pure _) fun w => ?_)
    simp [Quiet]

lemma connShutdown_quiet {io : ShutdownIO} : Keeps (Quiet s) (connShutdown io fd events s d) := by
  refine keeps_ite (keeps_pure _) ?_
  refine keeps_bind session_quiet fun x => ?_
  refine keeps_bind (keeps_stopUnless _ _) fun _ => ?_
  refine keeps_bind (keeps_stopUnless _ _) fun _ => ?_
  refine keeps_ite errFree_quiet ?_
  refine keeps_bind sslShutdown_quiet fun stage => ?_
  cases stage with
  | next =>
    refine keeps_bind (fun w => by simp [Quiet]) fun ret => ?_
    exact keeps_ite errFree_quiet (keeps_pure _)
  | done ret => exact keeps_pure ret
  | fail => exact errFree_quiet

/-! ## Receiving -/

/-- The slot is the first packet or the last one, and no byte has moved yet. -/
lemma takeSlot_steady {alloc : Bool} {w : Worker} : Ensures (takeSlot alloc s d) w
      (fun slot w' => Steady s w w' ∧
        ∀ i ∈ slot, i = 0 ∨ i + 1 = (w'.conn s d).input.length)
      (fun _ _ => False) := by
  simp only [takeSlot, ensures_bind, ensures_conn]
  cases hh : recvSlot (w.conn s d).input with
  | some i =>
    simp only [ensures_pure]
    refine ⟨Quiet.steady (by simp [Quiet]), fun j hj => .inl ?_⟩
    cases hj
    unfold recvSlot at hh
    split at hh
    · cases hh
    · split at hh <;> cases hh
      rfl
  | none =>
    rw [ensures_ite, ensures_pure]
    refine ⟨fun _ => ⟨Quiet.steady (by simp [Quiet]), by simp⟩, fun _ => ?_⟩
    simp only [ensures_bind, ensures_modifySession, ensures_pure]
    refine ⟨⟨.single ?_, fun e => ?_⟩, fun j hj => .inr ?_⟩
    · simpa using Shift.alloc d hh
    · rcases d.sides e with rfl | rfl <;> simp [allocPacket]
    · cases hj
      simp [allocPacket]

lemma recvCloseEvent_quiet : Keeps (Quiet s) (recvCloseEvent fd s d) := by
  intro w
  simp only [recvCloseEvent, ensures_bind, ensures_conn]
  cases ((w.sessions s).conns d).ssl <;> simp [Quiet]

lemma recvClose_steady {raw : RawRecv} {i : Nat} : Keeps (Steady s) (recvClose raw fd events s d i) := by
  refine keeps_ite (keeps_pure _) ?_
  refine keeps_bind (steady_of_quiet (modifyFlags_quiet _)) fun _ => ?_
  refine keeps_bind (steady_of_quiet recvCloseEvent_quiet) fun ret => ?_
  refine keeps_ite (keeps_pure _) fun w => ?_
  simp only [ensures_pure, ensures_bind, ensures_conn, ensures_onlyIf, ensures_modifySession]
  refine ⟨fun hn => ⟨.single ?_, fun e => ?_⟩, fun _ => Quiet.steady (by simp [Quiet])⟩
  · simpa using Shift.free d i hn
  · rcases d.sides e with rfl | rfl <;> simp [freePacket]

lemma recvAfter_steady {raw : RawRecv} {i : Nat} : Keeps (Steady s) (recvAfter raw fd events s d i) := by
  refine keeps_bind (steady_of_quiet fun w => ?_) fun ok => ?_
  · simp [recvHandshake, ensures_ite, Quiet]
  exact keeps_ite (keeps_pure _) recvClose_steady

variable {w : Worker}

lemma recvPass_steady {io : RecvIO}
    (ho : 0 ≤ (w.conn s d).fd) : Ensures (recvPass io fd events s d) w (fun _ w' => Steady s w w')
      (fun _ w' => Steady s w w') := by
  simp only [recvPass, ensures_bind]
  refine (takeSlot_steady).mono ?_ (fun _ _ h => h.elim)
  rintro slot w1 ⟨hm, hh⟩
  cases slot with
  | none => exact (ensures_pure _).mpr hm
  | some i =>
    simp only [ensures_bind, ensures_conn]
    refine ((sslUse_quiet).after (a := w1) (by simp [Quiet])).mono ?_
      (fun _ _ h => Steady.trans hm h.steady)
    intro _ w2 hu
    have moved2 : Steady s w w2 := Steady.trans hm hu.steady
    split
    · exact (ensures_throw _).mpr moved2
    · next raw hhr =>
      simp only [ensures_ite, ensures_bind, ensures_modifyFlags, ensures_pure, ensures_modifySession]
      refine ⟨fun _ => Steady.trans moved2 (Quiet.steady (by simp [Quiet])), fun _ => ?_⟩
      have hs : Steady s w ((w2.emit (.field s)).mapSession s (·.storeBytes d i raw.bytes)) := by
        refine Steady.trans moved2 ⟨.single ?_, fun e => ?_⟩
        · have hr : raw.bytes.length ≤ slotSpace ((w2.sessions s).conns d).input i := by
            rw [hu.input d]
            exact (connRawRecv_bounds hhr).1
          have hp : i = 0 ∨ i + 1 = ((w2.sessions s).conns d).input.length := by
            rw [hu.input d]
            exact hh i rfl
          have opened2 : 0 ≤ ((w2.sessions s).conns d).fd := (moved2.2 d).symm ▸ ho
          simpa using Shift.store d i raw.bytes opened2 hp hr
        · rcases d.sides e with rfl | rfl <;> simp [storeBytes]
      refine ((recvAfter_steady).after hs).imp ?_
      intro ok w3 hd
      exact ⟨fun _ => hd, fun _ => hd⟩

lemma recvLoop_steady {io : RecvRun}
    (ho : 0 ≤ (w.conn s d).fd) : Ensures (recvLoop fd events s d io) w (fun _ w' => Steady s w w')
      (fun _ w' => Steady s w w') := by
  induction io generalizing w with
  | last io => exact recvPass_steady ho
  | pending io rest ih =>
    simp only [recvLoop, ensures_bind]
    refine (recvPass_steady ho).imp (fun n w1 hm => ?_)
    rw [ensures_ite, ensures_pure]
    refine ⟨fun _ => hm, fun _ => ?_⟩
    simp only [ensures_bind, ensures_conn]
    have hn : Steady s w (w1.emit (.field s)) :=
      Steady.trans hm (Quiet.steady (by simp [Quiet]))
    rw [ensures_ite, ensures_pure]
    refine ⟨fun _ => ?_, fun _ => hn⟩
    refine (ih (hn.2 d ▸ ho)).mono ?_ ?_ <;>
    · intro _ w2 h
      exact Steady.trans hn h

lemma connRecvData_flows {io : RecvRun} : Keeps (Flows s) (connRecvData io fd events s d) := by
  intro w
  have hn : Flows s w (w.emit (.field s)) := Quiet.flows (by simp [Quiet])
  simp only [connRecvData]
  rw [ensures_ite, ensures_pure]
  refine ⟨fun _ => flows_refl w, fun hv => ?_⟩
  simp only [ensures_bind, ensures_session, ensures_require]
  refine ⟨fun _ => ⟨fun own => ?_, fun _ => hn⟩, fun _ => hn⟩
  rw [ensures_ite]
  refine ⟨fun _ => ?_, fun _ => ?_⟩
  · refine (flows_of_quiet (keeps_bind (modifyFlags_quiet _) fun _ => ?_)).after hn
    exact errFree_quiet
  · simp only [ensures_bind]
    have ho : 0 ≤ ((w.emit (.field s)).conn s d).fd := by
      rw [not_or, Int.not_lt] at hv
      simpa [own] using hv.1
    refine (recvLoop_steady ho).mono (fun n w1 hm => ?_) (fun _ _ h => Flows.trans hn h.1)
    have moved1 := Flows.trans hn hm.1
    cases n with
    | none => exact (flows_of_quiet errFree_quiet).after moved1
    | some n =>
      simp only [ensures_bind, ensures_pure]
      exact (flows_of_quiet queueTask_quiet).after moved1

/-! ## Parsing, forwarding and sending -/

lemma sessionFparse_flows : Keeps (Flows s) (sessionFparse s d) := by
  intro w
  simp only [sessionFparse, ensures_bind, ensures_session, ensures_require,
    ensures_modifySession, ensures_pure]
  refine ⟨fun _ => .single ?_, fun _ => Quiet.flows (by simp [Quiet])⟩
  simpa using Shift.parse d

lemma connSendData_flows (ios : Nat → SendIO) : Keeps (Flows s) (connSendData ios fd events s d) := by
  intro w
  have hn : Flows s w (w.emit (.field s)) := Quiet.flows (by simp [Quiet])
  simp only [connSendData]
  rw [ensures_ite, ensures_pure]
  refine ⟨fun _ => flows_refl w, fun hv => ?_⟩
  simp only [ensures_bind, ensures_session, ensures_require]
  refine ⟨fun _ => ⟨fun _ => ⟨fun own => ?_, fun _ => hn⟩, fun _ => hn⟩, fun _ => hn⟩
  rw [ensures_ite, ensures_pure]
  refine ⟨fun _ => hn, fun _ => ?_⟩
  simp only [ensures_bind]
  refine ((keeps_onlyIf _ sslUse_quiet).after (a := w)
    (by simp [Quiet])).mono (fun _ w1 hu => ?_) (fun _ _ h => h.flows)
  simp only [ensures_modifySession]
  have sent : Flows s w ((w1.emit (.field s)).mapSession s (·.applySent d
      (sendPackets ((w.sessions s).conns d).ssl.isSome ios 0 ((w.sessions s).conns d).output))) := by
    refine Flows.trans hu.flows (.single ?_)
    have ho : 0 ≤ ((w1.sessions s).conns d).fd := by
      rw [hu.fd d, ← own]
      exact Int.not_lt.mp hv
    rw [← hu.output d]
    simpa using Shift.send d _ ios ho
  split
  · simp only [ensures_bind, ensures_modifyFlags]
    refine (flows_of_quiet sendErrFree_quiet).after (Flows.trans sent (Quiet.flows ?_))
    simp [Quiet]
  · exact (flows_of_quiet sendBlock_quiet).after sent
  · simp only [ensures_bind]
    refine ((flows_of_quiet sendUnblock_quiet).after sent).imp (fun ok w2 h => ?_)
    refine (flows_of_quiet (keeps_ite ?_ ?_)).after h
    · exact sendErrFree_quiet
    · exact sendShut_quiet

variable {io : ForwardIO}

lemma sessionGetServer_quiet : Keeps (Quiet s) (sessionGetServer io s d) := by
  refine keeps_bind session_quiet fun x => ?_
  refine keeps_bind (keeps_stopUnless _ _) fun _ => ?_
  refine keeps_bind (keeps_stopUnless _ _) fun _ => ?_
  refine keeps_ite (keeps_pure _) ?_
  cases io.server with
  | none => exact keeps_pure _
  | some usesSsl =>
    intro w
    simp [ensures_ite, Quiet]

/-- A connection without a socket, or with one that was never used. -/
def Idle (w : Worker) (s : Nat) (d : Dir) : Prop :=
  (w.conn s d).fd ≤ 0 ∨ (w.conn s d).sock = .fresh

lemma clientNb_flows (hi : Idle w s d) :
    Ensures (clientNb io s d) w (fun _ w' => Flows s w w') (fun _ w' => Flows s w w') := by
  unfold clientNb
  cases io.connect with
  | none =>
    simp only [ensures_bind, ensures_modifyConn, ensures_pure]
    exact .single (by simpa using Shift.dial d (-1) hi (by decide))
  | some r =>
    obtain ⟨fd, wait⟩ := r
    simp only [openFd, ensures_bind, ensures_takeFd, ensures_emit, ensures_modifyConn, ensures_pure]
    refine ⟨fun hf => .single ?_, fun _ => flows_refl w⟩
    simpa using Shift.dial d fd hi (by simpa using hf.2)

lemma plainSocket_flows (hi : Idle w s d) :
    Ensures (plainSocket io s d) w (fun _ w' => Flows s w w' ∧ Idle w' s d) (fun _ w' => Flows s w w') := by
  unfold plainSocket
  cases io.socket with
  | none =>
    simp only [ensures_bind, ensures_modifyConn, ensures_pure]
    exact ⟨.single (by simpa using Shift.dial d (-1) hi (by decide)), by simp [Idle]⟩
  | some fd =>
    simp only [openFd, ensures_bind, ensures_takeFd, ensures_emit, ensures_modifyConn, ensures_pure]
    refine ⟨fun hf => ⟨.single ?_, by simp [Idle]⟩, fun _ => flows_refl w⟩
    simpa using Shift.dial d fd hi (by simpa using hf.2)

lemma connectServer_flows {mode : PolicyMode} (hi : Idle w s d) :
    Ensures (connectServer io mode s d) w (fun _ w' => Flows s w w') (fun _ w' => Flows s w w') := by
  cases mode with
  | reverse => exact clientNb_flows hi
  | trapt =>
    simp only [connectServer, ensures_bind, ensures_pure]
    exact (plainSocket_flows hi).imp (fun _ _ h => h.1)
  | tproxy =>
    simp only [connectServer, ensures_bind]
    refine (plainSocket_flows hi).imp (fun ok w1 h => ?_)
    rw [ensures_ite, ensures_pure]
    refine ⟨fun _ => h.1, fun _ => ?_⟩
    exact (clientNb_flows h.2).mono (fun _ _ h' => Flows.trans h.1 h') (fun _ _ h' => Flows.trans h.1 h')

lemma watchServer_quiet {wait : Bool} : Keeps (Quiet s) (watchServer io wait s d) := by
  intro w
  simp only [watchServer, ensures_bind, ensures_conn]
  rw [ensures_ite]
  refine ⟨fun _ => by simp [Quiet], fun _ => ?_⟩
  cases hh : (w.conn s d).ssl with
  | none => simp [Quiet]
  | some ssl => simp [ensures_ite, Quiet]

lemma sessionForward_flows : Keeps (Flows s) (sessionForward io s d) := by
  intro w
  have hn : Flows s w (w.emit (.field s)) := Quiet.flows (by simp [Quiet])
  simp only [sessionForward, ensures_bind, ensures_session, ensures_require]
  refine ⟨fun _ => ?_, fun _ => hn⟩
  cases (w.sessions s).policy with
  | none => exact (ensures_throw _).mpr hn
  | some mode =>
    simp only [ensures_bind, ensures_modifySession]
    have hj : Flows s w (((w.emit (.field s)).emit (.field s)).mapSession s (·.joinOutput d)) :=
      .single (by simpa using Shift.forward d)
    rw [ensures_ite, ensures_pure]
    refine ⟨fun _ => hj, fun closed => ?_⟩
    simp only [ensures_bind]
    refine (sessionGetServer_quiet _).mono (fun ret w2 chosen => ?_) (fun _ _ h => Flows.trans hj h.flows)
    have moved2 : Flows s w w2 := Flows.trans hj chosen.flows
    have hi : Idle w2 s d := by
      refine .inl ?_
      rw [chosen.fd d]
      simpa [joinOutput] using closed
    rw [ensures_ite, ensures_pure]
    refine ⟨fun _ => moved2, fun _ => ?_⟩
    simp only [ensures_bind]
    refine (connectServer_flows hi).mono (fun wait w3 hd => ?_) (fun _ _ h => Flows.trans moved2 h)
    have moved3 := Flows.trans moved2 hd
    cases wait with
    | none => exact (ensures_pure _).mpr moved3
    | some wait =>
      have hc : ∀ i f, Flows s w (((w3.emit (.field s)).mapItem i f)) := fun i f =>
        Flows.trans moved3 (Quiet.flows (by simp [Quiet]))
      simp only [ensures_bind, ensures_conn, ensures_itemOf, ensures_writeItem, ensures_pure]
      refine ⟨fun _ _ => ⟨fun _ => ?_, fun _ => ?_⟩, fun _ => ?_⟩
      · exact (flows_of_quiet watchServer_quiet).after (hc _ _)
      · exact Flows.trans moved3 (Quiet.flows (by simp [Quiet]))
      · exact Flows.trans moved3 (Quiet.flows (by simp [Quiet]))

/-! ## Runs of one session -/

/-- The steps a session takes, in whatever order the worker takes them; between them
the remote ends send. -/
inductive SessionStep where
  | recv (d : Dir) (io : RecvRun) (fd : Int) (events : Mask)
  | fparse (d : Dir)
  | forward (d : Dir) (io : ForwardIO)
  | send (d : Dir) (ios : Nat → SendIO) (fd : Int) (events : Mask)
  | handshake (d : Dir) (io : HandshakeIO) (fd : Int) (events : Mask)
  | shutdown (d : Dir) (io : ShutdownIO) (fd : Int) (events : Mask)
  | deliver (d : Dir) (bytes : List UInt8) (fin : Bool)
  | free (d : Dir)

def sessionStep (s : Nat) : SessionStep → Run Unit
  | .recv d io fd events => do
    let _ ← connRecvData io fd events s d
  | .fparse d => do
    let _ ← sessionFparse s d
  | .forward d io => do
    let _ ← sessionForward io s d
  | .send d ios fd events => do
    let _ ← connSendData ios fd events s d
  | .handshake d io fd events => do
    let _ ← connHandshake io fd events s d
  | .shutdown d io fd events => do
    let _ ← connShutdown io fd events s d
  | .deliver d bytes fin => modify (·.mapConn s d (·.deliver bytes fin))
  | .free d => connFree s d

/-- A session as `_ltn_accept` leaves it: no packets, unused sockets. -/
structure Fresh (x : Session) : Prop where
  input : ∀ d, (x.conns d).input = []
  output : ∀ d, (x.conns d).output = []
  staged : ∀ d, x.staged d = []
  sock : ∀ d, (x.conns d).sock = .fresh
  fd : ∀ d, (x.conns d).fd ≠ 0
  nalloced : x.nalloced = 0

/-- The worker behind a successful accept on a reverse-proxy listener: session 0 with
descriptor 5. -/
def justAccepted : Worker :=
  match acceptSession ⟨some 5, false, some 0, true, true, true⟩ ⟨0, 4, 0, .reverse, false, []⟩ 0 5
      (Worker.start 16 1 fun _ => false) with
  | .ok _ w => w
  | .error _ w => w

lemma justAccepted_fresh : Fresh (justAccepted.sessions 0) where
  input d := by cases d <;> rfl
  output d := by cases d <;> rfl
  staged d := by cases d <;> rfl
  sock d := by cases d <;> rfl
  fd d := by cases d <;> decide
  nalloced := rfl

lemma moves_invariant {J : Session → Prop} (move : ∀ x y, Shift x y → J x → J y)
    (hm : Relation.ReflTransGen Shift x y) (h : J x) : J y := by
  induction hm with
  | refl => exact h
  | tail _ hl ih => exact move _ _ hl ih

/-- An invariant of the moves is an invariant of every step but the ones that free a
connection or stand for the network. -/
lemma sessionStep_keeps {J : Session → Prop} (hm : ∀ x y, Shift x y → J x → J y)
    (step : SessionStep) (free : ∀ d, step = .free d → ∀ w, J (w.sessions s) →
      Ensures (connFree s d) w (fun _ w' => J (w'.sessions s)) (fun _ w' => J (w'.sessions s)))
    (deliver : ∀ x d bytes fin, J x → J (x.setConn d ((x.conns d).deliver bytes fin)))
    (h : J (w.sessions s)) : Ensures (sessionStep s step) w (fun _ w' => J (w'.sessions s))
      (fun _ w' => J (w'.sessions s)) := by
  have hc : ∀ w', Flows s w w' → J (w'.sessions s) := fun w' hf =>
    moves_invariant hm hf h
  have hl : ∀ {prog : Run Int}, Keeps (Flows s) prog →
      Ensures (do let _ ← prog) w (fun _ w' => J (w'.sessions s)) (fun _ w' => J (w'.sessions s)) := by
    intro prog hk
    simp only [ensures_bind, ensures_pure]
    exact (hk w).mono (fun _ w' => hc w') (fun _ w' => hc w')
  cases step with
  | recv d io fd events => exact hl connRecvData_flows
  | fparse d => exact hl sessionFparse_flows
  | forward d io => exact hl sessionForward_flows
  | send d ios fd events => exact hl (connSendData_flows ios)
  | handshake d io fd events => exact hl (flows_of_quiet connHandshake_quiet)
  | shutdown d io fd events => exact hl (flows_of_quiet connShutdown_quiet)
  | deliver d bytes fin =>
    simp only [sessionStep, ensures_modify]
    simpa using deliver _ d bytes fin h
  | free d => exact free d rfl w h

end Fzsvn.Guarantees.Proxy.PacketFlow
