import Fzsvn.Guarantees.Proxy.PacketFlow

/-!
# `nalloced` counts the packets of a session

Every packet a session has taken from the pool is in exactly one of its six lists,
so that a session whose connections were freed returns to its pool without one. The counter
is an `int`: it is the number of packets as long as that is less than 2^31.
-/
namespace Fzsvn.Guarantees.Proxy.PacketAccounting
open Library.Exec Library.MachineInt Source.Proxy PacketFlow Session

/-- The packets in the six lists. -/
def held (x : Session) : Nat :=
  (x.conns .client).input.length + (x.conns .client).output.length +
    (x.conns .server).input.length + (x.conns .server).output.length +
    x.request.length + x.response.length

/-- The counter has wrapped around as often as the number of packets asks for. -/
def Accounted (x : Session) : Prop := x.nalloced = toInt (held x)

/-- What the counter is for. -/
def Counted (x : Session) : Prop := held x < 2 ^ 31 → x.nalloced = held x

lemma Accounted.counted {x : Session} (h : Accounted x) : Counted x := by
  intro few
  rw [h, toInt_small (by omega) (by omega)]

lemma toInt_moved {n k m : Int} (h : n + k = m) : toInt (toInt n + k) = toInt m := by
  rw [← h]
  exact Int.bmod_add_bmod

lemma toInt_taken {n k m : Int} (h : n - k = m) : toInt (toInt n - k) = toInt m := by
  rw [Int.sub_eq_add_neg]
  exact toInt_moved (by omega)

/-- The same count, seen from one side. -/
lemma held_eq (x : Session) (d : Dir) :
    held x = (x.conns d).input.length + (x.conns d).output.length + (x.staged d).length +
      ((x.conns d.peer).input.length + (x.conns d.peer).output.length + (x.staged d.peer).length) := by
  cases d <;> simp only [held, Dir.peer, staged] <;> omega

lemma sendPackets_freed (usesSsl : Bool) (ios : Nat → SendIO) (i : Nat) (packets : List Packet) :
    packets.length = (sendPackets usesSsl ios i packets).rest.length +
      (sendPackets usesSsl ios i packets).freed := by
  induction packets generalizing i with
  | nil => rfl
  | cons p rest ih =>
    unfold sendPackets
    dsimp only
    split
    · rfl
    · split
      · rfl
      · have := ih (i + 1)
        simp only [List.length_cons]
        omega

/-- Every move keeps the count. -/
lemma accounted_shift (x y : Session) (hm : Shift x y) (h : Accounted x) : Accounted y := by
  unfold Accounted at h ⊢
  cases hm with
  | same same =>
    rw [same.nalloced, h, held_eq x .client, held_eq y .client]
    simp only [same.input, same.output, same.staged]
  | alloc d noSlot =>
    rw [held_eq _ d] at h ⊢
    simp only [allocPacket, setAlloced_nalloced, h]
    exact toInt_moved (by simp; omega)
  | store d i bytes ho hs fits =>
    rw [held_eq _ d] at h ⊢
    simpa [storeBytes] using h
  | free d i hn =>
    have hi : i < (x.conns d).input.length := by
      by_contra out
      rw [List.getElem?_eq_none (Nat.not_lt.mp out)] at hn
      cases hn
    rw [held_eq _ d] at h ⊢
    simp only [freePacket, setAlloced_nalloced, h]
    exact toInt_taken (by simp [List.length_eraseIdx_of_lt hi]; omega)
  | parse d =>
    rw [held_eq _ d] at h ⊢
    simp [joinInput, h]
    congr 1
    omega
  | forward d =>
    rw [held_eq _ d] at h ⊢
    simp [joinOutput, h]
    congr 1
    omega
  | send d usesSsl ios ho =>
    have hf := sendPackets_freed usesSsl ios 0 (x.conns d).output
    rw [held_eq _ d] at h ⊢
    simp only [applySent, setAlloced_nalloced, h]
    exact toInt_taken (by simp; omega)
  | dial d fd idle fd_ne =>
    rw [held_eq _ d] at h ⊢
    simpa using h

@[simp] lemma accounted_setConn {x : Session} {d : Dir} {c : Connection}
    (hi : c.input = (x.conns d).input) (ho : c.output = (x.conns d).output) :
    Accounted (x.setConn d c) ↔ Accounted x := by
  unfold Accounted
  rw [held_eq _ d, held_eq x d]
  simp [hi, ho]

/-- `conn_free` takes the connection's packets off the count. -/
lemma connFree_accounted {s : Nat} (d : Dir) {w : Worker} (h : Accounted (w.sessions s)) :
    Ensures (connFree s d) w (fun _ w' => Accounted (w'.sessions s))
      (fun _ w' => Accounted (w'.sessions s)) := by
  have hd : Accounted (dropPackets (w.sessions s) d) := by
    unfold Accounted at h ⊢
    rw [held_eq _ d] at h ⊢
    simp only [dropPackets, setAlloced_nalloced, h, Int.sub_sub]
    exact toInt_taken (by simp; omega)
  simp [connFree, closeFd, dropFd, setKind, h, hd]

/-- Its lists are empty afterwards and no other list has changed; it stops only at its
own assertions. -/
lemma connFree_lists {s : Nat} {d : Dir} {w : Worker} : Ensures (connFree s d) w
      (fun _ w' => (w'.conn s d).input = [] ∧ (w'.conn s d).output = [] ∧
        (w'.conn s d.peer).input = (w.conn s d.peer).input ∧
        (w'.conn s d.peer).output = (w.conn s d.peer).output ∧
        (w'.sessions s).staged = (w.sessions s).staged)
      (fun halt _ => halt ≠ .leaked) := by
  simp [connFree, closeFd, dropFd, setKind, dropPackets]

/-- Only the lists of the peer may still hold packets. -/
structure Half (x : Session) (d : Dir) : Prop where
  accounted : Accounted x
  input : (x.conns d).input = []
  output : (x.conns d).output = []
  staged : ∀ e, x.staged e = []

lemma connFree_half {s : Nat} {w : Worker} (d : Dir) (h : Accounted (w.sessions s))
    (hs : ∀ e, (w.sessions s).staged e = []) :
    Ensures (connFree s d) w (fun _ w' => Half (w'.sessions s) d) (fun halt _ => halt ≠ .leaked) := by
  refine ((connFree_accounted d h).and connFree_lists).mono ?_ (fun _ _ h => h.2)
  rintro _ w' ⟨h', hi, ho, -, -, he⟩
  exact ⟨h', hi, ho, fun e => by rw [he, hs e]⟩

lemma connFree_rest {s : Nat} {w : Worker} {d : Dir} (h : Half (w.sessions s) d) :
    Ensures (connFree s d.peer) w (fun _ w' => (w'.sessions s).nalloced = 0)
      (fun halt _ => halt ≠ .leaked) := by
  refine ((connFree_accounted d.peer h.accounted).and connFree_lists).mono ?_ (fun _ _ h => h.2)
  rintro _ w' ⟨h', hi, ho, hk, keptOut, he⟩
  rw [Dir.peer_peer] at hk keptOut
  rw [show (w'.sessions s).nalloced = toInt (held (w'.sessions s)) from h', held_eq _ d, hk, keptOut,
    h.input, h.output, hi, ho, he, h.staged, h.staged]
  rfl

/-- Once the connections of a session with nothing staged are freed, nothing is held,
and the assertion of `session_free` on `nalloced` passes. -/
lemma sessionFree_not_leaked {s : Nat} {w : Worker} {d : Dir} (h : Accounted (w.sessions s))
    (hs : ∀ e, (w.sessions s).staged e = []) :
    Ensures (sessionFree s d) w (fun _ _ => True) (fun halt _ => halt ≠ .leaked) := by
  simp only [sessionFree, ensures_bind, ensures_emit, ensures_session, ensures_require]
  refine ⟨fun _ => ⟨fun _ => ?_, fun _ => by decide⟩, fun _ => by decide⟩
  refine (connFree_half d (by simpa using h) (by simpa using hs)).imp ?_
  intro _ w1 hh
  simp only [ensures_conn]
  rw [ensures_ite]
  refine ⟨fun _ => by simp, fun _ => ?_⟩
  simp only [ensures_bind]
  refine (connFree_rest (by simpa using hh)).imp ?_
  intro _ w2 none
  simp [none, putSession]

lemma run_accounted (s : Nat) (steps : List SessionStep) {w : Worker} (fresh : Fresh (w.sessions s)) :
    Ensures (runAll (sessionStep s) steps) w (fun _ w' => Accounted (w'.sessions s))
      (fun _ w' => Accounted (w'.sessions s)) := by
  have start : Accounted (w.sessions s) := by
    unfold Accounted
    rw [held_eq _ .client, fresh.nalloced]
    simp only [fresh.input, fresh.output, fresh.staged]
    rfl
  refine runAll_invariant (fun step w' h => ?_) steps start
  refine sessionStep_keeps accounted_shift step (fun d _ w h => connFree_accounted d h)
    (fun x d bytes fin h => ?_) h
  simpa [Connection.deliver] using h

/-- Along every run of a session, with any outcome of the receive, send, allocation and
connect calls, `nalloced` is the number of packets in the six lists, if these are fewer than
2^31. And when its connections are freed while nothing is staged, `nalloced` becomes 0. -/
theorem nalloced_counts_packets (s : Nat) (steps : List SessionStep) (w : Worker)
    (fresh : Fresh (w.sessions s)) : Ensures (runAll (sessionStep s) steps) w
      (fun _ w' => Counted (w'.sessions s) ∧
        ((w'.sessions s).request = [] → (w'.sessions s).response = [] → ∀ d,
          Ensures (do connFree s d; connFree s d.peer) w'
            (fun _ w'' => (w''.sessions s).nalloced = 0) (fun halt _ => halt ≠ .leaked) ∧
          Ensures (sessionFree s d) w' (fun _ _ => True) (fun halt _ => halt ≠ .leaked)))
      (fun _ w' => Counted (w'.sessions s)) := by
  refine (run_accounted s steps fresh).mono (fun _ w' h => ⟨h.counted, fun hr response d => ?_⟩) fun _ _ h => h.counted
  have hs : ∀ e, (w'.sessions s).staged e = [] := by
    intro e
    cases e with
    | client => exact hr
    | server => exact response
  refine ⟨?_, sessionFree_not_leaked h hs⟩
  simp only [ensures_bind]
  exact (connFree_half d h hs).imp (fun _ _ hh => connFree_rest hh)

/-- A failing send between two releases. -/
def releasedTwice : List SessionStep :=
  [.deliver .client [7, 9] false, .recv .client (.last ⟨true, .data 2, ⟨.zero, false, false⟩⟩) 5 epollIn,
    .fparse .client,
    .forward .server ⟨true, some false, true, some 6, some (6, false), true⟩,
    .free .client,
    .send .server (fun _ => ⟨.err .other, ⟨false, .sent 1⟩⟩) 6 0#32,
    .free .server]

theorem nalloced_counts_releasedTwice :
    ((final (runAll (sessionStep 0) releasedTwice) justAccepted).sessions 0).nalloced = 0 ∧
    Ensures (runAll (sessionStep 0) releasedTwice) justAccepted (fun _ w' => Counted (w'.sessions 0) ∧
        ((w'.sessions 0).request = [] → (w'.sessions 0).response = [] → ∀ d,
          Ensures (do connFree 0 d; connFree 0 d.peer) w'
            (fun _ w'' => (w''.sessions 0).nalloced = 0) (fun halt _ => halt ≠ .leaked) ∧
          Ensures (sessionFree 0 d) w' (fun _ _ => True) (fun halt _ => halt ≠ .leaked)))
      (fun _ w' => Counted (w'.sessions 0)) :=
  ⟨by decide +kernel, nalloced_counts_packets 0 releasedTwice justAccepted justAccepted_fresh⟩

/-- Receives for which nothing is there, each with the parse that moves its packet on. -/
def emptyRounds : Nat → List SessionStep
  | 0 => []
  | k + 1 => .recv .client (.last ⟨true, .err .eagain, ⟨.zero, false, false⟩⟩) 5 epollIn :: .fparse .client ::
      emptyRounds k

/-- The client's connection can receive into a new packet. -/
structure Waiting (x : Session) : Prop where
  worker : x.worker = true
  fd : (x.conns .client).fd = 5
  ssl : (x.conns .client).ssl = none
  input : (x.conns .client).input = []

/-- The packet that is taken for a receive stays in the list, though nothing was received. -/
lemma recv_empty {w : Worker} (waiting : Waiting (w.sessions 0)) :
    Ensures (connRecvData (.last ⟨true, .err .eagain, ⟨.zero, false, false⟩⟩) 5 epollIn 0 .client) w
      (fun _ w' => (w'.sessions 0).worker = true ∧ (w'.conn 0 .client).fd = 5 ∧ (w'.conn 0 .client).ssl = none ∧
        (w'.conn 0 .client).input = [.init] ∧ (w'.sessions 0).request = (w.sessions 0).request)
      (fun _ _ => False) := by
  have called : ¬ ((5 : Int) < 0 ∨ epollIn = 0#32) := by decide
  have error : Mask.has epollIn epollErr = false := by decide
  have hangup : Mask.has epollIn epollRdHup = false := by decide
  have slot : recvSlot [] = none := rfl
  have raw : ∀ sock, connRawRecv false sock Packet.init.space
      ⟨true, .err .eagain, ⟨.zero, false, false⟩⟩ = some (.got []) := by
    intro sock
    rw [connRawRecv, if_neg (by decide)]
    rfl
  have filled : Packet.init.fill [] = .init := rfl
  rw [connRecvData, if_neg called]
  simp [waiting.worker, waiting.fd, waiting.input, waiting.ssl, error, hangup, slot, raw, filled, recvLoop, recvPass,
    takeSlot, allocPacket, sslUse, slotSpace, RawRecv.got, recvAfter, recvHandshake, recvClose, storeBytes,
    queueTask, taskAddQueue, setKind, setLinked, ensures_ite]

lemma emptyRounds_grow (k : Nat) {w : Worker} (waiting : Waiting (w.sessions 0)) :
    Ensures (runAll (sessionStep 0) (emptyRounds k)) w
      (fun _ w' => (w'.sessions 0).request.length = (w.sessions 0).request.length + k) (fun _ _ => False) := by
  induction k generalizing w with
  | zero => simp [emptyRounds, runAll]
  | succ k ih =>
    simp only [emptyRounds, runAll, sessionStep, ensures_bind, ensures_pure]
    refine (recv_empty waiting).imp ?_
    rintro _ w1 ⟨worker, fd, ssl, input, request⟩
    simp only [sessionFparse, ensures_bind, ensures_session, ensures_require, ensures_modifySession, ensures_pure]
    refine ⟨fun _ => ?_, fun stopped => stopped (by simpa using worker)⟩
    refine (ih ⟨?_, ?_, ?_, ?_⟩).imp fun _ w' grown => ?_
    · simpa [joinInput] using worker
    · simpa [joinInput] using fd
    · simpa [joinInput] using ssl
    · simp [joinInput]
    · rw [grown]
      simp [joinInput, input, request, setStaged, staged]
      omega

/-- After 2^31 packets the counter is negative. -/
theorem nalloced_wraps : ∃ steps, Ensures (runAll (sessionStep 0) steps) justAccepted
    (fun _ w' => (w'.sessions 0).nalloced ≠ held (w'.sessions 0)) (fun _ _ => False) := by
  have waiting : Waiting (justAccepted.sessions 0) := ⟨rfl, rfl, rfl, rfl⟩
  refine ⟨emptyRounds (2 ^ 31), ?_⟩
  refine ((run_accounted 0 _ justAccepted_fresh).and (emptyRounds_grow (2 ^ 31) waiting)).mono ?_ fun _ _ h => h.2
  rintro _ w' ⟨accounted, grown⟩ heq
  have hlt := Int.bmod_lt (x := held (w'.sessions 0)) (m := 2 ^ 32) (by decide)
  have hheld : 2 ^ 31 ≤ held (w'.sessions 0) := by
    unfold held
    omega
  rw [accounted, toInt] at heq
  omega

end Fzsvn.Guarantees.Proxy.PacketAccounting
