import Fzsvn.Guarantees.Proxy.PacketFlow

/-!
# The relayed byte stream

What one side sent is what the other side receives. In each direction the bytes
received are, in order, the bytes already accepted by the peer's socket followed by
the bytes still carried by the peer's output, the staging list and the own input.
`CBLIST_GET_TAIL` returns the first packet and not the last; the order survives
because a second packet is only appended behind a full one.
-/
namespace Fzsvn.Guarantees.Proxy.RelayStream
open Library.Exec Source.Proxy PacketFlow List Session Packet Connection

/-- What was received from `d` and is not yet accepted by its peer. -/
def inFlight (x : Session) (d : Dir) : List UInt8 :=
  carried (x.conns d.peer).output ++ (carried (x.staged d) ++ carried (x.conns d).input)

/-- One direction of the relay, with `d` as the source. -/
structure Relays (x : Session) (d : Dir) : Prop where
  stream : (x.conns d).sock.received = (x.conns d.peer).sock.accepted ++ inFlight x d
  headFull : ∀ p q rest, (x.conns d).input = p :: q :: rest → p.full = true
  unused : (x.conns d).fd < 0 → (x.conns d).sock.received = [] ∧ (x.conns d).sock.accepted = []
  fd_ne : (x.conns d).fd ≠ 0

/-! ## The packet lists -/

lemma fill_nil {p : Packet} : p.fill [] = p := by
  cases p
  simp [fill]

lemma slotSpace_full {p : Packet} {rest : List Packet} (hf : p.full = true) :
    slotSpace (p :: rest) 0 = 0 := by
  simp only [full, decide_eq_true_eq] at hf
  simp only [slotSpace, getElem?_cons_zero, space]
  omega

variable {input : List Packet} {bytes : List UInt8} {i : Nat}

lemma carried_store_last (hl : i + 1 = input.length) (hf : bytes.length ≤ slotSpace input i) :
    carried (input.modify i (·.fill bytes)) = carried input ++ bytes := by
  induction input generalizing i with
  | nil => cases hl
  | cons p rest ih =>
    cases i with
    | zero =>
      have hs : rest = [] := by simpa using hl
      subst hs
      simp only [slotSpace, getElem?_cons_zero] at hf
      simp [fill_unsent p bytes hf]
    | succ i =>
      have hf' : bytes.length ≤ slotSpace rest i := by simpa [slotSpace] using hf
      have ht := ih (i := i) (by simpa using hl) hf'
      simp [ht]

/-- Receiving appends to the stream, although it fills the first packet. -/
lemma carried_store (hh : ∀ p q rest, input = p :: q :: rest → p.full = true)
    (hs : i = 0 ∨ i + 1 = input.length) (hf : bytes.length ≤ slotSpace input i) :
    carried (input.modify i (·.fill bytes)) = carried input ++ bytes := by
  rcases hs with rfl | hl
  · match input with
    | [] =>
      have none : bytes = [] := by simpa [slotSpace] using hf
      simp [none]
    | [p] => exact carried_store_last rfl hf
    | p :: q :: rest =>
      have none : bytes = [] := by
        rw [slotSpace_full (hh p q rest rfl)] at hf
        simpa using hf
      simp [none, fill_nil]
  · exact carried_store_last hl hf

lemma carried_free (hn : (input[i]?).map len = some 0) :
    carried (input.eraseIdx i) = carried input := by
  induction input generalizing i with
  | nil => rfl
  | cons p rest ih =>
    cases i with
    | zero =>
      have nothing : p.unsent = [] := by
        have len : p.len = 0 := by simpa using hn
        have hs := p.unsent_length
        exact eq_nil_of_length_eq_zero (by omega)
      simp [nothing]
    | succ i => simp [ih (i := i) (by simpa using hn)]

/-- A send takes its bytes off the front of what the list carries. -/
lemma carried_sendPackets (usesSsl : Bool) (ios : Nat → SendIO) (i : Nat) (packets : List Packet) :
    carried packets = (sendPackets usesSsl ios i packets).bytes ++
      carried (sendPackets usesSsl ios i packets).rest := by
  induction packets generalizing i with
  | nil => rfl
  | cons p rest ih =>
    unfold sendPackets
    dsimp only
    split
    · simp
    · next hpos =>
      split
      · next hshort =>
        simp only [carried_cons, advance_unsent, ← append_assoc, take_append_drop]
      · next hall =>
        have hw : p.unsent.take
            (connRawSend usesSsl (p.len - p.sendpos) (ios i)).toNat = p.unsent := by
          apply take_of_length_le
          rw [p.unsent_length]
          omega
        simp only [hw, carried_cons, append_assoc]
        rw [ih (i + 1)]

/-! ## The moves keep the stream -/

variable {x : Session} {d : Dir}

/-- The connection `e` is not written. -/
lemma Relays.other {y : Session} {e : Dir} (h : Relays x e) (he : y.conns e = x.conns e)
    (hs : (y.conns e).sock.received = (y.conns e.peer).sock.accepted ++ inFlight y e) : Relays y e := by
  refine ⟨hs, ?_, ?_, ?_⟩
  all_goals rw [he]
  · exact h.headFull
  · exact h.unused
  · exact h.fd_ne

/-- Its descriptor is not written, nor its socket unless it is open. -/
lemma Relays.written {y : Session} {e : Dir} (h : Relays x e) (fd : (y.conns e).fd = (x.conns e).fd)
    (sock : (y.conns e).sock = (x.conns e).sock ∨ 0 ≤ (x.conns e).fd)
    (hs : (y.conns e).sock.received = (y.conns e.peer).sock.accepted ++ inFlight y e)
    (hh : ∀ p q rest, (y.conns e).input = p :: q :: rest → p.full = true) : Relays y e := by
  refine ⟨hs, hh, fun hc => ?_, fd ▸ h.fd_ne⟩
  rw [fd] at hc
  rcases sock with he | ho
  · rw [he]
    exact h.unused hc
  · omega

lemma relays_same {y : Session} (h : ∀ d, Relays x d) (he : SameData x y) (e : Dir) : Relays y e where
  stream := by
    simp only [inFlight, he.input, he.output, he.sock, he.staged]
    exact (h e).stream
  headFull := by
    rw [he.input]
    exact (h e).headFull
  unused := by
    rw [he.fd, he.sock]
    exact (h e).unused
  fd_ne := by
    rw [he.fd]
    exact (h e).fd_ne

lemma relays_alloc (h : ∀ d, Relays x d) (hn : recvSlot (x.conns d).input = none) (e : Dir) :
    Relays (x.allocPacket d) e := by
  have hs := (h e).stream
  rcases d.sides e with rfl | rfl
  · refine (h e).written (by simp [allocPacket]) (.inl (by simp [allocPacket])) ?_ ?_
    · simpa [inFlight, allocPacket] using hs
    · intro p q rest shape
      simp only [allocPacket, setAlloced_conns, setConn_conns,
        Function.update_self] at shape
      cases input : (x.conns e).input with
      | nil => simp [input] at shape
      | cons p' rest' =>
        rw [input] at hn shape
        obtain ⟨rfl, -⟩ := List.cons.inj shape
        by_contra notFull
        simp [recvSlot, notFull] at hn
  · exact (h _).other (by simp [allocPacket])
      (by simpa [inFlight, allocPacket] using hs)

lemma headFull_modify (hh : ∀ p q rest, input = p :: q :: rest → p.full = true)
    (slot : i = 0 ∨ i + 1 = input.length) (hf : bytes.length ≤ slotSpace input i) (p q : Packet)
    {rest : List Packet} (hs : input.modify i (·.fill bytes) = p :: q :: rest) : p.full = true := by
  match input with
  | [] => simp at hs
  | [p'] =>
    cases i with
    | zero => simp at hs
    | succ i => simp at hs
  | p' :: q' :: rest' =>
    have full := hh p' q' rest' rfl
    cases i with
    | zero =>
      have none : bytes = [] := by
        rw [slotSpace_full full] at hf
        simpa using hf
      simp only [none, fill_nil, modify_zero_cons, List.cons.injEq] at hs
      exact hs.1 ▸ full
    | succ i =>
      simp only [modify_succ_cons, List.cons.injEq] at hs
      exact hs.1 ▸ full

section

variable (h : ∀ d, Relays x d)
include h

lemma relays_store (ho : 0 ≤ (x.conns d).fd) (slot : i = 0 ∨ i + 1 = (x.conns d).input.length)
    (hf : bytes.length ≤ slotSpace (x.conns d).input i) (e : Dir) : Relays (x.storeBytes d i bytes) e := by
  have hs := (h e).stream
  rcases d.sides e with rfl | rfl
  · refine (h e).written (by simp [storeBytes]) (.inr ho) ?_ ?_
    · simp [inFlight, storeBytes, hs, carried_store (h e).headFull slot hf]
    · simpa [storeBytes] using headFull_modify (h e).headFull slot hf
  · exact (h _).other (by simp [storeBytes])
      (by simpa [inFlight, storeBytes] using hs)

lemma relays_free (hn : ((x.conns d).input[i]?).map len = some 0) (e : Dir)
    : Relays (x.freePacket d i) e := by
  have hs := (h e).stream
  rcases d.sides e with rfl | rfl
  · refine (h e).written (by simp [freePacket]) (.inl (by simp [freePacket])) ?_ ?_
    · simpa [inFlight, freePacket, carried_free hn] using hs
    · intro p q rest shape
      simp only [freePacket, setAlloced_conns, setConn_conns,
        Function.update_self] at shape
      rcases input : (x.conns e).input with _ | ⟨p', _ | ⟨q', rest'⟩⟩
      · simp [input] at shape
      · cases i <;> simp [input] at shape
      · have hf := (h e).headFull p' q' rest' input
        cases i with
        | zero =>
          simp [input] at hn
          simp [full, hn, maxPktLen, maxPktSize, sizeofPacket] at hf
        | succ i =>
          rw [input] at shape
          simp only [eraseIdx_cons_succ, List.cons.injEq] at shape
          exact shape.1 ▸ hf
  · exact (h _).other (by simp [freePacket])
      (by simpa [inFlight, freePacket] using hs)

lemma relays_parse (e : Dir) : Relays (x.joinInput d) e := by
  have hs := (h e).stream
  rcases d.sides e with rfl | rfl
  · exact (h e).written (by simp [joinInput]) (.inl (by simp [joinInput]))
      (by simpa [inFlight, joinInput] using hs) (by simp [joinInput])
  · exact (h _).other (by simp [joinInput])
      (by simpa [inFlight, joinInput] using hs)

lemma relays_forward (e : Dir) : Relays (x.joinOutput d) e := by
  have hs := (h e).stream
  rcases d.sides e with rfl | rfl
  · exact (h e).written (by simp [joinOutput]) (.inl (by simp [joinOutput]))
      (by simpa [inFlight, joinOutput] using hs)
      (by simpa [joinOutput] using (h e).headFull)
  · exact (h _).other (by simp [joinOutput])
      (by simpa [inFlight, joinOutput] using hs)

lemma relays_send (usesSsl : Bool) (ios : Nat → SendIO) (ho : 0 ≤ (x.conns d).fd) (e : Dir) :
    Relays (x.applySent d (sendPackets usesSsl ios 0 (x.conns d).output)) e := by
  have hs := (h e).stream
  rcases d.sides e with rfl | rfl
  · exact (h e).written (by simp [applySent]) (.inr ho)
      (by simpa [inFlight, applySent] using hs)
      (by simpa [applySent] using (h e).headFull)
  · refine (h _).other (by simp [applySent]) ?_
    simp only [inFlight, Dir.peer_peer] at hs
    rw [carried_sendPackets usesSsl ios 0 (x.conns d).output] at hs
    simpa [inFlight, applySent] using hs

/-- A new socket replaces none, or one that was never used. -/
lemma relays_dial {fd : Int} (hi : (x.conns d).fd ≤ 0 ∨ (x.conns d).sock = .fresh)
    (fd_ne' : fd ≠ 0) (e : Dir) : Relays (x.setConn d { x.conns d with fd := fd, sock := .fresh }) e := by
  have hb : (x.conns d).sock.received = [] ∧ (x.conns d).sock.accepted = [] := by
    rcases hi with hc | hf
    · have ne := (h d).fd_ne
      exact (h d).unused (by omega)
    · simp [hf, Socket.fresh]
  have hs := (h e).stream
  rcases d.sides e with rfl | rfl
  · refine ⟨?_, ?_, ?_, ?_⟩
    · simpa [inFlight, Socket.fresh, hb.1] using hs
    · simpa using (h e).headFull
    · simp [Socket.fresh]
    · simpa using fd_ne'
  · exact (h _).other (by simp) (by simpa [inFlight, Socket.fresh, hb.2] using hs)

end

lemma relays_shift (x y : Session) (hm : Shift x y) (h : ∀ d, Relays x d) : ∀ d, Relays y d := by
  cases hm with
  | same same => exact relays_same h same
  | alloc d hn => exact relays_alloc h hn
  | store d i bytes ho hs hf => exact relays_store h ho hs hf
  | free d i he => exact relays_free h he
  | parse d => exact relays_parse h
  | forward d => exact relays_forward h
  | send d usesSsl ios ho => exact relays_send h usesSsl ios ho
  | dial d fd hi fd_ne => exact relays_dial h hi fd_ne

/-- What the network does changes neither side of the equation. -/
lemma relays_deliver (bytes : List UInt8) (fin : Bool) (h : ∀ d, Relays x d) (e : Dir) :
    Relays (x.setConn d ((x.conns d).deliver bytes fin)) e := by
  have hs := (h e).stream
  rcases d.sides e with rfl | rfl
  · refine ⟨?_, ?_, ?_, ?_⟩
    · simpa [inFlight, deliver] using hs
    · simpa [deliver] using (h e).headFull
    · simpa [deliver] using (h e).unused
    · simpa [deliver] using (h e).fd_ne
  · exact (h _).other (by simp) (by simpa [inFlight, deliver] using hs)

/-! ## Runs -/

lemma relays_fresh {x : Session} (hf : Fresh x) (d : Dir) : Relays x d where
  stream := by simp [inFlight, hf.input, hf.output, hf.staged, hf.sock, Socket.fresh]
  headFull := by simp [hf.input]
  unused := by simp [hf.sock, Socket.fresh]
  fd_ne := hf.fd d

lemma relays_run (s : Nat) (steps : List SessionStep) (w : Worker)
    (hn : ∀ d, .free d ∉ steps) (hs : ∀ d, Relays (w.sessions s) d) :
    Ensures (runAll (sessionStep s) steps) w (fun _ w' => ∀ d, Relays (w'.sessions s) d)
      (fun _ w' => ∀ d, Relays (w'.sessions s) d) := by
  have ha : Along (sessionStep s) (fun _ step => ∀ d, step ≠ .free d) steps w :=
    along_of_forall w fun step hm _ d h => hn d (h ▸ hm)
  refine runAll_ensures (fun step w' h notFree => ?_) hs ha
  exact sessionStep_keeps relays_shift step (fun d h => absurd h (notFree d))
    (fun x d bytes fin => relays_deliver bytes fin) h

/-- In both directions, after any run of receive, parse, forward and send steps with
any answers of the system calls, the bytes the peer's socket accepted are a prefix of
the bytes received. -/
theorem accepted_prefix_of_received (s : Nat) (steps : List SessionStep) (w : Worker)
    (fresh : Fresh (w.sessions s)) (noFree : ∀ d, .free d ∉ steps) : Ensures (runAll (sessionStep s) steps) w
      (fun _ w' => ∀ d, (w'.conn s d.peer).sock.accepted <+: (w'.conn s d).sock.received)
      (fun _ w' => ∀ d, (w'.conn s d.peer).sock.accepted <+: (w'.conn s d).sock.received) := by
  have hd : ∀ w' : Worker, (∀ d, Relays (w'.sessions s) d) →
      ∀ d, (w'.conn s d.peer).sock.accepted <+: (w'.conn s d).sock.received := by
    intro w' h d
    rw [(h d).stream]
    exact prefix_append _ _
  exact (relays_run s steps w noFree (relays_fresh fresh)).mono (fun _ => hd)
    (fun _ => hd)

/-- A request of two bytes, forwarded and sent in two parts. -/
def twoPartRelay : List SessionStep :=
  [.deliver .client [7, 9] false,
    .recv .client (.last ⟨true, .data 2, ⟨.zero, false, false⟩⟩) 5 epollIn,
    .fparse .client,
    .forward .server ⟨true, some false, true, some 6, some (6, false), true⟩,
    .send .server (fun _ => ⟨.sent 1, ⟨false, .sent 1⟩⟩) 6 0#32,
    .send .server (fun _ => ⟨.sent 1, ⟨false, .sent 1⟩⟩) 6 0#32]

theorem accepted_prefix_twoPartRelay :
    ((final (runAll (sessionStep 0) twoPartRelay) justAccepted).conn 0 .server).sock.accepted =
      [7, 9] ∧ Ensures (runAll (sessionStep 0) twoPartRelay) justAccepted
      (fun _ w' => ∀ d, (w'.conn 0 d.peer).sock.accepted <+: (w'.conn 0 d).sock.received)
      (fun _ w' => ∀ d, (w'.conn 0 d.peer).sock.accepted <+: (w'.conn 0 d).sock.received) :=
  ⟨by decide +kernel, accepted_prefix_of_received 0 twoPartRelay justAccepted justAccepted_fresh
    (by simp [twoPartRelay])⟩

end Fzsvn.Guarantees.Proxy.RelayStream
