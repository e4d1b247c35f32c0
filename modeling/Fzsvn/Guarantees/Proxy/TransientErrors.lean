import Fzsvn.Guarantees.Proxy.ViewRule

/-!
# Calls that would block

`EAGAIN`, `EINTR`, `WANT_READ` and `WANT_WRITE` ask for another try. `sk_send` takes each
errno for a failure, since its test is a disjunction of two inequalities, and `ssl_recv`
returns a negative value. `sk_recv` returns 0 without a word, and the empty packet it leaves
is refused by `conn_raw_send`. So each of these ends the session (`transient_kills`). Only
`SSL_write` may report that it would block: where every other call transfers something, no
delete task is queued and `session_free` is not called (`session_survives`).
-/
namespace Fzsvn.Guarantees.Proxy.TransientErrors
open Library.Exec Source.Proxy Locality Lifecycle SendStep SessionView CallbackViews TaskViews List
open ViewRule Session Packet Option
open View (dial getServer joined recvData redial runTask send sendData sendLooped shutdown taken useSsl waitFor)

/-- A delete task is queued, or `session_free` is entered. -/
def Kills : Event → Prop
  | .queued _ _ .delete | .released _ => True
  | _ => False

instance : DecidablePred Kills := fun e => by
  unfold Kills
  split <;> infer_instance

/-! ## Calls that transfer something -/

/-- How much the next receive asks for. -/
def slotLeft (input : List Packet) : Nat :=
  match recvSlot input with
  | some i => slotSpace input i
  | none => maxPktLen

/-- `recv` returns at least one byte, and no more than it is asked for and there is;
`SSL_read` returns at least one byte. -/
def gets (c : Connection) (io : RecvIO) : Bool :=
  io.alloc &&
    if c.ssl.isSome then
      !io.ssl.inHandshake &&
        match io.ssl.ret with
        | .data _ _ => true
        | _ => false
    else
      match io.sys with
      | .data n => 1 ≤ n && n ≤ slotLeft c.input && n ≤ c.sock.rx.length
      | _ => false

def feeds (c : Connection) : RecvRun → Bool
  | .last io => gets c io
  | .pending io rest => gets c io && (!c.ssl.isSome || feeds c rest)

/-- `send` takes at least one byte; `SSL_write` does so or would block. -/
def takes (usesSsl : Bool) (io : SendIO) : Bool :=
  if usesSsl then
    !io.ssl.refused &&
      match io.ssl.ret with
      | .sent n => n ≠ 0
      | .err error => error ≠ .other
  else
    match io.sys with
    | .sent n => n ≠ 0
    | .err _ => false

/-- No event reports an error or a hang-up, no policy is deleted, and no call fails; all but
`SSL_write` transfer something. -/
def progress : Limits where
  call v d cb io events :=
    events.has epollErr = false ∧ events.has epollRdHup = false ∧
    (cb = .connRecvData → feeds (v.conn d) io.recv = true) ∧
    (cb = .connSendData → ∀ i < (v.conn d).output.length, takes (v.conn d).ssl.isSome (io.send i) = true) ∧
    (cb = .connHandshake → ((v.conn d).flags.hsk = true → io.handshake.connected = true) ∧
      ((v.conn d).ssl.isSome = true → io.handshake.ssl.isSome = true))
  task v d io :=
    ((v.conn d).task.kind = .send → ∀ i < (v.conn d).output.length,
      takes (v.conn d).ssl.isSome (io.send i) = true) ∧
    ((v.conn d).task.kind = .parse →
      ((v.conn d.peer).fd > 0 ∨ ∃ mode ∈ v.session.policy, dials io.forward mode = true) ∧
      ∀ i < (View.pending v d).length, takes (v.conn d.peer).ssl.isSome (io.send i) = true)
  free _ := False

instance (v : View) (d : Dir) (cb : Callback) (io : CallbackIO) (events : Mask) :
    Decidable (progress.call v d cb io events) :=
  inferInstanceAs (Decidable (_ ∧ _ ∧ (_ → _) ∧ (_ → ∀ i < (v.conn d).output.length, _) ∧
    (_ → (_ → _) ∧ (_ → _))))

instance (v : View) (d : Dir) (io : TaskIO) : Decidable (progress.task v d io) :=
  inferInstanceAs (Decidable ((_ → ∀ i < (v.conn d).output.length, _) ∧
    (_ → (_ ∨ ∃ mode ∈ v.session.policy, _) ∧ ∀ i < (View.pending v d).length, _)))

instance (v : View) : Decidable (progress.free v) := isFalse fun h => h

/-! ## The invariant -/

/-- Every packet has something to send. -/
def Loaded (packets : List Packet) : Prop := ∀ p ∈ packets, p.sendpos < p.len

structure Healthy (c : Connection) : Prop where
  reads : c.flags.shutRd = false
  sslShut : c.flags.sslShut = false
  sslHsk : c.flags.sslHsk = true → c.ssl.isSome = true
  unused : c.fd < 0 → c.ssl = none
  sends : c.task.kind = .send → c.fd > 0
  kind : c.task.kind ≠ .delete
  input : Loaded c.input
  output : Loaded c.output

structure Unharmed (v : View) : Prop where
  policy : v.session.policy.isSome = true
  conns : ∀ d, Healthy (v.conn d)
  staged : ∀ d, Loaded (v.session.staged d)

/-- Nothing was done to the session's log that kills. -/
def Clean (v : View) : Prop := ∀ e ∈ v.log, ¬ Kills e

/-- Both hold for a session in use. -/
structure Survives (v : View) : Prop extends Unharmed v where
  clean : Clean v

variable {v v' : View} {d : Dir}

lemma clean_note {e : Event} (h : Clean v) (hf : ¬ Kills e) : Clean (v.note e) := by
  intro e' hm
  rcases mem_append.mp hm with old | new
  · exact h e' old
  · rw [mem_singleton.mp new]
    exact hf

section

variable (h : Survives v)
include h

lemma survives_note {e : Event} (hf : ¬ Kills e) : Survives (v.note e) :=
  { h with clean := clean_note h.clean hf }

lemma survives_useSsl : Survives (v.useSsl d) := by
  unfold useSsl
  split
  · exact h
  · exact survives_note h fun no => no

lemma survives_ask (events : Mask) (iocb : Option Callback) : Survives (v.ask d events iocb) := { h with }

lemma survives_mapConn {f : Connection → Connection} (hh : Healthy (f (v.conn d)))
    : Survives (v.mapConn d f) := by
  refine ⟨⟨by simpa using h.policy, fun e => ?_, fun e => by simpa using h.staged e⟩, h.clean⟩
  rcases d.sides e with rfl | rfl
  · simpa using hh
  · simpa using h.conns d.peer

lemma survives_mapFlags {f : ConnFlags → ConnFlags} (reads : (f (v.conn d).flags).shutRd = false)
    (sslShut : (f (v.conn d).flags).sslShut = false)
    (sslHsk : (f (v.conn d).flags).sslHsk = true → (v.conn d).ssl.isSome = true) :
    Survives (v.mapFlags d f) :=
  have c := h.conns d
  survives_mapConn h { c with reads, sslShut, sslHsk }

lemma survives_queue {kind : TaskKind} (ha : kind ≠ .delete)
    (opened : kind = .send → (v.conn d).fd > 0) : Survives (v.queue d kind) := by
  have c := h.conns d
  have hm : Survives (v.mapConn d (setKind · kind)) :=
    survives_mapConn h { c with sends := opened, kind := ha }
  unfold View.queue
  dsimp only
  split
  · exact survives_note hm fun no => no
  · have c' := hm.conns d
    have hl : Survives ((v.mapConn d (setKind · kind)).mapConn d (setLinked · true)) :=
      survives_mapConn hm { c' with }
    refine survives_note hl fun hk => ?_
    unfold Kills at hk
    split at hk
    · next he =>
      obtain ⟨-, -, hd⟩ := Event.queued.inj he
      exact ha hd
    · next he => cases he
    · exact hk

end

/-! ## Receiving -/

variable {events : Mask}

lemma fill_loaded {p : Packet} {bytes : List UInt8} (hs : 0 < p.space) (some : bytes ≠ []) :
    (p.fill bytes).sendpos < (p.fill bytes).len := by
  have sendpos := p.sendpos_le
  have hl : 0 < bytes.length := length_pos_iff.mpr some
  simp only [fill, len, length_append, length_take]
  omega

/-- The packet received into has room; all others have something to send. -/
structure Slot (input : List Packet) (i : Nat) : Prop where
  space : 0 < slotSpace input i
  others : ∀ j p, j ≠ i → input[j]? = some p → p.sendpos < p.len

lemma slot_loaded {input : List Packet} {i : Nat} {bytes : List UInt8} (hs : Slot input i)
    (some : bytes ≠ []) : Loaded (input.modify i (·.fill bytes)) := by
  intro q hm
  obtain ⟨j, at_j⟩ := mem_iff_getElem?.mp hm
  rw [getElem?_modify] at at_j
  cases found : input[j]? with
  | none => simp [found] at at_j
  | some p =>
    by_cases he : i = j
    · have hr := hs.space
      simp only [slotSpace, he, found] at hr
      have hf : p.fill bytes = q := by simpa [found, he] using at_j
      rw [← hf]
      exact fill_loaded hr some
    · have hk : p = q := by simpa [found, he] using at_j
      rw [← hk]
      exact hs.others j p (Ne.symm he) found

lemma takeSlot_takes (hl : Loaded (v.conn d).input) :
    ∃ i v1, View.takeSlot true v d = (some i, v1) ∧ Slot (v1.conn d).input i ∧
      slotSpace (v1.conn d).input i = slotLeft (v.conn d).input ∧
      v1.log = v.log ∧
      v1.conn d = { v.conn d with input := (v1.conn d).input } := by
  unfold View.takeSlot slotLeft
  cases found : recvSlot (v.conn d).input with
  | some i =>
    refine ⟨i, v, rfl, ⟨?_, fun j p _ at_j => hl p (mem_of_getElem? at_j)⟩, rfl, rfl, rfl⟩
    cases input : (v.conn d).input with
    | nil => simp [recvSlot, input] at found
    | cons p rest =>
      by_cases full : p.full = true
      · simp [recvSlot, input, full] at found
      · have hf : 0 = i := by simpa [recvSlot, input, full] using found
        rw [← hf]
        exact (p.not_full_iff).mp (by simpa using full)
  | none =>
    refine ⟨(v.conn d).input.length, v.mapSession (·.allocPacket d), by simp, ⟨?_, fun j p other at_j => ?_⟩,
      ?_, rfl, ?_⟩
    · simp [allocPacket, slotSpace, space, maxPktLen, maxPktSize, sizeofPacket]
    · have at_j' : ((v.conn d).input ++ [init])[j]? = some p := by
        simpa [allocPacket] using at_j
      rcases Nat.lt_or_ge j (v.conn d).input.length with hi | ho
      · rw [getElem?_append_left hi] at at_j'
        exact hl p (mem_of_getElem? at_j')
      · rw [getElem?_append_right ho, getElem?_eq_none (by
          have : j ≠ (v.conn d).input.length := other
          simp only [length_singleton]
          omega)] at at_j'
        cases at_j'
    · simp [allocPacket, slotSpace, space]
    · simp [allocPacket]

/-- What a receive that gets something returns. -/
lemma connRawRecv_gets {c : Connection} {io : RecvIO} (got : gets c io = true)
    (hr : 0 < slotLeft c.input) : ∃ bytes, bytes ≠ [] ∧
      connRawRecv c.ssl.isSome c.sock (slotLeft c.input) io = some (.got bytes) := by
  have ha : ¬ slotLeft c.input < 1 := by omega
  obtain ⟨-, got⟩ := Bool.and_eq_true_iff.mp got
  unfold connRawRecv
  rw [if_neg ha]
  by_cases ssl : c.ssl.isSome = true
  · rw [if_pos ssl] at got ⊢
    obtain ⟨he, read⟩ := Bool.and_eq_true_iff.mp got
    split at read
    · next first more ret =>
      refine ⟨(first :: more).take (slotLeft c.input), ?_, ?_⟩
      · intro hn
        have := take_eq_nil_iff.mp hn
        simp at this
        omega
      · have he' : io.ssl.inHandshake = false := by simpa using he
        simp [sslRecv, he', ret]
    · cases read
  · rw [if_neg ssl] at got ⊢
    split at got
    · next n sys =>
      have hp : 1 ≤ n ∧ n ≤ slotLeft c.input ∧ n ≤ c.sock.rx.length := by
        simpa [and_assoc] using got
      refine ⟨c.sock.rx.take n, ?_, ?_⟩
      · intro hn
        rcases take_eq_nil_iff.mp hn with none | none
        · omega
        · simp [none] at hp
          omega
      · rw [sys, skRecv, if_pos hp]
    · cases got

lemma recvPass_survives {io : RecvIO} (h : Survives v) (got : gets (v.conn d) io = true)
    (hn : events.has epollRdHup = false) :
    ∃ n v', View.recvPass io events v d = (some n, v') ∧ Survives v' ∧ (v'.conn d).ssl = (v.conn d).ssl := by
  have c := h.conns d
  have ha : io.alloc = true := (Bool.and_eq_true_iff.mp got).1
  have own := (takeSlot_moves (v := v) (d := d) true).own
  obtain ⟨i, v1, ht, slot, left, log, conn1⟩ := takeSlot_takes c.input
  rw [ht] at own
  have hr : 0 < slotLeft (v.conn d).input := by rw [← left]; exact slot.space
  obtain ⟨bytes, some, raw⟩ := connRawRecv_gets got hr
  have ssl1 : (v1.conn d).ssl = (v.conn d).ssl := by rw [conn1]
  have sock1 : (v1.conn d).sock = (v.conn d).sock := by rw [conn1]
  have answer : connRawRecv (v1.conn d).ssl.isSome (v1.conn d).sock (slotSpace (v1.conn d).input i) io =
      .some (.got bytes) := by rw [ssl1, sock1, left, raw]
  refine ⟨bytes.length, (v1.useSsl d).mapSession (·.storeBytes d i bytes), ?_, ?_, ?_⟩
  · rw [View.recvPass, ha, ht]
    simp [View.recvInto, answer, RawRecv.got, View.recvHandshake, View.recvClose, hn]
  · have used : Clean (v1.useSsl d) := by
      have clean1 : Clean v1 := by
        unfold Clean
        rw [log]
        exact h.clean
      unfold useSsl
      split
      · exact clean1
      · exact clean_note clean1 fun no => no
    refine ⟨⟨?_, fun e => ?_, fun e => ?_⟩, used⟩
    · have hp : v1.session.policy = v.session.policy := own.policy
      simpa [storeBytes, hp] using h.policy
    · rcases d.sides e with rfl | rfl
      · have stored : ((v1.useSsl e).mapSession (·.storeBytes e i bytes)).conn e =
            { v.conn e with
              input := (v1.conn e).input.modify i (·.fill bytes)
              sock := (((v1.useSsl e).mapSession (·.storeBytes e i bytes)).conn e).sock } := by
          have conn1' : v1.session.conns e = _ := conn1
          simp [storeBytes]
          rw [conn1']
          simp
        rw [stored]
        exact { c with input := slot_loaded slot some }
      · have peer : v1.session.conns d.peer = v.session.conns d.peer := own.peer
        simpa [storeBytes, peer] using h.conns d.peer
    · have hs : v1.session.staged = v.session.staged := own.staged
      simpa [storeBytes, hs] using h.staged e
  · have ssl1' : (v1.session.conns d).ssl = (v.session.conns d).ssl := ssl1
    simpa [storeBytes] using ssl1'

lemma feeds_congr {c c' : Connection} (some : c.ssl.isSome = true) (ssl : c'.ssl = c.ssl)
    {io : RecvRun} : feeds c' io = feeds c io := by
  induction io with
  | last io => simp [feeds, gets, ssl, some]
  | pending io rest ih => simp [feeds, gets, ssl, some, ih]

lemma recvLoop_survives {io : RecvRun} (h : Survives v) (fed : feeds (v.conn d) io = true)
    (hn : events.has epollRdHup = false) :
    ∃ n v', View.recvLoop events d io v = (some n, v') ∧ Survives v' := by
  induction io generalizing v with
  | last io =>
    obtain ⟨n, v', hp, hs, -⟩ := recvPass_survives h fed hn
    exact ⟨n, v', hp, hs⟩
  | pending io rest ih =>
    obtain ⟨got, hm⟩ := Bool.and_eq_true_iff.mp fed
    obtain ⟨n, v', hp, hs, ssl⟩ := recvPass_survives h got hn
    unfold View.recvLoop
    rw [hp]
    dsimp only
    split
    · next some =>
      have hs' : (v.conn d).ssl.isSome = true := by rw [← ssl]; exact some
      refine ih hs ?_
      rw [feeds_congr hs' ssl]
      simpa [hs'] using hm
    · exact ⟨n, v', rfl, hs⟩

lemma recvData_survives {io : RecvRun} (h : Survives v) (fed : feeds (v.conn d) io = true)
    (hn : events.has epollErr = false) (noHup : events.has epollRdHup = false) :
    Survives (recvData io events v d) := by
  obtain ⟨n, v', hl, hs⟩ := recvLoop_survives h fed noHup
  unfold recvData
  rw [if_neg (by simp [hn]), hl]
  exact survives_queue hs (by decide) fun no => by cases no

/-! ## Sending -/

variable {ios : Nat → SendIO}

variable {usesSsl : Bool}

lemma takes_result {len : Nat} {io : SendIO} (took : takes usesSsl io = true) (some : 0 < len) :
    sendResult usesSsl len io ≠ .failed := by
  unfold takes at took
  unfold sendResult
  rw [if_neg (by omega)]
  cases usesSsl with
  | true =>
    obtain ⟨ha, hw⟩ := Bool.and_eq_true_iff.mp took
    have ha' : io.ssl.refused = false := by simpa using ha
    simp only [ha', if_true, Bool.false_eq_true, if_false]
    cases ret : io.ssl.ret with
    | sent n =>
      have pos : n ≠ 0 := by simpa [ret] using hw
      by_cases all : len ≤ n <;> simp [pos, all]
    | err error =>
      have ht : error ≠ .other := by simpa [ret] using hw
      simp [ht]
  | false =>
    cases sys : io.sys with
    | sent n => by_cases all : len ≤ n <;> simp [all]
    | err errno => simp [sys] at took

lemma takes_results {packets : List Packet} (hl : Loaded packets)
    (ht : ∀ i < packets.length, takes usesSsl (ios i) = true) :
    .failed ∉ sendResults usesSsl ios packets := by
  intro failed
  obtain ⟨⟨p, i⟩, hm, hr⟩ := mem_map.mp failed
  have hf := List.mem_zipIdx_iff_getElem?.mp hm
  have hi : i < packets.length := (List.getElem?_eq_some_iff.mp hf).1
  have some := hl p (mem_of_getElem? hf)
  exact takes_result (ht i hi) (by dsimp only; omega) hr

/-- What a send loop leaves has still something to send. -/
lemma sendPackets_loaded {i : Nat} {packets : List Packet} (hl : Loaded packets) :
    Loaded (sendPackets usesSsl ios i packets).rest := by
  induction packets generalizing i with
  | nil => exact hl
  | cons p rest ih =>
    obtain ⟨first, ho⟩ := forall_mem_cons.mp hl
    unfold sendPackets
    dsimp only
    split
    · exact hl
    next nonneg =>
    split
    · next short =>
      refine forall_mem_cons.mpr ⟨?_, ho⟩
      have hb := (connRawSend_bounds usesSsl (p.len - p.sendpos) (ios i)).1
      simp only [advance, len] at *
      omega
    · exact ih ho

lemma sendBlock_survives (h : Survives v) : Survives (View.sendBlock v d) := by
  have c := h.conns d
  unfold View.sendBlock
  split
  · exact h
  · exact survives_mapFlags (survives_ask (survives_ask h _ _) _ _) c.reads c.sslShut c.sslHsk

lemma sendUnblock_survives (h : Survives v) : Survives (View.sendUnblock v d) := by
  have c := h.conns d
  unfold View.sendUnblock
  split
  · exact h
  · exact survives_mapFlags (survives_ask (survives_ask h _ _) _ _) c.reads c.sslShut c.sslHsk

lemma sendData_survives (h : Survives v)
    (ht : handshaking (v.conn d) = false → ∀ i < (v.conn d).output.length, takes (v.conn d).ssl.isSome (ios i) = true) :
    (sendData ios events v d).1 = 0 ∧ Survives (sendData ios events v d).2 := by
  have c := h.conns d
  have hr := sendLoop_results ios (v.conn d)
  have hl : Survives (sendLooped ios v d) := by
    have used : Survives (if (v.conn d).output ≠ [] then v.useSsl d else v) := by
      split
      · exact survives_useSsl h
      · exact h
    have hc : Clean (sendLooped ios v d) := used.clean
    refine ⟨⟨?_, fun e => ?_, fun e => by rw [sendLooped_staged]; exact h.staged e⟩, hc⟩
    · unfold sendLooped
      split <;> simpa [applySent] using h.policy
    · rcases d.sides e with rfl | rfl
      · rw [View.conn, sendLooped_self]
        exact { c with output := sendPackets_loaded c.output }
      · rw [View.conn, sendLooped_peer]
        exact h.conns d.peer
  unfold sendData
  split
  · exact ⟨rfl, h⟩
  next ready =>
  have hf := takes_results c.output (ht (by simpa using ready))
  dsimp only
  split
  · next failed =>
    rw [failed] at hr
    exact absurd hr hf
  · exact ⟨rfl, sendBlock_survives hl⟩
  · refine ⟨rfl, ?_⟩
    have hu := sendUnblock_survives (d := d) hl
    unfold View.sendShut
    rw [if_pos (hu.conns d.peer).reads]
    exact hu

/-! ## Handshakes -/

lemma waitFor_survives (h : Survives v) (wait : SslWait) (events : Mask) :
    Survives (waitFor wait events v d) := by
  unfold waitFor
  split
  · exact h
  · exact survives_ask h _ _

section

variable (h : Survives v) (opened : (v.conn d).fd > 0)
include h opened

lemma handshakeDone_survives : Survives (View.handshakeDone v d) :=
  survives_queue (survives_ask h _ _) (by decide) fun _ => opened

lemma sslHandshake_survives {io : HandshakeIO}
    (hs : (v.conn d).ssl.isSome = true → io.ssl.isSome = true) :
    Survives (View.sslHandshake io events v d) := by
  have c := h.conns d
  unfold View.sslHandshake
  split
  · exact handshakeDone_survives h opened
  next shaking =>
  have hh : (v.conn d).ssl.isSome = true := c.sslHsk (by simpa using shaking)
  split
  · next wait _ _ =>
    have hw := waitFor_survives (d := d) (survives_useSsl (d := d) h) wait events
    obtain ⟨-, -, session⟩ := waitFor_frame (v := v.useSsl d) (d := d) events wait
    rw [useSsl_session] at session
    have he : (waitFor wait events (v.useSsl d) d).conn d = v.conn d := by
      rw [View.conn, session]
    dsimp only
    split
    · refine handshakeDone_survives (survives_mapFlags hw ?_ ?_ fun no => by cases no) ?_
      · exact (hw.conns d).reads
      · exact (hw.conns d).sslShut
      · have ho' : (v.session.conns d).fd > 0 := opened
        simpa [session] using ho'
    · exact hw
  · next none =>
    obtain ⟨x, ssl⟩ := isSome_iff_exists.mp hh
    obtain ⟨wait, ha⟩ := isSome_iff_exists.mp (hs hh)
    exact absurd ha (none x wait ssl)

lemma handshake_survives {io : HandshakeIO} (hn : events.has epollErr = false)
    (noHup : events.has epollRdHup = false) (hc : (v.conn d).flags.hsk = true → io.connected = true)
    (hs : (v.conn d).ssl.isSome = true → io.ssl.isSome = true) :
    Survives (View.handshake io events v d) := by
  have c := h.conns d
  have neither : events.has (epollErr ||| epollRdHup) = false := by
    simp only [Mask.has, bne_eq_false_iff_eq] at hn noHup ⊢
    rw [BitVec.and_or_distrib_left, hn, noHup]
    rfl
  unfold View.handshake
  rw [if_neg (by simp [neither])]
  split
  · exact sslHandshake_survives h opened hs
  next shaking =>
  rw [if_neg (by simp [hc (by simpa using shaking)])]
  refine sslHandshake_survives (survives_mapFlags h c.reads c.sslShut fun hb => ?_) ?_ ?_
  · rcases Bool.or_eq_true_iff.mp hb with old | new
    · exact c.sslHsk old
    · exact new
  · simpa using opened
  · simpa using hs

end

lemma shutdown_survives (h : Survives v) {io : ShutdownIO} (hn : events.has epollErr = false) :
    Survives (shutdown io events v d) := by
  unfold shutdown
  rw [if_neg (by simp [hn]), if_pos (h.conns d).sslShut]
  exact survives_ask h _ _

/-! ## Tasks -/

variable {io : TaskIO}

lemma taken_survives (h : Survives v) : Survives (taken v d) := by
  have c := h.conns d
  have hu : Survives (v.mapConn d (setLinked · false)) := survives_mapConn h { c with }
  exact survives_note hu fun no => no

lemma loaded_append {a b : List Packet} (ha : Loaded a) (hb : Loaded b) : Loaded (a ++ b) :=
  fun p hm => (mem_append.mp hm).elim (ha p) (hb p)

lemma joined_survives (h : Survives v) : Survives (joined v d) := by
  have hc : Clean (joined v d) := (taken_survives (d := d) h).clean
  refine ⟨⟨by simpa [joined, joinInput, joinOutput, taken] using h.policy, fun e => ?_, fun e => ?_⟩, hc⟩
  · rcases d.sides e with rfl | rfl
    · have c := h.conns e
      rw [joined_conn]
      exact { c with input := fun _ no => by cases no }
    · have c := h.conns d.peer
      rw [joined_peer]
      exact { c with
        output := loaded_append (h.conns d.peer).output (loaded_append (h.staged d) (h.conns d).input) }
  · rcases d.sides e with rfl | rfl
    · rw [joined_staged]
      exact fun _ no => by cases no
    · rw [joined_staged_peer]
      exact h.staged d.peer

lemma send_survives (h : Survives v) (opened : (v.conn d).fd > 0)
    (ht : handshaking (v.conn d) = false → ∀ i < (v.conn d).output.length, takes (v.conn d).ssl.isSome (ios i) = true) :
    (send ios v d).1 = 0 ∧ Survives (send ios v d).2 := by
  unfold send
  rw [if_neg (by omega)]
  exact sendData_survives h ht

/-- An SSL handshake is started only where there is an SSL object. -/
lemma dial_sslHsk {io : ForwardIO} {mode : PolicyMode} (hi : (v.conn d).flags.sslHsk = false)
    (hd : (dial io mode v d).1 = 0)
    (hs : ((dial io mode v d).2.conn d).flags.sslHsk = true) :
    ((dial io mode v d).2.conn d).ssl.isSome = true := by
  have hc : ((getServer io v d).2.conn d).flags.sslHsk = false := by
    have hi' : (v.session.conns d).flags.sslHsk = false := hi
    unfold getServer
    repeat' split
    all_goals simpa using hi'
  have hq : ((View.connectServer io mode (getServer io v d).2 d).2.conn d).flags.sslHsk = false :=
    connectServer_keeps (P := fun v' => (v'.conn d).flags.sslHsk = false) io mode
      (fun _ h => by simpa [redial] using h)
      (fun _ _ _ h => by simpa [View.openSocket, redial] using h) hc
  revert hd hs
  apply dial_cases (P := fun r => r.1 = 0 → (r.2.conn d).flags.sslHsk = true →
    (r.2.conn d).ssl.isSome = true) io mode
  · exact fun bad => by cases bad
  · exact fun _ _ bad => by cases bad
  · intro wait v2 _ connected hd hs
    rw [connected] at hq
    have hc' : (v2.session.conns d).flags.sslHsk = false := hq
    unfold View.watchServer at hd hs ⊢
    split at hs
    · simp [hc'] at hs
    next now =>
    split at hs
    · simp [hc'] at hs
    next ssl =>
    simp only [if_neg now, ssl] at hd ⊢
    split at hd
    · cases hd
    next hb =>
    rw [if_neg hb]
    simp

section

variable (h : Survives v)
include h

lemma dial_survives {io : ForwardIO} {mode : PolicyMode} (hc : (v.conn d).fd < 0)
    (ok : dials io mode = true) : (dial io mode v d).1 = 0 ∧ Survives (dial io mode v d).2 := by
  have c := h.conns d
  have hp := c.unused hc
  have hd := dial_succeeds io hp ok
  have opened := dial_opened io mode hd
  have hr := dial_redials (v := v) (d := d) io mode
  have hi : (v.conn d).flags.sslHsk = false := by
    cases hs : (v.conn d).flags.sslHsk with
    | false => rfl
    | true => simpa [hp] using c.sslHsk hs
  refine ⟨hd, ⟨by rw [hr.policy]; exact h.policy, fun e => ?_, fun e => ?_⟩, fun e hm => ?_⟩
  · rcases d.sides e with rfl | rfl
    · refine ⟨?_, ?_, dial_sslHsk hi hd, fun hn => ?_, fun _ => opened, ?_, ?_, ?_⟩
      · rw [hr.flags]
        exact c.reads
      · rw [hr.flags]
        exact c.sslShut
      · omega
      · rw [hr.task]
        exact c.kind
      · rw [hr.input]
        exact c.input
      · rw [hr.output]
        exact c.output
    · rw [hr.peer]
      exact h.conns d.peer
  · rw [hr.staged]
    exact h.staged e
  · rcases dial_log io hm with old | ho
    · exact h.clean e old
    · intro hk
      cases e <;> first | exact ho.elim | exact hk.elim

/-- The parse task: what was received is forwarded and sent. -/
lemma forward_survives (hs : Sound v)
    (hc : (v.conn d.peer).fd > 0 ∨ ∃ mode ∈ v.session.policy, dials io.forward mode = true)
    (ht : ∀ i < (View.pending v d).length, takes (v.conn d.peer).ssl.isSome (io.send i) = true) :
    (View.forwarded io.forward v d).1 = 0 ∧
    (send io.send (View.forwarded io.forward v d).2 d.peer).1 = 0 ∧
    Survives (send io.send (View.forwarded io.forward v d).2 d.peer).2 := by
  have hj := joined_survives (d := d) h
  obtain ⟨mode, policy⟩ := isSome_iff_exists.mp h.policy
  by_cases opened : (v.conn d.peer).fd > 0
  · rw [forward_connected io.forward opened policy]
    refine ⟨rfl, send_survives hj ?_ fun _ => ?_⟩
    · rw [joined_peer]
      exact opened
    · rw [joined_peer]
      exact ht
  · obtain ⟨mode', hp', ok⟩ := hc.resolve_left opened
    obtain rfl : mode' = mode := by
      rw [policy] at hp'
      exact (some.inj hp').symm
    have hn : (v.conn d.peer).fd < 0 := by
      have zero := hs.fd d.peer
      omega
    have hp := (h.conns d.peer).unused hn
    have closed : ((joined v d).conn d.peer).fd < 0 := by
      rw [joined_peer]
      exact hn
    rw [forward_dials io.forward opened policy]
    obtain ⟨hd, survives⟩ := dial_survives hj closed ok
    refine ⟨hd, send_survives survives (dial_opened io.forward _ hd) fun hr => ?_⟩
    rcases dial_ready io.forward _ hd with hw | none
    · rw [hr] at hw
      cases hw
    · rw [none, (dial_redials io.forward _).output, joined_peer]
      rw [hp] at ht
      exact ht

lemma closeIfDone_survives : View.closeIfDone v d = v := by
  have hr : (v.session.conns d).flags.shutRd = false := (h.conns d).reads
  simp [View.closeIfDone, ConnFlags.isClosed, hr]

lemma runTask_survives (hs : Sound v) (ok : progress.task v d io) :
    Survives (runTask io (taken v d) d) := by
  have ht := taken_survives (d := d) h
  have hk : ((taken v d).conn d).task.kind = (v.conn d).task.kind := by
    simp [taken, setLinked]
  unfold runTask
  split
  · exact ht
  · next delete => exact absurd (hk.symm.trans delete) (h.conns d).kind
  · next parse =>
    obtain ⟨hc, took⟩ := ok.2 (hk.symm.trans parse)
    obtain ⟨forwarded, sent, survives⟩ := forward_survives h hs hc took
    unfold View.forwarded at forwarded sent survives
    unfold View.runParse View.relay
    generalize View.forward io.forward (View.parsed v d) d.peer = r at *
    obtain ⟨ret, v1⟩ := r
    dsimp only at forwarded sent survives ⊢
    rw [if_neg (not_not.mpr forwarded), if_neg (not_not.mpr sent), closeIfDone_survives survives]
    exact survives
  · next send =>
    have sends := hk.symm.trans send
    have opened : ((taken v d).conn d).fd > 0 := by
      rw [taken_conn]
      exact (h.conns d).sends sends
    have took : ∀ i < ((taken v d).conn d).output.length,
        takes ((taken v d).conn d).ssl.isSome (io.send i) = true := by
      rw [taken_conn]
      exact ok.1 sends
    obtain ⟨sent, survives⟩ := send_survives ht opened fun _ => took
    unfold View.runSend
    dsimp only
    rw [if_neg (not_not.mpr sent), closeIfDone_survives survives]
    exact survives

end

/-! ## Every run -/

/-- Sessions in the pool are only looked at through their log. -/
def Spared (v : View) : Prop := Clean v ∧ (v.used = true → Unharmed v)

variable {v : View}

lemma spared_survives (h : Spared v) (hi : v.used = true) : Survives v :=
  ⟨h.2 hi, h.1⟩

lemma Survives.spared (h : Survives v) : Spared v := ⟨h.clean, fun _ => h.toUnharmed⟩

lemma call_survives {d : Dir} {cb : Callback} {io : CallbackIO} (h : Survives v)
    (hc : Called v d cb events) (ok : progress.call v d cb io events) :
    Survives (View.call io cb events v d) := by
  obtain ⟨hn, noHup, hr, hs, hh⟩ := ok
  cases cb with
  | connRecvData => exact recvData_survives h (hr rfl) hn noHup
  | connSendData => exact (sendData_survives h fun _ => hs rfl).2
  | connHandshake =>
    exact handshake_survives h hc.opened hn noHup (hh rfl).1 (hh rfl).2
  | connShutdown => exact shutdown_survives h hn
  | listenerAccept => exact h

lemma accepted_survives {l : ListenerFd} {fd : Nat} (h : Clean v) : Survives (accepted v l fd) := by
  have client := accepted_client v l fd
  have server := accepted_server v l fd
  have hn : Loaded [] := fun _ no => by cases no
  refine ⟨⟨rfl, fun e => ?_, fun e => by cases e <;> exact hn⟩, fun e hm => ?_⟩
  · cases e with
    | client =>
      rw [View.conn, client]
      refine ⟨rfl, rfl, fun ssl => ?_, fun hc => ?_, fun no => ?_, fun no => ?_, hn, hn⟩
      · have hs' : l.sslctx = true := ssl
        simp [hs']
      · exact absurd hc (by simp)
      · cases no
      · cases no
    | server =>
      rw [View.conn, server]
      exact ⟨rfl, rfl, fun no => (by cases no), fun _ => rfl, fun no => (by cases no),
        fun no => (by cases no), hn, hn⟩
  · have hm' : e ∈ v.log ∨ e ∈ opening v.id fd l.sslctx ∨ e = .accepted v.id fd := by
      simpa [accepted] using hm
    rcases hm' with old | ho | rfl
    · exact h e old
    · have ho' : e = .sockOpen v.id fd ∨ l.sslctx = true ∧ e = .sslAlloc v.id .client := by
        simpa [opening] using ho
      rcases ho' with rfl | ⟨-, rfl⟩ <;> exact fun no => no
    · exact fun no => no

lemma refused_clean {v v' : View} (h : Clean v) (hr : Refuses v v') : Clean v' := by
  obtain ⟨fd, ssl, log⟩ := hr.log
  intro e hm
  rw [log] at hm
  rcases mem_append.mp hm with old | new
  · exact h e old
  · unfold opening refusing at new
    cases ssl <;> simp at new
    · rcases new with rfl | rfl | rfl <;> exact fun no => no
    · rcases new with rfl | rfl | rfl | rfl | rfl <;> exact fun no => no

lemma deliver_survives {d : Dir} (h : Survives v) {bytes : List UInt8} {fin : Bool} :
    Survives (v.mapConn d (·.deliver bytes fin)) :=
  have c := h.conns d
  survives_mapConn h { c with }

lemma progress_kept : Kept Spared progress where
  start hu _ empty := ⟨fun e hm => by simp [empty] at hm, fun hi => by simp [hu] at hi⟩
  deliver h hs _ _ := (deliver_survives (spared_survives h hs.used)).spared
  accept h _ _ := (accepted_survives h.1).spared
  refuse h _ refuses := ⟨refused_clean h.1 refuses, fun hi => by simp [refuses.used] at hi⟩
  call h hc ok := (call_survives (spared_survives h hc.used) hc ok).spared
  task h hs _ ok := (runTask_survives (spared_survives h hs.used) hs ok).spared
  free _ _ _ no := no.elim

/-- In every run in which every call but `SSL_write` transfers something, no session gets a
delete task and `session_free` is called for none. -/
theorem session_survives (maxfd naccept : Nat) (opened : Nat → Bool) {actions : List Action}
    (along : Along workerStep progress.allow actions (Worker.start maxfd naccept opened)) :
    Ensures (runWorker actions) (Worker.start maxfd naccept opened)
      (fun _ w => ∀ e ∈ w.log, ¬ Kills e) (fun _ _ => True) := by
  refine (progress_kept.run maxfd naccept opened along).imp_true (fun _ w h e hm hk => ?_)
  cases e with
  | queued s d kind =>
    have hs : .queued s d kind ∈ (view w s).log := by simpa [view, noted, about] using hm
    exact (h.2 s).1 _ hs hk
  | released s =>
    have hs : .released s ∈ (view w s).log := by simpa [view, noted, about] using hm
    exact (h.2 s).1 _ hs hk
  | _ => exact hk

/-- What `SSL_read` returns on an established connection. -/
def readsSsl (ret : SslReadRet) : CallbackIO :=
  { willing with recv := .last ⟨true, .err .eagain, ⟨ret, false, false⟩⟩ }

/-- An SSL client is served; the write of the response would block at first. -/
def writeBlocks : List Action :=
  acceptRound .reverse true ++ polls [((4, epollIn), willing)] ++ .runTask (relays false false maxPktLen) ::
    polls [((4, epollIn), readsSsl (.data 7 [9]))] ++
    .runTask (relays false false maxPktLen) :: .deliver 0 .server [3] false ::
    polls [((5, epollIn), receives 1)] ++
    .runTask { relays false false maxPktLen with send _ := ⟨.sent 1, ⟨false, .err .wantWrite⟩⟩ } ::
    polls [((4, epollOut), willing)]

theorem session_survives_writeBlocks :
    Along workerStep progress.allow writeBlocks (Worker.start 16 1 fun _ => false) ∧
    Ensures (runWorker writeBlocks) (Worker.start 16 1 fun _ => false)
      (fun _ w => ∀ e ∈ w.log, ¬ Kills e) (fun _ _ => True) :=
  ⟨by decide +kernel, session_survives 16 1 (fun _ => false) (by decide +kernel)⟩

/-- `send` to the server reports `EAGAIN`. -/
def sendAgain : List Action :=
  acceptRound .reverse false ++ .deliver 0 .client [7, 9] false :: polls [((4, epollIn), receives 2)] ++
    [.runTask { relays false false maxPktLen with send _ := ⟨.err .eagain, ⟨false, .sent 1⟩⟩ }]

/-- `recv` from the client is interrupted. -/
def recvInterrupted : List Action :=
  acceptRound .reverse false ++
    polls [((4, epollIn), { willing with recv := .last ⟨true, .err .eintr, ⟨.zero, false, false⟩⟩ })] ++
    [.runTask (relays false false maxPktLen)]

/-- `SSL_read` needs more data for a record. -/
def recordIncomplete : List Action :=
  acceptRound .reverse true ++ polls [((4, epollIn), willing)] ++
    .runTask (relays false false maxPktLen) :: polls [((4, epollIn), readsSsl (.err .wantRead))]

/-- Each of them ends the session. -/
theorem transient_kills :
    Ensures (runWorker sendAgain) emptyWorker (fun _ w => .released 0 ∈ w.log) (fun _ _ => False) ∧
    Ensures (runWorker recvInterrupted) emptyWorker (fun _ w => .released 0 ∈ w.log)
      (fun _ _ => False) ∧ Ensures (runWorker recordIncomplete) emptyWorker
      (fun _ w => .queued 0 .client .delete ∈ w.log) (fun _ _ => False) := by
  refine ⟨?_, ?_, ?_⟩ <;> decide +kernel

end Fzsvn.Guarantees.Proxy.TransientErrors
