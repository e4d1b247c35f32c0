import Fzsvn.Guarantees.Proxy.ConnectionActs

/-!
# What a session holds when it is released

Sockets are opened and SSL objects allocated for a session by `_ltn_accept`,
`session_get_server` and `session_forward`; they are closed by `conn_free` and freed by
`conn_shutdown`. A ledger kept over the session's events says what it holds. `conn_free`
never frees an SSL object, so a session released before its SSL shutdown is complete leaks
it, and the transparent mode opens a second socket over the first (`release_leaks`).
Releases of sessions without an SSL object are balanced (`release_balanced`).
-/
namespace Fzsvn.Guarantees.Proxy.ReleaseBalance
open Library.Exec Source.Proxy Locality Lifecycle SendStep SessionView CallbackViews TaskViews
open ViewRule ConnectionActs
open View (dial forwarded free freeSsl getServer joined openSocket redial taken)

/-! ## The ledger -/

/-- `serving` is the time between `accepted` and `put`; `balanced` says that nothing was
closed or freed that was not held, and that no `put` of `session_free` found anything held. -/
structure Ledger where
  sockets : List Nat
  ssl : List Dir
  serving : Bool
  balanced : Bool
  deriving DecidableEq, Repr

def Ledger.empty : Ledger := ⟨[], [], false, true⟩

def Ledger.record (l : Ledger) : Event → Ledger
  | .sockOpen _ fd => { l with sockets := l.sockets ++ [fd] }
  | .sockClose _ fd =>
    { l with sockets := l.sockets.erase fd, balanced := l.balanced && l.sockets.contains fd }
  | .sslAlloc _ d => { l with ssl := l.ssl ++ [d] }
  | .sslFree _ d => { l with ssl := l.ssl.erase d, balanced := l.balanced && l.ssl.contains d }
  | .accepted _ _ => { l with serving := true }
  | .put _ _ _ =>
    { l with
      serving := false
      balanced := l.balanced && (!l.serving || l.sockets.isEmpty && l.ssl.isEmpty) }
  | _ => l

def ledger (log : List Event) : Ledger := log.foldl Ledger.record .empty

@[simp] lemma ledger_append (log more : List Event) :
    ledger (log ++ more) = more.foldl Ledger.record (ledger log) := by
  simp [ledger]

/-- Every session that `session_free` returned had given back all it held, each once. -/
def ReleasesBalanced (w : Worker) : Prop := ∀ s, (ledger (noted s w.log)).balanced = true

/-! ## Releases without an SSL object -/

/-- A task that may release the session finds it without SSL objects and allocates none; of
the others no call fails. The transparent mode gets no socket to replace. -/
def withoutSsl : Limits where
  call _ _ _ _ _ := True
  task v d io :=
    ((v.conn d).task.kind = .delete → ∀ e, (v.conn e).ssl = none) ∧
    ((v.conn d).task.kind = .send → (∀ e, (v.conn e).ssl = none) ∨
      (v.conn d).fd > 0 ∧ .failed ∉ sendResults (v.conn d).ssl.isSome io.send (v.conn d).output) ∧
    ((v.conn d).task.kind = .parse →
      (¬ (v.conn d.peer).fd > 0 → v.session.policy = some .tproxy → io.forward.socket = none) ∧
      ((∀ e, (v.conn e).ssl = none) ∧
          ((v.conn d.peer).fd > 0 ∨ io.forward.server ≠ some true ∨ io.forward.sslAlloc = false) ∨
        (∃ mode ∈ v.session.policy, (v.conn d.peer).fd > 0 ∨ dials io.forward mode = true) ∧
          .failed ∉ sendResults (v.conn d.peer).ssl.isSome io.send (View.pending v d)))
  free v := ∀ e, (v.conn e).ssl = none

instance (v : View) (d : Dir) (cb : Callback) (io : CallbackIO) (events : Mask) :
    Decidable (withoutSsl.call v d cb io events) := isTrue trivial

instance (v : View) (d : Dir) (io : TaskIO) : Decidable (withoutSsl.task v d io) :=
  inferInstanceAs (Decidable ((_ → ∀ e, (v.conn e).ssl = none) ∧ (_ → (∀ e, (v.conn e).ssl = none) ∨ _ ∧ _) ∧
    (_ → (_ → _ → _) ∧ ((∀ e, (v.conn e).ssl = none) ∧ _ ∨ (∃ mode ∈ v.session.policy, _) ∧ _))))

instance (v : View) : Decidable (withoutSsl.free v) :=
  inferInstanceAs (Decidable (∀ e, (v.conn e).ssl = none))

/-! ## The invariant -/

def openFds (v : View) : List Nat :=
  ([Dir.client, .server].filter fun d => (v.conn d).fd > 0).map fun d => (v.conn d).fd.toNat

def sslHeld (v : View) : List Dir := [Dir.client, .server].filter fun d => (v.conn d).ssl.isSome

/-- The ledger agrees with the session. -/
structure Holds (v : View) : Prop where
  ledger : ledger v.log = ⟨openFds v, sslHeld v, true, true⟩
  fd : ∀ d, (v.conn d).fd ≠ 0

/-- While it is served, a session has its client, and a connection that is not open or has
shut down its write side has no SSL object. -/
structure Served (v : View) : Prop extends Holds v where
  used : v.used = true
  client : (v.conn .client).fd > 0
  closed : ∀ d, (v.conn d).fd < 0 → (v.conn d).ssl = none ∧ (v.conn d).flags.shutWr = false
  shut : ∀ d, (v.conn d).flags.shutWr = true → (v.conn d).ssl = none

/-- A session that is released holds nothing, one half released no SSL object. -/
structure Gone (v : View) : Prop where
  used : v.used = true → Holds v ∧ sslHeld v = []
  unused : v.used = false → ledger v.log = .empty

variable {v v' : View} {d : Dir}

lemma sslHeld_nil (hp : ∀ e, (v.conn e).ssl = none) : sslHeld v = [] := by
  have hc : (v.session.conns .client).ssl = none := hp .client
  have hs : (v.session.conns .server).ssl = none := hp .server
  simp [sslHeld, hc, hs]

lemma openFds_congr (fd : ∀ e, (v'.conn e).fd = (v.conn e).fd) : openFds v' = openFds v := by
  simp only [openFds, fd]

lemma sslHeld_congr (ssl : ∀ e, (v'.conn e).ssl = (v.conn e).ssl) : sslHeld v' = sslHeld v := by
  simp only [sslHeld, ssl]

/-- What is neither about descriptors nor about SSL objects. -/
lemma holds_congr (h : Holds v) (log : ledger v'.log = ledger v.log)
    (fd : ∀ e, (v'.conn e).fd = (v.conn e).fd) (ssl : ∀ e, (v'.conn e).ssl = (v.conn e).ssl) : Holds v' :=
  ⟨by rw [log, h.ledger, openFds_congr fd, sslHeld_congr ssl], fun e => by rw [fd]; exact h.fd e⟩

lemma record_bookkeeping {l : Ledger} {e : Event} (hq : Bookkeeping e) : l.record e = l := by
  cases e <;> first | rfl | exact hq.elim

lemma served_act (act : Act d v v') (h : Served v) : Served v' := by
  cases act with
  | edit edits =>
    refine ⟨holds_congr h.toHolds (by rw [edits.log]) edits.fd edits.ssl, edits.used.trans h.used,
      ?_, fun e fd => ?_, fun e hs => ?_⟩
    · rw [edits.fd]
      exact h.client
    · rw [edits.fd] at fd
      refine ⟨(edits.ssl e).trans (h.closed e fd).1, ?_⟩
      cases hs : (v'.conn e).flags.shutWr with
      | false => rfl
      | true =>
        rcases edits.shutWr e hs with old | ⟨-, ho⟩
        · rw [(h.closed e fd).2] at old
          cases old
        · exact absurd fd ho
    · rw [edits.ssl]
      rcases edits.shutWr e hs with old | ⟨hp, -⟩
      · exact h.shut e old
      · exact hp
  | note hq =>
    refine ⟨holds_congr h.toHolds ?_ (fun _ => rfl) (fun _ => rfl), h.used, h.client, h.closed, h.shut⟩
    simp [record_bookkeeping hq]
  | use =>
    unfold View.useSsl
    split
    · exact h
    · exact ⟨holds_congr h.toHolds (by simp [Ledger.record]) (fun _ => rfl) (fun _ => rfl), h.used,
        h.client, h.closed, h.shut⟩
  | free hh _ =>
    have fd : ∀ e, ((freeSsl v d).conn e).fd = (v.conn e).fd := by
      intro e
      rcases d.sides e with rfl | rfl <;> simp [freeSsl]
    have hf : ∀ e, ((freeSsl v d).conn e).flags = (v.conn e).flags := by
      intro e
      rcases d.sides e with rfl | rfl <;> simp [freeSsl]
    have ssl : ∀ e, (v.conn e).ssl = none → ((freeSsl v d).conn e).ssl = none := by
      intro e none
      rcases d.sides e with rfl | rfl
      · simp [freeSsl]
      · simpa [freeSsl] using none
    refine ⟨⟨?_, fun e => by rw [fd]; exact h.fd e⟩, h.used, by rw [fd]; exact h.client,
      fun e hc => ?_, fun e hs => ssl e (h.shut e (by rw [← hf]; exact hs))⟩
    · have he : sslHeld (freeSsl v d) = (sslHeld v).erase d ∧ d ∈ sslHeld v := by
        have hh' : (v.session.conns d).ssl.isSome = true := hh
        cases d with
        | client =>
          by_cases server : (v.session.conns .server).ssl.isSome = true <;>
            simp [sslHeld, freeSsl, hh', server]
        | server =>
          by_cases client : (v.session.conns .client).ssl.isSome = true <;>
            simp [sslHeld, freeSsl, hh', client]
      have log : (freeSsl v d).log = v.log ++ [.sslFree v.id d] := rfl
      rw [log, ledger_append, h.ledger, openFds_congr fd, he.1]
      simp [Ledger.record, he.2]
    · rw [fd] at hc
      exact ⟨ssl e (h.closed e hc).1, by rw [hf]; exact (h.closed e hc).2⟩

lemma served_acts (ha : Acts d v v') (h : Served v) : Served v' := ha.keep served_act h

lemma getServer_holds (io : ForwardIO) (h : Holds v) (hp : (v.conn .server).ssl = none) :
    Holds (getServer io v .server).2 := by
  have hp' : (v.session.conns .server).ssl = none := hp
  unfold getServer
  split
  · exact h
  split
  · exact h
  dsimp only
  split
  · exact holds_congr h rfl (fun _ => rfl) (fun _ => rfl)
  split
  · refine holds_congr h rfl (fun e => ?_) (fun e => ?_) <;> cases e <;> simp [hp']
  next usesSsl _ _ _ =>
  refine ⟨?_, fun e => ?_⟩
  · have fds : openFds (((v.mapSession (·.chooseServer usesSsl)).note (.sslAlloc v.id .server)).mapConn
        .server ({ · with ssl := some ⟨none⟩ })) = openFds v :=
      openFds_congr fun e => by cases e <;> simp
    have hh : sslHeld (((v.mapSession (·.chooseServer usesSsl)).note (.sslAlloc v.id .server)).mapConn
        .server ({ · with ssl := some ⟨none⟩ })) = sslHeld v ++ [.server] := by
      by_cases hc : (v.session.conns .client).ssl.isSome = true <;>
        simp [sslHeld, hc, hp']
    have log : (((v.mapSession (·.chooseServer usesSsl)).note (.sslAlloc v.id .server)).mapConn
        .server ({ · with ssl := some ⟨none⟩ })).log = v.log ++ [.sslAlloc v.id .server] := rfl
    rw [log, ledger_append, h.ledger, fds, hh]
    rfl
  · have zero := h.fd e
    cases e <;> simpa using zero

lemma redial_holds (h : Holds v) (hc : (v.conn .server).fd < 0) :
    Holds (redial v .server (-1) none) := by
  have hc' : ¬ 0 < (v.session.conns .server).fd := by
    have := hc
    simp only [View.conn] at this
    omega
  refine ⟨?_, fun e => ?_⟩
  · have log : (redial v .server (-1) none).log = v.log := rfl
    rw [log, h.ledger]
    simp [openFds, sslHeld, redial, hc', List.filter_cons]
  · have zero := h.fd e
    cases e with
    | client => simpa [redial] using zero
    | server => simp [redial]

lemma openSocket_holds {fd : Nat} (some : fd ≠ 0) (h : Holds v)
    (hc : (v.conn .server).fd < 0) : Holds (openSocket v .server fd) := by
  have hc' : ¬ 0 < (v.session.conns .server).fd := by
    have := hc
    simp only [View.conn] at this
    omega
  have hp : 0 < fd := by omega
  refine ⟨?_, fun e => ?_⟩
  · have log : (openSocket v .server fd).log = v.log ++ [.sockOpen v.id fd] := rfl
    rw [log, ledger_append, h.ledger]
    by_cases client : 0 < (v.session.conns .client).fd <;>
      simp [Ledger.record, openFds, sslHeld, openSocket, redial, hc', hp, client,
        List.filter_cons]
  · have zero := h.fd e
    cases e with
    | client => simpa [openSocket, redial] using zero
    | server => simpa [openSocket, redial] using some

section

variable (io : ForwardIO)
include io

/-- One socket at most is opened, and kept. -/
lemma connectServer_holds {mode : PolicyMode} (h : Holds v) (hc : (v.conn .server).fd < 0)
    (noSocket : mode = .tproxy → io.socket = none) : Holds (View.connectServer io mode v .server).2 := by
  cases mode with
  | reverse =>
    simp only [View.connectServer, View.clientNb]
    cases io.connect with
    | none => exact redial_holds h hc
    | some answer =>
      by_cases zero : answer.1 = 0
      · simp only [zero, if_true]
        exact redial_holds h hc
      · simp only [if_neg zero]
        exact openSocket_holds zero h hc
  | tproxy =>
    simp only [View.connectServer, View.plainSocket, noSocket rfl]
    exact redial_holds h hc
  | trapt =>
    unfold View.connectServer View.plainSocket
    cases io.socket with
    | none => exact redial_holds h hc
    | some fd =>
      by_cases zero : fd = 0
      · simp only [zero, if_true]
        exact redial_holds h hc
      · simp only [if_neg zero]
        exact openSocket_holds zero h hc

lemma watchServer_holds {wait : Bool} (h : Holds v) : Holds (View.watchServer io wait v d).2 := by
  unfold View.watchServer
  split
  · refine holds_congr h rfl (fun e => ?_) (fun e => ?_)
    all_goals rcases d.sides e with rfl | rfl <;> simp
  split
  · exact holds_congr h rfl (fun _ => rfl) (fun _ => rfl)
  next x ssl =>
  split
  · exact h
  · have hh' : (v.session.conns d).ssl = some x := ssl
    refine ⟨?_, fun e => ?_⟩
    · have fds : ∀ f : Connection → Connection, (f (v.conn d)).fd = (v.conn d).fd →
          openFds ((v.mapConn d f).ask d fdOut (some .connHandshake)) = openFds v := by
        intro f fd
        refine openFds_congr fun e => ?_
        rcases d.sides e with rfl | rfl
        · simpa using fd
        · simp
      have hh : ∀ f : Connection → Connection, (f (v.conn d)).ssl.isSome = true →
          sslHeld ((v.mapConn d f).ask d fdOut (some .connHandshake)) = sslHeld v := by
        intro f some
        have hs' : (f (v.session.conns d)).ssl.isSome = true := some
        cases d <;> simp [sslHeld, hh', hs', List.filter_cons]
      dsimp only
      rw [fds _ rfl, hh _ rfl]
      exact h.ledger
    · have zero := h.fd e
      rcases d.sides e with rfl | rfl <;> simpa using zero

/-- Whether it succeeds or not. -/
lemma dial_holds {mode : PolicyMode} (h : Holds v) (hc : (v.conn .server).fd < 0)
    (hp : (v.conn .server).ssl = none) (noSocket : mode = .tproxy → io.socket = none)
    : Holds (dial io mode v .server).2 := by
  have holds1 := getServer_holds io h hp
  have fd1 : ((getServer io v .server).2.conn .server).fd = (v.conn .server).fd := by
    unfold getServer
    repeat' split
    all_goals simp
  have holds2 := connectServer_holds io holds1 (by rw [fd1]; exact hc) noSocket
  apply dial_cases (P := fun r => Holds r.2) io mode holds1
  · intro v2 connected
    rwa [connected] at holds2
  · intro wait v2 _ connected
    rw [connected] at holds2
    exact watchServer_holds (d := .server) io holds2

/-- A dial that allocates no SSL object leaves none. -/
lemma dial_plain {mode : PolicyMode} (hp : (v.conn d).ssl = none)
    (hn : io.server ≠ some true ∨ io.sslAlloc = false) :
    ((dial io mode v d).2.conn d).ssl = none := by
  have hp' : (v.session.conns d).ssl = none := hp
  have plain1 : ((getServer io v d).2.conn d).ssl = none := by
    unfold getServer
    split
    · exact hp
    split
    · exact hp
    next usesSsl server =>
    dsimp only
    split
    · simp [hp']
    next ssl =>
    split
    · simp
    next alloc =>
    rw [server] at hn
    rcases hn with no | no
    · exact absurd (by simpa using ssl) no
    · exact absurd no alloc
  have plain2 : ((View.connectServer io mode (getServer io v d).2 d).2.conn d).ssl = none :=
    connectServer_keeps (P := fun v' => (v'.conn d).ssl = none) io mode
      (fun _ h => by simpa [redial] using h)
      (fun _ _ _ h => by simpa [openSocket, redial] using h) plain1
  apply dial_cases (P := fun r => (r.2.conn d).ssl = none) io mode plain1
  · intro v2 hc
    rwa [hc] at plain2
  · intro wait v2 _ hc
    rw [hc] at plain2
    have plain2' : (v2.session.conns d).ssl = none := plain2
    unfold View.watchServer
    split
    · simp [plain2']
    · simp [plain2']

lemma dial_served {mode : PolicyMode} (h : Served v) (hc : (v.conn .server).fd < 0)
    (noSocket : mode = .tproxy → io.socket = none) (hd : (dial io mode v .server).1 = 0)
    : Served (dial io mode v .server).2 := by
  have hr := dial_redials (v := v) (d := .server) io mode
  have hh := dial_holds io h.toHolds hc (h.closed .server hc).1 noSocket
  have ho := dial_opened io mode hd
  have client : (dial io mode v .server).2.conn .client = v.conn .client := hr.peer
  refine ⟨hh, hr.used.trans h.used, by rw [client]; exact h.client, fun e => ?_, fun e => ?_⟩
  · cases e with
    | client => rw [client]; exact h.closed .client
    | server => exact fun hn => absurd ho (by omega)
  · cases e with
    | client => rw [client]; exact h.shut .client
    | server =>
      rw [hr.flags]
      intro hs
      rw [show (v.conn .server).flags.shutWr = false from (h.closed .server hc).2] at hs
      cases hs

end

lemma connFree_holds (h : Holds v) :
    Holds (View.connFree v d) ∧ sslHeld (View.connFree v d) = sslHeld v := by
  have ssl : ∀ e, ((View.connFree v d).conn e).ssl = (v.conn e).ssl := fun e => (connFree_kept e).1
  refine ⟨?_, sslHeld_congr ssl⟩
  by_cases ho : (v.conn d).fd > 0
  · have ho' : 0 < (v.session.conns d).fd := ho
    have log : (View.connFree v d).log = v.log ++ [.sockClose v.id (v.conn d).fd.toNat] := by
      simp [View.connFree, ho', View.giveUp, dropPackets]
    have fds : openFds (View.connFree v d) = (openFds v).erase (v.conn d).fd.toNat ∧
        (v.conn d).fd.toNat ∈ openFds v := by
      cases d with
      | client =>
        by_cases server : 0 < (v.session.conns .server).fd <;>
          simp [openFds, View.connFree, ho', View.giveUp, dropPackets, setKind, server]
      | server =>
        by_cases client : 0 < (v.session.conns .client).fd
        · by_cases he : (v.session.conns .client).fd.toNat = (v.session.conns .server).fd.toNat <;>
            simp [openFds, View.connFree, ho', View.giveUp, dropPackets, setKind, client, he]
        · simp [openFds, View.connFree, ho', View.giveUp, dropPackets, setKind, client]
    refine ⟨?_, fun e => ?_⟩
    · rw [log, ledger_append, h.ledger, fds.1, sslHeld_congr ssl]
      simp [Ledger.record, fds.2]
    · have zero := h.fd e
      rcases d.sides e with rfl | rfl
      · simp [View.connFree, ho', View.giveUp, setKind]
      · simpa [View.connFree, ho', View.giveUp, dropPackets] using zero
  · have hc' : ¬ 0 < (v.session.conns d).fd := ho
    refine holds_congr h ?_ (fun e => ?_) ssl
    · simp [View.connFree, hc']
    · rcases d.sides e with rfl | rfl <;>
        simp [View.connFree, hc', dropPackets, setKind]

/-- The release of a session without an SSL object. -/
lemma free_gone (h : Holds v) (none : sslHeld v = []) (hi : v.used = true) : Gone (free v d) := by
  have hn : Holds (v.note (.released v.id)) :=
    holds_congr h (by simp [Ledger.record]) (fun _ => rfl) (fun _ => rfl)
  obtain ⟨holds1, ssl1⟩ := connFree_holds (d := d) hn
  have ssl1 : sslHeld (View.connFree (v.note (.released v.id)) d) = [] := ssl1.trans none
  have fd1 := connFree_fd (v := v.note (.released v.id)) (d := d) (h.fd d)
  obtain ⟨-, used1, peer1, -⟩ := connFree_frame (v := v.note (.released v.id)) (d := d)
  unfold free
  split
  · refine ⟨fun _ => ⟨?_, ?_⟩, fun hu => ?_⟩
    · refine holds_congr holds1 rfl (fun e => ?_) (fun e => ?_) <;>
        rcases d.peer.sides e with rfl | rfl <;> simp [setKind]
    · rw [← ssl1]
      refine sslHeld_congr fun e => ?_
      rcases d.peer.sides e with rfl | rfl <;> simp [setKind]
    · have hu' : (View.connFree (v.note (.released v.id)) d).used = false := hu
      rw [used1] at hu'
      simp [hi] at hu'
  · refine ⟨fun no => by simp [View.put] at no, fun _ => ?_⟩
    obtain ⟨holds2, ssl2⟩ := connFree_holds (d := d.peer) holds1
    have fd2 := connFree_fd (v := View.connFree (v.note (.released v.id)) d) (d := d.peer) (holds1.fd d.peer)
    obtain ⟨-, -, own2, -⟩ :=
      connFree_frame (v := View.connFree (v.note (.released v.id)) d) (d := d.peer)
    rw [Dir.peer_peer] at own2
    have hc : ∀ e, ¬ 0 < ((View.connFree (View.connFree (v.note (.released v.id)) d)
        d.peer).session.conns e).fd := by
      intro e
      rcases d.sides e with rfl | rfl
      · have := congrArg Connection.fd own2
        simp only [View.conn] at this fd1
        omega
      · simp only [View.conn] at fd2
        omega
    have none2 : openFds (View.connFree (View.connFree (v.note (.released v.id)) d) d.peer) = [] := by
      simp [openFds, hc]
    have held2 : sslHeld (View.connFree (View.connFree (v.note (.released v.id)) d) d.peer) = [] :=
      ssl2.trans ssl1
    simp [View.put, holds2.ledger, none2, held2, Ledger.record, Ledger.empty]

lemma served_free (h : Served v) (hp : Plain v) : Gone (free v d) :=
  free_gone h.toHolds (sslHeld_nil hp) h.used

/-- The second release of a session that is half released. -/
lemma gone_free (h : Gone v) (hi : v.used = true) : Gone (free v d) :=
  free_gone (h.used hi).1 (h.used hi).2 hi

lemma gone_taken (h : Gone v) (hi : v.used = true) : Gone (taken v d) := by
  have ssl : ∀ e, ((taken v d).conn e).ssl = (v.conn e).ssl := by
    intro e
    rcases d.sides e with rfl | rfl <;> simp [setLinked]
  refine ⟨fun _ => ⟨holds_congr (h.used hi).1 ?_ (fun e => ?_) ssl, ?_⟩, fun hu => ?_⟩
  · simp [taken, Ledger.record]
  · rcases d.sides e with rfl | rfl <;> simp [setLinked]
  · rw [sslHeld_congr ssl]
    exact (h.used hi).2
  · have hu' : v.used = false := hu
    rw [hi] at hu'
    cases hu'

/-! ## Every step -/

variable {io : TaskIO}

/-- Only the server is dialled: the client is connected while the session is served. -/
lemma dials_server (h : Served v) (hc : ¬ (v.conn d.peer).fd > 0) : d = .client := by
  cases d with
  | client => rfl
  | server => exact absurd h.client hc

lemma server_closed (h : Served v) (hc : ¬ (v.conn .server).fd > 0) : (v.conn .server).fd < 0 := by
  have zero := h.fd .server
  omega

/-- Where the server is not connected, the joined session can dial it. -/
lemma joined_server (h : Served v) (hc : ¬ (v.conn .server).fd > 0) :
    ((joined v .client).conn .server).fd < 0 ∧ ((joined v .client).conn .server).ssl = none ∧
      ((joined v .client).conn .server).output = View.pending v .client := by
  have hn := server_closed h hc
  have hp : (joined v .client).conn .server =
      { v.conn .server with output := View.pending v .client } := joined_peer
  rw [hp]
  exact ⟨hn, (h.closed .server hn).1, rfl⟩

section

variable (h : Served v)
    (noSocket : ¬ (v.conn d.peer).fd > 0 → v.session.policy = some .tproxy → io.forward.socket = none)
include h noSocket

/-- A forward that succeeds. -/
lemma forward_served (hf : (forwarded io.forward v d).1 = 0) :
    Served (forwarded io.forward v d).2 := by
  obtain ⟨mode, hp⟩ := forwarded_policy hf
  by_cases ho : (v.conn d.peer).fd > 0
  · rw [forward_connected io.forward ho hp]
    exact served_acts joined_acts h
  · rw [forward_dials io.forward ho hp] at hf ⊢
    obtain rfl := dials_server h ho
    exact dial_served io.forward (served_acts joined_acts h) (joined_server h ho).1
      (fun ht => noSocket ho (by rw [hp, ht])) hf

/-- Whether it succeeds or not. -/
lemma forward_holds : Holds (forwarded io.forward v d).2 := by
  cases hp : v.session.policy with
  | none =>
    rw [forward_unset io.forward hp]
    exact (served_acts parsed_acts h).toHolds
  | some mode =>
    by_cases ho : (v.conn d.peer).fd > 0
    · rw [forward_connected io.forward ho hp]
      exact (served_acts joined_acts h).toHolds
    · rw [forward_dials io.forward ho hp]
      obtain rfl := dials_server h ho
      obtain ⟨hc, plain, -⟩ := joined_server h ho
      exact dial_holds io.forward (served_acts joined_acts h).toHolds hc plain
        fun ht => noSocket ho (by rw [hp, ht])

end

lemma forward_plain (h : Plain v)
    (hn : (v.conn d.peer).fd > 0 ∨ io.forward.server ≠ some true ∨ io.forward.sslAlloc = false) :
    Plain (forwarded io.forward v d).2 := by
  have hj := plain_acts (joined_acts (d := d)) h
  cases hp : v.session.policy with
  | none =>
    rw [forward_unset io.forward hp]
    exact plain_acts parsed_acts h
  | some mode =>
    by_cases ho : (v.conn d.peer).fd > 0
    · rw [forward_connected io.forward ho hp]
      exact hj
    · rw [forward_dials io.forward ho hp]
      intro e
      rcases d.peer.sides e with rfl | rfl
      · exact dial_plain io.forward (hj d.peer) (hn.resolve_left ho)
      · rw [(dial_redials io.forward mode).peer]
        exact hj d.peer.peer

/-- A forward that finds the server connected or can dial it, and the send behind it. -/
lemma forward_ready (h : Served v) {mode : PolicyMode} (hp : v.session.policy = some mode)
    (hc : (v.conn d.peer).fd > 0 ∨ dials io.forward mode = true)
    (hs : .failed ∉ sendResults (v.conn d.peer).ssl.isSome io.send (View.pending v d)) :
    (forwarded io.forward v d).1 = 0 ∧
    (View.send io.send (forwarded io.forward v d).2 d.peer).1 = 0 := by
  by_cases ho : (v.conn d.peer).fd > 0
  · rw [forward_connected io.forward ho hp]
    refine ⟨rfl, send_succeeds (by rw [joined_peer]; exact ho) (.inr ?_)⟩
    rw [joined_peer]
    exact hs
  · rw [forward_dials io.forward ho hp]
    obtain rfl := dials_server h ho
    obtain ⟨-, plain, output⟩ := joined_server h ho
    have hb : (v.conn Dir.client.peer).ssl = none := (h.closed .server (server_closed h ho)).1
    rw [hb, ← output, ← (dial_redials io.forward mode).output] at hs
    have hd := dial_succeeds io.forward plain (hc.resolve_left ho)
    refine ⟨hd, send_succeeds (dial_opened io.forward mode hd) ?_⟩
    refine (dial_ready io.forward mode hd).imp_right fun none => ?_
    -- without an SSL object the answers are those of `sk_send`
    rw [show ((dial io.forward mode (joined v .client) Dir.client.peer).2.conn
      Dir.client.peer).ssl = .none from none]
    exact hs

lemma forward_gone (h : Served v) (hk : (v.conn d).task.kind = .parse) (ok : withoutSsl.task v d io)
    (hf : (forwarded io.forward v d).1 ≠ 0) : Gone (free
      (forwarded io.forward v d).2 d) := by
  obtain ⟨noSocket, ⟨hp, hn⟩ | ⟨⟨mode, policy, hc⟩, hs⟩⟩ := ok.2.2 hk
  · refine free_gone (forward_holds h noSocket) (sslHeld_nil (forward_plain hp hn)) ?_
    rw [(forward_frame io.forward).2.1]
    exact h.used
  · have hr := forward_ready h policy hc hs
    exact absurd hr.1 hf

lemma parse_ends (h : Served v) (hk : (v.conn d).task.kind = .parse) (ok : withoutSsl.task v d io)
    (hf : (forwarded io.forward v d).1 = 0) : Ends Served Gone d (View.send io.send
      (forwarded io.forward v d).2 d.peer) := by
  obtain ⟨noSocket, may⟩ := ok.2.2 hk
  have sent := served_acts (send_acts (d := d.peer) io.send) (forward_served h noSocket hf)
  refine ⟨fun failed => ?_, fun _ => sent⟩
  rcases may with ⟨hp, hn⟩ | ⟨⟨mode, policy, hc⟩, hs⟩
  · exact served_free sent (plain_acts (send_acts io.send) (forward_plain hp hn))
  · have hr := forward_ready h policy hc hs
    exact absurd hr.2 failed

lemma send_ends (h : Served v) (hk : (v.conn d).task.kind = .send) (ok : withoutSsl.task v d io) :
    Ends Served Gone d (View.send io.send (taken v d) d) := by
  have sent := served_acts (send_acts (d := d) io.send) (served_acts (taken_acts (d := d)) h)
  refine ⟨fun hf => ?_, fun _ => sent⟩
  rcases ok.2.1 hk with hp | ⟨ho, hs⟩
  · exact served_free sent (plain_acts (send_acts io.send) (plain_acts taken_acts hp))
  · refine absurd (send_succeeds ?_ (.inr ?_)) hf
    · rw [taken_conn]
      exact ho
    · rw [taken_conn]
      exact hs

lemma accepted_served {v : View} {l : ListenerFd} {fd : Nat} (pos : fd ≠ 0)
    (h : ledger v.log = .empty) : Served (accepted v l fd) := by
  have client := accepted_client v l fd
  have server := accepted_server v l fd
  refine ⟨⟨?_, fun e => ?_⟩, rfl, ?_, fun e => ?_, fun e => ?_⟩
  · have log : ledger (accepted v l fd).log =
        ⟨[fd], if l.sslctx then [.client] else [], true, true⟩ := by
      cases ssl : l.sslctx <;> simp [accepted, opening, h, Ledger.record, Ledger.empty, ssl]
    have fds : openFds (accepted v l fd) = [fd] := by
      simp [openFds, connInit, client, server, Nat.pos_of_ne_zero pos]
    have hh : sslHeld (accepted v l fd) = if l.sslctx then [.client] else [] := by
      cases ssl : l.sslctx <;> simp [sslHeld, client, server, connInit, ssl]
    rw [log, fds, hh]
  · cases e <;> simp [client, server, connInit, pos]
  · simpa [client] using Nat.pos_of_ne_zero pos
  · cases e with
    | client =>
      intro hn
      simp [client] at hn
      omega
    | server => simp [server, connInit, ConnFlags.none]
  · cases e <;> simp [client, server, connInit, ConnFlags.none]

lemma refused_gone {v v' : View} (h : ledger v.log = .empty) (hr : Refuses v v') : Gone v' := by
  obtain ⟨fd, ssl, log⟩ := hr.log
  refine ⟨fun hi => by simp [hr.used] at hi, fun _ => ?_⟩
  rw [log, ledger_append, h]
  cases ssl <;> simp [opening, refusing, Ledger.record, Ledger.empty]

lemma withoutSsl_serves : Serves Served Gone withoutSsl where
  start hu _ empty := ⟨fun hi => by simp [hu] at hi, fun _ => by rw [empty]; rfl⟩
  accept h hu pos := accepted_served pos (h.unused hu)
  refuse h hu refuses := refused_gone (h.unused hu) refuses
  deliver h _ _ _ := served_act (d := .client) (.edit (deliver_edits _ _)) h
  late {v d bytes fin} h := by
    have he := deliver_edits (v := v) (d := d) bytes fin
    refine ⟨fun hi => ⟨holds_congr (h.used hi).1 rfl he.fd he.ssl, ?_⟩, h.unused⟩
    rw [sslHeld_congr he.ssl]
    exact (h.used hi).2
  call h hc _ := served_acts (call_acts _ _ _ hc.opened) h
  idle h _ _ := served_acts taken_acts h
  delete h _ hk ok := served_free (served_acts taken_acts h) (plain_acts taken_acts (ok.1 hk))
  forward h _ hk ok failed := forward_gone h hk ok failed
  parse h _ hk ok forwarded := parse_ends h hk ok forwarded
  send h _ hk ok := send_ends h hk ok
  closed h both := served_free h fun e => h.shut e (Bool.and_eq_true_iff.mp (both e)).2
  free h _ plain := served_free h plain
  rest h hi _ := gone_free (gone_taken h hi) hi
  again h hi _ _ := gone_free h hi

/-! ## Every run -/

/-- In every run whose releases find no SSL object, every session that is returned to the
pool has closed each of its sockets and freed each of its SSL objects once. -/
theorem release_balanced (maxfd naccept : Nat) (opened : Nat → Bool) {actions : List Action}
    (along : Along workerStep withoutSsl.allow actions (Worker.start maxfd naccept opened)) :
    Ensures (runWorker actions) (Worker.start maxfd naccept opened)
      (fun _ w => ReleasesBalanced w) (fun _ _ => True) := by
  refine (withoutSsl_serves.kept.run maxfd naccept opened along).imp_true (fun _ w h s => ?_)
  have log : (view w s).log = noted s w.log := rfl
  rw [← log]
  rcases h.2 s with ⟨-, hs⟩ | ⟨hg, -⟩
  · rw [hs.ledger]
  · cases hu : (view w s).used with
    | true => rw [(hg.used hu).1.ledger]
    | false =>
      rw [hg.unused hu]
      rfl

/-- An SSL client and a plain server each send and close; the client's SSL shutdown completes,
and then the policy is deleted. -/
def sslClosed : List Action :=
  acceptRound .reverse true ++ polls [((4, epollIn), willing)] ++
    .runTask (relays false false maxPktLen) :: .deliver 0 .client [7, 9] true ::
    polls [((4, epollIn ||| epollRdHup), receives 2)] ++
    .runTask (relays false false maxPktLen) :: .deliver 0 .server [3] true ::
    polls [((5, epollIn ||| epollRdHup), receives 1)] ++
    .runTask (relays false false maxPktLen) :: polls [((4, epollOut), willing)] ++ [.delPolicy 0]

theorem release_balanced_sslClosed :
    Along workerStep withoutSsl.allow sslClosed (Worker.start 16 1 fun _ => false) ∧
    Ensures (runWorker sslClosed) (Worker.start 16 1 fun _ => false)
      (fun _ w => ReleasesBalanced w) (fun _ _ => True) :=
  ⟨by decide +kernel, release_balanced 16 1 (fun _ => false) (by decide +kernel)⟩

/-- An SSL client whose connection fails before its handshake. -/
def sslLost : List Action :=
  acceptRound .reverse true ++ polls [((4, epollIn ||| epollErr), willing)] ++
    [.runTask (relays false false maxPktLen)]

/-- A transparent policy: socket 5 is opened and then replaced by socket 6. -/
def socketReplaced : List Action :=
  acceptRound .tproxy false ++ .deliver 0 .client [7, 9] false :: polls [((4, epollIn), receives 2)] ++
    [.runTask ⟨⟨true, some false, true, some 5, some (6, false), true⟩, (relays false false 2).send⟩,
      .delPolicy 0]

/-- Both sessions are put back while an SSL object or a socket is still held. -/
theorem release_leaks :
    Ensures (runWorker sslLost) emptyWorker (fun _ w => ¬ ReleasesBalanced w) (fun _ _ => False) ∧
    Ensures (runWorker socketReplaced) emptyWorker (fun _ w => ¬ ReleasesBalanced w) (fun _ _ => False) := by
  have hl : Ensures (runWorker sslLost) emptyWorker
      (fun _ w => (ledger (noted 0 w.log)).balanced = false) (fun _ _ => False) := by decide +kernel
  have hr : Ensures (runWorker socketReplaced) emptyWorker
      (fun _ w => (ledger (noted 0 w.log)).balanced = false) (fun _ _ => False) := by decide +kernel
  exact ⟨hl.imp (fun _ _ hu all => by simp [all 0] at hu),
    hr.imp (fun _ _ hu all => by simp [all 0] at hu)⟩

end Fzsvn.Guarantees.Proxy.ReleaseBalance
