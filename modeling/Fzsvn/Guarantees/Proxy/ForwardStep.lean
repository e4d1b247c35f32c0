import Fzsvn.Guarantees.Proxy.Lifecycle

/-!
# What `session_forward` does

The forward step moves what is staged to the output list of the connection and dials the
server if the connection has no descriptor yet. Whether the send step that follows calls
`send` or waits for a handshake can be told from the answers of the system calls.
-/
namespace Fzsvn.Guarantees.Proxy.ForwardStep
open Library.Exec Source.Proxy Locality Session

/-! ## When the send step calls `send` -/

/-- The server's connection is there at once, as descriptor `fd`. -/
def ConnectsAtOnce (io : ForwardIO) (w : Worker) (mode : PolicyMode) (fd : Nat) : Prop :=
  w.opened fd = false ∧ fd ≠ 0 ∧
    match mode with
    | .reverse => io.connect = some (fd, false)
    | .tproxy => io.connect = some (fd, false) ∧
        ∃ first, io.socket = some first ∧ w.opened first = false ∧ first ≠ 0 ∧ fd ≠ first
    | .trapt => io.socket = some fd

/-- A server without SSL is chosen, it is connected at once, and the table has a place for
the descriptor. -/
structure DialsAtOnce (io : ForwardIO) (w : Worker) (mode : PolicyMode) (fd : Nat) : Prop where
  spdata : io.spdata = true
  server : io.server = some false
  connects : ConnectsAtOnce io w mode fd
  inside : fd < w.epoll.fe.maxfd
  room : w.epoll.fe.updates.length < w.epoll.fe.maxfd

/-- The send step behind a forward step to `d` calls `send`. -/
structure SendsAtOnce (io : ForwardIO) (w : Worker) (s : Nat) (d : Dir) : Prop where
  hsk : (w.conn s d).flags.hsk = false
  sslHsk : (w.conn s d).flags.sslHsk = false
  connected : (w.conn s d).fd > 0 ∨ (w.conn s d).ssl = none ∧
    ∃ mode fd, (w.sessions s).policy = some mode ∧ DialsAtOnce io w mode fd

/-- What the forward step hands to a send step that calls `send`. -/
structure Ready (w : Worker) (s : Nat) (d : Dir) (w' : Worker) : Prop where
  fd : (w'.conn s d).fd > 0
  hsk : (w'.conn s d).flags.hsk = false
  sslHsk : (w'.conn s d).flags.sslHsk = false
  ssl : (w'.conn s d).ssl.isSome = (w.conn s d).ssl.isSome
  output : (w'.conn s d).output = (w.conn s d).output ++ (w.sessions s).staged d.peer

section

variable {s : Nat} {d : Dir} {w : Worker} {io : ForwardIO} {mode : PolicyMode}

/-- Nothing but the connection was rewritten, and descriptors only opened. -/
structure Redialed (s : Nat) (d : Dir) (fd : Nat) (w w' : Worker) : Prop where
  conn : w'.conn s d = { w.conn s d with fd := fd, sock := .fresh }
  table : w'.epoll.fe = w.epoll.fe

variable {fd : Nat}

lemma connectServer_atOnce (h : ConnectsAtOnce io w mode fd) : Ensures (connectServer io mode s d) w
      (fun wait w' => wait = some false ∧ Redialed s d fd w w') (fun _ _ => False) := by
  obtain ⟨hc, pos, hd⟩ := h
  cases mode with
  | reverse =>
    simp only at hd
    simp [connectServer, clientNb, openFd, hd, hc, pos]
    exact ⟨by simp, rfl⟩
  | tproxy =>
    obtain ⟨connect, first, hs, hc', hp', different⟩ := hd
    simp [connectServer, plainSocket, clientNb, openFd, hs, connect, hc, pos, hc', hp',
      different]
    exact ⟨by simp, rfl⟩
  | trapt =>
    simp only at hd
    simp [connectServer, plainSocket, openFd, hd, hc, pos]
    exact ⟨by simp, rfl⟩

lemma clientNb_connects : Ensures (clientNb io s d) w
      (fun r w' => ∀ wait, r = some wait → ∃ fd, io.connect = some (fd, wait) ∧
        w.opened fd = false ∧ fd ≠ 0 ∧ Redialed s d fd w w') (fun _ _ => True) := by
  unfold clientNb
  split
  · simp
  · next fd wait connect =>
    simp only [ensures_bind, openFd, ensures_takeFd, ensures_emit, ensures_modifyConn, ensures_pure]
    constructor
    · rintro ⟨hc, pos⟩ wait' he
      cases he
      exact ⟨fd, connect, hc, pos, by simp, rfl⟩
    · exact fun _ => trivial

lemma plainSocket_opens : Ensures (plainSocket io s d) w
      (fun ok w' => ok = true → ∃ fd, io.socket = some fd ∧ w.opened fd = false ∧ fd ≠ 0 ∧
        Redialed s d fd w w' ∧ w'.opened = Function.update w.opened fd true)
      (fun _ _ => True) := by
  unfold plainSocket
  split
  · simp
  · next fd socket =>
    simp only [ensures_bind, openFd, ensures_takeFd, ensures_emit, ensures_modifyConn, ensures_pure]
    constructor
    · rintro ⟨hc, pos⟩ -
      exact ⟨fd, socket, hc, pos, ⟨by simp, rfl⟩, rfl⟩
    · exact fun _ => trivial

lemma connectServer_connects (w : Worker) : Ensures (connectServer io mode s d) w
      (fun r w' => ∀ wait, r = some wait → ∃ fd, Redialed s d fd w w' ∧
        (wait = false → ConnectsAtOnce io w mode fd)) (fun _ _ => True) := by
  cases mode with
  | reverse =>
    refine (clientNb_connects).imp (fun r w' h wait some => ?_)
    obtain ⟨fd, connect, hc, pos, hr⟩ := h wait some
    exact ⟨fd, hr, fun now => ⟨hc, pos, by rw [connect, now]⟩⟩
  | tproxy =>
    simp only [connectServer, ensures_bind]
    refine (plainSocket_opens).imp (fun ok w1 h1 => ?_)
    rw [ensures_ite, ensures_pure]
    refine ⟨fun _ _ none => (by cases none), fun ok => ?_⟩
    obtain ⟨first, hs, closed1, pos1, redialed1, opened1⟩ := h1 (by simpa using ok)
    refine (clientNb_connects).imp (fun r w' h wait some => ?_)
    obtain ⟨fd, connect, hc, pos, hr⟩ := h wait some
    have different : fd ≠ first := by
      rintro rfl
      simp [opened1] at hc
    rw [opened1, Function.update_of_ne different] at hc
    refine ⟨fd, ⟨by rw [hr.conn, redialed1.conn], hr.table.trans redialed1.table⟩,
      fun now => ⟨hc, pos, by rw [connect, now], first, hs, closed1, pos1, different⟩⟩
  | trapt =>
    simp only [connectServer, ensures_bind, ensures_pure]
    refine (plainSocket_opens).imp (fun ok w1 h1 wait some => ?_)
    cases ok with
    | false => cases some
    | true =>
      obtain ⟨fd, hs, hc, pos, hr, -⟩ := h1 rfl
      exact ⟨fd, hr, fun _ => ⟨hc, pos, hs⟩⟩

lemma sessionGetServer_plain (spdata : io.spdata = true) (hs : io.server = some false)
    (hw : (w.sessions s).worker = true) (hp : (w.sessions s).policy.isSome = true) :
    Ensures (sessionGetServer io s d) w
      (fun ret w' => ret = 0 ∧ w'.conn s d = w.conn s d ∧ w'.epoll = w.epoll ∧ w'.opened = w.opened)
      (fun _ _ => False) := by
  have ho : (((w.emit (.field s)).emit (.field s)).mapSession s
    (·.chooseServer false)).opened = w.opened := rfl
  have hp' : ¬ (w.sessions s).policy = none := Option.isSome_iff_ne_none.mp hp
  simp [sessionGetServer, spdata, hs, hw, ho, hp']

lemma sessionGetServer_chooses : Ensures (sessionGetServer io s d) w
      (fun ret w' => ret = 0 → io.spdata = true ∧ w'.epoll = w.epoll ∧ w'.opened = w.opened ∧
        ((w'.conn s d).ssl = none → io.server = some false ∧ w'.conn s d = w.conn s d))
      (fun _ _ => True) := by
  simp only [sessionGetServer, ensures_bind, ensures_session, ensures_require]
  refine ⟨fun _ => ⟨fun _ => ?_, fun _ => trivial⟩, fun _ => trivial⟩
  rw [ensures_ite, ensures_pure]
  refine ⟨fun _ hf => absurd hf (by decide), fun spdata => ?_⟩
  split
  · exact (ensures_pure _).mpr fun hf => absurd hf (by decide)
  · next usesSsl hs =>
    cases usesSsl with
    | false =>
      simp only [ensures_bind, ensures_modifySession, ensures_pure, if_true]
      exact fun _ => ⟨by simpa using spdata, by simp, funext fun _ => by simp, fun _ => ⟨hs, by simp⟩⟩
    | true =>
      simp only [ensures_bind, ensures_modifySession]
      rw [if_neg (by simp)]
      simp only [ensures_bind, ensures_onlyIf, ensures_emit, ensures_modifyConn, ensures_pure]
      refine ⟨fun ha _ => ⟨by simpa using spdata, by simp, funext fun _ => by simp, ?_⟩, fun hn hf => ?_⟩
      · simp [ha]
      · simp [hn] at hf

lemma request_ne_none {fe : FdEpoll Arg Callback} (hr : fe.updates.length < fe.maxfd) {events : Mask}
    (iocb : Option Callback) : fe.request fd events iocb ≠ none := by
  simp only [FdEpoll.request, hr, if_true]
  split <;> simp

lemma watchServer_atOnce (ssl : (w.conn s d).ssl = none) (hfd : (w.conn s d).fd = fd)
    (hi : fd < w.epoll.fe.maxfd) (hr : w.epoll.fe.updates.length < w.epoll.fe.maxfd) :
    Ensures (watchServer io false s d) w (fun ret w' => ret = 0 ∧ w'.conn s d = w.conn s d)
      (fun _ _ => False) := by
  have hs' : ((w.sessions s).conns d).ssl = none := ssl
  have hh' : ((w.sessions s).conns d).fd = fd := hfd
  simp [watchServer, hs', hh', hi, request_ne_none hr]

/-- The tail of `session_forward` on a connection without SSL that is there at once. -/
lemma claimServer_atOnce (ssl : (w.conn s d).ssl = none)
    (hfd : (w.conn s d).fd = fd) (hi : fd < w.epoll.fe.maxfd)
    (hr : w.epoll.fe.updates.length < w.epoll.fe.maxfd) : Ensures
      (do
        let c ← conn s d
        let i ← itemOf c.fd
        writeItem i fun _ => freshItem (.conn s d)
        let ret ← watchServer io false s d
        return if ret ≠ 0 then -1 else 0 : Run Int) w
      (fun ret w' => ret = 0 ∧ w'.conn s d = w.conn s d) (fun _ _ => False) := by
  have hh' : ((w.sessions s).conns d).fd = fd := hfd
  simp only [ensures_bind, ensures_conn, ensures_itemOf, ensures_writeItem, ensures_pure, hh',
    Int.toNat_natCast]
  have hi' : ((w.emit (.field s)).epoll.fe.maxfd : Int) > fd := by
    have : (w.emit (.field s)).epoll.fe.maxfd = w.epoll.fe.maxfd := rfl
    omega
  refine ⟨fun _ _ => ⟨fun _ => ?_, fun out => ?_⟩, fun out => by omega⟩
  · refine (watchServer_atOnce (w := (w.emit (.field s)).mapItem fd fun _ => freshItem (.conn s d))
      ssl hfd hi hr).imp (fun ret w' h => ?_)
    exact ⟨by simp [h.1], h.2⟩
  · exact absurd hi (Nat.not_lt.mpr out)

lemma sessionForward_ready (h : SendsAtOnce io w s d) (hw : (w.sessions s).worker = true)
    (hp : (w.sessions s).policy.isSome = true) :
    Ensures (sessionForward io s d) w (fun ret w' => ret = 0 ∧ Ready w s d w') (fun _ _ => False) := by
  obtain ⟨mode, hp⟩ := Option.isSome_iff_exists.mp hp
  obtain ⟨hsk, hs, connected⟩ := h
  by_cases ho : (w.conn s d).fd > 0
  · have ho' : 0 < ((w.sessions s).conns d).fd := ho
    simp [sessionForward, hw, hp, ho', joinOutput]
    exact ⟨by simpa using ho', by simpa using hsk, by simpa using hs, by simp, by simp⟩
  · obtain ⟨ssl, mode', fd, hp', hd⟩ := connected.resolve_left ho
    cases hp.symm.trans hp'
    simp only [sessionForward, ensures_bind, ensures_session, ensures_require, hw, hp,
      ensures_modifySession]
    refine ⟨fun _ => ?_, fun bad => absurd trivial bad⟩
    rw [if_neg ho]
    simp only [ensures_bind]
    refine (sessionGetServer_plain hd.spdata hd.server ?_ ?_).imp (fun ret w1 h1 => ?_)
    · simpa [joinOutput] using hw
    · simp [joinOutput, hp]
    obtain ⟨rfl, conn1, epoll1, opened1⟩ := h1
    rw [if_neg (by simp)]
    simp only [ensures_bind]
    have hc : ConnectsAtOnce io w1 mode fd := by
      unfold ConnectsAtOnce
      rw [opened1]
      exact hd.connects
    refine (connectServer_atOnce hc).imp (fun wait w2 h2 => ?_)
    obtain ⟨rfl, hr⟩ := h2
    have conn2 : w2.conn s d = { w.conn s d with
        fd := fd
        sock := .fresh
        output := (w.conn s d).output ++ (w.sessions s).staged d.peer } := by
      rw [hr.conn, conn1]
      simp [joinOutput]
    have table2 : w2.epoll.fe = w.epoll.fe := by
      rw [hr.table, epoll1]
      rfl
    have fd2 : (w2.conn s d).fd = fd := by rw [conn2]
    have ssl2 : (w2.conn s d).ssl = none := by
      rw [conn2]
      exact ssl
    refine (claimServer_atOnce ssl2 fd2 (by rw [table2]; exact hd.inside)
      (by rw [table2]; exact hd.room)).imp (fun ret w' h => ?_)
    obtain ⟨rfl, hl⟩ := h
    have pos := hd.connects.2.1
    refine ⟨rfl, ?_, ?_, ?_, ?_, ?_⟩
    all_goals rw [hl, conn2]
    · show (fd : Int) > 0
      omega
    · exact hsk
    · exact hs

/-- A connection that need not wait for its handshake is plain, there at once and known
to the table. -/
lemma claimServer_waits {wait : Bool} : Ensures
      (do
        let c ← conn s d
        let i ← itemOf c.fd
        writeItem i fun _ => freshItem (.conn s d)
        let ret ← watchServer io wait s d
        return if ret ≠ 0 then -1 else 0 : Run Int) w
      (fun ret w' => ret = 0 → (w'.conn s d).flags.hsk = false → (w'.conn s d).flags.sslHsk = false →
        wait = false ∧ w'.conn s d = w.conn s d ∧ (w.conn s d).ssl = none ∧
          (w.conn s d).fd < w.epoll.fe.maxfd ∧ w.epoll.fe.updates.length < w.epoll.fe.maxfd)
      (fun _ _ => True) := by
  simp only [ensures_bind, ensures_conn, ensures_itemOf, ensures_writeItem, ensures_pure]
  refine ⟨fun pos _ => ⟨fun hi => ?_, fun _ => trivial⟩, fun _ => trivial⟩
  have hp' : 0 ≤ (w.conn s d).fd := pos
  simp only [watchServer, ensures_bind, ensures_conn]
  rw [ensures_ite]
  refine ⟨fun _ => by simp, fun now => ?_⟩
  split
  · next ssl =>
    simp only [ensures_addEvent]
    refine ⟨fun _ hf => by simp at hf, fun _ hi => ⟨fun fe hr _ _ _ => ?_, fun _ => trivial⟩⟩
    refine ⟨by simpa using now, rfl, ssl, hi, ?_⟩
    by_contra full
    simp [FdEpoll.request, freshItem, full] at hr
  · rw [ensures_ite, ensures_pure]
    exact ⟨fun _ hf => by simp at hf, fun _ => by simp⟩

lemma sendsAtOnce_of_forward (w : Worker) : Ensures (sessionForward io s d) w
      (fun ret w' => ret = 0 → (w'.conn s d).flags.hsk = false →
        (w'.conn s d).flags.sslHsk = false → SendsAtOnce io w s d ∧ Ready w s d w')
      (fun _ _ => True) := by
  simp only [sessionForward, ensures_bind, ensures_session, ensures_require]
  refine ⟨fun _ => ?_, fun _ => trivial⟩
  split
  · exact (ensures_throw _).mpr trivial
  · next mode policy =>
    simp only [ensures_bind, ensures_modifySession]
    rw [ensures_ite, ensures_pure]
    refine ⟨fun ho _ hsk sslHsk => ?_, fun ho => ?_⟩
    · have ho' : (w.conn s d).fd > 0 := ho
      refine ⟨⟨?_, ?_, .inl ho'⟩, ?_, hsk, sslHsk, ?_, ?_⟩
      · simpa [joinOutput] using hsk
      · simpa [joinOutput] using sslHsk
      · simpa [joinOutput] using ho'
      · simp [joinOutput]
      · simp [joinOutput]
    simp only [ensures_bind]
    refine (sessionGetServer_chooses).imp (fun ret w1 h1 => ?_)
    rw [ensures_ite, ensures_pure]
    refine ⟨fun _ hf => by simp at hf, fun ok => ?_⟩
    obtain ⟨spdata, epoll1, opened1, hp⟩ := h1 (not_not.mp ok)
    simp only [ensures_bind]
    refine (connectServer_connects w1).imp (fun r w2 h2 => ?_)
    cases r with
    | none => exact (ensures_pure _).mpr fun hf => by simp at hf
    | some wait =>
      obtain ⟨fd, redialed, hc⟩ := h2 wait rfl
      refine (claimServer_waits).imp (fun ret w' h => ?_)
      intro ok hsk sslHsk
      obtain ⟨rfl, hl, ssl, hi, hr⟩ := h ok hsk sslHsk
      have table2 : w2.epoll.fe = w.epoll.fe := by
        rw [redialed.table, epoll1]
        rfl
      have ssl1 : (w1.conn s d).ssl = none := by
        rw [redialed.conn] at ssl
        exact ssl
      obtain ⟨hs, conn1⟩ := hp ssl1
      have conn2 : w2.conn s d = { w.conn s d with
          fd := fd
          sock := .fresh
          output := (w.conn s d).output ++ (w.sessions s).staged d.peer } := by
        rw [redialed.conn, conn1]
        simp [joinOutput]
      have hc' : ConnectsAtOnce io w mode fd := by
        have := hc rfl
        unfold ConnectsAtOnce at this
        rw [opened1] at this
        exact this
      rw [hl, conn2] at hsk sslHsk
      rw [conn2] at ssl hi
      rw [table2] at hi hr
      have pos := hc'.2.1
      refine ⟨⟨hsk, sslHsk, .inr ⟨ssl, mode, fd, policy, spdata, hs, hc', ?_, hr⟩⟩,
        ?_, ?_, ?_, ?_, ?_⟩
      · have : (fd : Int) < w.epoll.fe.maxfd := hi
        omega
      all_goals rw [hl, conn2]
      · show (fd : Int) > 0
        omega
      · exact hsk
      · exact sslHsk

end

end Fzsvn.Guarantees.Proxy.ForwardStep
