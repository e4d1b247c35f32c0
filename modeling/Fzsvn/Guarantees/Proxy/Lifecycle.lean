import Fzsvn.Guarantees.Proxy.Locality

/-!
# Serving one session, and its life from accept to release

What the rest of the worker can rely on while code of one session runs: other
sessions, the items of their descriptors and the listeners stay as they are. Then the
effects of dialling the server, of releasing a session and of accepting one.
-/
namespace Fzsvn.Guarantees.Proxy.Lifecycle
open Library.Exec Source.Proxy Locality List Function
open Worker (item setTable_epoll_fe)

/-- What a listener is known by. -/
def keys (w : Worker) : List (Nat × Int) := w.lfds.map fun l => (l.addr, l.fd)

/-- Code of session `s` ran. It may have taken descriptors that were free, and it may
have given up its own. -/
structure Apart (s : Nat) (w w' : Worker) : Prop where
  sessions : ∀ r, r ≠ s → w'.sessions r = w.sessions r
  used : ∀ r, r ≠ s → w'.used r = w.used r
  notes : Notes s w w'
  fds : ∀ d, (w'.conn s d).fd < 0 ∨ (∃ e, (w'.conn s d).fd = (w.conn s e).fd) ∨
    ∃ i : Nat, (w'.conn s d).fd = i ∧ w.opened i = false
  keys : keys w' = keys w
  naccept : w'.naccept = w.naccept
  phase : w'.phase = w.phase
  maxfd : w'.epoll.fe.maxfd = w.epoll.fe.maxfd
  updates : ∀ i ∈ w.epoll.fe.updates, i ∈ w'.epoll.fe.updates
  kept : ∀ i : Nat, w.opened i = true → (∀ d, (w.conn s d).fd ≠ i) →
    w'.opened i = true ∧ w'.item i = w.item i ∧ w'.epoll.interest i = w.epoll.interest i
  unflushed : Unflushed w w'

/-- And it scheduled nothing. -/
structure Solo (s : Nat) (w w' : Worker) : Prop extends Apart s w w' where
  linked : ∀ d, (w'.conn s d).task.linked = (w.conn s d).task.linked
  armed : ∀ d, (w'.conn s d).task.armed = (w.conn s d).task.armed
  worker : (w'.sessions s).worker = (w.sessions s).worker
  policy : (w'.sessions s).policy = (w.sessions s).policy
  own : w'.used s = w.used s
  taskq : w'.taskq = w.taskq
  ntask : w'.ntask = w.ntask
  log : schedule w'.log = schedule w.log

/-- `fds` names no descriptors but those of session `s`. -/
def Within (fds : Dir → Int) (w : Worker) (s : Nat) : Prop :=
  ∀ d (i : Nat), fds d = i → (w.conn s d).fd = i

lemma within_fdsOf (w : Worker) (s : Nat) : Within (fdsOf w s) w s := fun _ _ h => h

lemma within_only {w : Worker} {s : Nat} {d : Dir} {fd : Int} (hs : Served w s d fd) :
    Within (only d fd) w s := by
  intro e i h
  by_cases he : e = d
  · subst he
    rw [only_self] at h
    exact hs.fd.trans h
  · simp only [only, he, if_false] at h
    omega

variable {fds : Dir → Int} {w w' : Worker} {w1 w2 w3 : Worker}

variable {s : Nat} {d : Dir}

lemma apart_trans (h1 : Apart s w1 w2) (h2 : Apart s w2 w3) : Apart s w1 w3 where
  sessions r hr := (h2.sessions r hr).trans (h1.sessions r hr)
  used r hr := (h2.used r hr).trans (h1.used r hr)
  notes := notes_trans h1.notes h2.notes
  fds d := by
    rcases h2.fds d with hc | ⟨e, he⟩ | ⟨i, new, hf⟩
    · exact .inl hc
    · rw [he]
      exact h1.fds e
    · cases hb : w1.opened i with
      | false => exact .inr (.inr ⟨i, new, hb⟩)
      | true =>
        -- a descriptor that was open and no longer is was one of the session's own
        right
        left
        by_contra hn
        have kept := h1.kept i hb fun e h => hn ⟨e, new.trans h.symm⟩
        rw [hf] at kept
        exact absurd kept.1 (by simp)
  keys := h2.keys.trans h1.keys
  naccept := h2.naccept.trans h1.naccept
  phase := h2.phase.trans h1.phase
  maxfd := h2.maxfd.trans h1.maxfd
  updates i hi := h2.updates i (h1.updates i hi)
  kept i ho own := by
    obtain ⟨opened1, item1, interest1⟩ := h1.kept i ho own
    have own1 : ∀ d, (w2.conn s d).fd ≠ i := by
      intro d hd
      rcases h1.fds d with hc | ⟨e, he⟩ | ⟨j, new, hf⟩
      · omega
      · exact own e (he.symm.trans hd)
      · have : j = i := by omega
        subst this
        rw [ho] at hf
        cases hf
    obtain ⟨opened2, item2, interest2⟩ := h2.kept i opened1 own1
    exact ⟨opened2, item2.trans item1, interest2.trans interest1⟩
  unflushed := unflushed_trans h1.unflushed h2.unflushed

lemma solo_refl (w : Worker) : Solo s w w := by
  refine ⟨⟨?_, ?_, notes_of_log rfl, fun d => .inr (.inl ⟨d, rfl⟩), rfl, rfl, rfl, rfl,
    fun _ h => h, ?_, unflushed_refl w⟩, ?_, ?_, rfl, rfl, rfl, rfl, rfl, rfl⟩
  all_goals intros
  all_goals first | rfl | exact ⟨‹_›, rfl, rfl⟩

lemma Solo.trans (h1 : Solo s w1 w2) (h2 : Solo s w2 w3) : Solo s w1 w3 where
  toApart := apart_trans h1.toApart h2.toApart
  linked d := (h2.linked d).trans (h1.linked d)
  armed d := (h2.armed d).trans (h1.armed d)
  worker := h2.worker.trans h1.worker
  policy := h2.policy.trans h1.policy
  own := h2.own.trans h1.own
  taskq := h2.taskq.trans h1.taskq
  ntask := h2.ntask.trans h1.ntask
  log := h2.log.trans h1.log

lemma confined_apart (h : Confined s fds w w') (hw : Within fds w s) : Apart s w w' :=
  { h with
    sessions := h.others
    used := fun r _ => by rw [h.used]
    fds := fun d => .inr (.inl ⟨d, h.fd d⟩)
    keys := by rw [Lifecycle.keys, h.lfds, Lifecycle.keys]
    kept := fun i ho hf => ⟨by rw [h.opened, ho],
      h.items i fun d hd => hf d (hw d i hd), by rw [h.interest]⟩ }

lemma local_solo (h : Local s fds w w') (hw : Within fds w s) : Solo s w w' :=
  { h with toApart := confined_apart h.toConfined hw, own := by rw [h.used] }

lemma enqueued_apart {kind : TaskKind} (h : Enqueued s fds d kind w w')
    (hw : Within fds w s) : Apart s w w' :=
  confined_apart h.toConfined hw

/-! ## Dialling the server -/

lemma sessionFparse_local : Keeps (Local s fds) (sessionFparse s d) := by
  refine keeps_bind session_local fun x => ?_
  refine keeps_bind (keeps_stopUnless _ _) fun _ => ?_
  refine keeps_bind (modifyPackets_local (c := fun x => { x.conns d with input := [] }) ?_
    (fun _ => ⟨rfl, rfl⟩) ?_) fun _ => keeps_pure _
  · exact fun _ => by cases d <;> rfl
  · exact fun _ => by cases d <;> exact ⟨rfl, rfl⟩

lemma sessionGetServer_local {io : ForwardIO} : Keeps (Local s fds) (sessionGetServer io s d) := by
  refine keeps_bind session_local fun x => ?_
  refine keeps_bind (keeps_stopUnless _ _) fun _ => ?_
  refine keeps_bind (keeps_stopUnless _ _) fun _ => ?_
  refine keeps_ite (keeps_pure _) ?_
  split
  · exact keeps_pure _
  · refine keeps_bind (modifySession_local ?_ ?_ ?_) fun _ => ?_
    · exact fun _ _ => rfl
    · exact fun _ _ => rfl
    · exact fun _ => ⟨rfl, rfl⟩
    refine keeps_ite (keeps_pure _) ?_
    refine keeps_bind (keeps_onlyIf _ (emit_local rfl rfl)) fun _ => ?_
    refine keeps_bind (modifyConn_local ?_ ?_) fun _ => keeps_pure _
    · exact fun _ => rfl
    · exact fun _ => ⟨rfl, rfl⟩

variable {i : Nat}

/-- The connection is rewritten, with a descriptor that was free before or with none. -/
lemma solo_redial {c : Connection} (hs : w'.sessions = (w.mapConn s d fun _ => c).sessions)
    (task : c.task = (w.conn s d).task) (fd : c.fd < 0 ∨ ∃ i : Nat, c.fd = i ∧ w.opened i = false)
    (ho : ∀ i, w.opened i = true → w'.opened i = true) (he : w'.epoll = w.epoll)
    (hu : w'.used = w.used) (hl : w'.lfds = w.lfds) (hn : w'.naccept = w.naccept)
    (hp : w'.phase = w.phase) (ht : w'.taskq = w.taskq) (ntask : w'.ntask = w.ntask)
    (log : schedule w'.log = schedule w.log) (notes : Notes s w w') : Solo s w w' := by
  have self : ∀ e, (w'.conn s e).task = (w.conn s e).task := by
    intro e
    rcases d.sides e with rfl | rfl <;> simp [hs, task]
  refine ⟨⟨fun r different => by simp [hs, different], fun _ _ => by rw [hu],
    notes, fun e => ?_, by rw [keys, hl, keys], hn, hp,
    by rw [he], fun i hi => by rwa [he], fun i hi _ => ?_,
    unflushed_same ho he⟩, fun e => by rw [self],
    fun e => by rw [self], by simp [hs], by simp [hs], by rw [hu], ht, ntask, log⟩
  · rcases d.sides e with rfl | rfl
    · rcases fd with hc | ⟨i, new, hf⟩
      · exact .inl (by simpa [hs] using hc)
      · exact .inr (.inr ⟨i, by simpa [hs] using new, hf⟩)
    · exact .inr (.inl ⟨d.peer, by simp [hs]⟩)
  · exact ⟨ho i hi, by rw [item, he], by rw [he]⟩

/-- The connection got a descriptor that was free before, or none. -/
structure Dialed (s : Nat) (d : Dir) (ok : Bool) (w w' : Worker) : Prop extends Solo s w w' where
  epoll : w'.epoll = w.epoll
  peer : (w'.conn s d.peer).fd = (w.conn s d.peer).fd
  opened : ∀ i, w.opened i = true → w'.opened i = true
  failed : ok = false → (w'.conn s d).fd = -1
  dialed : ok = true → ∃ i : Nat, (w'.conn s d).fd = i ∧ i ≠ 0 ∧ w.opened i = false ∧ w'.opened i = true

/-- `c->fd = -1` after a failed call. -/
lemma dialed_none : Dialed s d false w
      ((w.emit (.field s)).mapConn s d ({ · with fd := -1, sock := .fresh })) := by
  refine ⟨?_, rfl, by simp, fun _ h => h, fun _ => by simp, fun ok => by cases ok⟩
  exact solo_redial (d := d) (c := { w.conn s d with fd := -1, sock := .fresh }) rfl rfl
    (.inl (by simp)) (fun _ h => h) rfl rfl rfl rfl rfl rfl rfl (by simp [scheduling])
    (notes_emit (e := .field s) rfl rfl)

/-- `c->fd` is a descriptor the kernel just handed out. -/
lemma dialed_some {w : Worker} (hf : w.opened i = false ∧ i ≠ 0) : Dialed s d true w
      (((({ w with opened := update w.opened i true } : Worker).emit
        (.sockOpen s i)).emit (.field s)).mapConn s d ({ · with fd := i, sock := .fresh })) := by
  have hm : ∀ j, w.opened j = true → update w.opened i true j = true := by
    intro j hj
    by_cases h : j = i <;> simp [h, hj]
  refine ⟨?_, rfl, by simp, hm, (fun ok => by cases ok), fun _ => ⟨i, ?_⟩⟩
  · exact solo_redial (d := d) (c := { w.conn s d with fd := i, sock := .fresh }) rfl rfl
      (.inr ⟨i, rfl, hf.1⟩) hm rfl rfl rfl rfl rfl rfl rfl (by simp [scheduling])
      ⟨[.sockOpen s i, .field s], by simp, by simp [about]⟩
  · simp [hf.1, hf.2]

lemma sockets_dialed {io : ForwardIO} :
    Ensures (clientNb io s d) w (fun wait w' => Dialed s d wait.isSome w w') (fun _ w' => Solo s w w') ∧
      Ensures (plainSocket io s d) w (fun ok w' => Dialed s d ok w w') (fun _ w' => Solo s w w') := by
  unfold clientNb plainSocket
  constructor <;> split
  all_goals
    simp only [ensures_bind, openFd, ensures_takeFd, ensures_emit, ensures_modifyConn, ensures_pure]
  · exact dialed_none
  · exact ⟨fun hf => dialed_some hf, fun _ => solo_refl w⟩
  · exact dialed_none
  · exact ⟨fun hf => dialed_some hf, fun _ => solo_refl w⟩

/-- The second call replaces what the first one got. -/
lemma dialed_again {ok1 ok2 : Bool} (h1 : Dialed s d ok1 w1 w2) (h2 : Dialed s d ok2 w2 w3) :
    Dialed s d ok2 w1 w3 where
  toSolo := Solo.trans h1.toSolo h2.toSolo
  epoll := h2.epoll.trans h1.epoll
  peer := h2.peer.trans h1.peer
  opened i hi := h2.opened i (h1.opened i hi)
  failed := h2.failed
  dialed ok := by
    obtain ⟨i, fd, ne, hf, opened⟩ := h2.dialed ok
    refine ⟨i, fd, ne, ?_, opened⟩
    cases hb : w1.opened i with
    | false => rfl
    | true =>
      have hs := h1.opened i hb
      rw [hf] at hs
      cases hs

lemma connectServer_dialed (io : ForwardIO) (mode : PolicyMode) (w : Worker) :
    Ensures (connectServer io mode s d) w (fun wait w' => Dialed s d wait.isSome w w')
      (fun _ w' => Solo s w w') := by
  cases mode with
  | reverse => exact (sockets_dialed).1
  | tproxy =>
    simp only [connectServer, ensures_bind]
    refine (sockets_dialed).2.imp (fun ok w1 h1 => ?_)
    rw [ensures_ite, ensures_pure]
    refine ⟨fun hf => by simpa [hf] using h1, fun _ => ?_⟩
    exact (sockets_dialed).1.mono (fun _ _ h2 => dialed_again h1 h2) (fun _ _ h2 => Solo.trans h1.toSolo h2)
  | trapt =>
    simp only [connectServer, ensures_bind, ensures_pure]
    refine (sockets_dialed).2.imp (fun ok w1 h1 => ?_)
    cases ok <;> exact h1

/-- Descriptor `i` belongs to the connection: it is open, inside the table, and its item
points back. -/
structure Held (w : Worker) (s : Nat) (d : Dir) (i : Nat) : Prop where
  pos : i ≠ 0
  inside : i < w.epoll.fe.maxfd
  opened : w.opened i = true
  state : (w.item i).state = .ready
  arg : (w.item i).arg = some (.conn s d)

/-- The session holds every descriptor its connections have. -/
def Owns (w : Worker) (s : Nat) : Prop := ∀ d (i : Nat), (w.conn s d).fd = i → Held w s d i

/-- No two connections have one descriptor. -/
lemma Owns.distinct {r : Nat} {e : Dir} (h : Owns w s) (h' : Owns w r)
    (fd : (w.conn s d).fd = i) (fd' : (w.conn r e).fd = i) : s = r ∧ d = e := by
  have hb := (h d i fd).arg.symm.trans (h' e i fd').arg
  simpa using hb

lemma owns_emit (e : Event) (ho : Owns w s) : Owns (w.emit e) s := fun d i fd =>
  have hh := ho d i fd
  { hh with }

lemma confined_owns {w' : Worker} (h : Confined s fds w w') (hw : Within fds w s)
    (ho : Owns w s) : Owns w' s := by
  intro d i fd
  have hb : (w.conn s d).fd = i := (h.fd d).symm.trans fd
  have hh := ho d i hb
  refine ⟨hh.pos, by rw [h.maxfd]; exact hh.inside, by rw [h.opened, hh.opened],
    (h.state i).trans hh.state, ?_⟩
  rcases h.arg i with he | ⟨e, own, arg⟩
  · rw [he, hh.arg]
  · obtain ⟨-, rfl⟩ := ho.distinct ho hb (hw e i own)
    exact arg

/-- The item of a descriptor that was free is written. -/
lemma apart_writeItem {w1 : Worker} (h : Solo s w w1) (hf : w.opened i = false)
    {f : FdItem Arg Callback → FdItem Arg Callback}
    (hp : (w1.item i).pevents = 0#32 → (f (w1.item i)).pevents = 0#32)
    (hm : (f (w1.item i)).isUpdated = true → (w1.item i).isUpdated = true) :
    Solo s w (w1.mapItem i f) := by
  refine { h with
    kept := fun j ho own => ?_
    unflushed := unflushed_trans h.unflushed (unflushed_mapItem w1 i hp hm) }
  have different : j ≠ i := by
    rintro rfl
    rw [ho] at hf
    cases hf
  obtain ⟨ho', item, hi⟩ := h.kept j ho own
  exact ⟨ho', by simpa [different] using item, hi⟩

lemma watchServer_local {io : ForwardIO} {wait : Bool} :
    Ensures (watchServer io wait s d) w (fun _ w' => Local s (fdsOf w s) w w')
      (fun _ w' => Local s (fdsOf w s) w w') := by
  have hn : Local s (fdsOf w s) w (w.emit (.field s)) := local_emit w rfl rfl
  simp only [watchServer, ensures_bind, ensures_conn]
  refine Keeps.after ?_ hn
  refine keeps_ite ?_ ?_
  · exact keeps_bind modifyFlags_local fun _ => addEvent_local ⟨d, rfl⟩
  · split
    · exact addEvent_local ⟨d, rfl⟩
    · refine keeps_ite (keeps_pure _) ?_
      refine keeps_bind (modifyConn_local ?_ ?_) fun _ =>
        addEvent_local ⟨d, rfl⟩
      · exact fun _ => rfl
      · exact fun _ => ⟨rfl, rfl⟩

/-- A session that holds its descriptors still does after a dial, whose new descriptor
gets a fresh item. -/
lemma Dialed.owns {w1 : Worker} (h : Dialed s d true w w1) (owns : Owns w s)
    (fd : (w1.conn s d).fd = i) (hi : i < w1.epoll.fe.maxfd) :
    Owns (w1.mapItem i fun _ => freshItem (.conn s d)) s := by
  obtain ⟨j, fd', pos, hf, ho⟩ := h.dialed rfl
  have : j = i := by omega
  subst this
  intro e k he
  rcases d.sides e with rfl | rfl
  · have : k = j := by
      have he' : (w1.conn s e).fd = k := he
      omega
    subst this
    exact ⟨pos, hi, ho, by simp [freshItem], by simp [freshItem]⟩
  · have hh := owns d.peer k (h.peer.symm.trans he)
    have different : k ≠ j := by
      rintro rfl
      rw [hh.opened] at hf
      cases hf
    have item : (w1.mapItem j fun _ => freshItem (.conn s d)).item k = w.item k := by
      simp [different, h.epoll]
    refine ⟨hh.pos, ?_, h.opened k hh.opened, by rw [item, hh.state], by rw [item, hh.arg]⟩
    have hi := hh.inside
    rw [← h.epoll] at hi
    exact hi

lemma Dialed.owns_failed {w1 : Worker} (h : Dialed s d false w w1) (ho : Owns w s) : Owns w1 s := by
  intro e i fd
  rcases d.sides e with rfl | rfl
  · have := h.failed rfl
    omega
  · have hh := ho d.peer i (h.peer.symm.trans fd)
    have hi := hh.inside
    have hs := hh.state
    have arg := hh.arg
    rw [← h.epoll] at hi
    rw [item, ← h.epoll] at hs arg
    exact ⟨hh.pos, hi, h.opened i hh.opened, hs, arg⟩

lemma joinOutput_local : Keeps (Local s fds) (modifySession s (·.joinOutput d)) := by
  refine modifyPackets_local (c := fun x => { x.conns d with
    output := (x.conns d).output ++ x.staged d.peer }) (fun x => ?_) (fun _ => ⟨rfl, rfl⟩) fun x => ?_
  · cases d <;> rfl
  · cases d <;> exact ⟨rfl, rfl⟩

/-- From the dialled descriptor to the end of `session_forward`. -/
lemma claimServer_solo {w1 : Worker} {io : ForwardIO} {wait : Bool} (owns : Owns w s)
    (h : Dialed s d true w w1) : Ensures
      (do
        let c ← conn s d
        let i ← itemOf c.fd
        writeItem i fun _ => freshItem (.conn s d)
        let ret ← watchServer io wait s d
        return if ret ≠ 0 then -1 else 0 : Run Int) w1
      (fun _ w' => Solo s w w' ∧ Owns w' s) (fun _ w' => Solo s w w') := by
  obtain ⟨i, fd, pos, hf, ho⟩ := h.dialed rfl
  have fd' : ((w1.sessions s).conns d).fd = i := fd
  have hn : Dialed s d true w (w1.emit (.field s)) := by
    refine { h with toSolo := ?_ }
    exact Solo.trans h.toSolo (local_solo (local_emit w1 rfl rfl) (within_fdsOf _ _))
  simp only [ensures_bind, ensures_conn, ensures_itemOf, ensures_writeItem, ensures_pure, fd',
    Int.toNat_natCast]
  refine ⟨fun _ _ => ⟨fun hi => ?_, fun _ => hn.toSolo⟩, fun _ => hn.toSolo⟩
  have hc := apart_writeItem (f := fun _ => freshItem (.conn s d)) hn.toSolo hf
    (fun _ => rfl) (fun h => by cases h)
  have owns2 := hn.owns owns fd hi
  refine (watchServer_local).mono (fun _ w3 h3 => ⟨?_, ?_⟩) (fun _ w3 h3 => ?_)
  · exact Solo.trans hc (local_solo h3 (within_fdsOf _ _))
  · exact confined_owns h3.toConfined (within_fdsOf _ _) owns2
  · exact Solo.trans hc (local_solo h3 (within_fdsOf _ _))

lemma sessionForward_solo (io : ForwardIO) (ho : Owns w s) :
    Ensures (sessionForward io s d) w (fun _ w' => Solo s w w' ∧ Owns w' s) (fun _ w' => Solo s w w') := by
  have hn : Local s (fdsOf w s) w (w.emit (.field s)) := local_emit w rfl rfl
  have ha : ∀ {w'}, Local s (fdsOf w s) w w' → Solo s w w' ∧ Owns w' s := fun h =>
    ⟨local_solo h (within_fdsOf w s), confined_owns h.toConfined (within_fdsOf w s) ho⟩
  simp only [sessionForward, ensures_bind, ensures_session, ensures_require]
  refine ⟨fun _ => ?_, fun _ => (ha hn).1⟩
  split
  · exact (ensures_throw _).mpr (ha hn).1
  · simp only [ensures_bind]
    refine (joinOutput_local.after hn).mono (fun _ w0 hj => ?_) (fun _ _ h => (ha h).1)
    rw [ensures_ite, ensures_pure]
    refine ⟨fun _ => ha hj, fun _ => ?_⟩
    simp only [ensures_bind]
    refine ((sessionGetServer_local).after hj).mono (fun ret w1 h1 => ?_) (fun _ _ h => (ha h).1)
    rw [ensures_ite, ensures_pure]
    refine ⟨fun _ => ha h1, fun _ => ?_⟩
    obtain ⟨solo1, owns1⟩ := ha h1
    simp only [ensures_bind]
    refine (connectServer_dialed io _ w1).mono (fun wait w2 h2 => ?_) (fun _ _ h => Solo.trans solo1 h)
    cases wait with
    | none =>
      exact (ensures_pure _).mpr ⟨Solo.trans solo1 h2.toSolo, h2.owns_failed owns1⟩
    | some wait =>
      exact (claimServer_solo owns1 h2).mono
        (fun _ _ h => ⟨Solo.trans solo1 h.1, h.2⟩) (fun _ _ h => Solo.trans solo1 h)

/-! ## Release -/

/-- The descriptor of the connection is given up: its item is zeroed, it is closed. -/
def giveUp (w : Worker) (s : Nat) (d : Dir) (i : Nat) : Worker :=
  ((({ w.mapItem i fun _ => .zero with
      opened := update w.opened i false
      epoll := { (w.mapItem i fun _ => .zero).epoll with
        interest := update w.epoll.interest i none } } : Worker).emit
    (.sockClose s i)).emit (.field s)).mapConn s d ({ · with fd := -1 })

lemma giveUp_solo (fd : (w.conn s d).fd = i) : Solo s w (giveUp w s d i) := by
  have self : ∀ e, ((giveUp w s d i).conn s e).task = (w.conn s e).task := by
    intro e
    rcases d.sides e with rfl | rfl <;> simp [giveUp]
  have log : schedule (giveUp w s d i).log = schedule w.log := by
    simp [giveUp, scheduling]
  refine ⟨⟨fun r different => by simp [giveUp, different], fun _ _ => rfl,
    ⟨[.sockClose s i, .field s], by simp [giveUp], by simp [about]⟩, fun e => ?_, rfl, rfl, rfl, rfl,
    fun _ h => h, fun j ho own => ?_, ?_⟩, fun e => by rw [self], fun e => by rw [self],
    by simp [giveUp],
    by simp [giveUp], rfl, rfl, rfl, log⟩
  · rcases d.sides e with rfl | rfl
    · exact .inl (by simp [giveUp])
    · exact .inr (.inl ⟨d.peer, by simp [giveUp]⟩)
  · have different : j ≠ i := fun h => own d (by rw [fd, h])
    simp [giveUp, different, ho]
  · have hz := unflushed_mapItem w i (f := fun _ => .zero) (fun _ => rfl) fun h => by cases h
    exact unflushed_trans (unflushed_trans hz (unflushed_drop _ i)) (unflushed_same (fun _ h => h) rfl)

lemma giveUp_owns (ho : Owns w s) (fd : (w.conn s d).fd = i) : Owns (giveUp w s d i) s := by
  intro e j he
  rcases d.sides e with rfl | rfl
  · simp [giveUp] at he
  · have hb : (w.conn s d.peer).fd = j := by simpa [giveUp] using he
    have hh := ho _ j hb
    have different : j ≠ i := by
      rintro rfl
      exact absurd (ho.distinct ho hb fd).2 d.peer_ne
    refine ⟨hh.pos, hh.inside, ?_, ?_, ?_⟩
    · simpa [giveUp, different] using hh.opened
    · simpa [giveUp, different] using hh.state
    · simpa [giveUp, different] using hh.arg

/-- What `conn_free` leaves: the connection has no descriptor. -/
structure Freed (s : Nat) (d : Dir) (w w' : Worker) : Prop extends Solo s w w' where
  owns : Owns w' s
  closed : (w'.conn s d).fd < 0
  peer : (w'.conn s d.peer).fd = (w.conn s d.peer).fd

lemma freed_local {w1 w2 : Worker} (h : Freed s d w w1) (hs : Local s fds w1 w2)
    (hw : Within fds w1 s) : Freed s d w w2 where
  toSolo := Solo.trans h.toSolo (local_solo hs hw)
  owns := confined_owns hs.toConfined hw h.owns
  closed := by rw [hs.fd]; exact h.closed
  peer := (hs.fd _).trans h.peer

lemma connFree_freed (owns : Owns w s) :
    Ensures (connFree s d) w (fun _ w' => Freed s d w w') (fun _ w' => Solo s w w') := by
  have hn : Local s (fdsOf w s) w (w.emit (.field s)) := local_emit w rfl rfl
  have ha : ∀ {w'}, Local s (fdsOf w s) w w' → Solo s w w' := fun h =>
    local_solo h (within_fdsOf w s)
  simp only [connFree, ensures_bind, ensures_session, ensures_require]
  refine ⟨fun _ => ?_, fun _ => ha hn⟩
  refine ((modifyPackets_local (f := (dropPackets · d)) (fun _ => rfl) (fun _ => ⟨rfl, rfl⟩)
    fun _ => ⟨rfl, rfl⟩).after hn).mono (fun _ w1 h1 => ?_) (fun _ _ h => ha h)
  have owns1 := confined_owns h1.toConfined (within_fdsOf w s) owns
  -- the last write, to the task's kind
  have hk : ∀ w2, Freed s d w w2 →
      Freed s d w ((w2.emit (.field s)).mapConn s d (setKind · .none)) := fun w2 h2 =>
    freed_local h2 (local_mapConn w2 (fun _ => rfl) fun _ => ⟨rfl, rfl⟩) (within_fdsOf _ _)
  simp only [ensures_onlyIf, ensures_modifyConn]
  refine ⟨fun ho => ?_, fun notOpen => hk _ ⟨ha h1, owns1, ?_, h1.fd _⟩⟩
  · have ho' : (w.conn s d).fd > 0 := ho
    obtain ⟨i, fd⟩ : ∃ i : Nat, (w.conn s d).fd = i :=
      ⟨_, (Int.toNat_of_nonneg (by omega)).symm⟩
    have fd1 : (w1.conn s d).fd = i := (h1.fd d).trans fd
    have fd' : ((w.sessions s).conns d).fd = i := fd
    simp only [fd', ensures_bind, ensures_itemOf, ensures_writeItem, closeFd, dropFd,
      ensures_modify, ensures_emit, ensures_modifyConn, Int.toNat_natCast]
    refine ⟨fun _ _ => ⟨fun _ => ?_, fun _ => ha h1⟩, fun _ => ha h1⟩
    refine hk (giveUp w1 s d i) ⟨?_, giveUp_owns owns1 fd1, by simp [giveUp], ?_⟩
    · exact Solo.trans (ha h1) (giveUp_solo fd1)
    · simpa [giveUp] using h1.fd d.peer
  · -- a session that holds its descriptors never holds 0
    rw [h1.fd]
    by_contra notNeg
    have zero : (w.conn s d).fd = (0 : Nat) := by
      have : ¬ (w.conn s d).fd > 0 := notOpen
      omega
    exact (owns d 0 zero).pos rfl

/-- How `session_free` ends: a queued task of the peer takes over, or the object goes
back to the pool. -/
inductive Outcome (s : Nat) (d : Dir) (w w' : Worker) : Prop where
  | deferred (peer : (w.conn s d.peer).task.linked = true) (used : w'.used s = w.used s)
      (kind : (w'.conn s d.peer).task.kind = .delete)
      (log : schedule w'.log = schedule w.log ++ [.released s])
  | returned (unlinked : ∀ e, (w.conn s e).task.linked = false) (before : w.used s = true)
      (used : w'.used s = false) (closed : ∀ e, (w'.conn s e).fd < 0)
      (log : schedule w'.log = schedule w.log ++ [.released s, .put s false false])
      (last : ∃ before, w'.log = before ++ [.put s false false])

structure Released (s : Nat) (d : Dir) (w w' : Worker) : Prop extends Apart s w w' where
  linked : ∀ e, (w'.conn s e).task.linked = (w.conn s e).task.linked
  armed : ∀ e, (w'.conn s e).task.armed = (w.conn s e).task.armed
  worker : (w'.sessions s).worker = (w.sessions s).worker
  taskq : w'.taskq = w.taskq
  ntask : w'.ntask = w.ntask
  owns : Owns w' s
  closed : (w'.conn s d).fd < 0
  outcome : Outcome s d w w'

lemma apart_emit (w : Worker) {e : Event} (own : about e = some s) : Apart s w (w.emit e) := by
  exact ⟨fun _ _ => rfl, fun _ _ => rfl, notes_emit own rfl, fun e => .inr (.inl ⟨e, rfl⟩),
    rfl, rfl, rfl, rfl, fun _ h => h, fun _ h _ => ⟨h, rfl, rfl⟩, unflushed_same (fun _ h => h) rfl⟩

lemma unlinkSession_solo : Solo s w (unlinkSession w s) := by
  refine ⟨⟨fun _ _ => rfl, fun _ _ => rfl, notes_of_log rfl, fun e => .inr (.inl ⟨e, rfl⟩), ?_, rfl,
    rfl, rfl, fun _ h => h, fun _ h _ => ⟨h, rfl, rfl⟩, unflushed_same (fun _ h => h) rfl⟩,
    fun _ => rfl, fun _ => rfl, rfl, rfl, rfl, rfl, rfl, rfl⟩
  simp [keys, unlinkSession]

/-- The object went back to the pool. -/
structure Returned (s : Nat) (w w' : Worker) : Prop extends Apart s w w' where
  own : w'.sessions = w.sessions
  epoll : w'.epoll = w.epoll
  opened : w'.opened = w.opened
  taskq : w'.taskq = w.taskq
  ntask : w'.ntask = w.ntask
  before : w.used s = true
  after : w'.used s = false
  log : schedule w'.log = schedule w.log ++
    [.put s (w.conn s .client).task.linked (w.conn s .server).task.linked]
  noted : noted s w'.log = noted s w.log ++
    [.put s (w.conn s .client).task.linked (w.conn s .server).task.linked]
  last : ∃ before, w'.log = before ++
    [.put s (w.conn s .client).task.linked (w.conn s .server).task.linked]

lemma putSession_returned :
    Ensures (putSession s) w (fun _ w' => Returned s w w') (fun _ w' => w' = w) := by
  simp only [putSession, ensures_bind, ensures_get, ensures_require, ensures_session,
    ensures_modify, ensures_emit]
  refine ⟨fun hu => ?_, fun _ => trivial⟩
  refine ⟨?_, rfl, rfl, rfl, rfl, rfl, hu, by simp, by simp [scheduling], by simp [about], ⟨_, rfl⟩⟩
  have hr := apart_emit (s := s) w (e := .field s) rfl
  refine apart_trans ?_ (apart_emit _ rfl)
  exact ⟨fun _ _ => rfl, fun r different => by simp [different], hr.notes,
    fun e => .inr (.inl ⟨e, rfl⟩), rfl, rfl, rfl, rfl, fun _ h => h, fun _ h _ => ⟨h, rfl, rfl⟩,
    unflushed_same (fun _ h => h) rfl⟩

/-- `session_free` on a connection whose own task is not queued. -/
lemma sessionFree_released (ho : (w.sessions s).worker = true → Owns w s)
    (hu : (w.conn s d).task.linked = false) :
    Ensures (sessionFree s d) w (fun _ w' => Released s d w w')
      (fun _ w' => Apart s w w' ∧ schedule w'.log = schedule w.log ++ [.released s]) := by
  have he : Apart s w (w.emit (.released s)) := apart_emit w rfl
  have hn : schedule (w.emit (.released s)).log = schedule w.log ++ [.released s] := by
    simp [scheduling]
  have hs : ∀ {w'}, Solo s (w.emit (.released s)) w' →
      Apart s w w' ∧ schedule w'.log = schedule w.log ++ [.released s] := fun h =>
    ⟨apart_trans he h.toApart, h.log.trans hn⟩
  have hr : Solo s (w.emit (.released s)) ((w.emit (.released s)).emit (.field s)) :=
    local_solo (local_emit _ rfl rfl) (within_fdsOf _ _)
  simp only [sessionFree, ensures_bind, ensures_emit, ensures_session, ensures_require]
  refine ⟨fun hw => ⟨fun _ => ?_, fun _ => hs hr⟩, fun _ => hs hr⟩
  have owns0 : Owns ((w.emit (.released s)).emit (.field s)) s :=
    owns_emit _ (owns_emit _ (ho hw))
  refine (connFree_freed owns0).mono (fun _ w1 h1 => ?_) (fun _ _ h => hs (Solo.trans hr h))
  have freed1 : Freed s d (w.emit (.released s)) (w1.emit (.field s)) := by
    refine freed_local ⟨Solo.trans hr h1.toSolo, h1.owns, h1.closed, h1.peer⟩ ?_ (within_fdsOf _ _)
    exact local_emit _ rfl rfl
  have linked1 : (w1.conn s d.peer).task.linked = (w.conn s d.peer).task.linked :=
    freed1.linked d.peer
  simp only [ensures_conn]
  rw [ensures_ite]
  refine ⟨fun linked => ?_, fun notLinked => ?_⟩
  · simp only [ensures_bind, ensures_modifyConn, ensures_pure]
    have freed2 := freed_local freed1 (local_mapConn _ (d := d.peer) (f := (setKind · .delete))
      (fun _ => rfl) fun _ => ⟨rfl, rfl⟩) (within_fdsOf _ _)
    refine ⟨(hs freed2.toSolo).1, freed2.linked, freed2.armed, freed2.worker, freed2.taskq,
      freed2.ntask, freed2.owns, freed2.closed, .deferred ?_ freed2.own (by simp [setKind])
      (hs freed2.toSolo).2⟩
    exact linked1.symm.trans linked
  · simp only [ensures_bind]
    refine (connFree_freed freed1.owns).mono (fun _ w2 h2 => ?_)
      (fun _ _ h => hs (Solo.trans freed1.toSolo h))
    have closed2 : (w2.conn s d).fd < 0 := by
      have := h2.peer
      rw [Dir.peer_peer] at this
      rw [this]
      exact freed1.closed
    have solo2 : Solo s (w.emit (.released s)) (w2.emit (.field s)) :=
      Solo.trans (Solo.trans freed1.toSolo h2.toSolo) (local_solo (local_emit _ rfl rfl) (within_fdsOf _ _))
    simp only [ensures_session, ensures_stopUnless, ensures_modify, ensures_pure]
    refine ⟨fun _ => ?_, fun _ => hs solo2⟩
    have solo3 := Solo.trans solo2 unlinkSession_solo
    refine (putSession_returned).mono (fun _ w4 h4 => ?_) (fun _ w4 h4 => ?_)
    · have none : ∀ e, (w.conn s e).task.linked = false := by
        intro e
        rcases d.sides e with rfl | rfl
        · exact hu
        · exact linked1.symm.trans (by simpa using notLinked)
      have unlinked3 : ∀ e, ((unlinkSession (w2.emit (.field s)) s).conn s e).task.linked = false :=
        fun e => (solo3.linked e).trans (none e)
      have closed4 : ∀ e, (w4.conn s e).fd < 0 := by
        intro e
        rw [Worker.conn, h4.own]
        rcases d.sides e with rfl | rfl
        · exact closed2
        · exact h2.closed
      refine ⟨apart_trans (hs solo3).1 h4.toApart, fun e => ?_, fun e => ?_, ?_,
        h4.taskq.trans solo3.taskq, h4.ntask.trans solo3.ntask, fun e i fd => ?_, closed4 d,
        .returned none ?_ h4.after closed4 ?_ ?_⟩
      · rw [Worker.conn, h4.own]
        exact solo3.linked e
      · rw [Worker.conn, h4.own]
        exact solo3.armed e
      · rw [h4.own]
        exact solo3.worker
      · have := closed4 e
        omega
      · exact solo3.own.symm.trans h4.before
      · rw [h4.log, (hs solo3).2, unlinked3, unlinked3, append_assoc]
        rfl
      · obtain ⟨before, hl⟩ := h4.last
        exact ⟨before, by rw [hl, unlinked3, unlinked3]⟩
    · rw [h4]
      exact hs solo3

/-! ## Accept -/

/-- The session object as `objpool_get` and `session_init` leave it. -/
@[simps!]
def admitted (w : Worker) (s : Nat) : Worker :=
  { w.mapSession s sessionInit with used := update w.used s true }

/-- The session as a successful accept leaves it. -/
def acceptedSession (x : Session) (l : ListenerFd) (fd : Nat) : Session :=
  { (sessionInit x).setConn .client { connInit with
        fd := fd
        ssl := if l.sslctx then some ⟨some fd⟩ else none
        flags := { ConnFlags.none with sslHsk := l.sslctx } } with
    worker := true
    policy := some l.mode }

/-- What `_ltn_accept` takes for the session before anything can fail. -/
def opening (s fd : Nat) (ssl : Bool) : List Event :=
  .sockOpen s fd :: if ssl then [.sslAlloc s .client] else []

/-- Label `err_free` of `_ltn_accept`: everything is given back. -/
def refusing (s fd : Nat) (ssl : Bool) : List Event :=
  .put s false false :: ((if ssl then [.sslFree s .client] else []) ++ [.sockClose s fd])

/-- What a successful accept leaves: the session, and the item of its descriptor, of
which `pevents` and the place in the update array are those of before. -/
structure Accepted (l : ListenerFd) (s fd : Nat) (w w' : Worker) : Prop
    extends Apart s (admitted w s) w' where
  session : w'.sessions s = acceptedSession (w.sessions s) l fd
  inUse : w'.used s = true
  taskq : w'.taskq = w.taskq
  ntask : w'.ntask = w.ntask
  log : schedule w'.log = schedule w.log ++ [.accepted s fd]
  free : w.opened fd = false
  held : Held w' s .client fd
  pevents : (w'.item fd).pevents = (w.item fd).pevents
  events : (w'.item fd).events = fdIn
  iocb : (w'.item fd).iocb = some (if l.sslctx then .connHandshake else .connRecvData)
  marked : (w'.item fd).isUpdated = true
  pending : (w.item fd).isUpdated = false → fd ∈ w'.epoll.fe.updates
  noted : noted s w'.log = noted s w.log ++ (opening s fd l.sslctx ++ [.accepted s fd])

/-- What a failed accept leaves behind the point where the object was taken. -/
structure Refused (s : Nat) (w w' : Worker) : Prop extends Apart s (admitted w s) w' where
  after : w'.used s = false
  worker : (w'.sessions s).worker = false
  uncut : ∀ d, (w'.conn s d).cut = none
  linked : ∀ d, (w'.conn s d).task.linked = false
  taskq : w'.taskq = w.taskq
  ntask : w'.ntask = w.ntask
  log : schedule w'.log = schedule w.log ++ [.put s false false]
  noted : ∃ fd ssl, noted s w'.log = noted s w.log ++ (opening s fd ssl ++ refusing s fd ssl)

section

variable {s i : Nat} {d : Dir} {w w1 : Worker}

/-- A request on a descriptor that was free. -/
lemma solo_request {fe : FdEpoll Arg Callback} {events : Mask} {iocb : Option Callback}
    (h : Solo s w w1) (hf : w.opened i = false)
    (hr : w1.epoll.fe.request i events iocb = some fe) : Solo s w (w1.setTable fe) := by
  obtain ⟨maxfd, -, other, updates⟩ := FdEpoll.request_effect hr
  refine { h with
    maxfd := maxfd.trans h.maxfd
    updates := fun j hj => ?_
    kept := fun j ho own => ?_
    unflushed := unflushed_trans h.unflushed (unflushed_request hr) }
  · rw [setTable_epoll_fe, updates]
    split
    · exact h.updates j hj
    · exact mem_append_left _ (h.updates j hj)
  · have different : j ≠ i := by
      rintro rfl
      rw [ho] at hf
      cases hf
    obtain ⟨ho', item, hi⟩ := h.kept j ho own
    exact ⟨ho', (other j different).trans item, hi⟩

/-- The connection is given a descriptor that was free. -/
lemma solo_setFd {f : Connection → Connection} (h : Solo s w w1) (hf : w.opened i = false)
    (fd : ∀ c, (f c).fd = i) (ht : ∀ c, (f c).task = c.task) :
    Solo s w ((w1.emit (.field s)).mapConn s d f) := by
  have self : ∀ e, (((w1.emit (.field s)).mapConn s d f).conn s e).task = (w1.conn s e).task := by
    intro e
    rcases d.sides e with rfl | rfl <;> simp [ht]
  have log : schedule ((w1.emit (.field s)).mapConn s d f).log = schedule w.log := by
    rw [← h.log]
    simp [scheduling]
  refine ⟨⟨fun r different => ?_, h.used, notes_trans h.notes (notes_emit (e := .field s) rfl rfl),
    fun e => ?_, h.keys, h.naccept, h.phase, h.maxfd, h.updates, h.kept,
    unflushed_trans h.unflushed (unflushed_same (fun _ h => h) rfl)⟩, fun e => ?_, fun e => ?_, ?_, ?_,
    h.own, h.taskq, h.ntask, log⟩
  · rw [← h.sessions r different]
    simp [different]
  · rcases d.sides e with rfl | rfl
    · exact .inr (.inr ⟨i, by simp [fd], hf⟩)
    · have := h.fds d.peer
      simpa using this
  · rw [self]
    exact h.linked e
  · rw [self]
    exact h.armed e
  · simpa using h.worker
  · simpa using h.policy

/-- A descriptor that was free is closed again. -/
lemma apart_close (h : Apart s w w1) (hf : w.opened i = false) : Apart s w { w1 with
      opened := update w1.opened i false
      epoll := { w1.epoll with interest := update w1.epoll.interest i none } } := by
  refine { h with
    kept := fun j opened own => ?_
    unflushed := unflushed_trans h.unflushed (unflushed_drop w1 i) }
  have different : j ≠ i := by
    rintro rfl
    rw [opened] at hf
    cases hf
  obtain ⟨ho', hi, interest⟩ := h.kept j opened own
  exact ⟨by simpa [different] using ho', hi, by simpa [different] using interest⟩

/-- Label `err_free` of `_ltn_accept`. -/
lemma acceptErr_refused {ssl : Bool} (h : Solo s (admitted w s) w1) (hf : w.opened i = false)
    (hu : ∀ d, (w1.conn s d).cut = none) (ht : noted s w1.log = noted s w.log ++ opening s i ssl) :
    Ensures (acceptErr s i ssl) w1 (fun _ w' => Refused s w w')
      (fun _ w' => schedule w'.log = schedule w.log) := by
  have unlinked : ∀ d, (w1.conn s d).task.linked = false := by
    intro d
    rw [h.linked d]
    simp [admitted, sessionInit, connInit]
  simp only [acceptErr, ensures_bind]
  refine (putSession_returned).mono (fun _ w2 h2 => ?_) (fun _ w2 h2 => by rw [h2]; exact h.log)
  have apart2 := apart_trans h.toApart h2.toApart
  have log2 : schedule w2.log = schedule w.log ++ [.put s false false] := by
    rw [h2.log, unlinked, unlinked, h.log]
    rfl
  have worker2 : (w2.sessions s).worker = false := by
    rw [h2.own, h.worker]
    simp [admitted, sessionInit]
  have uncut2 : ∀ d, (w2.conn s d).cut = none := by
    intro d
    rw [Worker.conn, h2.own]
    exact hu d
  have unlinked2 : ∀ d, (w2.conn s d).task.linked = false := by
    intro d
    rw [Worker.conn, h2.own]
    exact unlinked d
  have noted2 : noted s w2.log = noted s w.log ++ (opening s i ssl ++ [.put s false false]) := by
    rw [h2.noted, unlinked, unlinked, ht, append_assoc]
  simp only [ensures_onlyIf, closeFd, dropFd, ensures_emit, ensures_bind, ensures_modify, ensures_pure]
  refine ⟨fun hh => ?_, fun hn => ?_⟩
  · have apart3 := apart_trans apart2 (apart_emit (s := s) w2 (e := .sslFree s .client) rfl)
    refine ⟨apart_trans (apart_close apart3 hf) (apart_emit _ rfl), h2.after, worker2, uncut2, unlinked2,
      h2.taskq.trans h.taskq, h2.ntask.trans h.ntask, ?_, i, ssl, ?_⟩
    · simp [scheduling, log2]
    · simp [about, noted2, refusing, hh]
  · refine ⟨apart_trans (apart_close apart2 hf) (apart_emit _ rfl), h2.after, worker2, uncut2,
      unlinked2,
      h2.taskq.trans h.taskq, h2.ntask.trans h.ntask, ?_, i, ssl, ?_⟩
    · simp [scheduling, log2]
    · simp [about, noted2, refusing, hn]

/-- The item of the accepted descriptor, behind the request. -/
structure Watched (s i : Nat) (ssl : Bool) (w w' : Worker) : Prop where
  inside : i < w'.epoll.fe.maxfd
  state : (w'.item i).state = .ready
  arg : (w'.item i).arg = some (.conn s .client)
  pevents : (w'.item i).pevents = (w.item i).pevents
  events : (w'.item i).events = fdIn
  iocb : (w'.item i).iocb = some (if ssl then .connHandshake else .connRecvData)
  marked : (w'.item i).isUpdated = true
  pending : (w.item i).isUpdated = false → i ∈ w'.epoll.fe.updates

lemma acceptWatch_watched {ssl : Bool} (h : Solo s (admitted w s) w1) (hf : w.opened i = false)
    (hit : w1.item i = w.item i) : Ensures (acceptWatch s i ssl) w1
      (fun ret w' => Solo s (admitted w s) w' ∧ w'.sessions = w1.sessions ∧
        w'.opened = w1.opened ∧ w'.log = w1.log ∧ (ret = 0 → Watched s i ssl w w'))
      (fun _ w' => schedule w'.log = schedule w.log) := by
  simp only [acceptWatch, ensures_bind, ensures_get]
  split
  · exact (ensures_throw _).mpr h.log
  · next j hm =>
    have : j = i := by
      simp only [fdEpollMap] at hm
      split at hm
      · cases hm
      · simpa using hm.symm
    subst this
    simp only [ensures_bind, ensures_writeItem, ensures_addEvent, Int.toNat_natCast]
    have hi' : w1.epoll.fe.maps j = w.epoll.fe.maps j := hit
    have hc := apart_writeItem
      (f := ({ · with state := .ready, arg := some (.conn s .client) })) h hf (fun h => h)
      fun h => h
    refine ⟨fun hi => ⟨fun bad => ?_, fun _ _ => ⟨fun fe hr => ?_, fun _ => ?_⟩⟩, fun _ => h.log⟩
    · refine ⟨hc, rfl, rfl, rfl, fun zero => by cases zero⟩
    · refine ⟨solo_request hc hf hr, rfl, rfl, rfl, fun _ => ?_⟩
      obtain ⟨maxfd, self, -, updates⟩ := FdEpoll.request_effect hr
      refine ⟨by rw [setTable_epoll_fe, maxfd]; exact hi, ?_, ?_, ?_, ?_, ?_, ?_,
        fun hu => ?_⟩
      all_goals simp only [item, setTable_epoll_fe, self]
      · simp
      · simp
      · rw [← hi']
        simp
      · have hu' : (w1.epoll.fe.maps j).isUpdated = false := by
          rw [← hu, hi']
        simp [updates, hu']
    · exact hc.log

lemma apart_mapSession {f : Session → Session}
    (fd : ∀ d, ((f (w.sessions s)).conns d).fd = (w.conn s d).fd) : Apart s w (w.mapSession s f) := by
  refine ⟨fun r different => by simp [different], fun _ _ => rfl, notes_of_log rfl, fun d => ?_, rfl,
    rfl, rfl, rfl, fun _ h => h, fun _ h _ => ⟨h, rfl, rfl⟩, unflushed_same (fun _ h => h) rfl⟩
  exact .inr (.inl ⟨d, by simpa using fd d⟩)

lemma apart_linkSession {addr : Nat} : Apart s w (linkSession w addr s) := by
  refine ⟨fun _ _ => rfl, fun _ _ => rfl, notes_of_log rfl, fun d => .inr (.inl ⟨d, rfl⟩), ?_, rfl,
    rfl, rfl, fun _ h => h, fun _ h _ => ⟨h, rfl, rfl⟩, unflushed_same (fun _ h => h) rfl⟩
  simp only [keys, linkSession, map_map]
  refine map_congr_left fun l _ => ?_
  simp only [Function.comp]
  split <;> rfl

/-- The writes of a successful accept behind `fd_epoll_add_event`. -/
def acceptWrites (w : Worker) (l : ListenerFd) (s i : Nat) : Worker :=
  let claimed := (w.emit (.field s)).mapConn s .client fun c => { c with
    fd := i
    ssl := if l.sslctx then some ⟨some i⟩ else none }
  let flagged := (claimed.emit (.field s)).mapConn s .client fun c =>
    { c with flags := { c.flags with sslHsk := c.flags.sslHsk || l.sslctx } }
  let served := (flagged.emit (.field s)).mapSession s fun x =>
    { x with worker := true, policy := some l.mode }
  (linkSession served l.addr s).emit (.accepted s i)

lemma acceptWrites_apart {l : ListenerFd} {w2 : Worker} (h : Solo s w w2)
    (free : w.opened i = false) : Apart s w (acceptWrites w2 l s i) := by
  have hc := solo_setFd (d := .client) h (f := fun c => { c with
      fd := (i : Int)
      ssl := if l.sslctx then some ⟨some (i : Int)⟩ else none }) free (fun _ => rfl) fun _ => rfl
  have hf := Solo.trans hc (local_solo (local_mapConn _ (d := .client) (f := fun c =>
      { c with flags := { c.flags with sslHsk := c.flags.sslHsk || l.sslctx } })
      (fun _ => rfl) fun _ => ⟨rfl, rfl⟩) (within_fdsOf _ _))
  refine apart_trans hf.toApart ?_
  refine apart_trans (apart_emit _ (e := .field s) rfl) ?_
  refine apart_trans (apart_mapSession
    (f := fun x => { x with worker := true, policy := some l.mode }) fun _ => rfl) ?_
  exact apart_trans apart_linkSession (apart_emit _ rfl)

lemma acceptWrites_session {l : ListenerFd} {w2 : Worker}
    (own : w2.sessions s = sessionInit (w.sessions s)) :
    (acceptWrites w2 l s i).sessions s = acceptedSession (w.sessions s) l i := by
  simp [acceptWrites, acceptedSession, own, sessionInit, Session.setConn, connInit, ConnFlags.none]

lemma acceptWrites_accepted {l : ListenerFd} {w2 : Worker} (h : Solo s (admitted w s) w2)
    (free : w.opened i = false) (pos : i ≠ 0) (own : w2.sessions s = sessionInit (w.sessions s))
    (ho : w2.opened i = true) (hw : Watched s i l.sslctx w w2)
    (ht : noted s w2.log = noted s w.log ++ opening s i l.sslctx) :
    Accepted l s i w (acceptWrites w2 l s i) where
  toApart := acceptWrites_apart h free
  session := acceptWrites_session own
  inUse := by simpa [acceptWrites] using h.own
  taskq := by simpa [acceptWrites] using h.taskq
  ntask := by simpa [acceptWrites] using h.ntask
  log := by
    have log : schedule w2.log = schedule w.log := h.log
    simp [acceptWrites, scheduling, log]
  free := free
  held := by
    refine ⟨pos, ?_, ?_, ?_, ?_⟩
    · simpa [acceptWrites] using hw.inside
    · simpa [acceptWrites] using ho
    · simpa [acceptWrites] using hw.state
    · simpa [acceptWrites] using hw.arg
  pevents := by simpa [acceptWrites] using hw.pevents
  events := by simpa [acceptWrites] using hw.events
  iocb := by simpa [acceptWrites] using hw.iocb
  marked := by simpa [acceptWrites] using hw.marked
  pending := by simpa [acceptWrites] using hw.pending
  noted := by simp [acceptWrites, about, ht]

/-- `_ltn_accept` from the request on. -/
lemma acceptFinish_settles {io : AcceptIO} {l : ListenerFd} (h : Solo s (admitted w s) w1)
    (hf : w.opened i = false) (pos : i ≠ 0) (own : w1.sessions s = sessionInit (w.sessions s))
    (ho : w1.opened i = true) (hi : w1.item i = w.item i)
    (ht : noted s w1.log = noted s w.log ++ opening s i l.sslctx) : Ensures (acceptFinish io l s i) w1
      (fun _ w' => Accepted l s i w w' ∨ Refused s w w')
      (fun _ w' => schedule w'.log = schedule w.log) := by
  simp only [acceptFinish, ensures_bind]
  refine (acceptWatch_watched h hf hi).imp (fun ret w2 h2 => ?_)
  obtain ⟨solo2, sessions2, opened2, log2, hw⟩ := h2
  have taken2 : noted s w2.log = noted s w.log ++ opening s i l.sslctx := by rw [log2, ht]
  have own2 : w2.sessions s = sessionInit (w.sessions s) := by rw [sessions2, own]
  have hu : ∀ d, (w2.conn s d).cut = none := fun d => by
    rw [Worker.conn, own2]
    rfl
  rw [ensures_ite]
  refine ⟨fun _ => ?_, fun ok => ?_⟩
  · exact (acceptErr_refused solo2 hf hu taken2).imp (fun _ _ h => .inr h)
  · simp only [ensures_bind, ensures_modifyConn]
    rw [ensures_ite]
    refine ⟨fun _ => ?_, fun _ => ?_⟩
    · have hc := solo_setFd (d := .client) solo2 (f := fun c => { c with
          fd := (i : Int)
          ssl := if l.sslctx then some ⟨some (i : Int)⟩ else none }) hf (fun _ => rfl)
          fun _ => rfl
      have hu' : ∀ d, (((w2.emit (.field s)).mapConn s .client fun c => { c with
          fd := (i : Int)
          ssl := if l.sslctx then some ⟨some (i : Int)⟩ else none }).conn s d).cut = none := fun d => by
        cases d <;> simpa using hu _
      exact (acceptErr_refused hc hf hu' (by simpa using taken2)).imp (fun _ _ h => .inr h)
    · simp only [ensures_bind, ensures_modifyFlags, ensures_modifySession, ensures_modify,
        ensures_emit, ensures_pure]
      left
      refine acceptWrites_accepted solo2 hf pos own2 ?_ (hw (not_not.mp ok)) taken2
      rw [opened2, ho]

/-- The object is taken and initialised, and owns nothing yet. -/
lemma solo_admitted (w : Worker) (s i : Nat) : Solo s (admitted w s)
      (((({ w with
          opened := update w.opened i true
          used := update w.used s true } : Worker).emit (.field s)).mapSession s
            sessionInit).emit (.sockOpen s i)) := by
  have hs : ((((({ w with
          opened := update w.opened i true
          used := update w.used s true } : Worker).emit (.field s)).mapSession s
            sessionInit).emit (.sockOpen s i)) : Worker).sessions = (admitted w s).sessions := rfl
  have log : ∀ log : List Event, schedule ((log ++ [.field s]) ++ [.sockOpen s i]) = schedule log :=
    fun log => by simp [scheduling]
  have hm : ∀ j, w.opened j = true → update w.opened i true j = true := by
    intro j hj
    by_cases he : j = i <;> simp [he, hj]
  refine ⟨⟨fun r _ => by rw [hs], fun _ _ => rfl,
    ⟨[.field s, .sockOpen s i], by simp, by simp [about]⟩, fun d => .inr (.inl ⟨d, rfl⟩), rfl, rfl, rfl,
    rfl, fun _ h => h, fun j opened _ => ⟨hm j opened, rfl, rfl⟩, unflushed_same hm rfl⟩,
    fun _ => rfl, fun _ => rfl, rfl, rfl, rfl, rfl, rfl, log _⟩

lemma acceptSession_settles (io : AcceptIO) (l : ListenerFd) (free : w.opened i = false) (pos : i ≠ 0) :
    Ensures (acceptSession io l s i) { w with opened := update w.opened i true }
      (fun _ w' => w.used s = false ∧ (Accepted l s i w w' ∨ Refused s w w'))
      (fun _ w' => schedule w'.log = schedule w.log) := by
  simp only [acceptSession, getSession, ensures_bind, ensures_get, ensures_answers,
    ensures_modify, ensures_modifySession, ensures_emit]
  refine ⟨fun hu => ?_, fun _ => trivial⟩
  have ht := solo_admitted w s i
  refine Ensures.imp ?_ (fun _ _ h => ⟨hu, h⟩)
  have hf : ∀ {w1}, Solo s (admitted w s) w1 →
      w1.sessions s = sessionInit (w.sessions s) → w1.opened i = true → w1.item i = w.item i →
      noted s w1.log = noted s w.log ++ opening s i l.sslctx →
      Ensures (acceptFinish io l s i) w1 (fun _ w' => Accepted l s i w w' ∨ Refused s w w')
        (fun _ w' => schedule w'.log = schedule w.log) := fun h own opened hi ht =>
    acceptFinish_settles h free pos own opened hi ht
  rw [ensures_ite]
  refine ⟨fun ssl => ?_, fun hp => ?_⟩
  · rw [ensures_ite]
    refine ⟨fun _ => ?_, fun _ => ?_⟩
    · exact (acceptErr_refused ht free (fun _ => by simp [sessionInit, connInit])
        (by simp [opening, about])).imp
        (fun _ _ h => .inr h)
    · simp only [ensures_bind, ensures_emit]
      have ha := Solo.trans ht
        (local_solo (local_emit _ (e := .sslAlloc s .client) rfl rfl) (within_fdsOf _ _))
      rw [ensures_ite]
      refine ⟨fun _ => ?_, fun _ => ?_⟩
      · exact (acceptErr_refused ha free (fun _ => by simp [sessionInit, connInit])
          (by simp [opening, about])).imp
          (fun _ _ h => .inr h)
      · exact hf ha (by simp) (by simp) rfl (by simp [opening, about, ssl])
  · exact hf ht (by simp) (by simp) rfl (by simp [opening, about, hp])

/-- How one `_ltn_accept` ends. -/
inductive Accepting (io : AcceptIO) (l : ListenerFd) (w w' : Worker) : Prop where
  | nothing (same : w' = w)
  | noObject (i : Nat) (free : w.opened i = false)
      (same : w' = { w with
        epoll := { w.epoll with interest := update w.epoll.interest i none } })
  | accepted (s i : Nat) (answer : io.fd = some i) (unused : w.used s = false)
      (accepted : Accepted l s i w w')
  | refused (s : Nat) (unused : w.used s = false) (refused : Refused s w w')

variable {l : ListenerFd} {io : AcceptIO}

lemma Accepting.same {w' : Worker} (h : Accepting io l w w') :
    w'.naccept = w.naccept ∧ w'.phase = w.phase := by
  cases h with
  | nothing hs => rw [hs]; exact ⟨rfl, rfl⟩
  | noObject _ _ hs => rw [hs]; exact ⟨rfl, rfl⟩
  | accepted _ _ _ _ accepted => exact ⟨accepted.naccept, accepted.phase⟩
  | refused _ _ refused => exact ⟨refused.naccept, refused.phase⟩

lemma Accepting.unflushed {w' : Worker} (h : Accepting io l w w') : Unflushed w w' := by
  cases h with
  | nothing hs =>
    rw [hs]
    exact unflushed_refl w
  | noObject i _ hs =>
    rw [hs]
    exact unflushed_forget w i
  | accepted s _ _ _ accepted =>
    have ht : Unflushed w (admitted w s) := unflushed_same (fun _ h => h) rfl
    exact unflushed_trans ht accepted.unflushed
  | refused s _ refused =>
    have ht : Unflushed w (admitted w s) := unflushed_same (fun _ h => h) rfl
    exact unflushed_trans ht refused.unflushed

/-- What was open before an accept is as it was. -/
lemma Accepting.kept {w' : Worker} (h : Accepting io l w w') {i : Nat} (ho : w.opened i = true) :
    w'.opened i = true ∧ w'.epoll.interest i = w.epoll.interest i := by
  have other : ∀ s, Apart s (admitted w s) w' →
      w'.opened i = true ∧ w'.epoll.interest i = w.epoll.interest i := by
    intro s hd
    have hf : ∀ d, ((admitted w s).conn s d).fd ≠ i := by
      intro d
      simp only [Worker.conn, admitted_sessions, update_self]
      simp [sessionInit, connInit]
    obtain ⟨ho', -, hi⟩ := hd.kept i ho hf
    exact ⟨ho', hi⟩
  cases h with
  | nothing hs =>
    rw [hs]
    exact ⟨ho, rfl⟩
  | noObject j hf hs =>
    have different : i ≠ j := by
      rintro rfl
      rw [ho] at hf
      cases hf
    rw [hs]
    exact ⟨ho, by simp [different]⟩
  | accepted s _ _ _ accepted => exact other s accepted.toApart
  | refused s _ refused => exact other s refused.toApart

lemma ltnAccept_accepting (io : AcceptIO) (fd : Nat) (l : ListenerFd) (w : Worker) :
    Ensures (ltnAccept io fd l) w (fun _ w' => Accepting io l w w')
      (fun _ w' => schedule w'.log = schedule w.log) := by
  simp only [ltnAccept]
  rw [ensures_ite, ensures_pure]
  refine ⟨fun _ => .nothing rfl, fun _ => ?_⟩
  split
  · exact (ensures_pure _).mpr (.nothing rfl)
  · next i answer =>
    simp only [ensures_bind, ensures_takeFd]
    refine ⟨fun hf => ?_, fun _ => trivial⟩
    split
    · simp only [ensures_bind, dropFd, ensures_modify, ensures_pure]
      refine .noObject i hf.1 ?_
      simp [← hf.1]
    · next s _ =>
      refine (acceptSession_settles io l hf.1 hf.2).imp (fun _ w' h => ?_)
      rcases h with ⟨hu, ha | hr⟩
      · exact .accepted s i answer hu ha
      · exact .refused s hu hr

end

end Fzsvn.Guarantees.Proxy.Lifecycle
