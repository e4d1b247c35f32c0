import Fzsvn.Guarantees.Proxy.WorkerInvariant

/-!
# Invariants of single sessions

A property of one session is an invariant of the whole worker if the session's own
callbacks and tasks keep it, if an accept establishes it, and if it does not see what is
done elsewhere. The property is about session objects in use and about those in the pool.
-/
namespace Fzsvn.Guarantees.Proxy.SessionRule
open Library.Exec Source.Proxy Locality Lifecycle LoopRules TaskRun WorkerInvariant

/-- Session `r` was left alone, with all it holds. -/
structure Elsewhere (r : Nat) (w w' : Worker) : Prop where
  session : w'.sessions r = w.sessions r
  used : w'.used r = w.used r
  noted : noted r w'.log = noted r w.log
  history : history r w'.log = history r w.log
  updates : ∀ i ∈ w.epoll.fe.updates, i ∈ w'.epoll.fe.updates
  kept : w.used r = true → ∀ d (i : Nat), (w.conn r d).fd = i →
    w'.item i = w.item i ∧ w'.epoll.interest i = w.epoll.interest i
  unflushed : Unflushed w w'

variable {r s : Nat} {w w1 w' : Worker}

lemma elsewhere_trans (h1 : Elsewhere r w w1) (h2 : Elsewhere r w1 w') : Elsewhere r w w' where
  session := h2.session.trans h1.session
  used := h2.used.trans h1.used
  noted := h2.noted.trans h1.noted
  history := h2.history.trans h1.history
  updates i hi := h2.updates i (h1.updates i hi)
  kept inUse d i fd := by
    obtain ⟨item1, interest1⟩ := h1.kept inUse d i fd
    obtain ⟨item2, interest2⟩ := h2.kept (h1.used.trans inUse) d i (by rw [Worker.conn, h1.session]; exact fd)
    exact ⟨item2.trans item1, interest2.trans interest1⟩
  unflushed := unflushed_trans h1.unflushed h2.unflushed

lemma elsewhere_phase (p : Phase) : Elsewhere r w { w with phase := p } :=
  ⟨rfl, rfl, rfl, rfl, fun _ h => h, fun _ _ _ _ => ⟨rfl, rfl⟩, unflushed_same (fun _ h => h) rfl⟩

/-- What serves session `s` leaves the others alone. -/
lemma apart_elsewhere (hd : Apart s w w') (owns : Owns w s) (different : r ≠ s)
    (ho : w.used r = true → Owns w r) : Elsewhere r w w' where
  session := hd.sessions r different
  used := hd.used r different
  noted := hd.notes.noted different
  history := hd.notes.history different
  updates := hd.updates
  kept hi d i fd := by
    have hh := ho hi
    have hf : ∀ e, (w.conn s e).fd ≠ i := fun e h =>
      different (hh.distinct owns fd h).1
    exact (hd.kept i (hh d i fd).opened hf).2
  unflushed := hd.unflushed

lemma admitted_elsewhere (different : r ≠ s) : Elsewhere r w (admitted w s) :=
  ⟨by simp [admitted, different], by simp [admitted, different], rfl, rfl, fun _ h => h,
    fun _ _ _ _ => ⟨rfl, rfl⟩, unflushed_same (fun _ h => h) rfl⟩

/-- An accept is about a session that was not in use. -/
lemma accept_elsewhere (hs : Sane w) (hd : Apart s (admitted w s) w') (different : r ≠ s) :
    Elsewhere r w w' := by
  obtain ⟨ho, -, owns⟩ := admitted_others (s := s) hs
  refine elsewhere_trans (admitted_elsewhere different) (apart_elsewhere hd owns different fun hi => ?_)
  exact (ho r different).owns hi

lemma aside_elsewhere {i : Nat} (hs : Sane w) (h : Aside i w w') : Elsewhere r w w' where
  session := by rw [h.sessions]
  used := by rw [h.used]
  noted := by rw [h.log]
  history := by rw [h.log]
  updates := h.updates
  kept hi d j fd := by
    have hh := (hs.tidy r).owns hi d j fd
    exact (h.kept j (h.ne_of_opened hh.opened)).2
  unflushed := h.unflushed

lemma dequeue_elsewhere {d : Dir} (different : r ≠ s) : Elsewhere r w (dequeue w s d) where
  session := dequeue_conn_other w different
  used := by simp [dequeue]
  noted := by simp [dequeue, about, different.symm]
  history := by simp [dequeue, history, scheduling, about, different.symm]
  updates i hi := by simpa [dequeue] using hi
  kept _ _ _ _ := by simp [dequeue]
  unflushed := unflushed_same (fun _ h => h) rfl

/-- A closed descriptor that was no session's. -/
lemma drop_elsewhere {i : Nat} (hf : w.used r = true → ∀ d, (w.conn r d).fd ≠ i) :
    Elsewhere r w { w with
      opened := Function.update w.opened i false
      epoll := { w.epoll with interest := Function.update w.epoll.interest i none } } where
  session := rfl
  used := rfl
  noted := rfl
  history := rfl
  updates _ h := h
  kept hi d j fd := by
    have different : j ≠ i := by
      rintro rfl
      exact hf hi d fd
    exact ⟨rfl, by simp [different]⟩
  unflushed := unflushed_drop w i

/-- The objects an accept took, or gave back. -/
def Settles (Inv : Worker → Nat → Prop) (io : AcceptIO) (l : ListenerFd) (w w' : Worker) : Prop :=
  (∀ s i, io.fd = some i → w.used s = false → Accepted l s i w w' → Inv w' s) ∧
    ∀ s, w.used s = false → Refused s w w' → Inv w' s

/-- What an invariant of single sessions has to prove: `allow` says which actions are
considered, and `Fit` what an accept may rely on. -/
structure Preserved (Inv : Worker → Nat → Prop) (Fit : (Nat → AcceptIO) → Worker → Prop)
    (allow : Worker → Action → Prop) : Prop where
  frame : ∀ {r w w'}, Elsewhere r w w' → Inv w r → Inv w' r
  fits : ∀ {w io}, allow w (.dispatch io) → ∀ p, Fit io.accept { w with phase := p }
  accept : ∀ {ios k fd l w}, k < w.naccept → Sane w → Fit ios w → (∀ s, Inv w s) →
    Ensures (ltnAccept (ios k) fd l) w (fun _ w' => Fit ios w' ∧ Settles Inv (ios k) l w w') (fun _ _ => True)
  deliver : ∀ {w s d bytes fin}, Sane w → Inv w s → w.used s = true →
    allow w (.deliver s d bytes fin) →
    (w.conn s d).fd > 0 → (w.conn s d).sock.fin = false →
    Inv (w.mapConn s d (·.deliver bytes fin)) s
  flush : ∀ {w s ctl batch}, Sane w → Inv w s → allow w (.poll ctl batch) →
    Inv ({ w with epoll := fdEpollFlushEvents ctl w.epoll }.emit .flushed) s
  call : ∀ {w io cb fd events rest s d}, Sane w → Inv w s → w.used s = true →
    allow w (.dispatch io) → w.phase = .polling ((fd, events) :: rest) →
    hangupSeen w fd events = true → events ≠ 0#32 → (w.item fd).iocb = some cb →
    (w.item fd).arg = some (.conn s d) → (w.conn s d).fd = fd →
    (w.conn s d).task.linked = false →
    Ensures (callIocb io cb (.conn s d) fd events) { w with phase := .polling rest }
      (fun _ w' => Inv w' s) (fun _ _ => True)
  task : ∀ {w io s d next}, Sane w → Inv w s → w.used s = true → allow w (.runTask io) →
    w.phase = .running ⟨s, d⟩ next → (w.conn s d).task.linked = true →
    Ensures (sessionRunTask io s d) (dequeue w s d) (fun _ w' => Inv w' s) (fun _ _ => True)
  free : ∀ {w₀ w s policy l}, allow w₀ (.delPolicy policy) →
    w₀.lfds.find? (·.policy = policy) = some l → s ∈ l.ssnlist → Elsewhere s w₀ w → Sane w →
    Inv w s → w.used s = true → w.phase = .idle →
    Ensures (sessionFree s .client) w (fun _ w' => Inv w' s) (fun _ _ => True)

variable {Inv : Worker → Nat → Prop} {Fit : (Nat → AcceptIO) → Worker → Prop} {allow : Worker → Action → Prop}

def All (Inv : Worker → Nat → Prop) (w : Worker) : Prop := ∀ s, Inv w s

section

variable (p : Preserved Inv Fit allow)
include p

/-- Where nothing was done for any session. -/
lemma Preserved.all_elsewhere {w' : Worker} (all : All Inv w) (hs : ∀ r, Elsewhere r w w') :
    All Inv w' := fun r => p.frame (hs r) (all r)

lemma Preserved.all_phase (all : All Inv w) (q : Phase) : All Inv { w with phase := q } :=
  p.all_elsewhere all fun _ => elsewhere_phase q

/-- Where one session was served. -/
lemma Preserved.all_but {w' : Worker} {s : Nat} (all : All Inv w)
    (hs : ∀ r, r ≠ s → Elsewhere r w w') (own : Inv w' s) : All Inv w' := by
  intro r
  by_cases he : r = s
  · rw [he]
    exact own
  · exact p.frame (hs r he) (all r)

/-! ### Accept -/

lemma Preserved.accepting {io : AcceptIO} {l : ListenerFd} {w' : Worker} (sane : Sane w)
    (all : All Inv w) (h : Accepting io l w w') (hs : Settles Inv io l w w') : All Inv w' := by
  cases h with
  | nothing same =>
    rw [same]
    exact all
  | noObject i hf same =>
    rw [same]
    refine p.all_elsewhere all fun r => ⟨rfl, rfl, rfl, rfl, fun _ h => h, fun hi d j fd => ?_,
      unflushed_forget w i⟩
    have hh := (sane.tidy r).owns hi d j fd
    have different : j ≠ i := by
      rintro rfl
      rw [hh.opened] at hf
      cases hf
    exact ⟨rfl, by simp [different]⟩
  | accepted s i ha hu accepted =>
    exact p.all_but all (fun r different => accept_elsewhere sane accepted.toApart different)
      (hs.1 s i ha hu accepted)
  | refused s hu refused =>
    exact p.all_but all (fun r different => accept_elsewhere sane refused.toApart different)
      (hs.2 s hu refused)

lemma Preserved.acceptLoop (ios : Nat → AcceptIO) (fd : Nat) (l : ListenerFd) (i n : Nat)
    (hb : i + n ≤ w.naccept) (sane : Sane w) (fit : Fit ios w) (all : All Inv w) :
    Ensures (acceptLoop ios fd l i n) w (fun _ w' => All Inv w') (fun _ _ => True) := by
  induction n generalizing i w with
  | zero => exact (ensures_pure _).mpr all
  | succ n ih =>
    simp only [Source.Proxy.acceptLoop, ensures_bind]
    refine ((ltnAccept_accepting (ios i) fd l w).and (p.accept (by omega) sane fit all)).imp_true
      (fun ret w1 h1 => ?_)
    obtain ⟨ha, fit1, hs⟩ := h1
    have all1 := p.accepting sane all ha hs
    have bound1 : i + 1 + n ≤ w1.naccept := by
      rw [ha.same.1]
      omega
    rw [ensures_ite, ensures_pure]
    exact ⟨fun _ => all1, fun _ => ih (i + 1) bound1 (accepting_sane sane ha).1 fit1 all1⟩

variable {events : Mask}

lemma Preserved.listenerAccept (ios : Nat → AcceptIO) {fd : Nat} (addr : Nat) (hs : Sane w)
    (fit : Fit ios w) (all : All Inv w) :
    Ensures (listenerAccept ios fd events addr) w (fun _ w' => All Inv w') (fun _ _ => True) := by
  simp only [Source.Proxy.listenerAccept]
  rw [ensures_ite, ensures_pure]
  refine ⟨fun _ => all, fun _ => ?_⟩
  simp only [ensures_bind, ensures_get]
  split
  · exact (ensures_throw _).mpr trivial
  · simp only [ensures_bind, ensures_get]
    exact p.acceptLoop ios fd _ 0 _ (by simp) hs fit all

/-! ### Callbacks -/

lemma Preserved.callIocb (io : CallbackIO) {cb : Callback} {s : Nat} {d : Dir} {fd : Nat}
    {rest : List (Nat × Mask)} (sane : Sane w) (all : All Inv w) (ok : allow w (.dispatch io))
    (phase : w.phase = .polling ((fd, events) :: rest)) (hh : hangupSeen w fd events = true)
    (he : events ≠ 0#32) (iocb : (w.item fd).iocb = some cb) (arg : (w.item fd).arg = some (.conn s d)) :
    Ensures (callIocb io cb (.conn s d) fd events) { w with phase := .polling rest }
      (fun _ w' => All Inv w') (fun _ _ => True) := by
  obtain ⟨ht, -, unqueued⟩ := taken_sane sane phase
  have hu := fun own => unlinked_of_unqueued (s := s) (d := d) ht unqueued own
  have hr := callIocb_reacts io cb hu he
  by_cases hs : Served { w with phase := .polling rest } s d fd
  · have hi := used_of_served (ht.tidy s) hs (Int.natCast_nonneg fd)
    have own := p.call sane (all s) hi ok phase hh he iocb arg hs.fd (hu hs.fd)
    refine (hr.and own).imp_true (fun _ w' h => ?_)
    obtain ⟨⟨-, fds, hw, hr⟩, hg⟩ := h
    have hd := reacts_apart hr hw
    refine p.all_but all (fun r different => elsewhere_trans (elsewhere_phase (.polling rest)) ?_) hg
    exact apart_elsewhere hd ((ht.tidy s).owns hi) different (ht.tidy r).owns
  · -- the callback stops at its own assertions
    exact hr.imp_true (fun _ w' h => absurd h.1 hs)

lemma Preserved.dispatchEvent (io : CallbackIO) {fd : Nat} {rest : List (Nat × Mask)}
    (hs : Sane w) (all : All Inv w) (ok : allow w (.dispatch io))
    (phase : w.phase = .polling ((fd, events) :: rest)) (hh : hangupSeen w fd events = true) :
    Ensures (dispatchEvent io fd events) { w with phase := .polling rest }
      (fun _ w' => All Inv w') (fun _ _ => True) := by
  have ht := p.all_phase all (.polling rest)
  refine ensures_dispatchEvent io ht (fun _ => trivial) fun cb arg he hi hasArg => ?_
  cases arg with
  | listener addr =>
    cases cb with
    | listenerAccept =>
      exact p.listenerAccept io.accept addr (taken_sane hs phase).1 (p.fits ok _) ht
    | _ => exact (ensures_throw _).mpr trivial
  | conn s d => exact p.callIocb io hs all ok phase hh he hi hasArg

/-! ### Commands and polling -/

lemma Preserved.workerAddPolicy (io : PolicyIO) (hs : Sane w) (all : All Inv w) :
    Ensures (workerAddPolicy io) w (fun _ w' => All Inv w') (fun _ _ => True) := by
  refine (workerAddPolicy_aside io w).imp_true (fun _ w' h => ?_)
  rcases h with rfl | ⟨i, ha, -⟩
  · exact all
  · exact p.all_elsewhere all fun r => aside_elsewhere hs ha

/-- The sessions of a deleted policy; each was left alone until its turn. -/
lemma Preserved.freeSessions {w₀ : Worker} {policy : Nat} {l : ListenerFd}
    (ok : allow w₀ (.delPolicy policy)) (hf : w₀.lfds.find? (·.policy = policy) = some l)
    (sessions : List Nat) (hl : ∀ s ∈ sessions, s ∈ l.ssnlist) (sane : Sane w)
    (idle : w.phase = .idle) (all : All Inv w) (hu : ∀ s, w.used s = true → Elsewhere s w₀ w) :
    Ensures (freeSessions sessions) w (fun _ w' => All Inv w') (fun _ _ => True) := by
  induction sessions generalizing w with
  | nil => exact (ensures_pure _).mpr all
  | cons s rest ih =>
    simp only [Source.Proxy.freeSessions, ensures_bind]
    have hr := sessionFree_released (sane.tidy s).owns_of_worker (idle_unlinked sane idle s .client)
    cases hi : w.used s with
    | false =>
      refine hr.imp_true (fun _ w1 released => ?_)
      rw [(released_sane sane idle released).2.2.1] at hi
      cases hi
    | true =>
      have own := p.free ok hf (hl s (by simp)) (hu s hi) sane (all s) hi idle
      refine (hr.and own).imp_true (fun _ w1 h1 => ?_)
      obtain ⟨released, own⟩ := h1
      obtain ⟨sane1, idle1, -, hg⟩ := released_sane sane idle released
      have ho : ∀ r, r ≠ s → Elsewhere r w w1 := fun r different =>
        apart_elsewhere released.toApart ((sane.tidy s).owns hi) different (sane.tidy r).owns
      refine ih (fun r hm => hl r (by simp [hm])) sane1 idle1
        (p.all_but all ho own) fun r inUse1 => ?_
      by_cases he : r = s
      · rw [he, hg] at inUse1
        cases inUse1
      · have hs := ho r he
        exact elsewhere_trans (hu r (hs.used.symm.trans inUse1)) hs

lemma Preserved.workerDelPolicy (policy : Nat) (sane : Sane w) (idle : w.phase = .idle)
    (all : All Inv w) (ok : allow w (.delPolicy policy)) :
    Ensures (workerDelPolicy policy) w (fun _ w' => All Inv w') (fun _ _ => True) := by
  simp only [Source.Proxy.workerDelPolicy, ensures_bind, ensures_get]
  split
  · exact (ensures_pure _).mpr all
  next l found =>
  obtain ⟨he, hu⟩ := erased_sane sane found
  have hs : ∀ r, Elsewhere r w { w with lfds := w.lfds.erase l } := fun r =>
    ⟨rfl, rfl, rfl, rfl, fun _ h => h, fun _ _ _ _ => ⟨rfl, rfl⟩, unflushed_same (fun _ h => h) rfl⟩
  have all1 := p.all_elsewhere all hs
  simp only [ensures_bind, ensures_modify, listenerFreeFd, ensures_pure]
  refine ((freeSessions_sane he l.ssnlist idle hu).and
    (p.freeSessions ok found l.ssnlist (fun _ h => h) he idle all1 fun r _ => hs r)).imp_true
    (fun _ w2 h2 => ?_)
  obtain ⟨⟨sane2, -, unlisted2⟩, all2⟩ := h2
  simp only [ensures_onlyIf, dropFd, ensures_modify]
  refine ⟨fun hp => ?_, fun _ => all2⟩
  have arg := (unlisted2.item l.fd.toNat (Int.toNat_of_nonneg (by omega)).symm).2
  refine p.all_elsewhere all2 fun r => drop_elsewhere fun hi d fd => ?_
  rw [((sane2.tidy r).owns hi d _ fd).arg] at arg
  cases arg

lemma Preserved.pollEvents {ctl : Nat → Bool} {batch : List (Nat × Mask)} (hs : Sane w)
    (all : All Inv w) (ok : allow w (.poll ctl batch)) :
    Ensures (pollEvents ctl batch) w (fun _ w' => All Inv w') (fun _ _ => True) := by
  simp only [Source.Proxy.pollEvents, ensures_bind, ensures_modify, ensures_emit, ensures_get,
    ensures_answers, setPhase]
  exact ⟨fun _ => p.all_phase (fun r => p.flush hs (all r) ok) _, fun _ => trivial⟩

lemma Preserved.deliverBytes {s : Nat} {d : Dir} {bytes : List UInt8} {fin : Bool}
    (hs : Sane w) (all : All Inv w) (ok : allow w (.deliver s d bytes fin))
    (hg : w.used s = true ∧ (w.conn s d).fd > 0 ∧ (w.conn s d).sock.fin = false) :
    All Inv (w.mapConn s d (·.deliver bytes fin)) := by
  refine p.all_but all (fun r different => ?_) (p.deliver hs (all s) hg.1 ok hg.2.1 hg.2.2)
  exact ⟨by simp [different], rfl, rfl, rfl, fun _ h => h, fun _ _ _ _ => ⟨rfl, rfl⟩,
    unflushed_same (fun _ h => h) rfl⟩

/-! ### Tasks -/

lemma Preserved.runQueued (io : TaskIO) {s : Nat} {d : Dir} {next : Option TaskRef}
    (hs : Sane w) (all : All Inv w) (ok : allow w (.runTask io))
    (hr : w.phase = .running ⟨s, d⟩ next) :
    Ensures (runQueued io ⟨s, d⟩) w (fun _ w' => All Inv w') (fun _ _ => True) := by
  have hp := hs.paced
  simp only [Paced, hr] at hp
  obtain ⟨rest, hq, -⟩ := hp
  obtain ⟨stable1, -, hi⟩ := dequeue_stable hs.toStable hq
  have owns1 := (stable1.tidy s).owns hi
  have hh : (w.conn s d).task.linked = true :=
    (hs.chained.linked s d).mp (by rw [hq]; simp)
  have ran := sessionRunTask_ran io owns1 (dequeue_linked w)
  have own := p.task hs (all s) hi ok hr hh
  refine runQueued_of_task hs.toStable hi ((ran.and own).imp_true (fun _ w' h => ?_))
  obtain ⟨ran, own⟩ := h
  refine p.all_but all (fun r different => elsewhere_trans (dequeue_elsewhere (d := d) different) ?_) own
  exact apart_elsewhere ran.toApart owns1 different (stable1.tidy r).owns

/-! ### Runs -/

lemma Preserved.workerStep (a : Action) (hs : Sane w) (all : All Inv w) (ok : allow w a) :
    Ensures (workerStep a) w (fun _ w' => All Inv w') (fun _ _ => True) := by
  refine ensures_workerStep trivial ?_ ?_ ?_ ?_ ?_ ?_ ?_
  · rintro s d bytes fin rfl hg
    exact p.deliverBytes hs all ok hg
  · intro io _ hi
    exact p.workerAddPolicy io hs all
  · rintro policy rfl hi
    exact p.workerDelPolicy policy hs hi all ok
  · rintro ctl batch rfl hi
    exact p.pollEvents hs all ok
  · rintro io fd events rest rfl hp hh
    exact p.dispatchEvent io hs all ok hp hh
  · intro _ hp
    exact p.all_phase all _
  · rintro io ⟨s, d⟩ next rfl hr
    exact (p.runQueued io hs all ok hr).imp_true (fun _ w' h => p.all_phase h _)

/-- In every run of allowed actions every session keeps the invariant. -/
lemma Preserved.run {actions : List Action} (hs : Sane w) (all : All Inv w)
    (ha : Along Source.Proxy.workerStep allow actions w) :
    Ensures (runWorker actions) w (fun _ w' => Sane w' ∧ All Inv w') (fun _ _ => True) :=
  runAll_ensures (I := fun w => Sane w ∧ All Inv w)
    (fun a _ h ok => ((workerStep_sane h.1 a).and (p.workerStep a h.1 h.2 ok)).imp_true (fun _ _ h => h))
    ⟨hs, all⟩ ha

end

end Fzsvn.Guarantees.Proxy.SessionRule
