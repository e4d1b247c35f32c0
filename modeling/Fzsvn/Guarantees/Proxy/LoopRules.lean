import Fzsvn.Source.Proxy.Worker

/-!
# Proof rules for the worker loop

One rule for each place where the code branches on what to call next: the action of the
loop, the callback of an event, and the stages of `session_run_task` with its `switch`
and common tail. An invariant is proved from facts about the functions these reach.
-/
namespace Fzsvn.Guarantees.Proxy.LoopRules
open Library.Exec Source.Proxy

/-! ## The loop -/

variable {w : Worker} {Q : Worker → Prop} {E : Halt → Worker → Prop}

/-- An action either is next in the loop or is no execution. -/
lemma ensures_workerStep {a : Action} (hs : E .kernel w)
    (deliver : ∀ s d bytes fin, a = .deliver s d bytes fin →
      w.used s = true ∧ (w.conn s d).fd > 0 ∧ (w.conn s d).sock.fin = false →
      Q (w.mapConn s d (·.deliver bytes fin))) (addPolicy : ∀ io, a = .addPolicy io → w.phase = .idle →
      Ensures (workerAddPolicy io) w (fun _ => Q) E)
    (delPolicy : ∀ policy, a = .delPolicy policy → w.phase = .idle →
      Ensures (workerDelPolicy policy) w (fun _ => Q) E)
    (poll : ∀ ctl batch, a = .poll ctl batch → w.phase = .idle →
      Ensures (pollEvents ctl batch) w (fun _ => Q) E) (dispatch : ∀ io fd events rest, a = .dispatch io →
      w.phase = .polling ((fd, events) :: rest) → hangupSeen w fd events = true →
      Ensures (dispatchEvent io fd events) { w with phase := .polling rest } (fun _ => Q) E)
    (drain : a = .drain → w.phase = .polling [] → Q { w with phase := cursorAt w w.taskq.head? })
    (runTask : ∀ io t next, a = .runTask io → w.phase = .running t next →
      Ensures (runQueued io t) w (fun _ w' => Q { w' with phase := cursorAt w' next }) E) :
    Ensures (workerStep a) w (fun _ => Q) E := by
  have ho : Ensures (throw .kernel : Run Unit) w (fun _ => Q) E := (ensures_throw _).mpr hs
  cases a with
  | deliver s d bytes fin =>
    simp only [workerStep, ensures_bind, ensures_get, ensures_answers, ensures_modify]
    exact ⟨deliver s d bytes fin rfl, fun _ => hs⟩
  | addPolicy io =>
    cases phase : w.phase with
    | idle => simpa [workerStep, phase] using addPolicy io rfl phase
    | _ => simpa only [workerStep, ensures_bind, ensures_get, phase] using ho
  | delPolicy policy =>
    cases phase : w.phase with
    | idle => simpa [workerStep, phase] using delPolicy policy rfl phase
    | _ => simpa only [workerStep, ensures_bind, ensures_get, phase] using ho
  | poll ctl batch =>
    cases phase : w.phase with
    | idle => simpa [workerStep, phase] using poll ctl batch rfl phase
    | _ => simpa only [workerStep, ensures_bind, ensures_get, phase] using ho
  | dispatch io =>
    cases phase : w.phase with
    | polling batch =>
      simp only [workerStep, ensures_bind, ensures_get, phase]
      cases batch with
      | nil => exact ho
      | cons event rest =>
        obtain ⟨fd, events⟩ := event
        simp only [dispatchNext, ensures_bind, ensures_get, ensures_answers, setPhase, ensures_modify]
        exact ⟨dispatch io fd events rest rfl phase, fun _ => hs⟩
    | _ => simpa only [workerStep, ensures_bind, ensures_get, phase] using ho
  | drain =>
    cases phase : w.phase with
    | polling batch =>
      cases batch with
      | nil =>
        simp only [workerStep, ensures_bind, ensures_get, phase, setPhase, ensures_modify]
        exact drain rfl phase
      | cons e rest => simpa only [workerStep, ensures_bind, ensures_get, phase] using ho
    | _ => simpa only [workerStep, ensures_bind, ensures_get, phase] using ho
  | runTask io =>
    cases phase : w.phase with
    | running t next =>
      simp only [workerStep, ensures_bind, ensures_get, phase, setPhase, ensures_modify]
      exact runTask io t next rfl phase
    | _ => simpa only [workerStep, ensures_bind, ensures_get, phase] using ho

/-- An event is dropped, or reaches the callback of its item. -/
lemma ensures_dispatchEvent {fd : Nat} {events : Mask} (io : CallbackIO)
    (hd : Q w) (hs : ∀ halt, E halt w)
    (hc : ∀ cb arg, events ≠ 0#32 → (w.item fd).iocb = some cb → (w.item fd).arg = some arg →
      Ensures (callIocb io cb arg fd events) w (fun _ => Q) E) :
    Ensures (dispatchEvent io fd events) w (fun _ => Q) E := by
  simp only [dispatchEvent]
  rw [ensures_ite, ensures_pure]
  refine ⟨fun _ => hd, fun he => ?_⟩
  simp only [ensures_bind, ensures_itemOf, ensures_get, ensures_stopUnless, Int.toNat_natCast]
  refine ⟨fun _ _ => ⟨fun _ => ?_, fun _ => hs _⟩, fun _ => hs _⟩
  rw [ensures_ite, ensures_pure]
  refine ⟨fun _ => hd, fun _ => ?_⟩
  split
  · exact (ensures_throw _).mpr (hs _)
  · exact (ensures_pure _).mpr hd
  · next cb arg iocb hasArg =>
    simp only [ensures_bind, ensures_pure]
    exact hc cb arg he iocb hasArg

/-! ## Tasks -/

/-- Postconditions for the stages of `session_run_task`, from which its own follows: the
parse, forward and send stages end in `parsed`, `forwarded` and `sent` with their
return value, and a release ends in `freed`. Behind a failed send of `TASK_PARSE` the
code goes on from there, to the common tail. -/
structure Stages (io : TaskIO) (s : Nat) (d : Dir) (start : Worker → Prop)
    (parsed forwarded sent : Int → Worker → Prop) (freed : Worker → Prop)
    (E : Halt → Worker → Prop) : Prop where
  stop : ∀ w halt, start w → E halt w
  readStart : ∀ w, start w → start (w.emit (.field s))
  readForwarded : ∀ ret w, forwarded ret w → forwarded ret (w.emit (.field s))
  readSent : ∀ ret w, sent ret w → sent ret (w.emit (.field s))
  readFreed : ∀ w, freed w → freed (w.emit (.field s))
  parse : ∀ w, start w → (w.conn s d).task.kind = .parse → Ensures (sessionFparse s d) w parsed E
  forward : ∀ w, parsed 0 w → Ensures (sessionForward io.forward s d.peer) w forwarded E
  relay : ∀ w, forwarded 0 w →
    Ensures (connSendData io.send (w.conn s d.peer).fd 0#32 s d.peer) w sent E
  send : ∀ w, start w → (w.conn s d).task.kind = .send →
    Ensures (connSendData io.send (w.conn s d).fd 0#32 s d) w sent E
  delete : ∀ w, start w → (w.conn s d).task.kind = .delete → Ensures (sessionFree s d) w (fun _ => freed) E
  failed : ∀ ret w, ret ≠ 0 → parsed ret w ∨ forwarded ret w →
    Ensures (sessionFree s d) w (fun _ => freed) E
  sendFailed : ∀ ret w, ret ≠ 0 → sent ret w → Ensures (sessionFree s d) w (fun _ => freed) E
  closed : ∀ w, sent 0 w → (w.conn s d).flags.isClosed = true →
    (w.conn s d.peer).flags.isClosed = true → Ensures (sessionFree s d) w (fun _ => freed) E
  again : ∀ w, freed w → Ensures (sessionFree s d) w (fun _ => freed) E

variable {io : TaskIO} {s : Nat} {d : Dir} {start freed : Worker → Prop} {parsed forwarded sent : Int → Worker → Prop}

section

variable (h : Stages io s d start parsed forwarded sent freed E)
include h

variable {w : Worker}

lemma Stages.closeIfDone (hb : sent 0 w ∨ freed w) :
    Ensures (closeIfDone s d) w (fun _ w' => sent 0 w' ∨ freed w') E := by
  simp only [Source.Proxy.closeIfDone, ensures_bind, ensures_session]
  rw [ensures_ite, ensures_pure]
  refine ⟨fun both => ?_, fun _ => ?_⟩
  · simp only [Bool.and_eq_true] at both
    simp only [ensures_bind, ensures_pure]
    refine Ensures.imp (Q := fun _ => freed) ?_ (fun _ _ hd => .inr hd)
    rcases hb with hd | hd
    · exact h.closed _ (h.readSent 0 w hd) both.1 both.2
    · exact h.again _ (h.readFreed w hd)
  · rcases hb with hd | hd
    · exact .inl (h.readSent 0 w hd)
    · exact .inr (h.readFreed w hd)

lemma Stages.runParse (hb : start w) (hk : (w.conn s d).task.kind = .parse) :
    Ensures (runParse io s d) w (fun _ w' => sent 0 w' ∨ freed w') E := by
  have hr : ∀ ret w, ret ≠ 0 → parsed ret w ∨ forwarded ret w →
      Ensures (sessionFree s d) w (fun _ w' => sent 0 w' ∨ freed w') E :=
    fun ret w bad any => (h.failed ret w bad any).imp (fun _ _ hd => .inr hd)
  simp only [Source.Proxy.runParse, ensures_bind]
  refine (h.parse w hb hk).imp (fun ret w1 h1 => ?_)
  rw [ensures_ite]
  refine ⟨fun bad => ?_, fun ok => ?_⟩
  · simp only [ensures_bind, ensures_pure]
    exact hr ret w1 bad (.inl h1)
  rw [not_not.mp ok] at h1
  simp only [ensures_bind]
  refine (h.forward w1 h1).imp (fun ret w2 h2 => ?_)
  rw [ensures_ite]
  refine ⟨fun bad => ?_, fun ok => ?_⟩
  · simp only [ensures_bind, ensures_pure]
    exact hr ret w2 bad (.inr h2)
  rw [not_not.mp ok] at h2
  simp only [ensures_bind, ensures_conn]
  refine (h.relay _ (h.readForwarded 0 w2 h2)).imp (fun ret w3 h3 => ?_)
  simp only [ensures_onlyIf, ensures_bind, ensures_pure]
  refine ⟨fun bad => ?_, fun ok => h.closeIfDone (.inl ?_)⟩
  · exact (h.sendFailed ret w3 bad h3).imp (fun _ _ hd => h.closeIfDone (.inr hd))
  · rw [not_not.mp ok] at h3
    exact h3

lemma Stages.runSend (hb : start w) (hk : (w.conn s d).task.kind = .send) :
    Ensures (runSend io s d) w (fun _ w' => sent 0 w' ∨ freed w') E := by
  simp only [Source.Proxy.runSend, ensures_bind, ensures_conn]
  refine (h.send _ (h.readStart w hb) hk).imp (fun ret w1 h1 => ?_)
  rw [ensures_ite]
  refine ⟨fun bad => ?_, fun ok => h.closeIfDone (.inl ?_)⟩
  · simp only [ensures_bind, ensures_pure]
    exact (h.sendFailed ret w1 bad h1).imp (fun _ _ hd => .inr hd)
  · rw [not_not.mp ok] at h1
    exact h1

/-- `session_run_task`, stage by stage. -/
lemma Stages.sessionRunTask (hb : start w) : Ensures (sessionRunTask io s d) w
      (fun _ w' => start w' ∨ sent 0 w' ∨ freed w') E := by
  have hr := h.readStart w hb
  simp only [Source.Proxy.sessionRunTask, ensures_bind, ensures_session, ensures_require]
  refine ⟨fun _ => ?_, fun _ => h.stop _ _ hr⟩
  split
  · exact (ensures_pure _).mpr (.inl hr)
  · next kind =>
    simp only [ensures_bind, ensures_pure]
    exact (h.delete _ hr kind).imp (fun _ _ hd => .inr (.inr hd))
  · next kind =>
    exact (h.runParse hr kind).imp (fun _ _ hd => .inr hd)
  · next kind =>
    exact (h.runSend hr kind).imp (fun _ _ hd => .inr hd)

end

end Fzsvn.Guarantees.Proxy.LoopRules
