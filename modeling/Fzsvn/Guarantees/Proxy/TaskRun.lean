import Fzsvn.Guarantees.Proxy.Lifecycle
import Fzsvn.Guarantees.Proxy.LoopRules

/-!
# What a task leaves behind

The stages of `session_run_task` touch nothing outside their session and queue nothing.
A release is deferred to a queued task of the peer, or gives the object back unlinked.
-/
namespace Fzsvn.Guarantees.Proxy.TaskRun
open Library.Exec Source.Proxy Locality Lifecycle LoopRules

/-- What is logged besides queueing and running. -/
def passive : Event → Bool
  | .put _ client server => !client && !server
  | .released _ | .accepted _ _ | .flushed => true
  | _ => false

/-- What a release logs. -/
def releasing : Event → Bool
  | .put _ client server => !client && !server
  | .released _ => true
  | _ => false

lemma passive_of_releasing {e : Event} (h : releasing e = true) : passive e = true := by
  cases e <;> first | exact h | cases h

/-- The scheduling events since `w` are releases. -/
def Logged (s : Nat) (w w' : Worker) : Prop :=
  ∃ more, schedule w'.log = schedule w.log ++ more ∧
    ∀ e ∈ more, releasing e = true ∧ about e = some s

/-- A task of session `s` ran: nothing was queued, and the object is still in use or went
back to the pool unlinked. -/
structure Ran (s : Nat) (w w' : Worker) : Prop extends Apart s w w' where
  linked : ∀ d, (w'.conn s d).task.linked = (w.conn s d).task.linked
  armed : ∀ d, (w'.conn s d).task.armed = (w.conn s d).task.armed
  worker : (w'.sessions s).worker = (w.sessions s).worker
  taskq : w'.taskq = w.taskq
  ntask : w'.ntask = w.ntask
  owns : Owns w' s
  log : Logged s w w'
  outcome : w'.used s = w.used s ∨
    (w'.used s = false ∧ ∀ d, (w'.conn s d).fd < 0 ∧ (w.conn s d).task.linked = false)

variable {s : Nat} {d : Dir} {w w1 w2 : Worker}

lemma ran_of_solo (h : Solo s w w1) (ho : Owns w1 s) : Ran s w w1 :=
  ⟨h.toApart, h.linked, h.armed, h.worker, h.taskq, h.ntask, ho,
    ⟨[], by simpa using h.log, by simp⟩, .inl h.own⟩

lemma ran_emit (h : Ran s w w1) : Ran s w (w1.emit (.field s)) := by
  refine ⟨apart_trans h.toApart (apart_emit w1 rfl), h.linked, h.armed, h.worker, h.taskq, h.ntask,
    owns_emit _ h.owns, ?_, h.outcome⟩
  obtain ⟨more, log, rest⟩ := h.log
  exact ⟨more, by simpa [scheduling] using log, rest⟩

lemma logged_append {more : List Event} (h : Logged s w w1)
    (log : schedule w2.log = schedule w1.log ++ more)
    (rest : ∀ e ∈ more, releasing e = true ∧ about e = some s) : Logged s w w2 := by
  obtain ⟨first, log1, rest1⟩ := h
  refine ⟨first ++ more, by rw [log, log1, List.append_assoc], fun e hm => ?_⟩
  rcases List.mem_append.mp hm with old | new
  · exact rest1 e old
  · exact rest e new

/-- A release, possibly of an object that was given back before. -/
lemma ran_released (h : Ran s w w1) (h' : Released s d w1 w2) : Ran s w w2 where
  toApart := apart_trans h.toApart h'.toApart
  linked e := (h'.linked e).trans (h.linked e)
  armed e := (h'.armed e).trans (h.armed e)
  worker := h'.worker.trans h.worker
  taskq := h'.taskq.trans h.taskq
  ntask := h'.ntask.trans h.ntask
  owns := h'.owns
  log := by
    cases h'.outcome with
    | deferred _ _ _ log => exact logged_append h.log log (by simp [releasing, about])
    | returned _ _ _ _ log _ => exact logged_append h.log log (by simp [releasing, about])
  outcome := by
    cases h'.outcome with
    | deferred hp used _ _ =>
      rcases h.outcome with he | ⟨_, hg⟩
      · exact .inl (used.trans he)
      · -- the task that takes over would be linked
        rw [h.linked, (hg d.peer).2] at hp
        cases hp
    | returned hu hb used hc _ _ =>
      rcases h.outcome with he | ⟨hg, _⟩
      · exact .inr ⟨used, fun e => ⟨hc e, (h.linked e).symm.trans (hu e)⟩⟩
      · rw [hg] at hb
        cases hb

lemma sessionFree_ran (h : Ran s w w1) (hu : (w.conn s d).task.linked = false) :
    Ensures (sessionFree s d) w1 (fun _ w' => Ran s w w') (fun _ w' => Logged s w w') :=
  (sessionFree_released (fun _ => h.owns) ((h.linked d).trans hu)).mono
    (fun _ _ hr => ran_released h hr)
    (fun _ _ hs => logged_append h.log hs.2 (by simp [releasing, about]))

/-- The session so far was served alone and holds its descriptors. -/
def Alone (s : Nat) (w w' : Worker) : Prop := Solo s w w' ∧ Owns w' s

lemma alone_local {fds : Dir → Int} (h : Alone s w w1) (hs : Local s fds w1 w2)
    (hw : Within fds w1 s) : Alone s w w2 :=
  ⟨Solo.trans h.1 (local_solo hs hw), confined_owns hs.toConfined hw h.2⟩

lemma alone_emit (h : Alone s w w1) : Alone s w (w1.emit (.field s)) :=
  alone_local h (local_emit w1 rfl rfl) (within_fdsOf _ _)

lemma solo_logged (h : Solo s w w1) : Logged s w w1 := ⟨[], by simpa using h.log, by simp⟩

lemma sessionFparse_alone (h : Alone s w w1) :
    Ensures (sessionFparse s d) w1 (fun _ w' => Alone s w w') (fun _ w' => Solo s w w') :=
  (sessionFparse_local w1).mono (fun _ _ hs => alone_local h hs (within_fdsOf _ _))
    (fun _ _ hs => (alone_local h hs (within_fdsOf _ _)).1)

lemma sessionForward_alone (io : ForwardIO) (h : Alone s w w1) :
    Ensures (sessionForward io s d) w1 (fun _ w' => Alone s w w') (fun _ w' => Solo s w w') :=
  (sessionForward_solo io h.2).mono (fun _ _ next => ⟨Solo.trans h.1 next.1, next.2⟩)
    (fun _ _ next => Solo.trans h.1 next)

lemma connSendData_alone (ios : Nat → SendIO) (fd : Int) (h : Alone s w w1) :
    Ensures (connSendData ios fd 0#32 s d) w1 (fun _ w' => Alone s w w')
      (fun _ w' => Solo s w w') :=
  (connSendData_reacts ios fun _ he => absurd rfl he).mono
    (fun _ _ hs => alone_local h (hs.2.2 rfl) (within_fdsOf _ _))
    (fun _ _ hs => (alone_local h hs (within_fdsOf _ _)).1)

/-- The stages of a task whose own node is off the queue. -/
lemma stages_ran {io : TaskIO} (hu : (w.conn s d).task.linked = false) :
    Stages io s d (Alone s w) (fun _ => Alone s w) (fun _ => Alone s w) (fun _ => Alone s w)
      (Ran s w) (fun _ => Logged s w) := by
  have hf : ∀ w1, Alone s w w1 → Ensures (sessionFree s d) w1 (fun _ w' => Ran s w w')
      (fun _ w' => Logged s w w') := fun w1 h => sessionFree_ran (ran_of_solo h.1 h.2) hu
  have hs : ∀ {α : Type} {prog : Run α} {w1}, Ensures prog w1 (fun _ w' => Alone s w w')
      (fun _ w' => Solo s w w') → Ensures prog w1 (fun _ w' => Alone s w w')
      (fun _ w' => Logged s w w') := fun h =>
    h.mono (fun _ _ h => h) (fun _ _ h => solo_logged h)
  exact {
    stop := fun _ _ h => solo_logged h.1
    readStart := fun _ h => alone_emit h
    readForwarded := fun _ _ h => alone_emit h
    readSent := fun _ _ h => alone_emit h
    readFreed := fun _ h => ran_emit h
    parse := fun _ h _ => hs (sessionFparse_alone h)
    forward := fun _ h => hs (sessionForward_alone io.forward h)
    relay := fun _ h => hs (connSendData_alone io.send _ h)
    send := fun _ h _ => hs (connSendData_alone io.send _ h)
    delete := fun w1 h _ => hf w1 h
    failed := fun _ w1 _ h => hf w1 (h.elim id id)
    sendFailed := fun _ w1 _ h => hf w1 h
    closed := fun w1 h _ _ => hf w1 h
    again := fun _ h => sessionFree_ran h hu }

lemma sessionRunTask_ran (io : TaskIO) (ho : Owns w s) (hu : (w.conn s d).task.linked = false) :
    Ensures (sessionRunTask io s d) w (fun _ w' => Ran s w w') (fun _ w' => Logged s w w') := by
  refine ((stages_ran hu).sessionRunTask ⟨solo_refl w, ho⟩).imp (fun _ w' h => ?_)
  rcases h with ha | ha | ran
  · exact ran_of_solo ha.1 ha.2
  · exact ran_of_solo ha.1 ha.2
  · exact ran

end Fzsvn.Guarantees.Proxy.TaskRun
