import Fzsvn.Guarantees.Proxy.WorkerInvariant

/-!
# The task queue and deferred release

Tasks run once, in order, in the round that queued them, and no session goes back to
the pool with a linked task.
-/
namespace Fzsvn.Guarantees.Proxy.TaskQueue
open Library.Exec Source.Proxy WorkerInvariant List

/-- As many tasks as the queue holds bring the loop to its next round. -/
lemma drain_idle {w : Worker} {ios : List TaskIO} (hs : Sane w)
    (hc : w.phase = cursorAt w w.taskq.head?) (hf : ios.length = w.taskq.length) :
    Ensures (runWorker (ios.map .runTask)) w (fun _ w' => w'.phase = .idle) (fun _ _ => True) := by
  induction ios generalizing w with
  | nil =>
    have hn : w.taskq = [] := List.length_eq_zero_iff.mp hf.symm
    simp only [map_nil, runWorker, runAll, ensures_pure, hc, hn, head?_nil, cursorAt]
  | cons io rest ih =>
    cases hq : w.taskq with
    | nil => simp [hq] at hf
    | cons t others =>
      rw [hq, head?_cons] at hc
      simp only [map_cons, runWorker, runAll, ensures_bind]
      refine Ensures.mono (E := fun _ w' => Settled w'.log) (Q := fun _ w' => Sane w' ∧
        w.taskq = t :: w'.taskq ∧ w'.phase = cursorAt w' w'.taskq.head?) ?_ (fun _ w1 h1 => ?_)
        (fun _ _ _ => trivial)
      · simp only [workerStep, ensures_bind, ensures_get, hc, cursorAt, setPhase,
          ensures_modify]
        refine (runQueued_sane hs io hc).imp (fun _ w1 h1 => ?_)
        obtain ⟨sane1, queue1, next⟩ := h1
        exact ⟨sane1, queue1, by rw [next]; rfl⟩
      · obtain ⟨sane1, queue1, cursor1⟩ := h1
        refine ih sane1 cursor1 ?_
        rw [queue1] at hf
        simpa using hf

/-- In every run of the worker loop over any sessions: no callback finds its task in the
queue already, and no session is returned to the pool while a task of it is linked.
Tasks run in the order in which they were queued, none is lost, and when a round
starts all of them have run and the queue is empty; to get there from the middle of
the queue takes one task for each node that is left. Where the process stops, the
tasks run so far are the first ones queued. -/
theorem tasks_run_once_in_order (maxfd naccept : Nat) (opened : Nat → Bool) (actions : List Action) :
    Ensures (runWorker actions) (Worker.start maxfd naccept opened) (fun _ w =>
        (∀ s d, .busy s d ∉ w.log) ∧
        (∀ s client server, .put s client server ∈ w.log → client = false ∧ server = false) ∧
        queuedOf w.log = ranOf w.log ++ w.taskq ∧
        (w.phase = .idle → w.taskq = [] ∧ w.ntask = 0) ∧
        (∀ t next, w.phase = .running t next → w.taskq.head? = some t ∧
          ∀ ios : List TaskIO, ios.length = w.taskq.length →
            Ensures (runWorker (ios.map .runTask)) w (fun _ w' => w'.phase = .idle) (fun _ _ => True)))
      (fun _ w =>
        (∀ s d, .busy s d ∉ w.log) ∧
        (∀ s client server, .put s client server ∈ w.log → client = false ∧ server = false) ∧
        ranOf w.log <+: queuedOf w.log) := by
  refine (runAll_invariant (fun a _ h => workerStep_sane h a) actions
    (start_sane maxfd naccept opened)).mono (fun _ w hs => ?_)
    (fun _ w settled => ?_)
  · refine ⟨fun s d hm => hs.log.clean _ hm, fun s a b hm => hs.log.clean _ hm,
      hs.log.order, fun hi => ?_, fun t next hr => ?_⟩
    · have he : w.taskq = [] := by
        have := hs.paced
        simpa [Paced, hi] using this
      have hc := hs.chained.ntask
      rw [he] at hc
      exact ⟨he, by simpa using hc⟩
    · have hp := hs.paced
      simp only [Paced, hr] at hp
      obtain ⟨rest, hq, rfl⟩ := hp
      have hl : (w.conn t.session t.dir).task.linked = true :=
        (hs.chained.linked t.session t.dir).mp (by simp [hq])
      have hl' : ((w.sessions t.session).conns t.dir).task.linked = true := hl
      refine ⟨by rw [hq]; rfl, fun ios enough => drain_idle hs ?_ enough⟩
      simp [hr, hq, cursorAt, nextTask, hl']
  · exact ⟨fun s d hm => settled.clean _ hm, fun s a b hm => settled.clean _ hm,
      settled.order⟩

/-- In every run, each descriptor of a session in use is open and its item points to the
connection; no listener and no other session in use has it. -/
theorem descriptors_held (maxfd naccept : Nat) (opened : Nat → Bool) (actions : List Action) :
    Ensures (runWorker actions) (Worker.start maxfd naccept opened) (fun _ w =>
      ∀ s d (i : Nat), w.used s = true → (w.conn s d).fd = i → Lifecycle.Held w s d i ∧
        (∀ l ∈ w.lfds, l.fd ≠ i) ∧ ∀ r e, w.used r = true → (w.conn r e).fd = i → r = s ∧ e = d)
      (fun _ _ => True) := by
  refine (runAll_invariant (fun a _ h => workerStep_sane h a) actions
    (start_sane maxfd naccept opened)).imp_true (fun _ w h s d i hu hi => ?_)
  have ho := (h.tidy s).owns hu
  refine ⟨ho d i hi, fun l hm he => ?_, fun r e hr he => ((h.tidy r).owns hr).distinct ho he hi⟩
  have hl := (h.listening.item l.addr l.fd (mem_map_of_mem hm) i he).2
  rw [(ho d i hi).arg] at hl
  cases hl

end Fzsvn.Guarantees.Proxy.TaskQueue
