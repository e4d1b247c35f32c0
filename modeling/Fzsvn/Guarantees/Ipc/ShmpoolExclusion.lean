import Fzsvn.Guarantees.Ipc.ShmpoolQueue
import Fzsvn.Source.Ipc.ShmpoolSteps

/-!
# Processes that share a pool

The semaphore lets one process at a time work on the free list, and a process that works on
it finds the queue that the last one left. The test whether there is a free node comes
before the semaphore, though: two getters that both saw the last free node enter one after
the other, and the second takes the front of an empty list (`late_getter`). As long as each
getter that gets the semaphore finds a free node, no process leaves the list, no node is held
twice and `freed` is not negative (`shmpool_exclusive`).
-/
namespace Fzsvn.Guarantees.Ipc.ShmpoolExclusion
open Library.MachineInt Source.Ipc ShmpoolQueue List Function State Option

variable {P : Type} [DecidableEq P]

/-! ## What is shown -/

/-- No process is about to follow a pointer that is `NULL`. -/
def Sound (s : State P) : Prop := ∀ p fault, (s.procs p).step s.shared ≠ some (.error fault)

def Exclusive (s : State P) : Prop :=
  ∀ p q node, node ∈ (s.procs p).held → node ∈ (s.procs q).held → p = q

/-- A getter that gets the semaphore finds a free node. -/
def Guarded (s : State P) : Event P → Prop
  | .run p => (s.procs p).pc = .getLock → 1 ≤ s.shared.pool.freed
  | _ => True

/-- The states of the runs whose steps are all allowed. -/
inductive Reaches (allowed : State P → Event P → Prop) (first : State P) : State P → Prop
  | start : Reaches allowed first first
  | step {s s' : State P} (event : Event P) (before : Reaches allowed first s) (ok : allowed s event)
      (stepped : s.step event = some (.ok s')) : Reaches allowed first s'

/-! ## The section behind the semaphore -/

/-- The process has the semaphore. -/
def Inside : Pc → Prop
  | .idle | .getCheck | .getLock | .putCheck _ | .putLock _ => False
  | _ => True

/-- Left alone, a process with the semaphore ends its call so. -/
inductive Completes : Proc → Shared → Proc → Shared → Prop
  | last {proc proc' : Proc} {shared shared' : Shared}
      (ran : proc.step shared = some (.ok (proc', shared'))) (outside : ¬ Inside proc'.pc) :
      Completes proc shared proc' shared'
  | more {proc proc₁ proc' : Proc} {shared shared₁ shared' : Shared}
      (ran : proc.step shared = some (.ok (proc₁, shared₁))) (inside : Inside proc₁.pc)
      (rest : Completes proc₁ shared₁ proc' shared') : Completes proc shared proc' shared'

variable {proc proc' : Proc} {shared shared' : Shared} {pool : Shmpool} {queue : List Int}
  {node : Int} {s s' : State P}

/-- From the point on where `front` and `rear` are set. -/
lemma get_ends {hh : List Int} :
    Completes ⟨.getClearNext node, hh⟩ ⟨pool, 1⟩ ⟨.idle, node :: hh⟩ ⟨{ pool with
      nodes := update pool.nodes node { pool.nodes node with next := -1, flags := shmpoolUsed }
      freed := toInt (pool.freed - 1) }, 0⟩ := by
  refine .more rfl trivial (.more rfl trivial (.more rfl trivial (.more rfl trivial (.last ?_ id))))
  simp only [Proc.step, Shmpool.modifyNode, update_self, update_idem]

/-- The accesses of a get, one after the other, do what `shmpool_get` does. -/
lemma get_completes (hs : Sized pool) (hl : Linked pool (node :: queue)) {hh : List Int} :
    Completes ⟨.getFront, hh⟩ ⟨pool, 1⟩ ⟨.idle, node :: hh⟩ ⟨taken pool node, 0⟩ := by
  have hp : shmpoolPtr pool pool.front = some node := by
    rw [hl.chain.1]
    exact shmpoolPtr_offset hs (hl.valid node (.head _))
  have hr : (⟨.getFront, hh⟩ : Proc).step ⟨pool, 1⟩ =
      some (.ok (⟨.getNext (some node), hh⟩, ⟨pool, 1⟩)) := by
    simp only [Proc.step, hp]
  refine .more hr trivial (.more rfl trivial (.more rfl trivial ?_))
  by_cases he : (pool.nodes node).next = -1
  · refine .more (if_pos he) trivial (.more rfl trivial ?_)
    simpa only [taken, if_pos he] using get_ends
  · refine .more (if_neg he) trivial ?_
    simpa only [taken, if_neg he] using get_ends

lemma put_ends {hh : List Int} : Completes ⟨.putFreed node, hh⟩ ⟨pool, 1⟩ ⟨.idle, hh.erase node⟩
      ⟨{ pool with freed := toInt (pool.freed + 1) }, 0⟩ :=
  .more rfl trivial (.more rfl trivial (.last rfl id))

lemma put_completes (hs : Sized pool) (hl : Linked pool queue) (hm : node ∈ offsets pool)
    {hh : List Int} :
    Completes ⟨.putClearNext node, hh⟩ ⟨pool, 1⟩ ⟨.idle, hh.erase node⟩ ⟨appended pool node, 0⟩ := by
  have idx := shmpoolIdx_offset hs hm
  refine .more rfl trivial (.more rfl trivial ?_)
  simp only [Shmpool.modifyNode, update_self, update_idem]
  by_cases hn : pool.freed < 1
  · refine .more (if_pos hn) trivial (.more rfl trivial (.more rfl trivial ?_))
    change Completes _ ⟨{ pool with
      nodes := _, front := shmpoolIdx pool node, rear := shmpoolIdx pool node }, 1⟩ _ _
    simpa only [appended, if_pos hn, idx] using put_ends
  · have rear := shmpoolPtr_offset hs (hl.rear_valid (by omega))
    have hp : ∀ nodes : Int → ShmNode, shmpoolPtr { pool with nodes } pool.rear = some pool.rear :=
      fun _ => rear
    have hr : ∀ nodes : Int → ShmNode, (⟨.putLast node, hh⟩ : Proc).step ⟨{ pool with nodes }, 1⟩ =
        some (.ok (⟨.putLink node (some pool.rear), hh⟩, ⟨{ pool with nodes }, 1⟩)) := by
      intro nodes
      simp only [Proc.step, hp]
    refine .more (if_neg hn) trivial (.more (hr _) trivial (.more rfl trivial (.more rfl trivial ?_)))
    change Completes _ ⟨{ pool with
      nodes := update _ _ { next := shmpoolIdx pool node, flags := _, size := _, len := _ }
      rear := shmpoolIdx pool node }, 1⟩ _ _
    simpa only [appended, if_neg hn, idx] using put_ends

/-! ## The invariant -/

/-- A process without the semaphore, which holds nodes that are not free. -/
structure Quiet (pool : Shmpool) (queue : List Int) (proc : Proc) : Prop where
  outside : ¬ Inside proc.pc
  valid : ∀ node ∈ proc.held, node ∈ offsets pool ∧ node ∉ queue
  nodup : proc.held.Nodup
  putting : ∀ node, proc.pc = .putCheck node ∨ proc.pc = .putLock node → node ∈ proc.held

/-- No process has the semaphore: the free nodes are on the queue, and the processes hold
other nodes, each its own. -/
structure Stable (s : State P) (queue : List Int) : Prop where
  sem : s.shared.sem = 0
  sized : Sized s.shared.pool
  linked : Linked s.shared.pool queue
  quiet : ∀ p, Quiet s.shared.pool queue (s.procs p)
  exclusive : Exclusive s

/-- `p` became `proc`. -/
def after (s : State P) (p : P) (proc : Proc) (shared : Shared) : State P :=
  ⟨shared, update s.procs p proc⟩

/-- `p` has the semaphore and will leave a stable state. -/
structure Busy (s : State P) (p : P) (proc : Proc) (shared : Shared) (queue : List Int) : Prop where
  sem : s.shared.sem = 1
  inside : Inside (s.procs p).pc
  alone : ∀ q, q ≠ p → ¬ Inside (s.procs q).pc
  completes : Completes (s.procs p) s.shared proc shared
  stable : Stable (after s p proc shared) queue
  exclusive : Exclusive s
  freed : 0 ≤ s.shared.pool.freed

def Invariant (s : State P) : Prop :=
  (∃ queue, Stable s queue) ∨ ∃ p proc shared queue, Busy s p proc shared queue

/-! ## One step -/

section

variable (outside : ¬ Inside proc.pc)
include outside

/-- Accesses outside the section follow no pointer. -/
lemma outside_sound (fault : ShmFault) : proc.step shared ≠ some (.error fault) := by
  obtain ⟨pc, hh⟩ := proc
  cases pc
  case idle => simp [Proc.step]
  case getCheck | getLock | putCheck | putLock => simp only [Proc.step]; split <;> simp
  all_goals exact absurd trivial outside

/-- What a process without the semaphore can do, besides taking it. -/
lemma outside_step (hs : ¬ Inside proc'.pc) (ran : proc.step shared = some (.ok (proc', shared'))) :
    shared' = shared ∧ proc'.held = proc.held ∧ (∀ node, proc'.pc ≠ .putCheck node) ∧
      (∀ node, proc'.pc = .putLock node → proc.pc = .putCheck node) := by
  obtain ⟨pc, hh⟩ := proc
  cases pc
  case idle => simp [Proc.step] at ran
  case getCheck | putCheck =>
    simp only [Proc.step] at ran
    split at ran
    all_goals
      cases ran
      simp
  case getLock | putLock =>
    simp only [Proc.step] at ran
    split at ran
    next =>
      cases ran
      exact absurd trivial hs
    next => simp at ran
  all_goals exact absurd trivial outside

/-- How a process takes the semaphore. -/
lemma lock_step (hi : Inside proc'.pc) (ran : proc.step shared = some (.ok (proc', shared')))
    : shared.sem = 0 ∧ shared' = ⟨shared.pool, 1⟩ ∧ ((proc.pc = .getLock ∧ proc' = ⟨.getFront, proc.held⟩) ∨
        ∃ node, proc.pc = .putLock node ∧ proc' = ⟨.putClearNext node, proc.held⟩) := by
  obtain ⟨pc, hh⟩ := proc
  cases pc
  case idle => simp [Proc.step] at ran
  case getCheck | putCheck =>
    simp only [Proc.step] at ran
    split at ran
    all_goals
      cases ran
      exact hi.elim
  case getLock =>
    simp only [Proc.step] at ran
    split at ran
    next free =>
      cases ran
      exact ⟨free, rfl, .inl ⟨rfl, rfl⟩⟩
    next => simp at ran
  case putLock node =>
    simp only [Proc.step] at ran
    split at ran
    next free =>
      cases ran
      exact ⟨free, rfl, .inr ⟨node, rfl, rfl⟩⟩
    next => simp at ran
  all_goals exact absurd trivial outside

end

/-- The accesses of the section. -/
lemma inside_step (hi : Inside proc.pc) (hs : Inside proc'.pc)
    (ran : proc.step shared = some (.ok (proc', shared'))) :
    shared'.sem = shared.sem ∧ proc'.held = proc.held ∧
      (shared'.pool.freed = shared.pool.freed ∨
        ∃ node, proc'.pc = .getUnlock node ∨ proc'.pc = .putUnlock node) := by
  obtain ⟨pc, hh⟩ := proc
  cases pc
  case idle | getCheck | getLock | putCheck | putLock => exact hi.elim
  case getUnlock | putUnlock =>
    cases ran
    exact hs.elim
  case getTest | putTest =>
    simp only [Proc.step] at ran
    split at ran
    all_goals
      cases ran
      exact ⟨rfl, rfl, .inl rfl⟩
  case getNext target =>
    cases target with
    | none => simp [Proc.step] at ran
    | some =>
      cases ran
      exact ⟨rfl, rfl, .inl rfl⟩
  case putLink target =>
    cases target with
    | none => simp [Proc.step] at ran
    | some =>
      cases ran
      exact ⟨rfl, rfl, .inl rfl⟩
  case getSetFreed node _ =>
    cases ran
    exact ⟨rfl, rfl, .inr ⟨node, .inl rfl⟩⟩
  case putSetFreed node _ =>
    cases ran
    exact ⟨rfl, rfl, .inr ⟨node, .inr rfl⟩⟩
  all_goals
    cases ran
    exact ⟨rfl, rfl, .inl rfl⟩

/-- After the last write to `freed` the pool does not change any more. -/
lemma completes_unlock (hc : Completes proc shared proc' shared')
    (hu : ∃ node, proc.pc = .getUnlock node ∨ proc.pc = .putUnlock node) :
    shared'.pool = shared.pool := by
  obtain ⟨pc, hh⟩ := proc
  obtain ⟨node, rfl | rfl⟩ := hu
  all_goals
    cases hc with
    | last ran => cases ran; rfl
    | more ran hi => cases ran; exact hi.elim

/-! ## Stable states -/

variable {p : P}

lemma after_forall (hh : P → Proc → Prop) (here : hh p proc)
    (ho : ∀ q, q ≠ p → hh q (s.procs q)) (q : P) : hh q ((after s p proc shared).procs q) :=
  (forall_update_iff s.procs hh).mpr ⟨here, ho⟩ q

lemma after_exclusive (he : Exclusive s)
    (own : ∀ q, q ≠ p → ∀ node ∈ proc.held, node ∉ (s.procs q).held) : Exclusive (after s p proc shared) := by
  intro q r node
  refine after_forall (fun q proc => node ∈ proc.held → _ → q = r) (fun hm => ?_)
    (fun q ho ht => ?_) q
  · exact after_forall (fun r proc => node ∈ proc.held → p = r) (fun _ => rfl)
      (fun r ho ht => absurd ht (own r ho node hm)) r
  · exact after_forall (fun r proc => node ∈ proc.held → q = r)
      (fun hm => absurd ht (own q ho node hm)) (fun r _ => he q r node ht) r

/-- A process without the semaphore goes on in its call. -/
lemma Stable.goes_on (hs : Stable s queue) (outside : ¬ Inside proc.pc)
    (hh : proc.held = (s.procs p).held)
    (hp : ∀ node, proc.pc = .putCheck node ∨ proc.pc = .putLock node → node ∈ proc.held) :
    Stable (after s p proc s.shared) queue where
  sem := hs.sem
  sized := hs.sized
  linked := hs.linked
  quiet := after_forall _ ⟨outside, hh ▸ (hs.quiet p).valid, hh ▸ (hs.quiet p).nodup, hp⟩
    fun q _ => hs.quiet q
  exclusive := after_exclusive hs.exclusive fun q ho node hm ht =>
    ho (hs.exclusive q p node ht (hh ▸ hm))

lemma get_stable (hs : Stable s (node :: queue)) :
    Stable (after s p ⟨.idle, node :: (s.procs p).held⟩ ⟨taken s.shared.pool node, 0⟩) queue := by
  have hf : ∀ q, node ∉ (s.procs q).held :=
    fun q hm => ((hs.quiet q).valid node hm).2 (.head _)
  obtain ⟨fresh, -⟩ := nodup_cons.mp hs.linked.nodup
  have hk : ∀ q, ∀ b ∈ (s.procs q).held, b ∈ offsets s.shared.pool ∧ b ∉ queue := fun q b hm =>
    have ⟨hi, hd⟩ := (hs.quiet q).valid b hm
    ⟨hi, fun hl => hd (.tail _ hl)⟩
  refine ⟨rfl, hs.sized.same rfl rfl, taken_linked hs.sized hs.linked,
    after_forall _ ⟨id, ?_, ?_, ?_⟩ fun q _ => ?_, after_exclusive hs.exclusive fun q ho => ?_⟩
  · exact forall_mem_cons.mpr ⟨⟨hs.linked.valid node (.head _), fresh⟩, hk p⟩
  · exact nodup_cons.mpr ⟨hf p, (hs.quiet p).nodup⟩
  · exact fun _ hc => by rcases hc with hc | hc <;> cases hc
  · exact ⟨(hs.quiet q).outside, hk q, (hs.quiet q).nodup, (hs.quiet q).putting⟩
  · exact forall_mem_cons.mpr ⟨hf q, fun b mine ht =>
      ho (hs.exclusive q p b ht mine)⟩

lemma put_stable (hs : Stable s queue) (hm : node ∈ (s.procs p).held) :
    Stable (after s p ⟨.idle, (s.procs p).held.erase node⟩ ⟨appended s.shared.pool node, 0⟩)
      (queue ++ [node]) := by
  obtain ⟨hi, hf⟩ := (hs.quiet p).valid node hm
  have mine : ∀ q, q ≠ p → node ∉ (s.procs q).held := fun q ho ht =>
    ho (hs.exclusive q p node ht hm)
  have hn := (hs.quiet p).nodup
  have sizes := appended_sizes s.shared.pool node
  have hk : ∀ hh : List Int, (∀ b ∈ hh, b ∈ offsets s.shared.pool ∧ b ∉ queue) → node ∉ hh →
      ∀ b ∈ hh, b ∈ offsets (appended s.shared.pool node) ∧ b ∉ queue ++ [node] := by
    intro hh hv hd b here
    refine ⟨(offsets_same sizes.1 sizes.2).symm ▸ (hv b here).1, fun hl => ?_⟩
    obtain old | new := mem_append.mp hl
    · exact (hv b here).2 old
    · exact hd (mem_singleton.mp new ▸ here)
  refine ⟨rfl, hs.sized.same sizes.1 sizes.2, appended_linked hs.sized hs.linked hf hi,
    after_forall _ ⟨id, ?_, hn.erase node, ?_⟩ fun q ho => ?_,
    after_exclusive hs.exclusive fun q ho b here ht => ?_⟩
  · exact hk _ (fun b here => (hs.quiet p).valid b (mem_of_mem_erase here)) hn.not_mem_erase
  · exact fun _ hc => by rcases hc with hc | hc <;> cases hc
  · exact ⟨(hs.quiet q).outside, hk _ (hs.quiet q).valid (mine q ho), (hs.quiet q).nodup,
      (hs.quiet q).putting⟩
  · exact ho (hs.exclusive q p b ht (mem_of_mem_erase here))

/-! ## Whole runs -/

lemma after_self : (after s p proc shared).procs p = proc := update_self _ _ _

lemma after_other {p q : P} (ho : q ≠ p) : (after s p proc shared).procs q = s.procs q :=
  update_of_ne ho _ _

/-- Whether the semaphore is taken or not, a process without it can go on in its call. -/
lemma goes_on_invariant (hi : Invariant s) (hb : ¬ Inside (s.procs p).pc)
    (outside : ¬ Inside proc.pc) (hh : proc.held = (s.procs p).held)
    (hp : ∀ node, proc.pc = .putCheck node ∨ proc.pc = .putLock node → node ∈ proc.held) :
    Invariant (after s p proc s.shared) := by
  obtain ⟨queue, hs⟩ | ⟨q, proc', shared', queue, busy⟩ := hi
  · exact .inl ⟨queue, hs.goes_on outside hh hp⟩
  · have ho : q ≠ p := fun he => hb (he ▸ busy.inside)
    have swap : after (after s p proc s.shared) q proc' shared' =
        after (after s q proc' shared') p proc shared' :=
      congrArg (mk shared') (update_comm ho _ _ _).symm
    refine .inr ⟨q, proc', shared', queue, busy.sem, ?_, ?_, ?_, ?_, ?_, busy.freed⟩
    · rw [after_other ho]; exact busy.inside
    · exact fun r different => after_forall (fun r proc => r ≠ q → ¬ Inside proc.pc) (fun _ => outside)
        (fun r _ => busy.alone r) r different
    · rw [after_other ho]; exact busy.completes
    · rw [swap]
      exact busy.stable.goes_on outside (hh.trans (congrArg Proc.held (after_other ho.symm).symm))
        hp
    · exact after_exclusive busy.exclusive fun r different node hm ht =>
        different (busy.exclusive r p node ht (hh ▸ hm))

lemma enters {queue' : List Int} (hs : Stable s queue) (hi : Inside proc.pc)
    (hh : proc.held = (s.procs p).held) (hc : Completes proc ⟨s.shared.pool, 1⟩ proc' shared')
    (hl : Stable (after s p proc' shared') queue') : Invariant (after s p proc ⟨s.shared.pool, 1⟩) := by
  have he : after (after s p proc ⟨s.shared.pool, 1⟩) p proc' shared' = after s p proc' shared' :=
    congrArg (mk shared') (update_idem _ _ _)
  refine .inr ⟨p, proc', shared', queue', rfl, ?_, fun q ho => ?_, ?_, ?_, ?_, ?_⟩
  · rw [after_self]; exact hi
  · rw [after_other ho]; exact (hs.quiet q).outside
  · rw [after_self]; exact hc
  · rw [he]; exact hl
  · exact after_exclusive hs.exclusive fun q ho b hm ht =>
      ho (hs.exclusive q p b ht (hh ▸ hm))
  · exact (hs.linked.freed_le hs.sized).1

/-- A process takes the semaphore. -/
lemma lock_invariant (hs : Stable s queue) (hi : Inside proc.pc)
    (hg : (s.procs p).pc = .getLock → 1 ≤ s.shared.pool.freed)
    (ran : (s.procs p).step s.shared = some (.ok (proc, shared))) : Invariant (after s p proc shared) := by
  obtain ⟨-, rfl, ⟨getting, rfl⟩ | ⟨node, hp, rfl⟩⟩ := lock_step (hs.quiet p).outside hi ran
  · cases queue with
    | nil =>
      have none_free : s.shared.pool.freed = 0 := hs.linked.freed
      have := hg getting
      omega
    | cons node queue =>
      exact enters hs hi rfl (get_completes hs.sized hs.linked) (get_stable hs)
  · have hm := (hs.quiet p).putting node (.inr hp)
    have hv := ((hs.quiet p).valid node hm).1
    exact enters hs hi rfl (put_completes hs.sized hs.linked hv) (put_stable hs hm)

/-- The process with the semaphore makes its next access. -/
lemma section_invariant {proc' : Proc} {shared' : Shared} (hb : Busy s p proc' shared' queue)
    (ran : (s.procs p).step s.shared = some (.ok (proc, shared))) : Invariant (after s p proc shared) := by
  have he : after (after s p proc shared) p proc' shared' = after s p proc' shared' :=
    congrArg (mk shared') (update_idem _ _ _)
  cases hb.completes with
  | last hr' outside =>
    cases ran.symm.trans hr'
    exact .inl ⟨queue, hb.stable⟩
  | more hr' hi rest =>
    cases ran.symm.trans hr'
    obtain ⟨sem, hh, hf⟩ := inside_step hb.inside hi ran
    refine .inr ⟨p, proc', shared', queue, sem.trans hb.sem, ?_, fun q ho => ?_, ?_, ?_, ?_, ?_⟩
    · rw [after_self]; exact hi
    · rw [after_other ho]; exact hb.alone q ho
    · rw [after_self]; exact rest
    · rw [he]; exact hb.stable
    · exact after_exclusive hb.exclusive fun q ho node hm ht =>
        ho (hb.exclusive q p node ht (hh ▸ hm))
    · obtain hk | unlocks := hf
      · exact hk.symm ▸ hb.freed
      · change 0 ≤ shared.pool.freed
        rw [← completes_unlock rest unlocks]
        exact (hb.stable.linked.freed_le hb.stable.sized).1

lemma Invariant.putting (invariant : Invariant s)
    (hc : (s.procs p).pc = .putCheck node ∨ (s.procs p).pc = .putLock node) : node ∈ (s.procs p).held := by
  obtain ⟨queue, hs⟩ | ⟨q, proc, shared, queue, hb⟩ := invariant
  · exact (hs.quiet p).putting node hc
  · have ho : p ≠ q := by
      rintro rfl
      have hi := hb.inside
      rcases hc with hc | hc <;> exact (hc ▸ hi).elim
    have hp := (hb.stable.quiet p).putting node
    rw [after_other ho] at hp
    exact hp hc

lemma run_invariant (invariant : Invariant s)
    (hg : (s.procs p).pc = .getLock → 1 ≤ s.shared.pool.freed)
    (ran : (s.procs p).step s.shared = some (.ok (proc, shared))) : Invariant (after s p proc shared) := by
  by_cases hb : Inside (s.procs p).pc
  · obtain ⟨queue, hs⟩ | ⟨q, proc', shared', queue, busy⟩ := invariant
    · exact absurd hb (hs.quiet p).outside
    · obtain rfl : p = q := by
        by_contra ho
        exact busy.alone p ho hb
      exact section_invariant busy ran
  · by_cases hi : Inside proc.pc
    · obtain ⟨queue, hs⟩ | ⟨q, proc', shared', queue, busy⟩ := invariant
      · exact lock_invariant hs hi hg ran
      · have hf := (lock_step hb hi ran).1
        rw [busy.sem] at hf
        exact absurd hf (by decide)
    · obtain ⟨rfl, hh, checks, hl⟩ := outside_step hb hi ran
      refine goes_on_invariant invariant hb hi hh fun node calls => ?_
      have hc := hl node (calls.resolve_left (checks node))
      rw [hh]
      exact invariant.putting (.inl hc)

lemma step_invariant {event : Event P} (hi : Invariant s) (hg : Guarded s event)
    (hs : s.step event = some (.ok s')) : Invariant s' := by
  cases event with
  | get p =>
    simp only [step] at hs
    split at hs
    next idle =>
      cases hs
      exact goes_on_invariant hi (by rw [idle]; exact id) id rfl fun node calls => by
        rcases calls with calls | calls <;> cases calls
    next => cases hs
  | put p node =>
    simp only [step] at hs
    split at hs
    next idle =>
      split at hs
      next hm =>
        cases hs
        refine goes_on_invariant hi (by rw [idle]; exact id) id rfl fun node' calls => ?_
        obtain calls | calls := calls
        · cases calls; exact hm
        · cases calls
      next => cases hs
    next => cases hs
  | run p =>
    simp only [step] at hs
    cases ran : (s.procs p).step s.shared with
    | none => simp [ran] at hs
    | some outcome =>
      cases outcome with
      | error fault => simp [ran, Except.map] at hs
      | ok result =>
        obtain ⟨proc, shared⟩ := result
        simp only [ran, map_some, Except.map, some.injEq, Except.ok.injEq] at hs
        exact hs ▸ run_invariant hi hg ran

lemma invariant_sound (hi : Invariant s) : Sound s := by
  intro p fault
  obtain ⟨queue, hs⟩ | ⟨q, proc, shared, queue, hb⟩ := hi
  · exact outside_sound (hs.quiet p).outside fault
  · by_cases he : p = q
    · intro hf
      rw [he] at hf
      cases hb.completes with
      | last ran => cases hf.symm.trans ran
      | more ran => cases hf.symm.trans ran
    · exact outside_sound (hb.alone p he) fault

omit [DecidableEq P] in
lemma start_stable (sized : Sized pool) : Stable (start P (shmpoolInit pool)) (offsets pool) where
  sem := rfl
  sized := sized.same rfl rfl
  linked := init_linked sized
  quiet _ := ⟨id, fun _ none => absurd none not_mem_nil, nodup_nil, fun _ hc => by
    rcases hc with hc | hc <;> cases hc⟩
  exclusive _ _ _ none := absurd none not_mem_nil

/-- A pool without nodes: nobody comes past the test. -/
structure Unused (s : State P) : Prop where
  freed : s.shared.pool.freed = 0
  procs : ∀ p, (s.procs p).held = [] ∧ ((s.procs p).pc = .idle ∨ (s.procs p).pc = .getCheck)

lemma unused_step {event : Event P} (hu : Unused s) (hs : s.step event = some (.ok s')) :
    Unused s' := by
  have set : ∀ p proc, proc.held = [] → (proc.pc = .idle ∨ proc.pc = .getCheck) →
      Unused (after s p proc s.shared) := fun p proc hh pc =>
    ⟨hu.freed, after_forall (fun _ proc => proc.held = [] ∧ (proc.pc = .idle ∨ proc.pc = .getCheck))
      ⟨hh, pc⟩ fun q _ => hu.procs q⟩
  cases event with
  | get p =>
    simp only [step] at hs
    split at hs
    next =>
      cases hs
      exact set p _ (hu.procs p).1 (.inr rfl)
    next => cases hs
  | put p node =>
    simp only [step, (hu.procs p).1, not_mem_nil, if_false] at hs
    split at hs <;> cases hs
  | run p =>
    obtain ⟨hh, hi | hc⟩ := hu.procs p
    · simp [step, Proc.step, hi] at hs
    · simp only [step, Proc.step, hc, hu.freed, if_true, map_some, Except.map] at hs
      cases hs
      exact set p _ hh (.inl rfl)

omit [DecidableEq P] in
lemma Unused.safe (hu : Unused s) : Sound s ∧ Exclusive s ∧ 0 ≤ s.shared.pool.freed := by
  refine ⟨fun p => outside_sound ?_, fun p _ _ hm => ?_, Int.le_of_eq hu.freed.symm⟩
  · rcases (hu.procs p).2 with pc | pc <;> rw [pc] <;> exact id
  · rw [(hu.procs p).1] at hm
    exact absurd hm not_mem_nil

lemma allocated_pool {objsize maxobjs : Int} {memory : Option (Int → ShmNode)}
    (ha : shmpoolAlloc objsize maxobjs memory = some pool) : 0 < align4 objsize ∧ 0 ≤ maxobjs ∧
      ∃ nodes, pool = shmpoolInit ⟨align4 objsize, maxobjs, 0, 0, 0, nodes⟩ := by
  unfold shmpoolAlloc at ha
  split at ha
  next => cases ha
  next hv =>
    have hq : 0 ≤ (objsize - 1).tdiv 4 := Int.tdiv_nonneg (by omega) (by decide)
    obtain ⟨nodes, -, rfl⟩ := map_eq_some_iff.mp ha
    refine ⟨?_, by omega, nodes, rfl⟩
    unfold align4
    omega

lemma invariant_freed (hi : Invariant s) : Exclusive s ∧ 0 ≤ s.shared.pool.freed := by
  obtain ⟨queue, hs⟩ | ⟨q, proc, shared, queue, hb⟩ := hi
  · exact ⟨hs.exclusive, (hs.linked.freed_le hs.sized).1⟩
  · exact ⟨hb.exclusive, hb.freed⟩

/-- In every run in which a getter that gets the semaphore finds a free node, no process
follows a pointer that is `NULL`, no node is held by two processes and `freed` is not
negative. -/
theorem shmpool_exclusive (objsize maxobjs : Int) (memory : Option (Int → ShmNode))
    (allocated : shmpoolAlloc objsize maxobjs memory = some pool)
    (fits : maxobjs * (align4 objsize + 16) < 2 ^ 31) (s : State P)
    (reached : Reaches Guarded (start P pool) s) : Sound s ∧ Exclusive s ∧ 0 ≤ s.shared.pool.freed := by
  obtain ⟨hs, hc, nodes, rfl⟩ := allocated_pool allocated
  by_cases none : maxobjs = 0
  · have hu : Unused s := by
      induction reached with
      | start => exact ⟨none, fun _ => ⟨rfl, .inl rfl⟩⟩
      | step _ _ _ stepped hb => exact unused_step hb stepped
    exact hu.safe
  · have some_node : 1 ≤ maxobjs := by omega
    have sized : Sized ⟨align4 objsize, maxobjs, 0, 0, 0, nodes⟩ := ⟨hs, some_node, fits⟩
    have hi : Invariant s := by
      induction reached with
      | start => exact .inl ⟨_, start_stable sized⟩
      | step _ _ hg stepped hb => exact step_invariant hb hg stepped
    exact ⟨invariant_sound hi, invariant_freed hi⟩

/-- The state behind a list of events, each of which passes the test. -/
def runAll (test : State P → Event P → Bool) : List (Event P) → State P → Option (State P)
  | [], s => some s
  | event :: events, s =>
    if test s event then
      match s.step event with
      | some (.ok s') => runAll test events s'
      | _ => none
    else none

lemma reaches_runAll {allowed : State P → Event P → Prop} {test : State P → Event P → Bool}
    (passes : ∀ s event, test s event = true → allowed s event) (events : List (Event P)) {first : State P}
    (before : Reaches allowed first s) (ran : runAll test events s = some s') : Reaches allowed first s' := by
  induction events generalizing s with
  | nil =>
    cases ran
    exact before
  | cons event events ih =>
    unfold runAll at ran
    split at ran
    next passed =>
      split at ran
      next stepped => exact ih (.step event before (passes s event passed) stepped) ran
      next => cases ran
    next => cases ran

/-- A test for `Guarded`. -/
def guarded (s : State P) : Event P → Bool
  | .run p =>
    match (s.procs p).pc with
    | .getLock => 1 ≤ s.shared.pool.freed
    | _ => true
  | _ => true

omit [DecidableEq P] in
lemma guarded_of_test (s : State P) (event : Event P) (passed : guarded s event = true) : Guarded s event := by
  cases event with
  | run p =>
    intro atLock
    simpa [guarded, atLock] using passed
  | _ => trivial

def onePool : Shmpool := shmpoolInit ⟨4, 1, 0, 0, 0, fun _ => ⟨0, 0, 0, 0⟩⟩

/-- One process takes the only node and puts it back, and then the other one takes it. -/
def inTurn : List (Event Bool) :=
  .get false :: replicate 12 (.run false) ++ .put false 0 :: replicate 10 (.run false) ++
    .get true :: replicate 12 (.run true)

theorem shmpool_exclusive_turns : ∃ pool, shmpoolAlloc 1 1 (some fun _ => ⟨0, 0, 0, 0⟩) = some pool ∧
    ∃ s : State Bool, Reaches Guarded (start Bool pool) s ∧ (s.procs true).held = [0] ∧
      Sound s ∧ Exclusive s ∧ 0 ≤ s.shared.pool.freed := by
  obtain ⟨s, ran, holds⟩ : ∃ s, runAll guarded inTurn (start Bool onePool) = some s ∧
      (s.procs true).held = [0] := ⟨_, rfl, rfl⟩
  have reached := reaches_runAll guarded_of_test inTurn .start ran
  exact ⟨onePool, rfl, s, reached, holds,
    shmpool_exclusive 1 1 (some fun _ => ⟨0, 0, 0, 0⟩) rfl (by decide) s reached⟩

/-- Two processes and a pool with one node: both see it free, then one takes it, and then
the other gets the semaphore. -/
def lateGetter : List (Event Bool) :=
  [.get false, .run false, .get true, .run true] ++ List.replicate 11 (.run false) ++ [.run true, .run true]

theorem late_getter : ∃ pool, shmpoolAlloc 1 1 (some fun _ => ⟨0, 0, 0, 0⟩) = some pool ∧
    ∃ s : State Bool, Reaches (fun _ _ => True) (start Bool pool) s ∧ ¬ Sound s :=
  ⟨_, rfl, _,
    @reaches_runAll _ _ _ _ (fun _ _ => True) (fun _ _ => true) (fun _ _ _ => trivial) lateGetter _ .start rfl,
    fun sound => sound true .nullPointer rfl⟩

end Fzsvn.Guarantees.Ipc.ShmpoolExclusion
