import Fzsvn.Source.Kernel.Miglog
import Fzsvn.Library.LinkedQueue
import Fzsvn.Library.Fallible
import Mathlib.Data.Fintype.EquivFin

/-!
# The log queue

Readers and writers of the log device at the same time. The messages that were linked are
those that left the queue, in the same order, and then those that are still in it. The
counter is an `int`, so it is the length of the queue as long as that is less than 2^31; a
writer checks the counter before it gets the lock, and so the queue may grow to 8191
messages and one for each thread.
-/
namespace Fzsvn.Guarantees.Kernel.LogQueue
open Library.MachineInt Library.LinkedQueue Library.Fallible Source.Kernel List Function Option

/-! ## The list -/

/-- The message behind another one. -/
def follow (heap : Heap) (msg : Option Nat) : Option Nat := (msg.bind heap).bind Migloghdr.next

/-- The queue in memory is a chain of these messages. -/
structure Queued (heap : Heap) (mq : MigloghdrQueue) (queue : List Nat) : Prop where
  chained : Chained none (follow heap) mq.head (queue.map some)
  tail : mq.tail = queue.getLast?
  size : mq.size = toInt queue.length
  allocated : ∀ msg ∈ queue, (heap msg).isSome
  nodup : queue.Nodup

variable {heap heap' : Heap} {mq : MigloghdrQueue} {queue : List Nat} {msg : Nat}

lemma follow_update_self (heap : Heap) (msg : Nat) (hdr : Migloghdr) :
    follow (update heap msg (some hdr)) (some msg) = hdr.next := by
  rw [follow, bind_some, update_self, bind_some]

lemma follow_update_of_ne {p : Nat} (hd : p ≠ msg) (entry : Option Migloghdr) :
    follow (update heap msg entry) (some p) = follow heap (some p) := by
  rw [follow, bind_some, update_of_ne hd]
  rfl

section

variable (allocated : (heap msg).isSome)
include allocated

lemma isSome_update (hdr : Migloghdr) (p : Nat) :
    (update heap msg (some hdr) p).isSome = (heap p).isSome := by
  by_cases he : p = msg
  · rw [he, update_self, allocated]
    rfl
  · rw [update_of_ne he]

lemma get_yields : Yields (heap.get msg) fun hdr => heap msg = some hdr := by
  obtain ⟨hdr, hh⟩ := isSome_iff_exists.mp allocated
  rw [Heap.get, hh, yields_ok]

lemma modify_yields (change : Migloghdr → Migloghdr) : Yields (heap.modify msg change) fun heap' =>
      ∃ hdr, heap msg = some hdr ∧ heap' = update heap msg (some (change hdr)) := by
  obtain ⟨hdr, hr, hh⟩ := get_yields allocated
  rw [Heap.modify, yields_bind, hr, yields_ok, yields_pure]
  exact ⟨hdr, hh, rfl⟩

lemma free_yields : Yields (heap.free msg) fun heap' => heap' = update heap msg none := by
  obtain ⟨hdr, hr, -⟩ := get_yields allocated
  rw [Heap.free, yields_bind, hr, yields_ok, yields_pure]

end

section

variable (queued : Queued heap mq queue)
include queued

lemma Queued.congr (he : ∀ msg ∈ queue, heap' msg = heap msg) : Queued heap' mq queue := by
  refine { queued with chained := queued.chained.congr ?_, allocated := ?_ }
  · intro next hm
    obtain ⟨msg, hi, rfl⟩ := mem_map.mp hm
    simp only [follow, bind_some, he msg hi]
  · intro msg hm
    rw [he msg hm]
    exact queued.allocated msg hm

lemma Queued.add (allocated : (heap msg).isSome) (hf : msg ∉ queue) :
    Yields (miglogQueueAdd heap mq msg) fun (heap', mq') =>
      Queued heap' mq' (queue ++ [msg]) ∧ ∀ p, (heap' p).isSome = (heap p).isSome := by
  have nodup : (queue ++ [msg]).Nodup := by
    rw [nodup_append_comm]
    exact nodup_cons.mpr ⟨hf, queued.nodup⟩
  have hs : toInt (mq.size + 1) = toInt (queue ++ [msg]).length := by
    rw [queued.size, toInt_add, length_append]
    rfl
  have last : some msg = (queue ++ [msg]).getLast? := List.getLast?_concat.symm
  rw [miglogQueueAdd]
  rcases eq_nil_or_concat queue with rfl | ⟨init, tail, rfl⟩
  · have head : mq.head = none := queued.chained
    have hn : mq.tail = none := queued.tail
    obtain ⟨_, hl, hdr, hh, rfl⟩ := modify_yields allocated ({ · with next := none })
    simp only [head, hn, yields_bind, hl, yields_ok, yields_pure]
    refine ⟨⟨⟨rfl, by simp, ?_⟩, last, hs, ?_, nodup⟩, isSome_update allocated _⟩
    · exact follow_update_self heap msg _
    · intro p hm
      rw [isSome_update allocated, mem_singleton.mp hm]
      exact allocated
  · rw [concat_eq_append] at *
    have hd : msg ≠ tail := by
      rintro rfl
      exact hf (by simp)
    have hi : mq.tail = some tail := by
      rw [queued.tail, getLast?_concat]
    obtain ⟨first, head⟩ : ∃ first, mq.head = some first := by
      have hc := queued.chained
      cases init with
      | nil => exact ⟨tail, hc.1⟩
      | cons first rest => exact ⟨first, hc.1⟩
    obtain ⟨_, hl, hdr, hh, rfl⟩ :=
      modify_yields (queued.allocated tail (by simp)) ({ · with next := some msg })
    have ho : (update heap tail (some { hdr with next := some msg }) msg).isSome := by
      rw [update_of_ne hd]
      exact allocated
    obtain ⟨_, ended, hdr', hh', rfl⟩ := modify_yields ho ({ · with next := none })
    have he : ∀ p, (update (update heap tail (some { hdr with next := some msg })) msg
        (some { hdr' with next := none }) p).isSome = (heap p).isSome := by
      intro p
      rw [isSome_update ho, isSome_update (hh ▸ rfl)]
    simp only [head, hi, yields_bind, hl, ended, yields_ok, yields_pure]
    refine ⟨⟨?_, last, hs, ?_, nodup⟩, he⟩
    · have hc := queued.chained
      rw [head, map_append] at hc
      rw [map_append, map_append]
      refine hc.append ?_ ?_ (by simp) ?_
      · intro next hm
        obtain ⟨p, inInit, rfl⟩ := mem_map.mp hm
        have notTail : p ≠ tail := by
          rintro rfl
          exact disjoint_of_nodup_append queued.nodup inInit mem_cons_self
        have notNew : p ≠ msg := by
          rintro rfl
          exact hf (mem_append_left _ inInit)
        rw [follow_update_of_ne notNew, follow_update_of_ne notTail]
      · rw [follow_update_of_ne (Ne.symm hd), follow_update_self]
      · exact follow_update_self _ msg _
    · intro p hm
      rw [he]
      rcases mem_append.mp hm with inQueue | isNew
      · exact queued.allocated p inQueue
      · exact mem_singleton.mp isNew ▸ allocated

lemma Queued.del : Yields (miglogQueueDel heap mq) fun (msg, mq') =>
      msg = queue.head? ∧ Queued heap mq' queue.tail := by
  rw [miglogQueueDel]
  cases queue with
  | nil =>
    have head : mq.head = none := queued.chained
    simp only [head, yields_ok]
    exact ⟨rfl, { queued with chained := rfl, tail := rfl }⟩
  | cons msg rest =>
    obtain ⟨head, -, chained⟩ := queued.chained
    obtain ⟨hdr, hr, hh⟩ := get_yields (queued.allocated msg mem_cons_self)
    simp only [head, yields_bind, hr, yields_ok, yields_pure]
    have next : follow heap (some msg) = hdr.next := by
      rw [follow, bind_some, hh, bind_some]
    rw [next] at chained
    refine ⟨rfl, chained, ?_, ?_, ?_, (nodup_cons.mp queued.nodup).2⟩
    · cases rest with
      | nil => exact if_pos chained
      | cons second rest =>
        have some : hdr.next ≠ none := by
          rw [chained.1]
          exact some_ne_none _
        change (if hdr.next = none then none else mq.tail) = _
        rw [if_neg some, queued.tail]
        exact getLast?_cons_cons
    · change toInt (mq.size - 1) = _
      rw [queued.size, Int.sub_eq_add_neg, toInt_add, length_cons, tail_cons]
      congr 1
      omega
    · exact fun p hm => queued.allocated p (mem_cons_of_mem msg hm)

end

/-! ## The invariant -/

section

variable {T : Type} {s : State T} {t u : T}

/-- The message that a thread has to itself. -/
def own : Pc → Option Nat
  | .readUnlock _ msg | .readCopy _ msg => msg
  | .readFree msg _ | .writeCopy _ msg _ | .writeLock msg _ | .writeAdd msg _ => some msg
  | _ => none

/-- The message is still to be linked. -/
def unlinked : Pc → Bool
  | .writeCopy .. | .writeLock .. | .writeAdd .. => true
  | _ => false

/-- What holds of the message that a thread has to itself. -/
structure Owned (s : State T) (t : T) (pc : Pc) (msg : Nat) : Prop where
  allocated : (s.heap msg).isSome
  fresh : unlinked pc = true → msg ∉ s.linked
  taken : unlinked pc = false → (t, msg) ∈ s.left ∧ msg ∉ s.returned.map Prod.snd

structure Valid (s : State T) (queue : List Nat) : Prop where
  queued : Queued s.heap s.mq queue
  split : s.linked = s.left.map Prod.snd ++ queue
  nodup : s.linked.Nodup
  bound : ∀ msg, (s.heap msg).isSome ∨ msg ∈ s.linked → msg < s.blocks
  owned : ∀ t msg, own (s.threads t) = some msg → Owned s t (s.threads t) msg
  apart : ∀ t u msg, own (s.threads t) = some msg → own (s.threads u) = some msg → t = u
  once : (s.returned.map Prod.snd).Nodup
  returned : ∀ entry ∈ s.returned, entry ∈ s.left

variable {pc : Pc}

namespace Valid

lemma start : Valid (Source.Kernel.start T) [] where
  queued := ⟨rfl, rfl, rfl, nofun, .nil⟩
  split := rfl
  nodup := .nil
  bound := by
    rintro msg (allocated | hl)
    · cases allocated
    · cases hl
  owned := nofun
  apart := nofun
  once := .nil
  returned := nofun

section

variable (hv : Valid s queue)
include hv

/-- No message of a thread is in the queue. -/
lemma own_not_mem (mine : own (s.threads t) = some msg) : msg ∉ queue := by
  intro hm
  have ho := hv.owned t msg mine
  cases hk : unlinked (s.threads t) with
  | true =>
    apply ho.fresh hk
    rw [hv.split]
    exact mem_append_right _ hm
  | false =>
    have left : msg ∈ s.left.map Prod.snd := mem_map_of_mem (ho.taken hk).1
    have hn := hv.nodup
    rw [hv.split] at hn
    exact disjoint_of_nodup_append hn left hm

lemma setLock (lock : Bool) : Valid (s.setLock lock) queue :=
  { hv with queued := { hv.queued with }, owned := fun t msg hm => { hv.owned t msg hm with } }

/-- A thread changes its own message. -/
lemma change (mine : own (s.threads t) = some msg) (entry : Option Migloghdr) :
    let heap := update s.heap msg entry
    Queued heap s.mq queue ∧ (∀ p, (heap p).isSome → (s.heap p).isSome) ∧
      ∀ u p, u ≠ t → own (s.threads u) = some p → heap p = s.heap p := by
  refine ⟨?_, ?_, ?_⟩
  · apply hv.queued.congr
    intro p hm
    apply update_of_ne
    rintro rfl
    exact hv.own_not_mem mine hm
  · intro p allocated
    by_cases he : p = msg
    · exact he ▸ (hv.owned t msg mine).allocated
    · rwa [update_of_ne he] at allocated
  · intro u p ho hy
    apply update_of_ne
    rintro rfl
    exact ho (hv.apart u t p hy mine)

/-- A read returns its message. -/
lemma give (left : (t, msg) ∈ s.left) (new : msg ∉ s.returned.map Prod.snd)
    (hf : ∀ u, own (s.threads u) ≠ some msg) :
    Valid { s with returned := s.returned ++ [(t, msg)] } queue := by
  refine { hv with owned := ?_, once := ?_, returned := ?_ }
  · intro u p mine
    have owned := hv.owned u p mine
    refine { owned with taken := fun hk => ⟨(owned.taken hk).1, ?_⟩ }
    have hd : p ≠ msg := by
      rintro rfl
      exact hf u mine
    rw [map_append, mem_append, map_singleton, mem_singleton, not_or]
    exact ⟨(owned.taken hk).2, hd⟩
  · rw [map_append, nodup_append_comm]
    exact nodup_cons.mpr ⟨new, hv.once⟩
  · intro entry hm
    rcases mem_append.mp hm with hb | now
    · exact hv.returned entry hb
    · rw [mem_singleton.mp now]
      exact left

end

variable [DecidableEq T]

lemma own_update (hm : own (update s.threads t pc u) = some msg) :
    (u = t ∧ own pc = some msg) ∨ (u ≠ t ∧ own (s.threads u) = some msg) := by
  by_cases he : u = t
  · rw [he, update_self] at hm
    exact .inl ⟨he, hm⟩
  · rw [update_of_ne he] at hm
    exact .inr ⟨he, hm⟩

section

variable (hv : Valid s queue)
include hv

/-- A thread has a message that no other thread has. -/
lemma apart_update (hm : ∀ msg, own pc = some msg → ∀ u ≠ t, own (s.threads u) ≠ some msg)
    (u v : T) (msg : Nat) (has : own (update s.threads t pc u) = some msg)
    (too : own (update s.threads t pc v) = some msg) : u = v := by
  rcases own_update has with ⟨rfl, hh⟩ | ⟨ho, ht⟩
  · rcases own_update too with ⟨rfl, -⟩ | ⟨ho, ht⟩
    · rfl
    · exact absurd ht (hm msg hh v ho)
  · rcases own_update too with ⟨rfl, hh⟩ | ⟨-, ha⟩
    · exact absurd ht (hm msg hh u ho)
    · exact hv.apart u v msg ht ha

/-- A thread gets to a place where it has the message it had, or none. -/
lemma goto
    (hk : ∀ msg, own pc = some msg → own (s.threads t) = some msg ∧ unlinked pc = unlinked (s.threads t)) :
    Valid (s.goto t pc) queue := by
  refine { hv with queued := { hv.queued with }, owned := ?_, apart := ?_ }
  · intro u msg hm
    dsimp only [State.goto] at hm ⊢
    rcases own_update hm with ⟨rfl, hh⟩ | ⟨ho, ht⟩
    · obtain ⟨had, kind⟩ := hk msg hh
      have owned := hv.owned u msg had
      rw [update_self]
      exact ⟨owned.allocated, fun new => owned.fresh (kind ▸ new), fun old => owned.taken (kind ▸ old)⟩
    · rw [update_of_ne ho]
      exact { hv.owned u msg ht with }
  · apply hv.apart_update
    intro msg hm u ho hy
    exact ho (hv.apart u t msg hy (hk msg hm).1)

/-- `copy_from_user` -/
lemma fill (hm : own (s.threads t) = some msg) (he : own pc = some msg)
    (hk : unlinked pc = unlinked (s.threads t)) (hdr : Migloghdr) :
    Valid ({ s with heap := update s.heap msg (some hdr) }.goto t pc) queue := by
  obtain ⟨queued, allocated, -⟩ := hv.change hm (some hdr)
  have hf : Valid { s with heap := update s.heap msg (some hdr) } queue := by
    refine { hv with queued, bound := ?_, owned := ?_ }
    · rintro p (hh | hl)
      · exact hv.bound p (.inl (allocated p hh))
      · exact hv.bound p (.inr hl)
    · intro u p hy
      have owned := hv.owned u p hy
      refine { owned with allocated := ?_ }
      rw [isSome_update (hv.owned t msg hm).allocated]
      exact owned.allocated
  apply hf.goto
  intro p has
  exact ⟨hm.trans (he.symm.trans has), hk⟩

/-- `kfree` -/
lemma free (hm : own (s.threads t) = some msg) (hd : own pc = none) :
    Valid ({ s with heap := update s.heap msg none }.goto t pc) queue := by
  obtain ⟨queued, allocated, others⟩ := hv.change hm none
  have hg : Valid (s.goto t pc) queue :=
    hv.goto fun p has => absurd (has.symm.trans hd) nofun
  refine { hg with queued, bound := ?_, owned := ?_ }
  · rintro p (hh | hl)
    · exact hv.bound p (.inl (allocated p hh))
    · exact hv.bound p (.inr hl)
  · intro u p hy
    have owned := hg.owned u p hy
    refine { owned with allocated := ?_ }
    rcases own_update hy with ⟨-, has⟩ | ⟨ho, ht⟩
    · exact absurd (has.symm.trans hd) nofun
    · change (update s.heap msg none p).isSome
      rw [others u p ho ht]
      exact owned.allocated

/-- `kmalloc` -/
lemma alloc (new : own pc = some s.blocks) (hk : unlinked pc = true) (hdr : Migloghdr) :
    Valid ({ s with heap := update s.heap s.blocks (some hdr), blocks := s.blocks + 1 }.goto t pc) queue := by
  have apart : ∀ msg, (s.heap msg).isSome ∨ msg ∈ s.linked → msg ≠ s.blocks :=
    fun msg hu => Nat.ne_of_lt (hv.bound msg hu)
  have hf : ∀ msg, (s.heap msg).isSome → update s.heap s.blocks (some hdr) msg = s.heap msg :=
    fun msg allocated => update_of_ne (apart msg (.inl allocated)) _ _
  refine { hv with queued := ?_, bound := ?_, owned := ?_, apart := ?_ }
  · exact hv.queued.congr fun msg hm => hf msg (hv.queued.allocated msg hm)
  · intro msg hu
    by_cases he : msg = s.blocks
    · exact he ▸ Nat.lt_succ_self _
    · apply Nat.lt_succ_of_lt
      apply hv.bound
      dsimp only [State.goto] at hu
      rwa [update_of_ne he] at hu
  · intro u msg mine
    dsimp only [State.goto] at mine ⊢
    rcases own_update mine with ⟨rfl, hh⟩ | ⟨ho, ht⟩
    · rw [update_self]
      cases new.symm.trans hh
      refine ⟨?_, fun _ hl => apart _ (.inr hl) rfl, fun old => absurd (hk.symm.trans old) nofun⟩
      dsimp only
      rw [update_self]
      rfl
    · rw [update_of_ne ho]
      have owned := hv.owned u msg ht
      refine { owned with allocated := ?_ }
      dsimp only
      rw [hf msg owned.allocated]
      exact owned.allocated
  · apply hv.apart_update
    intro msg hh u _ ht
    cases new.symm.trans hh
    exact apart _ (.inl (hv.owned u _ ht).allocated) rfl

lemma add (mine : own (s.threads t) = some msg) (kind : unlinked (s.threads t) = true)
    (done : own pc = none) : Yields (miglogQueueAdd s.heap s.mq msg) fun (heap, mq) =>
      Valid ({ s with heap, mq, linked := s.linked ++ [msg] }.goto t pc) (queue ++ [msg]) := by
  have owned := hv.owned t msg mine
  obtain ⟨⟨heap, mq⟩, added, queued, allocated⟩ :=
    hv.queued.add owned.allocated (hv.own_not_mem mine)
  refine ⟨(heap, mq), added, { hv with
    queued, split := ?_, nodup := ?_, bound := ?_, owned := ?_, apart := ?_ }⟩
  · dsimp only [State.goto]
    rw [hv.split, append_assoc]
  · dsimp only [State.goto]
    rw [nodup_append_comm]
    exact nodup_cons.mpr ⟨owned.fresh kind, hv.nodup⟩
  · rintro p (here | linked)
    · exact hv.bound p (.inl (allocated p ▸ here))
    · rcases mem_append.mp linked with before | now
      · exact hv.bound p (.inr before)
      · rw [mem_singleton.mp now]
        exact hv.bound msg (.inl owned.allocated)
  · intro u p has
    dsimp only [State.goto] at has ⊢
    rcases own_update has with ⟨-, here⟩ | ⟨other, there⟩
    · exact absurd (here.symm.trans done) nofun
    · rw [update_of_ne other]
      have yours := hv.owned u p there
      refine ⟨(allocated p).trans yours.allocated, fun new => ?_, yours.taken⟩
      dsimp only
      rw [mem_append, mem_singleton, not_or]
      refine ⟨yours.fresh new, ?_⟩
      rintro rfl
      exact other (hv.apart u t p there mine)
  · exact hv.apart_update fun p here => absurd (here.symm.trans done) nofun

lemma del {pc : Option Nat → Pc} (taken : ∀ msg, own (pc msg) = msg)
    (kind : ∀ msg, unlinked (pc msg) = false) : Yields (miglogQueueDel s.heap s.mq) fun (msg, mq) =>
      Valid ({ s with mq, left := s.left ++ msg.toList.map (t, ·) }.goto t (pc msg)) queue.tail := by
  obtain ⟨⟨msg, mq⟩, removed, first, queued⟩ := hv.queued.del
  have apart := hv.nodup
  rw [hv.split] at apart
  have isLeft : ∀ p, p ∈ queue → p ∉ s.left.map Prod.snd :=
    fun p hm left => disjoint_of_nodup_append apart left hm
  refine ⟨(msg, mq), removed, { hv with queued, split := ?_, owned := ?_, apart := ?_, returned := ?_ }⟩
  · dsimp only [State.goto]
    rw [hv.split, first]
    cases queue with
    | nil => simp
    | cons p rest => simp
  · intro u p has
    dsimp only [State.goto] at has ⊢
    rcases own_update has with ⟨rfl, here⟩ | ⟨other, there⟩
    · rw [update_self]
      rw [taken, first] at here
      have hm : p ∈ queue := mem_of_head? here
      refine ⟨hv.queued.allocated p hm, fun new => absurd (new.symm.trans (kind msg)) nofun, fun _ => ⟨?_, ?_⟩⟩
      · simp [first, here]
      · intro gone
        obtain ⟨entry, inReturned, rfl⟩ := mem_map.mp gone
        exact isLeft _ hm (mem_map_of_mem (hv.returned entry inReturned))
    · rw [update_of_ne other]
      have yours := hv.owned u p there
      exact { yours with
        taken := fun old => ⟨mem_append_left _ (yours.taken old).1, (yours.taken old).2⟩ }
  · apply hv.apart_update
    intro p here u _ there
    rw [taken, first] at here
    exact hv.own_not_mem there (mem_of_head? here)
  · exact fun entry hm => mem_append_left _ (hv.returned entry hm)

end

end Valid

/-! ## One step -/

/-- The thread has passed the check and will add a message. -/
def pending : Pc → Bool
  | .writeAlloc _ | .writeCopy .. | .writeLock .. | .writeAdd .. => true
  | _ => false

variable [DecidableEq T]

/-- A step of a thread: it adds a message, or the queue does not grow. -/
def Counted (s : State T) (queue : List Nat) (t : T) (s' : State T) (queue' : List Nat) : Prop :=
  ∃ pc, s'.threads = update s.threads t pc ∧
    ((queue'.length ≤ queue.length ∧
        (pending pc = true → pending (s.threads t) = true ∨ s.mq.size < miglogMaxlog)) ∨
      (queue'.length = queue.length + 1 ∧ pending (s.threads t) = true ∧ pending pc = false))

/-- The queue stays, and the thread has nothing to add. -/
lemma Counted.quiet {s' : State T} (ht : s'.threads = update s.threads t pc)
    (hn : pending pc = false) : Counted s queue t s' queue := by
  refine ⟨pc, ht, .inl ⟨Nat.le_refl _, fun ha => ?_⟩⟩
  rw [hn] at ha
  cases ha

variable {outcome : Except Fault (State T)}

lemma Valid.run (hv : Valid s queue) {answer : Bool} (ran : s.run t answer = some outcome) :
    Yields outcome fun s' => ∃ queue', Valid s' queue' ∧ Counted s queue t s' queue' := by
  unfold State.run at ran
  cases pc : s.threads t <;> simp only [pc, some.injEq] at ran
  case out => cases ran
  case readCheck len =>
    subst ran
    refine (yields_ok _).mpr ⟨queue, hv.goto ?_, _, rfl, .inl ⟨Nat.le_refl _, ?_⟩⟩
    · split_ifs <;> nofun
    · split_ifs <;> nofun
  case readLock len =>
    split_ifs at ran
    cases ran
    exact (yields_ok _).mpr ⟨queue, (hv.setLock true).goto nofun, .quiet rfl rfl⟩
  case readDel len =>
    subst ran
    have ht : ∀ msg, own (Pc.readUnlock len msg) = msg := fun _ => rfl
    obtain ⟨⟨msg, mq⟩, removed, after⟩ := hv.del ht fun _ => rfl
    rw [yields_bind, removed, yields_ok, yields_pure]
    exact ⟨queue.tail, after, _, rfl, .inl ⟨by simp, nofun⟩⟩
  case readUnlock len msg =>
    subst ran
    refine (yields_ok _).mpr ⟨queue, (hv.setLock false).goto ?_, .quiet rfl rfl⟩
    intro p has
    exact ⟨pc ▸ has, pc ▸ rfl⟩
  case readCopy len msg =>
    cases msg with
    | none =>
      cases ran
      exact (yields_ok _).mpr ⟨queue, hv.goto nofun, .quiet rfl rfl⟩
    | some msg =>
      cases ran
      have hm : own (s.threads t) = some msg := pc ▸ rfl
      obtain ⟨hdr, hr, -⟩ := get_yields (hv.owned t msg hm).allocated
      rw [yields_bind, hr, yields_ok, yields_pure]
      cases answer with
      | false => exact ⟨queue, hv.goto nofun, .quiet rfl rfl⟩
      | true =>
        refine ⟨queue, hv.goto ?_, .quiet rfl rfl⟩
        intro p has
        exact ⟨hm.trans has, pc ▸ rfl⟩
  case readFree msg nreads =>
    subst ran
    have hm : own (s.threads t) = some msg := pc ▸ rfl
    have ho := hv.owned t msg hm
    obtain ⟨left, new⟩ := ho.taken (pc ▸ rfl)
    obtain ⟨heap, freed, rfl⟩ := free_yields ho.allocated
    rw [yields_bind, freed, yields_ok, yields_pure]
    have hd : own (.out nreads) = none := rfl
    refine ⟨queue, (hv.free hm hd).give left new ?_, .quiet rfl rfl⟩
    intro u hy
    rcases Valid.own_update hy with ⟨-, ⟨⟩⟩ | ⟨other, there⟩
    exact other (hv.apart u t msg there hm)
  case writeCheck buf =>
    subst ran
    refine (yields_ok _).mpr ⟨queue, hv.goto ?_, _, rfl, .inl ⟨Nat.le_refl _, ?_⟩⟩
    · split_ifs <;> nofun
    · split_ifs with full
      · nofun
      · exact fun _ => .inr (Int.not_le.mp full)
  case writeAlloc buf =>
    cases answer with
    | false =>
      simp only [Bool.false_eq_true, if_false, some.injEq] at ran
      subst ran
      exact (yields_ok _).mpr ⟨queue, hv.goto nofun, .quiet rfl rfl⟩
    | true =>
      simp only [if_true, some.injEq] at ran
      subst ran
      exact (yields_ok _).mpr
        ⟨queue, hv.alloc rfl rfl _, _, rfl, .inl ⟨Nat.le_refl _, fun _ => .inl (pc ▸ rfl)⟩⟩
  case writeCopy buf msg nwrites =>
    have hm : own (s.threads t) = some msg := pc ▸ rfl
    have allocated := (hv.owned t msg hm).allocated
    cases answer with
    | false =>
      simp only [Bool.false_eq_true, if_false, some.injEq] at ran
      subst ran
      obtain ⟨heap, freed, rfl⟩ := free_yields allocated
      rw [yields_bind, freed, yields_ok, yields_pure]
      exact ⟨queue, hv.free hm rfl, .quiet rfl rfl⟩
    | true =>
      simp only [if_true, some.injEq] at ran
      subst ran
      obtain ⟨heap, hf, hdr, -, rfl⟩ := modify_yields allocated ({ · with log := buf.take nwrites })
      rw [yields_bind, hf, yields_ok, yields_pure]
      exact ⟨queue, hv.fill hm rfl (pc ▸ rfl) _, _, rfl, .inl ⟨Nat.le_refl _, fun _ => .inl (pc ▸ rfl)⟩⟩
  case writeLock msg nwrites =>
    split_ifs at ran
    cases ran
    refine (yields_ok _).mpr
      ⟨queue, (hv.setLock true).goto ?_, _, rfl, .inl ⟨Nat.le_refl _, fun _ => .inl (pc ▸ rfl)⟩⟩
    intro p has
    exact ⟨pc ▸ has, pc ▸ rfl⟩
  case writeAdd msg nwrites =>
    subst ran
    have hm : own (s.threads t) = some msg := pc ▸ rfl
    have hd : own (.writeUnlock nwrites) = none := rfl
    obtain ⟨⟨heap, mq⟩, ha, after⟩ := hv.add hm (pc ▸ rfl) hd
    rw [yields_bind, ha, yields_ok, yields_pure]
    exact ⟨queue ++ [msg], after, _, rfl, .inr ⟨length_append, pc ▸ rfl, rfl⟩⟩
  case writeUnlock nwrites =>
    subst ran
    exact (yields_ok _).mpr ⟨queue, (hv.setLock false).goto nofun, .quiet rfl rfl⟩

lemma Valid.step (hv : Valid s queue) {event : Event T} (hs : s.step event = some outcome) :
    Yields outcome fun s' => ∃ queue' t, Valid s' queue' ∧ Counted s queue t s' queue' := by
  cases event with
  | read t len =>
    dsimp only [State.step] at hs
    split at hs <;> cases hs
    exact (yields_ok _).mpr ⟨queue, t, hv.goto nofun, .quiet rfl rfl⟩
  | write t buf =>
    dsimp only [State.step] at hs
    split at hs <;> cases hs
    exact (yields_ok _).mpr ⟨queue, t, hv.goto nofun, .quiet rfl rfl⟩
  | run t answer =>
    obtain ⟨s', he, queue', ha, hc⟩ := hv.run hs
    exact ⟨s', he, queue', t, ha, hc⟩

/-! ## Whole runs -/

/-- A call of `miglog_write` is one of a thread of `W`. -/
def Event.By (W : Set T) : Event T → Prop
  | .write t _ => t ∈ W
  | _ => True

/-- The states of the runs in which only the threads of `W` write. -/
inductive ReachesBy (W : Set T) : State T → Prop
  | start : ReachesBy W (start T)
  | step {s s' : State T} (event : Event T) (before : ReachesBy W s) (by_writer : Event.By W event)
      (stepped : s.step event = some (.ok s')) : ReachesBy W s'

/-- The states of the runs. -/
abbrev Reaches (s : State T) : Prop := ReachesBy Set.univ s

variable {W : Set T}

lemma ReachesBy.valid (run : ReachesBy W s) : ∃ queue, Valid s queue := by
  induction run with
  | start => exact ⟨[], .start⟩
  | step event before by_writer stepped ih =>
    obtain ⟨queue, hv⟩ := ih
    obtain ⟨queue', -, ha, -⟩ := (yields_ok _).mp (hv.step stepped)
    exact ⟨queue', ha⟩

/-- What the device is for. Every message that was linked is returned by one read at most; the
messages leave the queue through reads, in the order in which they were linked; and when
nobody has the lock, the queue is a chain of the messages that did not leave it. -/
structure Right (s : State T) : Prop where
  safe : ∀ event fault, s.step event ≠ some (.error fault)
  once : s.linked.Nodup ∧ (s.returned.map Prod.snd).Nodup
  returned : ∀ entry ∈ s.returned, entry ∈ s.left
  order : ∃ queue, s.linked = s.left.map Prod.snd ++ queue ∧ (s.mq.lock = false →
    s.mq.size = queue.length ∧ Chained none (follow s.heap) s.mq.head (queue.map some) ∧
      s.mq.tail = queue.getLast? ∧ (s.mq.head = none ↔ queue = []) ∧ (s.mq.tail = none ↔ queue = []))

lemma Valid.right (hv : Valid s queue) (hs : queue.length < 2 ^ 31) : Right s := by
  refine ⟨?_, ⟨hv.nodup, hv.once⟩, hv.returned, queue, hv.split, fun _ => ⟨?_, ?_, ?_, ?_, ?_⟩⟩
  · intro event fault hf
    exact yields_error fault (hv.step hf)
  · rw [hv.queued.size, toInt_small (by omega) (by omega)]
  · exact hv.queued.chained
  · exact hv.queued.tail
  · have hc := hv.queued.chained
    cases queue with
    | nil => exact iff_of_true hc rfl
    | cons msg rest =>
      rw [hc.1]
      exact iff_of_false nofun nofun
  · rw [hv.queued.tail, getLast?_eq_none_iff]

section

variable [Fintype T]

/-- The threads that will add a message. -/
def pendingThreads (threads : T → Pc) : Finset T := Finset.univ.filter fun t => pending (threads t) = true

lemma pendingThreads_card_le {threads : T → Pc} (hf : pending pc = true → pending (threads t) = true) :
    (pendingThreads (update threads t pc)).card ≤ (pendingThreads threads).card := by
  apply Finset.card_le_card
  intro u hm
  rw [pendingThreads, Finset.mem_filter] at hm ⊢
  by_cases he : u = t
  · subst he
    rw [update_self] at hm
    exact ⟨hm.1, hf hm.2⟩
  · rwa [update_of_ne he] at hm

lemma pendingThreads_card_lt {threads : T → Pc} (hb : pending (threads t) = true)
    (ha : pending pc = false) :
    (pendingThreads (update threads t pc)).card < (pendingThreads threads).card := by
  apply Finset.card_lt_card
  rw [Finset.ssubset_iff_of_subset]
  · refine ⟨t, Finset.mem_filter.mpr ⟨Finset.mem_univ t, hb⟩, ?_⟩
    rw [pendingThreads, Finset.mem_filter, update_self, ha]
    nofun
  · intro u hm
    rw [pendingThreads, Finset.mem_filter] at hm ⊢
    have ho : u ≠ t := by
      rintro rfl
      rw [update_self, ha] at hm
      exact absurd hm.2 nofun
    rwa [update_of_ne ho] at hm

/-- Each thread that passed the check may still add a message. -/
def Bounded (s : State T) (queue : List Nat) : Prop :=
  queue.length + (pendingThreads s.threads).card ≤ 8191 + Fintype.card T

lemma Bounded.step {s' : State T} {queue' : List Nat} (hb : Bounded s queue)
    (size : s.mq.size = queue.length) (hc : Counted s queue t s' queue') : Bounded s' queue' := by
  obtain ⟨pc, hm, ⟨hs, hp⟩ | ⟨hl, before, ha⟩⟩ := hc
  · unfold Bounded at hb ⊢
    rw [hm]
    by_cases hf : pending pc = true → pending (s.threads t) = true
    · have count : (pendingThreads (update s.threads t pc)).card ≤ (pendingThreads s.threads).card :=
        pendingThreads_card_le hf
      omega
    · obtain ⟨new, old⟩ := Classical.not_imp.mp hf
      have hr := (hp new).resolve_left old
      rw [size, miglogMaxlog] at hr
      have all := Finset.card_le_univ (pendingThreads (update s.threads t pc))
      omega
  · unfold Bounded at hb ⊢
    rw [hm]
    have count := pendingThreads_card_lt before ha
    omega

lemma ReachesBy.bounded (few : Fintype.card T + 8191 < 2 ^ 31) (run : ReachesBy W s) :
    ∃ queue, Valid s queue ∧ Bounded s queue := by
  induction run with
  | start =>
    refine ⟨[], .start, ?_⟩
    have all := Finset.card_le_univ (pendingThreads (Source.Kernel.start T).threads)
    unfold Bounded
    simp only [length_nil]
    omega
  | @step s s' event before by_writer stepped ih =>
    obtain ⟨queue, hv, hb⟩ := ih
    obtain ⟨queue', t, ha, hc⟩ := (yields_ok _).mp (hv.step stepped)
    have hsi : s.mq.size = queue.length := by
      unfold Bounded at hb
      rw [hv.queued.size, toInt_small (by omega) (by omega)]
    exact ⟨queue', ha, hb.step hsi hc⟩

/-- For fewer threads than would let the counter overflow. -/
theorem log_queue_right (few : Fintype.card T + 8191 < 2 ^ 31) (s : State T) (run : Reaches s) : Right s := by
  obtain ⟨queue, hv, hb⟩ := run.bounded few
  apply hv.right
  unfold Bounded at hb
  omega

end

end

def runAll {T : Type} [DecidableEq T] : List (Event T) → State T → Option (State T)
  | [], s => some s
  | event :: events, s =>
    match s.step event with
    | some (.ok s') => runAll events s'
    | _ => none

lemma reaches_runAll {T : Type} [DecidableEq T] {s s' : State T} (events : List (Event T)) (run : Reaches s)
    (ran : runAll events s = some s') : Reaches s' := by
  induction events generalizing s with
  | nil =>
    cases ran
    exact run
  | cons event events ih =>
    unfold runAll at ran
    split at ran
    next stepped => exact ih (.step event run (by cases event <;> trivial) stepped) ran
    next => cases ran

/-- A message that one thread has written and another one has read. -/
theorem log_queue_right_read : ∃ s : State Bool, Reaches s ∧ s.linked = [0] ∧ s.returned = [(false, 0)] ∧
    Right s := by
  obtain ⟨s, ran, linked, returned⟩ : ∃ s, runAll (.write true [1] :: replicate 6 (.run true true) ++
      .read false 10 :: replicate 6 (.run false true)) (start Bool) = some s ∧ s.linked = [0] ∧
        s.returned = [(false, 0)] := ⟨_, rfl, rfl, rfl⟩
  have run := reaches_runAll _ .start ran
  exact ⟨s, run, linked, returned, log_queue_right (by decide) s run⟩

/-! ## Writers that pass the check together -/

section

variable {T : Type} [DecidableEq T] {W : Set T} {s : State T} {t : T}

/-- Nothing was read, so all that was linked is in the queue. -/
lemma ReachesBy.unread (run : ReachesBy W s) (left : s.left = []) : Valid s s.linked := by
  obtain ⟨queue, hv⟩ := run.valid
  have hs := hv.split
  rw [left, map_nil, nil_append] at hs
  exact hs ▸ hv

/-- A call of `miglog_write` gets as far as the lock. -/
lemma ReachesBy.passes (run : ReachesBy W s) (writer : t ∈ W) {result : Int} (hi : s.threads t = .out result)
    (hr : s.mq.size < miglogMaxlog) : ∃ s' msg nwrites, ReachesBy W s' ∧ s'.mq = s.mq ∧
      s'.linked = s.linked ∧ s'.left = s.left ∧
      s'.threads = update s.threads t (.writeLock msg nwrites) := by
  let hdr : Migloghdr := { next := none, log := [] }
  let s1 := { s with heap := update s.heap s.blocks (some hdr), blocks := s.blocks + 1 }
  have hc : ReachesBy W (s.goto t (.writeCheck [])) := .step (.write t []) run writer (by simp [State.step, hi])
  have hch : ReachesBy W (s.goto t (.writeAlloc [])) := by
    apply ReachesBy.step (.run t true) hc trivial
    simp [State.step, State.run, State.goto, not_le.mpr hr]
  have allocated : ReachesBy W (s1.goto t (.writeCopy [] s.blocks 0)) := by
    apply ReachesBy.step (.run t true) hch trivial
    simp [State.step, State.run, State.goto, s1, hdr]
  have hlock : ReachesBy W (s1.goto t (.writeLock s.blocks 0)) := by
    apply ReachesBy.step (.run t true) allocated trivial
    simp [State.step, State.run, State.goto, s1, hdr, Heap.modify, Heap.get, bind, Except.bind, pure, Except.pure]
  exact ⟨_, s.blocks, 0, hlock, rfl, rfl, rfl, rfl⟩

/-- Once the lock is free, the message is added. -/
lemma ReachesBy.adds (run : ReachesBy W s) {msg nwrites : Nat} (hw : s.threads t = .writeLock msg nwrites)
    (hu : s.mq.lock = false) : ∃ s', ReachesBy W s' ∧ s'.mq.lock = false ∧
      s'.linked = s.linked ++ [msg] ∧ s'.left = s.left ∧
      s'.threads = update s.threads t (.out nwrites) := by
  let s1 := (s.setLock true).goto t (.writeAdd msg nwrites)
  have hp : s1.threads t = .writeAdd msg nwrites := update_self t _ _
  have hl : ReachesBy W s1 :=
    .step (.run t true) run trivial (by simp [State.step, State.run, hw, hu, s1])
  obtain ⟨queue, hv⟩ := hl.valid
  have hm : own (s1.threads t) = some msg := hp ▸ rfl
  have hd : own (.writeUnlock nwrites) = none := rfl
  obtain ⟨⟨heap, mq⟩, linked, -⟩ := hv.add hm (hp ▸ rfl) hd
  let s2 := { s1 with heap, mq, linked := s1.linked ++ [msg] }.goto t (.writeUnlock nwrites)
  have ha : ReachesBy W s2 := by
    apply ReachesBy.step (.run t true) hl trivial
    simp only [State.step, State.run, hp, linked]
    rfl
  have hun : ReachesBy W ((s2.setLock false).goto t (.out nwrites)) := by
    apply ReachesBy.step (.run t true) ha trivial
    simp [State.step, State.run, State.goto, s2]
  refine ⟨_, hun, rfl, rfl, rfl, ?_⟩
  simp [State.goto, State.setLock, s2, s1]

/-- One thread writes message after message, whatever the others wait for. -/
lemma ReachesBy.fills (run : ReachesBy W s) (writer : t ∈ W) (hu : s.mq.lock = false) (hl : s.linked = [])
    (left : s.left = []) (hi : s.threads t = .out 0) {n : Nat} (few : n ≤ 8192) :
    ∃ s' result, ReachesBy W s' ∧ s'.mq.lock = false ∧ s'.linked.length = n ∧ s'.left = [] ∧
      s'.threads = update s.threads t (.out result) := by
  induction n with
  | zero => exact ⟨s, 0, run, hu, hl ▸ rfl, left, hi ▸ (update_eq_self t s.threads).symm⟩
  | succ n ih =>
    obtain ⟨s1, result, run1, unlocked1, count1, left1, threads1⟩ := ih (by omega)
    have hr : s1.mq.size < miglogMaxlog := by
      rw [(run1.unread left1).queued.size, count1, toInt_small (by omega) (by omega), miglogMaxlog]
      omega
    obtain ⟨s2, msg, nwrites, run2, mq2, linked2, left2, threads2⟩ :=
      run1.passes writer (threads1 ▸ update_self t _ _) hr
    obtain ⟨s3, run3, unlocked3, linked3, left3, threads3⟩ :=
      run2.adds (threads2 ▸ update_self t _ _) (mq2 ▸ unlocked1)
    refine ⟨s3, nwrites, run3, unlocked3, ?_, left3.trans (left2.trans left1), ?_⟩
    · rw [linked3, linked2, length_append, count1]
      rfl
    · rw [threads3, threads2, threads1, update_idem, update_idem]

/-- One thread passes the check and waits while another one fills the queue. -/
lemma two_overfill {t u : T} (ht : t ∈ W) (hu : u ∈ W) (hd : t ≠ u) :
    ∃ s : State T, ReachesBy W s ∧ s.mq.size = 8193 := by
  obtain ⟨s1, msg, nwrites, run1, mq1, linked1, left1, threads1⟩ :=
    (ReachesBy.start (W := W)).passes hu rfl (show (0 : Int) < 8192 by decide)
  have hi : s1.threads t = .out 0 := by
    rw [threads1, update_of_ne hd]
    rfl
  obtain ⟨s2, result, run2, unlocked2, count2, left2, threads2⟩ :=
    run1.fills ht (mq1 ▸ rfl) linked1 left1 hi (Nat.le_refl 8192)
  obtain ⟨s3, run3, -, linked3, left3, -⟩ :=
    run2.adds (t := u) (by rw [threads2, update_of_ne hd.symm, threads1, update_self]) unlocked2
  refine ⟨s3, run3, ?_⟩
  rw [(run3.unread (left3.trans left2)).queued.size, linked3, length_append, count2]
  simp only [length_singleton]
  decide

/-- The thread is in a call of `miglog_write` that may still add a message. -/
def writing (pc : Pc) : Bool :=
  match pc with
  | .writeCheck _ => true
  | pc => pending pc

lemma run_writing {outcome : Except Fault (State T)} {answer : Bool} (ran : s.run t answer = some outcome) :
    Gives outcome fun s' => ∃ pc, s'.threads = update s.threads t pc ∧
      (writing pc = true → writing (s.threads t) = true) := by
  unfold State.run at ran
  cases hpc : s.threads t <;> simp only [hpc, some.injEq] at ran
  case out => cases ran
  case readCheck | writeCheck =>
    subst ran
    refine (gives_ok _).mpr ⟨_, rfl, ?_⟩
    split <;> simp [writing, pending]
  case readLock | writeLock =>
    split_ifs at ran
    cases ran
    exact (gives_ok _).mpr ⟨_, rfl, by simp [writing, pending]⟩
  case readUnlock | writeUnlock =>
    subst ran
    exact (gives_ok _).mpr ⟨_, rfl, by simp [writing, pending]⟩
  case readDel | readFree | writeAdd =>
    subst ran
    rw [gives_bind]
    intro _ _
    exact (gives_pure _).mpr ⟨_, rfl, by simp [writing, pending]⟩
  case readCopy len msg =>
    cases msg <;> cases ran
    · exact (gives_ok _).mpr ⟨_, rfl, by simp [writing, pending]⟩
    · rw [gives_bind]
      intro _ _
      refine (gives_pure _).mpr ⟨_, rfl, ?_⟩
      split <;> simp [writing, pending]
  case writeAlloc =>
    split_ifs at ran <;> cases ran <;> exact (gives_ok _).mpr ⟨_, rfl, by simp [writing, pending]⟩
  case writeCopy =>
    split_ifs at ran <;> cases ran <;> rw [gives_bind] <;> intro _ _ <;>
      exact (gives_pure _).mpr ⟨_, rfl, by simp [writing, pending]⟩

/-- Only threads of `W` are in a call that may add a message, and there is room for the message of
a thread that has passed the check. -/
structure Lone (W : Set T) (s : State T) (queue : List Nat) : Prop where
  writers : ∀ t, writing (s.threads t) = true → t ∈ W
  full : queue.length ≤ 8192
  room : ∀ t, pending (s.threads t) = true → queue.length < 8192

lemma writing_step {s' : State T} {event : Event T} (writers : ∀ t, writing (s.threads t) = true → t ∈ W)
    (by_writer : Event.By W event) (stepped : s.step event = some (.ok s')) :
    ∀ t, writing (s'.threads t) = true → t ∈ W := by
  have update_writers : ∀ t pc, (writing pc = true → t ∈ W) →
      ∀ u, writing (update s.threads t pc u) = true → u ∈ W := by
    intro t pc hpc u hu
    by_cases heq : u = t
    · subst heq
      exact hpc (by rwa [update_self] at hu)
    · exact writers u (by rwa [update_of_ne heq] at hu)
  cases event with
  | read t len =>
    dsimp only [State.step] at stepped
    split at stepped <;> cases stepped
    exact update_writers t _ nofun
  | write t buf =>
    dsimp only [State.step] at stepped
    split at stepped <;> cases stepped
    exact update_writers t _ fun _ => by_writer
  | run t answer =>
    obtain ⟨pc, threads, hpc⟩ := run_writing stepped s' rfl
    rw [threads]
    exact update_writers t pc fun hw => writers t (hpc hw)

lemma Lone.step {s' : State T} {queue queue' : List Nat} (one : W.Subsingleton) (lone : Lone W s queue)
    (writers : ∀ t, writing (s'.threads t) = true → t ∈ W) (hv : Valid s queue)
    (counted : Counted s queue t s' queue') : Lone W s' queue' := by
  have hsize : s.mq.size = queue.length := by
    have := lone.full
    rw [hv.queued.size, toInt_small (by omega) (by omega)]
  obtain ⟨pc, threads, ⟨hshort, hpending⟩ | ⟨hlong, hbefore, hafter⟩⟩ := counted
  · refine ⟨writers, hshort.trans lone.full, fun u hu => ?_⟩
    rw [threads] at hu
    by_cases heq : u = t
    · subst heq
      rw [update_self] at hu
      rcases hpending hu with hold | hroom
      · exact hshort.trans_lt (lone.room u hold)
      · rw [hsize, miglogMaxlog] at hroom
        omega
    · rw [update_of_ne heq] at hu
      exact hshort.trans_lt (lone.room u hu)
  · have hroom := lone.room t hbefore
    refine ⟨writers, by omega, fun u hu => ?_⟩
    have pending_writing : ∀ pc, pending pc = true → writing pc = true := by
      rintro (_ | _) <;> simp [writing, pending]
    rw [threads] at hu
    by_cases heq : u = t
    · rw [heq, update_self, hafter] at hu
      cases hu
    · rw [update_of_ne heq] at hu
      exact absurd (one (lone.writers u (pending_writing _ hu)) (lone.writers t (pending_writing _ hbefore))) heq

/-- The queue is a list of at most as many messages as it has places, in every state of every
run in which the threads of `W` write, exactly if `W` has no two threads. -/
theorem capacity_iff (T : Type) [DecidableEq T] (W : Set T) :
    (∀ s : State T, ReachesBy W s → ∃ queue, Queued s.heap s.mq queue ∧ queue.length ≤ miglogMaxlog) ↔
      W.Subsingleton := by
  constructor
  · intro bounded t ht u hu
    by_contra hne
    obtain ⟨s, run, hsize⟩ := two_overfill ht hu hne
    obtain ⟨queue, queued, hshort⟩ := bounded s run
    have hlen := queued.size
    rw [hsize, toInt_small (by omega) (by unfold miglogMaxlog at hshort; omega)] at hlen
    unfold miglogMaxlog at hshort
    omega
  · intro one s run
    obtain ⟨queue, hv, lone⟩ : ∃ queue, Valid s queue ∧ Lone W s queue := by
      induction run with
      | start => exact ⟨[], .start, nofun, by decide, nofun⟩
      | step event before by_writer stepped ih =>
        obtain ⟨queue, hv, lone⟩ := ih
        obtain ⟨queue', t, hv', counted⟩ := (yields_ok _).mp (hv.step stepped)
        exact ⟨queue', hv', lone.step one (writing_step lone.writers by_writer stepped) hv counted⟩
    exact ⟨queue, hv.queued, Int.ofNat_le.mpr lone.full⟩

/-- Two writers, and 8193 messages. -/
theorem queue_overfull : ∃ s : State Bool, Reaches s ∧ miglogMaxlog < s.mq.size := by
  obtain ⟨s, run, hf⟩ := two_overfill (W := Set.univ) trivial trivial (show true ≠ false by decide)
  exact ⟨s, run, hf ▸ by decide⟩

end

/-! ## The counter wraps around -/

/-- Any number of threads may pass the check before the first of them gets the lock. -/
lemma many_pass (n : Nat) : ∃ s : State Nat, Reaches s ∧ s.mq = miglogQueueInit ∧
    s.linked = [] ∧ s.left = [] ∧ (∀ i < n, ∃ msg nwrites, s.threads i = .writeLock msg nwrites) ∧
    ∀ i ≥ n, s.threads i = .out 0 := by
  induction n with
  | zero => exact ⟨start Nat, .start, rfl, rfl, rfl, nofun, fun _ _ => rfl⟩
  | succ n ih =>
    obtain ⟨s, run, mq, linked, left, hw, out⟩ := ih
    obtain ⟨s', msg, nwrites, hr', mq', hh', hl', ht'⟩ :=
      run.passes trivial (out n (Nat.le_refl n)) (mq ▸ by decide)
    refine ⟨s', hr', mq'.trans mq, hh'.trans linked, hl'.trans left, ?_, ?_⟩
    · intro i hl
      rw [ht']
      by_cases he : i = n
      · exact ⟨msg, nwrites, by rw [he, update_self]⟩
      · rw [update_of_ne he]
        exact hw i (by omega)
    · intro i ha
      rw [ht', update_of_ne (by omega)]
      exact out i (by omega)

/-- Then each of them adds its message. -/
lemma many_add (n k : Nat) (hm : k ≤ n) : ∃ s : State Nat, Reaches s ∧ s.mq.lock = false ∧
    s.linked.length = k ∧ s.left = [] ∧
    ∀ i, k ≤ i → i < n → ∃ msg nwrites, s.threads i = .writeLock msg nwrites := by
  induction k with
  | zero =>
    obtain ⟨s, run, mq, linked, left, hw, -⟩ := many_pass n
    exact ⟨s, run, mq ▸ rfl, linked ▸ rfl, left, fun i _ hl => hw i hl⟩
  | succ k ih =>
    obtain ⟨s, run, hu, hc, left, hw⟩ := ih (by omega)
    obtain ⟨msg, nwrites, waits⟩ := hw k (Nat.le_refl k) (by omega)
    obtain ⟨s', hr', hu', hh', hl', ht'⟩ := run.adds waits hu
    refine ⟨s', hr', hu', ?_, hl'.trans left, ?_⟩
    · rw [hh', length_append, hc]
      rfl
    · intro i ha hl
      rw [ht', update_of_ne (by omega)]
      exact hw i (by omega) hl

/-- With 2^31 messages in the queue the counter is negative. -/
theorem log_counter_wraps : ∃ s : State Nat, Reaches s ∧ ¬ Right s := by
  obtain ⟨s, run, hu, hc, left, -⟩ := many_add (2 ^ 31) (2 ^ 31) (Nat.le_refl _)
  refine ⟨s, run, fun right => ?_⟩
  have hv := run.unread left
  obtain ⟨queue, split, hf⟩ := right.order
  rw [left, map_nil, nil_append] at split
  have hs := (hf hu).1
  rw [← split, hv.queued.size, hc] at hs
  exact absurd hs (by decide)

end Fzsvn.Guarantees.Kernel.LogQueue
