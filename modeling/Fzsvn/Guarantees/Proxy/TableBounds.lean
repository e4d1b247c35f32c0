import Fzsvn.Source.Proxy.FdEpoll

/-!
# Accesses to the arrays of the epoll table

`maps` and `updates` have `maxfd` elements. A flush stays inside both, and so does a request on
`maps`. There are two ways out: `fd_epoll_map` answers the descriptor `maxfd` as well, and a
reset clears the mark of an item that is still queued, so that the next request queues it again
and the queue can outgrow `updates`.
-/
namespace Fzsvn.Guarantees.Proxy.TableBounds
open Source.Proxy List

variable {α β : Type}

inductive Access where
  | maps (index : Nat)
  | updates (index : Nat)
  deriving DecidableEq

def Access.index : Access → Nat
  | .maps i => i
  | .updates i => i

/-- A call on any descriptor. An owner writes through the item that `fd_epoll_map` returns, or
zeroes it and closes the descriptor. -/
inductive Call (α β : Type) where
  | lookup (fd : Int) (write : FdItem α β → FdItem α β)
  | reset (fd : Int)
  | add (fd : Int) (events : Mask) (iocb : Option β)
  | flush (ok : Nat → Bool)

/-- The accesses of the loop of a flush from index `i` on. -/
def flushAccesses : Nat → List Nat → List Access
  | _, [] => []
  | i, fd :: rest => .updates i :: (if fd = 0 then [] else [.maps fd]) ++ flushAccesses (i + 1) rest

def Call.accesses (fe : FdEpoll α β) : Call α β → List Access
  | .lookup fd _ => (fdEpollMap fe fd).toList.map .maps
  | .reset fd => (fdEpollMap fe fd).toList.map .maps
  | .add fd _ _ =>
    if fd < 0 ∨ fd ≥ fe.maxfd then []
    else .maps fd.toNat :: if (fe.maps fd.toNat).isUpdated then [] else [.updates fe.updates.length]
  | .flush _ => flushAccesses 0 fe.updates

def Call.apply (sys : EpollSys α β) : Call α β → Option (EpollSys α β)
  | .lookup fd write =>
    match fdEpollMap sys.fe fd with
    | none => some sys
    | some i => some { sys with fe := sys.fe.setItem i (write (sys.fe.maps i)) }
  | .reset fd =>
    match fdEpollMap sys.fe fd with
    | none => some sys
    | some i => some (sys.reset i)
  | .add fd events iocb =>
    (fdEpollAddEvent sys.fe fd events iocb).map fun r => { sys with fe := r.1 }
  | .flush ok => some (fdEpollFlushEvents ok sys)

/-- Every access of the run has an index of the array. -/
def AllInRange : List (Call α β) → EpollSys α β → Prop
  | [], _ => True
  | call :: calls, sys =>
    (∀ a ∈ call.accesses sys.fe, a.index < sys.fe.maxfd) ∧
      ∀ next, call.apply sys = some next → AllInRange calls next

/-- No item is looked up for the descriptor `maxfd`, and no item is queued behind `maxfd`
others. -/
def Call.Spares (fe : FdEpoll α β) : Call α β → Prop
  | .lookup fd _ => fd ≠ fe.maxfd
  | .reset fd => fd ≠ fe.maxfd
  | .add fd _ _ => 0 ≤ fd → fd < fe.maxfd → (fe.maps fd.toNat).isUpdated = false →
      fe.updates.length ≠ fe.maxfd
  | .flush _ => True

def AllSpare : List (Call α β) → EpollSys α β → Prop
  | [], _ => True
  | call :: calls, sys =>
    call.Spares sys.fe ∧ ∀ next, call.apply sys = some next → AllSpare calls next

/-! ## One call -/

structure Bounded (fe : FdEpoll α β) : Prop where
  entries : ∀ fd ∈ fe.updates, fd < fe.maxfd
  length : fe.updates.length ≤ fe.maxfd

variable {fe : FdEpoll α β} {sys next : EpollSys α β}

lemma flushAccesses_index {queue : List Nat} {i : Nat} {a : Access}
    (hm : a ∈ flushAccesses i queue) : a.index < i + queue.length ∨ a.index ∈ queue := by
  induction queue generalizing i with
  | nil => cases hm
  | cons fd rest ih =>
    rcases mem_cons.mp hm with rfl | hm
    · exact .inl (by simp [Access.index])
    rcases mem_append.mp hm with hi | later
    · split at hi
      · cases hi
      · rw [mem_singleton.mp hi]
        exact .inr mem_cons_self
    · rcases ih later with hl | he
      · exact .inl (by rw [length_cons]; omega)
      · exact .inr (mem_cons_of_mem _ he)

lemma lookup_inRange_iff {fd : Int} :
    (∀ a ∈ (fdEpollMap fe fd).toList.map Access.maps, a.index < fe.maxfd) ↔ fd ≠ fe.maxfd := by
  unfold fdEpollMap
  split
  · simp
    omega
  · simp [Access.index]
    omega

lemma accesses_inRange_iff (hb : Bounded fe) (call : Call α β) :
    (∀ a ∈ call.accesses fe, a.index < fe.maxfd) ↔ call.Spares fe := by
  cases call with
  | lookup fd write => exact lookup_inRange_iff
  | reset fd => exact lookup_inRange_iff
  | add fd events iocb =>
    have length := hb.length
    simp only [Call.accesses, Call.Spares]
    split
    · simp
      omega
    · cases marked : (fe.maps fd.toNat).isUpdated <;> simp [Access.index] <;> omega
  | flush ok =>
    refine ⟨fun _ => trivial, fun _ a hm => ?_⟩
    rcases flushAccesses_index hm with hl | he
    · exact Nat.lt_of_lt_of_le hl (by simpa using hb.length)
    · exact hb.entries _ he

lemma bounded_empty {maxfd : Nat} (maps : Nat → FdItem α β) : Bounded ⟨maxfd, maps, []⟩ :=
  ⟨fun _ he => absurd he not_mem_nil, Nat.zero_le _⟩

lemma bounded_setItem (hb : Bounded fe) {i : Nat} (fi : FdItem α β) :
    Bounded (fe.setItem i fi) := ⟨hb.entries, hb.length⟩

lemma bounded_addEvent {fd : Int} {events : Mask} {iocb : Option β} {r : FdEpoll α β × Int}
    (hb : Bounded fe) (ha : fdEpollAddEvent fe fd events iocb = some r) : Bounded r.1 := by
  unfold fdEpollAddEvent at ha
  split at ha
  · cases ha
    exact hb
  next hp =>
  split at ha
  · cases ha
    exact hb
  next hl =>
  simp only [FdEpoll.request, Option.map_eq_some_iff] at ha
  obtain ⟨fe', request, rfl⟩ := ha
  split at request
  · cases request
    exact bounded_setItem hb _
  split at request
  · next hr =>
    cases request
    refine ⟨fun x hm => ?_, by rw [length_append]; exact hr⟩
    rcases mem_append.mp hm with old | new
    · exact hb.entries x old
    · rw [mem_singleton.mp new]
      change fd.toNat < fe.maxfd
      omega
  · cases request

lemma bounded_apply {call : Call α β} (hb : Bounded sys.fe)
    (ha : call.apply sys = some next) : Bounded next.fe := by
  cases call with
  | lookup fd write =>
    simp only [Call.apply] at ha
    split at ha <;> cases ha
    · exact hb
    · exact bounded_setItem hb _
  | reset fd =>
    simp only [Call.apply] at ha
    split at ha <;> cases ha
    · exact hb
    · exact bounded_setItem hb _
  | add fd events iocb =>
    obtain ⟨r, added, rfl⟩ := Option.map_eq_some_iff.mp ha
    exact bounded_addEvent hb added
  | flush ok =>
    cases ha
    exact bounded_empty _

/-! ## Every run -/

lemma run_inRange_iff (calls : List (Call α β)) (hb : Bounded sys.fe) :
    AllInRange calls sys ↔ AllSpare calls sys := by
  induction calls generalizing sys with
  | nil => exact Iff.rfl
  | cons call calls ih =>
    apply and_congr (accesses_inRange_iff hb call)
    exact forall₂_congr fun next ha => ih (bounded_apply hb ha)

/-- For every `maxfd` and every sequence of calls on any descriptors, all accesses are inside the
arrays exactly if every call spares their ends. -/
theorem table_inRange_iff (maxfd : Nat) (calls : List (Call α β)) :
    AllInRange calls (EpollSys.start maxfd) ↔ AllSpare calls (EpollSys.start maxfd) :=
  run_inRange_iff calls (bounded_empty _)

/-- A descriptor that is closed and used again, between two flushes. -/
def reused : List (Call Nat Nat) :=
  [.add 1 fdIn none, .reset 1, .add 1 fdIn none, .reset 1, .add 1 fdIn none]

/-- The item behind the table is looked up, and the third entry of two is written. -/
theorem table_overrun : ¬AllInRange [.lookup 2 id] (EpollSys.start 2 : EpollSys Nat Nat) ∧
      ¬AllInRange reused (EpollSys.start 2) := by
  constructor
  · intro hi
    exact absurd (hi.1 (.maps 2) (by simp [Call.accesses, fdEpollMap, EpollSys.start,
      fdEpollAlloc])) (by decide)
  · intro hi
    have hl := (hi.2 _ rfl).2 _ rfl |>.2 _ rfl |>.2 _ rfl
    exact absurd (hl.1 (.updates 2) (by decide)) (by decide)

end Fzsvn.Guarantees.Proxy.TableBounds
