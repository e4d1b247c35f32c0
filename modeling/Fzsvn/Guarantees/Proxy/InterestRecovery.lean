import Fzsvn.Guarantees.Proxy.BatchedInterest
import Mathlib.Data.List.Induction

/-!
# Recovery of an interest update after failures

A flush empties the update array whether or not it could commit an entry. The
item keeps its mark when its `arg` is NULL or its `epoll_ctl` call fails, so a
later request finds it marked and does not queue it again. These results say
exactly when a request made after any history of failures still takes effect.
-/
namespace Fzsvn.Guarantees.Proxy.InterestRecovery
open Fzsvn.Source.Proxy BatchedInterest List Option EpollSys FdEpoll

variable {α β : Type}

/-- The histories in question: requests for valid descriptors, owners writing
`state` and `arg`, and flushes with any answers of the kernel. -/
def Allowed (maxfd : Nat) : TableOp α β → Prop
  | .add fd _ _ => 1 ≤ fd ∧ fd < maxfd
  | .own _ _ _ => True
  | .reset _ => False
  | .flush _ => True

lemma runTable_append (sys : EpollSys α β) (ops : List (TableOp α β)) (op : TableOp α β) :
    runTable sys (ops ++ [op]) = (runTable sys ops).bind op.apply := by
  induction ops generalizing sys with
  | nil => simp [runTable]
  | cons first rest ih =>
    simp only [cons_append, runTable]
    cases first.apply sys with
    | none => rfl
    | some next => exact ih next

/-! ## One entry of a flush -/

/-- What the flush does to the item of an entry it meets. -/
def flushItem (ok : Bool) (fi : FdItem α β) : FdItem α β :=
  if fi.arg = none ∨ fi.isUpdated = false then fi
  else if fi.state ≠ .ready ∨ fi.events = fi.pevents then { fi with isUpdated := false }
  else if ok then { fi with pevents := fi.events, isUpdated := false }
  else fi

variable {fd : Nat}

lemma flushOne_item {ok : Bool} (sys : EpollSys α β) (hp : fd ≠ 0) :
    (flushOne ok sys fd).fe.maps fd = flushItem ok (sys.fe.maps fd) := by
  rcases flushOne_cases ok sys fd with ⟨h, hskip⟩ | ⟨h, -, idle, hmark, hhw⟩ |
    ⟨h, -, idle, hmark, isReady, hdiff⟩
  · rw [h, flushItem, if_pos (hskip.resolve_left hp)]
  · have waits : ¬ ((sys.fe.maps fd).arg = none ∨ (sys.fe.maps fd).isUpdated = false) := by
      simp [idle, hmark]
    rw [h, flushItem, if_neg waits, if_pos hhw]
    exact setItem_maps_self _ _ _
  · have waits : ¬ ((sys.fe.maps fd).arg = none ∨ (sys.fe.maps fd).isUpdated = false) := by
      simp [idle, hmark]
    have hh : ¬ ((sys.fe.maps fd).state ≠ .ready ∨
        (sys.fe.maps fd).events = (sys.fe.maps fd).pevents) := by
      simp [isReady, hdiff]
    rw [h, flushItem, if_neg waits, if_neg hh]
    cases ok with
    | false => rfl
    | true => exact setItem_maps_self _ _ _

/-- In a duplicate-free array the answer that decides the fate of `fd` is the one
at its own index. -/
lemma flushFrom_item (ok : Nat → Bool) {queue : List Nat} (i : Nat) (sys : EpollSys α β)
    (hu : queue.Nodup) (hp : fd ≠ 0) (hq : fd ∈ queue) : (flushFrom ok i queue sys).fe.maps fd =
      flushItem (ok (i + queue.idxOf fd)) (sys.fe.maps fd) := by
  induction queue generalizing i sys with
  | nil => simp at hq
  | cons head rest ih =>
    have distinct := nodup_cons.mp hu
    rw [flushFrom]
    by_cases hx : head = fd
    · subst hx
      rw [flushFrom_maps_other ok (i + 1) _ distinct.1, flushOne_item _ hp]
      simp
    · have listed : fd ∈ rest := by simpa [Ne.symm hx] using hq
      rw [ih (i + 1) _ distinct.2 listed, flushOne_maps_other _ _ (Ne.symm hx), idxOf_cons_ne rest hx]
      congr 2
      omega

/-! ## The invariant of a history without resets -/

structure Sound (maxfd : Nat) (sys : EpollSys α β) : Prop where
  size : sys.fe.maxfd = maxfd
  shadow : ∀ fd, sys.interest fd = registration (sys.fe.maps fd).pevents
  unique : sys.fe.updates.Nodup
  marked : ∀ fd ∈ sys.fe.updates, (sys.fe.maps fd).isUpdated = true
  range : ∀ fd ∈ sys.fe.updates, 1 ≤ fd ∧ fd < maxfd

variable {sys : EpollSys α β} {maxfd : Nat}

/-- Without resets the array cannot overflow: its entries are distinct descriptors
below `maxfd`, and 0 is not among them. -/
lemma sound_room (s : Sound maxfd sys) (hb : fd < maxfd) : sys.fe.updates.length < sys.fe.maxfd := by
  have within : 0 :: sys.fe.updates ⊆ List.range maxfd := by
    intro x hx
    rcases mem_cons.mp hx with rfl | hx
    · exact mem_range.mpr (by omega)
    · exact mem_range.mpr (s.range x hx).2
  have distinct : (0 :: sys.fe.updates).Nodup :=
    nodup_cons.mpr ⟨fun h => by have := (s.range 0 h).1; omega, s.unique⟩
  have hh := distinct.length_le_of_subset within
  simp only [length_cons, length_range] at hh
  rw [s.size]
  omega

lemma sound_accepts (s : Sound maxfd sys) (hb : fd < maxfd) (events : Mask) (iocb : Option β) :
    ∃ fe, fdEpollAddEvent sys.fe fd events iocb = some (fe, 0) := by
  have unlisted : ¬ ((fd : Int) < 0) := by omega
  have hh : ¬ ((fd : Int) ≥ sys.fe.maxfd) := by
    have := s.size
    omega
  simp only [fdEpollAddEvent, unlisted, hh, if_false, Int.toNat_natCast, request,
    sound_room s hb, if_true]
  split
  · exact ⟨_, rfl⟩
  · exact ⟨_, rfl⟩

lemma sound_add {fe : FdEpoll α β} {events : Mask} {iocb : Option β} (s : Sound maxfd sys)
    (hp : 1 ≤ fd) (bound : fd < maxfd) (added : fdEpollAddEvent sys.fe fd events iocb = some (fe, 0)) :
    Sound maxfd { sys with fe := fe } := by
  obtain ⟨size, hself, hother, queued⟩ := addEvent_accepted (by rw [s.size]; exact bound) added
  refine ⟨size.trans s.size, ?_, ?_, ?_, ?_⟩
  · intro x
    by_cases hx : x = fd
    · subst hx
      simpa [hself] using s.shadow x
    · simpa [hother x hx] using s.shadow x
  · simp only [queued]
    split
    · exact s.unique
    next hh =>
      have unlisted : fd ∉ sys.fe.updates := fun h => hh (s.marked fd h)
      exact nodup_append.mpr ⟨s.unique, by simp, by
        intro a ha b hb hab
        simp only [mem_singleton] at hb
        subst hab
        subst hb
        exact unlisted ha⟩
  · intro x hx
    by_cases same : x = fd
    · subst same
      simp [hself]
    · simp only [queued] at hx
      simp only [hother x same]
      split at hx
      · exact s.marked x hx
      · exact s.marked x (by simpa [same] using hx)
  · intro x hx
    simp only [queued] at hx
    split at hx
    · exact s.range x hx
    · rcases mem_append.mp hx with h | h
      · exact s.range x h
      · simp only [mem_singleton] at h
        subst h
        exact ⟨hp, bound⟩

lemma own_item (sys : EpollSys α β) {state : FdState} (arg : Option α) {x : Nat} :
    ((sys.own fd state arg).fe.maps x).pevents = (sys.fe.maps x).pevents ∧
    ((sys.own fd state arg).fe.maps x).isUpdated = (sys.fe.maps x).isUpdated := by
  by_cases hx : x = fd
  · subst hx
    simp [own]
  · simp [own, setItem_maps_other _ _ hx]

lemma sound_own {state : FdState} (arg : Option α) (s : Sound maxfd sys) :
    Sound maxfd (sys.own fd state arg) := by
  refine ⟨s.size, ?_, s.unique, ?_, s.range⟩
  · intro x
    rw [(own_item sys arg).1]
    exact s.shadow x
  · intro x hx
    rw [(own_item sys arg).2]
    exact s.marked x hx

lemma sound_flush (ok : Nat → Bool) (s : Sound maxfd sys) : Sound maxfd (fdEpollFlushEvents ok sys) := by
  refine ⟨(flushFrom_frame ok _ 0 _).1.trans s.size, ?_, ?_, ?_, ?_⟩
  · exact flushFrom_shadow ok _ 0 { sys with calls := [] } s.shadow
  all_goals simp [fdEpollFlushEvents]

lemma sound_apply {sys next : EpollSys α β} {op : TableOp α β} (s : Sound maxfd sys)
    (ha : Allowed maxfd op) (h : op.apply sys = some next) : Sound maxfd next := by
  cases op with
  | add fd events iocb =>
    obtain ⟨fe, hh⟩ := sound_accepts s ha.2 events iocb
    simp only [TableOp.apply, hh, map_some, some.injEq] at h
    subst next
    exact sound_add s ha.1 ha.2 hh
  | own fd state arg =>
    simp only [TableOp.apply, some.injEq] at h
    subst next
    exact sound_own arg s
  | reset fd => exact ha.elim
  | flush ok =>
    simp only [TableOp.apply, some.injEq] at h
    subst next
    exact sound_flush ok s

variable {ops : List (TableOp α β)}

lemma sound_run (run : runTable (.start maxfd) ops = some sys)
    (ha : ∀ op ∈ ops, Allowed maxfd op) : Sound maxfd sys := by
  induction ops using reverseRecOn generalizing sys with
  | nil =>
    simp only [runTable, some.injEq] at run
    subst sys
    constructor <;> simp [start, fdEpollAlloc, FdItem.zero, registration]
  | append_singleton ops op ih =>
    rw [runTable_append] at run
    obtain ⟨before, hh, applied⟩ := bind_eq_some_iff.mp run
    have s := ih hh fun o ho => ha o (by simp [ho])
    exact sound_apply s (ha op (by simp)) applied

/-! ## Lost updates -/

/-- The flush gives up on a queued request: the item has no `arg`, or the request
differs from the registration and the `epoll_ctl` call for it fails. -/
def Drops (ok : Nat → Bool) (sys : EpollSys α β) (fd : Nat) : Prop :=
  fd ∈ sys.fe.updates ∧ ((sys.fe.maps fd).arg = none ∨
    ((sys.fe.maps fd).state = .ready ∧ (sys.fe.maps fd).events ≠ (sys.fe.maps fd).pevents ∧
      ok (sys.fe.updates.idxOf fd) = false))

/-- Some flush of the history gave up on a request for `fd`. -/
def Lost (maxfd : Nat) (ops : List (TableOp α β)) (fd : Nat) : Prop :=
  ∃ before ok after sys, ops = before ++ .flush ok :: after ∧
    runTable (.start maxfd) before = some sys ∧ Drops ok sys fd

/-- Marked, but in no update array: no request can queue it any more. -/
def Stuck (sys : EpollSys α β) (fd : Nat) : Prop :=
  (sys.fe.maps fd).isUpdated = true ∧ fd ∉ sys.fe.updates

lemma lost_append_other {op : TableOp α β} (hn : ∀ ok, op ≠ .flush ok) :
    Lost maxfd (ops ++ [op]) fd ↔ Lost maxfd ops fd := by
  constructor
  · rintro ⟨before, ok, after, sys, hsplit, ran, hdrop⟩
    cases after using reverseRecOn with
    | nil =>
      have hh := (append_inj' hsplit rfl).2
      simp only [List.cons.injEq, and_true] at hh
      exact absurd hh (hn ok)
    | append_singleton init last =>
      rw [← cons_append, ← append_assoc] at hsplit
      exact ⟨before, ok, init, sys, (append_inj' hsplit rfl).1, ran, hdrop⟩
  · rintro ⟨before, ok, after, sys, rfl, ran, hdrop⟩
    exact ⟨before, ok, after ++ [op], sys, by simp, ran, hdrop⟩

lemma lost_append_flush {ok : Nat → Bool} (run : runTable (.start maxfd) ops = some sys) :
    Lost maxfd (ops ++ [.flush ok]) fd ↔ Lost maxfd ops fd ∨ Drops ok sys fd := by
  constructor
  · rintro ⟨before, ok', after, sys', hsplit, ran, hh⟩
    cases after using reverseRecOn with
    | nil =>
      obtain ⟨hho, hlast⟩ := append_inj' hsplit rfl
      simp only [List.cons.injEq, TableOp.flush.injEq, and_true] at hlast
      subst ok'
      subst before
      rw [run, some.injEq] at ran
      subst sys'
      exact .inr hh
    | append_singleton init last =>
      rw [← cons_append, ← append_assoc] at hsplit
      exact .inl ⟨before, ok', init, sys', (append_inj' hsplit rfl).1, ran, hh⟩
  · rintro (⟨before, ok', after, sys', rfl, ran, hh⟩ | hh)
    · exact ⟨before, ok', after ++ [.flush ok], sys', by simp, ran, hh⟩
    · exact ⟨ops, ok, [], sys, rfl, run, hh⟩

lemma stuck_add {fe : FdEpoll α β} {fd x : Nat} {events : Mask} {iocb : Option β}
    (s : Sound maxfd sys) (hb : fd < maxfd)
    (ha : fdEpollAddEvent sys.fe fd events iocb = some (fe, 0)) :
    Stuck { sys with fe := fe } x ↔ Stuck sys x := by
  obtain ⟨-, hself, hother, queued⟩ := addEvent_accepted (by rw [s.size]; exact hb) ha
  by_cases hx : x = fd
  · subst hx
    by_cases hh : (sys.fe.maps x).isUpdated = true
    · simp [Stuck, hself, queued, hh]
    · simp [Stuck, queued, hh]
  · by_cases hh : (sys.fe.maps fd).isUpdated = true
    · simp [Stuck, hother x hx, queued, hh]
    · simp [Stuck, hother x hx, queued, hh, hx]

lemma stuck_own (sys : EpollSys α β) {state : FdState} (arg : Option α) {x : Nat} :
    Stuck (sys.own fd state arg) x ↔ Stuck sys x := by
  simp only [Stuck, (own_item sys arg).2]
  exact Iff.rfl

lemma stuck_flush (s : Sound maxfd sys) {ok : Nat → Bool} :
    Stuck (fdEpollFlushEvents ok sys) fd ↔ Stuck sys fd ∨ Drops ok sys fd := by
  have hh : Stuck (fdEpollFlushEvents ok sys) fd ↔
      ((flushFrom ok 0 sys.fe.updates { sys with calls := [] }).fe.maps fd).isUpdated = true := by
    simp [Stuck, fdEpollFlushEvents]
  rw [hh]
  by_cases listed : fd ∈ sys.fe.updates
  · have nonzero : fd ≠ 0 := by have := (s.range fd listed).1; omega
    have hm := s.marked fd listed
    rw [flushFrom_item ok 0 _ s.unique nonzero listed, Nat.zero_add]
    simp only [Stuck, Drops, listed, not_true_eq_false, and_false, false_or, true_and, flushItem, hm]
    by_cases idle : (sys.fe.maps fd).arg = none
    · simp [idle, hm]
    · by_cases isReady : (sys.fe.maps fd).state = .ready
      · by_cases unchanged : (sys.fe.maps fd).events = (sys.fe.maps fd).pevents
        · simp [idle, isReady, unchanged]
        · cases hok : ok (sys.fe.updates.idxOf fd) <;> simp [idle, isReady, unchanged, hm]
      · simp [idle, isReady]
  · rw [flushFrom_maps_other ok 0 _ listed]
    simp [Stuck, Drops, listed]

/-- The only way to lose a descriptor is a flush that gives up on it, and it is
never recovered. -/
lemma stuck_iff_lost (run : runTable (.start maxfd) ops = some sys)
    (ha : ∀ op ∈ ops, Allowed maxfd op) (fd : Nat) : Stuck sys fd ↔ Lost maxfd ops fd := by
  induction ops using reverseRecOn generalizing sys with
  | nil =>
    simp only [runTable, some.injEq] at run
    subst sys
    simp [Stuck, Lost, start, fdEpollAlloc, FdItem.zero]
  | append_singleton ops op ih =>
    rw [runTable_append] at run
    obtain ⟨before, hbefore, applied⟩ := bind_eq_some_iff.mp run
    have hh : ∀ o ∈ ops, Allowed maxfd o := fun o ho => ha o (by simp [ho])
    have s := sound_run hbefore hh
    have hprev := ih hbefore hh
    have hlast := ha op (by simp)
    cases op with
    | add x events iocb =>
      obtain ⟨fe, accepted⟩ := sound_accepts s hlast.2 events iocb
      simp only [TableOp.apply, accepted, map_some, some.injEq] at applied
      subst sys
      rw [stuck_add s hlast.2 accepted, lost_append_other (by simp)]
      exact hprev
    | own x state arg =>
      simp only [TableOp.apply, some.injEq] at applied
      subst sys
      rw [stuck_own, lost_append_other (by simp)]
      exact hprev
    | reset x => exact hlast.elim
    | flush ok =>
      simp only [TableOp.apply, some.injEq] at applied
      subst sys
      rw [stuck_flush s, lost_append_flush hbefore, hprev]

/-- A request for `fd` followed by a flush leaves the kernel with these events. -/
def TakesEffect (sys : EpollSys α β) (fd : Nat) (events : Mask) (iocb : Option β) (ok : Nat → Bool) : Prop :=
  ∃ fe, fdEpollAddEvent sys.fe fd events iocb = some (fe, 0) ∧
    (fdEpollFlushEvents ok { sys with fe := fe }).interest fd = registration events

/-- After any history, a request for a usable descriptor whose `epoll_ctl` call
succeeds takes effect exactly when no earlier flush gave up on the descriptor, or
the kernel happens to have these events already. -/
theorem takesEffect_iff_not_lost {maxfd : Nat} {ops : List (TableOp α β)} {sys : EpollSys α β}
    (run : runTable (.start maxfd) ops = some sys) (allowed : ∀ op ∈ ops, Allowed maxfd op)
    {fd : Nat} (positive : 1 ≤ fd) (bound : fd < maxfd)
    (ready : (sys.fe.maps fd).state = .ready) (hasArg : (sys.fe.maps fd).arg ≠ none)
    (events : Mask) (iocb : Option β) (ok : Nat → Bool)
    (succeeds : ∀ fe, fdEpollAddEvent sys.fe fd events iocb = some (fe, 0) →
      ∀ i, fe.updates[i]? = some fd → ok i = true) : TakesEffect sys fd events iocb ok ↔
      ¬ Lost maxfd ops fd ∨ sys.interest fd = registration events := by
  have s := sound_run run allowed
  obtain ⟨fe, hh⟩ := sound_accepts s bound events iocb
  have s' := sound_add s positive bound hh
  obtain ⟨-, hself, -, hupd⟩ := addEvent_accepted (by rw [s.size]; exact bound) hh
  have hunique : TakesEffect sys fd events iocb ok ↔
      (fdEpollFlushEvents ok { sys with fe := fe }).interest fd = registration events := by
    simp [TakesEffect, hh]
  rw [hunique, (sound_flush ok s').shadow fd, ← stuck_iff_lost run allowed fd]
  change registration ((flushFrom ok 0 fe.updates { sys with fe := fe, calls := [] }).fe.maps
    fd).pevents = _ ↔ _
  by_cases listed : fd ∈ fe.updates
  · -- queued: the loop meets the item once and commits it or finds it current
    have unlisted : ¬ Stuck sys fd := by
      rw [← stuck_add s bound hh]
      exact fun h => h.2 listed
    have hok : ok (fe.updates.idxOf fd) = true :=
      succeeds fe hh _ (List.getElem?_eq_some_iff.mpr ⟨idxOf_lt_length_of_mem listed, getElem_idxOf _⟩)
    rw [flushFrom_item ok 0 _ s'.unique (by omega) listed, Nat.zero_add, hok]
    simp only [hself, flushItem, ready]
    by_cases hhc : events = (sys.fe.maps fd).pevents
    · simp [hasArg, hhc, unlisted]
    · simp [hasArg, hhc, unlisted]
  · have hstuck : Stuck sys fd := by
      rw [← stuck_add s bound hh]
      exact ⟨by simp [hself], listed⟩
    rw [flushFrom_maps_other ok 0 _ listed]
    simp only [hself, hstuck, not_true_eq_false, false_or, s.shadow fd]

/-- One transient failure of `epoll_ctl` for a client descriptor. -/
def failedOnce : List (TableOp Nat Nat) :=
  [.own 5 .ready (some 1), .add 5 fdIn (some 7), .flush fun _ => false]

/-- A descriptor that no flush has given up on. -/
def requestedOnce : List (TableOp Nat Nat) :=
  [.own 5 .ready (some 1), .add 5 fdIn (some 7)]

theorem takesEffect_requestedOnce : ∃ sys, runTable (.start 8) requestedOnce = some sys ∧
      TakesEffect sys 5 fdOut (some 8) fun _ => true := by
  have ha : ∀ op ∈ requestedOnce, Allowed 8 op := by simp [requestedOnce, Allowed]
  have run : runTable (.start 8) requestedOnce = some _ := rfl
  refine ⟨_, run, (takesEffect_iff_not_lost run ha (by decide) (by decide) rfl (by decide)
    fdOut (some 8) _ (fun _ _ _ _ => rfl)).mpr (.inl ?_)⟩
  rw [← stuck_iff_lost run ha]
  exact fun h => h.2 (by decide)

/-- After one failed call the descriptor is usable, its next request is accepted,
the kernel would take it, and yet nothing is registered. -/
theorem request_lost_after_failure :
    ∃ sys, runTable (.start 8) failedOnce = some sys ∧ (∀ op ∈ failedOnce, Allowed 8 op) ∧
      (sys.fe.maps 5).state = .ready ∧ (sys.fe.maps 5).arg ≠ none ∧
      ¬ TakesEffect sys 5 fdIn (some 7) fun _ => true := by
  refine ⟨_, rfl, by simp [failedOnce, Allowed], by decide, by decide, ?_⟩
  rintro ⟨fe, hh, hhi⟩
  injection hh with h
  injection h with h
  subst h
  revert hhi
  decide

end Fzsvn.Guarantees.Proxy.InterestRecovery
