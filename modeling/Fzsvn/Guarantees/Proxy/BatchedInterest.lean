import Fzsvn.Source.Proxy.FdEpoll

/-!
# The update array refines direct registration

The abstract component is a map from descriptors to the events their owner last
asked for. The table of `fd_epoll.c` defers the registration: a request marks the
item, queues the descriptor once, and the flush compares the request with the
shadow `pevents` of what the kernel has. `Mirrors` relates the two. It survives
resets of descriptors that are still queued, which may be queued a second time.
-/
namespace Fzsvn.Guarantees.Proxy.BatchedInterest
open Fzsvn.Source.Proxy Function FdEpoll EpollSys

variable {α β : Type}

/-- The abstract component: what each owner last asked for since its last reset. -/
def wantedAfter (wanted : Nat → Option Mask) : TableOp α β → Nat → Option Mask
  | .add fd events _ => update wanted fd (some events)
  | .own _ _ _ => wanted
  | .reset fd => update wanted fd none
  | .flush _ => wanted

def wanted (ops : List (TableOp α β)) : Nat → Option Mask :=
  ops.foldl wantedAfter fun _ => none

/-- The registration an interest mask stands for: none at all when it is 0. -/
def registration (events : Mask) : Option Mask :=
  if events = 0#32 then none else some events

variable {events : Mask}

lemma registration_eq_none : registration events = none ↔ events = 0#32 := by
  simp [registration]

/-- Every descriptor requested since its last reset is usable by the flush. -/
def ReadyToFlush (want : Nat → Option Mask) (sys : EpollSys α β) : Prop :=
  ∀ fd, want fd ≠ none → (sys.fe.maps fd).state = .ready ∧ (sys.fe.maps fd).arg ≠ none

/-- The runs of the table: requests for descriptors `1 ≤ fd < maxfd` that do not
overflow the update array, owners writing and resetting items, and flushes whose
`epoll_ctl` calls all succeed. -/
inductive TableRun (maxfd : Nat) : List (TableOp α β) → EpollSys α β → Prop where
  | start : TableRun maxfd [] (.start maxfd)
  | add {ops : List (TableOp α β)} {sys : EpollSys α β} {fe : FdEpoll α β} (fd : Nat)
      (events : Mask) (iocb : Option β) (run : TableRun maxfd ops sys)
      (positive : 1 ≤ fd) (bound : fd < maxfd)
      (added : fdEpollAddEvent sys.fe fd events iocb = some (fe, 0)) :
      TableRun maxfd (ops ++ [.add fd events iocb]) { sys with fe := fe }
  | own {ops : List (TableOp α β)} {sys : EpollSys α β} (fd : Nat) (state : FdState)
      (arg : Option α) (run : TableRun maxfd ops sys) :
      TableRun maxfd (ops ++ [.own fd state arg]) (sys.own fd state arg)
  | reset {ops : List (TableOp α β)} {sys : EpollSys α β} (fd : Nat)
      (run : TableRun maxfd ops sys) :
      TableRun maxfd (ops ++ [.reset fd]) (sys.reset fd)
  | flush {ops : List (TableOp α β)} {sys : EpollSys α β} (ok : Nat → Bool)
      (run : TableRun maxfd ops sys) (ready : ReadyToFlush (wanted ops) sys)
      (succeeds : ∀ i, ok i = true) :
      TableRun maxfd (ops ++ [.flush ok]) (fdEpollFlushEvents ok sys)

/-- The simulation relation. A marked item is queued, an unmarked one is settled,
and the shadow is the kernel's registration. -/
structure Mirrors (want : Nat → Option Mask) (sys : EpollSys α β) : Prop where
  shadow : ∀ fd, sys.interest fd = registration (sys.fe.maps fd).pevents
  queued : ∀ fd, (sys.fe.maps fd).isUpdated = true → fd ∈ sys.fe.updates
  positive : ∀ fd ∈ sys.fe.updates, fd ≠ 0
  requested : ∀ fd events, want fd = some events → (sys.fe.maps fd).events = events
  untouched : ∀ fd, want fd = none →
    (sys.fe.maps fd).events = 0#32 ∧ (sys.fe.maps fd).isUpdated = false
  settled : ∀ fd, (sys.fe.maps fd).isUpdated = false → (sys.fe.maps fd).pevents = (sys.fe.maps fd).events

lemma addEvent_accepted {fe after : FdEpoll α β} {fd : Nat} {iocb : Option β}
    (hb : fd < fe.maxfd) (h : fdEpollAddEvent fe fd events iocb = some (after, 0)) :
    after.maxfd = fe.maxfd ∧
    after.maps fd = { fe.maps fd with events := events, iocb := iocb, isUpdated := true } ∧
    (∀ other, other ≠ fd → after.maps other = fe.maps other) ∧
    after.updates = if (fe.maps fd).isUpdated then fe.updates else fe.updates ++ [fd] := by
  have unlisted : ¬ ((fd : Int) < 0) := by omega
  have hh : ¬ ((fd : Int) ≥ fe.maxfd) := by omega
  simp only [fdEpollAddEvent, unlisted, hh, if_false, Int.toNat_natCast, Option.map_eq_some_iff,
    Prod.mk.injEq, and_true] at h
  obtain ⟨_, ha, rfl⟩ := h
  exact request_effect ha

variable {want : Nat → Option Mask} {sys sys' : EpollSys α β} {fd : Nat}

/-- Only the item of one descriptor is touched, and it is in order. -/
lemma Mirrors.update (m : Mirrors want sys) {request : Option Mask}
    (hm : ∀ x, x ≠ fd → sys'.fe.maps x = sys.fe.maps x)
    (hi : ∀ x, x ≠ fd → sys'.interest x = sys.interest x)
    (shadow : sys'.interest fd = registration (sys'.fe.maps fd).pevents)
    (hk : ∀ x ∈ sys.fe.updates, x ∈ sys'.fe.updates)
    (hq : (sys'.fe.maps fd).isUpdated = true → fd ∈ sys'.fe.updates)
    (hp : ∀ x ∈ sys'.fe.updates, x ≠ 0)
    (hr : ∀ events, request = some events → (sys'.fe.maps fd).events = events)
    (hu : request = none → (sys'.fe.maps fd).events = 0#32 ∧ (sys'.fe.maps fd).isUpdated = false)
    (hs : (sys'.fe.maps fd).isUpdated = false →
      (sys'.fe.maps fd).pevents = (sys'.fe.maps fd).events) : Mirrors (update want fd request) sys' := by
  refine ⟨fun x => ?_, fun x => ?_, hp, fun x => ?_, fun x => ?_, fun x => ?_⟩
  all_goals by_cases hx : x = fd
  · exact hx ▸ shadow
  · rw [hm x hx, hi x hx]
    exact m.shadow x
  · exact hx ▸ hq
  · rw [hm x hx]
    exact fun mark => hk x (m.queued x mark)
  · rw [hx, update_self]
    exact hr
  · rw [update_of_ne hx, hm x hx]
    exact m.requested x
  · rw [hx, update_self]
    exact hu
  · rw [update_of_ne hx, hm x hx]
    exact m.untouched x
  · exact hx ▸ hs
  · rw [hm x hx]
    exact m.settled x

lemma mirrors_add {fe : FdEpoll α β} {iocb : Option β} (m : Mirrors want sys)
    (hp : 1 ≤ fd) (hb : fd < sys.fe.maxfd)
    (ha : fdEpollAddEvent sys.fe fd events iocb = some (fe, 0)) :
    Mirrors (update want fd (some events)) { sys with fe := fe } := by
  obtain ⟨-, hself, hh, queued⟩ := addEvent_accepted hb ha
  refine m.update hh (fun _ _ => rfl) ?_ ?_ ?_ ?_ ?_ (by simp) ?_
  · simpa [hself] using m.shadow fd
  · intro x hx
    simp only [queued]
    split
    · exact hx
    · exact List.mem_append_left _ hx
  · intro _
    simp only [queued]
    split
    · next h => exact m.queued fd h
    · simp
  · intro x hx
    simp only [queued] at hx
    split at hx
    · exact m.positive x hx
    · rcases List.mem_append.mp hx with h | h
      · exact m.positive x h
      · have := List.mem_singleton.mp h
        omega
  · simp [hself]
  · simp [hself]

lemma mirrors_own {state : FdState} (arg : Option α) (m : Mirrors want sys) :
    Mirrors want (sys.own fd state arg) := by
  rw [← update_eq_self fd want]
  refine m.update (fun x hx => setItem_maps_other _ _ hx) (fun _ _ => rfl) ?_
    (fun _ => id) ?_ m.positive ?_ ?_ ?_
  all_goals simp only [own, setItem_maps_self]
  · exact m.shadow fd
  · exact m.queued fd
  · exact m.requested fd
  · exact m.untouched fd
  · exact m.settled fd

/-- A reset leaves the descriptor in the update array, but unmarked, so the flush
that meets the stale entry skips it. -/
lemma mirrors_reset (m : Mirrors want sys) : Mirrors (update want fd none) (sys.reset fd) := by
  refine m.update (fun x hx => setItem_maps_other _ _ hx)
    (fun x hx => update_of_ne hx _ _) ?_ (fun _ => id) ?_ m.positive (by simp) ?_ ?_
  all_goals simp [reset, registration, FdItem.zero]

/-! ## The flush -/

/-- What a successful iteration does to the item it meets. -/
def settle (fi : FdItem α β) : FdItem α β :=
  if fi.isUpdated then { fi with pevents := fi.events, isUpdated := false } else fi

/-- The item is one the flush will not refuse. -/
def Usable (fi : FdItem α β) : Prop :=
  fi.isUpdated = true → fi.state = .ready ∧ fi.arg ≠ none

lemma flushOne_settles (sys : EpollSys α β) {fd : Nat} (hp : fd ≠ 0)
    (hu : Usable (sys.fe.maps fd)) : (flushOne true sys fd).fe.maps fd = settle (sys.fe.maps fd) := by
  rcases flushOne_cases true sys fd with ⟨h, hskip⟩ | ⟨h, -, -, hmark, hhw⟩ | ⟨h, -, -, hmark, -, -⟩
  · rw [h]
    rcases hskip with h0 | hnone | hmark
    · exact absurd h0 hp
    · have hno : ¬ (sys.fe.maps fd).isUpdated = true := fun hm => (hu hm).2 hnone
      simp [settle, hno]
    · simp [settle, hmark]
  · rw [h]
    have hh : (sys.fe.maps fd).events = (sys.fe.maps fd).pevents := by
      rcases hhw with isReady | hh
      · exact absurd (hu hmark).1 isReady
      · exact hh
    simp [settle, hmark, hh]
  · rw [h]
    simp [commit, settle, hmark]

/-- `pevents` is the kernel's registration. -/
abbrev Shadowed (sys : EpollSys α β) : Prop := ∀ x, sys.interest x = registration (sys.fe.maps x).pevents

/-- It stays so through one iteration, whatever the answer of `epoll_ctl` is. -/
lemma flushOne_shadow (ok : Bool) (sys : EpollSys α β) (fd : Nat) (hs : Shadowed sys) :
    Shadowed (flushOne ok sys fd) := by
  intro x
  by_cases hx : x = fd
  · subst hx
    rcases flushOne_cases ok sys x with ⟨h, -⟩ | ⟨h, -⟩ | ⟨h, -, -, -, -, hh⟩
    · rw [h]
      exact hs x
    · rw [h]
      simpa using hs x
    · rw [h]
      cases ok with
      | false => simpa [commit] using hs x
      | true =>
        simp only [commit, if_true, epollCtl, update_self, setItem_maps_self, ctlOp]
        by_cases hp : (sys.fe.maps x).pevents = 0#32
        · have he : (sys.fe.maps x).events ≠ 0#32 := fun he => hh (he.trans hp.symm)
          simp [hp, registration, he]
        · by_cases he : (sys.fe.maps x).events = 0#32 <;> simp [hp, he, registration]
  · rw [flushOne_interest_other ok sys hx, flushOne_maps_other ok sys hx]
    exact hs x

lemma flushFrom_shadow (ok : Nat → Bool) (queue : List Nat) (i : Nat) (sys : EpollSys α β)
    (hs : Shadowed sys) : Shadowed (flushFrom ok i queue sys) := by
  induction queue generalizing i sys with
  | nil => exact hs
  | cons fd rest ih => exact ih (i + 1) _ (flushOne_shadow (ok i) sys fd hs)

/-- After the loop every queued descriptor is settled. The second occurrence of a
descriptor finds it settled and changes nothing. -/
lemma flushFrom_settles (ok : Nat → Bool) {queue : List Nat} (i : Nat) (sys : EpollSys α β)
    (hs : ∀ i, ok i = true) (hp : ∀ fd ∈ queue, fd ≠ 0)
    (hu : ∀ fd, Usable (sys.fe.maps fd)) {x : Nat} (hq : x ∈ queue) :
    (flushFrom ok i queue sys).fe.maps x = settle (sys.fe.maps x) := by
  induction queue generalizing i sys with
  | nil => simp at hq
  | cons fd rest ih =>
    have hh := flushOne_settles sys (hp fd (by simp)) (hu fd)
    have husable : ∀ y, Usable ((flushOne (ok i) sys fd).fe.maps y) := by
      intro y
      rw [hs i]
      by_cases hy : y = fd
      · subst hy
        rw [hh]
        unfold settle Usable
        split
        · intro h
          simp at h
        · next h => exact fun h' => absurd h' h
      · rw [flushOne_maps_other _ _ hy]
        exact hu y
    rw [flushFrom]
    by_cases listed : x ∈ rest
    · rw [ih (i + 1) _ (fun y hy => hp y (by simp [hy])) husable listed, hs i]
      by_cases hx : x = fd
      · subst hx
        rw [hh]
        unfold settle
        split <;> simp_all
      · rw [flushOne_maps_other _ _ hx]
    · have hx : x = fd := by simpa [listed] using hq
      subst hx
      rw [flushFrom_maps_other _ _ _ listed, hs i]
      exact hh

/-- The calls for one descriptor. -/
def callsFor (fd : Nat) (calls : List CtlCall) : List CtlCall :=
  calls.filter fun c => c.fd == fd

/-- A call for `x` is made only while `x` is marked, and then it is not any more. -/
lemma flushOne_callsFor (sys : EpollSys α β) (fd x : Nat) :
    (callsFor x (flushOne true sys fd).calls).length +
        (if ((flushOne true sys fd).fe.maps x).isUpdated then 1 else 0) ≤
      (callsFor x sys.calls).length + (if (sys.fe.maps x).isUpdated then 1 else 0) := by
  rcases flushOne_cases true sys fd with ⟨h, -⟩ | ⟨h, -⟩ | ⟨h, -, -, hh, -, -⟩
  · exact Nat.le_of_eq (by rw [h])
  · rw [h]
    by_cases hx : x = fd
    · subst hx
      simp
    · simp [setItem_maps_other _ _ hx]
  · rw [h]
    by_cases hx : x = fd
    · subst hx
      simp [commit, callsFor, hh]
    · have hne : fd ≠ x := fun e => hx e.symm
      simp [commit, callsFor, setItem_maps_other _ _ hx, hne]

lemma flushFrom_callsFor (ok : Nat → Bool) (queue : List Nat) (i : Nat) (sys : EpollSys α β)
    (hs : ∀ i, ok i = true) (x : Nat) : (callsFor x (flushFrom ok i queue sys).calls).length ≤
      (callsFor x sys.calls).length + (if (sys.fe.maps x).isUpdated then 1 else 0) := by
  induction queue generalizing i sys with
  | nil => exact Nat.le_add_right _ _
  | cons fd rest ih =>
    have hstep := flushOne_callsFor sys fd x
    have hh := ih (i + 1) (flushOne (ok i) sys fd)
    rw [hs i] at hh
    rw [flushFrom, hs i]
    exact Nat.le_trans hh hstep

/-- A call the kernel accepts: ADD for an unregistered descriptor, MOD and DEL for
a registered one. -/
def Legal (c : CtlCall) : Prop := c.op = .add ↔ c.registered = none

lemma flushOne_legal (ok : Bool) (sys : EpollSys α β) (fd : Nat) (hs : Shadowed sys)
    (hb : ∀ c ∈ sys.calls, Legal c) : ∀ c ∈ (flushOne ok sys fd).calls, Legal c := by
  rcases flushOne_cases ok sys fd with ⟨h, -⟩ | ⟨h, -⟩ | ⟨h, -⟩
  · rw [h]
    exact hb
  · rw [h]
    exact hb
  · intro c hc
    have hh : (commit ok sys fd).calls = sys.calls ++
        [⟨ctlOp (sys.fe.maps fd), fd, (sys.fe.maps fd).events, sys.interest fd⟩] := by
      unfold commit
      cases ok <;> rfl
    rw [h, hh, List.mem_append, List.mem_singleton] at hc
    rcases hc with hc | rfl
    · exact hb c hc
    · simp only [Legal, hs fd, registration_eq_none, ctlOp]
      by_cases hp : (sys.fe.maps fd).pevents = 0#32
      · simp [hp]
      · by_cases he : (sys.fe.maps fd).events = 0#32 <;> simp [hp, he]

lemma flushFrom_legal (ok : Nat → Bool) (queue : List Nat) (i : Nat) (sys : EpollSys α β)
    (hs : Shadowed sys) (hb : ∀ c ∈ sys.calls, Legal c) : ∀ c ∈ (flushFrom ok i queue sys).calls, Legal c := by
  induction queue generalizing i sys with
  | nil => exact hb
  | cons fd rest ih =>
    exact ih (i + 1) _ (flushOne_shadow (ok i) sys fd hs) (flushOne_legal (ok i) sys fd hs hb)

variable {sys : EpollSys α β} {want : Nat → Option Mask}

section

variable (m : Mirrors want sys) (hr : ReadyToFlush want sys)
include m hr

lemma mirrors_usable (fd : Nat) : Usable (sys.fe.maps fd) := by
  intro hh
  apply hr
  intro hnone
  simp [(m.untouched fd hnone).2] at hh

/-- The item of any descriptor after a flush. -/
lemma flush_item {ok : Nat → Bool} (hs : ∀ i, ok i = true) :
    (fdEpollFlushEvents ok sys).fe.maps fd = settle (sys.fe.maps fd) := by
  change (flushFrom ok 0 sys.fe.updates { sys with calls := [] }).fe.maps fd = _
  by_cases listed : fd ∈ sys.fe.updates
  · exact flushFrom_settles ok 0 { sys with calls := [] } hs m.positive
      (fun fd => mirrors_usable m hr fd) listed
  · rw [flushFrom_maps_other ok 0 _ listed]
    have hh : ¬ (sys.fe.maps fd).isUpdated = true := fun h => listed (m.queued fd h)
    simp [settle, hh]

lemma mirrors_flush {ok : Nat → Bool} (hs : ∀ i, ok i = true) :
    Mirrors want (fdEpollFlushEvents ok sys) := by
  have hevents : ∀ fd, ((fdEpollFlushEvents ok sys).fe.maps fd).events = (sys.fe.maps fd).events := by
    intro fd
    rw [flush_item m hr hs]
    unfold settle
    split <;> rfl
  have hh : ∀ fd, ((fdEpollFlushEvents ok sys).fe.maps fd).isUpdated = false := by
    intro fd
    rw [flush_item m hr hs]
    unfold settle
    split
    · rfl
    · next h => simpa using h
  constructor
  · intro fd
    exact flushFrom_shadow ok _ 0 { sys with calls := [] } m.shadow fd
  · intro fd h
    simp [hh fd] at h
  · intro fd h
    simp [fdEpollFlushEvents] at h
  · intro fd e he
    rw [hevents]
    exact m.requested fd e he
  · intro fd hnone
    exact ⟨(hevents fd).trans (m.untouched fd hnone).1, hh fd⟩
  · intro fd _
    rw [flush_item m hr hs]
    unfold settle
    split
    · rfl
    · next h => exact m.settled fd (by simpa using h)

end

lemma wanted_append (ops : List (TableOp α β)) (op : TableOp α β) :
    wanted (ops ++ [op]) = wantedAfter (wanted ops) op := by
  simp [wanted]

lemma tableRun_mirrors {maxfd : Nat} {ops : List (TableOp α β)} (run : TableRun maxfd ops sys) :
    sys.fe.maxfd = maxfd ∧ Mirrors (wanted ops) sys := by
  induction run with
  | start =>
    refine ⟨rfl, ?_⟩
    constructor <;> simp [start, fdEpollAlloc, FdItem.zero, registration, wanted]
  | add fd events iocb _ hp hb ha ih =>
    have hh := ih.1.symm ▸ hb
    rw [wanted_append]
    exact ⟨(addEvent_accepted hh ha).1.trans ih.1, mirrors_add ih.2 hp hh ha⟩
  | own fd state arg _ ih =>
    rw [wanted_append]
    exact ⟨ih.1, mirrors_own arg ih.2⟩
  | reset fd _ ih =>
    rw [wanted_append]
    exact ⟨ih.1, mirrors_reset ih.2⟩
  | flush ok _ hr hs ih =>
    rw [wanted_append]
    exact ⟨(flushFrom_frame ok _ 0 _).1.trans ih.1, mirrors_flush ih.2 hr hs⟩

/-- After a flush the kernel's interest set is the abstract component, the flush
made at most one call for each descriptor, and every call was legal. -/
theorem flush_refines_wanted {maxfd : Nat} {ops : List (TableOp α β)} {sys : EpollSys α β}
    (run : TableRun maxfd ops sys) (ready : ReadyToFlush (wanted ops) sys) (ok : Nat → Bool)
    (succeeds : ∀ i, ok i = true) : (∀ fd, (fdEpollFlushEvents ok sys).interest fd =
      (wanted ops fd).bind registration) ∧
    (∀ fd, (callsFor fd (fdEpollFlushEvents ok sys).calls).length ≤ 1) ∧
    (∀ c ∈ (fdEpollFlushEvents ok sys).calls, c.op = .add ↔ c.registered = none) := by
  have m := (tableRun_mirrors run).2
  have ha := mirrors_flush m ready succeeds
  refine ⟨fun fd => ?_, fun fd => ?_, ?_⟩
  · have hh : ((fdEpollFlushEvents ok sys).fe.maps fd).isUpdated = false := by
      by_contra h
      have hq := ha.queued fd (by simpa using h)
      simp [fdEpollFlushEvents] at hq
    rw [ha.shadow fd, ha.settled fd hh]
    cases hw : wanted ops fd with
    | none => simp [(ha.untouched fd hw).1, registration]
    | some e => simp [ha.requested fd e hw]
  · have h := flushFrom_callsFor ok sys.fe.updates 0 { sys with calls := [] } succeeds fd
    have hempty : (callsFor fd ({ sys with calls := [] } : EpollSys α β).calls).length = 0 := rfl
    rw [hempty, Nat.zero_add] at h
    refine Nat.le_trans h ?_
    split <;> omega
  · exact flushFrom_legal ok _ 0 { sys with calls := [] } m.shadow (by simp)

/-- A descriptor that is registered, reset, taken over by a new owner while it is
queued, reset again and queued a second time. -/
def requeuedOps : List (TableOp Nat Nat) :=
  [.own 5 .ready (some 1), .add 5 fdIn (some 7), .reset 5, .own 5 .ready (some 2), .add 5 fdOut (some 8)]

theorem flush_refines_wanted_requeued :
    (runTable (.start 8) (requeuedOps ++ [.flush fun _ => true])).map (·.interest 5) = some (some fdOut) := by
  have run : TableRun 8 requeuedOps _ :=
    .add 5 fdOut (some 8) (.own 5 .ready (some 2) (.reset 5
      (.add 5 fdIn (some 7) (.own 5 .ready (some 1) .start) (by decide) (by decide) rfl)))
      (by decide) (by decide) rfl
  have hr : ∀ fd, wanted requeuedOps fd ≠ none → fd = 5 := by
    intro fd hw
    by_contra hx
    simp [requeuedOps, wanted, wantedAfter, hx] at hw
  have h := (flush_refines_wanted run (fun fd hw => by
    obtain rfl := hr fd hw
    exact ⟨rfl, by simp [EpollSys.own, EpollSys.reset]⟩) (fun _ => true) (fun _ => rfl)).1 5
  exact congrArg some h

end Fzsvn.Guarantees.Proxy.BatchedInterest
