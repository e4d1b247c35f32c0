import Mathlib.Algebra.Order.Group.Int
import Mathlib.Data.Int.Interval
import Fzsvn.Source.Socket.EpollEvent

/-!
# The kernel's registrations mirror the flags

Each call either fails and leaves the registrations, the events and the counter alone, or
writes the flags of one event and makes the registration of its descriptor the one these
flags ask for. The counter follows because the descriptors differ: a registration is made
or dropped exactly when an event becomes interesting or stops being so.
-/
namespace Fzsvn.Guarantees.Socket
open Source.Socket Library.MachineInt Finset
open Function (update update_of_ne update_self)
open Source.Proxy (Mask CtlOp epollIn epollOut epollErr)

variable {E F : Type}

def Active (ev : EpEvent F) : Bool := ev.isRead || ev.isWrite

/-- The registration that the flags of an event ask for. -/
def wanted (e : E) (ev : EpEvent F) : Option (Registration E) :=
  match ev.isRead, ev.isWrite with
  | false, false => none
  | true, false => some ⟨epollIn ||| epollErr, e⟩
  | false, true => some ⟨epollOut ||| epollErr, e⟩
  | true, true => some ⟨epollIn ||| epollOut ||| epollErr, e⟩

lemma wanted_isSome (e : E) (ev : EpEvent F) : (wanted e ev).isSome = Active ev := by
  unfold wanted Active
  cases ev.isRead <;> cases ev.isWrite <;> rfl

lemma wanted_bits {e : E} {ev : EpEvent F} {reg : Registration E} (ha : wanted e ev = some reg) :
    reg.events.has epollIn = ev.isRead ∧ reg.events.has epollOut = ev.isWrite ∧ reg.data = e := by
  obtain ⟨fd, isRead, isWrite, readFunc, writeFunc, errorFunc⟩ := ev
  cases isRead <;> cases isWrite <;> cases ha <;> refine ⟨?_, ?_, rfl⟩ <;> dsimp only <;> decide

lemma active_flags (ev : EpEvent F) {dir : Direction} : Active ev = (ev.flag dir || ev.flag dir.other) := by
  cases dir
  · rfl
  · exact Bool.or_comm ..

lemma active_setFlag (ev : EpEvent F) {dir : Direction} {value : Bool} :
    Active (ev.setFlag dir value) = (value || ev.flag dir.other) := by
  cases dir
  · rfl
  · exact Bool.or_comm ..

/-- The mask with which an interest is added. -/
lemma wanted_added (e : E) {ev : EpEvent F} {dir : Direction} (off : ev.flag dir = false) :
    wanted e (ev.setFlag dir true) = some ⟨if ev.flag dir.other then epollIn ||| epollOut ||| epollErr
        else dir.bit ||| epollErr, e⟩ := by
  obtain ⟨fd, isRead, isWrite, readFunc, writeFunc, errorFunc⟩ := ev
  cases dir <;> cases isRead <;> cases isWrite <;> cases off <;> rfl

/-- What is left when an interest is deleted. -/
lemma wanted_deleted (e : E) {ev : EpEvent F} {dir : Direction} (on : ev.flag dir = true) :
    wanted e (ev.setFlag dir false) =
      if ev.flag dir.other then some ⟨dir.other.bit ||| epollErr, e⟩ else none := by
  obtain ⟨fd, isRead, isWrite, readFunc, writeFunc, errorFunc⟩ := ev
  cases dir <;> cases isRead <;> cases isWrite <;> cases on <;> rfl

/-- `nfd` after the flags of one event were written. -/
def recount (nfd : Int) (before after : Bool) : Int :=
  match before, after with
  | false, true => toInt (nfd + 1)
  | true, false => toInt (nfd - 1)
  | _, _ => nfd

/-! ## What a call does -/

/-- The call failed, with or without an `epoll_ctl` that was issued. -/
def Failed (sys after : EpSys E F) : Prop := after = { sys with calls := after.calls }

/-- The `epoll_ctl` calls that were added are legal. -/
def Legal (sys after : EpSys E F) : Prop :=
  ∀ ctl ∈ after.calls, ctl ∈ sys.calls ∨ ctl.legal

lemma legal_issued {sys after : EpSys E F} {ctl : EpCtl} (hl : ctl.legal)
    (hi : after.calls = sys.calls ++ [ctl]) : Legal sys after := by
  intro other hm
  rw [hi, List.mem_append, List.mem_singleton] at hm
  rcases hm with old | rfl
  · exact .inl old
  · exact .inr hl

lemma epollCtl_cases (sys : EpSys E F) (ok : Bool) (cmd : CtlOp) (fd : Int32)
    (event : Option (Registration E)) : sys.epollCtl ok cmd fd event =
        (false, { sys with calls := sys.calls ++ [⟨cmd, fd, (sys.kernel fd).isSome⟩] }) ∨
    (sys.epollCtl ok cmd fd event =
        (true, { sys with
          calls := sys.calls ++ [⟨cmd, fd, (sys.kernel fd).isSome⟩]
          kernel := update sys.kernel fd (if cmd = .del then none else event) }) ∧
      0 ≤ fd ∧ fd ≠ sys.ctx.epfd) := by
  unfold EpSys.epollCtl
  dsimp only
  split
  · next accepted =>
    simp only [Bool.and_eq_true, decide_eq_true_eq] at accepted
    exact .inr ⟨rfl, accepted.1.2, accepted.2⟩
  · exact .inl rfl

/-- The registrations are those the flags ask for. -/
def Asked (sys : EpSys E F) : Prop := ∀ e, sys.kernel (sys.events e).fd = wanted e (sys.events e)

lemma Asked.registered {sys : EpSys E F} (ha : Asked sys) (e : E) :
    (sys.kernel (sys.events e).fd).isSome = Active (sys.events e) := by
  rw [ha e, wanted_isSome]

variable [DecidableEq E]

/-- The call wrote the flags of one event. -/
structure Rewrote (sys after : EpSys E F) (e : E) (ev : EpEvent F) : Prop where
  events : after.events = update sys.events e ev
  fd : ev.fd = (sys.events e).fd
  kernel : after.kernel = update sys.kernel ev.fd (wanted e ev)
  epfd : after.ctx.epfd = sys.ctx.epfd
  nfd : after.ctx.nfd = recount sys.ctx.nfd (Active (sys.events e)) (Active ev)
  accepted : 0 ≤ ev.fd ∧ ev.fd ≠ sys.ctx.epfd

/-- What every function answers and does. -/
def Outcome (sys : EpSys E F) (result : Int × EpSys E F) : Prop :=
  Legal sys result.2 ∧
    ((result.1 = -1 ∧ Failed sys result.2) ∨ (result.1 = 0 ∧ ∃ e ev, Rewrote sys result.2 e ev))

lemma outcome_refused (sys : EpSys E F) : Outcome sys (-1, sys) :=
  ⟨fun _ hm => .inl hm, .inl ⟨rfl, rfl⟩⟩

/-- What is written behind a successful `epoll_ctl`. -/
def written (sys : EpSys E F) (e : E) (ev : EpEvent F) (before : Bool) : EpSys E F :=
  { sys with
    ctx := { sys.ctx with nfd := recount sys.ctx.nfd before (Active ev) }
    events := update sys.events e ev }

/-- The shape all functions share: an `epoll_ctl` that is legal, and on its success flags
for which the registration is the wanted one. -/
lemma outcome_of_ctl {sys : EpSys E F} {ok : Bool} {result : Int × EpSys E F} (e : E)
    (ev : EpEvent F) (cmd : CtlOp) (event : Option (Registration E)) (fd : ev.fd = (sys.events e).fd)
    (hl : EpCtl.legal ⟨cmd, (sys.events e).fd, (sys.kernel (sys.events e).fd).isSome⟩)
    (ha : (if cmd = .del then none else event) = wanted e ev)
    (hf : ∀ next, sys.epollCtl ok cmd (sys.events e).fd event = (false, next) →
      result = (-1, next)) (hs : ∀ next, sys.epollCtl ok cmd (sys.events e).fd event = (true, next) →
      result = (0, written next e ev (Active (sys.events e)))) : Outcome sys result := by
  rcases epollCtl_cases sys ok cmd (sys.events e).fd event with hr | ⟨ht, accepted⟩
  · rw [hf _ hr]
    exact ⟨legal_issued hl rfl, .inl ⟨rfl, rfl⟩⟩
  · rw [hs _ ht]
    refine ⟨legal_issued hl rfl, .inr ⟨rfl, e, ev, rfl, fd, ?_, rfl, rfl, fd ▸ accepted⟩⟩
    rw [written, fd, ha]

variable {sys : EpSys E F}

lemma Asked.addDirection (ha : Asked sys) (dir : Direction) (e : E) (ok : Bool) :
    Outcome sys (epEventAddDirection dir sys e ok) := by
  unfold epEventAddDirection
  dsimp only
  split
  · exact outcome_refused sys
  next hi =>
    have off : (sys.events e).flag dir = false := by simpa using hi
    have active : Active (sys.events e) = (sys.events e).flag dir.other := by
      rw [active_flags _, off, Bool.false_or]
    apply outcome_of_ctl e ((sys.events e).setFlag dir true)
      (if (sys.events e).flag dir.other then .mod else .add)
    · cases dir <;> rfl
    · rw [ha.registered e, active]
      cases (sys.events e).flag dir.other <;> rfl
    · rw [wanted_added e off, if_neg (by split <;> decide)]
    · intro next hr
      rw [hr]
    · intro next ht
      rw [ht, active, written, active_setFlag]
      cases (sys.events e).flag dir.other <;> rfl

lemma Asked.delDirection (ha : Asked sys) (dir : Direction) (e : E) (ok : Bool) :
    Outcome sys (epEventDelDirection dir sys e ok) := by
  unfold epEventDelDirection
  dsimp only
  split
  · exact outcome_refused sys
  next hi =>
    have on : (sys.events e).flag dir = true := by simpa using hi
    have active : Active (sys.events e) = true := by rw [active_flags _, on, Bool.true_or]
    apply outcome_of_ctl e ((sys.events e).setFlag dir false)
      (if (sys.events e).flag dir.other then .mod else .del)
      (some ⟨if (sys.events e).flag dir.other then dir.other.bit ||| epollErr else 0#32, e⟩)
    · cases dir <;> rfl
    · rw [ha.registered e, active]
      cases (sys.events e).flag dir.other <;> rfl
    · rw [wanted_deleted e on]
      cases (sys.events e).flag dir.other <;> rfl
    · intro next hr
      rw [hr]
    · intro next ht
      rw [ht, active, written, active_setFlag]
      cases (sys.events e).flag dir.other <;> rfl

lemma Asked.delBoth (ha : Asked sys) (e : E) (ok : Bool) : Outcome sys (epEventDelBoth sys e ok) := by
  unfold epEventDelBoth
  dsimp only
  split
  · exact outcome_refused sys
  next isActive =>
    have active : Active (sys.events e) = true := by
      simpa [Active, imp_iff_not_or, or_comm] using isActive
    apply outcome_of_ctl e { sys.events e with isRead := false, isWrite := false } .del none
    · rfl
    · rw [ha.registered e]
      exact active
    · rfl
    · intro next hr
      rw [hr]
    · intro next ht
      rw [ht, active]
      rfl

/-- A call is refused, or one of three functions does its work. -/
lemma apply_cases {P : Int × EpSys E F → Prop} (call : EpCall E) (hr : P (-1, sys))
    (add : ∀ dir e, P (epEventAddDirection dir sys e call.ok))
    (del : ∀ dir e, P (epEventDelDirection dir sys e call.ok))
    (hb : ∀ e, P (epEventDelBoth sys e call.ok)) : P (call.apply sys) := by
  obtain ⟨op, _ | _, _ | e, ok⟩ := call
  · cases op <;> exact hr
  · cases op <;> exact hr
  · cases op <;> exact hr
  cases op with
  | addRead =>
    simp only [EpCall.apply, epEventAddRead]
    split
    · exact hr
    · exact add .read e
  | addWrite =>
    simp only [EpCall.apply, epEventAddWrite]
    split
    · exact hr
    · exact add .write e
  | delRead => exact del .read e
  | delWrite => exact del .write e
  | del => exact hb e

lemma Asked.apply (ha : Asked sys) (call : EpCall E) : Outcome sys (call.apply sys) :=
  apply_cases call (outcome_refused sys) (fun dir e => ha.addDirection dir e call.ok)
    (fun dir e => ha.delDirection dir e call.ok) (fun e => ha.delBoth e call.ok)

/-! ## Whole runs -/

variable [Fintype E]

/-- The state behind the mirror. Registrations are only on descriptors that the kernel can
register, so that there are fewer than `nfd` can count. -/
structure Mirrored (sys : EpSys E F) : Prop where
  distinct : Function.Injective fun e => (sys.events e).fd
  epfd : 0 ≤ sys.ctx.epfd
  asked : Asked sys
  accepted : ∀ e, Active (sys.events e) → 0 ≤ (sys.events e).fd ∧ (sys.events e).fd ≠ sys.ctx.epfd
  nfd : sys.ctx.nfd = (univ.filter fun e => Active (sys.events e)).card
  legal : ∀ ctl ∈ sys.calls, ctl.legal

omit [DecidableEq E] in
/-- The active events are fewer than an `int` can count. -/
lemma active_lt {events : E → EpEvent F} {epfd : Int32}
    (distinct : Function.Injective fun e => (events e).fd) (ho : 0 ≤ epfd)
    (ha : ∀ e, Active (events e) → 0 ≤ (events e).fd ∧ (events e).fd ≠ epfd) :
    (univ.filter fun e => Active (events e)).card < 2 ^ 31 := by
  have hr (fd : Int32) (low : 0 ≤ fd) : fd.toInt ∈ Finset.Ico (0 : Int) (2 ^ 31) := by
    rw [mem_Ico]
    exact ⟨Int32.le_iff_toInt_le.mp low, Int32.toInt_lt fd⟩
  have hi : ∀ e ∈ univ.filter fun e => Active (events e),
      (events e).fd.toInt ∈ (Finset.Ico (0 : Int) (2 ^ 31)).erase epfd.toInt := by
    intro e hm
    obtain ⟨low, other⟩ := ha e (mem_filter.mp hm).2
    exact mem_erase.mpr ⟨fun he => other (Int32.toInt_inj.mp he), hr _ low⟩
  have hd : Set.InjOn (fun e => (events e).fd.toInt) (univ.filter fun e => Active (events e)) := by
    intro e _ other _ he
    exact distinct (Int32.toInt_inj.mp he)
  calc (univ.filter fun e => Active (events e)).card
      ≤ ((Finset.Ico (0 : Int) (2 ^ 31)).erase epfd.toInt).card :=
        card_le_card_of_injOn _ hi hd
    _ < (Finset.Ico (0 : Int) (2 ^ 31)).card := card_erase_lt_of_mem (hr epfd ho)
    _ = 2 ^ 31 := by simp

/-- The count after one event was written. -/
lemma recount_active {events : E → EpEvent F} {e : E} {ev : EpEvent F}
    (hs : (univ.filter fun i => Active (update events e ev i)).card < 2 ^ 31) :
    recount (univ.filter fun i => Active (events i)).card (Active (events e)) (Active ev) =
      (univ.filter fun i => Active (update events e ev i)).card := by
  have elsewhere (i : E) (ho : i ≠ e) : update events e ev i = events i :=
    update_of_ne ho ev events
  have hh : update events e ev e = ev := update_self e ev events
  by_cases hk : Active ev = Active (events e)
  · have he : (univ.filter fun i => Active (update events e ev i)) =
        univ.filter fun i => Active (events i) := by
      apply filter_congr
      intro i _
      by_cases isE : i = e
      · rw [isE, hh, hk]
      · rw [elsewhere i isE]
    rw [he, hk]
    cases Active (events e) <;> rfl
  cases ha : Active ev with
  | true =>
    have hb : Active (events e) = false := by simpa [ha] using hk
    have hm : (univ.filter fun i => Active (update events e ev i)) =
        insert e (univ.filter fun i => Active (events i)) := by
      ext i
      by_cases isE : i = e
      · simp [isE, ha]
      · simp [isE]
    rw [hm, card_insert_of_notMem (by simp [hb])] at hs ⊢
    rw [hb, recount, toInt_small (by omega) (by omega)]
    rfl
  | false =>
    have hb : Active (events e) = true := by simpa [ha] using hk
    have hf : (univ.filter fun i => Active (events i)) =
        insert e (univ.filter fun i => Active (update events e ev i)) := by
      ext i
      by_cases isE : i = e
      · simp [isE, hb]
      · simp [isE]
    rw [hf, card_insert_of_notMem (by simp [ha])]
    rw [hb, recount, toInt_small (by omega) (by omega)]
    omega

omit [DecidableEq E] in
lemma Mirrored.failed {after : EpSys E F} (mirrored : Mirrored sys) (hf : Failed sys after)
    (legal : Legal sys after) : Mirrored after := by
  have he : ∀ ctl ∈ after.calls, ctl.legal := fun ctl hm =>
    (legal ctl hm).elim (mirrored.legal ctl) id
  rw [hf] at he ⊢
  exact { mirrored with legal := he }

lemma Mirrored.rewrote {after : EpSys E F} {e : E} {ev : EpEvent F} (mirrored : Mirrored sys)
    (hr : Rewrote sys after e ev) (hl : Legal sys after) : Mirrored after := by
  have hh : after.events e = ev := by rw [hr.events, update_self]
  have elsewhere (i : E) (other : i ≠ e) : after.events i = sys.events i := by
    rw [hr.events, update_of_ne other]
  have sameFd (i : E) : (after.events i).fd = (sys.events i).fd := by
    by_cases isE : i = e
    · rw [isE, hh, hr.fd]
    · rw [elsewhere i isE]
  have hd : Function.Injective fun i => (after.events i).fd := by
    intro i j he
    simp only [sameFd] at he
    exact mirrored.distinct he
  have epfd : 0 ≤ after.ctx.epfd := hr.epfd ▸ mirrored.epfd
  have ha (i : E) (active : Active (after.events i)) :
      0 ≤ (after.events i).fd ∧ (after.events i).fd ≠ after.ctx.epfd := by
    rw [hr.epfd]
    by_cases isE : i = e
    · rw [isE, hh]
      exact hr.accepted
    · rw [elsewhere i isE] at active ⊢
      exact mirrored.accepted i active
  constructor
  · exact hd
  · exact epfd
  · intro i
    rw [hr.kernel]
    by_cases isE : i = e
    · rw [isE, hh, update_self]
    · -- another event has another descriptor
      have ho : (sys.events i).fd ≠ ev.fd := by
        rw [hr.fd]
        exact fun he => isE (mirrored.distinct he)
      rw [elsewhere i isE, update_of_ne ho, mirrored.asked i]
  · exact ha
  · have hs := active_lt hd epfd ha
    rw [hr.events] at hs ⊢
    rw [hr.nfd, mirrored.nfd, recount_active hs]
  · exact fun ctl hm => (hl ctl hm).elim (mirrored.legal ctl) id

lemma Mirrored.apply (hm : Mirrored sys) (call : EpCall E) : Mirrored (call.apply sys).2 := by
  obtain ⟨hl, ⟨-, hf⟩ | ⟨-, e, ev, hr⟩⟩ := hm.asked.apply call
  · exact hm.failed hf hl
  · exact hm.rewrote hr hl

lemma Mirrored.run (hm : Mirrored sys) (calls : List (EpCall E)) : Mirrored (runCalls sys calls) := by
  induction calls generalizing sys with
  | nil => exact hm
  | cons call rest ih => exact ih (hm.apply call)

/-- A new context, events without interest and nothing registered. -/
def freshSys (ctx : EpCtx) (events : E → EpEvent F) : EpSys E F :=
  ⟨ctx, events, fun _ => none, []⟩

omit [DecidableEq E] in
lemma mirrored_fresh {max : Int} {mallocCtx mallocEvents : Bool} {epfd : Int32} {ctx : EpCtx}
    {events : E → EpEvent F} (hc : epEventCreate max mallocCtx epfd mallocEvents = some ctx)
    (hd : Function.Injective fun e => (events e).fd)
    (idle : ∀ e, (events e).isRead = false ∧ (events e).isWrite = false) :
    Mirrored (freshSys ctx events) := by
  have hi (e : E) : Active (events e) = false := by
    rw [Active, (idle e).1, (idle e).2]
    rfl
  have made : 0 ≤ ctx.epfd ∧ ctx.nfd = 0 := by
    unfold epEventCreate at hc
    split at hc
    · cases hc
    split at hc
    · cases hc
    split at hc
    · cases hc
    next opened =>
      split at hc
      · cases hc
      · cases hc
        exact ⟨Int32.not_lt.mp opened, rfl⟩
  constructor
  · exact hd
  · exact made.1
  · intro e
    have has := wanted_isSome e (events e)
    rw [hi e, Option.isSome_eq_false_iff, Option.isNone_iff_eq_none] at has
    exact has.symm
  · intro e ha
    rw [show Active ((freshSys ctx events).events e) = false from hi e] at ha
    cases ha
  · rw [show (freshSys ctx events).ctx.nfd = 0 from made.2]
    simp [freshSys, hi]
  · exact fun _ hm => absurd hm List.not_mem_nil

/-- What the flags of the events say about the kernel. -/
structure EventMirror (sys : EpSys E F) : Prop where
  registered : ∀ e, (sys.kernel (sys.events e).fd).isSome ↔ (sys.events e).isRead ∨ (sys.events e).isWrite
  mask : ∀ e reg, sys.kernel (sys.events e).fd = some reg → (reg.events.has epollIn ↔ (sys.events e).isRead) ∧
    (reg.events.has epollOut ↔ (sys.events e).isWrite)
  counted : sys.ctx.nfd =
    (univ.filter fun e => (sys.kernel (sys.events e).fd).isSome).card
  legal : ∀ ctl ∈ sys.calls, ctl.legal

omit [DecidableEq E] in
lemma Mirrored.mirror (hm : Mirrored sys) : EventMirror sys := by
  have hr := hm.asked.registered
  constructor
  · intro e
    rw [hr e, Active, Bool.or_eq_true]
  · intro e reg hi
    obtain ⟨reads, hw, -⟩ := wanted_bits ((hm.asked e).symm.trans hi)
    rw [reads, hw]
    exact ⟨Iff.rfl, Iff.rfl⟩
  · simp only [hr]
    exact hm.nfd
  · exact hm.legal

/-- After any calls the registrations mirror the flags, and a further call that fails
changes neither the registrations nor the events nor the count. -/
theorem runCalls_mirror {max : Int} {mallocCtx mallocEvents : Bool} {epfd : Int32} {ctx : EpCtx}
    {events : E → EpEvent F} (created : epEventCreate max mallocCtx epfd mallocEvents = some ctx)
    (distinct : Function.Injective fun e => (events e).fd)
    (idle : ∀ e, (events e).isRead = false ∧ (events e).isWrite = false) (calls : List (EpCall E)) :
    EventMirror (runCalls (freshSys ctx events) calls) ∧ ∀ call : EpCall E,
      (call.apply (runCalls (freshSys ctx events) calls)).1 = -1 →
      (call.apply (runCalls (freshSys ctx events) calls)).2.kernel =
        (runCalls (freshSys ctx events) calls).kernel ∧
      (call.apply (runCalls (freshSys ctx events) calls)).2.events =
        (runCalls (freshSys ctx events) calls).events ∧
      (call.apply (runCalls (freshSys ctx events) calls)).2.ctx.nfd =
        (runCalls (freshSys ctx events) calls).ctx.nfd := by
  have hm := (mirrored_fresh created distinct idle).run calls
  generalize runCalls (freshSys ctx events) calls = sys at hm
  refine ⟨hm.mirror, ?_⟩
  intro call ha
  obtain ⟨-, ⟨-, hf⟩ | ⟨hs, -⟩⟩ := hm.asked.apply call
  · rw [hf]
    exact ⟨rfl, rfl, rfl⟩
  · rw [hs] at ha
    cases ha

/-- Two events, one of which was added for both directions. -/
theorem runCalls_mirror_two : EventMirror (runCalls (freshSys ⟨3, 0, 10⟩
      (fun e : Bool => (⟨if e then 4 else 5, false, false, some (), some (), none⟩ : EpEvent Unit)))
      [⟨.addRead, true, some true, true⟩, ⟨.addWrite, true, some true, true⟩]) :=
  (@runCalls_mirror Bool Unit _ _ 10 true true 3 _ _ rfl (by decide) (by decide) _).1

end Fzsvn.Guarantees.Socket
