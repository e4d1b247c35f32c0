import Fzsvn.Source.Proxy.WorkerCmd
import Fzsvn.Guarantees.Datastruct.CblistRefinement
import Fzsvn.Library.Fallible

/-!
# Commands reach the worker

Threads add commands to a worker's list while the worker takes them off it. Between the
additions and the commands that were run stand, in this order, the command that is being
run, those the worker has moved to its own list, those on the shared list, and one whose
addition has the lock but has not linked it yet. The counter is an `int` and overflows when
2^31 commands wait.
-/
namespace Fzsvn.Guarantees.Proxy.CommandDelivery
open Library.CircularList Library.Fallible Source.Datastruct Source.Proxy.WorkerCmd List Function
open Datastruct.CblistRefinement Option
open Node (cmd cmdlist drained)
open State (goto)

variable {T C : Type}

/-! ## Where the commands are -/

def cmds (list : List C) : List (Node C) := list.map .cmd

lemma mem_cmds {c : C} {list : List C} : cmd c ∈ cmds list ↔ c ∈ list := by
  simp [cmds]

lemma drained_not_mem {list : List C} : drained ∉ cmds list := by
  simp [cmds]

/-- The command that is being run. -/
def current : GetPc C → List C
  | .run (.cmd c) _ => [c]
  | _ => []

/-- The command that is about to be linked. -/
def entering (owner : Option (Option T)) (adders : T → AddPc C) : List C :=
  match owner with
  | some (some t) =>
    match adders t with
    | .link c => [c]
    | _ => []
  | _ => []

/-- How many commands are linked and not counted. -/
def lag (owner : Option (Option T)) (adders : T → AddPc C) : Int :=
  match owner with
  | some (some t) =>
    match adders t with
    | .count => 1
    | _ => 0
  | _ => 0

/-- The command that a thread has to itself. -/
def holds : AddPc C → Option C
  | .lock c | .link c => some c
  | _ => none

/-- The thread has the mutex. -/
def inside : AddPc C → Bool
  | .link _ | .count | .unlock => true
  | _ => false

/-- The worker has the mutex. -/
def insideGet : GetPc C → Bool
  | .test | .join | .reset | .unlock => true
  | _ => false

/-- The worker has the mutex and has not moved the commands yet. -/
def collecting : GetPc C → Bool
  | .test | .join => true
  | _ => false

/-- The first node of the worker's own list. -/
def firstNode : List C → Node C
  | [] => .drained
  | c :: _ => .cmd c

/-- The worker's own list, as its position says. -/
def Draining (links : Links (Node C)) (rest : List C) : GetPc C → Prop
  | .out | .init => rest = []
  | .lock | .test | .join => rest = [] ∧ Ring links .drained []
  | .reset | .unlock | .first => Ring links .drained (cmds rest)
  | .loop e b => Ring links .drained (cmds rest) ∧ e = firstNode rest ∧ b = firstNode rest.tail
  | .del e b => Ring links .drained (cmds rest) ∧ rest ≠ [] ∧ e = firstNode rest ∧ b = firstNode rest.tail
  | .run e b => Ring links .drained (cmds rest) ∧ (∃ c, e = .cmd c) ∧ b = firstNode rest
  | .next b => Ring links .drained (cmds rest) ∧ b = firstNode rest

variable {links links' : Links (Node C)} {queue rest : List C}

lemma Draining.frame {pc : GetPc C} (hd : Draining links rest pc)
    (he : ∀ x ∈ drained :: cmds rest, Same links links' x) : Draining links' rest pc := by
  have hk : ∀ list, (∀ x ∈ drained :: cmds list, Same links links' x) →
      Ring links .drained (cmds list) → Ring links' .drained (cmds list) :=
    fun list he hr => ring_frame hr (fun x hm => (he x hm).1) fun x hm => (he x hm).2
  cases pc with
  | out | init => exact hd
  | lock | test | join =>
    obtain ⟨rfl, hr⟩ := hd
    exact ⟨rfl, hk [] he hr⟩
  | reset | unlock | first => exact hk rest he hd
  | loop | del | run | next => exact ⟨hk rest he hd.1, hd.2⟩

lemma ring_same (hr : Ring links .cmdlist (cmds queue))
    (he : ∀ x ∈ cmdlist :: cmds queue, Same links links' x) : Ring links' .cmdlist (cmds queue) :=
  ring_frame hr (fun x hm => (he x hm).1) fun x hm => (he x hm).2

lemma ring_firstNode (hr : Ring links .drained (cmds rest)) :
    links.n .drained = firstNode rest ∧ links.n (firstNode rest) = firstNode rest.tail := by
  have hp := hr.path
  cases rest with
  | nil => exact ⟨hp.1, hp.1⟩
  | cons c rest =>
    refine ⟨hp.1, ?_⟩
    have hl := hp.2.2
    cases rest with
    | nil => exact hl.1
    | cons d rest => exact hl.1

/-! ## The invariant -/

/-- The commands that the worker or one of the lists has. -/
def busy (pc : GetPc C) (rest queue : List C) : List C := current pc ++ (rest ++ queue)

structure Valid (s : State T C) (queue rest : List C) : Prop where
  shared : Ring s.links .cmdlist (cmds queue)
  draining : Draining s.links rest s.worker
  split : s.added = s.executed ++ (busy s.worker rest queue ++ entering s.owner s.adders)
  nodup : (busy s.worker rest queue).Nodup
  used : ∀ c ∈ busy s.worker rest queue, s.inUse c = true
  held : ∀ t c, holds (s.adders t) = some c → s.inUse c = true ∧ c ∉ busy s.worker rest queue
  apart : ∀ t u c, holds (s.adders t) = some c → holds (s.adders u) = some c → t = u
  adderOwns : ∀ t, inside (s.adders t) = true ↔ s.owner = some (some t)
  workerOwns : insideGet s.worker = true ↔ s.owner = some none
  count : s.worker ≠ .reset → s.ncmd + lag s.owner s.adders = queue.length
  reset : s.worker = .reset → queue = []
  due : s.due ≤ s.executed.length + (current s.worker).length + rest.length +
    if collecting s.worker then queue.length else 0

variable {s s' : State T C} {t : T} {c : C} {x : Node C}

/-- The two lists have no node in common. -/
lemma Valid.lists_apart (hv : Valid s queue rest) :
    List.Disjoint (drained :: cmds rest) (cmdlist :: cmds queue) := by
  intro x hm hm'
  have hd := (nodup_append'.mp (nodup_append'.mp hv.nodup).2.1).2.2
  rcases mem_cons.mp hm with rfl | hi
  · exact drained_not_mem ((mem_cons.mp hm').resolve_left nofun)
  · obtain ⟨d, hh, rfl⟩ := mem_map.mp hi
    exact hd hh (mem_cmds.mp ((mem_cons.mp hm').resolve_left nofun))

section

variable [DecidableEq T]

/-- What a thread without the mutex does is not seen. -/
lemma entering_update {owner : Option (Option T)} (adders : T → AddPc C) (pc : AddPc C)
    (ho : owner ≠ some (some t)) : entering owner (update adders t pc) = entering owner adders ∧
      lag owner (update adders t pc) = lag owner adders := by
  match owner with
  | none => exact ⟨rfl, rfl⟩
  | some none => exact ⟨rfl, rfl⟩
  | some (some u) =>
    have other : u ≠ t := by
      rintro rfl
      exact ho rfl
    simp only [entering, lag, update_of_ne other, and_self]

/-- A thread goes on to `pc`, where it has the command it had or a new one. -/
lemma holds_update (adders : T → AddPc C) {pc : AddPc C} {u : T} {d : C}
    (has : holds (update adders t pc u) = some d) :
    (u = t ∧ holds pc = some d) ∨ (u ≠ t ∧ holds (adders u) = some d) := by
  by_cases he : u = t
  · rw [he, update_self] at has
    exact .inl ⟨he, has⟩
  · rw [update_of_ne he] at has
    exact .inr ⟨he, has⟩

/-- The commands of the threads when one of them gets no new command. -/
lemma holds_of_update {pc : AddPc C} (hk : ∀ d, holds pc = some d → holds (s.adders t) = some d)
    {u : T} {d : C} (has : holds (update s.adders t pc u) = some d) : holds (s.adders u) = some d := by
  rcases holds_update s.adders has with ⟨rfl, hh⟩ | ⟨-, ht⟩
  · exact hk d hh
  · exact ht

section

variable (hv : Valid s queue rest)
include hv

/-- The mutex goes to a thread or from it. -/
lemma Valid.owns_update {owner : Option (Option T)} {pc : AddPc C}
    (hm : inside pc = true ↔ owner = some (some t))
    (ho : ∀ u ≠ t, s.owner = some (some u) ↔ owner = some (some u)) (u : T) :
    inside (update s.adders t pc u) = true ↔ owner = some (some u) := by
  by_cases he : u = t
  · rw [he, update_self]
    exact hm
  · rw [update_of_ne he]
    exact (hv.adderOwns u).trans (ho u he)

lemma Valid.getsLock (hw : s.adders t = .lock c) (hf : s.owner = none) :
    Valid ({ s with owner := some (some t), added := s.added ++ [c] }.goto t (.link c)) queue rest := by
  have hk : ∀ d, holds (AddPc.link c) = some d → holds (s.adders t) = some d := by
    rw [hw]
    exact fun _ has => has
  refine { hv with split := ?_, held := ?_, apart := ?_, adderOwns := ?_, workerOwns := ?_, count := ?_ }
  · have split := hv.split
    rw [hf] at split
    simp only [goto, entering, update_self, split, append_assoc, nil_append]
  · exact fun u d has => hv.held u d (holds_of_update hk has)
  · exact fun u v d has too => hv.apart u v d (holds_of_update hk has) (holds_of_update hk too)
  · refine hv.owns_update (iff_of_true rfl rfl) fun u other => ?_
    rw [hf]
    exact iff_of_false nofun fun he => other (some.inj (some.inj he)).symm
  · have ho := hv.workerOwns
    rw [hf] at ho
    exact iff_of_false (fun within => nomatch ho.mp within) nofun
  · intro hn
    have count := hv.count hn
    rw [hf] at count
    simpa only [goto, lag, update_self] using count

lemma Valid.counts (hp : s.adders t = .count) :
    Valid ({ s with ncmd := s.ncmd + 1 }.goto t .unlock) queue rest := by
  have ho : s.owner = some (some t) := (hv.adderOwns t).mp (hp ▸ rfl)
  have hk : ∀ d, holds (AddPc.unlock : AddPc C) = some d → holds (s.adders t) = some d := nofun
  refine { hv with split := ?_, held := ?_, apart := ?_, adderOwns := ?_, count := ?_ }
  · have split := hv.split
    rw [ho, entering, hp] at split
    simpa only [goto, ho, entering, update_self] using split
  · exact fun u d has => hv.held u d (holds_of_update hk has)
  · exact fun u v d has too => hv.apart u v d (holds_of_update hk has) (holds_of_update hk too)
  · exact hv.owns_update (iff_of_true rfl ho) fun u _ => Iff.rfl
  · intro hn
    have count := hv.count hn
    rw [ho, lag, hp] at count
    simpa only [goto, ho, lag, update_self, Int.add_zero] using count

lemma Valid.adderUnlocks (hp : s.adders t = .unlock) :
    Valid ({ s with owner := none }.goto t .out) queue rest := by
  have owns : s.owner = some (some t) := (hv.adderOwns t).mp (hp ▸ rfl)
  have hk : ∀ d, holds (AddPc.out : AddPc C) = some d → holds (s.adders t) = some d := nofun
  refine { hv with split := ?_, held := ?_, apart := ?_, adderOwns := ?_, workerOwns := ?_, count := ?_ }
  · have split := hv.split
    rw [owns, entering, hp] at split
    simpa only [goto, entering] using split
  · exact fun u d has => hv.held u d (holds_of_update hk has)
  · exact fun u v d has too => hv.apart u v d (holds_of_update hk has) (holds_of_update hk too)
  · refine hv.owns_update (iff_of_false nofun nofun) fun u other => ?_
    rw [owns]
    exact iff_of_false (fun he => other (some.inj (some.inj he)).symm) nofun
  · have ho := hv.workerOwns
    rw [owns] at ho
    exact iff_of_false (fun hw => nomatch ho.mp hw) nofun
  · intro hn
    have count := hv.count hn
    rw [owns, lag, hp] at count
    simpa only [goto, lag] using count

end

end

section

variable [DecidableEq C]

lemma Valid.start (links : Links (Node C)) : Valid (Source.Proxy.WorkerCmd.start T links) [] [] where
  shared := by simp [ring_empty, cmds, Source.Proxy.WorkerCmd.start, cblistInit]
  draining := rfl
  split := rfl
  nodup := .nil
  used := nofun
  held := nofun
  apart := nofun
  adderOwns _ := iff_of_false nofun nofun
  workerOwns := iff_of_false nofun nofun
  count _ := rfl
  reset := nofun
  due := Nat.zero_le _

variable [DecidableEq T]

namespace Valid

/-! ### The threads -/

/-- A command that is not in use is added. -/
lemma call (hv : Valid s queue rest) (out : s.adders t = .out) (free : s.inUse c = false) :
    Valid ({ s with inUse := update s.inUse c true }.goto t (.lock c)) queue rest := by
  have ho : s.owner ≠ some (some t) := by
    intro owns
    have is := (hv.adderOwns t).mpr owns
    rw [out] at is
    cases is
  obtain ⟨sameEntering, sameLag⟩ := entering_update s.adders (.lock c) ho
  have hs : ∀ d, s.inUse d = true → update s.inUse c true d = true := by
    intro d inUse
    by_cases he : d = c
    · rw [he, update_self]
    · rw [update_of_ne he, inUse]
  have hf : ∀ d, s.inUse d = true → d ≠ c := by
    rintro d inUse rfl
    rw [free] at inUse
    cases inUse
  refine { hv with split := ?_, used := ?_, held := ?_, apart := ?_, adderOwns := ?_, count := ?_ }
  · exact sameEntering ▸ hv.split
  · exact fun d hm => hs d (hv.used d hm)
  · intro u d has
    rcases holds_update s.adders has with ⟨-, ⟨⟩⟩ | ⟨-, had⟩
    · exact ⟨update_self .., fun hm => hf c (hv.used c hm) rfl⟩
    · obtain ⟨inUse, ha⟩ := hv.held u d had
      exact ⟨hs d inUse, ha⟩
  · intro u v d has too
    rcases holds_update s.adders has with ⟨rfl, ⟨⟩⟩ | ⟨-, had⟩
    · rcases holds_update s.adders too with ⟨rfl, -⟩ | ⟨-, had⟩
      · rfl
      · exact absurd rfl (hf c (hv.held v c had).1)
    · rcases holds_update s.adders too with ⟨-, ⟨⟩⟩ | ⟨-, also⟩
      · exact absurd rfl (hf c (hv.held u c had).1)
      · exact hv.apart u v d had also
  · intro u
    by_cases he : u = t
    · subst he
      exact iff_of_false (by simp [goto, inside]) ho
    · simp only [goto, update_of_ne he]
      exact hv.adderOwns u
  · exact fun hn => sameLag ▸ hv.count hn

lemma addsTail (hv : Valid s queue rest) (hp : s.adders t = .link c) :
    Valid ({ s with links := cblistAddTail s.links .cmdlist (.cmd c) }.goto t .count)
      (queue ++ [c]) rest := by
  have owns : s.owner = some (some t) := (hv.adderOwns t).mp (hp ▸ rfl)
  have notWorker : insideGet s.worker = false := by
    rw [← Bool.not_eq_true, hv.workerOwns, owns]
    nofun
  have had : holds (s.adders t) = some c := hp ▸ rfl
  obtain ⟨inUse, ha⟩ := hv.held t c had
  have new : cmd c ∉ cmdlist :: cmds queue := by
    have hn : c ∉ queue := fun hm => ha (by simp [busy, hm])
    simp [mem_cmds, hn]
  have hk : ∀ d, holds (AddPc.count : AddPc C) = some d → holds (s.adders t) = some d := nofun
  have busy_append : busy s.worker rest (queue ++ [c]) = busy s.worker rest queue ++ [c] := by
    simp only [busy, append_assoc]
  have busy_mem : ∀ d, d ∈ busy s.worker rest (queue ++ [c]) ↔ d ∈ busy s.worker rest queue ∨ d = c := by
    intro d
    rw [busy_append, mem_append, mem_singleton]
  refine { hv with
    shared := ?_, draining := ?_, split := ?_, nodup := ?_, used := ?_, held := ?_, apart := ?_
    adderOwns := ?_, count := ?_, reset := ?_, due := ?_ }
  · have hr := addTail_ring hv.shared new
    rwa [cmds, map_append]
  · apply hv.draining.frame
    intro x hm
    apply addTail_same hv.shared (fun inShared => hv.lists_apart hm inShared)
    rintro rfl
    have hi := mem_cmds.mp ((mem_cons.mp hm).resolve_left nofun)
    exact ha (by simp [busy, hi])
  · have split := hv.split
    rw [owns, entering, hp] at split
    simp only [goto, owns, entering, update_self, split, busy_append, append_nil]
  · dsimp only [goto]
    rw [busy_append, nodup_append_comm]
    exact nodup_cons.mpr ⟨ha, hv.nodup⟩
  · intro d hm
    rcases (busy_mem d).mp hm with hb | rfl
    · exact hv.used d hb
    · exact inUse
  · intro u d has
    rcases holds_update s.adders has with ⟨-, ⟨⟩⟩ | ⟨ho, also⟩
    obtain ⟨hi', ha'⟩ := hv.held u d also
    refine ⟨hi', fun hm => ?_⟩
    rcases (busy_mem d).mp hm with hb | rfl
    · exact ha' hb
    · exact ho (hv.apart u t d also had)
  · exact fun u v d has too => hv.apart u v d (holds_of_update hk has) (holds_of_update hk too)
  · exact hv.owns_update (iff_of_true rfl owns) fun u _ => Iff.rfl
  · intro notReset
    have count := hv.count notReset
    rw [owns, lag, hp] at count
    simp only [goto, owns, lag, update_self, length_append, length_singleton]
    dsimp only at count
    omega
  · intro isReset
    rw [show s.worker = .reset from isReset] at notWorker
    cases notWorker
  · apply Nat.le_trans hv.due
    apply Nat.add_le_add_left
    by_cases hg : collecting s.worker = true
    · simp [goto, hg]
    · simp [goto, hg]

end Valid

end

/-! ### The worker -/

section

variable (hv : Valid s queue rest)
include hv

/-- The worker goes on to a position where it has the same commands and the mutex as before. -/
lemma Valid.moves {pc : GetPc C} (was : s.worker ≠ .reset) (is : pc ≠ .reset)
    (hd : Draining s.links rest pc) (hr : current pc = current s.worker)
    (ho : insideGet pc = insideGet s.worker) (hc : collecting pc = collecting s.worker) :
    Valid { s with worker := pc } queue rest := by
  have he : busy pc rest queue = busy s.worker rest queue := by rw [busy, busy, hr]
  refine { hv with draining := hd, split := ?_, nodup := ?_, used := ?_, held := ?_, workerOwns := ?_
                   count := fun _ => hv.count was, reset := fun hi => absurd hi is, due := ?_ }
  · exact he ▸ hv.split
  · exact he ▸ hv.nodup
  · exact he ▸ hv.used
  · exact he ▸ hv.held
  · exact ho ▸ hv.workerOwns
  · dsimp only
    rw [hr, hc]
    exact hv.due

lemma Valid.gets (out : s.worker = .out) : Valid { s with worker := .init } queue rest := by
  have hd := hv.draining
  apply hv.moves
  all_goals rw [out] at *
  · simp
  · simp
  · exact hd
  · rfl
  · rfl
  · rfl

/-- The state with the position of the worker written out. -/
lemma Valid.at {pc : GetPc C} (hp : s.worker = pc) : Valid { s with worker := pc } queue rest :=
  hp ▸ hv

end

/-- The worker gets the mutex: what is on the shared list now is due in this round. -/
lemma Valid.locks (hv : Valid { s with worker := .lock } queue rest) (hf : s.owner = none) :
    Valid { s with owner := some none, worker := .test, due := s.added.length } queue rest := by
  obtain ⟨rfl, hr⟩ := hv.draining
  have count := hv.count
  have split := hv.split
  have ha := hv.adderOwns
  simp only [hf] at count split ha
  refine { hv with
    draining := ⟨rfl, hr⟩
    split := split
    adderOwns := fun t => (ha t).trans (iff_of_false (by simp) (by simp))
    workerOwns := iff_of_true rfl rfl
    count := fun _ => count (by simp)
    reset := by simp
    due := ?_ }
  dsimp only
  rw [split]
  simp [busy, current, collecting, entering]

/-- The counter says that no command waits. -/
lemma Valid.leaves (hv : Valid { s with worker := .test } queue rest) (none : ¬ s.ncmd > 0) :
    Valid { s with worker := .unlock } queue rest := by
  obtain ⟨rfl, hr⟩ := hv.draining
  have ho : s.owner = some .none := hv.workerOwns.mp rfl
  have count : s.ncmd + lag s.owner s.adders = queue.length := hv.count (by simp)
  have hn : queue = [] := eq_nil_of_length_eq_zero (by simp only [ho, lag] at count; omega)
  subst hn
  exact { hv with draining := hr, count := fun _ => count, reset := by simp }

lemma Valid.resets (hv : Valid { s with worker := .reset } queue rest) :
    Valid { s with ncmd := 0, worker := .unlock } queue rest := by
  have ho : s.owner = some none := hv.workerOwns.mp rfl
  have hn : queue = [] := hv.reset rfl
  subst hn
  exact { hv with
    draining := hv.draining
    count := fun _ => by simp [ho, lag]
    reset := by simp }

lemma Valid.unlocks (hv : Valid { s with worker := .unlock } queue rest) :
    Valid { s with owner := none, worker := .first } queue rest := by
  have ho : s.owner = some none := hv.workerOwns.mp rfl
  have count := hv.count
  have split := hv.split
  have ha := hv.adderOwns
  simp only [ho] at count split ha
  exact { hv with
    draining := hv.draining
    split := split
    adderOwns := fun t => (ha t).trans (iff_of_false (by simp) (by simp))
    workerOwns := iff_of_false Bool.false_ne_true (by simp)
    count := fun _ => count (by simp)
    reset := by simp }

variable {outcome : Except Fault (State T C)}

section

variable [DecidableEq C]

namespace Valid

/-- Memory that is not in use changes. -/
lemma overwrite (hv : Valid s queue rest) (hf : s.inUse c = false) (p n : Node C) :
    Valid { s with links := (s.links.setP (.cmd c) p).setN (.cmd c) n } queue rest := by
  have ha : c ∉ busy s.worker rest queue := by
    intro hm
    have inUse := hv.used c hm
    rw [hf] at inUse
    cases inUse
  have he : ∀ x, x ≠ .cmd c → Same s.links ((s.links.setP (.cmd c) p).setN (.cmd c) n) x := by
    intro x ho
    simp [Same, ho]
  refine { hv with shared := ?_, draining := ?_ }
  · have hd : ∀ x ∈ cmdlist :: cmds queue, x ≠ .cmd c := by
      rintro x hm rfl
      have hi := mem_cmds.mp ((mem_cons.mp hm).resolve_left (by simp))
      exact ha (by simp [busy, hi])
    exact ring_frame hv.shared (fun x hm => (he x (hd x hm)).1)
      fun x hm => (he x (hd x hm)).2
  · apply hv.draining.frame
    intro x hm
    apply he
    rintro rfl
    have inRest := mem_cmds.mp ((mem_cons.mp hm).resolve_left (by simp))
    exact ha (by simp [busy, inRest])

lemma init_same (hm : x ∈ cmdlist :: cmds queue) : Same links (cblistInit links .drained) x := by
  have ho : x ≠ .drained := by
    rintro rfl
    exact drained_not_mem ((mem_cons.mp hm).resolve_left nofun)
  simp [Same, cblistInit, ho]

/-- The worker's own list is made empty. -/
lemma inits (hv : Valid { s with worker := .init } queue rest) :
    Valid { s with links := cblistInit s.links .drained, worker := .lock } queue rest := by
  have hn : rest = [] := hv.draining
  subst hn
  have hr : Ring (cblistInit s.links .drained) .drained [] := by simp [ring_empty, cblistInit]
  exact { hv with
    shared := ring_same hv.shared fun x => init_same
    draining := ⟨rfl, hr⟩
    count := fun _ => hv.count (by simp)
    reset := by simp }

/-- All commands go to the worker's own list. -/
lemma joins (hv : Valid { s with worker := .join } queue rest) :
    Valid { s with links := cblistJoin s.links .drained .cmdlist, worker := .reset } [] queue := by
  obtain ⟨rfl, hr⟩ := hv.draining
  obtain ⟨hj, emptied⟩ := join_ring hr hv.shared hv.lists_apart
  have he : busy (.reset : GetPc C) queue [] = busy .join [] queue := by simp [busy, current]
  refine { hv with
    shared := emptied
    draining := hj
    split := he ▸ hv.split
    nodup := he ▸ hv.nodup
    used := he ▸ hv.used
    held := he ▸ hv.held
    count := fun hn => absurd rfl hn
    reset := fun _ => rfl
    due := ?_ }
  simpa [current, collecting] using hv.due

/-- The first command leaves the worker's own list and is run next. -/
lemma unlinks {e b : Node C} (hv : Valid { s with worker := .del e b } queue (c :: rest)) :
    Valid { s with links := cblistDel s.links e, worker := .run e b } queue rest := by
  obtain ⟨hr, -, rfl, rfl⟩ := hv.draining
  have hr' : Ring s.links .drained ([] ++ .cmd c :: cmds rest) := hr
  refine { hv with
    shared := ring_same hv.shared fun x hm =>
      del_same hr (fun hi => hv.lists_apart hi hm) (mem_cmds.mpr mem_cons_self)
    draining := ⟨del_ring hr', ⟨c, rfl⟩, rfl⟩
    count := fun _ => hv.count (by simp)
    reset := by simp
    due := ?_ }
  have hb : s.due ≤ s.executed.length + 0 + (rest.length + 1) + 0 := hv.due
  change s.due ≤ s.executed.length + 1 + rest.length + 0
  omega

/-- The command is run and its memory freed. -/
lemma executes {b : Node C} (hv : Valid { s with worker := .run (.cmd c) b } queue rest) :
    Valid { s with inUse := update s.inUse c false, executed := s.executed ++ [c], worker := .next b }
      queue rest := by
  obtain ⟨hr, -, rfl⟩ := hv.draining
  have nodup := nodup_cons.mp hv.nodup
  have hu : ∀ d ≠ c, update s.inUse c false d = s.inUse d :=
    fun d ho => update_of_ne ho _ _
  refine { hv with
    draining := ⟨hr, rfl⟩
    split := hv.split.trans (by simp [busy, current])
    nodup := nodup.2
    used := ?_
    held := ?_
    count := fun _ => hv.count (by simp)
    reset := by simp
    due := ?_ }
  · intro d hm
    exact (hu d (ne_of_mem_of_not_mem hm nodup.1)).trans (hv.used d (mem_cons_of_mem c hm))
  · intro t d has
    obtain ⟨used, ha⟩ := hv.held t d has
    obtain ⟨ho, hn⟩ := not_or.mp (mt mem_cons.mpr ha)
    exact ⟨(hu d ho).trans used, hn⟩
  · have hb : s.due ≤ s.executed.length + 1 + rest.length + 0 := hv.due
    change s.due ≤ (s.executed ++ [c]).length + 0 + rest.length + 0
    rw [length_append]
    exact hb

/-- One step of the worker. -/
lemma runWorker (hv : Valid s queue rest) (ran : s.runWorker = some outcome) :
    Yields outcome fun s' => ∃ queue' rest', Valid s' queue' rest' := by
  unfold State.runWorker at ran
  have hd := hv.draining
  cases hp : s.worker <;> rw [hp] at ran hd
  case out =>
    cases ran
  case init =>
    cases ran
    exact (yields_ok _).mpr ⟨queue, rest, (hv.at hp).inits⟩
  case lock =>
    cases ho : s.owner with
    | some _ =>
      rw [ho] at ran
      cases ran
    | none =>
      rw [ho] at ran
      cases ran
      exact (yields_ok _).mpr ⟨queue, rest, (hv.at hp).locks ho⟩
  case test =>
    cases ran
    refine (yields_ok _).mpr ⟨queue, rest, ?_⟩
    split_ifs with some
    · exact hv.moves (by simp [hp]) (by simp) hd (hp ▸ rfl) (hp ▸ rfl) (hp ▸ rfl)
    · exact (hv.at hp).leaves some
  case join =>
    cases ran
    exact (yields_ok _).mpr ⟨[], queue, (hv.at hp).joins⟩
  case reset =>
    cases ran
    exact (yields_ok _).mpr ⟨queue, rest, (hv.at hp).resets⟩
  case unlock =>
    cases ran
    exact (yields_ok _).mpr ⟨queue, rest, (hv.at hp).unlocks⟩
  case first =>
    cases ran
    obtain ⟨hh, hs⟩ := ring_firstNode hd
    exact (yields_ok _).mpr ⟨queue, rest, hv.moves (by simp [hp]) (by simp) ⟨hd, hh, hh ▸ hs⟩
      (hp ▸ rfl) (hp ▸ rfl) (hp ▸ rfl)⟩
  case loop e b =>
    cases ran
    obtain ⟨hr, rfl, rfl⟩ := hd
    refine (yields_ok _).mpr ⟨queue, rest, ?_⟩
    cases rest with
    | nil =>
      rw [if_pos (show firstNode ([] : List C) = .drained from rfl)]
      exact hv.moves (by simp [hp]) (by simp) rfl (hp ▸ rfl) (hp ▸ rfl) (hp ▸ rfl)
    | cons c rest =>
      rw [if_neg (by simp [firstNode])]
      exact hv.moves (by simp [hp]) (by simp) ⟨hr, cons_ne_nil _ _, rfl, rfl⟩ (hp ▸ rfl) (hp ▸ rfl)
        (hp ▸ rfl)
  case del e b =>
    cases ran
    obtain ⟨-, hn, -⟩ := hd
    obtain ⟨c, rest, rfl⟩ := exists_cons_of_ne_nil hn
    exact (yields_ok _).mpr ⟨queue, rest, (hv.at hp).unlinks⟩
  case run e b =>
    obtain ⟨-, ⟨c, rfl⟩, -⟩ := hd
    cases ran
    exact (yields_ok _).mpr ⟨queue, rest, (hv.at hp).executes⟩
  case next b =>
    cases ran
    obtain ⟨hr, rfl⟩ := hd
    exact (yields_ok _).mpr ⟨queue, rest, hv.moves (by simp [hp]) (by simp) ⟨hr, rfl, (ring_firstNode hr).2⟩
      (hp ▸ rfl) (hp ▸ rfl) (hp ▸ rfl)⟩

end Valid

end

/-! ## Runs -/

/-- The commands are run in the order in which their additions got the lock, each of them
once; those whose additions got it before the last round did are run when the round is over;
and when nobody has the lock the counter is the number of commands on the list. -/
structure Right (s : State T C) : Prop where
  order : s.executed <+: s.added
  round : s.worker = .out → s.added.take s.due <+: s.executed
  counter : s.owner = none → ∃ queue, Ring s.links .cmdlist (cmds queue) ∧ s.ncmd = queue.length

lemma Valid.right (hv : Valid s queue rest) : Right s := by
  refine ⟨?_, ?_, ?_⟩
  · exact ⟨_, hv.split.symm⟩
  · intro out
    have due := hv.due
    have hd := hv.draining
    rw [out] at due hd
    cases hd
    have hf : s.due ≤ s.executed.length := due
    rw [hv.split, take_append_of_le_length hf]
    exact take_prefix _ _
  · intro free
    have ho : s.worker ≠ .reset := by
      intro hi
      have owns := hv.workerOwns
      rw [hi, free] at owns
      exact absurd (owns.mp rfl) nofun
    have hc := hv.count ho
    rw [free] at hc
    exact ⟨queue, hv.shared, (Int.add_zero _).symm.trans hc⟩

variable [DecidableEq T] [DecidableEq C]

/-- One step of a thread, which fails only if the counter overflows. -/
lemma Valid.runAdder (hv : Valid s queue rest) (ran : s.runAdder t = some outcome) :
    ¬ s.ncmd + 1 < 2 ^ 31 ∧ outcome = .error .overflow ∨
      Yields outcome fun s' => ∃ queue' rest', Valid s' queue' rest' := by
  unfold State.runAdder at ran
  cases hp : s.adders t with
  | out =>
    rw [hp] at ran
    cases ran
  | lock c =>
    simp only [hp] at ran
    split_ifs at ran with ht
    cases ran
    have hf : s.owner = none := not_isSome_iff_eq_none.mp ht
    exact .inr ((yields_ok _).mpr ⟨queue, rest, hv.getsLock hp hf⟩)
  | link c =>
    simp only [hp, some.injEq] at ran
    subst ran
    exact .inr ((yields_ok _).mpr ⟨queue ++ [c], rest, hv.addsTail hp⟩)
  | count =>
    simp only [hp] at ran
    split_ifs at ran with hr
    · cases ran
      exact .inr ((yields_ok _).mpr ⟨queue, rest, hv.counts hp⟩)
    · cases ran
      exact .inl ⟨hr, rfl⟩
  | unlock =>
    simp only [hp, some.injEq] at ran
    subst ran
    exact .inr ((yields_ok _).mpr ⟨queue, rest, hv.adderUnlocks hp⟩)

lemma Valid.step (hv : Valid s queue rest) {event : Event T C}
    (hs : s.step event = some outcome) : ¬ s.ncmd + 1 < 2 ^ 31 ∧ outcome = .error .overflow ∨
      Yields outcome fun s' => ∃ queue' rest', Valid s' queue' rest' := by
  cases event with
  | add t c =>
    dsimp only [State.step] at hs
    split at hs
    · rename_i out
      split_ifs at hs with hu
      cases hs
      exact .inr ((yields_ok _).mpr ⟨queue, rest, hv.call out (Bool.not_eq_true _ ▸ hu)⟩)
    · cases hs
  | get =>
    dsimp only [State.step] at hs
    split at hs
    · rename_i out
      cases hs
      exact .inr ((yields_ok _).mpr ⟨queue, rest, hv.gets out⟩)
    · cases hs
  | adder t => exact hv.runAdder hs
  | worker => exact .inr (hv.runWorker hs)
  | overwrite c p n =>
    dsimp only [State.step] at hs
    split_ifs at hs with hu
    cases hs
    exact .inr ((yields_ok _).mpr ⟨queue, rest, hv.overwrite (Bool.not_eq_true _ ▸ hu) p n⟩)

/-- The states of the runs of a worker. -/
inductive Reaches (links : Links (Node C)) : State T C → Prop
  | start : Reaches links (start T links)
  | step {s s' : State T C} (event : Event T C) (before : Reaches links s)
      (stepped : s.step event = some (.ok s')) : Reaches links s'

lemma Reaches.valid (run : Reaches links s) : ∃ queue rest, Valid s queue rest := by
  induction run with
  | start => exact ⟨[], [], .start links⟩
  | step event hb hs ih =>
    obtain ⟨queue, rest, hv⟩ := ih
    rcases hv.step hs with ⟨-, ⟨⟩⟩ | ⟨_, ⟨⟩, ha⟩
    exact ha

/-- No step that is possible has undefined behaviour. -/
def Safe (s : State T C) : Prop := ∀ event fault, s.step event ≠ some (.error fault)

/-- As long as the counter does not overflow, nothing goes wrong. -/
theorem commands_delivered (links : Links (Node C)) (s : State T C) (run : Reaches links s) :
    Right s ∧ (s.ncmd + 1 < 2 ^ 31 → Safe s) := by
  obtain ⟨queue, rest, hv⟩ := run.valid
  refine ⟨hv.right, fun hs event fault hf => ?_⟩
  rcases hv.step hf with ⟨hl, -⟩ | hy
  · exact hl hs
  · exact yields_error fault hy

/-- Memory in which every node is linked to itself. -/
def blank : Links (Node Nat) where
  p x := x
  n x := x

/-- The state after events that are all possible and go right. -/
def runEvents (s : State T C) : List (Event T C) → Option (State T C)
  | [] => some s
  | event :: events =>
    match s.step event with
    | some (.ok s') => runEvents s' events
    | _ => none

lemma Reaches.runEvents {events : List (Event T C)} {s' : State T C} (run : Reaches links s)
    (ran : runEvents s events = some s') : Reaches links s' := by
  induction events generalizing s with
  | nil =>
    cases ran
    exact run
  | cons event events ih =>
    rw [CommandDelivery.runEvents] at ran
    split at ran
    next stepped => exact ih (.step event run stepped) ran
    next => cases ran

/-- A thread adds two commands one after the other, and the worker runs both in one round. -/
def twoCommands : List (Event Unit Nat) :=
  .add () 7 :: replicate 4 (.adder ()) ++ .add () 8 :: replicate 4 (.adder ()) ++ .get :: replicate 16 .worker

theorem commands_delivered_two : ∃ s : State Unit Nat, s.executed = [7, 8] ∧ s.worker = .out ∧
    Right s ∧ (s.ncmd + 1 < 2 ^ 31 → Safe s) := by
  obtain ⟨s, ran, executed, out⟩ : ∃ s, runEvents (start Unit blank) twoCommands = some s ∧
      s.executed = [7, 8] ∧ s.worker = .out := ⟨_, rfl, rfl, rfl⟩
  exact ⟨s, executed, out, commands_delivered blank s (Reaches.start.runEvents ran)⟩

/-! ## The counter overflows -/

/-- A thread has linked another command and is about to count it. -/
lemma about_to_count {s : State Unit Nat} {n : Nat} (run : Reaches blank s) (hf : s.owner = none)
    (out : s.adders () = .out) (hu : ∀ c ≥ n, s.inUse c = false) :
    ∃ s', Reaches blank s' ∧ s'.ncmd = s.ncmd ∧ s'.adders () = .count ∧ ∀ c ≥ n + 1, s'.inUse c = false := by
  let s1 := { s with inUse := update s.inUse n true }.goto () (.lock n)
  have hc : Reaches blank s1 :=
    .step (.add () n) run (by simp [State.step, out, hu n (Nat.le_refl n), s1])
  let s2 := { s1 with owner := some (some ()), added := s1.added ++ [n] }.goto () (.link n)
  have locked : Reaches blank s2 :=
    .step (.adder ()) hc (by simp [State.step, State.runAdder, goto, hf, s1, s2])
  let s3 := { s2 with links := cblistAddTail s2.links .cmdlist (.cmd n) }.goto () .count
  have hl : Reaches blank s3 :=
    .step (.adder ()) locked (by simp [State.step, State.runAdder, goto, s2, s3])
  refine ⟨s3, hl, rfl, rfl, fun c ha => ?_⟩
  exact (update_of_ne (by omega) _ _).trans (hu c (by omega))

/-- A thread adds one command after the other. -/
lemma many_commands (n : Nat) (hs : n < 2 ^ 31) :
    ∃ s : State Unit Nat, Reaches blank s ∧ s.ncmd = n ∧ s.owner = none ∧ s.adders () = .out ∧
      ∀ c ≥ n, s.inUse c = false := by
  induction n with
  | zero => exact ⟨start Unit blank, .start, rfl, rfl, rfl, fun _ _ => rfl⟩
  | succ n ih =>
    obtain ⟨s, run, count, hf, out, unused⟩ := ih (by omega)
    obtain ⟨s1, hl, he, hp, unused1⟩ := about_to_count run hf out unused
    rw [count] at he
    have hr : s1.ncmd + 1 < 2 ^ 31 := by omega
    let s2 := { s1 with ncmd := s1.ncmd + 1 }.goto () .unlock
    have hc : Reaches blank s2 :=
      .step (.adder ()) hl (by simp only [State.step, State.runAdder, hp, if_pos hr, s2])
    have hu : Reaches blank ({ s2 with owner := none }.goto () .out) :=
      .step (.adder ()) hc rfl
    refine ⟨_, hu, ?_, rfl, rfl, unused1⟩
    change s1.ncmd + 1 = _
    omega

/-- When 2^31 - 1 commands wait, another one makes the counter overflow. -/
theorem command_counter_overflows : ∃ s : State Unit Nat, Reaches blank s ∧ ¬ Safe s := by
  obtain ⟨s, run, hc, hf, out, hu⟩ := many_commands (2 ^ 31 - 1) (by decide)
  obtain ⟨s1, hl, same, hp, -⟩ := about_to_count run hf out hu
  refine ⟨s1, hl, fun hs => hs (.adder ()) .overflow ?_⟩
  have full : ¬ s1.ncmd + 1 < 2 ^ 31 := by omega
  simp only [State.step, State.runAdder, hp, if_neg full]

end Fzsvn.Guarantees.Proxy.CommandDelivery
