import Fzsvn.Library.Fallible
import Fzsvn.Library.RefCount
import Fzsvn.Source.Proxy.Servers
import Mathlib.Algebra.GroupWithZero.Nat
import Mathlib.Data.List.ReduceOption

/-!
# References to servers and server pools

Servers, their data, server pools and their tables are counted: an object is freed by the
thread that gives up the last reference to it, which first gives up the references that the
object holds. `references_right` says, for any number of threads and every order of their
steps, that each object has exactly one holder more than its `refcnt` says, that none is used
or freed after it was freed, and that whoever frees one gets to the end of it.

This needs three things the code does not see to. `svrpool_get_rp_server` counts its calls in
an `int`, so that after `2 ^ 31` calls it takes a server from in front of the table
(`round_robin_wraps`). `svrpool_alloc_data` stores what `server_alloc_data` returns without
looking at it, and `_spdata_calc_gcd` follows that pointer; nor does it count the servers it
stores. And a `refcnt` is an `int`, too.
-/
namespace Fzsvn.Guarantees.Proxy.ServerRefs
open Library.MachineInt Library.RefCount Source.Proxy.Servers List Function
open World (access add setRefcnt setTable sub)
open State (start)
open Finset (mem_insert mem_of_mem_erase mem_univ notMem_empty single_le_sum)
open Obj (data server)
open Instr (fill grab pick run)
open Thread (stack)

/-! ## Holders -/

/-- The pointers of an object to counted objects. -/
def slots (w : World) : Obj → List (Option Obj)
  | .server _ => []
  | .data d => [(w.data d).server.map .server]
  | .pool p => (w.pool p).svrlist.map fun s => some (.server s)
  | .table q => (w.table q).servers.map (Option.map .data)

/-- The references a step uses up, or hands on to the steps it leaves to do. -/
def pending (w : World) : Instr → List Obj
  | .dec x => [x]
  | .dataServer d => (slots w (.data d)).reduceOption
  | .eachServer p => (slots w (.pool p)).reduceOption
  | .eachData q i => ((slots w (.table q)).drop i).reduceOption
  | .fill _ q => [.table q]
  | _ => []

/-- The object whose last reference is gone and that will be freed. -/
def sweeping : Instr → List Obj
  | .free x => [x]
  | .dataServer d => [.data d]
  | .eachServer p => [.pool p]
  | .eachData q _ => [.table q]
  | _ => []

def refsOf (w : World) (thread : Thread) : List Obj :=
  thread.held ++ thread.stack.flatMap (pending w)

def sweepsOf (thread : Thread) : List Obj := thread.stack.flatMap sweeping

section

variable {T : Type} [Fintype T]

/-- How many threads are about to free the object. -/
def freeing (s : State T) (x : Obj) : Nat := ∑ t, (sweepsOf (s.threads t)).count x

/-- The references an object holds; one that is being freed has passed them on. -/
def owned (s : State T) (a : Obj) : List Obj :=
  if freeing s a = 0 then (slots s.world a).reduceOption else []

def holders (s : State T) (x : Obj) : Nat :=
  total (fun t => refsOf s.world (s.threads t)) s.world.alive (owned s) x

def ledger (s : State T) : Ledger Obj where
  alive := s.world.alive
  count := s.world.refcnt
  holders := holders s
  sweepers := freeing s

/-- Every object has one holder more than its count says, or none and one thread that frees
it; one that is not allocated has no holder, and no live server data points to a server that
was freed. -/
structure Accounted (s : State T) : Prop where
  counted : ∀ x ∈ s.world.alive, freeing s x = 0 →
    0 < holders s x ∧ (holders s x : Int) = s.world.refcnt x + 1
  freed : ∀ x ∈ s.world.alive, freeing s x ≠ 0 → freeing s x = 1 ∧ holders s x = 0
  gone : ∀ x, x ∉ s.world.alive → freeing s x = 0 ∧ holders s x = 0
  servers : ∀ d a, .data d ∈ s.world.alive → freeing s (.data d) = 0 →
    (s.world.data d).server = some a → .server a ∈ s.world.alive

variable [DecidableEq T]

/-- Left alone, the thread ends its call. -/
inductive Finishes (t : T) : State T → Prop
  | idle {s : State T} (done : (s.threads t).stack = []) : Finishes t s
  | step {s s' : State T} (m : Answers) (ran : s.step (.run t m) = some (.ok s'))
      (rest : Finishes t s') : Finishes t s

/-- The steps of the functions that free. -/
def Releasing : Instr → Prop
  | .dec _ | .free _ | .dataServer _ | .eachServer _ | .eachData _ _ => True
  | _ => False

structure Right (allowed : State T → Event T → Prop) (s : State T) : Prop where
  accounted : Accounted s
  sound : ∀ event fault, allowed s event → s.step event ≠ some (.error fault)
  finishes : ∀ t, (∀ i ∈ (s.threads t).stack, Releasing i) → Finishes t s

/-- The states of the runs whose steps are all allowed. -/
inductive Reaches (allowed : State T → Event T → Prop) (first : State T) : State T → Prop
  | start : Reaches allowed first first
  | step {s s' : State T} (event : Event T) (before : Reaches allowed first s) (ok : allowed s event)
      (stepped : s.step event = some (.ok s')) : Reaches allowed first s'

/-- Nothing that is to be counted has `2 ^ 31` holders, the round robin counter has not
wrapped around, and no allocation for a server fails, of which there are at most
`MAX_SERVER`. -/
def Harmless (s : State T) : Event T → Prop
  | .clone _ x => holders s x < 2 ^ 31
  | .run t m =>
    match (s.threads t).stack.head? with
    | some (.pick q) => 0 ≤ (s.world.table q).rrpos ∧ 0 < (s.world.table q).nserver
    | some (.grab q pos) =>
      ∀ d, (s.world.table q).servers[(pos.tmod (s.world.table q).nserver).toNat]? = some (some d) →
        holders s (.data d) < 2 ^ 31
    | some (.fill p q) =>
      ∀ a, (s.world.pool p).svrlist[(s.world.table q).servers.length]? = some a →
        m.data ≠ none ∧ ((s.world.server a).ssl = true → m.sslctx = true) ∧
        (s.world.table q).servers.length < maxServer ∧ holders s (.server a) < 2 ^ 31
    | _ => True
  | _ => True

end

/-! ## Frames -/

variable {i : Instr}

variable {w w' : World} {x y : Obj} {n : Int}

@[simp] lemma setRefcnt_alive : (w.setRefcnt x n).alive = w.alive := by
  cases x
  all_goals rfl

lemma setRefcnt_refcnt : (w.setRefcnt x n).refcnt = update w.refcnt x n := by
  funext y
  by_cases he : y = x
  · subst he
    cases y <;> simp [setRefcnt, World.refcnt]
  · rw [update_of_ne he]
    cases x <;> cases y <;> simp_all [setRefcnt, World.refcnt]

@[simp] lemma setRefcnt_table (q : Nat) : ((w.setRefcnt x n).table q).servers = (w.table q).servers ∧
    ((w.setRefcnt x n).table q).nserver = (w.table q).nserver := by
  cases x with
  | table a => by_cases he : q = a <;> simp [setRefcnt, he]
  | _ => exact ⟨rfl, rfl⟩

@[simp] lemma setRefcnt_svrlist (p : Nat) : ((w.setRefcnt x n).pool p).svrlist = (w.pool p).svrlist := by
  cases x with
  | pool a => by_cases he : p = a <;> simp [setRefcnt, he]
  | _ => rfl

@[simp] lemma setRefcnt_server (d : Nat) : ((w.setRefcnt x n).data d).server = (w.data d).server := by
  cases x with
  | data a => by_cases he : d = a <;> simp [setRefcnt, he]
  | _ => rfl

lemma setRefcnt_slots (y : Obj) : slots (w.setRefcnt x n) y = slots w y := by
  cases y with
  | server s => rfl
  | data d => simp [slots]
  | pool p => simp [slots]
  | table q => simp [slots]

lemma pending_congr (he : ∀ x ∈ sweeping i, slots w' x = slots w x) : pending w' i = pending w i := by
  cases i with
  | dataServer d => rw [pending, pending, he _ (mem_singleton_self _)]
  | eachServer p => rw [pending, pending, he _ (mem_singleton_self _)]
  | eachData q i => rw [pending, pending, he _ (mem_singleton_self _)]
  | _ => rfl

lemma refsOf_congr {thread : Thread} (he : ∀ x ∈ sweepsOf thread, slots w' x = slots w x) :
    refsOf w' thread = refsOf w thread := by
  rw [refsOf, refsOf]
  congr 1
  apply flatMap_congr
  intro i hi
  apply pending_congr
  intro x hs
  exact he x (mem_flatMap.mpr ⟨i, hi, hs⟩)

section

variable {q : Nat} {table : SvrpoolData}

lemma setTable_slots (hs : table.servers = (w.table q).servers) (y : Obj) :
    slots (w.setTable q table) y = slots w y := by
  cases y with
  | table b =>
    by_cases it : b = q
    · subst it
      simp [slots, setTable, hs]
    · simp [slots, setTable, it]
  | _ => rfl

lemma setTable_refcnt (hr : table.refcnt = (w.table q).refcnt) :
    (w.setTable q table).refcnt = w.refcnt := by
  funext y
  cases y with
  | table b =>
    by_cases it : b = q
    · subst it
      simp [World.refcnt, setTable, hr]
    · simp [World.refcnt, setTable, it]
  | _ => rfl

end

lemma count_refsOf_cons (w : World) (held : List Obj) (i : Instr) (rest : List Instr) (y : Obj) :
    (refsOf w ⟨held, i :: rest⟩).count y = (pending w i).count y + (refsOf w ⟨held, rest⟩).count y := by
  simp only [refsOf, flatMap_cons, count_append]
  omega

lemma refsOf_erase (w : World) {held : List Obj} (stack : List Instr) {x : Obj} (hm : x ∈ held) :
    x :: refsOf w ⟨held.erase x, stack⟩ ~ refsOf w ⟨held, stack⟩ :=
  (perm_cons_erase hm).symm.append_right _

lemma count_of_cons {x : Obj} {refs refs' : List Obj} (h : refs' ~ x :: refs) (y : Obj) :
    refs'.count y = [x].count y + refs.count y := by
  rw [h.count_eq, ← singleton_append, count_append]

lemma count_sweepsOf_cons (held : List Obj) (i : Instr) (rest : List Instr) (y : Obj) :
    (sweepsOf ⟨held, i :: rest⟩).count y = (sweeping i).count y + (sweepsOf ⟨held, rest⟩).count y := by
  simp only [sweepsOf, flatMap_cons, count_append]

lemma pending_released : pending w x.released = (slots w x).reduceOption := by
  cases x
  all_goals rfl

lemma sweeping_released : sweeping x.released = [x] := by
  cases x
  all_goals rfl

lemma of_guard {α : Type} {c : Prop} [Decidable c] {a b : α}
    (h : (if c then some a else none) = some b) : c ∧ a = b := by
  simpa using h

/-- A server enters or leaves the list of a pool. -/
def relink (w : World) (p a : Nat) (svrlist : List Nat) (linked : Bool) : World :=
  { w with
    pool := update w.pool p { w.pool p with svrlist }
    server := update w.server a { w.server a with linked } }

section

variable {p a : Nat} {svrlist : List Nat} {linked : Bool}

lemma relink_refcnt : (relink w p a svrlist linked).refcnt = w.refcnt := by
  funext y
  cases y with
  | server b => by_cases it : b = a <;> simp [World.refcnt, relink, it]
  | pool b => by_cases it : b = p <;> simp [World.refcnt, relink, it]
  | _ => rfl

lemma relink_slots (y : Obj) (ho : y ≠ .pool p) : slots (relink w p a svrlist linked) y = slots w y := by
  cases y with
  | pool b =>
    have ho : b ≠ p := fun it => ho (it ▸ rfl)
    simp [slots, relink, ho]
  | _ => rfl

end

/-! ## What a step does to the ledger -/

variable {more : List Instr}

section

variable {T : Type} [DecidableEq T] {s : State T} {t u : T} {w' : World}
  {held held' : List Obj} {stack stack' rest : List Instr} {x y : Obj}

@[simp] lemma set_self : (s.set t w' held' stack').threads t = ⟨held', stack'⟩ :=
  update_self ..

lemma set_other (ho : u ≠ t) : (s.set t w' held' stack').threads u = s.threads u :=
  update_of_ne ho ..

lemma set_set : (s.set t w held stack).set t w' held' stack' = s.set t w' held' stack' := by
  simp [State.set]

@[simp] lemma set_world : (s.set t w' held' stack').world = w' := rfl

variable [Fintype T]

lemma freeing_set : freeing (s.set t w' held' stack') x + (sweepsOf (s.threads t)).count x =
      freeing s x + (sweepsOf ⟨held', stack'⟩).count x := by
  have hm := sum_count_thread (t := t) (fun u ho =>
    congrArg sweepsOf (set_other ho : (s.set t w' held' stack').threads u = s.threads u)) x
  rw [set_self] at hm
  exact hm

lemma freeing_same (sweeps : (sweepsOf ⟨held', stack'⟩).count x = (sweepsOf (s.threads t)).count x) :
    freeing (s.set t w' held' stack') x = freeing s x := by
  have hm : freeing (s.set t w' held' stack') x + _ = _ := freeing_set
  rw [sweeps] at hm
  omega

/-- What there is of an object holds these references. -/
def ownedAt (s : State T) (a : Obj) : List Obj := if a ∈ s.world.alive then owned s a else []

omit [DecidableEq T] in
lemma ownedAt_idle (hm : x ∈ s.world.alive) (idle : freeing s x = 0) :
    ownedAt s x = (slots s.world x).reduceOption := by
  rw [ownedAt, if_pos hm, owned, if_pos idle]

omit [DecidableEq T] in
lemma ownedAt_dying (hd : freeing s x ≠ 0) : ownedAt s x = [] := by
  rw [ownedAt, owned, if_neg hd, ite_self]

/-- The thread that makes the step and the object `x` may have other references than before. -/
lemma holders_step (ha : ∀ y, y ≠ x → (y ∈ w'.alive ↔ y ∈ s.world.alive))
    (he : ∀ y, y ≠ x → slots w' y = slots s.world y)
    (hd : slots w' x = slots s.world x ∨ ∀ u, u ≠ t → x ∉ sweepsOf (s.threads u))
    (sweeps : ∀ y, y ≠ x → (sweepsOf ⟨held', stack'⟩).count y = (sweepsOf (s.threads t)).count y) (y : Obj) :
    holders (s.set t w' held' stack') y + (refsOf s.world (s.threads t)).count y + (ownedAt s x).count y =
      holders s y + (refsOf w' ⟨held', stack'⟩).count y + (ownedAt (s.set t w' held' stack') x).count y := by
  have ho : ∀ u, u ≠ t →
      refsOf w' ((s.set t w' held' stack').threads u) = refsOf s.world (s.threads u) := by
    intro u other
    rw [set_other other]
    refine refsOf_congr fun y hs => ?_
    by_cases it : y = x
    · subst it
      exact hd.elim id fun none => absurd hs (none u other)
    · exact he y it
  have hk : ∀ a ∈ s.world.alive, a ≠ x → owned (s.set t w' held' stack') a = owned s a := by
    intro a _ other
    rw [owned, owned, freeing_same (sweeps a other), set_world, he a other]
  have hm := total_step ho ha hk y
  rw [set_self] at hm
  rw [ownedAt, ownedAt, apply_ite (List.count y), apply_ite (List.count y)]
  exact hm

section

variable (sweeps : sweepsOf ⟨held', stack'⟩ ~ sweepsOf (s.threads t))
include sweeps

/-- The steps left free the same objects. -/
lemma freeing_kept : freeing (s.set t w' held' stack') = freeing s :=
  funext fun x => freeing_same (sweeps.count_eq x)

/-- A step that changes neither what is allocated nor where pointers point. -/
lemma holders_kept (ha : w'.alive = s.world.alive) (he : ∀ x, slots w' x = slots s.world x) (y : Obj) :
    holders (s.set t w' held' stack') y + (refsOf s.world (s.threads t)).count y =
      holders s y + (refsOf w' ⟨held', stack'⟩).count y := by
  have hm := holders_step (x := y) (fun _ _ => by rw [ha]) (fun x _ => he x) (.inl (he y))
    (fun x _ => sweeps.count_eq x) y
  have hk : ownedAt (s.set t w' held' stack') y = ownedAt s y := by
    rw [ownedAt, ownedAt, owned, owned, freeing_kept sweeps, set_world, he, ha]
  rw [hk] at hm
  exact Nat.add_right_cancel hm

lemma balanced_same (hb : Balanced (ledger s)) (ha : w'.alive = s.world.alive)
    (hr : w'.refcnt = s.world.refcnt) (he : ∀ y, holders (s.set t w' held' stack') y = holders s y) :
    Balanced (ledger (s.set t w' held' stack')) := by
  have hu : ledger (s.set t w' held' stack') = ledger s :=
    Ledger.ext ha hr (funext he) (freeing_kept sweeps)
  rw [hu]
  exact hb

/-- References change their place. -/
lemma balanced_move (hb : Balanced (ledger s)) (ha : w'.alive = s.world.alive)
    (hr : w'.refcnt = s.world.refcnt) (he : ∀ x, slots w' x = slots s.world x)
    (refs : refsOf w' ⟨held', stack'⟩ ~ refsOf s.world (s.threads t)) :
    Balanced (ledger (s.set t w' held' stack')) := by
  refine balanced_same sweeps hb ha hr fun y => ?_
  have hm := holders_kept sweeps ha he y
  rw [refs.count_eq] at hm
  exact Nat.add_right_cancel hm

lemma ledger_acquires (alive : w'.alive = s.world.alive)
    (hr : w'.refcnt = update s.world.refcnt x (s.world.refcnt x + 1))
    (he : ∀ x, slots w' x = slots s.world x) (refs : refsOf w' ⟨held', stack'⟩ ~ x :: refsOf s.world (s.threads t)) :
    Acquires (ledger s) (ledger (s.set t w' held' stack')) x where
  alive := alive
  count := hr
  holders y := by
    have hm := holders_kept sweeps alive he y
    rw [count_of_cons refs] at hm
    change holders _ y = holders s y + _
    omega
  sweepers := congrFun (freeing_kept sweeps)

end

/-- A reference is given up that is not the last one. -/
lemma ledger_drops (top : s.threads t = ⟨held, .dec x :: rest⟩) (more : s.world.refcnt x ≠ 0)
    (ha : w'.alive = s.world.alive) (hr : w'.refcnt = update s.world.refcnt x (s.world.refcnt x - 1))
    (he : ∀ x, slots w' x = slots s.world x) : Drops (ledger s) (ledger (s.set t w' held rest)) x := by
  have sweeps : sweepsOf ⟨held, rest⟩ ~ sweepsOf (s.threads t) := by
    rw [top]
    rfl
  refine ⟨ha, hr, ?_, ?_⟩
  · intro y
    have hm := holders_kept sweeps ha he y
    rw [top, refsOf_congr fun x _ => he x, count_refsOf_cons] at hm
    change holders _ y + (pending s.world (.dec x)).count y = holders s y
    omega
  · intro y
    change freeing _ y = freeing s y + if s.world.refcnt x = 0 then _ else 0
    rw [freeing_kept sweeps, if_neg more, Nat.add_zero]

/-- The thread that gives up the last reference takes over what the object holds. -/
lemma ledger_drops_last (top : s.threads t = ⟨held, .dec x :: rest⟩) (hl : s.world.refcnt x = 0)
    (hm : x ∈ s.world.alive) (idle : freeing s x = 0) (ha : w'.alive = s.world.alive)
    (hr : w'.refcnt = update s.world.refcnt x (s.world.refcnt x - 1))
    (he : ∀ x, slots w' x = slots s.world x) :
    Drops (ledger s) (ledger (s.set t w' held (x.released :: rest))) x := by
  have sweeps : ∀ y, (sweepsOf ⟨held, x.released :: rest⟩).count y =
      (sweepsOf (s.threads t)).count y + [x].count y := by
    intro y
    rw [top, count_sweepsOf_cons, count_sweepsOf_cons, sweeping_released, Nat.add_comm]
    exact congrArg (· + _) (Nat.zero_add _).symm
  have hf : ∀ y, freeing (s.set t w' held (x.released :: rest)) y = freeing s y + [x].count y := by
    intro y
    have moved : freeing (s.set t w' held (x.released :: rest)) y + _ = _ := freeing_set
    rw [sweeps] at moved
    omega
  have hg : ownedAt (s.set t w' held (x.released :: rest)) x = [] :=
    ownedAt_dying (by rw [hf, count_singleton_self]; exact Nat.succ_ne_zero _)
  refine ⟨ha, hr, ?_, ?_⟩
  · intro y
    have moved := holders_step (x := x) (fun _ _ => by rw [ha]) (fun y _ => he y) (.inl (he x))
      (fun y ho => by rw [sweeps, count_other ho, Nat.add_zero]) y
    rw [top, refsOf_congr fun x _ => he x, hg, ownedAt_idle hm idle, count_refsOf_cons, count_refsOf_cons,
      pending_released, count_nil] at moved
    change holders _ y + (pending s.world (.dec x)).count y = holders s y
    omega
  · intro y
    change freeing _ y = freeing s y + if s.world.refcnt x = 0 then _ else 0
    rw [hf, if_pos hl]

omit [DecidableEq T] in
lemma not_swept (idle : freeing s x = 0) (u : T) : x ∉ sweepsOf (s.threads u) := by
  intro hs
  have none := Finset.sum_eq_zero_iff.mp idle u (mem_univ u)
  exact count_eq_zero.mp none hs

lemma ledger_frees (top : s.threads t = ⟨held, .free x :: rest⟩) (hd : freeing s x ≠ 0)
    (ha : w'.alive = s.world.alive.erase x) (hr : w'.refcnt = s.world.refcnt)
    (he : ∀ y, slots w' y = slots s.world y) : Frees (ledger s) (ledger (s.set t w' held rest)) x := by
  have sweeps : ∀ y, (sweepsOf ⟨held, rest⟩).count y + [x].count y = (sweepsOf (s.threads t)).count y := by
    intro y
    rw [top, count_sweepsOf_cons, Nat.add_comm]
    rfl
  refine ⟨ha, hr, ?_, ?_⟩
  · intro y
    have hm : holders (s.set t w' held rest) y + _ + _ = _ :=
      holders_step (x := x) (fun y ho => by simp [ha, ho]) (fun y _ => he y)
        (.inl (he x)) (fun y ho => by rw [← sweeps, count_other ho, Nat.add_zero]) y
    have hg : ownedAt (s.set t w' held rest) x = [] := if_neg (by simp [ha])
    have hn : (pending s.world (.free x)).count y = 0 := rfl
    rw [ownedAt_dying hd, hg, top, count_refsOf_cons, refsOf_congr fun y _ => he y] at hm
    change holders _ y = holders s y
    omega
  · intro y
    have hm : freeing (s.set t w' held rest) y + _ = _ := freeing_set
    rw [← sweeps] at hm
    change freeing _ y + _ = freeing s y
    omega

/-- A new object takes over references that were acquired for it. -/
lemma balanced_alloc {l : Ledger Obj} (hb : Balanced l) (before : l.alive = s.world.alive)
    (hs : l.sweepers = freeing s)
    (ha : ∀ y, l.holders y = holders s y + ((slots w' x).reduceOption).count y)
    (hf : x ∉ s.world.alive) (alive : w'.alive = insert x s.world.alive)
    (hr : w'.refcnt = update l.count x 0) (he : ∀ y, y ≠ x → slots w' y = slots s.world y)
    (sweeps : sweepsOf ⟨held', stack'⟩ ~ sweepsOf (s.threads t))
    (refs : refsOf w' ⟨held', stack'⟩ ~ x :: refsOf s.world (s.threads t)) :
    Balanced (ledger (s.set t w' held' stack')) := by
  have idle : freeing s x = 0 := hs ▸ (hb.gone (before ▸ hf)).2
  refine hb.alloc (before ▸ hf) ⟨before ▸ alive, hr, ?_, ?_⟩
  · intro y
    have hm := holders_step (fun y ho => by simp [alive, ho]) he
      (.inr fun u _ => not_swept idle u) (fun y _ => sweeps.count_eq y) y
    have none : ownedAt s x = [] := if_neg hf
    have new : x ∈ (s.set t w' held' stack').world.alive := alive ▸ Finset.mem_insert_self x _
    rw [count_of_cons refs, none, ownedAt_idle new (by rw [freeing_kept sweeps, idle])] at hm
    rw [ha y]
    change holders _ y = _
    change _ = _ + ((slots w' x).reduceOption).count y at hm
    rw [count_nil] at hm
    omega
  · rw [hs]
    exact congrFun (freeing_kept sweeps)

/-- An object that is being freed hands on its pointers one by one. -/
lemma balanced_sweep (hb : Balanced (ledger s)) (top : s.threads t = ⟨held, i :: rest⟩)
    (sweeps : sweeping i = [x]) (ha : w'.alive = s.world.alive)
    (hr : w'.refcnt = s.world.refcnt) (he : ∀ y, y ≠ x → slots w' y = slots s.world y)
    (hs : more.flatMap sweeping ~ [x]) (refs : more.flatMap (pending w') ~ pending s.world i) :
    Balanced (ledger (s.set t w' held (more ++ rest))) := by
  have mine : x ∈ sweepsOf (s.threads t) := by
    rw [top]
    exact mem_flatMap.mpr ⟨i, mem_cons_self, sweeps ▸ mem_singleton_self x⟩
  have most : (sweepsOf (s.threads t)).count x ≤ freeing s x :=
    single_le_sum (f := fun u => (sweepsOf (s.threads u)).count x) (fun _ _ => Nat.zero_le _)
      (mem_univ t)
  have one : freeing s x = 1 :=
    (hb.sweeper (Nat.lt_of_lt_of_le (count_pos_iff.mpr mine) most)).2.1
  have hl : x ∉ sweepsOf ⟨held, rest⟩ := by
    intro again
    have again := count_pos_iff.mpr again
    rw [top, count_sweepsOf_cons, sweeps, count_singleton_self] at most
    omega
  have hk : sweepsOf ⟨held, more ++ rest⟩ ~ sweepsOf (s.threads t) := by
    simp only [top, sweepsOf, flatMap_append, flatMap_cons, sweeps]
    exact hs.append_right _
  refine balanced_same hk hb ha hr fun y => ?_
  have hm := holders_step (fun _ _ => by rw [ha]) he (.inr fun u ho swept => by
        have two : 2 ≤ freeing s x := sum_count_two ho swept mine
        omega) (fun y _ => hk.count_eq y) y
  have rest_kept : refsOf w' ⟨held, rest⟩ = refsOf s.world ⟨held, rest⟩ := by
    refine refsOf_congr fun y swept => he y ?_
    rintro rfl
    exact hl swept
  have mine : (refsOf w' ⟨held, more ++ rest⟩).count y =
      (more.flatMap (pending w')).count y + (refsOf w' ⟨held, rest⟩).count y := by
    simp only [refsOf, flatMap_append, count_append]
    omega
  rw [ownedAt_dying (one ▸ Nat.one_ne_zero),
    ownedAt_dying (by rw [freeing_kept hk, one]; exact Nat.one_ne_zero), top, count_refsOf_cons, mine,
    refs.count_eq, rest_kept] at hm
  omega

/-- A thread's reference becomes one of an object. -/
lemma balanced_attach (hb : Balanced (ledger s)) {a : Obj} (hm : a ∈ s.world.alive)
    (idle : freeing s a = 0) (ha : w'.alive = s.world.alive) (hr : w'.refcnt = s.world.refcnt)
    (hg : slots w' a = slots s.world a ++ [some x]) (he : ∀ y, y ≠ a → slots w' y = slots s.world y)
    (sweeps : sweepsOf ⟨held', stack'⟩ ~ sweepsOf (s.threads t))
    (refs : x :: refsOf w' ⟨held', stack'⟩ ~ refsOf s.world (s.threads t)) :
    Balanced (ledger (s.set t w' held' stack')) := by
  refine balanced_same sweeps hb ha hr fun y => ?_
  have moved := holders_step (fun _ _ => by rw [ha]) he (.inr fun u _ => not_swept idle u)
    (fun y _ => sweeps.count_eq y) y
  have mine := count_of_cons refs.symm y
  have hs : a ∈ (s.set t w' held' stack').world.alive := ha.symm ▸ hm
  rw [ownedAt_idle hm idle, ownedAt_idle hs (by rw [freeing_kept sweeps, idle]), set_world, hg,
    reduceOption_append, count_append] at moved
  have one : ([some x].reduceOption).count y = [x].count y := rfl
  omega

end

/-! ## The invariant -/

/-- Where a thread is in its call. Only one that fills a new table can see it. -/
inductive Local (w : World) : Thread → Prop
  | releases {held : List Obj} {stack : List Instr} (all : ∀ i ∈ stack, Releasing i) :
      Local w ⟨held, stack⟩
  | picks {held : List Obj} {q : Nat} (holds : .table q ∈ held) : Local w ⟨held, [.pick q]⟩
  | grabs {held : List Obj} {q : Nat} {pos : Int} (holds : .table q ∈ held) (valid : 0 ≤ pos)
      (nserver : 0 < (w.table q).nserver) : Local w ⟨held, [.grab q pos]⟩
  | allocs {held : List Obj} {p : Nat} (holds : .pool p ∈ held) : Local w ⟨held, [.allocTable p]⟩
  | fills {held : List Obj} {p q : Nat} (holds : .pool p ∈ held)
      (entries : none ∉ (w.table q).servers) (alone : (w.table q).refcnt = 0) :
      Local w ⟨held, [.fill p q]⟩

variable {thread : Thread} {p q : Nat}

lemma Local.fill (here : Local w thread) (fills : thread.stack = [.fill p q]) :
    .pool p ∈ thread.held ∧ none ∉ (w.table q).servers ∧ (w.table q).refcnt = 0 := by
  cases here with
  | releases all =>
    cases fills
    exact (all _ mem_cons_self).elim
  | fills hh he ha =>
    cases fills
    exact ⟨hh, he, ha⟩
  | _ => cases fills

lemma Local.idle {held : List Obj} : Local w ⟨held, []⟩ := .releases (by simp)

lemma Local.also (here : Local w thread) (x : Obj) : Local w ⟨x :: thread.held, thread.stack⟩ := by
  cases here with
  | releases all => exact .releases all
  | picks hh => exact .picks (mem_cons_of_mem _ hh)
  | grabs hh hv some => exact .grabs (mem_cons_of_mem _ hh) hv some
  | allocs hh => exact .allocs (mem_cons_of_mem _ hh)
  | fills hh he ha => exact .fills (mem_cons_of_mem _ hh) he ha

/-- What other threads may not change. -/
lemma Local.frame (here : Local w thread)
    (hn : ∀ q, .table q ∈ thread.held → (w'.table q).nserver = (w.table q).nserver)
    (hf : ∀ p q, thread.stack = [.fill p q] →
      (w'.table q).servers = (w.table q).servers ∧ (w'.table q).refcnt = (w.table q).refcnt) :
    Local w' thread := by
  cases here with
  | releases all => exact .releases all
  | picks hh => exact .picks hh
  | grabs hh hv some => exact .grabs hh hv (hn _ hh ▸ some)
  | allocs hh => exact .allocs hh
  | fills hh he ha =>
    obtain ⟨hs, hr⟩ := hf _ _ rfl
    exact .fills hh (hs ▸ he) (hr ▸ ha)

/-- The table is complete. -/
structure Sealed (w : World) (q : Nat) : Prop where
  entries : none ∉ (w.table q).servers
  nserver : (w.table q).nserver = (w.table q).servers.length

/-! ## The work that is left -/

/-- How many steps there are to do, at most. -/
def cost (w : World) : Instr → Nat
  | .free _ => 1
  | .dec (.server _) => 2
  | .dataServer _ => 4
  | .dec (.data _) => 5
  | .eachServer p => 2 + 3 * (w.pool p).svrlist.length
  | .dec (.pool p) => 3 + 3 * (w.pool p).svrlist.length
  | .eachData q i => 2 + 6 * ((w.table q).nserver - i)
  | .dec (.table q) => 3 + 6 * (w.table q).nserver
  | _ => 0

lemma cost_mono {w w' : World} (svrlist : ∀ p, (w'.pool p).svrlist.length ≤ (w.pool p).svrlist.length)
    (hn : ∀ q, (w'.table q).nserver = (w.table q).nserver) (j : Instr) : cost w' j ≤ cost w j := by
  cases j with
  | dec x =>
    cases x with
    | pool p =>
      have hf := svrlist p
      simp only [cost]
      omega
    | table q => simp only [cost, hn, le_refl]
    | _ => exact Nat.le_refl _
  | eachServer p =>
    have hf := svrlist p
    simp only [cost]
    omega
  | eachData q i => simp only [cost, hn, le_refl]
  | _ => exact Nat.le_refl _

/-- What an instruction leaves to do releases things too and costs less, and nothing gets dearer. -/
structure Cheaper (w : World) (i : Instr) (w' : World) (more : List Instr) : Prop where
  releasing : ∀ j ∈ more, Releasing j
  less : (more.map (cost w')).sum < cost w i
  others : ∀ j, cost w' j ≤ cost w j

section

variable {T : Type} [Fintype T]

structure Valid (s : State T) : Prop where
  balanced : Balanced (ledger s)
  range : ∀ x ∈ s.world.alive, s.world.refcnt x < 2 ^ 31
  datas : ∀ d, .data d ∈ s.world.alive → (s.world.data d).server ≠ none
  locals : ∀ t, Local s.world (s.threads t)
  tables : ∀ q, .table q ∈ s.world.alive →
    Sealed s.world q ∨ ∃ t p, (s.threads t).stack = [.fill p q]

variable {s : State T} {t u : T} {w' : World} {held held' : List Obj} {stack stack' rest : List Instr}
  {x : Obj} {p q d : Nat}

/-- An object that somebody holds. -/
structure Live (s : State T) (x : Obj) : Prop where
  member : x ∈ s.world.alive
  idle : freeing s x = 0
  held : 0 < holders s x
  counted : (holders s x : Int) = s.world.refcnt x + 1

omit [Fintype T] in
lemma refs_of_top (top : (s.threads t).stack = i :: rest) (hi : x ∈ pending s.world i) :
    x ∈ refsOf s.world (s.threads t) := by
  rw [refsOf, top]
  exact mem_append_right _ (mem_flatMap.mpr ⟨i, mem_cons_self, hi⟩)

omit [Fintype T] in
lemma refs_of_filling (hf : (s.threads u).stack = [.fill p q]) :
    Obj.table q ∈ refsOf s.world (s.threads u) :=
  refs_of_top hf (mem_singleton_self (Obj.table q))

section

variable (hv : Valid s)
include hv

lemma Valid.live_of (held : 0 < holders s x) : Live s x :=
  have hc := hv.balanced.count held
  ⟨hv.balanced.alive held, hc.1, held, hc.2⟩

lemma Valid.live (hh : x ∈ refsOf s.world (s.threads t)) : Live s x :=
  hv.live_of (total_of_thread hh)

lemma Valid.live_held (hh : x ∈ (s.threads t).held) : Live s x :=
  hv.live (mem_append_left _ hh)

/-- What a live object points to is live. -/
lemma Valid.live_slot {a : Obj} (hl : Live s a) (hp : some x ∈ slots s.world a) : Live s x := by
  refine hv.live_of (total_of_owned hl.member ?_)
  rw [owned, if_pos hl.idle]
  exact List.reduceOption_mem_iff.mpr hp

lemma Valid.dying (top : (s.threads t).stack = i :: rest) (sweeps : x ∈ sweeping i)
    : x ∈ s.world.alive ∧ freeing s x = 1 ∧ holders s x = 0 := by
  have hi : x ∈ sweepsOf (s.threads t) := by
    rw [sweepsOf, top]
    exact mem_flatMap.mpr ⟨i, mem_cons_self, sweeps⟩
  exact hv.balanced.sweeper (Nat.lt_of_lt_of_le (count_pos_iff.mpr hi)
    (single_le_sum (f := fun u => (sweepsOf (s.threads u)).count x) (fun _ _ => Nat.zero_le _)
      (mem_univ t)))

lemma Valid.live_alive (hm : x ∈ s.world.alive) (idle : freeing s x = 0) : Live s x := by
  rcases hv.balanced x with ⟨-, -, hc, low⟩ | ⟨-, one, -⟩ | ⟨hg, -⟩
  · change (holders s x : Int) = s.world.refcnt x + 1 at hc
    change 0 ≤ s.world.refcnt x at low
    exact ⟨hm, idle, by omega, hc⟩
  · exact absurd (one.symm.trans idle) (by decide)
  · exact absurd hm hg

lemma Valid.accounted : Accounted s where
  counted x hm idle :=
    have hl := hv.live_alive hm idle
    ⟨hl.held, hl.counted⟩
  freed x hm busy := (hv.balanced.sweeper (Nat.pos_of_ne_zero busy)).2
  gone x gone := (hv.balanced.gone gone).symm
  servers d a hm idle points :=
    (hv.live_slot (hv.live_alive hm idle) (by simp [slots, points] : some (.server a) ∈ _)).member

/-- A table that is being filled has no other holder. -/
lemma Valid.filling (hf : (s.threads u).stack = [.fill p q]) :
    freeing s (.table q) = 0 ∧ holders s (.table q) = 1 := by
  obtain ⟨-, idle, -, hc⟩ := hv.live (refs_of_filling hf)
  have ha : s.world.refcnt (.table q) = 0 := ((hv.locals u).fill hf).2.2
  rw [ha] at hc
  exact ⟨idle, by omega⟩

lemma Valid.sealed_of_dying (hm : .table q ∈ s.world.alive)
    (none : holders s (.table q) = 0) : Sealed s.world q := by
  rcases hv.tables q hm with hd | ⟨u, p, hf⟩
  · exact hd
  · have one := (hv.filling hf).2
    omega

/-- The weights of the servers of a table that is being filled can be read. -/
lemma Valid.weights (hf : (s.threads t).stack = [.fill p q])
    (he : none ∉ (s.world.table q).servers) :
    ∃ weights, (s.world.table q).servers.mapM s.world.weight = .ok weights := by
  have hl := hv.live (refs_of_filling hf)
  have hr : ∀ entry ∈ (s.world.table q).servers, ∃ weight, s.world.weight entry = .ok weight := by
    intro entry hi
    cases entry with
    | none => exact absurd hi he
    | some d =>
      have hd := hv.live_slot hl (mem_map_of_mem (f := Option.map data) hi)
      cases hs : (s.world.data d).server with
      | none => exact absurd hs (hv.datas d hd.member)
      | some a =>
        have hp : some (server a) ∈ slots s.world (.data d) := by
          simp [slots, hs]
        have serverAlive := (hv.live_slot hd hp).member
        refine ⟨(s.world.server a).weight, ?_⟩
        simp only [World.weight, access, if_pos hd.member, hs, if_pos serverAlive]
        rfl
  generalize (s.world.table q).servers = servers at hr
  induction servers with
  | nil => exact ⟨[], rfl⟩
  | cons entry servers ih =>
    obtain ⟨weight, read⟩ := hr entry mem_cons_self
    obtain ⟨weights, all⟩ := ih fun e hi => hr e (mem_cons_of_mem _ hi)
    refine ⟨weight :: weights, ?_⟩
    rw [mapM_cons, read, all]
    rfl

end

lemma start_valid : Valid (start T) := by
  have none : ∀ x, holders (start T) x = 0 := by
    intro x
    simp [holders, total, start, refsOf]
  have idle : ∀ x, freeing (start T) x = 0 := by
    intro x
    simp [freeing, start, sweepsOf]
  refine ⟨fun x => .inr (.inr ⟨?_, idle x, none x⟩), ?_, ?_, ?_, ?_⟩
  · exact notMem_empty x
  · exact fun x hm => absurd hm (notMem_empty x)
  · exact fun d hm => absurd hm (notMem_empty _)
  · exact fun t => .idle
  · exact fun q hm => absurd hm (notMem_empty _)

variable [DecidableEq T]

section

variable (hv : Valid s)
include hv

lemma Valid.sealed_of_held (hh : .table q ∈ (s.threads t).held) : Sealed s.world q := by
  rcases hv.tables q (hv.live_held hh).member with hd | ⟨u, p, hf⟩
  · exact hd
  have one := (hv.filling hf).2
  by_cases he : t = u
  · subst he
    -- held and filled by the same thread: it would count twice
    have ht : 2 ≤ (refsOf s.world (s.threads t)).count (.table q) := by
      have ho := count_pos_iff.mpr hh
      rw [refsOf, hf, count_append]
      have ha : ([fill p q].flatMap (pending s.world)).count (.table q) = 1 := by
        simp [pending]
      omega
    have hl : (refsOf s.world (s.threads t)).count (.table q) ≤ holders s (.table q) :=
      Nat.le_trans (single_le_sum (f := fun u => (refsOf s.world (s.threads u)).count (.table q))
        (fun _ _ => Nat.zero_le _) (mem_univ t)) (Nat.le_add_right ..)
    omega
  · have two : 2 ≤ holders s (.table q) :=
      total_of_two he (mem_append_left _ hh) (refs_of_filling hf)
    omega

/-- Another thread has no reference to a table that is being filled. -/
lemma Valid.filled_apart (hf : (s.threads u).stack = [.fill p q]) (ho : u ≠ t)
    (hh : x ∈ refsOf s.world (s.threads t)) : x ≠ .table q := by
  rintro rfl
  have two : 2 ≤ holders s (.table q) := total_of_two ho (refs_of_filling hf) hh
  have one := (hv.filling hf).2
  omega

/-- The instruction runs, and leaves less to do if it releases something. -/
def Proceeds (s : State T) (t : T) (held : List Obj) (i : Instr) (rest : List Instr) (m : Answers) : Prop :=
  ∃ w' held' more, i.run s.world held m = .ok (w', held', more) ∧
    (Releasing i → Cheaper s.world i w' more) ∧ Valid (s.set t w' held' (more ++ rest))

/-- Every step but those that make a table. -/
lemma Valid.set (hb : Balanced (ledger (s.set t w' held' stack')))
    (hr : ∀ x ∈ w'.alive, w'.refcnt x < 2 ^ 31)
    (hd : ∀ d, .data d ∈ w'.alive → (w'.data d).server ≠ none) (mine : Local w' ⟨held', stack'⟩)
    (hs : ∀ q, (w'.table q).servers = (s.world.table q).servers)
    (hn : ∀ q, (w'.table q).nserver = (s.world.table q).nserver)
    (hc : ∀ u p q, u ≠ t → (s.threads u).stack = [.fill p q] → (w'.table q).refcnt = (s.world.table q).refcnt)
    (idle : ∀ p q, (s.threads t).stack ≠ [.fill p q])
    (old : ∀ q, .table q ∈ w'.alive → .table q ∈ s.world.alive) : Valid (s.set t w' held' stack') := by
  refine ⟨hb, hr, hd, ?_, ?_⟩
  · intro u
    by_cases he : u = t
    · rw [he, set_self]
      exact mine
    · rw [set_other he]
      exact (hv.locals u).frame (fun q _ => hn q) fun p q hf =>
        ⟨hs q, hc u p q he hf⟩
  · intro q hm
    rcases hv.tables q (old q hm) with done | ⟨u, p, hf⟩
    · refine .inl ⟨?_, ?_⟩
      · rw [set_world, hs]
        exact done.entries
      · rw [set_world, hs, hn]
        exact done.nserver
    · have ho : u ≠ t := by
        rintro rfl
        exact idle p q hf
      exact .inr ⟨u, p, by rw [set_other ho]; exact hf⟩

/-- A thread moves references among those it has. -/
lemma Valid.move (hm : Local s.world ⟨held', stack'⟩)
    (sweeps : sweepsOf ⟨held', stack'⟩ ~ sweepsOf (s.threads t))
    (hr : refsOf s.world ⟨held', stack'⟩ ~ refsOf s.world (s.threads t))
    (idle : ∀ p q, (s.threads t).stack ≠ [.fill p q]) : Valid (s.set t s.world held' stack') :=
  hv.set (balanced_move sweeps hv.balanced rfl rfl (fun _ => rfl) hr) hv.range hv.datas
    hm (fun _ => rfl) (fun _ => rfl) (fun _ _ _ _ _ => rfl) idle fun _ => id

/-- A reference count is written. -/
lemma Valid.recount {n : Int} (hb : Balanced (ledger (s.set t (s.world.setRefcnt x n) held' stack')))
    (hs : n < 2 ^ 31) (mine : Local (s.world.setRefcnt x n) ⟨held', stack'⟩)
    (hd : ∀ u p q, u ≠ t → (s.threads u).stack = [.fill p q] → x ≠ .table q)
    (idle : ∀ p q, (s.threads t).stack ≠ [.fill p q]) :
    Valid (s.set t (s.world.setRefcnt x n) held' stack') := by
  refine hv.set hb ?_ ?_ mine (setRefcnt_table · |>.1) (setRefcnt_table · |>.2) ?_ idle ?_
  · intro y hm
    rw [setRefcnt_alive] at hm
    rw [setRefcnt_refcnt]
    by_cases it : y = x
    · rw [it, update_self]
      exact hs
    · rw [update_of_ne it]
      exact hv.range y hm
  · intro d hm
    rw [setRefcnt_alive] at hm
    rw [setRefcnt_server]
    exact hv.datas d hm
  · intro u p q ho hf
    have hk := congrFun (setRefcnt_refcnt (w := s.world) (x := x) (n := n)) (.table q)
    rw [update_of_ne (hd u p q ho hf).symm] at hk
    exact hk
  · intro q hm
    rwa [setRefcnt_alive] at hm

/-- A reference is counted and goes to the thread. -/
lemma Valid.acquire (hl : Live s x) (few : holders s x < 2 ^ 31)
    (sweeps : (s.threads t).stack.flatMap sweeping = [])
    (hr : (s.threads t).stack.flatMap (pending s.world) = [])
    (hd : ∀ u p q, u ≠ t → (s.threads u).stack = [.fill p q] → x ≠ .table q) :
    Valid (s.set t (s.world.add x) (x :: (s.threads t).held) []) := by
  obtain ⟨-, -, some, hc⟩ := hl
  have he : toInt (s.world.refcnt x + 1) = s.world.refcnt x + 1 := toInt_small (by omega) (by omega)
  have ha : Acquires (ledger s) (ledger (s.set t (s.world.add x) (x :: (s.threads t).held) [])) x := by
    refine ledger_acquires ?_ setRefcnt_alive ?_ setRefcnt_slots ?_
    · rw [sweepsOf, sweepsOf, sweeps]
      rfl
    · rw [add, setRefcnt_refcnt, he]
    · rw [refsOf, refsOf, hr]
      rfl
  refine hv.recount (hv.balanced.acquire some ha) (by omega) .idle hd ?_
  intro p q hf
  rw [hf] at hr
  cases hr

lemma Valid.dec (top : s.threads t = ⟨held, .dec x :: rest⟩) (m : Answers) :
    Proceeds s t held (.dec x) rest m := by
  have hh : x ∈ refsOf s.world (s.threads t) := by
    rw [top]
    exact mem_append_right _ mem_cons_self
  obtain ⟨hm, idle, some, counted⟩ := hv.live hh
  have hr := hv.range x hm
  have he : toInt (s.world.refcnt x - 1) = s.world.refcnt x - 1 := toInt_small (by omega) (by omega)
  have here := hv.locals t
  rw [top] at here
  have all : ∀ i ∈ rest, Releasing i := by
    cases here with
    | releases all => exact fun i hi => all i (mem_cons_of_mem _ hi)
  have refcnt : (s.world.sub x).refcnt = update s.world.refcnt x (s.world.refcnt x - 1) := by
    rw [sub, setRefcnt_refcnt, he]
  have hd : Drops (ledger s) (ledger (s.set t (s.world.sub x) held
      ((if s.world.refcnt x = 0 then [x.released] else []) ++ rest))) x := by
    by_cases hl : s.world.refcnt x = 0
    · rw [if_pos hl]
      exact ledger_drops_last top hl hm idle setRefcnt_alive refcnt setRefcnt_slots
    · rw [if_neg hl]
      exact ledger_drops top hl setRefcnt_alive refcnt setRefcnt_slots
  have hc : Cheaper s.world (.dec x) (s.world.sub x)
      (if s.world.refcnt x = 0 then [x.released] else []) := by
    refine ⟨?_, ?_, cost_mono (fun p => by rw [sub, setRefcnt_svrlist]) (setRefcnt_table · |>.2)⟩
    · split
      · cases x <;> simp [Obj.released, Releasing]
      · simp
    · split
      · cases x <;> simp [Obj.released, cost, sub]
      · cases x <;> simp [cost]
  refine ⟨s.world.sub x, held, _, ?_, fun _ => hc, ?_⟩
  · simp only [run, access, if_pos hm]
    rfl
  · refine hv.recount (hv.balanced.drop some hd) (by omega) (.releases ?_)
      (fun u p q ho hf => hv.filled_apart hf ho hh) fun p q => by simp [top]
    intro i hi
    rcases mem_append.mp hi with new | old
    · exact hc.releasing i new
    · exact all i old

lemma Valid.free (top : s.threads t = ⟨held, .free x :: rest⟩) (m : Answers) :
    Proceeds s t held (.free x) rest m := by
  obtain ⟨hm, one, -⟩ := hv.dying (congrArg stack top) (mem_singleton_self x)
  have hh := hv.locals t
  rw [top] at hh
  refine ⟨{ s.world with alive := s.world.alive.erase x }, held, [], ?_,
    fun _ => ⟨by simp, by simp [cost], cost_mono (fun _ => Nat.le_refl _) fun _ => rfl⟩, ?_⟩
  · simp only [run, access, if_pos hm]
    rfl
  · have sweeps : 0 < (ledger s).sweepers x := by
      change 0 < freeing s x
      omega
    refine hv.set (hv.balanced.free sweeps (ledger_frees top (by omega) rfl rfl fun _ => rfl))
      (fun y hi => hv.range y (mem_of_mem_erase hi))
      (fun d hi => hv.datas d (mem_of_mem_erase hi)) ?_ (fun _ => rfl) (fun _ => rfl)
      (fun _ _ _ _ _ => rfl) (by simp [top]) fun q hi => mem_of_mem_erase hi
    cases hh with
    | releases all => exact .releases fun i hi => all i (mem_cons_of_mem _ hi)

/-- An object that is being freed hands on its pointers. -/
lemma Valid.sweep (top : s.threads t = ⟨held, i :: rest⟩) (sweeps : sweeping i = [x])
    (ha : w'.alive = s.world.alive) (hr : w'.refcnt = s.world.refcnt)
    (hd : w'.data = s.world.data) (table : w'.table = s.world.table)
    (he : ∀ y, y ≠ x → slots w' y = slots s.world y) (hc : Cheaper s.world i w' more)
    (hs : more.flatMap sweeping ~ [x]) (refs : more.flatMap (pending w') ~ pending s.world i) :
    (Releasing i → Cheaper s.world i w' more) ∧ Valid (s.set t w' held (more ++ rest)) := by
  have hh := hv.locals t
  rw [top] at hh
  have all : ∀ j ∈ i :: rest, Releasing j := by
    cases hh with
    | releases all => exact all
    | _ => cases sweeps
  refine ⟨fun _ => hc, hv.set (balanced_sweep hv.balanced top sweeps ha hr he hs refs) ?_ ?_
    (.releases ?_) (fun q => by rw [table]) (fun q => by rw [table]) (fun _ _ q _ _ => by rw [table]) ?_ ?_⟩
  · rw [ha, hr]
    exact hv.range
  · rw [ha, hd]
    exact hv.datas
  · intro j hi
    rcases mem_append.mp hi with new | old
    · exact hc.releasing j new
    · exact all j (mem_cons_of_mem _ old)
  · intro p q hf
    rw [top] at hf
    cases hf
    exact (all _ mem_cons_self).elim
  · intro q
    rw [ha]
    exact id

lemma Valid.dataServer (top : s.threads t = ⟨held, .dataServer d :: rest⟩) (m : Answers) :
    Proceeds s t held (.dataServer d) rest m := by
  have hm := (hv.dying (congrArg stack top) (mem_singleton_self (data d))).1
  cases hs : (s.world.data d).server with
  | none => exact absurd hs (hv.datas d hm)
  | some a =>
    refine ⟨s.world, held, [.dec (.server a), .free (.data d)], ?_, hv.sweep top rfl rfl rfl rfl rfl
      (fun _ _ => rfl) ⟨by simp [Releasing], by simp [cost], fun _ => Nat.le_refl _⟩ .rfl ?_⟩
    · simp only [run, access, if_pos hm, hs]
      rfl
    · simp [pending, slots, hs, List.reduceOption]

lemma Valid.eachServer (top : s.threads t = ⟨held, .eachServer p :: rest⟩) (m : Answers) :
    Proceeds s t held (.eachServer p) rest m := by
  have hm := (hv.dying (congrArg stack top) (mem_singleton_self (Obj.pool p))).1
  have linked : ∀ a ∈ (s.world.pool p).svrlist, server a ∈ s.world.alive := by
    intro a hi
    refine (hv.live (refs_of_top (congrArg stack top) ?_)).1
    exact List.reduceOption_mem_iff.mpr (mem_map_of_mem hi)
  cases svrlist : (s.world.pool p).svrlist with
  | nil =>
    refine ⟨s.world, held, [.free (.pool p)], ?_, hv.sweep top rfl rfl rfl rfl rfl (fun _ _ => rfl)
      ⟨by simp [Releasing], by simp [cost, svrlist], fun _ => Nat.le_refl _⟩ .rfl ?_⟩
    · simp only [run, access, if_pos hm, svrlist]
      rfl
    · simp [pending, slots, svrlist, List.reduceOption]
  | cons a more =>
    rw [svrlist] at linked
    refine ⟨relink s.world p a more false, held, [.dec (.server a), .eachServer p], ?_,
      hv.sweep top rfl rfl relink_refcnt rfl rfl relink_slots
        ⟨by simp [Releasing], ?_, cost_mono (fun b => ?_) fun _ => rfl⟩ .rfl ?_⟩
    · have next : (more.head?.forM fun next => s.world.access (.server next)) = .ok () := by
        cases more with
        | nil => rfl
        | cons b more => exact if_pos (linked b (by simp))
      simp only [run, access, if_pos hm, svrlist, if_pos (linked a mem_cons_self)]
      simp only [access] at next
      simp only [bind, Except.bind, next]
      rfl
    · simp [cost, svrlist, relink]
      omega
    · by_cases it : b = p <;> simp [it, svrlist, relink]
    · simp [pending, slots, svrlist, relink, List.reduceOption]

lemma Valid.eachData {i : Nat} (top : s.threads t = ⟨held, .eachData q i :: rest⟩) (m : Answers) :
    Proceeds s t held (.eachData q i) rest m := by
  obtain ⟨hm, -, none⟩ :=
    hv.dying (congrArg stack top) (mem_singleton_self (Obj.table q))
  have done := hv.sealed_of_dying hm none
  by_cases more : i < (s.world.table q).nserver
  · have hl : i < (s.world.table q).servers.length := done.nserver ▸ more
    cases he : (s.world.table q).servers[i] with
    | none => exact absurd (he ▸ getElem_mem hl) done.entries
    | some d =>
      have hs : pending s.world (.eachData q i) = .data d :: pending s.world (.eachData q (i + 1)) := by
        simp only [pending, slots, ← map_drop]
        rw [drop_eq_getElem_cons hl, he]
        rfl
      have hd : data d ∈ s.world.alive := by
        refine (hv.live (refs_of_top (congrArg stack top) ?_)).1
        rw [hs]
        exact mem_cons_self
      refine ⟨s.world, held, [.dec (.data d), .eachData q (i + 1)], ?_, hv.sweep top rfl rfl rfl rfl rfl
        (fun _ _ => rfl) ⟨by simp [Releasing], ?_, fun _ => Nat.le_refl _⟩ .rfl ?_⟩
      · simp only [run, access, if_pos hm, if_pos more, getElem?_eq_getElem hl,
          he, Option.join_some, if_pos hd]
        rfl
      · simp [cost]
        omega
      · rw [hs]
        simp [pending]
  · have hb : (s.world.table q).servers.length ≤ i := done.nserver ▸ Nat.le_of_not_lt more
    refine ⟨s.world, held, [.free (.table q)], ?_, hv.sweep top rfl rfl rfl rfl rfl (fun _ _ => rfl)
      ⟨by simp [Releasing], by simp [cost]; omega, fun _ => Nat.le_refl _⟩ .rfl ?_⟩
    · simp only [run, access, if_pos hm, if_neg more]
      rfl
    · simp only [pending, slots, ← map_drop, drop_eq_nil_of_le hb]
      rfl

lemma Valid.pick (top : s.threads t = ⟨held, .pick q :: rest⟩)
    (rrpos : 0 ≤ (s.world.table q).rrpos) (some : 0 < (s.world.table q).nserver) (m : Answers) :
    Proceeds s t held (.pick q) rest m := by
  have here := hv.locals t
  rw [top] at here
  cases here with
  | releases all => exact (all _ mem_cons_self).elim
  | picks hh =>
    have hm := (hv.live_held (t := t) (by rw [top]; exact hh)).1
    let table := { s.world.table q with rrpos := toInt ((s.world.table q).rrpos + 1) }
    refine ⟨s.world.setTable q table, held, [.grab q (s.world.table q).rrpos], ?_, (·.elim), ?_⟩
    · simp only [run, access, if_pos hm]
      rfl
    have hs : ∀ b, ((s.world.setTable q table).table b).servers = (s.world.table b).servers := by
      intro b
      by_cases it : b = q <;> simp [setTable, it, table]
    have hn : ∀ b, ((s.world.setTable q table).table b).nserver = (s.world.table b).nserver := by
      intro b
      by_cases it : b = q <;> simp [setTable, it, table]
    have hr : (s.world.setTable q table).refcnt = s.world.refcnt := setTable_refcnt rfl
    refine hv.set (balanced_move ?_ hv.balanced rfl hr (setTable_slots rfl) ?_)
      (hr ▸ hv.range) hv.datas (.grabs hh rrpos (hn q ▸ some)) hs hn
      (fun _ _ b _ _ => congrFun hr (.table b)) (by simp [top]) fun _ => id
    · rw [top]
      rfl
    · rw [top]
      rfl

lemma Valid.grab {pos : Int} (top : s.threads t = ⟨held, .grab q pos :: rest⟩)
    (few : ∀ d, (s.world.table q).servers[(pos.tmod (s.world.table q).nserver).toNat]? = some (some d) →
      holders s (.data d) < 2 ^ 31) (m : Answers) :
    Proceeds s t held (.grab q pos) rest m := by
  have here := hv.locals t
  rw [top] at here
  cases here with
  | releases all => exact (all _ mem_cons_self).elim
  | grabs hh hn nserver =>
    have hh' : Obj.table q ∈ (s.threads t).held := by rw [top]; exact hh
    have live := hv.live_held hh'
    have hm := live.member
    have hd := hv.sealed_of_held hh'
    have low : 0 ≤ pos.tmod (s.world.table q).nserver := Int.tmod_nonneg _ hn
    have hhi : pos.tmod (s.world.table q).nserver < (s.world.table q).nserver :=
      Int.tmod_lt_of_pos _ (by omega)
    have hl : (pos.tmod (s.world.table q).nserver).toNat < (s.world.table q).servers.length := by
      rw [← hd.nserver]
      omega
    cases he : (s.world.table q).servers[(pos.tmod (s.world.table q).nserver).toNat] with
    | none => exact absurd (he ▸ getElem_mem hl) hd.entries
    | some d =>
      have hi : some d ∈ (s.world.table q).servers := he ▸ getElem_mem hl
      have liveData := hv.live_slot live (mem_map_of_mem (f := Option.map data) hi)
      refine ⟨s.world.add (.data d), .data d :: held, [], ?_, (·.elim), ?_⟩
      · simp only [run, access, if_pos hm, if_neg (Nat.pos_iff_ne_zero.mp nserver),
          if_neg (Int.not_lt.mpr low), getElem?_eq_getElem hl, he, Option.join_some,
          if_pos liveData.member]
        rfl
      · have picked := few d (by rw [getElem?_eq_getElem hl, he])
        have ht := hv.acquire (t := t) liveData picked (by rw [top]; rfl) (by rw [top]; rfl)
          fun _ _ _ _ _ => Obj.noConfusion
        rwa [top] at ht

/-- The steps that make a table, which no other thread knows. -/
lemma Valid.update_table (hb : Balanced (ledger (s.set t w' held' stack')))
    (hr : ∀ x ∈ w'.alive, w'.refcnt x < 2 ^ 31)
    (datas : ∀ d, .data d ∈ w'.alive → (w'.data d).server ≠ none)
    (mine : Local w' ⟨held', stack'⟩) (he : ∀ b, b ≠ q → w'.table b = s.world.table b)
    (hd : ∀ u, u ≠ t → .table q ∉ refsOf s.world (s.threads u))
    (done : Sealed w' q ∨ ∃ p, stack' = [.fill p q]) (idle : ∀ p b, (s.threads t).stack = [.fill p b] → b = q)
    (old : ∀ b, b ≠ q → .table b ∈ w'.alive → .table b ∈ s.world.alive) :
    Valid (s.set t w' held' stack') := by
  refine ⟨hb, hr, datas, ?_, ?_⟩
  · intro u
    by_cases it : u = t
    · rw [it, set_self]
      exact mine
    · rw [set_other it]
      refine (hv.locals u).frame (fun b hh => ?_) fun p b hf => ?_
      · rw [set_world, he b]
        rintro rfl
        exact hd u it (mem_append_left _ hh)
      · rw [set_world, he b]
        · exact ⟨rfl, rfl⟩
        rintro rfl
        exact hd u it (refs_of_filling hf)
  · intro b hm
    by_cases it : b = q
    · subst it
      rcases done with done | ⟨p, hf⟩
      · exact .inl done
      · exact .inr ⟨t, p, by rw [set_self]; exact hf⟩
    · rcases hv.tables b (old b it hm) with hs | ⟨u, p, hf⟩
      · refine .inl ⟨?_, ?_⟩
        · rw [set_world, he b it]
          exact hs.entries
        · rw [set_world, he b it]
          exact hs.nserver
      · have ho : u ≠ t := by
          rintro rfl
          exact it (idle p b hf)
        exact .inr ⟨u, p, by rw [set_other ho]; exact hf⟩

/-- `calloc` of a table; it may fail. -/
lemma Valid.allocTable (top : s.threads t = ⟨held, .allocTable p :: rest⟩) {m : Answers}
    (hf : ∀ q ∈ m.table, .table q ∉ s.world.alive) : Proceeds s t held (.allocTable p) rest m := by
  have here := hv.locals t
  rw [top] at here
  cases here with
  | releases all => exact (all _ mem_cons_self).elim
  | allocs hh =>
    cases ha : m.table with
    | none =>
      refine ⟨s.world, held, [], ?_, (·.elim), ?_⟩
      · simp only [run, ha]
        rfl
      · refine hv.move .idle ?_ ?_ (by simp [top])
        · rw [top]
          rfl
        · rw [top]
          rfl
    | some q =>
      have hf : Obj.table q ∉ s.world.alive := hf q ha
      have hu := (hv.balanced.gone hf).1
      let table : SvrpoolData := { servers := [], nserver := 0, gcd := 0, rrpos := 0, refcnt := 0 }
      let w' : World := { s.world.setTable q table with alive := insert (.table q) s.world.alive }
      refine ⟨w', held, [.fill p q], ?_, (·.elim), ?_⟩
      · simp only [run, ha]
        rfl
      have self : w'.table q = table := update_self ..
      have ho : ∀ b, b ≠ q → w'.table b = s.world.table b :=
        fun b other => update_of_ne other ..
      have refcnt : w'.refcnt = update s.world.refcnt (.table q) 0 := by
        funext y
        cases y with
        | table b =>
          by_cases it : b = q
          · subst it
            rw [update_self]
            exact congrArg SvrpoolData.refcnt self
          · rw [update_of_ne (by simpa using it)]
            exact congrArg SvrpoolData.refcnt (ho b it)
        | _ => rfl
      have hb : Balanced (ledger (s.set t w' held [.fill p q])) := by
        refine balanced_alloc (x := .table q) hv.balanced rfl rfl ?_ hf rfl refcnt ?_ ?_ ?_
        · simp [slots, self, table, ledger, List.reduceOption]
        · intro y other
          cases y with
          | table b => simp only [slots, ho b fun it => other (it ▸ rfl)]
          | _ => rfl
        · rw [top]
          rfl
        · rw [top]
          simp [refsOf, pending, perm_append_singleton]
      refine hv.update_table (q := q) hb ?_ ?_
        (.fills hh ?_ (congrArg SvrpoolData.refcnt self)) ho ?_ (.inr ⟨p, rfl⟩) ?_ ?_
      · intro x hm
        rw [refcnt]
        by_cases it : x = .table q
        · rw [it, update_self]
          decide
        · rw [update_of_ne it]
          exact hv.range x ((mem_insert.mp hm).resolve_left it)
      · intro d hm
        exact hv.datas d ((mem_insert.mp hm).resolve_left (by simp))
      · rw [self]
        exact not_mem_nil
      · intro u _ hh
        have some : 0 < holders s (.table q) := total_of_thread hh
        have none : holders s (.table q) = 0 := hu
        omega
      · simp [top]
      · intro b other hm
        refine (mem_insert.mp hm).resolve_left ?_
        rintro ⟨⟩
        exact other rfl

/-- The table is complete and goes to the caller. -/
lemma Valid.fill_done (top : s.threads t = ⟨held, [.fill p q]⟩)
    (all : (s.world.pool p).svrlist[(s.world.table q).servers.length]? = none) (m : Answers) :
    Proceeds s t held (.fill p q) [] m := by
  have hf : (s.threads t).stack = [.fill p q] := congrArg stack top
  obtain ⟨hh, he, ha⟩ := (hv.locals t).fill hf
  have hp := (hv.live_held hh).member
  have hm := (hv.live (refs_of_filling hf)).member
  obtain ⟨weights, read⟩ := hv.weights hf he
  let table := { s.world.table q with
    nserver := (s.world.table q).servers.length, gcd := UInt32.ofInt (calcGcd weights) }
  refine ⟨s.world.setTable q table, .table q :: held, [], ?_, (·.elim), ?_⟩
  · simp only [run, access, if_pos hp, if_pos hm, all, read]
    rfl
  have self : (s.world.setTable q table).table q = table := update_self ..
  have hr : (s.world.setTable q table).refcnt = s.world.refcnt := setTable_refcnt rfl
  refine hv.update_table (q := q)
    (balanced_move ?_ hv.balanced rfl hr (setTable_slots rfl) ?_) (hr ▸ hv.range)
    hv.datas .idle (fun b ho => update_of_ne ho ..) ?_ (.inl ⟨?_, ?_⟩) ?_
    fun _ _ => id
  · rw [top]
    rfl
  · rw [top]
    simpa [refsOf, pending] using (perm_append_singleton (Obj.table q) held).symm
  · exact fun u ho refs => hv.filled_apart hf (Ne.symm ho) refs rfl
  · rw [self]
    exact he
  · rw [self]
  · intro p' b hf
    rw [top] at hf
    cases hf
    rfl

/-- One more server of the pool: its data is allocated and it is cloned. -/
lemma Valid.fill_next (top : s.threads t = ⟨held, [.fill p q]⟩) {a d : Nat}
    (next : (s.world.pool p).svrlist[(s.world.table q).servers.length]? = some a) {m : Answers}
    (data : m.data = some d) (fresh : .data d ∉ s.world.alive)
    (ssl : (s.world.server a).ssl = true → m.sslctx = true)
    (hf : (s.world.table q).servers.length < maxServer) (few : holders s (.server a) < 2 ^ 31) :
    Proceeds s t held (.fill p q) [] m := by
  have fills : (s.threads t).stack = [.fill p q] := congrArg stack top
  obtain ⟨hh, entries, ha⟩ := (hv.locals t).fill fills
  have pool := hv.live_held hh
  have poolAlive := pool.member
  obtain ⟨hm, idle, -, -⟩ := hv.live (refs_of_filling fills)
  have hp : some (server a) ∈ slots s.world (.pool p) :=
    mem_map_of_mem (f := fun s => some (server s)) (mem_of_getElem? next)
  obtain ⟨hs, -, some, counted⟩ := hv.live_slot pool hp
  have hex : toInt (s.world.refcnt (.server a) + 1) = s.world.refcnt (.server a) + 1 :=
    toInt_small (by omega) (by omega)
  let table := { s.world.table q with servers := (s.world.table q).servers ++ [Option.some d] }
  -- the data is there before it is put into the table
  let made : World := { s.world.add (.server a) with
    alive := insert (.data d) s.world.alive
    data := update s.world.data d { server := Option.some a, refcnt := 0 } }
  let w' : World := made.setTable q table
  have ctx : ((s.world.server a).ssl && !m.sslctx) = false := by
    cases hu : (s.world.server a).ssl with
    | false => rfl
    | true => rw [ssl hu]; rfl
  refine ⟨w', held, [.fill p q], ?_, (·.elim), ?_⟩
  · have he : ((s.world.add (.server a)).server a).ssl = (s.world.server a).ssl := by
      simp [add, setRefcnt]
    have hl : ((s.world.add (.server a)).table q).servers.length < maxServer := hf
    simp only [run, access, if_pos poolAlive, if_pos hm, next, data,
      if_pos hs, bind, Except.bind, he, ctx, World.putEntry, if_pos hl]
    rfl
  have self : w'.table q = table := update_self ..
  have ht : ∀ b, b ≠ q → w'.table b = s.world.table b :=
    fun b ho => update_of_ne ho ..
  have refcnt : w'.refcnt = made.refcnt := setTable_refcnt rfl
  have madeRefcnt : made.refcnt = update
      (update s.world.refcnt (.server a) (s.world.refcnt (.server a) + 1)) (.data d) 0 := by
    rw [← hex, ← setRefcnt_refcnt]
    funext y
    cases y with
    | data b => by_cases it : b = d <;> simp [World.refcnt, setRefcnt, made, it]
    | _ => rfl
  let counted : Ledger Obj :=
    { alive := s.world.alive
      count := update s.world.refcnt (.server a) (s.world.refcnt (.server a) + 1)
      holders := fun y => holders s y + [server a].count y
      sweepers := freeing s }
  have first : Balanced (ledger (s.set t made (.data d :: held) [.fill p q])) := by
    refine balanced_alloc (l := counted) (x := .data d)
      (hv.balanced.acquire some ⟨rfl, rfl, fun _ => rfl, fun _ => rfl⟩) rfl rfl ?_ fresh rfl madeRefcnt ?_ ?_ ?_
    · simp [slots, made, counted, List.reduceOption]
    · intro y ho
      cases y with
      | data b =>
        have ho : b ≠ d := fun it => ho (it ▸ rfl)
        simp [slots, made, ho]
      | _ => rfl
    · rw [top]
      rfl
    · rw [top]
      rfl
  have hb : Balanced (ledger (s.set t w' held [.fill p q])) := by
    rw [← set_set]
    refine balanced_attach (x := .data d) (a := .table q) first (Finset.mem_insert_of_mem hm) ?_ rfl
      refcnt ?_ ?_ ?_ ?_
    · rw [freeing_same (by rw [top]; rfl)]
      exact idle
    · simp [slots, self, table, made, add, setRefcnt]
    · intro y ho
      cases y with
      | table b => simp only [slots, ht b fun it => ho (it ▸ rfl)]; rfl
      | _ => rfl
    · rw [set_self]
      rfl
    · rw [set_self]
      rfl
  refine hv.update_table (q := q) hb ?_ ?_ (.fills ?_ ?_ ?_) ht ?_ (.inr ⟨p, rfl⟩) ?_ ?_
  · intro x hi
    rw [refcnt, madeRefcnt]
    by_cases it : x = .data d
    · rw [it, update_self]
      decide
    · have old := (mem_insert.mp hi).resolve_left it
      rw [update_of_ne it]
      by_cases it : x = .server a
      · rw [it, update_self]
        omega
      · rw [update_of_ne it]
        exact hv.range x old
  · intro b hi
    by_cases it : b = d
    · subst it
      simp [w', made, setTable]
    · have old := (mem_insert.mp hi).resolve_left (by simpa using it)
      simpa [w', made, setTable, it] using hv.datas b old
  · rw [top] at hh
    exact hh
  · rw [self]
    simpa [table] using entries
  · rw [self]
    exact ha
  · exact fun u ho hr => hv.filled_apart fills (Ne.symm ho) hr rfl
  · intro p' b fills
    rw [top] at fills
    cases fills
    rfl
  · intro b _ hi
    exact (mem_insert.mp hi).resolve_left (by simp)

/-! ## The calls -/

section

variable (idle : (s.threads t).stack = [])
include idle

lemma Valid.call (hm : Local s.world ⟨held', stack'⟩) (sweeps : stack'.flatMap sweeping = [])
    (hr : refsOf s.world ⟨held', stack'⟩ ~ (s.threads t).held) : Valid (s.set t s.world held' stack') := by
  refine hv.move hm ?_ ?_ (by simp [idle])
  · rw [sweepsOf, sweepsOf, sweeps, idle]
    rfl
  · rwa [refsOf.eq_1 _ (s.threads t), idle, flatMap_nil, append_nil]

lemma Valid.clone (hh : x ∈ (s.threads t).held) (few : holders s x < 2 ^ 31) :
    Valid (s.set t (s.world.add x) (x :: (s.threads t).held) []) := by
  refine hv.acquire (hv.live_held hh) few ?_ ?_ ?_
  · rw [idle]
    rfl
  · rw [idle]
    rfl
  · exact fun u p q ho hf => hv.filled_apart hf ho (mem_append_left _ hh)

lemma Valid.release (hh : x ∈ (s.threads t).held) :
    Valid (s.set t s.world ((s.threads t).held.erase x) x.freeCall) := by
  have hc : x.freeCall = [.dec x] := by
    cases x
    all_goals rfl
  rw [hc]
  refine hv.call idle (.releases ?_) rfl ?_
  · intro i hi
    rw [mem_singleton.mp hi]
    trivial
  · exact (perm_append_singleton _ _).trans (perm_cons_erase hh).symm

/-- A new object without pointers belongs to the thread. -/
lemma Valid.alloc (hf : x ∉ s.world.alive) (ha : w'.alive = insert x s.world.alive)
    (hr : w'.refcnt = update s.world.refcnt x 0) (hn : slots w' x = [])
    (he : ∀ y, y ≠ x → slots w' y = slots s.world y) (hd : w'.data = s.world.data)
    (table : w'.table = s.world.table) (noData : ∀ d, x ≠ .data d) (noTable : ∀ q, x ≠ .table q) :
    Valid (s.set t w' (x :: (s.threads t).held) []) := by
  have hb : Balanced (ledger (s.set t w' (x :: (s.threads t).held) [])) := by
    refine balanced_alloc hv.balanced rfl rfl ?_ hf ha hr he ?_ ?_
    · simp [hn, ledger, List.reduceOption]
    · rw [sweepsOf, sweepsOf, idle]
    · rw [refsOf, refsOf, idle]
      rfl
  refine hv.set hb ?_ ?_ .idle (fun _ => by rw [table])
    (fun _ => by rw [table]) (fun _ _ _ _ _ => by rw [table]) (by simp [idle]) ?_
  · intro y hm
    rw [ha] at hm
    rw [hr]
    by_cases it : y = x
    · rw [it, update_self]
      decide
    · rw [update_of_ne it]
      exact hv.range y ((mem_insert.mp hm).resolve_left it)
  · intro d hm
    rw [ha] at hm
    rw [hd]
    exact hv.datas d ((mem_insert.mp hm).resolve_left (noData d).symm)
  · intro q hm
    rw [ha] at hm
    exact (mem_insert.mp hm).resolve_left (noTable q).symm

lemma Valid.addServer {a : Nat} (holdsPool : .pool p ∈ (s.threads t).held)
    (hh : .server a ∈ (s.threads t).held) :
    Valid (s.set t (relink s.world p a ((s.world.pool p).svrlist ++ [a]) true)
      ((s.threads t).held.erase (.server a)) []) := by
  obtain ⟨hm, hl, -, -⟩ := hv.live_held holdsPool
  refine hv.set (balanced_attach (x := .server a) hv.balanced hm hl rfl relink_refcnt ?_
    relink_slots ?_ ?_) (by rw [relink_refcnt]; exact hv.range) hv.datas .idle (fun _ => rfl) (fun _ => rfl)
    (fun _ _ _ _ _ => rfl) (by simp [idle]) fun _ => id
  · simp [slots, relink]
  · rw [sweepsOf, sweepsOf, idle]
  · rw [refsOf.eq_1 _ (s.threads t), idle]
    exact refsOf_erase _ _ hh

/-- A thread gives one of its references to another one, which may be in a call. -/
lemma Valid.pass (hh : x ∈ (s.threads t).held) (hd : t ≠ u) :
    Valid ((s.set t s.world ((s.threads t).held.erase x) []).set u s.world
      (x :: (s.threads u).held) (s.threads u).stack) := by
  have ho : (s.set t s.world ((s.threads t).held.erase x) []).threads u = s.threads u :=
    set_other hd.symm
  have givesSweeps : sweepsOf ⟨(s.threads t).held.erase x, []⟩ ~ sweepsOf (s.threads t) := by
    rw [sweepsOf, sweepsOf, idle]
  have takesSweeps : sweepsOf ⟨x :: (s.threads u).held, (s.threads u).stack⟩ ~
      sweepsOf ((s.set t s.world ((s.threads t).held.erase x) []).threads u) := by
    rw [ho]
    rfl
  have hu : ledger ((s.set t s.world ((s.threads t).held.erase x) []).set u s.world
      (x :: (s.threads u).held) (s.threads u).stack) = ledger s := by
    refine Ledger.ext rfl rfl (funext fun y => ?_) ?_
    · have hg : holders (s.set t s.world ((s.threads t).held.erase x) []) y + _ = _ :=
        holders_kept givesSweeps rfl (fun _ => rfl) y
      have takes : holders ((s.set t s.world ((s.threads t).held.erase x) []).set u s.world
          (x :: (s.threads u).held) (s.threads u).stack) y + _ = _ :=
        holders_kept takesSweeps rfl (fun _ => rfl) y
      have left := count_of_cons (refsOf_erase s.world [] hh).symm y
      have hw : refsOf s.world (s.threads t) = refsOf s.world ⟨(s.threads t).held, []⟩ := by
        simp only [refsOf, idle]
      have ht : refsOf s.world ⟨x :: (s.threads u).held, (s.threads u).stack⟩ ~
        x :: refsOf s.world (s.threads u) := .rfl
      rw [ho, set_world, count_of_cons ht] at takes
      rw [hw] at hg
      change holders _ y = holders s y
      omega
    · change freeing _ = freeing s
      rw [freeing_kept takesSweeps, freeing_kept givesSweeps]
  have hc : ∀ v, (((s.set t s.world ((s.threads t).held.erase x) []).set u s.world
      (x :: (s.threads u).held) (s.threads u).stack).threads v).stack = (s.threads v).stack := by
    intro v
    by_cases hs : v = u
    · rw [hs, set_self]
    · rw [set_other hs]
      by_cases hf : v = t
      · rw [hf, set_self, idle]
      · rw [set_other hf]
  refine ⟨hu ▸ hv.balanced, hv.range, hv.datas, ?_, ?_⟩
  · intro v
    by_cases hs : v = u
    · rw [hs, set_self]
      exact (hv.locals u).also x
    · rw [set_other hs]
      by_cases hf : v = t
      · rw [hf, set_self]
        exact .idle
      · rw [set_other hf]
        exact hv.locals v
  · intro q hm
    rcases hv.tables q hm with done | ⟨v, p, fills⟩
    · exact .inl done
    · exact .inr ⟨v, p, (hc v).trans fills⟩

end

/-! ## Every step -/

/-- The next step of a thread. -/
lemma Valid.runs (top : s.threads t = ⟨held, i :: rest⟩) {m : Answers}
    (hh : Harmless s (.run t m)) (freshTable : ∀ q ∈ m.table, .table q ∉ s.world.alive)
    (freshData : ∀ d ∈ m.data, .data d ∉ s.world.alive) : Proceeds s t held i rest m := by
  have head : (s.threads t).stack.head? = some i := by rw [top]; rfl
  have here := hv.locals t
  rw [top] at here
  simp only [Harmless, head] at hh
  cases i with
  | dec x => exact hv.dec top m
  | free x => exact hv.free top m
  | dataServer d => exact hv.dataServer top m
  | eachServer p => exact hv.eachServer top m
  | eachData q i => exact hv.eachData top m
  | pick q => exact hv.pick top hh.1 hh.2 m
  | grab q pos => exact hv.grab top hh m
  | allocTable p => exact hv.allocTable top freshTable
  | fill p q =>
    obtain rfl : rest = [] := by
      cases here with
      | releases all => exact (all _ mem_cons_self).elim
      | fills => rfl
    cases next : (s.world.pool p).svrlist[(s.world.table q).servers.length]? with
    | none => exact hv.fill_done top next m
    | some a =>
      obtain ⟨ha, ssl, hf, few⟩ := hh a next
      obtain ⟨d, hd⟩ := Option.ne_none_iff_exists'.mp ha
      exact hv.fill_next top next hd (freshData d hd) ssl hf few
  | putNull q =>
    cases here with
    | releases all => exact (all _ mem_cons_self).elim

lemma Valid.step {event : Event T} (harmless : Harmless s event)
    {outcome : Except Fault (State T)} (hs : s.step event = some outcome) :
    ∃ s', outcome = .ok s' ∧ Valid s' := by
  cases event with
  | serverAlloc t a weight ssl =>
    obtain ⟨⟨idle, hf⟩, rfl⟩ := of_guard hs
    refine ⟨_, rfl, hv.alloc idle hf rfl ?_ rfl (fun y _ => ?_) rfl rfl (by simp) (by simp)⟩
    · funext y
      cases y with
      | server b => by_cases it : b = a <;> simp [World.refcnt, it]
      | _ => rfl
    · cases y
      all_goals rfl
  | svrpoolAlloc t p =>
    obtain ⟨⟨idle, hf⟩, rfl⟩ := of_guard hs
    refine ⟨_, rfl, hv.alloc idle hf rfl ?_ ?_ (fun y ho => ?_) rfl rfl (by simp) (by simp)⟩
    · funext y
      cases y with
      | pool b => by_cases it : b = p <;> simp [World.refcnt, it]
      | _ => rfl
    · simp [slots]
    · cases y with
      | pool b =>
        have ho : b ≠ p := fun it => ho (it ▸ rfl)
        simp [slots, ho]
      | _ => rfl
  | addServer t p a =>
    obtain ⟨⟨idle, holdsPool, hh, -⟩, rfl⟩ := of_guard hs
    exact ⟨_, rfl, hv.addServer idle holdsPool hh⟩
  | clone t x =>
    obtain ⟨⟨idle, hh⟩, rfl⟩ := of_guard hs
    refine ⟨_, ?_, hv.clone idle hh harmless⟩
    simp only [access, if_pos (hv.live_held hh).member]
    rfl
  | release t x =>
    obtain ⟨⟨idle, hh⟩, rfl⟩ := of_guard hs
    exact ⟨_, rfl, hv.release idle hh⟩
  | getRpServer t q =>
    obtain ⟨⟨idle, hh⟩, rfl⟩ := of_guard hs
    exact ⟨_, rfl, hv.call idle (.picks hh) rfl (by simp [refsOf, pending])⟩
  | allocData t p =>
    obtain ⟨⟨idle, hh⟩, rfl⟩ := of_guard hs
    exact ⟨_, rfl, hv.call idle (.allocs hh) rfl (by simp [refsOf, pending])⟩
  | pass t u x =>
    obtain ⟨⟨idle, hh, hd⟩, rfl⟩ := of_guard hs
    exact ⟨_, rfl, hv.pass idle hh hd⟩
  | run t m =>
    cases hc : (s.threads t).stack with
    | nil =>
      simp only [State.step, hc] at hs
      cases hs
    | cons i rest =>
      simp only [State.step, hc, Option.ite_none_right_eq_some, Option.some.injEq] at hs
      obtain ⟨⟨freshTable, freshData⟩, rfl⟩ := hs
      have top : s.threads t = ⟨(s.threads t).held, i :: rest⟩ := by rw [← hc]
      obtain ⟨w', held', more, ran, -, hv'⟩ := hv.runs top harmless freshTable freshData
      exact ⟨_, by rw [ran]; rfl, hv'⟩

end

/-! ## Who frees an object gets to the end of it -/

/-- No allocator is called. -/
def noAnswers : Answers := { table := none, data := none, sslctx := false }

lemma noAnswers_fresh : (∀ q ∈ noAnswers.table, Obj.table q ∉ w.alive) ∧
    ∀ d ∈ noAnswers.data, data d ∉ w.alive := by
  constructor
  · intro q none
    cases none
  · intro d none
    cases none

omit [Fintype T] in
lemma step_run (hc : (s.threads t).stack = i :: rest)
    (ran : i.run s.world (s.threads t).held noAnswers = .ok (w', held', more)) :
    s.step (.run t noAnswers) = some (.ok (s.set t w' held' (more ++ rest))) := by
  simp only [State.step, hc, ran, if_pos (noAnswers_fresh)]
  rfl

lemma Valid.finishes (n : Nat) (hv : Valid s) (all : ∀ i ∈ (s.threads t).stack, Releasing i)
    (hf : ((s.threads t).stack.map (cost s.world)).sum ≤ n) : Finishes t s := by
  induction n generalizing s with
  | zero =>
    cases hc : (s.threads t).stack with
    | nil => exact .idle hc
    | cons i rest =>
      rw [hc] at all hf
      have hp : 0 < cost s.world i := by
        cases i with
        | dec x => cases x <;> simp [cost]
        | putNull | pick | grab | allocTable | fill => exact (all _ mem_cons_self).elim
        | _ => simp [cost]
      rw [map_cons, sum_cons] at hf
      omega
  | succ n ih =>
    cases hc : (s.threads t).stack with
    | nil => exact .idle hc
    | cons i rest =>
      have top : s.threads t = ⟨(s.threads t).held, i :: rest⟩ := by rw [← hc]
      rw [hc] at all hf
      have hr := all i mem_cons_self
      have hh : Harmless s (.run t noAnswers) := by
        simp only [Harmless, hc, head?_cons]
        cases i with
        | putNull | pick | grab | allocTable | fill => exact hr.elim
        | _ => trivial
      obtain ⟨freshTable, freshData⟩ := noAnswers_fresh
      obtain ⟨w', held', more, ran, cheaper, hv'⟩ := hv.runs top hh freshTable freshData
      obtain ⟨released, less, hm⟩ := cheaper hr
      refine .step noAnswers (step_run hc ran) (ih hv' ?_ ?_)
      · rw [set_self]
        intro j hi
        rcases mem_append.mp hi with new | old
        · exact released j new
        · exact all j (mem_cons_of_mem _ old)
      · have hl : (rest.map (cost w')).sum ≤ (rest.map (cost s.world)).sum :=
          sum_le_sum fun j _ => hm j
        rw [map_cons, sum_cons] at hf
        rw [set_self, set_world, map_append, sum_append]
        omega

end

/-! ## Runs -/

section

variable {T : Type} [Fintype T] [DecidableEq T] {s : State T}

lemma Valid.right (hv : Valid s) : Right Harmless s where
  accounted := hv.accounted
  sound event fault hh stepped := by
    obtain ⟨s', ok, -⟩ := hv.step hh stepped
    cases ok
  finishes t all := hv.finishes _ all (Nat.le_refl _)

/-- Any number of threads, in any order of their steps. -/
theorem references_right (reached : Reaches Harmless (State.start T) s) : Right Harmless s := by
  have hv : Valid s := by
    induction reached with
    | start => exact start_valid
    | step event hb ok stepped ih =>
      obtain ⟨s', hs, hv⟩ := ih.step ok stepped
      cases hs
      exact hv
  exact hv.right

end

/-- A thread makes a pool with a server, fills the table of the pool and takes the server from it,
which it gives to the other thread. -/
theorem references_right_two : ∃ s : State (Fin 2), Reaches Harmless (State.start (Fin 2)) s ∧
    (s.threads 1).held = [.data 9] ∧ (s.world.table 5).servers = [some 9] ∧
    s.world.refcnt (.data 9) = 1 ∧ Right Harmless s := by
  have server : Reaches Harmless (State.start (Fin 2)) _ := .step (.serverAlloc 0 7 1 false) .start trivial rfl
  have pool : Reaches Harmless (State.start (Fin 2)) _ := .step (.svrpoolAlloc 0 3) server trivial rfl
  have linked : Reaches Harmless (State.start (Fin 2)) _ := .step (.addServer 0 3 7) pool trivial rfl
  have called : Reaches Harmless (State.start (Fin 2)) _ := .step (.allocData 0 3) linked trivial rfl
  have table : Reaches Harmless (State.start (Fin 2)) _ :=
    .step (.run 0 ⟨some 5, none, false⟩) called trivial rfl
  have entry : Reaches Harmless (State.start (Fin 2)) _ := .step (.run 0 ⟨none, some 9, false⟩) table
    (fun a isNext => by
      cases isNext
      exact ⟨by decide, by decide, by decide, by decide⟩) rfl
  have filled : Reaches Harmless (State.start (Fin 2)) _ :=
    .step (.run 0 noAnswers) entry (fun a isNext => by cases isNext) rfl
  have asked : Reaches Harmless (State.start (Fin 2)) _ := .step (.getRpServer 0 5) filled trivial rfl
  have picked : Reaches Harmless (State.start (Fin 2)) _ :=
    .step (.run 0 noAnswers) asked ⟨by decide, by decide⟩ rfl
  have grabbed : Reaches Harmless (State.start (Fin 2)) _ :=
    .step (.run 0 noAnswers) picked (fun d isPicked => by cases isPicked; decide) rfl
  have passed : Reaches Harmless (State.start (Fin 2)) _ := .step (.pass 0 1 (.data 9)) grabbed trivial rfl
  exact ⟨_, passed, rfl, rfl, by decide, references_right passed⟩

/-! ## The round robin counter -/

lemma Reaches.trans {T : Type} [DecidableEq T] {allowed : State T → Event T → Prop}
    {s1 s2 s3 : State T} (hf : Reaches allowed s1 s2) (hs : Reaches allowed s2 s3) :
    Reaches allowed s1 s3 := by
  induction hs with
  | start => exact hf
  | step event hb ok stepped ih => exact .step event ih ok stepped

/-- A thread with a table of three servers, whose counter is `n`. -/
structure Turning (s : State Unit) (n : Int) : Prop where
  idle : (s.threads ()).stack = []
  holds : .table 0 ∈ (s.threads ()).held
  servers : (s.world.table 0).servers = [some 0, some 1, some 2]
  nserver : (s.world.table 0).nserver = 3
  rrpos : (s.world.table 0).rrpos = n
  table : .table 0 ∈ s.world.alive
  datas : ∀ d < 3, .data d ∈ s.world.alive

variable {s : State Unit}

/-- `svrpool_get_rp_server` up to the choice of the server. -/
lemma Turning.picked (ht : Turning s n) : ∃ s', Reaches (fun _ _ => True) s s' ∧
    s'.threads () = ⟨(s.threads ()).held, [.grab 0 n]⟩ ∧
    s'.world = s.world.setTable 0 { s.world.table 0 with rrpos := toInt (n + 1) } := by
  let called := s.set () s.world (s.threads ()).held [.pick 0]
  have hc : s.step (.getRpServer () 0) = some (.ok called) := if_pos ⟨ht.idle, ht.holds⟩
  have hp : (pick 0).run s.world (s.threads ()).held noAnswers =
      .ok (s.world.setTable 0 { s.world.table 0 with rrpos := toInt (n + 1) }, (s.threads ()).held,
        [.grab 0 n]) := by
    simp only [run, access, if_pos ht.table, ht.rrpos]
    rfl
  have ran := step_run (s := called) (t := ()) (by rw [set_self]) hp
  refine ⟨_, .step _ (.step _ .start trivial hc) trivial ran, ?_, rfl⟩
  rw [set_self]
  rfl

/-- A server is taken, and kept. -/
lemma Turning.lap (ht : Turning s n) (low : 0 ≤ n) :
    ∃ s', Reaches (fun _ _ => True) s s' ∧ Turning s' (toInt (n + 1)) := by
  obtain ⟨s1, hr, thread, hw⟩ := ht.picked
  have self : s1.world.table 0 = { s.world.table 0 with rrpos := toInt (n + 1) } := by
    simp only [hw, setTable, update_self]
  have ha : s1.world.alive = s.world.alive := by rw [hw]; rfl
  have hn : (s1.world.table 0).nserver = 3 := by rw [self]; exact ht.nserver
  have table : .table 0 ∈ s1.world.alive := ha ▸ ht.table
  have hu : n.tmod 3 < 3 := Int.tmod_lt_of_pos _ (by decide)
  obtain ⟨k, hi⟩ := Int.eq_ofNat_of_zero_le (Int.tmod_nonneg 3 low)
  have hl : k < 3 := by omega
  have he : (s1.world.table 0).servers[k]?.join = some k := by
    have all : ∀ k < 3, ([some 0, some 1, some 2] : List (Option Nat))[k]?.join = some k := by decide
    rw [self]
    simpa [ht.servers] using all k hl
  have hd : .data k ∈ s1.world.alive := ha ▸ ht.datas k hl
  have hg : (grab 0 n).run s1.world (s1.threads ()).held noAnswers =
      .ok (s1.world.add (.data k), .data k :: (s.threads ()).held, []) := by
    have hi : n.tmod ((3 : Nat) : Int) = k := hi
    simp only [run, access, if_pos table, hn, thread]
    simp only [hi, if_neg (Int.not_lt.mpr (Int.natCast_nonneg k)), Int.toNat_natCast, he, if_pos hd]
    rfl
  refine ⟨_, .step _ hr trivial (step_run (by rw [thread]) hg), ?_⟩
  have last : (s1.world.add (.data k)).table 0 = { s.world.table 0 with rrpos := toInt (n + 1) } := self
  have hk : (s1.world.add (.data k)).alive = s.world.alive := ha
  constructor
  · rw [set_self]
    rfl
  · rw [set_self]
    exact mem_cons_of_mem _ ht.holds
  · rw [set_world, last]
    exact ht.servers
  · rw [set_world, last]
    exact ht.nserver
  · rw [set_world, last]
  · rw [set_world, hk]
    exact ht.table
  · rw [set_world, hk]
    exact ht.datas

lemma Turning.laps (ht : Turning s 0) (n : Nat) (few : n ≤ 2 ^ 31) :
    ∃ s', Reaches (fun _ _ => True) s s' ∧ Turning s' (toInt n) := by
  induction n with
  | zero => exact ⟨s, .start, ht⟩
  | succ n ih =>
    obtain ⟨s1, hr, turning1⟩ := ih (by omega)
    rw [toInt_small (by omega) (by omega)] at turning1
    obtain ⟨s2, lap, turning2⟩ := turning1.lap (by omega)
    exact ⟨s2, hr.trans lap, turning2⟩

/-- With the counter at its lowest value, `pos % nserver` is negative. -/
lemma Turning.outOfBounds (ht : Turning s (-2 ^ 31)) : ∃ s', Reaches (fun _ _ => True) s s' ∧
    s'.step (.run () noAnswers) = some (.error (.outOfBounds (-2))) := by
  obtain ⟨s1, hr, thread, hw⟩ := ht.picked
  have self : s1.world.table 0 = { s.world.table 0 with rrpos := toInt (-2 ^ 31 + 1) } := by
    simp only [hw, setTable, update_self]
  have table : .table 0 ∈ s1.world.alive := by
    rw [hw]
    exact ht.table
  have hn : (s1.world.table 0).nserver = 3 := by rw [self]; exact ht.nserver
  have hg : (grab 0 (-2 ^ 31)).run s1.world (s1.threads ()).held noAnswers =
      .error (.outOfBounds (-2)) := by
    simp only [run, access, if_pos table, hn]
    rfl
  refine ⟨s1, hr, ?_⟩
  rw [thread] at hg
  simp only [State.step, thread, if_pos (noAnswers_fresh), hg]
  rfl

/-- Three servers are configured and a table is allocated for them. -/
lemma reaches_turning : ∃ s, Reaches (fun _ _ => True) (start Unit) s ∧ Turning s 0 := by
  have hs : Reaches (fun _ _ => True) (start Unit) _ :=
    .step (.serverAlloc () 2 1 false) (.step (.serverAlloc () 1 1 false)
      (.step (.serverAlloc () 0 1 false) .start trivial rfl) trivial rfl) trivial rfl
  have pool : Reaches (fun _ _ => True) (start Unit) _ :=
    .step (.svrpoolAlloc () 0) hs trivial rfl
  have linked : Reaches (fun _ _ => True) (start Unit) _ :=
    .step (.addServer () 0 2) (.step (.addServer () 0 1)
      (.step (.addServer () 0 0) pool trivial rfl) trivial rfl) trivial rfl
  have table : Reaches (fun _ _ => True) (start Unit) _ :=
    .step (.run () { table := some 0, data := none, sslctx := false })
      (.step (.allocData () 0) linked trivial rfl) trivial rfl
  have hf : Reaches (fun _ _ => True) (start Unit) _ :=
    .step (.run () { table := none, data := some 2, sslctx := false })
      (.step (.run () { table := none, data := some 1, sslctx := false })
        (.step (.run () { table := none, data := some 0, sslctx := false }) table trivial rfl)
        trivial rfl) trivial rfl
  have done : Reaches (fun _ _ => True) (start Unit) _ := .step (.run () noAnswers) hf trivial rfl
  exact ⟨_, done, rfl, by decide, rfl, rfl, rfl, by decide, by decide⟩

/-- `svrpool_get_rp_server` counts its calls in an `int`: after `2 ^ 31` calls it takes a
server from in front of the table. -/
theorem round_robin_wraps : ¬∀ s : State Unit, Reaches (fun _ _ => True) (State.start Unit) s →
    Right (fun _ _ => True) s := by
  intro ha
  obtain ⟨s0, hb, turning0⟩ := reaches_turning
  obtain ⟨s1, ht, turning1⟩ := turning0.laps (2 ^ 31) (Nat.le_refl _)
  obtain ⟨s2, hc, hf⟩ := Turning.outOfBounds (s := s1) turning1
  exact (ha s2 ((hb.trans ht).trans hc)).sound _ _ trivial hf

end Fzsvn.Guarantees.Proxy.ServerRefs
