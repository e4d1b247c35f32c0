import Fzsvn.Library.Fallible
import Fzsvn.Source.Proxy.Servers
import Mathlib.Algebra.Order.Group.Nat
import Mathlib.Data.Finset.Image
import Mathlib.Data.List.Range
import Mathlib.Data.Nat.ModEq

/-!
# Round robin

`svrpool_get_rp_server` takes a number from `rrpos` and chooses the server at its remainder
by `nserver`. Call `j` takes `j`, whichever thread makes it, until the counter wraps around
to `-2 ^ 31`: the remainder of a negative number is not positive. So the servers are taken
in turn for the first `2 ^ 31` calls, and for more only if there is one server (or, for one
call more, if `nserver` divides `2 ^ 31`).
-/
namespace Fzsvn.Guarantees.Proxy.RoundRobin
open Library.Fallible Library.MachineInt Source.Proxy.Servers List Function World
open State (step)
open List (range)

/-! ## The numbers that are taken -/

section

variable {T : Type} [DecidableEq T]

/-- The number that an event takes from the counter of table `q`. -/
def counterRead (q : Nat) (s : State T) : Event T → Option Int
  | .run t _ =>
    match (s.threads t).stack with
    | .pick q' :: _ => if q' = q then some (s.world.table q).rrpos else none
    | _ => none
  | _ => none

/-- A run, from `first` on, in which table `q` exists and has `n` servers, and the numbers
that its calls took, in order. -/
inductive Picks (q n : Nat) (first : State T) : List Int → State T → Prop where
  | start : Picks q n first [] first
  | step {values : List Int} {s s' : State T} (e : Event T) (before : Picks q n first values s)
      (alive : .table q ∈ s.world.alive) (servers : (s.world.table q).nserver = n)
      (made : s.step e = some (.ok s')) :
      Picks q n first (values ++ (counterRead q s e).toList) s'

end

def takes (q : Nat) : Instr → Bool
  | .pick q' => q' = q
  | _ => false

variable {w : World} {q : Nat}

lemma setTable_rrpos {p : Nat} {t : SvrpoolData} (he : t.rrpos = (w.table p).rrpos) :
    ((w.setTable p t).table q).rrpos = (w.table q).rrpos := by
  rw [setTable]
  dsimp only
  by_cases hh : q = p
  · subst p
    rw [update_self, he]
  · rw [update_of_ne hh]

lemma setRefcnt_rrpos {x : Obj} {n : Int} : ((w.setRefcnt x n).table q).rrpos = (w.table q).rrpos := by
  cases x with
  | table p => exact setTable_rrpos rfl
  | _ => rfl

lemma putEntry_rrpos {p : Nat} {entry : Option Nat} :
    Gives (w.putEntry p entry) fun w' => (w'.table q).rrpos = (w.table q).rrpos := by
  unfold putEntry
  split
  · exact (gives_ok _).mpr (setTable_rrpos rfl)
  · exact gives_error _

/-- Only `pick` changes the counter of a table that exists. -/
lemma run_rrpos {hh : List Obj} {m : Answers} {next : Instr} (hf : ∀ p ∈ m.table, q ≠ p) :
    Gives (next.run w hh m) fun after => (after.1.table q).rrpos =
      if takes q next then toInt ((w.table q).rrpos + 1) else (w.table q).rrpos := by
  have ha (x : Obj) {post : Unit → Prop} (all : post ()) : Gives (w.access x) post :=
    fun _ _ => all
  cases next with
  | dec x =>
    simp only [Instr.run, gives_bind, gives_pure]
    exact ha x setRefcnt_rrpos
  | free x =>
    simp only [Instr.run, gives_bind, gives_pure]
    exact ha x rfl
  | dataServer d =>
    simp only [Instr.run, gives_bind]
    apply ha
    split <;> exact (gives_pure _).mpr rfl
  | eachServer p =>
    simp only [Instr.run, gives_bind]
    apply ha
    split
    · exact (gives_pure _).mpr rfl
    · simp only [gives_bind, gives_pure]
      exact ha _ fun _ _ => rfl
  | eachData p i =>
    simp only [Instr.run, gives_bind]
    apply ha
    split
    · split
      · exact gives_error _
      · simp only [gives_bind, gives_pure]
        exact ha _ rfl
    · exact (gives_pure _).mpr rfl
  | pick p =>
    simp only [Instr.run, gives_bind, gives_pure, takes, decide_eq_true_eq]
    apply ha
    split_ifs with hhe
    · subst p
      rw [setTable]
      dsimp only
      rw [update_self]
    · rw [setTable]
      dsimp only
      rw [update_of_ne (Ne.symm hhe)]
  | grab p pos =>
    simp only [Instr.run, gives_bind]
    apply ha
    split
    · exact gives_error _
    · split
      · exact gives_error _
      · split
        · exact (gives_pure _).mpr rfl
        · simp only [gives_bind, gives_pure]
          exact ha _ rfl
  | allocTable p =>
    simp only [Instr.run]
    split
    · exact (gives_pure _).mpr rfl
    · rename_i made
      refine (gives_pure _).mpr ?_
      rw [setTable]
      dsimp only
      rw [update_of_ne (hf _ made)]
      rfl
  | fill p r =>
    simp only [Instr.run, gives_bind]
    apply ha
    apply ha
    split
    · simp only [gives_bind, gives_pure]
      exact fun _ _ => setTable_rrpos rfl
    · split
      · simp only [gives_bind, gives_pure]
        exact putEntry_rrpos
      · simp only [gives_bind]
        apply ha
        split
        · exact (gives_pure _).mpr rfl
        · simp only [gives_bind, gives_pure]
          exact putEntry_rrpos
  | putNull r =>
    simp only [Instr.run, gives_bind, gives_pure]
    exact putEntry_rrpos

section

variable {T : Type} [DecidableEq T] {s s' first : State T} {q n : Nat} {values : List Int}

lemma step_rrpos {e : Event T} (ha : .table q ∈ s.world.alive) (made : s.step e = some (.ok s')) :
    (s'.world.table q).rrpos =
      match counterRead q s e with
      | some v => toInt (v + 1)
      | none => (s.world.table q).rrpos := by
  cases e with
  | run t m =>
    cases hs : (s.threads t).stack with
    | nil => simp [step, hs] at made
    | cons next rest =>
      simp only [step, hs] at made
      split_ifs at made with hf
      have ran := Option.some.inj made
      cases hd : next.run s.world (s.threads t).held m with
      | error fault =>
        rw [hd] at ran
        cases ran
      | ok after =>
        rw [hd] at ran
        have ho : ∀ p ∈ m.table, q ≠ p := by
          rintro p hm rfl
          exact hf.1 _ hm ha
        have hw : s'.world = after.1 := congrArg State.world (Except.ok.inj ran).symm
        rw [hw, run_rrpos ho after hd]
        cases next with
        | pick p =>
          simp only [counterRead, hs, takes, decide_eq_true_eq]
          split_ifs <;> rfl
        | _ => simp [counterRead, hs, takes]
  | clone t x =>
    simp only [step] at made
    split_ifs at made
    have ran := Option.some.inj made
    unfold access at ran
    split_ifs at ran
    · cases ran
      exact setRefcnt_rrpos
    · cases ran
  | _ =>
    simp only [step] at made
    split_ifs at made
    cases made
    rfl

/-- The calls take 0, 1, 2 and so on, as 32-bit numbers. -/
lemma picks_values (run : Picks q n first values s) (zero : (first.world.table q).rrpos = 0) :
    values = (range values.length).map (fun j : Nat => toInt j) ∧
      (s.world.table q).rrpos = toInt values.length := by
  induction run with
  | start => exact ⟨rfl, zero⟩
  | @step values s s' e hb ha hs hm ih =>
    have next := step_rrpos ha hm
    cases hr : counterRead q s e with
    | none =>
      rw [hr] at next
      rw [Option.toList_none, append_nil]
      exact ⟨ih.1, next.trans ih.2⟩
    | some v =>
      have hv : v = (s.world.table q).rrpos := by
        unfold counterRead at hr
        split at hr
        · split at hr
          · split_ifs at hr
            exact (Option.some.inj hr).symm
          · cases hr
        · cases hr
      rw [hr] at next
      rw [hv, ih.2] at next ⊢
      rw [Option.toList_some, length_append, length_singleton, range_succ, map_append, ← ih.1]
      constructor
      · rfl
      · rw [next]
        exact Int.bmod_add_bmod

end

/-! ## The servers that are chosen -/

/-- Each index is one of a table, and among any `n` after another each occurs once. -/
structure Rotates (n : Nat) (indices : List Int) : Prop where
  inTable : ∀ i ∈ indices, 0 ≤ i ∧ i < n
  once : ∀ start, start + n ≤ indices.length →
    ∀ i : Nat, i < n → ((indices.drop start).take n).count (i : Int) = 1

/-- The index that a call computes from its number. -/
def index (n : Nat) (value : Int) : Int := value.tmod n

variable {n k : Nat}

/-- Among `n` numbers after another each remainder occurs once. -/
lemma rotates_range (hp : 1 ≤ n) :
    Rotates n ((range k).map fun j : Nat => ((j % n : Nat) : Int)) where
  inTable i member := by
    obtain ⟨j, -, rfl⟩ := mem_map.mp member
    have bound := Nat.mod_lt j hp
    omega
  once start hr i bound := by
    rw [length_map, length_range] at hr
    have hw : (((range k).map fun j : Nat => ((j % n : Nat) : Int)).drop start).take n =
        (range n).map fun a : Nat => (((start + a) % n : Nat) : Int) := by
      apply ext_getElem
      · simp only [length_take, length_drop, length_map, length_range]
        omega
      · intro a left right
        simp
    rw [hw]
    apply count_eq_one_of_mem
    · apply List.Nodup.map_on _ nodup_range
      intro a inA b inB he
      rw [mem_range] at inA inB
      have hc : (start + a) % n = (start + b) % n := Int.ofNat.inj he
      have hmod : a % n = b % n := Nat.ModEq.add_left_cancel' start hc
      rw [Nat.mod_eq_of_lt inA, Nat.mod_eq_of_lt inB] at hmod
      exact hmod
    · rw [mem_map]
      refine ⟨(i + (n - start % n)) % n, mem_range.mpr (Nat.mod_lt _ hp), ?_⟩
      have left := Nat.mod_lt start hp
      rw [Nat.add_mod_mod, ← Nat.mod_add_mod]
      have sum : start % n + (i + (n - start % n)) = i + n := by omega
      rw [sum, Nat.add_mod_right, Nat.mod_eq_of_lt bound]

/-- For how many calls the servers are taken in turn. -/
def Enough (n k : Nat) : Prop := n = 1 ∨ k ≤ 2 ^ 31 ∨ n ∣ 2 ^ 31 ∧ k = 2 ^ 31 + 1

lemma toInt_wrapped : toInt ((2 ^ 31 : Nat) : Int) = -((2 ^ 31 : Nat) : Int) := by decide

lemma toInt_wrapped_next : toInt ((2 ^ 31 + 1 : Nat) : Int) = -((2 ^ 31 - 1 : Nat) : Int) := by decide

lemma index_eq (few : Enough n k) {j : Nat} (hb : j < k) :
    index n (toInt j) = ((j % n : Nat) : Int) := by
  rcases few with rfl | short | ⟨hd, last⟩
  · rw [Nat.mod_one]
    exact Int.tmod_one _
  · rw [toInt_small (by omega) (by omega), index, Int.ofNat_tmod]
  · rcases Nat.lt_or_ge j (2 ^ 31) with hs | hl
    · rw [toInt_small (by omega) (by omega), index, Int.ofNat_tmod]
    · have hh : j = 2 ^ 31 := by omega
      rw [hh, toInt_wrapped, index, Int.neg_tmod, ← Int.ofNat_tmod, Nat.mod_eq_zero_of_dvd hd]
      rfl

/-- A number that is not positive has an index in the table only if `n` divides it. -/
lemma dvd_of_inTable {m : Nat} (hi : 0 ≤ index n (-(m : Int))) : n ∣ m := by
  rw [index, Int.neg_tmod, ← Int.ofNat_tmod] at hi
  apply Nat.dvd_of_mod_eq_zero
  omega

lemma rotates_iff (hp : 1 ≤ n) :
    Rotates n (((range k).map fun j : Nat => toInt j).map (index n)) ↔ Enough n k := by
  constructor
  · intro ht
    have hin (j : Nat) (hb : j < k) : 0 ≤ index n (toInt j) := by
      apply (ht.inTable _ _).1
      exact mem_map_of_mem (mem_map_of_mem (mem_range.mpr hb))
    by_contra hmany
    obtain ⟨hfirst, hmany⟩ := not_or.mp hmany
    obtain ⟨hlo, hmany⟩ := not_or.mp hmany
    have hd : n ∣ 2 ^ 31 := by
      apply dvd_of_inTable
      have hh := hin (2 ^ 31) (by omega)
      rw [toInt_wrapped] at hh
      exact hh
    have next : n ∣ 2 ^ 31 - 1 := by
      apply dvd_of_inTable
      have hl : k ≠ 2 ^ 31 + 1 := fun he => hmany ⟨hd, he⟩
      have hh := hin (2 ^ 31 + 1) (by omega)
      rw [toInt_wrapped_next] at hh
      exact hh
    have hs : 2 ^ 31 = 2 ^ 31 - 1 + 1 := by decide
    rw [hs, Nat.dvd_add_right next] at hd
    exact hfirst (Nat.dvd_one.mp hd)
  · intro few
    have hi : ((range k).map fun j : Nat => toInt j).map (index n) =
        (range k).map fun j : Nat => ((j % n : Nat) : Int) := by
      rw [map_map]
      apply map_congr_left
      intro j hm
      rw [comp_apply, index_eq few (mem_range.mp hm)]
    rw [hi]
    exact rotates_range hp

/-! ## Runs -/

/-- What the rest of a call leaves its thread with, or how it fails. -/
def grabbed (q : Nat) (value : Int) (w : World) : Except Fault (List Obj) :=
  (Instr.run w [] ⟨none, none, false⟩ (.grab q value)).map (·.2.1)

/-- Table `q` has the servers `ds`. -/
structure Offers (q : Nat) (ds : List Nat) (w : World) : Prop where
  alive : .table q ∈ w.alive
  nserver : (w.table q).nserver = ds.length
  servers : (w.table q).servers = ds.map some
  datas : ∀ d ∈ ds, .data d ∈ w.alive

/-- Each call gets one of the servers, and of any `ds.length` calls after another each server
is got by one. -/
structure InTurn (ds : List Nat) (results : List (Except Fault (List Obj))) : Prop where
  gets : ∀ result ∈ results, ∃ d ∈ ds, result = .ok [.data d]
  once : ∀ start, start + ds.length ≤ results.length →
    ∀ d ∈ ds, ((results.drop start).take ds.length).count (.ok [.data d]) = 1

variable {ds : List Nat} {value : Int}

lemma index_lt (hn : n ≠ 0) : index n value < n :=
  Int.tmod_lt_of_pos value (Int.natCast_pos.mpr (Nat.pos_of_ne_zero hn))

lemma Offers.grabbed_iff (offers : Offers q ds w) (distinct : ds.Nodup) {i : Nat} (hi : i < ds.length) :
    grabbed q value w = .ok [.data ds[i]] ↔ index ds.length value = i := by
  have hn : ds.length ≠ 0 := Nat.ne_of_gt (Nat.zero_lt_of_lt hi)
  have hlt : index ds.length value < ds.length := index_lt hn
  by_cases hneg : index ds.length value < 0
  · have hfault : grabbed q value w = .error (.outOfBounds (index ds.length value)) := by
      have hneg' : value.tmod ds.length < 0 := hneg
      simp [grabbed, Instr.run, access, offers.alive, offers.nserver, hn, hneg', index, bind, Except.bind,
        throw, throwThe, MonadExceptOf.throw, Except.map]
    rw [hfault]
    exact ⟨fun same => (by cases same), by omega⟩
  · obtain ⟨k, hk⟩ := Int.eq_ofNat_of_zero_le (Int.not_lt.mp hneg)
    have hk' : k < ds.length := by omega
    have hgot : grabbed q value w = .ok [.data ds[k]] := by
      have hk'' : value.tmod ds.length = k := hk
      have hdata := offers.datas _ (getElem_mem hk')
      simp [grabbed, Instr.run, access, offers.alive, offers.nserver, offers.servers, hn, hk'', hk', hdata,
        Int.not_lt.mpr (Int.natCast_nonneg k), bind, Except.bind, pure, Except.pure, Except.map]
    rw [hgot, hk, Int.natCast_inj, Except.ok.injEq, cons.injEq, Obj.data.injEq, distinct.getElem_inj_iff]
    simp

lemma count_map_congr {α β γ : Type} [DecidableEq β] [DecidableEq γ] {l : List α} {f : α → β} {g : α → γ} {x : β}
    {y : γ} (h : ∀ a ∈ l, f a = x ↔ g a = y) : (l.map f).count x = (l.map g).count y := by
  simp only [count_eq_countP, countP_map]
  exact countP_congr fun a ha => by simpa using h a ha

variable {calls : List (Int × World)}

/-- The calls get the servers in turn if their indices rotate. -/
lemma inTurn_iff_rotates (distinct : ds.Nodup) (filled : ds ≠ []) (offers : ∀ call ∈ calls, Offers q ds call.2) :
    InTurn ds (calls.map fun call => grabbed q call.1 call.2) ↔
      Rotates ds.length ((calls.map Prod.fst).map (index ds.length)) := by
  have hn : ds.length ≠ 0 := fun h => filled (length_eq_zero_iff.mp h)
  have hcount : ∀ start (i : Nat) (hi : i < ds.length),
      (((calls.map fun call => grabbed q call.1 call.2).drop start).take ds.length).count (.ok [.data ds[i]]) =
        ((((calls.map Prod.fst).map (index ds.length)).drop start).take ds.length).count (i : Int) := by
    intro start i hi
    simp only [← map_drop, ← map_take, map_map]
    refine count_map_congr fun call hcall => ?_
    exact (offers call (mem_of_mem_drop (mem_of_mem_take hcall))).grabbed_iff distinct hi
  constructor
  · intro turn
    refine ⟨?_, fun start hstart i hi => ?_⟩
    · simp only [map_map, forall_mem_map, comp_apply]
      intro call hcall
      obtain ⟨d, hd, hgot⟩ := turn.gets _ (mem_map_of_mem hcall)
      obtain ⟨i, hi, rfl⟩ := getElem_of_mem hd
      have := ((offers call hcall).grabbed_iff distinct hi).mp hgot
      omega
    · rw [← hcount start i hi]
      exact turn.once start (by simpa using hstart) _ (getElem_mem hi)
  · intro rotates
    refine ⟨?_, fun start hstart d hd => ?_⟩
    · simp only [forall_mem_map]
      intro call hcall
      have hrange := rotates.inTable _ (mem_map_of_mem (mem_map_of_mem hcall))
      have hi : (index ds.length call.1).toNat < ds.length := by omega
      exact ⟨_, getElem_mem hi, ((offers call hcall).grabbed_iff distinct hi).mpr (by omega)⟩
    · obtain ⟨i, hi, rfl⟩ := getElem_of_mem hd
      rw [hcount start i hi]
      exact rotates.once start (by simpa using hstart) i hi

/-- In any run, by any number of threads, and whenever the calls are finished: the calls on a
table get its servers in turn if and only if there is one server, or there were at most
`2 ^ 31` calls, or one more if `nserver` divides `2 ^ 31`. -/
theorem round_robin_iff {T : Type} [DecidableEq T] (q : Nat) (ds : List Nat) (first s : State T)
    (calls : List (Int × World)) (filled : ds ≠ []) (distinct : ds.Nodup)
    (zero : (first.world.table q).rrpos = 0) (run : Picks q ds.length first (calls.map Prod.fst) s)
    (offers : ∀ call ∈ calls, Offers q ds call.2) :
    InTurn ds (calls.map fun call => grabbed q call.1 call.2) ↔ Enough ds.length calls.length := by
  rw [inTurn_iff_rotates distinct filled offers, (picks_values run zero).1, length_map]
  exact rotates_iff (length_pos_iff.mpr filled)

/-- A table with the servers `0`, ..., `n - 1` that nobody has used, and every thread about to
call. -/
def calling (n : Nat) : State Nat where
  world := { (State.start Nat).world with
    alive := insert (.table 0) ((Finset.range n).image .data)
    table := fun _ =>
      { servers := (List.range n).map some, nserver := n, gcd := 1, rrpos := 0, refcnt := 0 } }
  threads _ := { held := [.table 0], stack := [.pick 0] }

/-- Threads 0 to `k - 1` take a number each. -/
lemma calling_picks (n k : Nat) : ∃ values s, Picks 0 n (calling n) values s ∧ values.length = k ∧
      Offers 0 (range n) s.world ∧ ∀ t ≥ k, (s.threads t).stack = [.pick 0] := by
  induction k with
  | zero =>
    refine ⟨[], calling n, .start, rfl, ⟨?_, ?_, rfl, ?_⟩, fun _ _ => rfl⟩
    · exact Finset.mem_insert_self _ _
    · exact length_range.symm
    · intro d hd
      exact Finset.mem_insert_of_mem (Finset.mem_image_of_mem _ (Finset.mem_range.mpr (mem_range.mp hd)))
  | succ k ih =>
    obtain ⟨values, s, run, hlen, offers, waiting⟩ := ih
    have hstack := waiting k (Nat.le_refl k)
    have stepped : s.step (.run k { table := none, data := none, sslctx := false }) =
        some (.ok (s.set k (s.world.setTable 0
          { s.world.table 0 with rrpos := toInt ((s.world.table 0).rrpos + 1) })
          (s.threads k).held [.grab 0 (s.world.table 0).rrpos])) := by
      simp [step, hstack, Instr.run, access, offers.alive, bind, Except.bind, pure, Except.pure,
        Except.map]
    have hread : counterRead 0 s (.run k { table := none, data := none, sslctx := false }) =
        some (s.world.table 0).rrpos := by
      simp [counterRead, hstack]
    have hservers : (s.world.table 0).nserver = n := by rw [offers.nserver, length_range]
    have next := Picks.step _ run offers.alive hservers stepped
    rw [hread, Option.toList_some] at next
    refine ⟨_, _, next, ?_, ⟨offers.alive, ?_, ?_, offers.datas⟩, ?_⟩
    · rw [length_append, hlen, length_singleton]
    · simpa [State.set, setTable] using offers.nserver
    · simpa [State.set, setTable] using offers.servers
    · intro t later
      rw [State.set]
      dsimp only
      rw [update_of_ne (by omega)]
      exact waiting t (by omega)

/-- The calls of `calling_picks`, which are all finished in its last state. -/
lemma calling_calls (n k : Nat) : ∃ (calls : List (Int × World)) (s : State Nat),
    Picks 0 n (calling n) (calls.map Prod.fst) s ∧ calls.length = k ∧
    ∀ call ∈ calls, Offers 0 (range n) call.2 := by
  obtain ⟨values, s, run, hlen, offers, -⟩ := calling_picks n k
  have hvalues : (values.map fun value => (value, s.world)).map Prod.fst = values := by
    rw [map_map]
    exact map_id values
  refine ⟨values.map fun value => (value, s.world), s, by rwa [hvalues], by rwa [length_map], ?_⟩
  simpa using fun _ _ => offers

theorem round_robin_four_calls : ∃ (calls : List (Int × World)) (s : State Nat),
    Picks 0 3 (calling 3) (calls.map Prod.fst) s ∧ calls.length = 4 ∧
    InTurn [0, 1, 2] (calls.map fun call => grabbed 0 call.1 call.2) := by
  obtain ⟨calls, s, run, hlen, offers⟩ := calling_calls 3 4
  refine ⟨calls, s, run, hlen, ?_⟩
  exact (round_robin_iff 0 [0, 1, 2] (calling 3) s calls (cons_ne_nil _ _) (by decide) rfl run offers).mpr
    (.inr (.inl (by omega)))

/-- With three servers the call after `2 ^ 31` others reads in front of the table. -/
theorem round_robin_negative : ∃ (calls : List (Int × World)) (s : State Nat),
    Picks 0 3 (calling 3) (calls.map Prod.fst) s ∧
    calls.length = 2 ^ 31 + 1 ∧ (∀ call ∈ calls, Offers 0 [0, 1, 2] call.2) ∧
      ¬ InTurn [0, 1, 2] (calls.map fun call => grabbed 0 call.1 call.2) := by
  obtain ⟨calls, s, run, hlen, offers⟩ := calling_calls 3 (2 ^ 31 + 1)
  refine ⟨calls, s, run, hlen, offers, fun turn => ?_⟩
  have rotates := (inTurn_iff_rotates (by decide) (cons_ne_nil 0 [1, 2]) offers).mp turn
  rw [(picks_values run rfl).1, length_map, hlen] at rotates
  rcases (rotates_iff (by decide)).mp rotates with one | few | ⟨divides, -⟩
  · exact absurd one (by decide)
  · omega
  · exact absurd divides (by decide)

end Fzsvn.Guarantees.Proxy.RoundRobin
