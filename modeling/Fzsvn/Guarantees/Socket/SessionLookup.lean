import Fzsvn.Source.Socket.Sessions
import Mathlib.Data.List.Count

/-!
# Looking up sessions

The session table against the history of its calls: `liveAfter` is the map from ids to
sessions that the calls so far make. The loop of `_st_get_free_id` would not end on a full
table when it starts at 0; `nfreed`, which is the number of free slots, keeps it from being
entered then, and with a free slot it ends after at most `max` turns.
-/
namespace Fzsvn.Guarantees.Socket.SessionLookup
open Library.MachineInt Source.Socket.Sessions List Function Option

/-! ## The search for a free id -/

variable {S : Type} {st : SessionTable S} {p : Nat}

/-- From slot `i` the loop gets to slot `p` without meeting `freeid` after a turn. -/
def Clear (st : SessionTable S) (p i : Nat) : Prop :=
  if i ≤ p then st.freeid ≤ i ∨ p < st.freeid
  else st.freeid ≤ i ∧ (st.freeid = 0 ∨ p < st.freeid)

/-- The number of turns from slot `i` to slot `p`. -/
def gap (st : SessionTable S) (p i : Nat) : Nat := if i ≤ p then p - i else p + st.max - i

/-- The slot that a turn looks at. -/
def slotOf (st : SessionTable S) (id : Nat) : Nat := if id ≥ st.max then 0 else id

lemma slotOf_lt (some : 1 ≤ st.max) (id : Nat) : slotOf st id < st.max := by
  unfold slotOf
  split_ifs <;> omega

/-- The slot after `i`. -/
lemma clear_next {i : Nat} (hi : p < st.max) (hb : i < st.max) (hd : i ≠ p)
    (hc : Clear st p i) :
    i + 1 ≠ st.freeid ∧ Clear st p (slotOf st (i + 1)) ∧ gap st p (slotOf st (i + 1)) < gap st p i := by
  unfold Clear at hc ⊢
  unfold gap slotOf
  split_ifs at hc ⊢ <;> omega

lemma clear_start (hi : p < st.max) (hc : st.freeid ≤ st.max) :
    Clear st p (slotOf st st.freeid) ∧ gap st p (slotOf st st.freeid) < st.max := by
  unfold Clear gap slotOf
  split_ifs <;> omega

lemma freeIdLoop_finds (hc : st.max < 2 ^ 31) (hl : st.table.length = st.max)
    (free : st.table[p]? = some none) (fuel id : Nat) (hr : gap st p (slotOf st id) < fuel)
    (clear : Clear st p (slotOf st id)) :
    ∃ i, freeIdLoop st fuel id = .ok (some i, i + 1) ∧ i < st.max ∧ st.table[i]? = some none := by
  have hi : p < st.max := hl ▸ (List.getElem?_eq_some_iff.mp free).1
  -- Each turn brings the loop one slot nearer to `p`, if it does not end before.
  induction fuel generalizing id with
  | zero => omega
  | succ fuel ih =>
    have hb := slotOf_lt (Nat.one_le_of_lt hi) id
    have hs : (if (id : Int) ≥ toInt st.max then 0 else id) = slotOf st id := by
      rw [toInt_small (by omega) (by omega), slotOf]
      simp only [ge_iff_le, Int.ofNat_le]
    rw [freeIdLoop]
    simp only [hs]
    generalize slotOf st id = i at *
    obtain ⟨entry, hh⟩ : ∃ entry, st.table[i]? = some entry :=
      ⟨_, getElem?_eq_getElem (hl ▸ hb)⟩
    cases entry with
    | none =>
      refine ⟨i, ?_, hb, hh⟩
      simp [SessionTable.read, hh, bind, Except.bind, pure, Except.pure]
    | some s =>
      have hd : i ≠ p := by
        rintro rfl
        rw [hh] at free
        cases free
      obtain ⟨ha, hc', hn⟩ := clear_next hi hb hd clear
      obtain ⟨j, hf, rest⟩ := ih (i + 1) (by omega) hc'
      refine ⟨j, ?_, rest⟩
      simp [SessionTable.read, hh, bind, Except.bind, ha, hf]

/-- With a free slot the search ends, at a free slot. -/
lemma stGetFreeId_finds (hc : st.max < 2 ^ 31) (hl : st.table.length = st.max)
    (cursor : st.freeid ≤ st.max) (hf : none ∈ st.table) {fuel : Nat} (hr : st.max ≤ fuel) :
    ∃ i, stGetFreeId fuel st = .ok (some i, i + 1) ∧ i < st.max ∧ st.table[i]? = some none := by
  obtain ⟨p, hh⟩ := mem_iff_getElem?.mp hf
  have hi : p < st.max := hl ▸ (List.getElem?_eq_some_iff.mp hh).1
  obtain ⟨clear, hn⟩ := clear_start hi cursor
  exact freeIdLoop_finds hc hl hh fuel st.freeid (by omega) clear

/-! ## The table and its history -/

section

variable {S : Type}

/-- What holds between the table and its history. -/
structure Valid (max : Nat) (live : Int → Option S) (w : World S) : Prop where
  capacity : w.st.max = max
  length : w.st.table.length = max
  cursor : w.st.freeid ≤ max
  freed : w.st.nfreed = w.st.table.countP (·.isNone)
  slots : ∀ i : Nat, (live i) = w.st.table[i]?.join
  negative : ∀ id < 0, live id = none
  named : ∀ id s, live id = some s → w.id s = id ∧ w.magic s = sessionMagic

namespace Valid

variable {max : Nat} {live : Int → Option S} {w : World S}

lemma alloc {id : S → Int} {magic : S → Nat} (hm : sessionTableAlloc max id magic = some w) :
    Valid max (fun _ => none) w := by
  unfold sessionTableAlloc at hm
  split_ifs at hm
  cases hm
  exact {
    capacity := rfl
    length := length_replicate
    cursor := Nat.zero_le max
    freed := by simp [countP_replicate]
    slots := fun i => by
      rw [getElem?_replicate]
      split_ifs <;> rfl
    negative := fun _ _ => rfl
    named := nofun }

section

variable (hv : Valid max live w)
include hv

variable {id : Int}

/-- The map at an id that the functions accept. -/
lemma slots_toNat (low : 0 ≤ id) : live id = w.st.table[id.toNat]?.join := by
  rw [← hv.slots, Int.toNat_of_nonneg low]

lemma outside (out : id < 0 ∨ id ≥ max) : live id = none := by
  rcases out with low | hh
  · exact hv.negative id low
  · rw [hv.slots_toNat (by omega), getElem?_eq_none (by rw [hv.length]; omega)]
    rfl

lemma read (hi : ¬ (id < 0 ∨ id ≥ max)) : w.st.read id.toNat = .ok (live id) := by
  have hb : id.toNat < w.st.table.length := by
    rw [hv.length]
    omega
  rw [SessionTable.read, hv.slots_toNat (by omega), getElem?_eq_getElem hb]
  rfl

lemma mem_of_live {s : S} (he : live id = some s) : some s ∈ w.st.table := by
  have low : 0 ≤ id := by
    by_contra hn
    rw [hv.negative id (by omega)] at he
    cases he
  rw [hv.slots_toNat low, join_eq_some_iff] at he
  exact mem_of_getElem? he

lemma range_eq (hs : max < 2 ^ 31) : (id < 0 ∨ id ≥ toInt w.st.max) = (id < 0 ∨ id ≥ max) := by
  rw [hv.capacity, toInt_small (by omega) (by omega)]

lemma slots_set {i : Nat} (hb : i < max) (entry : Option S) (j : Nat) :
    update live (i : Int) entry (j : Int) = (w.st.table.set i entry)[j]?.join := by
  rw [getElem?_set]
  by_cases hh : i = j
  · subst j
    rw [update_self, if_pos rfl, if_pos (hv.length ▸ hb), join_some]
  · rw [update_of_ne (by omega), if_neg hh, hv.slots]

lemma find (hs : max < 2 ^ 31) (id : Int) : sessionTableFind w id = .ok (live id) := by
  unfold sessionTableFind
  simp only [hv.range_eq hs]
  split_ifs with out
  · rw [hv.outside out]
  · rw [hv.read out]
    cases entry : live id with
    | none => rfl
    | some s =>
      have named := (hv.named id s entry).2
      simp [bind, Except.bind, pure, Except.pure, named]

end

end Valid

end

/-! ## The history -/

section

variable {S : Type} [DecidableEq S]

/-- What a call that returned `result` does to the map from ids to sessions. -/
def remember (live : Int → Option S) : Call S × Result S → Int → Option S
  | (.add s, .added (some id)) => update live id (some s)
  | (.del id, .deleted true) => update live id none
  | _ => live

/-- The session that was last added under an id and not deleted since. -/
def liveAfter (history : List (Call S × Result S)) : Int → Option S :=
  history.foldl remember fun _ => none

/-- The calls of a table of `max` slots. A session that is added is not in the table. -/
inductive Reaches (fuel max : Nat) (id : S → Int) (magic : S → Nat) :
    List (Call S × Result S) → World S → Prop where
  | start {w : World S} (made : sessionTableAlloc max id magic = some w) :
      Reaches fuel max id magic [] w
  | step {history : List (Call S × Result S)} {w w' : World S} {result : Result S} (call : Call S)
      (before : Reaches fuel max id magic history w)
      (fresh : ∀ s, call = .add s → some s ∉ w.st.table)
      (made : w.call fuel call = .ok (result, w')) :
      Reaches fuel max id magic (history ++ [(call, result)]) w'

/-! Each call, from a valid table. -/

namespace Valid

variable {max : Nat} {live : Int → Option S} {w : World S}

lemma del (hv : Valid max live w) (hs : max < 2 ^ 31) (id : Int) :
    ∃ w', sessionTableDel w id = .ok ((live id).isSome, w') ∧
      Valid max (remember live (.del id, .deleted (live id).isSome)) w' := by
  unfold sessionTableDel
  simp only [hv.range_eq hs]
  split_ifs with out
  · rw [hv.outside out]
    exact ⟨w, rfl, hv⟩
  · rw [hv.read out]
    cases entry : live id with
    | none => exact ⟨w, rfl, hv⟩
    | some s =>
      obtain ⟨i, rfl⟩ := Int.eq_ofNat_of_zero_le (show 0 ≤ id by omega)
      have hb : i < w.st.table.length := by
        rw [hv.length]
        omega
      have here : w.st.table[i] = some s := by
        rw [hv.slots, join_eq_some_iff] at entry
        exact (List.getElem?_eq_some_iff.mp entry).2
      have remembered : remember live (.del i, .deleted (some s).isSome)
          = update live (i : Int) none := rfl
      rw [remembered]
      refine ⟨_, rfl, { hv with length := ?_, freed := ?_, slots := ?_, negative := ?_, named := ?_ }⟩
      · rw [length_set]
        exact hv.length
      · dsimp only
        rw [Int.toNat_natCast, countP_set hb, here, hv.freed]
        rfl
      · exact hv.slots_set (hv.length ▸ hb) none
      · intro id low
        rw [update_of_ne (by omega)]
        exact hv.negative id low
      · intro id s' live'
        have other : id ≠ i := by
          rintro rfl
          rw [update_self] at live'
          cases live'
        rw [update_of_ne other] at live'
        obtain ⟨named, magic⟩ := hv.named id s' live'
        have hd : s' ≠ s := by
          rintro rfl
          exact other (named.symm.trans (hv.named i s' entry).1)
        exact ⟨named, (update_of_ne hd _ _).trans magic⟩

lemma add (hv : Valid max live w) (hs : max < 2 ^ 31) {fuel : Nat} (hr : max ≤ fuel)
    {s : S} (fresh : some s ∉ w.st.table) : (none ∉ w.st.table ∧ sessionTableAdd fuel w s = .ok (false, w)) ∨
      ∃ (i : Nat) (w' : World S), none ∈ w.st.table ∧ i < max ∧ live i = none ∧ w'.id s = i ∧
        sessionTableAdd fuel w s = .ok (true, w') ∧
        Valid max (update live (i : Int) (some s)) w' := by
  unfold sessionTableAdd
  split_ifs with full
  · refine .inl ⟨fun free => ?_, rfl⟩
    have hp : 0 < w.st.table.countP (·.isNone) := List.countP_pos_iff.mpr ⟨none, free, rfl⟩
    rw [hv.freed] at full
    omega
  · have free : none ∈ w.st.table := by
      rw [hv.freed, Nat.not_lt] at full
      obtain ⟨entry, hm, isNone⟩ := List.countP_pos_iff.mp full
      rw [isNone_iff_eq_none.mp isNone] at hm
      exact hm
    have capacity := hv.capacity
    obtain ⟨i, found, hb, here⟩ := stGetFreeId_finds (by omega) (hv.length.trans capacity.symm)
      (capacity ▸ hv.cursor) free (capacity ▸ hr)
    rw [capacity] at hb
    have slot : live i = none := by
      rw [hv.slots, here]
      rfl
    rw [found]
    refine .inr ⟨i, _, free, hb, slot, ?_, rfl, { hv with
      length := ?_, cursor := hb, freed := ?_, slots := ?_, negative := ?_, named := ?_ }⟩
    · exact update_self s _ _
    · exact List.length_set.trans hv.length
    · obtain ⟨inTable, entry⟩ := List.getElem?_eq_some_iff.mp here
      dsimp only
      rw [countP_set inTable, entry, hv.freed]
      rfl
    · exact hv.slots_set hb (some s)
    · intro id low
      rw [update_of_ne (by omega)]
      exact hv.negative id low
    · intro id s' live'
      by_cases he : id = i
      · subst id
        rw [update_self] at live'
        cases live'
        exact ⟨update_self s _ _, update_self s _ _⟩
      · rw [update_of_ne he] at live'
        have hd : s' ≠ s := by
          rintro rfl
          exact fresh (hv.mem_of_live live')
        obtain ⟨named, magic⟩ := hv.named id s' live'
        exact ⟨(update_of_ne hd _ _).trans named,
          (update_of_ne hd _ _).trans magic⟩

end Valid

lemma Reaches.valid {fuel max : Nat} {id : S → Int} {magic : S → Nat}
    {history : List (Call S × Result S)} {w : World S} (hs : max < 2 ^ 31) (hr : max ≤ fuel)
    (run : Reaches fuel max id magic history w) : Valid max (liveAfter history) w := by
  induction run with
  | start hm => exact .alloc hm
  | @step history w w' result call hb fresh hm ih =>
    rw [liveAfter, foldl_append]
    change Valid max (remember (liveAfter history) (call, result)) w'
    cases call with
    | add s =>
      rcases ih.add hs hr (fresh s rfl) with ⟨-, hf⟩ | ⟨i, w1, -, -, -, hn, ha, hv⟩
      · simp only [World.call, hf] at hm
        cases hm
        exact ih
      · simp only [World.call, ha] at hm
        cases hm
        simp only [remember, if_true, hn]
        exact hv
    | find id =>
      simp only [World.call, ih.find hs] at hm
      cases hm
      exact ih
    | del id =>
      obtain ⟨w1, hd, hv⟩ := ih.del hs id
      simp only [World.call, hd] at hm
      cases hm
      exact hv

/-- What each call does, after any history. -/
structure Right (fuel max : Nat) (history : List (Call S × Result S)) (w : World S) : Prop where
  freed : w.st.nfreed = w.st.table.countP (·.isNone)
  add : ∀ s, some s ∉ w.st.table → ∃ id w', w.call fuel (.add s) = .ok (.added id, w') ∧
    (id ≠ none ↔ none ∈ w.st.table) ∧
    ∀ i, id = some i → 0 ≤ i ∧ i < max ∧ ∀ s', some s' ∈ w.st.table → w.id s' ≠ i
  find : ∀ id, w.call fuel (.find id) = .ok (.found (liveAfter history id), w)
  del : ∀ id, ∃ w', w.call fuel (.del id) = .ok (.deleted (liveAfter history id).isSome, w')

/-- With as many turns as slots for the search, every call returns, and as its history
says. -/
theorem session_table_right (fuel max : Nat) (small : max < 2 ^ 31) (room : max ≤ fuel)
    (id : S → Int) (magic : S → Nat) (history : List (Call S × Result S))
    (w : World S) (run : Reaches fuel max id magic history w) : Right fuel max history w := by
  have hv := run.valid small room
  refine ⟨hv.freed, ?_, ?_, ?_⟩
  · intro s fresh
    rcases hv.add small room fresh with ⟨full, hf⟩ | ⟨i, w', free, hb, slot, hn, ha, -⟩
    · refine ⟨none, w, ?_, ?_, nofun⟩
      · rw [World.call, hf]
        rfl
      · exact iff_of_false (fun differs => differs rfl) full
    · refine ⟨.some i, w', ?_, ?_, ?_⟩
      · rw [World.call, ha, ← hn]
        rfl
      · exact iff_of_true nofun free
      · rintro j ⟨⟩
        refine ⟨Int.natCast_nonneg i, by omega, ?_⟩
        intro s' hm hs
        obtain ⟨j, he⟩ := mem_iff_getElem?.mp hm
        have hi : liveAfter history j = some s' := by rw [hv.slots, he, Option.join_some]
        rw [(hv.named j s' hi).1] at hs
        rw [hs, slot] at hi
        cases hi
  · intro id
    rw [World.call, hv.find small]
    rfl
  · intro id
    obtain ⟨w', hd, -⟩ := hv.del small id
    exact ⟨w', by rw [World.call, hd]; rfl⟩

end

/-- In a table of two slots two sessions are added, the first is deleted, found no more and added
again. -/
theorem session_table_right_again : ∃ history w, history.map Prod.snd = [Result.added (some 0),
    .added (some 1), .deleted true, .found none, .added (some 0)] ∧ @Right Bool _ 2 2 history w := by
  have first := @Reaches.step Bool _ 2 2 (fun _ => 0) (fun _ => 0) _ _ _ _ (.add true) (.start rfl)
    (fun _ _ => by simp) rfl
  have second := Reaches.step (.add false) first (fun s adds => by cases adds; decide) rfl
  have deleted := Reaches.step (.del 0) second (fun s adds => by cases adds) rfl
  have sought := Reaches.step (.find 0) deleted (fun s adds => by cases adds) rfl
  have again := Reaches.step (.add true) sought (fun s adds => by cases adds; decide) rfl
  exact ⟨_, _, rfl, session_table_right 2 2 (by decide) (by decide) _ _ _ _ again⟩

end Fzsvn.Guarantees.Socket.SessionLookup
