import Fzsvn.Guarantees.Socket.PoolLists
import Fzsvn.Library.Fallible

/-!
# The partition of a socket pool

Every item of a pool is on one list: that of the bucket its address hashes to, with an open
socket, or the free list. The counters follow the lists, also when stale sockets are thrown
out in the middle of a search. A pool of 2^31 items or more is not set up, as the loop over
the items has an `int` for its index.
-/
namespace Fzsvn.Guarantees.Socket.PoolPartition
open Library.HeadedList Source.Socket.Sockets PoolLists List Function

/-! ## The invariant -/

/-- The item is not on the free list. -/
def Stored (lists : Nat → List Nat) (i : Nat) : Prop := ∃ k ≠ sockpoolHsize, i ∈ lists k

/-- What is true of an item in a bucket: its socket is open and hashes to the bucket, and the
flag says whether a caller holds it. -/
structure Filed (w : World) (k i : Nat) : Prop where
  valid : 0 ≤ (w.pool.pool i).fd
  connected : w.peer (w.pool.pool i).fd = some ((w.pool.pool i).ip, (w.pool.pool i).port)
  key : sockpoolKeygen (w.pool.pool i).ip (w.pool.pool i).port = k
  used : sockpoolIsUsed (w.pool.pool i).flags = true ↔ (w.pool.pool i).fd ∈ w.held

/-- The `n` items of a pool are on the lists, each on one of them. -/
structure Valid (n : Nat) (w : World) (lists : Nat → List Nat) : Prop where
  chains : Lists w.pool lists
  small : n < 2 ^ 31
  size : w.pool.size.toNat = n
  total : ∀ i, i < n ↔ ∃ k, i ∈ lists k
  nused : w.pool.nused.toNat + (lists sockpoolHsize).length = n
  filed : ∀ k ≠ sockpoolHsize, ∀ i ∈ lists k, Filed w k i
  unique : ∀ i j, Stored lists i → Stored lists j → (w.pool.pool i).fd = (w.pool.pool j).fd → i = j
  held : ∀ fd ∈ w.held, ∃ i, Stored lists i ∧ (w.pool.pool i).fd = fd
  once : w.held.Nodup

variable {n k i : Nat} {w : World} {lists : Nat → List Nat}

/-- A list of different items is not longer than the array. -/
lemma length_le {list : List Nat} (hn : list.Nodup) (hb : ∀ x ∈ list, x < n) : list.length ≤ n := by
  have sub : list ⊆ List.range n := fun x hm => mem_range.mpr (hb x hm)
  exact (subperm_of_subset hn sub).length_le.trans (length_range ▸ Nat.le_refl _)

variable {before rest : List Nat} {fd : Int}

section

variable (hv : Valid n w lists)
include hv

lemma Valid.free_lt (hs : Stored lists i) : (lists sockpoolHsize).length < n := by
  obtain ⟨k, hb, hm⟩ := hs
  have ha : i ∉ lists sockpoolHsize :=
    fun hf => hb (hv.chains.apart k sockpoolHsize i hm hf)
  have hn : (i :: lists sockpoolHsize).Nodup :=
    nodup_cons.mpr ⟨ha, (hv.chains.linked sockpoolHsize).nodup⟩
  refine length_le hn fun x hi => (hv.total x).mpr ?_
  rcases mem_cons.mp hi with rfl | hf
  · exact ⟨k, hm⟩
  · exact ⟨sockpoolHsize, hf⟩

lemma Valid.list_le (k : Nat) : (lists k).length ≤ n :=
  length_le (hv.chains.linked k).nodup fun x hm => (hv.total x).mpr ⟨k, hm⟩

lemma Valid.mem_filed (hs : Stored lists i) : ∃ k, Filed w k i := by
  obtain ⟨k, hb, hm⟩ := hs
  exact ⟨k, hv.filed k hb i hm⟩

/-- A move between lists loses no item. -/
lemma Valid.total_moved {source target : Nat} (hd : source ≠ target)
    (hm : i ∈ lists source) (x : Nat) : x < n ↔ ∃ j, x ∈ moved lists source target i j := by
  rw [hv.total]
  simp only [hv.chains.mem_moved hd hm]
  by_cases he : x = i
  · simp only [he, true_and, ne_eq, not_true_eq_false, false_and, or_false, exists_eq, iff_true]
    exact ⟨source, hm⟩
  · simp [he]

lemma Valid.closed_unheld (hc : w.peer fd = none) : fd ∉ w.held := by
  intro hi
  obtain ⟨x, hs, rfl⟩ := hv.held fd hi
  obtain ⟨j, hf⟩ := hv.mem_filed hs
  cases hc.symm.trans hf.connected

/-! ## An item is given up -/

/-- The item goes to the free list, and its socket is closed. -/
def dropped (w : World) (k i : Nat) : World where
  pool :=
    let pool := sockpoolHashAdd (sockpoolHashDel w.pool k i) sockpoolHsize i
    { pool with nused := pool.nused - 1 }
  peer := update w.peer (w.pool.pool i).fd none
  held := w.held.erase (w.pool.pool i).fd

lemma Valid.dropped_keeps (hm : i ∈ lists k) :
    Keeps w.pool (sockpoolHashAdd (sockpoolHashDel w.pool k i) sockpoolHsize i) :=
  (del_keeps k i (prev_ne (hv.chains.linked k) hm)).trans (add_keeps _ _ _)

lemma Valid.stored_dropped (hb : k ≠ sockpoolHsize) (hm : i ∈ lists k) (x : Nat) :
    Stored (moved lists k sockpoolHsize i) x ↔ x ≠ i ∧ Stored lists x := by
  constructor
  · rintro ⟨j, inBucket, hi⟩
    rcases (hv.chains.mem_moved hb hm).mp hi with ⟨-, hf⟩ | ⟨ho, before⟩
    · exact absurd hf inBucket
    · exact ⟨ho, j, inBucket, before⟩
  · rintro ⟨ho, j, inBucket, before⟩
    exact ⟨j, inBucket, (hv.chains.mem_moved hb hm).mpr (.inr ⟨ho, before⟩)⟩

lemma Valid.drop (hb : k ≠ sockpoolHsize) (hm : i ∈ lists k) :
    Valid n (dropped w k i) (moved lists k sockpoolHsize i) := by
  have hk := hv.dropped_keeps hm
  have stored : Stored lists i := ⟨k, hb, hm⟩
  have less := hv.free_lt stored
  have hs := hv.small
  have before := hv.stored_dropped hb hm
  refine ⟨?_, hs, ?_, hv.total_moved hb hm, ?_, ?_, ?_, ?_, ?_⟩
  · exact { hv.chains.move hb hm (by omega) ⟨rfl, fun _ => rfl, fun _ => rfl⟩ with }
  · exact (congrArg UInt32.toNat hk.size).trans hv.size
  · have hn := hv.nused
    have hl : (1 : UInt32) ≤ w.pool.nused := by
      rw [UInt32.le_iff_toNat_le]
      change 1 ≤ _
      omega
    dsimp only [dropped]
    rw [hk.nused, moved_target, length_cons, UInt32.toNat_sub_of_le _ _ hl]
    change _ - 1 + _ = _
    omega
  · intro j inBucket x hi
    rcases (hv.chains.mem_moved hb hm).mp hi with ⟨-, free⟩ | ⟨ho, inList⟩
    · exact absurd free inBucket
    · obtain ⟨fd, flags, ip, port⟩ := hk.fields x
      have hf := hv.filed j inBucket x inList
      have hd : (w.pool.pool x).fd ≠ (w.pool.pool i).fd :=
        fun he => ho (hv.unique x i ⟨j, inBucket, inList⟩ stored he)
      constructor <;> dsimp only [dropped] <;> simp only [fd, flags, ip, port]
      · exact hf.valid
      · rw [update_of_ne hd]
        exact hf.connected
      · exact hf.key
      · rw [mem_erase_of_ne hd]
        exact hf.used
  · intro x y storedX storedY he
    dsimp only [dropped] at he
    rw [(hk.fields x).1, (hk.fields y).1] at he
    exact hv.unique x y ((before x).mp storedX).2 ((before y).mp storedY).2 he
  · intro fd inHeld
    obtain ⟨hd, hw⟩ := hv.once.mem_erase_iff.mp inHeld
    obtain ⟨x, storedX, rfl⟩ := hv.held fd hw
    refine ⟨x, (before x).mpr ⟨?_, storedX⟩, (hk.fields x).1⟩
    rintro rfl
    exact hd rfl
  · exact hv.once.erase _

/-! ## The searches -/

/-- Whether a search for a socket takes the item. -/
def idle (test : Int → Bool) (item : SockpoolItem) : Bool := !sockpoolIsUsed item.flags && test item.fd

/-- What `_sockpool_hash_find_free` does from some item of a bucket on: it ends at the first
item that can be used, and gives up the idle ones before. -/
structure Searched (n : Nat) (test : Int → Bool) (k : Nat) (w : World) (rest : List Nat)
    (item? : Option Nat) (w' : World) (lists : Nat → List Nat) : Prop where
  valid : Valid n w' lists
  held : w'.held = w.held
  content : ∀ i, content (w'.pool.pool i) = content (w.pool.pool i)
  result : item? = rest.find? fun i => idle test (w.pool.pool i)
  member : ∀ i, item? = some i → i ∈ lists k

lemma Valid.findFreeLoop (test : Int → Bool) (hb : k ≠ sockpoolHsize)
    (hs : lists k = before ++ rest) {fuel : Nat} (hf : rest.length < fuel) :
    ∃ result w' lists', findFreeLoop test k fuel rest.head? w = .ok (result, w') ∧
      Searched n test k w rest result w' lists' := by
  -- On what is left of the list; the items before it do not matter any more.
  induction rest generalizing w lists before fuel with
  | nil =>
    obtain ⟨fuel, rfl⟩ := Nat.exists_eq_add_of_lt hf
    exact ⟨none, w, lists, rfl, hv, rfl, fun _ => rfl, rfl, nofun⟩
  | cons i rest ih =>
    obtain ⟨fuel, rfl⟩ : ∃ m, fuel = m + 1 := ⟨fuel - 1, by omega⟩
    have hm : i ∈ lists k := by simp [hs]
    have filed := hv.filed k hb i hm
    have next := hv.chains.next hs
    have short : rest.length < fuel := by simpa using hf
    rw [head?_cons, Source.Socket.Sockets.findFreeLoop]
    dsimp only
    rw [if_neg (Int.not_lt.mpr filed.valid), next]
    by_cases used : sockpoolIsUsed (w.pool.pool i).flags = true
    · have hs' : lists k = (before ++ [i]) ++ rest := by simp [hs]
      obtain ⟨result, w', lists', run, searched⟩ := ih hv hs' short
      refine ⟨result, w', lists', (if_pos used).trans run, ?_⟩
      have skip : idle test (w.pool.pool i) = false := by simp [idle, used]
      exact { searched with result := searched.result.trans (by rw [find?_cons, skip]) }
    · rw [if_neg used]
      by_cases alive : test (w.pool.pool i).fd = true
      · rw [if_neg (by simp [alive])]
        refine ⟨some i, w, lists, rfl, hv, rfl, fun _ => rfl, ?_, ?_⟩
        · have stop : idle test (w.pool.pool i) = true := by simp [idle, used, alive]
          rw [find?_cons, stop]
        · rintro _ ⟨⟩
          exact hm
      · rw [if_pos (by simp [alive])]
        have notHeld : (w.pool.pool i).fd ∉ w.held := fun hi => used (filed.used.mpr hi)
        have ha : i ∉ before := by
          have hn := (hv.chains.linked k).nodup
          rw [hs] at hn
          exact fun he => (nodup_append.mp hn).2.2 i he i mem_cons_self rfl
        have hs' : moved lists k sockpoolHsize i k = before ++ rest := by
          rw [moved_source hb, hs, erase_append_right _ ha, erase_cons_head]
        have hu : (dropped w k i).held = w.held := erase_of_not_mem notHeld
        have state : dropped w k i = { dropped w k i with held := w.held } := by
          rw [← hu]
        obtain ⟨result, w', lists', run, searched⟩ := ih (hv.drop hb hm) hs' short
        rw [state] at run
        have hk := hv.dropped_keeps hm
        refine ⟨result, w', lists', run, searched.valid, searched.held.trans hu, ?_, ?_, searched.member⟩
        · exact fun x => (searched.content x).trans (hk.content x)
        · have skip : idle test (w.pool.pool i) = false := by simp [idle, alive]
          rw [searched.result, find?_cons, skip]
          congr 1
          funext x
          obtain ⟨fd, flags, -, -⟩ := hk.fields x
          simp only [idle, dropped, fd, flags]

/-- The socket of an item is found again. -/
lemma Valid.findLoop (hb : k ≠ sockpoolHsize) (hm : i ∈ lists k)
    (hs : lists k = before ++ rest) (hi : i ∈ rest) {fuel : Nat} (hf : rest.length < fuel) :
    findLoop w.pool (w.pool.pool i).fd (w.pool.pool i).ip (w.pool.pool i).port fuel rest.head? =
      .ok (some i) := by
  induction rest generalizing before fuel with
  | nil => cases hi
  | cons x rest ih =>
    obtain ⟨fuel, rfl⟩ : ∃ m, fuel = m + 1 := ⟨fuel - 1, by omega⟩
    have hh : x ∈ lists k := by simp [hs]
    rw [head?_cons, Source.Socket.Sockets.findLoop]
    rw [if_neg (Int.not_lt.mpr (hv.filed k hb x hh).valid), hv.chains.next hs]
    by_cases he : (w.pool.pool x).fd = (w.pool.pool i).fd
    · obtain rfl := hv.unique x i ⟨k, hb, hh⟩ ⟨k, hb, hm⟩ he
      simp
    · have ho : i ≠ x := by
        rintro rfl
        exact he rfl
      have hs' : lists k = (before ++ [x]) ++ rest := by simp [hs]
      rw [if_neg he]
      exact ih hs' ((mem_cons.mp hi).resolve_left ho) (by simpa using hf)

end

variable {pool : Sockpool}

lemma uniqueLoop_ok (hc : Lists pool lists) (ho : ∀ x ∈ lists k, 0 ≤ (pool.pool x).fd)
    (fd : Int) (hs : lists k = before ++ rest) {fuel : Nat} (hf : rest.length < fuel)
    (count : Nat) : ∃ count', uniqueLoop pool fd fuel rest.head? count = .ok count' := by
  induction rest generalizing before fuel count with
  | nil =>
    obtain ⟨fuel, rfl⟩ := Nat.exists_eq_add_of_lt hf
    exact ⟨count, rfl⟩
  | cons x rest ih =>
    obtain ⟨fuel, rfl⟩ : ∃ m, fuel = m + 1 := ⟨fuel - 1, by omega⟩
    have hs' : lists k = (before ++ [x]) ++ rest := by simp [hs]
    rw [head?_cons, uniqueLoop]
    rw [if_neg (Int.not_lt.mpr (ho x (by simp [hs]))), hc.next hs]
    exact ih hs' (by simpa using hf) _

/-! ## A socket changes hands -/

lemma isUsed_set {flags : UInt16} : sockpoolIsUsed (sockpoolSetUsed flags) = true := by
  have hm : (flags ||| sockpoolUsed) &&& sockpoolUsed = sockpoolUsed := by
    apply UInt16.toBitVec_inj.mp
    ext bit
    simp +contextual
  rw [sockpoolIsUsed, sockpoolSetUsed, hm]
  decide

lemma isUsed_clr {flags : UInt16} : sockpoolIsUsed (sockpoolClrUsed flags) = false := by
  have hm : flags &&& ~~~sockpoolUsed &&& sockpoolUsed = 0 := by
    rw [UInt16.and_assoc, UInt16.and_comm _ sockpoolUsed, UInt16.and_not_self, UInt16.and_zero]
  rw [sockpoolIsUsed, sockpoolClrUsed, hm]
  decide

/-- At most the flags and the counter of one item differ. -/
structure Reflagged (pool pool' : Sockpool) (i : Nat) : Prop extends SameLinks pool pool' where
  size : pool'.size = pool.size
  nused : pool'.nused = pool.nused
  fd : ∀ x, (pool'.pool x).fd = (pool.pool x).fd
  ip : ∀ x, (pool'.pool x).ip = (pool.pool x).ip
  port : ∀ x, (pool'.pool x).port = (pool.pool x).port
  flags : ∀ x ≠ i, (pool'.pool x).flags = (pool.pool x).flags

lemma modify_reflagged (pool : Sockpool) (i : Nat) (nused : UInt32) (flags : UInt16) :
    Reflagged pool (pool.modify i ({ · with nused, flags })) i := by
  have hf : ∀ x, ∃ nused' flags', (pool.modify i ({ · with nused, flags })).pool x =
      { pool.pool x with nused := nused', flags := flags' } ∧ (x ≠ i → flags' = (pool.pool x).flags) := by
    intro x
    by_cases he : x = i
    · subst he
      exact ⟨nused, flags, update_self .., fun ho => absurd rfl ho⟩
    · exact ⟨_, _, update_of_ne he _ _, fun _ => rfl⟩
  refine ⟨⟨rfl, fun x => ?_, fun x => ?_⟩, rfl, rfl, fun x => ?_, fun x => ?_, fun x => ?_, fun x ho => ?_⟩
  all_goals obtain ⟨nused', flags', hi, he⟩ := hf x; rw [hi]
  exact he ho

lemma modify_modify (first second : SockpoolItem → SockpoolItem) :
    (pool.modify i first).modify i second = pool.modify i fun it => second (first it) := by
  simp [Sockpool.modify]

/-- The flag of an item is made to say what the callers hold now. -/
lemma Valid.reflagged {pool' : Sockpool} {held' : List Int} (hv : Valid n w lists) (hb : k ≠ sockpoolHsize)
    (hm : i ∈ lists k) (hr : Reflagged w.pool pool' i)
    (hu : sockpoolIsUsed (pool'.pool i).flags = true ↔ (w.pool.pool i).fd ∈ held')
    (ho : ∀ fd ≠ (w.pool.pool i).fd, fd ∈ held' ↔ fd ∈ w.held) (once : held'.Nodup) :
    Valid n { pool := pool', peer := w.peer, held := held' } lists := by
  refine ⟨?_, hv.small, ?_, hv.total, ?_, ?_, ?_, ?_, once⟩
  · exact hv.chains.relink hr.toSameLinks
  · exact (congrArg UInt32.toNat hr.size).trans hv.size
  · rw [hr.nused]
    exact hv.nused
  · intro j inBucket x hi
    have hf := hv.filed j inBucket x hi
    constructor <;> simp only [hr.fd, hr.ip, hr.port]
    · exact hf.valid
    · exact hf.connected
    · exact hf.key
    · by_cases he : x = i
      · rw [he]
        exact hu
      · have hd : (w.pool.pool x).fd ≠ (w.pool.pool i).fd :=
          fun equal => he (hv.unique x i ⟨j, inBucket, hi⟩ ⟨k, hb, hm⟩ equal)
        rw [hr.flags x he, ho _ hd]
        exact hf.used
  · intro x y storedX storedY he
    rw [hr.fd, hr.fd] at he
    exact hv.unique x y storedX storedY he
  · intro fd inHeld
    by_cases he : fd = (w.pool.pool i).fd
    · exact ⟨i, ⟨k, hb, hm⟩, (hr.fd i).trans he.symm⟩
    · obtain ⟨x, hs, rfl⟩ := hv.held fd ((ho fd he).mp inHeld)
      exact ⟨x, hs, hr.fd x⟩

/-- The first free item gets a new socket. -/
def connected (w : World) (k i : Nat) (fd : Int) (ip : UInt32) (port : UInt16) : World where
  pool :=
    let pool := (sockpoolHashDel w.pool sockpoolHsize i).modify i fun it =>
      { it with flags := sockpoolSetUsed 0, fd, nused := 1, ip, port }
    let pool := sockpoolHashAdd pool k i
    { pool with nused := pool.nused + 1 }
  peer := update w.peer fd (some (ip, port))
  held := fd :: w.held

section

variable (hv : Valid n w lists)
include hv

lemma Valid.connected_content (hf : i ∈ lists sockpoolHsize) (k : Nat) (fd : Int) (ip : UInt32)
    (port : UInt16) (x : Nat) : content ((connected w k i fd ip port).pool.pool x) =
      if x = i then (fd, sockpoolSetUsed 0, ip, port) else content (w.pool.pool x) := by
  have hd := del_keeps sockpoolHsize i (prev_ne (hv.chains.linked _) hf)
  refine ((add_keeps _ k i).content x).trans ?_
  by_cases he : x = i
  · simp [Sockpool.modify, content, he]
  · rw [if_neg he, ← hd.content x]
    simp [Sockpool.modify, he]

lemma Valid.stored_ne {x : Nat} (hf : i ∈ lists sockpoolHsize) (hs : Stored lists x) : x ≠ i := by
  rintro rfl
  obtain ⟨j, inBucket, hi⟩ := hs
  exact inBucket (hv.chains.apart j sockpoolHsize x hi hf)

lemma Valid.stored_connected (hb : k ≠ sockpoolHsize) (hf : i ∈ lists sockpoolHsize)
    (x : Nat) : Stored (moved lists sockpoolHsize k i) x ↔ x = i ∨ Stored lists x := by
  constructor
  · rintro ⟨j, inBucket, hi⟩
    rcases (hv.chains.mem_moved hb.symm hf).mp hi with ⟨he, -⟩ | ⟨-, before⟩
    · exact .inl he
    · exact .inr ⟨j, inBucket, before⟩
  · rintro (he | ⟨j, inBucket, before⟩)
    · exact ⟨k, hb, (hv.chains.mem_moved hb.symm hf).mpr (.inl ⟨he, rfl⟩)⟩
    · have ho := hv.stored_ne hf ⟨j, inBucket, before⟩
      exact ⟨j, inBucket, (hv.chains.mem_moved hb.symm hf).mpr (.inr ⟨ho, before⟩)⟩

end

variable {port : UInt16}

lemma Valid.connects {ip : UInt32} (hv : Valid n w lists) (hb : k ≠ sockpoolHsize)
    (free : i ∈ lists sockpoolHsize) (hn : 0 ≤ fd) (hc : w.peer fd = none)
    (key : sockpoolKeygen ip port = k) :
    Valid n (connected w k i fd ip port) (moved lists sockpoolHsize k i) := by
  have contents := hv.connected_content free k fd ip port
  have new : content ((connected w k i fd ip port).pool.pool i) = (fd, sockpoolSetUsed 0, ip, port) :=
    (contents i).trans (if_pos rfl)
  have old : ∀ x ≠ i, content ((connected w k i fd ip port).pool.pool x) = content (w.pool.pool x) :=
    fun x ho => (contents x).trans (if_neg ho)
  obtain ⟨newFd, newFlags, newIp, newPort⟩ : _ ∧ _ ∧ _ ∧ _ := by simpa only [content, Prod.mk.injEq] using new
  have hk := del_keeps sockpoolHsize i (prev_ne (hv.chains.linked _) free)
  have before := hv.stored_connected hb free
  have ho : ∀ x, Stored lists x → x ≠ i := fun _ => hv.stored_ne free
  have differs : ∀ x, Stored lists x → (w.pool.pool x).fd ≠ fd := by
    rintro x stored rfl
    obtain ⟨j, hf⟩ := hv.mem_filed stored
    cases hc.symm.trans hf.connected
  have hs := hv.small
  have shorter := hv.list_le k
  refine ⟨?_, hs, ?_, hv.total_moved hb.symm free, ?_, ?_, ?_, ?_, ?_⟩
  · have hl : SameLinks (sockpoolHashDel w.pool sockpoolHsize i)
        ((sockpoolHashDel w.pool sockpoolHsize i).modify i fun it =>
          { it with flags := sockpoolSetUsed 0, fd, nused := 1, ip, port }) := by
      refine ⟨rfl, fun x => ?_, fun x => ?_⟩ <;> by_cases he : x = i <;> simp [Sockpool.modify, he]
    exact { hv.chains.move hb.symm free (by omega) hl with }
  · have size : (connected w k i fd ip port).pool.size = w.pool.size :=
      (add_keeps _ k i).size.trans hk.size
    rw [size]
    exact hv.size
  · have nused := hv.nused
    have filled := length_pos_of_mem free
    have count : (connected w k i fd ip port).pool.nused = w.pool.nused + 1 :=
      congrArg (· + 1) ((add_keeps _ k i).nused.trans hk.nused)
    rw [count, moved_source hb.symm, length_erase_of_mem free, UInt32.toNat_add]
    change (_ + 1) % 2 ^ 32 + _ = _
    omega
  · intro j inBucket x hi
    rcases (hv.chains.mem_moved hb.symm free).mp hi with ⟨rfl, rfl⟩ | ⟨hd, inList⟩
    · constructor <;> simp only [newFd, newFlags, newIp, newPort]
      · exact hn
      · exact update_self ..
      · exact key
      · exact ⟨fun _ => mem_cons_self, fun _ => isUsed_set⟩
    · have hf := hv.filed j inBucket x inList
      have notNew := differs x ⟨j, inBucket, inList⟩
      obtain ⟨sameFd, flags, sameIp, samePort⟩ := content_eq (old x hd)
      constructor <;> simp only [sameFd, flags, sameIp, samePort]
      · exact hf.valid
      · exact (update_of_ne notNew _ _).trans hf.connected
      · exact hf.key
      · rw [hf.used]
        exact ⟨mem_cons_of_mem fd, fun inHeld => (mem_cons.mp inHeld).resolve_left notNew⟩
  · intro x y storedX storedY he
    rcases (before x).mp storedX with rfl | oldX
    · rcases (before y).mp storedY with rfl | oldY
      · rfl
      · rw [newFd, (content_eq (old y (ho y oldY))).1] at he
        exact absurd he.symm (differs y oldY)
    · rcases (before y).mp storedY with rfl | oldY
      · rw [newFd, (content_eq (old x (ho x oldX))).1] at he
        exact absurd he (differs x oldX)
      · rw [(content_eq (old x (ho x oldX))).1, (content_eq (old y (ho y oldY))).1] at he
        exact hv.unique x y oldX oldY he
  · intro f inHeld
    rcases mem_cons.mp inHeld with rfl | hw
    · exact ⟨i, (before i).mpr (.inl rfl), newFd⟩
    · obtain ⟨x, stored, rfl⟩ := hv.held f hw
      exact ⟨x, (before x).mpr (.inr stored), (content_eq (old x (ho x stored))).1⟩
  · exact nodup_cons.mpr ⟨hv.closed_unheld hc, hv.once⟩

/-! ## The calls -/

lemma keygen_bucket (ip : UInt32) (port : UInt16) : sockpoolKeygen ip port ≠ sockpoolHsize := by
  have hs : sockpoolKeygen ip port < 256 := Nat.mod_lt _ (by decide)
  unfold sockpoolHsize
  omega

lemma sockTcpcli_eq_some {ip : UInt32} {answer : Option Int} {w' : World}
    (hc : sockTcpcli w ip port answer = some (fd, w')) :
    0 ≤ fd ∧ w.peer fd = none ∧ w' = { w with peer := update w.peer fd (some (ip, port)) } := by
  cases answer with
  | none => cases hc
  | some given =>
    dsimp only [sockTcpcli] at hc
    split at hc
    · next hu =>
      cases hc
      exact ⟨hu.1, hu.2, rfl⟩
    · cases hc

/-- The item that `sockpool_get` takes, when it takes one. -/
def candidate (w : World) (lists : Nat → List Nat) (ip : UInt32) (port : UInt16) (test : Int → Bool) : Option Nat :=
  (lists (sockpoolKeygen ip port)).find? fun i => idle test (w.pool.pool i)

/-- The address that the socket is connected to that `sockpool_get` returns. -/
def address (w : World) (ip : UInt32) (port : UInt16) : Option Nat → UInt32 × UInt16
  | some i => ((w.pool.pool i).ip, (w.pool.pool i).port)
  | none => (ip, port)

structure Got (w : World) (lists : Nat → List Nat) (ip : UInt32) (port : UInt16) (test : Int → Bool)
    (result : GetResult) (w' : World) : Prop where
  noItem : result ≠ .noItem
  fresh : 0 ≤ result.fd → result.fd ∉ w.held
  held : w'.held = if 0 ≤ result.fd then result.fd :: w.held else w.held
  peer : 0 ≤ result.fd → w'.peer result.fd = some (address w ip port (candidate w lists ip port test))
  reused : ¬ (ip < 1 ∨ port < 1) → ∀ i, candidate w lists ip port test = some i →
    result = .reused (w.pool.pool i).fd

/-- No socket is handed out. -/
lemma Got.failed {w w' : World} {lists : Nat → List Nat} {ip : UInt32} {test : Int → Bool}
    {result : GetResult} (noItem : result ≠ .noItem) (hf : result.fd < 0) (held : w'.held = w.held)
    (hn : ¬ (ip < 1 ∨ port < 1) → candidate w lists ip port test = none) :
    Got w lists ip port test result w' where
  noItem := noItem
  fresh nonneg := absurd nonneg (Int.not_le.mpr hf)
  held := held.trans (if_neg (Int.not_le.mpr hf)).symm
  peer nonneg := absurd nonneg (Int.not_le.mpr hf)
  reused hp i same := by
    rw [hn hp] at same
    cases same

section

variable (hv : Valid n w lists)
include hv

lemma Valid.counted (success failed : UInt32) :
    Valid n { w with pool := { w.pool with success, failed } } lists :=
  { hv with chains := { hv.chains with }, filed := fun k hb i hm => { hv.filed k hb i hm with } }

/-- An idle socket is handed to a caller. -/
lemma Valid.reuse (hb : k ≠ sockpoolHsize) (hm : i ∈ lists k)
    (hu : (w.pool.pool i).fd ∉ w.held) (nused : UInt32) : Valid n (World.succeed { w with
      pool := w.pool.modify i fun it => { it with nused, flags := sockpoolSetUsed it.flags } }
      (w.pool.pool i).fd) lists := by
  have hr := modify_reflagged w.pool i nused (sockpoolSetUsed (w.pool.pool i).flags)
  refine (hv.reflagged hb hm hr ?_ ?_ (nodup_cons.mpr ⟨hu, hv.once⟩)).counted _ _
  · simp [Sockpool.modify, isUsed_set]
  · intro fd ho
    simp [ho]

lemma Valid.unique_ok (hb : k ≠ sockpoolHsize) (i : Nat) (fd : Int) :
    let pool := w.pool.modify i fun it => { it with nused := it.nused + 1 }
    ∃ count, uniqueLoop pool fd pool.turns (pool.hash k).head 0 = .ok count := by
  intro pool
  have hr : Reflagged w.pool pool i := modify_reflagged w.pool i _ (w.pool.pool i).flags
  have hc := hv.chains.relink hr.toSameLinks
  rw [hc.head]
  refine uniqueLoop_ok hc (fun x hm => ?_) fd (nil_append _).symm ?_ 0
  · rw [hr.fd]
    exact (hv.filed k hb x hm).valid
  · rw [Sockpool.turns, hr.size, hv.size]
    exact Nat.lt_succ_of_le (hv.list_le k)

/-- No socket of the bucket can be used, so a new one is connected. -/
lemma Valid.connect (ip : UInt32) (port : UInt16) (hr : ¬ w.pool.nused ≥ w.pool.size)
    (hn : 0 ≤ fd) (hc : w.peer fd = none) :
    ∃ i lists', sockpoolHashGet w.pool sockpoolHsize = (some i, sockpoolHashDel w.pool sockpoolHsize i) ∧
      Valid n (connected w (sockpoolKeygen ip port) i fd ip port) lists' := by
  have hs := hv.size
  have nused := hv.nused
  rw [ge_iff_le, UInt32.le_iff_toNat_le] at hr
  cases hf : lists sockpoolHsize with
  | nil =>
    rw [hf, length_nil] at nused
    omega
  | cons i rest =>
    have hm : i ∈ lists sockpoolHsize := hf ▸ mem_cons_self
    exact ⟨i, _, hv.chains.get hf, hv.connects (keygen_bucket ip port) hm hn hc rfl⟩

lemma Valid.get (ip : UInt32) (port : UInt16) (test : Int → Bool) (answer : Option Int) :
    ∃ result w' lists', sockpoolGet w ip port test answer = .ok (result, w') ∧ Valid n w' lists' ∧
      Got w lists ip port test result w' := by
  have hb := keygen_bucket ip port
  by_cases hi : ip < 1 ∨ port < 1
  · refine ⟨.invalid, w, lists, if_pos hi, hv, .failed (by simp) (by decide) rfl ?_⟩
    exact fun hp => absurd hi hp
  have hf : (lists (sockpoolKeygen ip port)).length < w.pool.turns := by
    rw [Sockpool.turns, hv.size]
    exact Nat.lt_succ_of_le (hv.list_le _)
  obtain ⟨item?, w1, lists1, run, searched⟩ := hv.findFreeLoop test hb (nil_append _).symm hf
  rw [← hv.chains.head] at run
  have search : sockpoolHashFindFree test w (sockpoolKeygen ip port) = .ok (item?, w1) := run
  have found : candidate w lists ip port test = item? := searched.result.symm
  have valid1 := searched.valid
  simp only [sockpoolGet, if_neg hi, search]
  cases item? with
  | some i =>
    have hm := searched.member i rfl
    have filed := valid1.filed _ hb i hm
    obtain ⟨fd, flags, sameIp, samePort⟩ := content_eq (searched.content i)
    have isIdle : idle test (w.pool.pool i) = true := find?_some (p := fun i => idle test (w.pool.pool i)) found
    have hu : (w1.pool.pool i).fd ∉ w1.held := by
      intro inHeld
      have used := filed.used.mpr inHeld
      rw [flags] at used
      simp [idle, used] at isIdle
    obtain ⟨count, counted⟩ := valid1.unique_ok hb i (w1.pool.pool i).fd
    refine ⟨.reused (w1.pool.pool i).fd, _, lists1, ?_,
      valid1.reuse hb hm hu ((w1.pool.pool i).nused + 1), by simp, ?_, ?_, ?_, ?_⟩
    · have hs : ((w1.pool.modify i fun it => { it with nused := it.nused + 1 }).pool i).fd =
          (w1.pool.pool i).fd := by simp [Sockpool.modify]
      dsimp only [bind, Except.bind]
      simp only [hs, counted, modify_modify]
      rfl
    · exact fun _ => searched.held ▸ hu
    · exact (congrArg _ searched.held).trans (if_pos filed.valid).symm
    · intro _
      rw [found]
      refine filed.connected.trans ?_
      rw [sameIp, samePort]
      rfl
    · intro _ j he
      cases found.symm.trans he
      rw [fd]
  | none =>
    by_cases hr : w1.pool.nused ≥ w1.pool.size
    · exact ⟨.full, w1.fail, lists1, if_pos hr, valid1.counted _ _,
        .failed (by simp) (by decide) searched.held fun _ => found⟩
    · cases hc : sockTcpcli w1 ip port answer with
      | none =>
        refine ⟨.refused, w1.fail, lists1, ?_, valid1.counted _ _,
          .failed (by simp) (by decide) searched.held fun _ => found⟩
        dsimp only [bind, Except.bind]
        rw [if_neg hr, hc]
        rfl
      | some socket =>
        obtain ⟨fd, w2⟩ := socket
        obtain ⟨hn, closed, rfl⟩ := sockTcpcli_eq_some hc
        obtain ⟨i, lists2, ht, valid2⟩ := valid1.connect ip port hr hn closed
        let pool := (connected w1 (sockpoolKeygen ip port) i fd ip port).pool
        have valid3 := valid2.counted (pool.success + 1) pool.failed
        refine ⟨.connected fd, _, lists2, ?_, valid3, by simp, ?_, ?_, ?_, ?_⟩
        · dsimp only [bind, Except.bind]
          rw [if_neg hr, hc]
          dsimp only
          rw [ht]
          rfl
        · intro _ inHeld
          exact valid1.closed_unheld closed (searched.held ▸ inHeld)
        · exact (congrArg _ searched.held).trans (if_pos hn).symm
        · intro _
          rw [found]
          exact update_self ..
        · intro _ i he
          rw [found] at he
          cases he

/-- A socket that is put back is found in the pool. -/
lemma Valid.put (hi : fd ∈ w.held) (isclose : Bool) :
    ∃ w' lists', sockpoolPut w fd isclose = .ok (true, w') ∧ Valid n w' lists' ∧ w'.held = w.held.erase fd := by
  obtain ⟨i, ⟨k, hb, hm⟩, rfl⟩ := hv.held fd hi
  have filed := hv.filed k hb i hm
  have hf : (lists k).length < w.pool.turns := by
    rw [Sockpool.turns, hv.size]
    exact Nat.lt_succ_of_le (hv.list_le k)
  have found := hv.findLoop hb hm (nil_append _).symm hm hf
  rw [← hv.chains.head] at found
  have he : sockpoolKeygen (w.pool.pool i).ip (w.pool.pool i).port = k := filed.key
  simp only [sockpoolPut, if_neg (Int.not_lt.mpr filed.valid), filed.connected, he, found]
  cases isclose with
  | true => exact ⟨_, _, rfl, hv.drop hb hm, rfl⟩
  | false =>
    have hr := modify_reflagged w.pool i (w.pool.pool i).nused (sockpoolClrUsed (w.pool.pool i).flags)
    refine ⟨_, lists, rfl, hv.reflagged hb hm hr ?_ ?_ (hv.once.erase _), rfl⟩
    · simp [Sockpool.modify, isUsed_clr, hv.once.mem_erase_iff]
    · exact fun fd ho => mem_erase_of_ne ho

end

/-! ## A new pool -/

/-- An item of a new pool: between its neighbours in the array. -/
def unusedItem (size i : Nat) : SockpoolItem where
  prev := if i = 0 then none else some (i - 1)
  next := if i = size - 1 then none else some (i + 1)
  fd := -1
  nused := 0
  flags := 0
  port := 0
  ip := 0

lemma initItems_ok {size left i : Nat} (sum : i + left = size) (hs : size < 2 ^ 31) (items : Nat → SockpoolItem) :
    ∃ items', initItems size left i items = .ok items' ∧ (∀ x < i, items' x = items x) ∧
      ∀ x, i ≤ x → x < size → items' x = unusedItem size x := by
  induction left generalizing i items with
  | zero => exact ⟨items, rfl, fun _ _ => rfl, fun x _ _ => by omega⟩
  | succ left ih =>
    obtain ⟨items', run, hl, ha⟩ :=
      ih (i := i + 1) (by omega) (update items i (unusedItem size i))
    refine ⟨items', (if_pos (by omega)).trans run, fun x less => ?_, fun x least less => ?_⟩
    · rw [hl x (by omega), update_of_ne (by omega)]
    · rcases Nat.eq_or_lt_of_le least with rfl | later
      · rw [hl i (by omega), update_self]
      · exact ha x later less

lemma initItems_overflow {size left i : Nat} (hi : i < 2 ^ 31) (hl : 2 ^ 31 ≤ i + left)
    (items : Nat → SockpoolItem) : initItems size left i items = .error .overflow := by
  induction left generalizing i items with
  | zero => omega
  | succ left ih =>
    by_cases last : i + 1 < 2 ^ 31
    · exact (if_pos last).trans (ih last (by omega) _)
    · exact if_neg last

lemma segment_unused (hh : (pool.hash k).head = some 0)
    (items : ∀ x < n, pool.pool x = unusedItem n x) {left i : Nat} (sum : i + left = n) (hf : 0 < n) :
    Segment (view pool k) (slotOf (if i = 0 then none else some (i - 1))) (List.range' i left) := by
  induction left generalizing i with
  | zero =>
    have hl : pool.pool (i - 1) = unusedItem n (i - 1) := items _ (by omega)
    rw [if_neg (by omega)]
    simp [Segment, Pointers.read, view, slotOf, hl, unusedItem, ← sum]
  | succ left ih =>
    have hhe := items i (by omega)
    refine ⟨?_, ?_, ?_⟩
    · by_cases first : i = 0
      · simp [first, slotOf, Pointers.read, view, hh]
      · have before := items (i - 1) (by omega)
        have hi : i - 1 ≠ n - 1 := by omega
        have next : i - 1 + 1 = i := by omega
        simp [first, slotOf, Pointers.read, view, before, unusedItem, hi, next]
    · simp [view, hhe, unusedItem]
    · simpa [slotOf] using ih (i := i + 1) (by omega)

/-- All items of a new pool are on the free list. -/
lemma alloc_valid (hf : 1 ≤ n) (hs : n < 2 ^ 31) (items : Nat → SockpoolItem)
    (peer : Int → Option (UInt32 × UInt16)) : ∃ pool, sockpoolAlloc n true items = .ok (some pool) ∧
      Valid n { pool, peer, held := [] } fun k => if k = sockpoolHsize then List.range n else [] := by
  obtain ⟨items', run, -, fresh⟩ := initItems_ok (Nat.zero_add n) hs items
  have size : (UInt32.ofNat n).toNat = n := UInt32.toNat_ofNat_of_lt' (Nat.lt_trans hs (by decide))
  have ha : ¬ (n < 1 ∨ (!true) = true) := by
    simp
    omega
  simp only [sockpoolAlloc, if_neg ha, run]
  refine ⟨_, rfl, ?_, hs, size, ?_, ?_, ?_, ?_, nofun, nodup_nil⟩
  · refine ⟨fun k => ?_, fun k => ?_, fun j k i hh ht => ?_⟩
    · by_cases free : k = sockpoolHsize
      · rw [if_pos free]
        refine ⟨?_, nodup_range⟩
        rw [range_eq_range']
        refine segment_unused ?_ (fun x hl => fresh x (Nat.zero_le x) hl) (Nat.zero_add n) hf
        simp [free]
      · rw [if_neg free]
        exact linked_empty (by simp [view, free])
    · by_cases free : k = sockpoolHsize
      · simp [free, size]
      · simp [free]
    · by_cases atJ : j = sockpoolHsize
      · by_cases atK : k = sockpoolHsize
        · exact atJ.trans atK.symm
        · simp [atK] at ht
      · simp [atJ] at hh
  · intro i
    constructor
    · intro hl
      exact ⟨sockpoolHsize, by simp [hl]⟩
    · rintro ⟨k, hi⟩
      by_cases free : k = sockpoolHsize
      · simpa [free] using hi
      · simp [free] at hi
  · simp
  · intro k hb i hi
    simp [hb] at hi
  · rintro i j ⟨k, hb, hi⟩
    simp [hb] at hi

variable {items : Nat → SockpoolItem}

lemma alloc_bounds (ha : sockpoolAlloc n true items = .ok (some pool)) : 1 ≤ n ∧ n < 2 ^ 31 := by
  rw [sockpoolAlloc] at ha
  split at ha
  · cases ha
  · next args =>
    refine ⟨by omega, Nat.lt_of_not_le fun hl => ?_⟩
    rw [initItems_overflow (by decide) (by omega)] at ha
    cases ha

/-! ## Runs -/

/-- The states that calls lead to from a new pool. A caller puts back what it holds only. -/
inductive Reaches (n : Nat) (items : Nat → SockpoolItem) : World → Prop
  | start {pool : Sockpool} {peer : Int → Option (UInt32 × UInt16)}
      (alloc : sockpoolAlloc n true items = .ok (some pool)) : Reaches n items { pool, peer, held := [] }
  | get {w w' : World} {ip : UInt32} {port : UInt16} {test : Int → Bool} {answer : Option Int} {result : GetResult}
      (run : Reaches n items w) (call : sockpoolGet w ip port test answer = .ok (result, w')) : Reaches n items w'
  | put {w w' : World} {fd : Int} {isclose result : Bool} (run : Reaches n items w) (held : fd ∈ w.held)
      (call : sockpoolPut w fd isclose = .ok (result, w')) : Reaches n items w'

lemma Reaches.valid (run : Reaches n items w) : ∃ lists, Valid n w lists := by
  induction run with
  | @start pool peer ha =>
    obtain ⟨hf, hs⟩ := alloc_bounds ha
    obtain ⟨pool', ha', hv⟩ := alloc_valid hf hs items peer
    cases ha.symm.trans ha'
    exact ⟨_, hv⟩
  | @get w w' ip port test answer result run hc ih =>
    obtain ⟨lists, hv⟩ := ih
    obtain ⟨result', w'', lists', hc', hv', -⟩ := hv.get ip port test answer
    cases hc.symm.trans hc'
    exact ⟨lists', hv'⟩
  | @put w w' fd isclose result run hh hc ih =>
    obtain ⟨lists, hv⟩ := ih
    obtain ⟨w'', lists', hc', hv', -⟩ := hv.put hh isclose
    cases hc.symm.trans hc'
    exact ⟨lists', hv'⟩

/-- What a state of the pool should be: the items are on the lists, no call fails, a socket
that is held is not handed out, and there is always an item for a new socket. -/
structure Right (n : Nat) (w : World) : Prop where
  partition : ∃ lists, Valid n w lists
  get : ∀ ip port test answer, ∃ result w', sockpoolGet w ip port test answer = .ok (result, w') ∧
    result ≠ .noItem ∧ (0 ≤ result.fd → result.fd ∉ w.held)
  put : ∀ fd ∈ w.held, ∀ isclose, ∃ w', sockpoolPut w fd isclose = .ok (true, w')

/-- The loop over the items has an `int` as its index. -/
theorem sockpool_partitioned (filled : 1 ≤ n) (small : n < 2 ^ 31) (items : Nat → SockpoolItem) :
    (∃ pool, sockpoolAlloc n true items = .ok (some pool)) ∧ ∀ w, Reaches n items w → Right n w := by
  constructor
  · obtain ⟨pool, ha, -⟩ := alloc_valid filled small items fun _ => none
    exact ⟨pool, ha⟩
  · intro w run
    obtain ⟨lists, hv⟩ := run.valid
    refine ⟨⟨lists, hv⟩, fun ip port test answer => ?_, fun fd hh isclose => ?_⟩
    · obtain ⟨result, w', lists', hc, -, got⟩ := hv.get ip port test answer
      exact ⟨result, w', hc, got.noItem, got.fresh⟩
    · obtain ⟨w', lists', hc, -⟩ := hv.put hh isclose
      exact ⟨w', hc⟩

theorem sockpool_partitioned_one : (∃ pool, sockpoolAlloc 1 true (unusedItem 1) = .ok (some pool)) ∧
      ∀ w, Reaches 1 (unusedItem 1) w → Right 1 w :=
  sockpool_partitioned (by decide) (by decide) (unusedItem 1)

/-- The largest `int` is one less than the number of the items. -/
theorem sockpool_index_overflows : sockpoolAlloc (2 ^ 31) true (unusedItem 1) = .error .overflow := by
  rw [sockpoolAlloc, if_neg (by decide), initItems_overflow (by decide) (by decide)]
  rfl

end Fzsvn.Guarantees.Socket.PoolPartition
