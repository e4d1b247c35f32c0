import Fzsvn.Library.LinkedQueue
import Fzsvn.Source.Ipc.Shmpool
import Mathlib.Data.List.Nodup
import Mathlib.Data.List.Perm.Subperm

/-!
# The free list of a shared pool is a queue

`front`, the `next` fields and `rear` thread the free nodes of a pool on a queue, and
`freed` counts them. `shmpool_get` takes its first node and `shmpool_put` appends the node
it is given, from the initial queue of all nodes on (`shmpool_queue`).
-/
namespace Fzsvn.Guarantees.Ipc.ShmpoolQueue
open Library.MachineInt Library.LinkedQueue Source.Ipc List Function

/-! ## The queue -/

/-- The offsets of the nodes. -/
def offsets (pool : Shmpool) : List Int :=
  (List.range pool.maxobjs.toNat).map fun i : Nat => i * nodesize pool

def nextOf (pool : Shmpool) (node : Int) : Int := (pool.nodes node).next

/-- The free nodes in the order in which they are handed out. -/
structure Linked (pool : Shmpool) (queue : List Int) : Prop where
  chain : Chained (-1) (nextOf pool) pool.front queue
  rear : pool.rear = queue.getLastD (-1)
  freed : pool.freed = queue.length
  nodup : queue.Nodup
  valid : ∀ node ∈ queue, node ∈ offsets pool

inductive ShmOp where
  | get
  | put (node : Int)

/-- The free nodes are those that are not held. -/
structure Represents (pool : Shmpool) (queue held : List Int) : Prop where
  linked : Linked pool queue
  split : (queue ++ held).Perm (offsets pool)

/-- In every state of the run the free list is the queue of the nodes that are not held. A
get returns its first node, and `NULL` exactly when all nodes are held; a put of a held node
appends it. -/
def Refines : List ShmOp → Shmpool → (queue held : List Int) → Prop
  | [], pool, queue, held => Represents pool queue held
  | .get :: ops, pool, queue, held => Represents pool queue held ∧
      ∃ pool', shmpoolGet pool = .ok (queue.head?, pool') ∧
        (queue.head? = none ↔ held.length = pool.maxobjs) ∧
        Refines ops pool' queue.tail (queue.head?.toList ++ held)
  | .put node :: ops, pool, queue, held => Represents pool queue held ∧
      (node ∈ held → ∃ pool', shmpoolPut pool node = .ok (0, pool') ∧
        Refines ops pool' (queue ++ [node]) (held.erase node))

/-! ## Offsets -/

/-- At least one node, and offsets that fit an `int`. -/
structure Sized (pool : Shmpool) : Prop where
  objsize : 0 < pool.objsize
  maxobjs : 1 ≤ pool.maxobjs
  fits : pool.maxobjs * nodesize pool < 2 ^ 31

variable {pool pool' : Shmpool} {queue held : List Int} {node : Int}

lemma Sized.nodesize_pos (sized : Sized pool) : 0 < nodesize pool := by
  have := sized.objsize
  unfold nodesize
  omega

/-- The sizes of a pool do not change. -/
lemma offsets_same (ho : pool'.objsize = pool.objsize) (hm : pool'.maxobjs = pool.maxobjs) :
    offsets pool' = offsets pool := by
  rw [offsets, offsets, nodesize, nodesize, ho, hm]

section

variable (sized : Sized pool)
include sized

lemma Sized.same (ho : pool'.objsize = pool.objsize)
    (hm : pool'.maxobjs = pool.maxobjs) : Sized pool' := by
  refine ⟨?_, ?_, ?_⟩
  · rw [ho]; exact sized.objsize
  · rw [hm]; exact sized.maxobjs
  · rw [nodesize, ho, hm]; exact sized.fits

section

variable (hm : node ∈ offsets pool)
include hm

lemma mem_offsets : 0 ≤ node ∧ node ≤ lastPos pool ∧ node % nodesize pool = 0 := by
  obtain ⟨i, hl, rfl⟩ := mem_map.mp hm
  have positive := sized.nodesize_pos
  have low : (i : Int) ≤ pool.maxobjs - 1 := by
    have := mem_range.mp hl
    omega
  have first : 0 ≤ (i : Int) * nodesize pool := Int.mul_nonneg (by omega) (Int.le_of_lt positive)
  have last := Int.mul_le_mul_of_nonneg_right low (Int.le_of_lt positive)
  have short := sized.fits
  have less : (pool.maxobjs - 1) * nodesize pool = pool.maxobjs * nodesize pool - nodesize pool := by
    rw [Int.sub_mul, Int.one_mul]
  refine ⟨first, ?_, Int.mul_emod_left _ _⟩
  rwa [lastPos, toSize_small (by omega) (by omega)]

lemma offset_ne_stop : node ≠ -1 := by
  have := (mem_offsets sized hm).1
  omega

lemma shmpoolPtr_offset : shmpoolPtr pool node = some node := by
  obtain ⟨low, hh, ha⟩ := mem_offsets sized hm
  rw [shmpoolPtr, if_neg (by omega), if_neg (by omega)]

lemma shmpoolIdx_offset : shmpoolIdx pool node = node := by
  obtain ⟨low, hh, ha⟩ := mem_offsets sized hm
  rw [shmpoolIdx, if_neg (by omega), if_neg (by omega)]

end

lemma offsets_nodup : (offsets pool).Nodup := by
  refine List.Nodup.map (fun i j he => ?_) nodup_range
  have hp := sized.nodesize_pos
  exact Int.ofNat_inj.mp (Int.eq_of_mul_eq_mul_right (by omega) he)

lemma offsets_length : ((offsets pool).length : Int) = pool.maxobjs := by
  have := sized.maxobjs
  rw [offsets, length_map, length_range]
  omega

end

lemma Linked.freed_le (hl : Linked pool queue) (sized : Sized pool) :
    0 ≤ pool.freed ∧ pool.freed ≤ pool.maxobjs := by
  have length := offsets_length sized
  have hs : queue.length ≤ (offsets pool).length :=
    (subperm_of_subset hl.nodup hl.valid).length_le
  rw [hl.freed]
  omega

lemma Sized.maxobjs_lt (sized : Sized pool) : pool.maxobjs + 1 < 2 ^ 31 := by
  have hc := sized.maxobjs
  have hs := sized.objsize
  have ht : pool.maxobjs * 2 ≤ pool.maxobjs * nodesize pool :=
    Int.mul_le_mul_of_nonneg_left (by unfold nodesize; omega) (by omega)
  have := sized.fits
  omega

/-! ## Taking and putting -/

/-- The pool after `node` was taken from the front. -/
def taken (pool : Shmpool) (node : Int) : Shmpool :=
  { pool with
    front := (pool.nodes node).next
    rear := if (pool.nodes node).next = -1 then -1 else pool.rear
    nodes := update pool.nodes node { pool.nodes node with next := -1, flags := shmpoolUsed }
    freed := toInt (pool.freed - 1) }

lemma taken_linked (sized : Sized pool) (hl : Linked pool (node :: queue)) :
    Linked (taken pool node) queue := by
  obtain ⟨hh, hd, rest⟩ := hl.chain
  obtain ⟨hf, hn⟩ := nodup_cons.mp hl.nodup
  have others : ∀ b ∈ queue, nextOf (taken pool node) b = nextOf pool b := by
    intro b hm
    have ho : b ≠ node := fun he => hf (he ▸ hm)
    exact congrArg ShmNode.next (update_of_ne ho _ _)
  have hb := hl.freed_le sized
  have hs := sized.maxobjs_lt
  have hc : pool.freed = queue.length + 1 := hl.freed
  refine ⟨rest.congr others, ?_, ?_, hn, fun b hm => hl.valid b (.tail _ hm)⟩
  · change (if nextOf pool node = -1 then -1 else pool.rear) = _
    cases queue with
    | nil => exact if_pos rest
    | cons b queue =>
      obtain ⟨first, hd, -⟩ := rest
      rw [if_neg (by rw [first]; exact hd), hl.rear]
      rfl
  · change toInt (pool.freed - 1) = _
    rw [toInt_small (by omega) (by omega)]
    omega

lemma get_taken (sized : Sized pool) (hl : Linked pool (node :: queue)) :
    shmpoolGet pool = .ok (some node, taken pool node) := by
  have some_free : ¬ pool.freed = 0 := by
    have hc : pool.freed = queue.length + 1 := hl.freed
    omega
  have hf : pool.front = node := hl.chain.1
  have hp : shmpoolPtr pool pool.front = some node := by
    rw [hf]
    exact shmpoolPtr_offset sized (hl.valid node (.head _))
  simp only [shmpoolGet, if_neg some_free, hp]
  rfl

/-- The pool after `node` was appended behind `last`, or put into the empty queue. -/
def appended (pool : Shmpool) (node : Int) : Shmpool :=
  let nodes := update pool.nodes node { pool.nodes node with next := -1, flags := 0 }
  if pool.freed < 1 then
    { pool with nodes, front := node, rear := node, freed := toInt (pool.freed + 1) }
  else
    { pool with
      nodes := update nodes pool.rear { nodes pool.rear with next := node }
      rear := node
      freed := toInt (pool.freed + 1) }

lemma appended_linked (sized : Sized pool) (hl : Linked pool queue) (hf : node ∉ queue)
    (hm : node ∈ offsets pool) : Linked (appended pool node) (queue ++ [node]) := by
  have hb := hl.freed_le sized
  have hs := sized.maxobjs_lt
  have hd := offset_ne_stop sized hm
  have hc : toInt (pool.freed + 1) = (queue ++ [node]).length := by
    rw [toInt_small (by omega) (by omega), hl.freed, length_append]
    rfl
  have nodup : (queue ++ [node]).Nodup := by
    rw [← concat_eq_append]
    exact hl.nodup.concat hf
  have hv : ∀ b ∈ queue ++ [node], b ∈ offsets pool := by
    intro b hi
    obtain old | new := mem_append.mp hi
    · exact hl.valid b old
    · exact mem_singleton.mp new ▸ hm
  have last : (queue ++ [node]).getLastD (-1) = node := by simp
  rcases eq_nil_or_concat queue with rfl | ⟨front, rear, rfl⟩
  · have hn : pool.freed < 1 := by rw [hl.freed]; decide
    rw [appended, if_pos hn]
    refine ⟨⟨rfl, hd, ?_⟩, last.symm, hc, nodup, hv⟩
    simp only [nextOf, update_self, Chained]
  · have some_free : ¬ pool.freed < 1 := by
      rw [hl.freed, concat_eq_append, length_append, length_singleton]
      omega
    have rear_eq : pool.rear = rear := by rw [hl.rear]; simp
    rw [concat_eq_append] at *
    have ho : rear ≠ node := fun he => hf (by simp [he])
    have distinct : rear ∉ front := by
      have := nodup_append.mp hl.nodup
      intro hi
      exact this.2.2 rear hi rear (.head _) rfl
    rw [appended, if_neg some_free, rear_eq]
    refine ⟨hl.chain.append (fun b hi => ?_) ?_ hd ?_, last.symm, hc, nodup, hv⟩
    · have not_rear : b ≠ rear := fun he => distinct (he ▸ hi)
      have not_node : b ≠ node := fun he => hf (mem_append_left _ (he ▸ hi))
      exact congrArg ShmNode.next ((update_of_ne not_rear _ _).trans (update_of_ne not_node _ _))
    · simp only [nextOf, update_self]
    · simp only [nextOf, update_of_ne ho.symm, update_self]

lemma Linked.rear_valid (hl : Linked pool queue) (some_free : 1 ≤ pool.freed) :
    pool.rear ∈ offsets pool := by
  have hn : queue ≠ [] := by
    rintro rfl
    rw [hl.freed] at some_free
    exact absurd some_free (by decide)
  rw [hl.rear, getLastD_eq_getLast?, getLast?_eq_some_getLast hn]
  exact hl.valid _ (getLast_mem hn)

lemma put_appended (sized : Sized pool) (hl : Linked pool queue) (hm : node ∈ offsets pool)
    (hu : (pool.nodes node).flags = shmpoolUsed) : shmpoolPut pool node = .ok (0, appended pool node) := by
  have hc : ¬ (pool.nodes node).flags &&& shmpoolUsed = 0 := by rw [hu]; decide
  simp only [shmpoolPut, appended, if_neg hc, shmpoolIdx_offset sized hm]
  by_cases hn : pool.freed < 1
  · rw [if_pos hn, if_pos hn]
  · simp only [if_neg hn, shmpoolPtr_offset sized (hl.rear_valid (by omega))]

/-! ## Runs -/

structure Valid (pool : Shmpool) (queue held : List Int) : Prop extends Represents pool queue held where
  sized : Sized pool
  used : ∀ node ∈ held, (pool.nodes node).flags = shmpoolUsed

lemma Valid.nodup (hv : Valid pool queue held) : (queue ++ held).Nodup :=
  hv.split.nodup_iff.mpr (offsets_nodup hv.sized)

lemma taken_valid (hv : Valid pool (node :: queue) held) :
    Valid (taken pool node) queue (node :: held) where
  sized := hv.sized.same rfl rfl
  linked := taken_linked hv.sized hv.linked
  split := perm_middle.trans hv.split
  used := by
    intro b hm
    by_cases he : b = node
    · simp only [taken, he, update_self]
    · have hb : (pool.nodes b).flags = shmpoolUsed :=
        hv.used b ((mem_cons.mp hm).resolve_left he)
      simpa only [taken, update_of_ne he] using hb

lemma appended_flags {b : Int} (ho : b ≠ node) :
    ((appended pool node).nodes b).flags = (pool.nodes b).flags := by
  unfold appended
  split
  next => simp only [update_of_ne ho]
  next =>
    by_cases hr : b = pool.rear
    · simp only [hr, update_self, update_of_ne (hr ▸ ho)]
    · simp only [update_of_ne hr, update_of_ne ho]

lemma appended_sizes (pool : Shmpool) (node : Int) : (appended pool node).objsize = pool.objsize ∧
    (appended pool node).maxobjs = pool.maxobjs := by
  unfold appended
  split <;> exact ⟨rfl, rfl⟩

lemma appended_valid (hv : Valid pool queue held) (hm : node ∈ held) :
    Valid (appended pool node) (queue ++ [node]) (held.erase node) := by
  obtain ⟨-, nodup_held, hd⟩ := nodup_append.mp hv.nodup
  have hi : node ∈ offsets pool := hv.split.subset (mem_append_right _ hm)
  have hf : node ∉ queue := fun old => hd node old node hm rfl
  have hs := appended_sizes pool node
  refine ⟨⟨appended_linked hv.sized hv.linked hf hi, ?_⟩, hv.sized.same hs.1 hs.2, ?_⟩
  · rw [offsets_same hs.1 hs.2, append_assoc]
    exact ((perm_cons_erase hm).symm.append_left queue).trans hv.split
  · intro b hk
    have ho : b ≠ node := fun eq => nodup_held.not_mem_erase (eq ▸ hk)
    rw [appended_flags ho]
    exact hv.used b (mem_of_mem_erase hk)

lemma Valid.held_length (hv : Valid pool queue held) :
    queue.head? = none ↔ held.length = pool.maxobjs := by
  have ht := hv.split.length_eq
  have hc := offsets_length hv.sized
  rw [length_append] at ht
  rw [head?_eq_none_iff, ← length_eq_zero_iff]
  omega

lemma refines_of_valid {ops : List ShmOp} (hv : Valid pool queue held) :
    Refines ops pool queue held := by
  induction ops generalizing pool queue held with
  | nil => exact hv.toRepresents
  | cons op ops ih =>
    cases op with
    | get =>
      cases queue with
      | nil =>
        have none_free : pool.freed = 0 := hv.linked.freed
        refine ⟨hv.toRepresents, pool, ?_, hv.held_length, ih hv⟩
        rw [shmpoolGet, if_pos none_free, head?_nil]
      | cons node queue =>
        exact ⟨hv.toRepresents, taken pool node, get_taken hv.sized hv.linked,
          hv.held_length, ih (taken_valid hv)⟩
    | put node =>
      refine ⟨hv.toRepresents, fun hm => ?_⟩
      have hi : node ∈ offsets pool := hv.split.subset (mem_append_right _ hm)
      exact ⟨appended pool node, put_appended hv.sized hv.linked hi (hv.used node hm),
        ih (appended_valid hv hm)⟩

/-! ## The initial pool -/

/-- Values stored one after another under different keys. -/
lemma foldl_update {β : Type} {key : Nat → Int} {value : Nat → β} (old : Int → β) {n : Nat}
    (hd : ∀ i < n, ∀ j < n, key i = key j → i = j) {i : Nat} (hl : i < n) :
    (List.range n).foldl (fun store j => update store (key j) (value j)) old (key i) = value i := by
  induction n with
  | zero => omega
  | succ n ih =>
    rw [range_succ, foldl_append, foldl_cons, foldl_nil]
    by_cases last : i = n
    · rw [last, update_self]
    · have ho : key i ≠ key n := fun he => last (hd i hl n (by omega) he)
      rw [update_of_ne ho]
      exact ih (fun i _ j _ => hd i (by omega) j (by omega)) (by omega)

lemma offset_fits (sized : Sized pool) {i : Nat} (hl : (i : Int) ≤ pool.maxobjs) :
    toInt (i * nodesize pool) = i * nodesize pool := by
  have hs := sized.nodesize_pos
  have hh : (i : Int) * nodesize pool ≤ pool.maxobjs * nodesize pool :=
    Int.mul_le_mul_of_nonneg_right hl (by omega)
  have low : 0 ≤ (i : Int) * nodesize pool := Int.mul_nonneg (by omega) (by omega)
  have hf := sized.fits
  exact toInt_small (by omega) (by omega)

lemma init_node (sized : Sized pool) {i : Nat} (hl : i < pool.maxobjs.toNat) :
    (shmpoolInit pool).nodes (i * nodesize pool) = initNode pool i := by
  have hd : ∀ i < pool.maxobjs.toNat, ∀ j < pool.maxobjs.toNat,
      toInt (i * nodesize pool) = toInt (j * nodesize pool) → i = j := by
    intro i below_i j below_j he
    rw [offset_fits sized (by omega), offset_fits sized (by omega)] at he
    have hp := sized.nodesize_pos
    exact Int.ofNat_inj.mp (Int.eq_of_mul_eq_mul_right (by omega) he)
  rw [← offset_fits sized (by omega)]
  exact foldl_update pool.nodes hd hl

lemma init_linked (sized : Sized pool) : Linked (shmpoolInit pool) (offsets pool) := by
  have count := sized.maxobjs
  have size := sized.nodesize_pos
  have hs : 0 < pool.maxobjs.toNat := by omega
  have hc : Chained (-1) (nextOf (shmpoolInit pool)) (((0 : Nat) : Int) * nodesize pool)
      (offsets pool) := by
    refine chained_range (fun i : Nat => (i : Int) * nodesize pool) (fun i hl => ?_) (fun i hl => ?_)
      (fun i last => ?_) hs
    · have low : 0 ≤ (i : Int) * nodesize pool := Int.mul_nonneg (by omega) (by omega)
      omega
    · rw [nextOf, init_node sized (by omega), initNode, if_pos (by omega)]
      exact offset_fits (i := i + 1) sized (by omega)
    · rw [nextOf, init_node sized (by omega), initNode, if_neg (by omega)]
  refine ⟨?_, ?_, ?_, offsets_nodup sized, fun _ hm => hm⟩
  · have zero : ((0 : Nat) : Int) * nodesize pool = 0 := Int.zero_mul _
    rwa [zero] at hc
  · obtain ⟨last, ht⟩ : ∃ last : Nat, pool.maxobjs = last + 1 := ⟨pool.maxobjs.toNat - 1, by omega⟩
    have hr : (shmpoolInit pool).rear = last * nodesize pool := by
      change toInt ((pool.maxobjs - 1) * nodesize pool) = _
      rw [ht, Int.add_sub_cancel]
      exact offset_fits sized (by omega)
    have hn : pool.maxobjs.toNat = last + 1 := by omega
    rw [hr, offsets, hn, range_succ]
    simp
  · exact (offsets_length sized).symm

/-- From an initialised pool of at least one node on, whose offsets fit an `int`, the free
list is the queue of the nodes that are not held. -/
theorem shmpool_queue (objsize maxobjs : Int) (memory : Int → ShmNode) (size : 1 ≤ objsize)
    (count : 1 ≤ maxobjs) (fits : maxobjs * (align4 objsize + 16) < 2 ^ 31) (ops : List ShmOp) :
    ∃ pool, shmpoolAlloc objsize maxobjs (some memory) = some pool ∧ Refines ops pool (offsets pool) [] := by
  have ha : 0 < align4 objsize := by
    have hq : 0 ≤ (objsize - 1).tdiv 4 := Int.tdiv_nonneg (by omega) (by decide)
    unfold align4
    omega
  have sized : Sized ⟨align4 objsize, maxobjs, 0, 0, 0, memory⟩ := ⟨ha, count, fits⟩
  refine ⟨_, by rw [shmpoolAlloc, if_neg (by omega)]; rfl, refines_of_valid ⟨⟨init_linked sized, ?_⟩,
    ⟨ha, count, fits⟩, fun _ none => absurd none not_mem_nil⟩⟩
  rw [append_nil]

theorem shmpool_queue_two : ∃ pool, shmpoolAlloc 5 2 (some fun _ => ⟨0, 0, 0, 0⟩) = some pool ∧
    Refines [.get, .get, .put 24, .get] pool (offsets pool) [] :=
  shmpool_queue 5 2 (fun _ => ⟨0, 0, 0, 0⟩) (by decide) (by decide) (by decide) _

end Fzsvn.Guarantees.Ipc.ShmpoolQueue
