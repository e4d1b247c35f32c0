import Mathlib.Algebra.BigOperators.Fin
import Fzsvn.Source.Datastruct.Shash
import Fzsvn.Guarantees.Datastruct.HashRefinement

/-!
# The counters of the simple hash

`shash_add` counts an item in its bucket and in the table; `shash_del` takes an item out
and counts neither down, and `shash_free` counts down the buckets only. So the counters
are right along a run exactly when no deletion finds its item and a table that is freed is
empty (`shash_counters`). With items in the table `shash_free` reports an invalid size.
-/
namespace Fzsvn.Guarantees.Datastruct.ShashCounters
open Library.CircularList Source.Datastruct CblistRefinement List Function Finset Option

variable {N V : Type}

/-! ## The property -/

/-- The items linked into the buckets. -/
structure Shape {n : Nat} (h : Shash N V) (S : Fin n → List N) : Prop where
  nbucket : h.nbucket.toNat = n
  positive : 0 < n
  indexed : n ≤ 2 ^ 31
  holds : Holds (fun i : Fin n => Cell.entry (i : Nat)) h.links fun i => (S i).map Cell.item

structure Counts {n : Nat} (h : Shash N V) (S : Fin n → List N) : Prop where
  bucket : ∀ i : Fin n, (h.bucketSize i).toNat = (S i).length
  total : h.size.toNat = ∑ i, (S i).length

/-- Each bucket's size is the number of its items, that of the table their sum. -/
def Counted (h : Shash N V) : Prop :=
  ∃ S : Fin h.nbucket.toNat → List N, Shape h S ∧ Counts h S

inductive ShashOp (N V : Type) where
  | add (d : V) (hval : UInt32) (check : Bool) (item : Option N)
  | del (d : V) (hval : UInt32)
  | find (d : V) (hval : UInt32)

def ShashOp.run [DecidableEq N] [DecidableEq V] (fuel : Nat) (h : Shash N V) :
    ShashOp N V → Option (Shash N V)
  | .add d hval check item => (shashAdd fuel h (some d) hval check item).map Prod.snd
  | .del d hval => (shashDel fuel h (some d) hval).map Prod.snd
  | .find d hval => (shashFind fuel h (some d) hval).map Prod.snd

/-- `shash_free` ends with all counters zero. -/
def FreedClean [DecidableEq N] (fuel : Nat) (h : Shash N V) : Prop :=
  ∃ h', shashFree fuel h = some h' ∧ h'.size = 0 ∧ ∀ i < h.nbucket.toNat, h'.bucketSize i = 0

/-- The counters are right in every state of the run, and where it ends with `shash_free`
(`freed`) they end at zero. -/
def Obeys [DecidableEq N] [DecidableEq V] (fuel : Nat) (freed : Bool) : List (ShashOp N V) → Shash N V → Prop
  | [], h => Counted h ∧ (freed = true → FreedClean fuel h)
  | op :: ops, h => Counted h ∧ ∃ h', op.run fuel h = some h' ∧ Obeys fuel freed ops h'

/-! ## When it holds -/

/-- The item is linked into bucket `i`. -/
def InBucket (h : Shash N V) (i : Nat) (node : N) : Prop :=
  ∃ k, h.links.n^[k] (.entry i) = .item node

/-- No deletion finds an item, and no item is added to `2 ^ 32 - 1` others. -/
def ShashOp.Harmless (h : Shash N V) : ShashOp N V → Prop
  | .add d hval check item => h.size.toNat + 1 < 2 ^ 32 ∨ item = none ∨
      check = true ∧ ∃ node, InBucket h (shashBucket h hval) node ∧
        (h.data (.item node) = d ∨ h.cmpFunc (h.data (.item node)) d = 0)
  | .del d hval =>
    ¬ ∃ node, InBucket h (shashBucket h hval) node ∧ h.cmpFunc (h.data (.item node)) d = 0
  | .find _ _ => True

/-- Where the run ends with `shash_free`, the table is empty. -/
def AllHarmless [DecidableEq N] [DecidableEq V] (fuel : Nat) (freed : Bool) :
    List (ShashOp N V) → Shash N V → Prop
  | [], h => freed = true → ∀ i < h.nbucket.toNat, ∀ node, ¬ InBucket h i node
  | op :: ops, h => op.Harmless h ∧ ∀ h', op.run fuel h = some h' → AllHarmless fuel freed ops h'

/-- What the pool answers in the operation. -/
def ShashOp.item : ShashOp N V → Option N
  | .add _ _ _ item => item
  | _ => none

/-- The pool hands out no item that is still in the table. -/
def Fresh [DecidableEq N] [DecidableEq V] (fuel : Nat) : List (ShashOp N V) → Shash N V → Prop
  | [], _ => True
  | op :: ops, h =>
    (∀ node, op.item = some node → ∀ i < h.nbucket.toNat, ¬ InBucket h i node) ∧
      ∀ h', op.run fuel h = some h' → Fresh fuel ops h'

/-! ## Shapes -/

variable {n : Nat} {h h' : Shash N V} {S S' : Fin n → List N} {d : V} {hval : UInt32} {node : N}
  {fuel m : Nat}

section

variable (shape : Shape h S)
include shape

/-- The bucket of a hash value. -/
lemma Shape.bucketOf (hval : UInt32) : ∃ i : Fin n, (i : Nat) = shashBucket h hval :=
  ⟨⟨shashBucket h hval, by
    rw [shashBucket, shape.nbucket]
    exact Nat.mod_lt _ shape.positive⟩, rfl⟩

lemma Shape.inBucket (i : Fin n) : InBucket h i node ↔ node ∈ S i := by
  have ring := shape.holds.ring i
  constructor
  · rintro ⟨k, hr⟩
    have hm := ring_reached ring k
    rw [hr] at hm
    simpa using hm
  · intro hm
    exact path_reached ring.path (mem_cons_of_mem _ (mem_map_of_mem hm))

/-- The items of a table are determined by its links. -/
lemma Shape.unique (hs' : Shape h S') : S = S' := by
  funext i
  have hr := shape.holds.ring i
  have hr' := hs'.holds.ring i
  have hi : Function.Injective (Cell.item : N → Cell N) := fun _ _ => Cell.item.inj
  exact List.map_injective_iff.mpr hi (path_unique hr.path hr'.path
    (nodup_cons.mp hr.nodup).1 (nodup_cons.mp hr'.nodup).1)

lemma Shape.counted : Counted h ↔ Counts h S := by
  constructor
  · rintro ⟨S', hs', hc⟩
    obtain rfl := shape.nbucket
    rwa [shape.unique hs']
  · intro hc
    obtain rfl := shape.nbucket
    exact ⟨S, shape, hc⟩

end

lemma total_update (S : Fin m → List N) (i : Fin m) (ys : List N) :
    ∑ j, (update S i ys j).length + (S i).length = ∑ j, (S j).length + ys.length := by
  have hl : (fun j => (update S i ys j).length) = update (fun j => (S j).length) i ys.length := by
    funext j
    by_cases he : j = i
    · subst he
      simp
    · simp [he]
  rw [hl, sum_update_of_mem (mem_univ i), ← add_sum_erase univ (fun j => (S j).length) (mem_univ i)]
  simp only [sdiff_singleton_eq_erase]
  omega

lemma length_le_total (S : Fin m → List N) (i : Fin m) : (S i).length ≤ ∑ j, (S j).length := by
  rw [← add_sum_erase univ (fun j => (S j).length) (mem_univ i)]
  exact Nat.le_add_right _ _

/-! ## The loops -/

/-- `shash_add` compares the pointers as well. -/
def duplicate [DecidableEq V] (h : Shash N V) (d : V) (node : N) : Bool :=
  h.data (.item node) = d ∨ h.cmpFunc (h.data (.item node)) d = 0

def equal (h : Shash N V) (d : V) (node : N) : Bool := h.cmpFunc (h.data (.item node)) d = 0

lemma visit_check [DecidableEq V] {nodes : List N} (h : Shash N V) :
    visit (shashCheckBody d) (nodes.map .item) (false, h) = ((nodes.find? (duplicate h d)).isSome, h) := by
  induction nodes with
  | nil => rfl
  | cons node nodes ih =>
    by_cases he : h.data (.item node) = d ∨ h.cmpFunc (h.data (.item node)) d = 0
    · simp [visit, shashCheckBody, he, duplicate]
    · have ho : duplicate h d node = false := by simpa [duplicate] using he
      simpa [visit, shashCheckBody, he, ho] using ih

lemma visit_find {nodes : List N} (h : Shash N V) :
    (visit (shashFindBody d) (nodes.map .item) (none, h)).2 = h := by
  induction nodes with
  | nil => rfl
  | cons node nodes ih =>
    by_cases he : h.cmpFunc (h.data (.item node)) d = 0
    · simp [visit, shashFindBody, he]
    · simpa [visit, shashFindBody, he] using ih

variable [DecidableEq N]

lemma visit_del {nodes : List N} (h : Shash N V) : (visit (shashDelBody d) (nodes.map .item) (none, h)).2 =
      match nodes.find? (equal h d) with
      | none => h
      | some node => { h with links := cblistDel h.links (.item node) } := by
  induction nodes with
  | nil => rfl
  | cons node nodes ih =>
    by_cases he : h.cmpFunc (h.data (.item node)) d = 0
    · simp [visit, shashDelBody, he, equal]
    · have ho : equal h d node = false := by simpa [equal] using he
      simpa [visit, shashDelBody, he, ho] using ih

/-! ## Shapes after an operation -/

def Shash.unlinked (h : Shash N V) (node : N) : Shash N V :=
  { h with links := cblistDel h.links (.item node) }

lemma del_holds_items {n : Nat} {links : Links (Cell N)} {S : Fin n → List N} {i : Fin n}
    (hh : Holds (fun i : Fin n => Cell.entry (i : Nat)) links fun j => (S j).map Cell.item)
    (hm : node ∈ S i) :
    Holds (fun i : Fin n => Cell.entry (i : Nat)) (cblistDel links (.item node)) fun j =>
      (update S i ((S i).erase node) j).map Cell.item := by
  have hi : Function.Injective (Cell.item : N → Cell N) := fun _ _ => Cell.item.inj
  have hd := del_holds hh (i := i) (mem_map_of_mem hm)
  convert hd using 1
  funext j
  by_cases same : j = i
  · subst same
    rw [update_self, update_self, map_erase hi]
  · rw [update_of_ne same, update_of_ne same]

lemma link_shape (shape : Shape h S) {i : Fin n} (hi : (i : Nat) = shashBucket h hval)
    (ha : ∀ i, node ∉ S i) : Shape (h.link hval node d) (update S i (S i ++ [node])) := by
  have new : ∀ j : Fin n, Cell.item node ∉ Cell.entry (j : Nat) :: (S j).map Cell.item := by
    intro j hm
    exact ha j (by simpa using hm)
  have added := addTail_holds shape.holds (i := i) new
  rw [hi] at added
  refine ⟨shape.nbucket, shape.positive, shape.indexed, ?_⟩
  change Holds _ (cblistAddTail h.links (.entry (shashBucket h hval)) (.item node)) _
  convert added using 1
  funext j
  by_cases hh : j = i
  · subst hh
    rw [update_self, update_self, map_append]
    rfl
  · rw [update_of_ne hh, update_of_ne hh]

lemma link_counts (hc : Counts h S) {i : Fin n} (hi : (i : Nat) = shashBucket h hval) :
    Counts (h.link hval node d) (update S i (S i ++ [node])) ↔ h.size.toNat + 1 < 2 ^ 32 := by
  have ht := total_update S i (S i ++ [node])
  rw [length_append, length_singleton] at ht
  have counted := hc.total
  constructor
  · intro hc'
    have ha : (h.size + 1).toNat = ∑ j, (update S i (S i ++ [node]) j).length :=
      hc'.total
    rw [UInt32.toNat_add] at ha
    have one : (1 : UInt32).toNat = 1 := rfl
    have := h.size.toNat_lt
    omega
  · intro hr
    have hg : ∀ w : UInt32, w.toNat + 1 < 2 ^ 32 → (w + 1).toNat = w.toNat + 1 := by
      intro w hs
      rw [UInt32.toNat_add]
      exact Nat.mod_eq_of_lt hs
    refine ⟨fun j => ?_, ?_⟩
    · change (update h.bucketSize (shashBucket h hval) (h.bucketSize (shashBucket h hval) + 1)
        j).toNat = _
      rw [← hi]
      by_cases at' : j = i
      · subst at'
        have hs := length_le_total S j
        have hb := hc.bucket j
        rw [update_self, update_self, hg _ (by omega), hb, length_append]
        rfl
      · have different : (j : Nat) ≠ i := fun he => at' (Fin.ext he)
        rw [update_of_ne different, update_of_ne at', hc.bucket]
    · change (h.size + 1).toNat = ∑ j, (update S i (S i ++ [node]) j).length
      rw [hg _ hr]
      omega

/-! ## Steps -/

/-- The table after an operation; its counters are right exactly when the operation was
harmless. -/
structure Step [DecidableEq V] {n : Nat} (fuel m : Nat) (h : Shash N V) (S : Fin n → List N)
    (op : ShashOp N V) (h' : Shash N V) (S' : Fin n → List N) : Prop where
  run : op.run fuel h = some h'
  shape : Shape h' S'
  bound : ∀ i, (S' i).length ≤ m + 1
  counts : Counts h S → (Counts h' S' ↔ op.Harmless h)

section

variable [DecidableEq V]

section

variable (shape : Shape h S) (bounded : ∀ i, (S i).length ≤ m)
include shape bounded

lemma step_same {op : ShashOp N V} (run : op.run fuel h = some h) (hh : op.Harmless h) :
    Step fuel m h S op h S :=
  ⟨run, shape, fun i => Nat.le_succ_of_le (bounded i), fun hc => ⟨fun _ => hh, fun _ => hc⟩⟩

section

variable (enough : m < fuel)
include enough

omit [DecidableEq N] shape in
lemma items_short {i} : ((S i).map Cell.item).length < fuel := by
  rw [length_map]
  exact Nat.lt_of_le_of_lt (bounded i) enough

lemma find_step : Step fuel m h S (.find d hval) h S := by
  refine step_same shape bounded ?_ trivial
  obtain ⟨i, hi⟩ := shape.bucketOf hval
  have ring := shape.holds.ring i
  have hw := forEach_visit (fun s : Option V × Shash N V => s.2.links) (shashFindBody d)
    (fun e s => by unfold shashFindBody; split <;> rfl) (none, h) ring (items_short bounded enough)
  rw [hi] at hw
  have hr : shashFind fuel h (some d) hval = _ := hw
  rw [ShashOp.run, hr, map_some, visit_find]

lemma del_step : ∃ h' S', Step fuel m h S (.del d hval) h' S' := by
  obtain ⟨i, index⟩ := shape.bucketOf hval
  have ring := shape.holds.ring i
  have hw := forEachSafe_visit (fun s : Option V × Shash N V => s.2.links) (shashDelBody d)
    (fun e s => by unfold shashDelBody; split; exacts [.inr rfl, .inl rfl]) (none, h) ring (items_short bounded enough)
  have hr : (ShashOp.del d hval).run fuel h =
      some (visit (shashDelBody d) ((S i).map .item) (none, h)).2 := by
    rw [index] at hw
    have ran : shashDel fuel h (some d) hval = _ := hw
    rw [ShashOp.run, ran, map_some]
  have inBucket : ∀ node, InBucket h (shashBucket h hval) node ↔ node ∈ S i := fun node =>
    index ▸ shape.inBucket i
  rw [visit_del] at hr
  cases hf : (S i).find? (equal h d) with
  | none =>
    rw [hf] at hr
    refine ⟨h, S, step_same shape bounded hr ?_⟩
    rintro ⟨node, hi, he⟩
    exact List.find?_eq_none.mp hf node ((inBucket node).mp hi) (by simpa [equal] using he)
  | some node =>
    rw [hf] at hr
    have hm := mem_of_find?_eq_some hf
    have he : h.cmpFunc (h.data (.item node)) d = 0 := by
      simpa [equal] using find?_some hf
    refine ⟨Shash.unlinked h node, update S i ((S i).erase node), hr,
      ⟨shape.nbucket, shape.positive, shape.indexed, del_holds_items shape.holds hm⟩, fun j => ?_, fun hc => ?_⟩
    · by_cases at' : j = i
      · subst at'
        rw [update_self]
        exact Nat.le_trans (length_erase_le ..) (Nat.le_succ_of_le (bounded _))
      · rw [update_of_ne at']
        exact Nat.le_succ_of_le (bounded j)
    · -- the bucket still counts the item
      have hs := length_erase_add_one hm
      constructor
      · intro hc'
        have hb := hc.bucket i
        have ha : (h.bucketSize i).toNat = (update S i ((S i).erase node) i).length :=
          hc'.bucket i
        rw [update_self] at ha
        omega
      · intro hh
        exact absurd ⟨node, (inBucket node).mpr hm, he⟩ hh

lemma add_step {check : Bool} {item : Option N} (ha : ∀ node, item = some node → ∀ i, node ∉ S i) :
    ∃ h' S', Step fuel m h S (.add d hval check item) h' S' := by
  obtain ⟨i, index⟩ := shape.bucketOf hval
  have hi : ∀ node, InBucket h (shashBucket h hval) node ↔ node ∈ S i := fun node =>
    index ▸ shape.inBucket i
  have ring := shape.holds.ring i
  have hw := forEach_visit (fun s : Bool × Shash N V => s.2.links) (shashCheckBody d)
    (fun e s => by unfold shashCheckBody; split <;> rfl) (false, h) ring (items_short bounded enough)
  rw [visit_check, index] at hw
  have hp : ((S i).find? (duplicate h d)).isSome = true ↔ ∃ node, InBucket h (shashBucket h hval) node ∧
        (h.data (.item node) = d ∨ h.cmpFunc (h.data (.item node)) d = 0) := by
    simp [hi, duplicate]
  by_cases dup : check = true ∧ ((S i).find? (duplicate h d)).isSome = true
  · obtain ⟨rfl, hf⟩ := dup
    refine ⟨h, S, step_same shape bounded ?_ (.inr (.inr ⟨rfl, hp.mp hf⟩))⟩
    simp [ShashOp.run, shashAdd, hw, hf]
  · have hg : shashAdd fuel h (some d) hval check item =
        item.elim (some (-1, h)) fun node => some (0, h.link hval node d) := by
      cases check with
      | false => cases item <;> rfl
      | true =>
        have hc : ((S i).find? (duplicate h d)).isSome = false := by simpa using dup
        rw [hc] at hw
        cases item <;> simp [shashAdd, hw]
    cases item with
    | none =>
      refine ⟨h, S, step_same shape bounded ?_ (.inr (.inl rfl))⟩
      simp [ShashOp.run, hg]
    | some node =>
      have hs' := link_shape (d := d) shape index (ha node rfl)
      refine ⟨h.link hval node d, _, by simp [ShashOp.run, hg], hs', fun j => ?_, fun counts => ?_⟩
      · by_cases at' : j = i
        · rw [at', update_self, length_append]
          exact Nat.succ_le_succ (bounded _)
        · rw [update_of_ne at']
          exact Nat.le_succ_of_le (bounded j)
      · rw [link_counts counts index]
        constructor
        · exact .inl
        · rintro (hr | hn' | ⟨checked, hd⟩)
          · exact hr
          · cases hn'
          · exact absurd ⟨checked, hp.mpr hd⟩ dup

lemma op_step (op : ShashOp N V)
    (hf : ∀ node, op.item = some node → ∀ i < h.nbucket.toNat, ¬ InBucket h i node) :
    ∃ h' S', Step fuel m h S op h' S' := by
  cases op with
  | add d hval check item =>
    refine add_step shape bounded enough fun node hg i hm => ?_
    exact hf node hg i (shape.nbucket ▸ i.isLt) ((shape.inBucket i).mpr hm)
  | del d hval => exact del_step shape bounded enough
  | find d hval => exact ⟨h, S, find_step shape bounded enough⟩

end

end

end

/-! ## The end of a table -/

lemma visit_free {i : Fin n} {nodes : List N}
    (hh : Holds (fun i : Fin n => Cell.entry (i : Nat)) h.links fun j => (S j).map Cell.item)
    (hi : S i = nodes) (hc : (h.bucketSize i).toNat = nodes.length) :
    ∃ h', visit (shashFreeBody i) (nodes.map .item) h = h' ∧
      Holds (fun i : Fin n => Cell.entry (i : Nat)) h'.links (fun j => (update S i [] j).map Cell.item) ∧
      h'.bucketSize i = 0 ∧ (∀ j, j ≠ (i : Nat) → h'.bucketSize j = h.bucketSize j) ∧
      h'.size = h.size := by
  induction nodes generalizing h S with
  | nil =>
    refine ⟨h, rfl, ?_, UInt32.toNat_inj.mp hc, fun _ _ => rfl, rfl⟩
    rwa [← hi, update_eq_self]
  | cons node nodes ih =>
    have hd := del_holds_items hh (show node ∈ S i by simp [hi])
    rw [hi, erase_cons_head] at hd
    rw [length_cons] at hc
    have hl : (h.bucketSize i - 1).toNat = nodes.length := by
      have one : (1 : UInt32).toNat = 1 := rfl
      rw [UInt32.toNat_sub_of_le _ _ (UInt32.le_iff_toNat_le.mpr (by omega))]
      omega
    obtain ⟨h', hv, hh', zero, ho, hs⟩ := ih (h := { h with
        links := cblistDel h.links (.item node)
        bucketSize := update h.bucketSize i (h.bucketSize i - 1) })
      hd (update_self ..) ((congrArg UInt32.toNat (update_self ..)).trans hl)
    rw [update_idem] at hh'
    refine ⟨h', hv, hh', zero, fun j different => ?_, hs⟩
    exact (ho j different).trans (update_of_ne different ..)

lemma freeBuckets_zero (shape : Shape h S) (hc : Counts h S)
    (bounded : ∀ i, (S i).length < fuel) {k : Nat} (hl : k ≤ n) : ∃ h', shashFreeBuckets fuel h k = some h' ∧
      Holds (fun i : Fin n => Cell.entry (i : Nat)) h'.links
        (fun j => (if (j : Nat) < k then [] else S j).map Cell.item) ∧
      (∀ j, h'.bucketSize j = if j < k then 0 else h.bucketSize j) ∧ h'.size = h.size := by
  induction k with
  | zero => exact ⟨h, rfl, by simpa using shape.holds, by simp, rfl⟩
  | succ k ih =>
    obtain ⟨h1, hf, hh, sizes, size⟩ := ih (by omega)
    let i : Fin n := ⟨k, hl⟩
    have hr := hh.ring i
    have hi : (if (i : Nat) < k then [] else S i) = S i := if_neg (Nat.lt_irrefl k)
    have counted : (h1.bucketSize i).toNat = (S i).length := by
      rw [sizes, if_neg (Nat.lt_irrefl k), hc.bucket]
    obtain ⟨h2, hv, hh', zero, ho, hs'⟩ :=
      visit_free (S := fun j => if (j : Nat) < k then [] else S j) (i := i) hh hi counted
    rw [hi] at hr
    have hs : ((S i).map Cell.item).length < fuel := by
      rw [length_map]
      exact bounded i
    have hw := forEachSafe_visit (fun h : Shash N V => h.links) (shashFreeBody k)
      (fun e s => .inr rfl) h1 hr hs
    refine ⟨h2, ?_, ?_, fun j => ?_, hs'.trans size⟩
    · rw [shashFreeBuckets, hf]
      exact hw.trans (congrArg some hv)
    · convert hh' using 3 with j
      by_cases last : j = i
      · subst last
        simp [i]
      · have different : (j : Nat) ≠ k := fun he => last (Fin.ext he)
        have he : (j : Nat) < k + 1 ↔ (j : Nat) < k := by omega
        simp only [update_of_ne last, he]
    · by_cases last : j = k
      · subst last
        rw [if_pos (by omega)]
        exact zero
      · have he : j < k + 1 ↔ j < k := by omega
        rw [ho j last, sizes]
        simp only [he]

/-- `shash_free` leaves `h->size` as it was. -/
lemma freedClean_iff (shape : Shape h S) (hc : Counts h S) (bounded : ∀ i, (S i).length < fuel) :
    FreedClean fuel h ↔ ∀ i < h.nbucket.toNat, ∀ node, ¬ InBucket h i node := by
  obtain ⟨h', hf, -, hs, size⟩ := freeBuckets_zero shape hc bounded (Nat.le_refl n)
  have ran : shashFree fuel h = some h' := by
    rw [shashFree, shape.nbucket, if_neg (Nat.not_lt.mpr shape.indexed), hf]
  have ht := hc.total
  constructor
  · rintro ⟨h'', hr', zero, -⟩ i hi node hl
    obtain rfl : h' = h'' := some.inj (ran.symm.trans hr')
    rw [shape.nbucket] at hi
    have hm := (shape.inBucket ⟨i, hi⟩).mp hl
    have hp := length_pos_of_mem hm
    have less := length_le_total S ⟨i, hi⟩
    rw [size] at zero
    rw [zero] at ht
    have hn' : (0 : UInt32).toNat = 0 := rfl
    omega
  · intro hn
    refine ⟨h', ran, ?_, fun i hi => ?_⟩
    · have nothing : ∑ i, (S i).length = 0 := by
        refine Finset.sum_eq_zero fun i _ => ?_
        rw [length_eq_zero_iff, eq_nil_iff_forall_not_mem]
        intro node hm
        exact hn i (shape.nbucket ▸ i.isLt) node ((shape.inBucket i).mpr hm)
      rw [size]
      exact UInt32.toNat_inj.mp (ht.trans nothing)
    · rw [hs, if_pos (shape.nbucket ▸ hi)]

/-! ## Runs -/

variable [DecidableEq V]

lemma obeys_iff {freed : Bool} {ops : List (ShashOp N V)} (shape : Shape h S)
    (hc : Counts h S) (bounded : ∀ i, (S i).length ≤ m) (enough : m + ops.length < fuel)
    (hf : Fresh fuel ops h) : Obeys fuel freed ops h ↔ AllHarmless fuel freed ops h := by
  induction ops generalizing h S m with
  | nil =>
    have clean := freedClean_iff shape hc fun i =>
      Nat.lt_of_le_of_lt (bounded i) (by simpa using enough)
    have now : Counted h := shape.counted.mpr hc
    simp only [Obeys, AllHarmless, now, clean, true_and]
  | cons op ops ih =>
    rw [length_cons] at enough
    obtain ⟨h', S', step⟩ := op_step shape bounded (show m < fuel by omega) op hf.1
    have only : ∀ h'', op.run fuel h = some h'' → h'' = h' := fun h'' ran =>
      some.inj (ran.symm.trans step.run)
    by_cases hh : op.Harmless h
    · have hc' := (step.counts hc).mpr hh
      have rest := ih (m := m + 1) step.shape hc' step.bound (by omega) (hf.2 h' step.run)
      constructor
      · rintro ⟨-, h1, ran, hl⟩
        obtain rfl := only h1 ran
        refine ⟨hh, fun h2 ran2 => ?_⟩
        obtain rfl := only h2 ran2
        exact rest.mp hl
      · rintro ⟨-, hl⟩
        exact ⟨shape.counted.mpr hc, h', step.run, rest.mpr (hl h' step.run)⟩
    · constructor
      · rintro ⟨-, h1, ran, hl⟩
        obtain rfl := only h1 ran
        have counted : Counted h1 := by
          cases ops with
          | nil => exact hl.1
          | cons => exact hl.1
        exact absurd ((step.counts hc).mp (step.shape.counted.mp counted)) hh
      · exact fun all => absurd all.1 hh

variable {allocs : ShashAllocs} {links : Links (Cell N)} {data : Cell N → V} {bucket : UInt32}
  {cfunc : V → V → Int}

omit [DecidableEq V] in
lemma alloc_shape (ha : shashAlloc allocs links data bucket cfunc = .ok (some h)) :
    Shape h (fun _ : Fin bucket.toNat => []) ∧ Counts h (fun _ : Fin bucket.toNat => []) := by
  unfold shashAlloc at ha
  split_ifs at ha with hp _ _ hindexed <;> cases ha
  refine ⟨⟨rfl, ?_, Nat.not_lt.mp hindexed, ⟨fun i => ?_, fun i j different => ?_⟩⟩, ⟨fun _ => rfl, by simp⟩⟩
  · simpa [UInt32.lt_iff_toNat_lt, Nat.pos_iff_ne_zero] using hp
  · exact ring_empty.mpr (HashRefinement.initEntries_self links i.isLt)
  · have hh : (j : Nat) ≠ i := fun he => different (Fin.ext he.symm)
    simpa using hh

/-- The counters of a new table are right along a run, and zero where it ends with
`shash_free`, exactly when no deletion finds an item, no item is added to `2 ^ 32 - 1`
others and the table is empty when it is freed. -/
theorem shash_counters {freed : Bool}
    (alloc : shashAlloc allocs links data bucket cfunc = .ok (some h)) (ops : List (ShashOp N V))
    (enough : ops.length < fuel) (fresh : Fresh fuel ops h) :
    Obeys fuel freed ops h ↔ AllHarmless fuel freed ops h := by
  obtain ⟨hs, hc⟩ := alloc_shape alloc
  exact obeys_iff hs hc (m := 0) (fun _ => Nat.le_refl 0) (by omega) fresh

/-! ## Examples -/

/-- A table of three buckets for numbers. -/
def numbers : Shash Nat Nat where
  links := initEntries ⟨id, id⟩ 3
  data := fun _ => 0
  bucketSize := fun _ => 0
  nbucket := 3
  size := 0
  cmpFunc := fun v w => v - w

lemma numbers_alloc : shashAlloc ⟨true, true, true⟩ ⟨id, id⟩ (fun _ => 0) 3
    (fun v w : Nat => (v - w : Int)) = .ok (some numbers) := rfl

lemma fresh_of_none {ops : List (ShashOp N V)} (hn' : ∀ op ∈ ops, op.item = none)
    (h : Shash N V) : Fresh fuel ops h := by
  induction ops generalizing h with
  | nil => trivial
  | cons op ops ih =>
    refine ⟨fun node hg => ?_, fun h' _ => ih (fun op' hm => hn' op' (by simp [hm])) h'⟩
    rw [hn' op (by simp)] at hg
    cases hg

/-- The first item of a new table is fresh. -/
lemma numbers_fresh {ops : List (ShashOp Nat Nat)} (hn' : ∀ op ∈ ops, op.item = none) :
    Fresh 5 (.add 7 1 true (some 0) :: ops) numbers := by
  obtain ⟨shape, -⟩ := alloc_shape numbers_alloc
  refine ⟨fun node _ i hi hl => ?_, fun h' _ => fresh_of_none hn' h'⟩
  simpa using (shape.inBucket ⟨i, hi⟩).mp hl

theorem shash_counters_numbers : Obeys 5 false [.add 7 1 true (some 0), .find 7 1] numbers ↔
      AllHarmless 5 false [.add 7 1 true (some 0), .find 7 1] numbers :=
  shash_counters numbers_alloc [.add 7 1 true (some 0), .find 7 1] (by decide)
    (numbers_fresh (by simp [ShashOp.item]))

/-- A number is added and deleted: the table and its bucket still count it. -/
theorem deleted_counted : ¬ Obeys 5 false [.add 7 1 true (some 0), .del 7 1] numbers ∧ ∃ h', (do
        let h ← (ShashOp.add 7 1 true (some 0)).run 5 numbers
        (ShashOp.del 7 1).run 5 h) = some h' ∧
      h'.size = 1 ∧ h'.bucketSize 1 = 1 ∧ cblistIsEmpty h'.links (.entry 1) = true := by
  refine ⟨fun ho => ?_, _, rfl, rfl, rfl, rfl⟩
  obtain ⟨hs, hc⟩ := alloc_shape numbers_alloc
  have hh := (obeys_iff hs hc (m := 0) (fun _ => Nat.le_refl 0) (by decide)
    (numbers_fresh (by simp [ShashOp.item]))).mp ho
  exact (hh.2 _ rfl).1 ⟨0, ⟨1, rfl⟩, rfl⟩

end Fzsvn.Guarantees.Datastruct.ShashCounters
