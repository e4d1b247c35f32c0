import Fzsvn.Source.Datastruct.Mempool

/-!
# Blocks of a memory pool

Every block that a pool hands out is aligned, lies in the payload of one region that the pool
allocated, and is apart from the blocks before it. The test for room subtracts pointers as
unsigned numbers, so it needs that the aligned `last` is not above `tail`; it is not, because
`tail` is aligned itself. A block that does not fit opens a new region, and what is left of
the old one is never used again.
-/
namespace Fzsvn.Guarantees.Datastruct.ArenaSafety
open Library.FlatMemory Library.MachineInt Source.Datastruct Source.Stdext List

/-! ## Regions and blocks -/

/-- A region of `malloc`; its payload is behind the header. -/
structure Region where
  base : Nat
  size : Nat
  header : Nat

structure Block where
  ptr : Nat
  size : Nat

/-- What `malloc` promises for a new region. -/
structure Fresh (regions : List Region) (base size : Nat) : Prop where
  aligned : base % 8 = 0
  apart : ∀ r ∈ regions, base + size ≤ r.base ∨ r.base + r.size ≤ base
  fits : base + size < 2 ^ 64

/-- Inside the payload of a region, on an address that is a multiple of 8. -/
structure Placed (regions : List Region) (b : Block) : Prop where
  aligned : b.ptr % 8 = 0
  inside : ∃ r ∈ regions, r.base + r.header ≤ b.ptr ∧ b.ptr + b.size ≤ r.base + r.size

def Apart (a b : Block) : Prop := a.ptr + a.size ≤ b.ptr ∨ b.ptr + b.size ≤ a.ptr

/-! ## Runs -/

inductive Op where
  | alloc (size : Nat)
  | calloc (size : Nat)
  | realloc (old : Block) (newsize : Nat)

/-- A call, with the answer of `malloc` to it and the memory as its user left it. -/
structure Request where
  op : Op
  answer : Option Nat
  mem : Memory

def Op.size : Op → Nat
  | .alloc size => size
  | .calloc size => size
  | .realloc _ newsize => newsize

def Request.run (pool : Mempool) (req : Request) : Option Nat × Mempool × Memory :=
  match req.op with
  | .alloc size => mempoolAlloc pool size req.answer req.mem
  | .calloc size => mempoolCalloc pool size req.answer req.mem
  | .realloc old newsize => mempoolRealloc pool old.ptr old.size newsize req.answer req.mem

/-- The regions after a request for `size` bytes, which opens one unless the block fits. -/
def regionsAfter (pool : Mempool) (size : Nat) (answer : Option Nat) (regions : List Region) : List Region :=
  if size < 1 ∨ mpFits pool size then regions
  else
    match answer with
    | none => regions
    | some node =>
      { base := node, size := mpNodeSize pool size, header := mempoolNodeHeader } :: regions

def blocksAfter (size : Nat) (ptr : Option Nat) (blocks : List Block) : List Block :=
  match ptr with
  | none => blocks
  | some ptr => { ptr, size } :: blocks

/-- A reallocated block has the bytes of the old one and then zeros. -/
def Op.Content (op : Op) (before after : Memory) (ptr : Nat) : Prop :=
  match op with
  | .realloc old newsize => ∀ i < newsize,
      after (ptr + i) = if i < min old.size newsize then before (old.ptr + i) else 0
  | _ => True

def Obeys : List Request → Mempool → List Region → List Block → Prop
  | [], _, _, _ => True
  | req :: reqs, pool, regions, blocks =>
    let (result, pool', mem') := req.run pool
    let regions' := regionsAfter pool req.op.size req.answer regions
    (∀ ptr, result = some ptr → Placed regions' ⟨ptr, req.op.size⟩ ∧
      (∀ b ∈ blocks, Apart ⟨ptr, req.op.size⟩ b) ∧ req.op.Content req.mem mem' ptr ∧
      ∀ addr, addr < ptr ∨ ptr + req.op.size ≤ addr → mem' addr = req.mem addr) ∧
    Obeys reqs pool' regions' (blocksAfter req.op.size result blocks)

/-- A reallocation is of a block handed out before, with its size. -/
def Op.Allowed (blocks : List Block) : Op → Prop
  | .realloc old _ => old ∈ blocks
  | _ => True

/-- `malloc` gives fresh regions along the run. -/
def AllAllowed : List Request → Mempool → List Region → List Block → Prop
  | [], _, _, _ => True
  | req :: reqs, pool, regions, blocks =>
    req.op.Allowed blocks ∧
    (∀ node, req.answer = some node → Fresh regions node (mpNodeSize pool req.op.size)) ∧
    AllAllowed reqs (req.run pool).2.1 (regionsAfter pool req.op.size req.answer regions)
      (blocksAfter req.op.size (req.run pool).1 blocks)

/-! ## One allocation -/

/-- Between `last` and `tail` there is room in the payload of one region, and no block. -/
structure Inv (pool : Mempool) (regions : List Region) (blocks : List Block) : Prop where
  ordered : pool.last ≤ pool.tail
  aligned : pool.tail % 8 = 0
  fits : pool.tail < 2 ^ 64
  current : ∃ r ∈ regions, r.base + r.header ≤ pool.last ∧ pool.tail = r.base + r.size
  placed : ∀ b ∈ blocks, Placed regions b
  clear : ∀ b ∈ blocks, b.ptr + b.size ≤ pool.last ∨ pool.tail ≤ b.ptr
  positive : ∀ b ∈ blocks, 0 < b.size

variable {pool : Mempool} {regions : List Region} {blocks : List Block} {size node : Nat}

lemma regionsAfter_kept (hk : size < 1 ∨ mpFits pool size = true) (answer : Option Nat) :
    regionsAfter pool size answer regions = regions := if_pos hk

lemma regionsAfter_opened (ho : ¬(size < 1 ∨ mpFits pool size = true)) (answer : Option Nat) :
    regionsAfter pool size answer regions =
      match answer with
      | none => regions
      | some node =>
        { base := node, size := mpNodeSize pool size, header := mempoolNodeHeader } :: regions :=
  if_neg ho

lemma Placed.more {b : Block} (hp : Placed regions b) (r : Region) : Placed (r :: regions) b := by
  obtain ⟨ha, old, hk, hi⟩ := hp
  exact ⟨ha, old, mem_cons_of_mem _ hk, hi⟩

/-- The block behind the last one. -/
lemma Inv.next (inv : Inv pool regions blocks) (hp : 0 < size) (fit : mpFits pool size = true) :
    Placed regions ⟨alignPtr pool.last, size⟩ ∧ (∀ b ∈ blocks, Apart ⟨alignPtr pool.last, size⟩ b) ∧
      Inv { pool with last := alignPtr pool.last + size } regions
        ({ ptr := alignPtr pool.last, size } :: blocks) := by
  have hf := inv.fits
  have ha : pool.last ≤ alignPtr pool.last := le_alignPtr
  -- Without the alignment of tail, the difference could be negative here and pass the test.
  have hl : alignPtr pool.last ≤ pool.tail := alignPtr_le inv.ordered inv.aligned
  have hr : alignPtr pool.last + size ≤ pool.tail := by
    simp only [mpFits, Bool.and_eq_true, decide_eq_true_eq] at fit
    have hd := toSize_small (n := (pool.tail : Int) - alignPtr pool.last) (by omega) (by omega)
    omega
  obtain ⟨r, hk, behind, he⟩ := inv.current
  have placed : Placed regions ⟨alignPtr pool.last, size⟩ := by
    refine ⟨alignPtr_mod, r, hk, ?_, ?_⟩
    · exact Nat.le_trans behind ha
    · exact he ▸ hr
  refine ⟨placed, ?_, hr, inv.aligned, inv.fits, ⟨r, hk, ?_, he⟩, ?_, ?_, ?_⟩
  · intro b hh
    rcases inv.clear b hh with hb | after
    · exact .inr (Nat.le_trans hb ha)
    · exact .inl (Nat.le_trans hr after)
  · exact Nat.le_trans behind (Nat.le_trans ha (Nat.le_add_right _ _))
  · intro b hh
    rcases mem_cons.mp hh with rfl | hh
    · exact placed
    · exact inv.placed b hh
  · intro b hh
    rcases mem_cons.mp hh with rfl | hh
    · exact .inl (Nat.le_refl _)
    · rcases inv.clear b hh with hb | after
      · exact .inl (Nat.le_trans hb (Nat.le_trans ha (Nat.le_add_right _ _)))
      · exact .inr after
  · exact forall_mem_cons.mpr ⟨hp, inv.positive⟩

/-- A block of an old region is apart from everything in a fresh one. -/
lemma Placed.clear_of {b : Block} {base len : Nat} (hp : Placed regions b)
    (hf : Fresh regions base len) : b.ptr + b.size ≤ base ∨ base + len ≤ b.ptr := by
  obtain ⟨-, r, hk, hb, he⟩ := hp
  rcases hf.apart r hk with hl | ha
  · exact .inr (by omega)
  · exact .inl (by omega)

lemma mpNodeSize_ge (pool : Mempool) (size : Nat) : size + 8 ≤ mpNodeSize pool size := by
  have hl : size ≤ mpNodeMax pool size := by
    rw [mpNodeMax]
    split <;> omega
  have hr : mpNodeMax pool size + mempoolNodeHeader ≤ mpNodeSize pool size := le_alignNum
  rw [mempoolNodeHeader] at hr
  omega

/-- The first block of a new region. -/
lemma Inv.opened (inv : Inv pool regions blocks) (hp : 0 < size)
    (hf : Fresh regions node (mpNodeSize pool size)) :
    let r : Region := { base := node, size := mpNodeSize pool size, header := mempoolNodeHeader }
    let pool' := (mpAllocNode pool size (some node)).2
    Placed (r :: regions) ⟨alignPtr (node + mempoolNodeHeader), size⟩ ∧
      (∀ b ∈ blocks, Apart ⟨alignPtr (node + mempoolNodeHeader), size⟩ b) ∧
      Inv pool' (r :: regions) ({ ptr := alignPtr (node + mempoolNodeHeader), size } :: blocks) := by
  intro r pool'
  have ha := hf.aligned
  have hl := mpNodeSize_ge pool size
  have hs : alignPtr (node + mempoolNodeHeader) = node + 8 := by
    rw [alignPtr, mempoolNodeHeader]
    omega
  have placed : Placed (r :: regions) ⟨alignPtr (node + mempoolNodeHeader), size⟩ := by
    refine ⟨alignPtr_mod, r, mem_cons_self, le_alignPtr, ?_⟩
    change alignPtr (node + mempoolNodeHeader) + size ≤ node + mpNodeSize pool size
    omega
  have hc : ∀ b ∈ blocks, b.ptr + b.size ≤ node ∨ node + mpNodeSize pool size ≤ b.ptr :=
    fun b hh => (inv.placed b hh).clear_of hf
  have last : pool'.last = node + 8 + size := congrArg (· + size) hs
  have ht : pool'.tail = node + mpNodeSize pool size := rfl
  have hm : mpNodeSize pool size % 8 = 0 := alignNum_mod
  refine ⟨placed, ?_, ?_, ?_, ?_, ⟨r, mem_cons_self, ?_, rfl⟩, ?_, ?_, ?_⟩
  · intro b hh
    change alignPtr (node + mempoolNodeHeader) + size ≤ b.ptr ∨
      b.ptr + b.size ≤ alignPtr (node + mempoolNodeHeader)
    rcases hc b hh with hb | after
    · exact .inr (by omega)
    · exact .inl (by omega)
  · omega
  · omega
  · exact hf.fits
  · change node + 8 ≤ pool'.last
    omega
  · intro b hh
    rcases mem_cons.mp hh with rfl | hh
    · exact placed
    · exact (inv.placed b hh).more r
  · intro b hh
    rcases mem_cons.mp hh with rfl | hh
    · exact .inl (Nat.le_refl _)
    · rcases hc b hh with hb | after
      · exact .inl (by omega)
      · exact .inr (by omega)
  · exact forall_mem_cons.mpr ⟨hp, inv.positive⟩

/-- What `_mp_malloc` does. -/
structure Allocates (size : Nat) (zero : Bool) (mem : Memory) (regions' : List Region)
    (blocks : List Block) (result : Option Nat × Mempool × Memory) : Prop where
  good : ∀ ptr, result.1 = some ptr → Placed regions' ⟨ptr, size⟩ ∧ ∀ b ∈ blocks, Apart ⟨ptr, size⟩ b
  frame : ∀ ptr, result.1 = some ptr → ∀ addr, addr < ptr ∨ ptr + size ≤ addr →
    result.2.2 addr = mem addr
  kept : zero = false → result.2.2 = mem
  inv : Inv result.2.1 regions' (blocksAfter size result.1 blocks)

lemma mpMalloc_allocates (inv : Inv pool regions blocks) {answer : Option Nat}
    (hf : ∀ node, answer = some node → Fresh regions node (mpNodeSize pool size)) (zero : Bool)
    (mem : Memory) : Allocates size zero mem (regionsAfter pool size answer regions) blocks
      (mpMalloc pool size zero answer mem) := by
  by_cases hn : size < 1
  · rw [mpMalloc, if_pos hn, regionsAfter_kept (.inl hn)]
    exact ⟨nofun, nofun, fun _ => rfl, inv⟩
  have hp : 0 < size := Nat.not_lt.mp hn
  by_cases fit : mpFits pool size = true
  · obtain ⟨placed, hd, hi'⟩ := inv.next hp fit
    rw [mpMalloc, if_neg hn, if_pos fit, regionsAfter_kept (.inr fit)]
    refine ⟨?_, ?_, ?_, hi'⟩
    · rintro ptr ⟨⟩
      exact ⟨placed, hd⟩
    · rintro ptr ⟨⟩ addr ho
      cases zero with
      | false => rfl
      | true => exact memset_outside ho
    · rintro rfl
      rfl
  · rw [mpMalloc, if_neg hn, if_neg fit, regionsAfter_opened (not_or.mpr ⟨hn, fit⟩)]
    cases answer with
    | none => exact ⟨nofun, nofun, fun _ => rfl, inv⟩
    | some node =>
      obtain ⟨placed, hd, hi'⟩ := inv.opened hp (hf node rfl)
      refine ⟨?_, fun _ _ _ _ => rfl, fun _ => rfl, hi'⟩
      rintro ptr ⟨⟩
      exact ⟨placed, hd⟩

/-! ## One request -/

/-- The copy fills the front of the new block and the zeros the rest. -/
lemma copied_content (mem : Memory) (ptr old oldsize newsize : Nat) :
    let copysize := if oldsize < newsize then oldsize else newsize
    let mem' := memcpy mem ptr old copysize
    let mem'' := if newsize > copysize then memset mem' (ptr + copysize) 0 (newsize - copysize)
      else mem'
    (∀ i < newsize, mem'' (ptr + i) = if i < min oldsize newsize then mem (old + i) else 0) ∧
      ∀ addr, addr < ptr ∨ ptr + newsize ≤ addr → mem'' addr = mem addr := by
  intro copysize mem' mem''
  have copies : copysize = min oldsize newsize := by
    simp only [copysize]
    split <;> omega
  have hs : copysize ≤ newsize := copies ▸ Nat.min_le_right ..
  have hf : ∀ i < copysize, mem'' (ptr + i) = mem (old + i) := by
    intro i inFront
    have hk : mem'' (ptr + i) = mem' (ptr + i) := by
      simp only [mem'']
      split
      · exact memset_outside (.inl (Nat.add_lt_add_left inFront _))
      · rfl
    rw [hk]
    exact memcpy_inside inFront
  have back : ∀ i < newsize, copysize ≤ i → mem'' (ptr + i) = 0 := by
    intro i hi hb
    have hp : ptr + i = ptr + copysize + (i - copysize) := by omega
    have rest : newsize > copysize := Nat.lt_of_le_of_lt hb hi
    rw [hp]
    simp only [mem'', if_pos rest]
    exact memset_inside (by omega)
  constructor
  · intro i hi
    rw [← copies]
    split
    · next inFront => exact hf i inFront
    · next hb => exact back i hi (Nat.not_lt.mp hb)
  · intro addr ho
    have hc : mem' addr = mem addr := if_neg fun hi => by omega
    simp only [mem'']
    split
    · rw [memset_outside (by omega)]
      exact hc
    · exact hc

variable {req : Request}

/-- A request is answered as it should be, and the pool is ready for the next. -/
lemma request_step (inv : Inv pool regions blocks) (ha : req.op.Allowed blocks)
    (hf : ∀ node, req.answer = some node → Fresh regions node (mpNodeSize pool req.op.size)) :
    (∀ ptr, (req.run pool).1 = some ptr →
      Placed (regionsAfter pool req.op.size req.answer regions) ⟨ptr, req.op.size⟩ ∧
      (∀ b ∈ blocks, Apart ⟨ptr, req.op.size⟩ b) ∧
      req.op.Content req.mem (req.run pool).2.2 ptr ∧
      ∀ addr, addr < ptr ∨ ptr + req.op.size ≤ addr → (req.run pool).2.2 addr = req.mem addr) ∧
    Inv (req.run pool).2.1 (regionsAfter pool req.op.size req.answer regions)
      (blocksAfter req.op.size (req.run pool).1 blocks) := by
  obtain ⟨op, answer, mem⟩ := req
  cases op with
  | alloc size =>
    have allocates := mpMalloc_allocates inv hf false mem
    refine ⟨fun ptr got => ?_, allocates.inv⟩
    obtain ⟨hp, hd⟩ := allocates.good ptr got
    exact ⟨hp, hd, trivial, allocates.frame ptr got⟩
  | calloc size =>
    have allocates := mpMalloc_allocates inv hf true mem
    refine ⟨fun ptr got => ?_, allocates.inv⟩
    obtain ⟨hp, hd⟩ := allocates.good ptr got
    exact ⟨hp, hd, trivial, allocates.frame ptr got⟩
  | realloc old newsize =>
    have allocates : Allocates newsize false mem (regionsAfter pool newsize answer regions) blocks
        (mpMalloc pool newsize false answer mem) := mpMalloc_allocates inv hf false mem
    have hs : 0 < old.size := inv.positive old ha
    by_cases hn : newsize < 1
    · have hr : mpMalloc pool newsize false answer mem = (none, pool, mem) := if_pos hn
      have he : Request.run pool ⟨.realloc old newsize, answer, mem⟩ = (none, pool, mem) :=
        if_pos (.inr hn)
      rw [he]
      exact ⟨nofun, hr ▸ allocates.inv⟩
    · have has : ¬(old.size < 1 ∨ newsize < 1) := by omega
      have hk := allocates.kept rfl
      simp only [Request.run, mempoolRealloc, if_neg has, Op.size, Op.Content]
      generalize mpMalloc pool newsize false answer mem = result at allocates hk ⊢
      obtain ⟨_ | newptr, pool', mem'⟩ := result
      · exact ⟨nofun, allocates.inv⟩
      · cases hk
        obtain ⟨hc, frame⟩ := copied_content mem' newptr old.ptr old.size newsize
        obtain ⟨hp, hd⟩ := allocates.good newptr rfl
        refine ⟨?_, allocates.inv⟩
        rintro ptr ⟨⟩
        exact ⟨hp, hd, hc, frame⟩

/-! ## Every run -/

lemma obeys_of_inv {reqs : List Request} (inv : Inv pool regions blocks)
    (ha : AllAllowed reqs pool regions blocks) : Obeys reqs pool regions blocks := by
  induction reqs generalizing pool regions blocks with
  | nil => trivial
  | cons req reqs ih =>
    obtain ⟨now, hf, hl⟩ := ha
    obtain ⟨hg, hi'⟩ := request_step inv now hf
    exact ⟨hg, ih hi' hl⟩

/-- The payload of a new pool is free. -/
lemma create_inv {base : Nat} (hc : mempoolCreate size (some base) = some pool)
    (hf : Fresh [] base (mempoolSize size)) :
    Inv pool [{ base, size := mempoolSize size, header := mempoolHeader }] [] := by
  rw [mempoolCreate] at hc
  split at hc
  · cases hc
  · cases hc
    have ha := hf.aligned
    have hm : mempoolSize size % 8 = 0 := alignNum_mod
    have hl : size + mempoolHeader ≤ mempoolSize size := le_alignNum
    refine ⟨?_, ?_, hf.fits, ⟨_, mem_cons_self, Nat.le_refl _, rfl⟩, nofun, nofun, nofun⟩
    · change base + mempoolHeader ≤ base + mempoolSize size
      omega
    · change (base + mempoolSize size) % 8 = 0
      omega

/-- Every block that a pool of any size hands out, in any run of requests, is aligned, inside
the payload of one of its regions and apart from the blocks before; a reallocated block has
the content of the old one and zeros, and nothing else in memory changes. -/
theorem arena_safe (size base : Nat) (pool : Mempool) (reqs : List Request)
    (created : mempoolCreate size (some base) = some pool) (fresh : Fresh [] base (mempoolSize size))
    (allowed : AllAllowed reqs pool [⟨base, mempoolSize size, mempoolHeader⟩] []) :
    Obeys reqs pool [⟨base, mempoolSize size, mempoolHeader⟩] [] :=
  obeys_of_inv (create_inv created fresh) allowed

/-- A block in the first region, and its reallocation in a second one. -/
theorem arena_safe_two : ∃ pool, mempoolCreate 16 (some 4096) = some pool ∧ Fresh [] 4096 (mempoolSize 16) ∧
      Obeys [⟨.alloc 8, none, fun _ => 7⟩, ⟨.realloc ⟨4128, 8⟩ 24, some 8192, fun _ => 7⟩] pool
        [⟨4096, mempoolSize 16, mempoolHeader⟩] [] := by
  have hf : Fresh [] 4096 (mempoolSize 16) := ⟨by decide, nofun, by decide⟩
  refine ⟨_, rfl, hf, arena_safe 16 4096 _ _ rfl hf ⟨trivial, nofun, ?_⟩⟩
  refine ⟨mem_cons_self, ?_, trivial⟩
  rintro node ⟨⟩
  refine ⟨by decide, ?_, by decide⟩
  intro r hk
  rcases mem_singleton.mp hk with rfl
  decide

/-! ## Zeroed blocks -/

def Clear (mem : Memory) (ptr size : Nat) : Prop := ∀ i < size, mem (ptr + i) = 0

/-- Every block that `mempool_calloc` returns along the run is zero. -/
def Zeroed : List Request → Mempool → Prop
  | [], _ => True
  | req :: reqs, pool =>
    (∀ size ptr, req.op = .calloc size → (req.run pool).1 = some ptr → Clear (req.run pool).2.2 ptr size) ∧
    Zeroed reqs (req.run pool).2.1

/-- Where `mempool_calloc` opens a new region, `malloc` happened to find zeros there. -/
def OpensClear : List Request → Mempool → Prop
  | [], _ => True
  | req :: reqs, pool =>
    (∀ size node, req.op = .calloc size → mpFits pool size = false → req.answer = some node →
      Clear req.mem (alignPtr (node + mempoolNodeHeader)) size) ∧
    OpensClear reqs (req.run pool).2.1

/-- Only the block behind the last one is cleared: the first block of a new region is returned
as `malloc` left it. -/
lemma calloc_clear_iff (answer : Option Nat) {mem : Memory} :
    (∀ ptr, (mempoolCalloc pool size answer mem).1 = some ptr →
      Clear (mempoolCalloc pool size answer mem).2.2 ptr size) ↔
    ∀ node, mpFits pool size = false → answer = some node →
      Clear mem (alignPtr (node + mempoolNodeHeader)) size := by
  rw [mempoolCalloc, mpMalloc]
  by_cases hn : size < 1
  · rw [if_pos hn]
    exact ⟨fun _ _ _ _ i hi => by omega, fun _ _ bad => by cases bad⟩
  rw [if_neg hn]
  by_cases fit : mpFits pool size = true
  · rw [if_pos fit]
    refine ⟨fun _ _ ho => by simp [fit] at ho, ?_⟩
    rintro - ptr ⟨⟩ i hi
    exact memset_inside hi
  · rw [if_neg fit]
    cases answer with
    | none =>
      refine ⟨fun _ _ _ bad => ?_, fun _ _ bad => ?_⟩
      · cases bad
      · cases bad
    | some node =>
      constructor
      · rintro zero _ - ⟨⟩
        exact zero _ rfl
      · rintro zero ptr ⟨⟩
        exact zero node (by simpa using fit) rfl

/-- In any run from any pool, what `mempool_calloc` returns is zero exactly if all the new
regions it opens are. -/
theorem zeroed_iff (reqs : List Request) (pool : Mempool) : Zeroed reqs pool ↔ OpensClear reqs pool := by
  induction reqs generalizing pool with
  | nil => exact Iff.rfl
  | cons req reqs ih =>
    refine and_congr ?_ (ih _)
    obtain ⟨op, answer, mem⟩ := req
    constructor
    · rintro hz size node rfl
      exact (calloc_clear_iff answer).mp (fun ptr => hz size ptr rfl) node
    · rintro hf size ptr rfl
      exact (calloc_clear_iff answer).mpr (fun node => hf size node rfl) ptr

/-- A block of 24 bytes does not fit into a pool of 16, and its new region holds sevens. -/
theorem calloc_unzeroed : ∃ pool, mempoolCreate 16 (some 4096) = some pool ∧ Fresh [] 4096 (mempoolSize 16) ∧
      AllAllowed [⟨.calloc 24, some 8192, fun _ => 7⟩] pool [⟨4096, mempoolSize 16, mempoolHeader⟩] [] ∧
      ¬Zeroed [⟨.calloc 24, some 8192, fun _ => 7⟩] pool := by
  refine ⟨_, rfl, ⟨by decide, nofun, by decide⟩, ⟨trivial, ?_, trivial⟩, ?_⟩
  · rintro node ⟨⟩
    refine ⟨by decide, ?_, by decide⟩
    intro r hk
    rcases mem_singleton.mp hk with rfl
    decide
  · intro hz
    have first := hz.1 24 8200 rfl rfl 0 (by decide)
    exact absurd first (by decide)

end Fzsvn.Guarantees.Datastruct.ArenaSafety
