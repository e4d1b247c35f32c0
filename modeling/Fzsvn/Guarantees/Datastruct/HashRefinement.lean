import Fzsvn.Source.Datastruct.Hash
import Fzsvn.Guarantees.Datastruct.CblistRefinement

/-!
# The hash table as an insertion-ordered collection

`hash.c` keeps one circular list for each residue of the keys. Over any sequence of
operations it behaves like the list of the live values in the order of their insertion:
`hash_search` finds the first value equal to its argument, `hash_delete` takes that one
out, `hash_insert_nodup` refuses a value when there is one equal to it. The bucket of a key
is the part of the whole list whose keys have its residue, and values that compare equal
have the same key, so looking through the bucket is looking through the list.
-/
namespace Fzsvn.Guarantees.Datastruct.HashRefinement
open Library.CircularList Source.Datastruct CblistRefinement List Function UInt32
open Nat (le_succ toUInt32)
open Option (bind_eq_bind bind_some some)

variable {N V : Type}

/-! ## What it is for -/

inductive HashOp (N V : Type) where
  | search (val : V)
  | insert (val : V) (item : Option N)
  | insertNodup (val : V) (item : Option N)
  | delete (val : V)
  | size

inductive Reply (V : Type) where
  | value (ret : Option V)
  | code (ret : Int)

/-- The reply and the live values after it. Their number is told as an `int`. -/
def HashOp.spec (cmp : V → V → Int) (values : List V) : HashOp N V → Reply V × List V
  | .search val => (.value (values.find? (cmp · val = 0)), values)
  | .insert val (some _) => (.code 0, values ++ [val])
  | .insert _ none => (.code (-1), values)
  | .insertNodup val (some _) =>
    if ∃ v ∈ values, cmp v val = 0 then (.code (-1), values) else (.code 0, values ++ [val])
  | .insertNodup _ none => (.code (-1), values)
  | .delete val => (.value (values.find? (cmp · val = 0)), values.eraseP (cmp · val = 0))
  | .size => (.code (UInt32.ofNat values.length).toInt32.toInt, values)

/-- The function called with the key of its value. -/
def HashOp.run [DecidableEq N] (key : V → UInt32) (fuel : Nat) (hash : Hash N V) :
    HashOp N V → Option (Reply V × Hash N V)
  | .search val => (hashSearch fuel hash (key val) (some val)).map fun r => (.value r.1, r.2)
  | .insert val item =>
    let r := hashInsert hash (key val) (some val) item
    some (.code r.1, r.2)
  | .insertNodup val item =>
    (hashInsertNodup fuel hash (key val) (some val) item).map fun r => (.code r.1, r.2)
  | .delete val => (hashDelete fuel hash (key val) (some val)).map fun r => (.value r.1, r.2)
  | .size =>
    let r := hashSize hash
    some (.code r.1, r.2)

/-- What the pool answers in the operation. -/
def HashOp.item : HashOp N V → Option N
  | .insert _ item | .insertNodup _ item => item
  | _ => none

def specAll (cmp : V → V → Int) : List (HashOp N V) → List V → List (Reply V) × List V
  | [], values => ([], values)
  | op :: ops, values =>
    let (reply, values) := op.spec cmp values
    let (replies, values) := specAll cmp ops values
    (reply :: replies, values)

def runAll [DecidableEq N] (key : V → UInt32) (fuel : Nat) :
    List (HashOp N V) → Hash N V → Option (List (Reply V) × Hash N V)
  | [], hash => some ([], hash)
  | op :: ops, hash => do
    let (reply, hash) ← op.run key fuel hash
    let (replies, hash) ← runAll key fuel ops hash
    return (reply :: replies, hash)

/-- The item is linked into one of the entries. -/
def InTable (hash : Hash N V) (node : N) : Prop :=
  ∃ i < hash.nentry, ∃ k, hash.links.n^[k] (.entry i) = .item node

/-- The pool hands out no item that is still in the table. -/
def Fresh [DecidableEq N] (key : V → UInt32) (fuel : Nat) : List (HashOp N V) → Hash N V → Prop
  | [], _ => True
  | op :: ops, hash =>
    (∀ node, op.item = some node → ¬ InTable hash node) ∧
      ∀ reply hash', op.run key fuel hash = some (reply, hash') → Fresh key fuel ops hash'

/-! ## Buckets -/

/-- The live items with the residue `i`, oldest first. -/
def bucket (key : V → UInt32) (hash : Hash N V) (live : List N) (i : Nat) : List N :=
  live.filter fun node => (key (hash.data (.item node))).toNat % hash.nentry = i

/-- The values of the items. -/
def values (hash : Hash N V) (live : List N) : List V := live.map fun node => hash.data (.item node)

/-- The table holds the items `live`. -/
structure Represents (key : V → UInt32) (hash : Hash N V) (live : List N) : Prop where
  positive : 0 < hash.nentry
  holds : Holds (fun i : Fin hash.nentry => Cell.entry i) hash.links
    fun i => (bucket key hash live i).map .item
  size : hash.size = UInt32.ofNat live.length
  unlocked : hash.locked = false
  nodup : live.Nodup

variable {key : V → UInt32} {hash hash' : Hash N V} {live : List N} {val : V} {node : N}
  {fuel : Nat}

/-- The entry of a key. -/
def residue (hash : Hash N V) (positive : 0 < hash.nentry) (k : UInt32) : Fin hash.nentry :=
  ⟨k.toNat % hash.nentry, Nat.mod_lt _ positive⟩

lemma Represents.ring (rep : Represents key hash live) (k : UInt32) : Ring hash.links (hashEntry hash k)
      ((bucket key hash live (k.toNat % hash.nentry)).map .item) :=
  rep.holds.ring (residue hash rep.positive k)

/-- The statistics and the lock are no part of it. -/
lemma Represents.same (rep : Represents key hash live) (stat : HashStat) :
    Represents key { hash with stat, locked := false } live :=
  ⟨rep.positive, rep.holds, rep.size, rfl, rep.nodup⟩

/-! ## The lock -/

lemma lock_unlocked (hu : hash.locked = false) :
    hashLock hash = some { hash with locked := hash.needLock } := by
  cases hash with
  | mk links data nentry cmpFunc size stat needLock locked =>
    subst hu
    cases needLock <;> rfl

lemma unlock_locked (hh : hash.locked = hash.needLock) :
    hashUnlock hash = { hash with locked := false } := by
  cases hash with
  | mk links data nentry cmpFunc size stat needLock locked =>
    cases needLock with
    | true => rfl
    | false =>
      have ho' : locked = false := hh
      rw [ho']
      rfl

/-! ## The loops -/

/-- The comparison of an item with the argument. -/
def equal (hash : Hash N V) (val : V) (node : N) : Bool :=
  hash.cmpFunc (hash.data (.item node)) val = 0

lemma visit_search {nodes : List N} (hash : Hash N V) :
    ∃ stat, visit (searchBody val) (nodes.map .item) (none, hash) =
      ((nodes.find? (equal hash val)).map fun node => hash.data (.item node), { hash with stat }) := by
  induction nodes generalizing hash with
  | nil => exact ⟨hash.stat, rfl⟩
  | cons node nodes ih =>
    by_cases he : hash.cmpFunc (hash.data (.item node)) val = 0
    · refine ⟨hash.findSuccess.stat, ?_⟩
      simp [visit, searchBody, he, equal, Hash.findSuccess]
    · obtain ⟨stat, rest⟩ := ih hash.conflict
      have hs : visit (searchBody val) ((node :: nodes).map .item) (none, hash) =
          visit (searchBody val) (nodes.map .item) (none, hash.conflict) := by
        simp [visit, searchBody, he]
      refine ⟨stat, ?_⟩
      rw [hs, find?_cons_of_neg (by simpa [equal] using he)]
      exact rest

lemma visit_dup {nodes : List N} (hash : Hash N V) : visit (dupBody val) (nodes.map .item) (0, hash) =
      (if (nodes.find? (equal hash val)).isSome then -1 else 0, hash) := by
  induction nodes with
  | nil => rfl
  | cons node nodes ih =>
    by_cases he : hash.cmpFunc (hash.data (.item node)) val = 0
    · simp [visit, dupBody, he, equal]
    · have ho : equal hash val node = false := by simpa [equal] using he
      simpa [visit, dupBody, he, ho] using ih

/-- The table without the item. -/
def without [DecidableEq N] (hash : Hash N V) : Option N → Hash N V
  | none => hash
  | some node => { hash with links := cblistDel hash.links (.item node), size := hash.size - 1 }

lemma visit_delete [DecidableEq N] {nodes : List N} (hash : Hash N V) :
    ∃ stat, visit (deleteBody val) (nodes.map .item) (none, hash) =
      ((nodes.find? (equal hash val)).map fun node => hash.data (.item node),
        { without hash (nodes.find? (equal hash val)) with stat }) := by
  induction nodes generalizing hash with
  | nil => exact ⟨hash.stat, rfl⟩
  | cons node nodes ih =>
    by_cases he : hash.cmpFunc (hash.data (.item node)) val = 0
    · refine ⟨hash.findSuccess.stat, ?_⟩
      simp [visit, deleteBody, he, equal, Hash.findSuccess, without]
    · obtain ⟨stat, rest⟩ := ih hash.conflict
      have hs : visit (deleteBody val) ((node :: nodes).map .item) (none, hash) =
          visit (deleteBody val) (nodes.map .item) (none, hash.conflict) := by
        simp [visit, deleteBody, he]
      refine ⟨stat, ?_⟩
      rw [hs, rest, find?_cons_of_neg (by simpa [equal] using he)]
      have hk : equal hash.conflict val = equal hash val := rfl
      rw [hk]
      cases nodes.find? (equal hash val) <;> rfl

lemma findFailed_stat (ret : Option V) (hash : Hash N V) :
    ∃ stat, (if ret.isNone then hash.findFailed else hash) = { hash with stat } := by
  split
  · exact ⟨hash.findFailed.stat, rfl⟩
  · exact ⟨hash.stat, rfl⟩

/-! ## Looking through the bucket -/

/-- Values that compare equal have the same key. -/
def KeysAgree (key : V → UInt32) (cmp : V → V → Int) : Prop := ∀ v w, cmp v w = 0 → key v = key w

lemma find_bucket (agree : KeysAgree key hash.cmpFunc) :
    (bucket key hash live ((key val).toNat % hash.nentry)).find? (equal hash val) =
      live.find? (equal hash val) := by
  rw [bucket, find?_filter]
  congr 1
  funext node
  by_cases he : hash.cmpFunc (hash.data (.item node)) val = 0
  · simp [equal, he, agree _ _ he]
  · simp [equal, he]

lemma find_values : (values hash live).find? (hash.cmpFunc · val = 0) =
    (live.find? (equal hash val)).map fun node => hash.data (.item node) := by
  rw [values, find?_map]
  rfl

lemma erase_found [DecidableEq N] {p : N → Bool} {found : N} (hf : live.find? p = some found) :
    live.eraseP p = live.erase found := by
  induction live with
  | nil => cases hf
  | cons x live ih =>
    by_cases hh : p x
    · obtain rfl : x = found := by simpa [hh] using hf
      simp [hh]
    · have hl : live.find? p = some found := by simpa [hh] using hf
      have ho : x ≠ found := fun he => hh (he ▸ find?_some hl)
      simp [hh, ho, ih hl]

/-! ## The table after an operation -/

lemma mem_bucket {i : Nat} : node ∈ bucket key hash live i ↔
    node ∈ live ∧ (key (hash.data (.item node))).toNat % hash.nentry = i := by
  simp [bucket]

lemma Represents.inTable (rep : Represents key hash live) : InTable hash node ↔ node ∈ live := by
  constructor
  · rintro ⟨i, hb, k, hr⟩
    have hm := ring_reached (rep.holds.ring ⟨i, hb⟩) k
    rw [hr] at hm
    obtain ⟨other, hf, rfl⟩ : ∃ other, other ∈ bucket key hash live i ∧ other = node := by
      simpa using hm
    exact (mem_bucket.mp hf).1
  · intro hm
    refine ⟨_, Nat.mod_lt (key (hash.data (.item node))).toNat rep.positive, ?_⟩
    have ring := rep.ring (key (hash.data (.item node)))
    exact path_reached ring.path (mem_cons_of_mem _ (mem_map_of_mem (mem_bucket.mpr ⟨hm, rfl⟩)))

variable [DecidableEq N]

/-- The items already there keep their values. -/
lemma link_data (ha : node ∉ live) {k : UInt32} {other : N} (hm : other ∈ live) :
    (hash.link k node val).data (.item other) = hash.data (.item other) := by
  have different : other ≠ node := fun he => ha (he ▸ hm)
  simp [Hash.link, different]

lemma values_link (ha : node ∉ live) (k : UInt32) :
    values (hash.link k node val) (live ++ [node]) = values hash live ++ [val] := by
  rw [values, map_append, map_congr_left fun other hm => link_data ha hm]
  simp [values, Hash.link]

lemma bucket_link (ha : node ∉ live) {i : Nat} :
    bucket key (hash.link (key val) node val) (live ++ [node]) i =
      bucket key hash live i ++ if (key val).toNat % hash.nentry = i then [node] else [] := by
  rw [bucket, filter_append, bucket]
  congr 1
  · exact filter_congr fun other hm => by rw [link_data ha hm]; rfl
  · simp [Hash.link, filter_cons]

lemma link_represents (rep : Represents key hash live) (ha : node ∉ live) :
    Represents key (hash.link (key val) node val) (live ++ [node]) := by
  have new : ∀ j : Fin hash.nentry,
      Cell.item node ∉ Cell.entry (j : Nat) :: (bucket key hash live j).map .item := by
    intro j hm
    simp only [mem_cons, reduceCtorEq, mem_map, Cell.item.injEq, exists_eq_right, false_or] at hm
    exact ha (mem_bucket.mp hm).1
  have added := addTail_holds rep.holds (i := residue hash rep.positive (key val)) new
  have hl : update (fun j : Fin hash.nentry => (bucket key hash live j).map Cell.item)
      (residue hash rep.positive (key val))
      ((bucket key hash live (residue hash rep.positive (key val))).map .item ++ [.item node]) =
      fun j : Fin hash.nentry =>
        (bucket key (hash.link (key val) node val) (live ++ [node]) j).map Cell.item := by
    funext j
    rw [bucket_link ha]
    by_cases hh : j = residue hash rep.positive (key val)
    · subst hh
      have hf : (key val).toNat % hash.nentry = (residue hash rep.positive (key val) : Nat) := rfl
      rw [update_self, if_pos hf]
      simp
    · have ho : ¬ (key val).toNat % hash.nentry = (j : Nat) := fun he => hh (Fin.ext he.symm)
      rw [update_of_ne hh, if_neg ho, append_nil]
  rw [hl] at added
  have hc : hash.size + 1 = ofNat (live ++ [node]).length := by
    rw [rep.size, length_append, ofNat_add]
    rfl
  exact ⟨rep.positive, added, hc, rep.unlocked,
    rep.nodup.append (nodup_singleton _) (by simpa using ha)⟩

lemma bucket_erase (hn : live.Nodup) {i : Nat} :
    bucket key hash (live.erase node) i = (bucket key hash live i).erase node := by
  have hn' : (bucket key hash live i).Nodup := hn.filter _
  rw [hn'.erase_eq_filter, bucket, hn.erase_eq_filter, bucket, filter_filter, filter_filter]
  exact filter_congr fun _ _ => Bool.and_comm ..

lemma without_represents (rep : Represents key hash live) (hi : node ∈ live) :
    Represents key (without hash (some node)) (live.erase node) := by
  let i := residue hash rep.positive (key (hash.data (.item node)))
  have hm : node ∈ bucket key hash live i := mem_bucket.mpr ⟨hi, rfl⟩
  have injective : Function.Injective (Cell.item : N → Cell N) := fun _ _ => Cell.item.inj
  have hd := del_holds rep.holds (i := i) (mem_map_of_mem hm)
  have hl : update (fun j : Fin hash.nentry => (bucket key hash live j).map Cell.item)
      i (((bucket key hash live i).map Cell.item).erase (.item node)) =
      fun j : Fin hash.nentry => (bucket key hash (live.erase node) j).map Cell.item := by
    funext j
    rw [bucket_erase rep.nodup, map_erase injective]
    by_cases hh : j = i
    · subst hh
      rw [update_self]
    · have ha : Cell.item node ∉ (bucket key hash live j).map .item := by
        intro he
        obtain ⟨other, hf, atNode⟩ := mem_map.mp he
        obtain rfl := injective atNode
        exact hh (Fin.ext (mem_bucket.mp hf).2.symm)
      rw [update_of_ne hh, erase_of_not_mem ha]
  rw [hl] at hd
  have hc : hash.size - 1 = ofNat (live.erase node).length := by
    have one := length_erase_add_one hi
    rw [rep.size, ← one, ofNat_add]
    simp
  exact ⟨rep.positive, hd, hc, rep.unlocked, rep.nodup.erase _⟩

/-! ## The operations -/

lemma insert_eq (rep : Represents key hash live) (item : Option N) :
    hashInsert hash (key val) (some val) item =
      match item with
      | some node => (0, { hash.link (key val) node val with locked := false })
      | none => (-1, { hash with locked := false }) := by
  simp only [hashInsert, lock_unlocked rep.unlocked]
  cases item with
  | none => rw [unlock_locked rfl]
  | some node =>
    dsimp only
    rw [unlock_locked rfl]
    rfl

/-- What one operation does: the reply and the values are those of the specification. -/
structure Step (key : V → UInt32) (hash : Hash N V) (live : List N) (op : HashOp N V)
    (result : Option (Reply V × Hash N V)) (hash' : Hash N V) (live' : List N) : Prop where
  reply : result = some ((op.spec hash.cmpFunc (values hash live)).1, hash')
  represents : Represents key hash' live'
  values : values hash' live' = (op.spec hash.cmpFunc (values hash live)).2
  cmpFunc : hash'.cmpFunc = hash.cmpFunc
  length : live'.length ≤ live.length + 1

lemma linked_step (rep : Represents key hash live) (val : V) (ha : node ∉ live) :
    Represents key { hash.link (key val) node val with locked := false } (live ++ [node]) ∧
      values { hash.link (key val) node val with locked := false } (live ++ [node]) =
        values hash live ++ [val] :=
  ⟨(link_represents rep ha).same _, values_link ha (key val)⟩

lemma insert_step (rep : Represents key hash live) {item : Option N}
    (ha : ∀ node, item = some node → node ∉ live) : ∃ hash' live', Step key hash live (.insert val item)
      ((HashOp.insert val item).run key fuel hash) hash' live' := by
  cases item with
  | none =>
    exact ⟨_, live, by simp [HashOp.run, HashOp.spec, insert_eq rep], rep.same hash.stat, rfl, rfl,
      le_succ _⟩
  | some node =>
    obtain ⟨hr', appended⟩ := linked_step rep val (ha node rfl)
    exact ⟨_, live ++ [node], by simp [HashOp.run, HashOp.spec, insert_eq rep], hr', appended, rfl,
      by simp⟩

omit [DecidableEq N] in
lemma find_none : live.find? (equal hash val) = none ↔
    ¬ ∃ v ∈ values hash live, hash.cmpFunc v val = 0 := by
  simp [values, equal]

lemma size_step (rep : Represents key hash live) :
    ∃ hash', Step key hash live .size ((HashOp.size : HashOp N V).run key fuel hash) hash' live := by
  refine ⟨_, ?_, rep.same hash.stat, rfl, rfl, le_succ _⟩
  simp only [HashOp.run, hashSize, lock_unlocked rep.unlocked, HashOp.spec]
  rw [unlock_locked rfl, rep.size]
  simp [values]

section

variable (val : V) (rep : Represents key hash live) (agree : KeysAgree key hash.cmpFunc)
  (enough : live.length < fuel)
include rep agree enough

omit [DecidableEq N] in
/-- What a loop for the value goes through. -/
lemma entry_loop : ∃ nodes : List N,
    Ring hash.links (hashEntry { hash with locked := hash.needLock } (key val)) (nodes.map .item) ∧
    (nodes.map Cell.item).length < fuel ∧
    nodes.find? (equal { hash with locked := hash.needLock } val) = live.find? (equal hash val) := by
  refine ⟨_, rep.ring (key val), ?_, find_bucket agree⟩
  rw [length_map]
  exact Nat.lt_of_le_of_lt (length_filter_le ..) enough

lemma search_eq : ∃ stat, hashSearch fuel hash (key val) (some val) =
      some ((live.find? (equal hash val)).map fun node => hash.data (.item node),
        { hash with stat, locked := false }) := by
  let hh : Hash N V := { hash with locked := hash.needLock }
  obtain ⟨nodes, hr, hs, found⟩ := entry_loop val rep agree enough
  have hw := forEach_visit (fun s : Option V × Hash N V => s.2.links) (searchBody val)
    (fun e s => by unfold searchBody; split <;> rfl) (none, hh) hr hs
  obtain ⟨stat, hv⟩ := visit_search hh
  rw [hv, found] at hw
  obtain ⟨stat', hf⟩ := findFailed_stat
    ((live.find? (equal hash val)).map fun node => hash.data (.item node)) { hh with stat }
  refine ⟨stat', ?_⟩
  simp only [hashSearch, lock_unlocked rep.unlocked]
  rw [hw]
  simp only [bind_eq_bind, bind_some]
  rw [hf, unlock_locked rfl]
  rfl

lemma delete_eq : ∃ stat, hashDelete fuel hash (key val) (some val) =
      some ((live.find? (equal hash val)).map fun node => hash.data (.item node),
        { without hash (live.find? (equal hash val)) with stat, locked := false }) := by
  let hh : Hash N V := { hash with locked := hash.needLock }
  obtain ⟨nodes, hr, hs, found⟩ := entry_loop val rep agree enough
  have hw := forEachSafe_visit (fun s : Option V × Hash N V => s.2.links) (deleteBody val)
    (fun e s => by unfold deleteBody; split; exacts [.inl rfl, .inr rfl]) (none, hh) hr hs
  obtain ⟨stat, hv⟩ := visit_delete hh
  rw [hv, found] at hw
  obtain ⟨stat', hf⟩ := findFailed_stat
    ((live.find? (equal hash val)).map fun node => hash.data (.item node))
    { without hh (live.find? (equal hash val)) with stat }
  refine ⟨stat', ?_⟩
  simp only [hashDelete, lock_unlocked rep.unlocked]
  rw [hw]
  simp only [bind_eq_bind, bind_some]
  rw [hf]
  cases live.find? (equal hash val) with
  | none => rw [unlock_locked rfl]; rfl
  | some node => rw [unlock_locked rfl]; rfl

lemma nodup_eq (item : Option N) : hashInsertNodup fuel hash (key val) (some val) item =
      some (match live.find? (equal hash val), item with
        | none, some node => (0, { hash.link (key val) node val with locked := false })
        | _, _ => (-1, { hash with locked := false })) := by
  let hh : Hash N V := { hash with locked := hash.needLock }
  obtain ⟨nodes, hr, hs, found⟩ := entry_loop val rep agree enough
  have hw := forEach_visit (fun s : Int × Hash N V => s.2.links) (dupBody val)
    (fun e s => by unfold dupBody; split <;> rfl) (0, hh) hr hs
  rw [visit_dup, found] at hw
  simp only [hashInsertNodup, lock_unlocked rep.unlocked]
  rw [hw]
  cases live.find? (equal hash val) with
  | some found =>
    simp only [bind_eq_bind, bind_some, Option.isSome_some, if_true]
    rw [if_neg (by decide), unlock_locked rfl]
    rfl
  | none =>
    cases item with
    | none =>
      simp only [bind_eq_bind, bind_some]
      rw [unlock_locked rfl]
      rfl
    | some node =>
      simp only [bind_eq_bind, bind_some]
      rw [unlock_locked rfl]
      rfl

lemma search_step :
    ∃ hash', Step key hash live (.search val) ((HashOp.search val).run key fuel hash) hash' live := by
  obtain ⟨stat, hs⟩ := search_eq val rep agree enough
  refine ⟨_, ?_, rep.same stat, rfl, rfl, le_succ _⟩
  simp [HashOp.run, HashOp.spec, hs, find_values]

lemma nodup_step {item : Option N} (ha : ∀ node, item = some node → node ∉ live) :
    ∃ hash' live', Step key hash live (.insertNodup val item)
      ((HashOp.insertNodup val item).run key fuel hash) hash' live' := by
  have ho := nodup_eq val rep agree enough item
  by_cases hp : ∃ v ∈ values hash live, hash.cmpFunc v val = 0
  · obtain ⟨found, first⟩ : ∃ found, live.find? (equal hash val) = some found :=
      Option.ne_none_iff_exists'.mp fun none => find_none.mp none hp
    rw [first] at ho
    refine ⟨_, live, ?_, rep.same hash.stat, ?_, rfl, le_succ _⟩
    · cases item <;> simp [HashOp.run, HashOp.spec, ho, hp]
    · cases item with
      | none => rfl
      | some _ =>
        rw [HashOp.spec, if_pos hp]
        rfl
  · rw [find_none.mpr hp] at ho
    cases item with
    | none =>
      exact ⟨_, live, by simp [HashOp.run, HashOp.spec, ho], rep.same hash.stat, rfl, rfl, le_succ _⟩
    | some node =>
      obtain ⟨hr', appended⟩ := linked_step rep val (ha node rfl)
      refine ⟨_, live ++ [node], ?_, hr', ?_, rfl, by simp⟩
      · simp [HashOp.run, HashOp.spec, ho, hp]
      · simpa [HashOp.spec, hp] using appended

lemma delete_step : ∃ hash' live', Step key hash live (.delete val) ((HashOp.delete val).run key fuel hash)
      hash' live' := by
  obtain ⟨stat, hd⟩ := delete_eq val rep agree enough
  have hr : (HashOp.delete val).run key fuel hash =
      some (((HashOp.delete val : HashOp N V).spec hash.cmpFunc (values hash live)).1,
        { without hash (live.find? (equal hash val)) with stat, locked := false }) := by
    simp [HashOp.run, HashOp.spec, hd, find_values]
  have he : (values hash live).eraseP (hash.cmpFunc · val = 0) =
      values hash (live.eraseP (equal hash val)) := by
    rw [values, eraseP_map]
    rfl
  cases hf : live.find? (equal hash val) with
  | none =>
    rw [hf] at hr
    have hk : live.eraseP (equal hash val) = live :=
      eraseP_of_forall_not (List.find?_eq_none.mp hf)
    exact ⟨_, live, hr, rep.same stat, by rw [HashOp.spec, he, hk]; rfl, rfl, le_succ _⟩
  | some node =>
    rw [hf] at hr
    have hi : node ∈ live := mem_of_find?_eq_some hf
    refine ⟨_, live.erase node, hr, (without_represents rep hi).same stat, ?_, rfl, ?_⟩
    · rw [HashOp.spec, he, erase_found hf]
      rfl
    · exact Nat.le_succ_of_le (length_erase_le ..)

lemma op_step (op : HashOp N V) (hf : ∀ node, op.item = some node → ¬ InTable hash node) :
    ∃ hash' live', Step key hash live op (op.run key fuel hash) hash' live' := by
  have ha : ∀ node, op.item = some node → node ∉ live := fun node hg =>
    mt rep.inTable.mpr (hf node hg)
  cases op with
  | search val =>
    obtain ⟨hash', hs⟩ := search_step val rep agree enough
    exact ⟨hash', live, hs⟩
  | insert val item => exact insert_step rep ha
  | insertNodup val item => exact nodup_step val rep agree enough ha
  | delete val => exact delete_step val rep agree enough
  | size =>
    obtain ⟨hash', hs⟩ : ∃ hash', Step key hash live .size
        ((HashOp.size : HashOp N V).run key fuel hash) hash' live := size_step rep
    exact ⟨hash', live, hs⟩

end

/-! ## Whole runs -/

lemma runAll_spec (rep : Represents key hash live) (agree : KeysAgree key hash.cmpFunc)
    (ops : List (HashOp N V)) (enough : live.length + ops.length ≤ fuel)
    (hf : Fresh key fuel ops hash) : ∃ hash' live',
      runAll key fuel ops hash = some ((specAll hash.cmpFunc ops (values hash live)).1, hash') ∧
      Represents key hash' live' ∧
      values hash' live' = (specAll hash.cmpFunc ops (values hash live)).2 := by
  induction ops generalizing hash live with
  | nil => exact ⟨hash, live, rfl, rep, rfl⟩
  | cons op ops ih =>
    obtain ⟨now, hl⟩ := hf
    simp only [length_cons] at enough
    obtain ⟨hash1, live1, hs⟩ := op_step rep agree (show live.length < fuel by omega) op now
    have agree1 : KeysAgree key hash1.cmpFunc := hs.cmpFunc ▸ agree
    have enough1 : live1.length + ops.length ≤ fuel := by
      have := hs.length
      omega
    obtain ⟨hash2, live2, ran, rep2, he⟩ :=
      ih hs.represents agree1 enough1 (hl _ _ hs.reply)
    refine ⟨hash2, live2, ?_, rep2, ?_⟩
    · simp only [runAll, hs.reply, bind_eq_bind, bind_some, ran]
      rw [hs.values, hs.cmpFunc]
      rfl
    · rw [he, hs.values, hs.cmpFunc]
      rfl

lemma initEntries_self (links : Links (Cell N)) {n i : Nat} (hb : i < n) :
    (initEntries links n).n (.entry i) = .entry i ∧ (initEntries links n).p (.entry i) = .entry i := by
  induction n with
  | zero => omega
  | succ n ih =>
    by_cases hl : i = n
    · subst hl
      simp [initEntries, cblistInit]
    · have different : (Cell.entry i : Cell N) ≠ .entry n := by simpa using hl
      simpa [initEntries, cblistInit, update_of_ne different] using ih (by omega)

variable {chooseSize : UInt32 → Nat} {allocs : HashAllocs} {links : Links (Cell N)}
  {data : Cell N → V} {size : UInt32} {cmp : V → V → Int} {needLock : Bool}

lemma alloc_represents (ha : hashAlloc chooseSize allocs links data size (some cmp) needLock = some hash)
    (hp : 0 < chooseSize size) : Represents key hash [] ∧ hash.cmpFunc = cmp := by
  simp only [hashAlloc, Option.ite_none_left_eq_some, some.injEq] at ha
  obtain ⟨-, -, -, -, rfl⟩ := ha
  refine ⟨⟨hp, ⟨fun i => ?_, fun i j different => ?_⟩, rfl, rfl, nodup_nil⟩, rfl⟩
  · exact ring_empty.mpr (initEntries_self links i.isLt)
  · have hh : (j : Nat) ≠ i := fun he => different (Fin.ext he.symm)
    simpa [bucket] using hh

/-- Every run of operations on a new table gives the replies of the insertion-ordered list of
the live values, for any number of entries, keys and comparison in which equal values have
equal keys, as long as the pool hands out no item that is still in the table. `hash_size` is
the number of the values while an `int` can hold it. -/
theorem hash_refines (alloc : hashAlloc chooseSize allocs links data size (some cmp) needLock = some hash)
    (positive : 0 < chooseSize size) (agree : KeysAgree key cmp) (ops : List (HashOp N V))
    (enough : ops.length ≤ fuel) (fresh : Fresh key fuel ops hash) :
    (∃ hash', runAll key fuel ops hash = some ((specAll cmp ops []).1, hash')) ∧
      ∀ values : List V, values.length < 2 ^ 31 →
        ((HashOp.size : HashOp N V).spec cmp values).1 = .code values.length := by
  obtain ⟨rep, rfl⟩ : Represents key hash [] ∧ hash.cmpFunc = cmp := alloc_represents alloc positive
  obtain ⟨hash', -, ran, -⟩ := runAll_spec rep agree ops (by simpa using enough) fresh
  exact ⟨⟨hash', ran⟩, fun values hs => by
    rw [HashOp.spec, UInt32.toInt32_ofNat', Int32.toInt_ofNat_of_lt hs]⟩

/-- A table of seven entries for numbers. -/
def numbers : Hash Nat Nat where
  links := initEntries ⟨id, id⟩ 7
  data := fun _ => 0
  nentry := 7
  cmpFunc := fun v w => v - w
  size := 0
  stat := {}
  needLock := true
  locked := false

lemma numbers_alloc : hashAlloc (fun _ => 7) ⟨true, true, true⟩ ⟨id, id⟩ (fun _ => 0) 5
    (some fun v w : Nat => (v - w : Int)) true = some numbers := rfl

lemma numbers_agree : KeysAgree toUInt32 fun v w : Nat => (v - w : Int) := by
  intro v w zero
  have hz' : (v - w : Int) = 0 := zero
  rw [show v = w by omega]

lemma numbers_represents : Represents toUInt32 numbers [] :=
  (alloc_represents numbers_alloc (by decide)).1

theorem hash_refines_numbers : (∃ hash', runAll Nat.toUInt32 2 [.insert 24 (some 0), .search 24] numbers =
      some ([.code 0, .value (some 24)], hash')) ∧
      ∀ values : List Nat, values.length < 2 ^ 31 →
        ((HashOp.size : HashOp Nat Nat).spec numbers.cmpFunc values).1 = .code values.length :=
  hash_refines numbers_alloc (by decide) numbers_agree [.insert 24 (some 0), .search 24] (by decide)
    ⟨fun node _ hi => by simpa using numbers_represents.inTable.mp hi,
    fun _ _ _ => ⟨fun node none => (by cases none), fun _ _ _ => trivial⟩⟩

/-! ## More values than an `int` counts -/

/-- Values inserted with the items `nodes`. -/
def inserts (val : V) (nodes : List N) : List (HashOp N V) := nodes.map fun node => .insert val (some node)

omit [DecidableEq N] in
lemma inserts_spec (nodes : List N) (values : List V) :
    (specAll cmp (inserts val nodes) values).2 = values ++ List.replicate nodes.length val := by
  induction nodes generalizing values with
  | nil => simp [inserts, specAll]
  | cons node nodes ih =>
    have rest := ih (values ++ [val])
    simp only [inserts, map_cons, specAll, HashOp.spec] at rest ⊢
    rw [rest]
    simp [replicate_succ]

lemma inserts_fresh (rep : Represents key hash live) {nodes : List N}
    (hd : (live ++ nodes).Nodup) : Fresh key fuel (inserts val nodes) hash := by
  induction nodes generalizing hash live with
  | nil => trivial
  | cons node nodes ih =>
    have ha : node ∉ live := fun hi =>
      (nodup_append.mp hd).2.2 node hi node (by simp) rfl
    refine ⟨fun other hg hi => ?_, fun reply hash' ran => ?_⟩
    · obtain rfl : node = other := some.inj hg
      exact ha (rep.inTable.mp hi)
    · simp only [HashOp.run, insert_eq rep, some.injEq, Prod.mk.injEq] at ran
      obtain ⟨-, rfl⟩ := ran
      exact ih (linked_step rep _ ha).1 (by simpa using hd)

lemma inserts_size {count : Nat} {told : Int} (int : (ofNat count).toInt32.toInt = told) :
    ∃ replies hash', Fresh toUInt32 count (inserts 24 (List.range count)) numbers ∧
      runAll toUInt32 count (inserts 24 (List.range count)) numbers = some (replies, hash') ∧
      (specAll numbers.cmpFunc (inserts 24 (List.range count)) []).2.length = count ∧
      (hashSize hash').1 = told := by
  have hf : Fresh toUInt32 count (inserts 24 (List.range count)) numbers :=
    inserts_fresh numbers_represents (by simpa using nodup_range)
  obtain ⟨hash', live, ran, rep, he⟩ :=
    runAll_spec numbers_represents numbers_agree _ (by simp [inserts]) hf
  have hs : (specAll numbers.cmpFunc (inserts 24 (List.range count)) []).2.length = count := by
    rw [inserts_spec, nil_append, length_replicate, length_range]
  refine ⟨_, hash', hf, ran, hs, ?_⟩
  have hc : live.length = count := by
    have hl := congrArg List.length he
    rwa [values, length_map, show values numbers [] = [] from rfl, hs] at hl
  simp only [hashSize, lock_unlocked rep.unlocked, rep.size]
  rw [hc, int]

/-- After `2 ^ 31` inserts `hash_size` is negative. -/
theorem size_overflows :
    ∃ replies hash', Fresh Nat.toUInt32 (2 ^ 31) (inserts 24 (List.range (2 ^ 31))) numbers ∧
      runAll Nat.toUInt32 (2 ^ 31) (inserts 24 (List.range (2 ^ 31))) numbers = some (replies, hash') ∧
      (specAll numbers.cmpFunc (inserts 24 (List.range (2 ^ 31))) []).2.length = 2 ^ 31 ∧
      (hashSize hash').1 = -2 ^ 31 :=
  inserts_size (by decide)

end Fzsvn.Guarantees.Datastruct.HashRefinement
