import Fzsvn.Source.Datastruct.Cblist

/-!
# Circular lists represent sequences

Each macro of `cblist.h` is followed on one ring and then on a heap of disjoint rings,
where it is `cons`, `snoc`, removal or append on the sequences its lists represent and
leaves the other lists alone. The loops run their body along the sequence, the second one
also when the body deletes the element it is run on.
-/
namespace Fzsvn.Guarantees.Datastruct.CblistRefinement
open Library.CircularList Source.Datastruct List Function

variable {α : Type} [DecidableEq α] {h : Links α} {lh lh' l x : α} {xs ys : List α}

/-! ## One ring -/

lemma addHead_ring (ring : Ring h lh xs) (new : l ∉ lh :: xs) :
    Ring (cblistAddHead h lh l) lh (l :: xs) := by
  have ho : l ≠ lh := fun he => new (by simp [he])
  have hf := path_first ring.path
  have next_l : h.n lh ≠ l := fun he => new (by simpa [he, or_comm] using hf)
  refine ⟨⟨?_, ?_, path_restart ring.path ?_ ?_ (fun y hm => ?_) (fun y hm hd => ?_)
    ((perm_append_singleton lh xs).nodup_iff.mpr ring.nodup)⟩, ?_⟩
  · simp [cblistAddHead]
  · simp [cblistAddHead]
  · simp [cblistAddHead, ho]
  · simp [cblistAddHead, ho, next_l]
  · have y_l : y ≠ l := fun he => new (by simp [← he, hm])
    have y_lh : y ≠ lh := fun he => (nodup_cons.mp ring.nodup).1 (he ▸ hm)
    simp [cblistAddHead, y_l, y_lh]
  · have y_l : y ≠ l := fun he => new (by simpa [← he, or_comm] using hm)
    simp [cblistAddHead, ho, y_l, hd]
  · obtain ⟨head, ht⟩ := nodup_cons.mp ring.nodup
    have ha : lh ∉ l :: xs := by simp [ho.symm, head]
    have fresh : l ∉ xs := fun hm => new (by simp [hm])
    exact nodup_cons.mpr ⟨ha, nodup_cons.mpr ⟨fresh, ht⟩⟩

lemma addTail_ring (ring : Ring h lh xs) (new : l ∉ lh :: xs) :
    Ring (cblistAddTail h lh l) lh (xs ++ [l]) := by
  have ho : l ≠ lh := fun he => new (by simp [he])
  have hl := path_last ring.path
  have prev_l : h.p lh ≠ l := fun he => new (he ▸ hl)
  refine ⟨path_append.mpr ⟨path_retarget ring.path ring.nodup ?_ ?_ (fun y hm hd => ?_)
    fun y hm => ?_, ?_, ?_⟩, ?_⟩
  · simp [cblistAddTail, ho, prev_l]
  · simp [cblistAddTail, ho]
  · have y_l : y ≠ l := fun he => new (he ▸ hm)
    simp [cblistAddTail, ho, y_l, hd]
  · have y_l : y ≠ l := fun he => new (by simp [← he, hm])
    have y_lh : y ≠ lh := fun he => (nodup_cons.mp ring.nodup).1 (he ▸ hm)
    simp [cblistAddTail, y_l, y_lh]
  · simp [cblistAddTail]
  · simp [cblistAddTail]
  · have hs : (lh :: (xs ++ [l])).Perm (l :: lh :: xs) := perm_append_singleton l (lh :: xs)
    exact hs.nodup_iff.mpr (nodup_cons.mpr ⟨new, ring.nodup⟩)

lemma del_ring (ring : Ring h lh (xs ++ l :: ys)) : Ring (cblistDel h l) lh (xs ++ ys) := by
  obtain ⟨hb, after⟩ := path_append.mp ring.path
  have hp : (lh :: xs).Nodup ∧ (l :: ys).Nodup ∧ List.Disjoint (lh :: xs) (l :: ys) := by
    have hn : ((lh :: xs) ++ (l :: ys)).Nodup := ring.nodup
    exact nodup_append'.mp hn
  obtain ⟨first, hs, disjoint⟩ := hp
  have prev := path_last hb
  have next := path_first after
  have prev_l : h.p l ≠ l := fun he => disjoint (he ▸ prev) (by simp)
  have l_lh : l ≠ lh := fun he => disjoint (a := lh) (by simp) (by simp [he])
  have next_l : h.n l ≠ l := by
    intro he
    rw [he] at next
    rcases mem_append.mp next with hi | atEnd
    · exact (nodup_cons.mp hs).1 hi
    · exact l_lh (by simpa using atEnd)
  have hn : (lh :: (xs ++ ys)).Nodup :=
    List.Sublist.nodup ((sublist_cons_self l ys).append_left (lh :: xs)) ring.nodup
  -- the last edge before `l` now leads to what follows it
  have hk : ∀ c, h.n l = c → (∀ y ∈ xs, y ≠ c) → Path (cblistDel h l) lh xs c := by
    intro c ht ha
    subst ht
    refine path_retarget hb first ?_ ?_ (fun y hm hd => ?_) fun y hm => ?_
    · simp [cblistDel, cblistInit, prev_l, next_l.symm]
    · simp [cblistDel, cblistInit, next_l, next_l.symm]
    · have y_l : y ≠ l := fun he => disjoint hm (by simp [he])
      simp [cblistDel, cblistInit, next_l.symm, y_l, hd]
    · have y_l : y ≠ l := fun he => disjoint (mem_cons_of_mem lh hm) (by simp [he])
      simp [cblistDel, cblistInit, y_l, ha y hm]
  refine ⟨?_, hn⟩
  cases ys with
  | nil =>
    rw [append_nil]
    exact hk lh after.1 fun y hm he => (nodup_cons.mp first).1 (he ▸ hm)
  | cons z ys =>
    obtain ⟨start, -, rest⟩ := after
    refine path_append.mpr ⟨hk z start fun y hm he => ?_, path_frame rest ?_ ?_⟩
    · exact disjoint (mem_cons_of_mem lh hm) (by simp [he])
    · intro y hm
      have y_l : y ≠ l := fun he => (nodup_cons.mp hs).1 (he ▸ hm)
      have y_prev : y ≠ h.p l := fun he =>
        disjoint (he ▸ prev) (mem_cons_of_mem l hm)
      simp [cblistDel, cblistInit, next_l.symm, y_l, y_prev]
    · intro y hm
      have y_z : y ≠ z := by
        rintro rfl
        rcases mem_append.mp hm with hi | atEnd
        · exact (nodup_cons.mp (nodup_cons.mp hs).2).1 hi
        · have he : y = lh := by simpa using atEnd
          exact disjoint (a := lh) (by simp) (by simp [← he])
      have y_l : y ≠ l := by
        rintro rfl
        rcases mem_append.mp hm with hi | atEnd
        · exact (nodup_cons.mp hs).1 (mem_cons_of_mem z hi)
        · exact l_lh (by simpa using atEnd)
      simp [cblistDel, cblistInit, start, y_l, y_z]

/-- The pointers behind a join with a list that is not empty. -/
lemma join_pointers (hf : h.n lh' ≠ lh') (hh : lh ≠ lh') (hl : h.p lh ≠ lh') (z : α) :
    (cblistJoin h lh lh').n z =
      (if z = lh' then lh' else if z = h.p lh' then lh else if z = h.p lh then h.n lh' else h.n z) ∧
    (cblistJoin h lh lh').p z =
      (if z = lh' then lh' else if z = lh then h.p lh' else if z = h.n lh' then h.p lh
        else h.p z) := by
  have hn : cblistIsEmpty h lh' = false := by simpa [cblistIsEmpty] using hf
  constructor <;>
    simp [cblistJoin, hn, cblistInit, update_apply, hf.symm, hh.symm, hl.symm]

lemma join_ring (ring : Ring h lh xs) (hr' : Ring h lh' ys)
    (hd : List.Disjoint (lh :: xs) (lh' :: ys)) :
    Ring (cblistJoin h lh lh') lh (xs ++ ys) ∧ Ring (cblistJoin h lh lh') lh' [] := by
  have hh : lh ≠ lh' := fun he => hd (a := lh) (by simp) (by simp [he])
  cases ys with
  | nil =>
    have hn : cblistIsEmpty h lh' = true := by simpa [cblistIsEmpty] using hr'.path.1
    simpa [cblistJoin, hn] using ⟨ring, hr'⟩
  | cons y ys =>
    obtain ⟨start, -, rest⟩ := hr'.path
    obtain ⟨ha, hs⟩ := nodup_cons.mp hr'.nodup
    have hl := path_last ring.path
    have hl' := path_last rest
    have y_lh' : y ≠ lh' := fun he => ha (by simp [he])
    have y_lh : y ≠ lh := fun he => hd (a := lh) (by simp) (by simp [he])
    have last_lh' : h.p lh ≠ lh' := fun he => hd (he ▸ hl) (by simp)
    have last'_lh' : h.p lh' ≠ lh' := fun he => ha (he ▸ hl')
    have last_last' : h.p lh ≠ h.p lh' := fun he =>
      hd hl (by rw [he]; exact mem_cons_of_mem lh' hl')
    have hp := join_pointers (h := h) (by rw [start]; exact y_lh') hh last_lh'
    rw [start] at hp
    refine ⟨⟨path_append.mpr ⟨?_, ?_⟩, ?_⟩, by simp [ring_empty, hp]⟩
    · refine path_retarget ring.path ring.nodup ?_ ?_ (fun z hm differs => ?_)
        fun z hm => ?_
      · simp [hp, last_lh', last_last']
      · simp [hp, y_lh', y_lh]
      · have z_lh' : z ≠ lh' := fun he => hd hm (by simp [he])
        have z_last' : z ≠ h.p lh' := fun he =>
          hd hm (by rw [he]; exact mem_cons_of_mem lh' hl')
        simp [hp, z_lh', z_last', differs]
      · have z_lh' : z ≠ lh' := fun he =>
          hd (mem_cons_of_mem lh hm) (by simp [he])
        have z_lh : z ≠ lh := fun he => (nodup_cons.mp ring.nodup).1 (he ▸ hm)
        have z_y : z ≠ y := fun he =>
          hd (mem_cons_of_mem lh hm) (by simp [he])
        simp [hp, z_lh', z_lh, z_y]
    · refine path_retarget rest hs ?_ ?_ (fun z hm differs => ?_) fun z hm => ?_
      · simp [hp, last'_lh']
      · simp [hp, hh]
      · have z_lh' : z ≠ lh' := fun he => ha (he ▸ hm)
        have z_last : z ≠ h.p lh := fun he =>
          hd hl (by rw [← he]; exact mem_cons_of_mem lh' hm)
        simp [hp, z_lh', z_last, differs]
      · have z_lh' : z ≠ lh' := fun he => ha (by simp [← he, hm])
        have z_lh : z ≠ lh := fun he => hd (a := lh) (by simp) (by simp [← he, hm])
        have z_y : z ≠ y := fun he => (nodup_cons.mp hs).1 (he ▸ hm)
        simp [hp, z_lh', z_lh, z_y]
    · have nodup : ((lh :: xs) ++ (y :: ys)).Nodup := by
        refine nodup_append'.mpr ⟨ring.nodup, hs, fun z left right => ?_⟩
        exact hd left (mem_cons_of_mem lh' right)
      exact nodup

/-! ### What is not touched -/

/-- The pointers of a node are those of before. -/
def Same (h h' : Links α) (x : α) : Prop := h'.n x = h.n x ∧ h'.p x = h.p x

section

variable (ring : Ring h lh xs) (outside : x ∉ lh :: xs)
include ring outside

lemma addHead_same (ho : x ≠ l) : Same h (cblistAddHead h lh l) x := by
  have x_lh : x ≠ lh := fun he => outside (by simp [he])
  have hf := path_first ring.path
  have x_first : x ≠ h.n lh := fun he => outside (by simpa [he, or_comm] using hf)
  constructor
  · simp [cblistAddHead, x_lh, ho]
  · by_cases he : l = lh
    · simp [cblistAddHead, he, x_lh]
    · simp [cblistAddHead, he, x_first, ho]

lemma addTail_same (ho : x ≠ l) : Same h (cblistAddTail h lh l) x := by
  have x_lh : x ≠ lh := fun he => outside (by simp [he])
  have hl := path_last ring.path
  have x_last : x ≠ h.p lh := fun he => outside (he ▸ hl)
  constructor
  · by_cases he : l = lh
    · simp [cblistAddTail, he, x_lh]
    · simp [cblistAddTail, he, x_last, ho]
  · simp [cblistAddTail, x_lh, ho]

lemma del_same (hi : l ∈ xs) : Same h (cblistDel h l) x := by
  have x_l : x ≠ l := fun he => outside (by simp [he, hi])
  have next := path_closed ring.path (mem_cons_of_mem lh hi)
  have x_next : x ≠ h.n l := fun he => outside (by simpa [he, or_comm] using next)
  obtain ⟨ys, zs, rfl⟩ := append_of_mem hi
  have hp := path_last (path_append.mp ring.path).1
  have x_prev : x ≠ h.p l := by
    rintro rfl
    rcases mem_cons.mp hp with ha | hb
    · exact outside (by simp [ha])
    · exact outside (by simp [hb])
  constructor
  · by_cases he : h.n l = l
    · simp [cblistDel, cblistInit, he, x_l, x_prev]
    · simp [cblistDel, cblistInit, Ne.symm he, x_l, x_prev]
  · simp [cblistDel, cblistInit, x_l, x_next]

end

lemma join_same (ring : Ring h lh xs) (hr' : Ring h lh' ys)
    (hd : List.Disjoint (lh :: xs) (lh' :: ys)) (outside : x ∉ lh :: xs)
    (ho' : x ∉ lh' :: ys) : Same h (cblistJoin h lh lh') x := by
  by_cases hn : h.n lh' = lh'
  · simp [Same, cblistJoin, cblistIsEmpty, hn]
  have hh : lh ≠ lh' := fun he => hd (a := lh) (by simp) (by simp [he])
  have hl := path_last ring.path
  have hl' := path_last hr'.path
  have hf' : h.n lh' ∈ lh' :: ys := by simpa [or_comm] using path_first hr'.path
  obtain ⟨next, hp⟩ := join_pointers hn hh (fun he => hd (he ▸ hl) (by simp)) x
  have x_lh : x ≠ lh := fun he => outside (by simp [he])
  have x_lh' : x ≠ lh' := fun he => ho' (by simp [he])
  have x_last : x ≠ h.p lh := fun he => outside (he ▸ hl)
  have x_last' : x ≠ h.p lh' := fun he => ho' (he ▸ hl')
  have x_first' : x ≠ h.n lh' := fun he => ho' (he ▸ hf')
  constructor
  · simp [next, x_lh', x_last, x_last']
  · simp [hp, x_lh', x_lh, x_first']

/-! ## Loops -/

section

variable {σ : Type} {links : σ → Links α} {body : α → σ → σ × Bool}

/-- The body run along a sequence, up to a `break`. -/
def visit (body : α → σ → σ × Bool) : List α → σ → σ
  | [], s => s
  | x :: xs, s =>
    match body x s with
    | (s', true) => s'
    | (s', false) => visit body xs s'

variable {fuel : Nat}

lemma forEachFrom_visit (hk : ∀ e s, links (body e s).1 = links s) {a : α} {s : σ}
    (hp : Path (links s) a xs lh) (ha : lh ∉ xs) (hf : xs.length < fuel) :
    forEachFrom links body lh fuel ((links s).n a) s = some (visit body xs s) := by
  induction xs generalizing a s fuel with
  | nil =>
    obtain ⟨fuel, rfl⟩ := Nat.exists_eq_add_of_lt hf
    simp [forEachFrom, hp.1, visit]
  | cons x xs ih =>
    obtain ⟨fuel, rfl⟩ := Nat.exists_eq_add_of_lt hf
    obtain ⟨first, -, rest⟩ := hp
    obtain ⟨ho, ha'⟩ := ne_and_not_mem_of_not_mem_cons ha
    have he := hk x s
    simp only [forEachFrom, first, visit, Ne.symm ho, if_false]
    generalize body x s = result at he
    obtain ⟨s', stop⟩ := result
    cases stop with
    | true => rfl
    | false =>
      rw [← he] at rest
      exact ih rest ha' (by simp only [length_cons] at hf ⊢; omega)

/-- `CBLIST_FOR_EACH` with a body that leaves the lists alone. -/
lemma forEach_visit (links : σ → Links α) (body : α → σ → σ × Bool)
    (hk : ∀ e s, links (body e s).1 = links s) (s : σ) (ring : Ring (links s) lh xs)
    (hf : xs.length < fuel) : cblistForEach links body lh fuel s = some (visit body xs s) :=
  forEachFrom_visit hk ring.path (nodup_cons.mp ring.nodup).1 hf

/-- The elements before `e` that the body did not delete are `xs`. -/
lemma forEachSafeFrom_visit
    (hk : ∀ e s, links (body e s).1 = links s ∨ links (body e s).1 = cblistDel (links s) e)
    {e : α} {s : σ} (ring : Ring (links s) lh (xs ++ e :: ys)) (hf : ys.length + 1 < fuel) :
    forEachSafeFrom links body lh fuel e ((links s).n e) s = some (visit body (e :: ys) s) := by
  induction ys generalizing xs e s fuel with
  | nil =>
    obtain ⟨fuel, rfl⟩ : ∃ rest, fuel = rest + 1 + 1 :=
      ⟨fuel - 2, by simp only [length_nil] at hf; omega⟩
    have ha : (links s).n e = lh := (path_append.mp ring.path).2.1
    have ho : e ≠ lh := fun he => (nodup_cons.mp ring.nodup).1 (by simp [he])
    simp only [forEachSafeFrom, visit, ho, if_false, ha]
    generalize body e s = result
    obtain ⟨s', stop⟩ := result
    cases stop with
    | true => rfl
    | false => simp
  | cons y ys ih =>
    obtain ⟨fuel, rfl⟩ := Nat.exists_eq_add_of_lt hf
    have next : (links s).n e = y := (path_append.mp ring.path).2.1
    have ho : e ≠ lh := fun he => (nodup_cons.mp ring.nodup).1 (by simp [he])
    have effect := hk e s
    rw [forEachSafeFrom, visit, if_neg ho, next]
    generalize body e s = result at effect
    obtain ⟨s', stop⟩ := result
    cases stop with
    | true => rfl
    | false =>
      have he' : ys.length + 1 < (y :: ys).length + 1 + fuel := by
        simp only [length_cons]
        omega
      rcases effect with he | hd
      · have hr' : Ring (links s') lh ((xs ++ [e]) ++ y :: ys) := by
          have hs' : links s' = links s := he
          rw [hs', append_assoc]
          exact ring
        exact ih hr' he'
      · have hr' : Ring (links s') lh (xs ++ y :: ys) := by
          have hd' : links s' = cblistDel (links s) e := hd
          rw [hd']
          exact del_ring ring
        exact ih hr' he'

/-- `CBLIST_FOR_EACH_SAFE` with a body that may delete the element it is run on. -/
lemma forEachSafe_visit (links : σ → Links α) (body : α → σ → σ × Bool)
    (hk : ∀ e s, links (body e s).1 = links s ∨ links (body e s).1 = cblistDel (links s) e)
    (s : σ) (ring : Ring (links s) lh xs) (hf : xs.length < fuel) :
    cblistForEachSafe links body lh fuel s = some (visit body xs s) := by
  cases xs with
  | nil =>
    obtain ⟨fuel, rfl⟩ := Nat.exists_eq_add_of_lt hf
    have hn : (links s).n lh = lh := ring.path.1
    simp [cblistForEachSafe, forEachSafeFrom, hn, visit]
  | cons x xs =>
    have first : (links s).n lh = x := ring.path.1
    have hr' : Ring (links s) lh ([] ++ x :: xs) := ring
    simpa [cblistForEachSafe, first] using forEachSafeFrom_visit hk hr' (by simpa using hf)

end

/-! ## A heap of lists -/

section

variable {ι : Type} [DecidableEq ι] {head : ι → α} {S : ι → List α}

/-- The lists with the heads `head` are disjoint rings and represent `S`. -/
structure Holds (head : ι → α) (h : Links α) (S : ι → List α) : Prop where
  ring : ∀ i, Ring h (head i) (S i)
  disjoint : ∀ i j, i ≠ j → List.Disjoint (head i :: S i) (head j :: S j)

inductive ListOp (ι α : Type) where
  | addHead (i : ι) (l : α)
  | addTail (i : ι) (l : α)
  | del (i : ι) (l : α)
  | join (i j : ι)

/-- The macro on the heap. -/
def ListOp.run (head : ι → α) (h : Links α) : ListOp ι α → Links α
  | .addHead i l => cblistAddHead h (head i) l
  | .addTail i l => cblistAddTail h (head i) l
  | .del _ l => cblistDel h l
  | .join i j => cblistJoin h (head i) (head j)

/-- What it is meant to do to the sequences. -/
def ListOp.spec (S : ι → List α) : ListOp ι α → ι → List α
  | .addHead i l => update S i (l :: S i)
  | .addTail i l => update S i (S i ++ [l])
  | .del i l => update S i ((S i).erase l)
  | .join i j => update (update S i (S i ++ S j)) j []

/-- An added node is in no list, a deleted one in its list, and two lists are joined. -/
def ListOp.Allowed (head : ι → α) (S : ι → List α) : ListOp ι α → Prop
  | .addHead _ l | .addTail _ l => ∀ i, l ∉ head i :: S i
  | .del i l => l ∈ S i
  | .join i j => i ≠ j

section

variable (holds : Holds head h S)
include holds

omit [DecidableEq α] [DecidableEq ι] in
/-- Lists whose nodes are untouched. -/
lemma Holds.other {h' : Links α} {k : ι} (he : ∀ x ∈ head k :: S k, Same h h' x) :
    Ring h' (head k) (S k) :=
  ring_frame (holds.ring k) (fun x hm => (he x hm).1) fun x hm => (he x hm).2

omit [DecidableEq α] in
/-- One list was rewritten, with its own nodes and nodes that were in no list. -/
lemma Holds.update {h' : Links α} {i : ι} (ring : Ring h' (head i) ys)
    (hn : ∀ x ∈ ys, x ∈ S i ∨ ∀ j, x ∉ head j :: S j)
    (he : ∀ k, k ≠ i → ∀ x ∈ head k :: S k, Same h h' x) : Holds head h' (update S i ys) := by
  have hd : ∀ k, k ≠ i → List.Disjoint (head i :: ys) (head k :: S k) := by
    intro k ho x left hr
    rcases mem_cons.mp left with ha | hi
    · exact holds.disjoint i k (Ne.symm ho) (by simp [ha]) hr
    · rcases hn x hi with old | new
      · exact holds.disjoint i k (Ne.symm ho) (mem_cons_of_mem _ old) hr
      · exact new k hr
  refine ⟨fun k => ?_, fun j k different => ?_⟩
  · by_cases hh : k = i
    · subst hh
      simpa using ring
    · simpa [hh] using holds.other (he k hh)
  · by_cases left : j = i
    · subst left
      simpa [Ne.symm different] using hd k (Ne.symm different)
    · by_cases hr : k = i
      · subst hr
        have ha' : List.Disjoint (head j :: S j) (head k :: ys) :=
          fun x inJ inK => hd j left inK inJ
        simpa [left] using ha'
      · simpa [left, hr] using holds.disjoint j k different

lemma addHead_holds {i : ι} (new : ∀ j, l ∉ head j :: S j) :
    Holds head (cblistAddHead h (head i) l) (update S i (l :: S i)) := by
  refine holds.update (addHead_ring (holds.ring i) (new i)) (fun x hm => ?_) fun k ho x hm => ?_
  · rcases mem_cons.mp hm with rfl | old
    · exact .inr new
    · exact .inl old
  · exact addHead_same (holds.ring i) (fun hi => holds.disjoint k i ho hm hi)
      fun he => new k (he ▸ hm)

lemma addTail_holds {i : ι} (new : ∀ j, l ∉ head j :: S j) :
    Holds head (cblistAddTail h (head i) l) (update S i (S i ++ [l])) := by
  refine holds.update (addTail_ring (holds.ring i) (new i)) (fun x hm => ?_) fun k ho x hm => ?_
  · rcases mem_append.mp hm with old | ha
    · exact .inl old
    · exact .inr (mem_singleton.mp ha ▸ new)
  · exact addTail_same (holds.ring i) (fun hi => holds.disjoint k i ho hm hi)
      fun he => new k (he ▸ hm)

lemma del_holds {i : ι} (hi : l ∈ S i) : Holds head (cblistDel h l) (update S i ((S i).erase l)) := by
  have ring := holds.ring i
  have hs : Ring (cblistDel h l) (head i) ((S i).erase l) := by
    obtain ⟨ys, zs, ha, split, erased⟩ := exists_erase_eq hi
    rw [split] at ring
    rw [erased]
    exact del_ring ring
  refine holds.update hs (fun x hm => .inl (mem_of_mem_erase hm)) fun k ho x hm => ?_
  exact del_same ring (fun he => holds.disjoint k i ho hm he) hi

lemma join_holds {i j : ι} (different : i ≠ j) : Holds head (cblistJoin h (head i) (head j))
      (update (update S i (S i ++ S j)) j []) := by
  have disjoint := holds.disjoint i j different
  obtain ⟨hj, emptied⟩ := join_ring (holds.ring i) (holds.ring j) disjoint
  have he : ∀ k, k ≠ i → k ≠ j → ∀ x ∈ head k :: S k,
      Same h (cblistJoin h (head i) (head j)) x := fun k ki kj x hm =>
    join_same (holds.ring i) (holds.ring j) disjoint (fun hi => holds.disjoint k i ki hm hi)
      fun hi => holds.disjoint k j kj hm hi
  have hn : ∀ k x, x ∈ head k :: update (update S i (S i ++ S j)) j [] k →
      x = head k ∨ k ≠ j ∧ x ∈ S k ∨ k = i ∧ x ∈ S j := by
    intro k x hm
    by_cases kj : k = j
    · subst kj
      exact .inl (by simpa using hm)
    · by_cases ki : k = i
      · subst ki
        simpa [kj] using hm
      · simpa [kj, ki] using hm
  refine ⟨fun k => ?_, fun k m hd x left right => ?_⟩
  · by_cases kj : k = j
    · subst kj
      simpa using emptied
    · by_cases ki : k = i
      · subst ki
        simpa [kj] using hj
      · simpa [kj, ki] using holds.other (he k ki kj)
  · have ho : ∀ a b, x ∈ head a :: S a → x ∈ head b :: S b → a = b := fun a b inA inB =>
      by_contra fun different => holds.disjoint a b different inA inB
    have hh : head j ∉ S j := (nodup_cons.mp (holds.ring j).nodup).1
    have hf := hn k x left
    have fromRight := hn m x right
    grind

lemma op_holds {op : ListOp ι α} (ha : op.Allowed head S) :
    Holds head (op.run head h) (op.spec S) := by
  cases op with
  | addHead i l => exact addHead_holds holds ha
  | addTail i l => exact addTail_holds holds ha
  | del i l => exact del_holds holds ha
  | join i j => exact join_holds holds ha

end

omit [DecidableEq α] [DecidableEq ι] in
/-- Disjoint well-formed lists represent sequences. -/
lemma closed_holds (hc : ∀ i, Closed h (head i))
    (hd : ∀ i j, i ≠ j → ∀ m k, h.n^[m] (head i) ≠ h.n^[k] (head j)) : ∃ S, Holds head h S := by
  choose S ring using fun i => closed_ring (hc i)
  refine ⟨S, ring, fun i j different x left right => ?_⟩
  obtain ⟨m, atM⟩ := path_reached (ring i).path left
  obtain ⟨k, atK⟩ := path_reached (ring j).path right
  exact hd i j different m k (atM.trans atK.symm)

/-- On every heap of disjoint well-formed lists the macros do to the represented sequences
what they are named for, and the lists stay well formed and disjoint. The loops run their
body on the elements in order, up to a `break`; that of `CBLIST_FOR_EACH_SAFE` may delete
the element it is run on. -/
theorem cblist_refines (closed : ∀ i, Closed h (head i))
    (apart : ∀ i j, i ≠ j → ∀ m k, h.n^[m] (head i) ≠ h.n^[k] (head j)) : ∃ S, Holds head h S ∧
      (∀ op : ListOp ι α, op.Allowed head S →
        Holds head (op.run head h) (op.spec S) ∧ ∀ i, Closed (op.run head h) (head i)) ∧
      ∀ (σ : Type) (links : σ → Links α) (body : α → σ → σ × Bool) (s : σ) (i : ι) (fuel : Nat),
        links s = h → (S i).length < fuel → ((∀ e s, links (body e s).1 = links s) →
            cblistForEach links body (head i) fuel s = some (visit body (S i) s)) ∧
          ((∀ e s, links (body e s).1 = links s ∨ links (body e s).1 = cblistDel (links s) e) →
            cblistForEachSafe links body (head i) fuel s = some (visit body (S i) s)) := by
  obtain ⟨S, holds⟩ := closed_holds closed apart
  refine ⟨S, holds, fun op ha => ?_, fun σ links body s i fuel hh he => ?_⟩
  · have hh' := op_holds holds ha
    exact ⟨hh', fun i => ring_closed (hh'.ring i)⟩
  · have hr := holds.ring i
    rw [← hh] at hr
    exact ⟨fun hk => forEach_visit links body hk s hr he,
      fun hk => forEachSafe_visit links body hk s hr he⟩

/-- The nodes 2 and 3 behind the head 0, nothing behind the head 1, and the node 4 in no list. -/
def twoLists : Links (Fin 5) where
  p x := [3, 1, 0, 2, 4][x]
  n x := [2, 1, 3, 0, 4][x]

def twoHeads (i : Bool) : Fin 5 := if i then 1 else 0

def twoElements (i : Bool) : List (Fin 5) := if i then [] else [2, 3]

lemma twoLists_ring (i : Bool) : Ring twoLists (twoHeads i) (twoElements i) := by
  cases i with
  | false => exact ⟨⟨rfl, rfl, rfl, rfl, rfl, rfl⟩, by decide⟩
  | true => exact ⟨⟨rfl, rfl⟩, by decide⟩

/-- The node 4 is added behind 2 and 3. -/
theorem cblist_refines_two : ∃ S, Holds twoHeads twoLists S ∧ S false ≠ [] ∧
      Holds twoHeads (cblistAddTail twoLists 0 4) (update S false (S false ++ [4])) := by
  have hclosed : ∀ i, Closed twoLists (twoHeads i) := fun i => ring_closed (twoLists_ring i)
  have hapart : ∀ i j, i ≠ j → ∀ m k, twoLists.n^[m] (twoHeads i) ≠ twoLists.n^[k] (twoHeads j) := by
    have hdisjoint : ∀ i j, i ≠ j → ∀ x ∈ twoHeads i :: twoElements i, x ∉ twoHeads j :: twoElements j := by
      decide
    intro i j hne m k heq
    exact hdisjoint i j hne _ (ring_reached (twoLists_ring i) m) (heq ▸ ring_reached (twoLists_ring j) k)
  obtain ⟨S, holds, ops, -⟩ := cblist_refines hclosed hapart
  refine ⟨S, holds, fun hempty => ?_, (ops (.addTail false 4) fun i hmem => ?_).1⟩
  · have hring := holds.ring false
    rw [hempty] at hring
    exact absurd hring.path.1 (by decide)
  · have hspare : ∀ i, 4 ∉ twoHeads i :: twoElements i := by decide
    obtain ⟨k, hk⟩ := path_reached (holds.ring i).path hmem
    exact hspare i (hk ▸ ring_reached (twoLists_ring i) k)

end

end Fzsvn.Guarantees.Datastruct.CblistRefinement
