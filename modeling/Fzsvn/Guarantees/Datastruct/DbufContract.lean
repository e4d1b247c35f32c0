import Fzsvn.Source.Datastruct.Dbuffer

/-!
# The dynamic buffer and its capacity

`dbuf_put` trusts `buf->max` for the size of the allocation. `dbuf_init` sets the two
together, but a successful `dbuf_resize` replaces the allocation and leaves `max` as it
was, and a `dbuf_init` that gets no memory drops the allocation of an earlier one and
keeps its `max`. The contract of the buffer holds along a run exactly when neither happens
in it (`dbuf_contract`); after a resize to fewer bytes `dbuf_put` writes behind the end
(`shrunk_overrun`).
-/
namespace Fzsvn.Guarantees.Datastruct.DbufContract
open Library.Block Source.Datastruct Except Option

/-! ## The contract -/

inductive DbufOp where
  | init (max : UInt32) (answer : Pointer)
  | resize (max : UInt32) (answer : Pointer)
  | put (d : Pointer) (len : UInt32)
  | reset

/-- The return value and the buffer after it. -/
def DbufOp.run (buf : Dbuf) : DbufOp → Except DbufFault (Int × Dbuf)
  | .init max answer => .ok (dbufInit buf max answer)
  | .resize max answer => dbufResize buf max answer
  | .put d len => dbufPut buf d len
  | .reset => .ok (0, dbufReset buf)

/-- What the history of a buffer says about it: the size of the last successful init or
resize, and the data put since the last init or reset. -/
structure History where
  size : Nat
  data : List UInt8

def DbufOp.record (history : History) (ret : Int) : DbufOp → History
  | .init max _ => if ret = 0 then ⟨max.toNat, []⟩ else history
  | .resize max _ => if ret = 0 then { history with size := max.toNat } else history
  | .put (some d) len =>
    if ret = 0 then { history with data := history.data ++ bytesAt d len } else history
  | .put none _ => history
  | .reset => { history with data := [] }

/-- A put of at least one byte succeeds exactly when the data fits. -/
def DbufOp.Answers (history : History) (ret : Int) : DbufOp → Prop
  | .put (some _) len => 1 ≤ len → (ret = 0 ↔ history.data.length + len.toNat ≤ history.size)
  | _ => True

/-- The allocation; there is none behind `NULL`. -/
def allocation (buf : Dbuf) : List UInt8 := buf.buf.getD []

structure Contract (buf : Dbuf) (history : History) : Prop where
  max : buf.max.toNat = (allocation buf).length
  len : buf.len.toNat ≤ buf.max.toNat
  data : slice (allocation buf) 0 buf.len.toNat = history.data

/-- No operation of the run leaves the allocation, each answers as it should, and the
contract holds in every state. -/
def Obeys : List DbufOp → Dbuf → History → Prop
  | [], buf, history => Contract buf history
  | op :: ops, buf, history => Contract buf history ∧ ∃ ret buf', op.run buf = .ok (ret, buf') ∧
      op.Answers history ret ∧ Obeys ops buf' (op.record history ret)

/-! ## When it holds -/

/-- No resize gets memory for another size, and no init that gets none follows a
successful one. -/
def DbufOp.Harmless (buf : Dbuf) : DbufOp → Prop
  | .init max answer => max < 1 ∨ answer.isSome ∨ buf.max = 0
  | .resize max answer => max < 1 ∨ max < buf.len ∨ max = buf.max ∨ answer = none
  | _ => True

def AllHarmless : List DbufOp → Dbuf → Prop
  | [], _ => True
  | op :: ops, buf =>
    op.Harmless buf ∧ ∀ ret buf', op.run buf = .ok (ret, buf') → AllHarmless ops buf'

/-! ## Steps -/

structure Valid (buf : Dbuf) (history : History) : Prop extends Contract buf history where
  size : buf.max.toNat = history.size

variable {buf buf' : Dbuf} {history : History} {op : DbufOp} {ops : List DbufOp} {ret : Int}

lemma bytesAt_length (memory : Nat → UInt8) (len : UInt32) :
    (bytesAt memory len).length = len.toNat := by simp [bytesAt]

lemma Contract.data_length (hc : Contract buf history) : history.data.length = buf.len.toNat := by
  rw [← hc.data]
  exact slice_length (by rw [Nat.zero_add, ← hc.max]; exact hc.len)

lemma Obeys.contract (ho : Obeys ops buf history) : Contract buf history := by
  cases ops with
  | nil => exact ho
  | cons op ops => exact ho.1

lemma refused_iff {p : Prop} (not : ¬ p) : ((-1 : Int) = 0 ↔ p) :=
  ⟨fun zero => absurd zero (by decide), fun yes => absurd yes not⟩

variable {answer : Pointer} {max : UInt32}

section

variable (hv : Valid buf history)
include hv

lemma init_valid (hh : (DbufOp.init max answer).Harmless buf) : Valid (dbufInit buf max answer).2
      ((DbufOp.init max answer).record history (dbufInit buf max answer).1) := by
  unfold dbufInit
  split
  next => exact hv
  next hr =>
    cases answer with
    | none =>
      have hn : buf.max = 0 := by simpa [DbufOp.Harmless, hr] using hh
      have hn' : (allocation buf).length = 0 := by rw [← hv.max, hn]; rfl
      have hd : buf.len.toNat = 0 := by
        have := hv.len
        rw [hn] at this
        simpa using this
      have nothing : history.data = [] := by
        rw [← List.length_eq_zero_iff, hv.data_length, hd]
      refine ⟨⟨by rw [hn]; rfl, hv.len, ?_⟩, hv.size⟩
      change slice [] 0 buf.len.toNat = history.data
      rw [nothing, slice, List.drop_nil, List.take_nil]
    | some memory =>
      exact ⟨⟨(bytesAt_length memory max).symm, Nat.zero_le _, rfl⟩, rfl⟩

lemma resize_valid (hh : (DbufOp.resize max answer).Harmless buf) :
    ∃ ret, dbufResize buf max answer = .ok (ret, buf) ∧
      Valid buf ((DbufOp.resize max answer).record history ret) := by
  unfold dbufResize
  split
  next => exact ⟨-1, rfl, hv⟩
  next hp =>
    split
    next => exact ⟨-1, rfl, hv⟩
    next hf =>
      split
      next he =>
        refine ⟨0, rfl, ⟨hv.max, hv.len, hv.data⟩, ?_⟩
        rw [← he]
        rfl
      next other =>
        obtain rfl : answer = none := by
          simpa [DbufOp.Harmless, hp, hf, other] using hh
        exact ⟨-1, rfl, hv⟩

lemma append_valid {old : List UInt8} (hh : buf.buf = some old) (d : Nat → UInt8)
    {len : UInt32} (hi : buf.len.toNat + len.toNat ≤ old.length) : Valid { buf with
        buf := some (overwrite old buf.len.toNat (bytesAt d len))
        len := buf.len + len } { history with data := history.data ++ bytesAt d len } := by
  have hw : old.length = buf.max.toNat := by rw [hv.max, allocation, hh]; rfl
  have hc := bytesAt_length d len
  have sum : (buf.len + len).toNat = buf.len.toNat + len.toNat := by
    have := buf.max.toNat_lt
    rw [UInt32.toNat_add, Nat.mod_eq_of_lt (by omega)]
  have hb : slice old 0 buf.len.toNat = history.data := by rw [← hv.data, allocation, hh]; rfl
  refine ⟨⟨?_, ?_, ?_⟩, hv.size⟩
  · change buf.max.toNat = (overwrite old buf.len.toNat (bytesAt d len)).length
    rw [overwrite_length (by omega), hw]
  · change (buf.len + len).toNat ≤ buf.max.toNat
    omega
  · change slice (overwrite old buf.len.toNat (bytesAt d len)) 0 (buf.len + len).toNat = _
    have written : slice (overwrite old buf.len.toNat (bytesAt d len)) buf.len.toNat len.toNat =
        bytesAt d len := by
      rw [← hc]
      exact slice_overwrite (by omega)
    rw [sum, slice_append, Nat.zero_add, written, slice_overwrite_frame (by omega) (.inl (by omega)), hb]

lemma put_valid {d : Pointer} {len : UInt32} :
    ∃ ret buf', dbufPut buf d len = .ok (ret, buf') ∧ (DbufOp.put d len).Answers history ret ∧
      Valid buf' ((DbufOp.put d len).record history ret) := by
  cases d with
  | none => exact ⟨-1, buf, rfl, trivial, hv⟩
  | some d =>
    have refuses : ∀ ret buf', dbufPut buf (some d) len = .ok (ret, buf') →
        (ret = -1 ∧ buf' = buf) → (DbufOp.put (some d) len).Answers history ret →
        ∃ ret buf', dbufPut buf (some d) len = .ok (ret, buf') ∧
          (DbufOp.put (some d) len).Answers history ret ∧
          Valid buf' ((DbufOp.put (some d) len).record history ret) := by
      rintro ret buf' ran ⟨rfl, rfl⟩ answers
      exact ⟨-1, buf', ran, answers, hv⟩
    have hc := hv.data_length
    have size := hv.size
    have hr : (buf.max - buf.len).toNat = buf.max.toNat - buf.len.toNat :=
      UInt32.toNat_sub_of_le _ _ hv.len
    by_cases hn : len < 1
    · refine refuses _ _ (by simp [dbufPut, hn]) ⟨rfl, rfl⟩ fun ha => ?_
      exact absurd (UInt32.lt_of_lt_of_le hn ha) (UInt32.lt_irrefl _)
    · have ha : 1 ≤ len.toNat := by
        simpa using UInt32.le_iff_toNat_le.mp (UInt32.not_lt.mp hn)
      cases hh : buf.buf with
      | none =>
        have nothing : buf.max.toNat = 0 := by rw [hv.max, allocation, hh]; rfl
        exact refuses _ _ (by simp [dbufPut, hn, hh]) ⟨rfl, rfl⟩ fun _ => refused_iff (by omega)
      | some old =>
        have hw : old.length = buf.max.toNat := by rw [hv.max, allocation, hh]; rfl
        by_cases full : buf.max - buf.len < len
        · have hs := UInt32.lt_iff_toNat_lt.mp full
          exact refuses _ _ (by simp [dbufPut, hn, hh, full]) ⟨rfl, rfl⟩ fun _ =>
            refused_iff (by omega)
        · have hf : len.toNat ≤ buf.max.toNat - buf.len.toNat := by
            rw [← hr]
            exact UInt32.le_iff_toNat_le.mp (UInt32.not_lt.mp full)
          have hi : buf.len.toNat + len.toNat ≤ old.length := by
            have := hv.len
            omega
          exact ⟨0, _, by simp only [dbufPut, hn, hh, full, hi, if_true, if_false],
            fun _ => ⟨fun _ => by omega, fun _ => rfl⟩, append_valid hv hh d hi⟩

/-- A harmless operation keeps the contract. -/
lemma op_valid (hh : op.Harmless buf) :
    ∃ ret buf', op.run buf = .ok (ret, buf') ∧ op.Answers history ret ∧
      Valid buf' (op.record history ret) := by
  cases op with
  | init max answer => exact ⟨_, _, rfl, trivial, init_valid hv hh⟩
  | resize max answer =>
    obtain ⟨ret, ran, hk⟩ := resize_valid hv hh
    exact ⟨ret, buf, ran, trivial, hk⟩
  | put d len => exact put_valid hv
  | reset => exact ⟨0, _, rfl, trivial, ⟨hv.max, Nat.zero_le _, rfl⟩, hv.size⟩

end

/-- An init without memory after a successful one. -/
lemma init_breaks (hh : ¬ (DbufOp.init max answer).Harmless buf) :
    ¬ Contract (dbufInit buf max answer).2
      ((DbufOp.init max answer).record history (dbufInit buf max answer).1) := by
  simp only [DbufOp.Harmless, not_or, not_isSome_iff_eq_none] at hh
  obtain ⟨hp, rfl, hf⟩ := hh
  intro hc
  have he : buf.max.toNat = 0 := by simpa [dbufInit, hp, malloc, allocation] using hc.max
  exact hf (UInt32.toNat_inj.mp he)

/-- A resize that gets memory for another size. -/
lemma resize_breaks (hv : Valid buf history)
    (harmful : ¬ (DbufOp.resize max answer).Harmless buf) {ret : Int} {buf' : Dbuf}
    (ran : dbufResize buf max answer = .ok (ret, buf')) {history' : History} : ¬ Contract buf' history' := by
  simp only [DbufOp.Harmless, not_or] at harmful
  obtain ⟨hp, hf, other, hs'⟩ := harmful
  obtain ⟨memory, rfl⟩ := ne_none_iff_exists'.mp hs'
  -- the new block has the requested size, `max` stays
  have ho : buf'.max = buf.max ∧ (allocation buf').length = max.toNat := by
    have hr : buf.len.toNat ≤ max.toNat := UInt32.le_iff_toNat_le.mp (UInt32.not_lt.mp hf)
    have hs := bytesAt_length memory max
    simp only [dbufResize, hp, hf, other, malloc, if_false, map_some] at ran
    cases hh : buf.buf with
    | none =>
      simp only [hh, ok.injEq, Prod.mk.injEq] at ran
      obtain ⟨-, rfl⟩ := ran
      exact ⟨rfl, hs⟩
    | some old =>
      have hi : buf.len.toNat ≤ old.length := by
        have := hv.max
        rw [allocation, hh] at this
        exact Nat.le_trans hv.len (Nat.le_of_eq this)
      simp only [hh, hi, if_true] at ran
      split at ran
      · simp only [ok.injEq, Prod.mk.injEq] at ran
        obtain ⟨-, rfl⟩ := ran
        refine ⟨rfl, ?_⟩
        change (overwrite (bytesAt memory max) 0 (slice old 0 buf.len.toNat)).length = max.toNat
        rw [overwrite_length (by rw [slice_length (by omega)]; omega), hs]
      · simp only [ok.injEq, Prod.mk.injEq] at ran
        obtain ⟨-, rfl⟩ := ran
        exact ⟨rfl, hs⟩
  intro hc
  have he := hc.max
  rw [ho.1, ho.2] at he
  exact other (UInt32.toNat_inj.mp he.symm)

lemma op_breaks (hv : Valid buf history) (hh : ¬ op.Harmless buf)
    (ran : op.run buf = .ok (ret, buf')) : ¬ Contract buf' (op.record history ret) := by
  cases op with
  | init max answer =>
    simp only [DbufOp.run, ok.injEq] at ran
    have hb : ¬ Contract _ ((DbufOp.init max answer).record history _) := init_breaks hh
    rwa [ran] at hb
  | resize max answer => exact resize_breaks hv hh ran
  | put d len => exact absurd trivial hh
  | reset => exact absurd trivial hh

/-! ## Runs -/

lemma obeys_iff (hv : Valid buf history) : Obeys ops buf history ↔ AllHarmless ops buf := by
  induction ops generalizing buf history with
  | nil => exact ⟨fun _ => trivial, fun _ => hv.toContract⟩
  | cons op ops ih =>
    by_cases hh : op.Harmless buf
    · obtain ⟨ret, buf', ran, ha, hv'⟩ := op_valid hv hh
      constructor
      · rintro ⟨-, ret1, buf1, ran1, -, hl⟩
        refine ⟨hh, fun ret2 buf2 ran2 => ?_⟩
        obtain ⟨rfl, rfl⟩ : ret1 = ret ∧ buf1 = buf' := by simpa [ran] using ran1.symm
        obtain ⟨rfl, rfl⟩ : ret2 = ret1 ∧ buf2 = buf1 := by simpa [ran] using ran2.symm
        exact (ih hv').mp hl
      · rintro ⟨-, hl⟩
        exact ⟨hv.toContract, ret, buf', ran, ha, (ih hv').mpr (hl ret buf' ran)⟩
    · constructor
      · rintro ⟨-, ret, buf', ran, -, hl⟩
        exact absurd hl.contract (op_breaks hv hh ran)
      · rintro ⟨now, -⟩
        exact absurd now hh

lemma zero_valid : Valid dbufZero ⟨0, []⟩ := ⟨⟨rfl, Nat.zero_le _, rfl⟩, rfl⟩

/-- The contract holds along a run of a zeroed buffer exactly when no resize of it gets
memory for another size and no init that gets none follows a successful one. -/
theorem dbuf_contract (ops : List DbufOp) : Obeys ops dbufZero ⟨0, []⟩ ↔ AllHarmless ops dbufZero :=
  obeys_iff zero_valid

/-- Sixteen bytes, a resize to four and a put of eight: the write leaves the allocation. -/
theorem shrunk_overrun : ¬ Obeys
    [.init 16 (some fun _ => 0), .resize 4 (some fun _ => 0), .put (some fun _ => 1) 8] dbufZero ⟨0, []⟩ ∧ (do
      let (_, buf) ← (DbufOp.init 16 (some fun _ => 0)).run dbufZero
      let (_, buf) ← (DbufOp.resize 4 (some fun _ => 0)).run buf
      (DbufOp.put (some fun _ => 1) 8).run buf) = .error .outOfBounds := by
  refine ⟨fun ho => ?_, rfl⟩
  obtain ⟨-, hl⟩ := (obeys_iff zero_valid).mp ho
  have hh := (hl _ _ rfl).1
  simp [DbufOp.Harmless] at hh

end Fzsvn.Guarantees.Datastruct.DbufContract
