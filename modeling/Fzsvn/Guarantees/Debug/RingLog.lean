import Fzsvn.Source.Debug.DbgLog

/-!
# What a ring log gives back

The writer counts the records in `nrec`, but not the one that fills the last slot: after
exactly `maxrec` writes the last record cannot be read, and a log of one slot never has a
readable record (`last_slot_lost`). For every other number of writes since the last clear the
log holds the last `maxrec` records, oldest first (`ring_log_iff`).
-/
namespace Fzsvn.Guarantees.Debug.RingLog
open Library.Block Library.LittleEndian Source.Debug List
open DlHeader (advance decode encode mk)
open Nat (mod_eq_of_lt mod_one succ_mul zero_mod)
open UInt32 (ofNat ofNat_add toNat)

/-! ## The contract -/

inductive LogOp where
  | write (record : List UInt8)
  | clear

def LogOp.run (df : DlFile) (file : List UInt8) : LogOp → List UInt8
  | .write record => dlWrite df file record
  | .clear => dbgLogClear df file

/-- The records since the last clear. -/
def LogOp.record (records : List (List UInt8)) : LogOp → List (List UInt8)
  | .write record => records ++ [record]
  | .clear => []

/-- The number of indices that `dbg_log_read` accepts. -/
def readable (df : DlFile) (file : List UInt8) : Nat := (dlOpen df file).1.nrec.toNat

/-- The last `maxrec` records can be read, oldest first. A reader with a buffer shorter than
a record gets its beginning. -/
structure Contract (df : DlFile) (file : List UInt8) (records : List (List UInt8)) : Prop where
  count : readable df file = min records.length df.maxrec.toNat
  content : ∀ i < min records.length df.maxrec.toNat, ∀ len, 1 ≤ len →
    ((dbgLogRead df file (Int32.ofNat i) len).1 =
      records[records.length - min records.length df.maxrec.toNat + i]?.map (·.take len))

/-- A log of at least one slot whose positions and slot numbers fit their types. -/
structure Fits (df : DlFile) : Prop where
  maxrec : 1 ≤ df.maxrec.toNat
  slots : df.maxrec.toNat ≤ 2 ^ 30
  bytes : hlen + df.maxrec.toNat * df.reclen.toNat ≤ 2 ^ 32

/-- No log yet: opening the file writes a new header. -/
def Unopened (df : DlFile) (file : List UInt8) : Prop :=
  ¬ ((slice file 0 hlen).length = hlen ∧ (DlHeader.decode (slice file 0 hlen)).magic = df.magic)

def LogOp.Whole (df : DlFile) : LogOp → Prop
  | .write record => record.length = df.reclen.toNat
  | .clear => True

/-! ## The header -/

/-- The records that the header counts after `k` writes. -/
def counted (slots k : Nat) : Nat :=
  if k < slots then k else if k = slots then slots - 1 else if slots = 1 then 0 else slots

def headerAfter (df : DlFile) (k : Nat) : DlHeader where
  magic := df.magic
  wpos := UInt32.ofNat (hlen + k % df.maxrec.toNat * df.reclen.toNat)
  wrec := UInt32.ofNat (k % df.maxrec.toNat)
  mrec := df.maxrec
  nrec := UInt32.ofNat (counted df.maxrec.toNat k)

lemma decode_encode {h : DlHeader} : decode h.encode = h := by
  obtain ⟨magic, wpos, wrec, mrec, nrec⟩ := h
  have hw : ∀ w rest, word32 (bytes32 w ++ rest) = w := word32_bytes32
  simp only [decode, encode, append_assoc]
  refine congr (congr (congr (congr (congrArg mk ?_) ?_) ?_) ?_) ?_
  · exact hw _ _
  · exact hw _ _
  · exact hw _ _
  · exact hw _ _
  · exact hw nrec []

variable {df : DlFile} {file record : List UInt8} {records : List (List UInt8)} {k r : Nat}

lemma counted_le (slots k : Nat) : counted slots k ≤ slots := by
  unfold counted
  split
  · omega
  · split
    · omega
    · split <;> omega

lemma counted_zero {slots : Nat} (some : 1 ≤ slots) (none : counted slots k = 0) : k % slots = 0 := by
  unfold counted at none
  split at none
  next => rw [none, zero_mod]
  next =>
    have one : slots = 1 := by
      split at none
      · omega
      · split at none <;> omega
    rw [one, mod_one]

lemma Fits.mod_lt (hf : Fits df) (k : Nat) : k % df.maxrec.toNat < df.maxrec.toNat :=
  Nat.mod_lt k hf.maxrec

lemma Fits.slot_lt (hf : Fits df) (k : Nat) : hlen + k % df.maxrec.toNat * df.reclen.toNat < 2 ^ 32 := by
  have hb := hf.bytes
  by_cases hn : df.reclen.toNat = 0
  · rw [hn, Nat.mul_zero]
    decide
  · have hl : (k % df.maxrec.toNat + 1) * df.reclen.toNat ≤ df.maxrec.toNat * df.reclen.toNat :=
      Nat.mul_le_mul_right _ (hf.mod_lt k)
    rw [succ_mul] at hl
    omega

lemma mod_succ (some : 1 ≤ r) : (k + 1) % r = if k % r + 1 < r then k % r + 1 else 0 := by
  have hl := Nat.mod_lt k some
  rw [Nat.add_mod]
  by_cases one : r = 1
  · subst one
    simp [mod_one]
  · rw [mod_eq_of_lt (show 1 < r by omega)]
    split
    next hr => exact mod_eq_of_lt hr
    next full =>
      have last : k % r + 1 = r := by omega
      rw [last, Nat.mod_self]

lemma counted_succ {slots : Nat} (some : 1 ≤ slots) : counted slots (k + 1) =
    if k % slots + 1 < slots then (if counted slots k < slots then counted slots k + 1 else counted slots k)
    else counted slots k := by
  obtain he | late := Nat.lt_or_ge k slots
  · -- the first round
    have hh : k % slots = k := mod_eq_of_lt he
    have hb : counted slots k = k := if_pos he
    rw [hh, hb]
    by_cases hr : k + 1 < slots
    · rw [if_pos hr, if_pos he, counted, if_pos hr]
    · rw [if_neg hr, counted, if_neg hr, if_pos (by omega)]
      omega
  · have ha : counted slots (k + 1) = if slots = 1 then 0 else slots := by
      rw [counted, if_neg (by omega), if_neg (by omega)]
    rw [ha]
    by_cases one : slots = 1
    · have hb : counted slots k = 0 := by
        rw [counted, if_neg (by omega)]
        split <;> omega
      rw [if_pos one, hb, one, mod_one]
      rfl
    · rw [if_neg one]
      by_cases hf : k = slots
      · -- the write after the one that was not counted
        have hb : counted slots k = slots - 1 := by rw [counted, if_neg (by omega), if_pos hf]
        rw [hb, hf, Nat.mod_self, if_pos (by omega), if_pos (by omega)]
        omega
      · have hb : counted slots k = slots := by
          rw [counted, if_neg (by omega), if_neg hf, if_neg one]
        rw [hb, if_neg (Nat.lt_irrefl _), ite_self]

lemma toNat_small {n : Nat} (hs : n < 2 ^ 32) : (ofNat n).toNat = n := by
  rw [UInt32.toNat_ofNat', mod_eq_of_lt hs]

/-- The header that a write stores. -/
lemma header_step (hf : Fits df) : (headerAfter df k).advance df.reclen = headerAfter df (k + 1) := by
  have hl := hf.mod_lt k
  have hs := hf.slots
  have hc := counted_le df.maxrec.toNat k
  have wrec : (headerAfter df k).wrec + 1 = ofNat (k % df.maxrec.toNat + 1) :=
    (ofNat_add _ _).symm
  have hw : (headerAfter df k).wpos + df.reclen =
      ofNat (hlen + (k % df.maxrec.toNat + 1) * df.reclen.toNat) := by
    have sum : hlen + (k % df.maxrec.toNat + 1) * df.reclen.toNat =
        hlen + k % df.maxrec.toNat * df.reclen.toNat + df.reclen.toNat := by rw [succ_mul, Nat.add_assoc]
    rw [sum, ofNat_add, UInt32.ofNat_toNat]
    rfl
  have hn : (headerAfter df k).nrec + 1 = ofNat (counted df.maxrec.toNat k + 1) :=
    (ofNat_add _ _).symm
  have full : (headerAfter df k).wrec + 1 ≥ df.maxrec ↔ ¬ k % df.maxrec.toNat + 1 < df.maxrec.toNat := by
    rw [ge_iff_le, UInt32.le_iff_toNat_le, wrec, toNat_small (by omega), Nat.not_lt]
  have fewer : (headerAfter df k).nrec < df.maxrec ↔ counted df.maxrec.toNat k < df.maxrec.toNat := by
    rw [UInt32.lt_iff_toNat_lt, headerAfter, toNat_small (by omega)]
  have next : ∀ {w n : Nat}, (k + 1) % df.maxrec.toNat = w → counted df.maxrec.toNat (k + 1) = n →
      headerAfter df (k + 1) = ⟨df.magic, ofNat (hlen + w * df.reclen.toNat), ofNat w,
        df.maxrec, ofNat n⟩ := by
    rintro _ _ rfl rfl
    rfl
  have mod := mod_succ (k := k) hf.maxrec
  have hc' := counted_succ (k := k) hf.maxrec
  unfold advance
  by_cases hr : k % df.maxrec.toNat + 1 < df.maxrec.toNat
  · rw [if_pos hr] at mod hc'
    refine (if_neg (not_not.mpr hr ∘ full.mp)).trans ?_
    by_cases less : counted df.maxrec.toNat k < df.maxrec.toNat
    · rw [if_pos less] at hc'
      rw [next mod hc', ← hw, ← wrec, ← hn]
      exact if_pos (fewer.mpr less)
    · rw [if_neg less] at hc'
      rw [next mod hc', ← hw, ← wrec]
      exact if_neg (less ∘ fewer.mp)
  · rw [if_neg hr] at mod hc'
    rw [next mod hc', Nat.zero_mul]
    exact if_pos (full.mpr hr)

/-! ## The file -/

def slotPos (df : DlFile) (r : Nat) : Nat := hlen + r % df.maxrec.toNat * df.reclen.toNat

/-- The header of so many writes, and the last records in their slots. -/
structure Holds (df : DlFile) (file : List UInt8) (records : List (List UInt8)) : Prop where
  header : slice file 0 hlen = (headerAfter df records.length).encode
  slots : ∀ r < records.length, records.length ≤ r + df.maxrec.toNat →
    records[r]? = some (slice file (slotPos df r) df.reclen.toNat)
  whole : ∀ record ∈ records, record.length = df.reclen.toNat

/-- Opening the file gives a log that holds the records. -/
def Opens (df : DlFile) (file : List UInt8) (records : List (List UInt8)) : Prop :=
  ∃ opened, dlOpen df file = (headerAfter df records.length, opened) ∧ Holds df opened records

lemma Holds.opens (hh : Holds df file records) : Opens df file records := by
  have hd : decode (slice file 0 hlen) = headerAfter df records.length := by
    rw [hh.header, decode_encode]
  refine ⟨file, ?_, hh⟩
  rw [dlOpen, if_pos, hd]
  exact ⟨by rw [hh.header]; rfl, by rw [hd]; rfl⟩

lemma fresh_holds (file : List UInt8) : Holds df (writeAt file 0 (headerAfter df 0).encode) [] where
  header := slice_store
  slots _ below := absurd below (Nat.not_lt_zero _)
  whole _ member := absurd member not_mem_nil

lemma headerAfter_zero (hf : Fits df) : headerAfter df 0 =
    { magic := df.magic, nrec := 0, wrec := 0, mrec := df.maxrec, wpos := 20 } := by
  have none : counted df.maxrec.toNat 0 = 0 := if_pos hf.maxrec
  rw [headerAfter, none, zero_mod, Nat.zero_mul]
  rfl

lemma unopened_opens (hf : Fits df) (hu : Unopened df file) : Opens df file [] := by
  refine ⟨_, ?_, fresh_holds file⟩
  rw [dlOpen, if_neg hu, length_nil, headerAfter_zero hf]

/-- Two records of the last round have different slots. -/
lemma slots_apart (df : DlFile) (hb : r < k) (hr : k < r + df.maxrec.toNat) :
    slotPos df r + df.reclen.toNat ≤ slotPos df k ∨ slotPos df k + df.reclen.toNat ≤ slotPos df r := by
  have ho : r % df.maxrec.toNat ≠ k % df.maxrec.toNat := by
    intro he
    have hm := Nat.sub_mod_eq_zero_of_mod_eq he.symm
    rw [mod_eq_of_lt (by omega)] at hm
    omega
  have hs : ∀ {a b : Nat}, a < b → hlen + a * df.reclen.toNat + df.reclen.toNat ≤
      hlen + b * df.reclen.toNat := by
    intro a b hl
    have := Nat.mul_le_mul_right df.reclen.toNat (Nat.succ_le_of_lt hl)
    rw [succ_mul] at this
    omega
  exact (Nat.lt_or_gt_of_ne ho).imp hs hs

lemma Holds.length_slot (hh : Holds df file records) (hl : r < records.length)
    (hr : records.length ≤ r + df.maxrec.toNat) :
    (slice file (slotPos df r) df.reclen.toNat).length = df.reclen.toNat :=
  hh.whole _ (mem_of_getElem? (hh.slots r hl hr))

lemma write_holds (hh : Holds df file records) (hw : record.length = df.reclen.toNat) :
    Holds df (writeAt (writeAt file (slotPos df records.length) record) 0
      (headerAfter df (records.length + 1)).encode) (records ++ [record]) := by
  have written : slice (writeAt file (slotPos df records.length) record) (slotPos df records.length)
      df.reclen.toNat = record := by
    rw [← hw]
    exact slice_store
  -- the header lies before every slot
  have hb : ∀ r, 0 + (headerAfter df (records.length + 1)).encode.length ≤ slotPos df r := fun r =>
    Nat.le_add_right hlen _
  refine ⟨?_, fun r hl hr => ?_, fun b hm => ?_⟩
  · rw [length_append]
    exact slice_store
  · rw [length_append, length_singleton] at hl hr
    by_cases last : r = records.length
    · subst last
      rw [getElem?_append_right (Nat.le_refl _), Nat.sub_self, writeAt,
        slice_store_frame (by rw [written]; exact hw) (.inr (hb _)), written]
      rfl
    · have hk := hh.length_slot (show r < records.length by omega) (by omega)
      have hd := slots_apart df (show r < records.length by omega) (by omega)
      have hf : slice (writeAt file (slotPos df records.length) record) (slotPos df r) df.reclen.toNat =
          slice file (slotPos df r) df.reclen.toNat :=
        slice_store_frame hk (by rw [hw]; exact hd)
      rw [getElem?_append_left (by omega), hh.slots r (by omega) (by omega), writeAt,
        slice_store_frame (by rw [hf]; exact hk) (.inr (hb r)), hf]
  · obtain old | new := mem_append.mp hm
    · exact hh.whole b old
    · exact mem_singleton.mp new ▸ hw

/-- A write appends its record. -/
lemma write_opens (hf : Fits df) (ho : Opens df file records)
    (hw : record.length = df.reclen.toNat) : Opens df (dlWrite df file record) (records ++ [record]) := by
  obtain ⟨opened, header, hh⟩ := ho
  have pos : (headerAfter df records.length).wpos.toNat = slotPos df records.length :=
    toNat_small (hf.slot_lt _)
  have next := write_holds hh hw
  rw [← header_step hf, ← pos] at next
  rw [dlWrite, header]
  exact next.opens

lemma clear_opens (hf : Fits df) (ho : Opens df file records) : Opens df (dbgLogClear df file) [] := by
  obtain ⟨opened, header, hh⟩ := ho
  rw [dbgLogClear, header]
  simp only
  split
  next none =>
    -- only a log of one slot has records that are not counted
    have zero : counted df.maxrec.toNat records.length = 0 := by
      have hs := counted_le df.maxrec.toNat records.length
      have slots := hf.slots
      rw [← toNat_small (n := counted df.maxrec.toNat records.length) (by omega)]
      exact congrArg toNat none
    have he : headerAfter df records.length = headerAfter df 0 := by
      have start : counted df.maxrec.toNat 0 = 0 := if_pos hf.maxrec
      rw [headerAfter, headerAfter, zero, start, counted_zero hf.maxrec zero, zero_mod]
    refine Holds.opens ⟨?_, fun _ hl => absurd hl (Nat.not_lt_zero _),
      fun _ hm => absurd hm not_mem_nil⟩
    rw [hh.header, he]
    rfl
  next =>
    rw [← headerAfter_zero hf]
    exact (fresh_holds opened).opens

/-! ## Reading -/

lemma index_word {i : Nat} (hs : i < 2 ^ 30) :
    ¬ Int32.ofNat i < 0 ∧ (Int32.ofNat i).toUInt32 = ofNat i := by
  refine ⟨fun hn => ?_, rfl⟩
  have hv : (Int32.ofNat i).toInt = i := Int32.toInt_ofNat_of_lt (by omega)
  have hl : (Int32.ofNat i).toInt < (0 : Int32).toInt := Int32.lt_iff_toInt_lt.mp hn
  rw [hv] at hl
  exact absurd hl (by simp)

/-- The slot that the reader computes for an index. -/
lemma read_slot (hf : Fits df)
    (ho : k < df.maxrec.toNat ∨ (df.maxrec.toNat < k ∧ 2 ≤ df.maxrec.toNat)) {i : Nat}
    (hl : i < min k df.maxrec.toNat) :
    (((if (headerAfter df k).nrec = df.maxrec then (headerAfter df k).wrec else 0) + ofNat i) %
      df.maxrec).toNat = (k - min k df.maxrec.toNat + i) % df.maxrec.toNat := by
  have slots := hf.slots
  have some := hf.maxrec
  have hh := hf.mod_lt k
  have hn : (headerAfter df k).nrec = df.maxrec ↔ counted df.maxrec.toNat k = df.maxrec.toNat := by
    have hs := counted_le df.maxrec.toNat k
    rw [← UInt32.toNat_inj, headerAfter, toNat_small (by omega)]
  rw [UInt32.toNat_mod, UInt32.toNat_add, toNat_small (by omega)]
  obtain he | ⟨late, two⟩ := ho
  · have hc : counted df.maxrec.toNat k = k := if_pos he
    rw [if_neg (by rw [hn, hc]; omega), Nat.min_eq_left (by omega), Nat.sub_self]
    change (0 + i) % 2 ^ 32 % _ = _
    rw [mod_eq_of_lt (by omega : 0 + i < 2 ^ 32)]
  · have hc : counted df.maxrec.toNat k = df.maxrec.toNat := by
      rw [counted, if_neg (by omega), if_neg (by omega), if_neg (by omega)]
    rw [if_pos (hn.mpr hc), Nat.min_eq_right (by omega), headerAfter, toNat_small (by omega),
      mod_eq_of_lt (by omega : k % df.maxrec.toNat + i < 2 ^ 32), Nat.mod_add_mod]
    have sum : k + i = k - df.maxrec.toNat + i + df.maxrec.toNat := by omega
    rw [sum, Nat.add_mod_right]

lemma readable_of_opens (hf : Fits df) (ho : Opens df file records) :
    readable df file = counted df.maxrec.toNat records.length := by
  obtain ⟨opened, hh, -⟩ := ho
  have hs := counted_le df.maxrec.toNat records.length
  have slots := hf.slots
  rw [readable, hh]
  exact toNat_small (by omega)

lemma counted_eq_min {slots : Nat} (some : 1 ≤ slots) :
    counted slots k = min k slots ↔ k < slots ∨ (slots < k ∧ 2 ≤ slots) := by
  unfold counted
  split
  · omega
  · split
    · omega
    · split <;> omega

lemma read_record (hf : Fits df) (ho : Opens df file records)
    (other : records.length < df.maxrec.toNat ∨ (df.maxrec.toNat < records.length ∧ 2 ≤ df.maxrec.toNat))
    {i : Nat} (hl : i < min records.length df.maxrec.toNat) {len : Nat} (hr : 1 ≤ len) :
    (dbgLogRead df file (Int32.ofNat i) len).1 =
      records[records.length - min records.length df.maxrec.toNat + i]?.map (·.take len) := by
  have hc := (readable_of_opens hf ho).trans ((counted_eq_min hf.maxrec).mpr other)
  obtain ⟨opened, header, hh⟩ := ho
  have hs := hf.slots
  have hb : records.length - min records.length df.maxrec.toNat + i < records.length := by omega
  have round : records.length ≤
      records.length - min records.length df.maxrec.toNat + i + df.maxrec.toNat := by omega
  have full := hh.length_slot hb round
  obtain ⟨hn, hw⟩ := index_word (i := i) (by omega)
  have ha : ¬ (Int32.ofNat i < 0 ∨ (Int32.ofNat i).toUInt32 ≥ (headerAfter df records.length).nrec) := by
    rw [readable, header] at hc
    rw [not_or, hw, ge_iff_le, UInt32.le_iff_toNat_le, toNat_small (by omega), hc, Nat.not_le]
    exact ⟨hn, hl⟩
  have pos : hlen + ((((if (headerAfter df records.length).nrec = df.maxrec then
      (headerAfter df records.length).wrec else 0) + (Int32.ofNat i).toUInt32) % df.maxrec) *
        df.reclen).toNat = slotPos df (records.length - min records.length df.maxrec.toNat + i) := by
    rw [hw, UInt32.toNat_mul, read_slot hf other hl, slotPos]
    congr 1
    exact mod_eq_of_lt (Nat.lt_of_le_of_lt (Nat.le_add_left _ _) (hf.slot_lt _))
  rw [hh.slots _ hb round, Option.map_some, dbgLogRead, if_neg (by omega), header]
  have hm : (headerAfter df records.length).mrec = df.maxrec := rfl
  simp only [if_neg ha, hm, pos]
  by_cases long : len > df.reclen.toNat
  · rw [if_pos long, if_neg (not_not.mpr full), take_of_length_le (by omega)]
  · rw [if_neg long, slice_take (Nat.not_lt.mp long), if_neg]
    rw [length_take, full]
    omega

lemma contract_iff (hf : Fits df) (ho : Opens df file records) :
    Contract df file records ↔ records.length < df.maxrec.toNat ∨
      (df.maxrec.toNat < records.length ∧ 2 ≤ df.maxrec.toNat) := by
  rw [← counted_eq_min hf.maxrec, ← readable_of_opens hf ho]
  refine ⟨Contract.count, fun hc => ⟨hc, fun i hl len hr => ?_⟩⟩
  rw [readable_of_opens hf ho, counted_eq_min hf.maxrec] at hc
  exact read_record hf ho hc hl hr

lemma run_opens (hf : Fits df) {ops : List LogOp} (hw : ∀ op ∈ ops, op.Whole df)
    (ho : Opens df file records) :
    Opens df (ops.foldl (LogOp.run df) file) (ops.foldl LogOp.record records) := by
  induction ops generalizing file records with
  | nil => exact ho
  | cons op ops ih =>
    obtain ⟨hh, hl⟩ := forall_mem_cons.mp hw
    refine ih hl ?_
    cases op with
    | write record => exact write_opens hf ho hh
    | clear => exact clear_opens hf ho

/-- After any run the contract holds exactly when the records since the last clear do not
fill the log, or overfill a log of at least two slots. -/
theorem ring_log_iff (df : DlFile) (fits : Fits df) (file : List UInt8) (unopened : Unopened df file)
    (ops : List LogOp) (whole : ∀ op ∈ ops, op.Whole df) :
    Contract df (ops.foldl (LogOp.run df) file) (ops.foldl LogOp.record []) ↔
      (ops.foldl LogOp.record []).length < df.maxrec.toNat ∨
        (df.maxrec.toNat < (ops.foldl LogOp.record []).length ∧ 2 ≤ df.maxrec.toNat) :=
  contract_iff fits (run_opens fits whole (unopened_opens fits unopened))

lemma empty_unopened : Unopened df [] := fun ho => absurd ho.1 (by decide)

/-- Three slots of two bytes. -/
def small : DlFile := { magic := 7, reclen := 2, maxrec := 3 }

lemma small_fits : Fits small := ⟨by decide, by decide, by decide⟩

theorem ring_log_iff_four : Contract small
    ([.write [1, 1], .write [2, 2], .write [3, 3], .write [4, 4]].foldl (LogOp.run small) [])
    [[1, 1], [2, 2], [3, 3], [4, 4]] :=
  (ring_log_iff small small_fits [] empty_unopened [.write [1, 1], .write [2, 2], .write [3, 3], .write [4, 4]]
    (by simp [LogOp.Whole, small])).mpr (.inr ⟨by decide, by decide⟩)

/-- Three records in three slots: only two of them can be read. -/
theorem last_slot_lost : ¬ Contract small
    ([.write [1, 1], .write [2, 2], .write [3, 3]].foldl (LogOp.run small) []) [[1, 1], [2, 2], [3, 3]] := by
  intro hc
  have hw : ∀ op ∈ [LogOp.write [1, 1], .write [2, 2], .write [3, 3]], op.Whole small := by
    simp [LogOp.Whole, small]
  have ho := run_opens small_fits hw (unopened_opens small_fits empty_unopened)
  exact absurd ((contract_iff small_fits ho).mp hc) (by decide)

end Fzsvn.Guarantees.Debug.RingLog
