import Fzsvn.Source.Packet.TcpStream

/-!
# Where a segment goes into its queue

`_tcp_pktq_find_pos` halves the range from 0 to `npkt` until its bounds are equal. A new upper
bound is in front of the entry that was compared, so the bounds may meet at an entry that was
never compared, or pass each other and never meet.
-/
namespace Fzsvn.Guarantees.Packet.InsertionPoint

open Source.Packet List

/-- Segments in ascending order that are not empty, do not overlap and do not wrap around. -/
def Ordered (es : List TcpPkt) : Prop :=
  (∀ e ∈ es, 1 ≤ e.len.toNat ∧ e.seq.toNat + e.len.toNat < 2 ^ 32) ∧
    es.Pairwise fun a b => a.seq.toNat + a.len.toNat ≤ b.seq.toNat

/-- The queue has these entries; nothing is known of the slots behind them. -/
def Stores (q : TcpPktq) (es : List TcpPkt) : Prop :=
  q.npkt.toNat = es.length ∧ ∀ i (hi : i < es.length), slotAt q i = .ok es[i]

variable (es : List TcpPkt) (seq size : UInt32)

def Overlaps (e : TcpPkt) : Prop :=
  seq.toNat < e.seq.toNat + e.len.toNat ∧ e.seq.toNat < seq.toNat + size.toNat

instance (e : TcpPkt) : Decidable (Overlaps seq size e) := inferInstanceAs (Decidable (_ ∧ _))

/-- The search returns -1 if an entry overlaps the segment, and otherwise the index that has
the smaller sequence numbers in front of it. -/
def Locates : Prop :=
  ∃ r, (∀ q, Stores q es → tcpPktqFindPos q seq size = .ok r) ∧
    ((∃ e ∈ es, Overlaps seq size e) → r = -1) ∧
    ((∀ e ∈ es, ¬ Overlaps seq size e) → ∃ n : Nat, r = n ∧ n ≤ es.length ∧
      ∀ i (hi : i < es.length), i < n ↔ es[i].seq < seq)

variable {es seq size} {q : TcpPktq}

/-- What the comparisons with an entry decide. -/
lemma compare_eq {e : TcpPkt} {β : Type} {stop after before : β} (hlen : 1 ≤ e.len.toNat)
    (hend : e.seq.toNat + e.len.toNat < 2 ^ 32) (hsize : 1 ≤ size.toNat) (hwrap : seq.toNat + size.toNat < 2 ^ 32) :
    (if seq > e.seq then if seq < e.seq + e.len.toUInt32 then stop else after
      else if seq < e.seq then if seq + size > e.seq then stop else before else stop) =
    if Overlaps seq size e then stop else if e.seq < seq then after else before := by
  simp only [gt_iff_lt, UInt32.lt_iff_toNat_lt, UInt32.toNat_add, UInt16.toNat_toUInt32, Nat.mod_eq_of_lt hend,
    Nat.mod_eq_of_lt hwrap, Overlaps]
  split_ifs <;> first | rfl | omega

lemma findPos_filled (stored : Stores q es) (filled : es ≠ []) :
    tcpPktqFindPos q seq size = findPosLoop q seq size (es.length + 2) 0 es.length := by
  have hzero : q.npkt ≠ 0 := by
    intro hzero
    have hlen := stored.1
    rw [hzero] at hlen
    exact filled (length_eq_zero_iff.mp hlen.symm)
  rw [tcpPktqFindPos, if_neg hzero, stored.1]

/-- One turn of the search: what the entry in the middle decides. -/
lemma findPosLoop_step (ordered : Ordered es) (stored : Stores q es) (hsize : 1 ≤ size.toNat)
    (hwrap : seq.toNat + size.toNat < 2 ^ 32) {l h : Int} {m : Nat} (hmid : (l + h).tdiv 2 = m)
    (hm : m < es.length) (fuel : Nat) :
    findPosLoop q seq size (fuel + 1) l h =
      if Overlaps seq size es[m] then .ok (-1)
      else if es[m].seq < seq then if m + 1 = h then .ok (m + 1) else findPosLoop q seq size fuel (m + 1) h
      else if l = m - 1 then .ok l else findPosLoop q seq size fuel l (m - 1) := by
  obtain ⟨hlen, hend⟩ := ordered.1 es[m] (getElem_mem hm)
  rw [findPosLoop, hmid]
  simp only [stored.2 m hm]
  exact compare_eq hlen hend hsize hwrap

lemma stores_exact (hlen : es.length < 2 ^ 16) :
    Stores { pkts := some (0, es), npkt := .ofNat es.length } es :=
  ⟨UInt16.toNat_ofNat_of_lt' hlen, fun i hi => by simp [slotAt, hi]⟩

/-! ## Two entries or more -/

section

variable (ordered : Ordered es) (stored : Stores q es)
include ordered stored

/-- The search for the first byte of an entry, while the middle is behind that entry. -/
lemma first_byte_front {k h : Nat} (hk : k < es.length) (hmid : k < h / 2) (hh : h / 2 < es.length)
    (fuel : Nat) :
    findPosLoop q es[k].seq 1 (fuel + 1) 0 h =
      if h / 2 = 1 then .ok 0 else findPosLoop q es[k].seq 1 fuel 0 (h / 2 - 1 : Nat) := by
  have hpair := pairwise_iff_getElem.mp ordered.2 k (h / 2) hk hh hmid
  obtain ⟨hlen, hend⟩ := ordered.1 es[k] (getElem_mem hk)
  have hover : ¬ Overlaps es[k].seq 1 es[h / 2] := by
    simp only [Overlaps, UInt32.toNat_one]
    omega
  have hless : ¬ es[h / 2].seq < es[k].seq := by
    rw [UInt32.lt_iff_toNat_lt]
    omega
  have hlast : (0 : Int) = (h / 2 : Nat) - 1 ↔ h / 2 = 1 := by omega
  rw [findPosLoop_step ordered stored (by decide) (by rw [UInt32.toNat_one]; omega)
    (by rw [Int.zero_add, Int.tdiv_eq_ediv_of_nonneg (by omega)]; rfl) hh, if_neg hover, if_neg hless]
  simp only [hlast, Int.natCast_sub (Nat.zero_lt_of_lt hmid), Int.natCast_one]

/-- Between the first two entries the second one is not compared. -/
lemma second_byte_behind (htwo : 1 < es.length) (fuel : Nat) :
    findPosLoop q es[1].seq 1 (fuel + 1) 0 1 = .ok 1 := by
  have hpair := pairwise_iff_getElem.mp ordered.2 0 1 (by omega) htwo (by decide)
  obtain ⟨hlen, -⟩ := ordered.1 es[0] (getElem_mem _)
  obtain ⟨hlen', hend⟩ := ordered.1 es[1] (getElem_mem _)
  rw [findPosLoop_step ordered stored (by decide) (by rw [UInt32.toNat_one]; omega) (m := 0) rfl
    (by omega), if_neg, if_pos, if_pos (by decide)]
  · rfl
  · rw [UInt32.lt_iff_toNat_lt]
    omega
  · rw [Overlaps, not_and_or]
    omega

/-- The bounds meet at the first or at the second entry, and that entry was not compared. -/
lemma uncompared (h : Nat) (hlow : 2 ≤ h) (hhigh : h ≤ es.length) (fuel : Nat) (hfuel : h ≤ fuel) :
    ∃ k ≤ 1, ∃ hk : k < es.length, findPosLoop q es[k].seq 1 (fuel + 1) 0 h = .ok k := by
  -- The upper bound goes from h to h / 2 - 1, and so to 0 from 2 or 3, and to 1 from 4 or 5.
  induction h using Nat.strong_induction_on generalizing fuel with
  | h h ih =>
    have hh : h / 2 < es.length := by omega
    by_cases hthree : h ≤ 3
    · refine ⟨0, by omega, by omega, ?_⟩
      rw [first_byte_front ordered stored (by omega) (by omega) hh, if_pos (by omega)]
      rfl
    obtain ⟨fuel, rfl⟩ : ∃ fuel', fuel = fuel' + 1 := ⟨fuel - 1, by omega⟩
    by_cases hfive : h ≤ 5
    · have hone : h / 2 - 1 = 1 := by omega
      refine ⟨1, by omega, by omega, ?_⟩
      rw [first_byte_front ordered stored (by omega) (by omega) hh, if_neg (by omega), hone]
      exact second_byte_behind ordered stored (by omega) fuel
    · obtain ⟨k, hone, hk, hfound⟩ := ih (h / 2 - 1) (by omega) (by omega) (by omega) fuel (by omega)
      refine ⟨k, hone, hk, ?_⟩
      rw [first_byte_front ordered stored hk (by omega) hh, if_neg (by omega)]
      exact hfound

end

lemma not_locates_of_two (ordered : Ordered es) (hlen : es.length < 2 ^ 16) (htwo : 2 ≤ es.length) :
    ∃ seq : UInt32, seq.toNat + 1 < 2 ^ 32 ∧ ¬ Locates es seq 1 := by
  have stored := stores_exact hlen
  obtain ⟨k, -, hk, hfound⟩ :=
    uncompared ordered stored es.length htwo (Nat.le_refl _) (es.length + 1) (Nat.le_succ _)
  obtain ⟨hsize, hend⟩ := ordered.1 es[k] (getElem_mem hk)
  refine ⟨es[k].seq, by omega, ?_⟩
  rintro ⟨r, hr, hoverlap, -⟩
  have hsearch := hr _ stored
  rw [findPos_filled stored (ne_nil_of_length_pos (by omega)), hfound] at hsearch
  cases hsearch
  have := hoverlap ⟨es[k], getElem_mem hk, by simp only [Overlaps, UInt32.toNat_one]; omega⟩
  omega

/-! ## One entry -/

/-- In front of the only entry the search does not end. -/
lemma front_of_one {e : TcpPkt} (ordered : Ordered [e]) (stored : Stores q [e]) (hseq : e.seq ≠ 0)
    (fuel : Nat) {h : Int} (hmid : (0 + h).tdiv 2 = (0 : Nat)) :
    findPosLoop q 0 1 fuel 0 h = .error .endless := by
  induction fuel generalizing h with
  | zero => rfl
  | succ fuel ih =>
    have hpos : 1 ≤ e.seq.toNat := by
      rw [← UInt32.toNat_inj.ne, UInt32.toNat_zero] at hseq
      omega
    rw [findPosLoop_step ordered stored (by decide) (by decide) hmid Nat.one_pos, if_neg, if_neg,
      if_neg (by decide)]
    · exact ih rfl
    · simp
    · simp only [Overlaps, getElem_cons_zero, UInt32.toNat_one, UInt32.toNat_zero]
      omega

lemma locates_nil : Locates [] seq size := by
  refine ⟨0, fun q stored => ?_, by simp, fun _ => ⟨0, rfl, Nat.le_refl 0, by simp⟩⟩
  rw [tcpPktqFindPos, if_pos (UInt16.toNat_inj.mp stored.1)]

lemma locates_first {e : TcpPkt} (ordered : Ordered [e]) (hseq : e.seq = 0) (hsize : 1 ≤ size.toNat)
    (hwrap : seq.toNat + size.toNat < 2 ^ 32) : Locates [e] seq size := by
  have search : ∀ q, Stores q [e] →
      tcpPktqFindPos q seq size = if Overlaps seq size e then .ok (-1) else if e.seq < seq then .ok 1
        else findPosLoop q seq size 2 0 (-1) := by
    intro q stored
    rw [findPos_filled stored (cons_ne_nil _ _), length_singleton]
    exact findPosLoop_step ordered stored hsize hwrap (m := 0) rfl Nat.one_pos 2
  by_cases hover : Overlaps seq size e
  · refine ⟨-1, fun q stored => by rw [search q stored, if_pos hover], fun _ => rfl, fun hnone => ?_⟩
    exact absurd hover (hnone e (mem_singleton_self e))
  · have hbehind : e.seq < seq := by
      have hlen := (ordered.1 e (mem_singleton_self e)).1
      rw [Overlaps, hseq, UInt32.toNat_zero] at hover
      rw [hseq, UInt32.lt_iff_toNat_lt, UInt32.toNat_zero]
      omega
    refine ⟨1, fun q stored => by rw [search q stored, if_neg hover, if_pos hbehind], ?_, fun _ => ?_⟩
    · simp [hover]
    · exact ⟨1, rfl, Nat.le_refl 1, by simpa using hbehind⟩

end Fzsvn.Guarantees.Packet.InsertionPoint
