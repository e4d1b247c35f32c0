import Fzsvn.Source.Packet.Netpkt

/-!
# The cursors and the content of a packet buffer

Pushing and adding keep `start ≤ head ≤ tail ≤ end` and the data between `head` and `tail`,
and succeed when there is room, except that a push is refused when it would fill the
headroom exactly. `netpkt_reserve` is right as long as it has nothing to move: on an empty
packet it moves `head` past `tail` (`reserve_empty`), and otherwise it copies what stands
`n` bytes behind the data over the data, which is what it should only for some bytes. The
contract holds along a run exactly when none of this happens in it (`netpkt_contract`).
-/
namespace Fzsvn.Guarantees.Packet.NetpktContract
open Library.Block Library.MachineInt Source.Packet Except Prod

/-! ## The contract -/

inductive PktOp where
  | init (mem : List UInt8)
  | reserve (len : Int32)
  | push (buf : List UInt8)
  | add (buf : List UInt8)

def PktOp.run (pkt : Netpkt) : PktOp → Except PktFault (Int × Netpkt)
  | .init mem => .ok (0, netpktInit mem)
  | .reserve len => netpktReserve pkt len
  | .push buf => netpktPushData pkt (some buf)
  | .add buf => netpktAddData pkt (some buf)

/-- The data in logical order. -/
def PktOp.record (data : List UInt8) (ret : Int) : PktOp → List UInt8
  | .init _ => []
  | .reserve _ => data
  | .push buf => if ret = 0 then buf ++ data else data
  | .add buf => if ret = 0 then data ++ buf else data

/-- There is room for the requested size, which is at least one. -/
def PktOp.Fits (pkt : Netpkt) : PktOp → Prop
  | .init _ => True
  | .reserve len => 1 ≤ len.toInt ∧ len.toInt ≤ (pkt.head : Int) + (pkt.mem.length - pkt.tail)
  | .push buf => 1 ≤ buf.length ∧ buf.length ≤ pkt.head
  | .add buf => 1 ≤ buf.length ∧ pkt.tail + buf.length ≤ pkt.mem.length

structure Contract (pkt : Netpkt) (data : List UInt8) : Prop where
  ordered : pkt.head ≤ pkt.tail
  inside : pkt.tail ≤ pkt.mem.length
  content : slice pkt.mem pkt.head (pkt.tail - pkt.head) = data

/-- An operation succeeds when it fits, and one that does not leaves the packet as it was. -/
def PktOp.Answers (op : PktOp) (pkt : Netpkt) (ret : Int) (pkt' : Netpkt) : Prop :=
  (ret = 0 ↔ op.Fits pkt) ∧ (¬ op.Fits pkt → pkt' = pkt)

/-- The contract holds in every state of the run and every operation answers as it should. -/
def Obeys : List PktOp → Netpkt → List UInt8 → Prop
  | [], pkt, data => Contract pkt data
  | op :: ops, pkt, data => Contract pkt data ∧ ∃ ret pkt', op.run pkt = .ok (ret, pkt') ∧
      op.Answers pkt ret pkt' ∧ Obeys ops pkt' (op.record data ret)

/-! ## When it holds -/

/-- The data has the bytes that a move by `n` leaves in its place: those `n` further on, and
for the bytes that the copy itself replaces those `2 n` further on. -/
def Repeats (pkt : Netpkt) (n : Nat) : Prop :=
  ∀ i < pkt.tail - pkt.head, pkt.mem[pkt.head + i]? =
    if i + n < pkt.tail - pkt.head then pkt.mem[pkt.head + n + (n + i)]?
    else pkt.mem[pkt.head + n + i]?

/-- A reserve has nothing to move, or moves data that repeats itself, and a push does not
fill the headroom exactly. -/
def PktOp.Harmless (pkt : Netpkt) : PktOp → Prop
  | .reserve len => (PktOp.reserve len).Fits pkt → pkt.head < len.toInt →
      pkt.head < pkt.tail ∧ Repeats pkt (len.toInt - pkt.head).toNat
  | .push buf => buf.length = pkt.head → buf = []
  | _ => True

def AllHarmless : List PktOp → Netpkt → Prop
  | [], _ => True
  | op :: ops, pkt =>
    op.Harmless pkt ∧ ∀ ret pkt', op.run pkt = .ok (ret, pkt') → AllHarmless ops pkt'

/-- Memory that an `int` can measure. -/
def PktOp.Measured : PktOp → Prop
  | .init mem => mem.length < 2 ^ 31
  | _ => True

/-! ## Steps -/

variable {pkt pkt' : Netpkt} {data : List UInt8} {op : PktOp} {ops : List PktOp} {ret : Int}

structure Valid (pkt : Netpkt) (data : List UInt8) : Prop extends Contract pkt data where
  small : pkt.mem.length < 2 ^ 31

lemma Obeys.contract (ho : Obeys ops pkt data) : Contract pkt data := by
  cases ops with
  | nil => exact ho
  | cons op ops => exact ho.1

lemma Valid.bounds (hv : Valid pkt data) :
    pkt.head ≤ pkt.tail ∧ pkt.tail ≤ pkt.mem.length ∧ pkt.mem.length < 2 ^ 31 :=
  ⟨hv.ordered, hv.inside, hv.small⟩

lemma Valid.headroom (hv : Valid pkt data) : netpktHeadroom pkt = pkt.head := by
  obtain ⟨ho, hi, hs⟩ := hv.bounds
  exact toInt_small (by omega) (by omega)

lemma Valid.tailroom (hv : Valid pkt data) : netpktTailroom pkt = pkt.mem.length - pkt.tail := by
  obtain ⟨-, hi, hs⟩ := hv.bounds
  exact toInt_small (by omega) (by omega)

/-- The operation can run, answers as it should and leaves a valid packet. -/
def Proper (op : PktOp) (pkt : Netpkt) (data : List UInt8) : Prop :=
  ∃ ret pkt', op.run pkt = .ok (ret, pkt') ∧ op.Answers pkt ret pkt' ∧ Valid pkt' (op.record data ret)

lemma proper_refused (hv : Valid pkt data) (ran : op.run pkt = .ok (-1, pkt))
    (full : ¬ op.Fits pkt) (he : op.record data (-1) = data) : Proper op pkt data :=
  ⟨-1, pkt, ran, ⟨⟨fun zero => absurd zero (by decide), fun hf => absurd hf full⟩, fun _ => rfl⟩,
    he.symm ▸ hv⟩

lemma proper_accepted (pkt' : Netpkt) (ran : op.run pkt = .ok (0, pkt')) (hf : op.Fits pkt)
    (hv : Valid pkt' (op.record data 0)) : Proper op pkt data :=
  ⟨0, pkt', ran, ⟨⟨fun _ => hf, fun _ => rfl⟩, fun full => absurd hf full⟩, hv⟩

section

variable (hv : Valid pkt data)
include hv

lemma push_proper {buf : List UInt8} (hh : (PktOp.push buf).Harmless pkt) :
    Proper (.push buf) pkt data := by
  obtain ⟨ho, hi, hs⟩ := hv.bounds
  have headroom : toSize (netpktHeadroom pkt) = pkt.head := by
    have hr := toSize_small (n := pkt.head) (by omega) (by omega)
    rw [hv.headroom]
    omega
  by_cases hn : buf.length < 1
  · refine proper_refused hv ?_ (fun hf => absurd hf.1 (by omega)) rfl
    simp only [PktOp.run, netpktPushData, if_pos hn]
  · by_cases full : buf.length ≥ pkt.head
    · refine proper_refused hv ?_ (fun hf => ?_) rfl
      · simp only [PktOp.run, netpktPushData, headroom, if_neg hn, if_pos full]
      · have nothing : buf = [] := hh (Nat.le_antisymm hf.2 full)
        simp [nothing] at hn
    · have hr : pkt.head - buf.length + buf.length = pkt.head := by omega
      have hl : (overwrite pkt.mem (pkt.head - buf.length) buf).length = pkt.mem.length :=
        overwrite_length (by omega)
      refine proper_accepted { pkt with
          head := pkt.head - buf.length
          mem := overwrite pkt.mem (pkt.head - buf.length) buf } ?_ ⟨by omega, by omega⟩
        ⟨⟨?_, ?_, ?_⟩, ?_⟩
      · have hw : buf.length ≤ pkt.head ∧ pkt.head ≤ pkt.mem.length := ⟨by omega, by omega⟩
        simp only [PktOp.run, netpktPushData, headroom, if_neg hn, if_neg full, if_pos hw]
      · exact Nat.le_trans (Nat.sub_le _ _) ho
      · exact Nat.le_trans hi (Nat.le_of_eq hl.symm)
      · have split : pkt.tail - (pkt.head - buf.length) = buf.length + (pkt.tail - pkt.head) := by
          omega
        change slice (overwrite pkt.mem (pkt.head - buf.length) buf) (pkt.head - buf.length)
          (pkt.tail - (pkt.head - buf.length)) = buf ++ data
        rw [split, slice_append, slice_overwrite (by omega), hr,
          slice_overwrite_frame (by omega) (.inr (by omega)), hv.content]
      · exact Nat.lt_of_le_of_lt (Nat.le_of_eq hl) hs

lemma add_proper {buf : List UInt8} : Proper (.add buf) pkt data := by
  obtain ⟨ho, hi, hs⟩ := hv.bounds
  have ht : toSize (netpktTailroom pkt) = pkt.mem.length - pkt.tail := by
    have hr := toSize_small (n := pkt.mem.length - pkt.tail) (by omega) (by omega)
    rw [hv.tailroom]
    omega
  by_cases hn : buf.length < 1
  · refine proper_refused hv ?_ (fun hf => absurd hf.1 (by omega)) rfl
    simp only [PktOp.run, netpktAddData, if_pos hn]
  · by_cases full : buf.length > pkt.mem.length - pkt.tail
    · refine proper_refused hv ?_ (fun hf => absurd hf.2 (by omega)) rfl
      simp only [PktOp.run, netpktAddData, ht, if_neg hn, if_pos full]
    · have hf : pkt.tail + buf.length ≤ pkt.mem.length := by omega
      have hl : (overwrite pkt.mem pkt.tail buf).length = pkt.mem.length := overwrite_length hf
      refine proper_accepted { pkt with
          mem := overwrite pkt.mem pkt.tail buf
          tail := pkt.tail + buf.length } ?_ ⟨by omega, hf⟩ ⟨⟨?_, ?_, ?_⟩, ?_⟩
      · simp only [PktOp.run, netpktAddData, ht, if_neg hn, if_neg full, if_pos hf]
      · exact Nat.le_trans ho (Nat.le_add_right _ _)
      · exact Nat.le_trans hf (Nat.le_of_eq hl.symm)
      · have split : pkt.tail + buf.length - pkt.head = pkt.tail - pkt.head + buf.length := by omega
        have next : pkt.head + (pkt.tail - pkt.head) = pkt.tail := by omega
        change slice (overwrite pkt.mem pkt.tail buf) pkt.head (pkt.tail + buf.length - pkt.head) =
          data ++ buf
        rw [split, slice_append, next, slice_overwrite hi,
          slice_overwrite_frame hi (.inl (by omega)), hv.content]
      · exact Nat.lt_of_le_of_lt (Nat.le_of_eq hl) hs

/-! ## Reserve -/

/-- The packet after a reserve moved its data by `n`. -/
def moved (pkt : Netpkt) (n : Nat) : Netpkt :=
  { pkt with
    mem := overwrite pkt.mem pkt.head (slice pkt.mem (pkt.head + n) (pkt.tail - pkt.head))
    head := pkt.head + n
    tail := pkt.tail + n }

/-- What a reserve that has to make room does. -/
lemma reserve_moves {len : Int32} (hf : (PktOp.reserve len).Fits pkt) (short : pkt.head < len.toInt) :
    netpktReserve pkt len = .ok (0, if pkt.tail = pkt.head then { pkt with head := len.toInt.toNat }
      else moved pkt (len.toInt - pkt.head).toNat) := by
  obtain ⟨ho, hi, hs⟩ := hv.bounds
  obtain ⟨ha, hr⟩ := hf
  have rooms : toInt ((pkt.head : Int) + (pkt.mem.length - pkt.tail)) =
      (pkt.head : Int) + (pkt.mem.length - pkt.tail) := toInt_small (by omega) (by omega)
  have hc : toInt ((pkt.tail : Int) - pkt.head) = (pkt.tail : Int) - pkt.head :=
    toInt_small (by omega) (by omega)
  simp only [netpktReserve, hv.headroom, hv.tailroom, rooms, hc]
  rw [if_neg (by omega), if_neg (by omega), if_neg (by omega), if_neg (by omega), if_neg (by omega)]
  by_cases hn : pkt.tail = pkt.head
  · rw [if_pos hn, if_pos hn]
  · have hb : ((pkt.tail : Int) - pkt.head).toNat = pkt.tail - pkt.head := by omega
    rw [if_neg hn, if_neg (by omega), if_neg hn, hb, if_pos (by omega), moved]

lemma moved_content {n : Nat} (hr : pkt.tail + n ≤ pkt.mem.length) :
    slice (moved pkt n).mem (pkt.head + n) (pkt.tail - pkt.head) = data ↔ Repeats pkt n := by
  have ho := hv.ordered
  have hc : (slice pkt.mem (pkt.head + n) (pkt.tail - pkt.head)).length = pkt.tail - pkt.head :=
    slice_length (by omega)
  have hb : ∀ i < pkt.tail - pkt.head, (moved pkt n).mem[pkt.head + n + i]? =
      if i + n < pkt.tail - pkt.head then pkt.mem[pkt.head + n + (n + i)]?
      else pkt.mem[pkt.head + n + i]? := by
    intro i hw
    rw [moved, overwrite_getElem? (by omega), hc]
    by_cases ha : i + n < pkt.tail - pkt.head
    · have hi : pkt.head + n + i - pkt.head = n + i := by omega
      rw [if_pos (by omega), if_pos ha, hi, slice_getElem?, if_pos (by omega)]
    · rw [if_neg (by omega), if_neg ha]
  rw [← hv.content]
  constructor
  · intro he i hw
    have hh := congrArg (fun bytes : List UInt8 => bytes[i]?) he
    simp only [slice_getElem?, if_pos hw] at hh
    rw [← hb i hw, hh]
  · intro repeats
    apply List.ext_getElem?
    intro i
    rw [slice_getElem?, slice_getElem?]
    by_cases hw : i < pkt.tail - pkt.head
    · rw [if_pos hw, if_pos hw, hb i hw, repeats i hw]
    · rw [if_neg hw, if_neg hw]

/-- A reserve that need not make room does nothing. -/
lemma reserve_keeps {len : Int32} (hq : (PktOp.reserve len).Fits pkt → len.toInt ≤ pkt.head) :
    Proper (.reserve len) pkt data := by
  obtain ⟨ho, hi, hs⟩ := hv.bounds
  by_cases hn : len.toInt < 1
  · refine proper_refused hv ?_ (fun hf => absurd hf.1 (by omega)) rfl
    simp only [PktOp.run, netpktReserve, if_pos hn]
  · by_cases he : len.toInt ≤ pkt.head
    · refine proper_accepted pkt ?_ ⟨by omega, by omega⟩ hv
      simp only [PktOp.run, netpktReserve, hv.headroom]
      rw [if_neg hn, if_neg (by omega), if_pos (by omega)]
    · have full : ¬ (PktOp.reserve len).Fits pkt := fun hf => he (hq hf)
      have ht : (pkt.head : Int) + (pkt.mem.length - pkt.tail) < len.toInt := by
        by_contra room
        exact full ⟨by omega, by omega⟩
      refine proper_refused hv ?_ full rfl
      have hh := len.toInt_lt
      have hr : toInt ((pkt.head : Int) + (pkt.mem.length - pkt.tail)) =
          (pkt.head : Int) + (pkt.mem.length - pkt.tail) := toInt_small (by omega) (by omega)
      simp only [PktOp.run, netpktReserve, hv.headroom, hv.tailroom, hr]
      rw [if_neg hn, if_neg (by omega), if_neg (by omega), if_neg (by omega), if_pos (by omega)]

lemma reserve_proper {len : Int32} (hh : (PktOp.reserve len).Harmless pkt) :
    Proper (.reserve len) pkt data := by
  by_cases hq : (PktOp.reserve len).Fits pkt → len.toInt ≤ pkt.head
  · exact reserve_keeps hv hq
  · obtain ⟨hf, short⟩ := Classical.not_imp.mp hq
    obtain ⟨ho, hi, hs⟩ := hv.bounds
    have hr := hf.2
    obtain ⟨some, repeats⟩ := hh hf (by omega)
    have ran := reserve_moves hv hf (by omega)
    rw [if_neg (by omega)] at ran
    have hc : (slice pkt.mem (pkt.head + (len.toInt - pkt.head).toNat)
        (pkt.tail - pkt.head)).length = pkt.tail - pkt.head := slice_length (by omega)
    have hl : (moved pkt (len.toInt - pkt.head).toNat).mem.length = pkt.mem.length :=
      overwrite_length (by omega)
    refine proper_accepted _ ran hf ⟨⟨?_, ?_, ?_⟩, ?_⟩
    · exact Nat.add_le_add_right ho _
    · refine Nat.le_trans ?_ (Nat.le_of_eq hl.symm)
      change pkt.tail + (len.toInt - pkt.head).toNat ≤ pkt.mem.length
      omega
    · have he : pkt.tail + (len.toInt - pkt.head).toNat - (pkt.head + (len.toInt - pkt.head).toNat) =
          pkt.tail - pkt.head := by omega
      change slice (moved pkt (len.toInt - pkt.head).toNat).mem (pkt.head + (len.toInt - pkt.head).toNat)
        (pkt.tail + (len.toInt - pkt.head).toNat - (pkt.head + (len.toInt - pkt.head).toNat)) = data
      rw [he]
      exact (moved_content hv (by omega)).mpr repeats
    · exact Nat.lt_of_le_of_lt (Nat.le_of_eq hl) hs

end

/-! ## Runs -/

lemma init_valid {mem : List UInt8} (hs : mem.length < 2 ^ 31) : Valid (netpktInit mem) [] :=
  ⟨⟨Nat.le_refl 0, Nat.zero_le _, rfl⟩, hs⟩

lemma op_proper (hv : Valid pkt data) (hm : op.Measured) (hh : op.Harmless pkt) :
    Proper op pkt data := by
  cases op with
  | init mem =>
    exact proper_accepted (netpktInit mem) rfl trivial (init_valid hm)
  | reserve len => exact reserve_proper hv hh
  | push buf => exact push_proper hv hh
  | add buf => exact add_proper hv

/-- A push that would fill the headroom exactly is refused, and a move of other data leaves
a packet that breaks the contract. -/
lemma op_breaks (hv : Valid pkt data) (ran : op.run pkt = .ok (ret, pkt'))
    (ha : op.Answers pkt ret pkt') (hc : Contract pkt' (op.record data ret)) :
    op.Harmless pkt := by
  obtain ⟨ho, hi, hs⟩ := hv.bounds
  cases op with
  | init mem => exact trivial
  | add buf => exact trivial
  | push buf =>
    intro fills
    by_contra nonempty
    have hp : 1 ≤ buf.length := List.length_pos_iff.mpr nonempty
    have hr := toSize_small (n := pkt.head) (by omega) (by omega)
    have refused : netpktPushData pkt (some buf) = .ok (-1, pkt) := by
      simp only [netpktPushData, hv.headroom]
      rw [if_neg (by omega), if_pos (by omega)]
    have negative : ret = -1 := (mk.inj (ok.inj (ran.symm.trans refused))).1
    have zero : ret = 0 := ha.1.mpr ⟨hp, Nat.le_of_eq fills⟩
    omega
  | reserve len =>
    intro hf short
    have hr := hf.2
    have hm := reserve_moves hv hf short
    obtain ⟨-, rfl⟩ := mk.inj (ok.inj (ran.symm.trans hm))
    by_cases hn : pkt.tail = pkt.head
    · rw [if_pos hn] at hc
      have past : len.toInt.toNat ≤ pkt.tail := hc.ordered
      omega
    · rw [if_neg hn] at hc
      refine ⟨by omega, (moved_content hv (by omega)).mp ?_⟩
      have content := hc.content
      have he : (moved pkt (len.toInt - pkt.head).toNat).tail -
          (moved pkt (len.toInt - pkt.head).toNat).head = pkt.tail - pkt.head := by
        simp only [moved]
        omega
      rw [he] at content
      exact content

lemma obeys_iff (hv : Valid pkt data) (hm : ∀ op ∈ ops, op.Measured) :
    Obeys ops pkt data ↔ AllHarmless ops pkt := by
  induction ops generalizing pkt data with
  | nil => exact ⟨fun _ => trivial, fun _ => hv.toContract⟩
  | cons op ops ih =>
    obtain ⟨hhe, hl⟩ := List.forall_mem_cons.mp hm
    constructor
    · rintro ⟨-, ret, pkt', ran, ha, rest⟩
      have hh := op_breaks hv ran ha rest.contract
      refine ⟨hh, fun ret' pkt'' hr' => ?_⟩
      obtain ⟨rfl, rfl⟩ := mk.inj (ok.inj (ran.symm.trans hr'))
      obtain ⟨ret', pkt'', hr', -, hv'⟩ := op_proper hv hhe hh
      obtain ⟨rfl, rfl⟩ := mk.inj (ok.inj (ran.symm.trans hr'))
      exact (ih hv' hl).mp rest
    · rintro ⟨hh, rest⟩
      obtain ⟨ret, pkt', ran, ha, hv'⟩ := op_proper hv hhe hh
      exact ⟨hv.toContract, ret, pkt', ran, ha, (ih hv' hl).mpr (rest ret pkt' ran)⟩

/-- Over memory that an `int` can measure, the contract holds along a run exactly when its
reserves move nothing, or data that repeats itself, and no push fills the headroom. -/
theorem netpkt_contract (mem : List UInt8) (ops : List PktOp)
    (measured : ∀ op ∈ PktOp.init mem :: ops, op.Measured) :
    Obeys ops (netpktInit mem) [] ↔ AllHarmless ops (netpktInit mem) :=
  have ⟨hs, hl⟩ := List.forall_mem_cons.mp measured
  obeys_iff (init_valid hs) hl

theorem netpkt_contract_add : Obeys [.add [1, 2], .add [3]] (netpktInit [0, 0, 0, 0]) [] :=
  (netpkt_contract [0, 0, 0, 0] [.add [1, 2], .add [3]] (by simp [PktOp.Measured])).mpr
    ⟨trivial, fun _ _ _ => ⟨trivial, fun _ _ _ => trivial⟩⟩

/-- Room reserved in an empty packet: `head` passes `tail`. -/
theorem reserve_empty : ¬ Obeys [.reserve 2] (netpktInit [0, 0, 0, 0]) [] := by
  rw [obeys_iff (init_valid (by decide)) (by simp [PktOp.Measured])]
  rintro ⟨hh, -⟩
  have hm := (hh ⟨by decide, by decide⟩ (by decide)).1
  exact absurd hm (by decide)

end Fzsvn.Guarantees.Packet.NetpktContract
