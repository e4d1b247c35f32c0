import Fzsvn.Source.Netutil.IpAddr

/-!
# The order of addresses

An IPv4 address stands for its mapped IPv6 address, so every `ip_port` value has a rank: the
number of the mapped address and then the port. `ip_port_compare` compares the ranks, except
that it puts an IPv4 address before every IPv6 address when the IPv4 one is its first argument.
-/
namespace Fzsvn.Guarantees.Netutil.AddressOrder
open Library.BigEndian Source.Netutil

/-- The IPv6 address that the value denotes. -/
def mapped : IpAddr → Vector UInt8 16
  | .v4 addr => Vector.replicate 10 (0 : UInt8) ++ (#v[0xFF, 0xFF] : Vector UInt8 2) ++ addr
  | .v6 addr => addr

/-- The same mapped address and the same port. -/
def Denote (a b : IpPort) : Prop := mapped a.addr = mapped b.addr ∧ a.port = b.port

def rank (a : IpPort) : Nat := number (mapped a.addr).toList * 2 ^ 16 + (ntohs a.port).toNat

/-- The laws of a total preorder whose classes are the values that denote the same. -/
structure Ordered (values : Set IpPort) : Prop where
  refl : ∀ a ∈ values, ipPortCompare a a = 0
  antisymm : ∀ a ∈ values, ∀ b ∈ values, (ipPortCompare a b).sign = -(ipPortCompare b a).sign
  trans : ∀ a ∈ values, ∀ b ∈ values, ∀ c ∈ values,
    ipPortCompare a b ≤ 0 → ipPortCompare b c ≤ 0 → ipPortCompare a c ≤ 0
  zero_iff : ∀ a ∈ values, ∀ b ∈ values, ipPortCompare a b = 0 ↔ Denote a b

/-- An IPv4 value with an IPv6 value that is not above it. -/
def Misplaced (a b : IpPort) : Prop :=
  (∃ addr, a.addr = .v4 addr) ∧ (∃ addr, b.addr = .v6 addr) ∧ rank b ≤ rank a

/-! ## The rank -/

lemma rank_eq_iff (a b : IpPort) : rank a = rank b ↔ Denote a b := by
  have hp := (ntohs a.port).toNat_lt
  have portB := (ntohs b.port).toNat_lt
  constructor
  · intro he
    rw [rank, rank] at he
    have ha : number (mapped a.addr).toList = number (mapped b.addr).toList := by omega
    have ports : (ntohs a.port).toNat = (ntohs b.port).toNat := by omega
    have hb := number_inj (by rw [Vector.length_toList, Vector.length_toList]) ha
    refine ⟨Vector.toList_inj.mp hb, ?_⟩
    rw [← ntohs_ntohs a.port, UInt16.toNat_inj.mp ports, ntohs_ntohs]
  · rintro ⟨ha, ports⟩
    rw [rank, rank, ha, ports]

/-! ## One comparison -/

/-- The comparison of two mapped addresses. -/
def addrSign (ip1 ip2 : IpAddr) : Int :=
  ((number (mapped ip1).toList : Int) - number (mapped ip2).toList).sign

lemma number_mapped_v4 (addr : Vector UInt8 4) :
    number (mapped (.v4 addr)).toList = 0xFFFF * 2 ^ 32 + ntohl addr := by
  rw [mapped, Vector.toList_append, number_append, Vector.length_toList]
  rfl

lemma sign_ipAddrCompare_v4_v4 (addr addr' : Vector UInt8 4) :
    (ipAddrCompare (.v4 addr) (.v4 addr')).sign = addrSign (.v4 addr) (.v4 addr') := by
  rw [addrSign, number_mapped_v4, number_mapped_v4]
  simp only [ipAddrCompare]
  split
  · next he => rw [he, Int.sub_self]
  · next differ =>
    split
    · rw [Int.sign_eq_neg_one_of_neg (a := _ - _) (by omega)]
      rfl
    · rw [Int.sign_eq_one_of_pos (a := _ - _) (by omega)]
      rfl

variable {a b : IpPort}

/-- The conversion of the second address fails, and so does the comparison. -/
lemma ipPortCompare_v4_v6 {addr addr'} (isV4 : a.addr = .v4 addr) (isV6 : b.addr = .v6 addr') :
    ipPortCompare a b = -1 := by
  rw [ipPortCompare, isV4, isV6]
  rfl

/-- Where the addresses compare as they should, the ports decide what they leave open. -/
lemma sign_ipPortCompare (hr : (ipAddrCompare a.addr b.addr).sign = addrSign a.addr b.addr) :
    (ipPortCompare a b).sign = ((rank a : Int) - rank b).sign := by
  have hp := (ntohs a.port).toNat_lt
  have portB := (ntohs b.port).toNat_lt
  rw [addrSign] at hr
  rw [rank, rank]
  simp only [ipPortCompare]
  split
  · next decided =>
    rw [hr]
    have hd : (number (mapped a.addr).toList : Int) - number (mapped b.addr).toList ≠ 0 := by
      rw [Ne, ← Int.sign_eq_zero_iff_zero, ← hr, Int.sign_eq_zero_iff_zero]
      exact decided
    rcases Int.lt_or_gt_of_ne hd with hl | hh
    · rw [Int.sign_eq_neg_one_of_neg hl, Int.sign_eq_neg_one_of_neg (by push_cast; omega)]
    · rw [Int.sign_eq_one_of_pos hh, Int.sign_eq_one_of_pos (by push_cast; omega)]
  · next tie =>
    rw [not_not.mp tie, Int.sign_zero, eq_comm, Int.sign_eq_zero_iff_zero] at hr
    congr 1
    push_cast
    omega

lemma sign_of_not_misplaced (hp : ¬Misplaced a b) :
    (ipPortCompare a b).sign = ((rank a : Int) - rank b).sign := by
  obtain ⟨addr1, port1⟩ := a
  obtain ⟨addr2, port2⟩ := b
  match addr1, addr2 with
  | .v4 addr, .v4 addr' => exact sign_ipPortCompare (sign_ipAddrCompare_v4_v4 addr addr')
  | .v6 addr, ip2 =>
    apply sign_ipPortCompare
    cases ip2 <;> exact sign_memcmp (by rw [Vector.length_toList, Vector.length_toList])
  | .v4 addr, .v6 addr' =>
    have hl : rank ⟨.v4 addr, port1⟩ < rank ⟨.v6 addr', port2⟩ :=
      Nat.lt_of_not_le fun ha => hp ⟨⟨addr, rfl⟩, ⟨addr', rfl⟩, ha⟩
    rw [ipPortCompare_v4_v6 rfl rfl, Int.sign_eq_neg_one_of_neg (a := _ - _) (by omega)]
    rfl

/-! ## The laws -/

lemma ordered_of_signs {values : Set IpPort}
    (hs : ∀ a ∈ values, ∀ b ∈ values, (ipPortCompare a b).sign = ((rank a : Int) - rank b).sign) :
    Ordered values := by
  have zero : ∀ a ∈ values, ∀ b ∈ values, ipPortCompare a b = 0 ↔ rank a = rank b := by
    intro a inA b inB
    rw [← Int.sign_eq_zero_iff_zero, hs a inA b inB, Int.sign_eq_zero_iff_zero]
    omega
  have hl : ∀ a ∈ values, ∀ b ∈ values, ipPortCompare a b ≤ 0 ↔ rank a ≤ rank b := by
    intro a inA b inB
    rw [← Int.sign_nonpos_iff, hs a inA b inB, Int.sign_nonpos_iff]
    omega
  refine ⟨fun a inA => (zero a inA a inA).mpr rfl, ?_, ?_, ?_⟩
  · intro a inA b inB
    rw [hs a inA b inB, hs b inB a inA, ← Int.sign_neg, Int.neg_sub]
  · intro a inA b inB c inC
    rw [hl a inA b inB, hl b inB c inC, hl a inA c inC]
    exact Nat.le_trans
  · intro a inA b inB
    rw [zero a inA b inB, rank_eq_iff]

lemma misplaced_asymm (hw : Misplaced a b) : ¬Misplaced b a := by
  rintro ⟨⟨addr, isV4⟩, -⟩
  obtain ⟨-, ⟨addr', isV6⟩, -⟩ := hw
  rw [isV4] at isV6
  cases isV6

/-- The two orders of a misplaced pair do not give opposite signs. -/
lemma antisymm_breaks (hw : Misplaced a b) : (ipPortCompare a b).sign ≠ -(ipPortCompare b a).sign := by
  rw [sign_of_not_misplaced (misplaced_asymm hw)]
  obtain ⟨⟨addr, isV4⟩, ⟨addr', isV6⟩, ha⟩ := hw
  rw [ipPortCompare_v4_v6 isV4 isV6, ← Int.sign_neg, Int.neg_sub]
  intro he
  have := Int.sign_eq_neg_one_iff_neg.mp he.symm
  omega

/-- `ip_port_compare` orders any values, a pair, a triple or more, exactly if no IPv4 value
among them is at or above an IPv6 value. -/
theorem address_order_iff (values : Set IpPort) :
    Ordered values ↔ ∀ a ∈ values, ∀ b ∈ values, ¬Misplaced a b := by
  constructor
  · intro ho a inA b inB hw
    exact antisymm_breaks hw (ho.antisymm a inA b inB)
  · intro hp
    exact ordered_of_signs fun a inA b inB => sign_of_not_misplaced (hp a inA b inB)

/-- An IPv4 address is put below its own mapped address, which compares equal to it. -/
theorem mapped_twin : ¬Ordered {⟨.v4 #v[10, 0, 0, 1], 0⟩, ⟨.v6 (mapped (.v4 #v[10, 0, 0, 1])), 0⟩} := by
  intro ho
  refine antisymm_breaks ?_ (ho.antisymm _ (.inl rfl) _ (.inr rfl))
  exact ⟨⟨_, rfl⟩, ⟨_, rfl⟩, Nat.le_refl _⟩

end Fzsvn.Guarantees.Netutil.AddressOrder
