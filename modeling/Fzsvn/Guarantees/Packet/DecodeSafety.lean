import Fzsvn.Source.Packet.Decode

/-!
# Reads and lengths of the header decoders

Only `eth_decode` and `ipv4_decode` compare a header's fixed part with the frame; the VLAN
tag, the length an IPv4 header announces, everything in IPv6 and the TCP header are taken
from the frame unchecked. The decoders stay inside the frame, and the header lengths they
find fit it, exactly when the headers that the frame announces lie inside it
(`decode_safe_iff`); a VLAN tag cut off behind the Ethernet header is read anyway
(`cut_vlan_tag`).
-/
namespace Fzsvn.Guarantees.Packet.DecodeSafety
open Library.Fallible Library.MachineInt Source.Packet Prod

/-! ## Safety of the decoder chain -/

inductive Layer3 where
  | ipv4
  | ipv6

def Layer3.decode : Layer3 → Netpkt → Except PktFault (Answer × Netpkt)
  | .ipv4 => ipv4Decode
  | .ipv6 => ipv6Decode

/-- The headers decoded so far fit the frame. -/
def Bounded (pkt : Netpkt) : Prop :=
  pkt.hdr2Len.toNat + pkt.hdr3Len.toNat + pkt.hdr4Len.toNat ≤ pkt.tail - pkt.head

/-- The decoder does not leave the frame, and if it succeeds the lengths fit and `later`
holds of the packet. -/
def Decodes (run : Except PktFault (Answer × Netpkt)) (later : Netpkt → Prop) : Prop :=
  Yields run fun (answer, pkt) => answer = .ok () → Bounded pkt ∧ later pkt

/-- `frame` between `head` and `tail`, in memory that has `room` before and `spare` behind. -/
def framePacket (room frame spare : List UInt8) : Netpkt :=
  { mem := room ++ frame ++ spare, head := room.length, tail := room.length + frame.length }

def Safe (pkt : Netpkt) : Prop :=
  ∀ layer3 : Layer3, Decodes (ethDecode pkt) fun pkt =>
    Decodes (layer3.decode pkt) fun pkt => Decodes (tcpDecode pkt) fun _ => True

/-! ## The headers that a frame announces -/

variable (frame : List UInt8)

def octet (i : Nat) : UInt8 := frame.getD i 0

def word (i : Nat) : UInt16 := (octet frame i).toUInt16 <<< 8 ||| (octet frame (i + 1)).toUInt16

def Tagged : Prop := word frame 12 = 0x8100

instance : Decidable (Tagged frame) := inferInstanceAs (Decidable (_ = _))

def layer3Pos : Nat := if Tagged frame then 18 else 14

def layer3Type : UInt16 := if Tagged frame then word frame 16 else word frame 12

/-- A TCP header at `pos`, as long as its data offset says. -/
def TcpInside (pos : Nat) : Prop :=
  pos + 13 ≤ frame.length ∧ pos + 4 * (octet frame (pos + 12) >>> 4).toNat ≤ frame.length

def ihl : Nat := 4 * (octet frame (layer3Pos frame) &&& 0xf).toNat

/-- A frame or a header that is too short is refused; otherwise the whole header is there. -/
def Ipv4Inside : Prop :=
  20 ≤ toSize (toInt frame.length - layer3Pos frame) → 20 ≤ ihl frame →
    layer3Pos frame + ihl frame ≤ frame.length ∧
      (octet frame (layer3Pos frame + 9) = 6 → TcpInside frame (layer3Pos frame + ihl frame))

/-- Extension headers from `start` on: `next` is the type of the one at `start + m`, `last`
the type behind them and `total` their length. A header whose successor is a fragment header
counts eight bytes, and then the fields of a fragment header at `start` are read. -/
inductive Extensions (start : Nat) : (next : UInt8) → (m : Nat) → (last : UInt8) → (total : Nat) → Prop
  | none {next : UInt8} {m : Nat} (plain : ip6hdrIsExt next = false) : Extensions start next m next m
  | fragment {next last : UInt8} {m total : Nat} (ext : ip6hdrIsExt next = true)
      (inside : start + m < frame.length) (type : octet frame (start + m) = ipprotoFragment)
      (fields : start + 8 ≤ frame.length) (fits : m + 8 < 2 ^ 31)
      (rest : Extensions start ipprotoFragment (m + 8) last total) : Extensions start next m last total
  | other {next last : UInt8} {m total : Nat} (ext : ip6hdrIsExt next = true)
      (inside : start + m + 1 < frame.length) (type : octet frame (start + m) ≠ ipprotoFragment)
      (fits : m + (8 + (octet frame (start + m + 1)).toNat * 8) < 2 ^ 31)
      (rest : Extensions start (octet frame (start + m))
        (m + (8 + (octet frame (start + m + 1)).toNat * 8)) last total) :
      Extensions start next m last total

/-- The fixed header up to its type field and the extension headers are there; the length
of them all is kept in 16 bits. -/
def Ipv6Inside : Prop :=
  layer3Pos frame + 4 ≤ frame.length ∧ (octet frame (layer3Pos frame) >>> 4 = 6 →
    layer3Pos frame + 6 < frame.length ∧ ∃ last total,
      Extensions frame (layer3Pos frame + 40) (octet frame (layer3Pos frame + 6)) 0 last total ∧
      40 + total < 2 ^ 31 ∧ layer3Pos frame + (40 + total) % 2 ^ 16 ≤ frame.length ∧
      (last = 6 → TcpInside frame (layer3Pos frame + (40 + total) % 2 ^ 16)))

def Announced : Prop :=
  14 ≤ toInt frame.length → layer3Pos frame ≤ frame.length ∧
    (layer3Type frame = 0x0800 → Ipv4Inside frame) ∧ (layer3Type frame = 0x86dd → Ipv6Inside frame)

/-! ## Reading a frame -/

/-- The packet has the frame between `head` and `tail`. -/
structure Carries (pkt : Netpkt) : Prop where
  bytes : ∀ i, pkt.mem[pkt.head + i]? = frame[i]? ∨ frame.length ≤ i
  size : pkt.tail = pkt.head + frame.length
  present : ¬ pkt.null = true

variable {frame} {pkt : Netpkt} {off : Nat}

lemma framePacket_carries (hr spare : List UInt8) : Carries frame (framePacket hr frame spare) where
  bytes i := by
    by_cases hw : i < frame.length
    · left
      simp [framePacket, List.getElem?_append, hw]
    · exact .inr (by omega)
  size := rfl
  present := Bool.false_ne_true

section

variable (hc : Carries frame pkt)
include hc

lemma Carries.length : pkt.tail - pkt.head = frame.length := by
  rw [hc.size, Nat.add_sub_cancel_left]

lemma yields_byteAt {post : UInt8 → Prop} :
    Yields (byteAt pkt off) post ↔ off < frame.length ∧ post (octet frame off) := by
  have hs := hc.length
  by_cases hi : off < frame.length
  · have byte : pkt.mem[pkt.head + off]? = some (octet frame off) := by
      rw [(hc.bytes off).resolve_right (by omega), octet, List.getD_eq_getElem?_getD,
        List.getElem?_eq_getElem hi]
      rfl
    simp [byteAt, hs, hi, byte]
  · simp [byteAt, hs, hi]

lemma yields_be16At {post : UInt16 → Prop} :
    Yields (be16At pkt off) post ↔ off + 2 ≤ frame.length ∧ post (word frame off) := by
  simp only [be16At, yields_bind, yields_byteAt hc, yields_pure, ← and_assoc]
  exact and_congr_left fun _ => by omega

lemma yields_be32At {post : UInt32 → Prop} : Yields (be32At pkt off) post ↔ off + 4 ≤ frame.length ∧
      post ((word frame off).toUInt32 <<< 16 ||| (word frame (off + 2)).toUInt32) := by
  simp only [be32At, yields_bind, yields_be16At hc, yields_pure, ← and_assoc]
  exact and_congr_left fun _ => by omega

/-- The load of `ip6_flow` gives the version in its first byte. -/
lemma yields_flow {rest : Prop} : Yields (le32At pkt off) (fun flow => (flow &&& 0xff) >>> 4 = 6 → rest) ↔
      off + 4 ≤ frame.length ∧ (octet frame off >>> 4 = 6 → rest) := by
  have hv : ∀ b0 b1 b2 b3 : UInt8,
      ((UInt32.ofNat (b0.toNat + b1.toNat * 2 ^ 8 + b2.toNat * 2 ^ 16 + b3.toNat * 2 ^ 24) &&& 0xff)
        >>> 4 = 6) = (b0 >>> 4 = 6) := by
    intro b0 b1 b2 b3
    have low := b0.toNat_lt
    have hm : ∀ x : Nat, x &&& 255 = x % 256 := fun x => Nat.and_two_pow_sub_one_eq_mod x 8
    have hf : (b0.toNat + b1.toNat * 2 ^ 8 + b2.toNat * 2 ^ 16 + b3.toNat * 2 ^ 24) % 2 ^ 32 % 256 =
        b0.toNat := by omega
    rw [← UInt32.toNat_inj, ← UInt8.toNat_inj]
    simp only [UInt32.toNat_shiftRight, UInt32.toNat_and, UInt32.toNat_ofNat', UInt32.reduceToNat, hm,
      hf, UInt8.toNat_shiftRight, UInt8.reduceToNat, Nat.reduceMod]
  simp only [le32At, yields_bind, yields_byteAt hc, yields_pure, hv, ← and_assoc]
  exact and_congr_left fun _ => by omega

/-! ## The decoders -/

lemma tcp_decodes : (Decodes (tcpDecode pkt) fun _ => True) ↔
    (pkt.hdr4Type = 6 → TcpInside frame (pkt.hdr2Len.toNat + pkt.hdr3Len.toNat)) := by
  have size := hc.length
  have doff : ∀ byte : UInt8, ((byte >>> 4).toUInt32 * 4).toNat = 4 * (byte >>> 4).toNat := by
    intro byte
    have hs := (byte >>> 4).toNat_lt
    rw [UInt32.toNat_mul, UInt8.toNat_toUInt32, Nat.mul_comm]
    exact Nat.mod_eq_of_lt (by change 4 * _ < _; omega)
  simp only [tcpDecode, Decodes, yields_ite, yields_ok, yields_bind, yields_byteAt hc, yields_pure,
    hc.present, Bounded, size, doff, reduceCtorEq, false_implies, implies_true, true_and,
    not_not, forall_const, and_true, not_false_eq_true]
  rfl

/-- The packet behind `eth_decode`. -/
def ethPacket (frame : List UInt8) (pkt : Netpkt) : Netpkt :=
  if Tagged frame then
    { pkt with
      eth := some 0
      vlanCfi := (word frame 14 >>> 12) &&& 0x1
      vlanPcp := (word frame 14 >>> 13) &&& 0x7
      vlanVid := word frame 14 &&& 0xfff
      hdr3Type := (word frame 16).toUInt32
      hdr2Len := 18 }
  else { pkt with eth := some 0, hdr2Len := 14, hdr3Type := (word frame 12).toUInt32 }

lemma eth_decodes (fresh3 : pkt.hdr3Len.toNat = 0) (fresh4 : pkt.hdr4Len.toNat = 0)
    {later : Netpkt → Prop} : Decodes (ethDecode pkt) later ↔
      (14 ≤ toInt frame.length → layer3Pos frame ≤ frame.length ∧ later (ethPacket frame pkt)) := by
  have size := hc.length
  have hl : (pkt.tail : Int) - pkt.head = frame.length := by rw [hc.size]; omega
  have vlan : (word frame 12).toUInt32 = ethertypeVlan ↔ Tagged frame :=
    UInt16.toUInt32_inj (b := 0x8100)
  have he : ∀ type : UInt32, Carries frame { pkt with eth := some 0, hdr2Len := 14, hdr3Type := type } :=
    fun _ => { hc with }
  have long : 14 ≤ toInt frame.length → 14 ≤ frame.length := by
    intro ha
    by_contra hs
    have hv : toInt frame.length = frame.length := toInt_small (by omega) (by omega)
    omega
  rw [ethDecode, if_neg hc.present]
  simp only [Decodes, yields_ite, yields_ok, yields_bind, yields_be16At hc,
    yields_be16At (he _), yields_pure, hl, Bounded, size, vlan, fresh3, fresh4, reduceCtorEq,
    false_implies, implies_true, true_and, forall_const, Int.not_lt]
  refine forall_congr' fun ha => ?_
  have header := long ha
  by_cases ht : Tagged frame
  · simp only [ht, layer3Pos, ethPacket, if_true, forall_const, not_true, false_implies, and_true]
    constructor
    · rintro ⟨-, -, -, hf, hh⟩
      exact ⟨hf, hh⟩
    · rintro ⟨hf, hh⟩
      exact ⟨header, Nat.le_trans (by decide) hf, hf, hf, hh⟩
  · simp only [ht, layer3Pos, ethPacket, if_false, forall_const, not_false_eq_true, false_implies,
      true_and]
    constructor
    · rintro ⟨-, hf, hh⟩
      exact ⟨hf, hh⟩
    · rintro ⟨hf, hh⟩
      exact ⟨header, hf, hh⟩

end

lemma ihl_len {byte : UInt8} : ((byte &&& 0xf).toUInt16 * 4).toNat = 4 * (byte &&& 0xf).toNat := by
  have hs := (byte &&& 0xf).toNat_lt
  rw [UInt16.toNat_mul, UInt8.toNat_toUInt16, Nat.mul_comm]
  exact Nat.mod_eq_of_lt (by change 4 * _ < _; omega)

/-- A frame that passes the length test has the fixed part of the header. -/
lemma fixed_inside {pos : Nat} (hi : pos ≤ frame.length)
    (hp : 20 ≤ toSize (toInt frame.length - pos)) (hn : pos ≤ 18) : pos + 20 ≤ frame.length := by
  by_contra short
  have hv : toInt frame.length = frame.length := toInt_small (by omega) (by omega)
  have hr : toSize ((frame.length : Int) - pos) = frame.length - pos := by
    have hs := toSize_small (n := (frame.length : Int) - pos) (by omega) (by omega)
    omega
  rw [hv, hr] at hp
  omega

lemma ipv4_decodes (hc : Carries frame pkt) (pos : pkt.hdr2Len.toNat = layer3Pos frame)
    (hi : layer3Pos frame ≤ frame.length) (fresh4 : pkt.hdr4Len.toNat = 0) :
    (Decodes (ipv4Decode pkt) fun pkt => Decodes (tcpDecode pkt) fun _ => True) ↔
      (pkt.hdr3Type = ethertypeIp → Ipv4Inside frame) := by
  have size := hc.length
  have hl : (pkt.tail : Int) - pkt.head = frame.length := by rw [hc.size]; omega
  have hn : layer3Pos frame ≤ 18 := by unfold layer3Pos; split <;> omega
  have he : ∀ hdr3 hdr3Len, Carries frame { pkt with hdr3, hdr3Len } :=
    fun _ _ => { hc with }
  have hs' : ∀ hdr3 hdr3Len hdr4Type, Carries frame { pkt with hdr3, hdr3Len, hdr4Type } :=
    fun _ _ _ => { hc with }
  have hs : (octet frame (layer3Pos frame) &&& 0xf).toUInt16 * 4 < ipv4Hlen ↔ ihl frame < 20 := by
    rw [UInt16.lt_iff_toNat_lt, ihl_len]
    rfl
  rw [ipv4Decode, if_neg hc.present]
  simp only [Decodes, yields_ite, yields_ok, yields_bind, yields_byteAt hc, yields_byteAt (he _ _),
    yields_pure, hl, pos, hs, reduceCtorEq, false_implies, implies_true, true_and, forall_const,
    Nat.not_lt, not_not, ne_eq]
  refine forall_congr' fun ipv4 => forall_congr' fun hp => ?_
  have hf := fixed_inside hi hp hn
  rw [and_iff_right (by omega)]
  refine forall_congr' fun long => ?_
  rw [and_iff_right (by omega)]
  refine and_congr ?_ ((tcp_decodes (hs' _ _ _)).trans ?_)
  · simp only [Bounded, size, pos, ihl_len, fresh4]
    rfl
  · simp only [pos, ihl_len]
    exact imp_congr (UInt8.toUInt32_inj (b := 6)) Iff.rfl

/-! ## Extension headers -/

variable {post : Netpkt × UInt8 × Nat → Prop}

section

variable (hc : Carries frame pkt)
include hc

/-- One round of the loop is one extension header. -/
lemma ext_yields {n m : Nat} : Yields (ipv6Ext pkt n m) post ↔ n + m < frame.length ∧
      if octet frame (n + m) = ipprotoFragment then
        n + 8 ≤ frame.length ∧ m + 8 < 2 ^ 31 ∧ post ({ pkt with
          fragId := (word frame (n + 4)).toUInt32 <<< 16 ||| (word frame (n + 4 + 2)).toUInt32
          fragOff := word frame (n + 2) }, octet frame (n + m), m + 8)
      else
        n + m + 1 < frame.length ∧ m + (8 + (octet frame (n + m + 1)).toNat * 8) < 2 ^ 31 ∧
          post (pkt, octet frame (n + m), m + (8 + (octet frame (n + m + 1)).toNat * 8)) := by
  simp only [ipv6Ext, yields_bind, yields_byteAt hc]
  refine and_congr_right fun hi => ?_
  by_cases hf : octet frame (n + m) = ipprotoFragment
  · simp only [if_pos hf, yields_bind, yields_be32At hc, yields_be16At hc, yields_addInt,
      yields_pure, ← and_assoc]
    refine and_congr_left fun _ => and_congr_left fun _ => ?_
    omega
  · simp only [if_neg hf, yields_bind, yields_byteAt hc, yields_addInt, yields_pure]

lemma Carries.fragmented (fragId : UInt32) (fragOff : UInt16) :
    Carries frame { pkt with fragId, fragOff } :=
  { hc with }

lemma exts_sound {n m total : Nat} {next last : UInt8} {pkt' : Netpkt}
    (ran : ipv6Exts pkt n next m = .ok (pkt', last, total)) : Extensions frame n next m last total ∧
      ∃ fragId fragOff, pkt' = { pkt with fragId, fragOff } := by
  fun_induction ipv6Exts pkt n next m with
  | case1 pkt next m ext fault failed => cases ran
  | case2 pkt next m ext pkt1 next1 m1 hr _ ih =>
    obtain ⟨hi, hs⟩ := (ext_yields hc).mp (eq_ok_iff.mp hr)
    split at hs
    next fragment =>
      obtain ⟨fields, hf, he⟩ := hs
      obtain ⟨rfl, rfl, rfl⟩ := by simpa only [mk.injEq] using he
      obtain ⟨rest, fragId, fragOff, rfl⟩ := ih (hc.fragmented _ _) ran
      rw [fragment] at rest
      exact ⟨.fragment ext hi fragment fields hf rest, fragId, fragOff, rfl⟩
    next other =>
      obtain ⟨hi', hf, he⟩ := hs
      obtain ⟨rfl, rfl, rfl⟩ := by simpa only [mk.injEq] using he
      obtain ⟨rest, hk⟩ := ih hc ran
      exact ⟨.other ext hi' other hf rest, hk⟩
  | case3 pkt next m hp =>
    obtain ⟨rfl, rfl, rfl⟩ := by simpa only [Except.ok.injEq, mk.injEq] using ran
    exact ⟨.none (Bool.eq_false_iff.mpr hp), pkt.fragId, pkt.fragOff, rfl⟩

end

lemma exts_round {n m m1 : Nat} {next next1 : UInt8} {pkt1 : Netpkt} (ext : ip6hdrIsExt next = true)
    (hr : ipv6Ext pkt n m = .ok (pkt1, next1, m1)) : ipv6Exts pkt n next m = ipv6Exts pkt1 n next1 m1 := by
  rw [ipv6Exts, if_pos ext]
  split
  next fault failed => simp [failed] at hr
  next pkt2 next2 m2 round2 =>
    obtain ⟨rfl, rfl, rfl⟩ := by simpa only [Except.ok.injEq, mk.injEq] using hr.symm.trans round2
    rfl

section

variable (hc : Carries frame pkt)
include hc

lemma exts_complete {n m total : Nat} {next last : UInt8}
    (he : Extensions frame n next m last total) : ∃ fragId fragOff,
      ipv6Exts pkt n next m = .ok ({ pkt with fragId, fragOff }, last, total) := by
  induction he generalizing pkt with
  | none hp =>
    rw [ipv6Exts, if_neg (by rw [hp]; decide)]
    exact ⟨pkt.fragId, pkt.fragOff, rfl⟩
  | @fragment next last m total ext hi ht fields hf rest ih =>
    have hr : ipv6Ext pkt n m = .ok _ := eq_ok_iff.mpr ((ext_yields hc).mpr ⟨hi, by
      rw [if_pos ht]
      exact ⟨fields, hf, rfl⟩⟩)
    obtain ⟨fragId, fragOff, ran⟩ := ih (hc.fragmented _ _)
    exact ⟨fragId, fragOff, (exts_round ext hr).trans (ht ▸ ran)⟩
  | @other next last m total ext hi ht hf rest ih =>
    have hr : ipv6Ext pkt n m = .ok _ := eq_ok_iff.mpr ((ext_yields hc).mpr ⟨by omega, by
      rw [if_neg ht]
      exact ⟨hi, hf, rfl⟩⟩)
    obtain ⟨fragId, fragOff, ran⟩ := ih hc
    exact ⟨fragId, fragOff, (exts_round ext hr).trans ran⟩

lemma exts_yields {n m : Nat} {next : UInt8} {found : UInt8 → Nat → Prop}
    (he : ∀ fragId fragOff last total, post ({ pkt with fragId, fragOff }, last, total) ↔ found last total) :
    Yields (ipv6Exts pkt n next m) post ↔
      ∃ last total, Extensions frame n next m last total ∧ found last total := by
  constructor
  · rintro ⟨⟨pkt', last, total⟩, ran, hh⟩
    obtain ⟨exts, fragId, fragOff, rfl⟩ := exts_sound hc ran
    exact ⟨last, total, exts, (he _ _ _ _).mp hh⟩
  · rintro ⟨last, total, exts, hh⟩
    obtain ⟨fragId, fragOff, ran⟩ := exts_complete hc exts
    exact ⟨_, ran, (he _ _ _ _).mpr hh⟩

lemma ipv6_decodes (pos : pkt.hdr2Len.toNat = layer3Pos frame) (fresh4 : pkt.hdr4Len.toNat = 0) :
    (Decodes (ipv6Decode pkt) fun pkt => Decodes (tcpDecode pkt) fun _ => True) ↔
      (pkt.hdr3Type = ethertypeIpv6 → Ipv6Inside frame) := by
  have hs := hc.length
  have he : ∀ hdr3 hdr3Len, Carries frame { pkt with hdr3, hdr3Len } :=
    fun _ _ => { hc with }
  rw [ipv6Decode, if_neg hc.present]
  simp only [Decodes, yields_ite, yields_ok, yields_bind, yields_byteAt (he _ _), yields_flow (he _ _),
    yields_addInt, yields_pure, pos, reduceCtorEq, false_implies, implies_true, true_and, forall_const,
    not_not, ne_eq]
  refine forall_congr' fun ipv6 => and_congr_right fun _ => forall_congr' fun hv =>
    and_congr_right fun _ => exts_yields (he _ _) fun fragId fragOff last total => ?_
  have hb : ∀ hdr3 hdr3Len hdr4Type, Carries frame { pkt with hdr3, fragId, fragOff, hdr3Len, hdr4Type } :=
    fun _ _ _ => { hc with }
  refine and_congr_right fun _ => and_congr ?_ ((tcp_decodes (hb _ _ _)).trans ?_)
  · simp only [Bounded, hs, pos, fresh4, UInt16.toNat_ofNat']
    rfl
  · simp only [pos, UInt16.toNat_ofNat']
    exact imp_congr (UInt8.toUInt32_inj (b := 6)) Iff.rfl

end

/-! ## The chain -/

lemma ethPacket_carries (hc : Carries frame pkt) : Carries frame (ethPacket frame pkt) := by
  unfold ethPacket
  split
  all_goals exact { hc with }

lemma ethPacket_pos : (ethPacket frame pkt).hdr2Len.toNat = layer3Pos frame := by
  unfold ethPacket layer3Pos
  split <;> rfl

lemma ethPacket_type : (ethPacket frame pkt).hdr3Type = (layer3Type frame).toUInt32 := by
  unfold ethPacket layer3Type
  split <;> rfl

/-- The chain stays inside the frame and its lengths fit exactly when the headers that the
frame announces do. -/
theorem decode_safe_iff (room frame spare : List UInt8) :
    Safe (framePacket room frame spare) ↔ Announced frame := by
  have hc : Carries frame (framePacket room frame spare) := framePacket_carries room spare
  have hc' := ethPacket_carries hc
  have fresh : (ethPacket frame (framePacket room frame spare)).hdr4Len.toNat = 0 := by
    unfold ethPacket
    split <;> rfl
  have ipv4 : (ethPacket frame (framePacket room frame spare)).hdr3Type = ethertypeIp ↔
      layer3Type frame = 0x0800 := by
    rw [ethPacket_type]
    exact UInt16.toUInt32_inj (b := 0x0800)
  have ipv6 : (ethPacket frame (framePacket room frame spare)).hdr3Type = ethertypeIpv6 ↔
      layer3Type frame = 0x86dd := by
    rw [ethPacket_type]
    exact UInt16.toUInt32_inj (b := 0x86dd)
  constructor
  · intro hs atLeast
    obtain ⟨hi, hf⟩ := (eth_decodes hc rfl rfl).mp (hs .ipv4) atLeast
    obtain ⟨-, six⟩ := (eth_decodes hc rfl rfl).mp (hs .ipv6) atLeast
    exact ⟨hi, fun ht => (ipv4_decodes hc' ethPacket_pos hi fresh).mp hf (ipv4.mpr ht),
      fun ht => (ipv6_decodes hc' ethPacket_pos fresh).mp six (ipv6.mpr ht)⟩
  · intro ha layer3
    refine (eth_decodes hc rfl rfl).mpr fun atLeast => ?_
    obtain ⟨hi, hf, six⟩ := ha atLeast
    refine ⟨hi, ?_⟩
    cases layer3 with
    | ipv4 =>
      exact (ipv4_decodes hc' ethPacket_pos hi fresh).mpr fun ht => hf (ipv4.mp ht)
    | ipv6 => exact (ipv6_decodes hc' ethPacket_pos fresh).mpr fun ht => six (ipv6.mp ht)

/-- An Ethernet header with the VLAN type and nothing behind it. -/
def cutVlan : List UInt8 := [0, 0, 0, 0, 0, 0, 0, 0, 0, 0, 0, 0, 0x81, 0]

theorem cut_vlan_tag : ¬ Safe (framePacket [] cutVlan []) := by
  intro hs
  have hc : Carries cutVlan (framePacket [] cutVlan []) := framePacket_carries [] []
  have hi := ((eth_decodes hc rfl rfl).mp (hs .ipv4) (by decide)).1
  exact absurd hi (by decide)

end Fzsvn.Guarantees.Packet.DecodeSafety
