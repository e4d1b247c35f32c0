import Fzsvn.Source.Netutil.IpAddr

/-!
# Prefixes

The bits of an address in the order of a prefix: bit 0 is the highest one of the first byte.
`ip_mask_match` compares prefixes, also where it reads one byte behind an address.
-/
namespace Fzsvn.Guarantees.Netutil.PrefixBits
open Source.Netutil

def bit (mem : Nat → UInt8) (i : Nat) : Bool := (mem (i / 8)).toNat.testBit (7 - i % 8)

def size : Family → Nat
  | .afInet => 4
  | .afInet6 => 16

/-- A bit of the address itself. -/
def addrBit (ip : IpAddr) (i : Nat) : Bool := bit (ip.memory fun _ => 0) i

lemma memory_inside {ip : IpAddr} (past past' : Nat → UInt8) {k : Nat}
    (hk : k < size ip.family) : ip.memory past k = ip.memory past' k := by
  cases ip with
  | v4 addr =>
    have hk' : k < 4 := hk
    simp [IpAddr.memory, Vector.getD, hk']
  | v6 addr =>
    have hk' : k < 16 := hk
    simp [IpAddr.memory, Vector.getD, hk']

lemma bit_memory {ip : IpAddr} {past : Nat → UInt8} {i : Nat} (hi : i < 8 * size ip.family) :
    bit (ip.memory past) i = addrBit ip i := by
  rw [addrBit, bit, bit, memory_inside past (fun _ => 0) (by omega)]

lemma bit_at {mem : Nat → UInt8} {k : Nat} {j : Nat} (hj : j < 8) :
    bit mem (8 * k + j) = (mem k).toNat.testBit (7 - j) := by
  rw [bit, show (8 * k + j) / 8 = k by omega, show (8 * k + j) % 8 = j by omega]

lemma byte_ext {x y : UInt8} (h : ∀ j < 8, x.toNat.testBit (7 - j) = y.toNat.testBit (7 - j)) : x = y := by
  apply UInt8.toNat_inj.mp
  apply Nat.eq_of_testBit_eq
  intro j
  by_cases hj : j < 8
  · have := h (7 - j) (by omega)
    rwa [show 7 - (7 - j) = j by omega] at this
  · have hlt : ∀ z : UInt8, z.toNat.testBit j = false := fun z =>
      Nat.testBit_lt_two_pow (Nat.lt_of_lt_of_le z.toNat_lt (Nat.pow_le_pow_right (by decide) (by omega)))
    rw [hlt, hlt]

lemma maskPartial_bit : ∀ k < 8, ∀ j < 8, (sMaskPartial k).toNat.testBit (7 - j) = decide (j < k) := by
  decide

/-- The table's mask compares the first `k` bits of a byte. -/
lemma masked_eq_iff (x y : UInt8) {k : Nat} (hk : k < 8) : x &&& sMaskPartial k = y &&& sMaskPartial k ↔
      ∀ j < k, x.toNat.testBit (7 - j) = y.toNat.testBit (7 - j) := by
  constructor
  · intro h j hj
    have := congrArg (fun z : UInt8 => z.toNat.testBit (7 - j)) h
    simpa [Nat.testBit_and, maskPartial_bit k hk j (by omega), hj] using this
  · intro h
    apply byte_ext
    intro j hj
    rw [UInt8.toNat_and, UInt8.toNat_and, Nat.testBit_and, Nat.testBit_and, maskPartial_bit k hk j hj]
    by_cases hjk : j < k
    · rw [h j hjk]
    · simp [hjk]

lemma agree_iff (mem mem' : Nat → UInt8) {n : Nat} : (∀ i < n, bit mem i = bit mem' i) ↔
      (∀ k < n / 8, mem k = mem' k) ∧
        mem (n / 8) &&& sMaskPartial (n % 8) = mem' (n / 8) &&& sMaskPartial (n % 8) := by
  rw [masked_eq_iff _ _ (Nat.mod_lt n (by decide))]
  constructor
  · intro h
    constructor
    · intro k hk
      apply byte_ext
      intro j hj
      rw [← bit_at hj, ← bit_at hj]
      exact h _ (by omega)
    · intro j hj
      rw [← bit_at (by omega), ← bit_at (by omega)]
      exact h _ (by omega)
  · rintro ⟨hw, hr⟩ i hi
    rw [bit, bit]
    by_cases hk : i / 8 < n / 8
    · rw [hw _ hk]
    · rw [show i / 8 = n / 8 by omega]
      exact hr _ (by omega)

lemma match_iff (past past' : Nat → UInt8) {mask : IpMask} {ip : IpAddr} (hv : mask.CidrIsValid) :
    ipMaskMatch past past' mask ip = true ↔ mask.addr.family = ip.family ∧
      ∀ i < mask.cidr.toNat, addrBit mask.addr i = addrBit ip i := by
  have hn : mask.cidr.toNat ≤ 8 * size mask.addr.family := by
    rcases mask with ⟨addr | addr, cidr⟩
    · exact Nat.le_of_lt_succ (UInt32.lt_iff_toNat_lt.mp hv)
    · exact Nat.le_of_lt_succ (UInt32.lt_iff_toNat_lt.mp hv)
  by_cases hf : mask.addr.family = ip.family
  · have hh : (∀ i < mask.cidr.toNat, addrBit mask.addr i = addrBit ip i) ↔
        ∀ i < mask.cidr.toNat, bit (mask.addr.memory past) i = bit (ip.memory past') i := by
      apply forall₂_congr
      intro i hi
      rw [bit_memory (by omega), bit_memory (by rw [← hf]; omega)]
    rw [hh, agree_iff]
    by_cases h0 : mask.cidr = 0
    · simp [ipMaskMatch, hf, h0, sMaskPartial]
    · simp [ipMaskMatch, hf, h0]
  · simp [ipMaskMatch, hf]

/-- A mask matches the addresses of its family with the same first `cidr` bits; so a shorter
prefix of the same network matches whatever a longer one matches. -/
theorem matches_first_bits (past past' : Nat → UInt8) (mask : IpMask) (ip : IpAddr) (hv : mask.CidrIsValid) :
    (ipMaskMatch past past' mask ip = true ↔ mask.addr.family = ip.family ∧
      ∀ i < mask.cidr.toNat, addrBit mask.addr i = addrBit ip i) ∧
    ∀ short : IpMask, short.addr.family = mask.addr.family → short.cidr ≤ mask.cidr →
      (∀ i < short.cidr.toNat, addrBit short.addr i = addrBit mask.addr i) →
      ipMaskMatch past past' mask ip = true → ∀ past₁, ipMaskMatch past₁ past' short ip = true := by
  refine ⟨match_iff past past' hv, ?_⟩
  intro short hf hle hs hm past₁
  obtain ⟨hf', hh⟩ := (match_iff past past' hv).mp hm
  have hv' : short.CidrIsValid := by
    rcases mask with ⟨addr | addr, cidr⟩ <;> rcases short with ⟨addr' | addr', cidr'⟩ <;> cases hf
    · exact Std.lt_of_le_of_lt hle hv
    · exact Std.lt_of_le_of_lt hle hv
  apply (match_iff past₁ past' hv').mpr
  refine ⟨hf.trans hf', ?_⟩
  intro i hi
  rw [hs i hi]
  exact hh i (Nat.lt_of_lt_of_le hi (UInt32.le_iff_toNat_le.mp hle))

theorem matches_first_bits_net : IpMask.CidrIsValid ⟨.v4 #v[10, 1, 0, 0], 12⟩ ∧
      ipMaskMatch (fun _ => 0) (fun _ => 9) ⟨.v4 #v[10, 16, 0, 0], 8⟩ (.v4 #v[10, 2, 3, 4]) = true :=
  ⟨by decide, (matches_first_bits (fun _ => 0) (fun _ => 9) ⟨.v4 #v[10, 1, 0, 0], 12⟩
    (.v4 #v[10, 2, 3, 4]) (by decide)).2 ⟨.v4 #v[10, 16, 0, 0], 8⟩ rfl (by decide) (by decide)
    (by decide) _⟩

/-! ## Applying a mask -/

/-- The longest prefix that `ip_addr_apply_mask` takes. -/
def longest : Family → Nat
  | .afInet => 31
  | .afInet6 => 128

/-- What applying a mask of `n` bits is to do with an address of `size` bytes. -/
structure Masked (size n : Nat) (old new : Nat → UInt8) : Prop where
  kept : ∀ i < n, bit new i = bit old i
  cleared : ∀ i, n ≤ i → i < 8 * size → bit new i = false
  outside : ∀ k, size ≤ k → new k = old k

/-- The byte in which the prefix ends is clear behind it, and so is what stands behind an IPv4
address; behind an IPv6 address the mask leaves its byte as it is. -/
structure Spared (size n : Nat) (mem : Nat → UInt8) : Prop where
  last : ∀ i, n ≤ i → i < 8 * ((n + 7) / 8) → bit mem i = false
  behind : ∀ k, size ≤ k → k < 16 → mem k = 0
  next : n % 8 ≠ 0 → n / 8 + 1 = 16 → mem 16 &&& sMaskPartial (n % 8) = mem 16

variable (mem : Nat → UInt8) (n : Nat)

lemma apply_low {k : Nat} (hk : k < (n + 7) / 8) : applyMask mem n k = mem k := by
  simp only [applyMask]
  split_ifs <;> first | rfl | omega

lemma apply_mid {k : Nat} (hlo : (n + 7) / 8 ≤ k) (hhi : k < 16) : applyMask mem n k = 0 := by
  simp only [applyMask]
  split_ifs <;> first | rfl | omega

lemma apply_high {k : Nat} (hk : 16 ≤ k) : applyMask mem n k =
    if n % 8 ≠ 0 ∧ k = n / 8 + 1 then mem k &&& sMaskPartial (n % 8) else mem k := by
  simp only [applyMask]
  rw [if_neg (by omega)]

lemma masked_iff {size : Nat} (hn : (n + 7) / 8 ≤ size) (hs : size ≤ 16) :
    Masked size n mem (applyMask mem n) ↔ Spared size n mem := by
  constructor
  · intro h
    constructor
    · intro i hlo hhi
      have := h.cleared i hlo (by omega)
      rwa [bit, apply_low mem n (by omega)] at this
    · intro k hlo hhi
      rw [← h.outside k hlo, apply_mid mem n (by omega) hhi]
    · intro hr h16
      have := h.outside 16 hs
      rwa [apply_high mem n (Nat.le_refl _), if_pos ⟨hr, h16.symm⟩] at this
  · intro h
    constructor
    · intro i hi
      rw [bit, apply_low mem n (by omega), bit]
    · intro i hlo hhi
      by_cases hi : i / 8 < (n + 7) / 8
      · rw [bit, apply_low mem n hi]
        exact h.last i hlo (by omega)
      · rw [bit, apply_mid mem n (by omega) (by omega)]
        exact Nat.zero_testBit _
    · intro k hk
      by_cases hhi : k < 16
      · rw [apply_mid mem n (by omega) hhi, h.behind k hk hhi]
      · rw [apply_high mem n (by omega)]
        split_ifs with hr
        · obtain rfl : k = 16 := by omega
          exact h.next hr.1 hr.2.symm
        · rfl

/-- Where the prefix's last byte is clear behind it, the address is compared with all its later
bits. -/
lemma netaddr_iff (hl : ∀ i, n ≤ i → i < 8 * ((n + 7) / 8) → bit mem i = false) :
    (∀ k < 16, mem k = applyMask mem n k) ↔ ∀ i, n ≤ i → i < 128 → bit mem i = false := by
  constructor
  · intro h i hlo hhi
    by_cases hi : i / 8 < (n + 7) / 8
    · exact hl i hlo (by omega)
    · rw [bit, h _ (by omega), apply_mid mem n (by omega) (by omega)]
      exact Nat.zero_testBit _
  · intro h k hk
    by_cases hh : k < (n + 7) / 8
    · rw [apply_low mem n hh]
    · rw [apply_mid mem n (by omega) hk]
      apply byte_ext
      intro j hj
      rw [← bit_at hj, h _ (by omega) (by omega)]
      exact (Nat.zero_testBit _).symm

/-- `ip_addr_apply_mask` masks the address and nothing else, and `ip6_is_netaddr` goes by all
the bits behind the prefix, exactly for the addresses that the two mistakes spare. -/
theorem applies_iff (ip : IpAddr) (past : Nat → UInt8) {n : Nat} (hlo : 1 ≤ n)
    (hhi : n ≤ longest ip.family) :
    ((∃ mem, ipAddrApplyMask ip past n = some mem ∧ Masked (size ip.family) n (ip.memory past) mem) ∧
      ∀ ip6, ip = .v6 ip6 → ∀ stack,
        (ip6IsNetaddr ip6 stack n = true ↔ ∀ i, n ≤ i → i < 128 → addrBit ip i = false)) ↔
    Spared (size ip.family) n (ip.memory past) := by
  have hsize : (n + 7) / 8 ≤ size ip.family ∧ size ip.family ≤ 16 := by
    cases ip <;> simp only [IpAddr.family, longest, size] at hhi ⊢ <;> omega
  have hh : ipAddrApplyMask ip past n = some (applyMask (ip.memory past) n) := by
    cases ip <;> simp only [IpAddr.family, longest] at hhi <;>
      simp only [ipAddrApplyMask, ip4ApplyMask, ip6ApplyMask] <;> rw [if_neg (by omega)] <;> rfl
  have hmask := masked_iff (ip.memory past) n hsize.1 hsize.2
  constructor
  · rintro ⟨⟨mem, hm, h⟩, -⟩
    cases hh.symm.trans hm
    exact hmask.mp h
  · intro h
    refine ⟨⟨_, hh, hmask.mpr h⟩, ?_⟩
    rintro ip6 rfl stack
    have hbit : ∀ i < 128, ∀ past, bit (IpAddr.memory (.v6 ip6) past) i = addrBit (.v6 ip6) i :=
      fun i hi past => bit_memory hi
    have hhn := netaddr_iff (IpAddr.memory (.v6 ip6) stack) n fun i hi hlast => by
      have hi' : i < 128 := Nat.lt_of_lt_of_le hlast (Nat.mul_le_mul_left 8 hsize.1)
      rw [hbit i hi', ← hbit i hi' past]
      exact h.last i hi hlast
    have hbits : (∀ i, n ≤ i → i < 128 → addrBit (.v6 ip6) i = false) ↔
        ∀ i, n ≤ i → i < 128 → bit (IpAddr.memory (.v6 ip6) stack) i = false := by
      apply forall₃_congr
      intro i _ hi
      rw [hbit i hi]
    rw [hbits, ← hhn]
    by_cases h128 : n = 128
    · subst h128
      exact iff_of_true rfl fun k hk => (apply_low _ 128 hk).symm
    · have hn : n ≤ 128 := hhi
      simp only [ip6IsNetaddr, ip6ApplyMask]
      rw [if_neg (by omega), if_neg (by omega), if_neg (by omega)]
      simp

theorem applies_iff_whole : 1 ≤ 64 ∧ ∃ mem,
    ipAddrApplyMask (.v6 (.replicate 16 7)) (fun _ => 0) 64 = some mem ∧
      Masked 16 64 (IpAddr.memory (.v6 (.replicate 16 7)) fun _ => 0) mem :=
  ⟨by decide, ((applies_iff (n := 64) (.v6 (.replicate 16 7)) (fun _ => 0) (by decide) (by decide)).mpr
    ⟨by omega, by intro k (hlo : 16 ≤ k); omega, by omega⟩).1⟩

/-- 192.168.1.77 with 20 bits: the third byte keeps its last bit. -/
theorem last_bit_kept : ¬ ∃ mem,
    ipAddrApplyMask (.v4 #v[192, 168, 1, 77]) (fun _ => 0) 20 = some mem ∧
      Masked 4 20 (IpAddr.memory (.v4 #v[192, 168, 1, 77]) fun _ => 0) mem := by
  rintro ⟨mem, hm, h⟩
  cases hm
  exact absurd (h.cleared 23 (by decide) (by decide)) (by decide)

end Fzsvn.Guarantees.Netutil.PrefixBits
