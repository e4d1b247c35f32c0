import Fzsvn.Source.Netutil.IpAddr
import Mathlib.Data.List.TakeWhile
import Mathlib.Data.Vector.Defs

/-!
# Addresses and their texts

The text of an `ip_port` or `ip_mask` value is read back to the value. The printer puts the
brackets of an IPv6 address around an IPv4 address too, and the parser takes the family from
the colons, so what counts is which characters the text of an address can have.
-/
namespace Fzsvn.Guarantees.Netutil.AddressText
open Library.BigEndian Library.MachineInt Source.Netutil Option
open List hiding Vector

/-- The presentation forms of `inet_ntop`, which fit `INET6_ADDRSTRLEN` and which `inet_pton`
reads: digits and dots for IPv4; hexadecimal digits, dots and at least one colon for IPv6. -/
structure Presentation extends Inet where
  pton4_ntop : ∀ addr, pton4 (ntop (.v4 addr)) = some addr
  pton6_ntop : ∀ addr, pton6 (ntop (.v6 addr)) = some addr
  fits : ∀ ip, (ntop ip).length < inet6AddrStrLen
  dotted : ∀ addr, ∀ c ∈ ntop (.v4 addr), c ∈ "0123456789.".toList
  coloned : ∀ addr, ':' ∈ ntop (.v6 addr)
  hexadecimal : ∀ addr, ∀ c ∈ ntop (.v6 addr), c ∈ "0123456789abcdef:.".toList

variable (inet : Presentation)

/-! ## The text of an address -/

lemma ntop_chars {ip : IpAddr} : ∀ c ∈ inet.ntop ip, c ∈ "0123456789abcdef:.".toList := by
  intro c hi
  cases ip with
  | v4 addr =>
    have hd : "0123456789.".toList ⊆ "0123456789abcdef:.".toList := by decide
    exact hd (inet.dotted addr c hi)
  | v6 addr => exact inet.hexadecimal addr c hi

/-- A delimiter does not occur in the text of an address. -/
lemma ntop_before {ip : IpAddr} {delimiter : Char} (hd : delimiter ∉ "0123456789abcdef:.".toList) :
    ∀ c ∈ inet.ntop ip, decide (c ≠ delimiter) = true := by
  intro c hi
  rw [decide_eq_true_iff]
  rintro rfl
  exact hd (ntop_chars inet c hi)

lemma ipAddrFromStr_ntop {ip : IpAddr} : ipAddrFromStr inet.toInet (inet.ntop ip) = some ip := by
  cases ip with
  | v4 addr =>
    have hp : ':' ∉ inet.ntop (.v4 addr) := fun hi =>
      absurd (inet.dotted addr ':' hi) (by decide)
    rw [ipAddrFromStr, if_neg hp, inet.pton4_ntop, map_some]
  | v6 addr => rw [ipAddrFromStr, if_pos (inet.coloned addr), inet.pton6_ntop, map_some]

lemma ipAddrToStr_eq {ip : IpAddr} : ipAddrToStr inet.toInet ip ipStrLen = some (inet.ntop ip) := by
  have hs : (inet.ntop ip).length < ipStrLen := Nat.lt_trans (inet.fits ip) (by decide)
  rw [ipAddrToStr, if_neg (Nat.lt_irrefl _)]
  exact if_pos hs

/-! ## The text of a number -/

lemma decimal_isDigit (n : Nat) : ∀ c ∈ decimal n, c.isDigit = true := fun _ hi =>
  Nat.isDigit_of_mem_toDigits (by decide) (by decide) hi

lemma decimal_length {n k : Nat} (hp : 0 < k) (hs : n < 10 ^ k) : (decimal n).length ≤ k :=
  (Nat.length_toDigits_le_iff (by decide) hp).mpr hs

lemma not_isDigit_of_isspace {c : Char} (hs : isspace c = true) : c.isDigit = false := by
  simp only [isspace, Bool.or_eq_true, decide_eq_true_eq] at hs
  rcases hs with ((((rfl | rfl) | rfl) | rfl) | rfl) | rfl <;> rfl

lemma strtoul_decimal (n : Nat) : strtoul (decimal n) = n := by
  rw [strtoul, List.takeWhile_eq_self_iff.mpr (decimal_isDigit n), decimal,
    Nat.ofDigitChars_toDigits (by decide) (by decide)]

/-- There is no space and no sign to skip. -/
lemma atoi_of_digit {first : Char} {rest : List Char} (hi : first.isDigit = true)
    (hs : strtoul (first :: rest) < 2 ^ 31) : atoi (first :: rest) = strtoul (first :: rest) := by
  have skip : (first :: rest).dropWhile isspace = first :: rest := by
    rw [dropWhile_cons_of_neg]
    intro space
    rw [not_isDigit_of_isspace space] at hi
    cases hi
  rw [atoi, skip]
  split
  · next sign =>
    cases sign
    cases hi
  · next sign =>
    cases sign
    cases hi
  · rw [Nat.min_eq_left (by omega), toInt_small (by omega) (by omega)]

lemma atoi_decimal {n : Nat} (hs : n < 2 ^ 31) : atoi (decimal n) = n := by
  obtain ⟨first, rest, ht⟩ := exists_cons_of_ne_nil (Nat.toDigits_ne_nil (n := n) (b := 10))
  have hv := strtoul_decimal n
  have hi : first.isDigit = true :=
    decimal_isDigit n first (by rw [decimal, ht]; exact mem_cons_self)
  rw [decimal, ht] at hv ⊢
  rw [atoi_of_digit hi (by omega), hv]

lemma portDigits_of_isDigit : ∀ {text : List Char}, (∀ c ∈ text, c.isDigit = true) → portDigits text = true
  | [], _ => rfl
  | c :: rest, digits => by
    rw [portDigits, digits c mem_cons_self,
      portDigits_of_isDigit fun c inRest => digits c (mem_cons_of_mem _ inRest)]
    simp

lemma portFromStr_decimal {port : UInt16} : portFromStr (decimal (ntohs port).toNat) = some port := by
  have hb := (ntohs port).toNat_lt
  rw [portFromStr, atoi_decimal (by omega), if_neg (by omega), Int.toNat_natCast,
    UInt16.ofNat_toNat, htons, ntohs_ntohs]

/-! ## The round trips -/

/-- What `ip_port_to_str` prints. -/
def portText (ip : IpPort) : List Char :=
  '[' :: inet.ntop ip.addr ++ ']' :: ':' :: decimal (ntohs ip.port).toNat

lemma portText_length (ip : IpPort) : (portText inet ip).length < 54 := by
  have ha : (inet.ntop ip.addr).length < 46 := inet.fits ip.addr
  have hp := decimal_length (n := (ntohs ip.port).toNat) (k := 5) (by decide)
    (Nat.lt_trans (ntohs ip.port).toNat_lt (by decide))
  simp only [portText, length_append, length_cons]
  omega

lemma ipPortToStr_eq {ip : IpPort} {len : Nat} (hr : ipStrLen ≤ len) :
    ipPortToStr inet.toInet ip len = some (portText inet ip) := by
  have hl := portText_length inet ip
  have hw : 128 ≤ len := hr
  rw [ipPortToStr, if_neg (Nat.not_lt.mpr hr), ipAddrToStr_eq]
  change some ((snprintf (len - 1) (portText inet ip)).take (len - 1)) = _
  rw [snprintf, take_take, take_of_length_le (by omega)]

lemma ipPortFromStr_portText (ip : IpPort) :
    ipPortFromStr inet.toInet (portText inet ip) = .ok (some ip) := by
  have hl := portText_length inet ip
  have ha : (inet.ntop ip.addr).length < 46 := inet.fits ip.addr
  have hf : ∀ c ∈ '[' :: inet.ntop ip.addr, decide (c ≠ ']') = true :=
    forall_mem_cons.mpr ⟨rfl, ntop_before inet (by decide)⟩
  have hw : (portText inet ip).take (ipStrLen - 1) = portText inet ip :=
    take_of_length_le (Nat.le_trans (Nat.le_of_lt hl) (by decide))
  have bracket : (portText inet ip).head? = some '[' := rfl
  have behind : (portText inet ip).dropWhile (· ≠ ']') = ']' :: ':' :: decimal (ntohs ip.port).toNat := by
    rw [portText, dropWhile_append_of_pos hf]
    rfl
  have hb : (portText inet ip).takeWhile (· ≠ ']') = '[' :: inet.ntop ip.addr := by
    rw [portText, takeWhile_append_of_pos hf]
    exact append_nil _
  have hi : ¬('[' :: inet.ntop ip.addr).length + 2 ≥ ipStrLen := by
    simp only [length_cons, ipStrLen]
    omega
  have hd := portDigits_of_isDigit (decimal_isDigit (ntohs ip.port).toNat)
  simp only [ipPortFromStr, hw, behind, hb, bracket, tail_cons, ipAddrFromStr_ntop,
    hi, hd, if_true, if_false, portFromStr_decimal, map_some]

/-- What `ip_mask_to_str` prints. -/
def maskText (mask : IpMask) : List Char :=
  inet.ntop mask.addr ++ '/' :: decimal mask.cidr.toNat

variable {mask : IpMask}

section

variable (hv : mask.CidrIsValid)
include hv

lemma cidr_lt : mask.cidr.toNat < 129 := by
  obtain ⟨addr, cidr⟩ := mask
  have hl := UInt32.lt_iff_toNat_lt.mp hv
  cases addr with
  | v4 _ => exact Nat.lt_trans (m := 33) hl (by decide)
  | v6 _ => exact hl

lemma maskText_length : (maskText inet mask).length < 50 := by
  have ha : (inet.ntop mask.addr).length < 46 := inet.fits mask.addr
  have hc := decimal_length (n := mask.cidr.toNat) (k := 3) (by decide)
    (Nat.lt_trans (cidr_lt hv) (by decide))
  simp only [maskText, length_append, length_cons]
  omega

lemma ipMaskToStr_eq {len : Nat} (hr : ipStrLen ≤ len) :
    ipMaskToStr inet.toInet mask len = some (maskText inet mask) := by
  have hl := maskText_length inet hv
  have hw : 128 ≤ len := hr
  rw [ipMaskToStr, if_neg (Nat.not_lt.mpr hr), ipAddrToStr_eq]
  change (if mask.CidrIsValid then some (snprintf len (maskText inet mask)) else none) = _
  rw [if_pos hv, snprintf, take_of_length_le (by omega)]

end

lemma ipGetCidr_decimal {n : Nat} (hs : n < 2 ^ 31) : ipGetCidr inet.toInet (decimal n) = n := by
  have hp : '.' ∉ decimal n := fun hi => absurd (decimal_isDigit n '.' hi) (by decide)
  rw [ipGetCidr, if_neg hp, atoi_decimal hs]

lemma ipMaskFromStr_maskText (hv : mask.CidrIsValid) :
    ipMaskFromStr inet.toInet (maskText inet mask) = .ok (some mask) := by
  have ha : (inet.ntop mask.addr).length < 46 := inet.fits mask.addr
  have hf : ∀ c ∈ inet.ntop mask.addr, decide (c ≠ '/') = true :=
    ntop_before inet (by decide)
  obtain ⟨first, rest, ht⟩ :=
    exists_cons_of_ne_nil (Nat.toDigits_ne_nil (n := mask.cidr.toNat) (b := 10))
  have behind : (maskText inet mask).dropWhile (· ≠ '/') = '/' :: first :: rest := by
    rw [maskText, dropWhile_append_of_pos hf, decimal, ht]
    rfl
  have hb : (maskText inet mask).takeWhile (· ≠ '/') = inet.ntop mask.addr := by
    rw [maskText, takeWhile_append_of_pos hf]
    exact append_nil _
  have cidr : UInt32.ofInt (ipGetCidr inet.toInet (first :: rest)) = mask.cidr := by
    have hs := cidr_lt hv
    rw [← ht, ← decimal, ipGetCidr_decimal inet (by omega), UInt32.ofInt,
      Int.emod_eq_of_lt (by omega) (by omega), Int.toNat_natCast, UInt32.ofNat_toNat]
  have hcopied : (maskText inet mask).take (inet.ntop mask.addr).length = inet.ntop mask.addr := take_left
  have hlen : toInt (inet.ntop mask.addr).length = (inet.ntop mask.addr).length :=
    toInt_small (by omega) (by omega)
  have hshort : ¬ ((inet.ntop mask.addr).length : Int) > inet6AddrStrLen := by
    simp only [inet6AddrStrLen]
    omega
  have hfront : ipMaskAddr (maskText inet mask) = .ok (some (inet.ntop mask.addr)) := by
    simp only [ipMaskAddr, hb, hlen, hshort, Int.not_lt.mpr (Int.natCast_nonneg _), if_false, Int.toNat_natCast,
      hcopied]
  simp only [ipMaskFromStr, behind]
  rw [hfront, cidr]
  simp [bind, Except.bind, pure, Except.pure, ipAddrFromStr_ntop, hv]

/-- In a buffer of at least `IP_STR_LEN` bytes, the text of every `ip_port` value and of every
`ip_mask` value with a valid CIDR is read back to the value. -/
theorem text_round_trip (len : Nat) (room : ipStrLen ≤ len) :
    (∀ ip : IpPort, ∃ text, ipPortToStr inet.toInet ip len = some text ∧
      ipPortFromStr inet.toInet text = .ok (some ip)) ∧
    (∀ mask : IpMask, mask.CidrIsValid → ∃ text, ipMaskToStr inet.toInet mask len = some text ∧
      ipMaskFromStr inet.toInet text = .ok (some mask)) := by
  constructor
  · intro ip
    exact ⟨portText inet ip, ipPortToStr_eq inet room, ipPortFromStr_portText inet ip⟩
  · intro mask hv
    exact ⟨maskText inet mask, ipMaskToStr_eq inet hv room, ipMaskFromStr_maskText inet hv⟩

/-! ## A library with such forms -/

lemma decimal_chars {n : Nat} {c : Char} (hi : c ∈ decimal n) : c ∈ "0123456789".toList := by
  have hd := decimal_isDigit n c hi
  rw [Char.isDigit_iff_toNat] at hd
  obtain ⟨low, hh⟩ := hd
  have all : ∀ code < 58, 48 ≤ code → Char.ofNat code ∈ "0123456789".toList := by decide
  rw [← Char.ofNat_toNat c]
  exact all c.toNat (Nat.lt_succ_of_le hh) low

def dottedText (addr : Vector UInt8 4) : List Char :=
  ['.'].intercalate (addr.toList.map fun byte => decimal byte.toNat)

lemma dottedText_inj : Function.Injective dottedText := by
  intro addr addr' heq
  have hsplit : ∀ addr, (dottedText addr).splitOn '.' = addr.toList.map fun byte => decimal byte.toNat := by
    intro addr
    refine splitOn_intercalate '.' (fun part hpart hdot => ?_) (by simp)
    obtain ⟨byte, -, rfl⟩ := mem_map.mp hpart
    exact absurd (decimal_isDigit _ '.' hdot) (by decide)
  have hbyte : Function.Injective fun byte : UInt8 => decimal byte.toNat := by
    intro byte byte' heq
    have hvalue := congrArg strtoul heq
    rwa [strtoul_decimal, strtoul_decimal, UInt8.toNat_inj] at hvalue
  have hparts := (hsplit addr).symm.trans ((congrArg (·.splitOn '.') heq).trans (hsplit addr'))
  exact Vector.toList_inj.mp (hbyte.list_map hparts)

lemma dottedText_eq (addr : Vector UInt8 4) : ∃ a b c d : UInt8, dottedText addr =
    decimal a.toNat ++ '.' :: (decimal b.toNat ++ '.' :: (decimal c.toNat ++ '.' :: decimal d.toNat)) := by
  obtain ⟨a, b, c, d, hbytes⟩ := length_eq_four.mp addr.length_toList
  refine ⟨a, b, c, d, ?_⟩
  simp [dottedText, hbytes, intercalate]

def byteText (byte : UInt8) : List Char :=
  [Nat.digitChar (byte.toNat / 16), Nat.digitChar (byte.toNat % 16)]

/-- Two bytes in each group. -/
def groupsText : List UInt8 → List Char
  | a :: b :: c :: rest => byteText a ++ byteText b ++ ':' :: groupsText (c :: rest)
  | bytes => bytes.flatMap byteText

lemma digitChar_inj : ∀ m < 16, ∀ n < 16, Nat.digitChar m = Nat.digitChar n → m = n := by decide

lemma byteText_inj {a b : UInt8} (heq : byteText a = byteText b) : a = b := by
  have ha := a.toNat_lt
  have hb := b.toNat_lt
  simp only [byteText, cons.injEq, and_true] at heq
  have hhigh := digitChar_inj _ (by omega) _ (by omega) heq.1
  have hlow := digitChar_inj _ (by omega) _ (by omega) heq.2
  exact UInt8.toNat_inj.mp (by omega)

lemma groupsText_inj {bytes bytes' : List UInt8} (hlen : bytes.length = bytes'.length)
    (heq : groupsText bytes = groupsText bytes') : bytes = bytes' := by
  fun_induction groupsText bytes generalizing bytes' with
  | case1 a b c rest ih =>
    obtain _ | ⟨a', _ | ⟨b', _ | ⟨c', rest'⟩⟩⟩ := bytes'
    any_goals cases hlen
    rw [groupsText] at heq
    obtain ⟨hfront, hback⟩ := append_inj heq rfl
    obtain ⟨hfirst, hsecond⟩ := append_inj hfront rfl
    rw [byteText_inj hfirst, byteText_inj hsecond, ih (by simpa using hlen) (cons_inj_right _ |>.mp hback)]
  | case2 bytes hshort =>
    obtain _ | ⟨a, _ | ⟨b, _ | ⟨c, rest⟩⟩⟩ := bytes
    · exact (length_eq_zero_iff.mp hlen.symm).symm
    · obtain ⟨a', rfl⟩ := length_eq_one_iff.mp hlen.symm
      rw [byteText_inj heq]
    · obtain ⟨a', b', rfl⟩ := length_eq_two.mp hlen.symm
      obtain ⟨hfirst, hsecond⟩ := append_inj heq rfl
      rw [byteText_inj hfirst, byteText_inj hsecond]
    · exact (hshort a b c rest rfl).elim

lemma groupsText_length (bytes : List UInt8) :
    (groupsText bytes).length ≤ 2 * bytes.length + bytes.length / 2 := by
  fun_induction groupsText bytes with
  | case1 a b c rest ih =>
    simp only [byteText, length_append, length_cons, length_nil] at ih ⊢
    omega
  | case2 bytes => simp [byteText]; omega

lemma groupsText_chars (bytes : List UInt8) : ∀ c ∈ groupsText bytes, c ∈ "0123456789abcdef:.".toList := by
  have hdigit : ∀ n < 16, Nat.digitChar n ∈ "0123456789abcdef:.".toList := by decide
  have hbyte : ∀ byte, ∀ c ∈ byteText byte, c ∈ "0123456789abcdef:.".toList := by
    intro byte c hc
    have hlt := byte.toNat_lt
    rcases mem_pair.mp hc with rfl | rfl
    · exact hdigit _ (by omega)
    · exact hdigit _ (by omega)
  intro c hc
  fun_induction groupsText bytes with
  | case1 a b next rest ih =>
    simp only [mem_append, mem_cons] at hc
    rcases hc with (hc | hc) | rfl | hc
    · exact hbyte a c hc
    · exact hbyte b c hc
    · decide
    · exact ih hc
  | case2 bytes =>
    obtain ⟨byte, -, hc⟩ := mem_flatMap.mp hc
    exact hbyte byte c hc

lemma dottedText_chars {addr : Vector UInt8 4} {c : Char} (hc : c ∈ dottedText addr) :
    c ∈ "0123456789.".toList := by
  obtain ⟨_, _, _, _, htext⟩ := dottedText_eq addr
  simp only [htext, mem_append, mem_cons] at hc
  have hdigit : ∀ {n}, c ∈ decimal n → c ∈ "0123456789.".toList := fun hc =>
    mem_append_left ['.'] (decimal_chars hc)
  rcases hc with hc | rfl | hc | rfl | hc | rfl | hc
  any_goals exact hdigit hc
  all_goals decide

lemma groupsText_colon (addr : Vector UInt8 16) : ':' ∈ groupsText addr.toList := by
  have hlen := addr.length_toList
  generalize addr.toList = bytes at hlen ⊢
  obtain _ | ⟨a, _ | ⟨b, _ | ⟨c, rest⟩⟩⟩ := bytes
  any_goals cases hlen
  simp [groupsText]

lemma groups_inj : Function.Injective fun addr : Vector UInt8 16 => groupsText addr.toList := by
  intro addr addr' heq
  exact Vector.toList_inj.mp (groupsText_inj (by rw [Vector.length_toList, Vector.length_toList]) heq)

/-- Dotted decimal numbers, and eight groups of four hexadecimal digits. -/
def fullText : IpAddr → List Char
  | .v4 addr => dottedText addr
  | .v6 addr => groupsText addr.toList

lemma fullText_fits (addr : IpAddr) : (fullText addr).length < inet6AddrStrLen := by
  cases addr with
  | v4 addr =>
    obtain ⟨a, b, c, d, htext⟩ := dottedText_eq addr
    have hbyte : ∀ byte : UInt8, (decimal byte.toNat).length ≤ 3 := fun byte =>
      decimal_length (by decide) (Nat.lt_trans byte.toNat_lt (by decide))
    have := hbyte a
    have := hbyte b
    have := hbyte c
    have := hbyte d
    simp only [fullText, htext, length_append, length_cons, inet6AddrStrLen]
    omega
  | v6 addr =>
    have hlen := groupsText_length addr.toList
    rw [Vector.length_toList] at hlen
    exact Nat.lt_of_le_of_lt hlen (by decide)

noncomputable def fullForms : Presentation where
  ntop := fullText
  pton4 := Function.partialInv dottedText
  pton6 := Function.partialInv fun addr => groupsText addr.toList
  pton4_ntop := Function.partialInv_left dottedText_inj
  pton6_ntop := Function.partialInv_left groups_inj
  fits := fullText_fits
  dotted _ _ := dottedText_chars
  coloned := groupsText_colon
  hexadecimal addr := groupsText_chars addr.toList

example : fullForms.ntop (.v4 #v[10, 200, 2, 1]) = "10.200.2.1".toList := by decide

/-- The least buffer, with an IPv4 mask of 24 bits. -/
theorem text_round_trip_least : ipStrLen ≤ 128 ∧ IpMask.CidrIsValid ⟨.v4 #v[10, 0, 0, 0], 24⟩ ∧
    ipMaskToStr fullForms.toInet ⟨.v4 #v[10, 0, 0, 0], 24⟩ 128 = some "10.0.0.0/24".toList ∧
      ipMaskFromStr fullForms.toInet "10.0.0.0/24".toList = .ok (some ⟨.v4 #v[10, 0, 0, 0], 24⟩) := by
  obtain ⟨text, hprinted, hread⟩ := (text_round_trip fullForms 128 (by decide)).2
    ⟨.v4 #v[10, 0, 0, 0], 24⟩ (by decide)
  have htext : ipMaskToStr fullForms.toInet ⟨.v4 #v[10, 0, 0, 0], 24⟩ 128 = some "10.0.0.0/24".toList := by
    decide
  cases hprinted.symm.trans htext
  exact ⟨by decide, by decide, htext, hread⟩

end Fzsvn.Guarantees.Netutil.AddressText
