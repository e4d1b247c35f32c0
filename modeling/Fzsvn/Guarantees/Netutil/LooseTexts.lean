import Fzsvn.Guarantees.Netutil.AddressText

/-!
# Texts that are accepted

What `ip_mask_from_str` takes for a netmask, compared with the netmasks there are: a number in
the range of the family, or for IPv4 four numbers whose bits are a run of ones and then zeros.
Of other texts `atoi` makes a number, too, and `ip4_mask_to_cidr` looks at the lowest bit only.
Likewise what `ip_port_from_str` takes for a port.
-/
namespace Fzsvn.Guarantees.Netutil.LooseTexts
open Library.MachineInt Source.Netutil AddressText Option UInt32
open List hiding Vector

variable (inet : Inet)

/-- The number that a text of digits stands for. -/
def numeral (most : Nat) (text : List Char) : Option Nat :=
  if text ≠ [] ∧ text.all Char.isDigit = true ∧ strtoul text ≤ most then some (strtoul text) else none

/-- The longest prefix of the family. -/
def width : IpAddr → Nat
  | .v4 _ => 32
  | .v6 _ => 128

/-- The length of the run of ones, if only zeros follow. -/
def ones (mask : Vector UInt8 4) : Option Nat :=
  (List.range 33).find? fun n => ntohl mask = 2 ^ 32 - 2 ^ (32 - n)

def strictCidr (addr : IpAddr) (text : List Char) : Option Nat :=
  if '.' ∈ text then
    match addr, ipAddrFromStr inet text with
    | .v4 _, some (.v4 mask) => ones mask
    | _, _ => none
  else numeral (width addr) text

/-- What the code takes for a prefix length. -/
def LooseCidr (addr : IpAddr) (text : List Char) : Prop :=
  if '.' ∈ text then ∃ mask, ipAddrFromStr inet text = some (.v4 mask)
  else 0 ≤ atoi text ∧ atoi text ≤ width addr

/-- The texts in front of the first slash and behind it. -/
def maskParts (str : List Char) : Option (List Char × List Char) :=
  match str.dropWhile (· ≠ '/') with
  | _ :: text@(_ :: _) => some (str.takeWhile (· ≠ '/'), text)
  | _ => none

/-- What `ip_mask_from_str` is to return. -/
def strictMask (str : List Char) : Option IpMask := do
  let (ip, text) ← maskParts str
  if ip.length > inet6AddrStrLen then none
  else
    let addr ← ipAddrFromStr inet ip
    return { addr, cidr := UInt32.ofNat (← strictCidr inet addr text) }

/-- A mask that is none does not pass for one. The text in front of the slash may be so long that
its length is not an `int`: then what is left of the length is too large, too, or as many
characters are no address or followed by what does not pass for a mask. -/
def Strict (ip text : List Char) : Prop :=
  let len := toInt ip.length
  if ip.length ≤ inet6AddrStrLen then
    ∀ addr, ipAddrFromStr inet ip = some addr → LooseCidr inet addr text → strictCidr inet addr text ≠ none
  else inet6AddrStrLen < len ∨
    0 ≤ len ∧ ∀ addr, ipAddrFromStr inet (ip.take len.toNat) = some addr → ¬ LooseCidr inet addr text

lemma atoi_range {text : List Char} : -2 ^ 31 ≤ atoi text ∧ atoi text < 2 ^ 31 := by
  unfold atoi toInt
  split <;> exact ⟨Int.le_bmod (by decide), Int.bmod_lt (by decide)⟩

lemma ones_cidr {mask : Vector UInt8 4} {n : Nat} (h : ones mask = some n) :
    ip4MaskToCidr mask = n ∧ n ≤ 32 := by
  have hn := mem_range.mp (List.mem_of_find?_eq_some h)
  have hh := List.find?_some h
  rw [decide_eq_true_eq] at hh
  rw [ip4MaskToCidr, hh]
  have hha : ∀ n < 33, ((List.range 32).find? (2 ^ 32 - 2 ^ (32 - n) : Nat).testBit).getD 32 = 32 - n := by
    decide +kernel
  rw [hha n hn]
  omega

lemma numeral_atoi {most n : Nat} {text : List Char} (hm : most < 2 ^ 31)
    (h : numeral most text = some n) : atoi text = n ∧ n ≤ most := by
  unfold numeral at h
  split at h
  · next hd =>
    cases h
    obtain ⟨first, rest, rfl⟩ := exists_cons_of_ne_nil hd.1
    rw [all_cons, Bool.and_eq_true] at hd
    exact ⟨atoi_of_digit hd.2.1.1 (by omega), hd.2.2⟩
  · cases h

lemma strict_exact {addr : IpAddr} {text : List Char} {n : Nat}
    (h : strictCidr inet addr text = some n) : ipGetCidr inet text = n ∧ n ≤ width addr := by
  unfold strictCidr at h
  unfold ipGetCidr
  split at h
  · next hdot =>
    rw [if_pos hdot]
    split at h
    · next mask hp =>
      rw [hp]
      exact ones_cidr h
    · cases h
  · next hdot =>
    rw [if_neg hdot]
    exact numeral_atoi (by cases addr <;> simp [width]) h

lemma valid_iff (addr : IpAddr) (cidr : Int) (hlo : -2 ^ 31 ≤ cidr) (hhi : cidr < 2 ^ 31) :
    IpMask.CidrIsValid ⟨addr, ofInt cidr⟩ ↔ 0 ≤ cidr ∧ cidr ≤ width addr := by
  cases addr <;>
    simp only [IpMask.CidrIsValid, width, lt_iff_toNat_lt, ofInt, toNat_ofNat',
      reduceToNat] <;> omega

lemma ip4MaskToCidr_range (mask : Vector UInt8 4) : 0 ≤ ip4MaskToCidr mask ∧ ip4MaskToCidr mask ≤ 32 := by
  unfold ip4MaskToCidr
  cases hf : (List.range 32).find? (ntohl mask).testBit with
  | none => decide
  | some i =>
    have hi := mem_range.mp (List.mem_of_find?_eq_some hf)
    rw [getD_some]
    omega

lemma loose_iff (addr : IpAddr) (text : List Char) :
    IpMask.CidrIsValid ⟨addr, ofInt (ipGetCidr inet text)⟩ ↔ LooseCidr inet addr text := by
  unfold ipGetCidr LooseCidr
  split
  · split
    · next mask hp =>
      have hr := ip4MaskToCidr_range mask
      have hw : 32 ≤ width addr := by cases addr <;> simp [width]
      rw [valid_iff addr _ (by omega) (by omega)]
      exact iff_of_true ⟨hr.1, by omega⟩ ⟨mask, hp⟩
    · next hp =>
      rw [valid_iff addr _ (by decide) (by decide)]
      refine iff_of_false (by omega) ?_
      rintro ⟨mask, h⟩
      exact hp mask h
  · exact valid_iff addr _ (atoi_range).1 (atoi_range).2

/-- What the code makes of an address and a mask. -/
def looseMask (addr : IpAddr) (text : List Char) : Option IpMask :=
  let mask : IpMask := { addr, cidr := ofInt (ipGetCidr inet text) }
  if mask.CidrIsValid then some mask else none

lemma looseMask_eq_none (addr : IpAddr) (text : List Char) :
    looseMask inet addr text = none ↔ ¬ LooseCidr inet addr text := by
  rw [← loose_iff]
  simp [looseMask]

lemma looseMask_strict {addr : IpAddr} {text : List Char} :
    looseMask inet addr text = (strictCidr inet addr text).map (fun n => { addr, cidr := UInt32.ofNat n }) ↔
      (LooseCidr inet addr text → strictCidr inet addr text ≠ none) := by
  cases hstrict : strictCidr inet addr text with
  | none => simp [looseMask_eq_none]
  | some n =>
    obtain ⟨hcidr, hwidth⟩ := strict_exact inet hstrict
    have hsmall : width addr < 2 ^ 31 := by cases addr <;> simp [width]
    have hvalid := (valid_iff addr n (by omega) (by omega)).mpr ⟨by omega, by omega⟩
    rw [looseMask, hcidr, if_pos hvalid, ofInt_natCast]
    simp

lemma toInt_toNat_le {n : Nat} : (toInt n).toNat ≤ n := by
  rw [toInt, Int.bmod_def]
  split <;> omega

lemma ipMaskAddr_eq {str ip text : List Char} (parts : maskParts str = some (ip, text)) : ipMaskAddr str =
    if toInt ip.length > inet6AddrStrLen then .ok none
    else if toInt ip.length < 0 then .error .pastBuffer
    else .ok (some (ip.take (toInt ip.length).toNat)) := by
  have hip : str.takeWhile (· ≠ '/') = ip := by
    rcases hrest : str.dropWhile (· ≠ '/') with _ | ⟨slash, _ | ⟨c, rest⟩⟩ <;>
      rw [maskParts, hrest] at parts <;> cases parts
    rfl
  have hcopied : ∀ k ≤ ip.length, str.take k = ip.take k := by
    intro k hk
    conv_lhs => rw [← takeWhile_append_dropWhile (p := (· ≠ '/')) (l := str), hip, take_append_of_le_length hk]
  rw [ipMaskAddr, hip, hcopied _ toInt_toNat_le]

/-- What it returns. -/
lemma ipMaskFromStr_eq {str ip text : List Char} (parts : maskParts str = some (ip, text)) :
    ipMaskFromStr inet str = (ipMaskAddr str).map fun ip =>
      (ip.bind (ipAddrFromStr inet)).bind fun addr => looseMask inet addr text := by
  rcases hrest : str.dropWhile (· ≠ '/') with _ | ⟨slash, _ | ⟨c, rest⟩⟩
  · rw [maskParts, hrest] at parts
    cases parts
  · rw [maskParts, hrest] at parts
    cases parts
  · rw [maskParts, hrest] at parts
    cases parts
    rw [ipMaskFromStr, hrest]
    cases ipMaskAddr str with
    | error => rfl
    | ok ip =>
      cases haddr : ip.bind (ipAddrFromStr inet) <;>
        simp [bind, Except.bind, pure, Except.pure, Except.map, haddr, looseMask]

/-- A text is taken as it should be, unless its mask is none and passes for one, or so much is in
front of the slash that its length is not an `int`. -/
theorem mask_strict_iff (str : List Char) : ipMaskFromStr inet str = .ok (strictMask inet str) ↔
    ∀ parts ∈ maskParts str, Strict inet parts.1 parts.2 := by
  cases hparts : maskParts str with
  | none =>
    have hnone : ipMaskFromStr inet str = .ok none := by
      rcases hrest : str.dropWhile (· ≠ '/') with _ | ⟨slash, _ | ⟨c, rest⟩⟩
      · rw [ipMaskFromStr, hrest]; rfl
      · rw [ipMaskFromStr, hrest]; rfl
      · rw [maskParts, hrest] at hparts
        cases hparts
    simp [hnone, strictMask, hparts]
  | some parts =>
    obtain ⟨ip, text⟩ := parts
    have hstrict : strictMask inet str = if ip.length > inet6AddrStrLen then none else
        (ipAddrFromStr inet ip).bind fun addr =>
          (strictCidr inet addr text).map fun n => { addr, cidr := UInt32.ofNat n } := by
      simp [strictMask, hparts, Option.map_eq_bind]
    rw [ipMaskFromStr_eq inet hparts, ipMaskAddr_eq hparts, hstrict]
    simp only [Strict, mem_def, some.injEq, forall_eq']
    by_cases hshort : ip.length ≤ inet6AddrStrLen
    · have hlen : toInt ip.length = ip.length := by
        unfold inet6AddrStrLen at hshort
        exact toInt_small (by omega) (by omega)
      rw [if_neg (by omega), if_neg (by omega), if_neg (by omega), if_pos hshort, hlen, Int.toNat_natCast,
        take_length]
      cases haddr : ipAddrFromStr inet ip with
      | none => simp [Except.map, haddr]
      | some addr =>
        rw [Except.map, bind_some, haddr, bind_some, bind_some, Except.ok.injEq]
        simpa using looseMask_strict inet
    · rw [if_pos (Nat.lt_of_not_le hshort), if_neg hshort]
      generalize toInt ip.length = len
      by_cases hlong : len > inet6AddrStrLen
      · rw [if_pos hlong]
        exact iff_of_true rfl (.inl hlong)
      rw [if_neg hlong, or_iff_right hlong]
      by_cases hneg : len < 0
      · rw [if_pos hneg, Except.map]
        exact iff_of_false (by simp) fun inside => Int.not_lt.mpr inside.1 hneg
      rw [if_neg hneg, and_iff_right (Int.not_lt.mp hneg), Except.map, bind_some, Except.ok.injEq]
      cases haddr : ipAddrFromStr inet (ip.take len.toNat) with
      | none => simp
      | some addr => simpa using looseMask_eq_none inet addr text

/-- `inet_pton` for one address. -/
def oneHost : Inet where
  ntop _ := []
  pton4 text := if text = ['1', '.', '1', '.', '1', '.', '1'] then some (.replicate 4 1) else none
  pton6 _ := none

/-- `1.1.1.1/x` is taken for the prefix of length 0. -/
theorem text_taken : ipMaskFromStr oneHost "1.1.1.1/x".toList = .ok (some ⟨.v4 (.replicate 4 1), 0⟩) ∧
    strictMask oneHost "1.1.1.1/x".toList = none := by
  decide

/-! ## Addresses with a port -/

/-- The address of a text, whether it is bracketed, where the port is read and whether behind a
colon, and its text. -/
structure PortParts where
  addr : IpAddr
  bracket : Bool
  start : Nat
  colon : Bool
  text : List Char

/-- The characters up to the first blank. -/
def word (text : List Char) : List Char := text.takeWhile (!isspace ·)

def portParts (str : List Char) : Option PortParts :=
  if str.head? = some '[' then
    match str.dropWhile (· ≠ ']') with
    | [] => none
    | _ :: rest =>
      let front := str.takeWhile (· ≠ ']')
      (ipAddrFromStr inet front.tail).map (⟨·, true, front.length + 2, rest.head? = some ':', rest.tail⟩)
  else
    match str.dropWhile (· ≠ ':') with
    | [] => none
    | _ :: text => (ipAddrFromStr inet (str.takeWhile (· ≠ ':'))).map (⟨·, false, 0, true, text⟩)

/-- What `ip_port_from_str` is to return. -/
def strictPort (str : List Char) : Option IpPort :=
  (portParts inet str).bind fun p =>
    if p.colon then (numeral 65535 (word p.text)).map fun n => ⟨p.addr, htons (UInt16.ofNat n)⟩ else none

/-- Behind a bracket there are only digits up to the first blank; else the first character is no
blank. -/
def PortParts.passes (p : PortParts) : Bool :=
  if p.bracket then (word p.text).all Char.isDigit else !p.text.head?.any isspace

/-- What the code takes for a port. -/
abbrev PortParts.Loose (p : PortParts) : Prop := p.passes = true ∧ 0 ≤ atoi p.text ∧ atoi p.text ≤ 65535

lemma portDigits_eq {text : List Char} : portDigits text = (word text).all Char.isDigit := by
  induction text with
  | nil => rfl
  | cons c text ih =>
    rw [portDigits, ih, word, word]
    cases hs : isspace c <;> cases hd : c.isDigit <;> simp [hs, hd]

lemma portSpaces_eq {text : List Char} : portSpaces text = !text.head?.any isspace := by
  cases text with
  | nil => rfl
  | cons c text => cases hs : isspace c <;> simp [portSpaces, hs, not_isDigit_of_isspace]

/-- What the code makes of the parts. -/
def PortParts.result (p : PortParts) : Option IpPort :=
  if p.Loose then some ⟨p.addr, htons (UInt16.ofNat (atoi p.text).toNat)⟩ else none

lemma result_eq {p : PortParts} : (if p.passes then
      .ok ((portFromStr p.text).map fun port => ⟨p.addr, port⟩) else .ok none : Except Overread _) = .ok p.result := by
  unfold PortParts.result
  by_cases hb : p.passes = true
  · rw [if_pos hb, portFromStr]
    by_cases hr : atoi p.text < 0 ∨ atoi p.text > 65535
    · rw [if_pos hr, if_neg (by omega)]
      rfl
    · rw [if_neg hr, if_pos ⟨hb, by omega, by omega⟩]
      rfl
  · rw [if_neg hb, if_neg fun h => hb h.1]

/-- What it returns for a text that fits into its buffer. -/
lemma ipPortFromStr_eq {str : List Char} (hh : str.length < ipStrLen) : ipPortFromStr inet str =
    match portParts inet str with
    | none => .ok none
    | some p => if p.start ≥ ipStrLen then .error .pastBuffer else .ok p.result := by
  unfold ipPortFromStr portParts
  rw [take_of_length_le (by omega)]
  dsimp only
  split
  · cases str.dropWhile (· ≠ ']') with
    | nil => rfl
    | cons _ rest =>
      cases ipAddrFromStr inet (str.takeWhile (· ≠ ']')).tail with
      | none => rfl
      | some addr => simp only [map_some, ← result_eq, PortParts.passes, portDigits_eq, if_true]
  · cases str.dropWhile (· ≠ ':') with
    | nil => rfl
    | cons _ text =>
      cases ipAddrFromStr inet (str.takeWhile (· ≠ ':')) with
      | none => rfl
      | some addr =>
        simp only [map_some, ← result_eq, PortParts.passes, portSpaces_eq]
        rfl

lemma strtoul_word {text : List Char} : strtoul (word text) = strtoul text := by
  rw [strtoul, strtoul, word, takeWhile_takeWhile]
  congr 2
  funext c
  cases hs : isspace c <;> simp [hs, not_isDigit_of_isspace]

/-- A number passes for a port in either branch. -/
lemma numeral_result {p : PortParts} {n : Nat} (h : numeral 65535 (word p.text) = some n) :
    p.Loose ∧ p.result = some ⟨p.addr, htons (UInt16.ofNat n)⟩ := by
  obtain ⟨⟨hne, hdigits, hmost⟩, hn⟩ := ite_none_right_eq_some.mp h
  cases hn
  rw [strtoul_word] at hmost ⊢
  cases ht : p.text with
  | nil => exact absurd (congrArg word ht) hne
  | cons c rest =>
    cases hs : isspace c with
    | true => simp [word, ht, hs] at hne
    | false =>
      have hc : c.isDigit = true := all_eq_true.mp hdigits c (by simp [word, ht, hs])
      rw [ht] at hmost
      have hh : atoi p.text = strtoul (c :: rest) := by
        rw [ht]
        exact atoi_of_digit hc (by omega)
      have hl : p.Loose := by
        refine ⟨?_, by omega, by omega⟩
        rw [PortParts.passes, hdigits, ht]
        simp [hs]
      exact ⟨hl, by rw [PortParts.result, if_pos hl, hh, Int.toNat_natCast]⟩

/-- A text is taken as it should be, unless the code reads behind its buffer or takes for a port
what is none. -/
theorem port_strict_iff {str : List Char} (hlen : str.length < ipStrLen) :
    ipPortFromStr inet str = .ok (strictPort inet str) ↔ ∀ p ∈ portParts inet str,
      p.start < ipStrLen ∧ (p.Loose → p.colon = true ∧ numeral 65535 (word p.text) ≠ none) := by
  rw [ipPortFromStr_eq inet hlen, strictPort]
  cases portParts inet str with
  | none => simp
  | some p =>
    simp only [bind_some, mem_def, some.injEq, forall_eq']
    by_cases hs : ipStrLen ≤ p.start
    · simp [hs, Nat.not_lt.mpr hs]
    · rw [if_neg hs, and_iff_right (Nat.lt_of_not_le hs), Except.ok.injEq]
      cases hn : numeral 65535 (word p.text) with
      | none => simp [PortParts.result]
      | some n =>
        obtain ⟨hl, hr⟩ := numeral_result hn
        rw [hr]
        simp [hl]

theorem port_strict_iff_plain :
    ipPortFromStr oneHost "1.1.1.1:8".toList = .ok (strictPort oneHost "1.1.1.1:8".toList) :=
  (port_strict_iff oneHost (by decide)).mpr (by decide)

/-- `1.1.1.1:x` is taken for port 0. -/
theorem port_taken : ipPortFromStr oneHost "1.1.1.1:x".toList = .ok (some ⟨.v4 (.replicate 4 1), 0⟩) ∧
    strictPort oneHost "1.1.1.1:x".toList = none :=
  ⟨rfl, by decide⟩

end Fzsvn.Guarantees.Netutil.LooseTexts
