import Fzsvn.Library.BigEndian
import Fzsvn.Library.MachineInt

/-!
# Addresses

Embedding of `network/netutil/ip_addr.c`: an address of either family with a port
(`ip_port_t`) or a netmask (`ip_mask_t`), its order and its text. An address is kept as the
bytes that stand in `_addr`, in network order. The arguments are not NULL, and a text is its
characters without the NUL. Of the C library, `inet_ntop` and `inet_pton` are parameters.
-/
namespace Fzsvn.Source.Netutil
open Library.BigEndian Library.MachineInt

/-- `IP_STR_LEN`. -/
def ipStrLen : Nat := 128

/-- `INET6_ADDRSTRLEN`. -/
def inet6AddrStrLen : Nat := 46

/-- `ip_addr_t`: `family` with the member of the union that goes with it. -/
inductive IpAddr where
  | v4 (addr : Vector UInt8 4)
  | v6 (addr : Vector UInt8 16)
  deriving DecidableEq

/-- `port` is in network byte order. -/
structure IpPort where
  addr : IpAddr
  port : UInt16
  deriving DecidableEq

structure IpMask where
  addr : IpAddr
  cidr : UInt32
  deriving DecidableEq

/-- The host is little-endian, so the two bytes change places. -/
def ntohs (n : UInt16) : UInt16 := UInt16.ofNat (n.toNat % 256 * 256 + n.toNat / 256)

lemma toNat_ntohs {n : UInt16} : (ntohs n).toNat = n.toNat % 256 * 256 + n.toNat / 256 := by
  have bound := n.toNat_lt
  rw [ntohs, UInt16.toNat_ofNat', Nat.mod_eq_of_lt (by omega)]

lemma ntohs_ntohs (n : UInt16) : ntohs (ntohs n) = n := by
  have bound := n.toNat_lt
  rw [← UInt16.toNat_inj, toNat_ntohs, toNat_ntohs]
  omega

def htons (n : UInt16) : UInt16 := ntohs n

def ntohl (addr : Vector UInt8 4) : Nat := number addr.toList

/-- The bytes of the IPv6 address. -/
def ipAddrV4ToV6 : IpAddr → Option (Vector UInt8 16)
  | .v4 addr => some ((#v[0, 0, 0, 0, 0, 0, 0, 0, 0, 0, 0xFF, 0xFF] : Vector UInt8 12) ++ addr)
  | .v6 _ => none

def ipAddrCompare : IpAddr → IpAddr → Int
  | .v4 addr, .v4 addr' =>
    let lv := ntohl addr
    let rv := ntohl addr'
    if lv = rv then 0 else if lv < rv then -1 else 1
  | .v6 addr, .v6 addr' => memcmp addr.toList addr'.toList
  | .v4 _, .v6 addr' =>
    -- The second address is converted here too, and not the first.
    match ipAddrV4ToV6 (.v6 addr') with
    | none => -1
    | some v6 => memcmp v6.toList addr'.toList
  | .v6 addr, .v4 addr' =>
    match ipAddrV4ToV6 (.v4 addr') with
    | none => -1
    | some v6 => memcmp addr.toList v6.toList

def ipPortCompare (ip1 ip2 : IpPort) : Int :=
  let ret := ipAddrCompare ip1.addr ip2.addr
  if ret ≠ 0 then ret else ((ntohs ip1.port).toNat : Int) - (ntohs ip2.port).toNat

/-! ## Texts -/

/-- `inet_ntop` and, for each family, `inet_pton`. -/
structure Inet where
  ntop : IpAddr → List Char
  pton4 : List Char → Option (Vector UInt8 4)
  pton6 : List Char → Option (Vector UInt8 16)

def isspace (c : Char) : Bool :=
  c = ' ' || c = '\t' || c = '\n' || c = '\x0b' || c = '\x0c' || c = '\r'

/-- The number that the leading digits make. -/
def strtoul (str : List Char) : Nat := Nat.ofDigitChars 10 (str.takeWhile Char.isDigit) 0

/-- The value is that of `strtol`, which saturates, converted to `int`. -/
def atoi (str : List Char) : Int :=
  match str.dropWhile isspace with
  | '-' :: rest => toInt (-(min (strtoul rest) (2 ^ 63) : Nat))
  | '+' :: rest => toInt (min (strtoul rest) (2 ^ 63 - 1) : Nat)
  | rest => toInt (min (strtoul rest) (2 ^ 63 - 1) : Nat)

/-- `%u`, and `%d` of a number that is not negative. -/
def decimal (n : Nat) : List Char := Nat.toDigits 10 n

/-- The text that `snprintf` leaves in a buffer of `size` bytes. -/
def snprintf (size : Nat) (text : List Char) : List Char := text.take (size - 1)

variable (inet : Inet)

def ipAddrFromStr (str : List Char) : Option IpAddr :=
  if ':' ∈ str then (inet.pton6 str).map .v6 else (inet.pton4 str).map .v4

def ipAddrToStr (ip : IpAddr) (len : Nat) : Option (List Char) :=
  if len < ipStrLen then none
  else
    let text := inet.ntop ip
    if text.length < len then some text else none

/-- The lowest bit that is set is bit `32 - cidr`. -/
def ip4MaskToCidr (mask : Vector UInt8 4) : Int :=
  32 - ((List.range 32).find? (ntohl mask).testBit).getD 32

def ipGetCidr (str : List Char) : Int :=
  if '.' ∈ str then
    match ipAddrFromStr inet str with
    | some (.v4 addr) => ip4MaskToCidr addr
    | _ => -1
  else atoi str

/-- `IP_MASK_CIDR_IS_VALID`. -/
def IpMask.CidrIsValid (mask : IpMask) : Prop :=
  mask.cidr <
    match mask.addr with
    | .v4 _ => 33
    | .v6 _ => 129

instance (mask : IpMask) : Decidable mask.CidrIsValid := inferInstanceAs (Decidable (_ < _))

/-- The access behind a buffer that the parsers can make. -/
inductive Overread where
  | pastBuffer
  deriving DecidableEq

/-- The copy of the text in front of the slash, whose length is an `int`; `none` if it is too long.
A negative length makes `strncpy` write behind its buffer. -/
def ipMaskAddr (str : List Char) : Except Overread (Option (List Char)) :=
  let len := toInt (str.takeWhile (· ≠ '/')).length
  if len > inet6AddrStrLen then .ok none
  else if len < 0 then .error .pastBuffer
  else .ok (some (str.take len.toNat))

def ipMaskFromStr (str : List Char) : Except Overread (Option IpMask) :=
  match str.dropWhile (· ≠ '/') with
  | _ :: sep@(_ :: _) => do
    let cidr := UInt32.ofInt (ipGetCidr inet sep)
    match (← ipMaskAddr str).bind (ipAddrFromStr inet) with
    | none => return none
    | some addr =>
      let mask : IpMask := { addr, cidr }
      return if mask.CidrIsValid then some mask else none
  | _ => return none

def ipMaskToStr (mask : IpMask) (len : Nat) : Option (List Char) :=
  if len < ipStrLen then none
  else
    match ipAddrToStr inet mask.addr ipStrLen with
    | none => none
    | some ip =>
      if mask.CidrIsValid then some (snprintf len (ip ++ '/' :: decimal mask.cidr.toNat))
      else none

/-- The loop over the port in the branch of `[x:x:x:x...]:x`. -/
def portDigits : List Char → Bool
  | [] => true
  | c :: rest => if isspace c then true else if !c.isDigit then false else portDigits rest

/-- The loop over the port in the branch of `x.x.x.x:x`: it stops at the first character that
is *not* a space. -/
def portSpaces : List Char → Bool
  | [] => true
  | c :: rest => if !isspace c then true else if !c.isDigit then false else portSpaces rest

/-- The port of a text that passed the loop, in network byte order. -/
def portFromStr (str : List Char) : Option UInt16 :=
  let port := atoi str
  if port < 0 ∨ port > 65535 then none else some (htons (UInt16.ofNat port.toNat))

def ipPortFromStr (str : List Char) : Except Overread (Option IpPort) :=
  let buf := str.take (ipStrLen - 1)
  if buf.head? = some '[' then
    match buf.dropWhile (· ≠ ']') with
    | [] => .ok none
    | _ :: rest =>
      let front := buf.takeWhile (· ≠ ']')
      match ipAddrFromStr inet front.tail with
      | none => .ok none
      | some addr =>
        -- ptr1 skips the bracket and one character more, if there is one or not.
        if front.length + 2 ≥ ipStrLen then .error .pastBuffer
        else
          let port := rest.tail
          if portDigits port then .ok ((portFromStr port).map fun port => { addr, port })
          else .ok none
  else
    match buf.dropWhile (· ≠ ':') with
    | [] => .ok none
    | _ :: port =>
      match ipAddrFromStr inet (buf.takeWhile (· ≠ ':')) with
      | none => .ok none
      | some addr =>
        if portSpaces port then .ok ((portFromStr port).map fun port => { addr, port })
        else .ok none

def ipPortToStr (ip : IpPort) (len : Nat) : Option (List Char) :=
  if len < ipStrLen then none
  else
    match ipAddrToStr inet ip.addr ipStrLen with
    | none => none
    | some str =>
      let port := ntohs ip.port
      some ((snprintf (len - 1) ('[' :: str ++ ']' :: ':' :: decimal port.toNat)).take (len - 1))

/-! ## Netmasks -/

inductive Family where
  | afInet
  | afInet6
  deriving DecidableEq

def IpAddr.family : IpAddr → Family
  | .v4 _ => .afInet
  | .v6 _ => .afInet6

/-- The bytes from `_addr` on: the address, and `past` behind it. -/
def IpAddr.memory : IpAddr → (Nat → UInt8) → Nat → UInt8
  | .v4 addr, past, i => addr.getD i (past i)
  | .v6 addr, past, i => addr.getD i (past i)

/-- `_s_mask_partial`. -/
def sMaskPartial (i : Nat) : UInt8 :=
  [0x00, 0x80, 0xc0, 0xe0, 0xf0, 0xf8, 0xfc, 0xfe, 0xff].getD i 0

/-- What `_ip4_apply_mask` and `_ip6_apply_mask` do with the bytes, after the check of `cidr`:
both loops end at byte 16. -/
def applyMask (ptr : Nat → UInt8) (cidr : Nat) : Nat → UInt8 :=
  let whole := cidr / 8
  let rest := cidr % 8
  let start := if rest ≠ 0 then whole + 1 else whole
  fun i =>
    if start ≤ i ∧ i < 16 then 0
    else if rest ≠ 0 ∧ i = whole + 1 then ptr i &&& sMaskPartial rest
    else ptr i

def ip4ApplyMask (ptr : Nat → UInt8) (cidr : Int) : Option (Nat → UInt8) :=
  if cidr < 1 ∨ cidr > 31 then none else some (applyMask ptr cidr.toNat)

def ip6ApplyMask (ptr : Nat → UInt8) (cidr : Int) : Option (Nat → UInt8) :=
  if cidr < 1 ∨ cidr > 128 then none else some (applyMask ptr cidr.toNat)

/-- The bytes from `_addr` on after the call. -/
def ipAddrApplyMask (ip : IpAddr) (past : Nat → UInt8) (cidr : Int) : Option (Nat → UInt8) :=
  match ip with
  | .v4 _ => ip4ApplyMask (ip.memory past) cidr
  | .v6 _ => ip6ApplyMask (ip.memory past) cidr

/-- `past` is what stands behind the copy `netaddr`. -/
def ip6IsNetaddr (ip6 : Vector UInt8 16) (past : Nat → UInt8) (cidr : Int) : Bool :=
  if cidr < 0 ∨ cidr > 128 then false
  else if cidr = 128 then true
  else
    match ip6ApplyMask (IpAddr.memory (.v6 ip6) past) cidr with
    | none => false
    | some netaddr => (List.range 16).all fun i => IpAddr.memory (.v6 ip6) past i == netaddr i

/-- `past` and `past'` stand behind the two addresses. -/
def ipMaskMatch (past past' : Nat → UInt8) (mask : IpMask) (ip : IpAddr) : Bool :=
  if mask.addr.family ≠ ip.family then false
  else if mask.cidr = 0 then true
  else
    let whole := mask.cidr.toNat / 8
    let addr := mask.addr.memory past
    let addr' := ip.memory past'
    if ∃ i < whole, addr i ≠ addr' i then false
    else
      let mask := sMaskPartial (mask.cidr.toNat % 8)
      addr whole &&& mask == addr' whole &&& mask

end Fzsvn.Source.Netutil
