import Fzsvn.Source.Netlink.Libnetlink
import Fzsvn.Library.Fallible

/-!
# The attribute codec

Adding attributes to a message and parsing them again. `rtnl_add_attr` writes the length of
the payload to `rta_len`, where `rtnl_parse_attr` expects that of header and payload, and
its check leaves no room for the header. So what is parsed at the place of the first
attribute is shorter than what was added there, and the codec is right only as long as
nothing is added. On any other bytes the parser stays inside the area that it is given
exactly if every attribute is followed by its padding there.
-/
namespace Fzsvn.Guarantees.Netlink.AttributeCodec
open Library.Block hiding store
open Library.LittleEndian Library.MachineInt Library.Fallible Source.Netlink List UInt16

/-! ## Messages and calls -/

/-- The header is in the message, the message in the buffer, and every length that it may
get, aligned, is a `__u32`. -/
structure WellFormed (bytes : List UInt8) : Prop where
  header : 16 ≤ nlmsgLen bytes
  ends : nlmsgLen bytes ≤ bytes.length
  small : bytes.length + 3 < 2 ^ 32

structure Message where
  bytes : List UInt8
  wellFormed : WellFormed bytes

structure Attr where
  type : Nat
  data : List UInt8
  deriving DecidableEq

structure Attrs (max : Nat) where
  list : List Attr
  range : ∀ a ∈ list, 1 ≤ a.type ∧ a.type ≤ max
  distinct : (list.map Attr.type).Nodup

/-- A call of `rtnl_add_attr` for each attribute: those that were added, and the message. -/
def addAttrs (bytes : List UInt8) : List Attr → Except Fault (List Attr × List UInt8)
  | [] => .ok ([], bytes)
  | a :: rest => do
    let (success, bytes) ← rtnlAddAttr bytes bytes.length a.type a.data
    let (added, bytes) ← addAttrs bytes rest
    return (if success then a :: added else added, bytes)

/-- Where the attributes begin. -/
def area (bytes : List UInt8) : Nat := nlmsgAlign (nlmsgLen bytes)

/-- No write is outside the buffer, nor does the message grow out of it, and the attributes
that were added, and no others, are parsed, each of them once. -/
structure Right (m : Message) {max : Nat} (attrs : Attrs max) : Prop where
  inside : ∀ before, before <+: attrs.list →
    ∃ added bytes, addAttrs m.bytes before = .ok (added, bytes) ∧ nlmsgLen bytes ≤ m.bytes.length
  parsed : ∃ added bytes found, addAttrs m.bytes attrs.list = .ok (added, bytes) ∧
    rtnlParseAttr bytes max (area m.bytes) (nlmsgLen bytes - area m.bytes) = .ok found ∧
    (∀ a ∈ added, ∃ rta, found.filter (·.1 = a.type) = [(a.type, rta)] ∧ rtaData bytes rta = .ok a.data) ∧
    ∀ entry ∈ found, ∃ a ∈ added, a.type = entry.1

/-! ## One call -/

/-- The check of `rtnl_add_attr`. -/
def Room (bytes data : List UInt8) : Prop := toSize (area bytes + data.length) ≤ bytes.length

variable {bytes bytes' data : List UInt8} {type : Int} {pos : Nat}

/-- What a write does to the buffer. -/
structure Stored (bytes : List UInt8) (pos : Nat) (data bytes' : List UInt8) : Prop where
  inside : pos + data.length ≤ bytes.length
  length : bytes'.length = bytes.length
  here : slice bytes' pos data.length = data
  frame : ∀ {start len}, start + len ≤ pos ∨ pos + data.length ≤ start →
    slice bytes' start len = slice bytes start len

lemma store_gives : Gives (store bytes pos data) (Stored bytes pos data) := by
  unfold store
  rw [gives_ite]
  refine ⟨fun hi => ?_, fun _ => gives_error _⟩
  have hr : pos ≤ bytes.length := Nat.le_of_add_right_le hi
  exact (gives_ok _).mpr ⟨hi, overwrite_length hi, slice_overwrite hr, slice_overwrite_frame hr⟩

/-- The copy of the payload, which may be empty. -/
lemma copy_gives (hr : pos ≤ bytes.length) :
    Gives (if data.length > 0 then store bytes pos data else .ok bytes) (Stored bytes pos data) := by
  rw [gives_ite]
  refine ⟨fun _ => store_gives, fun hn => (gives_ok _).mpr ?_⟩
  have none : data = [] := List.length_eq_zero_iff.mp (Nat.eq_zero_of_not_pos hn)
  subst none
  exact ⟨hr, rfl, take_zero, fun _ => rfl⟩

lemma area_eq (wf : WellFormed bytes) : area bytes = (nlmsgLen bytes + 3) / 4 * 4 := by
  have ends := wf.ends
  have hs := wf.small
  rw [area, nlmsgAlign, Nat.mod_eq_of_lt (by omega)]

lemma Stored.nlmsgLen_frame (hs : Stored bytes pos data bytes') (hb : 4 ≤ pos) :
    nlmsgLen bytes' = nlmsgLen bytes := by
  rw [nlmsgLen, hs.frame (.inl (by omega)), nlmsgLen]

lemma Stored.nlmsgLen_eq {word : UInt32} (hs : Stored bytes 0 (bytes32 word) bytes') :
    nlmsgLen bytes' = word.toNat := by
  have hr := word32_bytes32 word []
  rw [append_nil] at hr
  rw [nlmsgLen, show slice bytes' 0 4 = bytes32 word from hs.here, hr]

/-- What a call leaves alone. -/
structure Keeps (bytes bytes' : List UInt8) : Prop where
  length : bytes'.length = bytes.length
  grows : nlmsgLen bytes ≤ nlmsgLen bytes'
  ends : nlmsgLen bytes' ≤ bytes.length
  frame : ∀ pos len, 4 ≤ pos → pos + len ≤ nlmsgLen bytes → slice bytes' pos len = slice bytes pos len

lemma Keeps.refl (wf : WellFormed bytes) : Keeps bytes bytes :=
  ⟨rfl, Nat.le_refl _, wf.ends, fun _ _ _ _ => rfl⟩

lemma Keeps.wellFormed (wf : WellFormed bytes) (hk : Keeps bytes bytes') : WellFormed bytes' where
  header := Nat.le_trans wf.header hk.grows
  ends := hk.length ▸ hk.ends
  small := hk.length ▸ wf.small

lemma Keeps.trans {last : List UInt8} (hf : Keeps bytes bytes') (hs : Keeps bytes' last) :
    Keeps bytes last where
  length := hs.length.trans hf.length
  grows := Nat.le_trans hf.grows hs.grows
  ends := hf.length ▸ hs.ends
  frame pos len hb inside :=
    (hs.frame pos len hb (Nat.le_trans inside hf.grows)).trans (hf.frame pos len hb inside)

/-- What an attribute looks like in the message. -/
structure Written (bytes : List UInt8) (rta : Nat) (type : Int) (data : List UInt8) : Prop where
  len : slice bytes rta 2 = bytes16 (.ofNat data.length)
  type : slice bytes (rta + 2) 2 = bytes16 (.ofInt type)
  ends : rta + 4 + data.length ≤ nlmsgLen bytes

lemma rtnlAddAttr_full (hf : ¬ Room bytes data) :
    rtnlAddAttr bytes bytes.length type data = .ok (false, bytes) :=
  if_pos (Nat.lt_of_not_le hf)

/-- The new `nlmsg_len`, for a message that ends in the buffer. -/
lemma newLength {rta dlen : Nat} (hs : rta + 4 + dlen < 2 ^ 32) :
    (UInt32.ofInt (rta + toInt (rtaLength dlen))).toNat = rta + 4 + dlen := by
  have ha : ((rtaLength dlen : Nat) : Int) = 4 + dlen := by
    rw [rtaLength, toSize_small (by omega) (by change ((4 : Nat) : Int) + dlen < _; omega)]
    rfl
  have sum : ((rta : Int) + toInt (4 + dlen)) % 2 ^ 32 = rta + 4 + dlen := by
    rw [Int.add_emod, toInt, ← Nat.cast_ofNat, ← Nat.cast_pow, Int.bmod_emod, ← Int.add_emod]
    omega
  rw [ha, UInt32.ofInt, sum, UInt32.toNat_ofNat']
  omega

lemma rtnlAddAttr_room (wf : WellFormed bytes) (hr : Room bytes data) :
    Gives (rtnlAddAttr bytes bytes.length type data) fun (success, bytes') =>
      success = true ∧ Keeps bytes bytes' ∧ Written bytes' (area bytes) type data := by
  have hh := wf.header
  have hs := wf.small
  have start := area_eq wf
  unfold rtnlAddAttr
  rw [gives_ite]
  refine ⟨fun hf => absurd hr (Nat.not_le.mpr hf), fun _ => ?_⟩
  simp only [gives_bind]
  change Gives (store bytes (area bytes + 2) _) _
  refine Gives.mono store_gives fun b1 typed => ?_
  change Gives (store b1 (area bytes) _) _
  refine Gives.mono store_gives fun b2 sized => ?_
  have ht : area bytes + 2 + 2 ≤ bytes.length := typed.inside
  have hl : b2.length = bytes.length := sized.length.trans typed.length
  change Gives (if data.length > 0 then store b2 (area bytes + 4) data else .ok b2) _
  refine Gives.mono (copy_gives (hl ▸ ht)) fun b3 hc => ?_
  have hi : area bytes + 4 + data.length ≤ bytes.length := hl ▸ hc.inside
  have he : nlmsgLen b3 = nlmsgLen bytes := by
    rw [hc.nlmsgLen_frame (by omega), sized.nlmsgLen_frame (by omega), typed.nlmsgLen_frame (by omega)]
  refine Gives.mono store_gives fun b4 counted => (gives_pure _).mpr ?_
  have hg : nlmsgLen b4 = area bytes + 4 + data.length := by
    rw [counted.nlmsgLen_eq, he]
    exact newLength (show area bytes + 4 + data.length < 2 ^ 32 by omega)
  dsimp only
  refine ⟨rfl, ⟨?_, ?_, ?_, ?_⟩, ⟨?_, ?_, ?_⟩⟩
  · rw [counted.length, hc.length, hl]
  · omega
  · omega
  · intro pos len hb inMessage
    rw [counted.frame (.inr hb), hc.frame (.inl (by omega)), sized.frame (.inl (by omega)),
      typed.frame (.inl (by omega))]
  · rw [counted.frame (.inr (by change 4 ≤ _; omega)), hc.frame (.inl (by omega))]
    exact sized.here
  · rw [counted.frame (.inr (by change 4 ≤ _; omega)), hc.frame (.inl (by omega)),
      sized.frame (.inr (show area bytes + 2 ≤ area bytes + 2 from Nat.le_refl _))]
    exact typed.here
  · exact hg.ge

lemma Written.keeps {rta : Nat} (hw : Written bytes rta type data) (hb : 4 ≤ rta)
    (hk : Keeps bytes bytes') : Written bytes' rta type data := by
  have ends := hw.ends
  refine ⟨?_, ?_, Nat.le_trans ends hk.grows⟩
  · rw [hk.frame rta 2 hb (by omega)]
    exact hw.len
  · rw [hk.frame (rta + 2) 2 (by omega) (by omega)]
    exact hw.type

/-! ## All calls -/

variable {list : List Attr}

/-- As long as there is no room, nothing happens. -/
lemma addAttrs_full (hf : ∀ a ∈ list, ¬ Room bytes a.data) : addAttrs bytes list = .ok ([], bytes) := by
  induction list with
  | nil => rfl
  | cons a rest ih =>
    have hr : rtnlAddAttr bytes bytes.length a.type a.data = .ok (false, bytes) :=
      rtnlAddAttr_full (hf a mem_cons_self)
    have ho := ih fun b hm => hf b (mem_cons_of_mem a hm)
    simp [addAttrs, hr, ho, bind, Except.bind, pure, Except.pure]

lemma addAttrs_keeps (wf : WellFormed bytes) :
    Gives (addAttrs bytes list) fun (_, bytes') => Keeps bytes bytes' := by
  induction list generalizing bytes with
  | nil => exact (gives_ok _).mpr (.refl wf)
  | cons a rest ih =>
    rw [addAttrs, gives_bind]
    have one : Gives (rtnlAddAttr bytes bytes.length a.type a.data) fun (_, bytes') => Keeps bytes bytes' := by
      by_cases hr : Room bytes a.data
      · exact Gives.mono (rtnlAddAttr_room wf hr) fun _ hg => hg.2.1
      · rw [rtnlAddAttr_full hr]
        exact (gives_ok _).mpr (.refl wf)
    refine Gives.mono one ?_
    rintro ⟨success, bytes1⟩ first
    rw [gives_bind]
    exact Gives.mono (ih (first.wellFormed wf)) fun _ hs => (gives_pure _).mpr (first.trans hs)

/-- The first attribute for which there is room stays where it was written. -/
lemma addAttrs_first (wf : WellFormed bytes) (some : ∃ a ∈ list, Room bytes a.data) :
    Gives (addAttrs bytes list) fun (added, bytes') =>
      ∃ a ∈ added, a ∈ list ∧ Written bytes' (area bytes) a.type a.data := by
  have hh := wf.header
  have hs := area_eq wf
  induction list with
  | nil =>
    obtain ⟨a, hm, -⟩ := some
    cases hm
  | cons a rest ih =>
    rw [addAttrs, gives_bind]
    by_cases hr : Room bytes a.data
    · refine Gives.mono (rtnlAddAttr_room wf hr) ?_
      rintro ⟨_, bytes1⟩ ⟨rfl, first, hw⟩
      rw [gives_bind]
      refine Gives.mono (addAttrs_keeps (first.wellFormed wf)) ?_
      rintro ⟨added, bytes2⟩ hl
      exact (gives_pure _).mpr ⟨a, mem_cons_self, mem_cons_self, hw.keeps (by omega) hl⟩
    · rw [rtnlAddAttr_full hr, gives_ok, gives_bind]
      obtain ⟨b, hm, hf⟩ := some
      have hi : b ∈ rest := (mem_cons.mp hm).resolve_left fun he => hr (he ▸ hf)
      refine Gives.mono (ih ⟨b, hi, hf⟩) ?_
      rintro ⟨added, bytes2⟩ ⟨c, inAdded, inList, hw⟩
      exact (gives_pure _).mpr ⟨c, inAdded, mem_cons_of_mem a inList, hw⟩

/-! ## Parsing -/

section

variable {rta len : Nat} {nrtb : Int}

lemma rtaOk_least {size : Nat} (hc : rtaOk bytes rta len = .ok true)
    (hs : rtaLen bytes rta = .ok size) : rtattrSize ≤ size := by
  rw [rtaOk, hs] at hc
  split_ifs at hc
  · exact (of_decide_eq_true (Except.ok.inj hc)).1
  · cases hc

/-- A turn of the loop. -/
lemma parseLoop_turn {fuel : Nat} : Gives (parseLoop bytes nrtb (fuel + 1) rta len) fun found =>
    found = [] ∨ ∃ size type rest, rtaLen bytes rta = .ok size ∧ rtaType bytes rta = .ok type ∧
      rtattrSize ≤ size ∧
      parseLoop bytes nrtb fuel (rta + rtaAlign size) (toSize (len - rtaAlign size)) = .ok rest ∧
      found = if (type : Int) ≤ nrtb then (type, rta) :: rest else rest := by
  rw [parseLoop, gives_bind]
  intro ok hc
  cases ok with
  | false => exact (gives_pure _).mpr (.inl rfl)
  | true =>
    rw [if_pos rfl]
    simp only [gives_bind]
    intro type ht size hs rest hp
    exact (gives_pure _).mpr (.inr ⟨size, type, rest, hs, ht, rtaOk_least hc hs, hp, rfl⟩)

lemma rtaType_lt : Gives (rtaType bytes rta) fun type => type < 2 ^ 16 := by
  rw [rtaType, gives_bind]
  exact fun _ _ => (gives_pure _).mpr (toNat_lt _)

lemma parseLoop_types {fuel : Nat} : Gives (parseLoop bytes nrtb fuel rta len) fun found =>
    ∀ entry ∈ found, entry.1 < 2 ^ 16 := by
  induction fuel generalizing rta len with
  | zero => exact gives_error _
  | succ fuel ih =>
    refine Gives.mono parseLoop_turn ?_
    rintro _ (rfl | ⟨size, type, rest, -, ht, -, hp, rfl⟩) entry hm
    · cases hm
    · have ho := ih rest hp
      split_ifs at hm with hs
      · rcases mem_cons.mp hm with rfl | hi
        · exact rtaType_lt type ht
        · exact ho entry hi
      · exact ho entry hm

variable {attr : Attr} (hw : Written bytes rta attr.type attr.data)
include hw

section

variable (ends : nlmsgLen bytes ≤ bytes.length)
include ends

lemma rtaLen_written : rtaLen bytes rta = .ok (attr.data.length % 2 ^ 16) := by
  have hi := hw.ends
  have hr := word16_bytes16 (.ofNat attr.data.length) []
  rw [append_nil] at hr
  rw [rtaLen, load, if_pos (by omega), hw.len]
  change Except.ok _ = _
  rw [hr, toNat_ofNat']

lemma rtaType_written : rtaType bytes rta = .ok (attr.type % 2 ^ 16) := by
  have hi := hw.ends
  have hr := word16_bytes16 (.ofInt attr.type) []
  rw [append_nil] at hr
  rw [rtaType, load, if_pos (by omega), hw.type]
  change Except.ok _ = _
  rw [hr, ofInt, toNat_ofNat']
  congr 1
  omega

/-- At the place of an attribute less is parsed than was added. -/
lemma not_parsed {found : List (Nat × Nat)} {max fuel : Nat} (inRange : attr.type ≤ max)
    (hp : parseLoop bytes max (fuel + 1) rta len = .ok found) :
    ¬ ∃ rta', found.filter (·.1 = attr.type) = [(attr.type, rta')] ∧ rtaData bytes rta' = .ok attr.data := by
  rintro ⟨rta', ho, payload⟩
  have hm : (attr.type, rta') ∈ found.filter (·.1 = attr.type) := ho ▸ mem_singleton.mpr rfl
  have hs : attr.type < 2 ^ 16 := parseLoop_types found hp _ (mem_of_mem_filter hm)
  rcases parseLoop_turn found hp with rfl | ⟨size, type, rest, sized, ht, least, -, rfl⟩
  · cases ho
  · rw [rtaType_written hw ends, Nat.mod_eq_of_lt hs] at ht
    cases ht
    -- The attribute at `rta` has the type, so it is the one.
    rw [if_pos (by omega), filter_cons_of_pos (by simp)] at ho
    obtain ⟨hh, -⟩ := List.cons.inj ho
    cases hh
    have loaded : load bytes (rta + rtattrSize) (size - rtattrSize) = .ok attr.data := by
      rw [rtaData, sized] at payload
      exact payload
    rw [rtaLen_written hw ends] at sized
    cases sized
    unfold load at loaded
    split_ifs at loaded with hi
    have hl := slice_length hi
    rw [Except.ok.inj loaded] at hl
    have less := Nat.mod_le attr.data.length (2 ^ 16)
    unfold rtattrSize at hl least
    omega

end

end

/-! ## The codec -/

variable {max : Nat} {m : Message} {attrs : Attrs max}

lemma right_of_full (hf : ∀ a ∈ attrs.list, ¬ Room m.bytes a.data) : Right m attrs := by
  have hs := area_eq m.wellFormed
  refine ⟨fun before hp => ⟨[], m.bytes, ?_, m.wellFormed.ends⟩,
    [], m.bytes, [], addAttrs_full hf, ?_, nofun, nofun⟩
  · exact addAttrs_full fun a hm => hf a (hp.subset hm)
  · -- The area is empty.
    rw [Nat.sub_eq_zero_of_le (by omega), rtnlParseAttr, parseLoop, rtaOk, if_neg (by decide)]
    rfl

lemma wrong_of_room {a : Attr} (hm : a ∈ attrs.list) (hr : Room m.bytes a.data) :
    ¬ Right m attrs := by
  rintro ⟨-, added, bytes, found, made, hp, hb, -⟩
  obtain ⟨b, hi, inList, hw⟩ :=
    addAttrs_first m.wellFormed ⟨a, hm, hr⟩ (added, bytes) made
  have hk := addAttrs_keeps m.wellFormed (added, bytes) made
  exact not_parsed hw (hk.wellFormed m.wellFormed).ends (attrs.range b inList).2 hp
    (hb b hi)

/-- The codec is right if and only if there is room for none of the attributes. -/
theorem codec_right_iff (m : Message) (max : Nat) (attrs : Attrs max) :
    Right m attrs ↔ ∀ a ∈ attrs.list, m.bytes.length < toSize (nlmsgAlign (nlmsgLen m.bytes) + a.data.length) := by
  constructor
  · intro right a hm
    exact Nat.lt_of_not_le fun hr => wrong_of_room hm hr right
  · intro hf
    exact right_of_full fun a hm => Nat.not_le.mpr (hf a hm)

/-- The header of a message in a buffer of 32 bytes. -/
def emptyMessage : Message where
  bytes := bytes32 16 ++ List.replicate 28 0
  wellFormed := ⟨by decide, by decide, by decide⟩

/-- One attribute of type 1 with a payload of four bytes. -/
def oneAttr : Attrs 1 where
  list := [⟨1, [1, 2, 3, 4]⟩]
  range := by decide
  distinct := by decide

/-- There is room for it, and it is not parsed as it was added. -/
theorem oneAttr_wrong : ¬ Right emptyMessage oneAttr :=
  wrong_of_room mem_cons_self (by unfold Room; decide)

/-! ## The area of the parser -/

/-- The `rta_len` that is read at `rta`. -/
def sizeAt (bytes : List UInt8) (rta : Nat) : Nat := (word16 (slice bytes rta 2)).toNat

/-- From `rta` on there are `len` bytes, and every attribute taken there ends, with its
padding, inside of them. -/
inductive Padded (bytes : List UInt8) : Nat → Nat → Prop
  | ends {rta len : Nat} (past : len < 4 ∨ sizeAt bytes rta < 4 ∨ len < sizeAt bytes rta) :
    Padded bytes rta len
  | next {rta len : Nat} (fits : rtaAlign (sizeAt bytes rta) ≤ len)
    (rest : Padded bytes (rta + rtaAlign (sizeAt bytes rta)) (len - rtaAlign (sizeAt bytes rta))) :
    Padded bytes rta len

/-- Every table entry that is written is one of `rtb[0..nrtb]`. -/
def Bounded (nrtb : Int) (run : Except Fault (List (Nat × Nat))) : Prop :=
  Yields run fun found => ∀ entry ∈ found, (entry.1 : Int) ≤ nrtb

section

variable {rta len fuel : Nat} {nrtb : Int}

lemma parseLoop_over (hi : rta + len ≤ bytes.length)
    (hp : len < 4 ∨ sizeAt bytes rta < 4 ∨ len < sizeAt bytes rta) :
    parseLoop bytes nrtb (fuel + 1) rta len = .ok [] := by
  have hc : rtaOk bytes rta len = .ok false := by
    unfold rtaOk rtattrSize
    split_ifs with hh
    · rw [rtaLen, load, if_pos (by omega)]
      change Except.ok (decide (sizeAt bytes rta ≥ 4 ∧ sizeAt bytes rta ≤ len)) = _
      rw [decide_eq_false (by omega)]
    · rfl
  rw [parseLoop, hc]
  rfl

lemma parseLoop_takes (hi : rta + len ≤ bytes.length) (hl : 4 ≤ sizeAt bytes rta)
    (most : sizeAt bytes rta ≤ len) : Bounded nrtb (parseLoop bytes nrtb (fuel + 1) rta len) ↔
      Bounded nrtb (parseLoop bytes nrtb fuel (rta + rtaAlign (sizeAt bytes rta))
        (toSize (len - rtaAlign (sizeAt bytes rta)))) := by
  have hs : rtaLen bytes rta = .ok (sizeAt bytes rta) := by
    rw [rtaLen, load, if_pos (by omega)]
    rfl
  have ht : rtaType bytes rta = .ok (word16 (slice bytes (rta + 2) 2)).toNat := by
    rw [rtaType, load, if_pos (by omega)]
    rfl
  have hc : rtaOk bytes rta len = .ok true := by
    rw [rtaOk, if_pos (show len ≥ rtattrSize from Nat.le_trans hl most), hs]
    exact congrArg Except.ok (decide_eq_true ⟨hl, most⟩)
  rw [Bounded, Bounded, parseLoop, hc, yields_bind, yields_ok, if_pos rfl, ht, hs]
  simp only [yields_bind, yields_ok, yields_pure]
  constructor
  · rintro ⟨rest, hp, hb⟩
    refine ⟨rest, hp, fun entry hm => hb entry ?_⟩
    split_ifs
    · exact mem_cons_of_mem _ hm
    · exact hm
  · rintro ⟨rest, hp, hb⟩
    refine ⟨rest, hp, fun entry hm => ?_⟩
    split_ifs at hm with stored
    · rcases mem_cons.mp hm with rfl | behind
      · exact stored
      · exact hb entry behind
    · exact hb entry hm

/-- Behind the end of the buffer, `len` having wrapped around, the header is not there. -/
lemma parseLoop_behind (hb : bytes.length < rta) (hh : 4 ≤ len) :
    ¬ Bounded nrtb (parseLoop bytes nrtb fuel rta len) := by
  cases fuel with
  | zero => exact yields_error _
  | succ fuel =>
    have hf : rtaOk bytes rta len = .error .outOfBounds := by
      rw [rtaOk, if_pos (show len ≥ rtattrSize from hh), rtaLen, load, if_neg (by omega)]
      rfl
    rw [Bounded, parseLoop, hf]
    exact yields_error _

lemma parseLoop_bounded_iff (hw : bytes.length = rta + len) (hs : len < 2 ^ 64) (ht : len < fuel) :
    Bounded nrtb (parseLoop bytes nrtb fuel rta len) ↔ Padded bytes rta len := by
  induction fuel generalizing rta len with
  | zero => omega
  | succ fuel ih =>
    by_cases hp : len < 4 ∨ sizeAt bytes rta < 4 ∨ len < sizeAt bytes rta
    · rw [parseLoop_over hw.ge hp]
      exact iff_of_true ((yields_ok _).mpr nofun) (.ends hp)
    · have ha : rtaAlign (sizeAt bytes rta) = (sizeAt bytes rta + 3) / 4 * 4 := rfl
      rw [parseLoop_takes hw.ge (by omega) (by omega)]
      by_cases hf : rtaAlign (sizeAt bytes rta) ≤ len
      · have left : toSize (len - rtaAlign (sizeAt bytes rta)) = len - rtaAlign (sizeAt bytes rta) := by
          have := toSize_small (n := len - rtaAlign (sizeAt bytes rta)) (by omega) (by omega)
          omega
        rw [left, ih (by omega) (by omega) (by omega)]
        constructor
        · exact .next hf
        · rintro (ends | ⟨-, rest⟩)
          · exact absurd ends hp
          · exact rest
      · -- at most three bytes of padding are missing
        refine iff_of_false (parseLoop_behind (by omega) ?_) ?_
        · unfold toSize
          omega
        · rintro (ends | ⟨hf', -⟩)
          · exact hp ends
          · exact hf hf'

end

/-- `rtnl_parse_attr` on the `len` bytes at `pos`, a read behind them being a fault, returns
having written entries of the table only, if and only if no attribute's padding is cut off. -/
theorem parse_bounded_iff (pos len : Nat) (nrtb : Int) (small : len < 2 ^ 64)
    (inside : pos + len ≤ bytes.length) :
    Bounded nrtb (rtnlParseAttr (bytes.take (pos + len)) nrtb pos len) ↔
      Padded (bytes.take (pos + len)) pos len := by
  have hw : (bytes.take (pos + len)).length = pos + len := by
    rw [length_take]
    omega
  exact parseLoop_bounded_iff hw small (by omega)

/-- An attribute of type 1 with four bytes, and one of type 2 with a byte and its padding. -/
def twoAttrs : List UInt8 := [8, 0, 1, 0, 1, 2, 3, 4, 5, 0, 2, 0, 9, 0, 0, 0]

theorem parse_bounded_iff_two : Bounded 2 (rtnlParseAttr (twoAttrs.take 16) 2 0 16) :=
  (parse_bounded_iff 0 16 2 (by decide) (by decide)).mpr
    (.next (by decide) (.next (by decide) (.ends (.inl (by decide)))))

/-- An attribute with a payload of one byte at the end of the area. -/
theorem unpadded_overrun : rtnlParseAttr ([5, 0, 1, 0, 7].take 5) 1 0 5 = .error .outOfBounds := by
  decide

end Fzsvn.Guarantees.Netlink.AttributeCodec
