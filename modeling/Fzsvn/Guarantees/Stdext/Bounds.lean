import Fzsvn.Library.Fallible
import Fzsvn.Source.Stdext.StrUtil

/-!
# Which bytes the string functions read

The scan for the end of a string reads a byte before it compares the position with the size.
In a buffer with a NUL it ends at the first one, and what is read afterwards is not behind
that; in a buffer without a NUL it reads the byte behind the buffer.
-/
namespace Fzsvn.Guarantees.Stdext

open Library.Fallible Source.Stdext.StrUtil List

/-- The bytes at a pointer are a string, its NUL and others. -/
def Holds (mem text : List UInt8) : Prop := ∃ rest, mem = text ++ 0 :: rest ∧ 0 ∉ text

variable {mem text rest : List UInt8} {left p : Nat}

lemma load_inside (h : p < mem.length) : load mem p = .ok mem[p] := by
  rw [load, getElem?_eq_getElem h]

lemma load_drop {c : UInt8} (h : mem.drop p = c :: rest) : load mem p = .ok c := by
  have : mem[p]? = some c := by
    rw [← Nat.add_zero p, ← getElem?_drop, h, getElem?_cons_zero]
  rw [load, this]

lemma strTail_at (h : mem.drop p = text ++ 0 :: rest) (h0 : 0 ∉ text) (hs : text.length < left) :
    strTail mem left p = .ok (p + text.length) := by
  induction text generalizing p left with
  | nil =>
    cases left with
    | zero => cases hs
    | succ left =>
      rw [strTail, load_drop h]
      rfl
  | cons c text ih =>
    cases left with
    | zero => cases hs
    | succ left =>
      have hc : ¬ c = 0 := fun he => h0 (he ▸ mem_cons_self)
      have hd : mem.drop (p + 1) = text ++ 0 :: rest := by
        rw [← drop_drop, h]
        rfl
      have := ih hd (fun hm => h0 (mem_cons_of_mem _ hm)) (Nat.lt_of_succ_lt_succ hs)
      rw [strTail, load_drop h, eq_ok_iff, yields_bind, yields_ok, if_neg hc, ← eq_ok_iff, this,
        length_cons]
      congr 1
      omega

lemma Holds.strTail (h : Holds mem text) (hs : text.length < left) :
    strTail mem left 0 = .ok text.length := by
  obtain ⟨rest, hm, h0⟩ := h
  rw [strTail_at (by rw [hm, drop_zero]) h0 hs, Nat.zero_add]

lemma Holds.length_lt (h : Holds mem text) : text.length < mem.length := by
  obtain ⟨rest, rfl, -⟩ := h
  simp

lemma exists_holds (h : 0 ∈ mem) : ∃ text, Holds mem text := by
  obtain ⟨text, rest, rfl, h0⟩ := eq_append_cons_of_mem h
  exact ⟨text, rest, rfl, h0⟩

/-- Without a NUL the byte behind the buffer is read. -/
lemma strTail_past (h0 : 0 ∉ mem) (hl : p + left = mem.length) :
    strTail mem left p = .error .outOfBounds := by
  induction left generalizing p with
  | zero =>
    rw [strTail, load, getElem?_eq_none (by omega)]
    rfl
  | succ left ih =>
    have hp : p < mem.length := by omega
    have hc : ¬ mem[p] = 0 := fun he => h0 (he ▸ getElem_mem hp)
    have := ih (p := p + 1) (by omega)
    rw [strTail, load_inside hp, ← this]
    exact if_neg hc

lemma scan_eq {test : Nat → Except Fault Bool} {t : Nat → Bool} {ps : List Nat}
    (h : ∀ i ∈ ps, test i = .ok (t i)) : scan test ps = .ok (ps.find? t) := by
  induction ps with
  | nil => rfl
  | cons p ps ih =>
    have hp := h p mem_cons_self
    have hs := ih fun i hi => h i (mem_cons_of_mem _ hi)
    rw [scan, hp, eq_ok_iff, yields_bind, yields_ok, yields_ite, find?_cons]
    cases t p with
    | true => simp
    | false => simp [hs]

/-- What follows the search for the end is reached iff there is one. -/
lemma isOk_tail {β : Type} {next : Nat → Except Fault β} {P : Prop}
    (h : ∀ n, n < mem.length → ((next n).isOk ↔ P)) :
    (strTail mem mem.length 0 >>= next).isOk ↔ 0 ∈ mem ∧ P := by
  by_cases h0 : 0 ∈ mem
  · obtain ⟨text, ht⟩ := exists_holds h0
    rw [ht.strTail ht.length_lt]
    exact (h _ ht.length_lt).trans (and_iff_right h0).symm
  · rw [strTail_past h0 (Nat.zero_add _)]
    exact iff_of_false (by simp [bind, Except.bind, Except.isOk, Except.toBool]) fun h => h0 h.1

lemma isOk_scan {test : Int → Bool} {ps : Nat → List Nat}
    (h : ∀ n, n < mem.length → ∀ i ∈ ps n, i < mem.length) :
    (strTail mem mem.length 0 >>= fun n => scan (testChar mem test) (ps n)).isOk ↔ 0 ∈ mem := by
  refine (isOk_tail fun n hn => iff_of_true ?_ trivial).trans (and_iff_left trivial)
  rw [scan_eq (t := fun p => test (mem[p]?.getD 0).toInt8.toInt) fun i hi => by
    rw [testChar, load_inside (h n hn i hi), getElem?_eq_getElem (h n hn i hi)]
    rfl]
  rfl

/-- A call, where each buffer has the size that is passed with it. -/
inductive Call where
  | len (str : List UInt8)
  | copy (src dst : List UInt8)
  | cmp (same : Bool) (str1 str2 : List UInt8)
  | chr (str : List UInt8) (c : Int)
  | rchr (str : List UInt8) (c : Int)
  | find1 (str : List UInt8) (func : Int → Int)
  | rfind1 (str : List UInt8) (func : Int → Int)

namespace Call

def buffers : Call → List (List UInt8)
  | len str | chr str _ | rchr str _ | find1 str _ | rfind1 str _ => [str]
  | copy src dst => [src, dst]
  | cmp _ str1 str2 => [str1, str2]

/-- The call reads and writes inside its buffers. -/
def Inside : Call → Prop
  | len str => (strLen str str.length).isOk
  | copy src dst => (strCopy src src.length dst dst.length).isOk
  | cmp same str1 str2 => (strCmp same str1 str1.length str2 str2.length).isOk
  | chr str c => (strChr str str.length c).isOk
  | rchr str c => (strRchr str str.length c).isOk
  | find1 str func => (strFind1 str str.length func).isOk
  | rfind1 str func => (strRfind1 str str.length func).isOk

/-- The buffers that are searched for their end have one. -/
def Terminated : Call → Prop
  | len str | chr str _ | rchr str _ | find1 str _ | rfind1 str _ | copy str _ => 0 ∈ str
  | cmp same str1 str2 => same ∧ str1.length = str2.length ∨ 0 ∈ str1 ∧ 0 ∈ str2

end Call

lemma find_isOk {test : Int → Bool} (h : 1 ≤ mem.length) :
    (find test mem mem.length).isOk ↔ 0 ∈ mem := by
  rw [find, if_neg (by omega)]
  exact isOk_scan fun n hn i hi => by
    have := mem_range.mp hi
    omega

lemma findBack_isOk {test : Int → Bool} (h : 1 ≤ mem.length) :
    (findBack test mem mem.length).isOk ↔ 0 ∈ mem := by
  rw [findBack, if_neg (by omega)]
  exact isOk_scan fun n hn i hi => by
    have := mem_range.mp (mem_reverse.mp hi)
    omega

theorem inside_iff (call : Call) (h : ∀ buf ∈ call.buffers, 1 ≤ buf.length) :
    call.Inside ↔ call.Terminated := by
  cases call with
  | len str =>
    have h1 := h str mem_cons_self
    rw [Call.Inside, strLen, if_neg (by omega)]
    exact (isOk_tail fun _ _ => iff_of_true rfl trivial).trans (and_iff_left trivial)
  | copy src dst =>
    have h1 := h src mem_cons_self
    have h2 := h dst (mem_cons_of_mem _ mem_cons_self)
    rw [Call.Inside, strCopy, if_neg (by omega)]
    refine (isOk_tail fun n hn => iff_of_true ?_ trivial).trans (and_iff_left trivial)
    split
    · rfl
    · rw [copyEnd, if_pos (by omega)]
      rfl
  | cmp same str1 str2 =>
    have h1 := h str1 mem_cons_self
    have h2 := h str2 (mem_cons_of_mem _ mem_cons_self)
    rw [Call.Inside, strCmp, if_neg (by omega), Call.Terminated]
    split
    next he => exact iff_of_true rfl (.inl he)
    next hne =>
      refine (isOk_tail fun n hn => isOk_tail fun m hm => iff_of_true ?_ trivial).trans ?_
      · rw [if_neg (by omega)]
        rfl
      · tauto
  | chr str c => exact find_isOk (h str mem_cons_self)
  | rchr str c => exact findBack_isOk (h str mem_cons_self)
  | find1 str func => exact find_isOk (h str mem_cons_self)
  | rfind1 str func => exact findBack_isOk (h str mem_cons_self)

theorem inside_iff_cmp : (Call.cmp false [65, 0] [65, 66, 0, 1]).Inside :=
  (inside_iff (.cmp false [65, 0] [65, 66, 0, 1]) (by decide)).mpr (.inr ⟨by decide, by decide⟩)

/-- One byte that is not NUL: the byte behind it is read. -/
theorem unterminated_read : ¬ (Call.len [65]).Inside := Bool.false_ne_true

end Fzsvn.Guarantees.Stdext
