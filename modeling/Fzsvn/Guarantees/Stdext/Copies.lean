import Fzsvn.Guarantees.Stdext.Bounds

/-!
# Copying and appending

A copy is made iff it fits with its NUL, and otherwise nothing is written. The result is an
`int`, so the length of a source of 2^31 bytes or more is not what is returned. The byte behind
the destination can be read here: `str_cat` does so if the destination has no NUL.
-/
namespace Fzsvn.Guarantees.Stdext

open Library.Block Library.Fallible Library.MachineInt Source.Stdext.StrUtil

variable {src dst text start behind : List UInt8}

/-- What a call returns and leaves in `dst`, which had `start` in front of the copy, and in the
memory behind it. -/
def Copied (dst behind start text : List UInt8) (r : Int × List UInt8) : Prop :=
  if start.length + text.length < dst.length then
    r = ((text.length : Int), start ++ text ++ 0 :: dst.drop (start.length + text.length + 1) ++ behind)
  else r = (-1, dst ++ behind)

/-- The length is in the range of the result, if the copy is made. -/
def Small (dst start text : List UInt8) : Prop :=
  start.length + text.length < dst.length → text.length < 2 ^ 31

lemma toInt_eq_iff (n : Nat) : toInt n = n ↔ n < 2 ^ 31 := by
  constructor
  · intro h
    have := Int.bmod_lt (x := n) (m := 2 ^ 32) (by decide)
    rw [toInt] at h
    omega
  · intro h
    exact toInt_small (by omega) (by omega)

lemma copyEnd_copied (source : Holds src text) (front : dst.take start.length = start)
    (fits : start.length + text.length < dst.length) :
    Yields (do
      let dst ← copyEnd src text.length (dst ++ behind) start.length
      return (toInt text.length, dst)) (Copied dst behind start text) ↔ Small dst start text := by
  have hlen := source.length_lt
  have hbehind : (dst ++ behind).take start.length = start := by
    rw [List.take_append_of_le_length (by omega), front]
  have hrest : (dst ++ behind).drop (start.length + (text.length + 1)) =
      dst.drop (start.length + text.length + 1) ++ behind := List.drop_append_of_le_length (by omega)
  obtain ⟨rest, rfl, -⟩ := source
  rw [copyEnd, if_pos ⟨by omega, by rw [List.length_append]; omega⟩, List.take_left, yields_bind, yields_pure,
    yields_pure, Copied, if_pos fits, overwrite, hbehind, Prod.mk.injEq, toInt_eq_iff,
    and_iff_left (by simp [hrest])]
  exact ⟨fun h _ => h, fun h => h fits⟩

/-- Without a NUL the scan for the end reads the byte behind the buffer and stops there. -/
lemma strTail_behind (unended : 0 ∉ dst) (readable : behind ≠ []) {left p : Nat} (hleft : p + left = dst.length) :
    strTail (dst ++ behind) left p = .ok dst.length := by
  induction left generalizing p with
  | zero =>
    obtain ⟨c, rest, rfl⟩ := List.exists_cons_of_ne_nil readable
    have hend : p = dst.length := hleft
    subst hend
    rw [strTail, load_drop (List.drop_left ..)]
    rfl
  | succ left ih =>
    have hp : p < dst.length := by omega
    have hc : ¬ dst[p] = 0 := fun heq => unended (heq ▸ List.getElem_mem hp)
    rw [strTail, load_inside (by rw [List.length_append]; omega), List.getElem_append_left hp,
      ← ih (p := p + 1) (by omega)]
    exact if_neg hc

lemma Holds.append (h : Holds dst text) : Holds (dst ++ behind) text := by
  obtain ⟨rest, rfl, hnul⟩ := h
  exact ⟨rest ++ behind, by rw [List.append_assoc, List.cons_append], hnul⟩

variable (source : Holds src text)
include source

lemma strCopy_iff (room : 1 ≤ dst.length) :
    Yields (strCopy src src.length (dst ++ behind) dst.length) (Copied dst behind [] text) ↔ Small dst [] text := by
  have hlen := source.length_lt
  rw [strCopy, if_neg (by omega), source.strTail hlen, yields_bind, yields_ok]
  by_cases fits : ([] : List UInt8).length + text.length < dst.length
  · rw [if_neg (by rw [List.length_nil] at fits; omega)]
    exact copyEnd_copied source rfl fits
  · rw [if_pos (by rw [List.length_nil] at fits; omega), yields_pure, Copied, if_neg fits]
    exact iff_of_true rfl fun h => absurd h fits

lemma strCat_iff (ended : Holds dst start) :
    Yields (strCat src src.length (dst ++ behind) dst.length) (Copied dst behind start text) ↔
      Small dst start text := by
  have hlen := ended.length_lt
  rw [strCat, ended.append.strTail hlen, yields_bind, yields_ok, if_neg (by omega),
    source.strTail source.length_lt, yields_bind, yields_ok]
  by_cases fits : start.length + text.length < dst.length
  · rw [if_neg (by omega)]
    obtain ⟨rest, rfl, -⟩ := ended
    exact copyEnd_copied source List.take_left fits
  · rw [if_pos (by omega), yields_pure, Copied, if_neg fits]
    exact iff_of_true rfl fun h => absurd h fits

omit source

/-- A string in `dst` is appended to or left alone; a `dst` without an end is left alone. -/
def Appended (dst behind text : List UInt8) (r : Int × List UInt8) : Prop :=
  (∃ start, Holds dst start ∧ Copied dst behind start text r) ∨ 0 ∉ dst ∧ r = (-1, dst ++ behind)

theorem copies_iff (source : Holds src text) (room : 1 ≤ dst.length) (readable : behind ≠ []) :
    (Yields (strCopy src src.length (dst ++ behind) dst.length) (Copied dst behind [] text) ↔
      Small dst [] text) ∧
    (Yields (strCat src src.length (dst ++ behind) dst.length) (Appended dst behind text) ↔
      0 ∉ dst ∨ ∃ start, Holds dst start ∧ Small dst start text) := by
  refine ⟨strCopy_iff source room, ?_, ?_⟩
  · rintro ⟨r, hr, ⟨start, ended, copied⟩ | ⟨unended, -⟩⟩
    · exact .inr ⟨start, ended, (strCat_iff source ended).mp ⟨r, hr, copied⟩⟩
    · exact .inl unended
  · rintro (unended | ⟨start, ended, small⟩)
    · rw [strCat, strTail_behind unended readable (Nat.zero_add _), yields_bind, yields_ok, if_pos rfl, yields_pure]
      exact .inr ⟨unended, rfl⟩
    · obtain ⟨r, hr, copied⟩ := (strCat_iff source ended).mpr small
      exact ⟨r, hr, .inl ⟨start, ended, copied⟩⟩

theorem copies_iff_one : Yields (strCat [65, 0] 2 [66, 0, 1, 2] 3) (Appended [66, 0, 1] [2] [65]) := by
  have source : Holds [65, 0] [65] := ⟨[], rfl, by decide⟩
  have room : 1 ≤ ([66, 0, 1] : List UInt8).length := by decide
  have ended : Holds [66, 0, 1] [66] := ⟨[1], rfl, by decide⟩
  exact (copies_iff source room (List.cons_ne_nil 2 [])).2.mpr (.inr ⟨[66], ended, fun _ => by decide⟩)

/-- A source of 2^31 bytes that fits: a negative number is returned. -/
theorem long_copied : ∃ src dst text r, Holds src text ∧ text.length < dst.length ∧
    strCopy src src.length dst dst.length = .ok r ∧ r.1 = -2 ^ 31 ∧ ¬ Copied dst [] [] text r := by
  obtain ⟨text, hlen, hnul⟩ : ∃ text : List UInt8, text.length = 2 ^ 31 ∧ 0 ∉ text :=
    ⟨List.replicate (2 ^ 31) 65, List.length_replicate,
      fun hmem => absurd (List.eq_of_mem_replicate hmem) (by decide)⟩
  obtain ⟨dst, hdst⟩ : ∃ dst : List UInt8, dst.length = 2 ^ 31 + 1 :=
    ⟨List.replicate (2 ^ 31 + 1) 0, List.length_replicate⟩
  have source : Holds (text ++ [0]) text := ⟨[], rfl, hnul⟩
  have fits : text.length < dst.length := by omega
  have hlong := source.length_lt
  obtain ⟨r, hr, hresult⟩ : Yields (strCopy (text ++ [0]) (text ++ [0]).length dst dst.length)
      fun r => r.1 = toInt text.length := by
    rw [strCopy, if_neg (by omega), source.strTail hlong, yields_bind, yields_ok, if_neg (by omega), yields_bind,
      copyEnd, if_pos ⟨hlong.le, by omega⟩, yields_pure, yields_pure]
  have hneg : r.1 = -2 ^ 31 := by
    rw [hresult, hlen]
    decide
  refine ⟨_, dst, text, r, source, fits, hr, hneg, ?_⟩
  rw [Copied, if_pos (by rwa [List.length_nil, Nat.zero_add])]
  rintro rfl
  have hpos : (text.length : Int) = -2 ^ 31 := hneg
  omega

end Fzsvn.Guarantees.Stdext
