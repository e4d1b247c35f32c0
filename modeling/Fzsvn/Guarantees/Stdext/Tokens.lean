import Fzsvn.Guarantees.Stdext.Bounds

/-!
# The fields that `str_token` returns

The first call looks for a delimiter from the end of the string on, where it has just searched
for the NUL. So it returns the whole string and ends the iteration.
-/
namespace Fzsvn.Guarantees.Stdext

open Library.Fallible Source.Stdext.StrUtil List

variable {mem text delim : List UInt8} {siz : Nat}

lemma Holds.takeWhile (h : Holds mem text) : mem.takeWhile (· ≠ 0) = text := by
  obtain ⟨rest, rfl, h0⟩ := h
  rw [takeWhile_append_of_pos, takeWhile_cons_of_neg (by simp), append_nil]
  exact fun c hc => decide_eq_true fun he => h0 (he ▸ hc)

/-- Whatever the delimiters are, the whole string is the only field. -/
lemma strTokens_single (h : Holds mem text) (hs : text.length < siz) (hd : delim ≠ []) (fuel : Nat) :
    strTokens siz delim (fuel + 2) true none mem = .ok [text] := by
  have hd' : ¬ (siz < 1 ∨ delim.length < 1) := by
    have := length_pos_iff.mpr hd
    omega
  have ht : tokenEnd delim (mem.drop text.length) = .ok none := by
    obtain ⟨rest, rfl, -⟩ := h
    rw [drop_left]
    rfl
  have first : strToken siz delim true none mem = .ok (some 0, none, mem) := by
    rw [strToken, if_neg hd', if_pos rfl, h.strTail hs, eq_ok_iff]
    simp [ht, Nat.ne_of_lt hs]
  have second : strToken siz delim false none mem = .ok (none, none, mem) := by
    rw [strToken, if_neg hd']
    rfl
  rw [strTokens, first, eq_ok_iff]
  simpa [strTokens, second] using h.takeWhile

/-- The delimiters of a string. -/
def delimiters (delim : List UInt8) : List UInt8 := delim.takeWhile (· ≠ 0)

/-- The calls for the string `text` return its fields. -/
def Tokenises (mem : List UInt8) (siz : Nat) (delim text : List UInt8) : Prop :=
  strTokens siz delim (mem.length + 1) true none mem = .ok (text.splitOnP (· ∈ delimiters delim))

theorem tokens_iff (h : Holds mem text) (hs : text.length < siz) (hd : delimiters delim ≠ []) :
    Tokenises mem siz delim text ↔ ∀ c ∈ text, c ∉ delimiters delim := by
  have hd' : delim ≠ [] := by
    rintro rfl
    exact hd rfl
  obtain ⟨fuel, hf⟩ := Nat.exists_eq_add_of_le' (Nat.lt_of_le_of_lt (Nat.zero_le _) h.length_lt)
  rw [Tokenises, hf, strTokens_single h hs hd', Except.ok.injEq]
  constructor
  · intro he c hc hm
    -- a delimiter makes two fields at least
    obtain ⟨front, back, rfl⟩ := append_of_mem hc
    rw [splitOnP_append_cons (p := (· ∈ delimiters delim)) _ _ (decide_eq_true hm)] at he
    have hl := congrArg length he
    have := length_pos_iff.mpr (splitOnP_ne_nil (· ∈ delimiters delim) front)
    have := length_pos_iff.mpr (splitOnP_ne_nil (· ∈ delimiters delim) back)
    simp only [length_append, length_singleton] at hl
    omega
  · intro hc
    exact (splitOnP_eq_singleton fun c hm => decide_eq_false (hc c hm)).symm

theorem tokens_iff_plain : Tokenises [97, 0] 2 [44, 0] [97] := by
  have h : Holds [97, 0] [97] := ⟨[], rfl, by decide⟩
  exact (tokens_iff h (by decide) (by decide)).mpr (by simp [delimiters])

/-- The string "a,b" with the delimiter ",". -/
theorem tokens_missed : ¬ Tokenises [97, 44, 98, 0] 4 [44, 0] [97, 44, 98] := by
  have h : Holds [97, 44, 98, 0] [97, 44, 98] := ⟨[], rfl, by decide⟩
  have hr : strTokens 4 [44, 0] 5 true none _ = _ := strTokens_single h (by decide) (by decide) 3
  exact fun he => absurd (Except.ok.inj (hr.symm.trans he)) (by decide)

end Fzsvn.Guarantees.Stdext
