import Fzsvn.Guarantees.Stdext.Bounds

/-!
# Searching for a string in another

`str_str` and `str_rstr` try the same positions in opposite orders and stop at the first where
the pattern occurs. If nothing may be read behind the terminator, they work all the same.
-/
namespace Fzsvn.Guarantees.Stdext

open Library.Fallible Source.Stdext.StrUtil List

variable {str pat text ptext : List UInt8} {fold : UInt8 → UInt8} {siz psiz : Nat}

/-- The positions of `text` at which `pat` is found. -/
def occurrences (fold : UInt8 → UInt8) (text pat : List UInt8) : Set Nat :=
  {i | i + pat.length ≤ text.length ∧ ((text.drop i).take pat.length).map fold = pat.map fold}

lemma Holds.drop (h : Holds str text) {p : Nat} (hp : p < text.length) :
    load str p = .ok text[p] ∧ text[p] ≠ 0 := by
  have hl := h.length_lt
  obtain ⟨rest, rfl, h0⟩ := h
  refine ⟨?_, fun he => h0 (he ▸ getElem_mem hp)⟩
  rw [load_inside (by omega), getElem_append_left hp]

lemma strncmpEq_eq (hs : Holds str text) (hp : Holds pat ptext) {n p q : Nat}
    (hn : p + n ≤ text.length) (hq : q + n = ptext.length) :
    strncmpEq fold str pat n p q =
      .ok (decide (((text.drop p).take n).map fold = (ptext.drop q).map fold)) := by
  induction n generalizing p q with
  | zero =>
    rw [@drop_eq_nil_of_le _ ptext q (by omega)]
    rfl
  | succ n ih =>
    obtain ⟨ha, h0⟩ := hs.drop (p := p) (by omega)
    obtain ⟨hb, -⟩ := hp.drop (p := q) (by omega)
    have hr := ih (p := p + 1) (q := q + 1) (by omega) (by omega)
    rw [strncmpEq, ha, hb, drop_eq_getElem_cons (by omega), drop_eq_getElem_cons (i := q) (by omega),
      eq_ok_iff]
    simp only [yields_bind, yields_ok, take_succ_cons, map_cons, cons.injEq]
    by_cases he : fold text[p] = fold ptext[q]
    · simp only [he, h0, hr, ne_eq, not_true_eq_false, if_false, true_and, yields_ok]
    · simp only [he, ne_eq, not_false_eq_true, if_true, false_and, decide_false, yields_pure]

/-- The first element of a list that passes a test is in front of all others. -/
lemma find?_first {R : Nat → Nat → Prop} {ps : List Nat} {t : Nat → Bool} {i j : Nat} (hR : ps.Pairwise R)
    (h : ps.find? t = some i) (hj : j ∈ ps) (ht : t j) : i = j ∨ R i j := by
  obtain ⟨-, front, back, rfl, hf⟩ := find?_eq_some_iff_append.mp h
  rcases mem_append.mp hj with hj | hj
  · exact absurd ht (by simpa using hf j hj)
  · rcases mem_cons.mp hj with rfl | hj
    · exact .inl rfl
    · exact .inr (rel_of_pairwise_cons (pairwise_append.mp hR).2.1 hj)

variable (hs : Holds str text) (hp : Holds pat ptext) (hl : text.length < siz) (hm : ptext.length < psiz)
  (cs : Bool)
include hs hp hl hm

lemma search_first {ps : Nat → List Nat} {R : Nat → Nat → Prop} (hps : ∀ n i, i ∈ ps n ↔ i ≤ n)
    (hR : ∀ n, (ps n).Pairwise R) : Yields (search ps str siz pat psiz cs) fun r =>
      (∀ i ∈ r, i ∈ occurrences (folding cs) text ptext ∧
        ∀ j ∈ occurrences (folding cs) text ptext, i = j ∨ R i j) ∧
          (r = none ↔ ∀ i, i ∉ occurrences (folding cs) text ptext) := by
  rw [search, if_neg (by omega), hs.strTail hl, hp.strTail hm, yields_bind, yields_ok, yields_bind, yields_ok]
  split
  next hlt =>
    refine (yields_pure _).mpr ⟨fun i hi => (by cases hi), iff_of_true rfl fun i h => ?_⟩
    have := h.1
    omega
  next hle =>
    have ho : ∀ i, i ∈ occurrences (folding cs) text ptext ↔ i ∈ ps (text.length - ptext.length) ∧
        ((text.drop i).take ptext.length).map (folding cs) = ptext.map (folding cs) :=
      fun i => and_congr_left fun _ => by rw [hps]; omega
    rw [scan_eq fun i hi => strncmpEq_eq hs hp (by have := (hps _ _).mp hi; omega) (Nat.zero_add _),
      yields_ok, drop_zero]
    simp only [ho]
    refine ⟨fun i hi => ⟨⟨mem_of_find?_eq_some hi, by simpa using find?_some hi⟩, fun j hj => ?_⟩, ?_⟩
    · exact find?_first (hR _) hi hj.1 (decide_eq_true hj.2)
    · rw [find?_eq_none]
      simp

/-- Both functions end without a fault, in the leftmost and in the rightmost position. -/
theorem substring_search :
    (Yields (strStr str siz pat psiz cs) fun r =>
      (∀ i ∈ r, IsLeast (occurrences (folding cs) text ptext) i) ∧
        (r = none ↔ ∀ i, i ∉ occurrences (folding cs) text ptext)) ∧
    Yields (strRstr str siz pat psiz cs) fun r =>
      (∀ i ∈ r, IsGreatest (occurrences (folding cs) text ptext) i) ∧
        (r = none ↔ ∀ i, i ∉ occurrences (folding cs) text ptext) := by
  constructor
  · obtain ⟨r, hr, h, hn⟩ := search_first hs hp hl hm cs (fun n i => mem_range.trans Nat.lt_succ_iff)
      fun n => pairwise_lt_range
    exact ⟨r, hr, fun i hi => ⟨(h i hi).1, fun j hj => by have := (h i hi).2 j hj; omega⟩, hn⟩
  · obtain ⟨r, hr, h, hn⟩ := search_first hs hp hl hm cs
      (fun n i => (mem_reverse.trans mem_range).trans Nat.lt_succ_iff)
      fun n => pairwise_reverse.mpr pairwise_lt_range
    exact ⟨r, hr, fun i hi => ⟨(h i hi).1, fun j hj => by have := (h i hi).2 j hj; omega⟩, hn⟩

omit hs hp hl hm

theorem substring_search_one : ∃ r, strStr [97, 98, 0] 3 [98, 0] 2 true = .ok r := by
  have hs : Holds [97, 98, 0] [97, 98] := ⟨[], rfl, by decide⟩
  have hp : Holds [98, 0] [98] := ⟨[], rfl, by decide⟩
  obtain ⟨r, hr, -⟩ := (substring_search hs hp (Nat.lt_succ_self 2) (Nat.lt_succ_self 1) true).1
  exact ⟨r, hr⟩

end Fzsvn.Guarantees.Stdext
