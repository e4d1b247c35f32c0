import Fzsvn.Library.SortedTable
import Fzsvn.Source.Datastruct.HashSize

/-!
# The bucket count that is chosen

The search keeps the size between the entries at its bounds: the entry at `bottom` is below
it and the entry at `top` above it, except where a bound is still the end of the table. So
`mid` is the first index only for a size below the first entry, and the last index only for
one above the last entry. In the latter case the body reads the entry behind the table.
-/
namespace Fzsvn.Guarantees.Datastruct
open Source.Datastruct Library.SortedTable Library.MachineInt List

/-- The last entry of the table. -/
def htLargest : Nat := 105359939

lemma htSize_sorted : htSize.Pairwise (· < ·) := by decide +kernel

lemma htSize_last : htSize[43]? = some htLargest := rfl

lemma htRead_eq {index : Nat} {entry : Nat} (hf : htSize[index]? = some entry) :
    htRead index = .ok entry := by
  rw [htRead, hf]

lemma htSize_at {index : Nat} (hi : index < 44) : ∃ entry, htSize[index]? = some entry :=
  ⟨htSize[index], getElem?_eq_getElem hi⟩

lemma le_htLargest {entry : Nat} (hm : entry ∈ htSize) : entry ≤ htLargest := by
  obtain ⟨i, at_i⟩ := mem_iff_getElem?.mp hm
  have hi : i < 44 := (List.getElem?_eq_some_iff.mp at_i).1
  exact entry_le htSize_sorted (Nat.le_of_lt_succ hi) at_i htSize_last

/-! ## One turn -/

/-- Where the search is. While `bottom` is 0, `top` is on the path of a size below every
entry, which ends at 0 and not at 1. -/
structure Searching (size bottom top : Nat) : Prop where
  ordered : bottom ≤ top
  inside : top ≤ 43
  low : bottom = 0 ∨ ∃ entry, htSize[bottom]? = some entry ∧ entry < size
  high : top = 43 ∨ ∃ entry, htSize[top]? = some entry ∧ size < entry
  path : bottom = 0 → top = 43 ∨ top = 20 ∨ top = 9 ∨ top = 3 ∨ top = 0

variable {size bottom top : Nat}

/-- The bounds meet only at an end of the table. -/
lemma Searching.met (search : Searching size bottom top) (met : bottom = top) :
    bottom = 0 ∨ bottom = 43 := by
  rcases search.low with hs | ⟨entry, at_bottom, hl⟩
  · exact .inl hs
  · rcases search.high with last | ⟨entry', at_top, ha⟩
    · exact .inr (met.trans last)
    · rw [met, at_top] at at_bottom
      cases at_bottom
      exact absurd (lt_trans hl ha) (lt_irrefl _)

lemma Searching.mid_lt (search : Searching size bottom top) (hf : size ≤ htLargest) :
    (bottom + top) / 2 < 43 := by
  have hi := search.inside
  have ho := search.ordered
  have hn : bottom ≠ 43 := by
    rintro rfl
    rcases search.low with hs | ⟨entry, at_last, hl⟩
    · exact absurd hs (by decide)
    · rw [htSize_last] at at_last
      cases at_last
      exact absurd hf (not_le.mpr hl)
  omega

lemma Searching.first (search : Searching size bottom top) (hf : (bottom + top) / 2 = 0) :
    bottom = 0 ∧ top = 0 ∧ size < 7 := by
  have hs : bottom = 0 := by
    have := search.ordered
    omega
  have met : top = 0 := by
    have := search.path hs
    omega
  refine ⟨hs, met, ?_⟩
  rcases search.high with hl | ⟨entry, at_top, ha⟩
  · omega
  · rw [met] at at_top
    cases at_top
    exact ha

lemma isLeast_of_mem (hm : size ∈ htSize) : IsLeast {e | e ∈ htSize ∧ size ≤ e} size :=
  ⟨⟨hm, le_rfl⟩, fun _ ho => ho.2⟩

section

variable (search : Searching size bottom top)
include search

/-- The body read an entry below the size and the next one is not below it, or goes on with
the upper half. -/
lemma Searching.turn_up {mid entry : Nat} (isMid : (bottom + top) / 2 = mid) (hi : mid < 43)
    (at_mid : htSize[mid]? = some entry) (hl : entry < size) : mid ≠ 0 ∧
    ((∃ above, chooseTurn size bottom top mid = .ok (.leave (some above)) ∧
      IsLeast {e | e ∈ htSize ∧ size ≤ e} above) ∨
    (chooseTurn size bottom top mid = .ok (.again (mid + 1) top) ∧ Searching size (mid + 1) top)) := by
  obtain ⟨above, at_above⟩ := htSize_at (Nat.succ_lt_succ hi)
  have hn : mid ≠ 0 := by
    rintro rfl
    obtain ⟨-, -, hs⟩ := search.first isMid
    cases at_mid
    omega
  have ht : size > entry ∧ mid < htSizeSz := ⟨hl, Nat.lt_succ_of_lt hi⟩
  refine ⟨hn, ?_⟩
  rw [chooseTurn, htRead_eq at_mid, htRead_eq at_above]
  simp only [bind, Except.bind, pure, Except.pure, if_neg (Nat.ne_of_gt hl), if_pos ht]
  by_cases hr : size ≤ above
  · left
    rw [if_pos hr]
    exact ⟨above, rfl, isLeast_of_left htSize_sorted at_above hr (.inr ⟨entry, at_mid, hl⟩)⟩
  · right
    rw [if_neg hr]
    have hb : mid ≠ top := by
      intro last
      have ho := search.ordered
      have met := search.met (by omega)
      omega
    refine ⟨rfl, ?_, search.inside, .inr ⟨above, at_above, by omega⟩, search.high, ?_⟩
    · have ho := search.ordered
      omega
    · exact fun start => absurd start (Nat.succ_ne_zero mid)

/-- The body read an entry above the size, behind the first one. -/
lemma Searching.turn_down {mid entry : Nat} (isMid : (bottom + top) / 2 = mid) (hi : mid < 43)
    (at_mid : htSize[mid]? = some entry) (hs : size < entry) (hn : mid ≠ 0) :
    (∃ least, chooseTurn size bottom top mid = .ok (.leave (some least)) ∧
      IsLeast {e | e ∈ htSize ∧ size ≤ e} least) ∨
    (chooseTurn size bottom top mid = .ok (.again bottom (mid - 1)) ∧ Searching size bottom (mid - 1)) := by
  have hb : mid - 1 < 44 := by omega
  obtain ⟨hl, at_below⟩ := htSize_at hb
  have skips : ¬(size > entry ∧ mid < htSizeSz) := fun both => by omega
  have ht : size < entry ∧ mid > 0 := ⟨hs, Nat.pos_of_ne_zero hn⟩
  rw [chooseTurn, htRead_eq at_mid, htRead_eq at_below]
  simp only [bind, Except.bind, pure, Except.pure, if_neg (Nat.ne_of_lt hs), if_neg skips, if_pos ht]
  by_cases hr : size ≥ hl
  · left
    rw [if_pos hr]
    by_cases he : size = hl
    · rw [if_pos he]
      exact ⟨size, rfl, isLeast_of_mem (he ▸ mem_of_getElem? at_below)⟩
    · rw [if_neg he]
      exact ⟨entry, rfl, isLeast_of_left htSize_sorted at_mid hs.le (.inr ⟨hl, at_below, by omega⟩)⟩
  · right
    rw [if_neg hr]
    have ha : bottom ≠ mid := by
      rintro rfl
      rcases search.low with start | ⟨entry', at_bottom, low⟩
      · exact hn start
      · rw [at_mid] at at_bottom
        cases at_bottom
        omega
    have ho := search.ordered
    refine ⟨rfl, by omega, by omega, search.low, .inr ⟨hl, at_below, by omega⟩, ?_⟩
    intro start
    have hp := search.path start
    omega

/-- What a turn can do to a size that is not above the last entry. -/
lemma Searching.turn (hf : size ≤ htLargest) {mid : Nat} (hi : (bottom + top) / 2 = mid) :
    (mid = 0 ∧ size < 7 ∧ chooseTurn size bottom top mid = .ok (.leave none)) ∨
    (mid ≠ 0 ∧ ∃ least, chooseTurn size bottom top mid = .ok (.leave (some least)) ∧
      IsLeast {e | e ∈ htSize ∧ size ≤ e} least) ∨
    ∃ bottom' top', chooseTurn size bottom top mid = .ok (.again bottom' top') ∧
      Searching size bottom' top' ∧ top' - bottom' < top - bottom := by
  have ho := search.ordered
  have inner : mid < 43 := hi ▸ search.mid_lt hf
  obtain ⟨entry, at_mid⟩ := htSize_at (Nat.lt_succ_of_lt inner)
  by_cases isFirst : mid = 0
  · left
    subst isFirst
    obtain ⟨rfl, rfl, hs⟩ := search.first hi
    refine ⟨rfl, hs, ?_⟩
    have hd : size ≠ 7 ∧ ¬7 < size := by omega
    simp [chooseTurn, htRead, htSize, bind, Except.bind, pure, Except.pure, hd]
  right
  rcases lt_trichotomy size entry with smaller | rfl | hl
  · rcases search.turn_down hi inner at_mid smaller isFirst with found | ⟨ht, next⟩
    · exact .inl ⟨isFirst, found⟩
    · have := next.ordered
      exact .inr ⟨bottom, mid - 1, ht, next, by omega⟩
  · refine .inl ⟨isFirst, size, ?_, isLeast_of_mem (mem_of_getElem? at_mid)⟩
    rw [chooseTurn, htRead_eq at_mid]
    exact if_pos rfl
  · obtain ⟨-, found | ⟨ht, next⟩⟩ := search.turn_up hi inner at_mid hl
    · exact .inl ⟨isFirst, found⟩
    · have := next.ordered
      exact .inr ⟨mid + 1, top, ht, next, by omega⟩

end

/-! ## The whole search -/

/-- The loop is left with the least entry that is not below the size, or at the first index
for a size below every entry. -/
lemma chooseLoop_found (hf : size ≤ htLargest) (fuel : Nat) (last : Option Nat)
    (search : Searching size bottom top) (he : top - bottom < fuel) :
    ∃ mid newsize, chooseLoop size fuel last bottom top = .ok (some mid, newsize) ∧ mid < 43 ∧
      ((mid = 0 ∧ size < 7) ∨ (mid ≠ 0 ∧ ∃ least, newsize = some least ∧
          IsLeast {e | e ∈ htSize ∧ size ≤ e} least)) := by
  induction fuel generalizing bottom top last with
  | zero => omega
  | succ fuel ih =>
    rw [chooseLoop, if_pos search.ordered]
    dsimp only
    have hi := search.mid_lt hf
    rcases search.turn hf rfl with ⟨first, hs, ht⟩ | ⟨ho, least, ht, isLeast⟩ |
      ⟨bottom', top', ht, next, hc⟩
    · exact ⟨_, none, by rw [ht]; rfl, hi, .inl ⟨first, hs⟩⟩
    · exact ⟨_, some least, by rw [ht]; rfl, hi, .inr ⟨ho, least, rfl, isLeast⟩⟩
    · rw [ht]
      apply ih _ next
      omega

/-- Above the last entry the search moves up until it reads behind the table. -/
lemma chooseLoop_outside (large : htLargest < size) (fuel : Nat) (last : Option Nat)
    (hi : bottom ≤ 43) (hf : 43 - bottom < fuel) :
    chooseLoop size fuel last bottom 43 = .error (.outside 44) := by
  induction fuel generalizing bottom last with
  | zero => omega
  | succ fuel ih =>
    have inTable : (bottom + 43) / 2 < 44 := by omega
    obtain ⟨entry, at_mid⟩ := htSize_at inTable
    have larger : entry < size :=
      lt_of_le_of_lt (le_htLargest (mem_of_getElem? at_mid)) large
    have ht : size > entry ∧ (bottom + 43) / 2 < htSizeSz := ⟨larger, inTable⟩
    rw [chooseLoop, if_pos hi]
    dsimp only
    rw [chooseTurn, htRead_eq at_mid]
    simp only [bind, Except.bind, pure, Except.pure, if_neg (Nat.ne_of_gt larger), if_pos ht]
    by_cases ha : (bottom + 43) / 2 = 43
    · rw [ha]
      rfl
    · obtain ⟨above, at_above⟩ : ∃ above, htSize[(bottom + 43) / 2 + 1]? = some above :=
        htSize_at (by omega)
      have hl : ¬size ≤ above := by
        have := le_htLargest (mem_of_getElem? at_above)
        omega
      rw [htRead_eq at_above]
      simp only [if_neg hl]
      apply ih <;> omega

lemma toInt_of_mem {entry : Nat} (hm : entry ∈ htSize) : toInt entry = entry := by
  have hs := le_htLargest hm
  unfold htLargest at hs
  apply toInt_small <;> omega

/-- The answer the search is for: the least entry that is not below the size, or the largest
entry if there is none. -/
def Chosen (size : UInt32) (entry : Nat) : Prop :=
  IsLeast {e | e ∈ htSize ∧ size.toNat ≤ e} entry ∨
    ((∀ e ∈ htSize, e < size.toNat) ∧ IsGreatest {e | e ∈ htSize} entry)

lemma hashChooseSize_found {size : UInt32} (hf : size.toNat ≤ htLargest) :
    ∃ entry : Nat, hashChooseSize size = .ok entry ∧
      IsLeast {e | e ∈ htSize ∧ size.toNat ≤ e} entry := by
  obtain ⟨mid, newsize, hl, hi, hr⟩ :=
    chooseLoop_found hf (htSizeSz + 1) none
      ⟨Nat.zero_le 43, le_rfl, .inl rfl, .inl rfl, fun _ => .inl rfl⟩ (by decide)
  rw [hashChooseSize, show htSizeSz - 1 = 43 from rfl, hl]
  rcases hr with ⟨rfl, hs⟩ | ⟨hn, least, rfl, isLeast⟩
  · refine ⟨7, rfl, ?_⟩
    exact isLeast_of_left htSize_sorted (show htSize[0]? = some 7 from rfl) hs.le (.inl rfl)
  · refine ⟨least, ?_, isLeast⟩
    simp only [bind, Except.bind, pure, Except.pure, if_neg hn, if_neg (Nat.ne_of_lt hi),
      toInt_of_mem isLeast.1.1]

/-- The search ends, stays inside the table and answers the chosen entry exactly for the
sizes that are not above the last entry. -/
theorem hashChooseSize_chosen_iff (size : UInt32) :
    (∃ entry : Nat, hashChooseSize size = .ok entry ∧ Chosen size entry) ↔
      size.toNat ≤ 105359939 := by
  constructor
  · rintro ⟨entry, ha, -⟩
    by_contra! large
    have ho := chooseLoop_outside large (htSizeSz + 1) none (Nat.zero_le 43) (by decide)
    rw [hashChooseSize, show htSizeSz - 1 = 43 from rfl, ho] at ha
    cases ha
  · intro hf
    obtain ⟨entry, ha, hi⟩ := hashChooseSize_found hf
    exact ⟨entry, ha, .inl hi⟩

/-- One more than the last entry: `ht_size[44]` is read. -/
theorem hashChooseSize_outside : hashChooseSize 105359940 = .error (.outside 44) := by
  decide +kernel

end Fzsvn.Guarantees.Datastruct
