import Fzsvn.Guarantees.Netutil.AddressText
import Fzsvn.Library.Fallible
import Fzsvn.Source.Sysutil.Pidfile

/-!
# What is read back from a pid file

The array for the number has ten bytes, so at most nine digits are written, and what was read
is not terminated: `atoi` goes on with the digits that the array had before.
-/
namespace Fzsvn.Guarantees.Sysutil

open Function (update_self)
open Library.Fallible Source.Netutil Source.Sysutil Netutil.AddressText List

variable {text init : List Char}

lemma ofDigitChars_lt (h : ∀ c ∈ text, c.isDigit = true) :
    Nat.ofDigitChars 10 text 0 < 10 ^ text.length := by
  induction text with
  | nil => decide
  | cons c text ih =>
    have hr := ih fun c hc => h c (mem_cons_of_mem _ hc)
    have hc : c.toNat - '0'.toNat ≤ 9 := by
      have := (Char.isDigit_iff_toNat.mp (h c mem_cons_self)).2
      exact Nat.sub_le_iff_le_add.mpr this
    rw [Nat.ofDigitChars_cons, Nat.ofDigitChars_eq_ofDigitChars_zero, length_cons, Nat.pow_succ,
      Nat.mul_zero, Nat.zero_add]
    have := Nat.mul_le_mul_left (10 ^ text.length) hc
    omega

/-- A number of one to nine digits. -/
def Short (text : List Char) : Prop :=
  text ≠ [] ∧ text.length ≤ 9 ∧ ∀ c ∈ text, c.isDigit = true

/-- The array does not go on with a digit behind the number. -/
def Clean (text init : List Char) : Prop := ∃ c ∈ (init.drop text.length).head?, ¬ c.isDigit

lemma strtoul_lt (hl : text.length = 10) (hn : text.all Char.isDigit = false) :
    strtoul text < 10 ^ 9 := by
  have hp := takeWhile_prefix Char.isDigit (l := text)
  have hne : (text.takeWhile Char.isDigit).length ≠ text.length := by
    intro he
    rw [← hp.eq_of_length he, all_takeWhile] at hn
    cases hn
  have := hp.length_le
  exact Nat.lt_of_lt_of_le (ofDigitChars_lt fun c hc => mem_takeWhile_imp hc)
    (Nat.pow_le_pow_right (by decide) (by omega))

section

variable (h : Short text)
include h

lemma Short.strtoul_append (rest : List Char) : strtoul (text ++ rest) =
    10 ^ (rest.takeWhile Char.isDigit).length * strtoul text +
      Nat.ofDigitChars 10 (rest.takeWhile Char.isDigit) 0 := by
  rw [strtoul, strtoul, takeWhile_append_of_pos h.2.2, takeWhile_eq_self_iff.mpr h.2.2,
    Nat.ofDigitChars_append, Nat.ofDigitChars_eq_ofDigitChars_zero]

lemma Short.clean_iff (hp : strtoul text ≠ 0) :
    (text ++ init.drop text.length).all Char.isDigit = false ∧
      strtoul (text ++ init.drop text.length) = strtoul text ↔ Clean text init := by
  rw [h.strtoul_append, Clean, all_append, all_eq_true.mpr h.2.2]
  cases init.drop text.length with
  | nil => simp
  | cons c rest =>
    by_cases hc : c.isDigit
    · have := Nat.le_self_pow (n := (rest.takeWhile Char.isDigit).length + 1) (by omega) 10
      have := Nat.mul_le_mul_right (strtoul text) this
      simp [hc]
      omega
    · simp [hc]

variable (hi : init.length = 10)
include hi

lemma Short.length : (text ++ init.drop text.length).length = 10 := by
  have := h.2.1
  rw [length_append, length_drop]
  omega

/-- The digits that were read and those that follow in the array are the number. -/
lemma Short.getPid {files : Files} {pname : List Char} (hf : files (pidfile pname) = some text) {v : Int} :
    pidfileGetPid files pname init = .ok v ↔
      (text ++ init.drop text.length).all Char.isDigit = false ∧
        v = strtoul (text ++ init.drop text.length) := by
  have hp := length_pos_iff.mpr h.1
  have hl := h.2.1
  rw [pidfileGetPid, hf]
  simp only [Nat.min_eq_left (Nat.le_succ_of_le hl), take_length, all_eq_true.mpr h.2.2]
  rw [if_neg fun hc => hc.elim (by omega) fun hc => hc.elim (by omega) (by decide)]
  by_cases hd : (text ++ init.drop text.length).all Char.isDigit = true
  · rw [if_pos hd, hd]
    exact iff_of_false (fun he => by cases he) fun he => by cases he.1
  · have hv := Nat.lt_trans (strtoul_lt (h.length hi) (by simpa using hd))
      (by decide : 10 ^ 9 < 2 ^ 31)
    obtain ⟨c, rest, rfl⟩ := exists_cons_of_ne_nil h.1
    rw [if_neg hd, and_iff_right (Bool.eq_false_iff.mpr hd)]
    rw [cons_append] at hv ⊢
    rw [atoi_of_digit (h.2.2 c mem_cons_self) hv]
    exact ⟨fun he => (Except.ok.inj he).symm, fun he => he ▸ rfl⟩

end

/-- A pid that was written is read back. -/
def RoundTrip (pid : Nat) (init : List Char) : Prop :=
  ∀ opens n files pname, (pidfileNew opens n files pname pid).1 = 0 →
    pidfileGetPid (pidfileNew opens n files pname pid).2 pname init = .ok pid

/-- What is returned is -1 or the number that the file has. -/
def Truthful (content : List Char) : Prop :=
  ∀ files pname init, init.length = 10 → files (pidfile pname) = some content →
    Yields (pidfileGetPid files pname init) fun v =>
      0 ≤ v → content ≠ [] ∧ (∀ c ∈ content, c.isDigit = true) ∧ v = strtoul content

lemma truthful_iff {content : List Char} : Truthful content ↔ ¬ Short content := by
  constructor
  · intro h hs
    obtain ⟨v, hv, -⟩ := h (fun _ => some content) [] (replicate 10 '1') rfl rfl
    have hd := ((hs.getPid rfl rfl).mp hv).1
    rw [all_append, all_eq_true.mpr hs.2.2, drop_replicate, all_replicate] at hd
    split at hd <;> cases hd
  · intro hn files pname init hi hf
    rw [pidfileGetPid, hf]
    dsimp only
    rw [if_pos ?_, yields_pure]
    · exact fun h => by omega
    · by_contra hc
      simp only [not_or, Bool.not_eq_false] at hc
      rw [take_of_length_le (by omega)] at hc
      exact hn ⟨by rintro rfl; simp at hc, by omega, all_eq_true.mp hc.2.2⟩

lemma short_snprintf (pid : Nat) : Short (snprintf 10 (decimal pid)) :=
  ⟨by simp [snprintf, decimal, Nat.toDigits_ne_nil], length_take_le 9 _,
    fun c hc => decimal_isDigit pid c (mem_of_mem_take hc)⟩

lemma roundTrip_iff {pid : Nat} {text : List Char} (h1 : 1 ≤ pid) (ht : snprintf 10 (decimal pid) = text)
    (hi : init.length = 10) : RoundTrip pid init ↔
      (text ++ init.drop text.length).all Char.isDigit = false ∧
        pid = strtoul (text ++ init.drop text.length) := by
  have hs := ht ▸ short_snprintf pid
  constructor
  · intro h
    have hr := h true text.length (fun _ => none) []
    rw [pidfileNew, if_neg (by omega), if_neg (by decide), Int.toNat_natCast, ht, if_neg (by simp)] at hr
    exact_mod_cast (hs.getPid hi (update_self ..)).mp (hr rfl)
  · intro h opens n files pname h0
    rw [pidfileNew, if_neg (by omega), Int.toNat_natCast, ht] at h0 ⊢
    by_cases ho : opens = false
    · rw [if_pos ho] at h0
      cases h0
    · rw [if_neg ho] at h0 ⊢
      dsimp only at h0 ⊢
      split at h0
      · cases h0
      next hn =>
        rw [if_neg hn]
        exact (hs.getPid hi (update_self ..)).mpr (by exact_mod_cast h)

theorem pidfile_iff {pid : Nat} {content : List Char} (h1 : 1 ≤ pid) (hi : init.length = 10) :
    (RoundTrip pid init ↔ pid < 10 ^ 9 ∧ Clean (decimal pid) init) ∧
      (Truthful content ↔ ¬ Short content) := by
  refine ⟨?_, truthful_iff⟩
  have hs := short_snprintf pid
  rw [roundTrip_iff h1 rfl hi]
  by_cases hp : pid < 10 ^ 9
  · have ht : snprintf 10 (decimal pid) = decimal pid :=
      take_of_length_le (decimal_length (by decide) hp)
    rw [ht] at hs ⊢
    have hn : strtoul (decimal pid) ≠ 0 := by rw [strtoul_decimal]; omega
    rw [and_iff_right hp, ← hs.clean_iff hn, strtoul_decimal, eq_comm (a := pid)]
  · refine iff_of_false (fun h => ?_) fun h => hp h.1
    have := strtoul_lt (hs.length hi) h.1
    omega

/-- A pid of four digits is read back from an array of blanks, and a file with another text is
refused. -/
theorem pidfile_iff_blanks : RoundTrip 4711 (replicate 10 ' ') ∧ Truthful ['4', '7', ' '] := by
  have both := @pidfile_iff (replicate 10 ' ') 4711 ['4', '7', ' '] (by decide) rfl
  refine ⟨both.1.mpr ⟨by decide, ' ', rfl, by decide⟩, both.2.mpr fun short => ?_⟩
  exact absurd (short.2.2 ' ' (by simp)) (by decide)

/-- Nine of the ten digits are written. -/
theorem pid_truncated : ¬ RoundTrip 1234567890 (replicate 10 ' ') := by
  intro h
  have hr := (roundTrip_iff (by decide) rfl rfl).mp h
  have := strtoul_lt ((short_snprintf _).length rfl) hr.1
  omega

end Fzsvn.Guarantees.Sysutil
