import Mathlib.Logic.Basic

/-!
# Computations that may fail

`Yields run post` says that `run` ends without a fault, in a value that has `post`, and
`Gives run post` that it has `post` if it ends without a fault. The rules take a statement
about a composed computation apart along its steps.
-/
namespace Fzsvn.Library.Fallible

variable {ε α β : Type}

def Yields (run : Except ε α) (post : α → Prop) : Prop := ∃ value, run = .ok value ∧ post value

variable {run : Except ε α} {next : α → Except ε β} {post : α → Prop}

@[simp] lemma yields_ok (value : α) : Yields (.ok value : Except ε α) post ↔ post value :=
  ⟨fun ⟨_, same, hh⟩ => Except.ok.inj same ▸ hh, fun hh => ⟨value, rfl, hh⟩⟩

@[simp] lemma yields_pure (value : α) : Yields (pure value : Except ε α) post ↔ post value :=
  yields_ok value

@[simp] lemma yields_error (fault : ε) : ¬ Yields (.error fault : Except ε α) post := by
  rintro ⟨_, same, _⟩
  cases same

@[simp] lemma yields_bind {post : β → Prop} :
    Yields (run >>= next) post ↔ Yields run fun value => Yields (next value) post := by
  cases run with
  | error fault => exact iff_of_false (yields_error fault) (yields_error fault)
  | ok value =>
    rw [yields_ok]
    rfl

lemma yields_ite {cond : Prop} [Decidable cond] {other : Except ε α} :
    Yields (if cond then run else other) post ↔ (cond → Yields run post) ∧ (¬ cond → Yields other post) := by
  by_cases yes : cond <;> simp [yes]

/-- A result as a statement about the computation. -/
lemma eq_ok_iff {value : α} : run = .ok value ↔ Yields run (· = value) :=
  ⟨fun same => ⟨value, same, rfl⟩, fun ⟨_, same, eq⟩ => eq ▸ same⟩

lemma exists_ok (ok : run.isOk) : ∃ value, run = .ok value := by
  cases run with
  | error fault => cases ok
  | ok value => exact ⟨value, rfl⟩

def Gives (run : Except ε α) (post : α → Prop) : Prop := ∀ value, run = .ok value → post value

@[simp] lemma gives_ok (value : α) : Gives (.ok value : Except ε α) post ↔ post value :=
  ⟨fun given => given value rfl, fun hh _ same => Except.ok.inj same ▸ hh⟩

@[simp] lemma gives_pure (value : α) : Gives (pure value : Except ε α) post ↔ post value :=
  gives_ok value

@[simp] lemma gives_error (fault : ε) : Gives (.error fault : Except ε α) post := by
  intro value same
  cases same

@[simp] lemma gives_bind {post : β → Prop} :
    Gives (run >>= next) post ↔ Gives run fun value => Gives (next value) post := by
  cases run with
  | error fault => exact iff_of_true (gives_error fault) (gives_error fault)
  | ok value =>
    rw [gives_ok]
    rfl

lemma gives_ite {cond : Prop} [Decidable cond] {other : Except ε α} :
    Gives (if cond then run else other) post ↔ (cond → Gives run post) ∧ (¬ cond → Gives other post) := by
  by_cases yes : cond <;> simp [yes]

lemma Gives.mono {post' : α → Prop} (given : Gives run post)
    (weaker : ∀ value, post value → post' value) : Gives run post' :=
  fun value same => weaker value (given value same)

end Fzsvn.Library.Fallible
