import Mathlib.Order.Basic

/-!
# Postconditions of stateful programs that can stop

A program of type `EStateM ε σ α` ends normally with a value, or stops with a
reason; both ends carry the state reached. `Ensures` states a postcondition for
either end. The rules below reduce it along the program text, so that a proof
about a program is a proof about the states between its steps.
-/
namespace Fzsvn.Library.Exec

variable {ε σ α β : Type}

/-- `prog` started in `s` ends normally in `Q` or stops in `E`. -/
def Ensures (prog : EStateM ε σ α) (s : σ) (Q : α → σ → Prop) (E : ε → σ → Prop) : Prop :=
  match prog s with
  | .ok a s' => Q a s'
  | .error e s' => E e s'

/-- The state in which `prog` started in `s` ends, normally or not. -/
def final (prog : EStateM ε σ α) (s : σ) : σ :=
  match prog s with
  | .ok _ s' => s'
  | .error _ s' => s'

variable {Q : α → σ → Prop} {R : β → σ → Prop} {E : ε → σ → Prop} {s : σ}

@[simp] lemma ensures_pure (a : α) : Ensures (pure a : EStateM ε σ α) s Q E ↔ Q a s := Iff.rfl

@[simp] lemma ensures_bind (prog : EStateM ε σ α) (next : α → EStateM ε σ β) :
    Ensures (prog >>= next) s R E ↔ Ensures prog s (fun a s' => Ensures (next a) s' R E) E := by
  simp only [Ensures, bind, EStateM.bind]
  cases prog s <;> rfl

@[simp] lemma ensures_map (prog : EStateM ε σ α) (f : α → β) :
    Ensures (f <$> prog) s R E ↔ Ensures prog s (fun a => R (f a)) E := by
  rw [map_eq_pure_bind, ensures_bind]
  rfl

@[simp] lemma ensures_get {Q : σ → σ → Prop} : Ensures (get : EStateM ε σ σ) s Q E ↔ Q s s := Iff.rfl

@[simp] lemma ensures_modify {Q : PUnit → σ → Prop} (f : σ → σ) :
    Ensures (modify f : EStateM ε σ PUnit) s Q E ↔ Q ⟨⟩ (f s) := Iff.rfl

@[simp] lemma ensures_throw (e : ε) : Ensures (throw e : EStateM ε σ α) s Q E ↔ E e s := Iff.rfl

lemma ensures_ite (c : Prop) [Decidable c] (yes no : EStateM ε σ α) :
    Ensures (if c then yes else no) s Q E ↔ (c → Ensures yes s Q E) ∧ (¬ c → Ensures no s Q E) := by
  by_cases h : c <;> simp [h]

variable {prog : EStateM ε σ α} {Q' : α → σ → Prop}

lemma Ensures.mono {E' : ε → σ → Prop} (h : Ensures prog s Q E) (hq : ∀ a s', Q a s' → Q' a s')
    (he : ∀ e s', E e s' → E' e s') : Ensures prog s Q' E' := by
  unfold Ensures at h ⊢
  cases hp : prog s with
  | ok a s' =>
    rw [hp] at h
    exact hq a s' h
  | error e s' =>
    rw [hp] at h
    exact he e s' h

/-- What is guaranteed where the program stops stays as it is. -/
lemma Ensures.imp (h : Ensures prog s Q E) (hq : ∀ a s', Q a s' → Q' a s') :
    Ensures prog s Q' E := h.mono hq fun _ _ stops => stops

/-- Nothing is guaranteed where the program stops. -/
lemma Ensures.imp_true (h : Ensures prog s Q E) (hq : ∀ a s', Q a s' → Q' a s') :
    Ensures prog s Q' fun _ _ => True :=
  h.mono hq fun _ _ _ => trivial

lemma Ensures.and {E' : ε → σ → Prop} (h : Ensures prog s Q E) (h' : Ensures prog s Q' E') :
    Ensures prog s (fun a s' => Q a s' ∧ Q' a s') (fun e s' => E e s' ∧ E' e s') := by
  unfold Ensures at h h' ⊢
  cases hp : prog s with
  | ok a s' =>
    rw [hp] at h h'
    exact ⟨h, h'⟩
  | error e s' =>
    rw [hp] at h h'
    exact ⟨h, h'⟩

/-- What is known of the end of a particular execution. -/
lemma Ensures.of_ok {a : α} {s' : σ} (h : Ensures prog s Q E) (run : prog s = .ok a s') : Q a s' := by
  unfold Ensures at h
  rwa [run] at h

/-- What holds at either end holds at the end. -/
lemma Ensures.final {P : σ → Prop} (h : Ensures prog s (fun _ => P) (fun _ => P)) : P (final prog s) := by
  unfold Ensures at h
  unfold Exec.final
  cases hp : prog s with
  | ok a s' =>
    rw [hp] at h
    exact h
  | error e s' =>
    rw [hp] at h
    exact h

lemma ensures_of_forall (h : ∀ a s', prog s = .ok a s' → Q a s') : Ensures prog s Q fun _ _ => True := by
  unfold Ensures
  cases hp : prog s with
  | ok a s' => exact h a s' hp
  | error e s' => trivial

instance [∀ a s, Decidable (Q a s)] [∀ e s, Decidable (E e s)] (prog : EStateM ε σ α) :
    Decidable (Ensures prog s Q E) :=
  match h : prog s with
  | .ok a s' => decidable_of_iff (Q a s') (by unfold Ensures; rw [h])
  | .error e s' => decidable_of_iff (E e s') (by unfold Ensures; rw [h])

/-! ## Relations between the state before and after -/

/-- Every end of `prog` is related to its start. -/
def Keeps (rel : σ → σ → Prop) (prog : EStateM ε σ α) : Prop :=
  ∀ s, Ensures prog s (fun _ s' => rel s s') (fun _ s' => rel s s')

section

variable {rel : σ → σ → Prop} [IsPreorder σ rel]

lemma keeps_pure (a : α) : Keeps rel (pure a : EStateM ε σ α) := fun s => refl_of rel s

lemma keeps_throw (e : ε) : Keeps rel (throw e : EStateM ε σ α) := fun s => refl_of rel s

/-- A program run somewhere behind the start. -/
lemma Keeps.after (h : Keeps rel prog) {a b : σ} (before : rel a b) :
    Ensures prog b (fun _ s' => rel a s') (fun _ s' => rel a s') :=
  (h b).mono (fun _ _ h' => trans_of rel before h') (fun _ _ h' => trans_of rel before h')

lemma keeps_bind {next : α → EStateM ε σ β} (first : Keeps rel prog)
    (rest : ∀ a, Keeps rel (next a)) : Keeps rel (prog >>= next) := by
  intro s
  rw [ensures_bind]
  exact (first s).imp fun a s' h => (rest a).after h

omit [IsPreorder σ rel] in
lemma keeps_ite {c : Prop} [Decidable c] {yes no : EStateM ε σ α} (h1 : Keeps rel yes)
    (h2 : Keeps rel no) : Keeps rel (if c then yes else no) := by
  split
  · exact h1
  · exact h2

end

/-! ## Runs -/

section

variable {κ : Type} (step : κ → EStateM ε σ Unit)

/-- One action after the other, until one of them stops. -/
def runAll : List κ → EStateM ε σ Unit
  | [] => pure ()
  | a :: rest => do
    step a
    runAll rest

/-- Every action of the run meets `cond` in the state it starts in. -/
def Along (cond : σ → κ → Prop) : List κ → σ → Prop
  | [], _ => True
  | a :: rest, s => cond s a ∧ ∀ s', step a s = .ok () s' → Along cond rest s'

variable {step}

instance decidableAlong {cond : σ → κ → Prop} [∀ s a, Decidable (cond s a)] :
    ∀ (actions : List κ) (s : σ), Decidable (Along step cond actions s)
  | [], _ => isTrue trivial
  | a :: rest, s =>
    match h : step a s with
    | .ok () s' =>
      have : Decidable (Along step cond rest s') := decidableAlong rest s'
      decidable_of_iff (cond s a ∧ Along step cond rest s') (by simp [Along, h])
    | .error _ _ => decidable_of_iff (cond s a) (by simp [Along, h])

variable {cond : σ → κ → Prop} {actions : List κ}

lemma along_of_forall (s : σ) (h : ∀ a ∈ actions, ∀ s, cond s a) : Along step cond actions s := by
  induction actions generalizing s with
  | nil => trivial
  | cons a rest ih =>
    exact ⟨h a (by simp) s, fun s' _ => ih s' fun b hb => h b (by simp [hb])⟩

variable {I : σ → Prop}

/-- Along a run of admitted actions an invariant may be relied on. -/
lemma Along.and_invariant (along : Along step cond actions s)
    (keep : ∀ a s, I s → cond s a → Ensures (step a) s (fun _ => I) (fun _ _ => True))
    (start : I s) : Along step (fun s a => cond s a ∧ I s) actions s := by
  induction actions generalizing s with
  | nil => trivial
  | cons a rest ih =>
    exact ⟨⟨along.1, start⟩, fun s' h => ih (along.2 s' h) ((keep a s start along.1).of_ok h)⟩

/-- An invariant that every admitted action keeps holds at the end of every run of
admitted actions; where the run stops, what the actions guarantee there holds. -/
lemma runAll_ensures (keep : ∀ a s, I s → cond s a → Ensures (step a) s (fun _ => I) E)
    (start : I s) (along : Along step cond actions s) : Ensures (runAll step actions) s (fun _ => I) E := by
  induction actions generalizing s with
  | nil => exact start
  | cons a rest ih =>
    have first := keep a s start along.1
    unfold Ensures at first ⊢
    cases hstep : step a s with
    | ok u s' =>
      rw [hstep] at first
      have later := ih first (along.2 s' hstep)
      simp only [runAll, bind, EStateM.bind, hstep]
      exact later
    | error e s' =>
      rw [hstep] at first
      simp only [runAll, bind, EStateM.bind, hstep]
      exact first

lemma runAll_invariant (keep : ∀ a s, I s → Ensures (step a) s (fun _ => I) E)
    (actions : List κ) (start : I s) : Ensures (runAll step actions) s (fun _ => I) E :=
  runAll_ensures (fun a s h _ => keep a s h) start
    (along_of_forall s fun _ _ _ => (trivial : (fun _ _ => True) _ _))

end

-- A statement about a closed program is a statement, not an invitation to run it.
attribute [irreducible] Ensures

end Fzsvn.Library.Exec
