import Fzsvn.Source.Debug.DbgLog
import Mathlib.Algebra.Ring.Int.Defs

/-!
# What a log operation leaves behind

The lock takes the semaphore only if the memory behind the array `locks` asks for it, while
every unlock gives one back. Three operations, moreover, return without having given everything
back: `dbg_log` keeps the descriptor when it succeeds, `dbg_log_read` when there is no record of
the index, and `dbg_log_clear` keeps the semaphore when the file cannot be opened, and both
when there is no record.
-/
namespace Fzsvn.Guarantees.Debug.LogBalance
open Source.Debug

def change : Act → Int
  | .semop change => change
  | _ => 0

/-- On return nothing is held that the call took or opened, and nothing is given back that it
did not take. -/
def Balanced (acts : List Act) : Prop :=
  (acts.map change).sum = 0 ∧ acts.count .closed = acts.count .opened

instance (acts : List Act) : Decidable (Balanced acts) := inferInstanceAs (Decidable (_ ∧ _))

/-- `_dl_open` fails. -/
def Unopened (df : DlFile) (a : Answers) : Prop :=
  a.opened = true → a.kept df = none ∧ a.created = false

/-- The lock has changed the semaphore as the exit of the operation expects it, and the exit
leaves nothing behind. -/
def Spared (df : DlFile) (a : Answers) (taken : Int) : LogOp → Prop
  | .log .. => taken = -1 ∧ (Unopened df a ∨ a.wrote = false)
  | .read _ index _ _ =>
    taken = -1 ∧ (Unopened df a ∨ ∃ h ∈ a.kept df, h.lacks index = false ∧ h.mrec ≠ 0)
  | .clear _ =>
    taken = 0 ∧ Unopened df a ∨ taken = -1 ∧ ¬ Unopened df a ∧ ∃ h ∈ a.kept df, h.nrec ≠ 0

/-- What `_dl_open` does, by whether it fails. -/
lemma dlOpenActs_cases (df : DlFile) (a : Answers) :
    Unopened df a ∧ (dlOpenActs df a = (none, []) ∨ dlOpenActs df a = (none, [.opened, .closed])) ∨
      ¬ Unopened df a ∧ ∃ h, dlOpenActs df a = (some h, [.opened]) ∧
        (a.kept df = some h ∨ a.kept df = none ∧ h.nrec = 0) := by
  unfold dlOpenActs Unopened
  cases a.opened <;> cases a.kept df <;> cases a.created <;> simp

lemma locked_balanced (df : DlFile) (a : Answers) (taken : Int) (op : LogOp) :
    (∃ acts ∈ op.locked df a, Balanced (.semop taken :: acts)) ↔ Spared df a taken op := by
  have hsum : taken + 1 = 0 ↔ taken = -1 := by omega
  obtain ⟨hun, hacts⟩ | ⟨hun, h, hacts, hkept⟩ := dlOpenActs_cases df a
  · cases op <;> obtain hacts | hacts := hacts <;>
      simp [LogOp.locked, dlWriteActs, Spared, Balanced, change, hacts, hun, hsum]
  cases op with
  | log type fmt =>
    cases hwrote : a.wrote <;>
      simp [LogOp.locked, dlWriteActs, Spared, Balanced, change, hacts, hun, hwrote, hsum]
  | read type index buf len =>
    obtain hkept | ⟨hkept, hnew⟩ := hkept
    · cases hlacks : h.lacks index <;> by_cases hm : h.mrec = 0 <;>
        simp [LogOp.locked, Spared, Balanced, change, hacts, hun, hlacks, hm, hkept, hsum]
    · -- a new header has no record
      have hlacks : h.lacks index = true := by simp [DlHeader.lacks, hnew]
      simp [LogOp.locked, Spared, Balanced, change, hacts, hun, hlacks, hkept]
  | clear type =>
    obtain hkept | ⟨hkept, hnew⟩ := hkept
    · by_cases hn : h.nrec = 0 <;>
        simp [LogOp.locked, Spared, Balanced, change, hacts, hun, hn, hkept, hsum]
    · simp [LogOp.locked, Spared, Balanced, change, hacts, hun, hnew, hkept]

/-- An operation returns and leaves nothing behind exactly if it does not come to `semop`, or
the change that it makes there and its exit fit together. -/
theorem balanced_iff (op : LogOp) (a : Answers) : (∃ acts ∈ op.acts a, Balanced acts) ↔
    ∀ df, op.file = some df → ∀ taken, a.lock = some taken → Spared df a taken op := by
  unfold LogOp.acts
  cases hf : op.file with
  | none => simp [Balanced]
  | some df =>
    cases hl : a.lock with
    | none => simp [Balanced]
    | some taken =>
      have h := locked_balanced df a taken op
      simpa using h

/-- A message that is written, and its descriptor still open. -/
theorem log_leaks : LogOp.acts (.log 0 true) ⟨some (-1), true, none, true, true, true, true⟩ =
      some [.semop (-1), .opened, .semop 1] ∧ ¬ Balanced [.semop (-1), .opened, .semop 1] := by
  decide

end Fzsvn.Guarantees.Debug.LogBalance
