import Fzsvn.Library.Fallible
import Fzsvn.Source.Kernel.Scull

/-!
# The device as a bounded file

A file is a function from positions to bytes, zero where nothing was written, and a size.
Whatever descriptors do, the device answers as the file does and never leaves its data.
-/
namespace Fzsvn.Guarantees.Kernel.BoundedFile

open Function (update)
open Library.Block Library.Fallible Source.Kernel.Scull List Option

/-- `size` is the largest end of a write since the file was emptied. -/
structure File where
  content : Nat → UInt8
  size : Nat

def File.empty : File := ⟨fun _ => 0, 0⟩

def File.read (f : File) (offset len : Nat) : List UInt8 :=
  (range (min len (f.size - offset))).map fun i => f.content (offset + i)

def File.write (f : File) (offset : Nat) (bytes : List UInt8) : File where
  content i := if offset ≤ i ∧ i < offset + bytes.length then bytes.getD (i - offset) 0 else f.content i
  size := max (offset + bytes.length) f.size

variable {D : Type} [DecidableEq D]

/-- An event at a file of at most `SCULL_QUANTUM` bytes. -/
def fileStep (s : File × (D → Nat)) : Event D → (File × (D → Nat)) × Reply
  | .open d wronly => ((if wronly then .empty else s.1, update s.2 d 0), 0, [])
  | .seek d offset => ((s.1, update s.2 d offset), offset, [])
  | .read d len =>
    let bytes := s.1.read (s.2 d) len
    ((s.1, update s.2 d (s.2 d + bytes.length)), bytes.length, bytes)
  | .write d buf =>
    if scullQuantum ≤ s.2 d then (s, -enomem, [])
    else
      let bytes := buf.take (scullQuantum - s.2 d)
      ((s.1.write (s.2 d) bytes, update s.2 d (s.2 d + bytes.length)), bytes.length, [])

/-- The data are those of the file. -/
structure Stores (dev : ScullDev) (f : File) : Prop where
  length : dev.data.length = scullQuantum
  size : dev.size = f.size
  within : f.size ≤ scullQuantum
  data : ∀ i, i < scullQuantum → dev.data[i]? = some (f.content i)

variable {dev : ScullDev} {f : File} {offset len : Nat} {buf : List UInt8}

lemma stores_empty : Stores scullDevClear .empty where
  length := length_replicate
  size := rfl
  within := Nat.zero_le _
  data i hi := by
    rw [scullDevClear, getElem?_replicate, if_pos hi]
    rfl

lemma Stores.read (h : Stores dev f) (hl : len ≤ 2 ^ 31) : scullRead dev len offset =
    .ok ((f.read offset len).length, offset + (f.read offset len).length, f.read offset len) := by
  have hn : (f.read offset len).length = min len (f.size - offset) := by simp [File.read]
  have hw := h.within
  rw [scullRead, h.size, h.length, hn]
  by_cases ho : f.size ≤ offset
  · rw [if_pos ho, File.read, Nat.sub_eq_zero_of_le ho, Nat.min_zero]
    rfl
  · have hm : (offset + len) % 2 ^ 64 = offset + len := Nat.mod_eq_of_lt (by unfold scullQuantum at hw; omega)
    have hr : (if f.size ≤ offset + len then f.size - offset else len) = min len (f.size - offset) := by
      split <;> omega
    rw [if_neg ho, hm, hr, if_neg (by omega)]
    refine congrArg (fun bytes => Except.ok (_, _, bytes)) (ext_getElem? fun i => ?_)
    rw [slice_getElem?, File.read, getElem?_map]
    split
    next hi => rw [h.data _ (by omega), getElem?_range hi, map_some]
    next hi => rw [getElem?_eq_none (by rw [length_range]; omega), map_none]

lemma Stores.write (h : Stores dev f) (hl : buf.length ≤ 2 ^ 31) (ho : offset < scullQuantum)
    {bytes : List UInt8} (hb : bytes = buf.take (scullQuantum - offset)) :
    Yields (scullWrite dev buf offset) fun r =>
      r.1 = bytes.length ∧ r.2.1 = offset + bytes.length ∧ Stores r.2.2 (f.write offset bytes) := by
  have hn : bytes.length = min (scullQuantum - offset) buf.length := by simp [hb]
  have hm : (offset + buf.length) % 2 ^ 64 = offset + buf.length :=
    Nat.mod_eq_of_lt (by unfold scullQuantum at ho; omega)
  have hr : (if scullQuantum ≤ offset + buf.length then scullQuantum - offset else buf.length) =
      bytes.length := by split <;> omega
  have ht : buf.take bytes.length = bytes := by rw [hn, hb, ← take_eq_take_min]
  rw [scullWrite, if_neg (by omega)]
  simp only [hm, hr, h.length, ht]
  rw [if_neg (by omega), yields_pure]
  refine ⟨rfl, rfl, ?_, ?_, ?_, ?_⟩
  · exact (overwrite_length (by rw [h.length]; omega)).trans h.length
  · simp only [File.write, h.size]
  · have := h.within
    simp only [File.write]
    omega
  · intro i hi
    rw [overwrite_getElem? (by rw [h.length]; omega), File.write]
    dsimp only
    split
    next hw =>
      have hi' : i - offset < bytes.length := by omega
      rw [getD_eq_getElem?_getD, getElem?_eq_getElem hi', getD_some]
    next => exact h.data i hi

/-- The answers of the device to a sequence of events. -/
def deviceRun (s : ScullDev × (D → Nat)) : List (Event D) → Except Fault (List Reply)
  | [] => return []
  | e :: events => do
    let (s, reply) ← step s e
    let replies ← deviceRun s events
    return reply :: replies

def fileRun (s : File × (D → Nat)) : List (Event D) → List Reply
  | [] => []
  | e :: events => (fileStep s e).2 :: fileRun (fileStep s e).1 events

def Fits : Event D → Prop
  | .read _ len => 1 ≤ len ∧ len ≤ 2 ^ 31
  | .write _ buf => 1 ≤ buf.length ∧ buf.length ≤ 2 ^ 31
  | _ => True

lemma step_stores {e : Event D} (offsets : D → Nat) (h : Stores dev f) (he : Fits e) :
    ∃ dev', step (dev, offsets) e = .ok ((dev', (fileStep (f, offsets) e).1.2), (fileStep (f, offsets) e).2) ∧
      Stores dev' (fileStep (f, offsets) e).1.1 := by
  cases e with
  | «open» d wronly =>
    cases wronly with
    | false => exact ⟨dev, rfl, h⟩
    | true => exact ⟨scullDevClear, rfl, stores_empty⟩
  | seek d offset => exact ⟨dev, rfl, h⟩
  | read d len =>
    refine ⟨dev, ?_, h⟩
    rw [step, h.read he.2]
    rfl
  | write d buf =>
    rw [step, fileStep]
    by_cases ho : scullQuantum ≤ offsets d
    · rw [if_pos ho, scullWrite, if_pos ho]
      exact ⟨dev, by simp [bind, Except.bind, pure, Except.pure], h⟩
    · obtain ⟨⟨n, offset, dev'⟩, hr, rfl, rfl, h'⟩ := h.write he.2 (Nat.lt_of_not_le ho) rfl
      rw [if_neg ho, hr]
      exact ⟨dev', rfl, h'⟩

lemma run_stores {events : List (Event D)} {offsets : D → Nat} (h : Stores dev f)
    (he : ∀ e ∈ events, Fits e) : deviceRun (dev, offsets) events = .ok (fileRun (f, offsets) events) := by
  induction events generalizing dev f offsets with
  | nil => rfl
  | cons e events ih =>
    obtain ⟨dev', hr, h'⟩ := step_stores offsets h (he e mem_cons_self)
    rw [deviceRun, hr, eq_ok_iff]
    simp [ih h' fun e hm => he e (mem_cons_of_mem _ hm), fileRun]

/-- The device answers every sequence of events as the file does. -/
theorem device_refines (events : List (Event D)) (offsets : D → Nat) (h : ∀ e ∈ events, Fits e) :
    deviceRun (scullDevClear, offsets) events = .ok (fileRun (.empty, offsets) events) :=
  run_stores stores_empty h

theorem device_refines_one : ∃ replies, deviceRun (scullDevClear, fun _ => 0)
    [.write () [7], .read () 1] = .ok replies :=
  ⟨_, device_refines _ _ (by simp [Fits])⟩

end Fzsvn.Guarantees.Kernel.BoundedFile
