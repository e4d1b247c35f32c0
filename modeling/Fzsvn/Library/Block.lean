import Mathlib.Data.List.Basic

/-!
# Blocks of memory

A block is the list of its cells. `slice` reads cells in a row and `overwrite` replaces
them; a write that starts inside the block or at its end may make it longer.
-/
namespace Fzsvn.Library.Block
open List

variable {α : Type}

/-- The `len` cells from `pos` on. -/
def slice (block : List α) (pos len : Nat) : List α := (block.drop pos).take len

/-- `data` written from `pos` on. -/
def overwrite (block : List α) (pos : Nat) (data : List α) : List α :=
  block.take pos ++ data ++ block.drop (pos + data.length)

/-- `data` written from `pos` on, which may lie behind the end; the gap is filled. -/
def store (fill : α) (block : List α) (pos : Nat) (data : List α) : List α :=
  overwrite (block ++ replicate (pos - block.length) fill) pos data

variable {block data : List α} {pos len start : Nat}

lemma overwrite_length (inside : pos + data.length ≤ block.length) :
    (overwrite block pos data).length = block.length := by
  simp only [overwrite, length_append, length_take, length_drop]
  omega

lemma overwrite_getElem? (room : pos ≤ block.length) (i : Nat) : (overwrite block pos data)[i]? =
      if pos ≤ i ∧ i < pos + data.length then data[i - pos]? else block[i]? := by
  have taken : (block.take pos).length = pos := by simp [room]
  rw [overwrite, append_assoc]
  by_cases before : i < pos
  · rw [getElem?_append_left (by omega), getElem?_take_of_lt before,
      if_neg (by omega)]
  · rw [getElem?_append_right (by omega), taken]
    by_cases within : i < pos + data.length
    · rw [getElem?_append_left (by omega), if_pos (by omega)]
    · rw [getElem?_append_right (by omega), getElem?_drop, if_neg (by omega)]
      congr 1
      omega

lemma slice_length (inside : pos + len ≤ block.length) : (slice block pos len).length = len := by
  simp only [slice, length_take, length_drop]
  omega

lemma slice_getElem? (i : Nat) : (slice block pos len)[i]? = if i < len then block[pos + i]? else none := by
  by_cases within : i < len
  · rw [slice, getElem?_take_of_lt within, getElem?_drop, if_pos within]
  · rw [slice, if_neg within]
    exact getElem?_eq_none (by simp only [length_take]; omega)

lemma slice_append (first second : Nat) :
    slice block pos (first + second) = slice block pos first ++ slice block (pos + first) second := by
  rw [slice, take_add, slice, slice, drop_drop]

/-- What was written is read back. -/
lemma slice_overwrite (room : pos ≤ block.length) :
    slice (overwrite block pos data) pos data.length = data := by
  apply ext_getElem?
  intro i
  rw [slice_getElem?, overwrite_getElem? room]
  by_cases within : i < data.length
  · rw [if_pos within, if_pos (by omega)]
    congr 1
    omega
  · rw [if_neg within, getElem?_eq_none (by omega)]

/-- The rest of the block is unchanged. -/
lemma slice_overwrite_frame (room : pos ≤ block.length)
    (apart : start + len ≤ pos ∨ pos + data.length ≤ start) :
    slice (overwrite block pos data) start len = slice block start len := by
  apply ext_getElem?
  intro i
  rw [slice_getElem?, slice_getElem?, overwrite_getElem? room]
  by_cases within : i < len
  · rw [if_pos within, if_pos within, if_neg (by omega)]
  · rw [if_neg within, if_neg within]

/-- Reading inside a block does not see what follows it. -/
lemma slice_append_left (more : List α) (inside : start + len ≤ block.length) :
    slice (block ++ more) start len = slice block start len := by
  apply ext_getElem?
  intro i
  rw [slice_getElem?, slice_getElem?]
  by_cases within : i < len
  · rw [if_pos within, if_pos within, getElem?_append_left (by omega)]
  · rw [if_neg within, if_neg within]

lemma slice_store {fill : α} : slice (store fill block pos data) pos data.length = data :=
  slice_overwrite (by rw [length_append, length_replicate]; omega)

/-- A slice that was there is still there. -/
lemma slice_store_frame {fill : α} (full : (slice block start len).length = len)
    (apart : start + len ≤ pos ∨ pos + data.length ≤ start) :
    slice (store fill block pos data) start len = slice block start len := by
  by_cases empty : len = 0
  · rw [empty, slice, slice, take_zero, take_zero]
  · have inside : start + len ≤ block.length := by
      simp only [slice, length_take, length_drop] at full
      omega
    rw [store, slice_overwrite_frame (by rw [length_append, length_replicate]; omega) apart,
      slice_append_left _ inside]

/-- A shorter slice from the same position. -/
lemma slice_take {less : Nat} (shorter : less ≤ len) : slice block pos less = (slice block pos len).take less := by
  rw [slice, slice, take_take, Nat.min_eq_left shorter]

/-- A slice of a slice. -/
lemma slice_slice {off less : Nat} (inside : off + less ≤ len) :
    slice (slice block pos len) off less = slice block (pos + off) less := by
  rw [slice, slice, slice, drop_take, drop_drop, take_take, Nat.min_eq_left (by omega)]

end Fzsvn.Library.Block
