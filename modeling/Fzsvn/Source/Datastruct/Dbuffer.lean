import Fzsvn.Library.Block

/-!
# Dynamic buffer

Embedding of `basic/datastruct/dbuffer.h`. The allocation behind `buf->buf` is the block of
its bytes. A pointer argument is the function that reads from it, `none` for `NULL`; the
same holds for what `malloc` returns, whose bytes are not initialised.
-/
namespace Fzsvn.Source.Datastruct
open Library.Block

/-- Where the bytes come from. -/
abbrev Pointer := Option (Nat → UInt8)

/-- `len` bytes behind a pointer. -/
def bytesAt (memory : Nat → UInt8) (len : UInt32) : List UInt8 := (List.range len.toNat).map memory

structure Dbuf where
  max : UInt32
  len : UInt32
  buf : Option (List UInt8)

/-- `memcpy` left the allocation it writes to or the one it reads from. -/
inductive DbufFault where
  | outOfBounds

def malloc (answer : Pointer) (size : UInt32) : Option (List UInt8) :=
  answer.map fun memory => bytesAt memory size

def dbufInit (buf : Dbuf) (max : UInt32) (answer : Pointer) : Int × Dbuf :=
  if max < 1 then (-1, buf)
  else match malloc answer max with
    | none => (-1, { buf with buf := none })
    | some p => (0, { max, len := 0, buf := some p })

def dbufResize (buf : Dbuf) (max : UInt32) (answer : Pointer) : Except DbufFault (Int × Dbuf) :=
  if max < 1 then .ok (-1, buf)
  else if max < buf.len then .ok (-1, buf)
  else if max = buf.max then .ok (0, buf)
  else match malloc answer max with
    | none => .ok (-1, buf)
    | some p =>
      match buf.buf with
      | some old =>
        if buf.len > 0 then
          if buf.len.toNat ≤ old.length then
            .ok (0, { buf with buf := some (overwrite p 0 (slice old 0 buf.len.toNat)) })
          else .error .outOfBounds
        else .ok (0, { buf with buf := some p })
      | none => .ok (0, { buf with buf := some p })

def dbufPut (buf : Dbuf) (d : Pointer) (len : UInt32) : Except DbufFault (Int × Dbuf) :=
  match d with
  | none => .ok (-1, buf)
  | some d =>
    if len < 1 then .ok (-1, buf)
    else match buf.buf with
      | none => .ok (-1, buf)
      | some old =>
        if buf.max - buf.len < len then .ok (-1, buf)
        else if buf.len.toNat + len.toNat ≤ old.length then
          .ok (0, { buf with
            buf := some (overwrite old buf.len.toNat (bytesAt d len))
            len := buf.len + len })
        else .error .outOfBounds

def dbufReset (buf : Dbuf) : Dbuf := { buf with len := 0 }

/-- What `dbuf_free` leaves behind. -/
def dbufZero : Dbuf := { max := 0, len := 0, buf := none }

end Fzsvn.Source.Datastruct
