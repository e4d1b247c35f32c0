import Fzsvn.Library.Block
import Fzsvn.Library.LittleEndian

/-!
# Ring log

Embedding of `system/debug/dbg_log.c` for one log file: a header of five words and then
`maxrec` slots of `reclen` bytes. The file is its content, and the calls that access it
succeed; `_dl_lock` and `_dl_unlock` are left out, so a call here is one that got the lock. A
`read` that meets the end of the file returns fewer bytes. The last section has the calls for
the lock and the file, and how they fail.
-/
namespace Fzsvn.Source.Debug
open Library.Block Library.LittleEndian

structure DlFile where
  magic : UInt32
  reclen : UInt32
  maxrec : UInt32

structure DlHeader where
  magic : UInt32
  wpos : UInt32
  wrec : UInt32
  mrec : UInt32
  nrec : UInt32

/-- `sizeof(_dl_header_t)`. -/
def hlen : Nat := 20

def DlHeader.encode (h : DlHeader) : List UInt8 :=
  bytes32 h.magic ++ bytes32 h.wpos ++ bytes32 h.wrec ++ bytes32 h.mrec ++ bytes32 h.nrec

def DlHeader.decode (bytes : List UInt8) : DlHeader where
  magic := word32 bytes
  wpos := word32 (bytes.drop 4)
  wrec := word32 (bytes.drop 8)
  mrec := word32 (bytes.drop 12)
  nrec := word32 (bytes.drop 16)

/-- `lseek` and `write`. -/
def writeAt (file : List UInt8) (pos : Nat) (data : List UInt8) : List UInt8 := store 0 file pos data

/-- The header and the file after it. -/
def dlOpen (df : DlFile) (file : List UInt8) : DlHeader × List UInt8 :=
  let bytes := slice file 0 hlen
  if bytes.length = hlen ∧ (DlHeader.decode bytes).magic = df.magic then (.decode bytes, file)
  else
    let h : DlHeader := { magic := df.magic, nrec := 0, wrec := 0, mrec := df.maxrec, wpos := 20 }
    (h, writeAt file 0 h.encode)

/-- What `_dl_write` does to the header. -/
def DlHeader.advance (h : DlHeader) (reclen : UInt32) : DlHeader :=
  let h := { h with wrec := h.wrec + 1, wpos := h.wpos + reclen }
  if h.wrec ≥ h.mrec then { h with wrec := 0, wpos := 20 }
  else if h.nrec < h.mrec then { h with nrec := h.nrec + 1 }
  else h

/-- `buf` is the `reclen` bytes that the caller's buffer starts with. -/
def dlWrite (df : DlFile) (file buf : List UInt8) : List UInt8 :=
  let (h, file) := dlOpen df file
  let file := writeAt file h.wpos.toNat buf
  writeAt file 0 (h.advance df.reclen).encode

/-- The bytes read, or `none` for -1. -/
def dbgLogRead (df : DlFile) (file : List UInt8) (index : Int32) (len : Nat) :
    Option (List UInt8) × List UInt8 :=
  if len < 1 then (none, file)
  else
    let len := if len > df.reclen.toNat then df.reclen.toNat else len
    let (h, file) := dlOpen df file
    if index < 0 ∨ index.toUInt32 ≥ h.nrec then (none, file)
    else
      let srec := if h.nrec = h.mrec then h.wrec else 0
      let srec := (srec + index.toUInt32) % h.mrec
      let bytes := slice file (hlen + (srec * df.reclen).toNat) len
      if bytes.length ≠ len then (none, file) else (some bytes, file)

def dbgLogClear (df : DlFile) (file : List UInt8) : List UInt8 :=
  let (h, file) := dlOpen df file
  if h.nrec = 0 then file
  else
    let h : DlHeader := { magic := df.magic, mrec := df.maxrec, wrec := 0, nrec := 0, wpos := 20 }
    writeAt file 0 h.encode

/-! ## The lock and the descriptor

The operations once more, as the calls that they make for the semaphore and the file when any
of them can fail. `_dl_lock` hands `semop` the address `&locks[4]` of an array of one, so what
is done to the semaphore is what the memory holds there. `_dl_unlock` adds one. -/

inductive Act where
  /-- The semaphore is changed by so much. -/
  | semop (change : Int)
  | opened
  | closed
  deriving DecidableEq

/-- How the calls of an operation end. -/
structure Answers where
  /-- The `sem_op` at `&locks[4]`, if `semop` returns 0. -/
  lock : Option Int
  opened : Bool
  /-- What `_dl_open` reads, if it is a whole header. -/
  header : Option DlHeader
  /-- `_dl_open` writes a new header. -/
  created : Bool
  seek : Bool
  record : Bool
  /-- `_dl_write` writes the header back. -/
  updated : Bool

/-- `_dl_files`, by type. -/
def dlFile (type : Int) : Option DlFile :=
  if type < 0 then none
  else [⟨0x12345678, 256, 5000⟩, ⟨0x13572468, 512, 10000⟩, ⟨0x24681357, 512, 10000⟩][type.toNat]?

/-- The header in the file, if the magic is right. -/
def Answers.kept (a : Answers) (df : DlFile) : Option DlHeader :=
  a.header.filter fun h => h.magic = df.magic

/-- The calls of `_dl_write` succeed. -/
def Answers.wrote (a : Answers) : Bool := a.seek && a.record && a.updated

/-- There is no record of the index. -/
def DlHeader.lacks (h : DlHeader) (index : Int32) : Bool := index < 0 || index.toUInt32 ≥ h.nrec

/-- The header, if the descriptor is returned. -/
def dlOpenActs (df : DlFile) (a : Answers) : Option DlHeader × List Act :=
  if !a.opened then (none, [])
  else
    match a.kept df with
    | some h => (some h, [.opened])
    | none =>
      if !a.created then (none, [.opened, .closed])
      else (some ⟨df.magic, 20, 0, df.maxrec, 0⟩, [.opened])

def dlWriteActs (df : DlFile) (a : Answers) : List Act :=
  match dlOpenActs df a with
  | (none, acts) => acts
  | (some _, acts) => if a.wrote then acts else acts ++ [.closed]

/-- `type`, `index`, and `true` for a pointer that is not NULL. -/
inductive LogOp where
  | log (type : Int) (fmt : Bool)
  | read (type : Int) (index : Int32) (buf : Bool) (len : Nat)
  | clear (type : Int)

/-- The file of a call that passes the checks of its arguments. -/
def LogOp.file : LogOp → Option DlFile
  | .log type fmt => if !fmt then none else dlFile type
  | .read type _ buf len => if !buf || len < 1 then none else dlFile type
  | .clear type => dlFile type

/-- `dbg_log`, `dbg_log_read` and `dbg_log_clear` behind `_dl_lock`; `none` is the division by
an `mrec` of 0. -/
def LogOp.locked (df : DlFile) (a : Answers) : LogOp → Option (List Act)
  | .log .. => some (dlWriteActs df a ++ [.semop 1])
  | .read _ index _ _ =>
    match dlOpenActs df a with
    | (none, acts) => some (acts ++ [.semop 1])
    | (some h, acts) =>
      if h.lacks index then some (acts ++ [.semop 1])
      else if h.mrec = 0 then none
      -- also if lseek or read fails
      else some (acts ++ [.semop 1, .closed])
  | .clear _ =>
    match dlOpenActs df a with
    | (none, acts) => some acts
    | (some h, acts) => if h.nrec = 0 then some acts else some (acts ++ [.closed, .semop 1])

def LogOp.acts (op : LogOp) (a : Answers) : Option (List Act) :=
  match op.file with
  | none => some []
  | some df =>
    match a.lock with
    | none => some []
    | some change => (op.locked df a).map (.semop change :: ·)

end Fzsvn.Source.Debug
