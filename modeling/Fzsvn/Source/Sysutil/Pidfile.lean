import Fzsvn.Source.Netutil.IpAddr

/-!
# Pid files

`pidfile_new` and `pidfile_get_pid` of `pidfile_util.c`. The answers of `open` and `write` are
arguments; a read behind the array of ten bytes is a fault.
-/
namespace Fzsvn.Source.Sysutil

open Function (update)
open Source.Netutil

inductive Fault where
  | outOfBounds

abbrev Files := List Char → Option (List Char)

/-- `PIDFILE_FMT`, in an array of `PIDFILE_LEN` bytes -/
def pidfile (pname : List Char) : List Char :=
  snprintf 128 ("/var/log/".toList ++ pname ++ ".pid".toList)

/-- `pidfile_new`, where `write` returns `n`, with the files afterwards -/
def pidfileNew (opens : Bool) (n : Int) (files : Files) (pname : List Char) (pid : Int) : Int × Files :=
  if pid < 1 then (0, files)
  else if opens = false then (-1, files)
  else
    let pidStr := snprintf 10 (decimal pid.toNat)
    if n < 0 ∨ n ≠ pidStr.length then (-1, update files (pidfile pname) none)
    else (0, update files (pidfile pname) (some pidStr))

/-- `pidfile_get_pid`, where the array holds `init` before the read -/
def pidfileGetPid (files : Files) (pname init : List Char) : Except Fault Int := do
  match files (pidfile pname) with
  | none => return -1
  | some content =>
    let n := min content.length 10
    if n < 1 ∨ 9 < n ∨ (content.take n).all Char.isDigit = false then return -1
    -- `atoi` goes on behind what was read
    let pidStr := content.take n ++ init.drop n
    if pidStr.all Char.isDigit then throw .outOfBounds
    return atoi pidStr

end Fzsvn.Source.Sysutil
