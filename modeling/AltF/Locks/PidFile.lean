/-
  Locks/PidFile.lean --- a file that names the owner of a lock.

  A program writes its pid in two calls: an open that creates or empties the file
  and a write to what it opened.  The file may be unlinked in between; the write
  then goes to an inode that no name leads to any more.
-/
import AltF.Foundation.Processes

set_option autoImplicit false

namespace AltF.Locks

open AltF.Foundation

/-- The pid file: the inode its name leads to, with what that inode holds. -/
structure PidFile where
  /-- The inode and the pid in it, `none` when it is empty. -/
  entry : Option (Nat × Option Pid)
  /-- The next inode to be handed out. -/
  fresh : Nat
  deriving DecidableEq, Repr

namespace PidFile

/-- `test -e` and `test -f`. -/
def present (f : PidFile) : Bool := f.entry.isSome

/-- What `cat` prints: nothing when the file is empty or not there. -/
def content (f : PidFile) : Option Pid := f.entry.bind (·.2)

/-- `creat`, or the open of a redirection: the file after it and the inode opened. -/
def creat (f : PidFile) : PidFile × Nat :=
  match f.entry with
  | none => (⟨some (f.fresh, none), f.fresh + 1⟩, f.fresh)
  | some (i, _) => ({ f with entry := some (i, none) }, i)

/-- A write of the pid `p` to an opened inode. -/
def write (f : PidFile) (fd : Nat) (p : Pid) : PidFile :=
  match f.entry with
  | none => f
  | some (i, _) => if i = fd then { f with entry := some (i, some p) } else f

/-- `unlink`, with what it reports. -/
def unlink (f : PidFile) : PidFile := { f with entry := none }

@[simp] theorem creat_entry (f : PidFile) : f.creat.1.entry = some (f.creat.2, none) := by
  cases h : f.entry with
  | none => simp [creat, h]
  | some x => simp [creat, h]

/-- A file that is not there holds nothing. -/
theorem content_of_absent {f : PidFile} (h : f.present = false) : f.content = none := by
  cases hentry : f.entry with
  | none => simp [content, hentry]
  | some x => simp [present, hentry] at h

/-- A write to the inode of the name arrives. -/
theorem content_write {f : PidFile} {fd : Nat} {c : Option Pid} (h : f.entry = some (fd, c))
    (p : Pid) : (f.write fd p).content = some p := by
  simp [write, content, h]

end PidFile

end AltF.Locks
