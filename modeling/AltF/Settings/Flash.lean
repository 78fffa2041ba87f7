/-
  Settings/Flash.lean --- the settings flash: saveflashdef and loadflashdef of
  loadsave_settings.

  A set of settings is a compressed archive whose name has the time of the save in
  it.  Names decide: the listing is sorted by name, the first of it makes place for
  a new set and the last of it is loaded.
-/
import Mathlib.Data.Char
import Mathlib.Data.List.Lex
import AltF.Foundation.Directory
import AltF.SysFiles.Text

set_option autoImplicit false

namespace AltF.Settings

open AltF.Foundation AltF.SysFiles

/-! ## Names -/

/-- A character that the shell neither splits at nor takes for a pattern. -/
def plainChar (c : Char) : Bool := !" \t\n*?[\\".toList.contains c

/-- A file name that stays one word when the shell expands it unquoted. -/
abbrev FileName : Type := {t : Text // t.all plainChar = true}

/-- The pattern `set_*`. -/
def isSet (n : FileName) : Bool := "set_".toList.isPrefixOf n.1

/-- The pattern `set_*.tgz`. -/
def isTgz (n : FileName) : Bool := isSet n && ".tgz".toList.isSuffixOf (n.1.drop 4)

/-- `nm=set_$dt.tgz`, `dt` being what `date +%F_%T` prints. -/
def setName (dt : FileName) : FileName :=
  ⟨"set_".toList ++ dt.1 ++ ".tgz".toList, by
    rw [List.all_append, List.all_append, dt.2]
    rfl⟩

theorem isSet_of_isTgz {n : FileName} (h : isTgz n = true) : isSet n = true := by
  rw [isTgz, Bool.and_eq_true] at h
  exact h.1

theorem isTgz_setName (dt : FileName) : isTgz (setName dt) = true := by
  rw [isTgz, isSet, Bool.and_eq_true, List.isPrefixOf_iff_prefix, List.isSuffixOf_iff_suffix]
  constructor
  · exact ⟨dt.1 ++ ".tgz".toList, (List.append_assoc _ _ _).symm⟩
  · exact ⟨dt.1, rfl⟩

/-! ## The flash -/

/-- An archive that does not unpack. -/
inductive Broken where
  /-- `tar` fails on it. -/
  | damaged
  /-- It has no bytes. -/
  | empty
  deriving DecidableEq, Repr

/-- The content of a file on the flash: an archive of the settings `v`, or none. -/
inductive Archive (α : Type) where
  | complete (v : α)
  | broken (b : Broken)
  deriving DecidableEq, Repr

/-- The mounted flash, `$save_dir`. -/
abbrev Flash (α : Type) := Directory FileName (Archive α)

/-- What becomes of a `cp` to the flash. -/
inductive Copy where
  | ok
  /-- The target could not be opened, and is as it was. -/
  | notOpened
  /-- The space ran out, and this was left. -/
  | left (b : Broken)
  deriving DecidableEq, Repr

/-- The copy leaves something under the name. -/
def Copy.leaves : Copy → Bool
  | .notOpened => false
  | _ => true

section Save

variable {α : Type}

/-- `cp /tmp/$nm $save_dir/`. -/
def cp (d : Flash α) (nm : FileName) (v : α) : Copy → Flash α
  | .ok => d.put nm (.complete v)
  | .notOpened => d
  | .left b => d.put nm (.broken b)

/-- `rm $save_dir/$nm $(ls $save_dir/set_*.tgz | head -1)`. -/
def makeRoom (d : Flash α) (nm : FileName) : Flash α :=
  d.rm (nm :: (d.ls isTgz).head?.toList)

/-- The first `cp` and the loop over `cnt` more; `copies i` is what becomes of copy
number `i`.  The second component is `res = 0`. -/
def copyLoop (nm : FileName) (v : α) : (cnt : Nat) → (Nat → Copy) → Flash α → Flash α × Bool
  | 0, copies, d => (cp d nm v (copies 0), copies 0 = .ok)
  | cnt + 1, copies, d =>
      if copies 0 = .ok then
        (cp d nm v (copies 0), true)
      else
        copyLoop nm v cnt (fun i => copies (i + 1)) (makeRoom (cp d nm v (copies 0)) nm)

/-- "remove all but last 10".  With fewer than 10 the number given to `head` is
negative and it prints nothing. -/
def prune (d : Flash α) : Flash α :=
  d.rm ((d.ls isTgz).take ((d.ls isTgz).length - 10))

/-- `saveflashdef` at the time `dt` with the settings `v`, once `status` has found
something to save.  The second component is its success. -/
def saveflashdef (d : Flash α) (dt : FileName) (v : α) (copies : Nat → Copy) : Flash α × Bool :=
  let r := copyLoop (setName dt) v 5 copies d
  (prune r.1, r.2)

/-- What `loadflashdef` reports. -/
inductive Load (α : Type) where
  /-- "empty or no file found!" -/
  | noFile
  /-- "invalid settings file." -/
  | invalid (n : FileName)
  | loaded (n : FileName) (v : α)
  deriving DecidableEq, Repr

/-- `loadflashdef` without argument: the last of `set_*`, and no other. -/
def loadflashdef (d : Flash α) : Load α :=
  match (d.ls isSet).getLast? with
  | none => .noFile
  | some last =>
      match d.read? last with
      | none | some (.broken .empty) => .noFile
      | some (.broken .damaged) => .invalid last
      | some (.complete v) => .loaded last v

end Save

end AltF.Settings
