/-
  Cgi/Firmware2Proc.lean --- firmware2_proc.cgi: writing the uploaded components to the
  flash.

  What the programs are asked to do to the mtd devices is recorded in order; whether they
  succeed, and what sysfs tells of the devices, is outside of the page.
-/
import AltF.Foundation.EraseBlocks
import AltF.Foundation.Words
import AltF.Shell.Scripts
import AltF.SysFiles.Text

set_option autoImplicit false

namespace AltF.Cgi.Flashing

open AltF.Foundation AltF.Shell AltF.SysFiles

/-! ## The devices -/

/-- The number of an mtd device. -/
abbrev Mtd : Type := Nat

/-- The partitions that a board has for the components; NOR boards have none for an
image. -/
structure Partitions where
  kernelMtd : Mtd
  initramfsMtd : Mtd
  sqimageMtd : Option Mtd
  deriving DecidableEq, Repr

/-- `grep -qE ... /tmp/board` -/
def names (board : Text) (alternatives : List Text) : Bool :=
  alternatives.any fun t => board.tails.any t.isPrefixOf

def norBoards : List Text := ["DNS-321-Ax".toList, "DNS-323".toList]

def nandBoards : List Text :=
  ["DNS-327L".toList, "DNS-320-Ax".toList, "DNS-320-Bx".toList, "DNS-320L-Ax".toList,
    "DNS-325-Ax".toList, "DNR-322L-Ax".toList]

/-- The partitions of the board that /tmp/board names. -/
def partitions (board : Text) : Option Partitions :=
  if names board norBoards then some ⟨2, 3, none⟩
  else if names board nandBoards then some ⟨1, 2, some 3⟩
  else none

/-- What /sys/class/mtd/mtd0/type has. -/
inductive FlashType where
  | nand
  | nor
  | other
  deriving DecidableEq, Repr

/-- The flash: the size of its erase blocks, and the blocks of each device. -/
structure Chip where
  erasesize : Nat
  erasesize_pos : 0 < erasesize
  blocks : Mtd → EraseBlocks

/-- /sys/class/mtd/mtdN/size -/
def Chip.size (chip : Chip) (m : Mtd) : Nat := (chip.blocks m).length * chip.erasesize

/-- The blocks that `sz` bytes need. -/
def Chip.needed (chip : Chip) (sz : Nat) : Nat := (sz + chip.erasesize - 1) / chip.erasesize

/-- What a program is asked to do to a device. -/
inductive Op where
  /-- `flash_erase -q /dev/$2 0 $ecnt` -/
  | flashErase (m : Mtd) (ecnt : Nat)
  /-- `nandwrite -qmp /dev/$2 $1` -/
  | nandwrite (m : Mtd) (file : Bytes)
  /-- `cat $1 > /dev/$2` -/
  | cat (m : Mtd) (file : Bytes)
  /-- `ubiformat -qy -s 2048 -O 2048 -f $sqimage_file /dev/$sqimage_mtd` -/
  | ubiformat (m : Mtd) (file : Bytes)
  deriving DecidableEq, Repr

/-- The blocks that flash_erase is asked for, from block 0 on: a count of 0 is the whole
device. -/
def Chip.asked (chip : Chip) (m : Mtd) (ecnt : Nat) : Nat :=
  if ecnt = 0 then (chip.blocks m).length else ecnt

/-- flash_erase fails when the device does not have the blocks. -/
def Chip.Erases (chip : Chip) (m : Mtd) (ecnt : Nat) : Prop :=
  chip.asked m ecnt ≤ (chip.blocks m).length

instance (chip : Chip) (m : Mtd) (ecnt : Nat) : Decidable (chip.Erases m ecnt) :=
  inferInstanceAs (Decidable (_ ≤ _))

/-- The blocks that flash_erase erases. -/
def Chip.erased (chip : Chip) (m : Mtd) (ecnt : Nat) : List Nat :=
  (chip.blocks m).goodBelow (chip.asked m ecnt)

/-- The blocks that nandwrite writes: it skips bad ones. -/
def Chip.written (chip : Chip) (m : Mtd) (sz : Nat) : List Nat :=
  (chip.blocks m).good.take (chip.needed sz)

/-! ## The page -/

/-- The files of a directory, by name. -/
abbrev Folder : Type := Text → Option Bytes

/-- The uploaded components, as the page that splits the firmware leaves them in /tmp. -/
structure Uploaded where
  kernel : Option Bytes
  initramfs : Option Bytes
  sqimage : Option Bytes
  defaults : Option Bytes

/-- `test -s` -/
def hasBytes : Option Bytes → Bool
  | some file => !file.isEmpty
  | none => false

/-- What `tar -C /tmp -xzf` makes of the defaults: its success, and the files it wrote
under /tmp, complete or not. -/
structure Unpacked where
  ok : Bool
  files : Folder

/-- What is outside of the page. -/
structure Tools where
  board : Text
  type : FlashType
  chip : Chip
  /-- nandwrite, nanddump and cmp succeed -/
  nandwrite : Mtd → Bytes → Bool
  nanddump : Mtd → Bytes → Bool
  cmp : Mtd → Bytes → Bool
  /-- the same where `$sqimage_mtd` is empty, and `cat` writes a file of /dev -/
  cmpFile : Bytes → Bool
  /-- the UBI image is mounted, the aufs root uses it, and whether they let go of it -/
  ubiMounted : Bool
  aufsUsed : Bool
  remount : Bool
  umountUbi : Bool
  /-- the magic numbers of a UBI image -/
  isUbi : Bytes → Bool
  ubiformat : Mtd → Bytes → Bool
  ubiattach : Mtd → Bool
  /-- `mount $fs_type /dev/$defaults_mtd $TD` and `umount $TD` -/
  mount : Bool
  umount : Bool
  /-- what is under /tmp before -/
  tmp : Folder
  tar : Option Bytes → Unpacked
  /-- what a `cp -f` of a file with this name and content leaves -/
  cp : Text → Bytes → Option Bytes
  /-- what `loadsave_settings` with this option leaves of the settings -/
  loadsave : Text → Folder → Folder

/-- A box with this board and flash, on which nothing fails. -/
def Tools.sound (board : Text) (type : FlashType) (chip : Chip) (tar : Option Bytes → Unpacked) :
    Tools where
  board := board
  type := type
  chip := chip
  nandwrite := fun _ _ => true
  nanddump := fun _ _ => true
  cmp := fun _ _ => true
  cmpFile := fun _ => true
  ubiMounted := false
  aufsUsed := false
  remount := true
  umountUbi := true
  isUbi := fun _ => false
  ubiformat := fun _ _ => true
  ubiattach := fun _ => true
  mount := true
  umount := true
  tmp := fun _ => none
  tar := tar
  cp := fun _ file => some file
  loadsave := fun _ => id

/-- How the page ends before its last line. -/
inductive Ending where
  /-- "Kernel and/or ramdisk file missing" -/
  | filesMissing
  /-- "defaults file missing or empty" -/
  | defaultsMissing
  /-- `msg "bummer!"` -/
  | bummer
  | flashError (txt : Text)
  deriving DecidableEq, Repr

/-- What was asked of the flash so far, and the settings partition. -/
structure World where
  ops : List Op
  settings : Folder

abbrev Page (α : Type) : Type := Script Ending World α

section Page

variable (tools : Tools)

def ask (op : Op) : Page PUnit :=
  modifyGet fun w => (⟨⟩, { w with ops := w.ops ++ [op] })

def setSettings (f : Folder → Folder) : Page PUnit :=
  modifyGet fun w => (⟨⟩, { w with settings := f w.settings })

theorem ask_run (op : Op) (w : World) : ask op w = .ok ⟨⟩ { w with ops := w.ops ++ [op] } := rfl

def flashError (txt : Text) : Page PUnit := exit (.flashError txt)

theorem flashError_run (txt : Text) (w : World) :
    flashError txt w = .error (.flashError txt) w := rfl

/-- `nor_flash` -/
def norFlash (file : Bytes) (m : Mtd) : Page PUnit := do
  ask (.cat m file)
  onlyIf (tools.cmp m file = false) (flashError [])

/-- `$ecnt`: the counts are those of the partition `q` for the image, also when it is
another one that is flashed. -/
def eraseCount (q : Mtd) (sz : Nat) : Nat :=
  let ebs := tools.chip.erasesize
  let bbc := (tools.chip.blocks q).badCount
  let ebc := tools.chip.size q / ebs
  let ecnt := (sz + ebs - 1) / ebs + bbc
  if ecnt ≥ ebc then 0 else ecnt

/-- `nand_flash`.  Without a partition for the image the count is empty, and flash_erase
does not take it. -/
def nandFlash (sqimageMtd : Option Mtd) (file : Bytes) (m : Mtd) : Page PUnit :=
  match sqimageMtd with
  | none => flashError "flash_erase: ".toList
  | some q => do
      let ecnt := eraseCount tools q file.length
      ask (.flashErase m ecnt)
      onlyIf (¬ tools.chip.Erases m ecnt) (flashError "flash_erase: ".toList)
      ask (.nandwrite m file)
      onlyIf (tools.nandwrite m file = false) (flashError "nandwrite: ".toList)
      onlyIf (tools.nanddump m file = false) (flashError "nanddump: ".toList)
      onlyIf (tools.cmp m file = false) (flashError "cmp: ".toList)

/-- `flash` -/
def flash (ps : Partitions) (file : Bytes) (m : Mtd) : Page PUnit :=
  match tools.type with
  | .nand => nandFlash tools ps.sqimageMtd file m
  | .nor => norFlash tools file m
  | .other => exit .bummer

/-- `check_fwfiles`: the kernel and the initramfs.  It asks for the defaults when the
option is `flash`. -/
def checkFwfiles (files : Uploaded) (flashDefaults : Text) : Page (Bytes × Bytes) :=
  match files.kernel, files.initramfs with
  | some kernel, some initramfs =>
      if flashDefaults = "flash".toList ∧ hasBytes files.defaults = false then
        exit .defaultsMissing
      else pure (kernel, initramfs)
  | _, _ => exit .filesMissing

/-- What makes the image's mtd device free. -/
def releaseUbi : Page PUnit :=
  onlyIf (tools.ubiMounted = true) do
    onlyIf (tools.aufsUsed = true ∧ tools.remount = false)
      (flashError "Some processes are still running, stop them first.".toList)
    onlyIf (tools.umountUbi = false)
      (flashError "Some processes are still running, stop them first.".toList)

/-- The image, in the way it is formatted.  Without a partition for it there is no device
to format or to erase. -/
def flashImage (ps : Partitions) (file : Bytes) : Page PUnit :=
  match ps.sqimageMtd with
  | none =>
      if tools.isUbi file = true then flashError "ubiformat: ".toList
      else
        match tools.type with
        | .nand => flashError "flash_erase: ".toList
        | .nor => onlyIf (tools.cmpFile file = false) (flashError [])
        | .other => exit .bummer
  | some q =>
      if tools.isUbi file = true then do
        ask (.ubiformat q file)
        onlyIf (tools.ubiformat q file = false) (flashError "ubiformat: ".toList)
        onlyIf (tools.ubiattach q = false) (flashError "ubiattach: ".toList)
      else flash tools ps file q

/-- The names that `*` stands for: no hidden ones, and none of a folder below. -/
def globbed (name : Text) : Bool :=
  !name.contains '/' && name.head? != some '.' && !name.isEmpty

/-- `rm -f $TD/*` -/
def rmAll (td : Folder) : Folder := fun name => if globbed name then none else td name

def defaultDir : Text := "default/".toList

/-- /tmp after `tar`. -/
def tmpAfter (files : Folder) : Folder := fun path => (files path).or (tools.tmp path)

/-- `cp -f /tmp/default/* $TD` -/
def cpAll (tmp td : Folder) : Folder := fun name =>
  if globbed name then
    match tmp (defaultDir ++ name) with
    | some file => tools.cp name file
    | none => td name
  else td name

/-- The settings partition after `flashfile`.  A partition that is not mounted is left
alone, the folder `$TD` takes its place; one that stays mounted is removed with the
folder. -/
def flashFile (defaults : Option Bytes) (settings : Folder) : Folder :=
  if tools.mount = true then
    let tmp := tmpAfter tools (tools.tar defaults).files
    let td := cpAll tools tmp (rmAll settings)
    if tools.umount = true then td else fun _ => none
  else settings

/-- `case "$flash_defaults"` -/
def flashSettings (defaults : Option Bytes) (flashDefaults : Text) : Page PUnit :=
  if flashDefaults = "clear".toList then setSettings (tools.loadsave "-cf".toList)
  else if flashDefaults = "flashfile".toList then setSettings (flashFile tools defaults)
  else onlyIf (flashDefaults = "recover".toList) (setSettings (tools.loadsave "-rc".toList))

/-- `FlashIt` -/
def flashIt (files : Uploaded) (flashDefaults : Text) : Page PUnit := do
  let checked ← checkFwfiles files flashDefaults
  match partitions tools.board with
  | none => exit .bummer
  | some ps => do
      onlyIf (hasBytes files.sqimage = true) (releaseUbi tools)
      flash tools ps checked.1 ps.kernelMtd
      flash tools ps checked.2 ps.initramfsMtd
      onlyIf (hasBytes files.sqimage = true)
        (flashImage tools ps (files.sqimage.getD []))
      flashSettings tools files.defaults flashDefaults

end Page

end AltF.Cgi.Flashing
