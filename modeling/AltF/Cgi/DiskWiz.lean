/-
  Cgi/DiskWiz.lean --- diskwiz_proc.cgi: the disk wizard, with hotplug stopped while it
  partitions the disks, creates RAID devices and formats them; and what holds of hotplug
  where the wizard and the partitioner end.

  Every error of the wizard after hotplug is stopped ends in `err`, which starts it again.
-/
import AltF.Foundation.Decimal
import AltF.Cgi.DiskPart

set_option autoImplicit false

namespace AltF.Cgi.Disks

open AltF.Foundation AltF.Shell AltF.SysFiles

/-! ## Numbers -/

/-- The number that `test` reads of a word; other words are an error. -/
def testInt (t : Text) : Option Int :=
  if t ≠ [] ∧ t.all Char.isDigit then some (Nat.ofDigitChars 10 t 0)
  else if t.head? = some '-' ∧ t.tail ≠ [] ∧ t.tail.all Char.isDigit then
    some (-(Nat.ofDigitChars 10 t.tail 0))
  else none

/-- `test a -lt b`, false for words that are no numbers -/
def lt (a b : Text) : Bool :=
  match testInt a, testInt b with
  | some m, some n => decide (m < n)
  | _, _ => false

/-- `test a -ge b` -/
def ge (a b : Text) : Bool :=
  match testInt a, testInt b with
  | some m, some n => decide (n ≤ m)
  | _, _ => false

/-- `minimum size of a partition or filesystem, in 512 bytes sectors (10MB)` -/
def minSize : Text := "20000".toList

/-- `2.2TB in 512B sectors` -/
def twoTB : Text := "4294967296".toList

/-! ## The functions of the wizard -/

/-- The variables of the form, and the disks that are selected, in front of each a blank. -/
structure Wizard where
  vars : Form
  disks : Text

def Wizard.wishFs (wiz : Wizard) : Text := wiz.vars "wish_fs".toList

def Wizard.wishPart (wiz : Wizard) : Text := wiz.vars "wish_part".toList

section Functions

variable (box : Box) (wiz : Wizard)

/-- `err` of the wizard -/
def errWiz {α : Type} (txt : Text) : Page α := do
  writeHotplug mdev
  quiet box "rcsysctrl start".toList
  exit (.err txt)

/-- An error of a command; the status in its text is that of `test`, 0. -/
def checkedSt (cmd front : Text) : Page PUnit := do
  let r ← tool box cmd
  onlyIf (r.status ≠ 0) (errWiz box (front ++ commandSubst r.out))

def expr (t : Text) : Page Text := capture box ("expr ".toList ++ t)

def sizeOf (i : Text) : Page Text := do
  let dsk ← capture box ("basename ".toList ++ i)
  capture box ("cat /sys/block/".toList ++ dsk ++ "/size".toList)

def minsize : Page Text := do
  let msz ← (expand box.glob wiz.disks).foldlM smaller "99999999999".toList
  expr box (msz ++ " - 2048".toList)
where
  smaller (msz i : Text) : Page Text := do
    let sz ← sizeOf box i
    pure (if lt sz msz then sz else msz)

def cleanraid : Page PUnit :=
  forWords box wiz.disks fun i => do
    let raids ← capture box ("sgdisk -p ".toList ++ i ++ " | awk DA00".toList)
    forWords box raids fun j => quiet box ("mdadm --zero-superblock ".toList ++ i ++ j)

def align (pos nsect maxsect : Text) : Page Text := do
  let send ← expr box (pos ++ " + ".toList ++ nsect)
  let nsect ← (if lt maxsect send then expr box (maxsect ++ " - ".toList ++ pos) else pure nsect)
  let rem ← expr box (nsect ++ " % 8".toList)
  if (testInt rem).isSome ∧ testInt rem ≠ some 0 then expr box (nsect ++ " - ".toList ++ rem)
  else pure nsect

def cleanTraces (i : Text) : Page PUnit :=
  forWords box (i ++ "?".toList) fun j => do
    let block ← tool box ("test -b ".toList ++ j)
    onlyIf (block.status = 0) do
      quiet box ("dd if=/dev/zero of=".toList ++ j ++ " count=1000".toList)
      quiet box ("mdadm --zero-superblock ".toList ++ j)

/-- The devices again, without calling hot.sh. -/
def rescan (i : Text) : Page PUnit := do
  quiet box "sleep 3".toList
  quiet box "mv /etc/mdev.conf /etc/mdev.conf-".toList
  quiet box ("rm -f ".toList ++ i ++ "[0-9]".toList)
  quiet box "mdev -s".toList
  quiet box "mv /etc/mdev.conf- /etc/mdev.conf".toList

/-- The third line of the input of sfdisk, for what the disk has more than the others. -/
def thirdPart (pos2 nsect2 maxsect commonsect : Text) : Page Text :=
  if maxsect ≠ commonsect then do
    let pos3 ← expr box (pos2 ++ " + ".toList ++ nsect2)
    let nsect3 ← expr box (maxsect ++ " - ".toList ++ pos3)
    let nsect3 ← align box pos3 nsect3 maxsect
    pure (if lt minSize nsect3 then pos3 ++ ",".toList ++ nsect3 ++ ",83".toList else [])
  else pure []

def mbrPartition (i : Text) (raid equal : Bool) (common : Text) : Page PUnit := do
  let ptype := if raid then "da".toList else "83".toList
  let smul := if raid then "2".toList else "1".toList
  cleanTraces box i
  let size ← sizeOf box i
  let maxsect ← expr box (size ++ " - 2048".toList)
  let maxsect := if ge maxsect twoTB then twoTB else maxsect
  let commonsect := if equal then common else maxsect
  let pos := "64".toList
  let nsect ← expr box ("1048576 * ".toList ++ smul)
  let nsect ← align box pos nsect maxsect
  let pos2 ← expr box (pos ++ " + ".toList ++ nsect)
  let nsect2 ← expr box (commonsect ++ " - ".toList ++ pos2)
  let nsect2 ← align box pos2 nsect2 maxsect
  let par3 ← thirdPart box pos2 nsect2 maxsect commonsect
  let fmtfile ← capture box "mktemp -t sfdisk-XXXXXX".toList
  quiet box ("cat > ".toList ++ fmtfile ++ " ".toList ++ pos ++ ",".toList ++ nsect ++
    ",S ".toList ++ pos2 ++ ",".toList ++ nsect2 ++ ",".toList ++ ptype ++ " ".toList ++ par3)
  quiet box ("sgdisk --zap-all ".toList ++ i)
  let r ← tool box ("sfdisk --force -uS ".toList ++ i ++ " < ".toList ++ fmtfile)
  quiet box ("rm -f ".toList ++ fmtfile)
  onlyIf (r.status ≠ 0) (errWiz box ("sfdisk error, st=0: ".toList ++ commandSubst r.out))
  quiet box ("sfdisk -R ".toList ++ i)
  rescan box i

/-- The partition that is left on the disk. -/
def gptRest (i : Text) : Page PUnit := do
  let nextstart ← capture box ("sgdisk --set-alignment=8 --first-in-largest ".toList ++ i)
  let nextend ← capture box ("sgdisk --set-alignment=8 --end-of-largest ".toList ++ i)
  let nextleng ← expr box (nextend ++ " - ".toList ++ nextstart)
  onlyIf (lt "64".toList nextstart ∧ lt minSize nextleng)
    (checkedSt box ("sgdisk --set-alignment=8 --new=3:".toList ++ nextstart ++ ":".toList ++
      nextend ++ " --typecode=3:8300 ".toList ++ i)
      "Error creating second partition, st=0: ".toList)

/-- The first partition of a disk. -/
def gptFirst (raid equal : Bool) (common swaps firstend : Text) : Page Text :=
  if raid then
    if equal then do
      let kb ← expr box (common ++ " * 512 / 1024 - ( ".toList ++ swaps ++ " * 1024 )".toList)
      pure ("--new=2:0:+".toList ++ kb ++ "K --typecode=2:fd00".toList)
    else pure ("--new=2:0:".toList ++ firstend ++ " --typecode=2:fd00".toList)
  else pure ("--new=2:0:".toList ++ firstend ++ " --typecode=2:8300".toList)

def gptPartition (i : Text) (raid equal : Bool) (common : Text) : Page PUnit := do
  cleanTraces box i
  quiet box ("sgdisk --zap-all ".toList ++ i)
  let swaps ← capture box ("sgdisk -p ".toList ++ i ++ " | awk 'last usable'".toList)
  let swaps := if lt swaps "512".toList then "512".toList else swaps
  let swaps ← (if raid then expr box (swaps ++ " * 2".toList) else pure swaps)
  checkedSt box ("sgdisk --set-alignment=8 --new=1:64:+".toList ++ swaps ++
    "M --typecode=1:8200 ".toList ++ i) "Error creating swap, st=0 ".toList
  let firstend ← capture box ("sgdisk --set-alignment=8 --end-of-largest ".toList ++ i)
  let cmd ← gptFirst box raid equal common swaps firstend
  checkedSt box ("sgdisk --set-alignment=8 ".toList ++ cmd ++ " ".toList ++ i)
    "Error creating first partition, st=0: ".toList
  gptRest box i
  rescan box i

def partition (raid equal : Bool) : Page PUnit := do
  let common ← (if equal then minsize box wiz else pure [])
  forWords box wiz.disks fun i => do
    let size ← sizeOf box i
    if ge size twoTB then gptPartition box i raid equal common
    else mbrPartition box i raid equal common
  cleanraid box wiz

/-! ### RAID -/

/-- The devices of a new array. -/
structure Pairs where
  pair1 : Text := "missing".toList
  pair2 : Text := "missing".toList

def Pairs.add (p : Pairs) (dev : Text) : Pairs :=
  if p.pair1 = "missing".toList then { p with pair1 := dev }
  else if p.pair2 = "missing".toList then { p with pair2 := dev }
  else p

/-- `Find first non used md number available` -/
def freeMd (curdev old : Text) : Text :=
  match (List.range 10).find? fun n => !(Nat.digitChar n ∈ curdev) with
  | some n => "md".toList ++ [Nat.digitChar n]
  | none => old

/-- The devices of all disks, from /etc/bay, or of those selected. -/
def pairs (ndisks : Nat) (num : Text) : Page (Pairs × Text) := do
  let all ← capture box "ls /dev/sd? | wc -l".toList
  if all = printInt ndisks then do
    let left := (box.bay "left_dev".toList).getD (wiz.vars "left_dev".toList)
    let right := (box.bay "right_dev".toList).getD (wiz.vars "right_dev".toList)
    let usb ← capture box "sed -n usb._dev /etc/bay".toList
    pure (⟨if left = [] then "missing".toList else "/dev/".toList ++ left ++ num,
      if right = [] then "missing".toList else "/dev/".toList ++ right ++ num⟩, usb)
  else
    pure ((expand box.glob wiz.disks).foldl (fun p i => p.add (i ++ num)) {}, [])

/-- The variables `MD` and `ndisks`. -/
structure Raid where
  md : Text
  ndisks : Nat

def createRaid (old : Raid) (level num : Text) : Page Raid := do
  let ndisks := old.ndisks
  let curdev ← capture box "mdadm --examine --scan | sed -n /dev/md/".toList
  let md := freeMd curdev old.md
  let (p, usb) ← pairs box wiz ndisks num
  let spare := if ndisks = 3 then "/dev/".toList ++ usb ++ num else []
  let raid1 := level = "raid1".toList
  let opts := "--chunk=512".toList ++
    (if raid1 ∨ level = "raid5".toList then " --bitmap=internal".toList else []) ++
    (if raid1 ∧ ndisks = 3 then " --spare-devices=1".toList else [])
  let ndisks := if raid1 ∧ (ndisks = 1 ∨ ndisks = 3) then 2 else ndisks
  checkedSt box ("mdadm --create /dev/".toList ++ md ++ " --run --level=".toList ++ level ++
    " --metadata=1.0 ".toList ++ opts ++ " --raid-devices=".toList ++ printInt ndisks ++
    " ".toList ++ p.pair1 ++ " ".toList ++ p.pair2 ++ " ".toList ++ spare)
    "mdadm error, st=0: ".toList
  pure ⟨md, ndisks⟩

/-! ### Swap and filesystems -/

def usbSwap : Text := (box.misc "USB_SWAP".toList).getD (wiz.vars "USB_SWAP".toList)

/-- Swap on one disk: that of an USB disk is not activated by itself. -/
def swapOn (i : Text) : Page PUnit := do
  checkedSt box ("mkswap ".toList ++ i ++ "1".toList) "mkswap error, st=0: ".toList
  let dsk ← capture box ("basename ".toList ++ i)
  let usb ← tool box ("realpath /sys/block/".toList ++ dsk ++ "/device | grep -q /usb./".toList)
  if usb.status = 0 ∧ (usbSwap box wiz = [] ∨ usbSwap box wiz = "no".toList) then pure ⟨⟩
  else checkedSt box ("swapon -p 1 ".toList ++ i ++ "1".toList) "swapon error, st=0: ".toList

def createSwap : Page PUnit := forWords box wiz.disks (swapOn box wiz)

/-- `so the box will survive a disk failure` -/
def createSwapRaid (old : Raid) : Page Raid := do
  let raid ← createRaid box wiz old "raid1".toList "1".toList
  checkedSt box ("mkswap /dev/".toList ++ raid.md) "mkswap error, st=0: ".toList
  pure raid

/-- The options for the stripes of an array. -/
def raidOptions (ndisks : Nat) (dev : Text) : Page Text :=
  if wiz.wishPart = "raid0".toList ∨ wiz.wishPart = "raid5".toList then do
    let nd : Int := if wiz.wishPart = "raid0".toList then ndisks else 2
    let chunk ← capture box ("cat /sys/block/".toList ++ dev ++ "/md/chunk_size".toList)
    let stride := ((testInt chunk).getD 0).tdiv 4096
    pure ("-b 4096 -E stride=".toList ++ printInt stride ++ ",stripe-width=".toList ++
      printInt (stride * nd))
  else pure []

/-- The rounds of the loop that shows the progress, until the format has ended. -/
def showProgress (dev : Text) : Nat → Page PUnit
  | 0 => pure ⟨⟩
  | n + 1 => do
      let going ← tool box ("kill -0 $(cat /tmp/format-".toList ++ dev ++ ".pid)".toList)
      onlyIf (going.status = 0) do
        quiet box ("cat /tmp/format-".toList ++ dev ++ ".log | tail -n1".toList)
        quiet box "sleep 3".toList
        showProgress dev n

/-- The format in the background, and its error. -/
def format (rounds : Nat) (fsdev dev raidopts : Text) : Page PUnit := do
  quiet box "mktemp -u".toList
  quiet box ("cat > /tmp/format-".toList ++ dev ++ " ".toList ++ wiz.wishFs ++ " ".toList ++
    raidopts ++ " ".toList ++ fsdev)
  quiet box ("chmod +x /tmp/format-".toList ++ dev)
  quiet box ("/tmp/format-".toList ++ dev ++ " &".toList)
  quiet box "sleep 1".toList
  showProgress box dev rounds
  quiet box ("rm /tmp/format-".toList ++ dev ++ "*".toList)
  let failed ← tool box ("test -f /tmp/".toList ++ dev ++ ".err".toList)
  if failed.status = 0 then do
    let txt ← capture box ("cat /tmp/".toList ++ dev ++ ".err".toList)
    quiet box ("rm /tmp/".toList ++ dev ++ ".err".toList)
    errWiz box ("mk2efs error: ".toList ++ txt)
  else onlyIf ("ext".toList <+: wiz.wishFs) (quiet box ("tune2fs -c 50 -i 180 /dev/".toList ++ dev))

def createFs (rounds ndisks : Nat) (fsdev : Text) : Page PUnit := do
  let block ← tool box ("test -b ".toList ++ fsdev)
  onlyIf (block.status = 0) do
    let dev ← capture box ("basename ".toList ++ fsdev)
    let md : Bool := dev.take 2 = "md".toList
    let raidopts ← (if md then raidOptions box wiz ndisks dev else pure [])
    let sf := if md then "/sys/block/".toList ++ dev ++ "/size".toList
      else "/sys/block/".toList ++ dev.take 3 ++ "/".toList ++ dev ++ "/size".toList
    let size ← capture box ("cat ".toList ++ sf)
    onlyIf (¬ lt size minSize) (format box wiz rounds fsdev dev raidopts)

/-! ### The layouts -/

variable (rounds : Nat) (old : Raid)

def standard : Page PUnit := do
  partition box wiz false false
  createSwap box wiz
  forWords box wiz.disks fun i => createFs box wiz rounds old.ndisks (i ++ "2".toList)

def jbod : Page PUnit := do
  partition box wiz true false
  createSwap box wiz
  let raid ← createRaid box wiz old "linear".toList "2".toList
  createFs box wiz rounds raid.ndisks ("/dev/".toList ++ raid.md)

/-- The array on the second partitions, and the filesystems. -/
def raidFs (old : Raid) (level : Text) : Page PUnit := do
  let raid ← createRaid box wiz old level "2".toList
  createFs box wiz rounds raid.ndisks ("/dev/".toList ++ raid.md)
  forWords box wiz.disks fun i => createFs box wiz rounds raid.ndisks (i ++ "3".toList)

def raid0 : Page PUnit := do
  partition box wiz true true
  createSwap box wiz
  raidFs box wiz rounds old "raid0".toList

def raid1 : Page PUnit := do
  partition box wiz true true
  let raid ← createSwapRaid box wiz old
  raidFs box wiz rounds raid "raid1".toList

def raid5 : Page PUnit := do
  partition box wiz true true
  let raid ← createSwapRaid box wiz old
  raidFs box wiz rounds raid "raid5".toList

/-- `case $wish_part` -/
def layout : Page PUnit :=
  if wiz.wishPart = "standard".toList then standard box wiz rounds old
  else if wiz.wishPart = "jbod".toList then jbod box wiz rounds old
  else if wiz.wishPart = "raid0".toList then raid0 box wiz rounds old
  else if wiz.wishPart = "raid1".toList then raid1 box wiz rounds old
  else if wiz.wishPart = "raid5".toList then raid5 box wiz rounds old
  else pure ⟨⟩

/-! ## The wizard -/

variable (f : Form)

/-- `if ! ... | grep -qE ...; then msg` -/
def checkedGrep (cmd txt : Text) : Page PUnit := do
  let r ← tool box cmd
  onlyIf (r.status ≠ 0) (exit (.msg txt))

/-- A disk of the form, and how many there are with it. -/
def addDisk (s : Text × Nat) (i : Text) : Page (Text × Nat) := do
  let dsk ← evalEcho box ("disk_".toList ++ i)
  pure (if dsk = [] then s else (s.1 ++ " /dev/".toList ++ dsk, s.2 + 1))

/-- The checks, and the disks that are selected. -/
def selectDisks : Page (Text × Nat) := do
  let fs := f "wish_fs".toList
  let part := f "wish_part".toList
  checkedGrep box ("echo ".toList ++ fs ++ " | grep -qE 'ext(2|3|4)|btrfs'".toList)
    ("Unknown filesystem type ".toList ++ fs)
  checkedGrep box
    ("echo ".toList ++ part ++ " | grep -qE '(notouch|standard|jbod|raid0|raid1|raid5)'".toList)
    ("Unknown disk layout type ".toList ++ part)
  onlyIf (f "advise".toList ≠ "Abracadabra".toList) (exit (.msg "Unknown operation".toList))
  let nums ← capture box ("seq 1 ".toList ++ f "num_disks".toList)
  let (disks, ndisks) ← (expand box.glob nums).foldlM (addDisk box) (f "disks".toList, 0)
  if ndisks = 0 ∨ part = "notouch".toList then exit (.gotopage "/cgi-bin/diskmaint.cgi".toList)
  else pure (disks, ndisks)

/-- diskwiz_proc.cgi -/
def diskwizProc : Page PUnit := do
  let (disks, ndisks) ← selectDisks box f
  let stopped ← tool box "eject -a".toList
  onlyIf (stopped.status ≠ 0) (errWiz box "eject error, st=0".toList)
  writeHotplug []
  layout box ⟨f, disks⟩ rounds ⟨f "MD".toList, ndisks⟩
  loadall box "/dev/sd?".toList
  quiet box "rcall start".toList
  writeHotplug mdev

end Functions

/-! ## What holds of hotplug -/

section Parts

variable {box : Box} {wiz : Wizard} {α : Type} {Q : α → World → Prop} {P : World → Prop}

/-- A part of the wizard with hotplug stopped. -/
abbrev Guarded (m : Page α) : Prop := Stays Stopped m fun _ => Restored

theorem tool_guarded (cmd : Text) : Guarded (tool box cmd) := tool_stays blind_stopped cmd

theorem quiet_guarded (cmd : Text) : Guarded (quiet box cmd) := quiet_stays blind_stopped cmd

theorem capture_guarded (cmd : Text) : Guarded (capture box cmd) := capture_stays blind_stopped cmd

theorem pure_guarded (a : α) : Guarded (pure a) := Runs.pure fun _ hw => hw

theorem forWords_guarded {ws : Text} {body : Text → Page PUnit} (h : ∀ i, Guarded (body i)) :
    Guarded (forWords box ws body) :=
  Runs.forM fun i _ => h i

theorem errWiz_restores (txt : Text) : Runs P (errWiz box txt : Page α) Q fun _ => Restored :=
  Runs.bind (Q := fun _ => Restored) (Runs.modifyGet fun _ _ => Or.inr rfl) fun _ =>
    Runs.bind (quiet_stays (fun _ _ h => h) _) fun _ => Runs.exit fun _ hw => hw

theorem checkedSt_guarded (cmd front : Text) : Guarded (checkedSt box cmd front) :=
  Runs.bind (tool_guarded cmd) fun _ => Runs.onlyIf fun _ => errWiz_restores _

/-! ### Partitions -/

theorem sizeOf_guarded (i : Text) : Guarded (sizeOf box i) :=
  Runs.bind (capture_guarded _) fun _ => capture_guarded _

theorem minsize_guarded : Guarded (minsize box wiz) := by
  refine Runs.bind (Runs.foldlM fun msz i _ => ?_) fun _ => capture_guarded _
  exact Runs.bind (sizeOf_guarded i) fun _ => pure_guarded _

theorem cleanraid_guarded : Guarded (cleanraid box wiz) :=
  forWords_guarded fun _ => Runs.bind (capture_guarded _) fun _ =>
    forWords_guarded fun _ => quiet_guarded _

theorem align_guarded (pos nsect maxsect : Text) : Guarded (align box pos nsect maxsect) := by
  refine Runs.bind (capture_guarded _) fun _ => Runs.bind (Q := fun _ => Stopped)
    (Runs.ite (fun _ => capture_guarded _) fun _ => pure_guarded _) fun _ => ?_
  exact Runs.bind (capture_guarded _) fun _ =>
    Runs.ite (fun _ => capture_guarded _) fun _ => pure_guarded _

theorem cleanTraces_guarded (i : Text) : Guarded (cleanTraces box i) :=
  forWords_guarded fun _ => Runs.bind (tool_guarded _) fun _ =>
    Runs.onlyIf fun _ => Runs.bind (quiet_guarded _) fun _ => quiet_guarded _

theorem rescan_guarded (i : Text) : Guarded (rescan box i) :=
  Runs.bind (quiet_guarded _) fun _ => Runs.bind (quiet_guarded _) fun _ =>
    Runs.bind (quiet_guarded _) fun _ => Runs.bind (quiet_guarded _) fun _ => quiet_guarded _

theorem thirdPart_guarded (pos2 nsect2 maxsect commonsect : Text) :
    Guarded (thirdPart box pos2 nsect2 maxsect commonsect) := by
  refine Runs.ite (fun _ => ?_) fun _ => pure_guarded _
  exact Runs.bind (capture_guarded _) fun _ => Runs.bind (capture_guarded _) fun _ =>
    Runs.bind (align_guarded _ _ _) fun _ => pure_guarded _

theorem mbrPartition_guarded (i : Text) (raid equal : Bool) (common : Text) :
    Guarded (mbrPartition box i raid equal common) := by
  refine Runs.bind (cleanTraces_guarded i) fun _ => Runs.bind (sizeOf_guarded i) fun _ =>
    Runs.bind (capture_guarded _) fun _ => Runs.bind (capture_guarded _) fun _ =>
      Runs.bind (align_guarded _ _ _) fun _ => Runs.bind (capture_guarded _) fun _ =>
        Runs.bind (capture_guarded _) fun _ => Runs.bind (align_guarded _ _ _) fun _ =>
          Runs.bind (thirdPart_guarded _ _ _ _) fun _ => ?_
  -- the input of sfdisk, and its run
  refine Runs.bind (capture_guarded _) fun _ => Runs.bind (quiet_guarded _) fun _ =>
    Runs.bind (quiet_guarded _) fun _ => Runs.bind (tool_guarded _) fun _ =>
      Runs.bind (quiet_guarded _) fun _ => Runs.bind
        (Runs.onlyIf fun _ => errWiz_restores _) fun _ => ?_
  exact Runs.bind (quiet_guarded _) fun _ => rescan_guarded i

theorem gptRest_guarded (i : Text) : Guarded (gptRest box i) :=
  Runs.bind (capture_guarded _) fun _ => Runs.bind (capture_guarded _) fun _ =>
    Runs.bind (capture_guarded _) fun _ => Runs.onlyIf fun _ => checkedSt_guarded _ _

theorem gptFirst_guarded (raid equal : Bool) (common swaps firstend : Text) :
    Guarded (gptFirst box raid equal common swaps firstend) := by
  refine Runs.ite (fun _ => Runs.ite (fun _ => ?_) fun _ => pure_guarded _) fun _ => pure_guarded _
  exact Runs.bind (capture_guarded _) fun _ => pure_guarded _

theorem gptPartition_guarded (i : Text) (raid equal : Bool) (common : Text) :
    Guarded (gptPartition box i raid equal common) := by
  refine Runs.bind (cleanTraces_guarded i) fun _ => Runs.bind (quiet_guarded _) fun _ =>
    Runs.bind (capture_guarded _) fun _ => Runs.bind (Q := fun _ => Stopped)
      (Runs.ite (fun _ => capture_guarded _) fun _ => pure_guarded _) fun _ => ?_
  exact Runs.bind (checkedSt_guarded _ _) fun _ => Runs.bind (capture_guarded _) fun _ =>
    Runs.bind (gptFirst_guarded _ _ _ _ _) fun _ => Runs.bind (checkedSt_guarded _ _) fun _ =>
      Runs.bind (gptRest_guarded i) fun _ => rescan_guarded i

theorem partition_guarded (raid equal : Bool) : Guarded (partition box wiz raid equal) := by
  refine Runs.bind (Q := fun _ => Stopped)
    (Runs.ite (fun _ => minsize_guarded) fun _ => pure_guarded _) fun common =>
      Runs.bind (forWords_guarded fun i => Runs.bind (sizeOf_guarded i) fun _ => ?_) fun _ =>
        cleanraid_guarded
  exact Runs.ite (fun _ => gptPartition_guarded i raid equal common) fun _ =>
    mbrPartition_guarded i raid equal common

/-! ### Arrays, swap and filesystems -/

theorem pairs_guarded (ndisks : Nat) (num : Text) : Guarded (pairs box wiz ndisks num) := by
  refine Runs.bind (capture_guarded _) fun _ => Runs.ite (fun _ => ?_) fun _ => pure_guarded _
  exact Runs.bind (capture_guarded _) fun _ => pure_guarded _

theorem createRaid_guarded (old : Raid) (level num : Text) :
    Guarded (createRaid box wiz old level num) :=
  Runs.bind (capture_guarded _) fun _ => Runs.bind (pairs_guarded _ _) fun _ =>
    Runs.bind (checkedSt_guarded _ _) fun _ => pure_guarded _

theorem createSwap_guarded : Guarded (createSwap box wiz) := by
  refine forWords_guarded fun i => Runs.bind (checkedSt_guarded _ _) fun _ =>
    Runs.bind (capture_guarded _) fun _ => Runs.bind (tool_guarded _) fun _ => ?_
  exact Runs.ite (fun _ => pure_guarded _) fun _ => checkedSt_guarded _ _

theorem createSwapRaid_guarded (old : Raid) : Guarded (createSwapRaid box wiz old) :=
  Runs.bind (createRaid_guarded old _ _) fun _ =>
    Runs.bind (checkedSt_guarded _ _) fun _ => pure_guarded _

theorem raidOptions_guarded (ndisks : Nat) (dev : Text) :
    Guarded (raidOptions box wiz ndisks dev) :=
  Runs.ite (fun _ => Runs.bind (capture_guarded _) fun _ => pure_guarded _) fun _ => pure_guarded _

theorem showProgress_guarded (dev : Text) (rounds : Nat) :
    Guarded (showProgress box dev rounds) := by
  induction rounds with
  | zero => exact pure_guarded _
  | succ n ih =>
      exact Runs.bind (tool_guarded _) fun _ => Runs.onlyIf fun _ =>
        Runs.bind (quiet_guarded _) fun _ => Runs.bind (quiet_guarded _) fun _ => ih

theorem format_guarded (rounds : Nat) (fsdev dev raidopts : Text) :
    Guarded (format box wiz rounds fsdev dev raidopts) := by
  refine Runs.bind (quiet_guarded _) fun _ => Runs.bind (quiet_guarded _) fun _ =>
    Runs.bind (quiet_guarded _) fun _ => Runs.bind (quiet_guarded _) fun _ =>
      Runs.bind (quiet_guarded _) fun _ => Runs.bind (showProgress_guarded dev rounds) fun _ =>
        Runs.bind (quiet_guarded _) fun _ => Runs.bind (tool_guarded _) fun _ =>
          Runs.ite (fun _ => ?_) fun _ => Runs.onlyIf fun _ => quiet_guarded _
  exact Runs.bind (capture_guarded _) fun _ => Runs.bind (quiet_guarded _) fun _ =>
    errWiz_restores _

theorem createFs_guarded (rounds ndisks : Nat) (fsdev : Text) :
    Guarded (createFs box wiz rounds ndisks fsdev) := by
  refine Runs.bind (tool_guarded _) fun _ => Runs.onlyIf fun _ => ?_
  refine Runs.bind (capture_guarded _) fun _ => Runs.bind (Q := fun _ => Stopped)
    (Runs.ite (fun _ => raidOptions_guarded _ _) fun _ => pure_guarded _) fun _ => ?_
  exact Runs.bind (capture_guarded _) fun _ => Runs.onlyIf fun _ => format_guarded _ _ _ _

theorem raidFs_guarded (rounds : Nat) (old : Raid) (level : Text) :
    Guarded (raidFs box wiz rounds old level) :=
  Runs.bind (createRaid_guarded old level _) fun _ =>
    Runs.bind (createFs_guarded rounds _ _) fun _ =>
      forWords_guarded fun _ => createFs_guarded rounds _ _

theorem layout_guarded (rounds : Nat) (old : Raid) : Guarded (layout box wiz rounds old) := by
  have hswap : ∀ level, Guarded (do
      partition box wiz true true
      let raid ← createSwapRaid box wiz old
      raidFs box wiz rounds raid level) := fun level =>
    Runs.bind (partition_guarded true true) fun _ => Runs.bind (createSwapRaid_guarded old)
      fun raid => raidFs_guarded rounds raid level
  refine Runs.ite (fun _ => ?standard) fun _ => Runs.ite (fun _ => ?jbod) fun _ =>
    Runs.ite (fun _ => ?raid0) fun _ => Runs.ite (fun _ => hswap _) fun _ =>
      Runs.ite (fun _ => hswap _) fun _ => pure_guarded _
  case standard =>
    exact Runs.bind (partition_guarded false false) fun _ => Runs.bind createSwap_guarded
      fun _ => forWords_guarded fun _ => createFs_guarded rounds _ _
  case jbod =>
    exact Runs.bind (partition_guarded true false) fun _ => Runs.bind createSwap_guarded
      fun _ => Runs.bind (createRaid_guarded old _ _) fun _ => createFs_guarded rounds _ _
  case raid0 =>
    exact Runs.bind (partition_guarded true true) fun _ => Runs.bind createSwap_guarded
      fun _ => raidFs_guarded rounds old _

/-! ### The script -/

theorem selectDisks_stays (f : Form) :
    Stays Untouched (selectDisks box f) fun _ => Restored := by
  have hgrep : ∀ cmd txt, Stays Untouched (checkedGrep box cmd txt) fun _ => Restored :=
    fun cmd txt => Runs.bind (tool_stays blind_untouched cmd) fun _ =>
      Runs.onlyIf fun _ => Runs.exit fun _ hw => Or.inl hw
  refine Runs.bind (hgrep _ _) fun _ => Runs.bind (hgrep _ _) fun _ => Runs.bind
    (Runs.onlyIf fun _ => Runs.exit fun _ hw => Or.inl hw) fun _ => ?_
  refine Runs.bind (capture_stays blind_untouched _) fun _ => Runs.bind (Q := fun _ => Untouched)
    (Runs.foldlM fun _ _ _ => Runs.bind (capture_stays blind_untouched _) fun _ =>
      Runs.pure fun _ hw => hw) fun _ => ?_
  exact Runs.ite (fun _ => Runs.exit fun _ hw => Or.inl hw) fun _ => Runs.pure fun _ hw => hw

/-- Hotplug after the wizard: it is always started again. -/
theorem diskwiz_restores (rounds : Nat) (f : Form) : EndsRestored (diskwizProc box rounds f) := by
  refine endsRestored_of_runs (Runs.weaken (P := Untouched) ?_ (fun w hw => hw ▸ rfl)
    fun _ _ hw => hw)
  refine Runs.bind (selectDisks_stays f) fun _ => Runs.bind (tool_stays blind_untouched _) fun _ =>
    Runs.bind (Runs.onlyIf fun _ => errWiz_restores _) fun _ =>
      Runs.bind (Q := fun _ => Stopped) (Runs.modifyGet fun _ _ => rfl) fun _ => ?_
  exact Runs.bind (layout_guarded rounds _) fun _ => Runs.bind (loadall_stays blind_stopped _)
    fun _ => Runs.bind (quiet_guarded _) fun _ => Runs.modifyGet fun _ _ => Or.inr rfl

end Parts

/-! ## Both scripts -/

/-- A form for one of the two scripts, with the rounds of the wizard's wait for a format. -/
inductive Submission where
  | diskpart (f : Form)
  | diskwiz (f : Form) (rounds : Nat)

def Submission.run (box : Box) : Submission → Page PUnit
  | .diskpart f => diskpartProc box f
  | .diskwiz f rounds => diskwizProc box rounds f

/-- The partitioner is to convert a disk that it can stop, and the command for it fails. -/
def Submission.ConversionFails (box : Box) : Submission → Prop
  | .diskpart f => box.HasDisks ∧ (operation f).Fails box [listDisks]
  | .diskwiz _ _ => False

/-- **Hotplug and the disk scripts.**  Where a script ends, hotplug is started again if it was
stopped, unless a conversion fails. -/
theorem restores_iff (box : Box) (s : Submission) :
    EndsRestored (s.run box) ↔ ¬ s.ConversionFails box := by
  cases s with
  | diskpart f => exact diskpart_restores_iff
  | diskwiz f rounds => exact iff_of_true (diskwiz_restores rounds f) not_false

/-- A box where sgdisk does not convert. -/
def noGptBox : Box where
  tools _ cmd :=
    if cmd = listDisks then ⟨0, "/dev/sda".toList⟩
    else if cmd = toGPT "sda".toList then ⟨2, "Invalid partition data!".toList⟩
    else ⟨0, []⟩
  glob w := [w]
  bay _ := none
  misc _ := none

def convForm : Form := fun n => if n = "Conv_GPT".toList then "op_sda".toList else []

/-- **Hotplug that stays stopped.**  The conversion of sda fails, and `msg` ends the script. -/
theorem conv_stays_stopped : ¬ ∀ box (s : Submission), EndsRestored (s.run box) := by
  intro h
  have hrun : (endWorld (diskpartProc noGptBox convForm)).hotplug = some [] := by
    decide +kernel
  rcases h noGptBox (.diskpart convForm) with hrestored | hrestored
  · exact absurd (hrestored.symm.trans hrun) (by decide)
  · exact absurd (hrestored.symm.trans hrun) (by decide)

end AltF.Cgi.Disks
