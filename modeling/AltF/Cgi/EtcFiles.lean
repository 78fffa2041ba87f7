/-
  Cgi/EtcFiles.lean --- the files in /etc that the network pages edit, and what their
  scripts share: the checks of common.sh, and messages that end a script.

  A script that ends in a message is said to keep a state when the files are then as they
  were.
-/
import AltF.Cgi.Encoded
import AltF.Shell.Scripts
import AltF.SysFiles.Edits

set_option autoImplicit false

namespace AltF.Cgi.Etc

open AltF.Shell AltF.SysFiles

/-! ## Files -/

inductive EtcFile where
  | dnsmasqConf | dnsmasqHosts | dnsmasqOpts | dnsmasqResolv
  | hosts | hostname | modules | modprobe | resolv | interfaces
  | fstab | misc
  /-- `/etc/fstab-`, which is there only while fstab is written -/
  | fstabBackup
  deriving DecidableEq

/-- The files that are there. -/
abbrev Files : Type := EtcFile → Option TextFile

/-- How a script ends by itself. -/
inductive Ending where
  | msg (txt : Text)
  | gotopage (page : Text)

abbrev Page (α : Type) : Type := Script Ending Files α

def edit (file : EtcFile) (g : Option TextFile → Option TextFile) : Page PUnit :=
  modifyGet fun s => (⟨⟩, Function.update s file (g (s file)))

/-- `sed -i '/pattern/d'` -/
def sedDelete (file : EtcFile) (pattern : Text → Bool) : Page PUnit :=
  edit file (Edit.apply ⟨pattern, []⟩)

/-- `echo ... >>`, which is a line or several -/
def append (file : EtcFile) (ls : List Text) : Page PUnit :=
  edit file fun f => some ((f.getD ⟨[], []⟩).cat ⟨ls, []⟩)

/-- `sed -i '/pattern/d'`, and `echo ... >>` -/
def replace (file : EtcFile) (pattern : Text → Bool) (ls : List Text) : Page PUnit :=
  edit file (Edit.apply ⟨pattern, ls⟩)

/-- `cat > file` -/
def write (file : EtcFile) (ls : List Text) : Page PUnit :=
  edit file fun _ => some ⟨ls, []⟩

/-- The two commands of `replace`. -/
theorem replace_eq (file : EtcFile) (pattern : Text → Bool) {ls : List Text} (hls : ls ≠ []) :
    replace file pattern ls = (sedDelete file pattern >>= fun _ => append file ls) := by
  funext s
  change EStateM.Result.ok _ _ = EStateM.Result.ok _ _
  simp [Edit.apply_lines pattern hls]

/-! ## Rejected requests -/

/-- A message leaves all files as they were, but for the copy of fstab. -/
def Keeps {α : Type} (m : Page α) (s : Files) : Prop :=
  match m s with
  | .error (.msg _) s' => ∀ file, file ≠ .fstabBackup → s' file = s file
  | _ => True

/-! ## Runs of edits -/

/-- The same files, but for the copy of fstab. -/
def SameFiles (s' s : Files) : Prop := ∀ file, file ≠ .fstabBackup → s' file = s file

/-- An ending that is no message. -/
def Quiet (e : Ending) (_ : Files) : Prop := ∀ txt, e ≠ .msg txt

/-- An ending that is no message, or with the files as they were. -/
def KeptFrom (s : Files) (e : Ending) (s' : Files) : Prop := Quiet e s' ∨ SameFiles s' s

theorem SameFiles.refl (s : Files) : SameFiles s s := fun _ _ => rfl

theorem edit_quiet (file : EtcFile) (g : Option TextFile → Option TextFile) :
    Stays (fun _ => True) (edit file g) Quiet :=
  Runs.modifyGet fun _ _ => trivial

theorem gotopage_quiet {α : Type} {Q : α → Files → Prop} (page : Text) :
    Runs (fun _ => True) (exit (.gotopage page) : Page α) Q Quiet :=
  Runs.exit fun _ _ _ h => by cases h

/-- A script that runs on as one without messages keeps the state. -/
theorem keeps_of_quiet {α : Type} {m n : Page α} {s s' : Files} (heq : m s = n s')
    (h : Stays (fun _ => True) n Quiet) : Keeps m s := by
  have hrun := h s' trivial
  unfold Keeps
  rw [heq]
  cases hn : n s' with
  | ok a s' => trivial
  | error e s' =>
      rw [hn] at hrun
      cases e with
      | msg txt => exact absurd rfl (hrun txt)
      | gotopage page => trivial

theorem keeps_of_runs {α : Type} {m : Page α} {Q : α → Files → Prop} {s : Files}
    (h : Runs (· = s) m Q (KeptFrom s)) : Keeps m s := by
  have hrun := h s rfl
  unfold Keeps
  cases hm : m s with
  | ok a s' => trivial
  | error e s' =>
      rw [hm] at hrun
      cases e with
      | msg txt => exact hrun.resolve_left fun hquiet => absurd rfl (hquiet txt)
      | gotopage page => trivial

theorem keeps_of_error {α : Type} {m : Page α} {s s' : Files} {txt : Text}
    (h : m s = .error (.msg txt) s') : Keeps m s ↔ SameFiles s' s := by
  rw [Keeps, h]
  rfl

/-! ## The programs that the scripts call -/

/-- A character of the addresses that `route -n` prints. -/
def isAddressChar (c : Char) : Bool := c.isDigit || c == '.' || c == '\n'

structure Tools extends PageMachine where
  /-- `ipcalc -bs` accepts its arguments. -/
  ipcalc : List Text → Bool
  /-- `arping -D` finds nobody with the address. -/
  arping : List Text → Bool
  /-- `test $words != /mnt`, which is what it says for one word -/
  testNotMnt : List Text → Bool
  testNotMnt_word : ∀ w, testNotMnt [w] = decide (w ≠ "/mnt".toList)
  /-- the error of `mount` or `umount -f` -/
  mountError : Text → Option Text
  /-- `hostname -d` -/
  domainName : Text
  domainName_line : '\n' ∉ domainName
  /-- the gateways of `route -n`, a line each -/
  gateway : Text
  gateway_chars : gateway.all isAddressChar = true
  /-- the servers of ntp.conf, as nslookup tells their addresses -/
  ntpServers : Text
  ntpServers_line : '\n' ∉ ntpServers
  /-- `cat /tmp/board` -/
  board : Text
  /-- the variables of `ipcalc -bns` -/
  network : Text → Text → Text
  broadcast : Text → Text → Text

/-- The variables that read_args sets: `eval` splits at newlines. -/
structure Form where
  var : Text → Text
  line : ∀ n, '\n' ∉ var n

variable (tools : Tools)

/-- The numbers that `seq first n` prints. -/
def seqFrom (first : Nat) (n : Text) : List Nat :=
  if n ≠ [] ∧ n.all Char.isDigit then List.range' first (Nat.ofDigitChars 10 n 0 + 1 - first)
  else []

/-- `name_i` -/
def rowName (name : String) (i : Nat) : Text := name.toList ++ '_' :: Nat.toDigits 10 i

/-- `$(eval echo \$name_i)` -/
def Tools.rowVar (f : Form) (name : String) (i : Nat) : Text :=
  tools.echoVar f.var (rowName name i)

/-- The lines of an output. -/
def outputLines (out : Text) : List Text :=
  if (out.splitOn '\n').getLast? = some [] then (out.splitOn '\n').dropLast else out.splitOn '\n'

/-! ## Checks -/

/-- `checkip $words` -/
def Tools.checkip (t : Text) : Bool := tools.ipcalc (expand tools.glob t)

def isNameLetter (c : Char) : Bool := c.isAlphanum || c == '-'

/-- A line with none of the patterns of checkname: it begins with a letter or is empty, and
has only letters, digits and hyphens. -/
def isNameLine (l : Text) : Bool := l.head?.all Char.isAlpha && l.all isNameLetter

/-- `checkname`: some line of its arguments is a name. -/
def Tools.checkname (words : List Text) : Bool :=
  (outputLines (tools.echo [join words])).any isNameLine

def isXdigit (c : Char) : Bool := c.isDigit || "abcdefABCDEF".toList.contains c

/-- `[[:xdigit:]]` twice, and as many times more as told behind a colon, in front of a text -/
def startsMac : Nat → Text → Bool
  | 0, a :: b :: _ => isXdigit a && isXdigit b
  | n + 1, a :: b :: ':' :: t => isXdigit a && isXdigit b && startsMac n t
  | _, _ => false

/-- `checkmac`: six pairs of digits anywhere in the text. -/
def Tools.checkmac (t : Text) : Bool :=
  (outputLines (tools.echo [(expand tools.glob t).headD []])).any fun l => l.tails.any (startsMac 5)

def isTrimmed (c : Char) : Bool := c == ' ' || c == '\t'

/-- `trimspaces $words` -/
def Tools.trimspaces (t : Text) : Text :=
  commandSubst (['\n'].intercalate ((outputLines (tools.echo [join (expand tools.glob t)])).map
    fun l => (l.dropWhile isTrimmed).rdropWhile isTrimmed))

end AltF.Cgi.Etc
