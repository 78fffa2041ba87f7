/-
  Cgi/BackupPage.lean --- backup.cgi and backup_proc.cgi: the form with a row for each backup and
  three free ones, and the backup.conf that is made of it.

  A row shows the id of its backup and does not send it.  The id that is saved is the number of
  the row.
-/
import AltF.Backup.Conf
import AltF.Cgi.Forms
import AltF.SysFiles.Patterns

set_option autoImplicit false

namespace AltF.Cgi.BackupPage

open AltF.Shell AltF.SysFiles AltF.Backup

/-! ## The box -/

/-- The fields of a row that are read. -/
def rowNames : List Text :=
  ["cmtd".toList, "bck_type".toList, "bck_user".toList, "host".toList, "mac".toList, "src".toList,
    "when".toList, "at".toList, "nlogs".toList]

/-- A variable whose value decides what is saved. -/
def isRead (n : Text) : Bool :=
  ["cnt_know".toList, "Change".toList, "BackupNow".toList].contains n || neededNames.contains n ||
    isRowName n && ("log".toList :: rowNames).contains (rowBase n)

/-- A name of a user. -/
def isNick (t : Text) : Bool :=
  t.head?.any (· != '-') && t.all fun c => c.isAlphanum || "-._".toList.contains c

/-- A character of what `arp` shows. -/
def isMacChar (c : Char) : Bool := c.isAlphanum || ":<>".toList.contains c

/-- A box with a backup folder.  No file in the directory of the cgi scripts has `;` in its
name. -/
structure Box extends PageMachine where
  /-- the users of /etc/passwd that the form lists -/
  users : List Text
  /-- `modprobe -D cifs` -/
  cifs : Bool
  /-- `readlink -f /Backup` -/
  bdir : Text
  /-- `MAILTO` -/
  mailto : Text
  /-- `BACKUP_LOG` is set -/
  backlog : Bool
  /-- the address of a computer that `ping` reaches, as `arp -n` shows it, or nothing -/
  arp : Text → Text
  nicks : ∀ u ∈ users, isNick u = true ∧ isRead u = false
  folder : '/' ∈ bdir ∧ bdir.all isShown = true
  address : (mailto = [] ∨ '@' ∈ mailto) ∧ mailto.all isShown = true
  macs : ∀ host, (arp host).all isMacChar = true
  semis : ∀ {w : Text}, ';' ∈ w → glob w = [w]

/-! ## The form -/

/-- What a row sends; `none` for a field that is disabled, or whose chosen option is. -/
structure Row where
  disabled : Bool
  type : Option Text
  runas : Text
  host : Option Text
  mac : Text
  srcpath : Text
  when : Text
  hour : Text
  nlogs : Text

namespace Row

/-- The fields but the check box. -/
def entered (r : Row) : List (Text × Text) :=
  r.type.toList.map (fun t => ("bck_type".toList, t)) ++ ("bck_user".toList, r.runas) ::
    (r.host.toList.map (fun t => ("host".toList, t)) ++
      [("mac".toList, r.mac), ("src".toList, r.srcpath), ("when".toList, r.when),
        ("at".toList, r.hour), ("nlogs".toList, r.nlogs)])

def shown (r : Row) : List (Text × Text) :=
  (if r.disabled then [("cmtd".toList, ['#'])] else []) ++ r.entered

end Row

/-- Fields with their values encoded. -/
def encoded (xs : List (Text × Text)) : List (Text × Text) := xs.map fun x => (x.1, urlencode x.2)

/-- The type that is selected.  `rsync_sel` is not reset: behind an entry of this type it is the
last of the selected options. -/
def selectedType (rsync : Bool) (type : Text) : Text :=
  if rsync then "rsync".toList
  else if typeNames.contains type then type else "Select One".toList

namespace Box

variable (m : Box) (b : Browser)

/-- `<option $cifs_dis>CIFS</option>` -/
def sentType (type : Text) : Option Text :=
  if type = "CIFS".toList ∧ !m.cifs then none else some type

/-- `sed 's/value='$runas'/selected value='$runas'/'`: the first option whose value begins with
the name is selected, and has the name then, and `root` where there is none. -/
def selectedUser (runas : Text) : Text :=
  match m.users.find? (dotPrefix runas) with
  | some u => runas ++ u.drop runas.length
  | none => "root".toList

/-- The row of an entry; `rsync` is `rsync_sel`. -/
def entryRow (rsync : Bool) (e : Entry) : Row where
  disabled := e.disabled
  type := m.sentType (selectedType rsync e.type)
  runas := m.selectedUser e.runas
  host := if e.type = "Dir".toList then none else some (b.value e.host)
  mac := b.value e.mac
  srcpath := b.value e.srcpath
  when := b.value e.when
  hour := b.value e.hour
  nlogs := b.value e.nlogs

def entryRows : Bool → List Entry → List Row
  | _, [] => []
  | rsync, e :: es =>
      let rsync := rsync || e.type == "rsync".toList
      m.entryRow b rsync e :: entryRows rsync es

end Box

/-- A backup that is entered in a free row. -/
structure New where
  disabled : Bool
  type : Text
  runas : Text
  host : Text
  srcpath : Text
  when : Text
  hour : Text
  nlogs : Text

/-- A free row without its check box, as it is shown or as it is filled in; `typechg` disables
the host of a folder. -/
def freeRow : Option New → Row
  | none => ⟨false, some "Select One".toList, "root".toList, some [], [], [], [], [], ['0']⟩
  | some a => ⟨false, some a.type, a.runas,
      if a.type = "Dir".toList then none else some a.host, [], a.srcpath, a.when, a.hour, a.nlogs⟩

/-- The fields of the free rows.  The check boxes have the number of the first of these rows. -/
def freePairs (cnt : Nat) (news : Fin 3 → Option New) : List (Text × Text) :=
  (List.finRange 3).flatMap fun k =>
    (if (news k).any New.disabled then [(numbered "cmtd".toList cnt, urlencode ['#'])] else []) ++
      (encoded (freeRow (news k)).entered).map fun x => (numbered x.1 (cnt + k), x.2)

/-- The fields behind the rows. -/
def Box.lastFields (m : Box) (b : Browser) (cnt : Nat) : List (Text × Text) :=
  (if m.backlog ∧ m.mailto ≠ [] then [("backlog".toList, "yes".toList)] else []) ++
    [("sendto".toList, urlencode (b.value m.mailto)),
      ("cnt_know".toList, Nat.toDigits 10 (cnt + 2)), ("submit".toList, "Submit".toList)]

/-- backup.cgi: the form, as it is sent with new backups in its free rows. -/
def Box.form (m : Box) (b : Browser) (conf : Text) (news : Fin 3 → Option New) :
    List (Text × Text) :=
  let rows := m.entryRows b false (confEntries conf)
  ("bdir".toList, urlencode (b.value m.bdir)) ::
    (rowsPairs 0 (rows.map fun r => encoded r.shown) ++ freePairs rows.length news ++
      m.lastFields b rows.length)

/-- `max_id`, of ids that are numbers as `$((...))` writes them. -/
def maxId : Nat → List Entry → Nat
  | max, [] => max
  | max, e :: es =>
      let id := Nat.ofDigitChars 10 e.id 0
      maxId (if id > max then id else max) es

/-- The id that the page shows in a free row. -/
def shownId (conf : Text) (k : Fin 3) : Text :=
  Nat.toDigits 10 (maxId 0 (confEntries conf) + 1 + k)

/-! ## Saving -/

/-- `seq 0 n` -/
def seqFrom (n : Text) : List Nat :=
  if n ≠ [] ∧ n.all Char.isDigit then List.range' 0 (Nat.ofDigitChars 10 n 0 + 1) else []

/-- `"$(eval echo \"\$n\")"` -/
def Box.echoQuoted (m : Box) (env : Env) (n : Text) : Text := commandSubst (m.echo [env n])

/-- backup_proc.cgi: the line that a row makes. -/
def Box.confLine (m : Box) (env : Env) (i : Nat) : Text :=
  let id := Nat.toDigits 10 i
  let cmtd := m.echoVar env (numbered "cmtd".toList i)
  let type := m.echoVar env (numbered "bck_type".toList i)
  let runas := m.echoVar env (numbered "bck_user".toList i)
  let host := m.echoVar env (numbered "host".toList i)
  let mac := m.echoVar env (numbered "mac".toList i)
  let srcpath := m.echoVar env (numbered "src".toList i)
  let when := m.echoQuoted env (numbered "when".toList i)
  let hour := m.echoQuoted env (numbered "at".toList i)
  let log := m.echoVar env (numbered "log".toList i)
  let nlogs := m.echoVar env (numbered "nlogs".toList i)
  let log := if log = [] then "no".toList else log
  let dstpath := "/Backup".toList
  if [id, type, runas, srcpath, dstpath, when, hour, log, nlogs].any (·.isEmpty) then []
  else if type ≠ "Dir".toList ∧ host = [] then []
  else
    let mac := if type ≠ "Dir".toList ∧ mac = [] then m.arp host else mac
    m.echo (expand m.glob (commandSubst (httpdDecode ([';'].intercalate
      [cmtd ++ id, type, runas, host, mac, srcpath, dstpath, when, hour, log, nlogs]))))

/-- backup_proc.cgi: the backup.conf it installs. -/
def Box.proc (m : Box) (env : Env) (body : Text) : Option Text := do
  let env₁ ← m.readForm env body
  if env₁ "Change".toList = [] ∧ env₁ "BackupNow".toList = [] ∧ env₁ "Submit".toList ≠ [] then
    some (header ++ ['\n'] ++ (seqFrom (env₁ "cnt_know".toList)).flatMap (m.confLine env₁))
  else none

/-! ## What becomes of a row -/

/-- The entry of a row, with its blanks as they were entered. -/
def Row.entry (m : Box) (i : Nat) (r : Row) : Entry :=
  let type := r.type.getD []
  let host := r.host.getD []
  { disabled := r.disabled
    id := Nat.toDigits 10 i
    type
    runas := r.runas
    host
    mac := if type ≠ "Dir".toList ∧ r.mac = [] then m.arp (urlencode host) else r.mac
    srcpath := r.srcpath
    dstpath := "/Backup".toList
    when := r.when
    hour := r.hour
    log := "no".toList
    nlogs := r.nlogs }

/-- What `echo` makes of the blanks. -/
def squeezed (e : Entry) : Entry :=
  { e with host := squeeze e.host, mac := squeeze e.mac, srcpath := squeeze e.srcpath }

/-- The entry that is saved, if any is. -/
def Row.saved (m : Box) (i : Nat) (r : Row) : Option Entry :=
  let e := r.entry m i
  if [e.type, e.runas, e.srcpath, e.when, e.hour, e.nlogs].any (·.isEmpty) then none
  else if e.type ≠ "Dir".toList ∧ e.host = [] then none
  else some (squeezed e)

/-- Text that a browser shows and sends as it is, without the characters of `p`. -/
def isText (p : Char → Bool) (t : Text) : Bool :=
  (t.all fun c => isShown c && !p c && c != ';' && c != '\\') && !isEchoOption t && !isRead t

/-- Texts that are not changed on their way, but for their blanks. -/
structure Row.Plain (r : Row) : Prop where
  type : ∀ t ∈ r.type, t ∈ "Select One".toList :: typeNames
  runas : isNick r.runas = true ∧ isRead r.runas = false
  texts : ∀ t ∈ [r.host.getD [], r.mac, r.srcpath], isText isWild t = true
  times : ∀ t ∈ [r.when, r.hour], isText isBlank t = true
  nlogs : r.nlogs.all (fun c => c.isDigit || c == '.') = true

/-! ### Values -/

/-- Text that arrives as it was entered. -/
structure Value (t : Text) : Prop where
  shown : t.all isShown = true
  chars : ∀ c ∈ t, c ≠ ';' ∧ c ≠ '\\'
  option : isEchoOption t = false
  unread : isRead t = false

section Values

variable {t : Text}

theorem underscore_of_isRowName (ht : isRowName t = true) : '_' ∈ t := by
  rw [isRowName, Bool.and_eq_true] at ht
  exact (List.rdropWhile_prefix _ _).subset (List.mem_of_getLast? (eq_of_beq ht.2))

/-- The names that are read have a letter or an underscore. -/
theorem letter_of_isRead (ht : isRead t = true) :
    ∃ c ∈ t, (c.isDigit || c == '.') = false := by
  have hnames : ∀ n ∈ ["cnt_know".toList, "Change".toList, "BackupNow".toList] ++ neededNames,
      ∃ c ∈ n, (c.isDigit || c == '.') = false := by
    intro n hn
    have hall : (["cnt_know".toList, "Change".toList, "BackupNow".toList] ++ neededNames).all
        (fun n => n.any fun c => !(c.isDigit || c == '.')) = true := by decide +kernel
    obtain ⟨c, hc, hnot⟩ := List.any_eq_true.mp (List.all_eq_true.mp hall n hn)
    exact ⟨c, hc, by simpa using hnot⟩
  rw [isRead, Bool.or_eq_true, Bool.or_eq_true, Bool.and_eq_true] at ht
  rcases ht with (hname | hneeded) | hrow
  · exact hnames t (List.mem_append_left _ (List.contains_iff_mem.mp hname))
  · exact hnames t (List.mem_append_right _ (List.contains_iff_mem.mp hneeded))
  · exact ⟨'_', underscore_of_isRowName hrow.1, rfl⟩

theorem value_nil : Value [] := ⟨rfl, nofun, rfl, by decide +kernel⟩

theorem value_of_isText {p : Char → Bool} (ht : isText p t = true) :
    Value t ∧ ∀ c ∈ t, p c = false := by
  rw [isText, Bool.and_eq_true, Bool.and_eq_true, Bool.not_eq_true', Bool.not_eq_true'] at ht
  have hchar : ∀ c ∈ t, ((isShown c = true ∧ p c = false) ∧ c ≠ ';') ∧ c ≠ '\\' := by
    intro c hc
    simpa using List.all_eq_true.mp ht.1.1 c hc
  exact ⟨⟨List.all_eq_true.mpr fun c hc => (hchar c hc).1.1.1,
    fun c hc => ⟨(hchar c hc).1.2, (hchar c hc).2⟩, ht.1.2, ht.2⟩, fun c hc => (hchar c hc).1.1.2⟩

/-- Solid text of letters, digits and a few others. -/
structure Solid (t : Text) : Prop where
  value : Value t
  wild : ∀ c ∈ t, isWild c = false
  blank : ∀ c ∈ t, isBlank c = false

theorem ne_of_isAlphanum {c : Char} (hc : c.isAlphanum = true) (d : Char)
    (hd : d.isAlphanum = false) : c ≠ d := by
  rintro rfl
  exact absurd (hc.symm.trans hd) (by decide)

theorem isAlphanum_of_isDigit {c : Char} (hc : c.isDigit = true) : c.isAlphanum = true := by
  rw [Char.isAlphanum, hc, Bool.or_true]

theorem solid_char {c : Char} (hc : c.isAlphanum = true ∨ c ∈ "-._".toList) :
    (isShown c = true ∧ isWild c = false) ∧ isBlank c = false ∧ c ≠ ';' ∧ c ≠ '\\' := by
  rcases hc with halnum | hmem
  · have hne := ne_of_isAlphanum halnum
    have hblank := not_blank_of_isNameChar (c := c) (by rw [isNameChar, halnum, Bool.true_or])
    refine ⟨⟨isShown_of_isAlphanum halnum, ?_⟩, hblank, hne ';' rfl, hne '\\' rfl⟩
    simp [isWild, hne '*' rfl, hne '?' rfl, hne '[' rfl]
  · have hall : ("-._".toList.all fun c => isShown c && !isWild c && !isBlank c && c != ';' &&
        c != '\\') = true := by decide +kernel
    simpa [and_assoc] using List.all_eq_true.mp hall c hmem

theorem solid_of_chars (ht : ∀ c ∈ t, c.isAlphanum = true ∨ c ∈ "-._".toList)
    (hoption : isEchoOption t = false) (hread : isRead t = false) : Solid t where
  value := ⟨List.all_eq_true.mpr fun c hc => (solid_char (ht c hc)).1.1,
    fun c hc => (solid_char (ht c hc)).2.2, hoption, hread⟩
  wild := fun c hc => (solid_char (ht c hc)).1.2
  blank := fun c hc => (solid_char (ht c hc)).2.1

theorem solid_of_isNick (ht : isNick t = true) (hread : isRead t = false) : Solid t := by
  rw [isNick, Bool.and_eq_true] at ht
  have hchar : ∀ c ∈ t, c.isAlphanum = true ∨ c ∈ "-._".toList := fun c hc => by
    simpa using List.all_eq_true.mp ht.2 c hc
  have hoption : isEchoOption t = false := by
    have hhead := ht.1
    unfold isEchoOption
    split
    · rw [List.head?_cons, Option.any_some] at hhead
      exact absurd hhead (by decide)
    · rfl
  exact solid_of_chars hchar hoption hread

theorem solid_of_number (ht : t.all (fun c => c.isDigit || c == '.') = true) : Solid t := by
  have hchar : ∀ c ∈ t, c.isAlphanum = true ∨ c ∈ "-._".toList := by
    intro c hc
    rcases (Bool.or_eq_true _ _).mp (List.all_eq_true.mp ht c hc) with hdigit | hdot
    · exact Or.inl (isAlphanum_of_isDigit hdigit)
    · rw [eq_of_beq hdot]
      exact Or.inr (by decide)
  have hoption : isEchoOption t = false := by
    unfold isEchoOption
    split
    · exact absurd (List.all_eq_true.mp ht '-' List.mem_cons_self) (by decide)
    · rfl
  have hread : isRead t = false := by
    refine Bool.eq_false_iff.mpr fun hread => ?_
    obtain ⟨c, hc, hnot⟩ := letter_of_isRead hread
    exact absurd (hnot.symm.trans (List.all_eq_true.mp ht c hc)) Bool.false_ne_true
  exact solid_of_chars hchar hoption hread

theorem value_of_type (ht : t ∈ "Select One".toList :: typeNames) :
    Value t ∧ (∀ c ∈ t, isWild c = false) ∧ squeeze t = t ∧
      (urlencode t = "Dir".toList ↔ t = "Dir".toList) := by
  have hall : ∀ t ∈ "Select One".toList :: typeNames,
      (t.all (fun c => isShown c && c != ';' && c != '\\' && !isWild c) = true ∧
        isEchoOption t = false ∧ isRead t = false) ∧ squeeze t = t ∧
        (urlencode t = "Dir".toList ↔ t = "Dir".toList) :=
    forall_of_all (by decide +kernel)
  obtain ⟨⟨hchars, hoption, hread⟩, hsqueeze, hdir⟩ := hall t ht
  have hchar : ∀ c ∈ t, ((isShown c = true ∧ c ≠ ';') ∧ c ≠ '\\') ∧ isWild c = false := by
    intro c hc
    simpa using List.all_eq_true.mp hchars c hc
  exact ⟨⟨List.all_eq_true.mpr fun c hc => (hchar c hc).1.1.1,
    fun c hc => ⟨(hchar c hc).1.1.2, (hchar c hc).1.2⟩, hoption, hread⟩,
    fun c hc => (hchar c hc).2, hsqueeze, hdir⟩

end Values

/-! ### Lines -/

/-- A character in front of the first separator. -/
theorem front_char {disabled : Bool} {i : Nat} {c : Char}
    (hc : c ∈ (if disabled then ['#'] else []) ++ Nat.toDigits 10 i) :
    c = '#' ∨ c.isDigit = true := by
  rcases List.mem_append.mp hc with hc | hc
  · split at hc
    · exact Or.inl (List.mem_singleton.mp hc)
    · cases hc
  · exact Or.inr (isDigit_of_mem_toDigits hc)

/-- Fields that are decoded one by one. -/
theorem httpdDecode_intercalate {fs gs : List Text}
    (h : List.Forall₂ (fun f g => ∀ u, httpdDecode (f ++ u) = g ++ httpdDecode u) fs gs) :
    httpdDecode ([';'].intercalate fs) = [';'].intercalate gs := by
  induction h with
  | nil => rfl
  | @cons f g fs gs hfirst hrest ih =>
      cases hrest with
      | nil =>
          have hf := hfirst []
          rw [List.append_nil, httpdDecode, List.append_nil] at hf
          rw [List.intercalate_singleton, List.intercalate_singleton, hf]
      | cons =>
          rw [List.intercalate_cons_cons, List.intercalate_cons_cons, List.append_assoc, hfirst,
            List.singleton_append, httpdDecode_cons_of_ne (by decide) (by decide), ih,
            List.append_assoc, List.singleton_append]

/-- An entry whose line is printed, with its blanks squeezed. -/
structure Printed (e : Entry) : Prop where
  id : ∃ n, e.id = Nat.toDigits 10 n
  wild : ∀ f ∈ [e.type, e.runas, e.host, e.mac, e.srcpath, e.dstpath, e.log, e.nlogs], ∀ c ∈ f,
    isWild c = false
  times : ∀ f ∈ [e.when, e.hour], ∀ c ∈ f, isBlank c = false
  nlogs : e.nlogs ≠ [] ∧ ∀ c ∈ e.nlogs, isBlank c = false
  line : '\n' ∉ e.line

namespace Printed

variable {e : Entry}

/-- The number in front of the line. -/
theorem first (he : Printed e) : ∃ d, d.isDigit = true ∧
    d ∈ (if e.disabled then ['#'] else []) ++ e.id ∧
    ∀ c ∈ (if e.disabled then ['#'] else []) ++ e.id, isBlank c = false ∧ isWild c = false := by
  obtain ⟨n, hid⟩ := he.id
  obtain ⟨d, hd⟩ := List.exists_mem_of_ne_nil _ (Nat.toDigits_ne_nil (b := 10) (n := n))
  refine ⟨d, isDigit_of_mem_toDigits hd, List.mem_append_right _ (hid ▸ hd), fun c hc => ?_⟩
  rw [hid] at hc
  rcases front_char hc with rfl | hdigit
  · decide
  · have hchar := solid_char (Or.inl (isAlphanum_of_isDigit hdigit))
    exact ⟨hchar.2.1, hchar.1.2⟩

/-- The days and the hours are one word with the separators around them, and patterns are in no
other field. -/
theorem glob_words (he : Printed e) (m : Box) : ∀ w ∈ words e.line, m.glob w = [w] := by
  have hline : e.line = [';'].intercalate [(if e.disabled then ['#'] else []) ++ e.id, e.type,
      e.runas, e.host, e.mac, e.srcpath, e.dstpath] ++
        (';' :: (e.when ++ ';' :: (e.hour ++ [';']))) ++ [';'].intercalate [e.log, e.nlogs] := by
    simp only [Entry.line, Entry.fields, List.intercalate_cons_cons, List.intercalate_singleton,
      List.append_assoc, List.cons_append, List.nil_append]
  have hsolid : ∀ c ∈ ';' :: (e.when ++ ';' :: (e.hour ++ [';'])), isBlank c = false := by
    intro c hc
    simp only [List.mem_cons, List.mem_append, List.not_mem_nil, or_false] at hc
    rcases hc with rfl | hc | rfl | hc | rfl
    · rfl
    · exact he.times _ List.mem_cons_self c hc
    · rfl
    · exact he.times _ (List.mem_cons_of_mem _ List.mem_cons_self) c hc
    · rfl
  have hwild : ∀ fs : List Text, (∀ f ∈ fs, ∀ c ∈ f, isWild c = false) →
      ∀ c ∈ [';'].intercalate fs, isWild c = false := by
    intro fs hfs c hc
    rcases mem_of_mem_intercalate hc with rfl | ⟨f, hf, hmem⟩
    · rfl
    · exact hfs f hf c hmem
  have hfront := hwild [(if e.disabled then ['#'] else []) ++ e.id, e.type, e.runas, e.host, e.mac,
      e.srcpath, e.dstpath] (by
    intro f hf
    rcases List.mem_cons.mp hf with rfl | hf
    · obtain ⟨-, -, -, hid⟩ := he.first
      exact fun c hc => (hid c hc).2
    · exact he.wild f (List.mem_append_left [e.log, e.nlogs] hf))
  have hbehind := hwild [e.log, e.nlogs] fun f hf => he.wild f
    (List.mem_append_right [e.type, e.runas, e.host, e.mac, e.srcpath, e.dstpath] hf)
  intro w hw
  rw [hline] at hw
  rcases infix_of_mem_words (List.cons_ne_nil _ _) hsolid hw with hplain | hsemi
  · exact m.globs fun c hc => (hplain c hc).elim (hfront c) (hbehind c)
  · exact m.semis (hsemi.subset List.mem_cons_self)

/-- `echo $(...)` -/
theorem echo_line (he : Printed e) (m : Box) :
    m.echo (expand m.glob (commandSubst e.line)) = squeeze e.line ++ ['\n'] := by
  obtain ⟨d, hdigit, hd, hid⟩ := he.first
  have hne : (if e.disabled then ['#'] else []) ++ e.id ≠ [] := List.ne_nil_of_mem hd
  have hline : e.line = ((if e.disabled then ['#'] else []) ++ e.id) ++
      ';' :: [';'].intercalate e.fields.tail := by
    rw [Entry.line, Entry.fields, List.intercalate_cons_cons, List.append_assoc,
      List.singleton_append, List.tail_cons]
  have hlast : ∃ t, e.line = t ++ e.nlogs := by
    refine ⟨[';'].intercalate (e.fields.dropLast ++ [[]]), ?_⟩
    simp only [Entry.line, Entry.fields, List.dropLast_cons_cons, List.dropLast_singleton,
      List.cons_append, List.nil_append, List.intercalate_cons_cons, List.intercalate_singleton,
      List.append_assoc, List.append_nil]
  have hstart : StartsSolid e.line := by
    intro c hc
    rw [hline, List.head?_append_of_ne_nil _ hne] at hc
    exact (hid c (List.mem_of_mem_head? hc)).1
  have hend : EndsSolid e.line := by
    obtain ⟨t, ht⟩ := hlast
    rw [ht]
    exact EndsSolid.append t (fun c hc => he.nlogs.2 c (List.mem_of_getLast? hc)) he.nlogs.1
  -- the number is in the first word
  have hhead : ∀ w ∈ (words e.line).head?, isEchoOption w = false := by
    intro w hw
    obtain ⟨r, ws, hwords⟩ := words_append_of_not_blank hne (fun c hc => (hid c hc).1)
      (';' :: [';'].intercalate e.fields.tail)
    rw [hline, hwords] at hw
    obtain rfl := Option.some.inj hw
    refine isEchoOption_of_mem (List.mem_append_left r hd) ?_
    exact Bool.eq_false_iff.mpr fun hmem =>
      absurd hdigit (by
        have hall : "-neE".toList.all (fun c => !c.isDigit) = true := by decide
        simpa using List.all_eq_true.mp hall d (List.contains_iff_mem.mp hmem))
  rw [commandSubst_of_not_mem he.line, expand_of_kept (he.glob_words m), m.echoes.plain hhead,
    join_words hstart hend]

end Printed

theorem urlencode_eq_nil_iff {t : Text} : urlencode t = [] ↔ t = [] :=
  ⟨fun h => by_contra fun hne => urlencode_ne_nil hne h, fun h => congrArg urlencode h⟩

theorem isEmpty_urlencode (t : Text) : (urlencode t).isEmpty = t.isEmpty := by
  rw [Bool.eq_iff_iff, List.isEmpty_iff, List.isEmpty_iff, urlencode_eq_nil_iff]

/-- What the fields of a row have. -/
theorem rowValue_shown (r : Row) : ∀ x ∈
    [("cmtd".toList, if r.disabled then ['#'] else []), ("bck_type".toList, r.type.getD []),
      ("bck_user".toList, r.runas), ("host".toList, r.host.getD []), ("mac".toList, r.mac),
      ("src".toList, r.srcpath), ("when".toList, r.when), ("at".toList, r.hour),
      ("log".toList, []), ("nlogs".toList, r.nlogs)],
    rowValue (encoded r.shown) x.1 = urlencode x.2 := by
  obtain ⟨disabled, type, runas, host, mac, srcpath, when, hour, nlogs⟩ := r
  simp only [List.forall_mem_cons, List.not_mem_nil, false_implies, implies_true, and_true]
  cases disabled <;> cases type <;> cases host <;>
    exact ⟨rfl, rfl, rfl, rfl, rfl, rfl, rfl, rfl, rfl, rfl⟩

namespace Row.Plain

variable {r : Row}

theorem type_value (hr : r.Plain) : Value (r.type.getD []) ∧
    (∀ c ∈ r.type.getD [], isWild c = false) ∧ squeeze (r.type.getD []) = r.type.getD [] ∧
    (urlencode (r.type.getD []) = "Dir".toList ↔ r.type.getD [] = "Dir".toList) := by
  cases htype : r.type with
  | none => exact ⟨value_nil, nofun, rfl, by decide⟩
  | some t => exact value_of_type (hr.type t htype)

theorem runas_solid (hr : r.Plain) : Solid r.runas := solid_of_isNick hr.runas.1 hr.runas.2

theorem nlogs_solid (hr : r.Plain) : Solid r.nlogs := solid_of_number hr.nlogs

theorem host_value (hr : r.Plain) : Value (r.host.getD []) ∧
    ∀ c ∈ r.host.getD [], isWild c = false := value_of_isText (hr.texts _ List.mem_cons_self)

theorem mac_value (hr : r.Plain) : Value r.mac ∧ ∀ c ∈ r.mac, isWild c = false :=
  value_of_isText (hr.texts _ (List.mem_cons_of_mem _ List.mem_cons_self))

theorem srcpath_value (hr : r.Plain) : Value r.srcpath ∧ ∀ c ∈ r.srcpath, isWild c = false :=
  value_of_isText (hr.texts _ (List.mem_cons_of_mem _ (List.mem_cons_of_mem _ List.mem_cons_self)))

theorem when_value (hr : r.Plain) : Value r.when ∧ ∀ c ∈ r.when, isBlank c = false :=
  value_of_isText (hr.times _ List.mem_cons_self)

theorem hour_value (hr : r.Plain) : Value r.hour ∧ ∀ c ∈ r.hour, isBlank c = false :=
  value_of_isText (hr.times _ (List.mem_cons_of_mem _ List.mem_cons_self))

end Row.Plain

section Entries

variable {m : Box} {r : Row} {i : Nat}

theorem macChar {host : Text} {c : Char} (hc : c ∈ m.arp host) :
    isWild c = false ∧ isBlank c = false ∧ c ≠ ';' ∧ c ≠ '\\' ∧ c ≠ '\n' ∧ c ≠ '+' ∧ c ≠ '%' := by
  have hmac := List.all_eq_true.mp (m.macs host) c hc
  rw [isMacChar, Bool.or_eq_true] at hmac
  rcases hmac with halnum | hmem
  · have hne := ne_of_isAlphanum halnum
    have hchar := solid_char (Or.inl halnum)
    exact ⟨hchar.1.2, hchar.2.1, hchar.2.2.1, hchar.2.2.2, hne '\n' rfl, hne '+' rfl, hne '%' rfl⟩
  · have hall : ∀ c ∈ ":<>".toList, isWild c = false ∧ isBlank c = false ∧ c ≠ ';' ∧ c ≠ '\\' ∧
        c ≠ '\n' ∧ c ≠ '+' ∧ c ≠ '%' := forall_of_all (by decide +kernel)
    exact hall c (List.contains_iff_mem.mp hmem)

theorem Value.newline {t : Text} (ht : Value t) : '\n' ∉ t := fun hc =>
  absurd (List.all_eq_true.mp ht.shown _ hc) (by decide)

/-- Neither separators nor backslashes nor newlines are in a field. -/
theorem Row.Plain.fields_chars (hr : r.Plain) (m : Box) (i : Nat) : ∀ f ∈ (r.entry m i).fields,
    ∀ c ∈ f, c ≠ ';' ∧ c ≠ '\\' ∧ c ≠ '\n' := by
  have hvalue : ∀ {t : Text}, Value t → ∀ c ∈ t, c ≠ ';' ∧ c ≠ '\\' ∧ c ≠ '\n' := fun ht c hc =>
    ⟨(ht.chars c hc).1, (ht.chars c hc).2, fun hnl => ht.newline (hnl ▸ hc)⟩
  have hid : ∀ c ∈ (if r.disabled then ['#'] else []) ++ Nat.toDigits 10 i,
      c ≠ ';' ∧ c ≠ '\\' ∧ c ≠ '\n' := by
    intro c hc
    rcases front_char hc with rfl | hdigit
    · decide
    · have hne := Foundation.ne_of_isDigit hdigit
      exact ⟨hne ';' rfl, hne '\\' rfl, hne '\n' rfl⟩
  have hmac : ∀ c ∈ (r.entry m i).mac, c ≠ ';' ∧ c ≠ '\\' ∧ c ≠ '\n' := by
    unfold entry
    simp only
    split
    · exact fun c hc => ⟨(macChar hc).2.2.1, (macChar hc).2.2.2.1, (macChar hc).2.2.2.2.1⟩
    · exact hvalue hr.mac_value.1
  have hconst : ∀ f ∈ ["/Backup".toList, "no".toList], ∀ c ∈ f, c ≠ ';' ∧ c ≠ '\\' ∧ c ≠ '\n' := by
    intro f hf
    simp only [List.mem_cons, List.not_mem_nil, or_false] at hf
    rcases hf with rfl | rfl
    · exact forall_of_all (by decide)
    · exact forall_of_all (by decide)
  have hdst := hconst _ List.mem_cons_self
  have hlog := hconst _ (List.mem_cons_of_mem _ List.mem_cons_self)
  simp only [Entry.fields, List.forall_mem_cons, List.not_mem_nil, false_implies, implies_true,
    and_true]
  exact ⟨hid, hvalue hr.type_value.1, hvalue hr.runas_solid.value, hvalue hr.host_value.1, hmac,
    hvalue hr.srcpath_value.1, hdst, hvalue hr.when_value.1, hvalue hr.hour_value.1, hlog,
    hvalue hr.nlogs_solid.value⟩

theorem Row.Plain.printed (hr : r.Plain) (m : Box) (i : Nat) (hnlogs : r.nlogs ≠ []) :
    Printed (r.entry m i) where
  id := ⟨i, rfl⟩
  wild := by
    have hmac : ∀ c ∈ (r.entry m i).mac, isWild c = false := by
      unfold Row.entry
      simp only
      split
      · exact fun c hc => (macChar hc).1
      · exact hr.mac_value.2
    have hdst : ∀ c ∈ (r.entry m i).dstpath, isWild c = false :=
      forall_of_all (l := "/Backup".toList) (by decide)
    have hlog : ∀ c ∈ (r.entry m i).log, isWild c = false :=
      forall_of_all (l := "no".toList) (by decide)
    simp only [List.forall_mem_cons, List.not_mem_nil, false_implies, implies_true, and_true]
    exact ⟨hr.type_value.2.1, hr.runas_solid.wild, hr.host_value.2, hmac, hr.srcpath_value.2, hdst,
      hlog, hr.nlogs_solid.wild⟩
  times := by
    simp only [List.forall_mem_cons, List.not_mem_nil, false_implies, implies_true, and_true]
    exact ⟨hr.when_value.2, hr.hour_value.2⟩
  nlogs := ⟨hnlogs, hr.nlogs_solid.blank⟩
  line := by
    intro hc
    rcases mem_of_mem_intercalate hc with h | ⟨f, hf, hmem⟩
    · exact absurd h (by decide)
    · exact (hr.fields_chars m i f hf _ hmem).2.2 rfl

/-- The line of the entry, with the blanks squeezed. -/
theorem Row.Plain.squeeze_line (hr : r.Plain) (m : Box) (i : Nat) :
    squeeze (r.entry m i).line = (squeezed (r.entry m i)).line := by
  have hid : squeeze ((if r.disabled then ['#'] else []) ++ Nat.toDigits 10 i) =
      (if r.disabled then ['#'] else []) ++ Nat.toDigits 10 i := by
    refine squeeze_of_not_blank fun c hc => ?_
    rcases front_char hc with rfl | hdigit
    · rfl
    · exact (solid_char (Or.inl (isAlphanum_of_isDigit hdigit))).2.1
  have hsolid := fun {t : Text} (ht : ∀ c ∈ t, isBlank c = false) => squeeze_of_not_blank ht
  have hdst : squeeze "/Backup".toList = "/Backup".toList := by decide
  have hlog : squeeze "no".toList = "no".toList := by decide
  have hfields : (r.entry m i).fields.map squeeze = (squeezed (r.entry m i)).fields := by
    simp only [Entry.fields, squeezed, Row.entry, List.map_cons, List.map_nil,
      hr.type_value.2.2.1, hsolid hr.runas_solid.blank, hdst, hsolid hr.when_value.2,
      hsolid hr.hour_value.2, hlog, hsolid hr.nlogs_solid.blank]
    exact congrArg (List.cons · _) hid
  rw [Entry.line, squeeze_intercalate rfl, hfields, Entry.line]

/-- The fields of a row are decoded in the line. -/
theorem Row.Plain.decode_line (hr : r.Plain) (m : Box) (i : Nat) :
    httpdDecode ([';'].intercalate
      [urlencode (if r.disabled then ['#'] else []) ++ Nat.toDigits 10 i,
        urlencode (r.type.getD []), urlencode r.runas, urlencode (r.host.getD []),
        if r.type.getD [] ≠ "Dir".toList ∧ r.mac = [] then m.arp (urlencode (r.host.getD []))
          else urlencode r.mac,
        urlencode r.srcpath, "/Backup".toList, urlencode r.when, urlencode r.hour, "no".toList,
        urlencode r.nlogs]) = (r.entry m i).line := by
  have hvalue : ∀ {t : Text}, Value t → ∀ u, httpdDecode (urlencode t ++ u) = t ++ httpdDecode u :=
    fun ht u => httpdDecode_urlencode_append (isByte_of_shown ht.shown) u
  have hid : ∀ u, httpdDecode (urlencode (if r.disabled then ['#'] else []) ++ Nat.toDigits 10 i ++
      u) = (if r.disabled then ['#'] else []) ++ Nat.toDigits 10 i ++ httpdDecode u := by
    intro u
    have hbox : (if r.disabled then ['#'] else []).all isByte = true := by split <;> decide
    have hdigits : ∀ d : Char, d.isDigit = false → d ∉ Nat.toDigits 10 i := fun d hd hc =>
      absurd ((isDigit_of_mem_toDigits hc).symm.trans hd) (by decide)
    rw [List.append_assoc, httpdDecode_urlencode_append hbox,
      httpdDecode_append_of_not_mem (hdigits '+' rfl) (hdigits '%' rfl), List.append_assoc]
  have hmac : ∀ u, httpdDecode ((if r.type.getD [] ≠ "Dir".toList ∧ r.mac = [] then
      m.arp (urlencode (r.host.getD [])) else urlencode r.mac) ++ u) =
        (r.entry m i).mac ++ httpdDecode u := by
    intro u
    unfold Row.entry
    simp only
    split
    · exact httpdDecode_append_of_not_mem (fun hc => (macChar hc).2.2.2.2.2.1 rfl)
        (fun hc => (macChar hc).2.2.2.2.2.2 rfl) u
    · exact hvalue hr.mac_value.1 u
  have hdst := fun u => httpdDecode_append_of_not_mem (t := "/Backup".toList) (by decide)
    (by decide) u
  have hlog := fun u => httpdDecode_append_of_not_mem (t := "no".toList) (by decide) (by decide) u
  refine httpdDecode_intercalate (.cons hid (.cons (hvalue hr.type_value.1)
    (.cons (hvalue hr.runas_solid.value) (.cons (hvalue hr.host_value.1) (.cons hmac
      (.cons (hvalue hr.srcpath_value.1) (.cons hdst (.cons (hvalue hr.when_value.1)
        (.cons (hvalue hr.hour_value.1) (.cons hlog (.cons (hvalue hr.nlogs_solid.value)
          .nil)))))))))))

theorem saved_eq (r : Row) : r.saved m i =
    if [r.type.getD [], r.runas, r.srcpath, r.when, r.hour, r.nlogs].any (·.isEmpty) then none
    else if r.type.getD [] ≠ "Dir".toList ∧ r.host.getD [] = [] then none
    else some (squeezed (r.entry m i)) := rfl

/-- **The line of a row**: its entry, or nothing. -/
theorem Box.confLine_row (m : Box) (hr : r.Plain) {env : Env}
    (henv : ∀ b ∈ "log".toList :: rowNames, env (numbered b i) = rowValue (encoded r.shown) b) :
    m.confLine env i = (r.saved m i).toList.flatMap fun e => e.line ++ ['\n'] := by
  have hrow := rowValue_shown r
  simp only [List.forall_mem_cons, List.not_mem_nil, false_implies, implies_true,
    and_true] at hrow
  obtain ⟨hcmtd, htype, hrunas, hhost, hmac, hsrc, hwhen, hat, hlog, hnlogs⟩ := hrow
  have hvar : ∀ {b t : Text}, b ∈ "log".toList :: rowNames →
      rowValue (encoded r.shown) b = urlencode t → Value t → (∀ c ∈ t, isWild c = false) →
        m.echoVar env (numbered b i) = urlencode t := fun hb hrow ht hwild =>
    m.echoVar_urlencode ((henv _ hb).trans hrow) (isByte_of_shown ht.shown) hwild ht.option
  have hquoted : ∀ {b t : Text}, b ∈ "log".toList :: rowNames →
      rowValue (encoded r.shown) b = urlencode t → Value t →
        m.echoQuoted env (numbered b i) = urlencode t := by
    intro b t hb hrow ht
    rw [Box.echoQuoted, (henv b hb).trans hrow,
      m.echo_urlencode (isByte_of_shown ht.shown) ht.option]
  have hbox : Value (if r.disabled then ['#'] else []) ∧
      ∀ c ∈ (if r.disabled then ['#'] else []), isWild c = false := by
    split
    · exact ⟨⟨by decide, forall_of_all (by decide), by decide, by decide +kernel⟩,
        forall_of_all (by decide)⟩
    · exact ⟨value_nil, nofun⟩
  unfold Box.confLine
  simp only [hvar (by decide) hcmtd hbox.1 hbox.2,
    hvar (by decide) htype hr.type_value.1 hr.type_value.2.1,
    hvar (by decide) hrunas hr.runas_solid.value hr.runas_solid.wild,
    hvar (by decide) hhost hr.host_value.1 hr.host_value.2,
    hvar (by decide) hmac hr.mac_value.1 hr.mac_value.2,
    hvar (by decide) hsrc hr.srcpath_value.1 hr.srcpath_value.2,
    hquoted (by decide) hwhen hr.when_value.1, hquoted (by decide) hat hr.hour_value.1,
    hvar (by decide) hlog value_nil nofun,
    hvar (by decide) hnlogs hr.nlogs_solid.value hr.nlogs_solid.wild]
  -- the tests are those of the entry
  have hdigits : (Nat.toDigits 10 i).isEmpty = false :=
    List.isEmpty_eq_false_iff.mpr Nat.toDigits_ne_nil
  have hconst : "/Backup".toList.isEmpty = false ∧ "no".toList.isEmpty = false := by decide
  have hempty : urlencode [] = [] := rfl
  rw [saved_eq]
  simp only [hempty, if_true, List.any_cons, List.any_nil, hdigits, hconst.1, hconst.2,
    isEmpty_urlencode, Bool.false_or, Bool.or_false, urlencode_eq_nil_iff, ne_eq,
    hr.type_value.2.2.2]
  split
  · rfl
  · rename_i hfull
    split
    · rfl
    · have hnlogs : r.nlogs ≠ [] := by
        intro hnil
        rw [hnil] at hfull
        exact hfull (by simp)
      have hdecode := hr.decode_line m i
      simp only [ne_eq] at hdecode
      rw [hdecode, (hr.printed m i hnlogs).echo_line m, hr.squeeze_line]
      simp

end Entries

end AltF.Cgi.BackupPage
