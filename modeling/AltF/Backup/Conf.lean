/-
  Backup/Conf.lean --- backup.conf, with a line for each backup, and what S30backup makes of it.

  The fields are between semicolons.  A line that begins with `#` is a backup that is disabled, or
  the line with the names of the fields.
-/
import AltF.Shell.Reading

set_option autoImplicit false

namespace AltF.Backup

open AltF.Shell AltF.SysFiles

/-! ## Entries -/

structure Entry where
  /-- behind a `#` -/
  disabled : Bool
  id : Text
  type : Text
  runas : Text
  host : Text
  mac : Text
  srcpath : Text
  dstpath : Text
  when : Text
  /-- `at` -/
  hour : Text
  log : Text
  nlogs : Text
  deriving DecidableEq, Repr

namespace Entry

def fields (e : Entry) : List Text :=
  [(if e.disabled then ['#'] else []) ++ e.id, e.type, e.runas, e.host, e.mac, e.srcpath,
    e.dstpath, e.when, e.hour, e.log, e.nlogs]

def line (e : Entry) : Text := [';'].intercalate e.fields

/-- What `read` puts into the variables, without the `#` of a disabled backup. -/
def ofFields (fs : List Text) : Entry :=
  let id := fs.getD 0 []
  let disabled := id.head? == some '#'
  { disabled
    id := if disabled then id.tail else id
    type := fs.getD 1 []
    runas := fs.getD 2 []
    host := fs.getD 3 []
    mac := fs.getD 4 []
    srcpath := fs.getD 5 []
    dstpath := fs.getD 6 []
    when := fs.getD 7 []
    hour := fs.getD 8 []
    log := fs.getD 9 []
    nlogs := fs.getD 10 [] }

end Entry

/-- `read id type runas host mac srcpath dstpath when at log nlogs rest` -/
def readEntry (line : List Marked) : Entry := Entry.ofFields (readSemis 11 line)

/-- `isnumber` -/
def isNumber (t : Text) : Bool := !t.isEmpty && t.all fun c => c.isDigit || c == '.'

/-- What the page asks of a line. -/
def Entry.complete (e : Entry) : Bool :=
  isNumber e.id && isNumber e.nlogs &&
    [e.type, e.runas, e.srcpath, e.dstpath, e.when, e.hour, e.log, e.nlogs].all (!·.isEmpty)

/-- The entries of a file. -/
def confEntries (conf : Text) : List Entry :=
  ((logicalLines [] conf).map readEntry).filter Entry.complete

/-- S30backup, `istart`: the lines it adds to the crontab. -/
def istart (conf : Text) : List Text :=
  ((logicalLines [] conf).map readEntry).flatMap fun e =>
    if [e.id, e.type, e.runas, e.srcpath, e.dstpath, e.when, e.hour, e.log].any (·.isEmpty) then []
    else if e.disabled then []
    else
      let mday := if e.when.head? = some 'd' then e.when.tail else ['*']
      let when := if e.when.head? = some 'd' then ['*'] else e.when
      ["0 ".toList ++ e.hour ++ ' ' :: mday ++ " * ".toList ++ when ++ " /usr/bin/backup ".toList ++
        e.id]

/-! ## Lines that are read back -/

/-- Fields that a line can have. -/
structure Entry.Written (e : Entry) : Prop where
  fields : ∀ f ∈ e.fields, ∀ c ∈ f, c ≠ ';' ∧ c ≠ '\\' ∧ c ≠ '\n'
  id : e.id.head? ≠ some '#'

namespace Entry.Written

variable {e : Entry}

theorem ofFields_fields (he : e.Written) : Entry.ofFields (e.fields ++ [[]]) = e := by
  cases hdisabled : e.disabled with
  | true =>
      have hid : e.fields = ('#' :: e.id) :: e.fields.tail := by
        rw [Entry.fields, hdisabled]
        rfl
      rw [hid]
      cases e
      cases hdisabled
      rfl
  | false =>
      have hid : e.fields = e.id :: e.fields.tail := by
        rw [Entry.fields, hdisabled]
        rfl
      have hhead : (e.id.head? == some '#') = false := beq_eq_false_iff_ne.mpr he.id
      have hread : Entry.ofFields (e.id :: e.fields.tail ++ [[]]) =
          { e with disabled := e.id.head? == some '#'
                   id := if e.id.head? == some '#' then e.id.tail else e.id } := rfl
      rw [hid, hread, hhead, if_neg Bool.false_ne_true, ← hdisabled]

theorem readEntry_line (he : e.Written) : readEntry (plainLine e.line) = e := by
  have hsemi : ∀ f ∈ e.fields, ∀ c ∈ f, (c == ';') = false := fun f hf c hc =>
    beq_eq_false_iff_ne.mpr (he.fields f hf c hc).1
  have hcut : cutFields (· == ';') 11 e.line = e.fields ++ [[]] :=
    cutFields_intercalate (s := ';') rfl (List.cons_ne_nil _ _) hsemi
  rw [readEntry, readSemis_plainLine, hcut, he.ofFields_fields]

theorem line_chars (he : e.Written) : ∀ c ∈ e.line, c ≠ '\\' ∧ c ≠ '\n' := by
  intro c hc
  rcases mem_of_mem_intercalate hc with rfl | ⟨f, hf, hmem⟩
  · decide
  · exact (he.fields f hf c hmem).2

theorem back_notMem (he : e.Written) : '\\' ∉ e.line := fun h => (he.line_chars _ h).1 rfl

theorem newline_notMem (he : e.Written) : '\n' ∉ e.line := fun h => (he.line_chars _ h).2 rfl

end Entry.Written

/-! ## Files -/

/-- The types of a backup. -/
def typeNames : List Text :=
  ["Dir".toList, "NFS".toList, "CIFS".toList, "FTP".toList, "HTTP".toList, "rsync".toList]

/-- An entry that the pages and the script know. -/
structure Entry.Valid (e : Entry) : Prop extends Written e where
  complete : e.complete = true
  number : e.id.all Char.isDigit = true
  type : e.type ∈ typeNames

/-- The line with the names of the fields. -/
def header : Text := "#id;type;runas;host;mac;srcpath;dstpath;when;at;log;nrotate".toList

/-- A file of valid entries. -/
structure Conf where
  entries : List Entry
  /-- the names of the fields are its first line -/
  named : Bool
  /-- the last line ends with a newline -/
  ended : Bool
  valid : ∀ e ∈ entries, e.Valid

namespace Conf

def lines (named : Bool) (es : List Entry) : List Text :=
  (if named then [header] else []) ++ es.map Entry.line

def text (c : Conf) : Text :=
  let text := (lines c.named c.entries).flatMap (· ++ ['\n'])
  if c.ended then text else text.dropLast

end Conf

theorem header_plain : '\\' ∉ header ∧ '\n' ∉ header ∧
    (readEntry (plainLine header)).complete = false := by
  have hchars : header = _ := toList_literal rfl
  rw [hchars]
  decide +kernel

section Lines

variable {es : List Entry}

theorem lines_plain (named : Bool) (hes : ∀ e ∈ es, e.Written) :
    ∀ l ∈ Conf.lines named es, '\\' ∉ l ∧ '\n' ∉ l := by
  intro l hl
  rcases List.mem_append.mp hl with hl | hl
  · cases named with
    | false => cases hl
    | true =>
        rw [List.mem_singleton.mp hl]
        exact ⟨header_plain.1, header_plain.2.1⟩
  · obtain ⟨e, he, rfl⟩ := List.mem_map.mp hl
    exact ⟨(hes e he).back_notMem, (hes e he).newline_notMem⟩

/-- The entries of lines are read back, and the header is not one. -/
theorem entries_lines (named : Bool) (hes : ∀ e ∈ es, e.Written) :
    (((Conf.lines named es).map plainLine).map readEntry).filter Entry.complete =
      es.filter Entry.complete := by
  have hheader : (((if named then [header] else []).map plainLine).map readEntry).filter
      Entry.complete = [] := by
    cases named with
    | false => rfl
    | true =>
        rw [if_pos rfl, List.map_singleton, List.map_singleton,
          List.filter_cons_of_neg (by rw [header_plain.2.2]; exact Bool.false_ne_true),
          List.filter_nil]
  have hread : ((es.map Entry.line).map plainLine).map readEntry = es := by
    rw [List.map_map, List.map_map]
    exact (List.map_congr_left fun e he => (hes e he).readEntry_line).trans (List.map_id _)
  rw [Conf.lines, List.map_append, List.map_append, List.filter_append, hheader, hread,
    List.nil_append]

theorem confEntries_lines (named : Bool) (hes : ∀ e ∈ es, e.Written) :
    confEntries ((Conf.lines named es).flatMap (· ++ ['\n'])) = es.filter Entry.complete := by
  have hplain := lines_plain named hes
  rw [confEntries, logicalLines_flatMap (fun l hl => (hplain l hl).1) fun l hl => (hplain l hl).2,
    entries_lines named hes]

end Lines

theorem logicalLines_dropLast {ls : List Text} {l : Text} (hls : ∀ l ∈ ls, '\\' ∉ l ∧ '\n' ∉ l)
    (hl : '\\' ∉ l ∧ '\n' ∉ l) :
    logicalLines [] ((ls ++ [l]).flatMap (· ++ ['\n'])).dropLast = ls.map plainLine := by
  have hcut : ((ls ++ [l]).flatMap (· ++ ['\n'])).dropLast = ls.flatMap (· ++ ['\n']) ++ l := by
    rw [List.flatMap_append, List.flatMap_singleton, ← List.append_assoc, List.dropLast_concat]
  rw [hcut, logicalLines_flatMap_append (fun l hl => (hls l hl).1) fun l hl => (hls l hl).2,
    logicalLines_unterminated [] hl.1 hl.2, List.append_nil]

/-- **What is read of a file**: all entries, but a last one without a newline. -/
theorem Conf.confEntries_text (c : Conf) :
    confEntries c.text = if c.ended then c.entries else c.entries.dropLast := by
  have hcomplete : ∀ es ⊆ c.entries, es.filter Entry.complete = es := fun es hes =>
    List.filter_eq_self.mpr fun e he => (c.valid e (hes he)).complete
  rw [Conf.text]
  split
  · rw [confEntries_lines c.named fun e he => (c.valid e he).toWritten,
      hcomplete _ fun _ h => h]
  · rcases List.eq_nil_or_concat c.entries with hnil | ⟨es, e, hes⟩
    · rw [hnil]
      cases c.named with
      | false => rfl
      | true =>
          have hnone : ∀ l ∈ ([] : List Text), '\\' ∉ l ∧ '\n' ∉ l := nofun
          have hread := logicalLines_dropLast hnone ⟨header_plain.1, header_plain.2.1⟩
          have hlines : Conf.lines true [] = [] ++ [header] := rfl
          rw [hlines, confEntries, hread]
          rfl
    · rw [List.concat_eq_append] at hes
      have hwritten : ∀ e' ∈ es ++ [e], e'.Written := fun e' he' =>
        (c.valid e' (hes ▸ he')).toWritten
      have hlast := hwritten e (List.mem_append_right _ (List.mem_singleton_self e))
      have hfirst : ∀ e' ∈ es, e'.Written := fun e' he' => hwritten e' (List.mem_append_left _ he')
      have hlines : Conf.lines c.named (es ++ [e]) = Conf.lines c.named es ++ [e.line] := by
        rw [Conf.lines, Conf.lines, List.map_append, List.map_singleton, List.append_assoc]
      have hread := logicalLines_dropLast (lines_plain c.named hfirst)
        ⟨hlast.back_notMem, hlast.newline_notMem⟩
      rw [hes, hlines, confEntries, hread, entries_lines c.named hfirst, List.dropLast_concat]
      exact hcomplete es fun e' he' => hes ▸ List.mem_append_left _ he'

end AltF.Backup
