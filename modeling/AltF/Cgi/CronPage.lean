/-
  Cgi/CronPage.lean --- cron.cgi and cron_proc.cgi: what becomes of a crontab whose page is
  opened and submitted as it is.

  The form has one field for the day of the month and the weekday, and none for the month.
  Commands are read without `-r`, cut at the mark of Alt-F, and sent as they are named.
-/
import AltF.Cgi.Forms
import AltF.Cron.Crontab

set_option autoImplicit false

namespace AltF.Cgi

open AltF.Shell AltF.SysFiles AltF.Cron

/-! ## The pages -/

/-- The shell of the cron pages, where no file has `:` in its name.  `echo` prints a newline
at most when an option is its only argument. -/
structure CronMachine extends PageMachine where
  times : ∀ {w : Text}, ':' ∈ w → glob w = [w]
  bare : ∀ {w : Text}, isEchoOption w = true → ∀ c ∈ echo [w], c = '\n'

/-- cron.cgi: the fields of a line of the crontab. -/
def CronMachine.cronRow (m : CronMachine) (b : Browser) (line : List Marked) :
    List (Text × Text) :=
  let e := entryOf (readFields 5 line)
  let disabled : Bool := e.minute.head? = some '#'
  let min := if disabled then e.minute.tail else e.minute
  let weekday := if e.day ≠ ['*'] then 'd' :: e.day else e.weekday
  let marked := hasMark (m.echo [e.rest])
  let cmd := if marked then commandSubst ((m.echo [e.rest]).takeWhile (· ≠ '#')) else e.rest
  let altf := if marked then "readonly".toList else []
  (if disabled && !marked then [("dis".toList, "on".toList)] else []) ++
    [("altf".toList, altf), ("weekday".toList, urlencode (b.value weekday)),
      ("hour".toList, urlencode (b.value (e.hour ++ ':' :: min))),
      ("cmd".toList, urlencode (b.value (httpdEncode cmd)))]

/-- A row for a new entry. -/
def newRow : List (Text × Text) := [("weekday".toList, []), ("hour".toList, []), ("cmd".toList, [])]

def CronMachine.cronRows (m : CronMachine) (b : Browser) (crontab : Text) :
    List (List (Text × Text)) :=
  (logicalLines [] crontab).map (m.cronRow b) ++ List.replicate 3 newRow

/-- cron.cgi: the form, as it is sent unchanged. -/
def CronMachine.cronForm (m : CronMachine) (b : Browser) (crontab : Text) : List (Text × Text) :=
  let rows := m.cronRows b crontab
  rowsPairs 1 rows ++
    [("cron_cnt".toList, Nat.toDigits 10 rows.length), ("submit".toList, "Submit".toList)]

/-- `seq 1 n` -/
def seq (n : Text) : List Nat :=
  if n.all Char.isDigit then List.range' 1 (Nat.ofDigitChars 10 n 0) else []

/-- cron_proc.cgi: the line that a row makes. -/
def CronMachine.cronLine (m : CronMachine) (env : Env) (i : Nat) : Text :=
  let when := commandSubst (httpdDecode (env (numbered "weekday".toList i)))
  let monthly : Bool := when.head? = some 'd'
  let mday := if monthly then when.tail else ['*']
  let weekday := if monthly then ['*'] else when
  let hourmin := commandSubst (httpdDecode (env (numbered "hour".toList i)))
  let colon := (m.echo (expand m.glob hourmin)).contains ':'
  let hour := hourmin.takeWhile (· ≠ ':')
  let min := hourmin.rtakeWhile (· ≠ ':')
  let hour := if colon then if hour = [] then ['*'] else hour else hourmin
  let min := if colon then if min = [] then ['0'] else min else ['0']
  let cmd := commandSubst (httpdDecode (env (numbered "cmd".toList i)))
  if weekday = [] ∨ hour = [] ∨ cmd = [] then []
  else
    let dis := if m.echoVar env (numbered "dis".toList i) ≠ [] then ['#'] else []
    let cmt := if m.echoVar env (numbered "altf".toList i) ≠ [] then "#!# Alt-F cron".toList else []
    m.echo [dis ++ min ++ ' ' :: hour ++ ' ' :: mday ++ " * ".toList ++ weekday ++ ' ' :: cmd ++
      ' ' :: cmt]

/-- cron_proc.cgi: the crontab it installs. -/
def CronMachine.cronProc (m : CronMachine) (env : Env) (body : Text) : Option Text :=
  (m.readForm env body).map fun env₁ => (seq (env₁ "cron_cnt".toList)).flatMap (m.cronLine env₁)

/-! ## Crontabs -/

/-- A crontab of valid entries. -/
structure Crontab (c : Crond) where
  lines : List Text
  /-- the last line ends with a newline -/
  ended : Bool
  newline : ∀ l ∈ lines, '\n' ∉ l
  valid : ∀ l ∈ lines, c.Valid (readEntry l)

def Crontab.text {c : Crond} (t : Crontab c) : Text :=
  let text := t.lines.flatMap (· ++ ['\n'])
  if t.ended then text else text.dropLast

def crontabEntries (t : Text) : List Entry := (t.splitOn '\n').map readEntry

/-- Every entry is there again after the page was submitted, with its command and its times. -/
def Crontab.Preserved {c : Crond} (t : Crontab c) (m : CronMachine) (b : Browser) (env : Env) :
    Prop :=
  ∃ installed, m.cronProc env (bodyText (m.cronForm b t.text)) = some installed ∧
    ∀ l ∈ t.lines, ∃ e ∈ crontabEntries installed, c.Valid e ∧
      e.command = (readEntry l).command ∧ ∀ w, c.fires e w = c.fires (readEntry l) w

/-- A variable that the page or the shell reads. -/
def isCronName (n : Text) : Bool :=
  n == "cron_cnt".toList || neededNames.contains n ||
    isNumbered n && ["dis".toList, "altf".toList, "weekday".toList, "hour".toList,
      "cmd".toList].contains (n.takeWhile (· ≠ '_'))

/-- A line whose text is not changed on its way. -/
structure PlainLine (l : Text) : Prop where
  back : '\\' ∉ l
  ascii : (beforeMark (readEntry l).rest).all isAscii = true
  hash : hasMark (readEntry l).rest = true → '#' ∉ beforeMark (readEntry l).rest
  name : isCronName (readEntry l).command = false

/-- Every line arrives, and is about one day field. -/
structure Crontab.Kept {c : Crond} (t : Crontab c) : Prop where
  ended : t.lines ≠ [] → t.ended = true
  plain : ∀ l ∈ t.lines, PlainLine l
  days : ∀ l ∈ t.lines, c.Redundant (readEntry l)

/-! ## What the page shows -/

/-- The field for the days. -/
def dayText (e : Entry) : Text := if e.day = ['*'] then e.weekday else 'd' :: e.day

/-- The fields of an entry that is enabled. -/
def entryRow (e : Entry) : List (Text × Text) :=
  [("altf".toList, if hasMark e.rest then "readonly".toList else []),
    ("weekday".toList, urlencode (dayText e)),
    ("hour".toList, urlencode (e.hour ++ ':' :: e.minute)),
    ("cmd".toList, urlencode (beforeMark e.rest))]

theorem fieldChar_cases {c : Char} (hc : isFieldChar c = true) :
    c.isAlphanum = true ∨ c ∈ "*,-/".toList := by
  rw [isFieldChar, Bool.or_eq_true] at hc
  exact hc.imp_right List.contains_iff_mem.mp

theorem isShown_of_isFieldChar {c : Char} (hc : isFieldChar c = true) : isShown c = true := by
  rcases fieldChar_cases hc with halnum | hmem
  · exact isShown_of_isAlphanum halnum
  · have hall : "*,-/".toList.all isShown = true := by decide +kernel
    exact List.all_eq_true.mp hall c hmem

section Entries

variable {c : Crond} {e : Entry}

theorem dayText_chars (he : c.Valid e) : (dayText e).all isFieldChar = true := by
  unfold dayText
  split
  · exact (c.chars he.weekday).2
  · rw [List.all_cons, (c.chars he.day).2]
    rfl

theorem dayText_shown (he : c.Valid e) : (dayText e).all isShown = true :=
  List.all_eq_true.mpr fun d hd =>
    isShown_of_isFieldChar (List.all_eq_true.mp (dayText_chars he) d hd)

theorem hourText_shown (he : c.Valid e) : (e.hour ++ ':' :: e.minute).all isShown = true := by
  have hshown : ∀ {f : Field} {t : Text}, c.valid f t = true → t.all isShown = true := by
    intro f t ht
    exact List.all_eq_true.mpr fun d hd =>
      isShown_of_isFieldChar (List.all_eq_true.mp (c.chars ht).2 d hd)
  rw [List.all_append, List.all_cons, hshown he.hour, hshown he.minute]
  rfl

end Entries

/-! ### Marks -/

theorem hasMark_of_newlines {t : Text} (ht : ∀ c ∈ t, c = '\n') : hasMark t = false := by
  fun_induction hasMark t with
  | case1 => rfl
  | case2 => exact absurd (ht '#' List.mem_cons_self) (by decide)
  | case3 c t hmark ih => exact ih fun d hd => ht d (List.mem_cons_of_mem c hd)

theorem hasMark_append_newline (t : Text) : hasMark (t ++ ['\n']) = hasMark t := by
  fun_induction hasMark t with
  | case1 => rfl
  | case2 t => rfl
  | case3 c t hmark ih =>
      rw [List.cons_append, hasMark, ih]
      -- a mark would be in the text without the newline
      intro u hc ht
      rcases t with - | ⟨d, - | ⟨d', v⟩⟩
      · cases ht
      · cases ht
      · simp only [List.cons_append, List.cons.injEq] at ht
        exact hmark v hc (by rw [ht.1, ht.2.1])

theorem hash_of_hasMark {t : Text} (ht : hasMark t = true) : '#' ∈ t := by
  fun_induction hasMark t with
  | case1 => cases ht
  | case2 t => exact List.mem_cons_self
  | case3 c t hmark ih => exact List.mem_cons_of_mem c (ih ht)

theorem hasMark_of_isEchoOption {t : Text} (ht : isEchoOption t = true) : hasMark t = false := by
  cases hmark : hasMark t with
  | false => rfl
  | true =>
      have hnot := isEchoOption_of_mem (hash_of_hasMark hmark) (by decide)
      exact absurd (hnot.symm.trans ht) Bool.false_ne_true

/-- What `grep` gets of a command. -/
theorem CronMachine.hasMark_echo (m : CronMachine) (t : Text) :
    hasMark (m.echo [t]) = hasMark t := by
  cases hoption : isEchoOption t with
  | true => rw [hasMark_of_newlines (m.bare hoption), hasMark_of_isEchoOption hoption]
  | false =>
      have hhead : ∀ w ∈ [t].head?, isEchoOption w = false := by
        intro w hw
        obtain rfl := Option.some.inj hw
        exact hoption
      rw [m.echoes.plain hhead, join_singleton, hasMark_append_newline]

theorem takeWhile_append_of_mem {t : Text} {d : Char} (hd : d ∈ t) (u : Text) :
    (t ++ u).takeWhile (· ≠ d) = t.takeWhile (· ≠ d) := by
  induction t with
  | nil => cases hd
  | cons c t ih =>
      by_cases hc : c = d
      · rw [List.cons_append, List.takeWhile_cons, List.takeWhile_cons, if_neg (by simp [hc]),
          if_neg (by simp [hc])]
      · rw [List.cons_append, List.takeWhile_cons, List.takeWhile_cons,
          ih ((List.mem_cons.mp hd).resolve_left (Ne.symm hc))]

/-! ### Rows -/

section Rows

variable {c : Crond} {l : Text}

theorem CronMachine.cronRow_plainLine (m : CronMachine) (b : Browser) (hl : PlainLine l)
    (he : c.Valid (readEntry l)) : m.cronRow b (plainLine l) = entryRow (readEntry l) := by
  have hread : entryOf (readFields 5 (plainLine l)) = readEntry l := by
    rw [readFields_plainLine, readEntry]
  have henabled : ¬ (readEntry l).minute.head? = some '#' := by
    intro hhead
    have hchars := List.all_eq_true.mp (c.chars he.minute).2
    exact absurd (hchars '#' (List.mem_of_mem_head? hhead)) (by decide)
  have hweekday : (if (readEntry l).day ≠ ['*'] then 'd' :: (readEntry l).day
      else (readEntry l).weekday) = dayText (readEntry l) := ite_not ..
  -- the command is cut at the mark
  have hcmd : (if hasMark (readEntry l).rest = true then
      commandSubst ((m.echo [(readEntry l).rest]).takeWhile (· ≠ '#')) else (readEntry l).rest) =
        beforeMark (readEntry l).rest := by
    split
    · rename_i hmark
      have hoption := isEchoOption_of_mem (hash_of_hasMark hmark) (by decide)
      have hhead : ∀ w ∈ [(readEntry l).rest].head?, isEchoOption w = false := by
        intro w hw
        obtain rfl := Option.some.inj hw
        exact hoption
      have hline : '\n' ∉ beforeMark (readEntry l).rest := fun hc =>
        absurd (List.all_eq_true.mp hl.ascii _ hc) (by decide)
      rw [m.echoes.plain hhead, join_singleton, takeWhile_append_of_mem (hash_of_hasMark hmark),
        takeWhile_of_hasMark hmark (hl.hash hmark), commandSubst_of_not_mem hline]
    · rename_i hmark
      exact (beforeMark_of_not_hasMark (Bool.eq_false_iff.mpr hmark)).symm
  unfold cronRow entryRow
  simp only [hread, m.hasMark_echo, hcmd, hweekday, henabled, decide_false, Bool.false_and,
    Bool.false_eq_true, if_false, List.nil_append, b.shows (dayText_shown he),
    b.shows (hourText_shown he), b.refs hl.ascii]

theorem cronName_cases {n : Text} (hn : isCronName n = true) : '_' ∈ n ∨ n ∈ neededNames := by
  rw [isCronName, Bool.or_eq_true, Bool.or_eq_true, Bool.and_eq_true] at hn
  rcases hn with (hcnt | hneeded) | hnumbered
  · rw [eq_of_beq hcnt]
    exact Or.inl (by decide)
  · exact Or.inr (List.contains_iff_mem.mp hneeded)
  · exact Or.inl (underscore_of_isNumbered hnumbered.1)

/-- The days are no name of a variable. -/
theorem dayText_ne {e : Entry} (he : c.Valid e) {n : Text} (hn : isCronName n = true) :
    dayText e ≠ n := by
  rintro rfl
  rcases cronName_cases hn with hmem | hneeded
  · exact absurd (List.all_eq_true.mp (dayText_chars he) _ hmem) (by decide)
  · have hhead : ∀ d ∈ (dayText e).head?, d ≠ 'I' ∧ d ≠ 'P' := by
      unfold dayText
      split
      · intro d hd
        have hmem := c.weekday_head he.weekday d hd
        constructor
        all_goals
          rintro rfl
          exact absurd hmem (by decide)
      · intro d hd
        obtain rfl := Option.some.inj hd
        decide
    rcases List.mem_cons.mp hneeded with heq | hneeded
    · rw [heq] at hhead
      exact absurd rfl (hhead 'I' rfl).1
    · rw [List.mem_singleton.mp hneeded] at hhead
      exact absurd rfl (hhead 'P' rfl).2

/-- No value names a variable that is read. -/
theorem entryRow_names (hl : PlainLine l) (he : c.Valid (readEntry l)) {n : Text}
    (hawk : isAwkName n = true) (hn : isCronName n = true) :
    n ∉ (entryRow (readEntry l)).map Prod.snd := by
  have hchars := List.all_eq_true.mp (all_isNameChar (isName_of_isAwkName hawk))
  intro hmem
  simp only [entryRow, List.map_cons, List.map_nil, List.mem_cons, List.not_mem_nil,
    or_false] at hmem
  rcases hmem with haltf | hday | hhour | hcmd
  · split at haltf
    · rw [haltf] at hn
      exact absurd hn (by decide)
    · rw [haltf] at hawk
      cases hawk
  · exact dayText_ne he hn (eq_of_urlencode_eq (isByte_of_shown (dayText_shown he)) hawk hday.symm)
  · have heq := eq_of_urlencode_eq (isByte_of_shown (hourText_shown he)) hawk hhour.symm
    have hcolon : ':' ∈ n := heq ▸ List.mem_append_right _ List.mem_cons_self
    exact absurd (hchars _ hcolon) (by decide)
  · have heq := eq_of_urlencode_eq (isByte_of_ascii hl.ascii) hawk hcmd.symm
    have hcommand : (readEntry l).command = n := by
      rw [Entry.command, heq, List.rdropWhile_eq_self_iff]
      intro hne hblank
      have hname := not_blank_of_isNameChar (hchars _ (List.getLast_mem hne))
      exact absurd (hname.symm.trans hblank) Bool.false_ne_true
    have hnot := hl.name
    rw [hcommand] at hnot
    exact absurd (hnot.symm.trans hn) Bool.false_ne_true

end Rows

/-! ## What arrives -/

/-- The fields that stand once in the form. -/
def cronOthers (n : Nat) : List (Text × Text) :=
  [("cron_cnt".toList, Nat.toDigits 10 n), ("submit".toList, "Submit".toList)]

theorem sentForm_cronOthers (n : Nat) : SentForm (cronOthers n) where
  keys := by
    intro x hx
    rcases List.mem_cons.mp hx with rfl | hx
    · show isAwkName "cron_cnt".toList = true
      decide
    · rw [List.mem_singleton.mp hx]
      decide
  values := by
    intro x hx
    rcases List.mem_cons.mp hx with rfl | hx
    · exact isEncoded_digits n
    · rw [List.mem_singleton.mp hx]
      decide
  distinct := by
    show ["cron_cnt".toList, "submit".toList].Nodup
    decide
  names := by
    intro x hx
    rcases List.mem_cons.mp hx with rfl | hx
    · show "cron_cnt".toList ∉ readArgsNames
      decide
    · rw [List.mem_singleton.mp hx]
      decide

/-- The digits are no name. -/
theorem cronOthers_names (k : Nat) {n : Text} (hawk : isAwkName n = true)
    (hn : isCronName n = true) : n ∉ (cronOthers k).map Prod.snd := by
  intro hmem
  rcases List.mem_cons.mp hmem with heq | hmem
  · exact toDigits_ne_name hawk k heq.symm
  · rw [List.mem_singleton.mp hmem] at hn
    exact absurd hn (by decide)

section Form

variable {c : Crond} {ls : List Text}

/-- The rows of the entries, and those for new ones. -/
def sentRows (ls : List Text) : List (List (Text × Text)) :=
  ls.map (fun l => entryRow (readEntry l)) ++ List.replicate 3 newRow

theorem mem_sentRows {r : List (Text × Text)} (hr : r ∈ sentRows ls) :
    r = newRow ∨ ∃ l ∈ ls, r = entryRow (readEntry l) := by
  rcases List.mem_append.mp hr with hr | hr
  · obtain ⟨l, hl, rfl⟩ := List.mem_map.mp hr
    exact Or.inr ⟨l, hl, rfl⟩
  · exact Or.inl (List.eq_of_mem_replicate hr)

theorem entryRow_encoded {l : Text} (hplain : PlainLine l) (he : c.Valid (readEntry l)) :
    ∀ v ∈ (entryRow (readEntry l)).map Prod.snd, v.all isEncodedChar = true := by
  intro v hv
  simp only [entryRow, List.map_cons, List.map_nil, List.mem_cons, List.not_mem_nil,
    or_false] at hv
  rcases hv with haltf | hday | hhour | hcmd
  · rw [haltf]
    split <;> decide
  · rw [hday]
    exact isEncoded_urlencode (isByte_of_shown (dayText_shown he))
  · rw [hhour]
    exact isEncoded_urlencode (isByte_of_shown (hourText_shown he))
  · rw [hcmd]
    exact isEncoded_urlencode (isByte_of_ascii hplain.ascii)

/-- The names of the fields, with or without the first. -/
def rowNames : List Text := ["altf".toList, "weekday".toList, "hour".toList, "cmd".toList]

theorem keys_entryRow (e : Entry) : (entryRow e).map Prod.fst = rowNames := rfl

theorem keys_newRow : newRow.map Prod.fst = rowNames.tail := rfl

theorem rowNames_plain : rowNames.Nodup ∧ ∀ b ∈ rowNames, isAwkName b = true ∧ '_' ∉ b := by
  decide

/-- What the fields of a row have. -/
theorem rowValue_entryRow (e : Entry) : rowValue (entryRow e) "dis".toList = [] ∧
    rowValue (entryRow e) "altf".toList = (if hasMark e.rest then "readonly".toList else []) ∧
    rowValue (entryRow e) "weekday".toList = urlencode (dayText e) ∧
    rowValue (entryRow e) "hour".toList = urlencode (e.hour ++ ':' :: e.minute) ∧
    rowValue (entryRow e) "cmd".toList = urlencode (beforeMark e.rest) := ⟨rfl, rfl, rfl, rfl, rfl⟩

theorem newRow_encoded : ∀ v ∈ newRow.map Prod.snd, v = [] := by decide

theorem rowFields_sentRows (hplain : ∀ l ∈ ls, PlainLine l)
    (hvalid : ∀ l ∈ ls, c.Valid (readEntry l)) : RowFields (sentRows ls) := by
  have hkeys : ∀ r ∈ sentRows ls, r.map Prod.fst = rowNames ∨ r.map Prod.fst = rowNames.tail := by
    intro r hr
    rcases mem_sentRows hr with rfl | ⟨l, hl, rfl⟩
    · exact Or.inr keys_newRow
    · exact Or.inl (keys_entryRow _)
  obtain ⟨hnodup, hnames⟩ := rowNames_plain
  constructor
  · intro r hr x hx
    have hmem : x.1 ∈ r.map Prod.fst := List.mem_map.mpr ⟨x, hx, rfl⟩
    rcases hkeys r hr with hrow | hrow
    · exact (hnames _ (hrow ▸ hmem)).1
    · exact (hnames _ (List.mem_of_mem_tail (hrow ▸ hmem))).1
  · intro r hr
    rcases hkeys r hr with hrow | hrow
    · rw [hrow]
      exact hnodup
    · rw [hrow]
      exact hnodup.tail
  · intro r hr x hx
    have hmem : x.2 ∈ r.map Prod.snd := List.mem_map.mpr ⟨x, hx, rfl⟩
    rcases mem_sentRows hr with rfl | ⟨l, hl, rfl⟩
    · rw [newRow_encoded _ hmem]
      rfl
    · exact entryRow_encoded (hplain l hl) (hvalid l hl) _ hmem

theorem sentRows_names (hplain : ∀ l ∈ ls, PlainLine l)
    (hvalid : ∀ l ∈ ls, c.Valid (readEntry l)) {n : Text} (hawk : isAwkName n = true)
    (hn : isCronName n = true) (k : Nat) :
    n ∉ (rowsPairs 1 (sentRows ls) ++ cronOthers k).map Prod.snd := by
  intro hmem
  rw [List.map_append, List.mem_append] at hmem
  rcases hmem with hmem | hmem
  · obtain ⟨r, hr, hv⟩ := value_rowsPairs hmem
    rcases mem_sentRows hr with rfl | ⟨l, hl, rfl⟩
    · have hall : ∀ v ∈ newRow.map Prod.snd, isAwkName v = false := by decide
      exact absurd ((hall n hv).symm.trans hawk) Bool.false_ne_true
    · exact entryRow_names (hplain l hl) (hvalid l hl) hawk hn hv
  · exact cronOthers_names k hawk hn hmem

end Form

/-! ## What is written -/

/-- The line for an entry. -/
def writtenLine (e : Entry) : Text :=
  e.minute ++ ' ' :: (e.hour ++ ' ' :: (e.day ++ ' ' :: ('*' :: ' ' ::
    ((Crond.oneDay e).weekday ++ ' ' :: (beforeMark e.rest ++ ' ' ::
      if hasMark e.rest then "#!# Alt-F cron".toList else [])))))

theorem seq_toDigits (n : Nat) : seq (Nat.toDigits 10 n) = List.range' 1 n := by
  have hdigits : (Nat.toDigits 10 n).all Char.isDigit = true :=
    List.all_eq_true.mpr fun d hd => isDigit_of_mem_toDigits hd
  rw [seq, if_pos hdigits, Nat.ofDigitChars_ten_toDigits]

/-- `echo "text"`, of a text with a blank. -/
theorem CronMachine.echo_text (m : CronMachine) {t : Text} {d : Char} (hd : d ∈ t)
    (hnot : "-neE".toList.contains d = false) : m.echo [t] = t ++ ['\n'] := by
  have hhead : ∀ w ∈ [t].head?, isEchoOption w = false := by
    intro w hw
    obtain rfl := Option.some.inj hw
    exact isEchoOption_of_mem hd hnot
  rw [m.echoes.plain hhead, join_singleton]

section Written

variable {c : Crond} {e : Entry}

theorem not_blank_of_fieldChars {t : Text} (ht : t.all isFieldChar = true) :
    ∀ d ∈ t, isBlank d = false := by
  intro d hd
  have hchar := List.all_eq_true.mp ht d hd
  rcases fieldChar_cases hchar with halnum | hmem
  · exact not_blank_of_isNameChar (by rw [isNameChar, halnum, Bool.true_or])
  · have hall : "*,-/".toList.any isBlank = false := by decide +kernel
    exact Bool.eq_false_iff.mpr (List.any_eq_false.mp hall d hmem)

/-- `echo $hourmin` prints the `:`. -/
theorem CronMachine.echo_hourmin (m : CronMachine) (he : c.Valid e) :
    (m.echo (expand m.glob (e.hour ++ ':' :: e.minute))).contains ':' = true := by
  have hcolon : ':' ∈ e.hour ++ ':' :: e.minute := List.mem_append_right _ List.mem_cons_self
  have hblank : ∀ d ∈ e.hour ++ ':' :: e.minute, isBlank d = false := by
    intro d hd
    rcases List.mem_append.mp hd with hd | hd
    · exact not_blank_of_fieldChars (c.chars he.hour).2 d hd
    · rcases List.mem_cons.mp hd with rfl | hd
      · rfl
      · exact not_blank_of_fieldChars (c.chars he.minute).2 d hd
  rw [expand, words_eq_singleton (List.ne_nil_of_mem hcolon) hblank, List.flatMap_singleton,
    m.times hcolon, m.echo_text hcolon (by decide)]
  exact List.contains_iff_mem.mpr (List.mem_append_left _ hcolon)

theorem takeWhile_hour (he : c.Valid e) :
    (e.hour ++ ':' :: e.minute).takeWhile (· ≠ ':') = e.hour := by
  have hall : ∀ d ∈ e.hour, decide (d ≠ ':') = true := by
    intro d hd
    refine decide_eq_true ?_
    rintro rfl
    exact absurd (List.all_eq_true.mp (c.chars he.hour).2 _ hd) (by decide)
  rw [List.takeWhile_append_of_pos hall, List.takeWhile_cons, if_neg (by decide), List.append_nil]

theorem rtakeWhile_minute (he : c.Valid e) :
    (e.hour ++ ':' :: e.minute).rtakeWhile (· ≠ ':') = e.minute := by
  have hall : ∀ d ∈ e.minute.reverse, decide (d ≠ ':') = true := by
    intro d hd
    refine decide_eq_true ?_
    rintro rfl
    exact absurd (List.all_eq_true.mp (c.chars he.minute).2 _ (List.mem_reverse.mp hd)) (by decide)
  rw [List.rtakeWhile, List.reverse_append, List.reverse_cons, List.append_assoc,
    List.takeWhile_append_of_pos hall, List.singleton_append, List.takeWhile_cons,
    if_neg (by decide), List.append_nil, List.reverse_reverse]

/-- The day field is taken apart again. -/
theorem dayText_head (he : c.Valid e) : (dayText e).head? = some 'd' ↔ e.day ≠ ['*'] := by
  unfold dayText
  split
  · rename_i hday
    constructor
    · intro hhead
      exact absurd (c.weekday_head he.weekday 'd' hhead) (by decide)
    · exact fun h => absurd hday h
  · rename_i hday
    exact ⟨fun _ => hday, fun _ => rfl⟩

theorem newline_notMem_of_shown {t : Text} (ht : t.all isShown = true) : '\n' ∉ t := fun hmem =>
  absurd (List.all_eq_true.mp ht _ hmem) (by decide)

theorem decoded_of_shown {t : Text} (ht : t.all isShown = true) :
    commandSubst (httpdDecode (urlencode t)) = t := by
  rw [httpdDecode_urlencode (isByte_of_shown ht),
    commandSubst_of_not_mem (newline_notMem_of_shown ht)]

theorem decoded_of_ascii {t : Text} (ht : t.all isAscii = true) :
    commandSubst (httpdDecode (urlencode t)) = t := by
  have hline : '\n' ∉ t := fun hmem => absurd (List.all_eq_true.mp ht _ hmem) (by decide)
  rw [httpdDecode_urlencode (isByte_of_ascii ht), commandSubst_of_not_mem hline]

theorem beforeMark_ne_nil (he : c.Valid e) : beforeMark e.rest ≠ [] := by
  intro hnil
  refine he.command ?_
  rw [Entry.command, hnil]
  rfl

/-- A row makes the line of its entry. -/
theorem CronMachine.cronLine_entry (m : CronMachine) (he : c.Valid e)
    (hascii : (beforeMark e.rest).all isAscii = true) {env : Env} {i : Nat}
    (hdis : env (numbered "dis".toList i) = [])
    (haltf : env (numbered "altf".toList i) =
      if hasMark e.rest then "readonly".toList else [])
    (hday : env (numbered "weekday".toList i) = urlencode (dayText e))
    (hhour : env (numbered "hour".toList i) = urlencode (e.hour ++ ':' :: e.minute))
    (hcmd : env (numbered "cmd".toList i) = urlencode (beforeMark e.rest)) :
    m.cronLine env i = writtenLine e ++ ['\n'] := by
  have hmday : (if (dayText e).head? = some 'd' then (dayText e).tail else ['*']) = e.day := by
    split
    · rename_i hhead
      rw [dayText, if_neg ((dayText_head he).mp hhead), List.tail_cons]
    · rename_i hhead
      rw [dayText_head he, not_not] at hhead
      exact hhead.symm
  have hweekday : (if (dayText e).head? = some 'd' then ['*'] else dayText e) =
      (Crond.oneDay e).weekday := by
    rw [Crond.oneDay]
    split
    · rename_i hhead
      exact (if_neg ((dayText_head he).mp hhead)).symm
    · rename_i hhead
      rw [dayText_head he, not_not] at hhead
      rw [dayText]
      simp only [if_pos hhead]
  have hcmt : (if m.echoVar env (numbered "altf".toList i) ≠ [] then "#!# Alt-F cron".toList
      else []) = if hasMark e.rest then "#!# Alt-F cron".toList else [] := by
    cases hmark : hasMark e.rest with
    | true =>
        rw [hmark, if_pos rfl] at haltf
        have hwild : "readonly".toList.any isWild = false := by decide +kernel
        have hplain : ∀ d ∈ "readonly".toList, isWild d = false := fun d hd =>
          Bool.eq_false_iff.mpr (List.any_eq_false.mp hwild d hd)
        rw [m.echoVar_encoded haltf (by decide) (by decide) (by decide) (Or.inl hplain),
          if_pos (by decide), if_pos rfl]
    | false =>
        rw [hmark, if_neg Bool.false_ne_true] at haltf
        rw [m.echoVar_nil haltf, if_neg (fun h => h rfl), if_neg Bool.false_ne_true]
  have hhourne := (c.chars he.hour).1
  have hminutene := (c.chars he.minute).1
  have hweekdayne : (Crond.oneDay e).weekday ≠ [] := (c.chars (c.valid_oneDay he).weekday).1
  have hcmdne := beforeMark_ne_nil he
  unfold cronLine
  simp only [hday, hhour, hcmd, decoded_of_shown (dayText_shown he),
    decoded_of_shown (hourText_shown he), decoded_of_ascii hascii, m.echo_hourmin he,
    takeWhile_hour he, rtakeWhile_minute he, decide_eq_true_eq, hmday, hweekday, hcmt, hhourne,
    hminutene, hweekdayne, hcmdne, m.echoVar_nil hdis, if_true, if_false, or_self, ne_eq,
    not_true_eq_false, List.nil_append]
  have hstar : " * ".toList = [' ', '*', ' '] := rfl
  have htext : e.minute ++ ' ' :: e.hour ++ ' ' :: e.day ++ " * ".toList ++
      (Crond.oneDay e).weekday ++ ' ' :: beforeMark e.rest ++
        ' ' :: (if hasMark e.rest then "#!# Alt-F cron".toList else []) = writtenLine e := by
    simp only [hstar, writtenLine, List.append_assoc, List.cons_append, List.nil_append]
  have hspace : ' ' ∈ writtenLine e := List.mem_append_right _ List.mem_cons_self
  rw [htext, m.echo_text hspace (by decide)]

/-- A row for a new entry makes none. -/
theorem CronMachine.cronLine_new (m : CronMachine) {env : Env} {i : Nat}
    (hday : env (numbered "weekday".toList i) = []) : m.cronLine env i = [] := by
  unfold cronLine
  simp only [hday]
  exact if_pos (Or.inl rfl)

/-- The five fields are read back. -/
theorem readEntry_writtenLine (he : c.Valid e) :
    readEntry (writtenLine e) = { Crond.oneDay e with
      rest := ((beforeMark e.rest ++ ' ' ::
        if hasMark e.rest then "#!# Alt-F cron".toList else []).dropWhile isBlank).rdropWhile
          isBlank } := by
  have hone := c.valid_oneDay he
  have hsolid : ∀ {f : Field} {t : Text}, c.valid f t = true → ∀ d ∈ t, isBlank d = false :=
    fun ht => not_blank_of_fieldChars (c.chars ht).2
  have hstar : ('*' :: ' ' :: ((Crond.oneDay e).weekday ++ ' ' :: (beforeMark e.rest ++ ' ' ::
      if hasMark e.rest then "#!# Alt-F cron".toList else []))) = ['*'] ++ ' ' ::
        ((Crond.oneDay e).weekday ++ ' ' :: (beforeMark e.rest ++ ' ' ::
          if hasMark e.rest then "#!# Alt-F cron".toList else [])) := rfl
  rw [readEntry, writtenLine, hstar,
    fieldsBy_word (c.chars he.minute).1 (hsolid he.minute) rfl,
    fieldsBy_word (c.chars he.hour).1 (hsolid he.hour) rfl,
    fieldsBy_word (c.chars he.day).1 (hsolid he.day) rfl,
    fieldsBy_word (c.chars (c.valid_star .month)).1 (hsolid (c.valid_star .month)) rfl,
    fieldsBy_word (c.chars hone.weekday).1 (hsolid hone.weekday) rfl, fieldsBy]
  rfl

theorem rdropWhile_append_blank (t : Text) :
    (t ++ [' ']).rdropWhile isBlank = t.rdropWhile isBlank :=
  List.rdropWhile_concat_pos _ _ _ rfl

/-- What is behind the fields begins and ends with a character that is no blank. -/
theorem rest_trimmed (l : Text) : ∃ t : Text,
    (readEntry l).rest = (t.dropWhile isBlank).rdropWhile isBlank := ⟨_, rfl⟩

theorem startsSolid_rest (l : Text) : StartsSolid (readEntry l).rest := by
  obtain ⟨t, ht⟩ := rest_trimmed l
  rw [ht]
  intro d hd
  have hprefix : (t.dropWhile isBlank).rdropWhile isBlank <+: t.dropWhile isBlank :=
    List.rdropWhile_prefix _ _
  obtain ⟨u, hu⟩ := hprefix
  have hhead : d ∈ (t.dropWhile isBlank).head? := by
    rw [← hu, List.head?_append]
    rw [Option.mem_def] at hd
    rw [hd]
    rfl
  cases hdrop : t.dropWhile isBlank with
  | nil =>
      rw [hdrop] at hhead
      cases hhead
  | cons x u =>
      rw [hdrop] at hhead
      obtain rfl := Option.some.inj hhead
      have hnot := List.head_dropWhile_not isBlank (l := t)
        (by rw [hdrop]; exact List.cons_ne_nil _ _)
      simpa only [hdrop, List.head_cons] using hnot

theorem beforeMark_prefix (t : Text) : beforeMark t <+: t := by
  fun_induction beforeMark t with
  | case1 => exact List.nil_prefix
  | case2 => exact List.nil_prefix
  | case3 c t hmark ih => exact (List.prefix_cons_inj c).mpr ih

/-- The command is the same, whether the mark is written again or not. -/
theorem command_writtenLine {l : Text} (hl : PlainLine l) (he : c.Valid (readEntry l)) :
    (readEntry (writtenLine (readEntry l))).command = (readEntry l).command := by
  have hne := beforeMark_ne_nil he
  have hdrop : ∀ u : Text, (beforeMark (readEntry l).rest ++ u).dropWhile isBlank =
      beforeMark (readEntry l).rest ++ u := by
    intro u
    refine dropWhile_of_startsSolid fun d hd => startsSolid_rest l d ?_
    obtain ⟨v, hv⟩ := beforeMark_prefix (readEntry l).rest
    rw [← hv]
    cases hcut : beforeMark (readEntry l).rest with
    | nil => exact absurd hcut hne
    | cons x t =>
        rw [hcut] at hd
        exact hd
  rw [readEntry_writtenLine he, Entry.command, Entry.command]
  simp only [hdrop]
  cases hmark : hasMark (readEntry l).rest with
  | true =>
      have hcomment : EndsSolid (' ' :: "#!# Alt-F cron".toList) := by
        intro d hd
        obtain rfl := Option.some.inj hd
        rfl
      have hend := EndsSolid.append (beforeMark (readEntry l).rest) hcomment
        (List.cons_ne_nil _ _)
      have hsame : (beforeMark (readEntry l).rest ++ ' ' :: "#!# Alt-F cron".toList).rdropWhile
          isBlank = beforeMark (readEntry l).rest ++ ' ' :: "#!# Alt-F cron".toList := by
        rw [List.rdropWhile_eq_self_iff]
        intro hne' hblank
        have hsolid := hend _ (List.getLast?_eq_some_getLast hne')
        exact absurd (hsolid.symm.trans hblank) Bool.false_ne_true
      have hhash : '#' ∉ beforeMark (readEntry l).rest ++ [' '] := by
        intro hmem
        rcases List.mem_append.mp hmem with hmem | hmem
        · exact hl.hash hmark hmem
        · exact absurd (List.mem_singleton.mp hmem) (by decide)
      have hcut := beforeMark_append hhash " Alt-F cron".toList
      rw [List.append_assoc] at hcut
      rw [if_pos rfl, hsame]
      exact (congrArg (List.rdropWhile isBlank) hcut).trans (rdropWhile_append_blank _)
  | false =>
      have hrest := beforeMark_of_not_hasMark hmark
      obtain ⟨t, ht⟩ := rest_trimmed l
      have hsame : ((readEntry l).rest).rdropWhile isBlank = (readEntry l).rest := by
        rw [ht, List.rdropWhile_idempotent]
      rw [if_neg Bool.false_ne_true, hrest, rdropWhile_append_blank, hsame, hrest, hsame]

end Written

/-! ## Pages submitted unchanged -/

section Unchanged

variable {c : Crond} {ls : List Text}

/-- The page of a crontab of plain lines, all of them terminated. -/
theorem CronMachine.cronForm_lines (m : CronMachine) (b : Browser)
    (hplain : ∀ l ∈ ls, PlainLine l) (hvalid : ∀ l ∈ ls, c.Valid (readEntry l))
    (hline : ∀ l ∈ ls, '\n' ∉ l) :
    m.cronForm b (ls.flatMap (· ++ ['\n'])) =
      rowsPairs 1 (sentRows ls) ++ cronOthers (ls.length + 3) := by
  have hrows : m.cronRows b (ls.flatMap (· ++ ['\n'])) = sentRows ls := by
    rw [cronRows, logicalLines_flatMap (fun l hl => (hplain l hl).back) hline, List.map_map]
    refine congrArg (· ++ _) (List.map_congr_left fun l hl => ?_)
    exact m.cronRow_plainLine b (hplain l hl) (hvalid l hl)
  have hlength : (sentRows ls).length = ls.length + 3 := by
    rw [sentRows, List.length_append, List.length_map, List.length_replicate]
  unfold cronForm
  simp only [hrows, hlength]
  rfl

/-- **What is installed**: a line for each entry. -/
theorem CronMachine.cronProc_lines (m : CronMachine) (b : Browser)
    (hplain : ∀ l ∈ ls, PlainLine l) (hvalid : ∀ l ∈ ls, c.Valid (readEntry l))
    (hline : ∀ l ∈ ls, '\n' ∉ l) {env : Env} (henv : ∀ n, isNumbered n = true → env n = []) :
    m.cronProc env (bodyText (m.cronForm b (ls.flatMap (· ++ ['\n'])))) =
      some ((ls.map fun l => writtenLine (readEntry l)).flatMap (· ++ ['\n'])) := by
  have hrows := rowFields_sentRows hplain hvalid
  have hothers : ∀ n ∈ (cronOthers (ls.length + 3)).map Prod.fst, isRowName n = false := by
    show ∀ n ∈ ["cron_cnt".toList, "submit".toList], isRowName n = false
    decide
  have hform := hrows.sentForm (sentForm_cronOthers (ls.length + 3)) hothers 1
  have hnames : ∀ n, isAwkName n = true → isCronName n = true →
      n ∉ (rowsPairs 1 (sentRows ls) ++ cronOthers (ls.length + 3)).map Prod.snd :=
    fun n hawk hn => sentRows_names hplain hvalid hawk hn _
  obtain ⟨env₁, hread, hset, hunset⟩ := m.readForm_sent hform
    (fun n hn => hnames n (by revert n; decide) (by revert n; decide)) env
  -- the variables of a row
  have hvalue : ∀ k r, (sentRows ls)[k]? = some r → ∀ t ∈ ["dis".toList, "altf".toList,
      "weekday".toList, "hour".toList, "cmd".toList], env₁ (numbered t (k + 1)) = rowValue r t := by
    intro k r hr t ht
    have hbase : ∀ t ∈ ["dis".toList, "altf".toList, "weekday".toList, "hour".toList,
        "cmd".toList], '_' ∉ t ∧ isAwkName t = true := by decide
    obtain ⟨hbar, hawk⟩ := hbase t ht
    rw [Nat.add_comm]
    refine value_of_row (fun p hp => List.mem_append_left _ hp) ?_ hset hunset hr ?_
      (henv _ (isNumbered_numbered hbar _))
    · intro n hn hnumbered
      rw [List.map_append, List.mem_append] at hn
      refine hn.resolve_right fun hmem => ?_
      exact absurd ((hothers n hmem).symm.trans hnumbered) Bool.false_ne_true
    · refine hnames _ (isAwkName_numbered hawk _) ?_
      rw [isCronName, isNumbered_numbered hbar, takeWhile_numbered hbar, Bool.true_and,
        List.contains_iff_mem.mpr ht, Bool.or_true]
  have hcount : env₁ "cron_cnt".toList = Nat.toDigits 10 (ls.length + 3) := by
    have hnot := hnames "cron_cnt".toList (by decide) (by decide)
    exact hset ("cron_cnt".toList, _) (List.mem_append_right _ List.mem_cons_self) hnot
  -- each row makes its line, and the new rows make none
  have hentries : (List.range' 1 ls.length).flatMap (m.cronLine env₁) =
      ls.flatMap fun l => writtenLine (readEntry l) ++ ['\n'] := by
    refine flatMap_range' 1 fun k l hl => ?_
    have hmem := List.mem_of_getElem? hl
    have hr : (sentRows ls)[k]? = some (entryRow (readEntry l)) := by
      rw [sentRows, List.getElem?_append_left, List.getElem?_map, hl]
      · rfl
      · rw [List.length_map]
        exact (List.getElem?_eq_some_iff.mp hl).1
    have hrow := hvalue k _ hr
    obtain ⟨hdis, haltf, hday, hhour, hcmd⟩ := rowValue_entryRow (readEntry l)
    rw [Nat.add_comm]
    refine m.cronLine_entry (hvalid l hmem) (hplain l hmem).ascii ?_ ?_ ?_ ?_ ?_
    · rw [hrow "dis".toList (by decide), hdis]
    · rw [hrow "altf".toList (by decide), haltf]
    · rw [hrow "weekday".toList (by decide), hday]
    · rw [hrow "hour".toList (by decide), hhour]
    · rw [hrow "cmd".toList (by decide), hcmd]
  have hnew : (List.range' (1 + ls.length) (List.replicate 3 ()).length).flatMap
      (m.cronLine env₁) = (List.replicate 3 ()).flatMap fun _ => [] := by
    refine flatMap_range' _ fun k x hx => ?_
    have hlt : k < 3 := (List.getElem?_eq_some_iff.mp hx).1
    have hr : (sentRows ls)[ls.length + k]? = some newRow := by
      rw [sentRows, List.getElem?_append_right (by rw [List.length_map]; omega),
        List.length_map, Nat.add_sub_cancel_left, List.getElem?_replicate, if_pos hlt]
    have hnumber : 1 + ls.length + k = ls.length + k + 1 := by omega
    rw [hnumber]
    refine m.cronLine_new ?_
    rw [hvalue _ _ hr "weekday".toList (by decide)]
    rfl
  have hrange : List.range' 1 (ls.length + 3) =
      List.range' 1 ls.length ++ List.range' (1 + ls.length) (List.replicate 3 ()).length := by
    rw [List.length_replicate, List.range'_append_1]
  rw [m.cronForm_lines b hplain hvalid hline, cronProc, hread, Option.map_some, hcount,
    seq_toDigits, hrange, List.flatMap_append, hentries, hnew, List.flatMap_map]
  simp

theorem newline_notMem_writtenLine {e : Entry} (he : c.Valid e)
    (hascii : (beforeMark e.rest).all isAscii = true) : '\n' ∉ writtenLine e := by
  have hfield : ∀ {f : Field} {t : Text}, c.valid f t = true → '\n' ∉ t := fun ht hmem =>
    absurd (List.all_eq_true.mp (c.chars ht).2 _ hmem) (by decide)
  have hcommand : '\n' ∉ beforeMark e.rest := fun hmem =>
    absurd (List.all_eq_true.mp hascii _ hmem) (by decide)
  have hcomment : '\n' ∉ (if hasMark e.rest then "#!# Alt-F cron".toList else []) := by
    split <;> decide
  simp only [writtenLine, List.mem_append, List.mem_cons, not_or]
  exact ⟨hfield he.minute, by decide, hfield he.hour, by decide, hfield he.day, by decide,
    by decide, by decide, hfield (c.valid_oneDay he).weekday, by decide, hcommand, by decide,
    hcomment⟩

theorem fires_writtenLine {e : Entry} (he : c.Valid e) (w : Moment) :
    c.fires (readEntry (writtenLine e)) w = c.fires (Crond.oneDay e) w := by
  rw [readEntry_writtenLine he]
  rfl

theorem valid_writtenLine {l : Text} (hl : PlainLine l) (he : c.Valid (readEntry l)) :
    c.Valid (readEntry (writtenLine (readEntry l))) := by
  have hcommand : (readEntry (writtenLine (readEntry l))).command ≠ [] := by
    rw [command_writtenLine hl he]
    exact he.command
  have hone := c.valid_oneDay he
  rw [readEntry_writtenLine he] at hcommand ⊢
  exact ⟨hone.minute, hone.hour, hone.day, hone.month, hone.weekday, hcommand⟩

/-- The entries that are installed are those of the lines. -/
theorem crontabEntries_written (hplain : ∀ l ∈ ls, PlainLine l)
    (hvalid : ∀ l ∈ ls, c.Valid (readEntry l)) :
    crontabEntries ((ls.map fun l => writtenLine (readEntry l)).flatMap (· ++ ['\n'])) =
      ls.map (fun l => readEntry (writtenLine (readEntry l))) ++ [readEntry []] := by
  have hline : ∀ w ∈ ls.map fun l => writtenLine (readEntry l), '\n' ∉ w := by
    intro w hw
    obtain ⟨l, hl, rfl⟩ := List.mem_map.mp hw
    exact newline_notMem_writtenLine (hvalid l hl) (hplain l hl).ascii
  rw [crontabEntries, splitOn_flatMap hline, List.map_append, List.map_map]
  rfl

theorem Crontab.text_of_ended {t : Crontab c} (ht : t.lines ≠ [] → t.ended = true) :
    t.text = t.lines.flatMap (· ++ ['\n']) := by
  unfold Crontab.text
  split
  · rfl
  · rename_i hended
    by_cases hlines : t.lines = []
    · rw [hlines]
      rfl
    · exact absurd (ht hlines) hended

/-- **Schedules that survive.**  A crontab of plain lines about one day field each has the same
commands at the same times after its page was submitted unchanged. -/
theorem Crontab.Kept.preserved {t : Crontab c} (ht : t.Kept) (m : CronMachine) (b : Browser)
    {env : Env} (henv : ∀ n, isNumbered n = true → env n = []) : t.Preserved m b env := by
  have hproc := m.cronProc_lines b ht.plain t.valid t.newline henv
  rw [← t.text_of_ended ht.ended] at hproc
  refine ⟨_, hproc, fun l hl => ?_⟩
  have hplain := ht.plain l hl
  have hvalid := t.valid l hl
  refine ⟨readEntry (writtenLine (readEntry l)), ?_, valid_writtenLine hplain hvalid,
    command_writtenLine hplain hvalid, fun w => ?_⟩
  · rw [crontabEntries_written ht.plain t.valid]
    exact List.mem_append_left _ (List.mem_map.mpr ⟨l, hl, rfl⟩)
  · rw [fires_writtenLine hvalid, (c.fires_oneDay_iff hvalid).mpr (ht.days l hl) w]

/-- An entry whose command no other entry has keeps its times only where its months and its
weekday make no difference. -/
theorem Crontab.redundant_of_preserved {t : Crontab c} (hended : t.lines ≠ [] → t.ended = true)
    (hplain : ∀ l ∈ t.lines, PlainLine l) {m : CronMachine} {b : Browser} {env : Env}
    (henv : ∀ n, isNumbered n = true → env n = []) (ht : t.Preserved m b env) {l : Text}
    (hl : l ∈ t.lines) (honly : ∀ l' ∈ t.lines,
      (readEntry l').command = (readEntry l).command → l' = l) : c.Redundant (readEntry l) := by
  obtain ⟨installed, hproc, hkept⟩ := ht
  rw [t.text_of_ended hended, m.cronProc_lines b hplain t.valid t.newline henv] at hproc
  obtain rfl := Option.some.inj hproc
  obtain ⟨e, he, hvalid, hcommand, hfires⟩ := hkept l hl
  rw [crontabEntries_written hplain t.valid, List.mem_append, List.mem_singleton] at he
  rcases he with he | rfl
  · obtain ⟨l', hl', rfl⟩ := List.mem_map.mp he
    have hsame := command_writtenLine (hplain l' hl') (t.valid l' hl')
    obtain rfl := honly l' hl' (hsame.symm.trans hcommand)
    refine (c.fires_oneDay_iff (t.valid l' hl')).mp fun w => ?_
    rw [← fires_writtenLine (t.valid l' hl'), hfires w]
  · exact absurd rfl hvalid.command

end Unchanged

/-! ## Once a year -/

/-- `echo` that prints nothing but a newline when it has options. -/
def optionEcho (ws : List Text) : Text :=
  if ws.head?.any isEchoOption then ['\n'] else join ws ++ ['\n']

theorem echoes_optionEcho : Echoes optionEcho where
  plain := by
    intro ws h
    have hnone : ¬ ws.head?.any isEchoOption = true := by
      rw [Option.any_eq_true]
      rintro ⟨w, hw, hoption⟩
      exact absurd ((h w hw).symm.trans hoption) Bool.false_ne_true
    rw [optionEcho, if_neg hnone]

theorem bare_optionEcho {w : Text} (hw : isEchoOption w = true) :
    ∀ c ∈ optionEcho [w], c = '\n' := by
  intro c hc
  rw [optionEcho, List.head?_cons, Option.any_some, if_pos hw] at hc
  exact List.mem_singleton.mp hc

theorem plainMachine_times {w : Text} (_ : ':' ∈ w) : plainMachine.glob w = [w] := rfl

/-- Pages where no pattern matches. -/
def plainCron : CronMachine where
  toMachine := plainMachine
  echo := optionEcho
  echoes := echoes_optionEcho
  files := plainPage.files
  times := plainMachine_times
  bare := bare_optionEcho

/-- The values of a field. -/
def fieldRange : Field → List Nat
  | .minute => List.range 60
  | .hour => List.range 24
  | .day => List.range' 1 31
  | .month => List.range' 1 12
  | .weekday => List.range 7

/-- A number of the field's range, or several with commas between them. -/
def isNumberList (f : Field) (t : Text) : Bool :=
  (t.head?.any Char.isDigit && t.all fun c => c.isDigit || c == ',') &&
    (t.splitOn ',').all fun n => (fieldRange f).any fun v => Nat.toDigits 10 v == n

theorem digit_mem {c : Char} (hc : c.isDigit = true) :
    "0123456789*smtwfSMTWF".toList.contains c = true := by
  have hge : 48 ≤ c.toNat := of_decide_eq_true ((Bool.and_eq_true _ _).mp hc).1
  have hle : c.toNat ≤ 57 := of_decide_eq_true ((Bool.and_eq_true _ _).mp hc).2
  have hall : ∀ n < 58, 48 ≤ n → "0123456789*smtwfSMTWF".toList.contains (Char.ofNat n) = true := by
    decide
  have hmem := hall c.toNat (by omega) hge
  rwa [Char.ofNat_toNat] at hmem

/-- A list names one of its numbers. -/
theorem named_of_isNumberList {f : Field} {t : Text} (ht : isNumberList f t = true) :
    ∃ v ∈ fieldRange f, (t.splitOn ',').contains (Nat.toDigits 10 v) = true := by
  rw [isNumberList, Bool.and_eq_true] at ht
  cases hsplit : t.splitOn ',' with
  | nil => exact absurd hsplit (List.splitOn_ne_nil ',' t)
  | cons n ns =>
      have hfirst := ht.2
      rw [hsplit, List.all_cons, Bool.and_eq_true, List.any_eq_true] at hfirst
      obtain ⟨v, hv, heq⟩ := hfirst.1
      refine ⟨v, hv, List.contains_iff_mem.mpr ?_⟩
      rw [eq_of_beq heq]
      exact List.mem_cons_self

/-- A crond that knows `*` and lists of numbers. -/
def listCrond : Crond where
  valid f t := t == ['*'] || isNumberList f t
  names _ t v := t == ['*'] || (t.splitOn ',').contains (Nat.toDigits 10 v)
  unrestricted t := t == ['*']
  valid_star := fun _ => rfl
  names_star := fun _ _ => rfl
  unrestricted_star := rfl
  chars := by
    intro f t ht
    rw [Bool.or_eq_true] at ht
    rcases ht with hstar | hlist
    · rw [eq_of_beq hstar]
      decide
    · rw [isNumberList, Bool.and_eq_true, Bool.and_eq_true] at hlist
      constructor
      · rintro rfl
        exact absurd hlist.1.1 (by decide)
      · refine List.all_eq_true.mpr fun d hd => ?_
        have hchar := List.all_eq_true.mp hlist.1.2 d hd
        rw [Bool.or_eq_true] at hchar
        rcases hchar with hdigit | hcomma
        · rw [isFieldChar, Char.isAlphanum, hdigit, Bool.or_true, Bool.true_or]
        · rw [eq_of_beq hcomma]
          decide
  weekday_head := by
    intro t ht d hd
    rw [Bool.or_eq_true] at ht
    rcases ht with hstar | hlist
    · rw [eq_of_beq hstar] at hd
      obtain rfl := Option.some.inj hd
      decide
    · rw [isNumberList, Bool.and_eq_true, Bool.and_eq_true] at hlist
      have hdigit := hlist.1.1
      rw [Option.mem_def.mp hd] at hdigit
      exact digit_mem hdigit
  minute_named := by
    intro t ht
    rw [Bool.or_eq_true] at ht
    rcases ht with hstar | hlist
    · exact ⟨0, by decide, by rw [hstar, Bool.true_or]⟩
    · obtain ⟨v, hv, hnamed⟩ := named_of_isNumberList hlist
      exact ⟨v, List.mem_range.mp hv, by rw [hnamed, Bool.or_true]⟩
  hour_named := by
    intro t ht
    rw [Bool.or_eq_true] at ht
    rcases ht with hstar | hlist
    · exact ⟨0, by decide, by rw [hstar, Bool.true_or]⟩
    · obtain ⟨v, hv, hnamed⟩ := named_of_isNumberList hlist
      exact ⟨v, List.mem_range.mp hv, by rw [hnamed, Bool.or_true]⟩

theorem happyNewYear_plain : PlainLine "0 0 1 1 * /bin/happy".toList :=
  ⟨by decide, by decide +kernel, by decide +kernel, by decide +kernel⟩

/-- A command for the first of January. -/
def happyNewYear : Crontab listCrond where
  lines := ["0 0 1 1 * /bin/happy".toList]
  ended := true
  newline := by decide
  valid := by
    intro l hl
    rw [List.mem_singleton.mp hl]
    exact ⟨by decide +kernel, by decide +kernel, by decide +kernel, by decide +kernel,
      by decide +kernel, by decide +kernel⟩

/-- The first of February. -/
def february : Moment := ⟨0, 0, 1, 2, 0, by decide, by decide, by decide, by decide, by decide⟩

/-- It is run on the first of every month from then on. -/
theorem new_year_every_month : ¬ happyNewYear.Preserved plainCron plainBrowser fun _ => [] := by
  rintro ⟨installed, hproc, hkept⟩
  have hplain : ∀ l ∈ happyNewYear.lines, PlainLine l := by
    intro l hl
    rw [List.mem_singleton.mp hl]
    exact happyNewYear_plain
  have hempty : ∀ n, isNumbered n = true → (fun _ => [] : Env) n = [] := fun _ _ => rfl
  have hlines := plainCron.cronProc_lines plainBrowser hplain happyNewYear.valid
    happyNewYear.newline hempty
  obtain rfl := Option.some.inj (hlines.symm.trans hproc)
  obtain ⟨e, he, hvalid, -, hfires⟩ := hkept _ List.mem_cons_self
  rw [crontabEntries_written hplain happyNewYear.valid] at he
  rcases List.mem_cons.mp he with rfl | he
  · exact absurd (hfires february) (by decide +kernel)
  · rw [List.mem_singleton.mp he] at hvalid
    exact absurd rfl hvalid.command

/-- The daily entry that Alt-F makes for a service. -/
def dailyCleanup : Crontab listCrond where
  lines := ["17 3 * * * /usr/sbin/cleanup #!# Alt-F cron".toList]
  ended := true
  newline := by decide
  valid := by
    intro l hl
    rw [List.mem_singleton.mp hl]
    exact ⟨by decide +kernel, by decide +kernel, by decide +kernel, by decide +kernel,
      by decide +kernel, by decide +kernel⟩

theorem dailyCleanup_kept : dailyCleanup.Kept where
  ended := fun _ => rfl
  plain := by
    intro l hl
    rw [List.mem_singleton.mp hl]
    exact ⟨by decide +kernel, by decide +kernel, by decide +kernel, by decide +kernel⟩
  days := by
    intro l hl
    rw [List.mem_singleton.mp hl]
    exact listCrond.redundant_of_star (by decide +kernel) (Or.inl (by decide +kernel))

theorem preserved_dailyCleanup : dailyCleanup.Preserved plainCron plainBrowser fun _ => [] :=
  dailyCleanup_kept.preserved plainCron plainBrowser fun _ _ => rfl

end AltF.Cgi
