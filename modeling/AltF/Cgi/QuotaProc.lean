/-
  Cgi/QuotaProc.lean --- quota_proc.cgi: quotas are enabled on a filesystem by options that are
  appended to those of its mount, and disabled by removing these words from its line in fstab.

  The words go, and their commas are squeezed to one, which stays.
-/
import Mathlib.Data.List.Flatten
import AltF.Cgi.UploadEval
import AltF.Hotplug.Bookkeeping
import AltF.SysFiles.Patterns

set_option autoImplicit false

namespace AltF.Cgi.Quota

open AltF.Shell AltF.SysFiles AltF.Hotplug

/-! ## Options -/

def ext2_qmopts : Text := "usrquota,grpquota".toList

def ext34_qmopts : Text := "jqfmt=vfsv0,usrjquota=aquota.user,grpjquota=aquota.group".toList

/-- `$(echo $ext2_qmopts $ext34_qmopts | tr ',' ' ')` -/
def quotaWords : List Text :=
  words ((ext2_qmopts ++ ' ' :: ext34_qmopts).map fun c => if c = ',' then ' ' else c)

/-- `(usrquota|usrjquota|grpquota|grpjquota)` -/
def quota_mopts : List Text :=
  ["usrquota".toList, "usrjquota".toList, "grpquota".toList, "grpjquota".toList]

/-- `tr -s ,` -/
def squeezeCommas (behind : Bool) : Text → Text
  | [] => []
  | c :: t =>
      if c = ',' then
        if behind then squeezeCommas true t else ',' :: squeezeCommas true t
      else c :: squeezeCommas false t

/-- The shell of the page. -/
structure Box where
  glob : Text → List Text
  globs : Globs glob
  echo : List Text → Text
  echoes : Echoes echo

namespace Box

variable (m : Box)

/-- `echo $t` -/
def printed (t : Text) : Text := m.echo (expand m.glob t)

/-- `mqops=$(echo $mqops | sed 's/'$j'//')` -/
def removeWord (mqops j : Text) : Text := commandSubst (onLines (sedRemove j) (m.printed mqops))

/-- The loop over the words, and `mqops=$(echo $mqops | tr -s ,)`. -/
def stripped (mqops : Text) : Text :=
  commandSubst (squeezeCommas false (m.printed (quotaWords.foldl m.removeWord mqops)))

/-- `$mqops`, as the second argument of `remount`. -/
def argument (mqops : Text) : Text := (expand m.glob mqops).headD []

end Box

/-! ## Requests -/

/-- The filesystems with quotas. -/
inductive ExtType where
  | ext2
  | ext3
  | ext4
  deriving DecidableEq

namespace ExtType

def text : ExtType → Text
  | ext2 => "ext2".toList
  | ext3 => "ext3".toList
  | ext4 => "ext4".toList

def qmopts : ExtType → Text
  | ext2 => ext2_qmopts
  | ext3 => ext34_qmopts
  | ext4 => ext34_qmopts

end ExtType

/-- `print $4 ",..."`, by `$3`. -/
def withQuota (fs : List Text) : Text :=
  if fs.getD 2 [] = "ext2".toList then fs.getD 3 [] ++ ',' :: ext2_qmopts ++ ['\n']
  else if fs.getD 2 [] = "ext3".toList || fs.getD 2 [] = "ext4".toList then
    fs.getD 3 [] ++ ',' :: ext34_qmopts ++ ['\n']
  else []

section Requests

variable (m : Box) (d : Device)

/-- The lines with `$1 == "/dev/$part"`, by their fields. -/
def linesOf (ls : List Text) : List (List Text) :=
  (ls.map fields).filter fun fs => fs.head? == some d.path

/-- `grep -qE "^/dev/$fs.*$quota_mopts" /proc/mounts` -/
def isEnabled (mounts : List Text) : Bool :=
  mounts.any fun l => d.startsLine l &&
    quota_mopts.any fun q => decide (q <:+: l.drop d.path.length)

/-- `printf("%s\t%s\t%s\t%s\t%s\t%s", $1, $2, $3, "'$mopts'", $5, $6)` -/
def rebuiltLine (mopts : Text) (fs : List Text) : Text :=
  ['\t'].intercalate
    [fs.getD 0 [], fs.getD 1 [], fs.getD 2 [], mopts, fs.getD 4 [], fs.getD 5 []]

/-- `remount`, as far as it writes fstab. -/
def remount (mopts : Text) (fstab : TextFile) : TextFile :=
  (fstab.sedDelete d.startsLine).cat
    ⟨[], (linesOf d fstab.lines).flatMap (rebuiltLine mopts)⟩

/-- How hot.sh finds the filesystem when it mounts it again. -/
structure Found where
  lbl : Text
  fstype : Text
  named : IsField (mnt lbl)
  typed : IsField fstype

/-- hot.sh, for the options that `remount` leaves in misc.conf: the filesystem is unmounted,
and mounted with them. -/
def Found.hot (r : Found) (mopts : Text) (fstab : TextFile) : TextFile :=
  let unmounted := (Change.unmounted.edit d).onFile fstab
  ((Change.mounted r.lbl r.fstype (if mopts = [] then "defaults".toList else mopts)).edit d).onFile
    unmounted

/-- The request with the box checked. -/
def enable (r : Found) (mounts : List Text) (fstab : TextFile) : TextFile :=
  if isEnabled d mounts then fstab
  else
    let mqops := commandSubst ((linesOf d mounts).flatMap withQuota)
    let mopts := m.argument mqops
    r.hot d mopts (remount d mopts fstab)

/-- The request with the box not checked. -/
def disable (r : Found) (mounts : List Text) (fstab : TextFile) : TextFile :=
  if isEnabled d mounts then
    let mqops := commandSubst ((linesOf d fstab.lines).flatMap fun fs => fs.getD 3 [] ++ ['\n'])
    let mopts := m.argument (m.stripped mqops)
    r.hot d mopts (remount d mopts fstab)
  else fstab

end Requests

/-! ## Option lists -/

/-- A character of an option: none that the shell, awk or misc.conf take for another thing. -/
def isOptionChar (c : Char) : Bool :=
  solidChar c && !",\"'$\x60;&|<>()\x7b\x7d#~!".toList.contains c

def isQuotaOption (t : Text) : Bool :=
  decide ("quota".toList <:+: t) || decide ("jqfmt".toList <:+: t)

/-- The options of a mount, without quotas. -/
structure Options where
  items : List Text
  nonempty : items ≠ []
  plain : ∀ i ∈ items, i ≠ [] ∧ i.all isOptionChar = true
  free : ∀ i ∈ items, isQuotaOption i = false

/-- Items, each with a comma behind it. -/
def commas (items : List Text) : Text := items.flatMap (· ++ [','])

namespace Options

variable (o : Options)

def text : Text := [','].intercalate o.items

/-- The first line of the device in /proc/mounts. -/
def Mounted (d : Device) (e : ExtType) (mounts : List Text) : Prop :=
  ∃ front l behind, mounts = front ++ l :: behind ∧
    (∀ l' ∈ front, (fields l').head? ≠ some d.path) ∧ (fields l).head? = some d.path ∧
      (fields l).getD 2 [] = e.text ∧ (fields l).getD 3 [] = o.text

/-- Of the device there is one line, with a list of the same options, and the other lines are as
they were. -/
structure Undone (d : Device) (before after : TextFile) : Prop where
  others : after.lines.filter (fun l => !d.hasEntry l) =
    before.lines.filter (fun l => !d.hasEntry l)
  entry : ∃ l items, after.lines.filter d.hasEntry = [l] ∧
    (fields l).getD 3 [] = [','].intercalate items ∧ (∀ i ∈ items, i ≠ []) ∧
      ∀ i, i ∈ items ↔ i ∈ o.items

end Options

/-! ## The words -/

theorem commas_cons (i : Text) (items : List Text) :
    commas (i :: items) = (i ++ [',']) ++ commas items := rfl

theorem intercalate_commas {items : List Text} (h : items ≠ []) :
    [','].intercalate items ++ [','] = commas items := by
  induction items with
  | nil => exact absurd rfl h
  | cons i items ih =>
      cases items with
      | nil => simp [commas]
      | cons i' items =>
          rw [List.intercalate_cons_cons, List.append_assoc, List.append_assoc,
            ih (List.cons_ne_nil _ _), commas_cons i, List.append_assoc]

theorem isQuotaOption_mono {t u : Text} (ht : isQuotaOption t = true) (h : t <:+: u) :
    isQuotaOption u = true := by
  rw [isQuotaOption, Bool.or_eq_true, decide_eq_true_iff, decide_eq_true_iff] at ht ⊢
  exact ht.imp (·.trans h) (·.trans h)

/-- Up to its dot, if it has one, a word has no comma and the name of a quota option. -/
theorem quotaWords_front : ∀ j ∈ quotaWords, ',' ∉ j.takeWhile (· != '.') ∧
    isQuotaOption (j.takeWhile (· != '.')) = true := by
  have hall : quotaWords.all (fun j => !(j.takeWhile (· != '.')).contains ',' &&
      isQuotaOption (j.takeWhile (· != '.'))) = true := by
    decide +kernel
  intro j hj
  have hword := List.all_eq_true.mp hall j hj
  rw [Bool.and_eq_true, Bool.not_eq_true', List.contains_eq_mem, decide_eq_false_iff_not] at hword
  exact hword

/-- No word of the script matches in an option without quotas, or across a comma. -/
theorem sedRemove_commas {j : Text} (hj : j ∈ quotaWords) {items : List Text}
    (h : ∀ i ∈ items, isQuotaOption i = false) (t : Text) :
    sedRemove j (commas items ++ t) = commas items ++ sedRemove j t := by
  obtain ⟨hcomma, hquota⟩ := quotaWords_front j hj
  have hdot : '.' ∉ j.takeWhile (· != '.') := by
    intro hmem
    simpa using List.mem_takeWhile_imp hmem
  induction items with
  | nil => rfl
  | cons i items ih =>
      have hrest := ih fun i' hi' => h i' (List.mem_cons_of_mem i hi')
      have hnone : ∀ w, w <:+ i ++ [','] → w ≠ [] →
          dotPrefix j (w ++ (commas items ++ t)) = false := by
        intro w hw hne
        rw [← Bool.not_eq_true]
        intro hmatch
        obtain ⟨v, rfl, hv⟩ := (List.suffix_concat_iff.mp hw).resolve_left hne
        rw [← List.takeWhile_append_dropWhile (p := (· != '.')) (l := j)] at hmatch
        have hfront := prefix_of_dotPrefix hdot hmatch
        rw [List.append_assoc] at hfront
        have hinfix := (prefix_of_append_cons hcomma hfront).isInfix.trans hv.isInfix
        exact Bool.false_ne_true
          ((h i List.mem_cons_self).symm.trans (isQuotaOption_mono hquota hinfix))
      rw [commas_cons, List.append_assoc, sedRemove_append _ hnone, hrest,
        List.append_assoc (i ++ [','])]

/-- All that was appended goes, but for the commas. -/
theorem foldl_qmopts (e : ExtType) :
    (quotaWords.foldl (fun u j => sedRemove j u) e.qmopts).all (· == ',') = true := by
  cases e <;> decide +kernel

theorem squeezeCommas_item {i : Text} (hi : i ≠ []) (hcomma : ',' ∉ i) (b : Bool) (t : Text) :
    squeezeCommas b (i ++ t) = i ++ squeezeCommas false t := by
  induction i generalizing b with
  | nil => exact absurd rfl hi
  | cons c i ih =>
      rw [List.mem_cons, not_or] at hcomma
      rw [List.cons_append, squeezeCommas, if_neg (Ne.symm hcomma.1), List.cons_append]
      cases i with
      | nil => rfl
      | cons c' i => rw [ih (List.cons_ne_nil _ _) hcomma.2]

theorem squeezeCommas_commas {items : List Text} (h : ∀ i ∈ items, i ≠ [] ∧ ',' ∉ i) (b : Bool)
    (t : Text) : squeezeCommas b (commas items ++ t) =
      commas items ++ squeezeCommas (b || !items.isEmpty) t := by
  induction items generalizing b with
  | nil => rw [List.isEmpty_nil, Bool.not_true, Bool.or_false]; rfl
  | cons i items ih =>
      obtain ⟨hi, hcomma⟩ := h i List.mem_cons_self
      have hrest := ih (fun i' hi' => h i' (List.mem_cons_of_mem i hi')) true
      rw [Bool.true_or] at hrest
      rw [commas_cons, List.append_assoc, List.append_assoc, squeezeCommas_item hi hcomma,
        List.singleton_append, squeezeCommas, if_pos rfl, if_neg Bool.false_ne_true, hrest,
        List.isEmpty_cons, Bool.not_false, Bool.or_true]
      simp only [List.append_assoc, List.nil_append, List.cons_append]

theorem squeezeCommas_all {t : Text} (ht : t.all (· == ',') = true) (u : Text) :
    squeezeCommas true (t ++ u) = squeezeCommas true u := by
  induction t with
  | nil => rfl
  | cons c t ih =>
      rw [List.all_cons, Bool.and_eq_true, beq_iff_eq] at ht
      rw [List.cons_append, squeezeCommas, if_pos ht.1, if_pos rfl, ih ht.2]

/-! ## The shell -/

/-- A text that is one word, and no option. -/
structure Solid (t : Text) : Prop where
  chars : t.all solidChar = true
  comma : ',' ∈ t

namespace Solid

variable {t : Text}

theorem ne_nil (h : Solid t) : t ≠ [] := List.ne_nil_of_mem h.comma

theorem newline (h : Solid t) : '\n' ∉ t := fun hmem =>
  absurd (List.all_eq_true.mp h.chars _ hmem) (by decide)

theorem expand (h : Solid t) (m : Box) : expand m.glob t = [t] :=
  expand_of_solid m.globs h.ne_nil h.chars

theorem argument (h : Solid t) (m : Box) : m.argument t = t := by
  rw [Box.argument, h.expand m]
  rfl

theorem printed (h : Solid t) (m : Box) : m.printed t = t ++ ['\n'] := by
  have hoption : isEchoOption t = false := isEchoOption_of_mem h.comma (by decide)
  rw [Box.printed, h.expand m, m.echoes.plain fun w hw => by
    rwa [← Option.mem_some_iff.mp hw], join_singleton]

theorem removeWord (h : Solid t) (m : Box) (j : Text) : m.removeWord t j = sedRemove j t := by
  have hnewline : '\n' ∉ sedRemove j t := fun hmem =>
    h.newline ((sedRemove_sublist j t).mem hmem)
  rw [Box.removeWord, h.printed m, onLines_line rfl h.newline, commandSubst_append_newline,
    commandSubst_of_not_mem hnewline]

end Solid

theorem solid_commas {items : List Text} (hne : items ≠ [])
    (h : ∀ i ∈ items, i.all isOptionChar = true) {t : Text} (ht : t.all solidChar = true) :
    Solid (commas items ++ t) where
  chars := by
    rw [List.all_append, ht, Bool.and_true, List.all_eq_true]
    intro c hc
    obtain ⟨i, hi, hci⟩ := List.mem_flatMap.mp hc
    rcases List.mem_append.mp hci with hci | hci
    · have hchar := List.all_eq_true.mp (h i hi) c hci
      rw [isOptionChar, Bool.and_eq_true] at hchar
      exact hchar.1
    · rw [List.mem_singleton.mp hci]
      rfl
  comma := by
    obtain ⟨i, items, rfl⟩ := List.exists_cons_of_ne_nil hne
    rw [commas_cons]
    simp

namespace Options

variable (o : Options)

theorem comma_notMem {i : Text} (hi : i ∈ o.items) : ',' ∉ i := fun hmem =>
  absurd (List.all_eq_true.mp (o.plain i hi).2 _ hmem) (by decide)

theorem text_comma : o.text ++ [','] = commas o.items := intercalate_commas o.nonempty

/-- The loop removes from what was appended. -/
theorem foldl_removeWord (m : Box) {js : List Text} (hjs : ∀ j ∈ js, j ∈ quotaWords) {t : Text}
    (ht : t.all solidChar = true) : js.foldl m.removeWord (commas o.items ++ t) =
      commas o.items ++ js.foldl (fun u j => sedRemove j u) t := by
  induction js generalizing t with
  | nil => rfl
  | cons j js ih =>
      have hsolid := solid_commas o.nonempty (fun i hi => (o.plain i hi).2) ht
      have hless : (sedRemove j t).all solidChar = true := List.all_eq_true.mpr fun c hc =>
        List.all_eq_true.mp ht c ((sedRemove_sublist j t).mem hc)
      rw [List.foldl_cons, List.foldl_cons, hsolid.removeWord,
        sedRemove_commas (hjs j List.mem_cons_self) o.free,
        ih (fun j' hj' => hjs j' (List.mem_cons_of_mem j hj')) hless]

theorem text_qmopts (e : ExtType) : o.text ++ ',' :: e.qmopts = commas o.items ++ e.qmopts := by
  rw [← o.text_comma, List.append_assoc]
  rfl

theorem solid_items {t : Text} (ht : t.all solidChar = true) : Solid (commas o.items ++ t) :=
  solid_commas o.nonempty (fun i hi => (o.plain i hi).2) ht

theorem solid_append_nil : Solid (commas o.items) := by
  have h := o.solid_items (t := []) rfl
  rwa [List.append_nil] at h

theorem qmopts_chars (e : ExtType) : e.qmopts.all solidChar = true := by cases e <;> rfl

theorem solid_qmopts (e : ExtType) : Solid (o.text ++ ',' :: e.qmopts) := by
  rw [o.text_qmopts]
  exact o.solid_items (qmopts_chars e)

/-- **Removing the quotas** leaves the comma. -/
theorem stripped_qmopts (m : Box) (e : ExtType) :
    m.stripped (o.text ++ ',' :: e.qmopts) = commas o.items := by
  have hrest := foldl_qmopts e
  have hitems : ∀ i ∈ o.items, i ≠ [] ∧ ',' ∉ i := fun i hi =>
    ⟨(o.plain i hi).1, o.comma_notMem hi⟩
  have hempty : (false || !o.items.isEmpty) = true := by
    rw [Bool.false_or, Bool.not_eq_true', List.isEmpty_eq_false_iff]
    exact o.nonempty
  have hcommas : (quotaWords.foldl (fun u j => sedRemove j u) e.qmopts).all solidChar = true :=
    List.all_eq_true.mpr fun c hc => by
      rw [eq_of_beq (List.all_eq_true.mp hrest c hc)]
      rfl
  rw [Box.stripped, o.text_qmopts, o.foldl_removeWord m (fun j hj => hj) (qmopts_chars e),
    (o.solid_items hcommas).printed, List.append_assoc, squeezeCommas_commas hitems, hempty,
    squeezeCommas_all hrest]
  change commandSubst (commas o.items ++ ['\n']) = _
  rw [commandSubst_append_newline, commandSubst_of_not_mem o.solid_append_nil.newline]

end Options

/-! ## The file -/

section File

variable (d : Device)

/-- The lines that the pattern leaves. -/
def kept (ls : List Text) : List Text := ls.filter fun l => !d.startsLine l

/-- The beginning of the path is no entry. -/
theorem hasEntry_of_front {t y : Text} (ht : d.startsLine t = false)
    (hy : d.startsLine (t ++ y) = true) : d.hasEntry t = false := by
  rw [Device.startsLine, ← Bool.not_eq_true, List.isPrefixOf_iff_prefix] at ht
  rw [Device.startsLine, List.isPrefixOf_iff_prefix] at hy
  have hfront : t <+: d.path :=
    (List.prefix_or_prefix_of_prefix hy (List.prefix_append t y)).resolve_left ht
  have hchars : ∀ c ∈ t, isBlank c = false ∧ c ≠ '\\' := fun c hc =>
    d.path_chars c (hfront.subset hc)
  by_cases hnil : t = []
  · rw [hnil]
    rfl
  · have hword : fields t = [t] := words_eq_singleton hnil fun c hc => (hchars c hc).1
    have hdecode : decode t = t := decode_of_not_mem fun hmem => (hchars _ hmem).2 rfl
    rw [Device.hasEntry, hword, List.head?_cons, Option.map_some, hdecode, beq_eq_false_iff_ne]
    intro heq
    exact ht (Option.some.inj heq ▸ List.prefix_refl _)

/-- What `remount` appends begins with the path, if it is anything. -/
theorem startsLine_rebuilt {mopts : Text} {ls : List Text} (y : Text)
    (hne : (linesOf d ls).flatMap (rebuiltLine mopts) ≠ []) :
    d.startsLine ((linesOf d ls).flatMap (rebuiltLine mopts) ++ y) = true := by
  cases hlines : linesOf d ls with
  | nil =>
      rw [hlines] at hne
      exact absurd rfl hne
  | cons fs fss =>
      have hhead : fs.head? = some d.path := by
        have hmem : fs ∈ linesOf d ls := hlines ▸ List.mem_cons_self
        exact eq_of_beq (List.mem_filter.mp hmem).2
      obtain ⟨rest, rfl⟩ : ∃ rest, fs = d.path :: rest := by
        cases fs with
        | nil => cases hhead
        | cons f rest => exact ⟨rest, by rw [Option.some.inj hhead]⟩
      rw [Device.startsLine, List.isPrefixOf_iff_prefix, List.flatMap_cons, rebuiltLine,
        List.append_assoc]
      exact ⟨_, by rw [List.intercalate_cons_cons, List.append_assoc, List.append_assoc]; rfl⟩

/-- The line that hot.sh adds. -/
def Found.line (r : Found) (mopts : Text) : Text :=
  (⟨d.path, mnt r.lbl, r.fstype, if mopts = [] then "defaults".toList else mopts⟩ :
    FstabLine).text

theorem startsLine_line (r : Found) (mopts : Text) : d.startsLine (r.line d mopts) = true := by
  rw [Found.line, d.startsLine_text]

theorem sedDelete_twice (p : Text → Bool) (f : TextFile) :
    (f.sedDelete p).sedDelete p = f.sedDelete p := by
  obtain ⟨full, rest⟩ := f
  cases hrest : p rest with
  | true => simp [TextFile.sedDelete, hrest]
  | false => simp [TextFile.sedDelete, hrest]

theorem hot_eq (r : Found) (mopts : Text) (f : TextFile) : r.hot d mopts f =
    ⟨(f.sedDelete d.startsLine).full ++
      [(f.sedDelete d.startsLine).rest ++ r.line d mopts], []⟩ := by
  have hunmounted : (Change.unmounted.edit d).onFile f = f.sedDelete d.startsLine :=
    Edit.onFile_deletion rfl f
  rw [Found.hot, hunmounted, Edit.onFile]
  change (((f.sedDelete d.startsLine).sedDelete d.startsLine).cat ⟨[r.line d mopts], []⟩) = _
  rw [sedDelete_twice]
  rfl

/-- What is in front of the new line, on its line. -/
def runsIn (rest rebuilt : Text) : Text :=
  if d.startsLine (rest ++ rebuilt) then [] else rest ++ rebuilt

/-- **A request** deletes, and adds one line, which runs into a last line without newline. -/
theorem hot_remount (r : Found) (mopts mopts' : Text) (f : TextFile) :
    r.hot d mopts' (remount d mopts f) =
      ⟨(f.sedDelete d.startsLine).full ++ [runsIn d (f.sedDelete d.startsLine).rest
        ((linesOf d f.lines).flatMap (rebuiltLine mopts)) ++ r.line d mopts'], []⟩ := by
  have hfull : ((remount d mopts f).sedDelete d.startsLine).full =
      (f.sedDelete d.startsLine).full := by
    simp [remount, TextFile.sedDelete, TextFile.cat]
  rw [hot_eq, hfull]
  rfl

theorem kept_lines (f : TextFile) : kept d f.lines = (f.sedDelete d.startsLine).lines :=
  (TextFile.lines_sedDelete f).symm

theorem hot_remount_ended {r : Found} {mopts mopts' : Text} {f : TextFile}
    (hf : (f.sedDelete d.startsLine).rest = []) :
    (r.hot d mopts' (remount d mopts f)).lines = kept d f.lines ++ [r.line d mopts'] := by
  have hfront : runsIn d [] ((linesOf d f.lines).flatMap (rebuiltLine mopts)) = [] := by
    rw [runsIn, List.nil_append]
    by_cases hne : (linesOf d f.lines).flatMap (rebuiltLine mopts) = []
    · rw [hne]
      exact ite_self _
    · have hstarts := startsLine_rebuilt d [] hne
      rw [List.append_nil] at hstarts
      rw [if_pos hstarts]
  have hlines : (f.sedDelete d.startsLine).lines = (f.sedDelete d.startsLine).full := if_pos hf
  rw [hot_remount, hf, hfront, kept_lines, hlines]
  rfl

/-- **A last line without newline** is lost. -/
theorem kept_hot_remount {r : Found} {mopts mopts' : Text} {f : TextFile}
    (hf : (f.sedDelete d.startsLine).rest ≠ []) :
    kept d (r.hot d mopts' (remount d mopts f)).lines ≠
      (kept d f.lines).filter fun l => !d.hasEntry l := by
  obtain ⟨full, rest, hdeleted⟩ : ∃ full rest, f.sedDelete d.startsLine = ⟨full, rest⟩ :=
    ⟨_, _, rfl⟩
  rw [hdeleted] at hf
  have hrest : d.startsLine rest = false := by
    have hfile : (if d.startsLine f.rest then [] else f.rest) = rest :=
      congrArg TextFile.rest hdeleted
    split at hfile
    · exact absurd hfile.symm hf
    · rw [← hfile]
      exact Bool.eq_false_iff.mpr ‹_›
  have hfull : kept d full = full := by
    have hfile : f.full.filter (fun l => !d.startsLine l) = full :=
      congrArg TextFile.full hdeleted
    rw [← hfile]
    exact List.filter_eq_self.mpr fun l hl => (List.mem_filter.mp hl).2
  have hkept : kept d f.lines = full ++ [rest] := by
    rw [kept_lines, hdeleted]
    exact if_neg hf
  obtain ⟨u, hu⟩ : ∃ u, u = runsIn d rest ((linesOf d f.lines).flatMap (rebuiltLine mopts)) :=
    ⟨_, rfl⟩
  have hlines : (r.hot d mopts' (remount d mopts f)).lines = full ++ [u ++ r.line d mopts'] := by
    rw [hot_remount, hdeleted, hu]
    rfl
  rw [hkept, hlines, kept, List.filter_append]
  change kept d full ++ _ ≠ _
  rw [hfull]
  intro heq
  cases hstarts : d.startsLine (u ++ r.line d mopts') with
  | true =>
      -- the last line is the beginning of the path: it is gone
      have hentry : d.hasEntry rest = false := by
        rw [runsIn] at hu
        split at hu
        · exact hasEntry_of_front d hrest ‹_›
        · rw [hu, List.append_assoc] at hstarts
          exact hasEntry_of_front d hrest hstarts
      rw [List.filter_cons_of_neg (by rw [hstarts]; exact Bool.false_ne_true), List.filter_nil,
        List.append_nil, List.filter_append, List.filter_cons_of_pos (by rw [hentry]; rfl),
        List.filter_nil] at heq
      have hsame : full.filter (fun l => !d.hasEntry l) = full := by
        rw [List.filter_eq_self]
        intro l hl
        rw [heq] at hl
        rcases List.mem_append.mp hl with hl | hl
        · exact (List.mem_filter.mp hl).2
        · rw [List.mem_singleton.mp hl, hentry]
          rfl
      rw [hsame] at heq
      exact List.cons_ne_nil _ _ (List.append_right_eq_self.mp heq.symm)
  | false =>
      -- the last line is longer
      have hlonger : u = rest ++ (linesOf d f.lines).flatMap (rebuiltLine mopts) := by
        rw [runsIn] at hu
        split at hu
        · rw [hu, List.nil_append, startsLine_line] at hstarts
          cases hstarts
        · exact hu
      rw [List.filter_cons_of_pos (by rw [hstarts]; rfl), List.filter_nil] at heq
      have hless : ((full ++ [rest]).filter fun l => !d.hasEntry l).flatten.Sublist
          (full ++ [rest]).flatten := List.filter_sublist.flatten
      rw [← heq] at hless
      have hlength := hless.length_le
      have hne : 0 < (r.line d mopts').length := List.length_pos_iff.mpr fun hnil => by
        have h := startsLine_line d r mopts'
        rw [hnil] at h
        cases h
      rw [List.flatten_append, List.flatten_append, hlonger] at hlength
      simp only [List.flatten_cons, List.flatten_nil, List.length_append, List.length_nil]
        at hlength
      omega

end File

/-! ## Disabling undoes nothing -/

section Requests

variable (m : Box) (d : Device) (o : Options)

theorem isField_of_solid {t : Text} (ht : Solid t) : IsField t :=
  ⟨ht.ne_nil, fun c hc => ((solidChar_iff c).mp (List.all_eq_true.mp ht.chars c hc)).1⟩

theorem fields_line (r : Found) {mopts : Text} (hmopts : Solid mopts) :
    fields (r.line d mopts) = [d.path, mnt r.lbl, r.fstype, mopts, ['0'], ['0']] := by
  have hpath : IsField d.path := ⟨d.path_ne_nil, fun c hc => (d.path_chars c hc).1⟩
  rw [Found.line, if_neg hmopts.ne_nil,
    FstabLine.fields_of_isField hpath r.named r.typed (isField_of_solid hmopts)]

/-- The options with quotas, for `remount`. -/
theorem argument_mounted {e : ExtType} {mounts : List Text} (h : o.Mounted d e mounts) :
    m.argument (commandSubst ((linesOf d mounts).flatMap withQuota)) =
      o.text ++ ',' :: e.qmopts := by
  obtain ⟨front, l, behind, rfl, hfront, hhead, htype, hopts⟩ := h
  have hlines : linesOf d (front ++ l :: behind) = fields l :: linesOf d behind := by
    have hnone : linesOf d front = [] := by
      refine List.filter_eq_nil_iff.mpr fun fs hfs => ?_
      obtain ⟨l', hl', rfl⟩ := List.mem_map.mp hfs
      exact fun heq => hfront l' hl' (eq_of_beq heq)
    rw [linesOf, List.map_append, List.filter_append, List.map_cons,
      List.filter_cons_of_pos (by rw [hhead]; exact beq_self_eq_true _)]
    change linesOf d front ++ _ = _
    rw [hnone]
    rfl
  have hquota : withQuota (fields l) = o.text ++ ',' :: e.qmopts ++ ['\n'] := by
    rw [withQuota, htype, hopts]
    cases e <;> rfl
  rw [Box.argument, expand, words_commandSubst, ← expand, hlines, List.flatMap_cons, hquota,
    List.append_assoc, List.singleton_append, expand_append_cons _ _ _ rfl,
    (o.solid_qmopts e).expand m]
  rfl

theorem linesOf_line {r : Found} {mopts : Text} (hmopts : Solid mopts) {ls : List Text}
    (hls : ls.filter d.hasEntry = []) :
    linesOf d (ls ++ [r.line d mopts]) =
      [[d.path, mnt r.lbl, r.fstype, mopts, ['0'], ['0']]] := by
  have hnone : linesOf d ls = [] := by
    refine List.filter_eq_nil_iff.mpr fun fs hfs => ?_
    obtain ⟨l, hl, rfl⟩ := List.mem_map.mp hfs
    exact fun heq => List.filter_eq_nil_iff.mp hls l hl (d.hasEntry_of_head? (eq_of_beq heq))
  rw [linesOf, List.map_append, List.filter_append]
  change linesOf d ls ++ [fields (r.line d mopts)].filter _ = _
  rw [hnone, fields_line d r hmopts]
  simp

/-- A list with a comma behind each item is no list of whole items. -/
theorem intercalate_ne_commas {items : List Text} (hitems : ∀ i ∈ items, i ≠ [] ∧ ',' ∉ i) :
    [','].intercalate items ≠ commas o.items := by
  intro heq
  rcases List.eq_nil_or_concat' items with rfl | ⟨front, i, rfl⟩
  · exact o.solid_append_nil.ne_nil heq.symm
  · obtain ⟨hi, hcomma⟩ := hitems i (List.mem_append_right _ (List.mem_singleton_self i))
    have htwo : [','].intercalate (front ++ [i]) ++ [','] = commas (front ++ [i]) :=
      intercalate_commas (by simp)
    have hlast : commas (front ++ [i]) = (commas front ++ i) ++ [','] := by
      rw [commas, List.flatMap_append, List.flatMap_singleton, List.append_assoc]
      rfl
    rw [heq, hlast, ← o.text_comma] at htwo
    have hend := congrArg List.getLast? (List.append_cancel_right htwo)
    rw [List.getLast?_concat, List.getLast?_append_of_ne_nil _ hi] at hend
    exact hcomma (List.mem_of_getLast? hend.symm)

/-- What the second request leaves, behind lines that the first has ended. -/
theorem enable_eq {e : ExtType} {mounts : List Text} (hmounted : o.Mounted d e mounts)
    (hoff : isEnabled d mounts = false) (r : Found) (fstab : TextFile) :
    enable m d r mounts fstab = r.hot d (o.text ++ ',' :: e.qmopts)
      (remount d (o.text ++ ',' :: e.qmopts) fstab) := by
  rw [← argument_mounted m d o hmounted, enable, hoff, if_neg Bool.false_ne_true]

theorem disable_eq {mounts : List Text} (hon : isEnabled d mounts = true) (r : Found)
    (fstab : TextFile) : ∃ mopts, disable m d r mounts fstab =
      r.hot d mopts (remount d mopts fstab) ∧ mopts = m.argument (m.stripped (commandSubst
        ((linesOf d fstab.lines).flatMap fun fs => fs.getD 3 [] ++ ['\n']))) := by
  rw [disable, if_pos hon]
  exact ⟨_, rfl, rfl⟩

theorem hasEntry_line (r : Found) (mopts : Text) : d.hasEntry (r.line d mopts) = true := by
  have hpath : IsField d.path := ⟨d.path_ne_nil, fun c hc => (d.path_chars c hc).1⟩
  refine d.hasEntry_of_head? ?_
  rw [Found.line, FstabLine.fields_text, hpath.words]
  rfl

/-- Where the options are back behind a request on lines that all end with a newline, its line has
them, and the others were there before. -/
theorem line_of_undone {r : Found} {mopts : Text} {before f : TextFile} (hf : f.rest = [])
    (h : o.Undone d before (r.hot d mopts (remount d mopts f))) :
    kept d f.lines = (kept d before.lines).filter (fun l => !d.hasEntry l) ∧
      (kept d f.lines).filter d.hasEntry = [] ∧
        ∃ items, (fields (r.line d mopts)).getD 3 [] = [','].intercalate items ∧
          (∀ i ∈ items, i ≠ []) ∧ ∀ i, i ∈ items ↔ i ∈ o.items := by
  obtain ⟨hothers, l, items, hentry, hlist⟩ := h
  have hrest : (f.sedDelete d.startsLine).rest = [] := by
    simp [TextFile.sedDelete, hf]
  have hline := hasEntry_line d r mopts
  rw [hot_remount_ended d hrest, List.filter_append, List.filter_cons_of_pos hline,
    List.filter_nil] at hentry
  obtain ⟨hnone, hl⟩ : (kept d f.lines).filter d.hasEntry = [] ∧ [r.line d mopts] = [l] :=
    List.append_eq_singleton_iff.mp hentry |>.resolve_right fun h => List.cons_ne_nil _ _ h.2
  obtain rfl := (List.cons.inj hl).1
  refine ⟨?_, hnone, items, hlist⟩
  rw [hot_remount_ended d hrest, List.filter_append,
    List.filter_cons_of_neg (by rw [hline]; exact Bool.false_ne_true), List.filter_nil,
    List.append_nil] at hothers
  have hself : (kept d f.lines).filter (fun l => !d.hasEntry l) = kept d f.lines := by
    rw [List.filter_eq_self]
    intro l hl
    rw [Bool.not_eq_true', ← Bool.not_eq_true]
    exact List.filter_eq_nil_iff.mp hnone l hl
  have htwice : kept d (kept d f.lines) = kept d f.lines :=
    List.filter_eq_self.mpr fun l hl => (List.mem_filter.mp hl).2
  calc kept d f.lines
      = kept d (before.lines.filter fun l => !d.hasEntry l) := by rw [← hothers, hself, htwice]
    _ = (kept d before.lines).filter fun l => !d.hasEntry l := List.filter_comm _ _ _

/-- **Enabling and then disabling** quotas does not bring the options back. -/
theorem not_undone {e : ExtType} {mounts mounts' : List Text} (hmounted : o.Mounted d e mounts)
    (hoff : isEnabled d mounts = false) (hon : isEnabled d mounts' = true) (r r' : Found)
    (fstab : TextFile) :
    ¬ o.Undone d fstab (disable m d r' mounts' (enable m d r mounts fstab)) := by
  intro h
  rw [enable_eq m d o hmounted hoff] at h
  obtain ⟨f, hf⟩ : ∃ f, f = r.hot d (o.text ++ ',' :: e.qmopts)
    (remount d (o.text ++ ',' :: e.qmopts) fstab) := ⟨_, rfl⟩
  rw [← hf] at h
  obtain ⟨mopts, hdisabled, hmopts⟩ := disable_eq m d hon r' f
  rw [hdisabled] at h
  have hterminated : f.rest = [] := by rw [hf, hot_remount]
  obtain ⟨hkept, hnone, items, hlist, hne, hsame⟩ := line_of_undone d o hterminated h
  -- no line has run into the new one
  have hended : (fstab.sedDelete d.startsLine).rest = [] := by
    by_contra hrest
    rw [hf] at hkept
    exact kept_hot_remount d hrest hkept
  have hlines : f.lines = kept d fstab.lines ++ [r.line d (o.text ++ ',' :: e.qmopts)] := by
    rw [hf, hot_remount_ended d hended]
  have hstays : kept d f.lines = kept d fstab.lines := by
    rw [hlines, kept, List.filter_append, List.filter_cons_of_neg
      (by rw [startsLine_line]; exact Bool.false_ne_true), List.filter_nil, List.append_nil]
    exact List.filter_eq_self.mpr fun l hl => (List.mem_filter.mp hl).2
  rw [hstays] at hnone
  -- what is read of fstab are the options with quotas
  have hquota := o.solid_qmopts e
  have hread : mopts = commas o.items := by
    rw [hmopts, hlines, linesOf_line d hquota hnone, List.flatMap_singleton]
    change m.argument (m.stripped (commandSubst ((o.text ++ ',' :: e.qmopts) ++ ['\n']))) = _
    rw [commandSubst_append_newline, commandSubst_of_not_mem hquota.newline, o.stripped_qmopts,
      o.solid_append_nil.argument]
  rw [hread, fields_line d r' o.solid_append_nil] at hlist
  refine intercalate_ne_commas o (fun i hi => ⟨hne i hi, ?_⟩) hlist.symm
  exact o.comma_notMem ((hsame i).mp hi)

end Requests

/-! ## A disk with quotas -/

def plainBox : Box := ⟨noFiles, globs_noFiles, plainEcho, echoes_plainEcho⟩

/-- `rw,relatime` -/
def relatime : Options where
  items := ["rw".toList, "relatime".toList]
  nonempty := List.cons_ne_nil _ _
  plain := by
    intro i hi
    rcases List.mem_pair.mp hi with rfl | rfl
    · exact ⟨by decide, by decide⟩
    · exact ⟨by decide, by decide⟩
  free := by
    intro i hi
    rcases List.mem_pair.mp hi with rfl | rfl
    · decide
    · decide

def sda1Found : Found := ⟨"sda1".toList, "ext3".toList, ⟨by decide, forall_of_all (by decide)⟩,
  ⟨by decide, forall_of_all (by decide)⟩⟩

/-- /proc/mounts before, and with quotas. -/
def plainMounts : List Text := ["/dev/sda1 /mnt/sda1 ext3 rw,relatime 0 0".toList]

def quotaMounts : List Text :=
  [("/dev/sda1 /mnt/sda1 ext3 rw,relatime,jqfmt=vfsv0,usrjquota=aquota.user,".toList ++
    "grpjquota=aquota.group 0 0".toList)]

def sda1Fstab : TextFile := ⟨["/dev/sda1 /mnt/sda1 ext3 rw,relatime 0 0".toList], []⟩

theorem relatime_mounted : relatime.Mounted sda1 .ext3 plainMounts :=
  ⟨[], _, [], rfl, nofun, by decide +kernel, by decide +kernel, by decide +kernel⟩

theorem not_undone_relatime : ¬ relatime.Undone sda1 sda1Fstab (disable plainBox sda1 sda1Found
    quotaMounts (enable plainBox sda1 sda1Found plainMounts sda1Fstab)) :=
  not_undone plainBox sda1 relatime relatime_mounted (by decide +kernel) (by decide +kernel)
    sda1Found sda1Found sda1Fstab

/-- A comma is left behind `relatime`. -/
theorem not_disable_undoes : ¬ ∀ (m : Box) (d : Device) (o : Options) (e : ExtType)
    (mounts mounts' : List Text) (r r' : Found) (fstab : TextFile), o.Mounted d e mounts →
      isEnabled d mounts = false → isEnabled d mounts' = true →
        o.Undone d fstab (disable m d r' mounts' (enable m d r mounts fstab)) := by
  intro h
  obtain ⟨-, l, items, hentry, hlist, hne, hsame⟩ := h plainBox sda1 relatime .ext3 plainMounts
    quotaMounts sda1Found sda1Found sda1Fstab relatime_mounted (by decide +kernel)
    (by decide +kernel)
  have hfile : (disable plainBox sda1 sda1Found quotaMounts
      (enable plainBox sda1 sda1Found plainMounts sda1Fstab)).lines.filter sda1.hasEntry =
        ["/dev/sda1 /mnt/sda1 ext3 rw,relatime, 0 0".toList] := by
    decide +kernel
  rw [hfile] at hentry
  obtain rfl := (List.cons.inj hentry).1
  have hcommas : (fields "/dev/sda1 /mnt/sda1 ext3 rw,relatime, 0 0".toList).getD 3 [] =
      commas relatime.items := by
    decide +kernel
  rw [hcommas] at hlist
  refine intercalate_ne_commas relatime (fun i hi => ⟨hne i hi, ?_⟩) hlist.symm
  exact relatime.comma_notMem ((hsame i).mp hi)

end AltF.Cgi.Quota
