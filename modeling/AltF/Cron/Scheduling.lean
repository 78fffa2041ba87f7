/-
  Cron/Scheduling.lean --- init.d/common: `cron`, which puts the commands of services into the
  crontab of root, and S30backup, which puts one there for each backup.

  The entry of a command is found by a pattern made of the command, which also finds the commands
  that go on behind it, and those it is in the middle of.
-/
import Mathlib.Data.List.Infix
import AltF.Backup.Conf
import AltF.Cron.Crontab
import AltF.SysFiles.Edits

set_option autoImplicit false

namespace AltF.Cron

open AltF.Foundation AltF.Shell AltF.SysFiles

/-! ## The function -/

/-- What ends the entries of Alt-F. -/
def mark : Text := "#!# Alt-F cron".toList

/-- A character that stands for itself in a pattern, and does not end it. -/
def isLiteral (c : Char) : Bool := !".[]*^$\\|\n".toList.contains c

/-- `$cmd.*#!# Alt-F cron$` -/
def pattern (cmd : Text) : Text := cmd ++ ".*".toList ++ mark ++ ['$']

/-- `\|...|d` -/
def deletion (p : Text) : Text := '\\' :: '|' :: p ++ ['|', 'd']

/-- sed, as it is used here. -/
structure Sed where
  /-- `sed -i`, with any script -/
  run : Text → TextFile → TextFile
  /-- whether a regular expression is found in a line -/
  finds : Text → Text → Bool
  deletes : ∀ {p : Text}, '|' ∉ p → ∀ f, run (deletion p) f = f.sedDelete (finds p)
  literal : ∀ {cmd l : Text}, cmd.all isLiteral = true →
    (finds (pattern cmd) l = true ↔ ∃ a b, l = a ++ cmd ++ b ++ mark)

/-- `echo "$tspec $cmd #!# Alt-F cron"` -/
def newLine (tspec cmd : Text) : Text := tspec ++ ' ' :: (cmd ++ ' ' :: mark)

namespace Sed

variable (sed : Sed)

/-- `cron add tspec cmd`, on the crontab of root. -/
def add (tspec cmd : Text) (crontab : TextFile) : TextFile :=
  (sed.run (deletion (pattern cmd)) crontab).cat ⟨[newLine tspec cmd], []⟩

/-- `cron remove cmd` -/
def remove (cmd : Text) (crontab : TextFile) : TextFile := sed.run (deletion (pattern cmd)) crontab

end Sed

/-! ## Entries of Alt-F -/

/-- The command of a line with the mark at its end. -/
def altfCommand (l : Text) : Option Text :=
  if mark.isSuffixOf l then
    some ((readEntry (l.take (l.length - mark.length))).rest.rdropWhile isBlank)
  else none

/-- An entry of Alt-F for the command. -/
def isEntry (cmd l : Text) : Bool := altfCommand l == some cmd

/-- One for the command, or for the command with arguments. -/
def isUnder (cmd l : Text) : Bool :=
  (altfCommand l).any fun c => c == cmd ||
    cmd.isPrefixOf c && (c.drop cmd.length).head?.any isBlank

/-- A command, on a line of its own and without blanks at its ends. -/
structure Command where
  text : Text
  nonempty : text ≠ []
  starts : StartsSolid text
  ends : EndsSolid text
  line : '\n' ∉ text

/-- A field of a crontab. -/
def IsField (w : Text) : Prop := w ≠ [] ∧ ∀ c ∈ w, isBlank c = false

/-- The five fields in front of a command. -/
structure Schedule where
  fields : List Text
  five : fields.length = 5
  solid : ∀ w ∈ fields, IsField w

def Schedule.text (s : Schedule) : Text := join s.fields

/-- The fields of a line. -/
def scheduleOf (l : Text) : List Text := (fieldsBy isBlank 5 l).take 5

theorem fieldsBy_join {ws : List Text} (hne : ws ≠ [])
    (hws : ∀ w ∈ ws, IsField w) (t : Text) :
    fieldsBy isBlank ws.length (join ws ++ ' ' :: t) = ws ++ fieldsBy isBlank 0 t := by
  induction ws with
  | nil => exact absurd rfl hne
  | cons w ws ih =>
      obtain ⟨hw, hsolid⟩ := hws w List.mem_cons_self
      by_cases hrest : ws = []
      · rw [hrest, join_singleton, List.length_singleton, fieldsBy_word hw hsolid rfl]
        rfl
      · rw [join_cons w hrest, List.append_assoc, List.cons_append, List.length_cons,
          fieldsBy_word hw hsolid rfl,
          ih hrest fun v hv => hws v (List.mem_cons_of_mem w hv), List.cons_append]

theorem Command.trimmed (c : Command) : c.text.rdropWhile isBlank = c.text := by
  rw [List.rdropWhile_eq_self_iff]
  intro hne hblank
  rw [c.ends _ (List.getLast?_eq_some_getLast hne)] at hblank
  cases hblank

theorem Command.fieldsBy_zero (c : Command) : fieldsBy isBlank 0 (c.text ++ [' ']) = [c.text] := by
  have hfront : (c.text ++ [' ']).dropWhile isBlank = c.text ++ [' '] := by
    cases htext : c.text with
    | nil => exact absurd htext c.nonempty
    | cons d t =>
        refine List.dropWhile_cons_of_neg ?_
        rw [c.starts d (by rw [htext]; rfl)]
        exact Bool.false_ne_true
  rw [fieldsBy, hfront, List.rdropWhile_concat_pos _ _ _ rfl, c.trimmed]

/-- **The new line** is an entry for the command, with its schedule. -/
theorem newLine_entry (s : Schedule) (c : Command) :
    altfCommand (newLine s.text c.text) = some c.text ∧
      scheduleOf (newLine s.text c.text) = s.fields := by
  have hfields : ∀ t,
      fieldsBy isBlank 5 (s.text ++ ' ' :: t) = s.fields ++ fieldsBy isBlank 0 t := by
    intro t
    rw [← s.five]
    refine fieldsBy_join (fun h => ?_) s.solid t
    have hfive := s.five
    rw [h] at hfive
    cases hfive
  have hsplit : newLine s.text c.text = (s.text ++ ' ' :: (c.text ++ [' '])) ++ mark := by
    rw [newLine]
    simp
  constructor
  · have hsuffix : mark.isSuffixOf (newLine s.text c.text) = true :=
      List.isSuffixOf_iff_suffix.mpr ⟨_, hsplit.symm⟩
    have htake : (newLine s.text c.text).take ((newLine s.text c.text).length - mark.length) =
        s.text ++ ' ' :: (c.text ++ [' ']) := by
      rw [hsplit, List.length_append, Nat.add_sub_cancel, List.take_left]
    have hrest : ∀ rest : Text, (entryOf (s.fields ++ [rest])).rest = rest := by
      intro rest
      change (s.fields ++ [rest]).getD 5 [] = rest
      rw [List.getD_eq_getElem?_getD, List.getElem?_append_right s.five.le, s.five]
      rfl
    rw [altfCommand, if_pos hsuffix, htake, readEntry, hfields, c.fieldsBy_zero, hrest, c.trimmed]
  · rw [scheduleOf, newLine, hfields, ← s.five, List.take_left]

/-! ## Adding and removing -/

theorem pipe_notMem_pattern {cmd : Text} (h : '|' ∉ cmd) : '|' ∉ pattern cmd := by
  have hend : '|' ∉ ".*".toList ++ mark ++ ['$'] := by decide
  rw [pattern, List.append_assoc, List.append_assoc, List.mem_append, not_or,
    ← List.append_assoc ".*".toList]
  exact ⟨h, hend⟩

/-- A line behind others is one of its own exactly when these are ended. -/
theorem lines_cat_line_iff (f : TextFile) (l : Text) (ls : List Text) :
    (f.cat ⟨[l], []⟩).lines = ls ++ [l] ↔ f.rest = [] ∧ f.lines = ls := by
  have hlines : (f.cat ⟨[l], []⟩).lines = f.full ++ [f.rest ++ l] :=
    TextFile.lines_cat_of_cons f rfl
  rw [hlines]
  constructor
  · intro h
    obtain ⟨hfull, hlast⟩ := List.append_inj' h rfl
    have hrest : f.rest = [] := List.append_left_eq_self.mp (List.cons.inj hlast).1
    exact ⟨hrest, by rw [TextFile.lines, if_pos hrest, hfull]⟩
  · rintro ⟨hrest, rfl⟩
    rw [TextFile.lines, if_pos hrest, hrest, List.nil_append]

namespace Sed

variable (sed : Sed) (s : Schedule) (c : Command) (f : TextFile)

/-- The entry of the command is the new one, and the other lines stay. -/
def Adds : Prop :=
  (sed.add s.text c.text f).lines =
    f.lines.filter (fun l => !isEntry c.text l) ++ [newLine s.text c.text]

/-- The entries of the command, with arguments or without, are gone. -/
def Removes : Prop :=
  (sed.remove c.text f).lines = f.lines.filter fun l => !isUnder c.text l

/-- The pattern finds the entries of the command and no other lines, and the new line does not run
into an unended one.  Behind a `|` the pattern is read as commands. -/
def AddsApart : Prop :=
  if '|' ∈ c.text then
    (sed.remove c.text f).rest = [] ∧
      (sed.remove c.text f).lines = f.lines.filter fun l => !isEntry c.text l
  else (∀ l ∈ f.lines, sed.finds (pattern c.text) l = isEntry c.text l) ∧
    (f.rest = [] ∨ sed.finds (pattern c.text) f.rest = true)

/-- The pattern finds the entries under the command and no other lines. -/
def RemovesApart : Prop :=
  if '|' ∈ c.text then
    (sed.remove c.text f).lines = f.lines.filter fun l => !isUnder c.text l
  else ∀ l ∈ f.lines, sed.finds (pattern c.text) l = isUnder c.text l

theorem adds_iff : sed.Adds s c f ↔ sed.AddsApart c f := by
  unfold Adds AddsApart add
  split
  · exact lines_cat_line_iff _ _ _
  · rename_i hpipe
    rw [sed.deletes (pipe_notMem_pattern hpipe)]
    have hiff := (Edit.mk (sed.finds (pattern c.text)) [newLine s.text c.text]).lines_onFile_iff
      (isEntry c.text) f
    rw [or_iff_right (List.cons_ne_nil _ _)] at hiff
    exact hiff

theorem removes_iff : sed.Removes c f ↔ sed.RemovesApart c f := by
  unfold Removes RemovesApart remove
  split
  · exact Iff.rfl
  · rename_i hpipe
    rw [sed.deletes (pipe_notMem_pattern hpipe)]
    rw [TextFile.lines_sedDelete, Edit.filter_eq_filter_iff]
    exact forall₂_congr fun _ _ => Bool.not_inj_iff

end Sed

/-! ## One command after the other -/

/-- The command of an entry is in front of the mark. -/
theorem infix_of_altfCommand {l cmd : Text} (h : altfCommand l = some cmd) :
    ∃ a b, l = a ++ cmd ++ b ++ mark := by
  unfold altfCommand at h
  split at h
  · rename_i hmark
    have hcmd := Option.some.inj h
    obtain ⟨front, hfront⟩ := List.isSuffixOf_iff_suffix.mp hmark
    have htake : l.take (l.length - mark.length) = front := by
      rw [← hfront, List.length_append, Nat.add_sub_cancel, List.take_left]
    rw [htake] at hcmd
    have hrest : (readEntry front).rest <:+: front := by
      change (fieldsBy isBlank 5 front).getD 5 [] <:+: front
      rw [List.getD_eq_getElem?_getD]
      cases hget : (fieldsBy isBlank 5 front)[5]? with
      | none => exact List.nil_infix
      | some w => exact infix_of_mem_fieldsBy (List.mem_of_getElem? hget)
    obtain ⟨a, b, hab⟩ := (hcmd ▸ (List.rdropWhile_prefix _ _).isInfix).trans hrest
    exact ⟨a, b, by rw [hab, hfront]⟩
  · cases h

theorem Sed.finds_of_entry (sed : Sed) {cmd : Text} (hcmd : cmd.all isLiteral = true) {l : Text}
    (h : isEntry cmd l = true) : sed.finds (pattern cmd) l = true :=
  (sed.literal hcmd).mpr (infix_of_altfCommand (eq_of_beq h))

/-- A command of which each character stands for itself, and when to run it. -/
structure Job where
  schedule : Schedule
  command : Command
  literal : command.text.all isLiteral = true

def Job.line (j : Job) : Text := newLine j.schedule.text j.command.text

theorem Job.isEntry_line (j : Job) (cmd : Text) :
    isEntry cmd j.line = decide (j.command.text = cmd) := by
  rw [isEntry, Job.line, (newLine_entry j.schedule j.command).1]
  exact Bool.eq_iff_iff.mpr (by simp)

theorem Job.pipe_notMem (j : Job) : '|' ∉ j.command.text := fun h => by
  have hpipe := List.all_eq_true.mp j.literal _ h
  revert hpipe
  decide

namespace Sed

variable (sed : Sed)

def addAll (js : List Job) (f : TextFile) : TextFile :=
  js.foldl (fun f j => sed.add j.schedule.text j.command.text f) f

/-- Each command has its entry. -/
def Leaves (js : List Job) (f : TextFile) : Prop :=
  ∀ j ∈ js, ∃ j' ∈ js, j'.command.text = j.command.text ∧
    f.lines.filter (isEntry j.command.text) = [j'.line]

/-- The last entry of each command is not found by the patterns behind it, and the first of all
does not run into an unended line. -/
def InOrder : Text → List Job → Prop
  | _, [] => True
  | unended, j :: js =>
      ((∀ k ∈ js, k.command.text ≠ j.command.text) →
        (unended = [] ∨ sed.finds (pattern j.command.text) unended = true) ∧
          ∀ k ∈ js, sed.finds (pattern k.command.text) j.line = false) ∧
        InOrder [] js

theorem add_job (j : Job) (f : TextFile) :
    sed.add j.schedule.text j.command.text f =
      ⟨f.full.filter (fun l => !sed.finds (pattern j.command.text) l) ++
        [(if sed.finds (pattern j.command.text) f.rest = true then [] else f.rest) ++ j.line],
        []⟩ := by
  rw [add, sed.deletes (pipe_notMem_pattern j.pipe_notMem)]
  rfl

/-- The entries of a command that is not added again. -/
theorem filter_addAll {js : List Job} {cmd : Text} (hcmd : ∀ k ∈ js, k.command.text ≠ cmd)
    {f : TextFile} (hf : f.rest = []) :
    (sed.addAll js f).lines.filter (isEntry cmd) =
      f.lines.filter fun l =>
        isEntry cmd l && !js.any fun k => sed.finds (pattern k.command.text) l := by
  induction js generalizing f with
  | nil =>
      refine List.filter_congr fun l _ => ?_
      rw [List.any_nil, Bool.not_false, Bool.and_true]
  | cons j js ih =>
      have hj : isEntry cmd j.line = false := by
        rw [j.isEntry_line, decide_eq_false_iff_not]
        exact hcmd j List.mem_cons_self
      have hrest : (if sed.finds (pattern j.command.text) ([] : Text) = true then ([] : Text)
          else []) = [] := ite_self _
      rw [addAll, List.foldl_cons, add_job, hf, hrest, List.nil_append]
      rw [← addAll, ih (fun k hk => hcmd k (List.mem_cons_of_mem j hk)) rfl,
        TextFile.lines_of_terminated, List.filter_append, List.filter_filter]
      rw [List.filter_cons_of_neg (by rw [hj]; simp), List.filter_nil, List.append_nil,
        TextFile.lines, if_pos hf]
      refine List.filter_congr fun l _ => ?_
      rw [List.any_cons, Bool.not_or, Bool.and_assoc, Bool.and_comm (!List.any ..)]

/-- The entry of a command that is not added again. -/
theorem filter_first_iff {j : Job} {js : List Job}
    (hj : ∀ k ∈ js, k.command.text ≠ j.command.text) (f : TextFile) :
    (sed.addAll (j :: js) f).lines.filter (isEntry j.command.text) = [j.line] ↔
      (f.rest = [] ∨ sed.finds (pattern j.command.text) f.rest = true) ∧
        ∀ k ∈ js, sed.finds (pattern k.command.text) j.line = false := by
  have hold : ((f.full.filter fun l => !sed.finds (pattern j.command.text) l).filter fun l =>
      isEntry j.command.text l && !js.any fun k => sed.finds (pattern k.command.text) l) = [] := by
    rw [List.filter_filter, List.filter_eq_nil_iff]
    intro l _ hl
    rw [Bool.and_eq_true, Bool.and_eq_true, Bool.not_eq_true'] at hl
    rw [sed.finds_of_entry j.literal hl.1.1] at hl
    exact Bool.noConfusion hl.2
  have hself : isEntry j.command.text j.line = true := by
    rw [j.isEntry_line, decide_eq_true rfl]
  have hspared : (!js.any fun k => sed.finds (pattern k.command.text) j.line) = true ↔
      ∀ k ∈ js, sed.finds (pattern k.command.text) j.line = false := by
    rw [Bool.not_eq_true', List.any_eq_false]
    exact forall₂_congr fun _ _ => Bool.not_eq_true _ ▸ Iff.rfl
  rw [addAll, List.foldl_cons, ← addAll, add_job, sed.filter_addAll hj rfl,
    TextFile.lines_of_terminated, List.filter_append, hold, List.nil_append]
  by_cases hended : f.rest = [] ∨ sed.finds (pattern j.command.text) f.rest = true
  · have hrest :
        (if sed.finds (pattern j.command.text) f.rest = true then [] else f.rest) = [] := by
      rcases hended with h | h
      · rw [h, ite_self]
      · rw [if_pos h]
    rw [hrest, List.nil_append, List.filter_singleton, hself, Bool.true_and,
      and_iff_right hended, ← hspared]
    cases !js.any fun k => sed.finds (pattern k.command.text) j.line with
    | true => exact iff_of_true rfl rfl
    | false => exact iff_of_false nofun nofun
  · rw [not_or] at hended
    refine iff_of_false (fun heq => ?_) fun h => not_or.mpr hended h.1
    rw [if_neg hended.2] at heq
    have hmem : j.line ∈ [f.rest ++ j.line] :=
      List.mem_of_mem_filter (heq ▸ List.mem_singleton_self j.line)
    exact hended.1 (List.append_left_eq_self.mp (List.mem_singleton.mp hmem).symm)

/-- Entries of a command that is added are new ones. -/
theorem mem_addAll {js : List Job} {f : TextFile} (hf : f.rest = []) {l : Text}
    (hl : l ∈ (sed.addAll js f).lines) {k : Job} (hk : k ∈ js)
    (hentry : isEntry k.command.text l = true) :
    ∃ j ∈ js, j.command.text = k.command.text ∧ l = j.line := by
  induction js generalizing f k with
  | nil => cases hk
  | cons j js ih =>
      rw [addAll, List.foldl_cons, ← addAll] at hl
      have hrest : (sed.add j.schedule.text j.command.text f).rest = [] := by rw [add_job]
      by_cases hagain : ∃ k' ∈ js, k'.command.text = k.command.text
      · obtain ⟨k', hk', hcmd⟩ := hagain
        obtain ⟨i, hi, hieq, hline⟩ := ih hrest hl hk' (hcmd ▸ hentry)
        exact ⟨i, List.mem_cons_of_mem j hi, hieq.trans hcmd, hline⟩
      · have hnot : ∀ k' ∈ js, k'.command.text ≠ k.command.text := fun k' hk' heq =>
          hagain ⟨k', hk', heq⟩
        obtain rfl : k = j := by
          rcases List.mem_cons.mp hk with rfl | hk
          · rfl
          · exact absurd rfl (hnot k hk)
        refine ⟨k, List.mem_cons_self, rfl, ?_⟩
        have hmem := List.mem_filter.mpr ⟨hl, hentry⟩
        rw [sed.filter_addAll hnot hrest, add_job, hf, ite_self, TextFile.lines_of_terminated]
          at hmem
        rcases List.mem_append.mp (List.mem_filter.mp hmem).1 with hold | hnew
        · have hfound := sed.finds_of_entry k.literal hentry
          have hkept := (List.mem_filter.mp hold).2
          rw [hfound] at hkept
          exact Bool.noConfusion hkept
        · exact List.mem_singleton.mp hnew

/-- **Commands that are added one after the other** have their entries exactly when they are in
order. -/
theorem leaves_iff (js : List Job) (f : TextFile) :
    Leaves js (sed.addAll js f) ↔ sed.InOrder f.rest js := by
  induction js generalizing f with
  | nil => exact iff_of_true nofun trivial
  | cons j js ih =>
      have hrest : (sed.add j.schedule.text j.command.text f).rest = [] := by rw [add_job]
      have htail := ih (sed.add j.schedule.text j.command.text f)
      rw [hrest] at htail
      have hcons : sed.addAll (j :: js) f =
          sed.addAll js (sed.add j.schedule.text j.command.text f) := rfl
      constructor
      · intro h
        refine ⟨fun hj => ?_, htail.mp fun k hk => ?_⟩
        · -- the only entry is that of the one job with the command
          obtain ⟨i, hi, hcmd, hline⟩ := h j List.mem_cons_self
          obtain rfl : i = j := by
            rcases List.mem_cons.mp hi with rfl | hi
            · rfl
            · exact absurd hcmd (hj i hi)
          exact (sed.filter_first_iff hj f).mp hline
        · obtain ⟨i, -, hcmd, hline⟩ := h k (List.mem_cons_of_mem j hk)
          have hmem : i.line ∈ (sed.addAll (j :: js) f).lines.filter (isEntry k.command.text) :=
            hline ▸ List.mem_singleton_self i.line
          obtain ⟨hlines, hentry⟩ := List.mem_filter.mp hmem
          obtain ⟨i', hi', hcmd', hline'⟩ := sed.mem_addAll hrest (hcons ▸ hlines) hk hentry
          exact ⟨i', hi', hcmd', by rw [← hcons, hline, hline']⟩
      · rintro ⟨hfirst, horder⟩ k hk
        by_cases hagain : ∃ k' ∈ js, k'.command.text = k.command.text
        · obtain ⟨k', hk', hcmd⟩ := hagain
          obtain ⟨i, hi, hicmd, hline⟩ := htail.mpr horder k' hk'
          exact ⟨i, List.mem_cons_of_mem j hi, hicmd.trans hcmd, by rw [hcons, ← hcmd, hline]⟩
        · have hnot : ∀ k' ∈ js, k'.command.text ≠ k.command.text := fun k' hk' heq =>
            hagain ⟨k', hk', heq⟩
          obtain rfl : k = j := by
            rcases List.mem_cons.mp hk with rfl | hk
            · rfl
            · exact absurd rfl (hnot k hk)
          exact ⟨k, List.mem_cons_self, rfl, (sed.filter_first_iff hnot f).mpr (hfirst hnot)⟩

end Sed

/-! ## The backups -/

/-- The lines of backup.conf for which S30backup calls `cron`. -/
def started (conf : Text) : List Backup.Entry :=
  ((logicalLines [] conf).map Backup.readEntry).filter fun e =>
    !([e.id, e.type, e.runas, e.srcpath, e.dstpath, e.when, e.hour, e.log].any (·.isEmpty)) &&
      !e.disabled

def mday (e : Backup.Entry) : Text := if e.when.head? = some 'd' then e.when.tail else ['*']

def wday (e : Backup.Entry) : Text := if e.when.head? = some 'd' then ['*'] else e.when

/-- `0 $at $mday * $when` -/
def tspec (e : Backup.Entry) : Text := join [['0'], e.hour, mday e, ['*'], wday e]

/-- `$CMD` -/
def backupCmd : Text := "/usr/bin/backup".toList

/-- `$CMD $id` -/
def command (e : Backup.Entry) : Text := backupCmd ++ ' ' :: e.id

/-- S30backup, `istart`. -/
def Sed.istart (sed : Sed) (conf : Text) (crontab : TextFile) : TextFile :=
  (started conf).foldl (fun f e => sed.add (tspec e) (command e) f) crontab

theorem tspec_eq (e : Backup.Entry) :
    tspec e = '0' :: ' ' :: (e.hour ++ ' ' :: (mday e ++ ' ' :: '*' :: ' ' :: wday e)) := by
  rw [tspec, join_cons _ (List.cons_ne_nil _ _), join_cons _ (List.cons_ne_nil _ _),
    join_cons _ (List.cons_ne_nil _ _), join_cons _ (List.cons_ne_nil _ _), join_singleton]
  rfl

theorem entry_text (hour mday wday id : Text) :
    '0' :: ' ' :: (hour ++ ' ' :: (mday ++ ' ' :: '*' :: ' ' :: wday)) ++
        ' ' :: (backupCmd ++ ' ' :: id) =
      "0 ".toList ++ hour ++ ' ' :: mday ++ " * ".toList ++ wday ++ " /usr/bin/backup ".toList ++
        id := by
  have hzero : "0 ".toList = ['0', ' '] := rfl
  have hstar : " * ".toList = [' ', '*', ' '] := rfl
  have hchars : backupCmd = _ := toList_literal rfl
  have hcmd : " /usr/bin/backup ".toList = ' ' :: (backupCmd ++ [' ']) := by
    rw [hchars]
    exact toList_literal rfl
  rw [hzero, hstar, hcmd]
  generalize backupCmd = cmd
  simp only [List.append_assoc, List.cons_append, List.nil_append]

/-- They are those that come into the crontab. -/
theorem istart_eq (conf : Text) :
    Backup.istart conf = (started conf).map fun e => tspec e ++ ' ' :: command e := by
  rw [Backup.istart, started]
  induction (logicalLines [] conf).map Backup.readEntry with
  | nil => rfl
  | cons e es ih =>
      rw [List.flatMap_cons, ih, List.filter_cons]
      cases [e.id, e.type, e.runas, e.srcpath, e.dstpath, e.when, e.hour, e.log].any
        (·.isEmpty) with
      | true => rfl
      | false =>
          cases e.disabled with
          | true => rfl
          | false =>
              have hline : tspec e ++ ' ' :: command e = _ :=
                (congrArg (· ++ ' ' :: command e) (tspec_eq e)).trans (entry_text _ _ _ _)
              exact congrArg (· :: _) hline.symm

theorem isField_singleton {c : Char} (hc : isBlank c = false) : IsField [c] :=
  ⟨List.cons_ne_nil c [], fun _ hd => List.mem_singleton.mp hd ▸ hc⟩

theorem isBlank_of_isDigit {c : Char} (h : c.isDigit = true) : isBlank c = false := by
  have hne := ne_of_isDigit h
  simp [isBlank, hne ' ' rfl, hne '\t' rfl, hne '\n' rfl]

theorem isLiteral_of_isDigit {c : Char} (h : c.isDigit = true) : isLiteral c = true := by
  have hchars : ∀ d ∈ ".[]*^$\\|\n".toList, d.isDigit = false :=
    forall_of_all (by decide)
  rw [isLiteral, Bool.not_eq_true', List.contains_eq_mem, decide_eq_false_iff_not]
  exact fun hc => ne_of_isDigit h c (hchars c hc) rfl

theorem backupCmd_chars : backupCmd.all isLiteral = true ∧ backupCmd.head? = some '/' := by
  have hchars : backupCmd = _ := toList_literal rfl
  rw [hchars]
  decide +kernel

/-- A backup with a number, and with times that are fields. -/
structure Timed where
  entry : Backup.Entry
  named : entry.id ≠ []
  number : entry.id.all Char.isDigit = true
  hour : IsField entry.hour
  when : IsField entry.when
  day : entry.when ≠ ['d']

namespace Timed

variable (t : Timed)

theorem field_mday : IsField (mday t.entry) := by
  unfold mday
  split
  · rename_i hd
    obtain ⟨days, hdays⟩ := List.head?_eq_some_iff.mp hd
    rw [hdays, List.tail_cons]
    refine ⟨fun hnone => t.day ?_, fun c hc => t.when.2 c ?_⟩
    · rw [hdays, hnone]
    · rw [hdays]
      exact List.mem_cons_of_mem 'd' hc
  · exact isField_singleton rfl

theorem field_wday : IsField (wday t.entry) := by
  unfold wday
  split
  · exact isField_singleton rfl
  · exact t.when

def schedule : Schedule where
  fields := [['0'], t.entry.hour, mday t.entry, ['*'], wday t.entry]
  five := rfl
  solid := by
    refine List.forall_mem_cons.mpr ⟨isField_singleton rfl, ?_⟩
    refine List.forall_mem_cons.mpr ⟨t.hour, List.forall_mem_cons.mpr ⟨t.field_mday, ?_⟩⟩
    refine List.forall_mem_cons.mpr ⟨isField_singleton rfl, ?_⟩
    exact List.forall_mem_singleton.mpr t.field_wday

theorem starts_command : StartsSolid (command t.entry) := by
  intro c hc
  rw [command, List.head?_append, backupCmd_chars.2] at hc
  obtain rfl : '/' = c := Option.some.inj hc
  rfl

theorem ends_command : EndsSolid (command t.entry) := by
  have hid : EndsSolid t.entry.id := fun c hc =>
    isBlank_of_isDigit (List.all_eq_true.mp t.number c (List.mem_of_getLast? hc))
  have hcut : command t.entry = (backupCmd ++ [' ']) ++ t.entry.id := by
    rw [command, List.append_assoc, List.singleton_append]
  rw [hcut]
  exact hid.append _ t.named

theorem literal_command : (command t.entry).all isLiteral = true := by
  have hid : t.entry.id.all isLiteral = true := List.all_eq_true.mpr fun c hc =>
    isLiteral_of_isDigit (List.all_eq_true.mp t.number c hc)
  rw [command, List.all_append, List.all_cons, backupCmd_chars.1, hid]
  rfl

theorem newline_notMem_command : '\n' ∉ command t.entry := fun h =>
  absurd (List.all_eq_true.mp t.literal_command _ h) (by decide)

def job : Job where
  schedule := t.schedule
  command :=
    { text := command t.entry
      nonempty := List.append_ne_nil_of_right_ne_nil _ (List.cons_ne_nil _ _)
      starts := t.starts_command
      ends := t.ends_command
      line := t.newline_notMem_command }
  literal := t.literal_command

end Timed

/-- backup.conf, with what is started of it. -/
structure Backups where
  conf : Text
  entries : List Timed
  started : started conf = entries.map Timed.entry

def Backups.jobs (b : Backups) : List Job := b.entries.map Timed.job

theorem istart_jobs (sed : Sed) (b : Backups) (f : TextFile) :
    sed.istart b.conf f = sed.addAll b.jobs f := by
  rw [Sed.istart, b.started, Sed.addAll, Backups.jobs, List.foldl_map, List.foldl_map]
  rfl

/-! ## What is left alone -/

namespace Sed

variable (sed : Sed)

/-- A command is added and removed, and the backups are started, each for itself. -/
structure Schedules (s : Schedule) (c : Command) (b : Backups) (f : TextFile) : Prop where
  adds : sed.Adds s c f
  removes : sed.Removes c f
  starts : Leaves b.jobs (sed.istart b.conf f)

/-- The patterns of the commands keep to their entries. -/
structure Apart (c : Command) (b : Backups) (f : TextFile) : Prop where
  adds : sed.AddsApart c f
  removes : sed.RemovesApart c f
  starts : sed.InOrder f.rest b.jobs

/-- **Scheduling a command** leaves the others alone exactly when its pattern finds its own
entries. -/
theorem schedules_iff (s : Schedule) (c : Command) (b : Backups) (f : TextFile) :
    sed.Schedules s c b f ↔ sed.Apart c b f := by
  have hstarts : Leaves b.jobs (sed.istart b.conf f) ↔ sed.InOrder f.rest b.jobs := by
    rw [istart_jobs, leaves_iff]
  constructor
  · rintro ⟨hadds, hremoves, hleaves⟩
    exact ⟨(sed.adds_iff s c f).mp hadds, (sed.removes_iff c f).mp hremoves, hstarts.mp hleaves⟩
  · rintro ⟨hadds, hremoves, horder⟩
    exact ⟨(sed.adds_iff s c f).mpr hadds, (sed.removes_iff c f).mpr hremoves,
      hstarts.mpr horder⟩

/-- The entry of a command that goes on behind another is found with it. -/
theorem finds_of_prefix (s : Schedule) {c c' : Command} (hc : c.text.all isLiteral = true)
    (h : c.text <+: c'.text) : sed.finds (pattern c.text) (newLine s.text c'.text) = true := by
  obtain ⟨t, ht⟩ := h
  refine (sed.literal hc).mpr ⟨s.text ++ [' '], t ++ [' '], ?_⟩
  rw [newLine, ← ht]
  simp

end Sed

/-! ## Two backups -/

/-- The line ends with the mark and has the command in front of it. -/
def plainFinds (p l : Text) : Bool :=
  let cmd := p.take (p.length - (mark.length + 3))
  mark.isSuffixOf l && (l.take (l.length - mark.length)).tails.any cmd.isPrefixOf

theorem plainFinds_pattern (cmd l : Text) :
    plainFinds (pattern cmd) l = true ↔ ∃ a b, l = a ++ cmd ++ b ++ mark := by
  have hlength : (pattern cmd).length - (mark.length + 3) = cmd.length := by
    rw [pattern]
    simp only [List.length_append]
    rw [show ".*".toList.length = 2 from rfl, List.length_singleton]
    omega
  have htake : (pattern cmd).take cmd.length = cmd := by
    rw [pattern, List.append_assoc, List.append_assoc, List.take_left]
  rw [plainFinds, hlength, htake, Bool.and_eq_true, List.isSuffixOf_iff_suffix, List.any_eq_true]
  constructor
  · rintro ⟨⟨front, rfl⟩, t, ht, hcmd⟩
    rw [List.length_append, Nat.add_sub_cancel, List.take_left, List.mem_tails] at ht
    obtain ⟨a, rfl⟩ := ht
    obtain ⟨b, rfl⟩ := List.isPrefixOf_iff_prefix.mp hcmd
    exact ⟨a, b, by rw [List.append_assoc a cmd]⟩
  · rintro ⟨a, b, rfl⟩
    refine ⟨List.suffix_append _ _, cmd ++ b, ?_, List.isPrefixOf_iff_prefix.mpr ⟨b, rfl⟩⟩
    rw [List.length_append, Nat.add_sub_cancel, List.take_left, List.mem_tails, List.append_assoc]
    exact List.suffix_append a _

/-- sed, for commands without characters that have a meaning in a pattern. -/
def plainSed : Sed where
  run script f :=
    let p := (script.drop 2).dropLast.dropLast
    if deletion p == script then f.sedDelete (plainFinds p) else f
  finds := plainFinds
  deletes := by
    intro p _ f
    have hcut : ((deletion p).drop 2).dropLast.dropLast = p := by
      rw [deletion]
      simp
    rw [hcut, if_pos (beq_self_eq_true _)]
  literal := fun _ => plainFinds_pattern _ _

/-- A backup at three o'clock. -/
def nightly (id : Text) : Backup.Entry :=
  ⟨false, id, "rsync".toList, "root".toList, "box".toList, [], "/home".toList, "/Backup".toList,
    ['*'], ['3'], "no".toList, ['7']⟩

def first : Timed where
  entry := nightly ['1']
  named := List.cons_ne_nil _ _
  number := rfl
  hour := isField_singleton rfl
  when := isField_singleton rfl
  day := by decide

def tenth : Timed where
  entry := nightly ['1', '0']
  named := List.cons_ne_nil _ _
  number := rfl
  hour := isField_singleton rfl
  when := isField_singleton rfl
  day := by decide

/-- The tenth stands in front of the first. -/
def tenFirst : Backups where
  conf := "10;rsync;root;box;;/home;/Backup;*;3;no;7\n".toList ++
    "1;rsync;root;box;;/home;/Backup;*;3;no;7\n".toList
  entries := [tenth, first]
  started := by decide +kernel

/-- **The entry of the tenth** is deleted for the first. -/
theorem not_schedules_tenFirst :
    ¬ plainSed.Schedules tenth.schedule tenth.job.command tenFirst ⟨[], []⟩ := by
  intro h
  have hleaves := h.starts
  rw [istart_jobs, Sed.leaves_iff] at hleaves
  have hother : ∀ k ∈ [first.job], k.command.text ≠ tenth.job.command.text := by
    intro k hk
    rw [List.mem_singleton.mp hk]
    decide +kernel
  have hspared := (hleaves.1 hother).2 first.job (List.mem_singleton_self _)
  have hprefix : first.job.command.text <+: tenth.job.command.text := by
    refine ⟨['0'], ?_⟩
    decide +kernel
  have hfound := plainSed.finds_of_prefix tenth.schedule first.literal_command hprefix
  exact Bool.noConfusion (hspared.symm.trans hfound)

end AltF.Cron
