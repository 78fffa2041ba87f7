/-
  Sysctrl/Config.lean --- `read_config` of sysctrl.c: `fgets` into 128 bytes, `trim`,
  `config` and `checkfile`, on any text and any earlier settings.

  A line is read as `name="value"`.  A piece of a line without `=` ends the program: its
  value is a null pointer that `trim` reads through.
-/
import Mathlib.Algebra.Order.Ring.Rat
import Mathlib.Data.List.DropRight
import AltF.Foundation.Decimal
import AltF.SysFiles.Text

set_option autoImplicit false

namespace AltF.Sysctrl

open AltF.Foundation AltF.SysFiles

/-! ## Settings -/

/-- The fields of `args_t`. -/
inductive Opt where
  | hiFan
  | hiTemp
  | loFan
  | loTemp
  | fanOffTemp
  | fanMode
  | maxFanSpeed
  | disksTemp
  | histTemp
  | warnTemp
  | warnTempCommand
  | critTemp
  | critTempCommand
  | mail
  | backButtonCommand
  | frontButtonCommand1
  | frontButtonCommand2
  | recovery
  deriving DecidableEq, Repr

namespace Opt

/-- Their names in the configuration file. -/
def name : Opt → Text
  | hiFan => "hi_fan".toList
  | hiTemp => "hi_temp".toList
  | loFan => "lo_fan".toList
  | loTemp => "lo_temp".toList
  | fanOffTemp => "fan_off_temp".toList
  | fanMode => "fan_mode".toList
  | maxFanSpeed => "max_fan_speed".toList
  | disksTemp => "disks_temp".toList
  | histTemp => "hist_temp".toList
  | warnTemp => "warn_temp".toList
  | warnTempCommand => "warn_temp_command".toList
  | critTemp => "crit_temp".toList
  | critTempCommand => "crit_temp_command".toList
  | mail => "mail".toList
  | backButtonCommand => "back_button_command".toList
  | frontButtonCommand1 => "front_button_command1".toList
  | frontButtonCommand2 => "front_button_command2".toList
  | recovery => "recovery".toList

/-- All of them, in the order in which sysctrl_proc.cgi writes them. -/
def all : List Opt :=
  [hiFan, hiTemp, loFan, loTemp, fanOffTemp, fanMode, maxFanSpeed, disksTemp, histTemp, warnTemp,
    warnTempCommand, critTemp, critTempCommand, mail, backButtonCommand, frontButtonCommand1,
    frontButtonCommand2, recovery]

/-- What `config` makes of a value. -/
inductive Kind where
  | number
  | decimal
  | mode
  | command
  deriving DecidableEq, Repr

def kind : Opt → Kind
  | histTemp => .decimal
  | fanMode => .mode
  | warnTempCommand => .command
  | critTempCommand => .command
  | backButtonCommand => .command
  | frontButtonCommand1 => .command
  | frontButtonCommand2 => .command
  | _ => .number

end Opt

/-- The content of a field; of a command, the file, or none. -/
inductive Val where
  | int (v : Int)
  | float (x : Rat)
  | file (f : Option Text)
  deriving DecidableEq, Repr

/-- `args` -/
abbrev Settings : Type := Opt → Val

/-- What the program asks the system. -/
structure Daemon where
  atof : Text → Rat
  /-- the file is there, owned by root, executable and written by root only -/
  executable : Text → Bool

/-! ## Reading -/

/-- `atoi` -/
def atoi (v : Text) : Int := (scanInt v).getD 0

namespace Daemon

variable (h : Daemon)

def checkfile (v : Text) : Option Text :=
  if v = [] then none else if h.executable v then some v else none

/-- The value of a field. -/
def convert (o : Opt) (v : Text) : Val :=
  match o.kind with
  | .number => .int (atoi v)
  | .decimal => .float (h.atof v)
  | .mode => .int (if atoi v = 1 ∨ atoi v = 2 ∨ atoi v = 3 then atoi v else 0)
  | .command => .file (h.checkfile v)

/-- `config` -/
def config (args : Settings) (n v : Text) : Settings :=
  match Opt.all.find? fun o => o.name = n with
  | none => args
  | some o => Function.update args o (h.convert o v)

end Daemon

/-- `trim` -/
def trim (t : Text) : Text :=
  let s := (t.dropWhile isSpace).rdropWhile isSpace
  if s.head? = some '"' ∧ s.getLast? = some '"' then s.tail.dropLast else s

/-- `fgets` with the bytes of a line so far. -/
def fgetsFrom (line : Text) : Text → List Text
  | [] => if line = [] then [] else [line]
  | c :: t =>
      if c = '\n' ∨ line.length = 126 then (line ++ [c]) :: fgetsFrom [] t
      else fgetsFrom (line ++ [c]) t

/-- What `fgets` returns, one after the other. -/
def fgets (text : Text) : List Text := fgetsFrom [] text

namespace Daemon

variable (h : Daemon)

/-- One of them: nothing when the program dies. -/
def readLine (args : Settings) (s : Text) : Option Settings :=
  let str := s.takeWhile (· ≠ '#')
  if str.all isSpace then some args
  else
    match str.dropWhile (· ≠ '=') with
    | [] => none
    | _ :: v => some (h.config args (trim (str.takeWhile (· ≠ '='))) (trim v))

/-- `read_config` -/
def readConfig (text : Text) (args : Settings) : Option Settings :=
  (fgets text).foldlM h.readLine args

end Daemon

/-! ## Pieces of lines -/

theorem fgetsFrom_append (line w t : Text) :
    fgetsFrom line (w ++ '\n' :: t) = fgetsFrom line (w ++ ['\n']) ++ fgets t := by
  induction w generalizing line with
  | nil => simp [fgetsFrom, fgets]
  | cons c w ih =>
      rw [List.cons_append, List.cons_append, fgetsFrom, fgetsFrom]
      split
      · rw [ih, List.cons_append]
      · exact ih _

/-- What is read in pieces. -/
theorem flatten_fgetsFrom (line t : Text) : (fgetsFrom line t).flatten = line ++ t := by
  induction t generalizing line with
  | nil =>
      rw [fgetsFrom]
      split
      · rename_i hline
        rw [hline]
        rfl
      · simp
  | cons c t ih =>
      rw [fgetsFrom]
      split
      · rw [List.flatten_cons, ih, List.nil_append, List.append_assoc]
        rfl
      · rw [ih, List.append_assoc]
        rfl

/-- A line that fits is read whole, but perhaps for its end. -/
theorem fgetsFrom_of_fits {line w : Text} (hw : '\n' ∉ w) (hfits : line.length + w.length ≤ 127)
    (hne : line ++ w ≠ []) (hline : line.length < 127) :
    ∃ e, (e = [] ∨ e = ['\n']) ∧ ∃ rest, (rest = [] ∨ rest = [['\n']]) ∧
      fgetsFrom line (w ++ ['\n']) = (line ++ w ++ e) :: rest := by
  induction w generalizing line with
  | nil =>
      refine ⟨['\n'], .inr rfl, [], .inl rfl, ?_⟩
      simp [fgetsFrom]
  | cons c w ih =>
      rw [List.mem_cons, not_or] at hw
      rw [List.length_cons] at hfits
      rw [List.cons_append, fgetsFrom]
      split
      · rename_i hfull
        have hlen : line.length = 126 := hfull.resolve_left (Ne.symm hw.1)
        have hnil : w = [] := List.length_eq_zero_iff.mp (by omega)
        refine ⟨[], .inl rfl, [['\n']], .inr rfl, ?_⟩
        rw [hnil]
        simp [fgetsFrom]
      · rename_i hroom
        rw [not_or] at hroom
        have hlen : (line ++ [c]).length + w.length ≤ 127 := by
          rw [List.length_append, List.length_singleton]
          omega
        have hshort : (line ++ [c]).length < 127 := by
          rw [List.length_append, List.length_singleton]
          omega
        obtain ⟨e, he, rest, hrest, heq⟩ := ih hw.2 hlen (by simp) hshort
        refine ⟨e, he, rest, hrest, ?_⟩
        rw [heq, List.append_assoc line, List.singleton_append]

/-- Of a longer line, 127 bytes are read first. -/
theorem fgetsFrom_of_long {line w : Text} (hw : '\n' ∉ w) (hlong : 127 ≤ line.length + w.length)
    (hline : line.length < 127) (t : Text) :
    fgetsFrom line (w ++ t) =
      (line ++ w.take (127 - line.length)) :: fgets (w.drop (127 - line.length) ++ t) := by
  induction w generalizing line with
  | nil =>
      rw [List.length_nil] at hlong
      omega
  | cons c w ih =>
      rw [List.mem_cons, not_or] at hw
      rw [List.length_cons] at hlong
      rw [List.cons_append, fgetsFrom]
      split
      · rename_i hfull
        have hlen : line.length = 126 := hfull.resolve_left (Ne.symm hw.1)
        rw [hlen]
        simp [fgets]
      · rename_i hroom
        rw [not_or] at hroom
        have hsucc : 127 - line.length = (127 - (line ++ [c]).length) + 1 := by
          rw [List.length_append, List.length_singleton]
          omega
        rw [ih hw.2 (by rw [List.length_append, List.length_singleton]; omega)
          (by rw [List.length_append, List.length_singleton]; omega), hsucc, List.take_succ_cons,
          List.drop_succ_cons, List.append_assoc, List.singleton_append]

theorem fgets_of_fits {w : Text} (hw : '\n' ∉ w) (hfits : w.length ≤ 127) (hne : w ≠ []) :
    ∃ e, (e = [] ∨ e = ['\n']) ∧ ∃ rest, (rest = [] ∨ rest = [['\n']]) ∧
      fgets (w ++ ['\n']) = (w ++ e) :: rest :=
  fgetsFrom_of_fits hw ((Nat.zero_add _).trans_le hfits) hne (Nat.zero_lt_succ _)

theorem fgets_of_long {w : Text} (hw : '\n' ∉ w) (hlong : 127 ≤ w.length) (t : Text) :
    fgets (w ++ t) = w.take 127 :: fgets (w.drop 127 ++ t) :=
  have hempty : ([] : Text).length < 127 := Nat.zero_lt_succ 126
  fgetsFrom_of_long hw (hlong.trans_eq (Nat.zero_add _).symm) hempty t

theorem flatten_fgets (t : Text) : (fgets t).flatten = t := flatten_fgetsFrom [] t

/-! ## Names and quotes -/

/-- Names have no blanks, quotes or signs that end them. -/
theorem name_chars : ∀ o : Opt,
    o.name.all (fun c => !isSpace c && c != '=' && c != '#' && c != '"' && c != '\n') = true ∧
      o.name ≠ [] ∧ o.name.length ≤ 21 ∧
        (Opt.all.find? fun x => x.name = o.name) = some o ∧ o ∈ Opt.all := by
  intro o
  cases o <;> decide +kernel

theorem name_notMem (o : Opt) : '=' ∉ o.name ∧ '#' ∉ o.name ∧ '\n' ∉ o.name := by
  have hall := List.all_eq_true.mp (name_chars o).1
  refine ⟨fun h => ?_, fun h => ?_, fun h => ?_⟩
  all_goals exact absurd (hall _ h) (by decide)

/-- Text with no blank at either end, and no quote in front, is trimmed to itself. -/
theorem trim_name (o : Opt) : trim o.name = o.name := by
  have hall := List.all_eq_true.mp (name_chars o).1
  have hspace : ∀ c ∈ o.name, isSpace c = false := fun c hc => by
    have hc' := hall c hc
    simp only [Bool.and_eq_true, Bool.not_eq_true'] at hc'
    exact hc'.1.1.1.1
  have hquote : o.name.head? ≠ some '"' := fun h =>
    absurd (hall '"' (List.mem_of_mem_head? h)) (by decide)
  have hdrop : o.name.dropWhile isSpace = o.name := by
    cases hname : o.name with
    | nil => rfl
    | cons c t =>
        refine List.dropWhile_cons_of_neg ?_
        rw [hspace c (hname ▸ List.mem_cons_self)]
        exact Bool.false_ne_true
  have hrdrop : o.name.rdropWhile isSpace = o.name := by
    rw [List.rdropWhile_eq_self_iff]
    intro hne hlast
    rw [hspace _ (List.getLast_mem hne)] at hlast
    cases hlast
  rw [trim, hdrop, hrdrop, if_neg fun h => hquote h.1]

/-- A text behind a quote keeps it, or loses it and its last character. -/
theorem trim_cons_quote (r : Text) :
    trim ('"' :: r) = '"' :: r.rdropWhile isSpace ∨
      trim ('"' :: r) = (r.rdropWhile isSpace).dropLast := by
  have hdrop : ('"' :: r).dropWhile isSpace = '"' :: r := List.dropWhile_cons_of_neg (by decide)
  have hrdrop : ('"' :: r).rdropWhile isSpace = '"' :: r.rdropWhile isSpace := by
    induction r using List.reverseRecOn with
    | nil => rfl
    | append_singleton r c ih =>
        rw [← List.cons_append]
        by_cases hc : isSpace c = true
        · rw [List.rdropWhile_concat_pos _ _ _ hc, List.rdropWhile_concat_pos _ _ _ hc]
          exact ih (List.dropWhile_cons_of_neg (by decide))
        · rw [List.rdropWhile_concat_neg _ _ _ hc, List.rdropWhile_concat_neg _ _ _ hc]
          rfl
  rw [trim, hdrop, hrdrop]
  split
  · exact Or.inr rfl
  · exact Or.inl rfl

/-- What stands between quotes. -/
theorem trim_quoted (w : Text) {e : Text} (he : e = [] ∨ e = ['\n']) :
    trim ('"' :: w ++ '"' :: e) = w := by
  have hdrop : ('"' :: w ++ '"' :: e).dropWhile isSpace = '"' :: w ++ '"' :: e :=
    List.dropWhile_cons_of_neg (by decide)
  have hquote : ('"' :: w ++ ['"']).rdropWhile isSpace = '"' :: w ++ ['"'] :=
    List.rdropWhile_concat_neg _ _ _ (by decide)
  have hrdrop : ('"' :: w ++ '"' :: e).rdropWhile isSpace = '"' :: w ++ ['"'] := by
    rcases he with rfl | rfl
    · exact hquote
    · have hsplit : '"' :: w ++ '"' :: ['\n'] = ('"' :: w ++ ['"']) ++ ['\n'] := by simp
      rw [hsplit, List.rdropWhile_concat_pos _ _ _ (by decide), hquote]
  rw [trim, hdrop, hrdrop, if_pos ⟨rfl, List.getLast?_concat⟩]
  exact List.dropLast_concat

theorem length_trim_le (t : Text) : (trim t).length ≤ t.length := by
  have hstrip : ((t.dropWhile isSpace).rdropWhile isSpace).length ≤ t.length :=
    (List.rdropWhile_prefix _ _).length_le.trans (List.dropWhile_suffix _).length_le
  rw [trim]
  split
  · rw [List.length_dropLast, List.length_tail]
    omega
  · exact hstrip

/-- A text behind a quote that is not closed is no path of its length or more. -/
theorem trim_cut_ne {r c : Text} (hlen : r.length ≤ c.length) (hpath : c.head? = some '/') :
    trim ('"' :: r) ≠ c := by
  rcases trim_cons_quote r with h | h
  · rw [h]
    rintro rfl
    exact absurd (Option.some.inj hpath) (by decide)
  · rw [h]
    intro heq
    have hle := (List.rdropWhile_prefix isSpace r).length_le
    have hlength := congrArg List.length heq
    have hne : c ≠ [] := by
      rintro rfl
      cases hpath
    have hpos := List.length_pos_iff.mpr hne
    rw [List.length_dropLast] at hlength
    omega

/-! ## Lines -/

/-- What sysctrl_proc.cgi writes for a value, and nothing for an empty one. -/
def line (o : Opt) (w : Text) : Text :=
  if w = [] then [] else o.name ++ '=' :: '"' :: (w ++ ['"']) ++ ['\n']

/-- The line is read whole. -/
def LineFits (o : Opt) (w : Text) : Prop := '#' ∉ w ∧ o.name.length + w.length + 3 ≤ 127

namespace Daemon

variable {h : Daemon}

theorem convert_ne_of_ne {o : Opt} (ho : o.kind = .command) {v c : Text} (hne : v ≠ c) :
    h.convert o v ≠ .file (some c) := by
  have hconvert : h.convert o v = .file (h.checkfile v) := by
    rw [convert, ho]
  rw [hconvert, checkfile]
  intro heq
  split at heq
  · cases heq
  · split at heq
    · exact hne (Option.some.inj (Val.file.inj heq))
    · cases heq

/-- A piece that begins with a name sets the field. -/
theorem readLine_name (o : Opt) (r : Text) (args : Settings) :
    h.readLine args (o.name ++ '=' :: r) =
      some (Function.update args o (h.convert o (trim (r.takeWhile (· ≠ '#'))))) := by
  obtain ⟨hequal, hhash, -⟩ := name_notMem o
  obtain ⟨hchars, hne, -, hfind, -⟩ := name_chars o
  have hne' : ∀ {d : Char}, d ∉ o.name → ∀ c ∈ o.name, (decide (c ≠ d)) = true := fun hd c hc =>
    decide_eq_true fun heq => hd (heq ▸ hc)
  have hstr : (o.name ++ '=' :: r).takeWhile (· ≠ '#') =
      o.name ++ '=' :: r.takeWhile (· ≠ '#') := by
    rw [List.takeWhile_append_of_pos (hne' hhash), List.takeWhile_cons_of_pos (by decide)]
  have hspace : (o.name ++ '=' :: r.takeWhile (· ≠ '#')).all isSpace = false := by
    rw [List.all_eq_false]
    exact ⟨'=', by simp, by decide⟩
  have hdrop : (o.name ++ '=' :: r.takeWhile (· ≠ '#')).dropWhile (· ≠ '=') =
      '=' :: r.takeWhile (· ≠ '#') := by
    rw [List.dropWhile_append_of_pos (hne' hequal), List.dropWhile_cons_of_neg (by decide)]
  have htake : (o.name ++ '=' :: r.takeWhile (· ≠ '#')).takeWhile (· ≠ '=') = o.name := by
    rw [List.takeWhile_append_of_pos (hne' hequal), List.takeWhile_cons_of_neg (by decide),
      List.append_nil]
  simp only [readLine, hstr, hspace, Bool.false_eq_true, if_false, hdrop, htake, trim_name, config,
    hfind]

theorem readLine_blank (args : Settings) : h.readLine args ['\n'] = some args := rfl

/-- A line that is read whole sets its field. -/
theorem readConfig_line {o : Opt} {w : Text} (hne : w ≠ []) (hline : '\n' ∉ w)
    (hfits : LineFits o w) (args : Settings) :
    h.readConfig (line o w) args = some (Function.update args o (h.convert o w)) := by
  obtain ⟨-, -, hname⟩ := name_notMem o
  have hnotMem : '\n' ∉ o.name ++ '=' :: '"' :: (w ++ ['"']) := by
    simp [hname, hline]
  have hlen : (o.name ++ '=' :: '"' :: (w ++ ['"'])).length ≤ 127 := by
    have hle := hfits.2
    simp only [List.length_append, List.length_cons, List.length_nil]
    omega
  obtain ⟨e, he, rest, hrest, hread⟩ := fgets_of_fits hnotMem hlen (by simp)
  have htake : ('"' :: w ++ '"' :: e).takeWhile (· ≠ '#') = '"' :: w ++ '"' :: e := by
    rw [List.takeWhile_eq_self_iff]
    intro c hc
    refine decide_eq_true ?_
    rintro rfl
    rcases he with rfl | rfl
    · simp [hfits.1] at hc
    · simp [hfits.1] at hc
  have hpiece : o.name ++ '=' :: '"' :: (w ++ ['"']) ++ e =
      o.name ++ '=' :: ('"' :: w ++ '"' :: e) := by simp
  have hfirst := readLine_name (h := h) o ('"' :: w ++ '"' :: e) args
  rw [htake, trim_quoted w he] at hfirst
  rw [line, if_neg hne, readConfig, hread, List.foldlM_cons, hpiece, hfirst]
  rcases hrest with rfl | rfl
  · rfl
  · exact readLine_blank (h := h) _

/-! ## Lines that are not read whole -/

theorem config_cases (args : Settings) (n v : Text) :
    h.config args n v = args ∨ ∃ o, h.config args n v = Function.update args o (h.convert o v) := by
  unfold config
  split
  · exact Or.inl rfl
  · exact Or.inr ⟨_, rfl⟩

/-- What all pieces keep. -/
theorem foldlM_keeps {P : Settings → Prop} {ps : List Text}
    (hps : ∀ p ∈ ps, ∀ a a', P a → h.readLine a p = some a' → P a') {a a' : Settings} (ha : P a)
    (hfold : ps.foldlM h.readLine a = some a') : P a' := by
  induction ps generalizing a with
  | nil =>
      obtain rfl := Option.some.inj hfold
      exact ha
  | cons p ps ih =>
      rw [List.foldlM_cons, Option.bind_eq_bind, Option.bind_eq_some_iff] at hfold
      obtain ⟨b, hone, hrest⟩ := hfold
      exact ih (fun q hq => hps q (List.mem_cons_of_mem p hq))
        (hps p List.mem_cons_self a b ha hone) hrest

/-- A piece sets no field to a text of its length. -/
theorem readLine_short {p c : Text} (hlen : p.length ≤ c.length) {o : Opt}
    (ho : o.kind = .command) {a a' : Settings} (ha : a o ≠ .file (some c))
    (hread : h.readLine a p = some a') : a' o ≠ .file (some c) := by
  simp only [readLine] at hread
  split at hread
  · obtain rfl := Option.some.inj hread
    exact ha
  · split at hread
    · cases hread
    · rename_i d v hdrop
      obtain rfl := Option.some.inj hread
      have hpiece : ((p.takeWhile (· ≠ '#')).dropWhile (· ≠ '=')).length ≤ p.length :=
        (List.dropWhile_suffix _).length_le.trans (List.takeWhile_prefix _).length_le
      rw [hdrop, List.length_cons] at hpiece
      have hvalue : trim v ≠ c := by
        intro heq
        have hle := length_trim_le v
        rw [heq] at hle
        omega
      obtain hsame | ⟨x, hset⟩ := config_cases (h := h) a
        (trim ((p.takeWhile (· ≠ '#')).takeWhile (· ≠ '='))) (trim v)
      · rw [hsame]
        exact ha
      · rw [hset]
        by_cases hxo : o = x
        · subst hxo
          rw [Function.update_self]
          exact convert_ne_of_ne ho hvalue
        · rw [Function.update_of_ne hxo]
          exact ha

/-- A path whose line is not read whole is not what its field gets. -/
theorem readConfig_cut {o : Opt} (ho : o.kind = .command) {c : Text} (hpath : c.head? = some '/')
    (hline : '\n' ∉ c) (hfits : ¬ LineFits o c) {args args' : Settings}
    (hread : h.readConfig (line o c) args = some args') : args' o ≠ .file (some c) := by
  obtain ⟨-, -, hname⟩ := name_notMem o
  obtain ⟨-, -, hshort, -⟩ := name_chars o
  have hne : c ≠ [] := by
    rintro rfl
    cases hpath
  have hpos := List.length_pos_iff.mpr hne
  have hnotMem : '\n' ∉ o.name ++ '=' :: '"' :: (c ++ ['"']) := by
    simp [hname, hline]
  have hlength : (o.name ++ '=' :: '"' :: (c ++ ['"'])).length = o.name.length + c.length + 3 := by
    simp only [List.length_append, List.length_cons, List.length_nil]
    omega
  -- the first piece has a value that is cut off, the others are too short
  have hpieces : ∀ r rest, r.takeWhile (· ≠ '#') = '"' :: r.tail.takeWhile (· ≠ '#') →
      (r.tail.takeWhile (· ≠ '#')).length ≤ c.length → (∀ p ∈ rest, p.length ≤ c.length) →
      fgets (o.name ++ '=' :: '"' :: (c ++ ['"']) ++ ['\n']) = (o.name ++ '=' :: r) :: rest →
      args' o ≠ .file (some c) := by
    intro r rest hquote hcut hrest hfgets
    rw [line, if_neg hne, readConfig, hfgets, List.foldlM_cons, readLine_name] at hread
    refine foldlM_keeps (P := fun a => a o ≠ .file (some c))
      (fun p hp a a' ha hone => readLine_short (hrest p hp) ho ha hone) ?_ hread
    rw [Function.update_self, hquote]
    exact convert_ne_of_ne ho (trim_cut_ne hcut hpath)
  have htake : ∀ t : Text, ('"' :: t).takeWhile (· ≠ '#') = '"' :: t.takeWhile (· ≠ '#') :=
    fun t => List.takeWhile_cons_of_pos (by decide)
  by_cases hlong : o.name.length + c.length + 3 ≤ 127
  · have hhash : '#' ∈ c := by
      by_contra hno
      exact hfits ⟨hno, hlong⟩
    obtain ⟨e, -, rest, hrest, hfgets⟩ :=
      fgets_of_fits hnotMem (hlength.trans_le hlong) (by simp)
    refine hpieces ('"' :: (c ++ '"' :: e)) rest (htake _) ?_ ?_ ?_
    · have hlt : (c.takeWhile (· ≠ '#')).length < c.length := by
        refine lt_of_le_of_ne (List.takeWhile_prefix _).length_le fun heq => ?_
        have hself := (List.takeWhile_prefix (· ≠ '#') (l := c)).eq_of_length heq
        exact absurd (List.takeWhile_eq_self_iff.mp hself '#' hhash) (by decide)
      rw [List.tail_cons, List.takeWhile_append, if_neg hlt.ne]
      exact hlt.le
    · rcases hrest with rfl | rfl
      · exact fun p hp => absurd hp List.not_mem_nil
      · intro p hp
        rw [List.mem_singleton.mp hp]
        exact hpos
    · rw [hfgets]
      simp
  · have hfgets := fgets_of_long hnotMem (by rw [hlength]; omega) ['\n']
    have hsplit : (o.name ++ '=' :: '"' :: (c ++ ['"'])).take 127 =
        o.name ++ '=' :: '"' :: (c ++ ['"']).take (125 - o.name.length) := by
      have hcount : 127 - o.name.length = (125 - o.name.length) + 1 + 1 := by omega
      rw [List.take_append, List.take_of_length_le (by omega), hcount, List.take_succ_cons,
        List.take_succ_cons]
    refine hpieces ('"' :: (c ++ ['"']).take (125 - o.name.length))
      (fgets ((o.name ++ '=' :: '"' :: (c ++ ['"'])).drop 127 ++ ['\n'])) (htake _) ?_ ?_ ?_
    · rw [List.tail_cons]
      refine (List.takeWhile_prefix _).length_le.trans ?_
      rw [List.length_take]
      omega
    · intro p hp
      have hle := (List.sublist_flatten_of_mem hp).length_le
      rw [flatten_fgets, List.length_append, List.length_drop, hlength,
        List.length_singleton] at hle
      omega
    · rw [hfgets, hsplit]

/-- The program dies of a piece that is not blank and has no `=`. -/
theorem readLine_dies {p : Text} (hequal : '=' ∉ p) (hhash : '#' ∉ p) (hquote : '"' ∈ p)
    (args : Settings) : h.readLine args p = none := by
  have hne : ∀ {d : Char}, d ∉ p → ∀ c ∈ p, (decide (c ≠ d)) = true := fun hd c hc =>
    decide_eq_true fun heq => hd (heq ▸ hc)
  have hstr : p.takeWhile (· ≠ '#') = p := List.takeWhile_eq_self_iff.mpr (hne hhash)
  have hblank : p.all isSpace = false := List.all_eq_false.mpr ⟨'"', hquote, by decide⟩
  have hnone : p.dropWhile (· ≠ '=') = [] := List.dropWhile_eq_nil_iff.mpr (hne hequal)
  simp only [readLine, hstr, hblank, Bool.false_eq_true, if_false, hnone]

theorem foldlM_dies {p : Text} (hdies : ∀ a, h.readLine a p = none) {ps : List Text} (hp : p ∈ ps)
    (args : Settings) : ps.foldlM h.readLine args = none := by
  induction ps generalizing args with
  | nil => exact absurd hp List.not_mem_nil
  | cons q ps ih =>
      rw [List.foldlM_cons, Option.bind_eq_bind, Option.bind_eq_none_iff]
      intro b hb
      rcases List.mem_cons.mp hp with rfl | hp
      · rw [hdies args] at hb
        cases hb
      · exact ih hp b

/-- A long line with no second `=` has such a piece. -/
theorem readConfig_dies {o : Opt} {w : Text} (hline : '\n' ∉ w) (hequal : '=' ∉ w)
    (hhash : '#' ∉ w) (hlong : 127 < o.name.length + w.length + 3) (args : Settings) :
    h.readConfig (line o w) args = none := by
  obtain ⟨-, -, hname⟩ := name_notMem o
  obtain ⟨-, -, hshort, -⟩ := name_chars o
  have hne : w ≠ [] := by
    rintro rfl
    rw [List.length_nil] at hlong
    omega
  have hnotMem : '\n' ∉ o.name ++ '=' :: '"' :: (w ++ ['"']) := by
    simp [hname, hline]
  have hfgets := fgets_of_long hnotMem (by simp; omega) ['\n']
  have hdrop : (o.name ++ '=' :: '"' :: (w ++ ['"'])).drop 127 =
      w.drop (125 - o.name.length) ++ ['"'] := by
    have hcount : 127 - o.name.length = (125 - o.name.length) + 1 + 1 := by omega
    rw [List.drop_append, List.drop_eq_nil_of_le (by omega), List.nil_append, hcount,
      List.drop_succ_cons, List.drop_succ_cons, List.drop_append_of_le_length (by omega)]
  have hflatten : (fgets (w.drop (125 - o.name.length) ++ ['"'] ++ ['\n'])).flatten =
      w.drop (125 - o.name.length) ++ ['"'] ++ ['\n'] :=
    flatten_fgets _
  -- the piece with the closing quote
  obtain ⟨p, hp, hquote⟩ :
      ∃ p ∈ fgets (w.drop (125 - o.name.length) ++ ['"'] ++ ['\n']), '"' ∈ p := by
    rw [← List.mem_flatten, hflatten]
    simp
  have hsub : ∀ {d : Char}, d ∉ w → d ≠ '"' → d ≠ '\n' → d ∉ p := by
    intro d hd hquoted hnewline hmem
    have hmem' := List.mem_flatten_of_mem hp hmem
    rw [hflatten, List.mem_append, List.mem_append, List.mem_singleton, List.mem_singleton] at hmem'
    rcases hmem' with (hmem' | hmem') | hmem'
    · exact hd (List.mem_of_mem_drop hmem')
    · exact hquoted hmem'
    · exact hnewline hmem'
  have hdies := readLine_dies (h := h) (hsub hequal (by decide) (by decide))
    (hsub hhash (by decide) (by decide)) hquote
  rw [line, if_neg hne, readConfig, hfgets, hdrop, List.foldlM_cons, Option.bind_eq_bind,
    Option.bind_eq_none_iff]
  exact fun b _ => foldlM_dies hdies hp b

/-! ## Files of such lines -/

theorem readConfig_nil (args : Settings) : h.readConfig [] args = some args := rfl

theorem readConfig_line_append (o : Opt) (w t : Text) (args : Settings) :
    h.readConfig (line o w ++ t) args = (h.readConfig (line o w) args).bind (h.readConfig t) := by
  by_cases hw : w = []
  · rw [line, if_pos hw]
    rfl
  · rw [line, if_neg hw, List.append_assoc, List.singleton_append, readConfig, fgets,
      fgetsFrom_append, List.foldlM_append]
    rfl

/-- Every line that fits sets its field, and no other is set. -/
theorem readConfig_lines {u : Opt → Text} {os : List Opt} (hdistinct : os.Nodup)
    (hline : ∀ o ∈ os, '\n' ∉ u o) (hfits : ∀ o ∈ os, u o ≠ [] → LineFits o (u o))
    (args : Settings) :
    ∃ args', h.readConfig (os.flatMap fun o => line o (u o)) args = some args' ∧
      (∀ o ∈ os, u o ≠ [] → args' o = h.convert o (u o)) ∧
        ∀ o, (o ∈ os → u o = []) → args' o = args o := by
  induction os generalizing args with
  | nil => exact ⟨args, readConfig_nil args, fun o ho => absurd ho List.not_mem_nil, fun o _ => rfl⟩
  | cons p os ih =>
      rw [List.nodup_cons] at hdistinct
      have hrest := ih hdistinct.2 (fun o ho => hline o (List.mem_cons_of_mem p ho))
        fun o ho => hfits o (List.mem_cons_of_mem p ho)
      rw [List.flatMap_cons, readConfig_line_append]
      by_cases hp : u p = []
      · obtain ⟨args', hread, hset, hkept⟩ := hrest args
        have hfirst : h.readConfig (line p (u p)) args = some args := by
          rw [line, if_pos hp]
          rfl
        refine ⟨args', by rw [hfirst]; exact hread, fun o ho hne => ?_, fun o ho => ?_⟩
        · rcases List.mem_cons.mp ho with rfl | ho
          · exact absurd hp hne
          · exact hset o ho hne
        · exact hkept o fun hmem => ho (List.mem_cons_of_mem p hmem)
      · obtain ⟨args', hread, hset, hkept⟩ := hrest (Function.update args p (h.convert p (u p)))
        have hfirst := readConfig_line (h := h) hp (hline p List.mem_cons_self)
          (hfits p List.mem_cons_self hp) args
        refine ⟨args', by rw [hfirst]; exact hread, fun o ho hne => ?_, fun o ho => ?_⟩
        · rcases List.mem_cons.mp ho with rfl | ho
          · rw [hkept o fun hmem => absurd hmem hdistinct.1, Function.update_self]
          · exact hset o ho hne
        · have hop : o ≠ p := by
            rintro rfl
            exact hp (ho List.mem_cons_self)
          rw [hkept o fun hmem => ho (List.mem_cons_of_mem p hmem), Function.update_of_ne hop]

/-- Only lines that fit give every command its path. -/
theorem fits_of_readConfig {u : Opt → Text} {os : List Opt} (hdistinct : os.Nodup)
    (hline : ∀ o ∈ os, '\n' ∉ u o)
    (hpath : ∀ o ∈ os, o.kind = .command → u o ≠ [] → (u o).head? = some '/')
    (hplain : ∀ o ∈ os, o.kind ≠ .command → '=' ∉ u o ∧ '#' ∉ u o) {args args' : Settings}
    (hread : h.readConfig (os.flatMap fun o => line o (u o)) args = some args')
    (hset : ∀ o ∈ os, o.kind = .command → u o ≠ [] → args' o = .file (some (u o))) :
    ∀ o ∈ os, u o ≠ [] → LineFits o (u o) := by
  induction os generalizing args with
  | nil => exact fun o ho => absurd ho List.not_mem_nil
  | cons p os ih =>
      rw [List.nodup_cons] at hdistinct
      have hline' := fun o ho => hline o (List.mem_cons_of_mem p ho)
      rw [List.flatMap_cons, readConfig_line_append] at hread
      obtain ⟨b, hfirst, hothers⟩ := Option.bind_eq_some_iff.mp hread
      have hrest := ih hdistinct.2 hline' (fun o ho => hpath o (List.mem_cons_of_mem p ho))
        (fun o ho => hplain o (List.mem_cons_of_mem p ho)) hothers
        fun o ho => hset o (List.mem_cons_of_mem p ho)
      intro o ho hne
      rcases List.mem_cons.mp ho with rfl | ho
      · -- the lines behind leave the field alone
        obtain ⟨c, hread', -, hkept⟩ := readConfig_lines (h := h) hdistinct.2 hline' hrest b
        obtain rfl := Option.some.inj (hothers.symm.trans hread')
        have hsame := hkept o fun hmem => absurd hmem hdistinct.1
        by_contra hno
        by_cases hkind : o.kind = .command
        · have hcut := readConfig_cut hkind (hpath o List.mem_cons_self hkind hne)
            (hline o List.mem_cons_self) hno hfirst
          rw [← hsame] at hcut
          exact hcut (hset o List.mem_cons_self hkind hne)
        · obtain ⟨hequal, hhash⟩ := hplain o List.mem_cons_self hkind
          have hlong : 127 < o.name.length + (u o).length + 3 :=
            Nat.lt_of_not_le fun hle => hno ⟨hhash, hle⟩
          rw [readConfig_dies (hline o List.mem_cons_self) hequal hhash hlong] at hfirst
          cases hfirst
      · exact hrest o ho hne

end Daemon

end AltF.Sysctrl
