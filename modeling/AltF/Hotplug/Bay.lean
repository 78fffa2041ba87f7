/-
  Hotplug/Bay.lean --- hot.sh, the disks: `add_disk` and `remove_disk`, as far as the
  strings a disk reports go: through awk into an `eval`, from there into /etc/bay,
  and back through `.`.

  `none` is an evaluation that does anything but assign.
-/
import Mathlib.Data.List.Infix
import AltF.Shell.Indirect

set_option autoImplicit false

namespace AltF.Hotplug

open AltF.Shell AltF.SysFiles

/-! ## The script's surroundings -/

/-- A run of hot.sh: the files a pattern may match, the variables it starts with, and
those after `. $MISCC` when that file is not empty. -/
structure Process where
  glob : Text → List Text
  env : Env
  misc : Option Env
  globs : Globs glob
  /-- The variables that only the script sets. -/
  unset : ∀ n ∈ ["fam".toList, "mod".toList, "smart".toList, "UUID".toList], env n = []

/-- `echo t >> file`: the line, with `t` not quoted. -/
def Process.echo (sh : Process) (t : Text) : Text := join (expand sh.glob t)

/-- `eval $(...)` -/
def Process.evalOutput (sh : Process) (env : Env) (out : Text) : Option Env :=
  evalWords sh.glob env (commandSubst out)

/-! ## The disk -/

/-- `$bay` -/
inductive Slot where
  | right
  | left
  | usb
  | unk
  deriving DecidableEq, Repr

/-- "Model Family:", as smartctl prints it. -/
def familyLabel : Text := "Model Family:     ".toList

/-- "Device Model:" -/
def modelLabel : Text := "Device Model:     ".toList

/-- `awk`'s `index`. -/
def index (s t : Text) : Nat :=
  if t = [] then 0
  else
    match s.tails.findIdx? t.isPrefixOf with
    | some i => i + 1
    | none => 0

/-- `gensub("\"","","g",substr($0, index($0,$3)))` -/
def awkValue (line : Text) : Text :=
  unquote (line.drop (index line ((words line).getD 2 []) - 1))

/-- `n="v";` -/
def quoted (n v : Text) : Text := n ++ '=' :: '"' :: v ++ ['"', ';']

/-- `/^SMART support is:.*Enabled/` -/
def isSmartLine (line : Text) : Bool :=
  "SMART support is:".toList.isPrefixOf line &&
    (line.drop 17).tails.any fun t => "Enabled".toList.isPrefixOf t

/-- What the program prints for a line. -/
def awkLine (line : Text) : Text :=
  (if "Model Family".toList.isPrefixOf line then quoted "fam".toList (awkValue line) else []) ++
  (if "Device Model".toList.isPrefixOf line then quoted "mod".toList (awkValue line) else []) ++
  (if isSmartLine line then "smart=yes;\n".toList else [])

/-- The characters of a kernel's device name. -/
def deviceChars : Text := "abcdefghijklmnopqrstuvwxyz0123456789".toList

/-- A disk, as `add_disk` finds it. -/
structure Disk where
  /-- `$MDEV` -/
  mdev : Text
  slot : Slot
  /-- The model family and the model, when smartctl prints them. -/
  family : Option Text
  model : Option Text
  /-- smartctl prints that SMART support is enabled. -/
  smart : Bool
  /-- The other lines that smartctl prints. -/
  before : List Text
  between : List Text
  behind : List Text
  /-- /sys/block/$MDEV/device/vendor, and model, without the newline. -/
  vendor : Text
  sysModel : Text
  /-- `$cap`, digits and a unit. -/
  cap : Text
  mdev_name : isName mdev = true
  mdev_chars : mdev.all deviceChars.contains = true
  cap_simple : cap.all isSimple = true
  others : ∀ l ∈ before ++ between ++ behind, awkLine l = []

namespace Disk

variable (d : Disk)

/-- `$bay` -/
def bay : Text :=
  match d.slot with
  | .right => "right".toList
  | .left => "left".toList
  | .usb => "usb".toList ++ d.mdev.drop 2
  | .unk => "unk".toList ++ d.mdev.drop 2

/-- `smartctl -i` -/
def smartctl : List Text :=
  d.before ++ d.family.toList.map (familyLabel ++ ·) ++ d.between ++
    d.model.toList.map (modelLabel ++ ·) ++ d.behind ++
    if d.smart then ["SMART support is: Enabled".toList] else []

/-- What awk makes of that. -/
def awk : Text := d.smartctl.flatMap awkLine

/-- The family and the model that are shown: those smartctl prints when SMART is
enabled, and else those of the kernel. -/
def reported : Text × Text :=
  if d.smart then (d.family.getD [], d.model.getD []) else (d.vendor, d.sysModel)

end Disk

/-! ## /etc/bay -/

/-- `sed -i '/^p/d'` -/
def deleteLines (p : Text) (bay : List Text) : List Text := bay.filter fun l => !p.isPrefixOf l

/-- The file. -/
def bayText (bay : List Text) : Text := bay.flatMap (· ++ ['\n'])

/-- `tr 'a-z' 'A-Z'` -/
def upper (c : Char) : Char := if 'a' ≤ c ∧ c ≤ 'z' then Char.ofNat (c.toNat - 32) else c

/-- `eval pm=...` and `eval tm=...`, when there is a misc.conf. -/
def evalPower (sh : Process) (d : Disk) : Option Unit :=
  match sh.misc with
  | none => some ()
  | some env => do
      let env ← evalIndirect sh.glob upper env "pm".toList ("HDPOWER_".toList ++ d.bay)
      let _ ← evalIndirect sh.glob upper env "tm".toList ("HDSLEEP_".toList ++ d.bay)
      some ()

/-- The variables `fam` and `mod`. -/
def evalDisk (sh : Process) (d : Disk) : Option (Text × Text) := do
  let env ← sh.evalOutput sh.env d.awk
  if env "smart".toList = [] then
    some (commandSubst (d.vendor ++ ['\n']), commandSubst (d.sysModel ++ ['\n']))
  else some (env "fam".toList, env "mod".toList)

/-- `n="t"` -/
def assignLine (n t : Text) : Text := n ++ '=' :: '"' :: t ++ ['"']

/-- The lines that `add_disk` writes. -/
def newLines (sh : Process) (d : Disk) (fam mod : Text) : List Text :=
  [sh.echo (d.bay ++ "_dev".toList ++ '=' :: d.mdev), sh.echo (d.mdev ++ '=' :: d.bay),
    sh.echo (assignLine (d.bay ++ "_cap".toList) d.cap),
    sh.echo (assignLine (d.bay ++ "_fam".toList) fam),
    sh.echo (assignLine (d.bay ++ "_mod".toList) mod)]

/-- `add_disk` -/
def addDisk (sh : Process) (d : Disk) (bay : List Text) : Option (List Text) := do
  let bay := deleteLines d.mdev (deleteLines (d.bay ++ ['_']) bay)
  let (fam, mod) ← evalDisk sh d
  evalPower sh d
  some (bay ++ newLines sh d fam mod)

/-- `remove_disk` -/
def removeDisk (sh : Process) (mdev : Text) (bay : List Text) : Option (List Text) := do
  let env ← evalText nothing sh.env (bayText bay)
  let slot := sh.echo (env mdev)
  some (if slot = [] then bay else deleteLines mdev (deleteLines (slot ++ ['_']) bay))

/-! ## awk -/

/-- The first word of a text. -/
def firstWord (t : Text) : Text := t.takeWhile fun c => !isBlank c

/-- The first word of `f` begins nowhere earlier in the line. -/
def FirstHere (label f : Text) : Prop :=
  firstWord f ≠ [] ∧ ∀ k < label.length, ¬ firstWord f <+: (label ++ f).drop k

theorem words_eq_firstWord_cons {t : Text} (ht : firstWord t ≠ []) :
    ∃ rest, words t = firstWord t :: rest := by
  have hblank : ∀ c ∈ firstWord t, isBlank c = false := by
    intro c hc
    simpa using List.mem_takeWhile_imp hc
  have hsplit : firstWord t ++ t.dropWhile (fun c => !isBlank c) = t :=
    List.takeWhile_append_dropWhile
  cases hrest : t.dropWhile fun c => !isBlank c with
  | nil =>
      rw [hrest, List.append_nil] at hsplit
      refine ⟨[], ?_⟩
      have hword := words_eq_singleton ht hblank
      rwa [hsplit] at hword ⊢
  | cons c u =>
      have hc : isBlank c = true := by
        have hhead := List.head?_dropWhile_not (fun c => !isBlank c) t
        rw [hrest] at hhead
        simpa using hhead
      rw [hrest] at hsplit
      refine ⟨words u, ?_⟩
      have hwords := words_append_cons (firstWord t) u hc
      rw [hsplit, words_eq_singleton ht hblank] at hwords
      exact hwords

theorem index_of_firstHere {label f : Text} (h : FirstHere label f) :
    index (label ++ f) (firstWord f) = label.length + 1 := by
  have hfind : (label ++ f).tails.findIdx? (firstWord f).isPrefixOf = some label.length := by
    rw [List.findIdx?_eq_some_iff_getElem]
    refine ⟨by rw [List.length_tails, List.length_append]; omega, ?_, fun j hj => ?_⟩
    · rw [List.getElem_tails, List.drop_left', List.isPrefixOf_iff_prefix]
      · exact List.takeWhile_prefix _
      · rfl
    · rw [List.getElem_tails, List.isPrefixOf_iff_prefix]
      exact h.2 j hj
  rw [index, if_neg h.1, hfind]

/-- The label has two words and ends with a blank. -/
theorem awkValue_of_firstHere {label f : Text} {a b : Text} (hlabel : words label = [a, b])
    (hblank : ∃ l, label = l ++ [' ']) (h : FirstHere label f) :
    awkValue (label ++ f) = unquote f := by
  obtain ⟨rest, hrest⟩ := words_eq_firstWord_cons h.1
  obtain ⟨l, rfl⟩ := hblank
  have hwords : words (l ++ [' '] ++ f) = a :: b :: firstWord f :: rest := by
    have hl : words (l ++ [' ']) = words l := by
      rw [words_append_cons l [] rfl]
      exact List.append_nil _
    rw [List.append_assoc, List.singleton_append, words_append_cons l f rfl, ← hl, hlabel, hrest]
    rfl
  have hthird : (words (l ++ [' '] ++ f)).getD 2 [] = firstWord f := by
    rw [hwords]
    rfl
  rw [awkValue, hthird, index_of_firstHere h, Nat.add_sub_cancel, List.drop_left' rfl]

namespace Disk

variable (d : Disk)

/-- The variables that awk's output sets. -/
def pairs : List (Text × Text) :=
  d.family.toList.map (fun f => ("fam".toList, awkValue (familyLabel ++ f))) ++
    d.model.toList.map fun m => ("mod".toList, awkValue (modelLabel ++ m))

theorem awkLine_family (f : Text) :
    awkLine (familyLabel ++ f) = quoted "fam".toList (awkValue (familyLabel ++ f)) := by
  have hfamily : "Model Family".toList.isPrefixOf (familyLabel ++ f) = true := rfl
  have hmodel : "Device Model".toList.isPrefixOf (familyLabel ++ f) = false := rfl
  have hsmart : isSmartLine (familyLabel ++ f) = false := rfl
  unfold awkLine
  rw [hfamily, hmodel, hsmart, if_pos rfl, if_neg nofun, if_neg nofun, List.append_nil,
    List.append_nil]

theorem awkLine_model (m : Text) :
    awkLine (modelLabel ++ m) = quoted "mod".toList (awkValue (modelLabel ++ m)) := by
  have hfamily : "Model Family".toList.isPrefixOf (modelLabel ++ m) = false := rfl
  have hmodel : "Device Model".toList.isPrefixOf (modelLabel ++ m) = true := rfl
  have hsmart : isSmartLine (modelLabel ++ m) = false := rfl
  unfold awkLine
  rw [hfamily, hmodel, hsmart, if_pos rfl, if_neg nofun, if_neg nofun, List.append_nil,
    List.nil_append]

/-- What awk prints. -/
theorem awk_eq : d.awk = d.pairs.flatMap (fun x => quoted x.1 x.2) ++
    if d.smart then "smart=yes;\n".toList else [] := by
  have hothers : ∀ ls : List Text, (∀ l ∈ ls, l ∈ d.before ++ d.between ++ d.behind) →
      ls.flatMap awkLine = [] := fun ls hls =>
    List.flatMap_eq_nil_iff.mpr fun l hl => d.others l (hls l hl)
  have hsmart : (if d.smart then ["SMART support is: Enabled".toList] else []).flatMap awkLine =
      if d.smart then "smart=yes;\n".toList else [] := by
    cases d.smart with
    | false => rfl
    | true => decide
  unfold awk smartctl pairs
  simp only [List.flatMap_append, hsmart, List.flatMap_map]
  rw [hothers d.before (by simp +contextual), hothers d.between (by simp +contextual),
    hothers d.behind (by simp +contextual), List.append_nil, List.append_nil, List.nil_append]
  simp only [awkLine_family, awkLine_model]

end Disk

/-! ## The evaluated text -/

section Quoted

theorem startsSolid_flatMap {xs : List (Text × Text)} {u : Text}
    (hxs : ∀ x ∈ xs, isName x.1 = true) (hu : StartsSolid u) :
    StartsSolid (xs.flatMap (fun x => quoted x.1 x.2) ++ u) := by
  cases xs with
  | nil => exact hu
  | cons x xs =>
      have hname := hxs x List.mem_cons_self
      cases hx : x.1 with
      | nil =>
          rw [hx] at hname
          cases hname
      | cons c n =>
          rw [hx, isName, Bool.and_eq_true] at hname
          intro d hd
          have hcd : c = d := by simpa [quoted, hx] using hd
          exact hcd ▸ not_blank_of_isNameStart hname.1

theorem endsSolid_flatMap (xs : List (Text × Text)) :
    EndsSolid (xs.flatMap fun x => quoted x.1 x.2) := by
  induction xs using List.reverseRecOn with
  | nil => exact nofun
  | append_singleton xs x _ =>
      have hquoted : EndsSolid (quoted x.1 x.2) := by
        have hsplit : quoted x.1 x.2 = (x.1 ++ '=' :: '"' :: x.2 ++ ['"']) ++ [';'] := by
          simp [quoted]
        intro c hc
        rw [hsplit, List.getLast?_concat] at hc
        obtain rfl : ';' = c := by simpa using hc
        rfl
      rw [List.flatMap_append, List.flatMap_singleton]
      exact hquoted.append _ (by simp [quoted])

theorem squeeze_quoted {n : Text} (hn : isName n = true) (v u : Text) :
    squeeze (quoted n v ++ u) = quoted n (squeeze v) ++ squeeze u := by
  have hsplit : quoted n v ++ u = n ++ '=' :: '"' :: (v ++ '"' :: ';' :: u) := by simp [quoted]
  rw [hsplit, squeeze_append_of_not_blank (not_blank_of_isName hn),
    squeeze_cons_of_not_blank rfl, squeeze_cons_of_not_blank rfl, squeeze_append_cons v _ rfl,
    squeeze_cons_of_not_blank rfl]
  simp [quoted]

theorem squeeze_flatMap {xs : List (Text × Text)} (hxs : ∀ x ∈ xs, isName x.1 = true) (u : Text) :
    squeeze (xs.flatMap (fun x => quoted x.1 x.2) ++ u) =
      (xs.map fun x => (x.1, squeeze x.2)).flatMap (fun x => quoted x.1 x.2) ++ squeeze u := by
  induction xs with
  | nil => rfl
  | cons x xs ih =>
      rw [List.flatMap_cons, List.append_assoc, squeeze_quoted (hxs x List.mem_cons_self),
        ih fun y hy => hxs y (List.mem_cons_of_mem x hy), List.map_cons, List.flatMap_cons,
        List.append_assoc]

/-- Quoted assignments with intact text, one behind the other. -/
theorem read_flatMap {xs : List (Text × Text)}
    (hxs : ∀ x ∈ xs, isName x.1 = true ∧ intact true x.2 = true) (env : Env) (u : Text) :
    read nothing (env, .start) (xs.flatMap (fun x => quoted x.1 x.2) ++ u) =
      read nothing (assignAll env (xs.map fun x => (x.1, unquote x.2)), .start) u := by
  induction xs generalizing env with
  | nil => rfl
  | cons x xs ih =>
      obtain ⟨hname, hintact⟩ := hxs x List.mem_cons_self
      have hread := read_quoted_assignment nothing (.inl rfl) env hname hintact (.inl rfl)
      rw [List.flatMap_cons, List.append_assoc, read_append, quoted, hread,
        ih fun y hy => hxs y (List.mem_cons_of_mem x hy)]
      rfl

end Quoted

namespace Disk

variable (d : Disk)

theorem isName_pairs : ∀ x ∈ d.pairs, isName x.1 = true := by
  intro x hx
  rw [pairs, List.mem_append, List.mem_map, List.mem_map] at hx
  have hfam : isName "fam".toList = true := by decide
  have hmod : isName "mod".toList = true := by decide
  rcases hx with ⟨f, -, rfl⟩ | ⟨m, -, rfl⟩
  · exact hfam
  · exact hmod

/-- `smart=yes;` -/
def smartText : Text := if d.smart then "smart=yes;".toList else []

theorem commandSubst_awk :
    commandSubst d.awk = d.pairs.flatMap (fun x => quoted x.1 x.2) ++ d.smartText := by
  rw [awk_eq, smartText]
  cases d.smart with
  | false =>
      simp only [Bool.false_eq_true, if_false, List.append_nil]
      exact commandSubst_of_endsSolid (endsSolid_flatMap d.pairs)
  | true =>
      have hnewline : "smart=yes;\n".toList = "smart=yes;".toList ++ ['\n'] := rfl
      have hsolid : EndsSolid "smart=yes;".toList := by
        intro c hc
        obtain rfl : ';' = c := by simpa using hc
        rfl
      simp only [if_true]
      rw [hnewline, ← List.append_assoc, commandSubst_append_newline,
        commandSubst_of_endsSolid (hsolid.append _ (by decide))]

/-- The variables that the evaluation sets. -/
def assigned : List (Text × Text) :=
  d.pairs.map (fun x => (x.1, unquote (squeeze x.2))) ++
    if d.smart then [("smart".toList, "yes".toList)] else []

theorem mem_assigned {x : Text × Text} (hx : x ∈ d.pairs) :
    (x.1, unquote (squeeze x.2)) ∈ d.assigned :=
  List.mem_append_left _ (List.mem_map_of_mem (f := fun x => (x.1, unquote (squeeze x.2))) hx)

/-- The names of the variables that are set. -/
def setNames (family model smart : Bool) : List Text :=
  (if family then ["fam".toList] else []) ++ (if model then ["mod".toList] else []) ++
    if smart then ["smart".toList] else []

theorem assigned_names :
    d.assigned.map Prod.fst = setNames d.family.isSome d.model.isSome d.smart := by
  have hone : ∀ (o : Option Text) (n : Text),
      o.toList.map (fun _ => n) = if o.isSome then [n] else [] := by
    intro o n
    cases o <;> rfl
  have hsmart : (if d.smart then [("smart".toList, "yes".toList)] else []).map Prod.fst =
      if d.smart then ["smart".toList] else [] := by
    cases d.smart <;> rfl
  unfold assigned pairs setNames
  rw [List.map_append, hsmart, List.map_map, List.map_append, List.map_map, List.map_map, ← hone,
    ← hone]
  rfl

/-- Each variable is set once, and only when its line is there. -/
theorem assigned_names_of : (d.assigned.map Prod.fst).Nodup ∧
    (d.family = none → "fam".toList ∉ d.assigned.map Prod.fst) ∧
    (d.model = none → "mod".toList ∉ d.assigned.map Prod.fst) ∧
    (d.smart = false → "smart".toList ∉ d.assigned.map Prod.fst) := by
  have htable : ∀ family model smart : Bool, (setNames family model smart).Nodup ∧
      (family = false → "fam".toList ∉ setNames family model smart) ∧
      (model = false → "mod".toList ∉ setNames family model smart) ∧
      (smart = false → "smart".toList ∉ setNames family model smart) := by decide +kernel
  obtain ⟨hnodup, hfamily, hmodel, hsmart⟩ := htable d.family.isSome d.model.isSome d.smart
  rw [assigned_names]
  refine ⟨hnodup, fun h => hfamily ?_, fun h => hmodel ?_, hsmart⟩
  · rw [h]
    rfl
  · rw [h]
    rfl

end Disk

/-- **The evaluation of awk's output** sets its variables, and does nothing else, when
the text is intact. -/
theorem evalOutput_awk {sh : Process} {d : Disk}
    (hglob : ∀ w ∈ words (commandSubst d.awk), sh.glob w = [w])
    (hintact : ∀ x ∈ d.pairs, intact true (squeeze x.2) = true) :
    sh.evalOutput sh.env d.awk = some (assignAll sh.env d.assigned) := by
  have hsolid : StartsSolid d.smartText ∧ EndsSolid d.smartText ∧
      squeeze d.smartText = d.smartText := by
    unfold Disk.smartText
    cases d.smart with
    | false => exact ⟨nofun, nofun, rfl⟩
    | true =>
        refine ⟨fun c hc => ?_, fun c hc => ?_, by decide⟩
        · obtain rfl : 's' = c := by simpa using hc
          rfl
        · obtain rfl : ';' = c := by simpa using hc
          rfl
  have hends : EndsSolid (d.pairs.flatMap (fun x => quoted x.1 x.2) ++ d.smartText) := by
    by_cases hnil : d.smartText = []
    · rw [hnil, List.append_nil]
      exact endsSolid_flatMap d.pairs
    · exact hsolid.2.1.append _ hnil
  have hpairs : ∀ x ∈ d.pairs.map (fun x => (x.1, squeeze x.2)),
      isName x.1 = true ∧ intact true x.2 = true := by
    intro x hx
    obtain ⟨y, hy, rfl⟩ := List.mem_map.mp hx
    exact ⟨d.isName_pairs y hy, hintact y hy⟩
  have hsmart : ∀ env, finish (read nothing (env, .start) d.smartText) =
      some (assignAll env (if d.smart then [("smart".toList, "yes".toList)] else [])) := by
    intro env
    unfold Disk.smartText
    cases d.smart with
    | false => rfl
    | true => rfl
  unfold Process.evalOutput evalWords evalText
  rw [expand_of_kept hglob, d.commandSubst_awk,
    join_words (startsSolid_flatMap d.isName_pairs hsolid.1) hends,
    squeeze_flatMap d.isName_pairs, hsolid.2.2, read_flatMap hpairs, hsmart, Disk.assigned]
  unfold assignAll
  rw [List.foldl_append, List.map_map]
  rfl

/-! ## Names -/

theorem isSimple_of_deviceChar {c : Char} (hc : deviceChars.contains c = true) :
    isSimple c = true ∧ isNameChar c = true ∧ isSimple (upper c) = true := by
  have hall : deviceChars.all (fun c => isSimple c && (isNameChar c && isSimple (upper c))) =
      true := by decide +kernel
  have hc' := List.all_eq_true.mp hall c (List.contains_iff_mem.mp hc)
  rw [Bool.and_eq_true, Bool.and_eq_true] at hc'
  exact hc'

namespace Disk

variable (d : Disk)

theorem bay_chars : d.bay.all deviceChars.contains = true := by
  have hdrop : (d.mdev.drop 2).all deviceChars.contains = true := by
    rw [List.all_eq_true]
    exact fun c hc => List.all_eq_true.mp d.mdev_chars c (List.mem_of_mem_drop hc)
  have hnames : "right".toList.all deviceChars.contains = true ∧
      "left".toList.all deviceChars.contains = true ∧
      "usb".toList.all deviceChars.contains = true ∧
      "unk".toList.all deviceChars.contains = true := by decide
  unfold bay
  cases d.slot with
  | right => exact hnames.1
  | left => exact hnames.2.1
  | usb => rw [List.all_append, hdrop, hnames.2.2.1, Bool.and_true]
  | unk => rw [List.all_append, hdrop, hnames.2.2.2, Bool.and_true]

/-- The name of a variable of the bay. -/
theorem isName_bay {t : Text} (ht : t.all isNameChar = true) : isName (d.bay ++ t) = true := by
  have hchars : d.bay.all isNameChar = true :=
    List.all_eq_true.mpr fun c hc =>
      (isSimple_of_deviceChar (List.all_eq_true.mp d.bay_chars c hc)).2.1
  have hstart : ∃ c u, d.bay = c :: u ∧ isNameStart c = true := by
    unfold bay
    cases d.slot with
    | right => exact ⟨'r', "ight".toList, rfl, rfl⟩
    | left => exact ⟨'l', "eft".toList, rfl, rfl⟩
    | usb => exact ⟨'u', "sb".toList ++ d.mdev.drop 2, rfl, rfl⟩
    | unk => exact ⟨'u', "nk".toList ++ d.mdev.drop 2, rfl, rfl⟩
  obtain ⟨c, u, hbay, hc⟩ := hstart
  rw [hbay, List.all_cons, Bool.and_eq_true] at hchars
  rw [hbay, List.cons_append, isName, hc, List.all_append, hchars.2, ht]
  rfl

theorem simple_bay : d.bay.all isSimple = true :=
  List.all_eq_true.mpr fun c hc =>
    (isSimple_of_deviceChar (List.all_eq_true.mp d.bay_chars c hc)).1

theorem simple_mdev : d.mdev.all isSimple = true :=
  List.all_eq_true.mpr fun c hc =>
    (isSimple_of_deviceChar (List.all_eq_true.mp d.mdev_chars c hc)).1

theorem simple_upper_bay : (d.bay.map upper).all isSimple = true := by
  rw [List.all_map, List.all_eq_true]
  exact fun c hc => (isSimple_of_deviceChar (List.all_eq_true.mp d.bay_chars c hc)).2.2

end Disk

/-- The power settings are assignments. -/
theorem evalPower_eq (sh : Process) (d : Disk) : evalPower sh d = some () := by
  have hpower : ∀ env n (y : Text), isName n = true → n.all solidChar = true →
      ('H' :: y).all isSimple = true → (('H' :: y).map upper).all isSimple = true →
      ∃ w, evalIndirect sh.glob upper env n ('H' :: y ++ d.bay) =
        some (Function.update env n w) := by
    intro env n y hn hsolid hy hupper
    refine evalIndirect_of_simple sh.globs env hn hsolid (by decide) (by decide) ?_ ?_
    · change (('H' :: y) ++ d.bay).all solidChar = true
      rw [List.all_append, all_solidChar hy, all_solidChar d.simple_bay, Bool.and_true]
    · change ((('H' :: y) ++ d.bay).map upper).all isSimple = true
      rw [List.map_append, List.all_append, hupper, d.simple_upper_bay, Bool.and_true]
  unfold evalPower
  cases sh.misc with
  | none => rfl
  | some env =>
      obtain ⟨w, hpm⟩ := hpower env "pm".toList "DPOWER_".toList (by decide) (by decide)
        (by decide) (by decide)
      obtain ⟨w', htm⟩ := hpower (Function.update env "pm".toList w) "tm".toList
        "DSLEEP_".toList (by decide) (by decide) (by decide) (by decide)
      have hpm' : evalIndirect sh.glob upper env "pm".toList ("HDPOWER_".toList ++ d.bay) =
          some (Function.update env "pm".toList w) := hpm
      have htm' : evalIndirect sh.glob upper (Function.update env "pm".toList w) "tm".toList
          ("HDSLEEP_".toList ++ d.bay) = some _ := htm
      simp only [hpm', htm', Option.bind_eq_bind, Option.bind_some]

/-! ## The lines of the file -/

/-- A line that is an assignment, whatever the variables are. -/
def GoodLine (l : Text) : Prop :=
  ∀ env, ∃ env', read nothing (env, .start) (l ++ ['\n']) = (env', .start)

theorem goodLine_nil : GoodLine [] := fun env => ⟨env, rfl⟩

theorem goodLine_plain {n t : Text} (hn : isName n = true) (ht : t.all isPlain = true) :
    GoodLine (n ++ '=' :: t) := fun env =>
  ⟨Function.update env n t, read_plain_assignment nothing (.inl rfl) env hn ht (.inr rfl)⟩

theorem read_assignLine (env : Env) {n t : Text} (hn : isName n = true)
    (ht : intact true t = true) :
    read nothing (env, .start) (assignLine n t ++ ['\n']) =
      (Function.update env n (unquote t), .start) := by
  have hread := read_quoted_assignment nothing (.inl rfl) env hn ht (c := '\n') (.inr rfl)
  have hsplit : assignLine n t ++ ['\n'] = n ++ '=' :: '"' :: t ++ ['"', '\n'] := by
    simp [assignLine]
  rw [hsplit, hread]

theorem goodLine_assignLine {n t : Text} (hn : isName n = true) (ht : intact true t = true) :
    GoodLine (assignLine n t) := fun env =>
  ⟨Function.update env n (unquote t), read_assignLine env hn ht⟩

/-- A file of such lines. -/
theorem read_bayText {bay : List Text} (hbay : ∀ l ∈ bay, GoodLine l) (env : Env) :
    ∃ env', read nothing (env, .start) (bayText bay) = (env', .start) := by
  induction bay generalizing env with
  | nil => exact ⟨env, rfl⟩
  | cons l bay ih =>
      obtain ⟨env₁, hline⟩ := hbay l List.mem_cons_self env
      obtain ⟨env₂, hrest⟩ := ih (fun m hm => hbay m (List.mem_cons_of_mem l hm)) env₁
      refine ⟨env₂, ?_⟩
      rw [bayText, List.flatMap_cons, read_append, hline]
      exact hrest

/-! ## What is written -/

/-- `$fam`, when the evaluations went well. -/
def Disk.fam (d : Disk) : Text := if d.smart then unquote (d.family.getD []) else d.vendor

/-- `$mod` -/
def Disk.mod (d : Disk) : Text := if d.smart then unquote (d.model.getD []) else d.sysModel

/-- A text that comes back from the line it is written to. -/
structure Kept (sh : Process) (n t : Text) : Prop where
  /-- no newline, tab, or two spaces in a row -/
  spaced : squeeze t = t
  /-- nothing that expands between double quotes -/
  intact : intact true t = true
  /-- no file name matches a word with a pattern -/
  glob : ∀ w ∈ words (assignLine n t), sh.glob w = [w]

/-- The value of a line of smartctl, in awk's output and in the variable. -/
def shownValue (label : Text) : Option Text → Text
  | none => []
  | some f => unquote (squeeze (awkValue (label ++ f)))

section Written

variable {sh : Process} {d : Disk}

/-- A variable that awk sets from a line, or that stays unset. -/
theorem assignAll_shownValue {n label : Text} {o : Option Text}
    (hn : n ∈ ["fam".toList, "mod".toList, "smart".toList, "UUID".toList])
    (hmem : ∀ f ∈ o, (n, awkValue (label ++ f)) ∈ d.pairs)
    (hnone : o = none → n ∉ d.assigned.map Prod.fst) :
    assignAll sh.env d.assigned n = shownValue label o := by
  obtain ⟨hset, hother⟩ := assignAll_of_nodup d.assigned_names_of.1 sh.env
  cases o with
  | none => exact (hother n (hnone rfl)).trans (sh.unset n hn)
  | some f => exact hset _ (d.mem_assigned (hmem f rfl))

/-- The script's two variables, if the evaluation of awk's output went well. -/
theorem evalDisk_eq (hglob : ∀ w ∈ words (commandSubst d.awk), sh.glob w = [w])
    (hevaluated : ∀ x ∈ d.pairs, AltF.Shell.intact true (squeeze x.2) = true) :
    evalDisk sh d = some (if d.smart then
        (shownValue familyLabel d.family, shownValue modelLabel d.model)
      else (commandSubst (d.vendor ++ ['\n']), commandSubst (d.sysModel ++ ['\n']))) := by
  obtain ⟨hnodup, hfamily, hmodel, hnosmart⟩ := d.assigned_names_of
  obtain ⟨hset, hother⟩ := assignAll_of_nodup hnodup sh.env
  unfold evalDisk
  rw [evalOutput_awk hglob hevaluated, Option.bind_eq_bind, Option.bind_some]
  cases hsmart : d.smart with
  | true =>
      have hyes : assignAll sh.env d.assigned "smart".toList = "yes".toList :=
        hset ("smart".toList, "yes".toList) (by
          unfold Disk.assigned
          rw [hsmart]
          exact List.mem_append_right _ (List.mem_singleton_self _))
      have hfam : assignAll sh.env d.assigned "fam".toList = shownValue familyLabel d.family :=
        assignAll_shownValue (by simp)
          (fun f hf => List.mem_append_left _
            (List.mem_map.mpr ⟨f, Option.mem_toList.mpr hf, rfl⟩)) hfamily
      have hmod : assignAll sh.env d.assigned "mod".toList = shownValue modelLabel d.model :=
        assignAll_shownValue (by simp)
          (fun m hm => List.mem_append_right _
            (List.mem_map.mpr ⟨m, Option.mem_toList.mpr hm, rfl⟩)) hmodel
      rw [if_neg (by rw [hyes]; decide), hfam, hmod]
      rfl
  | false =>
      have hno := (hother "smart".toList (hnosmart hsmart)).trans
        (sh.unset "smart".toList (by simp))
      rw [if_pos hno]
      rfl

theorem echo_solid (sh : Process) {t : Text} (hne : t ≠ []) (ht : t.all solidChar = true) :
    sh.echo t = t := by
  rw [Process.echo, expand_of_solid sh.globs hne ht, join_singleton]

/-- What `echo` writes of an assignment. -/
theorem echo_assignLine {n t : Text} (hn : isName n = true)
    (hglob : ∀ w ∈ words (assignLine n t), sh.glob w = [w]) :
    sh.echo (assignLine n t) = assignLine n (squeeze t) := by
  have hends : EndsSolid (assignLine n t) := by
    intro c hc
    rw [assignLine, List.getLast?_concat] at hc
    obtain rfl : '"' = c := by simpa using hc
    rfl
  have hstarts : StartsSolid (assignLine n t) := by
    cases n with
    | nil => cases hn
    | cons a n =>
        rw [isName, Bool.and_eq_true] at hn
        intro c hc
        obtain rfl : a = c := by simpa [assignLine] using hc
        exact not_blank_of_isNameStart hn.1
  have hsplit : assignLine n t = n ++ '=' :: '"' :: (t ++ '"' :: []) := by simp [assignLine]
  rw [Process.echo, expand_of_kept hglob, join_words hstarts hends, hsplit,
    squeeze_append_of_not_blank (not_blank_of_isName hn), squeeze_cons_of_not_blank rfl,
    squeeze_cons_of_not_blank rfl, squeeze_append_cons t [] rfl]
  simp [assignLine, squeeze]

/-- The lines that a disk adds. -/
theorem newLines_squeeze {fam mod : Text}
    (hfam : ∀ w ∈ words (assignLine (d.bay ++ "_fam".toList) fam), sh.glob w = [w])
    (hmod : ∀ w ∈ words (assignLine (d.bay ++ "_mod".toList) mod), sh.glob w = [w]) :
    newLines sh d fam mod =
      [d.bay ++ "_dev".toList ++ '=' :: d.mdev, d.mdev ++ '=' :: d.bay,
        assignLine (d.bay ++ "_cap".toList) d.cap,
        assignLine (d.bay ++ "_fam".toList) (squeeze fam),
        assignLine (d.bay ++ "_mod".toList) (squeeze mod)] := by
  have hbay := all_solidChar d.simple_bay
  have hmdev := all_solidChar d.simple_mdev
  have hcap := all_solidChar d.cap_simple
  have hdevLine : (d.bay ++ "_dev".toList ++ '=' :: d.mdev).all solidChar = true := by
    rw [List.all_append, List.all_append, List.all_cons, hbay, hmdev]
    decide
  have hmdevLine : (d.mdev ++ '=' :: d.bay).all solidChar = true := by
    rw [List.all_append, List.all_cons, hbay, hmdev]
    decide
  have hcapLine : (assignLine (d.bay ++ "_cap".toList) d.cap).all solidChar = true := by
    rw [assignLine, List.all_append, List.all_append, List.all_append, List.all_cons,
      List.all_cons, hbay, hcap]
    decide
  unfold newLines
  rw [echo_solid sh (by simp) hdevLine, echo_solid sh (by simp) hmdevLine,
    echo_solid sh (by simp [assignLine]) hcapLine, echo_assignLine (d.isName_bay (by decide)) hfam,
    echo_assignLine (d.isName_bay (by decide)) hmod]

end Written

/-- **A disk whose strings are harmless.** -/
structure Disk.Clean (sh : Process) (d : Disk) : Prop where
  evaluated : ∀ x ∈ d.pairs, AltF.Shell.intact true (squeeze x.2) = true
  glob : ∀ w ∈ words (commandSubst d.awk), sh.glob w = [w]
  family : d.smart = true → ∀ f ∈ d.family, FirstHere familyLabel f
  model : d.smart = true → ∀ m ∈ d.model, FirstHere modelLabel m
  fam : Kept sh (d.bay ++ "_fam".toList) d.fam
  mod : Kept sh (d.bay ++ "_mod".toList) d.mod

section Clean

variable {sh : Process} {d : Disk} (h : d.Clean sh)

theorem unquote_unquote (t : Text) : unquote (unquote t) = unquote t := by
  rw [unquote, unquote, List.filter_filter]
  simp

theorem awkValue_family {f : Text} (hf : FirstHere familyLabel f) :
    awkValue (familyLabel ++ f) = unquote f :=
  awkValue_of_firstHere (a := "Model".toList) (b := "Family:".toList) (by decide)
    ⟨"Model Family:    ".toList, rfl⟩ hf

theorem awkValue_model {m : Text} (hm : FirstHere modelLabel m) :
    awkValue (modelLabel ++ m) = unquote m :=
  awkValue_of_firstHere (a := "Device".toList) (b := "Model:".toList) (by decide)
    ⟨"Device Model:    ".toList, rfl⟩ hm

/-- A value without quotes, tabs or two blanks in a row comes through. -/
theorem shownValue_eq {label : Text} {o : Option Text}
    (hshown : ∀ f ∈ o, awkValue (label ++ f) = unquote f)
    (hspaced : squeeze (unquote (o.getD [])) = unquote (o.getD [])) :
    shownValue label o = unquote (o.getD []) := by
  cases o with
  | none => rfl
  | some f =>
      rw [Option.getD_some] at hspaced ⊢
      rw [shownValue, hshown f rfl, hspaced, unquote_unquote]

include h

/-- The script's two variables. -/
theorem evalDisk_of_clean : evalDisk sh d = some (d.fam, d.mod) := by
  have hfspaced := h.fam.spaced
  have hmspaced := h.mod.spaced
  rw [evalDisk_eq h.glob h.evaluated]
  unfold Disk.fam at hfspaced ⊢
  unfold Disk.mod at hmspaced ⊢
  cases hsmart : d.smart with
  | true =>
      rw [hsmart, if_pos rfl] at hfspaced hmspaced
      rw [if_pos rfl, if_pos rfl, if_pos rfl,
        shownValue_eq (fun f hf => awkValue_family (h.family hsmart f hf)) hfspaced,
        shownValue_eq (fun m hm => awkValue_model (h.model hsmart m hm)) hmspaced]
  | false =>
      rw [hsmart, if_neg nofun] at hfspaced hmspaced
      have hline : ∀ {t : Text}, squeeze t = t → commandSubst (t ++ ['\n']) = t := by
        intro t ht
        rw [commandSubst_append_newline]
        exact commandSubst_of_not_mem (ht ▸ newline_notMem_squeeze t)
      rw [if_neg nofun, if_neg nofun, if_neg nofun, hline hfspaced, hline hmspaced]

/-- The lines that a clean disk adds. -/
theorem newLines_eq : newLines sh d d.fam d.mod =
    [d.bay ++ "_dev".toList ++ '=' :: d.mdev, d.mdev ++ '=' :: d.bay,
      assignLine (d.bay ++ "_cap".toList) d.cap, assignLine (d.bay ++ "_fam".toList) d.fam,
      assignLine (d.bay ++ "_mod".toList) d.mod] := by
  rw [newLines_squeeze h.fam.glob h.mod.glob, h.fam.spaced, h.mod.spaced]

/-- **`add_disk`** of a clean disk. -/
theorem addDisk_of_clean (bay : List Text) :
    addDisk sh d bay = some (deleteLines d.mdev (deleteLines (d.bay ++ ['_']) bay) ++
      newLines sh d d.fam d.mod) := by
  unfold addDisk
  rw [evalDisk_of_clean h, evalPower_eq sh d]
  rfl

end Clean

end AltF.Hotplug
