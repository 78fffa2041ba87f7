/-
  Cgi/RmountPage.lean --- rmount.cgi: the form with the remote mounts of /etc/fstab, a row for
  each line with `nfs` anywhere in it and one for each with `cifs`, and three free rows behind
  both.

  A line is taken apart by awk and by `eval`, which see its blanks, quotes and dollars.
-/
import AltF.Cgi.Forms
import AltF.Cgi.RmountProc
import AltF.Shell.Indirect

set_option autoImplicit false

namespace AltF.Cgi.RmountPage

open AltF.Shell AltF.SysFiles AltF.Cgi.Etc

/-! ## Text -/

/-- `path_unescape`: `s/\\040/ /g` -/
def pathUnescape : Text → Text
  | '\\' :: '0' :: '4' :: '0' :: t => ' ' :: pathUnescape t
  | c :: t => c :: pathUnescape t
  | [] => []

/-- `${n#\#}` -/
def dropHash : Text → Text
  | '#' :: t => t
  | t => t

/-- `substr($0, index($0, p))`; where `p` is empty that is all of it. -/
def fromFirst (p : Text) : Text → Text
  | [] => []
  | c :: t => if p.isPrefixOf (c :: t) then c :: t else fromFirst p t

/-- A program of awk without `\n`, on the lines of a text. -/
def awk (program : Text → Text) (out : Text) : Text := (outputLines out).flatMap program

/-- `$1`, `$2`, ... of a line, from 0 on -/
def field (i : Nat) (l : Text) : Text := (words l).getD i []

/-- `-F` and the character -/
def fieldBy (sep : Char) (i : Nat) (l : Text) : Text := (l.splitOn sep).getD i []

/-- `printf "hostdir=\"%s\"; mdir=\"%s\"; opts=%s", $1, $2, $4` -/
def awkFields (l : Text) : Text :=
  "hostdir=\"".toList ++ field 0 l ++ "\"; mdir=\"".toList ++ field 1 l ++ "\"; opts=".toList ++
    field 3 l

/-- `printf "rhost=\"%s\"; rdir=\"%s\""` -/
def awkDevice (rhost rdir : Text) : Text :=
  "rhost=\"".toList ++ rhost ++ "\"; rdir=\"".toList ++ rdir ++ ['"']

/-! ## Rows -/

inductive FsType where
  | nfs | cifs
  deriving DecidableEq

namespace FsType

def name : FsType → Text
  | nfs => "nfs".toList
  | cifs => "cifs".toList

/-- What awk takes from `$hostdir`. -/
def hostOf : FsType → Text → Text
  | nfs => fieldBy ':' 0
  | cifs => fieldBy '/' 2

def dirOf : FsType → Text → Text
  | nfs => fieldBy ':' 1
  | cifs => fun l => fromFirst (fieldBy '/' 3 l) l

end FsType

/-- A row of the form. -/
structure Row where
  fstype : FsType
  disabled : Bool
  rhost : Text
  rdir : Text
  mdir : Text
  mopts : Text

/-- What the row sends. -/
def Row.shown (r : Row) : List (Text × Text) :=
  (if r.disabled then [("fcmtd".toList, ['#'])] else []) ++
    [("rhost".toList, r.rhost), ("rdir".toList, r.rdir), ("mdir".toList, r.mdir),
      ("mopts".toList, r.mopts), ("fstype".toList, r.fstype.name)]

def Row.sent (r : Row) : List (Text × Text) := r.shown.map fun x => (x.1, urlencode x.2)

/-- A box, and what it has for the page. -/
structure Box extends Tools where
  /-- `modprobe -D cifs` -/
  cifs : Bool
  /-- `DELAY_NFS`, where Alt-F packages are installed -/
  delay : Bool

/-- What is local to `fstab_row`. -/
def localNames : List Text :=
  ["ln".toList, "fstype".toList, "cnt".toList, "hostdir".toList, "mdir".toList, "rhost".toList,
    "rdir".toList, "opts".toList]

namespace Box

variable (m : Box) (b : Browser)

/-- `$(path_unescape $words)` -/
def unescaped (t : Text) : Text :=
  commandSubst (pathUnescape (m.echo [(expand m.glob t).headD []]))

/-- `eval $(... | awk)`, of the device -/
def evalDevice (env : Env) (fstype : FsType) : Option Env :=
  let hostdir := env "hostdir".toList
  let out :=
    match fstype with
    | .nfs => m.echo [hostdir]
    | .cifs => m.echo (expand m.glob hostdir)
  evalWords m.glob env (commandSubst
    (awk (fun l => awkDevice (fstype.hostOf l) (fstype.dirOf l)) out))

/-- `fstab_row`, and the variables behind it but for those of its buttons. -/
def fstabRow (fstype : FsType) (env : Env) (ln : Text) : Option (Env × Row) := do
  let env₁ ← evalWords m.glob env (commandSubst (awk awkFields (m.echo (expand m.glob ln))))
  let env₂ ← m.evalDevice env₁ fstype
  let rdir := commandSubst (httpdEncode (m.unescaped (env₂ "rdir".toList)))
  let edir := commandSubst (httpdEncode (m.unescaped (env₂ "mdir".toList)))
  let rrhost := dropHash (env₂ "rhost".toList)
  let cmtd := (env₂ "hostdir".toList).takeWhile (· == '#')
  let row : Row :=
    { fstype
      disabled := cmtd ≠ []
      rhost := b.value rrhost
      rdir := b.value rdir
      mdir := b.value edir
      mopts := b.value (env₂ "opts".toList) }
  some (assignAll (fun n => if localNames.contains n then env n else env₂ n)
    [("rrhost".toList, rrhost), ("edir".toList, edir), ("cmtd".toList, cmtd)], row)

def fstabRows (fstype : FsType) (env : Env) : List Text → Option (Env × List Row)
  | [] => some (env, [])
  | ln :: lns => do
      let (env₁, row) ← m.fstabRow b fstype env ln
      let (env₂, rows) ← fstabRows fstype env₁ lns
      some (env₂, row :: rows)

end Box

/-- `while read -r ln`, which drops what is behind the last newline, and `grep -q` -/
def group (fstype : FsType) (fstab : TextFile) : List Text :=
  (fstab.full.map trim).filter fun ln => decide (fstype.name <:+: ln)

/-- The free rows. -/
def free : List Text := [[], [], []]

/-- rmount.cgi: the form as it is sent. -/
def Box.form (m : Box) (b : Browser) (env : Env) (fstab : TextFile) :
    Option (List (Text × Text)) := do
  let (env₁, nfs) ← m.fstabRows b .nfs env (group .nfs fstab ++ free)
  let cifs ←
    if m.cifs then (m.fstabRows b .cifs env₁ (group .cifs fstab ++ free)).map Prod.snd
    else some []
  some (rowsPairs 1 (nfs.map Row.sent) ++
    ((if m.delay then [("delay_nfs".toList, "yes".toList)] else []) ++
      (rowsPairs (nfs.length + 1) (cifs.map Row.sent) ++
        [("cnt".toList, Nat.toDigits 10 (nfs ++ cifs).length),
          ("submit".toList, "Submit".toList)])))

/-! ## Mounts -/

/-- A line of fstab of type nfs or cifs. -/
structure Mount where
  disabled : Bool
  device : Text
  dir : Text
  fstype : FsType
  options : Text

def fsType? (t : Text) : Option FsType :=
  if t = FsType.nfs.name then some .nfs else if t = FsType.cifs.name then some .cifs else none

/-- The mount of a line, which may be disabled; none where the device is missing. -/
def mountOf (l : Text) : Option Mount :=
  if dropHash (field 0 l) = [] then none
  else (fsType? (field 2 l)).map fun fstype =>
    { disabled := (field 0 l).head? = some '#'
      device := dropHash (field 0 l)
      dir := field 1 l
      fstype
      options := field 3 l }

/-- The other lines are as they were, and the mounts are the same. -/
structure SameMounts (old new : List Text) : Prop where
  others : new.filter (fun l => (mountOf l).isNone) = old.filter fun l => (mountOf l).isNone
  mounts : (new.filterMap mountOf).Perm (old.filterMap mountOf)

/-- The files in which a script leaves the box. -/
def filesAfter {α : Type} (p : Etc.Page α) (s : Files) : Files :=
  match p s with
  | .ok _ s' => s'
  | .error _ s' => s'

/-- The fields of a row that are read. -/
def rowNames : List Text :=
  ["fcmtd".toList, "rhost".toList, "rdir".toList, "mdir".toList, "mopts".toList, "fstype".toList]

/-- A variable that rmount_proc.cgi reads, but for `Submit`. -/
def isRead (n : Text) : Bool :=
  ["unMount".toList, "Mount".toList, "emsg".toList, "cnt".toList, "delay_nfs".toList].contains n ||
    isRowName n && rowNames.contains (rowBase n)

/-- The page is opened, with the variables `pageEnv`, and submitted unchanged, to a script with the
variables `env`: fstab has the same mounts. -/
def Survives (m : Box) (b : Browser) (pageEnv env : Env) (s : Files) : Prop :=
  ∃ fstab form env₁, s .fstab = some fstab ∧ m.form b pageEnv fstab = some form ∧
    m.readForm env (bodyText form) = some env₁ ∧
    ∃ f : Form, (∀ n, isRead n = true ∨ n = "Submit".toList → f.var n = env₁ n) ∧
      ∃ saved, filesAfter (m.rmountProc f) s .fstab = some saved ∧
        SameMounts fstab.lines saved.lines

/-! ## Lines that are read as they stand -/

/-- The row of a line, where neither the shell nor the browser changes its texts. -/
def rowOf (fstype : FsType) (l : Text) : Row where
  fstype
  disabled := (field 0 l).head? = some '#'
  rhost := dropHash (fstype.hostOf (field 0 l))
  rdir := pathUnescape (fstype.dirOf (field 0 l))
  mdir := pathUnescape (field 1 l)
  mopts := field 3 l

/-- The shell, `echo` and the browser change no text of the line. -/
structure Readable (m : Box) (fstype : FsType) (l : Text) : Prop where
  kept : ∀ w ∈ words l, m.glob w = [w]
  first : isEchoOption (field 0 l) = false
  quoted : ∀ t ∈ [field 0 l, field 1 l, fstype.hostOf (field 0 l), fstype.dirOf (field 0 l)],
    intact true t = true ∧ '"' ∉ t
  options : (field 3 l).all isPlain = true
  paths : ∀ t ∈ [fstype.dirOf (field 0 l), field 1 l],
    isEchoOption t = false ∧ m.glob t = [t] ∧ t.all isAscii = true
  shown : ∀ t ∈ [dropHash (fstype.hostOf (field 0 l)), field 3 l], t.all isShown = true

/-! ### Text -/

section Text

variable {t : Text}

theorem mem_pathUnescape {c : Char} (hc : c ∈ pathUnescape t) : c = ' ' ∨ c ∈ t := by
  induction t using pathUnescape.induct with
  | case1 t ih =>
      rcases List.mem_cons.mp hc with rfl | hc
      · exact Or.inl rfl
      · simp only [List.mem_cons]
        tauto
  | case2 d t hcode ih =>
      rw [pathUnescape] at hc
      · rcases List.mem_cons.mp hc with rfl | hc
        · exact Or.inr List.mem_cons_self
        · exact (ih hc).imp_right (List.mem_cons_of_mem d)
      · exact hcode
  | case3 => cases hc

theorem pathUnescape_concat_newline (t : Text) :
    pathUnescape (t ++ ['\n']) = pathUnescape t ++ ['\n'] := by
  induction t using pathUnescape.induct with
  | case1 t ih => exact congrArg (' ' :: ·) ih
  | case2 c t hcode ih =>
      rw [List.cons_append, pathUnescape, ih, pathUnescape, List.cons_append]
      · exact hcode
      · rintro u rfl hu
        rcases t with - | ⟨a, - | ⟨b, - | ⟨d, t⟩⟩⟩
        · cases hu
        · cases hu
        · cases hu
        · simp only [List.cons_append, List.cons.injEq] at hu
          exact hcode t rfl (by rw [hu.1, hu.2.1, hu.2.2.1])
  | case3 => rfl

theorem newline_notMem_of_ascii (ht : t.all isAscii = true) : '\n' ∉ t := fun hc =>
  absurd (List.all_eq_true.mp ht _ hc) (by decide)

theorem ascii_pathUnescape (ht : t.all isAscii = true) : (pathUnescape t).all isAscii = true := by
  refine List.all_eq_true.mpr fun c hc => ?_
  rcases mem_pathUnescape hc with rfl | hc
  · decide
  · exact List.all_eq_true.mp ht c hc

theorem newline_notMem_httpdEncode (t : Text) : '\n' ∉ httpdEncode t := by
  intro hc
  obtain ⟨d, -, hmem⟩ := List.mem_flatMap.mp hc
  unfold encodeRef at hmem
  split at hmem
  · rename_i halnum
    rw [← List.mem_singleton.mp hmem] at halnum
    exact absurd halnum (by decide)
  · simp only [List.mem_cons, List.mem_append, List.not_mem_nil, or_false] at hmem
    rcases hmem with h | h | h | h
    · exact absurd h (by decide)
    · exact absurd h (by decide)
    · exact absurd (isDigit_of_mem_toDigits h) (by decide)
    · exact absurd h (by decide)

theorem outputLines_line (ht : '\n' ∉ t) : outputLines (t ++ ['\n']) = [t] := by
  have hsplit : (t ++ ['\n']).splitOn '\n' = [t, []] := by
    rw [List.splitOn_append_cons_self_of_not_mem ht]
    rfl
  rw [outputLines, hsplit]
  rfl

theorem words_trim (t : Text) : words (trim t) = words t := by
  rw [trim, words_rdropWhile, words_dropWhile]

theorem field_trim (i : Nat) (t : Text) : field i (trim t) = field i t := by
  rw [field, field, words_trim]

theorem mem_fieldBy {sep : Char} {i : Nat} {c : Char} (hc : c ∈ fieldBy sep i t) : c ∈ t := by
  rw [fieldBy, List.getD_eq_getElem?_getD] at hc
  cases h : (t.splitOn sep)[i]? with
  | none =>
      rw [h] at hc
      cases hc
  | some w =>
      rw [h] at hc
      have hw := List.mem_of_getElem? h
      rw [List.splitOn_eq_splitOnP] at hw
      exact (mem_of_mem_splitOnP hw c hc).1

theorem fromFirst_suffix (p t : Text) : fromFirst p t <:+ t := by
  induction t with
  | nil => exact List.suffix_rfl
  | cons c t ih =>
      rw [fromFirst]
      split
      · exact List.suffix_rfl
      · exact ih.trans (List.suffix_cons c t)

theorem mem_device {fstype : FsType} {c : Char}
    (hc : c ∈ fstype.hostOf t ∨ c ∈ fstype.dirOf t) : c ∈ t := by
  cases fstype with
  | nfs => exact hc.elim mem_fieldBy mem_fieldBy
  | cifs => exact hc.elim mem_fieldBy fun h => (fromFirst_suffix _ t).subset h

theorem field_cases (i : Nat) (l : Text) : field i l ∈ words l ∨ field i l = [] := by
  rw [field, List.getD_eq_getElem?_getD]
  cases h : (words l)[i]? with
  | none => exact Or.inr rfl
  | some w => exact Or.inl (List.mem_of_getElem? h)

theorem not_blank_field (i : Nat) (l : Text) : ∀ c ∈ field i l, isBlank c = false := by
  rcases field_cases i l with h | h
  · exact not_blank_of_mem_words h
  · rw [h]
    nofun

theorem words_of_not_blank (ht : ∀ c ∈ t, isBlank c = false) :
    words t = if t = [] then [] else [t] := by
  split
  · rename_i h
    rw [h]
    rfl
  · rename_i h
    exact words_eq_singleton h ht

theorem join_words_of_not_blank (ht : ∀ c ∈ t, isBlank c = false) : join (words t) = t := by
  rw [words_of_not_blank ht]
  split
  · rename_i h
    rw [h]
    rfl
  · exact join_singleton t

end Text

/-! ### Assignments -/

/-- Text between double quotes that stays as it is. -/
def Verbatim (t : Text) : Prop := intact true t = true ∧ '"' ∉ t

theorem Verbatim.unquote {t : Text} (ht : Verbatim t) : unquote t = t :=
  List.filter_eq_self.mpr fun _ hc => decide_eq_true fun h => ht.2 (h ▸ hc)

/-- `n="f"; ` -/
theorem read_verbatim (env : Env) {n f : Text} (hn : isName n = true) (hf : Verbatim f) (t : Text) :
    read nothing (env, .start) ((n ++ '=' :: '"' :: f ++ ['"', ';']) ++ ' ' :: t) =
      read nothing (Function.update env n f, .start) t := by
  rw [read_append, read_quoted_assignment nothing (.inl rfl) env hn hf.1 (.inl rfl), hf.unquote]
  rfl

/-- `n="f"` at the end -/
theorem finish_verbatim (env : Env) {n f : Text} (hn : isName n = true) (hf : Verbatim f) :
    finish (read nothing (env, .start) (n ++ '=' :: '"' :: f ++ ['"'])) =
      some (Function.update env n f) := by
  rw [read_quoted nothing (.inl rfl) env hn hf.1, hf.unquote]
  rfl

/-- `n=t` at the end -/
theorem finish_plain (env : Env) {n t : Text} (hn : isName n = true) (ht : t.all isPlain = true) :
    finish (read nothing (env, .start) (n ++ '=' :: t)) = some (Function.update env n t) := by
  have hsplit : n ++ '=' :: t = (n ++ ['=']) ++ t := by
    rw [List.append_assoc, List.singleton_append]
  rw [hsplit, read_append, read_assign nothing (.inl rfl) env hn, read_plain nothing env n [] ht,
    List.nil_append]
  rfl

/-- Assignments are one word. -/
theorem solid_plain {n v : Text} (hn : isName n = true) (hv : ∀ c ∈ v, isBlank c = false) :
    '=' ∈ n ++ '=' :: v ∧ ∀ c ∈ n ++ '=' :: v, isBlank c = false := by
  refine ⟨List.mem_append_right n List.mem_cons_self, fun c hc => ?_⟩
  rcases List.mem_append.mp hc with hc | hc
  · exact not_blank_of_isNameChar (List.all_eq_true.mp (all_isNameChar hn) c hc)
  · rcases List.mem_cons.mp hc with rfl | hc
    · rfl
    · exact hv c hc

theorem solid_quoted {n f u : Text} (hn : isName n = true) (hf : ∀ c ∈ f, isBlank c = false)
    (hu : ∀ c ∈ u, isBlank c = false) : '=' ∈ n ++ '=' :: '"' :: f ++ u ∧
      ∀ c ∈ n ++ '=' :: '"' :: f ++ u, isBlank c = false := by
  have hsolid := solid_plain (v := '"' :: (f ++ u)) hn (by
    intro c hc
    rcases List.mem_cons.mp hc with rfl | hc
    · rfl
    · exact (List.mem_append.mp hc).elim (hf c) (hu c))
  rwa [← List.cons_append, ← List.cons_append, ← List.append_assoc] at hsolid

namespace Box

variable (m : Box)

/-- Assignments are run as they stand: no file has `=` in its name. -/
theorem evalWords_join {ws : List Text} (hws : ∀ w ∈ ws, '=' ∈ w ∧ ∀ c ∈ w, isBlank c = false)
    (env : Env) :
    evalWords m.glob env (commandSubst (join ws)) = evalText nothing env (join ws) := by
  have hwords : words (join ws) = ws :=
    words_join fun w hw => ⟨List.ne_nil_of_mem (hws w hw).1, (hws w hw).2⟩
  have hkept : ∀ w ∈ words (commandSubst (join ws)), m.glob w = [w] := by
    intro w hw
    rw [words_commandSubst, hwords] at hw
    exact m.files (.inl (hws w hw).1)
  rw [evalWords, expand_of_kept hkept, words_commandSubst, hwords]

/-- `hostdir="..."; mdir="..."; opts=...` -/
theorem eval_awkFields (env : Env) {l : Text} (hhost : Verbatim (field 0 l))
    (hdir : Verbatim (field 1 l)) (hopts : (field 3 l).all isPlain = true) :
    evalWords m.glob env (commandSubst (awkFields l)) =
      some (assignAll env [("hostdir".toList, field 0 l), ("mdir".toList, field 1 l),
        ("opts".toList, field 3 l)]) := by
  have hsplit : ∀ {a b c : Text}, a = "hostdir".toList ++ ['=', '"'] →
      b = '"' :: ';' :: ' ' :: ("mdir".toList ++ ['=', '"']) →
      c = '"' :: ';' :: ' ' :: ("opts".toList ++ ['=']) →
      a ++ field 0 l ++ b ++ field 1 l ++ c ++ field 3 l =
        join ["hostdir".toList ++ '=' :: '"' :: field 0 l ++ ['"', ';'],
          "mdir".toList ++ '=' :: '"' :: field 1 l ++ ['"', ';'],
          "opts".toList ++ '=' :: field 3 l] := by
    rintro _ _ _ rfl rfl rfl
    rw [join_cons _ (List.cons_ne_nil _ _), join_cons _ (List.cons_ne_nil _ _), join_singleton]
    simp only [List.append_assoc, List.cons_append, List.nil_append]
  have hjoin : awkFields l = _ := hsplit (by decide) (by decide) (by decide)
  have hwords : ∀ w ∈ ["hostdir".toList ++ '=' :: '"' :: field 0 l ++ ['"', ';'],
      "mdir".toList ++ '=' :: '"' :: field 1 l ++ ['"', ';'], "opts".toList ++ '=' :: field 3 l],
      '=' ∈ w ∧ ∀ c ∈ w, isBlank c = false := by
    have hend : ∀ c ∈ ['"', ';'], isBlank c = false := forall_of_all (by decide)
    simp only [List.forall_mem_cons, List.not_mem_nil, false_implies, implies_true, and_true]
    exact ⟨solid_quoted (by decide) (not_blank_field 0 l) hend,
      solid_quoted (by decide) (not_blank_field 1 l) hend,
      solid_plain (by decide) (not_blank_field 3 l)⟩
  rw [hjoin, m.evalWords_join hwords, evalText, join_cons _ (List.cons_ne_nil _ _),
    join_cons _ (List.cons_ne_nil _ _), join_singleton, read_verbatim env (by decide) hhost,
    read_verbatim _ (by decide) hdir, finish_plain _ (by decide) hopts]
  rfl

/-- `rhost="..."; rdir="..."` -/
theorem eval_awkDevice (env : Env) {rhost rdir : Text} (hhost : Verbatim rhost)
    (hdir : Verbatim rdir) (hblank : ∀ c ∈ rhost ++ rdir, isBlank c = false) :
    evalWords m.glob env (commandSubst (awkDevice rhost rdir)) =
      some (assignAll env [("rhost".toList, rhost), ("rdir".toList, rdir)]) := by
  have hsplit : ∀ {a b : Text}, a = "rhost".toList ++ ['=', '"'] →
      b = '"' :: ';' :: ' ' :: ("rdir".toList ++ ['=', '"']) →
      a ++ rhost ++ b ++ rdir ++ ['"'] =
        join ["rhost".toList ++ '=' :: '"' :: rhost ++ ['"', ';'],
          "rdir".toList ++ '=' :: '"' :: rdir ++ ['"']] := by
    rintro _ _ rfl rfl
    rw [join_cons _ (List.cons_ne_nil _ _), join_singleton]
    simp only [List.append_assoc, List.cons_append, List.nil_append]
  have hjoin : awkDevice rhost rdir = _ := hsplit (by decide) (by decide)
  have hwords : ∀ w ∈ ["rhost".toList ++ '=' :: '"' :: rhost ++ ['"', ';'],
      "rdir".toList ++ '=' :: '"' :: rdir ++ ['"']], '=' ∈ w ∧ ∀ c ∈ w, isBlank c = false := by
    simp only [List.forall_mem_cons, List.not_mem_nil, false_implies, implies_true, and_true]
    exact ⟨solid_quoted (by decide) (fun c hc => hblank c (List.mem_append_left rdir hc))
        (forall_of_all (by decide)),
      solid_quoted (by decide) (fun c hc => hblank c (List.mem_append_right rhost hc))
        (forall_of_all (by decide))⟩
  rw [hjoin, m.evalWords_join hwords, evalText, join_cons _ (List.cons_ne_nil _ _),
    join_singleton, read_verbatim env (by decide) hhost, finish_verbatim _ (by decide) hdir]
  rfl

/-- `echo` and `awk`, of words. -/
theorem awk_echo (program : Text → Text) {ws : List Text}
    (hfirst : ∀ w ∈ ws.head?, isEchoOption w = false) (hline : '\n' ∉ join ws) :
    awk program (m.echo ws) = program (join ws) := by
  rw [awk, m.echoes.plain hfirst, outputLines_line hline, List.flatMap_singleton]

/-- `$(path_unescape $words)`, of a path that is one word. -/
theorem unescaped_path {t : Text} (hblank : ∀ c ∈ t, isBlank c = false)
    (hoption : isEchoOption t = false) (hkept : m.glob t = [t]) (hascii : t.all isAscii = true) :
    m.unescaped t = pathUnescape t := by
  have hword : (expand m.glob t).headD [] = t := by
    rw [expand, words_of_not_blank hblank]
    split
    · rename_i h
      rw [h]
      rfl
    · rw [List.flatMap_singleton, hkept]
      rfl
  have hhead : ∀ w ∈ [t].head?, isEchoOption w = false := by
    intro w hw
    obtain rfl := Option.some.inj hw
    exact hoption
  rw [unescaped, hword, m.echoes.plain hhead, join_singleton, pathUnescape_concat_newline,
    commandSubst_append_newline,
    commandSubst_of_not_mem (newline_notMem_of_ascii (ascii_pathUnescape hascii))]

/-- `eval $(echo $hostdir | awk)` -/
theorem evalDevice_readable {fstype : FsType} {l : Text} (h : Readable m fstype l) {env : Env}
    (henv : env "hostdir".toList = field 0 l) :
    m.evalDevice env fstype = some (assignAll env [("rhost".toList, fstype.hostOf (field 0 l)),
      ("rdir".toList, fstype.dirOf (field 0 l))]) := by
  have hquoted := h.quoted
  simp only [List.forall_mem_cons, List.not_mem_nil, false_implies, implies_true,
    and_true] at hquoted
  obtain ⟨-, -, hhost, hdir⟩ := hquoted
  have hblank := not_blank_field 0 l
  have hline : '\n' ∉ field 0 l := fun hc => absurd (hblank _ hc) (by decide)
  have hparts : ∀ c ∈ fstype.hostOf (field 0 l) ++ fstype.dirOf (field 0 l), isBlank c = false :=
    fun c hc => hblank c (mem_device (List.mem_append.mp hc))
  have hawk : ∀ ws : List Text, (∀ w ∈ ws.head?, w = field 0 l) → join ws = field 0 l →
      awk (fun l => awkDevice (fstype.hostOf l) (fstype.dirOf l)) (m.echo ws) =
        awkDevice (fstype.hostOf (field 0 l)) (fstype.dirOf (field 0 l)) := by
    intro ws hws hjoin
    rw [m.awk_echo _ (fun w hw => by rw [hws w hw]; exact h.first) (by rwa [hjoin]), hjoin]
  have hwords : expand m.glob (field 0 l) = words (field 0 l) := by
    refine expand_of_kept fun w hw => ?_
    rw [words_of_not_blank hblank] at hw
    split at hw
    · cases hw
    · rename_i hne
      rw [List.mem_singleton.mp hw]
      exact h.kept _ ((field_cases 0 l).resolve_right hne)
  have heval := m.eval_awkDevice env hhost hdir hparts
  cases fstype with
  | nfs =>
      have hout := hawk [field 0 l] (fun w hw => (Option.some.inj hw).symm) (join_singleton _)
      rw [← hout] at heval
      rw [evalDevice, henv]
      exact heval
  | cifs =>
      have hout := hawk (words (field 0 l)) (fun w hw => by
        rw [words_of_not_blank hblank] at hw
        split at hw
        · cases hw
        · exact (Option.some.inj hw).symm) (join_words_of_not_blank hblank)
      rw [← hout, ← hwords] at heval
      rw [evalDevice, henv]
      exact heval

/-- **A line that is read** makes its row. -/
theorem fstabRow_readable (b : Browser) {fstype : FsType} {l : Text} (h : Readable m fstype l)
    (env : Env) : ∃ env', m.fstabRow b fstype env l = some (env', rowOf fstype l) := by
  have hquoted := h.quoted
  have hpaths := h.paths
  have hshown := h.shown
  simp only [List.forall_mem_cons, List.not_mem_nil, false_implies, implies_true,
    and_true] at hquoted hpaths hshown
  obtain ⟨hverbatim, hverbatim', -, -⟩ := hquoted
  obtain ⟨⟨hdopt, hdkept, hdascii⟩, hmopt, hmkept, hmascii⟩ := hpaths
  -- the line
  have hwords : words (join (words l)) = words l := words_join fun w hw =>
    ⟨by simpa using (List.mem_filter.mp hw).2, not_blank_of_mem_words hw⟩
  have hfield : ∀ i, field i (join (words l)) = field i l := fun i => by rw [field, field, hwords]
  have hfields : awkFields (join (words l)) = awkFields l := by
    unfold awkFields
    rw [hfield 0, hfield 1, hfield 3]
  have hout : awk awkFields (m.echo (expand m.glob l)) = awkFields l := by
    rw [expand_of_kept h.kept, m.awk_echo, hfields]
    · intro w hw
      have hfirst := h.first
      rw [field, List.getD_eq_getElem?_getD, ← List.head?_eq_getElem?, hw] at hfirst
      exact hfirst
    · intro hc
      have hmem := mem_of_mem_join hc (by decide)
      obtain ⟨w, hw, hcw⟩ := hmem
      exact absurd (not_blank_of_mem_words hw _ hcw) (by decide)
  -- the variables
  have hnames : ([("hostdir".toList, field 0 l), ("mdir".toList, field 1 l),
      ("opts".toList, field 3 l)].map Prod.fst).Nodup := by
    simp only [List.map_cons, List.map_nil]
    decide
  obtain ⟨hset, -⟩ := assignAll_of_nodup hnames env
  simp only [List.forall_mem_cons, List.not_mem_nil, false_implies, implies_true,
    and_true] at hset
  obtain ⟨hhostdir, hmdir, hopts⟩ := hset
  have hnames' : ([("rhost".toList, fstype.hostOf (field 0 l)),
      ("rdir".toList, fstype.dirOf (field 0 l))].map Prod.fst).Nodup := by
    simp only [List.map_cons, List.map_nil]
    decide
  obtain ⟨hset', hothers'⟩ := assignAll_of_nodup hnames' (assignAll env
    [("hostdir".toList, field 0 l), ("mdir".toList, field 1 l), ("opts".toList, field 3 l)])
  simp only [List.forall_mem_cons, List.not_mem_nil, false_implies, implies_true,
    and_true] at hset'
  obtain ⟨hrhost, hrdir⟩ := hset'
  have hline := m.eval_awkFields env hverbatim hverbatim' h.options
  have hdevice := m.evalDevice_readable h hhostdir
  have hkept : ∀ n, n ∉ ["rhost".toList, "rdir".toList] → assignAll (assignAll env
      [("hostdir".toList, field 0 l), ("mdir".toList, field 1 l), ("opts".toList, field 3 l)])
        [("rhost".toList, fstype.hostOf (field 0 l)), ("rdir".toList, fstype.dirOf (field 0 l))] n =
      assignAll env [("hostdir".toList, field 0 l), ("mdir".toList, field 1 l),
        ("opts".toList, field 3 l)] n := fun n hn => hothers' n hn
  have hpath : ∀ {t : Text}, (∀ c ∈ t, isBlank c = false) → isEchoOption t = false →
      m.glob t = [t] → t.all isAscii = true →
        b.value (commandSubst (httpdEncode (m.unescaped t))) = pathUnescape t := by
    intro t hblank hoption hglob hascii
    rw [m.unescaped_path hblank hoption hglob hascii,
      commandSubst_of_not_mem (newline_notMem_httpdEncode _), b.refs (ascii_pathUnescape hascii)]
  have hdir := hpath (fun c hc => not_blank_field 0 l c (mem_device (.inr hc))) hdopt hdkept hdascii
  have hmount := hpath (not_blank_field 1 l) hmopt hmkept hmascii
  have hdisabled : decide ((field 0 l).takeWhile (· == '#') ≠ []) =
      decide ((field 0 l).head? = some '#') := by
    cases field 0 l with
    | nil => rfl
    | cons c t => by_cases hc : c = '#' <;> simp [hc]
  rw [fstabRow, hout, hline]
  simp only [Option.bind_eq_bind, Option.bind_some, hdevice, hrhost, hrdir,
    hkept "hostdir".toList (by decide), hkept "mdir".toList (by decide),
    hkept "opts".toList (by decide), hhostdir, hmdir, hopts, hdir, hmount, b.shows hshown.1,
    b.shows hshown.2, hdisabled]
  exact ⟨_, rfl⟩

/-- The lines of a group. -/
theorem fstabRows_readable (b : Browser) {fstype : FsType} {lns : List Text}
    (h : ∀ l ∈ lns, Readable m fstype l) (env : Env) :
    ∃ env', m.fstabRows b fstype env lns = some (env', lns.map (rowOf fstype)) := by
  induction lns generalizing env with
  | nil => exact ⟨env, rfl⟩
  | cons l lns ih =>
      obtain ⟨env₁, hfirst⟩ := m.fstabRow_readable b (h l List.mem_cons_self) env
      obtain ⟨env₂, hrest⟩ := ih (fun l' hl' => h l' (List.mem_cons_of_mem l hl')) env₁
      refine ⟨env₂, ?_⟩
      rw [fstabRows, hfirst, Option.bind_eq_bind, Option.bind_some]
      simp only [hrest]
      rfl

end Box

end AltF.Cgi.RmountPage
