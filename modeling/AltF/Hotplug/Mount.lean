/-
  Hotplug/Mount.lean --- hot.sh, the end of `add_partition`, and hot_aux.sh up to the
  mount: a filesystem gets a directory under /mnt that is named after its label.

  What the scripts meet outside of them is the record `Outside`: the files that a
  pattern matches, whether the check goes on, and what fsck, mountpoint and mount
  answer.
-/
import Mathlib.Data.List.Infix
import AltF.Shell.Words

set_option autoImplicit false

namespace AltF.Hotplug

open AltF.Shell AltF.SysFiles

/-! ## fstab -/

/-- The fields of a line. -/
def fields (l : Text) : List Text := words l

def isOctal (c : Char) : Bool := '0' ≤ c && c ≤ '7'

/-- A field as fstab(5) reads it: a backslash and three octal digits are a character. -/
def decode : Text → Text
  | '\\' :: a :: b :: c :: t =>
      if isOctal a && isOctal b && isOctal c then
        Char.ofNat ((a.toNat - 48) * 64 + (b.toNat - 48) * 8 + (c.toNat - 48)) :: decode t
      else '\\' :: decode (a :: b :: c :: t)
  | x :: t => x :: decode t
  | [] => []

/-- A character that a field has for itself. -/
def isFieldChar (c : Char) : Bool := !isBlank c && c != '\\'

/-- `"$PWD/$MDEV /mnt/$lbl $fstype $mopts 0 0"` -/
structure FstabLine where
  spec : Text
  file : Text
  vfstype : Text
  mntops : Text
  deriving DecidableEq

def FstabLine.text (l : FstabLine) : Text :=
  l.spec ++ ' ' :: (l.file ++ ' ' :: (l.vfstype ++ ' ' :: (l.mntops ++ " 0 0".toList)))

/-- Where `mount` with a device mounts: what the last line about it says. -/
def mountDir (fstab : List Text) (dev : Text) : Option Text := do
  let l ← fstab.reverse.find? fun l => (fields l).head?.map decode = some dev
  let file ← (fields l)[1]?
  return decode file

/-! ## The scripts -/

/-- What the scripts meet. -/
structure Outside where
  /-- the files a pattern matches, in the directory of hot.sh -/
  files : Text → List Text
  globs : Globs files
  /-- the files a pattern matches when the directory is made -/
  filesThen : Text → List Text
  echo : List Text → Text
  /-- /usr/bin/btrfs -/
  btrfs : Bool
  /-- /usr/bin/ntfsfix -/
  ntfsfix : Bool
  /-- `check` does not exit -/
  checked : Bool
  /-- what fsck returns -/
  fsck : Nat
  /-- `mountpoint -q`: the directory was there before -/
  mountpoint : Bool
  /-- mount succeeds -/
  mounts : Bool

/-- A filesystem, as `add_partition` finds it. -/
structure Filesystem where
  /-- `PWD` -/
  pwd : Text
  /-- `MDEV`, a name the kernel gives -/
  mdev : Text
  /-- the device mapper's name -/
  dmname : Text
  /-- `LABEL` -/
  label : Text
  /-- `TYPE` -/
  type : Text
  /-- `mopts` -/
  mopts : Text
  named : (pwd ++ '/' :: mdev).all isFieldChar = true

/-- `$PWD/$MDEV` -/
def Filesystem.dev (p : Filesystem) : Text := p.pwd ++ '/' :: p.mdev

/-- `tr ' ' '_'` -/
def unblank (c : Char) : Char := if c = ' ' then '_' else c

/-- `/mnt/$lbl` -/
def mnt (lbl : Text) : Text := "/mnt/".toList ++ lbl

/-- What hot_aux.sh does. -/
structure Outcome where
  /-- the arguments of `mkdir -p`, unless there is a file system on the directory -/
  made : List Text
  /-- the line added to fstab -/
  line : Option FstabLine
  fstab : List Text
  /-- where the filesystem is mounted -/
  mounted : Option Text

namespace Outside

variable (o : Outside) (p : Filesystem)

/-- `fsckcmd`, `fsopt` and `fstype`, for the types that get a directory. -/
def checker (type : Text) : Option (Text × Text × Text) :=
  if ["ext2".toList, "ext3".toList, "ext4".toList, "exfat".toList].contains type then
    some ("fsck".toList, "-p".toList, type)
  else if type = "iso9660".toList then some ("echo".toList, "-".toList, type)
  else if type = "vfat".toList then some ("fsck".toList, "-a".toList, type)
  else if type = "btrfs".toList then
    if o.btrfs then some ("fsck".toList, "-p".toList, type) else none
  else if type = "ntfs".toList then
    some (if o.ntfsfix then "fsck".toList else "echo ".toList, "-".toList, "ntfs-3g".toList)
  else none

/-- `lbl` -/
def lbl : Text :=
  let l := commandSubst ((o.echo (expand o.files p.label)).map unblank)
  if l = [] then (if p.dmname ≠ [] then p.dmname else p.mdev) else l

/-- The arguments of hot_aux.sh. -/
def arguments : List Text :=
  match o.checker p.type with
  | none => []
  | some (fsckcmd, fsopt, fstype) =>
      [fsckcmd, fsopt, p.mopts, o.lbl p, fstype].flatMap (expand o.files)

/-- hot_aux.sh comes to the mount section. -/
def proceeds (fsckcmd : Text) : Bool :=
  p.mdev ≠ [] && (fsckcmd == "echo".toList || o.checked) && !o.mountpoint

/-- `mopts`, after fsck. -/
def options (fsckcmd mopts : Text) : Text :=
  if fsckcmd ≠ "echo".toList ∧ 2 ≤ o.fsck then "ro".toList else mopts

/-- `sed -i '\|^'$PWD/$MDEV'|d' $FSTAB`, and the line behind the others. -/
def record (fstab : List Text) (l : FstabLine) : List Text :=
  fstab.filter (fun t => !p.dev.isPrefixOf t) ++ [l.text]

/-- The mount section. -/
def mountSection (fstab : List Text) (lbl : Text) (l : FstabLine) : Outcome where
  made := expand o.filesThen (mnt lbl)
  line := some l
  fstab := record p fstab l
  mounted := if "noauto".toList <:+: l.mntops ∨ o.mounts = false then none
    else mountDir (record p fstab l) p.dev

/-- hot_aux.sh -/
def hotAux (fstab : List Text) : List Text → Outcome
  | [fsckcmd, _, mopts, lbl, fstype] =>
      if o.proceeds p fsckcmd then
        o.mountSection p fstab lbl ⟨p.dev, mnt lbl, fstype, o.options fsckcmd mopts⟩
      else ⟨[], none, fstab, none⟩
  | _ => ⟨[], none, fstab, none⟩

/-- hot.sh and hot_aux.sh -/
def mount (fstab : List Text) : Outcome := o.hotAux p fstab (o.arguments p)

end Outside

/-! ## Confinement -/

/-- The name of a direct child of a directory. -/
def IsChild (name : Text) : Prop :=
  name ≠ [] ∧ '/' ∉ name ∧ name ≠ ".".toList ∧ name ≠ "..".toList

instance (name : Text) : Decidable (IsChild name) := inferInstanceAs (Decidable (_ ∧ _ ∧ _ ∧ _))

/-- No blanks, and something else. -/
def IsField (t : Text) : Prop := t ≠ [] ∧ ∀ c ∈ t, isBlank c = false

/-- Nothing is made, recorded or mounted, or one directory directly below /mnt is, with
six fields about it. -/
def Outcome.Confined (r : Outcome) (dev : Text) : Prop :=
  (r.made = [] ∧ r.line = none ∧ r.mounted = none) ∨
    ∃ name l, IsChild name ∧ r.made = [mnt name] ∧ r.line = some l ∧ l.file = mnt name ∧
      fields l.text = [dev, mnt name, l.vfstype, l.mntops, ['0'], ['0']] ∧
      decode (mnt name) = mnt name ∧ ∀ d ∈ r.mounted, d = mnt name

/-- A word that names one directory below /mnt, in fstab too. -/
structure Outside.Names (o : Outside) (lbl : Text) : Prop where
  child : IsChild lbl
  field : IsField lbl
  /-- `lbl` is no pattern that matches other files -/
  kept : o.filesThen (mnt lbl) = [mnt lbl]
  /-- there is no escaped character in it -/
  decoded : decode lbl = lbl

/-- hot_aux.sh is not started with five words, or does not come to make a directory, or
the fourth word is a name and the options are one field. -/
def Outside.Fits (o : Outside) (p : Filesystem) : Prop :=
  ∀ fsckcmd fsopt mopts lbl fstype, o.arguments p = [fsckcmd, fsopt, mopts, lbl, fstype] →
    o.proceeds p fsckcmd = true → o.Names lbl ∧ IsField (o.options fsckcmd mopts)

/-! ## Reading the line -/

theorem IsField.words {t : Text} (ht : IsField t) : AltF.Shell.words t = [t] :=
  words_eq_singleton ht.1 ht.2

/-- A word is a field. -/
theorem isField_of_mem_words {t w : Text} (hw : w ∈ words t) : IsField w := by
  refine ⟨?_, not_blank_of_mem_words hw⟩
  rw [words, List.mem_filter] at hw
  simpa using hw.2

theorem mnt_ne_nil (lbl : Text) : mnt lbl ≠ [] := List.cons_ne_nil _ _

/-- What stands behind /mnt/ decides what is in the path. -/
theorem isField_mnt {lbl : Text} (h : ∀ c ∈ lbl, isBlank c = false) : IsField (mnt lbl) := by
  refine ⟨mnt_ne_nil lbl, fun c hc => ?_⟩
  rcases List.mem_append.mp hc with hc | hc
  · have hsolid : "/mnt/".toList.all (fun c => !isBlank c) = true := rfl
    simpa using List.all_eq_true.mp hsolid c hc
  · exact h c hc

theorem words_mnt (lbl : Text) : ∃ w ws, words (mnt lbl) = w :: ws := by
  have hroot : IsField (mnt []) := isField_mnt nofun
  have hsolid : ∀ c ∈ "/mnt/".toList, isBlank c = false := hroot.2
  obtain ⟨r, ws, hw⟩ := words_append_of_not_blank (List.cons_ne_nil _ _) hsolid lbl
  exact ⟨_, ws, hw⟩

theorem decode_mnt (lbl : Text) : decode (mnt lbl) = mnt (decode lbl) := rfl

theorem mnt_injective {s t : Text} (h : mnt s = mnt t) : s = t := List.append_cancel_left h

/-- The device is a field, and is read as itself. -/
theorem Filesystem.isField_dev (p : Filesystem) : IsField p.dev := by
  refine ⟨List.append_ne_nil_of_right_ne_nil _ (List.cons_ne_nil _ _), fun c hc => ?_⟩
  have hchar := List.all_eq_true.mp p.named c hc
  rw [isFieldChar, Bool.and_eq_true, Bool.not_eq_true'] at hchar
  exact hchar.1

/-- Without a backslash nothing is escaped. -/
theorem decode_append {t : Text} (ht : '\\' ∉ t) (u : Text) : decode (t ++ u) = t ++ decode u := by
  induction t with
  | nil => rfl
  | cons c t ih =>
      have hc : c ≠ '\\' := fun h => ht (h ▸ List.mem_cons_self)
      rw [List.cons_append, decode, ih fun h => ht (List.mem_cons_of_mem c h), List.cons_append]
      intros
      exact absurd ‹_› hc

theorem decode_of_not_mem {t : Text} (ht : '\\' ∉ t) : decode t = t := by
  have h := decode_append ht []
  rwa [List.append_nil, decode, List.append_nil] at h

theorem decode_eq_nil {t : Text} (ht : decode t = []) : t = [] := by
  unfold decode at ht
  split at ht
  · split at ht <;> cases ht
  · cases ht
  · rfl

theorem Filesystem.decode_dev (p : Filesystem) : decode p.dev = p.dev := by
  refine decode_of_not_mem fun hmem => ?_
  have hchar := List.all_eq_true.mp p.named '\\' hmem
  cases hchar

/-- The words of a line are those of its parts. -/
theorem FstabLine.fields_text (l : FstabLine) :
    fields l.text = words l.spec ++ (words l.file ++ (words l.vfstype ++
      (words l.mntops ++ [['0'], ['0']]))) := by
  rw [fields, text, words_append_cons _ _ rfl, words_append_cons _ _ rfl,
    words_append_cons _ _ rfl]
  exact congrArg _ (congrArg _ (congrArg _ (words_append_cons l.mntops "0 0".toList rfl)))

/-! ## The arguments -/

/-- The types that get a directory. -/
def fstypes : List Text :=
  ["ext2".toList, "ext3".toList, "ext4".toList, "exfat".toList, "iso9660".toList, "vfat".toList,
    "btrfs".toList, "ntfs-3g".toList]

theorem Outside.mem_fstypes {o : Outside} {type fsckcmd fsopt fstype : Text}
    (h : o.checker type = some (fsckcmd, fsopt, fstype)) : fstype ∈ fstypes := by
  unfold checker at h
  split_ifs at h with hext hiso hvfat hbtrfs htools hntfs hfix <;> cases h
  · exact List.mem_append_left ["iso9660".toList, "vfat".toList, "btrfs".toList,
      "ntfs-3g".toList] (List.contains_iff_mem.mp hext)
  · simp [fstypes, hiso]
  · simp [fstypes, hvfat]
  · simp [fstypes, hbtrfs]
  · simp [fstypes]
  · simp [fstypes]

theorem fstypes_solid : fstypes.all (fun t => t != [] && t.all solidChar) = true := rfl

theorem Outside.solid_fstype {o : Outside} {type fsckcmd fsopt fstype : Text}
    (h : o.checker type = some (fsckcmd, fsopt, fstype)) :
    fstype ≠ [] ∧ fstype.all solidChar = true := by
  have hsolid := List.all_eq_true.mp fstypes_solid fstype (mem_fstypes h)
  simpa using hsolid

/-- The last argument is the type. -/
theorem Outside.isField_last {o : Outside} {p : Filesystem} {ws : List Text} {w : Text}
    (h : o.arguments p = ws ++ [w]) : IsField w := by
  rw [arguments] at h
  cases hc : o.checker p.type with
  | none =>
      rw [hc] at h
      exact absurd h.symm (List.append_ne_nil_of_right_ne_nil ws (List.cons_ne_nil w []))
  | some k =>
      obtain ⟨fsckcmd, fsopt, fstype⟩ := k
      obtain ⟨hne, hsolid⟩ := solid_fstype hc
      have hlast : expand o.files fstype = [fstype] := expand_of_solid o.globs hne hsolid
      rw [hc] at h
      have hw : w = fstype := by
        have hgetLast := congrArg List.getLast? h
        simpa [hlast] using hgetLast.symm
      rw [hw]
      exact ⟨hne, fun c hc =>
        ((solidChar_iff c).mp (List.all_eq_true.mp hsolid c hc)).1⟩

/-! ## Exactly when a mount is confined -/

theorem isField_iff_words (t : Text) : words t = [t] ↔ IsField t :=
  ⟨fun h => isField_of_mem_words (h ▸ List.mem_cons_self), IsField.words⟩

/-- The appended line is the last about the device. -/
theorem mountDir_append (fstab : List Text) {l : Text} {dev file : Text} {rest : List Text}
    (hl : fields l = dev :: file :: rest) (hdev : decode dev = dev) :
    mountDir (fstab ++ [l]) dev = some (decode file) := by
  have hfind : (fstab ++ [l]).reverse.find? (fun l => (fields l).head?.map decode = some dev) =
      some l := by
    rw [List.reverse_append, List.reverse_singleton, List.singleton_append]
    refine List.find?_cons_of_pos ?_
    simp [hl, hdev]
  rw [mountDir, hfind]
  simp [hl]

/-- Six fields, when every part is one. -/
theorem FstabLine.fields_of_isField {l : FstabLine} (hspec : IsField l.spec)
    (hfile : IsField l.file) (htype : IsField l.vfstype) (hopts : IsField l.mntops) :
    fields l.text = [l.spec, l.file, l.vfstype, l.mntops, ['0'], ['0']] := by
  rw [l.fields_text, hspec.words, hfile.words, htype.words, hopts.words]
  rfl

namespace Outside

variable {o : Outside} {p : Filesystem} {fsckcmd fsopt mopts lbl fstype : Text}

theorem hotAux_of_proceeds (hgo : o.proceeds p fsckcmd = true) (fstab : List Text) :
    o.hotAux p fstab [fsckcmd, fsopt, mopts, lbl, fstype] =
      o.mountSection p fstab lbl ⟨p.dev, mnt lbl, fstype, o.options fsckcmd mopts⟩ :=
  if_pos hgo

theorem Names.confined (hname : o.Names lbl) {l : FstabLine} (hspec : l.spec = p.dev)
    (hfile : l.file = mnt lbl) (htype : IsField l.vfstype) (hopts : IsField l.mntops)
    (fstab : List Text) : (o.mountSection p fstab lbl l).Confined p.dev := by
  have hmnt : IsField (mnt lbl) := isField_mnt hname.field.2
  have hdecode : decode (mnt lbl) = mnt lbl := by rw [decode_mnt, hname.decoded]
  have hfields := FstabLine.fields_of_isField (hspec ▸ p.isField_dev) (hfile ▸ hmnt) htype hopts
  rw [hspec, hfile] at hfields
  refine Or.inr ⟨lbl, l, hname.child, ?_, rfl, hfile, hfields, hdecode, fun d hd => ?_⟩
  · change expand o.filesThen (mnt lbl) = [mnt lbl]
    rw [expand, hmnt.words, List.flatMap_singleton, hname.kept]
  · have hdir : mountDir (record p fstab l) p.dev = some (mnt lbl) := by
      rw [record, mountDir_append _ hfields p.decode_dev, hdecode]
    have hd' : (if "noauto".toList <:+: l.mntops ∨ o.mounts = false then none
        else mountDir (record p fstab l) p.dev) = some d := hd
    rw [hdir] at hd'
    split at hd'
    · cases hd'
    · exact (Option.some.inj hd').symm

/-- What a confined mount says about the fourth argument and the options. -/
theorem names_of_confined {fstab : List Text} {l : FstabLine} (hspec : l.spec = p.dev)
    (hfile : l.file = mnt lbl) (htype : IsField l.vfstype)
    (h : (o.mountSection p fstab lbl l).Confined p.dev) : o.Names lbl ∧ IsField l.mntops := by
  obtain ⟨-, hline, -⟩ | ⟨name, l', hchild, hmade, hl, hname, hfields, hdecode, -⟩ := h
  · cases hline
  · obtain rfl : l = l' := Option.some.inj hl
    obtain rfl : lbl = name := mnt_injective (hfile ▸ hname)
    rw [FstabLine.fields_text, hspec, hfile, p.isField_dev.words, htype.words] at hfields
    have hrest : words (mnt lbl) ++ ([l.vfstype] ++ (words l.mntops ++ [['0'], ['0']])) =
        [mnt lbl, l.vfstype, l.mntops, ['0'], ['0']] := (List.cons.inj hfields).2
    have hfield : IsField (mnt lbl) := by
      obtain ⟨w, ws, hw⟩ := words_mnt lbl
      rw [hw, List.cons_append] at hrest
      refine isField_of_mem_words (t := mnt lbl) ?_
      rw [hw, (List.cons.inj hrest).1]
      exact List.mem_cons_self
    rw [hfield.words] at hrest
    have htail : words l.mntops ++ [['0'], ['0']] = [l.mntops] ++ [['0'], ['0']] :=
      (List.cons.inj (List.cons.inj hrest).2).2
    have hopts : words l.mntops = [l.mntops] := List.append_cancel_right htail
    refine ⟨⟨hchild, ⟨hchild.1, ?_⟩, ?_, ?_⟩, (isField_iff_words _).mp hopts⟩
    · exact fun c hc => hfield.2 c (List.mem_append_right _ hc)
    · have hexp : expand o.filesThen (mnt lbl) = [mnt lbl] := hmade
      rwa [expand, hfield.words, List.flatMap_singleton] at hexp
    · rw [decode_mnt] at hdecode
      exact mnt_injective hdecode

end Outside

/-- **Auto-mount confinement**: exactly when the fourth argument of hot_aux.sh is a name. -/
theorem mount_confined_iff (o : Outside) (p : Filesystem) (fstab : List Text) :
    (o.mount p fstab).Confined p.dev ↔ o.Fits p := by
  have htype : ∀ {fsckcmd fsopt mopts lbl fstype : Text},
      o.arguments p = [fsckcmd, fsopt, mopts, lbl, fstype] → IsField fstype := by
    intro fsckcmd fsopt mopts lbl fstype hargs
    have hlast : o.arguments p = [fsckcmd, fsopt, mopts, lbl] ++ [fstype] := hargs
    exact Outside.isField_last hlast
  constructor
  · intro h fsckcmd fsopt mopts lbl fstype hargs hgo
    rw [Outside.mount, hargs, Outside.hotAux_of_proceeds hgo] at h
    exact Outside.names_of_confined rfl rfl (htype hargs) h
  · intro h
    unfold Outside.mount Outside.hotAux
    split
    · rename_i fsckcmd fsopt mopts lbl fstype hargs
      split
      · rename_i hgo
        obtain ⟨hname, hopts⟩ := h fsckcmd fsopt mopts lbl fstype hargs hgo
        exact hname.confined rfl rfl (htype hargs) hopts fstab
      · exact Or.inl ⟨rfl, rfl, rfl⟩
    · exact Or.inl ⟨rfl, rfl, rfl⟩

/-- A machine where no pattern matches a file, and every command succeeds. -/
def quiet : Outside where
  files := noFiles
  globs := globs_noFiles
  filesThen := noFiles
  echo := fun ws => join ws ++ ['\n']
  btrfs := true
  ntfsfix := true
  checked := true
  fsck := 0
  mountpoint := false
  mounts := true

/-- A stick with the label `../etc`. -/
def stick : Filesystem where
  pwd := "/dev".toList
  mdev := "sda1".toList
  dmname := []
  label := "../etc".toList
  type := "ext4".toList
  mopts := "defaults".toList
  named := rfl

theorem mount_stick : (quiet.mount stick []).made = [mnt "../etc".toList] ∧
    (quiet.mount stick []).mounted = some (mnt "../etc".toList) := by
  decide +kernel

/-- It is mounted on /etc. -/
theorem mount_outside : (quiet.mount stick []).mounted = some "/mnt/../etc".toList ∧
    ¬ (quiet.mount stick []).Confined stick.dev := by
  obtain ⟨hmade, hmounted⟩ := mount_stick
  refine ⟨hmounted, ?_⟩
  rintro (⟨-, -, hnone⟩ | ⟨name, l, ⟨-, hslash, -⟩, hname, -⟩)
  · rw [hmounted] at hnone
    cases hnone
  · rw [hmade] at hname
    have heq : "../etc".toList = name := mnt_injective (List.cons.inj hname).1
    refine hslash ?_
    rw [← heq]
    exact List.mem_of_elem_eq_true rfl

end AltF.Hotplug
