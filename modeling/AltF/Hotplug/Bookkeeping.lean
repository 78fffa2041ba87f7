/-
  Hotplug/Bookkeeping.lean --- hot.sh and hot_aux.sh: what they look up in /proc/mounts and
  delete from fstab for one device.

  grep and sed look for lines that begin with the device's path, which the paths of other
  devices may begin with.  awk and `grep -w` look behind it.
-/
import AltF.Hotplug.Mount
import AltF.Shell.Eval
import AltF.SysFiles.Edits

set_option autoImplicit false

namespace AltF.Hotplug

open AltF.Foundation AltF.Shell AltF.SysFiles

/-! ## The scripts -/

/-- A character of a device name. -/
def isDeviceChar (c : Char) : Bool := isNameChar c || c == '-'

/-- `MDEV` -/
structure Device where
  name : Text
  named : name ≠ [] ∧ name.all isDeviceChar = true

/-- `$PWD/$MDEV`, in the directory where mdev starts the scripts. -/
def Device.path (d : Device) : Text := "/dev/".toList ++ d.name

/-- `^/dev/$MDEV` -/
def Device.startsLine (d : Device) (l : Text) : Bool := d.path.isPrefixOf l

/-- `grep -q "^/dev/$MDEV" /proc/mounts`, in `check`. -/
def Device.alreadyMounted (d : Device) (mounts : List FstabLine) : Bool :=
  mounts.any fun e => d.startsLine e.text

/-- Why fstab is edited. -/
inductive Change where
  /-- the end of hot_aux.sh -/
  | mounted (lbl fstype mopts : Text)
  /-- `add_partition`, for swap -/
  | swapped (swapPri : Text)
  /-- `remove_partition`, after umount -/
  | unmounted

/-- `echo ... >> $FSTAB` -/
def Change.newLine (d : Device) : Change → Option FstabLine
  | mounted lbl fstype mopts => some ⟨d.path, mnt lbl, fstype, mopts⟩
  | swapped swapPri => some ⟨d.path, "none".toList, "swap".toList, "pri=".toList ++ swapPri⟩
  | unmounted => none

/-- `sed -i '\|^'$PWD/$MDEV'|d' $FSTAB`, and the new line. -/
def Change.edit (d : Device) (k : Change) : Edit :=
  ⟨d.startsLine, (k.newLine d).toList.map FstabLine.text⟩

/-- A character of a word, for `grep -w`. -/
def isWordEnd (c : Option Char) : Bool := !c.any isNameChar

/-- `grep -qw $PWD/$MDEV`, behind `before`. -/
def wordIn (p : Text) (before : Option Char) : Text → Bool
  | [] => p.isEmpty && isWordEnd before
  | c :: t =>
      (isWordEnd before && p.isPrefixOf (c :: t) && isWordEnd ((c :: t).drop p.length).head?) ||
        wordIn p (some c) t

/-- `awk '/^\/dev\/'$MDEV'\s/{print $2}' /proc/mounts` -/
def Device.mountPoints (d : Device) (mounts : List FstabLine) : List Text :=
  (mounts.filter fun e =>
    d.startsLine e.text && (e.text.drop d.path.length).head?.any isSpace).map fun e =>
      (fields e.text).getD 1 []

/-- What `remove_partition` meets. -/
structure Removal where
  /-- /proc/swaps -/
  swaps : List Text
  mounts : List FstabLine
  /-- nothing fails up to `umount -lr $mpt`, and it succeeds -/
  freed : List Text → Bool

/-- fstab after `remove_partition`. -/
def Device.removePartition (d : Device) (r : Removal) (fstab : TextFile) : TextFile :=
  if r.swaps.any (wordIn d.path none) then fstab
  else if r.mounts.any fun e => wordIn d.path none e.text then
    if r.freed (d.mountPoints r.mounts) then (Change.unmounted.edit d).onFile fstab else fstab
  else fstab

/-! ## Entries -/

/-- A line of fstab about the device. -/
def Device.hasEntry (d : Device) (l : Text) : Bool := (fields l).head?.map decode == some d.path

/-- The kernel's lines have no blanks in their fields. -/
structure Printed (e : FstabLine) : Prop where
  spec : ∀ c ∈ e.spec, isSpace c = false
  file : IsField e.file

/-- The device is found where it is mounted, and each change of fstab removes its entries, keeps
the other lines as they are, and puts the new one behind them. -/
structure Device.Kept (d : Device) (mounts : List FstabLine) (fstab : TextFile) : Prop where
  found : d.alreadyMounted mounts = true ↔ ∃ e ∈ mounts, e.spec = d.path
  edited : ∀ k : Change, ((k.edit d).onFile fstab).lines =
    fstab.lines.filter (fun l => !d.hasEntry l) ++ (k.edit d).lines

/-- A line in which the pattern tells the device from others. -/
structure Device.Clear (d : Device) (l : Text) : Prop where
  /-- no path of another device that begins as this one -/
  whole : d.path <+: l → (fields l).head? = some d.path
  /-- the entry stands at the beginning of its line, without an escaped character -/
  plain : d.hasEntry l = true → d.path <+: l

/-- The condition on the files. -/
structure Device.Apart (d : Device) (mounts : List FstabLine) (fstab : TextFile) : Prop where
  mounts : ∀ e ∈ mounts, d.path <+: e.spec → ∃ e ∈ mounts, e.spec = d.path
  clear : ∀ l ∈ fstab.lines, d.Clear l
  /-- fstab ends with a newline, or with a line that is deleted -/
  ended : fstab.rest = [] ∨ d.path <+: fstab.rest

/-! ## Paths -/

namespace Device

variable (d : Device)

theorem path_chars : ∀ c ∈ d.path, isBlank c = false ∧ c ≠ '\\' := by
  intro c hc
  rcases List.mem_append.mp hc with hc | hc
  · have hdev : "/dev/".toList.all (fun c => !isBlank c && c != '\\') = true := rfl
    simpa using List.all_eq_true.mp hdev c hc
  · have hchar : isDeviceChar c = true := List.all_eq_true.mp d.named.2 c hc
    have hothers : ∀ x ∈ " \t\n\\".toList, isDeviceChar x = false :=
      forall_of_all (by decide)
    have hne : ∀ x ∈ " \t\n\\".toList, c ≠ x := fun x hx h =>
      absurd ((hothers x hx).symm.trans (h ▸ hchar)) Bool.false_ne_true
    refine ⟨?_, hne _ (by decide)⟩
    rw [isBlank, beq_eq_false_iff_ne.mpr (hne ' ' (by decide)),
      beq_eq_false_iff_ne.mpr (hne '\t' (by decide)),
      beq_eq_false_iff_ne.mpr (hne '\n' (by decide))]
    rfl

theorem path_ne_nil : d.path ≠ [] := List.cons_ne_nil _ _

theorem decode_path_append (r : Text) : decode (d.path ++ r) = d.path ++ decode r :=
  decode_append (fun h => (d.path_chars _ h).2 rfl) r

/-- What begins with the path has it as the beginning of its first field. -/
theorem head_of_starts {l : Text} (h : d.path <+: l) :
    ∃ r, (fields l).head? = some (d.path ++ r) := by
  obtain ⟨t, rfl⟩ := h
  obtain ⟨r, ws, hwords⟩ :=
    words_append_of_not_blank d.path_ne_nil (fun c hc => (d.path_chars c hc).1) t
  exact ⟨r, by rw [fields, hwords]; rfl⟩

theorem hasEntry_of_head? {l : Text} (h : (fields l).head? = some d.path) :
    d.hasEntry l = true := by
  rw [hasEntry, h, Option.map_some, beq_iff_eq, ← List.append_nil d.path, d.decode_path_append]
  rfl

/-- **The pattern** tells the lines of the device exactly where they are clear. -/
theorem clear_iff (l : Text) : d.Clear l ↔ d.startsLine l = d.hasEntry l := by
  rw [Bool.eq_iff_iff, startsLine, List.isPrefixOf_iff_prefix]
  constructor
  · exact fun h => ⟨fun hstarts => d.hasEntry_of_head? (h.whole hstarts), h.plain⟩
  · refine fun h => ⟨fun hstarts => ?_, h.mpr⟩
    obtain ⟨r, hhead⟩ := d.head_of_starts hstarts
    have hpath := h.mp hstarts
    rw [hasEntry, hhead, Option.map_some, beq_iff_eq, d.decode_path_append] at hpath
    have hnil : decode r = [] := List.append_right_eq_self.mp (Option.some.inj hpath)
    rw [hhead, decode_eq_nil hnil, List.append_nil]

/-- The line of a mount begins with the path where its device does. -/
theorem startsLine_text (e : FstabLine) : d.startsLine e.text = true ↔ d.path <+: e.spec := by
  rw [startsLine, List.isPrefixOf_iff_prefix, FstabLine.text]
  refine ⟨prefix_of_append_cons fun h => ?_, fun h => h.trans (List.prefix_append _ _)⟩
  exact absurd (d.path_chars _ h).1 (by decide)

theorem alreadyMounted_iff (mounts : List FstabLine) :
    d.alreadyMounted mounts = true ↔ ∃ e ∈ mounts, d.path <+: e.spec := by
  rw [alreadyMounted, List.any_eq_true]
  exact exists_congr fun e => and_congr_right fun _ => d.startsLine_text e

/-- **The books of one device** are kept exactly where the others are apart from it. -/
theorem kept_iff (mounts : List FstabLine) (fstab : TextFile) :
    d.Kept mounts fstab ↔ d.Apart mounts fstab := by
  have hfound : (d.alreadyMounted mounts = true ↔ ∃ e ∈ mounts, e.spec = d.path) ↔
      ∀ e ∈ mounts, d.path <+: e.spec → ∃ e ∈ mounts, e.spec = d.path := by
    rw [d.alreadyMounted_iff]
    constructor
    · exact fun h e he hstarts => h.mp ⟨e, he, hstarts⟩
    · refine fun h => ⟨fun ⟨e, he, hstarts⟩ => h e he hstarts, ?_⟩
      rintro ⟨e, he, hspec⟩
      exact ⟨e, he, hspec ▸ List.prefix_refl _⟩
  have hclear : (∀ l ∈ fstab.lines, d.startsLine l = d.hasEntry l) ↔
      ∀ l ∈ fstab.lines, d.Clear l :=
    forall₂_congr fun l _ => (d.clear_iff l).symm
  have hended : d.startsLine fstab.rest = true ↔ d.path <+: fstab.rest := List.isPrefixOf_iff_prefix
  constructor
  · intro h
    have hmounted := (Edit.lines_onFile_iff _ _ _).mp (h.edited (.mounted [] [] []))
    refine ⟨hfound.mp h.found, hclear.mp hmounted.1, ?_⟩
    exact (hmounted.2.resolve_left (List.cons_ne_nil _ _)).imp_right hended.mp
  · intro h
    refine ⟨hfound.mpr h.mounts, fun k => (Edit.lines_onFile_iff _ _ _).mpr ⟨?_, Or.inr ?_⟩⟩
    · exact hclear.mpr h.clear
    · exact h.ended.imp_right hended.mpr

/-! ## The other patterns -/

/-- awk looks at the character behind the path. -/
theorem mountPoints_eq {mounts : List FstabLine} (h : ∀ e ∈ mounts, Printed e) :
    d.mountPoints mounts = (mounts.filter fun e => e.spec = d.path).map FstabLine.file := by
  have hfilter : mounts.filter (fun e =>
      d.startsLine e.text && (e.text.drop d.path.length).head?.any isSpace) =
        mounts.filter fun e => e.spec = d.path := by
    refine List.filter_congr fun e he => ?_
    rw [Bool.eq_iff_iff, Bool.and_eq_true, d.startsLine_text, decide_eq_true_iff]
    constructor
    · rintro ⟨⟨r, hspec⟩, hspace⟩
      cases r with
      | nil => rw [← hspec, List.append_nil]
      | cons c r =>
          rw [FstabLine.text, ← hspec, List.append_assoc, List.drop_left, List.cons_append,
            List.head?_cons, Option.any_some] at hspace
          have hc := (h e he).spec c (hspec ▸ List.mem_append_right _ List.mem_cons_self)
          exact absurd (hc.symm.trans hspace) Bool.false_ne_true
    · intro hspec
      refine ⟨hspec ▸ List.prefix_refl _, ?_⟩
      rw [FstabLine.text, hspec, List.drop_left]
      rfl
  rw [mountPoints, hfilter]
  refine List.map_congr_left fun e he => ?_
  obtain ⟨hmem, hspec⟩ := List.mem_filter.mp he
  have hfield : IsField e.spec := by
    rw [of_decide_eq_true hspec]
    exact ⟨d.path_ne_nil, fun c hc => (d.path_chars c hc).1⟩
  rw [e.fields_text, hfield.words, (h e hmem).file.words]
  rfl

/-- `grep -w` finds a device that is mounted. -/
theorem wordIn_text {e : FstabLine} (he : e.spec = d.path) : wordIn d.path none e.text = true := by
  have hprefix : d.path.isPrefixOf e.text = true :=
    (d.startsLine_text e).mpr (he ▸ List.prefix_refl _)
  have hdrop : isWordEnd (e.text.drop d.path.length).head? = true := by
    rw [FstabLine.text, he, List.drop_left]
    rfl
  cases htext : e.text with
  | nil =>
      rw [htext] at hprefix
      exact absurd (List.prefix_nil.mp (List.isPrefixOf_iff_prefix.mp hprefix)) d.path_ne_nil
  | cons c t =>
      rw [htext] at hprefix hdrop
      rw [wordIn, hprefix, hdrop]
      rfl

/-- A device that is mounted, and can be freed, leaves fstab. -/
theorem removePartition_lines {r : Removal} {fstab : TextFile} (h : ∀ e ∈ r.mounts, Printed e)
    (hmounted : ∃ e ∈ r.mounts, e.spec = d.path) (hswap : ∀ l ∈ r.swaps, ¬ wordIn d.path none l)
    (hfreed : r.freed ((r.mounts.filter fun e => e.spec = d.path).map FstabLine.file) = true)
    (hclear : ∀ l ∈ fstab.lines, d.Clear l) :
    (d.removePartition r fstab).lines = fstab.lines.filter fun l => !d.hasEntry l := by
  have hnoswap : ¬ r.swaps.any (wordIn d.path none) = true := by
    rw [List.any_eq_true]
    exact fun ⟨l, hl, hword⟩ => hswap l hl hword
  have hword : (r.mounts.any fun e => wordIn d.path none e.text) = true := by
    obtain ⟨e, he, hspec⟩ := hmounted
    exact List.any_eq_true.mpr ⟨e, he, d.wordIn_text hspec⟩
  have hedit := (Edit.lines_onFile_iff (Change.unmounted.edit d) d.hasEntry fstab).mpr
    ⟨fun l hl => (d.clear_iff l).mp (hclear l hl), Or.inl rfl⟩
  rw [removePartition, if_neg hnoswap, if_pos hword, d.mountPoints_eq h, if_pos hfreed, hedit]
  exact List.append_nil _

end Device

/-- The mount section of hot_aux.sh makes this change, in a file that ends with a newline. -/
theorem onFile_record {d : Device} {p : Filesystem} (hp : p.dev = d.path)
    (fstab : List Text) (lbl fstype mopts : Text) :
    ((Change.mounted lbl fstype mopts).edit d).onFile ⟨fstab, []⟩ =
      ⟨Outside.record p fstab ⟨p.dev, mnt lbl, fstype, mopts⟩, []⟩ := by
  rw [Edit.onFile_terminated, Outside.record, hp]
  rfl

/-- The first partition of a disk that has ten. -/
def sda1 : Device := ⟨"sda1".toList, by decide⟩

/-- The line of the tenth. -/
def sda10Line : FstabLine :=
  ⟨"/dev/sda10".toList, "/mnt/sda10".toList, "ext4".toList, "defaults".toList⟩

/-- It goes with the first. -/
theorem not_kept_sda10 : ¬ ∀ (d : Device) (mounts : List FstabLine) (fstab : TextFile),
    d.Kept mounts fstab := by
  intro h
  have hedited := (h sda1 [] ⟨[sda10Line.text], []⟩).edited .unmounted
  exact absurd hedited (by decide +kernel)

end AltF.Hotplug
