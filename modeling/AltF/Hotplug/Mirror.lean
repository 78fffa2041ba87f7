/-
  Hotplug/Mirror.lean --- /etc/bay over runs of disks that are plugged and unplugged: it
  has the five lines of every disk that is there, and nothing else.

  The file is one block of lines for each disk, in the order in which they came.  What
  keeps it so is that `.` of the file, in `remove_disk`, gives the bay of the device back;
  a string that ends its quotes, or has something evaluated, breaks this.
-/
import Mathlib.Data.List.Nodup
import AltF.Hotplug.Events

set_option autoImplicit false

namespace AltF.Hotplug

open AltF.Foundation AltF.Shell AltF.SysFiles

/-! ## What the file is to have -/

/-- A device name `sd<letter>`. -/
def IsSd (mdev : Text) : Prop := ∃ c : Char, c.isLower = true ∧ mdev = ['s', 'd', c]

/-- The names that stand in front of the `=` in the lines of a disk. -/
def Disk.keys (d : Disk) : List Text :=
  [d.bay ++ "_dev".toList, d.mdev, d.bay ++ "_cap".toList, d.bay ++ "_fam".toList,
    d.bay ++ "_mod".toList]

/-- The lines that begin with `key=`. -/
def linesOf (key : Text) (bay : List Text) : List Text :=
  bay.filter fun l => (key ++ ['=']).isPrefixOf l

/-- **The file mirrors the disks.** -/
structure Mirrored (present : List Disk) (bay : List Text) : Prop where
  /-- each of the five lines of a disk is there once -/
  once : ∀ d ∈ present, ∀ key ∈ d.keys, (linesOf key bay).length = 1
  dev : ∀ d ∈ present, d.bay ++ "_dev".toList ++ '=' :: d.mdev ∈ bay
  slot : ∀ d ∈ present, d.mdev ++ '=' :: d.bay ∈ bay
  /-- nothing is there for others -/
  nothing : ∀ l ∈ bay, l ≠ [] → ∃ d ∈ present, ∃ key ∈ d.keys, key ++ ['='] <+: l
  /-- devices and bays are inverse to each other -/
  inverse : ∀ b m, IsSd m → (b ++ "_dev".toList ++ '=' :: m ∈ bay ↔ m ++ '=' :: b ∈ bay)

/-! ## Events -/

/-- One run of hot.sh for a disk. -/
inductive DiskEvent where
  | add (sh : Process) (d : Disk)
  | remove (sh : Process) (mdev : Text)

/-- The disks that are plugged, and /etc/bay, when it is known. -/
structure Plugs where
  present : List Disk
  file : Option (List Text)

def Plugs.step (s : Plugs) : DiskEvent → Plugs
  | .add sh d => ⟨s.present ++ [d], s.file.bind (addDisk sh d)⟩
  | .remove sh mdev => ⟨s.present.filter (·.mdev ≠ mdev), s.file.bind (removeDisk sh mdev)⟩

/-- As rcS leaves it: `echo > /etc/bay`. -/
def Plugs.boot : Plugs := ⟨[], some [[]]⟩

/-- A bay holds one disk, and a device that is added is not there. -/
def DiskEvent.Legal (s : Plugs) : DiskEvent → Prop
  | .add _ d => IsSd d.mdev ∧ ∀ d' ∈ s.present, d'.bay ≠ d.bay ∧ d'.mdev ≠ d.mdev
  | .remove sh mdev => (∃ d ∈ s.present, d.mdev = mdev) ∨ (IsSd mdev ∧ sh.env mdev = [])

/-- After the event the file mirrors the disks. -/
def Mirrors (s : Plugs) (e : DiskEvent) : Prop :=
  ∃ bay, (s.step e).file = some bay ∧ Mirrored (s.step e).present bay

/-! ## Strings that stay in their quotes -/

/-- A text that is still between its double quotes when `echo` has written it. -/
structure Holds (sh : Process) (n t : Text) : Prop where
  intact : intact true (squeeze t) = true
  glob : ∀ w ∈ words (assignLine n t), sh.glob w = [w]

/-- `$fam` -/
def Disk.famText (d : Disk) : Text :=
  if d.smart then shownValue familyLabel d.family else commandSubst (d.vendor ++ ['\n'])

/-- `$mod` -/
def Disk.modText (d : Disk) : Text :=
  if d.smart then shownValue modelLabel d.model else commandSubst (d.sysModel ++ ['\n'])

/-- A disk whose strings stay in their quotes, in awk's output and in the file. -/
structure Disk.Contained (sh : Process) (d : Disk) : Prop where
  evaluated : ∀ x ∈ d.pairs, AltF.Shell.intact true (squeeze x.2) = true
  glob : ∀ w ∈ words (commandSubst d.awk), sh.glob w = [w]
  fam : Holds sh (d.bay ++ "_fam".toList) d.famText
  mod : Holds sh (d.bay ++ "_mod".toList) d.modText

def DiskEvent.Contained : DiskEvent → Prop
  | .add sh d => d.Contained sh
  | .remove _ _ => True

/-- The script's two variables. -/
theorem evalDisk_of_contained {sh : Process} {d : Disk} (h : d.Contained sh) :
    evalDisk sh d = some (d.famText, d.modText) := by
  rw [evalDisk_eq h.glob h.evaluated]
  unfold Disk.famText Disk.modText
  cases d.smart <;> rfl

/-! ## The blocks of the file -/

/-- The block of a disk. -/
structure Row where
  disk : Disk
  fam : Text
  mod : Text
  sd : IsSd disk.mdev
  fam_intact : intact true fam = true
  mod_intact : intact true mod = true

namespace Row

def lines (r : Row) : List Text :=
  [r.disk.bay ++ "_dev".toList ++ '=' :: r.disk.mdev, r.disk.mdev ++ '=' :: r.disk.bay,
    assignLine (r.disk.bay ++ "_cap".toList) r.disk.cap,
    assignLine (r.disk.bay ++ "_fam".toList) r.fam, assignLine (r.disk.bay ++ "_mod".toList) r.mod]

end Row

/-- The file. -/
def fileOf (rows : List Row) : List Text := [] :: rows.flatMap Row.lines

/-- **`add_disk`** of a contained disk writes its block. -/
theorem addDisk_of_contained {sh : Process} {d : Disk} (h : d.Contained sh) (hsd : IsSd d.mdev)
    (bay : List Text) :
    addDisk sh d bay = some (deleteLines d.mdev (deleteLines (d.bay ++ ['_']) bay) ++
      (Row.mk d (squeeze d.famText) (squeeze d.modText) hsd h.fam.intact h.mod.intact).lines) := by
  have hlines : newLines sh d d.famText d.modText =
      (Row.mk d (squeeze d.famText) (squeeze d.modText) hsd h.fam.intact h.mod.intact).lines :=
    newLines_squeeze h.fam.glob h.mod.glob
  rw [addDisk, evalDisk_of_contained h, evalPower_eq sh d, ← hlines]
  rfl

/-! ## Names -/

section Names

variable {d d' : Disk}

theorem not_mem_bay {c : Char} (hc : deviceChars.contains c = false) : c ∉ d.bay := fun hmem =>
  Bool.eq_false_iff.mp hc (List.all_eq_true.mp d.bay_chars c hmem)

theorem not_mem_mdev {c : Char} (hc : deviceChars.contains c = false) : c ∉ d.mdev := fun hmem =>
  Bool.eq_false_iff.mp hc (List.all_eq_true.mp d.mdev_chars c hmem)

theorem underscore_notMem : '_' ∉ d.bay ∧ '_' ∉ d.mdev :=
  ⟨not_mem_bay (by decide), not_mem_mdev (by decide)⟩

theorem bay_head : d.bay.head? = some 'r' ∨ d.bay.head? = some 'l' ∨ d.bay.head? = some 'u' := by
  unfold Disk.bay
  cases d.slot with
  | right => exact Or.inl rfl
  | left => exact Or.inr (Or.inl rfl)
  | usb => exact Or.inr (Or.inr rfl)
  | unk => exact Or.inr (Or.inr rfl)

/-- No device's name is in front of a line that begins with a bay. -/
theorem not_prefix_bay {m : Text} (hm : IsSd m) (t : Text) : ¬ m <+: d.bay ++ t := by
  obtain ⟨c, -, rfl⟩ := hm
  rintro ⟨u, hu⟩
  have hhead := congrArg List.head? hu
  have hne : d.bay ≠ [] := by
    rcases bay_head (d := d) with h | h | h <;> exact fun hnil => by simp [hnil] at h
  rw [List.head?_append_of_ne_nil _ hne] at hhead
  rcases bay_head (d := d) with h | h | h <;> exact absurd (hhead.trans h) (by simp)

theorem sd_inFront {m m' : Text} (hm : IsSd m) (hm' : IsSd m') {t : Text} (h : m <+: m' ++ t) :
    m = m' := by
  obtain ⟨c, -, rfl⟩ := hm
  obtain ⟨c', -, rfl⟩ := hm'
  obtain ⟨u, hu⟩ := h
  simp only [List.cons_append, List.nil_append, List.cons.injEq, true_and] at hu
  rw [hu.1]

/-- A bay and an underscore are in front of the lines of that bay only. -/
theorem bay_inFront {b : Text} (hb : '_' ∉ b) {t : Text} (h : b ++ ['_'] <+: d.bay ++ '_' :: t) :
    b = d.bay := by
  obtain ⟨u, hu⟩ := h
  rw [List.append_assoc] at hu
  exact eq_of_append_cons underscore_notMem.1 (Or.inl hb) hu

theorem not_prefix_mdev (b : Text) : ¬ b ++ ['_'] <+: d.mdev ++ '=' :: d.bay := by
  intro h
  have hmem : '_' ∈ d.mdev ++ '=' :: d.bay :=
    h.subset (List.mem_append_right b (List.mem_singleton_self _))
  rcases List.mem_append.mp hmem with hmem | hmem
  · exact underscore_notMem.2 hmem
  · exact underscore_notMem.1 ((List.mem_cons.mp hmem).resolve_left (by decide))

end Names

namespace Row

variable (r : Row)

/-- One line begins with the device, the others with the bay. -/
theorem of_mem_lines {l : Text} (hl : l ∈ r.lines) :
    l = r.disk.mdev ++ '=' :: r.disk.bay ∨ ∃ t, l = r.disk.bay ++ '_' :: t := by
  simp only [lines, List.mem_cons, List.not_mem_nil, or_false] at hl
  rcases hl with heq | heq | heq | heq | heq
  · exact Or.inr ⟨"dev".toList ++ '=' :: r.disk.mdev, by rw [heq, List.append_assoc]; rfl⟩
  · exact Or.inl heq
  · exact Or.inr ⟨assignLine "cap".toList r.disk.cap, by rw [heq]; simp [assignLine]⟩
  · exact Or.inr ⟨assignLine "fam".toList r.fam, by rw [heq]; simp [assignLine]⟩
  · exact Or.inr ⟨assignLine "mod".toList r.mod, by rw [heq]; simp [assignLine]⟩

/-- Whether a line is of the two kinds that an event removes. -/
theorem prefix_line {b m : Text} (hb : '_' ∉ b) (hm : IsSd m) {l : Text} (hl : l ∈ r.lines)
    (h : b ++ ['_'] <+: l ∨ m <+: l) : b = r.disk.bay ∨ m = r.disk.mdev := by
  rcases r.of_mem_lines hl with heq | ⟨t, heq⟩
  · rcases h with h | h
    · exact absurd (heq ▸ h) (not_prefix_mdev b)
    · exact Or.inr (sd_inFront hm r.sd (heq ▸ h))
  · rcases h with h | h
    · exact Or.inl (bay_inFront hb (heq ▸ h))
    · exact absurd (heq ▸ h) (not_prefix_bay hm _)

theorem own_prefix {l : Text} (hl : l ∈ r.lines) :
    r.disk.bay ++ ['_'] <+: l ∨ r.disk.mdev <+: l := by
  rcases r.of_mem_lines hl with heq | ⟨t, heq⟩
  · exact Or.inr (heq ▸ List.prefix_append _ _)
  · refine Or.inl ⟨t, ?_⟩
    rw [heq, List.append_assoc]
    rfl

end Row

theorem deleteLines_deleteLines (b m : Text) (bay : List Text) :
    deleteLines m (deleteLines b bay) =
      bay.filter fun l => !b.isPrefixOf l && !m.isPrefixOf l := by
  rw [deleteLines, deleteLines, List.filter_filter]
  exact List.filter_congr fun l _ => Bool.and_comm _ _

/-- **The patterns of a disk** remove its block, and of the file nothing else. -/
theorem deleteLines_fileOf {b m : Text} (hb : '_' ∉ b) (hm : IsSd m) {rows : List Row}
    (hsame : ∀ r ∈ rows, r.disk.bay = b ↔ r.disk.mdev = m) :
    deleteLines m (deleteLines (b ++ ['_']) (fileOf rows)) =
      fileOf (rows.filter fun r => r.disk.mdev ≠ m) := by
  have hempty : (!(b ++ ['_']).isPrefixOf ([] : Text) && !m.isPrefixOf ([] : Text)) = true := by
    obtain ⟨c, -, rfl⟩ := hm
    cases b with
    | nil => rfl
    | cons c b => rfl
  have hfirst : (fileOf rows).filter (fun l => !(b ++ ['_']).isPrefixOf l && !m.isPrefixOf l) =
      [] :: (rows.flatMap Row.lines).filter
        fun l => !(b ++ ['_']).isPrefixOf l && !m.isPrefixOf l :=
    List.filter_cons_of_pos hempty
  rw [deleteLines_deleteLines, hfirst, fileOf]
  congr 1
  clear hfirst
  induction rows with
  | nil => rfl
  | cons r rows ih =>
      have ih := ih fun x hx => hsame x (List.mem_cons_of_mem r hx)
      have hr := hsame r List.mem_cons_self
      rw [List.flatMap_cons, List.filter_append, ih]
      by_cases hmdev : r.disk.mdev = m
      · have hnone : r.lines.filter
            (fun l => !(b ++ ['_']).isPrefixOf l && !m.isPrefixOf l) = [] := by
          rw [List.filter_eq_nil_iff]
          intro l hl
          have hown := r.own_prefix hl
          rw [hr.mpr hmdev, hmdev, ← List.isPrefixOf_iff_prefix,
            ← List.isPrefixOf_iff_prefix] at hown
          rcases hown with h | h <;> simp [h]
        rw [hnone, List.filter_cons_of_neg (by simpa using hmdev), List.nil_append]
      · have hall : r.lines.filter (fun l => !(b ++ ['_']).isPrefixOf l && !m.isPrefixOf l) =
            r.lines := by
          rw [List.filter_eq_self]
          intro l hl
          have hnot : ¬ (b ++ ['_'] <+: l ∨ m <+: l) := fun h =>
            (r.prefix_line hb hm hl h).elim (fun hbay => hmdev (hr.mp hbay.symm))
              fun heq => hmdev heq.symm
          rw [not_or, ← List.isPrefixOf_iff_prefix, ← List.isPrefixOf_iff_prefix] at hnot
          simp [hnot.1, hnot.2]
        rw [hall, List.filter_cons_of_pos (by simpa using hmdev), List.flatMap_cons]

/-! ## Keys -/

theorem eq_of_bay_key {d d' : Disk} {t t' : Text} (h : d.bay ++ '_' :: t = d'.bay ++ '_' :: t') :
    d.bay = d'.bay ∧ t = t' := by
  have hbay := eq_of_append_cons underscore_notMem.1 (Or.inl underscore_notMem.1) h
  rw [hbay] at h
  exact ⟨hbay, (List.cons.inj (List.append_cancel_left h)).2⟩

theorem ne_bay_key {n : Text} (hn : '_' ∉ n) (d : Disk) (t : Text) : n ≠ d.bay ++ '_' :: t :=
  fun heq => hn (heq ▸ List.mem_append_right _ List.mem_cons_self)

namespace Disk

variable (d : Disk)

theorem of_mem_keys {key : Text} (hkey : key ∈ d.keys) :
    key = d.mdev ∨ ∃ t, key = d.bay ++ '_' :: t := by
  simp only [keys, List.mem_cons, List.not_mem_nil, or_false] at hkey
  rcases hkey with heq | heq | heq | heq | heq
  · exact Or.inr ⟨_, heq⟩
  · exact Or.inl heq
  · exact Or.inr ⟨_, heq⟩
  · exact Or.inr ⟨_, heq⟩
  · exact Or.inr ⟨_, heq⟩

theorem nodup_keys : d.keys.Nodup := by
  have hmdev : ∀ t : Text, d.mdev ≠ d.bay ++ '_' :: t := ne_bay_key underscore_notMem.2 d
  have hbay : ∀ t t' : Text, t ≠ t' → d.bay ++ t ≠ d.bay ++ t' :=
    fun t t' hne heq => hne (List.append_cancel_left heq)
  have hdev := hmdev "dev".toList
  have hcap := hmdev "cap".toList
  have hfam := hmdev "fam".toList
  have hmod := hmdev "mod".toList
  simp only [keys, List.nodup_cons, List.mem_cons, List.not_mem_nil, or_false, not_or,
    List.nodup_nil, and_true, not_false_eq_true]
  exact ⟨⟨fun h => hdev h.symm, hbay _ _ (by decide), hbay _ _ (by decide), hbay _ _ (by decide)⟩,
    ⟨hcap, hfam, hmod⟩, ⟨hbay _ _ (by decide), hbay _ _ (by decide)⟩, hbay _ _ (by decide)⟩

theorem equals_notMem_keys {key : Text} (hkey : key ∈ d.keys) : '=' ∉ key := by
  have hbay : '=' ∉ d.bay := not_mem_bay (by decide)
  have hmdev : '=' ∉ d.mdev := not_mem_mdev (by decide)
  have happend : ∀ t : Text, '=' ∉ t → '=' ∉ d.bay ++ t := fun t ht hmem =>
    (List.mem_append.mp hmem).elim hbay ht
  simp only [keys, List.mem_cons, List.not_mem_nil, or_false] at hkey
  rcases hkey with heq | heq | heq | heq | heq
  · exact heq ▸ happend _ (by decide)
  · exact heq ▸ hmdev
  · exact heq ▸ happend _ (by decide)
  · exact heq ▸ happend _ (by decide)
  · exact heq ▸ happend _ (by decide)

/-- Disks in different bays, under different names, have no key in common. -/
theorem disjoint_keys {d d' : Disk} (hbay : d.bay ≠ d'.bay) (hmdev : d.mdev ≠ d'.mdev) :
    List.Disjoint d.keys d'.keys := by
  intro key hkey hkey'
  rcases d.of_mem_keys hkey with heq | ⟨t, heq⟩
  · rcases d'.of_mem_keys hkey' with heq' | ⟨t', heq'⟩
    · exact hmdev (heq.symm.trans heq')
    · exact ne_bay_key underscore_notMem.2 d' t' (heq.symm.trans heq')
  · rcases d'.of_mem_keys hkey' with heq' | ⟨t', heq'⟩
    · exact ne_bay_key underscore_notMem.2 d t (heq'.symm.trans heq)
    · exact hbay (eq_of_bay_key (heq.symm.trans heq')).1

end Disk

namespace Row

variable (r : Row)

/-- The lines as names and values. -/
def pairs : List (Text × Text) :=
  [(r.disk.bay ++ "_dev".toList, r.disk.mdev), (r.disk.mdev, r.disk.bay),
    (r.disk.bay ++ "_cap".toList, '"' :: r.disk.cap ++ ['"']),
    (r.disk.bay ++ "_fam".toList, '"' :: r.fam ++ ['"']),
    (r.disk.bay ++ "_mod".toList, '"' :: r.mod ++ ['"'])]

theorem lines_eq : r.lines = r.pairs.map fun x => x.1 ++ '=' :: x.2 := by
  simp [lines, pairs, assignLine]

theorem keys_pairs : r.pairs.map Prod.fst = r.disk.keys := rfl

/-- What the lines assign. -/
def assigned : List (Text × Text) :=
  [(r.disk.bay ++ "_dev".toList, r.disk.mdev), (r.disk.mdev, r.disk.bay),
    (r.disk.bay ++ "_cap".toList, unquote r.disk.cap),
    (r.disk.bay ++ "_fam".toList, unquote r.fam), (r.disk.bay ++ "_mod".toList, unquote r.mod)]

theorem keys_assigned : r.assigned.map Prod.fst = r.disk.keys := rfl

end Row

/-! ## Reading the file -/

theorem read_lines (r : Row) (env : Env) :
    read nothing (env, .start) (bayText r.lines) = (assignAll env r.assigned, .start) := by
  have hname : ∀ t : Text, t.all isNameChar = true → isName (r.disk.bay ++ t) = true :=
    fun _ ht => r.disk.isName_bay ht
  have hsplit : bayText r.lines =
      (r.disk.bay ++ "_dev".toList ++ '=' :: r.disk.mdev ++ ['\n']) ++
        ((r.disk.mdev ++ '=' :: r.disk.bay ++ ['\n']) ++
          ((assignLine (r.disk.bay ++ "_cap".toList) r.disk.cap ++ ['\n']) ++
            ((assignLine (r.disk.bay ++ "_fam".toList) r.fam ++ ['\n']) ++
              (assignLine (r.disk.bay ++ "_mod".toList) r.mod ++ ['\n'])))) := by
    simp [bayText, Row.lines]
  have hcap := (intact_of_plain (all_isPlain r.disk.cap_simple)).1
  have hplain : ∀ env, ∀ n t : Text, isName n = true → t.all isPlain = true →
      read nothing (env, .start) (n ++ '=' :: t ++ ['\n']) = (Function.update env n t, .start) :=
    fun env n t hn ht => read_plain_assignment nothing (.inl rfl) env hn ht (.inr rfl)
  rw [hsplit, read_append, hplain _ _ _ (hname _ (by decide)) (all_isPlain r.disk.simple_mdev),
    read_append, hplain _ _ _ r.disk.mdev_name (all_isPlain r.disk.simple_bay),
    read_append, read_assignLine _ (hname _ (by decide)) hcap,
    read_append, read_assignLine _ (hname _ (by decide)) r.fam_intact,
    read_assignLine _ (hname _ (by decide)) r.mod_intact]
  rfl

/-- `.` of a block: the device's bay, and nothing for other names without an underscore. -/
theorem assignAll_row (r : Row) (env : Env) :
    assignAll env r.assigned r.disk.mdev = r.disk.bay ∧
      ∀ n, '_' ∉ n → n ≠ r.disk.mdev → assignAll env r.assigned n = env n := by
  have hnodup : (r.assigned.map Prod.fst).Nodup := r.keys_assigned ▸ r.disk.nodup_keys
  obtain ⟨hset, hother⟩ := assignAll_of_nodup hnodup env
  refine ⟨hset (r.disk.mdev, r.disk.bay) (by simp [Row.assigned]), fun n hn hne => hother n ?_⟩
  rw [r.keys_assigned]
  intro hkey
  rcases r.disk.of_mem_keys hkey with heq | ⟨t, heq⟩
  · exact hne heq
  · exact ne_bay_key hn r.disk t heq

/-- `.` of the blocks gives every device its bay. -/
theorem read_rows {rows : List Row} (hmdev : (rows.map fun r => r.disk.mdev).Nodup) (env : Env) :
    ∃ env', read nothing (env, .start) (bayText (rows.flatMap Row.lines)) = (env', .start) ∧
      (∀ r ∈ rows, env' r.disk.mdev = r.disk.bay) ∧
      ∀ n, '_' ∉ n → (∀ r ∈ rows, n ≠ r.disk.mdev) → env' n = env n := by
  induction rows generalizing env with
  | nil => exact ⟨env, rfl, fun r hr => absurd hr List.not_mem_nil, fun _ _ _ => rfl⟩
  | cons r rows ih =>
      rw [List.map_cons, List.nodup_cons] at hmdev
      obtain ⟨hbay₁, hother₁⟩ := assignAll_row r env
      obtain ⟨env₂, hread₂, hbay₂, hother₂⟩ := ih hmdev.2 (assignAll env r.assigned)
      refine ⟨env₂, ?_, fun x hx => ?_, fun n hn hne => ?_⟩
      · have hsplit : bayText ((r :: rows).flatMap Row.lines) =
            bayText r.lines ++ bayText (rows.flatMap Row.lines) := by
          simp [bayText]
        rw [hsplit, read_append, read_lines, hread₂]
      · rcases List.mem_cons.mp hx with heq | hx
        · have hfresh : ∀ y ∈ rows, r.disk.mdev ≠ y.disk.mdev := fun y hy hsame =>
            hmdev.1 (List.mem_map.mpr ⟨y, hy, hsame.symm⟩)
          rw [heq, hother₂ _ underscore_notMem.2 hfresh, hbay₁]
        · exact hbay₂ x hx
      · rw [hother₂ n hn fun y hy => hne y (List.mem_cons_of_mem r hy),
          hother₁ n hn (hne r List.mem_cons_self)]

/-! ## The blocks mirror the disks -/

/-- Blocks of different disks in different bays. -/
structure Apart (rows : List Row) : Prop where
  mdev : (rows.map fun r => r.disk.mdev).Nodup
  bay : (rows.map fun r => r.disk.bay).Nodup

theorem Apart.nodup_keys {rows : List Row} (h : Apart rows) :
    ((rows.flatMap Row.pairs).map Prod.fst).Nodup := by
  have hmap : (rows.flatMap Row.pairs).map Prod.fst = rows.flatMap fun r => r.disk.keys := by
    rw [List.map_flatMap]
    rfl
  have hmdev := List.pairwise_map.mp h.mdev
  have hbay := List.pairwise_map.mp h.bay
  rw [hmap, List.nodup_flatMap]
  exact ⟨fun r _ => r.disk.nodup_keys,
    (hmdev.and hbay).imp fun hne => Disk.disjoint_keys hne.2 hne.1⟩

theorem fileOf_eq (rows : List Row) :
    fileOf rows = [] :: (rows.flatMap Row.pairs).map fun x => x.1 ++ '=' :: x.2 := by
  rw [fileOf, List.map_flatMap]
  congr 1
  exact List.flatMap_congr fun r _ => r.lines_eq

theorem linesOf_fileOf {rows : List Row} {key : Text} (hkey : '=' ∉ key) :
    (linesOf key (fileOf rows)).length = ((rows.flatMap Row.pairs).map Prod.fst).count key := by
  have hempty : ((key ++ ['=']).isPrefixOf ([] : Text)) = false := by
    cases key with
    | nil => rfl
    | cons c key => rfl
  have hnames : ∀ x ∈ rows.flatMap Row.pairs, '=' ∉ x.1 := by
    intro x hx
    obtain ⟨r, -, hx⟩ := List.mem_flatMap.mp hx
    exact r.disk.equals_notMem_keys (r.keys_pairs ▸ List.mem_map_of_mem hx)
  have hfilter : linesOf key (fileOf rows) = ((rows.flatMap Row.pairs).filter
      fun x => decide (x.1 = key)).map fun x => x.1 ++ '=' :: x.2 := by
    rw [linesOf, fileOf_eq, List.filter_cons_of_neg (by rw [hempty]; exact Bool.false_ne_true),
      List.filter_map]
    congr 1
    exact List.filter_congr fun x hx => isPrefixOf_append_cons hkey (hnames x hx)
  rw [hfilter, List.length_map, ← List.countP_eq_length_filter, List.count, List.countP_map]
  exact List.countP_congr fun x _ => by simp

theorem mem_fileOf {rows : List Row} {r : Row} (hr : r ∈ rows) {l : Text} (hl : l ∈ r.lines) :
    l ∈ fileOf rows := List.mem_cons_of_mem _ (List.mem_flatMap.mpr ⟨r, hr, hl⟩)

theorem exists_row_of_mem {rows : List Row} {l : Text} (hl : l ∈ fileOf rows) (hne : l ≠ []) :
    ∃ r ∈ rows, l ∈ r.lines :=
  List.mem_flatMap.mp ((List.mem_cons.mp hl).resolve_left hne)

/-- The line `bay_dev=device`, of any text and any device. -/
theorem Row.dev_line (r : Row) {b m : Text} (hm : IsSd m)
    (hl : b ++ "_dev".toList ++ '=' :: m ∈ r.lines) : b = r.disk.bay ∧ m = r.disk.mdev := by
  obtain ⟨c, hc, rfl⟩ := hm
  have hlast : (b ++ "_dev".toList ++ '=' :: ['s', 'd', c]).getLast? = some c := by simp
  have hquoted : ∀ n t : Text, b ++ "_dev".toList ++ '=' :: ['s', 'd', c] ≠ assignLine n t := by
    intro n t heq
    rw [heq, assignLine, List.getLast?_concat] at hlast
    obtain rfl := Option.some.inj hlast
    exact absurd hc (by decide)
  simp only [lines, List.mem_cons, List.not_mem_nil, or_false] at hl
  rcases hl with heq | heq | heq | heq | heq
  · obtain ⟨c', -, hsd⟩ := r.sd
    rw [hsd] at heq
    obtain ⟨hfront, hdev⟩ := List.append_inj' heq rfl
    rw [hsd]
    exact ⟨List.append_cancel_right hfront, (List.cons.inj hdev).2⟩
  · have hmem : '_' ∈ r.disk.mdev ++ '=' :: r.disk.bay := by
      rw [← heq]
      simp
    rcases List.mem_append.mp hmem with hmem | hmem
    · exact absurd hmem underscore_notMem.2
    · exact absurd ((List.mem_cons.mp hmem).resolve_left (by decide)) underscore_notMem.1
  · exact absurd heq (hquoted _ _)
  · exact absurd heq (hquoted _ _)
  · exact absurd heq (hquoted _ _)

/-- The line `device=bay`. -/
theorem Row.slot_line (r : Row) {b m : Text} (hm : IsSd m) (hl : m ++ '=' :: b ∈ r.lines) :
    b = r.disk.bay ∧ m = r.disk.mdev := by
  rcases r.of_mem_lines hl with heq | ⟨t, heq⟩
  · have hmdev : m = r.disk.mdev := sd_inFront hm r.sd ⟨'=' :: b, heq⟩
    rw [hmdev] at heq
    exact ⟨(List.cons.inj (List.append_cancel_left heq)).2, hmdev⟩
  · exact absurd ⟨'=' :: b, heq⟩ (not_prefix_bay hm _)

theorem mirrored_fileOf {rows : List Row} (h : Apart rows) :
    Mirrored (rows.map Row.disk) (fileOf rows) := by
  have hrow : ∀ d ∈ rows.map Row.disk, ∃ r ∈ rows, r.disk = d := fun d hd => List.mem_map.mp hd
  refine ⟨fun d hd key hkey => ?_, fun d hd => ?_, fun d hd => ?_, fun l hl hne => ?_,
    fun b m hm => ⟨fun hl => ?_, fun hl => ?_⟩⟩
  · obtain ⟨r, hr, rfl⟩ := hrow d hd
    have hmem : key ∈ (rows.flatMap Row.pairs).map Prod.fst := by
      rw [List.map_flatMap]
      exact List.mem_flatMap.mpr ⟨r, hr, hkey⟩
    rw [linesOf_fileOf (r.disk.equals_notMem_keys hkey)]
    exact List.count_eq_one_of_mem h.nodup_keys hmem
  · obtain ⟨r, hr, rfl⟩ := hrow d hd
    exact mem_fileOf hr (by simp [Row.lines])
  · obtain ⟨r, hr, rfl⟩ := hrow d hd
    exact mem_fileOf hr (by simp [Row.lines])
  · obtain ⟨r, hr, hl⟩ := exists_row_of_mem hl hne
    rw [r.lines_eq] at hl
    obtain ⟨x, hx, rfl⟩ := List.mem_map.mp hl
    exact ⟨r.disk, List.mem_map_of_mem hr, x.1, r.keys_pairs ▸ List.mem_map_of_mem hx,
      x.2, by rw [List.append_assoc]; rfl⟩
  · obtain ⟨r, hr, hl⟩ := exists_row_of_mem hl (by simp)
    obtain ⟨rfl, rfl⟩ := r.dev_line hm hl
    exact mem_fileOf hr (by simp [Row.lines])
  · obtain ⟨r, hr, hl⟩ := exists_row_of_mem hl (by simp)
    obtain ⟨rfl, rfl⟩ := r.slot_line hm hl
    exact mem_fileOf hr (by simp [Row.lines])

/-! ## Runs -/

/-- The file is the blocks of the disks that are there. -/
def Plugs.Blocks (s : Plugs) : Prop :=
  ∃ rows, s.file = some (fileOf rows) ∧ rows.map Row.disk = s.present ∧ Apart rows

theorem Plugs.Blocks.mirrored {s : Plugs} (h : s.Blocks) :
    ∃ bay, s.file = some bay ∧ Mirrored s.present bay := by
  obtain ⟨rows, hfile, hpresent, hapart⟩ := h
  exact ⟨fileOf rows, hfile, hpresent ▸ mirrored_fileOf hapart⟩

/-- `add_disk` adds a block. -/
theorem blocks_add {s : Plugs} (h : s.Blocks) {sh : Process} {d : Disk} (hd : d.Contained sh)
    (hlegal : (DiskEvent.add sh d).Legal s) : (s.step (.add sh d)).Blocks := by
  obtain ⟨rows, hfile, hpresent, hapart⟩ := h
  obtain ⟨hsd, hfresh⟩ := hlegal
  have hother : ∀ r ∈ rows, r.disk.bay ≠ d.bay ∧ r.disk.mdev ≠ d.mdev := fun r hr =>
    hfresh r.disk (hpresent ▸ List.mem_map_of_mem hr)
  have hkeep : rows.filter (fun r => r.disk.mdev ≠ d.mdev) = rows :=
    List.filter_eq_self.mpr fun r hr => decide_eq_true (hother r hr).2
  have hsame : ∀ r ∈ rows, r.disk.bay = d.bay ↔ r.disk.mdev = d.mdev := fun r hr =>
    ⟨fun heq => absurd heq (hother r hr).1, fun heq => absurd heq (hother r hr).2⟩
  have hdelete := deleteLines_fileOf (underscore_notMem (d := d)).1 hsd hsame
  refine ⟨rows ++ [Row.mk d (squeeze d.famText) (squeeze d.modText) hsd hd.fam.intact
    hd.mod.intact], ?_, ?_, ?_, ?_⟩
  · change s.file.bind (addDisk sh d) = _
    rw [hfile, Option.bind_some, addDisk_of_contained hd hsd, hdelete, hkeep]
    simp [fileOf]
  · rw [List.map_append, hpresent]
    rfl
  · rw [List.map_append]
    refine List.nodup_append.mpr ⟨hapart.mdev, List.nodup_singleton _, fun m hm m' hm' => ?_⟩
    obtain ⟨r, hr, rfl⟩ := List.mem_map.mp hm
    rw [List.mem_singleton.mp hm']
    exact (hother r hr).2
  · rw [List.map_append]
    refine List.nodup_append.mpr ⟨hapart.bay, List.nodup_singleton _, fun m hm m' hm' => ?_⟩
    obtain ⟨r, hr, rfl⟩ := List.mem_map.mp hm
    rw [List.mem_singleton.mp hm']
    exact (hother r hr).1

/-- `remove_disk` takes a block away. -/
theorem blocks_remove {s : Plugs} (h : s.Blocks) {sh : Process} {mdev : Text}
    (hlegal : (DiskEvent.remove sh mdev).Legal s) : (s.step (.remove sh mdev)).Blocks := by
  obtain ⟨rows, hfile, hpresent, hapart⟩ := h
  obtain ⟨env, hread, hbay, hother⟩ := read_rows hapart.mdev sh.env
  have heval : evalText nothing sh.env (bayText (fileOf rows)) = some env := by
    have hsplit : bayText (fileOf rows) = ['\n'] ++ bayText (rows.flatMap Row.lines) := by
      simp [bayText, fileOf]
    have hnewline : read nothing (sh.env, .start) ['\n'] = (sh.env, .start) := rfl
    rw [evalText, hsplit, read_append, hnewline, hread]
    rfl
  have hfilter : (rows.filter fun r => r.disk.mdev ≠ mdev).map Row.disk =
      s.present.filter (·.mdev ≠ mdev) := by
    rw [← hpresent, List.filter_map]
    rfl
  have hafter : removeDisk sh mdev (fileOf rows) =
      some (fileOf (rows.filter fun r => r.disk.mdev ≠ mdev)) := by
    simp only [removeDisk, heval, Option.bind_eq_bind, Option.bind_some]
    by_cases hthere : ∃ r ∈ rows, r.disk.mdev = mdev
    · obtain ⟨r, hr, rfl⟩ := hthere
      have hne : r.disk.bay ≠ [] := by
        rcases bay_head (d := r.disk) with hhead | hhead | hhead <;>
          exact fun hnil => by simp [hnil] at hhead
      have hsame : ∀ x ∈ rows, x.disk.bay = r.disk.bay ↔ x.disk.mdev = r.disk.mdev := by
        intro x hx
        refine ⟨fun heq => ?_, fun heq => ?_⟩
        · rw [List.inj_on_of_nodup_map hapart.bay hx hr heq]
        · rw [List.inj_on_of_nodup_map hapart.mdev hx hr heq]
      rw [hbay r hr, echo_solid sh hne (all_solidChar r.disk.simple_bay), if_neg hne,
        deleteLines_fileOf underscore_notMem.1 r.sd hsame]
    · have habsent : ∀ r ∈ rows, r.disk.mdev ≠ mdev := fun r hr heq => hthere ⟨r, hr, heq⟩
      have hunset : IsSd mdev ∧ sh.env mdev = [] := hlegal.resolve_left fun hplugged => by
        obtain ⟨d, hd, hmdev⟩ := hplugged
        rw [← hpresent] at hd
        obtain ⟨r, hr, rfl⟩ := List.mem_map.mp hd
        exact habsent r hr hmdev
      have hname : '_' ∉ mdev := by
        obtain ⟨⟨c, hc, rfl⟩, -⟩ := hunset
        simp only [List.mem_cons, List.not_mem_nil, or_false, not_or]
        exact ⟨by decide, by decide, fun heq => absurd hc (by rw [← heq]; decide)⟩
      have hempty : sh.echo (env mdev) = [] := by
        rw [hother mdev hname fun r hr heq => habsent r hr heq.symm, hunset.2]
        rfl
      rw [if_pos hempty, List.filter_eq_self.mpr fun r hr => decide_eq_true (habsent r hr)]
  refine ⟨rows.filter fun r => r.disk.mdev ≠ mdev, ?_, hfilter, ?_, ?_⟩
  · change s.file.bind (removeDisk sh mdev) = _
    rw [hfile, Option.bind_some, hafter]
  · exact hapart.mdev.sublist (List.filter_sublist.map _)
  · exact hapart.bay.sublist (List.filter_sublist.map _)

/-- **Disks come and go.**  As long as the strings of the disks that are added stay in their
quotes, after every event the file mirrors the disks that are there. -/
theorem mirrors_along (events : List DiskEvent)
    (hlegal : Along Plugs.step (fun s e => e.Legal s) .boot events)
    (hcontained : ∀ e ∈ events, e.Contained) : Along Plugs.step Mirrors .boot events := by
  have hboot : Plugs.boot.Blocks :=
    ⟨[], rfl, rfl, ⟨List.nodup_nil, List.nodup_nil⟩⟩
  refine along_of_step (C := fun s e => e.Legal s ∧ e.Contained) Plugs.Blocks
    (fun s e hs he => ?_) hboot ?_
  · have hnext : (s.step e).Blocks := by
      cases e with
      | add sh d => exact blocks_add hs he.2 he.1
      | remove sh mdev => exact blocks_remove hs he.1
    exact ⟨hnext.mirrored, hnext⟩
  · rw [along_iff] at hlegal ⊢
    exact fun pre e post heq => ⟨hlegal pre e post heq,
      hcontained e (heq ▸ List.mem_append_right pre List.mem_cons_self)⟩

theorem contained_caviar : caviar.Contained plainProcess where
  evaluated := by decide +kernel
  glob := fun _ _ => rfl
  fam := ⟨by decide +kernel, fun _ _ => rfl⟩
  mod := ⟨by decide +kernel, fun _ _ => rfl⟩

theorem isSd_caviar : IsSd caviar.mdev := ⟨'a', by decide, rfl⟩

theorem mirrors_caviar :
    Along Plugs.step Mirrors .boot
      [.add plainProcess caviar, .remove plainProcess "sda".toList] :=
  mirrors_along _
    ⟨⟨isSd_caviar, fun _ h => absurd h List.not_mem_nil⟩,
      ⟨Or.inl ⟨caviar, List.mem_singleton_self _, rfl⟩, trivial⟩⟩
    (by
      intro e he
      simp only [List.mem_cons, List.not_mem_nil, or_false] at he
      rcases he with heq | heq
      · exact heq ▸ contained_caviar
      · exact heq ▸ trivial)

/-- A disk without SMART, whose model ends the quotes it is written in. -/
def quoteDisk : Disk :=
  { leftDisk none [] with smart := false, model := none, sysModel := "A\" sda=\"x".toList }

/-- **Lines that stay.**  The model sets `sda` when the file is read, and the bay of the disk
that is removed is not found. -/
theorem quoteDisk_stays :
    ¬ ∀ events, Along Plugs.step (fun s e => e.Legal s) .boot events →
      Along Plugs.step Mirrors .boot events := by
  intro h
  have hlegal : Along Plugs.step (fun s e => DiskEvent.Legal s e) .boot
      [.add plainProcess quoteDisk, .remove plainProcess "sda".toList] :=
    ⟨⟨⟨'a', by decide, rfl⟩, fun _ h => absurd h List.not_mem_nil⟩,
      ⟨Or.inl ⟨quoteDisk, List.mem_singleton_self _, rfl⟩, trivial⟩⟩
  have hstays : ((Plugs.boot.step (.add plainProcess quoteDisk)).step
      (.remove plainProcess "sda".toList)).file =
        some [[], "left_dev=sda".toList, "left_cap=\"1.0TB\"".toList,
          "left_fam=\"ATA \"".toList, "left_mod=\"A\" sda=\"x\"".toList] := by
    decide +kernel
  obtain ⟨-, ⟨bay, hfile, hmirrored⟩, -⟩ := h _ hlegal
  rw [hstays] at hfile
  obtain rfl := Option.some.inj hfile
  obtain ⟨d, hd, -⟩ := hmirrored.nothing "left_dev=sda".toList (by simp) (by simp)
  have hnone : ((Plugs.boot.step (.add plainProcess quoteDisk)).step
      (.remove plainProcess "sda".toList)).present = [] := rfl
  rw [hnone] at hd
  exact absurd hd List.not_mem_nil

end AltF.Hotplug
