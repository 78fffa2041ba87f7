/-
  Cgi/FactorySettings.lean --- FlashIt of firmware2_proc.cgi with the settings of the
  defaults file: what is left of the settings, and when the flash is written.

  The option of the form is `flashfile`; the check of the defaults file asks for `flash`.
  The old settings go before the archive is unpacked.
-/
import AltF.Cgi.NandErase

set_option autoImplicit false

namespace AltF.Cgi.Flashing

open AltF.Foundation AltF.Shell AltF.SysFiles

/-! ## Parts that write the flash -/

/-- The request changes the flash: one that flash_erase refuses does not. -/
def Op.Changes (chip : Chip) : Op → Prop
  | .flashErase m ecnt => chip.Erases m ecnt
  | .nandwrite _ _ => True
  | .cat _ _ => True
  | .ubiformat _ _ => True

/-- The world after some more requests. -/
def World.add (w : World) (ops : List Op) : World := { w with ops := w.ops ++ ops }

theorem World.add_nil (w : World) : w.add [] = w := by
  rw [World.add, List.append_nil]

theorem World.add_add (w : World) (ops ops' : List Op) :
    (w.add ops).add ops' = w.add (ops ++ ops') := by
  simp only [World.add, List.append_assoc]

/-- The part goes on exactly if `ok`, has changed the flash exactly if `changes`, and leaves
the settings alone. -/
def Ends (chip : Chip) (m : Page PUnit) (ok changes : Prop) : Prop :=
  ∀ w, ∃ ops, (changes ↔ ∃ op ∈ ops, op.Changes chip) ∧
    ((ok ∧ m w = .ok ⟨⟩ (w.add ops)) ∨ (¬ ok ∧ ∃ e, m w = .error e (w.add ops)))

section Ends

variable {chip : Chip} {m n : Page PUnit} {ok ok' changes changes' : Prop}

namespace Ends

theorem congr (h : Ends chip m ok changes) (hok : ok ↔ ok') (hch : changes ↔ changes') :
    Ends chip m ok' changes' := by
  rw [← propext hok, ← propext hch]
  exact h

theorem ask (op : Op) : Ends chip (ask op) True (op.Changes chip) :=
  fun w => ⟨[op], by simp, .inl ⟨trivial, ask_run op w⟩⟩

theorem error (txt : Text) : Ends chip (flashError txt) False False :=
  fun w => ⟨[], by simp, .inr ⟨id, _, by rw [World.add_nil, flashError_run]⟩⟩

theorem bummer : Ends chip (exit .bummer) False False :=
  fun w => ⟨[], by simp, .inr ⟨id, .bummer, by rw [World.add_nil]; rfl⟩⟩

theorem onlyIf {c : Prop} [Decidable c] (h : Ends chip m ok changes) :
    Ends chip (onlyIf c m) (c → ok) (c ∧ changes) := by
  intro w
  by_cases hc : c
  · obtain ⟨ops, hops, hrun⟩ := h w
    refine ⟨ops, by simp only [hc, true_and, hops], ?_⟩
    rw [onlyIf_of hc]
    simpa only [hc, true_imp_iff] using hrun
  · refine ⟨[], by simp [hc], .inl ⟨fun h => absurd h hc, ?_⟩⟩
    rw [onlyIf_of_not hc, World.add_nil]

/-- A test that ends the script. -/
theorem check {c : Prop} [Decidable c] (txt : Text) :
    Ends chip (Shell.onlyIf c (flashError txt)) (¬ c) False :=
  (onlyIf (error txt)).congr Iff.rfl (and_iff_right_of_imp False.elim)

theorem bind (h : Ends chip m ok changes) (h' : Ends chip n ok' changes') :
    Ends chip (m >>= fun _ => n) (ok ∧ ok') (changes ∨ (ok ∧ changes')) := by
  intro w
  obtain ⟨ops, hops, ⟨hok, hrun⟩ | ⟨hnot, e, hrun⟩⟩ := h w
  · obtain ⟨ops', hops', hend⟩ := h' (w.add ops)
    refine ⟨ops ++ ops', ?_, ?_⟩
    · simp only [hops, hops', hok, true_and, List.mem_append, or_and_right, exists_or]
    · rw [bind_of_ok hrun]
      simpa only [hok, true_and, World.add_add] using hend
  · refine ⟨ops, by simp only [hnot, false_and, or_false, hops], .inr ⟨fun h => hnot h.1, e, ?_⟩⟩
    rw [bind_of_error hrun]

end Ends

end Ends

/-! ## Conditions on the box and the files -/

section Conditions

variable (tools : Tools)

/-- flash_erase takes the count for the partition. -/
def EraseAccepted (ps : Partitions) (file : Bytes) (m : Mtd) : Prop :=
  ∃ q, ps.sqimageMtd = some q ∧ tools.chip.Erases m (eraseCount tools q file.length)

/-- Flashing the file changes the flash. -/
def Touches (ps : Partitions) (file : Bytes) (m : Mtd) : Prop :=
  match tools.type with
  | .nand => EraseAccepted tools ps file m
  | .nor => True
  | .other => False

/-- Flashing the file succeeds. -/
def Works (ps : Partitions) (file : Bytes) (m : Mtd) : Prop :=
  match tools.type with
  | .nand => EraseAccepted tools ps file m ∧ tools.nandwrite m file = true ∧
      tools.nanddump m file = true ∧ tools.cmp m file = true
  | .nor => tools.cmp m file = true
  | .other => False

/-- Flashing the image succeeds. -/
def ImageWorks (ps : Partitions) (file : Bytes) : Prop :=
  match ps.sqimageMtd with
  | none => tools.isUbi file = false ∧ tools.type = .nor ∧ tools.cmpFile file = true
  | some q =>
      if tools.isUbi file = true then tools.ubiformat q file = true ∧ tools.ubiattach q = true
      else Works tools ps file q

/-- A mounted UBI image can be let go of. -/
def Released : Prop :=
  tools.ubiMounted = true →
    (tools.aufsUsed = true → tools.remount = true) ∧ tools.umountUbi = true

/-- The page gets to the flash, and changes it. -/
def Starts (files : Uploaded) : Prop :=
  ∃ kernel initramfs ps, files.kernel = some kernel ∧ files.initramfs = some initramfs ∧
    partitions tools.board = some ps ∧ (hasBytes files.sqimage = true → Released tools) ∧
    Touches tools ps kernel ps.kernelMtd

/-- All components are flashed. -/
def Reaches (files : Uploaded) : Prop :=
  ∃ kernel initramfs ps, files.kernel = some kernel ∧ files.initramfs = some initramfs ∧
    partitions tools.board = some ps ∧ (hasBytes files.sqimage = true → Released tools) ∧
    Works tools ps kernel ps.kernelMtd ∧ Works tools ps initramfs ps.initramfsMtd ∧
    (hasBytes files.sqimage = true → ImageWorks tools ps (files.sqimage.getD []))

theorem touches_of_works {ps : Partitions} {file : Bytes} {m : Mtd}
    (h : Works tools ps file m) : Touches tools ps file m := by
  unfold Works at h
  unfold Touches
  cases htype : tools.type with
  | nand =>
      rw [htype] at h
      exact h.1
  | nor => exact trivial
  | other =>
      rw [htype] at h
      exact h

/-! ## The parts of the page -/

theorem ends_norFlash (file : Bytes) (m : Mtd) :
    Ends tools.chip (norFlash tools file m) (tools.cmp m file = true) True :=
  ((Ends.ask _).bind (Ends.check _)).congr
    (by rw [true_and, Bool.not_eq_false]) (iff_true_intro (.inl trivial))

theorem ends_nandFlash (ps : Partitions) (file : Bytes) (m : Mtd) :
    Ends tools.chip (nandFlash tools ps.sqimageMtd file m)
      (EraseAccepted tools ps file m ∧ tools.nandwrite m file = true ∧
        tools.nanddump m file = true ∧ tools.cmp m file = true)
      (EraseAccepted tools ps file m) := by
  cases hq : ps.sqimageMtd with
  | none =>
      have hno : ¬ EraseAccepted tools ps file m := by
        rintro ⟨q, hq', -⟩
        rw [hq] at hq'
        cases hq'
      exact (Ends.error _).congr (by simp [hno]) (by simp [hno])
  | some q =>
      have hiff : EraseAccepted tools ps file m ↔
          tools.chip.Erases m (eraseCount tools q file.length) := by
        rw [EraseAccepted, hq]
        simp
      have hparts := (@Ends.ask tools.chip
        (.flashErase m (eraseCount tools q file.length))).bind
        ((Ends.check (c := ¬ tools.chip.Erases m (eraseCount tools q file.length))
          "flash_erase: ".toList).bind
        ((Ends.ask (.nandwrite m file)).bind
        ((Ends.check (c := tools.nandwrite m file = false) "nandwrite: ".toList).bind
        ((Ends.check (c := tools.nanddump m file = false) "nanddump: ".toList).bind
        (Ends.check (c := tools.cmp m file = false) "cmp: ".toList)))))
      refine hparts.congr ?_ ?_
      · rw [hiff]
        simp only [true_and, not_not, Bool.not_eq_false]
      · rw [hiff]
        simp only [Op.Changes, not_not, true_and, false_or, or_false, and_true, and_false,
          or_self]

theorem ends_flash (ps : Partitions) (file : Bytes) (m : Mtd) :
    Ends tools.chip (flash tools ps file m) (Works tools ps file m)
      (Touches tools ps file m) := by
  unfold flash Works Touches
  cases tools.type with
  | nand => exact ends_nandFlash tools ps file m
  | nor => exact ends_norFlash tools file m
  | other => exact Ends.bummer

theorem ends_releaseUbi : Ends tools.chip (releaseUbi tools) (Released tools) False := by
  refine (Ends.onlyIf ((Ends.check _).bind (Ends.check _))).congr ?_ ?_
  · simp only [Released, not_and, Bool.not_eq_false]
  · simp

theorem ends_flashImage (ps : Partitions) (file : Bytes) :
    ∃ changes, Ends tools.chip (flashImage tools ps file) (ImageWorks tools ps file) changes := by
  unfold flashImage ImageWorks
  cases ps.sqimageMtd with
  | none =>
      by_cases hubi : tools.isUbi file = true
      · refine ⟨False, ?_⟩
        simp only [hubi, if_true, Bool.true_eq_false, false_and]
        exact Ends.error _
      · simp only [hubi, if_false, Bool.false_eq_true, true_and]
        cases tools.type with
        | nand => exact ⟨False, (Ends.error _).congr (by simp) Iff.rfl⟩
        | nor => exact ⟨False, (Ends.check _).congr (by simp) Iff.rfl⟩
        | other => exact ⟨False, Ends.bummer.congr (by simp) Iff.rfl⟩
  | some q =>
      by_cases hubi : tools.isUbi file = true
      · simp only [hubi, if_true]
        exact ⟨_, ((Ends.ask _).bind ((Ends.check _).bind (Ends.check _))).congr
          (by simp) Iff.rfl⟩
      · simp only [hubi, if_false, Bool.false_eq_true]
        exact ⟨_, ends_flash tools ps file q⟩

/-! ## The page -/

/-- `value=` of the options in the form that firmware_proc.cgi makes. -/
def formOptions : List Text :=
  ["none".toList, "clear".toList, "flashfile".toList, "recover".toList]

/-- With an option of the form the check does not ask for the defaults. -/
theorem checkFwfiles_of_formOption {opt : Text} (h : opt ∈ formOptions) (files : Uploaded) :
    checkFwfiles files opt =
      match files.kernel, files.initramfs with
      | some kernel, some initramfs => pure (kernel, initramfs)
      | _, _ => exit .filesMissing := by
  have hne : opt ≠ "flash".toList := by
    have hall : formOptions.all (· != "flash".toList) = true := by decide
    simpa using List.all_eq_true.mp hall opt h
  unfold checkFwfiles
  cases files.kernel with
  | none => rfl
  | some kernel =>
      cases files.initramfs with
      | none => rfl
      | some initramfs => exact if_neg fun h => hne h.1

/-- From the check of the files to the last component. -/
def flashParts (ps : Partitions) (files : Uploaded) (kernel initramfs : Bytes) : Page PUnit := do
  onlyIf (hasBytes files.sqimage = true) (releaseUbi tools)
  flash tools ps kernel ps.kernelMtd
  flash tools ps initramfs ps.initramfsMtd
  onlyIf (hasBytes files.sqimage = true) (flashImage tools ps (files.sqimage.getD []))

theorem ends_flashParts (ps : Partitions) (files : Uploaded) (kernel initramfs : Bytes) :
    Ends tools.chip (flashParts tools ps files kernel initramfs)
      ((hasBytes files.sqimage = true → Released tools) ∧
        Works tools ps kernel ps.kernelMtd ∧ Works tools ps initramfs ps.initramfsMtd ∧
        (hasBytes files.sqimage = true → ImageWorks tools ps (files.sqimage.getD [])))
      ((hasBytes files.sqimage = true → Released tools) ∧
        Touches tools ps kernel ps.kernelMtd) := by
  obtain ⟨changes, himage⟩ := ends_flashImage tools ps (files.sqimage.getD [])
  refine ((Ends.onlyIf (ends_releaseUbi tools)).bind ((ends_flash tools ps kernel ps.kernelMtd).bind
    ((ends_flash tools ps initramfs ps.initramfsMtd).bind (Ends.onlyIf himage)))).congr
      Iff.rfl ?_
  have htouches : Works tools ps kernel ps.kernelMtd → Touches tools ps kernel ps.kernelMtd :=
    touches_of_works tools
  rw [and_false, false_or]
  exact and_congr_right fun _ => or_iff_left_of_imp fun h => htouches h.1

/-- The page with its parts. -/
theorem flashIt_eq {opt : Text} (h : opt ∈ formOptions) (files : Uploaded) :
    flashIt tools files opt =
      match files.kernel, files.initramfs with
      | some kernel, some initramfs =>
          match partitions tools.board with
          | none => exit .bummer
          | some ps => do
              flashParts tools ps files kernel initramfs
              flashSettings tools files.defaults opt
      | _, _ => exit .filesMissing := by
  unfold flashIt
  rw [checkFwfiles_of_formOption h]
  cases files.kernel with
  | none => rfl
  | some kernel =>
      cases files.initramfs with
      | none => rfl
      | some initramfs =>
          simp only [pure_bind]
          cases partitions tools.board with
          | none => rfl
          | some ps => simp only [flashParts, bind_assoc]

/-! ## The settings -/

/-- The archive was unpacked, and all of its files are on the settings partition. -/
def Installed (defaults : Option Bytes) (settings : Folder) : Prop :=
  (tools.tar defaults).ok = true ∧
    ∀ path file, (tools.tar defaults).files path = some file →
      ∃ name, path = defaultDir ++ name ∧ settings name = some file

/-- The page has not left the box without settings. -/
structure SettingsKept (files : Uploaded) (w w' : World) : Prop where
  held : w'.settings = w.settings ∨ Installed tools files.defaults w'.settings
  nothing : hasBytes files.defaults = false →
    w'.settings = w.settings ∧ ∀ op ∈ w'.ops.drop w.ops.length, ¬ op.Changes tools.chip

/-- The archive unpacks, its files lie in `default`, not hidden and not in a folder below it,
and `cp` copies them; a file that `*` leaves out is on the partition already. -/
def Delivered (defaults : Option Bytes) (old : Folder) : Prop :=
  (tools.tar defaults).ok = true ∧
    ∀ path file, (tools.tar defaults).files path = some file →
      ∃ name, path = defaultDir ++ name ∧
        if globbed name then tools.cp name file = some file else old name = some file

/-- The files in /tmp/default, once copied, are the settings that were there. -/
def Unchanged (defaults : Option Bytes) (old : Folder) : Prop :=
  ∀ name, globbed name = true →
    (tmpAfter tools (tools.tar defaults).files (defaultDir ++ name)).bind (tools.cp name) =
      old name

/-- With the defaults file the settings are safe: they cannot be touched, or what is copied
is enough; with a partition that stays mounted, there were none, and none are in the
archive. -/
def SettingsSafe (defaults : Option Bytes) (old : Folder) : Prop :=
  tools.mount = true →
    if tools.umount = true then Delivered tools defaults old ∨ Unchanged tools defaults old
    else (∀ name, old name = none) ∨
      (tools.tar defaults).ok = true ∧ ∀ path, (tools.tar defaults).files path = none

theorem cpAll_rmAll (tmp old : Folder) (name : Text) :
    cpAll tools tmp (rmAll old) name =
      if globbed name then (tmp (defaultDir ++ name)).bind (tools.cp name) else old name := by
  unfold cpAll rmAll
  by_cases hglob : globbed name = true
  · rw [if_pos hglob, if_pos hglob, if_pos hglob]
    cases tmp (defaultDir ++ name) <;> rfl
  · rw [if_neg hglob, if_neg hglob, if_neg hglob]

theorem unchanged_iff (defaults : Option Bytes) (old : Folder) :
    cpAll tools (tmpAfter tools (tools.tar defaults).files) (rmAll old) = old ↔
      Unchanged tools defaults old := by
  rw [funext_iff]
  refine forall_congr' fun name => ?_
  rw [cpAll_rmAll]
  by_cases hglob : globbed name = true
  · rw [if_pos hglob]
    exact (true_imp_iff).symm.trans (by rw [hglob]; simp)
  · rw [if_neg hglob]
    exact iff_of_true rfl fun h => absurd h hglob

theorem delivered_iff (defaults : Option Bytes) (old : Folder) :
    Installed tools defaults
        (cpAll tools (tmpAfter tools (tools.tar defaults).files) (rmAll old)) ↔
      Delivered tools defaults old := by
  refine and_congr_right fun _ => forall_congr' fun path => forall_congr' fun file =>
    imp_congr_right fun hfile => exists_congr fun name => and_congr_right fun hpath => ?_
  rw [cpAll_rmAll, tmpAfter, ← hpath, hfile, Option.some_or, Option.bind_some]
  by_cases hglob : globbed name = true
  · rw [if_pos hglob, if_pos hglob]
  · rw [if_neg hglob, if_neg hglob]

/-- What `flashfile` leaves is the old settings or the archive exactly if they are safe. -/
theorem settingsSafe_iff (defaults : Option Bytes) (old : Folder) :
    (flashFile tools defaults old = old ∨
      Installed tools defaults (flashFile tools defaults old)) ↔
      SettingsSafe tools defaults old := by
  unfold flashFile SettingsSafe
  by_cases hmount : tools.mount = true
  · simp only [hmount, if_true, true_imp_iff]
    by_cases humount : tools.umount = true
    · simp only [humount, if_true]
      rw [unchanged_iff, delivered_iff, or_comm]
    · simp only [humount, if_false, Bool.false_eq_true]
      refine or_congr ⟨fun h name => (congrFun h name).symm, fun h => funext fun name =>
        (h name).symm⟩ (and_congr_right fun _ => ?_)
      refine ⟨fun h path => ?_, fun h path file hfile => ?_⟩
      · by_contra hne
        obtain ⟨file, hfile⟩ := Option.ne_none_iff_exists'.mp hne
        obtain ⟨name, -, hnone⟩ := h path file hfile
        cases hnone
      · rw [h path] at hfile
        cases hfile
  · simp only [hmount, if_false, false_imp_iff, true_or, Bool.false_eq_true]

/-- The world after some requests, with settings that may be others. -/
theorem settingsKept_add_iff (files : Uploaded) (w : World) (ops : List Op) (settings : Folder) :
    SettingsKept tools files w { w.add ops with settings := settings } ↔
      (settings = w.settings ∨ Installed tools files.defaults settings) ∧
        (hasBytes files.defaults = false →
          settings = w.settings ∧ ¬ ∃ op ∈ ops, op.Changes tools.chip) := by
  have hdrop : (w.ops ++ ops).drop w.ops.length = ops := List.drop_left
  constructor
  · rintro ⟨hheld, hnothing⟩
    refine ⟨hheld, fun hempty => ⟨(hnothing hempty).1, ?_⟩⟩
    rintro ⟨op, hop, hchanges⟩
    exact (hnothing hempty).2 op (by rw [World.add, hdrop]; exact hop) hchanges
  · rintro ⟨hheld, hnothing⟩
    refine ⟨hheld, fun hempty => ⟨(hnothing hempty).1, fun op hop hchanges => ?_⟩⟩
    rw [World.add, hdrop] at hop
    exact (hnothing hempty).2 ⟨op, hop, hchanges⟩

/-- A page that ends in front of the flash. -/
theorem settingsKept_self (files : Uploaded) (w : World) : SettingsKept tools files w w where
  held := .inl rfl
  nothing := fun _ => ⟨rfl, fun op hop => by rw [List.drop_length] at hop; cases hop⟩

/-- The page from the first component on. -/
theorem settingsKept_flashParts_iff (files : Uploaded) (w : World) (ps : Partitions)
    (kernel initramfs : Bytes) {ok changes : Prop}
    (hparts : Ends tools.chip (flashParts tools ps files kernel initramfs) ok changes)
    (hchanges : ok → changes) :
    SettingsKept tools files w (worldAfter (do
        flashParts tools ps files kernel initramfs
        flashSettings tools files.defaults "flashfile".toList) w) ↔
      (changes → hasBytes files.defaults = true) ∧
        (ok → SettingsSafe tools files.defaults w.settings) := by
  obtain ⟨ops, hops, ⟨hok, hrun⟩ | ⟨hnot, e, hrun⟩⟩ := hparts w
  · have hend : worldAfter (do
        flashParts tools ps files kernel initramfs
        flashSettings tools files.defaults "flashfile".toList) w =
        { w.add ops with settings := flashFile tools files.defaults w.settings } := by
      unfold worldAfter
      rw [bind_of_ok hrun]
      rfl
    rw [hend, settingsKept_add_iff, settingsSafe_iff, and_comm, ← hops]
    simp only [hok, hchanges hok, not_true_eq_false, and_false, true_imp_iff, imp_false,
      Bool.not_eq_false]
  · have hend : worldAfter (do
        flashParts tools ps files kernel initramfs
        flashSettings tools files.defaults "flashfile".toList) w =
        { w.add ops with settings := w.settings } := by
      unfold worldAfter
      rw [bind_of_error hrun]
      rfl
    rw [hend, settingsKept_add_iff, ← hops]
    simp only [hnot, true_or, true_and, false_imp_iff, and_true]
    rw [← Bool.not_eq_true, not_imp_not]

/-- **Factory settings**: FlashIt with the settings of the defaults file leaves the old
settings or the whole archive, and does nothing to the flash without a defaults file,
exactly if there is a defaults file whenever it changes the flash, and the settings are safe
whenever all components are flashed. -/
theorem flashIt_settingsKept_iff (files : Uploaded) (w : World) :
    SettingsKept tools files w (worldAfter (flashIt tools files "flashfile".toList) w) ↔
      (Starts tools files → hasBytes files.defaults = true) ∧
        (Reaches tools files → SettingsSafe tools files.defaults w.settings) := by
  have hquiet : ¬ Starts tools files → ¬ Reaches tools files →
      (SettingsKept tools files w w ↔ (Starts tools files → hasBytes files.defaults = true) ∧
        (Reaches tools files → SettingsSafe tools files.defaults w.settings)) :=
    fun hstarts hreaches => iff_of_true (settingsKept_self tools files w)
      ⟨fun h => absurd h hstarts, fun h => absurd h hreaches⟩
  rw [flashIt_eq tools (by decide) files]
  cases hkernel : files.kernel with
  | none =>
      exact hquiet (by simp [Starts, hkernel]) (by simp [Reaches, hkernel])
  | some kernel =>
      cases hinitramfs : files.initramfs with
      | none =>
          exact hquiet (by simp [Starts, hinitramfs]) (by simp [Reaches, hinitramfs])
      | some initramfs =>
          cases hboard : partitions tools.board with
          | none => exact hquiet (by simp [Starts, hboard]) (by simp [Reaches, hboard])
          | some ps =>
              refine (settingsKept_flashParts_iff tools files w ps kernel initramfs
                (ends_flashParts tools ps files kernel initramfs)
                fun h => ⟨h.1, touches_of_works tools h.2.1⟩).trans ?_
              simp only [Starts, Reaches, hkernel, hinitramfs, hboard, Option.some.injEq,
                exists_and_left, exists_eq_left']

end Conditions

/-- A DNS-323 on which tar takes no archive. -/
def noDefaultsBox : Tools :=
  .sound "DNS-323-B1".toList .nor badKernelChip fun _ => ⟨false, fun _ => none⟩

/-- One set of settings. -/
def savedSettings : Folder := fun name => if name = "set_1.tgz".toList then some [1] else none

/-- The box when the page is through, with a kernel and a root file system. -/
def flashed (defaults : Option Bytes) : World :=
  worldAfter (flashIt noDefaultsBox ⟨some [1], some [2], none, defaults⟩ "flashfile".toList)
    ⟨[], savedSettings⟩

/-- What is not on the box any more is not kept. -/
theorem lost_of_none {defaults : Option Bytes}
    (hnone : (flashed defaults).settings "set_1.tgz".toList = none) :
    ¬ SettingsKept noDefaultsBox ⟨some [1], some [2], none, defaults⟩ ⟨[], savedSettings⟩
      (flashed defaults) := by
  intro hkept
  rcases hkept.held with hsame | hinstalled
  · rw [hsame] at hnone
    revert hnone
    decide +kernel
  · exact absurd hinstalled.1 Bool.false_ne_true

/-- Without a defaults file, and with a corrupt one, the kernel is flashed and the settings
are gone. -/
theorem flashIt_loses_settings :
    ((flashed none).ops = [.cat 2 [1], .cat 3 [2]] ∧
      ¬ SettingsKept noDefaultsBox ⟨some [1], some [2], none, none⟩ ⟨[], savedSettings⟩
        (flashed none)) ∧
    ((flashed (some [0x1f])).ops = [.cat 2 [1], .cat 3 [2]] ∧
      ¬ SettingsKept noDefaultsBox ⟨some [1], some [2], none, some [0x1f]⟩ ⟨[], savedSettings⟩
        (flashed (some [0x1f]))) :=
  ⟨⟨by decide +kernel, lost_of_none (by decide +kernel)⟩,
    by decide +kernel, lost_of_none (by decide +kernel)⟩

end AltF.Cgi.Flashing
