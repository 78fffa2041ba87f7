/-
  Hotplug/Events.lean --- disks and partitions that come and go: every evaluation of
  hot.sh is made of assignments, and /etc/bay gives a disk's strings back, as long as
  what is plugged is clean.
-/
import AltF.Foundation.Runs
import AltF.Hotplug.Partition

set_option autoImplicit false

namespace AltF.Hotplug

open AltF.Foundation AltF.Shell AltF.SysFiles

/-! ## Events -/

/-- One run of hot.sh. -/
inductive Event where
  | addDisk (sh : Process) (d : Disk)
  | removeDisk (sh : Process) (mdev : Text)
  | addPartition (sh : Process) (p : Partition)

/-- /etc/bay after an event.  When something other than an assignment has been
evaluated, nothing is known of it. -/
def step : Option (List Text) → Event → Option (List Text)
  | none, _ => none
  | some bay, .addDisk sh d => addDisk sh d bay
  | some bay, .removeDisk sh mdev => removeDisk sh mdev bay
  | some bay, .addPartition sh p => (addPartition sh p).map fun _ => bay

/-- /etc/bay as rcS leaves it. -/
def emptyBay : List Text := [[]]

/-- `.` of the file gives the strings of the disk, without their quotes. -/
def ReadsBack (d : Disk) (bay : List Text) : Prop :=
  ∀ env, ∃ env', evalText nothing env (bayText bay) = some env' ∧
    env' (d.bay ++ "_fam".toList) = unquote d.reported.1 ∧
    env' (d.bay ++ "_mod".toList) = unquote d.reported.2

/-- The event evaluates assignments only, and a disk that is added can be read back. -/
def Safe (s : Option (List Text)) (e : Event) : Prop :=
  ∀ bay, s = some bay → ∃ bay', step (some bay) e = some bay' ∧
    ∀ sh d, e = .addDisk sh d → ReadsBack d bay'

/-- What is plugged is clean. -/
def Event.Clean : Event → Prop
  | .addDisk sh d => d.Clean sh
  | .removeDisk _ _ => True
  | .addPartition sh p => p.Clean sh

/-! ## The lines of a clean disk -/

section Disk

variable {sh : Process} {d : Disk} (h : d.Clean sh)

include h

theorem goodLine_newLines : ∀ l ∈ newLines sh d d.fam d.mod, GoodLine l := by
  have hcap := (intact_of_plain (all_isPlain d.cap_simple)).1
  have hname : ∀ t : Text, t.all isNameChar = true → isName (d.bay ++ t) = true :=
    fun _ ht => d.isName_bay ht
  rw [newLines_eq h]
  intro l hl
  simp only [List.mem_cons, List.not_mem_nil, or_false] at hl
  rcases hl with rfl | rfl | rfl | rfl | rfl
  · exact goodLine_plain (hname _ (by decide)) (all_isPlain d.simple_mdev)
  · exact goodLine_plain d.mdev_name (all_isPlain d.simple_bay)
  · exact goodLine_assignLine (hname _ (by decide)) hcap
  · exact goodLine_assignLine (hname _ (by decide)) h.fam.intact
  · exact goodLine_assignLine (hname _ (by decide)) h.mod.intact

omit h in
theorem unquote_reported : unquote d.fam = unquote d.reported.1 ∧
    unquote d.mod = unquote d.reported.2 := by
  unfold Disk.fam Disk.mod Disk.reported
  cases d.smart with
  | false => exact ⟨rfl, rfl⟩
  | true => exact ⟨unquote_unquote _, unquote_unquote _⟩

/-- The last two lines have the strings. -/
theorem readsBack_of_clean {old : List Text} (hold : ∀ l ∈ old, GoodLine l) :
    ReadsBack d (old ++ newLines sh d d.fam d.mod) := by
  intro env
  have hgood := goodLine_newLines h
  have hfirst : ∀ l ∈ old ++ (newLines sh d d.fam d.mod).take 3, GoodLine l := by
    intro l hl
    rcases List.mem_append.mp hl with hl | hl
    · exact hold l hl
    · exact hgood l (List.mem_of_mem_take hl)
  obtain ⟨env₁, hread⟩ := read_bayText hfirst env
  have hfam : isName (d.bay ++ "_fam".toList) = true := d.isName_bay (by decide)
  have hmod : isName (d.bay ++ "_mod".toList) = true := d.isName_bay (by decide)
  have hsplit : bayText (old ++ newLines sh d d.fam d.mod) =
      bayText (old ++ (newLines sh d d.fam d.mod).take 3) ++
        ((assignLine (d.bay ++ "_fam".toList) d.fam ++ ['\n']) ++
          (assignLine (d.bay ++ "_mod".toList) d.mod ++ ['\n'])) := by
    rw [newLines_eq h]
    simp [bayText]
  have hne : d.bay ++ "_fam".toList ≠ d.bay ++ "_mod".toList :=
    fun heq => absurd (List.append_cancel_left heq) (by decide)
  refine ⟨Function.update (Function.update env₁ (d.bay ++ "_fam".toList) (unquote d.fam))
    (d.bay ++ "_mod".toList) (unquote d.mod), ?_, ?_, ?_⟩
  · rw [evalText, hsplit, read_append, hread, read_append, read_assignLine env₁ hfam h.fam.intact,
      read_assignLine _ hmod h.mod.intact]
    rfl
  · rw [Function.update_of_ne hne, Function.update_self, unquote_reported.1]
  · rw [Function.update_self, unquote_reported.2]

end Disk

/-! ## Runs -/

/-- The lines of the file are assignments. -/
def Good (s : Option (List Text)) : Prop := ∃ bay, s = some bay ∧ ∀ l ∈ bay, GoodLine l

theorem good_deleteLines {bay : List Text} (hbay : ∀ l ∈ bay, GoodLine l) (p : Text) :
    ∀ l ∈ deleteLines p bay, GoodLine l := fun l hl => hbay l (List.mem_of_mem_filter hl)

/-- **`remove_disk`** reads assignments, and leaves some of the lines. -/
theorem removeDisk_of_good (sh : Process) (mdev : Text) {bay : List Text}
    (hbay : ∀ l ∈ bay, GoodLine l) :
    ∃ bay', removeDisk sh mdev bay = some bay' ∧ ∀ l ∈ bay', GoodLine l := by
  obtain ⟨env, hread⟩ := read_bayText hbay sh.env
  unfold removeDisk evalText
  rw [hread]
  refine ⟨_, rfl, ?_⟩
  split
  · exact hbay
  · exact good_deleteLines (good_deleteLines hbay _) mdev

/-- A clean event is safe, and keeps the file good. -/
theorem safe_of_clean {s : Option (List Text)} {e : Event} (hs : Good s) (he : e.Clean) :
    Safe s e ∧ Good (step s e) := by
  obtain ⟨bay, rfl, hbay⟩ := hs
  have hsafe : ∀ {bay'}, step (some bay) e = some bay' → (∀ l ∈ bay', GoodLine l) →
      (∀ sh d, e = .addDisk sh d → ReadsBack d bay') →
      Safe (some bay) e ∧ Good (step (some bay) e) := by
    intro bay' hstep hgood hback
    refine ⟨fun b hb => ?_, bay', hstep, hgood⟩
    obtain rfl := Option.some.inj hb
    exact ⟨bay', hstep, hback⟩
  cases e with
  | addDisk sh d =>
      have hd : d.Clean sh := he
      have hold := good_deleteLines (good_deleteLines hbay (d.bay ++ ['_'])) d.mdev
      refine hsafe (addDisk_of_clean hd bay) (fun l hl => ?_) fun sh' d' heq => ?_
      · exact (List.mem_append.mp hl).elim (hold l) (goodLine_newLines hd l)
      · cases heq
        exact readsBack_of_clean hd hold
  | removeDisk sh mdev =>
      obtain ⟨bay', hstep, hgood⟩ := removeDisk_of_good sh mdev hbay
      exact hsafe hstep hgood nofun
  | addPartition sh p =>
      have hp : p.Clean sh := he
      obtain ⟨env, hpartition⟩ := addPartition_of_clean hp
      have hstep : step (some bay) (.addPartition sh p) = some bay := by
        rw [step, hpartition]
        rfl
      exact hsafe hstep hbay nofun

/-- **Plugging clean disks and partitions**, and unplugging disks, in any order:
nothing but assignments is evaluated, and a disk's strings can be read back. -/
theorem plug_safe (events : List Event) (h : ∀ e ∈ events, e.Clean) :
    Along step Safe (some emptyBay) events := by
  have hempty : Good (some emptyBay) := by
    refine ⟨emptyBay, rfl, fun l hl => ?_⟩
    rw [List.mem_singleton.mp hl]
    exact goodLine_nil
  refine along_of_step (C := fun _ e => e.Clean) Good (fun _ _ => safe_of_clean) hempty ?_
  exact along_iff.mpr fun pre e post heq =>
    h e (heq ▸ List.mem_append_right pre List.mem_cons_self)

/-- A process without a misc.conf, in a directory without files. -/
def plainProcess : Process where
  glob := noFiles
  env := fun _ => []
  misc := none
  globs := globs_noFiles
  unset := fun _ _ => rfl

/-- A disk in the left bay, with SMART enabled. -/
def leftDisk (family : Option Text) (model : Text) : Disk where
  mdev := "sda".toList
  slot := .left
  family := family
  model := some model
  smart := true
  before := []
  between := []
  behind := []
  vendor := "ATA     ".toList
  sysModel := []
  cap := "1.0TB".toList
  mdev_name := by decide
  mdev_chars := by decide
  cap_simple := by decide
  others := nofun

/-- A Caviar. -/
def caviar : Disk := leftDisk (some "Western Digital \"Caviar\"".toList) "WDC WD10EADS".toList

/-- Its filesystem. -/
def dataPartition : Partition where
  dev := "/dev/sda1".toList
  tags := [("LABEL".toList, "My \"data\"".toList), ("UUID".toList, "c0ffee-01".toList),
    ("TYPE".toList, "ext4".toList)]
  noSwap := false
  names := by decide

theorem clean_caviar : caviar.Clean plainProcess where
  evaluated := by decide +kernel
  glob := fun _ _ => rfl
  family := fun _ f hf => by
    obtain rfl : "Western Digital \"Caviar\"".toList = f := Option.some.inj hf
    unfold FirstHere
    decide +kernel
  model := fun _ m hm => by
    obtain rfl : "WDC WD10EADS".toList = m := Option.some.inj hm
    unfold FirstHere
    decide +kernel
  fam := ⟨by decide +kernel, by decide +kernel, fun _ _ => rfl⟩
  mod := ⟨by decide +kernel, by decide +kernel, fun _ _ => rfl⟩

theorem clean_dataPartition : dataPartition.Clean plainProcess where
  colon := by decide +kernel
  subst := by decide +kernel
  uuid := by decide +kernel
  glob := fun _ _ => rfl

theorem plug_safe_caviar :
    Along step Safe (some emptyBay) [.addDisk plainProcess caviar,
      .addPartition plainProcess dataPartition, .removeDisk plainProcess "sda".toList] :=
  plug_safe _ (by
    intro e he
    simp only [List.mem_cons, List.not_mem_nil, or_false] at he
    rcases he with rfl | rfl | rfl
    · exact clean_caviar
    · exact clean_dataPartition
    · trivial)

/-- **A model `WD$(reboot)`** is run. -/
theorem plug_runs_command : ¬ ∀ events, Along step Safe (some emptyBay) events := by
  intro h
  have hnone : addDisk plainProcess (leftDisk none "WD$(reboot)".toList) emptyBay = none := by
    decide +kernel
  obtain ⟨hsafe, -⟩ := h [.addDisk plainProcess (leftDisk none "WD$(reboot)".toList)]
  obtain ⟨bay, hstep, -⟩ := hsafe emptyBay rfl
  rw [step, hnone] at hstep
  cases hstep

end AltF.Hotplug
