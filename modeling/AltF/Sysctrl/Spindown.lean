/-
  Sysctrl/Spindown.lean --- the disks that `hdd_powercheck` spins down, over any changes of
  /etc/bay, counters and clock readings.

  A disk is spun down if its counter has not grown for longer than `spindow_time`.  Counter
  and time of the last access belong to the slot: a disk that comes into the slot inherits
  them, and until its own counter has passed the one that was left its accesses are not seen.
-/
import AltF.Sysctrl.Disks

set_option autoImplicit false

namespace AltF.Sysctrl

open AltF.Foundation AltF.SysFiles

/-! ## Runs -/

/-- A reading of a disk's counter. -/
structure Reading where
  time : Int
  count : UInt32
  deriving DecidableEq, Repr

/-- The table, and for each slot the last reading of the clock, since when the disk that is
in it now has been there, and the readings of its counter. -/
structure SpinRun where
  table : DiskTable
  clock : Slot → Int
  since : Slot → Int
  readings : Slot → List Reading

def SpinRun.start (nslots : Nat) (spindowTime since : Slot → Int) : SpinRun :=
  ⟨.start nslots spindowTime, since, since, fun _ => []⟩

inductive SpinEvent where
  /-- another disk comes into the slot -/
  | plug (now : Int) (slot : Slot)
  /-- `read_bay` -/
  | bay (file : Option Text)
  | powercheck (noleds : Bool) (probe : Slot → Probe) (junk : Junk) (leds : Leds)

/-- The counter is read. -/
def Disk.IsRead (d : Disk) (p : Probe) : Prop := d.dev.isSome ∧ d.Watched p

instance (d : Disk) (p : Probe) : Decidable (d.IsRead p) := inferInstanceAs (Decidable (_ ∧ _))

/-- The reading that a call takes of a disk, if the counter can be read. -/
def Disk.reading (d : Disk) (p : Probe) : List Reading :=
  if d.IsRead p ∧ p.stat.isSome then [⟨p.now, dstat p.stat⟩] else []

def SpinRun.step (s : SpinRun) : SpinEvent → SpinRun
  | .plug now slot =>
      { s with clock := Function.update s.clock slot now
               since := Function.update s.since slot now
               readings := Function.update s.readings slot [] }
  | .bay file => { s with table := readBay file s.table }
  | .powercheck noleds probe junk leds =>
      { s with table := (hddPowercheck noleds probe junk s.table leds).1
               clock := fun slot =>
                 if slot ∈ s.table.slots then (probe slot).now else s.clock slot
               readings := fun slot =>
                 (if slot ∈ s.table.slots then (s.table.disk slot).reading (probe slot) else []) ++
                   s.readings slot }

/-- No reading of the clock is before an earlier one. -/
def ClockKept (s : SpinRun) : SpinEvent → Prop
  | .plug now slot => s.clock slot ≤ now
  | .bay _ => True
  | .powercheck _ probe _ _ => ∀ slot ∈ s.table.slots, s.clock slot ≤ (probe slot).now

instance (s : SpinRun) : (e : SpinEvent) → Decidable (ClockKept s e)
  | .plug _ _ => inferInstanceAs (Decidable (_ ≤ _))
  | .bay _ => isTrue trivial
  | .powercheck _ _ _ _ => inferInstanceAs (Decidable (∀ _ ∈ _, _))

/-- The readings of a slot in the last `spindow_time` seconds. -/
def SpinRun.recent (s : SpinRun) (slot : Slot) (now : Int) : List Reading :=
  (s.readings slot).filter fun r => now - (s.table.disk slot).spindowTime ≤ r.time

/-- The disk of a slot has been in it for more than `spindow_time` seconds, and every reading
of its counter in this time was the same. -/
structure SpinRun.Idle (s : SpinRun) (slot : Slot) (now : Int) : Prop where
  there : (s.table.disk slot).spindowTime < now - s.since slot
  unused : ∀ r ∈ s.recent slot now, ∀ r' ∈ s.recent slot now, r.count = r'.count

/-- Only idle disks are spun down. -/
def IdleOnly (s : SpinRun) : SpinEvent → Prop
  | .powercheck noleds probe junk leds =>
      ∀ e ∈ (hddPowercheck noleds probe junk s.table leds).2.2,
        (s.step (.powercheck noleds probe junk leds)).Idle e.1 (probe e.1).now
  | _ => True

/-- The disk that has not been used for longer than it may was in its slot when the last access
was seen, and its counter has not fallen behind the one that is remembered. -/
def Remembered (s : SpinRun) : SpinEvent → Prop
  | .powercheck noleds probe junk leds =>
      ∀ slot ∈ s.table.slots, (s.table.disk slot).IsRead (probe slot) →
        ¬ (s.table.disk slot).Used (probe slot) → (s.table.disk slot).Overdue (probe slot) →
          s.since slot ≤ (s.table.disk slot).lastAccess ∧
            ∀ r ∈ (s.step (.powercheck noleds probe junk leds)).recent slot (probe slot).now,
              (s.table.disk slot).rdwrCnt ≤ r.count
  | _ => True

instance (s : SpinRun) : (e : SpinEvent) → Decidable (Remembered s e)
  | .plug _ _ => isTrue trivial
  | .bay _ => isTrue trivial
  | .powercheck _ _ _ _ => inferInstanceAs (Decidable (∀ _ ∈ _, _ → _ → _ → _ ∧ ∀ _ ∈ _, _))

/-! ## What is remembered -/

theorem spinsDown_iff (d : Disk) (p : Probe) :
    d.SpinsDown p ↔ d.IsRead p ∧ ¬ d.Used p ∧ d.Overdue p := by
  unfold Disk.SpinsDown Disk.IsRead
  rw [checkDisk_eq, and_assoc]
  refine and_congr_right fun _ => ?_
  split_ifs with hwatched hused hover
  · simp [hused]
  · simp [hwatched, hused, hover]
  · simp [hover]
  · simp [hwatched]

/-- The time a call leaves as that of the last access: its own if the disk has been used. -/
theorem after_access (d : Disk) (p : Probe) :
    (d.after p).spindowTime = d.spindowTime ∧
      (if d.IsRead p ∧ d.Used p then
        (d.after p).rdwrCnt = dstat p.stat ∧ (d.after p).lastAccess = p.now
      else (d.after p).rdwrCnt = d.rdwrCnt ∧ (d.after p).lastAccess = d.lastAccess) := by
  unfold Disk.after Disk.IsRead
  rw [checkDisk_eq]
  by_cases hdev : d.dev.isSome
  · simp only [hdev, if_true, true_and]
    split_ifs with hwatched hused hover <;> simp_all
  · simp [hdev]

/-- A disk's readings after the last access are not above the counter that is remembered. -/
def SpinRun.Below (s : SpinRun) : Prop :=
  ∀ slot, ∀ r ∈ s.readings slot, r.time ≤ s.clock slot ∧
    ((s.table.disk slot).lastAccess < r.time → r.count ≤ (s.table.disk slot).rdwrCnt)

theorem mem_reading {d : Disk} {p : Probe} {r : Reading} (h : r ∈ d.reading p) :
    d.IsRead p ∧ r = ⟨p.now, dstat p.stat⟩ := by
  unfold Disk.reading at h
  split at h
  · next hread => exact ⟨hread.1, List.mem_singleton.mp h⟩
  · exact absurd h List.not_mem_nil

section Steps

variable {s : SpinRun}

theorem below_step (h : s.Below) {e : SpinEvent} (hclock : ClockKept s e) : (s.step e).Below := by
  cases e with
  | plug now named =>
      intro slot r hr
      simp only [SpinRun.step] at hr ⊢
      by_cases hslot : slot = named
      · subst hslot
        rw [Function.update_self] at hr
        exact absurd hr List.not_mem_nil
      · rw [Function.update_of_ne hslot] at hr ⊢
        exact h slot r hr
  | bay file =>
      intro slot r hr
      obtain ⟨hcount, haccess, -, -⟩ := readBay_same file s.table slot
      simp only [SpinRun.step]
      rw [hcount, haccess]
      exact h slot r hr
  | powercheck noleds probe junk leds =>
      intro slot r hr
      simp only [SpinRun.step] at hr ⊢
      rw [hddPowercheck_disk]
      by_cases hslot : slot ∈ s.table.slots
      · rw [if_pos hslot] at hr ⊢
        have hnow := hclock slot hslot
        obtain ⟨-, haccess⟩ := after_access (s.table.disk slot) (probe slot)
        rcases List.mem_append.mp hr with hr | hr
        · obtain ⟨hread, rfl⟩ := mem_reading hr
          rw [if_pos hslot]
          refine ⟨le_refl _, fun hlater => ?_⟩
          split at haccess
          · rw [haccess.2] at hlater
            exact absurd hlater (lt_irrefl _)
          · next hnot =>
            rw [haccess.1]
            exact UInt32.not_lt.mp fun hused => hnot ⟨hread, hused⟩
        · obtain ⟨htime, hbelow⟩ := h slot r hr
          rw [if_pos hslot]
          refine ⟨htime.trans hnow, fun hlater => ?_⟩
          split at haccess
          · rw [haccess.2] at hlater
            exact absurd (htime.trans hnow) (not_le.mpr hlater)
          · rw [haccess.2] at hlater
            rw [haccess.1]
            exact hbelow hlater
      · rw [if_neg hslot, List.nil_append] at hr
        rw [if_neg hslot, if_neg hslot]
        exact h slot r hr

/-- **One call**: a disk whose counter and last access are remembered is idle. -/
theorem idleOnly_of_remembered (h : s.Below) {e : SpinEvent} (hclock : ClockKept s e)
    (hknown : Remembered s e) : IdleOnly s e := by
  cases e with
  | plug now slot => trivial
  | bay file => trivial
  | powercheck noleds probe junk leds =>
      rintro ⟨slot, dev⟩ he
      obtain ⟨hslot, hspins, -⟩ := (mem_spundown_iff noleds probe junk s.table leds _).mp he
      simp only at hslot hspins ⊢
      obtain ⟨hread, hused, hover⟩ := (spinsDown_iff _ _).mp hspins
      obtain ⟨hsince, hcounts⟩ := hknown slot hslot hread hused hover
      have hbelow := below_step h hclock
      have hdisk : (s.step (.powercheck noleds probe junk leds)).table.disk slot =
          (s.table.disk slot).after (probe slot) :=
        (hddPowercheck_disk noleds probe junk s.table leds slot).trans (if_pos hslot)
      obtain ⟨hspindow, haccess⟩ := after_access (s.table.disk slot) (probe slot)
      rw [if_neg fun hboth => hused hboth.2] at haccess
      have hall : ∀ r ∈ (s.step (.powercheck noleds probe junk leds)).recent slot (probe slot).now,
          r.count = (s.table.disk slot).rdwrCnt := by
        intro r hr
        obtain ⟨hmem, hrecent⟩ := List.mem_filter.mp hr
        have hrecent' := of_decide_eq_true hrecent
        rw [hdisk, hspindow] at hrecent'
        obtain ⟨-, hle⟩ := hbelow slot r hmem
        rw [hdisk, haccess.1, haccess.2] at hle
        have hlater := hover.2
        exact UInt32.le_antisymm (hle (by omega)) (hcounts r hr)
      refine ⟨?_, fun r hr r' hr' => (hall r hr).trans (hall r' hr').symm⟩
      rw [hdisk, hspindow]
      have hlater := hover.2
      change _ < (probe slot).now - s.since slot
      omega

end Steps

/-- **Only idle disks are spun down**, in every run with a clock that does not go backwards, if
whenever a disk is overdue it was there at the last access and its counter has not fallen
behind. -/
theorem idle_along {nslots : Nat} {spindowTime since : Slot → Int} {es : List SpinEvent}
    (hclock : Along SpinRun.step ClockKept (.start nslots spindowTime since) es)
    (hknown : Along SpinRun.step Remembered (.start nslots spindowTime since) es) :
    Along SpinRun.step IdleOnly (.start nslots spindowTime since) es :=
  along_of_step SpinRun.Below
    (fun _ _ h hcond => ⟨idleOnly_of_remembered h hcond.1 hcond.2, below_step h hcond.1⟩)
    (fun _ _ hr => absurd hr List.not_mem_nil) (hclock.and hknown)

/-- What a call sees when the USB disk does not tell its state. -/
def usbProbe (now : Int) (count : UInt32) : Slot → Probe := fun _ =>
  ⟨.unknown, now, some (count, 0)⟩

/-- A USB disk is plugged, used, and left alone for ten minutes and a second. -/
def idleDisk : List SpinEvent :=
  [.plug 100 .usb, .bay (some "usbc_dev=sdc\n".toList),
    .powercheck false (usbProbe 200 10) ⟨[], 0⟩ plainLeds,
    .powercheck false (usbProbe 801 10) ⟨[], 0⟩ plainLeds]

theorem idle_along_idleDisk :
    Along SpinRun.step IdleOnly (.start 3 (fun _ => 600) fun _ => 0) idleDisk ∧
      (hddPowercheck false (usbProbe 801 10) ⟨[], 0⟩
        (run SpinRun.step (.start 3 (fun _ => 600) fun _ => 0) (idleDisk.take 3)).table
        plainLeds).2.2 = [(.usb, "sdc".toList)] :=
  ⟨idle_along (by decide +kernel) (by decide +kernel), by decide +kernel⟩

/-- A USB disk is exchanged for one that has been used less. -/
def exchangedDisk : List SpinEvent :=
  [.bay (some "usbc_dev=sdc\n".toList), .powercheck false (usbProbe 1000 100) ⟨[], 0⟩ plainLeds,
    .bay (some []), .plug 2000 .usb, .bay (some "usbc_dev=sdc\n".toList)]

theorem exchanged_disk_spun_down :
    ¬ Along SpinRun.step IdleOnly (.start 3 (fun _ => 600) fun _ => 0)
      (exchangedDisk ++ [.powercheck false (usbProbe 2001 5) ⟨[], 0⟩ plainLeds]) := by
  intro h
  have hidle := along_iff.mp h exchangedDisk (.powercheck false (usbProbe 2001 5) ⟨[], 0⟩ plainLeds)
    [] rfl (.usb, "sdc".toList) (by decide +kernel)
  exact absurd hidle.there (by decide +kernel)

end AltF.Sysctrl
