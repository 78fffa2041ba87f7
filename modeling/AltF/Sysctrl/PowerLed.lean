/-
  Sysctrl/PowerLed.lean --- the power LED, by which `hdd_powercheck` tells whether a disk
  is awake.

  The states of the disks are summed up, and a disk whose state is unknown counts -1: it
  cancels one that is awake.  A disk without a place in the table is counted as present,
  and enters the sum with nothing.
-/
import AltF.Sysctrl.Disks

set_option autoImplicit false

namespace AltF.Sysctrl

open AltF.Foundation AltF.SysFiles

/-! ## The sum -/

/-- The disk is awake: it says so, or it is watched and has been used, or was awake and is
not overdue. -/
def Disk.Awake (d : Disk) (p : Probe) : Prop :=
  d.dev.isSome ∧
    (p.mode = .active ∨ d.Watched p ∧ (d.Used p ∨ ¬ d.Overdue p ∧ d.powerState = .active))

/-- Nothing is known of the disk: it is not watched, or it is and nothing was known before. -/
def Disk.Unclear (d : Disk) (p : Probe) : Prop :=
  d.dev.isSome ∧ p.mode = .unknown ∧
    (¬ 0 < d.spindowTime ∨ ¬ d.Used p ∧ ¬ d.Overdue p ∧ d.powerState = .unknown)

instance (d : Disk) (p : Probe) : Decidable (d.Awake p) := inferInstanceAs (Decidable (_ ∧ _))
instance (d : Disk) (p : Probe) : Decidable (d.Unclear p) := inferInstanceAs (Decidable (_ ∧ _))

section Disk

variable {d : Disk} {p : Probe}

theorem after_active_iff (hdev : d.dev.isSome) :
    (d.after p).powerState = .active ↔ d.Awake p := by
  unfold Disk.after Disk.Awake
  rw [if_pos hdev, checkDisk_eq]
  split_ifs with hwatched hused hover
  · simp [hdev, hwatched, hused]
  · simp [hdev, hwatched, hused, hover, hwatched.1]
  · simp [hdev, hwatched, hused, hover, hwatched.1]
  · simp [hdev, hwatched]

theorem after_unknown_iff (hdev : d.dev.isSome) :
    (d.after p).powerState = .unknown ↔ d.Unclear p := by
  unfold Disk.after Disk.Unclear
  rw [if_pos hdev, checkDisk_eq]
  split_ifs with hwatched hused hover
  · simp [hdev, hwatched.2, hused]
  · simp [hdev, hwatched.2, hused, hover]
  · simp [hdev, hwatched.1, hwatched.2, hused, hover]
  · have hnot : p.mode = .unknown → ¬ 0 < d.spindowTime := fun hmode hpos =>
      hwatched ⟨hmode, hpos⟩
    simp only [hdev, true_and]
    exact ⟨fun hmode => ⟨hmode, Or.inl (hnot hmode)⟩, fun h => h.1⟩

theorem after_standby_iff (hdev : d.dev.isSome) :
    (d.after p).powerState = .standby ↔ ¬ d.Awake p ∧ ¬ d.Unclear p := by
  rw [← after_active_iff hdev, ← after_unknown_iff hdev]
  cases (d.after p).powerState <;> decide

theorem term_eq (d : Disk) (p : Probe) :
    d.term p = (if d.Awake p then 1 else 0) - (if d.Unclear p then 1 else 0) := by
  by_cases hdev : d.dev.isSome
  · have hterm : d.term p = (d.after p).powerState.code := by
      rw [Disk.term, Disk.after, if_pos hdev, if_pos hdev]
    rw [hterm]
    simp only [← after_active_iff hdev, ← after_unknown_iff hdev]
    cases (d.after p).powerState <;> decide
  · rw [Disk.term, if_neg hdev, if_neg fun h => hdev h.1, if_neg fun h => hdev h.1]
    rfl

end Disk

/-- The disks of the table that are awake. -/
def awake (t : DiskTable) (probe : Slot → Probe) : List Slot :=
  t.slots.filter fun slot => (t.disk slot).Awake (probe slot)

/-- Those of which nothing is known. -/
def unclear (t : DiskTable) (probe : Slot → Probe) : List Slot :=
  t.slots.filter fun slot => (t.disk slot).Unclear (probe slot)

/-- The sum is the difference of their numbers. -/
theorem terms_eq (d : Slot → Disk) (probe : Slot → Probe) (l : List Slot) :
    terms d probe l =
      ((l.filter fun slot => (d slot).Awake (probe slot)).length : Int) -
        (l.filter fun slot => (d slot).Unclear (probe slot)).length := by
  induction l with
  | nil => rfl
  | cons slot l ih =>
      have hcons : terms d probe (slot :: l) = (d slot).term (probe slot) + terms d probe l := rfl
      rw [hcons, ih, term_eq, List.filter_cons, List.filter_cons]
      simp only [decide_eq_true_eq]
      split_ifs <;> push_cast [List.length_cons] <;> omega

/-! ## Runs -/

/-- The program's table, the LEDs, and the disks that were listed when /etc/bay was read
last. -/
structure Box where
  table : DiskTable
  leds : Leds
  listed : List (Slot × Text)

def Box.start (nslots : Nat) (spindowTime : Slot → Int) (leds : Leds) : Box :=
  ⟨.start nslots spindowTime, leds, []⟩

inductive BoxEvent where
  | bay (file : Option Text)
  | powercheck (noleds : Bool) (probe : Slot → Probe) (junk : Junk)
  /-- another program writes the files of the power LED -/
  | power (f : LedFiles)

def Box.step (s : Box) : BoxEvent → Box
  | .bay file => ⟨readBay file s.table, s.leds, (file.map bayEntries).getD s.listed⟩
  | .powercheck noleds probe junk =>
      let (table, leds, _) := hddPowercheck noleds probe junk s.table s.leds
      ⟨table, leds, s.listed⟩
  | .power f => ⟨s.table, { s.leds with power := f }, s.listed⟩

/-- A listed disk has its place in the table. -/
def DiskTable.Seats (t : DiskTable) (e : Slot × Text) : Prop :=
  e.1 ∈ t.slots ∧ (t.disk e.1).dev = some e.2

/-- It has, and is recorded in standby there. -/
def DiskTable.Standby (t : DiskTable) (e : Slot × Text) : Prop :=
  t.Seats e ∧ (t.disk e.1).powerState = .standby

/-- After a call that has the power LED to itself, the LED is off exactly if a disk is present
and all are recorded in standby. -/
def Tells (s : Box) : BoxEvent → Prop
  | .powercheck noleds probe junk =>
      let s' := s.step (.powercheck noleds probe junk)
      PowerFree junk s.leds →
        (s'.leds.power.shown = some .off ↔ s.listed ≠ [] ∧ ∀ e ∈ s.listed, s'.table.Standby e)
  | _ => True

/-- The disks that are awake do not cancel with those of which nothing is known; and if there
are neither, each disk that is present has its place. -/
def Told (s : Box) : BoxEvent → Prop
  | .powercheck _ probe junk =>
      PowerFree junk s.leds → s.listed ≠ [] →
        (awake s.table probe).length = (unclear s.table probe).length →
          awake s.table probe = [] ∧ ∀ e ∈ s.listed, s.table.Seats e
  | _ => True

/-- The table is that of the listed disks. -/
structure Box.Filled (s : Box) : Prop where
  count : s.table.ndisks = s.listed.length
  seats : ∀ slot ∈ s.table.slots,
    (s.table.disk slot).dev = none ∧ (∀ dev, (slot, dev) ∉ s.listed) ∨
      ∃ dev, (s.table.disk slot).dev = some dev ∧ (slot, dev) ∈ s.listed

section Steps

variable {s : Box}

theorem powercheck_table (noleds : Bool) (probe : Slot → Probe) (junk : Junk) :
    let t := (s.step (.powercheck noleds probe junk)).table
    t.slots = s.table.slots ∧ t.ndisks = s.table.ndisks ∧
      (∀ slot, (t.disk slot).dev = (s.table.disk slot).dev) ∧
      ∀ slot ∈ s.table.slots, t.disk slot = (s.table.disk slot).after (probe slot) := by
  have hdisk := hddPowercheck_disk noleds probe junk s.table s.leds
  refine ⟨rfl, rfl, fun slot => ?_, fun slot hslot => (hdisk slot).trans (if_pos hslot)⟩
  refine (congrArg Disk.dev (hdisk slot)).trans ?_
  split
  · exact Disk.after_dev _ _
  · rfl

theorem filled_step (h : s.Filled) (e : BoxEvent) : (s.step e).Filled := by
  cases e with
  | bay file =>
      cases file with
      | none => exact h
      | some text =>
          obtain ⟨hslots, hcount, hdisk⟩ := readBay_some text s.table
          refine ⟨hcount, fun slot hslot => (hdisk slot).2 ?_⟩
          simp only [Box.step, DiskTable.slots, hslots] at hslot
          exact hslot
  | powercheck noleds probe junk =>
      obtain ⟨hslots, hcount, hdev, -⟩ := powercheck_table (s := s) noleds probe junk
      refine ⟨hcount.trans h.count, fun slot hslot => ?_⟩
      rw [hdev]
      exact h.seats slot (hslots ▸ hslot)
  | power f => exact ⟨h.count, h.seats⟩

theorem powerFree_congr {junk : Junk} {leds leds' : Leds} (h : leds.power = leds'.power) :
    PowerFree junk leds ↔ PowerFree junk leds' := by
  unfold PowerFree ledGet Leds.files
  simp only [h]

theorem ledSet_power_shown (mode : Text) (leds : Leds) :
    (ledSet .power mode leds).power.shown =
      if mode = "0".toList then some .off else some .on := by
  unfold ledSet Leds.write LedFiles.shown
  simp only [if_true, writeStrToFile, List.append_cancel_right_eq]

/-- The power LED after a call. -/
theorem powercheck_shown {noleds : Bool} {probe : Slot → Probe} {junk : Junk}
    (hfree : PowerFree junk s.leds) :
    (s.step (.powercheck noleds probe junk)).leds.power.shown = some .off ↔
      s.table.ndisks ≠ 0 ∧
        (awake s.table probe).length = (unclear s.table probe).length := by
  obtain ⟨-, hsum, hpower, -⟩ := foldl_checkSlot noleds probe s.table.slots_nodup
    ⟨s.table.disk, 0, s.leds, []⟩
  have hsum' : (rounds noleds probe s.table s.leds).dpmf =
      ((awake s.table probe).length : Int) - (unclear s.table probe).length := by
    refine hsum.trans ?_
    rw [terms_eq, zero_add]
    rfl
  have hfree' : PowerFree junk (rounds noleds probe s.table s.leds).leds :=
    (powerFree_congr hpower).mpr hfree
  simp only [Box.step, hddPowercheck]
  rw [if_pos hfree', ledSet_power_shown, hsum']
  by_cases hlit : ((awake s.table probe).length : Int) - (unclear s.table probe).length ≠ 0 ∨
      s.table.ndisks = 0
  · rw [if_pos hlit, if_neg (by decide)]
    refine iff_of_false (by decide) ?_
    omega
  · rw [if_neg hlit, if_pos rfl]
    refine iff_of_true rfl ?_
    omega

/-- Where every present disk is in standby, none is awake and of none nothing is known. -/
theorem standby_none {probe : Slot → Probe} (h : s.Filled)
    {t : DiskTable}
    (ht : ∀ slot ∈ s.table.slots, t.disk slot = (s.table.disk slot).after (probe slot))
    (hall : ∀ e ∈ s.listed, t.Standby e) :
    awake s.table probe = [] ∧ unclear s.table probe = [] := by
  have hslot : ∀ slot ∈ s.table.slots, (s.table.disk slot).dev.isSome →
      ¬ (s.table.disk slot).Awake (probe slot) ∧ ¬ (s.table.disk slot).Unclear (probe slot) := by
    intro slot hslot hdev
    rw [← after_standby_iff hdev, ← ht slot hslot]
    rcases h.seats slot hslot with ⟨hnone, -⟩ | ⟨dev, -, hmem⟩
    · rw [hnone] at hdev
      cases hdev
    · exact (hall (slot, dev) hmem).2
  constructor
  · refine List.filter_eq_nil_iff.mpr fun slot hmem hawake => ?_
    have hawake' := of_decide_eq_true hawake
    exact (hslot slot hmem hawake'.1).1 hawake'
  · refine List.filter_eq_nil_iff.mpr fun slot hmem hunclear => ?_
    have hunclear' := of_decide_eq_true hunclear
    exact (hslot slot hmem hunclear'.1).2 hunclear'

/-- **One call** tells exactly if it is told. -/
theorem tells_iff (h : s.Filled) (e : BoxEvent) : Tells s e ↔ Told s e := by
  cases e with
  | bay file => exact Iff.rfl
  | power f => exact Iff.rfl
  | powercheck noleds probe junk =>
      obtain ⟨hslots, -, hdev, hafter⟩ := powercheck_table (s := s) noleds probe junk
      refine forall_congr' fun hfree => ?_
      rw [powercheck_shown hfree, h.count, ne_eq, List.length_eq_zero_iff]
      constructor
      · intro htells hlisted hsum
        obtain ⟨-, hall⟩ := htells.mp ⟨hlisted, hsum⟩
        refine ⟨(standby_none h hafter hall).1, fun e he => ?_⟩
        obtain ⟨⟨hslot, hplace⟩, -⟩ := hall e he
        rw [hslots] at hslot
        rw [hdev] at hplace
        exact ⟨hslot, hplace⟩
      · intro htold
        constructor
        · rintro ⟨hlisted, hsum⟩
          obtain ⟨hawake, hseats⟩ := htold hlisted hsum
          have hunclear : unclear s.table probe = [] := by
            rw [hawake, List.length_nil, eq_comm, List.length_eq_zero_iff] at hsum
            exact hsum
          refine ⟨hlisted, fun e he => ?_⟩
          obtain ⟨hslot, hplace⟩ := hseats e he
          refine ⟨⟨by rw [hslots]; exact hslot, by rw [hdev]; exact hplace⟩, ?_⟩
          rw [hafter e.1 hslot, after_standby_iff (by rw [hplace]; rfl)]
          exact ⟨fun hon => List.filter_eq_nil_iff.mp hawake e.1 hslot (decide_eq_true hon),
            fun hon => List.filter_eq_nil_iff.mp hunclear e.1 hslot (decide_eq_true hon)⟩
        · rintro ⟨hlisted, hall⟩
          obtain ⟨hawake, hunclear⟩ := standby_none h hafter hall
          exact ⟨hlisted, by rw [hawake, hunclear]⟩

end Steps

/-- **The power LED tells whether a disk is awake** along a run exactly if it is told at every
call. -/
theorem power_led_along_iff (nslots : Nat) (spindowTime : Slot → Int) (leds : Leds)
    (es : List BoxEvent) :
    Along Box.step Tells (.start nslots spindowTime leds) es ↔
      Along Box.step Told (.start nslots spindowTime leds) es :=
  along_congr Box.Filled (fun _ e h => tells_iff h e) (fun _ e h => filled_step h e)
    ⟨rfl, fun _ _ => Or.inl ⟨rfl, fun _ => List.not_mem_nil⟩⟩

/-- The LEDs, the power LED with its trigger `none`. -/
def litLeds : Leds :=
  ledSet .power "1".toList (ledsOff ⟨⟨[], [], [], []⟩, ⟨[], [], [], []⟩, none, ⟨[], [], [], []⟩⟩)

/-- Two disks are listed; the left one is awake, and of the right one nothing is known. -/
def awakeAndUnknown : List BoxEvent :=
  [.bay (some "left_dev=sda\nright_dev=sdb\n".toList),
    .powercheck false (fun slot => ⟨if slot = .left then .active else .unknown, 0, none⟩) ⟨[], 0⟩]

/-- A disk of which nothing is known cancels one that is awake. -/
theorem unknown_cancels_awake :
    ¬ Along Box.step Tells (.start 3 (fun _ => 0) litLeds) awakeAndUnknown ∧
      (run Box.step (.start 3 (fun _ => 0) litLeds) awakeAndUnknown).leds.power.shown =
        some .off := by
  refine ⟨fun h => ?_, by decide +kernel⟩
  have htells := (h.2.1 (by decide +kernel)).mp (by decide +kernel)
  have hleft := htells.2 (.left, "sda".toList) (by decide +kernel)
  exact absurd hleft.2 (by decide +kernel)

end AltF.Sysctrl
