/-
  Sysctrl/Disks.lean --- the table of the disks: `read_bay` fills it from /etc/bay, and
  `hdd_powercheck` looks at every disk in it.

  There is a place for one disk on the USB plug, and none on the boxes without it, but
  `read_bay` counts every disk that is listed.  What `hdd_powercheck` remembers of a disk
  stands in its place and stays there when another disk comes.
-/
import AltF.Sysctrl.Leds

set_option autoImplicit false

namespace AltF.Sysctrl

open AltF.Foundation AltF.SysFiles

/-! ## The table -/

/-- `enum Slot`. -/
inductive Slot where
  | left
  | right
  | usb
  deriving DecidableEq, Repr

/-- The LED of a slot has its number. -/
def Slot.led : Slot → LedName
  | .left => .left
  | .right => .right
  | .usb => .usb

/-- What `check_powermode` returns. -/
inductive PowerMode where
  | unknown
  | standby
  | active
  deriving DecidableEq, Repr

def PowerMode.code : PowerMode → Int
  | .unknown => -1
  | .standby => 0
  | .active => 1

/-- `disk_t`, without the name of the slot.  Times are seconds. -/
structure Disk where
  dev : Option Text
  rdwrCnt : UInt32
  lastAccess : Int
  spindowTime : Int
  powerState : PowerMode
  deriving DecidableEq, Repr

/-- `disks`, `ndisks` and `nslots`. -/
structure DiskTable where
  disk : Slot → Disk
  ndisks : Nat
  nslots : Nat

/-- The slots that the loops go through. -/
def DiskTable.slots (t : DiskTable) : List Slot := [Slot.left, .right, .usb].take t.nslots

/-- The table as the program starts, before `read_bay`; the times are those of
/etc/misc.conf. -/
def DiskTable.start (nslots : Nat) (spindowTime : Slot → Int) : DiskTable :=
  ⟨fun slot => ⟨none, 0, 0, spindowTime slot,
    if slot ∈ [Slot.left, .right, .usb].take nslots then .active else .standby⟩, 0, nslots⟩

theorem DiskTable.slots_nodup (t : DiskTable) : t.slots.Nodup :=
  List.Nodup.sublist (List.take_sublist _ _) (by decide)

/-! ## `read_bay` -/

/-- `fgets` into `sz` bytes, with the bytes of a line so far. -/
def fgetsInto (sz : Nat) (line : Text) : Text → List Text
  | [] => if line = [] then [] else [line]
  | c :: t =>
      if c = '\n' ∨ line.length + 2 = sz then (line ++ [c]) :: fgetsInto sz [] t
      else fgetsInto sz (line ++ [c]) t

/-- `strtok`, and where the next call goes on. -/
def strtok (s : Text) (delim : Char) : Option (Text × Text) :=
  match s.dropWhile (· = delim) with
  | [] => none
  | c :: t =>
      some ((c :: t).takeWhile (· ≠ delim), ((c :: t).dropWhile (· ≠ delim)).drop 1)

theorem strtok_rest_lt {s tok rest : Text} {delim : Char}
    (h : strtok s delim = some (tok, rest)) : rest.length < s.length := by
  unfold strtok at h
  split at h
  · cases h
  · next c t heq =>
      obtain ⟨-, rfl⟩ := Prod.ext_iff.mp (Option.some.inj h)
      have hs : (c :: t).length ≤ s.length := heq ▸ (List.dropWhile_suffix _).length_le
      have hrest : ((c :: t).dropWhile (· ≠ delim)).length ≤ (c :: t).length :=
        (List.dropWhile_suffix _).length_le
      simp only [List.length_drop]
      rw [List.length_cons] at hs hrest
      omega

theorem strtok_delim (s : Text) (delim : Char) : strtok (delim :: s) delim = strtok s delim := by
  simp [strtok]

/-- **A field that is cut off** is the token that is left of it. -/
theorem strtok_take {f : Text} {delim : Char} (hne : f ≠ []) (hf : delim ∉ f) (s : Text) (k : Nat) :
    strtok ((f ++ delim :: s).take k) delim =
      if k = 0 then none else some (f.take k, s.take (k - (f.length + 1))) := by
  obtain ⟨c, f, rfl⟩ := List.exists_cons_of_ne_nil hne
  have hin : ∀ x ∈ c :: f, decide (x ≠ delim) = true := by
    intro x hx
    rw [decide_eq_true_eq]
    rintro rfl
    exact hf hx
  have hc : c ≠ delim := of_decide_eq_true (hin c List.mem_cons_self)
  cases k with
  | zero => rfl
  | succ k =>
      have hcut : ((c :: f) ++ delim :: s).take (k + 1) =
          (c :: f).take (k + 1) ++ (delim :: s).take (k - f.length) := by
        rw [List.take_append, List.length_cons, Nat.add_sub_add_right]
      have htok : ∀ x ∈ (c :: f).take (k + 1), decide (x ≠ delim) = true :=
        fun x hx => hin x (List.mem_of_mem_take hx)
      have hfirst : (((c :: f) ++ delim :: s).take (k + 1)).dropWhile (· = delim) =
          ((c :: f) ++ delim :: s).take (k + 1) := by
        rw [List.cons_append, List.take_succ_cons, List.dropWhile_cons_of_neg (by simpa using hc)]
      have hcons : ((c :: f) ++ delim :: s).take (k + 1) = c :: (f ++ delim :: s).take k := rfl
      have hstrtok : strtok (((c :: f) ++ delim :: s).take (k + 1)) delim =
          some ((((c :: f) ++ delim :: s).take (k + 1)).takeWhile (· ≠ delim),
            ((((c :: f) ++ delim :: s).take (k + 1)).dropWhile (· ≠ delim)).drop 1) := by
        unfold strtok
        rw [hfirst, hcons]
      have hlen : k + 1 - ((c :: f).length + 1) = k - f.length - 1 := by
        rw [List.length_cons]
        omega
      rw [hstrtok, if_neg (Nat.succ_ne_zero k), hcut, List.takeWhile_append_of_pos htok,
        List.dropWhile_append_of_pos htok, hlen]
      cases k - f.length with
      | zero => simp
      | succ n => simp

theorem strtok_field {f : Text} {delim : Char} (hne : f ≠ []) (hf : delim ∉ f) (s : Text) :
    strtok (f ++ delim :: s) delim = some (f, s) := by
  have hwhole := strtok_take hne hf s (f.length + 1 + s.length)
  rw [List.take_of_length_le (by simp; omega), if_neg (by omega),
    List.take_of_length_le (by omega), Nat.add_sub_cancel_left, List.take_length] at hwhole
  exact hwhole

/-- The slot that a name stands for.  Behind `usb` comes one more character; a name without
it is followed by the value. -/
def slotOf (opt dev : Text) : Option Slot :=
  if opt = "left_dev".toList then some .left
  else if opt = "right_dev".toList then some .right
  else if "usb".toList.isPrefixOf opt ∧
      "_dev".toList.isPrefixOf (if opt.length = 3 then dev else opt.drop 4) then some .usb
  else none

/-- The slot and the device of a line. -/
def bayEntry (buf : Text) : Option (Slot × Text) :=
  match strtok (cString buf) '=' with
  | none => none
  | some (opt, rest) =>
      match strtok rest '\n' with
      | none => none
      | some (dev, _) => (slotOf opt dev).map fun slot => (slot, dev)

/-- The disks that /etc/bay lists. -/
def bayEntries (text : Text) : List (Slot × Text) := (fgetsInto 256 [] text).filterMap bayEntry

/-- One line, in `read_bay`. -/
def readBayLine (t : DiskTable) (buf : Text) : DiskTable :=
  match bayEntry buf with
  | none => t
  | some (slot, dev) =>
      { t with disk := Function.update t.disk slot { t.disk slot with dev := some dev },
               ndisks := t.ndisks + 1 }

/-- `read_bay`, with `none` for a file that cannot be opened. -/
def readBay (file : Option Text) (t : DiskTable) : DiskTable :=
  match file with
  | none => t
  | some text =>
      (fgetsInto 256 [] text).foldl readBayLine
        { t with disk := fun slot =>
                   if slot ∈ t.slots then { t.disk slot with dev := none } else t.disk slot,
                 ndisks := 0 }

/-- A disk but for its device. -/
def Disk.Same (d d' : Disk) : Prop :=
  d.rdwrCnt = d'.rdwrCnt ∧ d.lastAccess = d'.lastAccess ∧ d.spindowTime = d'.spindowTime ∧
    d.powerState = d'.powerState

/-- What lines leave in the table. -/
theorem foldl_readBayLine (bufs : List Text) (t : DiskTable) :
    (bufs.foldl readBayLine t).nslots = t.nslots ∧
      (bufs.foldl readBayLine t).ndisks = t.ndisks + (bufs.filterMap bayEntry).length ∧
      ∀ slot, ((bufs.foldl readBayLine t).disk slot).Same (t.disk slot) ∧
        (((bufs.foldl readBayLine t).disk slot).dev = (t.disk slot).dev ∧
            (∀ dev, (slot, dev) ∉ bufs.filterMap bayEntry) ∨
          ∃ dev, ((bufs.foldl readBayLine t).disk slot).dev = some dev ∧
            (slot, dev) ∈ bufs.filterMap bayEntry) := by
  induction bufs generalizing t with
  | nil =>
      exact ⟨rfl, rfl, fun slot => ⟨⟨rfl, rfl, rfl, rfl⟩, Or.inl ⟨rfl, fun _ => List.not_mem_nil⟩⟩⟩
  | cons buf bufs ih =>
      rw [List.foldl_cons]
      obtain ⟨hslots, hcount, hdisk⟩ := ih (readBayLine t buf)
      cases hentry : bayEntry buf with
      | none =>
          have hsame : readBayLine t buf = t := by rw [readBayLine, hentry]
          rw [List.filterMap_cons_none hentry, hsame]
          rw [hsame] at hslots hcount hdisk
          exact ⟨hslots, hcount, hdisk⟩
      | some e =>
          obtain ⟨named, dev⟩ := e
          have hline : readBayLine t buf =
              { t with disk := Function.update t.disk named { t.disk named with dev := some dev },
                       ndisks := t.ndisks + 1 } := by rw [readBayLine, hentry]
          rw [List.filterMap_cons_some hentry]
          rw [hline] at hslots hcount hdisk ⊢
          refine ⟨hslots, ?_, fun slot => ?_⟩
          · rw [hcount, List.length_cons]
            simp only
            omega
          · obtain ⟨hsame, hdev⟩ := hdisk slot
            simp only at hsame hdev ⊢
            by_cases hslot : slot = named
            · subst hslot
              rw [Function.update_self] at hsame hdev
              refine ⟨hsame, Or.inr ?_⟩
              rcases hdev with ⟨hdev, -⟩ | ⟨dev', hdev, hmem⟩
              · exact ⟨dev, hdev, List.mem_cons_self⟩
              · exact ⟨dev', hdev, List.mem_cons_of_mem _ hmem⟩
            · rw [Function.update_of_ne hslot] at hsame hdev
              refine ⟨hsame, hdev.imp (fun h => ⟨h.1, fun dev' hmem => ?_⟩)
                (fun ⟨dev', h, hmem⟩ => ⟨dev', h, List.mem_cons_of_mem _ hmem⟩)⟩
              rcases List.mem_cons.mp hmem with heq | hmem
              · exact hslot (Prod.ext_iff.mp heq).1
              · exact h.2 dev' hmem

/-- **`read_bay`** counts the disks that are listed and puts one of them into each slot that
is named; what it remembers of the slots stays. -/
theorem readBay_some (text : Text) (t : DiskTable) :
    (readBay (some text) t).nslots = t.nslots ∧
      (readBay (some text) t).ndisks = (bayEntries text).length ∧
      ∀ slot, ((readBay (some text) t).disk slot).Same (t.disk slot) ∧
        (slot ∈ t.slots →
          ((readBay (some text) t).disk slot).dev = none ∧
              (∀ dev, (slot, dev) ∉ bayEntries text) ∨
            ∃ dev, ((readBay (some text) t).disk slot).dev = some dev ∧
              (slot, dev) ∈ bayEntries text) := by
  obtain ⟨hslots, hcount, hdisk⟩ := foldl_readBayLine (fgetsInto 256 [] text)
    { t with disk := fun slot =>
               if slot ∈ t.slots then { t.disk slot with dev := none } else t.disk slot,
             ndisks := 0 }
  refine ⟨hslots, hcount.trans (Nat.zero_add _), fun slot => ?_⟩
  obtain ⟨hsame, hdev⟩ := hdisk slot
  by_cases hslot : slot ∈ t.slots
  · simp only [if_pos hslot] at hsame hdev
    exact ⟨hsame, fun _ => hdev⟩
  · simp only [if_neg hslot] at hsame
    exact ⟨hsame, fun h => absurd h hslot⟩

theorem readBay_same (file : Option Text) (t : DiskTable) (slot : Slot) :
    ((readBay file t).disk slot).Same (t.disk slot) := by
  cases file with
  | none => exact ⟨rfl, rfl, rfl, rfl⟩
  | some text => exact ((readBay_some text t).2.2 slot).1

/-! ## `hdd_powercheck` -/

/-- What a call sees of a slot. -/
structure Probe where
  /-- `check_powermode` -/
  mode : PowerMode
  /-- `time` -/
  now : Int
  /-- the reads and writes in the disk's `stat` file, if it can be read -/
  stat : Option (UInt32 × UInt32)
  deriving DecidableEq, Repr

/-- `dstat` -/
def dstat : Option (UInt32 × UInt32) → UInt32
  | none => 0
  | some (rd, wr) => rd + wr

/-- What a call makes of a disk, and whether it spins it down. -/
def checkDisk (d : Disk) (p : Probe) : Disk × Bool :=
  if p.mode = .unknown ∧ 0 < d.spindowTime then
    let dst := dstat p.stat
    if d.rdwrCnt < dst then
      ({ d with rdwrCnt := dst, lastAccess := p.now, powerState := .active }, false)
    else if d.powerState ≠ .standby ∧ d.spindowTime < p.now - d.lastAccess then
      ({ d with powerState := .standby }, true)
    else (d, false)
  else ({ d with powerState := p.mode }, false)

/-- The variables of the loop, the LEDs, and the calls of `spindown_disk`. -/
structure Round where
  disk : Slot → Disk
  dpmf : Int
  leds : Leds
  spundown : List (Slot × Text)

/-- The disk is watched by its counter: the drive does not tell its state. -/
def Disk.Watched (d : Disk) (p : Probe) : Prop := p.mode = .unknown ∧ 0 < d.spindowTime

/-- The counter has grown. -/
def Disk.Used (d : Disk) (p : Probe) : Prop := d.rdwrCnt < dstat p.stat

/-- The disk is not asleep, and has not been used for longer than it may. -/
def Disk.Overdue (d : Disk) (p : Probe) : Prop :=
  d.powerState ≠ .standby ∧ d.spindowTime < p.now - d.lastAccess

instance (d : Disk) (p : Probe) : Decidable (d.Watched p) := inferInstanceAs (Decidable (_ ∧ _))
instance (d : Disk) (p : Probe) : Decidable (d.Used p) := inferInstanceAs (Decidable (_ < _))
instance (d : Disk) (p : Probe) : Decidable (d.Overdue p) := inferInstanceAs (Decidable (_ ∧ _))

/-- **What a call makes of a disk**, by the three conditions. -/
theorem checkDisk_eq (d : Disk) (p : Probe) :
    checkDisk d p =
      if d.Watched p then
        if d.Used p then
          ({ d with rdwrCnt := dstat p.stat, lastAccess := p.now, powerState := .active }, false)
        else if d.Overdue p then ({ d with powerState := .standby }, true)
        else (d, false)
      else ({ d with powerState := p.mode }, false) := rfl

/-- The LED of a disk that has changed its state. -/
def showDisk (noleds : Bool) (slot : Slot) (d d' : Disk) (leds : Leds) : Leds :=
  if d.powerState ≠ d'.powerState ∧ noleds = false then
    if d'.powerState = .standby then ledBlink slot.led "10".toList "2000".toList leds
    else ledSet slot.led "0".toList leds
  else leds

/-- One turn of the loop. -/
def checkSlot (noleds : Bool) (probe : Slot → Probe) (r : Round) (slot : Slot) : Round :=
  match (r.disk slot).dev with
  | none => r
  | some dev =>
      let (d, spundown) := checkDisk (r.disk slot) (probe slot)
      { disk := Function.update r.disk slot d
        dpmf := r.dpmf + d.powerState.code
        leds := showDisk noleds slot (r.disk slot) d r.leds
        spundown := r.spundown ++ if spundown then [(slot, dev)] else [] }

/-- The variables that `led_get` leaves as they are. -/
structure Junk where
  pled : Text
  u : Int32
  deriving DecidableEq, Repr

/-- The power LED is at nobody's disposal but the program's. -/
def PowerFree (junk : Junk) (leds : Leds) : Prop :=
  (ledGet .power leds junk.pled junk.u).map Prod.fst = some "none".toList

instance (junk : Junk) (leds : Leds) : Decidable (PowerFree junk leds) :=
  inferInstanceAs (Decidable (_ = _))

/-- The loop. -/
def rounds (noleds : Bool) (probe : Slot → Probe) (t : DiskTable) (leds : Leds) : Round :=
  t.slots.foldl (checkSlot noleds probe) ⟨t.disk, 0, leds, []⟩

/-- `hdd_powercheck`: table, LEDs, and the disks it spins down. -/
def hddPowercheck (noleds : Bool) (probe : Slot → Probe) (junk : Junk) (t : DiskTable)
    (leds : Leds) : DiskTable × Leds × List (Slot × Text) :=
  let r := rounds noleds probe t leds
  ({ t with disk := r.disk },
    if PowerFree junk r.leds then
      ledSet .power (if r.dpmf ≠ 0 ∨ t.ndisks = 0 then "1".toList else "0".toList) r.leds
    else r.leds,
    r.spundown)

/-- The disk of a slot after a call that looks at the slot. -/
def Disk.after (d : Disk) (p : Probe) : Disk := if d.dev.isSome then (checkDisk d p).1 else d

theorem Disk.after_dev (d : Disk) (p : Probe) : (d.after p).dev = d.dev := by
  unfold Disk.after
  rw [checkDisk_eq]
  split_ifs <;> rfl

/-- What a slot contributes to the sum. -/
def Disk.term (d : Disk) (p : Probe) : Int :=
  if d.dev.isSome then (checkDisk d p).1.powerState.code else 0

/-- What the slots contribute. -/
def terms (d : Slot → Disk) (probe : Slot → Probe) (l : List Slot) : Int :=
  l.foldr (fun slot sum => (d slot).term (probe slot) + sum) 0

/-- The disk of a slot is spun down. -/
def Disk.SpinsDown (d : Disk) (p : Probe) : Prop := d.dev.isSome ∧ (checkDisk d p).2 = true

instance (d : Disk) (p : Probe) : Decidable (d.SpinsDown p) :=
  inferInstanceAs (Decidable (_ ∧ _))

@[simp] theorem ledSet_led_power (slot : Slot) (mode : Text) (leds : Leds) :
    (ledSet slot.led mode leds).power = leds.power := by
  cases slot <;> rfl

@[simp] theorem ledBlink_led_power (slot : Slot) (on off : Text) (leds : Leds) :
    (ledBlink slot.led on off leds).power = leds.power := by
  cases slot <;> rfl

theorem showDisk_power (noleds : Bool) (slot : Slot) (d d' : Disk) (leds : Leds) :
    (showDisk noleds slot d d' leds).power = leds.power := by
  unfold showDisk
  split_ifs
  · exact ledBlink_led_power slot _ _ leds
  · exact ledSet_led_power slot _ leds
  · rfl

section Rounds

variable (noleds : Bool) (probe : Slot → Probe)

theorem checkSlot_eq (r : Round) (slot : Slot) :
    (checkSlot noleds probe r slot).disk =
        Function.update r.disk slot ((r.disk slot).after (probe slot)) ∧
      (checkSlot noleds probe r slot).dpmf = r.dpmf + (r.disk slot).term (probe slot) ∧
      (checkSlot noleds probe r slot).leds.power = r.leds.power ∧
      ∀ e, e ∈ (checkSlot noleds probe r slot).spundown ↔
        e ∈ r.spundown ∨ e.1 = slot ∧ (r.disk slot).SpinsDown (probe slot) ∧
          (r.disk slot).dev = some e.2 := by
  unfold checkSlot Disk.after Disk.term Disk.SpinsDown
  cases hdev : (r.disk slot).dev with
  | none =>
      refine ⟨(Function.update_eq_self slot r.disk).symm, (add_zero _).symm, rfl, fun e => ?_⟩
      simp
  | some dev =>
      refine ⟨rfl, rfl, showDisk_power _ _ _ _ _, fun e => ?_⟩
      obtain ⟨named, dev'⟩ := e
      simp only [List.mem_append, Option.isSome_some, true_and, Option.some.injEq]
      split
      · next hspun => simp [hspun, eq_comm]
      · next hspun => simp [hspun]

theorem foldl_checkSlot {l : List Slot} (hl : l.Nodup) (r : Round) :
    (∀ slot, (l.foldl (checkSlot noleds probe) r).disk slot =
        if slot ∈ l then (r.disk slot).after (probe slot) else r.disk slot) ∧
      (l.foldl (checkSlot noleds probe) r).dpmf =
        r.dpmf + terms r.disk probe l ∧
      (l.foldl (checkSlot noleds probe) r).leds.power = r.leds.power ∧
      ∀ e, e ∈ (l.foldl (checkSlot noleds probe) r).spundown ↔
        e ∈ r.spundown ∨ e.1 ∈ l ∧ (r.disk e.1).SpinsDown (probe e.1) ∧
          (r.disk e.1).dev = some e.2 := by
  induction l generalizing r with
  | nil => simp [terms]
  | cons slot l ih =>
      obtain ⟨hslot, hrest⟩ := List.nodup_cons.mp hl
      obtain ⟨hdisk, hsum, hpower, hspun⟩ := checkSlot_eq noleds probe r slot
      obtain ⟨ihdisk, ihsum, ihpower, ihspun⟩ := ih hrest (checkSlot noleds probe r slot)
      have hother : ∀ other ∈ l, (checkSlot noleds probe r slot).disk other = r.disk other := by
        intro other hmem
        rw [hdisk, Function.update_of_ne]
        rintro rfl
        exact hslot hmem
      rw [List.foldl_cons]
      refine ⟨fun other => ?_, ?_, ihpower.trans hpower, fun e => ?_⟩
      · rw [ihdisk]
        by_cases hmem : other ∈ l
        · rw [if_pos hmem, if_pos (List.mem_cons_of_mem slot hmem), hother other hmem]
        · by_cases hsame : other = slot
          · subst hsame
            rw [if_neg hmem, if_pos List.mem_cons_self, hdisk, Function.update_self]
          · rw [if_neg hmem, if_neg (List.not_mem_cons_of_ne_of_not_mem hsame hmem), hdisk,
              Function.update_of_ne hsame]
      · have hterms : terms (checkSlot noleds probe r slot).disk probe l = terms r.disk probe l :=
          List.foldr_ext _ _ _ fun other hmem _ => by rw [hother other hmem]
        rw [ihsum, hterms, hsum, add_assoc, terms, terms, List.foldr_cons]
      · rw [ihspun, hspun, or_assoc]
        refine or_congr_right ?_
        constructor
        · rintro (⟨rfl, h⟩ | ⟨hmem, h⟩)
          · exact ⟨List.mem_cons_self, h⟩
          · rw [hother e.1 hmem] at h
            exact ⟨List.mem_cons_of_mem slot hmem, h⟩
        · rintro ⟨hmem, h⟩
          by_cases hsame : e.1 = slot
          · rw [hsame] at h
            exact Or.inl ⟨hsame, h⟩
          · have hmem' := (List.mem_cons.mp hmem).resolve_left hsame
            refine Or.inr ⟨hmem', ?_⟩
            rw [hother e.1 hmem']
            exact h

end Rounds

section Powercheck

variable (noleds : Bool) (probe : Slot → Probe) (junk : Junk) (t : DiskTable) (leds : Leds)

/-- Each slot is looked at once, and by itself. -/
theorem hddPowercheck_disk (slot : Slot) :
    (hddPowercheck noleds probe junk t leds).1.disk slot =
      if slot ∈ t.slots then (t.disk slot).after (probe slot) else t.disk slot :=
  (foldl_checkSlot noleds probe t.slots_nodup ⟨t.disk, 0, leds, []⟩).1 slot

/-- The disks that are spun down. -/
theorem mem_spundown_iff (e : Slot × Text) :
    e ∈ (hddPowercheck noleds probe junk t leds).2.2 ↔
      e.1 ∈ t.slots ∧ (t.disk e.1).SpinsDown (probe e.1) ∧ (t.disk e.1).dev = some e.2 := by
  refine ((foldl_checkSlot noleds probe t.slots_nodup ⟨t.disk, 0, leds, []⟩).2.2.2 e).trans ?_
  exact or_iff_right List.not_mem_nil

end Powercheck

end AltF.Sysctrl
