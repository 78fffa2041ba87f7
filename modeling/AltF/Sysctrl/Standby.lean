/-
  Sysctrl/Standby.lean --- when a disk that does not tell its state is asleep: `hdd_powercheck`
  of sysctrl.c over runs in which the disk stays in its slot.

  The counter that is remembered is the highest one seen, and the time that of the call that
  saw it first; a disk is spun down once, and asleep until a call sees a higher counter.
-/
import AltF.Sysctrl.Spindown

set_option autoImplicit false

namespace AltF.Sysctrl

open AltF.Foundation

/-! ## Uses -/

/-- What the calls of `hdd_powercheck` have seen of a slot. -/
def probesOf (slot : Slot) (es : List SpinEvent) : List Probe :=
  es.filterMap fun
    | .powercheck _ probe _ _ => some (probe slot)
    | _ => none

/-- A call whose counter is above `count` and above those of all calls before it. -/
def Uses (count : UInt32) (ps : List Probe) (p : Probe) : Prop :=
  ∃ before after, ps = before ++ p :: after ∧ count < dstat p.stat ∧
    ∀ b ∈ before, dstat b.stat < dstat p.stat

theorem uses_concat {count : UInt32} {ps : List Probe} {p q : Probe} :
    Uses count (ps ++ [q]) p ↔
      Uses count ps p ∨ p = q ∧ count < dstat q.stat ∧ ∀ b ∈ ps, dstat b.stat < dstat q.stat := by
  constructor
  · rintro ⟨before, after, heq, habove, hall⟩
    rcases List.eq_nil_or_concat' after with rfl | ⟨after, c, rfl⟩
    · obtain ⟨rfl, hlast⟩ := List.append_inj' heq rfl
      obtain rfl : q = p := by simpa using hlast
      exact .inr ⟨rfl, habove, hall⟩
    · rw [← List.cons_append, ← List.append_assoc] at heq
      obtain ⟨rfl, -⟩ := List.append_inj' heq rfl
      exact .inl ⟨before, after, rfl, habove, hall⟩
  · rintro (⟨before, after, rfl, habove, hall⟩ | ⟨rfl, habove, hall⟩)
    · exact ⟨before, after ++ [q], by simp, habove, hall⟩
    · exact ⟨ps, [], rfl, habove, hall⟩

/-- The disk is in its slot and watched by its counter. -/
def Counted (slot : Slot) (s : SpinRun) : SpinEvent → Prop
  | .plug _ named => named ≠ slot
  | .bay _ => True
  | .powercheck _ probe _ _ => slot ∈ s.table.slots ∧ (s.table.disk slot).IsRead (probe slot)

instance (slot : Slot) (s : SpinRun) : (e : SpinEvent) → Decidable (Counted slot s e)
  | .plug _ _ => inferInstanceAs (Decidable (_ ≠ _))
  | .bay _ => isTrue trivial
  | .powercheck _ _ _ _ => inferInstanceAs (Decidable (_ ∧ _))

/-! ## What is remembered -/

/-- A disk `d₀`, after the calls `ps`. -/
structure Watching (d₀ : Disk) (ps : List Probe) (d : Disk) : Prop where
  spindow : d.spindowTime = d₀.spindowTime
  /-- the highest counter -/
  counter : ∀ n, d.rdwrCnt < n ↔ d₀.rdwrCnt < n ∧ ∀ p ∈ ps, dstat p.stat < n
  /-- the last use -/
  access : ∀ t, d.lastAccess < t ↔ d₀.lastAccess < t ∧ ∀ p, Uses d₀.rdwrCnt ps p → p.now < t
  standby : d.powerState = .standby ↔ ∃ q ∈ ps.getLast?, d₀.spindowTime < q.now - d.lastAccess

section Steps

variable {d₀ d : Disk} {ps : List Probe} {q : Probe}

/-- A call uses the disk if its counter is above the one that is remembered. -/
theorem Watching.uses (h : Watching d₀ ps d) (p : Probe) :
    Uses d₀.rdwrCnt (ps ++ [q]) p ↔ Uses d₀.rdwrCnt ps p ∨ p = q ∧ d.Used q := by
  rw [uses_concat, ← h.counter]
  rfl

/-- A call that sees no higher counter is remembered in neither. -/
theorem Watching.unused (h : Watching d₀ ps d) (hunused : ¬ d.Used q) :
    (∀ n, d.rdwrCnt < n ↔ d₀.rdwrCnt < n ∧ ∀ p ∈ ps ++ [q], dstat p.stat < n) ∧
      ∀ t, d.lastAccess < t ↔ d₀.lastAccess < t ∧
        ∀ p, Uses d₀.rdwrCnt (ps ++ [q]) p → p.now < t := by
  constructor
  · intro n
    rw [h.counter]
    refine and_congr_right fun hzero =>
      ⟨fun hall p hp => ?_, fun hall p hp => hall p (List.mem_append_left _ hp)⟩
    rcases List.mem_append.mp hp with hp | hp
    · exact hall p hp
    · rw [List.mem_singleton.mp hp]
      exact UInt32.lt_of_le_of_lt (UInt32.not_lt.mp hunused) ((h.counter n).mpr ⟨hzero, hall⟩)
  · intro t
    have huses : ∀ p, Uses d₀.rdwrCnt (ps ++ [q]) p ↔ Uses d₀.rdwrCnt ps p := fun p =>
      (h.uses p).trans (or_iff_left fun hq => hunused hq.2)
    simp only [h.access, huses]

/-- **One call**, not before the last one. -/
theorem Watching.after (h : Watching d₀ ps d) (hread : d.IsRead q) (haccess : d.lastAccess ≤ q.now)
    (hlater : ∀ p ∈ ps.getLast?, p.now ≤ q.now) : Watching d₀ (ps ++ [q]) (d.after q) := by
  obtain ⟨hdev, hwatched⟩ := hread
  have hspindow : 0 < d₀.spindowTime := h.spindow ▸ hwatched.2
  have hafter : d.after q = (checkDisk d q).1 := if_pos hdev
  rw [hafter, checkDisk_eq, if_pos hwatched]
  have hlast : (ps ++ [q]).getLast? = some q := List.getLast?_concat
  split_ifs with hused hover
  · refine ⟨h.spindow, fun n => ?_, fun t => ?_, ?_⟩
    · refine ⟨fun hn => ?_, fun hn => hn.2 q (by simp)⟩
      obtain ⟨hzero, hall⟩ := (h.counter n).mp (UInt32.lt_trans hused hn)
      refine ⟨hzero, fun p hp => ?_⟩
      rcases List.mem_append.mp hp with hp | hp
      · exact hall p hp
      · exact List.mem_singleton.mp hp ▸ hn
    · refine ⟨fun ht => ?_, fun ht => ht.2 q ((h.uses q).mpr (.inr ⟨rfl, hused⟩))⟩
      obtain ⟨hzero, hall⟩ := (h.access t).mp (lt_of_le_of_lt haccess ht)
      refine ⟨hzero, fun p hp => ?_⟩
      rcases (h.uses p).mp hp with hp | ⟨rfl, -⟩
      · exact hall p hp
      · exact ht
    · rw [hlast]
      refine iff_of_false PowerMode.noConfusion ?_
      rintro ⟨p, hp, hlt⟩
      obtain rfl := Option.mem_some_iff.mp hp
      rw [sub_self] at hlt
      exact absurd hlt (not_lt.mpr hspindow.le)
  · obtain ⟨hcounter, haccess'⟩ := h.unused hused
    refine ⟨h.spindow, hcounter, haccess', iff_of_true rfl ⟨q, hlast, ?_⟩⟩
    exact h.spindow ▸ hover.2
  · obtain ⟨hcounter, haccess'⟩ := h.unused hused
    refine ⟨h.spindow, hcounter, haccess', ?_⟩
    rw [hlast, h.standby]
    simp only [Option.mem_some_iff, exists_eq_left']
    constructor
    · rintro ⟨p, hp, hlt⟩
      have hle := hlater p hp
      omega
    · intro hlt
      by_contra hawake
      exact hover ⟨fun hstandby => hawake (h.standby.mp hstandby), h.spindow ▸ hlt⟩

end Steps

/-! ## Runs -/

/-- The clock of the slot is not before what is remembered. -/
structure SpinRun.Watches (s : SpinRun) (slot : Slot) (d₀ : Disk) (ps : List Probe) : Prop where
  watching : Watching d₀ ps (s.table.disk slot)
  access : (s.table.disk slot).lastAccess ≤ s.clock slot
  last : ∀ p ∈ ps.getLast?, p.now ≤ s.clock slot

theorem Watching.of_same {d₀ d d' : Disk} {ps : List Probe} (h : Watching d₀ ps d)
    (hsame : d'.Same d) : Watching d₀ ps d' := by
  obtain ⟨hcount, haccess, hspindow, hstate⟩ := hsame
  refine ⟨hspindow.trans h.spindow, fun n => ?_, fun t => ?_, ?_⟩
  · rw [hcount, h.counter]
  · rw [haccess, h.access]
  · rw [hstate, haccess, h.standby]

theorem SpinRun.Watches.step {s : SpinRun} {slot : Slot} {d₀ : Disk} {ps : List Probe}
    (h : s.Watches slot d₀ ps) {e : SpinEvent} (hcounted : Counted slot s e)
    (hclock : ClockKept s e) : (s.step e).Watches slot d₀ (ps ++ probesOf slot [e]) := by
  cases e with
  | plug now named =>
      have hother : (s.step (.plug now named)).clock slot = s.clock slot :=
        Function.update_of_ne (Ne.symm hcounted) _ _
      refine ⟨?_, ?_, ?_⟩
      · rw [probesOf, List.filterMap_cons_none rfl, List.filterMap_nil, List.append_nil]
        exact h.watching
      · rw [hother]
        exact h.access
      · rw [hother, probesOf, List.filterMap_cons_none rfl, List.filterMap_nil, List.append_nil]
        exact h.last
  | bay file =>
      have hsame := readBay_same file s.table slot
      rw [probesOf, List.filterMap_cons_none rfl, List.filterMap_nil, List.append_nil]
      exact ⟨h.watching.of_same hsame, (hsame.2.1).trans_le h.access, h.last⟩
  | powercheck noleds probe junk leds =>
      obtain ⟨hslot, hread⟩ := hcounted
      have hnow := hclock slot hslot
      have hdisk : (s.step (.powercheck noleds probe junk leds)).table.disk slot =
          (s.table.disk slot).after (probe slot) :=
        (hddPowercheck_disk noleds probe junk s.table leds slot).trans (if_pos hslot)
      have hclock' : (s.step (.powercheck noleds probe junk leds)).clock slot =
          (probe slot).now := if_pos hslot
      have hprobes : probesOf slot [.powercheck noleds probe junk leds] = [probe slot] := rfl
      rw [hprobes]
      refine ⟨?_, ?_, ?_⟩
      · rw [hdisk]
        exact h.watching.after hread (h.access.trans hnow) fun p hp => (h.last p hp).trans hnow
      · rw [hdisk, hclock']
        obtain ⟨-, haccess⟩ := after_access (s.table.disk slot) (probe slot)
        split at haccess
        · exact haccess.2.le
        · exact haccess.2.trans_le (h.access.trans hnow)
      · rw [hclock', List.getLast?_concat]
        intro p hp
        exact (Option.mem_some_iff.mp hp) ▸ le_refl _

theorem watches_run {s : SpinRun} {slot : Slot} {d₀ : Disk} {ps : List Probe}
    (h : s.Watches slot d₀ ps) {es : List SpinEvent}
    (hcounted : Along SpinRun.step (Counted slot) s es)
    (hclock : Along SpinRun.step ClockKept s es) :
    (run SpinRun.step s es).Watches slot d₀ (ps ++ probesOf slot es) := by
  induction es generalizing s ps with
  | nil =>
      rw [probesOf, List.filterMap_nil, List.append_nil]
      exact h
  | cons e es ih =>
      have hnext := ih (h.step hcounted.1 hclock.1) hcounted.2 hclock.2
      rw [List.append_assoc, probesOf, probesOf, ← List.filterMap_append] at hnext
      exact hnext

/-- **A disk sleeps when, and only when, it is not used.**  After every run in which it stays in
its slot, a disk that was awake is asleep exactly if the last call was more than `spindow_time`
seconds after every call that saw its counter grow, and after the last access before them. -/
theorem standby_iff {s : SpinRun} {slot : Slot} {es : List SpinEvent}
    (hawake : (s.table.disk slot).powerState ≠ .standby)
    (haccess : (s.table.disk slot).lastAccess ≤ s.clock slot)
    (hcounted : Along SpinRun.step (Counted slot) s es)
    (hclock : Along SpinRun.step ClockKept s es) :
    ((run SpinRun.step s es).table.disk slot).powerState = .standby ↔
      ∃ q ∈ (probesOf slot es).getLast?,
        (s.table.disk slot).spindowTime < q.now - (s.table.disk slot).lastAccess ∧
          ∀ p, Uses (s.table.disk slot).rdwrCnt (probesOf slot es) p →
            (s.table.disk slot).spindowTime < q.now - p.now := by
  have hstart : s.Watches slot (s.table.disk slot) [] := by
    refine ⟨⟨rfl, fun n => by simp, fun t => ?_, iff_of_false hawake (by simp)⟩, haccess, by simp⟩
    refine ⟨fun ht => ⟨ht, ?_⟩, And.left⟩
    rintro p ⟨before, after, heq, -⟩
    exact absurd heq (by simp)
  have hend := (watches_run hstart hcounted hclock).watching
  rw [List.nil_append] at hend
  rw [hend.standby]
  refine exists_congr fun q => and_congr_right fun _ => ?_
  have hlast := hend.access (q.now - (s.table.disk slot).spindowTime)
  constructor
  · intro hlt
    obtain ⟨hzero, hall⟩ := hlast.mp (by omega)
    exact ⟨by omega, fun p hp => by have := hall p hp; omega⟩
  · rintro ⟨hzero, hall⟩
    have := hlast.mpr ⟨by omega, fun p hp => by have := hall p hp; omega⟩
    omega

/-- The USB disk is plugged, then used at 200, and asleep at 801. -/
def pluggedDisk : SpinRun :=
  run SpinRun.step (.start 3 (fun _ => 600) fun _ => 0) (idleDisk.take 2)

theorem standby_iff_idleDisk :
    ∃ q ∈ (probesOf .usb (idleDisk.drop 2)).getLast?,
      (pluggedDisk.table.disk .usb).spindowTime <
          q.now - (pluggedDisk.table.disk .usb).lastAccess ∧
        ∀ p, Uses (pluggedDisk.table.disk .usb).rdwrCnt (probesOf .usb (idleDisk.drop 2)) p →
          (pluggedDisk.table.disk .usb).spindowTime < q.now - p.now :=
  (standby_iff (by decide +kernel) (by decide +kernel) (by decide +kernel)
    (by decide +kernel)).mp (by decide +kernel)

end AltF.Sysctrl
