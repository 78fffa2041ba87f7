/-
  Mcu/HardwareClock.lean --- the clock of the MCU, as it is set and as it is read.

  The bytes hold UTC.  hctosys takes them so, and ReadRTC takes them for local time.
-/
import AltF.Mcu.Device
import AltF.Mcu.Zone

set_option autoImplicit false

namespace AltF.Mcu.Handlers

open AltF.Foundation AltF.SysFiles

/-! ## The fields and their bytes -/

/-- A number that has a code is read back from it. -/
theorem bcd2int_code {n : Int} (h : HasCode n) : (bcd2int (toByte (int2bcd n)) : Int) = n := by
  have hcode := toNat_code h
  have hlow := h.1
  have hhigh := h.2
  rw [bcd2int]
  omega

theorem monthLength_le {leap : Int} (hleap : leap = 0 ∨ leap = 1) {m : Int}
    (hm : 0 ≤ m ∧ m < 12) : monthLength leap m ≤ 31 := by
  unfold monthLength monthStart
  split <;> split <;> omega

/-- The calendar of a zone has the fields of a calendar. -/
theorem zoned_regular (off : Int) : (zoned off).Regular where
  fields t tm htm := by
    obtain rfl := Option.some.inj htm
    obtain ⟨hdate, hhour, hmin, hsec⟩ := gmtime_regular t
    have hmon := gmtime_mon t
    obtain ⟨hlow, hhigh⟩ := hdate.day
    have hlength := monthLength_le (leapDay_cases (gmtime t).date.year) hdate.month
    have hday : (gmtime t).date.day = (gmtime t).mday := rfl
    have hwday : 0 ≤ (gmtime t).wday ∧ (gmtime t).wday < 7 :=
      ⟨Int.emod_nonneg _ (by decide), Int.emod_lt_of_pos _ (by decide)⟩
    omega
  century t ht := by
    refine ⟨_, rfl, ?_⟩
    obtain ⟨hlow, hhigh⟩ := ht
    have hfirst : yearStart 2000 = 730485 := by decide
    have hlast : yearStart 2100 = 767010 := by decide
    have hyear : (gmtime t).year = yearOf (t / 86400 + epochDay) - 1900 := rfl
    obtain ⟨hbegin, hend⟩ := yearOf_bounds (n := t / 86400 + epochDay)
      (show yearStart 2000 ≤ _ by unfold epochDay; omega)
      (show _ < yearStart 2100 by unfold epochDay; omega)
    omega

/-- The bytes that systohc writes for a time. -/
def rtcBytes (tm : Tm) : Bytes := (clockWrite tm).numbers.map fun n => toByte (int2bcd n)

/-- What is read back from them: all but the day of the week. -/
theorem rtcTime_answer {s : Device} {tm : Tm} (h : (clockWrite tm).Encodable)
    (hrtc : s.rtc = rtcBytes tm) :
    rtcTime (s.answer rDateAndTimeCmd.frame) = { tm with wday := 0 } := by
  have hnumber : ∀ n ∈ (clockWrite tm).numbers, (bcd2int (toByte (int2bcd n)) : Int) = n :=
    fun n hn => bcd2int_code (h.codes n hn)
  simp only [clockWrite, List.forall_mem_cons, List.not_mem_nil] at hnumber
  obtain ⟨hsec, hmin, hhour, -, hmday, hmon, hyear, -⟩ := hnumber
  have hanswer : s.answer rDateAndTimeCmd.frame =
      [0xfa, 0x01, 0x08, 0x01, 0x01] ++ rtcBytes tm ++ stopMagic :: s.behind := by
    rw [← hrtc]
    rfl
  rw [hanswer]
  have htime : rtcTime ([0xfa, 0x01, 0x08, 0x01, 0x01] ++ rtcBytes tm ++ stopMagic :: s.behind) =
      ⟨bcd2int (toByte (int2bcd tm.sec)), bcd2int (toByte (int2bcd tm.min)),
        bcd2int (toByte (int2bcd tm.hour)), bcd2int (toByte (int2bcd tm.mday)),
        bcd2int (toByte (int2bcd (tm.mon + 1))) - 1,
        100 + bcd2int (toByte (int2bcd (tm.year - 100))), 0⟩ := rfl
  have hback : 100 + (tm.year - 100) = tm.year := by omega
  rw [htime, hsec, hmin, hhour, hmday, hmon, hyear, Int.add_sub_cancel, hback]

/-! ## Setting the clock and reading it -/

/-- Every exchange succeeds, and the clock of the system can be set. -/
structure Device.Works (s : Device) : Prop where
  reaches : ∀ n, s.reaches n = true
  settable : s.settable = true

section Clock

variable {off : Int} {s : Device}

theorem clockWrite_gmtime (off : Int) {t : Int} (ht : InCentury t) :
    (clockWrite (gmtime t)).Encodable := by
  obtain ⟨tm, htm, hyear⟩ := (zoned_regular off).century t ht
  obtain rfl := Option.some.inj htm
  exact clockWrite_encodable (zoned_regular off) htm hyear

/-- What systohc leaves in the MCU. -/
theorem systohc_rtc (hworks : s.Works) (ht : InCentury (s.clock s.readings)) :
    (systohcCmd (zoned off) s).2.2.rtc = rtcBytes (gmtime (s.clock s.readings)) ∧
      (systohcCmd (zoned off) s).2.2.Works := by
  have harray := clockWrite_array (clockWrite_gmtime off ht)
  have hgmtime : (zoned off).gmtime (s.clock s.readings) = some (gmtime (s.clock s.readings)) := rfl
  have hreach : ({ s with readings := s.readings + 1 } : Device).reaches s.exchanges = true :=
    hworks.reaches _
  simp only [systohcCmd, Device.time_eq, hgmtime, harray, simpleCmd]
  rw [Device.sent _ hreach]
  exact ⟨rfl, hworks.reaches, hworks.settable⟩

/-- The clock that systohc has set is read back by the other two. -/
def ClockKept (off : Int) (s : Device) : Prop :=
  let cal := zoned off
  let t := s.clock s.readings
  ∀ s' : Device, s'.Works → s'.rtc = (systohcCmd cal s).2.2.rtc →
    (hctosysCmd cal s').2.2.sysTime = some t ∧
      cal.ctime t <+: (hctosysCmd cal s').2.1 ∧
        (readrtcCmd cal s').2.1 = (cal.ctime t).dropLast

section Read

variable {t : Int}

/-- hctosys takes the bytes for UTC. -/
theorem hctosys_device (hworks : s.Works) (ht : InCentury t) (hrtc : s.rtc = rtcBytes (gmtime t)) :
    (hctosysCmd (zoned off) s).2.2.sysTime = some t ∧
      (zoned off).ctime t <+: (hctosysCmd (zoned off) s).2.1 := by
  have htime : (zoned off).timegm (rtcTime (s.answer rDateAndTimeCmd.frame)) = t := by
    rw [rtcTime_answer (clockWrite_gmtime off ht) hrtc]
    exact timegm_gmtime t
  have hask : Board.sendCommand rDateAndTimeCmd.frame s =
      (some (s.answer rDateAndTimeCmd.frame), s.next) := Device.sent _ (hworks.reaches _)
  have hset : ∀ s' : Device, s'.settable = true →
      Board.settimeofday t s' = (true, { s' with sysTime := some t }) := fun _ h => if_pos h
  rw [hctosysCmd, hask]
  simp only [htime, Device.time_eq]
  rw [hset { s.next with readings := s.next.readings + 1 } hworks.settable]
  refine ⟨rfl, ?_⟩
  simp only [List.append_assoc, List.prefix_append]

/-- ReadRTC takes them for local time. -/
theorem readrtc_device (hworks : s.Works) (ht : InCentury t)
    (hrtc : s.rtc = rtcBytes (gmtime t)) :
    (readrtcCmd (zoned off) s).2.1 = ((zoned off).ctime (t - off)).dropLast := by
  have htime : (zoned off).mktime (rtcTime (s.answer rDateAndTimeCmd.frame)) = t - off := by
    rw [rtcTime_answer (clockWrite_gmtime off ht) hrtc]
    exact congrArg (· - off) (timegm_gmtime t)
  rw [readrtcCmd, Device.sent _ (hworks.reaches _)]
  simp only [htime]

end Read

/-- ReadRTC leaves out only the newline. -/
theorem ctime_eq_of_dropLast {t t' : Int}
    (h : ((zoned off).ctime t).dropLast = ((zoned off).ctime t').dropLast) : t = t' := by
  have hnewline : ∀ t, (zoned off).ctime t = ((zoned off).ctime t).dropLast ++ ['\n'] := by
    intro t
    refine (List.dropLast_append_getLast? '\n' ?_).symm
    simp [zoned, asctime, List.getLast?_append, List.getLast?_cons]
  exact ctime_inj (by rw [hnewline t, hnewline t', h])

/-- **The hardware clock** is read back as it was set, by hctosys and by ReadRTC, exactly
if local time is UTC. -/
theorem clockKept_iff (hworks : s.Works) (ht : InCentury (s.clock s.readings)) :
    ClockKept off s ↔ off = 0 := by
  obtain ⟨hrtc, hworks'⟩ :
      (systohcCmd (zoned off) s).2.2.rtc = rtcBytes (gmtime (s.clock s.readings)) ∧
        (systohcCmd (zoned off) s).2.2.Works := systohc_rtc hworks ht
  constructor
  · intro hkept
    obtain ⟨-, -, hread⟩ := hkept _ hworks' rfl
    rw [readrtc_device hworks' ht hrtc] at hread
    have := ctime_eq_of_dropLast hread
    omega
  · rintro rfl s' hs' hsame
    rw [hrtc] at hsame
    have hset := @hctosys_device 0 s' _ hs' ht hsame
    refine ⟨hset.1, hset.2, ?_⟩
    rw [readrtc_device hs' ht hsame, Int.sub_zero]

end Clock

/-- A device two hours ahead of UTC, in the afternoon of 2023-11-14. -/
def inAthens : Device where
  alarm := ⟨0, 0, 0, 0⟩
  rtc := []
  reaches := fun _ => true
  exchanges := 0
  clock := fun _ => 1700000000
  readings := 0
  settable := true
  sysTime := none
  behind := []

theorem clockKept_athens : ClockKept 7200 inAthens ↔ (7200 : Int) = 0 :=
  clockKept_iff ⟨fun _ => rfl, rfl⟩ ⟨by decide, by decide⟩

theorem clock_not_kept : ¬ ClockKept 7200 inAthens := by
  intro hkept
  have hread := (hkept (systohcCmd (zoned 7200) inAthens).2.2 ⟨fun _ => rfl, rfl⟩ rfl).2.2
  revert hread
  decide +kernel

end AltF.Mcu.Handlers
