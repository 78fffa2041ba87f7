/-
  Mcu/AlarmAdvance.lean --- WriteAlarm with a number of days.

  The fields that are read from the MCU are in UTC, and `mktime` takes them for local time.
-/
import AltF.Mcu.AlarmShown

set_option autoImplicit false

namespace AltF.Mcu.Handlers

open AltF.Foundation AltF.SysFiles

/-! ## Fields and minutes -/

theorem alarm_of_code {t t' : Int} (h : (gmtime t).code = (gmtime t').code) :
    (gmtime t).alarm = (gmtime t').alarm := by
  rw [← code_alarm (gmtime_regular t), h, code_alarm (gmtime_regular t')]

/-- Instants of a year have the same fields only within a minute. -/
theorem minute_of_code {t t' : Int} (hyear : (gmtime t).year = (gmtime t').year)
    (h : (gmtime t).code = (gmtime t').code) : t - t % 60 = t' - t' % 60 := by
  rw [← timegm_alarm_self hyear, ← timegm_alarm_self (t := t') rfl, alarm_of_code h]

/-- So have instants that are much less than a year apart. -/
theorem minute_of_code_near {t t' : Int} (hnear : t - 86400 * 300 < t' ∧ t' < t + 86400 * 300)
    (h : (gmtime t).code = (gmtime t').code) : t - t % 60 = t' - t' % 60 := by
  by_cases hyear : (gmtime t).year = (gmtime t').year
  · exact minute_of_code hyear h
  · have haway := timegm_alarm_other hyear
    rw [alarm_of_code h, timegm_alarm_self rfl] at haway
    omega

/-- A minute has its fields. -/
theorem code_of_minute {t t' : Int} (h : t - t % 60 = t' - t' % 60) :
    (gmtime t).code = (gmtime t').code := by
  have hday : t / 86400 = t' / 86400 := by omega
  have hhour : t / 3600 % 24 = t' / 3600 % 24 := by omega
  have hmin : t / 60 % 60 = t' / 60 % 60 := by omega
  simp only [Tm.code, gmtime, hday, hhour, hmin]

/-- Days are added up. -/
theorem timegm_days (tm : Tm) (n : Int) :
    timegm { tm with mday := tm.mday + n } = timegm tm + 86400 * n := by
  simp only [timegm, Tm.firstOfMonth]
  omega

/-! ## The argument -/

section Advance

variable {off n t : Int} {args : Text} {s : Device}

/-- An alarm at an instant of the current year, and a number of days that leads to another
instant of it. -/
structure Advances (off : Int) (args : Text) (n t : Int) (s : Device) : Prop where
  plus : args.head? = some '+'
  days : ∃ rest, strtol args = some (n, 'd' :: rest)
  /-- what the C library takes for the offset of a zone -/
  offset : -90000 < off ∧ off < 90000
  works : s.Works
  alarm : s.alarm = (gmtime t).code
  minute : t % 60 = 0
  year : (gmtime t).year = ((zoned off).localtime (s.clock s.readings)).year
  utcYear : (gmtime (t + 86400 * n)).year = ((zoned off).localtime (s.clock s.readings)).year
  localYear : ((zoned off).localtime (t + 86400 * n)).year =
    ((zoned off).localtime (s.clock s.readings)).year

/-- What is asked for is the alarm that is read, with the days added. -/
theorem alarmRequest_days {rest : Text} {a : Alarm} (hplus : args.head? = some '+')
    (hdays : strtol args = some (n, 'd' :: rest)) {s s' : Device}
    (hread : readalarm s = (true, a, s')) (hon : a.isOff = false) (now : Tm) :
    alarmRequest now args s = (some (some { a with day := a.day + n }), s') := by
  have hnow : ¬ startsWith "now".toList args = true := fun hstart =>
    startsWith_ne_plus (by decide) (by decide) hstart hplus
  have hdisable : ¬ startsWith "disable".toList args = true := fun hstart =>
    startsWith_ne_plus (by decide) (by decide) hstart hplus
  unfold alarmRequest
  rw [if_neg hnow, if_neg hdisable, if_pos hplus, hdays]
  simp [hread, hon]

/-- WriteAlarm stores the alarm of the instant plus the days. -/
def AlarmAdvanced (off : Int) (args : Text) (n t : Int) (s : Device) : Prop :=
  (writeAlarmCmd (zoned off) args s).2.2.alarm = (gmtime (t + 86400 * n)).code

/-- What it stores. -/
theorem Advances.stored (h : Advances off args n t s) :
    (writeAlarmCmd (zoned off) args s).2.2.alarm =
      if t + 86400 * n - off = -1 then s.alarm else (gmtime (t + 86400 * n - off)).code := by
  obtain ⟨rest, hdays⟩ := h.days
  obtain ⟨hstate, hok, halarm⟩ := ({ s with readings := s.readings + 1 } : Device).readalarm_eq
  have hland : ∀ n, Device.landed s.reaches n 4 = 4 := fun n =>
    landed_of_forall h.works.reaches n 4
  have hread : readalarm ({ s with readings := s.readings + 1 } : Device) =
      (true, (gmtime t).alarm, { s with
        readings := s.readings + 1
        exchanges := s.exchanges + Device.made s.reaches s.exchanges 4 }) := by
    have hdone := hok.mpr (hland _)
    refine Prod.ext hdone (Prod.ext ((halarm hdone).trans ?_) hstate)
    rw [h.alarm, code_alarm (gmtime_regular t)]
  have hyear := h.year
  generalize hnow : (zoned off).localtime (s.clock s.readings) = now at hyear
  have hrequest := alarmRequest_days h.plus hdays hread (gmtime_regular t).isOn now
  have hinstant : timegm (({ (gmtime t).alarm with day := (gmtime t).alarm.day + n } : Alarm).tm
      now.year) = t + 86400 * n := by
    have hsum := timegm_days ((gmtime t).alarm.tm now.year) n
    rw [timegm_alarm_self hyear, h.minute, Int.sub_zero] at hsum
    exact hsum
  have hasked : askedTime (zoned off) args s = if t + 86400 * n - off = -1 then none
      else some (gmtime (t + 86400 * n - off)) := by
    simp only [askedTime, Device.time_eq, hnow, hrequest, Option.bind_some, alarmTime, ← hinstant]
    rfl
  have hafter : afterRequest (zoned off) args s = { s with
      readings := s.readings + 1
      exchanges := s.exchanges + Device.made s.reaches s.exchanges 4 } := by
    rw [afterRequest, hnow, hrequest]
  rw [writeAlarmCmd, setAlarm_eq, hasked, hafter]
  by_cases hmade : t + 86400 * n - off = -1
  · rw [if_pos hmade, if_pos hmade]
  · rw [if_neg hmade, if_neg hmade]
    simp only [Device.writealarm_eq, hland, decide_true, (readAlarmCmd_device _ _).1,
      Device.written]
    rfl

/-- **The alarm advances by days** exactly if UTC is local time, or less than a minute ahead
of it; and where the instant to be written is -1, if it is not to advance. -/
theorem alarmAdvanced_iff (h : Advances off args n t s) :
    AlarmAdvanced off args n t s ↔
      if t + 86400 * n - off = -1 then n = 0 else -60 < off ∧ off ≤ 0 := by
  have hoffset := h.offset
  have hminute := h.minute
  unfold AlarmAdvanced
  rw [h.stored, h.alarm]
  split
  · constructor
    · intro hcode
      have := minute_of_code (h.year.trans h.utcYear.symm) hcode
      omega
    · rintro rfl
      rw [Int.mul_zero, Int.add_zero]
  · constructor
    · intro hcode
      have := minute_of_code_near (by omega) hcode
      omega
    · intro hsmall
      exact code_of_minute (by omega)

end Advance

/-- The device in Athens, with an alarm at noon. -/
def atNoon : Device := { inAthens with alarm := ⟨0x11, 0x20, 0x12, 0x00⟩ }

theorem advances_atNoon : Advances 7200 "+1d".toList 1 1700481600 atNoon where
  plus := by decide +kernel
  days := ⟨[], by decide +kernel⟩
  offset := by decide
  works := ⟨fun _ => rfl, rfl⟩
  alarm := by decide +kernel
  minute := by decide
  year := by decide +kernel
  utcYear := by decide +kernel
  localYear := by decide +kernel

theorem alarmAdvanced_atNoon :
    AlarmAdvanced 7200 "+1d".toList 1 1700481600 atNoon ↔
      if (1700481600 : Int) + 86400 * 1 - 7200 = -1 then (1 : Int) = 0
      else -60 < (7200 : Int) ∧ (7200 : Int) ≤ 0 :=
  alarmAdvanced_iff advances_atNoon

/-- A day later is two hours too early. -/
theorem alarm_not_advanced : ¬ AlarmAdvanced 7200 "+1d".toList 1 1700481600 atNoon := by
  unfold AlarmAdvanced
  decide +kernel

end AltF.Mcu.Handlers
