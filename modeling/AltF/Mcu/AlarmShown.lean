/-
  Mcu/AlarmShown.lean --- the alarm that WriteAlarm is given and the one that is shown.

  The MCU keeps no year.  The time goes to it in UTC, and comes back in the year that the
  local time is in when it is read.
-/
import AltF.Mcu.AlarmKept
import AltF.Mcu.HardwareClock

set_option autoImplicit false

namespace AltF.Mcu.Handlers

open AltF.Foundation AltF.SysFiles

/-! ## Four numbers -/

/-- A text that begins with a word begins with a letter. -/
theorem startsWith_letter {w : Char} {word args : Text} (hw : 65 ≤ w.toNat)
    (h : startsWith (w :: word) args = true) : ∃ c t, args = c :: t ∧ 65 ≤ c.toNat := by
  cases args with
  | nil => exact absurd (eq_of_beq h) (by simp)
  | cons c t =>
      refine ⟨c, t, rfl, ?_⟩
      have heq := eq_of_beq h
      rw [List.length_cons, List.take_succ_cons, List.map_cons, List.cons.injEq] at heq
      by_contra hsmall
      have hkept : c.toLower = c := by
        unfold Char.toLower
        exact dif_neg fun hupper => hsmall (show 'A'.val.toNat ≤ c.val.toNat from
          UInt32.le_iff_toNat_le.mp hupper.1)
      rw [← heq.1, hkept] at hw
      exact hsmall hw

/-- There is no number in front of a letter. -/
theorem strtol_letter {c : Char} {t : Text} (h : 65 ≤ c.toNat) :
    strtol (c :: t) = none := by
  have hne : ∀ d : Char, d.toNat < 65 → c ≠ d := by
    rintro d hd rfl
    omega
  have hspace : isSpace c = false := by
    simp only [isSpace, Bool.or_eq_false_iff, beq_eq_false_iff_ne]
    exact ⟨⟨⟨⟨⟨hne _ (by decide), hne _ (by decide)⟩, hne _ (by decide)⟩, hne _ (by decide)⟩,
      hne _ (by decide)⟩, hne _ (by decide)⟩
  have hdigit : c.isDigit = false := by
    rw [Bool.eq_false_iff]
    intro hd
    have hnine : '9'.toNat = 57 := rfl
    have := Char.isDigit_iff_toNat.mp hd
    omega
  unfold strtol
  simp [hspace, hdigit, hne '-' (by decide), hne '+' (by decide)]

/-- Four numbers are what is asked for. -/
theorem alarmRequest_numbers {σ : Type} [Board σ] {args : Text} {a : Alarm}
    (hnumbers : strtol4 args = some a) (hplus : args.head? ≠ some '+')
    (hrange : (1 ≤ a.month ∧ a.month ≤ 12) ∧ (1 ≤ a.day ∧ a.day ≤ 31) ∧
      (0 ≤ a.hour ∧ a.hour ≤ 23) ∧ (0 ≤ a.min ∧ a.min ≤ 59)) (now : Tm) (s : σ) :
    alarmRequest now args s = (some (some a), s) := by
  have hletter : ∀ w word, 65 ≤ Char.toNat w → startsWith (w :: word) args = false := by
    intro w word hw
    rw [Bool.eq_false_iff]
    intro hstart
    obtain ⟨c, t, rfl, hc⟩ := startsWith_letter hw hstart
    rw [strtol4, strtol_letter hc] at hnumbers
    exact absurd hnumbers (by simp)
  have hnow : ¬ startsWith "now".toList args = true := by
    rw [show "now".toList = 'n' :: ['o', 'w'] from rfl, hletter _ _ (by decide)]
    decide
  have hdisable : ¬ startsWith "disable".toList args = true := by
    rw [show "disable".toList = 'd' :: "isable".toList from rfl, hletter _ _ (by decide)]
    decide
  unfold alarmRequest
  rw [if_neg hnow, if_neg hdisable, if_neg hplus, hnumbers]
  exact if_neg (by omega)

/-! ## The alarm and its instant -/

/-- The fields that the MCU keeps. -/
def Tm.alarm (tm : Tm) : Alarm := ⟨tm.mon + 1, tm.mday, tm.hour, tm.min⟩

theorem Tm.Regular.codes {tm : Tm} (h : tm.Regular) :
    HasCode (tm.mon + 1) ∧ HasCode tm.mday ∧ HasCode tm.hour ∧ HasCode tm.min := by
  have hmon : 0 ≤ tm.mon ∧ tm.mon < 12 := h.date.month
  have hday := h.day_lt
  have hhour := h.hour
  have hmin := h.min
  exact ⟨⟨by omega, by omega⟩, ⟨by omega, by omega⟩, ⟨by omega, by omega⟩, ⟨by omega, by omega⟩⟩

/-- A time is not taken for no alarm. -/
theorem Tm.Regular.isOn {tm : Tm} (h : tm.Regular) : tm.alarm.isOff = false := by
  have hmon : 0 ≤ tm.mon := h.date.month.1
  rw [Alarm.isOff, beq_eq_false_iff_ne]
  intro hzero
  have := congrArg Alarm.month hzero
  simp only [Tm.alarm] at this
  omega

/-- The bytes that are written for them. -/
def Tm.code (tm : Tm) : AlarmBytes := Device.code tm.mon tm.mday tm.hour tm.min

/-- They are read back as they are written. -/
theorem code_alarm {tm : Tm} (h : tm.Regular) : tm.code.alarm = tm.alarm := by
  obtain ⟨hmon, hday, hhour, hmin⟩ := h.codes
  simp only [AlarmBytes.alarm, Tm.code, Device.code, bcd2int_code hmon, bcd2int_code hday,
    bcd2int_code hhour, bcd2int_code hmin, Tm.alarm]

/-- The instant that ReadAlarm makes of the fields in a year. -/
theorem timegm_alarm {tm : Tm} (h : tm.Regular) (year : Int) :
    timegm (tm.alarm.tm year) =
      (⟨1900 + year, tm.mon, tm.mday⟩ : Date).number * 86400 + tm.hour * 3600 + tm.min * 60 := by
  have hmon : 0 ≤ (tm.alarm.tm year).mon ∧ (tm.alarm.tm year).mon < 12 := by
    have : 0 ≤ tm.mon ∧ tm.mon < 12 := h.date.month
    simp only [Alarm.tm, Tm.alarm]
    omega
  rw [timegm, number_firstOfMonth hmon]
  simp only [Alarm.tm, Tm.alarm, Tm.date, Int.add_sub_cancel, Int.add_zero]

/-- In its own year it is the minute of the instant. -/
theorem timegm_alarm_self {t year : Int} (h : (gmtime t).year = year) :
    timegm ((gmtime t).alarm.tm year) = t - t % 60 := by
  have hself := timegm_gmtime t
  rw [timegm, number_firstOfMonth (gmtime_mon t)] at hself
  rw [timegm_alarm (gmtime_regular t), ← h]
  have hsec : (gmtime t).sec = t % 60 := rfl
  have hdate : (gmtime t).date = ⟨1900 + (gmtime t).year, (gmtime t).mon, (gmtime t).mday⟩ := rfl
  rw [hdate] at hself
  omega

/-- In another year it is about a year away. -/
theorem timegm_alarm_other {t year : Int} (h : (gmtime t).year ≠ year) :
    timegm ((gmtime t).alarm.tm year) ≤ t - 364 * 86400 ∨
      t + 363 * 86400 ≤ timegm ((gmtime t).alarm.tm year) := by
  have hself := timegm_alarm_self (t := t) rfl
  rw [timegm_alarm (gmtime_regular t)] at hself ⊢
  simp only [Date.number] at hself ⊢
  have hleap := leapDay_cases (1900 + (gmtime t).year)
  have hleap' := leapDay_cases (1900 + year)
  have hmonth : ∀ leap leap' m : Int, (leap = 0 ∨ leap = 1) → (leap' = 0 ∨ leap' = 1) →
      monthStart leap m ≤ monthStart leap' m + 1 := by
    intro leap leap' m _ _
    unfold monthStart
    split <;> omega
  have hlow := hmonth _ _ (gmtime t).mon hleap hleap'
  have hhigh := hmonth _ _ (gmtime t).mon hleap' hleap
  rcases Int.lt_or_gt_of_ne h with hlt | hgt
  · have := yearStart_mono (show 1900 + (gmtime t).year < 1900 + year by omega)
    omega
  · have := yearStart_mono (show 1900 + year < 1900 + (gmtime t).year by omega)
    omega

/-! ## The texts -/

/-- Texts that show the same time show the same minute. -/
theorem minute_of_strftime {t t' : Int} (h : strftime (gmtime t) = strftime (gmtime t')) :
    t - t % 60 = t' - t' % 60 := by
  obtain ⟨hdate, hhour, hmin⟩ := strftime_inj (gmtime_regular t) (gmtime_regular t') h
  have hself := timegm_gmtime t
  have hself' := timegm_gmtime t'
  rw [timegm, number_firstOfMonth (gmtime_mon _)] at hself hself'
  have hsec : (gmtime t).sec = t % 60 := rfl
  have hsec' : (gmtime t').sec = t' % 60 := rfl
  rw [hdate, hhour, hmin] at hself
  omega

/-- What ReadAlarm replies for an alarm at an instant. -/
def alarmText (now instant : Int) (tm : Tm) : Text :=
  (if now > instant then "Wakeup alarm (elapsed) set to: ".toList
    else "Wakeup alarm set to: ".toList) ++ strftime tm

/-- The text shows the time. -/
theorem strftime_of_alarmText {now instant instant' : Int} {tm tm' : Tm}
    (h : alarmText now instant tm = alarmText now instant' tm') : strftime tm = strftime tm' := by
  have hdiffer : ∀ t t' : Text,
      "Wakeup alarm (elapsed) set to: ".toList ++ t ≠ "Wakeup alarm set to: ".toList ++ t' := by
    intro t t' heq
    have hstart := congrArg (List.take 14) heq
    rw [List.take_append_of_le_length (by decide +kernel),
      List.take_append_of_le_length (by decide +kernel)] at hstart
    exact absurd hstart (by decide +kernel)
  unfold alarmText at h
  split at h
  · split at h
    · exact List.append_cancel_left h
    · exact absurd h (hdiffer _ _)
  · split at h
    · exact absurd h.symm (hdiffer _ _)
    · exact List.append_cancel_left h

theorem alarmText_head (now instant : Int) (tm : Tm) :
    (alarmText now instant tm).head? = some 'W' := by
  unfold alarmText
  split <;> rfl

theorem SameTime.strftime_eq {a b : Tm} (h : SameTime a b) : strftime a = strftime b := by
  have hdate := h.date
  simp only [Tm.date, Date.mk.injEq] at hdate
  rw [strftime, strftime, dayAndTime, dayAndTime, hdate.1, hdate.2.1, hdate.2.2, h.hour, h.min]

/-! ## Reading and writing -/

theorem landed_of_forall {reaches : Nat → Bool} (h : ∀ n, reaches n = true) (n k : Nat) :
    Device.landed reaches n k = k := by
  induction k generalizing n with
  | zero => rfl
  | succ k ih => rw [Device.landed, if_pos (h n), ih]

section Shown

variable {off : Int} {s : Device}

/-- What ReadAlarm shows of the fields of a time. -/
theorem readAlarmCmd_shown (hworks : s.Works) {tm : Tm} (htm : tm.Regular)
    (halarm : s.alarm = tm.code) {year : Int}
    (hyear : ((zoned off).localtime (s.clock s.readings)).year = year) :
    (readAlarmCmd (zoned off) s).2.1 = alarmText (s.clock s.readings)
      (timegm (tm.alarm.tm year)) (gmtime (timegm (tm.alarm.tm year) + off)) := by
  have hreply := (readAlarmCmd_eq (zoned off) s).2
  have hread : s.alarm.alarm = tm.alarm := by rw [halarm, code_alarm htm]
  have hmade : (zoned off).timegm (tm.alarm.tm year) ≠ -1 := by
    change timegm (tm.alarm.tm year) ≠ -1
    rw [timegm_alarm htm]
    omega
  rw [if_pos (landed_of_forall hworks.reaches s.exchanges 4), hread, htm.isOn] at hreply
  simp only [Bool.false_eq_true, if_false, hyear, hmade] at hreply
  exact hreply

/-- The arguments ask for a valid time of the local year, and the exchanges succeed before
the year is over. -/
structure Asked (off : Int) (args : Text) (a : Alarm) (s : Device) : Prop where
  numbers : strtol4 args = some a
  plus : args.head? ≠ some '+'
  valid : (a.tm ((zoned off).localtime (s.clock s.readings)).year).Regular
  works : s.Works
  year : ((zoned off).localtime (s.clock (s.readings + 1))).year =
    ((zoned off).localtime (s.clock s.readings)).year

/-- What WriteAlarm replies, and every ReadAlarm of the same year after it. -/
def AlarmShown (off : Int) (args : Text) (a : Alarm) (s : Device) : Prop :=
  let cal := zoned off
  let tm := a.tm (cal.localtime (s.clock s.readings)).year
  let res := writeAlarmCmd cal args s
  res.2.1 = alarmText (s.clock (s.readings + 1)) (cal.mktime tm) tm ∧
    ∀ s' : Device, s'.Works → s'.alarm = res.2.2.alarm →
      (cal.localtime (s'.clock s'.readings)).year = tm.year →
        (readAlarmCmd cal s').2.1 = alarmText (s'.clock s'.readings) (cal.mktime tm) tm

section Asked

variable {args : Text} {a : Alarm}

/-- What is written for it. -/
theorem Asked.written (h : Asked off args a s) :
    let instant := timegm (a.tm ((zoned off).localtime (s.clock s.readings)).year) - off
    if instant = -1 then (writeAlarmCmd (zoned off) args s).2.1 = writeAlarmUsage
    else
      ∃ s' : Device, s'.Works ∧ s'.alarm = (gmtime instant).code ∧
        s'.clock s'.readings = s.clock (s.readings + 1) ∧
        writeAlarmCmd (zoned off) args s = readAlarmCmd (zoned off) s' := by
  simp only
  have hvalid := h.valid
  generalize hyear : ((zoned off).localtime (s.clock s.readings)).year = year at hvalid ⊢
  have hrange : (1 ≤ a.month ∧ a.month ≤ 12) ∧ (1 ≤ a.day ∧ a.day ≤ 31) ∧
      (0 ≤ a.hour ∧ a.hour ≤ 23) ∧ (0 ≤ a.min ∧ a.min ≤ 59) := by
    have hmon : 0 ≤ a.month - 1 ∧ a.month - 1 < 12 := hvalid.date.month
    have hday : 1 ≤ a.day := hvalid.date.day.1
    have hday' := hvalid.date.day.2
    have hlength := monthLength_le (leapDay_cases (a.tm year).date.year) hvalid.date.month
    have hhour : 0 ≤ a.hour ∧ a.hour < 24 := hvalid.hour
    have hmin : 0 ≤ a.min ∧ a.min < 60 := hvalid.min
    have hsame : (a.tm year).date.day = a.day := rfl
    omega
  have hrequest := alarmRequest_numbers h.numbers h.plus hrange
    ((zoned off).localtime (s.clock s.readings)) { s with readings := s.readings + 1 }
  have hafter : afterRequest (zoned off) args s = { s with readings := s.readings + 1 } := by
    rw [afterRequest, hrequest]
  have hasked : askedTime (zoned off) args s = if timegm (a.tm year) - off = -1 then none
      else some (gmtime (timegm (a.tm year) - off)) := by
    simp only [askedTime, Device.time_eq, hrequest, Option.bind_some, alarmTime, hyear]
    rfl
  rw [writeAlarmCmd, setAlarm_eq, hasked, hafter]
  split
  · rfl
  · simp only [Device.writealarm_eq]
    have hland : Device.landed s.reaches s.exchanges 4 = 4 :=
      landed_of_forall h.works.reaches s.exchanges 4
    refine ⟨({ s with readings := s.readings + 1 } : Device).written
      (gmtime (timegm (a.tm year) - off)).code, ⟨h.works.reaches, h.works.settable⟩, ?_, rfl, ?_⟩
    · simp only [Device.written, hland]
      rfl
    · simp only [hland, decide_true]
      rfl

/-- **The alarm is shown as it was asked for** exactly if the zone is whole minutes from
UTC and the alarm is in the same year in UTC. -/
theorem alarmShown_iff (h : Asked off args a s) :
    AlarmShown off args a s ↔
      60 ∣ off ∧ (gmtime ((zoned off).mktime
        (a.tm ((zoned off).localtime (s.clock s.readings)).year))).year =
          ((zoned off).localtime (s.clock s.readings)).year := by
  have hwritten := h.written
  have hvalid := h.valid
  have hlater := h.year
  unfold AlarmShown
  simp only
  generalize hyear : ((zoned off).localtime (s.clock s.readings)).year = year at *
  have hmktime : (zoned off).mktime (a.tm year) = timegm (a.tm year) - off := rfl
  have hminute : timegm (a.tm year) % 60 = 0 := by
    simp only [timegm, Alarm.tm]
    omega
  have htext : strftime (a.tm year) = strftime (gmtime (timegm (a.tm year) - off + off)) := by
    rw [Int.sub_add_cancel]
    exact (gmtime_timegm hvalid).strftime_eq.symm
  have htmyear : (a.tm year).year = year := rfl
  simp only at hwritten
  rw [hmktime, htmyear]
  obtain ⟨instant, hinstant⟩ : ∃ t, timegm (a.tm year) - off = t := ⟨_, rfl⟩
  rw [hinstant] at hwritten htext ⊢
  by_cases hmade : instant = -1
  · rw [if_pos hmade] at hwritten
    refine iff_of_false (fun hshown => ?_) (fun hwhole => by omega)
    have hhead := congrArg List.head? (hwritten.symm.trans hshown.1)
    rw [alarmText_head] at hhead
    exact absurd hhead (by decide +kernel)
  · rw [if_neg hmade] at hwritten
    obtain ⟨s', hworks', halarm, hclock, hreply⟩ := hwritten
    have hthere : ((zoned off).localtime (s'.clock s'.readings)).year = year := hclock ▸ hlater
    have hshown := readAlarmCmd_shown hworks' (gmtime_regular instant) halarm hthere
    rw [hreply, hshown, hclock, (readAlarmCmd_device (zoned off) s').1, halarm]
    constructor
    · rintro ⟨hreplied, -⟩
      have hminutes := minute_of_strftime ((strftime_of_alarmText hreplied).trans htext)
      by_cases hsame : (gmtime instant).year = year
      · rw [timegm_alarm_self hsame] at hminutes
        exact ⟨by omega, hsame⟩
      · have haway := timegm_alarm_other hsame
        omega
    · rintro ⟨hwhole, hsame⟩
      have hself : timegm ((gmtime instant).alarm.tm year) = instant := by
        rw [timegm_alarm_self hsame]
        omega
      rw [hself]
      refine ⟨by rw [alarmText, alarmText, htext], fun s'' hworks'' hkept hin => ?_⟩
      rw [readAlarmCmd_shown hworks'' (gmtime_regular instant) hkept hin, hself, alarmText,
        alarmText, htext]

end Asked

end Shown

/-- The device in Athens, half an hour into the year 2023. -/
def newYear : Device := { inAthens with clock := fun _ => 1672525800 }

theorem asked_newYear : Asked 7200 "7 1 6 30".toList ⟨7, 1, 6, 30⟩ newYear where
  numbers := by decide +kernel
  plus := by decide +kernel
  valid := ⟨⟨by decide +kernel, by decide +kernel⟩, by decide +kernel, by decide +kernel,
    by decide +kernel⟩
  works := ⟨fun _ => rfl, rfl⟩
  year := rfl

theorem alarmShown_newYear :
    AlarmShown 7200 "7 1 6 30".toList ⟨7, 1, 6, 30⟩ newYear ↔
      60 ∣ (7200 : Int) ∧ (gmtime ((zoned 7200).mktime ((⟨7, 1, 6, 30⟩ : Alarm).tm
        ((zoned 7200).localtime (newYear.clock newYear.readings)).year))).year =
          ((zoned 7200).localtime (newYear.clock newYear.readings)).year :=
  alarmShown_iff asked_newYear

/-- An alarm in the first hours of the year is shown at its end. -/
theorem alarm_not_shown : ¬ AlarmShown 7200 "1 1 0 45".toList ⟨1, 1, 0, 45⟩ newYear := by
  intro hshown
  have hreply := hshown.1
  revert hreply
  decide +kernel

end AltF.Mcu.Handlers
