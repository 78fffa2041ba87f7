/-
  Mcu/AlarmKept.lean --- what a failed WriteAlarm leaves of the alarm.

  The alarm goes to the MCU in four commands and is read back in four more.  The first
  that fails ends the handler, and what was written before stays.
-/
import AltF.Mcu.Device
import AltF.Mcu.Zone

set_option autoImplicit false

namespace AltF.Mcu.Handlers

open AltF.Foundation AltF.SysFiles

section Kept

variable (cal : Calendar)

/-! ## Reading the alarm back -/

/-- The alarm of the MCU can be read, and is off or a time that `timegm` takes. -/
def ReadsBack (s : Device) : Prop :=
  Device.landed s.reaches s.exchanges 4 = 4 ∧
    (s.alarm.alarm.isOff = true ∨
      cal.timegm (s.alarm.alarm.tm (cal.localtime (s.clock s.readings)).year) ≠ -1)

theorem simpleCmd_device {frame : Bytes} {s : Device} (hstore : s.store frame = s) :
    ∃ ret text, simpleCmd frame s = (ret, text, s.next) := by
  rw [simpleCmd, Device.ask s hstore]
  by_cases hreach : s.reaches s.exchanges = true
  · exact ⟨_, _, by rw [if_pos hreach]⟩
  · exact ⟨_, _, by rw [if_neg hreach]⟩

/-- The replies of ReadAlarm that report an alarm. -/
theorem not_err_wakeup {t : Text} (hhead : t.head? = some 'W') (u : Text) :
    ¬ errText <+: t ++ u := by
  cases t with
  | nil => cases hhead
  | cons c t =>
      obtain rfl : c = 'W' := by simpa using hhead
      rintro ⟨v, hv⟩
      exact absurd (List.cons.inj hv).1 (by decide)

/-- ReadAlarm replies with an error if the alarm cannot be read, and else with what it is. -/
theorem readAlarmCmd_eq (s : Device) :
    (readAlarmCmd cal s).2.2.alarm = s.alarm ∧
      if Device.landed s.reaches s.exchanges 4 = 4 then
        (readAlarmCmd cal s).2.1 =
          if s.alarm.alarm.isOff then "Wakeup alarm disabled".toList
          else
            let now := s.clock s.readings
            let utime := cal.timegm (s.alarm.alarm.tm (cal.localtime now).year)
            if utime = -1 then alarmError s.alarm.alarm
            else (if now > utime then "Wakeup alarm (elapsed) set to: ".toList
              else "Wakeup alarm set to: ".toList) ++ cal.strftime (cal.localtime utime)
      else errText <+: (readAlarmCmd cal s).2.1 := by
  obtain ⟨hstate, hok, halarm⟩ := s.readalarm_eq
  unfold readAlarmCmd
  generalize readalarm s = readback at hstate hok halarm ⊢
  obtain ⟨ok, a, s'⟩ := readback
  simp only at hstate hok halarm
  have hkept : s'.alarm = s.alarm ∧ s'.clock = s.clock ∧ s'.readings = s.readings := by
    rw [hstate]
    exact ⟨rfl, rfl, rfl⟩
  cases ok with
  | false =>
      rw [if_neg fun h => Bool.noConfusion (hok.mpr h)]
      exact ⟨hkept.1, err_alarmError a⟩
  | true =>
      obtain rfl := halarm rfl
      rw [if_pos (hok.mp rfl)]
      cases hoff : s.alarm.alarm.isOff with
      | true =>
          obtain ⟨ret, text, hdisable⟩ :=
            simpleCmd_device (show s'.store wAlarmDisableCmd.frame = s' from rfl)
          simp only [hoff, if_true, hdisable, and_true]
          exact hkept.1
      | false =>
          obtain ⟨ret, text, henable⟩ :=
            simpleCmd_device (show s'.store wAlarmEnableCmd.frame = s' from rfl)
          have hclock : s'.next.clock s'.next.readings = s.clock s.readings := by
            rw [Device.next, hkept.2.1, hkept.2.2]
          simp only [hoff, henable, Bool.false_eq_true, if_false, Device.time_eq, hclock]
          split
          · exact ⟨hkept.1, rfl⟩
          · split
            · exact ⟨hkept.1, rfl⟩
            · exact ⟨hkept.1, rfl⟩

/-- ReadAlarm leaves the alarm alone, and reports an error exactly if it cannot be read. -/
theorem readAlarmCmd_device (s : Device) :
    (readAlarmCmd cal s).2.2.alarm = s.alarm ∧
      (errText <+: (readAlarmCmd cal s).2.1 ↔ ¬ ReadsBack cal s) := by
  obtain ⟨halarm, hreply⟩ := readAlarmCmd_eq cal s
  refine ⟨halarm, ?_⟩
  unfold ReadsBack
  split at hreply
  · next hland =>
    rw [hreply]
    cases hoff : s.alarm.alarm.isOff with
    | true =>
        refine iff_of_false ?_ fun h => h ⟨hland, .inl rfl⟩
        have hdisabled := not_err_wakeup (t := "Wakeup alarm disabled".toList) rfl []
        rwa [List.append_nil] at hdisabled
    | false =>
        simp only [Bool.false_eq_true, if_false, hland, true_and, false_or, ne_eq, not_not]
        split
        · next hmade => exact iff_of_true (err_alarmError _) hmade
        · next hmade =>
            refine iff_of_false (not_err_wakeup ?_ _) hmade
            split <;> rfl
  · next hland => exact iff_of_true hreply fun h => hland h.1

/-! ## Writing the alarm -/

/-- The device when WriteAlarm has made out which time is asked for. -/
def afterRequest (args : Text) (s : Device) : Device :=
  (alarmRequest (cal.localtime (s.clock s.readings)) args
    { s with readings := s.readings + 1 }).2

theorem setAlarm_eq (args : Text) (s : Device) :
    setAlarm cal args s =
      match askedTime cal args s with
      | none => (false, afterRequest cal args s)
      | some tm => writealarm tm.mon tm.mday tm.hour tm.min (afterRequest cal args s) := by
  unfold setAlarm askedTime afterRequest
  simp only [Device.time_eq]
  generalize alarmRequest (cal.localtime (s.clock s.readings)) args
    { s with readings := s.readings + 1 } = asked
  obtain ⟨request, s'⟩ := asked
  cases request with
  | none => rfl
  | some request =>
      cases htime : alarmTime cal (cal.localtime (s.clock s.readings)).year request with
      | none => simp only [Option.bind_some, htime]
      | some tm => simp only [Option.bind_some, htime]

/-- Up to there the alarm has at most been read. -/
theorem afterRequest_eq (args : Text) (s : Device) :
    ∃ k, afterRequest cal args s =
      { s with readings := s.readings + 1, exchanges := s.exchanges + k } := by
  let s' : Device := { s with readings := s.readings + 1 }
  have hself : ∃ k, s' = { s' with exchanges := s.exchanges + k } := ⟨0, rfl⟩
  have hread : ∃ k, (readalarm s').2.2 = { s' with exchanges := s.exchanges + k } :=
    ⟨_, s'.readalarm_eq.1⟩
  change ∃ k, (alarmRequest (cal.localtime (s.clock s.readings)) args s').2 =
    { s' with exchanges := s.exchanges + k }
  generalize cal.localtime (s.clock s.readings) = now
  unfold alarmRequest
  generalize readalarm s' = readback at hread
  obtain ⟨ok, a, s''⟩ := readback
  split
  · exact hself
  · split
    · exact hself
    · split
      · split
        · exact hself
        · split
          · cases ok with
            | false => exact hread
            | true =>
                simp only
                split
                · exact hread
                · exact hread
          · exact hself
      · split
        · exact hself
        · split
          · exact hself
          · exact hself

/-- WriteAlarm has left the alarm alone, if it replies with an error. -/
def KeepsAlarm (args : Text) (s : Device) : Prop :=
  errText <+: (writeAlarmCmd cal args s).2.1 → (writeAlarmCmd cal args s).2.2.alarm = s.alarm

/-- If a time is asked for: the bytes of it that are written before an exchange fails are
those the alarm has, or no exchange fails and what is written reads back. -/
def Harmless (args : Text) (s : Device) : Prop :=
  ∀ tm, askedTime cal args s = some tm →
    let s' := afterRequest cal args s
    let new := Device.code tm.mon tm.mday tm.hour tm.min
    let k := Device.landed s.reaches s'.exchanges 4
    s.alarm.put new k = s.alarm ∨ k = 4 ∧ ReadsBack cal (s'.written new)

/-- **A failed WriteAlarm** leaves the alarm alone exactly if it is harmless. -/
theorem writeAlarm_keeps_iff (args : Text) (s : Device) :
    KeepsAlarm cal args s ↔ Harmless cal args s := by
  obtain ⟨k, hrequest⟩ := afterRequest_eq cal args s
  have hsame : (afterRequest cal args s).alarm = s.alarm ∧
      (afterRequest cal args s).reaches = s.reaches := by
    rw [hrequest]
    exact ⟨rfl, rfl⟩
  have husage : errText <+: writeAlarmUsage := by decide +kernel
  unfold KeepsAlarm Harmless writeAlarmCmd
  rw [setAlarm_eq]
  cases htm : askedTime cal args s with
  | none =>
      simp only [reduceCtorEq, false_imp_iff, implies_true, iff_true]
      exact fun _ => hsame.1
  | some tm =>
      simp only [Option.some.injEq, forall_eq', Device.writealarm_eq]
      have hwritten : ((afterRequest cal args s).written
          (Device.code tm.mon tm.mday tm.hour tm.min)).alarm =
          s.alarm.put (Device.code tm.mon tm.mday tm.hour tm.min)
            (Device.landed s.reaches (afterRequest cal args s).exchanges 4) := by
        rw [Device.written, hsame.1, hsame.2]
      rw [hsame.2]
      by_cases hland : Device.landed s.reaches (afterRequest cal args s).exchanges 4 = 4
      · obtain ⟨halarm, herr⟩ := readAlarmCmd_device cal
          ((afterRequest cal args s).written (Device.code tm.mon tm.mday tm.hour tm.min))
        simp only [hland, decide_true, true_and, herr, halarm, hwritten]
        exact imp_iff_not_or.trans (or_comm.trans (or_congr_right not_not))
      · simp only [hland, decide_false, false_and, or_false, husage, true_imp_iff, hwritten]

end Kept

/-- An MCU with an alarm on Christmas Eve, that the first command reaches and no other. -/
def halfReached : Device where
  alarm := ⟨0x12, 0x24, 0x18, 0x30⟩
  rtc := []
  reaches := fun n => n = 0
  exchanges := 0
  clock := fun _ => 1700000000
  readings := 0
  settable := true
  sysTime := none
  behind := []

theorem writeAlarm_not_kept : ¬ KeepsAlarm (zoned 0) "6 1 7 0".toList halfReached := by
  unfold KeepsAlarm
  decide +kernel

end AltF.Mcu.Handlers
