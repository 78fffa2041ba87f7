/-
  Mcu/Relayed.lean --- `dns320l-daemon -x`: a command handled by the program itself, and
  the same command relayed to a daemon that is running.

  The reply is the same on both ways.  The exit status is what the handler returns on the
  one, and what the reply begins with on the other.
-/
import AltF.Mcu.Handlers

set_option autoImplicit false

namespace AltF.Mcu.Handlers

open AltF.Foundation AltF.SysFiles

/-! ## The two ways -/

/-- What the user sees of a command. -/
structure Outcome where
  printed : Text
  status : Int
  deriving DecidableEq, Repr

/-- `strncmp("ERR", msg, 3) == 0` -/
def isError (msg : Text) : Bool := msg.take 3 == errText

/-- `strncmp("OK", msg, 2) == 0` -/
def isOk (msg : Text) : Bool := msg.take 2 == okText

/-- What `exit` makes of a status. -/
def exitStatus (st : Int) : Int := st % 256

section Ways

variable {σ : Type} [Board σ] (cal : Calendar) (beyond : UInt8)

/-- `client_cmd` without a daemon. -/
def direct (xcmd : Text) (opt : Option Text) (s : σ) : Outcome × σ :=
  let (st, msg, s) := handleCommand cal beyond xcmd (opt.getD []) s
  let st := if isError msg then 1 else st
  (⟨msg ++ ['\n'], exitStatus st⟩, s)

/-- `poll_wait`: what the daemon sends back for a message. -/
def serve (message : Text) (s : σ) : Text × σ :=
  let (_, response, s) := handleCommand cal beyond message.dropLast [] s
  (response, s)

/-- `client_cmd` with a daemon that is in the state. -/
def relayed (xcmd : Text) (opt : Option Text) (s : σ) : Outcome × σ :=
  let message :=
    match opt with
    | none => xcmd ++ ['\n']
    | some opt => xcmd ++ ' ' :: opt ++ ['\n']
  let (msg, s) := serve cal beyond message s
  let st := if isOk msg then 0 else if isError msg then 1 else 0
  (⟨msg ++ ['\n'], exitStatus st⟩, s)

end Ways

/-- Arguments that fit the option buffer. -/
structure Args where
  words : List Text
  fits : (words.flatMap (· ++ [' '])).length < 64

/-- `xopt` -/
def Args.opt (args : Args) : Option Text :=
  if args.words = [] then none else some (args.words.flatMap (· ++ [' ']))

/-! ## Alarms that are over -/

section Alarms

variable {σ : Type} [Board σ] (cal : Calendar)

open Board

/-- The alarm's time in this year is before now. -/
def AlarmPast (a : Alarm) (s : σ) : Prop :=
  let ltime := (time s).1
  let utime := cal.timegm (a.tm (cal.localtime ltime).year)
  utime ≠ -1 ∧ utime < ltime

/-- The MCU has no alarm, or one that is past. -/
def AlarmOver (s : σ) : Prop :=
  match readalarm s with
  | (false, _, _) => False
  | (true, a, s) => a.isOff = true ∨ AlarmPast cal a (simpleCmd wAlarmEnableCmd.frame s).2.2

/-- The handler returns something that its reply does not tell. -/
def Untold : Handler → Text → σ → Prop
  | .help, _, _ => True
  | .readAlarm, _, s => AlarmOver cal s
  | .writeAlarm, args, s => (setAlarm cal args s).1 = true ∧ AlarmOver cal (setAlarm cal args s).2
  | _, _, _ => False

theorem isError_append (t : Text) : isError (errText ++ t) = true := by
  rw [isError, List.take_append_of_le_length (by decide)]
  rfl

theorem isError_alarmError (a : Alarm) : isError (alarmError a) = true := by
  obtain ⟨t, ht⟩ := err_alarmError a
  rw [← ht]
  exact isError_append t

/-- What a handler returns is told by its reply, where that is an error or nothing is returned. -/
def Told (r : Result σ) : Prop := isError r.2.1 = true ∨ exitStatus r.1 = 0

/-- The end of `readAlarm_cmd`, where there is an alarm. -/
theorem alarm_told (a : Alarm) (s : σ) :
    Told (let (ltime, s) := time s
      let utime := cal.timegm (a.tm (cal.localtime ltime).year)
      if utime = -1 then ((1, alarmError a, s) : Result σ)
      else
        let shown := cal.strftime (cal.localtime utime)
        if ltime > utime then (2, "Wakeup alarm (elapsed) set to: ".toList ++ shown, s)
        else (0, "Wakeup alarm set to: ".toList ++ shown, s)) ↔ ¬ AlarmPast cal a s := by
  simp only [AlarmPast]
  split
  · rename_i hfailed
    exact ⟨fun _ h => h.1 hfailed, fun _ => Or.inl (isError_alarmError a)⟩
  · rename_i hmade
    split
    · rename_i hpast
      refine ⟨fun htold => ?_, fun hnot => absurd ⟨hmade, hpast⟩ hnot⟩
      rcases htold with herror | hzero
      · exact absurd herror (by simp [isError, errText])
      · exact absurd hzero (by simp [exitStatus])
    · rename_i hpast
      exact ⟨fun _ h => hpast h.2, fun _ => Or.inr rfl⟩

theorem readAlarmCmd_told (s : σ) : Told (readAlarmCmd cal s) ↔ ¬ AlarmOver cal s := by
  rcases hread : readalarm s with ⟨ok, a, s'⟩
  cases ok with
  | false =>
      simp only [readAlarmCmd, AlarmOver, hread, not_false_eq_true, iff_true]
      exact Or.inl (isError_alarmError a)
  | true =>
      simp only [readAlarmCmd, AlarmOver, hread]
      by_cases hoff : a.isOff = true
      · rw [if_pos hoff]
        refine ⟨fun htold => ?_, fun hnot => absurd (Or.inl hoff) hnot⟩
        rcases htold with herror | hzero
        · exact absurd herror (by simp [isError, errText])
        · exact absurd hzero (by simp [exitStatus])
      · rw [if_neg hoff, or_iff_right hoff]
        exact alarm_told cal a _

theorem simpleCmd_told (mcmd : Bytes) (s : σ) : Told (simpleCmd mcmd s) := by
  unfold simpleCmd
  split
  · exact Or.inl rfl
  · exact Or.inr rfl

/-- **Replies that tell.**  A handler's reply tells what it returns, but for help, and for
alarms that are over. -/
theorem Handler.run_told (beyond : UInt8) {h : Handler} (hquit : h ≠ .quit)
    (hshut : h ≠ .shutdowndaemon) (args : Text) (s : σ) :
    Told (h.run cal beyond args s) ↔ ¬ Untold cal h args s := by
  have hplain : ∀ {r : Result σ}, Told r → (Told r ↔ ¬ False) :=
    fun h => ⟨fun _ => not_false, fun _ => h⟩
  cases h with
  | simple mcmd => exact hplain (simpleCmd_told _ s)
  | simple2 mcmd =>
      refine hplain ?_
      change Told (simpleCmd2 mcmd s)
      unfold simpleCmd2
      split
      · exact Or.inl rfl
      · exact Or.inr rfl
  | setfan mcmd =>
      refine hplain ?_
      change Told (setfanCmd mcmd s)
      unfold setfanCmd
      split
      split
      · exact Or.inl rfl
      · exact Or.inr rfl
  | setpowerled mcmd =>
      refine hplain ?_
      change Told (setpowerledCmd mcmd s)
      unfold setpowerledCmd
      split
      split
      · exact Or.inl rfl
      · exact Or.inr rfl
  | deviceshutdown => exact hplain (simpleCmd_told _ s)
  | shutdowndaemon => exact absurd rfl hshut
  | readrtc =>
      refine hplain ?_
      change Told (readrtcCmd cal s)
      unfold readrtcCmd
      split
      · exact Or.inl rfl
      · exact Or.inr rfl
  | readAlarm => exact readAlarmCmd_told cal s
  | writeAlarm =>
      change Told (writeAlarmCmd cal args s) ↔
        ¬ ((setAlarm cal args s).1 = true ∧ AlarmOver cal (setAlarm cal args s).2)
      rcases hset : setAlarm cal args s with ⟨ok, s'⟩
      cases ok with
      | false =>
          simp only [writeAlarmCmd, hset, Bool.false_eq_true, false_and, not_false_eq_true,
            iff_true]
          exact Or.inl rfl
      | true =>
          simp only [writeAlarmCmd, hset, true_and]
          exact readAlarmCmd_told cal s'
  | systohc =>
      refine hplain ?_
      change Told (systohcCmd cal s)
      unfold systohcCmd
      simp only
      split
      · exact Or.inl rfl
      · exact simpleCmd_told _ _
  | hctosys =>
      refine hplain ?_
      change Told (hctosysCmd cal s)
      unfold hctosysCmd
      split
      · exact Or.inl rfl
      · simp only
        split
        · exact Or.inl rfl
        · exact Or.inr rfl
  | gettemperature =>
      refine hplain ?_
      change Told (gettemperatureCmd beyond s)
      unfold gettemperatureCmd
      split
      · exact Or.inl rfl
      · exact Or.inr rfl
  | help =>
      refine ⟨fun htold => ?_, fun hnot => absurd trivial hnot⟩
      rcases htold with herror | hone
      · change isError helpText = true at herror
        exact absurd herror (by decide)
      · change exitStatus 1 = 0 at hone
        exact absurd hone (by decide)
  | quit => exact absurd rfl hquit

end Alarms

/-! ## Both ways -/

theorem toLower_space_notin {t u : Text} (h : sameName t u = true)
    (ht : (' ' : Char) ∉ t.map Char.toLower) : (' ' : Char) ∉ u := by
  have heq : t.map Char.toLower = u.map Char.toLower := eq_of_beq h
  intro hu
  rw [heq] at ht
  exact ht (List.mem_map.mpr ⟨' ', hu, by decide⟩)

/-- No name of the table has a blank. -/
theorem space_notin_of_handlerOf {xcmd : Text} {h : Handler} (hcmd : handlerOf xcmd = some h) :
    (' ' : Char) ∉ xcmd := by
  obtain ⟨⟨name, h'⟩, hfound, -⟩ := Option.map_eq_some_iff.mp hcmd
  have hname : (' ' : Char) ∉ name.map Char.toLower := by
    have hall : (cmds.all fun x => !(x.1.map Char.toLower).contains ' ') = true := by
      decide +kernel
    have := List.all_eq_true.mp hall _ (List.mem_of_find?_eq_some hfound)
    simpa using this
  have hsame := List.find?_some hfound
  exact toLower_space_notin hsame hname

section Both

variable {σ : Type} [Board σ] (cal : Calendar) (beyond : UInt8)

theorem handleCommand_bare {xcmd : Text} {h : Handler} (hcmd : handlerOf xcmd = some h)
    (retMessage : Text) (s : σ) :
    handleCommand cal beyond xcmd retMessage s = h.run cal beyond retMessage s := by
  have hblank := space_notin_of_handlerOf hcmd
  have hname : xcmd.takeWhile (· ≠ ' ') = xcmd :=
    List.takeWhile_eq_self_iff.mpr fun c hc => decide_eq_true (ne_of_mem_of_not_mem hc hblank)
  simp only [handleCommand, hname, hcmd, if_neg hblank]

theorem handleCommand_split {xcmd : Text} {h : Handler} (hcmd : handlerOf xcmd = some h)
    (opt retMessage : Text) (s : σ) :
    handleCommand cal beyond (xcmd ++ ' ' :: opt) retMessage s = h.run cal beyond opt s := by
  have hblank := space_notin_of_handlerOf hcmd
  have hall : ∀ c ∈ xcmd, decide (c ≠ ' ') = true := fun c hc =>
    decide_eq_true (ne_of_mem_of_not_mem hc hblank)
  have hname : (xcmd ++ ' ' :: opt).takeWhile (· ≠ ' ') = xcmd := by
    rw [List.takeWhile_append_of_pos hall]
    simp
  have hargs : (xcmd ++ ' ' :: opt).dropWhile (· ≠ ' ') = ' ' :: opt := by
    rw [List.dropWhile_append_of_pos hall]
    simp
  have hspace : (' ' : Char) ∈ xcmd ++ ' ' :: opt := by simp
  simp only [handleCommand, hname, hargs, hcmd, if_pos hspace, List.tail_cons]

/-- The daemon runs the handler that the program would. -/
theorem serve_eq {xcmd : Text} {h : Handler} (hcmd : handlerOf xcmd = some h)
    (opt : Option Text) (s : σ) :
    (relayed cal beyond xcmd opt s) =
      let r := h.run cal beyond (opt.getD []) s
      (⟨r.2.1 ++ ['\n'], exitStatus (if isOk r.2.1 then 0 else if isError r.2.1 then 1 else 0)⟩,
        r.2.2) := by
  cases opt with
  | none =>
      simp only [relayed, serve, List.dropLast_concat, handleCommand_bare cal beyond hcmd,
        Option.getD_none]
  | some opt =>
      simp only [relayed, serve, List.dropLast_concat, handleCommand_split cal beyond hcmd,
        Option.getD_some]

theorem direct_eq {xcmd : Text} {h : Handler} (hcmd : handlerOf xcmd = some h)
    (opt : Option Text) (s : σ) :
    (direct cal beyond xcmd opt s) =
      let r := h.run cal beyond (opt.getD []) s
      (⟨r.2.1 ++ ['\n'], exitStatus (if isError r.2.1 then 1 else r.1)⟩, r.2.2) := by
  simp only [direct, handleCommand_bare cal beyond hcmd]

theorem isOk_of_isError {msg : Text} (h : isError msg = true) : isOk msg = false := by
  have htake : msg.take 3 = errText := eq_of_beq h
  refine Bool.eq_false_iff.mpr fun hok => ?_
  have htwo : msg.take 2 = okText := eq_of_beq hok
  have hpref : (msg.take 3).take 2 = msg.take 2 := by rw [List.take_take]; rfl
  rw [htake, htwo] at hpref
  exact absurd hpref (by decide)

omit [Board σ] in
/-- The two statuses are the same where the reply tells what the handler returns. -/
theorem status_eq_iff (r : Result σ) :
    (exitStatus (if isError r.2.1 then 1 else r.1) =
      exitStatus (if isOk r.2.1 then 0 else if isError r.2.1 then 1 else 0)) ↔ Told r := by
  unfold Told
  cases herror : isError r.2.1 with
  | true =>
      rw [isOk_of_isError herror]
      simp
  | false =>
      simp only [Bool.false_eq_true, if_false, ite_self, false_or]
      rfl

/-- **The same outcome.**  With a daemon and without one a command prints the same, and exits
alike but for help, and for alarms that are disabled or past. -/
theorem direct_eq_relayed_iff {xcmd : Text} {h : Handler} (hcmd : handlerOf xcmd = some h)
    (hquit : h ≠ .quit) (hshut : h ≠ .shutdowndaemon) (args : Args) (s : σ) :
    (direct cal beyond xcmd args.opt s).1 = (relayed cal beyond xcmd args.opt s).1 ↔
      ¬ Untold cal h (args.opt.getD []) s := by
  rw [direct_eq cal beyond hcmd, serve_eq cal beyond hcmd,
    ← Handler.run_told cal beyond hquit hshut, ← status_eq_iff]
  simp

/-- Both ways leave the board in the same state. -/
theorem direct_state {xcmd : Text} {h : Handler} (hcmd : handlerOf xcmd = some h)
    (opt : Option Text) (s : σ) :
    (direct cal beyond xcmd opt s).2 = (relayed cal beyond xcmd opt s).2 := by
  rw [direct_eq cal beyond hcmd, serve_eq cal beyond hcmd]

end Both

/-! ## An MCU without an alarm -/

/-- A board whose MCU has zeroes in all registers. -/
structure Blank where
  deriving DecidableEq

instance : Board Blank where
  sendCommand cmd s := (some cmd, s)
  time s := (1672531200, s)
  settimeofday _ s := (true, s)
  afterFan _ s := s
  afterLed _ s := s
  afterTemp _ s := s

/-- The calendar on the first day of 2023. -/
def flatCalendar : Calendar where
  localtime _ := ⟨0, 0, 0, 1, 0, 123, 0⟩
  gmtime _ := some ⟨0, 0, 0, 1, 0, 123, 0⟩
  mktime _ := 1672531200
  timegm _ := 1672531200
  strftime _ := "2023-01-01 00:00".toList
  ctime _ := "Sun Jan  1 00:00:00 2023\n".toList
  difftime _ _ := "0s".toList

theorem outcome_GetWOLState :
    (direct flatCalendar 0 "GetWOLState".toList none Blank.mk).1 =
        (relayed flatCalendar 0 "GetWOLState".toList none Blank.mk).1 ↔
      ¬ Untold flatCalendar (.simple2 wolStatusGetCmd) [] Blank.mk := by
  have hcmd : handlerOf "GetWOLState".toList = some (.simple2 wolStatusGetCmd) := by
    decide +kernel
  exact direct_eq_relayed_iff flatCalendar 0 hcmd (by decide) (by decide) ⟨[], by decide⟩ Blank.mk

/-- No alarm is set: the program says so in its status, the daemon's client does not. -/
theorem outcome_ReadAlarm :
    (direct flatCalendar 0 "ReadAlarm".toList none Blank.mk).1 =
        ⟨"Wakeup alarm disabled\n".toList, 3⟩ ∧
      (relayed flatCalendar 0 "ReadAlarm".toList none Blank.mk).1 =
        ⟨"Wakeup alarm disabled\n".toList, 0⟩ := by
  decide +kernel

end AltF.Mcu.Handlers
