/-
  Mcu/Handlers.lean --- the user commands of dns320l-daemon: their table, their handlers,
  and what a handler replies and returns.

  The MCU, the clock and the C library's calendar are parameters.  What a handler writes
  to /tmp/sys after a successful exchange is `afterFan`, `afterLed` and `afterTemp`, for
  which Fan.lean and PowerLed.lean say what they are.
-/
import AltF.Mcu.Fan

set_option autoImplicit false

namespace AltF.Mcu.Handlers

open AltF.Foundation AltF.SysFiles

/-! ## The board -/

/-- `struct tm` -/
structure Tm where
  sec : Int
  min : Int
  hour : Int
  mday : Int
  mon : Int
  year : Int
  wday : Int
  deriving DecidableEq, Repr

/-- The calendar of the C library, in the zone of the device.  `mktime` and `timegm` return
-1 when they fail. -/
structure Calendar where
  localtime : Int → Tm
  gmtime : Int → Option Tm
  mktime : Tm → Int
  timegm : Tm → Int
  /-- `strftime(..., "%F %R", tm)` -/
  strftime : Tm → Text
  ctime : Int → Text
  /-- `"%.fs"` of `difftime` -/
  difftime : Int → Int → Text

/-- What handlers act on. -/
class Board (σ : Type) where
  /-- `SendCommand(fd, cmd, outArray)`: the answer, if it returns `SUCCESS`. -/
  sendCommand : Bytes → σ → Option Bytes × σ
  /-- `time(NULL)` -/
  time : σ → Int × σ
  /-- `settimeofday`, and whether it succeeds -/
  settimeofday : Int → σ → Bool × σ
  /-- the end of `setfan_cmd`, by `mcmd[3]` -/
  afterFan : UInt8 → σ → σ
  /-- the end of `setpowerled_cmd` -/
  afterLed : UInt8 → σ → σ
  /-- the file that `gettemperature_cmd` writes -/
  afterTemp : Text → σ → σ

/-! ## Frames -/

def rDateAndTimeCmd : Cmd := { body := [0xfa, 0x01, 0x08, 0x01, 0x01, 0x00] }
def wDateAndTimeCmd : Cmd :=
  { body := [0xfa, 0x01, 0x08, 0x02, 0x07, 0x17, 0x06, 0x21, 0x02, 0x10, 0x09, 0x13] }

def rAlarmMonthCmd : Cmd := { body := [0xfa, 0x01, 0x0a, 0x01, 0x01, 0x00] }
def wAlarmMonthCmd : Cmd := { body := [0xfa, 0x01, 0x0a, 0x02, 0x01, 0x00] }
def rAlarmDateCmd : Cmd := { body := [0xfa, 0x01, 0x0b, 0x01, 0x01, 0x00] }
def wAlarmDateCmd : Cmd := { body := [0xfa, 0x01, 0x0b, 0x02, 0x01, 0x00] }
def rAlarmHourCmd : Cmd := { body := [0xfa, 0x01, 0x0c, 0x01, 0x01, 0x00] }
def wAlarmHourCmd : Cmd := { body := [0xfa, 0x01, 0x0c, 0x02, 0x01, 0x00] }
def rAlarmMinuteCmd : Cmd := { body := [0xfa, 0x01, 0x0d, 0x01, 0x01, 0x00] }
def wAlarmMinuteCmd : Cmd := { body := [0xfa, 0x01, 0x0d, 0x02, 0x01, 0x00] }
def wAlarmDisableCmd : Cmd := { body := [0xfa, 0x01, 0x10, 0x02, 0x01, 0x00] }
def wAlarmEnableCmd : Cmd := { body := [0xfa, 0x01, 0x10, 0x02, 0x01, 0x01] }

def deviceReadyCmd : Cmd := { body := [0xfa, 0x03, 0x01, 0x00, 0x00, 0x00] }
def aprDisableCmd : Cmd := { body := [0xfa, 0x03, 0x02, 0x00, 0x00, 0x00] }
def aprEnableCmd : Cmd := { body := [0xfa, 0x03, 0x02, 0x01, 0x00, 0x00] }
def aprStatusCmd : Cmd := { body := [0xfa, 0x03, 0x02, 0x02, 0x00, 0x00] }
def deviceShutdownCmd : Cmd := { body := [0xfa, 0x03, 0x03, 0x01, 0x01, 0x05] }
def wolStatusDisableCmd : Cmd := { body := [0xfa, 0x03, 0x0a, 0x00, 0x00, 0x00] }
def wolStatusEnableCmd : Cmd := { body := [0xfa, 0x03, 0x0a, 0x01, 0x00, 0x00] }
def wolStatusGetCmd : Cmd := { body := [0xfa, 0x03, 0x0a, 0x02, 0x00, 0x00] }

/-- The low byte of an `int`. -/
def toByte (n : Int) : UInt8 := UInt8.ofNat (n % 256).toNat

def bcd2int (b : UInt8) : Nat := b.toNat % 16 + 10 * (b.toNat / 16)

/-- `int2bcd`, with C's division. -/
def int2bcd (n : Int) : Int := 16 * n.tdiv 10 + n.tmod 10

/-- `cmd[5] = int2bcd(n)`, in the array of a command. -/
def withParam (cmd : Cmd) (n : Int) : Bytes := cmd.frame.set 5 (toByte (int2bcd n))

/-! ## Handlers -/

/-- What a handler returns, its reply, and what it acted on. -/
abbrev Result (σ : Type) : Type := Int × Text × σ

def errText : Text := "ERR".toList

def okText : Text := "OK".toList

/-- The number in front of a text, as `strtol` reads it into 32 bits, and what follows. -/
def strtol (t : Text) : Option (Int × Text) :=
  let t := t.dropWhile isSpace
  let neg : Bool := t.head? = some '-'
  let u := if t.head? = some '-' ∨ t.head? = some '+' then t.tail else t
  let digits := u.takeWhile Char.isDigit
  if digits = [] then none
  else
    let n : Int := Nat.ofDigitChars 10 digits 0
    let n := if neg then -n else n
    some (max (-2147483648) (min n 2147483647), u.dropWhile Char.isDigit)

section Commands

variable {σ : Type} [Board σ]

open Board

def simpleCmd (mcmd : Bytes) (s : σ) : Result σ :=
  match Board.sendCommand mcmd s with
  | (none, s) => (1, errText, s)
  | (some _, s) => (0, okText, s)

def simpleCmd2 (mcmd : Cmd) (s : σ) : Result σ :=
  match Board.sendCommand mcmd.frame s with
  | (none, s) => (1, errText, s)
  | (some buf, s) => (0, printInt (byteAt buf 5).toNat, s)

def setfanCmd (mcmd : Cmd) (s : σ) : Result σ :=
  match simpleCmd mcmd.frame s with
  | (ret, _, s) => if ret ≠ 0 then (1, errText, s) else (0, okText, afterFan mcmd.selector s)

def setpowerledCmd (mcmd : Cmd) (s : σ) : Result σ :=
  match simpleCmd mcmd.frame s with
  | (ret, _, s) => if ret ≠ 0 then (1, errText, s) else (0, okText, afterLed mcmd.selector s)

/-- `gettemperature_cmd`; `beyond` stands past `ThermalTable`. -/
def gettemperatureCmd (beyond : UInt8) (s : σ) : Result σ :=
  match Board.sendCommand thermalStatusGetCmd.frame s with
  | (none, s) => (1, errText, s)
  | (some buf, s) =>
      let temp := thermalTable.getD (byteAt buf 5).toNat beyond
      let text := printInt (temp.toNat * 1000 : Nat)
      (0, text, afterTemp text s)

/-- The broken-down time that `readrtc_cmd` and `hctosys_cmd` take from an answer. -/
def rtcTime (buf : Bytes) : Tm where
  sec := bcd2int (byteAt buf 5)
  min := bcd2int (byteAt buf 6)
  hour := bcd2int (byteAt buf 7)
  mday := bcd2int (byteAt buf 9)
  mon := bcd2int (byteAt buf 10) - 1
  year := 100 + bcd2int (byteAt buf 11)
  wday := 0

def systohcCmd (cal : Calendar) (s : σ) : Result σ :=
  let (sysTime, s) := time s
  match cal.gmtime sysTime with
  -- the source does not test for NULL
  | none => (1, errText, s)
  | some tm =>
      let fields := [tm.sec, tm.min, tm.hour, tm.wday, tm.mday, tm.mon + 1, tm.year - 100]
      let params := fields.map fun v => toByte (int2bcd (toByte v).toNat)
      simpleCmd (wDateAndTimeCmd.frame.take 5 ++ params ++ wDateAndTimeCmd.frame.drop 12) s

def hctosysCmd (cal : Calendar) (s : σ) : Result σ :=
  match Board.sendCommand rDateAndTimeCmd.frame s with
  | (none, s) => (1, errText, s)
  | (some buf, s) =>
      let rtc := cal.timegm (rtcTime buf)
      let (sysTime, s) := time s
      match settimeofday rtc s with
      | (false, s) => (0, errText, s)
      | (true, s) =>
          (0, cal.ctime rtc ++ "Sys: ".toList ++ cal.ctime sysTime ++ "Diff: ".toList ++
            cal.difftime sysTime rtc, s)

def readrtcCmd (cal : Calendar) (s : σ) : Result σ :=
  match Board.sendCommand rDateAndTimeCmd.frame s with
  | (none, s) => (1, errText, s)
  | (some buf, s) => (0, (cal.ctime (cal.mktime (rtcTime buf))).dropLast, s)

/-- `deviceshutdown_cmd`: five seconds where no number is given. -/
def deviceshutdownCmd (args : Text) (s : σ) : Result σ :=
  let delay := ((strtol args).map Prod.fst).getD 5
  simpleCmd (withParam deviceShutdownCmd delay) s

/-! ## The alarm -/

structure Alarm where
  month : Int
  day : Int
  hour : Int
  min : Int
  deriving DecidableEq, Repr

/-- The variables before anything is read. -/
def Alarm.unread : Alarm := ⟨-1, -1, -1, -1⟩

def Alarm.isOff (a : Alarm) : Bool := a == ⟨0, 0, 0, 0⟩

/-- `readalarm`: whether all was read, and what the variables hold. -/
def readalarm (s : σ) : Bool × Alarm × σ :=
  let a := Alarm.unread
  match Board.sendCommand rAlarmMonthCmd.frame s with
  | (none, s) => (false, a, s)
  | (some buf, s) =>
      let a := { a with month := bcd2int (byteAt buf 5) }
      match Board.sendCommand rAlarmDateCmd.frame s with
      | (none, s) => (false, a, s)
      | (some buf, s) =>
          let a := { a with day := bcd2int (byteAt buf 5) }
          match Board.sendCommand rAlarmHourCmd.frame s with
          | (none, s) => (false, a, s)
          | (some buf, s) =>
              let a := { a with hour := bcd2int (byteAt buf 5) }
              match Board.sendCommand rAlarmMinuteCmd.frame s with
              | (none, s) => (false, a, s)
              | (some buf, s) => (true, { a with min := bcd2int (byteAt buf 5) }, s)

/-- `writealarm` -/
def writealarm (month day hour min : Int) (s : σ) : Bool × σ :=
  match Board.sendCommand (withParam wAlarmMonthCmd (month + 1)) s with
  | (none, s) => (false, s)
  | (some _, s) =>
      match Board.sendCommand (withParam wAlarmDateCmd day) s with
      | (none, s) => (false, s)
      | (some _, s) =>
          match Board.sendCommand (withParam wAlarmHourCmd hour) s with
          | (none, s) => (false, s)
          | (some _, s) =>
              match Board.sendCommand (withParam wAlarmMinuteCmd min) s with
              | (none, s) => (false, s)
              | (some _, s) => (true, s)

def alarmError (a : Alarm) : Text :=
  "ERR ".toList ++ printInt a.month ++ '/' :: printInt a.day ++ ' ' :: printInt a.hour ++
    ':' :: printInt a.min

theorem err_alarmError (a : Alarm) : errText <+: alarmError a := by
  have hword : errText <+: "ERR ".toList := ⟨[' '], rfl⟩
  delta alarmError
  simp only [List.append_assoc]
  exact hword.trans (List.prefix_append _ _)

/-- The time of an alarm in a year, for `timegm` and `mktime`. -/
def Alarm.tm (a : Alarm) (year : Int) : Tm := ⟨0, a.min, a.hour, a.day, a.month - 1, year, 0⟩

/-- `readAlarm_cmd` returns 2 for an alarm that is past, and 3 for none. -/
def readAlarmCmd (cal : Calendar) (s : σ) : Result σ :=
  match readalarm s with
  | (false, a, s) => (1, alarmError a, s)
  | (true, a, s) =>
      if a.isOff then
        let (_, _, s) := simpleCmd wAlarmDisableCmd.frame s
        (3, "Wakeup alarm disabled".toList, s)
      else
        let (_, _, s) := simpleCmd wAlarmEnableCmd.frame s
        let (ltime, s) := time s
        let utime := cal.timegm (a.tm (cal.localtime ltime).year)
        if utime = -1 then (1, alarmError a, s)
        else
          let shown := cal.strftime (cal.localtime utime)
          if ltime > utime then (2, "Wakeup alarm (elapsed) set to: ".toList ++ shown, s)
          else (0, "Wakeup alarm set to: ".toList ++ shown, s)

/-- `strncasecmp(ptr, word, strlen(word)) == 0` -/
def startsWith (word t : Text) : Bool :=
  (t.take word.length).map Char.toLower == word

/-- Four numbers in a row. -/
def strtol4 (t : Text) : Option Alarm := do
  let (month, t) ← strtol t
  let (day, t) ← strtol t
  let (hour, t) ← strtol t
  let (min, _) ← strtol t
  pure ⟨month, day, hour, min⟩

/-- Three minutes from now. -/
def soon (now : Tm) : Alarm := ⟨now.mon + 1, now.mday, now.hour, now.min + 3⟩

/-- The local time that is asked for: `some none` to disable the alarm, and nothing for
arguments that are refused. -/
def alarmRequest (now : Tm) (args : Text) (s : σ) : Option (Option Alarm) × σ :=
  if startsWith "now".toList args then (some (some (soon now)), s)
  else if startsWith "disable".toList args then (some none, s)
  else if args.head? = some '+' then
    match strtol args with
    | none => (none, s)
    | some (n, t) =>
        if t.head? = some 'm' ∨ t.head? = some 'd' then
          match readalarm s with
          | (false, _, s) => (none, s)
          | (true, a, s) =>
              let a := if a.isOff then soon now else a
              if t.head? = some 'm' then (some (some { a with month := a.month + n }), s)
              else (some (some { a with day := a.day + n }), s)
        else (none, s)
  else
    match strtol4 args with
    | none => (none, s)
    | some a =>
        if a.day < 1 ∨ a.day > 31 ∨ a.month < 1 ∨ a.month > 12 ∨ a.hour < 0 ∨ a.hour > 23 ∨
            a.min < 0 ∨ a.min > 59 then (none, s)
        else (some (some a), s)

/-- What is written to the MCU: the time in UTC, or zeroes. -/
def alarmTime (cal : Calendar) (year : Int) : Option Alarm → Option Tm
  | none => some ⟨0, 0, 0, 0, -1, 0, 0⟩
  | some a =>
      let utime := cal.mktime (a.tm year)
      if utime = -1 then none else cal.gmtime utime

/-- `writeAlarm_cmd` up to the end of `writealarm`: whether the alarm was written. -/
def setAlarm (cal : Calendar) (args : Text) (s : σ) : Bool × σ :=
  let (utime, s) := time s
  let now := cal.localtime utime
  match alarmRequest now args s with
  | (none, s) => (false, s)
  | (some request, s) =>
      match alarmTime cal now.year request with
      | none => (false, s)
      | some tm => writealarm tm.mon tm.mday tm.hour tm.min s

def writeAlarmUsage : Text :=
  "ERR WriteAlarm: month day hour min | +N\x7bd|m\x7d (days|month) | now | disable".toList

/-- `writeAlarm_cmd` -/
def writeAlarmCmd (cal : Calendar) (args : Text) (s : σ) : Result σ :=
  match setAlarm cal args s with
  | (false, s) => (1, writeAlarmUsage, s)
  | (true, s) => readAlarmCmd cal s

end Commands

/-! ## The table -/

/-- The handlers, with the arrays they are given. -/
inductive Handler where
  | simple (mcmd : Cmd)
  | simple2 (mcmd : Cmd)
  | setfan (mcmd : Cmd)
  | setpowerled (mcmd : Cmd)
  | deviceshutdown
  | shutdowndaemon
  | readrtc
  | readAlarm
  | writeAlarm
  | systohc
  | hctosys
  | gettemperature
  | help
  | quit
  deriving DecidableEq

/-- `cmds` -/
def cmds : List (Text × Handler) :=
  [("DeviceReady".toList, .simple deviceReadyCmd),
    ("DeviceShutdown".toList, .deviceshutdown),
    ("ShutdownDaemon".toList, .shutdowndaemon),
    ("EnablePowerRecovery".toList, .simple aprEnableCmd),
    ("DisablePowerRecovery".toList, .simple aprDisableCmd),
    ("GetPowerRecoveryState".toList, .simple2 aprStatusCmd),
    ("EnableWOL".toList, .simple wolStatusEnableCmd),
    ("DisableWOL".toList, .simple wolStatusDisableCmd),
    ("GetWOLState".toList, .simple2 wolStatusGetCmd),
    ("SetFanStop".toList, .setfan fanStopCmd),
    ("SetFanHalf".toList, .setfan fanHalfCmd),
    ("SetFanFull".toList, .setfan fanFullCmd),
    ("PowerLedOn".toList, .setpowerled pwrLedOnCmd),
    ("PowerLedOff".toList, .setpowerled pwrLedOffCmd),
    ("PowerLedBlink".toList, .setpowerled pwrLedBlinkCmd),
    ("ReadRtc".toList, .readrtc),
    ("ReadAlarm".toList, .readAlarm),
    ("WriteAlarm".toList, .writeAlarm),
    ("EnableAlarm".toList, .simple wAlarmEnableCmd),
    ("DisableAlarm".toList, .simple wAlarmDisableCmd),
    ("systohc".toList, .systohc),
    ("hctosys".toList, .hctosys),
    ("GetTemperature".toList, .gettemperature),
    ("help".toList, .help),
    ("quit".toList, .quit)]

def helpText : Text :=
  "Available Commands:\n\n".toList ++ ", ".toList.intercalate (cmds.map Prod.fst) ++ ['.']

/-- `strcasecmp(a, b) == 0` -/
def sameName (a b : Text) : Bool := a.map Char.toLower == b.map Char.toLower

/-- The handler of a command. -/
def handlerOf (cmd : Text) : Option Handler :=
  (cmds.find? fun x => sameName x.1 cmd).map Prod.snd

section Handle

variable {σ : Type} [Board σ] (cal : Calendar) (beyond : UInt8)

def Handler.run : Handler → Text → σ → Result σ
  | .simple mcmd, _, s => simpleCmd mcmd.frame s
  | .simple2 mcmd, _, s => simpleCmd2 mcmd s
  | .setfan mcmd, _, s => setfanCmd mcmd s
  | .setpowerled mcmd, _, s => setpowerledCmd mcmd s
  | .deviceshutdown, args, s => deviceshutdownCmd args s
  | .shutdowndaemon, _, s => (-2, okText, s)
  | .readrtc, _, s => readrtcCmd cal s
  | .readAlarm, _, s => readAlarmCmd cal s
  | .writeAlarm, args, s => writeAlarmCmd cal args s
  | .systohc, _, s => systohcCmd cal s
  | .hctosys, _, s => hctosysCmd cal s
  | .gettemperature, _, s => gettemperatureCmd beyond s
  | .help, _, s => (1, helpText, s)
  | .quit, _, s => (-1, "Bye".toList, s)

/-- `HandleCommand`: what stands behind the first blank of the command replaces the text in
the reply's buffer, in which the handlers look for their arguments. -/
def handleCommand (cmd retMessage : Text) (s : σ) : Result σ :=
  let name := cmd.takeWhile (· ≠ ' ')
  let args := if ' ' ∈ cmd then (cmd.dropWhile (· ≠ ' ')).tail else retMessage
  match handlerOf name with
  | some h => h.run cal beyond args s
  | none => (1, "ERR Unknown command \"".toList ++ name ++ ['"'], s)

end Handle

end AltF.Mcu.Handlers
