/-
  Mcu/Device.lean --- an MCU that keeps the alarm and the clock it is given, on a line on
  which any exchange may fail.

  A failed exchange is one whose command did not reach the MCU in any of its attempts.
-/
import AltF.Mcu.Frames

set_option autoImplicit false

namespace AltF.Mcu.Handlers

open AltF.Foundation AltF.SysFiles

/-! ## The MCU -/

/-- The four bytes of the alarm. -/
structure AlarmBytes where
  month : UInt8
  date : UInt8
  hour : UInt8
  minute : UInt8
  deriving DecidableEq, Repr

/-- The first `k` bytes of another alarm in the place of its own. -/
def AlarmBytes.put (a b : AlarmBytes) (k : Nat) : AlarmBytes :=
  ⟨if 0 < k then b.month else a.month, if 1 < k then b.date else a.date,
    if 2 < k then b.hour else a.hour, if 3 < k then b.minute else a.minute⟩

/-- What `readalarm` makes of them. -/
def AlarmBytes.alarm (a : AlarmBytes) : Alarm :=
  ⟨bcd2int a.month, bcd2int a.date, bcd2int a.hour, bcd2int a.minute⟩

/-- The MCU, the line to it, and the clock of the system. -/
structure Device where
  alarm : AlarmBytes
  /-- the seven bytes of the clock -/
  rtc : Bytes
  /-- the command of an exchange reaches the MCU, by the exchange's number -/
  reaches : Nat → Bool
  exchanges : Nat
  /-- what `time(NULL)` returns, by the call's number -/
  clock : Nat → Int
  readings : Nat
  /-- `settimeofday` succeeds -/
  settable : Bool
  /-- what the clock of the system was set to last -/
  sysTime : Option Int
  /-- what stands in the buffer behind the payload of an answer -/
  behind : Bytes

namespace Device

/-- An exchange more. -/
def next (s : Device) : Device := { s with exchanges := s.exchanges + 1 }

/-- What a command stores. -/
def store (s : Device) (frame : Bytes) : Device :=
  if byteAt frame 1 = 0x01 ∧ byteAt frame 3 = 0x02 then
    if byteAt frame 2 = 0x08 then { s with rtc := slice frame 5 7 }
    else if byteAt frame 2 = 0x0a then { s with alarm := { s.alarm with month := byteAt frame 5 } }
    else if byteAt frame 2 = 0x0b then { s with alarm := { s.alarm with date := byteAt frame 5 } }
    else if byteAt frame 2 = 0x0c then { s with alarm := { s.alarm with hour := byteAt frame 5 } }
    else if byteAt frame 2 = 0x0d then
      { s with alarm := { s.alarm with minute := byteAt frame 5 } }
    else s
  else s

/-- What a command asks for. -/
def payload (s : Device) (frame : Bytes) : Bytes :=
  if byteAt frame 2 = 0x08 then s.rtc
  else if byteAt frame 2 = 0x0a then [s.alarm.month]
  else if byteAt frame 2 = 0x0b then [s.alarm.date]
  else if byteAt frame 2 = 0x0c then [s.alarm.hour]
  else if byteAt frame 2 = 0x0d then [s.alarm.minute]
  else [0]

/-- The answer, in the buffer. -/
def answer (s : Device) (frame : Bytes) : Bytes :=
  frame.take 5 ++ s.payload frame ++ stopMagic :: s.behind

instance : Board Device where
  sendCommand frame s :=
    if s.reaches s.exchanges = true then (some (s.answer frame), (s.store frame).next)
    else (none, s.next)
  time s := (s.clock s.readings, { s with readings := s.readings + 1 })
  settimeofday t s := if s.settable = true then (true, { s with sysTime := some t }) else (false, s)
  afterFan _ s := s
  afterLed _ s := s
  afterTemp _ s := s

theorem time_eq (s : Device) :
    Board.time s = (s.clock s.readings, { s with readings := s.readings + 1 }) := rfl

section Exchanges

variable {s : Device}

theorem sent (frame : Bytes) (h : s.reaches s.exchanges = true) :
    Board.sendCommand frame s = (some (s.answer frame), (s.store frame).next) :=
  if_pos h

theorem unsent (frame : Bytes) (h : s.reaches s.exchanges = false) :
    Board.sendCommand frame s = (none, s.next) :=
  if_neg (by rw [h]; decide)

end Exchanges

/-! ## The commands of the alarm -/

/-- A byte of the alarm is the first of its answer. -/
theorem byteAt_answer {s : Device} {frame : Bytes} {b : UInt8} (hlen : 5 ≤ frame.length)
    (hpayload : s.payload frame = [b]) : byteAt (s.answer frame) 5 = b := by
  have htake : (frame.take 5).length = 5 := by
    rw [List.length_take]
    omega
  rw [byteAt, List.getD_eq_getElem?_getD, answer, List.append_assoc,
    List.getElem?_append_right (by omega), htake, hpayload]
  rfl

/-- A byte of a frame with a parameter. -/
theorem byteAt_withParam {cmd : Cmd} (n : Int) (h : 6 ≤ cmd.body.length) (i : Nat) :
    byteAt (withParam cmd n) i = if i = 5 then toByte (int2bcd n) else byteAt cmd.frame i := by
  have hlen : 5 < cmd.frame.length := by
    simp only [Cmd.frame, List.length_append, List.length_singleton]
    omega
  rw [byteAt, withParam, List.getD_eq_getElem?_getD]
  by_cases hi : i = 5
  · rw [if_pos hi, hi, List.getElem?_set_self hlen]
    rfl
  · rw [if_neg hi, List.getElem?_set_ne (Ne.symm hi), byteAt, List.getD_eq_getElem?_getD]

section Alarm

variable (s : Device)

theorem store_month (n : Int) : s.store (withParam wAlarmMonthCmd n) =
    { s with alarm := { s.alarm with month := toByte (int2bcd n) } } := by
  simp only [store, @byteAt_withParam wAlarmMonthCmd n (by decide)]
  rfl

theorem store_date (n : Int) : s.store (withParam wAlarmDateCmd n) =
    { s with alarm := { s.alarm with date := toByte (int2bcd n) } } := by
  simp only [store, @byteAt_withParam wAlarmDateCmd n (by decide)]
  rfl

theorem store_hour (n : Int) : s.store (withParam wAlarmHourCmd n) =
    { s with alarm := { s.alarm with hour := toByte (int2bcd n) } } := by
  simp only [store, @byteAt_withParam wAlarmHourCmd n (by decide)]
  rfl

theorem store_minute (n : Int) : s.store (withParam wAlarmMinuteCmd n) =
    { s with alarm := { s.alarm with minute := toByte (int2bcd n) } } := by
  simp only [store, @byteAt_withParam wAlarmMinuteCmd n (by decide)]
  rfl

/-- How many of the next `k` exchanges get through before one fails. -/
def landed (reaches : Nat → Bool) : (n k : Nat) → Nat
  | _, 0 => 0
  | n, k + 1 => if reaches n = true then landed reaches (n + 1) k + 1 else 0

/-- The exchanges that are made when the first that fails is the last. -/
def made (reaches : Nat → Bool) (n k : Nat) : Nat := min k (landed reaches n k + 1)

/-- An exchange that asks for a byte of the alarm. -/
theorem ask {frame : Bytes} (hstore : s.store frame = s) :
    Board.sendCommand frame s =
      (if s.reaches s.exchanges = true then some (s.answer frame) else none, s.next) := by
  cases h : s.reaches s.exchanges with
  | true => rw [sent _ h, hstore, if_pos rfl]
  | false =>
      rw [unsent _ h]
      rfl

/-- `readalarm` asks for byte after byte, until an exchange fails. -/
theorem readalarm_eq :
    (readalarm s).2.2 = { s with exchanges := s.exchanges + made s.reaches s.exchanges 4 } ∧
      ((readalarm s).1 = true ↔ landed s.reaches s.exchanges 4 = 4) ∧
      ((readalarm s).1 = true → (readalarm s).2.1 = s.alarm.alarm) := by
  have hmonth : ∀ s : Device, byteAt (s.answer rAlarmMonthCmd.frame) 5 = s.alarm.month :=
    fun _ => byteAt_answer (by decide) rfl
  have hdate : ∀ s : Device, byteAt (s.answer rAlarmDateCmd.frame) 5 = s.alarm.date :=
    fun _ => byteAt_answer (by decide) rfl
  have hhour : ∀ s : Device, byteAt (s.answer rAlarmHourCmd.frame) 5 = s.alarm.hour :=
    fun _ => byteAt_answer (by decide) rfl
  have hminute : ∀ s : Device, byteAt (s.answer rAlarmMinuteCmd.frame) 5 = s.alarm.minute :=
    fun _ => byteAt_answer (by decide) rfl
  have hask : ∀ cmd ∈ alarmReads, ∀ s : Device, Board.sendCommand cmd.frame s =
      (if s.reaches s.exchanges = true then some (s.answer cmd.frame) else none, s.next) := by
    intro cmd hcmd s
    refine ask s ?_
    simp only [alarmReads, List.mem_cons, List.not_mem_nil, or_false] at hcmd
    rcases hcmd with rfl | rfl | rfl | rfl <;> rfl
  simp only [alarmReads, List.forall_mem_cons, List.not_mem_nil] at hask
  obtain ⟨hask1, hask2, hask3, hask4, -⟩ := hask
  unfold readalarm made
  cases h0 : s.reaches s.exchanges with
  | false => simp [hask1, landed, h0, next]
  | true =>
      cases h1 : s.reaches (s.exchanges + 1) with
      | false => simp [hask1, hask2, landed, h0, h1, next]
      | true =>
          cases h2 : s.reaches (s.exchanges + 1 + 1) with
          | false => simp [hask1, hask2, hask3, landed, h0, h1, h2, next]
          | true =>
              cases h3 : s.reaches (s.exchanges + 1 + 1 + 1) with
              | false => simp [hask1, hask2, hask3, hask4, landed, h0, h1, h2, h3, next]
              | true =>
                  simp [hask1, hask2, hask3, hask4, landed, h0, h1, h2, h3, next, hmonth, hdate,
                    hhour, hminute, AlarmBytes.alarm]

/-- The bytes that are written for a time. -/
def code (month day hour min : Int) : AlarmBytes :=
  ⟨toByte (int2bcd (month + 1)), toByte (int2bcd day), toByte (int2bcd hour),
    toByte (int2bcd min)⟩

/-- The MCU after four exchanges that write an alarm, up to the first that fails. -/
def written (new : AlarmBytes) : Device :=
  { s with
    alarm := s.alarm.put new (landed s.reaches s.exchanges 4)
    exchanges := s.exchanges + made s.reaches s.exchanges 4 }

/-- `writealarm` writes byte after byte, until an exchange fails. -/
theorem writealarm_eq (month day hour min : Int) :
    writealarm month day hour min s =
      (decide (landed s.reaches s.exchanges 4 = 4), s.written (code month day hour min)) := by
  unfold writealarm written made
  cases h0 : s.reaches s.exchanges with
  | false => simp [unsent _ h0, landed, h0, next, AlarmBytes.put]
  | true =>
      have hsend : ∀ (frame : Bytes) (s : Device), Board.sendCommand frame s =
          if s.reaches s.exchanges = true then (some (s.answer frame), (s.store frame).next)
          else (none, s.next) := fun _ _ => rfl
      cases h1 : s.reaches (s.exchanges + 1) with
      | false => simp [hsend, store_month, landed, h0, h1, next, AlarmBytes.put, code]
      | true =>
          cases h2 : s.reaches (s.exchanges + 1 + 1) with
          | false =>
              simp [hsend, store_month, store_date, landed, h0, h1, h2, next, AlarmBytes.put, code]
          | true =>
              cases h3 : s.reaches (s.exchanges + 1 + 1 + 1) with
              | false =>
                  simp [hsend, store_month, store_date, store_hour, landed, h0, h1, h2, h3, next,
                    AlarmBytes.put, code]
              | true =>
                  simp [hsend, store_month, store_date, store_hour, store_minute, landed, h0, h1,
                    h2, h3, next, AlarmBytes.put, code]

end Alarm

end Device

end AltF.Mcu.Handlers
