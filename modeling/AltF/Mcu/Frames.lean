/-
  Mcu/Frames.lean --- the frames that a command puts on the wire.

  `send_pkt` writes an array up to its first stop byte, whatever its length is.  Most
  parameter bytes come from the calendar and need no check; the delay of DeviceShutdown is
  a number of the user, and is written as it is.
-/
import AltF.Mcu.Serial
import AltF.Mcu.Relayed

set_option autoImplicit false

namespace AltF.Mcu.Handlers

open AltF.Foundation AltF.SysFiles

/-! ## The wire -/

/-- What `send_pkt` writes of an array. -/
def onWire : Bytes → Bytes
  | [] => []
  | b :: cmd => if b = stopMagic then [b] else b :: onWire cmd

section Port

variable {σ : Type} [SerialPort σ]

open SerialPort

/-- Bytes written one by one, until a write fails. -/
def writeAll : Bytes → σ → Bool × σ
  | [], port => (true, port)
  | b :: rest, port =>
      let (count, port) := writeByte b port
      if count = false then (false, port) else writeAll rest port

/-- `send_pkt` writes the bytes that are on the wire, and no others. -/
theorem sendPkt_eq_writeAll (cmd : Bytes) (port : σ) :
    sendPkt cmd port = writeAll (onWire cmd) port := by
  induction cmd generalizing port with
  | nil => rfl
  | cons b cmd ih =>
      by_cases hstop : b = stopMagic
      · rw [onWire, if_pos hstop]
        simp only [sendPkt, writeAll, hstop, ne_eq, not_true_eq_false, if_false]
      · rw [onWire, if_neg hstop]
        simp only [sendPkt, writeAll, ne_eq, hstop, not_false_eq_true, if_true, ih]

end Port

theorem onWire_append {front : Bytes} (h : stopMagic ∉ front) (rest : Bytes) :
    onWire (front ++ stopMagic :: rest) = front ++ [stopMagic] := by
  induction front with
  | nil => simp [onWire]
  | cons b front ih =>
      rw [List.mem_cons, not_or] at h
      rw [List.cons_append, onWire, if_neg fun hb => h.1 hb.symm, ih h.2, List.cons_append]

/-! ## Requests -/

/-- A command of the table, with the numbers that it is to carry. -/
structure Request where
  cmd : Cmd
  numbers : List Int

/-- The array that is sent for a request. -/
def Request.array (r : Request) : Bytes :=
  r.cmd.frame.take 5 ++ r.numbers.map (fun n => toByte (int2bcd n)) ++
    r.cmd.frame.drop (5 + r.numbers.length)

/-- A number that two BCD digits can hold. -/
def HasCode (n : Int) : Prop := 0 ≤ n ∧ n ≤ 99

/-- A frame on the wire that carries a request. -/
structure Request.Carries (r : Request) (wire : Bytes) : Prop where
  /-- the length of the table's entry -/
  length : wire.length = r.cmd.frame.length
  /-- the stop byte is last, and nowhere else -/
  stop : ∃ front, wire = front ++ [stopMagic] ∧ stopMagic ∉ front
  /-- the command's own bytes -/
  start : wire.take 5 = r.cmd.frame.take 5
  /-- each parameter is the BCD code of its number -/
  params : ∀ k n, r.numbers[k]? = some n →
    HasCode n ∧ ((byteAt wire (5 + k)).toNat : Int) = 16 * (n / 10) + n % 10
  /-- and all else is the table's -/
  rest : wire.drop (5 + r.numbers.length) = r.cmd.frame.drop (5 + r.numbers.length)

theorem int2bcd_of_hasCode {n : Int} (h : HasCode n) : int2bcd n = 16 * (n / 10) + n % 10 := by
  rw [int2bcd, Int.tdiv_eq_ediv_of_nonneg h.1, Int.tmod_eq_emod_of_nonneg h.1]

theorem toNat_toByte {n : Int} (h : 0 ≤ n) (h' : n < 256) : ((toByte n).toNat : Int) = n := by
  have hsmall : n.toNat < UInt8.size := by
    rw [UInt8.size]
    omega
  rw [toByte, Int.emod_eq_of_lt h h', UInt8.toNat_ofNat_of_lt' hsmall]
  exact Int.toNat_of_nonneg h

theorem toNat_code {n : Int} (h : HasCode n) :
    ((toByte (int2bcd n)).toNat : Int) = 16 * (n / 10) + n % 10 := by
  have hlow := h.1
  have hhigh := h.2
  rw [int2bcd_of_hasCode h]
  exact toNat_toByte (by omega) (by omega)

/-- No code is the stop byte. -/
theorem code_ne_stop {n : Int} (h : HasCode n) : toByte (int2bcd n) ≠ stopMagic := by
  intro hstop
  have hcode := toNat_code h
  have hlow := h.1
  have hhigh := h.2
  rw [hstop] at hcode
  have hbyte : ((stopMagic.toNat : Nat) : Int) = 251 := by decide
  omega

/-- A request whose numbers have codes, and whose command has room for them. -/
structure Request.Encodable (r : Request) : Prop where
  codes : ∀ n ∈ r.numbers, HasCode n
  room : 5 + r.numbers.length ≤ r.cmd.body.length

theorem Request.array_eq {r : Request} (h : r.Encodable) :
    r.array = (r.cmd.body.take 5 ++ r.numbers.map (fun n => toByte (int2bcd n)) ++
      r.cmd.body.drop (5 + r.numbers.length)) ++ [stopMagic] := by
  rw [Request.array, r.cmd.frame_take, Cmd.frame, List.drop_append_of_le_length h.room]
  simp only [List.append_assoc]

/-- **Encodable requests arrive.** -/
theorem Request.Encodable.carries {r : Request} (h : r.Encodable) : r.Carries (onWire r.array) := by
  have hroom := h.room
  have hstop : stopMagic ∉ r.cmd.body.take 5 ++ r.numbers.map (fun n => toByte (int2bcd n)) ++
      r.cmd.body.drop (5 + r.numbers.length) := by
    simp only [List.mem_append, not_or]
    refine ⟨⟨fun hmem => r.cmd.no_stop (List.mem_of_mem_take hmem), fun hmem => ?_⟩,
      fun hmem => r.cmd.no_stop (List.mem_of_mem_drop hmem)⟩
    obtain ⟨n, hn, heq⟩ := List.mem_map.mp hmem
    exact code_ne_stop (h.codes n hn) heq
  have hwire : onWire r.array = r.array := by
    rw [Request.array_eq h, onWire_append hstop]
  have htake : (r.cmd.frame.take 5).length = 5 := r.cmd.frame_take_length
  have hlength : r.cmd.frame.length = r.cmd.body.length + 1 := by simp [Cmd.frame]
  rw [hwire]
  refine ⟨?_, ⟨_, Request.array_eq h, hstop⟩, ?_, fun k n hn => ⟨?_, ?_⟩, ?_⟩
  · simp only [Request.array, List.length_append, List.length_map, List.length_drop, htake]
    omega
  · rw [Request.array, List.append_assoc, List.take_append_of_le_length (by omega),
      List.take_of_length_le (by omega)]
  · exact h.codes n (List.mem_of_getElem? hn)
  · have hk : k < r.numbers.length := (List.getElem?_eq_some_iff.mp hn).1
    have hbyte : byteAt r.array (5 + k) = toByte (int2bcd n) := by
      rw [byteAt, List.getD_eq_getElem?_getD, Request.array, List.append_assoc,
        List.getElem?_append_right (by omega), htake, Nat.add_sub_cancel_left,
        List.getElem?_append_left (by simpa using hk), List.getElem?_map, hn]
      rfl
    rw [hbyte]
    exact toNat_code (h.codes n (List.mem_of_getElem? hn))
  · rw [Request.array, List.drop_append, List.drop_of_length_le (by simp [htake])]
    simp [htake]

/-- `cmd[5] = int2bcd(n)` makes the array of a request with one number. -/
theorem withParam_eq_array (cmd : Cmd) (h : 6 ≤ cmd.body.length) (n : Int) :
    withParam cmd n = (Request.mk cmd [n]).array := by
  have hlength : 5 < cmd.frame.length := by
    simp only [Cmd.frame, List.length_append, List.length_singleton]
    omega
  rw [withParam, List.set_eq_take_append_cons_drop, if_pos hlength]
  simp [Request.array]

/-! ## What handlers ask for -/

/-- The delay of DeviceShutdown: the number that is given, or five ("default in case of
error"). -/
def delay (args : Text) : Int := ((strtol args).map Prod.fst).getD 5

/-- A request without numbers. -/
def bare (cmd : Cmd) : Request := ⟨cmd, []⟩

def alarmReads : List Cmd := [rAlarmMonthCmd, rAlarmDateCmd, rAlarmHourCmd, rAlarmMinuteCmd]

/-- What reading the alarm sends. -/
def alarmQueries : List Cmd := alarmReads ++ [wAlarmDisableCmd, wAlarmEnableCmd]

/-- The time of an alarm, a number in each of four commands. -/
def alarmWrites (tm : Tm) : List Request :=
  [⟨wAlarmMonthCmd, [tm.mon + 1]⟩, ⟨wAlarmDateCmd, [tm.mday]⟩, ⟨wAlarmHourCmd, [tm.hour]⟩,
    ⟨wAlarmMinuteCmd, [tm.min]⟩]

/-- The time of the clock. -/
def clockWrite (tm : Tm) : Request :=
  ⟨wDateAndTimeCmd, [tm.sec, tm.min, tm.hour, tm.wday, tm.mday, tm.mon + 1, tm.year - 100]⟩

section Asked

variable {σ : Type} [Board σ] (cal : Calendar)

open Board

/-- The time that the arguments of WriteAlarm ask for, in UTC. -/
def askedTime (args : Text) (s : σ) : Option Tm :=
  let now := cal.localtime (time s).1
  (alarmRequest now args (time s).2).1.bind (alarmTime cal now.year)

/-- What a handler is to send. -/
def Handler.requests : Handler → Text → σ → List Request
  | .simple mcmd, _, _ => [bare mcmd]
  | .simple2 mcmd, _, _ => [bare mcmd]
  | .setfan mcmd, _, _ => [bare mcmd]
  | .setpowerled mcmd, _, _ => [bare mcmd]
  | .deviceshutdown, args, _ => [⟨deviceShutdownCmd, [delay args]⟩]
  | .shutdowndaemon, _, _ => []
  | .readrtc, _, _ => [bare rDateAndTimeCmd]
  | .readAlarm, _, _ => alarmQueries.map bare
  | .writeAlarm, args, s =>
      alarmQueries.map bare ++ ((askedTime cal args s).map alarmWrites).getD []
  | .systohc, _, s => ((cal.gmtime (time s).1).map clockWrite).toList
  | .hctosys, _, _ => [bare rDateAndTimeCmd]
  | .gettemperature, _, _ => [bare thermalStatusGetCmd]
  | .help, _, _ => []
  | .quit, _, _ => []

/-! ## What handlers send -/

/-- What a board keeps while the arrays that are sent are of a kind. -/
structure Keeps (P : Bytes → Prop) (I : σ → Prop) : Prop where
  sendCommand : ∀ cmd s, P cmd → I s → I (Board.sendCommand cmd s).2
  time : ∀ s, I s → I (Board.time s).2
  settimeofday : ∀ t s, I s → I (Board.settimeofday t s).2
  afterFan : ∀ b s, I s → I (Board.afterFan b s)
  afterLed : ∀ b s, I s → I (Board.afterLed b s)
  afterTemp : ∀ text s, I s → I (Board.afterTemp text s)

namespace Keeps

variable {P : Bytes → Prop} {I : σ → Prop} (hk : Keeps P I)

include hk

theorem sent {cmd : Bytes} {s s' : σ} {buf : Option Bytes} (hP : P cmd) (hs : I s)
    (hsend : Board.sendCommand cmd s = (buf, s')) : I s' := by
  have hkept := hk.sendCommand cmd s hP hs
  rwa [hsend] at hkept

theorem simpleCmd {mcmd : Bytes} {s : σ} (hP : P mcmd) (hs : I s) :
    I (simpleCmd mcmd s).2.2 := by
  unfold Handlers.simpleCmd
  split
  · exact hk.sent hP hs ‹_›
  · exact hk.sent hP hs ‹_›

/-- What the first exchange establishes, and the others keep. -/
theorem readalarm_first {s : σ} (hP : ∀ cmd ∈ alarmReads, P cmd.frame)
    (hfirst : I (Board.sendCommand rAlarmMonthCmd.frame s).2) : I (readalarm s).2.2 := by
  have hdate : P rAlarmDateCmd.frame := hP _ (by simp [alarmReads])
  have hhour : P rAlarmHourCmd.frame := hP _ (by simp [alarmReads])
  have hminute : P rAlarmMinuteCmd.frame := hP _ (by simp [alarmReads])
  unfold Handlers.readalarm
  split
  · rename_i hsend
    rwa [hsend] at hfirst
  · rename_i hsend
    rw [hsend] at hfirst
    split
    · exact hk.sent hdate hfirst ‹_›
    · rename_i hsend
      have hs := hk.sent hdate hfirst hsend
      split
      · exact hk.sent hhour hs ‹_›
      · rename_i hsend
        have hs := hk.sent hhour hs hsend
        split
        · exact hk.sent hminute hs ‹_›
        · exact hk.sent hminute hs ‹_›

theorem readalarm {s : σ} (hP : ∀ cmd ∈ alarmReads, P cmd.frame) (hs : I s) :
    I (readalarm s).2.2 :=
  hk.readalarm_first hP (hk.sendCommand _ _ (hP _ (by simp [alarmReads])) hs)

theorem writealarm {month day hour min : Int} {s : σ}
    (hmonth : P (withParam wAlarmMonthCmd (month + 1))) (hday : P (withParam wAlarmDateCmd day))
    (hhour : P (withParam wAlarmHourCmd hour)) (hmin : P (withParam wAlarmMinuteCmd min))
    (hs : I s) : I (writealarm month day hour min s).2 := by
  unfold Handlers.writealarm
  split
  · exact hk.sent hmonth hs ‹_›
  · rename_i hsend
    have hs := hk.sent hmonth hs hsend
    split
    · exact hk.sent hday hs ‹_›
    · rename_i hsend
      have hs := hk.sent hday hs hsend
      split
      · exact hk.sent hhour hs ‹_›
      · rename_i hsend
        have hs := hk.sent hhour hs hsend
        split
        · exact hk.sent hmin hs ‹_›
        · exact hk.sent hmin hs ‹_›

theorem readAlarmCmd {s : σ} (hP : ∀ cmd ∈ alarmQueries, P cmd.frame) (hs : I s) :
    I (readAlarmCmd cal s).2.2 := by
  have hread := hk.readalarm (fun cmd hcmd => hP cmd (List.mem_append_left _ hcmd)) hs
  have hdisable : P wAlarmDisableCmd.frame := hP _ (by simp [alarmQueries])
  have henable : P wAlarmEnableCmd.frame := hP _ (by simp [alarmQueries])
  rcases heq : Handlers.readalarm s with ⟨ok, a, s'⟩
  rw [heq] at hread
  cases ok with
  | false =>
      simp only [Handlers.readAlarmCmd, heq]
      exact hread
  | true =>
      simp only [Handlers.readAlarmCmd, heq]
      have henabled := hk.time _ (hk.simpleCmd henable hread)
      split
      · exact hk.simpleCmd hdisable hread
      · split
        · exact henabled
        · split
          · exact henabled
          · exact henabled

theorem alarmRequest {now : Tm} {args : Text} {s : σ} (hP : ∀ cmd ∈ alarmReads, P cmd.frame)
    (hs : I s) : I (alarmRequest now args s).2 := by
  have hread := hk.readalarm hP hs
  unfold Handlers.alarmRequest
  split
  · exact hs
  · split
    · exact hs
    · split
      · split
        · exact hs
        · split
          · split
            · rename_i heq
              rw [heq] at hread
              exact hread
            · rename_i heq
              rw [heq] at hread
              simp only
              split
              · exact hread
              · exact hread
          · exact hs
      · split
        · exact hs
        · split
          · exact hs
          · exact hs

theorem setAlarm {args : Text} {s : σ}
    (hreads : ∀ cmd ∈ alarmReads, P cmd.frame)
    (hwrites : ∀ tm, askedTime cal args s = some tm → ∀ r ∈ alarmWrites tm, P r.array)
    (hs : I s) : I (setAlarm cal args s).2 := by
  have hasked : I (Handlers.alarmRequest (cal.localtime (Board.time s).1) args
      (Board.time s).2).2 := hk.alarmRequest hreads (hk.time s hs)
  unfold Handlers.setAlarm
  simp only
  split
  · rename_i heq
    rwa [heq] at hasked
  · rename_i request s' heq
    rw [heq] at hasked
    split
    · exact hasked
    · rename_i tm htm
      have hP := hwrites tm (by simp only [askedTime, heq, Option.bind_some, htm])
      simp only [alarmWrites, List.mem_cons, forall_eq_or_imp, List.not_mem_nil,
        false_imp_iff, implies_true, and_true] at hP
      obtain ⟨hmonth, hday, hhour, hmin⟩ := hP
      rw [← withParam_eq_array _ (by decide)] at hmonth hday hhour hmin
      exact hk.writealarm hmonth hday hhour hmin hasked

theorem writeAlarmCmd {args : Text} {s : σ}
    (hP : ∀ cmd ∈ alarmQueries, P cmd.frame)
    (hwrites : ∀ tm, askedTime cal args s = some tm → ∀ r ∈ alarmWrites tm, P r.array)
    (hs : I s) : I (writeAlarmCmd cal args s).2.2 := by
  have hset := hk.setAlarm cal (fun cmd hcmd => hP cmd (List.mem_append_left _ hcmd)) hwrites hs
  unfold Handlers.writeAlarmCmd
  split
  · rename_i heq
    rwa [heq] at hset
  · rename_i heq
    rw [heq] at hset
    exact hk.readAlarmCmd cal hP hset

end Keeps

/-! ## The calendar -/

/-- An instant of the years 2000 to 2099. -/
def InCentury (t : Int) : Prop := 946684800 ≤ t ∧ t < 4102444800

/-- The fields that `gmtime` gives. -/
structure Calendar.Regular (cal : Calendar) : Prop where
  fields : ∀ t tm, cal.gmtime t = some tm →
    (0 ≤ tm.sec ∧ tm.sec ≤ 60) ∧ (0 ≤ tm.min ∧ tm.min ≤ 59) ∧ (0 ≤ tm.hour ∧ tm.hour ≤ 23) ∧
      (1 ≤ tm.mday ∧ tm.mday ≤ 31) ∧ (0 ≤ tm.mon ∧ tm.mon ≤ 11) ∧ (0 ≤ tm.wday ∧ tm.wday ≤ 6)
  century : ∀ t, InCentury t → ∃ tm, cal.gmtime t = some tm ∧ 100 ≤ tm.year ∧ tm.year ≤ 199

variable {cal}

theorem bare_encodable (cmd : Cmd) : (bare cmd).Encodable where
  codes _ hn := absurd hn List.not_mem_nil
  room := cmd.body_length

theorem bare_array (cmd : Cmd) : (bare cmd).array = cmd.frame := by
  simp [bare, Request.array]

theorem single_encodable (cmd : Cmd) (h : 6 ≤ cmd.body.length) {n : Int} (hn : HasCode n) :
    (Request.mk cmd [n]).Encodable where
  codes m hm := by
    rw [List.mem_singleton.mp hm]
    exact hn
  room := h

/-- Every time that is written to the MCU has a code. -/
theorem alarmWrites_encodable (hcal : cal.Regular) {year : Int} {request : Option Alarm} {tm : Tm}
    (htm : alarmTime cal year request = some tm) : ∀ r ∈ alarmWrites tm, r.Encodable := by
  have hfields : HasCode (tm.mon + 1) ∧ HasCode tm.mday ∧ HasCode tm.hour ∧ HasCode tm.min := by
    unfold alarmTime at htm
    split at htm
    · obtain rfl := Option.some.inj htm
      exact ⟨⟨by decide, by decide⟩, ⟨by decide, by decide⟩, ⟨by decide, by decide⟩,
        ⟨by decide, by decide⟩⟩
    · simp only at htm
      split at htm
      · exact absurd htm (by simp)
      · obtain ⟨-, hmin, hhour, hday, hmon, -⟩ := hcal.fields _ _ htm
        exact ⟨⟨by omega, by omega⟩, ⟨by omega, by omega⟩, ⟨by omega, by omega⟩,
          ⟨by omega, by omega⟩⟩
  obtain ⟨hmon, hday, hhour, hmin⟩ := hfields
  intro r hr
  simp only [alarmWrites, List.mem_cons, List.not_mem_nil, or_false] at hr
  rcases hr with heq | heq | heq | heq
  · rw [heq]
    exact single_encodable _ (by decide) hmon
  · rw [heq]
    exact single_encodable _ (by decide) hday
  · rw [heq]
    exact single_encodable _ (by decide) hhour
  · rw [heq]
    exact single_encodable _ (by decide) hmin

theorem clockWrite_encodable (hcal : cal.Regular) {t : Int} {tm : Tm}
    (htm : cal.gmtime t = some tm) (hyear : 100 ≤ tm.year ∧ tm.year ≤ 199) :
    (clockWrite tm).Encodable := by
  obtain ⟨hsec, hmin, hhour, hday, hmon, hwday⟩ := hcal.fields _ _ htm
  refine ⟨fun n hn => ?_, (by decide : 12 ≤ wDateAndTimeCmd.body.length)⟩
  simp only [clockWrite, List.mem_cons, List.not_mem_nil, or_false] at hn
  unfold HasCode
  omega

/-- The array of `systohc_cmd`. -/
theorem clockWrite_array {tm : Tm} (h : (clockWrite tm).Encodable) :
    wDateAndTimeCmd.frame.take 5 ++
        [tm.sec, tm.min, tm.hour, tm.wday, tm.mday, tm.mon + 1, tm.year - 100].map
          (fun v => toByte (int2bcd (toByte v).toNat)) ++
      wDateAndTimeCmd.frame.drop 12 = (clockWrite tm).array := by
  have hbyte : ∀ v ∈ (clockWrite tm).numbers,
      toByte (int2bcd (toByte v).toNat) = toByte (int2bcd v) := by
    intro v hv
    have hcode := h.codes v hv
    rw [toNat_toByte hcode.1 (by have := hcode.2; omega)]
  rw [Request.array, ← List.map_congr_left hbyte]
  rfl

/-- The array that `systohc_cmd` fills. -/
def clockArray (tm : Tm) : Bytes :=
  wDateAndTimeCmd.frame.take 5 ++
      [tm.sec, tm.min, tm.hour, tm.wday, tm.mday, tm.mon + 1, tm.year - 100].map
        (fun v => toByte (int2bcd (toByte v).toNat)) ++
    wDateAndTimeCmd.frame.drop 12

/-- The arrays that a handler may send. -/
def Handler.arrays (cal : Calendar) : Handler → Text → σ → List Bytes
  | .simple mcmd, _, _ => [mcmd.frame]
  | .simple2 mcmd, _, _ => [mcmd.frame]
  | .setfan mcmd, _, _ => [mcmd.frame]
  | .setpowerled mcmd, _, _ => [mcmd.frame]
  | .deviceshutdown, args, _ => [withParam deviceShutdownCmd (delay args)]
  | .shutdowndaemon, _, _ => []
  | .readrtc, _, _ => [rDateAndTimeCmd.frame]
  | .readAlarm, _, _ => alarmQueries.map Cmd.frame
  | .writeAlarm, args, s =>
      alarmQueries.map Cmd.frame ++
        ((askedTime cal args s).map fun tm => (alarmWrites tm).map Request.array).getD []
  | .systohc, _, s => ((cal.gmtime (time s).1).map clockArray).toList
  | .hctosys, _, _ => [rDateAndTimeCmd.frame]
  | .gettemperature, _, _ => [thermalStatusGetCmd.frame]
  | .help, _, _ => []
  | .quit, _, _ => []

/-- A board keeps what the arrays of a handler keep. -/
theorem Keeps.run_arrays {P : Bytes → Prop} {I : σ → Prop} (hk : Keeps P I) (beyond : UInt8)
    {h : Handler} {args : Text} {s : σ} (hP : ∀ array ∈ h.arrays cal args s, P array) (hs : I s) :
    I (h.run cal beyond args s).2.2 := by
  have hframe : ∀ cmd : Cmd, cmd.frame ∈ h.arrays cal args s → P cmd.frame := fun cmd => hP _
  cases h with
  | simple mcmd => exact hk.simpleCmd (hframe mcmd (by simp [Handler.arrays])) hs
  | simple2 mcmd =>
      have hsent : I (Board.sendCommand mcmd.frame s).2 :=
        hk.sendCommand _ _ (hframe mcmd (by simp [Handler.arrays])) hs
      change I (simpleCmd2 mcmd s).2.2
      unfold simpleCmd2
      split
      · rename_i heq
        rwa [heq] at hsent
      · rename_i heq
        rwa [heq] at hsent
  | setfan mcmd =>
      have hsent := hk.simpleCmd (hframe mcmd (by simp [Handler.arrays])) hs
      change I (setfanCmd mcmd s).2.2
      unfold setfanCmd
      split
      rename_i heq
      rw [heq] at hsent
      split
      · exact hsent
      · exact hk.afterFan _ _ hsent
  | setpowerled mcmd =>
      have hsent := hk.simpleCmd (hframe mcmd (by simp [Handler.arrays])) hs
      change I (setpowerledCmd mcmd s).2.2
      unfold setpowerledCmd
      split
      rename_i heq
      rw [heq] at hsent
      split
      · exact hsent
      · exact hk.afterLed _ _ hsent
  | deviceshutdown => exact hk.simpleCmd (hP _ (List.mem_singleton_self _)) hs
  | shutdowndaemon => exact hs
  | readrtc =>
      have hsent : I (Board.sendCommand rDateAndTimeCmd.frame s).2 :=
        hk.sendCommand _ _ (hframe _ (by simp [Handler.arrays])) hs
      change I (readrtcCmd cal s).2.2
      unfold readrtcCmd
      split
      · rename_i heq
        rwa [heq] at hsent
      · rename_i heq
        rwa [heq] at hsent
  | readAlarm =>
      exact hk.readAlarmCmd cal (fun cmd hcmd => hframe cmd (List.mem_map_of_mem hcmd)) hs
  | writeAlarm =>
      refine hk.writeAlarmCmd cal (fun cmd hcmd => hframe cmd ?_) (fun tm htm r hr => hP _ ?_) hs
      · exact List.mem_append_left _ (List.mem_map_of_mem hcmd)
      · refine List.mem_append_right _ ?_
        rw [htm]
        exact List.mem_map_of_mem hr
  | systohc =>
      change I (systohcCmd cal s).2.2
      unfold systohcCmd
      simp only
      split
      · exact hk.time s hs
      · rename_i tm htm
        exact hk.simpleCmd (hP (clockArray tm) (by simp [Handler.arrays, htm])) (hk.time s hs)
  | hctosys =>
      have hsent : I (Board.sendCommand rDateAndTimeCmd.frame s).2 :=
        hk.sendCommand _ _ (hframe _ (by simp [Handler.arrays])) hs
      change I (hctosysCmd cal s).2.2
      unfold hctosysCmd
      split
      · rename_i heq
        rwa [heq] at hsent
      · rename_i buf s' heq
        rw [heq] at hsent
        have hset := hk.settimeofday (cal.timegm (rtcTime buf)) _ (hk.time _ hsent)
        simp only
        split
        · rename_i heq
          rwa [heq] at hset
        · rename_i heq
          rwa [heq] at hset
  | gettemperature =>
      have hsent : I (Board.sendCommand thermalStatusGetCmd.frame s).2 :=
        hk.sendCommand _ _ (hframe _ (by simp [Handler.arrays])) hs
      change I (gettemperatureCmd beyond s).2.2
      unfold gettemperatureCmd
      split
      · rename_i heq
        rwa [heq] at hsent
      · rename_i heq
        rw [heq] at hsent
        exact hk.afterTemp _ _ hsent
  | help => exact hs
  | quit => exact hs

/-- The arrays are those of the requests. -/
theorem Handler.arrays_eq (hcal : cal.Regular) (h : Handler) (args : Text) {s : σ}
    (hclock : InCentury (Board.time s).1) :
    h.arrays cal args s = (h.requests cal args s).map Request.array := by
  have hbare : ∀ cmd : Cmd, [cmd.frame] = [bare cmd].map Request.array := fun cmd => by
    rw [List.map_singleton, bare_array]
  have hqueries : alarmQueries.map Cmd.frame = (alarmQueries.map bare).map Request.array := by
    rw [List.map_map]
    exact List.map_congr_left fun cmd _ => (bare_array cmd).symm
  cases h with
  | deviceshutdown =>
      rw [Handler.arrays, Handler.requests, List.map_singleton, withParam_eq_array _ (by decide)]
  | readAlarm => exact hqueries
  | writeAlarm =>
      rw [Handler.arrays, Handler.requests, List.map_append, ← hqueries]
      cases askedTime cal args s <;> rfl
  | systohc =>
      obtain ⟨tm, htm, hyear⟩ := hcal.century _ hclock
      simp only [Handler.arrays, Handler.requests, htm, Option.map_some, Option.toList_some,
        List.map_singleton]
      rw [← clockWrite_array (clockWrite_encodable hcal htm hyear), clockArray]
  | shutdowndaemon => rfl
  | help => rfl
  | quit => rfl
  | simple mcmd => exact hbare mcmd
  | simple2 mcmd => exact hbare mcmd
  | setfan mcmd => exact hbare mcmd
  | setpowerled mcmd => exact hbare mcmd
  | readrtc => exact hbare _
  | hctosys => exact hbare _
  | gettemperature => exact hbare _

/-- A board keeps what the requests of a handler keep. -/
theorem Keeps.run {P : Bytes → Prop} {I : σ → Prop} (hk : Keeps P I) (hcal : cal.Regular)
    (beyond : UInt8) {h : Handler} {args : Text} {s : σ} (hclock : InCentury (Board.time s).1)
    (hP : ∀ r ∈ h.requests cal args s, P r.array) (hs : I s) :
    I (h.run cal beyond args s).2.2 := by
  refine hk.run_arrays beyond (fun array harray => ?_) hs
  rw [h.arrays_eq hcal args hclock] at harray
  obtain ⟨r, hr, rfl⟩ := List.mem_map.mp harray
  exact hP r hr

end Asked

/-! ## The arrays that are sent -/

/-- A board, and the arrays that have been given to `SendCommand`. -/
structure Recorded (σ : Type) where
  board : σ
  arrays : List Bytes

section Record

variable {σ : Type} [Board σ] (cal : Calendar) (beyond : UInt8)

instance : Board (Recorded σ) where
  sendCommand cmd s :=
    ((Board.sendCommand cmd s.board).1, ⟨(Board.sendCommand cmd s.board).2, s.arrays ++ [cmd]⟩)
  time s := ((Board.time s.board).1, ⟨(Board.time s.board).2, s.arrays⟩)
  settimeofday t s :=
    ((Board.settimeofday t s.board).1, ⟨(Board.settimeofday t s.board).2, s.arrays⟩)
  afterFan b s := ⟨Board.afterFan b s.board, s.arrays⟩
  afterLed b s := ⟨Board.afterLed b s.board, s.arrays⟩
  afterTemp text s := ⟨Board.afterTemp text s.board, s.arrays⟩

/-- Arrays of a kind are all that is recorded. -/
theorem keeps_arrays (P : Bytes → Prop) :
    Keeps P fun s : Recorded σ => ∀ cmd ∈ s.arrays, P cmd where
  sendCommand cmd s hP hs := by
    intro x hx
    rcases List.mem_append.mp hx with hx | hx
    · exact hs x hx
    · exact List.mem_singleton.mp hx ▸ hP
  time _ hs := hs
  settimeofday _ _ hs := hs
  afterFan _ _ hs := hs
  afterLed _ _ hs := hs
  afterTemp _ _ hs := hs

/-- What is recorded stays. -/
theorem keeps_ne_nil : Keeps (fun _ => True) fun s : Recorded σ => s.arrays ≠ [] where
  sendCommand cmd _ _ _ := List.append_ne_nil_of_right_ne_nil _ (List.cons_ne_nil cmd [])
  time _ hs := hs
  settimeofday _ _ hs := hs
  afterFan _ _ hs := hs
  afterLed _ _ hs := hs
  afterTemp _ _ hs := hs

/-- A board on which nothing has been sent. -/
def fresh (s : σ) : Recorded σ := ⟨s, []⟩

/-! ## Arguments without a code -/

/-- Arguments of WriteAlarm that name no time. -/
def isRefused (args : Text) : Bool :=
  if startsWith "now".toList args then false
  else if startsWith "disable".toList args then false
  else if args.head? = some '+' then
    match strtol args with
    | none => true
    | some (_, t) => !(t.head? = some 'm' ∨ t.head? = some 'd')
  else
    match strtol4 args with
    | none => true
    | some a =>
        a.day < 1 ∨ a.day > 31 ∨ a.month < 1 ∨ a.month > 12 ∨ a.hour < 0 ∨ a.hour > 23 ∨
          a.min < 0 ∨ a.min > 59

/-- The time that the arguments name is none of the calendar. -/
def Unmade (args : Text) (s : σ) : Prop :=
  let now := cal.localtime (Board.time s).1
  ∃ request, (alarmRequest now args (Board.time s).2).1 = some request ∧
    alarmTime cal now.year request = none

/-- An argument that has no encoding. -/
def Handler.NoEncoding : Handler → Text → σ → Prop
  | .deviceshutdown, args, _ => ¬ HasCode (delay args)
  | .writeAlarm, args, s => isRefused args = true ∨ Unmade cal args s
  | _, _, _ => False

/-- The arguments that are not checked, or checked too late. -/
def Handler.Unchecked : Handler → Text → σ → Prop
  | .deviceshutdown, args, _ => ¬ HasCode (delay args)
  | .writeAlarm, args, s => args.head? = some '+' ∧ Unmade cal args s
  | _, _, _ => False

/-- What is asked of a handler's frames. -/
structure Handler.Lawful (h : Handler) (args : Text) (s : σ) : Prop where
  /-- every frame on the wire carries a request -/
  frames : ∀ cmd ∈ (h.run cal beyond args (fresh s)).2.2.arrays,
    ∃ r ∈ h.requests cal args (fresh s), r.Carries (onWire cmd)
  /-- an argument without an encoding is rejected, and nothing is sent -/
  rejected : h.NoEncoding cal args (fresh s) →
    isError (h.run cal beyond args (fresh s)).2.1 = true ∧
      (h.run cal beyond args (fresh s)).2.2.arrays = []

theorem alarmRequest_refused {args : Text} (h : isRefused args = true) (now : Tm) (s : σ) :
    alarmRequest now args s = (none, s) := by
  unfold isRefused at h
  unfold alarmRequest
  split at h
  · exact absurd h Bool.false_ne_true
  · rename_i hnow
    rw [if_neg hnow]
    split at h
    · exact absurd h Bool.false_ne_true
    · rename_i hdisable
      rw [if_neg hdisable]
      split at h
      · rename_i hplus
        rw [if_pos hplus]
        rcases hnumber : strtol args with _ | ⟨n, t⟩
        · rfl
        · rw [hnumber] at h
          simp only [Bool.not_eq_true', decide_eq_false_iff_not] at h
          exact if_neg h
      · rename_i hplus
        rw [if_neg hplus]
        rcases hnumbers : strtol4 args with _ | a
        · rfl
        · rw [hnumbers] at h
          exact if_pos (of_decide_eq_true h)

/-- Without a plus the MCU is not asked. -/
theorem alarmRequest_state {args : Text} (h : args.head? ≠ some '+') (now : Tm) (s : σ) :
    (alarmRequest now args s).2 = s := by
  unfold alarmRequest
  split
  · rfl
  · split
    · rfl
    · split
      · rfl
      · split
        · rfl
        · rfl

theorem startsWith_ne_plus {word args : Text} (hword : word.head? ≠ some '+') (hne : word ≠ [])
    (h : startsWith word args = true) : args.head? ≠ some '+' := by
  intro hplus
  cases args with
  | nil => exact absurd hplus (by simp)
  | cons c args =>
      obtain rfl : c = '+' := by simpa using hplus
      obtain ⟨w, word, rfl⟩ := List.exists_cons_of_ne_nil hne
      have heq := eq_of_beq h
      rw [List.length_cons, List.take_succ_cons, List.map_cons, List.cons.injEq] at heq
      exact hword (by rw [List.head?_cons, ← heq.1]; rfl)

/-- With a plus the MCU is asked for its alarm. -/
theorem alarmRequest_asks {args : Text} (h : args.head? = some '+') {now : Tm} {s : Recorded σ}
    {request : Option Alarm} (hmade : (alarmRequest now args s).1 = some request) :
    (alarmRequest now args s).2.arrays ≠ [] := by
  have hnow : ¬ startsWith "now".toList args = true := fun hstart =>
    startsWith_ne_plus (by decide) (by decide) hstart h
  have hdisable : ¬ startsWith "disable".toList args = true := fun hstart =>
    startsWith_ne_plus (by decide) (by decide) hstart h
  have hread : (readalarm s).2.2.arrays ≠ [] :=
    keeps_ne_nil.readalarm_first (fun _ _ => trivial)
      (List.append_ne_nil_of_right_ne_nil _ (List.cons_ne_nil _ []))
  unfold alarmRequest at hmade ⊢
  rw [if_neg hnow, if_neg hdisable, if_pos h] at hmade ⊢
  split
  · rename_i hnumber
    rw [hnumber] at hmade
    exact absurd hmade (by simp)
  · rename_i n t hnumber
    rw [hnumber] at hmade
    simp only at hmade
    split
    · split
      · rename_i heq
        rwa [heq] at hread
      · rename_i heq
        rw [heq] at hread
        simp only
        split
        · exact hread
        · exact hread
    · rename_i hunit
      rw [if_neg hunit] at hmade
      exact absurd hmade (by simp)

theorem simpleCmd_state (mcmd : Bytes) (s : σ) :
    (simpleCmd mcmd s).2.2 = (Board.sendCommand mcmd s).2 := by
  unfold simpleCmd
  split
  · rename_i heq
    rw [heq]
  · rename_i heq
    rw [heq]

variable {cal}

theorem writeAlarmCmd_refused {args : Text} (h : isRefused args = true) (s : σ) :
    writeAlarmCmd cal args s = (1, writeAlarmUsage, (Board.time s).2) := by
  have hset : setAlarm cal args s = (false, (Board.time s).2) := by
    simp only [setAlarm, alarmRequest_refused h]
  simp only [writeAlarmCmd, hset]

theorem writeAlarmCmd_unmade {args : Text} {s : σ} (h : Unmade cal args s) :
    writeAlarmCmd cal args s = (1, writeAlarmUsage,
      (alarmRequest (cal.localtime (Board.time s).1) args (Board.time s).2).2) := by
  obtain ⟨request, hmade, hnone⟩ := h
  have hset : setAlarm cal args s = (false,
      (alarmRequest (cal.localtime (Board.time s).1) args (Board.time s).2).2) := by
    unfold setAlarm
    simp only
    split
    · rename_i heq
      rw [heq]
    · rename_i request' s' heq
      rw [heq] at hmade
      obtain rfl := Option.some.inj hmade
      rw [heq]
      simp only [hnone]
  simp only [writeAlarmCmd, hset]

/-- But for an unchecked delay, what is asked for can be encoded. -/
theorem Handler.requests_encodable (hcal : cal.Regular) {h : Handler} {args : Text} {s : σ}
    (hclock : InCentury (Board.time s).1) (hchecked : ¬ h.Unchecked cal args s) :
    ∀ r ∈ h.requests cal args s, r.Encodable := by
  intro r hr
  have hbare : ∀ {cmd}, r ∈ [bare cmd] → r.Encodable := fun hmem =>
    List.mem_singleton.mp hmem ▸ bare_encodable _
  have hqueries : r ∈ alarmQueries.map bare → r.Encodable := fun hmem => by
    obtain ⟨cmd, -, heq⟩ := List.mem_map.mp hmem
    exact heq ▸ bare_encodable cmd
  cases h with
  | simple mcmd => exact hbare hr
  | simple2 mcmd => exact hbare hr
  | setfan mcmd => exact hbare hr
  | setpowerled mcmd => exact hbare hr
  | deviceshutdown =>
      rw [List.mem_singleton.mp hr]
      exact single_encodable _ (by decide) (not_not.mp hchecked)
  | readrtc => exact hbare hr
  | readAlarm => exact hqueries hr
  | writeAlarm =>
      rcases List.mem_append.mp hr with hread | hwrite
      · exact hqueries hread
      · cases htm : askedTime cal args s with
        | none =>
            rw [htm] at hwrite
            exact absurd hwrite List.not_mem_nil
        | some tm =>
            rw [htm] at hwrite
            obtain ⟨request, -, hmade⟩ := Option.bind_eq_some_iff.mp htm
            exact alarmWrites_encodable hcal hmade r hwrite
  | systohc =>
      obtain ⟨tm, htm, hyear⟩ := hcal.century _ hclock
      simp only [Handler.requests, htm, Option.map_some, Option.toList_some,
        List.mem_singleton] at hr
      exact hr ▸ clockWrite_encodable hcal htm hyear
  | hctosys => exact hbare hr
  | gettemperature => exact hbare hr
  | shutdowndaemon => exact absurd hr List.not_mem_nil
  | help => exact absurd hr List.not_mem_nil
  | quit => exact absurd hr List.not_mem_nil

theorem Handler.rejects {h : Handler} {args : Text} {s : σ}
    (hchecked : ¬ h.Unchecked cal args (fresh s)) (hno : h.NoEncoding cal args (fresh s)) :
    isError (h.run cal beyond args (fresh s)).2.1 = true ∧
      (h.run cal beyond args (fresh s)).2.2.arrays = [] := by
  cases h with
  | deviceshutdown => exact absurd hno hchecked
  | writeAlarm =>
      change isError (writeAlarmCmd cal args (fresh s)).2.1 = true ∧
        (writeAlarmCmd cal args (fresh s)).2.2.arrays = []
      rcases hno with hrefused | hunmade
      · rw [writeAlarmCmd_refused hrefused]
        exact ⟨rfl, rfl⟩
      · have hplus : args.head? ≠ some '+' := fun hplus => hchecked ⟨hplus, hunmade⟩
        rw [writeAlarmCmd_unmade hunmade, alarmRequest_state hplus]
        exact ⟨rfl, rfl⟩
  | _ => exact hno.elim

/-- What is not checked is sent. -/
theorem Handler.sends_unchecked {h : Handler} {args : Text} {s : σ}
    (hunchecked : h.Unchecked cal args (fresh s)) :
    h.NoEncoding cal args (fresh s) ∧ (h.run cal beyond args (fresh s)).2.2.arrays ≠ [] := by
  cases h with
  | deviceshutdown =>
      refine ⟨hunchecked, ?_⟩
      change (simpleCmd (withParam deviceShutdownCmd (delay args)) (fresh s)).2.2.arrays ≠ []
      rw [simpleCmd_state]
      exact List.append_ne_nil_of_right_ne_nil _ (List.cons_ne_nil _ [])
  | writeAlarm =>
      refine ⟨Or.inr hunchecked.2, ?_⟩
      change (writeAlarmCmd cal args (fresh s)).2.2.arrays ≠ []
      rw [writeAlarmCmd_unmade hunchecked.2]
      obtain ⟨hplus, request, hmade, -⟩ := hunchecked
      exact alarmRequest_asks hplus hmade
  | _ => exact hunchecked.elim

/-- **Handlers' frames.**  They are lawful but for a delay that has no code, and a time from
now on that is none. -/
theorem Handler.lawful_iff (hcal : cal.Regular) (h : Handler) (args : Text) (s : σ)
    (hclock : InCentury (Board.time s).1) :
    h.Lawful cal beyond args s ↔ ¬ h.Unchecked cal args (fresh s) := by
  constructor
  · intro hlawful hunchecked
    obtain ⟨hno, hsent⟩ := Handler.sends_unchecked beyond hunchecked
    exact hsent (hlawful.rejected hno).2
  · intro hchecked
    have hencodable := Handler.requests_encodable hcal (s := fresh s) hclock hchecked
    refine ⟨?_, Handler.rejects beyond hchecked⟩
    exact (keeps_arrays fun cmd => ∃ r ∈ h.requests cal args (fresh s),
      r.Carries (onWire cmd)).run hcal beyond hclock
        (fun r hr => ⟨r, hr, (hencodable r hr).carries⟩)
        (fun cmd hcmd => absurd hcmd List.not_mem_nil)

/-! ## Messages -/

/-- The command that a message names. -/
def messageName (cmd : Text) : Text := cmd.takeWhile (· ≠ ' ')

/-- The arguments that its handler finds. -/
def messageArgs (cmd retMessage : Text) : Text :=
  if ' ' ∈ cmd then (cmd.dropWhile (· ≠ ' ')).tail else retMessage

theorem handleCommand_known {cmd : Text} {h : Handler}
    (hcmd : handlerOf (messageName cmd) = some h) (retMessage : Text) (s : σ) :
    handleCommand cal beyond cmd retMessage s =
      h.run cal beyond (messageArgs cmd retMessage) s := by
  rw [messageName] at hcmd
  simp only [handleCommand, hcmd, messageArgs]

theorem handleCommand_unknown {cmd : Text} (hcmd : handlerOf (messageName cmd) = none)
    (retMessage : Text) (s : σ) : (handleCommand cal beyond cmd retMessage s).2.2 = s := by
  rw [messageName] at hcmd
  simp only [handleCommand, hcmd]

variable (cal)

/-- What is asked of the frames of a message, whichever command it names. -/
structure MessageLawful (cmd retMessage : Text) (s : σ) : Prop where
  /-- every frame on the wire carries a request of the command's handler -/
  frames : ∀ array ∈ (handleCommand cal beyond cmd retMessage (fresh s)).2.2.arrays,
    ∃ h, handlerOf (messageName cmd) = some h ∧
      ∃ r ∈ h.requests cal (messageArgs cmd retMessage) (fresh s), r.Carries (onWire array)
  /-- an argument without an encoding is rejected, and nothing is sent -/
  rejected : ∀ h, handlerOf (messageName cmd) = some h →
    h.NoEncoding cal (messageArgs cmd retMessage) (fresh s) →
      isError (handleCommand cal beyond cmd retMessage (fresh s)).2.1 = true ∧
        (handleCommand cal beyond cmd retMessage (fresh s)).2.2.arrays = []

variable {cal}

theorem messageLawful_known {cmd : Text} {h : Handler}
    (hcmd : handlerOf (messageName cmd) = some h) (retMessage : Text) (s : σ) :
    MessageLawful cal beyond cmd retMessage s ↔
      h.Lawful cal beyond (messageArgs cmd retMessage) s := by
  constructor
  · intro hlawful
    refine ⟨fun array harray => ?_, fun hno => ?_⟩
    · rw [← handleCommand_known beyond hcmd] at harray
      obtain ⟨h', hh', hcarried⟩ := hlawful.frames array harray
      obtain rfl : h = h' := Option.some.inj (hcmd.symm.trans hh')
      exact hcarried
    · rw [← handleCommand_known beyond hcmd]
      exact hlawful.rejected h hcmd hno
  · intro hlawful
    refine ⟨fun array harray => ⟨h, hcmd, ?_⟩, fun h' hh' hno => ?_⟩
    · rw [handleCommand_known beyond hcmd] at harray
      exact hlawful.frames array harray
    · obtain rfl : h = h' := Option.some.inj (hcmd.symm.trans hh')
      rw [handleCommand_known beyond hcmd]
      exact hlawful.rejected hno

/-- **Well formed frames.**  Whatever a client asks for, and whatever the MCU answers, the frames
on the wire are well formed and carry what is asked for; but for a delay of DeviceShutdown
outside 0 to 99, and a time from now on that the calendar does not have. -/
theorem messageLawful_iff (hcal : cal.Regular) (cmd retMessage : Text) (s : σ)
    (hclock : InCentury (Board.time s).1) :
    MessageLawful cal beyond cmd retMessage s ↔
      ∀ h, handlerOf (messageName cmd) = some h →
        ¬ h.Unchecked cal (messageArgs cmd retMessage) (fresh s) := by
  cases hcmd : handlerOf (messageName cmd) with
  | none =>
      refine ⟨fun _ h hh => absurd hh (by simp), fun _ => ⟨fun array harray => ?_, fun h hh => ?_⟩⟩
      · rw [handleCommand_unknown beyond hcmd] at harray
        exact absurd harray List.not_mem_nil
      · exact absurd (hcmd.symm.trans hh) (by simp)
  | some h =>
      rw [messageLawful_known beyond hcmd, Handler.lawful_iff beyond hcal h _ s hclock]
      exact ⟨fun hchecked h' hh' => Option.some.inj hh' ▸ hchecked, fun hall => hall h rfl⟩

end Record

theorem flatCalendar_regular : flatCalendar.Regular where
  fields _ tm htm := by
    obtain rfl := Option.some.inj htm
    decide
  century _ _ := ⟨_, rfl, by decide, by decide⟩

theorem shutdown_lawful :
    MessageLawful flatCalendar 0 "DeviceShutdown 30".toList [] Blank.mk ↔
      ∀ h, handlerOf (messageName "DeviceShutdown 30".toList) = some h →
        ¬ h.Unchecked flatCalendar (messageArgs "DeviceShutdown 30".toList []) (fresh Blank.mk) :=
  messageLawful_iff 0 flatCalendar_regular _ _ Blank.mk ⟨by decide, by decide⟩

/-- The code of -5 is the stop byte, and the frame ends with it. -/
theorem shutdown_cut :
    (handleCommand flatCalendar 0 "DeviceShutdown -5".toList [] (fresh Blank.mk)).2.2.arrays.map
        onWire = [[0xfa, 0x03, 0x03, 0x01, 0x01, 0xfb]] ∧
      ¬ MessageLawful flatCalendar 0 "DeviceShutdown -5".toList [] Blank.mk := by
  have hcmd : handlerOf (messageName "DeviceShutdown -5".toList) = some .deviceshutdown := by
    decide +kernel
  have hdelay : delay (messageArgs "DeviceShutdown -5".toList []) = -5 := by decide +kernel
  have hsent : (handleCommand flatCalendar 0 "DeviceShutdown -5".toList []
      (fresh Blank.mk)).2.2.arrays = [[0xfa, 0x03, 0x03, 0x01, 0x01, 0xfb, 0xfb]] := by
    rw [handleCommand_known 0 hcmd]
    change (simpleCmd (withParam deviceShutdownCmd (delay _)) (fresh Blank.mk)).2.2.arrays = _
    rw [hdelay]
    rfl
  refine ⟨by rw [hsent]; rfl, fun hlawful => ?_⟩
  have hnothing := (hlawful.rejected _ hcmd (by
    change ¬ HasCode (delay _)
    rw [hdelay]
    exact fun hcode => absurd hcode.1 (by decide))).2
  exact absurd (hsent.symm.trans hnothing) (by simp)

end AltF.Mcu.Handlers
