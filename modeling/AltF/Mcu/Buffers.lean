/-
  Mcu/Buffers.lean --- how far dns320l-daemon fills its fixed buffers.

  The debug texts take three characters for each byte on the wire, and the packets are short
  enough for them.  What `ClearSerialPort` finds is not: it reads blocks of 64 bytes and has
  room to show 21.  The reply is bounded by its size in every call but two: the arguments are
  a part of the message, and an unknown command is repeated whole.
-/
import AltF.Mcu.Frames

set_option autoImplicit false

namespace AltF.Mcu.Handlers

open AltF.Foundation AltF.SysFiles

/-! ## Buffers -/

/-- The fixed buffers that texts are written into. -/
inductive Buffer where
  /-- `msg` of `ClearSerialPort` -/
  | clearMsg
  /-- `msg` of `send_pkt` -/
  | sendMsg
  /-- `msg` of `receive_pkt` -/
  | receiveMsg
  /-- `msg1` and `msg2` of `CheckResponse` -/
  | checkMsg
  /-- `buf` of `write_str_to_file` -/
  | fileBuf
  /-- `response` of `poll_wait` -/
  | response
  deriving DecidableEq, Repr

/-- `sizeof(response)`, which the handlers get as `retSize` -/
def retSize : Nat := 512

def Buffer.size : Buffer → Nat
  | .clearMsg => 64
  | .sendMsg => 64
  | .receiveMsg => 64
  | .checkMsg => 64
  | .fileBuf => 64
  | .response => retSize

/-- Characters that are written into a buffer from its start on, the terminator among them. -/
structure Fill where
  buffer : Buffer
  chars : Nat
  deriving DecidableEq, Repr

def Fill.Fits (f : Fill) : Prop := f.chars ≤ f.buffer.size

instance (f : Fill) : Decidable f.Fits := inferInstanceAs (Decidable (_ ≤ _))

/-- `strcpy` or `sprintf` of a text. -/
def Fill.str (buffer : Buffer) (text : Text) : Fill := ⟨buffer, text.length + 1⟩

/-- `"%02x "` of a byte; `char` has no sign here. -/
def hexByte (b : UInt8) : Text :=
  [Nat.digitChar (b.toNat / 16), Nat.digitChar (b.toNat % 16), ' ']

def hexText (bs : Bytes) : Text := bs.flatMap hexByte

/-- A debug text, which is not touched where there is no byte. -/
def Fill.hex (buffer : Buffer) (bs : Bytes) : Fill :=
  ⟨buffer, if bs = [] then 0 else (hexText bs).length + 1⟩

theorem hexText_length (bs : Bytes) : (hexText bs).length = 3 * bs.length := by
  induction bs with
  | nil => rfl
  | cons b bs ih =>
      rw [hexText, List.flatMap_cons, List.length_append, ← hexText, ih, List.length_cons]
      simp only [hexByte, List.length_cons, List.length_nil]
      omega

/-- A buffer of 64 characters has room for 21 bytes. -/
theorem hex_fits_iff {buffer : Buffer} (hsize : buffer.size = 64) (bs : Bytes) :
    (Fill.hex buffer bs).Fits ↔ bs.length ≤ 21 := by
  simp only [Fill.Fits, Fill.hex, hsize, hexText_length]
  split
  · next hnil => simp [hnil]
  · omega

/-! ## The exchange -/

/-- The system calls of a handler. -/
class Host (σ : Type) extends SerialPort σ where
  /-- the bytes that `ClearSerialPort` finds -/
  arrived : σ → Bytes
  /-- what the buffer of `_SendCommand` holds as it is entered -/
  stack : σ → Bytes
  /-- `time(NULL)` -/
  time : σ → Int × σ
  /-- `settimeofday`, and whether it succeeds -/
  settimeofday : Int → σ → Bool × σ

/-- `curr_led_trigger`, which has room for 31 characters, and `curr_led_brightness`. -/
structure LedShadow where
  trigger : Text
  brightness : Int32
  fits : trigger.length < 32 := by decide

/-- The system, and what the program has written into its buffers. -/
structure Watch (σ : Type) where
  system : σ
  led : LedShadow
  fills : List Fill
  /-- how many bytes `ClearSerialPort` has found, at each of its calls -/
  found : List Nat

/-- Nothing is written yet. -/
def Watch.start {σ : Type} (system : σ) (led : LedShadow) : Watch σ := ⟨system, led, [], []⟩

/-- The blocks that `ClearSerialPort` reads. -/
def clearReads (arrived : Bytes) : List Bytes :=
  let buf := arrived.take clearBlock
  if buf.length = clearBlock then buf :: clearReads (arrived.drop clearBlock) else [buf]
termination_by arrived.length
decreasing_by
  have hlen : (arrived.take clearBlock).length = clearBlock := by assumption
  simp only [List.length_take, List.length_drop, clearBlock] at hlen ⊢
  omega

/-- The texts of `ClearSerialPort`. -/
def clearFills (arrived : Bytes) : List Fill :=
  if arrived = [] then [] else (clearReads arrived).map (.hex .clearMsg)

section Exchange

variable {σ : Type} [Host σ]

open SerialPort Host

/-- The bytes that `send_pkt` shows: each that it tries to write. -/
def sentBytes : Bytes → σ → Bytes
  | [], _ => []
  | b :: cmd, port =>
      let (count, port) := writeByte b port
      if count = false then [b]
      else if b ≠ stopMagic then b :: sentBytes cmd port
      else [b]

/-- The bytes that `receive_pkt` shows: what stands in the buffer after each read. -/
def receivedBytes : Nat → Nat → Bytes → σ → Bytes
  | 0, _, _, _ => []
  | left + 1, i, buf, port =>
      let (n, port) := readByte port
      let buf := fillByte buf i n
      if n.isSome = true ∧ buf.getD i 0 ≠ stopMagic then
        buf.getD i 0 :: receivedBytes left (i + 1) buf port
      else [buf.getD i 0]

namespace Watch

/-- `ClearSerialPort` -/
def clear (w : Watch σ) : Watch σ :=
  { w with
    system := clearSerialPort w.system
    fills := w.fills ++ clearFills (arrived w.system)
    found := w.found ++ [(arrived w.system).length] }

/-- `send_pkt` -/
def send (cmd : Bytes) (w : Watch σ) : Bool × Watch σ :=
  let (sent, system) := sendPkt cmd w.system
  (sent, { w with
    system := system
    fills := w.fills ++ [.hex .sendMsg (sentBytes cmd w.system)] })

/-- `receive_pkt`, into a buffer of `_SendCommand` -/
def receive (buf : Bytes) (w : Watch σ) : Bool × Bytes × Watch σ :=
  let (ok, buf', system) := receivePkt bufSize buf w.system
  (ok, buf', { w with
    system := system
    fills := w.fills ++ [.hex .receiveMsg (receivedBytes bufSize 0 buf w.system)] })

/-- `CheckResponse` -/
def check (cmd resp : Bytes) (w : Watch σ) : Bool × Watch σ :=
  if checkResponse cmd resp = true then (true, w)
  else (false, { w with
    fills := w.fills ++ [.hex .checkMsg (cmd.take 5), .hex .checkMsg (resp.take 5)] })

/-- The end of `_SendCommand`. -/
def receiveAck (out : Option Bytes) (buf : Bytes) (w : Watch σ) : Ret × Option Bytes × Watch σ :=
  match w.receive buf with
  | (false, _, w) => (.wrongAnswer, out, w)
  | (true, buf, w) =>
      match w.check ackFromSerial.frame buf with
      | (false, w) => (.wrongAnswer, out, w)
      | (true, w) => (.success, out, w)

/-- `_SendCommand` -/
def sendOnce (cmd : Bytes) (wantsOut : Bool) (w : Watch σ) : Ret × Option Bytes × Watch σ :=
  let buf := stack w.system
  match w.clear.send cmd with
  | (false, w) => (.writeFailed, none, w)
  | (true, w) =>
      if wantsOut = true then
        match w.receive buf with
        | (false, _, w) => (.wrongAnswer, none, w)
        | (true, buf, w) =>
            match w.check cmd buf with
            | (false, w) => (.wrongAnswer, none, w)
            | (true, w) => w.receiveAck (some buf) buf
      else w.receiveAck none buf

/-- The loop of `SendCommand`, with a number of retries left. -/
def sendLoop (cmd : Bytes) (wantsOut : Bool) : Nat → Watch σ → Ret × Option Bytes × Watch σ
  | 0, w => w.sendOnce cmd wantsOut
  | left + 1, w =>
      let (ret, out, w) := w.sendOnce cmd wantsOut
      if ret ≠ .success then sendLoop cmd wantsOut left w else (ret, out, w)

/-- The buffers apart, this is the end of an exchange. -/
theorem receiveAck_eq (out : Option Bytes) (buf : Bytes) (w : Watch σ) :
    ((w.receiveAck out buf).1, (w.receiveAck out buf).2.1, (w.receiveAck out buf).2.2.system) =
      Mcu.receiveAck out buf w.system := by
  rcases hread : receivePkt bufSize buf w.system with ⟨ok, buf', system⟩
  simp only [Watch.receiveAck, Mcu.receiveAck, receive, hread]
  cases ok with
  | false => rfl
  | true =>
      cases hcheck : checkResponse ackFromSerial.frame buf' <;> simp [check, hcheck]

/-- The buffers apart, this is an exchange with the MCU. -/
theorem sendOnce_eq (cmd : Cmd) (wantsOut : Bool) (w : Watch σ) :
    ((w.sendOnce cmd.frame wantsOut).1, (w.sendOnce cmd.frame wantsOut).2.1,
      (w.sendOnce cmd.frame wantsOut).2.2.system) =
        sendCommandOnce cmd wantsOut (stack w.system) w.system := by
  rcases hsend : sendPkt cmd.frame (clearSerialPort w.system) with ⟨sent, system⟩
  simp only [sendOnce, sendCommandOnce, send, clear, hsend]
  cases sent with
  | false => rfl
  | true =>
      cases wantsOut with
      | false => exact receiveAck_eq _ _ _
      | true =>
          rcases hread : receivePkt bufSize (stack w.system) system with ⟨ok, buf, system'⟩
          simp only [receive, hread, if_true, Bool.true_eq_false, if_false]
          cases ok with
          | false => rfl
          | true =>
              cases hcheck : checkResponse cmd.frame buf with
              | false => simp [check, hcheck]
              | true =>
                  simp only [check, hcheck, if_true, Bool.true_eq_false, if_false]
                  exact receiveAck_eq _ _ _

end Watch

end Exchange

/-! ## Debug texts -/

/-- All blocks fit exactly if there are no more than 21 bytes. -/
theorem clearFills_fit_iff (arrived : Bytes) :
    (∀ f ∈ clearFills arrived, f.Fits) ↔ arrived.length ≤ 21 := by
  unfold clearFills
  split
  · next hnil => simp [hnil]
  · rw [List.forall_mem_map]
    simp only [hex_fits_iff (show Buffer.clearMsg.size = 64 from rfl)]
    unfold clearReads
    simp only
    split
    · next hfull =>
      -- the first block is too long
      rw [List.length_take, clearBlock] at hfull
      refine iff_of_false (fun hall => ?_) (by omega)
      have hfirst := hall _ List.mem_cons_self
      rw [List.length_take, clearBlock] at hfirst
      omega
    · next hshort =>
      rw [List.length_take, clearBlock] at hshort
      rw [List.forall_mem_singleton, List.length_take, clearBlock]
      omega

section Texts

variable {σ : Type} [Host σ]

open SerialPort Host

theorem sentBytes_length_le (cmd : Bytes) (port : σ) :
    (sentBytes cmd port).length ≤ cmd.length := by
  induction cmd generalizing port with
  | nil => exact Nat.le_refl 0
  | cons b cmd ih =>
      unfold sentBytes
      simp only
      split
      · simp
      · split
        · exact Nat.succ_le_succ (ih _)
        · simp

theorem receivedBytes_length_le (left i : Nat) (buf : Bytes) (port : σ) :
    (receivedBytes left i buf port).length ≤ left := by
  induction left generalizing i buf port with
  | zero => exact Nat.le_refl 0
  | succ left ih =>
      unfold receivedBytes
      simp only
      split
      · exact Nat.succ_le_succ (ih _ _ _)
      · simp

/-- The buffers are large enough exactly if `ClearSerialPort` never finds more than 21
bytes. -/
def Watch.Bounded (w : Watch σ) : Prop := (∀ f ∈ w.fills, f.Fits) ↔ ∀ n ∈ w.found, n ≤ 21

namespace Watch

variable {w : Watch σ}

omit [Host σ] in
/-- What always fits does not count. -/
theorem Bounded.fill (h : w.Bounded) {w' : Watch σ} {fs : List Fill}
    (hfills : w'.fills = w.fills ++ fs) (hfound : w'.found = w.found) (hfs : ∀ f ∈ fs, f.Fits) :
    w'.Bounded := by
  unfold Bounded
  rw [hfills, hfound, List.forall_mem_append, and_iff_left hfs]
  exact h

theorem Bounded.clear (h : w.Bounded) : w.clear.Bounded := by
  unfold Bounded
  simp only [Watch.clear]
  rw [List.forall_mem_append, List.forall_mem_append, clearFills_fit_iff,
    List.forall_mem_singleton]
  exact and_congr h Iff.rfl

theorem Bounded.send (h : w.Bounded) {cmd : Bytes} (hcmd : cmd.length ≤ 21) :
    (w.send cmd).2.Bounded := by
  refine h.fill rfl rfl ?_
  rw [List.forall_mem_singleton, hex_fits_iff rfl]
  exact (sentBytes_length_le cmd _).trans hcmd

theorem Bounded.receive (h : w.Bounded) (buf : Bytes) : (w.receive buf).2.2.Bounded := by
  refine h.fill rfl rfl ?_
  rw [List.forall_mem_singleton, hex_fits_iff rfl]
  exact (receivedBytes_length_le bufSize 0 buf _).trans (by decide)

omit [Host σ] in
theorem Bounded.check (h : w.Bounded) (cmd resp : Bytes) : (w.check cmd resp).2.Bounded := by
  unfold Watch.check
  split
  · exact h
  · refine h.fill rfl rfl ?_
    rw [List.forall_mem_cons, List.forall_mem_singleton, hex_fits_iff rfl, hex_fits_iff rfl]
    simp only [List.length_take]
    omega

theorem Bounded.receiveAck (h : w.Bounded) (out : Option Bytes) (buf : Bytes) :
    (w.receiveAck out buf).2.2.Bounded := by
  have hread := h.receive buf
  unfold Watch.receiveAck
  split
  · rename_i heq
    rwa [heq] at hread
  · rename_i buf' w' heq
    rw [heq] at hread
    have hcheck := hread.check ackFromSerial.frame buf'
    split
    · rename_i heq
      rwa [heq] at hcheck
    · rename_i heq
      rwa [heq] at hcheck

theorem Bounded.sendOnce (h : w.Bounded) {cmd : Bytes} (hcmd : cmd.length ≤ 21)
    (wantsOut : Bool) : (w.sendOnce cmd wantsOut).2.2.Bounded := by
  have hsend := h.clear.send hcmd
  unfold Watch.sendOnce
  simp only
  split
  · rename_i heq
    rwa [heq] at hsend
  · rename_i w₁ heq
    rw [heq] at hsend
    split
    · have hread := hsend.receive (stack w.system)
      split
      · rename_i heq
        rwa [heq] at hread
      · rename_i buf w₂ heq
        rw [heq] at hread
        have hcheck := hread.check cmd buf
        split
        · rename_i heq
          rwa [heq] at hcheck
        · rename_i heq
          rw [heq] at hcheck
          exact hcheck.receiveAck _ _
    · exact hsend.receiveAck _ _

theorem Bounded.sendLoop (h : w.Bounded) {cmd : Bytes} (hcmd : cmd.length ≤ 21)
    (wantsOut : Bool) (left : Nat) : (w.sendLoop cmd wantsOut left).2.2.Bounded := by
  induction left generalizing w with
  | zero => exact h.sendOnce hcmd wantsOut
  | succ left ih =>
      have honce := h.sendOnce hcmd wantsOut
      unfold Watch.sendLoop
      simp only
      split
      · exact ih honce
      · exact honce

end Watch

end Texts

/-! ## Handlers -/

/-- The commands that `SendCommand` is given an `outArray` with. -/
def answered : List Cmd :=
  [aprStatusCmd, wolStatusGetCmd, thermalStatusGetCmd, rDateAndTimeCmd, rAlarmMonthCmd,
    rAlarmDateCmd, rAlarmHourCmd, rAlarmMinuteCmd]

/-- The text that `setfan_cmd` writes, by `mcmd[3]`. -/
def fanText (b : UInt8) : Text :=
  if b = 1 then "3000".toList else if b = 2 then "6000".toList else "0".toList

/-- The variables after `setpowerled_cmd`. -/
def LedShadow.set (led : LedShadow) (b : UInt8) : LedShadow :=
  if b = 0 then { trigger := "none".toList, brightness := 0 }
  else if b = 1 then { trigger := "none".toList, brightness := 1 }
  else if b = 2 then { trigger := "timer".toList, brightness := led.brightness }
  else led

section Run

variable {σ : Type} [Host σ]

/-- What `gettemperature_cmd` writes to its file is the reply, and stands among the copies of
that. -/
instance : Board (Watch σ) where
  sendCommand cmd w :=
    match w.sendLoop cmd (decide (cmd ∈ answered.map Cmd.frame)) nRetries with
    | (.success, out, w) => (some (out.getD []), w)
    | (.writeFailed, _, w) => (none, w)
    | (.wrongAnswer, _, w) => (none, w)
  time w := ((Host.time w.system).1, { w with system := (Host.time w.system).2 })
  settimeofday t w :=
    ((Host.settimeofday t w.system).1, { w with system := (Host.settimeofday t w.system).2 })
  afterFan b w := { w with fills := w.fills ++ [.str .fileBuf (fanText b)] }
  afterLed b w :=
    { w with
      led := w.led.set b
      fills := w.fills ++ [.str .fileBuf (w.led.set b).trigger,
        .str .fileBuf (sprintfInt (w.led.set b).brightness)] }
  afterTemp _ w := w

theorem fanText_fits (b : UInt8) : (Fill.str .fileBuf (fanText b)).Fits := by
  unfold fanText
  split_ifs <;> decide

/-- Short arrays leave the buffers bounded. -/
theorem keeps_bounded : Keeps (fun cmd => cmd.length ≤ 21) (Watch.Bounded (σ := σ)) where
  sendCommand cmd w hcmd hw := by
    have hloop := hw.sendLoop hcmd (decide (cmd ∈ answered.map Cmd.frame)) nRetries
    unfold Board.sendCommand
    simp only [instBoardWatch]
    split <;> (rename_i heq; rwa [heq] at hloop)
  time _ hw := hw
  settimeofday _ _ hw := hw
  afterFan b _ hw := hw.fill rfl rfl fun f hf => List.mem_singleton.mp hf ▸ fanText_fits b
  afterLed b w hw := by
    refine hw.fill rfl rfl ?_
    have htrigger := (w.led.set b).fits
    have hbrightness := sprintfInt_length_le (w.led.set b).brightness
    rw [List.forall_mem_cons, List.forall_mem_singleton]
    simp only [Fill.Fits, Fill.str, Buffer.size]
    omega
  afterTemp _ _ hw := hw

/-! ### The arrays of the table -/

/-- The commands that a handler is given. -/
def Handler.mcmd : Handler → List Cmd
  | .simple mcmd => [mcmd]
  | .simple2 mcmd => [mcmd]
  | .setfan mcmd => [mcmd]
  | .setpowerled mcmd => [mcmd]
  | _ => []

theorem mcmd_short {name : Text} {h : Handler} (hname : handlerOf name = some h) :
    ∀ cmd ∈ h.mcmd, cmd.frame.length ≤ 21 := by
  obtain ⟨⟨name', h'⟩, hfound, rfl⟩ := Option.map_eq_some_iff.mp hname
  have hall : ∀ x ∈ cmds, ∀ cmd ∈ x.2.mcmd, cmd.frame.length ≤ 21 := by decide +kernel
  exact hall _ (List.mem_of_find?_eq_some hfound)

/-- Every array that is sent is short. -/
theorem arrays_short (cal : Calendar) {name : Text} {h : Handler} (hname : handlerOf name = some h)
    (args : Text) (w : Watch σ) : ∀ array ∈ h.arrays cal args w, array.length ≤ 21 := by
  have hmcmd := mcmd_short hname
  have hqueries : ∀ cmd ∈ alarmQueries, cmd.frame.length ≤ 21 := by decide
  have hwrites : ∀ tm, ∀ r ∈ alarmWrites tm, r.array.length ≤ 21 := by
    intro tm r hr
    simp only [alarmWrites, List.mem_cons, List.not_mem_nil, or_false] at hr
    rcases hr with rfl | rfl | rfl | rfl <;>
      exact (by decide : (7 : Nat) ≤ 21)
  have hone : ∀ {cmd array : Bytes}, array ∈ [cmd] → cmd.length ≤ 21 → array.length ≤ 21 :=
    fun harray hcmd => List.mem_singleton.mp harray ▸ hcmd
  intro array harray
  cases h with
  | simple mcmd => exact hone harray (hmcmd mcmd List.mem_cons_self)
  | simple2 mcmd => exact hone harray (hmcmd mcmd List.mem_cons_self)
  | setfan mcmd => exact hone harray (hmcmd mcmd List.mem_cons_self)
  | setpowerled mcmd => exact hone harray (hmcmd mcmd List.mem_cons_self)
  | deviceshutdown =>
      refine hone harray ?_
      rw [withParam, List.length_set]
      decide
  | readrtc => exact hone harray (by decide)
  | readAlarm =>
      obtain ⟨cmd, hcmd, rfl⟩ := List.mem_map.mp harray
      exact hqueries cmd hcmd
  | writeAlarm =>
      rcases List.mem_append.mp harray with hread | hwrite
      · obtain ⟨cmd, hcmd, rfl⟩ := List.mem_map.mp hread
        exact hqueries cmd hcmd
      · cases htm : askedTime cal args w with
        | none =>
            rw [htm] at hwrite
            exact absurd hwrite List.not_mem_nil
        | some tm =>
            rw [htm] at hwrite
            obtain ⟨r, hr, rfl⟩ := List.mem_map.mp hwrite
            exact hwrites tm r hr
  | systohc =>
      cases htm : cal.gmtime (Board.time w).1 with
      | none =>
          simp only [Handler.arrays, htm] at harray
          exact absurd harray List.not_mem_nil
      | some tm =>
          simp only [Handler.arrays, htm] at harray
          exact hone harray (by simp [clockArray, Cmd.frame, wDateAndTimeCmd])
  | hctosys => exact hone harray (by decide)
  | gettemperature => exact hone harray (by decide)
  | shutdowndaemon => exact absurd harray List.not_mem_nil
  | help => exact absurd harray List.not_mem_nil
  | quit => exact absurd harray List.not_mem_nil

end Run

/-! ## Replies -/

/-- `strncpy(retMessage, text, retSize)`, which fills up with NULs -/
def strncpy : Fill := ⟨.response, retSize⟩

/-- `snprintf(retMessage, retSize, ...)` -/
def snprintf (text : Text) : Fill := ⟨.response, min (text.length + 1) retSize⟩

/-- `strncat(retMessage, src, retSize)` -/
def strncat (retMessage src : Text) : Fill :=
  ⟨.response, retMessage.length + min src.length retSize + 1⟩

/-- The loop of `help_cmd`, and its end. -/
def catNames (retMessage : Text) : List Text → List Fill
  | [] => [strncat (retMessage.take (retMessage.length - 2)) ".".toList]
  | ucmd :: rest =>
      strncat retMessage ucmd :: strncat (retMessage ++ ucmd) ", ".toList ::
        catNames (retMessage ++ ucmd ++ ", ".toList) rest

/-- The copies that a handler makes of its reply, by what it returns.  `readAlarm_cmd` has
`simple_cmd` write into the reply, unless the alarm cannot be read. -/
def Handler.copies : Handler → Int → Text → List Fill
  | .simple _, _, _ => [strncpy]
  | .simple2 _, ret, text => [if ret = 0 then snprintf text else strncpy]
  | .setfan _, _, _ => [strncpy, strncpy]
  | .setpowerled _, _, _ => [strncpy, strncpy]
  | .deviceshutdown, _, _ => [strncpy]
  | .shutdowndaemon, _, _ => [strncpy]
  | .readrtc, ret, text => [if ret = 0 then snprintf text else strncpy]
  | .readAlarm, _, text => [strncpy, snprintf text]
  | .writeAlarm, _, text => [strncpy, snprintf text]
  | .systohc, _, _ => [strncpy]
  | .hctosys, _, text => [if text = errText then strncpy else snprintf text]
  | .gettemperature, ret, text => if ret = 0 then [snprintf text, .str .fileBuf text] else [strncpy]
  | .help, _, _ => strncpy :: catNames "Available Commands:\n\n".toList (cmds.map Prod.fst)
  | .quit, _, _ => [strncpy]

theorem strncpy_fits : strncpy.Fits := Nat.le_refl _

theorem snprintf_fits (text : Text) : (snprintf text).Fits := Nat.min_le_right _ _

/-- The text of a temperature. -/
theorem temperature_fits (temp : UInt8) :
    (Fill.str .fileBuf (printInt (temp.toNat * 1000 : Nat))).Fits := by
  have htemp := temp.toNat_lt
  have hlen := printInt_length_le (k := 6) (v := (temp.toNat * 1000 : Nat)) (by decide)
    (by omega) (by omega)
  simp only [Fill.Fits, Fill.str, Buffer.size]
  omega

theorem temperature_copies_fit {ret : Int} {text : Text}
    (hfile : ret = 0 → (Fill.str .fileBuf text).Fits) :
    ∀ f ∈ Handler.gettemperature.copies ret text, f.Fits := by
  change ∀ f ∈ (if ret = 0 then [snprintf text, .str .fileBuf text] else [strncpy]), f.Fits
  split
  · next hret =>
    rw [List.forall_mem_cons, List.forall_mem_singleton]
    exact ⟨snprintf_fits text, hfile hret⟩
  · rw [List.forall_mem_singleton]
    exact strncpy_fits

section Messages

variable {σ : Type} [Host σ] (cal : Calendar) (beyond : UInt8)

theorem copies_fit (h : Handler) (args : Text) (w : Watch σ) :
    ∀ f ∈ h.copies (h.run cal beyond args w).1 (h.run cal beyond args w).2.1, f.Fits := by
  have hone : ∀ {f g : Fill}, g.Fits → f ∈ [g] → f.Fits := fun hg hf =>
    List.mem_singleton.mp hf ▸ hg
  have htwo : ∀ {f g g' : Fill}, g.Fits → g'.Fits → f ∈ [g, g'] → f.Fits := by
    intro f g g' hg hg' hf
    rcases List.mem_cons.mp hf with rfl | hf
    · exact hg
    · exact hone hg' hf
  have hite : ∀ {p : Prop} [Decidable p] (text : Text),
      (if p then snprintf text else strncpy).Fits ∧
        (if p then strncpy else snprintf text).Fits := by
    intro p _ text
    split
    · exact ⟨snprintf_fits text, strncpy_fits⟩
    · exact ⟨strncpy_fits, snprintf_fits text⟩
  intro f hf
  cases h with
  | simple2 mcmd => exact hone (hite _).1 hf
  | readrtc => exact hone (hite _).1 hf
  | hctosys => exact hone (hite _).2 hf
  | setfan mcmd => exact htwo strncpy_fits strncpy_fits hf
  | setpowerled mcmd => exact htwo strncpy_fits strncpy_fits hf
  | readAlarm => exact htwo strncpy_fits (snprintf_fits _) hf
  | writeAlarm => exact htwo strncpy_fits (snprintf_fits _) hf
  | gettemperature =>
      refine temperature_copies_fit ?_ f hf
      change (gettemperatureCmd beyond w).1 = 0 →
        (Fill.str .fileBuf (gettemperatureCmd beyond w).2.1).Fits
      unfold gettemperatureCmd
      split
      · exact fun hret => absurd hret Int.one_ne_zero
      · exact fun _ => temperature_fits _
  | help =>
      have hall : ∀ f ∈ strncpy :: catNames "Available Commands:\n\n".toList (cmds.map Prod.fst),
          f.Fits := by decide +kernel
      exact hall f hf
  | simple mcmd => exact hone strncpy_fits hf
  | deviceshutdown => exact hone strncpy_fits hf
  | shutdowndaemon => exact hone strncpy_fits hf
  | systohc => exact hone strncpy_fits hf
  | quit => exact hone strncpy_fits hf

/-- The command in `message`, whose last byte is replaced by a NUL. -/
def received (message : Text) : Text := cString message.dropLast

/-- What `poll_wait` has written into the buffers when it has handled a message. -/
def messageFills (message : Text) (w : Watch σ) : List Fill :=
  let cmd := received message
  let r := handleCommand cal beyond cmd [] w
  (if ' ' ∈ cmd then [.str .response (messageArgs cmd [])] else []) ++
    (match handlerOf (messageName cmd) with
      | some h => h.copies r.1 r.2.1
      | none => [.str .response r.2.1]) ++
    r.2.2.fills

/-- How many bytes `ClearSerialPort` finds, at each of its calls for a message. -/
def messageFound (message : Text) (w : Watch σ) : List Nat :=
  (handleCommand cal beyond (received message) [] w).2.2.found

/-- The arguments are a part of the message. -/
theorem args_fit {message : Text} (hlen : message.length ≤ 512) :
    (Fill.str .response (messageArgs (received message) [])).Fits := by
  have hcmd : (received message).length ≤ message.length - 1 := by
    rw [← List.length_dropLast]
    exact (List.takeWhile_prefix _).length_le
  have hargs : (messageArgs (received message) []).length ≤ (received message).length := by
    unfold messageArgs
    split
    · rw [List.length_tail]
      exact (Nat.sub_le _ 1).trans (List.dropWhile_suffix _).length_le
    · exact Nat.zero_le _
  simp only [Fill.Fits, Fill.str, Buffer.size, retSize]
  omega

/-- What has been written while a handler ran. -/
theorem run_bounded {name : Text} {h : Handler} (hname : handlerOf name = some h) (args : Text)
    (system : σ) (led : LedShadow) :
    (h.run cal beyond args (Watch.start system led)).2.2.Bounded :=
  keeps_bounded.run_arrays beyond (arrays_short cal hname args _)
    (iff_of_true (fun _ hf => absurd hf List.not_mem_nil) fun _ hn => absurd hn List.not_mem_nil)

/-- **No buffer is overrun** while a message is handled exactly if its command is known or has
no more than 489 characters, and `ClearSerialPort` never finds more than 21 bytes. -/
theorem fills_fit_iff {message : Text} (hlen : message.length ≤ 512) (system : σ)
    (led : LedShadow) :
    (∀ f ∈ messageFills cal beyond message (.start system led), f.Fits) ↔
      (handlerOf (messageName (received message)) = none →
        (messageName (received message)).length ≤ 489) ∧
      ∀ n ∈ messageFound cal beyond message (.start system led), n ≤ 21 := by
  have hargs : ∀ f ∈ (if ' ' ∈ received message then
      [Fill.str .response (messageArgs (received message) [])] else []), f.Fits := by
    intro f hf
    split at hf
    · exact List.mem_singleton.mp hf ▸ args_fit hlen
    · exact absurd hf List.not_mem_nil
  unfold messageFills messageFound
  simp only
  rw [List.forall_mem_append, List.forall_mem_append, and_iff_right hargs]
  cases hname : handlerOf (messageName (received message)) with
  | some h =>
      rw [handleCommand_known beyond hname]
      simp only [reduceCtorEq, false_imp_iff, true_and]
      rw [and_iff_right (copies_fit cal beyond h _ _)]
      exact run_bounded cal beyond hname _ system led
  | none =>
      rw [handleCommand_unknown beyond hname]
      have hreply : (handleCommand cal beyond (received message) []
          (Watch.start system led)).2.1 =
            "ERR Unknown command \"".toList ++ messageName (received message) ++ ['"'] := by
        rw [messageName] at hname ⊢
        simp only [handleCommand, hname]
      have hroom : (Fill.str .response ("ERR Unknown command \"".toList ++
          messageName (received message) ++ ['"'])).Fits ↔
            (messageName (received message)).length ≤ 489 := by
        have hword : "ERR Unknown command \"".toList.length = 21 := by decide
        simp only [Fill.Fits, Fill.str, Buffer.size, retSize, List.length_append, hword,
          List.length_singleton]
        omega
      rw [hreply, List.forall_mem_singleton, hroom]
      simp only [true_imp_iff]
      have hnothing : (Watch.start system led).Bounded :=
        iff_of_true (fun _ hf => absurd hf List.not_mem_nil) fun _ hn =>
          absurd hn List.not_mem_nil
      exact and_congr Iff.rfl hnothing

end Messages

/-! ## A line with bytes on it -/

/-- A host that has bytes pending on its serial line, and no MCU. -/
structure Pending where
  bytes : Bytes
  deriving DecidableEq, Repr

instance : Host Pending where
  clearSerialPort s := ⟨drain s.bytes⟩
  writeByte _ s := (true, s)
  readByte s := (none, s)
  arrived s := s.bytes
  stack _ := []
  time s := (0, s)
  settimeofday _ s := (true, s)

def dark : LedShadow := { trigger := [], brightness := -1 }

theorem quiet_line_fits :
    ¬ ∃ f ∈ messageFills flatCalendar 0 "DeviceReady\n".toList
      (.start (Pending.mk [0xfb]) dark), ¬ f.Fits := by
  rintro ⟨f, hf, hnot⟩
  exact hnot ((fills_fit_iff flatCalendar 0 (by decide) (Pending.mk [0xfb]) dark).mpr
    ⟨by decide +kernel, by decide +kernel⟩ f hf)

/-- With 22 bytes on the line, or a word of 490 characters, a buffer is overrun. -/
theorem buffers_overrun :
    (∃ f ∈ messageFills flatCalendar 0 "DeviceReady\n".toList
        (.start (Pending.mk (List.replicate 22 0)) dark), f = ⟨.clearMsg, 67⟩ ∧ ¬ f.Fits) ∧
      ∃ f ∈ messageFills flatCalendar 0 (List.replicate 490 'x' ++ ['\n'])
        (.start (Pending.mk []) dark), f = ⟨.response, 513⟩ ∧ ¬ f.Fits := by
  constructor
  · decide +kernel
  · decide +kernel

end AltF.Mcu.Handlers
