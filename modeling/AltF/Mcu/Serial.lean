/-
  Mcu/Serial.lean --- the exchanges of dns320l-daemon.c with the MCU, over any
  serial port.

  The port is what the daemon's system calls act on; `SerialPort` is the calls it
  makes.  The stack buffer of `_SendCommand` is a parameter: C leaves it
  uninitialised, and what an earlier frame left in it is what the results on
  reception are about.
-/
import AltF.Mcu.Commands

set_option autoImplicit false

namespace AltF.Mcu

open AltF.Foundation

/-! ## The port -/

/-- The system calls on the serial descriptor. -/
class SerialPort (σ : Type) where
  /-- The `poll` and the reads of `ClearSerialPort`. -/
  clearSerialPort : σ → σ
  /-- `write(fd, &b, 1)`, and whether it returned 1. -/
  writeByte : UInt8 → σ → Bool × σ
  /-- `read(fd, &b, 1)`; `none` is a read that returned no byte. -/
  readByte : σ → Option UInt8 × σ

/-- `sizeof(buf)` in `ClearSerialPort`. -/
def clearBlock : Nat := 64

/-- The reads of `ClearSerialPort`, on the bytes that have arrived. -/
def drainLoop (arrived : Bytes) : Bytes :=
  let buf := arrived.take clearBlock
  if buf.length = clearBlock then drainLoop (arrived.drop clearBlock)
  else arrived.drop clearBlock
termination_by arrived.length
decreasing_by
  have hlen : (arrived.take clearBlock).length = clearBlock := by assumption
  simp only [List.length_take, List.length_drop, clearBlock] at hlen ⊢
  omega

/-- `ClearSerialPort`, on the bytes that have arrived: without any, `poll` finds
nothing to read. -/
def drain (arrived : Bytes) : Bytes :=
  if arrived = [] then arrived else drainLoop arrived

/-- The loop ends with a read that found less than a full block. -/
theorem drainLoop_eq_nil (arrived : Bytes) : drainLoop arrived = [] := by
  fun_induction drainLoop arrived with
  | case1 arrived buf hfull ih => exact ih
  | case2 arrived buf hshort =>
      simp only [buf, List.length_take] at hshort
      rw [List.drop_eq_nil_iff]
      omega

/-- **Nothing that has arrived survives `ClearSerialPort`.** -/
theorem drain_eq_nil (arrived : Bytes) : drain arrived = [] := by
  unfold drain
  split
  · assumption
  · exact drainLoop_eq_nil arrived

section Exchange

variable {σ : Type} [SerialPort σ]

open SerialPort

/-! ## Packets -/

/-- `send_pkt`: the bytes of `cmd` up to the stop byte, one at a time, and whether
every write succeeded. -/
def sendPkt : Bytes → σ → Bool × σ
  | [], port => (true, port)
  | b :: cmd, port =>
      let (count, port) := writeByte b port
      if count = false then (false, port)
      else if b ≠ stopMagic then sendPkt cmd port
      else (true, port)

/-- `sizeof(buf)` in `_SendCommand`. -/
def bufSize : Nat := 16

/-- `read(fd, &buf[i], 1)`, in the buffer: a read without a byte leaves it alone. -/
def fillByte (buf : Bytes) (i : Nat) (n : Option UInt8) : Bytes :=
  match n with
  | some b => buf.set i b
  | none => buf

/-- The `do` loop of `receive_pkt`: `i` after the loop, the buffer and the port.
The first argument is `bufsize - i`, how many bytes of the buffer are left. -/
def receiveLoop : Nat → Nat → Bytes → σ → Nat × Bytes × σ
  | 0, i, buf, port => (i, buf, port)
  | left + 1, i, buf, port =>
      let (n, port) := readByte port
      let buf := fillByte buf i n
      if n.isSome = true ∧ buf.getD i 0 ≠ stopMagic then receiveLoop left (i + 1) buf port
      else (i + 1, buf, port)

/-- `receive_pkt`: whether it returns `SUCCESS`, the buffer and the port.  The
byte tested is `buf[i-1]`, which a read without a byte did not fill. -/
def receivePkt (bufsize : Nat) (buf : Bytes) (port : σ) : Bool × Bytes × σ :=
  let (i, buf, port) := receiveLoop bufsize 0 buf port
  (decide (buf.getD (i - 1) 0 = stopMagic), buf, port)

/-- `CheckResponse`: the first five bytes agree. -/
def checkResponse (cmd resp : Bytes) : Bool :=
  decide (resp.take 5 = cmd.take 5)

/-! ## Commands -/

/-- What `_SendCommand` and `SendCommand` return. -/
inductive Ret where
  /-- `SUCCESS` -/
  | success
  /-- the 1 returned when `send_pkt` fails -/
  | writeFailed
  /-- `ERR_WRONG_ANSWER` -/
  | wrongAnswer
  deriving DecidableEq, Repr

/-- The end of `_SendCommand`: an ack packet is received and checked. -/
def receiveAck (out : Option Bytes) (buf : Bytes) (port : σ) : Ret × Option Bytes × σ :=
  let (ok, buf, port) := receivePkt bufSize buf port
  if ok = false then (.wrongAnswer, out, port)
  else if checkResponse ackFromSerial.frame buf = false then (.wrongAnswer, out, port)
  else (.success, out, port)

/-- `_SendCommand`: what it returns, `outArray` if one is given, and the port. -/
def sendCommandOnce (cmd : Cmd) (wantsOut : Bool) (buf : Bytes) (port : σ) :
    Ret × Option Bytes × σ :=
  let port := clearSerialPort port
  let (sent, port) := sendPkt cmd.frame port
  if sent = false then (.writeFailed, none, port)
  else if wantsOut = true then
    let (ok, buf, port) := receivePkt bufSize buf port
    if ok = false then (.wrongAnswer, none, port)
    else if checkResponse cmd.frame buf = false then (.wrongAnswer, none, port)
    else receiveAck (some buf) buf port
  else receiveAck none buf port

/-- The `do` loop of `SendCommand` with `left` retries left; `bufs` is what the
stack buffer holds at the start of each attempt. -/
def sendCommandLoop (cmd : Cmd) (wantsOut : Bool) (bufs : Nat → Bytes) :
    Nat → Nat → σ → Ret × Option Bytes × σ
  | 0, k, port => sendCommandOnce cmd wantsOut (bufs k) port
  | left + 1, k, port =>
      let (ret, out, port) := sendCommandOnce cmd wantsOut (bufs k) port
      if ret ≠ .success then sendCommandLoop cmd wantsOut bufs left (k + 1) port
      else (ret, out, port)

/-- `stDaemonConfig.nRetries`, as `main` sets it. -/
def nRetries : Nat := 2

/-- `SendCommand`. -/
def sendCommand (cmd : Cmd) (wantsOut : Bool) (bufs : Nat → Bytes) (port : σ) :
    Ret × Option Bytes × σ :=
  sendCommandLoop cmd wantsOut bufs nRetries 0 port

/-! ## What the calls leave alone -/

/-- A property of the port that reading keeps. -/
theorem receiveLoop_keeps {I : σ → Prop} (hread : ∀ port, I port → I (readByte port).2)
    (left i : Nat) (buf : Bytes) (port : σ) (h : I port) :
    I (receiveLoop left i buf port).2.2 := by
  induction left generalizing i buf port with
  | zero => exact h
  | succ left ih =>
      unfold receiveLoop
      simp only
      split
      · exact ih _ _ _ (hread port h)
      · exact hread port h

/-- A property that the first read of a packet establishes and reading keeps. -/
theorem receivePkt_keeps {I : σ → Prop} (hread : ∀ port, I port → I (readByte port).2)
    {buf : Bytes} {port : σ} (h : I (readByte port).2) :
    I (receivePkt bufSize buf port).2.2 := by
  have hloop : I (receiveLoop (15 + 1) 0 buf port).2.2 := by
    unfold receiveLoop
    simp only
    split
    · exact receiveLoop_keeps hread _ _ _ _ h
    · exact h
  exact hloop

/-- A packet is not accepted from a port whose first read returns nothing: its
first byte would be the stop byte, and no command begins with that. -/
theorem receivePkt_first (cmd : Cmd) {buf : Bytes} {port : σ}
    (hok : (receivePkt bufSize buf port).1 = true)
    (hcheck : checkResponse cmd.frame (receivePkt bufSize buf port).2.1 = true) :
    ∃ b, (readByte port).1 = some b := by
  cases hread : (readByte port).1 with
  | some b => exact ⟨b, rfl⟩
  | none =>
      have hpair : readByte port = (none, (readByte port).2) := Prod.ext hread rfl
      have hloop : receiveLoop bufSize 0 buf port = (1, buf, (readByte port).2) := by
        rw [bufSize, receiveLoop, hpair]
        rfl
      simp only [receivePkt, hloop, decide_eq_true_eq, checkResponse, Nat.sub_self] at hok hcheck
      cases buf with
      | nil => exact absurd hok (by decide)
      | cons b rest =>
          have hb : b = stopMagic := hok
          refine absurd ?_ cmd.stop_not_mem_take
          rw [← hcheck, List.take_succ_cons, hb]
          exact List.mem_cons_self

end Exchange

end AltF.Mcu
