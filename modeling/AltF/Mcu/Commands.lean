/-
  Mcu/Commands.lean --- the command frames of dns320l.h.

  A frame ends at its stop byte, and neither the stop byte nor anything like it
  stands among the first five bytes, by which an answer is matched with its
  command.  Both facts are fields of a command.
-/
import AltF.Foundation.Words

set_option autoImplicit false

namespace AltF.Mcu

open AltF.Foundation

/-- `CMD_STOP_MAGIC`. -/
def stopMagic : UInt8 := 0xfb

/-- A command: the bytes in front of the stop byte. -/
structure Cmd where
  body : Bytes
  body_length : 5 ≤ body.length := by decide
  no_stop : stopMagic ∉ body := by decide
  deriving DecidableEq

/-- The bytes of a command. -/
def Cmd.frame (cmd : Cmd) : Bytes := cmd.body ++ [stopMagic]

/-- `mcmd[3]`, by which the daemon tells the commands of one group apart. -/
def Cmd.selector (cmd : Cmd) : UInt8 := byteAt cmd.frame 3

def fanStopCmd : Cmd := { body := [0xfa, 0x02, 0x00, 0x00, 0x00, 0x00] }
def fanHalfCmd : Cmd := { body := [0xfa, 0x02, 0x00, 0x01, 0x00, 0x00] }
def fanFullCmd : Cmd := { body := [0xfa, 0x02, 0x00, 0x02, 0x00, 0x00] }

def pwrLedOffCmd : Cmd := { body := [0xfa, 0x03, 0x06, 0x00, 0x00, 0x01] }
def pwrLedOnCmd : Cmd := { body := [0xfa, 0x03, 0x06, 0x01, 0x00, 0x01] }
def pwrLedBlinkCmd : Cmd := { body := [0xfa, 0x03, 0x06, 0x02, 0x00, 0x01] }

def thermalStatusGetCmd : Cmd := { body := [0xfa, 0x03, 0x08, 0x00, 0x00, 0x00] }

def ackFromSerial : Cmd := { body := [0xfa, 0x30, 0x00, 0x00, 0x00, 0x00] }

/-- The five bytes that an answer is matched by. -/
theorem Cmd.frame_take (cmd : Cmd) : cmd.frame.take 5 = cmd.body.take 5 := by
  rw [Cmd.frame, List.take_append_of_le_length cmd.body_length]

theorem Cmd.frame_take_length (cmd : Cmd) : (cmd.frame.take 5).length = 5 := by
  have hlen := cmd.body_length
  rw [cmd.frame_take, List.length_take]
  omega

theorem Cmd.stop_not_mem_take (cmd : Cmd) : stopMagic ∉ cmd.frame.take 5 := by
  rw [cmd.frame_take]
  exact fun h => cmd.no_stop (List.mem_of_mem_take h)

end AltF.Mcu
