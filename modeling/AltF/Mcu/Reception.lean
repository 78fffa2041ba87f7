/-
  Mcu/Reception.lean --- what `_SendCommand` accepts as an answer.

  The port of this file is a script: what the reads of one attempt return, in
  order, timeouts included.  `packet` cuts the script where `receive_pkt` stops
  reading.  A packet that ends in a timeout is tested at the index of the byte
  that never came, where the buffer holds what an earlier frame, or nobody, wrote.
-/
import AltF.Mcu.Serial

set_option autoImplicit false

namespace AltF.Mcu

open AltF.Foundation

/-! ## The script of an attempt -/

/-- What the system calls of an attempt find. -/
structure Script where
  /-- What has arrived when `ClearSerialPort` polls. -/
  arrived : Bytes
  /-- Whether each `write` returns 1; the writes past the list do. -/
  writes : List Bool
  /-- What each `read` returns; the reads past the list time out. -/
  reads : List (Option UInt8)
  /-- The bytes the reads have returned so far. -/
  received : Bytes
  deriving DecidableEq, Repr

/-- The next `read`. -/
def Script.read (port : Script) : Option UInt8 × Script :=
  match port.reads with
  | [] => (none, port)
  | none :: rest => (none, { port with reads := rest })
  | some b :: rest => (some b, { port with reads := rest, received := port.received ++ [b] })

instance : SerialPort Script where
  clearSerialPort port := { port with arrived := drain port.arrived }
  writeByte _ port :=
    match port.writes with
    | [] => (true, port)
    | ok :: rest => (ok, { port with writes := rest })
  readByte port := port.read

/-! ## Packets -/

/-- Why `receive_pkt` stops reading. -/
inductive Ending where
  /-- the stop byte was received -/
  | stop
  /-- a read returned no byte -/
  | timeout
  /-- the buffer is full -/
  | full
  deriving DecidableEq, Repr

/-- What `receive_pkt` reads. -/
structure Packet where
  bytes : Bytes
  ending : Ending
  /-- The reads that are left. -/
  rest : List (Option UInt8)
  deriving DecidableEq, Repr

/-- The packet in front of a script, for a buffer with room for `left` bytes. -/
def packet : Nat → List (Option UInt8) → Packet
  | 0, reads => ⟨[], .full, reads⟩
  | _ + 1, [] => ⟨[], .timeout, []⟩
  | _ + 1, none :: reads => ⟨[], .timeout, reads⟩
  | left + 1, some b :: reads =>
      if b = stopMagic then ⟨[b], .stop, reads⟩
      else
        let p := packet left reads
        { p with bytes := b :: p.bytes }

theorem packet_length (left : Nat) (reads : List (Option UInt8)) :
    (packet left reads).bytes.length ≤ left ∧
      ((packet left reads).ending = .full → (packet left reads).bytes.length = left) ∧
      ((packet left reads).ending = .timeout → (packet left reads).bytes.length < left) := by
  fun_induction packet left reads with
  | case1 reads => simp
  | case2 left => simp
  | case3 left reads => simp
  | case4 left reads => simp
  | case5 left b reads hne p ih =>
      change p.bytes.length ≤ left ∧ (p.ending = .full → p.bytes.length = left) ∧
        (p.ending = .timeout → p.bytes.length < left) at ih
      obtain ⟨hle, hfull, htimeout⟩ := ih
      simp only [List.length_cons]
      refine ⟨by omega, fun h => ?_, fun h => ?_⟩
      · have := hfull h
        omega
      · have := htimeout h
        omega

/-- The stop byte is the last byte of a packet that ends with it, and stands
nowhere else. -/
theorem packet_stop (left : Nat) (reads : List (Option UInt8)) :
    ∃ body, stopMagic ∉ body ∧ (packet left reads).bytes =
      body ++ if (packet left reads).ending = .stop then [stopMagic] else [] := by
  fun_induction packet left reads with
  | case1 reads => exact ⟨[], by simp⟩
  | case2 left => exact ⟨[], by simp⟩
  | case3 left reads => exact ⟨[], by simp⟩
  | case4 left reads => exact ⟨[], by simp⟩
  | case5 left b reads hne p ih =>
      obtain ⟨body, hbody, hbytes⟩ := ih
      refine ⟨b :: body, ?_, ?_⟩
      · simp only [List.mem_cons, not_or]
        exact ⟨fun h => hne h.symm, hbody⟩
      · rw [List.cons_append, ← hbytes]

theorem packet_count (left : Nat) (reads : List (Option UInt8)) :
    (packet left reads).bytes.count stopMagic =
      if (packet left reads).ending = .stop then 1 else 0 := by
  obtain ⟨body, hbody, hbytes⟩ := packet_stop left reads
  rw [hbytes, List.count_append, List.count_eq_zero_of_not_mem hbody]
  split <;> rfl

/-! ## The loop on a script -/

/-- The buffer after `bytes` were read into it from index `i` on. -/
def overlay (buf : Bytes) (i : Nat) (bytes : Bytes) : Bytes :=
  buf.take i ++ (bytes ++ buf.drop (i + bytes.length))

theorem overlay_nil (buf : Bytes) (i : Nat) : overlay buf i [] = buf := by
  simp only [overlay, List.length_nil, Nat.add_zero, List.nil_append, List.take_append_drop]

/-- One byte first, the others behind it. -/
theorem overlay_cons {buf : Bytes} {i : Nat} (b : UInt8) (bytes : Bytes) (hi : i < buf.length) :
    overlay (buf.set i b) (i + 1) bytes = overlay buf i (b :: bytes) := by
  have htake : (buf.set i b).take (i + 1) = buf.take i ++ [b] := by
    rw [List.take_succ_eq_append_getElem (by rwa [List.length_set]),
      List.take_set_of_le (Nat.le_refl i), List.getElem_set_self]
  have hdrop : (buf.set i b).drop (i + 1 + bytes.length) = buf.drop (i + 1 + bytes.length) := by
    rw [List.drop_set_of_lt (by omega)]
  rw [overlay, overlay, htake, hdrop, List.length_cons, List.append_assoc, List.singleton_append,
    List.cons_append, Nat.add_assoc, Nat.add_comm 1]

theorem overlay_length {buf : Bytes} {i : Nat} {bytes : Bytes}
    (h : i + bytes.length ≤ buf.length) : (overlay buf i bytes).length = buf.length := by
  simp only [overlay, List.length_append, List.length_take, List.length_drop]
  omega

/-- The index after the loop: one past the last byte, or past the byte that never
came. -/
def Packet.index (p : Packet) : Nat :=
  p.bytes.length + if p.ending = .timeout then 1 else 0

/-- The script after a packet was read from it. -/
def Script.after (port : Script) (p : Packet) : Script :=
  { port with reads := p.rest, received := port.received ++ p.bytes }

/-- **The loop reads the packet** in front of the script into the buffer. -/
theorem receiveLoop_script (left i : Nat) (buf : Bytes) (port : Script)
    (hlen : buf.length = i + left) :
    receiveLoop left i buf port =
      (i + (packet left port.reads).index, overlay buf i (packet left port.reads).bytes,
        port.after (packet left port.reads)) := by
  induction left generalizing i buf port with
  | zero => simp [receiveLoop, packet, Packet.index, Script.after, overlay_nil]
  | succ left ih =>
      obtain ⟨arrived, writes, reads, received⟩ := port
      cases reads with
      | nil =>
          simp [receiveLoop, SerialPort.readByte, Script.read, fillByte, packet, Packet.index,
            Script.after, overlay_nil]
      | cons r rest =>
          cases r with
          | none =>
              simp [receiveLoop, SerialPort.readByte, Script.read, fillByte, packet, Packet.index,
                Script.after, overlay_nil]
          | some b =>
              have hi : i < buf.length := by omega
              have hget : (buf.set i b).getD i 0 = b := by
                simp [List.getD_eq_getElem?_getD, hi]
              by_cases hstop : b = stopMagic
              · have hone : overlay buf i [b] = buf.set i b := by
                  rw [← overlay_cons b [] hi, overlay_nil]
                subst hstop
                simp only [receiveLoop, SerialPort.readByte, Script.read, fillByte, hget, packet,
                  Packet.index, Script.after, hone, ne_eq, not_true_eq_false, and_false, if_false,
                  if_true, reduceCtorEq, List.length_cons, List.length_nil, Nat.zero_add,
                  Nat.add_zero]
              · have hnext := ih (i + 1) (buf.set i b)
                  ⟨arrived, writes, rest, received ++ [b]⟩ (by rw [List.length_set]; omega)
                have hloop : receiveLoop (left + 1) i buf
                    (⟨arrived, writes, some b :: rest, received⟩ : Script) =
                    receiveLoop left (i + 1) (buf.set i b)
                      (⟨arrived, writes, rest, received ++ [b]⟩ : Script) := by
                  simp only [receiveLoop, SerialPort.readByte, Script.read, fillByte, hget,
                    Option.isSome_some, ne_eq, hstop, not_false_eq_true, and_self, if_true]
                rw [hloop, hnext, overlay_cons b _ hi]
                simp only [packet, if_neg hstop, Packet.index, Script.after, List.length_cons,
                  List.append_assoc, List.singleton_append]
                congr 1
                omega

/-! ## What is accepted -/

/-- The test of `receive_pkt` passes: the packet ends with the stop byte, or with
a timeout where the buffer already holds one. -/
def Packet.Ends (p : Packet) (buf : Bytes) : Prop :=
  p.ending = .stop ∨ p.ending = .timeout ∧ buf.getD p.bytes.length 0 = stopMagic

instance (p : Packet) (buf : Bytes) : Decidable (p.Ends buf) :=
  inferInstanceAs (Decidable (_ ∨ _))

/-- The packet is taken for an answer to `cmd`. -/
def Packet.Accepted (p : Packet) (cmd : Cmd) (buf : Bytes) : Prop :=
  p.Ends buf ∧ p.bytes.take 5 = cmd.frame.take 5

instance (p : Packet) (cmd : Cmd) (buf : Bytes) : Decidable (p.Accepted cmd buf) :=
  inferInstanceAs (Decidable (_ ∧ _))

section Buffer

variable {buf : Bytes} (reads : List (Option UInt8))

/-- The byte `receive_pkt` tests. -/
theorem tested_iff :
    (overlay buf 0 (packet bufSize reads).bytes).getD ((packet bufSize reads).index - 1) 0 =
      stopMagic ↔ (packet bufSize reads).Ends buf := by
  obtain ⟨hle, hfull, htimeout⟩ := packet_length bufSize reads
  obtain ⟨body, hbody, hbytes⟩ := packet_stop bufSize reads
  generalize packet bufSize reads = p at hle hfull htimeout hbytes ⊢
  simp only [Packet.Ends, Packet.index, overlay, List.take_zero, List.nil_append, Nat.zero_add,
    List.getD_eq_getElem?_getD]
  cases hend : p.ending with
  | stop =>
      simp only [hend, if_true] at hbytes
      simp [hbytes]
  | timeout =>
      have hlt := htimeout hend
      rw [if_pos rfl, Nat.add_sub_cancel, List.getElem?_append_right (Nat.le_refl _), Nat.sub_self,
        List.getElem?_drop, Nat.add_zero]
      simp
  | full =>
      have hlen := hfull hend
      have hno : stopMagic ∉ p.bytes := by
        simpa [hbytes, hend] using hbody
      have hlast : p.bytes.length - 1 < p.bytes.length := by
        rw [hlen]
        decide
      simp only [reduceCtorEq, if_false, Nat.add_zero, false_and, or_self, iff_false]
      rw [List.getElem?_append_left hlast, List.getElem?_eq_getElem hlast, Option.getD_some]
      exact fun h => hno (h ▸ List.getElem_mem hlast)

/-- Behind a passed test the check of the first five bytes sees received bytes
only: a stop byte among the first five is in no command. -/
theorem checkResponse_overlay_iff (cmd : Cmd) (hbuf : buf.length = bufSize)
    (hends : (packet bufSize reads).Ends buf) :
    checkResponse cmd.frame (overlay buf 0 (packet bufSize reads).bytes) = true ↔
      (packet bufSize reads).bytes.take 5 = cmd.frame.take 5 := by
  rw [checkResponse, decide_eq_true_eq]
  by_cases hlen : 5 ≤ (packet bufSize reads).bytes.length
  · rw [overlay, List.take_zero, List.nil_append, List.take_append_of_le_length hlen]
  · refine iff_of_false (fun h => ?_) (fun h => ?_)
    · have htested := (tested_iff reads).mpr hends
      have hindex : (packet bufSize reads).index - 1 < 5 := by
        unfold Packet.index
        split <;> omega
      have hshort : (overlay buf 0 (packet bufSize reads).bytes).length = bufSize := by
        rw [overlay_length (by have := (packet_length bufSize reads).1; omega), hbuf]
      have hin : (packet bufSize reads).index - 1 <
          (overlay buf 0 (packet bufSize reads).bytes).length := by
        rw [hshort]
        exact Nat.lt_trans hindex (by decide)
      refine cmd.stop_not_mem_take (h ▸ ?_)
      rw [List.getD_eq_getElem?_getD, List.getElem?_eq_getElem hin, Option.getD_some] at htested
      exact List.mem_take_iff_getElem.mpr ⟨_, by omega, htested⟩
    · have hfive := congrArg List.length h
      rw [cmd.frame_take_length, List.length_take] at hfive
      omega

/-- `receive_pkt` and `CheckResponse` together accept exactly that. -/
theorem receivePkt_script (port : Script) (hbuf : buf.length = bufSize) :
    receivePkt bufSize buf port =
      (decide ((packet bufSize port.reads).Ends buf),
        overlay buf 0 (packet bufSize port.reads).bytes,
        port.after (packet bufSize port.reads)) := by
  have hloop := receiveLoop_script bufSize 0 buf port (by rw [hbuf, Nat.zero_add])
  simp only [receivePkt, hloop, Nat.zero_add, tested_iff port.reads]

end Buffer

/-! ## One attempt -/

/-- Every write of the frame returns 1. -/
def Sent (cmd : Cmd) (writes : List Bool) : Prop :=
  (writes.take cmd.frame.length).all id = true

instance (cmd : Cmd) (writes : List Bool) : Decidable (Sent cmd writes) :=
  inferInstanceAs (Decidable (_ = _))

/-- What is left of the writes when `n` bytes were to be written. -/
def unwritten : Nat → List Bool → List Bool
  | 0, writes => writes
  | _ + 1, [] => []
  | n + 1, true :: writes => unwritten n writes
  | _ + 1, false :: writes => writes

/-- The script when a frame was written, or a write of it failed. -/
def Script.written (port : Script) (cmd : Cmd) : Script :=
  { port with
    arrived := drain port.arrived
    writes := unwritten cmd.frame.length port.writes }

/-- `send_pkt` only uses up writes. -/
theorem sendPkt_unwritten {body : Bytes} (hno : stopMagic ∉ body) (port : Script) :
    sendPkt (body ++ [stopMagic]) port =
      ((port.writes.take (body ++ [stopMagic]).length).all id,
        { port with writes := unwritten (body ++ [stopMagic]).length port.writes }) := by
  induction body generalizing port with
  | nil =>
      obtain ⟨arrived, writes, reads, received⟩ := port
      rcases writes with _ | ⟨_ | _, rest⟩ <;> rfl
  | cons b body ih =>
      obtain ⟨hb, hbody⟩ : b ≠ stopMagic ∧ stopMagic ∉ body := by
        simp only [List.mem_cons, not_or] at hno
        exact ⟨fun h => hno.1 h.symm, hno.2⟩
      obtain ⟨arrived, writes, reads, received⟩ := port
      rcases writes with _ | ⟨_ | _, rest⟩
      · have hrest := ih hbody ⟨arrived, [], reads, received⟩
        have hnone : ∀ n, unwritten n [] = [] := by
          intro n
          cases n <;> rfl
        simpa [sendPkt, SerialPort.writeByte, hb, unwritten, hnone] using hrest
      · rfl
      · have hrest := ih hbody ⟨arrived, rest, reads, received⟩
        simpa [sendPkt, SerialPort.writeByte, hb, unwritten] using hrest

theorem sendPkt_frame (cmd : Cmd) (port : Script) :
    sendPkt cmd.frame (SerialPort.clearSerialPort port) =
      ((port.writes.take cmd.frame.length).all id, port.written cmd) :=
  sendPkt_unwritten cmd.no_stop (SerialPort.clearSerialPort port)

/-- The end of an attempt, on a script. -/
theorem receiveAck_script {buf : Bytes} (out : Option Bytes) (port : Script)
    (hbuf : buf.length = bufSize) :
    receiveAck out buf port =
      (if (packet bufSize port.reads).Accepted ackFromSerial buf then .success else .wrongAnswer,
        out, port.after (packet bufSize port.reads)) := by
  rw [receiveAck, receivePkt_script port hbuf]
  by_cases hends : (packet bufSize port.reads).Ends buf
  · have hcheck := checkResponse_overlay_iff port.reads ackFromSerial hbuf hends
    by_cases htake :
        (packet bufSize port.reads).bytes.take 5 = ackFromSerial.frame.take 5
    · simp [Packet.Accepted, hends, htake, hcheck.mpr htake]
    · have hfalse := mt hcheck.mp htake
      simp [Packet.Accepted, hends, htake, hfalse]
  · simp [Packet.Accepted, hends]

section Attempt

variable {cmd : Cmd} {buf : Bytes}

/-- An attempt that is not sent fails. -/
theorem sendCommandOnce_unsent (port : Script) (wantsOut : Bool) (h : ¬ Sent cmd port.writes) :
    sendCommandOnce cmd wantsOut buf port = (.writeFailed, none, port.written cmd) := by
  have hunsent : (port.writes.take cmd.frame.length).all id = false := Bool.not_eq_true _ ▸ h
  simp only [sendCommandOnce, sendPkt_frame, hunsent, if_true]

/-- Without `outArray` the packet received is the ack. -/
theorem sendCommandOnce_sent_false (port : Script) (h : Sent cmd port.writes)
    (hbuf : buf.length = bufSize) :
    sendCommandOnce cmd false buf port =
      (if (packet bufSize port.reads).Accepted ackFromSerial buf then .success else .wrongAnswer,
        none, (port.written cmd).after (packet bufSize port.reads)) := by
  have hsent : (port.writes.take cmd.frame.length).all id = true := h
  simp only [sendCommandOnce, sendPkt_frame, hsent, Bool.true_eq_false, Bool.false_eq_true,
    if_false]
  exact receiveAck_script none (port.written cmd) hbuf

/-- With `outArray` a response is received in front of the ack. -/
theorem sendCommandOnce_sent_true (port : Script) (h : Sent cmd port.writes)
    (hbuf : buf.length = bufSize) :
    let p := packet bufSize port.reads
    let q := packet bufSize p.rest
    sendCommandOnce cmd true buf port =
      if ¬ p.Accepted cmd buf then (.wrongAnswer, none, (port.written cmd).after p)
      else (if q.Accepted ackFromSerial (overlay buf 0 p.bytes) then .success else .wrongAnswer,
        some (overlay buf 0 p.bytes), ((port.written cmd).after p).after q) := by
  intro p q
  have hsent : (port.writes.take cmd.frame.length).all id = true := h
  have hrecv : receivePkt bufSize buf (port.written cmd) =
      (decide (p.Ends buf), overlay buf 0 p.bytes, (port.written cmd).after p) :=
    receivePkt_script (port.written cmd) hbuf
  have hlen : (overlay buf 0 p.bytes).length = bufSize := by
    have hle : p.bytes.length ≤ bufSize := (packet_length bufSize port.reads).1
    rw [overlay_length (by omega), hbuf]
  simp only [sendCommandOnce, sendPkt_frame, hsent, Bool.true_eq_false, if_false, if_true, hrecv]
  by_cases hends : p.Ends buf
  · have hcheck : checkResponse cmd.frame (overlay buf 0 p.bytes) = true ↔
        p.bytes.take 5 = cmd.frame.take 5 := checkResponse_overlay_iff port.reads cmd hbuf hends
    by_cases htake : p.bytes.take 5 = cmd.frame.take 5
    · rw [if_neg (not_not.mpr (show p.Accepted cmd buf from ⟨hends, htake⟩))]
      simp only [hends, hcheck.mpr htake, decide_true, Bool.true_eq_false, if_false]
      exact receiveAck_script _ _ hlen
    · rw [if_pos fun haccepted : p.Accepted cmd buf => htake haccepted.2]
      have hfalse := Bool.not_eq_true _ ▸ mt hcheck.mp htake
      simp only [hends, hfalse, decide_true, Bool.true_eq_false, if_false, if_true]
  · rw [if_pos fun haccepted : p.Accepted cmd buf => hends haccepted.1]
    simp only [hends, decide_false, if_true]

end Attempt

/-! ## The main result -/

/-- A frame of at most 16 bytes that begins like `cmd` and ends with the stop
byte. -/
structure IsFrame (cmd : Cmd) (frame : Bytes) : Prop where
  length_le : frame.length ≤ bufSize
  head : frame.take 5 = cmd.frame.take 5
  last : frame.getLast? = some stopMagic

/-- The bytes received are what a successful attempt reports: an ack, and with
`outArray` a response in front of it, which `outArray` begins with. -/
def Genuine (cmd : Cmd) (out : Option Bytes) (received : Bytes) : Prop :=
  match out with
  | none => IsFrame ackFromSerial received
  | some out => ∃ response ack, received = response ++ ack ∧ IsFrame cmd response ∧
      IsFrame ackFromSerial ack ∧ response <+: out

/-- The frame is sent, every packet is accepted, and one of them ends in a
timeout: its stop byte is one the buffer held before. -/
def StaleAccepted (cmd : Cmd) (wantsOut : Bool) (buf : Bytes) (writes : List Bool)
    (reads : List (Option UInt8)) : Prop :=
  Sent cmd writes ∧
  let p := packet bufSize reads
  if wantsOut = true then
    let q := packet bufSize p.rest
    p.Accepted cmd buf ∧ q.Accepted ackFromSerial (overlay buf 0 p.bytes) ∧
      (p.ending = .timeout ∨ q.ending = .timeout)
  else p.Accepted ackFromSerial buf ∧ p.ending = .timeout

/-- A packet that is accepted by its own stop byte is a frame. -/
theorem isFrame_of_accepted {cmd : Cmd} {buf : Bytes} {reads : List (Option UInt8)}
    (h : (packet bufSize reads).Accepted cmd buf)
    (hend : (packet bufSize reads).ending ≠ .timeout) :
    IsFrame cmd (packet bufSize reads).bytes where
  length_le := (packet_length bufSize reads).1
  head := h.2
  last := by
    obtain ⟨body, -, hbytes⟩ := packet_stop bufSize reads
    have hstop : (packet bufSize reads).ending = .stop :=
      h.1.resolve_right fun htimeout => hend htimeout.1
    rw [hbytes, if_pos hstop, List.getLast?_concat]

/-- A frame holds a stop byte. -/
theorem IsFrame.count_pos {cmd : Cmd} {frame : Bytes} (h : IsFrame cmd frame) :
    0 < frame.count stopMagic :=
  List.count_pos_iff.mpr (List.mem_of_getLast? h.last)

/-- Response and ack hold two stop bytes. -/
theorem Genuine.two_le_count {cmd : Cmd} {out received : Bytes}
    (h : Genuine cmd (some out) received) : 2 ≤ received.count stopMagic := by
  obtain ⟨response, ack, rfl, hresponse, hack, -⟩ := h
  have h₁ := hresponse.count_pos
  have h₂ := hack.count_pos
  rw [List.count_append]
  omega

/-- What a packet that ended in a timeout holds. -/
theorem packet_count_timeout {reads : List (Option UInt8)}
    (h : (packet bufSize reads).ending = .timeout) :
    (packet bufSize reads).bytes.count stopMagic = 0 := by
  rw [packet_count, h, if_neg (by decide)]

theorem packet_count_le (reads : List (Option UInt8)) :
    (packet bufSize reads).bytes.count stopMagic ≤ 1 := by
  rw [packet_count]
  split <;> omega

/-- **Reception.**  An attempt that reports success has received what it reports
exactly when no packet it accepted ended in a timeout, whatever arrives, wherever
the timeouts fall, and whatever the buffer held. -/
theorem success_genuine_iff (cmd : Cmd) (wantsOut : Bool) (buf : Vector UInt8 bufSize)
    (arrived : Bytes) (writes : List Bool) (reads : List (Option UInt8)) :
    let res := sendCommandOnce cmd wantsOut buf.toList (⟨arrived, writes, reads, []⟩ : Script)
    (res.1 = .success → Genuine cmd res.2.1 res.2.2.received) ↔
      ¬ StaleAccepted cmd wantsOut buf.toList writes reads := by
  intro res
  have hbuf : buf.toList.length = bufSize := buf.length_toList
  by_cases hsent : Sent cmd writes
  swap
  · have hfail : res.1 = .writeFailed :=
      congrArg Prod.fst (sendCommandOnce_unsent ⟨arrived, writes, reads, []⟩ wantsOut hsent)
    simp [hfail, StaleAccepted, hsent]
  cases wantsOut with
  | false =>
      have hres := sendCommandOnce_sent_false ⟨arrived, writes, reads, []⟩ hsent hbuf
      simp only [res, hres, StaleAccepted, hsent, true_and, Bool.false_eq_true, if_false,
        Script.after, Script.written, List.nil_append]
      by_cases haccepted : (packet bufSize reads).Accepted ackFromSerial buf.toList
      · simp only [haccepted, if_true, true_imp_iff, true_and]
        constructor
        · intro hframe htimeout
          have hpos := hframe.count_pos
          rw [packet_count_timeout htimeout] at hpos
          omega
        · exact isFrame_of_accepted haccepted
      · simp [haccepted]
  | true =>
      have hres := sendCommandOnce_sent_true ⟨arrived, writes, reads, []⟩ hsent hbuf
      by_cases hfirst : (packet bufSize reads).Accepted cmd buf.toList
      swap
      · simp [res, hres, StaleAccepted, hfirst]
      · simp only [res, hres, StaleAccepted, hsent, true_and, if_true, hfirst, not_true_eq_false,
          if_false, Script.after, Script.written, List.nil_append]
        by_cases haccepted : (packet bufSize (packet bufSize reads).rest).Accepted ackFromSerial
            (overlay buf.toList 0 (packet bufSize reads).bytes)
        · simp only [haccepted, if_true, true_imp_iff, true_and, not_or]
          constructor
          · intro hgenuine
            -- Two frames hold two stop bytes, and a packet at most one.
            have hcount := hgenuine.two_le_count
            rw [List.count_append] at hcount
            have hp := packet_count_le reads
            have hq := packet_count_le (packet bufSize reads).rest
            constructor
            · intro htimeout
              rw [packet_count_timeout htimeout] at hcount
              omega
            · intro htimeout
              rw [packet_count_timeout htimeout] at hcount
              omega
          · rintro ⟨hp, hq⟩
            refine ⟨_, _, rfl, isFrame_of_accepted hfirst hp, isFrame_of_accepted haccepted hq, ?_⟩
            rw [overlay, List.take_zero, List.nil_append]
            exact List.prefix_append _ _
        · simp [haccepted]

/-- The reads of an exchange in which the response comes whole, and of the ack all
but its stop byte, in whose place the buffer still holds that of the response. -/
def unstoppedAck : List (Option UInt8) :=
  (thermalStatusGetCmd.frame ++ ackFromSerial.body).map some

/-- The attempt succeeds without having received an ack frame. -/
theorem success_not_genuine :
    let res := sendCommandOnce thermalStatusGetCmd true (Vector.replicate bufSize 0).toList
      (⟨[], [], unstoppedAck, []⟩ : Script)
    res.1 = .success ∧ ¬ Genuine thermalStatusGetCmd res.2.1 res.2.2.received := by
  have hout : (sendCommandOnce thermalStatusGetCmd true (Vector.replicate bufSize 0).toList
      (⟨[], [], unstoppedAck, []⟩ : Script)).2.1 =
        some (thermalStatusGetCmd.frame ++ List.replicate 9 0) := by
    decide +kernel
  refine ⟨by decide +kernel, fun h => ?_⟩
  rw [hout] at h
  exact absurd h.two_le_count (by decide +kernel)

end AltF.Mcu
