/-
  Mcu/Line.lean --- the serial line as two queues, and the acks on it.

  The MCU acks every frame it receives, and any frame may be lost and any byte
  delayed.  An ack says nothing of the frame it answers, so a late one is taken
  for the ack of the next command.  `ClearSerialPort` drops what has arrived when
  it polls; what is still on its way it cannot drop.
-/
import AltF.Foundation.Runs
import AltF.Mcu.Serial

set_option autoImplicit false

namespace AltF.Mcu

open AltF.Foundation

/-! ## The line -/

/-- The two queues of the line, and the MCU at its end. -/
structure Line where
  /-- The bytes of a frame that is being written. -/
  sending : Bytes
  /-- The frames on their way to the MCU. -/
  toMcu : List Bytes
  /-- The frames the MCU has received. -/
  received : List Bytes
  /-- The bytes of the MCU that have not arrived yet. -/
  transit : Bytes
  /-- The bytes the host can read. -/
  arrived : Bytes
  deriving DecidableEq, Repr

/-- What happens on the line between two system calls of the host. -/
inductive Event where
  /-- The next frame to the MCU is lost. -/
  | lose
  /-- The MCU receives the next frame and answers it: a response, which may be
  empty, and an ack. -/
  | answer (response : Bytes)
  /-- The next byte of the MCU arrives. -/
  | arrive
  deriving DecidableEq, Repr

def Line.event (line : Line) : Event → Line
  | .lose => { line with toMcu := line.toMcu.tail }
  | .answer response =>
      match line.toMcu with
      | [] => line
      | frame :: rest =>
          { line with
            toMcu := rest
            received := line.received ++ [frame]
            transit := line.transit ++ (response ++ ackFromSerial.frame) }
  | .arrive =>
      match line.transit with
      | [] => line
      | b :: rest => { line with transit := rest, arrived := line.arrived ++ [b] }

/-- The line together with what will happen on it: the events in front of each
system call, none past the end of the list. -/
structure Port where
  line : Line
  events : List (List Event)
  deriving DecidableEq, Repr

/-- The line when the next system call is made. -/
def Port.now (port : Port) : Line := (port.events.headD []).foldl Line.event port.line

/-- `write` of one byte: the stop byte completes a frame. -/
def Line.write (line : Line) (b : UInt8) : Line :=
  if b = stopMagic then
    { line with toMcu := line.toMcu ++ [line.sending ++ [b]], sending := [] }
  else { line with sending := line.sending ++ [b] }

instance : SerialPort Port where
  clearSerialPort port := ⟨{ port.now with arrived := drain port.now.arrived }, port.events.tail⟩
  writeByte b port := (true, ⟨port.now.write b, port.events.tail⟩)
  readByte port :=
    match port.now.arrived with
    | [] => (none, ⟨port.now, port.events.tail⟩)
    | b :: rest => (some b, ⟨{ port.now with arrived := rest }, port.events.tail⟩)

/-- One call of `SendCommand`. -/
structure Call where
  cmd : Cmd
  /-- Whether `outArray` is given. -/
  wantsOut : Bool
  /-- What the stack buffer holds at each attempt. -/
  bufs : Nat → Bytes
  events : List (List Event)

/-- What a call returns. -/
def Call.ret (line : Line) (call : Call) : Ret :=
  (sendCommand call.cmd call.wantsOut call.bufs (⟨line, call.events⟩ : Port)).1

/-- The line after a call. -/
def Call.step (line : Line) (call : Call) : Line :=
  (sendCommand call.cmd call.wantsOut call.bufs (⟨line, call.events⟩ : Port)).2.2.line

/-! ## What an ack proves -/

/-- The MCU has received `frame` since it had received `n` frames. -/
def Line.ReceivedSince (line : Line) (n : Nat) (frame : Bytes) : Prop :=
  frame ∈ line.received.drop n

instance (line : Line) (n : Nat) (frame : Bytes) : Decidable (line.ReceivedSince n frame) :=
  inferInstanceAs (Decidable (_ ∈ _))

/-- Nothing on the line is older than the call: the frames under way are frames
of the command, and a byte of the MCU says that it has received one of them. -/
structure Fresh (n : Nat) (frame : Bytes) (line : Line) : Prop where
  le : n ≤ line.received.length
  toMcu : ∀ f ∈ line.toMcu, f = frame
  answered : line.ReceivedSince n frame ∨ line.transit = [] ∧ line.arrived = []

section Fresh

variable {n : Nat} {frame : Bytes} {line : Line}

theorem Fresh.event (h : Fresh n frame line) (e : Event) : Fresh n frame (line.event e) := by
  obtain ⟨sending, toMcu, received, transit, arrived⟩ := line
  obtain ⟨hle, hqueue, hanswered⟩ := h
  cases e with
  | lose => exact ⟨hle, fun f hf => hqueue f (List.mem_of_mem_tail hf), hanswered⟩
  | answer response =>
      cases toMcu with
      | nil => exact ⟨hle, hqueue, hanswered⟩
      | cons f rest =>
          have hf : f = frame := hqueue f List.mem_cons_self
          refine ⟨?_, fun g hg => hqueue g (List.mem_cons_of_mem _ hg), Or.inl ?_⟩
          · simp only [Line.event, List.length_append]
            exact Nat.le_trans hle (Nat.le_add_right _ _)
          · simp only [Line.event, Line.ReceivedSince]
            rw [List.drop_append_of_le_length hle, hf]
            exact List.mem_append_right _ List.mem_cons_self
  | arrive =>
      cases transit with
      | nil => exact ⟨hle, hqueue, hanswered⟩
      | cons b rest =>
          have hseen := hanswered.resolve_right fun hempty => List.cons_ne_nil _ _ hempty.1
          exact ⟨hle, hqueue, Or.inl hseen⟩

theorem Fresh.events (h : Fresh n frame line) (es : List Event) :
    Fresh n frame (es.foldl Line.event line) := by
  induction es generalizing line with
  | nil => exact h
  | cons e es ih => exact ih (h.event e)

/-- A byte can be read only when the MCU has answered. -/
theorem Fresh.answered_of_arrived (h : Fresh n frame line) (hne : line.arrived ≠ []) :
    line.ReceivedSince n frame :=
  h.answered.resolve_right fun hempty => hne hempty.2

/-- Reading or dropping bytes leaves the line fresh. -/
theorem Fresh.take (h : Fresh n frame line) {arrived : Bytes}
    (hempty : line.arrived = [] → arrived = []) :
    Fresh n frame { line with arrived := arrived } :=
  ⟨h.le, h.toMcu, h.answered.imp_right fun hnone => ⟨hnone.1, hempty hnone.2⟩⟩

end Fresh

/-- The MCU never unreceives a frame. -/
theorem Line.ReceivedSince.event {n : Nat} {frame : Bytes} {line : Line}
    (h : line.ReceivedSince n frame) (e : Event) : (line.event e).ReceivedSince n frame := by
  obtain ⟨sending, toMcu, received, transit, arrived⟩ := line
  cases e with
  | lose => exact h
  | answer response =>
      cases toMcu with
      | nil => exact h
      | cons f rest =>
          simp only [Line.event, Line.ReceivedSince]
          rw [List.drop_append]
          exact List.mem_append_left _ h
  | arrive => cases transit <;> exact h

theorem Line.ReceivedSince.events {n : Nat} {frame : Bytes} {line : Line}
    (h : line.ReceivedSince n frame) (es : List Event) :
    (es.foldl Line.event line).ReceivedSince n frame := by
  induction es generalizing line with
  | nil => exact h
  | cons e es ih => exact ih (h.event e)

/-! ## Through the system calls -/

/-- The line is fresh, and no frame is half written. -/
def Port.Idle (n : Nat) (frame : Bytes) (port : Port) : Prop :=
  Fresh n frame port.line ∧ port.line.sending = []

section Calls

variable {n : Nat} {frame : Bytes} {port : Port}

theorem event_sending (line : Line) (e : Event) : (line.event e).sending = line.sending := by
  obtain ⟨sending, toMcu, received, transit, arrived⟩ := line
  cases e with
  | lose => rfl
  | answer response => cases toMcu <;> rfl
  | arrive => cases transit <;> rfl

theorem now_sending (port : Port) : port.now.sending = port.line.sending := by
  unfold Port.now
  generalize port.events.headD [] = es
  generalize port.line = line
  induction es generalizing line with
  | nil => rfl
  | cons e es ih => rw [List.foldl_cons, ih, event_sending]

theorem Port.Idle.clear (h : port.Idle n frame) :
    (SerialPort.clearSerialPort port : Port).Idle n frame :=
  ⟨(h.1.events _).take fun _ => drain_eq_nil _, (now_sending port).trans h.2⟩

theorem Port.Idle.read (h : port.Idle n frame) :
    (SerialPort.readByte port : Option UInt8 × Port).2.Idle n frame := by
  have hnow : Fresh n frame port.now := h.1.events _
  have hsending : port.now.sending = [] := (now_sending port).trans h.2
  simp only [SerialPort.readByte]
  split
  · exact ⟨hnow, hsending⟩
  · rename_i hcons
    refine ⟨hnow.take fun hnil => ?_, hsending⟩
    rw [hnil] at hcons
    exact absurd hcons.symm (List.cons_ne_nil _ _)

/-- What a `read` that returns a byte proves. -/
theorem Port.Idle.read_some {b : UInt8} (h : port.Idle n frame)
    (hread : (SerialPort.readByte port : Option UInt8 × Port).1 = some b) :
    (SerialPort.readByte port : Option UInt8 × Port).2.line.ReceivedSince n frame := by
  have hnow : Fresh n frame port.now := h.1.events _
  simp only [SerialPort.readByte] at hread ⊢
  split at hread
  · cases hread
  · rename_i hcons
    exact hnow.answered_of_arrived (by rw [hcons]; exact List.cons_ne_nil _ _)

theorem Line.ReceivedSince.read (h : port.line.ReceivedSince n frame) :
    (SerialPort.readByte port : Option UInt8 × Port).2.line.ReceivedSince n frame := by
  have hnow : port.now.ReceivedSince n frame := h.events _
  simp only [SerialPort.readByte]
  split
  · exact hnow
  · exact hnow

/-- Writing the rest of a frame. -/
theorem sendPkt_line {cmd : Cmd} {written rest : Bytes} (hframe : cmd.body = written ++ rest)
    (port : Port) (hfresh : Fresh n cmd.frame port.line) (hsending : port.line.sending = written) :
    (sendPkt (rest ++ [stopMagic]) port).1 = true ∧
      (sendPkt (rest ++ [stopMagic]) port).2.Idle n cmd.frame := by
  have hnow : Fresh n cmd.frame port.now := hfresh.events _
  have hsending' : port.now.sending = written := (now_sending port).trans hsending
  induction rest generalizing written port with
  | nil =>
      refine ⟨rfl, ⟨?_, rfl⟩⟩
      have hline : (sendPkt ([] ++ [stopMagic]) port).2.line = port.now.write stopMagic := rfl
      rw [hline, Line.write, if_pos rfl]
      refine ⟨hnow.le, fun f hf => ?_, hnow.answered⟩
      rcases List.mem_append.mp hf with hold | hnew
      · exact hnow.toMcu f hold
      · rw [List.mem_singleton.mp hnew, hsending', Cmd.frame, hframe, List.append_nil]
  | cons b rest ih =>
      have hb : b ≠ stopMagic := by
        rintro rfl
        exact cmd.no_stop (by rw [hframe]; exact List.mem_append_right _ List.mem_cons_self)
      let port' : Port := ⟨port.now.write b, port.events.tail⟩
      have hstep : sendPkt (b :: rest ++ [stopMagic]) port =
          sendPkt (rest ++ [stopMagic]) port' := by
        simp only [List.cons_append, sendPkt, SerialPort.writeByte, Bool.true_eq_false, if_false,
          ne_eq, hb, not_false_eq_true, if_true, port']
      have hwrite : port'.line = { port.now with sending := port.now.sending ++ [b] } := by
        simp only [port', Line.write, if_neg hb]
      have hfresh' : Fresh n cmd.frame port'.line := by
        rw [hwrite]
        exact ⟨hnow.le, hnow.toMcu, hnow.answered⟩
      have hsent : port'.line.sending = written ++ [b] := by
        rw [hwrite, hsending']
      rw [hstep]
      exact ih (by rw [hframe, List.append_assoc, List.singleton_append]) port' hfresh' hsent
        (hfresh'.events _) ((now_sending port').trans hsent)

end Calls

/-! ## Through a call -/

section Command

variable {n : Nat} {frame : Bytes} {cmd : Cmd} {port : Port}

theorem receivePkt_line (buf : Bytes) (h : port.Idle n frame) :
    (receivePkt bufSize buf port).2.2.Idle n frame :=
  receivePkt_keeps (I := fun p => Port.Idle n frame p) (fun _ hp => hp.read) h.read

/-- An accepted ack proves that the MCU has received the command. -/
theorem receiveAck_line (out : Option Bytes) (buf : Bytes) (h : port.Idle n frame) :
    (receiveAck out buf port).2.2.Idle n frame ∧
      ((receiveAck out buf port).1 = .success →
        (receiveAck out buf port).2.2.line.ReceivedSince n frame) := by
  have hidle := receivePkt_line buf h
  unfold receiveAck
  simp only
  split
  · exact ⟨hidle, fun hret => by cases hret⟩
  · rename_i hok
    split
    · exact ⟨hidle, fun hret => by cases hret⟩
    · rename_i hcheck
      refine ⟨hidle, fun _ => ?_⟩
      obtain ⟨b, hb⟩ := receivePkt_first ackFromSerial (Bool.not_eq_false _ ▸ hok)
        (Bool.not_eq_false _ ▸ hcheck)
      exact receivePkt_keeps (I := fun p : Port => p.line.ReceivedSince n frame)
        (fun _ hp => hp.read) (h.read_some hb)

/-- One attempt, from the line as `ClearSerialPort` leaves it. -/
theorem sendCommandOnce_line (wantsOut : Bool) (buf : Bytes)
    (h : (SerialPort.clearSerialPort port : Port).Idle n cmd.frame) :
    (sendCommandOnce cmd wantsOut buf port).2.2.Idle n cmd.frame ∧
      ((sendCommandOnce cmd wantsOut buf port).1 = .success →
        (sendCommandOnce cmd wantsOut buf port).2.2.line.ReceivedSince n cmd.frame) := by
  have hsplit : cmd.body = [] ++ cmd.body := rfl
  obtain ⟨hsent, hidle⟩ := sendPkt_line hsplit _ h.1 h.2
  have hframe : cmd.body ++ [stopMagic] = cmd.frame := rfl
  rw [hframe] at hsent hidle
  unfold sendCommandOnce
  simp only [hsent, Bool.true_eq_false, if_false]
  cases wantsOut with
  | false => exact receiveAck_line none buf hidle
  | true =>
      have hresponse := receivePkt_line buf hidle
      simp only [if_true]
      split
      · exact ⟨hresponse, fun hret => by cases hret⟩
      · split
        · exact ⟨hresponse, fun hret => by cases hret⟩
        · exact receiveAck_line _ _ hresponse

/-- All attempts of a call: the retries send the same frame. -/
theorem sendCommandLoop_line (wantsOut : Bool) (bufs : Nat → Bytes) (left k : Nat)
    (h : (SerialPort.clearSerialPort port : Port).Idle n cmd.frame) :
    (sendCommandLoop cmd wantsOut bufs left k port).2.2.Idle n cmd.frame ∧
      ((sendCommandLoop cmd wantsOut bufs left k port).1 = .success →
        (sendCommandLoop cmd wantsOut bufs left k port).2.2.line.ReceivedSince n cmd.frame) := by
  induction left generalizing k port with
  | zero => exact sendCommandOnce_line wantsOut (bufs k) h
  | succ left ih =>
      have honce := sendCommandOnce_line wantsOut (bufs k) h
      unfold sendCommandLoop
      simp only
      split
      · exact ih (k + 1) honce.1.clear
      · exact honce

end Command

/-! ## The main result -/

/-- When the call first polls, every byte of the MCU has arrived and only frames
of the same command are still on their way to it. -/
def Call.Quiet (line : Line) (call : Call) : Prop :=
  let polled := (⟨line, call.events⟩ : Port).now
  polled.transit = [] ∧ ∀ frame ∈ polled.toMcu, frame = call.cmd.frame

instance (line : Line) (call : Call) : Decidable (call.Quiet line) :=
  inferInstanceAs (Decidable (_ ∧ ∀ frame ∈ _, _))

/-- The call reports success only if the MCU has received its frame since the
call began. -/
def Call.Honest (line : Line) (call : Call) : Prop :=
  call.ret line = .success →
    (call.step line).ReceivedSince line.received.length call.cmd.frame

/-- Nothing is received less by the time of the first poll. -/
theorem received_length_le (line : Line) (es : List Event) :
    line.received.length ≤ (es.foldl Line.event line).received.length := by
  induction es generalizing line with
  | nil => exact Nat.le_refl _
  | cons e es ih =>
      refine Nat.le_trans ?_ (ih (line.event e))
      obtain ⟨sending, toMcu, received, transit, arrived⟩ := line
      cases e with
      | lose => exact Nat.le_refl _
      | answer response =>
          cases toMcu with
          | nil => exact Nat.le_refl _
          | cons f rest =>
              simp only [Line.event, List.length_append]
              exact Nat.le_add_right _ _
      | arrive => cases transit <;> exact Nat.le_refl _

/-- One call on a quiet line. -/
theorem Call.honest_of_quiet {line : Line} {call : Call} (hsending : line.sending = [])
    (hquiet : call.Quiet line) : call.Honest line ∧ (call.step line).sending = [] := by
  obtain ⟨htransit, hqueue⟩ := hquiet
  have hclear : (SerialPort.clearSerialPort (⟨line, call.events⟩ : Port) : Port).Idle
      line.received.length call.cmd.frame :=
    ⟨⟨received_length_le line _, hqueue, Or.inr ⟨htransit, drain_eq_nil _⟩⟩,
      (now_sending _).trans hsending⟩
  have hcall := sendCommandLoop_line call.wantsOut call.bufs nRetries 0 hclear
  exact ⟨hcall.2, hcall.1.2⟩

/-- **No ack by mistake.**  In every run of `SendCommand` calls that all begin on
a quiet line, with frames lost and bytes delayed in any way besides, a call that
reports success has had its frame received by the MCU since it began. -/
theorem honest_along {line : Line} {calls : List Call} (hsending : line.sending = [])
    (hquiet : Along Call.step (fun line call => call.Quiet line) line calls) :
    Along Call.step (fun line call => call.Honest line) line calls :=
  along_of_step (fun line => line.sending = [])
    (fun _ _ hinv hcond => Call.honest_of_quiet hinv hcond) hsending hquiet

/-- A line with nothing on it. -/
def idleLine : Line := ⟨[], [], [], [], []⟩

/-- A call without `outArray` on a zeroed stack. -/
def plainCall (cmd : Cmd) (events : List (List Event)) : Call :=
  ⟨cmd, false, fun _ => List.replicate bufSize 0, events⟩

/-- All system calls of an attempt up to its first `read` pass without an event. -/
def untilRead (cmd : Cmd) : List (List Event) := List.replicate (1 + cmd.frame.length) []

/-- The bytes of one ack arrive. -/
def arriveAck : List Event := List.replicate ackFromSerial.frame.length .arrive

/-- A command whose ack comes at once. -/
def promptCall (cmd : Cmd) : Call := plainCall cmd (untilRead cmd ++ [.answer [] :: arriveAck])

theorem honest_prompt :
    Along Call.step (fun line call => call.Honest line) idleLine
      [promptCall fanHalfCmd, promptCall fanStopCmd] :=
  honest_along rfl ⟨by decide +kernel, by decide +kernel, trivial⟩

/-- The MCU is slow: the first attempt times out, and the second one is answered
together with the first, of which it takes the ack. -/
def slowCall : Call :=
  plainCall fanHalfCmd (untilRead fanHalfCmd ++ [[]] ++ untilRead fanHalfCmd ++
    [[.answer [], .answer []] ++ arriveAck])

/-- The frame of this call is lost, and the ack left over from the call before
arrives. -/
def lostCall : Call := plainCall fanStopCmd (untilRead fanStopCmd ++ [.lose :: arriveAck])

/-- The fan is reported to have been stopped, and the MCU was never told so. -/
theorem not_honest :
    let line := slowCall.step idleLine
    lostCall.ret line = .success ∧ fanStopCmd.frame ∉ (lostCall.step line).received ∧
      ¬ (lostCall.step line).ReceivedSince line.received.length lostCall.cmd.frame := by
  decide +kernel

end AltF.Mcu
