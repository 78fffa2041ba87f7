/-
  Mcu/Payload.lean --- which bytes of an answer the reading handlers use.

  An answer has no length.  It is told by its first five bytes, and ends where the stop
  byte is; a handler takes as many bytes behind the five as it expects.
-/
import AltF.Mcu.Answers
import AltF.Mcu.Frames
import AltF.Mcu.Zone

set_option autoImplicit false

namespace AltF.Mcu.Handlers

open AltF.Foundation AltF.SysFiles

/-! ## The session -/

/-- What `SendCommand` hands to a handler, and what came from the MCU meanwhile. -/
structure Answer where
  /-- `outArray` -/
  out : Bytes
  received : Bytes
  deriving DecidableEq

/-- The byte at an index of the answer was received, and in front of the stop byte. -/
def Answer.Holds (a : Answer) (i : Nat) : Prop :=
  i < (beforeStop a.out).length ∧ beforeStop a.out <:+: a.received

/-- The daemon while a reading handler runs. -/
structure Session where
  port : Script
  /-- what the stack buffer holds at each attempt of each command -/
  bufs : Nat → Nat → Vector UInt8 bufSize
  commands : Nat
  /-- the answers that handlers were given -/
  answers : List Answer
  now : Int
  /-- `settimeofday` succeeds -/
  settable : Bool

/-- `SendCommand(fd, cmd, buf)` -/
def Session.exchange (s : Session) (cmd : Cmd) : Option Bytes × Session :=
  let (ret, out, port) := sendCommand cmd true (fun k => (s.bufs s.commands k).toList) s.port
  let received := port.received.drop s.port.received.length
  let s := { s with port := port, commands := s.commands + 1 }
  match ret, out with
  | .success, some out => (some out, { s with answers := s.answers ++ [⟨out, received⟩] })
  | _, _ => (none, s)

/-- The command of an array, up to its first stop byte. -/
def cmdOf (array : Bytes) : Option Cmd :=
  if h : 5 ≤ (beforeStop array).length ∧ stopMagic ∉ beforeStop array then
    some ⟨beforeStop array, h.1, h.2⟩
  else none

/-- The handlers of this file want an answer to each of their commands. -/
instance : Board Session where
  sendCommand array s :=
    match cmdOf array with
    | some cmd => s.exchange cmd
    | none => (none, s)
  time s := (s.now, s)
  settimeofday _ s := (s.settable, s)
  afterFan _ s := s
  afterLed _ s := s
  afterTemp _ s := s

theorem cmdOf_frame (cmd : Cmd) : cmdOf cmd.frame = some cmd := by
  have hbefore : beforeStop cmd.frame = cmd.body := beforeStop_append cmd.no_stop []
  simp only [cmdOf, hbefore, cmd.body_length, cmd.no_stop, not_false_eq_true, and_self, dif_pos]

theorem Session.sendCommand_frame (s : Session) (cmd : Cmd) :
    Board.sendCommand cmd.frame s = s.exchange cmd := by
  simp only [Board.sendCommand, cmdOf_frame]

/-- One command after the other, until one has no answer. -/
def Session.exchangeAll (s : Session) : List Cmd → Bool × Session
  | [] => (true, s)
  | cmd :: cmds =>
      match s.exchange cmd with
      | (none, s) => (false, s)
      | (some _, s) => s.exchangeAll cmds

/-! ## The reading handlers -/

/-- A handler that uses what the MCU answers. -/
inductive Reading where
  | simple2 (mcmd : Cmd)
  | gettemperature
  | readalarm
  | hctosys
  | readrtc
  deriving DecidableEq

namespace Reading

/-- What it sends. -/
def commands : Reading → List Cmd
  | simple2 mcmd => [mcmd]
  | gettemperature => [thermalStatusGetCmd]
  | readalarm => alarmReads
  | hctosys => [rDateAndTimeCmd]
  | readrtc => [rDateAndTimeCmd]

/-- How many bytes it takes behind the first five of an answer. -/
def payload : Reading → Nat
  | hctosys => 7
  | readrtc => 7
  | _ => 1

/-- The indices at which it reads an answer. -/
def indices (r : Reading) : List Nat := (List.range r.payload).map (5 + ·)

/-- Whether a handler reports no error, and what it leaves. -/
def reported (r : Result Session) : Bool × Session :=
  (decide (r.1 = 0 ∧ r.2.1 ≠ errText), r.2.2)

/-- The handlers of the source. -/
def run (off : Int) (beyond : UInt8) : Reading → Session → Bool × Session
  | simple2 mcmd, s => reported (simpleCmd2 mcmd s)
  | gettemperature, s => reported (gettemperatureCmd beyond s)
  | readalarm, s => ((Handlers.readalarm s).1, (Handlers.readalarm s).2.2)
  | hctosys, s => reported (hctosysCmd (zoned off) s)
  | readrtc, s => reported (readrtcCmd (zoned off) s)

/-- A handler that reports no error has used bytes of the MCU only, and has looked for the
temperature in the table. -/
def UsesReceived (r : Reading) (off : Int) (beyond : UInt8) (s : Session) : Prop :=
  (r.run off beyond s).1 = true →
    ∀ a ∈ (r.run off beyond s).2.answers.drop s.answers.length,
      (∀ i ∈ r.indices, a.Holds i) ∧
        (r = gettemperature → (byteAt a.out 5).toNat < thermalTable.length)

/-- What `rtcTime` makes of an answer is in those bytes. -/
theorem rtcTime_congr {a b : Bytes} (h : ∀ i ∈ readrtc.indices, byteAt a i = byteAt b i) :
    rtcTime a = rtcTime b := by
  simp only [rtcTime, h 5 (by decide), h 6 (by decide), h 7 (by decide), h 9 (by decide),
    h 10 (by decide), h 11 (by decide)]

/-! ## A handler and its exchanges -/

theorem printInt_ne_errText (n : Int) : printInt n ≠ errText := by
  intro h
  have hscan := scanInt_printInt n
  rw [h] at hscan
  exact absurd hscan.symm (by simp [show scanInt errText = none by decide +kernel])

theorem ctime_length (off t : Int) : 8 ≤ ((zoned off).ctime t).length := by
  simp only [zoned, asctime, three, two, List.length_append, List.length_cons, List.length_nil]
  omega

theorem exchange_kept (s : Session) (cmd : Cmd) : (s.exchange cmd).2.settable = s.settable := by
  unfold Session.exchange
  simp only
  split <;> rfl

/-- `readalarm` is four exchanges. -/
theorem readalarm_exchanges (s : Session) :
    (Handlers.readalarm s).1 = (s.exchangeAll alarmReads).1 ∧
      (Handlers.readalarm s).2.2 = (s.exchangeAll alarmReads).2 := by
  simp only [Handlers.readalarm, Session.sendCommand_frame, alarmReads, Session.exchangeAll]
  rcases s.exchange rAlarmMonthCmd with ⟨_ | buf, s⟩
  · exact ⟨rfl, rfl⟩
  simp only
  rcases s.exchange rAlarmDateCmd with ⟨_ | buf, s⟩
  · exact ⟨rfl, rfl⟩
  simp only
  rcases s.exchange rAlarmHourCmd with ⟨_ | buf, s⟩
  · exact ⟨rfl, rfl⟩
  simp only
  rcases s.exchange rAlarmMinuteCmd with ⟨_ | buf, s⟩
  · exact ⟨rfl, rfl⟩
  · exact ⟨rfl, rfl⟩

/-- A handler reports no error if its commands are answered, and the time can be set. -/
theorem run_exchanges (r : Reading) (off : Int) (beyond : UInt8) (s : Session) :
    (r.run off beyond s).2 = (s.exchangeAll r.commands).2 ∧
      ((r.run off beyond s).1 = true ↔
        (s.exchangeAll r.commands).1 = true ∧ (r = hctosys → s.settable = true)) := by
  have hlong : ∀ t : Text, 4 ≤ t.length → t ≠ errText := by
    rintro t h rfl
    exact absurd h (by decide)
  cases r with
  | simple2 mcmd =>
      simp only [run, reported, simpleCmd2, Session.sendCommand_frame, commands,
        Session.exchangeAll]
      rcases s.exchange mcmd with ⟨_ | buf, s'⟩
      · simp
      · simp [printInt_ne_errText]
  | gettemperature =>
      simp only [run, reported, gettemperatureCmd, Session.sendCommand_frame, commands,
        Session.exchangeAll]
      rcases s.exchange thermalStatusGetCmd with ⟨_ | buf, s'⟩
      · simp
      · simp [printInt_ne_errText, Board.afterTemp]
  | readalarm =>
      obtain ⟨hok, hstate⟩ := readalarm_exchanges s
      simp only [run, commands, hok, hstate, reduceCtorEq, false_imp_iff, and_true]
  | hctosys =>
      have hkept := exchange_kept s rDateAndTimeCmd
      simp only [run, reported, hctosysCmd, Session.sendCommand_frame, commands,
        Session.exchangeAll]
      generalize s.exchange rDateAndTimeCmd = exchanged at hkept
      obtain ⟨_ | buf, s'⟩ := exchanged
      · simp
      · obtain ⟨port, bufs, commands, answers, now, settable⟩ := s'
        simp only [Board.time, Board.settimeofday] at hkept ⊢
        rw [← hkept]
        cases settable with
        | false => simp
        | true =>
            have htext := hlong ((zoned off).ctime ((zoned off).timegm (rtcTime buf)) ++
              "Sys: ".toList ++ (zoned off).ctime now ++ "Diff: ".toList ++
              (zoned off).difftime now ((zoned off).timegm (rtcTime buf))) (by
                have := ctime_length off ((zoned off).timegm (rtcTime buf))
                simp only [List.length_append]
                omega)
            exact ⟨rfl, iff_of_true (decide_eq_true ⟨rfl, htext⟩) ⟨trivial, fun _ => rfl⟩⟩
  | readrtc =>
      simp only [run, reported, readrtcCmd, Session.sendCommand_frame, commands,
        Session.exchangeAll]
      rcases s.exchange rDateAndTimeCmd with ⟨_ | buf, s'⟩
      · simp
      · have htext := hlong ((zoned off).ctime ((zoned off).mktime (rtcTime buf))).dropLast (by
          have := ctime_length off ((zoned off).mktime (rtcTime buf))
          rw [List.length_dropLast]
          omega)
        simp [htext]

end Reading

/-! ## The packets behind the answers -/

/-- The packets that are taken for the answers to commands, if all are answered. -/
def takenAll (bufs : Nat → Nat → Vector UInt8 bufSize) :
    List Cmd → Nat → Script → Option (List Packet)
  | [], _, _ => some []
  | cmd :: cmds, n, port =>
      match port.exchange cmd (fun k => (bufs n k).toList) nRetries 0 with
      | (none, _) => none
      | (some p, port) => (takenAll bufs cmds (n + 1) port).map (p :: ·)

/-- The answer holds the packet. -/
def Answer.Of (a : Answer) (p : Packet) : Prop :=
  beforeStop a.out = beforeStop p.bytes ∧ beforeStop a.out <:+: a.received

/-- An exchange has the packet that is taken for the answer. -/
theorem Session.exchange_taken (s : Session) (cmd : Cmd) :
    match s.port.exchange cmd (fun k => (s.bufs s.commands k).toList) nRetries 0 with
    | (none, port) => s.exchange cmd = (none, { s with port := port, commands := s.commands + 1 })
    | (some p, port) => ∃ a : Answer, a.Of p ∧ s.exchange cmd = (some a.out,
        { s with port := port, commands := s.commands + 1, answers := s.answers ++ [a] }) := by
  have hbufs : ∀ k, ((fun k => (s.bufs s.commands k).toList) k).length = bufSize :=
    fun _ => Vector.length_toList
  obtain ⟨hport, hret, received, hreceived, hout⟩ :=
    @sendCommandLoop_exchange cmd _ hbufs nRetries 0 s.port
  unfold Session.exchange sendCommand
  generalize sendCommandLoop cmd true (fun k => (s.bufs s.commands k).toList) nRetries 0 s.port =
    sent at hport hret hout
  generalize s.port.exchange cmd (fun k => (s.bufs s.commands k).toList) nRetries 0 =
    taken at hport hret hreceived hout
  obtain ⟨ret, out, port⟩ := sent
  obtain ⟨_ | p, port'⟩ := taken
  · simp only at hport hret ⊢
    have hfailed : ret ≠ .success := by simpa using hret
    subst hport
    cases ret with
    | success => exact absurd rfl hfailed
    | writeFailed => rfl
    | wrongAnswer => rfl
  · simp only at hport hret hreceived hout ⊢
    have hdone : ret = .success := by simpa using hret
    obtain ⟨out', rfl, hbefore, hinfix⟩ := hout p rfl
    subst hport hdone
    refine ⟨⟨out', received⟩, ⟨hbefore, hinfix⟩, ?_⟩
    rw [hreceived, List.drop_left]

/-- A handler's answers hold the packets that are taken. -/
theorem Session.exchangeAll_taken (cmds : List Cmd) (s : Session) :
    match takenAll s.bufs cmds s.commands s.port with
    | none => (s.exchangeAll cmds).1 = false
    | some ps => (s.exchangeAll cmds).1 = true ∧
        ∃ answers, (s.exchangeAll cmds).2.answers = s.answers ++ answers ∧
          List.Forall₂ Answer.Of answers ps := by
  induction cmds generalizing s with
  | nil => exact ⟨rfl, [], (List.append_nil _).symm, .nil⟩
  | cons cmd cmds ih =>
      have hfirst := s.exchange_taken cmd
      unfold takenAll Session.exchangeAll
      generalize s.port.exchange cmd (fun k => (s.bufs s.commands k).toList) nRetries 0 =
        taken at hfirst
      obtain ⟨_ | p, port⟩ := taken
      · simp only at hfirst ⊢
        rw [hfirst]
      · obtain ⟨a, ha, hexchange⟩ := hfirst
        have hrest := ih { s with
          port := port, commands := s.commands + 1, answers := s.answers ++ [a] }
        simp only [hexchange] at hrest ⊢
        generalize takenAll s.bufs cmds (s.commands + 1) port = packets at hrest
        cases packets with
        | none => exact hrest
        | some ps =>
            obtain ⟨hdone, answers, hanswers, hall⟩ := hrest
            refine ⟨hdone, a :: answers, ?_, .cons ha hall⟩
            rw [hanswers, List.append_assoc, List.singleton_append]

/-! ## Short answers -/

theorem byteAt_beforeStop {bytes : Bytes} {i : Nat} (h : i < (beforeStop bytes).length) :
    byteAt (beforeStop bytes) i = byteAt bytes i := by
  obtain ⟨rest, hrest⟩ : beforeStop bytes <+: bytes := List.takeWhile_prefix _
  conv_rhs => rw [← hrest]
  rw [byteAt, byteAt, List.getD_eq_getElem?_getD, List.getD_eq_getElem?_getD,
    List.getElem?_append_left h]

namespace Reading

/-- The packets taken for the answers have as many bytes in front of the stop byte as the
handler takes, and the temperature has an entry in the table. -/
def LongEnough (r : Reading) (p : Packet) : Prop :=
  5 + r.payload ≤ (beforeStop p.bytes).length ∧
    (r = gettemperature → (byteAt p.bytes 5).toNat < thermalTable.length)

/-- Each of its commands is answered with a packet that is long enough, if all are. -/
def Answered (r : Reading) (s : Session) : Prop :=
  ∀ ps, takenAll s.bufs r.commands s.commands s.port = some ps →
    (r = hctosys → s.settable = true) → ∀ p ∈ ps, r.LongEnough p

theorem longEnough_iff {r : Reading} {a : Answer} {p : Packet} (h : a.Of p) :
    ((∀ i ∈ r.indices, a.Holds i) ∧
      (r = gettemperature → (byteAt a.out 5).toNat < thermalTable.length)) ↔ r.LongEnough p := by
  obtain ⟨hbefore, hinfix⟩ := h
  have hpos : 0 < r.payload := by cases r <;> exact Nat.zero_lt_succ _
  have hholds : ∀ i, a.Holds i ↔ i < (beforeStop p.bytes).length := fun i => by
    rw [Answer.Holds, and_iff_left hinfix, hbefore]
  have hindices : (∀ i ∈ r.indices, a.Holds i) ↔ 5 + r.payload ≤ (beforeStop p.bytes).length := by
    simp only [indices, List.forall_mem_map, List.mem_range, hholds]
    constructor
    · intro hall
      have := hall (r.payload - 1) (by omega)
      omega
    · intro hlong k hk
      omega
  rw [LongEnough, hindices]
  refine and_congr_right fun hlong => ?_
  have hbyte : byteAt a.out 5 = byteAt p.bytes 5 := by
    have hout : 5 < (beforeStop a.out).length := by
      rw [hbefore]
      omega
    rw [← byteAt_beforeStop hout, hbefore, byteAt_beforeStop (by omega)]
  rw [hbyte]

end Reading

/-- The MCU answers the query for the temperature with five bytes and the stop byte. -/
def shortAnswer : Session where
  port := ⟨[], [], ([0xfa, 0x03, 0x08, 0x00, 0x00, 0xfb] ++ ackFromSerial.frame).map some, []⟩
  bufs := fun _ _ => Vector.replicate bufSize 0
  commands := 0
  answers := []
  now := 0
  settable := true

end AltF.Mcu.Handlers
