/-
  Mcu/Fan.lean --- `readset_temp` of dns320l-daemon.c: the fan level follows the
  pwm that sysctrl writes.

  `readset_temp` remembers the pwm it read before it knows whether the MCU took
  the level, so after a failed exchange the same pwm is not sent again.
-/
import AltF.Foundation.Runs
import AltF.Mcu.Commands
import AltF.SysFiles.Text

set_option autoImplicit false

namespace AltF.Mcu

open AltF.Foundation AltF.SysFiles

/-! ## Fan levels -/

/-- The three levels of the fan. -/
inductive FanLevel where
  | stop
  | half
  | full
  deriving DecidableEq, Repr

/-- The command that sets a level. -/
def FanLevel.cmd : FanLevel → Cmd
  | .stop => fanStopCmd
  | .half => fanHalfCmd
  | .full => fanFullCmd

/-- `fanSpeed` at a level. -/
def FanLevel.speed : FanLevel → Int
  | .stop => 0
  | .half => 1
  | .full => 2

/-- The speed `setfan_cmd` reports for a level. -/
def FanLevel.rpm : FanLevel → Int32
  | .stop => 0
  | .half => 3000
  | .full => 6000

/-- The level `readset_temp` chooses for a pwm. -/
def fanClass (pwm : Int32) : FanLevel :=
  if pwm = 0 then .stop
  else if pwm < 128 then .half
  else .full

theorem FanLevel.speed_injective {l₁ l₂ : FanLevel} (h : l₁.speed = l₂.speed) : l₁ = l₂ := by
  cases l₁ <;> cases l₂ <;> first | rfl | cases h

/-! ## The daemon -/

/-- `ThermalTable`. -/
def thermalTable : List UInt8 :=
  [ 0x74, 0x73, 0x72, 0x71, 0x70, 0x6F, 0x6E, 0x6D, 0x6C, 0x6B, 0x6A, 0x69,
    0x68, 0x67, 0x66, 0x65, 0x64, 0x63, 0x62, 0x61, 0x60, 0x5F, 0x5E, 0x5D,
    0x5C, 0x5B, 0x5A, 0x59, 0x58, 0x57, 0x56, 0x55, 0x54, 0x53, 0x52, 0x51,
    0x50, 0x4F, 0x4E, 0x4D, 0x4C, 0x4B, 0x4A, 0x49, 0x48, 0x47, 0x46, 0x45,
    0x44, 0x43, 0x42, 0x41, 0x41, 0x40, 0x3F, 0x3E, 0x3E, 0x3D, 0x3D, 0x3C,
    0x3B, 0x3A, 0x3A, 0x39, 0x38, 0x38, 0x37, 0x36, 0x36, 0x35, 0x34, 0x34,
    0x33, 0x33, 0x32, 0x31, 0x31, 0x30, 0x30, 0x2F, 0x2F, 0x2E, 0x2E, 0x2D,
    0x2C, 0x2C, 0x2B, 0x2B, 0x2A, 0x2A, 0x29, 0x29, 0x28, 0x28, 0x27, 0x27,
    0x27, 0x26, 0x26, 0x25, 0x25, 0x24, 0x24, 0x23, 0x23, 0x22, 0x22, 0x21,
    0x21, 0x21, 0x20, 0x20, 0x1F, 0x1F, 0x1E, 0x1E, 0x1E, 0x1D, 0x1D, 0x1C,
    0x1C, 0x1B, 0x1B, 0x1B, 0x1B, 0x1A, 0x19, 0x19, 0x19, 0x18, 0x18, 0x17,
    0x17, 0x25, 0x1B, 0x1B, 0x19, 0x19, 0x19, 0x18, 0x18, 0x17, 0x17, 0x16,
    0x16, 0x16, 0x15, 0x15, 0x14, 0x14, 0x14, 0x13, 0x13, 0x12, 0x12, 0x12,
    0x11, 0x11, 0x10, 0x10, 0x10, 0x0F, 0x0F, 0x0E, 0x0E, 0x0E, 0x0D, 0x0D,
    0x0C, 0x0C, 0x0C, 0x0B, 0x0B, 0x0A, 0x0A, 0x09, 0x09, 0x09, 0x08, 0x08,
    0x07, 0x07, 0x07, 0x06, 0x06, 0x05, 0x05, 0x04, 0x04, 0x04, 0x03, 0x03,
    0x02, 0x02, 0x01, 0x01, 0x00, 0x00, 0x00, 0x00, 0x00, 0x00, 0x00, 0x00 ]

/-- What the daemon remembers, and the two files it writes. -/
structure FanDaemon where
  fanSpeed : Int
  /-- `old_temp` of `readset_temp`. -/
  oldTemp : Text
  /-- `old_pwm` of `readset_temp`. -/
  oldPwm : Int32
  /-- `/tmp/sys/temp1_input` -/
  tempInput : Text
  /-- `/tmp/sys/fan1_input` -/
  fanInput : Text
  deriving DecidableEq, Repr

/-- What one call of `readset_temp` meets. -/
structure FanCall where
  /-- The answer to the temperature command, if its exchange succeeds. -/
  thermal : Option Bytes
  /-- The byte found for an index past `ThermalTable`. -/
  beyond : UInt8
  /-- `/tmp/sys/pwm1` -/
  pwmFile : Option Text
  /-- What the variable `pwm` holds before it is read. -/
  pwmJunk : Int32
  /-- Whether an exchange of a fan command succeeds. -/
  fanOk : Bool
  deriving DecidableEq, Repr

/-- `setfan_cmd` with a successful exchange; a failed one changes nothing. -/
def setfanCmd (mcmd : Cmd) (d : FanDaemon) : FanDaemon :=
  match mcmd.selector with
  | 0 => { d with fanSpeed := 0, fanInput := writeStrToFile ['0'] }
  | 1 => { d with fanSpeed := 1, fanInput := writeStrToFile ['3', '0', '0', '0'] }
  | 2 => { d with fanSpeed := 2, fanInput := writeStrToFile ['6', '0', '0', '0'] }
  | _ => { d with fanInput := writeStrToFile ['0'] }

/-- The text `gettemperature_cmd` makes of an answer. -/
def temperatureText (call : FanCall) (answer : Bytes) : Text :=
  let temp := thermalTable.getD (byteAt answer 5).toNat call.beyond
  printInt (temp.toNat * 1000 : Nat)

/-- `gettemperature_cmd` and what `readset_temp` makes of its result. -/
def readTemperature (call : FanCall) (d : FanDaemon) : FanDaemon :=
  match call.thermal with
  | none => d
  | some answer =>
      let msgBuf := temperatureText call answer
      { d with tempInput := writeStrToFile msgBuf, oldTemp := msgBuf }

/-- `*pwm` after `read_int_from_file`. -/
def FanCall.pwm (call : FanCall) : Option Int32 := readIntFromFile call.pwmFile call.pwmJunk

/-- The level `readset_temp` sends to the MCU, if it sends one. -/
def fanRequest (call : FanCall) (d : FanDaemon) : Option FanLevel :=
  match call.pwm with
  | none => none
  | some pwm =>
      if pwm ≠ d.oldPwm then
        if d.fanSpeed ≠ (fanClass pwm).speed then some (fanClass pwm) else none
      else none

/-- `readset_temp`. -/
def readsetTemp (call : FanCall) (d : FanDaemon) : FanDaemon :=
  let d := readTemperature call d
  match call.pwm with
  | none => d
  | some pwm =>
      match fanRequest call d with
      | some level =>
          let d := { d with oldPwm := pwm }
          if call.fanOk = true then setfanCmd level.cmd d else d
      | none => { d with oldPwm := pwm }

/-- `setfan_cmd` sets the speed of its level and reports its rpm. -/
theorem setfanCmd_level (level : FanLevel) (d : FanDaemon) :
    setfanCmd level.cmd d =
      { d with
        fanSpeed := level.speed
        fanInput := writeIntToFile level.rpm } := by
  cases level <;> rfl

/-! ## The daemon and the MCU -/

/-- The daemon, the MCU, and what the last fan exchange came to. -/
structure FanWorld where
  daemon : FanDaemon
  /-- The last level the MCU acknowledged. -/
  acked : Option FanLevel
  /-- The call that read `old_pwm` made a fan exchange, which failed. -/
  failed : Bool
  deriving DecidableEq, Repr

/-- The daemon as it starts. -/
def FanWorld.start : FanWorld :=
  ⟨⟨-1, [], -1, [], []⟩, none, false⟩

/-- One call of `readset_temp`. -/
def FanWorld.step (w : FanWorld) (call : FanCall) : FanWorld :=
  { daemon := readsetTemp call w.daemon
    acked :=
      match fanRequest call w.daemon with
      | some level => if call.fanOk = true then some level else w.acked
      | none => w.acked
    failed :=
      if call.pwm = none ∨ call.pwm = some w.daemon.oldPwm then w.failed
      else (fanRequest call w.daemon).isSome && !call.fanOk }

/-- No exchange of the call fails. -/
def FanWorld.NoFailure (w : FanWorld) (call : FanCall) : Prop :=
  call.thermal ≠ none ∧ ((fanRequest call w.daemon).isSome = true → call.fanOk = true)

instance (w : FanWorld) (call : FanCall) : Decidable (w.NoFailure call) :=
  inferInstanceAs (Decidable (_ ∧ (_ → _)))

/-- After a call without a failure that read a pwm, the MCU has acknowledged the
level of that pwm. -/
def FanWorld.Follows (w : FanWorld) (call : FanCall) : Prop :=
  ∀ pwm, w.NoFailure call → call.pwm = some pwm → 0 ≤ pwm →
    (w.step call).acked = some (fanClass pwm)

/-- The call gets its temperature and reads again the pwm for which the last fan
exchange failed. -/
def FanWorld.ReadsFailedAgain (w : FanWorld) (call : FanCall) : Prop :=
  call.thermal ≠ none ∧ call.pwm = some w.daemon.oldPwm ∧ 0 ≤ w.daemon.oldPwm ∧ w.failed = true

/-! ## The invariant -/

/-- `fanSpeed` is the acknowledged level, and `old_pwm` is of that level unless
its exchange failed. -/
structure FanWorld.Inv (w : FanWorld) : Prop where
  speed : w.daemon.fanSpeed = (w.acked.map FanLevel.speed).getD (-1)
  failed : w.failed = true → w.acked ≠ some (fanClass w.daemon.oldPwm)
  followed : w.failed = false → w.daemon.oldPwm = -1 ∨ w.acked = some (fanClass w.daemon.oldPwm)

theorem FanWorld.inv_start : FanWorld.start.Inv where
  speed := rfl
  failed := fun h => by cases h
  followed := fun _ => Or.inl rfl

section Step

variable {w : FanWorld} {call : FanCall}

/-- The temperature part touches nothing the fan part looks at. -/
theorem readTemperature_fan (call : FanCall) (d : FanDaemon) :
    (readTemperature call d).fanSpeed = d.fanSpeed ∧
      (readTemperature call d).oldPwm = d.oldPwm := by
  unfold readTemperature
  split <;> exact ⟨rfl, rfl⟩

theorem fanRequest_readTemperature (call : FanCall) (d : FanDaemon) :
    fanRequest call (readTemperature call d) = fanRequest call d := by
  obtain ⟨hspeed, hpwm⟩ := readTemperature_fan call d
  simp only [fanRequest, hspeed, hpwm]

/-- The level the speed of the daemon stands for is the one acknowledged. -/
theorem FanWorld.Inv.speed_eq_iff (h : w.Inv) (level : FanLevel) :
    w.daemon.fanSpeed = level.speed ↔ w.acked = some level := by
  rw [h.speed]
  cases hacked : w.acked with
  | none => cases level <;> decide
  | some l =>
      simp only [Option.map_some, Option.getD_some, Option.some.injEq]
      exact ⟨FanLevel.speed_injective, congrArg FanLevel.speed⟩

/-- **What one call does**: it reads nothing, or the pwm it remembers, or the pwm
of a level the fan has, or it sends a level and is answered or not. -/
theorem FanWorld.step_cases (h : w.Inv) (call : FanCall) :
    (call.pwm = none ∧ (w.step call).daemon.fanSpeed = w.daemon.fanSpeed ∧
      (w.step call).daemon.oldPwm = w.daemon.oldPwm ∧ (w.step call).acked = w.acked ∧
      (w.step call).failed = w.failed) ∨
    ∃ pwm, call.pwm = some pwm ∧ (w.step call).daemon.oldPwm = pwm ∧
      ((pwm = w.daemon.oldPwm ∧ fanRequest call w.daemon = none ∧
          (w.step call).daemon.fanSpeed = w.daemon.fanSpeed ∧ (w.step call).acked = w.acked ∧
          (w.step call).failed = w.failed) ∨
        (pwm ≠ w.daemon.oldPwm ∧ w.acked = some (fanClass pwm) ∧
          (w.step call).daemon.fanSpeed = w.daemon.fanSpeed ∧ (w.step call).acked = w.acked ∧
          (w.step call).failed = false) ∨
        (pwm ≠ w.daemon.oldPwm ∧ w.acked ≠ some (fanClass pwm) ∧ call.fanOk = true ∧
          (w.step call).daemon.fanSpeed = (fanClass pwm).speed ∧
          (w.step call).acked = some (fanClass pwm) ∧ (w.step call).failed = false) ∨
        (pwm ≠ w.daemon.oldPwm ∧ w.acked ≠ some (fanClass pwm) ∧ call.fanOk = false ∧
          fanRequest call w.daemon = some (fanClass pwm) ∧
          (w.step call).daemon.fanSpeed = w.daemon.fanSpeed ∧ (w.step call).acked = w.acked ∧
          (w.step call).failed = true)) := by
  obtain ⟨hspeed, hold⟩ := readTemperature_fan call w.daemon
  cases hpwm : call.pwm with
  | none =>
      left
      have hreq : fanRequest call w.daemon = none := by simp only [fanRequest, hpwm]
      simp [FanWorld.step, readsetTemp, hpwm, hreq, hspeed, hold]
  | some pwm =>
      right
      refine ⟨pwm, rfl, ?_⟩
      by_cases hsame : pwm = w.daemon.oldPwm
      · have hreq : fanRequest call w.daemon = none := by
          simp [fanRequest, hpwm, hsame]
        have hreq' := (fanRequest_readTemperature call w.daemon).trans hreq
        simp [FanWorld.step, readsetTemp, hpwm, hreq, hreq', hspeed, hsame]
      · by_cases hlevel : w.acked = some (fanClass pwm)
        · have hreq : fanRequest call w.daemon = none := by
            simp [fanRequest, hpwm, (h.speed_eq_iff _).mpr hlevel]
          have hreq' := (fanRequest_readTemperature call w.daemon).trans hreq
          simp [FanWorld.step, readsetTemp, hpwm, hreq, hreq', hspeed, hsame, hlevel]
        · have hreq : fanRequest call w.daemon = some (fanClass pwm) := by
            simp [fanRequest, hpwm, hsame, mt (h.speed_eq_iff _).mp hlevel]
          have hreq' := (fanRequest_readTemperature call w.daemon).trans hreq
          cases hok : call.fanOk with
          | true =>
              simp [FanWorld.step, readsetTemp, hpwm, hreq, hreq', hsame, hlevel, hok,
                setfanCmd_level]
          | false =>
              simp [FanWorld.step, readsetTemp, hpwm, hreq, hreq', hspeed, hsame, hlevel, hok]

theorem FanWorld.Inv.step (h : w.Inv) (call : FanCall) : (w.step call).Inv := by
  rcases FanWorld.step_cases h call with ⟨-, hs, ho, ha, hf⟩ | ⟨pwm, -, ho, hcases⟩
  · exact ⟨by rw [hs, ha, h.speed], by rw [hf, ha, ho]; exact h.failed,
      by rw [hf, ha, ho]; exact h.followed⟩
  · rcases hcases with ⟨hsame, -, hs, ha, hf⟩ | ⟨-, hlevel, hs, ha, hf⟩ |
        ⟨-, -, -, hs, ha, hf⟩ | ⟨-, hlevel, -, -, hs, ha, hf⟩
    · exact ⟨by rw [hs, ha, h.speed], by rw [hf, ha, ho, hsame]; exact h.failed,
        by rw [hf, ha, ho, hsame]; exact h.followed⟩
    · exact ⟨by rw [hs, ha, h.speed], by simp [hf], fun _ => Or.inr (by rw [ha, ho, hlevel])⟩
    · exact ⟨by rw [hs, ha]; rfl, by simp [hf], fun _ => Or.inr (by rw [ha, ho])⟩
    · exact ⟨by rw [hs, ha, h.speed], fun _ => by rw [ha, ho]; exact hlevel, by simp [hf]⟩

/-- One call follows its pwm exactly when it does not read a failed one again. -/
theorem FanWorld.follows_iff (h : w.Inv) (call : FanCall) :
    w.Follows call ↔ ¬ w.ReadsFailedAgain call := by
  unfold FanWorld.Follows FanWorld.NoFailure FanWorld.ReadsFailedAgain
  rcases FanWorld.step_cases h call with ⟨hnone, -⟩ | ⟨pwm, hpwm, -, hcases⟩
  · simp [hnone]
  · rcases hcases with ⟨hsame, hreq, -, ha, -⟩ | ⟨hnew, hlevel, -, ha, -⟩ |
        ⟨hnew, -, -, -, ha, -⟩ | ⟨hnew, -, hfail, hreq, -⟩
    · subst hsame
      cases hfailed : w.failed with
      | true =>
          have hne := h.failed hfailed
          simp [hpwm, hreq, ha, hne]
      | false =>
          simp only [hpwm, hreq, ha, Bool.false_eq_true, and_false, not_false_eq_true, iff_true]
          rintro pwm - ⟨⟩ hnonneg
          refine (h.followed hfailed).resolve_left fun hminus => ?_
          rw [hminus] at hnonneg
          exact absurd hnonneg (by decide)
    · simp only [hpwm, ha, hlevel, Option.some.injEq, hnew, false_and, and_false,
        not_false_eq_true, iff_true]
      rintro pwm' - rfl -
      rfl
    · simp only [hpwm, ha, Option.some.injEq, hnew, false_and, and_false,
        not_false_eq_true, iff_true]
      rintro pwm' - rfl -
      rfl
    · simp [hpwm, hreq, hfail, hnew]

/-- The fan file holds the speed of the acknowledged level. -/
def FanWorld.Reports (w : FanWorld) : Prop :=
  ∀ level, w.acked = some level → w.daemon.fanInput = writeIntToFile level.rpm

theorem FanWorld.reports_start : FanWorld.start.Reports := fun _ h => by cases h

/-- The temperature part leaves the fan file alone. -/
theorem readTemperature_fanInput (call : FanCall) (d : FanDaemon) :
    (readTemperature call d).fanInput = d.fanInput := by
  unfold readTemperature
  split <;> rfl

/-- The fan file is written with every level that is acknowledged, and only then. -/
theorem FanWorld.Reports.step (h : w.Reports) (call : FanCall) : (w.step call).Reports := by
  have hfile := readTemperature_fanInput call w.daemon
  have hsame := fanRequest_readTemperature call w.daemon
  intro level
  simp only [FanWorld.step, readsetTemp, hsame]
  cases hpwm : call.pwm with
  | none =>
      have hreq : fanRequest call w.daemon = none := by simp only [fanRequest, hpwm]
      simp only [hreq, hfile]
      exact h level
  | some pwm =>
      cases hreq : fanRequest call w.daemon with
      | none =>
          simp only [hfile]
          exact h level
      | some asked =>
          cases hok : call.fanOk with
          | true =>
              simp only [if_true, setfanCmd_level, Option.some.injEq]
              rintro rfl
              rfl
          | false =>
              simp only [Bool.false_eq_true, if_false, hfile]
              exact h level

end Step

/-- **What the daemon reports**: after any run that followed its last pwm, the fan
file reads as the speed of the level of that pwm. -/
theorem FanWorld.reports_followed (calls : List FanCall) {call : FanCall} {pwm : Int32}
    (hok : (run FanWorld.step .start calls).NoFailure call) (hpwm : call.pwm = some pwm)
    (hnonneg : 0 ≤ pwm) (hfresh : ¬ (run FanWorld.step .start calls).ReadsFailedAgain call)
    (old : Int32) :
    readIntFromFile (some ((run FanWorld.step .start calls).step call).daemon.fanInput) old =
      some (fanClass pwm).rpm := by
  have hinv : (run FanWorld.step .start calls).Inv :=
    run_of_step FanWorld.Inv (fun _ call hinv => hinv.step call) calls FanWorld.inv_start
  have hreports : (run FanWorld.step .start calls).Reports :=
    run_of_step FanWorld.Reports (fun _ call h => h.step call) calls
      FanWorld.reports_start
  have hfollows := (FanWorld.follows_iff hinv call).mpr hfresh pwm hok hpwm hnonneg
  rw [hreports.step call _ hfollows, readInt_writeInt]

/-! ## The main result -/

/-- **The fan follows the pwm**, in every run of `readset_temp` calls with any pwm
files and any exchanges failing, exactly when no call that gets its temperature
reads again the pwm for which the last fan exchange failed. -/
theorem follows_along_iff (calls : List FanCall) :
    Along FanWorld.step FanWorld.Follows .start calls ↔
      Along FanWorld.step (fun w call => ¬ w.ReadsFailedAgain call) .start calls :=
  along_congr FanWorld.Inv (fun _ call hinv => FanWorld.follows_iff hinv call)
    (fun _ call hinv => hinv.step call) FanWorld.inv_start

/-- A call that reads 41 degrees and the given pwm. -/
def fanCall (pwm : Int32) (fanOk : Bool) : FanCall :=
  { thermal := some (thermalStatusGetCmd.body.take 5 ++ [0x5b, stopMagic])
    beyond := 0
    pwmFile := some (writeIntToFile pwm)
    pwmJunk := 0
    fanOk := fanOk }

/-- Full speed is asked for, the exchange fails, and every later call reads the
same pwm and leaves the fan as it is. -/
theorem fan_not_followed :
    let w := FanWorld.start.step (fanCall 255 false)
    let call := fanCall 255 true
    w.NoFailure call ∧ call.pwm = some 255 ∧ (w.step call).acked ≠ some (fanClass 255) := by
  decide +kernel

end AltF.Mcu
