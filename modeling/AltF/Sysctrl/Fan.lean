/-
  Sysctrl/Fan.lean --- `fanctl` of sysctrl.c, and the loop it closes with
  dns320l-daemon.

  Temperatures are rationals, where the source has floats.  sysctrl chooses a pwm
  from the fan speed it reads, and the speed it reads is the one the daemon
  reports for the pwm sysctrl wrote last.
-/
import Mathlib.Algebra.Order.Ring.Rat
import Mathlib.Tactic.Linarith
import Mathlib.Tactic.Ring
import AltF.Mcu.Fan

set_option autoImplicit false

namespace AltF.Sysctrl

open AltF.Foundation AltF.Mcu AltF.SysFiles

/-! ## Boards and settings -/

/-- `enum Board`. -/
inductive Board where
  | dns323A1
  | dns323B1
  | dns323C1
  | dns321Ax
  | dns325Ax
  | dns320Ax
  | dns320Bx
  | dns320LAx
  | dns327LAx
  | dnr322LAx
  deriving DecidableEq, Repr

/-- `enum FanMode`. -/
inductive FanMode where
  | auto
  | alwaysOff
  | alwaysSlow
  | alwaysFast
  deriving DecidableEq, Repr

/-- The settings `fanctl` reads. -/
structure Args where
  histTemp : Rat
  loFan : Int
  hiFan : Int
  loTemp : Int
  hiTemp : Int
  disksTemp : Bool
  mail : Bool
  fanOffTemp : Int
  maxFanSpeed : Int
  warnTemp : Int
  critTemp : Int
  fanMode : FanMode
  warnTempCommand : Option Text
  critTempCommand : Option Text
  deriving DecidableEq, Repr

/-- The default settings. -/
def defaultArgs : Args :=
  { histTemp := 2, loFan := 2000, hiFan := 5000, loTemp := 40, hiTemp := 50, disksTemp := false,
    mail := true, fanOffTemp := 38, maxFanSpeed := 6000, warnTemp := 52, critTemp := 54,
    fanMode := .auto, warnTempCommand := none
    critTempCommand := some "/usr/sbin/poweroff".toList }

/-- `enum PwdValue`. -/
def pwmOff : Int := 0
def pwmLow : Int := 127
def pwmFast : Int := 255

/-- `enum RPMValue`. -/
def rpmOff : Int := 0
def rpmLow : Int := 3000
def rpmFast : Int := 6000

/-! ## The choice of the pwm -/

/-- The conversion of a float to an `int`. -/
def truncate (q : Rat) : Int := q.num.tdiv q.den

/-- `poly`. -/
def poly (pwm : Rat) (coef : List Rat) : Rat :=
  coef.tail.foldl (fun ret c => pwm * ret + c) (coef.headD 0)

/-- `f2p`. -/
def f2p : List Rat := [2.66029e-9, -4.28952e-5, 0.244737, -328.233]

/-- The pwm of a DNS-323 A1 or B1; `pwm` is the one in the file. -/
def a1b1Pwm (args : Args) (temp : Rat) (fan pwm : Int) : Int :=
  let m : Rat := (args.hiFan - args.loFan) / (args.hiTemp - args.loTemp)
  let b : Rat := args.loFan - m * args.loTemp
  let pwm :=
    if temp < args.fanOffTemp - args.histTemp then 0
    else if temp > args.fanOffTemp + args.histTemp then truncate (poly (temp * m + b) f2p)
    else pwm
  if fan ≥ args.maxFanSpeed then
    let tpwm := truncate (poly args.maxFanSpeed f2p)
    if tpwm < pwm then tpwm else pwm
  else pwm

/-- The pwm of mode `FAN_AUTO`. -/
def autoPwm (args : Args) (temp : Rat) (fan : Int) : Int :=
  if fan = rpmOff then
    if temp > args.fanOffTemp + args.histTemp then pwmLow else pwmOff
  else if fan = rpmLow then
    if temp < args.fanOffTemp - args.histTemp then pwmOff
    else if temp > args.loTemp + args.histTemp then pwmFast
    else pwmLow
  else if fan = rpmFast then
    if temp < args.loTemp - args.histTemp then pwmLow else pwmFast
  else pwmLow

/-- The pwm of the other boards. -/
def modePwm (args : Args) (temp : Rat) (fan : Int) : Int :=
  match args.fanMode with
  | .alwaysOff => pwmOff
  | .alwaysSlow => pwmLow
  | .alwaysFast => pwmFast
  | .auto => autoPwm args temp fan

/-- The pwm `fanctl` writes. -/
def choosePwm (board : Board) (args : Args) (temp : Rat) (fan pwm : Int) : Int :=
  if board = .dns323A1 ∨ board = .dns323B1 then a1b1Pwm args temp fan pwm
  else modePwm args temp fan

/-! ## `fanctl` -/

/-- The static variables of `fanctl`. -/
structure FanState where
  temp : Rat
  logTemp : Rat
  warn : Bool
  crit : Bool
  logFan : Int
  deriving DecidableEq, Repr

/-- What one call reads.  The temperature is read a second time when the filter
starts, and the temperature of the disks only if `disks_temp` is set. -/
structure Readings where
  firstTemp : Int
  temp : Int
  disksTemp : Int
  pwm : Int
  fan : Int
  deriving DecidableEq, Repr

/-- What `fanctl` does besides. -/
inductive Action where
  /-- `fanlog` -/
  | log (stemp dtemp pwm fan : Int)
  /-- "WARNING TEMP", in the system error log -/
  | syserrorlog (fan : Int) (temp : Rat) (limit : Int)
  /-- `smail`, of type "warning" or "CRITICAL" -/
  | smail (critical : Bool) (fan : Int) (temp : Rat) (limit : Int)
  | userscript (script : Text)
  deriving DecidableEq, Repr

/-- `exec_userscript`, which ignores an absent or empty script. -/
def execUserscript : Option Text → List Action
  | none => []
  | some script => if script = [] then [] else [.userscript script]

/-- The warning, and its end. -/
def warning (args : Args) (fan : Int) (s : FanState) : FanState × List Action :=
  let raise := s.temp > args.warnTemp ∧ s.temp < args.critTemp ∧ s.warn = false
  let warn := if raise then true else s.warn
  ({ s with warn := if s.temp < args.warnTemp ∧ warn = true then false else warn },
    if raise then
      [.syserrorlog fan s.temp args.warnTemp] ++
        (if args.mail then [.smail false fan s.temp args.warnTemp] else []) ++
        execUserscript args.warnTempCommand
    else [])

/-- The alarm, and its end.  Its message is composed but not logged. -/
def overheat (args : Args) (fan : Int) (s : FanState) : FanState × List Action :=
  let raise := s.temp > args.critTemp ∧ s.crit = false
  let crit := if raise then true else s.crit
  ({ s with crit := if s.temp < args.critTemp ∧ crit = true then false else crit },
    if raise then
      (if args.mail then [.smail true fan s.temp args.critTemp] else []) ++
        execUserscript args.critTempCommand
    else [])

/-- The filtered temperature after a call. -/
def filterTemp (args : Args) (temp : Rat) (r : Readings) : Rat :=
  let temp := if temp = 0 then (r.firstTemp : Rat) / 1000 else temp
  let stemp := r.temp.tdiv 1000
  let dtemp := if args.disksTemp then r.disksTemp else 0
  0.9 * (max stemp dtemp : Int) + 0.1 * temp

/-- The entry in the fan log, when temperature or fan speed have moved. -/
def fanlog (args : Args) (r : Readings) (s : FanState) : FanState × List Action :=
  let dtemp := if args.disksTemp then r.disksTemp else 0
  if abs (s.temp - s.logTemp) > 1 ∨ (r.fan - s.logFan).natAbs > 400 then
    ({ s with logTemp := s.temp, logFan := r.fan },
      [.log (r.temp.tdiv 1000) dtemp r.pwm r.fan])
  else (s, [])

/-- `fanctl`: the pwm it writes, and everything else it does. -/
def fanctl (board : Board) (args : Args) (s : FanState) (r : Readings) :
    FanState × Int × List Action :=
  let s := { s with temp := filterTemp args s.temp r }
  let (s, logged) := fanlog args r s
  let pwm := choosePwm board args s.temp r.fan r.pwm
  let (s, warned) := warning args r.fan s
  let (s, alarmed) := overheat args r.fan s
  (s, pwm, logged ++ warned ++ alarmed)

/-- The temperature that counts is the filtered one. -/
theorem fanctl_temp (board : Board) (args : Args) (s : FanState) (r : Readings) :
    (fanctl board args s r).1.temp = filterTemp args s.temp r := by
  simp only [fanctl, fanlog, warning, overheat]
  split <;> rfl

theorem fanctl_pwm (board : Board) (args : Args) (s : FanState) (r : Readings) :
    (fanctl board args s r).2.1 = choosePwm board args (filterTemp args s.temp r) r.fan r.pwm := by
  simp only [fanctl, fanlog]
  split <;> rfl

/-! ## The closed loop -/

/-- The fan speed dns320l-daemon reports for a pwm. -/
def reportedFan (pwm : Int) : Int := (fanClass (Int32.ofInt pwm)).rpm.toInt

/-- **The reading the loop is closed with** is the daemon's: `read_fan` finds it
after a call of `readset_temp` that read the pwm and whose exchanges succeeded. -/
theorem reportedFan_of_run (calls : List FanCall) {call : FanCall} {pwm : Int32}
    (hok : (run FanWorld.step .start calls).NoFailure call) (hpwm : call.pwm = some pwm)
    (hnonneg : 0 ≤ pwm) (hfresh : ¬ (run FanWorld.step .start calls).ReadsFailedAgain call) :
    (readIntFromFile (some ((run FanWorld.step .start calls).step call).daemon.fanInput) 0).map
      Int32.toInt = some (reportedFan pwm.toInt) := by
  rw [FanWorld.reports_followed calls hok hpwm hnonneg hfresh, Option.map_some, reportedFan,
    Int32.ofInt_toInt]

/-- `fanctl`'s memory and the two files it shares with the daemon. -/
structure Loop where
  ctl : FanState
  pwm : Int
  fan : Int
  deriving DecidableEq, Repr

/-- The temperatures of one call. -/
structure Temps where
  first : Int
  board : Int
  disks : Int
  deriving DecidableEq, Repr

/-- One call of `fanctl`, and the daemon's answer to the pwm. -/
def Loop.step (board : Board) (args : Args) (l : Loop) (t : Temps) : Loop :=
  let (ctl, pwm, _) := fanctl board args l.ctl ⟨t.first, t.board, t.disks, l.pwm, l.fan⟩
  ⟨ctl, pwm, reportedFan pwm⟩

/-- The loop after `n` calls. -/
def Loop.after (board : Board) (args : Args) (l : Loop) (temps : Nat → Temps) : Nat → Loop
  | 0 => l
  | n + 1 => Loop.step board args (Loop.after board args l temps n) (temps n)

/-- The three pwm values of mode `FAN_AUTO`. -/
def IsLevel (pwm : Int) : Prop := pwm = pwmOff ∨ pwm = pwmLow ∨ pwm = pwmFast

/-- The pwm that follows a pwm, at a filtered temperature. -/
def nextPwm (args : Args) (temp : Rat) (pwm : Int) : Int := autoPwm args temp (reportedFan pwm)

section Auto

variable (args : Args) (temp : Rat)

theorem autoPwm_isLevel (fan : Int) : IsLevel (autoPwm args temp fan) := by
  unfold autoPwm IsLevel
  split_ifs <;> simp

theorem nextPwm_off :
    nextPwm args temp pwmOff =
      if temp > args.fanOffTemp + args.histTemp then pwmLow else pwmOff := rfl

theorem nextPwm_low :
    nextPwm args temp pwmLow =
      if temp < args.fanOffTemp - args.histTemp then pwmOff
      else if temp > args.loTemp + args.histTemp then pwmFast
      else pwmLow := rfl

theorem nextPwm_fast :
    nextPwm args temp pwmFast =
      if temp < args.loTemp - args.histTemp then pwmLow else pwmFast := rfl

variable {args temp}

/-- Two calls on the fan has settled: at one temperature a step down and a step
up exclude each other, whatever the order of the thresholds. -/
theorem nextPwm_settled (hhist : 0 ≤ args.histTemp) {pwm : Int} (h : IsLevel pwm) :
    nextPwm args temp (nextPwm args temp (nextPwm args temp pwm)) =
      nextPwm args temp (nextPwm args temp pwm) := by
  rcases h with rfl | rfl | rfl <;>
    simp only [nextPwm_off, nextPwm_low, nextPwm_fast, apply_ite (nextPwm args temp)] <;>
    split_ifs <;> first | rfl | linarith

/-- Above both bands the fan goes fast. -/
theorem nextPwm_hot (hhist : 0 ≤ args.histTemp)
    (hhot : (max args.fanOffTemp args.loTemp : Int) + args.histTemp < temp) {pwm : Int}
    (h : IsLevel pwm) : nextPwm args temp (nextPwm args temp pwm) = pwmFast := by
  have hoff : (args.fanOffTemp : Rat) ≤ (max args.fanOffTemp args.loTemp : Int) := by
    exact_mod_cast le_max_left args.fanOffTemp args.loTemp
  have hlo : (args.loTemp : Rat) ≤ (max args.fanOffTemp args.loTemp : Int) := by
    exact_mod_cast le_max_right args.fanOffTemp args.loTemp
  rcases h with rfl | rfl | rfl <;>
    simp only [nextPwm_off, nextPwm_low, nextPwm_fast, apply_ite (nextPwm args temp)] <;>
    split_ifs <;> first | rfl | linarith

/-- Below both bands the fan stops. -/
theorem nextPwm_cold (hhist : 0 ≤ args.histTemp)
    (hcold : temp < (min args.fanOffTemp args.loTemp : Int) - args.histTemp) {pwm : Int}
    (h : IsLevel pwm) : nextPwm args temp (nextPwm args temp pwm) = pwmOff := by
  have hoff : ((min args.fanOffTemp args.loTemp : Int) : Rat) ≤ args.fanOffTemp := by
    exact_mod_cast min_le_left args.fanOffTemp args.loTemp
  have hlo : ((min args.fanOffTemp args.loTemp : Int) : Rat) ≤ args.loTemp := by
    exact_mod_cast min_le_right args.fanOffTemp args.loTemp
  rcases h with rfl | rfl | rfl <;>
    simp only [nextPwm_off, nextPwm_low, nextPwm_fast, apply_ite (nextPwm args temp)] <;>
    split_ifs <;> first | rfl | linarith

/-- One call never takes the fan from off to fast, or back. -/
theorem nextPwm_gradual (args : Args) (temp : Rat) :
    nextPwm args temp pwmOff ≠ pwmFast ∧ nextPwm args temp pwmFast ≠ pwmOff := by
  rw [nextPwm_off, nextPwm_fast]
  constructor <;> split_ifs <;> decide

end Auto

/-! ## Runs of the loop -/

section Runs

variable {board : Board} {args : Args} {l : Loop} {temps : Nat → Temps}

theorem choosePwm_auto (hboard : board ≠ .dns323A1 ∧ board ≠ .dns323B1)
    (hmode : args.fanMode = .auto) (temp : Rat) (fan pwm : Int) :
    choosePwm board args temp fan pwm = autoPwm args temp fan := by
  rw [choosePwm, if_neg (not_or.mpr hboard), modePwm, hmode]

/-- Every call writes the pwm of its filtered temperature and its fan reading. -/
theorem after_succ_pwm (hboard : board ≠ .dns323A1 ∧ board ≠ .dns323B1)
    (hmode : args.fanMode = .auto) (n : Nat) :
    (Loop.after board args l temps (n + 1)).pwm =
      autoPwm args (Loop.after board args l temps (n + 1)).ctl.temp
        (Loop.after board args l temps n).fan := by
  simp only [Loop.after, Loop.step]
  rw [fanctl_pwm, fanctl_temp, choosePwm_auto hboard hmode]

/-- From the second call on the fan reading is the daemon's. -/
theorem after_succ_succ_pwm (l : Loop) (temps : Nat → Temps)
    (hboard : board ≠ .dns323A1 ∧ board ≠ .dns323B1)
    (hmode : args.fanMode = .auto) (n : Nat) :
    (Loop.after board args l temps (n + 2)).pwm =
      nextPwm args (Loop.after board args l temps (n + 2)).ctl.temp
        (Loop.after board args l temps (n + 1)).pwm := by
  rw [after_succ_pwm hboard hmode (n + 1)]
  rfl

/-- A constant board temperature that the filter starts with is what the filter
returns. -/
theorem after_temp_const (hdisks : args.disksTemp = false) {k : Nat}
    (hstart : l.ctl.temp = 0) (htemps : ∀ n, temps n = ⟨1000 * k, 1000 * k, 0⟩) (n : Nat) :
    (Loop.after board args l temps (n + 1)).ctl.temp = k := by
  have hfilter : ∀ t : Rat, t = 0 ∨ t = k → ∀ pwm fan,
      filterTemp args t ⟨1000 * k, 1000 * k, 0, pwm, fan⟩ = k := by
    intro t ht pwm fan
    have hdiv : (1000 * (k : Int)).tdiv 1000 = k := Int.mul_tdiv_cancel_left _ (by decide)
    have hmax : max (k : Int) 0 = k := max_eq_left (Int.natCast_nonneg k)
    have hfirst : (if t = 0 then ((1000 * (k : Int) : Int) : Rat) / 1000 else t) = k := by
      split_ifs with h0
      · push_cast
        ring
      · exact ht.resolve_left h0
    simp only [filterTemp, hdisks, Bool.false_eq_true, if_false, hdiv, hmax, hfirst]
    push_cast
    ring
  induction n with
  | zero =>
      simp only [Loop.after, Loop.step]
      rw [fanctl_temp, htemps]
      exact hfilter _ (Or.inl hstart) _ _
  | succ n ih =>
      rw [Loop.after, Loop.step]
      simp only
      rw [fanctl_temp, htemps]
      exact hfilter _ (Or.inr ih) _ _

end Runs

/-! ## The main result -/

/-- **The automatic fan loop settles.**  Under a constant filtered temperature the
pwm is constant from the third call on, fast above both bands and off below
both; and at any temperatures no two consecutive calls go between off and fast. -/
theorem fan_settles {board : Board} {args : Args}
    (hboard : board ≠ .dns323A1 ∧ board ≠ .dns323B1) (hmode : args.fanMode = .auto)
    (hhist : 0 ≤ args.histTemp) (l : Loop) (temps : Nat → Temps) :
    (∀ temp : Rat, (∀ n, (Loop.after board args l temps (n + 1)).ctl.temp = temp) →
      (∀ n, (Loop.after board args l temps (n + 3)).pwm =
        (Loop.after board args l temps 3).pwm) ∧
      ((max args.fanOffTemp args.loTemp : Int) + args.histTemp < temp →
        (Loop.after board args l temps 3).pwm = pwmFast) ∧
      (temp < (min args.fanOffTemp args.loTemp : Int) - args.histTemp →
        (Loop.after board args l temps 3).pwm = pwmOff)) ∧
    ∀ n, ((Loop.after board args l temps (n + 1)).pwm = pwmOff →
        (Loop.after board args l temps (n + 2)).pwm ≠ pwmFast) ∧
      ((Loop.after board args l temps (n + 1)).pwm = pwmFast →
        (Loop.after board args l temps (n + 2)).pwm ≠ pwmOff) := by
  have hnext := fun n => after_succ_succ_pwm l temps hboard hmode n
  constructor
  · intro temp htemp
    have hlevel : IsLevel (Loop.after board args l temps 1).pwm := by
      rw [after_succ_pwm hboard hmode]
      exact autoPwm_isLevel args _ _
    have hthird : (Loop.after board args l temps 3).pwm =
        nextPwm args temp (nextPwm args temp (Loop.after board args l temps 1).pwm) := by
      rw [hnext 1, hnext 0, htemp, htemp]
    refine ⟨fun n => ?_, fun hhot => ?_, fun hcold => ?_⟩
    · induction n with
      | zero => rfl
      | succ n ih => rw [hnext (n + 2), htemp, ih, hthird, nextPwm_settled hhist hlevel]
    · rw [hthird, nextPwm_hot hhist hhot hlevel]
    · rw [hthird, nextPwm_cold hhist hcold hlevel]
  · intro n
    constructor
    · intro hoff
      rw [hnext n, hoff]
      exact (nextPwm_gradual args _).1
    · intro hfast
      rw [hnext n, hfast]
      exact (nextPwm_gradual args _).2

/-- The daemon as it starts, with a fan speed no pwm gives. -/
def startLoop : Loop := ⟨⟨0, 0, false, false, 0⟩, 0, 1234⟩

theorem fan_settles_hot :
    (Loop.after .dns325Ax defaultArgs startLoop (fun _ => ⟨50000, 50000, 0⟩) 3).pwm = pwmFast := by
  have hboard : Board.dns325Ax ≠ .dns323A1 ∧ Board.dns325Ax ≠ .dns323B1 := by decide
  have hmode : defaultArgs.fanMode = .auto := rfl
  have hsettles := fan_settles hboard hmode (by decide +kernel) startLoop
    fun _ => ⟨50000, 50000, 0⟩
  have hconst : ∀ n, (Loop.after .dns325Ax defaultArgs startLoop
      (fun _ => ⟨50000, 50000, 0⟩) (n + 1)).ctl.temp = (50 : Nat) := fun n =>
    after_temp_const rfl rfl (fun _ => by decide) n
  exact (hsettles.1 (50 : Nat) hconst).2.1 (by decide +kernel)

end AltF.Sysctrl
