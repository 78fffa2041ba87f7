/-
  Sysctrl/FanLog.lean --- `fanlog` of sysctrl.c: the log of fan speeds and temperatures, and
  the one before it.

  A log that has grown over 32 KB is renamed, over the one that was renamed before, and a new
  one is begun.  What is open is kept open from call to call, at the end of the log.
-/
import AltF.Foundation.Runs
import AltF.SysFiles.Text

set_option autoImplicit false

namespace AltF.Sysctrl

open AltF.Foundation AltF.SysFiles

/-! ## The program -/

/-- The files, and what the daemon has open. -/
structure FanLog where
  /-- `/var/log/fantemp.log` -/
  log : Option Text
  /-- `/var/log/fantemp.log.old` -/
  old : Option Text
  /-- the offset in the log, or none where `fd` is -1 -/
  fd : Option Nat
  deriving DecidableEq, Repr

def FanLog.start : FanLog := ⟨none, none, none⟩

/-- The size that is not exceeded by more than a line. -/
def fanLogSize : Nat := 32768

/-- `%b %d %T` -/
structure LogTime where
  text : Text
  length_le : text.length ≤ 15

/-- The numbers of an entry, which are `int`. -/
structure LogEntry where
  time : LogTime
  stemp : Int32
  dtemp : Int32
  pwm : Int32
  fan : Int32

/-- `sprintf` of an entry -/
def LogEntry.line (e : LogEntry) : Text :=
  e.time.text ++ "\tsys_temp=".toList ++ printInt e.stemp.toInt ++ "\tdisk_temp=".toList ++
    printInt e.dtemp.toInt ++ "\tpwm=".toList ++ printInt e.pwm.toInt ++ "\tfan=".toList ++
    printInt e.fan.toInt ++ ['\n']

/-- The array `buf` that the line is printed to. -/
def fanLogBuffer : Nat := 128

/-- `write` of a text at an offset -/
def writeAt (t : Text) (n : Nat) (u : Text) : Text :=
  t.take n ++ List.replicate (n - t.length) '\x00' ++ u ++ t.drop (n + u.length)

/-- A call, and which of its system calls succeed; the daemon may be killed in front of the
last one. -/
structure LogCall where
  entry : LogEntry
  opens : Bool
  reopens : Bool
  writes : Bool

/-- The first `open`, and the `lseek` to the end. -/
def FanLog.open (s : FanLog) (opens : Bool) : FanLog :=
  match s.fd with
  | some _ => s
  | none => if opens then { s with log := some (s.log.getD []), fd := some (s.log.getD []).length }
      else s

/-- `close`, `rename` and the second `open`, where the offset is above the size. -/
def FanLog.rotate (s : FanLog) (reopens : Bool) : FanLog :=
  if s.fd.any fun n => decide (fanLogSize < n) then
    if reopens then ⟨some [], s.log, some 0⟩ else ⟨none, s.log, none⟩
  else s

/-- `write`, to what is open -/
def FanLog.write (s : FanLog) (line : Text) : FanLog :=
  match s.fd with
  | none => s
  | some n => { s with log := some (writeAt (s.log.getD []) n line), fd := some (n + line.length) }

/-- `fanlog`, with the line where it was written -/
def FanLog.fanlog (s : FanLog) (c : LogCall) : FanLog × Option Text :=
  let s := (s.open c.opens).rotate c.reopens
  if s.fd.isSome && c.writes then (s.write c.entry.line, some c.entry.line) else (s, none)

/-- A call, or the end of the daemon and another one. -/
inductive LogEvent where
  | call (c : LogCall)
  | restart

/-- The files with all lines that were ever written. -/
structure LogRun where
  files : FanLog
  written : List Text

def LogRun.step (r : LogRun) : LogEvent → LogRun
  | .call c =>
      let (files, line) := r.files.fanlog c
      ⟨files, r.written ++ line.toList⟩
  | .restart => ⟨{ r.files with fd := none }, r.written⟩

/-! ## Lines -/

theorem length_printInt (v : Int32) : (printInt v.toInt).length ≤ 11 := by
  have hlo := v.le_toInt
  have hhi := v.toInt_lt
  exact printInt_length_le (k := 10) (by decide) (by omega) (by omega)

theorem length_line (e : LogEntry) : e.line.length ≤ 91 := by
  have htime := e.time.length_le
  have hstemp := length_printInt e.stemp
  have hdtemp := length_printInt e.dtemp
  have hpwm := length_printInt e.pwm
  have hfan := length_printInt e.fan
  have hnames : "\tsys_temp=".toList.length = 10 ∧ "\tdisk_temp=".toList.length = 11 ∧
      "\tpwm=".toList.length = 5 ∧ "\tfan=".toList.length = 5 := by decide
  obtain ⟨h₁, h₂, h₃, h₄⟩ := hnames
  simp only [LogEntry.line, List.length_append, List.length_cons, List.length_nil, h₁, h₂, h₃, h₄]
  omega

/-- **A line fits the buffer**, with its null byte. -/
theorem length_line_lt (e : LogEntry) : e.line.length < fanLogBuffer :=
  Nat.lt_of_le_of_lt (length_line e) (by decide)

/-- What is written at the end is appended. -/
theorem writeAt_length (t u : Text) : writeAt t t.length u = t ++ u := by
  rw [writeAt, List.take_length, Nat.sub_self, List.replicate_zero, List.append_nil,
    List.drop_eq_nil_of_le (Nat.le_add_right _ _), List.append_nil]

/-! ## What is kept -/

/-- The lines that are lost, those in the old log and those in the log. -/
structure Kept (s : FanLog) (lost older newer : List Text) : Prop where
  log : s.log.getD [] = newer.flatten
  old : s.old.getD [] = older.flatten
  offset : ∀ n, s.fd = some n → s.log = some newer.flatten ∧ n = newer.flatten.length
  log_le : newer.flatten.length ≤ fanLogSize + 91
  old_size : s.old ≠ none → fanLogSize < older.flatten.length ∧
    older.flatten.length ≤ fanLogSize + 91
  first : s.old = none → lost = [] ∧ older = []

section Kept

variable {s : FanLog} {lost older newer : List Text}

theorem kept_start : Kept .start [] [] [] where
  log := rfl
  old := rfl
  offset := nofun
  log_le := Nat.zero_le _
  old_size := fun h => absurd rfl h
  first := fun _ => ⟨rfl, rfl⟩

theorem Kept.open (h : Kept s lost older newer) (opens : Bool) :
    Kept (s.open opens) lost older newer := by
  unfold FanLog.open
  cases hfd : s.fd with
  | some n => exact h
  | none =>
      cases opens with
      | false => exact h
      | true =>
          refine ⟨h.log, h.old, ?_, h.log_le, h.old_size, h.first⟩
          intro n hn
          obtain rfl := Option.some.inj hn
          rw [h.log]
          exact ⟨rfl, rfl⟩

/-- A log that is renamed takes the place of an older one. -/
theorem Kept.rotate (h : Kept s lost older newer) (reopens : Bool) :
    Kept (s.rotate reopens) lost older newer ∧
        (∀ n, (s.rotate reopens).fd = some n → n ≤ fanLogSize) ∨
      Kept (s.rotate reopens) (lost ++ older) newer [] := by
  unfold FanLog.rotate
  cases hfd : s.fd with
  | none =>
      refine .inl ⟨h, fun n hn => ?_⟩
      rw [Option.any_none, if_neg Bool.false_ne_true, hfd] at hn
      cases hn
  | some n =>
      obtain ⟨hlog, rfl⟩ := h.offset n hfd
      rw [Option.any_some]
      by_cases hfull : fanLogSize < newer.flatten.length
      · rw [if_pos (decide_eq_true hfull)]
        refine .inr ?_
        have hsize : s.log ≠ none → fanLogSize < newer.flatten.length ∧
            newer.flatten.length ≤ fanLogSize + 91 := fun _ => ⟨hfull, h.log_le⟩
        have hfirst : s.log = none → lost ++ older = [] ∧ newer = [] := by
          intro hnone
          rw [hlog] at hnone
          cases hnone
        cases reopens with
        | true =>
            refine ⟨rfl, h.log, ?_, Nat.zero_le _, hsize, hfirst⟩
            intro n hn
            obtain rfl := Option.some.inj hn
            exact ⟨rfl, rfl⟩
        | false => exact ⟨rfl, h.log, nofun, Nat.zero_le _, hsize, hfirst⟩
      · rw [if_neg (by rwa [decide_eq_true_iff])]
        refine .inl ⟨h, fun n hn => ?_⟩
        rw [hfd] at hn
        obtain rfl := Option.some.inj hn
        exact Nat.le_of_not_lt hfull

theorem Kept.write (h : Kept s lost older newer) {n : Nat} (hfd : s.fd = some n)
    (hsize : n ≤ fanLogSize) (e : LogEntry) :
    Kept (s.write e.line) lost older (newer ++ [e.line]) := by
  obtain ⟨hlog, rfl⟩ := h.offset n hfd
  have hflatten : (newer ++ [e.line]).flatten = newer.flatten ++ e.line := by
    rw [List.flatten_append, List.flatten_singleton]
  have hwrite : writeAt (s.log.getD []) newer.flatten.length e.line =
      (newer ++ [e.line]).flatten := by
    rw [hlog, Option.getD_some, writeAt_length, hflatten]
  have hline := length_line e
  unfold FanLog.write
  rw [hfd]
  refine ⟨hwrite, h.old, ?_, ?_, h.old_size, h.first⟩
  · intro n hn
    obtain rfl := Option.some.inj hn
    exact ⟨congrArg some hwrite, by rw [hflatten, List.length_append]⟩
  · rw [hflatten, List.length_append]
    omega

theorem Kept.restart (h : Kept s lost older newer) :
    Kept { s with fd := none } lost older newer :=
  ⟨h.log, h.old, nofun, h.log_le, h.old_size, h.first⟩

/-- **A call** adds its line, if it is written, to what is kept. -/
theorem Kept.fanlog (h : Kept s lost older newer) (c : LogCall) :
    ∃ lost' older' newer', Kept (s.fanlog c).1 lost' older' newer' ∧
      lost' ++ older' ++ newer' = lost ++ older ++ newer ++ (s.fanlog c).2.toList := by
  have hwrite : ∀ {s' : FanLog} {lost older newer : List Text}, Kept s' lost older newer →
      (∀ n, s'.fd = some n → n ≤ fanLogSize) →
        ∃ newer', Kept (if s'.fd.isSome && c.writes then (s'.write c.entry.line,
          some c.entry.line) else (s', none)).1 lost older newer' ∧ newer' = newer ++
            (if s'.fd.isSome && c.writes then (s'.write c.entry.line, some c.entry.line)
              else (s', none) : FanLog × Option Text).2.toList := by
    intro s' lost older newer h hsize
    split
    · rename_i hwrites
      rw [Bool.and_eq_true] at hwrites
      obtain ⟨n, hn⟩ := Option.isSome_iff_exists.mp hwrites.1
      exact ⟨_, h.write hn (hsize n hn) c.entry, rfl⟩
    · exact ⟨newer, h, (List.append_nil newer).symm⟩
  rcases (h.open c.opens).rotate c.reopens with ⟨hkept, hsize⟩ | hkept
  · obtain ⟨newer', hnext, hnewer⟩ := hwrite hkept hsize
    exact ⟨lost, older, newer', hnext, by rw [hnewer, ← List.append_assoc]; rfl⟩
  · have hsize : ∀ n, ((s.open c.opens).rotate c.reopens).fd = some n → n ≤ fanLogSize := by
      intro n hn
      obtain ⟨-, rfl⟩ := hkept.offset n hn
      exact Nat.zero_le _
    obtain ⟨newer', hnext, hnewer⟩ := hwrite hkept hsize
    exact ⟨lost ++ older, newer, newer', hnext, by rw [hnewer, List.nil_append]; rfl⟩

end Kept

/-- **The fan log over runs**, with daemons that are killed and started again: the log and the one
before it have the last lines that were written, whole and in order; either has at most a line
above its size, and where lines are lost the old log has its full size. -/
theorem fan_log_kept (events : List LogEvent) :
    ∃ lost older newer : List Text,
      (run LogRun.step ⟨.start, []⟩ events).written = lost ++ older ++ newer ∧
        Kept (run LogRun.step ⟨.start, []⟩ events).files lost older newer := by
  have hstep : ∀ r e, (∃ lost older newer : List Text, r.written = lost ++ older ++ newer ∧
      Kept r.files lost older newer) → ∃ lost older newer : List Text,
        (LogRun.step r e).written = lost ++ older ++ newer ∧
          Kept (LogRun.step r e).files lost older newer := by
    rintro r e ⟨lost, older, newer, hwritten, hkept⟩
    cases e with
    | call c =>
        obtain ⟨lost', older', newer', hnext, hlines⟩ := hkept.fanlog c
        refine ⟨lost', older', newer', ?_, hnext⟩
        rw [hlines, ← hwritten]
        rfl
    | restart => exact ⟨lost, older, newer, hwritten, hkept.restart⟩
  exact run_of_step _ hstep events ⟨[], [], [], rfl, kept_start⟩

end AltF.Sysctrl
