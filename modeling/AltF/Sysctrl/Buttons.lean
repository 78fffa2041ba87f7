/-
  Sysctrl/Buttons.lean --- the front button in `mainloop` of sysctrl.c.

  The loop counts ticks and changes state when the count is exactly 3, 6 or 9 at
  a tick of the front button.  A tick of another button is counted and then
  leaves the loop body, and the abort at 9 starts the count again while the
  button is still held; both show in what a release means.
-/
import Mathlib.Data.List.DropRight
import Mathlib.Dynamics.PeriodicPts.Defs
import AltF.Foundation.Runs

set_option autoImplicit false

namespace AltF.Sysctrl

open AltF.Foundation

/-! ## The loop body -/

/-- `enum Button`. -/
inductive Button where
  | none_
  | front
  | reset
  | usb
  deriving DecidableEq, Repr

/-- The states of the front button. -/
inductive FrontState where
  | idle
  | halt
  | reboot
  deriving DecidableEq, Repr

/-- The counts at which the state changes: `HALT`, `REBOOT` and `ABORT`. -/
def haltCount : Nat := 3
def rebootCount : Nat := 6
def abortCount : Nat := 9

def fanInterval : Nat := 15
def powercheckInterval : Nat := 5

/-- What the loop calls. -/
inductive Task where
  | fanctl
  | hddPowercheck
  | mdStat
  | checkSyserrlog
  | ledsProc
  | ledsOff
  | backButton
  /-- `led_blink(right_led, "250", "250")` -/
  | blinkRight
  /-- `led_set(right_led, "0")` -/
  | clearRight
  /-- `led_blink(left_led, "250", "250")` -/
  | blinkLeft
  | poweroff
  | reboot
  deriving DecidableEq, Repr

/-- The local variables of `mainloop`. -/
structure MainState where
  count : Nat
  state : FrontState
  powercheckCount : Nat
  fanCount : Nat
  deriving DecidableEq, Repr

/-- The variables at the first tick. -/
def MainState.start : MainState :=
  ⟨0, .idle, powercheckInterval - 1, fanInterval - 1⟩

/-- The `switch`, on the count and the state.  `poweroff` and `reboot` return
when their `execl` fails. -/
def frontSwitch (bt : Button) (count : Nat) (state : FrontState) :
    Nat × FrontState × List Task :=
  match state with
  | .idle =>
      if bt = .none_ then (0, .idle, [])
      else if count = haltCount then (count, .halt, [.blinkRight])
      else (count, .idle, [])
  | .halt =>
      if bt = .none_ then (0, .idle, [.ledsOff, .poweroff])
      else if count = rebootCount then (count, .reboot, [.clearRight, .blinkLeft])
      else (count, .halt, [])
  | .reboot =>
      if bt = .none_ then (0, .idle, [.ledsOff, .reboot])
      else if count = abortCount then (0, .idle, [.ledsOff])
      else (count, .reboot, [])

/-- The calls in front of the `switch`. -/
def housekeeping (bt : Button) (s : MainState) : List Task :=
  (if s.fanCount % fanInterval = 0 then [.fanctl] else []) ++
  (if (s.powercheckCount + 1) % powercheckInterval = 0 ∧ bt = .none_ then
    [.hddPowercheck, .mdStat, .checkSyserrlog, .ledsProc] else []) ++
  if bt ≠ .none_ ∧ s.state = .idle then [.ledsOff] else []

/-- One turn of the loop, with the button `debounce` reports: the variables and
the calls made. -/
def tickTasks (s : MainState) (bt : Button) : MainState × List Task :=
  let count := s.count + 1
  let powercheckCount := s.powercheckCount + 1
  let fanCount := s.fanCount + 1
  if bt = .reset ∨ bt = .usb then
    -- The count is kept, and the `switch` is passed over.
    (⟨count, s.state, powercheckCount, fanCount⟩, housekeeping bt s ++ [.backButton])
  else
    let (count, state, tasks) := frontSwitch bt count s.state
    (⟨count, state, powercheckCount, fanCount⟩, housekeeping bt s ++ tasks)

def tick (s : MainState) (bt : Button) : MainState := (tickTasks s bt).1

/-- The variables after a sequence of ticks. -/
def mainloop (bts : List Button) : MainState := run tick .start bts

/-- The calls of the tick that follows a sequence of ticks. -/
def tasksAfter (bts : List Button) (bt : Button) : List Task := (tickTasks (mainloop bts) bt).2

/-! ## What a tick calls -/

theorem power_not_mem_housekeeping (bt : Button) (s : MainState) :
    Task.poweroff ∉ housekeeping bt s ∧ Task.reboot ∉ housekeeping bt s := by
  unfold housekeeping
  constructor <;> split_ifs <;> decide

theorem mem_frontSwitch_iff (bt : Button) (count : Nat) (state : FrontState) :
    (.poweroff ∈ (frontSwitch bt count state).2.2 ↔ bt = .none_ ∧ state = .halt) ∧
      (.reboot ∈ (frontSwitch bt count state).2.2 ↔ bt = .none_ ∧ state = .reboot) := by
  unfold frontSwitch
  cases state with
  | idle =>
      simp only
      split_ifs <;> simp
  | halt =>
      simp only
      split_ifs with hbt <;> simp [hbt]
  | reboot =>
      simp only
      split_ifs with hbt <;> simp [hbt]

/-- `poweroff` and `reboot` are called at a release, in their states. -/
theorem mem_tickTasks_iff (s : MainState) (bt : Button) :
    (.poweroff ∈ (tickTasks s bt).2 ↔ bt = .none_ ∧ s.state = .halt) ∧
      (.reboot ∈ (tickTasks s bt).2 ↔ bt = .none_ ∧ s.state = .reboot) := by
  obtain ⟨hoff, hreboot⟩ := power_not_mem_housekeeping bt s
  unfold tickTasks
  by_cases hback : bt = .reset ∨ bt = .usb
  · have hne : bt ≠ .none_ := by
      rintro rfl
      rcases hback with h | h <;> cases h
    simp [hback, hoff, hreboot, hne]
  · simp only [if_neg hback, List.mem_append, hoff, hreboot, false_or]
    exact mem_frontSwitch_iff bt (s.count + 1) s.state

/-! ## Count and state -/

/-- Count and state after a tick. -/
def advance (p : Nat × FrontState) (bt : Button) : Nat × FrontState :=
  if bt = .reset ∨ bt = .usb then (p.1 + 1, p.2)
  else ((frontSwitch bt (p.1 + 1) p.2).1, (frontSwitch bt (p.1 + 1) p.2).2.1)

theorem tick_advance (s : MainState) (bt : Button) :
    ((tick s bt).count, (tick s bt).state) = advance (s.count, s.state) bt := by
  unfold tick tickTasks advance
  by_cases hback : bt = .reset ∨ bt = .usb
  · simp only [if_pos hback]
  · simp only [if_neg hback]

/-- The count at which a state is entered. -/
def FrontState.entry : FrontState → Nat
  | .idle => 0
  | .halt => haltCount
  | .reboot => rebootCount

/-- The state that follows when the button is held. -/
def FrontState.next : FrontState → FrontState
  | .idle => .halt
  | .halt => .reboot
  | .reboot => .idle

section Advance

variable {state : FrontState} {bt : Button} {count : Nat}

/-- A release leaves nothing behind. -/
theorem advance_none (p : Nat × FrontState) : advance p .none_ = (0, .idle) := by
  obtain ⟨count, state⟩ := p
  cases state <;> rfl

/-- Off the count of a state nothing but the count changes. -/
theorem advance_count (hbt : bt ≠ .none_) (hcount : count + 1 ≠ state.entry + 3) :
    advance (count, state) bt = (count + 1, state) := by
  unfold advance
  by_cases hback : bt = .reset ∨ bt = .usb
  · simp only [if_pos hback]
  · simp only [if_neg hback]
    cases state with
    | idle =>
        have hhalt : ¬ count + 1 = haltCount := hcount
        simp only [frontSwitch, if_neg hbt, if_neg hhalt]
    | halt =>
        have hreboot : ¬ count + 1 = rebootCount := hcount
        simp only [frontSwitch, if_neg hbt, if_neg hreboot]
    | reboot =>
        have habort : ¬ count + 1 = abortCount := hcount
        simp only [frontSwitch, if_neg hbt, if_neg habort]

/-- At the count of a state a tick of the front button leads to the next. -/
theorem advance_front :
    advance (state.entry + 2, state) .front = (state.next.entry, state.next) := by
  cases state <;> rfl

/-- At the count of a state another button is only counted. -/
theorem advance_back (hbt : bt ≠ .none_) (hfront : bt ≠ .front) :
    advance (count, state) bt = (count + 1, state) := by
  have hback : bt = .reset ∨ bt = .usb := by
    cases bt with
    | none_ => exact absurd rfl hbt
    | front => exact absurd rfl hfront
    | reset => exact Or.inl rfl
    | usb => exact Or.inr rfl
  simp only [advance, if_pos hback]

/-- Once its count is missed a state stays until the release. -/
theorem advance_missed {bts : List Button} (hbts : .none_ ∉ bts)
    (hcount : state.entry + 3 ≤ count) : (bts.foldl advance (count, state)).2 = state := by
  induction bts generalizing count with
  | nil => rfl
  | cons bt bts ih =>
      simp only [List.mem_cons, not_or] at hbts
      rw [List.foldl_cons, advance_count (Ne.symm hbts.1) (by omega)]
      exact ih hbts.2 (by omega)

end Advance

/-! ## Presses -/

/-- The ticks since the last release. -/
def press (bts : List Button) : List Button := bts.rtakeWhile (· ≠ .none_)

/-- The number of consecutive ticks of the front button at the end. -/
def frontRun (bts : List Button) : Nat := (bts.rtakeWhile (· = .front)).length

/-- How many of the ticks 3, 6, 9, ... of a press are ticks of the front button,
up to the first one that is not. -/
def checkpoints : List Button → Nat
  | _ :: _ :: bt :: bts => if bt = .front then checkpoints bts + 1 else 0
  | _ => 0

theorem none_not_mem_press (bts : List Button) : .none_ ∉ press bts := by
  intro h
  have hne := List.mem_rtakeWhile_imp h
  simp at hne

theorem press_concat (bts : List Button) (bt : Button) :
    press (bts ++ [bt]) = if bt = .none_ then [] else press bts ++ [bt] := by
  unfold press
  rw [List.rtakeWhile_concat]
  by_cases h : bt = .none_ <;> simp [h]

/-- Count and state depend on the ticks since the last release alone. -/
theorem mainloop_press (bts : List Button) :
    ((mainloop bts).count, (mainloop bts).state) = (press bts).foldl advance (0, .idle) := by
  induction bts using List.reverseRecOn with
  | nil => rfl
  | append_singleton bts bt ih =>
      have hlast : mainloop (bts ++ [bt]) = tick (mainloop bts) bt := run_append _ _ _
      rw [hlast, tick_advance, ih, press_concat]
      split_ifs with hbt
      · rw [hbt, advance_none]
        rfl
      · rw [List.foldl_append]
        rfl

/-- **What a press leads to**: one state further for each checkpoint. -/
theorem foldl_advance {bts : List Button} (hbts : .none_ ∉ bts) (state : FrontState) :
    (bts.foldl advance (state.entry, state)).2 = FrontState.next^[checkpoints bts] state := by
  induction bts using checkpoints.induct generalizing state with
  | case1 b₁ b₂ bts ih =>
      simp only [List.mem_cons, not_or] at hbts
      obtain ⟨h₁, h₂, -, hrest⟩ := hbts
      have hstep : [b₁, b₂, Button.front].foldl advance (state.entry, state) =
          (state.next.entry, state.next) := by
        simp only [List.foldl_cons, List.foldl_nil]
        rw [advance_count (Ne.symm h₁) (by omega), advance_count (Ne.symm h₂) (by omega)]
        exact advance_front
      calc ((b₁ :: b₂ :: Button.front :: bts).foldl advance (state.entry, state)).2
          = (bts.foldl advance (state.next.entry, state.next)).2 := by
            rw [← hstep, ← List.foldl_append]
            rfl
        _ = FrontState.next^[checkpoints bts] state.next := ih hrest state.next
        _ = FrontState.next^[checkpoints (b₁ :: b₂ :: Button.front :: bts)] state := by
            rw [checkpoints, if_pos rfl, Function.iterate_succ_apply]
  | case2 b₁ b₂ bt bts hfront =>
      simp only [List.mem_cons, not_or] at hbts
      obtain ⟨h₁, h₂, hbt, hrest⟩ := hbts
      simp only [List.foldl_cons]
      rw [advance_count (Ne.symm h₁) (by omega), advance_count (Ne.symm h₂) (by omega),
        advance_back (Ne.symm hbt) hfront, advance_missed hrest (by omega), checkpoints,
        if_neg hfront]
      rfl
  | case3 bts hshort =>
      -- Two ticks at most: the count of the state is not reached.
      rcases bts with _ | ⟨b₁, _ | ⟨b₂, _ | ⟨bt, bts⟩⟩⟩
      · rfl
      · simp only [List.mem_cons, not_or] at hbts
        rw [List.foldl_cons, advance_count (Ne.symm hbts.1) (by omega)]
        rfl
      · simp only [List.mem_cons, not_or] at hbts
        rw [List.foldl_cons, advance_count (Ne.symm hbts.1) (by omega), List.foldl_cons,
          advance_count (Ne.symm hbts.2.1) (by omega)]
        rfl
      · exact absurd rfl (hshort b₁ b₂ bt bts)

/-- The states repeat after three checkpoints. -/
theorem next_iterate_idle (k : Nat) :
    (FrontState.next^[k] .idle = .halt ↔ k % 3 = 1) ∧
      (FrontState.next^[k] .idle = .reboot ↔ k % 3 = 2) := by
  have hperiod : Function.IsPeriodicPt FrontState.next 3 .idle := rfl
  have hmod : FrontState.next^[k] .idle = FrontState.next^[k % 3] .idle :=
    (hperiod.iterate_mod_apply k).symm
  rw [hmod]
  have hlt : k % 3 < 3 := Nat.mod_lt k (by decide)
  generalize k % 3 = r at hlt
  match r with
  | 0 => decide
  | 1 => decide
  | 2 => decide

/-- The state after a sequence of ticks, by its checkpoints. -/
theorem mainloop_state (bts : List Button) :
    ((mainloop bts).state = .halt ↔ checkpoints (press bts) % 3 = 1) ∧
      ((mainloop bts).state = .reboot ↔ checkpoints (press bts) % 3 = 2) := by
  have hstate : (mainloop bts).state = FrontState.next^[checkpoints (press bts)] .idle :=
    calc (mainloop bts).state
        = ((press bts).foldl advance (0, .idle)).2 := congrArg Prod.snd (mainloop_press bts)
      _ = _ := foldl_advance (none_not_mem_press bts) .idle
  rw [hstate]
  exact next_iterate_idle _

/-! ## The law of the front button -/

/-- What the front button promises of the tick that follows a sequence: a run of
three to five ticks and its release power off, one of six to eight reboots, and
nothing else does. -/
def Lawful (bts : List Button) (bt : Button) : Prop :=
  (.poweroff ∈ tasksAfter bts bt ↔ bt = .none_ ∧ 3 ≤ frontRun bts ∧ frontRun bts ≤ 5) ∧
    (.reboot ∈ tasksAfter bts bt ↔ bt = .none_ ∧ 6 ≤ frontRun bts ∧ frontRun bts ≤ 8)

instance (bts : List Button) (bt : Button) : Decidable (Lawful bts bt) := by
  unfold Lawful
  infer_instance

/-- The checkpoints of a press are those of its final run alone: a third of the
run below nine ticks, and from nine on a multiple of three. -/
def Undisturbed (bts : List Button) : Prop :=
  checkpoints (press bts) % 3 = if frontRun bts < 9 then frontRun bts / 3 else 0

instance (bts : List Button) : Decidable (Undisturbed bts) :=
  inferInstanceAs (Decidable (_ = _))

/-- A tick is lawful exactly if it is no release or the press was undisturbed. -/
theorem lawful_iff (bts : List Button) (bt : Button) :
    Lawful bts bt ↔ (bt = .none_ → Undisturbed bts) := by
  obtain ⟨hoff, hreboot⟩ := mem_tickTasks_iff (mainloop bts) bt
  obtain ⟨hhalt, hsecond⟩ := mainloop_state bts
  unfold Lawful tasksAfter Undisturbed
  rw [hoff, hreboot, hhalt, hsecond]
  have hlt : checkpoints (press bts) % 3 < 3 := Nat.mod_lt _ (by decide)
  generalize checkpoints (press bts) % 3 = phase at hlt
  by_cases hbt : bt = .none_
  · simp only [hbt, true_and, true_implies]
    split_ifs <;> omega
  · simp [hbt]

/-- **The law of the front button over runs.**  In a run of the loop every tick is
lawful exactly if every release ends an undisturbed press. -/
theorem front_button_along_iff (bts : List Button) :
    (∀ pre bt post, bts = pre ++ bt :: post → Lawful pre bt) ↔
      ∀ pre post, bts = pre ++ .none_ :: post → Undisturbed pre := by
  constructor
  · intro hlaw pre post hsplit
    exact (lawful_iff pre .none_).mp (hlaw pre .none_ post hsplit) rfl
  · intro hpress pre bt post hsplit
    refine (lawful_iff pre bt).mpr ?_
    rintro rfl
    exact hpress pre post hsplit

/-- The abort at nine starts the count again under the finger: twelve ticks and
the release power off. -/
theorem front_button_unlawful :
    ¬ Lawful (List.replicate 12 .front) .none_ ∧
      .poweroff ∈ tasksAfter (List.replicate 12 .front) .none_ ∧
      ¬ Lawful [.reset, .front, .front] .none_ ∧
      .poweroff ∈ tasksAfter [.reset, .front, .front] .none_ := by
  decide +kernel

/-! ## A press of the front button alone -/

theorem checkpoints_replicate (n : Nat) : checkpoints (List.replicate n .front) = n / 3 := by
  induction n using Nat.strongRecOn with
  | ind n ih =>
      match n with
      | 0 => rfl
      | 1 => rfl
      | 2 => rfl
      | n + 3 =>
          have hrec := ih n (by omega)
          simp only [List.replicate_succ, checkpoints, if_true, hrec]
          omega

theorem press_replicate (bts : List Button) (n : Nat) :
    press (bts ++ .none_ :: List.replicate n .front) = List.replicate n .front := by
  induction n with
  | zero =>
      have hrelease := press_concat bts .none_
      rw [if_pos rfl] at hrelease
      exact hrelease
  | succ n ih =>
      rw [List.replicate_succ', ← List.cons_append, ← List.append_assoc, press_concat, ih,
        if_neg (by decide)]

theorem frontRun_replicate (bts : List Button) (n : Nat) :
    frontRun (bts ++ .none_ :: List.replicate n .front) = n := by
  unfold frontRun
  induction n with
  | zero =>
      have hrelease : (bts ++ [Button.none_]).rtakeWhile (· = .front) = [] := by
        rw [List.rtakeWhile_concat_neg]
        decide
      exact congrArg List.length hrelease
  | succ n ih =>
      rw [List.replicate_succ', ← List.cons_append, ← List.append_assoc,
        List.rtakeWhile_concat_pos _ _ _ (by decide), List.length_append, ih]
      rfl

/-- A press of the front button alone is undisturbed if it is let go before the
twelfth tick, and later within three ticks of an abort. -/
theorem undisturbed_replicate_iff (bts : List Button) (n : Nat) :
    Undisturbed (bts ++ .none_ :: List.replicate n .front) ↔ n < 12 ∨ n % 9 < 3 := by
  unfold Undisturbed
  rw [press_replicate, frontRun_replicate, checkpoints_replicate]
  split_ifs <;> omega

end AltF.Sysctrl
