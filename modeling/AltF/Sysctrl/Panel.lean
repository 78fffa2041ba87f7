/-
  Sysctrl/Panel.lean --- `mainloop` and `back_button` of sysctrl.c over what the buttons
  deliver: which reports of `debounce` each of them consumes, and what a press leads to.

  `back_button` is called from the loop and has a loop of its own, which takes the reports of
  `debounce` away from `mainloop` until one is not of a back button; that one is taken away too.
-/
import AltF.SysFiles.Text
import AltF.Sysctrl.Debounce

set_option autoImplicit false

namespace AltF.Sysctrl

open AltF.Foundation AltF.SysFiles

/-! ## The program -/

/-- The settings that `back_button` reads. -/
structure PanelArgs where
  recovery : Bool
  backButtonCommand : Option Text
  deriving DecidableEq, Repr

/-- What a call of `button` is given, what `time(NULL)` is when it is called next, and the
settings. -/
structure Poll where
  delivery : Delivery
  clock : Int
  args : PanelArgs
  deriving DecidableEq, Repr

/-- The arguments of recover: `f`, which clears the flash, and `t`, telnet on port 26. -/
inductive Recover where
  | clearFlash
  | telnet
  deriving DecidableEq, Repr

/-- What the two functions call. -/
inductive PanelTask where
  | loop (t : Task)
  | ledsBlink
  | recover (arg : Recover)
  | userscript (cmd : Text)
  | ejectUsb
  | ledsOff
  deriving DecidableEq, Repr

/-- At which call of `debounce` the program is; in `back_button`, with the time of its entry. -/
inductive PanelPlace where
  | loop
  | held (since : Int)
  deriving DecidableEq, Repr

/-- The variables. -/
structure Panel where
  program : Debounce
  main : MainState
  place : PanelPlace
  deriving DecidableEq, Repr

def Panel.start : Panel := ⟨.start, .start, .loop⟩

def Button.isBack : Button → Bool
  | .reset => true
  | .usb => true
  | _ => false

/-- The button that a code stands for.  For the loop anything else is a front button: it is
neither `NO_BT` nor one of the back. -/
def Button.ofCode (v : Int32) : Button :=
  if v = Button.none_.code then .none_
  else if v = Button.reset.code then .reset
  else if v = Button.usb.code then .usb
  else .front

/-- The end of `back_button`, after `count` seconds. -/
def backButtonEnd (args : PanelArgs) (count : Int) : List PanelTask :=
  if args.recovery ∧ 20 < count then [.recover .clearFlash, .ledsOff]
  else if args.recovery ∧ 10 < count then [.recover .telnet, .ledsOff]
  else
    match args.backButtonCommand with
    | some cmd => [.userscript cmd, .ledsOff]
    | none => [.ejectUsb, .ledsOff]

/-- A value that `debounce` returns. -/
def Panel.report (s : Panel) (bt : Button) (p : Poll) : MainState × PanelPlace × List PanelTask :=
  match s.place with
  | .loop =>
      let (main, tasks) := tickTasks s.main bt
      if bt.isBack then (main, .held p.clock, tasks.map .loop ++ [.ledsBlink])
      else (main, .loop, tasks.map .loop)
  | .held since =>
      if bt.isBack then (s.main, .held since, [])
      else (s.main, .loop, backButtonEnd p.args (p.clock - since))

/-- The program, from one call of `button` to the next, and what it calls. -/
def panel (s : Panel) (p : Poll) : Panel × List PanelTask :=
  match debounce s.program p.delivery with
  | (program, none) => ({ s with program := program }, [])
  | (program, some v) =>
      let (main, place, tasks) := s.report (.ofCode v) p
      (⟨program, main, place⟩, tasks)

/-! ## Runs -/

/-- The button that is down when `debounce` returns, and the time. -/
structure Report where
  button : Button
  clock : Int
  deriving DecidableEq, Repr

/-- The program, the last key event, and the reports so far. -/
structure PanelRun where
  panel : Panel
  last : Option KeyEvent
  reports : List Report
  deriving DecidableEq, Repr

namespace PanelRun

def start : PanelRun := ⟨.start, none, []⟩

/-- The same as a run of `debounce`. -/
def buttons (s : PanelRun) : ButtonRun := ⟨s.panel.program, s.last⟩

/-- The report of a call, if `debounce` returns. -/
def reported (s : PanelRun) (p : Poll) : Option Report :=
  (debounce s.panel.program p.delivery).2.map fun _ =>
    ⟨down (s.buttons.lastAfter p.delivery), p.clock⟩

def step (s : PanelRun) (p : Poll) : PanelRun :=
  ⟨(Sysctrl.panel s.panel p).1, s.buttons.lastAfter p.delivery,
    s.reports ++ (s.reported p).toList⟩

/-- What the program calls. -/
def tasks (s : PanelRun) (p : Poll) : List PanelTask := (Sysctrl.panel s.panel p).2

/-- No read fails while a button settles. -/
def ReadsWell (s : PanelRun) (p : Poll) : Prop := NoErrorInLoop s.buttons p.delivery

instance (s : PanelRun) (p : Poll) : Decidable (s.ReadsWell p) :=
  inferInstanceAs (Decidable (p.delivery = .error → s.buttons.program.count = none))

end PanelRun

/-! ## Who gets a report -/

/-- The reports of a back button at the end. -/
def hold (rs : List Report) : List Report := rs.rtakeWhile fun r => r.button.isBack

/-- The reports that `mainloop` gets: those that no report of a back button is in front of. -/
def ticksFrom (held : Bool) : List Report → List Button
  | [] => []
  | r :: rs => (if held then [] else [r.button]) ++ ticksFrom r.button.isBack rs

def ticks (rs : List Report) : List Button := ticksFrom false rs

/-- Where the program is after these reports. -/
def placeAfter (rs : List Report) : PanelPlace :=
  match (hold rs).head? with
  | none => .loop
  | some q => .held q.clock

/-- What is called for a report, after others. -/
def called (rs : List Report) (r : Report) (args : PanelArgs) : List PanelTask :=
  match (hold rs).head? with
  | none =>
      (tasksAfter (ticks rs) r.button).map .loop ++
        if r.button.isBack then [.ledsBlink] else []
  | some q => if r.button.isBack then [] else backButtonEnd args (r.clock - q.clock)

theorem ofCode_code (bt : Button) : Button.ofCode bt.code = bt := by
  cases bt <;> decide

theorem hold_concat (rs : List Report) (r : Report) :
    hold (rs ++ [r]) = if r.button.isBack then hold rs ++ [r] else [] := by
  unfold hold
  rw [List.rtakeWhile_concat]

/-- Whether the last report is one of a back button. -/
def endsBack (held : Bool) (rs : List Report) : Bool :=
  rs.getLast?.elim held fun r => r.button.isBack

theorem endsBack_cons (held : Bool) (r : Report) (rs : List Report) :
    endsBack held (r :: rs) = endsBack r.button.isBack rs := by
  unfold endsBack
  cases rs with
  | nil => rfl
  | cons q rs =>
      rw [List.getLast?_cons_cons, List.getLast?_eq_some_getLast (List.cons_ne_nil q rs)]
      rfl

theorem hold_eq_nil_iff (rs : List Report) : hold rs = [] ↔ endsBack false rs = false := by
  induction rs using List.reverseRecOn with
  | nil => exact iff_of_true rfl rfl
  | append_singleton rs r _ =>
      rw [hold_concat, endsBack, List.getLast?_concat]
      cases hback : r.button.isBack <;> simp [hback]

theorem ticksFrom_concat (held : Bool) (rs : List Report) (r : Report) :
    ticksFrom held (rs ++ [r]) =
      ticksFrom held rs ++ if endsBack held rs then [] else [r.button] := by
  induction rs generalizing held with
  | nil => cases held <;> rfl
  | cons q rs ih =>
      rw [List.cons_append, ticksFrom, ticksFrom, ih, List.append_assoc, endsBack_cons]

theorem ticks_concat (rs : List Report) (r : Report) :
    ticks (rs ++ [r]) = ticks rs ++ if hold rs = [] then [r.button] else [] := by
  unfold ticks
  rw [ticksFrom_concat]
  by_cases hnil : hold rs = []
  · rw [if_pos hnil, (hold_eq_nil_iff rs).mp hnil]
    rfl
  · rw [if_neg hnil, if_pos (Bool.not_eq_false _ ▸ fun h => hnil ((hold_eq_nil_iff rs).mpr h))]

theorem mem_backButtonEnd (args : PanelArgs) (count : Int) :
    (.recover .clearFlash ∈ backButtonEnd args count ↔ args.recovery = true ∧ 20 < count) ∧
      (.recover .telnet ∈ backButtonEnd args count ↔
        args.recovery = true ∧ 10 < count ∧ count ≤ 20) := by
  unfold backButtonEnd
  split_ifs with hclear htelnet
  · simp only [List.mem_cons, List.not_mem_nil, reduceCtorEq, PanelTask.recover.injEq, or_false,
      true_iff, false_iff]
    exact ⟨hclear, fun h => absurd hclear.2 (not_lt.mpr h.2.2)⟩
  · simp only [List.mem_cons, List.not_mem_nil, reduceCtorEq, PanelTask.recover.injEq, or_false,
      true_iff, false_iff]
    exact ⟨hclear, htelnet.1, htelnet.2, not_lt.mp fun h => hclear ⟨htelnet.1, h⟩⟩
  · have hnone : ∀ arg, .recover arg ∉ (match args.backButtonCommand with
        | some cmd => [PanelTask.userscript cmd, .ledsOff]
        | none => [.ejectUsb, .ledsOff]) := by
      intro arg
      cases args.backButtonCommand <;> simp
    exact ⟨iff_of_false (hnone _) hclear,
      iff_of_false (hnone _) fun h => htelnet ⟨h.1, h.2.1⟩⟩

theorem loop_not_mem_backButtonEnd (args : PanelArgs) (count : Int) (t : Task) :
    .loop t ∉ backButtonEnd args count := by
  unfold backButtonEnd
  split_ifs
  · simp
  · simp
  · cases args.backButtonCommand <;> simp

/-! ## The invariant -/

namespace PanelRun

variable {s : PanelRun} {p : Poll}

/-- The program is where the reports have led it. -/
structure Follows (s : PanelRun) : Prop where
  holds : s.buttons.Holds
  place : s.panel.place = placeAfter s.reports
  main : s.panel.main = mainloop (ticks s.reports)

/-- A call after which `debounce` goes on. -/
theorem silent (h : s.reported p = none) :
    s.tasks p = [] ∧ (s.step p).panel.main = s.panel.main ∧
      (s.step p).panel.place = s.panel.place ∧ (s.step p).reports = s.reports := by
  have hnone : (debounce s.panel.program p.delivery).2 = none := Option.map_eq_none_iff.mp h
  have hpanel : Sysctrl.panel s.panel p =
      ({ s.panel with program := (debounce s.panel.program p.delivery).1 }, []) := by
    unfold Sysctrl.panel
    rw [← Prod.mk.eta (p := debounce s.panel.program p.delivery), hnone]
  unfold tasks step
  rw [hpanel, h]
  exact ⟨rfl, rfl, rfl, List.append_nil _⟩

/-- A call after which it returns: the button that is down. -/
theorem returns (h : s.Follows) (hreads : s.ReadsWell p) {r : Report} (hr : s.reported p = some r) :
    s.tasks p = (s.panel.report r.button p).2.2 ∧
      (s.step p).panel.main = (s.panel.report r.button p).1 ∧
      (s.step p).panel.place = (s.panel.report r.button p).2.1 ∧
      (s.step p).reports = s.reports ++ [r] ∧ r.clock = p.clock := by
  obtain ⟨v, hv, hdown⟩ := Option.map_eq_some_iff.mp hr
  have hcode : Button.ofCode v = r.button := by
    rw [((reports_iff h.holds p.delivery).mpr hreads).returned v hv, ofCode_code, ← hdown]
  have hpanel : Sysctrl.panel s.panel p =
      (⟨(debounce s.panel.program p.delivery).1, (s.panel.report r.button p).1,
        (s.panel.report r.button p).2.1⟩, (s.panel.report r.button p).2.2) := by
    unfold Sysctrl.panel
    rw [← Prod.mk.eta (p := debounce s.panel.program p.delivery), hv]
    simp only [hcode]
  unfold tasks step
  rw [hpanel, hr, ← hdown]
  exact ⟨rfl, rfl, rfl, rfl, rfl⟩

theorem placeAfter_eq_loop_iff (rs : List Report) : placeAfter rs = .loop ↔ hold rs = [] := by
  unfold placeAfter
  cases hold rs with
  | nil => exact iff_of_true rfl rfl
  | cons q qs => exact iff_of_false (by simp) (List.cons_ne_nil q qs)

theorem mainloop_concat (bts : List Button) (bt : Button) :
    mainloop (bts ++ [bt]) = (tickTasks (mainloop bts) bt).1 :=
  run_append _ _ _

theorem follows_start : start.Follows := ⟨rfl, rfl, rfl⟩

theorem Follows.step (h : s.Follows) (hreads : s.ReadsWell p) : (s.step p).Follows := by
  have hholds : (s.step p).buttons.Holds := by
    have hprogram : (s.step p).buttons = s.buttons.step p.delivery := by
      unfold PanelRun.step buttons ButtonRun.step Sysctrl.panel
      rcases debounce s.panel.program p.delivery with ⟨program, _ | v⟩ <;> rfl
    rw [hprogram]
    exact holds_step h.holds hreads
  cases hr : s.reported p with
  | none =>
      obtain ⟨-, hmain, hplace, hreports⟩ := silent hr
      exact ⟨hholds, by rw [hplace, hreports, h.place], by rw [hmain, hreports, h.main]⟩
  | some r =>
      obtain ⟨-, hmain, hplace, hreports, hclock⟩ := returns h hreads hr
      refine ⟨hholds, ?_, ?_⟩
      · rw [hplace, hreports, placeAfter, hold_concat]
        unfold Panel.report
        rw [h.place, placeAfter]
        cases hold s.reports with
        | nil => cases hback : r.button.isBack <;> simp [hclock]
        | cons q qs => cases hback : r.button.isBack <;> simp
      · rw [hmain, hreports, ticks_concat]
        unfold Panel.report
        rw [h.place, h.main]
        by_cases hnil : hold s.reports = []
        · rw [if_pos hnil, (placeAfter_eq_loop_iff _).mpr hnil, mainloop_concat]
          cases hback : r.button.isBack <;> simp
        · rw [if_neg hnil, List.append_nil, placeAfter]
          cases hhold : hold s.reports with
          | nil => exact absurd hhold hnil
          | cons q qs => cases hback : r.button.isBack <;> simp

/-! ## What a press leads to -/

theorem Follows.tasks (h : s.Follows) (hreads : s.ReadsWell p) :
    s.tasks p = (s.reported p).elim [] fun r => called s.reports r p.args := by
  cases hr : s.reported p with
  | none => exact (silent hr).1
  | some r =>
      obtain ⟨htasks, -, -, -, hclock⟩ := returns h hreads hr
      rw [htasks, Option.elim_some, called, hclock]
      unfold Panel.report tasksAfter
      rw [h.place, h.main, placeAfter]
      cases (hold s.reports).head? with
      | none => cases hback : r.button.isBack <;> simp
      | some q => cases hback : r.button.isBack <;> simp

theorem follows_run {ps : List Poll} (hreads : Along step ReadsWell start ps) :
    (run step start ps).Follows :=
  run_of_along Follows (fun _ _ h hp => h.step hp) follows_start hreads

/-- Of a run and the call that follows it. -/
theorem tasks_run {ps : List Poll} {p : Poll} (hreads : Along step ReadsWell start (ps ++ [p])) :
    (run step start ps).tasks p =
      ((run step start ps).reported p).elim [] fun r =>
        called (run step start ps).reports r p.args := by
  have hall := along_iff.mp hreads
  have hfront : Along step ReadsWell start ps := along_iff.mpr fun pre q post heq =>
    hall pre q (post ++ [p]) (by rw [heq, List.append_assoc, List.cons_append])
  exact (follows_run hfront).tasks (hall ps p [] rfl)

/-- Recovery is on. -/
def recoveryOn : PanelArgs := ⟨true, none⟩

/-- A button is pressed and settles, and is let go later. -/
def pressAndRelease (key : Key) (polls : Nat) (released : Int) : List Poll :=
  ⟨.key ⟨key, true⟩, 0, recoveryOn⟩ ::
      List.replicate (settleCount + polls) ⟨.empty, 0, recoveryOn⟩ ++
    ⟨.key ⟨key, false⟩, released, recoveryOn⟩ ::
      List.replicate (settleCount - 1) ⟨.empty, released, recoveryOn⟩

end PanelRun

end AltF.Sysctrl
