/-
  Sysctrl/Alarms.lean --- the warning and the alarm of `fanctl`, over any sequence of
  filtered temperatures.

  Each is raised once and held by a latch until the temperature is below its limit.  The
  alarm composes a line for the system error log and does not log it, and above
  `crit_temp` there is no warning either.
-/
import AltF.Foundation.History
import AltF.Sysctrl.Fan

set_option autoImplicit false

namespace AltF.Sysctrl

open AltF.Foundation AltF.SysFiles

/-! ## The end of a call -/

/-- What the end of `fanctl` looks at. -/
structure Sample where
  /-- the filtered temperature -/
  temp : Rat
  fan : Int
  deriving DecidableEq, Repr

section Calls

variable (args : Args)

/-- What the warning does at a call. -/
def warned (s : FanState) (c : Sample) : List Action :=
  (warning args c.fan { s with temp := c.temp }).2

/-- What the alarm does. -/
def alarmed (s : FanState) (c : Sample) : List Action :=
  (overheat args c.fan (warning args c.fan { s with temp := c.temp }).1).2

/-- The static variables after a call. -/
def afterSample (s : FanState) (c : Sample) : FanState :=
  (overheat args c.fan (warning args c.fan { s with temp := c.temp }).1).1

/-- `fanctl` warns and alarms so, at the temperature that it has filtered. -/
theorem fanctl_sample (board : Board) (s : FanState) (r : Readings) :
    let c : Sample := ⟨filterTemp args s.temp r, r.fan⟩
    (fanctl board args s r).2.2 =
        (fanlog args r { s with temp := c.temp }).2 ++ warned args s c ++ alarmed args s c ∧
      (fanctl board args s r).1.warn = (afterSample args s c).warn ∧
      (fanctl board args s r).1.crit = (afterSample args s c).crit := by
  simp only [fanctl, fanlog, warned, alarmed, afterSample, warning, overheat]
  split
  · exact ⟨rfl, rfl, rfl⟩
  · exact ⟨rfl, rfl, rfl⟩

/-! ## The latches -/

/-- The warning is raised. -/
def Warns (s : FanState) (c : Sample) : Prop :=
  args.warnTemp < c.temp ∧ c.temp < args.critTemp ∧ s.warn = false

/-- The alarm is raised. -/
def Alarms (s : FanState) (c : Sample) : Prop := args.critTemp < c.temp ∧ s.crit = false

instance (s : FanState) (c : Sample) : Decidable (Warns args s c) :=
  inferInstanceAs (Decidable (_ ∧ _))

instance (s : FanState) (c : Sample) : Decidable (Alarms args s c) :=
  inferInstanceAs (Decidable (_ ∧ _))

theorem warned_eq (s : FanState) (c : Sample) :
    warned args s c = if Warns args s c then
      [.syserrorlog c.fan c.temp args.warnTemp] ++
        (if args.mail then [.smail false c.fan c.temp args.warnTemp] else []) ++
        execUserscript args.warnTempCommand
    else [] := rfl

theorem alarmed_eq (s : FanState) (c : Sample) :
    alarmed args s c = if Alarms args s c then
      (if args.mail then [.smail true c.fan c.temp args.critTemp] else []) ++
        execUserscript args.critTempCommand
    else [] := rfl

/-- A flag that is set, and then cleared if it may be. -/
theorem setThenClear_eq_true_iff (raise clear : Prop) [Decidable raise] [Decidable clear]
    (flag : Bool) :
    (if clear ∧ (if raise then true else flag) = true then false
      else if raise then true else flag) = true ↔ (raise ∨ flag = true) ∧ ¬ clear := by
  by_cases hraise : raise
  · simp [hraise]
  · cases flag with
    | false => simp [hraise]
    | true => simp [hraise]

theorem afterSample_warn (s : FanState) (c : Sample) :
    (afterSample args s c).warn = true ↔
      (args.warnTemp < c.temp ∧ c.temp < args.critTemp) ∨
        s.warn = true ∧ ¬ c.temp < args.warnTemp := by
  have hflag := setThenClear_eq_true_iff (Warns args s c) (c.temp < args.warnTemp) s.warn
  refine Iff.trans (Iff.of_eq rfl) (hflag.trans ?_)
  unfold Warns
  cases s.warn with
  | false =>
      simp only [Bool.false_eq_true, false_and, or_false, and_true]
      exact ⟨And.left, fun h => ⟨h, not_lt_of_gt h.1⟩⟩
  | true =>
      simp only [Bool.true_eq_false, and_false, true_and, or_true]
      exact ⟨Or.inr, fun h => h.elim (fun hband => not_lt_of_gt hband.1) id⟩

theorem afterSample_crit (s : FanState) (c : Sample) :
    (afterSample args s c).crit = true ↔
      args.critTemp < c.temp ∨ s.crit = true ∧ ¬ c.temp < args.critTemp := by
  have hflag := setThenClear_eq_true_iff (Alarms args s c) (c.temp < args.critTemp) s.crit
  refine Iff.trans (Iff.of_eq rfl) (hflag.trans ?_)
  unfold Alarms
  cases s.crit with
  | false =>
      simp only [Bool.false_eq_true, false_and, or_false, and_true]
      exact ⟨And.left, fun h => ⟨h, not_lt_of_gt h⟩⟩
  | true =>
      simp only [Bool.true_eq_false, and_false, true_and, or_true]
      exact ⟨Or.inr, fun h => h.elim not_lt_of_gt id⟩

/-! ## Runs -/

/-- The static variables as the program starts. -/
def FanState.start : FanState := ⟨0, 0, false, false, 0⟩

/-- They after a sequence of calls. -/
def memory (calls : List Sample) : FanState := run (afterSample args) .start calls

/-- What the end of each call of a run of `fanctl` looks at. -/
def samples (board : Board) : FanState → List Readings → List Sample
  | _, [] => []
  | s, r :: rest =>
      ⟨filterTemp args s.temp r, r.fan⟩ :: samples board (fanctl board args s r).1 rest

/-- The latches are the only memory of the warning and the alarm. -/
theorem afterSample_congr {s s' : FanState} (hwarn : s.warn = s'.warn) (hcrit : s.crit = s'.crit)
    (c : Sample) :
    (afterSample args s c).warn = (afterSample args s' c).warn ∧
      (afterSample args s c).crit = (afterSample args s' c).crit := by
  constructor
  · rw [Bool.eq_iff_iff, afterSample_warn, afterSample_warn, hwarn]
  · rw [Bool.eq_iff_iff, afterSample_crit, afterSample_crit, hcrit]

theorem actions_congr {s s' : FanState} (hwarn : s.warn = s'.warn) (hcrit : s.crit = s'.crit)
    (c : Sample) : warned args s c = warned args s' c ∧ alarmed args s c = alarmed args s' c := by
  constructor
  · rw [warned_eq, warned_eq]
    exact if_congr (by rw [Warns, Warns, hwarn]) rfl rfl
  · rw [alarmed_eq, alarmed_eq]
    exact if_congr (by rw [Alarms, Alarms, hcrit]) rfl rfl

/-- The latches after a run of `fanctl` are those after its samples. -/
theorem fanctl_run (board : Board) {s s' : FanState} (hwarn : s.warn = s'.warn)
    (hcrit : s.crit = s'.crit) (readings : List Readings) :
    let after := run (fun s r => (fanctl board args s r).1) s readings
    let after' := run (afterSample args) s' (samples args board s readings)
    after.warn = after'.warn ∧ after.crit = after'.crit := by
  induction readings generalizing s s' with
  | nil => exact ⟨hwarn, hcrit⟩
  | cons r rest ih =>
      obtain ⟨-, hwarned, hcritical⟩ := fanctl_sample args board s r
      obtain ⟨hwarn', hcrit'⟩ :=
        afterSample_congr args hwarn hcrit ⟨filterTemp args s.temp r, r.fan⟩
      exact ih (hwarned.trans hwarn') (hcritical.trans hcrit')

/-- **A call of `fanctl`**, in any run, warns and alarms as the samples before it have it. -/
theorem fanctl_memory (board : Board) (before : List Readings) (r : Readings) :
    let s := run (fun s r => (fanctl board args s r).1) .start before
    let m := memory args (samples args board .start before)
    let c : Sample := ⟨filterTemp args s.temp r, r.fan⟩
    (fanctl board args s r).2.2 =
      (fanlog args r { s with temp := c.temp }).2 ++ warned args m c ++ alarmed args m c := by
  intro s m c
  obtain ⟨hwarn, hcrit⟩ : s.warn = m.warn ∧ s.crit = m.crit := fanctl_run args board rfl rfl before
  obtain ⟨hwarned, halarmed⟩ := actions_congr args hwarn hcrit c
  rw [(fanctl_sample args board s r).1]
  change _ ++ warned args s c ++ alarmed args s c = _
  rw [hwarned, halarmed]

/-! ## Commands -/

def Action.isScript : Action → Bool
  | .userscript _ => true
  | _ => false

/-- The commands among the actions. -/
def scripts (actions : List Action) : List Action := actions.filter Action.isScript

/-- An excursion above a limit is under way: some call was above it, and none after that
below. -/
def Underway (limit : Rat) (calls : List Sample) : Prop :=
  Since (fun c : Sample => limit < c.temp) (fun c : Sample => c.temp < limit) calls

/-- An excursion starts with a call. -/
def Starts (limit : Rat) (before : List Sample) (c : Sample) : Prop :=
  limit < c.temp ∧ ¬ Underway limit before

theorem memory_crit (calls : List Sample) :
    (memory args calls).crit = true ↔ Underway args.critTemp calls :=
  run_flag FanState.crit (afterSample_crit args) rfl calls

/-- The latch of the warning is set in the band between the limits only. -/
theorem memory_warn (calls : List Sample) :
    (memory args calls).warn = true ↔
      Since (fun c : Sample => args.warnTemp < c.temp ∧ c.temp < args.critTemp)
        (fun c : Sample => c.temp < args.warnTemp) calls :=
  run_flag FanState.warn (afterSample_warn args) rfl calls

theorem scripts_execUserscript (o : Option Text) :
    scripts (execUserscript o) = execUserscript o := by
  unfold scripts execUserscript
  cases o with
  | none => rfl
  | some script => by_cases h : script = [] <;> simp [h, Action.isScript]

theorem scripts_warned (s : FanState) (c : Sample) :
    scripts (warned args s c) = if Warns args s c then execUserscript args.warnTempCommand
      else [] := by
  rw [warned_eq]
  split
  · refine Eq.trans ?_ (scripts_execUserscript args.warnTempCommand)
    cases args.mail <;> rfl
  · rfl

theorem scripts_alarmed (s : FanState) (c : Sample) :
    scripts (alarmed args s c) = if Alarms args s c then execUserscript args.critTempCommand
      else [] := by
  rw [alarmed_eq]
  split
  · refine Eq.trans ?_ (scripts_execUserscript args.critTempCommand)
    cases args.mail <;> rfl
  · rfl

/-- The commands are executed once per excursion, as far as a call has to do with it. -/
structure OncePerExcursion (before : List Sample) (c : Sample) : Prop where
  /-- the critical command, at the first call of an excursion above `crit_temp` -/
  critical : Starts args.critTemp before c →
    scripts (alarmed args (memory args before) c) = execUserscript args.critTempCommand
  /-- and at no other -/
  criticalOnly : ¬ Starts args.critTemp before c →
    scripts (alarmed args (memory args before) c) = []
  /-- the warning command, once or not at all -/
  warning : scripts (warned args (memory args before) c) ∈
    [[], execUserscript args.warnTempCommand]
  /-- not outside an excursion above `warn_temp` -/
  inside : scripts (warned args (memory args before) c) ≠ [] →
    Underway args.warnTemp (before ++ [c])
  /-- and where it has been executed before, that excursion is over -/
  apart : ∀ (earlier : List Sample) (d : Sample) (between : List Sample),
    before = earlier ++ d :: between → scripts (warned args (memory args earlier) d) ≠ [] →
      scripts (warned args (memory args before) c) ≠ [] → ∃ x ∈ between, x.temp < args.warnTemp

/-- **The alarms fire once per excursion**, whatever the temperatures. -/
theorem alarms_once (before : List Sample) (c : Sample) : OncePerExcursion args before c := by
  have hwarns : ∀ {s : FanState} {d : Sample}, scripts (warned args s d) ≠ [] → Warns args s d := by
    intro s d hrun
    rw [scripts_warned] at hrun
    by_contra hnot
    exact hrun (if_neg hnot)
  have halarms : Alarms args (memory args before) c ↔ Starts args.critTemp before c := by
    rw [Alarms, Starts, ← memory_crit, Bool.not_eq_true]
  constructor
  · intro hstarts
    rw [scripts_alarmed, if_pos (halarms.mpr hstarts)]
  · intro hstarts
    rw [scripts_alarmed, if_neg (mt halarms.mp hstarts)]
  · rw [scripts_warned]
    split
    · exact List.mem_cons_of_mem _ List.mem_cons_self
    · exact List.mem_cons_self
  · intro hrun
    exact since_concat.mpr (Or.inl (hwarns hrun).1)
  · rintro earlier d between rfl hearlier hrun
    have hd := hwarns hearlier
    by_contra hnone
    have hlatched : (memory args (earlier ++ d :: between)).warn = true := by
      rw [memory_warn]
      exact ⟨earlier, d, between, rfl, ⟨hd.1, hd.2.1⟩, fun x hx hoff => hnone ⟨x, hx, hoff⟩⟩
    exact absurd (hwarns hrun).2.2 (by rw [hlatched]; decide)

/-! ## The system error log -/

def Action.isLine : Action → Bool
  | .syserrorlog .. => true
  | _ => false

/-- The lines that a sequence of calls appends to the system error log. -/
def errorLog : FanState → List Sample → List Action
  | _, [] => []
  | s, c :: rest =>
      (warned args s c ++ alarmed args s c).filter Action.isLine ++
        errorLog (afterSample args s c) rest

/-- A line states a limit. -/
def States (limit : Int) (line : Action) : Prop := ∃ fan temp, line = .syserrorlog fan temp limit

/-- A maximal excursion above a limit. -/
def Excursion (limit : Int) (before during after : List Sample) : Prop :=
  Block (fun c : Sample => limit < c.temp) before during after

/-- No overheating goes unrecorded. -/
def Recorded (calls : List Sample) : Prop :=
  ∀ before during after, calls = before ++ during ++ after →
    (Excursion args.warnTemp before during after →
      errorLog args (memory args before) during ≠ []) ∧
    (Excursion args.critTemp before during after →
      ∃ line ∈ errorLog args (memory args before) during, States args.critTemp line)

/-- The temperature is never above `crit_temp`; every excursion above `warn_temp` has a call
below `crit_temp`; and between two excursions there is a call below `warn_temp`. -/
structure Mild (calls : List Sample) : Prop where
  below : ∀ c ∈ calls, c.temp ≤ args.critTemp
  inBand : ∀ before during after, calls = before ++ during ++ after →
    Excursion args.warnTemp before during after → ∃ c ∈ during, c.temp < args.critTemp
  apart : ∀ before during after, calls = before ++ during ++ after →
    Excursion args.warnTemp before during after →
      ∀ (earlier : List Sample) (c : Sample) (between : List Sample),
        before = earlier ++ c :: between → (∀ x ∈ between, x.temp = args.warnTemp) →
          c.temp ≤ args.warnTemp

/-- The lines of a call are those of its warning. -/
theorem lines_eq (s : FanState) (c : Sample) :
    (warned args s c ++ alarmed args s c).filter Action.isLine =
      if Warns args s c then [.syserrorlog c.fan c.temp args.warnTemp] else [] := by
  have hexec : ∀ o : Option Text, (execUserscript o).filter Action.isLine = [] := by
    intro o
    cases o with
    | none => rfl
    | some script => by_cases h : script = [] <;> simp [execUserscript, h, Action.isLine]
  have halarmed : (alarmed args s c).filter Action.isLine = [] := by
    rw [alarmed_eq]
    split
    · rw [List.filter_append, hexec, List.append_nil]
      cases args.mail <;> rfl
    · rfl
  rw [List.filter_append, halarmed, List.append_nil, warned_eq]
  split
  · rw [List.filter_append, hexec, List.append_nil]
    cases args.mail <;> rfl
  · rfl

/-- Every line is a warning. -/
theorem mem_errorLog {s : FanState} {calls : List Sample} {line : Action}
    (h : line ∈ errorLog args s calls) :
    args.warnTemp < args.critTemp ∧ States args.warnTemp line := by
  induction calls generalizing s with
  | nil => exact absurd h List.not_mem_nil
  | cons c rest ih =>
      rw [errorLog, lines_eq] at h
      rcases List.mem_append.mp h with h | h
      · split at h
        · next hwarns =>
          have hlt := lt_trans hwarns.1 hwarns.2.1
          exact ⟨by exact_mod_cast hlt, c.fan, c.temp, List.mem_singleton.mp h⟩
        · exact absurd h List.not_mem_nil
      · exact ih h

/-- An excursion is recorded if the latch is open, and a call is in the band. -/
theorem errorLog_ne_nil_iff {s : FanState} {during : List Sample}
    (habove : ∀ c ∈ during, (args.warnTemp : Rat) < c.temp) :
    errorLog args s during ≠ [] ↔ s.warn = false ∧ ∃ c ∈ during, c.temp < args.critTemp := by
  induction during generalizing s with
  | nil => simp [errorLog]
  | cons c rest ih =>
      have hc := habove c List.mem_cons_self
      have hrest := ih (s := afterSample args s c) fun x hx => habove x (List.mem_cons_of_mem c hx)
      have hnext := afterSample_warn args s c
      rw [errorLog, lines_eq, ne_eq, List.append_eq_nil_iff, not_and_or, ← ne_eq (errorLog _ _ _),
        hrest]
      by_cases hopen : s.warn = false
      · by_cases hband : c.temp < args.critTemp
        · rw [if_pos ⟨hc, hband, hopen⟩]
          simp [hopen, hband]
        · have hkept : (afterSample args s c).warn = false := by
            rw [← Bool.not_eq_true, hnext, hopen]
            simp [hband]
          rw [if_neg fun h => hband h.2.1]
          simp [hkept, hopen, hband]
      · have hheld : (afterSample args s c).warn = true :=
          hnext.mpr (Or.inr ⟨Bool.not_eq_false _ ▸ hopen, not_lt_of_gt hc⟩)
        rw [if_neg fun h => hopen h.2.2]
        simp [hheld, hopen]

/-- The latch is open where an excursion starts. -/
theorem Mild.latch_open {calls before during after : List Sample} (h : Mild args calls)
    (hcalls : calls = before ++ during ++ after)
    (hexc : Excursion args.warnTemp before during after) : (memory args before).warn = false := by
  rw [← Bool.not_eq_true, memory_warn]
  rintro ⟨p, c, q, hbefore, hon, hoff⟩
  have hwarm : ∀ x ∈ c :: q, (args.warnTemp : Rat) ≤ x.temp := by
    intro x hx
    rcases List.mem_cons.mp hx with rfl | hx
    · exact le_of_lt hon.1
    · exact not_lt.mp (hoff x hx)
  obtain ⟨p', b, q', hsplit, hb, hlast⟩ :=
    exists_last (P := fun x : Sample => args.warnTemp < x.temp) (List.mem_cons_self (l := q)) hon.1
  have hthere := h.apart before during after hcalls hexc (p ++ p') b q'
    (by rw [hbefore, hsplit, List.append_assoc]) fun x hx =>
      le_antisymm (not_lt.mp (hlast x hx))
        (hwarm x (by rw [hsplit]; exact List.mem_append_right _ (List.mem_cons_of_mem b hx)))
  exact absurd hb (not_lt.mpr hthere)

/-- The latch is held where nothing but calls at `warn_temp` follow an excursion that was
recorded. -/
theorem Recorded.apart {calls before during after : List Sample} (h : Recorded args calls)
    (hcalls : calls = before ++ during ++ after)
    (hexc : Excursion args.warnTemp before during after) {earlier : List Sample} {c : Sample}
    {between : List Sample} (hbefore : before = earlier ++ c :: between)
    (hat : ∀ x ∈ between, x.temp = args.warnTemp) : c.temp ≤ args.warnTemp := by
  by_contra hnot
  have hc : args.warnTemp < c.temp := not_le.mp hnot
  -- the excursion that `c` is the end of
  obtain ⟨p, q, hsplit, hq, hp⟩ :=
    exists_suffix (P := fun x : Sample => args.warnTemp < x.temp) (earlier ++ [c])
  have hbefore' : before = p ++ q ++ between := by
    rw [← hsplit, hbefore, List.append_assoc, List.singleton_append]
  have hlast : q ≠ [] := by
    rintro rfl
    rw [List.append_nil] at hsplit
    exact hp c (by rw [← hsplit, List.getLast?_concat]; rfl) hc
  have hblock : Excursion args.warnTemp p q (between ++ (during ++ after)) := by
    refine ⟨hlast, hq, hp, fun x hx => ?_⟩
    cases between with
    | nil =>
        refine absurd (hexc.start c ?_) (not_not.mpr hc)
        rw [hbefore, List.getLast?_concat]
        rfl
    | cons b between =>
        obtain rfl : b = x := by simpa using hx
        exact not_lt.mpr (le_of_eq (hat b List.mem_cons_self))
  have hlogged := (h p q (between ++ (during ++ after)) (by
    rw [hcalls, hbefore']
    simp only [List.append_assoc])).1 hblock
  obtain ⟨-, d, hd, hband⟩ := (errorLog_ne_nil_iff args hq).mp hlogged
  have hrecorded := (h before during after hcalls).1 hexc
  have hopen := ((errorLog_ne_nil_iff args hexc.inside).mp hrecorded).1
  refine absurd hopen (Bool.not_eq_false _ ▸ (memory_warn args before).mpr ?_)
  obtain ⟨q₁, q₂, rfl⟩ := List.append_of_mem hd
  refine ⟨p ++ q₁, d, q₂ ++ between, by rw [hbefore']; simp, ⟨hq d hd, hband⟩, fun x hx => ?_⟩
  rcases List.mem_append.mp hx with hx | hx
  · exact not_lt_of_gt (hq x (List.mem_append_right _ (List.mem_cons_of_mem d hx)))
  · exact not_lt.mpr (ge_of_eq (hat x hx))

/-- **Overheating is recorded** exactly if it is mild. -/
theorem recorded_iff_mild (calls : List Sample) : Recorded args calls ↔ Mild args calls := by
  constructor
  · intro h
    refine ⟨fun c hc => ?_, fun before during after hcalls hexc => ?_,
      fun before during after hcalls hexc _ _ _ => h.apart args hcalls hexc⟩
    · by_contra hnot
      obtain ⟨before, during, after, hcalls, hblock, -⟩ :=
        exists_block (P := fun x : Sample => args.critTemp < x.temp) hc (not_le.mp hnot)
      obtain ⟨line, hline, fan, temp, hcrit⟩ := (h before during after hcalls).2 hblock
      obtain ⟨hlt, fan', temp', hwarn⟩ := mem_errorLog args hline
      have hsame : args.critTemp = args.warnTemp := by
        rw [hcrit] at hwarn
        injection hwarn
      omega
    · exact ((errorLog_ne_nil_iff args hexc.inside).mp ((h before during after hcalls).1 hexc)).2
  · intro h before during after hcalls
    constructor
    · intro hexc
      exact (errorLog_ne_nil_iff args hexc.inside).mpr
        ⟨h.latch_open args hcalls hexc, h.inBand before during after hcalls hexc⟩
    · intro hexc
      obtain ⟨c, hc⟩ := List.exists_mem_of_ne_nil during hexc.nonempty
      have hmem : c ∈ calls := by simp [hcalls, hc]
      exact absurd (hexc.inside c hc) (not_lt.mpr (h.below c hmem))

end Calls

/-- A fast rise leaves no line at all. -/
theorem fast_rise_not_recorded : ¬ Recorded defaultArgs [⟨40, 3000⟩, ⟨60, 3000⟩] := by
  intro h
  refine (h [⟨40, 3000⟩] [⟨60, 3000⟩] [] rfl).1 ⟨by simp, ?_, ?_, by simp⟩ ?_
  · decide +kernel
  · decide +kernel
  · decide +kernel

end AltF.Sysctrl
