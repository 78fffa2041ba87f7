/-
  Sysctrl/Leds.lean --- the LEDs of the box as sysctrl.c drives them, and the queue by
  which its tasks share the left and the right one.

  A LED is the files of its directory under /tmp/sys.  `leds_proc` applies the entries of
  the queue one after the other, from the highest priority to the lowest, so that it is the
  lowest entry that is seen.
-/
import AltF.Foundation.Runs
import AltF.SysFiles.Text
import Mathlib.Logic.Function.Basic

set_option autoImplicit false

namespace AltF.Sysctrl

open AltF.Foundation AltF.SysFiles

/-! ## LEDs -/

/-- `enum Led`. -/
inductive LedName where
  | left
  | right
  | usb
  | power
  deriving DecidableEq, Repr

/-- The files of a LED, as they were written last. -/
structure LedFiles where
  trigger : Text
  brightness : Text
  delayOn : Text
  delayOff : Text
  deriving DecidableEq, Repr

/-- The LEDs.  `check_board` knows boards without the one of the USB plug. -/
structure Leds where
  left : LedFiles
  right : LedFiles
  usb : Option LedFiles
  power : LedFiles
  deriving DecidableEq, Repr

/-- `leds`, with `none` for a NULL. -/
def Leds.files (leds : Leds) : LedName → Option LedFiles
  | .left => some leds.left
  | .right => some leds.right
  | .usb => leds.usb
  | .power => some leds.power

/-- The files of a LED are written, if it is there. -/
def Leds.write (leds : Leds) (which : LedName) (f : LedFiles → LedFiles) : Leds :=
  match which with
  | .left => { leds with left := f leds.left }
  | .right => { leds with right := f leds.right }
  | .usb => { leds with usb := leds.usb.map f }
  | .power => { leds with power := f leds.power }

/-- `led_set`. -/
def ledSet (which : LedName) (mode : Text) (leds : Leds) : Leds :=
  leds.write which fun f =>
    { f with trigger := writeStrToFile "none".toList, brightness := writeStrToFile mode }

/-- `led_blink`. -/
def ledBlink (which : LedName) (on off : Text) (leds : Leds) : Leds :=
  (ledSet which "0".toList leds).write which fun f =>
    { f with trigger := writeStrToFile "timer".toList, delayOn := writeStrToFile on,
             delayOff := writeStrToFile off }

/-- The trigger that `led_get` finds: the one in brackets, or the whole text.  With one
bracket alone the caller's variable keeps what it held. -/
def ledMode (text junk : Text) : Text :=
  if '[' ∈ text ∧ ']' ∈ text then
    ((text.takeWhile (· ≠ ']')).dropWhile (· ≠ '[')).drop 1
  else if '[' ∉ text ∧ ']' ∉ text then text
  else junk

/-- `led_get`: the mode and the brightness, unless it returns -1. -/
def ledGet (which : LedName) (leds : Leds) (junk : Text) (u : Int32) : Option (Text × Int32) :=
  match leds.files which with
  | none => none
  | some f =>
      match readStrFromFile (some f.trigger) 128, readIntFromFile (some f.brightness) u with
      | some text, some u => if u = -1 then none else some (ledMode text junk, u)
      | _, _ => none

/-- `leds_on`, `leds_off` and `leds_blink`. -/
def ledsOn (leds : Leds) : Leds := ledSet .right "1".toList (ledSet .left "1".toList leds)
def ledsOff (leds : Leds) : Leds := ledSet .right "0".toList (ledSet .left "0".toList leds)
def ledsBlink (leds : Leds) : Leds :=
  ledBlink .right "250".toList "250".toList (ledBlink .left "250".toList "250".toList leds)

/-- What is seen of a LED. -/
inductive Shown where
  | off
  | on
  | blinking
  deriving DecidableEq, Repr

/-- A LED is off, on or blinking; with another trigger it is none of these. -/
def LedFiles.shown (f : LedFiles) : Option Shown :=
  if f.trigger = writeStrToFile "none".toList then
    if f.brightness = writeStrToFile "0".toList then some .off else some .on
  else if f.trigger = writeStrToFile "timer".toList then some .blinking
  else none

/-- Both LEDs of the queue show the same. -/
def Leds.Show (leds : Leds) (x : Shown) : Prop :=
  leds.left.shown = some x ∧ leds.right.shown = some x

instance (leds : Leds) (x : Shown) : Decidable (leds.Show x) :=
  inferInstanceAs (Decidable (_ ∧ _))

theorem Leds.Show.eq {leds : Leds} {x y : Shown} (h : leds.Show x) (h' : leds.Show y) : x = y :=
  Option.some.inj (h.1.symm.trans h'.1)

theorem show_ledsOn (leds : Leds) : (ledsOn leds).Show .on := ⟨rfl, rfl⟩

theorem show_ledsOff (leds : Leds) : (ledsOff leds).Show .off := ⟨rfl, rfl⟩

theorem show_ledsBlink (leds : Leds) : (ledsBlink leds).Show .blinking := ⟨rfl, rfl⟩

/-! ## The queue -/

/-- `enum ledmode`; an entry `na` has nothing to say. -/
inductive LedMode where
  | na
  | off
  | on
  | blink
  deriving DecidableEq, Repr

/-- `enum ledprior`. -/
inductive Priority where
  | high
  | med
  | low
  deriving DecidableEq, Repr

/-- The program's part of the LEDs. -/
structure LedState where
  leds : Leds
  /-- `leds_pqueue` -/
  queue : Priority → LedMode

/-- `leds_set`. -/
def ledsSet (p : Priority) (mode : LedMode) (s : LedState) : LedState :=
  { s with queue := Function.update s.queue p mode }

/-- One turn of the loop of `leds_proc`. -/
def procLevel (s : LedState) (p : Priority) : LedState :=
  match s.queue p with
  | .na => s
  | .off => { leds := ledsOff s.leds, queue := Function.update s.queue p .na }
  | .on => { s with leds := ledsOn s.leds }
  | .blink => { s with leds := ledsBlink s.leds }

/-- `leds_proc`. -/
def ledsProc (s : LedState) : LedState := [Priority.high, .med, .low].foldl procLevel s

/-- What an entry shows. -/
def LedMode.shown : LedMode → Option Shown
  | .na => none
  | .off => some .off
  | .on => some .on
  | .blink => some .blinking

/-- What a lit level shows. -/
def LedMode.lit : LedMode → Option Shown
  | .na => none
  | .off => none
  | .on => some .on
  | .blink => some .blinking

/-- The lowest of the entries. -/
def lowest (queue : Priority → LedMode) : Option Shown :=
  (queue .low).shown.or ((queue .med).shown.or (queue .high).shown)

/-- The highest of the levels that are lit. -/
def topLit (mode : Priority → LedMode) : Option Shown :=
  (mode .high).lit.or ((mode .med).lit.or (mode .low).lit)

/-- A level is applied if it has an entry. -/
theorem procLevel_leds (s : LedState) (p : Priority) :
    match (s.queue p).shown with
    | some x => (procLevel s p).leds.Show x
    | none => (procLevel s p).leds = s.leds := by
  unfold procLevel
  cases s.queue p with
  | na => rfl
  | off => exact show_ledsOff s.leds
  | on => exact show_ledsOn s.leds
  | blink => exact show_ledsBlink s.leds

/-- An entry that turns the LEDs off is consumed. -/
theorem procLevel_queue (s : LedState) (p q : Priority) :
    (procLevel s p).queue q = if q = p ∧ s.queue p = .off then .na else s.queue q := by
  unfold procLevel
  by_cases hq : q = p
  · subst hq
    cases hp : s.queue q <;> simp [hp]
  · cases s.queue p <;> simp [hq]

theorem ledsProc_queue (s : LedState) (q : Priority) :
    (ledsProc s).queue q = if s.queue q = .off then .na else s.queue q := by
  simp only [ledsProc, List.foldl_cons, List.foldl_nil, procLevel_queue]
  cases q <;> simp

/-- **The lowest entry is seen.** -/
theorem ledsProc_leds (s : LedState) :
    match lowest s.queue with
    | some x => (ledsProc s).leds.Show x
    | none => (ledsProc s).leds = s.leds := by
  have hhigh := procLevel_leds s .high
  have hmed := procLevel_leds (procLevel s .high) .med
  have hlow := procLevel_leds (procLevel (procLevel s .high) .med) .low
  have hmedq : (procLevel s .high).queue .med = s.queue .med := by simp [procLevel_queue]
  have hlowq : (procLevel (procLevel s .high) .med).queue .low = s.queue .low := by
    simp [procLevel_queue]
  rw [hmedq] at hmed
  rw [hlowq] at hlow
  simp only [lowest, ledsProc, List.foldl_cons, List.foldl_nil]
  cases hl : (s.queue .low).shown with
  | some x =>
      rw [hl] at hlow
      exact hlow
  | none =>
      simp only [hl] at hlow
      simp only [Option.none_or, hlow]
      cases hm : (s.queue .med).shown with
      | some x =>
          rw [hm] at hmed
          exact hmed
      | none =>
          simp only [hm] at hmed
          simp only [Option.none_or, hmed]
          exact hhigh

/-! ## Runs -/

/-- The calls of the tasks. -/
inductive LedCall where
  | set (p : Priority) (mode : LedMode)
  | proc
  deriving DecidableEq, Repr

/-- The program, and the modes its tasks have set last. -/
structure LedRun where
  state : LedState
  latest : Priority → LedMode

/-- The queue as the program starts; the LEDs show anything. -/
def LedRun.start (leds : Leds) : LedRun := ⟨⟨leds, fun _ => .off⟩, fun _ => .off⟩

def LedRun.step (s : LedRun) : LedCall → LedRun
  | .set p mode => ⟨ledsSet p mode s.state, Function.update s.latest p mode⟩
  | .proc => ⟨ledsProc s.state, s.latest⟩

/-- After `leds_proc` the LEDs show the mode of the highest level that is lit, or are off. -/
def Respected (s : LedRun) (call : LedCall) : Prop :=
  call = .proc → (s.step call).state.leds.Show ((topLit s.latest).getD .off)

/-- The lowest entry shows what the highest level that is lit does; and where no level is
lit, and no entry is left to say so, the LEDs are off. -/
structure InOrder (s : LedRun) : Prop where
  lit : ∀ x, topLit s.latest = some x → lowest s.state.queue = some x
  dark : topLit s.latest = none → lowest s.state.queue = none → s.state.leds.Show .off

/-- An entry is the latest mode, unless it has turned the LEDs off. -/
def LedRun.Queued (s : LedRun) : Prop :=
  ∀ p, s.state.queue p = s.latest p ∨ s.state.queue p = .na ∧ s.latest p = .off

theorem queued_step {s : LedRun} (h : s.Queued) (call : LedCall) : (s.step call).Queued := by
  intro q
  cases call with
  | set p mode =>
      by_cases hq : q = p
      · subst hq
        simp [LedRun.step, ledsSet]
      · simpa [LedRun.step, ledsSet, hq] using h q
  | proc =>
      simp only [LedRun.step, ledsProc_queue]
      rcases h q with hq | ⟨hq, hoff⟩
      · by_cases hoff : s.latest q = .off
        · exact Or.inr ⟨by rw [hq, if_pos hoff], hoff⟩
        · exact Or.inl (by rw [hq, if_neg hoff])
      · exact Or.inr ⟨by rw [hq]; rfl, hoff⟩

/-- Where nothing is lit, an entry turns the LEDs off. -/
theorem LedRun.Queued.lowest_dark {s : LedRun} (h : s.Queued) (hdark : topLit s.latest = none)
    {x : Shown} (hx : lowest s.state.queue = some x) : x = .off := by
  have hlevel : ∀ p y, (s.state.queue p).shown = some y → (s.latest p).lit = none → y = .off := by
    intro p y hy hlit
    rcases h p with hp | ⟨hp, -⟩
    · rw [hp] at hy
      cases hm : s.latest p <;> rw [hm] at hy hlit <;> cases hy <;> first | rfl | cases hlit
    · rw [hp] at hy
      cases hy
  simp only [topLit, Option.or_eq_none_iff] at hdark
  obtain ⟨hhigh, hmed, hlow⟩ := hdark
  simp only [lowest, Option.or_eq_some_iff] at hx
  rcases hx with hx | ⟨-, hx | ⟨-, hx⟩⟩
  · exact hlevel .low x hx hlow
  · exact hlevel .med x hx hmed
  · exact hlevel .high x hx hhigh

/-- Where a level is lit, an entry says so. -/
theorem LedRun.Queued.lowest_lit {s : LedRun} (h : s.Queued) {x : Shown}
    (hlit : topLit s.latest = some x) : ∃ y, lowest s.state.queue = some y := by
  have hlevel : ∀ p, (s.state.queue p).shown = none → (s.latest p).lit = none := by
    intro p hp
    rcases h p with hq | ⟨-, hoff⟩
    · rw [hq] at hp
      cases hm : s.latest p <;> rw [hm] at hp <;> first | rfl | cases hp
    · rw [hoff]
      rfl
  refine Option.ne_none_iff_exists'.mp fun hnone => ?_
  simp only [lowest, Option.or_eq_none_iff] at hnone
  obtain ⟨hlow, hmed, hhigh⟩ := hnone
  rw [topLit, hlevel .high hhigh, hlevel .med hmed, hlevel .low hlow] at hlit
  cases hlit

/-- **One call** respects the priorities exactly if the queue is in order. -/
theorem respected_iff {s : LedRun} (h : s.Queued) (call : LedCall) :
    Respected s call ↔ (call = .proc → InOrder s) := by
  unfold Respected
  refine forall_congr' fun hcall => ?_
  subst hcall
  have hleds := ledsProc_leds s.state
  simp only [LedRun.step]
  cases htop : topLit s.latest with
  | some x =>
      simp only [Option.getD_some]
      constructor
      · intro hshow
        obtain ⟨y, hy⟩ := h.lowest_lit htop
        rw [hy] at hleds
        refine ⟨fun z hz => ?_, fun hdark => ?_⟩
        · rw [hy, hleds.eq hshow, ← htop, hz]
        · exact absurd hdark (by rw [htop]; exact Option.some_ne_none x)
      · intro horder
        rw [horder.lit x htop] at hleds
        exact hleds
  | none =>
      simp only [Option.getD_none]
      cases hlow : lowest s.state.queue with
      | some y =>
          rw [hlow] at hleds
          obtain rfl := h.lowest_dark htop hlow
          refine iff_of_true hleds ⟨fun x hx => ?_, fun _ hnone => ?_⟩
          · exact absurd hx (by rw [htop]; exact (Option.some_ne_none x).symm)
          · exact absurd hnone (by rw [hlow]; exact Option.some_ne_none _)
      | none =>
          simp only [hlow] at hleds
          rw [hleds]
          refine ⟨fun hoff => ⟨fun x hx => ?_, fun _ _ => hoff⟩,
            fun horder => horder.dark htop hlow⟩
          exact absurd hx (by rw [htop]; exact (Option.some_ne_none x).symm)

/-- **Priorities are respected** along a run exactly if the queue is in order at every call
of `leds_proc`. -/
theorem priorities_along_iff (leds : Leds) (calls : List LedCall) :
    Along LedRun.step Respected (.start leds) calls ↔
      Along LedRun.step (fun s call => call = .proc → InOrder s) (.start leds) calls :=
  along_congr LedRun.Queued (fun _ call h => respected_iff h call)
    (fun _ call h => queued_step h call) fun _ => Or.inl rfl

/-- LEDs that were never written. -/
def plainLeds : Leds := ⟨⟨[], [], [], []⟩, ⟨[], [], [], []⟩, none, ⟨[], [], [], []⟩⟩

/-- A level that is off is applied after the one that is lit. -/
theorem low_entry_turns_off :
    ¬ Along LedRun.step Respected (.start plainLeds) [.set .high .on, .proc] ∧
      (run LedRun.step (.start plainLeds) [.set .high .on, .proc]).state.leds.Show .off := by
  refine ⟨fun h => ?_, by decide +kernel⟩
  exact absurd (h.2.1 rfl) (by decide +kernel)

/-! ## The system error log -/

/-- `check_syserrlog`: the static variable after it, and the mode it sets at `PLOW`.  Without
a `size` there is no log. -/
def checkSyserrlog (ledsState : Bool) (size : Option Nat) : Bool × Option LedMode :=
  match size with
  | none => if ledsState then (false, some .off) else (ledsState, none)
  | some size =>
      if size ≠ 0 then if ledsState then (ledsState, none) else (true, some .on)
      else if ledsState then (false, some .off) else (ledsState, none)

/-- The static variable tells whether there is something in the log, and a mode is set when
that changes. -/
theorem checkSyserrlog_eq (ledsState : Bool) (size : Option Nat) :
    checkSyserrlog ledsState size =
      let filled := decide (0 < size.getD 0)
      (filled, if filled = ledsState then none else some (if filled then .on else .off)) := by
  unfold checkSyserrlog
  cases size with
  | none => cases ledsState <;> rfl
  | some size =>
      by_cases hsize : size = 0
      · subst hsize
        cases ledsState <;> rfl
      · have hpos : 0 < size := Nat.pos_of_ne_zero hsize
        cases ledsState <;> simp [hsize, hpos]

end AltF.Sysctrl
