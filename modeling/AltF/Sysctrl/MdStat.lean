/-
  Sysctrl/MdStat.lean --- `md_stat` of sysctrl.c: the degraded RAID arrays.

  A latch for each array remembers that it is degraded.  It is looked at only while the
  array is there, so an array that is removed while it is degraded stays counted.
-/
import AltF.Sysctrl.Leds
import Mathlib.Data.Fintype.Card

set_option autoImplicit false

namespace AltF.Sysctrl

open AltF.Foundation AltF.SysFiles

/-! ## The arrays -/

/-- The files of an array, as they are read; `degraded` is there for some levels only. -/
structure MdArray where
  state : Text
  level : Text
  degraded : Option Int32
  deriving DecidableEq, Repr

/-- The texts that are compared with. -/
def inactive : Text := "inactive".toList
def raid1 : Text := "raid1".toList
def raid5 : Text := "raid5".toList

/-- The levels that are looked at. -/
def Redundant (level : Text) : Prop := level = raid1 ∨ level = raid5

instance (level : Text) : Decidable (Redundant level) := inferInstanceAs (Decidable (_ ∨ _))

/-- What one call sees: the arrays md0 to md8, or no `/proc/mdstat`.  An array of a level that
is looked at has its degraded count. -/
structure Observation where
  arrays : Option (Fin 9 → Option MdArray)
  readable : ∀ f ∈ arrays, ∀ dev, ∀ a ∈ f dev, Redundant a.level → a.degraded.isSome

def Observation.array (o : Observation) (dev : Fin 9) : Option MdArray :=
  o.arrays.bind fun f => f dev

theorem Observation.array_of_some {o : Observation} {f : Fin 9 → Option MdArray}
    (h : o.arrays = some f) : o.array = f :=
  funext fun dev => by rw [Observation.array, h, Option.bind_some]

theorem Observation.array_of_none {o : Observation} (h : o.arrays = none) (dev : Fin 9) :
    o.array dev = none := by
  rw [Observation.array, h, Option.bind_none]

/-! ## `md_stat` -/

/-- The static variables. -/
structure MdState where
  lastDegraded : Bool
  degraded : Fin 9 → Bool

def MdState.start : MdState := ⟨false, fun _ => false⟩

/-- What `md_stat` does besides. -/
inductive MdAction where
  | ledsSet (p : Priority) (mode : LedMode)
  | syserrorlog (msg : Text)
  deriving DecidableEq, Repr

/-- The line for an array. -/
def degradedMsg (dev : Fin 9) (level : Text) : Text :=
  "Your md".toList ++ sprintfInt (Int32.ofNat dev) ++ " ".toList ++ level ++
    " device is degraded!".toList

/-- One turn of the first loop. -/
def mdDevice (array : Option MdArray) (dev : Fin 9) (s : MdState) : MdState × List MdAction :=
  match array with
  | none => (s, [])
  | some a =>
      if a.state ≠ inactive then
        if a.level = raid1 ∨ a.level = raid5 then
          match a.degraded with
          | none => (s, [])
          | some cdegraded =>
              if cdegraded = 0 then
                ({ s with degraded := Function.update s.degraded dev false }, [])
              else if s.degraded dev = false then
                (⟨true, Function.update s.degraded dev true⟩,
                  [.ledsSet .high .on, .syserrorlog (degradedMsg dev a.level)])
              else (s, [])
        else ({ s with degraded := Function.update s.degraded dev false }, [])
      else ({ s with degraded := Function.update s.degraded dev false }, [])

/-- The first loop. -/
def mdLoop (f : Fin 9 → Option MdArray) : List (Fin 9) → MdState → MdState × List MdAction
  | [], s => (s, [])
  | dev :: rest, s =>
      let (s, here) := mdDevice (f dev) dev s
      let (s, after) := mdLoop f rest s
      (s, here ++ after)

/-- The sum of the latches. -/
def MdState.count (s : MdState) : Nat := (Finset.univ.filter fun dev => s.degraded dev = true).card

/-- `md_stat`: the value it returns, and what it does. -/
def mdStat (o : Observation) (s : MdState) : MdState × Nat × List MdAction :=
  match o.arrays with
  | none => (s, 0, [])
  | some f =>
      let (s, actions) := mdLoop f (List.finRange 9) s
      let ret := s.count
      if s.lastDegraded = true ∧ ret = 0 then
        ({ s with lastDegraded := false }, ret, actions ++ [.ledsSet .high .off])
      else (s, ret, actions)

/-! ## Degraded arrays -/

/-- An array is present, not inactive, of level raid1 or raid5, and degraded. -/
def faulty : Option MdArray → Bool
  | none => false
  | some a => a.state ≠ inactive && (Redundant a.level && a.degraded ≠ some 0)

/-- The latch of an array after a call that sees it. -/
def latchAfter (array : Option MdArray) (latch : Bool) : Bool :=
  match array with
  | none => latch
  | some _ => faulty array

/-- The call raises the alarm of an array. -/
def raises (array : Option MdArray) (latch : Bool) : Bool := faulty array && !latch

/-- The alarm of an array. -/
def alarm (f : Fin 9 → Option MdArray) (dev : Fin 9) : List MdAction :=
  match f dev with
  | none => []
  | some a => [.ledsSet .high .on, .syserrorlog (degradedMsg dev a.level)]

section Loop

variable {f : Fin 9 → Option MdArray}

theorem mdDevice_eq {dev : Fin 9}
    (hread : ∀ a ∈ f dev, Redundant a.level → a.degraded.isSome) (s : MdState) :
    mdDevice (f dev) dev s =
      (⟨s.lastDegraded || raises (f dev) (s.degraded dev),
        Function.update s.degraded dev (latchAfter (f dev) (s.degraded dev))⟩,
        if raises (f dev) (s.degraded dev) then alarm f dev else []) := by
  unfold mdDevice raises latchAfter alarm faulty
  cases hf : f dev with
  | none => simp
  | some a =>
      by_cases hstate : a.state = inactive
      · simp [hstate]
      · by_cases hlevel : Redundant a.level
        · have hlevel' : a.level = raid1 ∨ a.level = raid5 := hlevel
          obtain ⟨c, hc⟩ := Option.isSome_iff_exists.mp (hread a hf hlevel)
          by_cases hzero : c = 0
          · simp [hstate, hlevel, hlevel', hc, hzero]
          · cases hlatch : s.degraded dev with
            | false => simp [hstate, hlevel, hlevel', hc, hzero]
            | true =>
                have hsame : Function.update s.degraded dev true = s.degraded := by
                  rw [← hlatch, Function.update_eq_self]
                simp [hstate, hlevel, hlevel', hc, hzero, hsame]
        · have hlevel' : ¬ (a.level = raid1 ∨ a.level = raid5) := hlevel
          simp [hstate, hlevel, hlevel']

/-- Every array is looked at once. -/
theorem mdLoop_eq (hread : ∀ dev, ∀ a ∈ f dev, Redundant a.level → a.degraded.isSome)
    {l : List (Fin 9)} (hl : l.Nodup) (s : MdState) :
    mdLoop f l s =
      (⟨s.lastDegraded || l.any fun dev => raises (f dev) (s.degraded dev),
        fun dev => if dev ∈ l then latchAfter (f dev) (s.degraded dev) else s.degraded dev⟩,
        (l.filter fun dev => raises (f dev) (s.degraded dev)).flatMap (alarm f)) := by
  induction l generalizing s with
  | nil => simp [mdLoop]
  | cons dev rest ih =>
      obtain ⟨hdev, hrest⟩ := List.nodup_cons.mp hl
      have hother : ∀ other ∈ rest, Function.update s.degraded dev
          (latchAfter (f dev) (s.degraded dev)) other = s.degraded other := fun other hmem =>
        Function.update_of_ne (fun h => hdev (by rwa [h] at hmem)) _ _
      have hraises : ∀ other ∈ rest, raises (f other) (Function.update s.degraded dev
          (latchAfter (f dev) (s.degraded dev)) other) = raises (f other) (s.degraded other) :=
        fun other hmem => by rw [hother other hmem]
      have hany : (rest.any fun other => raises (f other) (Function.update s.degraded dev
          (latchAfter (f dev) (s.degraded dev)) other)) =
            rest.any fun other => raises (f other) (s.degraded other) := by
        rw [Bool.eq_iff_iff, List.any_eq_true, List.any_eq_true]
        exact exists_congr fun other => and_congr_right fun hmem => by rw [hraises other hmem]
      have hlatch : (fun other => if other ∈ rest then latchAfter (f other)
            (Function.update s.degraded dev (latchAfter (f dev) (s.degraded dev)) other)
          else Function.update s.degraded dev (latchAfter (f dev) (s.degraded dev)) other) =
            fun other => if other ∈ dev :: rest then latchAfter (f other) (s.degraded other)
              else s.degraded other := by
        funext other
        by_cases hsame : other = dev
        · subst hsame
          simp [hdev]
        · by_cases hmem : other ∈ rest
          · simp [hmem, hother other hmem]
          · simp [hmem, hsame]
      rw [mdLoop, mdDevice_eq (hread dev)]
      simp only
      rw [ih hrest, hlatch, hany, List.filter_congr hraises, List.any_cons, List.filter_cons,
        Bool.or_assoc]
      split
      · rw [List.flatMap_cons]
      · rfl

end Loop

/-! ## Runs -/

/-- The program, the arrays that its last call has seen, and the mode that it has set last at
`PHIGH`. -/
structure MdRun where
  program : MdState
  seen : Fin 9 → Option MdArray
  led : Option LedMode

def MdRun.start : MdRun := ⟨.start, fun _ => none, none⟩

/-- The mode that a sequence of actions sets last at `PHIGH`. -/
def lastMode (led : Option LedMode) (actions : List MdAction) : Option LedMode :=
  actions.foldl (fun led action =>
    match action with
    | .ledsSet .high mode => some mode
    | _ => led) led

/-- The lines for the system error log. -/
def mdLines (actions : List MdAction) : List Text :=
  actions.filterMap fun action =>
    match action with
    | .syserrorlog msg => some msg
    | .ledsSet .. => none

def MdRun.step (s : MdRun) (o : Observation) : MdRun :=
  ⟨(mdStat o s.program).1, o.array, lastMode s.led (mdStat o s.program).2.2⟩

/-- The line for an array that is seen. -/
def lineOf (o : Observation) (dev : Fin 9) : Text :=
  degradedMsg dev (((o.array dev).map MdArray.level).getD [])

/-- The status is current after a call. -/
structure Current (s : MdRun) (o : Observation) : Prop where
  /-- the degraded arrays are counted -/
  value : (mdStat o s.program).2.1 = (Finset.univ.filter fun dev => faulty (o.array dev)).card
  /-- each that was not degraded before has its line -/
  lines : mdLines (mdStat o s.program).2.2 =
    ((List.finRange 9).filter fun dev => faulty (o.array dev) && !faulty (s.seen dev)).map
      (lineOf o)
  /-- and the LEDs are on if there are any -/
  leds : (s.step o).led = some .on ↔ 0 < (mdStat o s.program).2.1

/-- No array that was degraded at the last call is gone. -/
def StaysPresent (s : MdRun) (o : Observation) : Prop :=
  ∀ dev, faulty (s.seen dev) = true → (o.array dev).isSome

section Calls

variable {s : MdState} {f : Fin 9 → Option MdArray} {o : Observation}

/-- The arrays whose alarm a call raises. -/
def raisedBy (f : Fin 9 → Option MdArray) (s : MdState) : List (Fin 9) :=
  (List.finRange 9).filter fun dev => raises (f dev) (s.degraded dev)

theorem mem_raisedBy {dev : Fin 9} :
    dev ∈ raisedBy f s ↔ raises (f dev) (s.degraded dev) = true := by
  rw [raisedBy, List.mem_filter]
  exact and_iff_right (List.mem_finRange dev)

theorem alarm_of_raised {dev : Fin 9} (h : dev ∈ raisedBy f s) :
    ∃ a, f dev = some a ∧
      alarm f dev = [.ledsSet .high .on, .syserrorlog (degradedMsg dev a.level)] := by
  have hraises := mem_raisedBy.mp h
  unfold alarm
  cases hf : f dev with
  | none =>
      rw [hf] at hraises
      cases hraises
  | some a => exact ⟨a, rfl, rfl⟩

theorem lastMode_alarms {l : List (Fin 9)} (hl : ∀ dev ∈ l, dev ∈ raisedBy f s)
    (led : Option LedMode) :
    lastMode led (l.flatMap (alarm f)) = if l = [] then led else some .on := by
  induction l generalizing led with
  | nil => rfl
  | cons dev rest ih =>
      obtain ⟨a, -, halarm⟩ := alarm_of_raised (hl dev List.mem_cons_self)
      have hrest := ih (fun other h => hl other (List.mem_cons_of_mem dev h)) (some .on)
      rw [List.flatMap_cons, halarm, if_neg (List.cons_ne_nil dev rest), lastMode,
        List.foldl_append]
      refine Eq.trans hrest ?_
      split <;> rfl

theorem mdLines_alarms {l : List (Fin 9)} (hl : ∀ dev ∈ l, dev ∈ raisedBy f s)
    (harrays : o.arrays = some f) : mdLines (l.flatMap (alarm f)) = l.map (lineOf o) := by
  induction l with
  | nil => rfl
  | cons dev rest ih =>
      obtain ⟨a, hf, halarm⟩ := alarm_of_raised (hl dev List.mem_cons_self)
      have hrest := ih fun other h => hl other (List.mem_cons_of_mem dev h)
      have hline : lineOf o dev = degradedMsg dev a.level := by
        rw [lineOf, Observation.array_of_some harrays, hf]
        rfl
      rw [List.flatMap_cons, halarm, List.map_cons, hline, ← hrest]
      rfl

/-- The latches after a call, the global one not yet cleared. -/
def latched (f : Fin 9 → Option MdArray) (s : MdState) : MdState :=
  ⟨s.lastDegraded || !(raisedBy f s).isEmpty, fun dev => latchAfter (f dev) (s.degraded dev)⟩

theorem mdStat_of_arrays (harrays : o.arrays = some f) (s : MdState) :
    mdStat o s =
      if (latched f s).lastDegraded = true ∧ (latched f s).count = 0 then
        ({ latched f s with lastDegraded := false }, (latched f s).count,
          (raisedBy f s).flatMap (alarm f) ++ [.ledsSet .high .off])
      else (latched f s, (latched f s).count, (raisedBy f s).flatMap (alarm f)) := by
  have hany : ((List.finRange 9).any fun dev => raises (f dev) (s.degraded dev)) =
      !(raisedBy f s).isEmpty := by
    rw [Bool.eq_iff_iff, List.any_eq_true, Bool.not_eq_true', List.isEmpty_eq_false_iff_exists_mem]
    refine exists_congr fun dev => ?_
    rw [mem_raisedBy]
    exact and_iff_right (List.mem_finRange dev)
  have hloop := mdLoop_eq (o.readable f harrays) (List.nodup_finRange 9) s
  simp only [List.mem_finRange, if_true, hany] at hloop
  unfold mdStat
  rw [harrays]
  simp only
  rw [hloop]
  rfl

theorem mdStat_of_none (harrays : o.arrays = none) (s : MdState) : mdStat o s = (s, 0, []) := by
  rw [mdStat, harrays]

theorem count_pos_iff (s : MdState) : 0 < s.count ↔ ∃ dev, s.degraded dev = true := by
  rw [MdState.count, Finset.card_pos]
  exact ⟨fun ⟨dev, h⟩ => ⟨dev, (Finset.mem_filter.mp h).2⟩,
    fun ⟨dev, h⟩ => ⟨dev, Finset.mem_filter.mpr ⟨Finset.mem_univ dev, h⟩⟩⟩

theorem latched_degraded (dev : Fin 9) :
    (latched f s).degraded dev = latchAfter (f dev) (s.degraded dev) := rfl

/-- An array that raises the alarm has its latch set. -/
theorem latched_of_raised {dev : Fin 9} (h : dev ∈ raisedBy f s) :
    (latched f s).degraded dev = true := by
  have hraises := mem_raisedBy.mp h
  obtain ⟨a, hf, -⟩ := alarm_of_raised h
  rw [raises, Bool.and_eq_true] at hraises
  simp only [latched, latchAfter, hf] at hraises ⊢
  exact hraises.1

/-- A latch is set at the call that raises the alarm, or it was before. -/
theorem raised_or_latched {dev : Fin 9} (h : (latched f s).degraded dev = true) :
    dev ∈ raisedBy f s ∨ s.degraded dev = true := by
  cases hold : s.degraded dev with
  | true => exact Or.inr rfl
  | false =>
      rw [latched_degraded, hold] at h
      rw [mem_raisedBy, hold, raises, Bool.not_false, Bool.and_true]
      refine Or.inl ?_
      cases hf : f dev with
      | none =>
          rw [hf] at h
          cases h
      | some a =>
          rw [hf] at h
          exact h

end Calls

/-- The global latch is set as long as one of the others is. -/
def MdState.Global (s : MdState) : Prop :=
  s.lastDegraded = true ↔ ∃ dev, s.degraded dev = true

/-- The LEDs and the global latch, after a call. -/
theorem global_step {s : MdState} {led : Option LedMode} (hglobal : s.Global)
    (hled : led = some .on ↔ s.lastDegraded = true) (o : Observation) :
    (mdStat o s).1.Global ∧
      (lastMode led (mdStat o s).2.2 = some .on ↔ (mdStat o s).1.lastDegraded = true) := by
  cases harrays : o.arrays with
  | none =>
      rw [mdStat_of_none harrays]
      exact ⟨hglobal, hled⟩
  | some f =>
      have hmodes := lastMode_alarms (f := f) (s := s) (fun _ h => h) led
      have hcount := count_pos_iff (latched f s)
      rw [mdStat_of_arrays harrays]
      by_cases hzero : (latched f s).count = 0
      · have hnone : ¬ ∃ dev, (latched f s).degraded dev = true := fun h => by
          have := hcount.mpr h
          omega
        have hraised : raisedBy f s = [] := List.eq_nil_iff_forall_not_mem.mpr fun dev h =>
          hnone ⟨dev, latched_of_raised h⟩
        have hlast : (latched f s).lastDegraded = s.lastDegraded := by
          simp [latched, hraised]
        cases hold : s.lastDegraded with
        | true =>
            rw [if_pos ⟨hlast.trans hold, hzero⟩, hraised]
            have hoff : lastMode led [.ledsSet .high .off] ≠ some .on := fun h => by
              cases Option.some.inj h
            exact ⟨iff_of_false Bool.false_ne_true hnone, iff_of_false hoff Bool.false_ne_true⟩
        | false =>
            have hclear : ¬ (latched f s).lastDegraded = true := by
              rw [hlast, hold]
              decide
            rw [if_neg fun h => hclear h.1, hraised]
            refine ⟨iff_of_false hclear hnone, iff_of_false (fun h => ?_) hclear⟩
            exact hclear (hlast.trans (hled.mp h))
      · have hsome : ∃ dev, (latched f s).degraded dev = true :=
          hcount.mp (Nat.pos_of_ne_zero hzero)
        have hlast : (latched f s).lastDegraded = true := by
          obtain ⟨dev, hdev⟩ := hsome
          rcases raised_or_latched hdev with hraised | hold
          · simp [latched, List.ne_nil_of_mem hraised]
          · simp [latched, hglobal.mpr ⟨dev, hold⟩]
        rw [if_neg fun h => hzero h.2]
        refine ⟨iff_of_true hlast hsome, iff_of_true ?_ hlast⟩
        simp only
        rw [hmodes]
        split
        · next hraised =>
          refine hled.mpr ?_
          simpa [latched, hraised] using hlast
        · rfl

/-- The latches tell which of the arrays were degraded, and the LEDs whether there were. -/
structure MdRun.Latched (s : MdRun) : Prop where
  seen : ∀ dev, s.program.degraded dev = faulty (s.seen dev)
  last : s.program.Global
  led : s.led = some .on ↔ s.program.lastDegraded = true

section Steps

variable {s : MdRun} {o : Observation}

/-- The latch of an array that is seen is right. -/
theorem latchAfter_of_faulty {a : Option MdArray} (h : faulty a = true) (latch : Bool) :
    latchAfter a latch = true := by
  cases a with
  | none => cases h
  | some a => exact h

/-- Every latch is right after a call exactly if no degraded array is gone. -/
theorem staysPresent_iff (h : s.Latched) {f : Fin 9 → Option MdArray}
    (harrays : o.arrays = some f) :
    StaysPresent s o ↔ ∀ dev, (latched f s.program).degraded dev = faulty (o.array dev) := by
  refine forall_congr' fun dev => ?_
  rw [latched_degraded, h.seen, Observation.array_of_some harrays]
  cases hf : f dev with
  | none =>
      simp only [latchAfter, faulty, Option.isSome_none, Bool.false_eq_true, imp_false,
        Bool.not_eq_true]
  | some a => exact iff_of_true (fun _ => rfl) rfl

/-- The value is right exactly if the latches are. -/
theorem count_eq_iff (f : Fin 9 → Option MdArray) (s : MdState) :
    (latched f s).count = (Finset.univ.filter fun dev => faulty (f dev)).card ↔
      ∀ dev, (latched f s).degraded dev = faulty (f dev) := by
  have hsub : (Finset.univ.filter fun dev => faulty (f dev) = true) ⊆
      Finset.univ.filter fun dev => (latched f s).degraded dev = true := by
    intro dev hdev
    have hfaulty := (Finset.mem_filter.mp hdev).2
    exact Finset.mem_filter.mpr ⟨Finset.mem_univ dev, latchAfter_of_faulty hfaulty _⟩
  constructor
  · intro hcard dev
    have heq := Finset.eq_of_subset_of_card_le hsub (le_of_eq hcard)
    have hmem := Finset.ext_iff.mp heq dev
    simp only [Finset.mem_filter, Finset.mem_univ, true_and] at hmem
    exact (Bool.eq_iff_iff.mpr hmem).symm
  · intro hall
    rw [MdState.count]
    exact congrArg _ (Finset.filter_congr fun dev _ => by rw [hall dev])

theorem mdStat_value {f : Fin 9 → Option MdArray} (harrays : o.arrays = some f) (s : MdState) :
    (mdStat o s).2.1 = (latched f s).count ∧
      (mdStat o s).1.degraded = (latched f s).degraded ∧
      mdLines (mdStat o s).2.2 = (raisedBy f s).map (lineOf o) := by
  have hlines := mdLines_alarms (fun dev (h : dev ∈ raisedBy f s) => h) harrays
  rw [mdStat_of_arrays harrays]
  split
  · refine ⟨rfl, rfl, Eq.trans ?_ hlines⟩
    simp [mdLines]
  · exact ⟨rfl, rfl, hlines⟩

/-- Whatever has been removed, each array that becomes degraded has its line. -/
theorem mdLines_eq (h : s.Latched) (o : Observation) :
    mdLines (mdStat o s.program).2.2 =
      ((List.finRange 9).filter fun dev => faulty (o.array dev) && !faulty (s.seen dev)).map
        (lineOf o) := by
  cases harrays : o.arrays with
  | none =>
      rw [mdStat_of_none harrays]
      simp [Observation.array_of_none harrays, faulty, mdLines]
  | some f =>
      rw [(mdStat_value harrays s.program).2.2]
      refine congrArg _ (List.filter_congr fun dev _ => ?_)
      rw [raises, h.seen, Observation.array_of_some harrays]

/-- **One call**: the status is current exactly if no degraded array is gone. -/
theorem current_iff (h : s.Latched) (o : Observation) : Current s o ↔ StaysPresent s o := by
  obtain ⟨hglobal, hled⟩ := global_step h.last h.led o
  constructor
  · intro hcurrent
    cases harrays : o.arrays with
    | none =>
        intro dev hfaulty
        have hon : s.led = some .on := h.led.mpr (h.last.mpr ⟨dev, (h.seen dev).trans hfaulty⟩)
        have hpos := hcurrent.leds.mp (by rw [MdRun.step, mdStat_of_none harrays]; exact hon)
        rw [mdStat_of_none harrays] at hpos
        exact absurd hpos (Nat.lt_irrefl 0)
    | some f =>
        have hvalue := hcurrent.value
        have harray := Observation.array_of_some harrays
        rw [(mdStat_value harrays s.program).1, harray] at hvalue
        rw [staysPresent_iff h harrays, harray]
        exact (count_eq_iff f s.program).mp hvalue
  · intro hstays
    have hvalue : (mdStat o s.program).2.1 =
        (Finset.univ.filter fun dev => faulty (o.array dev)).card ∧
          (0 < (mdStat o s.program).2.1 ↔ ∃ dev, (mdStat o s.program).1.degraded dev = true) := by
      cases harrays : o.arrays with
      | none =>
          rw [mdStat_of_none harrays]
          refine ⟨by simp [Observation.array_of_none harrays, faulty],
            iff_of_false (Nat.lt_irrefl 0) ?_⟩
          rintro ⟨dev, hdev⟩
          have hthere := hstays dev ((h.seen dev).symm.trans hdev)
          rw [Observation.array_of_none harrays] at hthere
          cases hthere
      | some f =>
          obtain ⟨hcount, hlatches, -⟩ := mdStat_value harrays s.program
          have harray := Observation.array_of_some harrays
          have hright := (staysPresent_iff h harrays).mp hstays
          rw [harray] at hright ⊢
          rw [hcount, hlatches]
          exact ⟨(count_eq_iff f s.program).mpr hright, count_pos_iff _⟩
    exact ⟨hvalue.1, mdLines_eq h o, hled.trans (hglobal.trans hvalue.2.symm)⟩

theorem latched_step (h : s.Latched) (hstays : StaysPresent s o) : (s.step o).Latched := by
  obtain ⟨hglobal, hled⟩ := global_step h.last h.led o
  refine ⟨fun dev => ?_, hglobal, hled⟩
  simp only [MdRun.step]
  cases harrays : o.arrays with
  | none =>
      have harray := Observation.array_of_none harrays dev
      rw [mdStat_of_none harrays, h.seen, harray]
      by_contra hfaulty
      have hthere := hstays dev (Bool.ne_false_iff.mp hfaulty)
      rw [harray] at hthere
      cases hthere
  | some f =>
      rw [(mdStat_value harrays s.program).2.1]
      exact (staysPresent_iff h harrays).mp hstays dev

end Steps

/-- **The RAID status is current** along a run exactly if no array is gone at the call that
follows one at which it was degraded. -/
theorem status_along_iff (os : List Observation) :
    Along MdRun.step Current .start os ↔ Along MdRun.step StaysPresent .start os :=
  along_congr_of_kept MdRun.Latched (fun _ o h => current_iff h o)
    (fun _ _ h hstays => latched_step h hstays)
    ⟨fun _ => rfl, iff_of_false Bool.false_ne_true (by rintro ⟨dev, h⟩; cases h),
      iff_of_false (by decide) Bool.false_ne_true⟩

/-- A mirror that has lost a disk is there. -/
def degradedMirror : Observation :=
  ⟨some fun dev => if dev.val = 0 then some ⟨"clean".toList, raid1, some 1⟩ else none, by
    intro f hf dev a ha _
    obtain rfl := Option.mem_some.mp hf
    simp only at ha
    split at ha
    · rw [← Option.mem_some.mp ha]
      rfl
    · cases ha⟩

/-- No array is there. -/
def noArrays : Observation :=
  ⟨some fun _ => none, fun f hf dev a ha _ => by
    obtain rfl := Option.mem_some.mp hf
    cases ha⟩

/-- A degraded array that is removed stays counted. -/
theorem removed_still_counted :
    ¬ Along MdRun.step Current .start [degradedMirror, noArrays] ∧
      (mdStat noArrays (MdRun.start.step degradedMirror).program).2.1 = 1 := by
  refine ⟨fun h => ?_, by decide +kernel⟩
  exact absurd h.2.1.value (by decide +kernel)

end AltF.Sysctrl
