/-
  Sysctrl/Pwm.lean --- the pwm of a DNS-323 A1 or B1, from the line through two points of
  temperature and speed, and the cubic fit from speed to pwm.

  The fit is increasing everywhere, so a hotter box never asks for a lower pwm.  It was
  made for speeds between 1900 and 6500; the line asks for others, and what the fit makes
  of them is written as it is, unless the fan has reached its greatest speed.
-/
import AltF.Foundation.Cubic
import AltF.Sysctrl.Fan
import Mathlib.Data.Rat.Floor
import Mathlib.Tactic.NormNum
import Mathlib.Topology.Order.IntermediateValue
import Mathlib.Topology.Instances.Real.Lemmas

set_option autoImplicit false

namespace AltF.Sysctrl

open AltF.Foundation

/-! ## The fit -/

theorem poly_f2p (x : Rat) :
    poly x f2p = 2.66029e-9 * x ^ 3 + (-4.28952e-5) * x ^ 2 + 0.244737 * x + (-328.233) := by
  simp only [poly, f2p, List.tail_cons, List.foldl_cons, List.foldl_nil, List.headD_cons]
  ring

/-- The fit is increasing. -/
theorem poly_f2p_strictMono : StrictMono fun x => poly x f2p := by
  have hmono := cubic_strictMono (K := Rat) (a := 2.66029e-9) (b := -4.28952e-5) (c := 0.244737)
    (-328.233) (by norm_num) (by norm_num)
  intro x y hxy
  simp only [poly_f2p]
  exact hmono hxy

/-! ## Truncation -/

theorem truncate_of_nonneg {q : Rat} (h : 0 ≤ q) : truncate q = ⌊q⌋ := by
  rw [truncate, Int.tdiv_eq_ediv_of_nonneg (Rat.num_nonneg.mpr h), Rat.floor_def']

theorem truncate_neg (q : Rat) : truncate (-q) = -truncate q := by
  simp [truncate]

theorem truncate_mono {p q : Rat} (h : p ≤ q) : truncate p ≤ truncate q := by
  rcases le_total 0 p with hp | hp
  · rw [truncate_of_nonneg hp, truncate_of_nonneg (hp.trans h)]
    exact Int.floor_le_floor h
  · have hp' : truncate p = -⌊-p⌋ := by
      rw [← truncate_of_nonneg (neg_nonneg.mpr hp), truncate_neg, neg_neg]
    rcases le_total 0 q with hq | hq
    · rw [hp', truncate_of_nonneg hq]
      exact (neg_nonpos.mpr (Int.floor_nonneg.mpr (neg_nonneg.mpr hp))).trans
        (Int.floor_nonneg.mpr hq)
    · have hq' : truncate q = -⌊-q⌋ := by
        rw [← truncate_of_nonneg (neg_nonneg.mpr hq), truncate_neg, neg_neg]
      rw [hp', hq']
      exact neg_le_neg (Int.floor_le_floor (neg_le_neg h))

/-- Truncation takes what is above -1 to what is not negative. -/
theorem truncate_nonneg_iff (q : Rat) : 0 ≤ truncate q ↔ -1 < q := by
  rcases le_total 0 q with hq | hq
  · rw [truncate_of_nonneg hq]
    exact iff_of_true (Int.floor_nonneg.mpr hq) (by linarith)
  · have hq' : truncate q = -⌊-q⌋ := by
      rw [← truncate_of_nonneg (neg_nonneg.mpr hq), truncate_neg, neg_neg]
    rw [hq', neg_nonneg, ← Int.lt_add_one_iff, zero_add, Int.floor_lt, Int.cast_one]
    exact ⟨fun h => by linarith, fun h => by linarith⟩

theorem truncate_le_iff {n : Int} (hn : 0 ≤ n) (q : Rat) : truncate q ≤ n ↔ q < n + 1 := by
  rcases le_total 0 q with hq | hq
  · rw [truncate_of_nonneg hq, ← Int.lt_add_one_iff, Int.floor_lt]
    push_cast
    rfl
  · have hle : truncate q ≤ 0 := by
      have := truncate_mono hq
      rwa [show truncate 0 = 0 from rfl] at this
    have hn' : (0 : Rat) ≤ n := by exact_mod_cast hn
    exact iff_of_true (hle.trans hn) (by linarith)

/-! ## The pwm -/

/-- A DNS-323 A1 or B1. -/
def Board.fits (board : Board) : Prop := board = .dns323A1 ∨ board = .dns323B1

/-- The speed that the line through the two points has at a temperature. -/
def lineSpeed (args : Args) (temp : Rat) : Rat :=
  let m : Rat := (args.hiFan - args.loFan) / (args.hiTemp - args.loTemp)
  temp * m + (args.loFan - m * args.loTemp)

/-- The pwm before the cap: below the band, above it, and in it. -/
def uncapped (args : Args) (temp : Rat) (pwm : Int) : Int :=
  if temp < args.fanOffTemp - args.histTemp then 0
  else if temp > args.fanOffTemp + args.histTemp then truncate (poly (lineSpeed args temp) f2p)
  else pwm

/-- The cap. -/
def maxPwm (args : Args) : Int := truncate (poly args.maxFanSpeed f2p)

theorem a1b1Pwm_eq (args : Args) (temp : Rat) (fan pwm : Int) :
    a1b1Pwm args temp fan pwm =
      if fan ≥ args.maxFanSpeed then min (maxPwm args) (uncapped args temp pwm)
      else uncapped args temp pwm := by
  unfold a1b1Pwm
  simp only
  split
  · change (if maxPwm args < uncapped args temp pwm then maxPwm args
      else uncapped args temp pwm) = _
    split
    · next hlt => exact (min_eq_left (le_of_lt hlt)).symm
    · next hle => exact (min_eq_right (not_lt.mp hle)).symm
  · rfl

/-- The pwm that `fanctl` writes on these boards. -/
theorem fanctl_a1b1 {board : Board} (hboard : board.fits) (args : Args) (s : FanState)
    (r : Readings) :
    (fanctl board args s r).2.1 = a1b1Pwm args (filterTemp args s.temp r) r.fan r.pwm := by
  rw [fanctl_pwm, choosePwm, if_pos (show board = .dns323A1 ∨ board = .dns323B1 from hboard)]

/-! ## Hotter -/

section Hotter

variable {args : Args}

/-- A hotter box asks for a faster fan. -/
theorem lineSpeed_mono (htemp : args.loTemp < args.hiTemp) (hfan : args.loFan ≤ args.hiFan)
    {t t' : Rat} (h : t ≤ t') : lineSpeed args t ≤ lineSpeed args t' := by
  have hrise : (0 : Rat) ≤ args.hiFan - args.loFan := sub_nonneg.mpr (by exact_mod_cast hfan)
  have hrun : (0 : Rat) < args.hiTemp - args.loTemp := sub_pos.mpr (by exact_mod_cast htemp)
  exact add_le_add_left (mul_le_mul_of_nonneg_right h (div_nonneg hrise hrun.le)) _

/-- Above the band the pwm in the file does not count. -/
theorem uncapped_above {temp : Rat} (hhist : 0 ≤ args.histTemp)
    (h : args.fanOffTemp + args.histTemp < temp) (pwm : Int) :
    uncapped args temp pwm = truncate (poly (lineSpeed args temp) f2p) := by
  rw [uncapped, if_neg (by linarith), if_pos h]

/-- **Hotter never means slower**: above the band, at one fan reading, the pwm that is
written grows with the filtered temperature. -/
theorem hotter_not_slower {board : Board} (hboard : board.fits)
    (htemp : args.loTemp < args.hiTemp) (hfan : args.loFan ≤ args.hiFan)
    (hhist : 0 ≤ args.histTemp) {s s' : FanState} {r r' : Readings} (hsame : r.fan = r'.fan)
    (habove : args.fanOffTemp + args.histTemp < filterTemp args s.temp r)
    (hhotter : filterTemp args s.temp r ≤ filterTemp args s'.temp r') :
    (fanctl board args s r).2.1 ≤ (fanctl board args s' r').2.1 := by
  have hspeed := lineSpeed_mono htemp hfan hhotter
  have huncapped : uncapped args (filterTemp args s.temp r) r.pwm ≤
      uncapped args (filterTemp args s'.temp r') r'.pwm := by
    rw [uncapped_above hhist habove, uncapped_above hhist (habove.trans_le hhotter)]
    exact truncate_mono (poly_f2p_strictMono.monotone hspeed)
  rw [fanctl_a1b1 hboard, fanctl_a1b1 hboard, a1b1Pwm_eq, a1b1Pwm_eq, hsame]
  split
  · exact min_le_min_left _ huncapped
  · exact huncapped

end Hotter

/-- The variables of a filter that stands at a temperature. -/
def filteredAt (temp : Rat) : FanState := ⟨temp, 0, false, false, 0⟩

theorem hotter_not_slower_default :
    (fanctl .dns323B1 defaultArgs (filteredAt 50) ⟨0, 50000, 0, 90, 4000⟩).2.1 ≤
      (fanctl .dns323B1 defaultArgs (filteredAt 50) ⟨0, 55000, 0, 90, 4000⟩).2.1 :=
  hotter_not_slower (Or.inr rfl) (by decide) (by decide) (by decide +kernel) rfl
    (by decide +kernel) (by decide +kernel)

/-! ## Legal values -/

/-- The fit over the reals. -/
noncomputable def fit (x : ℝ) : ℝ :=
  2.66029e-9 * x ^ 3 + (-4.28952e-5) * x ^ 2 + 0.244737 * x + (-328.233)

theorem fit_strictMono : StrictMono fit :=
  cubic_strictMono (-328.233) (by norm_num) (by norm_num)

theorem poly_cast (x : Rat) : ((poly x f2p : Rat) : ℝ) = fit x := by
  rw [poly_f2p, fit]
  push_cast
  norm_num

theorem exists_fit_eq {a b y : ℝ} (hab : a ≤ b) (ha : fit a < y) (hb : y < fit b) :
    ∃ x, (a < x ∧ x < b) ∧ fit x = y := by
  have hcont : ContinuousOn fit (Set.Icc a b) := by
    unfold fit
    fun_prop
  obtain ⟨x, -, hx⟩ := intermediate_value_Icc hab hcont ⟨ha.le, hb.le⟩
  exact ⟨x, ⟨fit_strictMono.lt_iff_lt.mp (hx ▸ ha), fit_strictMono.lt_iff_lt.mp (hx ▸ hb)⟩, hx⟩

theorem exists_slowest : ∃ x, (1889 < x ∧ x < 1890) ∧ fit x = -1 :=
  exists_fit_eq (by norm_num) (by norm_num [fit]) (by norm_num [fit])

theorem exists_fastest : ∃ x, (8132 < x ∧ x < 8133) ∧ fit x = 256 :=
  exists_fit_eq (by norm_num) (by norm_num [fit]) (by norm_num [fit])

/-- The speed that is fitted to -1, between 1889 and 1890. -/
noncomputable def slowest : ℝ := Classical.choose exists_slowest

/-- The speed that is fitted to 256, between 8132 and 8133. -/
noncomputable def fastest : ℝ := Classical.choose exists_fastest

theorem slowest_lt_iff (x : Rat) : slowest < x ↔ -1 < poly x f2p := by
  have hfit : fit slowest = -1 := (Classical.choose_spec exists_slowest).2
  rw [← fit_strictMono.lt_iff_lt, hfit, ← poly_cast]
  norm_cast

theorem lt_fastest_iff (x : Rat) : x < fastest ↔ poly x f2p < 256 := by
  have hfit : fit fastest = 256 := (Classical.choose_spec exists_fastest).2
  rw [← fit_strictMono.lt_iff_lt, hfit, ← poly_cast]
  norm_cast

/-- For a whole number of revolutions. -/
theorem slowest_lt_intCast (n : Int) : slowest < (n : Rat) ↔ 1890 ≤ n := by
  obtain ⟨hlow, hhigh⟩ := (Classical.choose_spec exists_slowest).1
  push_cast
  constructor
  · intro h
    have hn : (1889 : ℝ) < n := hlow.trans h
    have hn' : (1889 : Int) < n := by exact_mod_cast hn
    omega
  · intro h
    exact hhigh.trans_le (by exact_mod_cast h)

theorem intCast_lt_fastest (n : Int) : ((n : Rat) : ℝ) < fastest ↔ n ≤ 8132 := by
  obtain ⟨hlow, hhigh⟩ := (Classical.choose_spec exists_fastest).1
  push_cast
  constructor
  · intro h
    have hn : (n : ℝ) < 8133 := h.trans hhigh
    have hn' : n < 8133 := by exact_mod_cast hn
    omega
  · intro h
    exact lt_of_le_of_lt (by exact_mod_cast h) hlow

/-- The temperature is above the band, where the line is asked. -/
def Above (args : Args) (temp : Rat) : Prop :=
  ¬ temp < args.fanOffTemp - args.histTemp ∧ args.fanOffTemp + args.histTemp < temp

/-- The speeds are in the range of the fit. -/
structure InRange (args : Args) (temp : Rat) (fan : Int) : Prop where
  /-- above the band the line asks for none too slow -/
  slow : Above args temp → slowest < lineSpeed args temp
  /-- and none too fast, or the fan has reached its greatest speed, which is not too fast -/
  fast : Above args temp →
    lineSpeed args temp < fastest ∨ args.maxFanSpeed ≤ fan ∧ args.maxFanSpeed ≤ 8132
  /-- a greatest speed that the fan has reached is not too slow -/
  greatest : args.maxFanSpeed ≤ fan → 1890 ≤ args.maxFanSpeed

theorem maxPwm_legal_iff (args : Args) :
    (0 ≤ maxPwm args ↔ 1890 ≤ args.maxFanSpeed) ∧
      (maxPwm args ≤ 255 ↔ args.maxFanSpeed ≤ 8132) := by
  rw [maxPwm, truncate_nonneg_iff, truncate_le_iff (by decide), ← slowest_lt_intCast,
    ← intCast_lt_fastest, slowest_lt_iff, lt_fastest_iff]
  norm_num

theorem asked_legal_iff (args : Args) (temp : Rat) :
    (0 ≤ truncate (poly (lineSpeed args temp) f2p) ↔ slowest < lineSpeed args temp) ∧
      (truncate (poly (lineSpeed args temp) f2p) ≤ 255 ↔ lineSpeed args temp < fastest) := by
  rw [truncate_nonneg_iff, truncate_le_iff (by decide), slowest_lt_iff, lt_fastest_iff]
  norm_num

theorem a1b1Pwm_legal_iff (args : Args) (temp : Rat) (fan : Int) {pwm : Int}
    (hpwm : 0 ≤ pwm ∧ pwm ≤ 255) :
    (0 ≤ a1b1Pwm args temp fan pwm ∧ a1b1Pwm args temp fan pwm ≤ 255) ↔
      InRange args temp fan := by
  obtain ⟨hslow, hfast⟩ := asked_legal_iff args temp
  obtain ⟨hcap, hcap'⟩ := maxPwm_legal_iff args
  have hrange : InRange args temp fan ↔
      (Above args temp → slowest < lineSpeed args temp) ∧
        (Above args temp →
          lineSpeed args temp < fastest ∨ args.maxFanSpeed ≤ fan ∧ args.maxFanSpeed ≤ 8132) ∧
        (args.maxFanSpeed ≤ fan → 1890 ≤ args.maxFanSpeed) :=
    ⟨fun h => ⟨h.slow, h.fast, h.greatest⟩, fun h => ⟨h.1, h.2.1, h.2.2⟩⟩
  rw [hrange, ← hslow, ← hfast, ← hcap, ← hcap', a1b1Pwm_eq]
  by_cases habove : Above args temp
  · -- The line is asked.
    have huncapped : uncapped args temp pwm = truncate (poly (lineSpeed args temp) f2p) := by
      rw [uncapped, if_neg habove.1, if_pos habove.2]
    simp only [huncapped, habove, true_implies]
    split_ifs with hfan
    · simp only [ge_iff_le] at hfan
      simp only [hfan, true_and, true_implies, le_min_iff, min_le_iff]
      exact ⟨fun ⟨⟨hcap, hline⟩, htop⟩ => ⟨hline, htop.symm, hcap⟩,
        fun ⟨hline, htop, hcap⟩ => ⟨⟨hcap, hline⟩, htop.symm⟩⟩
    · simp only [ge_iff_le] at hfan
      simp only [hfan, false_and, or_false, false_implies, and_true]
  · -- The pwm is 0, or the one in the file.
    have huncapped : 0 ≤ uncapped args temp pwm ∧ uncapped args temp pwm ≤ 255 := by
      unfold uncapped
      split_ifs with hcold hhot
      · exact ⟨le_refl 0, by decide⟩
      · exact absurd ⟨hcold, hhot⟩ habove
      · exact hpwm
    simp only [habove, false_implies, true_and]
    split_ifs with hfan
    · simp only [ge_iff_le] at hfan
      simp only [hfan, true_implies, le_min_iff, min_le_iff, huncapped, and_true, or_true]
    · simp only [ge_iff_le] at hfan
      simp only [hfan, false_implies, huncapped, and_self]

/-- **The pwm is legal** exactly if the speeds are in the range of the fit. -/
theorem legal_iff_inRange {board : Board} (hboard : board.fits) {args : Args}
    (_hline : args.loTemp ≠ args.hiTemp) (s : FanState) {r : Readings}
    (hpwm : 0 ≤ r.pwm ∧ r.pwm ≤ 255) :
    (0 ≤ (fanctl board args s r).2.1 ∧ (fanctl board args s r).2.1 ≤ 255) ↔
      InRange args (filterTemp args s.temp r) r.fan := by
  rw [fanctl_a1b1 hboard]
  exact a1b1Pwm_legal_iff args _ r.fan hpwm

theorem legal_iff_inRange_default :
    (0 ≤ (fanctl .dns323B1 defaultArgs (filteredAt 50) ⟨0, 50000, 0, 90, 4000⟩).2.1 ∧
      (fanctl .dns323B1 defaultArgs (filteredAt 50) ⟨0, 50000, 0, 90, 4000⟩).2.1 ≤ 255) ↔
      InRange defaultArgs (filterTemp defaultArgs 50 ⟨0, 50000, 0, 90, 4000⟩) 4000 :=
  legal_iff_inRange (Or.inr rfl) (by decide) (filteredAt 50) ⟨by decide, by decide⟩

/-- Nothing but the line bounds the pwm of a hot box: 269 at 61 degrees, with the default
settings, while the fan has not reached 6000. -/
theorem hot_not_legal :
    (fanctl .dns323B1 defaultArgs (filteredAt 61) ⟨0, 61000, 0, 255, 5000⟩).2.1 = 269 ∧
      ¬ (269 : Int) ≤ 255 := by
  decide +kernel

end AltF.Sysctrl
