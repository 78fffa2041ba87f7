/-
  Foundation/Cubic.lean --- a cubic without extrema is strictly increasing.
-/
import Mathlib.Algebra.Order.Field.Basic
import Mathlib.Tactic.Linarith
import Mathlib.Tactic.Positivity
import Mathlib.Tactic.Ring

set_option autoImplicit false

namespace AltF.Foundation

/-- The slope of a chord, completed to squares. -/
theorem cubic_chord {K : Type} [CommRing K] (a b c x y : K) :
    12 * a * (a * (x ^ 2 + x * y + y ^ 2) + b * (x + y) + c) =
      (3 * a * (x + y) + 2 * b) ^ 2 + 3 * (a * (x - y)) ^ 2 + 4 * (3 * a * c - b ^ 2) := by
  ring

variable {K : Type} [Field K] [LinearOrder K] [IsStrictOrderedRing K]

/-- The derivative has no root: its discriminant is negative. -/
theorem cubic_strictMono {a b c : K} (d : K) (ha : 0 < a) (hdisc : b ^ 2 < 3 * a * c) :
    StrictMono fun x : K => a * x ^ 3 + b * x ^ 2 + c * x + d := by
  intro x y hxy
  have hslope : 0 < a * (x ^ 2 + x * y + y ^ 2) + b * (x + y) + c := by
    have hchord := cubic_chord a b c x y
    have hpos : 0 < 12 * a * (a * (x ^ 2 + x * y + y ^ 2) + b * (x + y) + c) := by
      have hsq := sq_nonneg (3 * a * (x + y) + 2 * b)
      have hsq' := sq_nonneg (a * (x - y))
      rw [hchord]
      linarith
    exact pos_of_mul_pos_right hpos (by positivity)
  have hrise := mul_pos (sub_pos.mpr hxy) hslope
  have hdiff : (y - x) * (a * (x ^ 2 + x * y + y ^ 2) + b * (x + y) + c) =
      (a * y ^ 3 + b * y ^ 2 + c * y + d) - (a * x ^ 3 + b * x ^ 2 + c * x + d) := by
    ring
  rw [hdiff] at hrise
  exact sub_pos.mp hrise

end AltF.Foundation
