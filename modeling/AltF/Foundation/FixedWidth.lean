/-
  Foundation/FixedWidth.lean --- decimal text of a fixed width: `%02d` of a number that fits.

  Texts of one width are in the order of their numbers, whatever stands behind them.
-/
import Mathlib.Data.List.Lex
import Mathlib.Algebra.Order.Ring.Nat

set_option autoImplicit false

namespace AltF.Foundation

/-- The last `k` digits of a number. -/
def fixedDigits : Nat → Nat → List Char
  | 0, _ => []
  | k + 1, n => Nat.digitChar (n / 10 ^ k) :: fixedDigits k (n % 10 ^ k)

@[simp] theorem fixedDigits_length (k n : Nat) : (fixedDigits k n).length = k := by
  induction k generalizing n with
  | zero => rfl
  | succ k ih => rw [fixedDigits, List.length_cons, ih]

theorem digitChar_lt_iff {a b : Nat} (ha : a < 10) (hb : b < 10) :
    (Nat.digitChar a < Nat.digitChar b ↔ a < b) ∧ (Nat.digitChar a = Nat.digitChar b ↔ a = b) := by
  have hall : ∀ a b : Fin 10, (Nat.digitChar a < Nat.digitChar b ↔ a.val < b.val) ∧
      (Nat.digitChar a = Nat.digitChar b ↔ a.val = b.val) := by decide
  exact hall ⟨a, ha⟩ ⟨b, hb⟩

/-- **Texts of one width are ordered** as their numbers are. -/
theorem fixedDigits_append_lt {k x y : Nat} (hx : x < 10 ^ k) (hy : y < 10 ^ k)
    (l l' : List Char) :
    fixedDigits k x ++ l < fixedDigits k y ++ l' ↔ x < y ∨ x = y ∧ l < l' := by
  induction k generalizing x y with
  | zero =>
      obtain rfl : x = 0 := Nat.lt_one_iff.mp hx
      obtain rfl : y = 0 := Nat.lt_one_iff.mp hy
      simp [fixedDigits]
  | succ k ih =>
      have hpos : 0 < 10 ^ k := Nat.pow_pos (by decide)
      have hfirst : ∀ {z : Nat}, z < 10 ^ (k + 1) → z / 10 ^ k < 10 := by
        intro z hz
        rw [Nat.div_lt_iff_lt_mul hpos, ← Nat.pow_succ']
        exact hz
      obtain ⟨hlt, heq⟩ := digitChar_lt_iff (hfirst hx) (hfirst hy)
      rw [fixedDigits, fixedDigits, List.cons_append, List.cons_append, List.cons_lt_cons_iff, hlt,
        heq, ih (Nat.mod_lt x hpos) (Nat.mod_lt y hpos)]
      have hdivx := Nat.div_add_mod x (10 ^ k)
      have hdivy := Nat.div_add_mod y (10 ^ k)
      have hmodx := Nat.mod_lt x hpos
      rcases Nat.lt_trichotomy (x / 10 ^ k) (y / 10 ^ k) with h | h | h
      · have hxy : x < y := by
          rw [Nat.div_lt_iff_lt_mul hpos] at h
          exact h.trans_le (Nat.div_mul_le_self y (10 ^ k))
        simp [h, hxy]
      · rw [h] at hdivx
        have hxy : x < y ↔ x % 10 ^ k < y % 10 ^ k := by omega
        have hxy' : x = y ↔ x % 10 ^ k = y % 10 ^ k := by omega
        simp [h, hxy, hxy']
      · have hyx : y < x := by
          rw [Nat.div_lt_iff_lt_mul hpos] at h
          exact h.trans_le (Nat.div_mul_le_self x (10 ^ k))
        have hnot : ¬ x / 10 ^ k < y / 10 ^ k := by omega
        simp [hnot, h.ne', hyx.ne', Nat.le_of_lt hyx]

end AltF.Foundation
