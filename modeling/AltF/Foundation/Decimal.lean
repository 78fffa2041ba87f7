/-
  Foundation/Decimal.lean --- decimal text: `%d` as a conversion of `printf` and
  of `scanf`.

  `scanInt` accepts what the conversion accepts: leading white space, a sign, and
  at least one digit; it stops at the first character that is no digit.
-/
import Mathlib.Data.List.TakeWhile
import Mathlib.Algebra.Order.Ring.Nat

set_option autoImplicit false

namespace AltF.Foundation

/-! ## Printing -/

/-- `printf("%d", v)`. -/
def printInt : Int → List Char
  | .ofNat n => Nat.toDigits 10 n
  | .negSucc n => '-' :: Nat.toDigits 10 (n + 1)

/-- The width of a number that fits `k` digits and a sign. -/
theorem printInt_length_le {v : Int} {k : Nat} (hk : 0 < k) (hlo : -(10 ^ k : Nat) < v)
    (hhi : v < (10 ^ k : Nat)) : (printInt v).length ≤ k + 1 := by
  cases v with
  | ofNat n =>
      have hn : n < 10 ^ k := Int.ofNat_lt.mp hhi
      have hlen := (Nat.length_toDigits_le_iff (b := 10) (by decide) hk).mpr hn
      simp only [printInt]
      omega
  | negSucc n =>
      have hn : n + 1 < 10 ^ k := by omega
      have hlen := (Nat.length_toDigits_le_iff (b := 10) (by decide) hk).mpr hn
      simp only [printInt, List.length_cons]
      omega

/-- A printed number holds digits and a sign. -/
theorem printInt_mem {v : Int} {c : Char} (h : c ∈ printInt v) : c.isDigit = true ∨ c = '-' := by
  cases v with
  | ofNat n => exact Or.inl (Nat.isDigit_of_mem_toDigits (by decide) (by decide) h)
  | negSucc n =>
      rcases List.mem_cons.mp h with hsign | hdigit
      · exact Or.inr hsign
      · exact Or.inl (Nat.isDigit_of_mem_toDigits (by decide) (by decide) hdigit)

/-! ## Scanning -/

/-- `isspace`. -/
def isSpace (c : Char) : Bool :=
  c == ' ' || c == '\t' || c == '\n' || c == '\x0b' || c == '\x0c' || c == '\r'

/-- The unsigned number in front of a text. -/
def scanNat (text : List Char) : Option Nat :=
  let digits := text.takeWhile (·.isDigit)
  if digits.isEmpty then none else some (Nat.ofDigitChars 10 digits 0)

/-- `sscanf(text, "%d", &u)`: the number assigned, if one is. -/
def scanInt (text : List Char) : Option Int :=
  match text.dropWhile isSpace with
  | '-' :: rest => (scanNat rest).map fun n => -(n : Int)
  | '+' :: rest => (scanNat rest).map fun n => (n : Int)
  | rest => (scanNat rest).map fun n => (n : Int)

theorem takeWhile_toDigits (n : Nat) :
    (Nat.toDigits 10 n).takeWhile (·.isDigit) = Nat.toDigits 10 n := by
  refine List.takeWhile_eq_self_iff.mpr fun c hc => ?_
  exact Nat.isDigit_of_mem_toDigits (by decide) (by decide) hc

theorem scanNat_toDigits (n : Nat) : scanNat (Nat.toDigits 10 n) = some n := by
  have hne : (Nat.toDigits 10 n).isEmpty = false := by
    rw [List.isEmpty_eq_false_iff]
    exact Nat.toDigits_ne_nil
  simp only [scanNat, takeWhile_toDigits, hne, Bool.false_eq_true, if_false,
    Nat.ofDigitChars_ten_toDigits]

theorem ne_of_isDigit {c : Char} (h : c.isDigit = true) (d : Char) (hd : d.isDigit = false) :
    c ≠ d := by
  rintro rfl
  rw [h] at hd
  cases hd

/-- A digit is neither white space nor a sign. -/
theorem not_space_of_isDigit {c : Char} (h : c.isDigit = true) :
    isSpace c = false ∧ c ≠ '-' ∧ c ≠ '+' := by
  have hne := ne_of_isDigit h
  refine ⟨?_, hne _ (by decide), hne _ (by decide)⟩
  simp [isSpace, hne ' ' (by decide), hne '\t' (by decide), hne '\n' (by decide),
    hne '\x0b' (by decide), hne '\x0c' (by decide), hne '\r' (by decide)]

/-- **Decimal round trip.**  What `%d` prints, `%d` scans. -/
theorem scanInt_printInt (v : Int) : scanInt (printInt v) = some v := by
  cases v with
  | ofNat n =>
      obtain ⟨c, rest, hcons⟩ := List.exists_cons_of_ne_nil (Nat.toDigits_ne_nil (n := n) (b := 10))
      have hdigit : c.isDigit = true := by
        refine Nat.isDigit_of_mem_toDigits (b := 10) (n := n) (by decide) (by decide) ?_
        rw [hcons]
        exact List.mem_cons_self
      obtain ⟨hspace, hminus, hplus⟩ := not_space_of_isDigit hdigit
      have hscan := scanNat_toDigits n
      simp only [scanInt, printInt]
      rw [hcons] at hscan ⊢
      rw [List.dropWhile_cons_of_neg (by simp [hspace])]
      split
      · rename_i heq
        exact absurd (List.cons.inj heq).1 hminus
      · rename_i heq
        exact absurd (List.cons.inj heq).1 hplus
      · rw [hscan]
        rfl
  | negSucc n =>
      have hdrop : (printInt (.negSucc n)).dropWhile isSpace = printInt (.negSucc n) :=
        List.dropWhile_cons_of_neg (by decide)
      rw [scanInt, hdrop]
      simp only [printInt, scanNat_toDigits]
      rfl

end AltF.Foundation
