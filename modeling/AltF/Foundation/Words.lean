/-
  Foundation/Words.lean --- little-endian 32-bit words over byte lists, and the
  exclusive-or sum of the whole words of a byte list.

  The sum reads only the whole words: up to three bytes past the last one never
  enter it.  The two facts the rest of the development needs are that the sum
  composes over concatenation at a word boundary, and that a change of one byte
  is visible in the sum exactly when the byte lies in a whole word
  (`xorWords_set_eq_iff`).
-/
import Mathlib.Data.List.Basic
import Mathlib.Algebra.Order.Ring.Nat

set_option autoImplicit false

namespace AltF.Foundation

/-- A byte string. -/
abbrev Bytes : Type := List UInt8

/-! ## Words -/

/-- The 32-bit word whose four bytes, least significant first, are given. -/
def le32 (a b c d : UInt8) : UInt32 :=
  UInt32.ofNat (a.toNat + 2 ^ 8 * b.toNat + 2 ^ 16 * c.toNat + 2 ^ 24 * d.toNat)

/-- The four bytes of a word, least significant first. -/
def bytes32 (w : UInt32) : Bytes :=
  [UInt8.ofNat w.toNat, UInt8.ofNat (w.toNat / 2 ^ 8),
    UInt8.ofNat (w.toNat / 2 ^ 16), UInt8.ofNat (w.toNat / 2 ^ 24)]

-- Not by `rfl`: the skip lemmas below rewrite with it inside their side condition.
@[simp] theorem bytes32_length (w : UInt32) : (bytes32 w).length = 4 := by simp [bytes32]

theorem le32_toNat (a b c d : UInt8) :
    (le32 a b c d).toNat =
      a.toNat + 2 ^ 8 * b.toNat + 2 ^ 16 * c.toNat + 2 ^ 24 * d.toNat := by
  have ha := a.toNat_lt
  have hb := b.toNat_lt
  have hc := c.toNat_lt
  have hd := d.toNat_lt
  exact UInt32.toNat_ofNat_of_lt' (by simp only [UInt32.size]; omega)

/-- Reading a word back from its bytes gives the word. -/
theorem le32_of_bytes (w : UInt32) :
    le32 (UInt8.ofNat w.toNat) (UInt8.ofNat (w.toNat / 2 ^ 8))
      (UInt8.ofNat (w.toNat / 2 ^ 16)) (UInt8.ofNat (w.toNat / 2 ^ 24)) = w := by
  have hw := w.toNat_lt
  apply UInt32.toNat_inj.mp
  rw [le32_toNat]
  simp only [UInt8.toNat_ofNat']
  omega

/-- Four bytes are determined by the word they spell. -/
theorem le32_injective {a b c d a' b' c' d' : UInt8}
    (h : le32 a b c d = le32 a' b' c' d') : a = a' ∧ b = b' ∧ c = c' ∧ d = d' := by
  have hn : (le32 a b c d).toNat = (le32 a' b' c' d').toNat := by rw [h]
  rw [le32_toNat, le32_toNat] at hn
  have ha := a.toNat_lt
  have hb := b.toNat_lt
  have hc := c.toNat_lt
  have ha' := a'.toNat_lt
  have hb' := b'.toNat_lt
  have hc' := c'.toNat_lt
  refine ⟨?_, ?_, ?_, ?_⟩ <;> apply UInt8.toNat_inj.mp <;> omega

/-- The word at byte offset `off`; 0 when the bytes end inside it. -/
def u32At (bs : Bytes) (off : Nat) : UInt32 :=
  match bs.drop off with
  | a :: b :: c :: d :: _ => le32 a b c d
  | _ => 0

/-- The byte at offset `off`; 0 past the end. -/
def byteAt (bs : Bytes) (off : Nat) : UInt8 := bs.getD off 0

/-- The `len` bytes from offset `off` on, fewer when the bytes end before. -/
def slice (bs : Bytes) (off len : Nat) : Bytes := (bs.drop off).take len

/-! ### Reading a record written field by field

A fixed-layout record is the concatenation of its fields.  Each reader skips the
fields in front of its offset and then meets the field written there. -/

theorem u32At_skip {field : Bytes} (rest : Bytes) {off : Nat} (h : field.length ≤ off) :
    u32At (field ++ rest) off = u32At rest (off - field.length) := by
  simp only [u32At, List.drop_append, List.drop_eq_nil_of_le h, List.nil_append]

theorem u32At_bytes32 (w : UInt32) (rest : Bytes) : u32At (bytes32 w ++ rest) 0 = w := by
  simp only [u32At, List.drop_zero, bytes32, List.cons_append]
  exact le32_of_bytes w

theorem byteAt_skip {field : Bytes} (rest : Bytes) {off : Nat} (h : field.length ≤ off) :
    byteAt (field ++ rest) off = byteAt rest (off - field.length) := by
  simp only [byteAt, List.getD_eq_getElem?_getD, List.getElem?_append_right h]

theorem u32At_cons_succ (b : UInt8) (rest : Bytes) (off : Nat) :
    u32At (b :: rest) (off + 1) = u32At rest off := rfl

theorem byteAt_cons_zero (b : UInt8) (rest : Bytes) : byteAt (b :: rest) 0 = b := rfl

theorem byteAt_cons_succ (b : UInt8) (rest : Bytes) (off : Nat) :
    byteAt (b :: rest) (off + 1) = byteAt rest off := rfl

theorem slice_skip {field : Bytes} (rest : Bytes) {off len : Nat} (h : field.length ≤ off) :
    slice (field ++ rest) off len = slice rest (off - field.length) len := by
  simp only [slice, List.drop_append, List.drop_eq_nil_of_le h, List.nil_append]

theorem slice_here {field : Bytes} (rest : Bytes) {len : Nat} (h : field.length = len) :
    slice (field ++ rest) 0 len = field := by
  simp only [slice, List.drop_zero, ← h, List.take_left]

/-- A byte changed in front of a slice or behind it does not change the slice. -/
theorem slice_set_outside {bs : Bytes} {p off len : Nat} {b : UInt8}
    (h : p < off ∨ off + len ≤ p) : slice (bs.set p b) off len = slice bs off len := by
  apply List.ext_getElem?
  intro i
  simp only [slice, List.getElem?_take, List.getElem?_drop]
  split
  · rw [List.getElem?_set_ne (by omega)]
  · rfl

/-- A byte changed inside a slice is changed at its place in the slice. -/
theorem slice_set_inside {bs : Bytes} {p off len : Nat} {b : UInt8} (h : off ≤ p) :
    slice (bs.set p b) off len = (slice bs off len).set (p - off) b := by
  simp only [slice, List.drop_set, if_neg (Nat.not_lt.mpr h), List.take_set]

/-! ## The exclusive-or sum -/

/-- The whole words of a byte string, in order. -/
def words : Bytes → List UInt32
  | a :: b :: c :: d :: rest => le32 a b c d :: words rest
  | _ => []

/-- The exclusive-or of the whole words of a byte string. -/
def xorWords : Bytes → UInt32
  | a :: b :: c :: d :: rest => le32 a b c d ^^^ xorWords rest
  | _ => 0

@[simp] theorem xorWords_nil : xorWords [] = 0 := rfl

@[simp] theorem xorWords_cons (a b c d : UInt8) (rest : Bytes) :
    xorWords (a :: b :: c :: d :: rest) = le32 a b c d ^^^ xorWords rest := rfl

/-- Fewer than four bytes hold no whole word. -/
theorem xorWords_short {bs : Bytes} (h : bs.length < 4) : xorWords bs = 0 := by
  match bs, h with
  | [], _ => rfl
  | [_], _ => rfl
  | [_, _], _ => rfl
  | [_, _, _], _ => rfl

/-- A byte string of no four-byte shape has fewer than four bytes. -/
theorem length_lt_four {bs : Bytes}
    (h : ∀ (a b c d : UInt8) (rest : Bytes), bs = a :: b :: c :: d :: rest → False) :
    bs.length < 4 := by
  match bs, h with
  | [], _ => simp
  | [_], _ => simp
  | [_, _], _ => simp
  | [_, _, _], _ => simp
  | a :: b :: c :: d :: rest, h => exact absurd rfl (h a b c d rest)

/-- Folding the words into an accumulator adds the sum to it. -/
theorem foldl_words (bs : Bytes) (acc : UInt32) :
    (words bs).foldl (· ^^^ ·) acc = acc ^^^ xorWords bs := by
  induction bs using words.induct generalizing acc with
  | case1 a b c d rest ih =>
      simp only [words, List.foldl_cons, xorWords_cons]
      rw [ih, UInt32.xor_assoc]
  | case2 bs hshort =>
      have hw : words bs = [] := words.eq_2 bs hshort
      have hx : xorWords bs = 0 := xorWords.eq_2 bs hshort
      rw [hw, hx, List.foldl_nil, UInt32.xor_zero]

/-- At a word boundary the sum of a concatenation is the sum of the sums. -/
theorem xorWords_append {pre : Bytes} (rest : Bytes) (h : 4 ∣ pre.length) :
    xorWords (pre ++ rest) = xorWords pre ^^^ xorWords rest := by
  induction pre using xorWords.induct with
  | case1 a b c d pre ih =>
      have hpre : 4 ∣ pre.length := by
        simp only [List.length_cons] at h
        omega
      simp only [List.cons_append, xorWords_cons, ih hpre, UInt32.xor_assoc]
  | case2 pre hshort =>
      have hlt := length_lt_four hshort
      have hnil : pre = [] := List.length_eq_zero_iff.mp (by omega)
      simp [hnil]

/-- **One changed byte.**  Replacing a byte by a different one leaves the sum
unchanged exactly when the byte lies past the last whole word. -/
theorem xorWords_set_eq_iff {bs : Bytes} {r : Nat} {b : UInt8}
    (hr : r < bs.length) (hb : bs[r] ≠ b) :
    xorWords (bs.set r b) = xorWords bs ↔ 4 * (bs.length / 4) ≤ r := by
  induction bs using xorWords.induct generalizing r with
  | case1 a₀ a₁ a₂ a₃ rest ih =>
      have hlen : 4 * ((a₀ :: a₁ :: a₂ :: a₃ :: rest).length / 4) =
          4 + 4 * (rest.length / 4) := by
        simp only [List.length_cons]
        omega
      rw [hlen]
      -- The changed byte is one of the four of the first word, or lies behind it.
      match r, hr, hb with
      | 0, _, hb =>
          simp only [List.set_cons_zero, xorWords_cons, UInt32.xor_left_inj]
          refine iff_of_false (fun h => hb ?_) (by omega)
          exact (le32_injective h).1.symm
      | 1, _, hb =>
          simp only [List.set_cons_succ, List.set_cons_zero, xorWords_cons, UInt32.xor_left_inj]
          refine iff_of_false (fun h => hb ?_) (by omega)
          exact (le32_injective h).2.1.symm
      | 2, _, hb =>
          simp only [List.set_cons_succ, List.set_cons_zero, xorWords_cons, UInt32.xor_left_inj]
          refine iff_of_false (fun h => hb ?_) (by omega)
          exact (le32_injective h).2.2.1.symm
      | 3, _, hb =>
          simp only [List.set_cons_succ, List.set_cons_zero, xorWords_cons, UInt32.xor_left_inj]
          refine iff_of_false (fun h => hb ?_) (by omega)
          exact (le32_injective h).2.2.2.symm
      | r + 4, hr, hb =>
          simp only [List.set_cons_succ, xorWords_cons, UInt32.xor_right_inj]
          rw [ih (by simpa using hr) (by simpa using hb)]
          omega
  | case2 bs hshort =>
      have hlt := length_lt_four hshort
      rw [xorWords_short hlt, xorWords_short (by rwa [List.length_set])]
      exact iff_of_true rfl (by omega)

end AltF.Foundation
