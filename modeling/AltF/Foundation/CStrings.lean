/-
  Foundation/CStrings.lean --- an array of characters and pointers into it: what a program in C
  reads and writes through them, and the functions for strings that end with a zero.

  Every access is checked.  `none` is an access outside of the array, or through a pointer to
  nothing.
-/
import Mathlib.Data.List.TakeWhile

set_option autoImplicit false

namespace AltF.Foundation

/-- An array of `n` characters. -/
structure Buffer (n : Nat) where
  bytes : List Char
  size : bytes.length = n

/-- Into the array, or a number that is no address of the program; `NULL` is 0. -/
inductive Ptr where
  | at (i : Nat)
  | wild (a : Nat)
  deriving DecidableEq, Repr

def nul : Char := '\x00'

namespace Ptr

def null : Ptr := wild 0

/-- `p++` -/
def succ : Ptr → Ptr
  | .at i => .at (i + 1)
  | wild a => wild (a + 1)

end Ptr

/-- `while (f(*p)) p++;` from `i`, with what is there. -/
def skip (f : Char → Bool) : List Char → Nat → Option Nat
  | [], _ => none
  | c :: t, i => if f c then skip f t (i + 1) else some i

namespace Buffer

variable {n : Nat} (b : Buffer n)

/-- `*p` -/
def load : Ptr → Option Char
  | .at i => b.bytes[i]?
  | .wild _ => none

/-- `*p = c` -/
def store (p : Ptr) (c : Char) : Option (Buffer n) :=
  match p with
  | .at i =>
      if i < n then some ⟨b.bytes.set i c, by rw [List.length_set]; exact b.size⟩ else none
  | .wild _ => none

def skipWhile (f : Char → Bool) (i : Nat) : Option Nat := skip f (b.bytes.drop i) i

def strlen (i : Nat) : Option Nat := (b.skipWhile (· != nul) i).map (· - i)

/-- The pointer that `strchr` returns. -/
def strchr (i : Nat) (c : Char) : Option Ptr := do
  let j ← b.skipWhile (fun d => d != c && d != nul) i
  let d ← b.load (.at j)
  some (if d = c then .at j else .null)

def strspn (i : Nat) (accept : List Char) : Option Nat :=
  (b.skipWhile (fun d => accept.contains d && d != nul) i).map (· - i)

/-- The string at a pointer, as it is read to its end. -/
def text (p : Ptr) : Option (List Char) :=
  match p with
  | .at i => (b.strlen i).map fun k => (b.bytes.drop i).take k
  | .wild _ => none

/-- A string is written to the front; what does not fit is left out. -/
def fill (s : List Char) : Buffer n where
  bytes := (s ++ nul :: b.bytes.drop (s.length + 1)).take n
  size := by
    have hsize := b.size
    rw [List.length_take, List.length_append, List.length_cons, List.length_drop]
    omega

/-! ## What is there -/

variable {b} {x y s : List Char} {c : Char}

theorem load_eq (hb : b.bytes = x ++ c :: y) : b.load (.at x.length) = some c := by
  rw [load, hb, List.getElem?_append_right le_rfl, Nat.sub_self]
  rfl

theorem store_eq (hb : b.bytes = x ++ c :: y) (d : Char) :
    ∃ b', b.store (.at x.length) d = some b' ∧ b'.bytes = x ++ d :: y := by
  have hlt : x.length < n := by
    have hsize := b.size
    rw [hb, List.length_append, List.length_cons] at hsize
    omega
  refine ⟨_, if_pos hlt, ?_⟩
  dsimp only
  rw [hb, List.set_append_right _ _ le_rfl, Nat.sub_self]
  rfl

theorem skip_eq {f : Char → Bool} (hs : ∀ a ∈ s, f a = true) (hc : f c = false) (i : Nat) :
    skip f (s ++ c :: y) i = some (i + s.length) := by
  induction s generalizing i with
  | nil =>
      rw [List.nil_append, skip, if_neg (by rw [hc]; exact Bool.false_ne_true)]
      rfl
  | cons a s ih =>
      obtain ⟨ha, hs⟩ := List.forall_mem_cons.mp hs
      rw [List.cons_append, skip, if_pos ha, ih hs, List.length_cons, Nat.add_assoc,
        Nat.add_comm 1]

theorem skipWhile_eq {f : Char → Bool} (hb : b.bytes = x ++ s ++ c :: y)
    (hs : ∀ a ∈ s, f a = true) (hc : f c = false) :
    b.skipWhile f x.length = some (x.length + s.length) := by
  rw [skipWhile, hb, List.append_assoc, List.drop_left]
  exact skip_eq hs hc _

/-- It ends at the latest at a character that is not skipped. -/
theorem skipWhile_takeWhile {f : Char → Bool} (hb : b.bytes = x ++ s ++ c :: y)
    (hc : f c = false) :
    b.skipWhile f x.length = some (x.length + (s.takeWhile f).length) := by
  have hmem : ∀ a ∈ s.takeWhile f, f a = true := fun a => List.mem_takeWhile_imp
  have hsplit := List.takeWhile_append_dropWhile (p := f) (l := s)
  cases hrest : s.dropWhile f with
  | nil =>
      rw [hrest, List.append_nil] at hsplit
      rw [hsplit] at hmem ⊢
      exact skipWhile_eq hb hmem hc
  | cons d rest =>
      have hd : f d = false := by
        have hne : s.dropWhile f ≠ [] := by
          rw [hrest]
          exact List.cons_ne_nil d rest
        have hhead := List.head_dropWhile_not f hne
        simpa [hrest] using hhead
      have hb' : b.bytes = x ++ s.takeWhile f ++ d :: (rest ++ c :: y) :=
        calc b.bytes = x ++ (s.takeWhile f ++ s.dropWhile f) ++ c :: y := by rw [hsplit, hb]
          _ = x ++ s.takeWhile f ++ d :: (rest ++ c :: y) := by
              rw [hrest]
              simp only [List.append_assoc, List.cons_append]
      exact skipWhile_eq hb' hmem hd

/-- **A string** is there: it is read to its zero. -/
theorem strlen_eq (hb : b.bytes = x ++ s ++ nul :: y) (hs : nul ∉ s) :
    b.strlen x.length = some s.length := by
  have hne : ∀ a ∈ s, (a != nul) = true := fun a ha => bne_iff_ne.mpr fun h => hs (h ▸ ha)
  rw [strlen, skipWhile_eq hb hne (by decide), Option.map_some, Nat.add_sub_cancel_left]

theorem text_eq (hb : b.bytes = x ++ s ++ nul :: y) (hs : nul ∉ s) :
    b.text (.at x.length) = some s := by
  rw [text, strlen_eq hb hs, Option.map_some, hb, List.append_assoc, List.drop_left, List.take_left]

/-- The character is found. -/
theorem strchr_eq (hb : b.bytes = x ++ s ++ c :: y) (hs : nul ∉ s) (hc : c ∉ s) :
    b.strchr x.length c = some (.at (x ++ s).length) := by
  have hne : ∀ a ∈ s, (a != c && a != nul) = true := fun a ha => by
    rw [Bool.and_eq_true, bne_iff_ne, bne_iff_ne]
    exact ⟨fun h => hc (h ▸ ha), fun h => hs (h ▸ ha)⟩
  rw [strchr, skipWhile_eq hb hne (by simp), ← List.length_append]
  simp only [Option.bind_eq_bind, Option.bind_some, load_eq hb, if_true]

/-- The character is not found. -/
theorem strchr_eq_null (hb : b.bytes = x ++ s ++ nul :: y) (hs : nul ∉ s) (hc : c ∉ s)
    (hne : c ≠ nul) : b.strchr x.length c = some .null := by
  have hall : ∀ a ∈ s, (a != c && a != nul) = true := fun a ha => by
    rw [Bool.and_eq_true, bne_iff_ne, bne_iff_ne]
    exact ⟨fun h => hc (h ▸ ha), fun h => hs (h ▸ ha)⟩
  rw [strchr, skipWhile_eq hb hall (by simp), ← List.length_append]
  simp only [Option.bind_eq_bind, Option.bind_some, load_eq hb, if_neg hne.symm]

theorem takeWhile_and_nul {f : Char → Bool} (hs : nul ∉ s) :
    s.takeWhile (fun d => f d && d != nul) = s.takeWhile f := by
  induction s with
  | nil => rfl
  | cons a s ih =>
      rw [List.mem_cons, not_or] at hs
      have hne : (a != nul) = true := bne_iff_ne.mpr (Ne.symm hs.1)
      rw [List.takeWhile_cons, List.takeWhile_cons, hne, Bool.and_true, ih hs.2]

theorem strspn_eq {accept : List Char} (hb : b.bytes = x ++ s ++ nul :: y) (hs : nul ∉ s) :
    b.strspn x.length accept = some (s.takeWhile accept.contains).length := by
  rw [strspn, skipWhile_takeWhile hb (by simp), takeWhile_and_nul hs, Option.map_some,
    Nat.add_sub_cancel_left]

theorem fill_eq (hs : s.length < n) : ∃ y, (b.fill s).bytes = s ++ nul :: y := by
  refine ⟨(b.bytes.drop (s.length + 1)).take (n - s.length - 1), ?_⟩
  rw [fill]
  dsimp only
  rw [List.take_append, List.take_of_length_le hs.le]
  have hcount : n - s.length = (n - s.length - 1) + 1 := by omega
  rw [hcount, List.take_succ_cons]
  rfl

end Buffer

end AltF.Foundation
