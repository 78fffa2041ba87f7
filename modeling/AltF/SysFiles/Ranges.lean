/-
  SysFiles/Ranges.lean --- `sed -n '/start/,/stop/p'` over a list of lines, and what it prints of
  blocks that each end with a line that stops it; and `sed '/start/,/stop/d'`.
-/
import Mathlib.Data.List.TakeWhile

set_option autoImplicit false

namespace AltF.SysFiles

variable {α : Type} (start stop : α → Bool)

/-- Lines from one that starts a range to the next behind it that stops it, whether the first
line is in a range or not. -/
def sedPrint : Bool → List α → List α
  | _, [] => []
  | true, l :: ls => l :: sedPrint (!stop l) ls
  | false, l :: ls => if start l then l :: sedPrint true ls else sedPrint false ls

/-- What is printed of a block: from its first line that starts a range on. -/
def printedOf (block : List α) : List α := block.dropWhile fun l => !start l

variable {start stop}

theorem printedOf_eq_nil_iff {block : List α} :
    printedOf start block = [] ↔ ∀ l ∈ block, start l = false := by
  rw [printedOf, List.dropWhile_eq_nil_iff]
  exact forall₂_congr fun l _ => iff_of_eq (Bool.not_eq_true' _)

theorem printedOf_cons {l : α} (hl : start l = true) (ls : List α) :
    printedOf start (l :: ls) = l :: ls := by
  rw [printedOf, List.dropWhile_cons, hl, Bool.not_true, if_neg Bool.false_ne_true]

/-- A range goes on to the line that stops it. -/
theorem sedPrint_inside {xs : List α} {e : α} (hxs : ∀ l ∈ xs, stop l = false)
    (he : stop e = true) (rest : List α) :
    sedPrint start stop true (xs ++ e :: rest) = xs ++ e :: sedPrint start stop false rest := by
  induction xs with
  | nil => rw [List.nil_append, sedPrint, he, List.nil_append, Bool.not_true]
  | cons l xs ih =>
      rw [List.cons_append, sedPrint, hxs l List.mem_cons_self, Bool.not_false,
        ih fun l' hl' => hxs l' (List.mem_cons_of_mem l hl'), List.cons_append]

/-- A range without such a line goes on to the end. -/
theorem sedPrint_unstopped {xs : List α} (hxs : ∀ l ∈ xs, stop l = false) :
    sedPrint start stop true xs = xs := by
  induction xs with
  | nil => rfl
  | cons l xs ih =>
      rw [sedPrint, hxs l List.mem_cons_self, Bool.not_false,
        ih fun l' hl' => hxs l' (List.mem_cons_of_mem l hl')]

/-- **A block** that ends with the only line in it that stops a range, and starts none. -/
theorem sedPrint_block {xs : List α} {e : α} (hxs : ∀ l ∈ xs, stop l = false)
    (he : stop e = true) (hstart : start e = false) (rest : List α) :
    sedPrint start stop false (xs ++ e :: rest) =
      printedOf start (xs ++ [e]) ++ sedPrint start stop false rest := by
  induction xs with
  | nil =>
      rw [List.nil_append, sedPrint, if_neg (by rw [hstart]; nofun), List.nil_append,
        printedOf_eq_nil_iff.mpr (by simpa using hstart), List.nil_append]
  | cons l xs ih =>
      have hrest := fun l' hl' => hxs l' (List.mem_cons_of_mem l hl')
      rw [List.cons_append, sedPrint, List.cons_append]
      cases hl : start l with
      | true =>
          rw [if_pos rfl, printedOf_cons hl, sedPrint_inside hrest he]
          simp
      | false =>
          rw [if_neg Bool.false_ne_true, printedOf, List.dropWhile_cons, hl, Bool.not_false,
            if_pos rfl, ih hrest]
          rfl

/-- The last block may have no such line. -/
theorem sedPrint_last {xs : List α} (hxs : ∀ l ∈ xs, stop l = false) :
    sedPrint start stop false xs = printedOf start xs := by
  induction xs with
  | nil => rfl
  | cons l xs ih =>
      have hrest := fun l' hl' => hxs l' (List.mem_cons_of_mem l hl')
      rw [sedPrint]
      cases hl : start l with
      | true => rw [if_pos rfl, printedOf_cons hl, sedPrint_unstopped hrest]
      | false =>
          rw [if_neg Bool.false_ne_true, printedOf, List.dropWhile_cons, hl, Bool.not_false,
            if_pos rfl, ih hrest]
          rfl

/-! ## Deletion -/

variable (start stop) in
/-- The lines that are in no range, whether the first line is in one or not. -/
def sedRemoveRange : Bool → List α → List α
  | _, [] => []
  | true, l :: ls => sedRemoveRange (!stop l) ls
  | false, l :: ls => if start l then sedRemoveRange true ls else l :: sedRemoveRange false ls

theorem sedRemoveRange_outside {xs : List α} (hxs : ∀ l ∈ xs, start l = false) (rest : List α) :
    sedRemoveRange start stop false (xs ++ rest) = xs ++ sedRemoveRange start stop false rest := by
  induction xs with
  | nil => rfl
  | cons l xs ih =>
      rw [List.cons_append, sedRemoveRange, hxs l List.mem_cons_self, if_neg Bool.false_ne_true,
        ih fun l' hl' => hxs l' (List.mem_cons_of_mem l hl'), List.cons_append]

theorem sedRemoveRange_inside {xs : List α} {e : α} (hxs : ∀ l ∈ xs, stop l = false)
    (he : stop e = true) (rest : List α) :
    sedRemoveRange start stop true (xs ++ e :: rest) = sedRemoveRange start stop false rest := by
  induction xs with
  | nil => rw [List.nil_append, sedRemoveRange, he, Bool.not_true]
  | cons l xs ih =>
      rw [List.cons_append, sedRemoveRange, hxs l List.mem_cons_self, Bool.not_false,
        ih fun l' hl' => hxs l' (List.mem_cons_of_mem l hl')]

theorem sedRemoveRange_unstopped {xs : List α} (hxs : ∀ l ∈ xs, stop l = false) :
    sedRemoveRange start stop true xs = [] := by
  induction xs with
  | nil => rfl
  | cons l xs ih =>
      rw [sedRemoveRange, hxs l List.mem_cons_self, Bool.not_false,
        ih fun l' hl' => hxs l' (List.mem_cons_of_mem l hl')]

end AltF.SysFiles
