/-
  Shell/Reading.lean --- `read` without `-r`, which takes the next line apart at its blanks.

  A backslash protects the character behind it and joins a line to the next one; the last
  variable has what is left of the line.  Without backslashes both are read as they stand.
-/
import AltF.Shell.Words

set_option autoImplicit false

namespace AltF.Shell

open AltF.SysFiles

/-! ## Fields -/

section Fields

variable {α : Type}

/-- The first `n` words, and the rest without the blanks at its ends. -/
def fieldsBy (blank : α → Bool) : Nat → List α → List (List α)
  | 0, l => [(l.dropWhile blank).rdropWhile blank]
  | n + 1, l =>
      let l' := l.dropWhile blank
      l'.takeWhile (fun x => !blank x) :: fieldsBy blank n (l'.dropWhile fun x => !blank x)

theorem fieldsBy_map {β : Type} (f : α → β) (blank : β → Bool) (n : Nat) (l : List α) :
    fieldsBy blank n (l.map f) = (fieldsBy (blank ∘ f) n l).map (List.map f) := by
  have hdrop : ∀ (p : β → Bool) (l : List α), (l.map f).dropWhile p = (l.dropWhile (p ∘ f)).map f :=
    fun p l => List.dropWhile_map ..
  induction n generalizing l with
  | zero =>
      have htrim : ∀ l : List α,
          (l.map f).rdropWhile blank = (l.rdropWhile (blank ∘ f)).map f := by
        intro l
        rw [List.rdropWhile, List.rdropWhile, ← List.map_reverse, hdrop, List.map_reverse]
      rw [fieldsBy, fieldsBy, hdrop, htrim, List.map_singleton]
  | succ n ih =>
      rw [fieldsBy, fieldsBy, hdrop, hdrop, List.takeWhile_map, ih, List.map_cons]
      rfl

variable {blank : α → Bool} {b : α}

theorem fieldsBy_blank (hb : blank b = true) (n : Nat) (l : List α) :
    fieldsBy blank n (b :: l) = fieldsBy blank n l := by
  cases n with
  | zero => rw [fieldsBy, fieldsBy, List.dropWhile_cons_of_pos hb]
  | succ n => rw [fieldsBy, fieldsBy, List.dropWhile_cons_of_pos hb]

/-- A word in front. -/
theorem fieldsBy_word {w : List α} (hne : w ≠ []) (hw : ∀ x ∈ w, blank x = false)
    (hb : blank b = true) (n : Nat) (l : List α) :
    fieldsBy blank (n + 1) (w ++ b :: l) = w :: fieldsBy blank n l := by
  have hdrop : (w ++ b :: l).dropWhile blank = w ++ b :: l := by
    cases w with
    | nil => exact absurd rfl hne
    | cons x w =>
        refine List.dropWhile_cons_of_neg ?_
        rw [hw x List.mem_cons_self]
        exact Bool.false_ne_true
  have hsolid : ∀ x ∈ w, (!blank x) = true := by
    intro x hx
    rw [hw x hx]
    rfl
  rw [fieldsBy]
  simp only [hdrop]
  rw [List.takeWhile_append_of_pos hsolid, List.dropWhile_append_of_pos hsolid,
    List.takeWhile_cons_of_neg (by simp [hb]), List.dropWhile_cons_of_neg (by simp [hb]),
    List.append_nil, fieldsBy_blank hb]

/-- Fields are where they were read. -/
theorem infix_of_mem_fieldsBy {n : Nat} {l w : List α} (hw : w ∈ fieldsBy blank n l) :
    w <:+: l := by
  induction n generalizing l with
  | zero =>
      rw [List.mem_singleton.mp hw]
      exact (List.rdropWhile_prefix _ _).isInfix.trans (List.dropWhile_suffix _).isInfix
  | succ n ih =>
      rcases List.mem_cons.mp hw with rfl | hw
      · exact (List.takeWhile_prefix _).isInfix.trans (List.dropWhile_suffix _).isInfix
      · exact ((ih hw).trans (List.dropWhile_suffix _).isInfix).trans
          (List.dropWhile_suffix _).isInfix

end Fields

section Separated

variable {α : Type}

/-- With an `IFS` that is no blank: the first `n` fields, and what is left. -/
def cutFields (sep : α → Bool) : Nat → List α → List (List α)
  | 0, l => [l]
  | n + 1, l =>
      l.takeWhile (fun x => !sep x) :: cutFields sep n (l.dropWhile fun x => !sep x).tail

theorem cutFields_map {β : Type} (f : α → β) (sep : β → Bool) (n : Nat) (l : List α) :
    cutFields sep n (l.map f) = (cutFields (sep ∘ f) n l).map (List.map f) := by
  induction n generalizing l with
  | zero => rfl
  | succ n ih =>
      rw [cutFields, cutFields, List.takeWhile_map, List.dropWhile_map, ← List.map_tail, ih,
        List.map_cons]
      rfl

variable {sep : α → Bool} {s : α}

theorem cutFields_append (hs : sep s = true) {w : List α} (hw : ∀ x ∈ w, sep x = false) (n : Nat)
    (l : List α) : cutFields sep (n + 1) (w ++ s :: l) = w :: cutFields sep n l := by
  have hsolid : ∀ x ∈ w, (!sep x) = true := fun x hx => by rw [hw x hx]; rfl
  rw [cutFields, List.takeWhile_append_of_pos hsolid, List.dropWhile_append_of_pos hsolid,
    List.takeWhile_cons_of_neg (by simpa using hs), List.dropWhile_cons_of_neg (by simpa using hs),
    List.append_nil, List.tail_cons]

/-- Fields that were joined are found again. -/
theorem cutFields_intercalate (hs : sep s = true) {fs : List (List α)} (hne : fs ≠ [])
    (hfs : ∀ f ∈ fs, ∀ x ∈ f, sep x = false) :
    cutFields sep fs.length ([s].intercalate fs) = fs ++ [[]] := by
  induction fs with
  | nil => exact absurd rfl hne
  | cons w fs ih =>
      obtain ⟨hw, hfs⟩ := List.forall_mem_cons.mp hfs
      cases fs with
      | nil =>
          have hsolid : ∀ x ∈ w, (!sep x) = true := fun x hx => by rw [hw x hx]; rfl
          have hall : w.takeWhile (fun x => !sep x) = w := List.takeWhile_eq_self_iff.mpr hsolid
          have hnone : w.dropWhile (fun x => !sep x) = [] := List.dropWhile_eq_nil_iff.mpr hsolid
          rw [List.intercalate_singleton, List.length_singleton, cutFields, hall, hnone]
          rfl
      | cons v fs =>
          have hjoin : [s].intercalate (w :: v :: fs) = w ++ s :: [s].intercalate (v :: fs) := by
            rw [List.intercalate_cons_of_ne_nil (List.cons_ne_nil v fs), List.append_assoc,
              List.singleton_append]
          rw [hjoin, List.length_cons, cutFields_append hs hw,
            ih (List.cons_ne_nil v fs) hfs]
          rfl

theorem mem_of_mem_intercalate {fs : List (List α)} {x : α} (hx : x ∈ [s].intercalate fs) :
    x = s ∨ ∃ f ∈ fs, x ∈ f := by
  induction fs with
  | nil => cases hx
  | cons w fs ih =>
      cases fs with
      | nil =>
          rw [List.intercalate_singleton] at hx
          exact Or.inr ⟨w, List.mem_cons_self, hx⟩
      | cons v fs =>
          rw [List.intercalate_cons_cons, List.mem_append, List.mem_append,
            List.mem_singleton] at hx
          rcases hx with (hx | hx) | hx
          · exact Or.inr ⟨w, List.mem_cons_self, hx⟩
          · exact Or.inl hx
          · exact (ih hx).imp_right fun ⟨f, hf, hmem⟩ => ⟨f, List.mem_cons_of_mem w hf, hmem⟩

end Separated

/-! ## Lines -/

/-- A character, and whether a backslash protects it. -/
abbrev Marked : Type := Char × Bool

/-- The lines that `read` gets from a text, one call after the other: what follows the last
newline is no line. -/
def logicalLines (line : List Marked) : Text → List (List Marked)
  | [] => []
  | '\\' :: [] => []
  | '\\' :: c :: t =>
      if c = '\n' then logicalLines line t else logicalLines (line ++ [(c, true)]) t
  | c :: t => if c = '\n' then line :: logicalLines [] t else logicalLines (line ++ [(c, false)]) t

def isReadBlank (x : Marked) : Bool := isBlank x.1 && !x.2

/-- The variables of `read`: `n` of them and one for the rest. -/
def readFields (n : Nat) (line : List Marked) : List Text :=
  (fieldsBy isReadBlank n line).map (List.map Prod.fst)

/-- The same with `IFS=";"`. -/
def readSemis (n : Nat) (line : List Marked) : List Text :=
  (cutFields (fun x : Marked => x.1 == ';' && !x.2) n line).map (List.map Prod.fst)

/-- A line without backslashes. -/
def plainLine (l : Text) : List Marked := l.map fun c => (c, false)

theorem logicalLines_cons (line : List Marked) {c : Char} (hc : c ≠ '\\') (hnl : c ≠ '\n')
    (t : Text) : logicalLines line (c :: t) = logicalLines (line ++ [(c, false)]) t := by
  rw [logicalLines, if_neg hnl]
  · exact fun h => absurd h hc
  · exact fun d u h => absurd h hc

theorem logicalLines_append (line : List Marked) {l : Text} (hback : '\\' ∉ l) (hline : '\n' ∉ l)
    (t : Text) :
    logicalLines line (l ++ '\n' :: t) = (line ++ plainLine l) :: logicalLines [] t := by
  induction l generalizing line with
  | nil =>
      rw [plainLine, List.map_nil, List.append_nil, List.nil_append, logicalLines, if_pos rfl]
      · exact fun h => absurd h (by decide)
      · exact fun d u h => absurd h (by decide)
  | cons c l ih =>
      rw [List.mem_cons, not_or] at hback hline
      rw [List.cons_append, logicalLines_cons line (Ne.symm hback.1) (Ne.symm hline.1),
        ih _ hback.2 hline.2, plainLine, plainLine, List.map_cons, List.append_assoc,
        List.singleton_append]

/-- Text without a newline is no line. -/
theorem logicalLines_unterminated (line : List Marked) {l : Text} (hback : '\\' ∉ l)
    (hline : '\n' ∉ l) : logicalLines line l = [] := by
  induction l generalizing line with
  | nil =>
      rw [logicalLines]
  | cons c l ih =>
      rw [List.mem_cons, not_or] at hback hline
      rw [logicalLines_cons line (Ne.symm hback.1) (Ne.symm hline.1), ih _ hback.2 hline.2]

/-- Terminated lines without backslashes are read one by one. -/
theorem logicalLines_flatMap_append {ls : List Text} (hback : ∀ l ∈ ls, '\\' ∉ l)
    (hline : ∀ l ∈ ls, '\n' ∉ l) (t : Text) :
    logicalLines [] (ls.flatMap (· ++ ['\n']) ++ t) = ls.map plainLine ++ logicalLines [] t := by
  induction ls with
  | nil => rfl
  | cons l ls ih =>
      rw [List.flatMap_cons, List.append_assoc, List.append_assoc, List.singleton_append,
        logicalLines_append [] (hback l List.mem_cons_self) (hline l List.mem_cons_self),
        List.nil_append, List.map_cons, List.cons_append,
        ih (fun l' hl' => hback l' (List.mem_cons_of_mem l hl'))
          fun l' hl' => hline l' (List.mem_cons_of_mem l hl')]

theorem logicalLines_flatMap {ls : List Text} (hback : ∀ l ∈ ls, '\\' ∉ l)
    (hline : ∀ l ∈ ls, '\n' ∉ l) :
    logicalLines [] (ls.flatMap (· ++ ['\n'])) = ls.map plainLine := by
  have hread := logicalLines_flatMap_append hback hline []
  rw [List.append_nil, logicalLines, List.append_nil] at hread
  exact hread

/-- The lines of a text of terminated lines, and nothing behind the last of them. -/
theorem splitOn_flatMap {ls : List Text} (hline : ∀ l ∈ ls, '\n' ∉ l) :
    (ls.flatMap (· ++ ['\n'])).splitOn '\n' = ls ++ [[]] := by
  induction ls with
  | nil => rfl
  | cons l ls ih =>
      rw [List.flatMap_cons, List.append_assoc, List.singleton_append,
        List.splitOn_append_cons_self_of_not_mem (hline l List.mem_cons_self),
        ih fun l' hl' => hline l' (List.mem_cons_of_mem l hl'), List.cons_append]

theorem map_fst_plainLine (fs : List Text) :
    (fs.map (List.map fun c : Char => (c, false))).map (List.map Prod.fst) = fs := by
  rw [List.map_map]
  refine (List.map_congr_left fun f _ => ?_).trans (List.map_id _)
  rw [Function.comp_apply, List.map_map]
  exact List.map_id _

theorem readFields_plainLine (n : Nat) (l : Text) :
    readFields n (plainLine l) = fieldsBy isBlank n l := by
  have hblank : isReadBlank ∘ (fun c : Char => (c, false)) = isBlank := by
    funext c
    exact Bool.and_true _
  rw [readFields, plainLine, fieldsBy_map, hblank, map_fst_plainLine]

theorem readSemis_plainLine (n : Nat) (l : Text) :
    readSemis n (plainLine l) = cutFields (· == ';') n l := by
  have hsemi : (fun x : Marked => x.1 == ';' && !x.2) ∘ (fun c : Char => (c, false)) =
      (· == ';') := by
    funext c
    exact Bool.and_true _
  rw [readSemis, plainLine, cutFields_map, hsemi, map_fst_plainLine]

end AltF.Shell
