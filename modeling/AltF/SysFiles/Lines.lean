/-
  SysFiles/Lines.lean --- files as lines, and the commands that filter, join and
  sort them.

  The last line of a file may lack its newline.  `cat` then runs it into the first
  line of the next file; `awk` and `sort` add the newline and `sed` does not.
-/
import Mathlib.Data.Char
import Mathlib.Data.List.Dedup
import Mathlib.Data.List.Lex
import Mathlib.Data.List.Sort
import AltF.SysFiles.Text

set_option autoImplicit false

namespace AltF.SysFiles

/-- A text file: its terminated lines, and what stands behind the last newline. -/
structure TextFile where
  full : List Text
  rest : Text
  deriving DecidableEq, Repr

namespace TextFile

/-- The characters of the file. -/
def text (f : TextFile) : Text := f.full.flatMap (· ++ ['\n']) ++ f.rest

/-- The lines a filter reads. -/
def lines (f : TextFile) : List Text := if f.rest = [] then f.full else f.full ++ [f.rest]

/-- `cat` of two files. -/
def cat (f g : TextFile) : TextFile :=
  match g.full with
  | [] => ⟨f.full, f.rest ++ g.rest⟩
  | l :: ls => ⟨f.full ++ (f.rest ++ l) :: ls, g.rest⟩

/-- `cat` joins the characters. -/
theorem text_cat (f g : TextFile) : (f.cat g).text = f.text ++ g.text := by
  obtain ⟨full, rest⟩ := g
  cases full with
  | nil => simp [cat, text]
  | cons l ls => simp [cat, text]

/-- `sed '/pattern/d'`. -/
def sedDelete (pattern : Text → Bool) (f : TextFile) : TextFile :=
  ⟨f.full.filter fun l => !pattern l, if pattern f.rest then [] else f.rest⟩

/-- `awk` printing the lines of a pattern. -/
def awkPrint (pattern : Text → Bool) (f : TextFile) : TextFile := ⟨f.lines.filter pattern, []⟩

/-- `sort -u` of lines: in the order of their characters, each once. -/
def sortLines (ls : List Text) : List Text := ls.dedup.insertionSort (· ≤ ·)

/-- `sort -u`. -/
def sortUnique (f : TextFile) : TextFile := ⟨sortLines f.lines, []⟩

@[simp] theorem lines_of_terminated (ls : List Text) : (⟨ls, []⟩ : TextFile).lines = ls := rfl

@[simp] theorem lines_sortUnique (f : TextFile) : f.sortUnique.lines = sortLines f.lines := rfl

@[simp] theorem lines_awkPrint (pattern : Text → Bool) (f : TextFile) :
    (f.awkPrint pattern).lines = f.lines.filter pattern := rfl

/-- `sed` passes on the lines that do not match. -/
theorem lines_sedDelete {pattern : Text → Bool} (f : TextFile) :
    (f.sedDelete pattern).lines = f.lines.filter fun l => !pattern l := by
  obtain ⟨full, rest⟩ := f
  cases hpattern : pattern rest with
  | true =>
      by_cases hrest : rest = []
      · simp [sedDelete, lines, hrest]
      · simp [sedDelete, lines, hpattern, hrest]
  | false =>
      by_cases hrest : rest = []
      · simp [sedDelete, lines, hrest]
      · simp [sedDelete, lines, hpattern, hrest]

/-- A file without lines adds nothing. -/
theorem lines_cat_of_empty (f : TextFile) {g : TextFile} (hg : g.lines = []) :
    (f.cat g).lines = f.lines := by
  obtain ⟨full, rest⟩ := g
  by_cases hrest : rest = []
  · subst hrest
    obtain rfl : full = [] := hg
    simp [cat, lines]
  · simp [lines, hrest] at hg

/-- What stands behind the last newline runs into the first line of the next file. -/
theorem lines_cat_of_cons (f : TextFile) {g : TextFile} {l : Text} {ls : List Text}
    (hg : g.lines = l :: ls) : (f.cat g).lines = f.full ++ (f.rest ++ l) :: ls := by
  obtain ⟨full, rest⟩ := g
  cases full with
  | nil =>
      by_cases hrest : rest = []
      · simp [lines, hrest] at hg
      · simp only [lines, if_neg hrest, List.nil_append, List.cons.injEq] at hg
        obtain ⟨rfl, rfl⟩ := hg
        simp [cat, lines, hrest]
  | cons l' ls' =>
      by_cases hrest : rest = []
      · simp only [lines, if_pos hrest, List.cons.injEq] at hg
        obtain ⟨rfl, rfl⟩ := hg
        simp [cat, lines, hrest]
      · simp only [lines, if_neg hrest, List.cons_append, List.cons.injEq] at hg
        obtain ⟨rfl, rfl⟩ := hg
        simp [cat, lines, hrest]

/-- A file that ends with a newline is followed by the lines of the next. -/
theorem lines_cat_of_terminated {f : TextFile} (hf : f.rest = []) (g : TextFile) :
    (f.cat g).lines = f.lines ++ g.lines := by
  have hlines : f.lines = f.full := if_pos hf
  cases hg : g.lines with
  | nil => rw [lines_cat_of_empty f hg, List.append_nil]
  | cons l ls => rw [lines_cat_of_cons f hg, hf, List.nil_append, hlines]

/-! ## Sorting -/

theorem mem_sortLines {l : Text} {ls : List Text} : l ∈ sortLines ls ↔ l ∈ ls := by
  rw [sortLines, List.mem_insertionSort, List.mem_dedup]

theorem sortLines_sorted (ls : List Text) : (sortLines ls).Pairwise (· < ·) := by
  have hnodup : (sortLines ls).Nodup :=
    (List.perm_insertionSort (· ≤ ·) ls.dedup).nodup_iff.mpr ls.nodup_dedup
  refine ((List.pairwise_insertionSort (· ≤ ·) ls.dedup).and hnodup).imp ?_
  intro a b h
  exact lt_of_le_of_ne h.1 h.2

/-- Selecting lines and sorting them commute. -/
theorem filter_sortLines (p : Text → Bool) (ls : List Text) :
    (sortLines ls).filter p = sortLines (ls.filter p) := by
  refine ((sortLines_sorted ls).filter p).eq_of_mem_iff (sortLines_sorted _) ?_
  intro l
  rw [List.mem_filter, mem_sortLines, mem_sortLines, List.mem_filter]

/-- Sorting keeps lines as they are exactly when each is greater than the last. -/
theorem sortLines_eq_self_iff (ls : List Text) : sortLines ls = ls ↔ ls.Pairwise (· < ·) := by
  constructor
  · intro h
    rw [← h]
    exact sortLines_sorted ls
  · intro h
    exact (sortLines_sorted ls).eq_of_mem_iff h fun _ => mem_sortLines

theorem length_sortLines_le (ls : List Text) : (sortLines ls).length ≤ ls.length := by
  rw [sortLines, List.length_insertionSort]
  exact ls.dedup_sublist.length_le

end TextFile

end AltF.SysFiles
