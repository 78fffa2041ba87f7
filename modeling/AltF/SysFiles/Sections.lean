/-
  SysFiles/Sections.lean --- a file cut at the lines of a pattern: the line numbers
  that `grep -n` finds, and what `sed` writes to a file for every two of them.
-/
import Mathlib.Data.List.Infix
import AltF.SysFiles.Text

set_option autoImplicit false

namespace AltF.SysFiles

/-! ## Lines -/

/-- The lines of a file, each with its newline. -/
def splitLines : Text → List Text
  | [] => []
  | c :: t =>
      if c = '\n' then ['\n'] :: splitLines t
      else
        match splitLines t with
        | [] => [[c]]
        | l :: ls => (c :: l) :: ls

theorem flatten_splitLines (t : Text) : (splitLines t).flatten = t := by
  induction t with
  | nil => rfl
  | cons c t ih =>
      rw [splitLines]
      split
      · rename_i hc
        rw [List.flatten_cons, ih, hc]
        rfl
      · cases hlines : splitLines t with
        | nil =>
            rw [hlines] at ih
            rw [← ih]
            rfl
        | cons l ls =>
            rw [hlines] at ih
            rw [← ih]
            rfl

/-- A line is part of the file. -/
theorem infix_of_mem_splitLines {l t : Text} (hl : l ∈ splitLines t) : l <:+: t := by
  have hinfix := List.infix_of_mem_flatten hl
  rw [flatten_splitLines] at hinfix
  exact hinfix

/-- The file goes on behind a newline. -/
theorem splitLines_append (t u : Text) :
    splitLines (t ++ '\n' :: u) = splitLines (t ++ ['\n']) ++ splitLines u := by
  induction t with
  | nil => rfl
  | cons c t ih =>
      rw [List.cons_append, List.cons_append, splitLines, splitLines]
      by_cases hc : c = '\n'
      · rw [if_pos hc, if_pos hc, ih, List.cons_append]
      · rw [if_neg hc, if_neg hc, ih]
        cases hlines : splitLines (t ++ ['\n']) with
        | nil =>
            have hflat := flatten_splitLines (t ++ ['\n'])
            rw [hlines] at hflat
            simp at hflat
        | cons l ls => rfl

/-- One line. -/
theorem splitLines_singleton {l : Text} (hl : '\n' ∉ l) :
    splitLines (l ++ ['\n']) = [l ++ ['\n']] := by
  induction l with
  | nil => rfl
  | cons c l ih =>
      rw [List.mem_cons, not_or] at hl
      rw [List.cons_append, splitLines, if_neg (Ne.symm hl.1), ih hl.2]

/-! ## Sections -/

/-- `grep -n p | cut -d: -f1`: the numbers of the lines that match, with `k` lines in
front. -/
def lineNumbers (p : Text → Bool) : Nat → List Text → List Nat
  | _, [] => []
  | k, l :: ls => if p l then (k + 1) :: lineNumbers p (k + 1) ls else lineNumbers p (k + 1) ls

/-- The lines of `sed -n 's,e ...'`: at least line `s`. -/
def sedRange (ls : List Text) (s e : Nat) : List Text := (ls.drop (s - 1)).take (e - s + 1)

/-- `sed -n` with a range behind each number, up to the next. -/
def sections (ls : List Text) : List Nat → List (List Text)
  | a :: b :: ns => sedRange ls (a + 1) (b - 1) :: sections ls (b :: ns)
  | _ => []

theorem lineNumbers_append {p : Text → Bool} {ls : List Text} (hls : ∀ l ∈ ls, p l = false)
    (k : Nat) (rest : List Text) :
    lineNumbers p k (ls ++ rest) = lineNumbers p (k + ls.length) rest := by
  induction ls generalizing k with
  | nil => rfl
  | cons l ls ih =>
      have hl : p l = false := hls l List.mem_cons_self
      rw [List.cons_append, lineNumbers, if_neg (by rw [hl]; exact Bool.false_ne_true),
        ih fun l' hl' => hls l' (List.mem_cons_of_mem l hl'), List.length_cons]
      congr 1
      omega

/-- The lines of a section, from its place in the file. -/
theorem sedRange_section (pre sec rest : List Text) (mark : Text) (hsec : sec ≠ []) :
    sedRange (pre ++ mark :: (sec ++ rest)) (pre.length + 2) (pre.length + 1 + sec.length) =
      sec := by
  have hlen : 0 < sec.length := List.length_pos_iff.mpr hsec
  have hdrop : (pre ++ mark :: (sec ++ rest)).drop (pre.length + 1) = sec ++ rest := by
    rw [List.drop_append, List.drop_eq_nil_of_le (by omega), List.nil_append,
      Nat.add_sub_cancel_left, List.drop_one, List.tail_cons]
  have hcount : pre.length + 1 + sec.length - (pre.length + 2) + 1 = sec.length := by omega
  have hstart : pre.length + 2 - 1 = pre.length + 1 := by omega
  rw [sedRange, hstart, hcount, hdrop, List.take_left']
  rfl

/-- **The sections** of a file that begins with a mark, has one behind every section and
none within. -/
theorem sections_blocks {p : Text → Bool} {mark last : Text} (hmark : p mark = true)
    (hlast : p last = true) {secs : List (List Text)} (hne : ∀ sec ∈ secs, sec ≠ [])
    (hsecs : ∀ sec ∈ secs, ∀ l ∈ sec, p l = false) (pre : List Text) :
    sections (pre ++ (secs.flatMap (mark :: ·) ++ [last]))
      (lineNumbers p pre.length (secs.flatMap (mark :: ·) ++ [last])) = secs := by
  induction secs generalizing pre with
  | nil =>
      rw [List.flatMap_nil, List.nil_append, lineNumbers, if_pos hlast]
      rfl
  | cons sec secs ih =>
      have hsec := hne sec List.mem_cons_self
      have hrest := ih (fun s hs => hne s (List.mem_cons_of_mem sec hs))
        (fun s hs => hsecs s (List.mem_cons_of_mem sec hs)) (pre ++ mark :: sec)
      have hlen : (pre ++ mark :: sec).length = pre.length + 1 + sec.length := by
        rw [List.length_append, List.length_cons]
        omega
      have hfile : pre ++ ((sec :: secs).flatMap (mark :: ·) ++ [last]) =
          (pre ++ mark :: sec) ++ (secs.flatMap (mark :: ·) ++ [last]) := by simp
      have hnext : ∃ ns, lineNumbers p (pre.length + 1 + sec.length)
          (secs.flatMap (mark :: ·) ++ [last]) = (pre.length + 1 + sec.length + 1) :: ns := by
        cases secs with
        | nil => exact ⟨_, by rw [List.flatMap_nil, List.nil_append, lineNumbers, if_pos hlast]⟩
        | cons s ss =>
            exact ⟨_, by rw [List.flatMap_cons, List.cons_append, List.cons_append, lineNumbers,
              if_pos hmark]⟩
      obtain ⟨ns, hns⟩ := hnext
      rw [hlen, hns] at hrest
      have hnumbers : lineNumbers p pre.length ((sec :: secs).flatMap (mark :: ·) ++ [last]) =
          (pre.length + 1) :: (pre.length + 1 + sec.length + 1) :: ns := by
        rw [List.flatMap_cons, List.cons_append, List.cons_append, lineNumbers, if_pos hmark,
          List.append_assoc, lineNumbers_append (hsecs sec List.mem_cons_self), hns]
      have hrange : sedRange ((pre ++ mark :: sec) ++ (secs.flatMap (mark :: ·) ++ [last]))
          (pre.length + 1 + 1) (pre.length + 1 + sec.length + 1 - 1) = sec := by
        rw [List.append_assoc, List.cons_append]
        exact sedRange_section pre sec _ mark hsec
      rw [hnumbers, hfile, sections, hrange, hrest]

end AltF.SysFiles
