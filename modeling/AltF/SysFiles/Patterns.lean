/-
  SysFiles/Patterns.lean --- the patterns that scripts give to sed and grep: plain text in
  which a dot stands for any character, in front of a line or anywhere in it.
-/
import Mathlib.Data.List.Infix
import AltF.SysFiles.Text

set_option autoImplicit false

namespace AltF.SysFiles

/-- `/^p/` -/
def dotPrefix : Text → Text → Bool
  | [], _ => true
  | _ :: _, [] => false
  | p :: ps, c :: cs => (p == '.' || p == c) && dotPrefix ps cs

/-- `/p/` -/
def dotInfix (p t : Text) : Bool := t.tails.any (dotPrefix p)

theorem dotPrefix_append (p t : Text) : dotPrefix p (p ++ t) = true := by
  induction p with
  | nil => rfl
  | cons c p ih => simp [dotPrefix, ih]

theorem dotPrefix_of_prefix {p t : Text} (h : p <+: t) : dotPrefix p t = true := by
  obtain ⟨u, rfl⟩ := h
  exact dotPrefix_append p u

theorem dotPrefix_append_left (t p u : Text) : dotPrefix (t ++ p) (t ++ u) = dotPrefix p u := by
  induction t with
  | nil => rfl
  | cons c t ih =>
      rw [List.cons_append, List.cons_append, dotPrefix, ih, beq_self_eq_true, Bool.or_true,
        Bool.true_and]

/-- Text without dots stands for itself. -/
theorem prefix_of_dotPrefix {t p u : Text} (ht : '.' ∉ t) (h : dotPrefix (t ++ p) u = true) :
    t <+: u := by
  induction t generalizing u with
  | nil => exact List.nil_prefix
  | cons c t ih =>
      rw [List.mem_cons, not_or] at ht
      cases u with
      | nil => cases h
      | cons d u =>
          rw [List.cons_append, dotPrefix, Bool.and_eq_true, Bool.or_eq_true, beq_iff_eq,
            beq_iff_eq] at h
          obtain rfl : c = d := h.1.resolve_left fun hdot => ht.1 hdot.symm
          exact List.cons_prefix_cons.mpr ⟨rfl, ih ht.2 h.2⟩

/-- `s/p//`: the first match on a line goes. -/
def sedRemove (p : Text) : Text → Text
  | [] => []
  | c :: t => if dotPrefix p (c :: t) then (c :: t).drop p.length else c :: sedRemove p t

theorem sedRemove_sublist (p t : Text) : (sedRemove p t).Sublist t := by
  induction t with
  | nil => exact List.Sublist.slnil
  | cons c t ih =>
      rw [sedRemove]
      split
      · exact List.drop_sublist _ _
      · exact ih.cons_cons c

/-- What no match begins in stays. -/
theorem sedRemove_append {p t : Text} (u : Text)
    (h : ∀ w, w <:+ t → w ≠ [] → dotPrefix p (w ++ u) = false) :
    sedRemove p (t ++ u) = t ++ sedRemove p u := by
  induction t with
  | nil => rfl
  | cons c t ih =>
      have hfirst := h (c :: t) List.suffix_rfl (List.cons_ne_nil c t)
      rw [List.cons_append] at hfirst
      rw [List.cons_append, sedRemove, hfirst, if_neg Bool.false_ne_true,
        ih fun w hw => h w (hw.trans (List.suffix_cons c t)), List.cons_append]

/-- A filter applied to each line of a text. -/
def onLines (f : Text → Text) (t : Text) : Text := ['\n'].intercalate ((t.splitOn '\n').map f)

theorem onLines_line {f : Text → Text} (hf : f [] = []) {l : Text} (hl : '\n' ∉ l) :
    onLines f (l ++ ['\n']) = f l ++ ['\n'] := by
  rw [onLines, List.splitOn_append_cons_self_of_not_mem hl]
  change ['\n'].intercalate [f l, f []] = _
  rw [hf]
  simp

end AltF.SysFiles
