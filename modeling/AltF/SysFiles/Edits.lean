/-
  SysFiles/Edits.lean --- `sed -i '/pattern/d'` and `echo line >>`, one pair after the
  other: how a script sets the lines of a file that it owns.

  A file stays as it is under a sequence of such edits exactly if it ends with their lines,
  in their order, their patterns match all of these, and match no others.
-/
import AltF.SysFiles.Lines

set_option autoImplicit false

namespace AltF.SysFiles

/-- The lines of a pattern are deleted, and some are appended, or none. -/
structure Edit where
  pattern : Text → Bool
  lines : List Text

namespace Edit

def onFile (e : Edit) (f : TextFile) : TextFile := (f.sedDelete e.pattern).cat ⟨e.lines, []⟩

/-- `sed` leaves a file that is not there, and `echo` makes it. -/
def apply (e : Edit) : Option TextFile → Option TextFile
  | none => if e.lines = [] then none else some ⟨e.lines, []⟩
  | some f => some (e.onFile f)

def applyAll (es : List Edit) (f : Option TextFile) : Option TextFile :=
  es.foldl (fun f e => e.apply f) f

/-- A line that one of the patterns matches. -/
def matched (es : List Edit) (l : Text) : Bool := es.any fun e => e.pattern l

def newLines (es : List Edit) : List Text := es.flatMap lines

/-- A pattern matches no line that is appended before. -/
def Apart (es : List Edit) : Prop := es.Pairwise fun e e' => ∀ l ∈ e.lines, e'.pattern l = false

/-- The file is as the edits leave it. -/
def Settled (es : List Edit) : Option TextFile → Prop
  | none => newLines es = []
  | some f =>
      (newLines es = [] ∨ f.rest = []) ∧ (∀ l ∈ newLines es, matched es l = true) ∧
        ∃ g, f.full = g ++ newLines es ∧
          ∀ l ∈ (⟨g, f.rest⟩ : TextFile).lines, matched es l = false

/-! ## Edits on a file -/

/-- An edit with lines deletes, and then appends. -/
theorem apply_lines (pattern : Text → Bool) {ls : List Text} (hls : ls ≠ [])
    (f : Option TextFile) :
    apply ⟨pattern, ls⟩ f = some (((apply ⟨pattern, []⟩ f).getD ⟨[], []⟩).cat ⟨ls, []⟩) := by
  cases f with
  | none =>
      cases ls with
      | nil => exact absurd rfl hls
      | cons l ls => rfl
  | some f => simp [apply, onFile, TextFile.cat]

theorem onFile_terminated (e : Edit) (full : List Text) :
    e.onFile ⟨full, []⟩ = ⟨full.filter (fun l => !e.pattern l) ++ e.lines, []⟩ := by
  unfold onFile
  cases e.lines with
  | nil => simp [TextFile.sedDelete, TextFile.cat]
  | cons l ls => simp [TextFile.sedDelete, TextFile.cat]

theorem onFile_deletion {e : Edit} (h : e.lines = []) (f : TextFile) :
    e.onFile f = f.sedDelete e.pattern := by
  rw [onFile, h]
  simp [TextFile.cat]

theorem rest_onFile (e : Edit) {f : TextFile} (h : e.lines ≠ [] ∨ f.rest = []) :
    (e.onFile f).rest = [] := by
  unfold onFile
  cases hlines : e.lines with
  | nil =>
      rcases h with h | h
      · exact absurd hlines h
      · simp [TextFile.sedDelete, TextFile.cat, h]
  | cons l ls => rfl

/-- Filters agree when their predicates do on the list. -/
theorem filter_eq_filter_iff {p q : Text → Bool} {ls : List Text} :
    ls.filter p = ls.filter q ↔ ∀ l ∈ ls, p l = q l := by
  refine ⟨fun h l hl => ?_, List.filter_congr⟩
  have hp : l ∈ ls.filter p ↔ p l = true := by rw [List.mem_filter, and_iff_right hl]
  have hq : l ∈ ls.filter q ↔ q l = true := by rw [List.mem_filter, and_iff_right hl]
  rw [Bool.eq_iff_iff, ← hp, h, hq]

/-- **An edit of certain lines** deletes these and appends its own, exactly when its pattern
matches them, and none of its lines runs into an unended one. -/
theorem lines_onFile_iff (e : Edit) (q : Text → Bool) (f : TextFile) :
    (e.onFile f).lines = f.lines.filter (fun l => !q l) ++ e.lines ↔
      (∀ l ∈ f.lines, e.pattern l = q l) ∧
        (e.lines = [] ∨ f.rest = [] ∨ e.pattern f.rest = true) := by
  have hfilter : f.lines.filter (fun l => !e.pattern l) = f.lines.filter (fun l => !q l) ↔
      ∀ l ∈ f.lines, e.pattern l = q l := by
    rw [filter_eq_filter_iff]
    exact forall₂_congr fun _ _ => Bool.not_inj_iff
  cases hlines : e.lines with
  | nil =>
      rw [onFile_deletion hlines, TextFile.lines_sedDelete, List.append_nil, hfilter]
      exact (and_iff_left (Or.inl rfl)).symm
  | cons l ls =>
      by_cases hended : f.rest = [] ∨ e.pattern f.rest = true
      · have hrest : (f.sedDelete e.pattern).rest = [] := by
          rcases hended with h | h
          · simp [TextFile.sedDelete, h]
          · simp [TextFile.sedDelete, h]
        rw [onFile, TextFile.lines_cat_of_terminated hrest, TextFile.lines_of_terminated, hlines,
          List.append_cancel_right_eq, TextFile.lines_sedDelete, hfilter]
        exact (and_iff_left (Or.inr hended)).symm
      · refine iff_of_false (fun heq => ?_) fun h =>
          hended (h.2.resolve_left (List.cons_ne_nil _ _))
        rw [onFile, hlines, TextFile.lines_cat_of_cons _ (TextFile.lines_of_terminated (l :: ls))]
          at heq
        have htail := (List.append_inj' heq rfl).2
        have hrest : (f.sedDelete e.pattern).rest = [] :=
          List.append_left_eq_self.mp (List.cons.inj htail).1
        rw [TextFile.sedDelete] at hrest
        split at hrest
        · rename_i hpattern
          exact hended (Or.inr hpattern)
        · exact hended (Or.inl hrest)

theorem applyAll_some (es : List Edit) (f : TextFile) :
    applyAll es (some f) = some (es.foldl (fun f e => e.onFile f) f) := by
  induction es generalizing f with
  | nil => rfl
  | cons e es ih => exact ih (e.onFile f)

theorem newLines_cons (e : Edit) (es : List Edit) :
    newLines (e :: es) = e.lines ++ newLines es := List.flatMap_cons

/-- On a file that ends with a newline. -/
theorem foldl_terminated {es : List Edit} (h : Apart es) (full : List Text) :
    es.foldl (fun f e => e.onFile f) ⟨full, []⟩ =
      ⟨full.filter (fun l => !matched es l) ++ newLines es, []⟩ := by
  induction es generalizing full with
  | nil => simp [matched, newLines]
  | cons e es ih =>
      obtain ⟨hfirst, hrest⟩ := List.pairwise_cons.mp h
      have hkept : (e.lines.filter fun l => !matched es l) = e.lines := by
        rw [List.filter_eq_self]
        intro l hl
        rw [Bool.not_eq_true', matched, List.any_eq_false]
        intro e' he'
        rw [hfirst e' he' l hl]
        exact Bool.false_ne_true
      have hboth : ∀ l, (!matched (e :: es) l) = (!e.pattern l && !matched es l) := fun l => by
        rw [matched, List.any_cons, Bool.not_or, matched]
      rw [List.foldl_cons, onFile_terminated, ih hrest, List.filter_append, hkept,
        List.filter_filter, newLines_cons, List.append_assoc]
      simp only [hboth, Bool.and_comm]

theorem rest_foldl {es : List Edit} {f : TextFile} (h : newLines es ≠ [] ∨ f.rest = []) :
    (es.foldl (fun f e => e.onFile f) f).rest = [] := by
  induction es generalizing f with
  | nil => exact h.resolve_left fun hne => hne rfl
  | cons e es ih =>
      refine ih ?_
      rw [newLines_cons] at h
      rcases h with h | h
      · by_cases hlines : e.lines = []
        · rw [hlines] at h
          exact Or.inl h
        · exact Or.inr (e.rest_onFile (Or.inl hlines))
      · exact Or.inr (e.rest_onFile (Or.inr h))

theorem applyAll_append (es es' : List Edit) (f : Option TextFile) :
    applyAll (es ++ es') f = applyAll es' (applyAll es f) :=
  List.foldl_append

/-- Without lines the edits are one deletion. -/
theorem foldl_deletions {es : List Edit} (h : newLines es = []) (f : TextFile) :
    es.foldl (fun f e => e.onFile f) f = f.sedDelete (matched es) := by
  induction es generalizing f with
  | nil => simp [TextFile.sedDelete, matched]
  | cons e es ih =>
      rw [newLines_cons, List.append_eq_nil_iff] at h
      rw [List.foldl_cons, ih h.2, onFile_deletion h.1]
      have hboth : ∀ l, matched (e :: es) l = (e.pattern l || matched es l) := fun _ => rfl
      simp only [TextFile.sedDelete, List.filter_filter, hboth, Bool.not_or, Bool.and_comm]
      congr 1
      by_cases he : e.pattern f.rest = true
      · simp [he]
      · simp [he]

theorem sedDelete_eq_self_iff (p : Text → Bool) (f : TextFile) :
    f.sedDelete p = f ↔ ∀ l ∈ f.lines, p l = false := by
  obtain ⟨full, rest⟩ := f
  rw [TextFile.sedDelete, TextFile.mk.injEq, List.filter_eq_self]
  have hrest : (if p rest = true then [] else rest) = rest ↔ rest = [] ∨ p rest = false := by
    cases p rest with
    | true => simp [eq_comm]
    | false => simp
  rw [hrest, TextFile.lines]
  by_cases hnil : rest = []
  · simp [hnil]
  · simp [hnil, or_imp, forall_and]

/-! ## Files that stay -/

/-- A file that is not there is made exactly by an edit with lines. -/
theorem applyAll_none (es : List Edit) : applyAll es none = none ↔ newLines es = [] := by
  induction es with
  | nil => exact iff_of_true rfl rfl
  | cons e es ih =>
      rw [newLines_cons, List.append_eq_nil_iff]
      change applyAll es (e.apply none) = none ↔ _
      unfold apply
      by_cases hlines : e.lines = []
      · rw [if_pos hlines, ih, and_iff_right hlines]
      · rw [if_neg hlines, applyAll_some]
        exact iff_of_false (Option.some_ne_none _) fun h => hlines h.1

theorem filter_append_eq_iff {es : List Edit} (full : List Text) :
    full.filter (fun l => !matched es l) ++ newLines es = full ↔
      (∀ l ∈ newLines es, matched es l = true) ∧
        ∃ g, full = g ++ newLines es ∧ ∀ l ∈ g, matched es l = false := by
  constructor
  · intro heq
    refine ⟨?_, _, heq.symm, fun l hl => ?_⟩
    · -- the lines that no pattern matches are kept, and those of the edits come to them
      have hcount := congrArg (List.countP fun l => !matched es l) heq
      rw [List.countP_append, List.countP_filter, ← List.countP_congr (p := fun l => !matched es l)
        fun l _ => by simp] at hcount
      have hzero : (newLines es).countP (fun l => !matched es l) = 0 := by omega
      intro l hl
      have hnot := List.countP_eq_zero.mp hzero l hl
      simpa using hnot
    · exact Bool.not_eq_true' _ ▸ (List.mem_filter.mp hl).2
  · rintro ⟨hmatched, g, rfl, hg⟩
    have hnone : (newLines es).filter (fun l => !matched es l) = [] := by
      rw [List.filter_eq_nil_iff]
      intro l hl
      simp [hmatched l hl]
    have hself : g.filter (fun l => !matched es l) = g :=
      List.filter_eq_self.mpr fun l hl => by rw [hg l hl]; rfl
    rw [List.filter_append, hnone, hself, List.append_nil]

/-- **Files that stay.**  The edits leave a file as it is exactly if it is settled. -/
theorem applyAll_eq_self_iff {es : List Edit} (h : Apart es) (f : Option TextFile) :
    applyAll es f = f ↔ Settled es f := by
  cases f with
  | none => exact applyAll_none es
  | some f =>
      obtain ⟨full, rest⟩ := f
      rw [applyAll_some, Option.some.injEq]
      by_cases hnil : newLines es = []
      · rw [foldl_deletions hnil, sedDelete_eq_self_iff]
        unfold Settled
        simp [hnil]
      · by_cases hrest : rest = []
        · subst hrest
          rw [foldl_terminated h, TextFile.mk.injEq, and_iff_left rfl, filter_append_eq_iff]
          unfold Settled
          simp
        · refine iff_of_false (fun heq => ?_) fun hsettled => hrest (hsettled.1.resolve_left hnil)
          exact hrest ((congrArg TextFile.rest heq).symm.trans (rest_foldl (Or.inl hnil)))

theorem apply_eq_self_iff (e : Edit) (f : Option TextFile) : e.apply f = f ↔ Settled [e] f :=
  applyAll_eq_self_iff (List.pairwise_singleton _ _) f

/-! ## Lines that stay -/

/-- The lines of a file that may not be there. -/
def linesOf (f : Option TextFile) : List Text := (f.getD ⟨[], []⟩).lines

/-- Its last line has a newline. -/
def Ended (f : Option TextFile) : Prop := (f.getD ⟨[], []⟩).rest = []

instance (f : Option TextFile) : Decidable (Ended f) := inferInstanceAs (Decidable (_ = _))

def onLines (e : Edit) (ls : List Text) : List Text := ls.filter (fun l => !e.pattern l) ++ e.lines

theorem linesOf_apply (e : Edit) {f : Option TextFile} (h : e.lines = [] ∨ Ended f) :
    linesOf (e.apply f) = e.onLines (linesOf f) := by
  cases f with
  | none =>
      unfold apply
      by_cases hlines : e.lines = []
      · rw [if_pos hlines, onLines, hlines]
        rfl
      · rw [if_neg hlines, onLines]
        rfl
  | some f =>
      change (e.onFile f).lines = f.lines.filter (fun l => !e.pattern l) ++ e.lines
      rw [← TextFile.lines_sedDelete]
      rcases h with h | h
      · rw [onFile_deletion h, h, List.append_nil]
      · have hrest : (f.sedDelete e.pattern).rest = [] := by
          have h : f.rest = [] := h
          simp [TextFile.sedDelete, h]
        rw [onFile, TextFile.lines_cat_of_terminated hrest, TextFile.lines_of_terminated]

theorem ended_apply (e : Edit) {f : Option TextFile} (h : e.lines ≠ [] ∨ Ended f) :
    Ended (e.apply f) := by
  cases f with
  | none =>
      unfold apply Ended
      by_cases hlines : e.lines = []
      · rw [if_pos hlines]
        rfl
      · rw [if_neg hlines]
        rfl
  | some f => exact e.rest_onFile h

/-- The lines after edits, of which none runs into an unended line. -/
theorem linesOf_applyAll {es : List Edit} {f : Option TextFile}
    (h : newLines es = [] ∨ Ended f) :
    linesOf (applyAll es f) = es.foldl (fun ls e => e.onLines ls) (linesOf f) := by
  induction es generalizing f with
  | nil => rfl
  | cons e es ih =>
      rw [newLines_cons, List.append_eq_nil_iff] at h
      have hfirst : e.lines = [] ∨ Ended f := h.imp_left fun h => h.1
      have hrest : newLines es = [] ∨ Ended (e.apply f) := by
        rcases h with h | h
        · exact Or.inl h.2
        · exact Or.inr (e.ended_apply (Or.inr h))
      rw [List.foldl_cons, ← e.linesOf_apply hfirst]
      exact ih hrest

/-- Lines that no pattern matches stay, in their order. -/
theorem sublist_edited {es : List Edit} {kept ls : List Text} (h : kept.Sublist ls)
    (hspared : ∀ e ∈ es, ∀ l ∈ kept, e.pattern l = false) :
    kept.Sublist (es.foldl (fun ls e => e.onLines ls) ls) := by
  induction es generalizing ls with
  | nil => exact h
  | cons e es ih =>
      refine (fun htail : kept.Sublist (e.onLines ls) =>
        ih htail fun e' he' => hspared e' (List.mem_cons_of_mem e he')) ?_
      have hself : kept.filter (fun l => !e.pattern l) = kept :=
        List.filter_eq_self.mpr fun l hl => by rw [hspared e List.mem_cons_self l hl]; rfl
      calc kept = kept.filter (fun l => !e.pattern l) := hself.symm
        List.Sublist _ (ls.filter fun l => !e.pattern l) := h.filter _
        List.Sublist _ (e.onLines ls) := List.sublist_append_left _ _

/-! ## Lines and who wrote them -/

section Tagged

variable {ω : Type} (tag : ω)

/-- An edit of lines with tags: those that it appends have the tag of the writer. -/
def onTagged (e : Edit) (xs : List (ω × Text)) : List (ω × Text) :=
  xs.filter (fun x => !e.pattern x.2) ++ e.lines.map (tag, ·)

theorem map_onTagged (e : Edit) (xs : List (ω × Text)) :
    (e.onTagged tag xs).map Prod.snd = e.onLines (xs.map Prod.snd) := by
  rw [onTagged, onLines, List.map_append, List.filter_map, List.map_map]
  congr 1
  exact List.map_id _

/-- The tags do not matter to the lines. -/
theorem map_edited (es : List Edit) (xs : List (ω × Text)) :
    (es.foldl (fun xs e => e.onTagged tag xs) xs).map Prod.snd =
      es.foldl (fun ls e => e.onLines ls) (xs.map Prod.snd) := by
  induction es generalizing xs with
  | nil => rfl
  | cons e es ih => rw [List.foldl_cons, List.foldl_cons, ih, map_onTagged]

end Tagged

end Edit

end AltF.SysFiles
