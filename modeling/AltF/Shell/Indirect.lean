/-
  Shell/Indirect.lean --- `eval x=$(echo \$y | tr ...)`: the value of a variable whose
  name is put together.
-/
import AltF.Shell.Eval
import AltF.Shell.Words

set_option autoImplicit false

namespace AltF.Shell

open AltF.SysFiles

/-- `eval $t`: the words of the expansion are joined and run. -/
def evalWords (glob : Text → List Text) (env : Env) (t : Text) : Option Env :=
  evalText nothing env (join (expand glob t))

/-- `eval n=$(echo \$y | tr ...)` -/
def evalIndirect (glob : Text → List Text) (tr : Char → Char) (env : Env) (n y : Text) :
    Option Env :=
  evalWords glob env (n ++ '=' :: (join (expand glob ('$' :: y))).map tr)

/-- A character that stands for itself in a value, and in a word. -/
def isSimple (c : Char) : Bool := isPlain c && solidChar c

theorem isSimple_iff (c : Char) : isSimple c = true ↔ isPlain c = true ∧ solidChar c = true := by
  rw [isSimple, Bool.and_eq_true]

theorem all_isPlain {t : Text} (ht : t.all isSimple = true) : t.all isPlain = true :=
  List.all_eq_true.mpr fun c hc => ((isSimple_iff c).mp (List.all_eq_true.mp ht c hc)).1

theorem all_solidChar {t : Text} (ht : t.all isSimple = true) : t.all solidChar = true :=
  List.all_eq_true.mpr fun c hc => ((isSimple_iff c).mp (List.all_eq_true.mp ht c hc)).2

theorem ne_of_isPlain {c d : Char} (hc : isPlain c = true) (hd : isPlain d = false) : c ≠ d := by
  rintro rfl
  rw [hc] at hd
  cases hd

/-- Plain text is intact, and has no quotes. -/
theorem intact_of_plain {t : Text} (ht : t.all isPlain = true) :
    intact true t = true ∧ unquote t = t := by
  induction t with
  | nil => exact ⟨rfl, rfl⟩
  | cons c t ih =>
      rw [List.all_cons, Bool.and_eq_true] at ht
      obtain ⟨hintact, hunquote⟩ := ih ht.2
      have hquote := ne_of_isPlain ht.1 (d := '"') rfl
      have hback := ne_of_isPlain ht.1 (d := '\\') rfl
      have hdollar := ne_of_isPlain ht.1 (d := '$') rfl
      have htick := ne_of_isPlain ht.1 (d := '`') rfl
      refine ⟨?_, by rw [unquote_cons hquote, hunquote]⟩
      rw [intact.eq_def]
      simp only [if_neg hquote, if_neg hback, if_neg hdollar, hintact, Bool.and_true, bne_iff_ne]
      exact htick

/-- Names have no blanks. -/
theorem not_blank_of_isNameChar {c : Char} (hc : isNameChar c = true) : isBlank c = false := by
  cases hblank : isBlank c with
  | false => rfl
  | true =>
      have hcases : (c = ' ' ∨ c = '\t') ∨ c = '\n' := by simpa [isBlank] using hblank
      rcases hcases with (rfl | rfl) | rfl <;> cases hc

theorem isNameChar_of_isNameStart {c : Char} (hc : isNameStart c = true) : isNameChar c = true := by
  rw [isNameStart, Bool.or_eq_true] at hc
  rw [isNameChar, Char.isAlphanum, Bool.or_eq_true, Bool.or_eq_true]
  exact hc.imp .inl id

/-- Names need no quotes. -/
theorem isPlain_of_isNameChar {c : Char} (hc : isNameChar c = true) : isPlain c = true := by
  cases hplain : isPlain c with
  | true => rfl
  | false =>
      rw [isPlain, Bool.not_eq_false', Bool.or_eq_true, isOperator, List.contains_iff_mem,
        List.contains_iff_mem] at hplain
      have hall : ("&|()<>".toList ++ " \t\n;\"'\\$`~".toList).all (!isNameChar ·) = true := by
        decide
      have hstop := List.all_eq_true.mp hall c (List.mem_append.mpr hplain)
      rw [hc] at hstop
      cases hstop

theorem all_isNameChar {n : Text} (hn : isName n = true) : n.all isNameChar = true := by
  cases n with
  | nil => rfl
  | cons c t =>
      rw [isName, Bool.and_eq_true] at hn
      rw [List.all_cons, isNameChar_of_isNameStart hn.1, hn.2]
      rfl

theorem not_blank_of_isNameStart {c : Char} (hc : isNameStart c = true) : isBlank c = false :=
  not_blank_of_isNameChar (isNameChar_of_isNameStart hc)

theorem not_blank_of_isName {n : Text} (hn : isName n = true) : ∀ c ∈ n, isBlank c = false := by
  cases n with
  | nil => nofun
  | cons c t =>
      rw [isName, Bool.and_eq_true] at hn
      intro d hd
      rcases List.mem_cons.mp hd with rfl | hd
      · exact not_blank_of_isNameStart hn.1
      · exact not_blank_of_isNameChar (List.all_eq_true.mp hn.2 d hd)

/-- A plain character ends the name of a parameter, or is part of it. -/
theorem step_param (env : Env) (n v x : Text) {c : Char} (hc : isPlain c = true) :
    step nothing (env, .param n v x false) c = (env, .param n v (x ++ [c]) false) ∨
      step nothing (env, .param n v x false) c = (env, .value n (v ++ env x ++ [c]) false) := by
  by_cases hname : isNameChar c = true
  · left
    rw [step, if_pos hname]
  · right
    have hvalue := read_plain nothing env n (v ++ env x) (t := [c]) (by simpa using hc)
    rw [step, if_neg hname]
    exact hvalue

/-- Plain text behind a parameter ends in a value. -/
theorem finish_param (env : Env) (n v x : Text) {t : Text} (ht : t.all isPlain = true) :
    ∃ w, finish (read nothing (env, .param n v x false) t) = some (Function.update env n w) := by
  induction t generalizing x with
  | nil => exact ⟨v ++ env x, rfl⟩
  | cons c t ih =>
      rw [List.all_cons, Bool.and_eq_true] at ht
      rw [read_cons]
      rcases step_param env n v x ht.1 with hstep | hstep
      · rw [hstep]
        exact ih (x ++ [c]) ht.2
      · rw [hstep, read_plain nothing env n _ ht.2]
        exact ⟨_, rfl⟩

/-- **A simple name** makes the evaluation an assignment. -/
theorem evalIndirect_of_simple {glob : Text → List Text} (hglob : Globs glob) {tr : Char → Char}
    (env : Env) {n y : Text} {c : Char} (hn : isName n = true)
    (hsolid : n.all solidChar = true) (hc : isNameStart (tr c) = true) (hdollar : tr '$' = '$')
    (hy : (c :: y).all solidChar = true) (htr : ((c :: y).map tr).all isSimple = true) :
    ∃ w, evalIndirect glob tr env n (c :: y) = some (Function.update env n w) := by
  have hecho : join (expand glob ('$' :: c :: y)) = '$' :: c :: y := by
    rw [expand_of_solid hglob (List.cons_ne_nil _ _) (by rw [List.all_cons, hy]; rfl),
      join_singleton]
  have hword : (n ++ '=' :: '$' :: (c :: y).map tr).all solidChar = true := by
    rw [List.all_append, List.all_cons, List.all_cons, hsolid, all_solidChar htr]
    rfl
  have hassign : n ++ '=' :: '$' :: (c :: y).map tr =
      (n ++ ['=']) ++ ('$' :: tr c :: y.map tr) := by simp
  unfold evalIndirect evalWords evalText
  rw [hecho, List.map_cons, hdollar, expand_of_solid hglob (by simp) hword, join_singleton, hassign,
    read_append, read_assign nothing (.inl rfl) env hn, read_cons, read_cons]
  have hopen : step nothing (env, .value n [] false) '$' = (env, .dollar n [] false) := rfl
  rw [hopen, step, if_pos hc]
  rw [List.map_cons, List.all_cons, Bool.and_eq_true] at htr
  exact finish_param env n [] [tr c] (all_isPlain htr.2)

end AltF.Shell
