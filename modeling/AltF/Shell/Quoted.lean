/-
  Shell/Quoted.lean --- text between double quotes, with expansions but without
  substitutions.
-/
import AltF.Shell.Eval
import AltF.Shell.Words

set_option autoImplicit false

namespace AltF.Shell

open AltF.SysFiles

/-! ## Substitutions -/

/-- No command substitution, and no `${...}`. -/
def noSubst : Text → Bool
  | [] => true
  | c :: t =>
      if c = '`' then false
      else if c = '$' ∧ (t.head? = some '(' ∨ t.head? = some '{') then false
      else noSubst t

theorem noSubst_cons (c : Char) (t : Text) : noSubst (c :: t) = true ↔
    c ≠ '`' ∧ (c = '$' → t.head? ≠ some '(' ∧ t.head? ≠ some '{') ∧ noSubst t = true := by
  rw [noSubst]
  by_cases htick : c = '`'
  · simp [htick]
  · by_cases hdollar : c = '$' ∧ (t.head? = some '(' ∨ t.head? = some '{')
    · rw [if_neg htick, if_pos hdollar]
      refine ⟨nofun, fun h => ?_⟩
      obtain ⟨hparen, hbrace⟩ := h.2.1 hdollar.1
      exact absurd hdollar.2 (not_or.mpr ⟨hparen, hbrace⟩)
    · rw [if_neg htick, if_neg hdollar]
      exact ⟨fun h => ⟨htick, fun hc => not_or.mp fun hhead => hdollar ⟨hc, hhead⟩, h⟩,
        fun h => h.2.2⟩

theorem head?_of_squeeze {t : Text} {d : Char} (hd : d ≠ ' ') (h : (squeeze t).head? = some d) :
    t.head? = some d := by
  cases t with
  | nil => exact h
  | cons c t =>
      rw [squeeze] at h
      split at h
      · split at h
        · rename_i hspace
          rw [hspace] at h
          exact absurd (Option.some.inj h).symm hd
        · exact absurd (Option.some.inj h).symm hd
      · exact h

/-- Squeezing brings nothing together. -/
theorem noSubst_squeeze {t : Text} (ht : noSubst t = true) : noSubst (squeeze t) = true := by
  induction t with
  | nil => rfl
  | cons c t ih =>
      obtain ⟨htick, hdollar, hrest⟩ := (noSubst_cons c t).mp ht
      rw [squeeze]
      split
      · split
        · exact ih hrest
        · exact (noSubst_cons _ _).mpr ⟨by decide, fun h => absurd h (by decide), ih hrest⟩
      · refine (noSubst_cons _ _).mpr ⟨htick, fun hc => ⟨?_, ?_⟩, ih hrest⟩
        · exact fun h => (hdollar hc).1 (head?_of_squeeze (by decide) h)
        · exact fun h => (hdollar hc).2 (head?_of_squeeze (by decide) h)

/-! ## Reading a value -/

/-- Between double quotes. -/
inductive Inside (n : Text) : Mode → Prop
  | value (v : Text) : Inside n (.value n v true)
  | dollar (v : Text) : Inside n (.dollar n v true)
  | param (v x : Text) : Inside n (.param n v x true)

section Inside

variable {n : Text} (env : Env)

theorem value_ne_dollar (v w : Text) : Mode.value n v true ≠ .dollar n w true :=
  Mode.noConfusion

theorem param_ne_dollar (v x w : Text) : Mode.param n v x true ≠ .dollar n w true :=
  Mode.noConfusion

theorem stepValue_inside (v : Text) {c : Char} (hquote : c ≠ '"') (hback : c ≠ '\\')
    (htick : c ≠ '`') :
    ∃ m, stepValue env n v true c = (env, m) ∧ Inside n m ∧
      (∀ w, m = .dollar n w true → c = '$') := by
  by_cases hdollar : c = '$'
  · refine ⟨.dollar n v true, ?_, .dollar v, fun _ _ => hdollar⟩
    rw [stepValue, if_neg hquote, if_neg hback, if_pos hdollar]
  · refine ⟨.value n (v ++ [c]) true, ?_, .value _, fun w h => absurd h (value_ne_dollar _ w)⟩
    rw [stepValue, if_neg hquote, if_neg hback, if_neg hdollar, if_neg htick, if_pos rfl]

/-- A character between double quotes. -/
theorem step_inside {m : Mode} (hm : Inside n m) {c : Char} (hquote : c ≠ '"') (hback : c ≠ '\\')
    (htick : c ≠ '`') (hsubst : ∀ w, m = .dollar n w true → c ≠ '(' ∧ c ≠ '{') :
    ∃ m', step nothing (env, m) c = (env, m') ∧ Inside n m' ∧
      (∀ w, m' = .dollar n w true → c = '$') := by
  cases hm with
  | value v => exact stepValue_inside env v hquote hback htick
  | dollar v =>
      obtain ⟨hparen, hbrace⟩ := hsubst v rfl
      have hstop : ¬(c = '(' ∨ c = '\'' ∧ true = false) := by
        rintro (h | ⟨-, h⟩)
        · exact hparen h
        · cases h
      by_cases hname : isNameStart c = true
      · exact ⟨.param n v [c] true, by rw [step, if_pos hname], .param v [c],
          fun w h => absurd h (param_ne_dollar v _ w)⟩
      · by_cases hspecial : isSpecialParam c = true
        · exact ⟨.value n (v ++ env [c]) true, by rw [step, if_neg hname, if_pos hspecial],
            .value _, fun w h => absurd h (value_ne_dollar _ w)⟩
        · rw [step, if_neg hname, if_neg hspecial, if_neg hbrace, if_neg hstop]
          exact stepValue_inside env (v ++ ['$']) hquote hback htick
  | param v x =>
      by_cases hname : isNameChar c = true
      · exact ⟨.param n v (x ++ [c]) true, by rw [step, if_pos hname], .param v (x ++ [c]),
          fun w h => absurd h (param_ne_dollar v _ w)⟩
      · rw [step, if_neg hname]
        exact stepValue_inside env (v ++ env x) hquote hback htick

theorem step_inside_quote {m : Mode} (hm : Inside n m) :
    ∃ v, step nothing (env, m) '"' = (env, .value n v false) := by
  cases hm with
  | value v => exact ⟨v, rfl⟩
  | dollar v => exact ⟨v ++ ['$'], rfl⟩
  | param v x => exact ⟨v ++ env x, rfl⟩

theorem step_inside_back {m : Mode} (hm : Inside n m) :
    ∃ v, step nothing (env, m) '\\' = (env, .backslash n v true) := by
  cases hm with
  | value v => exact ⟨v, rfl⟩
  | dollar v => exact ⟨v ++ ['$'], rfl⟩
  | param v x => exact ⟨v ++ env x, rfl⟩

end Inside

/-! ## Quotes in the text -/

/-- Text in front of a double quote that closes it, with text that needs no quotes where
double quotes in it leave some outside. -/
def quotable : Bool → Text → Bool
  | double, [] => double
  | false, c :: t => if c = '"' then quotable true t else isPlain c && quotable false t
  | true, c :: t =>
      if c = '"' then quotable false t
      else if c = '\\' then
        match t with
        | [] => false
        | _ :: t' => quotable true t'
      else if c = '$' then t.head? != some '(' && t.head? != some '{' && quotable true t
      else c != '`' && quotable true t

theorem outside_ne_dollar {n : Text} (v w : Text) : Mode.value n v false ≠ .dollar n w true :=
  Mode.noConfusion

/-- A backslash keeps whatever is behind it in the value, or drops both. -/
theorem step_backslash (env : Env) (n v : Text) (c : Char) :
    ∃ v', step nothing (env, .backslash n v true) c = (env, .value n v' true) := by
  rw [step]
  split
  · exact ⟨v, rfl⟩
  · split
    · exact ⟨v ++ ['\\', c], rfl⟩
    · exact ⟨v ++ [c], rfl⟩

/-- Where the shell is in such text. -/
inductive Within (n : Text) : Bool → Mode → Prop
  | outside (v : Text) : Within n false (.value n v false)
  | inside {m : Mode} (h : Inside n m) : Within n true m

/-- **Quotable text** is read as a value. -/
theorem read_quotable (env : Env) {n : Text} {double : Bool} {t : Text}
    (ht : quotable double t = true) {m : Mode} (hm : Within n double m)
    (hsubst : ∀ w, m = .dollar n w true → t.head? ≠ some '(' ∧ t.head? ≠ some '{') :
    ∃ v, read nothing (env, m) (t ++ ['"']) = (env, .value n v false) := by
  have hvalue : ∀ (u : Text) (v w : Text), Mode.value n v true = .dollar n w true →
      u.head? ≠ some '(' ∧ u.head? ≠ some '{' := fun _ v w h => absurd h (value_ne_dollar v w)
  induction double, t using quotable.induct generalizing m with
  | case1 double =>
      obtain rfl : double = true := ht
      cases hm with
      | inside hm => exact step_inside_quote env hm
  | case2 t ih =>
      cases hm with
      | outside v => exact ih ht (.inside (.value v)) (hvalue t v)
  | case3 c t hquote ih =>
      rw [quotable, if_neg hquote, Bool.and_eq_true] at ht
      cases hm with
      | outside v =>
          have hstep := read_plain nothing env n v (t := [c]) (by simpa using ht.1)
          rw [read_cons, read_nil] at hstep
          rw [List.cons_append, read_cons, hstep]
          exact ih ht.2 (.outside _) fun w h => absurd h (outside_ne_dollar _ w)
  | case4 t ih =>
      rw [quotable.eq_def] at ht
      cases hm with
      | inside hm =>
          obtain ⟨v, hstep⟩ := step_inside_quote env hm
          rw [List.cons_append, read_cons, hstep]
          exact ih ht (.outside v) fun w h => absurd h (outside_ne_dollar v w)
  | case5 => cases ht
  | case6 d t _ ih =>
      have hrest : quotable true t = true := ht
      cases hm with
      | inside hm =>
          obtain ⟨v, hback⟩ := step_inside_back env hm
          obtain ⟨v', hstep⟩ := step_backslash env n v d
          rw [List.cons_append, List.cons_append, read_cons, read_cons, hback, hstep]
          exact ih hrest (.inside (.value v')) (hvalue t v')
  | case7 t _ _ ih =>
      rw [quotable.eq_def] at ht
      have hrest : (t.head? != some '(' && t.head? != some '{' && quotable true t) = true := ht
      rw [Bool.and_eq_true, Bool.and_eq_true, bne_iff_ne, bne_iff_ne] at hrest
      cases hm with
      | inside hm =>
          obtain ⟨m', hstep, hm', -⟩ := step_inside env hm (c := '$') (by decide) (by decide)
            (by decide) fun _ _ => ⟨by decide, by decide⟩
          rw [List.cons_append, read_cons, hstep]
          exact ih hrest.2 (.inside hm') fun _ _ => hrest.1
  | case8 c t hquote hback hdollar ih =>
      rw [quotable.eq_def] at ht
      simp only [if_neg hquote, if_neg hback, if_neg hdollar, Bool.and_eq_true, bne_iff_ne] at ht
      cases hm with
      | inside hm =>
          obtain ⟨m', hstep, hm', hnext⟩ := step_inside env hm hquote hback ht.1 fun w hw =>
            ⟨fun h => (hsubst w hw).1 (congrArg some h), fun h => (hsubst w hw).2 (congrArg some h)⟩
          rw [List.cons_append, read_cons, hstep]
          exact ih ht.2 (.inside hm') fun w hw => absurd (hnext w hw) hdollar

end AltF.Shell
