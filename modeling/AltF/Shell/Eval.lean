/-
  Shell/Eval.lean --- what the shell does with a text it is given to run, as long as
  that is nothing but assignments.

  `evalText` reads the text character by character, as `eval` and `.` do: quotes,
  backslashes, parameters and comments.  It stops at whatever would run a command,
  substitute the output of one, or be a syntax error, and at the few expansions it
  does not follow (`~`, `${x...}` other than `${x}`, `$((...))`).  Commands of the set
  `harmless` may run; their words are read and dropped.
-/
import Mathlib.Data.List.Induction
import Mathlib.Logic.Function.Basic
import AltF.SysFiles.Text

set_option autoImplicit false

namespace AltF.Shell

open AltF.SysFiles

/-! ## Characters -/

/-- A character that begins a name. -/
def isNameStart (c : Char) : Bool := c.isAlpha || c == '_'

/-- A character of a name. -/
def isNameChar (c : Char) : Bool := c.isAlphanum || c == '_'

/-- A special parameter or a positional one. -/
def isSpecialParam (c : Char) : Bool := c.isDigit || "@*#?-$!".toList.contains c

/-- A character that ends a word or does worse, unquoted. -/
def isOperator (c : Char) : Bool := "&|()<>".toList.contains c

/-- A character that a backslash protects between double quotes. -/
def isEscapable (c : Char) : Bool := "$`\"\\\n".toList.contains c

/-- A character behind which `$` is an expansion. -/
def startsExpansion (c : Char) : Bool :=
  isNameStart c || isSpecialParam c || c == '(' || c == '{'

/-! ## Reading -/

/-- The variables. -/
abbrev Env : Type := Text → Text

/-- Where the shell is in the text. -/
inductive Mode where
  /-- before the first word of a command -/
  | start
  /-- behind an assignment and a blank -/
  | next
  /-- in a comment -/
  | comment
  /-- in a word that may be an assignment -/
  | name (n : Text)
  /-- in the words of a harmless command -/
  | args
  /-- in the value `v` assigned to `n`, between double quotes or not -/
  | value (n v : Text) (double : Bool)
  /-- in the value, between single quotes -/
  | single (n v : Text)
  /-- behind a backslash -/
  | backslash (n v : Text) (double : Bool)
  /-- behind a `$` -/
  | dollar (n v : Text) (double : Bool)
  /-- in the parameter name `x` -/
  | param (n v x : Text) (double : Bool)
  /-- in `${x` -/
  | brace (n v x : Text) (double : Bool)
  /-- something other than an assignment -/
  | other
  deriving DecidableEq, Repr

/-- The variables and where the shell is. -/
abbrev Config : Type := Env × Mode

/-- One more character of a value. -/
def stepValue (env : Env) (n v : Text) (double : Bool) (c : Char) : Config :=
  if c = '"' then (env, .value n v (!double))
  else if c = '\\' then (env, .backslash n v double)
  else if c = '$' then (env, .dollar n v double)
  else if c = '`' then (env, .other)
  else if double then (env, .value n (v ++ [c]) true)
  else if c = ' ' ∨ c = '\t' then (Function.update env n v, .next)
  else if c = '\n' ∨ c = ';' then (Function.update env n v, .start)
  else if c = '\'' then (env, .single n v)
  else if isOperator c ∨ c = '~' then (env, .other)
  else (env, .value n (v ++ [c]) false)

/-- No command may run. -/
def nothing (_ : Text) : Bool := false

section Run

variable (harmless : Text → Bool)

/-- One more character. -/
def step : Config → Char → Config
  | (env, .start), c =>
      if c = ' ' ∨ c = '\t' ∨ c = '\n' then (env, .start)
      else if c = '#' then (env, .comment)
      else if isNameStart c then (env, .name [c])
      else (env, .other)
  | (env, .next), c =>
      if c = ' ' ∨ c = '\t' then (env, .next)
      else if c = '\n' ∨ c = ';' then (env, .start)
      else if c = '#' then (env, .comment)
      else if isNameStart c then (env, .name [c])
      else (env, .other)
  | (env, .comment), c => if c = '\n' then (env, .start) else (env, .comment)
  | (env, .name n), c =>
      if isNameChar c then (env, .name (n ++ [c]))
      else if c = '=' then (env, .value n [] false)
      else if (c = ' ' ∨ c = '\t') ∧ harmless n = true then (env, .args)
      else (env, .other)
  | (env, .args), c =>
      if c = '\n' ∨ c = ';' then (env, .start)
      else if isOperator c ∨ "\"'\\$`~#".toList.contains c = true then (env, .other)
      else (env, .args)
  | (env, .value n v double), c => stepValue env n v double c
  | (env, .single n v), c =>
      if c = '\'' then (env, .value n v false) else (env, .single n (v ++ [c]))
  | (env, .backslash n v double), c =>
      if c = '\n' then (env, .value n v double)
      else if double = true ∧ isEscapable c = false then (env, .value n (v ++ ['\\', c]) true)
      else (env, .value n (v ++ [c]) double)
  | (env, .dollar n v double), c =>
      if isNameStart c then (env, .param n v [c] double)
      else if isSpecialParam c then (env, .value n (v ++ env [c]) double)
      else if c = '{' then (env, .brace n v [] double)
      else if c = '(' ∨ c = '\'' ∧ double = false then (env, .other)
      else stepValue env n (v ++ ['$']) double c
  | (env, .param n v x double), c =>
      if isNameChar c then (env, .param n v (x ++ [c]) double)
      else stepValue env n (v ++ env x) double c
  | (env, .brace n v x double), c =>
      if isNameChar c then (env, .brace n v (x ++ [c]) double)
      else if c = '}' ∧ x ≠ [] then (env, .value n (v ++ env x) double)
      else (env, .other)
  | (env, .other), _ => (env, .other)

/-- The text read from a configuration on. -/
def read (k : Config) (t : Text) : Config := t.foldl (step harmless) k

/-- The variables at the end of the text, if all was assignments. -/
def finish : Config → Option Env
  | (env, .start) | (env, .next) | (env, .comment) | (env, .args) => some env
  | (env, .value n v false) => some (Function.update env n v)
  | (env, .dollar n v false) => some (Function.update env n (v ++ ['$']))
  | (env, .param n v x false) => some (Function.update env n (v ++ env x))
  | _ => none

/-- `eval "$t"`, and `.` of a file with the text `t`: the variables afterwards, or
`none` when it does anything but assign. -/
def evalText (env : Env) (t : Text) : Option Env := finish (read harmless (env, .start) t)

/-! ## Composition -/

@[simp] theorem read_nil (k : Config) : read harmless k [] = k := rfl

@[simp] theorem read_cons (k : Config) (c : Char) (t : Text) :
    read harmless k (c :: t) = read harmless (step harmless k c) t := rfl

theorem read_append (k : Config) (t u : Text) :
    read harmless k (t ++ u) = read harmless (read harmless k t) u :=
  List.foldl_append

/-! ## Assignments -/

/-- A text that can stand to the left of `=`. -/
def isName : Text → Bool
  | [] => false
  | c :: t => isNameStart c && t.all isNameChar

/-- Reading on in a name. -/
theorem read_name (env : Env) (n : Text) {t : Text} (ht : t.all isNameChar = true) :
    read harmless (env, .name n) t = (env, .name (n ++ t)) := by
  induction t generalizing n with
  | nil => rw [List.append_nil, read_nil]
  | cons c t ih =>
      rw [List.all_cons, Bool.and_eq_true] at ht
      rw [read_cons, step, if_pos ht.1, ih _ ht.2, List.append_assoc]
      rfl

/-- A name and `=` begin an assignment. -/
theorem read_assign {m : Mode} (hm : m = .start ∨ m = .next) (env : Env) {n : Text}
    (hn : isName n = true) :
    read harmless (env, m) (n ++ ['=']) = (env, .value n [] false) := by
  cases n with
  | nil => cases hn
  | cons c t =>
      rw [isName, Bool.and_eq_true] at hn
      have hblank : ∀ d, isNameStart d = false → c ≠ d := by
        intro d hd hcd
        rw [hcd, hd] at hn
        cases hn.1
      have hstep : step harmless (env, m) c = (env, .name [c]) := by
        rcases hm with rfl | rfl
        · rw [step, if_neg, if_neg (hblank '#' (by decide)), if_pos hn.1]
          rintro (h | h | h)
          · exact hblank ' ' (by decide) h
          · exact hblank '\t' (by decide) h
          · exact hblank '\n' (by decide) h
        · rw [step, if_neg, if_neg, if_neg (hblank '#' (by decide)), if_pos hn.1]
          · rintro (h | h)
            · exact hblank '\n' (by decide) h
            · exact hblank ';' (by decide) h
          · rintro (h | h)
            · exact hblank ' ' (by decide) h
            · exact hblank '\t' (by decide) h
      rw [List.cons_append, read_cons, hstep, read_append, read_name harmless env [c] hn.2,
        read_cons, read_nil, step, if_neg (by decide), if_pos rfl]
      rfl

/-- A character that stands for itself in a value without quotes. -/
def isPlain (c : Char) : Bool :=
  !(isOperator c || " \t\n;\"'\\$`~".toList.contains c)

/-- A value without quotes. -/
theorem read_plain (env : Env) (n v : Text) {t : Text} (ht : t.all isPlain = true) :
    read harmless (env, .value n v false) t = (env, .value n (v ++ t) false) := by
  induction t generalizing v with
  | nil => rw [List.append_nil, read_nil]
  | cons c t ih =>
      rw [List.all_cons, Bool.and_eq_true] at ht
      have hstep : step harmless (env, .value n v false) c = (env, .value n (v ++ [c]) false) := by
        have hne : ∀ d, isPlain d = false → c ≠ d := by
          intro d hd hcd
          rw [hcd, hd] at ht
          cases ht.1
        have hoperator : ¬(isOperator c = true ∨ c = '~') := by
          rintro (h | h)
          · rw [isPlain, h] at ht
            cases ht.1
          · exact hne '~' (by decide) h
        rw [step, stepValue, if_neg (hne '"' (by decide)), if_neg (hne '\\' (by decide)),
          if_neg (hne '$' (by decide)), if_neg (hne '`' (by decide)), if_neg nofun,
          if_neg (fun h => h.elim (hne ' ' (by decide)) (hne '\t' (by decide))),
          if_neg (fun h => h.elim (hne '\n' (by decide)) (hne ';' (by decide))),
          if_neg (hne '\'' (by decide)), if_neg hoperator]
      rw [read_cons, hstep, ih _ ht.2, List.append_assoc]
      rfl

/-- A plain text among the words of a harmless command. -/
theorem read_args (env : Env) {t : Text} (ht : t.all (fun c => isPlain c && c != '#') = true) :
    read harmless (env, .args) t = (env, .args) := by
  induction t with
  | nil => rfl
  | cons c t ih =>
      rw [List.all_cons, Bool.and_eq_true, Bool.and_eq_true, bne_iff_ne] at ht
      obtain ⟨⟨hplain, hhash⟩, hrest⟩ := ht
      rw [isPlain, Bool.not_eq_true', Bool.or_eq_false_iff] at hplain
      have hne : ∀ d ∈ " \t\n;\"'\\$`~".toList, c ≠ d := by
        rintro d hd rfl
        rw [List.contains_iff_mem.mpr hd] at hplain
        cases hplain.2
      have hend : ¬ (c = '\n' ∨ c = ';') := by
        rintro (h | h)
        · exact hne '\n' (by decide) h
        · exact hne ';' (by decide) h
      have hother : ¬ (isOperator c = true ∨ "\"'\\$`~#".toList.contains c = true) := by
        rw [hplain.1, List.contains_iff_mem]
        rintro (h | h)
        · cases h
        · have hcases : c = '"' ∨ c = '\'' ∨ c = '\\' ∨ c = '$' ∨ c = '`' ∨ c = '~' ∨ c = '#' := by
            simpa using h
          rcases hcases with h | h | h | h | h | h | h
          · exact hne '"' (by decide) h
          · exact hne '\'' (by decide) h
          · exact hne '\\' (by decide) h
          · exact hne '$' (by decide) h
          · exact hne '`' (by decide) h
          · exact hne '~' (by decide) h
          · exact hhash h
      rw [read_cons, step, if_neg hend, if_neg hother, ih hrest]

/-- Text without its double quotes. -/
def unquote (t : Text) : Text := t.filter (· ≠ '"')

/-- Text that stands for itself in front of a double quote that closes it, but for
double quotes in it: none or an even number, with text that needs no quotes outside
of them. -/
def intact : Bool → Text → Bool
  | double, [] => double
  | false, c :: t => if c = '"' then intact true t else isPlain c && intact false t
  | true, c :: t =>
      if c = '"' then intact false t
      else if c = '\\' then
        match t with
        | [] => false
        | d :: t' => !isEscapable d && intact true t'
      else if c = '$' then
        (match t with
          | [] => true
          | d :: _ => !startsExpansion d) && intact true t
      else c != '`' && intact true t

/-- A `$` that begins no expansion is a character like any other. -/
theorem step_dollar (env : Env) (n v : Text) {c : Char} (hc : startsExpansion c = false) :
    step harmless (env, .dollar n v true) c =
      step harmless (env, .value n (v ++ ['$']) true) c := by
  rw [startsExpansion, Bool.or_eq_false_iff, Bool.or_eq_false_iff, Bool.or_eq_false_iff] at hc
  obtain ⟨⟨⟨hname, hspecial⟩, hparen⟩, hbrace⟩ := hc
  have hstop : ¬(c = '(' ∨ c = '\'' ∧ true = false) := by
    rintro (h | h)
    · exact absurd h (by simpa using hparen)
    · cases h.2
  have hvalue : step harmless (env, .value n (v ++ ['$']) true) c =
      stepValue env n (v ++ ['$']) true c := rfl
  rw [hvalue, step, if_neg (by rw [hname]; nofun), if_neg (by rw [hspecial]; nofun),
    if_neg (by simpa using hbrace), if_neg hstop]

/-- Between double quotes a character is added to the value. -/
theorem step_double (env : Env) (n v : Text) {c : Char} (hquote : c ≠ '"') (hback : c ≠ '\\')
    (hdollar : c ≠ '$') (htick : c ≠ '`') :
    step harmless (env, .value n v true) c = (env, .value n (v ++ [c]) true) := by
  rw [step, stepValue, if_neg hquote, if_neg hback, if_neg hdollar, if_neg htick, if_pos rfl]

theorem unquote_cons {c : Char} (hc : c ≠ '"') (t : Text) : unquote (c :: t) = c :: unquote t := by
  rw [unquote, List.filter_cons_of_pos (by simpa using hc), unquote]

/-- **Intact text** is the value, without its quotes. -/
theorem read_intact (env : Env) (n v : Text) {double : Bool} {t : Text}
    (ht : intact double t = true) :
    read harmless (env, .value n v double) (t ++ ['"']) =
      (env, .value n (v ++ unquote t) false) := by
  induction double, t using intact.induct generalizing v with
  | case1 double =>
      obtain rfl : double = true := ht
      rw [unquote, List.filter_nil, List.append_nil]
      rfl
  | case2 t ih =>
      rw [intact, if_pos rfl] at ht
      have hopen : step harmless (env, .value n v false) '"' = (env, .value n v true) := rfl
      rw [List.cons_append, read_cons, hopen, ih _ ht]
      rfl
  | case3 c t hquote ih =>
      rw [intact, if_neg hquote, Bool.and_eq_true] at ht
      have hstep := read_plain harmless env n v (t := [c]) (by simpa using ht.1)
      rw [read_cons, read_nil] at hstep
      rw [List.cons_append, read_cons, hstep, ih _ ht.2, unquote_cons hquote, List.append_assoc]
      rfl
  | case4 t ih =>
      rw [intact.eq_def] at ht
      have hclose : step harmless (env, .value n v true) '"' = (env, .value n v false) := rfl
      rw [List.cons_append, read_cons, hclose, ih _ ht]
      rfl
  | case5 => cases ht
  | case6 d t _ ih =>
      have hd : (!isEscapable d && intact true t) = true := ht
      rw [Bool.and_eq_true, Bool.not_eq_true'] at hd
      have hne : ∀ e, isEscapable e = true → d ≠ e := by
        intro e he hde
        rw [hde, he] at hd
        cases hd.1
      have hback : step harmless (env, .value n v true) '\\' = (env, .backslash n v true) := rfl
      rw [List.cons_append, List.cons_append, read_cons, read_cons, hback, step,
        if_neg (hne '\n' (by decide)), if_pos ⟨rfl, hd.1⟩, ih _ hd.2, unquote_cons (by decide),
        unquote_cons (hne '"' (by decide)), List.append_assoc]
      rfl
  | case7 t _ _ ih =>
      rw [intact.eq_def] at ht
      have hexpansion : t = [] ∨ ∃ d u, t = d :: u ∧ startsExpansion d = false := by
        cases t with
        | nil => exact .inl rfl
        | cons d u =>
            have hd : (!startsExpansion d && intact true (d :: u)) = true := ht
            rw [Bool.and_eq_true, Bool.not_eq_true'] at hd
            exact .inr ⟨d, u, rfl, hd.1⟩
      have hrest : intact true t = true := by
        rcases hexpansion with rfl | ⟨d, u, rfl, -⟩
        · rfl
        · exact (Bool.and_eq_true_iff.mp ht).2
      have hdollar : step harmless (env, .value n v true) '$' = (env, .dollar n v true) := rfl
      have hnext : read harmless (env, .dollar n v true) (t ++ ['"']) =
          read harmless (env, .value n (v ++ ['$']) true) (t ++ ['"']) := by
        rcases hexpansion with rfl | ⟨d, u, rfl, hd⟩
        · rfl
        · rw [List.cons_append, read_cons, read_cons, step_dollar harmless env n v hd]
      rw [List.cons_append, read_cons, hdollar, hnext, ih _ hrest, unquote_cons (by decide),
        List.append_assoc]
      rfl
  | case8 c t hquote hback hdollar ih =>
      rw [intact.eq_def] at ht
      simp only [if_neg hquote, if_neg hback, if_neg hdollar, Bool.and_eq_true, bne_iff_ne] at ht
      rw [List.cons_append, read_cons, step_double harmless env n v hquote hback hdollar ht.1,
        ih _ ht.2, unquote_cons hquote, List.append_assoc]
      rfl

/-- `n="f"` with intact text. -/
theorem read_quoted {m : Mode} (hm : m = .start ∨ m = .next) (env : Env) {n f : Text}
    (hn : isName n = true) (hf : intact true f = true) :
    read harmless (env, m) (n ++ '=' :: '"' :: f ++ ['"']) = (env, .value n (unquote f) false) := by
  have hsplit : n ++ '=' :: '"' :: f ++ ['"'] = (n ++ ['=']) ++ '"' :: (f ++ ['"']) := by simp
  have hopen : step harmless (env, .value n [] false) '"' = (env, .value n [] true) := rfl
  rw [hsplit, read_append, read_assign harmless hm env hn, read_cons, hopen,
    read_intact harmless env n [] hf, List.nil_append]

/-- `n="f";` with intact text. -/
theorem read_quoted_assignment {m : Mode} (hm : m = .start ∨ m = .next) (env : Env) {n f : Text}
    (hn : isName n = true) (hf : intact true f = true) {c : Char} (hc : c = ';' ∨ c = '\n') :
    read harmless (env, m) (n ++ '=' :: '"' :: f ++ ['"', c]) =
      (Function.update env n (unquote f), .start) := by
  have hsplit : n ++ '=' :: '"' :: f ++ ['"', c] = (n ++ '=' :: '"' :: f ++ ['"']) ++ [c] := by simp
  rw [hsplit, read_append, read_quoted harmless hm env hn hf]
  rcases hc with rfl | rfl <;> rfl

/-- Single quotes keep everything but themselves. -/
theorem read_single (env : Env) (n v : Text) {t : Text} (ht : '\'' ∉ t) :
    read harmless (env, .single n v) (t ++ ['\'']) = (env, .value n (v ++ t) false) := by
  induction t generalizing v with
  | nil => rw [List.append_nil]; rfl
  | cons c t ih =>
      rw [List.mem_cons, not_or] at ht
      rw [List.cons_append, read_cons, step, if_neg (Ne.symm ht.1), ih _ ht.2, List.append_assoc]
      rfl

/-- `n='t'` -/
theorem read_single_quoted {m : Mode} (hm : m = .start ∨ m = .next) (env : Env) {n t : Text}
    (hn : isName n = true) (ht : '\'' ∉ t) :
    read harmless (env, m) (n ++ '=' :: '\'' :: t ++ ['\'']) = (env, .value n t false) := by
  have hsplit : n ++ '=' :: '\'' :: t ++ ['\''] = (n ++ ['=']) ++ '\'' :: (t ++ ['\'']) := by simp
  have hopen : step harmless (env, .value n [] false) '\'' = (env, .single n []) := rfl
  rw [hsplit, read_append, read_assign harmless hm env hn, read_cons, hopen,
    read_single harmless env n [] ht, List.nil_append]

/-- `n=t;` with a text that needs no quotes. -/
theorem read_plain_assignment {m : Mode} (hm : m = .start ∨ m = .next) (env : Env) {n t : Text}
    (hn : isName n = true) (ht : t.all isPlain = true) {c : Char} (hc : c = ';' ∨ c = '\n') :
    read harmless (env, m) (n ++ '=' :: t ++ [c]) = (Function.update env n t, .start) := by
  have hsplit : n ++ '=' :: t ++ [c] = (n ++ ['=']) ++ (t ++ [c]) := by simp
  rw [hsplit, read_append, read_assign harmless hm env hn, read_append,
    read_plain harmless env n [] ht, List.nil_append]
  rcases hc with rfl | rfl <;> rfl

end Run

/-! ## Several assignments -/

/-- Variables set one after the other. -/
def assignAll (env : Env) (xs : List (Text × Text)) : Env :=
  xs.foldl (fun e x => Function.update e x.1 x.2) env

theorem assignAll_append (env : Env) (xs ys : List (Text × Text)) :
    assignAll env (xs ++ ys) = assignAll (assignAll env xs) ys := List.foldl_append

/-- A variable has the last value it was given. -/
theorem assignAll_eq_find (env : Env) (xs : List (Text × Text)) (n : Text) :
    assignAll env xs n = ((xs.reverse.find? fun x => x.1 = n).map Prod.snd).getD (env n) := by
  induction xs using List.reverseRecOn with
  | nil => rfl
  | append_singleton xs x ih =>
      have hstep : assignAll env (xs ++ [x]) n =
          Function.update (assignAll env xs) x.1 x.2 n := by
        rw [assignAll_append]
        rfl
      rw [hstep, List.reverse_append, List.reverse_singleton, List.singleton_append]
      by_cases hx : x.1 = n
      · rw [List.find?_cons_of_pos (by simpa using hx), ← hx, Function.update_self]
        rfl
      · rw [List.find?_cons_of_neg (by simpa using hx), Function.update_of_ne (Ne.symm hx), ih]

/-- A variable keeps its value or has one it was given. -/
theorem assignAll_cases (env : Env) (xs : List (Text × Text)) (n : Text) :
    assignAll env xs n = env n ∨ (n, assignAll env xs n) ∈ xs := by
  rw [assignAll_eq_find]
  cases hfind : xs.reverse.find? fun x => x.1 = n with
  | none => exact .inl rfl
  | some x =>
      have hname : x.1 = n := by simpa using List.find?_some hfind
      have hmem : x ∈ xs := List.mem_reverse.mp (List.mem_of_find?_eq_some hfind)
      exact .inr (hname ▸ hmem)

/-- A variable that is given a value has one that it was given. -/
theorem assignAll_mem {env : Env} {xs : List (Text × Text)} {n : Text}
    (hn : n ∈ xs.map Prod.fst) : (n, assignAll env xs n) ∈ xs := by
  rw [assignAll_eq_find]
  cases hfind : xs.reverse.find? fun x => x.1 = n with
  | none =>
      obtain ⟨x, hx, hname⟩ := List.mem_map.mp hn
      exact absurd hname (by simpa using List.find?_eq_none.mp hfind x (List.mem_reverse.mpr hx))
  | some x =>
      have hname : x.1 = n := by simpa using List.find?_some hfind
      exact hname ▸ List.mem_reverse.mp (List.mem_of_find?_eq_some hfind)

/-- Variables of different names have the values they are given. -/
theorem assignAll_of_nodup {xs : List (Text × Text)} (hnames : (xs.map Prod.fst).Nodup)
    (env : Env) :
    (∀ x ∈ xs, assignAll env xs x.1 = x.2) ∧
      ∀ n, n ∉ xs.map Prod.fst → assignAll env xs n = env n := by
  unfold assignAll
  induction xs generalizing env with
  | nil => exact ⟨nofun, fun _ _ => rfl⟩
  | cons x xs ih =>
      rw [List.map_cons, List.nodup_cons] at hnames
      obtain ⟨hset, hother⟩ := ih hnames.2 (Function.update env x.1 x.2)
      refine ⟨?_, fun n hn => ?_⟩
      · intro y hy
        rcases List.mem_cons.mp hy with rfl | hy
        · rw [List.foldl_cons, hother y.1 hnames.1, Function.update_self]
        · exact hset y hy
      · rw [List.map_cons, List.mem_cons, not_or] at hn
        rw [List.foldl_cons, hother n hn.2, Function.update_of_ne hn.1]

end AltF.Shell
