/-
  Cgi/Args.lean --- common.sh: `read_args`, which makes variables of the fields of a
  POST body, first key=value and then value=key.

  What the function evaluates is `name='text'` for each field whose name awk takes,
  whatever the body is, as long as no word of it is replaced by the names of files.
-/
import AltF.Cgi.Upload

set_option autoImplicit false

namespace AltF.Cgi

open AltF.Shell AltF.SysFiles

/-! ## The function -/

/-- A character that makes a word a pattern. -/
def isWild (c : Char) : Bool := c == '*' || c == '?' || c == '['

/-- The shell of a cgi script. -/
structure Machine where
  glob : Text → List Text
  /-- `echo -n` -/
  echon : List Text → Text
  globs : ∀ {w : Text}, (∀ c ∈ w, isWild c = false) → glob w = [w]
  echons : ∀ {ws : List Text}, (∀ w ∈ ws.head?, isEchoOption w = false) → echon ws = join ws

/-- A machine where no pattern matches a file. -/
def plainMachine : Machine where
  glob := noFiles
  echon := join
  globs := fun _ => rfl
  echons := fun _ => rfl

/-- `tr '\r' '\n'` -/
def crToNewline (c : Char) : Char := if c = '\r' then '\n' else c

/-- `sed -e 's/'"'"'/%27/g;s/"/%22/g'` -/
def sedQuote (c : Char) : Text :=
  if c = '\'' then "%27".toList else if c = '"' then "%22".toList else [c]

def sedQuotes (t : Text) : Text := t.flatMap sedQuote

/-- `$1` and `$2` of a record. -/
def dollar1 (r : Text) : Text := (r.splitOn '=').headD []

def dollar2 (r : Text) : Text := (r.splitOn '=').tail.headD []

/-- `/^[a-zA-Z][a-zA-Z0-9_]*$/` -/
def isAwkName : Text → Bool
  | [] => false
  | c :: t => c.isAlpha && t.all isNameChar

/-- The fields with a legal key, as the first awk program takes them. -/
def keyValues (t : Text) : List (Text × Text) :=
  (t.splitOn '&').filterMap fun r =>
    if isAwkName (dollar1 r) then some (dollar1 r, dollar2 r) else none

/-- The fields whose value is a legal name, as the second takes them. -/
def valueKeys (t : Text) : List (Text × Text) :=
  (t.splitOn '&').filterMap fun r =>
    if isAwkName (dollar2 r) then some (dollar2 r, dollar1 r) else none

/-- `printf "%s=%c%s%c\n"` -/
def awkLine (x : Text × Text) : Text := x.1 ++ '=' :: '\'' :: x.2 ++ ['\'']

def awkText (xs : List (Text × Text)) : Text := xs.flatMap fun x => awkLine x ++ ['\n']

/-- `read -r args`: the first line, without NULs and the blanks at its ends. -/
def readLine (body : Text) : Text :=
  trim ((body.takeWhile (· ≠ '\n')).filter (· ≠ '\x00'))

/-- Variables that the function itself reads. -/
def readArgsNames : List Text := ["args".toList, "IFS".toList, "PATH".toList]

namespace Machine

variable (m : Machine)

/-- `echo -n $args` -/
def echoArgs (args : Text) : Text := m.echon (expand m.glob args)

/-- The first evaluation. -/
def evalKeys (env : Env) (t : Text) : Option Env :=
  evalWords m.glob env (commandSubst (awkText (keyValues (sedQuotes (t.map crToNewline)))))

/-- The second one. -/
def evalValues (env : Env) (t : Text) : Option Env :=
  evalWords m.glob env (commandSubst (awkText (valueKeys (sedQuotes t))))

/-- Both, of what is echoed: `none` when something other than assignments was evaluated,
or when the first evaluation has changed what the second one needs. -/
def evalBoth (env : Env) (t : Text) : Option Env := do
  let env₁ ← m.evalKeys env t
  if readArgsNames.any fun n => env₁ n ≠ env n then none else m.evalValues env₁ t

/-- The variables before the evaluations. -/
def startEnv (env : Env) (body : Text) : Env :=
  Function.update env "args".toList (readLine body)

/-- `read_args` -/
def readArgs (env : Env) (body : Text) : Option Env :=
  m.evalBoth (startEnv env body) (m.echoArgs (readLine body))

end Machine

/-! ## Characters of what is evaluated -/

theorem mem_of_mem_sedQuotes {t : Text} {c : Char} (hc : c ∈ sedQuotes t) :
    c ∈ t ∨ c ∈ "%27".toList ∨ c ∈ "%22".toList := by
  obtain ⟨d, hd, hmem⟩ := List.mem_flatMap.mp hc
  unfold sedQuote at hmem
  split at hmem
  · exact .inr (.inl hmem)
  · split at hmem
    · exact .inr (.inr hmem)
    · exact .inl (List.mem_singleton.mp hmem ▸ hd)

/-- No quotes are left. -/
theorem ne_of_mem_sedQuotes {t : Text} {c : Char} (hc : c ∈ sedQuotes t) : c ≠ '\'' ∧ c ≠ '"' := by
  obtain ⟨d, -, hmem⟩ := List.mem_flatMap.mp hc
  unfold sedQuote at hmem
  split at hmem
  · constructor <;> (rintro rfl; exact absurd hmem (by decide))
  · split at hmem
    · constructor <;> (rintro rfl; exact absurd hmem (by decide))
    · rename_i hsingle hdouble
      rw [List.mem_singleton.mp hmem]
      exact ⟨hsingle, hdouble⟩

/-- Replacing quotes makes no patterns. -/
theorem not_wild_sedQuotes {t : Text} (hwild : ∀ c ∈ t, isWild c = false) :
    ∀ c ∈ sedQuotes t, isWild c = false := by
  have hcodes : ("%27".toList ++ "%22".toList).all (fun c => !isWild c) = true := rfl
  intro c hc
  rcases mem_of_mem_sedQuotes hc with hc | hc
  · exact hwild c hc
  · simpa using List.all_eq_true.mp hcodes c (List.mem_append.mpr hc)

theorem sedQuotes_of_not_mem {t : Text} (hsingle : '\'' ∉ t) (hdouble : '"' ∉ t) :
    sedQuotes t = t := by
  induction t with
  | nil => rfl
  | cons c t ih =>
      rw [List.mem_cons, not_or] at hsingle hdouble
      have hc : sedQuote c = [c] := by
        rw [sedQuote, if_neg (Ne.symm hsingle.1), if_neg (Ne.symm hdouble.1)]
      rw [sedQuotes, List.flatMap_cons, hc, List.singleton_append]
      exact congrArg _ (ih hsingle.2 hdouble.2)

/-- A piece of a text split at a character has its characters, and not that one. -/
theorem mem_of_mem_splitOn {t r : Text} {s : Char} (hr : r ∈ t.splitOn s) :
    s ∉ r ∧ ∀ c ∈ r, c ∈ t := by
  rw [List.splitOn_eq_splitOnP] at hr
  exact ⟨fun hs => by simpa using (mem_of_mem_splitOnP hr s hs).2,
    fun c hc => (mem_of_mem_splitOnP hr c hc).1⟩

/-! ## Reading what awk prints -/

section Lines

variable {xs : List (Text × Text)}

theorem squeeze_awkLine {x : Text × Text} (hx : isName x.1 = true) (u : Text) :
    squeeze (awkLine x ++ u) = awkLine (x.1, squeeze x.2) ++ squeeze u := by
  have hsplit : awkLine x ++ u = x.1 ++ ('=' :: '\'' :: (x.2 ++ '\'' :: u)) := by simp [awkLine]
  rw [hsplit, squeeze_append_of_not_blank (not_blank_of_isName hx),
    squeeze_cons_of_not_blank rfl, squeeze_cons_of_not_blank rfl, squeeze_append_cons _ _ rfl]
  simp [awkLine]

theorem startsSolid_of_isName {n : Text} (hn : isName n = true) (t : Text) :
    StartsSolid (n ++ t) := by
  cases n with
  | nil => cases hn
  | cons c n => exact fun d hd => not_blank_of_isName hn d (by simp_all)

theorem endsSolid_awkLine (x : Text × Text) : EndsSolid (awkLine x) := by
  intro c hc
  rw [awkLine, List.getLast?_append_of_ne_nil _ (List.cons_ne_nil _ _)] at hc
  obtain rfl : '\'' = c := Option.some.inj hc
  rfl

/-- The lines without the last newline. -/
theorem commandSubst_awkText (x : Text × Text) (xs : List (Text × Text)) :
    commandSubst (awkText (xs ++ [x])) = awkText xs ++ awkLine x := by
  have hlast : awkText (xs ++ [x]) = (awkText xs ++ awkLine x) ++ ['\n'] := by simp [awkText]
  rw [hlast, commandSubst_append_newline]
  exact commandSubst_of_endsSolid ((endsSolid_awkLine x).append _ (by simp [awkLine]))

theorem startsSolid_awkText (hxs : ∀ x ∈ xs, isName x.1 = true) (x : Text × Text)
    (hx : isName x.1 = true) : StartsSolid (awkText xs ++ awkLine x) := by
  cases xs with
  | nil => simpa [awkText, awkLine] using startsSolid_of_isName hx ('=' :: '\'' :: (x.2 ++ ['\'']))
  | cons y ys =>
      have hy := startsSolid_of_isName (hxs y List.mem_cons_self)
        ('=' :: '\'' :: (y.2 ++ ['\'', '\n'] ++ awkText ys ++ awkLine x))
      simpa [awkText, awkLine] using hy

/-- Squeezing the lines puts them on one. -/
theorem squeeze_awkText (hxs : ∀ x ∈ xs, isName x.1 = true) (x : Text × Text)
    (hx : isName x.1 = true) :
    squeeze (awkText xs ++ awkLine x) =
      join ((xs ++ [x]).map fun x => awkLine (x.1, squeeze x.2)) := by
  induction xs with
  | nil =>
      have h := squeeze_awkLine hx []
      rw [List.append_nil] at h
      rw [List.nil_append, List.map_singleton, join_singleton]
      simpa [awkText, squeeze] using h
  | cons y ys ih =>
      have hys := fun z hz => hxs z (List.mem_cons_of_mem y hz)
      have hsplit : awkText (y :: ys) ++ awkLine x =
          awkLine y ++ '\n' :: (awkText ys ++ awkLine x) := by simp [awkText]
      rw [hsplit, squeeze_awkLine (hxs y List.mem_cons_self),
        squeeze_blank rfl (startsSolid_awkText hys x hx), ih hys, List.cons_append, List.map_cons,
        join_cons _ (by simp)]

theorem join_words_awkText (hxs : ∀ x ∈ xs, isName x.1 = true) :
    join (words (commandSubst (awkText xs))) =
      join (xs.map fun x => awkLine (x.1, squeeze x.2)) := by
  induction xs using List.reverseRecOn with
  | nil => rfl
  | append_singleton ys x _ =>
      have hx := hxs x (by simp)
      have hys : ∀ y ∈ ys, isName y.1 = true := fun y hy => hxs y (by simp [hy])
      rw [commandSubst_awkText, join_words (startsSolid_awkText hys x hx)
        ((endsSolid_awkLine x).append _ (by simp [awkLine])), squeeze_awkText hys x hx]

/-- The assignments are made in their order. -/
theorem finish_join_awkLine (hxs : ∀ x ∈ xs, isName x.1 = true ∧ '\'' ∉ x.2) (hne : xs ≠ [])
    {mode : Mode} (hm : mode = .start ∨ mode = .next) (env : Env) :
    finish (read nothing (env, mode) (join (xs.map awkLine))) = some (assignAll env xs) := by
  induction xs generalizing mode env with
  | nil => exact absurd rfl hne
  | cons x xs ih =>
      obtain ⟨hname, hquote⟩ := hxs x List.mem_cons_self
      have hread : read nothing (env, mode) (awkLine x) = (env, .value x.1 x.2 false) :=
        read_single_quoted nothing hm env hname hquote
      by_cases hxs' : xs = []
      · rw [hxs', List.map_singleton, join_singleton, hread]
        rfl
      · have hspace : step nothing (env, .value x.1 x.2 false) ' ' =
            (Function.update env x.1 x.2, .next) := rfl
        rw [List.map_cons, join_cons _ (by simpa using hxs'), read_append, hread, read_cons, hspace,
          ih (fun y hy => hxs y (List.mem_cons_of_mem x hy)) hxs' (.inr rfl)]
        rfl

theorem evalText_join_awkLine (hxs : ∀ x ∈ xs, isName x.1 = true ∧ '\'' ∉ x.2) (env : Env) :
    evalText nothing env (join (xs.map awkLine)) = some (assignAll env xs) := by
  by_cases hne : xs = []
  · rw [hne]
    rfl
  · exact finish_join_awkLine hxs hne (.inl rfl) env

end Lines

/-! ## The evaluations -/

theorem isName_of_isAwkName {n : Text} (hn : isAwkName n = true) : isName n = true := by
  cases n with
  | nil => cases hn
  | cons c n =>
      rw [isAwkName, Bool.and_eq_true] at hn
      rw [isName, isNameStart, hn.1, hn.2]
      rfl

/-- The fields of a record. -/
theorem mem_of_mem_dollar1 {r : Text} {c : Char} (hc : c ∈ dollar1 r) : c ∈ r ∧ c ≠ '=' := by
  rw [dollar1] at hc
  cases hfields : r.splitOn '=' with
  | nil => exact absurd hfields (List.splitOn_ne_nil '=' r)
  | cons v vs =>
      rw [hfields, List.headD_cons] at hc
      obtain ⟨hequal, hsub⟩ := mem_of_mem_splitOn (hfields ▸ List.mem_cons_self : v ∈ r.splitOn '=')
      exact ⟨hsub c hc, fun h => hequal (h ▸ hc)⟩

theorem mem_of_mem_dollar2 {r : Text} {c : Char} (hc : c ∈ dollar2 r) : c ∈ r ∧ c ≠ '=' := by
  rw [dollar2] at hc
  cases htail : (r.splitOn '=').tail with
  | nil =>
      rw [htail] at hc
      cases hc
  | cons v vs =>
      rw [htail, List.headD_cons] at hc
      have hmem : v ∈ r.splitOn '=' := List.mem_of_mem_tail (htail ▸ List.mem_cons_self)
      obtain ⟨hequal, hsub⟩ := mem_of_mem_splitOn hmem
      exact ⟨hsub c hc, fun h => hequal (h ▸ hc)⟩

/-- What awk prints comes from a record. -/
structure Printed (t : Text) (x : Text × Text) : Prop where
  name : isAwkName x.1 = true
  value : ∀ c ∈ x.2, c ∈ t ∧ c ≠ '='
  chars : ∀ c ∈ x.1, c ∈ t

theorem printed_of_keyValues {t : Text} {x : Text × Text} (hx : x ∈ keyValues t) :
    Printed t x := by
  obtain ⟨r, hr, hsome⟩ := List.mem_filterMap.mp hx
  obtain ⟨-, hsub⟩ := mem_of_mem_splitOn hr
  split at hsome
  · rename_i hname
    cases hsome
    exact ⟨hname, fun c hc => (mem_of_mem_dollar2 hc).imp_left (hsub c),
      fun c hc => hsub c (mem_of_mem_dollar1 hc).1⟩
  · cases hsome

theorem printed_of_valueKeys {t : Text} {x : Text × Text} (hx : x ∈ valueKeys t) :
    Printed t x := by
  obtain ⟨r, hr, hsome⟩ := List.mem_filterMap.mp hx
  obtain ⟨-, hsub⟩ := mem_of_mem_splitOn hr
  split at hsome
  · rename_i hname
    cases hsome
    exact ⟨hname, fun c hc => (mem_of_mem_dollar1 hc).imp_left (hsub c),
      fun c hc => hsub c (mem_of_mem_dollar2 hc).1⟩
  · cases hsome

/-- The values, with one space for each run of blanks. -/
def squeezeAll (xs : List (Text × Text)) : List (Text × Text) :=
  xs.map fun x => (x.1, squeeze x.2)

namespace Machine

variable (m : Machine) {t : Text}

/-- No word of what awk prints is replaced by the names of files. -/
def KeepsLines (xs : List (Text × Text)) : Prop :=
  ∀ w ∈ words (commandSubst (awkText xs)), m.glob w = [w]

/-- Lines whose words are kept are assignments. -/
theorem evalWords_lines {xs : List (Text × Text)} (hkept : m.KeepsLines xs)
    (hxs : ∀ x ∈ xs, isAwkName x.1 = true ∧ '\'' ∉ x.2) (env : Env) :
    evalWords m.glob env (commandSubst (awkText xs)) = some (assignAll env (squeezeAll xs)) := by
  have hnames : ∀ x ∈ xs, isName x.1 = true := fun x hx => isName_of_isAwkName (hxs x hx).1
  have hmap : xs.map (fun x => awkLine (x.1, squeeze x.2)) = (squeezeAll xs).map awkLine := by
    rw [squeezeAll, List.map_map]
    rfl
  rw [evalWords, expand_of_kept hkept, join_words_awkText hnames, hmap]
  refine evalText_join_awkLine (fun y hy => ?_) env
  obtain ⟨x, hx, rfl⟩ := List.mem_map.mp hy
  exact ⟨hnames x hx, fun hquote => (hxs x hx).2 (mem_of_mem_squeeze hquote (by decide))⟩

/-- So are those that are printed of a text whose quotes are replaced. -/
theorem evalWords_awkText {xs : List (Text × Text)} (hkept : m.KeepsLines xs)
    (hxs : ∀ x ∈ xs, Printed (sedQuotes t) x) (env : Env) :
    evalWords m.glob env (commandSubst (awkText xs)) = some (assignAll env (squeezeAll xs)) :=
  m.evalWords_lines hkept (fun x hx => ⟨(hxs x hx).name, fun hquote =>
    (ne_of_mem_sedQuotes ((hxs x hx).value _ hquote).1).1 rfl⟩) env

/-- Without patterns in the names and values, all words are kept. -/
theorem keepsLines_of_chars {xs : List (Text × Text)}
    (hxs : ∀ x ∈ xs, ∀ c ∈ x.1 ++ x.2, isWild c = false) : m.KeepsLines xs := by
  intro w hw
  refine m.globs fun c hc => ?_
  have hmem : c ∈ awkText xs :=
    (List.rdropWhile_prefix _ (awkText xs)).subset (mem_of_mem_words hw hc)
  obtain ⟨x, hx, hline⟩ := List.mem_flatMap.mp hmem
  rw [awkLine] at hline
  simp only [List.mem_append, List.mem_cons, List.not_mem_nil, or_false] at hline
  rcases hline with ((hname | rfl | rfl | hvalue) | rfl) | rfl
  · exact hxs x hx c (List.mem_append_left _ hname)
  · rfl
  · rfl
  · exact hxs x hx c (List.mem_append_right _ hvalue)
  · rfl
  · rfl

/-- Without patterns in the text, all words are kept. -/
theorem keepsLines_of_not_wild (hwild : ∀ c ∈ t, isWild c = false) {xs : List (Text × Text)}
    (hxs : ∀ x ∈ xs, Printed (sedQuotes t) x) : m.KeepsLines xs := by
  refine m.keepsLines_of_chars fun x hx c hc => not_wild_sedQuotes hwild c ?_
  rcases List.mem_append.mp hc with hname | hvalue
  · exact (hxs x hx).chars c hname
  · exact ((hxs x hx).value c hvalue).1

/-- What the first evaluation sets, and the second. -/
def firstSet (t : Text) : List (Text × Text) :=
  squeezeAll (keyValues (sedQuotes (t.map crToNewline)))

def secondSet (t : Text) : List (Text × Text) := squeezeAll (valueKeys (sedQuotes t))

/-- No word of what is evaluated is replaced. -/
structure Keeps (t : Text) : Prop where
  keys : m.KeepsLines (keyValues (sedQuotes (t.map crToNewline)))
  values : m.KeepsLines (valueKeys (sedQuotes t))

theorem keeps_of_not_wild (hwild : ∀ c ∈ t, isWild c = false) : m.Keeps t where
  keys := by
    refine m.keepsLines_of_not_wild (t := t.map crToNewline) (fun c hc => ?_)
      fun x hx => printed_of_keyValues hx
    obtain ⟨d, hd, rfl⟩ := List.mem_map.mp hc
    unfold crToNewline
    split
    · rfl
    · exact hwild d hd
  values := m.keepsLines_of_not_wild hwild fun _ hx => printed_of_valueKeys hx

/-- **The evaluations** are assignments, whatever the text is. -/
theorem evalBoth_eq (hkept : m.Keeps t) (env : Env) :
    m.evalBoth env t = if readArgsNames.any fun n => assignAll env (firstSet t) n ≠ env n then none
      else some (assignAll (assignAll env (firstSet t)) (secondSet t)) := by
  have hkeys : m.evalKeys env t = some (assignAll env (firstSet t)) :=
    m.evalWords_awkText hkept.keys (fun _ hx => printed_of_keyValues hx) env
  have hvalues : ∀ env, m.evalValues env t = some (assignAll env (secondSet t)) :=
    m.evalWords_awkText hkept.values fun _ hx => printed_of_valueKeys hx
  rw [evalBoth, hkeys, Option.bind_eq_bind, Option.bind_some, hvalues]

end Machine

end AltF.Cgi
