/-
  Cgi/Encoded.lean --- forms as a browser sends them: the encoding of what is entered,
  `httpd -d`, which undoes it, and `read_args` on such a body.

  Encoded text has no quotes, blanks or separators.  Its one pattern is `*`, and every word
  that `read_args` expands has a `=` in it, which no file of the cgi directory has.
-/
import AltF.Cgi.ArgsSent

set_option autoImplicit false

namespace AltF.Cgi

open AltF.Shell AltF.SysFiles

/-! ## Encoding -/

/-- A character that a browser sends as it is. -/
def isUnreserved (c : Char) : Bool := c.isAlphanum || "*-._".toList.contains c

def hexDigit (n : Nat) : Char := "0123456789ABCDEF".toList.getD n '0'

/-- `application/x-www-form-urlencoded`, of a byte. -/
def encodeChar (c : Char) : Text :=
  if isUnreserved c then [c]
  else if c = ' ' then ['+']
  else ['%', hexDigit (c.toNat / 16), hexDigit (c.toNat % 16)]

def urlencode (t : Text) : Text := t.flatMap encodeChar

/-- The value of a digit. -/
def hexValue (c : Char) : Option Nat :=
  if c.isDigit then some (c.toNat - 48)
  else if 'a' ≤ c ∧ c ≤ 'f' then some (c.toNat - 87)
  else if 'A' ≤ c ∧ c ≤ 'F' then some (c.toNat - 55)
  else none

/-- `httpd -d` -/
def httpdDecode : Text → Text
  | [] => []
  | '+' :: t => ' ' :: httpdDecode t
  | '%' :: a :: b :: t =>
      match hexValue a, hexValue b with
      | some x, some y => Char.ofNat (16 * x + y) :: httpdDecode t
      | _, _ => '%' :: httpdDecode (a :: b :: t)
  | c :: t => c :: httpdDecode t

example : httpdDecode "a%2Bb".toList = "a+b".toList := by simp [httpdDecode, hexValue]

/-- A character stands for a byte. -/
def isByte (c : Char) : Bool := decide (c.toNat < 256)

/-- A character of encoded text. -/
def isEncodedChar (c : Char) : Bool := isUnreserved c || c == '+' || c == '%'

/-- Digits of a byte. -/
theorem hexDigit_byte : ∀ n < 256, hexValue (hexDigit (n / 16)) = some (n / 16) ∧
    hexValue (hexDigit (n % 16)) = some (n % 16) ∧ isEncodedChar (hexDigit (n / 16)) = true ∧
    isEncodedChar (hexDigit (n % 16)) = true := by
  decide +kernel

theorem httpdDecode_cons_of_ne {c : Char} (hplus : c ≠ '+') (hpercent : c ≠ '%') (t : Text) :
    httpdDecode (c :: t) = c :: httpdDecode t := by
  rw [httpdDecode]
  · exact hplus
  · exact fun a b u hc => absurd hc hpercent

theorem httpdDecode_encodeChar {c : Char} (hc : isByte c = true) (t : Text) :
    httpdDecode (encodeChar c ++ t) = c :: httpdDecode t := by
  unfold encodeChar
  split
  · rename_i hplain
    refine httpdDecode_cons_of_ne ?_ ?_ t
    all_goals
      rintro rfl
      exact absurd hplain (by decide)
  · split
    · rename_i hspace
      rw [hspace]
      rfl
    · obtain ⟨hhigh, hlow, -⟩ := hexDigit_byte c.toNat (of_decide_eq_true hc)
      have hsum : 16 * (c.toNat / 16) + c.toNat % 16 = c.toNat := Nat.div_add_mod _ _
      simp only [List.cons_append, List.nil_append, httpdDecode, hhigh, hlow, hsum,
        Char.ofNat_toNat]

/-- Encoded text is decoded, whatever is behind it. -/
theorem httpdDecode_urlencode_append {t : Text} (ht : t.all isByte = true) (u : Text) :
    httpdDecode (urlencode t ++ u) = t ++ httpdDecode u := by
  induction t with
  | nil => rfl
  | cons c t ih =>
      rw [List.all_cons, Bool.and_eq_true] at ht
      rw [urlencode, List.flatMap_cons, List.append_assoc, httpdDecode_encodeChar ht.1]
      exact congrArg (c :: ·) (ih ht.2)

/-- **Decoding undoes the encoding** of bytes. -/
theorem httpdDecode_urlencode {t : Text} (ht : t.all isByte = true) :
    httpdDecode (urlencode t) = t := by
  have happend := httpdDecode_urlencode_append ht []
  rwa [List.append_nil, httpdDecode, List.append_nil] at happend

/-- Text without `+` and `%` stays. -/
theorem httpdDecode_append_of_not_mem {t : Text} (hplus : '+' ∉ t) (hpercent : '%' ∉ t)
    (u : Text) : httpdDecode (t ++ u) = t ++ httpdDecode u := by
  induction t with
  | nil => rfl
  | cons c t ih =>
      rw [List.mem_cons, not_or] at hplus hpercent
      rw [List.cons_append, httpdDecode_cons_of_ne (Ne.symm hplus.1) (Ne.symm hpercent.1),
        ih hplus.2 hpercent.2, List.cons_append]

theorem httpdDecode_of_not_mem {t : Text} (hplus : '+' ∉ t) (hpercent : '%' ∉ t) :
    httpdDecode t = t := by
  have happend := httpdDecode_append_of_not_mem hplus hpercent []
  rwa [List.append_nil, httpdDecode, List.append_nil] at happend

/-- `%` in front of what is no code. -/
theorem httpdDecode_percent {a b : Char} (h : hexValue a = none ∨ hexValue b = none) (t : Text) :
    httpdDecode ('%' :: a :: b :: t) = '%' :: httpdDecode (a :: b :: t) := by
  rw [httpdDecode]
  cases ha : hexValue a with
  | none => rfl
  | some x => rw [h.resolve_left (by rw [ha]; exact Option.some_ne_none x)]

/-- Text behind a character that is in no code is decoded by itself. -/
theorem httpdDecode_append_cons {c : Char} (hc : hexValue c = none) (t u : Text) :
    httpdDecode (t ++ c :: u) = httpdDecode t ++ httpdDecode (c :: u) := by
  have hpercent : ∀ u, httpdDecode ('%' :: c :: u) = '%' :: httpdDecode (c :: u) := by
    intro u
    cases u with
    | nil => simp [httpdDecode]
    | cons d u => exact httpdDecode_percent (.inl hc) u
  induction t using httpdDecode.induct with
  | case1 => rfl
  | case2 t ih => simp only [List.cons_append, httpdDecode, ih]
  | case3 a b t x y hb ha ih => simp only [List.cons_append, httpdDecode, ha, hb, ih]
  | case4 a b t hcode ih =>
      have hnone : hexValue a = none ∨ hexValue b = none := by
        cases ha : hexValue a with
        | none => exact Or.inl rfl
        | some x =>
            cases hb : hexValue b with
            | none => exact Or.inr rfl
            | some y => exact absurd (hcode x y ha hb) not_false
      rw [List.cons_append, List.cons_append, List.cons_append, httpdDecode_percent hnone,
        httpdDecode_percent hnone, List.cons_append]
      exact congrArg ('%' :: ·) ih
  | case5 d t hplus hcode ih =>
      by_cases hd : d = '%'
      · subst hd
        rcases t with - | ⟨a, - | ⟨b, t⟩⟩
        · exact hpercent u
        · rw [List.cons_append, List.cons_append, List.nil_append,
            httpdDecode_percent (.inr hc)]
          exact congrArg ('%' :: ·) ih
        · exact absurd (hcode a b t rfl rfl) not_false
      · rw [List.cons_append, httpdDecode_cons_of_ne hplus hd, ih,
          httpdDecode_cons_of_ne hplus hd, List.cons_append]
theorem isEncodedChar_of_mem {t : Text} (ht : t.all isByte = true) {c : Char}
    (hc : c ∈ urlencode t) : isEncodedChar c = true := by
  obtain ⟨d, hd, hmem⟩ := List.mem_flatMap.mp hc
  have hbyte := of_decide_eq_true (List.all_eq_true.mp ht d hd)
  unfold encodeChar at hmem
  split at hmem
  · rename_i hplain
    rw [List.mem_singleton.mp hmem, isEncodedChar, hplain]
    rfl
  · split at hmem
    · rw [List.mem_singleton.mp hmem]
      rfl
    · obtain ⟨-, -, hhigh, hlow⟩ := hexDigit_byte d.toNat hbyte
      simp only [List.mem_cons, List.not_mem_nil, or_false] at hmem
      rcases hmem with rfl | rfl | rfl
      · rfl
      · exact hhigh
      · exact hlow

theorem urlencode_ne_nil {t : Text} (ht : t ≠ []) : urlencode t ≠ [] := by
  cases t with
  | nil => exact absurd rfl ht
  | cons c t =>
      have hchar : encodeChar c ≠ [] := by
        unfold encodeChar
        split
        · exact List.cons_ne_nil _ _
        · split <;> exact List.cons_ne_nil _ _
      exact fun h => hchar (List.append_eq_nil_iff.mp h).1

/-! ## The machine of a page -/

/-- The shell of a page, in the directory of the cgi scripts, where no file has `=` or `%`
in its name. -/
structure PageMachine extends Machine where
  echo : List Text → Text
  echoes : Echoes echo
  files : ∀ {w : Text}, '=' ∈ w ∨ '%' ∈ w → glob w = [w]

/-- A page where no pattern matches. -/
def plainPage : PageMachine where
  toMachine := plainMachine
  echo ws := join ws ++ ['\n']
  echoes := ⟨fun _ => rfl⟩
  files := fun _ => rfl

/-! ## Encoded bodies -/

section Body

variable {xs : List (Text × Text)}

/-- Pairs as a browser sends them. -/
structure EncodedPairs (xs : List (Text × Text)) : Prop where
  keys : ∀ x ∈ xs, isAwkName x.1 = true
  values : ∀ x ∈ xs, x.2.all isEncodedChar = true

/-- Neither separators nor quotes nor blanks are among the encoded characters. -/
theorem encodedChar_ne {c d : Char} (hc : isEncodedChar c = true)
    (hd : isEncodedChar d = false) : c ≠ d := by
  rintro rfl
  rw [hc] at hd
  cases hd

theorem not_blank_of_isEncodedChar {c : Char} (hc : isEncodedChar c = true) :
    isBlank c = false := by
  have hspace := encodedChar_ne hc (d := ' ') rfl
  have htab := encodedChar_ne hc (d := '\t') rfl
  have hline := encodedChar_ne hc (d := '\n') rfl
  simp [isBlank, hspace, htab, hline]

theorem EncodedPairs.mem_body (h : EncodedPairs xs) {c : Char} (hc : c ∈ bodyText xs) :
    c = '&' ∨ c = '=' ∨ isNameChar c = true ∨ isEncodedChar c = true := by
  rcases mem_bodyText hc with hc | hc | ⟨x, hx, hc | hc⟩
  · exact .inl hc
  · exact .inr (.inl hc)
  · have hname := all_isNameChar (isName_of_isAwkName (h.keys x hx))
    exact .inr (.inr (.inl (List.all_eq_true.mp hname c hc)))
  · exact .inr (.inr (.inr (List.all_eq_true.mp (h.values x hx) c hc)))

theorem EncodedPairs.notMem (h : EncodedPairs xs) {c : Char} (hname : isNameChar c = false)
    (hencoded : isEncodedChar c = false) (hamp : c ≠ '&') (hequal : c ≠ '=') :
    c ∉ bodyText xs := fun hc => by
  rcases h.mem_body hc with h | h | h | h
  · exact hamp h
  · exact hequal h
  · exact absurd (hname.symm.trans h) Bool.false_ne_true
  · exact absurd (hencoded.symm.trans h) Bool.false_ne_true

theorem EncodedPairs.separate (h : EncodedPairs xs) : Separate xs where
  keys := fun x hx => isName_of_isAwkName (h.keys x hx)
  values := fun x hx =>
    have hchars := List.all_eq_true.mp (h.values x hx)
    ⟨fun hc => absurd (hchars _ hc) (by decide), fun hc => absurd (hchars _ hc) (by decide)⟩

/-- The body is one word. -/
theorem EncodedPairs.not_blank (h : EncodedPairs xs) : ∀ c ∈ bodyText xs, isBlank c = false := by
  intro c hc
  rcases h.mem_body hc with rfl | rfl | hname | hencoded
  · rfl
  · rfl
  · exact not_blank_of_isNameChar hname
  · exact not_blank_of_isEncodedChar hencoded

theorem EncodedPairs.readLine (h : EncodedPairs xs) :
    AltF.Cgi.readLine (bodyText xs) = bodyText xs := by
  rw [readLine_eq_trim (h.notMem rfl rfl (by decide) (by decide))
    (h.notMem rfl rfl (by decide) (by decide)), trim]
  have hdrop : (bodyText xs).dropWhile isBlank = bodyText xs :=
    dropWhile_of_startsSolid fun c hc => h.not_blank c (List.mem_of_mem_head? hc)
  rw [hdrop, List.rdropWhile_eq_self_iff]
  intro hne hblank
  rw [h.not_blank _ (List.getLast_mem hne)] at hblank
  cases hblank

/-- `echo` prints the body, for it is one word that no file matches. -/
theorem EncodedPairs.echoArgs (h : EncodedPairs xs) (m : PageMachine) :
    m.echoArgs (bodyText xs) = bodyText xs := by
  by_cases hne : xs = []
  · rw [hne, Machine.echoArgs]
    exact m.echons fun w hw => absurd hw (Option.not_mem_none w)
  · have hequal := equal_mem_bodyText hne
    have hwords : words (bodyText xs) = [bodyText xs] :=
      words_eq_singleton (List.ne_nil_of_mem hequal) h.not_blank
    have hhead : ∀ w ∈ [bodyText xs].head?, isEchoOption w = false := by
      rintro w ⟨⟩
      exact isEchoOption_of_mem hequal (by decide)
    rw [Machine.echoArgs, expand, hwords, List.flatMap_singleton, m.files (.inl hequal),
      m.echons hhead, join_singleton]

/-- Lines without blanks in them are the words. -/
theorem words_awkText (hxs : ∀ x ∈ xs, ∀ c ∈ awkLine x, isBlank c = false) :
    words (commandSubst (awkText xs)) = xs.map awkLine := by
  have hne : ∀ x : Text × Text, awkLine x ≠ [] := fun x => by simp [awkLine]
  have hwords : words (awkText xs) = xs.map awkLine := by
    induction xs with
    | nil => rfl
    | cons x xs ih =>
        have hrest := ih fun y hy => hxs y (List.mem_cons_of_mem x hy)
        have hsplit : awkText (x :: xs) = awkLine x ++ '\n' :: awkText xs := by simp [awkText]
        rw [hsplit, words_append_cons _ _ rfl, hrest,
          words_eq_singleton (hne x) (hxs x List.mem_cons_self)]
        rfl
  rcases List.eq_nil_or_concat xs with rfl | ⟨ys, y, rfl⟩
  · rfl
  · have hlast : awkText (ys ++ [y]) = awkText ys ++ awkLine y ++ '\n' :: [] := by simp [awkText]
    rw [List.concat_eq_append] at hwords ⊢
    rw [commandSubst_awkText, ← hwords, hlast, words_append_cons _ _ rfl, words_nil,
      List.append_nil]

theorem sedQuotes_body (h : EncodedPairs xs) : sedQuotes (bodyText xs) = bodyText xs :=
  sedQuotes_of_not_mem (h.notMem rfl rfl (by decide) (by decide))
    (h.notMem rfl rfl (by decide) (by decide))

theorem map_crToNewline_body (h : EncodedPairs xs) :
    (bodyText xs).map crToNewline = bodyText xs := by
  have hcr := h.notMem (c := '\r') rfl rfl (by decide) (by decide)
  have hchar : ∀ c ∈ bodyText xs, crToNewline c = c := fun c hc =>
    if_neg fun hc' : c = '\r' => hcr (hc' ▸ hc)
  rw [List.map_congr_left hchar, List.map_id']

/-- The pairs whose value is a name, turned around. -/
def swapped (xs : List (Text × Text)) : List (Text × Text) :=
  (xs.filter fun x => isAwkName x.2).map fun x => (x.2, x.1)

theorem squeezeAll_of_solid {ys : List (Text × Text)}
    (hys : ∀ y ∈ ys, ∀ c ∈ y.2, isBlank c = false) : squeezeAll ys = ys := by
  have hsame : ∀ y ∈ ys, (y.1, squeeze y.2) = y := fun y hy => by
    rw [squeeze_of_not_blank (hys y hy)]
  rw [squeezeAll, List.map_congr_left hsame, List.map_id']

/-- **Encoded bodies.**  The variables are set as the pairs say, and then as the pairs turned
around say. -/
theorem PageMachine.readArgs_encoded (m : PageMachine) (h : EncodedPairs xs) (env : Env) :
    m.readArgs env (bodyText xs) =
      if readArgsNames.any fun n =>
        assignAll (Machine.startEnv env (bodyText xs)) xs n ≠
          Machine.startEnv env (bodyText xs) n
      then none
      else some (assignAll (assignAll (Machine.startEnv env (bodyText xs)) xs) (swapped xs)) := by
  have hvalues : ∀ x ∈ xs, ∀ c ∈ x.2, isBlank c = false := fun x hx c hc =>
    not_blank_of_isEncodedChar (List.all_eq_true.mp (h.values x hx) c hc)
  have hkeys : ∀ x ∈ xs, ∀ c ∈ x.1, isBlank c = false := fun x hx =>
    not_blank_of_isName (isName_of_isAwkName (h.keys x hx))
  have hfirst : keyValues (sedQuotes ((bodyText xs).map crToNewline)) = xs := by
    rw [map_crToNewline_body h, sedQuotes_body h, h.separate.keyValues]
    exact List.filter_eq_self.mpr h.keys
  have hsecond : valueKeys (sedQuotes (bodyText xs)) = swapped xs := by
    rw [sedQuotes_body h, h.separate.valueKeys]
    rfl
  have hline : ∀ x : Text × Text, (∀ c ∈ x.1, isBlank c = false) → (∀ c ∈ x.2, isBlank c = false) →
      ∀ c ∈ awkLine x, isBlank c = false := by
    intro x hname hvalue c hc
    simp only [awkLine, List.mem_append, List.mem_cons, List.not_mem_nil, or_false] at hc
    rcases hc with (hc | rfl | rfl | hc) | rfl
    · exact hname c hc
    · rfl
    · rfl
    · exact hvalue c hc
    · rfl
  -- every word that is expanded is a line, and has a `=`
  have hkept : ∀ ys : List (Text × Text), (∀ y ∈ ys, ∀ c ∈ awkLine y, isBlank c = false) →
      m.KeepsLines ys := by
    intro ys hys w hw
    rw [words_awkText hys] at hw
    obtain ⟨y, -, rfl⟩ := List.mem_map.mp hw
    exact m.files (.inl (by simp [awkLine]))
  have hswapped : ∀ y ∈ swapped xs,
      (∀ c ∈ y.1, isBlank c = false) ∧ ∀ c ∈ y.2, isBlank c = false := by
    intro y hy
    obtain ⟨x, hx, rfl⟩ := List.mem_map.mp hy
    have hx' := (List.mem_filter.mp hx).1
    exact ⟨hvalues x hx', hkeys x hx'⟩
  have hkeeps : m.Keeps (bodyText xs) := by
    constructor
    · rw [hfirst]
      exact hkept xs fun x hx => hline x (hkeys x hx) (hvalues x hx)
    · rw [hsecond]
      exact hkept _ fun y hy => hline y (hswapped y hy).1 (hswapped y hy).2
  rw [Machine.readArgs, h.readLine, h.echoArgs m, m.evalBoth_eq hkeeps, Machine.firstSet, hfirst,
    Machine.secondSet, hsecond, squeezeAll_of_solid hvalues,
    squeezeAll_of_solid fun y hy => (hswapped y hy).2]

/-- **Forms that arrive**: with distinct keys and no value that is a name, the variables of
the fields have the values, and the others are as they were. -/
theorem PageMachine.readArgs_form (m : PageMachine) (h : EncodedPairs xs)
    (hdistinct : (xs.map Prod.fst).Nodup) (hnames : ∀ x ∈ xs, x.1 ∉ readArgsNames)
    (hvalues : ∀ x ∈ xs, isAwkName x.2 = false) (env : Env) :
    ∃ env₁, m.readArgs env (bodyText xs) = some env₁ ∧ (∀ x ∈ xs, env₁ x.1 = x.2) ∧
      ∀ n, n ∉ xs.map Prod.fst → n ≠ "args".toList → env₁ n = env n := by
  have hswapped : swapped xs = [] := by
    rw [swapped, List.map_eq_nil_iff, List.filter_eq_nil_iff]
    intro x hx
    rw [hvalues x hx]
    exact Bool.false_ne_true
  obtain ⟨hset, hothers⟩ := assignAll_of_nodup hdistinct (Machine.startEnv env (bodyText xs))
  have hread := m.readArgs_encoded h env
  rw [if_neg, hswapped] at hread
  · refine ⟨_, hread, hset, fun n hn hargs => ?_⟩
    exact (hothers n hn).trans (Function.update_of_ne hargs _ _)
  · rw [List.any_eq_true]
    rintro ⟨n, hn, hne⟩
    refine of_decide_eq_true hne (hothers n fun hmem => ?_)
    obtain ⟨x, hx, rfl⟩ := List.mem_map.mp hmem
    exact hnames x hx hn

end Body

/-! ## Variables -/

/-- `$(eval echo \$n)` -/
def PageMachine.echoVar (m : PageMachine) (env : Env) (n : Text) : Text :=
  commandSubst (m.echo (expand m.glob (env n)))

theorem PageMachine.echoVar_nil (m : PageMachine) {env : Env} {n : Text} (hn : env n = []) :
    m.echoVar env n = [] := by
  have hecho : m.echo [] = ['\n'] := m.echoes.plain fun w hw => absurd hw (Option.not_mem_none w)
  rw [echoVar, hn, expand, words_nil, List.flatMap_nil, hecho]
  rfl

/-- Encoded text that is no option and that no file name replaces comes out as it is. -/
theorem PageMachine.echoVar_kept (m : PageMachine) {env : Env} {n v : Text} (hn : env n = v)
    (hv : v.all isEncodedChar = true) (hne : v ≠ []) (hoption : isEchoOption v = false)
    (hkept : m.glob v = [v]) : m.echoVar env n = v := by
  have hblank : ∀ c ∈ v, isBlank c = false := fun c hc =>
    not_blank_of_isEncodedChar (List.all_eq_true.mp hv c hc)
  have hhead : ∀ w ∈ [v].head?, isEchoOption w = false := by
    intro w hw
    obtain rfl := Option.some.inj hw
    exact hoption
  have hline : '\n' ∉ v := fun hc => absurd (List.all_eq_true.mp hv _ hc) (by decide)
  rw [echoVar, hn, expand, words_eq_singleton hne hblank, List.flatMap_singleton, hkept,
    m.echoes.plain hhead, join_singleton, commandSubst_append_newline,
    commandSubst_of_not_mem hline]

/-- So does text that is no pattern or has an encoded character. -/
theorem PageMachine.echoVar_encoded (m : PageMachine) {env : Env} {n v : Text} (hn : env n = v)
    (hv : v.all isEncodedChar = true) (hne : v ≠ []) (hoption : isEchoOption v = false)
    (hglob : (∀ c ∈ v, isWild c = false) ∨ '%' ∈ v) : m.echoVar env n = v := by
  refine m.echoVar_kept hn hv hne hoption ?_
  rcases hglob with hwild | hpercent
  · exact m.globs hwild
  · exact m.files (.inr hpercent)

end AltF.Cgi
