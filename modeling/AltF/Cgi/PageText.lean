/-
  Cgi/PageText.lean --- common.sh: `http_encode` and `url_encode`, which make a text ready
  for a page and for a link.

  The first is a sed script of one rule for each character.  No rule rewrites what another has
  put in, for it has no character of a rule but the `&` of the first.
-/
import AltF.Cgi.Encoded
import AltF.Cgi.UploadEval
import AltF.Foundation.Substitution
import AltF.SysFiles.Sections

set_option autoImplicit false

namespace AltF.Cgi

open AltF.Foundation AltF.Shell AltF.SysFiles

/-! ## sed -/

/-- A text between double quotes that expands nothing. -/
def doubleQuoted : Text → Text
  | [] => []
  | '\\' :: c :: t =>
      if "$\x60\"\\".toList.contains c then c :: doubleQuoted t
      else '\\' :: c :: doubleQuoted t
  | c :: t => c :: doubleQuoted t

/-- A character that stands for itself in a pattern of sed. -/
def isPatternChar (c : Char) : Bool := !".*[]^$\\/".toList.contains c

/-- A character that stands for itself behind a backslash. -/
def isEscapable (c : Char) : Bool := "&.*[]^$\\/".toList.contains c

/-- The replacement, and `/g`. -/
def readReplacement : Text → Option Text
  | ['/', 'g'] => some []
  | '\\' :: c :: t =>
      if isEscapable c then (c :: ·) <$> readReplacement t else none
  | c :: t => if c == '&' || c == '/' then none else (c :: ·) <$> readReplacement t
  | [] => none

/-- `s/c/text/g` -/
def readRule : Text → Option (Char × Text)
  | 's' :: '/' :: '\\' :: c :: '/' :: t =>
      if isEscapable c then (c, ·) <$> readReplacement t else none
  | 's' :: '/' :: c :: '/' :: t =>
      if isPatternChar c then (c, ·) <$> readReplacement t else none
  | _ => none

/-! ## http_encode -/

/-- The script, as it stands between the quotes. -/
def httpEncodeScript : List Text := [
  "s/\\&/\\&#x26;/g",
  "s/ /\\&#x20;/g",
  "s/\\\"/\\&#x22;/g",
  "s/'/\\&#x27;/g",
  "s/(/\\&#x28;/g",
  "s/)/\\&#x29;/g",
  "s/\\*/\\&#x2a;/g",
  "s/+/\\&#x2b;/g",
  "s/,/\\&#x2c;/g",
  "s/-/\\&#x2d;/g",
  "s/\\./\\&#x2e;/g",
  "s/\\//\\&#x2f;/g",
  "s/:/\\&#x3a;/g",
  "s/</\\&#x3c;/g",
  "s/=/\\&#x3d;/g",
  "s/>/\\&#x3e;/g",
  "s/?/\\&#x3f;/g",
  "s/@/\\&#x40;/g",
  "s/\\[/\\&#x5b;/g",
  "s/\\\\\\/\\&#x5c;/g",
  "s/\\]/\\&#x5d;/g",
  "s/\\^/\\&#x5e;/g",
  "s/_/\\&#x5f;/g",
  "s/\\\x60/\\&#x60;/g",
  "s/\x7b/\\&#x7b;/g",
  "s/|/\\&#x7c;/g",
  "s/\x7d/\\&#x7d;/g",
  "s/~/\\&#x7e;/g"].map String.toList

/-- The rules that sed reads. -/
def sedRules : Option (List (Char × Text)) :=
  httpEncodeScript.mapM fun l => readRule (doubleQuoted l)

/-- `echo "$1" | sed "..."`, line by line; no rule is about the newline. -/
def httpEncode (echo : List Text → Text) (s : Text) : Option Text :=
  sedRules.map fun rules => (splitLines (echo [s])).flatMap (substitute rules)

/-! ## Entities -/

/-- The digits of a number, as in the entities. -/
def lowerDigit (n : Nat) : Char := "0123456789abcdef".toList.getD n '0'

/-- `&#xHH;` -/
def entity (c : Char) : Text :=
  "&#x".toList ++ [lowerDigit (c.toNat / 16), lowerDigit (c.toNat % 16), ';']

/-- The characters with a rule. -/
def encodedChars : Text := "& \"'()*+,-./:<=>?@[\\]^_\x60\x7b|\x7d~".toList

/-- What is printed for a character. -/
def pageChar (c : Char) : Text := if encodedChars.contains c then entity c else [c]

/-- Each entity becomes its character. -/
def readEntities : Text → Text
  | '&' :: '#' :: 'x' :: a :: b :: ';' :: t =>
      match hexValue a, hexValue b with
      | some x, some y => Char.ofNat (16 * x + y) :: readEntities t
      | _, _ => '&' :: readEntities ('#' :: 'x' :: a :: b :: ';' :: t)
  | c :: t => c :: readEntities t
  | [] => []

example : readEntities "a&#x29;".toList = "a)".toList := by simp [readEntities, hexValue]

/-- The rules are about different characters, each with its own entity. -/
theorem sedRules_eq : sedRules = some (encodedChars.map fun c => (c, entity c)) := by
  decide +kernel

/-- No entity has the character of a later rule in it. -/
theorem fresh_rules : Fresh (encodedChars.map fun c => (c, entity c)) := by
  rw [Fresh, List.pairwise_map]
  decide +kernel

theorem image_rules : image (encodedChars.map fun c => (c, entity c)) = pageChar := by
  funext c
  rw [image_map, pageChar]
  simp only [List.contains_iff_mem]

/-- **The script** replaces each character. -/
theorem httpEncode_eq {echo : List Text → Text} (hecho : Echoes echo) {s : Text}
    (hs : isEchoOption s = false) :
    httpEncode echo s = some (s.flatMap pageChar ++ ['\n']) := by
  have hprinted : echo [s] = s ++ ['\n'] := by
    rw [hecho.plain fun w hw => by rwa [← Option.mem_some_iff.mp hw], join_singleton]
  have hlines : ∀ ls : List Text,
      ls.flatMap (substitute (encodedChars.map fun c => (c, entity c))) =
        ls.flatten.flatMap pageChar := by
    intro ls
    rw [List.flatten_eq_flatMap, List.flatMap_assoc]
    refine List.flatMap_congr fun l _ => ?_
    rw [substitute_eq fresh_rules, image_rules]
    rfl
  rw [httpEncode, sedRules_eq, Option.map_some, hlines, flatten_splitLines, hprinted,
    List.flatMap_append]
  rfl

/-! ## What a page has of it -/

/-- The text of a page for a string. -/
structure Encodes (s out : Text) : Prop where
  plain : ∀ c ∈ "<>\"'".toList, c ∉ out
  /-- each `&` begins the entity of a character of the string -/
  marks : ∀ u v, out = u ++ '&' :: v → ∃ front c behind, s = front ++ c :: behind ∧
    c ∈ encodedChars ∧ u = front.flatMap pageChar ∧
    '&' :: v = entity c ++ behind.flatMap pageChar
  read : readEntities out = s

theorem entity_digits : ∀ c ∈ encodedChars, hexValue (lowerDigit (c.toNat / 16)) =
    some (c.toNat / 16) ∧ hexValue (lowerDigit (c.toNat % 16)) = some (c.toNat % 16) :=
  forall_of_all (by decide +kernel)

/-- But for the `&`, an entity has no character with a rule. -/
theorem entity_tail : ∀ c ∈ encodedChars,
    (entity c).tail.all (fun d => !encodedChars.contains d) = true :=
  forall_of_all (by decide +kernel)

theorem notMem_of_encoded {c d : Char} (hd : d ∈ encodedChars) : d ∉ (pageChar c).tail := by
  unfold pageChar
  split
  · rename_i hc
    intro hmem
    have hnot := List.all_eq_true.mp (entity_tail c (List.contains_iff_mem.mp hc)) d hmem
    rw [List.contains_iff_mem.mpr hd] at hnot
    cases hnot
  · exact List.not_mem_nil

/-- What a character becomes begins with it, or with `&`. -/
theorem head?_pageChar (c : Char) :
    (pageChar c).head? = some (if encodedChars.contains c then '&' else c) := by
  unfold pageChar
  split
  · rfl
  · rfl

theorem notMem_flatMap_pageChar {d : Char} (hd : d ∈ encodedChars) (hamp : d ≠ '&') (s : Text) :
    d ∉ s.flatMap pageChar := by
  intro hmem
  obtain ⟨c, -, hdc⟩ := List.mem_flatMap.mp hmem
  rcases List.mem_cons.mp (List.cons_head?_tail (head?_pageChar c) ▸ hdc) with hhead | htail
  · split at hhead
    · exact hamp hhead
    · rename_i hc
      rw [hhead] at hd
      exact hc (List.contains_iff_mem.mpr hd)
  · exact notMem_of_encoded hd htail

theorem readEntities_cons_of_ne {c : Char} (hc : c ≠ '&') (t : Text) :
    readEntities (c :: t) = c :: readEntities t := by
  rw [readEntities]
  exact fun a b u h => absurd h hc

theorem readEntities_pageChar (c : Char) (t : Text) :
    readEntities (pageChar c ++ t) = c :: readEntities t := by
  unfold pageChar
  split
  · rename_i hc
    obtain ⟨hhigh, hlow⟩ := entity_digits c (List.contains_iff_mem.mp hc)
    have hsum : 16 * (c.toNat / 16) + c.toNat % 16 = c.toNat := Nat.div_add_mod _ _
    have hentity : entity c ++ t = '&' :: '#' :: 'x' :: lowerDigit (c.toNat / 16) ::
        lowerDigit (c.toNat % 16) :: ';' :: t := rfl
    simp only [hentity, readEntities, hhigh, hlow, hsum, Char.ofNat_toNat]
  · rename_i hc
    refine readEntities_cons_of_ne ?_ t
    rintro rfl
    exact hc rfl

theorem encodes_flatMap (s : Text) : Encodes s (s.flatMap pageChar) where
  plain := by
    intro c hc
    have hencoded : "<>\"'".toList.all encodedChars.contains = true := by decide +kernel
    have hmem := List.contains_iff_mem.mp (List.all_eq_true.mp hencoded c hc)
    refine notMem_flatMap_pageChar hmem ?_ s
    rintro rfl
    revert hc
    decide
  marks := by
    intro u v h
    have hamp : '&' ∈ encodedChars := by decide
    obtain ⟨front, c, behind, hs, hu, hv, hhead⟩ :=
      flatMap_eq_append_cons (fun c => notMem_of_encoded hamp) h
    have hc : encodedChars.contains c = true := by
      rw [head?_pageChar] at hhead
      split at hhead
      · assumption
      · obtain rfl := Option.some.inj hhead
        rfl
    refine ⟨front, c, behind, hs, List.contains_iff_mem.mp hc, hu, ?_⟩
    rw [hv, pageChar, if_pos hc]
  read := read_flatMap rfl fun c _ t => readEntities_pageChar c t

/-- **`http_encode`** prints an encoding of the string, as a line. -/
theorem httpEncode_encodes {echo : List Text → Text} (hecho : Echoes echo) {s : Text}
    (hs : isEchoOption s = false) :
    ∃ out, httpEncode echo s = some (out ++ ['\n']) ∧ Encodes s out :=
  ⟨s.flatMap pageChar, httpEncode_eq hecho hs, encodes_flatMap s⟩

/-- The text that a page captures: without the newlines at the end of the string. -/
theorem commandSubst_flatMap_pageChar (s : Text) :
    commandSubst (s.flatMap pageChar ++ ['\n']) = (commandSubst s).flatMap pageChar := by
  rw [commandSubst_append_newline]
  induction s using List.reverseRecOn with
  | nil => rfl
  | append_singleton s c ih =>
      have hchar : (s ++ [c]).flatMap pageChar = s.flatMap pageChar ++ pageChar c := by
        rw [List.flatMap_append, List.flatMap_singleton]
      by_cases hc : c = '\n'
      · have hnewline : pageChar '\n' = ['\n'] := rfl
        rw [hchar, hc, hnewline, commandSubst_append_newline, commandSubst_append_newline, ih]
      · have hlast : ∀ t : Text, (t ++ pageChar c).getLast? ≠ some '\n' := by
          intro t
          have hsemi : (entity c).getLast? = some ';' := rfl
          unfold pageChar
          rw [List.getLast?_append]
          split
          · rw [hsemi, Option.some_or]
            decide
          · simpa using hc
        rw [hchar, commandSubst_of_getLast (hlast _), commandSubst_of_getLast (by simpa using hc),
          hchar]

/-- The end tag of the bold text of a hostile name. -/
theorem httpEncode_tag : ∃ out, httpEncode plainEcho "</b>&#x41;".toList = some (out ++ ['\n']) ∧
    Encodes "</b>&#x41;".toList out :=
  httpEncode_encodes echoes_plainEcho (by decide)

/-! ## url_encode -/

/-- `echo -n "$1"`; an option is not printed. -/
def echoN (s : Text) : Text := if isEchoOption s then [] else s

/-- `%X` -/
def upperHex (n : Nat) : Text := (Nat.toDigits 16 n).map Char.toUpper

/-- `hexdump -ve '/1 "-%X"'` -/
def hexdump (t : Text) : Text := t.flatMap fun c => '-' :: upperHex c.toNat

/-- `echo -n "$1" | hexdump -ve '/1 "-%X"' | tr '-' '%'` -/
def urlEncode (s : Text) : Text := (hexdump (echoN s)).map fun c => if c = '-' then '%' else c

/-- What a byte becomes. -/
def linkChar (c : Char) : Text := '%' :: upperHex c.toNat

/-- A byte of one digit. -/
def isLow (c : Char) : Bool := decide (c.toNat < 16)

/-- Two digits, or one. -/
theorem upperHex_byte : ∀ n < 256, upperHex n =
    if n < 16 then [hexDigit n] else [hexDigit (n / 16), hexDigit (n % 16)] := by
  decide +kernel

theorem hexDigit_ne : ∀ n < 16, hexDigit n ≠ '-' ∧ hexDigit n ≠ '+' ∧ hexDigit n ≠ '%' := by
  decide +kernel

theorem tr_linkChar {c : Char} (hc : isByte c = true) :
    ('-' :: upperHex c.toNat).map (fun d => if d = '-' then '%' else d) = linkChar c := by
  have hdigits : ∀ d ∈ upperHex c.toNat, d ≠ '-' := by
    have hbyte : c.toNat < 256 := of_decide_eq_true hc
    rw [upperHex_byte c.toNat hbyte]
    intro d hd
    split at hd
    · rename_i hlow
      rw [List.mem_singleton.mp hd]
      exact (hexDigit_ne _ hlow).1
    · rcases List.mem_pair.mp hd with rfl | rfl
      · exact (hexDigit_ne _ (by omega)).1
      · exact (hexDigit_ne _ (by omega)).1
  have hsame : (upperHex c.toNat).map (fun d => if d = '-' then '%' else d) = upperHex c.toNat :=
    (List.map_congr_left fun d hd => if_neg (hdigits d hd)).trans (List.map_id' _)
  rw [List.map_cons, hsame]
  rfl

theorem urlEncode_eq {s : Text} (hs : s.all isByte = true) (hopt : isEchoOption s = false) :
    urlEncode s = s.flatMap linkChar := by
  have hecho : echoN s = s := by
    rw [echoN, hopt]
    rfl
  rw [urlEncode, hecho, hexdump, List.map_flatMap]
  exact List.flatMap_congr fun c hc => tr_linkChar (List.all_eq_true.mp hs c hc)

/-! ## What is read of a link -/

/-- Two digits are read back. -/
theorem httpdDecode_linkChar {c : Char} (hc : isByte c = true) (hhigh : isLow c = false)
    (t : Text) :
    httpdDecode (linkChar c ++ t) = c :: httpdDecode t := by
  have hbyte : c.toNat < 256 := of_decide_eq_true hc
  obtain ⟨hfirst, hsecond, -⟩ := hexDigit_byte c.toNat hbyte
  have hsum : 16 * (c.toNat / 16) + c.toNat % 16 = c.toNat := Nat.div_add_mod _ _
  rw [linkChar, upperHex_byte c.toNat hbyte, if_neg (of_decide_eq_false hhigh)]
  simp only [List.cons_append, List.nil_append, httpdDecode, hfirst, hsecond, hsum,
    Char.ofNat_toNat]

/-- One digit is not: the next character is no digit. -/
theorem httpdDecode_linkChar_of_low {c : Char} (hlow : isLow c = true) {t : Text}
    (ht : ∀ d ∈ t.head?, d = '%') :
    httpdDecode (linkChar c ++ t) = '%' :: hexDigit c.toNat :: httpdDecode t := by
  have hlt : c.toNat < 16 := of_decide_eq_true hlow
  obtain ⟨-, hplus, hpercent⟩ := hexDigit_ne c.toNat hlt
  have hdigit : linkChar c = ['%', hexDigit c.toNat] := by
    rw [linkChar, upperHex_byte c.toNat (by omega), if_pos hlt]
  have hrest := httpdDecode_cons_of_ne hplus hpercent t
  rw [hdigit, ← hrest]
  cases t with
  | nil => rfl
  | cons d t =>
      obtain rfl := ht d rfl
      have hnone : hexValue '%' = none := by decide
      rw [List.cons_append, List.cons_append, List.nil_append, httpdDecode, hnone]
      cases hexValue (hexDigit c.toNat) with
      | none => rfl
      | some n => rfl

/-- **Each low byte** is read as two characters. -/
theorem length_httpdDecode {s : Text} (hs : s.all isByte = true) :
    (httpdDecode (s.flatMap linkChar)).length = s.length + s.countP isLow := by
  induction s with
  | nil => rfl
  | cons c s ih =>
      rw [List.all_cons, Bool.and_eq_true] at hs
      have hrest := ih hs.2
      rw [List.flatMap_cons]
      cases hlow : isLow c with
      | false =>
          rw [httpdDecode_linkChar hs.1 hlow, List.countP_cons_of_neg (by simp [hlow]),
            List.length_cons, List.length_cons, hrest]
          omega
      | true =>
          have hhead : ∀ d ∈ (s.flatMap linkChar).head?, d = '%' := by
            intro d hd
            cases s with
            | nil => cases hd
            | cons c' s => exact (Option.mem_some_iff.mp hd).symm
          rw [httpdDecode_linkChar_of_low hlow hhead, List.countP_cons_of_pos hlow,
            List.length_cons, List.length_cons, List.length_cons, hrest]
          omega

/-- **`url_encode`** is undone for strings of which each byte has two digits. -/
theorem httpdDecode_urlEncode_iff {s : Text} (hs : s.all isByte = true) :
    httpdDecode (urlEncode s) = s ↔ isEchoOption s = false ∧ ∀ c ∈ s, 16 ≤ c.toNat := by
  cases hopt : isEchoOption s with
  | true =>
      have hempty : urlEncode s = [] := by
        rw [urlEncode, echoN, hopt]
        rfl
      have hne : s ≠ [] := by
        rintro rfl
        cases hopt
      rw [hempty]
      exact iff_of_false (fun h => hne h.symm) fun h => Bool.false_ne_true h.1.symm
  | false =>
      rw [urlEncode_eq hs hopt, and_iff_right rfl]
      constructor
      · intro h c hc
        have hlength := length_httpdDecode hs
        rw [h] at hlength
        have hnone : s.countP isLow = 0 := by omega
        have hhigh := List.countP_eq_zero.mp hnone c hc
        rw [isLow, decide_eq_true_iff] at hhigh
        omega
      · intro h
        refine read_flatMap rfl fun c hc t => ?_
        have hhigh : isLow c = false := decide_eq_false (by have := h c hc; omega)
        exact httpdDecode_linkChar (List.all_eq_true.mp hs c hc) hhigh t

/-- A folder with a blank, a percent sign and a letter of two bytes. -/
theorem httpdDecode_urlEncode_folder :
    httpdDecode (urlEncode "/mnt/sda2/100% Ã©".toList) =
      "/mnt/sda2/100% Ã©".toList :=
  (httpdDecode_urlEncode_iff (by decide +kernel)).mpr
    ⟨by decide, forall_of_all (by decide +kernel)⟩

/-- A folder with a tab in its name. -/
theorem not_httpdDecode_urlEncode : ¬ ∀ s : Text, s.all isByte = true →
    httpdDecode (urlEncode s) = s := by
  intro h
  exact absurd (h "/mnt/sda2/a\tb".toList (by decide +kernel)) (by decide +kernel)

end AltF.Cgi
