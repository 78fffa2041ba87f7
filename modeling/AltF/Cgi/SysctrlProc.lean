/-
  Cgi/SysctrlProc.lean --- sysctrl_proc.cgi and the daemon behind it: what the settings of
  sysctrl are after a submission of its form.

  A field that is empty or not sent is not written, and the daemon keeps what it has.
-/
import Mathlib.Data.List.Nodup
import AltF.Cgi.Encoded
import AltF.Sysctrl.Config

set_option autoImplicit false

namespace AltF.Cgi

open AltF.Foundation AltF.Shell AltF.SysFiles AltF.Sysctrl

/-! ## The form -/

/-- A checkbox. -/
def isBox (o : Opt) : Bool := [Opt.disksTemp, Opt.mail, Opt.recovery].contains o

/-- A number with or without sign. -/
def isInteger : Text → Bool
  | '-' :: t => t ≠ [] && t.all Char.isDigit
  | '+' :: t => t ≠ [] && t.all Char.isDigit
  | t => t ≠ [] && t.all Char.isDigit

/-- A character that can be typed. -/
def isTyped (c : Char) : Bool := decide (32 ≤ c.toNat) && decide (c.toNat ≠ 127) && isByte c

/-- What can be entered: `1` for a checked box and nothing for an unchecked one, numbers that
an `int` holds, one of the fan modes, and a path or nothing for a command. -/
def enters (o : Opt) (t : Text) : Bool :=
  if isBox o then t == [] || t == ['1']
  else
    match o.kind with
    | .number => isInteger t && decide (-2147483648 ≤ atoi t ∧ atoi t ≤ 2147483647)
    | .decimal => t ≠ [] && t.all fun c => c.isDigit || "+-.".toList.contains c
    | .mode => [['0'], ['1'], ['2'], ['3']].contains t
    | .command => t == [] || t.head? == some '/' && t.all isTyped

/-- A submission of the form, with the fields that the board's form has and that are not
disabled.  The address that mail is sent to stands among them. -/
structure Submission (h : Daemon) where
  top : List (Opt × Text)
  sendto : Text
  bottom : List (Opt × Text)
  distinct : ((top ++ bottom).map Prod.fst).Nodup
  entered : ∀ x ∈ top ++ bottom, enters x.1 x.2 = true
  /-- commands are files that root owns and can execute -/
  commands : ∀ x ∈ top ++ bottom, x.1.kind = .command → x.2 ≠ [] → h.executable x.2 = true
  address : sendto = [] ∨ '@' ∈ sendto ∧ sendto.all isTyped = true

/-- A field as the browser sends it: unchecked boxes are not sent. -/
def sentField (x : Opt × Text) : Option (Text × Text) :=
  if isBox x.1 && x.2 == [] then none else some (x.1.name, urlencode x.2)

namespace Submission

variable {h : Daemon} (s : Submission h)

def fields : List (Opt × Text) := s.top ++ s.bottom

def pairs : List (Text × Text) :=
  s.top.filterMap sentField ++ ("sendto".toList, urlencode s.sendto) ::
    s.bottom.filterMap sentField

end Submission

/-- The value that was submitted. -/
def submitted (h : Daemon) (o : Opt) (t : Text) : Val :=
  if isBox o then .int (if t = [] then 0 else 1)
  else
    match o.kind with
    | .number => .int (atoi t)
    | .decimal => .float (h.atof t)
    | .mode => .int (atoi t)
    | .command => .file (if t = [] then none else some t)

/-! ## The page -/

/-- The line of a field. -/
def PageMachine.confLine (m : PageMachine) (env : Env) (o : Opt) : Text :=
  let arg := m.echoVar env o.name
  if arg = [] then []
  else o.name ++ '=' :: '"' :: (commandSubst (httpdDecode arg) ++ ['"']) ++ ['\n']

/-- sysctrl_proc.cgi: the file it writes. -/
def PageMachine.sysctrlProc (m : PageMachine) (env : Env) (body : Text) : Option Text :=
  (m.readArgs (Function.update env "mail".toList ['0']) body).map fun env₁ =>
    Opt.all.flatMap (m.confLine env₁)

/-- Every field of the form has its value in the daemon that has read the file. -/
def Submission.Reaches {h : Daemon} (s : Submission h) (m : PageMachine) (env : Env)
    (args : Settings) : Prop :=
  ∃ conf args', m.sysctrlProc env (bodyText s.pairs) = some conf ∧
    h.readConfig conf args = some args' ∧ ∀ x ∈ s.fields, args' x.1 = submitted h x.1 x.2

/-- Nothing is left out that the daemon has otherwise, and every line fits. -/
structure Submission.Covered {h : Daemon} (s : Submission h) (args : Settings) : Prop where
  /-- what is unchecked or emptied was so before -/
  empty : ∀ x ∈ s.fields, x.2 = [] → x.1 ≠ .mail → args x.1 = submitted h x.1 []
  /-- 127 bytes without `#` -/
  fits : ∀ x ∈ s.fields, x.2 ≠ [] → LineFits x.1 x.2

/-! ## What is entered -/

/-- Characters of what is no command. -/
def isNumberChar (c : Char) : Bool := c.isDigit || "+-.".toList.contains c

theorem isInteger_chars {t : Text} (h : isInteger t = true) :
    t ≠ [] ∧ t.all isNumberChar = true := by
  have hdigits : ∀ u : Text, u.all Char.isDigit = true → u.all isNumberChar = true := by
    intro u hu
    refine List.all_eq_true.mpr fun c hc => ?_
    rw [isNumberChar, List.all_eq_true.mp hu c hc]
    rfl
  unfold isInteger at h
  split at h
  · rw [Bool.and_eq_true] at h
    exact ⟨List.cons_ne_nil _ _, by rw [List.all_cons, hdigits _ h.2]; rfl⟩
  · rw [Bool.and_eq_true] at h
    exact ⟨List.cons_ne_nil _ _, by rw [List.all_cons, hdigits _ h.2]; rfl⟩
  · rw [Bool.and_eq_true] at h
    exact ⟨of_decide_eq_true h.1, hdigits _ h.2⟩

/-- What is entered is a path, or has characters of numbers only; it is empty in boxes and
for commands only. -/
theorem enters_cases {o : Opt} {t : Text} (h : enters o t = true) :
    (o.kind = .command ∧ (t = [] ∨ t.head? = some '/' ∧ t.all isTyped = true)) ∨
      o.kind ≠ .command ∧ t.all isNumberChar = true ∧ (t = [] → isBox o = true) := by
  unfold enters at h
  split at h
  · rename_i hbox
    have hkind : o.kind ≠ .command := by
      have hnot : ∀ o, isBox o = true → o.kind ≠ .command := by
        intro o
        cases o <;> decide
      exact hnot o hbox
    refine Or.inr ⟨hkind, ?_, fun _ => hbox⟩
    rcases Bool.or_eq_true _ _ ▸ h with h | h
    · rw [eq_of_beq h]
      rfl
    · rw [eq_of_beq h]
      rfl
  · cases hkind : o.kind with
    | number =>
        rw [hkind, Bool.and_eq_true] at h
        obtain ⟨hne, hchars⟩ := isInteger_chars h.1
        exact Or.inr ⟨by decide, hchars, fun ht => absurd ht hne⟩
    | decimal =>
        rw [hkind, Bool.and_eq_true] at h
        exact Or.inr ⟨by decide, h.2, fun ht => absurd ht (of_decide_eq_true h.1)⟩
    | mode =>
        rw [hkind] at h
        have hmem := List.contains_iff_mem.mp h
        simp only [List.mem_cons, List.not_mem_nil, or_false] at hmem
        refine Or.inr ⟨by decide, ?_, fun ht => ?_⟩
        · rcases hmem with rfl | rfl | rfl | rfl <;> rfl
        · rw [ht] at hmem
          simp at hmem
    | command =>
        rw [hkind, Bool.or_eq_true, Bool.and_eq_true] at h
        exact Or.inl ⟨rfl, h.imp eq_of_beq fun h => ⟨eq_of_beq h.1, h.2⟩⟩

theorem sign_chars : ∀ d, "+-.".toList.contains d = true →
    d.toNat < 256 ∧ (isUnreserved d = false → d = '+') ∧ d.isAlpha = false := by
  have hall : ("+-.".toList.all fun d =>
      decide (d.toNat < 256) && (isUnreserved d || d == '+') && !d.isAlpha) = true := by
    decide +kernel
  intro d hd
  have hchar := List.all_eq_true.mp hall d (List.contains_iff_mem.mp hd)
  rw [Bool.and_eq_true, Bool.and_eq_true, Bool.or_eq_true, Bool.not_eq_true'] at hchar
  refine ⟨of_decide_eq_true hchar.1.1, fun hreserved => ?_, hchar.2⟩
  rw [hreserved] at hchar
  exact eq_of_beq (hchar.1.2.resolve_left Bool.false_ne_true)

theorem isByte_of_isNumberChar {t : Text} (h : t.all isNumberChar = true) :
    t.all isByte = true := by
  refine List.all_eq_true.mpr fun c hc => ?_
  have hchar := List.all_eq_true.mp h c hc
  rw [isNumberChar, Bool.or_eq_true] at hchar
  refine decide_eq_true ?_
  rcases hchar with hdigit | hmem
  · rw [Char.isDigit, Bool.and_eq_true] at hdigit
    have hle := of_decide_eq_true hdigit.2
    have hnat : c.toNat ≤ 57 := hle
    omega
  · exact (sign_chars c hmem).1

theorem isByte_of_isTyped {t : Text} (h : t.all isTyped = true) : t.all isByte = true := by
  refine List.all_eq_true.mpr fun c hc => ?_
  have hchar := List.all_eq_true.mp h c hc
  rw [isTyped, Bool.and_eq_true] at hchar
  exact hchar.2

theorem isByte_of_enters {o : Opt} {t : Text} (h : enters o t = true) : t.all isByte = true := by
  rcases enters_cases h with ⟨-, rfl | ⟨-, htyped⟩⟩ | ⟨-, hnumber, -⟩
  · rfl
  · exact isByte_of_isTyped htyped
  · exact isByte_of_isNumberChar hnumber

theorem newline_notMem_of_enters {o : Opt} {t : Text} (h : enters o t = true) : '\n' ∉ t := by
  intro hmem
  rcases enters_cases h with ⟨-, rfl | ⟨-, htyped⟩⟩ | ⟨-, hnumber, -⟩
  · cases hmem
  · exact absurd (List.all_eq_true.mp htyped _ hmem) (by decide)
  · exact absurd (List.all_eq_true.mp hnumber _ hmem) (by decide)

/-! ## How it is sent -/

/-- A path is sent with an encoded slash in front. -/
theorem urlencode_path {t : Text} (h : t.head? = some '/') :
    ∃ u, urlencode t = '%' :: '2' :: 'F' :: u := by
  cases t with
  | nil => cases h
  | cons c t =>
      obtain rfl := Option.some.inj h
      exact ⟨urlencode t, rfl⟩

/-- Of numbers, only the plus is encoded. -/
theorem urlencode_number {t : Text} (h : t.all isNumberChar = true) :
    ∀ c ∈ urlencode t, isNumberChar c = true ∨ c = '%' ∨ c = 'B' := by
  intro c hc
  obtain ⟨d, hd, hmem⟩ := List.mem_flatMap.mp hc
  have hchar := List.all_eq_true.mp h d hd
  unfold encodeChar at hmem
  split at hmem
  · rw [List.mem_singleton.mp hmem]
    exact Or.inl hchar
  · rename_i hreserved
    rw [isNumberChar, Bool.or_eq_true] at hchar
    have hplus : d = '+' := by
      rcases hchar with hdigit | hsign
      · exact absurd (by simp [isUnreserved, Char.isAlphanum, hdigit]) hreserved
      · exact (sign_chars d hsign).2.1 (Bool.not_eq_true _ ▸ hreserved)
    subst hplus
    have hcode : c ∈ ['%', '2', 'B'] := hmem
    simp only [List.mem_cons, List.not_mem_nil, or_false] at hcode
    rcases hcode with rfl | rfl | rfl
    · exact Or.inr (Or.inl rfl)
    · exact Or.inl rfl
    · exact Or.inr (Or.inr rfl)

theorem head_urlencode (c : Char) (t : Text) :
    (urlencode (c :: t)).head? = some c ∨ (urlencode (c :: t)).head? = some '+' ∨
      (urlencode (c :: t)).head? = some '%' := by
  have hchar : encodeChar c = [c] ∨ encodeChar c = ['+'] ∨
      encodeChar c = ['%', hexDigit (c.toNat / 16), hexDigit (c.toNat % 16)] := by
    unfold encodeChar
    split
    · exact Or.inl rfl
    · split
      · exact Or.inr (Or.inl rfl)
      · exact Or.inr (Or.inr rfl)
  rw [urlencode, List.flatMap_cons]
  rcases hchar with h | h | h
  · rw [h]
    exact Or.inl rfl
  · rw [h]
    exact Or.inr (Or.inl rfl)
  · rw [h]
    exact Or.inr (Or.inr rfl)

theorem isAwkName_eq_false {t : Text} (h : ∀ c ∈ t.head?, c.isAlpha = false) :
    isAwkName t = false := by
  cases t with
  | nil => rfl
  | cons c t => rw [isAwkName, h c rfl, Bool.false_and]

theorem not_alpha_of_isNumberChar {c : Char} (h : isNumberChar c = true) : c.isAlpha = false := by
  rw [isNumberChar, Bool.or_eq_true] at h
  rcases h with hdigit | hsign
  · cases halpha : c.isAlpha with
    | false => rfl
    | true =>
        rw [Char.isDigit, Bool.and_eq_true] at hdigit
        have hle : c.toNat ≤ 57 := of_decide_eq_true hdigit.2
        rcases (Bool.or_eq_true c.isUpper c.isLower).mp halpha with hupper | hlower
        · have hge : 65 ≤ c.toNat := (of_decide_eq_true hupper).1
          omega
        · have hge : 97 ≤ c.toNat := of_decide_eq_true ((Bool.and_eq_true _ _).mp hlower).1
          omega
  · exact (sign_chars c hsign).2.2

/-- Sent text is no name of a variable, no option of `echo`, and no pattern that a file could
match. -/
structure SentPlain (v : Text) : Prop where
  name : isAwkName v = false
  option : isEchoOption v = false
  glob : (∀ c ∈ v, isWild c = false) ∨ '%' ∈ v

theorem sentPlain_path {t : Text} (h : t.head? = some '/') : SentPlain (urlencode t) := by
  obtain ⟨u, hu⟩ := urlencode_path h
  rw [hu]
  exact ⟨rfl, rfl, Or.inr List.mem_cons_self⟩

theorem sentPlain_number {t : Text} (h : t.all isNumberChar = true) : SentPlain (urlencode t) := by
  have hchars := urlencode_number h
  have hother : ∀ {c : Char}, c ∈ urlencode t → ∀ {d : Char}, isNumberChar d = false → d ≠ '%' →
      d ≠ 'B' → c ≠ d := by
    rintro c hc d hd hpercent hletter rfl
    rcases hchars c hc with hnumber | hc | hc
    · rw [hd] at hnumber
      cases hnumber
    · exact hpercent hc
    · exact hletter hc
  constructor
  · apply isAwkName_eq_false
    intro c hc
    cases t with
    | nil => cases hc
    | cons d t =>
        rw [List.all_cons, Bool.and_eq_true] at h
        rcases head_urlencode d t with hhead | hhead | hhead
        all_goals
          rw [hhead] at hc
          obtain rfl := Option.some.inj hc
        · exact not_alpha_of_isNumberChar h.1
        · rfl
        · rfl
  · unfold isEchoOption
    split
    · rename_i c u hv
      have hc : c ∈ urlencode t := by
        rw [hv]
        exact List.mem_cons_of_mem _ List.mem_cons_self
      have hn := hother hc (d := 'n') rfl (by decide) (by decide)
      have he := hother hc (d := 'e') rfl (by decide) (by decide)
      have hE := hother hc (d := 'E') rfl (by decide) (by decide)
      have hnot : "neE".toList.contains c = false := by
        simp [hn, he, hE]
      rw [List.all_cons, hnot, Bool.false_and]
    · rfl
  · refine Or.inl fun c hc => ?_
    have hstar := hother hc (d := '*') rfl (by decide) (by decide)
    have hquery := hother hc (d := '?') rfl (by decide) (by decide)
    have hbracket := hother hc (d := '[') rfl (by decide) (by decide)
    simp [isWild, hstar, hquery, hbracket]

theorem sentPlain_of_enters {o : Opt} {t : Text} (h : enters o t = true) :
    SentPlain (urlencode t) := by
  rcases enters_cases h with ⟨-, rfl | ⟨hpath, -⟩⟩ | ⟨-, hnumber, -⟩
  · exact sentPlain_number rfl
  · exact sentPlain_path hpath
  · exact sentPlain_number hnumber

/-- An address has an encoded `@`. -/
theorem isAwkName_address {t : Text} (h : t = [] ∨ '@' ∈ t) : isAwkName (urlencode t) = false := by
  rcases h with rfl | hat
  · rfl
  · have hmem : '%' ∈ urlencode t := List.mem_flatMap.mpr ⟨'@', hat, List.mem_cons_self⟩
    cases hname : isAwkName (urlencode t) with
    | false => rfl
    | true =>
        have hall := all_isNameChar (isName_of_isAwkName hname)
        exact absurd (List.all_eq_true.mp hall _ hmem) (by decide)

namespace Submission

variable {h : Daemon} (s : Submission h)

/-! ## What is written -/

/-- The value of a field in the file: an unchecked `mail` is written as 0. -/
def written (o : Opt) : Text :=
  let t := ((s.fields.find? fun x => x.1 = o).map Prod.snd).getD []
  if t = [] ∧ o = .mail then ['0'] else t

theorem mem_sent {x : Text × Text} {l : List (Opt × Text)} (hx : x ∈ l.filterMap sentField) :
    ∃ y ∈ l, x = (y.1.name, urlencode y.2) := by
  obtain ⟨y, hy, hsent⟩ := List.mem_filterMap.mp hx
  unfold sentField at hsent
  split at hsent
  · cases hsent
  · exact ⟨y, hy, (Option.some.inj hsent).symm⟩

theorem mem_pairs {x : Text × Text} : x ∈ s.pairs ↔
    x = ("sendto".toList, urlencode s.sendto) ∨ x ∈ s.fields.filterMap sentField := by
  rw [pairs, fields, List.filterMap_append, List.mem_append, List.mem_cons, List.mem_append]
  exact ⟨fun hx => by tauto, fun hx => by tauto⟩

theorem pairs_encoded : EncodedPairs s.pairs := by
  have hnames : ∀ o : Opt, isAwkName o.name = true := by
    intro o
    cases o <;> decide +kernel
  constructor
  · intro x hx
    rcases s.mem_pairs.mp hx with rfl | hx
    · rfl
    · obtain ⟨y, -, rfl⟩ := mem_sent hx
      exact hnames y.1
  · intro x hx
    refine List.all_eq_true.mpr fun c hc => ?_
    rcases s.mem_pairs.mp hx with rfl | hx
    · refine isEncodedChar_of_mem ?_ hc
      rcases s.address with hempty | ⟨-, htyped⟩
      · rw [hempty]
        rfl
      · exact isByte_of_isTyped htyped
    · obtain ⟨y, hy, rfl⟩ := mem_sent hx
      exact isEncodedChar_of_mem (isByte_of_enters (s.entered y hy)) hc

theorem name_injective : Function.Injective Opt.name := by
  intro o p heq
  have ho := (name_chars o).2.2.2.1
  have hp := (name_chars p).2.2.2.1
  rw [heq, hp] at ho
  exact (Option.some.inj ho).symm

theorem name_ne_sendto (o : Opt) : o.name ≠ "sendto".toList := by
  cases o <;> decide +kernel

theorem keys_sent (l : List (Opt × Text)) :
    ((l.filterMap sentField).map Prod.fst).Sublist ((l.map Prod.fst).map Opt.name) := by
  induction l with
  | nil => exact List.Sublist.refl _
  | cons x l ih =>
      rw [List.filterMap_cons]
      unfold sentField
      split
      · rename_i hnone
        exact ih.cons _
      · rename_i y hsome
        split at hsome
        · cases hsome
        · obtain rfl := Option.some.inj hsome
          exact ih.cons_cons _

theorem pairs_distinct : (s.pairs.map Prod.fst).Nodup := by
  have hperm : (s.pairs.map Prod.fst).Perm
      ("sendto".toList :: (s.fields.filterMap sentField).map Prod.fst) := by
    rw [pairs, fields, List.filterMap_append, List.map_append, List.map_append, List.map_cons]
    exact List.perm_middle
  rw [hperm.nodup_iff, List.nodup_cons]
  have hsub := keys_sent s.fields
  refine ⟨fun hmem => ?_, hsub.nodup (List.Nodup.map name_injective s.distinct)⟩
  obtain ⟨o, -, ho⟩ := List.mem_map.mp (hsub.subset hmem)
  exact name_ne_sendto o ho

theorem names_pairs : ∀ x ∈ s.pairs, x.1 ∉ readArgsNames := by
  have hnames : ∀ o : Opt, o.name ∉ readArgsNames := by
    intro o
    cases o <;> decide +kernel
  intro x hx
  rcases s.mem_pairs.mp hx with rfl | hx
  · show "sendto".toList ∉ readArgsNames
    decide
  · obtain ⟨y, -, rfl⟩ := mem_sent hx
    exact hnames y.1

theorem values_pairs : ∀ x ∈ s.pairs, isAwkName x.2 = false := by
  intro x hx
  rcases s.mem_pairs.mp hx with rfl | hx
  · exact isAwkName_address (s.address.imp_right And.left)
  · obtain ⟨y, hy, rfl⟩ := mem_sent hx
    exact (sentPlain_of_enters (s.entered y hy)).name

/-- A field is sent where it is not an unchecked box. -/
theorem sent_of_mem {x : Opt × Text} (hx : x ∈ s.fields) (hsent : isBox x.1 = true → x.2 ≠ []) :
    (x.1.name, urlencode x.2) ∈ s.pairs := by
  refine s.mem_pairs.mpr (Or.inr (List.mem_filterMap.mpr ⟨x, hx, if_neg ?_⟩))
  rw [Bool.and_eq_true]
  exact fun hboth => hsent hboth.1 (eq_of_beq hboth.2)

theorem key_of_sent {o : Opt} (h : o.name ∈ s.pairs.map Prod.fst) :
    ∃ x ∈ s.fields, x.1 = o ∧ (isBox x.1 = true → x.2 ≠ []) := by
  obtain ⟨p, hp, hkey⟩ := List.mem_map.mp h
  rcases s.mem_pairs.mp hp with rfl | hp
  · exact absurd hkey.symm (name_ne_sendto o)
  · obtain ⟨x, hx, hsent⟩ := List.mem_filterMap.mp hp
    unfold sentField at hsent
    split at hsent
    · cases hsent
    · rename_i hno
      obtain rfl := Option.some.inj hsent
      refine ⟨x, hx, name_injective hkey, fun hbox hempty => hno ?_⟩
      rw [hbox, hempty]
      rfl

theorem eq_of_fst_eq {x y : Opt × Text} (hx : x ∈ s.fields) (hy : y ∈ s.fields)
    (heq : x.1 = y.1) : x = y :=
  List.inj_on_of_nodup_map s.distinct hx hy heq

/-- What is written, by what the form has. -/
theorem written_of_mem {x : Opt × Text} (hx : x ∈ s.fields) :
    s.written x.1 = if x.2 = [] ∧ x.1 = .mail then ['0'] else x.2 := by
  have hfind : s.fields.find? (fun y => y.1 = x.1) = some x := by
    cases hfind : s.fields.find? (fun y => y.1 = x.1) with
    | none => exact absurd (List.find?_eq_none.mp hfind x hx) (by simp)
    | some y =>
        have hy := List.mem_of_find?_eq_some hfind
        have hkey : y.1 = x.1 := by simpa using List.find?_some hfind
        rw [s.eq_of_fst_eq hy hx hkey]
  rw [written, hfind]
  rfl

theorem written_of_notMem {o : Opt} (ho : ∀ x ∈ s.fields, x.1 ≠ o) :
    s.written o = if o = .mail then ['0'] else [] := by
  have hfind : s.fields.find? (fun y => y.1 = o) = none :=
    List.find?_eq_none.mpr fun x hx => by simpa using ho x hx
  rw [written, hfind]
  simp

theorem written_cases (o : Opt) : s.written o = ['0'] ∨ s.written o = [] ∨
    ∃ x ∈ s.fields, x.1 = o ∧ s.written o = x.2 := by
  by_cases ho : ∃ x ∈ s.fields, x.1 = o
  · obtain ⟨x, hx, rfl⟩ := ho
    rw [s.written_of_mem hx]
    split
    · exact Or.inl rfl
    · exact Or.inr (Or.inr ⟨x, hx, rfl, rfl⟩)
  · rw [s.written_of_notMem fun x hx heq => ho ⟨x, hx, heq⟩]
    split
    · exact Or.inl rfl
    · exact Or.inr (Or.inl rfl)

/-- The variable of an option holds what is written, as it was sent. -/
theorem env_written {env env₁ : Env} (henv : ∀ o : Opt, env o.name = [])
    (hset : ∀ x ∈ s.pairs, env₁ x.1 = x.2)
    (hothers : ∀ n, n ∉ s.pairs.map Prod.fst → n ≠ "args".toList →
      env₁ n = Function.update env "mail".toList ['0'] n) (o : Opt) :
    env₁ o.name = urlencode (s.written o) := by
  have hargs : o.name ≠ "args".toList := by
    cases o <;> decide +kernel
  have hunset : o.name ∉ s.pairs.map Prod.fst →
      env₁ o.name = urlencode (if o = .mail then ['0'] else []) := by
    intro hkey
    rw [hothers o.name hkey hargs]
    by_cases hmail : o = .mail
    · rw [hmail]
      rfl
    · have hne : o.name ≠ "mail".toList := fun heq => hmail (name_injective heq)
      rw [Function.update_of_ne hne, henv, if_neg hmail]
      rfl
  by_cases ho : ∃ x ∈ s.fields, x.1 = o
  · obtain ⟨x, hx, rfl⟩ := ho
    rw [s.written_of_mem hx]
    by_cases hempty : x.2 = []
    · by_cases hbox : isBox x.1 = true
      · have hkey : x.1.name ∉ s.pairs.map Prod.fst := by
          intro hmem
          obtain ⟨y, hy, heq, hsent⟩ := s.key_of_sent hmem
          rw [s.eq_of_fst_eq hy hx heq] at hsent
          exact hsent hbox hempty
        rw [hunset hkey]
        simp only [hempty, true_and]
      · have hmail : x.1 ≠ .mail := by
          intro heq
          rw [heq] at hbox
          exact hbox rfl
        rw [hset _ (s.sent_of_mem hx fun h => absurd h hbox), if_neg fun h => hmail h.2]
    · rw [hset _ (s.sent_of_mem hx fun _ => hempty), if_neg fun h => hempty h.1]
  · have hno := fun x hx heq => ho ⟨x, hx, heq⟩
    have hkey : o.name ∉ s.pairs.map Prod.fst := by
      intro hmem
      obtain ⟨x, hx, heq, -⟩ := s.key_of_sent hmem
      exact hno x hx heq
    rw [hunset hkey, s.written_of_notMem hno]

/-- The page writes the lines of what is written. -/
theorem sysctrlProc_eq (m : PageMachine) {env : Env} (henv : ∀ o : Opt, env o.name = []) :
    m.sysctrlProc env (bodyText s.pairs) =
      some (Opt.all.flatMap fun o => line o (s.written o)) := by
  obtain ⟨env₁, hread, hset, hothers⟩ := m.readArgs_form s.pairs_encoded s.pairs_distinct
    s.names_pairs s.values_pairs (Function.update env "mail".toList ['0'])
  have hline : ∀ o, m.confLine env₁ o = line o (s.written o) := by
    intro o
    have hvar := s.env_written henv hset hothers o
    rw [PageMachine.confLine]
    by_cases hempty : s.written o = []
    · rw [hempty] at hvar ⊢
      rw [m.echoVar_nil hvar]
      rfl
    · have hentered : (s.written o).all isByte = true ∧ SentPlain (urlencode (s.written o)) ∧
          '\n' ∉ s.written o := by
        rcases s.written_cases o with hzero | hnil | ⟨x, hx, -, heq⟩
        · rw [hzero]
          exact ⟨rfl, sentPlain_number rfl, by decide⟩
        · exact absurd hnil hempty
        · have henters := s.entered x hx
          rw [heq]
          exact ⟨isByte_of_enters henters, sentPlain_of_enters henters,
            newline_notMem_of_enters henters⟩
      obtain ⟨hbyte, hplain, hnewline⟩ := hentered
      have hencoded : (urlencode (s.written o)).all isEncodedChar = true :=
        List.all_eq_true.mpr fun c hc => isEncodedChar_of_mem hbyte hc
      have hne := urlencode_ne_nil hempty
      rw [m.echoVar_encoded hvar hencoded hne hplain.option hplain.glob]
      simp only [if_neg hne, httpdDecode_urlencode hbyte, commandSubst_of_not_mem hnewline, line,
        if_neg hempty]
  rw [PageMachine.sysctrlProc, hread, Option.map_some]
  exact congrArg some (List.flatMap_congr fun o _ => hline o)

/-! ## What the daemon reads -/

theorem newline_notMem_written (o : Opt) : '\n' ∉ s.written o := by
  rcases s.written_cases o with h | h | ⟨x, hx, -, h⟩
  · rw [h]
    decide
  · rw [h]
    exact List.not_mem_nil
  · rw [h]
    exact newline_notMem_of_enters (s.entered x hx)

theorem written_command {o : Opt} (ho : o.kind = .command) (hne : s.written o ≠ []) :
    (s.written o).head? = some '/' ∧ ∃ x ∈ s.fields, x.1 = o ∧ s.written o = x.2 := by
  have hmail : o ≠ .mail := by
    rintro rfl
    cases ho
  by_cases hmem : ∃ x ∈ s.fields, x.1 = o
  · obtain ⟨x, hx, rfl⟩ := hmem
    have hvalue : s.written x.1 = x.2 := by
      rw [s.written_of_mem hx, if_neg fun h => hmail h.2]
    refine ⟨?_, x, hx, rfl, hvalue⟩
    rw [hvalue] at hne ⊢
    rcases enters_cases (s.entered x hx) with ⟨-, hempty | ⟨hpath, -⟩⟩ | ⟨hkind, -⟩
    · exact absurd hempty hne
    · exact hpath
    · exact absurd ho hkind
  · rw [s.written_of_notMem fun x hx heq => hmem ⟨x, hx, heq⟩, if_neg hmail] at hne
    exact absurd rfl hne

theorem written_plain {o : Opt} (ho : o.kind ≠ .command) :
    '=' ∉ s.written o ∧ '#' ∉ s.written o := by
  have hnumber : (s.written o).all isNumberChar = true := by
    rcases s.written_cases o with h | h | ⟨x, hx, heq, h⟩
    · rw [h]
      rfl
    · rw [h]
      rfl
    · rw [h]
      rcases enters_cases (s.entered x hx) with ⟨hkind, -⟩ | ⟨-, hnumber, -⟩
      · exact absurd (heq ▸ hkind) ho
      · exact hnumber
  have hchars := List.all_eq_true.mp hnumber
  exact ⟨fun h => absurd (hchars _ h) (by decide), fun h => absurd (hchars _ h) (by decide)⟩

/-- The daemon makes of an entered value what was submitted. -/
theorem convert_eq_submitted {x : Opt × Text} (hx : x ∈ s.fields) (hne : x.2 ≠ []) :
    h.convert x.1 x.2 = submitted h x.1 x.2 := by
  have hentered := s.entered x hx
  unfold submitted
  split
  · rename_i hbox
    rw [enters, if_pos hbox, Bool.or_eq_true] at hentered
    have hone : x.2 = ['1'] := eq_of_beq (hentered.resolve_left fun h => hne (eq_of_beq h))
    have hkind : x.1.kind = .number := by
      have hall : ∀ o, isBox o = true → o.kind = .number := by
        intro o
        cases o <;> decide
      exact hall x.1 hbox
    rw [Daemon.convert, hkind, hone]
    rfl
  · rename_i hbox
    rw [enters, if_neg hbox] at hentered
    cases hkind : x.1.kind with
    | number => rw [Daemon.convert, hkind]
    | decimal => rw [Daemon.convert, hkind]
    | mode =>
        rw [hkind] at hentered
        have hmem := List.contains_iff_mem.mp hentered
        simp only [List.mem_cons, List.not_mem_nil, or_false] at hmem
        rw [Daemon.convert, hkind]
        rcases hmem with hmem | hmem | hmem | hmem
        all_goals
          rw [hmem]
          rfl
    | command =>
        have hexec := s.commands x hx hkind hne
        simp only [Daemon.convert, hkind, Daemon.checkfile, if_neg hne, hexec, if_true]

theorem all_nodup : Opt.all.Nodup := by decide +kernel

/-- **Settings that arrive.**  After a submission every field of the form has its value in the
daemon exactly when nothing is left out that the daemon has otherwise, and every line fits. -/
theorem reaches_iff (m : PageMachine) {env : Env} (henv : ∀ o : Opt, env o.name = [])
    (args : Settings) : s.Reaches m env args ↔ s.Covered args := by
  have hconf := s.sysctrlProc_eq m henv
  have hline : ∀ o ∈ Opt.all, '\n' ∉ s.written o := fun o _ => s.newline_notMem_written o
  have hall : ∀ o, o ∈ Opt.all := fun o => (name_chars o).2.2.2.2
  constructor
  · rintro ⟨conf, args', hwritten, hread, hvalues⟩
    obtain rfl := Option.some.inj (hconf.symm.trans hwritten)
    have hset : ∀ o ∈ Opt.all, o.kind = .command → s.written o ≠ [] →
        args' o = .file (some (s.written o)) := by
      intro o _ hkind hne
      obtain ⟨-, x, hx, rfl, heq⟩ := s.written_command hkind hne
      have hbox : isBox x.1 = false := by
        have hnot : ∀ o, o.kind = .command → isBox o = false := by
          intro o
          cases o <;> decide
        exact hnot x.1 hkind
      rw [hvalues x hx, submitted, hbox, if_neg Bool.false_ne_true, hkind]
      rw [heq] at hne ⊢
      simp only [if_neg hne]
    have hfits := Daemon.fits_of_readConfig all_nodup hline
      (fun o _ hkind hne => (s.written_command hkind hne).1)
      (fun o _ hkind => s.written_plain hkind)
      hread hset
    constructor
    · intro x hx hempty hmail
      obtain ⟨args₁, hread₁, -, hkept⟩ :=
        Daemon.readConfig_lines (h := h) all_nodup hline hfits args
      obtain rfl := Option.some.inj (hread.symm.trans hread₁)
      have hnot : s.written x.1 = [] := by
        rw [s.written_of_mem hx, if_neg fun h => hmail h.2, hempty]
      rw [← hkept x.1 fun _ => hnot, hvalues x hx, hempty]
    · intro x hx hne
      have hvalue : s.written x.1 = x.2 := by
        rw [s.written_of_mem hx, if_neg fun h => hne h.1]
      have hfit := hfits x.1 (hall x.1) (hvalue ▸ hne)
      rwa [hvalue] at hfit
  · intro hcovered
    have hfits : ∀ o ∈ Opt.all, s.written o ≠ [] → LineFits o (s.written o) := by
      intro o _ hne
      by_cases hmem : ∃ x ∈ s.fields, x.1 = o ∧ x.2 ≠ []
      · obtain ⟨x, hx, rfl, hne'⟩ := hmem
        rw [s.written_of_mem hx, if_neg fun h => hne' h.1]
        exact hcovered.fits x hx hne'
      · have hzero : s.written o = ['0'] ∧ o = .mail := by
          by_cases hfield : ∃ x ∈ s.fields, x.1 = o
          · obtain ⟨x, hx, rfl⟩ := hfield
            have hempty : x.2 = [] := by
              by_contra hne'
              exact hmem ⟨x, hx, rfl, hne'⟩
            rw [s.written_of_mem hx] at hne ⊢
            split at hne
            · rename_i hboth
              exact ⟨if_pos hboth, hboth.2⟩
            · exact absurd hempty hne
          · have hno := fun x hx heq => hfield ⟨x, hx, heq⟩
            rw [s.written_of_notMem hno] at hne ⊢
            split at hne
            · rename_i hmail
              exact ⟨if_pos hmail, hmail⟩
            · exact absurd rfl hne
        rw [hzero.1, hzero.2]
        exact ⟨by decide, by decide⟩
    obtain ⟨args', hread, hset, hkept⟩ :=
      Daemon.readConfig_lines (h := h) all_nodup hline hfits args
    refine ⟨_, args', hconf, hread, fun x hx => ?_⟩
    by_cases hempty : x.2 = []
    · by_cases hmail : x.1 = .mail
      · have hzero : s.written x.1 = ['0'] := by
          rw [s.written_of_mem hx, if_pos ⟨hempty, hmail⟩]
        rw [hset x.1 (hall x.1) (by rw [hzero]; exact List.cons_ne_nil _ _), hzero, hempty, hmail]
        rfl
      · have hnot : s.written x.1 = [] := by
          rw [s.written_of_mem hx, if_neg fun h => hmail h.2, hempty]
        rw [hkept x.1 fun _ => hnot, hcovered.empty x hx hempty hmail, hempty]
    · have hvalue : s.written x.1 = x.2 := by
        rw [s.written_of_mem hx, if_neg fun h => hempty h.1]
      rw [hset x.1 (hall x.1) (by rw [hvalue]; exact hempty), hvalue]
      exact s.convert_eq_submitted hx hempty

end Submission

/-! ## A box that stays checked -/

/-- A daemon for which every file is root's. -/
def rootDaemon : Daemon where
  atof _ := 0
  executable _ := true

/-- The settings of a daemon that has read no file. -/
def initialSettings : Settings
  | .histTemp => .float 2
  | .loFan => .int 2000
  | .hiFan => .int 5000
  | .loTemp => .int 40
  | .hiTemp => .int 50
  | .disksTemp => .int 0
  | .mail => .int 1
  | .recovery => .int 1
  | .fanOffTemp => .int 38
  | .maxFanSpeed => .int 6000
  | .warnTemp => .int 52
  | .critTemp => .int 54
  | .fanMode => .int 0
  | .warnTempCommand => .file none
  | .critTempCommand => .file (some "/usr/sbin/poweroff".toList)
  | .frontButtonCommand1 => .file none
  | .frontButtonCommand2 => .file none
  | .backButtonCommand => .file none

theorem recovery_entered :
    (([(.warnTemp, "52".toList), (.warnTempCommand, []), (.critTemp, "54".toList),
      (.critTempCommand, "/usr/sbin/poweroff".toList), (.mail, ['1'])] ++
      [(.backButtonCommand, []), (.recovery, [])] : List (Opt × Text)).all fun x =>
        enters x.1 x.2) = true := by
  decide +kernel

/-- The fields that every board has, with `recovery` unchecked. -/
def recoveryOff : Submission rootDaemon where
  top := [(.warnTemp, "52".toList), (.warnTempCommand, []), (.critTemp, "54".toList),
    (.critTempCommand, "/usr/sbin/poweroff".toList), (.mail, ['1'])]
  sendto := "admin@nas".toList
  bottom := [(.backButtonCommand, []), (.recovery, [])]
  distinct := by decide
  entered := List.all_eq_true.mp recovery_entered
  commands := fun _ _ _ _ => rfl
  address := by decide +kernel

theorem reaches_iff_recoveryOff :
    recoveryOff.Reaches plainPage (fun _ => []) initialSettings ↔
      recoveryOff.Covered initialSettings :=
  recoveryOff.reaches_iff plainPage (fun _ => rfl) initialSettings

theorem recovery_kept :
    (rootDaemon.readConfig (Opt.all.flatMap fun o => line o (recoveryOff.written o))
      initialSettings).map (fun args => args .recovery) = some (.int 1) := by
  decide +kernel

/-- The daemon goes on with `recovery`. -/
theorem recovery_not_reached :
    ¬ recoveryOff.Reaches plainPage (fun _ => []) initialSettings := by
  rintro ⟨conf, args', hwritten, hread, hvalues⟩
  have hconf : plainPage.sysctrlProc (fun _ => []) (bodyText recoveryOff.pairs) =
      some (Opt.all.flatMap fun o => line o (recoveryOff.written o)) :=
    recoveryOff.sysctrlProc_eq plainPage fun _ => rfl
  obtain rfl := Option.some.inj (hconf.symm.trans hwritten)
  have hkept := recovery_kept
  rw [hread, Option.map_some, hvalues (.recovery, []) (by simp [Submission.fields, recoveryOff])]
    at hkept
  exact absurd hkept (by decide)

end AltF.Cgi
