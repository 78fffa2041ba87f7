/-
  Cgi/UploadForm.lean --- common.sh: an upload in the form that a browser sends, and when
  nothing of it is run.

  Every part has its Content-Disposition line with the name and, for a file, the file's
  name, other header lines, an empty line, and its content.
-/
import AltF.Cgi.UploadFiles
import AltF.Shell.Quoted

set_option autoImplicit false

namespace AltF.Cgi

open AltF.Foundation AltF.Shell AltF.SysFiles

/-! ## The form -/

def crlf : Text := ['\r', '\n']

/-- Another header line. -/
structure Header where
  field : Text
  value : Text
  deriving DecidableEq, Repr

def Header.text (x : Header) : Text := x.field ++ ':' :: x.value

/-- A part of the form. -/
structure Part where
  name : Text
  /-- the file's name, for a file -/
  filename : Option Text
  headers : List Header
  content : Text
  deriving DecidableEq, Repr

/-- `n="v"` -/
def param (n v : Text) : Text := n ++ '=' :: '"' :: v ++ ['"']

/-- `n='v'` -/
def varText (x : Text × Text) : Text := x.1 ++ '=' :: '\'' :: x.2 ++ ['\'']

/-- What the line with the name begins with. -/
def formData : Text := "Content-Disposition: form-data".toList

namespace Part

variable (p : Part)

/-- What stands behind the first semicolon, and a space. -/
def params : Text :=
  match p.filename with
  | none => param "name".toList p.name
  | some f => param "name".toList p.name ++ ';' :: ' ' :: param "filename".toList f

def disposition : Text := formData ++ ';' :: ' ' :: p.params

/-- The part as it is sent. -/
def text : Text :=
  p.disposition ++ crlf ++ (p.headers.flatMap (·.text ++ crlf) ++ (crlf ++ (p.content ++ crlf)))

/-- The variable for the part, and what is sent for it. -/
def var : Text × Text :=
  match p.filename with
  | none => (p.name, p.content)
  | some _ => (p.name, "/tmp/".toList ++ p.name)

end Part

def formType : Text := "multipart/form-data".toList

def contentType (boundary : Text) : Text :=
  formType ++ ';' :: ' ' :: ("boundary".toList ++ '=' :: boundary)

/-- The line in front of a part. -/
def mark (boundary : Text) : Text := '-' :: '-' :: boundary

/-- The request's body. -/
def formBody (boundary : Text) (parts : List Part) : Text :=
  parts.flatMap (fun p => mark boundary ++ crlf ++ p.text) ++
    (mark boundary ++ ['-', '-'] ++ crlf)

/-! ## Clean parts -/

/-- A character within a line. -/
def inLine (c : Char) : Bool := c != '\n' && c != '\r' && c != '\x00'

/-- A character of a boundary. -/
def isBoundaryChar (c : Char) : Bool := isSimple c && isLiteral c && inLine c

structure Header.Clean (h : Host) (x : Header) : Prop where
  field : ∀ c ∈ x.field, isBlank c = false
  colon : ':' ∉ x.field
  other : x.field ≠ "Content-Disposition".toList
  line : x.text.all inLine = true
  glob : ∀ w ∈ words x.text, h.glob w = [w]

/-- A text that comes back as it was sent. -/
structure TextClean (name content : Text) : Prop where
  shell : name ∉ shellNames
  own : name ≠ "name".toList ∧ name ≠ "fname_ret".toList
  quote : '\'' ∉ content
  nul : '\x00' ∉ content
  last : content.getLast? ≠ some '\n'
  echo : isEchoOption content = false

/-- The name of a file that can stand between double quotes. -/
structure FilenameClean (f : Text) : Prop where
  line : f.all inLine = true
  quotable : quotable true (squeeze f) = true

/-- **A part of which nothing is run.** -/
structure Part.Clean (h : Host) (boundary : Text) (p : Part) : Prop where
  name : isName p.name = true
  computed : p.name ∉ computedNames
  taken : h.taken p.name = false
  boundary : ¬ boundary <:+: p.text
  glob : ∀ w ∈ words p.disposition, h.glob w = [w]
  headers : ∀ x ∈ p.headers, x.Clean h
  filename : ∀ f, p.filename = some f → FilenameClean f
  content : p.filename = none → TextClean p.name p.content

/-- A part whose lines are read as they were sent. -/
structure Part.Readable (h : Host) (p : Part) : Prop where
  name : isName p.name = true
  computed : p.name ∉ computedNames
  taken : h.taken p.name = false
  glob : ∀ w ∈ words p.disposition, h.glob w = [w]
  headers : ∀ x ∈ p.headers, x.Clean h
  filename : ∀ f, p.filename = some f → FilenameClean f

/-- A text for a variable that is used for nothing else. -/
structure TextSent (name content : Text) : Prop where
  shell : name ∉ shellNames
  own : name ≠ "name".toList ∧ name ≠ "fname_ret".toList
  quote : '\'' ∉ content
  nul : '\x00' ∉ content
  last : content.getLast? ≠ some '\n'

/-- **A form that a browser sends.** -/
structure FormSent (h : Host) (boundary : Text) (parts : List Part) : Prop where
  ne_nil : boundary ≠ []
  chars : boundary.all isBoundaryChar = true
  readable : ∀ p ∈ parts, p.Readable h
  apart : ∀ p ∈ parts, ¬ boundary <:+: p.text
  texts : ∀ p ∈ parts, p.filename = none → TextSent p.name p.content

/-- **A form of which nothing is run.** -/
structure FormClean (h : Host) (boundary : Text) (parts : List Part) : Prop where
  ne_nil : boundary ≠ []
  chars : boundary.all isBoundaryChar = true
  parts : ∀ p ∈ parts, p.Clean h boundary

theorem FormClean.sent {h : Host} {boundary : Text} {parts : List Part}
    (hform : FormClean h boundary parts) : FormSent h boundary parts where
  ne_nil := hform.ne_nil
  chars := hform.chars
  readable := fun p hp => { hform.parts p hp with }
  apart := fun p hp => (hform.parts p hp).boundary
  texts := fun p hp htext => { (hform.parts p hp).content htext with }

/-- The upload evaluates nothing but assignments, and the caller gives the variables of
the parts what was sent for them, unless the upload fails. -/
def Safe (h : Host) (contentType body : Text) (vars : List (Text × Text)) : Prop :=
  h.evalUpload contentType body = .ok (assignAll h.env vars) ∨
    ∃ message, h.evalUpload contentType body = .error (.failed message)

/-! ## Characters -/

theorem inLine_iff (c : Char) : inLine c = true ↔ c ≠ '\n' ∧ c ≠ '\r' ∧ c ≠ '\x00' := by
  simp [inLine, and_assoc]

theorem notMem_of_all {p : Char → Bool} {t : Text} (ht : t.all p = true) {c : Char}
    (hc : p c = false) : c ∉ t := by
  intro hmem
  rw [List.all_eq_true.mp ht c hmem] at hc
  cases hc

/-- An option consists of its letters. -/
theorem not_isEchoOption {t : Text} {c : Char} (hc : c ∈ t) (hne : c ∉ '-' :: "neE".toList) :
    isEchoOption t = false := by
  unfold isEchoOption
  split
  · rename_i d u
    rw [← Bool.not_eq_true]
    intro hall
    rcases List.mem_cons.mp hc with rfl | hc
    · exact hne (by decide)
    · have hletter := List.all_eq_true.mp hall c hc
      exact hne (List.mem_cons_of_mem _ (List.contains_iff_mem.mp hletter))
  · rfl

/-! ## Reading lines -/

section Host

variable (h : Host)

/-- A line without blanks in front is read as it is. -/
theorem readLine_line {t : Text} (hstart : StartsSolid t) (ht : t.all inLine = true) :
    h.readLine (t ++ ['\r']) = t := by
  have hnul : (t ++ ['\r']).filter (· ≠ '\x00') = t ++ ['\r'] := by
    refine List.filter_eq_self.mpr fun c hc => ?_
    rcases List.mem_append.mp hc with hc | hc
    · simpa using ((inLine_iff c).mp (List.all_eq_true.mp ht c hc)).2.2
    · rw [List.mem_singleton.mp hc]
      rfl
  have hfront : (t ++ ['\r']).dropWhile isBlank = t ++ ['\r'] := by
    cases t with
    | nil => rfl
    | cons c t =>
        have hc : isBlank c = false := hstart c rfl
        rw [List.cons_append, List.dropWhile_cons_of_neg (by rw [hc]; exact Bool.false_ne_true)]
  have htrim : trim (t ++ ['\r']) = t ++ ['\r'] := by
    rw [trim, hfront, List.rdropWhile_concat_neg _ _ _ (by decide)]
  have hecho : h.echo [t ++ ['\r']] = t ++ ['\r'] ++ ['\n'] := by
    rw [h.echoes.plain, join_singleton]
    intro w hw
    obtain rfl : t ++ ['\r'] = w := by simpa using hw
    exact not_isEchoOption (c := '\r') (by simp) (by decide)
  have hcr : (t ++ ['\r'] ++ ['\n']).filter (· ≠ '\r') = t ++ ['\n'] := by
    rw [List.filter_append, List.filter_append, List.filter_eq_self.mpr]
    · rw [List.append_assoc]
      rfl
    · intro c hc
      simpa using ((inLine_iff c).mp (List.all_eq_true.mp ht c hc)).2.1
  rw [Host.readLine, hnul, htrim, hecho, hcr, commandSubst_append_newline,
    commandSubst_of_not_mem (notMem_of_all ht rfl)]

/-- The words of a line, echoed. -/
theorem echoLine_words {t w : Text} {ws : List Text} (hwords : words t = w :: ws)
    (hw : isEchoOption w = false) (hglob : ∀ v ∈ words t, h.glob v = [v]) (ht : '\n' ∉ t) :
    h.echoLine t = [join (w :: ws) ++ ['\n']] := by
  have hline : '\n' ∉ join (w :: ws) := by
    intro hmem
    obtain ⟨v, hv, hmem⟩ := mem_of_mem_join hmem (by decide)
    exact ht (mem_of_mem_words (hwords ▸ hv) hmem)
  rw [Host.echoLine, expand_of_kept hglob, hwords, h.echoes.plain, splitLines_singleton hline]
  intro v hv
  obtain rfl : w = v := by simpa using hv
  exact hw

/-- Another header line begins with its field. -/
theorem words_header {x : Header} (hx : x.Clean h) :
    ∃ r ws, words x.text = (x.field ++ ':' :: r) :: ws := by
  have hblank : ∀ c ∈ x.field ++ [':'], isBlank c = false := by
    intro c hc
    rcases List.mem_append.mp hc with hc | hc
    · exact hx.field c hc
    · rw [List.mem_singleton.mp hc]
      rfl
  obtain ⟨r, ws, hwords⟩ := words_append_of_not_blank (by simp) hblank x.value
  rw [List.append_assoc, List.append_assoc, List.singleton_append, List.singleton_append] at hwords
  exact ⟨r, ws, hwords⟩

/-- It is not taken for the Content-Disposition line. -/
theorem not_isDisposition_header {x : Header} (hx : x.Clean h) :
    h.isDisposition x.text = false := by
  obtain ⟨r, ws, hwords⟩ := words_header h hx
  have hopt : isEchoOption (x.field ++ ':' :: r) = false :=
    not_isEchoOption (c := ':') (by simp) (by decide)
  have hline := echoLine_words h hwords hopt hx.glob (notMem_of_all hx.line rfl)
  obtain ⟨u, hu⟩ := prefix_join (x.field ++ ':' :: r) ws
  rw [Host.isDisposition, hline, List.any_cons, List.any_nil, Bool.or_false, ← Bool.not_eq_true,
    List.isPrefixOf_iff_prefix, ← hu]
  rintro ⟨s, hs⟩
  have hfield : "Content-Disposition".toList ++ ':' :: ' ' :: s =
      x.field ++ ':' :: (r ++ u ++ ['\n']) := by
    refine Eq.trans ?_ (hs.trans ?_)
    · rfl
    · simp
  exact hx.other (eq_of_append_cons hx.colon (.inl (by decide)) hfield).symm

end Host

/-! ## The Content-Disposition line -/

theorem startsSolid_append {t : Text} (ht : StartsSolid t) (hne : t ≠ []) (u : Text) :
    StartsSolid (t ++ u) := by
  intro c hc
  rw [List.head?_append_of_ne_nil _ hne] at hc
  exact ht c hc

theorem startsSolid_param {n : Text} (hn : isName n = true) (v : Text) :
    StartsSolid (param n v) := by
  cases n with
  | nil => cases hn
  | cons c n =>
      intro d hd
      obtain rfl : c = d := by simpa [param] using hd
      exact not_blank_of_isName hn c List.mem_cons_self

theorem endsSolid_param (n v : Text) : EndsSolid (param n v) := by
  intro c hc
  rw [param, List.getLast?_concat] at hc
  obtain rfl : '"' = c := Option.some.inj hc
  rfl

theorem squeeze_param {n : Text} (hn : isName n = true) (v : Text) :
    squeeze (param n v) = param n (squeeze v) := by
  rw [param, squeeze_append_cons _ _ rfl, squeeze_append_of_not_blank (not_blank_of_isName hn),
    squeeze_cons_of_not_blank rfl, squeeze_cons_of_not_blank rfl]
  rfl

theorem isName_name : isName "name".toList = true := by decide

theorem isName_filename : isName "filename".toList = true := by decide

/-- What is needed of the fixed beginning of the line. -/
theorem formData_facts :
    (formData.all fun c => inLine c && c != ';' && c != '=') = true ∧ squeeze formData = formData ∧
      formData = "Content-Disposition:".toList ++ " form-data".toList ∧
      formData = "Content-Disposition: ".toList ++ "form-data".toList ∧
      "Content-Disposition:".toList.all (!isBlank ·) = true ∧
      ':' ∈ "Content-Disposition:".toList ∧
      ¬ "filename".toList <:+ formData ++ "; name".toList := by
  decide +kernel

theorem formData_chars {c : Char} (hc : c ∈ formData) : inLine c = true ∧ c ≠ ';' ∧ c ≠ '=' := by
  have hall := List.all_eq_true.mp formData_facts.1 c hc
  rw [Bool.and_eq_true, Bool.and_eq_true, bne_iff_ne, bne_iff_ne] at hall
  exact ⟨hall.1.1, hall.1.2, hall.2⟩

theorem formData_ne_nil : formData ≠ [] := by
  intro hnil
  have hsplit := formData_facts.2.2.1
  rw [hnil] at hsplit
  exact absurd hsplit.symm (List.append_ne_nil_of_right_ne_nil _ (by decide))

namespace Part

variable (p : Part)

theorem startsSolid_params : StartsSolid p.params := by
  unfold params
  cases p.filename with
  | none => exact startsSolid_param isName_name p.name
  | some f => exact startsSolid_append (startsSolid_param isName_name p.name) (by simp [param]) _

theorem endsSolid_params : EndsSolid p.params := by
  unfold params
  cases p.filename with
  | none => exact endsSolid_param _ p.name
  | some f =>
      refine EndsSolid.append _ (u := ';' :: ' ' :: param "filename".toList f) ?_ (by simp)
      exact EndsSolid.append [';', ' '] (endsSolid_param _ f) (by simp)

/-- The parameters with the blanks of the file's name squeezed. -/
def squeezed : Part := { p with filename := p.filename.map squeeze }

theorem squeeze_params (hname : isName p.name = true) : squeeze p.params = p.squeezed.params := by
  have hsolid : squeeze p.name = p.name := squeeze_of_not_blank (not_blank_of_isName hname)
  unfold params squeezed
  cases p.filename with
  | none => rw [Option.map_none, squeeze_param isName_name, hsolid]
  | some f =>
      rw [Option.map_some, squeeze_append_cons _ _ rfl, squeeze_param isName_name, hsolid,
        squeeze_space (startsSolid_param isName_filename f), squeeze_param isName_filename]

theorem startsSolid_disposition : StartsSolid p.disposition := by
  have hfirst : StartsSolid formData := by
    intro c hc
    obtain rfl : 'C' = c := Option.some.inj hc
    rfl
  exact startsSolid_append hfirst formData_ne_nil _

theorem endsSolid_disposition : EndsSolid p.disposition := by
  have hne : p.params ≠ [] := by
    unfold params
    cases p.filename <;> simp [param]
  refine EndsSolid.append _ (u := ';' :: ' ' :: p.params) ?_ (by simp)
  exact EndsSolid.append [';', ' '] p.endsSolid_params hne

theorem afterSemicolon_disposition : afterSemicolon p.disposition = ' ' :: p.params := by
  have hfront : ∀ c ∈ formData, decide (c ≠ ';') = true :=
    fun c hc => decide_eq_true (formData_chars hc).2.1
  have hdrop : p.disposition.dropWhile (· ≠ ';') = ';' :: ' ' :: p.params := by
    rw [disposition, List.dropWhile_append_of_pos hfront, List.dropWhile_cons_of_neg (by simp)]
  rw [afterSemicolon, hdrop]

theorem squeeze_disposition (hname : isName p.name = true) :
    squeeze p.disposition = p.squeezed.disposition := by
  rw [disposition, squeeze_append_cons _ _ rfl, formData_facts.2.1,
    squeeze_space p.startsSolid_params, p.squeeze_params hname]
  rfl

/-- The first word is no option. -/
theorem words_disposition :
    ∃ r ws, words p.disposition = ("Content-Disposition:".toList ++ r) :: ws ∧
      isEchoOption ("Content-Disposition:".toList ++ r) = false := by
  obtain ⟨-, -, hform, -, hall, hcolon, -⟩ := formData_facts
  have hblank : ∀ c ∈ "Content-Disposition:".toList, isBlank c = false := by
    intro c hc
    simpa using List.all_eq_true.mp hall c hc
  obtain ⟨r, ws, hwords⟩ := words_append_of_not_blank (List.ne_nil_of_mem hcolon) hblank
    (" form-data".toList ++ ';' :: ' ' :: p.params)
  rw [← List.append_assoc, ← hform] at hwords
  exact ⟨r, ws, hwords, not_isEchoOption (List.mem_append_left r hcolon) (by decide)⟩

theorem mem_words_disposition {w : Text} (hw : w ∈ words p.params) : w ∈ words p.disposition := by
  have hsplit : p.disposition = (formData ++ [';']) ++ ' ' :: p.params := by
    rw [disposition, List.append_assoc]
    rfl
  rw [hsplit, words_append_cons _ _ rfl]
  exact List.mem_append_right _ hw

end Part

section Disposition

variable {h : Host} {p : Part} (hp : p.Readable h)

include hp

theorem inLine_disposition : p.disposition.all inLine = true := by
  have hname : p.name.all inLine = true := by
    refine List.all_eq_true.mpr fun c hc => ?_
    have hchar := List.all_eq_true.mp (all_isNameChar hp.name) c hc
    rw [inLine_iff]
    refine ⟨?_, ?_, ?_⟩ <;> rintro rfl <;> cases hchar
  have hform : formData.all inLine = true :=
    List.all_eq_true.mpr fun c hc => (formData_chars hc).1
  have hparams : p.params.all inLine = true := by
    unfold Part.params
    cases hf : p.filename with
    | none => simp [param, hname, inLine]
    | some f => simp [param, hname, (hp.filename f hf).line, inLine]
  simp [Part.disposition, hform, hparams, inLine]

/-- The line as it is echoed. -/
theorem echoLine_disposition :
    h.echoLine p.disposition = [p.squeezed.disposition ++ ['\n']] := by
  obtain ⟨r, ws, hwords, hopt⟩ := p.words_disposition
  rw [echoLine_words h hwords hopt hp.glob (notMem_of_all (inLine_disposition hp) rfl), ← hwords,
    join_words p.startsSolid_disposition p.endsSolid_disposition, p.squeeze_disposition hp.name]

theorem isDisposition_disposition : h.isDisposition p.disposition = true := by
  obtain ⟨-, -, -, hform, -⟩ := formData_facts
  rw [Host.isDisposition, echoLine_disposition hp, List.any_cons, List.any_nil, Bool.or_false,
    List.isPrefixOf_iff_prefix, Part.disposition, hform, List.append_assoc, List.append_assoc]
  exact List.prefix_append _ _

/-- Only files have `filename=`. -/
theorem lacksFilename_disposition : h.lacksFilename p.disposition = p.filename.isNone := by
  rw [Host.lacksFilename, echoLine_disposition hp, List.any_cons, List.any_nil, Bool.or_false]
  unfold Part.disposition Part.params Part.squeezed
  cases hf : p.filename with
  | none =>
      have hnot : ¬ "filename=".toList <:+: formData ++
          ';' :: ' ' :: param "name".toList p.name ++ ['\n'] := by
        rintro ⟨s, r, hsr⟩
        have hname : '=' ∉ '"' :: p.name ++ ['"', '\n'] := by
          have hall := all_isNameChar hp.name
          have hmem : '=' ∉ p.name := notMem_of_all hall rfl
          simpa using hmem
        have hfront : '=' ∉ formData ++ "; name".toList := by
          rw [List.mem_append, not_or]
          exact ⟨fun hmem => (formData_chars hmem).2.2 rfl, by decide⟩
        have hkey : s ++ "filename".toList = formData ++ "; name".toList := by
          refine eq_of_append_cons (s := r) hfront (.inr hname) ?_
          refine Eq.trans ?_ (hsr.trans ?_)
          · rw [List.append_assoc, List.append_assoc]
            rfl
          · rw [List.append_assoc]
            simp [param]
        obtain ⟨-, -, -, -, -, -, hsuffix⟩ := formData_facts
        exact hsuffix ⟨s, hkey⟩
      simpa using hnot
  | some f =>
      have hinfix : "filename=".toList <:+: formData ++
          ';' :: ' ' :: (param "name".toList p.name ++ ';' :: ' ' ::
            param "filename".toList (squeeze f)) ++ ['\n'] := by
        refine ⟨formData ++
          ';' :: ' ' :: (param "name".toList p.name ++ [';', ' ']),
          '"' :: squeeze f ++ ['"', '\n'], ?_⟩
        simp [param]
      simpa using hinfix

/-! ## The evaluations of a part -/

omit hp in
theorem notMem_ownNames :
    "name".toList ∉ ownNames ∧ "filename".toList ∉ ownNames ∧ "boundary".toList ∉ ownNames := by
  decide +kernel

omit hp in
theorem changed_self (env : Env) : changed env env = false := by
  simp [changed]

omit hp in
theorem changed_update {env env' : Env} {n : Text} (hn : n ∉ ownNames) (v : Text) :
    changed env (Function.update env' n v) = changed env env' := by
  rw [changed, changed, Bool.eq_iff_iff, List.any_eq_true, List.any_eq_true]
  refine exists_congr fun m => and_congr_right fun hm => ?_
  have hne : m ≠ n := by
    rintro rfl
    exact hn hm
  rw [Function.update_of_ne hne]

theorem intact_name : intact true p.name = true ∧ unquote p.name = p.name := by
  refine intact_of_plain (List.all_eq_true.mpr fun c hc => ?_)
  exact isPlain_of_isNameChar (List.all_eq_true.mp (all_isNameChar hp.name) c hc)

/-- What the line assigns, when the file's name is evaluated to `v`. -/
def Part.assign (p : Part) (v : Text) (env : Env) : Env :=
  match p.filename with
  | none => Function.update env "name".toList p.name
  | some _ => Function.update (Function.update env "name".toList p.name) "filename".toList v

/-- **The line** assigns the name, and something for the file's name. -/
theorem evalWords_params (env : Env) :
    ∃ v, evalWords h.glob env (' ' :: p.params) = some (p.assign v env) := by
  obtain ⟨hintact, hunquote⟩ := intact_name hp
  have hwords : words (' ' :: p.params) = words p.params := words_append_cons [] _ rfl
  have hkept : ∀ w ∈ words (' ' :: p.params), h.glob w = [w] := by
    intro w hw
    rw [hwords] at hw
    exact hp.glob w (p.mem_words_disposition hw)
  have hname := read_quoted nothing (.inl rfl) env isName_name hintact
  rw [hunquote] at hname
  rw [evalWords, expand_of_kept hkept, hwords, join_words p.startsSolid_params p.endsSolid_params,
    p.squeeze_params hp.name, evalText]
  unfold Part.params Part.squeezed Part.assign param
  cases hf : p.filename with
  | none =>
      refine ⟨[], ?_⟩
      simp only [Option.map_none]
      rw [hname]
      rfl
  | some f =>
      have hsplit : "filename".toList ++ '=' :: '"' :: squeeze f ++ ['"'] =
          ("filename".toList ++ ['=']) ++ '"' :: (squeeze f ++ ['"']) := by simp
      have hnext : ∀ e : Env,
          step nothing (step nothing (e, .value "name".toList p.name false) ';') ' ' =
            (Function.update e "name".toList p.name, .start) := fun _ => rfl
      have hopen : ∀ e : Env, step nothing (e, .value "filename".toList [] false) '"' =
          (e, .value "filename".toList [] true) := fun _ => rfl
      obtain ⟨v, hvalue⟩ := read_quotable (Function.update env "name".toList p.name)
        (hp.filename f hf).quotable (.inside (.value (n := "filename".toList) []))
        fun w h => absurd h (value_ne_dollar [] w)
      refine ⟨v, ?_⟩
      simp only [Option.map_some]
      rw [hsplit, read_append, hname, read_cons, read_cons, hnext, read_append,
        read_assign nothing (.inl rfl) _ isName_filename, read_cons, hopen, hvalue]
      rfl

omit hp in
theorem assign_of_ne {n : Text} (hname : n ≠ "name".toList) (hfilename : n ≠ "filename".toList)
    (v : Text) (env : Env) : p.assign v env n = env n := by
  unfold Part.assign
  cases p.filename with
  | none => exact Function.update_of_ne hname _ _
  | some f => exact (Function.update_of_ne hfilename _ _).trans (Function.update_of_ne hname _ _)

omit hp in
theorem assign_name (v : Text) (env : Env) : p.assign v env "name".toList = p.name := by
  unfold Part.assign
  cases p.filename with
  | none => exact Function.update_self _ _ _
  | some f => exact (Function.update_of_ne (by decide) _ _).trans (Function.update_self _ _ _)

omit hp in
theorem changed_assign (v : Text) (env : Env) : changed env (p.assign v env) = false := by
  obtain ⟨hname, hfilename, -⟩ := notMem_ownNames
  unfold Part.assign
  cases p.filename with
  | none => exact (changed_update hname _).trans (changed_self env)
  | some f =>
      exact (changed_update hfilename _).trans ((changed_update hname _).trans (changed_self env))

/-- What is known when the body of the part is reached. -/
theorem readDisposition_disposition (env : Env) :
    ∃ env₁, h.readDisposition p.disposition env = .ok env₁ ∧ env₁ "name".toList = p.name ∧
      (env₁ "nofn".toList = [] ↔ p.filename ≠ none) ∧
      env₁ "fname_ret".toList = env "fname_ret".toList := by
  obtain ⟨v, heval⟩ := evalWords_params hp (clearNames env)
  have hret : p.assign v (clearNames env) "fname_ret".toList = env "fname_ret".toList := by
    rw [assign_of_ne (by decide) (by decide), clearNames, Function.update_of_ne (by decide),
      Function.update_of_ne (by decide), Function.update_of_ne (by decide)]
  unfold Host.readDisposition
  rw [p.afterSemicolon_disposition, heval, lacksFilename_disposition hp]
  cases hf : p.filename with
  | none =>
      refine ⟨Function.update (p.assign v (clearNames env)) "nofn".toList ['1'], ?_, ?_, ?_, ?_⟩
      · simp only [changed_assign]
        rfl
      · rw [Function.update_of_ne (by decide), assign_name]
      · rw [Function.update_self]
        exact ⟨nofun, fun hne => absurd rfl hne⟩
      · rw [Function.update_of_ne (by decide), hret]
  | some f =>
      refine ⟨p.assign v (clearNames env), ?_, assign_name _ _, ?_, hret⟩
      · simp only [changed_assign]
        rfl
      · rw [assign_of_ne (by decide) (by decide), clearNames, Function.update_self]
        exact ⟨fun _ => Option.some_ne_none f, fun _ => rfl⟩

omit hp in
theorem stripEnd_crlf (t : Text) : stripEnd (t ++ crlf) = t := by
  have hlen : (t ++ crlf).length = t.length + 2 := by
    rw [List.length_append]
    rfl
  rw [stripEnd, hlen, if_neg (by omega), Nat.add_sub_cancel, List.take_left']
  rfl

/-- What the function prints for the part. -/
def Part.returned (h : Host) (p : Part) : Text × Text :=
  match p.filename with
  | none => (p.name, commandSubst (h.echo [p.content]))
  | some _ => p.var

/-- The file of a file. -/
def Part.keep (p : Part) (files : TmpFiles) : TmpFiles :=
  Function.update files p.name (p.filename.map fun _ => p.content)

/-- **The body** adds the variable of the part, and its file. -/
theorem savePartFile_content (htext : p.filename = none → TextSent p.name p.content) {env : Env}
    (hname : env "name".toList = p.name) (hnofn : env "nofn".toList = [] ↔ p.filename ≠ none)
    (files : TmpFiles) :
    ∃ env', h.savePartFile (p.content ++ crlf) (env, files) = .ok (env', p.keep files) ∧
      env' "fname_ret".toList = env "fname_ret".toList ++ ' ' :: varText (p.returned h) := by
  have hok : ¬ (isName p.name = false ∨ p.name ∈ computedNames ∨ h.taken p.name = true) := by
    rw [hp.name, hp.taken]
    rintro (hn | hc | ht)
    · cases hn
    · exact hp.computed hc
    · cases ht
  have hbind : ∀ (env : Env) (f : Env → Except Stop Uploading),
      (Except.ok env >>= f) = f env := fun _ _ => rfl
  unfold Host.savePartFile Host.savePart
  simp only [hname, if_neg hok, stripEnd_crlf]
  cases hf : p.filename with
  | some f =>
      have hempty : env "nofn".toList = [] := hnofn.mpr (by rw [hf]; exact Option.some_ne_none f)
      refine ⟨_, by rw [if_neg (not_not.mpr hempty), hbind, if_pos hempty, Part.keep, hf]; rfl, ?_⟩
      rw [Function.update_self, Part.returned, Part.var, hf]
      rfl
  | none =>
      have hsent := htext hf
      have hset : env "nofn".toList ≠ [] := fun hempty => hnofn.mp hempty hf
      have hcontent : commandSubst (p.content.filter (· ≠ '\x00')) = p.content := by
        rw [List.filter_eq_self.mpr, commandSubst_of_getLast hsent.last]
        intro c hc
        simp only [ne_eq, decide_eq_true_eq]
        rintro rfl
        exact hsent.nul hc
      have hsame : Function.update env p.name p.content "name".toList = p.name := by
        rw [Function.update_of_ne (Ne.symm hsent.own.1), hname]
      have hret : Function.update env p.name p.content "fname_ret".toList =
          env "fname_ret".toList :=
        Function.update_of_ne (Ne.symm hsent.own.2) _ _
      have hkept : ∀ (e : Env) (v : Text),
          Function.update e "fname_ret".toList v "name".toList = e "name".toList :=
        fun _ _ => Function.update_of_ne (by decide) _ _
      refine ⟨_, by
        rw [if_pos hset, if_neg hsent.shell, hcontent, hsame, hp.name, if_neg (by decide), hbind,
          if_neg hset, hkept, hsame, Function.update_idem, Part.keep, hf]
        rfl, ?_⟩
      rw [Function.update_self, hret, Function.update_self, Part.returned, hf]
      rfl

/-! ## The lines of a part -/

omit hp in
theorem splitLines_line {t : Text} (ht : t.all inLine = true) (u : Text) :
    splitLines (t ++ (crlf ++ u)) = (t ++ crlf) :: splitLines u := by
  have hline : '\n' ∉ t ++ ['\r'] := by
    rw [List.mem_append, not_or]
    exact ⟨notMem_of_all ht rfl, by decide⟩
  have hsplit : t ++ (crlf ++ u) = (t ++ ['\r']) ++ '\n' :: u := by simp [crlf]
  rw [hsplit, splitLines_append, splitLines_singleton hline, List.append_assoc]
  rfl

omit hp in
theorem splitLines_headers {xs : List Header} (hxs : ∀ x ∈ xs, x.Clean h) (u : Text) :
    splitLines (xs.flatMap (·.text ++ crlf) ++ u) = xs.map (·.text ++ crlf) ++ splitLines u := by
  induction xs with
  | nil => rfl
  | cons x xs ih =>
      rw [List.flatMap_cons, List.append_assoc, List.append_assoc,
        splitLines_line (hxs x List.mem_cons_self).line,
        ih fun y hy => hxs y (List.mem_cons_of_mem x hy)]
      rfl

theorem splitLines_part : splitLines p.text = (p.disposition ++ crlf) ::
    (p.headers.map (·.text ++ crlf) ++ crlf :: splitLines (p.content ++ crlf)) := by
  rw [Part.text, List.append_assoc, splitLines_line (inLine_disposition hp),
    splitLines_headers hp.headers]
  have hempty := splitLines_line (t := []) rfl (p.content ++ crlf)
  rw [List.nil_append] at hempty
  rw [hempty]
  rfl

omit hp in
/-- A line is read. -/
theorem readPartFile_cons {t : Text} (hstart : StartsSolid t) (ht : t.all inLine = true)
    (rest : List Text) (lncnt : Nat) (s : Uploading) :
    h.readPartFile ((t ++ crlf) :: rest) lncnt s =
      if h.isDisposition t then
        h.readDisposition t s.1 >>= fun env =>
          if 20 < lncnt + 1 then .error (.failed h.syncLost)
          else h.readPartFile rest (lncnt + 1) (env, s.2)
      else if t = [] ∧ s.1 "name".toList ≠ [] then h.savePartFile rest.flatten s
      else if 20 < lncnt + 1 then .error (.failed h.syncLost)
      else h.readPartFile rest (lncnt + 1) s := by
  have hsplit : t ++ crlf = (t ++ ['\r']) ++ ['\n'] := by simp [crlf]
  have hlast : ¬ ((t ++ ['\r']) ++ ['\n']).getLast? ≠ some '\n' := by
    rw [List.getLast?_concat]
    exact not_not.mpr rfl
  rw [Host.readPartFile, hsplit, if_neg hlast, List.dropLast_concat, readLine_line h hstart ht]

omit hp in
theorem startsSolid_header {x : Header} (hx : x.Clean h) : StartsSolid x.text := by
  intro c hc
  unfold Header.text at hc
  cases hfield : x.field with
  | nil =>
      rw [hfield] at hc
      obtain rfl : ':' = c := Option.some.inj hc
      rfl
  | cons d f =>
      rw [hfield] at hc
      obtain rfl : d = c := Option.some.inj hc
      exact hx.field d (hfield ▸ List.mem_cons_self)

omit hp in
/-- The other header lines are counted. -/
theorem readPartFile_headers {xs : List Header} (hxs : ∀ x ∈ xs, x.Clean h) (rest : List Text)
    {lncnt : Nat} (hlncnt : lncnt ≤ 20) (s : Uploading) :
    h.readPartFile (xs.map (·.text ++ crlf) ++ rest) lncnt s =
      if 20 < lncnt + xs.length then .error (.failed h.syncLost)
      else h.readPartFile rest (lncnt + xs.length) s := by
  induction xs generalizing lncnt with
  | nil =>
      rw [List.length_nil, if_neg (by omega)]
      rfl
  | cons x xs ih =>
      have hx := hxs x List.mem_cons_self
      have hne : ¬ (x.text = [] ∧ s.1 "name".toList ≠ []) := by
        rintro ⟨hnil, -⟩
        rw [Header.text] at hnil
        exact absurd hnil (by simp)
      rw [List.map_cons, List.cons_append, readPartFile_cons (startsSolid_header hx) hx.line,
        not_isDisposition_header h hx, if_neg Bool.false_ne_true, if_neg hne, List.length_cons]
      by_cases hfull : 20 < lncnt + 1
      · rw [if_pos hfull, if_pos (by omega)]
      · have hshift : lncnt + (xs.length + 1) = lncnt + 1 + xs.length := by omega
        rw [if_neg hfull, ih (fun y hy => hxs y (List.mem_cons_of_mem x hy)) (by omega), hshift]

/-- **A part** adds its variable and its file, unless it has too many lines. -/
theorem readPartFile_part (htext : p.filename = none → TextSent p.name p.content) (env : Env)
    (files : TmpFiles) :
    ∃ env', h.readPartFile (splitLines p.text) 0 (env, files) =
        (if 19 < p.headers.length then .error (.failed h.syncLost)
          else .ok (env', p.keep files)) ∧
      env' "fname_ret".toList = env "fname_ret".toList ++ ' ' :: varText (p.returned h) := by
  obtain ⟨env₁, hread, hname, hnofn, hret⟩ := readDisposition_disposition hp env
  obtain ⟨env₂, hsave, hret₂⟩ := savePartFile_content hp htext hname hnofn files
  rw [hret] at hret₂
  refine ⟨env₂, ?_, hret₂⟩
  have hne : env₁ "name".toList ≠ [] := by
    rw [hname]
    intro hnil
    have hname := hp.name
    rw [hnil] at hname
    cases hname
  have hempty : h.isDisposition [] = false := by
    have hnone : expand h.glob [] = [] := rfl
    have hline : (splitLines (join [] ++ ['\n'])).any
        ("Content-Disposition: ".toList.isPrefixOf ·) = false := rfl
    rw [Host.isDisposition, Host.echoLine, hnone, h.echoes.plain (by simp)]
    exact hline
  rw [splitLines_part hp, readPartFile_cons p.startsSolid_disposition (inLine_disposition hp),
    isDisposition_disposition hp, if_pos rfl, hread]
  have hbind : ∀ f : Env → Except Stop Uploading, (Except.ok env₁ >>= f) = f env₁ := fun _ => rfl
  rw [hbind, if_neg (by decide), readPartFile_headers hp.headers _ (by decide)]
  by_cases hfull : 19 < p.headers.length
  · rw [if_pos (by omega), if_pos hfull]
  · have hbody := readPartFile_cons (h := h) (t := []) nofun rfl (splitLines (p.content ++ crlf))
      (0 + 1 + p.headers.length) (env₁, files)
    rw [List.nil_append] at hbody
    rw [if_neg (by omega), if_neg hfull, hbody, hempty, if_neg Bool.false_ne_true,
      if_pos ⟨rfl, hne⟩, flatten_splitLines, hsave]

end Disposition

end AltF.Cgi
