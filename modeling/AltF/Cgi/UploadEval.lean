/-
  Cgi/UploadEval.lean --- common.sh: what a browser's upload comes to, from the request to
  the variables of the caller.
-/
import AltF.Cgi.UploadForm

set_option autoImplicit false

namespace AltF.Cgi

open AltF.Foundation AltF.Shell AltF.SysFiles

/-! ## Content-Type -/

section Boundary

variable {h : Host} {boundary : Text} {parts : List Part} (hform : FormSent h boundary parts)

include hform

theorem boundary_simple : boundary.all isSimple = true :=
  List.all_eq_true.mpr fun c hc => by
    have hchar := List.all_eq_true.mp hform.chars c hc
    rw [isBoundaryChar, Bool.and_eq_true, Bool.and_eq_true] at hchar
    exact hchar.1.1

theorem boundary_literal : boundary.all isLiteral = true :=
  List.all_eq_true.mpr fun c hc => by
    have hchar := List.all_eq_true.mp hform.chars c hc
    rw [isBoundaryChar, Bool.and_eq_true, Bool.and_eq_true] at hchar
    exact hchar.1.2

theorem boundary_inLine : boundary.all inLine = true :=
  List.all_eq_true.mpr fun c hc => by
    have hchar := List.all_eq_true.mp hform.chars c hc
    rw [isBoundaryChar, Bool.and_eq_true, Bool.and_eq_true] at hchar
    exact hchar.2

omit hform in
theorem formType_chars :
    (formType.all fun c => solidChar c && (isPlain c && c != '#')) = true := by
  decide +kernel

theorem expand_contentType : expand h.glob (contentType boundary) =
    [formType ++ [';'], "boundary".toList ++ '=' :: boundary] := by
  have hfirst : (formType ++ [';']).all solidChar = true := by
    rw [List.all_append, List.all_eq_true.mpr fun c hc =>
      (Bool.and_eq_true_iff.mp (List.all_eq_true.mp formType_chars c hc)).1]
    rfl
  have hkey : "boundary".toList.all solidChar = true := by decide
  have hsecond : ("boundary".toList ++ '=' :: boundary).all solidChar = true := by
    rw [List.all_append, List.all_cons, hkey, all_solidChar (boundary_simple hform)]
    rfl
  have hsplit : contentType boundary =
      (formType ++ [';']) ++ ' ' :: ("boundary".toList ++ '=' :: boundary) := by
    rw [contentType, List.append_assoc, List.singleton_append]
  rw [hsplit, expand_append_cons _ _ _ rfl, expand_of_solid h.globs (by simp) hfirst,
    expand_of_solid h.globs (by simp) hsecond, List.singleton_append]

/-- **Content-Type** assigns the boundary. -/
theorem eval_contentType : evalText echoOnly h.env
    (join ("echo".toList :: expand h.glob (contentType boundary))) =
      some (Function.update h.env "boundary".toList boundary) := by
  have htext : join ("echo".toList :: expand h.glob (contentType boundary)) =
      ("echo".toList ++ [' ']) ++ (formType ++
        ([';', ' '] ++ (("boundary".toList ++ ['=']) ++ boundary))) := by
    rw [expand_contentType hform, join_cons _ (List.cons_ne_nil _ _),
      join_cons _ (List.cons_ne_nil _ _), join_singleton, List.append_assoc, List.append_assoc,
      List.append_assoc]
    rfl
  have hecho : read echoOnly (h.env, .start) ("echo".toList ++ [' ']) = (h.env, .args) := rfl
  have hnext : read echoOnly (h.env, .args) [';', ' '] = (h.env, .start) := rfl
  have hargs : (formType.all fun c => isPlain c && c != '#') = true :=
    List.all_eq_true.mpr fun c hc =>
      (Bool.and_eq_true_iff.mp (List.all_eq_true.mp formType_chars c hc)).2
  rw [htext, evalText, read_append, hecho, read_append, read_args echoOnly _ hargs, read_append,
    hnext, read_append, read_assign echoOnly (.inl rfl) _ (by decide),
    read_plain echoOnly _ _ _ (all_isPlain (boundary_simple hform))]
  rfl

/-! ## The parts of the body -/

theorem inLine_mark : (mark boundary).all inLine = true := by
  rw [mark, List.all_cons, List.all_cons, boundary_inLine hform]
  rfl

omit hform in
theorem splitLines_text_append (p : Part) (u : Text) :
    splitLines (p.text ++ u) = splitLines p.text ++ splitLines u := by
  obtain ⟨t, ht⟩ : ∃ t, p.text = t ++ ['\n'] := by
    refine ⟨p.disposition ++ crlf ++
      (p.headers.flatMap (·.text ++ crlf) ++ (crlf ++ (p.content ++ ['\r']))), ?_⟩
    simp [Part.text, crlf]
  rw [ht, List.append_assoc, List.singleton_append, splitLines_append]

/-- The lines of the body: a boundary in front of every part, and one at the end. -/
theorem splitLines_formBody (ps : List Part) : splitLines (formBody boundary ps) =
    (ps.map (splitLines ·.text)).flatMap ((mark boundary ++ crlf) :: ·) ++
      [mark boundary ++ ['-', '-'] ++ crlf] := by
  have hlast : (mark boundary ++ ['-', '-']).all inLine = true := by
    rw [List.all_append, inLine_mark hform]
    rfl
  induction ps with
  | nil =>
      have hline := splitLines_line hlast []
      rw [List.append_nil] at hline
      exact hline
  | cons p ps ih =>
      have hsplit : formBody boundary (p :: ps) =
          mark boundary ++ (crlf ++ (p.text ++ formBody boundary ps)) := by
        simp only [formBody, List.flatMap_cons, List.append_assoc]
      rw [hsplit, splitLines_line (inLine_mark hform), splitLines_text_append, ih, List.map_cons,
        List.flatMap_cons]
      simp only [List.cons_append, List.append_assoc]

/-- The boundary is found where it is, and nowhere in the parts. -/
theorem sections_formBody : sections (splitLines (formBody boundary parts))
    (lineNumbers (h.grep boundary) 0 (splitLines (formBody boundary parts))) =
      parts.map (splitLines ·.text) := by
  have hfind : ∀ t : Text, t.all inLine = true →
      h.grep boundary (mark boundary ++ t ++ crlf) = true := by
    intro t ht
    refine h.greps.finds (boundary_literal hform) ?_ ?_
    · exact ⟨['-', '-'], t ++ crlf, by simp [mark]⟩
    · have hmark := notMem_of_all (inLine_mark hform) (c := '\x00') rfl
      have htail : '\x00' ∉ t := notMem_of_all ht rfl
      rw [List.mem_append, List.mem_append, not_or, not_or]
      exact ⟨⟨hmark, htail⟩, by decide⟩
  have hmark := hfind [] rfl
  rw [List.append_nil] at hmark
  rw [splitLines_formBody hform]
  refine sections_blocks hmark (hfind ['-', '-'] rfl) ?_ ?_ []
  · intro sec hsec
    obtain ⟨p, hp, rfl⟩ := List.mem_map.mp hsec
    rw [splitLines_part (hform.readable p hp)]
    exact List.cons_ne_nil _ _
  · intro sec hsec l hl
    obtain ⟨p, hp, rfl⟩ := List.mem_map.mp hsec
    rw [← Bool.not_eq_true]
    intro hgrep
    exact hform.apart p hp
      ((h.greps.only (boundary_literal hform) hgrep).trans (infix_of_mem_splitLines hl))

/-- The files of the parts. -/
def keepAll (ps : List Part) (files : TmpFiles) : TmpFiles := ps.foldl (fun fs p => p.keep fs) files

omit hform in
/-- **The parts, one after the other.** -/
theorem foldlM_parts {ps : List Part} (hps : ∀ p ∈ ps, p.Readable h)
    (htexts : ∀ p ∈ ps, p.filename = none → TextSent p.name p.content) (env : Env)
    (files : TmpFiles) :
    ∃ env', (ps.map (splitLines ·.text)).foldlM (fun s file => h.readPartFile file 0 s)
          (env, files) =
        (if ps.any (19 < ·.headers.length) then .error (.failed h.syncLost)
          else .ok (env', keepAll ps files)) ∧
      env' "fname_ret".toList =
        env "fname_ret".toList ++ ps.flatMap fun p => ' ' :: varText (p.returned h) := by
  induction ps generalizing env files with
  | nil => exact ⟨env, rfl, (List.append_nil _).symm⟩
  | cons p ps ih =>
      obtain ⟨env₁, hread, hret₁⟩ := readPartFile_part (hps p List.mem_cons_self)
        (htexts p List.mem_cons_self) env files
      obtain ⟨env₂, hfold, hret₂⟩ := ih (fun q hq => hps q (List.mem_cons_of_mem p hq))
        (fun q hq => htexts q (List.mem_cons_of_mem p hq)) env₁ (p.keep files)
      refine ⟨env₂, ?_, ?_⟩
      · rw [List.map_cons, List.foldlM_cons, hread, List.any_cons]
        by_cases hfull : 19 < p.headers.length
        · rw [if_pos hfull, if_pos (by simp [hfull])]
          rfl
        · have hbind : ∀ f : Uploading → Except Stop Uploading,
              (Except.ok (env₁, p.keep files) >>= f) = f (env₁, p.keep files) := fun _ => rfl
          rw [if_neg hfull, hbind, hfold]
          simp [hfull, keepAll]
      · rw [hret₂, hret₁, List.flatMap_cons, List.append_assoc]

end Boundary

/-! ## The variables of the caller -/

/-- What the function prints for the parts. -/
def varsText (xs : List (Text × Text)) : Text := xs.flatMap fun x => ' ' :: varText x

/-- **What is printed** gives every variable its value. -/
theorem finish_varsText {xs : List (Text × Text)}
    (hxs : ∀ x ∈ xs, isName x.1 = true ∧ '\'' ∉ x.2) {m : Mode} (hm : m = .start ∨ m = .next)
    (env : Env) : finish (read nothing (env, m) (varsText xs)) = some (assignAll env xs) := by
  induction xs generalizing m env with
  | nil => rcases hm with rfl | rfl <;> rfl
  | cons x xs ih =>
      obtain ⟨hname, hquote⟩ := hxs x List.mem_cons_self
      have hspace : step nothing (env, m) ' ' = (env, m) := by rcases hm with rfl | rfl <;> rfl
      have hrest := ih (fun y hy => hxs y (List.mem_cons_of_mem x hy)) (.inr rfl)
        (Function.update env x.1 x.2)
      have hsplit : varsText (x :: xs) = ' ' :: (varText x ++ varsText xs) := rfl
      rw [hsplit, read_cons, hspace, read_append, varText,
        read_single_quoted nothing hm env hname hquote]
      cases xs with
      | nil => rfl
      | cons y ys => exact hrest

theorem endsSolid_varsText (xs : List (Text × Text)) : EndsSolid (varsText xs) := by
  induction xs with
  | nil => exact nofun
  | cons x xs ih =>
      have hsplit : varsText (x :: xs) = ' ' :: varText x ++ varsText xs := rfl
      by_cases hnil : varsText xs = []
      · have hlast : ' ' :: varText x = (' ' :: (x.1 ++ '=' :: '\'' :: x.2)) ++ ['\''] := rfl
        intro c hc
        rw [hsplit, hnil, List.append_nil, hlast, List.getLast?_concat] at hc
        obtain rfl : '\'' = c := Option.some.inj hc
        rfl
      · rw [hsplit]
        exact EndsSolid.append _ ih hnil

/-- The output is the printed text, without its newline. -/
theorem commandSubst_varsText (h : Host) (xs : List (Text × Text)) :
    commandSubst (h.echo [varsText xs]) = varsText xs := by
  have hopt : isEchoOption (varsText xs) = false := by cases xs <;> rfl
  rw [h.echoes.plain, join_singleton, commandSubst_append_newline,
    commandSubst_of_endsSolid (endsSolid_varsText xs)]
  intro w hw
  obtain rfl : varsText xs = w := by simpa using hw
  exact hopt

section Sent

variable {h : Host} {boundary : Text} {parts : List Part} (hform : FormSent h boundary parts)

include hform

/-- `upload_file` saves the parts and prints the assignments, unless there is no memory or a part
has too many lines. -/
theorem uploaded_formBody (files : TmpFiles) :
    (h.full (reqm (formBody boundary parts)) = true ∧
      h.uploaded (contentType boundary) (formBody boundary parts) files =
        .error (.failed (h.noMemory (reqm (formBody boundary parts))))) ∨
    (h.full (reqm (formBody boundary parts)) = false ∧
      ∃ env, h.uploaded (contentType boundary) (formBody boundary parts) files =
          (if parts.any (19 < ·.headers.length) then .error (.failed h.syncLost)
            else .ok (env, keepAll parts files)) ∧
        env "fname_ret".toList = varsText (parts.map (·.returned h))) := by
  have htype : ¬ ¬ "multipart/form-data".toList <:+: contentType boundary :=
    not_not.mpr ⟨[], _, rfl⟩
  have hchanged : changed h.env (Function.update h.env "boundary".toList boundary) = false :=
    (changed_update notMem_ownNames.2.2 boundary).trans (changed_self h.env)
  have hboundary : expand h.glob boundary = [boundary] :=
    expand_of_solid h.globs hform.ne_nil (all_solidChar (boundary_simple hform))
  obtain ⟨env, hfold, hret⟩ := foldlM_parts hform.readable hform.texts
    (Function.update (Function.update h.env "boundary".toList boundary) "fname_ret".toList []) files
  rw [Function.update_self, List.nil_append] at hret
  unfold Host.uploaded
  rw [if_neg htype]
  by_cases hfull : h.full (reqm (formBody boundary parts)) = true
  · exact .inl ⟨hfull, by rw [if_pos hfull]⟩
  · refine .inr ⟨Bool.not_eq_true _ ▸ hfull, env, ?_, ?_⟩
    · rw [if_neg hfull, eval_contentType hform]
      simp only [hchanged, Function.update_self, hboundary]
      rw [Host.uploadedParts, sections_formBody hform, hfold]
      rfl
    · rw [hret, varsText, List.flatMap_map]

end Sent

section Upload

variable {h : Host} {boundary : Text} {parts : List Part} (hform : FormClean h boundary parts)

include hform

theorem returned_of_clean : parts.map (·.returned h) = parts.map Part.var := by
  refine List.map_congr_left fun p hp => ?_
  unfold Part.returned Part.var
  cases hf : p.filename with
  | some f => rfl
  | none =>
      have htext := (hform.parts p hp).content hf
      rw [h.echoes.plain, join_singleton, commandSubst_append_newline,
        commandSubst_of_getLast htext.last]
      intro w hw
      obtain rfl : p.content = w := by simpa using hw
      exact htext.echo

theorem var_of_clean : ∀ x ∈ parts.map Part.var, isName x.1 = true ∧ '\'' ∉ x.2 := by
  intro x hx
  obtain ⟨p, hp, rfl⟩ := List.mem_map.mp hx
  have hclean := hform.parts p hp
  unfold Part.var
  cases hf : p.filename with
  | none => exact ⟨hclean.name, (hclean.content hf).quote⟩
  | some f =>
      have hname : '\'' ∉ p.name := notMem_of_all (all_isNameChar hclean.name) rfl
      refine ⟨hclean.name, ?_⟩
      rw [List.mem_append, not_or]
      exact ⟨by decide, hname⟩

/-- `upload_file` prints the assignments, unless there is no memory or a part has too many
lines. -/
theorem uploadFile_formBody : h.uploadFile (contentType boundary) (formBody boundary parts) =
    if h.full (reqm (formBody boundary parts)) then
      .error (.failed (h.noMemory (reqm (formBody boundary parts))))
    else if parts.any (19 < ·.headers.length) then .error (.failed h.syncLost)
    else .ok (h.echo [varsText (parts.map Part.var)]) := by
  rw [← h.uploaded_printed _ _ fun _ => none]
  rcases uploaded_formBody hform.sent fun _ => none with ⟨hfull, hup⟩ | ⟨hroom, env, hup, hret⟩
  · rw [hup, if_pos hfull]
    rfl
  · rw [hup, hroom, if_neg Bool.false_ne_true]
    by_cases hlines : parts.any (19 < ·.headers.length) = true
    · rw [if_pos hlines, if_pos hlines]
      rfl
    · rw [if_neg hlines, if_neg hlines, ← returned_of_clean hform, ← hret]
      rfl

/-- **What an upload comes to.** -/
theorem evalUpload_formBody : h.evalUpload (contentType boundary) (formBody boundary parts) =
    if h.full (reqm (formBody boundary parts)) then
      .error (.failed (h.noMemory (reqm (formBody boundary parts))))
    else if parts.any (19 < ·.headers.length) then .error (.failed h.syncLost)
    else .ok (assignAll h.env (parts.map Part.var)) := by
  unfold Host.evalUpload
  rw [uploadFile_formBody hform]
  by_cases hfull : h.full (reqm (formBody boundary parts)) = true
  · rw [if_pos hfull, if_pos hfull]
  · rw [if_neg hfull, if_neg hfull]
    by_cases hlines : parts.any (19 < ·.headers.length) = true
    · rw [if_pos hlines, if_pos hlines]
    · rw [if_neg hlines, if_neg hlines]
      simp only [commandSubst_varsText]
      rw [evalText, finish_varsText (var_of_clean hform) (.inl rfl)]

/-- **A clean form** runs nothing, and sets the variables of its parts. -/
theorem upload_safe : Safe h (contentType boundary) (formBody boundary parts)
    (parts.map Part.var) := by
  have hupload := evalUpload_formBody hform
  by_cases hfull : h.full (reqm (formBody boundary parts)) = true
  · rw [if_pos hfull] at hupload
    exact .inr ⟨_, hupload⟩
  · rw [if_neg hfull] at hupload
    by_cases hlines : parts.any (19 < ·.headers.length) = true
    · rw [if_pos hlines] at hupload
      exact .inr ⟨_, hupload⟩
    · rw [if_neg hlines] at hupload
      exact .inl hupload

end Upload

/-- `echo`, but for the escapes of `-e`. -/
def plainEcho (ws : List Text) : Text :=
  join (ws.dropWhile isEchoOption) ++
    (if (ws.takeWhile isEchoOption).any (·.contains 'n') then [] else ['\n'])

theorem echoes_plainEcho : Echoes plainEcho where
  plain := fun {ws} hws => by
    cases ws with
    | nil => rfl
    | cons w ws =>
        have hw : ¬ isEchoOption w = true := by
          rw [hws w rfl]
          exact Bool.false_ne_true
        rw [plainEcho, List.dropWhile_cons_of_neg hw, List.takeWhile_cons_of_neg hw]
        rfl

/-- A host with 64 MB in /tmp, and nothing in the directory of the scripts. -/
def plainHost : Host where
  env := fun _ => []
  glob := noFiles
  echo := plainEcho
  grep := fun p l => decide (p <:+: l)
  totalm := 64
  freem := 60
  remount := fun _ => true
  taken := fun _ => false
  globs := globs_noFiles
  echoes := echoes_plainEcho
  greps := ⟨fun _ h => of_decide_eq_true h, fun _ h _ => decide_eq_true h⟩

/-- A file of settings. -/
def settingsPart (filename : Text) : Part where
  name := "settings".toList
  filename := some filename
  headers := [⟨"Content-Type".toList, " application/gzip".toList⟩]
  content := "\x1f\x00\n".toList

/-- A text. -/
def actionPart : Part where
  name := "action".toList
  filename := none
  headers := []
  content := "a; $(b) \"c\"".toList

/-- The boundary. -/
def dashes : Text := "-gc0p".toList

/-- Both in a form. -/
def settingsForm : List Part := [settingsPart "my  set.gz".toList, actionPart]

theorem settings_facts : dashes.all isBoundaryChar = true ∧
    ((settingsPart "my  set.gz".toList).text.all (· != '0') = true ∧
      ((settingsPart []).headers.all fun x => x.field.all (fun c => !isBlank c && c != ':') &&
        (x.field != "Content-Disposition".toList && x.text.all inLine)) = true ∧
      "my  set.gz".toList.all inLine = true ∧
      quotable true (squeeze "my  set.gz".toList) = true) ∧
    actionPart.text.all (· != '0') = true ∧ '\'' ∉ actionPart.content ∧
      '\x00' ∉ actionPart.content ∧ actionPart.content.getLast? ≠ some '\n' ∧
      isEchoOption actionPart.content = false := by
  decide +kernel

/-- The boundary has a digit. -/
theorem not_dashes {t : Text} (ht : t.all (· != '0') = true) : ¬ dashes <:+: t :=
  fun hsub => notMem_of_all ht (c := '0') rfl (hsub.subset (by decide))

theorem clean_settingsPart : (settingsPart "my  set.gz".toList).Clean plainHost dashes := by
  obtain ⟨-, ⟨hdigit, hheaders, hline, hquotable⟩, -⟩ := settings_facts
  refine ⟨by decide, by decide, rfl, not_dashes hdigit, fun _ _ => rfl, ?_, ?_, ?_⟩
  · intro x hx
    have hheader := List.all_eq_true.mp hheaders x hx
    rw [Bool.and_eq_true, Bool.and_eq_true, bne_iff_ne] at hheader
    obtain ⟨hfield, hother, htext⟩ := hheader
    refine ⟨fun c hc => ?_, fun hcolon => ?_, hother, htext, fun _ _ => rfl⟩
    · have hchar := List.all_eq_true.mp hfield c hc
      rw [Bool.and_eq_true, Bool.not_eq_true'] at hchar
      exact hchar.1
    · have hchar := List.all_eq_true.mp hfield ':' hcolon
      rw [Bool.and_eq_true] at hchar
      cases hchar.2
  · intro f hf
    obtain rfl : "my  set.gz".toList = f := Option.some.inj hf
    exact ⟨hline, hquotable⟩
  · intro hnone
    exact absurd hnone (Option.some_ne_none _)

theorem clean_actionPart : actionPart.Clean plainHost dashes := by
  obtain ⟨-, -, hdigit, hquote, hnul, hlast, hecho⟩ := settings_facts
  refine ⟨by decide, by decide, rfl, not_dashes hdigit, fun _ _ => rfl, ?_, ?_, ?_⟩
  · intro x hx
    exact absurd hx List.not_mem_nil
  · intro f hf
    exact absurd hf.symm (Option.some_ne_none f)
  · intro _
    exact ⟨by decide, ⟨by decide, by decide⟩, hquote, hnul, hlast, hecho⟩

theorem formClean_settings : FormClean plainHost dashes settingsForm where
  ne_nil := by decide
  chars := settings_facts.1
  parts := fun p hp => by
    rcases List.mem_cons.mp hp with rfl | hp
    · exact clean_settingsPart
    · rw [List.mem_singleton.mp hp]
      exact clean_actionPart

theorem upload_safe_settings : Safe plainHost (contentType dashes) (formBody dashes settingsForm)
    (settingsForm.map Part.var) :=
  upload_safe formClean_settings

/-- **A file named `$(reboot)`** is run. -/
theorem upload_runs_command : ¬ ∀ h boundary parts, Safe h (contentType boundary)
    (formBody boundary parts) (parts.map Part.var) := by
  intro hsafe
  have hother : plainHost.uploadFile (contentType dashes)
      (formBody dashes [settingsPart "$(reboot)".toList]) = .error .other := by
    decide +kernel
  have hupload : plainHost.evalUpload (contentType dashes)
      (formBody dashes [settingsPart "$(reboot)".toList]) = .error .other := by
    rw [Host.evalUpload, hother]
  rcases hsafe plainHost dashes [settingsPart "$(reboot)".toList] with hok | ⟨message, hfail⟩
  · rw [hupload] at hok
    cases hok
  · rw [hupload] at hfail
    cases hfail

end AltF.Cgi
