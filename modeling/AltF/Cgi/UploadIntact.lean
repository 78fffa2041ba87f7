/-
  Cgi/UploadIntact.lean --- common.sh: what arrives of an upload.

  A file is saved with every byte of it.  A text comes through `echo`, which takes an option for
  its own.
-/
import AltF.Cgi.UploadEval

set_option autoImplicit false

namespace AltF.Cgi

open AltF.Foundation AltF.Shell AltF.SysFiles

/-- A form that `upload_file` takes: there is room for it, and no part has more header lines than
are read. -/
structure FormTaken (h : Host) (boundary : Text) (parts : List Part) : Prop extends
    FormSent h boundary parts where
  distinct : (parts.map Part.name).Nodup
  room : h.full (reqm (formBody boundary parts)) = false
  short : ∀ p ∈ parts, p.headers.length ≤ 19

/-- Every file is in /tmp under its name, and every text in its variable. -/
structure Arrived (parts : List Part) (s : Uploading) : Prop where
  files : ∀ p ∈ parts, p.filename ≠ none → s.2 p.name = some p.content
  texts : ∀ p ∈ parts, p.filename = none → s.1 p.name = p.content

/-- **The upload arrives as it was sent.** -/
def Intact (h : Host) (boundary : Text) (parts : List Part) (files : TmpFiles) : Prop :=
  ∃ s, h.evalUploaded (contentType boundary) (formBody boundary parts) files = .ok s ∧
    Arrived parts s

/-- An option is not printed. -/
def TakesOptions (echo : List Text → Text) : Prop :=
  ∀ w, isEchoOption w = true → commandSubst (echo [w]) = []

/-! ## Files -/

theorem keepAll_of_notMem {ps : List Part} {n : Text} (hn : n ∉ ps.map Part.name)
    (files : TmpFiles) : keepAll ps files n = files n := by
  induction ps generalizing files with
  | nil => rfl
  | cons p ps ih =>
      rw [List.map_cons, List.mem_cons, not_or] at hn
      rw [keepAll, List.foldl_cons, ← keepAll, ih hn.2, Part.keep, Function.update_of_ne hn.1]

/-- **Each part has its file**, or none. -/
theorem keepAll_of_mem {ps : List Part} (hnames : (ps.map Part.name).Nodup) {p : Part}
    (hp : p ∈ ps) (files : TmpFiles) :
    keepAll ps files p.name = p.filename.map fun _ => p.content := by
  induction ps generalizing files with
  | nil => cases hp
  | cons q ps ih =>
      rw [List.map_cons, List.nodup_cons] at hnames
      rw [keepAll, List.foldl_cons, ← keepAll]
      rcases List.mem_cons.mp hp with rfl | hp
      · rw [keepAll_of_notMem hnames.1, Part.keep, Function.update_self]
      · exact ih hnames.2 hp _

/-! ## Variables -/

/-- A text comes back, but for an option. -/
theorem echo_content {h : Host} (hoption : TakesOptions h.echo) {n content : Text}
    (ht : TextSent n content) :
    commandSubst (h.echo [content]) = if isEchoOption content then [] else content := by
  by_cases hopt : isEchoOption content = true
  · rw [if_pos hopt, hoption content hopt]
  · rw [if_neg hopt, h.echoes.plain, join_singleton, commandSubst_append_newline,
      commandSubst_of_getLast ht.last]
    intro w hw
    obtain rfl : content = w := by simpa using hw
    exact Bool.not_eq_true _ ▸ hopt

theorem Part.returned_fst (h : Host) (p : Part) : (p.returned h).1 = p.name := by
  obtain ⟨name, filename, headers, content⟩ := p
  cases filename with
  | none => rfl
  | some f => rfl

section Taken

variable {h : Host} {boundary : Text} {parts : List Part} (hform : FormTaken h boundary parts)
  (hoption : TakesOptions h.echo)

include hform hoption

theorem returned_value {p : Part} (hp : p ∈ parts) (hf : p.filename = none) :
    p.returned h = (p.name, if isEchoOption p.content then [] else p.content) := by
  rw [Part.returned, hf]
  exact congrArg (p.name, ·) (echo_content hoption (hform.texts p hp hf))

theorem returned_clean : ∀ x ∈ parts.map (·.returned h), isName x.1 = true ∧ '\'' ∉ x.2 := by
  intro x hx
  obtain ⟨p, hp, rfl⟩ := List.mem_map.mp hx
  have hname := (hform.readable p hp).name
  cases hf : p.filename with
  | none =>
      rw [returned_value hform hoption hp hf]
      refine ⟨hname, ?_⟩
      split
      · exact List.not_mem_nil
      · exact (hform.texts p hp hf).quote
  | some f =>
      have hfile : p.returned h = (p.name, "/tmp/".toList ++ p.name) := by
        rw [Part.returned, hf, Part.var, hf]
      rw [hfile]
      refine ⟨hname, ?_⟩
      rw [List.mem_append, not_or]
      exact ⟨by decide, notMem_of_all (all_isNameChar hname) rfl⟩

/-- What the upload comes to. -/
theorem evalUploaded_formBody (files : TmpFiles) :
    h.evalUploaded (contentType boundary) (formBody boundary parts) files =
      .ok (assignAll h.env (parts.map (·.returned h)), keepAll parts files) := by
  have hshort : ¬ parts.any (19 < ·.headers.length) = true := by
    rw [List.any_eq_true]
    rintro ⟨p, hp, hlong⟩
    exact absurd (hform.short p hp) (not_le.mpr (of_decide_eq_true hlong))
  rcases uploaded_formBody hform.toFormSent files with ⟨hfull, -⟩ | ⟨-, env, hup, hret⟩
  · exact absurd (hform.room.symm.trans hfull) Bool.false_ne_true
  · rw [if_neg hshort] at hup
    rw [Host.evalUploaded, hup]
    simp only [Host.printed]
    rw [hret, commandSubst_varsText, evalText,
      finish_varsText (returned_clean hform hoption) (.inl rfl)]

end Taken

/-! ## Two forms -/

theorem takesOptions_plainEcho : TakesOptions plainEcho := by
  intro w hw
  have hdrop : [w].dropWhile isEchoOption = [] := List.dropWhile_cons_of_pos hw
  rw [plainEcho, hdrop]
  split
  · rfl
  · rfl

theorem formTaken_settings : FormTaken plainHost dashes settingsForm where
  toFormSent := formClean_settings.sent
  distinct := by decide
  room := by decide +kernel
  short := by decide

/-- The text `-n`. -/
def optionPart : Part := { actionPart with content := "-n".toList }

theorem formTaken_option : FormTaken plainHost dashes [optionPart] where
  ne_nil := by decide
  chars := settings_facts.1
  readable := fun p hp => by
    rw [List.mem_singleton.mp hp]
    exact { formClean_settings.sent.readable actionPart (by decide) with }
  apart := fun p hp => by
    rw [List.mem_singleton.mp hp]
    exact not_dashes (by decide +kernel)
  texts := fun p hp _ => by
    rw [List.mem_singleton.mp hp]
    exact ⟨by decide, ⟨by decide, by decide⟩, by decide, by decide, by decide⟩
  distinct := by decide
  room := by decide +kernel
  short := by decide

end AltF.Cgi
