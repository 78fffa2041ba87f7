/-
  Cgi/UploadFiles.lean --- common.sh: the files that `upload_file_inner` leaves in /tmp.

  A part is saved under its name and cut to its length, and a text part is deleted again.  What
  the functions print, and the variables, are as they are without the files.
-/
import AltF.Cgi.Upload

set_option autoImplicit false

namespace AltF.Cgi

open AltF.Foundation AltF.Shell AltF.SysFiles

/-- The files in /tmp, by their names. -/
abbrev TmpFiles : Type := Text → Option Text

/-- The variables, and the files. -/
abbrev Uploading : Type := Env × TmpFiles

namespace Host

variable (h : Host)

/-- `cat > /tmp/$name`, `dd`, and `rm /tmp/$name` for a text. -/
def savePartFile (body : Text) (s : Uploading) : Except Stop Uploading := do
  let env ← h.savePart body s.1
  let saved := Function.update s.2 (s.1 "name".toList) (some (stripEnd body))
  return (env, if s.1 "nofn".toList = [] then saved
    else Function.update saved (env "name".toList) none)

/-- The loop over the lines of one file. -/
def readPartFile : List Text → Nat → Uploading → Except Stop Uploading
  | [], _, s => .ok s
  | l :: rest, lncnt, s =>
      if l.getLast? ≠ some '\n' then .ok s
      else if h.isDisposition (h.readLine l.dropLast) then do
        let env ← h.readDisposition (h.readLine l.dropLast) s.1
        if 20 < lncnt + 1 then .error (.failed h.syncLost)
        else readPartFile rest (lncnt + 1) (env, s.2)
      else if h.readLine l.dropLast = [] ∧ s.1 "name".toList ≠ [] then
        h.savePartFile rest.flatten s
      else if 20 < lncnt + 1 then .error (.failed h.syncLost)
      else readPartFile rest (lncnt + 1) s

/-- `upload_file_inner $lines`, up to what it prints. -/
def uploadedParts (xxupfile : List Text) (lines : List Nat) (env : Env) (files : TmpFiles) :
    Except Stop Uploading :=
  (sections xxupfile lines).foldlM (fun s file => h.readPartFile file 0 s)
    (Function.update env "fname_ret".toList [], files)

/-- `upload_file`, up to what it prints. -/
def uploaded (contentType body : Text) (files : TmpFiles) : Except Stop Uploading :=
  if ¬ "multipart/form-data".toList <:+: contentType then
    .error (.failed (h.echo ["No Content_type: multipart/form-data on response.".toList]))
  else
    if h.full (reqm body) then .error (.failed (h.noMemory (reqm body)))
    else
      match evalText echoOnly h.env (join ("echo".toList :: expand h.glob contentType)) with
      | none => .error .other
      | some env =>
          if changed h.env env then .error .other
          else
            match expand h.glob (env "boundary".toList) with
            | [] => h.uploadedParts (splitLines body) [] env files
            | [boundary] =>
                h.uploadedParts (splitLines body)
                  (lineNumbers (h.grep boundary) 0 (splitLines body)) env files
            | _ => .error .other

/-- What is printed. -/
def printed (s : Uploading) : Text := h.echo [s.1 "fname_ret".toList]

/-- The variables of the caller, and the files. -/
def evalUploaded (contentType body : Text) (files : TmpFiles) : Except Stop Uploading :=
  match h.uploaded contentType body files with
  | .error e => .error e
  | .ok s =>
      match evalText nothing h.env (commandSubst (h.printed s)) with
      | none => .error .other
      | some env => .ok (env, s.2)

/-! ## Without the files -/

theorem savePartFile_fst (body : Text) (s : Uploading) :
    (h.savePartFile body s).map Prod.fst = h.savePart body s.1 := by
  rw [savePartFile]
  cases h.savePart body s.1 with
  | error e => rfl
  | ok env => rfl

/-- The variables do not depend on the files. -/
theorem readPartFile_fst (lines : List Text) (lncnt : Nat) (s : Uploading) :
    (h.readPartFile lines lncnt s).map Prod.fst = h.readPart lines lncnt s.1 := by
  induction lines generalizing lncnt s with
  | nil => rfl
  | cons l rest ih =>
      rw [readPartFile, readPart]
      split
      · rfl
      · split
        · cases h.readDisposition (h.readLine l.dropLast) s.1 with
          | error e => rfl
          | ok env =>
              by_cases hfull : 20 < lncnt + 1
              · exact (congrArg (Except.map Prod.fst) (if_pos hfull)).trans (if_pos hfull).symm
              · exact (congrArg (Except.map Prod.fst) (if_neg hfull)).trans
                  ((ih (lncnt + 1) (env, s.2)).trans (if_neg hfull).symm)
        · split
          · exact h.savePartFile_fst _ s
          · split
            · rfl
            · exact ih (lncnt + 1) s

theorem foldlM_fst (files : List (List Text)) (s : Uploading) :
    (files.foldlM (fun s file => h.readPartFile file 0 s) s).map Prod.fst =
      files.foldlM (fun env file => h.readPart file 0 env) s.1 := by
  induction files generalizing s with
  | nil => rfl
  | cons file files ih =>
      rw [List.foldlM_cons, List.foldlM_cons, ← h.readPartFile_fst]
      cases h.readPartFile file 0 s with
      | error e => rfl
      | ok s' => exact ih s'

theorem uploadedParts_printed (xxupfile : List Text) (lines : List Nat) (env : Env)
    (files : TmpFiles) : (h.uploadedParts xxupfile lines env files).map h.printed =
      h.uploadFileInner xxupfile lines env := by
  have hfold := h.foldlM_fst (sections xxupfile lines)
    (Function.update env "fname_ret".toList [], files)
  rw [uploadFileInner, ← hfold, uploadedParts]
  cases (sections xxupfile lines).foldlM (fun s file => h.readPartFile file 0 s)
    (Function.update env "fname_ret".toList [], files) with
  | error e => rfl
  | ok s => rfl

/-- **What is printed** does not depend on the files. -/
theorem uploaded_printed (contentType body : Text) (files : TmpFiles) :
    (h.uploaded contentType body files).map h.printed = h.uploadFile contentType body := by
  unfold uploaded uploadFile
  by_cases htype : ¬ "multipart/form-data".toList <:+: contentType
  · rw [if_pos htype, if_pos htype]
    rfl
  · rw [if_neg htype, if_neg htype]
    by_cases hfull : h.full (reqm body) = true
    · rw [if_pos hfull, if_pos hfull]
      rfl
    · rw [if_neg hfull, if_neg hfull]
      cases evalText echoOnly h.env (join ("echo".toList :: expand h.glob contentType)) with
      | none => rfl
      | some env =>
          by_cases hchanged : changed h.env env = true
          · simp only [hchanged]
            rfl
          · simp only [hchanged]
            cases expand h.glob (env "boundary".toList) with
            | nil => exact h.uploadedParts_printed _ _ _ _
            | cons b bs =>
                cases bs with
                | nil => exact h.uploadedParts_printed _ _ _ _
                | cons b' bs => rfl

theorem evalUploaded_fst (contentType body : Text) (files : TmpFiles) :
    (h.evalUploaded contentType body files).map Prod.fst = h.evalUpload contentType body := by
  rw [evalUploaded, evalUpload, ← h.uploaded_printed contentType body files]
  cases h.uploaded contentType body files with
  | error e => rfl
  | ok s =>
      simp only [Except.map]
      cases evalText nothing h.env (commandSubst (h.printed s)) with
      | none => rfl
      | some env => rfl

end Host

end AltF.Cgi
