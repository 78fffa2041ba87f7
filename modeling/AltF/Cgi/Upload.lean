/-
  Cgi/Upload.lean --- common.sh: `upload_file` and `upload_file_inner`, up to the text
  that the caller evaluates.

  Four texts are evaluated: Content-Type, what stands behind the first semicolon of a
  Content-Disposition line, the assignment of a text part, and what the function
  prints.  The names of the temporary files are not modelled, nor is what is removed.
-/
import Mathlib.Data.List.Infix
import AltF.Shell.Indirect
import AltF.SysFiles.Sections

set_option autoImplicit false

namespace AltF.Cgi

open AltF.Foundation AltF.Shell AltF.SysFiles

/-! ## echo and grep -/

/-- `-n`, `-e`, `-E`, or several of them. -/
def isEchoOption : Text → Bool
  | '-' :: c :: t => (c :: t).all "neE".toList.contains
  | _ => false

/-- Options of `echo` have no other characters than these. -/
theorem isEchoOption_of_mem {t : Text} {d : Char} (hd : d ∈ t)
    (hnot : "-neE".toList.contains d = false) : isEchoOption t = false := by
  unfold isEchoOption
  split
  · rename_i c u
    cases hall : (c :: u).all "neE".toList.contains with
    | false => rfl
    | true =>
        have hne : d ≠ '-' := by
          rintro rfl
          exact absurd hnot (by decide)
        have hmem := List.all_eq_true.mp hall d ((List.mem_cons.mp hd).resolve_left hne)
        have hin : "-neE".toList.contains d = true :=
          List.contains_iff_mem.mpr (List.mem_cons_of_mem '-' (List.contains_iff_mem.mp hmem))
        exact absurd (hnot.symm.trans hin) Bool.false_ne_true
  · rfl

/-- Without options `echo` prints its arguments. -/
structure Echoes (echo : List Text → Text) : Prop where
  plain : ∀ {ws : List Text}, (∀ w ∈ ws.head?, isEchoOption w = false) →
    echo ws = join ws ++ ['\n']

/-- A character that stands for itself in a pattern. -/
def isLiteral (c : Char) : Bool := !".[]*^$\\\n".toList.contains c

/-- `grep` finds a pattern without special characters where it occurs, and nowhere else.
It does not read on behind a NUL. -/
structure Greps (grep : Text → Text → Bool) : Prop where
  only : ∀ {p l : Text}, p.all isLiteral = true → grep p l = true → p <:+: l
  finds : ∀ {p l : Text}, p.all isLiteral = true → p <:+: l → '\x00' ∉ l → grep p l = true

/-! ## The functions -/

/-- Why there is nothing to evaluate for the caller. -/
inductive Stop where
  /-- the function prints a message and returns 1 -/
  | failed (message : Text)
  /-- something other than an assignment was evaluated, or something that is not
  followed here -/
  | other
  deriving DecidableEq, Repr

/-- A run of a cgi script that calls `upload_file`. -/
structure Host where
  env : Env
  glob : Text → List Text
  echo : List Text → Text
  /-- `grep` with a pattern and a line -/
  grep : Text → Text → Bool
  /-- `df -m /tmp` -/
  totalm : Nat
  freem : Nat
  /-- `mount -o remount,size=...M /tmp` -/
  remount : Nat → Bool
  /-- the names in /tmp that are no plain files -/
  taken : Text → Bool
  globs : Globs glob
  echoes : Echoes echo
  greps : Greps grep

/-- Variables whose value the shell computes. -/
def computedNames : List Text := ["RANDOM".toList, "LINENO".toList]

/-- Variables of the rest of the run that a part cannot have for a name. -/
def shellNames : List Text := ["IFS".toList, "PATH".toList, "oumask".toList]

/-- Variables that no evaluation but that of a part may change. -/
def ownNames : List Text :=
  shellNames ++ ["ln".toList, "lncnt".toList, "i".toList, "files".toList, "xxupfile".toList]

/-- One of them has been changed. -/
def changed (env env' : Env) : Bool := ownNames.any fun n => env' n ≠ env n

/-- `name=""; filename=""; nofn=""` -/
def clearNames (env : Env) : Env :=
  Function.update (Function.update (Function.update env "name".toList []) "filename".toList [])
    "nofn".toList []

/-- What `read` drops at both ends of a line. -/
def trim (t : Text) : Text := (t.dropWhile isBlank).rdropWhile isBlank

/-- `${ln#*;}` -/
def afterSemicolon (t : Text) : Text :=
  match t.dropWhile (· ≠ ';') with
  | [] => t
  | _ :: r => r

/-- `strip file last CR/LF`: `dd` fails on a file that is shorter. -/
def stripEnd (t : Text) : Text := if t.length < 2 then t else t.take (t.length - 2)

/-- `CONTENT_LENGTH * 2 / 1024 / 1024` -/
def reqm (body : Text) : Nat := body.length * 2 / 1024 / 1024

/-- `echo` is the only command of `eval echo $CONTENT_TYPE`. -/
def echoOnly (n : Text) : Bool := n == "echo".toList

namespace Host

variable (h : Host)

/-- `read -r ln; ln=$(echo "$ln"|dos2unix)` -/
def readLine (l : Text) : Text :=
  commandSubst ((h.echo [trim (l.filter (· ≠ '\x00'))]).filter (· ≠ '\r'))

/-- `echo $ln` -/
def echoLine (ln : Text) : List Text := splitLines (h.echo (expand h.glob ln))

/-- `echo $ln | grep -q "^Content-Disposition: "` -/
def isDisposition (ln : Text) : Bool :=
  (h.echoLine ln).any fun l => "Content-Disposition: ".toList.isPrefixOf l

/-- `echo $ln | grep -qv filename=` -/
def lacksFilename (ln : Text) : Bool :=
  (h.echoLine ln).any fun l => !decide ("filename=".toList <:+: l)

/-- What is done with a Content-Disposition line. -/
def readDisposition (ln : Text) (env : Env) : Except Stop Env :=
  match evalWords h.glob (clearNames env) (afterSemicolon ln) with
  | none => .error .other
  | some env₁ =>
      if changed (clearNames env) env₁ then .error .other
      else if h.lacksFilename ln then .ok (Function.update env₁ "nofn".toList ['1'])
      else .ok env₁

/-- A message body is saved, and added to `fname_ret`. -/
def savePart (body : Text) (env : Env) : Except Stop Env :=
  let name := env "name".toList
  if isName name = false ∨ name ∈ computedNames ∨ h.taken name = true then .error .other
  else if env "nofn".toList ≠ [] then
    if name ∈ shellNames then .error .other
    else
      let env := Function.update env name
        (commandSubst ((stripEnd body).filter (· ≠ '\x00')))
      let name := env "name".toList
      if isName name = false then .error .other
      else .ok (Function.update env "fname_ret".toList (env "fname_ret".toList ++
        ' ' :: (name ++ '=' :: '\'' :: commandSubst (h.echo [env name]) ++ ['\''])))
  else .ok (Function.update env "fname_ret".toList (env "fname_ret".toList ++
    ' ' :: (name ++ '=' :: '\'' :: ("/tmp/".toList ++ name) ++ ['\''])))

/-- The message after more than 20 lines. -/
def syncLost : Text := h.echo ["upload_file_inner:  sync lost?".toList]

/-- The loop over the lines of one file, behind `lncnt` of them. -/
def readPart : List Text → Nat → Env → Except Stop Env
  | [], _, env => .ok env
  | l :: rest, lncnt, env =>
      -- `read` fails on a line without an end
      if l.getLast? ≠ some '\n' then .ok env
      else if h.isDisposition (h.readLine l.dropLast) then do
        let env ← h.readDisposition (h.readLine l.dropLast) env
        if 20 < lncnt + 1 then .error (.failed h.syncLost) else readPart rest (lncnt + 1) env
      else if h.readLine l.dropLast = [] ∧ env "name".toList ≠ [] then h.savePart rest.flatten env
      else if 20 < lncnt + 1 then .error (.failed h.syncLost)
      else readPart rest (lncnt + 1) env

/-- `upload_file_inner $lines` -/
def uploadFileInner (xxupfile : List Text) (lines : List Nat) (env : Env) : Except Stop Text := do
  let env ← (sections xxupfile lines).foldlM (fun env file => h.readPart file 0 env)
    (Function.update env "fname_ret".toList [])
  return h.echo [env "fname_ret".toList]

/-- /tmp is too small for the upload, and cannot be made larger. -/
def full (reqm : Nat) : Bool :=
  decide (h.freem < reqm) && !h.remount (h.totalm + reqm + 10 - h.freem)

/-- The message then. -/
def noMemory (reqm : Nat) : Text :=
  h.echo ["Not enought /tmp memory,\\n".toList ++ printInt reqm ++ " MB required, ".toList ++
    printInt h.freem ++ " MB available.\\nIs swap active?".toList]

/-- `upload_file`, with `body` on its input. -/
def uploadFile (contentType body : Text) : Except Stop Text :=
  if ¬ "multipart/form-data".toList <:+: contentType then
    .error (.failed (h.echo ["No Content_type: multipart/form-data on response.".toList]))
  else
    if h.full (reqm body) then .error (.failed (h.noMemory (reqm body)))
    else
      match evalText echoOnly h.env (join ("echo".toList :: expand h.glob contentType)) with
      | none => .error .other
      | some env =>
          if changed h.env env then .error .other
          else
            match expand h.glob (env "boundary".toList) with
            -- the pattern is the file's name, and the input is at its end
            | [] => h.uploadFileInner (splitLines body) [] env
            | [boundary] =>
                h.uploadFileInner (splitLines body)
                  (lineNumbers (h.grep boundary) 0 (splitLines body)) env
            | _ => .error .other

/-- The caller: `res=$(upload_file)` and, unless it failed, `eval "$res"`. -/
def evalUpload (contentType body : Text) : Except Stop Env :=
  match h.uploadFile contentType body with
  | .error e => .error e
  | .ok out =>
      match evalText nothing h.env (commandSubst out) with
      | none => .error .other
      | some env => .ok env

end Host

end AltF.Cgi
