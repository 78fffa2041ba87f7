/-
  Cgi/Session.lean --- common.sh: `check_cookie`, and login_proc.cgi: the session of the
  administrator under requests of others.

  The state is what the two scripts read and write: the session file with its time, the
  password file and the salt.  What a guarded page does for a request that passes, and
  what a request does whose fields are more than assignments, is part of the request.
-/
import AltF.Cgi.Args
import AltF.Foundation.Runs

set_option autoImplicit false

namespace AltF.Cgi

open AltF.Foundation AltF.Shell AltF.SysFiles

/-! ## The scripts -/

/-- The files of a session. -/
structure Server where
  /-- /tmp/cookie, and when it was touched -/
  cookie : Option (Text × Int)
  /-- what is in a file, nothing when there is none -/
  file : Text → Text
  /-- /tmp/salt -/
  salt : Text

/-- The system of the scripts. -/
structure Site extends Machine where
  echo : List Text → Text
  /-- the variables of a request -/
  env : Env
  /-- `cat $SECR /tmp/salt | md5sum - | cut -d" " -f1` -/
  md5 : Text → Text → Text
  /-- `checkpass`: the password, when it is one -/
  checkpass : Text → Option Text

/-- A request, by what it asks for. -/
inductive Target where
  /-- a page with `check_cookie`, and what it does behind that -/
  | guarded (httpCookie : Text) (page : Server → Server)
  /-- login_proc.cgi, with what `uuidgen` prints, and what the body has run if it is more
  than fields -/
  | login (body id : Text) (other : Server → Server)

/-- A request and its time. -/
structure Request where
  time : Int
  page : Target

/-- `[^[:space:],;]` -/
def isIdChar (c : Char) : Bool := !" \t\n\x0b\x0c\r,;".toList.contains c

/-- `sed -n 's/ALTFID=\([^[:space:],;]*\).*/\1/p'` on a line. -/
def sedAltfid (l : Text) : Option Text :=
  if "ALTFID=".toList.isPrefixOf l then some ((l.drop 7).takeWhile isIdChar)
  else
    match l with
    | [] => none
    | c :: t => (sedAltfid t).map (c :: ·)

/-- /etc/web-secret -/
def webSecret : Text := "/etc/web-secret".toList

/-- The session of `content`, from `now` on. -/
def Server.openSession (s : Server) (content : Text) (now : Int) : Server :=
  { s with cookie := some (content, now), salt := [] }

namespace Site

variable (m : Site)

/-- `ALTFID` -/
def altfid (httpCookie : Text) : Text :=
  commandSubst ((splitLines (m.echo (expand m.glob httpCookie))).flatMap fun l =>
    match sedAltfid (l.filter (· ≠ '\n')) with
    | none => []
    | some id => id ++ ['\n'])

/-- The test of `check_cookie`. -/
def passes (s : Server) (now : Int) (httpCookie : Text) : Bool :=
  match s.cookie with
  | none => false
  | some (content, time) =>
      httpCookie != [] && m.altfid httpCookie != [] && decide (now - time < 1800) &&
        commandSubst content == m.altfid httpCookie

/-- `check_cookie`, when it does not let the request pass. -/
def refuse (s : Server) (httpCookie : Text) : Server :=
  if httpCookie = [] then s else { s with cookie := none }

/-- `touch /tmp/cookie` -/
def touch (s : Server) (now : Int) : Server :=
  { s with cookie := s.cookie.map fun k => (k.1, now) }

/-- A page with `check_cookie`. -/
def guarded (s : Server) (now : Int) (httpCookie : Text) (page : Server → Server) : Server :=
  if m.passes s now httpCookie then page (touch s now) else refuse s httpCookie

/-- The variables of login_proc.cgi in front of `read_args`. -/
def loginEnv : Env := Function.update m.env "SECR".toList webSecret

/-- login_proc.cgi behind `read_args`. -/
def login (s : Server) (now : Int) (id : Text) (env : Env) : Server :=
  if s.file (env "SECR".toList) = [] then
    -- the first login sets the password
    if env "passwd".toList = [] ∨ env "passwd".toList ≠ env "passwd_again".toList then s
    else
      match m.checkpass (env "passwd".toList) with
      | none => s
      | some passwd =>
          Server.openSession { s with file := Function.update s.file (env "SECR".toList) passwd }
            (id ++ ['\n']) now
  else if env "passwd".toList = m.md5 (s.file webSecret) s.salt then
    s.openSession (id ++ ['\n']) now
  else { s with salt := [] }

/-- login_proc.cgi -/
def loginProc (s : Server) (now : Int) (body id : Text) (other : Server → Server) : Server :=
  match m.readArgs m.loginEnv body with
  | none => other s
  | some env =>
      -- without its commands the rest is not followed
      if ["IFS".toList, "PATH".toList].any fun n => env n ≠ m.loginEnv n then other s
      else m.login s now id env

/-- A request. -/
def step (s : Server) (r : Request) : Server :=
  match r.page with
  | .guarded httpCookie page => m.guarded s r.time httpCookie page
  | .login body id other => m.loginProc s r.time body id other

/-! ## Strangers -/

/-- The Cookie header has the id of the session: as one of its cookies, or as the guard
reads it. -/
def CarriesId (s : Server) (httpCookie : Text) : Prop :=
  ∃ content time, s.cookie = some (content, time) ∧
    (commandSubst content = m.altfid httpCookie ∨
      "ALTFID=".toList ++ commandSubst content ∈ (httpCookie.splitOn ';').map trim)

/-- The field `passwd` is the digest of the password and the salt. -/
def CarriesPassword (s : Server) (body : Text) : Prop :=
  ∃ env, m.readArgs m.loginEnv body = some env ∧
    env "passwd".toList = m.md5 (s.file webSecret) s.salt

/-- A request with neither. -/
structure Stranger (s : Server) (r : Request) : Prop where
  id : ∀ {httpCookie page}, r.page = .guarded httpCookie page → ¬ m.CarriesId s httpCookie
  password : ∀ {body id other}, r.page = .login body id other → ¬ m.CarriesPassword s body

/-- There is a session, and it is not older than half an hour. -/
def Young (s : Server) (r : Request) : Prop :=
  ∃ content time, s.cookie = some (content, time) ∧ r.time - time ≤ 1800

/-- The names that a body of login_proc.cgi must not set. -/
def loginNames : List Text := "SECR".toList :: readArgsNames

/-- A body that is only fields, and none of the script's own variables. -/
structure Harmless (s : Server) (body : Text) : Prop where
  /-- there is a password -/
  secret : s.file webSecret ≠ []
  /-- no word is replaced by the names of files -/
  kept : m.Keeps (m.echoArgs (readLine body))
  /-- no key, and no value, is one of the names -/
  names : ∀ x ∈ Machine.firstSet (m.echoArgs (readLine body)) ++
    Machine.secondSet (m.echoArgs (readLine body)), x.1 ∉ loginNames

/-- The condition: no Cookie header on a guarded page, a harmless body on
login_proc.cgi. -/
structure Quiet (s : Server) (r : Request) : Prop where
  header : ∀ {httpCookie page}, r.page = .guarded httpCookie page → httpCookie = []
  body : ∀ {body id other}, r.page = .login body id other → m.Harmless s body

/-! ## What a stranger does -/

theorem passes_iff (s : Server) (now : Int) (httpCookie : Text) :
    m.passes s now httpCookie = true ↔ ∃ content time, s.cookie = some (content, time) ∧
      httpCookie ≠ [] ∧ m.altfid httpCookie ≠ [] ∧ now - time < 1800 ∧
      commandSubst content = m.altfid httpCookie := by
  unfold passes
  split
  · rename_i hnone
    simp [hnone]
  · rename_i content time hsome
    simp [hsome, and_assoc]

/-- A stranger does not pass. -/
theorem not_passes {s : Server} {now : Int} {httpCookie : Text}
    (h : ¬ m.CarriesId s httpCookie) : ¬ m.passes s now httpCookie = true := by
  rw [passes_iff]
  rintro ⟨content, time, hcookie, -, -, -, hid⟩
  exact h ⟨content, time, hcookie, .inl hid⟩

/-- **On a guarded page** a stranger leaves the session exactly without a Cookie
header. -/
theorem guarded_cookie_iff {s : Server} {now : Int} {httpCookie : Text} {page : Server → Server}
    (h : ¬ m.CarriesId s httpCookie) (hopen : s.cookie ≠ none) :
    (m.guarded s now httpCookie page).cookie = s.cookie ↔ httpCookie = [] := by
  rw [guarded, if_neg (m.not_passes h), refuse]
  split
  · rename_i hempty
    exact iff_of_true rfl hempty
  · rename_i hheader
    exact iff_of_false (Ne.symm hopen) hheader

/-- A harmless body leaves the variables of the script. -/
theorem Harmless.readArgs {m : Site} {s : Server} {body : Text} (h : m.Harmless s body) :
    ∃ env, m.readArgs m.loginEnv body = some env ∧
      ∀ n ∈ ["SECR".toList, "IFS".toList, "PATH".toList], env n = m.loginEnv n := by
  have hargs : ∀ n ∈ ["SECR".toList, "IFS".toList, "PATH".toList], n ∈ loginNames ∧
      n ≠ "args".toList := by
    decide +kernel
  have hfirst : ∀ env : Env, ∀ n ∈ loginNames,
      assignAll env (Machine.firstSet (m.echoArgs (readLine body))) n = env n := by
    intro env n hn
    refine (assignAll_cases _ _ n).resolve_right fun hmem => ?_
    exact h.names _ (List.mem_append_left _ hmem) hn
  have hsecond : ∀ env : Env, ∀ n ∈ loginNames,
      assignAll env (Machine.secondSet (m.echoArgs (readLine body))) n = env n := by
    intro env n hn
    refine (assignAll_cases _ _ n).resolve_right fun hmem => ?_
    exact h.names _ (List.mem_append_right _ hmem) hn
  have hsame : ¬ (readArgsNames.any fun n =>
      assignAll (Machine.startEnv m.loginEnv body)
        (Machine.firstSet (m.echoArgs (readLine body))) n ≠
          Machine.startEnv m.loginEnv body n) = true := by
    rw [List.any_eq_true]
    rintro ⟨n, hn, hne⟩
    exact of_decide_eq_true hne (hfirst _ n (List.mem_cons_of_mem _ hn))
  refine ⟨_, by rw [Machine.readArgs, m.evalBoth_eq h.kept, if_neg hsame], fun n hn => ?_⟩
  obtain ⟨hname, hne⟩ := hargs n hn
  rw [hsecond _ n hname, hfirst _ n hname, Machine.startEnv, Function.update_of_ne hne]

/-- A stranger with a harmless body is sent back to the login page. -/
theorem Harmless.cookie {m : Site} {s : Server} {body : Text} (h : m.Harmless s body)
    (hstranger : ¬ m.CarriesPassword s body) (now : Int) (id : Text) (other : Server → Server) :
    (m.loginProc s now body id other).cookie = s.cookie := by
  obtain ⟨env, hread, hkept⟩ := h.readArgs
  have hsame : ¬ (["IFS".toList, "PATH".toList].any fun n => env n ≠ m.loginEnv n) = true := by
    rw [List.any_eq_true]
    rintro ⟨n, hn, hne⟩
    exact of_decide_eq_true hne (hkept n (List.mem_cons_of_mem _ hn))
  have hsecr : env "SECR".toList = webSecret := by
    rw [hkept _ List.mem_cons_self, loginEnv, Function.update_self]
  have hwrong : env "passwd".toList ≠ m.md5 (s.file webSecret) s.salt := fun hpass =>
    hstranger ⟨env, hread, hpass⟩
  unfold loginProc login
  rw [hread]
  dsimp only
  rw [if_neg hsame, if_neg (hsecr ▸ h.secret), if_neg hwrong]

/-- One request of a stranger. -/
theorem step_cookie {s : Server} {r : Request} (hstranger : m.Stranger s r)
    (hquiet : m.Quiet s r) : (m.step s r).cookie = s.cookie := by
  unfold step
  split
  · rename_i httpCookie page hpage
    rw [guarded, if_neg (m.not_passes (hstranger.id hpage)), refuse, if_pos (hquiet.header hpage)]
  · rename_i body id other hpage
    exact (hquiet.body hpage).cookie (hstranger.password hpage) r.time id other

end Site

/-- A box whose password is `secret`. -/
def secretSite : Site where
  toMachine := plainMachine
  echo := fun ws => join ws ++ ['\n']
  env := fun _ => []
  md5 := fun _ _ => "5ebe2294ecd0e0f08eab7690d2a6ee69".toList
  checkpass := fun t => if t = [] then none else some t

/-- The administrator has logged in at time 0. -/
def loggedIn : Server where
  cookie := some ("c0ffee\n".toList, 0)
  file := fun _ => "secret".toList
  salt := []

/-- A page without a Cookie header, and a wrong password. -/
def visit : Request where
  time := 60
  page := .guarded [] id

def guess : Request where
  time := 61
  page := .login "passwd=guess".toList "decade".toList id

theorem sets_guess : (Machine.firstSet (secretSite.echoArgs (readLine "passwd=guess".toList)) ++
    Machine.secondSet (secretSite.echoArgs (readLine "passwd=guess".toList))).map Prod.fst =
      ["passwd".toList, "guess".toList] ∧
    ∀ n ∈ ["passwd".toList, "guess".toList], n ∉ Site.loginNames := by
  decide +kernel

theorem harmless_guess (s : Server) (hs : s.file webSecret ≠ []) :
    secretSite.Harmless s "passwd=guess".toList where
  secret := hs
  kept := ⟨fun _ _ => rfl, fun _ _ => rfl⟩
  names := fun x hx => by
    refine sets_guess.2 x.1 ?_
    rw [← sets_guess.1]
    exact List.mem_map_of_mem hx

/-- A request with the cookie of another program. -/
def foreign : Request where
  time := 60
  page := .guarded "lang=en".toList id

theorem altfid_foreign : secretSite.altfid "lang=en".toList = [] ∧
    ("lang=en".toList.splitOn ';').map trim = ["lang=en".toList] := by
  decide +kernel

end AltF.Cgi
