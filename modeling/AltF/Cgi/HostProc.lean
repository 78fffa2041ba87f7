/-
  Cgi/HostProc.lean --- host_proc.cgi: the name and the addresses of the box.

  The files for IPv6 are edited before anything is looked at.  Each address is evaluated as
  an assignment before it is checked, so that a field can run commands; what they do is a
  parameter.
-/
import AltF.Cgi.EtcFiles
import AltF.SysFiles.Patterns

set_option autoImplicit false

namespace AltF.Cgi.Etc

open AltF.Shell AltF.SysFiles

/-! ## Front -/

/-- `/^blacklist.*ipv6/` -/
def blacklists (l : Text) : Bool :=
  "blacklist".toList.isPrefixOf l && decide ("ipv6".toList <:+: l.drop 9)

/-- `/^ipv6/` -/
def loadsIpv6 (l : Text) : Bool := "ipv6".toList.isPrefixOf l

/-- `/::/` -/
def isIpv6Line (l : Text) : Bool := decide ("::".toList <:+: l)

/-- `grep -q ipv6-localhost` -/
def knowsIpv6 (hosts : Option TextFile) : Bool :=
  (hosts.map TextFile.lines).any fun ls => ls.any fun l => decide ("ipv6-localhost".toList <:+: l)

def ipv6Hosts : List Text :=
  ["::1\tlocalhost ipv6-localhost ipv6-loopback".toList, "fe00::0\tipv6-localnet".toList,
    "ff00::0\tipv6-mcastprefix".toList, "ff02::1\tipv6-allnodes".toList,
    "ff02::2\tipv6-allrouters".toList, "ff02::3\tipv6-allhosts".toList]

section Front

variable (f : Form)

/-- The edits for IPv6. -/
def ipv6Front : Page PUnit := do
  sedDelete .modprobe blacklists
  sedDelete .modules loadsIpv6
  if f.var "ipv6".toList = [] then do
    append .modprobe ["blacklist ipv6".toList]
    sedDelete .hosts isIpv6Line
  else do
    append .modules ["ipv6".toList]
    edit .hosts fun hosts =>
      if knowsIpv6 hosts then hosts else some ((hosts.getD ⟨[], []⟩).cat ⟨ipv6Hosts, []⟩)

/-- The same, file by file. -/
def modprobeEdit : Edit :=
  ⟨blacklists, if f.var "ipv6".toList = [] then ["blacklist ipv6".toList] else []⟩

def modulesEdit : Edit :=
  ⟨loadsIpv6, if f.var "ipv6".toList = [] then [] else ["ipv6".toList]⟩

def hostsEdit (hosts : Option TextFile) : Option TextFile :=
  if f.var "ipv6".toList = [] then Edit.apply ⟨isIpv6Line, []⟩ hosts
  else if knowsIpv6 hosts then hosts else some ((hosts.getD ⟨[], []⟩).cat ⟨ipv6Hosts, []⟩)

def ipv6Files (s : Files) : Files
  | .modprobe => Edit.apply (modprobeEdit f) (s .modprobe)
  | .modules => Edit.apply (modulesEdit f) (s .modules)
  | .hosts => hostsEdit f (s .hosts)
  | file => s file

/-- The files are as the form leaves them before it is checked. -/
structure HostSettled (s : Files) : Prop where
  modprobe : Edit.Settled [modprobeEdit f] (s .modprobe)
  modules : Edit.Settled [modulesEdit f] (s .modules)
  hosts : if f.var "ipv6".toList = [] then Edit.Settled [⟨isIpv6Line, []⟩] (s .hosts)
    else knowsIpv6 (s .hosts) = true

end Front

/-! ## Checks -/

structure HostTools extends Tools where
  /-- What becomes of the variables and files when a text that does more than assign is
  evaluated, unless the script ends there. -/
  commands : Text → Env → Files → Option (Env × Files)
  /-- What a `sed` script does, in a name of which there is more than the name of a host. -/
  sedScript : Text → Files → Files

section Checks

variable (tools : HostTools)

/-- The addresses of the form. -/
def hostFields : List Text :=
  ["hostip".toList, "netmask".toList, "gateway".toList, "ns1".toList, "ns2".toList]

/-- `$(trimspaces $(httpd -d "$t"))` -/
def HostTools.decoded (t : Text) : Text := tools.trimspaces (commandSubst (httpdDecode t))

/-- `$(echo "$n=\"$arg\"")`, as it is evaluated -/
def HostTools.assignment (n arg : Text) : Text :=
  join (expand tools.glob (commandSubst (tools.echo [n ++ "=\"".toList ++ arg ++ ['"']])))

def addressMessage (n arg : Text) : Text :=
  n ++ ' ' :: arg ++
    " must be an IP in the form x.x.x.x where x is a number between 0 and 255.".toList

/-- A script that ends in the middle of what it evaluates shows no page. -/
def silent : Ending := .gotopage []

/-- An address that is given: evaluated, and then checked. -/
def HostTools.setField (env : Env) (n arg : Text) : Page Env := do
  let text := tools.assignment n arg
  let env ←
    match evalText nothing env text with
    | some env => pure env
    | none => fun s =>
        match tools.commands text env s with
        | some (env, s) => .ok env s
        | none => .error silent s
  if tools.checkip arg = false then exit (.msg (addressMessage n arg)) else pure env

/-- The body of the loop. -/
def HostTools.hostField (env : Env) (n : Text) : Page Env :=
  let arg := tools.echoVar env n
  if arg = [] then pure env else tools.setField env n (tools.decoded arg)

def inUseMessage (hostip : Text) : Text :=
  "The IP ".toList ++ hostip ++ " is already in use by another computer.".toList

def hostnameMessage : Text :=
  ("The host name can only have letters, digits, hyphens, no spaces, and must begin with " ++
    "a letter.").toList

/-- The name that the box is given. -/
def HostTools.hostname (env : Env) : Text :=
  let entered := tools.decoded (env "hostname".toList)
  if entered = [] then tools.board else entered

/-- What the other checks find fault with. -/
def HostTools.hostError (env : Env) : Option Text :=
  if env "iptype".toList = "static".toList ∧
      tools.arping (expand tools.glob (env "hostip".toList)) = false then
    some (inUseMessage (env "hostip".toList))
  else if tools.checkname [tools.hostname env] = false then some hostnameMessage
  else none

def HostTools.hostChecks (f : Form) : Page Env := do
  let env ← hostFields.foldlM tools.hostField f.var
  match tools.hostError env with
  | some txt => exit (.msg txt)
  | none => pure env

/-- What the checks find, unless a field runs commands: a fault, or the variables. -/
def HostTools.checkFields : Env → List Text → Option (Except Text Env)
  | env, [] => some (.ok env)
  | env, n :: rest =>
      let arg := tools.echoVar env n
      if arg = [] then HostTools.checkFields env rest
      else
        match evalText nothing env (tools.assignment n (tools.decoded arg)) with
        | none => none
        | some env =>
            if tools.checkip (tools.decoded arg) = false then
              some (.error (addressMessage n (tools.decoded arg)))
            else HostTools.checkFields env rest

/-- The fault that is found with a form. -/
def HostTools.formError (f : Form) : Option (Option Text) :=
  (tools.checkFields f.var hostFields).map fun found =>
    match found with
    | .error txt => some txt
    | .ok env => tools.hostError env

end Checks

/-! ## Writing -/

section Rest

variable (tools : HostTools)

/-- The characters of host names and addresses. -/
def isNamePattern (t : Text) : Bool := t.all fun c => c.isAlphanum || c == '-' || c == '.'

/-- `sed -i`, with a name in its pattern. -/
def HostTools.sedNamed (file : EtcFile) (script name : Text) (pattern : Text → Bool) : Page PUnit :=
  if isNamePattern name then sedDelete file pattern
  else modifyGet fun s => (⟨⟩, tools.sedScript script s)

/-- `/p$/`, where dots are any character -/
def dotSuffix (p t : Text) : Bool :=
  decide (p.length ≤ t.length) && dotPrefix p (t.drop (t.length - p.length))

/-- `/^[^#].*name$/` -/
def endsOldName (name : Text) : Text → Bool
  | [] => false
  | c :: t => c != '#' && dotSuffix name t

/-- `/^ip[ \t]/`, and with `[[:space:]]` -/
def startsAddress (ip l : Text) : Bool :=
  dotPrefix ip l && (l.drop ip.length).head?.any fun c => c == ' ' || c == '\t'

/-- `/[[:space:]]name$/` -/
def endsName (name l : Text) : Bool :=
  dotSuffix name l && (l.take (l.length - name.length)).getLast?.any fun c => c == ' ' || c == '\t'

/-- The line of the box. -/
def boxLine (ip hostname domain : Text) : List Text :=
  (ip ++ ' ' :: hostname ++ '.' :: domain ++ ' ' :: hostname).splitOn '\n'

def resolvMark : Text := "#!# in use by dnsmasq, don't change".toList

def searchLine (domain : Text) : Text := "search ".toList ++ domain

def serverLine (ns : Text) : Text := "nameserver ".toList ++ ns

/-- The second server, if there is one. -/
def secondServer (ns2 : Text) : List Text := if ns2 = [] then [] else [serverLine ns2]

/-- A server that DHCP has told keeps its mark. -/
def dhcpServer (resolv : Option TextFile) (ns : Text) : Text :=
  if (resolv.map TextFile.lines).any fun ls =>
      ls.any fun l => dotInfix (ns ++ " #!# DHCP".toList) l then
    serverLine ns ++ " #!# DHCP".toList
  else serverLine ns

/-- `$CONFR` and `$DNSMASQ_R` -/
def HostTools.writeResolv (env : Env) (domain : Text) : Page PUnit := do
  let ns1 := env "ns1".toList
  let ns2 := env "ns2".toList
  if env "dnsmasq_flg".toList ≠ [] then do
    write .resolv ([resolvMark, searchLine domain, "nameserver 127.0.0.1".toList, serverLine ns1] ++
      secondServer ns2)
    edit .dnsmasqResolv fun file =>
      file.map fun _ => ⟨[searchLine domain, serverLine ns1] ++ secondServer ns2, []⟩
  else if env "iptype".toList = "static".toList then
    write .resolv ([searchLine domain, serverLine ns1] ++ secondServer ns2)
  else
    edit .resolv fun resolv =>
      some ⟨searchLine domain :: (expand tools.glob ns1 ++ expand tools.glob ns2).map
        (dhcpServer resolv), []⟩

/-- A file of dnsmasq, if it is there. -/
def replaceIn (file : EtcFile) (pattern : Text → Bool) (line : Text) : Page PUnit :=
  edit file fun f => f.bind fun f => Edit.apply ⟨pattern, [line]⟩ (some f)

/-- The rest of a static configuration. -/
def HostTools.writeStatic (env : Env) (hostname domain mtu : Text) : Page PUnit := do
  let hostip := env "hostip".toList
  let gateway := env "gateway".toList
  replaceIn .dnsmasqConf ("domain=".toList.isPrefixOf ·) ("domain=".toList ++ domain)
  replaceIn .dnsmasqOpts ("option:router,".toList.isPrefixOf ·)
    ("option:router,".toList ++ gateway ++ "\t# default route".toList)
  tools.sedNamed .hosts ("/[[:space:]]".toList ++ hostname ++ "$/d".toList) hostname
    (endsName hostname)
  tools.sedNamed .hosts ("/^".toList ++ hostip ++ "[[:space:]]/d".toList) hostip
    (startsAddress hostip)
  append .hosts (boxLine hostip hostname domain)
  write .interfaces
    ["auto lo".toList, "  iface lo inet loopback".toList, [], "auto eth0".toList,
      "iface eth0 inet static".toList, "  address ".toList ++ hostip,
      "  netmask ".toList ++ env "netmask".toList,
      "  broadcast ".toList ++ tools.broadcast hostip (env "netmask".toList),
      "  mtu ".toList ++ mtu,
      "  ".toList ++ if gateway = [] then env "igw".toList else "gateway ".toList ++ gateway]

/-- The rest of a configuration by DHCP. -/
def writeDhcp (env : Env) (hostname mtu : Text) : Page PUnit :=
  write .interfaces
    ["auto lo".toList, "  iface lo inet loopback".toList, [], "auto eth0".toList,
      "iface eth0 inet dhcp".toList, "  client udhcpc".toList, "  mtu ".toList ++ mtu,
      "  address ".toList ++ env "oldip".toList, "  hostname ".toList ++ hostname]

def HostTools.writeHost (env : Env) : Page PUnit := do
  let hostname := tools.hostname env
  let entered := tools.decoded (env "domain".toList)
  let domain := if entered = [] then "localnet".toList else entered
  let mtu := if env "mtu".toList = [] then "1500".toList else env "mtu".toList
  let oldname := env "oldname".toList
  let oldip := env "oldip".toList
  write .hostname (outputLines (tools.echo (expand tools.glob hostname)))
  tools.sedNamed .hosts ("/^[^#].*".toList ++ oldname ++ "$/d".toList) oldname (endsOldName oldname)
  tools.sedNamed .hosts ("/^".toList ++ oldip ++ "[ \\t]/d".toList) oldip (startsAddress oldip)
  append .hosts (boxLine oldip hostname domain)
  tools.writeResolv env domain
  if env "iptype".toList = "static".toList then tools.writeStatic env hostname domain mtu
  else writeDhcp env hostname mtu

/-- The script. -/
def HostTools.hostProc (f : Form) : Page PUnit := do
  ipv6Front f
  let env ← tools.hostChecks f
  tools.writeHost env

end Rest

/-! ## Forms with a fault -/

theorem ipv6Front_run (f : Form) (s : Files) : ipv6Front f s = .ok ⟨⟩ (ipv6Files f s) := by
  have hlines : ∀ (pattern : Text → Bool) (l : Text) (file : Option TextFile),
      some (((Edit.apply ⟨pattern, []⟩ file).getD ⟨[], []⟩).cat ⟨[l], []⟩) =
        Edit.apply ⟨pattern, [l]⟩ file := fun pattern l file =>
    (Edit.apply_lines pattern (List.cons_ne_nil l []) file).symm
  unfold ipv6Front ipv6Files modprobeEdit modulesEdit hostsEdit
  by_cases hipv6 : f.var "ipv6".toList = []
  · simp only [if_pos hipv6]
    change EStateM.Result.ok _ _ = EStateM.Result.ok _ _
    congr 1
    funext file
    cases file with
    | modprobe => exact hlines _ _ _
    | _ => rfl
  · simp only [if_neg hipv6]
    change EStateM.Result.ok _ _ = EStateM.Result.ok _ _
    congr 1
    funext file
    cases file with
    | modules => exact hlines _ _ _
    | _ => rfl

theorem hostsEdit_eq_self_iff (f : Form) (hosts : Option TextFile) :
    hostsEdit f hosts = hosts ↔
      if f.var "ipv6".toList = [] then Edit.Settled [⟨isIpv6Line, []⟩] hosts
      else knowsIpv6 hosts = true := by
  unfold hostsEdit
  split
  · exact Edit.apply_eq_self_iff _ hosts
  · split
    · next hknows => exact iff_of_true rfl hknows
    · next hknows =>
      refine iff_of_false (fun h => ?_) hknows
      cases hosts with
      | none => cases h
      | some file =>
          have hfull := congrArg (fun f => f.full.length) (Option.some.inj h)
          simp [TextFile.cat, ipv6Hosts] at hfull

theorem ipv6Files_same_iff (f : Form) (s : Files) :
    SameFiles (ipv6Files f s) s ↔ HostSettled f s := by
  constructor
  · intro h
    exact ⟨(Edit.apply_eq_self_iff _ _).mp (h .modprobe (by decide)),
      (Edit.apply_eq_self_iff _ _).mp (h .modules (by decide)),
      (hostsEdit_eq_self_iff f _).mp (h .hosts (by decide))⟩
  · intro h file _
    cases file with
    | modprobe => exact (Edit.apply_eq_self_iff _ _).mpr h.modprobe
    | modules => exact (Edit.apply_eq_self_iff _ _).mpr h.modules
    | hosts => exact (hostsEdit_eq_self_iff f _).mpr h.hosts
    | _ => rfl

/-- The loop, where no field runs commands. -/
theorem checkFields_run (tools : HostTools) (env : Env) (l : List Text) (s : Files) :
    match tools.checkFields env l with
    | none => True
    | some (.error txt) => l.foldlM tools.hostField env s = .error (.msg txt) s
    | some (.ok env') => l.foldlM tools.hostField env s = .ok env' s := by
  induction l generalizing env with
  | nil => rfl
  | cons n rest ih =>
      unfold HostTools.checkFields
      simp only
      by_cases harg : tools.echoVar env n = []
      · have hfield : tools.hostField env n s = .ok env s := by
          rw [HostTools.hostField, if_pos harg]
          rfl
        have hstep : (n :: rest).foldlM tools.hostField env s =
            rest.foldlM tools.hostField env s := bind_of_ok hfield
        rw [if_pos harg, hstep]
        exact ih env
      · rw [if_neg harg]
        cases heval : evalText nothing env
            (tools.assignment n (tools.decoded (tools.echoVar env n))) with
        | none => trivial
        | some env' =>
            have hfield : tools.hostField env n s =
                (if tools.checkip (tools.decoded (tools.echoVar env n)) = false then
                  exit (.msg (addressMessage n (tools.decoded (tools.echoVar env n))))
                else pure env' : Page Env) s := by
              rw [HostTools.hostField, if_neg harg, HostTools.setField, heval]
              rfl
            simp only
            by_cases hbad : tools.checkip (tools.decoded (tools.echoVar env n)) = false
            · rw [if_pos hbad] at hfield ⊢
              exact bind_of_error hfield
            · rw [if_neg hbad] at hfield ⊢
              have hstep : (n :: rest).foldlM tools.hostField env s =
                  rest.foldlM tools.hostField env' s := bind_of_ok hfield
              rw [hstep]
              exact ih env'

/-- The checks, where no field runs commands. -/
theorem hostChecks_run (tools : HostTools) (f : Form) (s : Files) :
    match tools.checkFields f.var hostFields with
    | none => True
    | some (.error txt) => tools.hostChecks f s = .error (.msg txt) s
    | some (.ok env) =>
        tools.hostChecks f s =
          (tools.hostError env).elim (.ok env s) fun txt => .error (.msg txt) s := by
  have hfields := checkFields_run tools f.var hostFields s
  cases hcheck : tools.checkFields f.var hostFields with
  | none => trivial
  | some found =>
      rw [hcheck] at hfields
      cases found with
      | error txt => exact bind_of_error hfields
      | ok env =>
          have hrun : tools.hostChecks f s = (match tools.hostError env with
              | some txt => exit (.msg txt)
              | none => pure env : Page Env) s := bind_of_ok hfields
          dsimp only
          rw [hrun]
          cases tools.hostError env with
          | some txt => rfl
          | none => rfl

/-- What the checks make of the files. -/
theorem formError_run (tools : HostTools) (f : Form) (s : Files) :
    match tools.formError f with
    | none => True
    | some (some txt) => tools.hostChecks f s = .error (.msg txt) s
    | some none => ∃ env, tools.hostChecks f s = .ok env s := by
  have hchecks := hostChecks_run tools f s
  unfold HostTools.formError
  cases hcheck : tools.checkFields f.var hostFields with
  | none => trivial
  | some found =>
      rw [hcheck] at hchecks
      cases found with
      | error txt => exact hchecks
      | ok env =>
          dsimp only [Option.map_some] at hchecks ⊢
          cases herror : tools.hostError env with
          | some txt =>
              rw [herror] at hchecks
              exact hchecks
          | none =>
              rw [herror] at hchecks
              exact ⟨env, hchecks⟩

theorem sedNamed_quiet (tools : HostTools) (file : EtcFile) (script name : Text)
    (pattern : Text → Bool) :
    Stays (fun _ => True) (tools.sedNamed file script name pattern) Quiet :=
  Runs.ite (fun _ => edit_quiet _ _) fun _ => Runs.modifyGet fun _ _ => trivial

theorem writeResolv_quiet (tools : HostTools) (env : Env) (domain : Text) :
    Stays (fun _ => True) (tools.writeResolv env domain) Quiet :=
  Runs.ite (fun _ => Runs.bind (edit_quiet _ _) fun _ => edit_quiet _ _) fun _ =>
    Runs.ite (fun _ => edit_quiet _ _) fun _ => edit_quiet _ _

theorem writeStatic_quiet (tools : HostTools) (env : Env) (hostname domain mtu : Text) :
    Stays (fun _ => True) (tools.writeStatic env hostname domain mtu) Quiet :=
  Runs.bind (edit_quiet _ _) fun _ => Runs.bind (edit_quiet _ _) fun _ =>
    Runs.bind (sedNamed_quiet tools _ _ _ _) fun _ => Runs.bind (sedNamed_quiet tools _ _ _ _)
      fun _ => Runs.bind (edit_quiet _ _) fun _ => edit_quiet _ _

theorem writeDhcp_quiet (env : Env) (hostname mtu : Text) :
    Stays (fun _ => True) (writeDhcp env hostname mtu) Quiet := by
  unfold writeDhcp write
  exact edit_quiet _ _

theorem writeHost_quiet (tools : HostTools) (env : Env) :
    Stays (fun _ => True) (tools.writeHost env) Quiet :=
  Runs.bind (edit_quiet _ _) fun _ => Runs.bind (sedNamed_quiet tools _ _ _ _) fun _ =>
    Runs.bind (sedNamed_quiet tools _ _ _ _) fun _ => Runs.bind (edit_quiet _ _) fun _ =>
      Runs.bind (writeResolv_quiet tools env _) fun _ =>
        Runs.ite (fun _ => writeStatic_quiet tools env _ _ _) fun _ => writeDhcp_quiet env _ _

/-- The commands that a field runs leave the files as they were before the request, where the
page ends in a message. -/
def CommandsUndo (tools : HostTools) (f : Form) (s : Files) : Prop :=
  match tools.hostChecks f (ipv6Files f s) with
  | .error (.msg _) s' => SameFiles s' s
  | _ => True

/-- The form has no fault, or the edits for IPv6 change nothing; and where a field runs
commands, these put the files back. -/
def HostKept (tools : HostTools) (f : Form) (s : Files) : Prop :=
  match tools.formError f with
  | some none => True
  | some (some _) => HostSettled f s
  | none => CommandsUndo tools f s

theorem hostProc_keeps_iff (tools : HostTools) (f : Form) (s : Files) :
    Keeps (tools.hostProc f) s ↔ HostKept tools f s := by
  have hchecks := formError_run tools f (ipv6Files f s)
  have hfront : tools.hostProc f s =
      (tools.hostChecks f >>= tools.writeHost) (ipv6Files f s) := bind_of_ok (ipv6Front_run f s)
  unfold HostKept
  cases herror : tools.formError f with
  | none =>
      unfold CommandsUndo
      cases hrun : tools.hostChecks f (ipv6Files f s) with
      | ok env s' =>
          exact iff_of_true (keeps_of_quiet (hfront.trans (bind_of_ok hrun))
            (writeHost_quiet tools env)) trivial
      | error e s' =>
          cases e with
          | msg txt => exact keeps_of_error (hfront.trans (bind_of_error hrun))
          | gotopage page =>
              refine iff_of_true ?_ trivial
              unfold Keeps
              rw [hfront, bind_of_error hrun]
              trivial
  | some found =>
      rw [herror] at hchecks
      cases found with
      | none =>
          obtain ⟨env, henv⟩ := hchecks
          exact iff_of_true (keeps_of_quiet (hfront.trans (bind_of_ok henv))
            (writeHost_quiet tools env)) trivial
      | some txt =>
          rw [keeps_of_error (hfront.trans (bind_of_error hchecks)), ipv6Files_same_iff]

end AltF.Cgi.Etc
