/-
  Cgi/HostsFile.lean --- host_proc.cgi: what a form makes of /etc/hosts.

  The file is edited for IPv6 before the form is checked.  A form without a fault then
  takes the old name and address of the box from it, and adds the new name with the old
  address; a static address is entered in the same way.
-/
import AltF.Cgi.HostProc

set_option autoImplicit false

namespace AltF.Cgi.Etc

open AltF.Shell AltF.SysFiles

variable (tools : HostTools)

/-- What a script leaves, in whatever way it ends. -/
def left {α : Type} (m : Page α) (s : Files) : Files :=
  match m s with
  | .ok _ s' => s'
  | .error _ s' => s'

/-! ## The edits -/

/-- The form as it is applied, if it has no fault. -/
def HostTools.accepted (f : Form) : Option Env :=
  match tools.checkFields f.var hostFields with
  | some (.ok env) => if tools.hostError env = none then some env else none
  | _ => none

def ipv6Edits (f : Form) (hosts : Option TextFile) : List Edit :=
  if f.var "ipv6".toList = [] then [⟨isIpv6Line, []⟩]
  else if knowsIpv6 hosts then []
  else [⟨fun _ => false, ipv6Hosts⟩]

/-- The domain that the box is given. -/
def HostTools.domain (env : Env) : Text :=
  let entered := tools.decoded (env "domain".toList)
  if entered = [] then "localnet".toList else entered

/-- The lines of the box with an address. -/
def HostTools.ownLines (env : Env) (ip : Text) : List Text :=
  boxLine ip (tools.hostname env) (tools.domain env)

def HostTools.boxEdits (env : Env) : List Edit :=
  let oldip := env "oldip".toList
  let hostip := env "hostip".toList
  [⟨endsOldName (env "oldname".toList), []⟩, ⟨startsAddress oldip, tools.ownLines env oldip⟩] ++
    if env "iptype".toList = "static".toList then
      [⟨endsName (tools.hostname env), []⟩, ⟨startsAddress hostip, tools.ownLines env hostip⟩]
    else []

/-- All edits of /etc/hosts. -/
def HostTools.hostsEdits (f : Form) (hosts : Option TextFile) : List Edit :=
  ipv6Edits f hosts ++ (tools.accepted f).elim [] tools.boxEdits

/-- No field runs commands, and the names and addresses are such. -/
structure HostTools.Legal (f : Form) : Prop where
  plain : tools.checkFields f.var hostFields ≠ none
  named : ∀ env ∈ tools.accepted f, isNamePattern (env "oldname".toList) = true ∧
    isNamePattern (env "oldip".toList) = true ∧ isNamePattern (tools.hostname env) = true ∧
      isNamePattern (env "hostip".toList) = true

/-! ## What the page leaves -/

/-- A part that goes on, and changes /etc/hosts as told. -/
abbrev Turns (h : Option TextFile) {α : Type} (m : Page α) (h' : Option TextFile) : Prop :=
  Runs (fun s => s .hosts = h) m (fun _ s => s .hosts = h') fun _ _ => False

variable {h h' h'' : Option TextFile}

theorem edit_turns (g : Option TextFile → Option TextFile) : Turns h (edit .hosts g) (g h) :=
  Runs.modifyGet fun s hs => by simp [hs]

theorem edit_stays {file : EtcFile} (hfile : file ≠ .hosts)
    (g : Option TextFile → Option TextFile) :
    Turns h (edit file g) h :=
  Runs.modifyGet fun s hs => by simp [Function.update_of_ne hfile.symm, hs]

theorem sedNamed_turns {name : Text} (hname : isNamePattern name = true) (script : Text)
    (pattern : Text → Bool) :
    Turns h (tools.sedNamed .hosts script name pattern) (Edit.apply ⟨pattern, []⟩ h) := by
  rw [HostTools.sedNamed, if_pos hname]
  exact edit_turns _

theorem boxLine_ne_nil (ip hostname domain : Text) : boxLine ip hostname domain ≠ [] :=
  List.splitOn_ne_nil _ _

/-- The lines of an address are deleted, and the line of the box is added. -/
theorem append_turns (pattern : Text → Bool) {ls : List Text} (hls : ls ≠ []) :
    Turns (Edit.apply ⟨pattern, []⟩ h) (append .hosts ls) (Edit.apply ⟨pattern, ls⟩ h) := by
  rw [Edit.apply_lines pattern hls]
  exact edit_turns _

theorem writeResolv_turns (env : Env) (domain : Text) :
    Turns h (tools.writeResolv env domain) h :=
  Runs.ite (fun _ => Runs.bind (edit_stays (by decide) _) fun _ => edit_stays (by decide) _)
    fun _ => Runs.ite (fun _ => edit_stays (by decide) _) fun _ => edit_stays (by decide) _

theorem writeStatic_turns {env : Env} {hostname : Text} (hhost : isNamePattern hostname = true)
    (hip : isNamePattern (env "hostip".toList) = true) (domain mtu : Text) :
    Turns h (tools.writeStatic env hostname domain mtu)
      (Edit.applyAll [⟨endsName hostname, []⟩, ⟨startsAddress (env "hostip".toList),
        boxLine (env "hostip".toList) hostname domain⟩] h) := by
  refine Runs.bind (edit_stays (by decide) _) fun _ => ?_
  refine Runs.bind (edit_stays (by decide) _) fun _ => ?_
  refine Runs.bind (sedNamed_turns tools hhost _ _) fun _ => ?_
  refine Runs.bind (sedNamed_turns tools hip _ _) fun _ => ?_
  refine Runs.bind (append_turns _ (boxLine_ne_nil _ _ _)) fun _ => ?_
  exact edit_stays (by decide) _

theorem writeHost_turns {env : Env} (hname : isNamePattern (env "oldname".toList) = true)
    (hold : isNamePattern (env "oldip".toList) = true)
    (hhost : isNamePattern (tools.hostname env) = true)
    (hip : isNamePattern (env "hostip".toList) = true) :
    Turns h (tools.writeHost env) (Edit.applyAll (tools.boxEdits env) h) := by
  refine Runs.bind (edit_stays (by decide) _) fun _ => ?_
  refine Runs.bind (sedNamed_turns tools hname _ _) fun _ => ?_
  refine Runs.bind (sedNamed_turns tools hold _ _) fun _ => ?_
  refine Runs.bind (append_turns _ (boxLine_ne_nil _ _ _)) fun _ => ?_
  refine Runs.bind (writeResolv_turns tools env _) fun _ => ?_
  unfold HostTools.boxEdits
  dsimp only
  by_cases hstatic : env "iptype".toList = "static".toList
  · rw [if_pos hstatic, if_pos hstatic]
    exact writeStatic_turns tools hhost hip _ _
  · rw [if_neg hstatic, if_neg hstatic]
    unfold writeDhcp write
    exact edit_stays (by decide) _

theorem hostsEdit_eq (f : Form) (hosts : Option TextFile) :
    hostsEdit f hosts = Edit.applyAll (ipv6Edits f hosts) hosts := by
  have hnone : ∀ file : TextFile, file.sedDelete (fun _ => false) = file := fun file =>
    (Edit.sedDelete_eq_self_iff _ file).mpr fun _ _ => rfl
  unfold hostsEdit ipv6Edits
  by_cases hipv6 : f.var "ipv6".toList = []
  · rw [if_pos hipv6, if_pos hipv6]
    rfl
  · rw [if_neg hipv6, if_neg hipv6]
    by_cases hknows : knowsIpv6 hosts = true
    · rw [if_pos hknows, if_pos hknows]
      rfl
    · rw [if_neg hknows, if_neg hknows]
      cases hosts with
      | none => rfl
      | some file =>
          change _ = some ((file.sedDelete fun _ => false).cat ⟨ipv6Hosts, []⟩)
          rw [hnone file]
          rfl

/-- **The page** leaves /etc/hosts as its edits do. -/
theorem left_hostProc {f : Form} (hlegal : tools.Legal f) (s : Files) :
    left (tools.hostProc f) s .hosts =
      Edit.applyAll (tools.hostsEdits f (s .hosts)) (s .hosts) := by
  have hfront : tools.hostProc f s =
      (tools.hostChecks f >>= tools.writeHost) (ipv6Files f s) := bind_of_ok (ipv6Front_run f s)
  have hipv6 : ipv6Files f s .hosts = Edit.applyAll (ipv6Edits f (s .hosts)) (s .hosts) :=
    hostsEdit_eq f (s .hosts)
  have hchecks := hostChecks_run tools f (ipv6Files f s)
  have hnamed := hlegal.named
  rw [HostTools.hostsEdits, Edit.applyAll_append, ← hipv6, left, hfront]
  unfold HostTools.accepted at hnamed ⊢
  cases hfields : tools.checkFields f.var hostFields with
  | none => exact absurd hfields hlegal.plain
  | some found =>
      rw [hfields] at hchecks hnamed
      cases found with
      | error txt =>
          rw [bind_of_error hchecks]
          rfl
      | ok env =>
          dsimp only at hchecks hnamed ⊢
          cases herror : tools.hostError env with
          | some txt =>
              rw [herror] at hchecks
              rw [bind_of_error hchecks]
              rfl
          | none =>
              rw [herror] at hchecks hnamed
              obtain ⟨hname, hold, hhost, hip⟩ := hnamed env rfl
              have hrun := writeHost_turns tools hname hold hhost hip (ipv6Files f s) rfl
              rw [bind_of_ok hchecks]
              cases hwrite : tools.writeHost env (ipv6Files f s) with
              | ok u s' =>
                  rw [hwrite] at hrun
                  exact hrun
              | error e s' =>
                  rw [hwrite] at hrun
                  exact hrun.elim

end AltF.Cgi.Etc
