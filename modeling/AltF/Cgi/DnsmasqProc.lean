/-
  Cgi/DnsmasqProc.lean --- dnsmasq_proc.cgi and hosts_proc.cgi: forms with rows, and what is
  left of the files when a row is rejected.

  Both check their rows in the loop that writes them: the one into /etc/dnsmasq-hosts itself,
  the other into a file that takes the place of /etc/hosts at the end.
-/
import AltF.Cgi.EtcFiles

set_option autoImplicit false

namespace AltF.Cgi.Etc

open AltF.Shell AltF.SysFiles

/-! ## dnsmasq_proc.cgi -/

/-- A row of the form. -/
structure DhcpRow where
  nm : Text
  ip : Text
  mac : Text

section Dnsmasq

variable (tools : Tools) (f : Form)

/-- A line with `^[0-9]\\x7b1,3\\x7d[mh]\\?$` -/
def isLease (l : Text) : Bool :=
  let unit := l.dropWhile Char.isDigit
  let digits := l.takeWhile Char.isDigit
  decide (1 ≤ digits.length ∧ digits.length ≤ 3) &&
    (unit == [] || unit == ['m'] || unit == ['h'])

/-- What the first checks find fault with. -/
def Tools.frontError : Option Text :=
  let high := f.var "high_rg".toList
  let low := f.var "low_rg".toList
  let lease := f.var "glease".toList
  if high = [] ∨ low = [] ∨ lease = [] then
    some "Ip start, IP end and Lease all must be specified".toList
  else if tools.checkip high = false then
    some ("The start IP must be in the form x.x.x.x, where x is greater than 0 and " ++
      "lower then 255.").toList
  else if tools.checkip low = false then
    some ("The end IP must be in the form x.x.x.x, where x x is greater than 0 and " ++
      "lower then 255.").toList
  else if (outputLines (tools.echo (expand tools.glob lease))).any isLease = false then
    some ("Lease time must be an integer specifying seconds, minutes (20m), " ++
      "or hours (3h)").toList
  else none

def begins (p : String) (l : Text) : Bool := p.toList.isPrefixOf l

def has (p : String) (l : Text) : Bool := decide (p.toList <:+: l)

def rangeLine : Text :=
  "dhcp-range=".toList ++ f.var "low_rg".toList ++ ',' :: f.var "high_rg".toList ++
    ',' :: f.var "glease".toList

def Tools.domainLine : Text := "domain=".toList ++ tools.domainName

def Tools.routerLines : List Text :=
  ("option:router,".toList ++ tools.gateway ++ "\t# default route".toList).splitOn '\n'

/-- The line for the time servers. -/
def Tools.ntpLines : List Text :=
  if f.var "ntp".toList = "local".toList then ["option:ntp-server,0.0.0.0\t# ntp server".toList]
  else if f.var "ntp".toList = "server".toList ∧ tools.ntpServers ≠ [] then
    ["option:ntp-server,".toList ++ tools.ntpServers ++ "\t# ntp server".toList]
  else []

def Tools.confEdits : List Edit :=
  [⟨begins "dhcp-range=", [rangeLine f]⟩, ⟨begins "domain=", [tools.domainLine]⟩]

def Tools.optsEdits : List Edit :=
  [⟨begins "option:router,", tools.routerLines⟩, ⟨begins "option:ntp-server", tools.ntpLines f⟩]

/-- The files in front of the rows. -/
def Tools.dnsmasqFront : Page PUnit := do
  replace .dnsmasqConf (begins "dhcp-range=") [rangeLine f]
  replace .dnsmasqConf (begins "domain=") [tools.domainLine]
  replace .dnsmasqOpts (begins "option:router,") tools.routerLines
  replace .dnsmasqOpts (begins "option:ntp-server") (tools.ntpLines f)
  write .dnsmasqHosts [[]]

def Tools.dhcpRow (i : Nat) : DhcpRow where
  nm := tools.rowVar f "nm" i
  ip := tools.rowVar f "ip" i
  mac := commandSubst (httpdDecode (tools.rowVar f "mac" i))

def DhcpRow.isBlank (r : DhcpRow) : Bool := r.nm == [] && r.ip == [] && r.mac == []

/-- What is wrong with a row. -/
def Tools.rowError (r : DhcpRow) : Option Text :=
  if r.nm = [] ∨ r.mac = [] then some "You must specify at least a name and MAC".toList
  else if tools.checkname (expand tools.glob r.nm) = false then
    some ("The host name can only have letters and digits, no spaces, and must begin with " ++
      "a letter").toList
  else if r.ip ≠ [] ∧ tools.checkip r.ip = false then
    some ("The IP must be in the form x.x.x.x, where x is greater than 0 and " ++
      "lower then 255.").toList
  else if tools.checkmac r.mac = false then
    some ("The MAC must be in the form xx:xx:xx:xx:xx:xx, where x is one digit or one letter " ++
      "in the 'a' to 'f' range").toList
  else none

def DhcpRow.lines (lease : Text) (r : DhcpRow) : List Text :=
  if r.ip = [] then (r.mac ++ ',' :: r.nm).splitOn '\n'
  else (r.mac ++ ',' :: r.nm ++ ',' :: r.ip ++ ',' :: lease).splitOn '\n'

def Tools.addRow (i : Nat) : Page PUnit :=
  let r := tools.dhcpRow f i
  if r.isBlank then pure ⟨⟩
  else
    match tools.rowError r with
    | some txt => exit (.msg txt)
    | none => append .dnsmasqHosts (r.lines (f.var "glease".toList))

/-- The settings behind the rows. -/
def dnsmasqRest : Page PUnit := do
  sedDelete .dnsmasqConf (has "enable-tftp")
  onlyIf (f.var "tftp".toList ≠ []) do
    append .dnsmasqConf ["enable-tftp".toList]
    replace .dnsmasqOpts (begins "option:tftp-server,")
      ["option:tftp-server,0.0.0.0\t# boot server".toList]
  onlyIf (f.var "tftproot".toList ≠ []) do
    replace .dnsmasqConf (has "tftp-root")
      (("tftp-root=\"".toList ++ commandSubst (httpdDecode (f.var "tftproot".toList)) ++
        ['"']).splitOn '\n')
  sedDelete .dnsmasqConf (has "log-queries")
  onlyIf (f.var "dnslog".toList ≠ []) (append .dnsmasqConf ["log-queries".toList])
  sedDelete .dnsmasqConf (has "log-dhcp")
  onlyIf (f.var "dhcplog".toList ≠ []) (append .dnsmasqConf ["log-dhcp".toList])

/-- The numbers of the rows. -/
def dinRows : List Nat := seqFrom 0 (f.var "cnt_din".toList)

def Tools.dnsmasqSubmit : Page PUnit :=
  match tools.frontError f with
  | some txt => exit (.msg txt)
  | none => do
      tools.dnsmasqFront f
      (dinRows f).forM (tools.addRow f)
      dnsmasqRest f

def Tools.dnsmasqProc : Page PUnit := do
  onlyIf (f.var "Submit".toList ≠ []) (tools.dnsmasqSubmit f)
  exit (.gotopage "/cgi-bin/net_services.cgi".toList)

/-! ### Rows -/

/-- A row that is skipped or written. -/
def Tools.rowOk (i : Nat) : Bool :=
  (tools.dhcpRow f i).isBlank || (tools.rowError (tools.dhcpRow f i)).isNone

def Tools.rowLines (i : Nat) : List Text :=
  if (tools.dhcpRow f i).isBlank then []
  else (tools.dhcpRow f i).lines (f.var "glease".toList)

end Dnsmasq

variable {tools : Tools} {f : Form}

theorem addRow_ok {i : Nat} (h : tools.rowOk f i = true) {s : Files} {ls : List Text}
    (hs : s .dnsmasqHosts = some ⟨ls, []⟩) :
    tools.addRow f i s =
      .ok ⟨⟩ (Function.update s .dnsmasqHosts (some ⟨ls ++ tools.rowLines f i, []⟩)) := by
  unfold Tools.addRow Tools.rowLines
  split
  · rw [List.append_nil, ← hs, Function.update_eq_self]
    rfl
  · rename_i hblank
    have hnone : tools.rowError (tools.dhcpRow f i) = none := by
      rw [Tools.rowOk, Bool.eq_false_iff.mpr hblank, Bool.false_or] at h
      exact Option.isNone_iff_eq_none.mp h
    rw [hnone]
    change EStateM.Result.ok _ _ = _
    rw [hs]
    cases (tools.dhcpRow f i).lines (f.var "glease".toList) with
    | nil => simp [TextFile.cat]
    | cons l ls => simp [TextFile.cat]

theorem addRow_rejects {i : Nat} (h : tools.rowOk f i = false) (s : Files) :
    ∃ txt, tools.addRow f i s = .error (.msg txt) s := by
  rw [Tools.rowOk, Bool.or_eq_false_iff] at h
  obtain ⟨hblank, herror⟩ := h
  have hsome : tools.rowError (tools.dhcpRow f i) ≠ none := fun hnone => by
    rw [hnone] at herror
    cases herror
  obtain ⟨txt, htxt⟩ := Option.ne_none_iff_exists'.mp hsome
  refine ⟨txt, ?_⟩
  unfold Tools.addRow
  rw [if_neg (Bool.eq_false_iff.mp hblank), htxt]
  rfl

/-- The rows in front of the first that is rejected are written. -/
theorem rows_run (l : List Nat) {s : Files} {ls : List Text}
    (hs : s .dnsmasqHosts = some ⟨ls, []⟩) :
    let s' := Function.update s .dnsmasqHosts
      (some ⟨ls ++ (l.takeWhile (tools.rowOk f)).flatMap (tools.rowLines f), []⟩)
    if l.all (tools.rowOk f) then l.forM (tools.addRow f) s = .ok ⟨⟩ s'
    else ∃ txt, l.forM (tools.addRow f) s = .error (.msg txt) s' := by
  induction l generalizing s ls with
  | nil =>
      simp only [List.all_nil, if_true, List.takeWhile_nil, List.flatMap_nil, List.append_nil]
      rw [← hs, Function.update_eq_self]
      rfl
  | cons i l ih =>
      simp only
      cases hok : tools.rowOk f i with
      | true =>
          have hnext := ih (s := Function.update s .dnsmasqHosts
            (some ⟨ls ++ tools.rowLines f i, []⟩)) (Function.update_self ..)
          simp only [Function.update_idem] at hnext
          have hstep : (i :: l).forM (tools.addRow f) s = l.forM (tools.addRow f)
              (Function.update s .dnsmasqHosts (some ⟨ls ++ tools.rowLines f i, []⟩)) :=
            bind_of_ok (addRow_ok hok hs)
          rw [hstep, List.all_cons, hok, Bool.true_and, List.takeWhile_cons_of_pos hok,
            List.flatMap_cons, ← List.append_assoc]
          exact hnext
      | false =>
          obtain ⟨txt, htxt⟩ := addRow_rejects hok s
          rw [List.all_cons, hok, Bool.false_and, if_neg Bool.false_ne_true,
            List.takeWhile_cons_of_neg (by rw [hok]; exact Bool.false_ne_true), List.flatMap_nil,
            List.append_nil, ← hs, Function.update_eq_self]
          exact ⟨txt, bind_of_error htxt⟩

/-! ### Files that are kept -/

/-- The files are as the form leaves them in front of the first row that is rejected. -/
structure DnsmasqSettled (tools : Tools) (f : Form) (s : Files) : Prop where
  conf : Edit.Settled (tools.confEdits f) (s .dnsmasqConf)
  opts : Edit.Settled (tools.optsEdits f) (s .dnsmasqOpts)
  hosts : s .dnsmasqHosts =
    some ⟨[] :: ((dinRows f).takeWhile (tools.rowOk f)).flatMap (tools.rowLines f), []⟩

theorem confEdits_apart (tools : Tools) (f : Form) : Edit.Apart (tools.confEdits f) := by
  refine List.pairwise_pair.mpr fun l hl => ?_
  rw [List.mem_singleton.mp hl]
  rfl

/-- No address begins with the text of an option. -/
theorem optsEdits_apart (tools : Tools) (f : Form) : Edit.Apart (tools.optsEdits f) := by
  refine List.pairwise_pair.mpr fun l hl => Bool.eq_false_iff.mpr fun hbegins => ?_
  have hdash : '-' ∈ l := (List.isPrefixOf_iff_prefix.mp hbegins).subset (by decide)
  have hmem := (mem_of_mem_splitOnP hl '-' hdash).1
  rw [List.mem_append, List.mem_append] at hmem
  rcases hmem with (hmem | hmem) | hmem
  · exact absurd hmem (by decide)
  · exact absurd (List.all_eq_true.mp tools.gateway_chars _ hmem) (by decide)
  · exact absurd hmem (by decide)

/-- The files in front of the rows. -/
def frontFiles (tools : Tools) (f : Form) (s : Files) : Files
  | .dnsmasqConf => Edit.applyAll (tools.confEdits f) (s .dnsmasqConf)
  | .dnsmasqOpts => Edit.applyAll (tools.optsEdits f) (s .dnsmasqOpts)
  | .dnsmasqHosts => some ⟨[[]], []⟩
  | file => s file

theorem dnsmasqFront_run (s : Files) :
    tools.dnsmasqFront f s = .ok ⟨⟩ (frontFiles tools f s) := by
  change EStateM.Result.ok _ _ = EStateM.Result.ok _ _
  congr 1
  funext file
  cases file <;> rfl

theorem dnsmasqRest_quiet : Stays (fun _ => True) (dnsmasqRest f) Quiet := by
  refine Runs.bind (edit_quiet _ _) fun _ => Runs.bind (Runs.onlyIf fun _ => ?_) fun _ =>
    Runs.bind (Runs.onlyIf fun _ => edit_quiet _ _) fun _ => Runs.bind (edit_quiet _ _) fun _ =>
      Runs.bind (Runs.onlyIf fun _ => edit_quiet _ _) fun _ => Runs.bind (edit_quiet _ _) fun _ =>
        Runs.onlyIf fun _ => edit_quiet _ _
  exact Runs.bind (edit_quiet _ _) fun _ => edit_quiet _ _

/-- A row is reached and rejected. -/
def RowRejected (tools : Tools) (f : Form) : Prop :=
  f.var "Submit".toList ≠ [] ∧ tools.frontError f = none ∧
    (dinRows f).all (tools.rowOk f) = false

theorem settled_iff (s : Files) (ls : List Text) :
    SameFiles (Function.update (frontFiles tools f s) .dnsmasqHosts (some ⟨ls, []⟩)) s ↔
      Edit.Settled (tools.confEdits f) (s .dnsmasqConf) ∧
        Edit.Settled (tools.optsEdits f) (s .dnsmasqOpts) ∧
          s .dnsmasqHosts = some ⟨ls, []⟩ := by
  rw [← Edit.applyAll_eq_self_iff (confEdits_apart tools f),
    ← Edit.applyAll_eq_self_iff (optsEdits_apart tools f)]
  constructor
  · intro h
    exact ⟨h .dnsmasqConf (by decide), h .dnsmasqOpts (by decide),
      (h .dnsmasqHosts (by decide)).symm⟩
  · rintro ⟨hconf, hopts, hhosts⟩ file -
    cases file with
    | dnsmasqConf => exact hconf
    | dnsmasqOpts => exact hopts
    | dnsmasqHosts => exact hhosts.symm
    | _ => rfl

theorem dnsmasqProc_keeps_iff (s : Files) :
    Keeps (tools.dnsmasqProc f) s ↔ (RowRejected tools f → DnsmasqSettled tools f s) := by
  by_cases hsubmit : f.var "Submit".toList = []
  · refine iff_of_true ?_ fun h => absurd hsubmit h.1
    exact keeps_of_quiet (bind_of_ok (onlyIf_of_not (not_not.mpr hsubmit) _ _))
      (gotopage_quiet _)
  rcases herror : tools.frontError f with _ | txt
  · -- the rows are reached
    have hrows := @rows_run tools f (dinRows f) (frontFiles tools f s) _ rfl
    have hfront : tools.dnsmasqSubmit f s =
        ((dinRows f).forM (tools.addRow f) >>= fun _ => dnsmasqRest f) (frontFiles tools f s) := by
      rw [Tools.dnsmasqSubmit, herror]
      exact bind_of_ok (dnsmasqFront_run s)
    cases hall : (dinRows f).all (tools.rowOk f) with
    | true =>
        refine iff_of_true ?_ fun h => absurd (hall.symm.trans h.2.2) (by decide)
        simp only [hall, if_true] at hrows
        have hrun : tools.dnsmasqSubmit f s = dnsmasqRest f _ :=
          hfront.trans (bind_of_ok hrows)
        exact keeps_of_quiet (bind_of_eq _ ((onlyIf_of hsubmit _ _).trans hrun))
          (Runs.bind dnsmasqRest_quiet fun _ => gotopage_quiet _)
    | false =>
        simp only [hall, if_neg Bool.false_ne_true] at hrows
        obtain ⟨txt, htxt⟩ := hrows
        have hrun : tools.dnsmasqSubmit f s = .error (.msg txt) _ :=
          hfront.trans (bind_of_error htxt)
        rw [Tools.dnsmasqProc, keeps_of_error (bind_of_error ((onlyIf_of hsubmit _ _).trans hrun)),
          settled_iff]
        exact ⟨fun h _ => ⟨h.1, h.2.1, h.2.2⟩, fun h =>
          have hsettled := h ⟨hsubmit, herror, hall⟩
          ⟨hsettled.conf, hsettled.opts, hsettled.hosts⟩⟩
  · refine iff_of_true ?_ fun h => ?_
    · have hrun : tools.dnsmasqSubmit f s = .error (.msg txt) s := by
        rw [Tools.dnsmasqSubmit, herror]
        rfl
      rw [Tools.dnsmasqProc, keeps_of_error (bind_of_error ((onlyIf_of hsubmit _ _).trans hrun))]
      exact SameFiles.refl s
    · exact absurd (herror.symm.trans h.2.1) (Option.some_ne_none txt)

/-! ## hosts_proc.cgi -/

section Hosts

variable (tools : Tools) (f : Form)

def hostsMessage : Text := "You must specify a name and IP.".toList

/-- `$(hostname -d)`, or the default -/
def Tools.net : Text := if tools.domainName = [] then "localnet".toList else tools.domainName

/-- A row, with the lines of the new file so far. -/
def Tools.hostsRow (ls : List Text) (i : Nat) : Page (List Text) :=
  let nm := tools.rowVar f "knm" i
  let coded := tools.rowVar f "kip" i
  if nm = [] ∧ coded = [] then pure ls
  else if nm = [] ∨ coded = [] then exit (.msg hostsMessage)
  else
    let ip := commandSubst (httpdDecode ((expand tools.glob coded).headD []))
    if tools.checkname (expand tools.glob nm) = false then
      exit (.msg ("The host name can only have letters, dashes, digits, no spaces, and must " ++
        "begin with a letter").toList)
    else if ':' ∈ ip then pure (ls ++ (ip ++ '\t' :: nm).splitOn '\n')
    else if tools.checkip ip = false then
      exit (.msg ("The IP must be in the form x.x.x.x, where x is greater than 0 and " ++
        "lower then 255.").toList)
    else
      pure (ls ++ (ip ++ '\t' :: nm ++ '.' :: tools.net ++ '\t' :: nm ++ ".local\t".toList ++
        nm).splitOn '\n')

/-- The first lines of the new file: `grep -q ^ipv6` finds the module. -/
def hostsFront (modules : Option TextFile) : List Text :=
  if (modules.map TextFile.lines).any fun ls => ls.any (begins "ipv6") then
    ["127.0.0.1\tlocalhost".toList, "::1\tlocalhost ipv6-localhost ipv6-loopback".toList]
  else ["127.0.0.1\tlocalhost".toList]

def Tools.hostsSubmit : Page PUnit := do
  let front ← modifyGet fun s => (hostsFront (s .modules), s)
  let ls ← (seqFrom 0 (f.var "cnt_know".toList)).foldlM (tools.hostsRow f) front
  write .hosts ls

def Tools.hostsProc : Page PUnit := do
  onlyIf (f.var "Submit".toList ≠ []) (tools.hostsSubmit f)
  exit (.gotopage "/cgi-bin/hosts.cgi".toList)

end Hosts

theorem hostsRow_stays (s : Files) (ls : List Text) (i : Nat) :
    Stays (· = s) (tools.hostsRow f ls i) (KeptFrom s) := by
  have hsame : ∀ s', s' = s → SameFiles s' s := fun s' hs => hs ▸ SameFiles.refl s
  refine Runs.ite (fun _ => Runs.pure fun _ hs => hs) fun _ =>
    Runs.ite (fun _ => Runs.exit fun s' hs => Or.inr (hsame s' hs)) fun _ => ?_
  refine Runs.ite (fun _ => Runs.exit fun s' hs => Or.inr (hsame s' hs)) fun _ => ?_
  refine Runs.ite (fun _ => Runs.pure fun _ hs => hs) fun _ => ?_
  exact Runs.ite (fun _ => Runs.exit fun s' hs => Or.inr (hsame s' hs)) fun _ =>
    Runs.pure fun _ hs => hs

/-- The new file takes the place of the old one after all checks. -/
theorem hostsProc_keeps (s : Files) : Keeps (tools.hostsProc f) s := by
  refine keeps_of_runs (Q := fun _ _ => True) ?_
  refine Runs.bind (Q := fun _ _ => True) (Runs.ite (fun _ => ?_) fun _ =>
    Runs.pure fun _ _ => trivial) fun _ => Runs.exit fun _ _ => Or.inl fun _ h => by cases h
  refine Runs.bind (Q := fun _ => (· = s)) (Runs.modifyGet fun _ hs => hs) fun front =>
    Runs.bind (Runs.foldlM fun ls i _ => hostsRow_stays s ls i) fun ls => ?_
  exact Runs.modifyGet fun _ _ => trivial

end AltF.Cgi.Etc
