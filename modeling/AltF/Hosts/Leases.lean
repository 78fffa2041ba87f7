/-
  Hosts/Leases.lean --- lease-change.sh, which dnsmasq calls when a lease changes, and the
  entries of other machines in /etc/hosts.

  Both this script and the network page delete lines by patterns that are anchored at one
  end or not at all, and append a line.  A run of the two is followed with the leases that
  dnsmasq has told, and with the lines that belong to others.
-/
import AltF.Cgi.HostsFile
import AltF.Cgi.RejectedForms
import AltF.Foundation.Runs

set_option autoImplicit false

namespace AltF.Hosts

open AltF.Foundation AltF.Shell AltF.SysFiles AltF.Cgi.Etc

/-! ## lease-change.sh -/

/-- A character of a host name. -/
def isLabelChar (c : Char) : Bool := c.isAlphanum || c == '-' || c == '_'

/-- A character of an address or a domain. -/
def isDottedChar (c : Char) : Bool := isLabelChar c || c == '.' || c == ':'

/-- A host with a name and an address. -/
structure Lease where
  ip : Text
  name : Text
  domain : Text
  deriving DecidableEq

/-- The name of a host in the domain `.local`. -/
def localName (name : Text) : Text := name ++ ".local".toList

/-- The line of a lease. -/
def Lease.line (x : Lease) : Text :=
  if x.domain ≠ [] then
    x.ip ++ '\t' :: x.name ++ '.' :: x.domain ++ '\t' :: localName x.name ++ '\t' :: x.name
  else x.ip ++ '\t' :: x.name ++ '\t' :: localName x.name

/-- The arguments and the environment of the script. -/
structure LeaseEvent where
  type : Text
  ip : Text
  /-- the fourth argument, if there is one -/
  hname : Text
  /-- `DNSMASQ_OLD_HOSTNAME` -/
  oldHostname : Text
  /-- `DNSMASQ_DOMAIN` -/
  domain : Text
  named : (hname ++ oldHostname).all isLabelChar = true
  dotted : (ip ++ domain).all isDottedChar = true

namespace LeaseEvent

variable (e : LeaseEvent)

/-- `$hname`, after the test for the old name -/
def hostName : Text := if e.type = "old".toList ∧ e.hname = [] then e.oldHostname else e.hname

def lease : Lease := ⟨e.ip, e.hostName, e.domain⟩

/-- What the script does to /etc/hosts. -/
def edits : List Edit :=
  if e.hostName = [] then []
  else if e.type = "old".toList ∨ e.type = "add".toList then
    [⟨dotInfix (localName e.hostName), [e.lease.line]⟩]
  else if e.type = "del".toList then [⟨dotInfix (localName e.hostName), []⟩]
  else []

def leaseChange (hosts : Option TextFile) : Option TextFile := Edit.applyAll e.edits hosts

/-! ## What dnsmasq tells -/

/-- The event is about a lease. -/
def Tells : Prop := e.type = "old".toList ∨ e.type = "add".toList ∨ e.type = "del".toList

instance : Decidable e.Tells := inferInstanceAs (Decidable (_ ∨ _ ∨ _))

/-- The leases that have nothing to do with the event. -/
def remaining (leases : List Lease) : List Lease :=
  leases.filter fun x => decide (x.ip ≠ e.ip ∧ x.name ≠ e.hname)

/-- The leases with a name.  In an `old` event without a name the old hostname is one that
the lease has lost. -/
def leases (leases : List Lease) : List Lease :=
  if e.Tells then
    e.remaining leases ++ if e.type ≠ "del".toList ∧ e.hname ≠ [] then [e.lease] else []
  else leases

end LeaseEvent

/-! ## The entries of others -/

section Own

variable (tools : HostTools)

/-- The words of an entry: an address, and names. -/
def entryWords (l : Text) : List Text := words (l.takeWhile (· ≠ '#'))

/-- The old and the new name of the box, -/
def ownNames (env : Env) : List Text := [env "oldname".toList, tools.hostname env]

/-- and its addresses. -/
def ownAddresses (env : Env) : List Text :=
  env "oldip".toList ::
    if env "iptype".toList = "static".toList then [env "hostip".toList] else []

/-- An entry with a name or the address of the box. -/
def isOwn (env : Env) (l : Text) : Bool :=
  match entryWords l with
  | [] => false
  | address :: names =>
      (ownAddresses env).contains address || names.any (ownNames tools env).contains

end Own

/-! ## Runs of both scripts -/

section Runs

variable (tools : HostTools)

inductive Event where
  | lease (e : LeaseEvent)
  | submit (f : Form) (legal : tools.Legal f)

variable {tools}

namespace Event

/-- The files after an event. -/
def files : Event tools → Files → Files
  | .lease e, s => Function.update s .hosts (e.leaseChange (s .hosts))
  | .submit f _, s => left (tools.hostProc f) s

def edits : Event tools → Option TextFile → List Edit
  | .lease e, _ => e.edits
  | .submit f _, hosts => tools.hostsEdits f hosts

/-- The lease for which a line is added. -/
def writer : Event tools → Option Lease
  | .lease e => some e.lease
  | .submit _ _ => none

/-- Of the lines of others, those that are not about the box. -/
def kept : Event tools → List Text → List Text
  | .lease _, ls => ls
  | .submit f _, ls => (tools.accepted f).elim ls fun env => ls.filter fun l => !isOwn tools env l

def remaining : Event tools → List Lease → List Lease
  | .lease e, leases => if e.Tells then e.remaining leases else leases
  | .submit _ _, leases => leases

def leases : Event tools → List Lease → List Lease
  | .lease e, leases => e.leases leases
  | .submit _ _, leases => leases

theorem files_hosts (x : Event tools) (s : Files) :
    x.files s .hosts = Edit.applyAll (x.edits (s .hosts)) (s .hosts) := by
  cases x with
  | lease e =>
      change Function.update s .hosts (e.leaseChange (s .hosts)) .hosts = _
      rw [Function.update_self]
      rfl
  | submit f legal => exact left_hostProc tools legal s

end Event

/-- The files; the lines of /etc/hosts, each with the lease for which it was written, if it
was; the lines of others that are to be kept; and the named leases. -/
structure HostsRun where
  files : Files
  lines : List (Option Lease × Text)
  kept : List Text
  leases : List Lease

/-- Before any event all lines are those of others. -/
def HostsRun.start (files : Files) : HostsRun where
  files := files
  lines := (Edit.linesOf (files .hosts)).map (none, ·)
  kept := Edit.linesOf (files .hosts)
  leases := []

def HostsRun.step (s : HostsRun) (x : Event tools) : HostsRun where
  files := x.files s.files
  lines := (x.edits (s.files .hosts)).foldl (fun xs d => d.onTagged x.writer xs) s.lines
  kept := x.kept s.kept
  leases := x.leases s.leases

/-- The leases for which lines were written, in their order. -/
def writtenFor (lines : List (Option Lease × Text)) : List Lease := lines.filterMap Prod.fst

/-- What an event owes the other machines. -/
structure Respects (s : HostsRun) (x : Event tools) : Prop where
  /-- the lines, as they are tagged, are those of the file -/
  tracked : (s.step x).lines.map Prod.snd = Edit.linesOf ((s.step x).files .hosts)
  /-- the lines of others are there, in their order -/
  kept : (s.step x).kept.Sublist (Edit.linesOf ((s.step x).files .hosts))
  /-- after a lease event every named lease has one line, and there are no others -/
  leased : ∀ e, x = .lease e → writtenFor (s.step x).lines = (s.step x).leases ∧
    ((s.step x).leases.map Lease.name).Nodup

/-- A lease has kept its name. -/
def NameKept (e : LeaseEvent) (leases : List Lease) : Prop :=
  e.Tells → (e.type = "old".toList → e.hname = [] → e.oldHostname = []) ∧
    ∀ y ∈ leases, y.ip = e.ip → y.name = e.hname

/-- No pattern of an event matches a line that is not meant. -/
structure Careful (s : HostsRun) (x : Event tools) : Prop where
  ended : Edit.newLines (x.edits (s.files .hosts)) = [] ∨ Edit.Ended (s.files .hosts)
  kept : ∀ d ∈ x.edits (s.files .hosts), ∀ l ∈ x.kept s.kept, d.pattern l = false
  leases : ∀ d ∈ x.edits (s.files .hosts), ∀ y ∈ x.remaining s.leases, d.pattern y.line = false
  named : ∀ e, x = .lease e → NameKept e s.leases

/-! ## What a run keeps -/

/-- The lines are told apart as they should be. -/
structure Inv (s : HostsRun) : Prop where
  tracked : s.lines.map Prod.snd = Edit.linesOf (s.files .hosts)
  kept : s.kept.Sublist (Edit.linesOf (s.files .hosts))
  texts : ∀ x ∈ s.lines, ∀ y, x.1 = some y → x.2 = y.line
  leased : writtenFor s.lines = s.leases
  names : (s.leases.map Lease.name).Nodup
  named : ∀ y ∈ s.leases, y.name ≠ []

theorem dotInfix_of_infix {p t : Text} (h : p <:+: t) : dotInfix p t = true := by
  obtain ⟨a, b, rfl⟩ := h
  refine List.any_eq_true.mpr ⟨p ++ b, ?_, dotPrefix_append p b⟩
  rw [List.mem_tails, List.append_assoc]
  exact List.suffix_append a _

/-- The line of a lease has the name in `.local`. -/
theorem localName_infix_line (y : Lease) : localName y.name <:+: y.line := by
  unfold Lease.line
  split
  · exact ⟨y.ip ++ '\t' :: y.name ++ '.' :: y.domain ++ ['\t'], '\t' :: y.name, by simp⟩
  · exact ⟨y.ip ++ '\t' :: y.name ++ ['\t'], [], by simp⟩

/-- A deletion leaves the lines of the leases whose lines it leaves. -/
theorem writtenFor_delete {lines : List (Option Lease × Text)}
    (htexts : ∀ x ∈ lines, ∀ y, x.1 = some y → x.2 = y.line) (p : Text → Bool) :
    writtenFor (lines.filter fun x => !p x.2) = (writtenFor lines).filter fun y => !p y.line := by
  induction lines with
  | nil => rfl
  | cons x lines ih =>
      have hrest := ih fun y hy => htexts y (List.mem_cons_of_mem x hy)
      have htext := htexts x List.mem_cons_self
      obtain ⟨tag, l⟩ := x
      cases tag with
      | none =>
          by_cases hp : p l = true
          · simpa [writtenFor, hp] using hrest
          · simpa [writtenFor, hp] using hrest
      | some y =>
          obtain rfl : l = y.line := htext y rfl
          by_cases hp : p y.line = true
          · simpa [writtenFor, hp] using hrest
          · simpa [writtenFor, hp] using hrest

/-- Edits whose writer is no lease, and that match no line of a lease. -/
theorem writtenFor_edited {es : List Edit} {lines : List (Option Lease × Text)}
    (htexts : ∀ x ∈ lines, ∀ y, x.1 = some y → x.2 = y.line)
    (hspared : ∀ d ∈ es, ∀ y ∈ writtenFor lines, d.pattern y.line = false) :
    (∀ x ∈ es.foldl (fun xs d => d.onTagged none xs) lines, ∀ y, x.1 = some y → x.2 = y.line) ∧
      writtenFor (es.foldl (fun xs d => d.onTagged none xs) lines) = writtenFor lines := by
  induction es generalizing lines with
  | nil => exact ⟨htexts, rfl⟩
  | cons d es ih =>
      have hnew : writtenFor (d.lines.map ((none : Option Lease), ·)) = [] := by
        simp [writtenFor, List.filterMap_map]
      have hsame : writtenFor (d.onTagged none lines) = writtenFor lines := by
        rw [Edit.onTagged, writtenFor, List.filterMap_append]
        change writtenFor _ ++ writtenFor _ = _
        rw [hnew, writtenFor_delete htexts, List.append_nil, List.filter_eq_self]
        intro y hy
        rw [hspared d List.mem_cons_self y hy]
        rfl
      have htexts' : ∀ x ∈ d.onTagged none lines, ∀ y, x.1 = some y → x.2 = y.line := by
        intro x hx y hy
        rcases List.mem_append.mp hx with hx | hx
        · exact htexts x (List.mem_filter.mp hx).1 y hy
        · obtain ⟨l, -, rfl⟩ := List.mem_map.mp hx
          cases hy
      obtain ⟨hall, heq⟩ := ih htexts' (by
        rw [hsame]
        exact fun d' hd' => hspared d' (List.mem_cons_of_mem d hd'))
      exact ⟨hall, heq.trans hsame⟩

/-- The leases keep their names apart. -/
theorem names_leases (e : LeaseEvent) {leases : List Lease}
    (hnodup : (leases.map Lease.name).Nodup) (hnamed : ∀ y ∈ leases, y.name ≠ []) :
    ((e.leases leases).map Lease.name).Nodup ∧ ∀ y ∈ e.leases leases, y.name ≠ [] := by
  have hsub : (e.remaining leases).Sublist leases := List.filter_sublist
  have hrest : ((e.remaining leases).map Lease.name).Nodup := hnodup.sublist (hsub.map _)
  have hrestNamed : ∀ y ∈ e.remaining leases, y.name ≠ [] := fun y hy => hnamed y (hsub.subset hy)
  unfold LeaseEvent.leases
  split
  · split
    · next hnew =>
      have hname : e.lease.name = e.hname := if_neg fun h => hnew.2 h.2
      refine ⟨?_, fun y hy => ?_⟩
      · rw [List.map_append, List.nodup_append]
        refine ⟨hrest, List.nodup_singleton _, fun n hn n' hn' => ?_⟩
        obtain ⟨y, hy, rfl⟩ := List.mem_map.mp hn
        obtain rfl := List.mem_singleton.mp hn'
        have hne := of_decide_eq_true (List.mem_filter.mp hy).2
        rw [hname]
        exact hne.2
      · rcases List.mem_append.mp hy with hy | hy
        · exact hrestNamed y hy
        · obtain rfl := List.mem_singleton.mp hy
          rw [hname]
          exact hnew.2
    · rw [List.append_nil]
      exact ⟨hrest, hrestNamed⟩
  · exact ⟨hnodup, hnamed⟩

/-- The leases whose lines the script leaves. -/
theorem filter_localName {e : LeaseEvent} {leases : List Lease}
    (hspared : ∀ y ∈ e.remaining leases, dotInfix (localName e.hname) y.line = false)
    (hsame : ∀ y ∈ leases, y.ip = e.ip → y.name = e.hname) :
    (leases.filter fun y => !dotInfix (localName e.hname) y.line) = e.remaining leases := by
  refine List.filter_congr fun y hy => ?_
  by_cases hname : y.name = e.hname
  · have hmatch := dotInfix_of_infix (localName_infix_line y)
    rw [hname] at hmatch
    simp [hmatch, hname]
  · have hip : y.ip ≠ e.ip := fun hip => hname (hsame y hy hip)
    have hmem : y ∈ e.remaining leases := List.mem_filter.mpr ⟨hy, decide_eq_true ⟨hip, hname⟩⟩
    simp [hspared y hmem, hip, hname]

/-- The lines after a lease event are those of the leases. -/
theorem writtenFor_lease {e : LeaseEvent} {lines : List (Option Lease × Text)}
    (htexts : ∀ x ∈ lines, ∀ y, x.1 = some y → x.2 = y.line)
    (hnamed : ∀ y ∈ writtenFor lines, y.name ≠ [])
    (hspared : ∀ d ∈ e.edits, ∀ y ∈ e.remaining (writtenFor lines), d.pattern y.line = false)
    (hkept : NameKept e (writtenFor lines)) :
    (∀ x ∈ e.edits.foldl (fun xs d => d.onTagged (some e.lease) xs) lines,
      ∀ y, x.1 = some y → x.2 = y.line) ∧
      writtenFor (e.edits.foldl (fun xs d => d.onTagged (some e.lease) xs) lines) =
        e.leases (writtenFor lines) := by
  by_cases htells : e.Tells
  · obtain ⟨hlost, hsame⟩ := hkept htells
    have hname : e.hostName = e.hname := by
      rw [LeaseEvent.hostName]
      split
      · next hold => rw [hlost hold.1 hold.2, hold.2]
      · rfl
    unfold LeaseEvent.edits at hspared ⊢
    rw [LeaseEvent.leases, if_pos htells]
    rw [hname] at hspared ⊢
    by_cases hempty : e.hname = []
    · have hall : e.remaining (writtenFor lines) = writtenFor lines := by
        refine List.filter_eq_self.mpr fun y hy => decide_eq_true ⟨fun hip => ?_, ?_⟩
        · exact hnamed y hy ((hsame y hy hip).trans hempty)
        · rw [hempty]
          exact hnamed y hy
      rw [if_pos hempty, if_neg fun h => h.2 hempty, hall, List.append_nil]
      exact ⟨htexts, rfl⟩
    · rw [if_neg hempty] at hspared ⊢
      have hleft : ∀ x ∈ lines.filter (fun x => !dotInfix (localName e.hname) x.2),
          ∀ y, x.1 = some y → x.2 = y.line := fun x hx => htexts x (List.mem_filter.mp hx).1
      by_cases hadd : e.type = "old".toList ∨ e.type = "add".toList
      · rw [if_pos hadd] at hspared ⊢
        have hdel : e.type ≠ "del".toList := by
          rcases hadd with h | h
          · rw [h]; decide
          · rw [h]; decide
        rw [if_pos ⟨hdel, hempty⟩, List.foldl_cons, List.foldl_nil]
        constructor
        · intro x hx y hy
          rcases List.mem_append.mp hx with hx | hx
          · exact hleft x hx y hy
          · obtain rfl := List.mem_singleton.mp hx
            obtain rfl := Option.some.inj hy
            rfl
        · rw [Edit.onTagged, writtenFor, List.filterMap_append]
          change writtenFor _ ++ [e.lease] = _
          rw [writtenFor_delete htexts,
            filter_localName (hspared _ List.mem_cons_self) hsame]
      · have hdel : e.type = "del".toList :=
          (or_assoc.mpr htells).resolve_left hadd
        rw [if_neg hadd, if_pos hdel] at hspared ⊢
        rw [if_neg fun h => h.1 hdel, List.append_nil, List.foldl_cons, List.foldl_nil]
        rw [Edit.onTagged, List.map_nil, List.append_nil]
        exact ⟨hleft, by rw [writtenFor_delete htexts,
          filter_localName (hspared _ List.mem_cons_self) hsame]⟩
  · have hnone : e.edits = [] := by
      obtain ⟨hold, hrest⟩ := not_or.mp htells
      obtain ⟨hadd, hdel⟩ := not_or.mp hrest
      rw [LeaseEvent.edits, if_neg (not_or.mpr ⟨hold, hadd⟩), if_neg hdel, ite_self]
    rw [hnone, LeaseEvent.leases, if_neg htells]
    exact ⟨htexts, rfl⟩

theorem Inv.start (files : Files) : Inv (HostsRun.start files) where
  tracked := by simp [HostsRun.start]
  kept := List.Sublist.refl _
  texts := by
    intro x hx y hy
    obtain ⟨l, -, rfl⟩ := List.mem_map.mp hx
    cases hy
  leased := by simp [HostsRun.start, writtenFor, List.filterMap_map]
  names := List.nodup_nil
  named := fun y hy => absurd hy List.not_mem_nil

/-- **One event**, under the condition. -/
theorem Inv.step {s : HostsRun} {x : Event tools} (hs : Inv s) (hx : Careful s x) :
    Respects s x ∧ Inv (s.step x) := by
  have hlines : Edit.linesOf ((s.step x).files .hosts) =
      (x.edits (s.files .hosts)).foldl (fun ls d => d.onLines ls)
        (Edit.linesOf (s.files .hosts)) := by
    change Edit.linesOf (x.files s.files .hosts) = _
    rw [x.files_hosts, Edit.linesOf_applyAll hx.ended]
  have htracked : (s.step x).lines.map Prod.snd = Edit.linesOf ((s.step x).files .hosts) := by
    rw [hlines, ← hs.tracked]
    exact Edit.map_edited _ _ _
  have hfewer : (x.kept s.kept).Sublist s.kept := by
    cases x with
    | lease e => exact List.Sublist.refl _
    | submit f legal =>
        unfold Event.kept
        dsimp only
        cases tools.accepted f with
        | none => exact List.Sublist.refl _
        | some env => exact List.filter_sublist
  have hkept : (s.step x).kept.Sublist (Edit.linesOf ((s.step x).files .hosts)) := by
    rw [hlines]
    exact Edit.sublist_edited (hfewer.trans hs.kept) hx.kept
  have hleased : (∀ z ∈ (s.step x).lines, ∀ y, z.1 = some y → z.2 = y.line) ∧
      writtenFor (s.step x).lines = (s.step x).leases := by
    have hspared := hx.leases
    have hnamed := hs.named
    rw [← hs.leased] at hspared hnamed
    change (∀ z ∈ (x.edits _).foldl _ s.lines, _) ∧ writtenFor ((x.edits _).foldl _ s.lines) =
      x.leases s.leases
    rw [← hs.leased]
    cases x with
    | lease e =>
        have hname := hx.named e rfl
        rw [← hs.leased] at hname
        refine writtenFor_lease hs.texts hnamed (fun d hd y hy => hspared d hd y ?_) hname
        change y ∈ if e.Tells then e.remaining (writtenFor s.lines) else writtenFor s.lines
        split
        · exact hy
        · exact (List.mem_filter.mp hy).1
    | submit f legal => exact writtenFor_edited hs.texts hspared
  have hnames : ((s.step x).leases.map Lease.name).Nodup ∧
      ∀ y ∈ (s.step x).leases, y.name ≠ [] := by
    cases x with
    | lease e => exact names_leases e hs.names hs.named
    | submit f legal => exact ⟨hs.names, hs.named⟩
  exact ⟨⟨htracked, hkept, fun _ _ => ⟨hleased.2, hnames.1⟩⟩,
    ⟨htracked, hkept, hleased.1, hleased.2, hnames.1, hnames.2⟩⟩

/-- **Other machines** keep their entries, and leases have one line each, in every run whose
patterns match no lines that are not meant. -/
theorem respects_along (files : Files) (xs : List (Event tools))
    (hxs : Along HostsRun.step Careful (HostsRun.start files) xs) :
    Along HostsRun.step Respects (HostsRun.start files) xs :=
  along_of_step Inv (fun _ _ hs hx => hs.step hx) (Inv.start files) hxs

end Runs

/-! ## Two machines -/

/-- A machine gets a lease, or loses it. -/
def pcEvent (type : Text) : LeaseEvent where
  type := type
  ip := "192.168.1.60".toList
  hname := "pc".toList
  oldHostname := []
  domain := []
  named := by decide
  dotted := by decide

/-- Another machine. -/
def mypcEvent : LeaseEvent where
  type := "add".toList
  ip := "192.168.1.61".toList
  hname := "mypc".toList
  oldHostname := []
  domain := []
  named := by decide
  dotted := by decide

/-- The box gets its address by DHCP, and a new name. -/
def renameForm : Form where
  var n :=
    if n = "hostname".toList then "nas".toList
    else if n = "oldname".toList then "box".toList
    else if n = "oldip".toList then "192.168.1.2".toList
    else if n = "iptype".toList then "dhcp".toList
    else []
  line n := by
    split_ifs <;> decide

theorem renameForm_legal : plainTools.Legal renameForm where
  plain := by decide +kernel
  named := by
    intro env henv
    have hall : ((plainTools.accepted renameForm).all fun env =>
        [env "oldname".toList, env "oldip".toList, plainTools.hostname env,
          env "hostip".toList].all isNamePattern) = true := by
      decide +kernel
    rw [Option.mem_def.mp henv] at hall
    simpa using hall

/-- A box that knows a printer. -/
def printerHosts : Files
  | .hosts => some ⟨["127.0.0.1\tlocalhost".toList, "192.168.1.2 box.lan box".toList,
      "192.168.1.9 printer".toList], []⟩
  | _ => none

/-- The printer keeps its entry, and the machine has one while it has a lease. -/
theorem respects_along_printer :
    Along (ι := Event plainTools) HostsRun.step Respects (HostsRun.start printerHosts)
      [.lease (pcEvent "add".toList), .submit renameForm renameForm_legal,
        .lease (pcEvent "del".toList)] := by
  refine respects_along printerHosts _ ⟨?_, ?_, ?_, trivial⟩
  · refine ⟨Or.inr (by decide +kernel), by decide +kernel, by decide +kernel, fun e he => ?_⟩
    obtain rfl := Event.lease.inj he
    exact fun _ => ⟨fun h => absurd h (by decide), by decide +kernel⟩
  · exact ⟨Or.inr (by decide +kernel), by decide +kernel, by decide +kernel, fun e he => nomatch he⟩
  · refine ⟨Or.inr (by decide +kernel), by decide +kernel, by decide +kernel, fun e he => ?_⟩
    obtain rfl := Event.lease.inj he
    exact fun _ => ⟨fun h => absurd h (by decide), by decide +kernel⟩

/-- The lease of `pc` takes the line of `mypc`. -/
theorem mypc_loses_line :
    ¬ Along (ι := Event plainTools) HostsRun.step Respects (HostsRun.start printerHosts)
      [.lease mypcEvent, .lease (pcEvent "add".toList)] := by
  intro h
  have hlines := (h.2.1.leased _ rfl).1
  exact absurd hlines (by decide +kernel)

end AltF.Hosts
