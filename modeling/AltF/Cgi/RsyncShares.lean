/-
  Cgi/RsyncShares.lean --- rsyncd.conf in runs of its scripts: accounts that are made and
  deleted, forms that are submitted, and pages that are submitted as they are.

  `Shares.step` says what each does to the modules.  A user whose name is a beginning of
  "users" is one that the page does not show.
-/
import AltF.Cgi.RsyncWritten

set_option autoImplicit false

namespace AltF.Cgi.Rsync

open AltF.Foundation AltF.SysFiles AltF.Cgi.Secrets

/-! ## The scripts -/

/-- The accounts, and the lines of /etc/rsyncd.conf. -/
structure Server where
  users : Users
  conf : List Text

/-- A request: about an account; a form that is submitted, with what it has; or the page
submitted as it is. -/
inductive Event where
  | users (e : Secrets.Event)
  | submit (group : Text → Text) (forms : List Form)
  | resubmit (M : Machine)

def usersAfter (users : Users) : Event → Users
  | .users e => Secrets.step users e
  | _ => users

def confAfter (s : Server) : Event → List Text
  | .users (.create a refused) =>
      if refused || s.users.taken a then s.conf else addHome a s.conf
  | .users (.change _ _) => s.conf
  | .users (.delete nick) =>
      match s.users.accounts.find? (fun b => b.nick = nick) with
      | none => s.conf
      | some a => removeHome a s.conf
  | .submit group forms => submit group forms s.conf
  | .resubmit M => submit M.group (M.page s.conf) s.conf

def step (s : Server) (e : Event) : Server := ⟨usersAfter s.users e, confAfter s e⟩

/-! ## What they are for -/

/-- The accounts, and the modules. -/
structure Shares where
  users : Users
  modules : List Module

def Server.shares (s : Server) : Shares := ⟨s.users, modulesOf s.conf⟩

def modulesAfter (s : Shares) : Event → List Module
  | .users (.create a refused) =>
      if refused || s.users.taken a then s.modules
      else s.modules ++ [homeModule a a.nick, homeModule a a.uname]
  | .users (.change _ _) => s.modules
  | .users (.delete nick) =>
      match s.users.accounts.find? (fun b => b.nick = nick) with
      | none => s.modules
      | some a => s.modules.filter fun m => !isHome a m.name
  | .submit group forms => forms.filterMap (written group)
  | .resubmit M => (M.rows [] (s.modules.map Module.seenOpts)).filterMap (written M.group)

def Shares.step (s : Shares) (e : Event) : Shares := ⟨usersAfter s.users e, modulesAfter s e⟩

/-- New accounts can name modules, and the fields of a form arrive as they were entered. -/
def Event.Plain : Event → Prop
  | .users (.create a _) => IsShared a
  | .submit group forms => (∀ u, IsValue (group u)) ∧ ∀ f ∈ forms, f.Plain
  | _ => True

/-! ## The file follows -/

theorem Conf.modules_keep (q : Block → Bool) (p : Module → Bool)
    (hq : ∀ b : Block, q b = p b.module) (c : Conf) : (c.keep q).modules = c.modules.filter p := by
  have hentries : ∀ entries : List (Option Block),
      (entries.filter fun e => e.all q).reduceOption = entries.reduceOption.filter q := by
    intro entries
    induction entries with
    | nil => rfl
    | cons e entries ih =>
        cases e with
        | none => exact ih
        | some b =>
            rw [List.reduceOption_cons_of_some]
            cases hb : q b with
            | true =>
                rw [List.filter_cons_of_pos (by rw [Option.all_some, hb]),
                  List.reduceOption_cons_of_some, ih, List.filter_cons_of_pos hb]
            | false =>
                rw [List.filter_cons_of_neg (by rw [Option.all_some, hb]; nofun), ih,
                  List.filter_cons_of_neg (by rw [hb]; nofun)]
  have hlast : (c.last.filter q).toList = c.last.toList.filter q := by
    cases c.last with
    | none => rfl
    | some b =>
        rw [Option.filter_some, Option.toList_some, List.filter_singleton]
        cases q b <;> rfl
  have hcomp : q = p ∘ Block.module := funext hq
  rw [Conf.modules, Conf.blocks, Conf.keep, hentries, hlast, ← List.filter_append, Conf.modules,
    Conf.blocks, List.filter_map, hcomp]

/-- Rows without a module make none. -/
theorem filterMap_rows (M : Machine) (rows : List Opts) (n : Nat) (asked : List Text) :
    (M.rows asked (rows ++ List.replicate n noOpts)).filterMap (written M.group) =
      (M.rows asked rows).filterMap (written M.group) := by
  induction rows generalizing asked with
  | nil =>
      induction n generalizing asked with
      | zero => rfl
      | succ n ih =>
          have hempty : written M.group (M.spit asked noOpts) = none := if_pos (.inl rfl)
          exact (List.filterMap_cons_none hempty).trans (ih _)
  | cons opts rows ih =>
      rw [List.cons_append, Machine.rows, Machine.rows, List.filterMap_cons, List.filterMap_cons,
        ih]

/-- One request. -/
theorem exists_conf (c : Conf) (users : Users) {e : Event} (he : e.Plain) :
    ∃ c' : Conf, step ⟨users, c.text⟩ e = ⟨usersAfter users e, c'.text⟩ ∧
      modulesAfter ⟨users, c.modules⟩ e = c'.modules := by
  suffices h : ∃ c' : Conf, confAfter ⟨users, c.text⟩ e = c'.text ∧
      modulesAfter ⟨users, c.modules⟩ e = c'.modules by
    obtain ⟨c', htext, hmodules⟩ := h
    exact ⟨c', congrArg (Server.mk _) htext, hmodules⟩
  cases e with
  | users e =>
      cases e with
      | create a refused =>
          obtain ⟨c', htext, hmodules⟩ := addHome_text he c
          rw [confAfter, modulesAfter]
          dsimp only
          split
          · exact ⟨c, rfl, rfl⟩
          · exact ⟨c', htext, hmodules.symm⟩
      | change a refused => exact ⟨c, rfl, rfl⟩
      | delete nick =>
          rw [confAfter, modulesAfter]
          dsimp only
          cases users.accounts.find? (fun b => b.nick = nick) with
          | none => exact ⟨c, rfl, rfl⟩
          | some a =>
              have hname : ∀ b : Block, (!isHome a b.name) = !isHome a b.module.name :=
                fun b => by rw [b.module_name]
              exact ⟨_, removeHome_text a c, (c.modules_keep _ _ hname).symm⟩
  | submit group forms =>
      obtain ⟨c', htext, hmodules⟩ := submit_text he.2 he.1 c
      exact ⟨c', htext, hmodules.symm⟩
  | resubmit M =>
      obtain ⟨c', htext, hmodules⟩ := submit_text (M.plain_page c) M.group_value c
      refine ⟨c', htext, hmodules.symm ▸ ?_⟩
      rw [modulesAfter, Machine.page, parse_text, filterMap_rows]

theorem forall_values {body : List Opt} (h : body.all (fun o => isValue o.value) = true) :
    ∀ o ∈ body, IsValue o.value := fun o ho => isValue_of (List.all_eq_true.mp h o ho)

/-- etc/rsyncd.conf -/
def factory : Conf where
  preamble := ["secrets file = /etc/rsyncd.secrets".toList, "use chroot = yes".toList,
    "read only = yes".toList, "dont compress = *".toList, "list = yes".toList, []]
  entries := [
    some
      { name := "Public-RO".toList
        body := [⟨0, .path, "/Public/RO".toList⟩,
          ⟨0, .comment, "Public Area for reading only".toList⟩]
        isName := isName_of (by decide)
        isValue := forall_values (by decide) },
    some
      { name := "Public-RW".toList
        body := [⟨0, .path, "/Public/RW".toList⟩,
          ⟨0, .comment, "Public Area for reading and writing".toList⟩,
          ⟨0, .readOnly, "no".toList⟩]
        isName := isName_of (by decide)
        isValue := forall_values (by decide) },
    some
      { name := "Backup".toList
        body := [⟨0, .path, "/Backup".toList⟩, ⟨0, .comment, "Backup area".toList⟩]
        isName := isName_of (by decide)
        isValue := forall_values (by decide) }]
  last := some
    { name := "Root".toList
      body := [⟨0, .comment, "For development only".toList⟩, ⟨0, .path, "/".toList⟩,
        ⟨0, .maxConnections, "-1".toList⟩, ⟨0, .authUsers, "root".toList⟩,
        ⟨0, .uid, "root".toList⟩, ⟨0, .gid, "root".toList⟩]
      isName := isName_of (by decide)
      isValue := forall_values (by decide) }
  plain := forall_of_all (by decide)

example : factory.text = ["secrets file = /etc/rsyncd.secrets", "use chroot = yes",
    "read only = yes", "dont compress = *", "list = yes", "", "[Public-RO]", "path = /Public/RO",
    "comment = Public Area for reading only", "", "[Public-RW]", "path = /Public/RW",
    "comment = Public Area for reading and writing", "read only = no", "", "[Backup]",
    "path = /Backup", "comment = Backup area", "", "[Root]", "comment = For development only",
    "path = /", "max connections = -1", "auth users = root", "uid = root",
    "gid = root"].map String.toList := by
  decide

/-- The account of a user. -/
def joe : Account where
  nick := "joe".toList
  uname := "Joe Doe".toList
  pass := "secret".toList
  nick_chars := by decide
  nick_some := by decide
  uname_chars := by decide
  uname_some := by decide

/-- A page that shows anybody, root and joe. -/
def threeUsers : Machine where
  users := ["anybody".toList, "root".toList, "joe".toList]
  users_value := fun u hu => isValue_of (forall_of_all (P := fun u => isValue u = true)
    (by decide) u hu)
  first := "anybody".toList
  first_mem := rfl
  readlink := fun _ => []
  readlink_value := fun _ => .inl rfl
  group := fun _ => "users".toList
  group_value := fun _ => isValue_of (by decide)

/-- The modules named `n` ask for the password of `u`. -/
def Asks (n u : Text) (modules : List Module) : Prop :=
  ∀ m ∈ modules, m.name = n → m.opts .authUsers = some u

/-- The page is submitted as it is. -/
def Event.Resubmits : Event → Prop
  | .resubmit _ => True
  | _ => False

/-- No account is made or deleted that has the module `n`, no other form is submitted, and the
page lists `u`, and shows another user when it shows none. -/
def Quiet (n u : Text) (s : Server) : Event → Prop
  | .users (.create a _) => IsShared a ∧ n ∉ a.names
  | .users (.change _ _) => True
  | .users (.delete nick) => ∀ a ∈ s.users.accounts, a.nick = nick → isHome a n = false
  | .submit _ _ => False
  | .resubmit M => u ∈ M.users ∧ M.first ≠ u

theorem Quiet.plain {n u : Text} {s : Server} {e : Event} (h : Quiet n u s e) : e.Plain := by
  cases e with
  | users e =>
      cases e with
      | create a refused => exact h.1
      | change a refused => trivial
      | delete nick => trivial
  | submit group forms => exact h.elim
  | resubmit M => trivial

/-- The name of a user. -/
structure IsLogin (u : Text) : Prop where
  blank : ' ' ∉ u
  equals : '=' ∉ u
  somebody : u ≠ "anybody".toList

/-- A user is misread whose name begins "users". -/
theorem misread_authUsers_iff {u : Text} (hu : IsLogin u) :
    Key.authUsers.misread u = true ↔ u <+: "users".toList := by
  have htail : Key.authUsers.tail ++ " = ".toList ++ u =
      ' ' :: ("users".toList ++ ' ' :: ("= ".toList ++ u)) := rfl
  rw [Key.misread, takeWhile_ne_self hu.equals, htail, List.isPrefixOf_iff_prefix,
    List.cons_prefix_cons, and_iff_right rfl]
  exact ⟨Shell.prefix_of_append_cons hu.blank, fun h => h.trans (List.prefix_append _ _)⟩

theorem seen_authUsers_iff {u v : Text} (hu : IsLogin u) (hv : IsValue v) :
    Key.authUsers.seen v = u ↔ v = u ∧ ¬ u <+: "users".toList := by
  rw [Key.seen]
  split
  · rename_i hmis
    have hvalue : IsValue ("users = ".toList ++ v) :=
      hv.append_left ⟨forall_of_all (by decide), '=', by decide, by decide⟩ (by rintro c ⟨⟩; rfl)
    have htail : Key.authUsers.tail ++ " = ".toList ++ v = ' ' :: ("users = ".toList ++ v) := rfl
    rw [htail, hvalue.trim_space]
    refine iff_of_false ?_ ?_
    · rintro rfl
      exact hu.equals (List.mem_append_left v (by decide))
    · rintro ⟨rfl, hnot⟩
      exact hnot ((misread_authUsers_iff hu).mp hmis)
  · rename_i hmis
    constructor
    · rintro rfl
      exact ⟨rfl, fun hpre => hmis ((misread_authUsers_iff hu).mpr hpre)⟩
    · exact And.left

theorem Machine.pick_eq_iff {M : Machine} {u : Text} (hlisted : u ∈ M.users) (hfirst : M.first ≠ u)
    (sel : Text) : M.pick sel = u ↔ sel = u := by
  rw [pick]
  split
  · exact Iff.rfl
  · rename_i hnot
    refine iff_of_false hfirst ?_
    rintro rfl
    exact hnot (List.contains_iff_mem.mpr hlisted)

/-- The user for whom the page shows a module. -/
theorem Module.Plain.selected_iff {m : Module} (hm : m.Plain) {u : Text} (hu : IsLogin u) :
    (if m.seenOpts "auth users".toList = [] then "anybody".toList
      else m.seenOpts "auth users".toList) = u ↔
      m.opts .authUsers = some u ∧ ¬ u <+: "users".toList := by
  have hnil : m.seenOpts "auth users".toList = [] ↔ m.opts .authUsers = none :=
    hm.seenOpts_eq_nil_iff .authUsers
  have hseen : m.seenOpts "auth users".toList = _ := m.seenOpts_text .authUsers
  cases hauth : m.opts .authUsers with
  | none =>
      rw [if_pos (hnil.mpr hauth)]
      exact iff_of_false hu.somebody.symm fun h => absurd h.1.symm (Option.some_ne_none u)
  | some v =>
      have hsome : m.seenOpts "auth users".toList ≠ [] := fun h =>
        absurd (hauth.symm.trans (hnil.mp h)) (Option.some_ne_none v)
      rw [if_neg hsome, hseen, hauth, Option.elim_some,
        seen_authUsers_iff hu (hm.value .authUsers v hauth), Option.some.injEq]

/-- A row of the page is written as the module again, for the same user unless it was
misread. -/
theorem exists_written {M : Machine} (asked : List Text) {m : Module} (hm : m.Plain)
    (hpath : m.opts .path ≠ none) {u : Text} (hu : IsLogin u) (hlisted : u ∈ M.users)
    (hfirst : M.first ≠ u) :
    ∃ m', written M.group (M.spit asked m.seenOpts) = some m' ∧ m'.name = m.name ∧
      m'.opts .path ≠ none ∧
      (m'.opts .authUsers = some u ↔
        m.opts .authUsers = some u ∧ ¬ u <+: "users".toList) := by
  have hname : m.seenOpts "share_name".toList = m.name := if_pos rfl
  have hshown : m.seenOpts "path".toList ≠ [] :=
    fun h => hpath ((hm.seenOpts_eq_nil_iff .path).mp h)
  let sel := if m.seenOpts "auth users".toList = [] then "anybody".toList
    else m.seenOpts "auth users".toList
  let f : Form := ⟨m.seenOpts "max connections".toList = "-1".toList,
    M.folder asked (m.seenOpts "path".toList), m.seenOpts "share_name".toList,
    m.seenOpts "comment".toList, M.pick sel, m.seenOpts "list".toList ≠ "no".toList,
    m.seenOpts "read only".toList ≠ "no".toList⟩
  have hspit : M.spit asked m.seenOpts = f := if_neg hshown
  have hldir : f.ldir ≠ [] := (M.isValue_folder asked (hm.isValue_seenOpts .path hshown)).ne_nil
  have hshname : f.shname ≠ [] := fun hnil => hm.name.ne_nil (hname.symm.trans hnil)
  have huser : (if f.user ≠ "anybody".toList then some f.user else none) = some u ↔
      sel = u := by
    rw [← M.pick_eq_iff hlisted hfirst sel]
    split
    · exact Option.some_inj
    · rename_i hanybody
      refine iff_of_false (Option.some_ne_none u).symm fun heq => hu.somebody ?_
      rw [← heq]
      exact not_not.mp hanybody
  rw [hspit, written, if_neg (not_or.mpr ⟨hldir, hshname⟩)]
  refine ⟨_, rfl, hname, Option.some_ne_none f.ldir, ?_⟩
  rw [← hm.selected_iff hu, ← huser]
  simp only [decide_eq_true_eq]

/-! ## Requests and the module -/

/-- There is a module named `n`, and all of that name have a folder and ask for the password
of `u`. -/
structure Held (n u : Text) (modules : List Module) : Prop where
  found : ∃ m ∈ modules, m.name = n
  asks : ∀ m ∈ modules, m.name = n → m.opts .path ≠ none ∧ m.opts .authUsers = some u

/-- A module named `n` is there that does not ask for the password of `u`. -/
def Lost (n u : Text) (modules : List Module) : Prop :=
  ∃ m ∈ modules, m.name = n ∧ m.opts .path ≠ none ∧ m.opts .authUsers ≠ some u

/-- Requests that do not submit the page leave the module. -/
theorem Quiet.mem_iff {n u : Text} {s : Server} {e : Event} (h : Quiet n u s e)
    (he : ¬ e.Resubmits) {modules : List Module} {m : Module} (hm : m.name = n) :
    m ∈ modulesAfter ⟨s.users, modules⟩ e ↔ m ∈ modules := by
  cases e with
  | users e =>
      cases e with
      | create a refused =>
          have hhome : ∀ n' ∈ a.names, m ≠ homeModule a n' := by
            rintro n' hn' rfl
            rw [homeModule, foldl_assign_name] at hm
            exact h.2 (hm ▸ hn')
          rw [modulesAfter]
          split
          · exact Iff.rfl
          · rw [List.mem_append, List.mem_cons, List.mem_singleton]
            refine ⟨fun hmem => hmem.resolve_right ?_, Or.inl⟩
            rintro (heq | heq)
            · exact hhome a.nick List.mem_cons_self heq
            · exact hhome a.uname (List.mem_cons_of_mem _ List.mem_cons_self) heq
      | change a refused => exact Iff.rfl
      | delete nick =>
          rw [modulesAfter]
          split
          · exact Iff.rfl
          · rename_i a hfound
            have hnick : a.nick = nick := by simpa using List.find?_some hfound
            have hhome := h a (List.mem_of_find?_eq_some hfound) hnick
            rw [List.mem_filter, hm, hhome, Bool.not_false, and_iff_left rfl]
  | submit group forms => exact False.elim h
  | resubmit M => exact absurd trivial he

theorem Held.other {n u : Text} {s : Server} {e : Event} (h : Quiet n u s e)
    (he : ¬ e.Resubmits) {modules : List Module} (hheld : Held n u modules) :
    Held n u (modulesAfter ⟨s.users, modules⟩ e) := by
  obtain ⟨m, hm, hname⟩ := hheld.found
  exact ⟨⟨m, (h.mem_iff he hname).mpr hm, hname⟩,
    fun m' hm' hname' => hheld.asks m' ((h.mem_iff he hname').mp hm') hname'⟩

theorem Lost.other {n u : Text} {s : Server} {e : Event} (h : Quiet n u s e)
    (he : ¬ e.Resubmits) {modules : List Module} (hlost : Lost n u modules) :
    Lost n u (modulesAfter ⟨s.users, modules⟩ e) := by
  obtain ⟨m, hm, hname, hrest⟩ := hlost
  exact ⟨m, (h.mem_iff he hname).mpr hm, hname, hrest⟩

/-- A module without a folder is not written. -/
theorem written_of_noPath (M : Machine) (asked : List Text) {m : Module} (hm : m.Plain)
    (hpath : m.opts .path = none) : written M.group (M.spit asked m.seenOpts) = none := by
  have hshown : m.seenOpts "path".toList = [] := (hm.seenOpts_eq_nil_iff .path).mpr hpath
  rw [Machine.spit, if_pos hshown, written, if_pos (.inl rfl)]

section Resubmit

variable {n u : Text} (hu : IsLogin u) {M : Machine} (hpage : u ∈ M.users ∧ M.first ≠ u)
  {modules : List Module} {users : Users} (hplain : ∀ m ∈ modules, m.Plain)

include hu hpage hplain

/-- A module of the page that is submitted. -/
theorem exists_resubmitted {m : Module} (hm : m ∈ modules) (hpath : m.opts .path ≠ none) :
    ∃ m' ∈ modulesAfter ⟨users, modules⟩ (.resubmit M), m'.name = m.name ∧ m'.opts .path ≠ none ∧
      (m'.opts .authUsers = some u ↔
        m.opts .authUsers = some u ∧ ¬ u <+: "users".toList) := by
  obtain ⟨asked, hrow⟩ := M.exists_mem_rows (List.mem_map_of_mem hm) []
  obtain ⟨m', hm', hrest⟩ := exists_written asked (hplain m hm) hpath hu hpage.1 hpage.2
  exact ⟨m', List.mem_filterMap.mpr ⟨_, hrow, hm'⟩, hrest⟩

theorem Held.resubmit (hheld : Held n u modules) (hnot : ¬ u <+: "users".toList) :
    Held n u (modulesAfter ⟨users, modules⟩ (.resubmit M)) := by
  constructor
  · obtain ⟨m, hm, hname⟩ := hheld.found
    obtain ⟨m', hm', hname', -⟩ :=
      exists_resubmitted hu hpage hplain hm (hheld.asks m hm hname).1
    exact ⟨m', hm', hname'.trans hname⟩
  · intro m' hm' hname'
    obtain ⟨f, hf, hwritten⟩ := List.mem_filterMap.mp hm'
    obtain ⟨asked, opts, hopts, rfl⟩ := M.exists_of_mem_rows hf
    obtain ⟨m, hm, rfl⟩ := List.mem_map.mp hopts
    by_cases hpath : m.opts .path = none
    · rw [written_of_noPath M asked (hplain m hm) hpath] at hwritten
      cases hwritten
    · obtain ⟨m'', heq, hname, hpath', hauth⟩ :=
        exists_written asked (hplain m hm) hpath hu hpage.1 hpage.2
      obtain rfl : m'' = m' := Option.some.inj (heq.symm.trans hwritten)
      have hasks := hheld.asks m hm (hname.symm.trans hname')
      exact ⟨hpath', hauth.mpr ⟨hasks.2, hnot⟩⟩

theorem Held.lost (hheld : Held n u modules) (hpre : u <+: "users".toList) :
    Lost n u (modulesAfter ⟨users, modules⟩ (.resubmit M)) := by
  obtain ⟨m, hm, hname⟩ := hheld.found
  obtain ⟨m', hm', hname', hpath, hauth⟩ :=
    exists_resubmitted hu hpage hplain hm (hheld.asks m hm hname).1
  exact ⟨m', hm', hname'.trans hname, hpath, fun h => (hauth.mp h).2 hpre⟩

theorem Lost.resubmit (hlost : Lost n u modules) :
    Lost n u (modulesAfter ⟨users, modules⟩ (.resubmit M)) := by
  obtain ⟨m, hm, hname, hpath, hother⟩ := hlost
  obtain ⟨m', hm', hname', hpath', hauth⟩ := exists_resubmitted hu hpage hplain hm hpath
  exact ⟨m', hm', hname'.trans hname, hpath', fun h => hother (hauth.mp h).1⟩

end Resubmit

/-! ## Runs -/

/-- Another user is never turned into `u`. -/
theorem lost_run {n u : Text} (hu : IsLogin u) (c : Conf) (users : Users) {es : List Event}
    (hlost : Lost n u c.modules) (hes : Along step (Quiet n u) ⟨users, c.text⟩ es) :
    Lost n u (run step ⟨users, c.text⟩ es).shares.modules := by
  induction es generalizing c users with
  | nil =>
      rw [← modulesOf_text c] at hlost
      exact hlost
  | cons e es ih =>
      obtain ⟨c', hstep, hmodules⟩ := exists_conf c users hes.1.plain
      rw [run_cons, hstep]
      refine ih c' _ ?_ (hstep ▸ hes.2)
      rw [← hmodules]
      by_cases he : e.Resubmits
      · cases e with
        | resubmit M => exact hlost.resubmit hu hes.1 c.plain_modules
        | _ => exact False.elim he
      · exact hlost.other hes.1 he

/-- A folder of the user `user`. -/
def userFolder : Conf where
  preamble := ["secrets file = /etc/rsyncd.secrets".toList]
  entries := []
  last := some
    { name := "Letters".toList
      body := [⟨1, .path, "/home/user".toList⟩, ⟨1, .authUsers, "user".toList⟩]
      isName := isName_of (by decide)
      isValue := forall_values (by decide) }
  plain := forall_of_all (by decide)

/-- A page that shows anybody and `user`. -/
def userPage : Machine where
  users := ["anybody".toList, "user".toList]
  users_value := fun u hu => isValue_of (forall_of_all (P := fun u => isValue u = true)
    (by decide) u hu)
  first := "anybody".toList
  first_mem := rfl
  readlink := fun _ => []
  readlink_value := fun _ => .inl rfl
  group := fun _ => "users".toList
  group_value := fun _ => isValue_of (by decide)

end AltF.Cgi.Rsync
