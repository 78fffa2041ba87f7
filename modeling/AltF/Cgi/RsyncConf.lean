/-
  Cgi/RsyncConf.lean --- /etc/rsyncd.conf as rsync.cgi shows it and as rsync_proc.cgi,
  newuser_proc.cgi and usersgroups_proc.cgi write it.

  A module is a line with its name in brackets, and lines that each set an option of it.  The
  page finds the value of an option by the first place of the text behind the `=`, which may
  stand in front of the `=` too.

  The fields of the form are taken as they arrive, decoded.  What the browser makes of a page
  is not modelled: names and values are such that it shows them, and the shell prints them, as
  they are.
-/
import Mathlib.Data.List.ReduceOption
import AltF.Cgi.ArgsSent
import AltF.Cgi.Secrets
import AltF.SysFiles.Ranges

set_option autoImplicit false

namespace AltF.Cgi.Rsync

open AltF.Shell AltF.SysFiles AltF.Cgi.Secrets

/-! ## Lines -/

/-- The options of a module that the scripts know. -/
inductive Key where
  | path | comment | maxConnections | list | authUsers | uid | gid | readOnly
  deriving DecidableEq

namespace Key

def text : Key → Text
  | path => "path".toList
  | comment => "comment".toList
  | maxConnections => "max connections".toList
  | list => "list".toList
  | authUsers => "auth users".toList
  | uid => "uid".toList
  | gid => "gid".toList
  | readOnly => "read only".toList

def all : List Key := [path, comment, maxConnections, list, authUsers, uid, gid, readOnly]

/-- The option of a name. -/
def named (t : Text) : Option Key := all.find? fun k => k.text = t

theorem named_text (k : Key) : named k.text = some k := by
  cases k <;> decide

end Key

/-- `substr($0,1,1) == "["` -/
def isHeader (l : Text) : Bool := l.head? == some '['

/-- The line that begins a module. -/
def header (n : Text) : Text := '[' :: (n ++ [']'])

/-- What a line that sets an option names. -/
def keyOf (l : Text) : Text := trim (l.takeWhile (· ≠ '='))

/-- What stands behind the first `=` of a line. -/
def valueOf (l : Text) : Text := trim ((l.dropWhile (· ≠ '=')).drop 1)

/-! ## Modules -/

/-- A module, and what its options are set to. -/
structure Module where
  name : Text
  opts : Key → Option Text

/-- What a line sets; the last one to set an option counts. -/
def Module.set (m : Module) (l : Text) : Module :=
  match Key.named (keyOf l) with
  | none => m
  | some k => { m with opts := Function.update m.opts k (some (valueOf l)) }

/-- The modules of a file, the first of which is begun. -/
def modulesFrom : Option Module → List Text → List Module
  | m, [] => m.toList
  | m, l :: ls =>
      if isHeader l then
        m.toList ++ modulesFrom (some ⟨(l.drop 1).takeWhile (· ≠ ']'), fun _ => none⟩) ls
      else modulesFrom (m.map (·.set l)) ls

/-- The modules of a file. -/
def modulesOf (ls : List Text) : List Module := modulesFrom none ls

/-! ## rsync.cgi -/

/-- An array of awk. -/
abbrev Opts : Type := Text → Text

/-- `delete opts` -/
def noOpts : Opts := fun _ => []

/-- `index(l, c)`, for one character -/
def awkIndex (l : Text) (c : Char) : Nat :=
  if l.contains c then (l.takeWhile (· ≠ c)).length + 1 else 0

/-- `pshare` -/
def pshare (line : Text) : Text :=
  let i := awkIndex line '[' + 1
  (line.drop (i - 1)).take (awkIndex line ']' - i)

/-- `$2`, between the first `=` and the next -/
def field2 (l : Text) : Text := ((l.dropWhile (· ≠ '=')).drop 1).takeWhile (· ≠ '=')

/-- `substr($0, index($0, f))` -/
def fromFirst (f l : Text) : Text := (l.tails.find? fun s => f.isPrefixOf s).getD l

/-- `key=$1`, without blanks at its ends -/
def pageKey (l : Text) : Text := trim (l.takeWhile (· ≠ '='))

/-- `value=substr($0, index($0,$2))`, without blanks at its ends -/
def pageValue (l : Text) : Text := trim (fromFirst (field2 l) l)

/-- `/\[.*\]/` -/
def hasBrackets (l : Text) : Bool := (l.dropWhile (· ≠ '[')).contains ']'

/-- Names that `parse` leaves for the next line. -/
def isReserved (n : Text) : Bool :=
  let n := n.map Char.toLower
  n == "global".toList || n == "printers".toList

/-- The options of each row, in the order in which `spit` prints them.  `next` in `parse` goes
back to the lines that begin no module, and keeps the options. -/
def parse : Bool → Opts → List Text → List Opts
  | true, opts, [] => opts :: List.replicate 3 noOpts
  | false, opts, [] => List.replicate 3 opts
  | inside, opts, l :: ls =>
      let next (opts : Opts) : List Opts :=
        if isReserved (pshare l) then parse false opts ls
        else parse true (Function.update noOpts "share_name".toList (pshare l)) ls
      if inside then
        if l.head? = some '#' ∨ l.head? = some ';' then parse true opts ls
        else if isHeader l then opts :: next opts
        else parse true (Function.update opts (pageKey l) (pageValue l)) ls
      else if hasBrackets l then next opts
      else parse false opts ls

/-- A row of the page, and of the form it sends. -/
structure Form where
  avail : Bool
  ldir : Text
  shname : Text
  cmt : Text
  user : Text
  browse : Bool
  rdonly : Bool

/-- A value that stays as it is between the page, the form and the file. -/
structure IsValue (v : Text) : Prop where
  ne_nil : v ≠ []
  chars : ∀ c ∈ v, "\n\r\t\\\"&*".toList.contains c = false
  front : StartsSolid v
  back : EndsSolid v
  option : isEchoOption v = false

/-- What the page and the script find on the machine: the entries of the select, `readlink -f`
and `id -gn`. -/
structure Machine where
  users : List Text
  users_value : ∀ u ∈ users, IsValue u
  first : Text
  first_mem : users.head? = some first
  readlink : Text → Text
  readlink_value : ∀ p, readlink p = [] ∨ IsValue (readlink p)
  group : Text → Text
  group_value : ∀ u, IsValue (group u)

namespace Machine

variable (m : Machine)

/-- The entry that is selected; without one, browsers take the first. -/
def pick (sel : Text) : Text := if m.users.contains sel then sel else m.first

/-- `readlink -f`; the answer to the same command is not read twice. -/
def folder (asked : List Text) (path : Text) : Text :=
  let rdir := if asked.contains path then [] else m.readlink path
  if rdir = [] then path else rdir

/-- `spit` -/
def spit (asked : List Text) (opts : Opts) : Form :=
  if opts "path".toList = [] then
    ⟨false, [], opts "share_name".toList, opts "comment".toList, m.pick "anybody".toList, false,
      false⟩
  else
    let sel := if opts "auth users".toList = [] then "anybody".toList
      else opts "auth users".toList
    ⟨opts "max connections".toList = "-1".toList, m.folder asked (opts "path".toList),
      opts "share_name".toList, opts "comment".toList, m.pick sel,
      opts "list".toList ≠ "no".toList, opts "read only".toList ≠ "no".toList⟩

/-- The rows of the page, from the paths that were looked up before. -/
def rows : List Text → List Opts → List Form
  | _, [] => []
  | asked, opts :: rest =>
      m.spit asked opts :: rows (opts "path".toList :: asked) rest

def page (conf : List Text) : List Form := m.rows [] (parse false noOpts conf)

end Machine

/-! ## The scripts that write -/

/-- rsync_proc.cgi: what is printed for a row. -/
def writeRow (group : Text → Text) (f : Form) : List Text :=
  if f.ldir = [] ∨ f.shname = [] then []
  else
    join (words (header f.shname)) ::
      ('\t' :: if f.cmt ≠ [] then "comment = ".toList ++ f.cmt
        else "comment = ".toList ++ f.shname ++ " module".toList) ::
      ('\t' :: ("path = ".toList ++ f.ldir)) ::
      (if f.avail then ["\tmax connections = -1".toList] else []) ++
      (if f.browse then [] else ["\tlist = no".toList]) ++
      (if f.user ≠ "anybody".toList then
        ["\tauth users = ".toList ++ f.user, "\tuid = ".toList ++ f.user,
          "\tgid = ".toList ++ group f.user] else []) ++
      (if f.rdonly then [] else ["\tread only = no".toList]) ++ [[]]

/-- rsync_proc.cgi: the lines in front of the modules stay. -/
def submit (group : Text → Text) (forms : List Form) (conf : List Text) : List Text :=
  conf.takeWhile (fun l => !isHeader l) ++ forms.flatMap (writeRow group)

/-- newuser_proc.cgi: the module `n` of an account. -/
def homeLines (a : Account) (n : Text) : List Text :=
  [[], header n, "\tpath = /home/".toList ++ a.uname,
    "\tcomment = ".toList ++ a.uname ++ " home folder".toList, "\tread only = no".toList,
    "\tauth users = ".toList ++ a.nick, "\tuid = ".toList ++ a.nick, "\tgid = users".toList]

def addHome (a : Account) (conf : List Text) : List Text :=
  conf ++ homeLines a a.nick ++ homeLines a a.uname

/-- usersgroups_proc.cgi: `sed -i -e "/^\[$nick\]/,/^$/d" -e "/^\[$uname\]/,/^$/d"` -/
def removeHome (a : Account) (conf : List Text) : List Text :=
  sedRemoveRange (dotPrefix (header a.uname)) List.isEmpty false
    (sedRemoveRange (header a.nick).isPrefixOf List.isEmpty false conf)

/-! ## Files -/

/-- A name that is read as it is written. -/
structure IsName (n : Text) : Prop extends IsValue n where
  brackets : ∀ c ∈ n, c ≠ '[' ∧ c ≠ ']'
  squeezed : squeeze n = n
  free : isReserved n = false

/-- A test for values. -/
def isValue (v : Text) : Bool :=
  v != [] && v.all (fun c => !"\n\r\t\\\"&*".toList.contains c) &&
    v.head?.all (fun c => !isBlank c) && v.getLast?.all (fun c => !isBlank c) && !isEchoOption v

theorem isValue_of {v : Text} (h : isValue v = true) : IsValue v := by
  simp only [isValue, Bool.and_eq_true, bne_iff_ne, Bool.not_eq_true'] at h
  obtain ⟨⟨⟨⟨hne, hchars⟩, hfront⟩, hback⟩, hoption⟩ := h
  exact ⟨hne, fun c hc => (Bool.not_eq_true' _).mp (List.all_eq_true.mp hchars c hc),
    fun c hc => (Bool.not_eq_true' _).mp ((Option.all_eq_true _ _).mp hfront c hc),
    fun c hc => (Bool.not_eq_true' _).mp ((Option.all_eq_true _ _).mp hback c hc), hoption⟩

/-- A test for names. -/
def isName (n : Text) : Bool :=
  isValue n && n.all (fun c => c != '[' && c != ']') && squeeze n == n && !isReserved n

theorem isName_of {n : Text} (h : isName n = true) : IsName n := by
  simp only [isName, Bool.and_eq_true, beq_iff_eq, Bool.not_eq_true'] at h
  obtain ⟨⟨⟨hvalue, hbrackets⟩, hsqueezed⟩, hfree⟩ := h
  refine ⟨isValue_of hvalue, fun c hc => ?_, hsqueezed, hfree⟩
  have hboth := List.all_eq_true.mp hbrackets c hc
  rwa [Bool.and_eq_true, bne_iff_ne, bne_iff_ne] at hboth

/-- A line that sets an option. -/
structure Opt where
  tabs : Nat
  key : Key
  value : Text

def Opt.line (o : Opt) : Text :=
  List.replicate o.tabs '\t' ++ (o.key.text ++ " = ".toList ++ o.value)

/-- A module as it stands in the file. -/
structure Block where
  name : Text
  body : List Opt
  isName : IsName name
  isValue : ∀ o ∈ body, IsValue o.value

/-- What a line of it sets. -/
def Module.assign (m : Module) (o : Opt) : Module :=
  { m with opts := Function.update m.opts o.key (some o.value) }

namespace Block

def lines (b : Block) : List Text := header b.name :: b.body.map Opt.line

def module (b : Block) : Module := b.body.foldl Module.assign ⟨b.name, fun _ => none⟩

end Block

theorem foldl_assign_name (body : List Opt) (m : Module) :
    (body.foldl Module.assign m).name = m.name := by
  induction body generalizing m with
  | nil => rfl
  | cons o body ih => exact ih (m.assign o)

theorem Block.module_name (b : Block) : b.module.name = b.name := foldl_assign_name b.body _

/-- A blank line, or a module with the blank line that ends it. -/
def entryLines : Option Block → List Text
  | none => [[]]
  | some b => b.lines ++ [[]]

/-- A file in which a blank line ends each module but the last. -/
structure Conf where
  preamble : List Text
  entries : List (Option Block)
  last : Option Block
  plain : ∀ l ∈ preamble, isHeader l = false ∧ hasBrackets l = false

namespace Conf

def text (c : Conf) : List Text :=
  c.preamble ++ (c.entries.flatMap entryLines ++ c.last.toList.flatMap Block.lines)

def blocks (c : Conf) : List Block := c.entries.reduceOption ++ c.last.toList

def modules (c : Conf) : List Module := c.blocks.map Block.module

/-- The modules that are kept, with the blank lines between them. -/
def keep (q : Block → Bool) (c : Conf) : Conf where
  preamble := c.preamble
  entries := c.entries.filter fun e => e.all q
  last := c.last.filter q
  plain := c.plain

end Conf

/-! ## Lines that are read back -/

/-- Blanks at the ends are dropped. -/
theorem trim_append {l t r : Text} (hl : ∀ c ∈ l, isBlank c = true) (hr : ∀ c ∈ r, isBlank c = true)
    (hne : t ≠ []) (hfront : StartsSolid t) (hback : EndsSolid t) : trim (l ++ (t ++ r)) = t := by
  have hstart : StartsSolid (t ++ r) := fun c hc => by
    rw [List.head?_append_of_ne_nil t hne] at hc
    exact hfront c hc
  rw [trim, List.dropWhile_append_of_pos hl, dropWhile_of_startsSolid hstart,
    rdropWhile_append hback, List.rdropWhile_eq_nil_iff.mpr hr, List.append_nil]

namespace Key

/-- What a name has from its first blank on. -/
def tail (k : Key) : Text := k.text.dropWhile (· ≠ ' ')

theorem equals_notMem (k : Key) : '=' ∉ k.text := by
  cases k <;> decide

theorem solid (k : Key) : k.text ≠ [] ∧ StartsSolid k.text ∧ EndsSolid k.text := by
  cases k <;> exact ⟨by decide, by rintro c ⟨⟩; rfl, by rintro c ⟨⟩; rfl⟩

end Key

namespace Opt

variable (o : Opt)

/-- What stands in front of the first `=`. -/
def front : Text := List.replicate o.tabs '\t' ++ (o.key.text ++ [' '])

theorem line_eq : o.line = o.front ++ '=' :: ' ' :: o.value := by
  simp [line, front]

theorem equals_notMem_front : '=' ∉ o.front := by
  simp [front, o.key.equals_notMem]

theorem keyOf_line : keyOf o.line = o.key.text := by
  obtain ⟨hne, hfront, hback⟩ := o.key.solid
  rw [keyOf, o.line_eq, takeWhile_ne_append o.equals_notMem_front, front,
    trim_append ?_ ?_ hne hfront hback]
  · intro c hc
    rw [List.eq_of_mem_replicate hc]
    rfl
  · intro c hc
    rw [List.mem_singleton.mp hc]
    rfl

theorem behind_line : (o.line.dropWhile (· ≠ '=')).drop 1 = ' ' :: o.value := by
  rw [o.line_eq, dropWhile_ne_append o.equals_notMem_front, List.drop_one, List.tail_cons]

end Opt

theorem IsValue.trim_space {v : Text} (hv : IsValue v) : trim (' ' :: v) = v := by
  have hblank : ∀ c ∈ [' '], isBlank c = true := fun c hc => by
    rw [List.mem_singleton.mp hc]
    rfl
  have htrim := trim_append hblank (List.forall_mem_nil _) hv.ne_nil hv.front hv.back
  rwa [List.append_nil] at htrim

theorem Opt.valueOf_line {o : Opt} (hvalue : IsValue o.value) : valueOf o.line = o.value := by
  rw [valueOf, o.behind_line, hvalue.trim_space]

/-! ## What the page reads -/

namespace Key

/-- The text behind the `=`, up to the next, stands in front of it too: from the blank in the
name of the option on. -/
def misread (k : Key) (v : Text) : Bool :=
  (' ' :: v.takeWhile (· ≠ '=')).isPrefixOf (k.tail ++ " = ".toList ++ v)

/-- The value that the page shows. -/
def seen (k : Key) (v : Text) : Text :=
  if k.misread v then trim (k.tail ++ " = ".toList ++ v) else v

theorem text_eq (k : Key) : k.text.takeWhile (· ≠ ' ') ++ k.tail = k.text :=
  List.takeWhile_append_dropWhile

theorem tail_cases (k : Key) : k.tail = [] ∨ ∃ rest, k.tail = ' ' :: rest ∧ ' ' ∉ rest := by
  cases k with
  | maxConnections => exact .inr ⟨"connections".toList, by decide, by decide⟩
  | authUsers => exact .inr ⟨"users".toList, by decide, by decide⟩
  | readOnly => exact .inr ⟨"only".toList, by decide, by decide⟩
  | _ => exact .inl (by decide)

end Key

/-- A text that begins with a blank is found nowhere in text without blanks. -/
theorem find_append {l : Text} (hl : ' ' ∉ l) (w t : Text) :
    (l ++ t).tails.find? (fun s => (' ' :: w).isPrefixOf s) =
      t.tails.find? fun s => (' ' :: w).isPrefixOf s := by
  induction l with
  | nil => rfl
  | cons c l ih =>
      rw [List.mem_cons, not_or] at hl
      have hnot : (' ' :: w).isPrefixOf (c :: (l ++ t)) = false := by
        rw [List.isPrefixOf, beq_eq_false_iff_ne.mpr hl.1, Bool.false_and]
      rw [List.cons_append, List.tails_cons, List.find?_cons_of_neg (by rw [hnot]; nofun),
        ih hl.2]

theorem find_here {f t : Text} (h : f.isPrefixOf t = true) :
    t.tails.find? (fun s => f.isPrefixOf s) = some t := by
  cases t with
  | nil => exact List.find?_cons_of_pos h
  | cons c t => exact List.find?_cons_of_pos h

/-- Behind the `=`, if not in front of it. -/
theorem find_behind {w v : Text} (hne : w ≠ []) (hequals : '=' ∉ w)
    (hw : w.isPrefixOf v = true) :
    (" = ".toList ++ v).tails.find? (fun s => (' ' :: w).isPrefixOf s) = some (' ' :: v) := by
  obtain ⟨c, w, rfl⟩ := List.exists_cons_of_ne_nil hne
  rw [List.mem_cons, not_or] at hequals
  have hfirst : (' ' :: c :: w).isPrefixOf (" = ".toList ++ v) = false := by
    have hc : (c == '=') = false := beq_eq_false_iff_ne.mpr (Ne.symm hequals.1)
    change (' ' == ' ' && (c == '=' && _)) = false
    rw [hc, Bool.false_and, Bool.and_false]
  have hrest : ' ' ∉ ['='] := by decide
  have hcons : " = ".toList ++ v = ' ' :: (['='] ++ ' ' :: v) := rfl
  rw [hcons] at hfirst ⊢
  rw [List.tails_cons, List.find?_cons_of_neg (by rw [hfirst]; nofun), find_append hrest,
    find_here (by rwa [List.isPrefixOf, beq_self_eq_true, Bool.true_and])]

theorem notMem_takeWhile (c : Char) (t : Text) : c ∉ t.takeWhile (· ≠ c) := fun hmem => by
  have hne := List.mem_takeWhile_imp hmem
  exact of_decide_eq_true hne rfl

/-- **A line of the file**, as the page reads it. -/
theorem Opt.pageValue_line {o : Opt} (hvalue : IsValue o.value) :
    pageValue o.line = o.key.seen o.value := by
  let w := o.value.takeWhile (· ≠ '=')
  have hfield : field2 o.line = ' ' :: w := by
    rw [field2, o.behind_line]
    exact List.takeWhile_cons_of_pos (by decide)
  have hline : o.line = (List.replicate o.tabs '\t' ++ o.key.text.takeWhile (· ≠ ' ')) ++
      (o.key.tail ++ " = ".toList ++ o.value) := by
    rw [Opt.line]
    nth_rewrite 1 [← o.key.text_eq]
    simp only [List.append_assoc]
  have hfront : ' ' ∉ List.replicate o.tabs '\t' ++ o.key.text.takeWhile (· ≠ ' ') := by
    rw [List.mem_append, not_or]
    exact ⟨fun hmem => absurd (List.eq_of_mem_replicate hmem) (by decide),
      notMem_takeWhile ' ' o.key.text⟩
  have hfind := find_append hfront w (o.key.tail ++ " = ".toList ++ o.value)
  rw [← hline] at hfind
  have hpre : w.isPrefixOf o.value = true :=
    List.isPrefixOf_iff_prefix.mpr (List.takeWhile_prefix _)
  have hequals : '=' ∉ w := notMem_takeWhile '=' o.value
  rw [pageValue, fromFirst, hfield, hfind, Key.seen]
  split
  · rename_i hmis
    rw [find_here hmis, Option.getD_some]
  · rename_i hmis
    have hne : w ≠ [] := by
      intro hnil
      refine hmis ?_
      rw [Key.misread, show o.value.takeWhile (· ≠ '=') = [] from hnil]
      rcases o.key.tail_cases with htail | ⟨rest, htail, -⟩
      · rw [htail]
        rfl
      · rw [htail]
        rfl
    have hbehind := find_behind hne hequals hpre
    have hall : (o.key.tail ++ " = ".toList ++ o.value).tails.find?
        (fun s => (' ' :: w).isPrefixOf s) = some (' ' :: o.value) := by
      rcases o.key.tail_cases with htail | ⟨rest, htail, hrest⟩
      · rw [htail]
        exact hbehind
      · rw [Key.misread, htail, List.cons_append, List.cons_append] at hmis
        rw [htail, List.cons_append, List.cons_append, List.tails_cons,
          List.find?_cons_of_neg hmis, List.append_assoc, find_append hrest, hbehind]
    rw [hall, Option.getD_some, hvalue.trim_space]

/-! ## The modules of a file -/

theorem Opt.exists_head (o : Opt) :
    ∃ c, o.line.head? = some c ∧ c ≠ '[' ∧ c ≠ '#' ∧ c ≠ ';' := by
  rw [Opt.line]
  cases o.tabs with
  | succ n => exact ⟨'\t', rfl, by decide⟩
  | zero => cases o.key <;> exact ⟨_, rfl, by decide⟩

theorem Opt.isHeader_line (o : Opt) : isHeader o.line = false := by
  obtain ⟨c, hc, hne, -⟩ := o.exists_head
  rw [isHeader, hc]
  exact beq_eq_false_iff_ne.mpr fun heq => hne (Option.some.inj heq)

theorem Module.set_line (m : Module) {o : Opt} (hvalue : IsValue o.value) :
    m.set o.line = m.assign o := by
  rw [Module.set, o.keyOf_line, Key.named_text, Opt.valueOf_line hvalue]
  rfl

theorem modulesFrom_blank (m : Option Module) (ls : List Text) :
    modulesFrom m ([] :: ls) = modulesFrom m ls := by
  have hset : (fun m : Module => m.set []) = id := rfl
  rw [modulesFrom, if_neg (by decide), hset, Option.map_id, id]

theorem modulesFrom_body (m : Module) {body : List Opt} (hbody : ∀ o ∈ body, IsValue o.value)
    (ls : List Text) :
    modulesFrom (some m) (body.map Opt.line ++ ls) =
      modulesFrom (some (body.foldl Module.assign m)) ls := by
  induction body generalizing m with
  | nil => rfl
  | cons o body ih =>
      rw [List.map_cons, List.cons_append, modulesFrom, o.isHeader_line,
        if_neg Bool.false_ne_true, Option.map_some, m.set_line (hbody o List.mem_cons_self),
        ih _ fun o' ho' => hbody o' (List.mem_cons_of_mem o ho'), List.foldl_cons]

theorem modulesFrom_block (m : Option Module) (b : Block) (ls : List Text) :
    modulesFrom m (b.lines ++ ls) = m.toList ++ modulesFrom (some b.module) ls := by
  have hname : ((header b.name).drop 1).takeWhile (· ≠ ']') = b.name := by
    have hnot : ']' ∉ b.name := fun hmem => (b.isName.brackets _ hmem).2 rfl
    exact takeWhile_ne_append hnot
  have hheader : isHeader (header b.name) = true := rfl
  rw [Block.lines, List.cons_append, modulesFrom, if_pos hheader, hname,
    modulesFrom_body _ b.isValue, Block.module]

theorem modulesFrom_entries (entries : List (Option Block)) (last : Option Block)
    (m : Option Module) :
    modulesFrom m (entries.flatMap entryLines ++ last.toList.flatMap Block.lines) =
      m.toList ++ (entries.reduceOption ++ last.toList).map Block.module := by
  induction entries generalizing m with
  | nil =>
      cases last with
      | none =>
          cases m with
          | none => rfl
          | some m => rfl
      | some b =>
          have hblock := modulesFrom_block m b []
          rw [List.append_nil] at hblock
          exact (congrArg (modulesFrom m) (List.append_nil b.lines)).trans hblock
  | cons e entries ih =>
      rw [List.flatMap_cons, List.append_assoc]
      cases e with
      | none => exact (modulesFrom_blank m _).trans (ih m)
      | some b =>
          rw [entryLines, List.append_assoc, modulesFrom_block, List.singleton_append,
            modulesFrom_blank, ih, List.reduceOption_cons_of_some]
          rfl

/-- **The modules of the file** are those of its blocks. -/
theorem modulesOf_text (c : Conf) : modulesOf c.text = c.modules := by
  have hpre : ∀ {pre : List Text} (_ : ∀ l ∈ pre, isHeader l = false ∧ hasBrackets l = false)
      (ls : List Text), modulesFrom none (pre ++ ls) = modulesFrom none ls := by
    intro pre hplain ls
    induction pre with
    | nil => rfl
    | cons l pre ih =>
        rw [List.cons_append, modulesFrom, (hplain l List.mem_cons_self).1,
          if_neg Bool.false_ne_true, Option.map_none,
          ih fun l' hl' => hplain l' (List.mem_cons_of_mem l hl')]
  rw [modulesOf, Conf.text, hpre c.plain, modulesFrom_entries]
  rfl

/-! ## The rows of the page -/

/-- What the page reads of a module. -/
def Module.seenOpts (m : Module) : Opts := fun t =>
  if t = "share_name".toList then m.name
  else match Key.named t with
    | none => []
    | some k => (m.opts k).elim [] k.seen

theorem Key.text_ne (k : Key) : k.text ≠ "share_name".toList := by
  cases k <;> decide

theorem Module.seenOpts_text (m : Module) (k : Key) :
    m.seenOpts k.text = (m.opts k).elim [] k.seen := by
  rw [seenOpts, if_neg k.text_ne, k.named_text]

theorem Module.seenOpts_assign (m : Module) (o : Opt) :
    (m.assign o).seenOpts = Function.update m.seenOpts o.key.text (o.key.seen o.value) := by
  funext t
  by_cases ht : t = o.key.text
  · have hself := Function.update_self o.key (some o.value) m.opts
    rw [ht, Function.update_self, seenOpts_text, assign]
    dsimp only
    rw [hself]
    rfl
  · rw [Function.update_of_ne ht, seenOpts, seenOpts, assign]
    split
    · rfl
    · cases hnamed : Key.named t with
      | none => rfl
      | some k =>
          have hk : k ≠ o.key := by
            rintro rfl
            have hfound := List.find?_some hnamed
            exact ht (of_decide_eq_true hfound).symm
          dsimp only
          rw [Function.update_of_ne hk]

theorem Module.seenOpts_empty (n : Text) :
    (⟨n, fun _ => none⟩ : Module).seenOpts = Function.update noOpts "share_name".toList n := by
  funext t
  rw [seenOpts]
  by_cases ht : t = "share_name".toList
  · rw [if_pos ht, ht, Function.update_self]
  · rw [if_neg ht, Function.update_of_ne ht]
    cases Key.named t <;> rfl

theorem pshare_header {n : Text} (hn : IsName n) : pshare (header n) = n := by
  have hopen : awkIndex (header n) '[' = 1 := rfl
  have hclose : awkIndex (header n) ']' = n.length + 2 := by
    have hnot : ']' ∉ '[' :: n := by
      rintro (_ | ⟨_, hmem⟩)
      exact (hn.brackets _ hmem).2 rfl
    have htake : (header n).takeWhile (· ≠ ']') = '[' :: n := takeWhile_ne_append hnot
    rw [awkIndex, if_pos (by simp [header]), htake, List.length_cons]
  rw [pshare, hopen, hclose]
  exact List.take_left' rfl

theorem hasBrackets_header (n : Text) : hasBrackets (header n) = true := by
  have hdrop : (header n).dropWhile (· ≠ '[') = header n := rfl
  rw [hasBrackets, hdrop]
  simp [header]

theorem parse_header {n : Text} (hn : IsName n) (opts : Opts) (ls : List Text) :
    parse true opts (header n :: ls) =
      opts :: parse true (⟨n, fun _ => none⟩ : Module).seenOpts ls := by
  have hhead : ¬ ((header n).head? = some '#' ∨ (header n).head? = some ';') := by
    rw [header, List.head?_cons]
    decide
  have hheader : isHeader (header n) = true := rfl
  rw [parse, if_pos rfl, if_neg hhead, if_pos hheader, pshare_header hn, hn.free,
    Module.seenOpts_empty]
  rfl

theorem parse_header_outside {n : Text} (hn : IsName n) (opts : Opts) (ls : List Text) :
    parse false opts (header n :: ls) =
      parse true (⟨n, fun _ => none⟩ : Module).seenOpts ls := by
  rw [parse, if_neg Bool.false_ne_true, if_pos (hasBrackets_header n), pshare_header hn, hn.free,
    Module.seenOpts_empty]
  rfl

theorem parse_line (m : Module) {o : Opt} (hvalue : IsValue o.value) (ls : List Text) :
    parse true m.seenOpts (o.line :: ls) = parse true (m.assign o).seenOpts ls := by
  obtain ⟨c, hc, -, hhash, hsemi⟩ := o.exists_head
  have hhead : ¬ (o.line.head? = some '#' ∨ o.line.head? = some ';') := by
    rw [hc]
    rintro (heq | heq)
    · exact hhash (Option.some.inj heq)
    · exact hsemi (Option.some.inj heq)
  have hkey : pageKey o.line = o.key.text := o.keyOf_line
  rw [parse, if_pos rfl, if_neg hhead, o.isHeader_line, if_neg Bool.false_ne_true, hkey,
    Opt.pageValue_line hvalue, m.seenOpts_assign]

theorem parse_body (m : Module) {body : List Opt} (hbody : ∀ o ∈ body, IsValue o.value)
    (ls : List Text) :
    parse true m.seenOpts (body.map Opt.line ++ ls) =
      parse true (body.foldl Module.assign m).seenOpts ls := by
  induction body generalizing m with
  | nil => rfl
  | cons o body ih =>
      rw [List.map_cons, List.cons_append, parse_line m (hbody o List.mem_cons_self),
        ih _ fun o' ho' => hbody o' (List.mem_cons_of_mem o ho'), List.foldl_cons]

/-- The page between two lines: a module that is begun, and what is to come. -/
def parseFrom (m : Option Module) (ls : List Text) : List Opts :=
  parse m.isSome (m.elim noOpts Module.seenOpts) ls

theorem parseFrom_blank (m : Option Module) (ls : List Text) :
    parseFrom m ([] :: ls) = parseFrom m ls := by
  cases m with
  | none => rfl
  | some m =>
      have hnone : m.seenOpts [] = [] := rfl
      have hself : Function.update m.seenOpts [] [] = m.seenOpts :=
        (congrArg (Function.update m.seenOpts []) hnone.symm).trans
          (Function.update_eq_self [] m.seenOpts)
      have hempty : pageKey [] = [] ∧ pageValue [] = [] := by decide
      change parse true m.seenOpts ([] :: ls) = _
      rw [parse, if_pos rfl, if_neg (by decide), if_neg (by decide), hempty.1, hempty.2, hself]
      rfl

theorem parseFrom_block (m : Option Module) (b : Block) (ls : List Text) :
    parseFrom m (b.lines ++ ls) =
      (m.map Module.seenOpts).toList ++ parseFrom (some b.module) ls := by
  cases m with
  | none =>
      exact (parse_header_outside b.isName _ _).trans (parse_body _ b.isValue ls)
  | some m =>
      exact (parse_header b.isName _ _).trans (congrArg _ (parse_body _ b.isValue ls))

theorem parseFrom_entries (entries : List (Option Block)) (last : Option Block)
    (m : Option Module) :
    parseFrom m (entries.flatMap entryLines ++ last.toList.flatMap Block.lines) =
      (m.map Module.seenOpts).toList ++
        ((entries.reduceOption ++ last.toList).map fun b => b.module.seenOpts) ++
          List.replicate 3 noOpts := by
  induction entries generalizing m with
  | nil =>
      cases last with
      | none =>
          cases m with
          | none => rfl
          | some m => rfl
      | some b =>
          have hblock := parseFrom_block m b []
          rw [List.append_nil] at hblock
          refine (congrArg (parseFrom m) (List.append_nil b.lines)).trans (hblock.trans ?_)
          rw [List.append_assoc]
          rfl
  | cons e entries ih =>
      rw [List.flatMap_cons, List.append_assoc]
      cases e with
      | none => exact (parseFrom_blank m _).trans (ih m)
      | some b =>
          rw [entryLines, List.append_assoc, parseFrom_block, List.singleton_append,
            parseFrom_blank, ih, List.reduceOption_cons_of_some, List.append_assoc,
            List.append_assoc]
          rfl

/-- **The rows of the page** are the modules, as it reads them, and three that are empty. -/
theorem parse_text (c : Conf) :
    parse false noOpts c.text = c.modules.map Module.seenOpts ++ List.replicate 3 noOpts := by
  have hpre : ∀ {pre : List Text} (_ : ∀ l ∈ pre, isHeader l = false ∧ hasBrackets l = false)
      (ls : List Text), parse false noOpts (pre ++ ls) = parse false noOpts ls := by
    intro pre hplain ls
    induction pre with
    | nil => rfl
    | cons l pre ih =>
        rw [List.cons_append, parse, if_neg Bool.false_ne_true, (hplain l List.mem_cons_self).2,
          if_neg Bool.false_ne_true, ih fun l' hl' => hplain l' (List.mem_cons_of_mem l hl')]
  have hentries := parseFrom_entries c.entries c.last none
  rw [Conf.text, hpre c.plain, Conf.modules, List.map_map]
  exact hentries

end AltF.Cgi.Rsync
