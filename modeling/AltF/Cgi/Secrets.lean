/-
  Cgi/Secrets.lean --- newuser_proc.cgi and usersgroups_proc.cgi, as far as they write
  /etc/rsyncd.secrets: two lines for every account, over runs of accounts that are made,
  get a new password, and are deleted.

  A new password deletes the line of the nick name only, before both lines are written.
-/
import Mathlib.Data.List.Flatten
import Mathlib.Data.List.Nodup
import Mathlib.Data.List.Pairwise
import AltF.Foundation.Runs
import AltF.SysFiles.Patterns

set_option autoImplicit false

namespace AltF.Cgi.Secrets

open AltF.Foundation AltF.SysFiles

/-! ## Accounts -/

/-- A character of a user name: none that sed or /etc/passwd take for another thing, but for
the dot. -/
def isUserChar (c : Char) : Bool := !":/\\*[^$\n\r".toList.contains c

/-- An account, or the form for one, with legal names. -/
structure Account where
  nick : Text
  uname : Text
  pass : Text
  nick_chars : nick.all Char.isAlphanum = true
  nick_some : nick ≠ []
  uname_chars : uname.all isUserChar = true
  uname_some : uname ≠ []

namespace Account

def names (a : Account) : List Text := [a.nick, a.uname]

/-- `echo "$n:$pass"` -/
def line (a : Account) (n : Text) : Text := n ++ ':' :: a.pass

def lines (a : Account) : List Text := a.names.map a.line

theorem colon_notMem (a : Account) : ∀ n ∈ a.names, ':' ∉ n := by
  intro n hn hmem
  rcases List.mem_cons.mp hn with heq | hn
  · rw [heq] at hmem
    exact absurd (List.all_eq_true.mp a.nick_chars _ hmem) (by decide)
  · rw [List.mem_singleton.mp hn] at hmem
    exact absurd (List.all_eq_true.mp a.uname_chars _ hmem) (by decide)

end Account

/-! ## The scripts -/

/-- The accounts in /etc/passwd, each with the password set last, and the lines of
/etc/rsyncd.secrets. -/
structure Users where
  accounts : List Account
  secrets : List Text

/-- A request, and for those that set a password whether it is refused: for the passwords or
the names that are entered, or by adduser. -/
inductive Event where
  | create (a : Account) (refused : Bool)
  | change (a : Account) (refused : Bool)
  | delete (nick : Text)

/-- newuser_proc.cgi: `sed -i "/^$nick:/d"`, and two `echo`. -/
def writeSecrets (a : Account) (secrets : List Text) : List Text :=
  secrets.filter (fun l => !(a.nick ++ [':']).isPrefixOf l) ++ [a.line a.nick, a.line a.uname]

/-- `sed -i -e "/^$nick:/d" -e "/^$uname:/d"`: the nick name has no dots. -/
def deleteSecrets (a : Account) (secrets : List Text) : List Text :=
  secrets.filter fun l => !(a.nick ++ [':']).isPrefixOf l && !dotPrefix (a.uname ++ [':']) l

/-- A name that an account has already. -/
def Users.taken (s : Users) (a : Account) : Bool :=
  s.accounts.any fun b => b.uname == a.uname || b.nick == a.nick

/-- newuser_proc.cgi, `$submit` -/
def create (s : Users) (a : Account) (refused : Bool) : Users :=
  if refused || s.taken a then s
  else ⟨s.accounts ++ [a], writeSecrets a s.secrets⟩

/-- newuser_proc.cgi, `$chpass` -/
def change (s : Users) (a : Account) (refused : Bool) : Users :=
  if refused then s
  else ⟨s.accounts.map fun b => if b.nick = a.nick then { b with pass := a.pass } else b,
    writeSecrets a s.secrets⟩

/-- usersgroups_proc.cgi, `$del_user` -/
def delete (s : Users) (nick : Text) : Users :=
  match s.accounts.find? (fun b => b.nick = nick) with
  | none => s
  | some a => ⟨s.accounts.filter fun b => b.nick ≠ nick, deleteSecrets a s.secrets⟩

def step (s : Users) : Event → Users
  | .create a refused => create s a refused
  | .change a refused => change s a refused
  | .delete nick => delete s nick

/-! ## What the file is to have -/

def linesOf (n : Text) (secrets : List Text) : List Text :=
  secrets.filter fun l => (n ++ [':']).isPrefixOf l

/-- **The secrets follow the accounts.** -/
structure Follows (s : Users) : Prop where
  /-- each name has one line, with the password set last -/
  once : ∀ a ∈ s.accounts, ∀ n ∈ a.names, linesOf n s.secrets = [a.line n]
  /-- and there are no other lines -/
  nothing : ∀ l ∈ s.secrets, ∃ a ∈ s.accounts, l ∈ a.lines

/-- The new account's names are two, and no names of others; nobody's password is changed;
and the name that is deleted fits no line of others. -/
def Event.Plain (s : Users) : Event → Prop
  | .create a refused =>
      (refused || s.taken a) = false →
        a.nick ≠ a.uname ∧ ∀ b ∈ s.accounts, b.uname ≠ a.nick ∧ b.nick ≠ a.uname
  | .change _ refused => refused = true
  | .delete nick =>
      ∀ a ∈ s.accounts, a.nick = nick → ∀ b ∈ s.accounts, b.nick ≠ nick →
        ∀ l ∈ b.lines, dotPrefix (a.uname ++ [':']) l = false

/-! ## Lines in the order of the accounts -/

/-- Every account has its two lines, and all names are different. -/
structure Ordered (s : Users) : Prop where
  secrets : s.secrets = s.accounts.flatMap Account.lines
  names : (s.accounts.flatMap Account.names).Nodup

/-- A name and the name of a line. -/
theorem isPrefixOf_line {a : Account} {n m : Text} (hn : ':' ∉ n) (hm : ':' ∉ m) :
    (n ++ [':']).isPrefixOf (a.line m) = (m == n) := by
  rw [Account.line, isPrefixOf_append_cons hn hm, Bool.eq_iff_iff, decide_eq_true_iff, beq_iff_eq]

theorem filter_lines (a : Account) {n : Text} (hn : ':' ∉ n) :
    a.lines.filter (fun l => (n ++ [':']).isPrefixOf l) =
      (a.names.filter fun m => m == n).map a.line := by
  rw [Account.lines, List.filter_map]
  congr 1
  exact List.filter_congr fun m hm => isPrefixOf_line hn (a.colon_notMem m hm)

theorem filter_names_eq_nil {a : Account} {n : Text} (h : n ∉ a.names) :
    (a.names.filter fun m => m == n) = [] :=
  List.filter_eq_nil_iff.mpr fun _ hm heq => h (eq_of_beq heq ▸ hm)

theorem linesOf_flatMap {accounts : List Account} (hnodup : (accounts.flatMap Account.names).Nodup)
    {a : Account} (ha : a ∈ accounts) {n : Text} (hn : n ∈ a.names) :
    linesOf n (accounts.flatMap Account.lines) = [a.line n] := by
  have hcolon := a.colon_notMem n hn
  rw [List.nodup_flatMap] at hnodup
  induction accounts with
  | nil => exact absurd ha List.not_mem_nil
  | cons b accounts ih =>
      obtain ⟨hnames, hapart⟩ := hnodup
      rw [List.pairwise_cons] at hapart
      rw [linesOf, List.flatMap_cons, List.filter_append, filter_lines b hcolon]
      rcases List.mem_cons.mp ha with heq | ha
      · have hrest : (accounts.flatMap Account.lines).filter
            (fun l => (n ++ [':']).isPrefixOf l) = [] := by
          rw [List.filter_eq_nil_iff]
          intro l hl hfront
          obtain ⟨c, hc, hl⟩ := List.mem_flatMap.mp hl
          obtain ⟨m, hm, rfl⟩ := List.mem_map.mp hl
          rw [isPrefixOf_line hcolon (c.colon_notMem m hm), beq_iff_eq] at hfront
          exact hapart.1 c hc (heq ▸ hn) (hfront ▸ hm)
        have hone : (b.names.filter fun m => m == n) = [n] := by
          have hcount : b.names.count n = 1 :=
            List.count_eq_one_of_mem (hnames b List.mem_cons_self) (heq ▸ hn)
          rw [List.filter_beq, hcount, List.replicate_one]
        rw [hrest, hone, List.append_nil, heq]
        rfl
      · have hother : n ∉ b.names := fun hmem => hapart.1 a ha hmem hn
        rw [filter_names_eq_nil hother, List.map_nil, List.nil_append]
        exact ih ⟨fun c hc => hnames c (List.mem_cons_of_mem b hc), hapart.2⟩ ha

theorem Ordered.follows {s : Users} (h : Ordered s) : Follows s where
  once a ha n hn := by
    rw [h.secrets]
    exact linesOf_flatMap h.names ha hn
  nothing l hl := by
    rw [h.secrets] at hl
    exact List.mem_flatMap.mp hl

/-! ## One request -/

/-- A name is one account's. -/
theorem Ordered.eq_of_name {s : Users} (h : Ordered s) {a b : Account} (ha : a ∈ s.accounts)
    (hb : b ∈ s.accounts) {n : Text} (hna : n ∈ a.names) (hnb : n ∈ b.names) : a = b := by
  have hapart := (List.nodup_flatMap.mp h.names).2
  have : Std.Symm (Function.onFun List.Disjoint Account.names) :=
    ⟨fun _ _ hd _ hm hn => hd hn hm⟩
  by_contra hne
  exact hapart.forall ha hb hne hna hnb

/-- Lines of other names stay. -/
theorem filter_nick {accounts : List Account} {a : Account}
    (h : ∀ b ∈ accounts, a.nick ∉ b.names) :
    (accounts.flatMap Account.lines).filter (fun l => !(a.nick ++ [':']).isPrefixOf l) =
      accounts.flatMap Account.lines := by
  rw [List.filter_eq_self]
  intro l hl
  obtain ⟨b, hb, hl⟩ := List.mem_flatMap.mp hl
  obtain ⟨m, hm, rfl⟩ := List.mem_map.mp hl
  rw [isPrefixOf_line (a.colon_notMem _ List.mem_cons_self) (b.colon_notMem m hm),
    Bool.not_eq_true', beq_eq_false_iff_ne]
  exact fun heq => h b hb (heq ▸ hm)

theorem ordered_create {s : Users} (h : Ordered s) {a : Account} {refused : Bool}
    (hplain : (Event.create a refused).Plain s) : Ordered (create s a refused) := by
  unfold create
  split
  · exact h
  · rename_i hdone
    obtain ⟨htwo, hothers⟩ := hplain (Bool.eq_false_iff.mpr hdone)
    rw [Bool.or_eq_true, not_or, Users.taken, Bool.not_eq_true, Bool.not_eq_true] at hdone
    have hfree : ∀ b ∈ s.accounts, b.uname ≠ a.uname ∧ b.nick ≠ a.nick := by
      intro b hb
      have hnot := List.any_eq_false.mp hdone.2 b hb
      simpa using hnot
    have hnick : ∀ b ∈ s.accounts, a.nick ∉ b.names := fun b hb hmem => by
      rcases List.mem_cons.mp hmem with heq | hmem
      · exact (hfree b hb).2 heq.symm
      · exact (hothers b hb).1 (List.mem_singleton.mp hmem).symm
    have huname : ∀ b ∈ s.accounts, a.uname ∉ b.names := fun b hb hmem => by
      rcases List.mem_cons.mp hmem with heq | hmem
      · exact (hothers b hb).2 heq.symm
      · exact (hfree b hb).1 (List.mem_singleton.mp hmem).symm
    refine ⟨?_, ?_⟩
    · change writeSecrets a s.secrets = (s.accounts ++ [a]).flatMap Account.lines
      rw [writeSecrets, h.secrets, filter_nick hnick, List.flatMap_append, List.flatMap_singleton]
      rfl
    · change ((s.accounts ++ [a]).flatMap Account.names).Nodup
      rw [List.flatMap_append, List.flatMap_singleton]
      refine List.nodup_append.mpr ⟨h.names, by simp [Account.names, htwo], fun n hn m hm => ?_⟩
      obtain ⟨b, hb, hn⟩ := List.mem_flatMap.mp hn
      rintro rfl
      rcases List.mem_cons.mp hm with heq | hm
      · exact hnick b hb (heq ▸ hn)
      · exact huname b hb (List.mem_singleton.mp hm ▸ hn)

/-- A filter that keeps all lines of some accounts and none of the others. -/
theorem filter_flatMap_of {accounts : List Account} (p : Text → Bool) (q : Account → Prop)
    [DecidablePred q] (hkeep : ∀ b ∈ accounts, q b → b.lines.filter p = b.lines)
    (hdrop : ∀ b ∈ accounts, ¬ q b → b.lines.filter p = []) :
    (accounts.flatMap Account.lines).filter p =
      (accounts.filter fun b => decide (q b)).flatMap Account.lines := by
  induction accounts with
  | nil => rfl
  | cons b accounts ih =>
      have hrest := ih (fun c hc => hkeep c (List.mem_cons_of_mem b hc))
        (fun c hc => hdrop c (List.mem_cons_of_mem b hc))
      rw [List.flatMap_cons, List.filter_append, hrest, List.filter_cons]
      rcases Decidable.em (q b) with hq | hq
      · rw [hkeep b List.mem_cons_self hq, if_pos (decide_eq_true hq), List.flatMap_cons]
      · rw [hdrop b List.mem_cons_self hq, if_neg (by simpa using hq), List.nil_append]

theorem filter_own (a : Account) :
    a.lines.filter (fun l => !(a.nick ++ [':']).isPrefixOf l &&
      !dotPrefix (a.uname ++ [':']) l) = [] := by
  have hfirst : (a.nick ++ [':']).isPrefixOf (a.line a.nick) = true :=
    List.isPrefixOf_iff_prefix.mpr ⟨a.pass, by simp [Account.line]⟩
  have hsecond : dotPrefix (a.uname ++ [':']) (a.line a.uname) = true :=
    dotPrefix_of_prefix ⟨a.pass, by simp [Account.line]⟩
  simp [Account.lines, Account.names, hfirst, hsecond]

theorem ordered_delete {s : Users} (h : Ordered s) {nick : Text}
    (hplain : (Event.delete nick).Plain s) : Ordered (delete s nick) := by
  unfold delete
  split
  · exact h
  · rename_i a hfound
    have ha : a ∈ s.accounts := List.mem_of_find?_eq_some hfound
    have hnick : a.nick = nick := by simpa using List.find?_some hfound
    have hkeep : ∀ b ∈ s.accounts, b.nick ≠ nick →
        b.lines.filter (fun l =>
          !(a.nick ++ [':']).isPrefixOf l && !dotPrefix (a.uname ++ [':']) l) = b.lines := by
      intro b hb hne
      rw [List.filter_eq_self]
      intro l hl
      have hfits := hplain a ha hnick b hb hne l hl
      obtain ⟨m, hm, rfl⟩ := List.mem_map.mp hl
      have hfront : (a.nick ++ [':']).isPrefixOf (b.line m) = false := by
        rw [isPrefixOf_line (a.colon_notMem _ List.mem_cons_self) (b.colon_notMem m hm),
          beq_eq_false_iff_ne]
        rintro rfl
        exact hne (h.eq_of_name ha hb List.mem_cons_self hm ▸ hnick)
      rw [hfront, hfits]
      rfl
    have hdrop : ∀ b ∈ s.accounts, ¬ b.nick ≠ nick → b.lines.filter
        (fun l => !(a.nick ++ [':']).isPrefixOf l && !dotPrefix (a.uname ++ [':']) l) = [] := by
      intro b hb heq
      have hsame : b = a := h.eq_of_name hb ha List.mem_cons_self
        (by rw [not_not.mp heq, ← hnick]; exact List.mem_cons_self)
      rw [hsame, filter_own]
    refine ⟨?_, ?_⟩
    · change deleteSecrets a s.secrets =
        (s.accounts.filter fun b => b.nick ≠ nick).flatMap Account.lines
      rw [h.secrets, deleteSecrets]
      exact filter_flatMap_of _ (fun b => b.nick ≠ nick) hkeep hdrop
    · exact h.names.sublist (List.filter_sublist.flatMap Account.names)

theorem ordered_step {s : Users} {e : Event} (h : Ordered s) (hplain : e.Plain s) :
    Ordered (step s e) := by
  cases e with
  | create a refused => exact ordered_create h hplain
  | change a refused =>
      change Ordered (change s a refused)
      have hrefused : refused = true := hplain
      rw [change, if_pos hrefused]
      exact h
  | delete nick => exact ordered_delete h hplain

/-! ## Runs -/

/-- **Secrets and accounts.**  From an empty file, the secrets follow the accounts after every
request, as long as the requests are plain. -/
theorem follows_along (events : List Event)
    (hplain : Along step (fun s e => e.Plain s) ⟨[], []⟩ events) :
    Along step (fun s e => Follows (step s e)) ⟨[], []⟩ events :=
  along_of_step Ordered
    (fun _ _ h hstep => ⟨(ordered_step h hstep).follows, ordered_step h hstep⟩)
    ⟨rfl, List.nodup_nil⟩ hplain

/-- An account of the page's own example. -/
def johnSmith : Account where
  nick := "johnsmit".toList
  uname := "John Smith".toList
  pass := "a".toList
  nick_chars := by decide +kernel
  nick_some := by decide
  uname_chars := by decide +kernel
  uname_some := by decide

theorem follows_johnSmith :
    Along step (fun s e => Follows (step s e)) ⟨[], []⟩
      [.create johnSmith false, .delete johnSmith.nick] := by
  refine follows_along _ ⟨fun _ => ⟨by decide, fun b hb => absurd hb List.not_mem_nil⟩, ?_, trivial⟩
  intro a ha hnick b hb hne
  have hstep : (step ⟨[], []⟩ (.create johnSmith false)).accounts = [johnSmith] := rfl
  rw [hstep, List.mem_singleton] at hb
  exact absurd (hb ▸ rfl) hne

/-- **A line that stays.**  With a new password, the user name has the line of the old one
too. -/
theorem change_stays :
    ¬ ∀ events, Along step (fun s e => Follows (step s e)) ⟨[], []⟩ events := by
  intro h
  obtain ⟨-, hfollows, -⟩ :=
    h [.create johnSmith false, .change { johnSmith with pass := "b".toList } false]
  have hlines : linesOf johnSmith.uname
      (step (step ⟨[], []⟩ (.create johnSmith false))
        (.change { johnSmith with pass := "b".toList } false)).secrets =
      ["John Smith:a".toList, "John Smith:b".toList] := by
    decide +kernel
  have honce := hfollows.once { johnSmith with pass := "b".toList } List.mem_cons_self
    johnSmith.uname (List.mem_cons_of_mem _ List.mem_cons_self)
  rw [hlines] at honce
  exact absurd (congrArg List.length honce) (by decide)

end AltF.Cgi.Secrets
