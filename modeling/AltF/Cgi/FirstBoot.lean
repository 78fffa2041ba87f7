/-
  Cgi/FirstBoot.lean --- common.sh: `firstboot`, the wizard that leads through the first setup of
  a box, a page after the other.

  /tmp/firstboot names the step.  Pages call `firstboot` when they print their header, and the
  scripts that forms are sent to when they go on to another page; a script that complains does
  not get that far.
-/
import AltF.Foundation.Checklist
import AltF.Foundation.Runs
import AltF.SysFiles.Text

set_option autoImplicit false

namespace AltF.Cgi.FirstBoot

open AltF.Foundation AltF.SysFiles

/-! ## The wizard -/

/-- What /tmp/firstboot can name. -/
inductive Step where
  | host | time_1 | time_2 | diskwiz | newuser_1 | newuser_2 | smb | packages_ipkg | settings
  | status
  deriving DecidableEq, Repr

namespace Step

/-- `${currst%_?}` -/
def page : Step → Text
  | host => "host".toList
  | time_1 | time_2 => "time".toList
  | diskwiz => "diskwiz".toList
  | newuser_1 | newuser_2 => "newuser".toList
  | smb => "smb".toList
  | packages_ipkg => "packages_ipkg".toList
  | settings => "settings".toList
  | status => "status".toList

/-- `next`; a DNS-323 has no room for packages. -/
def next (dns323 : Bool) : Step → Option Step
  | host => some time_1
  | time_1 => some time_2
  | time_2 => some diskwiz
  | diskwiz => some newuser_1
  | newuser_1 => some newuser_2
  | newuser_2 => some smb
  | smb => if dns323 then some settings else some packages_ipkg
  | packages_ipkg => some settings
  | settings => some status
  | status => none

/-- `msg_$currst` -/
def message : Step → Text
  | host => "You should now fill-in all the host details and Submit them.".toList
  | time_1 =>
      "You should now specify the Continent/City where you live and Submit it.<br>".toList
  | time_2 =>
      "You should now adjust the current date and time, either through the internet or ".toList ++
        "manually, and Submit it.".toList
  | diskwiz => "You should now select a disk configuration.".toList
  | newuser_1 =>
      "You should now specify the filesystem where users will login and store their ".toList ++
        "personal data.".toList
  | newuser_2 => "You should now create an user account.".toList
  | smb => "You can now create new folders and define them as network shares.".toList
  | packages_ipkg =>
      "You should now specify the filesystem where Alt-F packages can be installed.".toList
  | settings =>
      "You should now save in flash memory the changes that you have just made.<br> ".toList ++
        "You should do it whenever you want your changes to survive a box reboot.".toList
  | status => []

end Step

/-- `msg1` -/
def welcome : Text :=
  "Welcome to your first login to Alt-F.<br><br> ".toList ++
    "<em>If you know what you are doing</em>, Logout to skip this wizard.<br><br>".toList

/-- `${t%suffix}` -/
def stripSuffix (suffix t : Text) : Text :=
  if suffix.isSuffixOf t then t.take (t.length - suffix.length) else t

/-- `grep -q '_proc\.cgi'` -/
def isProc (script : Text) : Bool := script.tails.any ("_proc.cgi".toList.isPrefixOf ·)

/-- `ppg` -/
def procPage (script : Text) : Text :=
  if isProc script then stripSuffix "_proc.cgi".toList script else []

/-- What becomes of the page. -/
inductive Answer where
  /-- the page, with `firstmsg` -/
  | shown (firstmsg : Text)
  /-- `gotopage`, and the end -/
  | gotopage (url : Text)
  deriving DecidableEq, Repr

/-- `firstboot`, of a script: /tmp/firstboot afterwards, and the answer -/
def firstboot (dns323 : Bool) (st : Option Step) (script : Text) : Option Step × Answer :=
  match st with
  | none => (none, .shown [])
  | some currst =>
      if stripSuffix ".cgi".toList script = "login".toList then (some currst, .shown [])
      else if procPage script = [] ∧ stripSuffix ".cgi".toList script ≠ currst.page then
        (some currst, .gotopage ("/cgi-bin/".toList ++ currst.page ++ ".cgi".toList))
      else
        match currst.next dns323 with
        | none => (none, .shown [])
        | some next =>
            (if procPage script = currst.page then some next else some currst,
              .shown ("<h4 class=\"warn\">".toList ++ welcome ++ ' ' :: currst.message ++
                "</h4>".toList))

def step (dns323 : Bool) (st : Option Step) (script : Text) : Option Step :=
  (firstboot dns323 st script).1

/-! ## What is left of it -/

/-- The pages that are still to be submitted, from a step on. -/
def pagesFrom (dns323 : Bool) (st : Step) : List Text :=
  let settings := ["settings".toList]
  let packages := "packages_ipkg".toList :: settings
  let smb := "smb".toList :: if dns323 then settings else packages
  let newuser := "newuser".toList :: smb
  let diskwiz := "diskwiz".toList :: "newuser".toList :: newuser
  let time := "time".toList :: diskwiz
  match st with
  | .host => "host".toList :: "time".toList :: time
  | .time_1 => "time".toList :: time
  | .time_2 => time
  | .diskwiz => diskwiz
  | .newuser_1 => "newuser".toList :: newuser
  | .newuser_2 => newuser
  | .smb => smb
  | .packages_ipkg => packages
  | .settings => settings
  | .status => []

def pagesLeft (dns323 : Bool) (st : Option Step) : List Text := st.elim [] (pagesFrom dns323)

/-- The pages that are submitted by these scripts. -/
def submitted (scripts : List Text) : List Text :=
  (scripts.map procPage).filter (· ≠ [])

/-- A script that ends the wizard after its last step. -/
def isLast (script : Text) : Bool :=
  procPage script ≠ [] || stripSuffix ".cgi".toList script = "status".toList

theorem pagesFrom_next (dns323 : Bool) (st : Step) :
    pagesFrom dns323 st =
      (st.next dns323).elim [] fun next => st.page :: pagesFrom dns323 next := by
  cases st <;> cases dns323 <;> rfl

theorem page_ne_nil (st : Step) : st.page ≠ [] := by
  cases st <;> decide

theorem procPage_of_login {script : Text}
    (h : stripSuffix ".cgi".toList script = "login".toList) : procPage script = [] := by
  have hscript : script = "login".toList ∨ script = "login.cgi".toList := by
    unfold stripSuffix at h
    split at h
    · rename_i hsuffix
      obtain ⟨t, rfl⟩ := List.isSuffixOf_iff_suffix.mp hsuffix
      rw [List.length_append, Nat.add_sub_cancel, List.take_left] at h
      rw [h]
      exact .inr rfl
    · exact .inl h
  rcases hscript with rfl | rfl <;> decide

section Calls

variable {dns323 : Bool}

theorem step_some (currst : Step) (script : Text) :
    step dns323 (some currst) script =
      if stripSuffix ".cgi".toList script = "login".toList then some currst
      else if procPage script = [] ∧ stripSuffix ".cgi".toList script ≠ currst.page then some currst
      else (currst.next dns323).elim none fun next =>
        if procPage script = currst.page then some next else some currst := by
  unfold step firstboot
  dsimp only
  split
  · rfl
  · split
    · rfl
    · cases currst.next dns323 <;> rfl

/-- A call works the pages off, or ends the wizard behind them. -/
theorem pagesLeft_step (st : Option Step) (script : Text) :
    pagesLeft dns323 (step dns323 st script) =
      if procPage script = [] then pagesLeft dns323 st
      else advance (pagesLeft dns323 st) (procPage script) := by
  cases st with
  | none => simp [step, firstboot, pagesLeft, advance]
  | some currst =>
      have hnext := pagesFrom_next dns323 currst
      rw [step_some]
      split
      · rename_i hlogin
        rw [if_pos (procPage_of_login hlogin)]
      · split
        · rename_i hother
          rw [if_pos hother.1]
        · cases hcase : currst.next dns323 with
          | none =>
              rw [hcase, Option.elim_none] at hnext
              simp only [pagesLeft, Option.elim_none, Option.elim_some, hnext, advance, ite_self]
          | some next =>
              rw [hcase, Option.elim_some] at hnext
              simp only [pagesLeft, Option.elim_some, hnext, advance]
              by_cases hpage : procPage script = currst.page
              · rw [if_pos hpage, if_pos hpage, hpage, if_neg (page_ne_nil currst)]
                rfl
              · rw [if_neg hpage, if_neg hpage, Option.elim_some, hnext, ite_self]

theorem pagesLeft_run (st : Option Step) (scripts : List Text) :
    pagesLeft dns323 (run (step dns323) st scripts) =
      (submitted scripts).foldl advance (pagesLeft dns323 st) := by
  induction scripts generalizing st with
  | nil => rfl
  | cons script scripts ih =>
      rw [run_cons, ih, pagesLeft_step]
      unfold submitted
      rw [List.map_cons]
      split
      · rename_i hnone
        rw [List.filter_cons_of_neg (by simp [hnone])]
      · rename_i hsome
        rw [List.filter_cons_of_pos (by simp [hsome]), List.foldl_cons]

theorem next_eq_none_iff (currst : Step) : currst.next dns323 = none ↔ currst = .status := by
  cases currst <;> cases dns323 <;> decide

theorem pagesLeft_eq_nil_iff (currst : Step) :
    pagesLeft dns323 (some currst) = [] ↔ currst = .status := by
  cases currst <;> cases dns323 <;> decide

theorem isLast_iff (script : Text) :
    isLast script = true ↔
      procPage script ≠ [] ∨ stripSuffix ".cgi".toList script = Step.status.page := by
  unfold isLast
  rw [Bool.or_eq_true, decide_eq_true_iff, decide_eq_true_iff]
  exact Iff.rfl

theorem not_isLast_of_login {script : Text}
    (h : stripSuffix ".cgi".toList script = "login".toList) : ¬ isLast script = true := by
  rw [isLast_iff, procPage_of_login h, h]
  decide

/-- The wizard ends at its last step. -/
theorem step_eq_none_iff (st : Option Step) (script : Text) :
    step dns323 st script = none ↔
      st = none ∨ pagesLeft dns323 st = [] ∧ isLast script = true := by
  cases st with
  | none => exact iff_of_true rfl (.inl rfl)
  | some currst =>
      rw [pagesLeft_eq_nil_iff, step_some]
      have hsome : ¬ some currst = none := Option.some_ne_none currst
      split
      · rename_i hlogin
        exact iff_of_false hsome fun h => h.elim hsome fun h => not_isLast_of_login hlogin h.2
      · split
        · rename_i hother
          refine iff_of_false hsome fun h => h.elim hsome ?_
          rintro ⟨rfl, hlast⟩
          exact ((isLast_iff script).mp hlast).elim (absurd hother.1) hother.2
        · rename_i hthis
          rw [not_and_or, not_ne_iff] at hthis
          cases hnext : currst.next dns323 with
          | none =>
              obtain rfl := next_eq_none_iff currst |>.mp hnext
              exact iff_of_true rfl (.inr ⟨rfl, (isLast_iff script).mpr hthis⟩)
          | some next =>
              have hstatus : currst ≠ .status := fun h => by
                rw [(next_eq_none_iff currst).mpr h] at hnext
                exact nomatch hnext
              refine iff_of_false ?_ fun h => h.elim hsome fun h => hstatus h.1
              rw [Option.elim_some]
              split <;> exact Option.some_ne_none _

theorem run_eq_none_iff (st : Step) (scripts : List Text) :
    run (step dns323) (some st) scripts = none ↔
      ∃ before script after, scripts = before ++ script :: after ∧
        pagesLeft dns323 (run (step dns323) (some st) before) = [] ∧ isLast script = true := by
  induction scripts using List.reverseRecOn with
  | nil => simp
  | append_singleton scripts script ih =>
      rw [run_append, run_cons, run_nil, step_eq_none_iff, ih]
      constructor
      · rintro (⟨before, s, after, rfl, hleft, hlast⟩ | ⟨hleft, hlast⟩)
        · exact ⟨before, s, after ++ [script], by simp, hleft, hlast⟩
        · exact ⟨scripts, script, [], rfl, hleft, hlast⟩
      · rintro ⟨before, s, after, heq, hleft, hlast⟩
        rcases List.eq_nil_or_concat after with rfl | ⟨after, s', rfl⟩
        · obtain ⟨rfl, hs⟩ := List.append_inj' heq rfl
          rw [List.cons.inj hs |>.1]
          exact .inr ⟨hleft, hlast⟩
        · have hsplit : scripts ++ [script] = (before ++ s :: after) ++ [s'] := by
            rw [heq]
            simp
          exact .inl ⟨before, s, after, (List.append_inj' hsplit rfl).1, hleft, hlast⟩

end Calls

end AltF.Cgi.FirstBoot
