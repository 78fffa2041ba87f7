/-
  Packages/Orphans.lean --- packages_ipkg_proc.cgi: `depended`, the packages that are removed with
  one, because nothing else depends on them.

  What a package depends on is read from its stanza to the next Depends line, which may be that of
  another package; and a line with one name only is not printed.
-/
import AltF.Foundation.Traversal
import AltF.Packages.Status
import AltF.Shell.Words

set_option autoImplicit false

namespace AltF.Packages

open AltF.Foundation AltF.Shell AltF.SysFiles

/-! ## The script -/

def dependsTag : Text := "Depends:".toList

/-- `grep -E "Depends:.*$p([^-]|$)"`, on a line. -/
structure Egrep where
  finds : Text → Text → Bool
  only : ∀ {p l : Text}, finds p l = true → dependsTag <:+: l
  /-- a `+` repeats what is in front of it -/
  found : ∀ {p : Text}, p.all isPackageChar = true → '+' ∉ p → ∀ a b {c : Text},
    c.head? ≠ some '-' → finds p (a ++ dependsTag ++ b ++ p ++ c) = true

/-- `/Depends:/s/,//gp`: the line is printed. -/
def isPrinted (l : Text) : Bool := decide (dependsTag <:+: l) && l.contains ','

/-- The lines of the range that are printed. -/
def rangeLines (p : Text) (inside : Bool) (status : List Text) : List Text :=
  (sedPrint (dotMatch (packageTag ++ p)) dependsTag.isPrefixOf inside status).filter isPrinted

section Script

variable (g : Egrep) (status : List Text)

/-- `$cnt` -/
def count (p : Text) : Nat := (status.filter (g.finds p)).length

/-- The loop goes on with the next name where this is not so. -/
def followed (p : Text) : Bool :=
  !(p == dependsTag || p == "ipkg".toList) && decide (count g status p ≤ 1)

/-- `sed -n '/^Package: '$p'$/,/^Depends:/{/Depends:/s/,//gp}'` -/
def sedDepends (p : Text) : List Text := (rangeLines p false status).map (·.filter (· ≠ ','))

/-- `depended $(sed ...)` -/
def dependedArgs (p : Text) : List Text := words ((sedDepends status p).flatMap (· ++ ['\n']))

/-- `depended`, down to a depth. -/
def depended : Nat → List Text → Option (List Text) :=
  visit (followed g status) (dependedArgs status)

end Script

/-! ## Files with dependencies -/

/-- What is installed of a package: its name, and what it depends on, if there is a line for it. -/
structure Package where
  name : Text
  front : List Text
  depends : Option (List Text)
  back : List Text
  deriving DecidableEq

/-- `Depends: a, b, c` -/
def dependsLine (names : List Text) : Text :=
  dependsTag ++ ' ' :: [',', ' '].intercalate names

namespace Package

variable (e : Package)

/-- The Depends line, or none. -/
def dependsLines : List Text := (e.depends.map dependsLine).toList

def stanza : Stanza := ⟨e.name, e.front ++ (e.dependsLines ++ e.back)⟩

def dependencies : List Text := e.depends.getD []

/-- What is printed of the line: it has a comma. -/
def printed : List Text := if 2 ≤ e.dependencies.length then e.dependencies else []

/-- A line that is neither the beginning of a stanza nor a Depends line. -/
structure Other (l : Text) : Prop where
  nonempty : l ≠ []
  package : packageTag.isPrefixOf l = false
  depends : ¬ dependsTag <:+: l

theorem mem_dependsLines {l : Text} :
    l ∈ e.dependsLines ↔ ∃ names, e.depends = some names ∧ dependsLine names = l := by
  rw [dependsLines, Option.mem_toList, Option.map_eq_some_iff]

structure Valid : Prop where
  name : e.name ≠ [] ∧ e.name.all isPackageChar = true
  front : ∀ l ∈ e.front, Other l
  back : ∀ l ∈ e.back, Other l
  names : ∀ n ∈ e.dependencies, n ≠ [] ∧ n.all isPackageChar = true
  some : e.depends ≠ some []

end Package

/-- A status file, with a blank line behind its last stanza or not. -/
structure Installed where
  packages : List Package
  ended : Bool
  valid : ∀ e ∈ packages, e.Valid

namespace Installed

variable (f : Installed)

theorem valid_stanza {e : Package} (he : e.Valid) : e.stanza.Valid where
  name := he.name
  fields := by
    intro l hl
    rcases List.mem_append.mp hl with hl | hl
    · exact (he.front l hl).nonempty
    · rcases List.mem_append.mp hl with hl | hl
      · obtain ⟨names, -, rfl⟩ := e.mem_dependsLines.mp hl
        exact List.append_ne_nil_of_left_ne_nil (List.cons_ne_nil _ _) _
      · exact (he.back l hl).nonempty

def statusFile : StatusFile where
  stanzas := f.packages.map Package.stanza
  ended := f.ended
  valid := by
    intro s hs
    obtain ⟨e, he, rfl⟩ := List.mem_map.mp hs
    exact valid_stanza (f.valid e he)

def lines : List Text := f.statusFile.lines

end Installed

/-- The packages whose Depends line is in a range. -/
def packagesRead (p : Text) : Bool → List Package → List Package
  | _, [] => []
  | inside, e :: es =>
      if inside || dotMatch p e.name then
        if e.depends.isSome then e :: packagesRead p false es else packagesRead p true es
      else packagesRead p false es

/-! ## What is listed, and what should be -/

namespace Installed

variable (f : Installed) (g : Egrep) (p : Text)

/-- The script goes on with the package. -/
def Follows (w : Text) : Prop := followed g f.lines w = true

/-- The script goes from one package to the other. -/
def Reads : Text → Text → Prop := Step (followed g f.lines) (dependedArgs f.lines)

/-- The second is followed, and printed of the own line of the first. -/
def Owns (q w : Text) : Prop := ∃ e ∈ f.packages, e.name = q ∧ w ∈ e.printed ∧ f.Follows g w

/-- The package, and what is followed of it by the own lines. -/
def Tree (w : Text) : Prop := Relation.ReflTransGen (f.Owns g) p w

/-- `depended` ends, and lists besides the package installed ones of which all installed dependants
are listed. -/
def Safe : Prop :=
  ∃ n out, depended g f.lines n [p] = some out ∧ ∀ w ∈ out, w = p ∨
    ((∃ e ∈ f.packages, e.name = w) ∧ ∀ e ∈ f.packages, w ∈ e.dependencies → e.name ∈ out)

/-- **The condition**: in the tree of the package, what is read leads nowhere back, and is followed
only where it is of a package of the tree; what is followed is installed. -/
structure Orderly : Prop where
  acyclic : ∀ q, f.Tree g p q → ¬ Relation.TransGen (f.Reads g) q q
  owned : ∀ q, f.Tree g p q → ∀ e ∈ packagesRead q false f.packages,
    (∃ w ∈ e.printed, f.Follows g w) → f.Tree g p e.name
  installed : ∀ q, f.Tree g p q → ∀ w, f.Owns g q w → ∃ e ∈ f.packages, e.name = w
  /-- in the pattern a `+` does not stand for itself -/
  plus : ∀ q, f.Tree g p q → ∀ w, f.Owns g q w → '+' ∈ w →
    ∀ e ∈ f.packages, w ∈ e.dependencies → f.Tree g p e.name

end Installed

/-! ## Lines -/

theorem colon_notMem {n : Text} (hn : n.all isPackageChar = true) : ':' ∉ n := fun h =>
  absurd (List.all_eq_true.mp hn _ h) (by decide)

theorem tags_colon : dependsTag = "Depends".toList ++ [':'] ∧
    packageTag = "Package".toList ++ [':', ' '] ∧ ':' ∉ "Package".toList ∧
    ¬ "Depends".toList <:+ "Package".toList := by
  decide +kernel

/-- The first line of a stanza is no Depends line. -/
theorem not_depends_name {n : Text} (hn : n.all isPackageChar = true) :
    ¬ dependsTag <:+: packageTag ++ n := by
  obtain ⟨hdepends, hpackage, hcolon, hsuffix⟩ := tags_colon
  rintro ⟨a, b, hab⟩
  have hcut : (a ++ "Depends".toList) ++ ':' :: b = "Package".toList ++ ':' :: (' ' :: n) := by
    rw [hdepends, hpackage] at hab
    simpa using hab
  have hname : ':' ∉ ' ' :: n := by
    rw [List.mem_cons, not_or]
    exact ⟨by decide, colon_notMem hn⟩
  exact hsuffix ⟨a, eq_of_append_cons hcolon (Or.inr hname) hcut⟩

theorem prefix_dependsLine (names : List Text) :
    dependsTag.isPrefixOf (dependsLine names) = true :=
  List.isPrefixOf_iff_prefix.mpr (List.prefix_append _ _)

/-- A line that begins a stanza is no Depends line, whatever the name is. -/
theorem dotMatch_dependsLine (p : Text) (names : List Text) :
    dotMatch (packageTag ++ p) (dependsLine names) = false := by
  have hfirst : dotPrefix (packageTag ++ p) (dependsLine names) = false := rfl
  rw [dotMatch, hfirst, Bool.false_and]

theorem dotMatch_name (p n : Text) :
    dotMatch (packageTag ++ p) (packageTag ++ n) = dotMatch p n := by
  rw [dotMatch, dotMatch, dotPrefix_append_left, List.length_append, List.length_append,
    Bool.eq_iff_iff, Bool.and_eq_true, Bool.and_eq_true, beq_iff_eq, beq_iff_eq,
    Nat.add_left_cancel_iff]

/-- Only lines with the tag begin a stanza. -/
theorem dotMatch_other {p l : Text} (hl : packageTag.isPrefixOf l = false) :
    dotMatch (packageTag ++ p) l = false := by
  rw [← Bool.not_eq_true, dotMatch, Bool.and_eq_true]
  rintro ⟨hfront, -⟩
  have htag := prefix_of_dotPrefix (by decide) hfront
  rw [List.isPrefixOf_iff_prefix.mpr htag] at hl
  cases hl

theorem comma_notMem {n : Text} (hn : n.all isPackageChar = true) : ',' ∉ n := fun h =>
  absurd (List.all_eq_true.mp hn _ h) (by decide)

theorem not_blank_of_package {n : Text} (hn : n.all isPackageChar = true) :
    ∀ c ∈ n, isBlank c = false := by
  intro c hc
  have hchar := List.all_eq_true.mp hn c hc
  rw [← Bool.not_eq_true]
  intro hblank
  rw [isBlank, Bool.or_eq_true, Bool.or_eq_true, beq_iff_eq, beq_iff_eq, beq_iff_eq] at hblank
  rcases hblank with (rfl | rfl) | rfl
  · cases hchar
  · cases hchar
  · cases hchar

/-- Names are separated by commas. -/
theorem comma_dependsLine {names : List Text} (hnames : ∀ n ∈ names, n.all isPackageChar = true) :
    (dependsLine names).contains ',' = decide (2 ≤ names.length) := by
  have htag : ',' ∉ dependsTag := by decide
  cases names with
  | nil => rfl
  | cons n names =>
      have hn := comma_notMem (hnames n List.mem_cons_self)
      cases names with
      | nil =>
          have hone : dependsLine [n] = dependsTag ++ ' ' :: n := by simp [dependsLine]
          rw [hone]
          simpa using ⟨htag, hn⟩
      | cons n' names => simp [dependsLine]

/-- Without the commas there are spaces between the names. -/
theorem filter_names {names : List Text} (hnames : ∀ n ∈ names, n.all isPackageChar = true) :
    ([',', ' '].intercalate names).filter (· ≠ ',') = join names := by
  induction names with
  | nil => rfl
  | cons n names ih =>
      have hself : n.filter (· ≠ ',') = n := List.filter_eq_self.mpr fun c hc =>
        decide_eq_true fun (heq : c = ',') => comma_notMem (hnames n List.mem_cons_self) (heq ▸ hc)
      cases names with
      | nil =>
          rw [join_singleton, List.intercalate_singleton, hself]
      | cons n' names =>
          rw [join_cons n (List.cons_ne_nil _ _), ← ih fun m hm =>
            hnames m (List.mem_cons_of_mem n hm), List.intercalate_cons_cons, List.filter_append,
            List.filter_append, hself, List.append_assoc]
          rfl

theorem filter_dependsLine {names : List Text} (hnames : ∀ n ∈ names, n.all isPackageChar = true) :
    (dependsLine names).filter (· ≠ ',') = dependsTag ++ ' ' :: join names := by
  have htag : dependsTag.filter (· ≠ ',') = dependsTag := rfl
  rw [dependsLine, List.filter_append, htag, List.filter_cons_of_pos rfl, filter_names hnames]

/-- **The words** of a line without its commas. -/
theorem words_dependsLine {names : List Text}
    (hnames : ∀ n ∈ names, n ≠ [] ∧ n.all isPackageChar = true) :
    words ((dependsLine names).filter (· ≠ ',')) = dependsTag :: names := by
  have htag : words dependsTag = [dependsTag] :=
    words_eq_singleton (by decide) (forall_of_all (by decide))
  rw [filter_dependsLine fun n hn => (hnames n hn).2, words_append_cons _ _ rfl, htag,
    words_join fun n hn => ⟨(hnames n hn).1, not_blank_of_package (hnames n hn).2⟩,
    List.singleton_append]

/-! ## Ranges -/

section Ranges

variable (p : Text) (inside : Bool) (ls : List Text)

/-- A line that says nothing here. -/
structure Silent (l : Text) : Prop where
  start : dotMatch (packageTag ++ p) l = false
  stop : dependsTag.isPrefixOf l = false
  printed : isPrinted l = false

variable {p}

theorem silent_of_other {l : Text} (hl : Package.Other l) : Silent p l where
  start := dotMatch_other hl.package
  stop := by
    rw [← Bool.not_eq_true, List.isPrefixOf_iff_prefix]
    exact fun h => hl.depends h.isInfix
  printed := by rw [isPrinted, decide_eq_false hl.depends, Bool.false_and]

theorem silent_nil : Silent p [] := ⟨rfl, rfl, rfl⟩

theorem rangeLines_silent {xs : List Text} (hxs : ∀ l ∈ xs, Silent p l) :
    rangeLines p inside (xs ++ ls) = rangeLines p inside ls := by
  induction xs with
  | nil => rfl
  | cons l xs ih =>
      obtain ⟨hstart, hstop, hprinted⟩ := hxs l List.mem_cons_self
      have hrest := ih fun l' hl' => hxs l' (List.mem_cons_of_mem l hl')
      rw [← hrest, List.cons_append]
      cases inside with
      | true =>
          rw [rangeLines, sedPrint, hstop,
            List.filter_cons_of_neg (hprinted ▸ Bool.false_ne_true), rangeLines, Bool.not_false]
      | false =>
          rw [rangeLines, sedPrint, hstart, if_neg Bool.false_ne_true, rangeLines]

theorem rangeLines_name {n : Text} (hn : n.all isPackageChar = true) :
    rangeLines p inside ((packageTag ++ n) :: ls) = rangeLines p (inside || dotMatch p n) ls := by
  have hnot := not_depends_name hn
  have hstop : dependsTag.isPrefixOf (packageTag ++ n) = false := by
    rw [← Bool.not_eq_true, List.isPrefixOf_iff_prefix]
    exact fun h => hnot h.isInfix
  have hprinted : ¬ isPrinted (packageTag ++ n) = true := by
    rw [isPrinted, decide_eq_false hnot, Bool.false_and]
    exact Bool.false_ne_true
  cases inside with
  | true =>
      rw [rangeLines, sedPrint, hstop, List.filter_cons_of_neg hprinted, Bool.true_or, rangeLines,
        Bool.not_false]
  | false =>
      rw [rangeLines, sedPrint, dotMatch_name, Bool.false_or]
      cases dotMatch p n with
      | true => rw [if_pos rfl, List.filter_cons_of_neg hprinted, rangeLines]
      | false => rw [if_neg Bool.false_ne_true, rangeLines]

theorem rangeLines_depends {names : List Text} (hnames : ∀ n ∈ names, n.all isPackageChar = true) :
    rangeLines p inside (dependsLine names :: ls) =
      (if inside then if 2 ≤ names.length then [dependsLine names] else [] else []) ++
        rangeLines p false ls := by
  have hprinted : isPrinted (dependsLine names) = decide (2 ≤ names.length) := by
    have hinfix : dependsTag <:+: dependsLine names := (List.prefix_append _ _).isInfix
    rw [isPrinted, decide_eq_true hinfix, Bool.true_and, comma_dependsLine hnames]
  cases inside with
  | true =>
      rw [rangeLines, sedPrint, prefix_dependsLine, List.filter_cons, hprinted, Bool.not_true,
        rangeLines, if_pos rfl]
      by_cases htwo : 2 ≤ names.length
      · rw [if_pos (decide_eq_true htwo), if_pos htwo, List.singleton_append]
      · rw [if_neg (by simpa using htwo), if_neg htwo, List.nil_append]
  | false =>
      rw [rangeLines, sedPrint, dotMatch_dependsLine, if_neg Bool.false_ne_true,
        if_neg Bool.false_ne_true, List.nil_append, rangeLines]

end Ranges

/-- The line of a package, if it is printed. -/
def Package.printedLines (e : Package) : List Text :=
  if 2 ≤ e.dependencies.length then [dependsLine e.dependencies] else []

/-- The lines of a package and those behind it. -/
theorem linesOf_cons (f : StatusFile) (e : Package) (ss : List Stanza) :
    ∃ blanks, (∀ l ∈ blanks, l = ([] : Text)) ∧ f.linesOf (e.stanza :: ss) =
      (packageTag ++ e.name) :: (e.front ++ (e.dependsLines ++ (e.back ++ (blanks ++
        f.linesOf ss)))) := by
  have hblock : ∃ blanks, (∀ l ∈ blanks, l = ([] : Text)) ∧
      f.block e.stanza ss.isEmpty = e.stanza.lines ++ blanks := by
    rw [StatusFile.block]
    split
    · exact ⟨[], fun _ hl => absurd hl List.not_mem_nil, (List.append_nil _).symm⟩
    · exact ⟨[[]], fun l hl => List.mem_singleton.mp hl, rfl⟩
  obtain ⟨blanks, hblanks, hlines⟩ := hblock
  refine ⟨blanks, hblanks, ?_⟩
  rw [StatusFile.linesOf, hlines, Stanza.lines, Package.stanza]
  simp only [List.cons_append, List.append_assoc]

theorem rangeLines_package {p : Text} (inside : Bool) {e : Package} (he : e.Valid)
    (ls : List Text) :
    rangeLines p inside (e.dependsLines ++ ls) =
      if e.depends.isSome then
        (if inside then e.printedLines else []) ++ rangeLines p false ls
      else rangeLines p inside ls := by
  unfold Package.dependsLines Package.printedLines Package.dependencies
  have hnames := fun n hn => (he.names n hn).2
  unfold Package.dependencies at hnames
  cases hdepends : e.depends with
  | none => rfl
  | some names =>
      rw [hdepends] at hnames
      have hline := rangeLines_depends (p := p) inside ls hnames
      cases inside with
      | true => exact hline
      | false => exact hline

/-- **What is printed**: the lines of the packages that are read. -/
theorem rangeLines_linesOf (f : StatusFile) (p : Text) (inside : Bool) {es : List Package}
    (hes : ∀ e ∈ es, e.Valid) :
    rangeLines p inside (f.linesOf (es.map Package.stanza)) =
      (packagesRead p inside es).flatMap Package.printedLines := by
  induction es generalizing inside with
  | nil => rfl
  | cons e es ih =>
      have he := hes e List.mem_cons_self
      have hrest := fun inside => ih inside fun e' he' => hes e' (List.mem_cons_of_mem e he')
      obtain ⟨blanks, hblanks, hlines⟩ := linesOf_cons f e (es.map Package.stanza)
      have hbehind : ∀ inside, rangeLines p inside (e.back ++ (blanks ++
          f.linesOf (es.map Package.stanza))) = (packagesRead p inside es).flatMap
            Package.printedLines := by
        intro inside
        rw [rangeLines_silent inside _ fun l hl => silent_of_other (he.back l hl),
          rangeLines_silent inside _ fun l hl => by rw [hblanks l hl]; exact silent_nil, hrest]
      rw [List.map_cons, hlines, rangeLines_name _ _ he.name.2,
        rangeLines_silent _ _ fun l hl => silent_of_other (he.front l hl),
        rangeLines_package _ he, hbehind, hbehind, packagesRead]
      cases inside || dotMatch p e.name with
      | true =>
          rw [if_pos rfl, if_pos rfl]
          split
          · rw [List.flatMap_cons]
          · rfl
      | false =>
          rw [if_neg Bool.false_ne_true, if_neg Bool.false_ne_true, List.nil_append]
          split
          · rfl
          · rfl

theorem words_lines (ls : List Text) :
    Shell.words (ls.flatMap (· ++ ['\n'])) = ls.flatMap Shell.words := by
  induction ls with
  | nil => rfl
  | cons l ls ih =>
      rw [List.flatMap_cons, List.append_assoc, List.singleton_append, words_append_cons _ _ rfl,
        ih, List.flatMap_cons]

theorem mem_of_mem_packagesRead {p : Text} {inside : Bool} {es : List Package} {e : Package}
    (he : e ∈ packagesRead p inside es) : e ∈ es := by
  induction es generalizing inside with
  | nil => cases he
  | cons e' es ih =>
      rw [packagesRead] at he
      split at he
      · split at he
        · exact (List.mem_cons.mp he).elim (fun h => h ▸ List.mem_cons_self) fun h =>
            List.mem_cons_of_mem e' (ih h)
        · exact List.mem_cons_of_mem e' (ih he)
      · exact List.mem_cons_of_mem e' (ih he)

/-- The own line of a package is read. -/
theorem mem_packagesRead_self {es : List Package} {e : Package} (he : e ∈ es)
    (hdepends : e.depends.isSome = true) (inside : Bool) :
    e ∈ packagesRead e.name inside es := by
  induction es generalizing inside with
  | nil => cases he
  | cons e' es ih =>
      rw [packagesRead]
      rcases List.mem_cons.mp he with rfl | he
      · rw [dotMatch_self, Bool.or_true, if_pos rfl, if_pos hdepends]
        exact List.mem_cons_self
      · split
        · split
          · exact List.mem_cons_of_mem e' (ih he false)
          · exact ih he true
        · exact ih he false

namespace Installed

variable (f : Installed)

theorem dependedArgs_lines (p : Text) : dependedArgs f.lines p =
    (packagesRead p false f.packages).flatMap fun e =>
      if 2 ≤ e.dependencies.length then dependsTag :: e.dependencies else [] := by
  rw [dependedArgs, words_lines, sedDepends, lines, StatusFile.lines]
  change ((rangeLines p false (f.statusFile.linesOf (f.packages.map Package.stanza))).map
    (·.filter (· ≠ ','))).flatMap Shell.words = _
  rw [rangeLines_linesOf f.statusFile p false f.valid, List.flatMap_map, List.flatMap_assoc]
  refine List.flatMap_congr fun e he => ?_
  have hnames := (f.valid e (mem_of_mem_packagesRead he)).names
  unfold Package.printedLines
  split
  · rw [List.flatMap_singleton, words_dependsLine hnames]
  · rfl

/-! ## Dependants -/

variable {f} {g : Egrep}

theorem printed_subset {e : Package} {w : Text} (hw : w ∈ e.printed) : w ∈ e.dependencies := by
  unfold Package.printed at hw
  split at hw
  · exact hw
  · cases hw

theorem reads_iff {q w : Text} : f.Reads g q w ↔
    (∃ e ∈ packagesRead q false f.packages, w ∈ e.printed) ∧ f.Follows g w := by
  have htag : followed g f.lines dependsTag = false := by
    rw [followed, beq_self_eq_true, Bool.true_or, Bool.not_true, Bool.false_and]
  unfold Reads Step Follows
  refine and_congr_left fun hfollows => ?_
  rw [f.dependedArgs_lines, List.mem_flatMap]
  refine exists_congr fun e => and_congr_right fun _ => ?_
  unfold Package.printed
  split
  · rw [List.mem_cons, or_iff_right]
    rintro rfl
    exact absurd (htag.symm.trans hfollows) Bool.false_ne_true
  · exact Iff.rfl

theorem reads_of_owns {q w : Text} (h : f.Owns g q w) : f.Reads g q w := by
  obtain ⟨e, he, rfl, hw, hfollows⟩ := h
  have hdepends : e.depends.isSome = true := by
    have hmem := printed_subset hw
    unfold Package.dependencies at hmem
    cases hnone : e.depends with
    | none =>
        rw [hnone] at hmem
        cases hmem
    | some names => rfl
  exact reads_iff.mpr ⟨⟨e, mem_packagesRead_self he hdepends false, hw⟩, hfollows⟩

/-- Only Depends lines are counted. -/
theorem filter_linesOf (F : StatusFile) {k : Text → Bool}
    (hk : ∀ l, k l = true → dependsTag <:+: l) {es : List Package} (hes : ∀ e ∈ es, e.Valid) :
    (F.linesOf (es.map Package.stanza)).filter k = es.flatMap fun e => e.dependsLines.filter k := by
  induction es with
  | nil => rfl
  | cons e es ih =>
      have he := hes e List.mem_cons_self
      obtain ⟨blanks, hblanks, hlines⟩ := linesOf_cons F e (es.map Package.stanza)
      have hnone : ∀ ls : List Text, (∀ l ∈ ls, ¬ dependsTag <:+: l) → ls.filter k = [] :=
        fun ls hls => List.filter_eq_nil_iff.mpr fun l hl h => hls l hl (hk l h)
      have hempty : ¬ dependsTag <:+: ([] : Text) := fun h =>
        List.cons_ne_nil _ _ (List.infix_nil.mp h)
      rw [List.map_cons, hlines,
        List.filter_cons_of_neg fun h => not_depends_name he.name.2 (hk _ h), List.filter_append,
        List.filter_append, List.filter_append, List.filter_append,
        hnone e.front fun l hl => (he.front l hl).depends,
        hnone e.back fun l hl => (he.back l hl).depends,
        hnone blanks fun l hl => hblanks l hl ▸ hempty,
        ih fun e' he' => hes e' (List.mem_cons_of_mem e he'), List.nil_append, List.nil_append,
        List.nil_append, List.flatMap_cons]

/-- Two elements with something each are the same where there is one thing at most. -/
theorem eq_of_length_flatMap_le_one {α β : Type} {h : α → List β} {l : List α}
    (hl : (l.flatMap h).length ≤ 1) {a b : α} (ha : a ∈ l) (hb : b ∈ l) (hha : h a ≠ [])
    (hhb : h b ≠ []) : a = b := by
  have hpos : ∀ {c : α} {l : List α}, c ∈ l → h c ≠ [] → 1 ≤ (l.flatMap h).length := by
    intro c l hc hhc
    obtain ⟨x, hx⟩ := List.exists_mem_of_ne_nil _ hhc
    exact List.length_pos_of_mem (List.mem_flatMap.mpr ⟨c, hc, hx⟩)
  induction l with
  | nil => cases ha
  | cons c l ih =>
      rw [List.flatMap_cons, List.length_append] at hl
      have hnonempty : ∀ {c : α}, h c ≠ [] → 1 ≤ (h c).length := fun hne =>
        List.length_pos_iff.mpr hne
      rcases List.mem_cons.mp ha with rfl | hal
      · rcases List.mem_cons.mp hb with rfl | hbl
        · rfl
        · have hone := hnonempty hha
          have htwo := hpos hbl hhb
          omega
      · rcases List.mem_cons.mp hb with rfl | hbl
        · have hone := hnonempty hhb
          have htwo := hpos hal hha
          omega
        · exact ih (by omega) hal hbl

/-- A name is found in each line that it is in. -/
theorem found_dependsLine {w : Text} (hw : w.all isPackageChar = true) (hplus : '+' ∉ w)
    {names : List Text} (hmem : w ∈ names) : g.finds w (dependsLine names) = true := by
  obtain ⟨front, behind, rfl⟩ := List.append_of_mem hmem
  have hcut : ∃ b c : Text, c.head? ≠ some '-' ∧
      [',', ' '].intercalate (front ++ w :: behind) = b ++ w ++ c := by
    induction front with
    | nil =>
        cases behind with
        | nil => exact ⟨[], [], nofun, by simp⟩
        | cons n behind =>
            exact ⟨[], [',', ' '] ++ [',', ' '].intercalate (n :: behind), by simp, by simp⟩
    | cons n front ih =>
        obtain ⟨b, c, hc, hline⟩ := ih (List.mem_append_right _ List.mem_cons_self)
        refine ⟨n ++ [',', ' '] ++ b, c, hc, ?_⟩
        rw [List.cons_append, List.intercalate_cons_of_ne_nil (by simp), hline]
        simp
  obtain ⟨b, c, hc, hline⟩ := hcut
  have hfound := g.found hw hplus [] (' ' :: b) hc
  rw [List.nil_append] at hfound
  rw [dependsLine, hline]
  simpa using hfound

/-- **The only dependant** of a package that is followed. -/
theorem eq_of_follows {w : Text} (hfollows : f.Follows g w) (hplus : '+' ∉ w) {e r : Package}
    (he : e ∈ f.packages) (hr : r ∈ f.packages) (hew : w ∈ e.dependencies)
    (hrw : w ∈ r.dependencies) : e = r := by
  have hw := ((f.valid e he).names w hew).2
  have hcount : count g f.lines w ≤ 1 :=
    of_decide_eq_true (Bool.and_eq_true_iff.mp hfollows).2
  have hlines : f.lines.filter (g.finds w) =
      f.packages.flatMap fun e => e.dependsLines.filter (g.finds w) :=
    filter_linesOf f.statusFile (fun _ => g.only) f.valid
  have hline : ∀ x : Package, w ∈ x.dependencies → x.dependsLines.filter (g.finds w) ≠ [] := by
    intro x hx
    unfold Package.dependencies at hx
    cases hdepends : x.depends with
    | none =>
        rw [hdepends] at hx
        cases hx
    | some names =>
        rw [hdepends] at hx
        have hfound : g.finds w (dependsLine names) = true := found_dependsLine hw hplus hx
        rw [Package.dependsLines, hdepends]
        change [dependsLine names].filter (g.finds w) ≠ []
        rw [List.filter_cons_of_pos hfound]
        exact List.cons_ne_nil _ _
  rw [count, hlines] at hcount
  exact eq_of_length_flatMap_le_one hcount he hr (hline e hew) (hline r hrw)

/-! ## What is listed -/

variable {p : Text}

theorem mem_depended {n : Nat} {out : List Text} (h : depended g f.lines n [p] = some out)
    (hfollows : f.Follows g p) (w : Text) :
    w ∈ out ↔ Relation.ReflTransGen (f.Reads g) p w := by
  rw [mem_visit h]
  constructor
  · rintro ⟨a, ha, -, haw⟩
    rw [List.mem_singleton.mp ha] at haw
    exact haw
  · exact fun hpw => ⟨p, List.mem_singleton_self p, hfollows, hpw⟩

/-- The names that can be read. -/
theorem reads_mem {q w : Text} (h : f.Reads g q w) :
    w ∈ f.packages.flatMap Package.dependencies := by
  obtain ⟨⟨e, he, hw⟩, -⟩ := reads_iff.mp h
  exact List.mem_flatMap.mpr ⟨e, mem_of_mem_packagesRead he, printed_subset hw⟩

theorem tree_subset {w : Text} (hw : f.Tree g p w) : Relation.ReflTransGen (f.Reads g) p w :=
  Relation.ReflTransGen.mono (fun _ _ => reads_of_owns) p w hw

/-- Where what is listed has its dependants listed, it is in the tree. -/
theorem tree_of_reads (hacc : Acc (flip (f.Reads g)) p)
    (hsafe : ∀ q w, Relation.ReflTransGen (f.Reads g) p q → f.Reads g q w →
      ∀ e ∈ f.packages, w ∈ e.dependencies → Relation.ReflTransGen (f.Reads g) p e.name)
    {w : Text} (hw : Relation.ReflTransGen (f.Reads g) p w) : f.Tree g p w := by
  have hacyclic : Acyclic fun a b => Relation.ReflTransGen (f.Reads g) p a ∧ f.Owns g a b := by
    intro a hcycle
    obtain ⟨b, ⟨ha, -⟩, -⟩ := Relation.TransGen.head'_iff.mp hcycle
    exact not_transGen_of_acc (acc_of_reflTransGen hacc ha)
      (Relation.TransGen.mono (fun _ _ h => reads_of_owns h.2) a a hcycle)
  obtain ⟨t, ⟨ht, htop⟩, htw⟩ := hacyclic.subset_below_tops
    (fun a b h => reads_mem (reads_of_owns h.2))
    {a | Relation.ReflTransGen (f.Reads g) p a} hw
  -- only the package itself is listed without a dependant that is listed
  obtain rfl : t = p := by
    rcases Relation.ReflTransGen.cases_tail ht with heq | ⟨q, hpq, hqt⟩
    · exact heq
    · obtain ⟨⟨e, he, hte⟩, hfollows⟩ := reads_iff.mp hqt
      have hinstalled := mem_of_mem_packagesRead he
      have hlisted := hsafe q t hpq hqt e hinstalled (printed_subset hte)
      exact absurd ⟨hlisted, e, hinstalled, rfl, hte, hfollows⟩ (htop e.name hlisted)
  exact Relation.ReflTransGen.mono (fun _ _ h => h.2) t w htw

section Unneeded

variable (hunneeded : ∀ e ∈ f.packages, p ∉ e.dependencies)

include hunneeded

theorem ne_of_reads {q w : Text} (h : f.Reads g q w) : w ≠ p := by
  rintro rfl
  obtain ⟨⟨e, he, hw⟩, -⟩ := reads_iff.mp h
  exact hunneeded e (mem_of_mem_packagesRead he) (printed_subset hw)

theorem orderly_of_safe (hfollows : f.Follows g p) (hsafe : f.Safe g p) : f.Orderly g p := by
  obtain ⟨n, out, hout, hlisted⟩ := hsafe
  have hmem := mem_depended hout hfollows
  have hacc : Acc (flip (f.Reads g)) p :=
    acc_of_visit hout (List.mem_singleton_self p) hfollows
  have hdependants : ∀ q w, Relation.ReflTransGen (f.Reads g) p q → f.Reads g q w →
      (∃ e ∈ f.packages, e.name = w) ∧
        ∀ e ∈ f.packages, w ∈ e.dependencies → Relation.ReflTransGen (f.Reads g) p e.name := by
    intro q w hpq hqw
    obtain ⟨hinstalled, hall⟩ :=
      (hlisted w ((hmem w).mpr (hpq.tail hqw))).resolve_left (ne_of_reads hunneeded hqw)
    exact ⟨hinstalled, fun e he hw => (hmem e.name).mp (hall e he hw)⟩
  have htree : ∀ {w}, Relation.ReflTransGen (f.Reads g) p w → f.Tree g p w :=
    tree_of_reads hacc fun q w hpq hqw => (hdependants q w hpq hqw).2
  refine ⟨fun q hq => ?_, ?_, ?_, ?_⟩
  · exact not_transGen_of_acc (acc_of_reflTransGen hacc (tree_subset hq))
  · rintro q hq e he ⟨w, hw, hwfollows⟩
    have hqw : f.Reads g q w := reads_iff.mpr ⟨⟨e, he, hw⟩, hwfollows⟩
    exact htree ((hdependants q w (tree_subset hq) hqw).2 e (mem_of_mem_packagesRead he)
      (printed_subset hw))
  · intro q hq w hqw
    exact (hdependants q w (tree_subset hq) (reads_of_owns hqw)).1
  · intro q hq w hqw _ e he hw
    exact htree ((hdependants q w (tree_subset hq) (reads_of_owns hqw)).2 e he hw)

omit hunneeded in
theorem safe_of_orderly (hfollows : f.Follows g p) (horder : f.Orderly g p) : f.Safe g p := by
  have hclosed : ClosedUnder (f.Reads g) {w | f.Tree g p w} := by
    intro q hq w hqw
    obtain ⟨⟨e, he, hw⟩, hwfollows⟩ := reads_iff.mp hqw
    have hname := horder.owned q hq e he ⟨w, hw, hwfollows⟩
    exact Relation.ReflTransGen.tail hname
      ⟨e, mem_of_mem_packagesRead he, rfl, hw, hwfollows⟩
  have hfirst : ∀ a ∈ [p], followed g f.lines a = true → a ∈ {w | f.Tree g p w} := by
    intro a ha _
    rw [List.mem_singleton.mp ha]
    exact Relation.ReflTransGen.refl
  obtain ⟨n, out, hout⟩ := visit_of_acyclic hclosed (fun q _ w hqw => reads_mem hqw)
    horder.acyclic hfirst
  have hmem := mem_depended hout hfollows
  refine ⟨n, out, hout, fun w hw => ?_⟩
  have htree : f.Tree g p w := hclosed.reflTransGen Relation.ReflTransGen.refl ((hmem w).mp hw)
  rcases Relation.ReflTransGen.cases_tail htree with heq | ⟨q, hpq, hqw⟩
  · exact Or.inl heq
  · refine Or.inr ⟨horder.installed q hpq w hqw, fun e he hew => ?_⟩
    have hname : f.Tree g p e.name := by
      by_cases hplus : '+' ∈ w
      · exact horder.plus q hpq w hqw hplus e he hew
      · obtain ⟨r, hr, hrq, hrw, hwfollows⟩ := hqw
        rw [eq_of_follows hwfollows hplus he hr hew (printed_subset hrw), hrq]
        exact hpq
    exact (hmem e.name).mpr (tree_subset hname)

/-- **What is listed** is safe exactly when it is read in order. -/
theorem safe_iff : f.Safe g p ↔ (f.Follows g p → f.Orderly g p) := by
  constructor
  · exact fun hsafe hfollows => orderly_of_safe hunneeded hfollows hsafe
  · intro horderly
    cases hfollows : followed g f.lines p with
    | false =>
        refine ⟨1, [], ?_, nofun⟩
        rw [depended, visit, visitAll_cons_of_not hfollows]
        rfl
    | true => exact safe_of_orderly hfollows (horderly hfollows)

/-! ## Where each package has its own line -/

/-- Chains of only dependants do not come back. -/
theorem acyclic_of_own
    (hown : ∀ q, f.Tree g p q → ∀ e ∈ packagesRead q false f.packages, e.printed ≠ [] → e.name = q)
    (hplus : ∀ e ∈ f.packages, ∀ w ∈ e.dependencies, '+' ∉ w) {q : Text} (hq : f.Tree g p q) :
    ¬ Relation.TransGen (f.Reads g) q q := by
  have howns : ∀ {q w}, f.Tree g p q → f.Reads g q w → f.Owns g q w := by
    intro q w hq hqw
    obtain ⟨⟨e, he, hw⟩, hfollows⟩ := reads_iff.mp hqw
    exact ⟨e, mem_of_mem_packagesRead he, hown q hq e he (List.ne_nil_of_mem hw), hw, hfollows⟩
  have hclosed : ClosedUnder (f.Reads g) {w | f.Tree g p w} := fun q hq w hqw =>
    Relation.ReflTransGen.tail hq (howns hq hqw)
  induction hq with
  | refl =>
      intro hcycle
      obtain ⟨c, -, hcp⟩ := Relation.TransGen.tail'_iff.mp hcycle
      exact ne_of_reads hunneeded hcp rfl
  | @tail q w hpq hqw ih =>
      intro hcycle
      obtain ⟨c, hwc, hcw⟩ := Relation.TransGen.tail'_iff.mp hcycle
      have hc : f.Tree g p c := hclosed.reflTransGen (Relation.ReflTransGen.tail hpq hqw) hwc
      -- both are the only dependant
      obtain ⟨e, he, rfl, hew, hfollows⟩ := hqw
      obtain ⟨r, hr, rfl, hrw, -⟩ := howns hc hcw
      obtain rfl := eq_of_follows hfollows (hplus e he w (printed_subset hew)) he hr
        (printed_subset hew) (printed_subset hrw)
      exact ih (Relation.TransGen.head' hcw hwc)

/-- **Packages with lines of their own**, that have installed packages in them, are in order. -/
theorem orderly_of_own
    (hown : ∀ q, f.Tree g p q → ∀ e ∈ packagesRead q false f.packages, e.printed ≠ [] → e.name = q)
    (hplus : ∀ e ∈ f.packages, ∀ w ∈ e.dependencies, '+' ∉ w)
    (hinstalled : ∀ e ∈ f.packages, ∀ w ∈ e.printed, f.Follows g w → ∃ r ∈ f.packages, r.name = w) :
    f.Orderly g p where
  acyclic := fun _ hq => acyclic_of_own hunneeded hown hplus hq
  owned := by
    rintro q hq e he ⟨w, hw, -⟩
    rw [hown q hq e he (List.ne_nil_of_mem hw)]
    exact hq
  installed := by
    rintro q - w ⟨e, he, -, hw, hfollows⟩
    exact hinstalled e he w hw hfollows
  plus := by
    rintro q - w ⟨e, he, -, hw, -⟩ hmem
    exact absurd hmem (hplus e he w (printed_subset hw))

end Unneeded

end Installed

/-! ## Lines read by their characters -/

/-- The name is in the line, and no hyphen is behind it. -/
def namesIt (p l : Text) : Bool :=
  l.tails.any fun t => p.isPrefixOf t && !((t.drop p.length).head? == some '-')

/-- The pattern, where each character stands for itself. -/
def plainEgrep : Egrep where
  finds p l := l.tails.any fun t => dependsTag.isPrefixOf t && namesIt p (t.drop dependsTag.length)
  only := by
    intro p l h
    obtain ⟨t, ht, htag⟩ := List.any_eq_true.mp h
    have hfront := List.isPrefixOf_iff_prefix.mp (Bool.and_eq_true_iff.mp htag).1
    exact hfront.isInfix.trans ((List.mem_tails t l).mp ht).isInfix
  found := by
    intro p _ _ a b c hc
    have hname : namesIt p (b ++ p ++ c) = true := by
      refine List.any_eq_true.mpr ⟨p ++ c, (List.mem_tails _ _).mpr ⟨b, ?_⟩, ?_⟩
      · rw [List.append_assoc]
      · rw [List.drop_left, List.isPrefixOf_iff_prefix.mpr (List.prefix_append p c), Bool.true_and]
        simpa using hc
    refine List.any_eq_true.mpr
      ⟨dependsTag ++ (b ++ p ++ c), (List.mem_tails _ _).mpr ⟨a, ?_⟩, ?_⟩
    · simp only [List.append_assoc]
    · rw [List.drop_left, hname, List.isPrefixOf_iff_prefix.mpr (List.prefix_append _ _)]
      rfl

/-- A package with its name and what it depends on only. -/
def smallPackage (name : Text) (depends : Option (List Text)) : Package := ⟨name, [], depends, []⟩

theorem smallPackage_valid {name : Text} {depends : Option (List Text)}
    (hname : name ≠ [] ∧ name.all isPackageChar = true)
    (hnames : ∀ n ∈ depends.getD [], n ≠ [] ∧ n.all isPackageChar = true)
    (hsome : depends ≠ some []) : (smallPackage name depends).Valid :=
  ⟨hname, nofun, nofun, hnames, hsome⟩

namespace Installed

def samba : Text := "samba".toList
def popt : Text := "popt".toList
def libiconv : Text := "libiconv".toList
def ipkg : Text := "ipkg".toList

/-- samba, and two packages that it depends on; the first of them has no line of its own. -/
def withSamba : Installed where
  packages := [smallPackage samba (some [libiconv, popt, ipkg]), smallPackage libiconv none,
    smallPackage popt (some [ipkg])]
  ended := true
  valid := by
    intro e he
    rcases List.mem_cons.mp he with rfl | he
    · exact smallPackage_valid (by decide) (by decide +kernel) (by decide)
    · rcases List.mem_pair.mp he with rfl | rfl
      · exact smallPackage_valid (by decide) nofun nofun
      · exact smallPackage_valid (by decide) (by decide +kernel) (by decide)

theorem withSamba_unneeded : ∀ e ∈ withSamba.packages, samba ∉ e.dependencies := by
  decide +kernel

/-- The line behind libiconv has one name only. -/
theorem withSamba_orderly : withSamba.Orderly plainEgrep samba := by
  have hsubset : withSamba.packages.flatMap Package.dependencies ⊆
      [samba, libiconv, popt, ipkg] := by
    decide +kernel
  have hnames : ∀ q, withSamba.Tree plainEgrep samba q → q ∈ [samba, libiconv, popt, ipkg] := by
    intro q hq
    rcases Relation.ReflTransGen.cases_tail hq with rfl | ⟨r, -, hrq⟩
    · exact List.mem_cons_self
    · exact hsubset (reads_mem (reads_of_owns hrq))
  have hown : ∀ q ∈ [samba, libiconv, popt, ipkg], ∀ e ∈ packagesRead q false withSamba.packages,
      e.printed ≠ [] → e.name = q := by
    decide +kernel
  have hinstalled : ∀ e ∈ withSamba.packages, ∀ w ∈ e.printed,
      followed plainEgrep withSamba.lines w = true → ∃ r ∈ withSamba.packages, r.name = w := by
    decide +kernel
  exact orderly_of_own withSamba_unneeded (fun q hq => hown q (hnames q hq)) (by decide +kernel)
    hinstalled

/-- Only ipkg is not installed, and it is not followed. -/
theorem withSamba_safe : withSamba.Safe plainEgrep samba :=
  (safe_iff withSamba_unneeded).mpr fun _ => withSamba_orderly

def zlib : Text := "zlib".toList

/-- A package without a Depends line, in front of the one that depends on it. -/
def withPopt : Installed where
  packages := [smallPackage popt none, smallPackage samba (some [popt, zlib]),
    smallPackage zlib none]
  ended := true
  valid := by
    intro e he
    rcases List.mem_cons.mp he with rfl | he
    · exact smallPackage_valid (by decide) nofun nofun
    · rcases List.mem_pair.mp he with rfl | rfl
      · exact smallPackage_valid (by decide) (by decide +kernel) (by decide)
      · exact smallPackage_valid (by decide) nofun nofun

/-- popt is listed below itself. -/
theorem not_safe_withPopt : ¬ ∀ (f : Installed) (p : Text),
    (∀ e ∈ f.packages, p ∉ e.dependencies) → f.Safe plainEgrep p := by
  intro h
  have hunneeded : ∀ e ∈ withPopt.packages, samba ∉ e.dependencies := by decide +kernel
  have hsafe := h withPopt samba hunneeded
  have hline : smallPackage samba (some [popt, zlib]) ∈
      packagesRead popt false withPopt.packages := by
    decide +kernel
  have hprinted : popt ∈ (smallPackage samba (some [popt, zlib])).printed := by decide +kernel
  have hfollows : followed plainEgrep withPopt.lines popt = true ∧
      followed plainEgrep withPopt.lines samba = true := by
    decide +kernel
  have hself : withPopt.Reads plainEgrep popt popt :=
    reads_iff.mpr ⟨⟨_, hline, hprinted⟩, hfollows.1⟩
  have hbelow : withPopt.Owns plainEgrep samba popt :=
    ⟨smallPackage samba (some [popt, zlib]), by decide +kernel, rfl, hprinted, hfollows.1⟩
  have horder := orderly_of_safe hunneeded hfollows.2 hsafe
  exact horder.acyclic popt (Relation.ReflTransGen.single hbelow) (Relation.TransGen.single hself)

end Installed

end AltF.Packages
