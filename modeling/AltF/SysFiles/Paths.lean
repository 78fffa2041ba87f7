/-
  SysFiles/Paths.lean --- path names: `dirname`, `basename`, and the folder that a path
  leads to when `.` and `..` are resolved.

  A folder is the list of its components from the root on.  Symbolic links are not
  followed.
-/
import Mathlib.Data.List.DropRight
import AltF.SysFiles.Text

set_option autoImplicit false

namespace AltF.SysFiles

/-! ## Resolution -/

/-- The components of a path. -/
def components (p : Text) : List Text := p.splitOn '/'

def dot : Text := ['.']

def dotDot : Text := ['.', '.']

/-- One component further; above the root is the root. -/
def walk (folder : List Text) (c : Text) : List Text :=
  if c = [] ∨ c = dot then folder
  else if c = dotDot then folder.dropLast
  else folder ++ [c]

/-- The folder that a path leads to from another folder. -/
def resolve (cwd : List Text) (p : Text) : List Text :=
  (components p).foldl walk (if p.head? = some '/' then [] else cwd)

/-- A component that is a name. -/
def IsPlainName (c : Text) : Prop := c ≠ [] ∧ c ≠ dot ∧ c ≠ dotDot ∧ '/' ∉ c

instance (c : Text) : Decidable (IsPlainName c) := inferInstanceAs (Decidable (_ ∧ _))

theorem components_append (p q : Text) :
    components (p ++ '/' :: q) = components p ++ components q :=
  List.splitOn_append_cons_self p q

theorem components_of_notMem {c : Text} (h : '/' ∉ c) : components c = [c] :=
  List.splitOn_eq_singleton h

/-- A path that is continued. -/
theorem resolve_append (cwd : List Text) {p : Text} (hp : p ≠ []) (q : Text) :
    resolve cwd (p ++ '/' :: q) = (components q).foldl walk (resolve cwd p) := by
  have hhead : (p ++ '/' :: q).head? = p.head? := List.head?_append_of_ne_nil p hp
  rw [resolve, resolve, hhead, components_append, List.foldl_append]

theorem resolve_name (cwd : List Text) {p c : Text} (hp : p ≠ []) (hc : IsPlainName c) :
    resolve cwd (p ++ '/' :: c) = resolve cwd p ++ [c] := by
  obtain ⟨hne, hdot, hdots, hslash⟩ := hc
  rw [resolve_append cwd hp, components_of_notMem hslash, List.foldl_cons, List.foldl_nil, walk,
    if_neg (not_or.mpr ⟨hne, hdot⟩), if_neg hdots]

theorem resolve_dot (cwd : List Text) {p : Text} (hp : p ≠ []) :
    resolve cwd (p ++ '/' :: dot) = resolve cwd p := by
  rw [resolve_append cwd hp]
  rfl

/-- A path of names leads where it says. -/
theorem resolve_names (cwd : List Text) {names : List Text} (hne : names ≠ [])
    (h : ∀ c ∈ names, IsPlainName c) : resolve cwd (names.flatMap ('/' :: ·)) = names := by
  induction names using List.reverseRecOn with
  | nil => exact absurd rfl hne
  | append_singleton names c ih =>
      have hc := h c (List.mem_append_right _ (List.mem_singleton_self c))
      rw [List.flatMap_append, List.flatMap_singleton]
      by_cases hnil : names = []
      · rw [hnil]
        obtain ⟨hsome, hdot, hdots, hslash⟩ := hc
        change (components ([] ++ '/' :: c)).foldl walk [] = [c]
        rw [components_append, components_of_notMem hslash, components_of_notMem List.not_mem_nil]
        simp only [List.cons_append, List.nil_append, List.foldl_cons, List.foldl_nil]
        have hroot : walk [] [] = [] := rfl
        rw [hroot, walk, if_neg (not_or.mpr ⟨hsome, hdot⟩), if_neg hdots, List.nil_append]
      · have hpath : names.flatMap ('/' :: ·) ≠ [] := by
          obtain ⟨n, names, rfl⟩ := List.exists_cons_of_ne_nil hnil
          exact List.cons_ne_nil _ _
        rw [resolve_name cwd hpath hc,
          ih hnil fun d hd => h d (List.mem_append_left _ hd)]

/-! ## `dirname` and `basename` -/

/-- A path without the slashes at its end. -/
def stripSlashes (p : Text) : Text := p.rdropWhile (· = '/')

def basename (p : Text) : Text :=
  let q := stripSlashes p
  if q = [] then (if p = [] then [] else ['/']) else q.rtakeWhile (· ≠ '/')

def dirname (p : Text) : Text :=
  let q := stripSlashes p
  if q = [] then (if p = [] then dot else ['/'])
  else if '/' ∉ q then dot
  else
    let r := stripSlashes (q.rdropWhile (· ≠ '/'))
    if r = [] then ['/'] else r

/-- A base name has no slash in it, but where it is one. -/
theorem slash_notMem_basename {p : Text} (h : basename p ≠ ['/']) : '/' ∉ basename p := by
  unfold basename at h ⊢
  simp only at h ⊢
  split at h
  · rename_i hq
    rw [if_pos hq]
    split at h
    · rename_i hp
      rw [if_pos hp]
      exact List.not_mem_nil
    · exact absurd rfl h
  · rename_i hq
    rw [if_neg hq]
    intro hmem
    have hne := List.mem_rtakeWhile_imp hmem
    simp at hne

/-- The base name of a name is the name. -/
theorem basename_of_notMem {c : Text} (h : '/' ∉ c) : basename c = c := by
  have hnot : ∀ x ∈ c, ¬ decide (x = '/') = true := fun x hx heq =>
    h (of_decide_eq_true heq ▸ hx)
  have hstrip : stripSlashes c = c := by
    cases c using List.reverseRecOn with
    | nil => rfl
    | append_singleton c x =>
        exact List.rdropWhile_concat_neg _ _ _ (hnot x (List.mem_append_right _
          (List.mem_singleton_self x)))
  have htake : c.rtakeWhile (· ≠ '/') = c := by
    rw [List.rtakeWhile_eq_self_iff]
    exact fun x hx => by simpa using hnot x hx
  unfold basename
  simp only [hstrip]
  split
  · rename_i hnil
    exact hnil.symm
  · exact htake

/-- The base name of a path that ends with a name. -/
theorem basename_append (p : Text) {c : Text} (hc : IsPlainName c) :
    basename (p ++ '/' :: c) = c := by
  have hnot : ∀ x ∈ c, x ≠ '/' := fun x hx heq => hc.2.2.2 (heq ▸ hx)
  have hstrip : stripSlashes (p ++ '/' :: c) = p ++ '/' :: c := by
    cases c using List.reverseRecOn with
    | nil => exact absurd rfl hc.1
    | append_singleton c x =>
        have hx := hnot x (List.mem_append_right _ (List.mem_singleton_self x))
        have hsplit : p ++ '/' :: (c ++ [x]) = (p ++ '/' :: c) ++ [x] := by simp
        rw [hsplit]
        exact List.rdropWhile_concat_neg _ _ _ (by simpa using hx)
  have htake : (p ++ '/' :: c).rtakeWhile (· ≠ '/') = c := by
    have hreverse : (p ++ '/' :: c).reverse = c.reverse ++ '/' :: p.reverse := by simp
    have hall : ∀ x ∈ c.reverse, decide (x ≠ '/') = true := fun x hx =>
      decide_eq_true (hnot x (List.mem_reverse.mp hx))
    rw [List.rtakeWhile, hreverse, List.takeWhile_append_of_pos hall,
      List.takeWhile_cons_of_neg (by simp), List.append_nil, List.reverse_reverse]
  unfold basename
  simp only [hstrip, htake]
  rw [if_neg (by simp)]

theorem basename_basename (p : Text) : basename (basename p) = basename p := by
  by_cases hslash : basename p = ['/']
  · rw [hslash]
    rfl
  · exact basename_of_notMem (slash_notMem_basename hslash)

/-! ## The names in a path -/

/-- What stands between the slashes. -/
def pathNames (p : Text) : List Text := (components p).filter (· ≠ [])

@[simp] theorem pathNames_nil : pathNames [] = [] := rfl

theorem pathNames_append (p q : Text) :
    pathNames (p ++ '/' :: q) = pathNames p ++ pathNames q := by
  rw [pathNames, components_append, List.filter_append, pathNames, pathNames]

theorem pathNames_of_notMem {c : Text} (hne : c ≠ []) (h : '/' ∉ c) : pathNames c = [c] := by
  rw [pathNames, components_of_notMem h, List.filter_cons_of_pos (by simpa using hne),
    List.filter_nil]

theorem pathNames_concat_slash (p : Text) : pathNames (p ++ ['/']) = pathNames p := by
  rw [pathNames_append, pathNames_nil, List.append_nil]

/-- Slashes at the end are no names. -/
theorem pathNames_stripSlashes (p : Text) : pathNames (stripSlashes p) = pathNames p := by
  induction p using List.reverseRecOn with
  | nil => rfl
  | append_singleton p c ih =>
      by_cases hc : c = '/'
      · subst hc
        rw [stripSlashes, List.rdropWhile_concat_pos _ _ _ (by decide), pathNames_concat_slash]
        exact ih
      · rw [stripSlashes, List.rdropWhile_concat_neg _ _ _ (by simpa using hc)]

/-- A path that starts with a name has one. -/
theorem pathNames_ne_nil {p : Text} (hne : p ≠ []) (hhead : p.head? ≠ some '/') :
    pathNames p ≠ [] := by
  by_cases hslash : '/' ∈ p
  · obtain ⟨a, b, rfl, ha⟩ := List.eq_append_cons_of_mem hslash
    have hne' : a ≠ [] := by
      rintro rfl
      exact hhead rfl
    rw [pathNames_append, pathNames_of_notMem hne' ha]
    exact List.cons_ne_nil _ _
  · rw [pathNames_of_notMem hne hslash]
    exact List.cons_ne_nil _ _

theorem stripSlashes_append (p : Text) : ∃ k, p = stripSlashes p ++ List.replicate k '/' := by
  refine ⟨(p.rtakeWhile (· = '/')).length, ?_⟩
  have hslashes : p.rtakeWhile (· = '/') = List.replicate (p.rtakeWhile (· = '/')).length '/' := by
    refine List.eq_replicate_of_mem fun c hc => ?_
    have hslash := List.mem_rtakeWhile_imp hc
    exact of_decide_eq_true hslash
  rw [← hslashes]
  exact List.rdropWhile_append_rtakeWhile.symm

theorem stripSlashes_head {p : Text} (h : stripSlashes p ≠ []) :
    (stripSlashes p).head? = p.head? := by
  obtain ⟨k, hk⟩ := stripSlashes_append p
  conv_rhs => rw [hk]
  exact (List.head?_append_of_ne_nil _ h).symm

theorem stripSlashes_last {p : Text} : (stripSlashes p).getLast? ≠ some '/' := by
  intro hlast
  have hne : stripSlashes p ≠ [] := by
    intro hnil
    rw [hnil] at hlast
    cases hlast
  have hnot := List.rdropWhile_last_not (fun c => decide (c = '/')) p hne
  rw [List.getLast?_eq_some_getLast hne] at hlast
  exact hnot (decide_eq_true (Option.some.inj hlast))

theorem rdropWhile_last_slash {q : Text} (h : q.rdropWhile (· ≠ '/') ≠ []) :
    (q.rdropWhile (· ≠ '/')).getLast h = '/' := by
  by_contra hne
  exact List.rdropWhile_last_not _ _ h (decide_eq_true hne)

/-- The path in front of the last name, or a path of one name. -/
theorem dirname_cases {p : Text} (hp : stripSlashes p ≠ []) :
    (∃ f, pathNames p = [f] ∧ (p.head? ≠ some '/' ∧ stripSlashes p = f ∧ dirname p = dot ∨
        p.head? = some '/' ∧ dirname p = ['/'])) ∨
      ∃ f, pathNames p = pathNames (dirname p) ++ [f] ∧ dirname p ≠ [] ∧
        (dirname p).head? = p.head? ∧ (dirname p).getLast? ≠ some '/' := by
  set q := stripSlashes p with hq
  have hnames : pathNames p = pathNames q := (pathNames_stripSlashes p).symm
  have hhead : q.head? = p.head? := stripSlashes_head hp
  by_cases hslash : '/' ∈ q
  · have hdir : dirname p = if stripSlashes (q.rdropWhile (· ≠ '/')) = [] then ['/']
        else stripSlashes (q.rdropWhile (· ≠ '/')) := by
      unfold dirname
      simp only
      rw [← hq, if_neg hp, if_neg (not_not.mpr hslash)]
    have hsplit : q.rdropWhile (· ≠ '/') ++ q.rtakeWhile (· ≠ '/') = q :=
      List.rdropWhile_append_rtakeWhile
    set a := q.rdropWhile (· ≠ '/') with ha
    set f := q.rtakeWhile (· ≠ '/') with hf
    have hfslash : '/' ∉ f := fun hmem => by simpa using List.mem_rtakeWhile_imp hmem
    have hane : a ≠ [] := by
      intro hnil
      rw [hnil, List.nil_append] at hsplit
      exact hfslash (hsplit ▸ hslash)
    have hfne : f ≠ [] := by
      intro hnil
      rw [hnil, List.append_nil] at hsplit
      have hlast : q.getLast? = some '/' := by
        rw [← hsplit, List.getLast?_eq_some_getLast hane, rdropWhile_last_slash hane]
      exact stripSlashes_last hlast
    obtain ⟨b, hb⟩ : ∃ b, a = b ++ ['/'] := by
      have hlast : a.getLast hane = '/' := rdropWhile_last_slash hane
      exact ⟨a.dropLast, by rw [← hlast, List.dropLast_append_getLast]⟩
    have hqnames : pathNames q = pathNames (stripSlashes a) ++ [f] := by
      rw [← hsplit, hb, List.append_assoc, List.singleton_append, pathNames_append,
        pathNames_of_notMem hfne hfslash, pathNames_stripSlashes, pathNames_concat_slash]
    have hahead : a.head? = p.head? := by
      rw [← hhead, ← hsplit]
      exact (List.head?_append_of_ne_nil _ hane).symm
    by_cases hr : stripSlashes a = []
    · left
      refine ⟨f, ?_, Or.inr ⟨?_, ?_⟩⟩
      · rw [hnames, hqnames, hr]
        rfl
      · obtain ⟨k, hk⟩ := stripSlashes_append a
        rw [hr, List.nil_append] at hk
        rw [← hahead, hk]
        cases k with
        | zero => exact absurd hk hane
        | succ k => rfl
      · rw [hdir, if_pos hr]
    · right
      rw [if_neg hr] at hdir
      rw [hdir]
      exact ⟨f, hnames.trans hqnames, hr, (stripSlashes_head hr).trans hahead, stripSlashes_last⟩
  · left
    refine ⟨q, ?_, Or.inl ⟨?_, rfl, ?_⟩⟩
    · rw [hnames, pathNames_of_notMem hp hslash]
    · rw [← hhead]
      intro hfirst
      exact hslash (List.mem_of_mem_head? hfirst)
    · unfold dirname
      simp only
      rw [← hq, if_neg hp, if_pos hslash]

theorem dirname_of_slashes {p : Text} (hp : stripSlashes p = []) :
    dirname p = if p = [] then dot else ['/'] := by
  unfold dirname
  simp only
  rw [if_pos hp]

/-- A path from the root stays one. -/
theorem dirname_absolute {p : Text} (hp : p.head? = some '/') : (dirname p).head? = some '/' := by
  by_cases hstrip : stripSlashes p = []
  · have hne : p ≠ [] := by
      rintro rfl
      cases hp
    rw [dirname_of_slashes hstrip, if_neg hne]
    rfl
  · rcases dirname_cases hstrip with ⟨f, -, ⟨hrel, -⟩ | ⟨-, hdir⟩⟩ | ⟨f, -, -, hhead, -⟩
    · exact absurd hp hrel
    · rw [hdir]
      rfl
    · rw [hhead, hp]

theorem mem_of_mem_dirname {p : Text} {c : Char} (hc : c ∈ dirname p) :
    c ∈ p ∨ c = '.' ∨ c = '/' := by
  unfold dirname at hc
  simp only at hc
  split at hc
  · split at hc
    · exact Or.inr (Or.inl (List.mem_singleton.mp hc))
    · exact Or.inr (Or.inr (List.mem_singleton.mp hc))
  · split at hc
    · exact Or.inr (Or.inl (List.mem_singleton.mp hc))
    · split at hc
      · exact Or.inr (Or.inr (List.mem_singleton.mp hc))
      · exact Or.inl ((List.rdropWhile_prefix _ _).subset ((List.rdropWhile_prefix _ _).subset
          ((List.rdropWhile_prefix _ _).subset hc)))

theorem stripSlashes_ne_nil {p : Text} (hne : p ≠ []) (hhead : p.head? ≠ some '/') :
    stripSlashes p ≠ [] := by
  intro hnil
  obtain ⟨k, hk⟩ := stripSlashes_append p
  rw [hnil, List.nil_append] at hk
  cases k with
  | zero => exact hne hk
  | succ k =>
      rw [hk] at hhead
      exact hhead rfl

theorem stripSlashes_of_last {p : Text} (hlast : p.getLast? ≠ some '/') : stripSlashes p = p := by
  rw [stripSlashes, List.rdropWhile_eq_self_iff]
  intro hne hslash
  rw [List.getLast?_eq_some_getLast hne] at hlast
  exact hlast (congrArg some (of_decide_eq_true hslash))

/-- A longer path has no fewer names. -/
theorem pathNames_length_le (p u : Text) : (pathNames p).length ≤ (pathNames (p ++ u)).length := by
  induction hn : p.length using Nat.strong_induction_on generalizing p with
  | _ n ih =>
      by_cases hslash : '/' ∈ p
      · obtain ⟨a, b, rfl, ha⟩ := List.eq_append_cons_of_mem hslash
        have hlt : b.length < n := by
          rw [← hn, List.length_append, List.length_cons]
          omega
        rw [List.append_assoc, List.cons_append, pathNames_append, pathNames_append,
          List.length_append, List.length_append]
        exact Nat.add_le_add_left (ih b.length hlt b rfl) _
      · by_cases hne : p = []
        · rw [hne]
          exact Nat.zero_le _
        · have hhead : (p ++ u).head? ≠ some '/' := by
            rw [List.head?_append_of_ne_nil _ hne]
            exact fun h => hslash (List.mem_of_mem_head? h)
          rw [pathNames_of_notMem hne hslash]
          exact List.length_pos_iff.mpr (pathNames_ne_nil (by simp [hne]) hhead)

end AltF.SysFiles
