/-
  Fixup/Fixes.lean --- fixup: `apply` with `recurse`, `rollback` with `depends`, and
  `include`, over any directory of fixes.

  A fix is a file `<version>-<number>-<description>.fix`.  Its own `apply` and `rollback`
  succeed and its `status` tells the truth, so what is applied is all there is to know.
-/
import AltF.Foundation.Dependencies
import AltF.Foundation.Runs
import AltF.Shell.Words

set_option autoImplicit false

namespace AltF.Fixup

open AltF.Foundation AltF.Shell AltF.SysFiles

/-! ## Fixes -/

/-- A version and a number. -/
abbrev Id : Type := Text × Text

/-- `<version>-<number>` -/
def idText (e : Id) : Text := e.1 ++ '-' :: e.2

/-- A fix. -/
structure Fix where
  version : Text
  number : Text
  description : Text
  /-- `REQUIRE` -/
  require : List Id
  deriving DecidableEq

namespace Fix

def id (f : Fix) : Id := (f.version, f.number)

/-- The name of its file. -/
def file (f : Fix) : Text := idText f.id ++ '-' :: (f.description ++ ".fix".toList)

/-- What stands behind `REQUIRE=`. -/
def requireText (f : Fix) : Text := '"' :: (join (f.require.map idText) ++ ['"'])

end Fix

/-- A version has letters, digits and dots, and not digits only. -/
def isVersion (v : Text) : Bool :=
  v.all (fun c => c.isAlphanum || c == '.') && v.any fun c => !c.isDigit

/-- A number has digits. -/
def isNumber (n : Text) : Bool := n.all Char.isDigit

/-- An argument is a part of a name, without blanks and patterns. -/
def isArgument (a : Text) : Bool := a.all fun c => c.isAlphanum || "-_.".toList.contains c

/-- A directory of fixes. -/
structure Fixes where
  /-- `VER` -/
  version : Text
  /-- the fixes in the order in which `ls` has them -/
  files : List Fix
  named : isVersion version = true ∧ ∀ f ∈ files, ∀ e ∈ f.id :: f.require,
    isVersion e.1 = true ∧ isNumber e.2 = true
  nodup : (files.map Fix.id).Nodup
  acyclic : Acyclic fun a b => ∃ f ∈ files, f.id = a ∧ b ∈ f.require

/-- Which fixes are applied. -/
abbrev State : Type := Id → Bool

/-- What is asked of `fixup`. -/
inductive Operation where
  | apply (arg : { a : Text // isArgument a = true })
  | rollback (arg : { a : Text // isArgument a = true })

/-- A file fits the pattern `p-*.fix`. -/
def fits (p : Text) (f : Fix) : Bool :=
  (p ++ ['-']).isPrefixOf f.file && ".fix".toList.isSuffixOf (f.file.drop (p.length + 1))

/-- A text begins as a pattern of `grep` has it, in which a dot is any character. -/
def grepHere : Text → Text → Bool
  | [], _ => true
  | _ :: _, [] => false
  | p :: ps, c :: cs => (p == '.' || p == c) && grepHere ps cs

/-- `grep` of such a pattern. -/
def grepFinds (p t : Text) : Bool := t.tails.any (grepHere p)

/-- `cut -d"-" -f1,2` -/
def cutTwo (t : Text) : Text := ['-'].intercalate ((t.splitOn '-').take 2)

/-- `cut -d"-" -f2` -/
def cutSecond (t : Text) : Text := ((t.splitOn '-')[1]?).getD t

namespace Fixes

variable (dir : Fixes)

/-- A fix requires another one. -/
def Requires (a b : Id) : Prop := ∃ f ∈ dir.files, f.id = a ∧ b ∈ f.require

/-- `include`: the fix that an argument stands for. -/
def include_ (arg : Text) : Option Fix :=
  (dir.files.filter
    (fits (if arg.takeWhile (· ≠ '-') = dir.version then arg else dir.version ++ '-' :: arg))).head?

/-- `fixup status` -/
def status (arg : Text) (σ : State) : Bool :=
  match dir.include_ arg with
  | none => false
  | some f => σ f.id

/-- `recurse`, with `applyOne` for `fixup apply`. -/
def recurse (applyOne : Text → State → Option State) : List Id → State → Option State
  | [], σ => some σ
  | e :: es, σ =>
      if (dir.files.filter (fits (idText e))).length = 1 then
        match applyOne (idText e) σ with
        | none => none
        | some σ₁ => recurse applyOne es σ₁
      else recurse applyOne es σ

/-- `fixup apply` -/
def apply : Nat → Text → State → Option State
  | 0, _, _ => none
  | n + 1, arg, σ =>
      match dir.include_ arg with
      | none => some σ
      | some f =>
          if σ f.id then some σ
          else (dir.recurse (apply n) f.require σ).map fun σ₁ => Function.update σ₁ f.id true

/-- The fixes that `grep` finds for `f`. -/
def dependants (f : Fix) : List Fix :=
  dir.files.filter fun d => grepFinds (cutTwo f.file) d.requireText

/-- `depends`: the rollback is refused. -/
def depends (f : Fix) (σ : State) : Bool :=
  if dir.dependants f = [] then false
  else dir.status (cutSecond (join ((dir.dependants f).map Fix.file))) σ

/-- `fixup rollback`, and whether it is not refused. -/
def rollback (arg : Text) (σ : State) : State × Bool :=
  match dir.include_ arg with
  | none => (σ, false)
  | some f =>
      if σ f.id = false then (σ, true)
      else if dir.depends f σ then (σ, false)
      else (Function.update σ f.id false, true)

/-- More than any chain of requirements is long. -/
def fuel : Nat := (dir.files.flatMap Fix.require).length + 1

/-- What is applied after an operation. -/
def step (σ : State) : Operation → State
  | .apply arg => (dir.apply dir.fuel arg σ).getD σ
  | .rollback arg => (dir.rollback arg σ).1

/-- The fixes that are applied. -/
def applied (σ : State) : Set Id := {e | σ e = true}

end Fixes

/-! ## Names of files -/

theorem dash_notMem_version {v : Text} (h : isVersion v = true) : '-' ∉ v := by
  intro hmem
  rw [isVersion, Bool.and_eq_true] at h
  exact absurd (List.all_eq_true.mp h.1 '-' hmem) Bool.false_ne_true

theorem dash_notMem_number {n : Text} (h : isNumber n = true) : '-' ∉ n :=
  fun hmem => absurd (List.all_eq_true.mp h '-' hmem) Bool.false_ne_true

theorem ne_number_of_isVersion {v n : Text} (hv : isVersion v = true) (hn : isNumber n = true) :
    v ≠ n := by
  rintro rfl
  rw [isVersion, Bool.and_eq_true] at hv
  obtain ⟨c, hc, hdigit⟩ := List.any_eq_true.mp hv.2
  rw [List.all_eq_true.mp hn c hc] at hdigit
  exact absurd hdigit Bool.false_ne_true

theorem splitOn_idText {v n : Text} (hv : '-' ∉ v) (hn : '-' ∉ n) (t : Text) :
    (idText (v, n) ++ '-' :: t).splitOn '-' = v :: n :: t.splitOn '-' := by
  rw [idText, List.append_assoc, List.cons_append,
    List.splitOn_append_cons_self_of_not_mem hv, List.splitOn_append_cons_self_of_not_mem hn]

theorem takeWhile_append_dash (p t : Text) :
    (p ++ '-' :: t).takeWhile (· ≠ '-') = p.takeWhile (· ≠ '-') := by
  induction p with
  | nil => rfl
  | cons c p ih =>
      rw [List.cons_append, List.takeWhile_cons, List.takeWhile_cons, ih]

theorem takeWhile_idText {v : Text} (hv : '-' ∉ v) (t : Text) :
    (v ++ '-' :: t).takeWhile (· ≠ '-') = v := by
  rw [takeWhile_append_dash]
  exact List.takeWhile_eq_self_iff.mpr fun c hc => decide_eq_true fun h => hv (h ▸ hc)

theorem fits_eq_true {p : Text} {f : Fix} (h : fits p f = true) : ∃ t, f.file = p ++ '-' :: t := by
  rw [fits, Bool.and_eq_true, List.isPrefixOf_iff_prefix] at h
  obtain ⟨t, ht⟩ := h.1
  exact ⟨t, by rw [← ht, List.append_assoc]; rfl⟩

theorem version_of_fits {p : Text} {f : Fix} (hf : '-' ∉ f.version) (h : fits p f = true) :
    f.version = p.takeWhile (· ≠ '-') := by
  obtain ⟨t, ht⟩ := fits_eq_true h
  rw [← takeWhile_append_dash p t, ← ht, Fix.file, idText, List.append_assoc, List.cons_append]
  exact (takeWhile_idText hf _).symm

/-- A version and a number fit the one file that has them. -/
theorem fits_idText_iff {e : Id} {f : Fix} (he : '-' ∉ e.1 ∧ '-' ∉ e.2)
    (hf : '-' ∉ f.version ∧ '-' ∉ f.number) : fits (idText e) f = true ↔ f.id = e := by
  obtain ⟨v, n⟩ := e
  constructor
  · intro h
    obtain ⟨t, ht⟩ := fits_eq_true h
    have hsplit := congrArg (List.splitOn '-') ht
    rw [Fix.file, Fix.id, splitOn_idText hf.1 hf.2, splitOn_idText he.1 he.2, List.cons_eq_cons,
      List.cons_eq_cons] at hsplit
    rw [Fix.id, hsplit.1, hsplit.2.1]
  · intro h
    have hfile : f.file = idText (v, n) ++ ['-'] ++ (f.description ++ ".fix".toList) := by
      rw [Fix.file, h, List.append_assoc]
      rfl
    have hdrop : f.file.drop ((idText (v, n)).length + 1) = f.description ++ ".fix".toList := by
      rw [hfile]
      exact List.drop_left' (by rw [List.length_append, List.length_singleton])
    rw [fits, Bool.and_eq_true, List.isPrefixOf_iff_prefix, List.isSuffixOf_iff_suffix, hdrop,
      hfile]
    exact ⟨List.prefix_append _ _, List.suffix_append _ _⟩

namespace Fixes

variable {dir : Fixes}

/-! ## What an argument stands for -/

theorem dash_notMem_file {f : Fix} (hf : f ∈ dir.files) : '-' ∉ f.version ∧ '-' ∉ f.number := by
  obtain ⟨hversion, hnumber⟩ := dir.named.2 f hf f.id List.mem_cons_self
  exact ⟨dash_notMem_version hversion, dash_notMem_number hnumber⟩

theorem named_of_mem_require {f : Fix} (hf : f ∈ dir.files) {e : Id} (he : e ∈ f.require) :
    isVersion e.1 = true ∧ isNumber e.2 = true :=
  dir.named.2 f hf e (List.mem_cons_of_mem _ he)

theorem eq_of_id_eq {f g : Fix} (hf : f ∈ dir.files) (hg : g ∈ dir.files) (h : f.id = g.id) :
    f = g :=
  List.inj_on_of_nodup_map dir.nodup hf hg h

/-- The files that fit a version and a number. -/
theorem filter_fits {e : Id} (he : isVersion e.1 = true ∧ isNumber e.2 = true) {f : Fix}
    (hf : f ∈ dir.files) (hid : f.id = e) : dir.files.filter (fits (idText e)) = [f] := by
  have hdash := And.intro (dash_notMem_version he.1) (dash_notMem_number he.2)
  have hmem : ∀ g, g ∈ dir.files.filter (fits (idText e)) ↔ g = f := by
    intro g
    rw [List.mem_filter]
    constructor
    · rintro ⟨hg, hfits⟩
      rw [fits_idText_iff hdash (dash_notMem_file hg)] at hfits
      exact eq_of_id_eq hg hf (hfits.trans hid.symm)
    · rintro rfl
      exact ⟨hf, (fits_idText_iff hdash (dash_notMem_file hf)).mpr hid⟩
  have hnodup : (dir.files.filter (fits (idText e))).Nodup :=
    dir.nodup.of_map.filter _
  exact List.perm_singleton.mp ((List.perm_ext_iff_of_nodup hnodup (List.nodup_singleton f)).mpr
    fun g => by rw [hmem, List.mem_singleton])

theorem include_some {arg : Text} {f : Fix} (h : dir.include_ arg = some f) :
    f ∈ dir.files ∧ f.version = dir.version := by
  have hmem := List.mem_filter.mp (List.mem_of_mem_head? h)
  refine ⟨hmem.1, ?_⟩
  rw [version_of_fits (dash_notMem_file hmem.1).1 hmem.2]
  split
  · assumption
  · exact takeWhile_idText (dash_notMem_version dir.named.1) arg

/-- A fix of the current version is found by its version and number, and by its number. -/
theorem include_idText {e : Id} (he : isVersion e.1 = true ∧ isNumber e.2 = true)
    (hversion : e.1 = dir.version) {f : Fix} (hf : f ∈ dir.files) (hid : f.id = e) :
    dir.include_ (idText e) = some f := by
  have htake : (idText e).takeWhile (· ≠ '-') = dir.version := by
    rw [idText, hversion]
    exact takeWhile_idText (dash_notMem_version dir.named.1) e.2
  rw [include_, if_pos htake, filter_fits he hf hid]
  rfl

theorem include_number {n : Text} (hn : isNumber n = true) :
    dir.include_ n = (dir.files.filter (fits (idText (dir.version, n)))).head? := by
  have htake : n.takeWhile (· ≠ '-') = n :=
    List.takeWhile_eq_self_iff.mpr fun c hc => decide_eq_true fun h =>
      dash_notMem_number hn (h ▸ hc)
  rw [include_, htake, if_neg (ne_number_of_isVersion dir.named.1 hn).symm]
  rfl

theorem status_number {n : Text} (hn : isNumber n = true) (σ : State) :
    dir.status n σ = true ↔
      (∃ f ∈ dir.files, f.id = (dir.version, n)) ∧ σ (dir.version, n) = true := by
  rw [status, include_number hn]
  have he : isVersion (dir.version, n).1 = true ∧ isNumber (dir.version, n).2 = true :=
    ⟨dir.named.1, hn⟩
  constructor
  · intro h
    split at h
    · exact absurd h Bool.false_ne_true
    · rename_i f hhead
      have hmem := List.mem_filter.mp (List.mem_of_mem_head? hhead)
      have hid := (fits_idText_iff ⟨dash_notMem_version he.1, dash_notMem_number he.2⟩
        (dash_notMem_file hmem.1)).mp hmem.2
      exact ⟨⟨f, hmem.1, hid⟩, hid ▸ h⟩
  · rintro ⟨⟨f, hf, hid⟩, hσ⟩
    rw [filter_fits he hf hid]
    show σ f.id = true
    rw [hid]
    exact hσ

/-- A fix of another version is not found. -/
theorem include_other {e : Id} (he : isVersion e.1 = true ∧ isNumber e.2 = true)
    (hversion : e.1 ≠ dir.version) : dir.include_ (idText e) = none := by
  have htake : (idText e).takeWhile (· ≠ '-') = e.1 :=
    takeWhile_idText (dash_notMem_version he.1) e.2
  rw [include_, htake, if_neg hversion, List.head?_eq_none_iff, List.filter_eq_nil_iff]
  intro f hf hfits
  -- the version would be the number of the file
  obtain ⟨t, ht⟩ := fits_eq_true hfits
  have hfile := dir.named.2 f hf f.id List.mem_cons_self
  have hsplit := congrArg (List.splitOn '-') ht
  have htail : dir.version ++ '-' :: idText e ++ '-' :: t =
      idText (dir.version, e.1) ++ '-' :: (e.2 ++ '-' :: t) := by
    simp only [idText, List.append_assoc, List.cons_append]
  rw [htail, Fix.file, Fix.id, splitOn_idText (dash_notMem_file hf).1 (dash_notMem_file hf).2,
    splitOn_idText (dash_notMem_version dir.named.1) (dash_notMem_version he.1),
    List.cons_eq_cons, List.cons_eq_cons] at hsplit
  exact ne_number_of_isVersion he.1 hfile.2 hsplit.2.1.symm

/-- A version and a number stand for no fix but theirs. -/
theorem id_of_include {e : Id} (he : isVersion e.1 = true ∧ isNumber e.2 = true) {f : Fix}
    (h : dir.include_ (idText e) = some f) : f.id = e := by
  by_cases hversion : e.1 = dir.version
  · have htake : (idText e).takeWhile (· ≠ '-') = dir.version := by
      rw [← hversion]
      exact takeWhile_idText (dash_notMem_version he.1) e.2
    rw [include_, if_pos htake] at h
    have hmem := List.mem_filter.mp (List.mem_of_mem_head? h)
    exact (fits_idText_iff ⟨dash_notMem_version he.1, dash_notMem_number he.2⟩
      (dash_notMem_file hmem.1)).mp hmem.2
  · rw [include_other he hversion] at h
    exact absurd h (Option.some_ne_none f).symm

/-- `depends` asks for the number of the first file. -/
theorem cutSecond_join {f : Fix} (hf : f ∈ dir.files) (fs : List Fix) :
    cutSecond (join ((f :: fs).map Fix.file)) = f.number := by
  obtain ⟨hversion, hnumber⟩ := dash_notMem_file hf
  obtain ⟨t, ht⟩ := prefix_join f.file (fs.map Fix.file)
  rw [List.map_cons, ← ht, Fix.file, Fix.id, List.append_assoc, List.cons_append, cutSecond,
    splitOn_idText hversion hnumber]
  rfl

/-- A rollback is refused when the fix with the number of the first file that `grep` finds is
applied. -/
theorem depends_iff {f : Fix} (σ : State) :
    dir.depends f σ = true ↔ ∃ d, (dir.dependants f).head? = some d ∧
      (∃ g ∈ dir.files, g.id = (dir.version, d.number)) ∧ σ (dir.version, d.number) = true := by
  rw [depends]
  cases hdep : dir.dependants f with
  | nil => simp
  | cons d ds =>
      have hd : d ∈ dir.files :=
        (List.mem_filter.mp (hdep ▸ List.mem_cons_self : d ∈ dir.dependants f)).1
      have hnumber : isNumber d.number = true := (dir.named.2 d hd d.id List.mem_cons_self).2
      rw [if_neg (List.cons_ne_nil d ds), cutSecond_join hd ds, status_number hnumber]
      simp

end Fixes

end AltF.Fixup
