/-
  Packages/Status.lean --- the status files of ipkg, and what /usr/bin/ipkg puts back into one
  when a package is removed that is in the firmware too.

  The stanza is printed by a range of sed, which begins at any line with the name in it, whatever
  follows the name.
-/
import AltF.Foundation.Decimal
import AltF.SysFiles.Patterns
import AltF.SysFiles.Ranges

set_option autoImplicit false

namespace AltF.Packages

open AltF.Foundation AltF.SysFiles

/-! ## Status files -/

/-- A character of a package's name. -/
def isPackageChar (c : Char) : Bool := c.isAlphanum || "+-._".toList.contains c

/-- `Package: ` -/
def packageTag : Text := "Package: ".toList

/-- What a status file says about a package. -/
structure Stanza where
  name : Text
  /-- the lines behind the first -/
  fields : List Text
  deriving DecidableEq

namespace Stanza

def lines (s : Stanza) : List Text := (packageTag ++ s.name) :: s.fields

structure Valid (s : Stanza) : Prop where
  name : s.name ≠ [] ∧ s.name.all isPackageChar = true
  /-- a blank line ends the stanza -/
  fields : ∀ l ∈ s.fields, l ≠ []

/-- No line of a stanza is blank. -/
theorem Valid.solid {s : Stanza} (h : s.Valid) : ∀ l ∈ s.lines, l.isEmpty = false := by
  intro l hl
  rw [List.isEmpty_eq_false_iff]
  rcases List.mem_cons.mp hl with rfl | hl
  · exact List.cons_ne_nil _ _
  · exact h.fields l hl

end Stanza

/-- Stanzas with a blank line behind each, or behind each but the last. -/
structure StatusFile where
  stanzas : List Stanza
  ended : Bool
  valid : ∀ s ∈ stanzas, s.Valid

/-- The lines of a stanza in a file, where it is the last or not. -/
def StatusFile.block (f : StatusFile) (s : Stanza) (last : Bool) : List Text :=
  if last && !f.ended then s.lines else s.lines ++ [[]]

def StatusFile.linesOf (f : StatusFile) : List Stanza → List Text
  | [] => []
  | s :: ss => f.block s ss.isEmpty ++ f.linesOf ss

def StatusFile.lines (f : StatusFile) : List Text := f.linesOf f.stanzas

/-! ### Ranges of stanzas -/

namespace StatusFile

variable (f : StatusFile) (start : Text → Bool)

/-- What a range to a blank line prints of each stanza. -/
def printed : List Stanza → List Text
  | [] => []
  | s :: ss => printedOf start (f.block s ss.isEmpty) ++ printed ss

variable {f start}

theorem sedPrint_linesOf (hstart : start [] = false) {ss : List Stanza}
    (hss : ∀ s ∈ ss, s.Valid) :
    sedPrint start List.isEmpty false (f.linesOf ss) = f.printed start ss := by
  induction ss with
  | nil => rfl
  | cons s ss ih =>
      have hlines := (hss s List.mem_cons_self).solid
      rw [linesOf, printed, ← ih fun s' hs' => hss s' (List.mem_cons_of_mem s hs'), block]
      split
      · rename_i hlast
        have hnil : ss = [] := by
          rw [Bool.and_eq_true, List.isEmpty_iff] at hlast
          exact hlast.1
        rw [hnil, linesOf, List.append_nil, sedPrint_last hlines, sedPrint, List.append_nil]
      · rw [List.append_assoc, List.singleton_append, sedPrint_block hlines rfl hstart]

theorem printed_append {rest : List Stanza} (hrest : rest ≠ []) (front : List Stanza) :
    f.printed start (front ++ rest) =
      front.flatMap (fun s => printedOf start (f.block s false)) ++ f.printed start rest := by
  induction front with
  | nil => rfl
  | cons s front ih =>
      have hmore : (front ++ rest).isEmpty = false :=
        List.isEmpty_eq_false_iff.mpr (List.append_ne_nil_of_right_ne_nil front hrest)
      rw [List.cons_append, printed, ih, hmore, List.flatMap_cons, List.append_assoc]

theorem mem_block {s : Stanza} {last : Bool} {l : Text} (hl : l ∈ f.block s last) :
    l ∈ s.lines ∨ l = [] := by
  rw [block] at hl
  split at hl
  · exact Or.inl hl
  · exact (List.mem_append.mp hl).imp_right List.mem_singleton.mp

theorem mem_block_of_mem {s : Stanza} {l : Text} (hl : l ∈ s.lines) (last : Bool) :
    l ∈ f.block s last := by
  rw [block]
  split
  · exact hl
  · exact List.mem_append_left _ hl

theorem mem_linesOf {ss : List Stanza} {s : Stanza} {l : Text} (hs : s ∈ ss) (hl : l ∈ s.lines) :
    l ∈ f.linesOf ss := by
  induction ss with
  | nil => cases hs
  | cons s' ss ih =>
      rw [linesOf]
      rcases List.mem_cons.mp hs with rfl | hs
      · exact List.mem_append_left _ (mem_block_of_mem hl _)
      · exact List.mem_append_right _ (ih hs)

/-- Nothing is printed exactly of a stanza in which no range begins. -/
theorem printedOf_block_eq_nil_iff (hstart : start [] = false) {s : Stanza} {last : Bool} :
    printedOf start (f.block s last) = [] ↔ ∀ l ∈ s.lines, start l = false := by
  rw [printedOf_eq_nil_iff]
  refine ⟨fun h l hl => h l (mem_block_of_mem hl last), fun h l hl => ?_⟩
  rcases mem_block hl with hl | rfl
  · exact h l hl
  · exact hstart

theorem printed_eq_nil_iff (hstart : start [] = false) {ss : List Stanza} :
    f.printed start ss = [] ↔ ∀ s ∈ ss, ∀ l ∈ s.lines, start l = false := by
  induction ss with
  | nil => exact iff_of_true rfl nofun
  | cons s ss ih =>
      rw [printed, List.append_eq_nil_iff, ih, printedOf_block_eq_nil_iff hstart,
        List.forall_mem_cons]

end StatusFile

/-! ## Removal -/

/-- A pattern that a whole text matches. -/
def dotMatch (p t : Text) : Bool := dotPrefix p t && p.length == t.length

/-- `grep -q "Package:[[:space:]]*$pkg$"`, on a line. -/
def preinstalled (pkg l : Text) : Bool :=
  l.tails.any fun t => "Package:".toList.isPrefixOf t && (List.range (t.length + 1)).any fun n =>
    ((t.drop 8).take n).all isSpace && dotMatch pkg ((t.drop 8).drop n)

/-- What `ipkg remove` appends to the status file, of the lines of /etc/preinst.status. -/
def putBack (pkg : Text) (preinst : List Text) : List Text :=
  if pkg ≠ [] ∧ preinst.any (preinstalled pkg) then
    sedPrint (dotInfix (packageTag ++ pkg)) List.isEmpty false preinst
  else []

/-- /etc/preinst.status: one stanza for each package. -/
structure Preinst extends StatusFile where
  distinct : (stanzas.map Stanza.name).Nodup

/-- The stanza of the package, and nothing else. -/
def Preinst.PutsBack (f : Preinst) (pkg : Text) : Prop :=
  ∃ front s behind, f.stanzas = front ++ s :: behind ∧ s.name = pkg ∧
    putBack pkg f.lines = f.block s behind.isEmpty

/-- The condition: no other package has a line with `Package: ` and the name in it, in which a
dot of the name may be any character. -/
def Preinst.Alone (f : Preinst) (pkg : Text) : Prop :=
  ∀ s ∈ f.stanzas, s.name ≠ pkg → ∀ l ∈ s.lines, dotInfix (packageTag ++ pkg) l = false

section Removal

variable {f : Preinst} {pkg : Text}

theorem dotMatch_self (p : Text) : dotMatch p p = true := by
  have hprefix := dotPrefix_append p []
  rw [List.append_nil] at hprefix
  rw [dotMatch, hprefix, beq_self_eq_true]
  rfl

theorem preinstalled_self (pkg : Text) : preinstalled pkg (packageTag ++ pkg) = true := by
  rw [preinstalled, List.any_eq_true]
  refine ⟨packageTag ++ pkg, (List.mem_tails _ _).mpr (List.suffix_refl _), ?_⟩
  rw [Bool.and_eq_true, List.any_eq_true]
  -- one blank behind the colon
  refine ⟨rfl, 1, List.mem_range.mpr (Nat.succ_lt_succ (Nat.succ_pos _)), ?_⟩
  rw [Bool.and_eq_true]
  exact ⟨rfl, dotMatch_self pkg⟩

theorem dotInfix_self (p : Text) : dotInfix p p = true := by
  have hprefix := dotPrefix_append p []
  rw [List.append_nil] at hprefix
  exact List.any_eq_true.mpr ⟨p, (List.mem_tails _ _).mpr (List.suffix_refl _), hprefix⟩

/-- What is appended for a package, at its place in the file. -/
theorem Preinst.putBack_eq (hpkg : pkg ≠ []) {front behind : List Stanza} {s : Stanza}
    (hf : f.stanzas = front ++ s :: behind) (hs : s.name = pkg) :
    putBack pkg f.lines =
      front.flatMap (fun s => printedOf (dotInfix (packageTag ++ pkg)) (f.block s false)) ++
        (f.block s behind.isEmpty ++ f.printed (dotInfix (packageTag ++ pkg)) behind) := by
  have hfound : f.lines.any (preinstalled pkg) = true := by
    refine List.any_eq_true.mpr ⟨packageTag ++ pkg, ?_, preinstalled_self pkg⟩
    refine StatusFile.mem_linesOf (s := s) ?_ (hs ▸ List.mem_cons_self)
    rw [hf]
    exact List.mem_append_right _ List.mem_cons_self
  have hblock : printedOf (dotInfix (packageTag ++ pkg)) (f.block s behind.isEmpty) =
      f.block s behind.isEmpty := by
    have hfirst : dotInfix (packageTag ++ pkg) (packageTag ++ s.name) = true :=
      hs ▸ dotInfix_self _
    unfold StatusFile.block Stanza.lines
    split
    · exact printedOf_cons hfirst _
    · exact printedOf_cons hfirst _
  have hstart : dotInfix (packageTag ++ pkg) [] = false := rfl
  rw [putBack, if_pos ⟨hpkg, hfound⟩, StatusFile.lines, StatusFile.sedPrint_linesOf hstart f.valid,
    hf, StatusFile.printed_append (List.cons_ne_nil _ _), StatusFile.printed, hblock]

/-- **Only the package itself** is put back, exactly when it is alone. -/
theorem Preinst.putsBack_iff (f : Preinst) {pkg : Text}
    (hpkg : pkg ∈ f.stanzas.map Stanza.name) : f.PutsBack pkg ↔ f.Alone pkg := by
  have hstart : dotInfix (packageTag ++ pkg) [] = false := rfl
  have hne : pkg ≠ [] := by
    obtain ⟨s, hs, rfl⟩ := List.mem_map.mp hpkg
    exact (f.valid s hs).name.1
  constructor
  · rintro ⟨front, s, behind, hf, hs, hput⟩
    rw [putBack_eq hne hf hs] at hput
    -- what is printed in front and behind is empty, for the block is the whole
    have hlength := congrArg List.length hput
    rw [List.length_append, List.length_append] at hlength
    have hfront := List.length_eq_zero_iff.mp (by omega :
      (front.flatMap fun s => printedOf (dotInfix (packageTag ++ pkg)) (f.block s false)).length
        = 0)
    have hbehind := List.length_eq_zero_iff.mp
      (by omega : (f.printed (dotInfix (packageTag ++ pkg)) behind).length = 0)
    intro s' hs' hother
    rw [hf, List.mem_append, List.mem_cons] at hs'
    rcases hs' with hs' | rfl | hs'
    · exact (StatusFile.printedOf_block_eq_nil_iff hstart).mp
        (List.flatMap_eq_nil_iff.mp hfront s' hs')
    · exact absurd hs hother
    · exact (StatusFile.printed_eq_nil_iff hstart).mp hbehind s' hs'
  · intro halone
    obtain ⟨s, hs, rfl⟩ := List.mem_map.mp hpkg
    obtain ⟨front, behind, hf⟩ := List.append_of_mem hs
    have hdistinct := f.distinct
    rw [hf, List.map_append, List.map_cons, List.perm_middle.nodup_iff, ← List.map_append,
      List.nodup_cons] at hdistinct
    have hothers : ∀ s' ∈ front ++ behind, ∀ l ∈ s'.lines,
        dotInfix (packageTag ++ s.name) l = false := by
      intro s' hs'
      refine halone s' ?_ fun h => hdistinct.1 (h ▸ List.mem_map_of_mem hs')
      rw [hf, List.mem_append, List.mem_cons]
      exact (List.mem_append.mp hs').imp_right Or.inr
    have hfront : front.flatMap (fun s' =>
        printedOf (dotInfix (packageTag ++ s.name)) (f.block s' false)) = [] :=
      List.flatMap_eq_nil_iff.mpr fun s' hs' =>
        (StatusFile.printedOf_block_eq_nil_iff hstart).mpr
          (hothers s' (List.mem_append_left _ hs'))
    have hbehind : f.printed (dotInfix (packageTag ++ s.name)) behind = [] :=
      (StatusFile.printed_eq_nil_iff hstart).mpr fun s' hs' =>
        hothers s' (List.mem_append_right _ hs')
    refine ⟨front, s, behind, hf, rfl, ?_⟩
    rw [putBack_eq hne hf rfl, hfront, hbehind, List.nil_append, List.append_nil]

end Removal

/-- A stanza of two lines. -/
def smallStanza (name version : Text) : Stanza := ⟨name, ["Version: ".toList ++ version]⟩

/-- samba and its documentation. -/
def sambaPreinst : Preinst where
  stanzas := [smallStanza "samba".toList "3.5.22".toList,
    smallStanza "samba-doc".toList "3.5.22".toList]
  ended := true
  valid := by
    intro s hs
    rcases List.mem_pair.mp hs with rfl | rfl
    · exact ⟨by decide, by decide⟩
    · exact ⟨by decide, by decide⟩
  distinct := by decide

/-- The documentation is put back alone. -/
theorem putsBack_sambaDoc : sambaPreinst.PutsBack "samba-doc".toList :=
  (sambaPreinst.putsBack_iff (by decide)).mpr (by unfold Preinst.Alone; decide +kernel)

/-- With samba it comes too. -/
theorem not_putsBack_samba : ¬ ∀ (f : Preinst) (pkg : Text), pkg ∈ f.stanzas.map Stanza.name →
    f.PutsBack pkg := by
  intro h
  obtain ⟨front, s, behind, hf, -, hput⟩ := h sambaPreinst "samba".toList (by decide)
  have hs : s ∈ sambaPreinst.stanzas := by
    rw [hf]
    exact List.mem_append_right _ List.mem_cons_self
  have hboth : (putBack "samba".toList sambaPreinst.lines).length = 6 := by decide +kernel
  have hblock : ∀ s ∈ sambaPreinst.stanzas, ∀ last,
      (sambaPreinst.block s last).length = 3 := by
    decide
  rw [hput, hblock s hs] at hboth
  exact absurd hboth (by decide)

end AltF.Packages
