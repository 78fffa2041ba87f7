/-
  Packages/Repair.lean --- /usr/bin/ipkg: `repair`, an awk program over the status file and a loop
  that sorts what it prints.

  The loop writes to a variable that the script never sets, so it does not run, and the status
  file stays as it is.
-/
import Mathlib.Data.List.Lex
import AltF.Packages.Status
import AltF.Shell.Eval
import AltF.Shell.Words
import AltF.SysFiles.Lines

set_option autoImplicit false

namespace AltF.Packages

open AltF.Shell AltF.SysFiles

/-! ## The awk program -/

/-- The variables of the program, which are also what is kept for a package. -/
structure Entry where
  nm : Text
  ver : Text
  st : Text
  arc : Text
  dep : Text
  pri : Text
  es : Text
  inst : Text
  /-- the lines of `cff` -/
  cff : List Text
  deriving DecidableEq

/-- Before the first line. -/
def Entry.unset : Entry := ⟨[], [], [], [], [], [], [], [], []⟩

/-- `$2` -/
def secondWord (l : Text) : Text := (words l).getD 1 []

/-- `substr($0, index($0, ":") + 2)`, of a line with a colon. -/
def behindColon (l : Text) : Text := (l.dropWhile (· ≠ ':')).drop 2

/-- `/Package:/` -/
def packageRule (e : Entry) (l : Text) : Entry :=
  if "Package:".toList <:+: l then
    { e with nm := secondWord l, inst := [], pri := [], dep := [], es := [], cff := [] }
  else e

/-- The rules behind that for Conffiles, but the last. -/
def fieldRules (e : Entry) (l : Text) : Entry :=
  let e := if "Version:".toList <:+: l then { e with ver := secondWord l } else e
  let e := if "Depends:".toList <:+: l then { e with dep := behindColon l } else e
  let e := if "Architecture:".toList <:+: l then { e with arc := secondWord l } else e
  let e := if "Priority:".toList <:+: l then { e with pri := secondWord l } else e
  let e := if "Essential:".toList <:+: l then { e with es := secondWord l } else e
  let e := if "Installed-Time:".toList <:+: l then { e with inst := secondWord l } else e
  if "Status:".toList <:+: l then { e with st := behindColon l } else e

/-- The variables at each blank line.  In the loop of Conffiles (`reading`) the line that ends it
is seen by the rules behind it only; at the end of the file nothing more is kept. -/
def blankLines (e : Entry) (reading : Bool) : List Text → List Entry
  | [] => []
  | l :: ls =>
      if reading && "./".toList.isPrefixOf l then
        blankLines { e with cff := e.cff ++ [l] } true ls
      else
        let e₁ := if reading then e else packageRule e l
        if !reading && decide ("Conffiles:".toList <:+: l) then blankLines e₁ true ls
        else
          let e₂ := fieldRules e₁ l
          if l = [] then e₂ :: blankLines e₂ false ls else blankLines e₂ false ls

/-- A run of the script.  Versions are in an order in which different ones may be equal. -/
structure Ipkg where
  env : Env
  /-- nothing sets it -/
  unset : env "IPK_ST".toList = []
  /-- `ipkg-cl compare_versions a "<<" b` exits with 1 -/
  lower : Text → Text → Bool
  asymm : ∀ a b, lower a b = true → lower b a = false
  between : ∀ a b c, lower a c = true → lower a b = true ∨ lower b c = true
  /-- the order of `for (i in pkg)` -/
  forIn : List Entry → List Entry
  perm : ∀ t, (forIn t).Perm t

/-- What `END` prints for a package. -/
def Entry.lines (e : Entry) : List Text :=
  let field (tag : String) (v : Text) : List Text := if v = [] then [] else [tag.toList ++ v]
  ["Package: ".toList ++ e.nm, "Version: ".toList ++ e.ver] ++ field "Depends: " e.dep ++
    field "Essential: " e.es ++ ["Architecture: ".toList ++ e.arc] ++ field "Priority: " e.pri ++
      ["Status: ".toList ++ e.st] ++ field "Installed-Time: " e.inst ++
        (if e.cff = [] then [] else "Conffiles:".toList :: e.cff) ++ [[]]

/-- `Package: $i$` -/
def dotEnds (p l : Text) : Bool := l.tails.any (dotMatch p)

/-- The loop behind the awk program. -/
def sortStanzas (po : List Text) : List Text :=
  let packages := po.filter fun l => decide ("Package:".toList <:+: l)
  let names := (TextFile.sortLines packages).map fun l =>
    if ' ' ∈ l then (l.splitOn ' ').getD 1 [] else l
  (names.flatMap words).flatMap fun i => sedPrint (dotEnds (packageTag ++ i)) List.isEmpty false po

/-- `IPKG_ST` -/
def ipkgSt : Text := "/usr/lib/ipkg/status".toList

namespace Ipkg

variable (m : Ipkg)

/-- The rule of a blank line. -/
def store (t : List Entry) (e : Entry) : List Entry :=
  if t.any fun x => x.nm == e.nm && m.lower e.ver x.ver then t
  else t.filter (fun x => x.nm ≠ e.nm) ++ [e]

def table (ls : List Text) : List Entry := (blankLines .unset false ls).foldl m.store []

/-- `repair`: the lines of the files, none of one that is not there.  A redirection to an empty
name fails, and what is redirected is not run. -/
def repair (files : Text → List Text) (rpd : Text) : Text → List Text :=
  let po := (m.forIn (m.table (files rpd))).flatMap Entry.lines
  let files := Function.update files "/tmp/po".toList po
  let files := if m.env "IPK_ST".toList = [] then files
    else Function.update files (m.env "IPK_ST".toList) (sortStanzas po)
  Function.update files "/tmp/po".toList []

end Ipkg

/-! ## Repaired files -/

def Stanza.version (s : Stanza) : Text :=
  ((s.fields.find? fun l => "Version: ".toList.isPrefixOf l).map (·.drop 9)).getD []

def StatusFile.names (f : StatusFile) : List Text := f.stanzas.map Stanza.name

/-- One stanza for each package, with the fields of one of its newest, and in the order of the
names. -/
def Ipkg.Repaired (m : Ipkg) (f : StatusFile) (out : List Text) : Prop :=
  ∃ g : StatusFile, out = g.lines ∧ g.names.Pairwise (· < ·) ∧ (∀ n, n ∈ g.names ↔ n ∈ f.names) ∧
    ∀ s ∈ g.stanzas, ∃ s' ∈ f.stanzas, s'.name = s.name ∧ s.fields.Perm s'.fields ∧
      ∀ x ∈ f.stanzas, x.name = s.name → m.lower s'.version x.version = false

/-- The stanzas in lines. -/
def stanzaBlocks (ls : List Text) : List (List Text) :=
  (ls.splitOnP List.isEmpty).filter (· ≠ [])

theorem stanzaBlocks_linesOf (f : StatusFile) {ss : List Stanza} (hss : ∀ s ∈ ss, s.Valid) :
    stanzaBlocks (f.linesOf ss) = ss.map Stanza.lines := by
  induction ss with
  | nil => rfl
  | cons s ss ih =>
      have hlines := (hss s List.mem_cons_self).solid
      have hrest := ih fun s' hs' => hss s' (List.mem_cons_of_mem s hs')
      have hself : s.lines.splitOnP List.isEmpty = [s.lines] := List.splitOnP_eq_singleton hlines
      have hne : s.lines ≠ [] := List.cons_ne_nil _ _
      rw [StatusFile.linesOf, StatusFile.block, List.map_cons]
      split
      · rename_i hlast
        have hnil : ss = [] := by
          rw [Bool.and_eq_true, List.isEmpty_iff] at hlast
          exact hlast.1
        rw [hnil, StatusFile.linesOf, List.append_nil, stanzaBlocks, hself,
          List.filter_cons_of_pos (by simpa using hne)]
        rfl
      · have hsplit : (s.lines ++ [[]] ++ f.linesOf ss).splitOnP List.isEmpty =
            s.lines :: (f.linesOf ss).splitOnP List.isEmpty := by
          rw [List.append_assoc, List.singleton_append, List.splitOnP_append_cons _ _ rfl, hself]
          rfl
        rw [← hrest, stanzaBlocks, hsplit, List.filter_cons_of_pos (by simpa using hne)]
        rfl

/-- The lines of a file say which packages are in it. -/
theorem names_of_lines {f g : StatusFile} (h : f.lines = g.lines) : f.names = g.names := by
  have hname : ∀ s : Stanza, s.name = (s.lines.headD []).drop packageTag.length := fun s => by
    rw [Stanza.lines, List.headD_cons, List.drop_left]
  have hnames : ∀ f : StatusFile, f.names =
      (stanzaBlocks f.lines).map fun b => (b.headD []).drop packageTag.length := fun f => by
    rw [StatusFile.lines, stanzaBlocks_linesOf f f.valid, List.map_map, StatusFile.names]
    exact List.map_congr_left fun s _ => hname s
  rw [hnames f, hnames g, h]

/-! ## What repair does -/

namespace Ipkg

variable (m : Ipkg)

theorem irrefl (a : Text) : m.lower a a = false := by
  cases h : m.lower a a with
  | false => rfl
  | true => exact h.symm.trans (m.asymm a a h)

/-- Nothing is written to the status file. -/
theorem repair_status (files : Text → List Text) (rpd : Text) :
    m.repair files rpd ipkgSt = files ipkgSt := by
  have hpo : ipkgSt ≠ "/tmp/po".toList := by decide +kernel
  rw [repair, if_pos m.unset, Function.update_of_ne hpo, Function.update_of_ne hpo]

/-- **Repair** leaves a repaired file exactly where it finds one. -/
theorem repair_repaired_iff (f : StatusFile) (files : Text → List Text) :
    m.Repaired f (m.repair (Function.update files ipkgSt f.lines) ipkgSt ipkgSt) ↔
      f.names.Pairwise (· < ·) := by
  rw [repair_status, Function.update_self]
  constructor
  · rintro ⟨g, hlines, hsorted, -, -⟩
    rwa [names_of_lines hlines]
  · intro hsorted
    refine ⟨f, rfl, hsorted, fun _ => Iff.rfl, fun s hs => ⟨s, hs, rfl, List.Perm.refl _, ?_⟩⟩
    intro x hx hname
    have hdistinct : f.names.Nodup := hsorted.imp fun h => ne_of_lt h
    rw [List.inj_on_of_nodup_map hdistinct hx hs hname]
    exact m.irrefl _

/-! ## The newest of each package -/

/-- The last of several stanzas of a package is kept unless it is lower. -/
theorem mem_store {t : List Entry} {e x : Entry} (hx : x ∈ m.store t e) : x ∈ t ∨ x = e := by
  rw [store] at hx
  split at hx
  · exact Or.inl hx
  · rcases List.mem_append.mp hx with hx | hx
    · exact Or.inl (List.mem_filter.mp hx).1
    · exact Or.inr (List.mem_singleton.mp hx)

theorem store_nodup {t : List Entry} (ht : (t.map Entry.nm).Nodup) (e : Entry) :
    ((m.store t e).map Entry.nm).Nodup := by
  rw [store]
  split
  · exact ht
  · rw [List.map_append, List.nodup_append]
    refine ⟨ht.sublist (List.filter_sublist.map _), List.nodup_singleton _, ?_⟩
    intro n hn n' hn'
    obtain ⟨x, hx, rfl⟩ := List.mem_map.mp hn
    rw [List.map_singleton, List.mem_singleton] at hn'
    rw [hn']
    exact of_decide_eq_true (List.mem_filter.mp hx).2

/-- What a table has for a package is not lower than any version it was given. -/
def Newest (t es : List Entry) : Prop :=
  ∀ e ∈ es, ∃ x ∈ t, x.nm = e.nm ∧ m.lower x.ver e.ver = false

theorem Newest.store {m : Ipkg} {t es : List Entry} (h : m.Newest t es) (e : Entry) :
    m.Newest (m.store t e) (es ++ [e]) := by
  intro y hy
  rw [Ipkg.store]
  split
  · rename_i hlower
    rcases List.mem_append.mp hy with hy | hy
    · exact h y hy
    · -- the entry that is kept is the higher one
      obtain ⟨x, hx, hkept⟩ := List.any_eq_true.mp hlower
      rw [Bool.and_eq_true, beq_iff_eq] at hkept
      rw [List.mem_singleton.mp hy]
      exact ⟨x, hx, hkept.1, m.asymm _ _ hkept.2⟩
  · rename_i hlower
    have hlast : e ∈ t.filter (fun x => x.nm ≠ e.nm) ++ [e] :=
      List.mem_append_right _ List.mem_cons_self
    rcases List.mem_append.mp hy with hy | hy
    · obtain ⟨x, hx, hname, hnot⟩ := h y hy
      by_cases hsame : x.nm = e.nm
      · refine ⟨e, hlast, hsame.symm.trans hname, ?_⟩
        cases hey : m.lower e.ver y.ver with
        | false => rfl
        | true =>
            rcases m.between e.ver x.ver y.ver hey with hex | hxy
            · refine absurd (List.any_eq_true.mpr ⟨x, hx, ?_⟩) hlower
              rw [Bool.and_eq_true, beq_iff_eq]
              exact ⟨hsame, hex⟩
            · exact hxy.symm.trans hnot
      · exact ⟨x, List.mem_append_left _ (List.mem_filter.mpr ⟨hx, decide_eq_true hsame⟩), hname,
          hnot⟩
    · rw [List.mem_singleton.mp hy]
      exact ⟨e, hlast, rfl, m.irrefl _⟩

/-- **The newest** of each package is in the table, once, and it is one of the stanzas. -/
theorem table_newest (ls : List Text) :
    ((m.table ls).map Entry.nm).Nodup ∧ m.Newest (m.table ls) (blankLines .unset false ls) ∧
      ∀ x ∈ m.table ls, x ∈ blankLines .unset false ls := by
  unfold table
  induction blankLines .unset false ls using List.reverseRecOn with
  | nil => exact ⟨List.nodup_nil, nofun, nofun⟩
  | append_singleton es e ih =>
      obtain ⟨hnodup, hnewest, hmem⟩ := ih
      rw [List.foldl_append, List.foldl_cons, List.foldl_nil]
      refine ⟨m.store_nodup hnodup e, hnewest.store e, fun x hx => List.mem_append.mpr ?_⟩
      exact (m.mem_store hx).imp (hmem x) List.mem_singleton.mpr

end Ipkg

/-! ## Two versions of a package -/

/-- Versions in the order of their characters. -/
def plainIpkg : Ipkg where
  env := fun _ => []
  unset := rfl
  lower := fun a b => decide (a < b)
  asymm := fun a b h => decide_eq_false (lt_asymm (of_decide_eq_true h))
  between := fun a b c h => by
    rw [decide_eq_true_iff, decide_eq_true_iff]
    exact (lt_or_ge a b).imp_right fun hba => lt_of_le_of_lt hba (of_decide_eq_true h)
  forIn := id
  perm := fun t => List.Perm.refl t

/-- samba, before and after an upgrade. -/
def sambaTwice : StatusFile where
  stanzas := [smallStanza "samba".toList "3.5.22".toList,
    smallStanza "samba".toList "3.6.25".toList]
  ended := true
  valid := by
    intro s hs
    rcases List.mem_pair.mp hs with rfl | rfl
    · exact ⟨by decide, by decide⟩
    · exact ⟨by decide, by decide⟩

/-- Both are still there after the repair. -/
theorem not_repaired_sambaTwice : ¬ ∀ (m : Ipkg) (f : StatusFile) (files : Text → List Text),
    m.Repaired f (m.repair (Function.update files ipkgSt f.lines) ipkgSt ipkgSt) := by
  intro h
  obtain ⟨g, hlines, hsorted, -, -⟩ := h plainIpkg sambaTwice fun _ => []
  rw [Ipkg.repair_status, Function.update_self] at hlines
  rw [← names_of_lines hlines] at hsorted
  exact absurd hsorted (by decide)

end AltF.Packages
