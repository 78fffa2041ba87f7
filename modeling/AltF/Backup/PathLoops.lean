/-
  Backup/PathLoops.lean --- the loops of the backup script that go up a path with `dirname`.

  `ftp_http_backup` goes up to `.` and counts the turns, `rsync_backup` goes up to the first
  name, and `validate` up to a mount point.  `IFS` is `;` since `details`: a path that is not
  quoted is one word, if it is no pattern.
-/
import AltF.Backup.Rotation
import AltF.Foundation.Loops
import AltF.Shell.Words
import AltF.SysFiles.Paths

set_option autoImplicit false

namespace AltF.Backup

open AltF.Foundation AltF.Shell AltF.SysFiles

/-! ## The script's surroundings -/

/-- The files that patterns match, and the mount points. -/
structure World where
  glob : Text → List Text
  globs : Globs glob
  /-- A pattern that matches no file stays. -/
  found : ∀ w, glob w ≠ []
  distinct : ∀ w, (glob w).Nodup
  /-- A pattern is matched name by name. -/
  shape : ∀ w, ∀ r ∈ glob w, (pathNames r).length = (pathNames w).length ∧
    (r.head? = some '/' ↔ w.head? = some '/')
  mountpoint : Text → Bool
  root : mountpoint ['/'] = true

/-- `srcpath` of a line of backup.conf. -/
structure SourcePath where
  text : Text
  ne : text ≠ []
  field : ';' ∉ text ∧ '\n' ∉ text

/-- The fields of a text, for `IFS=";"`: an empty one at the end is none. -/
def fieldsOf (t : Text) : List Text :=
  if (t.splitOn ';').getLast? = some [] then (t.splitOn ';').dropLast else t.splitOn ';'

/-- `dirname` with arguments: it takes one. -/
def dirnameOf : List Text → Text
  | [p] => dirname p
  | _ => []

namespace World

variable (w : World)

/-- The words of an expansion that is not quoted. -/
def expand (t : Text) : List Text := (fieldsOf t).flatMap w.glob

/-- `$(dirname $p)` -/
def up (p : Text) : Text := dirnameOf (w.expand p)

/-! ## The loops -/

/-- `test "$bs" != '.'`, with `bs` and `dcnt` -/
def ftpTest (s : Text × Nat) : Bool := s.1 ≠ dot

/-- `bs=$(dirname $bs); dcnt=$((dcnt+1))` -/
def ftpTurn (s : Text × Nat) : Text × Nat := (w.up s.1, s.2 + 1)

/-- `test $(dirname $mod) != .`: it fails but for one word. -/
def rsyncTest (mod : Text) : Bool :=
  match w.expand (w.up mod) with
  | [d] => d ≠ dot
  | _ => false

/-- `! mountpoint -q "$tmp"` -/
def validateTest (tmp : Text) : Bool := !w.mountpoint tmp

end World

/-- `if test "${srcpath:0:1}" = "/"; then srcpath=${srcpath:1}; fi` -/
def ftpSource (srcpath : Text) : Text := if srcpath.head? = some '/' then srcpath.tail else srcpath

/-- The loops of a backup of the type end, and `dcnt` is the number of names in the path; `dst`
is what `readlink -f` prints of the destination. -/
def PathLoopsEnd (type : BackupType) (p : SourcePath) : Prop :=
  ∀ (w : World) (dst : Text), dst.head? = some '/' →
    (∃ tmp, Ends w.validateTest dirname dst tmp) ∧
    (type.mirrors = true →
      Ends World.ftpTest w.ftpTurn (ftpSource p.text, 0) (dot, (pathNames p.text).length)) ∧
    (type = .rsync → ∃ mod, Ends w.rsyncTest w.up p.text mod)

/-- The path does not start with a slash, but for the one that FTP and HTTP take off, and then
neither holds a pattern nor starts with `.`, unless nothing but slashes, at least one, is
behind it. -/
def Walkable (type : BackupType) (p : SourcePath) : Prop :=
  (type.mirrors = true →
    ftpSource p.text ≠ [] ∧ (ftpSource p.text).head? ≠ some '/' ∧
      (∀ c ∈ p.text, isPattern c = false) ∧
      ((pathNames p.text).head? = some dot →
        ftpSource p.text ≠ dot ∧ (pathNames p.text).length = 1)) ∧
  (type = .rsync → p.text.head? ≠ some '/')

instance (type : BackupType) (p : SourcePath) : Decidable (Walkable type p) :=
  inferInstanceAs (Decidable ((_ → _) ∧ (_ → _)))

/-! ## Words -/

theorem fieldsOf_single {t : Text} (hne : t ≠ []) (h : ';' ∉ t) : fieldsOf t = [t] := by
  rw [fieldsOf, List.splitOn_eq_singleton h, if_neg (by simpa using hne)]

theorem fieldsOf_nil : fieldsOf [] = [] := rfl

section Words

variable (w : World)

/-- A text of one field and no pattern is one word. -/
theorem up_plain {p : Text} (hne : p ≠ []) (hfield : ';' ∉ p)
    (hplain : ∀ c ∈ p, isPattern c = false) : w.up p = dirname p := by
  rw [World.up, World.expand, fieldsOf_single hne hfield, List.flatMap_singleton,
    w.globs.plain hplain]
  rfl

theorem up_nil : w.up [] = [] := rfl

end Words

/-- A world without files. -/
def bareWorld : World where
  glob := noFiles
  globs := globs_noFiles
  found := fun w => List.cons_ne_nil w []
  distinct := fun w => List.nodup_singleton w
  shape := fun w r hr => by
    rw [List.mem_singleton.mp hr]
    exact ⟨rfl, Iff.rfl⟩
  mountpoint := fun p => decide (p = ['/'])
  root := rfl

/-- In a world without files every text of one field is one word. -/
theorem up_bareWorld {p : Text} (hne : p ≠ []) (hfield : ';' ∉ p) : bareWorld.up p = dirname p := by
  rw [World.up, World.expand, fieldsOf_single hne hfield]
  rfl

/-! ## `validate` -/

/-- **The loop of `validate` ends**: the root is a mount point. -/
theorem validate_ends (w : World) {dst : Text} (hdst : dst.head? = some '/') :
    ∃ tmp, Ends w.validateTest dirname dst tmp := by
  refine ends_of_measure (fun tmp => tmp.head? = some '/')
    (fun tmp => 2 * (pathNames tmp).length + if tmp = ['/'] then 0 else 1) ?_ hdst
  intro tmp htmp htest
  have hroot : tmp ≠ ['/'] := by
    rintro rfl
    rw [World.validateTest, w.root] at htest
    cases htest
  refine ⟨dirname_absolute htmp, ?_⟩
  rw [if_neg hroot]
  by_cases hstrip : stripSlashes tmp = []
  · have hne : tmp ≠ [] := by
      rintro rfl
      cases htmp
    have hnames : pathNames tmp = [] := by
      rw [← pathNames_stripSlashes, hstrip]
      rfl
    rw [dirname_of_slashes hstrip, if_neg hne, hnames]
    decide
  · rcases dirname_cases hstrip with ⟨f, hnames, ⟨hrel, -⟩ | ⟨-, hdir⟩⟩ | ⟨f, hnames, -, -, -⟩
    · exact absurd htmp hrel
    · rw [hdir, hnames, List.length_singleton]
      decide
    · rw [hnames, List.length_append, List.length_singleton]
      split <;> omega

/-! ## `ftp_http_backup` -/

/-- The number with which the loop ends. -/
def turns (q : Text) : Nat :=
  if q = dot then 0
  else if (pathNames q).head? = some dot ∧ (pathNames q).length ≠ 1 then (pathNames q).length - 1
  else (pathNames q).length

/-- A path that the shell leaves as it is. -/
def Plain (p : Text) : Prop := ';' ∉ p ∧ ∀ c ∈ p, isPattern c = false

theorem plain_dirname {p : Text} (hp : Plain p) : Plain (dirname p) := by
  constructor
  · intro hmem
    rcases mem_of_mem_dirname hmem with h | h | h
    · exact hp.1 h
    · cases h
    · cases h
  · intro c hc
    rcases mem_of_mem_dirname hc with h | rfl | rfl
    · exact hp.2 c h
    · rfl
    · rfl

/-- **The loop counts the names** of a relative path, but for a `.` in front of others. -/
theorem ftp_ends (w : World) {q : Text} (hne : q ≠ []) (hrel : q.head? ≠ some '/')
    (hplain : Plain q) (dcnt : Nat) :
    Ends World.ftpTest w.ftpTurn (q, dcnt) (dot, dcnt + turns q) := by
  induction hn : (pathNames q).length using Nat.strong_induction_on generalizing q dcnt with
  | _ n ih =>
      by_cases hdot : q = dot
      · subst hdot
        exact ends_done rfl
      have htest : World.ftpTest (q, dcnt) = true := decide_eq_true hdot
      have hturn : w.ftpTurn (q, dcnt) = (dirname q, dcnt + 1) := by
        rw [World.ftpTurn, up_plain w hne hplain.1 hplain.2]
      rw [ends_turn_iff htest, hturn]
      rcases dirname_cases (stripSlashes_ne_nil hne hrel) with
        ⟨f, hnames, ⟨-, -, hdir⟩ | ⟨habs, -⟩⟩ | ⟨f, hnames, hdirne, hhead, hlast⟩
      · have hone : turns q = 1 := by
          rw [turns, if_neg hdot, hnames]
          simp
        rw [hdir, hone]
        exact ends_done rfl
      · exact absurd habs hrel
      · have hdirrel : (dirname q).head? ≠ some '/' := hhead ▸ hrel
        have hsome : pathNames (dirname q) ≠ [] := pathNames_ne_nil hdirne hdirrel
        have hlength : (pathNames q).length = (pathNames (dirname q)).length + 1 := by
          rw [hnames, List.length_append, List.length_singleton]
        have hfirst : (pathNames q).head? = (pathNames (dirname q)).head? := by
          rw [hnames, List.head?_append_of_ne_nil _ hsome]
        have hpos : 0 < (pathNames (dirname q)).length := List.length_pos_iff.mpr hsome
        -- the folder is `.` if that is its only name
        have hdots : dirname q = dot ↔
            (pathNames (dirname q)).head? = some dot ∧ (pathNames (dirname q)).length = 1 := by
          constructor
          · intro h
            rw [h]
            exact ⟨rfl, rfl⟩
          · rintro ⟨hd, hl⟩
            obtain ⟨g, hg⟩ := List.length_eq_one_iff.mp hl
            rw [hg] at hd
            obtain rfl := Option.some.inj hd
            rcases dirname_cases (stripSlashes_ne_nil hdirne hdirrel) with
              ⟨f', hnames', ⟨-, hstrip, -⟩ | ⟨habs, -⟩⟩ | ⟨f', hnames', hne', hhead', -⟩
            · rw [stripSlashes_of_last hlast] at hstrip
              rw [hg] at hnames'
              rw [hstrip, ← (List.cons.inj hnames').1]
            · exact absurd habs hdirrel
            · have hmore := List.length_pos_iff.mpr (pathNames_ne_nil hne' (hhead' ▸ hdirrel))
              rw [hnames', List.length_append, List.length_singleton] at hl
              omega
        have hcount : turns q = turns (dirname q) + 1 := by
          unfold turns
          rw [if_neg hdot, hfirst, hlength]
          by_cases hd : (pathNames (dirname q)).head? = some dot
          · by_cases hl : (pathNames (dirname q)).length = 1
            · rw [if_pos (hdots.mpr ⟨hd, hl⟩), if_pos ⟨hd, by omega⟩, hl]
            · rw [if_neg fun h => hl (hdots.mp h).2, if_pos ⟨hd, by omega⟩, if_pos ⟨hd, hl⟩]
              omega
          · rw [if_neg fun h => hd (hdots.mp h).1, if_neg fun h => hd h.1, if_neg fun h => hd h.1]
        rw [hcount, Nat.add_comm (turns (dirname q)) 1, ← Nat.add_assoc]
        exact ih _ (by omega) hdirne hdirrel (plain_dirname hplain) (dcnt + 1) rfl

theorem pathNames_ftpSource (p : Text) : pathNames (ftpSource p) = pathNames p := by
  unfold ftpSource
  split
  · next h =>
      obtain ⟨t, rfl⟩ := List.head?_eq_some_iff.mp h
      rw [List.tail_cons]
      exact (pathNames_append [] t).symm
  · rfl

theorem ftpSource_subset {p : Text} : ∀ c ∈ ftpSource p, c ∈ p := by
  intro c hc
  unfold ftpSource at hc
  split at hc
  · exact List.mem_of_mem_tail hc
  · exact hc

/-- A text that starts with a slash, in a world without files: the loop stays at the root. -/
theorem ftp_absolute {q : Text} (hq : q.head? = some '/') (hfield : ';' ∉ q) (dcnt n : Nat) :
    ¬ Ends World.ftpTest bareWorld.ftpTurn (q, dcnt) (dot, n) := by
  refine not_ends (fun s => s.1.head? = some '/' ∧ ';' ∉ s.1) ?_ ⟨hq, hfield⟩
  rintro ⟨bs, dcnt⟩ ⟨habs, hfield⟩
  have hne : bs ≠ [] := by
    rintro rfl
    cases habs
  refine ⟨decide_eq_true ?_, ?_⟩
  · rintro rfl
    cases habs
  · rw [World.ftpTurn, up_bareWorld hne hfield]
    refine ⟨dirname_absolute habs, fun hmem => ?_⟩
    rcases mem_of_mem_dirname hmem with h | h | h
    · exact hfield h
    · cases h
    · cases h

/-- Without a word, or with two, `dirname` prints nothing, and so for ever. -/
theorem ftp_empty (w : World) (dcnt n : Nat) :
    ¬ Ends World.ftpTest w.ftpTurn ([], dcnt) (dot, n) := by
  refine not_ends (fun s => s.1 = []) ?_ rfl
  rintro ⟨bs, dcnt⟩ rfl
  exact ⟨rfl, up_nil w⟩

/-- A name with every character of a pattern replaced. -/
def replaced (c : Char) (t : Text) : Text := t.map fun d => if isPattern d then c else d

theorem pathNames_replaced {c : Char} (hc : c ≠ '/') (t : Text) :
    (pathNames (replaced c t)).length = (pathNames t).length ∧
      ((replaced c t).head? = some '/' ↔ t.head? = some '/') := by
  have hkeep : ∀ d : Char, (if isPattern d then c else d) = '/' ↔ d = '/' := by
    intro d
    split
    · next h =>
        constructor
        · exact fun heq => absurd heq hc
        · rintro rfl
          cases h
    · exact Iff.rfl
  constructor
  · induction hn : t.length using Nat.strong_induction_on generalizing t with
    | _ n ih =>
        by_cases hslash : '/' ∈ t
        · obtain ⟨a, b, rfl, ha⟩ := List.eq_append_cons_of_mem hslash
          have hlength : (a ++ '/' :: b).length = a.length + b.length + 1 := by
            rw [List.length_append, List.length_cons, Nat.add_assoc]
          have hmap : replaced c (a ++ '/' :: b) = replaced c a ++ '/' :: replaced c b := by
            simp [replaced, (hkeep '/').mpr rfl]
          rw [hmap, pathNames_append, pathNames_append, List.length_append, List.length_append,
            ih a.length (by omega) a rfl, ih b.length (by omega) b rfl]
        · by_cases hne : t = []
          · rw [hne]
            rfl
          · have hslash' : '/' ∉ replaced c t := by
              intro hmem
              obtain ⟨d, hd, heq⟩ := List.mem_map.mp hmem
              exact hslash ((hkeep d).mp heq ▸ hd)
            have hne' : replaced c t ≠ [] := fun h => hne (List.map_eq_nil_iff.mp h)
            rw [pathNames_of_notMem hne hslash, pathNames_of_notMem hne' hslash']
            rfl
  · cases t with
    | nil => exact Iff.rfl
    | cons d t =>
        rw [replaced, List.map_cons, List.head?_cons, List.head?_cons, Option.some_inj,
          Option.some_inj]
        exact hkeep d

theorem replaced_ne {t : Text} (h : ¬ ∀ c ∈ t, isPattern c = false) :
    replaced 'x' t ≠ replaced 'y' t := by
  intro heq
  refine h fun c hc => ?_
  have hsame := List.map_inj_left.mp heq c hc
  by_contra hpattern
  rw [Bool.not_eq_false] at hpattern
  simp [hpattern] at hsame

theorem any_isPattern {t : Text} :
    t.any isPattern = true ↔ ¬ ∀ c ∈ t, isPattern c = false := by
  rw [List.any_eq_true]
  simp only [not_forall, exists_prop, Bool.not_eq_false]

/-- A world in which every pattern matches two files. -/
def crowdedWorld : World where
  glob := fun t => if t.any isPattern then [replaced 'x' t, replaced 'y' t] else [t]
  globs := ⟨fun h => if_neg (mt any_isPattern.mp (not_not.mpr h))⟩
  found := fun t => by split <;> exact List.cons_ne_nil _ _
  distinct := fun t => by
    split
    · next h => simpa using replaced_ne (any_isPattern.mp h)
    · exact List.nodup_singleton t
  shape := fun t r hr => by
    split at hr
    · rcases List.mem_cons.mp hr with rfl | hr
      · exact pathNames_replaced (by decide) t
      · rw [List.mem_singleton.mp hr]
        exact pathNames_replaced (by decide) t
    · rw [List.mem_singleton.mp hr]
      exact ⟨rfl, Iff.rfl⟩
  mountpoint := fun p => decide (p = ['/'])
  root := rfl

theorem plain_dot : ∀ c ∈ dot, isPattern c = false := by
  intro c hc
  rw [List.mem_singleton.mp hc]
  rfl

/-- A pattern that matches two files. -/
theorem ftp_pattern {q : Text} (hne : q ≠ []) (hfield : ';' ∉ q)
    (hpattern : ¬ ∀ c ∈ q, isPattern c = false) (n : Nat) :
    ¬ Ends World.ftpTest crowdedWorld.ftpTurn (q, 0) (dot, n) := by
  have hdot : q ≠ dot := by
    rintro rfl
    exact hpattern plain_dot
  have hup : crowdedWorld.up q = [] := by
    rw [World.up, World.expand, fieldsOf_single hne hfield, List.flatMap_singleton, crowdedWorld]
    dsimp only
    rw [if_pos (any_isPattern.mpr hpattern)]
    rfl
  have htest : World.ftpTest (q, 0) = true := decide_eq_true hdot
  rw [ends_turn_iff htest, World.ftpTurn, hup]
  exact ftp_empty crowdedWorld 1 n

/-! ## `rsync_backup` -/

/-- The one word of a text is the text, or matched by it, but for a separator at the end. -/
theorem expand_single {w : World} {t r : Text} (h : w.expand t = [r]) :
    ∃ f, r ∈ w.glob f ∧ f <+: t := by
  have hflat : (fieldsOf t).flatMap w.glob = [r] := h
  cases hfields : fieldsOf t with
  | nil =>
      rw [hfields] at hflat
      cases hflat
  | cons f fs =>
      rw [hfields, List.flatMap_cons] at hflat
      have hlength := congrArg List.length hflat
      rw [List.length_append, List.length_singleton] at hlength
      have hfirst := List.length_pos_iff.mpr (w.found f)
      have hnil : fs = [] := by
        cases fs with
        | nil => rfl
        | cons g gs =>
            rw [List.flatMap_cons, List.length_append] at hlength
            have hsecond := List.length_pos_iff.mpr (w.found g)
            omega
      subst hnil
      refine ⟨f, ?_, ?_⟩
      · rw [List.flatMap_nil, List.append_nil] at hflat
        rw [hflat]
        exact List.mem_singleton_self r
      · -- the first field is in front of the first separator
        by_cases hsep : ';' ∈ t
        · obtain ⟨a, b, rfl, ha⟩ := List.eq_append_cons_of_mem hsep
          have hsplit : (a ++ ';' :: b).splitOn ';' = a :: b.splitOn ';' :=
            List.splitOn_append_cons_self_of_not_mem ha b
          have hf : f = a := by
            rw [fieldsOf, hsplit] at hfields
            cases hb : b.splitOn ';' with
            | nil => exact absurd hb (List.splitOn_ne_nil _ _)
            | cons c cs =>
                rw [hb] at hfields
                split at hfields
                · rw [List.dropLast_cons_cons] at hfields
                  exact (List.cons.inj hfields).1.symm
                · exact (List.cons.inj hfields).1.symm
          rw [hf]
          exact List.prefix_append a _
        · have hf : f = t := by
            rw [fieldsOf, List.splitOn_eq_singleton hsep] at hfields
            split at hfields
            · cases hfields
            · exact (List.cons.inj hfields).1.symm
          rw [hf]

/-- **The loop of `rsync_backup` ends** for a relative path, whatever files there are. -/
theorem rsync_ends (w : World) {p : Text} (hrel : p.head? ≠ some '/') :
    ∃ mod, Ends w.rsyncTest w.up p mod := by
  refine ends_of_measure (fun mod => mod.head? ≠ some '/') (fun mod => (pathNames mod).length) ?_
    hrel
  intro mod hmod htest
  have hone : ∃ d, w.expand (w.up mod) = [d] ∧ d ≠ dot := by
    unfold World.rsyncTest at htest
    split at htest
    · next d heq => exact ⟨d, heq, of_decide_eq_true htest⟩
    · cases htest
  obtain ⟨d, hd, hdot⟩ := hone
  have hnotDot : w.up mod ≠ dot := by
    intro hup
    have hword : w.expand dot = [dot] := by
      rw [World.expand, fieldsOf_single (by decide) (by decide), List.flatMap_singleton,
        w.globs.plain plain_dot]
    rw [hup, hword] at hd
    exact hdot (List.cons.inj hd).1.symm
  -- `dirname` has had one argument, or it has printed nothing
  obtain ⟨r, hr, hup⟩ : ∃ r, w.expand mod = [r] ∧ w.up mod = dirname r := by
    have hnotNil : w.up mod ≠ [] := by
      intro hnil
      rw [hnil] at hd
      cases hd
    unfold World.up at hnotNil ⊢
    cases hwords : w.expand mod with
    | nil => exact absurd (by rw [hwords]; rfl) hnotNil
    | cons r rs =>
        cases rs with
        | nil => exact ⟨r, rfl, rfl⟩
        | cons r' rs => exact absurd (by rw [hwords]; rfl) hnotNil
  obtain ⟨f, hf, hprefix⟩ := expand_single hr
  obtain ⟨hcount, hhead⟩ := w.shape f r hf
  by_cases hempty : f = []
  · -- an empty word is its own match, and its folder is `.`
    rw [hempty, w.globs.plain fun c hc => absurd hc List.not_mem_nil] at hf
    rw [List.mem_singleton.mp hf] at hup
    exact absurd hup hnotDot
  · obtain ⟨u, rfl⟩ := hprefix
    have hfrel : f.head? ≠ some '/' := by
      have hfirst : (f ++ u).head? = f.head? := List.head?_append_of_ne_nil f hempty
      exact hfirst ▸ hmod
    have hrrel : r.head? ≠ some '/' := fun h => hfrel (hhead.mp h)
    have hrne : r ≠ [] := by
      rintro rfl
      have hpos := List.length_pos_iff.mpr (pathNames_ne_nil hempty hfrel)
      rw [← hcount] at hpos
      exact Nat.lt_irrefl 0 hpos
    rw [hup]
    rcases dirname_cases (stripSlashes_ne_nil hrne hrrel) with
      ⟨g, -, ⟨-, -, hdir⟩ | ⟨habs, -⟩⟩ | ⟨g, hnames, -, hdirhead, -⟩
    · exact absurd (hup.trans hdir) hnotDot
    · exact absurd habs hrrel
    · refine ⟨hdirhead ▸ hrrel, ?_⟩
      have hle := pathNames_length_le f u
      have hlength := congrArg List.length hnames
      rw [List.length_append, List.length_singleton] at hlength
      omega

/-- The root is its own folder, and never `.`. -/
theorem rsync_absolute {p mod : Text} (hp : p.head? = some '/') (hfield : ';' ∉ p) :
    ¬ Ends bareWorld.rsyncTest bareWorld.up p mod := by
  refine not_ends (fun mod => mod.head? = some '/' ∧ ';' ∉ mod) ?_ ⟨hp, hfield⟩
  rintro mod ⟨habs, hfield⟩
  have hne : ∀ {q : Text}, q.head? = some '/' → q ≠ [] := by
    rintro q hq rfl
    cases hq
  have hdirabs := dirname_absolute habs
  have hdirfield : ';' ∉ dirname mod := by
    intro hmem
    rcases mem_of_mem_dirname hmem with h | h | h
    · exact hfield h
    · cases h
    · cases h
  have hword : bareWorld.expand (dirname mod) = [dirname mod] := by
    rw [World.expand, fieldsOf_single (hne hdirabs) hdirfield]
    rfl
  have hup := up_bareWorld (hne habs) hfield
  refine ⟨?_, hup ▸ ⟨hdirabs, hdirfield⟩⟩
  rw [World.rsyncTest, hup, hword]
  refine decide_eq_true fun hdot => ?_
  rw [hdot] at hdirabs
  cases hdirabs

/-! ## All loops -/

/-- **The path loops**: they end, and `dcnt` counts the names, exactly for the walkable paths. -/
theorem pathLoopsEnd_iff (type : BackupType) (p : SourcePath) :
    PathLoopsEnd type p ↔ Walkable type p := by
  have hnames := pathNames_ftpSource p.text
  have hfield : ';' ∉ ftpSource p.text := fun hmem => p.field.1 (ftpSource_subset _ hmem)
  constructor
  · intro h
    refine ⟨fun hmirrors => ?_, fun hrsync hhead => ?_⟩
    · have hends : ∀ w : World, Ends World.ftpTest w.ftpTurn (ftpSource p.text, 0)
          (dot, (pathNames p.text).length) := fun w => (h w ['/'] rfl).2.1 hmirrors
      have hne : ftpSource p.text ≠ [] := by
        intro hnil
        have hbare := hends bareWorld
        rw [hnil] at hbare
        exact ftp_empty bareWorld _ _ hbare
      have hrel : (ftpSource p.text).head? ≠ some '/' := fun habs =>
        ftp_absolute habs hfield _ _ (hends bareWorld)
      have hsource : ∀ c ∈ ftpSource p.text, isPattern c = false := by
        by_contra hpattern
        exact ftp_pattern hne hfield hpattern _ (hends crowdedWorld)
      have hplain : ∀ c ∈ p.text, isPattern c = false := by
        intro c hc
        by_cases hhead : p.text.head? = some '/'
        · obtain ⟨t, ht⟩ := List.head?_eq_some_iff.mp hhead
          rw [ftpSource, if_pos hhead, ht, List.tail_cons] at hsource
          rw [ht] at hc
          rcases List.mem_cons.mp hc with rfl | hc
          · rfl
          · exact hsource c hc
        · rw [ftpSource, if_neg hhead] at hsource
          exact hsource c hc
      refine ⟨hne, hrel, hplain, fun hdots => ?_⟩
      -- the loop ends with another number
      have hcount := (hends bareWorld).unique (ftp_ends bareWorld hne hrel ⟨hfield, hsource⟩ 0)
      have hturns : (pathNames p.text).length = turns (ftpSource p.text) := by
        have hsecond : (pathNames p.text).length = 0 + turns (ftpSource p.text) :=
          congrArg Prod.snd hcount
        rwa [Nat.zero_add] at hsecond
      have hpos := List.length_pos_iff.mpr (pathNames_ne_nil hne hrel)
      rw [turns, hnames] at hturns
      rw [hnames] at hpos
      by_cases hdot : ftpSource p.text = dot
      · rw [if_pos hdot] at hturns
        omega
      · refine ⟨hdot, ?_⟩
        by_contra hmany
        rw [if_neg hdot, if_pos ⟨hdots, hmany⟩] at hturns
        omega
    · obtain ⟨mod, hmod⟩ := (h bareWorld ['/'] rfl).2.2 hrsync
      exact rsync_absolute hhead p.field.1 hmod
  · intro h w dst hdst
    refine ⟨validate_ends w hdst, fun hmirrors => ?_, fun hrsync => rsync_ends w (h.2 hrsync)⟩
    obtain ⟨hne, hrel, hplain, hdots⟩ := h.1 hmirrors
    have hsource : Plain (ftpSource p.text) :=
      ⟨hfield, fun c hc => hplain c (ftpSource_subset c hc)⟩
    have hturns : turns (ftpSource p.text) = (pathNames p.text).length := by
      rw [turns, hnames]
      by_cases hfirst : (pathNames p.text).head? = some dot
      · obtain ⟨hdot, hone⟩ := hdots hfirst
        rw [if_neg hdot, if_neg fun hmany => hmany.2 hone]
      · have hdot : ftpSource p.text ≠ dot := by
          intro heq
          rw [← hnames, heq] at hfirst
          exact hfirst rfl
        rw [if_neg hdot, if_neg fun hmany => hfirst hmany.1]
    have hends := ftp_ends w hne hrel hsource 0
    rw [Nat.zero_add, hturns] at hends
    exact hends

/-- The source path `/share` of an rsync backup. -/
def sharePath : SourcePath := ⟨"/share".toList, by decide, by decide⟩

/-- An rsync backup of an absolute path goes up for ever. -/
theorem rsync_loops_forever :
    ¬ ∀ (type : BackupType) (p : SourcePath), PathLoopsEnd type p := by
  intro h
  obtain ⟨mod, hmod⟩ := (h .rsync sharePath bareWorld ['/'] rfl).2.2 rfl
  exact rsync_absolute rfl (by decide) hmod

end AltF.Backup
