/-
  Cgi/RmountKept.lean --- what becomes of the remote mounts when their page is opened and
  submitted as it is.

  The lines with a blank on both sides of `nfs` or `cifs` are deleted, and those of the rows
  are written, which have only the fields of the form.  A mount survives where its line is of
  both kinds.
-/
import AltF.Cgi.RejectedForms
import AltF.Cgi.RmountPage

set_option autoImplicit false

namespace AltF.Cgi.RmountPage

open AltF.Shell AltF.SysFiles AltF.Cgi.Etc

/-! ## Rows -/

/-- A text of a row that arrives as it is. -/
structure Sendable (m : Box) (t : Text) : Prop where
  ascii : t.all isAscii = true
  option : isEchoOption t = false
  unread : ¬ (isRead t = true ∨ t ∈ neededNames)
  kept : m.glob (urlencode t) = [urlencode t]

/-- `rhost:rdir`, `//rhost/rdir` -/
def FsType.device : FsType → Text → Text → Text
  | .nfs, rhost, rdir => rhost ++ ':' :: rdir
  | .cifs, rhost, rdir => '/' :: '/' :: rhost ++ '/' :: rdir

namespace Row

variable (r : Row)

def texts : List Text := [r.rhost, r.rdir, r.mdir, r.mopts]

def complete : Bool := !(r.rhost == [] || r.rdir == [] || r.mdir == [])

def device : Text :=
  (if r.disabled then ['#'] else []) ++ r.fstype.device r.rhost (pathEscape r.rdir)

/-- The line of the row, where nothing is decoded twice and options are given. -/
def line : Text := join [r.device, pathEscape r.mdir, r.fstype.name, r.mopts, ['0'], ['0']]

/-- Neither is the case. -/
structure Entered : Prop where
  options : r.mopts ≠ []
  rdir : httpdDecode (pathEscape r.rdir) = pathEscape r.rdir
  mdir : httpdDecode (pathEscape r.mdir) = pathEscape r.mdir

end Row

/-- The tables of the page. -/
def Box.types (m : Box) : List FsType := if m.cifs then [.nfs, .cifs] else [.nfs]

/-- The rows of the page, where every line is read as it stands. -/
def Box.rows (m : Box) (fstab : TextFile) : List Row :=
  m.types.flatMap fun fstype => (group fstype fstab ++ free).map (rowOf fstype)

/-- The fields that are in the form once. -/
def onceFields (m : Box) (cnt : Nat) : List (Text × Text) :=
  (if m.delay then [("delay_nfs".toList, "yes".toList)] else []) ++
    [("cnt".toList, Nat.toDigits 10 cnt), ("submit".toList, "Submit".toList)]

/-! ## The form -/

theorem readable_nil (m : Box) (fstype : FsType) : Readable m fstype [] where
  kept := nofun
  first := rfl
  quoted := by
    cases fstype <;> exact forall_of_all (by decide)
  options := rfl
  paths := by
    have hglob : m.glob [] = [[]] := m.globs nofun
    have hdir : fstype.dirOf [] = [] := by cases fstype <;> rfl
    intro t ht
    have hnil : t = [] := by
      rcases List.mem_cons.mp ht with rfl | ht
      · exact hdir
      · exact List.mem_singleton.mp ht
    rw [hnil]
    exact ⟨rfl, hglob, rfl⟩
  shown := by
    cases fstype <;> exact forall_of_all (by decide)

theorem rowOf_nil (fstype : FsType) : rowOf fstype [] = ⟨fstype, false, [], [], [], []⟩ := by
  cases fstype <;> rfl

theorem sendable_nil (m : Box) : Sendable m [] where
  ascii := rfl
  option := rfl
  unread := by decide +kernel
  kept := m.globs nofun

section Form

variable {m : Box} {fstab : TextFile}

/-- **The form** of lines that are read as they stand. -/
theorem Box.form_readable (h : ∀ t ∈ m.types, ∀ l ∈ group t fstab, Readable m t l) (b : Browser)
    (env : Env) : ∃ form, m.form b env fstab = some form ∧
      ∀ p, p ∈ form ↔ p ∈ rowsPairs 1 ((m.rows fstab).map Row.sent) ++
        onceFields m (m.rows fstab).length := by
  have hgroup : ∀ t ∈ m.types, ∀ l ∈ group t fstab ++ free, Readable m t l := by
    intro t ht l hl
    rcases List.mem_append.mp hl with hl | hl
    · exact h t ht l hl
    · have hnil : l = [] := forall_of_all (P := fun l : Text => l = []) (by decide) l hl
      rw [hnil]
      exact readable_nil m t
  have hnfs : FsType.nfs ∈ m.types := by
    unfold types
    split <;> exact List.mem_cons_self
  obtain ⟨env₁, hfirst⟩ := m.fstabRows_readable b (hgroup .nfs hnfs) env
  unfold form
  rw [hfirst]
  by_cases hcifs : m.cifs = true
  · have htypes : m.types = [.nfs, .cifs] := if_pos hcifs
    obtain ⟨env₂, hsecond⟩ := m.fstabRows_readable b
      (hgroup .cifs (by rw [htypes]; exact List.mem_cons_of_mem _ List.mem_cons_self)) env₁
    have hrows : m.rows fstab = (group .nfs fstab ++ free).map (rowOf .nfs) ++
        (group .cifs fstab ++ free).map (rowOf .cifs) := by
      rw [rows, htypes, List.flatMap_cons, List.flatMap_singleton]
    simp only [Option.bind_eq_bind, Option.bind_some, hcifs, if_true, hsecond, Option.map_some]
    refine ⟨_, rfl, fun p => ?_⟩
    generalize (group .nfs fstab ++ free).map (rowOf .nfs) = xs at hrows ⊢
    generalize (group .cifs fstab ++ free).map (rowOf .cifs) = ys at hrows ⊢
    rw [hrows, List.map_append, rowsPairs_append, onceFields, List.length_map]
    simp only [List.mem_append]
    rw [Nat.add_comm 1]
    tauto
  · have hrows : m.rows fstab = (group .nfs fstab ++ free).map (rowOf .nfs) := by
      rw [rows, types, if_neg hcifs, List.flatMap_singleton]
    simp only [Option.bind_eq_bind, Option.bind_some, hcifs, Bool.false_eq_true, if_false]
    refine ⟨_, rfl, fun p => ?_⟩
    rw [hrows, onceFields]
    simp only [List.map_nil, rowsPairs, List.nil_append, List.append_nil, List.mem_append]

end Form

/-! ## What arrives -/

/-- The request of the page, as it was sent. -/
structure Asked (f : Form) (rs : List Row) : Prop where
  unMount : f.var "unMount".toList = []
  mount : f.var "Mount".toList = []
  emsg : f.var "emsg".toList = []
  submit : f.var "Submit".toList ≠ []
  cnt : f.var "cnt".toList = Nat.toDigits 10 rs.length
  rows : ∀ k r, rs[k]? = some r → ∀ n ∈ rowNames,
    f.var (numbered n (1 + k)) = rowValue r.sent n

theorem rowValue_sent (r : Row) : ∀ x ∈
    [("fcmtd".toList, if r.disabled then ['#'] else []), ("rhost".toList, r.rhost),
      ("rdir".toList, r.rdir), ("mdir".toList, r.mdir), ("mopts".toList, r.mopts),
      ("fstype".toList, r.fstype.name)], rowValue r.sent x.1 = urlencode x.2 := by
  obtain ⟨fstype, disabled, rhost, rdir, mdir, mopts⟩ := r
  simp only [List.forall_mem_cons, List.not_mem_nil, false_implies, implies_true, and_true]
  cases disabled <;> exact ⟨rfl, rfl, rfl, rfl, rfl, rfl⟩

section Sent

variable {m : Box} {r : Row} {rs : List Row}

theorem sendable_box (m : Box) : Sendable m ['#'] where
  ascii := by decide
  option := by decide
  unread := by decide +kernel
  kept := m.files (.inr (by decide))

theorem sendable_name (m : Box) (fstype : FsType) : Sendable m fstype.name where
  ascii := by cases fstype <;> decide
  option := by cases fstype <;> decide
  unread := by cases fstype <;> decide +kernel
  kept := m.globs (forall_of_all (by cases fstype <;> decide))

theorem sendable_shown (hr : ∀ t ∈ r.texts, Sendable m t) :
    ∀ x ∈ r.shown, x.1 ∈ rowNames ∧ Sendable m x.2 := by
  have htext : ∀ {t : Text}, t ∈ r.texts → Sendable m t := hr _
  intro x hx
  simp only [Row.shown, List.mem_append, List.mem_cons, List.not_mem_nil, or_false] at hx
  rcases hx with hx | rfl | rfl | rfl | rfl | rfl
  · split at hx
    · obtain rfl := List.mem_singleton.mp hx
      exact ⟨List.mem_cons_self, sendable_box m⟩
    · cases hx
  · exact ⟨by dsimp only; decide, htext (by simp [Row.texts])⟩
  · exact ⟨by dsimp only; decide, htext (by simp [Row.texts])⟩
  · exact ⟨by dsimp only; decide, htext (by simp [Row.texts])⟩
  · exact ⟨by dsimp only; decide, htext (by simp [Row.texts])⟩
  · exact ⟨by dsimp only; decide, sendable_name m r.fstype⟩

theorem keys_sent (r : Row) : r.sent.map Prod.fst = r.shown.map Prod.fst := by
  rw [Row.sent, List.map_map]
  rfl

theorem rowFields (hrs : ∀ r ∈ rs, ∀ t ∈ r.texts, Sendable m t) :
    RowFields (rs.map Row.sent) where
  bases := by
    intro r' hr' x hx
    obtain ⟨r, hr, rfl⟩ := List.mem_map.mp hr'
    obtain ⟨y, hy, rfl⟩ := List.mem_map.mp hx
    have hnames : ∀ n ∈ rowNames, isAwkName n = true := forall_of_all (by decide)
    exact hnames _ (sendable_shown (hrs r hr) y hy).1
  distinct := by
    intro r' hr'
    obtain ⟨r, hr, rfl⟩ := List.mem_map.mp hr'
    have hnames : rowNames.Nodup := by decide
    refine hnames.sublist ?_
    rw [keys_sent]
    obtain ⟨fstype, disabled, rhost, rdir, mdir, mopts⟩ := r
    cases disabled <;>
      (simp only [Row.shown, rowNames, List.map_cons, List.map_nil, List.nil_append,
        List.cons_append, Bool.false_eq_true, if_false, if_true]; decide)
  encoded := by
    intro r' hr' x hx
    obtain ⟨r, hr, rfl⟩ := List.mem_map.mp hr'
    obtain ⟨y, hy, rfl⟩ := List.mem_map.mp hx
    exact isEncoded_urlencode (isByte_of_ascii (sendable_shown (hrs r hr) y hy).2.ascii)

theorem mem_onceFields {cnt : Nat} {x : Text × Text} (hx : x ∈ onceFields m cnt) :
    x = ("delay_nfs".toList, "yes".toList) ∨ x = ("cnt".toList, Nat.toDigits 10 cnt) ∨
      x = ("submit".toList, "Submit".toList) := by
  rw [onceFields] at hx
  simp only [List.mem_append, List.mem_cons, List.not_mem_nil, or_false] at hx
  refine hx.imp_left fun hx => ?_
  split at hx
  · exact List.mem_singleton.mp hx
  · cases hx

theorem keys_onceFields {cnt : Nat} {n : Text} (hn : n ∈ (onceFields m cnt).map Prod.fst) :
    n ∈ ["delay_nfs".toList, "cnt".toList, "submit".toList] := by
  obtain ⟨x, hx, rfl⟩ := List.mem_map.mp hn
  rcases mem_onceFields hx with rfl | rfl | rfl <;> (dsimp only; decide)

theorem sentForm_onceFields (cnt : Nat) : SentForm (onceFields m cnt) where
  keys := by
    intro x hx
    have hnames : ∀ n ∈ ["delay_nfs".toList, "cnt".toList, "submit".toList], isAwkName n = true :=
      forall_of_all (by decide)
    exact hnames _ (keys_onceFields (List.mem_map.mpr ⟨x, hx, rfl⟩))
  values := by
    intro x hx
    rcases mem_onceFields hx with rfl | rfl | rfl
    · show "yes".toList.all isEncodedChar = true
      decide
    · exact isEncoded_digits cnt
    · show "Submit".toList.all isEncodedChar = true
      decide
  distinct := by
    unfold onceFields
    split <;>
      (simp only [List.map_cons, List.map_nil, List.nil_append, List.cons_append]; decide)
  names := by
    intro x hx
    have hnames : ∀ n ∈ ["delay_nfs".toList, "cnt".toList, "submit".toList],
        n ∉ readArgsNames := forall_of_all (by decide)
    exact hnames _ (keys_onceFields (List.mem_map.mpr ⟨x, hx, rfl⟩))

/-- No value is the name of a variable that is read. -/
theorem names_form (hrs : ∀ r ∈ rs, ∀ t ∈ r.texts, Sendable m t) {n : Text}
    (hawk : isAwkName n = true) (hn : isRead n = true ∨ n ∈ neededNames) :
    n ∉ (rowsPairs 1 (rs.map Row.sent) ++ onceFields m rs.length).map Prod.snd := by
  intro hmem
  rw [List.map_append, List.mem_append] at hmem
  rcases hmem with hmem | hmem
  · obtain ⟨r', hr', hv⟩ := value_rowsPairs hmem
    obtain ⟨r, hr, rfl⟩ := List.mem_map.mp hr'
    obtain ⟨x, hx, hxn⟩ := List.mem_map.mp hv
    obtain ⟨y, hy, rfl⟩ := List.mem_map.mp hx
    have hsend := (sendable_shown (hrs r hr) y hy).2
    have heq := eq_of_urlencode_eq (isByte_of_ascii hsend.ascii) hawk hxn
    exact hsend.unread (heq ▸ hn)
  · obtain ⟨x, hx, rfl⟩ := List.mem_map.mp hmem
    rcases mem_onceFields hx with rfl | rfl | rfl
    · exact absurd hn (by decide +kernel)
    · exact toDigits_ne_name hawk _ rfl
    · exact absurd hn (by decide +kernel)

/-- **What arrives** of a form with these rows. -/
theorem Box.readForm_rows (hrs : ∀ r ∈ rs, ∀ t ∈ r.texts, Sendable m t)
    {ys : List (Text × Text)}
    (hsame : ∀ p, p ∈ ys ↔ p ∈ rowsPairs 1 (rs.map Row.sent) ++ onceFields m rs.length) {env : Env}
    (henv : ∀ n, isRead n = true → env n = []) :
    ∃ env₁, m.readForm env (bodyText ys) = some env₁ ∧
      ∃ f : Form, (∀ n, isRead n = true ∨ n = "Submit".toList → f.var n = env₁ n) ∧
        Asked f rs := by
  have honce : ∀ n ∈ (onceFields m rs.length).map Prod.fst, isRowName n = false := fun n hn =>
    forall_of_all (P := fun n => isRowName n = false) (by decide) n (keys_onceFields hn)
  have hfields := rowFields hrs
  have hargs : isRead "args".toList = false := by decide +kernel
  obtain ⟨env₁, hread, hset, hothers, hrows, hturned⟩ := m.readForm_read hfields
    (sentForm_onceFields rs.length) honce hargs
    (fun n hawk hn => names_form hrs hawk hn) hsame (fun n hn _ => henv n hn)
  have hencoded : EncodedPairs ys :=
    have hsent := hfields.sentForm (sentForm_onceFields (m := m) rs.length) honce 1
    ⟨fun y hy => hsent.keys y ((hsame y).mp hy), fun y hy => hsent.values y ((hsame y).mp hy)⟩
  have hlast : ∀ x ∈ [("cnt".toList, Nat.toDigits 10 rs.length),
      ("submit".toList, "Submit".toList)], x ∈ onceFields m rs.length := fun x hx =>
    List.mem_append_right _ hx
  -- the value of the button is the name of a variable
  have hsubmit : isAwkName (env₁ "Submit".toList) = true :=
    hturned _ (hlast _ (List.mem_cons_of_mem _ List.mem_cons_self)) (by decide)
  have hline : ∀ n, isRead n = true ∨ n = "Submit".toList → '\n' ∉ env₁ n := by
    rintro n (hn | rfl) hc
    · have hargs : n ≠ "args".toList := by
        rintro rfl
        exact absurd hn (by decide +kernel)
      refine m.newline_notMem_readForm hencoded hread hargs ?_ hc
      rw [henv n hn]
      exact List.not_mem_nil
    · exact absurd (List.all_eq_true.mp (all_isNameChar (isName_of_isAwkName hsubmit)) _ hc)
        (by decide)
  let f : Form :=
    { var n := if isRead n = true ∨ n = "Submit".toList then env₁ n else []
      line n := by
        split
        · rename_i hn
          exact hline n hn
        · exact List.not_mem_nil }
  have hvar : ∀ n, isRead n = true ∨ n = "Submit".toList → f.var n = env₁ n := fun n hn =>
    if_pos hn
  -- buttons that were not pressed
  have hunset : ∀ n ∈ ["unMount".toList, "Mount".toList, "emsg".toList], f.var n = [] := by
    intro n hn
    have hplain : isAwkName n = true ∧ isRead n = true ∧ n ∉ neededNames ∧ isRowName n = false ∧
        n ∉ ["delay_nfs".toList, "cnt".toList, "submit".toList] :=
      forall_of_all (P := fun n => isAwkName n = true ∧ isRead n = true ∧ n ∉ neededNames ∧
        isRowName n = false ∧ n ∉ ["delay_nfs".toList, "cnt".toList, "submit".toList])
        (by decide +kernel) n hn
    obtain ⟨hawk, hisread, hshell, hrow, hkey⟩ := hplain
    rw [hvar n (.inl hisread)]
    exact hothers n hawk hisread hshell hrow fun hmem => hkey (keys_onceFields hmem)
  refine ⟨env₁, hread, f, hvar, ⟨hunset _ (by decide), hunset _ (by decide), hunset _ (by decide),
    ?_, ?_, ?_⟩⟩
  · rw [hvar _ (.inr rfl)]
    intro hnil
    rw [hnil] at hsubmit
    cases hsubmit
  · have hcnt : isRead "cnt".toList = true := by decide +kernel
    rw [hvar _ (.inl hcnt)]
    exact hset _ (hlast _ List.mem_cons_self) hcnt
  · intro k r hr n hn
    have hawk : isAwkName n = true :=
      forall_of_all (P := fun n => isAwkName n = true) (by decide) n hn
    have hisread : isRead (numbered n (1 + k)) = true := by
      rw [isRead, isRowName_numbered, rowBase_numbered, Bool.true_and,
        List.contains_iff_mem.mpr hn, Bool.or_true]
    have hrow : (rs.map Row.sent)[k]? = some r.sent := by
      rw [List.getElem?_map, hr]
      rfl
    rw [hvar _ (.inl hisread)]
    exact hrows k _ hrow n hawk hisread

end Sent

/-! ## What is written -/

theorem pathEscape_pathUnescape {t : Text} (ht : ' ' ∉ t) : pathEscape (pathUnescape t) = t := by
  induction t using pathUnescape.induct with
  | case1 t ih =>
      have hrest : ' ' ∉ t := fun hc => ht (by simp [hc])
      rw [pathUnescape]
      exact congrArg (fun u => '\\' :: '0' :: '4' :: '0' :: u) (ih hrest)
  | case2 c t hcode ih =>
      rw [List.mem_cons, not_or] at ht
      rw [pathUnescape]
      · rw [pathEscape, List.flatMap_cons, if_neg (Ne.symm ht.1), List.singleton_append]
        exact congrArg (c :: ·) (ih ht.2)
      · exact hcode
  | case3 => rfl

theorem httpdDecode_space (t u : Text) :
    httpdDecode (t ++ ' ' :: u) = httpdDecode t ++ ' ' :: httpdDecode u := by
  rw [httpdDecode_append_cons rfl, httpdDecode_cons_of_ne (by decide) (by decide)]

/-- The parts of a line are decoded. -/
theorem httpdDecode_device (fstype : FsType) {box rhost rdir : Text}
    (hbox : box.all isByte = true) (hhost : rhost.all isByte = true)
    (hdir : httpdDecode rdir = rdir) :
    httpdDecode (urlencode box ++ fstype.device (urlencode rhost) rdir) =
      box ++ fstype.device rhost rdir := by
  have hslash : ∀ t, httpdDecode ('/' :: t) = '/' :: httpdDecode t :=
    httpdDecode_cons_of_ne (by decide) (by decide)
  rw [httpdDecode_urlencode_append hbox]
  cases fstype with
  | nfs =>
      rw [FsType.device, httpdDecode_urlencode_append hhost,
        httpdDecode_cons_of_ne (by decide) (by decide), hdir]
      rfl
  | cifs =>
      rw [FsType.device, List.cons_append, List.cons_append, hslash, hslash,
        httpdDecode_urlencode_append hhost, hslash, hdir]
      rfl

section Written

variable {m : Box} {f : Form} {rs : List Row} {r : Row} {k : Nat}

/-- `$(eval echo \$name_i)` -/
theorem rowVar_text (h : Asked f rs) (hk : rs[k]? = some r) (name : String) {t : Text}
    (hn : name.toList ∈ rowNames) (hvalue : rowValue r.sent name.toList = urlencode t)
    (ht : Sendable m t) : m.rowVar f name (1 + k) = urlencode t := by
  have hvar : f.var (rowName name (1 + k)) = urlencode t := (h.rows k r hk _ hn).trans hvalue
  by_cases hnil : t = []
  · subst hnil
    exact m.echoVar_nil hvar
  · have hbytes := isByte_of_ascii ht.ascii
    exact m.echoVar_kept hvar (isEncoded_urlencode hbytes) (urlencode_ne_nil hnil)
      (isEchoOption_urlencode hbytes ht.option) ht.kept

/-- The texts that the script has of a row. -/
structure ReadRow (m : Box) (f : Form) (i : Nat) (r : Row) : Prop where
  fcmtd : m.rowVar f "fcmtd" i = urlencode (if r.disabled then ['#'] else [])
  rhost : m.rowVar f "rhost" i = urlencode r.rhost
  rdir : m.rowVar f "rdir" i = urlencode r.rdir
  mdir : m.rowVar f "mdir" i = urlencode r.mdir
  mopts : m.rowVar f "mopts" i = urlencode r.mopts
  fstype : m.rowVar f "fstype" i = r.fstype.name

theorem readRow (h : Asked f rs) (hk : rs[k]? = some r) (hr : ∀ t ∈ r.texts, Sendable m t) :
    ReadRow m f (1 + k) r := by
  have hrow := rowValue_sent r
  simp only [List.forall_mem_cons, List.not_mem_nil, false_implies, implies_true,
    and_true] at hrow
  obtain ⟨hbox, hhost, hdir, hmount, hopts, hname⟩ := hrow
  simp only [Row.texts, List.forall_mem_cons, List.not_mem_nil, false_implies, implies_true,
    and_true] at hr
  have hboxed : Sendable m (if r.disabled then ['#'] else []) := by
    split
    · exact sendable_box m
    · exact sendable_nil m
  have hplain : urlencode r.fstype.name = r.fstype.name := by cases r.fstype <;> decide
  exact ⟨rowVar_text h hk "fcmtd" (by decide) hbox hboxed,
    rowVar_text h hk "rhost" (by decide) hhost hr.1,
    rowVar_text h hk "rdir" (by decide) hdir hr.2.1,
    rowVar_text h hk "mdir" (by decide) hmount hr.2.2.1,
    rowVar_text h hk "mopts" (by decide) hopts hr.2.2.2,
    (rowVar_text h hk "fstype" (by decide) hname (sendable_name m _)).trans hplain⟩

theorem urlencode_beq_nil (t : Text) : (urlencode t == []) = (t == []) := by
  cases t with
  | nil => rfl
  | cons c t =>
      have hne := urlencode_ne_nil (List.cons_ne_nil c t)
      rw [beq_eq_false_iff_ne.mpr hne, beq_eq_false_iff_ne.mpr (List.cons_ne_nil c t)]

theorem skipsRow_eq {i : Nat} (h : ReadRow m f i r) : m.skipsRow f i = !r.complete := by
  rw [Tools.skipsRow, h.rhost, h.rdir, h.mdir, urlencode_beq_nil, urlencode_beq_nil,
    urlencode_beq_nil, Row.complete, Bool.not_not]

theorem rowPath_eq {i : Nat} {name : String} {t : Text}
    (hvar : m.rowVar f name i = urlencode t) (ht : Sendable m t) : m.rowPath f name i = t := by
  have hbytes := isByte_of_ascii ht.ascii
  have hword : (expand m.glob (urlencode t)).headD [] = urlencode t := by
    have hblank : ∀ c ∈ urlencode t, isBlank c = false := fun c hc =>
      not_blank_of_isEncodedChar (isEncodedChar_of_mem hbytes hc)
    rw [expand, words_of_not_blank hblank]
    split
    · rename_i hnil
      rw [hnil]
      rfl
    · rw [List.flatMap_singleton, ht.kept]
      rfl
  rw [Tools.rowPath, hvar, hword, httpdDecode_urlencode hbytes,
    commandSubst_of_not_mem (newline_notMem_of_ascii ht.ascii)]

/-- What `mkmp` rejects. -/
def Row.Rejected (m : Box) (r : Row) : Prop :=
  r.complete = true ∧ m.testNotMnt (expand m.glob (dirname r.mdir)) = true

theorem rowBad_iff (h : Asked f rs) {i : Nat} (hrow : ReadRow m f i r)
    (hr : ∀ t ∈ r.texts, Sendable m t) : RowBad m.toTools f i ↔ r.Rejected m := by
  have hpath := rowPath_eq hrow.mdir (hr r.mdir (by simp [Row.texts]))
  rw [RowBad, BadMount, skipsRow_eq hrow, hpath, h.emsg, Row.Rejected]
  simp

/-- **The line that is written.** -/
theorem mountLine_eq {i : Nat} (hrow : ReadRow m f i r) (hr : ∀ t ∈ r.texts, Sendable m t)
    (hentered : r.Entered) : m.mountLine f i = r.line := by
  have hrdir := rowPath_eq hrow.rdir (hr r.rdir (by simp [Row.texts]))
  have hmdir := rowPath_eq hrow.mdir (hr r.mdir (by simp [Row.texts]))
  have hbytes : ∀ t ∈ r.texts, t.all isByte = true := fun t ht => isByte_of_ascii (hr t ht).ascii
  have hbox : (if r.disabled then ['#'] else []).all isByte = true := by split <;> decide
  have hdevice := httpdDecode_device r.fstype hbox (hbytes r.rhost (by simp [Row.texts]))
    hentered.rdir
  have hname : httpdDecode r.fstype.name = r.fstype.name := by cases r.fstype <;> decide
  have hopts : urlencode r.mopts ≠ [] := urlencode_ne_nil hentered.options
  have hdecoded : httpdDecode (urlencode r.mopts) = r.mopts :=
    httpdDecode_urlencode (hbytes r.mopts (by simp [Row.texts]))
  have hzero : httpdDecode ['0'] = ['0'] := by decide
  -- `r.fstype` decides on the form of the device only
  have hparts : ∀ {z : Text}, z = ' ' :: '0' :: ' ' :: ['0'] →
      httpdDecode (urlencode (if r.disabled then ['#'] else []) ++
        r.fstype.device (urlencode r.rhost) (pathEscape r.rdir) ++ ' ' :: pathEscape r.mdir ++
          ' ' :: r.fstype.name ++ ' ' :: urlencode r.mopts ++ z) = r.line := by
    rintro _ rfl
    rw [Row.line, Row.device, join_cons _ (List.cons_ne_nil _ _),
      join_cons _ (List.cons_ne_nil _ _), join_cons _ (List.cons_ne_nil _ _),
      join_cons _ (List.cons_ne_nil _ _), join_cons _ (List.cons_ne_nil _ _), join_singleton]
    have hsplit : urlencode (if r.disabled then ['#'] else []) ++
        r.fstype.device (urlencode r.rhost) (pathEscape r.rdir) ++ ' ' :: pathEscape r.mdir ++
          ' ' :: r.fstype.name ++ ' ' :: urlencode r.mopts ++ ' ' :: '0' :: ' ' :: ['0'] =
        (urlencode (if r.disabled then ['#'] else []) ++
          r.fstype.device (urlencode r.rhost) (pathEscape r.rdir)) ++ ' ' ::
            (pathEscape r.mdir ++ ' ' :: (r.fstype.name ++ ' ' ::
              (urlencode r.mopts ++ ' ' :: (['0'] ++ ' ' :: ['0'])))) := by
      simp only [List.append_assoc, List.cons_append, List.nil_append]
    rw [hsplit, httpdDecode_space, httpdDecode_space, httpdDecode_space, httpdDecode_space,
      httpdDecode_space, hdevice, hentered.mdir, hname, hdecoded, hzero]
  have hgiven : ∀ t : Text, (if urlencode r.mopts = [] then t else urlencode r.mopts) =
      urlencode r.mopts := fun t => if_neg hopts
  have hline := hparts (z := " 0 0".toList) (by decide)
  rw [Tools.mountLine, hrow.fstype, hrow.mopts, hrow.fcmtd, hrow.rhost, hrdir, hmdir, hgiven]
  cases hfstype : r.fstype with
  | nfs =>
      rw [hfstype] at hline
      exact hline
  | cifs =>
      rw [hfstype] at hline
      exact hline

/-- It is one line. -/
theorem newline_notMem_line (hr : ∀ t ∈ r.texts, Sendable m t) : '\n' ∉ r.line := by
  have hascii : ∀ t ∈ r.texts, '\n' ∉ t := fun t ht => newline_notMem_of_ascii (hr t ht).ascii
  have hescape : ∀ {t : Text}, '\n' ∉ t → '\n' ∉ pathEscape t := by
    intro t ht hc
    obtain ⟨d, hd, hmem⟩ := List.mem_flatMap.mp hc
    split at hmem
    · exact absurd hmem (by decide)
    · exact ht (List.mem_singleton.mp hmem ▸ hd)
  have hrdir := hescape (hascii r.rdir (by simp [Row.texts]))
  have hmdir := hescape (hascii r.mdir (by simp [Row.texts]))
  have hhost := hascii r.rhost (by simp [Row.texts])
  have hopts := hascii r.mopts (by simp [Row.texts])
  have hname : '\n' ∉ r.fstype.name := by cases r.fstype <;> decide
  have hdevice : '\n' ∉ r.device := by
    unfold Row.device
    intro hc
    rcases List.mem_append.mp hc with hc | hc
    · split at hc
      · exact absurd hc (by decide)
      · cases hc
    · cases hfstype : r.fstype with
      | nfs =>
          rw [hfstype, FsType.device, List.mem_append, List.mem_cons] at hc
          exact hc.elim hhost fun hc => hc.elim (by decide) hrdir
      | cifs =>
          rw [hfstype, FsType.device, List.mem_append, List.mem_cons, List.mem_cons,
            List.mem_cons] at hc
          exact hc.elim (fun hc => hc.elim (by decide) fun hc => hc.elim (by decide) hhost)
            fun hc => hc.elim (by decide) hrdir
  intro hc
  obtain ⟨w, hw, hcw⟩ := mem_of_mem_join hc (by decide)
  simp only [List.mem_cons, List.not_mem_nil, or_false] at hw
  rcases hw with rfl | rfl | rfl | rfl | rfl | rfl
  · exact hdevice hcw
  · exact hmdir hcw
  · exact hname hcw
  · exact hopts hcw
  · exact absurd hcw (by decide)
  · exact absurd hcw (by decide)

end Written

/-! ## The file -/

/-- The lines of a row. -/
def Row.written (r : Row) : List Text := if r.complete then [r.line] else []

/-- Rounds of a loop that append lines. -/
theorem foldlM_appended {f : Text → Nat → Etc.Page Text} {g : Nat → List Text} {l : List Nat}
    (h : ∀ i ∈ l, ∀ s ls, s .fstab = some ⟨ls, []⟩ →
      f [] i s = .ok [] (Function.update s .fstab (some ⟨ls ++ g i, []⟩)))
    {s : Files} {ls : List Text} (hs : s .fstab = some ⟨ls, []⟩) :
    l.foldlM f [] s = .ok [] (Function.update s .fstab (some ⟨ls ++ l.flatMap g, []⟩)) := by
  induction l generalizing s ls with
  | nil =>
      rw [List.flatMap_nil, List.append_nil, ← hs, Function.update_eq_self]
      rfl
  | cons i l ih =>
      have hfirst := h i List.mem_cons_self s ls hs
      have hrest := ih (fun j hj => h j (List.mem_cons_of_mem i hj))
        (Function.update_self EtcFile.fstab (some ⟨ls ++ g i, []⟩ : Option TextFile) s)
      rw [Function.update_idem, List.append_assoc] at hrest
      exact (bind_of_ok hfirst).trans hrest

/-- What follows leaves what a condition says. -/
theorem filesAfter_of_stays {α : Type} {I : Files → Prop} {p : Etc.Page α} {s : Files}
    (h : Stays I p fun _ => I) (hs : I s) : I (filesAfter p s) := by
  have hrun := h s hs
  unfold filesAfter
  cases hp : p s with
  | ok a s' =>
      rw [hp] at hrun
      exact hrun
  | error e s' =>
      rw [hp] at hrun
      exact hrun

theorem edit_other {file : EtcFile} (hfile : file ≠ .fstab)
    (g : Option TextFile → Option TextFile) (fstab : Option TextFile) :
    Stays (fun s : Files => s .fstab = fstab) (edit file g) fun _ s => s .fstab = fstab :=
  Runs.modifyGet fun _ hs => (Function.update_of_ne (Ne.symm hfile) _ _).trans hs

section Saved

variable {m : Box} {f : Form} {rs : List Row} {s : Files}

theorem mountRow_written (h : Asked f rs) {r : Row} {i : Nat} (hrow : ReadRow m f i r)
    (hr : ∀ t ∈ r.texts, Sendable m t) (hentered : r.complete = true → r.Entered)
    (hok : ¬ r.Rejected m) {ls : List Text} (hs : s .fstab = some ⟨ls, []⟩) :
    m.mountRow f [] i s = .ok [] (Function.update s .fstab (some ⟨ls ++ r.written, []⟩)) := by
  unfold Tools.mountRow
  rw [skipsRow_eq hrow]
  by_cases hcomplete : r.complete = true
  · have hlines : (m.mountLine f i).splitOn '\n' = r.written := by
      rw [mountLine_eq hrow hr (hentered hcomplete), Row.written, if_pos hcomplete]
      exact List.splitOn_eq_singleton (newline_notMem_line hr)
    have hbad : ¬ BadMount m.toTools f (m.rowPath f "mdir" i) := fun hbad =>
      hok ((rowBad_iff h hrow hr).mp ⟨by rw [skipsRow_eq hrow, hcomplete]; rfl, hbad⟩)
    have herror : mkmpError m.toTools [] (m.rowPath f "mdir" i) = [] := by
      have hne := mkmpError_ne_iff m.toTools f (m.rowPath f "mdir" i)
      rw [h.emsg] at hne
      exact not_not.mp fun hne' => hbad (hne.mp hne')
    have hmade : m.mkmp [] (m.rowPath f "mdir" i) s = .ok [] s := by
      rw [mkmp_eq, herror, if_neg fun hc => hc.1 rfl]
    rw [hcomplete, if_neg (by decide), hlines]
    refine (bind_of_ok hmade).trans ?_
    change EStateM.Result.ok [] (Function.update s .fstab _) = _
    rw [hs, Row.written, if_pos hcomplete]
    simp [TextFile.cat]
  · rw [Bool.not_eq_true] at hcomplete
    rw [hcomplete, if_pos (by decide), Row.written, hcomplete, if_neg (by decide), List.append_nil,
      ← hs, Function.update_eq_self]
    rfl

theorem mountRows_eq (h : Asked f rs) : Tools.mountRows f = List.range' 1 rs.length := by
  have hdigits : (Nat.toDigits 10 rs.length).all Char.isDigit = true :=
    List.all_eq_true.mpr fun d hd => isDigit_of_mem_toDigits hd
  rw [Tools.mountRows, h.cnt, seqFrom, if_pos ⟨Nat.toDigits_ne_nil, hdigits⟩,
    Nat.ofDigitChars_ten_toDigits, Nat.add_sub_cancel]

theorem exists_row {i : Nat} (hi : i ∈ List.range' 1 rs.length) :
    ∃ k r, i = 1 + k ∧ rs[k]? = some r := by
  obtain ⟨hge, hlt⟩ := List.mem_range'_1.mp hi
  have hk : i - 1 < rs.length := by omega
  exact ⟨i - 1, rs[i - 1], by omega, List.getElem?_eq_getElem hk⟩

/-- The script is that of `$Submit`. -/
theorem rmountProc_asked (h : Asked f rs) (s : Files) :
    m.rmountProc f s = ((Tools.mountRows f).foldlM (m.mountRow f) [] >>= fun _ =>
      (mountRest f >>= fun _ => exit (.gotopage "/cgi-bin/rmount.cgi".toList) : Etc.Page PUnit))
        (mountFront s) := by
  have hsubmit := rmountSubmit_eq m.toTools f s
  rw [h.emsg] at hsubmit
  rw [Tools.rmountProc, if_neg (not_not.mpr h.unMount), if_neg (not_not.mpr h.mount), onlyIf,
    if_pos h.submit, bind_of_eq _ hsubmit]
  cases hrows : (Tools.mountRows f).foldlM (m.mountRow f) [] (mountFront s) with
  | ok emsg s' =>
      rw [bind_of_eq _ (bind_of_ok hrows), bind_of_ok hrows]
  | error e s' =>
      rw [bind_of_error hrows, bind_of_error (bind_of_error hrows)]

/-- **A rejected mount point** brings fstab back. -/
theorem rmountProc_rejected (h : Asked f rs) (hrs : ∀ r ∈ rs, ∀ t ∈ r.texts, Sendable m t)
    (hbad : ∃ r ∈ rs, r.Rejected m) (hs : s .fstab ≠ none) :
    filesAfter (m.rmountProc f) s .fstab = s .fstab := by
  have hcopied : (mountFront s .fstabBackup).isSome := by
    rw [mountFront, if_neg hs, Function.update_of_ne (by decide), Function.update_self]
    exact Option.isSome_iff_ne_none.mpr hs
  have hrows := mountRows_copied m.toTools f hcopied (Tools.mountRows f)
  have hsome : ∃ i ∈ Tools.mountRows f, RowBad m.toTools f i := by
    obtain ⟨r, hr, hrejected⟩ := hbad
    obtain ⟨k, hk, rfl⟩ := List.mem_iff_getElem.mp hr
    have hget := List.getElem?_eq_getElem hk
    refine ⟨1 + k, ?_, ?_⟩
    · rw [mountRows_eq h, List.mem_range'_1]
      omega
    · have hsend := hrs _ (List.getElem_mem hk)
      exact (rowBad_iff h (readRow h hget hsend) hsend).mpr hrejected
  rw [if_pos hsome, h.emsg] at hrows
  obtain ⟨txt, htxt⟩ := hrows
  rw [filesAfter, rmountProc_asked h, bind_of_error htxt]
  exact restored_mountFront hs .fstab (by decide)

/-- **What is in fstab**: the lines with neither word, and those of the rows. -/
theorem rmountProc_written (h : Asked f rs) (hrs : ∀ r ∈ rs, ∀ t ∈ r.texts, Sendable m t)
    (hentered : ∀ r ∈ rs, r.complete = true → r.Entered) (hok : ∀ r ∈ rs, ¬ r.Rejected m)
    {full : List Text} (hs : s .fstab = some ⟨full, []⟩) :
    filesAfter (m.rmountProc f) s .fstab = some ⟨full.filter (fun l =>
      !hasWord "nfs".toList l && !hasWord "cifs".toList l) ++ rs.flatMap Row.written, []⟩ := by
  have hfront : mountFront s .fstab = some ⟨full.filter fun l =>
      !hasWord "nfs".toList l && !hasWord "cifs".toList l, []⟩ := by
    rw [mountFront, Function.update_self, hs]
    simp [Edit.apply, Edit.onFile, TextFile.sedDelete, TextFile.cat, List.filter_filter,
      Bool.and_comm]
  have hrows := foldlM_appended (f := m.mountRow f) (l := Tools.mountRows f)
    (g := fun i => (rs[i - 1]?.map Row.written).getD []) (by
      intro i hi s ls hs
      rw [mountRows_eq h] at hi
      obtain ⟨k, r, rfl, hk⟩ := exists_row hi
      have hmem := List.mem_of_getElem? hk
      have hsend := hrs r hmem
      rw [Nat.add_sub_cancel_left, hk, Option.map_some, Option.getD_some]
      exact mountRow_written h (readRow h hk hsend) hsend (hentered r hmem) (hok r hmem) hs) hfront
  have hlines : (Tools.mountRows f).flatMap (fun i => (rs[i - 1]?.map Row.written).getD []) =
      rs.flatMap Row.written := by
    rw [mountRows_eq h]
    refine flatMap_range' 1 fun k r hk => ?_
    rw [Nat.add_sub_cancel_left, hk]
    rfl
  rw [hlines] at hrows
  have hrest : ∀ fstab : Option TextFile, Stays (fun s : Files => s .fstab = fstab)
      (mountRest f >>= fun _ =>
        (exit (.gotopage "/cgi-bin/rmount.cgi".toList) : Etc.Page PUnit))
        fun _ s => s .fstab = fstab :=
    fun fstab => Runs.bind (Runs.bind (edit_other (by decide) _ fstab) fun _ =>
      Runs.bind (edit_other (by decide) _ fstab) fun _ => Runs.onlyIf fun _ =>
        edit_other (by decide) _ fstab) fun _ => Runs.exit fun _ hs => hs
  have hafter := filesAfter_of_stays (hrest _) (Function.update_self EtcFile.fstab
    (some ⟨full.filter (fun l => !hasWord "nfs".toList l && !hasWord "cifs".toList l) ++
      rs.flatMap Row.written, []⟩ : Option TextFile) (mountFront s))
  unfold filesAfter at hafter ⊢
  rw [rmountProc_asked h, bind_of_ok hrows]
  exact hafter

end Saved

/-! ## Mounts that survive -/

/-- A line of the type. -/
def isMount (fstype : FsType) (l : Text) : Bool :=
  (mountOf l).any fun mount => decide (mount.fstype = fstype)

/-- The shell, the browser and the script behind the page change no text of fstab. -/
structure Unchanged (m : Box) (fstab : TextFile) : Prop where
  readable : ∀ t ∈ m.types, ∀ l ∈ group t fstab, Readable m t l
  sendable : ∀ t ∈ m.types, ∀ l ∈ group t fstab, ∀ x ∈ (rowOf t l).texts, Sendable m x

/-- The lines of mounts are those that are deleted, and those that the rows make. -/
structure Rewritten (m : Box) (fstab : TextFile) : Prop where
  ended : fstab.rest = []
  others : ∀ l ∈ fstab.full, mountOf l = none →
    hasWord "nfs".toList l = false ∧ hasWord "cifs".toList l = false
  mounts : ∀ l ∈ fstab.full, ∀ mount, mountOf l = some mount →
    mount.fstype ∈ m.types ∧ hasWord mount.fstype.name l = true
  rows : ∀ t ∈ m.types, ∀ l ∈ group t fstab,
    if isMount t l then
      (rowOf t l).complete = true ∧ (rowOf t l).Entered ∧ (rowOf t l).device = field 0 l
    else (rowOf t l).complete = false

/-- A mount point of the page is rejected. -/
def Refused (m : Box) (fstab : TextFile) : Prop := ∃ r ∈ m.rows fstab, r.Rejected m

section Mounts

variable {m : Box} {fstab : TextFile} {t : FsType} {l : Text}

theorem SameMounts.refl (ls : List Text) : SameMounts ls ls := ⟨rfl, List.Perm.refl _⟩

theorem fsType?_eq_some_iff {w : Text} : fsType? w = some t ↔ w = t.name := by
  have hne : FsType.cifs.name ≠ FsType.nfs.name := by decide
  unfold fsType?
  split
  · rename_i h
    cases t with
    | nfs => exact iff_of_true rfl h
    | cifs => exact iff_of_false nofun fun h' => hne (h'.symm.trans h)
  · rename_i h
    split
    · rename_i h'
      cases t with
      | nfs => exact iff_of_false nofun h
      | cifs => exact iff_of_true rfl h'
    · rename_i h'
      cases t with
      | nfs => exact iff_of_false nofun h
      | cifs => exact iff_of_false nofun h'

theorem mountOf_of_fields {l l' : Text} (h : ∀ i < 4, field i l = field i l') :
    mountOf l = mountOf l' := by
  rw [mountOf, mountOf, h 0 (by decide), h 1 (by decide), h 2 (by decide), h 3 (by decide)]

theorem mountOf_trim (l : Text) : mountOf (trim l) = mountOf l :=
  mountOf_of_fields fun i _ => field_trim i l

theorem isMount_iff : isMount t l = true ↔ dropHash (field 0 l) ≠ [] ∧ field 2 l = t.name := by
  rw [← fsType?_eq_some_iff, isMount, mountOf]
  by_cases hdevice : dropHash (field 0 l) = []
  · rw [if_pos hdevice]
    exact iff_of_false nofun fun h => h.1 hdevice
  · rw [if_neg hdevice, and_iff_right hdevice]
    cases fsType? (field 2 l) <;> simp

theorem isMount_of_mountOf {mount : Mount} (h : mountOf l = some mount) :
    isMount mount.fstype l = true := by
  rw [isMount, h]
  exact decide_eq_true rfl

theorem mountOf_of_isMount (h : isMount t l = true) : ∃ mount, mountOf l = some mount ∧
    mount.fstype = t := by
  rw [isMount, Option.any_eq_true] at h
  obtain ⟨mount, hmount, htype⟩ := h
  exact ⟨mount, hmount, of_decide_eq_true htype⟩

theorem mem_group (hl : l ∈ fstab.full) (h : isMount t l = true) : trim l ∈ group t fstab := by
  refine List.mem_filter.mpr ⟨List.mem_map.mpr ⟨l, hl, rfl⟩, decide_eq_true ?_⟩
  have hname : field 2 (trim l) = t.name := by rw [field_trim, (isMount_iff.mp h).2]
  have hne : t.name ≠ [] := by cases t <;> decide
  rw [← hname] at hne ⊢
  exact infix_of_word ((field_cases 2 (trim l)).resolve_right hne)

/-- **The line of a row** is that of its mount. -/
theorem mountOf_line (h : isMount t l = true) (hcomplete : (rowOf t l).complete = true)
    (hentered : (rowOf t l).Entered) (hdevice : (rowOf t l).device = field 0 l) :
    mountOf (rowOf t l).line = mountOf l := by
  obtain ⟨hfirst, htype⟩ := isMount_iff.mp h
  have hdir : pathEscape (rowOf t l).mdir = field 1 l :=
    pathEscape_pathUnescape fun hc => absurd (not_blank_field 1 l _ hc) (by decide)
  have hline : (rowOf t l).line =
      join [field 0 l, field 1 l, field 2 l, field 3 l, ['0'], ['0']] := by
    rw [Row.line, hdevice, hdir, htype]
    rfl
  have hne₀ : field 0 l ≠ [] := fun hnil => hfirst (by rw [hnil]; rfl)
  have hne₁ : field 1 l ≠ [] := by
    intro hnil
    have hmdir : (rowOf t l).mdir = [] := by
      rw [rowOf, hnil]
      rfl
    rw [Row.complete, hmdir] at hcomplete
    simp at hcomplete
  have hne₂ : field 2 l ≠ [] := by
    rw [htype]
    cases t <;> decide
  have hwords : words (rowOf t l).line =
      [field 0 l, field 1 l, field 2 l, field 3 l, ['0'], ['0']] := by
    rw [hline]
    refine words_join ?_
    have hzero : isBlank '0' = false := rfl
    simp only [List.forall_mem_cons, List.not_mem_nil, false_implies, implies_true, and_true]
    exact ⟨⟨hne₀, not_blank_field 0 l⟩, ⟨hne₁, not_blank_field 1 l⟩, ⟨hne₂, not_blank_field 2 l⟩,
      ⟨hentered.options, not_blank_field 3 l⟩, ⟨List.cons_ne_nil _ _, hzero⟩,
      List.cons_ne_nil _ _, hzero⟩
  refine mountOf_of_fields fun i hi => ?_
  rw [field, hwords]
  match i, hi with
  | 0, _ => rfl
  | 1, _ => rfl
  | 2, _ => rfl
  | 3, _ => rfl

theorem written_rows (m : Box) (fstab : TextFile) : (m.rows fstab).flatMap Row.written =
    m.types.flatMap fun t => (group t fstab).flatMap fun l => (rowOf t l).written := by
  have hfree : ∀ t, (free.map (rowOf t)).flatMap Row.written = [] := by
    intro t
    rw [List.flatMap_eq_nil_iff]
    intro r hr
    obtain ⟨l, hl, rfl⟩ := List.mem_map.mp hr
    have hnil : l = [] := forall_of_all (P := fun l : Text => l = []) (by decide) l hl
    rw [hnil, rowOf_nil]
    rfl
  rw [Box.rows, List.flatMap_assoc]
  refine congrArg (List.flatMap · m.types) (funext fun t => ?_)
  rw [List.map_append, List.flatMap_append, hfree, List.append_nil, List.flatMap_map]

/-- The mounts of a type that are written. -/
theorem mounts_group (h : Rewritten m fstab) (ht : t ∈ m.types) :
    ((group t fstab).flatMap fun l => (rowOf t l).written).filterMap mountOf =
      (fstab.full.filterMap mountOf).filter fun mount => decide (mount.fstype = t) := by
  have hline : ∀ l ∈ group t fstab, (rowOf t l).written.filterMap mountOf =
      ((mountOf l).filter fun mount => decide (mount.fstype = t)).toList := by
    intro l hl
    have hrow := h.rows t ht l hl
    by_cases hmount : isMount t l = true
    · rw [if_pos hmount] at hrow
      obtain ⟨hcomplete, hentered, hdevice⟩ := hrow
      obtain ⟨mount, hsome, htype⟩ := mountOf_of_isMount hmount
      have hwritten := mountOf_line hmount hcomplete hentered hdevice
      rw [hsome] at hwritten
      rw [Row.written, if_pos hcomplete, List.filterMap_cons_some hwritten, hsome,
        Option.filter_some, if_pos (decide_eq_true htype)]
      rfl
    · rw [if_neg hmount] at hrow
      have hnone : (mountOf l).filter (fun mount => decide (mount.fstype = t)) = none := by
        rw [Option.filter_eq_none_iff]
        intro mount hsome htype
        obtain rfl := of_decide_eq_true htype
        exact hmount (isMount_of_mountOf hsome)
      rw [Row.written, hrow, if_neg (by decide), hnone]
      rfl
  have hgroup : (group t fstab).filterMap (fun l =>
      (mountOf l).filter fun mount => decide (mount.fstype = t)) =
        fstab.full.filterMap fun l =>
          (mountOf l).filter fun mount => decide (mount.fstype = t) := by
    rw [group, List.filterMap_filter, List.filterMap_map]
    refine List.filterMap_congr fun l hl => ?_
    rw [Function.comp_apply, mountOf_trim]
    split
    · rfl
    · rename_i hword
      -- a line without the name is no mount of the type
      refine (Option.filter_eq_none_iff.mpr fun mount hsome htype => ?_).symm
      obtain rfl := of_decide_eq_true htype
      exact hword (List.mem_filter.mp (mem_group hl (isMount_of_mountOf hsome))).2
  rw [List.filter_filterMap, ← hgroup, List.filterMap_flatMap, List.filterMap_eq_flatMap_toList]
  exact List.flatMap_congr hline

/-- **The lines that are left** have the same mounts. -/
theorem sameMounts_written (h : Rewritten m fstab) : SameMounts fstab.full
    (fstab.full.filter (fun l => !hasWord "nfs".toList l && !hasWord "cifs".toList l) ++
      (m.rows fstab).flatMap Row.written) where
  others := by
    have hwritten : ((m.rows fstab).flatMap Row.written).filter (fun l => (mountOf l).isNone) =
        [] := by
      rw [written_rows, List.filter_eq_nil_iff]
      intro l' hl' hnone
      obtain ⟨t, ht, hl'⟩ := List.mem_flatMap.mp hl'
      obtain ⟨l, hl, hl'⟩ := List.mem_flatMap.mp hl'
      have hrow := h.rows t ht l hl
      by_cases hmount : isMount t l = true
      · rw [if_pos hmount] at hrow
        obtain ⟨hcomplete, hentered, hdevice⟩ := hrow
        rw [Row.written, if_pos hcomplete] at hl'
        obtain ⟨mount, hsome, -⟩ := mountOf_of_isMount hmount
        rw [List.mem_singleton.mp hl', mountOf_line hmount hcomplete hentered hdevice,
          hsome] at hnone
        cases hnone
      · rw [if_neg hmount] at hrow
        rw [Row.written, hrow, if_neg (by decide)] at hl'
        cases hl'
    rw [List.filter_append, hwritten, List.append_nil, List.filter_filter]
    refine List.filter_congr fun l hl => ?_
    cases hnone : mountOf l with
    | none =>
        obtain ⟨hnfs, hcifs⟩ := h.others l hl hnone
        rw [hnfs, hcifs]
        rfl
    | some mount => rfl
  mounts := by
    have hkept : (fstab.full.filter fun l => !hasWord "nfs".toList l &&
        !hasWord "cifs".toList l).filterMap mountOf = [] := by
      rw [List.filterMap_eq_nil_iff]
      intro l hl
      obtain ⟨hl, hword⟩ := List.mem_filter.mp hl
      rw [Bool.and_eq_true, Bool.not_eq_true', Bool.not_eq_true'] at hword
      by_contra hne
      obtain ⟨mount, hsome⟩ := Option.ne_none_iff_exists'.mp hne
      have hdeleted := (h.mounts l hl mount hsome).2
      cases htype : mount.fstype with
      | nfs =>
          rw [htype] at hdeleted
          exact Bool.false_ne_true (hword.1.symm.trans hdeleted)
      | cifs =>
          rw [htype] at hdeleted
          exact Bool.false_ne_true (hword.2.symm.trans hdeleted)
    have hwritten : ((m.rows fstab).flatMap Row.written).filterMap mountOf =
        m.types.flatMap fun t => (fstab.full.filterMap mountOf).filter fun mount =>
          decide (mount.fstype = t) := by
      rw [written_rows, List.filterMap_flatMap]
      exact List.flatMap_congr fun t ht => mounts_group h ht
    have hother : ∀ mount : Mount, decide (mount.fstype = .cifs) =
        !decide (mount.fstype = .nfs) := by
      intro mount
      cases mount.fstype <;> rfl
    rw [List.filterMap_append, hkept, List.nil_append, hwritten]
    by_cases hcifs : m.cifs = true
    · rw [Box.types, if_pos hcifs, List.flatMap_cons, List.flatMap_singleton,
        List.filter_congr (q := fun mount => !decide (mount.fstype = .nfs))
          fun mount _ => hother mount]
      exact List.filter_append_perm _ _
    · have htypes : m.types = [.nfs] := if_neg hcifs
      rw [htypes, List.flatMap_singleton, List.filter_eq_self.mpr]
      intro mount hmem
      obtain ⟨l, hl, hsome⟩ := List.mem_filterMap.mp hmem
      have hmem := (h.mounts l hl mount hsome).1
      rw [htypes] at hmem
      exact decide_eq_true (List.mem_singleton.mp hmem)

end Mounts

/-! ## An example -/

/-- A box with cifs, where no text runs commands and no name is a pattern. -/
def plainBox : Box where
  toTools := plainTools.toTools
  cifs := true
  delay := true

def nasLine : Text := "nas:/data\\040set  /mnt/data nfs rw,hard,noauto 0 0".toList

def shareLine : Text := " #//pc/share/music /mnt/share cifs\trw,uid=root,noauto 0 0".toList

def mountsFstab : TextFile := ⟨["proc /proc proc defaults 0 0".toList, shareLine, nasLine], []⟩

theorem mountsFstab_groups {t : FsType} {l : Text} (hl : l ∈ group t mountsFstab) :
    (t = .nfs ∧ l = nasLine) ∨ (t = .cifs ∧ l = trim shareLine) := by
  have hnfs : group .nfs mountsFstab = [nasLine] := by decide +kernel
  have hcifs : group .cifs mountsFstab = [trim shareLine] := by decide +kernel
  cases t with
  | nfs =>
      rw [hnfs] at hl
      exact Or.inl ⟨rfl, List.mem_singleton.mp hl⟩
  | cifs =>
      rw [hcifs] at hl
      exact Or.inr ⟨rfl, List.mem_singleton.mp hl⟩

theorem mountsFstab_unchanged : Unchanged plainBox mountsFstab where
  readable := by
    intro t _ l hl
    have hglob : ∀ w, plainBox.glob w = [w] := fun _ => rfl
    rcases mountsFstab_groups hl with ⟨rfl, rfl⟩ | ⟨rfl, rfl⟩
    · exact ⟨fun w _ => hglob w, by decide +kernel, forall_of_all (by decide +kernel),
        by decide +kernel, forall_of_all (by decide +kernel), forall_of_all (by decide +kernel)⟩
    · exact ⟨fun w _ => hglob w, by decide +kernel, forall_of_all (by decide +kernel),
        by decide +kernel, forall_of_all (by decide +kernel), forall_of_all (by decide +kernel)⟩
  sendable := by
    have htext : ∀ {x : Text}, x.all isAscii = true ∧ isEchoOption x = false ∧
        ¬ (isRead x = true ∨ x ∈ neededNames) → Sendable plainBox x :=
      fun h => ⟨h.1, h.2.1, h.2.2, rfl⟩
    intro t _ l hl x hx
    refine htext ?_
    revert x
    rcases mountsFstab_groups hl with ⟨rfl, rfl⟩ | ⟨rfl, rfl⟩
    · exact forall_of_all (by decide +kernel)
    · exact forall_of_all (by decide +kernel)

theorem mountsFstab_rewritten : Rewritten plainBox mountsFstab where
  ended := rfl
  others := by
    have hlines : mountsFstab.full.all (fun l => !(mountOf l).isNone ||
        !hasWord "nfs".toList l && !hasWord "cifs".toList l) = true := by decide +kernel
    intro l hl hnone
    have h := List.all_eq_true.mp hlines l hl
    rw [hnone] at h
    simpa using h
  mounts := by
    have hlines : mountsFstab.full.all (fun l => (mountOf l).all fun mount =>
        decide (mount.fstype ∈ plainBox.types) && hasWord mount.fstype.name l) = true := by
      decide +kernel
    intro l hl mount hsome
    have h := List.all_eq_true.mp hlines l hl
    rw [hsome] at h
    simpa using h
  rows := by
    intro t _ l hl
    rcases mountsFstab_groups hl with ⟨rfl, rfl⟩ | ⟨rfl, rfl⟩
    · rw [if_pos (by decide +kernel)]
      exact ⟨by decide +kernel, ⟨by decide +kernel, by decide +kernel, by decide +kernel⟩,
        by decide +kernel⟩
    · rw [if_pos (by decide +kernel)]
      exact ⟨by decide +kernel, ⟨by decide +kernel, by decide +kernel, by decide +kernel⟩,
        by decide +kernel⟩

end AltF.Cgi.RmountPage
