/-
  Cgi/InetdPage.lean --- inetd.cgi and inetd_proc.cgi: a box for each service of inetd.conf, and
  what S41inetd is asked for when the page is submitted.

  A line with seven fields is a row, also one that is a comment; its name is empty where a blank
  follows the `#`.  The last number that is sent has no row.
-/
import AltF.Cgi.CronPage
import AltF.Services.Inetd

set_option autoImplicit false

namespace AltF.Cgi.InetdPage

open AltF.Shell AltF.SysFiles AltF.Services.Inetd

/-! ## The pages -/

/-- A row of the page. -/
structure Row where
  enabled : Bool
  srv : Text
  exe : Text
  deriving DecidableEq, Repr

/-- `read srv tp nt wt ow exep exe args`, and a round of the loop. -/
def rowOf (line : List Marked) : Option Row :=
  let fields := readFields 7 line
  let exe := fields.getD 6 []
  if (fields.take 7).any (· == []) then none
  else
    match fields.headD [] with
    | '#' :: srv => some ⟨false, srv, exe⟩
    | srv => some ⟨true, srv, exe⟩

def rows (conf : TextFile) : List Row := (logicalLines [] conf.text).filterMap rowOf

/-- What a row sends. -/
def Row.sent (r : Row) (b : Browser) (ticked : Bool) : List (Text × Text) :=
  (if ticked then [("chk".toList, "enable".toList)] else []) ++
    [("srv".toList, urlencode (b.value r.srv)), ("prog".toList, urlencode (b.value r.exe))]

def sentRows (b : Browser) (rs : List Row) (ticks : Nat → Bool) : List (List (Text × Text)) :=
  rs.mapIdx fun k r => r.sent b (ticks k)

/-- `cnt` and the button, after `n` rows -/
def others (n : Nat) : List (Text × Text) :=
  [("cnt".toList, Nat.toDigits 10 (n + 1)), ("submit".toList, "Submit".toList)]

/-- inetd.cgi: the form, as it is sent with these boxes. -/
def form (b : Browser) (conf : TextFile) (ticks : Nat → Bool) : List (Text × Text) :=
  rowsPairs 1 (sentRows b (rows conf) ticks) ++ others (rows conf).length

/-- `to_enable` and `to_disable` -/
structure Lists where
  toEnable : Text
  toDisable : Text

/-- A round of the loop of inetd_proc.cgi; the scripts that it stops leave inetd.conf alone. -/
def addRow (m : PageMachine) (env : Env) (ls : Lists) (i : Nat) : Lists :=
  let srv := m.echoVar env (numbered "srv".toList i)
  if m.echoVar env (numbered "chk".toList i) = "enable".toList then
    { ls with toEnable := ls.toEnable ++ ' ' :: srv }
  else { ls with toDisable := ls.toDisable ++ ' ' :: srv }

/-- A service of this name, which must be no pattern. -/
def serviceOf (w : Text) : Option Service :=
  if h : w ≠ [] ∧ w.all Services.isNameChar = true then some ⟨w, h⟩ else none

/-- `if test -n "$list"; then rcinetd ... $list; fi` -/
def rcinetd (m : PageMachine) (request : List Service → Request) (list : Text) (conf : TextFile) :
    Option TextFile :=
  if list = [] then some conf
  else ((expand m.glob list).mapM serviceOf).map fun ss => step conf (request ss)

/-- inetd_proc.cgi: inetd.conf after it. -/
def inetdProc (m : PageMachine) (env : Env) (body : Text) (conf : TextFile) : Option TextFile := do
  let env₁ ← m.readForm env body
  if env₁ "Configure".toList ≠ [] ∨ env₁ "Submit".toList = [] then return conf
  let lists := (seq (m.echoVar env₁ "cnt".toList)).foldl (addRow m env₁)
    ⟨env₁ "to_enable".toList, env₁ "to_disable".toList⟩
  let conf ← rcinetd m .enable lists.toEnable conf
  rcinetd m .disable lists.toDisable conf

/-! ## Rows that arrive -/

/-- A variable that inetd_proc.cgi reads. -/
def isRead (n : Text) : Bool :=
  ["Configure".toList, "cnt".toList, "to_enable".toList, "to_disable".toList].contains n ||
    isRowName n && ["chk".toList, "srv".toList].contains (rowBase n)

def isTaken (n : Text) : Bool := isRead n || neededNames.contains n

/-- A character of a program's name. -/
def isProgramChar (c : Char) : Bool := Services.isNameChar c || c == '.' || c == '/'

/-- A row that the browser shows as it is, whose texts are no names of variables that are read. -/
structure Row.Plain (r : Row) : Prop where
  srv : r.srv.all Services.isNameChar = true
  exe : r.exe.all isProgramChar = true
  option : isEchoOption r.srv = false
  unread : isTaken r.srv = false ∧ isTaken r.exe = false

instance (r : Row) : Decidable r.Plain :=
  decidable_of_iff (r.srv.all Services.isNameChar = true ∧ r.exe.all isProgramChar = true ∧
      isEchoOption r.srv = false ∧ isTaken r.srv = false ∧ isTaken r.exe = false)
    ⟨fun h => ⟨h.1, h.2.1, h.2.2.1, h.2.2.2⟩, fun h => ⟨h.srv, h.exe, h.option, h.unread⟩⟩

theorem programChar_cases {c : Char} (hc : isProgramChar c = true) :
    c.isAlphanum = true ∨ c ∈ "_-./".toList := by
  simp only [isProgramChar, Services.isNameChar, Bool.or_eq_true, beq_iff_eq] at hc
  rcases hc with (((halnum | rfl) | rfl) | rfl) | rfl
  · exact .inl halnum
  all_goals exact .inr (by decide)

theorem isShown_of_isProgramChar {c : Char} (hc : isProgramChar c = true) : isShown c = true := by
  rcases programChar_cases hc with halnum | hmem
  · exact isShown_of_isAlphanum halnum
  · have hall : "_-./".toList.all isShown = true := by decide +kernel
    exact List.all_eq_true.mp hall c hmem

theorem isWild_of_isNameChar {c : Char} (hc : Services.isNameChar c = true) : isWild c = false := by
  by_contra hwild
  simp only [isWild, Bool.not_eq_false, Bool.or_eq_true, beq_iff_eq] at hwild
  rcases hwild with (rfl | rfl) | rfl <;> exact absurd hc (by decide)

theorem urlencode_name {t : Text} (ht : t.all Services.isNameChar = true) : urlencode t = t := by
  have hchar : ∀ c ∈ t, encodeChar c = [c] := by
    intro c hc
    have hname := List.all_eq_true.mp ht c hc
    simp only [Services.isNameChar, Bool.or_eq_true, beq_iff_eq] at hname
    refine if_pos ?_
    rcases hname with (halnum | rfl) | rfl
    · rw [isUnreserved, halnum, Bool.true_or]
    all_goals decide
  rw [urlencode, List.flatMap_congr hchar, List.flatMap_singleton']

namespace Row

variable {r : Row} {b : Browser}

theorem Plain.exe_shown (h : r.Plain) : r.exe.all isShown = true :=
  List.all_eq_true.mpr fun _ hc => isShown_of_isProgramChar (List.all_eq_true.mp h.exe _ hc)

theorem Plain.srv_shown (h : r.Plain) : r.srv.all isShown = true := by
  refine List.all_eq_true.mpr fun c hc => isShown_of_isProgramChar ?_
  rw [isProgramChar, List.all_eq_true.mp h.srv c hc]
  rfl

theorem Plain.sent_eq (h : r.Plain) (b : Browser) (ticked : Bool) :
    r.sent b ticked = (if ticked then [("chk".toList, "enable".toList)] else []) ++
      [("srv".toList, r.srv), ("prog".toList, urlencode r.exe)] := by
  rw [sent, b.shows h.srv_shown, b.shows h.exe_shown, urlencode_name h.srv]

end Row

theorem getElem?_sentRows (b : Browser) (rs : List Row) (ticks : Nat → Bool) {k : Nat}
    {x : List (Text × Text)} :
    (sentRows b rs ticks)[k]? = some x ↔ ∃ r, rs[k]? = some r ∧ x = r.sent b (ticks k) := by
  rw [sentRows, List.getElem?_mapIdx, Option.map_eq_some_iff]
  exact exists_congr fun r => and_congr_right fun _ => eq_comm

section Form

variable {rs : List Row} (hrs : ∀ r ∈ rs, r.Plain) (b : Browser) (ticks : Nat → Bool)

include hrs

theorem mem_sentRows {x : List (Text × Text)} (hx : x ∈ sentRows b rs ticks) :
    ∃ r ∈ rs, ∃ ticked : Bool, x = (if ticked then [("chk".toList, "enable".toList)] else []) ++
      [("srv".toList, r.srv), ("prog".toList, urlencode r.exe)] := by
  obtain ⟨k, hk⟩ := List.mem_iff_getElem?.mp hx
  obtain ⟨r, hr, rfl⟩ := (getElem?_sentRows b rs ticks).mp hk
  have hmem := List.mem_of_getElem? hr
  exact ⟨r, hmem, ticks k, (hrs r hmem).sent_eq b (ticks k)⟩

theorem rowFields_sentRows : RowFields (sentRows b rs ticks) where
  bases := by
    intro x hx y hy
    obtain ⟨r, -, ticked, rfl⟩ := mem_sentRows hrs b ticks hx
    have hnames : ∀ n ∈ ["chk".toList, "srv".toList, "prog".toList], isAwkName n = true :=
      forall_of_all (by decide)
    refine hnames _ ?_
    cases ticked <;> simp at hy <;> rcases hy with rfl | rfl | rfl <;> simp
  distinct := by
    intro x hx
    obtain ⟨r, -, ticked, rfl⟩ := mem_sentRows hrs b ticks hx
    cases ticked <;>
      (simp only [List.map_cons, List.map_nil, List.nil_append, List.cons_append,
        Bool.false_eq_true, if_false, if_true]; decide)
  encoded := by
    intro x hx y hy
    obtain ⟨r, hr, ticked, rfl⟩ := mem_sentRows hrs b ticks hx
    have hsrv : r.srv.all isEncodedChar = true := by
      rw [← urlencode_name (hrs r hr).srv]
      exact isEncoded_urlencode (isByte_of_shown (hrs r hr).srv_shown)
    have hexe := isEncoded_urlencode (isByte_of_shown (hrs r hr).exe_shown)
    cases ticked <;> simp at hy <;> rcases hy with rfl | rfl | rfl <;>
      first | exact hsrv | exact hexe | decide

theorem names_form {n : Text} (hawk : isAwkName n = true)
    (hn : isRead n = true ∨ n ∈ neededNames) :
    n ∉ (rowsPairs 1 (sentRows b rs ticks) ++ others rs.length).map Prod.snd := by
  have htaken : isTaken n = true :=
    (Bool.or_eq_true _ _).mpr (hn.imp_right List.contains_iff_mem.mpr)
  intro hmem
  rw [List.map_append, List.mem_append] at hmem
  rcases hmem with hmem | hmem
  · obtain ⟨x, hx, hv⟩ := value_rowsPairs hmem
    obtain ⟨r, hr, ticked, rfl⟩ := mem_sentRows hrs b ticks hx
    have hsrv : n ≠ r.srv := fun heq =>
      Bool.false_ne_true ((hrs r hr).unread.1.symm.trans (heq ▸ htaken))
    have hexe : n ≠ urlencode r.exe := fun heq => by
      have hsame := eq_of_urlencode_eq (isByte_of_shown (hrs r hr).exe_shown) hawk heq.symm
      exact Bool.false_ne_true ((hrs r hr).unread.2.symm.trans (hsame ▸ htaken))
    have henable : n ≠ "enable".toList := fun heq => by
      rw [heq] at htaken
      exact absurd htaken (by decide +kernel)
    cases ticked <;> simp at hv
    · exact hv.elim hsrv hexe
    · exact hv.elim henable fun hv => hv.elim hsrv hexe
  · rcases List.mem_cons.mp hmem with rfl | hmem
    · exact toDigits_ne_name hawk _ rfl
    · obtain rfl := List.mem_singleton.mp hmem
      exact absurd htaken (by decide +kernel)

end Form

theorem sentForm_others (n : Nat) : SentForm (others n) where
  keys := by
    intro x hx
    rcases List.mem_cons.mp hx with rfl | hx
    · show isAwkName "cnt".toList = true
      decide
    · rw [List.mem_singleton.mp hx]
      decide
  values := by
    intro x hx
    rcases List.mem_cons.mp hx with rfl | hx
    · exact isEncoded_digits (n + 1)
    · rw [List.mem_singleton.mp hx]
      decide
  distinct := by
    show ["cnt".toList, "submit".toList].Nodup
    decide
  names := by
    intro x hx
    rcases List.mem_cons.mp hx with rfl | hx
    · show "cnt".toList ∉ readArgsNames
      decide
    · rw [List.mem_singleton.mp hx]
      decide

theorem rowValue_sent {r : Row} (h : r.Plain) (b : Browser) (ticked : Bool) :
    rowValue (r.sent b ticked) "chk".toList = (if ticked then "enable".toList else []) ∧
      rowValue (r.sent b ticked) "srv".toList = r.srv := by
  rw [h.sent_eq]
  cases ticked <;> exact ⟨rfl, rfl⟩

/-- **What arrives**: the rows, and an empty one behind them. -/
theorem readForm_rows (m : PageMachine) {rs : List Row} (hrs : ∀ r ∈ rs, r.Plain) (b : Browser)
    (ticks : Nat → Bool) {env : Env} (henv : ∀ n, isRead n = true → env n = []) :
    ∃ env₁, m.readForm env (bodyText (rowsPairs 1 (sentRows b rs ticks) ++ others rs.length)) =
        some env₁ ∧
      (env₁ "Configure".toList = [] ∧ env₁ "Submit".toList ≠ [] ∧
        env₁ "cnt".toList = Nat.toDigits 10 (rs.length + 1) ∧ env₁ "to_enable".toList = [] ∧
        env₁ "to_disable".toList = []) ∧
      ∀ k, k < rs.length + 1 →
        env₁ (numbered "chk".toList (1 + k)) =
          (if ticks k = true ∧ k < rs.length then "enable".toList else []) ∧
        env₁ (numbered "srv".toList (1 + k)) = (rs[k]?.map Row.srv).getD [] := by
  have hfields : RowFields (sentRows b rs ticks ++ [[]]) := by
    have h := rowFields_sentRows hrs b ticks
    refine ⟨fun x hx => ?_, fun x hx => ?_, fun x hx => ?_⟩ <;>
      rcases List.mem_append.mp hx with hx | hx
    · exact h.bases x hx
    · rw [List.mem_singleton.mp hx]
      exact fun y hy => absurd hy List.not_mem_nil
    · exact h.distinct x hx
    · rw [List.mem_singleton.mp hx]
      exact List.nodup_nil
    · exact h.encoded x hx
    · rw [List.mem_singleton.mp hx]
      exact fun y hy => absurd hy List.not_mem_nil
  have hpairs : rowsPairs 1 (sentRows b rs ticks ++ [[]]) = rowsPairs 1 (sentRows b rs ticks) := by
    rw [rowsPairs_append]
    exact List.append_nil _
  have honce : ∀ n ∈ (others rs.length).map Prod.fst, isRowName n = false := by
    show ∀ n ∈ ["cnt".toList, "submit".toList], isRowName n = false
    exact forall_of_all (by decide)
  obtain ⟨env₁, hread, hset, hunset, hrows, hturned⟩ := m.readForm_read hfields
    (sentForm_others rs.length) honce (by decide +kernel)
    (fun n hawk hn => by rw [hpairs]; exact names_form hrs b ticks hawk hn)
    (fun p => by rw [hpairs]) (fun n hn _ => henv n hn)
  have hnone : ∀ n ∈ ["Configure".toList, "to_enable".toList, "to_disable".toList],
      env₁ n = [] := by
    intro n hn
    have hplain : isAwkName n = true ∧ isRead n = true ∧ n ∉ neededNames ∧ isRowName n = false ∧
        n ∉ ["cnt".toList, "submit".toList] :=
      forall_of_all (P := fun n => isAwkName n = true ∧ isRead n = true ∧ n ∉ neededNames ∧
        isRowName n = false ∧ n ∉ ["cnt".toList, "submit".toList]) (by decide +kernel) n hn
    exact hunset n hplain.1 hplain.2.1 hplain.2.2.1 hplain.2.2.2.1 hplain.2.2.2.2
  have hsubmit : isAwkName (env₁ "Submit".toList) = true :=
    hturned ("submit".toList, "Submit".toList) (List.mem_cons_of_mem _ List.mem_cons_self)
      (by decide)
  refine ⟨env₁, hread, ⟨hnone _ (by decide), fun hnil => ?_, ?_, hnone _ (by decide),
    hnone _ (by decide)⟩, fun k hk => ?_⟩
  · rw [hnil] at hsubmit
    exact absurd hsubmit (by decide)
  · have hcnt : isRead "cnt".toList = true := by decide +kernel
    exact hset ("cnt".toList, _) List.mem_cons_self hcnt
  · have hisread : ∀ b ∈ ["chk".toList, "srv".toList], isRead (numbered b (1 + k)) = true := by
      intro b hb
      rw [isRead, isRowName_numbered, rowBase_numbered, Bool.true_and,
        List.contains_iff_mem.mpr hb, Bool.or_true]
    have hfield : ∀ x, (sentRows b rs ticks ++ [[]])[k]? = some x →
        ∀ b ∈ ["chk".toList, "srv".toList], env₁ (numbered b (1 + k)) = rowValue x b :=
      fun x hx b hb => hrows k x hx b
        (forall_of_all (P := fun b => isAwkName b = true) (by decide) b hb) (hisread b hb)
    have hlength : (sentRows b rs ticks).length = rs.length := List.length_mapIdx
    by_cases hlt : k < rs.length
    · have hr : rs[k]? = some rs[k] := List.getElem?_eq_getElem hlt
      have hx : (sentRows b rs ticks ++ [[]])[k]? = some (rs[k].sent b (ticks k)) := by
        rw [List.getElem?_append_left (hlength ▸ hlt)]
        exact (getElem?_sentRows b rs ticks).mpr ⟨rs[k], hr, rfl⟩
      obtain ⟨hchk, hsrv⟩ := rowValue_sent (hrs _ (List.getElem_mem hlt)) b (ticks k)
      rw [hfield _ hx _ (by decide), hfield _ hx _ (by decide), hchk, hsrv, hr]
      simp [hlt]
    · obtain rfl : k = rs.length := by omega
      have hx : (sentRows b rs ticks ++ [[]])[rs.length]? = some [] := by
        rw [← hlength]
        exact List.getElem?_concat_length
      rw [hfield _ hx _ (by decide), hfield _ hx _ (by decide)]
      simp [rowValue]

/-! ## What is asked for -/

section Lists

variable {m : PageMachine} {env : Env}

/-- The words of both lists after the loop. -/
theorem mem_foldl_addRow (m : PageMachine) (env : Env) (is : List Nat) (ls : Lists) (w : Text) :
    (w ∈ expand m.glob (is.foldl (addRow m env) ls).toEnable ↔
      w ∈ expand m.glob ls.toEnable ∨
        ∃ i ∈ is, m.echoVar env (numbered "chk".toList i) = "enable".toList ∧
          w ∈ expand m.glob (m.echoVar env (numbered "srv".toList i))) ∧
    (w ∈ expand m.glob (is.foldl (addRow m env) ls).toDisable ↔
      w ∈ expand m.glob ls.toDisable ∨
        ∃ i ∈ is, m.echoVar env (numbered "chk".toList i) ≠ "enable".toList ∧
          w ∈ expand m.glob (m.echoVar env (numbered "srv".toList i))) := by
  induction is generalizing ls with
  | nil => simp
  | cons i is ih =>
      obtain ⟨hon, hoff⟩ := ih (addRow m env ls i)
      rw [List.foldl_cons, hon, hoff]
      unfold addRow
      dsimp only
      have hwords := expand_append_cons m.glob (c := ' ')
      by_cases hchk : m.echoVar env (numbered "chk".toList i) = "enable".toList
      · rw [if_pos hchk]
        simp only [hwords _ _ rfl, List.mem_append, List.exists_mem_cons_iff, hchk, true_and,
          or_assoc, ne_eq, not_true_eq_false, false_and, false_or, and_self]
      · rw [if_neg hchk]
        simp only [hwords _ _ rfl, List.mem_append, List.exists_mem_cons_iff, hchk, false_and,
          or_assoc, ne_eq, not_false_eq_true, true_and, false_or, and_self]

theorem mapM_serviceOf {ws : List Text}
    (hws : ∀ w ∈ ws, w ≠ [] ∧ w.all Services.isNameChar = true) :
    ∃ ss, ws.mapM serviceOf = some ss ∧ ss.map Service.name = ws := by
  induction ws with
  | nil => exact ⟨[], rfl, rfl⟩
  | cons w ws ih =>
      obtain ⟨ss, hss, hnames⟩ := ih fun v hv => hws v (List.mem_cons_of_mem w hv)
      have hw := hws w List.mem_cons_self
      refine ⟨⟨w, hw⟩ :: ss, ?_, by rw [List.map_cons, hnames]⟩
      rw [List.mapM_cons, serviceOf, dif_pos hw, hss]
      rfl

theorem rcinetd_eq {request : List Service → Request} {list : Text} {conf : TextFile}
    (hnone : step conf (request []) = conf)
    (hws : ∀ w ∈ expand m.glob list, w ≠ [] ∧ w.all Services.isNameChar = true) :
    ∃ ss, ss.map Service.name = expand m.glob list ∧
      rcinetd m request list conf = some (step conf (request ss)) := by
  obtain ⟨ss, hss, hnames⟩ := mapM_serviceOf hws
  unfold rcinetd
  split
  · rename_i hlist
    subst hlist
    exact ⟨[], rfl, by rw [hnone]⟩
  · exact ⟨ss, hnames, by rw [hss]; rfl⟩

/-- A name that a variable has is the only word that `echo` prints of it. -/
theorem expand_echoVar {r : Row} (h : r.Plain) {n : Text} (hn : env n = r.srv) (w : Text) :
    w ∈ expand m.glob (m.echoVar env n) ↔ r.srv = w ∧ w ≠ [] := by
  by_cases hnil : r.srv = []
  · rw [m.echoVar_nil (hn.trans hnil), hnil]
    exact iff_of_false List.not_mem_nil fun hboth => hboth.2 hboth.1.symm
  · have hwild : ∀ c ∈ r.srv, isWild c = false := fun c hc =>
      isWild_of_isNameChar (List.all_eq_true.mp h.srv c hc)
    have hencoded : r.srv.all isEncodedChar = true := by
      rw [← urlencode_name h.srv]
      exact isEncoded_urlencode (isByte_of_shown h.srv_shown)
    have hblank : ∀ c ∈ r.srv, isBlank c = false := fun c hc =>
      not_blank_of_isEncodedChar (List.all_eq_true.mp hencoded c hc)
    rw [m.echoVar_kept hn hencoded hnil h.option (m.globs hwild), expand,
      words_eq_singleton hnil hblank, List.flatMap_singleton, m.globs hwild, List.mem_singleton]
    constructor
    · rintro rfl
      exact ⟨rfl, hnil⟩
    · exact fun hboth => hboth.1.symm

end Lists

/-- The services that the loop collects for `rcinetd enable` and for `rcinetd disable`. -/
theorem mem_lists (m : PageMachine) {rs : List Row} (hrs : ∀ r ∈ rs, r.Plain)
    (ticks : Nat → Bool) {env : Env}
    (henv : ∀ k, k < rs.length + 1 →
      env (numbered "chk".toList (1 + k)) =
        (if ticks k = true ∧ k < rs.length then "enable".toList else []) ∧
      env (numbered "srv".toList (1 + k)) = (rs[k]?.map Row.srv).getD []) (w : Text) :
    let ls := (List.range' 1 (rs.length + 1)).foldl (addRow m env) ⟨[], []⟩
    (w ∈ expand m.glob ls.toEnable ↔
      w ≠ [] ∧ ∃ k r, rs[k]? = some r ∧ ticks k = true ∧ r.srv = w) ∧
    (w ∈ expand m.glob ls.toDisable ↔
      w ≠ [] ∧ ∃ k r, rs[k]? = some r ∧ ticks k = false ∧ r.srv = w) := by
  intro ls
  have hempty : w ∉ expand m.glob [] := List.not_mem_nil
  obtain ⟨hon, hoff⟩ := mem_foldl_addRow m env (List.range' 1 (rs.length + 1)) ⟨[], []⟩ w
  have hchk : ∀ k, k < rs.length + 1 →
      (m.echoVar env (numbered "chk".toList (1 + k)) = "enable".toList ↔
        ticks k = true ∧ k < rs.length) := by
    intro k hk
    have hvar := (henv k hk).1
    split at hvar
    · rename_i hticked
      rw [m.echoVar_kept hvar (by decide) (by decide) (by decide)
        (m.globs (forall_of_all (by decide)))]
      exact iff_of_true rfl hticked
    · rename_i hticked
      rw [m.echoVar_nil hvar]
      exact iff_of_false (by decide) hticked
  -- the words of a round
  have hwords : ∀ k, k < rs.length + 1 →
      (w ∈ expand m.glob (m.echoVar env (numbered "srv".toList (1 + k))) ↔
        w ≠ [] ∧ ∃ r, rs[k]? = some r ∧ r.srv = w) := by
    intro k hk
    have hvar := (henv k hk).2
    cases hr : rs[k]? with
    | none =>
        rw [hr] at hvar
        rw [m.echoVar_nil hvar]
        exact iff_of_false hempty fun h => by obtain ⟨-, r, hsome, -⟩ := h; exact nomatch hsome
    | some r =>
        rw [hr] at hvar
        rw [expand_echoVar (hrs r (List.mem_of_getElem? hr)) hvar, and_comm]
        refine and_congr_right fun _ => ⟨fun h => ⟨r, rfl, h⟩, ?_⟩
        rintro ⟨r', hsome, h⟩
        rw [Option.some.inj hsome]
        exact h
  have hrange : ∀ {P : Nat → Prop}, (∃ i ∈ List.range' 1 (rs.length + 1), P i) ↔
      ∃ k, k < rs.length + 1 ∧ P (1 + k) := by
    intro P
    constructor
    · rintro ⟨i, hi, hP⟩
      rw [List.mem_range'_1] at hi
      exact ⟨i - 1, by omega, by rwa [Nat.add_sub_cancel' hi.1]⟩
    · rintro ⟨k, hk, hP⟩
      exact ⟨1 + k, List.mem_range'_1.mpr (by omega), hP⟩
  rw [hon, hoff, hrange, hrange]
  constructor
  · constructor
    · rintro (hmem | ⟨k, hk, hticked, hmem⟩)
      · exact absurd hmem hempty
      · obtain ⟨hne, r, hr, hsrv⟩ := (hwords k hk).mp hmem
        exact ⟨hne, k, r, hr, ((hchk k hk).mp hticked).1, hsrv⟩
    · rintro ⟨hne, k, r, hr, hticked, hsrv⟩
      have hlt : k < rs.length := (List.getElem?_eq_some_iff.mp hr).1
      exact .inr ⟨k, by omega, (hchk k (by omega)).mpr ⟨hticked, hlt⟩,
        (hwords k (by omega)).mpr ⟨hne, r, hr, hsrv⟩⟩
  · constructor
    · rintro (hmem | ⟨k, hk, hticked, hmem⟩)
      · exact absurd hmem hempty
      · obtain ⟨hne, r, hr, hsrv⟩ := (hwords k hk).mp hmem
        have hlt : k < rs.length := (List.getElem?_eq_some_iff.mp hr).1
        have hnot : ticks k = false := by
          rw [← Bool.not_eq_true]
          exact fun h => hticked ((hchk k hk).mpr ⟨h, hlt⟩)
        exact ⟨hne, k, r, hr, hnot, hsrv⟩
    · rintro ⟨hne, k, r, hr, hticked, hsrv⟩
      have hlt : k < rs.length := (List.getElem?_eq_some_iff.mp hr).1
      have hnot : ¬ (ticks k = true ∧ k < rs.length) := fun h =>
        Bool.false_ne_true (hticked.symm.trans h.1)
      exact .inr ⟨k, by omega, fun h => hnot ((hchk k (by omega)).mp h),
        (hwords k (by omega)).mpr ⟨hne, r, hr, hsrv⟩⟩

/-! ## The services afterwards -/

/-- The boxes want a service: all those with its name are ticked, and it is on if there are none. -/
def Ticked (rs : List Row) (ticks : Nat → Bool) (e : Entry) : Prop :=
  (∀ k r, rs[k]? = some r → r.srv = e.name → ticks k = true) ∧
    (e.enabled = true ∨ ∃ r ∈ rs, r.srv = e.name)

theorem wanted_pair (E D : List Service) (e : Entry) :
    wanted [.enable E, .disable D] e = true ↔
      e.name ∉ D.map Service.name ∧ (e.name ∈ E.map Service.name ∨ e.enabled = true) := by
  unfold wanted
  simp only [List.reverse_cons, List.reverse_nil, List.nil_append, List.cons_append,
    List.find?_cons, List.find?_nil, Request.names]
  by_cases hD : e.name ∈ D.map Service.name
  · simp [hD, Request.turnsOn]
  · by_cases hE : e.name ∈ E.map Service.name <;> simp [hD, hE, Request.turnsOn]

theorem ticked_iff {rs : List Row} {ticks : Nat → Bool} {e : Entry} (hne : e.name ≠ []) :
    ¬ (e.name ≠ [] ∧ ∃ k r, rs[k]? = some r ∧ ticks k = false ∧ r.srv = e.name) ∧
        ((e.name ≠ [] ∧ ∃ k r, rs[k]? = some r ∧ ticks k = true ∧ r.srv = e.name) ∨
          e.enabled = true) ↔
      Ticked rs ticks e := by
  constructor
  · rintro ⟨hnone, hsome⟩
    refine ⟨fun k r hr hsrv => ?_, hsome.elim (fun h => ?_) .inl⟩
    · by_contra hticked
      exact hnone ⟨hne, k, r, hr, Bool.not_eq_true _ ▸ hticked, hsrv⟩
    · obtain ⟨-, k, r, hr, -, hsrv⟩ := h
      exact .inr ⟨r, List.mem_of_getElem? hr, hsrv⟩
  · rintro ⟨hall, hsome⟩
    refine ⟨?_, hsome.symm.imp_left ?_⟩
    · rintro ⟨-, k, r, hr, hticked, hsrv⟩
      exact Bool.false_ne_true (hticked.symm.trans (hall k r hr hsrv))
    · rintro ⟨r, hmem, hsrv⟩
      obtain ⟨k, hr⟩ := List.mem_iff_getElem?.mp hmem
      exact ⟨hne, k, r, hr, hall k r hr hsrv, hsrv⟩

/-- A number comes out as it is. -/
theorem echoVar_digits (m : PageMachine) {env : Env} {n : Text} {k : Nat}
    (hn : env n = Nat.toDigits 10 k) : m.echoVar env n = Nat.toDigits 10 k := by
  have hchars : ∀ c ∈ Nat.toDigits 10 k, isWild c = false := by
    intro c hc
    refine isWild_of_isNameChar ?_
    rw [Services.isNameChar, Char.isAlphanum, isDigit_of_mem_toDigits hc, Bool.or_true,
      Bool.true_or, Bool.true_or]
  have hoption : isEchoOption (Nat.toDigits 10 k) = false := by
    obtain ⟨d, hd⟩ := List.exists_mem_of_ne_nil (Nat.toDigits 10 k) Nat.toDigits_ne_nil
    refine isEchoOption_of_mem hd (Bool.not_eq_true _ ▸ fun hmem => ?_)
    have hnot : ∀ c ∈ "-neE".toList, c.isDigit = false := forall_of_all (by decide)
    have hdigit := hnot d (List.contains_iff_mem.mp hmem)
    exact Bool.false_ne_true (hdigit.symm.trans (isDigit_of_mem_toDigits hd))
  exact m.echoVar_kept hn (isEncoded_digits _) Nat.toDigits_ne_nil hoption (m.globs hchars)

/-- Two services, one of them turned off, and a comment. -/
def twoServices : TextFile where
  full := ["# name type protocol wait user program arguments".toList,
    "ssh\tstream\ttcp\tnowait\troot\t/usr/sbin/dropbear\tdropbear -i".toList,
    "#telnet\tstream\ttcp\tnowait\troot\t/usr/sbin/telnetd\ttelnetd -i".toList]
  rest := []

end AltF.Cgi.InetdPage
