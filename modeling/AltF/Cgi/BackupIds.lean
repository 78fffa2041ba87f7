/-
  Cgi/BackupIds.lean --- what becomes of backup.conf and the ids in it when its page is opened
  and submitted.

  The ids that are saved are the numbers of the rows, from 0 on, and those that are shown for new
  backups are above the highest one.
-/
import Mathlib.Data.List.Forall2
import AltF.Cgi.BackupPage

set_option autoImplicit false

namespace AltF.Cgi.BackupPage

open AltF.Shell AltF.SysFiles AltF.Backup

/-! ## What is installed -/

/-- The entries of rows with the numbers from `i` on. -/
def saveRows (m : Box) : Nat → List Row → List Entry
  | _, [] => []
  | i, r :: rs => (r.saved m i).toList ++ saveRows m (i + 1) rs

section Saved

variable {m : Box} {rs : List Row}

theorem flatMap_confLine {f : Nat → Text} {i : Nat} (h : ∀ k r, rs[k]? = some r →
    f (i + k) = (r.saved m (i + k)).toList.flatMap fun e => e.line ++ ['\n']) :
    (List.range' i rs.length).flatMap f =
      (saveRows m i rs).flatMap fun e => e.line ++ ['\n'] := by
  induction rs generalizing i with
  | nil => rfl
  | cons r rs ih =>
      have hrest : ∀ k r', rs[k]? = some r' → f (i + 1 + k) =
          (r'.saved m (i + 1 + k)).toList.flatMap fun e => e.line ++ ['\n'] := by
        intro k r' hr'
        rw [Nat.add_assoc, Nat.add_comm 1 k]
        exact h (k + 1) r' hr'
      rw [List.length_cons, List.range'_succ, List.flatMap_cons, saveRows, List.flatMap_append,
        ih hrest]
      exact congrArg (· ++ _) (h 0 r rfl)

theorem saveRows_append (i : Nat) (rs rs' : List Row) :
    saveRows m i (rs ++ rs') = saveRows m i rs ++ saveRows m (i + rs.length) rs' := by
  induction rs generalizing i with
  | nil => rfl
  | cons r rs ih =>
      rw [List.cons_append, saveRows, saveRows, ih, List.append_assoc, List.length_cons,
        Nat.add_assoc, Nat.add_comm 1 rs.length]

theorem length_saveRows (i : Nat) (rs : List Row) : (saveRows m i rs).length ≤ rs.length := by
  induction rs generalizing i with
  | nil => exact Nat.le_refl 0
  | cons r rs ih =>
      have hfirst : (r.saved m i).toList.length ≤ 1 := by cases r.saved m i <;> simp
      have hrest := ih (i + 1)
      rw [saveRows, List.length_append, List.length_cons]
      omega

/-- As many entries as rows: each row made its own. -/
theorem saved_of_saveRows {i : Nat} {es : List Entry} (hlength : rs.length ≤ es.length)
    (h : saveRows m i rs = es) :
    rs.length = es.length ∧
      ∀ (k : Nat) (r : Row), rs[k]? = some r → r.saved m (i + k) = es[k]? := by
  induction rs generalizing i es with
  | nil =>
      rw [← h]
      exact ⟨rfl, nofun⟩
  | cons r rs ih =>
      rw [saveRows] at h
      cases hsaved : r.saved m i with
      | none =>
          rw [hsaved, Option.toList_none, List.nil_append] at h
          have hle := length_saveRows (m := m) (i + 1) rs
          rw [h] at hle
          rw [List.length_cons] at hlength
          omega
      | some e =>
          rw [hsaved, Option.toList_some, List.singleton_append] at h
          subst h
          rw [List.length_cons, List.length_cons, Nat.add_le_add_iff_right] at hlength
          obtain ⟨hsame, hrest⟩ := ih hlength rfl
          refine ⟨congrArg (· + 1) hsame, fun k r' hr' => ?_⟩
          cases k with
          | zero =>
              obtain rfl := Option.some.inj hr'
              exact hsaved
          | succ k =>
              have hk := hrest k r' hr'
              rw [Nat.add_assoc, Nat.add_comm 1 k] at hk
              exact hk

theorem saveRows_of_saved {i : Nat} {es : List Entry} (hlength : rs.length = es.length)
    (h : ∀ (k : Nat) (r : Row), rs[k]? = some r → r.saved m (i + k) = es[k]?) :
    saveRows m i rs = es := by
  induction rs generalizing i es with
  | nil => exact (List.length_eq_zero_iff.mp hlength.symm).symm
  | cons r rs ih =>
      cases es with
      | nil => cases hlength
      | cons e es =>
          have hfirst : r.saved m i = some e := h 0 r rfl
          have hrest := ih (i := i + 1) (Nat.succ.inj hlength) fun k r' hr' => by
            rw [Nat.add_assoc, Nat.add_comm 1 k]
            exact h (k + 1) r' hr'
          rw [saveRows, hfirst, hrest]
          rfl

/-- The entry that is saved. -/
theorem saved_eq_some_iff {r : Row} {i : Nat} {e : Entry} : r.saved m i = some e ↔
    [r.type.getD [], r.runas, r.srcpath, r.when, r.hour, r.nlogs].any (·.isEmpty) = false ∧
      ¬ (r.type.getD [] ≠ "Dir".toList ∧ r.host.getD [] = []) ∧
        squeezed (r.entry m i) = e := by
  rw [saved_eq]
  split
  · rename_i hempty
    rw [hempty]
    exact ⟨nofun, fun h => absurd h.1.symm Bool.false_ne_true⟩
  · rename_i hfull
    rw [Bool.not_eq_true] at hfull
    split
    · rename_i hhost
      exact ⟨nofun, fun h => absurd hhost h.2.1⟩
    · rename_i hhost
      exact ⟨fun h => ⟨hfull, hhost, Option.some.inj h⟩, fun h => congrArg some h.2.2⟩

/-- The ids are numbers of rows. -/
theorem id_of_saved {r : Row} {i : Nat} {e : Entry} (he : r.saved m i = some e) :
    e.id = Nat.toDigits 10 i := by
  obtain ⟨-, -, rfl⟩ := saved_eq_some_iff.mp he
  rfl

theorem id_of_mem_saveRows {i : Nat} {e : Entry} (he : e ∈ saveRows m i rs) :
    ∃ k, i ≤ k ∧ e.id = Nat.toDigits 10 k := by
  induction rs generalizing i with
  | nil => cases he
  | cons r rs ih =>
      rcases List.mem_append.mp he with he | he
      · exact ⟨i, Nat.le_refl i, id_of_saved (Option.mem_toList.mp he)⟩
      · obtain ⟨k, hk, hid⟩ := ih he
        exact ⟨k, by omega, hid⟩

theorem nodup_ids (i : Nat) (rs : List Row) : ((saveRows m i rs).map Entry.id).Nodup := by
  induction rs generalizing i with
  | nil => exact List.nodup_nil
  | cons r rs ih =>
      rw [saveRows]
      cases hsaved : r.saved m i with
      | none => exact ih (i + 1)
      | some e =>
          rw [Option.toList_some, List.singleton_append, List.map_cons, List.nodup_cons]
          refine ⟨fun hmem => ?_, ih (i + 1)⟩
          obtain ⟨e', he', hid⟩ := List.mem_map.mp hmem
          obtain ⟨k, hk, hid'⟩ := id_of_mem_saveRows he'
          have hsame : k = i := toDigits_inj (hid'.symm.trans (hid.trans (id_of_saved hsaved)))
          omega

/-- What is saved can be read back. -/
theorem written_of_saved {r : Row} (hr : r.Plain) {i : Nat} {e : Entry}
    (he : r.saved m i = some e) : e.Written := by
  obtain ⟨-, -, rfl⟩ := saved_eq_some_iff.mp he
  have hchars := hr.fields_chars m i
  have hsqueeze : ∀ {t : Text}, (∀ c ∈ t, c ≠ ';' ∧ c ≠ '\\' ∧ c ≠ '\n') →
      ∀ c ∈ squeeze t, c ≠ ';' ∧ c ≠ '\\' ∧ c ≠ '\n' := by
    intro t ht c hc
    by_cases hspace : c = ' '
    · rw [hspace]
      decide
    · exact ht c (mem_of_mem_squeeze hc hspace)
  simp only [Entry.fields, List.forall_mem_cons, List.not_mem_nil, false_implies, implies_true,
    and_true] at hchars
  obtain ⟨hid, htype, hrunas, hhost, hmac, hsrc, hdst, hwhen, hhour, hlog, hnlogs⟩ := hchars
  constructor
  · simp only [Entry.fields, squeezed, List.forall_mem_cons, List.not_mem_nil, false_implies,
      implies_true, and_true]
    exact ⟨hid, htype, hrunas, hsqueeze hhost, hsqueeze hmac, hsqueeze hsrc, hdst, hwhen, hhour,
      hlog, hnlogs⟩
  · intro hhead
    have hdigit := isDigit_of_mem_toDigits (List.mem_of_mem_head? hhead)
    exact absurd hdigit (by decide)

theorem complete_of_saved {r : Row} (hr : r.Plain) {i : Nat} {e : Entry}
    (he : r.saved m i = some e) : e.complete = true := by
  obtain ⟨hfull, -, rfl⟩ := saved_eq_some_iff.mp he
  simp only [List.any_cons, List.any_nil, Bool.or_false, Bool.or_eq_false_iff] at hfull
  obtain ⟨htype, hrunas, hsrc, hwhen, hhour, hnlogs⟩ := hfull
  have hid : isNumber (Nat.toDigits 10 i) = true := by
    rw [isNumber, Bool.and_eq_true]
    refine ⟨by simp, List.all_eq_true.mpr fun c hc => ?_⟩
    rw [isDigit_of_mem_toDigits hc, Bool.true_or]
  have hnumber : isNumber r.nlogs = true := by
    rw [isNumber, hnlogs, hr.nlogs]
    rfl
  have hsource : (squeeze r.srcpath).isEmpty = false := by
    rw [List.isEmpty_eq_false_iff] at hsrc ⊢
    exact fun h => hsrc (squeeze_eq_nil_iff.mp h)
  have hconst : "/Backup".toList.isEmpty = false ∧ "no".toList.isEmpty = false := by decide
  show (isNumber (Nat.toDigits 10 i) && isNumber r.nlogs && [r.type.getD [], r.runas,
    squeeze r.srcpath, "/Backup".toList, r.when, r.hour, "no".toList, r.nlogs].all
      (!·.isEmpty)) = true
  simp only [hid, hnumber, List.all_cons, List.all_nil, htype, hrunas, hsource, hconst.1, hconst.2,
    hwhen, hhour, hnlogs]
  rfl

theorem exists_row_of_saved {i : Nat} {e : Entry} (he : e ∈ saveRows m i rs) :
    ∃ r ∈ rs, ∃ k, r.saved m k = some e := by
  induction rs generalizing i with
  | nil => cases he
  | cons r rs ih =>
      rcases List.mem_append.mp he with he | he
      · exact ⟨r, List.mem_cons_self, i, Option.mem_toList.mp he⟩
      · obtain ⟨r', hr', k, hk⟩ := ih he
        exact ⟨r', List.mem_cons_of_mem r hr', k, hk⟩

/-- **The entries of what is installed** are those that were saved. -/
theorem confEntries_saved (hrs : ∀ r ∈ rs, r.Plain) (i : Nat) :
    confEntries ((Conf.lines true (saveRows m i rs)).flatMap (· ++ ['\n'])) =
      saveRows m i rs := by
  have hread : ∀ e ∈ saveRows m i rs, e.Written ∧ e.complete = true := by
    intro e he
    obtain ⟨r, hr, k, hk⟩ := exists_row_of_saved he
    exact ⟨written_of_saved (hrs r hr) hk, complete_of_saved (hrs r hr) hk⟩
  rw [confEntries_lines true fun e he => (hread e he).1]
  exact List.filter_eq_self.mpr fun e he => (hread e he).2

end Saved

/-! ## What arrives of the form -/

/-- The free rows, with the check box that all of them share. -/
def freeRows (news : Fin 3 → Option New) : List Row :=
  [{ freeRow (news 0) with disabled := (List.finRange 3).any fun k => (news k).any New.disabled },
    freeRow (news 1), freeRow (news 2)]

theorem encoded_shown (r : Row) : encoded r.shown =
    (if r.disabled then [("cmtd".toList, urlencode ['#'])] else []) ++ encoded r.entered := by
  rw [Row.shown, encoded, List.map_append]
  cases r.disabled <;> rfl

theorem disabled_freeRow (a : Option New) : (freeRow a).disabled = false := by cases a <;> rfl

/-- The fields of the free rows are those of rows. -/
theorem mem_freePairs {cnt : Nat} {news : Fin 3 → Option New} {p : Text × Text} :
    p ∈ freePairs cnt news ↔
      p ∈ rowsPairs cnt ((freeRows news).map fun r => encoded r.shown) := by
  have hthree : List.finRange 3 = [0, 1, 2] := by decide
  have hone : (freeRow (news 1)).disabled = false := disabled_freeRow _
  have htwo : (freeRow (news 2)).disabled = false := disabled_freeRow _
  have hentered : ∀ (r : Row) (b : Bool), ({ r with disabled := b } : Row).entered = r.entered :=
    fun _ _ => rfl
  simp only [freePairs, freeRows, hthree, List.map_cons, List.map_nil, rowsPairs, encoded_shown,
    hone, htwo, hentered, List.flatMap_cons, List.flatMap_nil, List.any_cons, List.any_nil,
    Bool.or_false, List.append_nil, List.map_append, Bool.false_eq_true, if_false]
  -- one of the boxes is checked
  have hboxes : ∀ a b c : Bool, ∀ x : Text × Text,
      p ∈ (if (a || (b || c)) = true then [x] else []).map (fun x => (numbered x.1 cnt, x.2)) ↔
        p ∈ (if a = true then [(numbered x.1 cnt, x.2)] else []) ∨
          p ∈ (if b = true then [(numbered x.1 cnt, x.2)] else []) ∨
            p ∈ (if c = true then [(numbered x.1 cnt, x.2)] else []) := by
    intro a b c x
    cases a <;> cases b <;> cases c <;> simp
  rw [List.nil_append, List.nil_append]
  simp only [List.mem_append, hboxes, Fin.val_zero, Fin.val_one, Fin.val_two, Nat.add_zero,
    Nat.add_assoc]
  tauto

section Form

variable {m : Box} {b : Browser} {rs : List Row}

theorem Row.Plain.shown_values {r : Row} (hr : r.Plain) :
    ∀ x ∈ r.shown, x.1 ∈ rowNames ∧ Value x.2 := by
  have hbox : Value ['#'] :=
    ⟨by decide, forall_of_all (by decide), by decide, by decide +kernel⟩
  have htype : ∀ t ∈ r.type, Value t := fun t ht => (value_of_type (hr.type t ht)).1
  have hhost : ∀ t ∈ r.host, Value t := by
    intro t ht
    have h := hr.host_value.1
    rwa [Option.mem_def.mp ht, Option.getD_some] at h
  intro x hx
  simp only [Row.shown, Row.entered, List.mem_append, List.mem_cons, List.mem_map,
    Option.mem_toList, List.not_mem_nil, or_false] at hx
  rcases hx with hx | ⟨t, ht, rfl⟩ | rfl | ⟨t, ht, rfl⟩ | rfl | rfl | rfl | rfl | rfl
  · split at hx
    · obtain rfl := List.mem_singleton.mp hx
      exact ⟨List.mem_cons_self, hbox⟩
    · cases hx
  · exact ⟨by dsimp only; decide, htype t ht⟩
  · exact ⟨by dsimp only; decide, hr.runas_solid.value⟩
  · exact ⟨by dsimp only; decide, hhost t ht⟩
  · exact ⟨by dsimp only; decide, hr.mac_value.1⟩
  · exact ⟨by dsimp only; decide, hr.srcpath_value.1⟩
  · exact ⟨by dsimp only; decide, hr.when_value.1⟩
  · exact ⟨by dsimp only; decide, hr.hour_value.1⟩
  · exact ⟨by dsimp only; decide, hr.nlogs_solid.value⟩

theorem keys_encoded (xs : List (Text × Text)) : (encoded xs).map Prod.fst = xs.map Prod.fst := by
  rw [encoded, List.map_map]
  rfl

theorem nodup_keys (r : Row) : ((encoded r.shown).map Prod.fst).Nodup := by
  have hnames : rowNames.Nodup := by decide
  refine hnames.sublist ?_
  rw [keys_encoded]
  obtain ⟨disabled, type, runas, host, mac, srcpath, when, hour, nlogs⟩ := r
  cases disabled <;> cases type <;> cases host <;>
    (simp only [Row.shown, Row.entered, rowNames, Option.toList_none, Option.toList_some,
      List.map_nil, List.map_cons, List.nil_append, List.cons_append, Bool.false_eq_true,
      if_false, if_true]; decide)

theorem rowFields (hrs : ∀ r ∈ rs, r.Plain) : RowFields (rs.map fun r => encoded r.shown) where
  bases := by
    intro r' hr' x hx
    obtain ⟨r, hr, rfl⟩ := List.mem_map.mp hr'
    obtain ⟨y, hy, rfl⟩ := List.mem_map.mp hx
    have hnames : ∀ n ∈ rowNames, isAwkName n = true := forall_of_all (by decide)
    exact hnames _ ((hrs r hr).shown_values y hy).1
  distinct := by
    intro r' hr'
    obtain ⟨r, hr, rfl⟩ := List.mem_map.mp hr'
    exact nodup_keys r
  encoded := by
    intro r' hr' x hx
    obtain ⟨r, hr, rfl⟩ := List.mem_map.mp hr'
    obtain ⟨y, hy, rfl⟩ := List.mem_map.mp hx
    exact isEncoded_urlencode (isByte_of_shown ((hrs r hr).shown_values y hy).2.shown)

/-- The fields that are in the form once. -/
def onceFields (m : Box) (b : Browser) (cnt : Nat) : List (Text × Text) :=
  ("bdir".toList, urlencode (b.value m.bdir)) :: m.lastFields b cnt

theorem mem_lastFields {cnt : Nat} {x : Text × Text} (hx : x ∈ onceFields m b cnt) :
    x = ("bdir".toList, urlencode m.bdir) ∨ x = ("backlog".toList, "yes".toList) ∨
      x = ("sendto".toList, urlencode m.mailto) ∨
        x = ("cnt_know".toList, Nat.toDigits 10 (cnt + 2)) ∨
          x = ("submit".toList, "Submit".toList) := by
  rw [onceFields, Box.lastFields, b.shows m.folder.2, b.shows m.address.2] at hx
  simp only [List.mem_cons, List.mem_append, List.not_mem_nil, or_false] at hx
  rcases hx with rfl | hx | rfl | rfl | rfl
  · exact Or.inl rfl
  · split at hx
    · exact Or.inr (Or.inl (List.mem_singleton.mp hx))
    · cases hx
  · exact Or.inr (Or.inr (Or.inl rfl))
  · exact Or.inr (Or.inr (Or.inr (Or.inl rfl)))
  · exact Or.inr (Or.inr (Or.inr (Or.inr rfl)))

theorem keys_onceFields {cnt : Nat} {n : Text} (hn : n ∈ (onceFields m b cnt).map Prod.fst) :
    n ∈ ["bdir".toList, "backlog".toList, "sendto".toList, "cnt_know".toList, "submit".toList] := by
  obtain ⟨x, hx, rfl⟩ := List.mem_map.mp hn
  rcases mem_lastFields hx with rfl | rfl | rfl | rfl | rfl <;> (dsimp only; decide)

theorem sentForm_onceFields (cnt : Nat) : SentForm (onceFields m b cnt) where
  keys := by
    intro x hx
    have hnames : ∀ n ∈ ["bdir".toList, "backlog".toList, "sendto".toList, "cnt_know".toList,
        "submit".toList], isAwkName n = true := forall_of_all (by decide)
    exact hnames _ (keys_onceFields (List.mem_map.mpr ⟨x, hx, rfl⟩))
  values := by
    intro x hx
    rcases mem_lastFields hx with rfl | rfl | rfl | rfl | rfl
    · exact isEncoded_urlencode (isByte_of_shown m.folder.2)
    · show "yes".toList.all isEncodedChar = true
      decide
    · exact isEncoded_urlencode (isByte_of_shown m.address.2)
    · exact isEncoded_digits _
    · show "Submit".toList.all isEncodedChar = true
      decide
  distinct := by
    unfold onceFields Box.lastFields
    split <;>
      (simp only [List.map_cons, List.map_nil, List.nil_append, List.cons_append]; decide)
  names := by
    intro x hx
    have hnames : ∀ n ∈ ["bdir".toList, "backlog".toList, "sendto".toList, "cnt_know".toList,
        "submit".toList], n ∉ readArgsNames := forall_of_all (by decide)
    exact hnames _ (keys_onceFields (List.mem_map.mpr ⟨x, hx, rfl⟩))

/-- The fields of a form, each of them once. -/
def sentFields (m : Box) (b : Browser) (rs : List Row) (cnt : Nat) : List (Text × Text) :=
  rowsPairs 0 (rs.map fun r => encoded r.shown) ++ onceFields m b cnt

theorem mem_form {conf : Text} {news : Fin 3 → Option New} {p : Text × Text} :
    p ∈ m.form b conf news ↔
      p ∈ sentFields m b (m.entryRows b false (confEntries conf) ++ freeRows news)
        (m.entryRows b false (confEntries conf)).length := by
  rw [Box.form, sentFields, onceFields, List.map_append, rowsPairs_append, List.length_map,
    Nat.zero_add]
  simp only [List.mem_cons, List.mem_append, mem_freePairs]
  tauto

theorem names_sentFields (hrs : ∀ r ∈ rs, r.Plain) {cnt : Nat} {n : Text}
    (hawk : isAwkName n = true) (hn : isRead n = true) :
    n ∉ (sentFields m b rs cnt).map Prod.snd := by
  have hchars := List.all_eq_true.mp (all_isNameChar (isName_of_isAwkName hawk))
  intro hmem
  rw [sentFields, List.map_append, List.mem_append] at hmem
  rcases hmem with hmem | hmem
  · obtain ⟨r', hr', hv⟩ := value_rowsPairs hmem
    obtain ⟨r, hr, rfl⟩ := List.mem_map.mp hr'
    obtain ⟨x, hx, hxn⟩ := List.mem_map.mp hv
    obtain ⟨y, hy, rfl⟩ := List.mem_map.mp hx
    have hvalue := ((hrs r hr).shown_values y hy).2
    have heq := eq_of_urlencode_eq (isByte_of_shown hvalue.shown) hawk hxn
    exact absurd ((heq ▸ hvalue.unread).symm.trans hn) Bool.false_ne_true
  · obtain ⟨x, hx, rfl⟩ := List.mem_map.mp hmem
    rcases mem_lastFields hx with rfl | rfl | rfl | rfl | rfl
    · have heq := eq_of_urlencode_eq (isByte_of_shown m.folder.2) hawk rfl
      exact absurd (hchars '/' (heq ▸ m.folder.1)) (by decide)
    · exact absurd hn (by decide +kernel)
    · have heq := eq_of_urlencode_eq (isByte_of_shown m.address.2) hawk rfl
      rcases m.address.1 with hnil | hat
      · rw [hnil] at hawk
        cases hawk
      · exact absurd (hchars '@' (heq ▸ hat)) (by decide)
    · exact toDigits_ne_name hawk _ rfl
    · exact absurd hn (by decide +kernel)

/-- **What arrives**: each row with its values. -/
theorem Box.readForm_rows (hrs : ∀ r ∈ rs, r.Plain) {cnt : Nat} {xs : List (Text × Text)}
    (hsame : ∀ p, p ∈ xs ↔ p ∈ sentFields m b rs cnt) {env : Env}
    (henv : ∀ n, isRead n = true → n ∉ neededNames → env n = []) :
    ∃ env₁, m.readForm env (bodyText xs) = some env₁ ∧ env₁ "Change".toList = [] ∧
      env₁ "BackupNow".toList = [] ∧ env₁ "Submit".toList ≠ [] ∧
      env₁ "cnt_know".toList = Nat.toDigits 10 (cnt + 2) ∧
      ∀ k r, rs[k]? = some r → ∀ n ∈ "log".toList :: rowNames,
        env₁ (numbered n k) = rowValue (encoded r.shown) n := by
  have honce : ∀ n ∈ (onceFields m b cnt).map Prod.fst, isRowName n = false := fun n hn =>
    forall_of_all (P := fun n => isRowName n = false) (by decide) n (keys_onceFields hn)
  have hneeded : ∀ n ∈ neededNames, isRead n = true := forall_of_all (by decide +kernel)
  have hargs : isRead "args".toList = false := by decide +kernel
  obtain ⟨env₁, hread, hset, hothers, hrows, hturned⟩ := m.readForm_read (rowFields hrs)
    (sentForm_onceFields cnt) honce hargs
    (fun n hawk hn => names_sentFields hrs hawk (hn.elim id (hneeded n))) hsame henv
  -- buttons that were not pressed
  have hunset : ∀ n ∈ ["Change".toList, "BackupNow".toList], env₁ n = [] := by
    intro n hn
    have hplain : isAwkName n = true ∧ isRead n = true ∧ n ∉ neededNames ∧ isRowName n = false ∧
        n ∉ ["bdir".toList, "backlog".toList, "sendto".toList, "cnt_know".toList,
          "submit".toList] :=
      forall_of_all (P := fun n => isAwkName n = true ∧ isRead n = true ∧ n ∉ neededNames ∧
        isRowName n = false ∧ n ∉ ["bdir".toList, "backlog".toList, "sendto".toList,
          "cnt_know".toList, "submit".toList]) (by decide +kernel) n hn
    obtain ⟨hawk, hisread, hshell, hrow, honce'⟩ := hplain
    exact hothers n hawk hisread hshell hrow fun hmem => honce' (keys_onceFields hmem)
  have hlast : ∀ x ∈ [("cnt_know".toList, Nat.toDigits 10 (cnt + 2)),
      ("submit".toList, "Submit".toList)], x ∈ onceFields m b cnt := fun x hx =>
    List.mem_cons_of_mem _ (List.mem_append_right _ (List.mem_cons_of_mem _ hx))
  refine ⟨env₁, hread, hunset _ List.mem_cons_self,
    hunset _ (List.mem_cons_of_mem _ List.mem_cons_self), ?_,
    hset _ (hlast _ List.mem_cons_self) (by show isRead "cnt_know".toList = true; decide +kernel),
    ?_⟩
  · -- the value of the button is the name of a variable
    have hname := hturned _ (hlast _ (List.mem_cons_of_mem _ List.mem_cons_self)) (by decide)
    intro hnil
    rw [hnil] at hname
    cases hname
  · intro k r hr n hn
    have hawk : isAwkName n = true :=
      forall_of_all (P := fun n => isAwkName n = true) (by decide) n hn
    have hisread : isRead (numbered n (0 + k)) = true := by
      rw [isRead, isRowName_numbered, rowBase_numbered, Bool.true_and,
        List.contains_iff_mem.mpr hn, Bool.or_true]
    have hrow : (rs.map fun r => encoded r.shown)[k]? = some (encoded r.shown) := by
      rw [List.getElem?_map, hr]
      rfl
    have hvalue := hrows k _ hrow n hawk hisread
    rwa [Nat.zero_add] at hvalue

end Form

theorem seqFrom_toDigits (n : Nat) : seqFrom (Nat.toDigits 10 n) = List.range' 0 (n + 1) := by
  have hdigits : (Nat.toDigits 10 n).all Char.isDigit = true :=
    List.all_eq_true.mpr fun d hd => isDigit_of_mem_toDigits hd
  rw [seqFrom, if_pos ⟨Nat.toDigits_ne_nil, hdigits⟩, Nat.ofDigitChars_ten_toDigits]

/-- **What is installed**: the entries of the rows, in their order. -/
theorem Box.proc_form (m : Box) (b : Browser) {conf : Text} {news : Fin 3 → Option New}
    (hrs : ∀ r ∈ m.entryRows b false (confEntries conf) ++ freeRows news, r.Plain) {env : Env}
    (henv : ∀ n, isRead n = true → n ∉ neededNames → env n = []) :
    m.proc env (bodyText (m.form b conf news)) =
      some ((Conf.lines true (saveRows m 0
        (m.entryRows b false (confEntries conf) ++ freeRows news))).flatMap (· ++ ['\n'])) := by
  obtain ⟨env₁, hread, hchange, hnow, hsubmit, hcount, hrows⟩ :=
    m.readForm_rows hrs (fun _ => mem_form) henv
  have hlines := flatMap_confLine (m := m) (f := m.confLine env₁) (i := 0) fun k r hr => by
    rw [Nat.zero_add]
    exact m.confLine_row (hrs r (List.mem_of_getElem? hr)) (hrows k r hr)
  rw [List.length_append] at hlines
  have htext : header ++ ['\n'] ++ (List.range' 0 ((m.entryRows b false (confEntries conf)).length +
      2 + 1)).flatMap (m.confLine env₁) = (Conf.lines true (saveRows m 0
        (m.entryRows b false (confEntries conf) ++ freeRows news))).flatMap (· ++ ['\n']) := by
    rw [Conf.lines, if_pos rfl, List.flatMap_append, List.flatMap_singleton, List.flatMap_map]
    exact congrArg (header ++ ['\n'] ++ ·) hlines
  rw [Box.proc, hread, Option.bind_eq_bind, Option.bind_some, if_pos ⟨hchange, hnow, hsubmit⟩,
    hcount, seqFrom_toDigits, htext]

/-! ## Entries that survive -/

/-- An entry whose texts are not changed on their way. -/
structure PlainEntry (m : Box) (e : Entry) : Prop where
  runas : isNick e.runas = true ∧ isRead (m.selectedUser e.runas) = false
  texts : ∀ t ∈ [e.host, e.mac, e.srcpath], isText isWild t = true
  times : ∀ t ∈ [e.when, e.hour], isText isBlank t = true

/-- A new backup that the form lets one enter, and that is filled in. -/
structure New.Valid (m : Box) (a : New) : Prop where
  type : a.type ∈ typeNames
  cifs : a.type = "CIFS".toList → m.cifs = true
  runas : a.runas ∈ "root".toList :: m.users
  host : a.type ≠ "Dir".toList → a.host ≠ [] ∧ isText isWild a.host = true
  filled : a.srcpath ≠ [] ∧ a.when ≠ [] ∧ a.hour ≠ []
  nlogs : isNumber a.nlogs = true
  srcpath : isText isWild a.srcpath = true
  times : ∀ t ∈ [a.when, a.hour], isText isBlank t = true

/-- The entry is the backup that was entered. -/
structure New.Saved (a : New) (e : Entry) : Prop where
  type : e.type = a.type
  runas : e.runas = a.runas
  host : a.type ≠ "Dir".toList → e.host = squeeze a.host
  srcpath : e.srcpath = squeeze a.srcpath
  times : e.when = a.when ∧ e.hour = a.hour
  nlogs : e.nlogs = a.nlogs

/-- The new backups, with the rows they were entered in. -/
def enteredIn (news : Fin 3 → Option New) : List (Fin 3 × New) :=
  (List.finRange 3).flatMap fun k => (news k).toList.map fun a => (k, a)

/-- Whatever is entered in the free rows: the entries are those that were there, in the same
order, and behind them the new ones with the ids that were shown for them; no id is there
twice. -/
def KeepsIds (c : Conf) (m : Box) (b : Browser) (env : Env) : Prop :=
  ∀ news : Fin 3 → Option New, (∀ k, ∀ a ∈ news k, a.Valid m) → ∃ installed added,
    m.proc env (bodyText (m.form b c.text news)) = some installed ∧
      confEntries installed = c.entries ++ added ∧
      List.Forall₂ (fun x e => e.id = shownId c.text x.1 ∧ x.2.Saved e) (enteredIn news) added ∧
      ((confEntries installed).map Entry.id).Nodup

/-- An entry in row `i` that is saved as it was; `rsync` says that one before it is of this
type. -/
structure Unchanged (m : Box) (rsync : Bool) (i : Nat) (e : Entry) : Prop where
  id : e.id = Nat.toDigits 10 i
  rsync : rsync = true → e.type = "rsync".toList
  cifs : e.type = "CIFS".toList → m.cifs = true
  runas : m.selectedUser e.runas = e.runas
  host : e.host = [] ↔ e.type = "Dir".toList
  mac : e.type ≠ "Dir".toList → e.mac = [] → m.arp (urlencode e.host) = []
  blanks : ∀ t ∈ [e.host, e.mac, e.srcpath], squeeze t = t
  dstpath : e.dstpath = "/Backup".toList
  log : e.log = "no".toList

/-- An entry before row `i` is of type `rsync`. -/
def rsyncBefore (i : Nat) (es : List Entry) : Bool :=
  (es.take i).any fun e => e.type == "rsync".toList

/-- The ids are the numbers of the entries from 0 on, and no entry is changed. -/
structure Numbered (c : Conf) (m : Box) : Prop where
  filled : c.entries ≠ []
  ended : c.ended = true
  entries : ∀ i e, c.entries[i]? = some e → Unchanged m (rsyncBefore i c.entries) i e

/-! ### Plain rows -/

section Rows

variable {m : Box} {b : Browser} {e : Entry}

theorem isNick_root : isNick "root".toList = true ∧ isRead "root".toList = false := by
  decide +kernel

/-- What is selected is a name again. -/
theorem isNick_selectedUser (he : isNick e.runas = true) :
    isNick (m.selectedUser e.runas) = true := by
  unfold Box.selectedUser
  split
  · rename_i u hu
    have hnick := (m.nicks u (List.mem_of_find?_eq_some hu)).1
    rw [isNick, Bool.and_eq_true] at he hnick ⊢
    constructor
    · have hhead := he.1
      cases hrunas : e.runas with
      | nil =>
          rw [hrunas] at hhead
          cases hhead
      | cons c t =>
          rw [hrunas] at hhead
          exact hhead
    · rw [List.all_append, Bool.and_eq_true]
      exact ⟨he.2, List.all_eq_true.mpr fun c hc =>
        List.all_eq_true.mp hnick.2 c (List.mem_of_mem_drop hc)⟩
  · exact isNick_root.1

theorem selectedType_mem (rsync : Bool) (type : Text) :
    selectedType rsync type ∈ "Select One".toList :: typeNames := by
  unfold selectedType
  split
  · decide
  · split
    · rename_i htype
      exact List.mem_cons_of_mem _ (List.contains_iff_mem.mp htype)
    · exact List.mem_cons_self

theorem isText_nil {p : Char → Bool} : isText p [] = true := by
  rw [isText, List.all_nil]
  decide +kernel

/-- The browser shows the texts of a plain entry as they are. -/
theorem PlainEntry.shows (he : PlainEntry m e) (hv : e.Valid) (b : Browser) :
    ∀ t ∈ [e.host, e.mac, e.srcpath, e.when, e.hour, e.nlogs], b.value t = t := by
  have hvalid := hv.complete
  simp only [Entry.complete, isNumber, Bool.and_eq_true] at hvalid
  have hnlogs : e.nlogs.all isShown = true := (solid_of_number hvalid.1.2.2).value.shown
  have htext : ∀ {p : Char → Bool} {t : Text}, isText p t = true → t.all isShown = true :=
    fun ht => (value_of_isText ht).1.shown
  intro t ht
  refine b.shows ?_
  simp only [List.mem_cons, List.not_mem_nil, or_false] at ht
  rcases ht with rfl | rfl | rfl | rfl | rfl | rfl
  · exact htext (he.texts _ List.mem_cons_self)
  · exact htext (he.texts _ (List.mem_cons_of_mem _ List.mem_cons_self))
  · exact htext (he.texts _ (List.mem_cons_of_mem _ (List.mem_cons_of_mem _ List.mem_cons_self)))
  · exact htext (he.times _ List.mem_cons_self)
  · exact htext (he.times _ (List.mem_cons_of_mem _ List.mem_cons_self))
  · exact hnlogs

/-- The row of an entry, when its texts are shown as they are. -/
theorem PlainEntry.entryRow (he : PlainEntry m e) (hv : e.Valid) (b : Browser) (rsync : Bool) :
    m.entryRow b rsync e =
      { disabled := e.disabled
        type := m.sentType (selectedType rsync e.type)
        runas := m.selectedUser e.runas
        host := if e.type = "Dir".toList then none else some e.host
        mac := e.mac
        srcpath := e.srcpath
        when := e.when
        hour := e.hour
        nlogs := e.nlogs } := by
  have hshows := he.shows hv b
  simp only [List.forall_mem_cons, List.not_mem_nil, false_implies, implies_true,
    and_true] at hshows
  obtain ⟨hhost, hmac, hsrc, hwhen, hhour, hnlogs⟩ := hshows
  rw [Box.entryRow, hhost, hmac, hsrc, hwhen, hhour, hnlogs]

theorem PlainEntry.row (he : PlainEntry m e) (hv : e.Valid) (b : Browser) (rsync : Bool) :
    (m.entryRow b rsync e).Plain := by
  have hvalid := hv.complete
  simp only [Entry.complete, isNumber, Bool.and_eq_true] at hvalid
  rw [he.entryRow hv b rsync]
  constructor
  · intro t ht
    simp only [Box.sentType, Option.mem_def] at ht
    split at ht
    · cases ht
    · obtain rfl := Option.some.inj ht
      exact selectedType_mem rsync e.type
  · exact ⟨isNick_selectedUser he.runas.1, he.runas.2⟩
  · intro t ht
    rcases List.mem_cons.mp ht with rfl | ht
    · simp only
      split
      · exact isText_nil
      · exact he.texts _ List.mem_cons_self
    · exact he.texts t (List.mem_cons_of_mem _ ht)
  · exact he.times
  · exact hvalid.1.2.2

theorem plain_freeRow_none : (freeRow none).Plain where
  type := by
    rintro t ⟨⟩
    exact List.mem_cons_self
  runas := isNick_root
  texts := by
    intro t ht
    simp only [freeRow, Option.getD_some, List.mem_cons, List.not_mem_nil, or_false, or_self] at ht
    rw [ht]
    exact isText_nil
  times := by
    intro t ht
    simp only [freeRow, List.mem_cons, List.not_mem_nil, or_false, or_self] at ht
    rw [ht]
    exact isText_nil
  nlogs := by decide

theorem New.Valid.row {a : New} (ha : a.Valid m) : (freeRow (some a)).Plain where
  type := by
    rintro t ⟨⟩
    exact List.mem_cons_of_mem _ ha.type
  runas := by
    rcases List.mem_cons.mp ha.runas with hroot | huser
    · show isNick a.runas = true ∧ isRead a.runas = false
      rw [hroot]
      exact isNick_root
    · exact m.nicks a.runas huser
  texts := by
    intro t ht
    simp only [freeRow, List.mem_cons, List.not_mem_nil, or_false] at ht
    rcases ht with rfl | rfl | rfl
    · split
      · exact isText_nil
      · rename_i hdir
        exact (ha.host hdir).2
    · exact isText_nil
    · exact ha.srcpath
  times := ha.times
  nlogs := ((Bool.and_eq_true _ _).mp ha.nlogs).2

theorem Row.Plain.withBox {r : Row} (hr : r.Plain) (d : Bool) :
    ({ r with disabled := d } : Row).Plain :=
  ⟨hr.type, hr.runas, hr.texts, hr.times, hr.nlogs⟩

theorem plain_freeRows {news : Fin 3 → Option New} (hnews : ∀ k, ∀ a ∈ news k, a.Valid m) :
    ∀ r ∈ freeRows news, r.Plain := by
  have hrow : ∀ k, (freeRow (news k)).Plain := by
    intro k
    cases hk : news k with
    | none => exact plain_freeRow_none
    | some a => exact (hnews k a hk).row
  intro r hr
  simp only [freeRows, List.mem_cons, List.not_mem_nil, or_false] at hr
  rcases hr with rfl | rfl | rfl
  · exact (hrow 0).withBox _
  · exact hrow 1
  · exact hrow 2

theorem getElem?_entryRows (rsync : Bool) (es : List Entry) (k : Nat) :
    (m.entryRows b rsync es)[k]? = es[k]?.map fun e =>
      m.entryRow b (rsync || rsyncBefore k es || e.type == "rsync".toList) e := by
  induction es generalizing rsync k with
  | nil => rfl
  | cons e es ih =>
      cases k with
      | zero =>
          rw [rsyncBefore, List.take_zero, List.any_nil, Bool.or_false]
          rfl
      | succ k =>
          have hbefore : rsyncBefore (k + 1) (e :: es) =
              (e.type == "rsync".toList || rsyncBefore k es) := by
            rw [rsyncBefore, List.take_succ_cons, List.any_cons, rsyncBefore]
          rw [hbefore, ← Bool.or_assoc]
          exact ih _ k

theorem length_entryRows (rsync : Bool) (es : List Entry) :
    (m.entryRows b rsync es).length = es.length := by
  induction es generalizing rsync with
  | nil => rfl
  | cons e es ih => exact congrArg (· + 1) (ih _)

/-- When the type of an entry is sent for it. -/
theorem sentType_entry_iff (hv : e.Valid) (rsync : Bool) :
    (m.sentType (selectedType (rsync || e.type == "rsync".toList) e.type)).getD [] = e.type ↔
      (rsync = true → e.type = "rsync".toList) ∧ (e.type = "CIFS".toList → m.cifs = true) := by
  have hne : e.type ≠ [] := by
    intro hnil
    have hmem := hv.type
    rw [hnil] at hmem
    exact absurd hmem (by decide)
  cases rsync with
  | true =>
      have hsent : (m.sentType (selectedType (true || e.type == "rsync".toList) e.type)).getD [] =
          "rsync".toList := by
        rw [Bool.true_or, selectedType, if_pos rfl, Box.sentType,
          if_neg fun h => absurd h.1 (by decide)]
        rfl
      rw [hsent]
      constructor
      · intro htype
        refine ⟨fun _ => htype.symm, fun hcifs => ?_⟩
        rw [hcifs] at htype
        exact absurd htype (by decide)
      · exact fun h => (h.1 rfl).symm
  | false =>
      have hselected : selectedType (false || e.type == "rsync".toList) e.type = e.type := by
        rw [Bool.false_or, selectedType, List.contains_iff_mem.mpr hv.type, if_pos rfl]
        split
        · rename_i h
          exact (eq_of_beq h).symm
        · rfl
      rw [hselected, Box.sentType]
      split
      · rename_i hcifs
        refine ⟨fun h => absurd h.symm hne, fun h => ?_⟩
        rw [h.2 hcifs.1] at hcifs
        exact absurd hcifs.2 (by decide)
      · rename_i hcifs
        refine ⟨fun _ => ⟨nofun, fun h => ?_⟩, fun _ => rfl⟩
        simpa [h] using hcifs

theorem squeeze_arp (host : Text) : squeeze (m.arp host) = m.arp host :=
  squeeze_of_not_blank fun _ hc => (macChar hc).2.1

/-- **When a row makes its entry again.** -/
theorem saved_entryRow_iff (he : PlainEntry m e) (hv : e.Valid) (rsync : Bool) (i : Nat) :
    (m.entryRow b (rsync || e.type == "rsync".toList) e).saved m i = some e ↔
      Unchanged m rsync i e := by
  have hsent := sentType_entry_iff (m := m) hv rsync
  have hcomplete := hv.complete
  simp only [Entry.complete, isNumber, Bool.and_eq_true, List.all_cons, List.all_nil,
    Bool.not_eq_true', Bool.and_true] at hcomplete
  obtain ⟨⟨-, hnumber, -⟩, htypene, hrunasne, hsrcne, -, hwhenne, hhourne, -, -⟩ := hcomplete
  rw [he.entryRow hv b, saved_eq_some_iff]
  constructor
  · rintro ⟨-, hdropped, heq⟩
    have htype : (m.sentType (selectedType (rsync || e.type == "rsync".toList) e.type)).getD [] =
      e.type := congrArg Entry.type heq
    have hhost : squeeze ((if e.type = "Dir".toList then none else some e.host).getD []) = e.host :=
      congrArg Entry.host heq
    have hmac := congrArg Entry.mac heq
    have hsrc : squeeze e.srcpath = e.srcpath := congrArg Entry.srcpath heq
    simp only [squeezed, Row.entry, htype] at hdropped hmac
    have hsqueezemac : squeeze e.mac = e.mac := by
      by_cases hnil : e.mac = []
      · rw [hnil]
        rfl
      · rwa [if_neg fun h => hnil h.2] at hmac
    obtain ⟨hrsync, hcifs⟩ := hsent.mp htype
    have hblanks : squeeze e.host = e.host ∧ (e.host = [] ↔ e.type = "Dir".toList) ∧
        (e.type ≠ "Dir".toList → e.mac = [] → m.arp (urlencode e.host) = []) := by
      by_cases hdir : e.type = "Dir".toList
      · rw [if_pos hdir] at hhost
        have hnil : e.host = [] := hhost.symm
        rw [hnil]
        exact ⟨rfl, iff_of_true rfl hdir, fun h => absurd hdir h⟩
      · rw [if_neg hdir] at hhost hdropped hmac
        refine ⟨hhost, iff_of_false (fun hnil => hdropped ⟨hdir, hnil⟩) hdir, fun _ hnil => ?_⟩
        rw [if_pos ⟨hdir, hnil⟩, hnil, squeeze_arp] at hmac
        exact hmac
    exact
      { id := (congrArg Entry.id heq).symm
        rsync := hrsync
        cifs := hcifs
        runas := congrArg Entry.runas heq
        host := hblanks.2.1
        mac := hblanks.2.2
        blanks := by
          simp only [List.forall_mem_cons, List.not_mem_nil, false_implies, implies_true, and_true]
          exact ⟨hblanks.1, hsqueezemac, hsrc⟩
        dstpath := (congrArg Entry.dstpath heq).symm
        log := (congrArg Entry.log heq).symm }
  · intro h
    have htype := hsent.mpr ⟨h.rsync, h.cifs⟩
    have hblanks := h.blanks
    simp only [List.forall_mem_cons, List.not_mem_nil, false_implies, implies_true,
      and_true] at hblanks
    have hhost : (if e.type = "Dir".toList then none else some e.host).getD [] = e.host := by
      split
      · rename_i hdir
        exact (h.host.mpr hdir).symm
      · rfl
    have hmac : (if e.type ≠ "Dir".toList ∧ e.mac = [] then m.arp (urlencode e.host)
        else e.mac) = e.mac := by
      split
      · rename_i hnone
        rw [h.mac hnone.1 hnone.2, hnone.2]
      · rfl
    refine ⟨?_, ?_, ?_⟩
    · simp only [htype, h.runas, List.any_cons, List.any_nil, htypene, hrunasne, hsrcne, hwhenne,
        hhourne, hnumber]
      rfl
    · simp only [htype, hhost]
      exact fun hnone => hnone.1 (h.host.mp hnone.2)
    · simp only [squeezed, Row.entry, htype, hhost, hmac, hblanks.1, hblanks.2.1, hblanks.2.2,
        h.runas, ← h.id, ← h.dstpath, ← h.log]

end Rows

/-! ### New backups -/

section News

variable {m : Box} {i : Nat}

theorem saved_freeRow_none (d : Bool) :
    ({ freeRow none with disabled := d } : Row).saved m i = none := by
  have hempty : ["Select One".toList, "root".toList, [], [], [], ['0']].any (·.isEmpty) = true := by
    decide
  rw [Option.eq_none_iff_forall_ne_some]
  intro e he
  obtain ⟨hfull, -, -⟩ := saved_eq_some_iff.mp he
  exact absurd (hfull.symm.trans hempty) Bool.false_ne_true

/-- What is filled in is saved. -/
theorem New.Valid.saved {a : New} (ha : a.Valid m) (d : Bool) (i : Nat) :
    ∃ e, ({ freeRow (some a) with disabled := d } : Row).saved m i = some e ∧ a.Saved e := by
  have hne : a.type ≠ [] ∧ a.runas ≠ [] := by
    constructor
    · intro hnil
      have hmem := ha.type
      rw [hnil] at hmem
      exact absurd hmem (by decide)
    · intro hnil
      have hnick := ha.row.runas.1
      have hrunas : isNick a.runas = true := hnick
      rw [hnil] at hrunas
      cases hrunas
  have hnlogs : a.nlogs.isEmpty = false := by
    have hnumber := ha.nlogs
    rw [isNumber, Bool.and_eq_true, Bool.not_eq_true'] at hnumber
    exact hnumber.1
  refine ⟨_, saved_eq_some_iff.mpr ⟨?_, ?_, rfl⟩, ?_⟩
  · have hempty : ∀ {t : Text}, t ≠ [] → t.isEmpty = false := fun h =>
      List.isEmpty_eq_false_iff.mpr h
    simp only [freeRow, Option.getD_some, List.any_cons, List.any_nil, hempty hne.1, hempty hne.2,
      hempty ha.filled.1, hempty ha.filled.2.1, hempty ha.filled.2.2, hnlogs, Bool.or_false]
  · rintro ⟨hdir, hhost⟩
    have hdir' : a.type ≠ "Dir".toList := hdir
    simp only [freeRow, if_neg hdir', Option.getD_some] at hhost
    exact (ha.host hdir').1 hhost
  · constructor
    · rfl
    · rfl
    · intro hdir
      simp only [squeezed, Row.entry, freeRow, if_neg hdir, Option.getD_some]
    · rfl
    · exact ⟨rfl, rfl⟩
    · rfl

/-- A free row makes what was entered, with the number of the row. -/
theorem forall₂_freeRow {a : Option New} (ha : ∀ x ∈ a, x.Valid m) (d : Bool) (n : Nat)
    (k : Fin 3) : List.Forall₂ (fun x e => e.id = Nat.toDigits 10 (n + x.1) ∧ x.2.Saved e)
      (a.toList.map fun x => (k, x))
        (({ freeRow a with disabled := d } : Row).saved m (n + k)).toList := by
  cases a with
  | none =>
      rw [saved_freeRow_none]
      exact .nil
  | some x =>
      obtain ⟨e, he, hsaved⟩ := (ha x rfl).saved d (n + k)
      rw [he]
      exact .cons ⟨id_of_saved he, hsaved⟩ .nil

/-- Ids that are the numbers from `i` on: the highest is the last. -/
theorem maxId_of_numbers {es : List Entry} {i : Nat}
    (h : ∀ k e, es[k]? = some e → e.id = Nat.toDigits 10 (i + k)) :
    maxId (i - 1) es = i + es.length - 1 := by
  induction es generalizing i with
  | nil => rfl
  | cons e es ih =>
      have hid := h 0 e rfl
      have hrest : ∀ k e', es[k]? = some e' → e'.id = Nat.toDigits 10 (i + 1 + k) := by
        intro k e' he'
        rw [Nat.add_assoc, Nat.add_comm 1 k]
        exact h (k + 1) e' he'
      have hmax : (if i > i - 1 then i else i - 1) = i + 1 - 1 := by split <;> omega
      rw [maxId, hid, Nat.add_zero, Nat.ofDigitChars_ten_toDigits]
      simp only [hmax]
      rw [ih hrest, List.length_cons]
      omega

end News

/-! ## The ids -/

section Conf

variable {m : Box} {b : Browser} {c : Conf} {env : Env}

theorem mem_confEntries {e : Entry} (he : e ∈ confEntries c.text) : e ∈ c.entries := by
  rw [c.confEntries_text] at he
  split at he
  · exact he
  · exact List.mem_of_mem_dropLast he

theorem plain_entryRows (hplain : ∀ e ∈ c.entries, PlainEntry m e) :
    ∀ r ∈ m.entryRows b false (confEntries c.text), r.Plain := by
  intro r hr
  obtain ⟨k, hk⟩ := List.mem_iff_getElem?.mp hr
  rw [getElem?_entryRows, Option.map_eq_some_iff] at hk
  obtain ⟨e, he, rfl⟩ := hk
  have hmem := mem_confEntries (List.mem_of_getElem? he)
  exact (hplain e hmem).row (c.valid e hmem) b _

/-- What is installed, of a file of plain entries. -/
theorem proc_conf (hplain : ∀ e ∈ c.entries, PlainEntry m e)
    (henv : ∀ n, isRead n = true → n ∉ neededNames → env n = []) {news : Fin 3 → Option New}
    (hnews : ∀ k, ∀ a ∈ news k, a.Valid m) :
    ∃ installed, m.proc env (bodyText (m.form b c.text news)) = some installed ∧
      confEntries installed = saveRows m 0 (m.entryRows b false (confEntries c.text)) ++
        saveRows m (confEntries c.text).length (freeRows news) := by
  have hrs : ∀ r ∈ m.entryRows b false (confEntries c.text) ++ freeRows news, r.Plain := by
    intro r hr
    rcases List.mem_append.mp hr with hr | hr
    · exact plain_entryRows hplain r hr
    · exact plain_freeRows hnews r hr
  refine ⟨_, m.proc_form b hrs henv, ?_⟩
  rw [confEntries_saved hrs, saveRows_append, Nat.zero_add, length_entryRows]

theorem nodup_installed {news : Fin 3 → Option New} (n : Nat) (rs : List Row)
    (h : n = rs.length) :
    ((saveRows m 0 rs ++ saveRows m n (freeRows news)).map Entry.id).Nodup := by
  have happend := saveRows_append (m := m) 0 rs (freeRows news)
  rw [Nat.zero_add, ← h] at happend
  rw [← happend]
  exact nodup_ids 0 _

/-- The new backups are in the file, with the numbers of their rows. -/
theorem forall₂_freeRows {news : Fin 3 → Option New} (hnews : ∀ k, ∀ a ∈ news k, a.Valid m)
    (n : Nat) : List.Forall₂ (fun x e => e.id = Nat.toDigits 10 (n + x.1) ∧ x.2.Saved e)
      (enteredIn news) (saveRows m n (freeRows news)) := by
  have hthree : List.finRange 3 = [0, 1, 2] := by decide
  have hrow : ∀ (k : Fin 3), (freeRow (news k)).disabled = false := fun k => disabled_freeRow _
  have hplain : ∀ (k : Fin 3), ({ freeRow (news k) with disabled := false } : Row) =
      freeRow (news k) := fun k => by rw [← hrow k]
  have hone := forall₂_freeRow (hnews 1) false n 1
  have htwo := forall₂_freeRow (hnews 2) false n 2
  rw [hplain] at hone htwo
  rw [enteredIn, hthree, freeRows, saveRows, saveRows, saveRows, saveRows]
  simp only [List.flatMap_cons, List.flatMap_nil]
  exact List.rel_append (forall₂_freeRow (hnews 0) _ n 0) (List.rel_append hone
    (List.rel_append htwo .nil))

/-- The ids that are shown are the numbers of the free rows. -/
theorem shownId_of_numbers {conf : Text} (hne : confEntries conf ≠ [])
    (hids : ∀ k e, (confEntries conf)[k]? = some e → e.id = Nat.toDigits 10 k) (k : Fin 3) :
    shownId conf k = Nat.toDigits 10 ((confEntries conf).length + k) := by
  have hids' : ∀ k e, (confEntries conf)[k]? = some e → e.id = Nat.toDigits 10 (0 + k) := by
    intro k e he
    rw [Nat.zero_add]
    exact hids k e he
  have hmax := maxId_of_numbers hids'
  have hpos := List.length_pos_iff.mpr hne
  have hnumber : 0 + (confEntries conf).length - 1 + 1 + k = (confEntries conf).length + k := by
    omega
  rw [shownId, ← hnumber, ← hmax]

/-- A backup that every box lets one enter. -/
def sampleNew : New :=
  ⟨false, "Dir".toList, "root".toList, [], "/mnt".toList, ['0'], ['0'], ['0']⟩

theorem sampleNew_valid : sampleNew.Valid m where
  type := by decide
  cifs := fun h => absurd h (by decide)
  runas := List.mem_cons_self
  host := fun h => absurd rfl h
  filled := by decide
  nlogs := by decide
  srcpath := by decide +kernel
  times := forall_of_all (by decide +kernel)

theorem enteredIn_none : enteredIn (fun _ => none) = [] := by decide +kernel

/-- Where nothing is entered, the rows of the entries make the entries. -/
theorem KeepsIds.saveRows (hkeeps : KeepsIds c m b env)
    (hplain : ∀ e ∈ c.entries, PlainEntry m e)
    (henv : ∀ n, isRead n = true → n ∉ neededNames → env n = []) :
    BackupPage.saveRows m 0 (m.entryRows b false (confEntries c.text)) = c.entries := by
  obtain ⟨installed, added, hproc, hentries, hadded, -⟩ := hkeeps (fun _ => none) nofun
  have hnone : ∀ k : Fin 3, ∀ a ∈ (fun _ => none : Fin 3 → Option New) k, a.Valid m := nofun
  obtain ⟨installed', hproc', hentries'⟩ := proc_conf (b := b) hplain henv hnone
  obtain rfl := Option.some.inj (hproc.symm.trans hproc')
  have hfree := forall₂_freeRows hnone (confEntries c.text).length
  rw [enteredIn_none, List.forall₂_nil_left_iff] at hadded hfree
  rw [hadded, List.append_nil] at hentries
  rw [hfree, List.append_nil, hentries] at hentries'
  exact hentries'.symm

/-- In a file without entries the first free row shows 1 and is saved as 0. -/
theorem KeepsIds.filled (hkeeps : KeepsIds c m b env)
    (henv : ∀ n, isRead n = true → n ∉ neededNames → env n = []) : c.entries ≠ [] := by
  intro hnil
  have hnone : confEntries c.text = [] := by
    rw [c.confEntries_text, hnil]
    split <;> rfl
  have hplain : ∀ e ∈ c.entries, PlainEntry m e := by
    rw [hnil]
    nofun
  have hvalid : ∀ k : Fin 3, ∀ a ∈ (if k = 0 then some sampleNew else none), a.Valid m := by
    intro k a ha
    split at ha
    · obtain rfl := Option.some.inj ha
      exact sampleNew_valid
    · cases ha
  obtain ⟨installed, added, hproc, hentries, hadded, -⟩ := hkeeps _ hvalid
  obtain ⟨installed', hproc', hentries'⟩ := proc_conf (b := b) hplain henv hvalid
  obtain rfl := Option.some.inj (hproc.symm.trans hproc')
  have hfree := forall₂_freeRows hvalid (confEntries c.text).length
  have hentered : enteredIn (fun k => if k = 0 then some sampleNew else none) =
      [(0, sampleNew)] := rfl
  rw [hentered, List.forall₂_cons_left_iff] at hadded hfree
  obtain ⟨e, es, ⟨hid, -⟩, -, rfl⟩ := hadded
  obtain ⟨e', es', ⟨hid', -⟩, -, hes'⟩ := hfree
  rw [hentries, hnil, hes', hnone] at hentries'
  obtain ⟨rfl, -⟩ := List.cons.inj hentries'
  rw [shownId, hnone] at hid
  rw [hnone] at hid'
  exact absurd (toDigits_inj (hid.symm.trans hid')) (by decide)

theorem KeepsIds.numbered (hkeeps : KeepsIds c m b env)
    (hplain : ∀ e ∈ c.entries, PlainEntry m e)
    (henv : ∀ n, isRead n = true → n ∉ neededNames → env n = []) : Numbered c m := by
  have hfilled := hkeeps.filled henv
  have hread := c.confEntries_text
  have hlength : (confEntries c.text).length ≤ c.entries.length := by
    rw [hread]
    split
    · exact Nat.le_refl _
    · rw [List.length_dropLast]
      exact Nat.sub_le _ _
  obtain ⟨hsame, hsaved⟩ := saved_of_saveRows
    ((length_entryRows (m := m) (b := b) false _).trans_le hlength)
    (hkeeps.saveRows hplain henv)
  have hended : c.ended = true := by
    by_contra hended
    rw [length_entryRows, hread, if_neg hended, List.length_dropLast] at hsame
    have hpos := List.length_pos_iff.mpr hfilled
    omega
  rw [if_pos hended] at hread
  refine ⟨hfilled, hended, fun i e he => ?_⟩
  have hmem := List.mem_of_getElem? he
  have hrow : (m.entryRows b false (confEntries c.text))[i]? =
      some (m.entryRow b (rsyncBefore i c.entries || e.type == "rsync".toList) e) := by
    rw [getElem?_entryRows, hread, he, Bool.false_or]
    rfl
  have hi := hsaved i _ hrow
  rw [Nat.zero_add, he] at hi
  exact (saved_entryRow_iff (hplain e hmem) (c.valid e hmem) _ i).mp hi

theorem Numbered.keepsIds (hnumbered : Numbered c m) (hplain : ∀ e ∈ c.entries, PlainEntry m e)
    (henv : ∀ n, isRead n = true → n ∉ neededNames → env n = []) : KeepsIds c m b env := by
  have hread : confEntries c.text = c.entries := by
    rw [c.confEntries_text, if_pos hnumbered.ended]
  have hsaved : saveRows m 0 (m.entryRows b false (confEntries c.text)) = c.entries := by
    rw [hread]
    refine saveRows_of_saved (length_entryRows false _) fun k r hr => ?_
    rw [getElem?_entryRows, Option.map_eq_some_iff] at hr
    obtain ⟨e, he, rfl⟩ := hr
    have hmem := List.mem_of_getElem? he
    rw [Nat.zero_add, Bool.false_or, he]
    exact (saved_entryRow_iff (hplain e hmem) (c.valid e hmem) _ k).mpr
      (hnumbered.entries k e he)
  intro news hnews
  obtain ⟨installed, hproc, hentries⟩ := proc_conf (b := b) hplain henv hnews
  refine ⟨installed, _, hproc, hsaved ▸ hentries, ?_, ?_⟩
  · have hids : ∀ k e, (confEntries c.text)[k]? = some e → e.id = Nat.toDigits 10 k := by
      rw [hread]
      exact fun k e he => (hnumbered.entries k e he).id
    have hne : confEntries c.text ≠ [] := hread ▸ hnumbered.filled
    refine (forall₂_freeRows hnews _).imp fun x e h => ?_
    rw [shownId_of_numbers hne hids]
    exact h
  · rw [hentries]
    exact nodup_installed _ _ (length_entryRows false _).symm

/-- **Backups keep their ids**, and the new ones get those that were shown, exactly when the ids
are the numbers of the rows and no entry is changed. -/
theorem keepsIds_iff (hplain : ∀ e ∈ c.entries, PlainEntry m e)
    (henv : ∀ n, isRead n = true → n ∉ neededNames → env n = []) :
    KeepsIds c m b env ↔ Numbered c m :=
  ⟨fun h => h.numbered hplain henv, fun h => h.keepsIds hplain henv⟩

end Conf

/-- A box with one user, where no pattern matches and no computer answers. -/
def plainBox : Box where
  toPageMachine := plainPage
  users := ["joe".toList]
  cifs := true
  bdir := "/mnt/sda2/Backup".toList
  mailto := []
  backlog := false
  arp _ := []
  nicks := forall_of_all (by decide +kernel)
  folder := by decide
  address := ⟨Or.inl rfl, rfl⟩
  macs _ := rfl
  semis _ := rfl

/-- A folder that is copied every night. -/
def nightly (id path : Text) : Entry :=
  ⟨false, id, "Dir".toList, "root".toList, [], [], path, "/Backup".toList, ['*'], ['3'],
    "no".toList, ['5']⟩

theorem nightly_valid : ∀ e ∈ [nightly ['0'] "/mnt/sda2/Music".toList,
    nightly ['1'] "/mnt/sda2/Photos".toList, nightly ['3'] "/mnt/sda2/Photos".toList],
    e.Valid ∧ PlainEntry plainBox e := by
  intro e he
  have hall : ∀ e ∈ [nightly ['0'] "/mnt/sda2/Music".toList,
      nightly ['1'] "/mnt/sda2/Photos".toList, nightly ['3'] "/mnt/sda2/Photos".toList],
      (e.fields.all (fun f => f.all fun c => c != ';' && c != '\\' && c != '\n') = true ∧
        e.id.head? ≠ some '#') ∧ (e.complete = true ∧ e.id.all Char.isDigit = true ∧
          e.type ∈ typeNames) ∧ (isNick e.runas = true ∧
            isRead (plainBox.selectedUser e.runas) = false) ∧
              ([e.host, e.mac, e.srcpath].all (isText isWild) = true ∧
                [e.when, e.hour].all (isText isBlank) = true) :=
    forall_of_all (by decide +kernel)
  obtain ⟨⟨hfields, hid⟩, ⟨hcomplete, hnumber, htype⟩, hrunas, htexts, htimes⟩ := hall e he
  refine ⟨⟨⟨fun f hf c hc => ?_, hid⟩, hcomplete, hnumber, htype⟩, ⟨hrunas,
    List.all_eq_true.mp htexts, List.all_eq_true.mp htimes⟩⟩
  simpa [and_assoc] using List.all_eq_true.mp (List.all_eq_true.mp hfields f hf) c hc

/-- Two folders with the ids 0 and 1. -/
def twoFolders : Conf where
  entries := [nightly ['0'] "/mnt/sda2/Music".toList, nightly ['1'] "/mnt/sda2/Photos".toList]
  named := true
  ended := true
  valid e he := (nightly_valid e (List.mem_append_left [_] he)).1

theorem plain_twoFolders : ∀ e ∈ twoFolders.entries, PlainEntry plainBox e := fun e he =>
  (nightly_valid e (List.mem_append_left [_] he)).2

theorem unchanged_nightly (i : Nat) {path : Text} (hpath : squeeze path = path) :
    Unchanged plainBox false i (nightly (Nat.toDigits 10 i) path) where
  id := rfl
  rsync := nofun
  cifs h := by
    have hcifs : "Dir".toList = "CIFS".toList := h
    exact absurd hcifs (by decide)
  runas := by
    show plainBox.selectedUser "root".toList = "root".toList
    decide +kernel
  host := iff_of_true rfl rfl
  mac h := absurd rfl h
  blanks := by
    simp only [nightly, List.forall_mem_cons, List.not_mem_nil, false_implies, implies_true,
      and_true]
    exact ⟨rfl, rfl, hpath⟩
  dstpath := rfl
  log := rfl

theorem twoFolders_numbered : Numbered twoFolders plainBox where
  filled := List.cons_ne_nil _ _
  ended := rfl
  entries := by
    intro i e he
    rcases i with - | - | i
    · obtain rfl := Option.some.inj he
      exact unchanged_nightly 0 (by decide +kernel)
    · obtain rfl := Option.some.inj he
      exact unchanged_nightly 1 (by decide +kernel)
    · cases he

theorem keepsIds_twoFolders : KeepsIds twoFolders plainBox plainBrowser fun _ => [] :=
  (keepsIds_iff plain_twoFolders fun _ _ _ => rfl).mpr twoFolders_numbered

/-- The backups that are left when two were removed between them. -/
def sparseFolders : Conf where
  entries := [nightly ['0'] "/mnt/sda2/Music".toList, nightly ['3'] "/mnt/sda2/Photos".toList]
  named := true
  ended := true
  valid e he := by
    refine (nightly_valid e ?_).1
    simp only [List.mem_cons, List.not_mem_nil, or_false] at he ⊢
    exact he.imp_right Or.inr

/-- The last one is 1 when the page was submitted. -/
theorem not_keepsIds_sparseFolders :
    ¬ KeepsIds sparseFolders plainBox plainBrowser fun _ => [] := by
  intro hkeeps
  have hplain : ∀ e ∈ sparseFolders.entries, PlainEntry plainBox e := by
    intro e he
    refine (nightly_valid e ?_).2
    simp only [sparseFolders, List.mem_cons, List.not_mem_nil, or_false] at he ⊢
    exact he.imp_right Or.inr
  have hnumbered := hkeeps.numbered hplain fun _ _ _ => rfl
  have hid : ['3'] = Nat.toDigits 10 1 := (hnumbered.entries 1 _ rfl).id
  exact absurd hid (by decide)

end AltF.Cgi.BackupPage
