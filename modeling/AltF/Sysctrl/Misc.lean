/-
  Sysctrl/Misc.lean --- `read_misc`: the spin-down times of /etc/misc.conf.

  Every line that has a value is scanned for a number, into a variable that keeps the last one;
  a line of a slot whose value is no number gives the slot the number of another line.  Lines
  come in pieces of 255 bytes.
-/
import Mathlib.Data.Int.ModEq
import Mathlib.Data.List.Induction
import AltF.Sysctrl.Disks

set_option autoImplicit false

namespace AltF.Sysctrl

open AltF.Foundation AltF.SysFiles

/-! ## `read_misc` -/

/-- The name and the value of a line. -/
def miscEntry (buf : Text) : Option (Text × Text) :=
  match strtok (cString buf) '=' with
  | none => none
  | some (cmd, rest) =>
      match strtok rest '\n' with
      | none => none
      | some (val, _) => if cmd.length = 0 ∨ val.length = 0 then none else some (cmd, val)

/-- The slot that a line names. -/
def sleepSlot (cmd : Text) : Option Slot :=
  if cmd = "HDSLEEP_LEFT".toList then some .left
  else if cmd = "HDSLEEP_RIGHT".toList then some .right
  else if cmd = "HDSLEEP_USB".toList then some .usb
  else none

/-- `disks[slot].spindow_time = sl*60` -/
def DiskTable.setSleep (t : DiskTable) (sl : Int32) : Option Slot → DiskTable
  | none => t
  | some slot =>
      { t with disk := Function.update t.disk slot
                 { t.disk slot with spindowTime := (sl * 60).toInt } }

/-- One line, in `read_misc`, with `sl` and the table. -/
def readMiscLine (s : Int32 × DiskTable) (buf : Text) : Int32 × DiskTable :=
  match miscEntry buf with
  | none => s
  | some (cmd, val) =>
      let sl := sscanfInt val s.1
      (sl, s.2.setSleep sl (sleepSlot cmd))

/-- `read_misc`, with what is in `sl` at its beginning, and `none` for a file that cannot be
opened. -/
def readMisc (file : Option Text) (sl : Int32) (t : DiskTable) : DiskTable :=
  match file with
  | none => t
  | some text =>
      ((fgetsInto 256 [] text).foldl readMiscLine
        (sl, { t with disk := fun slot =>
                 if slot ∈ t.slots then { t.disk slot with spindowTime := 0 }
                 else t.disk slot })).2

/-! ## The lines of the file -/

/-- The name of a slot's line. -/
def sleepName : Slot → Text
  | .left => "HDSLEEP_LEFT".toList
  | .right => "HDSLEEP_RIGHT".toList
  | .usb => "HDSLEEP_USB".toList

/-- The number on a line of the slot. -/
def sleepMinutes (slot : Slot) (line : Text) : Option Int :=
  if (sleepName slot ++ ['=']).isPrefixOf line then
    scanInt (line.drop ((sleepName slot).length + 1))
  else none

/-- The number on the last line of the slot whose value starts with one; 0 if there is none. -/
def lastMinutes (slot : Slot) (text : Text) : Int :=
  (((text.splitOn '\n').filterMap (sleepMinutes slot)).getLast?).getD 0

/-! ## The pieces in which it is read -/

/-- The piece sets the time of the slot. -/
def Names (slot : Slot) (piece : Text) : Prop :=
  (miscEntry piece).map Prod.fst = some (sleepName slot)

instance (slot : Slot) (piece : Text) : Decidable (Names slot piece) :=
  inferInstanceAs (Decidable (_ = _))

/-- The number that is scanned in a piece. -/
def pieceNumber (piece : Text) : Option Int := (miscEntry piece).bind fun e => scanInt e.2

/-- Sixty times the number fits an `int`. -/
def FitsMinutes (n : Int) : Prop := -2 ^ 31 ≤ 60 * n ∧ 60 * n < 2 ^ 31

instance (n : Int) : Decidable (FitsMinutes n) := inferInstanceAs (Decidable (_ ∧ _))

/-- Where a piece names the slot and none behind it does, the last number up to there is, but
for a multiple of 2^30, that of the slot's last line with a number, and fits. -/
def NumberInPlace (text : Text) (slot : Slot) : Prop :=
  ∀ before piece behind, fgetsInto 256 [] text = before ++ piece :: behind → Names slot piece →
    (∀ q ∈ behind, ¬ Names slot q) →
      FitsMinutes (lastMinutes slot text) ∧
        ∃ n ∈ ((before ++ [piece]).filterMap pieceNumber).getLast?,
          n ≡ lastMinutes slot text [ZMOD 2 ^ 30]

/-! ## What lines leave in the table -/

section Run

variable {slot : Slot}

theorem sleepSlot_eq_some {cmd : Text} : sleepSlot cmd = some slot ↔ cmd = sleepName slot := by
  constructor
  · intro h
    unfold sleepSlot at h
    split_ifs at h with hleft hright husb
    · obtain rfl := Option.some.inj h
      exact hleft
    · obtain rfl := Option.some.inj h
      exact hright
    · obtain rfl := Option.some.inj h
      exact husb
  · rintro rfl
    cases slot <;> rfl

theorem readMiscLine_sl (s : Int32 × DiskTable) (p : Text) :
    (readMiscLine s p).1 = ((pieceNumber p).map Int32.ofInt).getD s.1 := by
  unfold readMiscLine pieceNumber
  cases hentry : miscEntry p with
  | none => rfl
  | some e =>
      rw [Option.bind_some]
      dsimp only
      unfold sscanfInt
      cases scanInt e.2 <;> rfl

theorem setSleep_time (t : DiskTable) (sl : Int32) (named : Option Slot) :
    ((t.setSleep sl named).disk slot).spindowTime =
      if named = some slot then (sl * 60).toInt else (t.disk slot).spindowTime := by
  cases named with
  | none => rfl
  | some named =>
      by_cases hsame : named = slot
      · subst hsame
        simp [DiskTable.setSleep]
      · rw [if_neg fun h => hsame (Option.some.inj h)]
        simp [DiskTable.setSleep, Function.update_of_ne fun h => hsame h.symm]

theorem readMiscLine_time (s : Int32 × DiskTable) (p : Text) :
    ((readMiscLine s p).2.disk slot).spindowTime =
      if Names slot p then ((readMiscLine s p).1 * 60).toInt
      else (s.2.disk slot).spindowTime := by
  cases hentry : miscEntry p with
  | none =>
      have hnames : ¬ Names slot p := by
        rw [Names, hentry]
        exact Option.some_ne_none _ ∘ Eq.symm
      have hline : readMiscLine s p = s := by rw [readMiscLine, hentry]
      rw [hline, if_neg hnames]
  | some e =>
      obtain ⟨cmd, val⟩ := e
      have hnames : Names slot p ↔ sleepSlot cmd = some slot := by
        rw [Names, hentry, sleepSlot_eq_some, Option.map_some, Option.some_inj]
      have hline : readMiscLine s p =
          (sscanfInt val s.1, s.2.setSleep (sscanfInt val s.1) (sleepSlot cmd)) := by
        rw [readMiscLine, hentry]
      rw [hline, if_congr hnames rfl rfl]
      exact setSleep_time _ _ _

/-- The variable holds the last number. -/
theorem foldl_readMisc_sl (ps : List Text) (s : Int32 × DiskTable) :
    (ps.foldl readMiscLine s).1 =
      ((ps.filterMap pieceNumber).getLast?.map Int32.ofInt).getD s.1 := by
  induction ps using List.reverseRecOn with
  | nil => rfl
  | append_singleton ps p ih =>
      rw [List.foldl_append, List.foldl_cons, List.foldl_nil, readMiscLine_sl,
        List.filterMap_append]
      cases hnumber : pieceNumber p with
      | none =>
          rw [List.filterMap_cons_none hnumber, List.filterMap_nil, List.append_nil]
          exact ih
      | some n =>
          rw [List.filterMap_cons_some hnumber, List.filterMap_nil, List.getLast?_concat]
          rfl

/-- Pieces that do not name the slot leave its time. -/
theorem foldl_readMisc_unnamed {ps : List Text} (h : ∀ p ∈ ps, ¬ Names slot p)
    (s : Int32 × DiskTable) :
    ((ps.foldl readMiscLine s).2.disk slot).spindowTime = (s.2.disk slot).spindowTime := by
  induction ps generalizing s with
  | nil => rfl
  | cons p ps ih =>
      rw [List.foldl_cons, ih fun q hq => h q (List.mem_cons_of_mem p hq), readMiscLine_time,
        if_neg (h p List.mem_cons_self)]

/-- The last piece that names the slot sets its time. -/
theorem foldl_readMisc_named {before behind : List Text} {p : Text} (hp : Names slot p)
    (hlast : ∀ q ∈ behind, ¬ Names slot q) (s : Int32 × DiskTable) :
    (((before ++ p :: behind).foldl readMiscLine s).2.disk slot).spindowTime =
      (((((before ++ [p]).filterMap pieceNumber).getLast?.map Int32.ofInt).getD s.1) *
        60).toInt := by
  rw [List.foldl_append, List.foldl_cons, foldl_readMisc_unnamed hlast, readMiscLine_time,
    if_pos hp, ← foldl_readMisc_sl, List.foldl_append, List.foldl_cons, List.foldl_nil]

theorem exists_last {P : Text → Prop} [DecidablePred P] {ps : List Text} (h : ∃ p ∈ ps, P p) :
    ∃ before p behind, ps = before ++ p :: behind ∧ P p ∧ ∀ q ∈ behind, ¬ P q := by
  induction ps with
  | nil =>
      obtain ⟨p, hp, -⟩ := h
      exact absurd hp List.not_mem_nil
  | cons r ps ih =>
      by_cases hrest : ∃ p ∈ ps, P p
      · obtain ⟨before, p, behind, rfl, hp, hlast⟩ := ih hrest
        exact ⟨r :: before, p, behind, rfl, hp, hlast⟩
      · obtain ⟨p, hp, hP⟩ := h
        rcases List.mem_cons.mp hp with rfl | hp
        · exact ⟨[], p, ps, rfl, hP, fun q hq hQ => hrest ⟨q, hq, hQ⟩⟩
        · exact absurd ⟨p, hp, hP⟩ hrest

end Run

/-- Sixty is four times an odd number. -/
theorem sixty_modEq_iff (n m : Int) :
    n * 60 ≡ m * 60 [ZMOD 2 ^ 32] ↔ n ≡ m [ZMOD 2 ^ 30] := by
  constructor
  · exact fun h => h.cancel_right_div_gcd (by decide)
  · intro h
    have hsixty : n * 60 ≡ m * 60 [ZMOD 2 ^ 30 * 60] := h.mul_right'
    exact hsixty.of_dvd (by decide)

/-- Sixty times a number, as an `int`. -/
theorem minutes_eq_iff (n m : Int) :
    (Int32.ofInt n * 60).toInt = 60 * m ↔ FitsMinutes m ∧ n ≡ m [ZMOD 2 ^ 30] := by
  have hmul : Int32.ofInt n * 60 = Int32.ofInt (n * 60) := (Int32.ofInt_mul n 60).symm
  have hsize : Int32.size = 2 ^ 32 := rfl
  rw [hmul, Int32.toInt_ofInt, hsize, Int.bmod_eq_iff (by decide), ← sixty_modEq_iff,
    Int.modEq_iff_dvd, Int.mul_comm m 60, FitsMinutes, and_assoc]
  exact Iff.rfl

/-! ## Lines and their first pieces -/

theorem fgetsInto_append (sz : Nat) (line w t : Text) :
    fgetsInto sz line (w ++ '\n' :: t) =
      fgetsInto sz line (w ++ ['\n']) ++ fgetsInto sz [] t := by
  induction w generalizing line with
  | nil => simp [fgetsInto]
  | cons c w ih =>
      rw [List.cons_append, List.cons_append, fgetsInto, fgetsInto]
      split
      · rw [ih, List.cons_append]
      · exact ih _

/-- The first piece of a line, which may be the last of the file. -/
theorem fgetsInto_first {sz : Nat} (line w t : Text) (hline : line.length + 2 ≤ sz)
    (hw : '\n' ∉ w) (hne : line ++ w ≠ []) (ht : t = [] ∨ ∃ t', t = '\n' :: t') :
    ∃ rest, fgetsInto sz line (w ++ t) =
      (line ++ w ++ t.take 1).take (sz - 1) :: rest := by
  induction w generalizing line with
  | nil =>
      rw [List.append_nil] at hne ⊢
      rw [List.nil_append]
      rcases ht with rfl | ⟨t', rfl⟩
      · refine ⟨[], ?_⟩
        rw [fgetsInto, if_neg hne, List.take_nil, List.append_nil,
          List.take_of_length_le (by omega)]
      · refine ⟨fgetsInto sz [] t', ?_⟩
        rw [fgetsInto, if_pos (Or.inl rfl), List.take_succ_cons, List.take_zero,
          List.take_of_length_le (by simp; omega)]
  | cons c w ih =>
      obtain ⟨hc, hw⟩ : '\n' ≠ c ∧ '\n' ∉ w := by simpa using hw
      have hshift : line ++ c :: w = line ++ [c] ++ w := by simp
      rw [List.cons_append, fgetsInto]
      by_cases hfull : line.length + 2 = sz
      · refine ⟨fgetsInto sz [] (w ++ t), ?_⟩
        have hlen : sz - 1 = (line ++ [c]).length := by
          rw [List.length_append, List.length_singleton]
          omega
        rw [if_pos (Or.inr hfull), hshift, List.append_assoc (line ++ [c]), hlen, List.take_left]
      · rw [if_neg (not_or.mpr ⟨fun h => hc h.symm, hfull⟩), hshift]
        refine ih _ ?_ hw (by simp)
        rw [List.length_append, List.length_singleton]
        omega

/-- **Every line of a file** has a first piece. -/
theorem exists_piece {sz : Nat} (hsz : 2 ≤ sz) {l : Text} (hne : l ≠ []) (text : Text)
    (hl : l ∈ text.splitOn '\n') :
    '\n' ∉ l ∧ ∃ e, (l ++ e).take (sz - 1) ∈ fgetsInto sz [] text := by
  by_cases hnewline : '\n' ∈ text
  · obtain ⟨w, t, htext, hw⟩ := List.eq_append_cons_of_mem hnewline
    subst htext
    rw [List.splitOn_append_cons_self_of_not_mem hw, List.mem_cons] at hl
    rcases hl with rfl | hl
    · obtain ⟨rest, hrest⟩ := fgetsInto_first [] _ ('\n' :: t) hsz hw hne (Or.inr ⟨t, rfl⟩)
      refine ⟨hw, ['\n'], ?_⟩
      rw [hrest]
      exact List.mem_cons_self
    · have hlt : t.length < (w ++ '\n' :: t).length := by simp; omega
      obtain ⟨hclean, e, hmem⟩ := exists_piece hsz hne t hl
      refine ⟨hclean, e, ?_⟩
      rw [fgetsInto_append]
      exact List.mem_append_right _ hmem
  · rw [List.splitOn_eq_singleton hnewline, List.mem_singleton] at hl
    subst hl
    obtain ⟨rest, hrest⟩ := fgetsInto_first [] _ [] hsz hnewline hne (Or.inl rfl)
    refine ⟨hnewline, [], ?_⟩
    rw [List.append_nil] at hrest
    rw [hrest]
    exact List.mem_cons_self
termination_by text.length

/-- A character with which no number starts. -/
theorem scanInt_cons {c : Char} {w : Text} {n : Int} (h : scanInt (c :: w) = some n) :
    c ≠ '\x00' := by
  rintro rfl
  have hnone : scanInt ('\x00' :: w) = none := by
    rw [scanInt, List.dropWhile_cons_of_neg (by decide)]
    rfl
  rw [hnone] at h
  cases h

/-- A line of the slot with a number has a piece that names the slot. -/
theorem exists_names {slot : Slot} {text l : Text} (hl : l ∈ text.splitOn '\n')
    (hn : (sleepMinutes slot l).isSome) : ∃ p ∈ fgetsInto 256 [] text, Names slot p := by
  unfold sleepMinutes at hn
  split at hn
  · next hprefix =>
      obtain ⟨w, rfl⟩ := List.isPrefixOf_iff_prefix.mp hprefix
      have hdrop : (sleepName slot ++ ['='] ++ w).drop ((sleepName slot).length + 1) = w :=
        List.drop_left' (by simp)
      rw [hdrop] at hn
      obtain ⟨n, hn⟩ := Option.isSome_iff_exists.mp hn
      cases w with
      | nil => cases hn
      | cons c w =>
          have hsz : 2 ≤ 256 := by decide
          obtain ⟨hnewline, e, hmem⟩ := exists_piece hsz (by simp) text hl
          have hc : c ≠ '\x00' := scanInt_cons hn
          have hnl : c ≠ '\n' := by
            rintro rfl
            simp at hnewline
          have hname : sleepName slot ≠ [] ∧ '=' ∉ sleepName slot ∧ '\x00' ∉ sleepName slot ∧
              (sleepName slot).length ≤ 13 := by
            cases slot <;> decide
          obtain ⟨hne, hequal, hnul, hshort⟩ := hname
          -- the piece has the name and the first character of the value
          have hpiece : (sleepName slot ++ ['='] ++ c :: w ++ e).take 255 =
              sleepName slot ++ '=' :: c :: (w ++ e).take (253 - (sleepName slot).length) := by
            have hcount : 255 - (sleepName slot).length =
                (253 - (sleepName slot).length) + 1 + 1 := by omega
            rw [List.append_assoc, List.append_assoc, List.take_append,
              List.take_of_length_le (by omega), hcount, List.singleton_append, List.take_succ_cons,
              List.cons_append, List.take_succ_cons]
          have hstring : cString (sleepName slot ++ '=' :: c ::
              (w ++ e).take (253 - (sleepName slot).length)) =
              sleepName slot ++ '=' :: c ::
                cString ((w ++ e).take (253 - (sleepName slot).length)) := by
            unfold cString
            have hclean : ∀ x ∈ sleepName slot, decide (x ≠ '\x00') = true := by
              intro x hx
              rw [decide_eq_true_eq]
              rintro rfl
              exact hnul hx
            rw [List.takeWhile_append_of_pos hclean, List.takeWhile_cons_of_pos (by decide),
              List.takeWhile_cons_of_pos (by simpa using hc)]
          refine ⟨_, hmem, ?_⟩
          rw [hpiece, Names, miscEntry, hstring, strtok_field hne hequal]
          dsimp only
          rw [strtok, List.dropWhile_cons_of_neg (by simpa using hnl)]
          dsimp only
          rw [List.takeWhile_cons_of_pos (by simpa using hnl), if_neg (by simp [hne])]
          rfl
  · cases hn

/-- Without a line of the slot that has a number, its number is 0. -/
theorem lastMinutes_of_unnamed {slot : Slot} {text : Text}
    (h : ∀ p ∈ fgetsInto 256 [] text, ¬ Names slot p) : lastMinutes slot text = 0 := by
  have hnone : (text.splitOn '\n').filterMap (sleepMinutes slot) = [] := by
    rw [List.filterMap_eq_nil_iff]
    intro l hl
    by_contra hsome
    obtain ⟨p, hp, hnames⟩ := exists_names hl (Option.isSome_iff_ne_none.mpr hsome)
    exact h p hp hnames
  rw [lastMinutes, hnone]
  rfl

/-! ## The times of the slots -/

/-- What a run leaves in a slot that no piece names. -/
theorem readMisc_unnamed {slot : Slot} {text : Text} {t : DiskTable} (hslot : slot ∈ t.slots)
    (h : ∀ p ∈ fgetsInto 256 [] text, ¬ Names slot p) (sl : Int32) :
    ((readMisc (some text) sl t).disk slot).spindowTime = 0 := by
  rw [readMisc, foldl_readMisc_unnamed h]
  dsimp only
  rw [if_pos hslot]

/-- **Spin-down times**: whatever the variable holds at first, every slot gets the number of its
last line with one, times 60, exactly if the last number up to the last piece that names the
slot is that one, and fits. -/
theorem readMisc_minutes_iff (text : Text) (t : DiskTable) :
    (∀ sl : Int32, ∀ slot ∈ t.slots,
        ((readMisc (some text) sl t).disk slot).spindowTime = 60 * lastMinutes slot text) ↔
      ∀ slot ∈ t.slots, NumberInPlace text slot := by
  constructor
  · intro h slot hslot before p behind hpieces hp hlast
    have htime : ∀ sl : Int32,
        (((((before ++ [p]).filterMap pieceNumber).getLast?.map Int32.ofInt).getD sl) * 60).toInt =
          60 * lastMinutes slot text := by
      intro sl
      have hrun := h sl slot hslot
      rw [readMisc, hpieces, foldl_readMisc_named hp hlast] at hrun
      exact hrun
    cases hnumber : ((before ++ [p]).filterMap pieceNumber).getLast? with
    | none =>
        -- nothing has set the variable: two values of it give two times
        rw [hnumber] at htime
        have hzero : (0 : Int) = 60 * lastMinutes slot text := htime 0
        have hone : (60 : Int) = 60 * lastMinutes slot text := htime 1
        omega
    | some n =>
        rw [hnumber] at htime
        obtain ⟨hfits, hmod⟩ := (minutes_eq_iff n _).mp (htime 0)
        exact ⟨hfits, n, rfl, hmod⟩
  · intro h sl slot hslot
    by_cases hnamed : ∃ p ∈ fgetsInto 256 [] text, Names slot p
    · obtain ⟨before, p, behind, hpieces, hp, hlast⟩ := exists_last hnamed
      obtain ⟨hfits, n, hn, hmod⟩ := h slot hslot before p behind hpieces hp hlast
      rw [readMisc, hpieces, foldl_readMisc_named hp hlast, Option.mem_def.mp hn]
      exact (minutes_eq_iff n _).mpr ⟨hfits, hmod⟩
    · have hunnamed : ∀ p ∈ fgetsInto 256 [] text, ¬ Names slot p :=
        fun p hp hnames => hnamed ⟨p, hp, hnames⟩
      rw [readMisc_unnamed hslot hunnamed, lastMinutes_of_unnamed hunnamed]
      rfl

/-- The left disk gets the time of the right one. -/
theorem readMisc_other_line :
    ¬ ∀ (text : Text) (t : DiskTable) (sl : Int32), ∀ slot ∈ t.slots,
      ((readMisc (some text) sl t).disk slot).spindowTime = 60 * lastMinutes slot text := by
  intro h
  have hleft := h "HDSLEEP_RIGHT=10\nHDSLEEP_LEFT=never\n".toList (.start 2 fun _ => 0) 0 .left
    (by decide)
  revert hleft
  decide

end AltF.Sysctrl
