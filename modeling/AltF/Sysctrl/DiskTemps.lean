/-
  Sysctrl/DiskTemps.lean --- `read_disks_temp`: the temperature of the warmest disk, from what
  hddtemp answers.

  An answer is a row of records `|device|model|temperature|unit|`, of which the buffer holds a
  first part.  A record counts as soon as its unit has begun.
-/
import Mathlib.Order.Bounds.Basic
import AltF.Sysctrl.Fan
import AltF.Sysctrl.Disks

set_option autoImplicit false

namespace AltF.Sysctrl

open AltF.Foundation AltF.SysFiles

/-! ## One answer -/

/-- `HDDTEMP_BUF` -/
def hddtempBuf : Nat := 512

/-- The string in the buffer, which held zeros before the answer was read into it; `none` if
the answer fills it. -/
def hddtempString (reply : Text) : Option Text :=
  if (reply ++ List.replicate (hddtempBuf - reply.length) '\x00').contains '\x00' then
    some (cString reply)
  else none

/-- The tokens of a record: device and temperature, and what is behind them. -/
def nextRecord (buffer : Text) : Option (Text × Text × Text) :=
  (strtok buffer '|').bind fun (dev, ptr) =>
    (strtok ptr '|').bind fun (_, ptr) =>
      (strtok ptr '|').bind fun (tempc, ptr) =>
        (strtok ptr '|').map fun (_, ptr) => (dev, tempc, ptr)

theorem nextRecord_lt {buffer dev tempc rest : Text}
    (h : nextRecord buffer = some (dev, tempc, rest)) : rest.length < buffer.length := by
  unfold nextRecord at h
  simp only [Option.bind_eq_some_iff, Option.map_eq_some_iff, Prod.exists, Prod.mk.injEq] at h
  obtain ⟨_, p, hdev, _, q, hname, _, r, htemp, _, u, hunit, rfl, rfl, rfl⟩ := h
  have hp := strtok_rest_lt hdev
  have hq := strtok_rest_lt hname
  have hr := strtok_rest_lt htemp
  have hu := strtok_rest_lt hunit
  omega

section Pass

variable (strtof : Text → Rat) (t : DiskTable)

/-- One turn of the loop over the slots, for a record. -/
def slotTemp (dev tempc : Text) (maxtemp : Int) (slot : Slot) : Int :=
  if (t.disk slot).dev ≠ some (dev.drop 5) then maxtemp
  else if slot = .left ∨ slot = .right then max (truncate (strtof tempc)) maxtemp
  else maxtemp

/-- The loop over the records.  It is `none` if a device is too short for `&dev[5]`. -/
def readRecords (buffer : Text) (maxtemp : Int) : Option Int :=
  match _h : nextRecord buffer with
  | none => some maxtemp
  | some (dev, tempc, rest) =>
      if dev.length < 5 then none
      else readRecords rest (t.slots.foldl (slotTemp strtof t dev tempc) maxtemp)
termination_by buffer.length
decreasing_by exact nextRecord_lt ‹_›

/-- `read_disks_temp`, by the answers that are read: an empty one is an error or no answer. -/
def tryDisksTemp : List Text → Int → Option Int
  | [], maxtemp => some maxtemp
  | [] :: replies, maxtemp => tryDisksTemp replies maxtemp
  | reply :: replies, maxtemp =>
      (hddtempString reply).bind fun buffer =>
        (readRecords strtof t buffer maxtemp).bind fun maxtemp =>
          if maxtemp ≠ 0 then some maxtemp else tryDisksTemp replies maxtemp

/-- `read_disks_temp`: three tries. -/
def readDisksTemp (first second third : Text) : Option Int :=
  tryDisksTemp strtof t [first, second, third] 0

end Pass

/-! ## What hddtemp sends -/

/-- A record of hddtemp: four strings. -/
structure HddRecord where
  device : Text
  model : Text
  temperature : Text
  unit : Text
  fields : ∀ f ∈ [device, model, temperature, unit], f ≠ [] ∧ '|' ∉ f ∧ '\x00' ∉ f
  inDev : "/dev/".toList <+: device

/-- A record up to its unit. -/
def HddRecord.front (r : HddRecord) : Text :=
  '|' :: (r.device ++ '|' :: (r.model ++ '|' :: (r.temperature ++ ['|'])))

def HddRecord.text (r : HddRecord) : Text := r.front ++ r.unit ++ ['|']

/-- The records, one behind the other. -/
def recordsText (records : List HddRecord) : Text := records.flatMap HddRecord.text

/-- A first part of the records that fits the buffer. -/
structure Answer where
  records : List HddRecord
  bytes : Text
  isFront : bytes <+: recordsText records
  short : bytes.length < hddtempBuf

/-- The unit of the record has at least one byte among the first `k`. -/
def HasUnit (records : List HddRecord) (k : Nat) (r : HddRecord) : Prop :=
  ∃ before behind, records = before ++ r :: behind ∧
    (recordsText before ++ r.front).length < k

/-- The record is that of the left or of the right disk. -/
def OfBay (t : DiskTable) (r : HddRecord) : Prop :=
  (t.disk .left).dev = some (r.device.drop 5) ∨ (t.disk .right).dev = some (r.device.drop 5)

instance (t : DiskTable) (r : HddRecord) : Decidable (OfBay t r) :=
  inferInstanceAs (Decidable (_ ∨ _))

/-- The temperatures that count in a first part of the records. -/
def bayTemps (strtof : Text → Rat) (t : DiskTable) (records : List HddRecord) (k : Nat) :
    Set Int :=
  {temp | ∃ r, HasUnit records k r ∧ OfBay t r ∧ temp = truncate (strtof r.temperature)}

/-- The temperatures that count in an answer. -/
def Answer.temps (strtof : Text → Rat) (t : DiskTable) (a : Answer) : Set Int :=
  bayTemps strtof t a.records a.bytes.length

section Facts

variable {strtof : Text → Rat} {t : DiskTable}

theorem front_length (r : HddRecord) :
    r.front.length = r.device.length + r.model.length + r.temperature.length + 4 := by
  simp only [HddRecord.front, List.length_cons, List.length_append, List.length_nil]
  omega

theorem text_length (r : HddRecord) : r.text.length = r.front.length + r.unit.length + 1 := by
  simp only [HddRecord.text, List.length_append, List.length_singleton]

theorem text_append (r : HddRecord) (s : Text) :
    r.text ++ s = '|' :: (r.device ++ '|' :: (r.model ++ '|' ::
      (r.temperature ++ '|' :: (r.unit ++ '|' :: s)))) := by
  simp [HddRecord.text, HddRecord.front]

theorem nextRecord_delim (s : Text) : nextRecord ('|' :: s) = nextRecord s := by
  rw [nextRecord, strtok_delim, nextRecord]

/-- **A record is read** as soon as its unit has begun. -/
theorem nextRecord_take (r : HddRecord) (s : Text) (k : Nat) :
    nextRecord ((r.text ++ s).take k) =
      if r.front.length < k then
        some (r.device, r.temperature, s.take (k - r.text.length))
      else none := by
  obtain ⟨hdev, hmodel, htemp, hunit⟩ : (r.device ≠ [] ∧ '|' ∉ r.device) ∧
      (r.model ≠ [] ∧ '|' ∉ r.model) ∧ (r.temperature ≠ [] ∧ '|' ∉ r.temperature) ∧
        r.unit ≠ [] ∧ '|' ∉ r.unit := by
    have hfields := r.fields
    simp only [List.forall_mem_cons] at hfields
    obtain ⟨⟨h1, h2, -⟩, ⟨h3, h4, -⟩, ⟨h5, h6, -⟩, ⟨h7, h8, -⟩, -⟩ := hfields
    exact ⟨⟨h1, h2⟩, ⟨h3, h4⟩, ⟨h5, h6⟩, h7, h8⟩
  rw [text_length, front_length, text_append]
  cases k with
  | zero => rfl
  | succ k =>
      rw [List.take_succ_cons, nextRecord_delim, nextRecord,
        strtok_take hdev.1 hdev.2]
      -- what is left of the answer behind each of the fields
      generalize hk1 : k - (r.device.length + 1) = k1
      by_cases h0 : k = 0
      · rw [if_pos h0, if_neg (by omega)]
        rfl
      rw [if_neg h0, Option.bind_some]
      dsimp only
      rw [strtok_take hmodel.1 hmodel.2]
      generalize hk2 : k1 - (r.model.length + 1) = k2
      by_cases h1 : k1 = 0
      · rw [if_pos h1, if_neg (by omega)]
        rfl
      rw [if_neg h1, Option.bind_some]
      dsimp only
      rw [strtok_take htemp.1 htemp.2]
      generalize hk3 : k2 - (r.temperature.length + 1) = k3
      by_cases h2 : k2 = 0
      · rw [if_pos h2, if_neg (by omega)]
        rfl
      rw [if_neg h2, Option.bind_some]
      dsimp only
      rw [strtok_take hunit.1 hunit.2]
      by_cases h3 : k3 = 0
      · rw [if_pos h3, if_neg (by omega)]
        rfl
      have hdevice : r.device.take k = r.device := List.take_of_length_le (by omega)
      have htemperature : r.temperature.take k2 = r.temperature :=
        List.take_of_length_le (by omega)
      have hrest : k + 1 - (r.device.length + r.model.length + r.temperature.length + 4 +
          r.unit.length + 1) = k3 - (r.unit.length + 1) := by omega
      rw [if_neg h3, if_pos (by omega), hrest, hdevice, htemperature, Option.map_some]

/-! ## The warmest disk -/

theorem readRecords_eq (buffer : Text) (maxtemp : Int) :
    readRecords strtof t buffer maxtemp =
      match nextRecord buffer with
      | none => some maxtemp
      | some (dev, tempc, rest) =>
          if dev.length < 5 then none
          else readRecords strtof t rest (t.slots.foldl (slotTemp strtof t dev tempc) maxtemp) := by
  rw [readRecords]
  split <;> rename_i heq <;> rw [heq]

/-- What a record makes of the maximum. -/
theorem foldl_slotTemp (hslots : 2 ≤ t.nslots) (r : HddRecord) (maxtemp : Int) :
    t.slots.foldl (slotTemp strtof t r.device r.temperature) maxtemp =
      if OfBay t r then max (truncate (strtof r.temperature)) maxtemp else maxtemp := by
  have husb : ∀ m, slotTemp strtof t r.device r.temperature m .usb = m := by
    intro m
    simp [slotTemp]
  have hfold : t.slots.foldl (slotTemp strtof t r.device r.temperature) maxtemp =
      slotTemp strtof t r.device r.temperature
        (slotTemp strtof t r.device r.temperature maxtemp .left) .right := by
    unfold DiskTable.slots
    rcases Nat.lt_or_ge t.nslots 3 with h | h
    · rw [show t.nslots = 2 by omega]
      rfl
    · rw [List.take_of_length_le (by simpa using h)]
      exact husb _
  rw [hfold]
  unfold slotTemp OfBay
  by_cases hleft : (t.disk .left).dev = some (r.device.drop 5) <;>
    by_cases hright : (t.disk .right).dev = some (r.device.drop 5) <;>
    simp [hleft, hright]

theorem hasUnit_cons (r₀ : HddRecord) (records : List HddRecord) (k : Nat) (r : HddRecord) :
    HasUnit (r₀ :: records) k r ↔
      r = r₀ ∧ r₀.front.length < k ∨ HasUnit records (k - r₀.text.length) r := by
  constructor
  · rintro ⟨before, behind, heq, hlt⟩
    cases before with
    | nil =>
        obtain ⟨rfl, -⟩ := List.cons.inj heq
        exact Or.inl ⟨rfl, hlt⟩
    | cons b before =>
        obtain ⟨rfl, hrest⟩ := List.cons.inj heq
        refine Or.inr ⟨before, behind, hrest, ?_⟩
        rw [recordsText, List.flatMap_cons, List.append_assoc, List.length_append] at hlt
        exact Nat.lt_sub_of_add_lt (by rw [Nat.add_comm]; exact hlt)
  · rintro (⟨rfl, hlt⟩ | ⟨before, behind, rfl, hlt⟩)
    · exact ⟨[], records, rfl, hlt⟩
    · refine ⟨r₀ :: before, behind, rfl, ?_⟩
      rw [recordsText, List.flatMap_cons, List.append_assoc, List.length_append, Nat.add_comm]
      exact Nat.add_lt_of_lt_sub hlt

/-- No record counts behind one that is cut off before its unit. -/
theorem bayTemps_cut {r₀ : HddRecord} {records : List HddRecord} {k : Nat}
    (h : ¬ r₀.front.length < k) : bayTemps strtof t (r₀ :: records) k = ∅ := by
  refine Set.eq_empty_of_forall_notMem ?_
  rintro temp ⟨r, hunit, -, -⟩
  rw [hasUnit_cons] at hunit
  rcases hunit with ⟨-, hlt⟩ | ⟨before, behind, -, hlt⟩
  · exact h hlt
  · rw [text_length] at hlt
    omega

/-- The temperatures that count, with a record in front whose unit has begun. -/
theorem bayTemps_cons {r₀ : HddRecord} {records : List HddRecord} {k : Nat}
    (h : r₀.front.length < k) :
    bayTemps strtof t (r₀ :: records) k =
      if OfBay t r₀ then
        insert (truncate (strtof r₀.temperature)) (bayTemps strtof t records (k - r₀.text.length))
      else bayTemps strtof t records (k - r₀.text.length) := by
  ext temp
  have hmem : temp ∈ bayTemps strtof t (r₀ :: records) k ↔
      OfBay t r₀ ∧ temp = truncate (strtof r₀.temperature) ∨
        temp ∈ bayTemps strtof t records (k - r₀.text.length) := by
    constructor
    · rintro ⟨r, hunit, hbay, htemp⟩
      rcases (hasUnit_cons r₀ records k r).mp hunit with ⟨rfl, -⟩ | hunit
      · exact Or.inl ⟨hbay, htemp⟩
      · exact Or.inr ⟨r, hunit, hbay, htemp⟩
    · rintro (⟨hbay, htemp⟩ | ⟨r, hunit, hbay, htemp⟩)
      · exact ⟨r₀, (hasUnit_cons r₀ records k r₀).mpr (Or.inl ⟨rfl, h⟩), hbay, htemp⟩
      · exact ⟨r, (hasUnit_cons r₀ records k r).mpr (Or.inr hunit), hbay, htemp⟩
  rw [hmem]
  split
  · next hbay => simp [hbay]
  · next hbay => simp [hbay]

theorem isGreatest_insert_max {a b x : Int} {s : Set Int}
    (h : IsGreatest (insert (max a b) s) x) : IsGreatest (insert b (insert a s)) x := by
  obtain ⟨hmem, hle⟩ := h
  refine ⟨?_, ?_⟩
  · rcases hmem with rfl | hmem
    · rcases max_choice a b with hmax | hmax
      · exact Or.inr (Or.inl hmax)
      · exact Or.inl hmax
    · exact Or.inr (Or.inr hmem)
  · have hmax := hle (Set.mem_insert _ _)
    rintro y (rfl | rfl | hy)
    · exact (le_max_right a y).trans hmax
    · exact (le_max_left y b).trans hmax
    · exact hle (Or.inr hy)

/-- **One pass** over a first part of the records. -/
theorem readRecords_take (hslots : 2 ≤ t.nslots) (records : List HddRecord) (k : Nat)
    (maxtemp : Int) :
    ∃ m, readRecords strtof t ((recordsText records).take k) maxtemp = some m ∧
      IsGreatest (insert maxtemp (bayTemps strtof t records k)) m := by
  induction records generalizing k maxtemp with
  | nil =>
      have hnone : bayTemps strtof t [] k = ∅ := by
        refine Set.eq_empty_of_forall_notMem ?_
        rintro temp ⟨r, ⟨before, behind, heq, -⟩, -, -⟩
        exact List.cons_ne_nil _ _ (List.append_eq_nil_iff.mp heq.symm).2
      refine ⟨maxtemp, ?_, ?_⟩
      · rw [readRecords_eq, recordsText, List.flatMap_nil, List.take_nil]
        rfl
      · rw [hnone, insert_empty_eq]
        exact isGreatest_singleton
  | cons r records ih =>
      rw [recordsText, List.flatMap_cons, readRecords_eq, nextRecord_take]
      by_cases h : r.front.length < k
      · have hdevice : ¬ r.device.length < 5 := by
          have hle := r.inDev.length_le
          exact Nat.not_lt.mpr hle
        rw [if_pos h, bayTemps_cons h]
        dsimp only
        rw [if_neg hdevice, foldl_slotTemp hslots]
        split
        · obtain ⟨m, hm, hgreatest⟩ := ih (k - r.text.length)
            (max (truncate (strtof r.temperature)) maxtemp)
          exact ⟨m, hm, isGreatest_insert_max hgreatest⟩
        · exact ih (k - r.text.length) maxtemp
      · rw [if_neg h, bayTemps_cut h, insert_empty_eq]
        exact ⟨maxtemp, rfl, isGreatest_singleton⟩

/-! ## The tries -/

theorem recordsText_clean (records : List HddRecord) : '\x00' ∉ recordsText records := by
  intro hmem
  obtain ⟨r, -, hmem⟩ := List.mem_flatMap.mp hmem
  have hfields := r.fields
  simp only [List.forall_mem_cons] at hfields
  obtain ⟨⟨-, -, h1⟩, ⟨-, -, h2⟩, ⟨-, -, h3⟩, ⟨-, -, h4⟩, -⟩ := hfields
  simp [HddRecord.text, HddRecord.front, h1, h2, h3, h4] at hmem

theorem Answer.string (a : Answer) : hddtempString a.bytes = some a.bytes := by
  have hclean : '\x00' ∉ a.bytes :=
    fun hmem => recordsText_clean a.records (a.isFront.subset hmem)
  have hroom : hddtempBuf - a.bytes.length ≠ 0 := Nat.sub_ne_zero_of_lt a.short
  rw [hddtempString, if_pos (by simp [hroom]), cString, List.takeWhile_eq_self_iff.mpr]
  intro c hc
  rw [decide_eq_true_eq]
  rintro rfl
  exact hclean hc

/-- **One pass over an answer**: the maximum of what it was and the temperatures that count. -/
theorem Answer.pass (hslots : 2 ≤ t.nslots) (a : Answer) (maxtemp : Int) :
    ∃ m, (hddtempString a.bytes).bind (fun buffer => readRecords strtof t buffer maxtemp) = some m ∧
      IsGreatest (insert maxtemp (a.temps strtof t)) m := by
  have htake : a.bytes = (recordsText a.records).take a.bytes.length :=
    List.prefix_iff_eq_take.mp a.isFront
  rw [a.string, Option.bind_some]
  obtain ⟨m, hm, hgreatest⟩ := readRecords_take hslots a.records a.bytes.length maxtemp
  rw [← htake] at hm
  exact ⟨m, hm, hgreatest⟩

/-- The temperatures that count in some answers. -/
def answersTemps (strtof : Text → Rat) (t : DiskTable) (answers : List Answer) : Set Int :=
  {temp | ∃ a ∈ answers, temp ∈ a.temps strtof t}

theorem answersTemps_cons (a : Answer) (answers : List Answer) :
    answersTemps strtof t (a :: answers) = a.temps strtof t ∪ answersTemps strtof t answers := by
  ext temp
  simp [answersTemps]

/-- One try, whatever was read. -/
theorem tryDisksTemp_cons (hslots : 2 ≤ t.nslots) (a : Answer) (replies : List Text) :
    ∃ m, IsGreatest (insert 0 (a.temps strtof t)) m ∧
      tryDisksTemp strtof t (a.bytes :: replies) 0 =
        if m ≠ 0 then some m else tryDisksTemp strtof t replies 0 := by
  obtain ⟨m, hm, hgreatest⟩ : ∃ m,
      (hddtempString a.bytes).bind (fun buffer => readRecords strtof t buffer 0) = some m ∧
        IsGreatest (insert 0 (a.temps strtof t)) m := a.pass hslots 0
  refine ⟨m, hgreatest, ?_⟩
  cases hbytes : a.bytes with
  | nil =>
      have hnone : a.temps strtof t = ∅ := by
        refine Set.eq_empty_of_forall_notMem ?_
        rintro temp ⟨r, ⟨before, behind, -, hlt⟩, -, -⟩
        rw [hbytes] at hlt
        exact Nat.not_lt_zero _ hlt
      rw [hnone, insert_empty_eq] at hgreatest
      rw [hgreatest.unique isGreatest_singleton, if_neg (not_not.mpr rfl), tryDisksTemp]
  | cons c bytes =>
      rw [hbytes] at hm
      rw [tryDisksTemp]
      · obtain ⟨buffer, hbuffer, hread⟩ := Option.bind_eq_some_iff.mp hm
        rw [hbuffer, Option.bind_some, hread, Option.bind_some]
        by_cases h : m = 0
        · rw [h, if_neg (not_not.mpr rfl)]
        · rw [if_pos h, if_pos h]
      · intro h
        cases h

/-- **The tries**: the first answers up to the one that gives a temperature. -/
theorem tryDisksTemp_answers (hslots : 2 ≤ t.nslots) (answers : List Answer) :
    ∃ n ≤ answers.length, ∃ m,
      tryDisksTemp strtof t (answers.map Answer.bytes) 0 = some m ∧
        IsGreatest (insert 0 (answersTemps strtof t (answers.take n))) m ∧
        (∀ k < n, IsGreatest (insert 0 (answersTemps strtof t (answers.take k))) 0) ∧
        (m = 0 → n = answers.length) := by
  have hzero : IsGreatest (insert 0 (answersTemps strtof t [])) 0 := by
    have hnone : answersTemps strtof t [] = ∅ := by simp [answersTemps]
    rw [hnone, insert_empty_eq]
    exact isGreatest_singleton
  induction answers with
  | nil => exact ⟨0, le_rfl, 0, rfl, hzero, fun k hk => absurd hk (Nat.not_lt_zero k), fun _ => rfl⟩
  | cons a answers ih =>
      obtain ⟨m, hgreatest, htry⟩ := tryDisksTemp_cons hslots a (answers.map Answer.bytes)
      rw [List.map_cons, htry]
      by_cases h : m = 0
      · -- the answer gave nothing: the maximum of all is that of the others
        obtain ⟨n, hn, m', hm', hgreatest', hbefore, hlast⟩ := ih
        subst h
        have hskip : ∀ answers m'', IsGreatest (insert 0 (answersTemps strtof t answers)) m'' →
            IsGreatest (insert 0 (answersTemps strtof t (a :: answers))) m'' := by
          rintro answers m'' ⟨hmem, hle⟩
          rw [answersTemps_cons]
          refine ⟨hmem.imp_right Or.inr, ?_⟩
          rintro y (rfl | hy | hy)
          · exact hle (Set.mem_insert _ _)
          · exact (hgreatest.2 (Or.inr hy)).trans (hle (Set.mem_insert _ _))
          · exact hle (Or.inr hy)
        refine ⟨n + 1, Nat.succ_le_succ hn, m', ?_, hskip _ _ hgreatest', ?_, ?_⟩
        · rw [if_neg (not_not.mpr rfl)]
          exact hm'
        · intro k hk
          cases k with
          | zero => exact hzero
          | succ k => exact hskip _ _ (hbefore k (Nat.lt_of_succ_lt_succ hk))
        · intro hm
          rw [hlast hm, List.length_cons]
      · refine ⟨1, Nat.succ_le_succ (Nat.zero_le _), m, ?_, ?_, ?_, fun hm => absurd hm h⟩
        · rw [if_pos h]
        · rw [List.take_succ_cons, List.take_zero, answersTemps_cons]
          have hnone : answersTemps strtof t [] = ∅ := by simp [answersTemps]
          rw [hnone, Set.union_empty]
          exact hgreatest
        · intro k hk
          rw [Nat.lt_one_iff.mp hk]
          exact hzero

end Facts

/-- **Disk temperatures**: a pass finds the maximum of zero and of the temperatures of the left
and right disks whose records have got as far as their units, and `read_disks_temp` stops at the
first answer with which this maximum is not zero. -/
theorem readDisksTemp_maximum (strtof : Text → Rat) (t : DiskTable) (hslots : 2 ≤ t.nslots) :
    (∀ a : Answer, ∃ m,
      (hddtempString a.bytes).bind (fun buffer => readRecords strtof t buffer 0) = some m ∧
        IsGreatest (insert 0 (a.temps strtof t)) m) ∧
    ∀ a₁ a₂ a₃ : Answer, ∃ n ≤ 3, ∃ m,
      readDisksTemp strtof t a₁.bytes a₂.bytes a₃.bytes = some m ∧
        IsGreatest (insert 0 (answersTemps strtof t ([a₁, a₂, a₃].take n))) m ∧
        (∀ k < n, IsGreatest (insert 0 (answersTemps strtof t ([a₁, a₂, a₃].take k))) 0) ∧
        (m = 0 → n = 3) :=
  ⟨fun a => a.pass hslots 0, fun a₁ a₂ a₃ => tryDisksTemp_answers hslots [a₁, a₂, a₃]⟩

/-- The records of a warm left disk and of a warmer disk on the USB plug, cut off in the second
unit. -/
def twoDisks : Answer where
  records :=
    [⟨"/dev/sda".toList, "WDC".toList, "41".toList, "C".toList, by decide, by decide⟩,
      ⟨"/dev/sdc".toList, "ST".toList, "55".toList, "C".toList, by decide, by decide⟩]
  bytes := "|/dev/sda|WDC|41|C||/dev/sdc|ST|55|C".toList
  isFront := by decide
  short := by decide

/-- The disks of that answer in their slots. -/
def twoDisksTable : DiskTable :=
  { DiskTable.start 3 fun _ => 0 with
    disk := fun slot =>
      ⟨match slot with
        | .left => some "sda".toList
        | .right => none
        | .usb => some "sdc".toList, 0, 0, 0, .active⟩ }

/-- Nothing was read. -/
def noAnswer : Answer := ⟨[], [], by decide, by decide⟩

theorem readDisksTemp_two_disks : ∃ n ≤ 3, ∃ m,
    readDisksTemp (fun s => (scanInt s).getD 0) twoDisksTable noAnswer.bytes twoDisks.bytes
        noAnswer.bytes = some m ∧
      IsGreatest (insert 0 (answersTemps (fun s => (scanInt s).getD 0) twoDisksTable
        ([noAnswer, twoDisks, noAnswer].take n))) m ∧
      (∀ k < n, IsGreatest (insert 0 (answersTemps (fun s => (scanInt s).getD 0) twoDisksTable
        ([noAnswer, twoDisks, noAnswer].take k))) 0) ∧
      (m = 0 → n = 3) :=
  (readDisksTemp_maximum (fun s => (scanInt s).getD 0) twoDisksTable (by decide)).2 noAnswer
    twoDisks noAnswer

end AltF.Sysctrl
