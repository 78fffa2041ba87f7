/-
  Mcu/Zone.lean --- the calendar of the C library in a zone with a fixed offset from UTC.

  `timegm` and `mktime` take fields out of their ranges as the library does: a month is
  carried into the year, and all else is added up.  The texts of `strftime` and `ctime` tell
  the times apart that they show.
-/
import AltF.Foundation.Dates
import AltF.Mcu.Handlers

set_option autoImplicit false

namespace AltF.Mcu.Handlers

open AltF.Foundation AltF.SysFiles

/-! ## Instants and fields -/

/-- The month and the year of a `struct tm`, in range. -/
def Tm.firstOfMonth (tm : Tm) : Date := ⟨1900 + tm.year + tm.mon / 12, tm.mon % 12, 1⟩

/-- `timegm` -/
def timegm (tm : Tm) : Int :=
  (tm.firstOfMonth.number + tm.mday - 1) * 86400 + tm.hour * 3600 + tm.min * 60 + tm.sec

/-- `gmtime` -/
def gmtime (t : Int) : Tm where
  sec := t % 60
  min := t / 60 % 60
  hour := t / 3600 % 24
  mday := (dateOf (t / 86400)).day
  mon := (dateOf (t / 86400)).month
  year := (dateOf (t / 86400)).year - 1900
  wday := (t / 86400 + 4) % 7

/-- The date of a `struct tm`. -/
def Tm.date (tm : Tm) : Date := ⟨1900 + tm.year, tm.mon, tm.mday⟩

theorem number_firstOfMonth {tm : Tm} (h : 0 ≤ tm.mon ∧ tm.mon < 12) :
    tm.firstOfMonth.number + tm.mday - 1 = tm.date.number := by
  have hdiv : tm.mon / 12 = 0 := by omega
  have hmod : tm.mon % 12 = tm.mon := by omega
  simp only [Tm.firstOfMonth, Tm.date, Date.number, hdiv, hmod, Int.add_zero]
  omega

theorem date_gmtime (t : Int) : (gmtime t).date = dateOf (t / 86400) := by
  have hyear : 1900 + ((dateOf (t / 86400)).year - 1900) = (dateOf (t / 86400)).year := by omega
  simp only [Tm.date, gmtime, hyear]

theorem gmtime_mon (t : Int) : 0 ≤ (gmtime t).mon ∧ (gmtime t).mon < 12 :=
  (dateOf_valid (t / 86400)).month

/-- **An instant has its fields**: `timegm` undoes `gmtime`. -/
theorem timegm_gmtime (t : Int) : timegm (gmtime t) = t := by
  rw [timegm, number_firstOfMonth (gmtime_mon t), date_gmtime, number_dateOf]
  simp only [gmtime]
  omega

/-- The fields are those of a time of the calendar. -/
structure Tm.Regular (tm : Tm) : Prop where
  date : tm.date.Valid
  hour : 0 ≤ tm.hour ∧ tm.hour < 24
  min : 0 ≤ tm.min ∧ tm.min < 60
  sec : 0 ≤ tm.sec ∧ tm.sec < 60

theorem gmtime_regular (t : Int) : (gmtime t).Regular where
  date := by
    rw [date_gmtime]
    exact dateOf_valid _
  hour := ⟨Int.emod_nonneg _ (by decide), Int.emod_lt_of_pos _ (by decide)⟩
  min := ⟨Int.emod_nonneg _ (by decide), Int.emod_lt_of_pos _ (by decide)⟩
  sec := ⟨Int.emod_nonneg _ (by decide), Int.emod_lt_of_pos _ (by decide)⟩

/-- Everything but the day of the week. -/
structure SameTime (a b : Tm) : Prop where
  date : a.date = b.date
  hour : a.hour = b.hour
  min : a.min = b.min
  sec : a.sec = b.sec

/-- **Fields have one instant**: `gmtime` undoes `timegm`, but for the day of the week. -/
theorem gmtime_timegm {tm : Tm} (h : tm.Regular) : SameTime (gmtime (timegm tm)) tm := by
  have hmon : 0 ≤ tm.mon ∧ tm.mon < 12 := h.date.month
  have hhour := h.hour
  have hmin := h.min
  have hsec := h.sec
  have hday : timegm tm / 86400 = tm.date.number := by
    rw [timegm, number_firstOfMonth hmon]
    omega
  refine ⟨by rw [date_gmtime, hday, dateOf_number h.date], ?_, ?_, ?_⟩
  · simp only [gmtime, timegm]
    omega
  · simp only [gmtime, timegm]
    omega
  · simp only [gmtime, timegm]
    omega

theorem SameTime.timegm_eq {a b : Tm} (h : SameTime a b) (ha : 0 ≤ a.mon ∧ a.mon < 12)
    (hb : 0 ≤ b.mon ∧ b.mon < 12) : timegm a = timegm b := by
  rw [timegm, timegm, number_firstOfMonth ha, number_firstOfMonth hb, h.date, h.hour, h.min, h.sec]

/-- Instants with the same fields are the same. -/
theorem eq_of_sameTime {t t' : Int} (h : SameTime (gmtime t) (gmtime t')) : t = t' := by
  rw [← timegm_gmtime t, ← timegm_gmtime t', h.timegm_eq (gmtime_mon t) (gmtime_mon t')]

/-! ## Texts -/

/-- `%02d` of a number below 100. -/
def two (n : Int) : Text := [Nat.digitChar (n.toNat / 10), Nat.digitChar (n.toNat % 10)]

/-- `%3d` of a number below 100. -/
def three (n : Int) : Text :=
  [' ', if n.toNat < 10 then ' ' else Nat.digitChar (n.toNat / 10),
    Nat.digitChar (n.toNat % 10)]

theorem digitChar_inj {a b : Nat} (ha : a < 10) (hb : b < 10)
    (h : Nat.digitChar a = Nat.digitChar b) : a = b := by
  have hchar := congrArg Char.toNat h
  rw [Nat.toNat_digitChar_of_lt_ten ha, Nat.toNat_digitChar_of_lt_ten hb] at hchar
  omega

theorem two_inj {a b : Int} (ha : 0 ≤ a ∧ a < 100) (hb : 0 ≤ b ∧ b < 100) (h : two a = two b) :
    a = b := by
  simp only [two, List.cons.injEq, and_true] at h
  have htens := digitChar_inj (by omega) (by omega) h.1
  have hones := digitChar_inj (by omega) (by omega) h.2
  omega

theorem three_inj {a b : Int} (ha : 0 ≤ a ∧ a < 100) (hb : 0 ≤ b ∧ b < 100)
    (h : three a = three b) : a = b := by
  simp only [three, List.cons.injEq, true_and, and_true] at h
  have hones := digitChar_inj (by omega) (by omega) h.2
  have hblank : ∀ d, d < 10 → Nat.digitChar d ≠ ' ' := by decide
  have htens := h.1
  split at htens
  · split at htens
    · omega
    · exact absurd htens.symm (hblank _ (by omega))
  · split at htens
    · exact absurd htens (hblank _ (by omega))
    · have := digitChar_inj (by omega) (by omega) htens
      omega

theorem printInt_inj {a b : Int} (h : printInt a = printInt b) : a = b := by
  have hscan := congrArg scanInt h
  rw [scanInt_printInt, scanInt_printInt] at hscan
  exact Option.some.inj hscan

/-- What follows the year in `%F %R`. -/
def dayAndTime (tm : Tm) : Text :=
  '-' :: (two (tm.mon + 1) ++ '-' :: (two tm.mday ++ ' ' :: (two tm.hour ++ ':' :: two tm.min)))

/-- `strftime(..., "%F %R", tm)` -/
def strftime (tm : Tm) : Text := printInt (1900 + tm.year) ++ dayAndTime tm

/-- Fields that two digits can show. -/
theorem Tm.Regular.day_lt {tm : Tm} (h : tm.Regular) : 0 ≤ tm.mday ∧ tm.mday < 100 := by
  obtain ⟨hlow, hhigh⟩ := h.date.day
  have hmon : 0 ≤ tm.mon ∧ tm.mon < 12 := h.date.month
  have hleap := leapDay_cases tm.date.year
  simp only [Tm.date] at hlow hhigh hleap
  revert hhigh
  unfold monthLength monthStart
  split <;> split <;> omega

/-- The text shows the date and the time to the minute. -/
theorem strftime_inj {a b : Tm} (ha : a.Regular) (hb : b.Regular)
    (h : strftime a = strftime b) : a.date = b.date ∧ a.hour = b.hour ∧ a.min = b.min := by
  obtain ⟨hyear, hrest⟩ := List.append_inj' h rfl
  obtain ⟨hmon, hrest⟩ := List.append_inj (List.cons.inj hrest).2 rfl
  obtain ⟨hday, hrest⟩ := List.append_inj (List.cons.inj hrest).2 rfl
  obtain ⟨hhour, hrest⟩ := List.append_inj (List.cons.inj hrest).2 rfl
  have hmin := (List.cons.inj hrest).2
  have hma : 0 ≤ a.mon ∧ a.mon < 12 := ha.date.month
  have hmb : 0 ≤ b.mon ∧ b.mon < 12 := hb.date.month
  have hya := printInt_inj hyear
  have hmo := two_inj (by omega) (by omega) hmon
  refine ⟨?_, ?_, ?_⟩
  · simp only [Tm.date, Date.mk.injEq]
    exact ⟨hya, by omega, two_inj ha.day_lt hb.day_lt hday⟩
  · exact two_inj (by have := ha.hour; omega) (by have := hb.hour; omega) hhour
  · exact two_inj (by have := ha.min; omega) (by have := hb.min; omega) hmin

/-- The names that `ctime` gives the days of the week, from Sunday on. -/
def dayNames : List Text :=
  ["Sun".toList, "Mon".toList, "Tue".toList, "Wed".toList, "Thu".toList, "Fri".toList,
    "Sat".toList]

def monthNames : List Text :=
  ["Jan".toList, "Feb".toList, "Mar".toList, "Apr".toList, "May".toList, "Jun".toList,
    "Jul".toList, "Aug".toList, "Sep".toList, "Oct".toList, "Nov".toList, "Dec".toList]

/-- `asctime` -/
def asctime (tm : Tm) : Text :=
  (dayNames.getD tm.wday.toNat "???".toList) ++ ' ' ::
    (monthNames.getD tm.mon.toNat "???".toList ++ (three tm.mday ++ ' ' ::
      (two tm.hour ++ ':' :: (two tm.min ++ ':' :: (two tm.sec ++ ' ' ::
        (printInt (1900 + tm.year) ++ ['\n']))))))

/-- A name has three letters. -/
theorem getD_length {names : List Text} (h : ∀ n ∈ names, n.length = 3) (i : Nat) :
    (names.getD i "???".toList).length = 3 := by
  rw [List.getD_eq_getElem?_getD]
  cases hi : names[i]? with
  | none => rfl
  | some n => exact h n (List.mem_of_getElem? hi)

/-- Names of months tell the months apart. -/
theorem monthNames_inj {a b : Int} (ha : 0 ≤ a ∧ a < 12) (hb : 0 ≤ b ∧ b < 12)
    (h : monthNames.getD a.toNat "???".toList = monthNames.getD b.toNat "???".toList) :
    a = b := by
  have hall : ∀ i < 12, ∀ j < 12, monthNames.getD i "???".toList =
      monthNames.getD j "???".toList → i = j := by decide +kernel
  have := hall a.toNat (by omega) b.toNat (by omega) h
  omega

/-- The text shows all of a time. -/
theorem asctime_inj {a b : Tm} (ha : a.Regular) (hb : b.Regular)
    (h : asctime a = asctime b) : SameTime a b := by
  have hdays : ∀ n ∈ dayNames, n.length = 3 := by decide +kernel
  have hmonths : ∀ n ∈ monthNames, n.length = 3 := by decide +kernel
  obtain ⟨-, h⟩ := List.append_inj h (by rw [getD_length hdays, getD_length hdays])
  obtain ⟨hmon, h⟩ := List.append_inj (List.cons.inj h).2
    (by rw [getD_length hmonths, getD_length hmonths])
  obtain ⟨hday, h⟩ := List.append_inj h rfl
  obtain ⟨hhour, h⟩ := List.append_inj (List.cons.inj h).2 rfl
  obtain ⟨hmin, h⟩ := List.append_inj (List.cons.inj h).2 rfl
  obtain ⟨hsec, h⟩ := List.append_inj (List.cons.inj h).2 rfl
  obtain ⟨hyear, -⟩ := List.append_inj' (List.cons.inj h).2 rfl
  refine ⟨?_, ?_, ?_, ?_⟩
  · simp only [Tm.date, Date.mk.injEq]
    exact ⟨printInt_inj hyear, monthNames_inj ha.date.month hb.date.month hmon,
      three_inj ha.day_lt hb.day_lt hday⟩
  · exact two_inj (by have := ha.hour; omega) (by have := hb.hour; omega) hhour
  · exact two_inj (by have := ha.min; omega) (by have := hb.min; omega) hmin
  · exact two_inj (by have := ha.sec; omega) (by have := hb.sec; omega) hsec

/-! ## The zone -/

/-- The calendar of the C library, in the zone that is `off` seconds ahead of UTC. -/
def zoned (off : Int) : Calendar where
  localtime t := gmtime (t + off)
  gmtime t := some (gmtime t)
  mktime tm := timegm tm - off
  timegm := timegm
  strftime := strftime
  ctime t := asctime (gmtime (t + off))
  difftime a b := printInt (a - b) ++ ['s']

/-- `ctime` shows the whole instant. -/
theorem ctime_inj {off t t' : Int} (h : (zoned off).ctime t = (zoned off).ctime t') : t = t' := by
  have hsame := asctime_inj (gmtime_regular _) (gmtime_regular _) h
  have := eq_of_sameTime hsame
  omega

end AltF.Mcu.Handlers
