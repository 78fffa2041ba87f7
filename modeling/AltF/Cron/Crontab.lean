/-
  Cron/Crontab.lean --- crontab entries, and when crond runs them.

  What a field names is crond's affair; that `*` names everything, and that the two day
  fields are alternatives only where both restrict the days, is what crontab(5) says.
-/
import AltF.Shell.Reading

set_option autoImplicit false

namespace AltF.Cron

open AltF.Shell AltF.SysFiles

/-! ## Entries -/

inductive Field where
  | minute | hour | day | month | weekday
  deriving DecidableEq, Repr

/-- A line of a crontab: five fields and what is behind them. -/
structure Entry where
  minute : Text
  hour : Text
  day : Text
  month : Text
  weekday : Text
  rest : Text
  deriving DecidableEq, Repr

def entryOf (fs : List Text) : Entry :=
  ⟨fs.getD 0 [], fs.getD 1 [], fs.getD 2 [], fs.getD 3 [], fs.getD 4 [], fs.getD 5 []⟩

def readEntry (l : Text) : Entry := entryOf (fieldsBy isBlank 5 l)

/-- `#!#`, with which the entries of Alt-F end. -/
def hasMark : Text → Bool
  | [] => false
  | '#' :: '!' :: '#' :: _ => true
  | _ :: t => hasMark t

def beforeMark : Text → Text
  | [] => []
  | '#' :: '!' :: '#' :: _ => []
  | c :: t => c :: beforeMark t

/-- The command, without the mark and the blanks at its end. -/
def Entry.command (e : Entry) : Text := (beforeMark e.rest).rdropWhile isBlank

theorem beforeMark_of_not_hasMark {t : Text} (h : hasMark t = false) : beforeMark t = t := by
  fun_induction hasMark t with
  | case1 => rfl
  | case2 => cases h
  | case3 c t hmark ih =>
      rw [beforeMark, ih h]
      exact hmark

theorem beforeMark_append {t : Text} (ht : '#' ∉ t) (u : Text) :
    beforeMark (t ++ '#' :: '!' :: '#' :: u) = t := by
  induction t with
  | nil => rw [List.nil_append, beforeMark]
  | cons c t ih =>
      rw [List.mem_cons, not_or] at ht
      rw [List.cons_append, beforeMark, ih ht.2]
      exact fun _ h _ => ht.1 h.symm

/-- The mark is where the text in front of it ends. -/
theorem takeWhile_of_hasMark {t : Text} (h : hasMark t = true) (hhash : '#' ∉ beforeMark t) :
    t.takeWhile (· ≠ '#') = beforeMark t := by
  fun_induction hasMark t with
  | case1 => cases h
  | case2 t => rw [beforeMark, List.takeWhile_cons_of_neg (by decide)]
  | case3 c t hmark ih =>
      have hcut : beforeMark (c :: t) = c :: beforeMark t := by
        rw [beforeMark]
        exact hmark
      rw [hcut, List.mem_cons, not_or] at hhash
      rw [hcut, List.takeWhile_cons, if_pos (decide_eq_true (Ne.symm hhash.1)), ih h hhash.2]

/-! ## Times -/

/-- The days of a month, in the longest of its years. -/
def daysIn (month : Nat) : Nat :=
  if month = 2 then 29 else if month = 4 ∨ month = 6 ∨ month = 9 ∨ month = 11 then 30 else 31

/-- A minute of the calendar.  Each weekday falls on each date in some year. -/
structure Moment where
  minute : Nat
  hour : Nat
  day : Nat
  month : Nat
  weekday : Nat
  minute_lt : minute < 60
  hour_lt : hour < 24
  month_mem : 1 ≤ month ∧ month ≤ 12
  day_mem : 1 ≤ day ∧ day ≤ daysIn month
  weekday_lt : weekday < 7

/-- A character of a field. -/
def isFieldChar (c : Char) : Bool := c.isAlphanum || "*,-/".toList.contains c

/-- crond, as crontab(5) has it. -/
structure Crond where
  valid : Field → Text → Bool
  /-- the values that a field names -/
  names : Field → Text → Nat → Bool
  /-- a day field that does not restrict the days -/
  unrestricted : Text → Bool
  valid_star : ∀ f, valid f ['*'] = true
  names_star : ∀ f v, names f ['*'] v = true
  unrestricted_star : unrestricted ['*'] = true
  chars : ∀ {f : Field} {t : Text}, valid f t = true → t ≠ [] ∧ t.all isFieldChar = true
  /-- the days of the week are numbers or have their English names -/
  weekday_head : ∀ {t : Text}, valid .weekday t = true →
    ∀ d ∈ t.head?, "0123456789*smtwfSMTWF".toList.contains d = true
  minute_named : ∀ {t : Text}, valid .minute t = true → ∃ v < 60, names .minute t v = true
  hour_named : ∀ {t : Text}, valid .hour t = true → ∃ v < 24, names .hour t v = true

namespace Crond

variable (c : Crond)

/-- Either day field will do where both restrict the days. -/
def onDay (day weekday : Text) (t : Moment) : Bool :=
  if c.unrestricted day || c.unrestricted weekday then
    c.names .day day t.day && c.names .weekday weekday t.weekday
  else c.names .day day t.day || c.names .weekday weekday t.weekday

/-- The entry is run in this minute. -/
def fires (e : Entry) (t : Moment) : Bool :=
  c.names .minute e.minute t.minute && c.names .hour e.hour t.hour &&
    (c.names .month e.month t.month && c.onDay e.day e.weekday t)

structure Valid (e : Entry) : Prop where
  minute : c.valid .minute e.minute = true
  hour : c.valid .hour e.hour = true
  day : c.valid .day e.day = true
  month : c.valid .month e.month = true
  weekday : c.valid .weekday e.weekday = true
  command : e.command ≠ []

/-! ## One day field -/

/-- The entry for every month, with the day of the month, or the weekday where that is `*`. -/
def oneDay (e : Entry) : Entry :=
  { e with month := ['*'], weekday := if e.day = ['*'] then e.weekday else ['*'] }

/-- The months and the weekday, where there is a day of the month, make no difference. -/
def Redundant (e : Entry) : Prop :=
  ∀ t : Moment, (c.names .month e.month t.month && c.onDay e.day e.weekday t) =
    if e.day = ['*'] then c.names .weekday e.weekday t.weekday else c.names .day e.day t.day

theorem onDay_star_left (weekday : Text) (t : Moment) :
    c.onDay ['*'] weekday t = c.names .weekday weekday t.weekday := by
  rw [onDay, c.unrestricted_star, Bool.true_or, if_pos rfl, c.names_star, Bool.true_and]

theorem onDay_star_right (day : Text) (t : Moment) :
    c.onDay day ['*'] t = c.names .day day t.day := by
  rw [onDay, c.unrestricted_star, Bool.or_true, if_pos rfl, c.names_star, Bool.and_true]

theorem fires_oneDay (e : Entry) (t : Moment) :
    c.fires (oneDay e) t =
      (c.names .minute e.minute t.minute && c.names .hour e.hour t.hour &&
        if e.day = ['*'] then c.names .weekday e.weekday t.weekday
        else c.names .day e.day t.day) := by
  rw [fires, oneDay]
  simp only [c.names_star, Bool.true_and]
  split
  · rename_i hday
    rw [hday, onDay_star_left]
  · rw [onDay_star_right]

/-- **One day field** is enough exactly when the others make no difference. -/
theorem fires_oneDay_iff {e : Entry} (he : c.Valid e) :
    (∀ t, c.fires (oneDay e) t = c.fires e t) ↔ c.Redundant e := by
  constructor
  · intro h t
    obtain ⟨minute, hminute, hm⟩ := c.minute_named he.minute
    obtain ⟨hour, hhour, hh⟩ := c.hour_named he.hour
    have hfires := h { t with
      minute := minute, hour := hour, minute_lt := hminute, hour_lt := hhour }
    rw [fires_oneDay, fires, hm, hh, Bool.true_and, Bool.true_and] at hfires
    exact hfires.symm
  · intro h t
    rw [fires_oneDay, fires, ← h t]

/-- Entries for every month with one day field. -/
theorem redundant_of_star {e : Entry} (hmonth : e.month = ['*'])
    (hday : e.day = ['*'] ∨ e.weekday = ['*']) : c.Redundant e := by
  intro t
  rw [hmonth, c.names_star, Bool.true_and]
  split
  · rename_i hstar
    rw [hstar, onDay_star_left]
  · rename_i hstar
    rw [hday.resolve_left hstar, onDay_star_right]

theorem valid_oneDay {e : Entry} (he : c.Valid e) : c.Valid (oneDay e) where
  minute := he.minute
  hour := he.hour
  day := he.day
  month := c.valid_star .month
  weekday := by
    rw [oneDay]
    split
    · exact he.weekday
    · exact c.valid_star .weekday
  command := he.command

end Crond

end AltF.Cron
