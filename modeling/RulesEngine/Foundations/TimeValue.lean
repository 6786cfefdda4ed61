import Mathlib.Data.Int.Notation
import Mathlib.Data.List.Basic

/-!
# Time values of JavaScript dates

A `Date` holds a time value: milliseconds since 1970-01-01T00:00:00Z within
8.64e15 of it, or `NaN` for an invalid date, here `none`.  The calendar is the
proleptic Gregorian one, in UTC, computed as ECMAScript's `Day`, `YearFromTime`,
`MonthFromTime` and `DateFromTime` prescribe.
-/

namespace RulesEngine.Foundations

/-- A date: its time value, `none` for an invalid date. -/
abbrev JsDate := Option Int

namespace JsDate

def msPerDay : Int := 86400000
def msPerHour : Int := 3600000

/-- Time values further than 10^8 days from the epoch are `NaN`. -/
def timeClip (t : Int) : JsDate :=
  if -8640000000000000 ≤ t ∧ t ≤ 8640000000000000 then some t else none

/-- A date with a time value in range, as `new Date` makes them. -/
def Valid (date : JsDate) : Prop := ∃ t, date = some t ∧ timeClip t = some t

theorem timeClip_of_range {t : Int} (hlow : -8640000000000000 ≤ t) (hhigh : t ≤ 8640000000000000) :
    timeClip t = some t := if_pos ⟨hlow, hhigh⟩

theorem eq_of_timeClip {t u : Int} (h : timeClip t = some u) : t = u := by
  unfold timeClip at h
  split at h
  · exact Option.some.inj h
  · cases h

theorem range_of_timeClip {t : Int} (h : timeClip t = some t) :
    -8640000000000000 ≤ t ∧ t ≤ 8640000000000000 := by
  unfold timeClip at h
  split at h
  · assumption
  · cases h

/-! ### The calendar -/

def day (t : Int) : Int := t / msPerDay
def timeWithinDay (t : Int) : Int := t % msPerDay

/-- The day number of the first of January of a year. -/
def dayFromYear (y : Int) : Int :=
  365 * (y - 1970) + (y - 1969) / 4 - (y - 1901) / 100 + (y - 1601) / 400

/-- The year a day belongs to: the mean year length puts the estimate at most
    one year off. -/
def yearFromDay (d : Int) : Int :=
  let y := 1970 + 400 * d / 146097
  if d < dayFromYear y then y - 1
  else if dayFromYear (y + 1) ≤ d then y + 1
  else y

/-- One in a leap year, zero otherwise. -/
def leapDay (y : Int) : Int := dayFromYear (y + 1) - dayFromYear y - 365

/-- The day of the year, from zero, on which month `m` (from zero) starts. -/
def monthStart (leap : Int) : Nat → Int
  | 0 => 0
  | 1 => 31
  | 2 => 59 + leap
  | 3 => 90 + leap
  | 4 => 120 + leap
  | 5 => 151 + leap
  | 6 => 181 + leap
  | 7 => 212 + leap
  | 8 => 243 + leap
  | 9 => 273 + leap
  | 10 => 304 + leap
  | _ => 334 + leap

/-- The month, from zero, of a day of the year: the last month that has
    started. -/
def monthFromDayInYear (leap dayInYear : Int) : Nat :=
  ((List.range 12).filter fun m => monthStart leap m ≤ dayInYear).length - 1

def fullYear (t : Int) : Int := yearFromDay (day t)
def dayInYear (t : Int) : Int := day t - dayFromYear (fullYear t)
def month (t : Int) : Nat := monthFromDayInYear (leapDay (fullYear t)) (dayInYear t)
def dayOfMonth (t : Int) : Int :=
  dayInYear t - monthStart (leapDay (fullYear t)) (month t) + 1
def hours (t : Int) : Int := timeWithinDay t / msPerHour

theorem hours_nonneg (t : Int) : 0 ≤ hours t := by
  simp only [hours, timeWithinDay, msPerDay, msPerHour]
  omega

example : (fullYear 1709209800000, month 1709209800000, dayOfMonth 1709209800000,
    hours 1709209800000) = (2024, 1, 29, 12) := by decide

/-! ### The `Date` API -/

/-- `new Date(Date.UTC(year, 0, 1))`; two-digit years mean the twentieth
    century. -/
def utcStartOfYear (year : Int) : JsDate :=
  let fullYear := if 0 ≤ year ∧ year ≤ 99 then 1900 + year else year
  timeClip (dayFromYear fullYear * msPerDay)

/-- `date.setUTCHours(hour, 0, 0, 0)`; a `NaN` hour makes the date invalid. -/
def setUTCHours (date : JsDate) (hour : Option Int) : JsDate :=
  match date, hour with
  | some t, some h => timeClip (day t * msPerDay + h * msPerHour)
  | _, _ => none

/-- `date.setUTCDate(dayOfMonth)`; a `NaN` day makes the date invalid. -/
def setUTCDate (date : JsDate) (dayNumber : Option Int) : JsDate :=
  match date, dayNumber with
  | some t, some d => timeClip ((day t - dayOfMonth t + d) * msPerDay + timeWithinDay t)
  | _, _ => none

/-- Moving back to an hour of the same day stays in range: the earliest time
    value is the start of a day. -/
theorem setUTCHours_of_le {t h : Int} (ht : timeClip t = some t) (hnonneg : 0 ≤ h)
    (hle : h ≤ hours t) :
    setUTCHours (some t) (some h) = some (day t * msPerDay + h * msPerHour) := by
  obtain ⟨hlow, hhigh⟩ := range_of_timeClip ht
  simp only [hours, timeWithinDay, day, msPerDay, msPerHour, setUTCHours] at hle ⊢
  apply timeClip_of_range <;> omega

/-! ### Text -/

/-- `String(n).padStart(width, '0')` for a non-negative number. -/
def padded (width : Nat) (n : Int) : String :=
  String.ofList ((toString n).toList.leftpad width '0')

/-- The year field of an ISO date: four digits, or a sign and six digits. -/
def isoYear (y : Int) : String :=
  if 0 ≤ y ∧ y ≤ 9999 then padded 4 y
  else if 0 ≤ y then "+" ++ padded 6 y
  else "-" ++ padded 6 (-y)

/-- `date.toISOString()`, which throws on an invalid date. -/
def toISOString : JsDate → Option String
  | none => none
  | some t =>
      let inDay := timeWithinDay t
      some (isoYear (fullYear t) ++ "-" ++ padded 2 (month t + 1) ++ "-" ++
        padded 2 (dayOfMonth t) ++ "T" ++ padded 2 (inDay / msPerHour) ++ ":" ++
        padded 2 (inDay / 60000 % 60) ++ ":" ++ padded 2 (inDay / 1000 % 60) ++ "." ++
        padded 3 (inDay % 1000) ++ "Z")

example : toISOString (some 1709209800000) = some "2024-02-29T12:30:00.000Z" := by decide

end JsDate

end RulesEngine.Foundations
