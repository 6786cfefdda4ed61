import RulesEngine.Foundations.Ruler
import RulesEngine.Foundations.TimeValue
import Mathlib.Algebra.Order.Group.Int
import Mathlib.Order.SuccPred.IntervalSucc

/-!
# The calendar of time values

What the fields of a date say about its day: the year and the month of a day
are the ones it lies in, a day is determined by its year, month and day of the
month, and later days have later fields.  Hours of a day and days, weeks and
months of a year are rulers.
-/

namespace RulesEngine.Foundations.JsDate

/-! ### Years -/

theorem dayFromYear_succ (y : Int) : dayFromYear (y + 1) = dayFromYear y + 365 + leapDay y := by
  unfold leapDay
  omega

theorem leapDay_eq (y : Int) : leapDay y = 0 ∨ leapDay y = 1 := by
  unfold leapDay dayFromYear
  omega

theorem dayFromYear_le {y z : Int} (h : y ≤ z) : dayFromYear y ≤ dayFromYear z := by
  unfold dayFromYear
  omega

/-- The year of a day is the one it lies in. -/
theorem yearFromDay_bounds (d : Int) :
    dayFromYear (yearFromDay d) ≤ d ∧ d < dayFromYear (yearFromDay d + 1) := by
  have hlow : dayFromYear (1970 + 400 * d / 146097 - 1) ≤ d := by
    unfold dayFromYear
    omega
  have hhigh : d < dayFromYear (1970 + 400 * d / 146097 + 1 + 1) := by
    unfold dayFromYear
    omega
  simp only [yearFromDay]
  split
  · rename_i hbefore
    exact ⟨hlow, by simpa using hbefore⟩
  · rename_i hnot
    split
    · rename_i hafter
      exact ⟨hafter, hhigh⟩
    · rename_i hnot'
      exact ⟨Int.not_lt.mp hnot, Int.not_le.mp hnot'⟩

theorem yearFromDay_eq {d y : Int} (hlow : dayFromYear y ≤ d) (hhigh : d < dayFromYear (y + 1)) :
    yearFromDay d = y := by
  obtain ⟨hlow', hhigh'⟩ := yearFromDay_bounds d
  rcases Int.lt_trichotomy (yearFromDay d) y with hlt | heq | hgt
  · have hle : dayFromYear (yearFromDay d + 1) ≤ dayFromYear y := dayFromYear_le hlt
    omega
  · exact heq
  · have hle : dayFromYear (y + 1) ≤ dayFromYear (yearFromDay d) := dayFromYear_le hgt
    omega

theorem dayInYear_bounds (t : Int) :
    0 ≤ dayInYear t ∧ dayInYear t < 365 + leapDay (fullYear t) := by
  obtain ⟨hlow, hhigh⟩ := yearFromDay_bounds (day t)
  rw [dayFromYear_succ] at hhigh
  unfold dayInYear fullYear
  omega

theorem day_eq (t : Int) : day t = dayFromYear (fullYear t) + dayInYear t := by
  unfold dayInYear
  omega

/-- A day given by its year and its position in it. -/
theorem fullYear_eq {t y n : Int} (hday : day t = dayFromYear y + n) (hlow : 0 ≤ n)
    (hhigh : n < 365 + leapDay y) : fullYear t = y := by
  apply yearFromDay_eq
  · omega
  · rw [dayFromYear_succ]
    omega

theorem dayInYear_eq {t y n : Int} (hday : day t = dayFromYear y + n) (hlow : 0 ≤ n)
    (hhigh : n < 365 + leapDay y) : dayInYear t = n := by
  unfold dayInYear
  rw [fullYear_eq hday hlow hhigh]
  omega

theorem day_le {t u : Int} (h : t ≤ u) : day t ≤ day u := by
  simp only [day, msPerDay]
  omega

theorem fullYear_le {t u : Int} (h : t ≤ u) : fullYear t ≤ fullYear u := by
  obtain ⟨hlow, -⟩ := yearFromDay_bounds (day t)
  obtain ⟨-, hhigh⟩ := yearFromDay_bounds (day u)
  have hday := day_le h
  by_contra hlt
  have hle : dayFromYear (fullYear u + 1) ≤ dayFromYear (fullYear t) := by
    apply dayFromYear_le
    omega
  simp only [fullYear] at hle
  omega

/-! ### Days -/

/-- The start of a day. -/
def startOfDay (d : Int) : Int := d * msPerDay

@[simp] theorem day_startOfDay (d : Int) : day (startOfDay d) = d := by
  simp only [day, startOfDay, msPerDay]
  omega

@[simp] theorem timeWithinDay_startOfDay (d : Int) : timeWithinDay (startOfDay d) = 0 := by
  simp only [timeWithinDay, startOfDay, msPerDay]
  omega

theorem startOfDay_le (t : Int) : startOfDay (day t) ≤ t := by
  simp only [startOfDay, day, msPerDay]
  omega

theorem lt_startOfDay_succ (t : Int) : t < startOfDay (day t + 1) := by
  simp only [startOfDay, day, msPerDay]
  omega

theorem startOfDay_mono {d e : Int} (h : d ≤ e) : startOfDay d ≤ startOfDay e := by
  simp only [startOfDay, msPerDay]
  omega

theorem hours_lt (t : Int) : hours t < 24 := by
  simp only [hours, timeWithinDay, msPerDay, msPerHour]
  omega

/-! ### Months -/

/-- The day of the year on which the month after `m` starts. -/
def monthEnd (leap : Int) (m : Nat) : Int :=
  if m = 11 then 365 + leap else monthStart leap (m + 1)

theorem monthFromDayInYear_bounds {leap d : Int} (hleap : leap = 0 ∨ leap = 1) (hlow : 0 ≤ d)
    (hhigh : d < 365 + leap) :
    monthFromDayInYear leap d < 12 ∧ monthStart leap (monthFromDayInYear leap d) ≤ d ∧
      d < monthEnd leap (monthFromDayInYear leap d) := by
  obtain ⟨n, rfl⟩ := Int.eq_ofNat_of_zero_le hlow
  have hcommon : ∀ n : Nat, n < 365 → monthFromDayInYear 0 n < 12 ∧
      monthStart 0 (monthFromDayInYear 0 n) ≤ n ∧
        (n : Int) < monthEnd 0 (monthFromDayInYear 0 n) := by
    decide +kernel
  have hleapYear : ∀ n : Nat, n < 366 → monthFromDayInYear 1 n < 12 ∧
      monthStart 1 (monthFromDayInYear 1 n) ≤ n ∧
        (n : Int) < monthEnd 1 (monthFromDayInYear 1 n) := by
    decide +kernel
  rcases hleap with rfl | rfl
  · exact hcommon n (by omega)
  · exact hleapYear n (by omega)

theorem month_bounds (t : Int) :
    month t < 12 ∧ monthStart (leapDay (fullYear t)) (month t) ≤ dayInYear t ∧
      dayInYear t < monthEnd (leapDay (fullYear t)) (month t) := by
  obtain ⟨hlow, hhigh⟩ := dayInYear_bounds t
  exact monthFromDayInYear_bounds (leapDay_eq _) hlow hhigh

theorem dayOfMonth_pos (t : Int) : 1 ≤ dayOfMonth t := by
  obtain ⟨-, hstart, -⟩ := month_bounds t
  unfold dayOfMonth
  omega

theorem monthStart_le {leap : Int} (hleap : leap = 0 ∨ leap = 1) {m n : Nat} (h : m ≤ n)
    (hn : n < 12) : monthStart leap m ≤ monthStart leap n := by
  have hall : ∀ leap ∈ [(0 : Int), 1], ∀ n : Nat, n < 12 → ∀ m : Nat, m < 12 → m ≤ n →
      monthStart leap m ≤ monthStart leap n := by
    decide +kernel
  apply hall leap _ n hn m (by omega) h
  rcases hleap with rfl | rfl <;> decide

theorem monthEnd_le {leap : Int} (hleap : leap = 0 ∨ leap = 1) {m n : Nat} (h : m < n)
    (hn : n < 12) : monthEnd leap m ≤ monthStart leap n := by
  unfold monthEnd
  rw [if_neg (by omega)]
  exact monthStart_le hleap h hn

/-- A day between the start and the end of a month is in that month. -/
theorem month_eq {t : Int} {m : Nat} (hm : m < 12)
    (hlow : monthStart (leapDay (fullYear t)) m ≤ dayInYear t)
    (hhigh : dayInYear t < monthEnd (leapDay (fullYear t)) m) : month t = m := by
  obtain ⟨hlt, hstart, hend⟩ := month_bounds t
  rcases Nat.lt_trichotomy (month t) m with hless | heq | hgreater
  · have hle := monthEnd_le (leapDay_eq (fullYear t)) hless hm
    omega
  · exact heq
  · have hle := monthEnd_le (leapDay_eq (fullYear t)) hgreater hlt
    omega

/-- Year, month and day of the month determine the day. -/
theorem day_eq_of_date {t u : Int} (hyear : fullYear t = fullYear u) (hmonth : month t = month u)
    (hday : dayOfMonth t = dayOfMonth u) : day t = day u := by
  unfold dayOfMonth at hday
  rw [day_eq t, day_eq u]
  rw [hyear, hmonth] at hday
  rw [hyear]
  omega

/-! ### The years `Date.UTC` takes as they are -/

/-- A time value whose year has three or four digits. -/
def Era (t : Int) : Prop := 100 ≤ fullYear t ∧ fullYear t ≤ 9999

theorem dayFromYear_era {y : Int} (hlow : 100 ≤ y) (hhigh : y ≤ 10000) :
    -683003 ≤ dayFromYear y ∧ dayFromYear y ≤ 2932897 := by
  unfold dayFromYear
  omega

/-- A day of such a year is in range. -/
theorem timeClip_startOfDay {y n : Int} (hlow : 100 ≤ y) (hhigh : y ≤ 9999) (hn : 0 ≤ n)
    (hlength : n ≤ 366) : timeClip (startOfDay (dayFromYear y + n)) =
      some (startOfDay (dayFromYear y + n)) := by
  obtain ⟨hbefore, hafter⟩ := dayFromYear_era hlow (Int.le_trans hhigh (by decide))
  apply timeClip_of_range <;> simp only [startOfDay, msPerDay] <;> omega

theorem utcStartOfYear_era {y : Int} (hlow : 100 ≤ y) (hhigh : y ≤ 9999) :
    utcStartOfYear y = some (startOfDay (dayFromYear y)) := by
  have hstart := timeClip_startOfDay hlow hhigh (Int.le_refl 0) (by decide)
  rw [Int.add_zero] at hstart
  unfold utcStartOfYear
  rw [if_neg (by omega)]
  exact hstart

/-- Moving on from the first of January of such a year by days of that year. -/
theorem setUTCDate_startOfYear {y n : Int} (hlow : 100 ≤ y) (hhigh : y ≤ 9999) (hn : 0 ≤ n)
    (hlength : n ≤ 366) :
    setUTCDate (some (startOfDay (dayFromYear y)))
        (some (dayOfMonth (startOfDay (dayFromYear y)) + n)) =
      some (startOfDay (dayFromYear y + n)) := by
  rw [← timeClip_startOfDay hlow hhigh hn hlength]
  simp only [setUTCDate, day_startOfDay, timeWithinDay_startOfDay]
  congr 1
  simp only [startOfDay, msPerDay]
  omega

/-! ### Starts of months -/

/-- The start of month `m`, from zero, of year `y`; months from twelve on belong
    to later years. -/
def startOfMonth (y m : Int) : Int :=
  startOfDay (dayFromYear (y + m / 12) + monthStart (leapDay (y + m / 12)) (m % 12).toNat)

theorem startOfMonth_of_lt {y : Int} {m : Nat} (hm : m < 12) :
    startOfMonth y m = startOfDay (dayFromYear y + monthStart (leapDay y) m) := by
  have hdiv : (m : Int) / 12 = 0 := by omega
  have hmod : ((m : Int) % 12).toNat = m := by omega
  simp only [startOfMonth, hdiv, hmod, Int.add_zero]

/-- The month after a month starts when it ends. -/
theorem startOfMonth_succ (y m : Int) : startOfMonth y (m + 1) =
    startOfDay (dayFromYear (y + m / 12) +
      monthEnd (leapDay (y + m / 12)) (m % 12).toNat) := by
  unfold startOfMonth monthEnd
  by_cases hlast : m % 12 = 11
  · have hdiv : y + (m + 1) / 12 = y + m / 12 + 1 := by omega
    have hmod : ((m + 1) % 12).toNat = 0 := by omega
    have hlast' : (m % 12).toNat = 11 := by omega
    rw [hdiv, hmod, hlast', if_pos rfl, dayFromYear_succ]
    simp only [monthStart]
    congr 1
    omega
  · have hdiv : (m + 1) / 12 = m / 12 := by omega
    have hmod : ((m + 1) % 12).toNat = (m % 12).toNat + 1 := by omega
    have hnot : (m % 12).toNat ≠ 11 := by omega
    rw [hdiv, hmod, if_neg hnot]

theorem monthStart_nonneg {leap : Int} (hleap : leap = 0 ∨ leap = 1) {m : Nat} (hm : m < 12) :
    0 ≤ monthStart leap m :=
  monthStart_le hleap (Nat.zero_le m) hm

theorem monthStart_lt_monthEnd {leap : Int} (hleap : leap = 0 ∨ leap = 1) {m : Nat} (hm : m < 12) :
    monthStart leap m < monthEnd leap m := by
  have hall : ∀ leap ∈ [(0 : Int), 1], ∀ m : Nat, m < 12 →
      monthStart leap m < monthEnd leap m := by
    decide +kernel
  apply hall leap _ m hm
  rcases hleap with rfl | rfl <;> decide

theorem monthEnd_le_length {leap : Int} (hleap : leap = 0 ∨ leap = 1) {m : Nat} (hm : m < 12) :
    monthEnd leap m ≤ 365 + leap := by
  have hall : ∀ leap ∈ [(0 : Int), 1], ∀ m : Nat, m < 12 → monthEnd leap m ≤ 365 + leap := by
    decide +kernel
  apply hall leap _ m hm
  rcases hleap with rfl | rfl <;> decide

theorem startOfMonth_mono (y : Int) {m n : Int} (h : m ≤ n) :
    startOfMonth y m ≤ startOfMonth y n := by
  refine monotone_int_of_le_succ (f := startOfMonth y) ?_ h
  intro m
  rw [startOfMonth_succ]
  apply startOfDay_mono
  have hlt : (m % 12).toNat < 12 := by omega
  have hle := monthStart_lt_monthEnd (leapDay_eq (y + m / 12)) hlt
  omega

/-- The fields of the start of a month. -/
theorem date_startOfMonth {y : Int} {m : Nat} (hm : m < 12) :
    fullYear (startOfMonth y m) = y ∧ month (startOfMonth y m) = m := by
  have hleap := leapDay_eq y
  have hday : day (startOfMonth y m) = dayFromYear y + monthStart (leapDay y) m := by
    rw [startOfMonth_of_lt hm, day_startOfDay]
  have hlow := monthStart_nonneg hleap hm
  have hhigh := monthStart_lt_monthEnd hleap hm
  have hlength := monthEnd_le_length hleap hm
  have hyear := fullYear_eq hday hlow (by omega)
  have hposition := dayInYear_eq hday hlow (by omega)
  refine ⟨hyear, month_eq hm ?_ ?_⟩
  · rw [hyear, hposition]
  · rw [hyear, hposition]
    exact hhigh

/-- The same day and time of the month `n` months later. -/
def monthsAfter (n : Nat) (t : Int) : Int :=
  startOfMonth (fullYear t) (month t + n) + (t - startOfMonth (fullYear t) (month t))

/-! ### Rulers -/

theorem startOfHour_le (t : Int) : startOfDay (day t) + hours t * msPerHour ≤ t := by
  simp only [hours, timeWithinDay, day, startOfDay, msPerDay, msPerHour]
  omega

theorem lt_nextHour (t : Int) : t < startOfDay (day t) + (hours t + 1) * msPerHour := by
  simp only [hours, timeWithinDay, day, startOfDay, msPerDay, msPerHour]
  omega

theorem hour_mono (d : Int) {p q : Int} (h : p ≤ q) :
    startOfDay d + p * msPerHour ≤ startOfDay d + q * msPerHour := by
  simp only [msPerHour]
  omega

/-- The day and the hour of the start of an hour. -/
theorem fields_startOfHour (d : Int) {p : Int} (hlow : 0 ≤ p) (hhigh : p < 24) :
    day (startOfDay d + p * msPerHour) = d ∧ hours (startOfDay d + p * msPerHour) = p := by
  simp only [day, hours, timeWithinDay, startOfDay, msPerDay, msPerHour]
  omega

def hourOfDay : Ruler Int Int where
  cell := day
  position := hours
  mark := fun d p => startOfDay d + p * msPerHour
  position_nonneg := hours_nonneg
  mark_le := startOfHour_le
  lt_mark := lt_nextHour
  mark_mono := fun d _ _ => hour_mono d
  cell_mark := fun t _ hlow hhigh =>
    (fields_startOfHour (day t) hlow (Int.lt_of_le_of_lt hhigh (hours_lt t))).1
  position_mark := fun t _ hlow hhigh =>
    (fields_startOfHour (day t) hlow (Int.lt_of_le_of_lt hhigh (hours_lt t))).2
  cell_mono := fun _ _ => day_le

def dayOfYear : Ruler Int Int where
  cell := fullYear
  position := dayInYear
  mark := fun y p => startOfDay (dayFromYear y + p)
  position_nonneg := fun t => (dayInYear_bounds t).1
  mark_le := by
    intro t
    rw [← day_eq]
    exact startOfDay_le t
  lt_mark := by
    intro t
    rw [← Int.add_assoc, ← day_eq]
    exact lt_startOfDay_succ t
  mark_mono := by
    intro y p q h
    exact startOfDay_mono (Int.add_le_add_left h _)
  cell_mark := by
    intro t p hlow hhigh
    exact fullYear_eq (day_startOfDay _) hlow (Int.lt_of_le_of_lt hhigh (dayInYear_bounds t).2)
  position_mark := by
    intro t p hlow hhigh
    exact dayInYear_eq (day_startOfDay _) hlow (Int.lt_of_le_of_lt hhigh (dayInYear_bounds t).2)
  cell_mono := fun _ _ => fullYear_le

def weekOfYear : Ruler Int Int where
  cell := fullYear
  position := fun t => dayInYear t / 7
  mark := fun y p => startOfDay (dayFromYear y + p * 7)
  position_nonneg := by
    intro t
    have hlow := (dayInYear_bounds t).1
    omega
  mark_le := by
    intro t
    refine Int.le_trans (startOfDay_mono ?_) (startOfDay_le t)
    rw [day_eq]
    omega
  lt_mark := by
    intro t
    refine Int.lt_of_lt_of_le (lt_startOfDay_succ t) (startOfDay_mono ?_)
    rw [day_eq]
    omega
  mark_mono := by
    intro y p q h
    exact startOfDay_mono (by omega)
  cell_mark := by
    intro t p hlow hhigh
    have hbounds := dayInYear_bounds t
    exact fullYear_eq (day_startOfDay _) (by omega) (by omega)
  position_mark := by
    intro t p hlow hhigh
    have hbounds := dayInYear_bounds t
    rw [dayInYear_eq (day_startOfDay _) (by omega) (by omega)]
    omega
  cell_mono := fun _ _ => fullYear_le

def monthOfYear : Ruler Int Int where
  cell := fullYear
  position := fun t => month t
  mark := startOfMonth
  position_nonneg := fun t => Int.natCast_nonneg _
  mark_le := by
    intro t
    obtain ⟨hlt, hstart, -⟩ := month_bounds t
    rw [startOfMonth_of_lt hlt]
    refine Int.le_trans (startOfDay_mono ?_) (startOfDay_le t)
    rw [day_eq]
    omega
  lt_mark := by
    intro t
    obtain ⟨hlt, -, hend⟩ := month_bounds t
    have hdiv : (month t : Int) / 12 = 0 := by omega
    have hmod : ((month t : Int) % 12).toNat = month t := by omega
    rw [startOfMonth_succ, hdiv, hmod, Int.add_zero]
    refine Int.lt_of_lt_of_le (lt_startOfDay_succ t) (startOfDay_mono ?_)
    rw [day_eq]
    omega
  mark_mono := fun y _ _ => startOfMonth_mono y
  cell_mark := by
    intro t p hlow hhigh
    obtain ⟨m, rfl⟩ := Int.eq_ofNat_of_zero_le hlow
    have hlt := (month_bounds t).1
    exact (date_startOfMonth (by omega)).1
  position_mark := by
    intro t p hlow hhigh
    obtain ⟨m, rfl⟩ := Int.eq_ofNat_of_zero_le hlow
    have hlt := (month_bounds t).1
    exact congrArg Nat.cast (date_startOfMonth (by omega)).2
  cell_mono := fun _ _ => fullYear_le

end RulesEngine.Foundations.JsDate
