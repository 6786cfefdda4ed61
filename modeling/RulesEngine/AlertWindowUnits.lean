import RulesEngine.AlertWindows

/-!
# One window in two units

`24k` hours are `k` days and `7k` days are `k` weeks, but the window key knows
the unit only.  A week is seven marks of the day ruler, so days and weeks group
alike.  The hour branch floors the hour of the day, so a window of `24k` hours
is the single day: it groups like `k` days only instants whose days are equal or
in different `k`-day buckets (`units_agree_iff`).
-/

namespace RulesEngine.Alerts

open RulesEngine.Foundations
open RulesEngine.Foundations.JsDate

/-- The rule of the event asks for a window of `n` units. -/
def AlertEventMessage.Asks (event : AlertEventMessage) (n : Nat) (unit : WindowUnit) : Prop :=
  ∃ text, event.HasWindow text ∧ IsWindow text n unit

/-- Two transaction instants get the same window key. -/
def AlertEventMessage.SameKey (event : AlertEventMessage) (t u : Int) : Prop :=
  ∃ key, calculateWindowKey (event.at t) = .ok key ∧ calculateWindowKey (event.at u) = .ok key

/-- The first number whose decimal text reads as `Infinity`. -/
def numberLimit : Nat := 2 ^ 1024 - 2 ^ 970

theorem ofNat_of_lt {n : Nat} (hn : n < numberLimit) : WindowCount.ofNat n = .finite n :=
  if_pos hn

theorem ofNat_of_le {n : Nat} (hn : numberLimit ≤ n) : WindowCount.ofNat n = .infinity :=
  if_neg (Nat.not_lt.mpr hn)

/-! ### Windows of a finite count -/

section Finite

variable {event : AlertEventMessage} {n : Nat} {unit : WindowUnit} {t u : Int}

theorem sameKey_iff_bucket (hasks : event.Asks n unit) (hpos : 1 ≤ n) (hlimit : n < numberLimit)
    (ht : Era t) (hu : Era u) :
    event.SameKey t u ↔ unit.ruler.bucket n t = unit.ruler.bucket n u := by
  obtain ⟨text, hwindow, htext⟩ := hasks
  have hmatch : matchTimeWindow text = some (.finite n, unit) := by
    rw [matchTimeWindow_of_isWindow htext, ofNat_of_lt hlimit]
  exact exists_key_iff_bucket hwindow hmatch hpos ht hu

/-- A window of at least a day's hours is the day. -/
theorem sameKey_hours_iff (hasks : event.Asks n .hour) (hday : 24 ≤ n) (hlimit : n < numberLimit)
    (ht : Era t) (hu : Era u) : event.SameKey t u ↔ day t = day u := by
  have hpos : 1 ≤ n := by omega
  have hnumber : ∀ t, hours t / (n : Int) = 0 := by
    intro t
    have hlt := hours_lt t
    exact Int.ediv_eq_zero_of_lt (hours_nonneg t) (by omega)
  have hbucket : event.SameKey t u ↔ day t = day u ∧ hours t / (n : Int) = hours u / (n : Int) :=
    (sameKey_iff_bucket hasks hpos hlimit ht hu).trans (hourOfDay.bucket_eq_iff_number hpos)
  rw [hbucket, hnumber, hnumber]
  exact and_iff_left rfl

theorem sameKey_days_iff (hasks : event.Asks n .day) (hpos : 1 ≤ n) (hlimit : n < numberLimit)
    (ht : Era t) (hu : Era u) :
    event.SameKey t u ↔
      fullYear t = fullYear u ∧ dayInYear t / n = dayInYear u / n :=
  (sameKey_iff_bucket hasks hpos hlimit ht hu).trans (dayOfYear.bucket_eq_iff_number hpos)

theorem sameKey_weeks_iff (hasks : event.Asks n .week) (hpos : 1 ≤ n) (hlimit : n < numberLimit)
    (ht : Era t) (hu : Era u) :
    event.SameKey t u ↔
      fullYear t = fullYear u ∧ dayInYear t / 7 / n = dayInYear u / 7 / n :=
  (sameKey_iff_bucket hasks hpos hlimit ht hu).trans (weekOfYear.bucket_eq_iff_number hpos)

end Finite

/-! ### Windows of an infinite count -/

/-- Infinitely many units have no start in any year. -/
theorem yearBucket_infinity (date : JsDate) (unitDays : Int) :
    yearBucket date unitDays .infinity = none := by
  unfold yearBucket setUTCDate floorToMultiple
  cases date.map fullYear with
  | none => rfl
  | some year => cases hstart : utcStartOfYear year <;> simp [hstart]

section Infinite

variable {event : AlertEventMessage} {n : Nat} (hlimit : numberLimit ≤ n)

include hlimit

/-- No hour window of infinitely many hours has a key. -/
theorem not_sameKey_hours (hasks : event.Asks n .hour) {t u : Int} (ht : Era t) :
    ¬ event.SameKey t u := by
  rintro ⟨key, hkey, -⟩
  obtain ⟨text, hwindow, htext⟩ := hasks
  have hmatch := matchTimeWindow_of_isWindow htext
  rw [ofNat_of_le hlimit] at hmatch
  have hvalid : JsDate.Valid (event.at t).transactionDatetime := ⟨t, rfl, timeClip_era ht⟩
  obtain ⟨text', htruthy, hpositive⟩ := (calculateWindowKey_ok_iff hvalid).mp ⟨key, hkey⟩
  have hprop : Json.prop? (event.at t).ruleConfig "timeWindow" = some (.str text) := hwindow
  rw [hprop, orElse_of_match hmatch] at htruthy
  obtain rfl := Json.str.inj htruthy
  exact hpositive _ hmatch

/-- The key of infinitely many days or weeks is the same text for every
    instant. -/
theorem sameKey_infinity {unit : WindowUnit} (hunit : unit = .day ∨ unit = .week)
    (hasks : event.Asks n unit) (t u : Int) : event.SameKey t u := by
  obtain ⟨text, hwindow, htext⟩ := hasks
  have hmatch := matchTimeWindow_of_isWindow htext
  rw [ofNat_of_le hlimit] at hmatch
  have hprop : ∀ t, Json.orElse (Json.prop? (event.at t).ruleConfig "timeWindow") (.str "24h") =
      .str text := fun t => (congrArg (Json.orElse · _) hwindow).trans (orElse_of_match hmatch)
  unfold AlertEventMessage.SameKey calculateWindowKey
  rcases hunit with rfl | rfl
  · exact ⟨formatDayKey none, by simp only [hprop, hmatch, yearBucket_infinity],
      by simp only [hprop, hmatch, yearBucket_infinity]⟩
  · exact ⟨formatWeekKey none, by simp only [hprop, hmatch, yearBucket_infinity],
      by simp only [hprop, hmatch, yearBucket_infinity]⟩

end Infinite

/-! ### One window in two units -/

/-- The window keys do not depend on the unit a window of `k` days and one of
    `k` weeks is written in. -/
def UnitsAgree (hours days sevens weeks : AlertEventMessage) (t u : Int) : Prop :=
  (hours.SameKey t u ↔ days.SameKey t u) ∧ (sevens.SameKey t u ↔ weeks.SameKey t u)

/-- Different days of the same `k` days of a year. -/
def DaysApart (k : Nat) (t u : Int) : Prop :=
  day t ≠ day u ∧ fullYear t = fullYear u ∧ dayInYear t / k = dayInYear u / k

theorem dayInYear_of_day {t u : Int} (h : day t = day u) :
    fullYear t = fullYear u ∧ dayInYear t = dayInYear u := by
  unfold dayInYear fullYear
  rw [h]
  exact ⟨rfl, rfl⟩

/-- A day of a year is one of its first 366, so a longer window is the year. -/
theorem dayInYear_div_eq_zero {k : Nat} (hk : 366 ≤ k) (t : Int) : dayInYear t / k = 0 := by
  have hbounds := dayInYear_bounds t
  have hleap := leapDay_eq (fullYear t)
  exact Int.ediv_eq_zero_of_lt hbounds.1 (by omega)

theorem numberLimit_large : 366 * 24 ≤ numberLimit := by
  decide +kernel

section Units

variable {k : Nat} (hk : 1 ≤ k) {hours days sevens weeks : AlertEventMessage}
  (hhours : hours.Asks (24 * k) .hour) (hdays : days.Asks k .day)
  (hsevens : sevens.Asks (7 * k) .day) (hweeks : weeks.Asks k .week)
  {t u : Int} (ht : Era t) (hu : Era u)

include hk ht hu

omit hk ht hu in
/-- The days of a week share the week, whatever the count. -/
theorem dayInYear_week (t : Int) : dayInYear t / ((7 * k : Nat) : Int) = dayInYear t / 7 / k := by
  rw [Int.ediv_ediv_of_nonneg (by decide)]
  rfl

include hsevens hweeks in
theorem sevens_agree (hlimit : 7 * k < numberLimit) :
    sevens.SameKey t u ↔ weeks.SameKey t u := by
  rw [sameKey_days_iff hsevens (by omega) hlimit ht hu,
    sameKey_weeks_iff hweeks hk (by omega) ht hu, dayInYear_week, dayInYear_week]

include hhours hdays in
theorem hours_agree_iff (hlimit : 24 * k < numberLimit) :
    (hours.SameKey t u ↔ days.SameKey t u) ↔ ¬ DaysApart k t u := by
  rw [sameKey_hours_iff hhours (by omega) hlimit ht hu,
    sameKey_days_iff hdays hk (by omega) ht hu]
  unfold DaysApart
  constructor
  · rintro hsame ⟨hday, hbucket⟩
    exact hday (hsame.mpr hbucket)
  · intro hapart
    constructor
    · intro hday
      obtain ⟨hyear, hposition⟩ := dayInYear_of_day hday
      exact ⟨hyear, congrArg (· / (k : Int)) hposition⟩
    · intro hbucket
      by_contra hday
      exact hapart ⟨hday, hbucket⟩

include hhours hdays hsevens hweeks in
/-- With hours past the numbers, only the different keys of different years
    agree, and only as long as the days are numbers. -/
theorem units_agree_past_limit (hlimit : numberLimit ≤ 24 * k) :
    UnitsAgree hours days sevens weeks t u ↔
      7 * k < numberLimit ∧ fullYear t ≠ fullYear u := by
  have hlong : 366 ≤ k := by
    have hlarge := numberLimit_large
    omega
  have hnot := not_sameKey_hours hlimit hhours ht (u := u)
  unfold UnitsAgree
  by_cases hdaysLimit : k < numberLimit
  · have hyear : days.SameKey t u ↔ fullYear t = fullYear u := by
      rw [sameKey_days_iff hdays hk hdaysLimit ht hu, dayInYear_div_eq_zero hlong,
        dayInYear_div_eq_zero hlong]
      exact and_iff_left rfl
    rw [hyear, iff_false_left hnot]
    by_cases hsevensLimit : 7 * k < numberLimit
    · have hagree := sevens_agree hk hsevens hweeks ht hu hsevensLimit
      exact ⟨fun h => ⟨hsevensLimit, h.1⟩, fun h => ⟨h.2, hagree⟩⟩
    · have hall := sameKey_infinity (Nat.not_lt.mp hsevensLimit) (.inl rfl) hsevens t u
      constructor
      · rintro ⟨hdifferent, hagree⟩
        have hweek := (sameKey_weeks_iff hweeks hk hdaysLimit ht hu).mp (hagree.mp hall)
        exact absurd hweek.1 hdifferent
      · rintro ⟨hlt, -⟩
        exact absurd hlt hsevensLimit
  · have hall := sameKey_infinity (Nat.not_lt.mp hdaysLimit) (.inl rfl) hdays t u
    constructor
    · rintro ⟨hagree, -⟩
      exact absurd (hagree.mpr hall) hnot
    · rintro ⟨hlt, -⟩
      omega

include hhours hdays hsevens hweeks in
theorem units_agree_cases : UnitsAgree hours days sevens weeks t u ↔
    if 24 * k < numberLimit then ¬ DaysApart k t u
    else 7 * k < numberLimit ∧ fullYear t ≠ fullYear u := by
  split
  · rename_i hlimit
    have hagree := sevens_agree hk hsevens hweeks ht hu (by omega)
    unfold UnitsAgree
    rw [hours_agree_iff hk hhours hdays ht hu hlimit]
    exact and_iff_left hagree
  · rename_i hlimit
    exact units_agree_past_limit hk hhours hdays hsevens hweeks ht hu (Nat.not_lt.mp hlimit)

end Units

/-- The first of January 1970 and the day after, both at midnight. -/
theorem daysApart_first_days {k : Nat} (hk : 2 ≤ k) : DaysApart k 0 msPerDay := by
  refine ⟨by decide, by decide, ?_⟩
  have hfirst : dayInYear 0 = 0 := by decide
  have hsecond : dayInYear msPerDay = 1 := by decide
  rw [hfirst, hsecond, Int.zero_ediv, Int.ediv_eq_zero_of_lt (by decide) (by omega)]

/-- **One window in two units.**  Windows of `24k` hours and of `k` days group
    two instants alike unless these are on different days of the same `k` days of
    a year, and `7k` days always group like `k` weeks; when the hours are past the
    numbers, only instants of different years are grouped alike, and only as long
    as the days are numbers.  So the unit never matters just for `k = 1`. -/
theorem units_agree_iff {k : Nat} (hk : 1 ≤ k) {hours days sevens weeks : AlertEventMessage}
    (hhours : hours.Asks (24 * k) .hour) (hdays : days.Asks k .day)
    (hsevens : sevens.Asks (7 * k) .day) (hweeks : weeks.Asks k .week) :
    (∀ t u, Era t → Era u → (UnitsAgree hours days sevens weeks t u ↔
      if 24 * k < numberLimit then ¬ DaysApart k t u
      else 7 * k < numberLimit ∧ fullYear t ≠ fullYear u)) ∧
    ((∀ t u, Era t → Era u → UnitsAgree hours days sevens weeks t u) ↔ k = 1) := by
  have hcases : ∀ t u, Era t → Era u → _ := fun t u ht hu =>
    units_agree_cases hk hhours hdays hsevens hweeks ht hu
  refine ⟨hcases, ?_⟩
  have hepoch : Era 0 := ⟨by decide, by decide⟩
  have hnext : Era msPerDay := ⟨by decide, by decide⟩
  constructor
  · intro hall
    by_contra hne
    by_cases hlimit : 24 * k < numberLimit
    · have hapart := hall 0 msPerDay hepoch hnext
      rw [hcases 0 msPerDay hepoch hnext, if_pos hlimit] at hapart
      exact hapart (daysApart_first_days (by omega))
    · have hyears := hall 0 0 hepoch hepoch
      rw [hcases 0 0 hepoch hepoch, if_neg hlimit] at hyears
      exact hyears.2 rfl
  · rintro rfl t u ht hu
    have hlarge := numberLimit_large
    rw [hcases t u ht hu, if_pos (by omega)]
    rintro ⟨hday, hyear, hposition⟩
    rw [Int.natCast_one, Int.ediv_one, Int.ediv_one] at hposition
    apply hday
    rw [day_eq t, day_eq u, hyear, hposition]

/-- An event whose rule has a time window. -/
def windowEvent (text : String) : AlertEventMessage :=
  { sampleEvent "org" "rule" with ruleConfig := some (.obj [("timeWindow", .str text)]) }

theorem windowEvent_asks (n : Nat) {c : Char} {unit : WindowUnit}
    (hunit : WindowUnit.ofChar c = some unit) :
    (windowEvent (toString n ++ String.singleton c)).Asks n unit :=
  ⟨_, rfl, isWindow_decimal n hunit⟩

/-- A window of 48 hours tells the first two days of 1970 apart, one of two days
    does not. -/
theorem two_days_split_in_hours :
    ¬ UnitsAgree (windowEvent "48h") (windowEvent "2d") (windowEvent "14d") (windowEvent "2w")
      0 msPerDay := by
  have hfirst : calculateWindowKey ((windowEvent "48h").at 0) =
      .ok "1970-01-01T00:00:00.000Z" := by decide +kernel
  have hsecond : calculateWindowKey ((windowEvent "48h").at msPerDay) =
      .ok "1970-01-02T00:00:00.000Z" := by decide +kernel
  have hboth : calculateWindowKey ((windowEvent "2d").at 0) = .ok "1970-01-01" ∧
      calculateWindowKey ((windowEvent "2d").at msPerDay) = .ok "1970-01-01" := by decide +kernel
  rintro ⟨hhours, -⟩
  obtain ⟨key, hkey, hkey'⟩ := hhours.mpr ⟨_, hboth⟩
  have heq := (hkey.symm.trans hfirst).symm.trans (hkey'.symm.trans hsecond)
  exact absurd heq (by decide)

theorem units_agree_iff_sample :
    (∀ t u, Era t → Era u →
      (UnitsAgree (windowEvent (toString (24 * 2) ++ String.singleton 'h'))
          (windowEvent (toString 2 ++ String.singleton 'd'))
          (windowEvent (toString (7 * 2) ++ String.singleton 'd'))
          (windowEvent (toString 2 ++ String.singleton 'w')) t u ↔
        if 24 * 2 < numberLimit then ¬ DaysApart 2 t u
        else 7 * 2 < numberLimit ∧ fullYear t ≠ fullYear u)) ∧
    ((∀ t u, Era t → Era u →
      UnitsAgree (windowEvent (toString (24 * 2) ++ String.singleton 'h'))
        (windowEvent (toString 2 ++ String.singleton 'd'))
        (windowEvent (toString (7 * 2) ++ String.singleton 'd'))
        (windowEvent (toString 2 ++ String.singleton 'w')) t u) ↔ 2 = 1) :=
  units_agree_iff (by decide) (windowEvent_asks (24 * 2) rfl) (windowEvent_asks 2 rfl)
    (windowEvent_asks (7 * 2) rfl) (windowEvent_asks 2 rfl)

end RulesEngine.Alerts
