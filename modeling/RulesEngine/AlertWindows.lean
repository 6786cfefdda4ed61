import RulesEngine.AlertsService
import RulesEngine.Foundations.DecimalText

/-!
# Time windows as buckets

A window of `n` hours, days, weeks or months puts an instant into the bucket of
`n` marks on the ruler of its unit: hours restart every day, the other units
every year.  The window key prints the start of the bucket
(`calculateWindowKey_eq`), and different starts print differently
(`keyText_inj`), so the keys are the buckets (`window_keys_are_buckets`).
-/

namespace RulesEngine.Alerts

open RulesEngine.Foundations
open RulesEngine.Foundations.JsDate

/-! ### Windows -/

def WindowUnit.ruler : WindowUnit → Ruler Int Int
  | .hour => hourOfDay
  | .day => dayOfYear
  | .week => weekOfYear
  | .month => monthOfYear

/-- The instant a window after another. -/
def WindowUnit.after (n : Nat) (t : Int) : WindowUnit → Int
  | .hour => t + n * msPerHour
  | .day => t + n * msPerDay
  | .week => t + n * (7 * msPerDay)
  | .month => monthsAfter n t

/-- The text a window key has for a bucket that starts at `s`. -/
def WindowUnit.keyText (s : Int) : WindowUnit → String
  | .hour => (toISOString (some s)).getD ""
  | .day => formatDayKey (some s)
  | .week => formatWeekKey (some s)
  | .month => numberText (some (fullYear s)) ++ "-" ++ padStart2 (some ((JsDate.month s : Int) + 1))

/-- The event with another transaction instant. -/
def AlertEventMessage.at (event : AlertEventMessage) (t : Int) : AlertEventMessage :=
  { event with transactionDatetime := some t }

/-- The event asks for the window of a text. -/
def AlertEventMessage.HasWindow (event : AlertEventMessage) (text : String) : Prop :=
  Json.prop? event.ruleConfig "timeWindow" = some (.str text)

/-- The text is the number `n`, with or without leading zeros, and the letter of
    a unit in either case. -/
def IsWindow (text : String) (n : Nat) (unit : WindowUnit) : Prop :=
  ∃ digits c, text = String.ofList (digits ++ [c]) ∧ digits ≠ [] ∧
    (∀ d ∈ digits, d.isDigit = true) ∧ Nat.ofDigitChars 10 digits 0 = n ∧
    WindowUnit.ofChar c = some unit

/-- A natural number as a JavaScript number. -/
def WindowCount.ofNat (n : Nat) : WindowCount :=
  if n < 2 ^ 1024 - 2 ^ 970 then .finite n else .infinity

theorem WindowCount.ofNat_finite {n : Nat} (hn : n < 2 ^ 53) :
    WindowCount.ofNat n = .finite n := by
  have hlimit : (2 : Nat) ^ 53 < 2 ^ 1024 - 2 ^ 970 := by decide +kernel
  unfold WindowCount.ofNat
  rw [if_pos (Nat.lt_trans hn hlimit)]

theorem parseInt_eq (digits : List Char) :
    parseInt digits = .ofNat (Nat.ofDigitChars 10 digits 0) := rfl

theorem matchTimeWindow_of_isWindow {text : String} {n : Nat} {unit : WindowUnit}
    (h : IsWindow text n unit) : matchTimeWindow text = some (.ofNat n, unit) := by
  obtain ⟨digits, c, rfl, hne, hdigits, rfl, hunit⟩ := h
  have hall : digits.all Char.isDigit = true := List.all_eq_true.mpr hdigits
  unfold matchTimeWindow
  simp only [String.toList_ofList, List.dropLast_concat, List.getLast?_concat, ne_eq, hne,
    not_false_eq_true, hall, and_self, if_true, Option.bind_some, hunit, Option.map_some,
    parseInt_eq]

/-- The decimal text of a number is a window with every unit letter. -/
theorem isWindow_decimal (n : Nat) {c : Char} {unit : WindowUnit}
    (hunit : WindowUnit.ofChar c = some unit) :
    IsWindow (toString n ++ String.singleton c) n unit := by
  refine ⟨Nat.toDigits 10 n, c, ?_, Nat.toDigits_ne_nil, ?_, Nat.ofDigitChars_ten_toDigits, hunit⟩
  · apply String.toList_injective
    simp [Nat.toString_eq_repr, Nat.toList_repr]
  · intro d hd
    exact Nat.isDigit_of_mem_toDigits (by decide) (by decide) hd

theorem orElse_of_match {text : String} {parsed : WindowCount × WindowUnit}
    (h : matchTimeWindow text = some parsed) :
    Json.orElse (some (.str text)) (.str "24h") = .str text := by
  have hne : text ≠ "" := by
    rintro rfl
    cases h
  simp [Json.orElse, Json.truthy, hne]

theorem floorToMultiple_finite {n : Nat} (hn : 0 < n) (x : Int) :
    floorToMultiple x (.finite n) = some (x / n * n) := by
  obtain ⟨m, rfl⟩ := Nat.exists_eq_succ_of_ne_zero (Nat.ne_of_gt hn)
  rfl

/-! ### The start of the bucket -/

theorem timeClip_era {t : Int} (ht : Era t) : timeClip t = some t := by
  obtain ⟨hlow, hhigh⟩ := ht
  obtain ⟨hstart, hend⟩ := yearFromDay_bounds (day t)
  have hfirst : dayFromYear 100 ≤ dayFromYear (yearFromDay (day t)) := dayFromYear_le hlow
  have hlast : dayFromYear (yearFromDay (day t) + 1) ≤ dayFromYear 10000 := by
    apply dayFromYear_le
    unfold fullYear at hhigh
    omega
  have hbefore := (dayFromYear_era (Int.le_refl 100) (by decide)).1
  have hafter := (dayFromYear_era (by decide) (Int.le_refl 10000)).2
  apply timeClip_of_range <;> simp only [day, msPerDay] at * <;> omega

theorem setUTCHours_era {t : Int} (ht : Era t) {n : Nat} (hn : 0 < n) :
    setUTCHours (some t) (floorToMultiple (hours t) (.finite n)) =
      some (hourOfDay.bucket n t) := by
  rw [floorToMultiple_finite hn]
  exact setUTCHours_of_le (timeClip_era ht) (hourOfDay.floor_nonneg n t) (hourOfDay.floor_le hn t)

/-- The bucket of the day and week branches. -/
theorem yearBucket_era {t : Int} (ht : Era t) {unitDays : Int} (hunit : 0 < unitDays) {n : Nat}
    (hn : 0 < n) :
    yearBucket (some t) unitDays (.finite n) =
      some (startOfDay (dayFromYear (fullYear t) + dayInYear t / unitDays / n * n * unitDays)) := by
  obtain ⟨hlow, hhigh⟩ := ht
  obtain ⟨hnonneg, hlength⟩ := dayInYear_bounds t
  have hleap := leapDay_eq (fullYear t)
  have hdays : (t - startOfDay (dayFromYear (fullYear t))) / (unitDays * msPerDay) =
      dayInYear t / unitDays := by
    rw [Int.mul_comm, ← Int.ediv_ediv_of_nonneg (by decide)]
    congr 1
    simp only [dayInYear, day, startOfDay, msPerDay]
    omega
  have hfloor : 0 ≤ dayInYear t / unitDays / n * n :=
    Int.mul_nonneg (Int.ediv_nonneg (Int.ediv_nonneg hnonneg (by omega)) (by omega)) (by omega)
  have hle : dayInYear t / unitDays / n * n * unitDays ≤ dayInYear t := by
    have hmarks : dayInYear t / unitDays / n * n ≤ dayInYear t / unitDays :=
      Int.ediv_mul_le _ (by omega)
    have hunits : dayInYear t / unitDays * unitDays ≤ dayInYear t := Int.ediv_mul_le _ (by omega)
    exact Int.le_trans (Int.mul_le_mul_of_nonneg_right hmarks (by omega)) hunits
  simp only [yearBucket, Option.map_some, Option.bind_some, utcStartOfYear_era hlow hhigh, hdays,
    floorToMultiple_finite hn]
  exact setUTCDate_startOfYear hlow hhigh (Int.mul_nonneg hfloor (by omega)) (by omega)

/-- The window key of an event prints the start of its bucket. -/
theorem calculateWindowKey_eq {event : AlertEventMessage} {text : String}
    (hwindow : event.HasWindow text) {n : Nat} {unit : WindowUnit}
    (hmatch : matchTimeWindow text = some (.finite n, unit)) (hn : 0 < n) {t : Int} (ht : Era t) :
    calculateWindowKey (event.at t) = .ok (unit.keyText (unit.ruler.bucket n t)) := by
  have hprop : Json.prop? (event.at t).ruleConfig "timeWindow" = some (.str text) := hwindow
  unfold calculateWindowKey
  rw [hprop, orElse_of_match hmatch]
  simp only [hmatch, AlertEventMessage.at]
  cases unit with
  | hour =>
      simp only [Option.bind_some, setUTCHours_era ht hn]
      rfl
  | day =>
      have hbucket := yearBucket_era ht (show (0 : Int) < 1 by decide) hn
      simp only [Int.ediv_one, Int.mul_one] at hbucket
      exact congrArg (fun date => Except.ok (formatDayKey date)) hbucket
  | week =>
      exact congrArg (fun date => Except.ok (formatWeekKey date))
        (yearBucket_era ht (by decide) hn)
  | month =>
      have hbucket : fullYear (monthOfYear.bucket n t) = fullYear t := monthOfYear.cell_bucket hn t
      have hmonth : (JsDate.month (monthOfYear.bucket n t) : Int) = JsDate.month t / n * n :=
        monthOfYear.position_bucket hn t
      simp only [Option.bind_some, Option.map_some, floorToMultiple_finite hn, WindowUnit.keyText,
        WindowUnit.ruler, hbucket, hmonth]

/-! ### Different buckets, different keys -/

theorem toList_formatDayKey (t : Int) :
    (formatDayKey (some t)).toList = (toString (fullYear t)).toList ++ '-' ::
      ((padded 2 ((JsDate.month t : Int) + 1)).toList ++ '-' ::
        (padded 2 (dayOfMonth t)).toList) := by
  simp [formatDayKey, numberText, padStart2]

/-- Different days have different day keys. -/
theorem formatDayKey_inj {t u : Int} (ht : 0 ≤ fullYear t) (hu : 0 ≤ fullYear u)
    (h : formatDayKey (some t) = formatDayKey (some u)) : day t = day u := by
  have hlist := (toList_formatDayKey t).symm.trans
    ((congrArg String.toList h).trans (toList_formatDayKey u))
  have hm : 0 ≤ (JsDate.month t : Int) + 1 := by omega
  have hm' : 0 ≤ (JsDate.month u : Int) + 1 := by omega
  have hd : 0 ≤ dayOfMonth t := Int.le_trans (by decide) (dayOfMonth_pos t)
  have hd' : 0 ≤ dayOfMonth u := Int.le_trans (by decide) (dayOfMonth_pos u)
  obtain ⟨hyear, hlist⟩ :=
    split_at_separator (not_mem_toString rfl ht) (not_mem_toString rfl hu) hlist
  obtain ⟨hmonth, hday⟩ :=
    split_at_separator (not_mem_padded rfl hm) (not_mem_padded rfl hm') hlist
  have hmonth' := padded_inj hm hm' hmonth
  exact day_eq_of_date (toString_inj ht hu hyear) (by omega) (padded_inj hd hd' hday)

/-- The week key of a bucket start names its year and, from one, its week. -/
theorem formatWeekKey_bucket {y b : Int} (hlow : 100 ≤ y) (hhigh : y ≤ 9999) (hb : 0 ≤ b)
    (hlength : b * 7 < 365 + leapDay y) :
    formatWeekKey (some (startOfDay (dayFromYear y + b * 7))) =
      toString y ++ "-W" ++ padded 2 (b + 1) := by
  have hyear : fullYear (startOfDay (dayFromYear y + b * 7)) = y :=
    fullYear_eq (day_startOfDay _) (by omega) hlength
  have hweek : -(-(startOfDay (dayFromYear y + b * 7) - startOfDay (dayFromYear y) + msPerDay) /
      (7 * msPerDay)) = b + 1 := by
    simp only [startOfDay, msPerDay]
    omega
  simp only [formatWeekKey, getWeekNumber, numberText, padStart2, Option.map_some,
    Option.bind_some, hyear, utcStartOfYear_era hlow hhigh, hweek]

/-- A year, a separator and a two-digit number. -/
theorem yearAndNumber_inj {y z p q : Int} (hy : 0 ≤ y) (hz : 0 ≤ z) (hp : 0 ≤ p) (hq : 0 ≤ q)
    {rest : List Char} {text text' : String}
    (htext : text.toList = (toString y).toList ++ '-' :: (rest ++ (padded 2 p).toList))
    (htext' : text'.toList = (toString z).toList ++ '-' :: (rest ++ (padded 2 q).toList))
    (h : text = text') : y = z ∧ p = q := by
  rw [h, htext'] at htext
  obtain ⟨hyear, hrest⟩ :=
    split_at_separator (not_mem_toString rfl hz) (not_mem_toString rfl hy) htext
  exact ⟨(toString_inj hz hy hyear).symm,
    (padded_inj hq hp (List.append_cancel_left hrest)).symm⟩

/-- A bucket lies in the year of its instants. -/
theorem fullYear_bucket (unit : WindowUnit) {n : Nat} (hn : 0 < n) (t : Int) :
    fullYear (unit.ruler.bucket n t) = fullYear t := by
  cases unit with
  | hour => exact congrArg yearFromDay (hourOfDay.cell_bucket hn t)
  | day => exact dayOfYear.cell_bucket hn t
  | week => exact weekOfYear.cell_bucket hn t
  | month => exact monthOfYear.cell_bucket hn t

theorem era_bucket (unit : WindowUnit) {n : Nat} (hn : 0 < n) {t : Int} (ht : Era t) :
    Era (unit.ruler.bucket n t) := by
  unfold Era
  rw [fullYear_bucket unit hn]
  exact ht

theorem fullYear_nonneg {t : Int} (ht : Era t) : 0 ≤ fullYear t := Int.le_trans (by decide) ht.1

section Buckets

variable {n : Nat} (hn : 0 < n) {t u : Int} (ht : Era t) (hu : Era u)

include hn ht hu

theorem hourKey_inj (h : WindowUnit.keyText (hourOfDay.bucket n t) .hour =
    WindowUnit.keyText (hourOfDay.bucket n u) .hour) :
    hourOfDay.bucket n t = hourOfDay.bucket n u := by
  have hstartT := era_bucket .hour hn ht
  have hstartU := era_bucket .hour hn hu
  exact toISOString_inj (fullYear_nonneg hstartT) hstartT.2 (fullYear_nonneg hstartU) hstartU.2
    (congrArg some h)

theorem dayKey_inj (h : WindowUnit.keyText (dayOfYear.bucket n t) .day =
    WindowUnit.keyText (dayOfYear.bucket n u) .day) :
    dayOfYear.bucket n t = dayOfYear.bucket n u := by
  have hday := formatDayKey_inj (fullYear_nonneg (era_bucket .day hn ht))
    (fullYear_nonneg (era_bucket .day hn hu)) h
  -- a bucket starts with its first day
  have hstart : ∀ t, dayOfYear.bucket n t = startOfDay (day (dayOfYear.bucket n t)) := by
    intro t
    simp only [Ruler.bucket, dayOfYear, day_startOfDay]
  exact (hstart t).trans ((congrArg startOfDay hday).trans (hstart u).symm)

theorem weekKey_inj (h : WindowUnit.keyText (weekOfYear.bucket n t) .week =
    WindowUnit.keyText (weekOfYear.bucket n u) .week) :
    weekOfYear.bucket n t = weekOfYear.bucket n u := by
  have hkey : ∀ t, Era t → WindowUnit.keyText (weekOfYear.bucket n t) .week =
      toString (fullYear t) ++ "-W" ++ padded 2 (weekOfYear.floor n t + 1) := by
    rintro t ⟨hlow, hhigh⟩
    have hfloor : weekOfYear.floor n t ≤ dayInYear t / 7 := weekOfYear.floor_le hn t
    have hlength : weekOfYear.floor n t * 7 < 365 + leapDay (fullYear t) := by
      have hbounds := dayInYear_bounds t
      omega
    exact formatWeekKey_bucket hlow hhigh (weekOfYear.floor_nonneg n t) hlength
  rw [hkey t ht, hkey u hu] at h
  obtain ⟨hyear, hweek⟩ := yearAndNumber_inj (fullYear_nonneg ht) (fullYear_nonneg hu)
    (Int.le_add_one (weekOfYear.floor_nonneg n t)) (Int.le_add_one (weekOfYear.floor_nonneg n u))
    (show _ = _ ++ '-' :: (['W'] ++ _) by simp) (by simp) h
  exact (weekOfYear.bucket_eq_iff hn).mpr ⟨hyear, by omega⟩

theorem monthKey_inj (h : WindowUnit.keyText (monthOfYear.bucket n t) .month =
    WindowUnit.keyText (monthOfYear.bucket n u) .month) :
    monthOfYear.bucket n t = monthOfYear.bucket n u := by
  have hkey : ∀ t, WindowUnit.keyText (monthOfYear.bucket n t) .month =
      toString (fullYear t) ++ "-" ++ padded 2 (monthOfYear.floor n t + 1) := by
    intro t
    have hyear : fullYear (monthOfYear.bucket n t) = fullYear t := fullYear_bucket .month hn t
    have hmonth : (JsDate.month (monthOfYear.bucket n t) : Int) = monthOfYear.floor n t :=
      monthOfYear.position_bucket hn t
    simp only [WindowUnit.keyText, hyear, hmonth, numberText, padStart2]
  rw [hkey t, hkey u] at h
  obtain ⟨hyear, hmonth⟩ := yearAndNumber_inj (fullYear_nonneg ht) (fullYear_nonneg hu)
    (Int.le_add_one (monthOfYear.floor_nonneg n t)) (Int.le_add_one (monthOfYear.floor_nonneg n u))
    (show _ = _ ++ '-' :: ([] ++ _) by simp) (by simp) h
  exact (monthOfYear.bucket_eq_iff hn).mpr ⟨hyear, by omega⟩

/-- Buckets with the same key are the same. -/
theorem keyText_inj {unit : WindowUnit}
    (h : unit.keyText (unit.ruler.bucket n t) = unit.keyText (unit.ruler.bucket n u)) :
    unit.ruler.bucket n t = unit.ruler.bucket n u := by
  cases unit with
  | hour => exact hourKey_inj hn ht hu h
  | day => exact dayKey_inj hn ht hu h
  | week => exact weekKey_inj hn ht hu h
  | month => exact monthKey_inj hn ht hu h

end Buckets

/-! ### Window keys -/

/-- Two instants have the same key when they are in the same bucket. -/
theorem exists_key_iff_bucket {event : AlertEventMessage} {text : String}
    (hwindow : event.HasWindow text) {n : Nat} {unit : WindowUnit}
    (hmatch : matchTimeWindow text = some (.finite n, unit)) (hn : 0 < n) {t u : Int}
    (ht : Era t) (hu : Era u) :
    (∃ key, calculateWindowKey (event.at t) = .ok key ∧
        calculateWindowKey (event.at u) = .ok key) ↔
      unit.ruler.bucket n t = unit.ruler.bucket n u := by
  rw [calculateWindowKey_eq hwindow hmatch hn ht, calculateWindowKey_eq hwindow hmatch hn hu]
  constructor
  · rintro ⟨key, hkeyT, hkeyU⟩
    exact keyText_inj hn ht hu (Except.ok.inj (hkeyT.trans hkeyU.symm))
  · intro hbucket
    exact ⟨_, rfl, congrArg (fun s => Except.ok (unit.keyText s)) hbucket.symm⟩

/-- An instant is less than a window after the start of its bucket. -/
theorem lt_after_bucket (unit : WindowUnit) {n : Nat} (hn : 0 < n) (t : Int) :
    t < unit.after n (unit.ruler.bucket n t) := by
  have hend := unit.ruler.lt_bucket_end hn t
  suffices hafter : unit.after n (unit.ruler.bucket n t) =
      unit.ruler.mark (unit.ruler.cell t) (unit.ruler.floor n t + n) by
    rw [hafter]
    exact hend
  cases unit with
  | hour =>
      simp only [WindowUnit.after, WindowUnit.ruler, Ruler.bucket, hourOfDay, msPerHour]
      omega
  | day =>
      simp only [WindowUnit.after, WindowUnit.ruler, Ruler.bucket, dayOfYear, startOfDay, msPerDay]
      omega
  | week =>
      simp only [WindowUnit.after, WindowUnit.ruler, Ruler.bucket, weekOfYear, startOfDay, msPerDay]
      omega
  | month =>
      have hyear : fullYear (monthOfYear.bucket n t) = fullYear t := fullYear_bucket .month hn t
      have hmonth : (JsDate.month (monthOfYear.bucket n t) : Int) = monthOfYear.floor n t :=
        monthOfYear.position_bucket hn t
      have hstart : monthOfYear.bucket n t =
        startOfMonth (fullYear t) (monthOfYear.floor n t) := rfl
      simp only [WindowUnit.after, WindowUnit.ruler, monthsAfter, hyear, hmonth]
      rw [hstart, Int.sub_self, Int.add_zero]
      rfl

/-- **Window keys are buckets.**  For every window there is a function from
    instants to starts of buckets such that two instants have the same key when
    their buckets start at the same instant; a bucket starts at or before its
    instants and less than a window before them, and the starts keep the order of
    the instants. -/
theorem window_keys_are_buckets {event : AlertEventMessage} {text : String}
    (hwindow : event.HasWindow text) {n : Nat} {unit : WindowUnit} (htext : IsWindow text n unit)
    (hpos : 1 ≤ n) (hlimit : n < 2 ^ 53) :
    ∃ start : Int → Int,
      (∀ t u, Era t → Era u →
        ((∃ key, calculateWindowKey (event.at t) = .ok key ∧
          calculateWindowKey (event.at u) = .ok key) ↔ start t = start u)) ∧
      (∀ t, Era t → Era (start t) ∧ start t ≤ t ∧ start (start t) = start t ∧
        t < unit.after n (start t)) ∧
      ∀ t u, Era t → Era u → t ≤ u → start t ≤ start u := by
  have hmatch : matchTimeWindow text = some (.finite n, unit) := by
    rw [matchTimeWindow_of_isWindow htext, WindowCount.ofNat_finite hlimit]
  refine ⟨unit.ruler.bucket n, ?_, ?_, ?_⟩
  · intro t u ht hu
    exact exists_key_iff_bucket hwindow hmatch hpos ht hu
  · intro t ht
    exact ⟨era_bucket unit hpos ht, unit.ruler.bucket_le hpos t, unit.ruler.bucket_bucket hpos t,
      lt_after_bucket unit hpos t⟩
  · intro t u _ _ hle
    exact unit.ruler.bucket_mono hpos hle

/-- An event whose rule asks for windows of two weeks. -/
def fortnightEvent : AlertEventMessage :=
  { sampleEvent "org" "rule" with
    ruleConfig := some (.obj [("timeWindow", .str (toString 2 ++ String.singleton 'W'))]) }

theorem window_keys_are_buckets_sample :
    ∃ start : Int → Int,
      (∀ t u, Era t → Era u →
        ((∃ key, calculateWindowKey (fortnightEvent.at t) = .ok key ∧
          calculateWindowKey (fortnightEvent.at u) = .ok key) ↔ start t = start u)) ∧
      (∀ t, Era t → Era (start t) ∧ start t ≤ t ∧ start (start t) = start t ∧
        t < WindowUnit.week.after 2 (start t)) ∧
      ∀ t u, Era t → Era u → t ≤ u → start t ≤ start u := by
  have hwindow : fortnightEvent.HasWindow (toString 2 ++ String.singleton 'W') := rfl
  have hunit : WindowUnit.ofChar 'W' = some .week := rfl
  exact window_keys_are_buckets hwindow (isWindow_decimal 2 hunit) (by decide) (by decide)

end RulesEngine.Alerts
