import RulesEngine.AlertsService
import RulesEngine.Foundations.DecimalText

/-!
# Reading a deduplication key back

The deduplication key joins the rule id, the account and the window key with
colons, and accounts may contain colons, as the window keys of hours do.  Every
window key is a date, perhaps followed by a time: colons are only in the time
and dashes only in the date (`marked_windowKey`).  So the window key is what
follows the last colon that has a dash behind it, and the three parts can be
read back (`dedup_keys_unambiguous`).
-/

namespace RulesEngine.Alerts

open RulesEngine.Foundations
open RulesEngine.Foundations.JsDate

/-! ### The shape of a window key -/

theorem colon_not_mem_numberText (n : Option Int) : ':' ∉ (numberText n).toList := by
  cases n with
  | none => decide
  | some n => exact not_mem_number rfl (by decide) n

theorem colon_not_mem_padStart2 (n : Option Int) : ':' ∉ (padStart2 n).toList := by
  cases n with
  | none => decide
  | some n => exact not_mem_padded_number rfl (by decide) 2 n

theorem colon_not_mem_isoYear (y : Int) : ':' ∉ (isoYear y).toList := by
  have hnumber : ∀ width n, ':' ∉ (padded width n).toList :=
    not_mem_padded_number rfl (by decide)
  unfold isoYear
  split
  · exact hnumber 4 y
  · split <;> simp [hnumber]

/-- A text without colons is marked when it has a dash. -/
theorem marked_date {date : List Char} (hcolon : ':' ∉ date) (hdash : '-' ∈ date) :
    Marked ':' '-' date :=
  ⟨date, [], (List.append_nil date).symm, hcolon, hdash, List.not_mem_nil⟩

theorem marked_formatDayKey (date : JsDate) : Marked ':' '-' (formatDayKey date).toList := by
  apply marked_date <;>
    simp [formatDayKey, colon_not_mem_numberText, colon_not_mem_padStart2]

theorem marked_formatWeekKey (date : JsDate) : Marked ':' '-' (formatWeekKey date).toList := by
  apply marked_date <;>
    simp [formatWeekKey, getWeekNumber, colon_not_mem_numberText, colon_not_mem_padStart2]

theorem marked_monthKey (year month : Option Int) :
    Marked ':' '-' (numberText year ++ "-" ++ padStart2 month).toList := by
  apply marked_date <;> simp [colon_not_mem_numberText, colon_not_mem_padStart2]

/-- The time of an ISO text has no dash. -/
theorem marked_toISOString {date : JsDate} {text : String} (h : toISOString date = some text) :
    Marked ':' '-' text.toList := by
  cases date with
  | none => cases h
  | some t =>
      have htime : 0 ≤ timeWithinDay t := by
        simp only [timeWithinDay, msPerDay]
        omega
      have hdash : ∀ width n, 0 ≤ n → '-' ∉ (padded width n).toList := fun _ _ hn =>
        not_mem_padded rfl hn
      have hhour : '-' ∉ (padded 2 (timeWithinDay t / msPerHour)).toList :=
        hdash _ _ (Int.ediv_nonneg htime (by decide))
      have hminute : '-' ∉ (padded 2 (timeWithinDay t / 60000 % 60)).toList :=
        hdash _ _ (by omega)
      have hsecond : '-' ∉ (padded 2 (timeWithinDay t / 1000 % 60)).toList := hdash _ _ (by omega)
      have hmilli : '-' ∉ (padded 3 (timeWithinDay t % 1000)).toList := hdash _ _ (by omega)
      have hcolon : ∀ width n, ':' ∉ (padded width n).toList :=
        not_mem_padded_number rfl (by decide)
      obtain rfl := Option.some.inj h
      refine ⟨(isoYear (fullYear t) ++ "-" ++ padded 2 (JsDate.month t + 1) ++ "-" ++
          padded 2 (dayOfMonth t)).toList,
        ("T" ++ padded 2 (timeWithinDay t / msPerHour) ++ ":" ++
          padded 2 (timeWithinDay t / 60000 % 60) ++ ":" ++
          padded 2 (timeWithinDay t / 1000 % 60) ++ "." ++
          padded 3 (timeWithinDay t % 1000) ++ "Z").toList, ?_, ?_, ?_, ?_⟩
      · simp
      · simp [colon_not_mem_isoYear, hcolon]
      · simp
      · simp [hhour, hminute, hsecond, hmilli]

/-- Every window key is a date, perhaps followed by a time. -/
theorem marked_windowKey {event : AlertEventMessage} {windowKey : String}
    (h : calculateWindowKey event = .ok windowKey) : Marked ':' '-' windowKey.toList := by
  unfold calculateWindowKey at h
  split at h
  · rename_i timeWindow _
    rcases hmatch : matchTimeWindow timeWindow with _ | ⟨value, unit⟩
    · simp only [hmatch, Except.ok.injEq] at h
      exact h ▸ marked_formatDayKey _
    · cases unit with
      | hour =>
          simp only [hmatch] at h
          split at h
          · rename_i text htext
            obtain rfl := Except.ok.inj h
            exact marked_toISOString htext
          · cases h
      | day =>
          simp only [hmatch, Except.ok.injEq] at h
          exact h ▸ marked_formatDayKey _
      | week =>
          simp only [hmatch, Except.ok.injEq] at h
          exact h ▸ marked_formatWeekKey _
      | month =>
          simp only [hmatch, Except.ok.injEq] at h
          exact h ▸ marked_monthKey _ _
  · cases h

/-! ### The key of a rule and an account -/

/-- An event of the rule with a given id on a given account: the id has no
    colon, as a uuid has none, and the account is any non-empty text. -/
structure AlertEventMessage.IsOf (event : AlertEventMessage) (ruleId account : String) : Prop where
  ruleId_eq : event.ruleId = .str ruleId
  accountId_eq : event.accountId = some account
  colon : ':' ∉ ruleId.toList
  named : account ≠ ""

theorem calculateDedupKey_of [NumberText] {event : AlertEventMessage}
    {ruleId account dedupKey : String} (hof : event.IsOf ruleId account)
    (h : calculateDedupKey event = .ok dedupKey) :
    ∃ windowKey, calculateWindowKey event = .ok windowKey ∧
      dedupKey = ruleId ++ ":" ++ account ++ ":" ++ windowKey := by
  unfold calculateDedupKey at h
  rcases hwindow : calculateWindowKey event with e | windowKey
  · simp [hwindow, bind, Except.bind] at h
  · simp only [hwindow, hof.ruleId_eq, hof.accountId_eq, hof.named, Json.templateText_str, bind,
      Except.bind, pure, Except.pure, if_false, Except.ok.injEq] at h
    exact ⟨windowKey, rfl, h.symm⟩

/-- **Deduplication keys are unambiguous.**  Whatever the accounts contain and
    whatever windows the rules ask for, two events have the same key when they
    have the same rule, the same account and the same window key. -/
theorem dedup_keys_unambiguous [NumberText] {first second : AlertEventMessage}
    {ruleId ruleId' account account' dedupKey dedupKey' : String}
    (hfirst : first.IsOf ruleId account) (hsecond : second.IsOf ruleId' account')
    (hkey : calculateDedupKey first = .ok dedupKey)
    (hkey' : calculateDedupKey second = .ok dedupKey') :
    dedupKey = dedupKey' ↔
      ruleId = ruleId' ∧ account = account' ∧
        calculateWindowKey first = calculateWindowKey second := by
  obtain ⟨windowKey, hwindow, rfl⟩ := calculateDedupKey_of hfirst hkey
  obtain ⟨windowKey', hwindow', rfl⟩ := calculateDedupKey_of hsecond hkey'
  rw [hwindow, hwindow', Except.ok.injEq]
  constructor
  · intro hkeys
    have hrule : ruleId = ruleId' := by
      apply ruleId_unique hfirst.colon hsecond.colon
      simpa only [String.append_assoc] using hkeys
    subst hrule
    have hrest : account.toList ++ ':' :: windowKey.toList =
        account'.toList ++ ':' :: windowKey'.toList := by
      simpa [String.append_assoc] using congrArg String.toList hkeys
    obtain ⟨haccount, hwindows⟩ :=
      (marked_windowKey hwindow).split (marked_windowKey hwindow') hrest
    exact ⟨rfl, String.toList_injective haccount, String.toList_injective hwindows⟩
  · rintro ⟨rfl, rfl, rfl⟩
    rfl

section Sample

attribute [local instance] NumberText.integers

/-- An event on an account, at the epoch and under the default window. -/
def accountEvent (account : String) : AlertEventMessage :=
  { sampleEvent "org" "5f0c4a1e-0000-4000-8000-000000000001" with accountId := some account }

theorem accountEvent_isOf {account : String} (hnamed : account ≠ "") :
    (accountEvent account).IsOf "5f0c4a1e-0000-4000-8000-000000000001" account :=
  ⟨rfl, rfl, by decide, hnamed⟩

/-- An account that ends like the start of a window key. -/
theorem dedup_keys_unambiguous_sample :
    "5f0c4a1e-0000-4000-8000-000000000001:acc:1970-01-01T00:1970-01-01T00:00:00.000Z" =
        "5f0c4a1e-0000-4000-8000-000000000001:acc:1970-01-01T00:00:00.000Z" ↔
      "5f0c4a1e-0000-4000-8000-000000000001" = "5f0c4a1e-0000-4000-8000-000000000001" ∧
        "acc:1970-01-01T00" = "acc" ∧
        calculateWindowKey (accountEvent "acc:1970-01-01T00") =
          calculateWindowKey (accountEvent "acc") :=
  dedup_keys_unambiguous (accountEvent_isOf (by decide)) (accountEvent_isOf (by decide))
    (by decide +kernel) (by decide +kernel)

end Sample

end RulesEngine.Alerts
