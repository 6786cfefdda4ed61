import RulesEngine.Foundations.Json
import RulesEngine.Foundations.KeyedTable
import RulesEngine.Foundations.TimeValue
import RulesEngine.Foundations.UuidText
import Mathlib.Algebra.Group.Nat.Defs

/-!
# Alert events and their deduplication keys

The entity of `alerts/entities/alert.entity.ts`, the queue message of
`alerts/dto/alert-event.message.ts`, and the pure part of `AlertsService`: the
severity and category parsers and the deduplication key.

The message fields that the engine copies out of a rule's configuration
(`ruleId`, `ruleName`, `severity`, `category`, `ruleConfig`, …) are declared as
strings and records in the source, but they are casts of unvalidated JSON, so
they are `Json` here.  The columns `created_at` and `updated_at`, which nothing
below reads, are left out.
-/

namespace RulesEngine.Alerts

open RulesEngine.Foundations

/-! ### The alert entity -/

inductive AlertSeverity where
  | LOW
  | MEDIUM
  | HIGH
  | CRITICAL
deriving DecidableEq, Repr

inductive AlertCategory where
  | AML
  | FRAUD
  | COMPLIANCE
  | UNKNOWN
deriving DecidableEq, Repr

inductive AlertStatus where
  | OPEN
  | ACKNOWLEDGED
  | RESOLVED
  | FALSE_POSITIVE
deriving DecidableEq, Repr

/-- The statuses `processAlertEvent` still adds hits to. -/
def AlertStatus.isActive : AlertStatus → Bool
  | .OPEN => true
  | .ACKNOWLEDGED => true
  | .RESOLVED => false
  | .FALSE_POSITIVE => false

structure AlertMetadata where
  ruleName : Json
  eventType : Json
  eventParams : JsonObject

structure Alert where
  id : String
  idOrganization : String
  idRule : Json
  idTransaction : String
  idAccount : Option String
  severity : AlertSeverity
  category : AlertCategory
  status : AlertStatus
  hitCount : Nat
  firstTriggeredAt : Int
  lastTriggeredAt : Int
  dedupKey : String
  metadata : AlertMetadata

instance : Keyed Alert String := ⟨Alert.id⟩

/-- The alerts of a rule. -/
def Alert.ofRule (ruleId : String) (alert : Alert) : Bool :=
  match alert.idRule with
  | .str text => pgUuid text = ruleId
  | _ => false

/-- The ids of the rules and of the transactions that are there when PostgreSQL
    checks the foreign keys of `alerts`. -/
structure Parents where
  rules : List String
  transactions : List String

/-- PostgreSQL accepts a new row: the organization is a uuid, the rule and the
    transaction exist, and the account fits its column.  The columns that the
    service fills itself always fit: after the rule and the account, the
    deduplication key has a date. -/
structure Parents.Accept (parents : Parents) (alert : Alert) : Prop where
  organization : IsUuid alert.idOrganization
  rule : ∃ ruleId ∈ parents.rules, alert.ofRule ruleId = true
  transaction : pgUuid alert.idTransaction ∈ parents.transactions
  account : ∀ account ∈ alert.idAccount, account.length ≤ 255

instance (parents : Parents) (alert : Alert) : Decidable (parents.Accept alert) :=
  decidable_of_iff (IsUuid alert.idOrganization ∧
      (∃ ruleId ∈ parents.rules, alert.ofRule ruleId = true) ∧
      pgUuid alert.idTransaction ∈ parents.transactions ∧
      ∀ account ∈ alert.idAccount, account.length ≤ 255)
    ⟨fun ⟨h1, h2, h3, h4⟩ => ⟨h1, h2, h3, h4⟩,
      fun h => ⟨h.organization, h.rule, h.transaction, h.account⟩⟩

/-! ### The queue message -/

/-- A message of the `alerts` queue.  `transactionDatetime` is the instant that
    `new Date(…)` reads back from the ISO text in the message. -/
structure AlertEventMessage where
  organizationId : String
  transactionId : String
  accountId : Option String
  ruleId : Json
  ruleName : Json
  severity : Json
  category : Json
  eventType : Json
  eventParams : JsonObject
  transactionDatetime : JsDate
  ruleConfig : Option Json

/-- PostgreSQL accepts a new alert for the event. -/
structure Parents.AcceptEvent (parents : Parents) (event : AlertEventMessage) : Prop where
  organization : IsUuid event.organizationId
  rule : ∃ ruleId, event.ruleId = .str ruleId ∧ pgUuid ruleId ∈ parents.rules
  transaction : pgUuid event.transactionId ∈ parents.transactions
  account : ∀ account ∈ event.accountId, account.length ≤ 255

/-! ### Severity and category -/

/-- Upper case as far as a comparison with an ASCII word can see it: besides
    the ASCII letters, only the dotless i and the long s have a single ASCII
    letter as their upper case. -/
def upperChar (c : Char) : Char :=
  if c = 'ı' then 'I' else if c = 'ſ' then 'S' else c.toUpper

def toUpperCase (text : String) : String := String.ofList (text.toList.map upperChar)

/-- The common body of `parseSeverity` and `parseCategory`: `value?.toUpperCase()`
    is called on whatever the cast let through, and throws on a value without
    that method. -/
def parseEnum {α : Type} (field : String) (values : List (String × α)) (fallback : α) :
    Json → Except Thrown α
  | .null => .ok fallback
  | .str text => .ok ((values.lookup (toUpperCase text)).getD fallback)
  | _ => .error (.error (field ++ "?.toUpperCase is not a function"))

def parseSeverity : Json → Except Thrown AlertSeverity :=
  parseEnum "severity"
    [("LOW", .LOW), ("MEDIUM", .MEDIUM), ("HIGH", .HIGH), ("CRITICAL", .CRITICAL)] .MEDIUM

def parseCategory : Json → Except Thrown AlertCategory :=
  parseEnum "category"
    [("AML", .AML), ("FRAUD", .FRAUD), ("COMPLIANCE", .COMPLIANCE), ("UNKNOWN", .UNKNOWN)]
    .UNKNOWN

/-- A value `?.toUpperCase()` can be called on. -/
def Upcasable : Json → Prop
  | .null => True
  | .str _ => True
  | _ => False

theorem parseEnum_ok_iff {α : Type} (field : String) (values : List (String × α))
    (fallback : α) (value : Json) :
    (∃ parsed, parseEnum field values fallback value = .ok parsed) ↔ Upcasable value := by
  cases value <;> simp [parseEnum, Upcasable]

theorem parseSeverity_ok_iff (value : Json) :
    (∃ severity, parseSeverity value = .ok severity) ↔ Upcasable value :=
  parseEnum_ok_iff _ _ _ value

theorem parseCategory_ok_iff (value : Json) :
    (∃ category, parseCategory value = .ok category) ↔ Upcasable value :=
  parseEnum_ok_iff _ _ _ value

example : parseSeverity (.str "crıtical") = .ok .CRITICAL := by decide

/-! ### The window key -/

/-- `parseInt` of a digit string, as a JavaScript number: from half a unit in
    the last place below `2 ^ 1024` on, it is `Infinity`. -/
inductive WindowCount where
  | finite (n : Nat)
  | infinity
deriving DecidableEq, Repr

def parseInt (digits : List Char) : WindowCount :=
  let n := digits.foldl (fun acc c => 10 * acc + (c.toNat - '0'.toNat)) 0
  if n < 2 ^ 1024 - 2 ^ 970 then .finite n else .infinity

inductive WindowUnit where
  | hour
  | day
  | week
  | month
deriving DecidableEq, Repr

def WindowUnit.ofChar (c : Char) : Option WindowUnit :=
  if c = 'h' ∨ c = 'H' then some .hour
  else if c = 'd' ∨ c = 'D' then some .day
  else if c = 'w' ∨ c = 'W' then some .week
  else if c = 'm' ∨ c = 'M' then some .month
  else none

/-- `timeWindow.match(/^(\d+)([hdwm])$/i)`, with the digits parsed. -/
def matchTimeWindow (text : String) : Option (WindowCount × WindowUnit) :=
  let digits := text.toList.dropLast
  if digits ≠ [] ∧ digits.all Char.isDigit then
    text.toList.getLast?.bind fun c => (WindowUnit.ofChar c).map fun unit => (parseInt digits, unit)
  else none

/-- `Math.floor(x / value) * value`; `none` is `NaN`, which a zero or infinite
    divisor yields for every dividend. -/
def floorToMultiple (x : Int) : WindowCount → Option Int
  | .finite 0 => none
  | .finite (n + 1) => some (x / (n + 1 : Nat) * (n + 1 : Nat))
  | .infinity => none

/-- A number inside a template literal. -/
def numberText : Option Int → String
  | none => "NaN"
  | some n => toString n

/-- `String(n).padStart(2, '0')`. -/
def padStart2 : Option Int → String
  | none => "NaN"
  | some n => JsDate.padded 2 n

/-- `getWeekNumber`: the number of days since the start of the year, plus one,
    in sevens, rounded up. -/
def getWeekNumber (date : JsDate) : String :=
  let weekNumber := date.bind fun t => (JsDate.utcStartOfYear (JsDate.fullYear t)).map fun start =>
    -(-(t - start + JsDate.msPerDay) / (7 * JsDate.msPerDay))
  padStart2 weekNumber

/-- `formatDateKey(date, 'day')`. -/
def formatDayKey (date : JsDate) : String :=
  numberText (date.map JsDate.fullYear) ++ "-" ++
    padStart2 (date.map fun t => (JsDate.month t : Int) + 1) ++ "-" ++
    padStart2 (date.map JsDate.dayOfMonth)

/-- `formatDateKey(date, 'week')`. -/
def formatWeekKey (date : JsDate) : String :=
  numberText (date.map JsDate.fullYear) ++ "-W" ++ getWeekNumber date

/-- The bucket of the `d` and `w` branches: the start of the year moved forward
    by whole units of `unitDays` days, `value` units at a time. -/
def yearBucket (date : JsDate) (unitDays : Int) (value : WindowCount) : JsDate :=
  let startOfYear := (date.map JsDate.fullYear).bind JsDate.utcStartOfYear
  let unitOfYear := date.bind fun t => startOfYear.map fun start =>
    (t - start) / (unitDays * JsDate.msPerDay)
  let bucket := unitOfYear.bind fun n => floorToMultiple n value
  JsDate.setUTCDate startOfYear
    (bucket.bind fun b => startOfYear.map fun start => JsDate.dayOfMonth start + b * unitDays)

def calculateWindowKey (event : AlertEventMessage) : Except Thrown String :=
  let transactionDate := event.transactionDatetime
  match Json.orElse (Json.prop? event.ruleConfig "timeWindow") (.str "24h") with
  | .str timeWindow =>
      match matchTimeWindow timeWindow with
      -- the invalid-format branch defaults to a daily bucket
      | none => .ok (formatDayKey transactionDate)
      | some (value, .hour) =>
          let bucketHour := transactionDate.bind fun t => floorToMultiple (JsDate.hours t) value
          match JsDate.toISOString (JsDate.setUTCHours transactionDate bucketHour) with
          | some text => .ok text
          | none => .error (.error "Invalid time value")
      | some (value, .day) => .ok (formatDayKey (yearBucket transactionDate 1 value))
      | some (value, .week) => .ok (formatWeekKey (yearBucket transactionDate 7 value))
      | some (value, .month) =>
          let bucketMonth := transactionDate.bind fun t => floorToMultiple (JsDate.month t) value
          .ok (numberText (transactionDate.map JsDate.fullYear) ++ "-" ++
            padStart2 (bucketMonth.map (· + 1)))
  -- any other truthy value has no `match` method
  | _ => .error (.error "timeWindow.match is not a function")

/-- An hour count that rounds to a number. -/
def WindowCount.Positive : WindowCount → Prop
  | .finite n => 0 < n
  | .infinity => False

theorem floorToMultiple_eq_none_iff (x : Int) (value : WindowCount) :
    floorToMultiple x value = none ↔ ¬ value.Positive := by
  cases value with
  | infinity => simp [floorToMultiple, WindowCount.Positive]
  | finite n => cases n <;> simp [floorToMultiple, WindowCount.Positive]

theorem floorToMultiple_bounds {x b : Int} {value : WindowCount} (hx : 0 ≤ x)
    (h : floorToMultiple x value = some b) : 0 ≤ b ∧ b ≤ x := by
  cases value with
  | infinity => cases h
  | finite n =>
      cases n with
      | zero => cases h
      | succ n =>
          simp only [floorToMultiple, Option.some.injEq] at h
          subst h
          have hdiv : 0 ≤ x / ((n + 1 : Nat) : Int) := Int.ediv_nonneg hx (by omega)
          exact ⟨Int.mul_nonneg hdiv (by omega), Int.ediv_mul_le x (by omega)⟩

/-- A `timeWindow` the window key can be computed from: absent or falsy, or a
    string that is not an hour window of zero or of infinitely many hours. -/
def ValidWindow (timeWindow : Option Json) : Prop :=
  ∃ text, Json.orElse timeWindow (.str "24h") = .str text ∧
    ∀ value, matchTimeWindow text = some (value, .hour) → value.Positive

/-- The window key of a valid date is computed exactly from the valid windows:
    any other value has no `match` method or makes the bucket hour `NaN`. -/
theorem calculateWindowKey_ok_iff {event : AlertEventMessage}
    (hdate : JsDate.Valid event.transactionDatetime) :
    (∃ windowKey, calculateWindowKey event = .ok windowKey) ↔
      ValidWindow (Json.prop? event.ruleConfig "timeWindow") := by
  obtain ⟨t, hdatetime, ht⟩ := hdate
  unfold calculateWindowKey ValidWindow
  cases hwindow : Json.orElse (Json.prop? event.ruleConfig "timeWindow") (.str "24h") with
  | str text =>
      simp only [Json.str.injEq, exists_eq_left']
      cases hmatch : matchTimeWindow text with
      | none => simp
      | some parsed =>
          obtain ⟨value, unit⟩ := parsed
          cases unit with
          | day => simp
          | week => simp
          | month => simp
          | hour =>
              simp only [hdatetime, Option.bind_some, Option.some.injEq, Prod.mk.injEq, and_true,
                forall_eq']
              cases hfloor : floorToMultiple (JsDate.hours t) value with
              | none =>
                  have hnot := (floorToMultiple_eq_none_iff _ _).mp hfloor
                  simp [JsDate.setUTCHours, JsDate.toISOString, hnot]
              | some bucketHour =>
                  have hpositive : value.Positive := by
                    by_contra hnot
                    simp [(floorToMultiple_eq_none_iff _ _).mpr hnot] at hfloor
                  obtain ⟨hnonneg, hle⟩ := floorToMultiple_bounds (JsDate.hours_nonneg t) hfloor
                  simp [JsDate.setUTCHours_of_le ht hnonneg hle, JsDate.toISOString, hpositive]
  | null => simp
  | bool b => simp
  | num q => simp
  | arr items => simp
  | obj fields => simp

def calculateDedupKey [NumberText] (event : AlertEventMessage) : Except Thrown String := do
  let windowKey ← calculateWindowKey event
  let ruleText ← event.ruleId.templateText
  let account := match event.accountId with
    | some account => if account = "" then "no-account" else account
    | none => "no-account"
  return ruleText ++ ":" ++ account ++ ":" ++ windowKey

theorem calculateDedupKey_prefix [NumberText] {event : AlertEventMessage} {ruleId dedupKey : String}
    (hrule : event.ruleId = .str ruleId) (h : calculateDedupKey event = .ok dedupKey) :
    ∃ rest, dedupKey = ruleId ++ ":" ++ rest := by
  unfold calculateDedupKey at h
  cases hwindow : calculateWindowKey event with
  | error e => simp [hwindow, bind, Except.bind] at h
  | ok windowKey =>
      simp only [hwindow, hrule, Json.templateText_str, bind, Except.bind, pure, Except.pure,
        Except.ok.injEq] at h
      subst h
      simp only [String.append_assoc, String.append_right_inj]
      exact ⟨_, rfl⟩

/-- A rule id without the separator can be read back from the key. -/
theorem ruleId_unique {a b restA restB : String} (ha : ':' ∉ a.toList) (hb : ':' ∉ b.toList)
    (h : a ++ ":" ++ restA = b ++ ":" ++ restB) : a = b := by
  have hread : ∀ id rest : String, ':' ∉ id.toList →
      (id ++ ":" ++ rest).toList.takeWhile (· ≠ ':') = id.toList := by
    intro id rest hid
    have hall : ∀ c ∈ id.toList, decide (c ≠ ':') = true := by
      intro c hc
      simp only [decide_eq_true_eq]
      exact fun hcolon => hid (hcolon ▸ hc)
    rw [String.append_assoc, String.toList_append, String.toList_append,
      List.takeWhile_append_of_pos hall]
    simp
  apply String.toList_injective
  rw [← hread a restA ha, h, hread b restB hb]

theorem calculateDedupKey_ok_iff [NumberText] (event : AlertEventMessage) :
    (∃ dedupKey, calculateDedupKey event = .ok dedupKey) ↔
      (∃ windowKey, calculateWindowKey event = .ok windowKey) ∧ event.ruleId.Printable := by
  unfold calculateDedupKey Json.Printable
  cases calculateWindowKey event with
  | error e => simp [bind, Except.bind]
  | ok windowKey =>
      cases event.ruleId.templateText <;> simp [bind, Except.bind, pure, Except.pure]

end RulesEngine.Alerts
