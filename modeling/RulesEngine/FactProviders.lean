import RulesEngine.ListsService

/-!
# Fact providers

`engine/facts`: the facts a rule condition can ask for besides the ones the
evaluation context supplies.  A provider reads its parameters from the
condition, which is unvalidated JSON of the tenant, and other facts from the
almanac of the run.
-/

namespace RulesEngine.Engine

open RulesEngine.Foundations
open RulesEngine.Lists

/-- `almanac.factValue`, for facts without parameters. -/
abbrev Almanac := String → Except Thrown JsValue

/-- `params.name`; reading a property of `null` throws. -/
def readParam (params : Json) (name : String) : Except Thrown (Option Json) :=
  match params with
  | .null => .error (.error "Cannot destructure property of null")
  | params => .ok (Json.prop? (some params) name)

/-! ### Numbers -/

/-- A JavaScript number. -/
inductive JsNumber where
  | finite (value : ℚ)
  | posInfinity
  | negInfinity
  | nan

def JsNumber.min : JsNumber → JsNumber → JsNumber
  | .nan, _ => .nan
  | _, .nan => .nan
  | .negInfinity, _ => .negInfinity
  | _, .negInfinity => .negInfinity
  | .posInfinity, y => y
  | x, .posInfinity => x
  | .finite x, .finite y => .finite (if x ≤ y then x else y)

/-- `Number(value)` for the values whose conversion goes through a text. -/
class NumberParsing where
  parse : Json → Except Thrown JsNumber

/-- A conversion for runs without texts to convert. -/
@[reducible] def NumberParsing.never : NumberParsing := ⟨fun _ => .ok .nan⟩

/-- `Number(value)`. -/
def toNumber [NumberParsing] : Option Json → Except Thrown JsNumber
  | none => .ok .nan
  | some .null => .ok (.finite 0)
  | some (.bool b) => .ok (.finite (if b then 1 else 0))
  | some (.num q) => .ok (.finite q)
  | some value => NumberParsing.parse value

/-- `startDate.setDate(startDate.getDate() - days)` on the clock reading, for a
    server that runs on UTC; the day number is truncated towards zero. -/
def windowStart (now : Int) : JsNumber → JsDate
  | .finite days =>
      let dayNumber : ℚ := JsDate.dayOfMonth now - days
      JsDate.setUTCDate (some now) (some (dayNumber.num.tdiv dayNumber.den))
  | _ => none

/-! ### TransactionHistoryFact -/

inductive Aggregation where
  | sum
  | count
  | avg
  | max
  | min
deriving DecidableEq, Repr

/-- The `switch` over `params.aggregation`. -/
def parseAggregation : Option Json → Option Aggregation
  | some (.str "sum") => some .sum
  | some (.str "count") => some .count
  | some (.str "avg") => some .avg
  | some (.str "max") => some .max
  | some (.str "min") => some .min
  | _ => none

/-- The column `getPropertyName` selects.  `fieldMap[field]` finds the names every
    object inherits as well, and their values make no column name. -/
def selectField [NumberText] (field : Option Json) : Except Thrown (Transaction → ℚ) := do
  let name ← match field with
    | none => .ok "amountNormalized"
    | some value => Json.templateText value
  if name = "amount" then return Transaction.amount
  else if name ∈ inheritedNames then .error (.error "syntax error in the aggregate")
  else return Transaction.amountNormalized

/-- `COALESCE(AGG(…), 0)`, or `COUNT(*)`, as an exact number: neither PostgreSQL's scale
    of an average nor JavaScript's rounding of the answer is modelled. -/
def aggregate (aggregation : Aggregation) (values : List ℚ) : ℚ :=
  match aggregation with
  | .sum => values.sum
  | .count => values.length
  | .avg => values.sum / values.length
  | .max => match values with
    | [] => 0
    | first :: rest => rest.foldl (fun a b => if a ≤ b then b else a) first
  | .min => match values with
    | [] => 0
    | first :: rest => rest.foldl (fun a b => if a ≤ b then a else b) first

example : aggregate .avg [] = 0 ∧ aggregate .max [-3, -1, -2] = -1 := by decide +kernel

section Providers

variable [NumberText] [DriverText] [NumberParsing]

/-- The transactions the query of `TransactionHistoryFact` selects. -/
def selectHistory (transactions : Table Transaction) (organizationId accountId : String)
    (startDate : Int) (transactionType : Option String) : List Transaction :=
  transactions.rows.filter fun tx =>
    tx.idOrganization = pgUuid organizationId ∧ tx.idAccount = accountId ∧
      (∃ datetime ∈ tx.datetime, startDate < datetime) ∧ tx.isVoided = false ∧
      tx.isDeleted = false ∧ Meets transactionType tx.type

/-- `params.accountId`, or else the account of the context transaction. -/
def historyAccount (params : Json) (almanac : Almanac) : Except Thrown JsValue := do
  let accountId ← readParam params "accountId"
  if Json.truthy accountId then return JsValue.ofOption accountId
  else almanac "transaction.idAccount"

def transactionHistory (maxTimeWindowDays : ℚ) (transactions : Table Transaction) (now : Int)
    (params : Json) (almanac : Almanac) (organizationId : String) : Except Thrown JsValue := do
  let aggregationParam ← readParam params "aggregation"
  let field ← readParam params "field"
  let timeWindowDays ← readParam params "timeWindowDays"
  let transactionType ← readParam params "transactionType"
  let accountId ← historyAccount params almanac
  if accountId.truthy = false then return .json (.num 0)
  else
    let days ← toNumber timeWindowDays
    let startDate := windowStart now (days.min (.finite maxTimeWindowDays))
    match parseAggregation aggregationParam with
    | none => return .json (.num 0)
    | some aggregation =>
        let select ← if aggregation = .count then .ok Transaction.amountNormalized
          else selectField field
        match startDate with
        | none => .error (.error "invalid input syntax for type timestamp")
        | some startDate =>
            let typeText :=
              if Json.truthy transactionType then some (pgText (JsValue.ofOption transactionType))
              else none
            let history := selectHistory transactions organizationId (pgText accountId) startDate
              typeText
            return .json (.num (aggregate aggregation (history.map select)))

/-! ### AccountFact -/

/-- The stub account of `AccountFact`. -/
def mockAccount (accountId : Option Json) : List (String × JsValue) :=
  [("id", JsValue.ofOption accountId), ("type", .json (.str "INDIVIDUAL")),
    ("status", .json (.str "ACTIVE")), ("country", .json (.str "US")),
    ("riskScore", .json (.num 50)), ("data", .json (.obj []))]

/-- A property of an object the program built, its own or an inherited one. -/
def recordField (fields : List (String × JsValue)) (name : String) : JsValue :=
  match fields.lookup name with
  | some value => value
  | none => if name ∈ inheritedNames then .inherited name else .undefined

/-- `field ? account[field] : account`. -/
def accountField (fields : List (String × JsValue)) (field : Option Json) :
    Except Thrown JsValue :=
  match field with
  | some value =>
      if Json.truthy (some value) then (Json.templateText value).map (recordField fields)
      else .ok (.record fields)
  | none => .ok (.record fields)

/-- The account of the evaluation context, when the almanac has one with the
    requested id. -/
def contextAccount (accountId : Option Json) (almanac : Almanac) :
    Option (List (String × JsValue)) :=
  match almanac "context" with
  | .ok (.record context) =>
      match recordField context "account" with
      | .record account =>
          match recordField account "id", accountId with
          | .json (.str id), some (.str wanted) => if id = wanted then some account else none
          | _, _ => none
      | _ => none
  | _ => none

def account (params : Json) (almanac : Almanac) : Except Thrown JsValue := do
  let accountId ← readParam params "accountId"
  let field ← readParam params "field"
  match contextAccount accountId almanac with
  | some fields => accountField fields field
  | none => accountField (mockAccount accountId) field

/-! ### ListLookupFact -/

/-- `isFactReference(value)`, with the name of the fact. -/
def factReference : Option Json → Option String
  | some (.obj fields) =>
      match JsonObject.get? fields "fact" with
      | some (.str fact) => some fact
      | _ => none
  | _ => none

def listLookup (listEntries : Table ListEntry) (now : Int) (params : Json) (almanac : Almanac)
    (organizationId : String) : Except Thrown JsValue := do
  let listType ← readParam params "listType"
  let entityType ← readParam params "entityType"
  let value ← readParam params "value"
  let lookup : JsValue → Except Thrown JsValue := fun resolvedValue =>
    (isInList listEntries organizationId (JsValue.ofOption listType) (JsValue.ofOption entityType)
      resolvedValue now).map fun found => .json (.bool found)
  match factReference value with
  | some fact => do
      let factValue ← almanac fact
      if factValue.truthy = false then return .json (.bool false)
      else lookup factValue
  | none => lookup (JsValue.ofOption value)

end Providers

end RulesEngine.Engine
