import RulesEngine.Database

/-!
# ListsService

Black- and whitelists (`lists/lists.service.ts`), and the JavaScript values
that reach its query: the parameters of a rule condition are unvalidated JSON,
and a fact may be any value the engine was given.
-/

namespace RulesEngine.Lists

open RulesEngine.Foundations

/-! ### Values of facts -/

/-- A value a fact can have: `undefined`, JSON, a `Date`, an object the program
    builds out of such values, or the value of a property every object inherits. -/
inductive JsValue where
  | undefined
  | json (value : Json)
  | date (value : JsDate)
  | record (fields : List (String × JsValue))
  | inherited (name : String)

/-- `undefined` or the given JSON. -/
def JsValue.ofOption : Option Json → JsValue
  | none => .undefined
  | some value => .json value

def JsValue.truthy : JsValue → Bool
  | .undefined => false
  | .json value => Json.truthy (some value)
  | .date _ => true
  | .record _ => true
  | .inherited _ => true

/-- How the database driver sends a parameter that is not a string. -/
class DriverText where
  render : JsValue → String

/-- A driver for runs that send nothing but strings. -/
@[reducible] def DriverText.stringsOnly : DriverText := ⟨fun _ => ""⟩

section Query

variable [DriverText]

/-- The text of a query parameter. -/
def pgText : JsValue → String
  | .json (.str text) => text
  | value => DriverText.render value

/-- One key of a TypeORM `where` object: `undefined` and `null` add no
    condition. -/
def whereText : JsValue → Option String
  | .undefined => none
  | .json .null => none
  | value => some (pgText value)

/-- A key of a `where` object on an enumeration column; PostgreSQL rejects a
    text outside the enumeration. -/
def whereEnum {α : Type} (values : List (String × α)) (value : JsValue) :
    Except Thrown (Option α) :=
  match whereText value with
  | none => .ok none
  | some text =>
      match values.lookup text with
      | some a => .ok (some a)
      | none => .error (.error ("invalid input value for enum: \"" ++ text ++ "\""))

end Query

/-- A column meets an optional condition. -/
def Meets {α : Type} (condition : Option α) (column : α) : Prop :=
  ∀ wanted ∈ condition, column = wanted

instance {α : Type} [DecidableEq α] (condition : Option α) (column : α) :
    Decidable (Meets condition column) :=
  inferInstanceAs (Decidable (∀ wanted ∈ condition, column = wanted))

/-! ### ListsService -/

structure CreateListEntryDto where
  listType : ListType
  entityType : EntityType
  entityValue : String
  /-- `dto.expiresAt ? new Date(dto.expiresAt) : null`. -/
  expiresAt : Option JsDate

def ListType.name : ListType → String
  | .BLACKLIST => "BLACKLIST"
  | .WHITELIST => "WHITELIST"

def EntityType.name : EntityType → String
  | .ACCOUNT => "ACCOUNT"
  | .IP => "IP"
  | .COUNTRY => "COUNTRY"
  | .DEVICE => "DEVICE"
  | .EMAIL => "EMAIL"
  | .PHONE => "PHONE"

def listTypes : List (String × ListType) :=
  [ListType.BLACKLIST, .WHITELIST].map fun listType => (ListType.name listType, listType)

def entityTypes : List (String × EntityType) :=
  [EntityType.ACCOUNT, .IP, .COUNTRY, .DEVICE, .EMAIL, .PHONE].map fun entityType =>
    (EntityType.name entityType, entityType)

/-- The `timestamp` PostgreSQL stores for an optional date. -/
def storedTimestamp : Option JsDate → Except Thrown (Option Int)
  | none => .ok none
  | some (some t) => .ok (some t)
  | some none => .error (.error "invalid input syntax for type timestamp")

def createListEntry (organizationId : String) (dto : CreateListEntryDto) (id : String)
    (db : Database) : Except Thrown Database :=
  if ∃ entry ∈ db.listEntries.rows, entry.idOrganization = pgUuid organizationId ∧
      entry.listType = dto.listType ∧ entry.entityType = dto.entityType ∧
      entry.entityValue = dto.entityValue then
    .error (.error ("Entry already exists for " ++ ListType.name dto.listType ++ "/" ++
      EntityType.name dto.entityType ++ "/" ++ dto.entityValue))
  else do
    let expiresAt ← storedTimestamp dto.expiresAt
    let listEntries ← insertRow db.listEntries
      { id
        idOrganization := pgUuid organizationId
        listType := dto.listType
        entityType := dto.entityType
        entityValue := dto.entityValue
        expiresAt }
    return { db with listEntries }

def findListEntry (db : Database) : String → String → Except Thrown ListEntry :=
  findOneOf "List entry" db.listEntries

def removeListEntry (organizationId id : String) (db : Database) : Except Thrown Database := do
  let entry ← findListEntry db organizationId id
  return { db with listEntries := db.listEntries.retain fun other => other.id ≠ entry.id }

/-- The rows `removeExpired` deletes: `LessThan(now)` is not true of `NULL`, and
    a falsy organization adds no condition. -/
def expiredFor (organizationId : Option String) (now : Int) (entry : ListEntry) : Bool :=
  decide ((∃ expiry ∈ entry.expiresAt, expiry < now) ∧
    Meets ((organizationId.filter (· ≠ "")).map pgUuid) entry.idOrganization)

/-- `removeExpired`, with the number of deleted rows. -/
def removeExpired (organizationId : Option String) (now : Int) (db : Database) : Nat × Database :=
  let expired := expiredFor organizationId now
  ((db.listEntries.rows.filter expired).length,
    { db with listEntries := db.listEntries.retain fun entry => !expired entry })

/-- `isInList`.  The first alternative names no expiry, because its
    `expiresAt: null` adds no condition. -/
def isInList [DriverText] (listEntries : Table ListEntry) (organizationId : String)
    (listType entityType entityValue : JsValue) (now : Int) : Except Thrown Bool := do
  let wantedList ← whereEnum listTypes listType
  let wantedEntity ← whereEnum entityTypes entityType
  let wantedValue := whereText entityValue
  let named : ListEntry → Prop := fun entry =>
    entry.idOrganization = pgUuid organizationId ∧ Meets wantedList entry.listType ∧
      Meets wantedEntity entry.entityType ∧ Meets wantedValue entry.entityValue
  return decide (∃ entry ∈ listEntries.rows,
    named entry ∨ (named entry ∧ ∃ expiry ∈ entry.expiresAt, now < expiry))

end RulesEngine.Lists
