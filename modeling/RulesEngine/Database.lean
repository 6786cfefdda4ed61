import RulesEngine.Foundations.Json
import RulesEngine.Foundations.KeyedTable
import RulesEngine.Foundations.TimeValue
import RulesEngine.Foundations.UuidText
import Mathlib.Algebra.Order.Field.Rat
import Mathlib.Data.Rat.Floor

/-!
# The tables of the rules engine

The TypeORM entities of `rule-templates`, `template-overrides`, `rules`,
`lists` and `transactions`, with the columns some service below reads, and the
database that holds them.  `alerts` is the table of a service of its own
(`AlertEvents`).

PostgreSQL stores and compares `uuid` columns by value, so a text that spells the
uuid otherwise names the same row: every uuid a query takes from a caller goes
through `pgUuid`.
-/

namespace RulesEngine

open RulesEngine.Foundations

/-! ### Entities -/

structure RuleTemplate where
  id : String
  name : String
  config : JsonObject

instance : Keyed RuleTemplate String := ⟨RuleTemplate.id⟩

structure TemplateOverride where
  id : String
  idOrganization : String
  idTemplate : String
  overrides : JsonObject
  enabled : Bool

instance : Keyed TemplateOverride String := ⟨TemplateOverride.id⟩

structure Rule where
  id : String
  idOrganization : String
  idTemplate : Option String
  name : String
  enabled : Bool
  priority : Nat
  config : JsonObject
  createdAt : Int

instance : Keyed Rule String := ⟨Rule.id⟩

inductive ListType where
  | BLACKLIST
  | WHITELIST
deriving DecidableEq, Repr

inductive EntityType where
  | ACCOUNT
  | IP
  | COUNTRY
  | DEVICE
  | EMAIL
  | PHONE
deriving DecidableEq, Repr

structure ListEntry where
  id : String
  idOrganization : String
  listType : ListType
  entityType : EntityType
  entityValue : String
  expiresAt : Option Int

instance : Keyed ListEntry String := ⟨ListEntry.id⟩

structure Transaction where
  id : String
  idOrganization : String
  idAccount : String
  amount : ℚ
  amountNormalized : ℚ
  currency : String
  type : String
  datetime : JsDate
  date : String
  isVoided : Bool
  isBlocked : Bool
  isDeleted : Bool
  data : JsonObject
  country : Option String
  counterpartyId : Option String
  counterpartyCountry : Option String

instance : Keyed Transaction String := ⟨Transaction.id⟩

/-- A row that belongs to an organization (`TenantBaseEntity`). -/
class TenantRow (ρ : Type) extends Keyed ρ String where
  organization : ρ → String

export TenantRow (organization)

instance : TenantRow TemplateOverride where
  organization := TemplateOverride.idOrganization

instance : TenantRow Rule where
  organization := Rule.idOrganization

instance : TenantRow ListEntry where
  organization := ListEntry.idOrganization

instance : TenantRow Transaction where
  organization := Transaction.idOrganization

structure Database where
  templates : Table RuleTemplate
  overrides : Table TemplateOverride
  rules : Table Rule
  listEntries : Table ListEntry
  transactions : Table Transaction

def Database.empty : Database := ⟨Table.empty, Table.empty, Table.empty, Table.empty, Table.empty⟩

/-! ### Columns -/

/-- What a partial update says about a column: the property is absent (or
    `undefined`), `null`, or a value. -/
inductive Patch (α : Type) where
  | absent
  | null
  | value (a : α)

/-- `createDto.column ?? fallback`. -/
def Patch.getD {α : Type} (fallback : α) : Patch α → α
  | .absent => fallback
  | .null => fallback
  | .value a => a

/-- The property of a nullable column in the entity `save` returns, which has `null`
    where no value was given. -/
def Patch.saved {α : Type} : Patch α → Patch α
  | .absent => .null
  | patch => patch

/-- The value `Object.assign` leaves in a nullable column. -/
def Patch.nullable {α : Type} (current : Option α) : Patch α → Option α
  | .absent => current
  | .null => none
  | .value a => some a

/-- The value `Object.assign` leaves in a `NOT NULL` column, where saving `null`
    violates the constraint. -/
def Patch.notNull {α : Type} (column : String) (current : α) : Patch α → Except Thrown α
  | .absent => .ok current
  | .null =>
      .error (.error ("null value in column \"" ++ column ++ "\" violates not-null constraint"))
  | .value a => .ok a

/-- An accepted patch leaves the value it gives, or else the current one. -/
theorem notNull_ok {α : Type} {column : String} {current stored : α} {patch : Patch α}
    (h : patch.notNull column current = .ok stored) : stored = patch.getD current := by
  cases patch with
  | absent => exact (Except.ok.inj h).symm
  | null => cases h
  | value a => exact (Except.ok.inj h).symm

/-- A value stored in a `numeric(18, 4)` column: four decimals, rounded half
    away from zero, and fourteen digits before them. -/
def numeric184 (q : ℚ) : Except Thrown ℚ :=
  let units : Int := if 0 ≤ q then ⌊q * 10000 + 1 / 2⌋ else -⌊-q * 10000 + 1 / 2⌋
  if units.natAbs < 10 ^ 18 then .ok (units / 10000) else .error (.error "numeric field overflow")

example : numeric184 (-(123 / 100000)) = .ok (-(12 / 10000)) := by decide +kernel

/-- A text stored in a `character varying(length)` column. -/
def varchar (length : Nat) (text : String) : Except Thrown String :=
  if text.length ≤ length then .ok text
  else .error (.error ("value too long for type character varying(" ++ toString length ++ ")"))

def nullableVarchar (length : Nat) : Option String → Except Thrown (Option String)
  | none => .ok none
  | some text => (varchar length text).map some

/-- The text is absent or fits its column. -/
def FitsVarchar (length : Nat) (text : Option String) : Prop := ∀ t ∈ text, t.length ≤ length

instance (length : Nat) (text : Option String) : Decidable (FitsVarchar length text) :=
  inferInstanceAs (Decidable (∀ t ∈ text, t.length ≤ length))

theorem varchar_ok {length : Nat} {text stored : String} :
    varchar length text = .ok stored ↔ text.length ≤ length ∧ text = stored := by
  unfold varchar
  split <;> simp [*]

theorem nullableVarchar_ok {length : Nat} {text stored : Option String} :
    nullableVarchar length text = .ok stored ↔ FitsVarchar length text ∧ text = stored := by
  cases text with
  | none => simp [nullableVarchar, FitsVarchar]
  | some text =>
      by_cases h : text.length ≤ length <;>
        simp [nullableVarchar, varchar, FitsVarchar, Except.map, h]

/-- A text stored in a `uuid` column. -/
def uuidValue (text : String) : Except Thrown String :=
  if IsUuid text then .ok (pgUuid text)
  else .error (.error ("invalid input syntax for type uuid: \"" ++ text ++ "\""))

theorem uuidValue_ok {text stored : String} :
    uuidValue text = .ok stored ↔ IsUuid text ∧ pgUuid text = stored := by
  unfold uuidValue
  split <;> simp [*]

/-- The first instant of the type `timestamp`, in milliseconds.  Its last one is later
    than every `Date`. -/
def firstTimestamp : Int := -210866803200000

/-- A `Date` stored in a `timestamp` column. -/
def timestampValue : JsDate → Except Thrown JsDate
  | none => .error (.error "invalid input syntax for type timestamp")
  | some t => if firstTimestamp ≤ t then .ok (some t) else .error (.error "timestamp out of range")

def FitsTimestamp (date : JsDate) : Prop := ∃ t ∈ date, firstTimestamp ≤ t

instance (date : JsDate) : Decidable (FitsTimestamp date) :=
  inferInstanceAs (Decidable (∃ t ∈ date, firstTimestamp ≤ t))

theorem timestampValue_ok {date stored : JsDate} :
    timestampValue date = .ok stored ↔ FitsTimestamp date ∧ date = stored := by
  cases date with
  | none => simp [timestampValue, FitsTimestamp]
  | some t =>
      by_cases h : firstTimestamp ≤ t <;> simp [timestampValue, FitsTimestamp, h]

/-- A text stored in a `date` column, from the day PostgreSQL reads in it. -/
def dateValue (text : String) : Option String → Except Thrown String
  | none => .error (.error ("invalid input syntax for type date: \"" ++ text ++ "\""))
  | some day => .ok day

theorem dateValue_ok {text stored : String} {day : Option String} :
    dateValue text day = .ok stored ↔ day = some stored := by
  cases day <;> simp [dateValue]

/-- At most four decimals. -/
def FourDecimals (q : ℚ) : Prop := ∃ units : Int, q = units / 10000

/-- Rounding a value to units of its last stored decimal. -/
theorem round_units (n : Int) : ⌊(n : ℚ) / 10000 * 10000 + 1 / 2⌋ = n := by
  have hhalf : ⌊(1 : ℚ) / 2⌋ = 0 := by decide +kernel
  rw [div_mul_cancel₀ _ (by decide +kernel), Int.floor_intCast_add, hhalf, Int.add_zero]

/-- What is stored has four decimals, and is the value itself if that has. -/
theorem numeric184_ok {q stored : ℚ} (h : numeric184 q = .ok stored) :
    FourDecimals stored ∧ (stored = q ↔ FourDecimals q) := by
  have hstored : stored =
      (if 0 ≤ q then ⌊q * 10000 + 1 / 2⌋ else -⌊-q * 10000 + 1 / 2⌋ : Int) / 10000 := by
    unfold numeric184 at h
    dsimp only at h
    rw [ite_eq_iff] at h
    rcases h with ⟨-, h⟩ | ⟨-, h⟩
    · exact (Except.ok.inj h).symm
    · cases h
  have hfour : FourDecimals stored := ⟨_, hstored⟩
  refine ⟨hfour, fun heq => heq ▸ hfour, ?_⟩
  rintro ⟨units, rfl⟩
  rw [hstored, ← neg_div, ← Int.cast_neg, round_units, round_units, neg_neg, ite_self]

/-! ### Queries -/

/-- `findOne({ where: { id, idOrganization: organizationId } })`, with the
    `NotFoundException` of the service. -/
def findOneOf {ρ : Type} [TenantRow ρ] (entity : String) (table : Table ρ)
    (organizationId id : String) : Except Thrown ρ :=
  match table.rows.find? fun row =>
      key row = pgUuid id ∧ organization row = pgUuid organizationId with
  | some row => .ok row
  | none => .error (.error (entity ++ " with ID \"" ++ id ++ "\" not found"))

/-- Insert a row; its generated id has to be new. -/
def insertRow {ρ : Type} [Keyed ρ String] (table : Table ρ) (row : ρ) : Except Thrown (Table ρ) :=
  if table.Taken (key row) then
    .error (.error "duplicate key value violates unique constraint")
  else .ok (table.put row)

theorem insertRow_ok {ρ : Type} [Keyed ρ String] {table table' : Table ρ} {row : ρ}
    (h : insertRow table row = .ok table') :
    ¬ table.Taken (key row) ∧ table' = table.put row := by
  unfold insertRow at h
  split at h
  · cases h
  · rename_i hfresh
    cases h
    exact ⟨hfresh, rfl⟩

theorem insertRow_of_fresh {ρ : Type} [Keyed ρ String] {table : Table ρ} {row : ρ}
    (h : ¬ table.Taken (key row)) : insertRow table row = .ok (table.put row) := if_neg h

/-! ### A sample row -/

/-- A transaction that is neither blocked nor voided. -/
def openTransaction : Transaction where
  id := "f3b7d2c9-4e10-4a86-9d5f-70c1e8a2b364"
  idOrganization := sampleUuid
  idAccount := "acc"
  amount := 100
  amountNormalized := 100
  currency := "USD"
  type := "CASH_IN"
  datetime := some 0
  date := "1970-01-01"
  isVoided := false
  isBlocked := false
  isDeleted := false
  data := []
  country := none
  counterpartyId := none
  counterpartyCountry := none

end RulesEngine
