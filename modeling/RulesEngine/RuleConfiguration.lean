import RulesEngine.Database
import Mathlib.Data.List.Sort

/-!
# Rules, templates and overrides

`RuleTemplatesService`, `TemplateOverridesService` and `RulesService` over the
database, and the configuration a rule inherits: the template's config, the
organization's enabled override merged over it, and the rule's own config
merged over both.

A write either fails and leaves the database as it was, or commits and (for
rules and overrides) announces that the organization's cached rules are no
longer valid; the announcement is the business of the caller here.  Columns
that nothing below reads (`description`, `isDefault`, `createdBy`,
`updatedAt`) are left out.
-/

namespace RulesEngine.Rules

open RulesEngine.Foundations

/-! ### deepMerge -/

mutual

/-- The value `deepMerge` gives a property that the target has as `current` and
    the source as the argument: two objects are merged, anything else is the
    source's. -/
def mergeValue (current : Option Json) : Json → Json
  | .obj source =>
      match current with
      | some (.obj target) => .obj (mergeFields target target source)
      | _ => .obj source
  | .null => .null
  | .bool b => .bool b
  | .num q => .num q
  | .str s => .str s
  | .arr items => .arr items

/-- The loop of `deepMerge` over the properties of the source, last to first:
    JSON objects do not repeat a name, so the order shows only in the order of
    the new properties. -/
def mergeFields (target result : JsonObject) : JsonObject → JsonObject
  | [] => result
  | (name, value) :: rest =>
      (mergeFields target result rest).set name (mergeValue (target.get? name) value)

end

def deepMerge (target source : JsonObject) : JsonObject := mergeFields target target source

/-! ### RuleTemplatesService -/

structure CreateRuleTemplateDto where
  name : String
  config : Patch JsonObject

structure UpdateRuleTemplateDto where
  name : Patch String
  config : Patch JsonObject

def templateNotFound (id : String) : Thrown :=
  .error ("Rule template with ID \"" ++ id ++ "\" not found")

def findTemplate (db : Database) (id : String) : Except Thrown RuleTemplate :=
  match db.templates.get? (pgUuid id) with
  | some template => .ok template
  | none => .error (templateNotFound id)

/-- `name` is unique among the templates. -/
def uniqueName (db : Database) (template : RuleTemplate) : Except Thrown Unit :=
  if ∃ other ∈ db.templates.rows, other.name = template.name ∧ other.id ≠ template.id then
    .error (.error "duplicate key value violates unique constraint")
  else .ok ()

def createTemplate (dto : CreateRuleTemplateDto) (id : String) (db : Database) :
    Except Thrown Database := do
  let template : RuleTemplate := { id, name := dto.name, config := dto.config.getD [] }
  uniqueName db template
  let templates ← insertRow db.templates template
  return { db with templates }

def updateTemplate (id : String) (dto : UpdateRuleTemplateDto) (db : Database) :
    Except Thrown Database := do
  let template ← findTemplate db id
  let name ← dto.name.notNull "name" template.name
  let config ← dto.config.notNull "config" template.config
  let template' := { template with name, config }
  uniqueName db template'
  return { db with templates := db.templates.put template' }

/-- `ON DELETE SET NULL` for a rule of the removed template. -/
def clearTemplate (id : String) (rule : Rule) : Rule :=
  if rule.idTemplate = some id then { rule with idTemplate := none } else rule

theorem key_clearTemplate (id : String) (rule : Rule) : key (clearTemplate id rule) = key rule := by
  unfold clearTemplate
  split <;> rfl

/-- Removing a template detaches its rules and removes its overrides, as the
    foreign keys say. -/
def removeTemplate (id : String) (db : Database) : Except Thrown Database := do
  let template ← findTemplate db id
  return { db with
    templates := db.templates.retain fun other => other.id ≠ template.id
    overrides := db.overrides.retain fun override => override.idTemplate ≠ template.id
    rules := db.rules.mapRows (clearTemplate template.id) (key_clearTemplate template.id) }

/-! ### TemplateOverridesService -/

structure CreateTemplateOverrideDto where
  idTemplate : String
  overrides : Patch JsonObject
  enabled : Patch Bool

structure UpdateTemplateOverrideDto where
  overrides : Patch JsonObject
  enabled : Patch Bool

def findByTemplate (db : Database) (organizationId templateId : String) : Option TemplateOverride :=
  db.overrides.rows.find? fun override =>
    override.idOrganization = pgUuid organizationId ∧ override.idTemplate = pgUuid templateId

def findOverride (db : Database) : String → String → Except Thrown TemplateOverride :=
  findOneOf "Template override" db.overrides

def createOverride (organizationId : String) (dto : CreateTemplateOverrideDto) (id : String)
    (db : Database) : Except Thrown Database := do
  let template ← findTemplate db dto.idTemplate
  match findByTemplate db organizationId dto.idTemplate with
  | some _ => .error (.error ("Override for template \"" ++ dto.idTemplate ++
      "\" already exists for this organization"))
  | none => do
      let overrides ← insertRow db.overrides
        { id
          idOrganization := pgUuid organizationId
          idTemplate := template.id
          overrides := dto.overrides.getD []
          enabled := dto.enabled.getD true }
      return { db with overrides }

def updateOverride (organizationId id : String) (dto : UpdateTemplateOverrideDto) (db : Database) :
    Except Thrown Database := do
  let override ← findOverride db organizationId id
  let overrides ← dto.overrides.notNull "overrides" override.overrides
  let enabled ← dto.enabled.notNull "enabled" override.enabled
  return { db with overrides := db.overrides.put { override with overrides, enabled } }

def removeOverride (organizationId id : String) (db : Database) : Except Thrown Database := do
  let override ← findOverride db organizationId id
  return { db with overrides := db.overrides.retain fun other => other.id ≠ override.id }

/-- `getMergedConfig`: the template's config with the organization's override,
    when there is an enabled one. -/
def getMergedConfig (db : Database) (organizationId templateId : String) :
    Except Thrown JsonObject := do
  let template ← findTemplate db templateId
  match findByTemplate db organizationId templateId with
  | none => return template.config
  | some override =>
      if override.enabled then return deepMerge template.config override.overrides
      else return template.config

/-! ### RulesService -/

structure CreateRuleDto where
  idTemplate : Patch String
  name : String
  enabled : Patch Bool
  priority : Patch Nat
  config : Patch JsonObject

structure UpdateRuleDto where
  idTemplate : Patch String
  name : Patch String
  enabled : Patch Bool
  priority : Patch Nat
  config : Patch JsonObject

def findRule (db : Database) : String → String → Except Thrown Rule :=
  findOneOf "Rule" db.rules

/-- The foreign key from a rule to its template. -/
def templateExists (db : Database) : Option String → Except Thrown Unit
  | none => .ok ()
  | some id =>
      if db.templates.Taken id then .ok ()
      else .error (.error "insert or update on table \"rules\" violates foreign key constraint")

/-- `create`.  `createdAt` is the clock of the database. -/
def createRule (organizationId : String) (dto : CreateRuleDto) (id : String) (createdAt : Int)
    (db : Database) : Except Thrown Database := do
  let rule : Rule :=
    { id
      idOrganization := pgUuid organizationId
      idTemplate := (dto.idTemplate.nullable none).map pgUuid
      name := dto.name
      enabled := dto.enabled.getD true
      priority := dto.priority.getD 0
      config := dto.config.getD []
      createdAt }
  templateExists db rule.idTemplate
  let rules ← insertRow db.rules rule
  return { db with rules }

/-- The template that `save` stores for a rule, where the row has `stored`.  `save` takes
    the column from the relation `template` as `findOne` loaded it, which an update
    does not assign.  If none was loaded, it writes `idTemplate` where that differs
    from the row; otherwise the relation, which is `null`, is all it finds to write. -/
def savedTemplate (dto : UpdateRuleDto) (stored : Option String) (rule : Rule) : Option String :=
  match rule.idTemplate with
  | some idTemplate => some idTemplate
  | none =>
      let idTemplate := dto.idTemplate.nullable none
      if idTemplate = stored then none else idTemplate.map pgUuid

/-- `Object.assign(rule, updateDto)` and `save`, as far as the table accepts it. -/
def assignRule (dto : UpdateRuleDto) (stored : Option String) (rule : Rule) :
    Except Thrown Rule := do
  let name ← dto.name.notNull "name" rule.name
  let enabled ← dto.enabled.notNull "enabled" rule.enabled
  let priority ← dto.priority.notNull "priority" rule.priority
  let config ← dto.config.notNull "config" rule.config
  return { rule with idTemplate := savedTemplate dto stored rule, name, enabled, priority, config }

def updateRule (organizationId id : String) (dto : UpdateRuleDto) (db : Database) :
    Except Thrown Database := do
  let rule ← findRule db organizationId id
  let rule' ← assignRule dto rule.idTemplate rule
  templateExists db rule'.idTemplate
  return { db with rules := db.rules.put rule' }

def removeRule (organizationId id : String) (db : Database) : Except Thrown Database := do
  let rule ← findRule db organizationId id
  return { db with rules := db.rules.retain fun other => other.id ≠ rule.id }

/-- The order of `findEnabledByPriority`: `priority ASC, createdAt ASC`. -/
def RuleOrder (a b : Rule) : Prop :=
  a.priority < b.priority ∨ (a.priority = b.priority ∧ a.createdAt ≤ b.createdAt)

instance : DecidableRel RuleOrder := fun a b =>
  inferInstanceAs (Decidable (a.priority < b.priority ∨
    (a.priority = b.priority ∧ a.createdAt ≤ b.createdAt)))

/-- `findEnabledByPriority`.  Rules with equal sort keys come in storage order. -/
def findEnabledByPriority (db : Database) (organizationId : String) : List Rule :=
  (db.rules.rows.filter fun rule =>
    rule.idOrganization = pgUuid organizationId ∧ rule.enabled = true).insertionSort RuleOrder

def getEffectiveConfig (db : Database) (organizationId : String) (rule : Rule) :
    Except Thrown JsonObject :=
  match rule.idTemplate with
  | none => .ok rule.config
  | some idTemplate =>
      if idTemplate = "" then .ok rule.config
      else do
        let templateConfig ← getMergedConfig db organizationId idTemplate
        return deepMerge templateConfig rule.config

def getEffectiveConfigById (db : Database) (organizationId ruleId : String) :
    Except Thrown JsonObject := do
  let rule ← findRule db organizationId ruleId
  getEffectiveConfig db organizationId rule

/-! ### The row of an update -/

theorem assignRule_eq {dto : UpdateRuleDto} {stored : Option String} {rule rule' : Rule}
    (h : assignRule dto stored rule = .ok rule') :
    rule' = { rule with idTemplate := savedTemplate dto stored rule
                        name := dto.name.getD rule.name
                        enabled := dto.enabled.getD rule.enabled
                        priority := dto.priority.getD rule.priority
                        config := dto.config.getD rule.config } := by
  obtain ⟨name, hname, h⟩ := bind_eq_ok.mp h
  obtain ⟨enabled, henabled, h⟩ := bind_eq_ok.mp h
  obtain ⟨priority, hpriority, h⟩ := bind_eq_ok.mp h
  obtain ⟨config, hconfig, h⟩ := bind_eq_ok.mp h
  cases h
  rw [notNull_ok hname, notNull_ok henabled, notNull_ok hpriority, notNull_ok hconfig]

theorem assignRule_ok {dto : UpdateRuleDto} {stored : Option String} {rule rule' : Rule}
    (h : assignRule dto stored rule = .ok rule') :
    rule'.id = rule.id ∧ rule'.idOrganization = rule.idOrganization ∧
      rule'.createdAt = rule.createdAt := by
  rw [assignRule_eq h]
  exact ⟨rfl, rfl, rfl⟩

end RulesEngine.Rules
