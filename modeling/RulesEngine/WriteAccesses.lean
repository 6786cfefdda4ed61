import RulesEngine.Foundations.Accesses
import RulesEngine.ReferentialIntegrity
import RulesEngine.UpdateInterleaving

/-!
# The accesses of a write

The services check before they write: `findOne` and later `remove` or `save`, a
search for a duplicate and later an `INSERT`.  Here each write is the sequence of
its accesses to the database.  Between them other requests may get their turn,
so the last access carries the constraints of the table it writes to; alone, the
accesses are the operation of the application (`run_accesses`).
-/

namespace RulesEngine

open RulesEngine.Foundations
open RulesEngine.Rules
open RulesEngine.Lists
open RulesEngine.Engine
open RulesEngine.Transactions

/-! ### Requests -/

/-- A request that writes. -/
inductive Write where
  | rule (organizationId : String) (write : RuleWrite)
  | plain (organizationId : String) (write : PlainWrite)
  | template (write : TemplateWrite)

/-- The request as one operation of the application. -/
def Write.op : Write → Op
  | .rule organizationId write => .ruleWrite organizationId write
  | .plain organizationId write => .plainWrite organizationId write
  | .template write => .templateWrite write

/-! ### The last access -/

/-- The `UPDATE` of a loaded rule, or its `INSERT` if it is not there. -/
def saveLoadedRule (dto : UpdateRuleDto) (rule : Rule) (db : Database) :
    Except Thrown Database := do
  let rule' ← saveRule dto db rule
  return { db with rules := db.rules.put rule' }

def deleteRule (rule : Rule) (db : Database) : Database :=
  { db with rules := db.rules.retain fun other => other.id ≠ rule.id }

/-- The foreign key and the unique constraint of `template_overrides`. -/
def overrideConstraints (db : Database) (override : TemplateOverride) : Except Thrown Unit :=
  if ¬ db.templates.Taken override.idTemplate then
    .error (.error
      "insert or update on table \"template_overrides\" violates foreign key constraint")
  else if ∃ other ∈ db.overrides.rows, other.idOrganization = override.idOrganization ∧
      other.idTemplate = override.idTemplate ∧ other.id ≠ override.id then
    .error (.error "duplicate key value violates unique constraint")
  else .ok ()

def insertOverride (organizationId : String) (dto : CreateTemplateOverrideDto) (id : String)
    (db : Database) : Except Thrown Database := do
  let override : TemplateOverride :=
    { id
      idOrganization := pgUuid organizationId
      idTemplate := pgUuid dto.idTemplate
      overrides := dto.overrides.getD []
      enabled := dto.enabled.getD true }
  overrideConstraints db override
  let overrides ← insertRow db.overrides override
  return { db with overrides }

def saveLoadedOverride (dto : UpdateTemplateOverrideDto) (override : TemplateOverride)
    (db : Database) : Except Thrown Database := do
  let overrides ← dto.overrides.notNull "overrides" override.overrides
  let enabled ← dto.enabled.notNull "enabled" override.enabled
  let override' := { override with overrides, enabled }
  overrideConstraints db override'
  return { db with overrides := db.overrides.put override' }

def deleteOverride (override : TemplateOverride) (db : Database) : Database :=
  { db with overrides := db.overrides.retain fun other => other.id ≠ override.id }

def saveLoadedTemplate (dto : UpdateRuleTemplateDto) (template : RuleTemplate) (db : Database) :
    Except Thrown Database := do
  let name ← dto.name.notNull "name" template.name
  let config ← dto.config.notNull "config" template.config
  let template' := { template with name, config }
  uniqueName db template'
  return { db with templates := db.templates.put template' }

/-- A template goes, with the foreign key actions of its overrides and rules. -/
def withoutTemplate (id : String) (db : Database) : Database :=
  { db with
    templates := db.templates.retain fun other => other.id ≠ id
    overrides := db.overrides.retain fun override => override.idTemplate ≠ id
    rules := db.rules.mapRows (clearTemplate id) (key_clearTemplate id) }

/-- A `DELETE` that finds no row sets off no foreign key action. -/
def deleteTemplate (template : RuleTemplate) (db : Database) : Database :=
  if db.templates.Taken template.id then withoutTemplate template.id db else db

def insertListEntry (organizationId : String) (dto : CreateListEntryDto) (id : String)
    (db : Database) : Except Thrown Database := do
  let expiresAt ← storedTimestamp dto.expiresAt
  let entry : ListEntry :=
    { id
      idOrganization := pgUuid organizationId
      listType := dto.listType
      entityType := dto.entityType
      entityValue := dto.entityValue
      expiresAt }
  if ∃ other ∈ db.listEntries.rows, other.subject = entry.subject then
    .error (.error "duplicate key value violates unique constraint")
  else do
    let listEntries ← insertRow db.listEntries entry
    return { db with listEntries }

def deleteListEntry (entry : ListEntry) (db : Database) : Database :=
  { db with listEntries := db.listEntries.retain fun other => other.id ≠ entry.id }

/-- Transactions are never removed, so this is an `UPDATE`. -/
def saveLoadedTransaction (dto : UpdateTransactionDto) (tx : Transaction) (db : Database) :
    Except Thrown Database := do
  let tx' ← assignTransaction dto tx
  return { db with transactions := db.transactions.put tx' }

/-! ### The accesses of a request -/

/-- The search of `TemplateOverridesService.create`. -/
def noOverride (organizationId idTemplate : String) (db : Database) : Except Thrown Unit :=
  match findByTemplate db organizationId idTemplate with
  | some _ => .error (.error ("Override for template \"" ++ idTemplate ++
      "\" already exists for this organization"))
  | none => .ok ()

/-- The search of `ListsService.create`. -/
def noListEntry (organizationId : String) (dto : CreateListEntryDto) (db : Database) :
    Except Thrown Unit :=
  if ∃ entry ∈ db.listEntries.rows, entry.idOrganization = pgUuid organizationId ∧
      entry.listType = dto.listType ∧ entry.entityType = dto.entityType ∧
      entry.entityValue = dto.entityValue then
    .error (.error ("Entry already exists for " ++ ListType.name dto.listType ++ "/" ++
      EntityType.name dto.entityType ++ "/" ++ dto.entityValue))
  else .ok ()

def RuleWrite.accesses (organizationId : String) : RuleWrite → Accesses Database Thrown
  | .createRule dto id createdAt => .write (Rules.createRule organizationId dto id createdAt)
  | .updateRule id dto =>
      .read (findRule · organizationId id) fun rule => .write (saveLoadedRule dto rule)
  | .removeRule id =>
      .read (findRule · organizationId id) fun rule => .write fun db => .ok (deleteRule rule db)
  | .createOverride dto id =>
      .read (findTemplate · dto.idTemplate) fun _ =>
        .read (noOverride organizationId dto.idTemplate) fun _ =>
          .write (insertOverride organizationId dto id)
  | .updateOverride id dto =>
      .read (findOverride · organizationId id) fun override =>
        .write (saveLoadedOverride dto override)
  | .removeOverride id =>
      .read (findOverride · organizationId id) fun override =>
        .write fun db => .ok (deleteOverride override db)

def PlainWrite.accesses (organizationId : String) : PlainWrite → Accesses Database Thrown
  | .createListEntry dto id =>
      .read (noListEntry organizationId dto) fun _ => .write (insertListEntry organizationId dto id)
  | .removeListEntry id =>
      .read (findListEntry · organizationId id) fun entry =>
        .write fun db => .ok (deleteListEntry entry db)
  | .createTransaction dto id => .write (create organizationId dto id)
  | .updateTransaction id dto =>
      .read (findTransaction · organizationId id) fun tx => .write (saveLoadedTransaction dto tx)

def TemplateWrite.accesses : TemplateWrite → Accesses Database Thrown
  | .create dto id => .write (createTemplate dto id)
  | .update id dto =>
      .read (findTemplate · id) fun template => .write (saveLoadedTemplate dto template)
  | .remove id =>
      .read (findTemplate · id) fun template => .write fun db => .ok (deleteTemplate template db)

def Write.accesses : Write → Accesses Database Thrown
  | .rule organizationId write => write.accesses organizationId
  | .plain organizationId write => write.accesses organizationId
  | .template write => write.accesses

end RulesEngine
