import RulesEngine.AuditTrail
import RulesEngine.WriteAccesses
import RulesEngine.WriteOrigins

/-!
# What a write does in the end

Whatever other requests do between the accesses of a write, its last access has
one effect on the database (`serves_accesses`).  Creating and removing are their
own operations.  An update is one that names every column, with the values it
loaded where the request names none; that of a rule is the `UPDATE` of all
columns, since `RulesService.update` alone would keep the template the rule has by
then.  If the row has been removed meanwhile, `save` inserts it again.
-/

namespace RulesEngine

open RulesEngine.Foundations
open RulesEngine.Rules
open RulesEngine.Lists
open RulesEngine.Engine
open RulesEngine.Transactions

/-! ### What a request amounts to -/

/-- The patch, with another one where it says nothing. -/
def Patch.over {α : Type} : Patch α → Patch α → Patch α
  | .absent, other => other
  | .null, _ => .null
  | .value a, _ => .value a

@[simp] theorem Patch.getD_value {α : Type} (fallback a : α) : (value a).getD fallback = a := rfl

@[simp] theorem notNull_over {α : Type} (patch : Patch α) (column : String) (current other : α) :
    (patch.over (.value current)).notNull column other = patch.notNull column current := by
  cases patch <;> rfl

/-- The rule as updated, created anew, with the template it was loaded with if it had
    one. -/
def Rules.UpdateRuleDto.again (rule : Rule) (dto : UpdateRuleDto) : CreateRuleDto where
  idTemplate :=
    match rule.idTemplate with
    | some idTemplate => .value idTemplate
    | none => dto.idTemplate
  name := dto.name.getD rule.name
  enabled := .value (dto.enabled.getD rule.enabled)
  priority := .value (dto.priority.getD rule.priority)
  config := .value (dto.config.getD rule.config)

/-- The update of every column, as `save` carries it out. -/
def Rules.UpdateTemplateOverrideDto.over (override : TemplateOverride)
    (dto : UpdateTemplateOverrideDto) : UpdateTemplateOverrideDto where
  overrides := dto.overrides.over (.value override.overrides)
  enabled := dto.enabled.over (.value override.enabled)

def Rules.UpdateTemplateOverrideDto.again (override : TemplateOverride)
    (dto : UpdateTemplateOverrideDto) : CreateTemplateOverrideDto where
  idTemplate := override.idTemplate
  overrides := .value (dto.overrides.getD override.overrides)
  enabled := .value (dto.enabled.getD override.enabled)

def Rules.UpdateRuleTemplateDto.over (template : RuleTemplate) (dto : UpdateRuleTemplateDto) :
    UpdateRuleTemplateDto where
  name := dto.name.over (.value template.name)
  config := dto.config.over (.value template.config)

def Rules.UpdateRuleTemplateDto.again (template : RuleTemplate) (dto : UpdateRuleTemplateDto) :
    CreateRuleTemplateDto where
  name := dto.name.getD template.name
  config := .value (dto.config.getD template.config)

def Transactions.UpdateTransactionDto.over (tx : Transaction) (dto : UpdateTransactionDto) :
    UpdateTransactionDto where
  isBlocked := dto.isBlocked.over (.value tx.isBlocked)
  isVoided := dto.isVoided.over (.value tx.isVoided)

/-- The `UPDATE` of all columns of a loaded rule that is still there. -/
def updateLoadedRule (dto : UpdateRuleDto) (rule : Rule) (db : Database) :
    Except Thrown Database :=
  if db.rules.Taken rule.id then saveLoadedRule dto rule db else .error .other

/-- What a request does to the database at its last access. -/
inductive WriteEffect where
  | operation (op : Op)
  | ruleSaved (dto : UpdateRuleDto) (rule : Rule)

instance : Coe Op WriteEffect := ⟨.operation⟩

def WriteEffect.write : WriteEffect → Database → Except Thrown Database
  | .operation op => op.write
  | .ruleSaved dto rule => updateLoadedRule dto rule

@[simp] theorem WriteEffect.write_operation (op : Op) (db : Database) :
    (operation op).write db = op.write db := rfl

/-- A refused write leaves the database as it was. -/
def WriteEffect.exec (db : Database) (effect : WriteEffect) : Option Database :=
  match effect.write db with
  | .ok db' => some db'
  | .error _ => some db

/-- The effect a request is carried out as: its own operation, or an update with the
    columns of the row it has loaded, which may have to be created anew. -/
inductive Write.CarriedOutAs : Write → WriteEffect → Prop where
  | itself (write : Write) : CarriedOutAs write write.op
  | ruleSaved {organizationId id : String} {dto : UpdateRuleDto} (rule : Rule) :
      rule.id = pgUuid id → rule.idOrganization = pgUuid organizationId →
      CarriedOutAs (.rule organizationId (.updateRule id dto)) (.ruleSaved dto rule)
  | ruleAgain {organizationId id : String} {dto : UpdateRuleDto} (rule : Rule) :
      rule.id = pgUuid id →
      CarriedOutAs (.rule organizationId (.updateRule id dto))
        (Op.ruleWrite organizationId (.createRule (dto.again rule) rule.id rule.createdAt))
  | overrideSaved {organizationId id : String} {dto : UpdateTemplateOverrideDto}
      (override : TemplateOverride) : override.id = pgUuid id →
      CarriedOutAs (.rule organizationId (.updateOverride id dto))
        (Op.ruleWrite organizationId (.updateOverride id (dto.over override)))
  | overrideAgain {organizationId id : String} {dto : UpdateTemplateOverrideDto}
      (override : TemplateOverride) : override.id = pgUuid id →
      CarriedOutAs (.rule organizationId (.updateOverride id dto))
        (Op.ruleWrite organizationId (.createOverride (dto.again override) override.id))
  | templateSaved {id : String} {dto : UpdateRuleTemplateDto} (template : RuleTemplate) :
      template.id = pgUuid id →
      CarriedOutAs (.template (.update id dto))
        (Op.templateWrite (.update id (dto.over template)))
  | templateAgain {id : String} {dto : UpdateRuleTemplateDto} (template : RuleTemplate) :
      template.id = pgUuid id →
      CarriedOutAs (.template (.update id dto))
        (Op.templateWrite (.create (dto.again template) template.id))
  | transactionSaved {organizationId id : String} {dto : UpdateTransactionDto}
      (tx : Transaction) : tx.id = pgUuid id →
      CarriedOutAs (.plain organizationId (.updateTransaction id dto))
        (Op.plainWrite organizationId (.updateTransaction id (dto.over tx)))

/-- The request removes a row. -/
def Write.Removes : Write → Prop
  | .rule _ (.removeRule _) | .rule _ (.removeOverride _) => True
  | .plain _ (.removeListEntry _) => True
  | .template (.remove _) => True
  | _ => False

/-- What a request does to the database at its last access: the effect it is carried
    out as, unless it removes a row that has gone already. -/
inductive Write.TakesEffect (Admits : WriteEffect → Prop) (write : Write) (db : Database) :
    Except Thrown Database → Prop where
  | accepted {effect : WriteEffect} {db' : Database} : write.CarriedOutAs effect → Admits effect →
      effect.write db = .ok db' → TakesEffect Admits write db (.ok db')
  | gone {e : Thrown} : write.Removes → Admits write.op → write.op.write db = .error e →
      TakesEffect Admits write db (.ok db)
  | refused {effect : WriteEffect} {e e' : Thrown} : write.CarriedOutAs effect → Admits effect →
      effect.write db = .error e' → TakesEffect Admits write db (.error e)

theorem Write.TakesEffect.mono {Admits Admits' : WriteEffect → Prop}
    (himp : ∀ effect, Admits effect → Admits' effect) {write : Write} {db : Database}
    {outcome : Except Thrown Database} (h : write.TakesEffect Admits db outcome) :
    write.TakesEffect Admits' db outcome := by
  cases h with
  | accepted heffect hadmits hwrite => exact .accepted heffect (himp _ hadmits) hwrite
  | gone hremoves hadmits hwrite => exact .gone hremoves (himp _ hadmits) hwrite
  | refused heffect hadmits hwrite => exact .refused heffect (himp _ hadmits) hwrite

/-- An outcome with the successes of an effect. -/
theorem takesEffect_of_iff {Admits : WriteEffect → Prop} {write : Write} {effect : WriteEffect}
    {db : Database} {outcome : Except Thrown Database} (heffect : write.CarriedOutAs effect)
    (hadmits : Admits effect) (h : ∀ db', outcome = .ok db' ↔ effect.write db = .ok db') :
    write.TakesEffect Admits db outcome := by
  cases outcome with
  | ok db' => exact .accepted heffect hadmits ((h db').mp rfl)
  | error e =>
      cases hwrite : effect.write db with
      | ok db' => cases (h db').mpr hwrite
      | error e' => exact .refused heffect hadmits hwrite

/-! ### What the accesses of a request rely on -/

/-- References are intact, and rows come from where their ids say. -/
structure Reliable (origins : Origins) (db : Database) : Prop where
  referential : Referential db
  originated : Originated origins db

/-- Transactions stay, with all that `update` does not assign. -/
def KeepsTransactions (db db' : Database) : Prop :=
  Table.Continues Transaction.fixed db.transactions db'.transactions

/-- The operation has canonical ids that say what it creates; the rule comes from where
    its id says. -/
def WriteEffect.Fits (origins : Origins) : WriteEffect → Prop
  | .operation op => op.Fits origins
  | .ruleSaved _ rule => rule.From origins

/-- The ids of the rows it inserts are canonical. -/
def WriteEffect.CanonicalIds : WriteEffect → Prop
  | .operation op => op.CanonicalIds
  | .ruleSaved .. => True

theorem WriteEffect.Fits.canonicalIds {origins : Origins} {effect : WriteEffect}
    (h : effect.Fits origins) : effect.CanonicalIds := by
  cases effect with
  | operation op => exact h.1
  | ruleSaved => trivial

/-- The remaining accesses of a request do what it amounts to. -/
def Write.Serves (origins : Origins) (write : Write) (rest : Accesses Database Thrown)
    (db : Database) : Prop :=
  rest.Serves (Reliable origins) KeepsTransactions (write.TakesEffect (WriteEffect.Fits origins)) db

/-- The row found by `findOne`, looked for again later: there is one in its place,
    or it has gone. -/
theorem found_later {ρ : Type} [TenantRow ρ] {table table' : Table ρ} {entity : String}
    {organizationId id : String} {row : ρ}
    (hfind : findOneOf entity table organizationId id = .ok row)
    (horigin : ∀ row' ∈ table'.rows, key row' = key row → organization row' = organization row) :
    (∃ row' ∈ table'.rows, key row' = key row ∧
        findOneOf entity table' organizationId id = .ok row') ∨
      (¬ table'.Taken (key row) ∧ ∃ e, findOneOf entity table' organizationId id = .error e) := by
  obtain ⟨-, hkey, horg⟩ := findOneOf_ok hfind
  by_cases htaken : table'.Taken (key row)
  · obtain ⟨row', hrow', hsame⟩ := List.mem_map.mp htaken
    have horg' := (horigin row' hrow' hsame).trans horg
    exact Or.inl ⟨row', hrow', hsame, findOneOf_of_mem hrow' (hsame.trans hkey) horg' entity⟩
  · refine Or.inr ⟨htaken, ?_⟩
    cases hlater : findOneOf entity table' organizationId id with
    | error e => exact ⟨e, rfl⟩
    | ok row' =>
        obtain ⟨hrow', hkey', -⟩ := findOneOf_ok hlater
        exact absurd (hkey'.trans hkey.symm ▸ Table.taken_of_mem hrow') htaken

section Requests

variable {origins : Origins} {write : Write} {organizationId id : String}

/-- An operation for which no id is generated. -/
theorem fits_of_no_ids {op : Op} (hids : op.generatedIds = []) (hcreates : op.Creates origins) :
    op.Fits origins := by
  refine ⟨fun id hid => ?_, hcreates⟩
  rw [hids] at hid
  cases hid

/-- An operation that inserts a row again under its canonical id. -/
theorem fits_of_canonical {op : Op} {id' : String} (hids : op.generatedIds = [id'])
    (hcanonical : pgUuid id' = id') (hcreates : op.Creates origins) : op.Fits origins := by
  refine ⟨fun id hid => ?_, hcreates⟩
  rw [hids] at hid
  rw [List.mem_singleton.mp hid, hcanonical]

/-- A request of a single access. -/
theorem serves_itself (write : Write) (hfits : write.op.Fits origins) (db : Database) :
    write.Serves origins (.write write.op.write) db :=
  fun _ _ _ => takesEffect_of_iff (.itself write) hfits fun _ => Iff.rfl

/-- The operation of a request begins with a search that fails. -/
theorem refused_of_search {α : Type} {search : Except Thrown α} {f : α → Except Thrown Database}
    {db : Database} {e e' : Thrown} (hfits : write.op.Fits origins)
    (hwrite : write.op.write db = search >>= f) (h : search = .error e) :
    write.TakesEffect (WriteEffect.Fits origins) db (.error e') := by
  have hrefused : (WriteEffect.operation write.op).write db = .error e := by
    rw [WriteEffect.write_operation, hwrite, h, error_bind]
  exact .refused (.itself write) hfits hrefused

theorem gone_of_search {α : Type} {search : Except Thrown α} {f : α → Except Thrown Database}
    {db : Database} {e : Thrown} (hfits : write.op.Fits origins) (hremoves : write.Removes)
    (hwrite : write.op.write db = search >>= f) (h : search = .error e) :
    write.TakesEffect (WriteEffect.Fits origins) db (.ok db) := by
  have hrefused : (WriteEffect.operation write.op).write db = .error e := by
    rw [WriteEffect.write_operation, hwrite, h, error_bind]
  exact .gone hremoves hfits hrefused

/-- `findOne` and `remove`. -/
theorem serves_removal {ρ : Type} [TenantRow ρ] {entity : String} (table : Database → Table ρ)
    (delete : ρ → Database → Database) (hfits : write.op.Fits origins) (hremoves : write.Removes)
    (hwrite : ∀ db, write.op.write db =
      findOneOf entity (table db) organizationId id >>= fun row => .ok (delete row db))
    (hdelete : ∀ row row' db, key row' = key row → delete row' db = delete row db)
    (hgone : ∀ row db, ¬ (table db).Taken (key row) → delete row db = db)
    (horigin : ∀ db db', Reliable origins db → Reliable origins db' → ∀ row ∈ (table db).rows,
      ∀ row' ∈ (table db').rows, key row' = key row → organization row' = organization row)
    (db : Database) :
    write.Serves origins (.read (fun db => findOneOf entity (table db) organizationId id)
      fun row => .write fun db => .ok (delete row db)) db := by
  intro t _ ht
  constructor
  · intro row hfind u _ hu
    rcases found_later hfind (horigin t u ht hu row (findOneOf_ok hfind).1) with
      ⟨row', -, hkey, hlater⟩ | ⟨htaken, e, hlater⟩
    · refine .accepted (.itself write) hfits ?_
      rw [WriteEffect.write_operation, hwrite, hlater, ← hdelete row row' u hkey]
      rfl
    · simp only [hgone row u htaken]
      exact gone_of_search hfits hremoves (hwrite u) hlater
  · intro e hfind
    exact refused_of_search hfits (hwrite t) hfind

theorem retain_of_not_taken {ρ : Type} [Keyed ρ String] {table : Table ρ} {k : String}
    (h : ¬ table.Taken k) : (table.retain fun row => key row ≠ k) = table := by
  have hrows : (table.rows.filter fun row => key row ≠ k) = table.rows := by
    rw [List.filter_eq_self]
    intro row hrow
    exact decide_eq_true fun heq => h (heq ▸ Table.taken_of_mem hrow)
  cases table
  simp only [Table.retain, hrows]

theorem organization_eq_of_rules {db db' : Database} (h : Reliable origins db)
    (h' : Reliable origins db') {rule rule' : Rule} (hrule : rule ∈ db.rules.rows)
    (hrule' : rule' ∈ db'.rules.rows) (hid : rule'.id = rule.id) :
    rule'.idOrganization = rule.idOrganization ∧ rule'.createdAt = rule.createdAt := by
  have hfrom : rule.From origins := h.originated.rules rule hrule
  exact hfrom.eq_of_id (h'.originated.rules rule' hrule') hid

theorem origin_eq_of_overrides {db db' : Database} (h : Reliable origins db)
    (h' : Reliable origins db') {override override' : TemplateOverride}
    (hoverride : override ∈ db.overrides.rows) (hoverride' : override' ∈ db'.overrides.rows)
    (hid : override'.id = override.id) :
    override'.idOrganization = override.idOrganization ∧
      override'.idTemplate = override.idTemplate := by
  have hfrom : override.From origins := h.originated.overrides override hoverride
  have hfrom' : override'.From origins := h'.originated.overrides override' hoverride'
  rw [TemplateOverride.From, hid, hfrom] at hfrom'
  obtain ⟨horg, htemplate⟩ := Prod.mk.inj hfrom'
  exact ⟨horg.symm, htemplate.symm⟩

theorem serves_removeRule (db : Database) :
    (Write.rule organizationId (.removeRule id)).Serves origins
      (RuleWrite.accesses organizationId (.removeRule id)) db := by
  apply serves_removal Database.rules deleteRule
  · exact fits_of_no_ids rfl trivial
  · trivial
  · exact fun _ => rfl
  · intro row row' db hkey
    simp only [deleteRule, show row'.id = row.id from hkey]
  · intro row db htaken
    simp only [deleteRule]
    rw [show (db.rules.retain fun other => other.id ≠ row.id) = db.rules from
      retain_of_not_taken htaken]
  · intro db db' h h' row hrow row' hrow' hkey
    exact (organization_eq_of_rules h h' hrow hrow' hkey).1

theorem serves_removeOverride (db : Database) :
    (Write.rule organizationId (.removeOverride id)).Serves origins
      (RuleWrite.accesses organizationId (.removeOverride id)) db := by
  apply serves_removal Database.overrides deleteOverride
  · exact fits_of_no_ids rfl trivial
  · trivial
  · exact fun _ => rfl
  · intro row row' db hkey
    simp only [deleteOverride, show row'.id = row.id from hkey]
  · intro row db htaken
    simp only [deleteOverride]
    rw [show (db.overrides.retain fun other => other.id ≠ row.id) = db.overrides from
      retain_of_not_taken htaken]
  · intro db db' h h' row hrow row' hrow' hkey
    exact (origin_eq_of_overrides h h' hrow hrow' hkey).1

theorem serves_removeListEntry (db : Database) :
    (Write.plain organizationId (.removeListEntry id)).Serves origins
      (PlainWrite.accesses organizationId (.removeListEntry id)) db := by
  apply serves_removal Database.listEntries deleteListEntry
  · exact fits_of_no_ids rfl trivial
  · trivial
  · exact fun _ => rfl
  · intro row row' db hkey
    simp only [deleteListEntry, show row'.id = row.id from hkey]
  · intro row db htaken
    simp only [deleteListEntry]
    rw [show (db.listEntries.retain fun other => other.id ≠ row.id) = db.listEntries from
      retain_of_not_taken htaken]
  · intro db db' h h' row hrow row' hrow' hkey
    have hfrom : row.From origins := h.originated.entries row hrow
    have hfrom' : row'.From origins := h'.originated.entries row' hrow'
    rw [ListEntry.From, show row'.id = row.id from hkey, hfrom] at hfrom'
    exact hfrom'.symm

theorem findTemplate_of_taken {db : Database} {id : String} (h : db.templates.Taken (pgUuid id)) :
    ∃ template ∈ db.templates.rows, template.id = pgUuid id ∧
      findTemplate db id = .ok template := by
  cases hget : db.templates.get? (pgUuid id) with
  | none => exact absurd h (Table.get?_eq_none_iff.mp hget)
  | some template =>
      obtain ⟨hmem, hid⟩ := Table.mem_of_get? hget
      exact ⟨template, hmem, hid, by rw [findTemplate, hget]⟩

theorem findTemplate_of_not_taken {db : Database} {id : String}
    (h : ¬ db.templates.Taken (pgUuid id)) : findTemplate db id = .error (templateNotFound id) := by
  rw [findTemplate, Table.get?_eq_none_iff.mpr h]

theorem removeTemplate_of_find {db : Database} {template : RuleTemplate}
    (h : findTemplate db id = .ok template) :
    removeTemplate id db = .ok (deleteTemplate template db) := by
  have htaken : db.templates.Taken template.id := Table.taken_of_mem (findTemplate_mem h)
  simp only [removeTemplate, h, deleteTemplate, if_pos htaken]
  rfl

theorem serves_removeTemplate (db : Database) :
    (Write.template (.remove id)).Serves origins (TemplateWrite.accesses (.remove id)) db := by
  have hfits : (Op.templateWrite (.remove id)).Fits origins := fits_of_no_ids rfl trivial
  intro t _ _
  constructor
  · intro template hfind u _ _
    have hid := findTemplate_id hfind
    by_cases htaken : u.templates.Taken (pgUuid id)
    · obtain ⟨template', -, hid', hlater⟩ := findTemplate_of_taken htaken
      have hsame : deleteTemplate template' u = deleteTemplate template u := by
        simp only [deleteTemplate, hid'.trans hid.symm]
      refine .accepted (.itself _) hfits ?_
      rw [← hsame]
      exact removeTemplate_of_find hlater
    · simp only [deleteTemplate, hid, if_neg htaken]
      exact gone_of_search hfits trivial rfl (findTemplate_of_not_taken htaken)
  · exact fun e hfind => refused_of_search hfits rfl hfind

/-! ### Updates -/

/-- The `INSERT` of a rule that is not there any more. -/
theorem createRule_again {dto : UpdateRuleDto} {rule : Rule} {db db' : Database}
    (horg : rule.idOrganization = pgUuid organizationId)
    (hcanonical : ∀ idTemplate ∈ rule.idTemplate, pgUuid idTemplate = idTemplate)
    (htaken : ¬ db.rules.Taken rule.id) (h : saveLoadedRule dto rule db = .ok db') :
    createRule organizationId (dto.again rule) rule.id rule.createdAt db = .ok db' := by
  obtain ⟨rule', hsave, h⟩ := bind_eq_ok.mp h
  cases h
  have hassign := assignRule_eq (saveRule_ok hsave)
  obtain ⟨assigned, -, hsave⟩ := bind_eq_ok.mp hsave
  obtain ⟨⟨⟩, hexists, hsave⟩ := bind_eq_ok.mp hsave
  cases hsave
  have hstored : storedTemplate db rule = none := by
    rw [storedTemplate, Table.get?_eq_none_iff.mpr htaken, Option.bind_none]
  have htemplate : ((dto.again rule).idTemplate.nullable none).map pgUuid = rule'.idTemplate := by
    rw [hassign, hstored]
    unfold savedTemplate UpdateRuleDto.again
    cases hloaded : rule.idTemplate with
    | some idTemplate => exact congrArg some (hcanonical idTemplate hloaded)
    | none => cases dto.idTemplate <;> rfl
  refine bind_eq_ok.mpr ⟨(), ?_, bind_eq_ok.mpr ⟨db.rules.put rule', ?_, rfl⟩⟩
  · rw [htemplate]
    exact hexists
  · have hnew : insertRow db.rules rule' = .ok (db.rules.put rule') := by
      apply insertRow_of_fresh
      rw [hassign]
      exact htaken
    rw [← hnew, htemplate]
    simp only [UpdateRuleDto.again, Patch.getD_value, ← horg]
    rw [hassign]

theorem canonical_of_taken {db : Database} (hdb : Referential db) {id : String}
    (h : db.templates.Taken id) : pgUuid id = id := by
  obtain ⟨template, htemplate, rfl⟩ := List.mem_map.mp h
  exact hdb.wellFormed.templateIds template htemplate

theorem serves_updateRule (dto : UpdateRuleDto) (db : Database) :
    (Write.rule organizationId (.updateRule id dto)).Serves origins
      (RuleWrite.accesses organizationId (.updateRule id dto)) db := by
  have hfits : (Op.ruleWrite organizationId (.updateRule id dto)).Fits origins :=
    fits_of_no_ids rfl trivial
  intro t _ ht
  constructor
  · intro rule hfind u _ hu
    obtain ⟨hrule, hid, horg⟩ := findOneOf_ok hfind
    rcases found_later hfind fun rule' hrule' hkey =>
        (organization_eq_of_rules ht hu hrule hrule' hkey).1 with
      ⟨rule', hrule', hkey, hlater⟩ | ⟨htaken, e, hlater⟩
    · have htaken : u.rules.Taken (key rule) := hkey ▸ Table.taken_of_mem hrule'
      refine takesEffect_of_iff (.ruleSaved rule hid horg) ?_ ?_
      · exact ht.originated.rules rule hrule
      · intro db'
        rw [WriteEffect.write, updateLoadedRule,
          if_pos (show u.rules.Taken rule.id from htaken)]
    · cases hsave : saveLoadedRule dto rule u with
      | ok db' =>
          have hcreates : origins.rule rule.id = (pgUuid organizationId, rule.createdAt) :=
            horg ▸ ht.originated.rules rule hrule
          have hcanonical : pgUuid rule.id = rule.id := by
            rw [show rule.id = pgUuid id from hid, pgUuid_pgUuid]
          have htemplate : ∀ idTemplate ∈ rule.idTemplate, pgUuid idTemplate = idTemplate :=
            fun idTemplate hmem => canonical_of_taken ht.referential
              (ht.referential.wellFormed.templates rule hrule idTemplate hmem)
          exact .accepted (.ruleAgain rule hid) (fits_of_canonical rfl hcanonical hcreates)
            (createRule_again horg htemplate htaken hsave)
      | error e' =>
          exact refused_of_search hfits rfl hlater
  · exact fun e hfind => refused_of_search hfits rfl hfind

theorem updateTemplate_over {dto : UpdateRuleTemplateDto} {template template' : RuleTemplate}
    {db : Database} (hfind : findTemplate db id = .ok template')
    (hid : template'.id = template.id) :
    updateTemplate id (dto.over template) db = saveLoadedTemplate dto template db := by
  simp only [updateTemplate, hfind, ok_bind, saveLoadedTemplate, UpdateRuleTemplateDto.over,
    notNull_over, hid]

theorem createTemplate_again {dto : UpdateRuleTemplateDto} {template : RuleTemplate}
    {db db' : Database} (htaken : ¬ db.templates.Taken template.id)
    (h : saveLoadedTemplate dto template db = .ok db') :
    createTemplate (dto.again template) template.id db = .ok db' := by
  obtain ⟨name, hname, h⟩ := bind_eq_ok.mp h
  obtain ⟨config, hconfig, h⟩ := bind_eq_ok.mp h
  obtain ⟨⟨⟩, hunique, h⟩ := bind_eq_ok.mp h
  cases h
  obtain rfl := notNull_ok hname
  obtain rfl := notNull_ok hconfig
  exact bind_eq_ok.mpr ⟨(), hunique, bind_eq_ok.mpr ⟨_, insertRow_of_fresh htaken, rfl⟩⟩

theorem serves_updateTemplate (dto : UpdateRuleTemplateDto) (db : Database) :
    (Write.template (.update id dto)).Serves origins (TemplateWrite.accesses (.update id dto))
      db := by
  have hfits : (Op.templateWrite (.update id dto)).Fits origins := fits_of_no_ids rfl trivial
  intro t _ _
  constructor
  · intro template hfind u _ _
    have hid := findTemplate_id hfind
    by_cases htaken : u.templates.Taken (pgUuid id)
    · obtain ⟨template', -, hid', hlater⟩ := findTemplate_of_taken htaken
      refine takesEffect_of_iff (.templateSaved template hid) ?_ ?_
      · exact fits_of_no_ids rfl trivial
      · intro db'
        rw [← updateTemplate_over hlater (hid'.trans hid.symm)]
        rfl
    · cases hsave : saveLoadedTemplate dto template u with
      | ok db' =>
          have hcanonical : pgUuid template.id = template.id := by rw [hid, pgUuid_pgUuid]
          exact .accepted (.templateAgain template hid) (fits_of_canonical rfl hcanonical trivial)
            (createTemplate_again (hid ▸ htaken) hsave)
      | error e' =>
          exact refused_of_search hfits rfl (findTemplate_of_not_taken htaken)
  · exact fun e hfind => refused_of_search hfits rfl hfind

theorem serves_updateTransaction (dto : UpdateTransactionDto) (db : Database) :
    (Write.plain organizationId (.updateTransaction id dto)).Serves origins
      (PlainWrite.accesses organizationId (.updateTransaction id dto)) db := by
  intro t _ _
  constructor
  · intro tx hfind u hkeeps _
    obtain ⟨htx, hid, horg⟩ := findOneOf_ok hfind
    obtain ⟨tx', htx', hfixed⟩ := Table.Continues.exists_row hkeeps htx
    have hkey := congrArg Transaction.id hfixed
    have horg' := congrArg Transaction.idOrganization hfixed
    have hlater : findTransaction u organizationId id = .ok tx' :=
      findOneOf_of_mem htx' (hkey.trans hid) (horg'.trans horg) "Transaction"
    refine takesEffect_of_iff (.transactionSaved tx hid) ?_ ?_
    · exact fits_of_no_ids rfl trivial
    · intro db'
      have hsame : ∀ isBlocked isVoided, { tx' with isBlocked, isVoided } =
          ({ tx with isBlocked, isVoided } : Transaction) := by
        intro isBlocked isVoided
        exact congrArg (fun row : Transaction => { row with isBlocked, isVoided }) hfixed
      simp only [WriteEffect.write, Op.write, PlainWrite.run, update, hlater, saveLoadedTransaction,
        assignTransaction, UpdateTransactionDto.over, notNull_over, bind_assoc, pure_bind, ok_bind,
        hsame]
  · have hfits : (Op.plainWrite organizationId (.updateTransaction id dto)).Fits origins :=
      fits_of_no_ids rfl trivial
    exact fun e hfind => refused_of_search hfits rfl hfind

/-! ### Overrides and list entries -/

theorem overrideConstraints_ok_iff {db : Database} {override : TemplateOverride} :
    overrideConstraints db override = .ok () ↔ db.templates.Taken override.idTemplate ∧
      ∀ other ∈ db.overrides.rows, other.idOrganization = override.idOrganization →
        other.idTemplate = override.idTemplate → other.id = override.id := by
  unfold overrideConstraints
  split
  · rename_i hnot
    exact ⟨fun h => absurd h error_ne_ok, fun h => absurd h.1 hnot⟩
  · rename_i htaken
    split
    · rename_i hother
      obtain ⟨other, hmem, horg, htemplate, hid⟩ := hother
      exact ⟨fun h => absurd h error_ne_ok, fun h => absurd (h.2 other hmem horg htemplate) hid⟩
    · rename_i hnone
      refine ⟨fun _ => ⟨not_not.mp htaken, ?_⟩, fun _ => rfl⟩
      intro other hmem horg htemplate
      by_contra hid
      exact hnone ⟨other, hmem, horg, htemplate, hid⟩

theorem findByTemplate_eq_none_iff {db : Database} {organizationId templateId : String} :
    findByTemplate db organizationId templateId = none ↔
      ∀ override ∈ db.overrides.rows, override.idOrganization = pgUuid organizationId →
        override.idTemplate ≠ pgUuid templateId := by
  refine ⟨findByTemplate_none, fun h => ?_⟩
  unfold findByTemplate
  rw [List.find?_eq_none]
  intro override hmem
  simp only [decide_eq_true_eq, not_and]
  exact h override hmem

/-- The constraints of the table refuse an override exactly when `create` would. -/
theorem insertOverride_ok_iff {dto : CreateTemplateOverrideDto} {db db' : Database} :
    insertOverride organizationId dto id db = .ok db' ↔
      createOverride organizationId dto id db = .ok db' := by
  constructor
  · intro h
    obtain ⟨⟨⟩, hconstraints, h⟩ := bind_eq_ok.mp h
    obtain ⟨table, hinsert, h⟩ := bind_eq_ok.mp h
    obtain ⟨htaken, hsole⟩ := overrideConstraints_ok_iff.mp hconstraints
    obtain ⟨template, -, hid, hfind⟩ := findTemplate_of_taken htaken
    have hnone : findByTemplate db organizationId dto.idTemplate = none := by
      rw [findByTemplate_eq_none_iff]
      intro other hother horg htemplate
      have hkey : other.id = id := hsole other hother horg htemplate
      have htaken' : db.overrides.Taken other.id := Table.taken_of_mem hother
      rw [hkey] at htaken'
      exact (insertRow_ok hinsert).1 htaken'
    simp only [createOverride, hfind, ok_bind, hnone, hid]
    exact bind_eq_ok.mpr ⟨table, hinsert, h⟩
  · intro h
    obtain ⟨template, hfind, h⟩ := bind_eq_ok.mp h
    have hid := findTemplate_id hfind
    cases hfound : findByTemplate db organizationId dto.idTemplate with
    | some override =>
        rw [hfound] at h
        cases h
    | none =>
        rw [hfound] at h
        obtain ⟨table, hinsert, h⟩ := bind_eq_ok.mp h
        rw [hid] at hinsert
        refine bind_eq_ok.mpr ⟨(), overrideConstraints_ok_iff.mpr ⟨?_, ?_⟩,
          bind_eq_ok.mpr ⟨table, hinsert, h⟩⟩
        · exact hid ▸ Table.taken_of_mem (findTemplate_mem hfind)
        · intro other hother horg htemplate
          exact absurd htemplate (findByTemplate_none hfound other hother horg)

theorem serves_createOverride {dto : CreateTemplateOverrideDto}
    (hfits : (Op.ruleWrite organizationId (.createOverride dto id)).Fits origins)
    (db : Database) :
    (Write.rule organizationId (.createOverride dto id)).Serves origins
      (RuleWrite.accesses organizationId (.createOverride dto id)) db := by
  intro t _ _
  refine ⟨fun template _ u _ _ => ⟨fun _ _ v _ _ => ?_, fun e hfound => ?_⟩, fun e hfind => ?_⟩
  · exact takesEffect_of_iff (.itself _) hfits fun db' => insertOverride_ok_iff
  · -- the template may have gone as well by now
    refine takesEffect_of_iff (.itself _) hfits fun db' => ?_
    refine ⟨fun h => absurd h error_ne_ok, fun h => ?_⟩
    obtain ⟨template', -, h⟩ := bind_eq_ok.mp h
    unfold noOverride at hfound
    cases hsome : findByTemplate u organizationId dto.idTemplate with
    | none =>
        rw [hsome] at hfound
        cases hfound
    | some override =>
        rw [hsome] at h
        cases h
  · exact refused_of_search hfits rfl hfind

theorem insertListEntry_ok_iff {dto : CreateListEntryDto} {db db' : Database} :
    insertListEntry organizationId dto id db = .ok db' ↔
      createListEntry organizationId dto id db = .ok db' := by
  unfold insertListEntry createListEntry
  cases storedTimestamp dto.expiresAt with
  | error e =>
      simp only [error_bind]
      split
      · exact iff_of_false error_ne_ok error_ne_ok
      · exact Iff.rfl
  | ok expiresAt =>
      simp only [ok_bind, ListEntry.subject, Prod.mk.injEq]
      split
      · exact iff_of_false error_ne_ok error_ne_ok
      · exact Iff.rfl

theorem serves_createListEntry {dto : CreateListEntryDto}
    (hfits : (Op.plainWrite organizationId (.createListEntry dto id)).Fits origins)
    (db : Database) :
    (Write.plain organizationId (.createListEntry dto id)).Serves origins
      (PlainWrite.accesses organizationId (.createListEntry dto id)) db := by
  intro t _ _
  refine ⟨fun _ _ u _ _ => ?_, fun e hfound => ?_⟩
  · exact takesEffect_of_iff (.itself _) hfits fun db' => insertListEntry_ok_iff
  · refine takesEffect_of_iff (.itself _) hfits fun db' => ?_
    refine ⟨fun h => absurd h error_ne_ok, fun h => ?_⟩
    simp only [WriteEffect.write, Write.op, Op.write, PlainWrite.run, createListEntry] at h
    unfold noListEntry at hfound
    split at hfound
    · rename_i hdup
      rw [if_pos hdup] at h
      cases h
    · cases hfound

theorem updateOverride_over {dto : UpdateTemplateOverrideDto}
    {override override' : TemplateOverride} {db : Database} (hdb : Referential db)
    (hmem : override' ∈ db.overrides.rows)
    (hfind : findOverride db organizationId id = .ok override') (hid : override'.id = override.id)
    (horg : override'.idOrganization = override.idOrganization)
    (htemplate : override'.idTemplate = override.idTemplate) :
    updateOverride organizationId id (dto.over override) db =
      saveLoadedOverride dto override db := by
  have hconstraints : ∀ overrides enabled,
      overrideConstraints db { override with overrides, enabled } = .ok () := by
    intro overrides enabled
    rw [overrideConstraints_ok_iff]
    refine ⟨htemplate ▸ hdb.overrideTemplates override' hmem, ?_⟩
    intro other hother hotherOrg hotherTemplate
    have hsame : other = override' := by
      apply hdb.soleOverride other hother override' hmem
      exact Prod.ext (hotherOrg.trans horg.symm) (hotherTemplate.trans htemplate.symm)
    exact (congrArg TemplateOverride.id hsame).trans hid
  simp only [updateOverride, hfind, ok_bind, saveLoadedOverride, UpdateTemplateOverrideDto.over,
    notNull_over, hconstraints, hid, horg, htemplate]

theorem createOverride_again {dto : UpdateTemplateOverrideDto} {override : TemplateOverride}
    {db db' : Database} (horg : override.idOrganization = pgUuid organizationId)
    (hcanonical : pgUuid override.idTemplate = override.idTemplate)
    (htaken : ¬ db.overrides.Taken override.id)
    (h : saveLoadedOverride dto override db = .ok db') :
    createOverride organizationId (dto.again override) override.id db = .ok db' := by
  obtain ⟨overrides, hoverrides, h⟩ := bind_eq_ok.mp h
  obtain ⟨enabled, henabled, h⟩ := bind_eq_ok.mp h
  obtain ⟨⟨⟩, hconstraints, h⟩ := bind_eq_ok.mp h
  cases h
  obtain rfl := notNull_ok hoverrides
  obtain rfl := notNull_ok henabled
  rw [← insertOverride_ok_iff]
  simp only [insertOverride, UpdateTemplateOverrideDto.again, Patch.getD_value, hcanonical, ← horg]
  exact bind_eq_ok.mpr ⟨(), hconstraints, bind_eq_ok.mpr ⟨_, insertRow_of_fresh htaken, rfl⟩⟩

theorem serves_updateOverride (dto : UpdateTemplateOverrideDto) (db : Database) :
    (Write.rule organizationId (.updateOverride id dto)).Serves origins
      (RuleWrite.accesses organizationId (.updateOverride id dto)) db := by
  have hfits : (Op.ruleWrite organizationId (.updateOverride id dto)).Fits origins :=
    fits_of_no_ids rfl trivial
  intro t _ ht
  constructor
  · intro override hfind u _ hu
    obtain ⟨hoverride, hid, horg⟩ := findOneOf_ok hfind
    have horigin : ∀ override' ∈ u.overrides.rows, override'.id = override.id →
        override'.idOrganization = override.idOrganization ∧
          override'.idTemplate = override.idTemplate :=
      fun override' hoverride' => origin_eq_of_overrides ht hu hoverride hoverride'
    rcases found_later hfind fun override' hmem hkey => (horigin override' hmem hkey).1 with
      ⟨override', hmem, hkey, hlater⟩ | ⟨htaken, e, hlater⟩
    · obtain ⟨horg', htemplate⟩ := horigin override' hmem hkey
      refine takesEffect_of_iff (.overrideSaved override hid) ?_ ?_
      · exact fits_of_no_ids rfl trivial
      · intro db'
        rw [← updateOverride_over hu.referential hmem hlater hkey horg' htemplate]
        rfl
    · cases hsave : saveLoadedOverride dto override u with
      | ok db' =>
          have htemplate := canonical_of_taken ht.referential
            (ht.referential.overrideTemplates override hoverride)
          have hcreates : origins.override override.id =
              (pgUuid organizationId, pgUuid override.idTemplate) := by
            rw [htemplate, ← show override.idOrganization = pgUuid organizationId from horg]
            exact ht.originated.overrides override hoverride
          have hcanonical : pgUuid override.id = override.id := by
            rw [show override.id = pgUuid id from hid, pgUuid_pgUuid]
          exact .accepted (.overrideAgain override hid) (fits_of_canonical rfl hcanonical hcreates)
            (createOverride_again horg htemplate htaken hsave)
      | error e' =>
          exact refused_of_search hfits rfl hlater
  · exact fun e hfind => refused_of_search hfits rfl hfind

/-- **One spec for every request.** -/
theorem serves_accesses {write : Write} (hfits : write.op.Fits origins) (db : Database) :
    write.Serves origins write.accesses db := by
  cases write with
  | rule organizationId write =>
      cases write with
      | createRule dto id createdAt =>
          exact serves_itself (.rule organizationId (.createRule dto id createdAt)) hfits db
      | updateRule id dto => exact serves_updateRule dto db
      | removeRule id => exact serves_removeRule db
      | createOverride dto id => exact serves_createOverride hfits db
      | updateOverride id dto => exact serves_updateOverride dto db
      | removeOverride id => exact serves_removeOverride db
  | plain organizationId write =>
      cases write with
      | createListEntry dto id => exact serves_createListEntry hfits db
      | removeListEntry id => exact serves_removeListEntry db
      | createTransaction dto id =>
          exact serves_itself (.plain organizationId (.createTransaction dto id)) hfits db
      | updateTransaction id dto => exact serves_updateTransaction dto db
  | template write =>
      cases write with
      | create dto id => exact serves_itself (.template (.create dto id)) hfits db
      | update id dto => exact serves_updateTemplate dto db
      | remove id => exact serves_removeTemplate db

/-! ### A request alone -/

section Alone

variable {organizationId id : String} {db : Database}

theorem run_updateRule (dto : UpdateRuleDto) :
    (RuleWrite.accesses organizationId (.updateRule id dto)).run db =
      updateRule organizationId id dto db := by
  simp only [RuleWrite.accesses, Accesses.run, updateRule]
  cases hfind : findRule db organizationId id with
  | error e => rfl
  | ok rule =>
      simp only [ok_bind, Except.bind, saveLoadedRule, saveRule, storedTemplate_of_found hfind,
        bind_assoc, pure_bind]

theorem run_createOverride (dto : CreateTemplateOverrideDto) :
    (RuleWrite.accesses organizationId (.createOverride dto id)).run db =
      createOverride organizationId dto id db := by
  simp only [RuleWrite.accesses, Accesses.run, createOverride]
  cases hfind : findTemplate db dto.idTemplate with
  | error e => rfl
  | ok template =>
      cases hfound : findByTemplate db organizationId dto.idTemplate with
      | some override =>
          simp only [noOverride, hfound]
          rfl
      | none =>
          have hconstraints : overrideConstraints db
              { id
                idOrganization := pgUuid organizationId
                idTemplate := pgUuid dto.idTemplate
                overrides := dto.overrides.getD []
                enabled := dto.enabled.getD true } = .ok () := by
            rw [overrideConstraints_ok_iff]
            refine ⟨findTemplate_id hfind ▸ Table.taken_of_mem (findTemplate_mem hfind), ?_⟩
            intro other hother horg htemplate
            exact absurd htemplate (findByTemplate_none hfound other hother horg)
          simp only [noOverride, hfound, insertOverride, hconstraints, ok_bind,
            findTemplate_id hfind]
          rfl

theorem run_updateOverride (hdb : Referential db) (dto : UpdateTemplateOverrideDto) :
    (RuleWrite.accesses organizationId (.updateOverride id dto)).run db =
      updateOverride organizationId id dto db := by
  simp only [RuleWrite.accesses, Accesses.run]
  cases hfind : findOverride db organizationId id with
  | error e =>
      simp only [updateOverride, hfind]
      rfl
  | ok override =>
      have hmem : override ∈ db.overrides.rows := (findOneOf_ok hfind).1
      have hsave : updateOverride organizationId id (dto.over override) db =
          saveLoadedOverride dto override db := updateOverride_over hdb hmem hfind rfl rfl rfl
      simp only [updateOverride, hfind, ok_bind, UpdateTemplateOverrideDto.over, notNull_over]
        at hsave ⊢
      exact hsave.symm

theorem run_createListEntry (dto : CreateListEntryDto) :
    (PlainWrite.accesses organizationId (.createListEntry dto id)).run db =
      createListEntry organizationId dto id db := by
  simp only [PlainWrite.accesses, Accesses.run, noListEntry, createListEntry]
  split
  · rfl
  · rename_i hnone
    simp only [Except.bind, insertListEntry, ListEntry.subject, Prod.mk.injEq, if_neg hnone]

/-- Run without interruption, the accesses of a write are the operation. -/
theorem run_accesses (hdb : Referential db) (write : Write) :
    write.accesses.run db = write.op.write db := by
  cases write with
  | rule organizationId write =>
      cases write with
      | createRule dto id createdAt => rfl
      | updateRule id dto =>
          exact run_updateRule dto
      | removeRule id => rfl
      | createOverride dto id => exact run_createOverride dto
      | updateOverride id dto => exact run_updateOverride hdb dto
      | removeOverride id => rfl
  | plain organizationId write =>
      cases write with
      | createListEntry dto id => exact run_createListEntry dto
      | removeListEntry id => rfl
      | createTransaction dto id => rfl
      | updateTransaction id dto =>
          simp only [Write.accesses, PlainWrite.accesses, Accesses.run, Write.op, Op.write,
            PlainWrite.run, update, saveLoadedTransaction, assignTransaction, bind_assoc, pure_bind]
          rfl
  | template write =>
      cases write with
      | create dto id => rfl
      | update id dto => rfl
      | remove id =>
          cases hfind : findTemplate db id with
          | error e =>
              simp only [Write.accesses, TemplateWrite.accesses, Accesses.run, Write.op, Op.write,
                TemplateWrite.run, removeTemplate, hfind]
              rfl
          | ok template =>
              simp only [Write.accesses, TemplateWrite.accesses, Accesses.run, Write.op, Op.write,
                TemplateWrite.run, hfind, removeTemplate_of_find hfind]
              rfl

end Alone

/-! ### What the requests guarantee -/

/-- What a request does in the end. -/
theorem exists_effect {Admits : WriteEffect → Prop} {write : Write} {db : Database}
    {outcome : Except Thrown Database} (h : write.TakesEffect Admits db outcome) :
    ∃ effect, write.CarriedOutAs effect ∧ Admits effect ∧
      WriteEffect.exec db effect = some (Accesses.settle db outcome) := by
  cases h with
  | accepted heffect hadmits hwrite =>
      exact ⟨_, heffect, hadmits, by simp only [WriteEffect.exec, hwrite, Accesses.settle]⟩
  | gone _ hadmits hwrite =>
      refine ⟨_, .itself write, hadmits, ?_⟩
      simp only [WriteEffect.exec, WriteEffect.write_operation, hwrite, Accesses.settle]
  | refused heffect hadmits hwrite =>
      exact ⟨_, heffect, hadmits, by simp only [WriteEffect.exec, hwrite, Accesses.settle]⟩

theorem updateLoadedRule_ok {dto : UpdateRuleDto} {rule : Rule} {db db' : Database}
    (h : updateLoadedRule dto rule db = .ok db') :
    db.rules.Taken rule.id ∧ ∃ rule', assignRule dto (storedTemplate db rule) rule = .ok rule' ∧
      (∀ id ∈ rule'.idTemplate, db.templates.Taken id) ∧
      db' = { db with rules := db.rules.put rule' } := by
  unfold updateLoadedRule at h
  split at h
  · rename_i htaken
    obtain ⟨saved, hsave, h⟩ := bind_eq_ok.mp h
    obtain ⟨rule', hassign, hsave⟩ := bind_eq_ok.mp hsave
    obtain ⟨⟨⟩, hexists, hsave⟩ := bind_eq_ok.mp hsave
    cases hsave
    cases h
    exact ⟨htaken, saved, hassign, templateExists_ok hexists, rfl⟩
  · cases h

/-- The row that an `UPDATE` of a rule changes belongs to the same organization. -/
theorem reliable_updateLoadedRule {dto : UpdateRuleDto} {rule : Rule} {db db' : Database}
    (hdb : Reliable origins db) (hrule : rule.From origins)
    (h : updateLoadedRule dto rule db = .ok db') :
    Reliable origins db' ∧ KeepsTransactions db db' := by
  obtain ⟨htaken, rule', hassign, htemplate, rfl⟩ := updateLoadedRule_ok h
  obtain ⟨old, hold, hid⟩ := List.mem_map.mp htaken
  obtain ⟨hid', horg', -⟩ := assignRule_ok hassign
  obtain ⟨horg, -⟩ := hrule.eq_of_id (hdb.originated.rules old hold) hid
  obtain ⟨hrules, hoverrides, hentries⟩ := hdb.originated
  have hwritten : Written [] db { db with rules := db.rules.put rule' } :=
    .ruleChanged old rule' hold (hid.trans hid'.symm) (horg.trans horg'.symm) htemplate
  have hreferential := referential_written hwritten hdb.referential
    fun _ hmem => absurd hmem List.not_mem_nil
  have hfrom := from_assignRule hrule hassign
  exact ⟨⟨hreferential, Table.forall_put hrules hfrom, hoverrides, hentries⟩,
    continues_written hwritten⟩

theorem reliable_exec {db db' : Database} {effect : WriteEffect} (hdb : Reliable origins db)
    (hfits : effect.Fits origins) (h : WriteEffect.exec db effect = some db') :
    Reliable origins db' ∧ KeepsTransactions db db' := by
  cases effect with
  | operation op =>
      have hexec : writeExec db op = some db' := h
      exact ⟨⟨referential_writeExec hdb.referential hfits.1 hexec,
        originated_write hdb.originated hfits.2 hexec⟩, continues_writeExec hexec⟩
  | ruleSaved dto rule =>
      cases hwrite : updateLoadedRule dto rule db with
      | error e =>
          simp only [WriteEffect.exec, WriteEffect.write, hwrite, Option.some.injEq] at h
          exact h ▸ ⟨hdb, Table.Continues.refl _ _⟩
      | ok next =>
          simp only [WriteEffect.exec, WriteEffect.write, hwrite, Option.some.injEq] at h
          exact h ▸ reliable_updateLoadedRule hdb hfits hwrite

theorem writes_guarantee (origins : Origins) :
    Accesses.Guarantee Write.accesses (fun write => write.op.Fits origins) (Reliable origins)
      KeepsTransactions fun write => write.TakesEffect (WriteEffect.Fits origins) where
  refl := fun _ => Table.Continues.refl _ _
  trans := fun _ _ _ => Table.Continues.trans
  serves := fun _ hfits db _ => serves_accesses hfits db
  keeps := by
    intro write _ db db' hdb heffect
    obtain ⟨effect, -, hfits, hexec⟩ := exists_effect heffect
    exact reliable_exec hdb hfits hexec

end Requests

end RulesEngine
