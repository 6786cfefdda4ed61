import RulesEngine.TenantNoninterference

/-!
# What the operations write

Every operation of the application leaves the database alone or changes it in
one of a dozen ways (`Written`), with what the service and the constraints of
the tables have checked by then.  Invariants of the database are proved over
these ways and hold after every run of the application, whatever the engine,
the cache and the clock do (`runFrom_db`).
-/

namespace RulesEngine

open RulesEngine.Foundations
open RulesEngine.Rules
open RulesEngine.Lists
open RulesEngine.Engine
open RulesEngine.Transactions

/-! ### The write of an operation -/

/-- What an operation does to the database; reads and evaluations do nothing. -/
def Op.write : Op → Database → Except Thrown Database
  | .ruleWrite organizationId write => write.run organizationId
  | .plainWrite organizationId write => write.run organizationId
  | .templateWrite write => write.run
  | .createAndEvaluate organizationId dto id _ => create organizationId dto id
  | .evaluate .. | .evaluateRule .. | .getEffectiveConfig .. | .isInList .. => .ok

/-- The database after an operation: a write that throws has changed nothing. -/
def writeExec (db : Database) (op : Op) : Option Database :=
  match op.write db with
  | .ok db' => some db'
  | .error _ => some db

section Runs

variable [NumberText] [DriverText] [NumberParsing] (env : Environment)

theorem db_step (s : State) (op : Op) :
    (execOp env s op).map State.db = writeExec s.db op := by
  cases op with
  | ruleWrite organizationId write =>
      simp only [execOp, step, writeExec, Op.write, State.writeInvalidating]
      cases write.run organizationId s.db <;> rfl
  | plainWrite organizationId write =>
      simp only [execOp, step, writeExec, Op.write, State.write]
      cases write.run organizationId s.db <;> rfl
  | templateWrite write =>
      simp only [execOp, step, writeExec, Op.write, State.write]
      cases write.run s.db <;> rfl
  | createAndEvaluate organizationId dto id now =>
      simp only [execOp, step, writeExec, Op.write]
      cases create organizationId dto id s.db <;> rfl
  | evaluate organizationId context now => rfl
  | evaluateRule organizationId ruleId context now => rfl
  | getEffectiveConfig organizationId ruleId => rfl
  | isInList organizationId listType entityType entityValue now => rfl

/-- The database of a run is what its writes make of it. -/
theorem runFrom_db (s : State) (ops : List Op) :
    (runFrom (execOp env) s ops).map State.db = runFrom writeExec s.db ops :=
  runFrom_forget (fun s op => db_step env s op) s ops

end Runs

/-! ### What a write has checked -/

/-- A row is found by its id and its organization. -/
theorem findOneOf_of_mem {ρ : Type} [TenantRow ρ] {table : Table ρ} {row : ρ}
    (hrow : row ∈ table.rows) {organizationId id : String} (hkey : key row = pgUuid id)
    (horg : organization row = pgUuid organizationId) (entity : String) :
    findOneOf entity table organizationId id = .ok row := by
  unfold findOneOf
  cases hfind : table.rows.find? fun other =>
      key other = pgUuid id ∧ organization other = pgUuid organizationId with
  | none =>
      have hnot := List.find?_eq_none.mp hfind row hrow
      simp [hkey, horg] at hnot
  | some found =>
      have hmatch := List.find?_some hfind
      simp only [decide_eq_true_eq] at hmatch
      rw [Table.eq_of_key_eq (List.mem_of_find?_eq_some hfind) hrow (hmatch.1.trans hkey.symm)]

theorem uniqueName_ok {db : Database} {template : RuleTemplate}
    (h : uniqueName db template = .ok ()) :
    ∀ other ∈ db.templates.rows, other.name = template.name → other.id = template.id := by
  intro other hother hname
  unfold uniqueName at h
  by_contra hid
  rw [if_pos ⟨other, hother, hname, hid⟩] at h
  cases h

theorem templateExists_ok {db : Database} {idTemplate : Option String}
    (h : templateExists db idTemplate = .ok ()) : ∀ id ∈ idTemplate, db.templates.Taken id := by
  intro id hid
  cases Option.mem_def.mp hid
  by_contra hnot
  rw [templateExists, if_neg hnot] at h
  cases h

theorem findTemplate_id {db : Database} {id : String} {template : RuleTemplate}
    (h : findTemplate db id = .ok template) : template.id = pgUuid id := by
  unfold findTemplate at h
  cases hget : db.templates.get? (pgUuid id) with
  | none =>
      rw [hget] at h
      cases h
  | some found =>
      rw [hget] at h
      cases h
      exact (Table.mem_of_get? hget).2

theorem findByTemplate_none {db : Database} {organizationId templateId : String}
    (h : findByTemplate db organizationId templateId = none) :
    ∀ override ∈ db.overrides.rows, override.idOrganization = pgUuid organizationId →
      override.idTemplate ≠ pgUuid templateId := by
  intro override hmem horg htemplate
  have hnot := List.find?_eq_none.mp h override hmem
  simp [horg, htemplate] at hnot

/-- The columns of a transaction that `update` does not assign. -/
def Transaction.fixed (tx : Transaction) : Transaction :=
  { tx with isBlocked := false, isVoided := false }

/-- What an entry puts on which list of which organization. -/
def ListEntry.subject (entry : ListEntry) : String × ListType × EntityType × String :=
  (entry.idOrganization, entry.listType, entry.entityType, entry.entityValue)

/-- Every way an operation can change the database.  `newIds` are the ids generated
    for it. -/
inductive Written (newIds : List String) (db : Database) : Database → Prop where
  | templateAdded (template : RuleTemplate) : template.id ∈ newIds →
      ¬ db.templates.Taken template.id →
      (∀ other ∈ db.templates.rows, other.name = template.name → other.id = template.id) →
      Written newIds db { db with templates := db.templates.put template }
  | templateChanged (old template : RuleTemplate) : old ∈ db.templates.rows →
      old.id = template.id →
      (∀ other ∈ db.templates.rows, other.name = template.name → other.id = template.id) →
      Written newIds db { db with templates := db.templates.put template }
  | templateRemoved (template : RuleTemplate) : template ∈ db.templates.rows →
      Written newIds db { db with
        templates := db.templates.retain fun other => other.id ≠ template.id
        overrides := db.overrides.retain fun override => override.idTemplate ≠ template.id
        rules := db.rules.mapRows (clearTemplate template.id) (key_clearTemplate template.id) }
  | overrideAdded (override : TemplateOverride) : override.id ∈ newIds →
      ¬ db.overrides.Taken override.id → db.templates.Taken override.idTemplate →
      (∀ other ∈ db.overrides.rows, other.idOrganization = override.idOrganization →
        other.idTemplate ≠ override.idTemplate) →
      Written newIds db { db with overrides := db.overrides.put override }
  | overrideChanged (old override : TemplateOverride) : old ∈ db.overrides.rows →
      old.id = override.id → old.idOrganization = override.idOrganization →
      old.idTemplate = override.idTemplate →
      Written newIds db { db with overrides := db.overrides.put override }
  | overrideRemoved (override : TemplateOverride) : override ∈ db.overrides.rows →
      Written newIds db { db with
        overrides := db.overrides.retain fun other => other.id ≠ override.id }
  | ruleAdded (rule : Rule) : rule.id ∈ newIds → ¬ db.rules.Taken rule.id →
      (∀ id ∈ rule.idTemplate, db.templates.Taken id) →
      Written newIds db { db with rules := db.rules.put rule }
  | ruleChanged (old rule : Rule) : old ∈ db.rules.rows → old.id = rule.id →
      old.idOrganization = rule.idOrganization →
      (∀ id ∈ rule.idTemplate, db.templates.Taken id) →
      Written newIds db { db with rules := db.rules.put rule }
  | ruleRemoved (rule : Rule) : rule ∈ db.rules.rows →
      Written newIds db { db with rules := db.rules.retain fun other => other.id ≠ rule.id }
  | entryAdded (entry : ListEntry) : entry.id ∈ newIds → ¬ db.listEntries.Taken entry.id →
      (∀ other ∈ db.listEntries.rows, other.subject ≠ entry.subject) →
      Written newIds db { db with listEntries := db.listEntries.put entry }
  | entryRemoved (entry : ListEntry) : entry ∈ db.listEntries.rows →
      Written newIds db { db with
        listEntries := db.listEntries.retain fun other => other.id ≠ entry.id }
  | transactionAdded (tx : Transaction) : tx.id ∈ newIds → ¬ db.transactions.Taken tx.id →
      IsUuid tx.idOrganization → tx.idAccount.length ≤ 255 →
      Written newIds db { db with transactions := db.transactions.put tx }
  | transactionChanged (old tx : Transaction) : old ∈ db.transactions.rows → old.id = tx.id →
      tx.fixed = old.fixed →
      Written newIds db { db with transactions := db.transactions.put tx }

section Writes

variable {organizationId : String} {db db' : Database}

theorem RuleWrite.written {write : RuleWrite} (h : write.run organizationId db = .ok db') :
    Written write.generatedIds db db' := by
  cases write with
  | createRule dto id createdAt =>
      obtain ⟨⟨⟩, hexists, h⟩ := bind_eq_ok.mp h
      obtain ⟨table, hinsert, h⟩ := bind_eq_ok.mp h
      cases h
      obtain ⟨hfresh, rfl⟩ := insertRow_ok hinsert
      exact .ruleAdded _ List.mem_cons_self hfresh (templateExists_ok hexists)
  | updateRule id dto =>
      obtain ⟨rule, hfind, h⟩ := bind_eq_ok.mp h
      obtain ⟨rule', hassign, h⟩ := bind_eq_ok.mp h
      obtain ⟨⟨⟩, hexists, h⟩ := bind_eq_ok.mp h
      cases h
      obtain ⟨hid, horg, -⟩ := assignRule_ok hassign
      exact .ruleChanged rule rule' (findOneOf_ok hfind).1 hid.symm horg.symm
        (templateExists_ok hexists)
  | removeRule id =>
      obtain ⟨rule, hfind, h⟩ := bind_eq_ok.mp h
      cases h
      exact .ruleRemoved rule (findOneOf_ok hfind).1
  | createOverride dto id =>
      obtain ⟨template, hfind, h⟩ := bind_eq_ok.mp h
      cases hfound : findByTemplate db organizationId dto.idTemplate with
      | some override =>
          rw [hfound] at h
          cases h
      | none =>
          rw [hfound] at h
          obtain ⟨table, hinsert, h⟩ := bind_eq_ok.mp h
          cases h
          obtain ⟨hfresh, rfl⟩ := insertRow_ok hinsert
          refine .overrideAdded _ List.mem_cons_self hfresh
            (Table.taken_of_mem (findTemplate_mem hfind)) ?_
          intro other hother horg
          rw [findTemplate_id hfind]
          exact findByTemplate_none hfound other hother horg
  | updateOverride id dto =>
      obtain ⟨override, hfind, h⟩ := bind_eq_ok.mp h
      obtain ⟨overrides, -, h⟩ := bind_eq_ok.mp h
      obtain ⟨enabled, -, h⟩ := bind_eq_ok.mp h
      cases h
      exact .overrideChanged override _ (findOneOf_ok hfind).1 rfl rfl rfl
  | removeOverride id =>
      obtain ⟨override, hfind, h⟩ := bind_eq_ok.mp h
      cases h
      exact .overrideRemoved override (findOneOf_ok hfind).1

theorem create_written {dto : CreateTransactionDto} {id : String}
    (h : create organizationId dto id db = .ok db') : Written [id] db db' := by
  obtain ⟨tx, htx, hfresh, rfl⟩ := create_ok_iff.mp h
  have hrow := createdRow_ok htx
  refine .transactionAdded tx (List.mem_singleton.mpr hrow.id) (hrow.fresh hfresh) ?_ ?_
  · rw [hrow.organization, isUuid_pgUuid]
    exact hrow.organizationUuid
  · rw [hrow.account]
    exact hrow.accountFits

theorem PlainWrite.written {write : PlainWrite} (h : write.run organizationId db = .ok db') :
    Written write.generatedIds db db' := by
  cases write with
  | createListEntry dto id =>
      simp only [PlainWrite.run, Lists.createListEntry] at h
      split at h
      · cases h
      · rename_i hnone
        obtain ⟨expiresAt, -, h⟩ := bind_eq_ok.mp h
        obtain ⟨table, hinsert, h⟩ := bind_eq_ok.mp h
        cases h
        obtain ⟨hfresh, rfl⟩ := insertRow_ok hinsert
        refine .entryAdded _ List.mem_cons_self hfresh ?_
        intro other hother hsubject
        simp only [ListEntry.subject, Prod.mk.injEq] at hsubject
        exact hnone ⟨other, hother, hsubject⟩
  | removeListEntry id =>
      obtain ⟨entry, hfind, h⟩ := bind_eq_ok.mp h
      cases h
      exact .entryRemoved entry (findOneOf_ok hfind).1
  | createTransaction dto id => exact create_written h
  | updateTransaction id dto =>
      obtain ⟨tx, hfind, h⟩ := bind_eq_ok.mp h
      obtain ⟨isBlocked, -, h⟩ := bind_eq_ok.mp h
      obtain ⟨isVoided, -, h⟩ := bind_eq_ok.mp h
      cases h
      exact .transactionChanged tx _ (findOneOf_ok hfind).1 rfl rfl

theorem TemplateWrite.written {write : TemplateWrite} (h : write.run db = .ok db') :
    Written write.generatedIds db db' := by
  cases write with
  | create dto id =>
      obtain ⟨⟨⟩, hname, h⟩ := bind_eq_ok.mp h
      obtain ⟨table, hinsert, h⟩ := bind_eq_ok.mp h
      cases h
      obtain ⟨hfresh, rfl⟩ := insertRow_ok hinsert
      exact .templateAdded _ List.mem_cons_self hfresh (uniqueName_ok hname)
  | update id dto =>
      obtain ⟨template, hfind, h⟩ := bind_eq_ok.mp h
      obtain ⟨name, -, h⟩ := bind_eq_ok.mp h
      obtain ⟨config, -, h⟩ := bind_eq_ok.mp h
      obtain ⟨⟨⟩, hname, h⟩ := bind_eq_ok.mp h
      cases h
      exact .templateChanged template _ (findTemplate_mem hfind) rfl (uniqueName_ok hname)
  | remove id =>
      obtain ⟨template, hfind, h⟩ := bind_eq_ok.mp h
      cases h
      exact .templateRemoved template (findTemplate_mem hfind)

end Writes

/-- **Inversion.**  An operation leaves the database as it was or changes it in one
    of these ways. -/
theorem writeExec_written {db db' : Database} {op : Op} (h : writeExec db op = some db') :
    db' = db ∨ Written op.generatedIds db db' := by
  unfold writeExec at h
  split at h
  · rename_i next hwrite
    cases h
    cases op with
    | ruleWrite organizationId write => exact Or.inr (RuleWrite.written hwrite)
    | plainWrite organizationId write => exact Or.inr (PlainWrite.written hwrite)
    | templateWrite write => exact Or.inr (TemplateWrite.written hwrite)
    | createAndEvaluate organizationId dto id now => exact Or.inr (create_written hwrite)
    | evaluate organizationId context now => exact Or.inl (Except.ok.inj hwrite).symm
    | evaluateRule organizationId ruleId context now => exact Or.inl (Except.ok.inj hwrite).symm
    | getEffectiveConfig organizationId ruleId => exact Or.inl (Except.ok.inj hwrite).symm
    | isInList organizationId listType entityType entityValue now =>
        exact Or.inl (Except.ok.inj hwrite).symm
  · exact Or.inl (Option.some.inj h).symm

end RulesEngine
