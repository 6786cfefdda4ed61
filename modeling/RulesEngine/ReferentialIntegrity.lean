import RulesEngine.CacheTransparency
import RulesEngine.DatabaseWrites
import RulesEngine.EvaluationAgreement

/-!
# Referential integrity over runs

What the services and the constraints of the tables check at each write adds up
to an invariant of the database (`Referential`): rules and overrides point to
templates, an organization overrides a template once, no two templates share a
name, and no value is on a list twice.  Removing a template keeps it, because
the foreign keys detach its rules and delete its overrides.

So in every reachable state the configuration of every rule can be derived, and
an evaluation never fails to load its rules (`configurations_resolve`).
-/

namespace RulesEngine

open RulesEngine.Foundations
open RulesEngine.Rules
open RulesEngine.Lists
open RulesEngine.Engine

structure Referential (db : Database) : Prop where
  wellFormed : WellFormed db
  overrideTemplates : ∀ override ∈ db.overrides.rows, db.templates.Taken override.idTemplate
  soleOverride : Table.UniqueOn
    (fun override : TemplateOverride => (override.idOrganization, override.idTemplate))
    db.overrides
  templateNames : Table.UniqueOn RuleTemplate.name db.templates
  entries : Table.UniqueOn ListEntry.subject db.listEntries

theorem referential_empty : Referential Database.empty where
  wellFormed :=
    { templates := fun _ h => absurd h List.not_mem_nil
      ruleIds := fun _ h => absurd h List.not_mem_nil
      templateIds := fun _ h => absurd h List.not_mem_nil }
  overrideTemplates := fun _ h => absurd h List.not_mem_nil
  soleOverride := Table.uniqueOn_empty
  templateNames := Table.uniqueOn_empty
  entries := Table.uniqueOn_empty

/-! ### One write -/

section Writes

variable {newIds : List String} {db db' : Database}

/-- A template stays in the table unless it is the one that is removed. -/
theorem taken_retained {removed id : String} (h : db.templates.Taken id) (hne : id ≠ removed) :
    (db.templates.retain fun other => other.id ≠ removed).Taken id := by
  refine Table.taken_retain h ?_
  intro other _ hid
  exact decide_eq_true fun heq => hne (hid.symm.trans heq)

theorem idTemplate_clearTemplate {removed id : String} {rule : Rule}
    (h : id ∈ (clearTemplate removed rule).idTemplate) : id ∈ rule.idTemplate ∧ id ≠ removed := by
  unfold clearTemplate at h
  split at h
  · cases h
  · rename_i hne
    refine ⟨h, ?_⟩
    rintro rfl
    exact hne (Option.mem_def.mp h)

theorem wellFormed_written (h : Written newIds db db') (hdb : WellFormed db)
    (hids : ∀ id ∈ newIds, pgUuid id = id) : WellFormed db' := by
  obtain ⟨htemplates, hruleIds, htemplateIds⟩ := hdb
  cases h with
  | templateAdded template hid hfresh hname =>
      refine ⟨?_, hruleIds, ?_⟩
      · intro rule hrule id hmem
        exact Table.taken_put _ _ (htemplates rule hrule id hmem)
      · intro other hother
        rcases Table.mem_put.mp hother with rfl | ⟨hold, -⟩
        · exact hids _ hid
        · exact htemplateIds other hold
  | templateChanged old template hold hid hname =>
      refine ⟨?_, hruleIds, ?_⟩
      · intro rule hrule id hmem
        exact Table.taken_put _ _ (htemplates rule hrule id hmem)
      · intro other hother
        rcases Table.mem_put.mp hother with rfl | ⟨hkept, -⟩
        · rw [← hid]
          exact htemplateIds old hold
        · exact htemplateIds other hkept
  | templateRemoved template hmem =>
      refine ⟨?_, ?_, fun other hother => htemplateIds other (List.mem_filter.mp hother).1⟩
      · intro rule hrule id hid
        obtain ⟨before, hbefore, rfl⟩ := List.mem_map.mp hrule
        obtain ⟨hold, hne⟩ := idTemplate_clearTemplate hid
        exact taken_retained (htemplates before hbefore id hold) hne
      · intro rule hrule
        obtain ⟨before, hbefore, rfl⟩ := List.mem_map.mp hrule
        have hkey : (clearTemplate template.id before).id = before.id :=
          key_clearTemplate template.id before
        rw [hkey]
        exact hruleIds before hbefore
  | ruleAdded rule hid hfresh hexists =>
      refine ⟨?_, ?_, htemplateIds⟩
      · intro other hother
        rcases Table.mem_put.mp hother with rfl | ⟨hold, -⟩
        · exact hexists
        · exact htemplates other hold
      · intro other hother
        rcases Table.mem_put.mp hother with rfl | ⟨hold, -⟩
        · exact hids _ hid
        · exact hruleIds other hold
  | ruleChanged old rule hold hid horg hexists =>
      refine ⟨?_, ?_, htemplateIds⟩
      · intro other hother
        rcases Table.mem_put.mp hother with rfl | ⟨hkept, -⟩
        · exact hexists
        · exact htemplates other hkept
      · intro other hother
        rcases Table.mem_put.mp hother with rfl | ⟨hkept, -⟩
        · rw [← hid]
          exact hruleIds old hold
        · exact hruleIds other hkept
  | ruleRemoved rule hmem =>
      exact ⟨fun other hother => htemplates other (List.mem_filter.mp hother).1,
        fun other hother => hruleIds other (List.mem_filter.mp hother).1, htemplateIds⟩
  | overrideAdded | overrideChanged | overrideRemoved => exact ⟨htemplates, hruleIds, htemplateIds⟩
  | entryAdded | entryRemoved => exact ⟨htemplates, hruleIds, htemplateIds⟩
  | transactionAdded | transactionChanged => exact ⟨htemplates, hruleIds, htemplateIds⟩

theorem overrideTemplates_written (h : Written newIds db db')
    (hdb : ∀ override ∈ db.overrides.rows, db.templates.Taken override.idTemplate) :
    ∀ override ∈ db'.overrides.rows, db'.templates.Taken override.idTemplate := by
  cases h with
  | templateAdded template hid hfresh hname =>
      exact fun override hoverride => Table.taken_put _ _ (hdb override hoverride)
  | templateChanged old template hold hid hname =>
      exact fun override hoverride => Table.taken_put _ _ (hdb override hoverride)
  | templateRemoved template hmem =>
      intro override hoverride
      obtain ⟨hkept, hne⟩ := List.mem_filter.mp hoverride
      exact taken_retained (hdb override hkept) (of_decide_eq_true hne)
  | overrideAdded override hid hfresh hexists hsole =>
      intro other hother
      rcases Table.mem_put.mp hother with rfl | ⟨hold, -⟩
      · exact hexists
      · exact hdb other hold
  | overrideChanged old override hold hid horg htemplate =>
      intro other hother
      rcases Table.mem_put.mp hother with rfl | ⟨hkept, -⟩
      · rw [← htemplate]
        exact hdb old hold
      · exact hdb other hkept
  | overrideRemoved override hmem =>
      exact fun other hother => hdb other (List.mem_filter.mp hother).1
  | ruleAdded | ruleChanged | ruleRemoved => exact hdb
  | entryAdded | entryRemoved => exact hdb
  | transactionAdded | transactionChanged => exact hdb

theorem soleOverride_written (h : Written newIds db db')
    (hdb : Table.UniqueOn
      (fun override : TemplateOverride => (override.idOrganization, override.idTemplate))
      db.overrides) :
    Table.UniqueOn
      (fun override : TemplateOverride => (override.idOrganization, override.idTemplate))
      db'.overrides := by
  cases h with
  | templateRemoved template hmem => exact hdb.retain _
  | overrideAdded override hid hfresh hexists hsole =>
      refine hdb.put ?_
      intro other hother heq
      obtain ⟨horg, htemplate⟩ := Prod.mk.inj heq
      exact absurd htemplate (hsole other hother horg)
  | overrideChanged old override hold hid horg htemplate =>
      refine hdb.put ?_
      intro other hother heq
      rw [hdb other hother old hold (heq.trans (Prod.ext horg htemplate).symm)]
      exact hid
  | overrideRemoved override hmem => exact hdb.retain _
  | templateAdded | templateChanged => exact hdb
  | ruleAdded | ruleChanged | ruleRemoved => exact hdb
  | entryAdded | entryRemoved => exact hdb
  | transactionAdded | transactionChanged => exact hdb

theorem templateNames_written (h : Written newIds db db')
    (hdb : Table.UniqueOn RuleTemplate.name db.templates) :
    Table.UniqueOn RuleTemplate.name db'.templates := by
  cases h with
  | templateAdded template hid hfresh hname => exact hdb.put hname
  | templateChanged old template hold hid hname => exact hdb.put hname
  | templateRemoved template hmem => exact hdb.retain _
  | overrideAdded | overrideChanged | overrideRemoved => exact hdb
  | ruleAdded | ruleChanged | ruleRemoved => exact hdb
  | entryAdded | entryRemoved => exact hdb
  | transactionAdded | transactionChanged => exact hdb

theorem entries_written (h : Written newIds db db')
    (hdb : Table.UniqueOn ListEntry.subject db.listEntries) :
    Table.UniqueOn ListEntry.subject db'.listEntries := by
  cases h with
  | entryAdded entry hid hfresh hsole =>
      exact hdb.put fun other hother heq => absurd heq (hsole other hother)
  | entryRemoved entry hmem => exact hdb.retain _
  | templateAdded | templateChanged | templateRemoved => exact hdb
  | overrideAdded | overrideChanged | overrideRemoved => exact hdb
  | ruleAdded | ruleChanged | ruleRemoved => exact hdb
  | transactionAdded | transactionChanged => exact hdb

theorem referential_written (h : Written newIds db db') (hdb : Referential db)
    (hids : ∀ id ∈ newIds, pgUuid id = id) : Referential db' where
  wellFormed := wellFormed_written h hdb.wellFormed hids
  overrideTemplates := overrideTemplates_written h hdb.overrideTemplates
  soleOverride := soleOverride_written h hdb.soleOverride
  templateNames := templateNames_written h hdb.templateNames
  entries := entries_written h hdb.entries

end Writes

/-! ### Runs -/

/-- PostgreSQL generates canonical uuids. -/
def Op.CanonicalIds (op : Op) : Prop := ∀ id ∈ op.generatedIds, pgUuid id = id

instance (op : Op) : Decidable op.CanonicalIds :=
  inferInstanceAs (Decidable (∀ id ∈ op.generatedIds, pgUuid id = id))

theorem referential_writeExec {db db' : Database} {op : Op} (hdb : Referential db)
    (hids : op.CanonicalIds) (h : writeExec db op = some db') : Referential db' := by
  rcases writeExec_written h with rfl | hwritten
  · exact hdb
  · exact referential_written hwritten hdb hids

/-- The rules of an organization can be derived. -/
theorem exists_derivedRules {db : Database} (hdb : Referential db) (organizationId : String) :
    ∃ rules, derivedRules db organizationId = .ok rules :=
  buildCachedRules_ok_iff.mpr fun _ hrule =>
    exists_effectiveConfig hdb.wellFormed (mem_findEnabledByPriority.mp hrule).1

theorem exists_effectiveConfigById {db : Database} (hdb : Referential db)
    (organizationId ruleId : String) :
    (∃ config, getEffectiveConfigById db organizationId ruleId = .ok config) ↔
      ∃ rule, findRule db organizationId ruleId = .ok rule := by
  constructor
  · rintro ⟨config, h⟩
    obtain ⟨rule, hfind, -⟩ := bind_eq_ok.mp h
    exact ⟨rule, hfind⟩
  · rintro ⟨rule, hfind⟩
    have hresolves : ∃ config, Rules.getEffectiveConfig db organizationId rule = .ok config :=
      exists_effectiveConfig hdb.wellFormed (findOneOf_ok hfind).1
    obtain ⟨config, hconfig⟩ := hresolves
    exact ⟨config, bind_eq_ok.mpr ⟨rule, hfind, hconfig⟩⟩

section Runs

variable [NumberText] [DriverText] [NumberParsing] (env : Environment)

theorem referential_run {s t : State} {ops : List Op} (hs : Referential s.db)
    (hids : ∀ op ∈ ops, op.CanonicalIds) (hrun : runFrom (execOp env) s ops = some t) :
    Referential t.db := by
  have hdb : runFrom writeExec s.db ops = some t.db := by
    rw [← runFrom_db env, hrun, Option.map_some]
  have hguard : EveryStep writeExec (fun _ op => op.CanonicalIds) s.db ops := everyStep_of_mem hids
  exact runFrom_guarded_invariant (fun _ _ _ hdb hids h => referential_writeExec hdb hids h) hs
    hguard hdb

/-- **Configurations resolve.**  In every state a run reaches the references of the
    tables are intact, an evaluation gets its rules whether they are cached or
    not, and the configuration of a rule is found whenever the rule is. -/
theorem configurations_resolve {s t : State} {ops : List Op} (hs : Referential s.db)
    (hids : ∀ op ∈ ops, op.CanonicalIds)
    (hrun : runFrom (execOp env) s ops = some t) :
    Referential t.db ∧
      (∀ organizationId context now, ∃ cached,
        getCachedRules (collaborators env t organizationId context now) = .ok cached) ∧
      ∀ organizationId ruleId,
        (∃ config, getEffectiveConfigById t.db organizationId ruleId = .ok config) ↔
          ∃ rule, findRule t.db organizationId ruleId = .ok rule := by
  have hreferential := referential_run env hs hids hrun
  refine ⟨hreferential, ?_, exists_effectiveConfigById hreferential⟩
  intro organizationId context now
  unfold getCachedRules
  cases (collaborators env t organizationId context now).cacheGet with
  | some cached => exact ⟨cached, rfl⟩
  | none =>
      obtain ⟨rules, hrules⟩ := exists_derivedRules hreferential organizationId
      exact ⟨_, by rw [loadRules_collaborators, hrules]; rfl⟩

end Runs

/-! ### A template that goes -/

attribute [local instance] NumberText.integers DriverText.stringsOnly NumberParsing.never

/-- A template, a rule that inherits from it, an override of it, and its removal. -/
def removedTemplate : List Op :=
  [.templateWrite (.create ⟨"amount", .absent⟩ "t"),
    .ruleWrite "org" (.createRule inheritingRule "r" 0),
    .ruleWrite "org" (.createOverride ⟨"t", .absent, .absent⟩ "o"),
    .templateWrite (.remove "t")]

/-- The rule is still there and has a configuration. -/
theorem configurations_resolve_sample :
    ∃ t, runFrom (execOp sampleEnvironment) State.initial removedTemplate = some t ∧
      Referential t.db ∧ ∃ config, getEffectiveConfigById t.db "org" "r" = .ok config := by
  have hids : ∀ op ∈ removedTemplate, op.CanonicalIds := by decide +kernel
  have hfinal : (runFrom (execOp sampleEnvironment) State.initial removedTemplate).map
      (fun t => (findRule t.db "org" "r").isOk) = some true := by decide +kernel
  obtain ⟨t, hrun, hfound⟩ := Option.map_eq_some_iff.mp hfinal
  obtain ⟨hreferential, -, hresolves⟩ :=
    configurations_resolve sampleEnvironment referential_empty hids hrun
  refine ⟨t, hrun, hreferential, (hresolves "org" "r").mpr ?_⟩
  cases hrule : findRule t.db "org" "r" with
  | ok rule => exact ⟨rule, rfl⟩
  | error e =>
      rw [hrule] at hfound
      cases hfound

end RulesEngine
