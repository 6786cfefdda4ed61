import RulesEngine.RuleConditions

/-!
# Batch and single evaluation

`evaluate` loads all enabled rules and runs them at once; `evaluateRule` finds
one rule and runs it alone, with code of its own for the configuration, the
events and the failures.  Over one database, with nothing cached, the batch
reports what the single evaluations of its rules report, one after the other
(`evaluate_eq_evaluateRule`).
-/

namespace RulesEngine.Engine

open RulesEngine.Foundations
open RulesEngine.Rules

/-! ### Databases -/

/-- The foreign key from rules to templates, and the `uuid` columns it joins:
    they hold the canonical texts. -/
structure WellFormed (db : Database) : Prop where
  templates : ∀ rule ∈ db.rules.rows, ∀ idTemplate ∈ rule.idTemplate, db.templates.Taken idTemplate
  ruleIds : ∀ rule ∈ db.rules.rows, pgUuid rule.id = rule.id
  templateIds : ∀ template ∈ db.templates.rows, pgUuid template.id = template.id

theorem mem_findEnabledByPriority {db : Database} {organizationId : String} {rule : Rule} :
    rule ∈ findEnabledByPriority db organizationId ↔
      rule ∈ db.rules.rows ∧ rule.idOrganization = pgUuid organizationId ∧ rule.enabled = true := by
  simp only [findEnabledByPriority, List.mem_insertionSort, List.mem_filter, decide_eq_true_eq]

instance : Std.Total RuleOrder where
  total := by
    intro a b
    unfold RuleOrder
    omega

instance : IsTrans Rule RuleOrder where
  trans := by
    intro a b c
    unfold RuleOrder
    omega

theorem pairwise_findEnabledByPriority (db : Database) (organizationId : String) :
    (findEnabledByPriority db organizationId).Pairwise RuleOrder :=
  List.pairwise_insertionSort RuleOrder _

section WellFormed

variable {db : Database} (hdb : WellFormed db) {organizationId : String} {rule : Rule}

include hdb

/-- An enabled rule is found again by its id. -/
theorem findRule_of_enabled (h : rule ∈ findEnabledByPriority db organizationId) :
    findRule db organizationId rule.id = .ok rule := by
  obtain ⟨hmem, horg, -⟩ := mem_findEnabledByPriority.mp h
  unfold findRule findOneOf
  cases hfind : db.rules.rows.find? fun row =>
      key row = pgUuid rule.id ∧ organization row = pgUuid organizationId with
  | none =>
      have hnot := List.find?_eq_none.mp hfind rule hmem
      simp only [decide_eq_true_eq] at hnot
      exact absurd ⟨(hdb.ruleIds rule hmem).symm, horg⟩ hnot
  | some found =>
      have hmatch := List.find?_some hfind
      simp only [decide_eq_true_eq] at hmatch
      have hid : key found = key rule := hmatch.1.trans (hdb.ruleIds rule hmem)
      exact congrArg Except.ok
        (Table.eq_of_key_eq (List.mem_of_find?_eq_some hfind) hmem hid)

/-- The configuration of a stored rule never fails to resolve. -/
theorem exists_effectiveConfig (hmem : rule ∈ db.rules.rows) :
    ∃ config, Rules.getEffectiveConfig db organizationId rule = .ok config := by
  unfold Rules.getEffectiveConfig
  cases hid : rule.idTemplate with
  | none => exact ⟨rule.config, rfl⟩
  | some idTemplate =>
      by_cases hempty : idTemplate = ""
      · exact ⟨rule.config, by simp [hempty]⟩
      · obtain ⟨template, htemplate, hkey⟩ := List.mem_map.mp (hdb.templates rule hmem _ hid)
        have hcanonical : pgUuid idTemplate = idTemplate := by
          rw [← hkey]
          exact hdb.templateIds template htemplate
        have hget : db.templates.get? (pgUuid idTemplate) = some template := by
          rw [hcanonical]
          exact Table.get?_eq_some_iff.mpr ⟨htemplate, hkey⟩
        simp only [hempty, if_false, getMergedConfig, findTemplate, hget]
        cases findByTemplate db organizationId idTemplate with
        | none => exact ⟨_, rfl⟩
        | some override =>
            cases henabled : override.enabled <;> exact ⟨_, by simp [henabled]; rfl⟩

end WellFormed

/-! ### The two paths -/

section Paths

variable (db : Database) (organizationId : String) (engineRun : EngineRun)
  (providers : FactProviders) (context : EvaluationContext) (now : Int)

/-- The collaborators of a batch that finds nothing cached, over a database that
    answers. -/
def batchCollaborators : Collaborators where
  isConnected := true
  clientGet := .ok none
  findEnabledByPriority := .ok (findEnabledByPriority db organizationId)
  getEffectiveConfig := Rules.getEffectiveConfig db organizationId
  evaluateSingleRule := evaluateSingleRule engineRun providers context organizationId
  now := now

/-- The evaluation of one rule over the same database. -/
def singleEvaluation (ruleId : String) : EvaluationResult :=
  evaluateRule ruleId (findRule db organizationId ruleId)
    (Rules.getEffectiveConfig db organizationId)
    (evaluateSingleRule engineRun providers context organizationId)

/-- The failures of a result, without the names of the rules, which a single
    evaluation does not report. -/
def EvaluationResult.failurePairs (result : EvaluationResult) : List (String × String) :=
  result.failedRules.map fun failed => (failed.ruleId, failed.error)

variable {db organizationId}

/-- A single evaluation reports what its rule contributes to a batch. -/
theorem singleEvaluation_eq {rule : Rule} {config : JsonObject}
    (hfound : findRule db organizationId rule.id = .ok rule)
    (hconfig : Rules.getEffectiveConfig db organizationId rule = .ok config) :
    (singleEvaluation db organizationId engineRun providers context rule.id).events =
        eventsOf (evaluateSingleRule engineRun providers context organizationId)
          (cachedRule rule config) ∧
      (singleEvaluation db organizationId engineRun providers context rule.id).failurePairs =
        (failuresOf (evaluateSingleRule engineRun providers context organizationId)
          (cachedRule rule config)).map fun failed => (failed.ruleId, failed.error) := by
  unfold singleEvaluation evaluateRule eventsOf failuresOf
  simp only [hfound, hconfig, bind, Except.bind]
  cases evaluateSingleRule engineRun providers context organizationId (cachedRule rule config) with
  | ok events => exact ⟨rfl, rfl⟩
  | error e => exact ⟨rfl, rfl⟩

/-- The contributions of the loaded rules, one rule after the other. -/
theorem flatMap_singleEvaluation {rules : List Rule} {cached : List CachedRule}
    (hfound : ∀ rule ∈ rules, findRule db organizationId rule.id = .ok rule)
    (hbuild : buildCachedRules (Rules.getEffectiveConfig db organizationId) rules = .ok cached) :
    (cached.flatMap (eventsOf (evaluateSingleRule engineRun providers context organizationId)) =
        rules.flatMap fun rule =>
          (singleEvaluation db organizationId engineRun providers context rule.id).events) ∧
      ((cached.flatMap
          (failuresOf (evaluateSingleRule engineRun providers context organizationId))).map
            fun failed => (failed.ruleId, failed.error)) =
        rules.flatMap fun rule => EvaluationResult.failurePairs
          (singleEvaluation db organizationId engineRun providers context rule.id) := by
  induction rules generalizing cached with
  | nil =>
      cases hbuild
      exact ⟨rfl, rfl⟩
  | cons rule rest ih =>
      obtain ⟨config, tail, hconfig, htail, rfl⟩ := buildCachedRules_cons_ok.mp hbuild
      obtain ⟨hevents, hfailures⟩ := singleEvaluation_eq engineRun providers context
        (hfound rule List.mem_cons_self) hconfig
      obtain ⟨ihEvents, ihFailures⟩ :=
        ih (fun other hother => hfound other (List.mem_cons_of_mem _ hother)) htail
      refine ⟨?_, ?_⟩
      · rw [List.flatMap_cons, List.flatMap_cons, hevents, ihEvents]
      · rw [List.flatMap_cons, List.flatMap_cons, List.map_append, hfailures, ihFailures]

/-- **Agreement.**  The rules of the batch are the organization's enabled rules in
    the order of their priority and creation; its events are those of their
    single evaluations, and so are its failed rules. -/
theorem evaluate_eq_evaluateRule (hdb : WellFormed db) :
    let rules := findEnabledByPriority db organizationId
    let single := singleEvaluation db organizationId engineRun providers context
    let batch := evaluate (batchCollaborators db organizationId engineRun providers context now)
    (∀ rule, rule ∈ rules ↔ rule ∈ db.rules.rows ∧ rule.idOrganization = pgUuid organizationId ∧
        rule.enabled = true) ∧
      rules.Pairwise RuleOrder ∧
      batch.events = (rules.flatMap fun rule => (single rule.id).events) ∧
      batch.failurePairs = rules.flatMap fun rule => (single rule.id).failurePairs := by
  refine ⟨fun _ => mem_findEnabledByPriority, pairwise_findEnabledByPriority db organizationId, ?_⟩
  have hconfigs : ∀ rule ∈ findEnabledByPriority db organizationId,
      ∃ config, Rules.getEffectiveConfig db organizationId rule = .ok config := by
    intro rule hrule
    exact exists_effectiveConfig hdb (mem_findEnabledByPriority.mp hrule).1
  obtain ⟨cached, hbuild⟩ := buildCachedRules_ok_iff.mpr hconfigs
  have hload :
      getCachedRules (batchCollaborators db organizationId engineRun providers context now) =
      .ok { rules := cached, cachedAt := now } := by
    simp only [getCachedRules, Collaborators.cacheGet, batchCollaborators, loadRules, if_true,
      hbuild]
    rfl
  rw [evaluate_of_ok hload]
  exact flatMap_singleEvaluation engineRun providers context
    (fun rule hrule => findRule_of_enabled hdb hrule) hbuild

end Paths

/-! ### A sample database -/

/-- A rule of organization `org` without a template. -/
def standaloneRule (id : String) (priority : Nat) (config : JsonObject) : Rule where
  id := id
  idOrganization := "org"
  idTemplate := none
  name := id
  enabled := true
  priority := priority
  config := config
  createdAt := 0

/-- Rule `a` is for amounts over 50, rule `b` has no conditions; they are stored in the
    other order. -/
def twoRules : Database :=
  { Database.empty with
    rules := (Table.empty.put (standaloneRule "b" 2 [])).put
      (standaloneRule "a" 1 (overFiftyConfig [] [])) }

theorem wellFormed_twoRules : WellFormed twoRules where
  templates := by
    intro rule hrule idTemplate hid
    have hnone : ∀ rule ∈ twoRules.rules.rows, rule.idTemplate = none := by decide +kernel
    rw [hnone rule hrule] at hid
    cases hid
  ruleIds := by decide +kernel
  templateIds := by
    intro template htemplate
    exact absurd htemplate List.not_mem_nil

/-- The batch reports one event, of rule `a`, and the failure of rule `b`. -/
theorem evaluate_eq_evaluateRule_sample :
    let batch := evaluate (batchCollaborators twoRules "org" factsOnlyRun noProviders bareContext 0)
    batch.events.length = 1 ∧
      batch.failurePairs = [("b", "Cannot read properties of undefined (reading 'any')")] := by
  have h := @evaluate_eq_evaluateRule twoRules "org" factsOnlyRun noProviders bareContext 0
    wellFormed_twoRules
  refine ⟨?_, ?_⟩
  · exact (congrArg List.length h.2.2.1).trans (by decide +kernel)
  · exact h.2.2.2.trans (by decide +kernel)

end RulesEngine.Engine
