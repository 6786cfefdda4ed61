import RulesEngine.FactProviders
import RulesEngine.RuleConfiguration

/-!
# EngineService

`engine/engine.service.ts`.  The json-rules-engine package is a parameter
(`EngineRun`): a run maps a rule definition, the runtime facts and the
registered fact providers to the reported events or to a failure.  The other
collaborators of an evaluation (the cache, the rule tables, the evaluation of a
single rule) are a record, so that every pattern of failures is a value of it.

Metrics, logging and the evaluation time are left out.
-/

namespace RulesEngine.Engine

open RulesEngine.Foundations
open RulesEngine.Lists

/-! ### The evaluation context -/

/-- `undefined`, `null` or a value, as a fact. -/
def optionalFact {α : Type} (json : α → Json) : Patch α → JsValue
  | .absent => .undefined
  | .null => .json .null
  | .value a => .json (json a)

structure TransactionData where
  id : String
  idAccount : String
  amount : ℚ
  amountNormalized : ℚ
  currency : String
  type : String
  /-- A `Date`, or the text an HTTP client sent. -/
  datetime : JsValue
  date : String
  country : Patch String
  counterpartyId : Patch String
  counterpartyCountry : Patch String
  data : Patch JsonObject

structure AccountData where
  id : String
  type : Patch String
  status : Patch String
  country : Patch String
  riskScore : Patch ℚ
  data : Patch JsonObject

structure EvaluationContext where
  transaction : TransactionData
  account : Option AccountData
  metadata : Option JsonObject

def TransactionData.fields (tx : TransactionData) : List (String × JsValue) :=
  [("id", .json (.str tx.id)),
    ("idAccount", .json (.str tx.idAccount)),
    ("amount", .json (.num tx.amount)),
    ("amountNormalized", .json (.num tx.amountNormalized)),
    ("currency", .json (.str tx.currency)),
    ("type", .json (.str tx.type)),
    ("datetime", tx.datetime),
    ("date", .json (.str tx.date)),
    ("country", optionalFact .str tx.country),
    ("counterpartyId", optionalFact .str tx.counterpartyId),
    ("counterpartyCountry", optionalFact .str tx.counterpartyCountry),
    ("data", optionalFact .obj tx.data)]

def AccountData.fields (account : AccountData) : List (String × JsValue) :=
  [("id", .json (.str account.id)),
    ("type", optionalFact .str account.type),
    ("status", optionalFact .str account.status),
    ("country", optionalFact .str account.country),
    ("riskScore", optionalFact .num account.riskScore),
    ("data", optionalFact .obj account.data)]

def EvaluationContext.fields (context : EvaluationContext) : List (String × JsValue) :=
  ("transaction", .record context.transaction.fields) ::
    ((context.account.map fun account => ("account", JsValue.record account.fields)).toList ++
      (context.metadata.map fun metadata => ("metadata", JsValue.json (.obj metadata))).toList)

/-- The facts passed to `engine.run`. -/
abbrev Facts := List (String × JsValue)

def buildFactsFromContext (context : EvaluationContext) (organizationId : String) : Facts :=
  let tx := context.transaction
  [("organizationId", .json (.str organizationId)),
    ("context", .record context.fields),
    ("transaction", .record tx.fields),
    ("transaction.id", .json (.str tx.id)),
    ("transaction.idAccount", .json (.str tx.idAccount)),
    ("transaction.amount", .json (.num tx.amount)),
    ("transaction.amountNormalized", .json (.num tx.amountNormalized)),
    ("transaction.currency", .json (.str tx.currency)),
    ("transaction.type", .json (.str tx.type)),
    ("transaction.datetime", tx.datetime),
    ("transaction.date", .json (.str tx.date)),
    ("transaction.country", optionalFact .str tx.country),
    ("transaction.counterpartyId", optionalFact .str tx.counterpartyId),
    ("transaction.counterpartyCountry", optionalFact .str tx.counterpartyCountry),
    ("transaction.data", optionalFact .obj tx.data)] ++
  (match context.account with
    | some account =>
        [("account", .record account.fields),
          ("account.id", .json (.str account.id)),
          ("account.type", optionalFact .str account.type),
          ("account.status", optionalFact .str account.status),
          ("account.country", optionalFact .str account.country),
          ("account.riskScore", optionalFact .num account.riskScore)]
    | none => []) ++
  (match context.metadata with
    | some metadata => [("metadata", .json (.obj metadata))]
    | none => [])

/-! ### The rule engine package -/

/-- The rule handed to json-rules-engine. -/
structure RuleProperties where
  name : String
  conditions : Option Json
  event : Option Json
  priority : Nat

/-- An event of an engine run. -/
structure EngineEvent where
  type : Json
  params : Option Json

/-- The fact providers registered on an engine. -/
structure FactProviders where
  transactionHistory : Json → Almanac → Except Thrown JsValue
  account : Json → Almanac → Except Thrown JsValue
  listLookup : Json → Almanac → Except Thrown JsValue

/-- One run of a fresh engine with one rule. -/
abbrev EngineRun := RuleProperties → Facts → FactProviders → Except Thrown (List EngineEvent)

/-- What the providers read besides the almanac. -/
structure ProviderTables where
  transactions : Table Transaction
  listEntries : Table ListEntry
  maxTimeWindowDays : ℚ
  now : Int

section Providers

variable [NumberText] [DriverText] [NumberParsing]

/-- `createConfiguredEngine`: each provider resolves the organization from the
    almanac of the run. -/
def createConfiguredEngine (tables : ProviderTables) : FactProviders where
  transactionHistory := fun params almanac => do
    let organizationId ← almanac "organizationId"
    transactionHistory tables.maxTimeWindowDays tables.transactions tables.now params almanac
      (pgText organizationId)
  account := fun params almanac => do
    let _ ← almanac "organizationId"
    account params almanac
  listLookup := fun params almanac => do
    let organizationId ← almanac "organizationId"
    listLookup tables.listEntries tables.now params almanac (pgText organizationId)

end Providers

/-! ### Cached rules -/

structure CachedRule where
  id : String
  name : String
  priority : Nat
  config : JsonObject

structure CachedRules where
  rules : List CachedRule
  cachedAt : Int

/-- The collaborators of `evaluate` for one organization and one context, each
    with what it returns or throws. -/
structure Collaborators where
  /-- `RuleCacheService` is connected to Redis. -/
  isConnected : Bool
  /-- `client.get` with the parsed entry. -/
  clientGet : Except Thrown (Option CachedRules)
  findEnabledByPriority : Except Thrown (List Rule)
  getEffectiveConfig : Rule → Except Thrown JsonObject
  evaluateSingleRule : CachedRule → Except Thrown (List EngineEvent)
  now : Int

/-- `RuleCacheService.get`: a failure counts as a miss. -/
def Collaborators.cacheGet (c : Collaborators) : Option CachedRules :=
  if c.isConnected then
    match c.clientGet with
    | .ok entry => entry
    | .error _ => none
  else none

def cachedRule (rule : Rule) (config : JsonObject) : CachedRule where
  id := rule.id
  name := rule.name
  priority := rule.priority
  config := config

/-- The loop of `getCachedRules` over the rules found. -/
def buildCachedRules (getEffectiveConfig : Rule → Except Thrown JsonObject) :
    List Rule → Except Thrown (List CachedRule)
  | [] => .ok []
  | rule :: rest =>
      match getEffectiveConfig rule with
      | .error e => .error e
      | .ok config => (buildCachedRules getEffectiveConfig rest).map (cachedRule rule config :: ·)

/-- The part of `getCachedRules` after a cache miss, up to the `set`. -/
def loadRules (c : Collaborators) : Except Thrown CachedRules :=
  match c.findEnabledByPriority with
  | .error e => .error e
  | .ok rules =>
      (buildCachedRules c.getEffectiveConfig rules).map fun cachedRules =>
        { rules := cachedRules, cachedAt := c.now }

/-- `getCachedRules`.  `RuleCacheService.set` swallows its failures, so it does
    not show here. -/
def getCachedRules (c : Collaborators) : Except Thrown CachedRules :=
  match c.cacheGet with
  | some cached => .ok cached
  | none => loadRules c

/-! ### evaluate -/

structure RuleEvent where
  type : Json
  params : JsonObject

structure FailedRule where
  ruleId : String
  ruleName : String
  error : String
deriving DecidableEq

structure EvaluationResult where
  success : Bool
  events : List RuleEvent
  failedRules : List FailedRule
  evaluatedRulesCount : Nat

def buildResult (events : List RuleEvent) (failedRules : List FailedRule) (evaluatedCount : Nat) :
    EvaluationResult where
  success := failedRules.length = 0
  events := events
  failedRules := failedRules
  evaluatedRulesCount := evaluatedCount

/-- `error instanceof Error ? error : new Error('Unknown error')`, as a message. -/
def errorMessage : Thrown → String
  | .error message => message
  | .other => "Unknown error"

/-- The event reported for an engine event of a rule: the rule's id and name,
    the event's own parameters over them, and the rule's config over both. -/
def assembleEvent (rule : CachedRule) (event : EngineEvent) : RuleEvent where
  type := event.type
  params :=
    (JsonObject.assign [("ruleId", .str rule.id), ("ruleName", .str rule.name)]
      (Json.ownProperties event.params)).set "ruleConfig" (.obj rule.config)

/-- One turn of the loop over the settled evaluations. -/
def collectSettled (evaluateSingleRule : CachedRule → Except Thrown (List EngineEvent))
    (acc : List RuleEvent × List FailedRule) (rule : CachedRule) :
    List RuleEvent × List FailedRule :=
  match evaluateSingleRule rule with
  | .ok events => (acc.1 ++ events.map (assembleEvent rule), acc.2)
  | .error e =>
      (acc.1, acc.2 ++ [{ ruleId := rule.id, ruleName := rule.name, error := errorMessage e }])

def evaluate (c : Collaborators) : EvaluationResult :=
  match getCachedRules c with
  -- the outer `catch`
  | .error _ => buildResult [] [] 0
  | .ok cached =>
      if cached.rules.length = 0 then buildResult [] [] 0
      else
        let (events, failedRules) :=
          cached.rules.foldl (collectSettled c.evaluateSingleRule) ([], [])
        buildResult events failedRules cached.rules.length

def evaluateRule (ruleId : String) (findOne : Except Thrown Rule)
    (getEffectiveConfig : Rule → Except Thrown JsonObject)
    (evaluateSingleRule : CachedRule → Except Thrown (List EngineEvent)) : EvaluationResult :=
  let outcome : Except Thrown (List RuleEvent) := do
    let rule ← findOne
    let effectiveConfig ← getEffectiveConfig rule
    let rule' := cachedRule rule effectiveConfig
    let events ← evaluateSingleRule rule'
    return events.map (assembleEvent rule')
  match outcome with
  | .ok events => buildResult events [] 1
  | .error e => buildResult [] [{ ruleId, ruleName := "Unknown", error := errorMessage e }] 0

def evaluateSingleRule (engineRun : EngineRun) (providers : FactProviders)
    (context : EvaluationContext) (organizationId : String) (rule : CachedRule) :
    Except Thrown (List EngineEvent) :=
  engineRun
    { name := rule.name
      conditions := rule.config.get? "conditions"
      event := rule.config.get? "event"
      priority := rule.priority }
    (buildFactsFromContext context organizationId) providers

/-- The parameters `Rule.setEvent` keeps of a rule's event: those of the event
    object, when they are truthy. -/
def ownEventParams (config : JsonObject) : Option Json :=
  let params := Json.prop? (config.get? "event") "params"
  if Json.truthy params then params else none

/-- The parameters of the events json-rules-engine reports for a rule: it hands out
    a deep copy of the rule's own event. -/
def reportedParams (config : JsonObject) : Option Json := (ownEventParams config).map Json.clone

/-- The rules a batch runs. -/
def batchRules (c : Collaborators) : List CachedRule :=
  match getCachedRules c with
  | .ok cached => cached.rules
  | .error _ => []

/-- The rule a single evaluation runs, with its effective configuration. -/
def requestedRule (c : Collaborators) (findOne : Except Thrown Rule) : List CachedRule :=
  match findOne with
  | .error _ => []
  | .ok rule =>
      match c.getEffectiveConfig rule with
      | .error _ => []
      | .ok config => [cachedRule rule config]

/-- The events some rules report carry copies of the parameters of the rules' own
    events, as json-rules-engine documents. -/
def Collaborators.ReportOwnParams (c : Collaborators) (rules : List CachedRule) : Prop :=
  ∀ rule ∈ rules, ∀ events, c.evaluateSingleRule rule = .ok events →
    ∀ event ∈ events, event.params = reportedParams rule.config

/-! ### What is loaded -/

section Loading

variable {getEffectiveConfig : Rule → Except Thrown JsonObject} {rules : List Rule}
variable {cached : List CachedRule}

theorem buildCachedRules_cons_ok {rule : Rule} :
    buildCachedRules getEffectiveConfig (rule :: rules) = .ok cached ↔
      ∃ config tail, getEffectiveConfig rule = .ok config ∧
        buildCachedRules getEffectiveConfig rules = .ok tail ∧
        cached = cachedRule rule config :: tail := by
  simp only [buildCachedRules]
  cases getEffectiveConfig rule with
  | error e => simp
  | ok config =>
      cases buildCachedRules getEffectiveConfig rules <;> simp [Except.map, eq_comm]

theorem buildCachedRules_ok_iff :
    (∃ cached, buildCachedRules getEffectiveConfig rules = .ok cached) ↔
      ∀ rule ∈ rules, ∃ config, getEffectiveConfig rule = .ok config := by
  induction rules with
  | nil => simp [buildCachedRules]
  | cons rule rest ih =>
      simp only [buildCachedRules_cons_ok, List.forall_mem_cons, ← ih]
      constructor
      · rintro ⟨-, config, tail, hconfig, hrest, -⟩
        exact ⟨⟨config, hconfig⟩, tail, hrest⟩
      · rintro ⟨⟨config, hconfig⟩, tail, hrest⟩
        exact ⟨_, config, tail, hconfig, hrest, rfl⟩

theorem buildCachedRules_ids (h : buildCachedRules getEffectiveConfig rules = .ok cached) :
    cached.map CachedRule.id = rules.map Rule.id := by
  induction rules generalizing cached with
  | nil =>
      cases h
      rfl
  | cons rule rest ih =>
      obtain ⟨config, tail, -, hrest, rfl⟩ := buildCachedRules_cons_ok.mp h
      simp only [List.map_cons, ih hrest]
      rfl

theorem buildCachedRules_mono {other : Rule → Except Thrown JsonObject}
    (hother : ∀ rule config, getEffectiveConfig rule = .ok config → other rule = .ok config)
    (h : buildCachedRules getEffectiveConfig rules = .ok cached) :
    buildCachedRules other rules = .ok cached := by
  induction rules generalizing cached with
  | nil => exact h
  | cons rule rest ih =>
      obtain ⟨config, tail, hconfig, hrest, rfl⟩ := buildCachedRules_cons_ok.mp h
      exact buildCachedRules_cons_ok.mpr ⟨config, tail, hother rule config hconfig, ih hrest, rfl⟩

end Loading

/-! ### What the loop collects -/

section Collect

variable (evaluateSingleRule : CachedRule → Except Thrown (List EngineEvent))

/-- The events a rule contributes. -/
def eventsOf (rule : CachedRule) : List RuleEvent :=
  match evaluateSingleRule rule with
  | .ok events => events.map (assembleEvent rule)
  | .error _ => []

/-- The failures a rule contributes. -/
def failuresOf (rule : CachedRule) : List FailedRule :=
  match evaluateSingleRule rule with
  | .ok _ => []
  | .error e => [{ ruleId := rule.id, ruleName := rule.name, error := errorMessage e }]

theorem foldl_collectSettled (rules : List CachedRule) (acc : List RuleEvent × List FailedRule) :
    rules.foldl (collectSettled evaluateSingleRule) acc =
      (acc.1 ++ rules.flatMap (eventsOf evaluateSingleRule),
        acc.2 ++ rules.flatMap (failuresOf evaluateSingleRule)) := by
  induction rules generalizing acc with
  | nil => simp
  | cons rule rest ih =>
      rw [List.foldl_cons, ih, List.flatMap_cons, List.flatMap_cons]
      cases h : evaluateSingleRule rule <;> simp [collectSettled, eventsOf, failuresOf, h]

end Collect

/-- Whatever the cache holds, a result over loaded rules collects what each
    rule contributes. -/
theorem evaluate_of_ok {c : Collaborators} {cached : CachedRules}
    (h : getCachedRules c = .ok cached) :
    evaluate c = buildResult (cached.rules.flatMap (eventsOf c.evaluateSingleRule))
      (cached.rules.flatMap (failuresOf c.evaluateSingleRule)) cached.rules.length := by
  unfold evaluate
  simp only [h]
  by_cases hempty : cached.rules.length = 0
  · rw [if_pos hempty, List.eq_nil_of_length_eq_zero hempty]
    rfl
  · rw [if_neg hempty, foldl_collectSettled]
    simp

theorem evaluate_of_error {c : Collaborators} {e : Thrown} (h : getCachedRules c = .error e) :
    evaluate c = buildResult [] [] 0 := by
  unfold evaluate
  simp only [h]

/-- An evaluation depends on the loaded rules only, not on when they were
    loaded or from where. -/
theorem evaluate_congr {c c' : Collaborators}
    (hrules : (getCachedRules c).map CachedRules.rules = (getCachedRules c').map CachedRules.rules)
    (hevaluate : c.evaluateSingleRule = c'.evaluateSingleRule) : evaluate c = evaluate c' := by
  cases hc : getCachedRules c with
  | error e =>
      cases hc' : getCachedRules c' with
      | error e' => rw [evaluate_of_error hc, evaluate_of_error hc']
      | ok cached' => simp [hc, hc', Except.map] at hrules
  | ok cached =>
      cases hc' : getCachedRules c' with
      | error e' => simp [hc, hc', Except.map] at hrules
      | ok cached' =>
          simp only [hc, hc', Except.map, Except.ok.injEq] at hrules
          rw [evaluate_of_ok hc, evaluate_of_ok hc', hrules, hevaluate]

theorem mem_events {c : Collaborators} {event : RuleEvent} (h : event ∈ (evaluate c).events) :
    ∃ rule ∈ batchRules c, ∃ reported, c.evaluateSingleRule rule = .ok reported ∧
      ∃ ruleEvent ∈ reported, event = assembleEvent rule ruleEvent := by
  unfold batchRules
  cases hload : getCachedRules c with
  | error e =>
      rw [evaluate_of_error hload] at h
      exact absurd h List.not_mem_nil
  | ok cached =>
      rw [evaluate_of_ok hload] at h
      obtain ⟨rule, hrule, hevent⟩ := List.mem_flatMap.mp h
      cases hresult : c.evaluateSingleRule rule with
      | error e => simp [eventsOf, hresult] at hevent
      | ok reported =>
          simp only [eventsOf, hresult] at hevent
          obtain ⟨ruleEvent, hmem, heq⟩ := List.mem_map.mp hevent
          exact ⟨rule, hrule, reported, hresult, ruleEvent, hmem, heq.symm⟩

/-! ### The parameters of an assembled event -/

theorem assembleEvent_ruleConfig (rule : CachedRule) (event : EngineEvent) :
    (assembleEvent rule event).params.get? "ruleConfig" = some (.obj rule.config) := by
  simp [assembleEvent, JsonObject.get?_set]

/-- The rule's id is reported unless the event has a `ruleId` of its own. -/
theorem assembleEvent_ruleId (rule : CachedRule) (event : EngineEvent) :
    (assembleEvent rule event).params.get? "ruleId" =
      ((Json.ownProperties event.params).get? "ruleId").or (some (.str rule.id)) := by
  simp [assembleEvent, JsonObject.get?_set, JsonObject.get?_assign, JsonObject.get?_cons]

theorem assembleEvent_own (rule : CachedRule) (event : EngineEvent) {name : String}
    (hid : name ≠ "ruleId") (hname : name ≠ "ruleName") (hconfig : name ≠ "ruleConfig") :
    (assembleEvent rule event).params.get? name =
      (Json.ownProperties event.params).get? name := by
  simp [assembleEvent, JsonObject.get?_set, JsonObject.get?_assign, JsonObject.get?_cons,
    Ne.symm hid, Ne.symm hname, Ne.symm hconfig]

end RulesEngine.Engine
