import RulesEngine.AggregationOperators
import RulesEngine.EngineService

/-!
# Rule conditions

A rule's conditions as json-rules-engine documents them: a test names a fact, an
operator and a value, and `all`, `any` and `not` combine tests.  Here the facts
are those passed to a run, and the operators the package's own on numbers with
the `amountBetween` of this repository.
-/

namespace RulesEngine.Engine

open RulesEngine.Foundations
open RulesEngine.Lists

/-! ### Tests -/

/-- The operators that compare a number with thresholds. -/
def comparisons : List (String × (JsValue → JsValue → Bool)) :=
  [("greaterThan", compareNumbers fun fact value => decide (value < fact)),
    ("greaterThanInclusive", compareNumbers fun fact value => decide (value ≤ fact)),
    ("lessThan", compareNumbers fun fact value => decide (fact < value)),
    ("lessThanInclusive", compareNumbers fun fact value => decide (fact ≤ value)),
    ("equal", compareNumbers fun fact value => decide (fact = value)),
    ("amountBetween", amountBetween)]

def operatorHolds (operator : String) (factValue compareValue : JsValue) : Bool :=
  match comparisons.find? fun entry => entry.1 = operator with
  | some (_, callback) => callback factValue compareValue
  | none => false

/-- A test reads its fact; a fact that is not there is `undefined`. -/
def testHolds (facts : Facts) (fields : JsonObject) : Bool :=
  match fields.get? "fact", fields.get? "operator", fields.get? "value" with
  | some (.str factId), some (.str operator), some value =>
      operatorHolds operator ((facts.lookup factId).getD .undefined) (.json value)
  | _, _, _ => false

mutual

def conditionHolds (facts : Facts) : Json → Bool
  | .obj [("all", .arr items)] => allHold facts items
  | .obj [("any", .arr items)] => anyHolds facts items
  | .obj [("not", inner)] => !conditionHolds facts inner
  | .obj fields => testHolds facts fields
  | _ => false

def allHold (facts : Facts) : List Json → Bool
  | [] => true
  | item :: rest => conditionHolds facts item && allHold facts rest

def anyHolds (facts : Facts) : List Json → Bool
  | [] => false
  | item :: rest => conditionHolds facts item || anyHolds facts rest

end

/-! ### The tests of a condition -/

/-- The properties that make an object no test, or a test of a part of its
    fact. -/
def reservedNames : List String := ["all", "any", "not", "condition", "path"]

/-- A condition whose tests all satisfy a property of their fact, operator and
    value.  `all` and `any` have items. -/
inductive EveryTest (P : String → String → Json → Prop) : Json → Prop where
  | test {fields : JsonObject} {factId operator : String} {value : Json}
      (hfact : fields.get? "fact" = some (.str factId))
      (hoperator : fields.get? "operator" = some (.str operator))
      (hvalue : fields.get? "value" = some value)
      (hnames : ∀ field ∈ fields, field.1 ∉ reservedNames) (h : P factId operator value) :
      EveryTest P (.obj fields)
  | all {items : List Json} (hitems : items ≠ []) (h : ∀ item ∈ items, EveryTest P item) :
      EveryTest P (.obj [("all", .arr items)])
  | any {items : List Json} (hitems : items ≠ []) (h : ∀ item ∈ items, EveryTest P item) :
      EveryTest P (.obj [("any", .arr items)])
  | not {inner : Json} (h : EveryTest P inner) : EveryTest P (.obj [("not", inner)])

theorem conditionHolds_test {facts : Facts} {fields : JsonObject} {factId operator : String}
    {value : Json} (hfact : fields.get? "fact" = some (.str factId))
    (hoperator : fields.get? "operator" = some (.str operator))
    (hvalue : fields.get? "value" = some value) :
    conditionHolds facts (.obj fields) =
      operatorHolds operator ((facts.lookup factId).getD .undefined) (.json value) := by
  have htest : testHolds facts fields =
      operatorHolds operator ((facts.lookup factId).getD .undefined) (.json value) := by
    simp only [testHolds, hfact, hoperator, hvalue]
  rw [← htest]
  -- a test has a fact, so it is none of the three combinations
  unfold conditionHolds
  split
  · rename_i h
    cases h
    cases hfact
  · rename_i h
    cases h
    cases hfact
  · rename_i h
    cases h
    cases hfact
  · rename_i h
    cases h
    rfl
  · rename_i h
    exact absurd rfl (h fields)

theorem allHold_congr {facts facts' : Facts} {items : List Json}
    (h : ∀ item ∈ items, conditionHolds facts item = conditionHolds facts' item) :
    allHold facts items = allHold facts' items := by
  induction items with
  | nil => rfl
  | cons item rest ih =>
      rw [allHold, allHold, h item List.mem_cons_self,
        ih fun other hother => h other (List.mem_cons_of_mem _ hother)]

theorem anyHolds_congr {facts facts' : Facts} {items : List Json}
    (h : ∀ item ∈ items, conditionHolds facts item = conditionHolds facts' item) :
    anyHolds facts items = anyHolds facts' items := by
  induction items with
  | nil => rfl
  | cons item rest ih =>
      rw [anyHolds, anyHolds, h item List.mem_cons_self,
        ih fun other hother => h other (List.mem_cons_of_mem _ hother)]

/-- A condition is judged alike over facts that answer each of its tests
    alike. -/
theorem conditionHolds_congr {facts facts' : Facts} {condition : Json}
    (h : EveryTest (fun factId operator value =>
      operatorHolds operator ((facts.lookup factId).getD .undefined) (.json value) =
        operatorHolds operator ((facts'.lookup factId).getD .undefined) (.json value)) condition) :
    conditionHolds facts condition = conditionHolds facts' condition := by
  induction h with
  | test hfact hoperator hvalue _ h =>
      rw [conditionHolds_test hfact hoperator hvalue, conditionHolds_test hfact hoperator hvalue, h]
  | all _ _ ih =>
      rw [conditionHolds, conditionHolds]
      exact allHold_congr ih
  | any _ _ ih =>
      rw [conditionHolds, conditionHolds]
      exact anyHolds_congr ih
  | not _ ih => rw [conditionHolds, conditionHolds, ih]

theorem EveryTest.mono {P Q : String → String → Json → Prop}
    (hPQ : ∀ factId operator value, P factId operator value → Q factId operator value)
    {condition : Json} (h : EveryTest P condition) : EveryTest Q condition := by
  induction h with
  | test hfact hoperator hvalue hnames h =>
      exact .test hfact hoperator hvalue hnames (hPQ _ _ _ h)
  | all hitems _ ih => exact .all hitems ih
  | any hitems _ ih => exact .any hitems ih
  | not _ ih => exact .not ih

/-! ### Rules on conditions -/

/-- The root of a rule's conditions is a combination. -/
inductive IsRoot : Json → Prop where
  | all (items : List Json) : IsRoot (.obj [("all", .arr items)])
  | any (items : List Json) : IsRoot (.obj [("any", .arr items)])
  | not (inner : Json) : IsRoot (.obj [("not", inner)])

/-- A rule that json-rules-engine accepts, all of whose tests satisfy a
    property. -/
structure RuleProperties.TestsOnly (P : String → String → Json → Prop) (rule : RuleProperties)
    (condition : Json) : Prop where
  conditions : rule.conditions = some condition
  root : IsRoot condition
  tests : EveryTest P condition
  event : ∃ type, Json.prop? rule.event "type" = some type

theorem RuleProperties.TestsOnly.mono {P Q : String → String → Json → Prop} {rule : RuleProperties}
    {condition : Json} (h : rule.TestsOnly P condition)
    (hPQ : ∀ factId operator value, P factId operator value → Q factId operator value) :
    rule.TestsOnly Q condition :=
  ⟨h.conditions, h.root, h.tests.mono hPQ, h.event⟩

/-- A run over the facts of a context reports an event of a rule whose tests are
    about numbers among them exactly when the conditions hold, as
    json-rules-engine documents it. -/
def JudgesTests (P : String → String → Json → Prop) (engineRun : EngineRun) : Prop :=
  ∀ rule condition context organizationId providers,
    rule.TestsOnly (fun factId operator value => P factId operator value ∧
      ∃ number, (buildFactsFromContext context organizationId).lookup factId =
        some (.json (.num number))) condition →
    ∃ events, engineRun rule (buildFactsFromContext context organizationId) providers =
        .ok events ∧
      (events ≠ [] ↔
        conditionHolds (buildFactsFromContext context organizationId) condition = true)

/-! ### Engines -/

/-- `setConditions` asks for a combination at the root. -/
def hasRoot : Json → Bool
  | .obj fields =>
      ["all", "any", "not", "condition"].any fun name => (JsonObject.get? fields name).isSome
  | _ => false

theorem IsRoot.hasRoot {condition : Json} (h : IsRoot condition) :
    Engine.hasRoot condition = true := by
  cases h <;> rfl

/-- The event a rule reports when it fires: a deep copy of its own, or the one the
    package gives a rule without an event.  An event without a type is refused. -/
def RuleProperties.firedEvent (rule : RuleProperties) : Option EngineEvent :=
  if Json.truthy rule.event then
    (Json.prop? rule.event "type").map fun type =>
      let params := Json.prop? rule.event "params"
      { type := type.clone
        params := (if Json.truthy params then params else none).map Json.clone }
  else some { type := .str "unknown", params := none }

/-- A rule that `new Rule` accepts: its conditions and its event. -/
def RuleProperties.accepted (rule : RuleProperties) : Except Thrown (Json × EngineEvent) :=
  match rule.conditions, rule.firedEvent with
  | some condition, some event =>
      if hasRoot condition then .ok (condition, event)
      else .error (.error ("\"conditions\" root must contain a single instance of " ++
        "\"all\", \"any\", \"not\", or \"condition\""))
  | none, _ => .error (.error "Cannot read properties of undefined (reading 'any')")
  | _, none =>
      .error (.error "Rule: setEvent() requires event object with \"type\" property")

theorem accepted_of_root {rule : RuleProperties} {condition type : Json}
    (hconditions : rule.conditions = some condition) (hroot : IsRoot condition)
    (htype : Json.prop? rule.event "type" = some type) :
    ∃ event, rule.accepted = .ok (condition, event) := by
  obtain ⟨event, hevent⟩ : ∃ event, rule.firedEvent = some event := by
    unfold RuleProperties.firedEvent
    rw [htype]
    split <;> exact ⟨_, rfl⟩
  exact ⟨event, by simp only [RuleProperties.accepted, hconditions, hevent, hroot.hasRoot, if_true]⟩

/-- The parameters of the event of an accepted rule are copies of its own. -/
theorem params_of_accepted {name : String} {config : JsonObject} {priority : Nat}
    {condition : Json} {event : EngineEvent}
    (h : RuleProperties.accepted
      ⟨name, config.get? "conditions", config.get? "event", priority⟩ = .ok (condition, event)) :
    event.params = reportedParams config := by
  unfold RuleProperties.accepted at h
  split at h
  · rename_i fired hconditions hfired
    split at h
    · cases h
      unfold RuleProperties.firedEvent at hfired
      split at hfired
      · obtain ⟨type, -, rfl⟩ := Option.map_eq_some_iff.mp hfired
        rfl
      · rename_i hfalsy
        cases hfired
        have hnone : Json.prop? (config.get? "event") "params" = none := by
          cases hevent : config.get? "event" with
          | none => rfl
          | some value =>
              cases value with
              | obj fields => exact absurd (hevent ▸ rfl) hfalsy
              | null | bool | num | str | arr => rfl
        simp only [reportedParams, ownEventParams, hnone]
        rfl
    · cases h
  · cases h
  · cases h

/-- An engine that judges conditions by the runtime facts alone. -/
def factsOnlyRun : EngineRun := fun rule facts _ => do
  let (condition, event) ← rule.accepted
  return if conditionHolds facts condition then [event] else []

theorem factsOnlyRun_judgesTests (P : String → String → Json → Prop) :
    JudgesTests P factsOnlyRun := by
  intro rule condition context organizationId providers hrule
  obtain ⟨type, htype⟩ := hrule.event
  obtain ⟨event, haccepted⟩ := accepted_of_root hrule.conditions hrule.root htype
  refine ⟨_, by rw [factsOnlyRun, haccepted]; rfl, ?_⟩
  cases conditionHolds (buildFactsFromContext context organizationId) condition <;> simp

theorem factsOnlyRun_reportsOwnParams {rule : CachedRule} {facts : Facts}
    (providers : FactProviders) {events : List EngineEvent}
    (h : factsOnlyRun
      ⟨rule.name, rule.config.get? "conditions", rule.config.get? "event", rule.priority⟩ facts
      providers = .ok events) :
    ∀ event ∈ events, event.params = reportedParams rule.config := by
  intro event hevent
  obtain ⟨⟨condition, fired⟩, haccepted, hfires⟩ := bind_eq_ok.mp h
  cases hfires
  split at hevent
  · rw [List.mem_singleton.mp hevent]
    exact params_of_accepted haccepted
  · exact absurd hevent List.not_mem_nil

/-! ### Sample rules -/

/-- Providers that nobody asks. -/
def noProviders : FactProviders where
  transactionHistory := fun _ _ => .ok .undefined
  account := fun _ _ => .ok .undefined
  listLookup := fun _ _ => .ok .undefined

/-- A transaction of 100, about which nothing optional is known. -/
def bareContext : EvaluationContext where
  transaction :=
    { id := "tx", idAccount := "acc", amount := 100, amountNormalized := 100, currency := "USD",
      type := "CASH_IN", datetime := .undefined, date := "1970-01-01", country := .absent,
      counterpartyId := .absent, counterpartyCountry := .absent, data := .absent }
  account := none
  metadata := none

/-- More than 50. -/
def overFifty : Json :=
  .obj [("all", .arr [.obj [("fact", .str "transaction.amount"),
    ("operator", .str "greaterThan"), ("value", .num 50)]])]

/-- A rule for amounts over 50, with these event parameters and further properties. -/
def overFiftyConfig (params further : JsonObject) : JsonObject :=
  ("conditions", overFifty) ::
    ("event", .obj [("type", .str "alert"), ("params", .obj params)]) :: further

theorem conditionHolds_overFifty {facts : Facts} {amount : ℚ}
    (hfact : facts.lookup "transaction.amount" = some (.json (.num amount))) :
    conditionHolds facts overFifty = decide (50 < amount) := by
  rw [overFifty, conditionHolds, allHold, allHold, Bool.and_true, conditionHolds_test rfl rfl rfl,
    hfact]
  rfl

/-- Such a rule fires on a transaction of 100. -/
theorem evaluateSingleRule_overFifty (organizationId id name : String) (priority : Nat)
    (params further : JsonObject) :
    evaluateSingleRule factsOnlyRun noProviders bareContext organizationId
      ⟨id, name, priority, overFiftyConfig params further⟩ =
        .ok [⟨.str "alert", some (.obj (Json.cloneFields params))⟩] := by
  have haccepted : RuleProperties.accepted ⟨name, some overFifty,
      some (.obj [("type", .str "alert"), ("params", .obj params)]), priority⟩ =
      .ok (overFifty, ⟨.str "alert", some (.obj (Json.cloneFields params))⟩) := by
    simp [RuleProperties.accepted, RuleProperties.firedEvent, Json.prop?, Json.truthy,
      JsonObject.get?_cons, Json.clone, IsRoot.hasRoot (.all _), overFifty]
  have hholds : conditionHolds (buildFactsFromContext bareContext organizationId) overFifty =
      true := by
    rw [conditionHolds_overFifty rfl]
    decide +kernel
  rw [evaluateSingleRule, overFiftyConfig]
  simp only [JsonObject.get?_cons, reduceIte, factsOnlyRun, String.reduceEq]
  rw [haccepted]
  simp [bind, Except.bind, hholds, pure, Except.pure]

end RulesEngine.Engine
