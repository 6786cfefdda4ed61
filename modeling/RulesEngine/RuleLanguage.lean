import RulesEngine.RuleConditions
import RulesEngine.RuleOperators

/-!
# The language of rules

A rule's conditions are JSON.  `judge` evaluates that JSON as json-rules-engine
documents it, over the facts and the providers of a run; `Condition` is the
syntax the JSON stands for, over any kind of tests, and `judge_toJson` says that
the JSON of a condition means what the condition says.
-/

namespace RulesEngine.Engine

open RulesEngine.Foundations
open RulesEngine.Lists

/-! ### Evaluating JSON -/

/-- The facts that providers answer. -/
def providerNames : List String := ["transactionHistory", "account", "listLookup"]

section Evaluation

variable [UpperCase]

/-- The value of a fact: one passed to the run, or else what the provider of the
    name answers; the engine allows undefined facts.  A provider asked without
    parameters is an error here. -/
def resolveFact (facts : Facts) (providers : FactProviders) (almanac : Almanac)
    (factId : String) (params : Option Json) : Except Thrown JsValue :=
  match facts.lookup factId, params with
  | some value, _ => .ok value
  | none, some params =>
      if factId = "transactionHistory" then providers.transactionHistory params almanac
      else if factId = "account" then providers.account params almanac
      else if factId = "listLookup" then providers.listLookup params almanac
      else .ok .undefined
  | none, none => if factId ∈ providerNames then .error .other else .ok .undefined

/-- A test: its operator on the value of its fact and its own value.  A further
    property that makes it no test, a `path` into the fact and a value that is
    itself a fact are errors here. -/
def askTest (facts : Facts) (providers : FactProviders) (almanac : Almanac)
    (fields : JsonObject) : Except Thrown Bool :=
  if fields.any fun field => field.1 ∈ reservedNames then .error .other
  else
    match fields.get? "fact", fields.get? "operator", fields.get? "value" with
    | some (.str factId), some (.str operator), some value =>
        if (Json.prop? (some value) "fact").isSome then .error .other
        else do
          let factValue ← resolveFact facts providers almanac factId (fields.get? "params")
          applyOperator operator factValue (.json value)
    | _, _, _ => .error .other

end Evaluation

mutual

/-- A condition, given the outcomes of its tests.  All items of a combination are
    evaluated, and one that fails fails the whole. -/
def judge (ask : JsonObject → Except Thrown Bool) : Json → Except Thrown Bool
  | .obj [("all", .arr (first :: rest))] => do
      let outcome ← judge ask first
      let outcomes ← judgeItems ask rest
      return (outcome :: outcomes).all id
  | .obj [("any", .arr (first :: rest))] => do
      let outcome ← judge ask first
      let outcomes ← judgeItems ask rest
      return (outcome :: outcomes).any id
  | .obj [("not", inner)] => (judge ask inner).map not
  | .obj fields => ask fields
  | _ => .error .other

def judgeItems (ask : JsonObject → Except Thrown Bool) : List Json → Except Thrown (List Bool)
  | [] => .ok []
  | item :: rest => do
      let outcome ← judge ask item
      let outcomes ← judgeItems ask rest
      return outcome :: outcomes

end

/-! ### Conditions -/

/-- Combinations of tests; `all` and `any` have items. -/
inductive Condition (τ : Type) where
  | test (test : τ)
  | all (first : Condition τ) (rest : List (Condition τ))
  | any (first : Condition τ) (rest : List (Condition τ))
  | not (inner : Condition τ)

section Conditions

variable {τ : Type}

mutual

def Condition.toJson (fields : τ → JsonObject) : Condition τ → Json
  | .test test => .obj (fields test)
  | .all first rest => .obj [("all", .arr (first.toJson fields :: toJsonItems fields rest))]
  | .any first rest => .obj [("any", .arr (first.toJson fields :: toJsonItems fields rest))]
  | .not inner => .obj [("not", inner.toJson fields)]

def toJsonItems (fields : τ → JsonObject) : List (Condition τ) → List Json
  | [] => []
  | item :: rest => item.toJson fields :: toJsonItems fields rest

end

mutual

def Condition.tests : Condition τ → List τ
  | .test test => [test]
  | .all first rest => first.tests ++ testsOf rest
  | .any first rest => first.tests ++ testsOf rest
  | .not inner => inner.tests

def testsOf : List (Condition τ) → List τ
  | [] => []
  | item :: rest => item.tests ++ testsOf rest

end

mutual

/-- The condition holds, given which tests do. -/
def Condition.Holds (P : τ → Prop) : Condition τ → Prop
  | .test test => P test
  | .all first rest => first.Holds P ∧ AllHold P rest
  | .any first rest => first.Holds P ∨ AnyHold P rest
  | .not inner => ¬ inner.Holds P

def AllHold (P : τ → Prop) : List (Condition τ) → Prop
  | [] => True
  | item :: rest => item.Holds P ∧ AllHold P rest

def AnyHold (P : τ → Prop) : List (Condition τ) → Prop
  | [] => False
  | item :: rest => item.Holds P ∨ AnyHold P rest

end

/-! ### The JSON of a condition -/

/-- The properties of a test are no combination. -/
def IsTest (fields : JsonObject) : Prop := ∃ factId rest, fields = ("fact", .str factId) :: rest

theorem judge_test {ask : JsonObject → Except Thrown Bool} {fields : JsonObject}
    (h : IsTest fields) : judge ask (.obj fields) = ask fields := by
  obtain ⟨factId, rest, rfl⟩ := h
  unfold judge
  split
  · rename_i heq
    simp at heq
  · rename_i heq
    simp at heq
  · rename_i heq
    simp at heq
  · rename_i heq
    exact congrArg ask (Json.obj.inj heq).symm
  · rename_i hobj
    exact absurd rfl (hobj _)

variable {ask : JsonObject → Except Thrown Bool} {fields : τ → JsonObject} {P : τ → Prop}

mutual

/-- **Meaning.**  The JSON of a condition whose tests all have an outcome has the one
    the condition says. -/
theorem judge_toJson (hfields : ∀ test, IsTest (fields test)) : (condition : Condition τ) →
    (∀ test ∈ condition.tests, ∃ b, ask (fields test) = .ok b ∧ (b = true ↔ P test)) →
      ∃ b, judge ask (condition.toJson fields) = .ok b ∧ (b = true ↔ condition.Holds P)
  | .test test, hask => by
      rw [Condition.toJson, judge_test (hfields test), Condition.Holds]
      exact hask test List.mem_cons_self
  | .all first rest, hask => by
      obtain ⟨hask, hasks⟩ := List.forall_mem_append.mp hask
      obtain ⟨b, hb, hfirst⟩ := judge_toJson hfields first hask
      obtain ⟨bs, hbs, hall, -⟩ := judgeItems_toJsonItems hfields rest hasks
      refine ⟨(b :: bs).all id, ?_, ?_⟩
      · rw [Condition.toJson, judge, hb, hbs]
        rfl
      · rw [List.all_cons, Bool.and_eq_true, Condition.Holds]
        exact and_congr hfirst hall
  | .any first rest, hask => by
      obtain ⟨hask, hasks⟩ := List.forall_mem_append.mp hask
      obtain ⟨b, hb, hfirst⟩ := judge_toJson hfields first hask
      obtain ⟨bs, hbs, -, hany⟩ := judgeItems_toJsonItems hfields rest hasks
      refine ⟨(b :: bs).any id, ?_, ?_⟩
      · rw [Condition.toJson, judge, hb, hbs]
        rfl
      · rw [List.any_cons, Bool.or_eq_true, Condition.Holds]
        exact or_congr hfirst hany
  | .not inner, hask => by
      obtain ⟨b, hb, hinner⟩ := judge_toJson hfields inner hask
      refine ⟨!b, ?_, ?_⟩
      · rw [Condition.toJson, judge, hb]
        rfl
      · rw [Bool.not_eq_true', ← Bool.not_eq_true, Condition.Holds]
        exact not_congr hinner

theorem judgeItems_toJsonItems (hfields : ∀ test, IsTest (fields test)) :
    (items : List (Condition τ)) →
    (∀ test ∈ testsOf items, ∃ b, ask (fields test) = .ok b ∧ (b = true ↔ P test)) →
      ∃ bs, judgeItems ask (toJsonItems fields items) = .ok bs ∧
        (bs.all id = true ↔ AllHold P items) ∧ (bs.any id = true ↔ AnyHold P items)
  | [], _ => ⟨[], by rw [toJsonItems, judgeItems], by simp [AllHold], by simp [AnyHold]⟩
  | item :: rest, hask => by
      obtain ⟨hask, hasks⟩ := List.forall_mem_append.mp hask
      obtain ⟨b, hb, hitem⟩ := judge_toJson hfields item hask
      obtain ⟨bs, hbs, hall, hany⟩ := judgeItems_toJsonItems hfields rest hasks
      refine ⟨b :: bs, ?_, ?_, ?_⟩
      · rw [toJsonItems, judgeItems, hb, hbs]
        rfl
      · rw [List.all_cons, Bool.and_eq_true, AllHold]
        exact and_congr hitem hall
      · rw [List.any_cons, Bool.or_eq_true, AnyHold]
        exact or_congr hitem hany

end

end Conditions

/-! ### The engine -/

/-- An almanac that gives a run's facts. -/
def AnswersFacts (facts : Facts) (almanac : Almanac) : Prop :=
  ∀ factId ∉ providerNames, almanac factId = .ok ((facts.lookup factId).getD .undefined)

section Engine

variable [UpperCase]

/-- What json-rules-engine documents of a run: its providers can read the facts of
    the run, and a rule reports an event exactly when its conditions hold. -/
def JudgesConditions (engineRun : EngineRun) : Prop :=
  ∀ (rule : RuleProperties) (condition : Json) (facts : Facts) (providers : FactProviders),
    rule.conditions = some condition → IsRoot condition →
    (∃ type, Json.prop? rule.event "type" = some type) →
    ∃ almanac, AnswersFacts facts almanac ∧
      ∀ fires, judge (askTest facts providers almanac) condition = .ok fires →
        ∃ events, engineRun rule facts providers = .ok events ∧ (events ≠ [] ↔ fires = true)

/-- The almanac of the facts of a run alone. -/
def factsAlmanac (facts : Facts) : Almanac :=
  fun factId => .ok ((facts.lookup factId).getD .undefined)

/-- An engine that evaluates conditions so and reports a rule's own event. -/
def judgingRun : EngineRun := fun rule facts providers => do
  let (condition, event) ← rule.accepted
  let fires ← judge (askTest facts providers (factsAlmanac facts)) condition
  return if fires then [event] else []

theorem judgingRun_judgesConditions : JudgesConditions judgingRun := by
  intro rule condition facts providers hconditions hroot htype
  obtain ⟨type, htype⟩ := htype
  obtain ⟨event, haccepted⟩ := accepted_of_root hconditions hroot htype
  refine ⟨factsAlmanac facts, fun factId _ => rfl, ?_⟩
  intro fires hfires
  refine ⟨if fires then [event] else [], ?_, ?_⟩
  · simp only [judgingRun, haccepted, ok_bind, hfires]
    rfl
  · cases fires <;> simp

end Engine

end RulesEngine.Engine
