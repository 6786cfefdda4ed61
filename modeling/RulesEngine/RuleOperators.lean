import RulesEngine.AggregationOperators

/-!
# Operators

The operators an engine knows (`engine/operators`): those of the repository on
aggregates, lists and countries, and of json-rules-engine's own the equality of
any two values and the order of two numbers.
-/

namespace RulesEngine.Engine

open RulesEngine.Foundations
open RulesEngine.Lists

/-! ### Lists -/

/-- `===`.  Objects and dates equal only themselves, and a fact and a condition
    share none. -/
def strictEquals : JsValue → JsValue → Bool
  | .undefined, .undefined => true
  | .json .null, .json .null => true
  | .json (.bool a), .json (.bool b) => decide (a = b)
  | .json (.num a), .json (.num b) => decide (a = b)
  | .json (.str a), .json (.str b) => decide (a = b)
  | _, _ => false

/-- `!==`. -/
def strictDiffers (factValue compareValue : JsValue) : Bool :=
  !strictEquals factValue compareValue

def inBlacklist := strictEquals
def notInBlacklist := strictDiffers
def inWhitelist := strictEquals
def notInWhitelist := strictDiffers

/-- `factValue.includes(compareValue)`. -/
def containsValue (factValue compareValue : JsValue) : Bool :=
  match factValue with
  | .json (.arr items) => items.any fun item => strictEquals (.json item) compareValue
  | _ => false

def notContainsValue (factValue compareValue : JsValue) : Bool :=
  match factValue with
  | .json (.arr items) => !items.any fun item => strictEquals (.json item) compareValue
  | _ => true

def listOperators : List (String × (JsValue → JsValue → Bool)) :=
  [("inBlacklist", inBlacklist),
    ("notInBlacklist", notInBlacklist),
    ("inWhitelist", inWhitelist),
    ("notInWhitelist", notInWhitelist),
    ("containsValue", containsValue),
    ("notContainsValue", notContainsValue)]

/-! ### Countries -/

/-- `String.prototype.toUpperCase`.  Both sides of a comparison of countries are
    the caller's, so that every character counts. -/
class UpperCase where
  convert : String → String

/-- A conversion for runs whose texts are ASCII. -/
@[reducible] def UpperCase.ascii : UpperCase :=
  ⟨fun text => String.ofList (text.toList.map Char.toUpper)⟩

section Countries

variable [UpperCase]

/-- `normalizedFact`, if the fact is a non-empty text. -/
def normalizedFact : JsValue → Option String
  | .json (.str text) => if text = "" then none else some (UpperCase.convert text)
  | _ => none

/-- `compareValue.map(…)`. -/
def normalizedCodes (items : List Json) : List String :=
  items.map fun item =>
    match item with
    | .str code => UpperCase.convert code
    | _ => ""

def inCountry (factValue compareValue : JsValue) : Bool :=
  match normalizedFact factValue, compareValue with
  | none, _ => false
  | some fact, .json (.arr items) => decide (fact ∈ normalizedCodes items)
  | some fact, .json (.str country) => decide (fact = UpperCase.convert country)
  | some _, _ => false

def notInCountry (factValue compareValue : JsValue) : Bool :=
  match normalizedFact factValue, compareValue with
  | none, _ => true
  | some fact, .json (.arr items) => !decide (fact ∈ normalizedCodes items)
  | some fact, .json (.str country) => decide (fact ≠ UpperCase.convert country)
  | some _, _ => true

def isHighRiskCountry (factValue highRiskList : JsValue) : Bool :=
  match normalizedFact factValue, highRiskList with
  | some fact, .json (.arr items) => decide (fact ∈ normalizedCodes items)
  | _, _ => false

def geolocationOperators : List (String × (JsValue → JsValue → Bool)) :=
  [("inCountry", inCountry),
    ("notInCountry", notInCountry),
    ("isHighRiskCountry", isHighRiskCountry)]

/-- Each operator that denies another denies it of every fact and every value,
    those of a wrong type included. -/
theorem negated_operators (factValue compareValue : JsValue) :
    notInBlacklist factValue compareValue = !inBlacklist factValue compareValue ∧
      notInWhitelist factValue compareValue = !inWhitelist factValue compareValue ∧
      notContainsValue factValue compareValue = !containsValue factValue compareValue ∧
      notInCountry factValue compareValue = !inCountry factValue compareValue := by
  refine ⟨rfl, rfl, ?_, ?_⟩
  · unfold notContainsValue containsValue
    split <;> rfl
  · unfold notInCountry inCountry
    split
    · rfl
    · rfl
    · exact decide_not
    · rfl

/-! ### All of them -/

def allOperators : List (String × (JsValue → JsValue → Bool)) :=
  aggregationOperators ++ listOperators ++ geolocationOperators

/-- The package's operators on equality. -/
def equalityOperators : List (String × (JsValue → JsValue → Bool)) :=
  [("equal", strictEquals), ("notEqual", strictDiffers)]

/-- The package's operators on order, between numbers. -/
def orderOperators : List (String × (ℚ → ℚ → Bool)) :=
  [("greaterThan", fun fact value => decide (value < fact)),
    ("greaterThanInclusive", fun fact value => decide (value ≤ fact)),
    ("lessThan", fun fact value => decide (fact < value)),
    ("lessThanInclusive", fun fact value => decide (fact ≤ value))]

/-- What an operator makes of two values.  The package's other operators, and its
    coercions of texts to numbers, are errors here. -/
def applyOperator (operator : String) (factValue compareValue : JsValue) : Except Thrown Bool :=
  match (allOperators ++ equalityOperators).lookup operator with
  | some callback => .ok (callback factValue compareValue)
  | none =>
      match orderOperators.lookup operator, factValue, compareValue with
      | some compare, .json (.num fact), .json (.num value) => .ok (compare fact value)
      | _, _, _ => .error .other

end Countries

end RulesEngine.Engine
