import RulesEngine.TransactionHistory

/-!
# Aggregation operators

`engine/operators/aggregation.operator.ts`.  Ten operators compare two numbers
and are false of anything else; `amountBetween` compares a number with two
bounds.

`maxGreaterThan` and `minLessThan` (and their inclusive forms) say that some
transaction of the history lies beyond a threshold.  The history reports 0 for
the greatest and the smallest amount of no transactions, so over an empty
history they compare the threshold with 0 (`extremum_witness_iff`).
-/

namespace RulesEngine.Engine

open RulesEngine.Foundations
open RulesEngine.Lists

/-! ### The operators -/

/-- The common body: `typeof` both values is `'number'`, and they compare. -/
def compareNumbers (compare : ℚ → ℚ → Bool) (factValue compareValue : JsValue) : Bool :=
  match factValue, compareValue with
  | .json (.num fact), .json (.num value) => compare fact value
  | _, _ => false

def sumGreaterThan := compareNumbers fun fact value => decide (value < fact)
def sumGreaterThanOrEqual := compareNumbers fun fact value => decide (value ≤ fact)
def countGreaterThan := compareNumbers fun fact value => decide (value < fact)
def countGreaterThanOrEqual := compareNumbers fun fact value => decide (value ≤ fact)
def avgGreaterThan := compareNumbers fun fact value => decide (value < fact)
def avgGreaterThanOrEqual := compareNumbers fun fact value => decide (value ≤ fact)
def maxGreaterThan := compareNumbers fun fact value => decide (value < fact)
def maxGreaterThanOrEqual := compareNumbers fun fact value => decide (value ≤ fact)
def minLessThan := compareNumbers fun fact value => decide (fact < value)
def minLessThanOrEqual := compareNumbers fun fact value => decide (fact ≤ value)

/-- `compareValue.min` and `compareValue.max` are numbers around the fact. -/
def amountBetween (factValue compareValue : JsValue) : Bool :=
  match factValue, compareValue with
  | .json (.num fact), .json bounds =>
      match Json.prop? (some bounds) "min", Json.prop? (some bounds) "max" with
      | some (.num min), some (.num max) => decide (min ≤ fact) && decide (fact ≤ max)
      | _, _ => false
  | _, _ => false

def aggregationOperators : List (String × (JsValue → JsValue → Bool)) :=
  [("sumGreaterThan", sumGreaterThan),
    ("sumGreaterThanOrEqual", sumGreaterThanOrEqual),
    ("countGreaterThan", countGreaterThan),
    ("countGreaterThanOrEqual", countGreaterThanOrEqual),
    ("avgGreaterThan", avgGreaterThan),
    ("avgGreaterThanOrEqual", avgGreaterThanOrEqual),
    ("maxGreaterThan", maxGreaterThan),
    ("maxGreaterThanOrEqual", maxGreaterThanOrEqual),
    ("minLessThan", minLessThan),
    ("minLessThanOrEqual", minLessThanOrEqual),
    ("amountBetween", amountBetween)]

/-! ### Extremum rules -/

/-- The operators on the greatest and the smallest amount. -/
inductive ExtremumOperator where
  | maxGreaterThan
  | maxGreaterThanOrEqual
  | minLessThan
  | minLessThanOrEqual
deriving DecidableEq, Repr

namespace ExtremumOperator

/-- The aggregation the operator is meant for. -/
def aggregation : ExtremumOperator → Aggregation
  | maxGreaterThan => .max
  | maxGreaterThanOrEqual => .max
  | minLessThan => .min
  | minLessThanOrEqual => .min

def callback : ExtremumOperator → JsValue → JsValue → Bool
  | maxGreaterThan => Engine.maxGreaterThan
  | maxGreaterThanOrEqual => Engine.maxGreaterThanOrEqual
  | minLessThan => Engine.minLessThan
  | minLessThanOrEqual => Engine.minLessThanOrEqual

/-- An amount lies beyond a threshold. -/
def Beyond (operator : ExtremumOperator) (amount threshold : ℚ) : Prop :=
  match operator with
  | maxGreaterThan => threshold < amount
  | maxGreaterThanOrEqual => threshold ≤ amount
  | minLessThan => amount < threshold
  | minLessThanOrEqual => amount ≤ threshold

theorem callback_iff (operator : ExtremumOperator) (fact value : ℚ) :
    operator.callback (.json (.num fact)) (.json (.num value)) = true ↔
      operator.Beyond fact value := by
  cases operator <;> exact decide_eq_true_iff

/-- The extremum of some amounts lies beyond a threshold when one of them does. -/
theorem beyond_aggregate_iff (operator : ExtremumOperator) {amounts : List ℚ} (h : amounts ≠ [])
    (threshold : ℚ) :
    operator.Beyond (aggregate operator.aggregation amounts) threshold ↔
      ∃ amount ∈ amounts, operator.Beyond amount threshold := by
  have hmax := aggregate_max_isGreatest h
  have hmin := aggregate_min_isLeast h
  constructor
  · intro hbeyond
    refine ⟨_, ?_, hbeyond⟩
    cases operator
    · exact hmax.1
    · exact hmax.1
    · exact hmin.1
    · exact hmin.1
  · rintro ⟨amount, hmem, hbeyond⟩
    cases operator
    · exact lt_of_lt_of_le hbeyond (hmax.2 hmem)
    · exact le_trans hbeyond (hmax.2 hmem)
    · exact lt_of_le_of_lt (hmin.2 hmem) hbeyond
    · exact le_trans (hmin.2 hmem) hbeyond

theorem aggregate_nil (operator : ExtremumOperator) : aggregate operator.aggregation [] = 0 := by
  cases operator <;> rfl

/-- Whether the extremum lies beyond a threshold says whether some amount does,
    unless there is no amount and the default of `COALESCE` lies beyond it. -/
theorem beyond_aggregate_agrees_iff (operator : ExtremumOperator) (amounts : List ℚ)
    (threshold : ℚ) :
    (operator.Beyond (aggregate operator.aggregation amounts) threshold ↔
        ∃ amount ∈ amounts, operator.Beyond amount threshold) ↔
      amounts ≠ [] ∨ ¬ operator.Beyond 0 threshold := by
  by_cases hempty : amounts = []
  · subst hempty
    have hnone : ¬ ∃ amount ∈ ([] : List ℚ), operator.Beyond amount threshold := by
      rintro ⟨amount, hmem, -⟩
      exact List.not_mem_nil hmem
    rw [operator.aggregate_nil, iff_false_right hnone]
    exact ⟨Or.inr, fun h => h.resolve_left fun hne => hne rfl⟩
  · exact iff_of_true (operator.beyond_aggregate_iff hempty threshold) (Or.inl hempty)

end ExtremumOperator

section Verdicts

variable [NumberText] [DriverText] [NumberParsing]

/-- **Extremum rules.**  The fact is answered and the verdict on it says that
    some transaction of the effective window lies beyond the threshold if and
    only if the field leads to a column, the window starts at a date, and the
    query covers a transaction at all or 0 does not lie beyond the threshold. -/
theorem extremum_witness_iff (operator : ExtremumOperator) {query : HistoryQuery}
    {params : JsonObject} {almanac : Almanac} {account : String}
    (hstated : query.StatedBy params) (haccount : query.Account almanac account)
    (haggregation : query.aggregation = operator.aggregation)
    (maxTimeWindowDays : ℚ) (now : Int) (transactions : Table Transaction)
    (organizationId : String) (threshold : ℚ) :
    (∃ fact start,
      transactionHistory maxTimeWindowDays transactions now (.obj params) almanac organizationId =
        .ok fact ∧
      query.start maxTimeWindowDays now = some start ∧
      (operator.callback fact (.json (.num threshold)) = true ↔
        ∃ tx ∈ transactions.rows, query.Covers organizationId account start tx ∧
          operator.Beyond (query.column tx) threshold)) ↔
      query.NamesColumn ∧ ∃ start, query.start maxTimeWindowDays now = some start ∧
        ((∃ tx ∈ transactions.rows, query.Covers organizationId account start tx) ∨
          ¬ operator.Beyond 0 threshold) := by
  have hanswer := transactionHistory_ok_iff hstated haccount maxTimeWindowDays transactions now
    organizationId
  have hverdict : ∀ start,
      (operator.callback (.json (.num (aggregate query.aggregation
          ((query.history transactions organizationId account start).map query.column))))
        (.json (.num threshold)) = true ↔
        ∃ tx ∈ transactions.rows, query.Covers organizationId account start tx ∧
          operator.Beyond (query.column tx) threshold) ↔
      ((∃ tx ∈ transactions.rows, query.Covers organizationId account start tx) ∨
        ¬ operator.Beyond 0 threshold) := by
    intro start
    have hcovered : ∀ tx, tx ∈ query.history transactions organizationId account start ↔
        tx ∈ transactions.rows ∧ query.Covers organizationId account start tx :=
      fun _ => HistoryQuery.mem_history
    have hbeyond : (∃ amount ∈ (query.history transactions organizationId account start).map
        query.column, operator.Beyond amount threshold) ↔
          ∃ tx ∈ transactions.rows, query.Covers organizationId account start tx ∧
            operator.Beyond (query.column tx) threshold := by
      simp only [List.mem_map, exists_exists_and_eq_and]
      simp only [hcovered, and_assoc]
    have hsome : (query.history transactions organizationId account start).map query.column ≠ [] ↔
        ∃ tx ∈ transactions.rows, query.Covers organizationId account start tx := by
      rw [ne_eq, List.map_eq_nil_iff, List.eq_nil_iff_forall_not_mem, not_forall_not]
      exact exists_congr hcovered
    rw [operator.callback_iff, haggregation, ← hbeyond, ← hsome]
    exact operator.beyond_aggregate_agrees_iff _ threshold
  constructor
  · rintro ⟨fact, start, hok, hstart, hagrees⟩
    obtain ⟨hcolumn, start', hstart', rfl⟩ := (hanswer fact).mp hok
    obtain rfl : start = start' := Option.some.inj (hstart.symm.trans hstart')
    exact ⟨hcolumn, start, hstart, (hverdict start).mp hagrees⟩
  · rintro ⟨hcolumn, start, hstart, hcases⟩
    exact ⟨_, start, (hanswer _).mpr ⟨hcolumn, start, hstart, rfl⟩, hstart,
      (hverdict start).mpr hcases⟩

end Verdicts

/-- The smallest amount of account `acc` in the last 30 days. -/
def smallestAmount : HistoryQuery where
  aggregation := .min
  field := some "amount"
  timeWindowDays := 30
  transactionType := none
  accountId := some "acc"
  type_nonempty := HistoryQuery.nonempty_of_no_type

def smallestAmountParams : JsonObject :=
  [("aggregation", .str "min"), ("field", .str "amount"), ("timeWindowDays", .num 30),
    ("accountId", .str "acc")]

theorem smallestAmount_statedBy : smallestAmount.StatedBy smallestAmountParams :=
  ⟨rfl, rfl, rfl, rfl, rfl⟩

theorem smallestAmount_account (almanac : Almanac) : smallestAmount.Account almanac "acc" :=
  ⟨by decide, Or.inl rfl⟩

section Samples

attribute [local instance] NumberText.integers DriverText.stringsOnly NumberParsing.never

/-- A transaction of account `acc` two days after the window of `smallestAmount`
    begins. -/
def coveredTransaction : Transaction where
  id := "8e5b0f61-2d7c-4a39-b1e4-96c3d0f7a852"
  idOrganization := sampleUuid
  idAccount := "acc"
  amount := 5
  amountNormalized := 5
  currency := "USD"
  type := "transfer"
  datetime := some (-2419200000)
  date := "1969-12-04"
  isVoided := false
  isBlocked := false
  isDeleted := false
  data := []
  country := none
  counterpartyId := none
  counterpartyCountry := none

def coveredTable : Table Transaction := ⟨[coveredTransaction], List.nodup_singleton _⟩

theorem smallestAmount_covers :
    smallestAmount.Covers sampleUuid "acc" (-2592000000) coveredTransaction where
  organization := by decide +kernel
  account := rfl
  type := by decide
  notVoided := rfl
  notDeleted := rfl
  window := ⟨-2419200000, rfl, by decide⟩

/-- Over a history with one transaction of 5, less than 10 holds of the smallest
    amount and has its witness. -/
theorem extremum_witness_iff_sample :
    ∃ fact start,
      transactionHistory 30 coveredTable 0 (.obj smallestAmountParams) (fun _ => .ok .undefined)
        sampleUuid = .ok fact ∧
      smallestAmount.start 30 0 = some start ∧
      (minLessThan fact (.json (.num 10)) = true ↔
        ∃ tx ∈ coveredTable.rows,
          smallestAmount.Covers sampleUuid "acc" start tx ∧ tx.amount < 10) :=
  (extremum_witness_iff .minLessThan smallestAmount_statedBy (smallestAmount_account _) rfl 30 0
    coveredTable sampleUuid 10).mpr
    ⟨Or.inr (by decide), -2592000000, by decide +kernel,
      Or.inl ⟨coveredTransaction, List.mem_singleton_self _, smallestAmount_covers⟩⟩

/-- Without a single transaction, the smallest amount passes for less than 10. -/
theorem empty_history_fires :
    ∃ fact,
      transactionHistory 30 Table.empty 0 (.obj smallestAmountParams) (fun _ => .ok .undefined)
        sampleUuid = .ok fact ∧
      minLessThan fact (.json (.num 10)) = true ∧
      ¬ ∃ tx ∈ (Table.empty : Table Transaction).rows,
        smallestAmount.Covers sampleUuid "acc" (-2592000000) tx ∧ tx.amount < 10 := by
  have hanswer := transactionHistory_ok_iff smallestAmount_statedBy
    (smallestAmount_account fun _ => .ok .undefined) 30 Table.empty 0 sampleUuid (.json (.num 0))
  refine ⟨.json (.num 0), ?_, by decide +kernel, ?_⟩
  · exact hanswer.mpr ⟨Or.inr (by decide), -2592000000, by decide +kernel, rfl⟩
  rintro ⟨tx, htx, -⟩
  exact List.not_mem_nil htx

end Samples

end RulesEngine.Engine
