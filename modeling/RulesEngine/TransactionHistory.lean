import RulesEngine.FactProviders
import Mathlib.Order.Bounds.Defs

/-!
# What a history condition asks for

A condition on `transactionHistory` states its query in a `params` object
(`HistoryQuery.StatedBy`).  The provider answers it whenever the window starts
at a date and the field leads to a column; the answer is an aggregate over the
transactions `selectHistory` keeps (`transactionHistory_ok_iff`).  `getPropertyName`
sends an unknown field to `amountNormalized`, but it looks the field up in an
object literal, where the names every object inherits are found too.
-/

namespace RulesEngine.Engine

open RulesEngine.Foundations
open RulesEngine.Lists

/-! ### Queries -/

def Aggregation.name : Aggregation → String
  | .sum => "sum"
  | .count => "count"
  | .avg => "avg"
  | .max => "max"
  | .min => "min"

@[simp] theorem parseAggregation_name (aggregation : Aggregation) :
    parseAggregation (some (.str aggregation.name)) = some aggregation := by
  cases aggregation <;> rfl

/-- `TransactionHistoryParams`.  The type of a stored transaction is a
    non-empty text. -/
structure HistoryQuery where
  aggregation : Aggregation
  field : Option String
  timeWindowDays : ℚ
  transactionType : Option String
  accountId : Option String
  type_nonempty : ∀ type ∈ transactionType, type ≠ ""

namespace HistoryQuery

theorem nonempty_of_no_type : ∀ type ∈ (none : Option String), type ≠ "" := by
  intro type htype
  cases htype

/-- The `params` object of a condition that states the query. -/
structure StatedBy (query : HistoryQuery) (params : JsonObject) : Prop where
  aggregation : params.get? "aggregation" = some (.str query.aggregation.name)
  field : params.get? "field" = query.field.map .str
  timeWindowDays : params.get? "timeWindowDays" = some (.num query.timeWindowDays)
  transactionType : params.get? "transactionType" = query.transactionType.map .str
  accountId : params.get? "accountId" = query.accountId.map .str

/-- The account the query is about: the one it names, or else the account of
    the context transaction. -/
def Account (query : HistoryQuery) (almanac : Almanac) (account : String) : Prop :=
  account ≠ "" ∧ (query.accountId = some account ∨
    (query.accountId = none ∨ query.accountId = some "") ∧
      almanac "transaction.idAccount" = .ok (.json (.str account)))

/-- The column the query aggregates. -/
def column (query : HistoryQuery) : Transaction → ℚ :=
  if query.field = some "amount" then Transaction.amount else Transaction.amountNormalized

/-- The field leads to a column; a count needs none. -/
def NamesColumn (query : HistoryQuery) : Prop :=
  query.aggregation = .count ∨ ∀ name ∈ query.field, name ∉ inheritedNames

/-- The start of the window, clamped to the configured maximum. -/
def start (query : HistoryQuery) (maxTimeWindowDays : ℚ) (now : Int) : JsDate :=
  windowStart now ((JsNumber.finite query.timeWindowDays).min (.finite maxTimeWindowDays))

/-- The transactions an answered query aggregates. -/
def history (query : HistoryQuery) (transactions : Table Transaction)
    (organizationId account : String) (start : Int) : List Transaction :=
  selectHistory transactions organizationId account start query.transactionType

/-- The query is about the transaction: it belongs to the organization and the
    account, has the type if one is asked for, is neither voided nor deleted,
    and is later than the start of the window. -/
structure Covers (query : HistoryQuery) (organizationId account : String)
    (start : Int) (tx : Transaction) : Prop where
  organization : tx.idOrganization = pgUuid organizationId
  account : tx.idAccount = account
  type : ∀ type ∈ query.transactionType, tx.type = type
  notVoided : tx.isVoided = false
  notDeleted : tx.isDeleted = false
  window : ∃ datetime ∈ tx.datetime, start < datetime

theorem mem_history {query : HistoryQuery} {transactions : Table Transaction}
    {organizationId account : String} {start : Int} {tx : Transaction} :
    tx ∈ query.history transactions organizationId account start ↔
      tx ∈ transactions.rows ∧ query.Covers organizationId account start tx := by
  simp only [history, selectHistory, List.mem_filter, decide_eq_true_eq]
  constructor
  · rintro ⟨hmem, horganization, haccount, hwindow, hvoided, hdeleted, htype⟩
    exact ⟨hmem, horganization, haccount, htype, hvoided, hdeleted, hwindow⟩
  · rintro ⟨hmem, horganization, haccount, htype, hvoided, hdeleted, hwindow⟩
    exact ⟨hmem, horganization, haccount, hwindow, hvoided, hdeleted, htype⟩

end HistoryQuery

/-- Going back a whole number of days. -/
theorem windowStart_int (now days : Int) :
    windowStart now (.finite days) = JsDate.timeClip (now - days * JsDate.msPerDay) := by
  have hnumber : (JsDate.dayOfMonth now : ℚ) - days =
      ((JsDate.dayOfMonth now - days : Int) : ℚ) := by push_cast; rfl
  simp only [windowStart, hnumber, Rat.num_intCast, Rat.den_intCast, Nat.cast_one,
    Int.tdiv_one, JsDate.setUTCDate, JsDate.day, JsDate.timeWithinDay, JsDate.msPerDay]
  congr 1
  omega

theorem HistoryQuery.start_int {query : HistoryQuery} {days : Int}
    (hdays : query.timeWindowDays = days) (max now : Int) :
    query.start max now = JsDate.timeClip (now - min days max * JsDate.msPerDay) := by
  have hmin : (if (days : ℚ) ≤ max then (days : ℚ) else max) = ((min days max : Int) : ℚ) := by
    by_cases h : days ≤ max
    · rw [if_pos (Int.cast_le.mpr h), Int.min_eq_left h]
    · rw [if_neg (fun hle => h (Int.cast_le.mp hle)), Int.min_eq_right (by omega)]
  rw [HistoryQuery.start, hdays, JsNumber.min, hmin, windowStart_int]

section Parameters

variable {query : HistoryQuery} {params : JsonObject} {almanac : Almanac} {account : String}

theorem historyAccount_of_account (hstated : query.StatedBy params)
    (haccount : query.Account almanac account) :
    historyAccount (.obj params) almanac = .ok (.json (.str account)) := by
  obtain ⟨hne, hsource⟩ := haccount
  have hparam : readParam (.obj params) "accountId" = .ok (query.accountId.map .str) :=
    congrArg Except.ok hstated.accountId
  simp only [historyAccount, hparam, bind, Except.bind]
  rcases hsource with hgiven | ⟨hnone | hempty, hcontext⟩
  · simp [hgiven, Json.truthy, hne, JsValue.ofOption, pure, Except.pure]
  · simp [hnone, Json.truthy, hcontext]
  · simp [hempty, Json.truthy, hcontext]

variable [NumberText]

theorem selectField_ok {field : Option String} (h : ∀ name ∈ field, name ∉ inheritedNames) :
    selectField (field.map .str) =
      .ok (if field = some "amount" then Transaction.amount else Transaction.amountNormalized) := by
  cases field with
  | none => rfl
  | some name =>
      have hname := h name rfl
      by_cases hamount : name = "amount"
      · subst hamount
        rfl
      · simp [selectField, bind, Except.bind, hamount, hname]
        rfl

theorem selectField_inherited {name : String} (h : name ∈ inheritedNames) :
    selectField (some (.str name)) = .error (.error "syntax error in the aggregate") := by
  have hamount : name ≠ "amount" := by
    rintro rfl
    exact absurd h (by decide)
  simp [selectField, bind, Except.bind, hamount, h]

end Parameters

/-- The type filter of the query the provider builds is the one stated. -/
theorem typeText_of_query [DriverText] (query : HistoryQuery) :
    (if Json.truthy (query.transactionType.map .str) then
      some (pgText (JsValue.ofOption (query.transactionType.map .str))) else none) =
        query.transactionType := by
  cases hquery : query.transactionType with
  | none => rfl
  | some type =>
      have hne : type ≠ "" := query.type_nonempty type hquery
      simp [Json.truthy, hne, JsValue.ofOption, pgText]

section Answers

variable [NumberText] [DriverText] [NumberParsing]
variable {query : HistoryQuery} {params : JsonObject} {almanac : Almanac} {account : String}

/-- **The answer to a query.** -/
theorem transactionHistory_ok_iff (hstated : query.StatedBy params)
    (haccount : query.Account almanac account) (maxTimeWindowDays : ℚ)
    (transactions : Table Transaction) (now : Int) (organizationId : String) (answer : JsValue) :
    transactionHistory maxTimeWindowDays transactions now (.obj params) almanac organizationId =
        .ok answer ↔
      query.NamesColumn ∧ ∃ start, query.start maxTimeWindowDays now = some start ∧
        answer = .json (.num (aggregate query.aggregation
          ((query.history transactions organizationId account start).map query.column))) := by
  have hread : ∀ name, readParam (.obj params) name = .ok (params.get? name) := fun _ => rfl
  have htruthy : (JsValue.json (.str account)).truthy = true := by
    simp [JsValue.truthy, Json.truthy, haccount.1]
  unfold transactionHistory
  simp only [hread, bind, Except.bind, historyAccount_of_account hstated haccount, htruthy,
    hstated.aggregation, hstated.field, hstated.timeWindowDays, hstated.transactionType,
    parseAggregation_name, toNumber, typeText_of_query, Bool.true_eq_false, if_false]
  unfold HistoryQuery.start
  cases hstart : windowStart now
      ((JsNumber.finite query.timeWindowDays).min (.finite maxTimeWindowDays)) with
  | none =>
      -- no date to compare with: the query fails whatever it selects
      by_cases hcount : query.aggregation = .count
      · simp [hcount]
      · cases hselect : selectField (query.field.map .str) <;> simp [hcount]
  | some start =>
      by_cases hcount : query.aggregation = .count
      · simp [hcount, HistoryQuery.NamesColumn, aggregate, HistoryQuery.history, pgText, pure,
          Except.pure, eq_comm]
      · by_cases hnames : ∀ name ∈ query.field, name ∉ inheritedNames
        · have hcolumn : query.NamesColumn := Or.inr hnames
          rw [if_neg hcount, selectField_ok hnames]
          simp only [hcolumn, true_and, Option.some.injEq, exists_eq_left']
          exact ⟨fun h => (Except.ok.inj h).symm, fun h => h ▸ rfl⟩
        · have hcolumn : ¬ query.NamesColumn := fun h => h.elim hcount hnames
          simp only [not_forall, not_not] at hnames
          obtain ⟨name, hfield, hinherited⟩ := hnames
          rw [if_neg hcount, Option.mem_def.mp hfield, Option.map_some,
            selectField_inherited hinherited]
          simp [hcolumn]

end Answers

/-! ### Aggregates -/

/-- What an aggregate of a column is; of no rows it is 0. -/
def IsAggregate (aggregation : Aggregation) (values : List ℚ) (result : ℚ) : Prop :=
  match aggregation with
  | .sum => result = values.sum
  | .count => result = values.length
  | .avg => if values = [] then result = 0 else result * values.length = values.sum
  | .max => if values = [] then result = 0 else IsGreatest {value | value ∈ values} result
  | .min => if values = [] then result = 0 else IsLeast {value | value ∈ values} result

/-- Folding a choice between two values that never falls behind either of them
    finds a value that is behind none. -/
theorem foldl_choice {α : Type} {r : α → α → Prop} {choice : α → α → α} (hrefl : ∀ a, r a a)
    (htrans : ∀ {a b c}, r a b → r b c → r a c)
    (hchoice : ∀ a b, (choice a b = a ∨ choice a b = b) ∧ r a (choice a b) ∧ r b (choice a b))
    (first : α) (rest : List α) :
    rest.foldl choice first ∈ first :: rest ∧
      ∀ value ∈ first :: rest, r value (rest.foldl choice first) := by
  induction rest generalizing first with
  | nil => exact ⟨List.mem_cons_self, fun value hvalue => by
      rw [List.mem_singleton.mp hvalue]
      exact hrefl _⟩
  | cons next rest ih =>
      obtain ⟨hone, hfirst, hnext⟩ := hchoice first next
      obtain ⟨hmem, hbound⟩ := ih (choice first next)
      have hchosen := hbound _ List.mem_cons_self
      rw [List.foldl_cons]
      refine ⟨?_, ?_⟩
      · rcases List.mem_cons.mp hmem with heq | hin
        · rw [heq]
          rcases hone with h | h <;> simp [h]
        · exact List.mem_cons_of_mem _ (List.mem_cons_of_mem _ hin)
      · intro value hvalue
        rcases List.mem_cons.mp hvalue with rfl | hin
        · exact htrans hfirst hchosen
        · rcases List.mem_cons.mp hin with rfl | hlater
          · exact htrans hnext hchosen
          · exact hbound value (List.mem_cons_of_mem _ hlater)

theorem aggregate_max_isGreatest {values : List ℚ} (h : values ≠ []) :
    IsGreatest {value | value ∈ values} (aggregate .max values) := by
  obtain ⟨first, rest, rfl⟩ := List.exists_cons_of_ne_nil h
  apply foldl_choice (r := fun a b : ℚ => a ≤ b) le_refl le_trans
  intro a b
  by_cases hab : a ≤ b
  · simp [hab]
  · simp [hab, le_of_not_ge hab]

theorem aggregate_min_isLeast {values : List ℚ} (h : values ≠ []) :
    IsLeast {value | value ∈ values} (aggregate .min values) := by
  obtain ⟨first, rest, rfl⟩ := List.exists_cons_of_ne_nil h
  apply foldl_choice (r := fun a b : ℚ => b ≤ a) le_refl (fun hab hbc => le_trans hbc hab)
  intro a b
  by_cases hab : a ≤ b
  · simp [hab]
  · simp [hab, le_of_not_ge hab]

theorem isAggregate_aggregate (aggregation : Aggregation) (values : List ℚ) :
    IsAggregate aggregation values (aggregate aggregation values) := by
  by_cases hempty : values = []
  · subst hempty
    cases aggregation <;> simp [IsAggregate, aggregate]
  · have hlength : (values.length : ℚ) ≠ 0 := by
      simpa using hempty
    cases aggregation with
    | sum => rfl
    | count => rfl
    | avg => simp [IsAggregate, aggregate, hempty, div_mul_cancel₀ _ hlength]
    | max => simpa only [IsAggregate, if_neg hempty] using aggregate_max_isGreatest hempty
    | min => simpa only [IsAggregate, if_neg hempty] using aggregate_min_isLeast hempty

end RulesEngine.Engine
