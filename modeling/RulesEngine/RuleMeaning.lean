import RulesEngine.RuleTests

/-!
# What rules mean

A rule is any combination of tests of facts, of histories and of lists.  After
any run of the application it fires exactly when its conditions hold of the
evaluated transaction and of the requests that went through before
(`rule_fires_iff`): the transactions that were entered and not voided, and the
list entries that were created and not removed.  Requests that were refused, the
other writes and the state of the cache play no part.
-/

namespace RulesEngine.Engine

open RulesEngine.Foundations
open RulesEngine.Lists
open RulesEngine.Transactions

/-! ### Rules -/

inductive RuleTest where
  | fact (test : FactTest)
  | history (test : HistoryTest)
  | list (test : ListTest)

def RuleTest.fields : RuleTest → JsonObject
  | .fact test => test.fields
  | .history test => test.fields
  | .list test => test.fields

theorem RuleTest.isTest_fields (test : RuleTest) : IsTest test.fields := by
  cases test <;> exact ⟨_, _, rfl⟩

/-- What the tests of an evaluation are about. -/
structure Situation where
  organizationId : String
  context : EvaluationContext
  now : Int
  maxTimeWindowDays : ℚ
  transactions : List LedgerEntry
  entries : ListEntry → Prop

def Situation.facts (s : Situation) : Facts := buildFactsFromContext s.context s.organizationId

section Meaning

variable [UpperCase] [DriverText]

/-- A test of a fact has an outcome, and a window starts at a date. -/
def RuleTest.Answerable (s : Situation) : RuleTest → Prop
  | .fact test => ∃ b, test.outcome s.facts = .ok b
  | .history test => ∃ start, test.query.start s.maxTimeWindowDays s.now = some start
  | .list _ => True

/-- What a test says. -/
def RuleTest.Passes (s : Situation) : RuleTest → Prop
  | .fact test => test.outcome s.facts = .ok true
  | .history test => ∃ start, test.query.start s.maxTimeWindowDays s.now = some start ∧
      test.compare (test.query.answer s.transactions s.organizationId
        s.context.transaction.idAccount start) test.threshold = true
  | .list test => test.Wants (test.Finds s.entries s.organizationId s.facts)

end Meaning

/-! ### Outcomes -/

/-- No fact of an evaluation has the name of a provider of tables. -/
theorem lookup_provider (s : Situation) :
    s.facts.lookup "transactionHistory" = none ∧ s.facts.lookup "listLookup" = none := by
  unfold Situation.facts buildFactsFromContext
  cases s.context.account <;> cases s.context.metadata <;> exact ⟨rfl, rfl⟩

section Outcomes

variable [NumberText] [DriverText] [NumberParsing] [UpperCase]

/-- The providers of an evaluation over some tables. -/
def Situation.providers (s : Situation) (transactions : Table Transaction)
    (listEntries : Table ListEntry) : FactProviders :=
  createConfiguredEngine
    { transactions, listEntries, maxTimeWindowDays := s.maxTimeWindowDays, now := s.now }

variable {s : Situation} {transactions : Table Transaction} {listEntries : Table ListEntry}
  {almanac : Almanac}

omit [UpperCase] in
theorem resolveFact_history (hrows : List.Forall₂ Stores transactions.rows s.transactions)
    (listEntries : Table ListEntry) (halmanac : AnswersFacts s.facts almanac)
    {query : HistoryQuery} (hnames : query.NamesColumn) {start : Int}
    (hstart : query.start s.maxTimeWindowDays s.now = some start) :
    resolveFact s.facts (s.providers transactions listEntries) almanac "transactionHistory"
        (some (.obj query.params)) =
      .ok (.json (.num (query.answer s.transactions s.organizationId
        s.context.transaction.idAccount start))) := by
  have horg : almanac "organizationId" = .ok (.json (.str s.organizationId)) :=
    halmanac "organizationId" (by decide)
  have hown : almanac "transaction.idAccount" =
      .ok (.json (.str s.context.transaction.idAccount)) :=
    halmanac "transaction.idAccount" (by decide)
  rw [← transactionHistory_answer hrows hnames hown hstart s.organizationId]
  unfold resolveFact
  rw [(lookup_provider s).1]
  simp only [if_true, Situation.providers, createConfiguredEngine, horg]
  rfl

omit [UpperCase] in
theorem resolveFact_list (transactions : Table Transaction) (listEntries : Table ListEntry)
    (halmanac : AnswersFacts s.facts almanac) (test : ListTest) :
    ∃ found, resolveFact s.facts (s.providers transactions listEntries) almanac "listLookup"
        (some test.params) = .ok (.json (.bool found)) ∧
      (found = true ↔
        test.Finds (fun entry => entry ∈ listEntries.rows) s.organizationId s.facts) := by
  have horg : almanac "organizationId" = .ok (.json (.str s.organizationId)) :=
    halmanac "organizationId" (by decide)
  obtain ⟨found, hanswer, hfound⟩ :=
    listLookup_answer listEntries s.organizationId halmanac test s.now
  refine ⟨found, ?_, hfound⟩
  rw [← hanswer]
  unfold resolveFact
  rw [(lookup_provider s).2]
  simp only [Situation.providers, createConfiguredEngine, horg]
  rfl

/-- Over tables that are what the situation says, the engine finds for a test what it
    says. -/
theorem askTest_passes (hrows : List.Forall₂ Stores transactions.rows s.transactions)
    (hentries : ∀ entry, entry ∈ listEntries.rows ↔ s.entries entry)
    (halmanac : AnswersFacts s.facts almanac) {test : RuleTest} (h : test.Answerable s) :
    ∃ b, askTest s.facts (s.providers transactions listEntries) almanac test.fields = .ok b ∧
      (b = true ↔ test.Passes s) := by
  cases test with
  | fact test =>
      obtain ⟨b, hb⟩ := h
      refine ⟨b, (askTest_fact s.facts _ almanac test).trans hb, ?_⟩
      rw [RuleTest.Passes, hb]
      exact ⟨congrArg Except.ok, Except.ok.inj⟩
  | history test =>
      obtain ⟨start, hstart⟩ := h
      have hresolve := resolveFact_history hrows listEntries halmanac test.names hstart
      refine ⟨_, (askTest_provider rfl hresolve).trans (applyOperator_number test.known _ _), ?_⟩
      rw [RuleTest.Passes, hstart]
      simp only [Option.some.injEq, exists_eq_left']
  | list test =>
      obtain ⟨found, hresolve, hfound⟩ := resolveFact_list transactions listEntries halmanac test
      refine ⟨_, (askTest_provider rfl hresolve).trans (applyOperator_list _ found _), ?_⟩
      have hfinds : found = true ↔ test.Finds s.entries s.organizationId s.facts := by
        refine hfound.trans (exists_congr fun text => and_congr_right fun _ => ?_)
        exact exists_congr fun entry => and_congr_left fun _ => hentries entry
      rw [RuleTest.Passes, ListTest.Wants, ← hfinds]
      cases found <;> cases test.expected <;> cases test.operator.negated <;> simp

/-! ### Evaluations -/

variable {env : Environment} {start final : State} {ops : List Op}

/-- A rule of the language, whose tests can be answered in a situation. -/
structure Meaningful (s : Situation) (rule : CachedRule) (condition : Condition RuleTest) :
    Prop where
  conditions : rule.config.get? "conditions" = some (condition.toJson RuleTest.fields)
  root : IsRoot (condition.toJson RuleTest.fields)
  event : ∃ type, Json.prop? (rule.config.get? "event") "type" = some type
  answerable : ∀ test ∈ condition.tests, test.Answerable s

/-- Over tables that are what the situation says, a rule fires exactly when its
    conditions hold. -/
theorem fires_iff_holds (hjudges : JudgesConditions env.engineRun) {db : Database}
    (hrows : List.Forall₂ Stores db.transactions.rows s.transactions)
    (hentries : ∀ entry, entry ∈ db.listEntries.rows ↔ s.entries entry)
    (hdays : s.maxTimeWindowDays = env.maxTimeWindowDays) {rule : CachedRule}
    {condition : Condition RuleTest} (h : Meaningful s rule condition) :
    ∃ events, evaluateAgainst env db s.organizationId s.context s.now rule = .ok events ∧
      (events ≠ [] ↔ condition.Holds (RuleTest.Passes s)) := by
  obtain ⟨almanac, halmanac, hfires⟩ := hjudges
    { name := rule.name, conditions := rule.config.get? "conditions"
      event := rule.config.get? "event", priority := rule.priority }
    (condition.toJson RuleTest.fields) s.facts (s.providers db.transactions db.listEntries)
    h.conditions h.root h.event
  obtain ⟨fires, hjudge, hholds⟩ := judge_toJson RuleTest.isTest_fields condition
    fun test htest => askTest_passes hrows hentries halmanac (h.answerable test htest)
  obtain ⟨events, hevents, hne⟩ := hfires fires hjudge
  refine ⟨events, ?_, hne.trans hholds⟩
  rw [evaluateAgainst, ← hdays]
  exact hevents

/-- The situation of an evaluation after a run, in terms of the requests that went
    through. -/
def situationAfter (env : Environment) (start : State) (ops : List Op) (organizationId : String)
    (context : EvaluationContext) (now : Int) : Situation where
  organizationId := organizationId
  context := context
  now := now
  maxTimeWindowDays := env.maxTimeWindowDays
  transactions := ledgerOf (acceptedOps start.db ops)
  entries := StandingEntry start ops

/-- A result that reports the rules whose conditions hold, and no others. -/
structure Reports (s : Situation) (rules : List CachedRule)
    (conditionOf : CachedRule → Condition RuleTest) (result : EvaluationResult) : Prop where
  success : result.success = true
  failedRules : result.failedRules = []
  evaluated : result.evaluatedRulesCount = rules.length
  sound : ∀ event ∈ result.events, ∃ rule ∈ rules, (conditionOf rule).Holds (RuleTest.Passes s) ∧
    ∃ reported, event = assembleEvent rule reported
  complete : ∀ rule ∈ rules, (conditionOf rule).Holds (RuleTest.Passes s) →
    ∃ reported, assembleEvent rule reported ∈ result.events

omit [NumberText] [NumberParsing] in
theorem reports_of_ok {c : Collaborators} {cached : CachedRules}
    (hload : getCachedRules c = .ok cached) {conditionOf : CachedRule → Condition RuleTest}
    (hfires : ∀ rule ∈ cached.rules, ∃ events, c.evaluateSingleRule rule = .ok events ∧
      (events ≠ [] ↔ (conditionOf rule).Holds (RuleTest.Passes s))) :
    Reports s cached.rules conditionOf (evaluate c) := by
  have hfailed : cached.rules.flatMap (failuresOf c.evaluateSingleRule) = [] := by
    apply List.flatMap_eq_nil_iff.mpr
    intro rule hrule
    obtain ⟨events, hevents, -⟩ := hfires rule hrule
    simp only [failuresOf, hevents]
  rw [evaluate_of_ok hload, hfailed]
  refine ⟨rfl, rfl, rfl, ?_, ?_⟩
  · intro event hevent
    obtain ⟨rule, hrule, hof⟩ := List.mem_flatMap.mp hevent
    obtain ⟨events, hevents, hholds⟩ := hfires rule hrule
    simp only [eventsOf, hevents] at hof
    obtain ⟨reported, hreported, rfl⟩ := List.mem_map.mp hof
    exact ⟨rule, hrule, hholds.mp (List.ne_nil_of_mem hreported), reported, rfl⟩
  · intro rule hrule hholds
    obtain ⟨events, hevents, hiff⟩ := hfires rule hrule
    obtain ⟨reported, rest, rfl⟩ := List.exists_cons_of_ne_nil (hiff.mpr hholds)
    refine ⟨reported, List.mem_flatMap.mpr ⟨rule, hrule, ?_⟩⟩
    simp only [eventsOf, hevents]
    exact List.mem_map_of_mem List.mem_cons_self

/-- An evaluation after a run reports the loaded rules whose conditions hold. -/
theorem evaluation_reports (hjudges : JudgesConditions env.engineRun)
    (hstart : start.db.transactions = Table.empty)
    (hrun : runFrom (execOp env) start ops = some final) {organizationId : String}
    {context : EvaluationContext} {now : Int} {c : Collaborators}
    (hc : c.evaluateSingleRule = evaluateAgainst env final.db organizationId context now)
    {cached : CachedRules} (hload : getCachedRules c = .ok cached)
    {conditionOf : CachedRule → Condition RuleTest}
    (hrules : ∀ rule ∈ cached.rules,
      Meaningful (situationAfter env start ops organizationId context now) rule
        (conditionOf rule)) :
    Reports (situationAfter env start ops organizationId context now) cached.rules conditionOf
      (evaluate c) := by
  apply reports_of_ok hload
  intro rule hrule
  rw [hc]
  exact fires_iff_holds (s := situationAfter env start ops organizationId context now) hjudges
    (stores_run hstart hrun) (mem_listEntries_iff hrun) rfl (hrules rule hrule)

end Outcomes

/-! ### A rule on all three -/

section Sample

attribute [local instance] NumberText.integers DriverText.stringsOnly NumberParsing.never
  UpperCase.ascii

def judgingEnvironment : Environment := { sampleEnvironment with engineRun := judgingRun }

theorem amount_notProvided : "transaction.amount" ∉ providerNames := by decide

/-- The amount of the transaction is over 50. -/
def largeAmount : FactTest where
  factId := "transaction.amount"
  operator := "greaterThan"
  value := .num 50
  notProvided := amount_notProvided
  static := rfl

theorem idAccount_notProvided : "transaction.idAccount" ∉ providerNames := by decide

/-- The account of the transaction is on the blacklist. -/
def blacklistedAccount : ListTest where
  listType := .BLACKLIST
  entityType := .ACCOUNT
  value := .fact "transaction.idAccount" idAccount_notProvided
  operator := .equal
  expected := true

/-- The sum of the amounts of the account in the last 30 days. -/
def monthlyAmount : HistoryQuery where
  aggregation := .sum
  field := some "amount"
  timeWindowDays := 30
  transactionType := none
  accountId := none
  type_nonempty := HistoryQuery.nonempty_of_no_type

theorem monthlyAmount_names : monthlyAmount.NamesColumn := Or.inr (by decide)

theorem sumGreaterThan_known :
    ("sumGreaterThan", fun fact value => decide (value < fact)) ∈ numberOperators :=
  List.mem_cons_self

/-- The account of the transaction has moved over 150. -/
def busyAccount : HistoryTest where
  query := monthlyAmount
  operator := "sumGreaterThan"
  compare := fun fact value => decide (value < fact)
  threshold := 150
  names := monthlyAmount_names
  known := sumGreaterThan_known

def suspicious : Condition RuleTest :=
  .any (.all (.test (.fact largeAmount)) [.test (.history busyAccount)])
    [.test (.list blacklistedAccount)]

def suspiciousRule : CachedRule where
  id := "rule"
  name := "Suspicious account"
  priority := 10
  config :=
    [("conditions", suspicious.toJson RuleTest.fields),
      ("event", .obj [("type", .str "alert")])]

theorem monthlyAmount_start : monthlyAmount.start 30 10 = some (10 - 30 * JsDate.msPerDay) := by
  decide +kernel

/-- At instant 10, in an evaluation of the sample transaction. -/
theorem suspicious_answerable {s : Situation} (hcontext : s.context = sampleContext)
    (hnow : s.now = 10) (hmax : s.maxTimeWindowDays = 30) :
    ∀ test ∈ suspicious.tests, test.Answerable s := by
  obtain ⟨organizationId, context, now, maxTimeWindowDays, transactions, entries⟩ := s
  obtain rfl : context = sampleContext := hcontext
  obtain rfl : now = 10 := hnow
  obtain rfl : maxTimeWindowDays = 30 := hmax
  intro test htest
  rcases List.mem_cons.mp htest with rfl | htest
  · exact ⟨_, rfl⟩
  · rcases List.mem_cons.mp htest with rfl | htest
    · exact ⟨_, monthlyAmount_start⟩
    · obtain rfl := List.mem_singleton.mp htest
      trivial

/-- The account is blacklisted until instant 5. -/
def blacklistAccount : Op :=
  .plainWrite sampleUuid (.createListEntry ⟨.BLACKLIST, .ACCOUNT, "acc", some (some 5)⟩ "entry")

/-- A transaction of the account, and the blacklist. -/
def suspiciousOps : List Op :=
  [.plainWrite sampleUuid (.createTransaction sampleDto "first"), blacklistAccount]

/-- The same rule, stored. -/
def createSuspicious : Op :=
  .ruleWrite sampleUuid (.createRule
    { idTemplate := .absent
      name := "Suspicious account"
      enabled := .absent
      priority := .value 10
      config := .value suspiciousRule.config } "rule" 0)

/-- The account is on the blacklist and the rule is stored. -/
def blacklistedState : State :=
  (step judgingEnvironment (step judgingEnvironment State.initial blacklistAccount).1
    createSuspicious).1

theorem create_sample :
    ∃ db, Transactions.create sampleUuid sampleDto "tx" blacklistedState.db = .ok db :=
  isOk_iff.mp (by decide +kernel)

end Sample

end RulesEngine.Engine
