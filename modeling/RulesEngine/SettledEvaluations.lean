import RulesEngine.RuleConditions
import RulesEngine.Foundations.Settlement

/-!
# Evaluations that settle in any order

`evaluate` starts the evaluations of all rules at once, waits until every one
has settled, and walks over the results by index, reading the rule of a failure
back from the list of rules.  Whatever the order, the loop collects what each
rule contributes, rule after rule (`evaluateSettling_eq_some_iff`), so
evaluations add up and a rule that fails touches no other
(`evaluations_compose`).
-/

namespace RulesEngine.Engine

open RulesEngine.Foundations

/-! ### Settled evaluations -/

/-- An element of the array `Promise.allSettled` resolves to. -/
inductive Settled where
  | fulfilled (rule : CachedRule) (events : List EngineEvent)
  | rejected (reason : Thrown)

/-- A rule and how its evaluation ends. -/
structure RuleRun where
  rule : CachedRule
  outcome : Except Thrown (List EngineEvent)

/-- `evaluateSingleRule(…).then((result) => ({ rule, result }))`. -/
def RuleRun.settled (run : RuleRun) : Settled :=
  match run.outcome with
  | .ok events => .fulfilled run.rule events
  | .error reason => .rejected reason

/-- The arrays `events` and `failedRules`. -/
abbrev Collected := List RuleEvent × List FailedRule

/-- The turn of the loop at index `i`.  A property of `undefined` cannot be read,
    and the arrays stay as they are then. -/
def collectAt (rules : List CachedRule) (settledResults : List Settled) (collected : Collected)
    (i : Nat) : Except Collected Collected :=
  match settledResults[i]? with
  | some (.fulfilled rule events) =>
      .ok (collected.1 ++ events.map (assembleEvent rule), collected.2)
  | some (.rejected reason) =>
      match rules[i]? with
      | some rule =>
          .ok (collected.1, collected.2 ++
            [{ ruleId := rule.id, ruleName := rule.name, error := errorMessage reason }])
      | none => .error collected
  | none => .error collected

/-- `evaluate` over loaded rules, with the order in which their evaluations
    settle; there is no result while one is pending. -/
def evaluateSettling (runs : List RuleRun) (order : List Nat) : Option EvaluationResult :=
  let rules := runs.map RuleRun.rule
  if rules.length = 0 then some (buildResult [] [] 0)
  else
    (allSettled (runs.map RuleRun.settled) order).map fun settledResults =>
      match (List.range settledResults.length).foldlM (collectAt rules settledResults) ([], []) with
      | .ok (events, failedRules) => buildResult events failedRules rules.length
      -- the outer `catch`
      | .error (events, failedRules) => buildResult events failedRules 0

/-! ### Contributions -/

def RuleRun.events (run : RuleRun) : List RuleEvent := eventsOf (fun _ => run.outcome) run.rule

def RuleRun.failures (run : RuleRun) : List FailedRule := failuresOf (fun _ => run.outcome) run.rule

/-- A rule contributes its events, or one failure under its id and name. -/
def RuleRun.ContributesOnce (run : RuleRun) : Prop :=
  (∃ events, run.outcome = .ok events ∧ run.events = events.map (assembleEvent run.rule) ∧
      run.failures = []) ∨
    ∃ e failed, run.outcome = .error e ∧ run.events = [] ∧ run.failures = [failed] ∧
      failed.ruleId = run.rule.id ∧ failed.ruleName = run.rule.name

theorem RuleRun.contributesOnce (run : RuleRun) : run.ContributesOnce := by
  obtain ⟨rule, outcome⟩ := run
  cases outcome with
  | ok events => exact Or.inl ⟨events, rfl, rfl, rfl⟩
  | error e => exact Or.inr ⟨e, _, rfl, rfl, rfl, rfl, rfl⟩

/-- What an evaluation reports, rule after rule. -/
def report (runs : List RuleRun) : EvaluationResult :=
  buildResult (runs.flatMap RuleRun.events) (runs.flatMap RuleRun.failures) runs.length

/-! ### The loop collects the contributions -/

theorem collectAt_eq {runs : List RuleRun} {i : Nat} {run : RuleRun} (h : runs[i]? = some run)
    (collected : Collected) :
    collectAt (runs.map RuleRun.rule) (runs.map RuleRun.settled) collected i =
      .ok (collected.1 ++ run.events, collected.2 ++ run.failures) := by
  obtain ⟨rule, outcome⟩ := run
  unfold collectAt
  rw [List.getElem?_map, List.getElem?_map, h]
  cases outcome with
  | ok events => simp [RuleRun.settled, RuleRun.events, RuleRun.failures, eventsOf, failuresOf]
  | error e => simp [RuleRun.settled, RuleRun.events, RuleRun.failures, eventsOf, failuresOf]

/-- After `n` turns the loop has collected the first `n` contributions. -/
theorem foldlM_collectAt (runs : List RuleRun) {n : Nat} (hn : n ≤ runs.length) :
    (List.range n).foldlM (collectAt (runs.map RuleRun.rule) (runs.map RuleRun.settled)) ([], []) =
      .ok ((runs.take n).flatMap RuleRun.events, (runs.take n).flatMap RuleRun.failures) := by
  induction n with
  | zero => rfl
  | succ n ih =>
      have hrun : runs[n]? = some runs[n] := List.getElem?_eq_getElem hn
      rw [List.range_succ, List.foldlM_append, ih (Nat.le_of_succ_le hn)]
      simp only [bind, Except.bind, List.foldlM_cons, List.foldlM_nil, collectAt_eq hrun, pure,
        Except.pure, List.take_succ_eq_append_getElem hn, List.flatMap_append,
        List.flatMap_singleton]

/-- **Every settling order gives the same report.** -/
theorem evaluateSettling_eq_some_iff (runs : List RuleRun) (order : List Nat)
    (result : EvaluationResult) :
    evaluateSettling runs order = some result ↔
      (runs = [] ∨ order.Perm (List.range runs.length)) ∧ result = report runs := by
  unfold evaluateSettling
  by_cases hempty : runs = []
  · subst hempty
    simp [report, eq_comm]
  · have hlength : ¬ (runs.map RuleRun.rule).length = 0 := by simpa using hempty
    have hloop := foldlM_collectAt runs (Nat.le_refl _)
    rw [List.take_length] at hloop
    dsimp only
    rw [if_neg hlength, Option.map_eq_some_iff]
    simp only [allSettled_eq_some_iff, List.length_map, hempty, false_or]
    constructor
    · rintro ⟨settledResults, ⟨hperm, rfl⟩, rfl⟩
      refine ⟨hperm, ?_⟩
      rw [List.length_map, hloop]
      rfl
    · rintro ⟨hperm, rfl⟩
      refine ⟨_, ⟨hperm, rfl⟩, ?_⟩
      rw [List.length_map, hloop]
      rfl

/-- The loaded rules of an evaluation, each with the outcome of its own. -/
def Collaborators.runs (c : Collaborators) (cached : CachedRules) : List RuleRun :=
  cached.rules.map fun rule => { rule, outcome := c.evaluateSingleRule rule }

/-- An evaluation of loaded rules is the report over them, in whatever order they
    settle. -/
theorem evaluateSettling_runs {c : Collaborators} {cached : CachedRules}
    (h : getCachedRules c = .ok cached) {order : List Nat}
    (horder : order.Perm (List.range cached.rules.length)) :
    evaluateSettling (c.runs cached) order = some (evaluate c) := by
  have hlength : (c.runs cached).length = cached.rules.length := by
    simp [Collaborators.runs]
  rw [evaluateSettling_eq_some_iff, hlength]
  refine ⟨Or.inr horder, ?_⟩
  rw [evaluate_of_ok h]
  simp only [report, Collaborators.runs, List.flatMap_map, List.length_map]
  rfl

/-! ### Composition and isolation -/

theorem report_append (rs qs : List RuleRun) :
    (report (rs ++ qs)).events = (report rs).events ++ (report qs).events ∧
      (report (rs ++ qs)).failedRules = (report rs).failedRules ++ (report qs).failedRules ∧
      (report (rs ++ qs)).evaluatedRulesCount =
        (report rs).evaluatedRulesCount + (report qs).evaluatedRulesCount :=
  ⟨List.flatMap_append, List.flatMap_append, List.length_append⟩

/-- The contribution of a rule stands between those of the rules before and after
    it. -/
theorem report_at (before after : List RuleRun) (run : RuleRun) :
    (report (before ++ run :: after)).events =
        before.flatMap RuleRun.events ++ (run.events ++ after.flatMap RuleRun.events) ∧
      (report (before ++ run :: after)).failedRules =
        before.flatMap RuleRun.failures ++ (run.failures ++ after.flatMap RuleRun.failures) := by
  simp only [report, buildResult, List.flatMap_append, List.flatMap_cons, and_self]

/-- **Evaluations compose and isolate faults.**  Whatever the outcomes of the rules
    and the orders in which they settle, an evaluation of `rs ++ qs` reports what
    one of `rs` reports followed by what one of `qs` reports; every rule
    contributes its events or one failure, in its own position; and another
    outcome of one rule replaces its contribution only. -/
theorem evaluations_compose (rs qs : List RuleRun) {orderR orderQ order : List Nat}
    (hR : orderR.Perm (List.range rs.length)) (hQ : orderQ.Perm (List.range qs.length))
    (horder : order.Perm (List.range (rs ++ qs).length)) :
    ∃ r q both, evaluateSettling rs orderR = some r ∧ evaluateSettling qs orderQ = some q ∧
      evaluateSettling (rs ++ qs) order = some both ∧
      (both.events = r.events ++ q.events ∧ both.failedRules = r.failedRules ++ q.failedRules ∧
        both.evaluatedRulesCount = r.evaluatedRulesCount + q.evaluatedRulesCount) ∧
      (both.events = (rs ++ qs).flatMap RuleRun.events ∧
        both.failedRules = (rs ++ qs).flatMap RuleRun.failures ∧
        ∀ run ∈ rs ++ qs, run.ContributesOnce) ∧
      ∀ before run after outcome order', rs ++ qs = before ++ run :: after →
        order'.Perm (List.range (rs ++ qs).length) →
        ∃ changed,
          evaluateSettling (before ++ { run with outcome } :: after) order' = some changed ∧
          changed.events = before.flatMap RuleRun.events ++
            (RuleRun.events { run with outcome } ++ after.flatMap RuleRun.events) ∧
          both.events = before.flatMap RuleRun.events ++
            (run.events ++ after.flatMap RuleRun.events) ∧
          changed.failedRules = before.flatMap RuleRun.failures ++
            (RuleRun.failures { run with outcome } ++ after.flatMap RuleRun.failures) ∧
          both.failedRules = before.flatMap RuleRun.failures ++
            (run.failures ++ after.flatMap RuleRun.failures) ∧
          changed.evaluatedRulesCount = both.evaluatedRulesCount := by
  have hreports : ∀ runs order, order.Perm (List.range runs.length) →
      evaluateSettling runs order = some (report runs) := fun runs order hperm =>
    (evaluateSettling_eq_some_iff runs order _).mpr ⟨Or.inr hperm, rfl⟩
  refine ⟨report rs, report qs, report (rs ++ qs), hreports rs orderR hR, hreports qs orderQ hQ,
    hreports (rs ++ qs) order horder, report_append rs qs,
    ⟨rfl, rfl, fun run _ => run.contributesOnce⟩, ?_⟩
  intro before run after outcome order' hsplit horder'
  have hlength : (before ++ { run with outcome } :: after).length = (rs ++ qs).length := by
    rw [hsplit]
    simp
  have hchanged : order'.Perm (List.range (before ++ { run with outcome } :: after).length) := by
    rw [hlength]
    exact horder'
  obtain ⟨hevents, hfailures⟩ := report_at before after run
  obtain ⟨hevents', hfailures'⟩ := report_at before after { run with outcome }
  rw [← hsplit] at hevents hfailures
  exact ⟨_, hreports _ order' hchanged, hevents', hevents, hfailures', hfailures, hlength⟩

/-! ### A rule that fires and a rule that fails -/

/-- The evaluation of a rule on a transaction of 100. -/
def sampleRun (rule : CachedRule) : RuleRun :=
  ⟨rule, evaluateSingleRule factsOnlyRun noProviders bareContext "org" rule⟩

def firingRun : RuleRun := sampleRun ⟨"a", "fires", 1, overFiftyConfig [] []⟩

def failingRun : RuleRun := sampleRun ⟨"b", "fails", 2, []⟩

/-- The rule that fails settles first; the other one reports its event. -/
theorem evaluations_compose_sample :
    ∃ r q both, evaluateSettling [firingRun] [0] = some r ∧
      evaluateSettling [failingRun] [0] = some q ∧
      evaluateSettling ([firingRun] ++ [failingRun]) [1, 0] = some both ∧
      both.events = r.events ++ q.events ∧ both.events.length = 1 ∧
      both.failedRules =
        [⟨"b", "fails", "Cannot read properties of undefined (reading 'any')"⟩] := by
  obtain ⟨r, q, both, hr, hq, hboth, ⟨hsum, -, -⟩, ⟨hevents, hfailures, -⟩, -⟩ :=
    evaluations_compose [firingRun] [failingRun] (List.Perm.refl [0]) (List.Perm.refl [0])
      (List.Perm.swap 0 1 [])
  refine ⟨r, q, both, hr, hq, hboth, hsum, ?_, ?_⟩
  · rw [hevents]
    decide +kernel
  · rw [hfailures]
    decide +kernel

end RulesEngine.Engine
