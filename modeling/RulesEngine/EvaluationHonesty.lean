import RulesEngine.TransactionsService

/-!
# What a successful evaluation says

`evaluate` reports `success` from the list of failed rules alone.  A failure to
load the rules ends in the outer `catch`, which leaves that list empty, and a
cache entry is taken at its word, so `success` does not imply that the enabled
rules were evaluated.  `honest_iff_loadsEnabled` says exactly when it does.
-/

namespace RulesEngine.Engine

open RulesEngine.Foundations
open RulesEngine.Transactions

/-- An evaluation of an organization whose enabled rules are `enabled`, with
    any pattern of failures of the collaborators.  (A failing `set` of the
    cache is swallowed and changes nothing.) -/
structure Scenario where
  enabled : List Rule
  isConnected : Bool
  clientGet : Except Thrown (Option CachedRules)
  findFailure : Option Thrown
  getEffectiveConfig : Rule → Except Thrown JsonObject
  evaluateSingleRule : CachedRule → Except Thrown (List EngineEvent)
  now : Int

def Scenario.collaborators (s : Scenario) : Collaborators where
  isConnected := s.isConnected
  clientGet := s.clientGet
  findEnabledByPriority :=
    match s.findFailure with
    | none => .ok s.enabled
    | some e => .error e
  getEffectiveConfig := s.getEffectiveConfig
  evaluateSingleRule := s.evaluateSingleRule
  now := s.now

/-- The rule was loaded and evaluated without error. -/
def Scenario.Evaluated (s : Scenario) (rule : Rule) : Prop :=
  ∃ cached, getCachedRules s.collaborators = .ok cached ∧
    ∃ loaded ∈ cached.rules, loaded.id = rule.id ∧
      ∃ events, s.evaluateSingleRule loaded = .ok events

/-- A result that reports success only when every enabled rule was loaded and
    evaluated, and that counts them. -/
def Scenario.Honest (s : Scenario) (result : EvaluationResult) : Prop :=
  result.success = true →
    (∀ rule ∈ s.enabled, s.Evaluated rule) ∧ result.evaluatedRulesCount = s.enabled.length

/-- On a miss, nothing fails while the enabled rules are loaded, or there are
    none.  On a hit, the entry lists the enabled rules, or one of the rules it
    lists fails to evaluate. -/
def Scenario.LoadsEnabled (s : Scenario) : Prop :=
  match s.collaborators.cacheGet with
  | none => s.enabled = [] ∨
      (s.findFailure = none ∧ ∀ rule ∈ s.enabled, ∃ config, s.getEffectiveConfig rule = .ok config)
  | some cached =>
      (∃ rule ∈ cached.rules, ∃ e, s.evaluateSingleRule rule = .error e) ∨
      (cached.rules.length = s.enabled.length ∧
        ∀ rule ∈ s.enabled, ∃ loaded ∈ cached.rules, loaded.id = rule.id)

/-! ### Success -/

theorem success_iff {c : Collaborators} {cached : CachedRules}
    (h : getCachedRules c = .ok cached) :
    (evaluate c).success = true ↔
      ∀ rule ∈ cached.rules, ∃ events, c.evaluateSingleRule rule = .ok events := by
  rw [evaluate_of_ok h]
  simp only [buildResult, decide_eq_true_eq, List.length_eq_zero_iff, List.flatMap_eq_nil_iff]
  constructor
  · intro hnone rule hrule
    have hfailures := hnone rule hrule
    cases hresult : c.evaluateSingleRule rule with
    | ok events => exact ⟨events, rfl⟩
    | error e => simp [failuresOf, hresult] at hfailures
  · intro hall rule hrule
    obtain ⟨events, hevents⟩ := hall rule hrule
    simp [failuresOf, hevents]

/-- Over loaded rules, an evaluation is honest unless they differ from the
    enabled ones and all evaluate. -/
theorem honest_iff_of_ok {s : Scenario} {cached : CachedRules}
    (h : getCachedRules s.collaborators = .ok cached) :
    s.Honest (evaluate s.collaborators) ↔
      (∃ rule ∈ cached.rules, ∃ e, s.evaluateSingleRule rule = .error e) ∨
      (cached.rules.length = s.enabled.length ∧
        ∀ rule ∈ s.enabled, ∃ loaded ∈ cached.rules, loaded.id = rule.id) := by
  have hcount : (evaluate s.collaborators).evaluatedRulesCount = cached.rules.length := by
    rw [evaluate_of_ok h]
    rfl
  unfold Scenario.Honest
  rw [success_iff h, hcount]
  constructor
  · intro hhonest
    by_cases hall : ∀ rule ∈ cached.rules, ∃ events, s.evaluateSingleRule rule = .ok events
    · obtain ⟨hevaluated, hlength⟩ := hhonest hall
      refine Or.inr ⟨hlength, ?_⟩
      intro rule hrule
      obtain ⟨cached', hcached', loaded, hloaded, hid, -⟩ := hevaluated rule hrule
      cases Except.ok.inj (h.symm.trans hcached')
      exact ⟨loaded, hloaded, hid⟩
    · push Not at hall
      obtain ⟨rule, hrule, hfails⟩ := hall
      refine Or.inl ⟨rule, hrule, ?_⟩
      cases hresult : s.evaluateSingleRule rule with
      | ok events => exact absurd hresult (hfails events)
      | error e => exact ⟨e, rfl⟩
  · rintro (⟨rule, hrule, e, hfails⟩ | ⟨hlength, hlisted⟩) hall
    · obtain ⟨events, hevents⟩ := hall rule hrule
      exact absurd (hfails.symm.trans hevents) (by simp)
    · refine ⟨?_, hlength⟩
      intro rule hrule
      obtain ⟨loaded, hloaded, hid⟩ := hlisted rule hrule
      exact ⟨cached, h, loaded, hloaded, hid, hall loaded hloaded⟩

/-- When loading fails, the reported success is honest only if there was
    nothing to load. -/
theorem honest_iff_of_error {s : Scenario} {e : Thrown}
    (h : getCachedRules s.collaborators = .error e) :
    s.Honest (evaluate s.collaborators) ↔ s.enabled = [] := by
  rw [evaluate_of_error h]
  constructor
  · intro hhonest
    have hlength := (hhonest rfl).2
    exact List.eq_nil_of_length_eq_zero hlength.symm
  · intro hempty _
    rw [hempty]
    exact ⟨fun rule hrule => absurd hrule List.not_mem_nil, rfl⟩

theorem loadRules_ok_iff (s : Scenario) :
    (∃ cached, loadRules s.collaborators = .ok cached) ↔
      s.findFailure = none ∧
        ∀ rule ∈ s.enabled, ∃ config, s.getEffectiveConfig rule = .ok config := by
  rw [← buildCachedRules_ok_iff]
  unfold loadRules Scenario.collaborators
  cases s.findFailure with
  | some e => simp
  | none =>
      cases hbuild : buildCachedRules s.getEffectiveConfig s.enabled <;>
        simp [hbuild, Except.map]

theorem loadRules_ids {s : Scenario} {cached : CachedRules}
    (h : loadRules s.collaborators = .ok cached) :
    cached.rules.map CachedRule.id = s.enabled.map Rule.id := by
  unfold loadRules Scenario.collaborators at h
  cases hfail : s.findFailure with
  | some e => simp [hfail] at h
  | none =>
      cases hbuild : buildCachedRules s.getEffectiveConfig s.enabled with
      | error e => simp [hfail, hbuild, Except.map] at h
      | ok rules =>
          simp only [hfail, hbuild, Except.map, Except.ok.injEq] at h
          exact h ▸ buildCachedRules_ids hbuild

theorem evaluateCreated_cases (c : Collaborators) (organizationId : String)
    (transaction : PublishedTransaction) :
    evaluateCreated c organizationId transaction = evaluate c ∨
      evaluateCreated c organizationId transaction = failOpen := by
  cases hpublish : publishAlertEvents organizationId transaction (evaluate c).events with
  | ok messages => exact Or.inl (by simp only [evaluateCreated, hpublish])
  | error e => exact Or.inr (by simp only [evaluateCreated, hpublish])

/-- **Honest success.**  A result of `evaluate` is honest if and only if the
    enabled rules are the ones it loads (or one of those it loads fails); and
    then so is what `createAndEvaluate` reports for any transaction. -/
theorem honest_iff_loadsEnabled (s : Scenario) :
    (s.Honest (evaluate s.collaborators) ↔ s.LoadsEnabled) ∧
      (s.LoadsEnabled → ∀ organizationId transaction,
        s.Honest (evaluateCreated s.collaborators organizationId transaction)) := by
  have hexact : s.Honest (evaluate s.collaborators) ↔ s.LoadsEnabled := by
    unfold Scenario.LoadsEnabled
    cases hget : s.collaborators.cacheGet with
    | some cached => exact honest_iff_of_ok (by simp only [getCachedRules, hget])
    | none =>
        have hload : getCachedRules s.collaborators = loadRules s.collaborators := by
          simp only [getCachedRules, hget]
        cases hresult : loadRules s.collaborators with
        | error e =>
            have hfails : ¬ (s.findFailure = none ∧
                ∀ rule ∈ s.enabled, ∃ config, s.getEffectiveConfig rule = .ok config) := by
              rw [← loadRules_ok_iff, hresult]
              simp
            rw [honest_iff_of_error (hload.trans hresult)]
            exact ⟨Or.inl, fun h => h.resolve_right hfails⟩
        | ok cached =>
            have hids := loadRules_ids hresult
            have hsucceeds := (loadRules_ok_iff s).mp ⟨cached, hresult⟩
            rw [honest_iff_of_ok (hload.trans hresult)]
            refine ⟨fun _ => Or.inr hsucceeds, fun _ => Or.inr ⟨?_, ?_⟩⟩
            · simpa using congrArg List.length hids
            · intro rule hrule
              have hmem : rule.id ∈ cached.rules.map CachedRule.id := by
                rw [hids]
                exact List.mem_map_of_mem hrule
              exact List.mem_map.mp hmem
  refine ⟨hexact, ?_⟩
  intro hloads organizationId transaction
  rcases evaluateCreated_cases s.collaborators organizationId transaction with h | h
  · rw [h]
    exact hexact.mpr hloads
  · rw [h]
    intro hsuccess
    cases hsuccess

/-- The rule table is unreachable: no rule of the organization is evaluated,
    and the evaluation reports success. -/
def unreachableRules : Scenario where
  enabled := [⟨"r", "org", none, "amount", true, 0, [], 0⟩]
  isConnected := true
  clientGet := .ok none
  findFailure := some (.error "connection terminated")
  getEffectiveConfig := fun rule => .ok rule.config
  evaluateSingleRule := fun _ => .ok []
  now := 0

theorem unreachable_rules_succeed :
    ¬ unreachableRules.Honest (evaluate unreachableRules.collaborators) ∧
      ¬ unreachableRules.Honest
        (evaluateCreated unreachableRules.collaborators "org" ⟨"tx", "acc", some 0⟩) := by
  constructor
  · intro h
    exact absurd (h rfl).2 (by decide)
  · intro h
    exact absurd (h rfl).2 (by decide)

end RulesEngine.Engine
