import RulesEngine.AlertDelivery

/-!
# Whose event it is

`evaluate` and `evaluateRule` merge the parameters of a reported event from
three sources, and the order decides which wins: the rule's id and name come
first, the tenant's own `event.params` over them, the rule's configuration
last.  `publishAlertEvents` reads the id and the name back off the merged
parameters.  So `ruleConfig` always names the rule that fired, and the id and
the name do unless the rule's own parameters say otherwise
(`events_attributed_iff`).
-/

namespace RulesEngine.Transactions

open RulesEngine.Foundations
open RulesEngine.Engine
open RulesEngine.Alerts

/-! ### Firings -/

/-- Each engine event with the rule whose conditions held. -/
def firingsOf (c : Collaborators) (rule : CachedRule) : List (CachedRule × EngineEvent) :=
  match c.evaluateSingleRule rule with
  | .ok events => events.map fun event => (rule, event)
  | .error _ => []

theorem mem_firingsOf {c : Collaborators} {rule : CachedRule} {firing : CachedRule × EngineEvent} :
    firing ∈ firingsOf c rule ↔
      ∃ events, c.evaluateSingleRule rule = .ok events ∧ firing.2 ∈ events ∧ firing.1 = rule := by
  obtain ⟨fired, event⟩ := firing
  unfold firingsOf
  cases h : c.evaluateSingleRule rule with
  | error e => simp
  | ok events => simp [eq_comm]

theorem eventsOf_eq_map (c : Collaborators) (rule : CachedRule) :
    eventsOf c.evaluateSingleRule rule =
      (firingsOf c rule).map fun firing => assembleEvent firing.1 firing.2 := by
  unfold eventsOf firingsOf
  cases c.evaluateSingleRule rule <;> simp

theorem evaluate_events (c : Collaborators) :
    (evaluate c).events =
      ((batchRules c).flatMap (firingsOf c)).map fun firing => assembleEvent firing.1 firing.2 := by
  unfold batchRules
  cases hload : getCachedRules c with
  | error e =>
      rw [evaluate_of_error hload]
      rfl
  | ok cached =>
      rw [evaluate_of_ok hload, List.map_flatMap]
      exact congrArg cached.rules.flatMap (funext (eventsOf_eq_map c))

theorem evaluateRule_events (c : Collaborators) (ruleId : String) (findOne : Except Thrown Rule) :
    (evaluateRule ruleId findOne c.getEffectiveConfig c.evaluateSingleRule).events =
      ((requestedRule c findOne).flatMap (firingsOf c)).map
        fun firing => assembleEvent firing.1 firing.2 := by
  unfold evaluateRule requestedRule
  cases findOne with
  | error e => rfl
  | ok rule =>
      cases hconfig : c.getEffectiveConfig rule with
      | error e =>
          simp only [hconfig, bind, Except.bind]
          rfl
      | ok config =>
          cases hevaluate : c.evaluateSingleRule (cachedRule rule config) with
          | error e =>
              simp only [hconfig, bind, Except.bind, hevaluate, List.flatMap_singleton, firingsOf]
              rfl
          | ok events =>
              simp only [hconfig, bind, Except.bind, hevaluate, List.flatMap_singleton, firingsOf,
                List.map_map]
              rfl

/-! ### Attribution -/

/-- The event and the alert messages built from it name the rule. -/
structure Attributed (rule : CachedRule) (event : RuleEvent) : Prop where
  ruleId : event.params.get? "ruleId" = some (.str rule.id)
  ruleName : event.params.get? "ruleName" = some (.str rule.name)
  ruleConfig : event.params.get? "ruleConfig" = some (.obj rule.config)
  message : ∀ organizationId transaction message,
    alertMessage organizationId transaction event = .ok message →
      message.ruleId = .str rule.id ∧ message.ruleName = .str rule.name

/-- The rule's own event parameters give no other `ruleId` and no other
    `ruleName`. -/
structure KeepsIdentity (rule : CachedRule) : Prop where
  ruleId : ∀ value, (ownParams rule.config).get? "ruleId" = some value → value = .str rule.id
  ruleName : ∀ value, (ownParams rule.config).get? "ruleName" = some value → value = .str rule.name

theorem assembleEvent_ruleName (rule : CachedRule) (event : EngineEvent) :
    (assembleEvent rule event).params.get? "ruleName" =
      ((Json.ownProperties event.params).get? "ruleName").or (some (.str rule.name)) := by
  simp [assembleEvent, JsonObject.get?_set, JsonObject.get?_assign, JsonObject.get?_cons]

theorem map_clone_or_eq_iff {x : Option Json} {text : String} :
    (x.map Json.clone).or (some (.str text)) = some (.str text) ↔
      ∀ value, x = some value → value = .str text := by
  cases x <;> simp [clone_eq_str_iff]

theorem attributed_iff {rule : CachedRule} {event : EngineEvent}
    (hparams : event.params = reportedParams rule.config) :
    Attributed rule (assembleEvent rule event) ↔ KeepsIdentity rule := by
  have hid := assembleEvent_ruleId rule event
  have hname := assembleEvent_ruleName rule event
  rw [hparams, get?_reportedParams rule.config (by decide)] at hid hname
  constructor
  · intro h
    exact ⟨map_clone_or_eq_iff.mp (hid.symm.trans h.ruleId),
      map_clone_or_eq_iff.mp (hname.symm.trans h.ruleName)⟩
  · intro h
    have hruleId := hid.trans (map_clone_or_eq_iff.mpr h.ruleId)
    have hruleName := hname.trans (map_clone_or_eq_iff.mpr h.ruleName)
    refine ⟨hruleId, hruleName, assembleEvent_ruleConfig rule event, ?_⟩
    intro organizationId transaction message hmessage
    unfold alertMessage at hmessage
    split at hmessage
    · cases hmessage
    · cases hmessage
      simp only [buildMessage, hruleId, hruleName, Option.getD_some, and_self]

/-- A rule fires when its run reports an event. -/
def Fires (c : Collaborators) (rule : CachedRule) : Prop := firingsOf c rule ≠ []

/-- Events kept in step with the firings they were assembled from. -/
theorem forall₂_attributed_iff {c : Collaborators} {rules : List CachedRule}
    (hparams : c.ReportOwnParams rules) :
    List.Forall₂ (fun firing event => Attributed firing.1 event) (rules.flatMap (firingsOf c))
        ((rules.flatMap (firingsOf c)).map fun firing => assembleEvent firing.1 firing.2) ↔
      ∀ rule ∈ rules, Fires c rule → KeepsIdentity rule := by
  rw [List.forall₂_map_right_iff, List.forall₂_same]
  constructor
  · intro h rule hrule hfires
    obtain ⟨firing, hfiring⟩ := List.exists_mem_of_ne_nil _ hfires
    obtain ⟨events, hevents, hmem, hfired⟩ := mem_firingsOf.mp hfiring
    rw [← hfired] at hrule hevents ⊢
    exact (attributed_iff (hparams _ hrule _ hevents _ hmem)).mp
      (h firing (List.mem_flatMap.mpr ⟨_, hrule, hfired ▸ hfiring⟩))
  · intro h firing hfiring
    obtain ⟨rule, hrule, hin⟩ := List.mem_flatMap.mp hfiring
    obtain ⟨events, hevents, hmem, rfl⟩ := mem_firingsOf.mp hin
    exact (attributed_iff (hparams _ hrule _ hevents _ hmem)).mpr
      (h _ hrule (List.ne_nil_of_mem hin))

/-- The configuration of a rule whose event parameters name another rule. -/
def impersonatingConfig : JsonObject := overFiftyConfig [("ruleId", .str "other")] []

end RulesEngine.Transactions
