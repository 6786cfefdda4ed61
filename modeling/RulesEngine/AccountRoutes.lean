import RulesEngine.EvaluationAgreement
import RulesEngine.RuleConditions

/-!
# The account fact by both routes

An engine knows the fact `account` twice: as the provider that looks an account
up by its id, and as a value passed to the run when the evaluation context
carries an account.  The package takes the value of the run, so the provider is
never asked: a condition sees the whole account of the context, whatever id and
field it asks for (`account_routes_agree_iff`).
-/

namespace RulesEngine.Engine

open RulesEngine.Foundations
open RulesEngine.Lists

/-! ### Resolving a fact -/

/-- How a run resolves a fact with the parameters of a condition. -/
abbrev Resolve := Facts → FactProviders → String → Json → Except Thrown JsValue

/-- A fact passed to `engine.run` replaces an engine fact of its id, and as a
    constant it ignores parameters. -/
def Resolve.RuntimeFactsReplace (resolve : Resolve) : Prop :=
  ∀ (facts : Facts) (providers : FactProviders) factId value, facts.lookup factId = some value →
    ∀ params, resolve facts providers factId params = .ok value

/-- The almanac the providers of a run are given. -/
def Resolve.almanac (resolve : Resolve) (facts : Facts) (providers : FactProviders) : Almanac :=
  fun factId => resolve facts providers factId (.obj [])

/-- Runtime facts first, then the provider of the id. -/
def runtimeFirst : Resolve := fun facts providers factId params =>
  let almanac : Almanac := fun name => .ok ((facts.lookup name).getD .undefined)
  match facts.lookup factId with
  | some value => .ok value
  | none =>
      if factId = "transactionHistory" then providers.transactionHistory params almanac
      else if factId = "account" then providers.account params almanac
      else if factId = "listLookup" then providers.listLookup params almanac
      else .ok .undefined

theorem runtimeFirst_replaces : runtimeFirst.RuntimeFactsReplace := by
  intro facts providers factId value h params
  simp only [runtimeFirst, h]

/-! ### The two accounts -/

section Accounts

variable {context : EvaluationContext} {a : AccountData}

theorem account_fact (ha : context.account = some a) (organizationId : String) :
    (buildFactsFromContext context organizationId).lookup "account" =
      some (.record a.fields) := by
  simp only [buildFactsFromContext, ha]
  rfl

theorem context_fact (context : EvaluationContext) (organizationId : String) :
    (buildFactsFromContext context organizationId).lookup "context" =
      some (.record context.fields) := rfl

/-- The provider finds the account of the context under its own id. -/
theorem contextAccount_own {almanac : Almanac} (ha : context.account = some a)
    (halmanac : almanac "context" = .ok (.record context.fields)) :
    contextAccount (some (.str a.id)) almanac = some a.fields := by
  have haccount : recordField context.fields "account" = .record a.fields := by
    simp only [EvaluationContext.fields, ha]
    rfl
  have hid : recordField a.fields "id" = .json (.str a.id) := rfl
  simp only [contextAccount, halmanac, haccount, hid, if_true]

/-- Under any other id it finds none. -/
theorem contextAccount_other {almanac : Almanac} (ha : context.account = some a)
    (halmanac : almanac "context" = .ok (.record context.fields)) {accountId : Option Json}
    (hne : accountId ≠ some (.str a.id)) : contextAccount accountId almanac = none := by
  have haccount : recordField context.fields "account" = .record a.fields := by
    simp only [EvaluationContext.fields, ha]
    rfl
  have hid : recordField a.fields "id" = .json (.str a.id) := rfl
  simp only [contextAccount, halmanac, haccount, hid]
  split
  · rename_i id wanted hown
    cases hown
    exact if_neg fun heq => hne (congrArg (fun text => some (Json.str text)) (Eq.symm heq))
  · rfl

theorem ofOption_eq_json {value : Option Json} {json : Json}
    (h : JsValue.ofOption value = .json json) : value = some json := by
  cases value with
  | none => cases h
  | some value => exact congrArg some (JsValue.json.inj h)

/-- A list of properties none of whose values is an object of the program. -/
def Flat (fields : List (String × JsValue)) : Prop :=
  ∀ field ∈ fields, ∀ record, field.2 ≠ .record record

theorem recordField_ne_record {fields : List (String × JsValue)} (h : Flat fields) (name : String)
    (record : List (String × JsValue)) : recordField fields name ≠ .record record := by
  unfold recordField
  induction fields with
  | nil =>
      simp only [List.lookup_nil]
      split <;> exact JsValue.noConfusion
  | cons field rest ih =>
      obtain ⟨key, value⟩ := field
      rw [List.lookup_cons]
      cases name == key with
      | true => exact h _ List.mem_cons_self record
      | false => exact ih fun other hother => h other (List.mem_cons_of_mem _ hother)

theorem optionalFact_ne_record {α : Type} (json : α → Json) (value : Patch α)
    (record : List (String × JsValue)) : optionalFact json value ≠ .record record := by
  cases value <;> exact JsValue.noConfusion

theorem flat_fields (a : AccountData) : Flat a.fields := by
  intro field hfield record
  simp only [AccountData.fields, List.mem_cons, List.not_mem_nil, or_false] at hfield
  rcases hfield with rfl | rfl | rfl | rfl | rfl | rfl
  · exact JsValue.noConfusion
  all_goals exact optionalFact_ne_record _ _ record

theorem flat_mockAccount (accountId : Option Json) : Flat (mockAccount accountId) := by
  intro field hfield record
  simp only [mockAccount, List.mem_cons, List.not_mem_nil, or_false] at hfield
  rcases hfield with rfl | rfl | rfl | rfl | rfl | rfl
  · cases accountId <;> exact JsValue.noConfusion
  all_goals exact JsValue.noConfusion

variable [NumberText]

/-- A provider answers with a whole account only when no field is asked for. -/
theorem accountField_eq_record_iff {fields record : List (String × JsValue)} (h : Flat fields)
    (field : Option Json) :
    accountField fields field = .ok (.record record) ↔
      Json.truthy field = false ∧ fields = record := by
  cases field with
  | none => simp [accountField, Json.truthy]
  | some value =>
      cases htruthy : Json.truthy (some value) with
      | false => simp [accountField, htruthy]
      | true =>
          refine iff_of_false (fun heq => ?_) (fun hfalse => Bool.noConfusion hfalse.1)
          simp only [accountField, htruthy, if_true] at heq
          cases htext : Json.templateText value with
          | error e => simp [htext, Except.map] at heq
          | ok name =>
              rw [htext] at heq
              exact recordField_ne_record h name record (Except.ok.inj heq)

theorem account_eq (params : JsonObject) (almanac : Almanac) :
    account (.obj params) almanac =
      match contextAccount (params.get? "accountId") almanac with
      | some fields => accountField fields (params.get? "field")
      | none => accountField (mockAccount (params.get? "accountId")) (params.get? "field") := rfl

/-- **Both routes.**  Over a context with an account, a condition on `account` sees
    that account, and the provider answers the same if and only if it is asked
    for the id of that account and for no field. -/
theorem account_routes_agree_iff {resolve : Resolve} (hresolve : resolve.RuntimeFactsReplace)
    (providers : FactProviders) (organizationId : String) (ha : context.account = some a)
    (params : JsonObject) :
    resolve (buildFactsFromContext context organizationId) providers "account" (.obj params) =
        .ok (.record a.fields) ∧
      (resolve (buildFactsFromContext context organizationId) providers "account" (.obj params) =
          account (.obj params)
            (resolve.almanac (buildFactsFromContext context organizationId) providers) ↔
        params.get? "accountId" = some (.str a.id) ∧
          Json.truthy (params.get? "field") = false) := by
  have hsees := hresolve (buildFactsFromContext context organizationId) providers
    "account" _ (account_fact ha organizationId) (.obj params)
  have halmanac : resolve.almanac (buildFactsFromContext context organizationId) providers
      "context" = .ok (.record context.fields) :=
    hresolve _ providers "context" _ (context_fact context organizationId) (.obj [])
  refine ⟨hsees, ?_⟩
  rw [hsees, account_eq, eq_comm]
  by_cases hid : params.get? "accountId" = some (.str a.id)
  · rw [hid, contextAccount_own ha halmanac, accountField_eq_record_iff (flat_fields a)]
    simp
  · rw [contextAccount_other ha halmanac hid, accountField_eq_record_iff (flat_mockAccount _)]
    refine iff_of_false (fun hmock => hid ?_) (fun hown => hid hown.1)
    -- the mock account carries the id it was asked for
    have hsame : JsValue.ofOption (params.get? "accountId") = .json (.str a.id) :=
      congrArg (fun fields => recordField fields "id") hmock.2
    exact ofOption_eq_json hsame

end Accounts

section Samples

attribute [local instance] NumberText.integers

def blockedAccount : AccountData where
  id := "acc"
  type := .absent
  status := .value "BLOCKED"
  country := .absent
  riskScore := .absent
  data := .absent

def blockedContext : EvaluationContext := { bareContext with account := some blockedAccount }

def blockedFacts : Facts := buildFactsFromContext blockedContext "org"

theorem account_routes_agree_iff_sample :
    runtimeFirst blockedFacts noProviders "account" (.obj [("accountId", .str "acc")]) =
      account (.obj [("accountId", .str "acc")]) (runtimeFirst.almanac blockedFacts noProviders) :=
  (account_routes_agree_iff runtimeFirst_replaces noProviders "org" rfl
    [("accountId", .str "acc")]).2.mpr ⟨rfl, rfl⟩

/-- Asked for account `other`, and for the status of account `acc`, a condition
    sees the whole account `acc` instead. -/
theorem other_account_unseen :
    runtimeFirst blockedFacts noProviders "account" (.obj [("accountId", .str "other")]) ≠
        account (.obj [("accountId", .str "other")])
          (runtimeFirst.almanac blockedFacts noProviders) ∧
      runtimeFirst blockedFacts noProviders "account"
          (.obj [("accountId", .str "acc"), ("field", .str "status")]) ≠
        account (.obj [("accountId", .str "acc"), ("field", .str "status")])
          (runtimeFirst.almanac blockedFacts noProviders) := by
  refine ⟨fun h => ?_, fun h => ?_⟩
  · have hid : recordField (mockAccount (some (.str "other"))) "id" =
        recordField blockedAccount.fields "id" := by
      have hanswer := Except.ok.inj h
      exact congrArg (fun fields => recordField fields "id") (JsValue.record.inj hanswer).symm
    have htext := Json.str.inj (JsValue.json.inj hid)
    exact absurd htext (by decide)
  · exact JsValue.noConfusion (Except.ok.inj h)

end Samples

end RulesEngine.Engine
