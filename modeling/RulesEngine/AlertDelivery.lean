import RulesEngine.AlertsService
import RulesEngine.RuleConditions
import RulesEngine.TransactionsService

/-!
# From a triggered rule to its alert

An event of `evaluate` becomes a message in `publishAlertEvents`, and
`handleAlertEvent` processes the message and acknowledges it whatever happens.
Severity, category, window and rule id are read off the rule's configuration
through casts, so processing can throw before anything is saved, and PostgreSQL
can refuse the rule id.  `message_recorded_iff` says when it does not.
-/

namespace RulesEngine.Alerts

open RulesEngine.Foundations
open RulesEngine.Engine
open RulesEngine.Transactions

/-- Exactly one row records the event: a new one with one hit, or an active one
    with one hit more. -/
def RecordedOnce (now : Int) (before after : Table Alert) : Prop :=
  (∃ alert : Alert, alert.hitCount = 1 ∧ alert.status = .OPEN ∧
    after.rows = before.rows ++ [alert]) ∨
  (∃ row ∈ before.rows, row.status.isActive = true ∧ after = before.put (row.hit now))

theorem not_recordedOnce_self (now : Int) (table : Table Alert) :
    ¬ RecordedOnce now table table := by
  rintro (⟨alert, -, -, hrows⟩ | ⟨row, hrow, -, htable⟩)
  · have hlength := congrArg List.length hrows
    simp at hlength
  · have hmem : row.hit now ∈ table.rows := by
      rw [htable]
      exact Table.mem_put_self _ _
    have heq : row.hit now = row := Table.eq_of_key_eq hmem hrow rfl
    have hcount := congrArg Alert.hitCount heq
    simp at hcount

/-! ### What a message has from its rule -/

/-- The properties of a rule's event parameters that the engine spreads. -/
def ownParams (config : JsonObject) : JsonObject := Json.ownProperties (ownEventParams config)

/-- The engine spreads a copy of them. -/
theorem get?_reportedParams (config : JsonObject) {name : String}
    (hname : name ∉ inheritedNames) :
    JsonObject.get? (Json.ownProperties (reportedParams config)) name =
      ((ownParams config).get? name).map Json.clone :=
  Json.get?_ownProperties_clone hname _

theorem upcasable_clone (value : Option Json) (fallback : String) :
    Upcasable (Json.orElse (value.map Json.clone) (.str fallback)) ↔
      Upcasable (Json.orElse value (.str fallback)) := by
  cases value with
  | none => rfl
  | some value =>
      cases value with
      | arr items => simp [Json.orElse, Json.truthy, Json.clone, Upcasable]
      | obj fields => simp [Json.orElse, Json.truthy, Json.clone, Upcasable]
      | null | bool | num | str => simp [Json.clone]

theorem clone_eq_str_iff {value : Json} {text : String} :
    value.clone = .str text ↔ value = .str text := by
  cases value <;> simp [Json.clone]

/-- The configurations a key, a severity and a category can be read from: a
    usable window, and a severity and a category that are falsy or strings. -/
structure Recordable (config : JsonObject) : Prop where
  window : ValidWindow (config.get? "timeWindow")
  severity : Upcasable (Json.orElse ((ownParams config).get? "severity") (.str "MEDIUM"))
  category : Upcasable (Json.orElse ((ownParams config).get? "category") (.str "UNKNOWN"))

/-- The rule id the events of a rule report is text, and that of a stored rule. -/
def NamesStoredRule (parents : Parents) (rule : CachedRule) : Prop :=
  ∃ text, ((ownParams rule.config).get? "ruleId").getD (.str rule.id) = .str text ∧
    pgUuid text ∈ parents.rules

/-- The transaction is stored, for an organization. -/
structure StoredTransaction (parents : Parents) (organizationId : String)
    (transaction : PublishedTransaction) : Prop where
  organization : IsUuid organizationId
  stored : pgUuid transaction.id ∈ parents.transactions
  account : transaction.idAccount.length ≤ 255

section Messages

variable {organizationId : String} {transaction : PublishedTransaction} {rule : CachedRule}
  {event : EngineEvent} {message : AlertEventMessage}

theorem reportedRuleId (hparams : event.params = reportedParams rule.config)
    (h : alertMessage organizationId transaction (assembleEvent rule event) = .ok message) :
    message.ruleId =
      (((ownParams rule.config).get? "ruleId").map Json.clone).getD (.str rule.id) := by
  obtain ⟨-, -, -, hruleId, -, -⟩ := alertMessage_ok h
  rw [hruleId, hparams, get?_reportedParams rule.config (by decide)]

/-- PostgreSQL takes the alert of a stored transaction exactly when the event names
    a stored rule. -/
theorem acceptEvent_iff (hparams : event.params = reportedParams rule.config)
    (h : alertMessage organizationId transaction (assembleEvent rule event) = .ok message)
    {parents : Parents} (hstored : StoredTransaction parents organizationId transaction) :
    parents.AcceptEvent message ↔ NamesStoredRule parents rule := by
  have hruleId := reportedRuleId hparams h
  have hnames : (∃ text, message.ruleId = .str text ∧ pgUuid text ∈ parents.rules) ↔
      NamesStoredRule parents rule := by
    unfold NamesStoredRule
    rw [hruleId]
    cases (ownParams rule.config).get? "ruleId" with
    | none => rfl
    | some value => simp only [Option.map_some, Option.getD_some, clone_eq_str_iff]
  rw [← hnames]
  constructor
  · intro haccept
    exact haccept.rule
  · intro hrule
    obtain ⟨horg, htransaction, haccount⟩ := alertMessage_transaction h
    refine ⟨horg ▸ hstored.organization, hrule, htransaction ▸ hstored.stored, ?_⟩
    intro account hmem
    rw [haccount, Option.mem_def, Option.some.injEq] at hmem
    exact hmem ▸ hstored.account

variable [NumberText]

/-- The key, the severity and the category of a rule's message can be read exactly
    for a recordable configuration. -/
theorem acceptedKey_message_iff (hparams : event.params = reportedParams rule.config)
    (hdate : JsDate.Valid transaction.datetime)
    (h : alertMessage organizationId transaction (assembleEvent rule event) = .ok message) :
    (∃ dedupKey, acceptedKey message = some dedupKey) ↔ Recordable rule.config := by
  obtain ⟨-, hdatetime, hconfig, -, hseverity, hcategory⟩ := alertMessage_ok h
  have hprintable : message.ruleId.Printable := by
    rw [reportedRuleId hparams h]
    cases (ownParams rule.config).get? "ruleId" with
    | none => exact Json.printable_str rule.id
    | some value => exact Json.clone_printable value
  rw [hparams, get?_reportedParams rule.config (by decide)] at hseverity hcategory
  rw [acceptedKey_eq_some_iff, calculateDedupKey_ok_iff,
    calculateWindowKey_ok_iff (hdatetime ▸ hdate), hconfig, hseverity, hcategory, upcasable_clone,
    upcasable_clone]
  constructor
  · rintro ⟨⟨hwindow, -⟩, hsev, hcat⟩
    exact ⟨hwindow, hsev, hcat⟩
  · rintro ⟨hwindow, hsev, hcat⟩
    exact ⟨⟨hwindow, hprintable⟩, hsev, hcat⟩

theorem handleAlertEvent_recorded_iff {input : ProcessInput} {message : AlertEventMessage}
    {table : Table Alert} :
    RecordedOnce input.now table (handleAlertEvent input message table).table ↔
      Processable input message table := by
  unfold handleAlertEvent processAlertEvent
  constructor
  · intro hrecorded
    cases hlookup : lookup input.pick message table with
    | error e =>
        rw [hlookup] at hrecorded
        exact absurd hrecorded (not_recordedOnce_self _ _)
    | ok pending =>
        obtain ⟨rfl, -, -⟩ := lookup_ok hlookup
        cases hrecord : pending.record input.now input.newId input.parents table with
        | error e =>
            simp only [hlookup, hrecord] at hrecorded
            exact absurd hrecorded (not_recordedOnce_self _ _)
        | ok after => exact processable_of_record hlookup hrecord
  · intro hprocessable
    obtain ⟨pending, hlookup, hrecord⟩ := record_of_processable hprocessable
    obtain ⟨-, -, hexisting⟩ := lookup_ok hlookup
    simp only [hlookup, hrecord]
    cases hfound : pending.existing with
    | some alert =>
        obtain ⟨hmem, -, hactive⟩ := findActive_some (hexisting.symm.trans hfound)
        simp only [PendingEvent.entity, hfound]
        exact Or.inr ⟨alert, hmem, hactive, rfl⟩
    | none =>
        simp only [PendingEvent.entity, hfound]
        exact Or.inl ⟨pending.newAlert input.now input.newId, rfl, rfl,
          putRow_of_fresh ((record_ok hrecord).1 hfound).1⟩

/-- The table has an active alert of the key of the event. -/
def HasActive (table : Table Alert) (message : AlertEventMessage) : Prop :=
  ∃ alert ∈ table.rows, acceptedKey message = some alert.dedupKey ∧ alert.status.isActive = true

/-- With a new id, an event is recorded if its key can be read and it has an active
    alert or PostgreSQL takes a new one. -/
theorem processable_iff {input : ProcessInput} {message : AlertEventMessage} {table : Table Alert}
    (hfresh : ¬ table.Taken input.newId) :
    Processable input message table ↔ (∃ dedupKey, acceptedKey message = some dedupKey) ∧
      (HasActive table message ∨ input.parents.AcceptEvent message) := by
  constructor
  · rintro ⟨dedupKey, hkey, ⟨alert, halert, rfl, hactive⟩ | ⟨-, haccept⟩⟩
    · exact ⟨⟨_, hkey⟩, Or.inl ⟨alert, halert, hkey, hactive⟩⟩
    · exact ⟨⟨_, hkey⟩, Or.inr haccept⟩
  · rintro ⟨⟨dedupKey, hkey⟩, ⟨alert, halert, halertKey, hactive⟩ | haccept⟩
    · exact ⟨_, halertKey, Or.inl ⟨alert, halert, rfl, hactive⟩⟩
    · exact ⟨dedupKey, hkey, Or.inr ⟨hfresh, haccept⟩⟩

end Messages

/-! ### A rule whose alerts are lost -/

/-- An evaluation, of a transaction of 100, with one enabled rule. -/
def firing (organizationId ruleId : String) (config : JsonObject) : Collaborators where
  isConnected := false
  clientGet := .ok none
  findEnabledByPriority := .ok [⟨ruleId, organizationId, none, "amount", true, 0, config, 0⟩]
  getEffectiveConfig := fun rule => .ok rule.config
  evaluateSingleRule := evaluateSingleRule factsOnlyRun noProviders bareContext organizationId
  now := 0

theorem firing_reportOwnParams (organizationId ruleId : String) (config : JsonObject)
    (rules : List CachedRule) : (firing organizationId ruleId config).ReportOwnParams rules :=
  fun _ _ _ h => factsOnlyRun_reportsOwnParams noProviders h

/-- A rule for amounts over 50 fires. -/
theorem evaluate_firing (organizationId ruleId : String) (params further : JsonObject) :
    (evaluate (firing organizationId ruleId (overFiftyConfig params further))).events =
      [assembleEvent ⟨ruleId, "amount", 0, overFiftyConfig params further⟩
        ⟨.str "alert", some (.obj (Json.cloneFields params))⟩] := by
  have hrun := evaluateSingleRule_overFifty organizationId ruleId "amount" 0 params further
  have hcached : getCachedRules (firing organizationId ruleId (overFiftyConfig params further)) =
      .ok ⟨[⟨ruleId, "amount", 0, overFiftyConfig params further⟩], 0⟩ := rfl
  rw [evaluate_of_ok hcached]
  simp only [List.flatMap_singleton, eventsOf, firing, hrun, List.map_singleton]
  rfl

def sampleTransaction : PublishedTransaction := ⟨sampleTx, "acc", some 0⟩

end RulesEngine.Alerts
