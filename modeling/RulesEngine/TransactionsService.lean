import RulesEngine.AlertEvents
import RulesEngine.EngineService

/-!
# TransactionsService

`transactions/transactions.service.ts`: storing a transaction, evaluating it
against the rules of its organization, and publishing one alert message for
each reported event.
-/

namespace RulesEngine.Transactions

open RulesEngine.Foundations
open RulesEngine.Alerts
open RulesEngine.Engine

structure CreateTransactionDto where
  idAccount : String
  amount : ℚ
  amountNormalized : ℚ
  currency : String
  type : String
  subType : Patch String
  /-- The instant `new Date(createDto.datetime)` reads. -/
  datetime : JsDate
  date : String
  /-- The day PostgreSQL reads in `date`, if it reads one. -/
  day : Option String
  isVoided : Patch Bool
  isBlocked : Patch Bool
  isDeleted : Patch Bool
  origin : Patch String
  data : Patch JsonObject
  externalCode : Patch String
  country : Patch String
  counterpartyId : Patch String
  counterpartyCountry : Patch String

structure UpdateTransactionDto where
  isBlocked : Patch Bool
  isVoided : Patch Bool

/-! ### Storing -/

section Create

variable (organizationId : String) (dto : CreateTransactionDto) (id : String)

/-- The row `create` inserts, if PostgreSQL accepts its values. -/
def createdRow : Except Thrown Transaction := do
  let idOrganization ← uuidValue organizationId
  let idAccount ← varchar 255 dto.idAccount
  let amount ← numeric184 dto.amount
  let amountNormalized ← numeric184 dto.amountNormalized
  let currency ← varchar 10 dto.currency
  let type ← varchar 50 dto.type
  let _ ← nullableVarchar 50 (dto.subType.nullable none)
  let datetime ← timestampValue dto.datetime
  let date ← dateValue dto.date dto.day
  let _ ← nullableVarchar 100 (dto.origin.nullable none)
  let _ ← nullableVarchar 255 (dto.externalCode.nullable none)
  let country ← nullableVarchar 10 (dto.country.nullable none)
  let counterpartyId ← nullableVarchar 255 (dto.counterpartyId.nullable none)
  let counterpartyCountry ← nullableVarchar 10 (dto.counterpartyCountry.nullable none)
  return {
    id, idOrganization, idAccount, amount, amountNormalized, currency, type, datetime, date
    isVoided := dto.isVoided.getD false
    isBlocked := dto.isBlocked.getD false
    isDeleted := dto.isDeleted.getD false
    data := dto.data.getD []
    country, counterpartyId, counterpartyCountry }

/-- `create`, as far as the table goes. -/
def create (db : Database) : Except Thrown Database := do
  let transaction ← createdRow organizationId dto id
  let transactions ← insertRow db.transactions transaction
  return { db with transactions }

end Create

def findTransaction (db : Database) : String → String → Except Thrown Transaction :=
  findOneOf "Transaction" db.transactions

def update (organizationId id : String) (dto : UpdateTransactionDto) (db : Database) :
    Except Thrown Database := do
  let transaction ← findTransaction db organizationId id
  let isBlocked ← dto.isBlocked.notNull "is_blocked" transaction.isBlocked
  let isVoided ← dto.isVoided.notNull "is_voided" transaction.isVoided
  return { db with transactions := db.transactions.put { transaction with isBlocked, isVoided } }

/-! ### Evaluating -/

/-- The context of the transaction just created.  `save` returns the entity
    built from the DTO, so the amounts are the ones that came in. -/
def createdContext (id : String) (dto : CreateTransactionDto) : EvaluationContext where
  transaction :=
    { id
      idAccount := dto.idAccount
      amount := dto.amount
      amountNormalized := dto.amountNormalized
      currency := dto.currency
      type := dto.type
      datetime := .date dto.datetime
      date := dto.date
      country := dto.country.saved
      counterpartyId := dto.counterpartyId.saved
      counterpartyCountry := dto.counterpartyCountry.saved
      data := .value (dto.data.getD []) }
  account := none
  metadata := none

/-- The transaction as `publishAlertEvents` reads it. -/
structure PublishedTransaction where
  id : String
  idAccount : String
  datetime : JsDate

/-- The message object of `publishAlertEvents`.  The instant survives the round
    trip through its ISO text. -/
def buildMessage (organizationId : String) (transaction : PublishedTransaction)
    (event : RuleEvent) : AlertEventMessage where
  organizationId := organizationId
  transactionId := transaction.id
  accountId := some transaction.idAccount
  ruleId := (event.params.get? "ruleId").getD .null
  ruleName := (event.params.get? "ruleName").getD .null
  severity := Json.orElse (event.params.get? "severity") (.str "MEDIUM")
  category := Json.orElse (event.params.get? "category") (.str "UNKNOWN")
  eventType := event.type
  eventParams := event.params
  transactionDatetime := transaction.datetime
  ruleConfig := event.params.get? "ruleConfig"

/-- One turn of the loop; `toISOString` throws on an invalid date. -/
def alertMessage (organizationId : String) (transaction : PublishedTransaction)
    (event : RuleEvent) : Except Thrown AlertEventMessage :=
  match JsDate.toISOString transaction.datetime with
  | none => .error (.error "Invalid time value")
  | some _ => .ok (buildMessage organizationId transaction event)

/-- `publishAlertEvents`: the messages emitted, one for each event. -/
def publishAlertEvents (organizationId : String) (transaction : PublishedTransaction) :
    List RuleEvent → Except Thrown (List AlertEventMessage)
  | [] => .ok []
  | event :: rest =>
      match alertMessage organizationId transaction event with
      | .error e => .error e
      | .ok message =>
          (publishAlertEvents organizationId transaction rest).map (message :: ·)

/-- The evaluation `createAndEvaluate` reports when evaluating or publishing
    throws. -/
def failOpen : EvaluationResult where
  success := false
  events := []
  failedRules := []
  evaluatedRulesCount := 0

/-- `createAndEvaluate` after the transaction has been stored: the evaluation it
    reports. -/
def evaluateCreated (c : Collaborators) (organizationId : String)
    (transaction : PublishedTransaction) : EvaluationResult :=
  let evaluationResult := evaluate c
  match publishAlertEvents organizationId transaction evaluationResult.events with
  | .ok _ => evaluationResult
  | .error _ => failOpen

/-! ### What is stored -/

section Stored

variable (organizationId : String) (dto : CreateTransactionDto) (id : String)

/-- PostgreSQL accepts the values of the row. -/
def storable : Bool :=
  IsUuid organizationId ∧ dto.idAccount.length ≤ 255 ∧
    (numeric184 dto.amount).isOk ∧ (numeric184 dto.amountNormalized).isOk ∧
    dto.currency.length ≤ 10 ∧ dto.type.length ≤ 50 ∧
    FitsVarchar 50 (dto.subType.nullable none) ∧ FitsTimestamp dto.datetime ∧ dto.day.isSome ∧
    FitsVarchar 100 (dto.origin.nullable none) ∧
    FitsVarchar 255 (dto.externalCode.nullable none) ∧
    FitsVarchar 10 (dto.country.nullable none) ∧
    FitsVarchar 255 (dto.counterpartyId.nullable none) ∧
    FitsVarchar 10 (dto.counterpartyCountry.nullable none)

theorem storable_iff :
    storable organizationId dto = true ↔ ∃ tx, createdRow organizationId dto id = .ok tx := by
  simp only [storable, createdRow, decide_eq_true_eq, bind_eq_ok, uuidValue_ok, varchar_ok,
    nullableVarchar_ok, timestampValue_ok, dateValue_ok, isOk_iff, Option.isSome_iff_exists]
  simp [pure, Except.pure]

/-- The row has the values of the DTO, its amounts as their columns round them. -/
structure RowOf (tx : Transaction) : Prop where
  id : tx.id = id
  organization : tx.idOrganization = pgUuid organizationId
  organizationUuid : IsUuid organizationId
  account : tx.idAccount = dto.idAccount
  accountFits : dto.idAccount.length ≤ 255
  type : tx.type = dto.type
  amount : numeric184 dto.amount = .ok tx.amount
  amountNormalized : numeric184 dto.amountNormalized = .ok tx.amountNormalized
  datetime : tx.datetime = dto.datetime
  datetimeFits : FitsTimestamp dto.datetime
  deleted : tx.isDeleted = dto.isDeleted.getD false
  voided : tx.isVoided = dto.isVoided.getD false

variable {organizationId dto id}

theorem createdRow_ok {tx : Transaction} (h : createdRow organizationId dto id = .ok tx) :
    RowOf organizationId dto id tx := by
  simp only [createdRow, bind_eq_ok, uuidValue_ok, varchar_ok, nullableVarchar_ok,
    timestampValue_ok, dateValue_ok] at h
  obtain ⟨_, ⟨horganization, rfl⟩, _, ⟨haccount, rfl⟩, amount, hamount, amountNormalized,
    hnormalized, _, ⟨-, rfl⟩, _, ⟨-, rfl⟩, -, -, _, ⟨hdatetime, rfl⟩, date, -, -, -, -, -,
    _, ⟨-, rfl⟩, _, ⟨-, rfl⟩, _, ⟨-, rfl⟩, h⟩ := h
  cases h
  exact ⟨rfl, rfl, horganization, rfl, haccount, rfl, hamount, hnormalized, rfl, hdatetime,
    rfl, rfl⟩

theorem RowOf.fresh {tx : Transaction} {table : Table Transaction}
    (h : RowOf organizationId dto id tx) (hfresh : ¬ table.Taken id) : ¬ table.Taken (key tx) := by
  rw [show key tx = id from h.id]
  exact hfresh

theorem create_ok_iff {db db' : Database} :
    create organizationId dto id db = .ok db' ↔
      ∃ tx, createdRow organizationId dto id = .ok tx ∧ ¬ db.transactions.Taken id ∧
        db' = { db with transactions := db.transactions.put tx } := by
  constructor
  · intro h
    obtain ⟨tx, htx, h⟩ := bind_eq_ok.mp h
    obtain ⟨table, hinsert, h⟩ := bind_eq_ok.mp h
    cases h
    obtain ⟨hfresh, rfl⟩ := insertRow_ok hinsert
    exact ⟨tx, htx, (createdRow_ok htx).id ▸ hfresh, rfl⟩
  · rintro ⟨tx, htx, hfresh, rfl⟩
    unfold create
    rw [htx, ok_bind, insertRow_of_fresh ((createdRow_ok htx).fresh hfresh)]
    rfl

end Stored

/-! ### What is published -/

theorem alertMessage_ok {organizationId : String} {transaction : PublishedTransaction}
    {rule : CachedRule} {event : EngineEvent} {message : AlertEventMessage}
    (h : alertMessage organizationId transaction (assembleEvent rule event) = .ok message) :
    message.organizationId = organizationId ∧
      message.transactionDatetime = transaction.datetime ∧
      message.ruleConfig = some (.obj rule.config) ∧
      message.ruleId = ((Json.ownProperties event.params).get? "ruleId").getD (.str rule.id) ∧
      message.severity =
        Json.orElse ((Json.ownProperties event.params).get? "severity") (.str "MEDIUM") ∧
      message.category =
        Json.orElse ((Json.ownProperties event.params).get? "category") (.str "UNKNOWN") := by
  unfold alertMessage at h
  cases hdate : JsDate.toISOString transaction.datetime with
  | none => simp [hdate] at h
  | some text =>
      simp only [hdate, Except.ok.injEq] at h
      subst h
      refine ⟨rfl, rfl, assembleEvent_ruleConfig rule event, ?_, ?_, ?_⟩
      · simp only [buildMessage, assembleEvent_ruleId]
        cases (Json.ownProperties event.params).get? "ruleId" <;> rfl
      · simp only [buildMessage, assembleEvent_own rule event (show "severity" ≠ "ruleId" by decide)
          (by decide) (by decide)]
      · simp only [buildMessage, assembleEvent_own rule event (show "category" ≠ "ruleId" by decide)
          (by decide) (by decide)]

theorem alertMessage_transaction {organizationId : String} {transaction : PublishedTransaction}
    {event : RuleEvent} {message : AlertEventMessage}
    (h : alertMessage organizationId transaction event = .ok message) :
    message.organizationId = organizationId ∧ message.transactionId = transaction.id ∧
      message.accountId = some transaction.idAccount := by
  unfold alertMessage at h
  split at h
  · cases h
  · cases h
    exact ⟨rfl, rfl, rfl⟩

theorem mem_publishAlertEvents {organizationId : String} {transaction : PublishedTransaction}
    {events : List RuleEvent} {messages : List AlertEventMessage} {message : AlertEventMessage}
    (h : publishAlertEvents organizationId transaction events = .ok messages)
    (hmem : message ∈ messages) :
    ∃ event ∈ events, alertMessage organizationId transaction event = .ok message := by
  induction events generalizing messages with
  | nil =>
      cases h
      exact absurd hmem List.not_mem_nil
  | cons event rest ih =>
      simp only [publishAlertEvents] at h
      cases hhead : alertMessage organizationId transaction event with
      | error e => simp [hhead] at h
      | ok first =>
          cases htail : publishAlertEvents organizationId transaction rest with
          | error e => simp [hhead, htail, Except.map] at h
          | ok later =>
              simp only [hhead, htail, Except.map, Except.ok.injEq] at h
              subst h
              rcases List.mem_cons.mp hmem with rfl | hin
              · exact ⟨event, List.mem_cons_self, hhead⟩
              · obtain ⟨other, hother, hmessage⟩ := ih htail hin
                exact ⟨other, List.mem_cons_of_mem _ hother, hmessage⟩

theorem publishAlertEvents_complete (organizationId : String) {transaction : PublishedTransaction}
    (hdate : transaction.datetime ≠ none) (events : List RuleEvent) :
    ∃ messages, publishAlertEvents organizationId transaction events = .ok messages ∧
      messages.length = events.length := by
  obtain ⟨t, hdatetime⟩ := Option.ne_none_iff_exists'.mp hdate
  induction events with
  | nil => exact ⟨[], rfl, rfl⟩
  | cons event rest ih =>
      obtain ⟨messages, hmessages, hlength⟩ := ih
      have hmessage : ∃ message, alertMessage organizationId transaction event = .ok message := by
        simp [alertMessage, hdatetime, JsDate.toISOString]
      obtain ⟨message, hmessage⟩ := hmessage
      refine ⟨message :: messages, ?_, by simp [hlength]⟩
      simp [publishAlertEvents, hmessage, hmessages, Except.map]

end RulesEngine.Transactions
