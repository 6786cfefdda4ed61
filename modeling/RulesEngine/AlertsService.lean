import RulesEngine.AlertEvents
import Mathlib.Data.List.Infix

/-!
# AlertsService

`alerts/alerts.service.ts` over an `alerts` table.  Each call is two atomic
database accesses: `processAlertEvent` looks up the active alert of the event's
key (`lookup`) and later saves (`record`), `updateStatus` loads the alert
(`findOne`) and later saves (`saveStatus`).  The sequential functions run the
two halves back to back; `AlertInterleaving` runs them apart.

`findOne` may return any of several matching rows, so it takes the choice as an
argument.  Saving a loaded entity writes every column whose in-memory value
differs from the row, which leaves the row equal to the entity: `Table.put`.
-/

namespace RulesEngine.Alerts

open RulesEngine.Foundations

/-! ### Queries -/

/-- The row a query without `ORDER BY` happens to return first. -/
structure Pick where
  choose : List Alert → Option Alert
  mem_of_choose : ∀ rows alert, choose rows = some alert → alert ∈ rows
  exists_choose : ∀ rows alert, alert ∈ rows → ∃ chosen, choose rows = some chosen

/-- The query that returns rows in storage order. -/
def Pick.first : Pick where
  choose := List.head?
  mem_of_choose := fun _ _ h => List.mem_of_mem_head? h
  exists_choose := fun rows _ h => by
    cases rows with
    | nil => simp at h
    | cons row rest => exact ⟨row, rfl⟩

/-- `findOne({ where: { dedupKey, status: In([OPEN, ACKNOWLEDGED]) } })`. -/
def findActive (pick : Pick) (table : Table Alert) (dedupKey : String) : Option Alert :=
  pick.choose (table.rows.filter fun alert =>
    alert.dedupKey = dedupKey ∧ alert.status.isActive = true)

theorem findActive_some {pick : Pick} {table : Table Alert} {dedupKey : String} {alert : Alert}
    (h : findActive pick table dedupKey = some alert) :
    alert ∈ table.rows ∧ alert.dedupKey = dedupKey ∧ alert.status.isActive = true := by
  have hmem := pick.mem_of_choose _ _ h
  simpa only [List.mem_filter, decide_eq_true_eq] using hmem

theorem findActive_none {pick : Pick} {table : Table Alert} {dedupKey : String}
    (h : findActive pick table dedupKey = none) :
    ∀ alert ∈ table.rows, alert.dedupKey = dedupKey → alert.status.isActive = false := by
  intro alert halert hkey
  by_contra hactive
  have hin : alert ∈ table.rows.filter fun alert =>
      alert.dedupKey = dedupKey ∧ alert.status.isActive = true := by
    simp only [List.mem_filter, decide_eq_true_eq]
    exact ⟨halert, hkey, by simpa using hactive⟩
  obtain ⟨chosen, hchosen⟩ := pick.exists_choose _ _ hin
  exact absurd (h.symm.trans hchosen) (by simp)

/-! ### Action handlers -/

inductive ActionType where
  | db
  | webhook
  | queue
  | block
deriving DecidableEq, Repr

def ActionType.name : ActionType → String
  | .db => "db"
  | .webhook => "webhook"
  | .queue => "queue"
  | .block => "block"

/-- The handlers in the order `AlertsService` registers them. -/
def actionHandlers : List ActionType := [.db, .webhook, .queue, .block]

/-- `actions?.includes(name) ?? false` on an unvalidated value: membership in an
    array, substring of a string, and no such method on anything else. -/
def includesAction (actions : Option Json) (name : String) : Except Thrown Bool :=
  match actions with
  | none => .ok false
  | some .null => .ok false
  | some (.arr items) => .ok (items.any fun item =>
      match item with
      | .str text => text = name
      | _ => false)
  | some (.str text) => .ok (decide (name.toList <:+: text.toList))
  | some _ => .error (.error "actions?.includes is not a function")

/-- `handler.shouldExecute(event)`. -/
def shouldExecute : ActionType → AlertEventMessage → Except Thrown Bool
  | .db, _ => .ok true
  | handler, event => includesAction (Json.prop? event.ruleConfig "actions") handler.name

/-- How `handler.execute` ends. -/
inductive HandlerOutcome where
  | success
  | failure
  | exception
deriving DecidableEq, Repr

/-- `executeActionHandlers`: the handlers executed, with their outcomes, and how
    the loop ends.  An outcome never leaves the loop; `shouldExecute`, outside
    the `try`, can. -/
def executeActionHandlers (outcome : ActionType → HandlerOutcome) (event : AlertEventMessage) :
    List ActionType → List (ActionType × HandlerOutcome) × Except Thrown Unit
  | [] => ([], .ok ())
  | handler :: rest =>
      match shouldExecute handler event with
      | .error e => ([], .error e)
      | .ok false => executeActionHandlers outcome event rest
      | .ok true =>
          let (executed, result) := executeActionHandlers outcome event rest
          ((handler, outcome handler) :: executed, result)

/-! ### processAlertEvent -/

/-- What `processAlertEvent` holds between its `findOne` and its `save`. -/
structure PendingEvent where
  event : AlertEventMessage
  dedupKey : String
  severity : AlertSeverity
  category : AlertCategory
  existing : Option Alert

/-- What a `processAlertEvent` call needs besides the message and the table. -/
structure ProcessInput where
  pick : Pick
  now : Int
  newId : String
  parents : Parents
  outcome : ActionType → HandlerOutcome

/-- The loaded alert with one more hit. -/
def Alert.hit (alert : Alert) (now : Int) : Alert :=
  { alert with hitCount := alert.hitCount + 1, lastTriggeredAt := now }

@[simp] theorem hit_dedupKey (alert : Alert) (now : Int) :
    (alert.hit now).dedupKey = alert.dedupKey := rfl

@[simp] theorem hit_hitCount (alert : Alert) (now : Int) :
    (alert.hit now).hitCount = alert.hitCount + 1 := rfl

/-- A value as a `uuid` column holds it; one that is no text fits none. -/
def uuidColumn : Json → Json
  | .str text => .str (pgUuid text)
  | value => value

/-- The alert `processAlertEvent` creates.  The message has the id of its transaction
    from PostgreSQL. -/
def PendingEvent.newAlert (pending : PendingEvent) (now : Int) (newId : String) : Alert where
  id := newId
  idOrganization := pgUuid pending.event.organizationId
  idRule := uuidColumn pending.event.ruleId
  idTransaction := pending.event.transactionId
  idAccount := pending.event.accountId
  severity := pending.severity
  category := pending.category
  status := .OPEN
  hitCount := 1
  firstTriggeredAt := now
  lastTriggeredAt := now
  dedupKey := pending.dedupKey
  metadata :=
    { ruleName := pending.event.ruleName
      eventType := pending.event.eventType
      eventParams := pending.event.eventParams }

theorem ofRule_newAlert (pending : PendingEvent) (now : Int) (newId ruleId : String) :
    (pending.newAlert now newId).ofRule ruleId = true ↔
      ∃ text, pending.event.ruleId = .str text ∧ pgUuid text = ruleId := by
  cases hrule : pending.event.ruleId <;>
    simp [Alert.ofRule, PendingEvent.newAlert, uuidColumn, hrule]

/-- Whether PostgreSQL accepts the new row shows in the message. -/
theorem accept_newAlert_iff (parents : Parents) (pending : PendingEvent) (now : Int)
    (newId : String) :
    parents.Accept (pending.newAlert now newId) ↔ parents.AcceptEvent pending.event := by
  have hrule : (∃ ruleId ∈ parents.rules, (pending.newAlert now newId).ofRule ruleId = true) ↔
      ∃ text, pending.event.ruleId = .str text ∧ pgUuid text ∈ parents.rules := by
    simp only [ofRule_newAlert]
    constructor
    · rintro ⟨ruleId, hmem, text, htext, rfl⟩
      exact ⟨text, htext, hmem⟩
    · rintro ⟨text, htext, hmem⟩
      exact ⟨pgUuid text, hmem, text, htext, rfl⟩
  constructor
  · intro h
    exact ⟨(isUuid_pgUuid _).mp h.organization, hrule.mp h.rule, h.transaction, h.account⟩
  · intro h
    exact ⟨(isUuid_pgUuid _).mpr h.organization, hrule.mpr h.rule, h.transaction, h.account⟩

instance (parents : Parents) (event : AlertEventMessage) : Decidable (parents.AcceptEvent event) :=
  decidable_of_iff _ (accept_newAlert_iff parents ⟨event, "", .LOW, .AML, none⟩ 0 "")

/-- The entity the second half of `processAlertEvent` saves. -/
def PendingEvent.entity (pending : PendingEvent) (now : Int) (newId : String) : Alert :=
  match pending.existing with
  | some existing => existing.hit now
  | none => pending.newAlert now newId

/-- The second half of `processAlertEvent`, up to and including `save`.  An
    insert fails when the generated id is already in use, or when PostgreSQL
    does not accept the row. -/
def PendingEvent.record (pending : PendingEvent) (now : Int) (newId : String)
    (parents : Parents) (table : Table Alert) : Except Thrown (Table Alert) :=
  if pending.existing = none ∧ table.Taken newId then
    .error (.error "duplicate key value violates unique constraint \"PK_alerts\"")
  else if pending.existing = none ∧ ¬ parents.Accept (pending.newAlert now newId) then
    .error (.error "insert on table \"alerts\" refused")
  else .ok (table.put (pending.entity now newId))

section Process

variable [NumberText]

/-- The first half of `processAlertEvent`: everything up to and including
    `findOne`. -/
def lookup (pick : Pick) (event : AlertEventMessage) (table : Table Alert) :
    Except Thrown PendingEvent := do
  let dedupKey ← calculateDedupKey event
  let severity ← parseSeverity event.severity
  let category ← parseCategory event.category
  return { event, dedupKey, severity, category, existing := findActive pick table dedupKey }

/-- How a `processAlertEvent` call ends: the table it leaves, the alert it
    saved, the handlers it executed, and the promise it returned. -/
structure ProcessResult where
  table : Table Alert
  saved : Option Alert
  executed : List (ActionType × HandlerOutcome)
  promise : Except Thrown Alert

/-- `processAlertEvent`, run without interruption. -/
def processAlertEvent (input : ProcessInput) (event : AlertEventMessage) (table : Table Alert) :
    ProcessResult :=
  match lookup input.pick event table with
  | .error e => { table, saved := none, executed := [], promise := .error e }
  | .ok pending =>
      match pending.record input.now input.newId input.parents table with
      | .error e => { table, saved := none, executed := [], promise := .error e }
      | .ok table' =>
          let alert := pending.entity input.now input.newId
          let (executed, result) := executeActionHandlers input.outcome event actionHandlers
          { table := table', saved := some alert, executed, promise := result.map fun _ => alert }

/-- `AlertsConsumer.handleAlertEvent`: a rejected promise is logged, and the
    message is acknowledged in any case. -/
structure Delivery where
  table : Table Alert
  acknowledged : Bool

def handleAlertEvent (input : ProcessInput) (event : AlertEventMessage) (table : Table Alert) :
    Delivery :=
  { table := (processAlertEvent input event table).table, acknowledged := true }

end Process

/-! ### updateStatus -/

/-- `findOne(organizationId, id)`. -/
def findOne (organizationId id : String) (table : Table Alert) : Except Thrown Alert :=
  match table.get? (pgUuid id) with
  | some alert =>
      if alert.idOrganization = pgUuid organizationId then .ok alert
      else .error (.error ("Alert with ID \"" ++ id ++ "\" not found"))
  | none => .error (.error ("Alert with ID \"" ++ id ++ "\" not found"))

/-- The second half of `updateStatus`. -/
def saveStatus (alert : Alert) (status : AlertStatus) (table : Table Alert) : Table Alert :=
  table.put { alert with status }

/-- `updateStatus`, run without interruption. -/
def updateStatus (organizationId id : String) (status : AlertStatus) (table : Table Alert) :
    Except Thrown (Table Alert) :=
  (findOne organizationId id table).map fun alert => saveStatus alert status table

theorem findOne_ok {organizationId id : String} {table : Table Alert} {alert : Alert}
    (h : findOne organizationId id table = .ok alert) :
    alert ∈ table.rows ∧ alert.id = pgUuid id ∧ alert.idOrganization = pgUuid organizationId := by
  unfold findOne at h
  split at h
  · rename_i found hfound
    split at h
    · rename_i horg
      cases h
      obtain ⟨hmem, hid⟩ := Table.mem_of_get? hfound
      exact ⟨hmem, hid, horg⟩
    · cases h
  · cases h

theorem findOne_error {organizationId id : String} {table : Table Alert} {e : Thrown}
    (h : findOne organizationId id table = .error e) :
    ∀ alert ∈ table.rows, alert.id = pgUuid id → alert.idOrganization ≠ pgUuid organizationId := by
  intro alert halert hid horg
  have hget : table.get? (pgUuid id) = some alert := Table.get?_eq_some_iff.mpr ⟨halert, hid⟩
  simp [findOne, hget, horg] at h

/-! ### What the two halves of processAlertEvent do -/

/-- A saved event found its alert, or its insert was accepted. -/
theorem record_ok {pending : PendingEvent} {now : Int} {newId : String} {parents : Parents}
    {table table' : Table Alert} (h : pending.record now newId parents table = .ok table') :
    (pending.existing = none →
      ¬ table.Taken newId ∧ parents.Accept (pending.newAlert now newId)) ∧
      table' = table.put (pending.entity now newId) := by
  unfold PendingEvent.record at h
  split at h
  · cases h
  · rename_i hfresh
    split at h
    · cases h
    · rename_i haccept
      cases h
      refine ⟨fun hnone => ⟨fun htaken => hfresh ⟨hnone, htaken⟩, ?_⟩, rfl⟩
      by_contra hnot
      exact haccept ⟨hnone, hnot⟩

theorem record_error {pending : PendingEvent} {now : Int} {newId : String} {parents : Parents}
    {table : Table Alert} {e : Thrown} (h : pending.record now newId parents table = .error e) :
    pending.existing = none ∧
      (table.Taken newId ∨ ¬ parents.Accept (pending.newAlert now newId)) := by
  unfold PendingEvent.record at h
  split at h
  · rename_i htaken
    exact ⟨htaken.1, Or.inl htaken.2⟩
  · split at h
    · rename_i hrefused
      exact ⟨hrefused.1, Or.inr hrefused.2⟩
    · cases h

theorem record_of_accepted {pending : PendingEvent} {now : Int} {newId : String} {parents : Parents}
    {table : Table Alert} (h : pending.existing = none →
      ¬ table.Taken newId ∧ parents.Accept (pending.newAlert now newId)) :
    pending.record now newId parents table = .ok (table.put (pending.entity now newId)) := by
  rw [PendingEvent.record, if_neg fun hcase => (h hcase.1).1 hcase.2,
    if_neg fun hcase => hcase.2 (h hcase.1).2]

section Specs

variable [NumberText]

/-- What the lookup read off the event. -/
structure PendingEvent.Computed (pending : PendingEvent) : Prop where
  dedupKey : calculateDedupKey pending.event = .ok pending.dedupKey
  severity : parseSeverity pending.event.severity = .ok pending.severity
  category : parseCategory pending.event.category = .ok pending.category

/-- The lookup reads the table only through `findOne`; its key, severity and
    category come from the message. -/
theorem lookup_ok {pick : Pick} {event : AlertEventMessage} {table : Table Alert}
    {pending : PendingEvent} (h : lookup pick event table = .ok pending) :
    pending.event = event ∧ pending.Computed ∧
      pending.existing = findActive pick table pending.dedupKey := by
  unfold lookup at h
  cases hkey : calculateDedupKey event with
  | error e => simp [hkey, bind, Except.bind] at h
  | ok dedupKey =>
      cases hseverity : parseSeverity event.severity with
      | error e => simp [hkey, hseverity, bind, Except.bind] at h
      | ok severity =>
          cases hcategory : parseCategory event.category with
          | error e => simp [hkey, hseverity, hcategory, bind, Except.bind] at h
          | ok category =>
              simp only [hkey, hseverity, hcategory, bind, Except.bind, pure, Except.pure,
                Except.ok.injEq] at h
              subst h
              exact ⟨rfl, ⟨hkey, hseverity, hcategory⟩, rfl⟩

theorem lookup_ok_iff (pick : Pick) (event : AlertEventMessage) (table : Table Alert) :
    (∃ pending, lookup pick event table = .ok pending) ↔
      (∃ dedupKey, calculateDedupKey event = .ok dedupKey) ∧
      Upcasable event.severity ∧ Upcasable event.category := by
  constructor
  · rintro ⟨pending, h⟩
    obtain ⟨rfl, hcomputed, -⟩ := lookup_ok h
    exact ⟨⟨_, hcomputed.dedupKey⟩, (parseSeverity_ok_iff _).mp ⟨_, hcomputed.severity⟩,
      (parseCategory_ok_iff _).mp ⟨_, hcomputed.category⟩⟩
  · rintro ⟨⟨dedupKey, hkey⟩, hseverity, hcategory⟩
    obtain ⟨severity, hseverity⟩ := (parseSeverity_ok_iff _).mpr hseverity
    obtain ⟨category, hcategory⟩ := (parseCategory_ok_iff _).mpr hcategory
    exact ⟨{ event, dedupKey, severity, category, existing := findActive pick table dedupKey }, by
      simp only [lookup, hkey, hseverity, hcategory, bind, Except.bind, pure, Except.pure]⟩

/-- The key of an event that `processAlertEvent` gets as far as `findOne` with. -/
def acceptedKey (event : AlertEventMessage) : Option String := do
  let dedupKey ← (calculateDedupKey event).toOption
  let _ ← (parseSeverity event.severity).toOption
  let _ ← (parseCategory event.category).toOption
  return dedupKey

theorem acceptedKey_of_computed {pending : PendingEvent} (h : pending.Computed) :
    acceptedKey pending.event = some pending.dedupKey := by
  simp [acceptedKey, h.dedupKey, h.severity, h.category, Except.toOption]

theorem acceptedKey_of_rejected {pick : Pick} {event : AlertEventMessage} {table : Table Alert}
    {e : Thrown} (h : lookup pick event table = .error e) : acceptedKey event = none := by
  unfold lookup at h
  unfold acceptedKey
  cases hkey : calculateDedupKey event with
  | error e' => rfl
  | ok dedupKey =>
      cases hseverity : parseSeverity event.severity with
      | error e' => rfl
      | ok severity =>
          cases hcategory : parseCategory event.category with
          | error e' => rfl
          | ok category =>
              rw [hkey, hseverity, hcategory] at h
              cases h

theorem acceptedKey_eq_some_iff (event : AlertEventMessage) :
    (∃ dedupKey, acceptedKey event = some dedupKey) ↔
      (∃ dedupKey, calculateDedupKey event = .ok dedupKey) ∧
      Upcasable event.severity ∧ Upcasable event.category := by
  rw [← lookup_ok_iff .first event Table.empty]
  constructor
  · rintro ⟨dedupKey, hkey⟩
    cases hlookup : lookup .first event Table.empty with
    | error e => exact absurd (hkey.symm.trans (acceptedKey_of_rejected hlookup)) (by simp)
    | ok pending => exact ⟨pending, rfl⟩
  · rintro ⟨pending, hlookup⟩
    obtain ⟨rfl, hcomputed, -⟩ := lookup_ok hlookup
    exact ⟨_, acceptedKey_of_computed hcomputed⟩

theorem lookup_of_acceptedKey (pick : Pick) {event : AlertEventMessage} (table : Table Alert)
    {dedupKey : String} (h : acceptedKey event = some dedupKey) :
    ∃ pending, lookup pick event table = .ok pending ∧ pending.dedupKey = dedupKey := by
  cases hlookup : lookup pick event table with
  | error e => exact absurd (h.symm.trans (acceptedKey_of_rejected hlookup)) (by simp)
  | ok pending =>
      obtain ⟨rfl, hcomputed, -⟩ := lookup_ok hlookup
      exact ⟨pending, rfl, Option.some.inj ((acceptedKey_of_computed hcomputed).symm.trans h)⟩

/-- `processAlertEvent` records the event: its key, severity and category can be
    read, and the key has an active alert or a new one can be inserted. -/
def Processable (input : ProcessInput) (event : AlertEventMessage) (table : Table Alert) : Prop :=
  ∃ dedupKey, acceptedKey event = some dedupKey ∧
    ((∃ alert ∈ table.rows, alert.dedupKey = dedupKey ∧ alert.status.isActive = true) ∨
      (¬ table.Taken input.newId ∧ input.parents.AcceptEvent event))

instance (input : ProcessInput) (event : AlertEventMessage) (table : Table Alert) :
    Decidable (Processable input event table) :=
  match hkey : acceptedKey event with
  | none => isFalse fun ⟨_, h, _⟩ => by cases hkey.symm.trans h
  | some dedupKey => decidable_of_iff
      ((∃ alert ∈ table.rows, alert.dedupKey = dedupKey ∧ alert.status.isActive = true) ∨
        (¬ table.Taken input.newId ∧ input.parents.AcceptEvent event))
      ⟨fun h => ⟨dedupKey, hkey, h⟩, fun ⟨_, h, hcases⟩ =>
        Option.some.inj (hkey.symm.trans h) ▸ hcases⟩

theorem processable_of_record {input : ProcessInput} {pending : PendingEvent}
    {table table' : Table Alert} (hlookup : lookup input.pick pending.event table = .ok pending)
    (hrecord : pending.record input.now input.newId input.parents table = .ok table') :
    Processable input pending.event table := by
  obtain ⟨-, hcomputed, hexisting⟩ := lookup_ok hlookup
  refine ⟨pending.dedupKey, acceptedKey_of_computed hcomputed, ?_⟩
  cases hfound : pending.existing with
  | some alert => exact Or.inl ⟨alert, findActive_some (hexisting.symm.trans hfound)⟩
  | none =>
      obtain ⟨hfresh, haccept⟩ := (record_ok hrecord).1 hfound
      exact Or.inr ⟨hfresh, (accept_newAlert_iff _ _ _ _).mp haccept⟩

theorem record_of_processable {input : ProcessInput} {event : AlertEventMessage}
    {table : Table Alert} (h : Processable input event table) :
    ∃ pending, lookup input.pick event table = .ok pending ∧
      pending.record input.now input.newId input.parents table =
        .ok (table.put (pending.entity input.now input.newId)) := by
  obtain ⟨dedupKey, hkey, hcases⟩ := h
  obtain ⟨pending, hlookup, rfl⟩ := lookup_of_acceptedKey input.pick table hkey
  refine ⟨pending, hlookup, record_of_accepted fun hnone => ?_⟩
  obtain ⟨rfl, -, hexisting⟩ := lookup_ok hlookup
  rcases hcases with ⟨alert, halert, halertKey, hactive⟩ | ⟨hfresh, haccept⟩
  · have hclosed := findActive_none (hexisting.symm.trans hnone) alert halert halertKey
    exact absurd (hclosed.symm.trans hactive) (by simp)
  · exact ⟨hfresh, (accept_newAlert_iff _ _ _ _).mpr haccept⟩

end Specs

/-! ### The hit ledger -/

/-- The sum of `hitCount` over the alerts of a key. -/
def hitTotal (table : Table Alert) (dedupKey : String) : Nat :=
  table.sum fun alert => if alert.dedupKey = dedupKey then alert.hitCount else 0

theorem hitTotal_put {table : Table Alert} {row : Alert} (alert : Alert) (dedupKey : String)
    (hrow : row ∈ table.rows) (hid : row.id = alert.id) (hkey : row.dedupKey = alert.dedupKey) :
    hitTotal (table.put alert) dedupKey + (if alert.dedupKey = dedupKey then row.hitCount else 0) =
      hitTotal table dedupKey + if alert.dedupKey = dedupKey then alert.hitCount else 0 := by
  have hsum := Table.sum_put_of_mem
    (fun a : Alert => if a.dedupKey = dedupKey then a.hitCount else 0) (x := alert) hrow hid
  simp only [hkey] at hsum
  exact hsum

theorem hitTotal_put_new {table : Table Alert} (pending : PendingEvent) (now : Int) {newId : String}
    (dedupKey : String) (hfresh : ¬ table.Taken newId) :
    hitTotal (table.put (pending.newAlert now newId)) dedupKey =
      hitTotal table dedupKey + if pending.dedupKey = dedupKey then 1 else 0 := by
  unfold hitTotal
  rw [Table.sum_put_of_fresh _ (by exact hfresh)]
  rfl

/-! ### Samples -/

def sampleRule : String := "0b8f6c1e-3d52-4a97-8e40-7c1f92d6a35b"

def otherRule : String := "91d4e7a3-6c08-4f2b-b5d1-e83a0c647f29"

def sampleTx : String := "c3a95e08-71bd-4e26-9f14-5d80b2e6c7a1"

def firstAlert : String := "2e6f81b7-d094-4c5a-a37d-18b95c0e4f62"

def secondAlert : String := "7a40c9d5-1be8-4236-8f0c-b6e2d3571a94"

def thirdAlert : String := "d815f3a2-5c7e-49b0-96d4-0f2a7be8c613"

/-- A message of a rule with the default window, about a transaction at the
    start of 1970. -/
def sampleEvent (organizationId ruleId : String) : AlertEventMessage where
  organizationId := organizationId
  transactionId := sampleTx
  accountId := some "acc"
  ruleId := .str ruleId
  ruleName := .str "amount"
  severity := .str "HIGH"
  category := .str "AML"
  eventType := .str "alert"
  eventParams := []
  transactionDatetime := some 0
  ruleConfig := some (.obj [])

/-- The rules and the transaction are stored. -/
def sampleParents : Parents := ⟨[sampleRule, otherRule], [sampleTx]⟩

/-- A call that reads the clock as `now` and generates `newId`. -/
def sampleInput (now : Int) (newId : String) : ProcessInput where
  pick := .first
  now := now
  newId := newId
  parents := sampleParents
  outcome := fun _ => .success

end RulesEngine.Alerts
