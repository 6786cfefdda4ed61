import RulesEngine.AuditTrail
import RulesEngine.Foundations.AcknowledgedQueue

/-!
# The transactions queue

`TransactionsConsumer` takes transactions from a durable queue and calls
`createAndEvaluate`: the transaction is stored, then evaluated against the rules
of its organization, and each reported event is emitted to the alerts queue.
The message is acknowledged in the `finally`.  Any number of consumers work at
once, and any operation of the application may fall between two of their steps.

Each message that can be stored gives exactly one transaction, and one more for
each redelivery after its row was stored (`drained_transactions`); every alert
event refers to a stored transaction (`alerts_reference_transactions`).
-/

namespace RulesEngine.Transactions

open RulesEngine.Foundations
open RulesEngine.Alerts
open RulesEngine.Lists
open RulesEngine.Engine

/-! ### The row of a message -/

structure TransactionMessage where
  organizationId : String
  transaction : CreateTransactionDto

def TransactionMessage.row (message : TransactionMessage) (id : String) :
    Except Thrown Transaction := createdRow message.organizationId message.transaction id

def TransactionMessage.storable (message : TransactionMessage) : Bool :=
  Transactions.storable message.organizationId message.transaction

/-- The table has the row of the message, up to the columns an update assigns. -/
def StoredAs (table : Table Transaction) (message : TransactionMessage) (id : String) : Prop :=
  ∃ tx ∈ table.rows, ∃ created, message.row id = .ok created ∧ tx.fixed = created.fixed

theorem StoredAs.continues {table table' : Table Transaction} {message : TransactionMessage}
    {id : String} (h : StoredAs table message id)
    (htable : Table.Continues Transaction.fixed table table') : StoredAs table' message id := by
  obtain ⟨tx, htx, created, hcreated, hfixed⟩ := h
  obtain ⟨tx', htx', hfixed'⟩ := htable.exists_row htx
  exact ⟨tx', htx', created, hcreated, hfixed'.trans hfixed⟩

theorem StoredAs.taken {table : Table Transaction} {message : TransactionMessage} {id : String}
    (h : StoredAs table message id) : table.Taken id := by
  obtain ⟨tx, htx, created, hcreated, hfixed⟩ := h
  have hid : tx.fixed.id = created.fixed.id := congrArg Transaction.id hfixed
  have hkey : key tx = id := hid.trans (createdRow_ok hcreated).id
  exact hkey ▸ Table.taken_of_mem htx

/-- The message is about a stored transaction of its organization, with its account
    and its time. -/
def RefersTo (table : Table Transaction) (message : AlertEventMessage) : Prop :=
  ∃ tx ∈ table.rows, tx.id = message.transactionId ∧
    tx.idOrganization = pgUuid message.organizationId ∧ message.accountId = some tx.idAccount ∧
    message.transactionDatetime = tx.datetime

theorem RefersTo.continues {table table' : Table Transaction} {message : AlertEventMessage}
    (h : RefersTo table message) (htable : Table.Continues Transaction.fixed table table') :
    RefersTo table' message := by
  obtain ⟨tx, htx, hid, horg, haccount, hdatetime⟩ := h
  obtain ⟨tx', htx', hfixed⟩ := htable.exists_row htx
  have hid' : tx'.fixed.id = tx.fixed.id := congrArg Transaction.id hfixed
  have horg' : tx'.fixed.idOrganization = tx.fixed.idOrganization :=
    congrArg Transaction.idOrganization hfixed
  have haccount' : tx'.fixed.idAccount = tx.fixed.idAccount := congrArg Transaction.idAccount hfixed
  have hdatetime' : tx'.fixed.datetime = tx.fixed.datetime := congrArg Transaction.datetime hfixed
  exact ⟨tx', htx', hid'.trans hid, horg'.trans horg,
    haccount.trans (congrArg some haccount'.symm), hdatetime.trans hdatetime'.symm⟩

/-! ### Consumers -/

/-- Where `handleTransaction` stands: before `create`, before the evaluation, or in
    its `finally`, with the id of the transaction if it was stored. -/
inductive Intake where
  | received
  | stored (id : String)
  | settled (rowId : Option String)

/-- A step of an attempt, with the id PostgreSQL generates or the clock. -/
inductive IntakeStep where
  | create (id : String)
  | evaluate (now : Int)

/-- The application, and the alert events emitted so far. -/
structure Backend where
  state : State
  emitted : List AlertEventMessage

section Consumers

variable [NumberText] [DriverText] [NumberParsing] (env : Environment)

/-- The events `publishAlertEvents` emits for a transaction just stored. -/
def alertEvents (s : State) (organizationId : String) (dto : CreateTransactionDto) (id : String)
    (now : Int) : List AlertEventMessage :=
  match publishAlertEvents organizationId ⟨id, dto.idAccount, dto.datetime⟩
      (evaluate (collaborators env s organizationId (createdContext id dto) now)).events with
  | .ok messages => messages
  | .error _ => []

/-- One step of `handleTransaction`.  `create` rejects the promise; the evaluation
    never does. -/
def intakeStep (b : Backend) (message : TransactionMessage) :
    Intake → IntakeStep → Option (Backend × Intake)
  | .received, .create id =>
      match create message.organizationId message.transaction id b.state.db with
      | .error _ => some (b, .settled none)
      | .ok db => some ({ b with state := { b.state with db } }, .stored id)
  | .stored id, .evaluate now =>
      some
        ({ state := b.state.evaluated env message.organizationId
            (collaborators env b.state message.organizationId
              (createdContext id message.transaction) now)
           emitted := b.emitted ++
            alertEvents env b.state message.organizationId message.transaction id now },
          .settled (some id))
  | _, _ => none

def Intake.rowId : Intake → Option String
  | .received => none
  | .stored id => some id
  | .settled rowId => rowId

def Intake.finished : Intake → Bool
  | .settled _ => true
  | _ => false

/-- Everything a step of an attempt can do. -/
inductive IntakeMove (b : Backend) (message : TransactionMessage) :
    Intake → IntakeStep → Backend → Intake → Prop where
  | rejected (id : String) :
      ¬ (message.storable = true ∧ ¬ b.state.db.transactions.Taken id) →
      IntakeMove b message .received (.create id) b (.settled none)
  | created (id : String) (tx : Transaction) : message.row id = .ok tx →
      ¬ b.state.db.transactions.Taken id →
      IntakeMove b message .received (.create id)
        { b with state := { b.state with
          db := { b.state.db with transactions := b.state.db.transactions.put tx } } }
        (.stored id)
  | evaluated (id : String) (now : Int) :
      IntakeMove b message (.stored id) (.evaluate now)
        { state := b.state.evaluated env message.organizationId
            (collaborators env b.state message.organizationId
              (createdContext id message.transaction) now)
          emitted := b.emitted ++
            alertEvents env b.state message.organizationId message.transaction id now }
        (.settled (some id))

variable {env}

theorem intakeStep_move {b b' : Backend} {message : TransactionMessage} {t t' : Intake}
    {label : IntakeStep} (h : intakeStep env b message t label = some (b', t')) :
    IntakeMove env b message t label b' t' := by
  unfold intakeStep at h
  split at h
  · rename_i id
    split at h
    · rename_i e he
      cases h
      refine .rejected id ?_
      rintro ⟨hstorable, hfresh⟩
      obtain ⟨tx, htx⟩ := (storable_iff message.organizationId _ id).mp hstorable
      have hok := create_ok_iff.mpr ⟨tx, htx, hfresh, rfl⟩
      rw [he] at hok
      cases hok
    · rename_i db hdb
      cases h
      obtain ⟨tx, htx, hfresh, rfl⟩ := create_ok_iff.mp hdb
      exact .created id tx htx hfresh
  · rename_i id now
    cases h
    exact .evaluated id now
  · cases h

theorem rowId_intakeStep {b b' : Backend} {message : TransactionMessage} {t t' : Intake}
    {label : IntakeStep} {id : String} (h : intakeStep env b message t label = some (b', t'))
    (hid : t.rowId = some id) : t'.rowId = some id := by
  cases intakeStep_move h with
  | rejected newId hnot => cases hid
  | created newId tx htx hfresh => cases hid
  | evaluated newId now => exact hid

variable (env) in
/-- `TransactionsConsumer`. -/
def transactionsConsumer : Worker Backend TransactionMessage Intake IntakeStep String where
  start := .received
  work := intakeStep env
  finished := Intake.finished
  receipt := Intake.rowId
  receipt_start := rfl
  receipt_work := rowId_intakeStep

variable (env) in
/-- The alert events an operation emits. -/
def emittedBy (s : State) : Op → List AlertEventMessage
  | .createAndEvaluate organizationId dto id now =>
      match create organizationId dto id s.db with
      | .error _ => []
      | .ok db => alertEvents env { s with db } organizationId dto id now
  | _ => []

variable (env) in
/-- An operation of the application, which may be a `POST /transactions`. -/
def applicationStep (b : Backend) (op : Op) : Option Backend :=
  some { state := (step env b.state op).1, emitted := b.emitted ++ emittedBy env b.state op }

abbrev TransactionQueue := Served Backend TransactionMessage Intake String

abbrev TransactionTraffic := Traffic TransactionMessage IntakeStep Op

def TransactionQueue.start (s : State) : TransactionQueue := ⟨⟨s, []⟩, Queue.empty⟩

variable (env) in
/-- One step of the whole system. -/
def intakeExec : TransactionQueue → TransactionTraffic → Option TransactionQueue :=
  (transactionsConsumer env).exec (applicationStep env)

/-! ### The table only grows -/

theorem continues_intakeStep {b b' : Backend} {message : TransactionMessage} {t t' : Intake}
    {label : IntakeStep} (h : intakeStep env b message t label = some (b', t')) :
    Table.Continues Transaction.fixed b.state.db.transactions b'.state.db.transactions := by
  cases intakeStep_move h with
  | rejected id hnot => exact Table.Continues.refl _ _
  | created id tx htx hfresh =>
      exact Table.continues_put_new ((createdRow_ok htx).fresh hfresh)
  | evaluated id now => exact Table.Continues.refl _ _

theorem continues_applicationStep {b b' : Backend} {op : Op}
    (h : applicationStep env b op = some b') :
    Table.Continues Transaction.fixed b.state.db.transactions b'.state.db.transactions := by
  cases h
  exact continues_writeExec (db_step env b.state op).symm

/-! ### Alert events refer to stored transactions -/

theorem refersTo_alertEvents {table : Table Transaction} {s : State} {organizationId id : String}
    {dto : CreateTransactionDto} {now : Int}
    (hstored : StoredAs table ⟨organizationId, dto⟩ id) {message : AlertEventMessage}
    (hmessage : message ∈ alertEvents env s organizationId dto id now) :
    RefersTo table message := by
  obtain ⟨tx, htx, created, hcreated, hfixed⟩ := hstored
  have hrow := createdRow_ok hcreated
  have hid' : tx.fixed.id = created.fixed.id := congrArg Transaction.id hfixed
  have horg' : tx.fixed.idOrganization = created.fixed.idOrganization :=
    congrArg Transaction.idOrganization hfixed
  have haccount' : tx.fixed.idAccount = created.fixed.idAccount :=
    congrArg Transaction.idAccount hfixed
  have hdatetime' : tx.fixed.datetime = created.fixed.datetime :=
    congrArg Transaction.datetime hfixed
  unfold alertEvents at hmessage
  split at hmessage
  · rename_i messages hpublish
    obtain ⟨event, -, halert⟩ := mem_publishAlertEvents hpublish hmessage
    unfold alertMessage at halert
    split at halert
    · cases halert
    · cases halert
      exact ⟨tx, htx, hid'.trans hrow.id, horg'.trans hrow.organization,
        congrArg some (haccount'.trans hrow.account).symm, (hdatetime'.trans hrow.datetime).symm⟩
  · exact absurd hmessage List.not_mem_nil

/-! ### Invariants -/

/-- The generated id is not in use. -/
def FreshRow (b : Backend) (_ : TransactionMessage) (_ : Intake) : IntakeStep → Prop
  | .create id => ¬ b.state.db.transactions.Taken id
  | .evaluate _ => True

instance (b : Backend) (message : TransactionMessage) (t : Intake) :
    (label : IntakeStep) → Decidable (FreshRow b message t label)
  | .create id => inferInstanceAs (Decidable (¬ b.state.db.transactions.Taken id))
  | .evaluate _ => isTrue trivial

/-- Every emitted event refers to a stored transaction. -/
def EmittedSound (b : Backend) : Prop :=
  ∀ message ∈ b.emitted, RefersTo b.state.db.transactions message

/-- A stored attempt has its row. -/
def RowSound (b : Backend) (message : TransactionMessage) (t : Intake) : Prop :=
  ∀ id, t.rowId = some id → StoredAs b.state.db.transactions message id

/-- Under new ids, an attempt settles without a row only if the message has none. -/
def SettledSound (message : TransactionMessage) (t : Intake) : Prop :=
  t = .settled none → message.storable = false

omit [NumberText] [DriverText] [NumberParsing] in
theorem RowSound.continues {b b' : Backend} {message : TransactionMessage} {t : Intake}
    (h : RowSound b message t)
    (htable : Table.Continues Transaction.fixed b.state.db.transactions b'.state.db.transactions) :
    RowSound b' message t :=
  fun id hid => (h id hid).continues htable

/-- The row of an attempt, in every run. -/
theorem transactionsConsumer_rows : (transactionsConsumer env).TaskInvariant (applicationStep env)
    (fun _ _ _ _ => True) (fun _ _ => True) (fun _ => True) RowSound where
  start := fun _ _ _ hid => by cases hid
  work := by
    intro b message t label b' t' _ hrow _ hwork
    have hcontinues := continues_intakeStep hwork
    refine ⟨trivial, ?_, fun _ _ h => h.continues hcontinues⟩
    cases intakeStep_move hwork with
    | rejected id hnot => exact fun id hid => by cases hid
    | created id tx htx hfresh =>
        intro id' hid
        cases hid
        exact ⟨tx, Table.mem_put_self _ _, tx, htx, rfl⟩
    | evaluated id now => exact hrow
  outside := fun _ _ h => ⟨trivial, fun _ _ hrow => hrow.continues (continues_applicationStep h)⟩

/-- How an attempt ends, in a run with new ids. -/
theorem transactionsConsumer_settled :
    (transactionsConsumer env).TaskInvariant (applicationStep env) FreshRow (fun _ _ => True)
      (fun _ => True) (fun _ message t => SettledSound message t) where
  start := fun _ _ h => by cases h
  work := by
    intro b message t label b' t' _ hsettled hfresh hwork
    refine ⟨trivial, ?_, fun _ _ h => h⟩
    cases intakeStep_move hwork with
    | rejected id hnot =>
        intro _
        exact Bool.eq_false_of_not_eq_true fun hstorable => hnot ⟨hstorable, hfresh⟩
    | created id tx htx hfresh => exact fun h => by cases h
    | evaluated id now => exact fun h => by cases h
  outside := fun _ _ _ => ⟨trivial, fun _ _ h => h⟩

/-- The receipts are rows, no two of them the same. -/
structure ReceiptsSound (s : TransactionQueue) : Prop where
  rows : ∀ receipt ∈ s.queue.receipts,
    StoredAs s.shared.state.db.transactions receipt.1.message receipt.2
  distinct : (s.queue.receipts.map Prod.snd).Nodup

theorem receiptsSound_step {s t : TransactionQueue} {label : TransactionTraffic}
    (hs : ReceiptsSound s) (h : intakeExec env s label = some t) : ReceiptsSound t := by
  obtain ⟨hrows, hdistinct⟩ := hs
  cases Worker.exec_move h with
  | published messages => exact ⟨hrows, hdistinct⟩
  | delivered position d hd => exact ⟨hrows, hdistinct⟩
  | acknowledged slot d t hslot hfinished => exact ⟨hrows, hdistinct⟩
  | givenBack slot d t hslot => exact ⟨hrows, hdistinct⟩
  | elsewhere op b hb =>
      exact ⟨fun receipt hreceipt =>
        (hrows receipt hreceipt).continues (continues_applicationStep hb), hdistinct⟩
  | worked slot label d before after b hslot hwork =>
      have hcontinues := continues_intakeStep hwork
      cases intakeStep_move hwork with
      | rejected id hnot =>
          have hnone : (transactionsConsumer env).newReceipt d .received (.settled none) = none :=
            rfl
          rw [hnone, Option.toList_none, List.append_nil]
          exact ⟨hrows, hdistinct⟩
      | evaluated id now =>
          have hnone : (transactionsConsumer env).newReceipt d (.stored id) (.settled (some id)) =
            none := rfl
          rw [hnone, Option.toList_none, List.append_nil]
          exact ⟨hrows, hdistinct⟩
      | created id tx htx hfresh =>
          have hsome : (transactionsConsumer env).newReceipt d .received (.stored id) =
            some (d, id) := rfl
          rw [hsome, Option.toList_some]
          refine ⟨?_, ?_⟩
          · intro receipt hreceipt
            rcases List.mem_append.mp hreceipt with hold | hnew
            · exact (hrows receipt hold).continues hcontinues
            · rw [List.mem_singleton.mp hnew]
              exact ⟨tx, Table.mem_put_self _ _, tx, htx, rfl⟩
          · rw [List.map_append, List.map_singleton, List.nodup_append]
            refine ⟨hdistinct, List.nodup_singleton id, ?_⟩
            intro old hold new hnew heq
            obtain ⟨receipt, hreceipt, rfl⟩ := List.mem_map.mp hold
            have hid : receipt.2 = id := heq.trans (List.mem_singleton.mp hnew)
            exact hfresh (hid ▸ (hrows receipt hreceipt).taken)

theorem emittedSound_step {s t : TransactionQueue} {label : TransactionTraffic}
    (hrows : Worker.Sound (fun _ => True) RowSound s) (hs : EmittedSound s.shared)
    (h : intakeExec env s label = some t) : EmittedSound t.shared := by
  cases Worker.exec_move h with
  | published messages => exact hs
  | delivered position d hd => exact hs
  | acknowledged slot d t hslot hfinished => exact hs
  | givenBack slot d t hslot => exact hs
  | worked slot label d before after b hslot hwork =>
      have hcontinues := continues_intakeStep hwork
      cases intakeStep_move hwork with
      | rejected id hnot => exact hs
      | created id tx htx hfresh =>
          exact fun message hmessage => (hs message hmessage).continues hcontinues
      | evaluated id now =>
          have hstored := hrows.2 _ (List.mem_append_left _ (List.mem_of_getElem? hslot)) id rfl
          intro message hmessage
          rcases List.mem_append.mp hmessage with hold | hnew
          · exact hs message hold
          · exact refersTo_alertEvents hstored hnew
  | elsewhere op b hb =>
      have hcontinues := continues_applicationStep hb
      cases hb
      intro message hmessage
      rcases List.mem_append.mp hmessage with hold | hnew
      · exact (hs message hold).continues hcontinues
      · cases op with
        | createAndEvaluate organizationId dto id now =>
            simp only [emittedBy] at hnew
            cases hcreate : create organizationId dto id s.shared.state.db with
            | error e =>
                rw [hcreate] at hnew
                exact absurd hnew List.not_mem_nil
            | ok db =>
                rw [hcreate] at hnew
                obtain ⟨tx, htx, hfresh, rfl⟩ := create_ok_iff.mp hcreate
                have htable : (step env s.shared.state
                    (.createAndEvaluate organizationId dto id now)).1.db.transactions =
                    s.shared.state.db.transactions.put tx := by
                  simp only [step, hcreate]
                  rfl
                rw [htable]
                exact refersTo_alertEvents ⟨tx, Table.mem_put_self _ _, tx, htx, rfl⟩ hnew
        | ruleWrite organizationId write => exact absurd hnew List.not_mem_nil
        | plainWrite organizationId write => exact absurd hnew List.not_mem_nil
        | templateWrite write => exact absurd hnew List.not_mem_nil
        | evaluate organizationId context now => exact absurd hnew List.not_mem_nil
        | evaluateRule organizationId ruleId context now => exact absurd hnew List.not_mem_nil
        | getEffectiveConfig organizationId ruleId => exact absurd hnew List.not_mem_nil
        | isInList organizationId listType entityType entityValue now =>
            exact absurd hnew List.not_mem_nil

/-! ### Runs -/

section Runs

variable {start : State} {labels : List TransactionTraffic} {s : TransactionQueue}

theorem rows_run (hrun : runFrom (intakeExec env) (TransactionQueue.start start) labels = some s) :
    Worker.Sound (fun _ => True) RowSound s ∧ EmittedSound s.shared ∧ ReceiptsSound s := by
  have hstart : Worker.Sound (fun _ => True) RowSound (TransactionQueue.start start) :=
    Worker.sound_empty trivial
  have hemitted : EmittedSound (TransactionQueue.start start).shared :=
    fun _ h => absurd h List.not_mem_nil
  have hreceipts : ReceiptsSound (TransactionQueue.start start) :=
    ⟨fun _ h => absurd h List.not_mem_nil, List.nodup_nil⟩
  refine runFrom_invariant
    (I := fun s =>
      Worker.Sound (fun _ => True) RowSound s ∧ EmittedSound s.shared ∧ ReceiptsSound s)
    ?_ ⟨hstart, hemitted, hreceipts⟩ hrun
  rintro s label t ⟨hrows, hemitted, hreceipts⟩ h
  refine ⟨Worker.sound_step transactionsConsumer_rows hrows ?_ h,
    emittedSound_step hrows hemitted h, receiptsSound_step hreceipts h⟩
  exact Worker.guard_true s label

/-- **Alert events refer to stored transactions.**  Whatever consumers die and
    whatever operations of the application fall between their steps, each alert
    event emitted so far is about a transaction in the table, of the
    organization of the event and with its account and its time. -/
theorem alerts_reference_transactions
    (hrun : runFrom (intakeExec env) (TransactionQueue.start start) labels = some s) :
    ∀ message ∈ s.shared.emitted, ∃ tx ∈ s.shared.state.db.transactions.rows,
      tx.id = message.transactionId ∧ tx.idOrganization = pgUuid message.organizationId ∧
        message.accountId = some tx.idAccount ∧ message.transactionDatetime = tx.datetime :=
  (rows_run hrun).2.1

omit [NumberText] [DriverText] [NumberParsing] in
/-- A finished attempt has a row exactly when its message can be stored. -/
theorem isSome_rowId {message : TransactionMessage} {t : Intake} {b : Backend}
    (hrow : RowSound b message t) (hsettled : SettledSound message t)
    (hfinished : t.finished = true) :
    t.rowId.isSome = message.storable := by
  cases t with
  | received => cases hfinished
  | stored id => cases hfinished
  | settled rowId =>
      cases rowId with
      | none => exact (hsettled rfl).symm
      | some id =>
          obtain ⟨-, -, created, hcreated, -⟩ := hrow id rfl
          exact ((storable_iff _ _ id).mpr ⟨created, hcreated⟩).symm

/-- **Exactly once, and once more for each late redelivery.**  In a run in which
    generated ids are new, once the queue is drained: the rows the consumers
    have stored belong to the messages that can be stored, one row for each, and
    to the deliveries that were repeated after their row was stored; no two of
    these rows are the same, and each of them is in the table with the values of
    its message. -/
theorem drained_transactions
    (hfresh : EveryStep (intakeExec env) (Worker.Guard FreshRow fun _ _ => True)
      (TransactionQueue.start start) labels)
    (hrun : runFrom (intakeExec env) (TransactionQueue.start start) labels = some s)
    (hdrained : Worker.Drained s) :
    (s.queue.receipts.map Prod.fst).Perm (s.queue.repeated.map Prod.fst ++
        (envelopesFrom 0 s.queue.published).filter fun d => d.message.storable) ∧
      (s.queue.receipts.map Prod.snd).Nodup ∧
      ∀ receipt ∈ s.queue.receipts,
        StoredAs s.shared.state.db.transactions receipt.1.message receipt.2 := by
  obtain ⟨hrows, -, hreceipts⟩ := rows_run hrun
  have hsettled := Worker.sound_run transactionsConsumer_settled (Worker.sound_empty trivial) hfresh
    hrun
  have hfinished := Worker.ackedFinished_run (fun _ h => absurd h List.not_mem_nil) hrun
  refine ⟨?_, hreceipts.distinct, hreceipts.rows⟩
  have hacked : (s.queue.acked.filterMap (transactionsConsumer env).receiptOf).map Prod.fst =
      (s.queue.acked.map Prod.fst).filter fun d => d.message.storable := by
    refine Worker.map_fst_receipts fun attempt hattempt => ?_
    have hknown := List.mem_append_right s.queue.held hattempt
    exact isSome_rowId (hrows.2 attempt hknown) (hsettled.2 attempt hknown)
      (hfinished attempt hattempt)
  have hperm := (Worker.receipts_of_drained
    (Worker.receipted_run (Worker.receipted_empty _) hrun) hdrained).map Prod.fst
  rw [List.map_append, hacked] at hperm
  refine hperm.trans (List.Perm.append_left _ ?_)
  exact (Worker.acked_of_drained (Worker.accounted_run (Worker.accounted_empty _) hrun)
    hdrained).filter _

end Runs

end Consumers

/-! ### A redelivery after the row was stored -/

attribute [local instance] NumberText.integers DriverText.stringsOnly NumberParsing.never

/-- A rule for amounts over 50 is stored.  Of two messages one has no organization, and
    the consumer of the other dies between storing the transaction and evaluating
    it. -/
def storedTwice : List TransactionTraffic :=
  [.outside (.ruleWrite sampleUuid (.createRule overFiftyRule sampleRule 0)),
    .publish [⟨sampleUuid, sampleDto⟩, ⟨"", sampleDto⟩],
    .deliver 1, .work 0 (.create "c"), .ack 0,
    .deliver 0, .work 0 (.create "a"), .giveBack 0,
    .deliver 0, .work 0 (.create "b"), .work 0 (.evaluate 1), .ack 0]

/-- One transaction is evaluated, and the rule fires on it. -/
theorem run_storedTwice :
    ∃ s, runFrom (intakeExec sampleEnvironment) (TransactionQueue.start State.initial) storedTwice =
        some s ∧ Worker.Drained s ∧ s.queue.receipts.map Prod.snd = ["a", "b"] ∧
      s.shared.emitted.map AlertEventMessage.transactionId = ["b"] := by
  have hfinal : (runFrom (intakeExec sampleEnvironment) (TransactionQueue.start State.initial)
      storedTwice).map (fun s => (s.queue.ready.length, s.queue.held.length,
        s.queue.receipts.map Prod.snd, s.shared.emitted.map AlertEventMessage.transactionId)) =
      some (0, 0, ["a", "b"], ["b"]) := by
    decide +kernel
  obtain ⟨s, hrun, hvalues⟩ := Option.map_eq_some_iff.mp hfinal
  simp only [Prod.mk.injEq] at hvalues
  obtain ⟨hready, hheld, hrows, hemitted⟩ := hvalues
  exact ⟨s, hrun, ⟨List.eq_nil_of_length_eq_zero hready, List.eq_nil_of_length_eq_zero hheld⟩,
    hrows, hemitted⟩

theorem alerts_reference_transactions_sample :
    ∃ s, runFrom (intakeExec sampleEnvironment) (TransactionQueue.start State.initial) storedTwice =
        some s ∧ s.shared.emitted.map AlertEventMessage.transactionId = ["b"] ∧
      ∀ message ∈ s.shared.emitted, ∃ tx ∈ s.shared.state.db.transactions.rows,
        tx.id = message.transactionId ∧ tx.idOrganization = pgUuid message.organizationId ∧
          message.accountId = some tx.idAccount ∧ message.transactionDatetime = tx.datetime := by
  obtain ⟨s, hrun, -, -, hemitted⟩ := run_storedTwice
  exact ⟨s, hrun, hemitted, alerts_reference_transactions hrun⟩

/-- One message that can be stored, two rows. -/
theorem drained_transactions_sample :
    ∃ s, runFrom (intakeExec sampleEnvironment) (TransactionQueue.start State.initial) storedTwice =
        some s ∧ s.queue.receipts.map Prod.snd = ["a", "b"] ∧
      (s.queue.receipts.map Prod.fst).Perm (s.queue.repeated.map Prod.fst ++
        (envelopesFrom 0 s.queue.published).filter fun d => d.message.storable) := by
  obtain ⟨s, hrun, hdrained, hrows, -⟩ := run_storedTwice
  exact ⟨s, hrun, hrows, (drained_transactions (by decide +kernel) hrun hdrained).1⟩

end RulesEngine.Transactions
