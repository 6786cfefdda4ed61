import RulesEngine.HistoryLedger
import RulesEngine.ListLedger

/-!
# The ledger of transactions

`HistoryLedger` reads the history off the calls of `TransactionsService`.  In a
run of the whole application these calls are some of the operations that went
through, and the amounts are those the columns hold, rounded to four decimals.
The `transactions` table keeps that ledger (`stores_run`).
-/

namespace RulesEngine

open RulesEngine.Foundations
open RulesEngine.Rules
open RulesEngine.Lists
open RulesEngine.Engine
open RulesEngine.Transactions

/-! ### The calls of a run -/

/-- The call of `TransactionsService` that an operation is. -/
def Op.ledgerCall : Op → Option LedgerCall
  | .plainWrite organizationId (.createTransaction dto id) => some (.create organizationId dto id)
  | .plainWrite organizationId (.updateTransaction id dto) => some (.update organizationId id dto)
  | .createAndEvaluate organizationId dto id now =>
      some (.createAndEvaluate organizationId dto id now)
  | _ => none

/-- The transactions that operations leave which all went through. -/
def ledgerOf (accepted : List Op) : List LedgerEntry :=
  ledger (accepted.filterMap Op.ledgerCall)

theorem ledgerOf_append_none {accepted : List Op} {op : Op} (h : op.ledgerCall = none) :
    ledgerOf (accepted ++ [op]) = ledgerOf accepted := by
  simp only [ledgerOf, List.filterMap_append, List.filterMap_cons, h, List.filterMap_nil,
    List.append_nil]

theorem ledgerOf_append_some {accepted : List Op} {op : Op} {call : LedgerCall}
    (h : op.ledgerCall = some call) :
    ledgerOf (accepted ++ [op]) =
      (ledgerOf accepted).map (fun entry => entry.after call) ++ call.entry.toList := by
  simp only [ledgerOf, List.filterMap_append, List.filterMap_cons, h, List.filterMap_nil]
  exact ledger_append _ _

/-! ### Stored entries -/

/-- A row that stores an entry: it records all but the amounts, which are what
    their columns make of the amounts that came in. -/
structure Stores (tx : Transaction) (entry : LedgerEntry) : Prop where
  records : Records { tx with amount := entry.dto.amount
                              amountNormalized := entry.dto.amountNormalized } entry
  amount : numeric184 entry.dto.amount = .ok tx.amount
  amountNormalized : numeric184 entry.dto.amountNormalized = .ok tx.amountNormalized

theorem create_stores {organizationId id : String} {dto : CreateTransactionDto}
    {db db' : Database} (h : create organizationId dto id db = .ok db') :
    ∃ tx, db'.transactions.rows = db.transactions.rows ++ [tx] ∧
      Stores tx ⟨id, organizationId, dto, dto.isVoided.getD false⟩ := by
  obtain ⟨tx, htx, hfresh, rfl⟩ := create_ok_iff.mp h
  have hrow := createdRow_ok htx
  exact ⟨tx, putRow_of_fresh (hrow.fresh hfresh), ⟨hrow.id, hrow.organization, hrow.account,
    hrow.type, rfl, rfl, hrow.datetime, hrow.deleted, hrow.voided⟩, hrow.amount,
    hrow.amountNormalized⟩

/-- An update leaves an entry its request. -/
theorem after_dto (entry : LedgerEntry) (call : LedgerCall) :
    (entry.after call).dto = entry.dto := by
  unfold LedgerEntry.after
  split
  · split <;> rfl
  · rfl

theorem Stores.patched {organizationId id : String} {dto : UpdateTransactionDto}
    {tx : Transaction} {entry : LedgerEntry} (h : Stores tx entry) :
    Stores (if tx.id = pgUuid id then patched dto tx else tx)
      (entry.after (.update organizationId id dto)) := by
  obtain ⟨hrecords, hamount, hnormalized⟩ := h
  have hdto := after_dto entry (.update organizationId id dto)
  have hpatched : Records _ (entry.after (.update organizationId id dto)) :=
    patched_records hrecords
  by_cases hid : tx.id = pgUuid id
  · rw [if_pos hid] at hpatched ⊢
    exact ⟨hdto ▸ hpatched, hdto ▸ hamount, hdto ▸ hnormalized⟩
  · rw [if_neg hid] at hpatched ⊢
    exact ⟨hdto ▸ hpatched, hdto ▸ hamount, hdto ▸ hnormalized⟩

theorem stores_created {organizationId id : String} {dto : CreateTransactionDto}
    {db db' : Database} {entries : List LedgerEntry} {call : LedgerCall}
    (hrows : List.Forall₂ Stores db.transactions.rows entries)
    (hcall : call.entry = some ⟨id, organizationId, dto, dto.isVoided.getD false⟩)
    (h : create organizationId dto id db = .ok db') :
    List.Forall₂ Stores db'.transactions.rows
      (entries.map (fun entry => entry.after call) ++ call.entry.toList) := by
  obtain ⟨tx, htable, hstores⟩ := create_stores h
  simp only [htable, hcall, after_of_entry hcall, List.map_id', Option.toList_some]
  exact List.rel_append hrows (List.Forall₂.cons hstores List.Forall₂.nil)

/-! ### The table keeps the ledger -/

section Runs

variable {db db' : Database}

/-- The writes that are no call leave the table alone. -/
theorem transactions_eq_of_no_call {op : Op} (hcall : op.ledgerCall = none)
    (h : op.write db = .ok db') : db'.transactions = db.transactions := by
  cases op with
  | ruleWrite organizationId write => exact (RuleWrite.keeps_plain h).2
  | templateWrite write => exact (TemplateWrite.keeps_plain h).2
  | plainWrite organizationId write =>
      cases write with
      | createListEntry dto id => rw [createListEntry_withLists h, Database.withLists]
      | removeListEntry id => rw [removeListEntry_withLists h, Database.withLists]
      | createTransaction dto id => cases hcall
      | updateTransaction id dto => cases hcall
  | createAndEvaluate organizationId dto id now => cases hcall
  | evaluate | evaluateRule | getEffectiveConfig | isInList => exact Except.ok.inj h ▸ rfl

/-- **Step.**  A write that goes through keeps the table in step with the ledger. -/
theorem stores_write {accepted : List Op} {op : Op}
    (hrows : List.Forall₂ Stores db.transactions.rows (ledgerOf accepted))
    (h : op.write db = .ok db') :
    List.Forall₂ Stores db'.transactions.rows (ledgerOf (accepted ++ [op])) := by
  cases hcall : op.ledgerCall with
  | none =>
      rw [ledgerOf_append_none hcall, transactions_eq_of_no_call hcall h]
      exact hrows
  | some call =>
      rw [ledgerOf_append_some hcall]
      cases op with
      | plainWrite organizationId write =>
          cases write with
          | createListEntry dto id => cases hcall
          | removeListEntry id => cases hcall
          | createTransaction dto id =>
              cases hcall
              exact stores_created hrows rfl h
          | updateTransaction id dto =>
              cases hcall
              simp only [LedgerCall.entry, Option.toList_none, List.append_nil, update_rows h,
                List.forall₂_map_left_iff, List.forall₂_map_right_iff]
              exact hrows.imp fun _ _ hstores => hstores.patched
      | createAndEvaluate organizationId dto id now =>
          cases hcall
          exact stores_created hrows rfl h
      | ruleWrite organizationId write => cases hcall
      | templateWrite write => cases hcall
      | evaluate | evaluateRule | getEffectiveConfig | isInList => cases hcall

variable [NumberText] [DriverText] [NumberParsing] {env : Environment} {start final : State}
  {ops : List Op}

/-- **The table keeps the ledger** of the calls of a run that went through, whatever
    else the run does. -/
theorem stores_run (hstart : start.db.transactions = Table.empty)
    (hrun : runFrom (execOp env) start ops = some final) :
    List.Forall₂ Stores final.db.transactions.rows (ledgerOf (acceptedOps start.db ops)) := by
  have hdb : runFrom writeExec start.db ops = some final.db := by
    rw [← runFrom_db env start ops, hrun]
    rfl
  refine runFrom_history
    (H := fun ops db => List.Forall₂ Stores db.transactions.rows
      (ledgerOf (acceptedOps start.db ops))) ?_ ?_ hdb
  · rw [hstart]
    exact List.Forall₂.nil
  · intro ops op db db' hops ih hop
    have htrace : acceptedOps start.db (ops ++ [op]) =
        acceptedOps start.db ops ++ op.accepted db := traceOf_append_singleton hops hop
    rw [htrace]
    unfold writeExec at hop
    split at hop
    · rename_i next hwrite
      obtain rfl := Option.some.inj hop
      simp only [Op.accepted, hwrite]
      exact stores_write ih hwrite
    · rename_i e hwrite
      obtain rfl := Option.some.inj hop
      simp only [Op.accepted, hwrite, List.append_nil]
      exact ih

end Runs

/-! ### Histories -/

/-- The amount a query reads of an entry: the one that came in, as its column holds
    it. -/
def LedgerEntry.storedAmount (query : HistoryQuery) (entry : LedgerEntry) : ℚ :=
  (numeric184 (entry.amount query)).toOption.getD 0

/-- The stored amounts of the entries a query is about. -/
def storedAmounts (query : HistoryQuery) (organizationId account : String) (start : Int)
    (entries : List LedgerEntry) : List ℚ :=
  (entries.filter fun entry => entry.CountedBy query organizationId account start).map
    (LedgerEntry.storedAmount query)

/-- The history of a query is the history in the ledger. -/
theorem history_storedAmounts {transactions : Table Transaction} {entries : List LedgerEntry}
    (h : List.Forall₂ Stores transactions.rows entries) (query : HistoryQuery)
    (organizationId account : String) (start : Int) :
    (query.history transactions organizationId account start).map query.column =
      storedAmounts query organizationId account start entries := by
  apply map_filter_of_forall₂ _ _ h
  · intro tx entry hstores
    obtain ⟨-, horganization, haccount, htype, -, -, hdatetime, hdeleted, hvoided⟩ :=
      hstores.records
    dsimp only at horganization haccount htype hdatetime hdeleted hvoided
    rw [decide_eq_decide, horganization, haccount, htype, hdatetime, hdeleted, hvoided]
    unfold LedgerEntry.CountedBy
    tauto
  · intro tx entry hstores
    unfold HistoryQuery.column LedgerEntry.storedAmount LedgerEntry.amount
    split
    · rw [hstores.amount]
      rfl
    · rw [hstores.amountNormalized]
      rfl

end RulesEngine
