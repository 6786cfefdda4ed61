import RulesEngine.Application
import RulesEngine.TransactionHistory
import RulesEngine.TenantViews
import RulesEngine.Foundations.PairedLists
import RulesEngine.Foundations.TransitionSystem

/-!
# History facts and the ledger

`ledger` reads a transaction's history off the calls that succeeded: a `create`
or a `createAndEvaluate` enters a transaction, and the latest `update` that says
something about `isVoided` decides whether it counts.  The `transactions` table
is kept in step with it (`records_run`), so a history fact is an aggregate over
the ledger (`history_equals_ledger_iff`), and during `createAndEvaluate` over
the ledger with the transaction being evaluated at its end.
-/

namespace RulesEngine

open RulesEngine.Foundations
open RulesEngine.Lists
open RulesEngine.Engine
open RulesEngine.Transactions

/-! ### Calls -/

/-- The calls of `TransactionsService` that write. -/
inductive LedgerCall where
  | create (organizationId : String) (dto : CreateTransactionDto) (id : String)
  | createAndEvaluate (organizationId : String) (dto : CreateTransactionDto) (id : String)
      (now : Int)
  | update (organizationId id : String) (dto : UpdateTransactionDto)

namespace LedgerCall

def toOp : LedgerCall → Op
  | create organizationId dto id => .plainWrite organizationId (.createTransaction dto id)
  | createAndEvaluate organizationId dto id now => .createAndEvaluate organizationId dto id now
  | update organizationId id dto => .plainWrite organizationId (.updateTransaction id dto)

/-- The amounts a call stores have at most four decimals. -/
def InDecimals : LedgerCall → Prop
  | create _ dto _ => FourDecimals dto.amount ∧ FourDecimals dto.amountNormalized
  | createAndEvaluate _ dto _ _ => FourDecimals dto.amount ∧ FourDecimals dto.amountNormalized
  | update _ _ _ => True

end LedgerCall

/-! ### The ledger -/

/-- A transaction of the ledger: the request that created it and its current
    voided flag. -/
structure LedgerEntry where
  id : String
  organizationId : String
  dto : CreateTransactionDto
  voided : Bool

/-- The transaction a call enters. -/
def LedgerCall.entry : LedgerCall → Option LedgerEntry
  | create organizationId dto id => some ⟨id, organizationId, dto, dto.isVoided.getD false⟩
  | createAndEvaluate organizationId dto id _ =>
      some ⟨id, organizationId, dto, dto.isVoided.getD false⟩
  | update _ _ _ => none

/-- What a later call makes of an entry: an update of its transaction sets the
    flag if it names it. -/
def LedgerEntry.after (entry : LedgerEntry) : LedgerCall → LedgerEntry
  | .update _ id dto =>
      if pgUuid id = entry.id then { entry with voided := dto.isVoided.getD entry.voided }
      else entry
  | _ => entry

/-- The transactions some successful calls created, in order, each as the calls
    after it leave it. -/
def ledger : List LedgerCall → List LedgerEntry
  | [] => []
  | call :: calls =>
      (call.entry.map fun entry => calls.foldl LedgerEntry.after entry).toList ++ ledger calls

theorem ledger_append (calls : List LedgerCall) (call : LedgerCall) :
    ledger (calls ++ [call]) =
      (ledger calls).map (fun entry => entry.after call) ++ call.entry.toList := by
  induction calls with
  | nil => cases hentry : call.entry <;> simp [ledger, hentry]
  | cons first rest ih =>
      rw [List.cons_append, ledger, ledger, ih]
      cases hentry : first.entry <;> simp

/-! ### The table keeps the ledger -/

/-- A row that records an entry. -/
structure Records (tx : Transaction) (entry : LedgerEntry) : Prop where
  id : tx.id = entry.id
  organization : tx.idOrganization = pgUuid entry.organizationId
  account : tx.idAccount = entry.dto.idAccount
  type : tx.type = entry.dto.type
  amount : tx.amount = entry.dto.amount
  amountNormalized : tx.amountNormalized = entry.dto.amountNormalized
  datetime : tx.datetime = entry.dto.datetime
  deleted : tx.isDeleted = entry.dto.isDeleted.getD false
  voided : tx.isVoided = entry.voided

theorem create_records {organizationId id : String} {dto : CreateTransactionDto}
    {db db' : Database} (h : create organizationId dto id db = .ok db')
    (hdecimals : FourDecimals dto.amount ∧ FourDecimals dto.amountNormalized) :
    ∃ tx, db'.transactions.rows = db.transactions.rows ++ [tx] ∧
      Records tx ⟨id, organizationId, dto, dto.isVoided.getD false⟩ := by
  obtain ⟨tx, htx, hfresh, rfl⟩ := create_ok_iff.mp h
  have hrow := createdRow_ok htx
  refine ⟨tx, putRow_of_fresh (hrow.fresh hfresh), ?_⟩
  exact {
    id := hrow.id
    organization := hrow.organization
    account := hrow.account
    type := hrow.type
    amount := (numeric184_ok hrow.amount).2.mpr hdecimals.1
    amountNormalized := (numeric184_ok hrow.amountNormalized).2.mpr hdecimals.2
    datetime := hrow.datetime
    deleted := hrow.deleted
    voided := hrow.voided }

/-- The columns an accepted update leaves in a row. -/
def patched (dto : UpdateTransactionDto) (tx : Transaction) : Transaction :=
  { tx with isBlocked := dto.isBlocked.getD tx.isBlocked
            isVoided := dto.isVoided.getD tx.isVoided }

theorem update_rows {organizationId id : String} {dto : UpdateTransactionDto} {db db' : Database}
    (h : update organizationId id dto db = .ok db') :
    db'.transactions.rows = db.transactions.rows.map fun tx =>
      if tx.id = pgUuid id then patched dto tx else tx := by
  obtain ⟨tx, hfound, h⟩ := bind_eq_ok.mp h
  obtain ⟨isBlocked, hblocked, h⟩ := bind_eq_ok.mp h
  obtain ⟨isVoided, hvoided, h⟩ := bind_eq_ok.mp h
  obtain ⟨hmem, hkey, -⟩ := findOneOf_ok hfound
  cases h
  rw [notNull_ok hblocked, notNull_ok hvoided, ← hkey]
  exact putRow_eq_map (f := patched dto) (fun _ => rfl) db.transactions.unique hmem

theorem patched_records {organizationId id : String} {dto : UpdateTransactionDto}
    {tx : Transaction} {entry : LedgerEntry} (h : Records tx entry) :
    Records (if tx.id = pgUuid id then patched dto tx else tx)
      (entry.after (.update organizationId id dto)) := by
  by_cases hid : tx.id = pgUuid id
  · have hentry : pgUuid id = entry.id := hid.symm.trans h.id
    simp only [LedgerEntry.after, if_pos hid, if_pos hentry]
    exact { h with voided := congrArg dto.isVoided.getD h.voided }
  · have hentry : pgUuid id ≠ entry.id := fun heq => hid (h.id.trans heq.symm)
    simpa only [LedgerEntry.after, if_neg hid, if_neg hentry] using h

/-- A call that enters a transaction leaves the other entries alone. -/
theorem after_of_entry {call : LedgerCall} {new : LedgerEntry} (h : call.entry = some new)
    (entry : LedgerEntry) : entry.after call = entry := by
  cases call with
  | create organizationId dto id => rfl
  | createAndEvaluate organizationId dto id now => rfl
  | update organizationId id dto => cases h

theorem records_created {organizationId id : String} {dto : CreateTransactionDto}
    {db db' : Database} {entries : List LedgerEntry} {call : LedgerCall}
    (hrows : List.Forall₂ Records db.transactions.rows entries)
    (hcall : call.entry = some ⟨id, organizationId, dto, dto.isVoided.getD false⟩)
    (hdecimals : FourDecimals dto.amount ∧ FourDecimals dto.amountNormalized)
    (h : create organizationId dto id db = .ok db') :
    List.Forall₂ Records db'.transactions.rows
      (entries.map (fun entry => entry.after call) ++ call.entry.toList) := by
  obtain ⟨tx, htable, hrecords⟩ := create_records h hdecimals
  simp only [htable, hcall, after_of_entry hcall, List.map_id', Option.toList_some]
  exact List.rel_append hrows (List.Forall₂.cons hrecords List.Forall₂.nil)

section Runs

variable [NumberText] [DriverText] [NumberParsing] (env : Environment)

/-- The calls of a run that did not fail. -/
def succeeded : State → List LedgerCall → List LedgerCall
  | _, [] => []
  | s, call :: calls =>
      match step env s call.toOp with
      | (t, .failed _) => succeeded t calls
      | (t, _) => call :: succeeded t calls

variable {env} {s : State} {entries : List LedgerEntry}

/-- A call fails and changes nothing, or the table goes on recording the
    ledger. -/
theorem records_step (hs : List.Forall₂ Records s.db.transactions.rows entries)
    {call : LedgerCall} (hdecimals : call.InDecimals) :
    (∃ e, step env s call.toOp = (s, .failed e)) ∨
      (∀ e, (step env s call.toOp).2 ≠ .failed e) ∧
        List.Forall₂ Records (step env s call.toOp).1.db.transactions.rows
          (entries.map (fun entry => entry.after call) ++ call.entry.toList) := by
  cases call with
  | create organizationId dto id =>
      simp only [LedgerCall.toOp, step, PlainWrite.run]
      cases hcreate : create organizationId dto id s.db with
      | error e => exact Or.inl ⟨e, rfl⟩
      | ok db =>
          exact Or.inr ⟨fun e => by simp [State.write],
            records_created hs rfl hdecimals hcreate⟩
  | createAndEvaluate organizationId dto id now =>
      simp only [LedgerCall.toOp, step]
      cases hcreate : create organizationId dto id s.db with
      | error e => exact Or.inl ⟨e, rfl⟩
      | ok db =>
          exact Or.inr ⟨fun e => by simp, records_created hs rfl hdecimals hcreate⟩
  | update organizationId id dto =>
      simp only [LedgerCall.toOp, step, PlainWrite.run]
      cases hupdate : update organizationId id dto s.db with
      | error e => exact Or.inl ⟨e, rfl⟩
      | ok db =>
          refine Or.inr ⟨fun e => by simp [State.write], ?_⟩
          simp only [State.write, LedgerCall.entry, Option.toList_none, List.append_nil,
            update_rows hupdate, List.forall₂_map_left_iff, List.forall₂_map_right_iff]
          exact hs.imp fun _ _ h => patched_records h

/-- **The table keeps the ledger.** -/
theorem records_run {calls done : List LedgerCall} {final : State}
    (hs : List.Forall₂ Records s.db.transactions.rows (ledger done))
    (hdecimals : ∀ call ∈ calls, call.InDecimals)
    (hrun : runFrom (execOp env) s (calls.map LedgerCall.toOp) = some final) :
    List.Forall₂ Records final.db.transactions.rows (ledger (done ++ succeeded env s calls)) := by
  induction calls generalizing s done with
  | nil =>
      cases hrun
      simpa only [succeeded, List.append_nil] using hs
  | cons call calls ih =>
      obtain ⟨t, ht, hrest⟩ := runFrom_cons_eq_some.mp hrun
      cases ht
      have htail := fun later hlater => hdecimals later (List.mem_cons_of_mem _ hlater)
      rcases records_step hs (hdecimals call List.mem_cons_self) with
        ⟨e, hfailed⟩ | ⟨hok, hrecords⟩
      · rw [hfailed] at hrest
        simpa only [succeeded, hfailed] using ih hs htail hrest
      · rw [← ledger_append] at hrecords
        have hcalls : succeeded env s (call :: calls) =
            call :: succeeded env (step env s call.toOp).1 calls := by
          rw [succeeded]
          split
          · rename_i t e hstep
            exact absurd (congrArg Prod.snd hstep) (hok e)
          · rename_i t out hstep
            rw [hstep]
        rw [hcalls]
        simpa only [List.append_assoc, List.singleton_append] using ih hrecords htail hrest

end Runs

/-! ### History facts -/

/-- The entry is one the query is about: a transaction of the organization, the
    account and the type asked for, neither voided nor deleted, later than the
    start of the window. -/
def LedgerEntry.CountedBy (query : HistoryQuery) (organizationId account : String) (start : Int)
    (entry : LedgerEntry) : Prop :=
  pgUuid entry.organizationId = pgUuid organizationId ∧ entry.dto.idAccount = account ∧
    Meets query.transactionType entry.dto.type ∧ entry.voided = false ∧
    entry.dto.isDeleted.getD false = false ∧ ∃ datetime ∈ entry.dto.datetime, start < datetime

instance (query : HistoryQuery) (organizationId account : String) (start : Int)
    (entry : LedgerEntry) : Decidable (entry.CountedBy query organizationId account start) :=
  inferInstanceAs (Decidable (_ ∧ _ ∧ _ ∧ _ ∧ _ ∧ ∃ datetime ∈ entry.dto.datetime, _))

/-- The amount the query asks for. -/
def LedgerEntry.amount (query : HistoryQuery) (entry : LedgerEntry) : ℚ :=
  if query.field = some "amount" then entry.dto.amount else entry.dto.amountNormalized

/-- The amounts of the entries the query is about. -/
def countedAmounts (query : HistoryQuery) (organizationId account : String) (start : Int)
    (entries : List LedgerEntry) : List ℚ :=
  (entries.filter fun entry => entry.CountedBy query organizationId account start).map
    (LedgerEntry.amount query)

/-- The answer is the aggregate over the entries the query is about. -/
def AnswersFrom (entries : List LedgerEntry) (query : HistoryQuery)
    (organizationId account : String) (start : Int) (answer : Except Thrown JsValue) : Prop :=
  ∃ result, answer = .ok (.json (.num result)) ∧
    IsAggregate query.aggregation (countedAmounts query organizationId account start entries) result

theorem history_amounts {transactions : Table Transaction} {entries : List LedgerEntry}
    (h : List.Forall₂ Records transactions.rows entries) (query : HistoryQuery)
    (organizationId account : String) (start : Int) :
    (query.history transactions organizationId account start).map query.column =
      countedAmounts query organizationId account start entries := by
  apply map_filter_of_forall₂ _ _ h
  · intro tx entry hrecords
    obtain ⟨hid, horganization, haccount, htype, -, -, hdatetime, hdeleted, hvoided⟩ := hrecords
    rw [decide_eq_decide, horganization, haccount, htype, hdatetime, hdeleted, hvoided]
    unfold LedgerEntry.CountedBy
    constructor
    · rintro ⟨h1, h2, h3, h4, h5, h6⟩
      exact ⟨h1, h2, h6, h4, h5, h3⟩
    · rintro ⟨h1, h2, h3, h4, h5, h6⟩
      exact ⟨h1, h2, h6, h4, h5, h3⟩
  · intro tx entry hrecords
    unfold HistoryQuery.column LedgerEntry.amount
    split
    · exact hrecords.amount
    · exact hrecords.amountNormalized

section Facts

variable [NumberText] [DriverText] [NumberParsing]
variable {query : HistoryQuery} {params : JsonObject} {almanac : Almanac} {account : String}

/-- Over a table that keeps a ledger, a history fact is answered from the ledger
    exactly when the query can be run. -/
theorem answersFrom_iff {transactions : Table Transaction} {entries : List LedgerEntry}
    (hrows : List.Forall₂ Records transactions.rows entries) (hstated : query.StatedBy params)
    (haccount : query.Account almanac account) {days : Int} (hdays : query.timeWindowDays = days)
    (max now : Int) (organizationId : String) :
    AnswersFrom entries query organizationId account (now - min days max * JsDate.msPerDay)
        (transactionHistory max transactions now (.obj params) almanac organizationId) ↔
      query.NamesColumn ∧ JsDate.Valid (some (now - min days max * JsDate.msPerDay)) := by
  have hanswer := transactionHistory_ok_iff hstated haccount max transactions now organizationId
  simp only [HistoryQuery.start_int hdays, history_amounts hrows] at hanswer
  constructor
  · rintro ⟨result, hok, -⟩
    obtain ⟨hcolumn, start, hstart, -⟩ := (hanswer _).mp hok
    refine ⟨hcolumn, _, rfl, ?_⟩
    rw [hstart, JsDate.eq_of_timeClip hstart]
  · rintro ⟨hcolumn, start, hsome, hclip⟩
    cases hsome
    exact ⟨_, (hanswer _).mpr ⟨hcolumn, _, hclip, rfl⟩, isAggregate_aggregate _ _⟩

/-- **History facts equal the ledger.**  After any calls on an empty table, a
    history fact is the aggregate over the ledger of the calls that succeeded if
    and only if the field leads to a column and the window starts at a date; and
    so it is, with the new transaction in the ledger, for the rules that
    `createAndEvaluate` runs next. -/
theorem history_equals_ledger_iff {env : Environment} {max : Int}
    (hmax : env.maxTimeWindowDays = max) {start final : State}
    (hstart : start.db.transactions = Table.empty) {calls : List LedgerCall}
    (hdecimals : ∀ call ∈ calls, call.InDecimals)
    (hrun : runFrom (execOp env) start (calls.map LedgerCall.toOp) = some final)
    (hstated : query.StatedBy params) (haccount : query.Account almanac account) {days : Int}
    (hdays : query.timeWindowDays = days) (now : Int) (organizationId : String) :
    let windowStart := now - min days max * JsDate.msPerDay
    let entries := ledger (succeeded env start calls)
    let answerable := query.NamesColumn ∧ JsDate.Valid (some windowStart)
    (AnswersFrom entries query organizationId account windowStart
        (transactionHistory env.maxTimeWindowDays final.db.transactions now (.obj params) almanac
          organizationId) ↔ answerable) ∧
    ∀ dto id db, FourDecimals dto.amount ∧ FourDecimals dto.amountNormalized →
      create organizationId dto id final.db = .ok db →
      almanac "organizationId" = .ok (.json (.str organizationId)) →
      (AnswersFrom (entries ++ [⟨id, organizationId, dto, dto.isVoided.getD false⟩]) query
          organizationId account windowStart
          ((createConfiguredEngine
            { transactions := db.transactions
              listEntries := db.listEntries
              maxTimeWindowDays := env.maxTimeWindowDays
              now }).transactionHistory (.obj params) almanac) ↔ answerable) := by
  intro windowStart entries answerable
  have hnone : List.Forall₂ Records start.db.transactions.rows (ledger []) := by
    rw [hstart]
    exact List.Forall₂.nil
  have hrows := records_run hnone hdecimals hrun
  rw [List.nil_append] at hrows
  rw [hmax]
  refine ⟨answersFrom_iff hrows hstated haccount hdays max now organizationId, ?_⟩
  intro dto id db hamounts hcreate horganization
  obtain ⟨tx, htable, hrecords⟩ := create_records hcreate hamounts
  have hafter : List.Forall₂ Records db.transactions.rows
      (entries ++ [⟨id, organizationId, dto, dto.isVoided.getD false⟩]) := by
    rw [htable]
    exact List.rel_append hrows (List.Forall₂.cons hrecords List.Forall₂.nil)
  simp only [createConfiguredEngine, horganization, bind, Except.bind, pgText]
  exact answersFrom_iff hafter hstated haccount hdays max now organizationId

end Facts

/-! ### A field every object has -/

/-- The sum of a field of account `acc` over the last 30 days. -/
def monthlySum (field : String) : HistoryQuery where
  aggregation := .sum
  field := some field
  timeWindowDays := 30
  transactionType := none
  accountId := some "acc"
  type_nonempty := HistoryQuery.nonempty_of_no_type

def monthlySumParams (field : String) : JsonObject :=
  [("aggregation", .str "sum"), ("field", .str field), ("timeWindowDays", .num 30),
    ("accountId", .str "acc")]

theorem monthlySum_statedBy (field : String) :
    (monthlySum field).StatedBy (monthlySumParams field) :=
  ⟨rfl, rfl, rfl, rfl, rfl⟩

theorem monthlySum_account (field : String) (almanac : Almanac) :
    (monthlySum field).Account almanac "acc" :=
  ⟨by decide, Or.inl rfl⟩

/-- One transaction, voided and unvoided again. -/
def sampleCalls : List LedgerCall :=
  [.create sampleUuid sampleDto "tx", .update sampleUuid "tx" ⟨.absent, .value true⟩,
    .update sampleUuid "tx" ⟨.value true, .value false⟩]

section Samples

attribute [local instance] NumberText.integers DriverText.stringsOnly NumberParsing.never

theorem history_equals_ledger_iff_sample :
    ∃ final,
      runFrom (execOp sampleEnvironment) State.initial (sampleCalls.map LedgerCall.toOp) =
        some final ∧
      AnswersFrom (ledger (succeeded sampleEnvironment State.initial sampleCalls))
        (monthlySum "amount") sampleUuid "acc" (0 - min 30 30 * JsDate.msPerDay)
        (transactionHistory sampleEnvironment.maxTimeWindowDays final.db.transactions 0
          (.obj (monthlySumParams "amount")) (fun _ => .ok .undefined) sampleUuid) := by
  refine ⟨_, rfl, ?_⟩
  have hmax : sampleEnvironment.maxTimeWindowDays = (30 : Int) := rfl
  have hdays : (monthlySum "amount").timeWindowDays = (30 : Int) := rfl
  refine (history_equals_ledger_iff hmax rfl ?_ rfl (monthlySum_statedBy "amount")
    (monthlySum_account "amount" _) hdays 0 sampleUuid).1.mpr
      ⟨Or.inr (by decide), _, rfl, by decide⟩
  intro call hcall
  have hamount : FourDecimals sampleDto.amount := ⟨1000000, by decide +kernel⟩
  rcases List.mem_cons.mp hcall with rfl | hcall
  · exact ⟨hamount, hamount⟩
  · rcases List.mem_cons.mp hcall with rfl | hcall
    · trivial
    · rw [List.mem_singleton.mp hcall]
      trivial

/-- Asked for the sum of the unknown field `constructor`, the provider fails
    instead of adding up `amountNormalized`. -/
theorem inherited_field_fails :
    ∃ final,
      runFrom (execOp sampleEnvironment) State.initial (sampleCalls.map LedgerCall.toOp) =
        some final ∧
      ¬ AnswersFrom (ledger (succeeded sampleEnvironment State.initial sampleCalls))
        (monthlySum "constructor") sampleUuid "acc" (0 - min 30 30 * JsDate.msPerDay)
        (transactionHistory sampleEnvironment.maxTimeWindowDays final.db.transactions 0
          (.obj (monthlySumParams "constructor")) (fun _ => .ok .undefined) sampleUuid) := by
  refine ⟨_, rfl, ?_⟩
  rintro ⟨result, hok, -⟩
  obtain ⟨hcolumn, -⟩ := (transactionHistory_ok_iff (monthlySum_statedBy "constructor")
    (monthlySum_account "constructor" _) _ _ _ _ _).mp hok
  rcases hcolumn with hcount | hnames
  · cases hcount
  · exact hnames "constructor" rfl (by decide)

end Samples

end RulesEngine
