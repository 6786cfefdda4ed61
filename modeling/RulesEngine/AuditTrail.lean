import RulesEngine.AlertInterleaving
import RulesEngine.DatabaseWrites

/-!
# What is recorded stays recorded

Nothing in the services deletes a transaction or an alert, and an update assigns
a few columns of a row where it stands.  So a run only adds rows behind the
existing ones: for transactions under all operations of the application
(`transactions_append_only`), for alerts under every interleaving of event
processing and status updates (`alerts_append_only`).  What is stored depends
on neither the engine nor the cache nor the clock of evaluations
(`storage_ignores_evaluation`).
-/

namespace RulesEngine

open RulesEngine.Foundations
open RulesEngine.Lists
open RulesEngine.Engine

/-! ### Transactions -/

theorem continues_written {newIds : List String} {db db' : Database}
    (h : Written newIds db db') :
    Table.Continues Transaction.fixed db.transactions db'.transactions := by
  cases h with
  | transactionAdded tx hid hfresh horg haccount => exact Table.continues_put_new hfresh
  | transactionChanged old tx hold hid hfixed => exact Table.continues_put_replaced hold hid hfixed
  | templateAdded | templateChanged | templateRemoved => exact Table.Continues.refl _ _
  | overrideAdded | overrideChanged | overrideRemoved => exact Table.Continues.refl _ _
  | ruleAdded | ruleChanged | ruleRemoved => exact Table.Continues.refl _ _
  | entryAdded | entryRemoved => exact Table.Continues.refl _ _

theorem continues_writeExec {db db' : Database} {op : Op} (h : writeExec db op = some db') :
    Table.Continues Transaction.fixed db.transactions db'.transactions := by
  rcases writeExec_written h with rfl | hwritten
  · exact Table.Continues.refl _ _
  · exact continues_written hwritten

/-- The operations that write, with evaluations of new transactions left out. -/
def Op.withoutEvaluation : Op → Option Op
  | .createAndEvaluate organizationId dto id _ =>
      some (.plainWrite organizationId (.createTransaction dto id))
  | .ruleWrite organizationId write => some (.ruleWrite organizationId write)
  | .plainWrite organizationId write => some (.plainWrite organizationId write)
  | .templateWrite write => some (.templateWrite write)
  | .evaluate .. | .evaluateRule .. | .getEffectiveConfig .. | .isInList .. => none

theorem writeExec_withoutEvaluation (db : Database) (op : Op) :
    writeExec db op = runFrom writeExec db op.withoutEvaluation.toList := by
  cases op with
  | createAndEvaluate organizationId dto id now =>
      simp only [Op.withoutEvaluation, Option.toList_some, runFrom, writeExec, Op.write,
        PlainWrite.run]
      cases Transactions.create organizationId dto id db <;> rfl
  | ruleWrite organizationId write =>
      cases h : writeExec db (.ruleWrite organizationId write) <;>
        simp [Op.withoutEvaluation, runFrom, h]
  | plainWrite organizationId write =>
      cases h : writeExec db (.plainWrite organizationId write) <;>
        simp [Op.withoutEvaluation, runFrom, h]
  | templateWrite write =>
      cases h : writeExec db (.templateWrite write) <;> simp [Op.withoutEvaluation, runFrom, h]
  | evaluate organizationId context now => rfl
  | evaluateRule organizationId ruleId context now => rfl
  | getEffectiveConfig organizationId ruleId => rfl
  | isInList organizationId listType entityType entityValue now => rfl

theorem runFrom_withoutEvaluation (db : Database) (ops : List Op) :
    runFrom writeExec db ops = runFrom writeExec db (ops.filterMap Op.withoutEvaluation) := by
  induction ops generalizing db with
  | nil => rfl
  | cons op ops ih =>
      rw [List.filterMap_eq_flatMap_toList, List.flatMap_cons, ← List.filterMap_eq_flatMap_toList,
        runFrom_append, ← writeExec_withoutEvaluation, runFrom]
      cases writeExec db op with
      | none => rfl
      | some next => exact ih next

section Runs

variable [NumberText] [DriverText] [NumberParsing]

/-- **Transactions are never lost.**  After every run of the application the
    transactions there were are the first ones of the table, in their order, and
    unchanged but for `isBlocked` and `isVoided`. -/
theorem transactions_append_only (env : Environment) {s t : State} {ops : List Op}
    (hrun : runFrom (execOp env) s ops = some t) :
    s.db.transactions.rows.map Transaction.fixed <+:
      t.db.transactions.rows.map Transaction.fixed := by
  have hdb : runFrom writeExec s.db ops = some t.db := by
    rw [← runFrom_db env, hrun, Option.map_some]
  exact runFrom_relation (I := fun _ => True)
    (R := fun db db' => Table.Continues Transaction.fixed db.transactions db'.transactions)
    (fun _ => Table.Continues.refl _ _) (fun _ _ _ => Table.Continues.trans)
    (fun _ _ _ _ h => ⟨trivial, continues_writeExec h⟩) trivial hdb

/-- **Storage is fail-open.**  The database after a run is the one that its writes
    alone leave, in any other environment and from any other contents of the
    cache: no outcome of an evaluation, and no failure of the engine, shows in
    what is stored. -/
theorem storage_ignores_evaluation (env env' : Environment) {s s' : State} (hdb : s.db = s'.db)
    (ops : List Op) :
    (runFrom (execOp env) s ops).map State.db =
      (runFrom (execOp env') s' (ops.filterMap Op.withoutEvaluation)).map State.db := by
  rw [runFrom_db, runFrom_db, hdb]
  exact runFrom_withoutEvaluation s'.db ops

end Runs

section Sample

attribute [local instance] NumberText.integers DriverText.stringsOnly NumberParsing.never

/-- Transaction `a` is blocked and `b` stored. -/
def blockAndStore : List Op :=
  [.plainWrite sampleUuid (.updateTransaction "a" ⟨.value true, .absent⟩),
    .plainWrite sampleUuid (.createTransaction sampleDto "b")]

theorem transactions_append_only_sample :
    ∃ s t, runFrom (execOp sampleEnvironment) State.initial
        [.createAndEvaluate sampleUuid sampleDto "a" 0] = some s ∧
      runFrom (execOp sampleEnvironment) s blockAndStore = some t ∧
      t.db.transactions.rows.map (fun tx => (tx.id, tx.isBlocked)) = [("a", true), ("b", false)] ∧
      s.db.transactions.rows.map Transaction.fixed <+:
        t.db.transactions.rows.map Transaction.fixed := by
  have hrows : (runFrom (execOp sampleEnvironment) State.initial
      (.createAndEvaluate sampleUuid sampleDto "a" 0 :: blockAndStore)).map
        (fun t => t.db.transactions.rows.map fun tx => (tx.id, tx.isBlocked)) =
      some [("a", true), ("b", false)] := by
    decide +kernel
  obtain ⟨t, hrun, hrows⟩ := Option.map_eq_some_iff.mp hrows
  obtain ⟨s, hs, ht⟩ := runFrom_cons_eq_some.mp hrun
  exact ⟨s, t, runFrom_cons_eq_some.mpr ⟨s, hs, rfl⟩, ht, hrows,
    transactions_append_only sampleEnvironment ht⟩

/-- An engine that fails on every rule. -/
def failingEnvironment : Environment :=
  { sampleEnvironment with engineRun := fun _ _ _ => .error .other }

/-- A rule is stored, and its evaluation fails. -/
def failedEvaluation : List Op :=
  [.ruleWrite sampleUuid (.createRule overFiftyRule "r" 0),
    .createAndEvaluate sampleUuid sampleDto "a" 0]

theorem storage_ignores_evaluation_sample :
    ∃ s result, runFrom (execOp failingEnvironment) State.initial failedEvaluation = some s ∧
      (step failingEnvironment s (.evaluate sampleUuid sampleContext 1)).2 = .evaluation result ∧
      result.success = false ∧ s.db.transactions.Taken "a" ∧
      some s.db = (runFrom (execOp sampleEnvironment) State.initial
        [.ruleWrite sampleUuid (.createRule overFiftyRule "r" 0),
          .plainWrite sampleUuid (.createTransaction sampleDto "a")]).map State.db := by
  have hdb := storage_ignores_evaluation failingEnvironment sampleEnvironment
    (rfl : State.initial.db = State.initial.db) failedEvaluation
  have hfinal : (runFrom (execOp failingEnvironment) State.initial failedEvaluation).map (fun s =>
      ((evaluate (collaborators failingEnvironment s sampleUuid sampleContext 1)).success,
        s.db.transactions.rows.map Transaction.id)) = some (false, ["a"]) := by
    decide +kernel
  obtain ⟨s, hrun, hvalues⟩ := Option.map_eq_some_iff.mp hfinal
  obtain ⟨hfailed, hids⟩ := Prod.mk.inj hvalues
  rw [hrun] at hdb
  have hmem : "a" ∈ s.db.transactions.rows.map Transaction.id := hids ▸ List.mem_cons_self
  exact ⟨s, _, hrun, rfl, hfailed, hmem, hdb⟩

end Sample

/-! ### Alerts -/

namespace Alerts

/-- A step of an interleaving adds at most one alert, behind the others. -/
theorem continues_move [NumberText] {s t : System} {label : Label} (hs : Consistent s)
    (h : Move s label t) :
    Table.Continues Alert.fixed s.table t.table := by
  cases h with
  | processRejected => exact Table.Continues.refl _ _
  | statusRejected => exact Table.Continues.refl _ _
  | processFound => exact Table.Continues.refl _ _
  | statusFound => exact Table.Continues.refl _ _
  | refused => exact Table.Continues.refl _ _
  | created index now newId parents pending hcall hexisting hfresh =>
      exact Table.continues_put_new hfresh
  | hit index now newId parents pending alert hcall hexisting =>
      obtain ⟨row, hrow, hfixed⟩ := hs.copies _ (List.mem_of_getElem? hcall) alert hexisting
      exact Table.continues_put_replaced hrow (id_eq_of_fixed_eq hfixed) hfixed.symm
  | statusSaved index now newId parents alert status hcall =>
      obtain ⟨row, hrow, hfixed⟩ := hs.copies _ (List.mem_of_getElem? hcall) alert rfl
      exact Table.continues_put_replaced hrow (id_eq_of_fixed_eq hfixed) hfixed.symm

/-- **Alerts are never lost.**  However event processing and status updates
    interleave, the alerts of every instant are the first ones of every later
    instant, in their order, with nothing changed but their status, their hits
    and the time of the last one. -/
theorem alerts_append_only [NumberText] {before after : List Label} {s t : System}
    (hs : runFrom exec System.initial before = some s) (ht : runFrom exec s after = some t) :
    s.table.rows.map Alert.fixed <+: t.table.rows.map Alert.fixed := by
  have hconsistent : Consistent s :=
    runFrom_invariant (fun _ _ _ hs h => consistent_step hs h) consistent_initial hs
  exact runFrom_relation (R := fun s t => Table.Continues Alert.fixed s.table t.table)
    (fun _ => Table.Continues.refl _ _) (fun _ _ _ => Table.Continues.trans)
    (fun _ _ _ hs h => ⟨consistent_step hs h, continues_move hs (exec_move h)⟩) hconsistent ht

def openedOnce : List Label :=
  [.processFind .first (sampleEvent sampleUuid sampleRule), .save 0 1 firstAlert sampleParents]

/-- An event of the same key and one of another. -/
def furtherEvents : List Label :=
  [.processFind .first (sampleEvent sampleUuid sampleRule), .save 0 2 secondAlert sampleParents,
    .processFind .first (sampleEvent sampleUuid otherRule), .save 0 3 thirdAlert sampleParents]

attribute [local instance] NumberText.integers in
theorem alerts_append_only_sample :
    ∃ s t, runFrom exec System.initial openedOnce = some s ∧
      runFrom exec s furtherEvents = some t ∧
      s.table.rows.map Alert.fixed <+: t.table.rows.map Alert.fixed := by
  have hfirst : (runFrom exec System.initial openedOnce).isSome := by decide +kernel
  obtain ⟨s, hs⟩ := Option.isSome_iff_exists.mp hfirst
  have hall : (runFrom exec System.initial (openedOnce ++ furtherEvents)).isSome := by
    decide +kernel
  rw [runFrom_append, hs, Option.bind_some] at hall
  obtain ⟨t, ht⟩ := Option.isSome_iff_exists.mp hall
  exact ⟨s, t, hs, ht, alerts_append_only hs ht⟩

end Alerts

end RulesEngine
