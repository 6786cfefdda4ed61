import RulesEngine.AlertProvenance
import RulesEngine.TransactionQueue

/-!
# From transactions to alerts

The transactions consumers and the application on one side, the alerts consumers
on the other, over one PostgreSQL: each event that an evaluation emits is
published on the alerts queue, the inserts into `alerts` are checked against the
rules and the transactions there are, and deleting a rule deletes its alerts.
Each side runs as it does alone (`intake_project`, `alerts_project`).

Whatever the interleaving, every alert in the table has its rule and its
transaction, and is about that transaction (`alerts_grounded`).
-/

namespace RulesEngine

open RulesEngine.Foundations
open RulesEngine.Rules
open RulesEngine.Lists
open RulesEngine.Engine
open RulesEngine.Transactions
open RulesEngine.Alerts

/-! ### Foreign keys -/

/-- The rows that `FK_alerts_rule` and `FK_alerts_transaction` ask for are there. -/
def ParentsExist (db : Database) (alert : Alert) : Prop :=
  (∃ rule ∈ db.rules.rows, alert.ofRule rule.id = true) ∧
    ∃ tx ∈ db.transactions.rows, tx.id = pgUuid alert.idTransaction

instance (db : Database) (alert : Alert) : Decidable (ParentsExist db alert) :=
  inferInstanceAs (Decidable ((∃ rule ∈ db.rules.rows, _) ∧ ∃ tx ∈ db.transactions.rows, _))

theorem ofRule_congr {a b : Alert} (h : a.fixed = b.fixed) (ruleId : String) :
    a.ofRule ruleId = b.ofRule ruleId :=
  eq_of_fixed_eq (fun alert => alert.ofRule ruleId) (fun _ => rfl) h

theorem ParentsExist.congr {db : Database} {a b : Alert} (h : ParentsExist db b)
    (heq : a.fixed = b.fixed) : ParentsExist db a := by
  obtain ⟨⟨rule, hrule, hof⟩, tx, htx, hid⟩ := h
  have htransaction : a.idTransaction = b.idTransaction :=
    eq_of_fixed_eq Alert.idTransaction (fun _ => rfl) heq
  exact ⟨⟨rule, hrule, (ofRule_congr heq rule.id).trans hof⟩, tx, htx, htransaction ▸ hid⟩

/-! ### Rules that stay -/

/-- The rule is still there, for the same organization. -/
def HasRule (db : Database) (rule : Rule) : Prop :=
  ∃ kept ∈ db.rules.rows, kept.id = rule.id ∧ kept.idOrganization = rule.idOrganization

theorem hasRule_of_rows {db db' : Database} (h : ∀ rule ∈ db.rules.rows, rule ∈ db'.rules.rows)
    {rule : Rule} (hrule : rule ∈ db.rules.rows) : HasRule db' rule :=
  ⟨rule, h rule hrule, rfl, rfl⟩

theorem hasRule_put {db : Database} {saved rule : Rule} (hrule : rule ∈ db.rules.rows)
    (hsaved : rule.id = saved.id → rule.idOrganization = saved.idOrganization) :
    HasRule { db with rules := db.rules.put saved } rule := by
  by_cases hid : rule.id = saved.id
  · exact ⟨saved, Table.mem_put_self _ _, hid.symm, (hsaved hid).symm⟩
  · exact ⟨rule, Table.mem_put_of_ne hrule hid, rfl, rfl⟩

theorem rows_of_sameConfig {db db' : Database} (h : ∀ o, SameConfig o db' db) :
    ∀ rule ∈ db.rules.rows, rule ∈ db'.rules.rows := by
  intro rule hrule
  have howned : rule ∈ ownedBy rule.idOrganization db'.rules := by
    rw [(h rule.idOrganization).rules]
    exact mem_ownedBy.mpr ⟨hrule, rfl⟩
  exact (mem_ownedBy.mp howned).1

theorem hasRule_ruleWrite {organizationId : String} {write : RuleWrite} {db db' : Database}
    (h : write.run organizationId db = .ok db') {rule : Rule} (hrule : rule ∈ db.rules.rows) :
    HasRule db' rule ∨ ∃ id, write = .removeRule id ∧ findRule db organizationId id = .ok rule := by
  cases write with
  | createRule dto id createdAt =>
      obtain ⟨⟨⟩, hexists, h⟩ := bind_eq_ok.mp h
      obtain ⟨table, hinsert, h⟩ := bind_eq_ok.mp h
      cases h
      obtain ⟨hfresh, rfl⟩ := insertRow_ok hinsert
      refine Or.inl (hasRule_put hrule fun hid => ?_)
      exact absurd (List.mem_map.mpr ⟨rule, hrule, hid⟩) hfresh
  | updateRule id dto =>
      obtain ⟨old, hfind, h⟩ := bind_eq_ok.mp h
      obtain ⟨saved, hassign, h⟩ := bind_eq_ok.mp h
      obtain ⟨⟨⟩, hexists, h⟩ := bind_eq_ok.mp h
      cases h
      obtain ⟨hid, horg, -⟩ := assignRule_ok hassign
      refine Or.inl (hasRule_put hrule fun heq => ?_)
      rw [Table.eq_of_key_eq hrule (findOneOf_ok hfind).1 (heq.trans hid), horg]
  | removeRule id =>
      obtain ⟨removed, hfind, h⟩ := bind_eq_ok.mp h
      cases h
      by_cases hid : rule.id = removed.id
      · rw [Table.eq_of_key_eq hrule (findOneOf_ok hfind).1 hid]
        exact Or.inr ⟨id, rfl, hfind⟩
      · exact Or.inl ⟨rule, List.mem_filter.mpr ⟨hrule, decide_eq_true hid⟩, rfl, rfl⟩
  | createOverride dto id =>
      obtain ⟨template, hfind, h⟩ := bind_eq_ok.mp h
      cases hfound : findByTemplate db organizationId dto.idTemplate with
      | some override =>
          rw [hfound] at h
          cases h
      | none =>
          rw [hfound] at h
          obtain ⟨table, -, h⟩ := bind_eq_ok.mp h
          cases h
          exact Or.inl ⟨rule, hrule, rfl, rfl⟩
  | updateOverride id dto =>
      obtain ⟨override, -, h⟩ := bind_eq_ok.mp h
      obtain ⟨overrides, -, h⟩ := bind_eq_ok.mp h
      obtain ⟨enabled, -, h⟩ := bind_eq_ok.mp h
      cases h
      exact Or.inl ⟨rule, hrule, rfl, rfl⟩
  | removeOverride id =>
      obtain ⟨override, -, h⟩ := bind_eq_ok.mp h
      cases h
      exact Or.inl ⟨rule, hrule, rfl, rfl⟩

theorem hasRule_templateWrite {write : TemplateWrite} {db db' : Database}
    (h : write.run db = .ok db') {rule : Rule} (hrule : rule ∈ db.rules.rows) :
    HasRule db' rule := by
  cases write with
  | create dto id =>
      obtain ⟨⟨⟩, -, h⟩ := bind_eq_ok.mp h
      obtain ⟨table, -, h⟩ := bind_eq_ok.mp h
      cases h
      exact ⟨rule, hrule, rfl, rfl⟩
  | update id dto =>
      obtain ⟨template, -, h⟩ := bind_eq_ok.mp h
      obtain ⟨name, -, h⟩ := bind_eq_ok.mp h
      obtain ⟨config, -, h⟩ := bind_eq_ok.mp h
      obtain ⟨⟨⟩, -, h⟩ := bind_eq_ok.mp h
      cases h
      exact ⟨rule, hrule, rfl, rfl⟩
  | remove id =>
      obtain ⟨template, -, h⟩ := bind_eq_ok.mp h
      cases h
      refine ⟨clearTemplate template.id rule, List.mem_map.mpr ⟨rule, hrule, rfl⟩,
        key_clearTemplate _ _, ?_⟩
      unfold clearTemplate
      split <;> rfl

/-- An operation keeps every rule but the one that it removes. -/
theorem hasRule_writeExec {db db' : Database} {op : Op} (h : writeExec db op = some db')
    {rule : Rule} (hrule : rule ∈ db.rules.rows) :
    HasRule db' rule ∨ ∃ organizationId id, op = .ruleWrite organizationId (.removeRule id) ∧
      findRule db organizationId id = .ok rule := by
  unfold writeExec at h
  split at h
  · rename_i next hwrite
    cases h
    cases op with
    | ruleWrite organizationId write =>
        rcases hasRule_ruleWrite hwrite hrule with hkept | ⟨id, rfl, hfind⟩
        · exact Or.inl hkept
        · exact Or.inr ⟨organizationId, id, rfl, hfind⟩
    | plainWrite organizationId write =>
        exact Or.inl (hasRule_of_rows (rows_of_sameConfig (PlainWrite.sameConfig hwrite)) hrule)
    | templateWrite write => exact Or.inl (hasRule_templateWrite hwrite hrule)
    | createAndEvaluate organizationId dto id now =>
        exact Or.inl (hasRule_of_rows (rows_of_sameConfig (create_sameConfig hwrite)) hrule)
    | evaluate | evaluateRule | getEffectiveConfig | isInList =>
        cases hwrite
        exact Or.inl ⟨rule, hrule, rfl, rfl⟩
  · cases h
    exact Or.inl ⟨rule, hrule, rfl, rfl⟩

/-! ### Both sides -/

structure Pipeline where
  intake : TransactionQueue
  alerts : AlertQueue

def Pipeline.start (s : State) : Pipeline := ⟨TransactionQueue.start s, AlertQueue.initial⟩

/-- A step of the alerts side.  What PostgreSQL finds when it checks the foreign keys
    is no choice here. -/
inductive AlertsAction where
  | deliver (position : Nat)
  | find (slot : Nat) (pick : Pick)
  | save (slot : Nat) (now : Int) (newId : String)
  | handle (slot : Nat)
  | ack (slot : Nat)
  | giveBack (slot : Nat)
  | statusFind (organizationId id : String) (status : AlertStatus)
  | statusSave (index : Nat)

/-- The step of the alerts queue, for the rows the check finds. -/
def AlertsAction.traffic (parents : Parents) : AlertsAction → AlertTraffic
  | .deliver position => .deliver position
  | .find slot pick => .work slot (.find pick)
  | .save slot now newId => .work slot (.save now newId parents)
  | .handle slot => .work slot .handle
  | .ack slot => .ack slot
  | .giveBack slot => .giveBack slot
  | .statusFind organizationId id status => .outside (.statusFind organizationId id status)
  | .statusSave index => .outside (.statusSave index parents)

/-- The rows that the foreign keys of `alerts` are checked against. -/
def storedParents (db : Database) : Parents :=
  ⟨db.rules.rows.map Rule.id, db.transactions.rows.map Transaction.id⟩

theorem parentsExist_of_accept {db : Database} {alert : Alert}
    (h : (storedParents db).Accept alert) : ParentsExist db alert := by
  obtain ⟨ruleId, hrule, hof⟩ := h.rule
  obtain ⟨rule, hmem, rfl⟩ := List.mem_map.mp hrule
  obtain ⟨tx, htx, hid⟩ := List.mem_map.mp h.transaction
  exact ⟨⟨rule, hmem, hof⟩, tx, htx, hid⟩

inductive PipelineStep where
  | intake (label : TransactionTraffic)
  | alerts (action : AlertsAction)

/-- The rule that a step of the intake side deletes. -/
def deletedRule (db : Database) : TransactionTraffic → Option String
  | .outside (.ruleWrite organizationId (.removeRule id)) =>
      (findRule db organizationId id).toOption.map Rule.id
  | _ => none

/-- What a step of the intake side does to the alerts: the events it emitted are
    published, and the alerts of the rule it deleted go with the rule. -/
def followUps (before : TransactionQueue) (label : TransactionTraffic) (after : TransactionQueue) :
    List AlertTraffic :=
  .publish (after.shared.emitted.drop before.shared.emitted.length) ::
    (deletedRule before.shared.state.db label).toList.map fun ruleId =>
      .outside (.removeRule ruleId)

section Steps

variable [NumberText] [DriverText] [NumberParsing] (env : Environment)

def pipelineExec (p : Pipeline) : PipelineStep → Option Pipeline
  | .intake label =>
      (intakeExec env p.intake label).bind fun intake =>
        (runFrom queueExec p.alerts (followUps p.intake label intake)).map fun alerts =>
          { intake, alerts }
  | .alerts action =>
      (queueExec p.alerts
        (action.traffic (storedParents p.intake.shared.state.db))).map
          fun alerts => { p with alerts }

/-- Everything a step can do. -/
inductive PipelineMove (p : Pipeline) : PipelineStep → Pipeline → Prop where
  | intake (label : TransactionTraffic) (intake : TransactionQueue) (alerts : AlertQueue) :
      intakeExec env p.intake label = some intake →
      runFrom queueExec p.alerts (followUps p.intake label intake) = some alerts →
      PipelineMove p (.intake label) { intake, alerts }
  | alerts (action : AlertsAction) (alerts : AlertQueue) :
      queueExec p.alerts
        (action.traffic (storedParents p.intake.shared.state.db)) = some alerts →
      PipelineMove p (.alerts action) { p with alerts }

variable {env}

theorem pipelineExec_move {p p' : Pipeline} {step : PipelineStep}
    (h : pipelineExec env p step = some p') : PipelineMove env p step p' := by
  cases step with
  | intake label =>
      obtain ⟨intake, hintake, h⟩ := Option.bind_eq_some_iff.mp h
      obtain ⟨alerts, halerts, rfl⟩ := Option.map_eq_some_iff.mp h
      exact .intake label intake alerts hintake halerts
  | alerts action =>
      obtain ⟨alerts, halerts, rfl⟩ := Option.map_eq_some_iff.mp h
      exact .alerts action alerts halerts

/-! ### Each side alone -/

def intakeTrace (_ : Pipeline) : PipelineStep → List TransactionTraffic
  | .intake label => [label]
  | .alerts _ => []

variable (env) in
def alertsTrace (p : Pipeline) : PipelineStep → List AlertTraffic
  | .intake label => (intakeExec env p.intake label).elim [] (followUps p.intake label)
  | .alerts action =>
      [action.traffic (storedParents p.intake.shared.state.db)]

theorem intake_step (p : Pipeline) (step : PipelineStep) (p' : Pipeline)
    (h : pipelineExec env p step = some p') :
    runFrom (intakeExec env) p.intake (intakeTrace p step) = some p'.intake := by
  cases pipelineExec_move h with
  | intake label intake alerts hintake halerts =>
      exact runFrom_cons_eq_some.mpr ⟨intake, hintake, rfl⟩
  | alerts action alerts halerts => rfl

theorem alerts_step (p : Pipeline) (step : PipelineStep) (p' : Pipeline)
    (h : pipelineExec env p step = some p') :
    runFrom queueExec p.alerts (alertsTrace env p step) = some p'.alerts := by
  cases pipelineExec_move h with
  | intake label intake alerts hintake halerts =>
      simp only [alertsTrace, hintake, Option.elim_some]
      exact halerts
  | alerts action alerts halerts => exact runFrom_cons_eq_some.mpr ⟨alerts, halerts, rfl⟩

section Runs

variable {p p' : Pipeline} {steps : List PipelineStep}

/-- A run of the whole is a run of the transactions queue. -/
theorem intake_project (hrun : runFrom (pipelineExec env) p steps = some p') :
    runFrom (intakeExec env) p.intake (traceOf (pipelineExec env) intakeTrace p steps) =
      some p'.intake :=
  runFrom_project intake_step hrun

/-- A run of the whole is a run of the alerts queue. -/
theorem alerts_project (hrun : runFrom (pipelineExec env) p steps = some p') :
    runFrom queueExec p.alerts (traceOf (pipelineExec env) (alertsTrace env) p steps) =
      some p'.alerts :=
  runFrom_project alerts_step hrun

end Runs

/-! ### What is emitted is published -/

theorem emitted_intakeExec {q q' : TransactionQueue} {label : TransactionTraffic}
    (h : intakeExec env q label = some q') : q.shared.emitted <+: q'.shared.emitted := by
  cases Worker.exec_move h with
  | published | delivered | acknowledged | givenBack => exact List.prefix_refl _
  | worked slot label d before after b hslot hwork =>
      cases intakeStep_move hwork with
      | rejected id hnot => exact List.prefix_refl _
      | created id tx htx hfresh => exact List.prefix_refl _
      | evaluated id now => exact List.prefix_append _ _
  | elsewhere op b hb =>
      cases hb
      exact List.prefix_append _ _

omit [DriverText] [NumberParsing] in
/-- The follow-ups publish what was emitted and delete the alerts of a deleted
    rule. -/
theorem followUps_alerts {before after : TransactionQueue} {label : TransactionTraffic}
    {alerts alerts' : AlertQueue}
    (h : runFrom queueExec alerts (followUps before label after) = some alerts') :
    alerts'.queue.published =
        alerts.queue.published ++ after.shared.emitted.drop before.shared.emitted.length ∧
      alerts'.queue.held = alerts.queue.held ∧ alerts'.shared.updates = alerts.shared.updates ∧
      ∀ alert, alert ∈ alerts'.shared.table.rows ↔ alert ∈ alerts.shared.table.rows ∧
        ∀ ruleId ∈ deletedRule before.shared.state.db label, alert.ofRule ruleId = false := by
  unfold followUps at h
  cases hdeleted : deletedRule before.shared.state.db label with
  | none =>
      rw [hdeleted] at h
      cases h
      exact ⟨rfl, rfl, rfl, fun alert => ⟨fun hrow => ⟨hrow, fun _ hnone => by cases hnone⟩,
        And.left⟩⟩
  | some ruleId =>
      rw [hdeleted] at h
      cases h
      refine ⟨rfl, rfl, rfl, fun alert => ?_⟩
      have hmem : alert ∈ (alerts.shared.table.retain fun alert => !alert.ofRule ruleId).rows ↔
          alert ∈ alerts.shared.table.rows ∧ alert.ofRule ruleId = false := by
        rw [Table.rows_retain, List.mem_filter, Bool.not_eq_true']
      refine hmem.trans (and_congr_right fun _ => ?_)
      simp only [Option.mem_def, Option.some.injEq, forall_eq']

/-- Everything emitted so far has been published on the alerts queue. -/
def EmittedPublished (p : Pipeline) : Prop :=
  p.alerts.queue.published = p.intake.shared.emitted

omit [DriverText] [NumberParsing] in
theorem published_action {alerts alerts' : AlertQueue} {action : AlertsAction} {parents : Parents}
    (h : queueExec alerts (action.traffic parents) = some alerts') :
    alerts'.queue.published = alerts.queue.published := by
  cases action with
  | statusFind | statusSave =>
      obtain ⟨store, -, rfl⟩ := Option.map_eq_some_iff.mp h
      rfl
  | deliver position => exact Worker.published_of_busy (by rfl) h
  | find slot pick => exact Worker.published_of_busy rfl h
  | save slot now newId => exact Worker.published_of_busy rfl h
  | handle slot => exact Worker.published_of_busy rfl h
  | ack slot => exact Worker.published_of_busy rfl h
  | giveBack slot =>
      obtain ⟨attempt, -, rfl⟩ := Option.map_eq_some_iff.mp h
      rfl

theorem emittedPublished_step {p p' : Pipeline} {step : PipelineStep} (hp : EmittedPublished p)
    (h : pipelineExec env p step = some p') : EmittedPublished p' := by
  unfold EmittedPublished at *
  cases pipelineExec_move h with
  | intake label intake alerts hintake halerts =>
      obtain ⟨hpublished, -⟩ := followUps_alerts halerts
      obtain ⟨new, hnew⟩ := emitted_intakeExec hintake
      rw [hpublished, hp, ← hnew, List.drop_left]
  | alerts action alerts halerts => exact (published_action halerts).trans hp

end Steps

/-! ### Grounded alerts -/

/-- The generated id of an alert is no id of a known alert. -/
def FreshAlertId (p : Pipeline) : PipelineStep → Prop
  | .intake _ => True
  | .alerts action =>
      UnusedId p.alerts (action.traffic (storedParents p.intake.shared.state.db))

instance (p : Pipeline) : (step : PipelineStep) → Decidable (FreshAlertId p step)
  | .intake _ => isTrue trivial
  | .alerts action => inferInstanceAs (Decidable
      (UnusedId p.alerts (action.traffic (storedParents p.intake.shared.state.db))))

/-- What an action saves is checked against the rows there are. -/
theorem savedBy_traffic {parents found : Parents} {alerts : AlertQueue} {action : AlertsAction}
    {saved : Alert} (h : savedBy alerts (action.traffic parents) = some (saved, found)) :
    found = parents := by
  cases action with
  | save slot now newId =>
      simp only [AlertsAction.traffic, savedBy] at h
      split at h
      · cases h
        rfl
      · cases h
  | statusSave index =>
      obtain ⟨update, -, heq⟩ := Option.map_eq_some_iff.mp h
      cases heq
      rfl
  | find | handle | deliver | ack | giveBack | statusFind => cases h

section Grounded

variable [NumberText] [DriverText] [NumberParsing] {env : Environment}

omit [DriverText] [NumberParsing] in
/-- Follow-ups meet what publications and removals of rules meet. -/
theorem everyStep_followUps {cond : AlertQueue → AlertTraffic → Prop}
    (hpublish : ∀ s messages, cond s (.publish messages))
    (hremove : ∀ s ruleId, cond s (.outside (.removeRule ruleId)))
    (before : TransactionQueue) (label : TransactionTraffic) (after : TransactionQueue)
    (alerts : AlertQueue) : EveryStep queueExec cond alerts (followUps before label after) := by
  refine ⟨hpublish _ _, fun t _ => ?_⟩
  cases deletedRule before.shared.state.db label with
  | none => trivial
  | some ruleId => exact ⟨hremove _ _, fun _ _ => trivial⟩

theorem traced_pipelineExec {p p' : Pipeline} {step : PipelineStep} (hp : Traced p.alerts)
    (hfresh : FreshAlertId p step) (h : pipelineExec env p step = some p') :
    Traced p'.alerts := by
  cases pipelineExec_move h with
  | intake label intake alerts hintake halerts =>
      exact runFrom_guarded_invariant (fun _ _ _ hs hunused h => traced_step hs hunused h) hp
        (everyStep_followUps (fun _ _ => trivial) (fun _ _ => trivial) _ _ _ _) halerts
  | alerts action alerts halerts => exact traced_step hp hfresh halerts

/-- Each alert of the table has its rule and its transaction. -/
def ForeignKeys (p : Pipeline) : Prop :=
  ∀ alert ∈ p.alerts.shared.table.rows, ParentsExist p.intake.shared.state.db alert

omit [DriverText] [NumberParsing] in
/-- An alert that is saved over a row is a copy of that row. -/
theorem among_rows_of_taken {alerts : AlertQueue} {label : AlertTraffic} {saved : Alert}
    {parents : Parents} (hs : Traced alerts) (hunused : UnusedId alerts label)
    (h : savedBy alerts label = some (saved, parents))
    (htaken : alerts.shared.table.Taken saved.id) :
    Among alerts.shared.table.rows saved := by
  obtain ⟨row, hrow, hid⟩ := List.mem_map.mp htaken
  have hrowKnown := known_of_row hrow
  refine ⟨row, hrow, ?_⟩
  unfold savedBy at h
  split at h
  · rename_i slot now newId found
    split at h
    · rename_i d pending hslot
      cases h
      unfold PendingEvent.entity at hid ⊢
      cases hexisting : pending.existing with
      | none =>
          rw [hexisting] at hid
          exact absurd (List.mem_map.mpr ⟨row, hrowKnown, hid⟩) hunused
      | some found =>
          rw [hexisting] at hid
          exact hs.agree found (known_of_held hslot hexisting) row hrowKnown hid.symm
    · cases h
  · rename_i index found
    obtain ⟨update, hindex, heq⟩ := Option.map_eq_some_iff.mp h
    cases heq
    exact hs.agree update.1 (known_of_update (List.mem_of_getElem? hindex)) row hrowKnown hid.symm
  · cases h

/-- A step of the intake side keeps the rows an alert refers to, unless it deletes
    the rule. -/
theorem parentsExist_intakeExec {q q' : TransactionQueue} {label : TransactionTraffic}
    (h : intakeExec env q label = some q') {alert : Alert}
    (halert : ParentsExist q.shared.state.db alert)
    (hkept : ∀ ruleId ∈ deletedRule q.shared.state.db label, alert.ofRule ruleId = false) :
    ParentsExist q'.shared.state.db alert := by
  obtain ⟨⟨rule, hrule, hof⟩, tx, htx, hid⟩ := halert
  have htransaction : ∀ {db' : Database},
      Table.Continues Transaction.fixed q.shared.state.db.transactions db'.transactions →
      ∃ tx ∈ db'.transactions.rows, tx.id = pgUuid alert.idTransaction := by
    intro db' htable
    obtain ⟨tx', htx', hfixed⟩ := htable.exists_row htx
    have hid' : tx'.fixed.id = tx.fixed.id := congrArg Transaction.id hfixed
    exact ⟨tx', htx', hid'.trans hid⟩
  cases Worker.exec_move h with
  | published | delivered | acknowledged | givenBack => exact ⟨⟨rule, hrule, hof⟩, tx, htx, hid⟩
  | worked slot label d before after b hslot hwork =>
      refine ⟨?_, htransaction (continues_intakeStep hwork)⟩
      cases intakeStep_move hwork with
      | rejected | created | evaluated => exact ⟨rule, hrule, hof⟩
  | elsewhere op b hb =>
      refine ⟨?_, htransaction (continues_applicationStep hb)⟩
      cases hb
      rcases hasRule_writeExec (db_step env q.shared.state op).symm hrule with
        ⟨kept, hmem, hkeptId, -⟩ | ⟨organizationId, id, rfl, hfind⟩
      · exact ⟨kept, hmem, hkeptId ▸ hof⟩
      · have hdeleted : rule.id ∈ deletedRule q.shared.state.db
            (.outside (.ruleWrite organizationId (.removeRule id))) := by
          simp only [deletedRule, hfind, Except.toOption, Option.map_some, Option.mem_def]
        rw [hkept rule.id hdeleted] at hof
        cases hof

theorem foreignKeys_step {p p' : Pipeline} {step : PipelineStep} (hp : ForeignKeys p)
    (htraced : Traced p.alerts) (hfresh : FreshAlertId p step)
    (h : pipelineExec env p step = some p') : ForeignKeys p' := by
  intro alert halert
  cases pipelineExec_move h with
  | intake label intake alerts hintake halerts =>
      obtain ⟨-, -, -, hrows⟩ := followUps_alerts halerts
      obtain ⟨hold, hkept⟩ := (hrows alert).mp halert
      exact parentsExist_intakeExec hintake (hp alert hold) hkept
  | alerts action alerts halerts =>
      have hold : ∀ {a : Alert}, Among p.alerts.shared.table.rows a →
          ParentsExist p.intake.shared.state.db a := by
        rintro a ⟨old, hmem, hfixed⟩
        exact (hp old hmem).congr hfixed
      rcases rows_step halerts alert halert with hrow | ⟨saved, parents, hsaved, hfixed, hnot⟩
      · exact hold hrow
      · -- an insert has passed the check, an update leaves the references of its row
        refine ParentsExist.congr ?_ hfixed
        by_cases htaken : p.alerts.shared.table.Taken saved.id
        · exact hold (among_rows_of_taken htraced hfresh hsaved htaken)
        · obtain rfl := savedBy_traffic hsaved
          refine parentsExist_of_accept ?_
          by_contra hrefused
          exact hnot ⟨hrefused, htaken⟩

/-- **Alerts are grounded.**  Whatever consumers die, whatever saves overwrite each
    other and whatever operations of the application, removals of rules included,
    fall in between: each alert in the table has its rule; it was opened for an
    event that the intake side emitted; and the transaction it names is stored,
    belongs to the organization of the alert and has its account. -/
theorem alerts_grounded {start : State} {steps : List PipelineStep} {p : Pipeline}
    (hfresh : EveryStep (pipelineExec env) FreshAlertId (Pipeline.start start) steps)
    (hrun : runFrom (pipelineExec env) (Pipeline.start start) steps = some p) :
    ∀ alert ∈ p.alerts.shared.table.rows,
      (∃ rule ∈ p.intake.shared.state.db.rules.rows, alert.ofRule rule.id = true) ∧
        (∃ event ∈ p.intake.shared.emitted, alert.OpenedBy event) ∧
        ∃ tx ∈ p.intake.shared.state.db.transactions.rows, tx.id = alert.idTransaction ∧
          tx.idOrganization = pgUuid alert.idOrganization ∧
          alert.idAccount = some tx.idAccount := by
  have hstart : EmittedPublished (Pipeline.start start) ∧ Traced (Pipeline.start start).alerts ∧
      ForeignKeys (Pipeline.start start) :=
    ⟨rfl, traced_initial, fun _ h => absurd h List.not_mem_nil⟩
  obtain ⟨hpublished, htraced, hkeys⟩ := runFrom_guarded_invariant
    (I := fun p => EmittedPublished p ∧ Traced p.alerts ∧ ForeignKeys p)
    (fun _ _ _ hp hfresh h => ⟨emittedPublished_step hp.1 h, traced_pipelineExec hp.2.1 hfresh h,
      foreignKeys_step hp.2.2 hp.2.1 hfresh h⟩)
    hstart hfresh hrun
  intro alert halert
  obtain ⟨event, hevent, hopened⟩ := htraced.opened alert (known_of_row halert)
  rw [hpublished] at hevent
  refine ⟨(hkeys alert halert).1, ⟨event, hevent, hopened⟩, ?_⟩
  obtain ⟨tx, htx, hid, horg, haccount, -⟩ :=
    (rows_run (intake_project hrun)).2.1 event hevent
  refine ⟨tx, htx, hid.trans hopened.transaction.symm, ?_, hopened.account.trans haccount⟩
  rw [hopened.organization, pgUuid_pgUuid]
  exact horg

end Grounded

/-! ### A rule that goes with its alert -/

/-- Two rules report the transaction; one of them is removed while the consumer of
    its event is at work. -/
def removedRule : List PipelineStep :=
  [.intake (.outside (.ruleWrite sampleUuid (.createRule overFiftyRule sampleRule 0))),
    .intake (.outside (.ruleWrite sampleUuid (.createRule overFiftyRule otherRule 1))),
    .intake (.publish [⟨sampleUuid, sampleDto⟩]), .intake (.deliver 0),
    .intake (.work 0 (.create sampleTx)), .intake (.work 0 (.evaluate 1)), .intake (.ack 0),
    .alerts (.deliver 0), .alerts (.find 0 .first), .alerts (.save 0 1 firstAlert),
    .alerts (.handle 0), .alerts (.ack 0),
    .alerts (.deliver 0), .alerts (.find 0 .first), .alerts (.save 0 2 secondAlert),
    .intake (.outside (.ruleWrite sampleUuid (.removeRule otherRule))), .alerts (.handle 0),
    .alerts (.ack 0)]

attribute [local instance] NumberText.integers DriverText.stringsOnly NumberParsing.never

theorem alerts_grounded_sample :
    ∃ p, runFrom (pipelineExec sampleEnvironment) (Pipeline.start State.initial) removedRule =
        some p ∧
      p.alerts.shared.table.rows.map Alert.id = [firstAlert] ∧
      ∀ alert ∈ p.alerts.shared.table.rows,
        (∃ rule ∈ p.intake.shared.state.db.rules.rows, alert.ofRule rule.id = true) ∧
          (∃ event ∈ p.intake.shared.emitted, alert.OpenedBy event) ∧
          ∃ tx ∈ p.intake.shared.state.db.transactions.rows, tx.id = alert.idTransaction ∧
            tx.idOrganization = pgUuid alert.idOrganization ∧
            alert.idAccount = some tx.idAccount := by
  have hfinal : (runFrom (pipelineExec sampleEnvironment) (Pipeline.start State.initial)
      removedRule).map (fun p => p.alerts.shared.table.rows.map Alert.id) = some [firstAlert] := by
    decide +kernel
  obtain ⟨p, hrun, hids⟩ := Option.map_eq_some_iff.mp hfinal
  exact ⟨p, hrun, hids, alerts_grounded (by decide +kernel) hrun⟩

end RulesEngine
