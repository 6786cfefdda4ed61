import RulesEngine.AlertsService

/-!
# Action handlers

After `processAlertEvent` has saved an alert, each handler decides from
`ruleConfig.actions` whether it runs: `actions?.includes(name) ?? false`, on a
value that is only cast to an array of strings.  An array answers as meant.  A
text answers for its substrings, and a value without such a method throws,
outside the `try` that contains the handlers (`handlers_as_requested_iff`).
-/

namespace RulesEngine.Alerts

open RulesEngine.Foundations

/-- The value of `event.ruleConfig?.actions`. -/
def actionsOf (event : AlertEventMessage) : Option Json := Json.prop? event.ruleConfig "actions"

/-- The actions of a rule ask for the handler: `db` always runs, the others when
    the actions are an array with their name in it. -/
def Requested (actions : Option Json) (handler : ActionType) : Prop :=
  handler = .db ∨ ∃ items, actions = some (.arr items) ∧ Json.str handler.name ∈ items

/-- The actions read as a list of names: nothing, an array, or a text that
    contains the name of no handler but `db`. -/
def ReadsAsNames : Option Json → Prop
  | none => True
  | some .null => True
  | some (.arr _) => True
  | some (.str text) => ∀ handler : ActionType, handler ≠ .db →
      ¬ handler.name.toList <:+: text.toList
  | some _ => False

/-- The alert's promise resolves with it, and the handlers ran once each, in
    their order, exactly those the actions ask for, each with its own outcome. -/
structure RunsAsRequested (outcome : ActionType → HandlerOutcome) (actions : Option Json)
    (alert : Alert) (result : ProcessResult) : Prop where
  resolves : result.promise = .ok alert
  inOrder : (result.executed.map Prod.fst).Sublist actionHandlers
  outcomes : ∀ entry ∈ result.executed, entry.2 = outcome entry.1
  requested : ∀ handler, handler ∈ result.executed.map Prod.fst ↔ Requested actions handler

theorem mem_actionHandlers (handler : ActionType) : handler ∈ actionHandlers := by
  cases handler <;> decide

/-! ### One handler -/

theorem includesAction_arr_iff {items : List Json} {name : String} :
    includesAction (some (.arr items)) name = .ok true ↔ Json.str name ∈ items := by
  simp only [includesAction, Except.ok.injEq, List.any_eq_true]
  constructor
  · rintro ⟨item, hitem, hname⟩
    split at hname
    · simp only [decide_eq_true_eq] at hname
      exact hname ▸ hitem
    · cases hname
  · intro hmem
    exact ⟨_, hmem, by simp⟩

theorem shouldExecute_of_ne {handler : ActionType} (hdb : handler ≠ .db)
    (event : AlertEventMessage) :
    shouldExecute handler event = includesAction (actionsOf event) handler.name := by
  cases handler with
  | db => exact absurd rfl hdb
  | webhook | queue | block => rfl

/-- The actions answer for every name, or throw for every name. -/
theorem includesAction_ok_or_error (actions : Option Json) :
    (∀ name, ∃ answer, includesAction actions name = .ok answer) ∨
      ¬ ReadsAsNames actions ∧ ∀ name, includesAction actions name =
        .error (.error "actions?.includes is not a function") := by
  match actions with
  | none | some .null | some (.arr _) | some (.str _) => exact .inl fun name => ⟨_, rfl⟩
  | some (.bool _) | some (.num _) | some (.obj _) => exact .inr ⟨id, fun name => rfl⟩

/-- Where the actions answer, they do so as requested for every handler but `db`
    if and only if they read as names. -/
theorem includesAction_requested_iff {actions : Option Json}
    (h : ∀ name, ∃ answer, includesAction actions name = .ok answer) :
    (∀ handler : ActionType, handler ≠ .db →
      (includesAction actions handler.name = .ok true ↔ Requested actions handler)) ↔
      ReadsAsNames actions := by
  have hrequested : ∀ handler : ActionType, handler ≠ .db → (Requested actions handler ↔
      ∃ items, actions = some (.arr items) ∧ Json.str handler.name ∈ items) :=
    fun handler hdb => or_iff_right hdb
  match actions with
  | none | some .null =>
      refine iff_of_true (fun handler hdb => ?_) trivial
      simp [hrequested handler hdb, includesAction]
  | some (.arr items) =>
      refine iff_of_true (fun handler hdb => ?_) trivial
      simp [hrequested handler hdb, includesAction_arr_iff]
  | some (.str text) =>
      refine forall₂_congr fun handler hdb => ?_
      simp [hrequested handler hdb, includesAction]
  | some (.bool _) | some (.num _) | some (.obj _) =>
      obtain ⟨answer, hanswer⟩ := h ""
      cases hanswer

/-! ### The loop over the handlers -/

theorem executeActionHandlers_ok {outcome : ActionType → HandlerOutcome}
    {event : AlertEventMessage} {answers : ActionType → Bool}
    (h : ∀ handler, shouldExecute handler event = .ok (answers handler))
    (handlers : List ActionType) :
    executeActionHandlers outcome event handlers =
      ((handlers.filter answers).map fun handler => (handler, outcome handler), .ok ()) := by
  induction handlers with
  | nil => rfl
  | cons handler rest ih =>
      cases hanswer : answers handler <;>
        simp [executeActionHandlers, h handler, hanswer, ih]

theorem executeActionHandlers_error {outcome : ActionType → HandlerOutcome}
    {event : AlertEventMessage} {e : Thrown}
    (h : ∀ handler, handler ≠ .db → shouldExecute handler event = .error e) :
    executeActionHandlers outcome event actionHandlers =
      ([(.db, outcome .db)], .error e) := by
  have hwebhook := h .webhook (by decide)
  simp only [actionHandlers, executeActionHandlers, hwebhook]
  rfl

/-- Where the actions answer, every handler does. -/
theorem shouldExecute_ok {event : AlertEventMessage}
    (h : ∀ name, ∃ answer, includesAction (actionsOf event) name = .ok answer) :
    ∃ answers : ActionType → Bool,
      ∀ handler, shouldExecute handler event = .ok (answers handler) := by
  have hall : ∀ handler, ∃ answer, shouldExecute handler event = .ok answer := by
    intro handler
    by_cases hdb : handler = .db
    · exact ⟨true, hdb ▸ rfl⟩
    · rw [shouldExecute_of_ne hdb]
      exact h handler.name
  choose answers hanswers using hall
  exact ⟨answers, hanswers⟩

theorem mem_executed_iff {outcome : ActionType → HandlerOutcome} {answers : ActionType → Bool}
    {handler : ActionType} :
    handler ∈ ((actionHandlers.filter answers).map
      fun handler => (handler, outcome handler)).map Prod.fst ↔ answers handler = true := by
  simp [mem_actionHandlers]

theorem processAlertEvent_saved [NumberText] {input : ProcessInput} {event : AlertEventMessage}
    {table : Table Alert} {alert : Alert}
    (h : (processAlertEvent input event table).saved = some alert) :
    (processAlertEvent input event table).executed =
        (executeActionHandlers input.outcome event actionHandlers).1 ∧
      (processAlertEvent input event table).promise =
        (executeActionHandlers input.outcome event actionHandlers).2.map fun _ => alert := by
  unfold processAlertEvent at h ⊢
  split at h
  · cases h
  · split at h
    · cases h
    · simp only [Option.some.injEq] at h
      exact ⟨rfl, by rw [h]⟩

/-- A call that ran the handlers that answered yes, and resolved with the alert,
    ran as requested when the answers are what the actions ask for. -/
theorem runsAsRequested_iff_answers {outcome : ActionType → HandlerOutcome}
    {actions : Option Json} {alert : Alert} {result : ProcessResult}
    {answers : ActionType → Bool} (hresolves : result.promise = .ok alert)
    (hexecuted : result.executed =
      (actionHandlers.filter answers).map fun handler => (handler, outcome handler)) :
    RunsAsRequested outcome actions alert result ↔
      ∀ handler, answers handler = true ↔ Requested actions handler := by
  have hanswer : ∀ handler,
      handler ∈ result.executed.map Prod.fst ↔ answers handler = true := by
    intro handler
    rw [hexecuted, mem_executed_iff]
  constructor
  · intro hruns handler
    exact (hanswer handler).symm.trans (hruns.requested handler)
  · intro hrequested
    refine ⟨hresolves, ?_, ?_, fun handler => (hanswer handler).trans (hrequested handler)⟩
    · rw [hexecuted, List.map_map]
      exact (List.map_id _).symm ▸ List.filter_sublist
    · intro entry hentry
      rw [hexecuted] at hentry
      obtain ⟨handler, -, rfl⟩ := List.mem_map.mp hentry
      rfl

/-- The handlers answer as requested when the actions do so for every handler
    but `db`, which always runs and is always asked for. -/
theorem answers_requested_iff {event : AlertEventMessage} {answers : ActionType → Bool}
    (hanswers : ∀ handler, shouldExecute handler event = .ok (answers handler)) :
    (∀ handler, answers handler = true ↔ Requested (actionsOf event) handler) ↔
      ∀ handler : ActionType, handler ≠ .db →
        (includesAction (actionsOf event) handler.name = .ok true ↔
          Requested (actionsOf event) handler) := by
  have hread : ∀ handler : ActionType, handler ≠ .db →
      (includesAction (actionsOf event) handler.name = .ok true ↔ answers handler = true) := by
    intro handler hdb
    rw [← shouldExecute_of_ne hdb, hanswers handler, Except.ok.injEq]
  constructor
  · intro hrequested handler hdb
    exact (hread handler hdb).trans (hrequested handler)
  · intro hrequested handler
    by_cases hdb : handler = .db
    · subst hdb
      exact iff_of_true (Except.ok.inj (hanswers .db)).symm (.inl rfl)
    · exact (hread handler hdb).symm.trans (hrequested handler hdb)

/-- **Handlers run as requested.**  Once an alert is saved, the call resolves
    with it and runs the handlers its rule asks for, in their order and however
    each of them ends, if and only if the actions read as a list of names. -/
theorem handlers_as_requested_iff [NumberText] (input : ProcessInput) (event : AlertEventMessage)
    (table : Table Alert) {alert : Alert}
    (hsaved : (processAlertEvent input event table).saved = some alert) :
    RunsAsRequested input.outcome (actionsOf event) alert (processAlertEvent input event table) ↔
      ReadsAsNames (actionsOf event) := by
  obtain ⟨hexecuted, hpromise⟩ := processAlertEvent_saved hsaved
  rcases includesAction_ok_or_error (actionsOf event) with hok | ⟨hnames, herror⟩
  · obtain ⟨answers, hanswers⟩ := shouldExecute_ok hok
    rw [executeActionHandlers_ok hanswers] at hexecuted hpromise
    rw [runsAsRequested_iff_answers hpromise hexecuted, answers_requested_iff hanswers]
    exact includesAction_requested_iff hok
  · refine iff_of_false (fun hruns => ?_) hnames
    rw [executeActionHandlers_error fun handler hdb =>
      (shouldExecute_of_ne hdb event).trans (herror handler.name)] at hpromise
    exact absurd (hpromise.symm.trans hruns.resolves) (by simp [Except.map])

attribute [local instance] NumberText.integers

/-- A message of a rule with the given actions. -/
def eventWithActions (actions : Json) : AlertEventMessage :=
  { sampleEvent sampleUuid sampleRule with ruleConfig := some (.obj [("actions", actions)]) }

/-- The alert that message creates in an empty table. -/
def createdAlert (actions : Json) : Option Alert :=
  (processAlertEvent (sampleInput 0 firstAlert) (eventWithActions actions) .empty).saved

/-- Of an array of actions with `queue` in it, `db` and `queue` run. -/
theorem handlers_as_requested_iff_sample :
    ∃ alert, createdAlert (.arr [.str "queue", .num 1]) = some alert ∧
      RunsAsRequested (sampleInput 0 firstAlert).outcome (some (.arr [.str "queue", .num 1])) alert
        (processAlertEvent (sampleInput 0 firstAlert)
          (eventWithActions (.arr [.str "queue", .num 1])) .empty) := by
  have hsaved : (createdAlert (.arr [.str "queue", .num 1])).isSome := by decide +kernel
  obtain ⟨alert, halert⟩ := Option.isSome_iff_exists.mp hsaved
  exact ⟨alert, halert, (handlers_as_requested_iff _ _ _ halert).mpr trivial⟩

/-- Actions that are an object: the alert is saved and the call rejects. -/
theorem saved_alert_rejected :
    ∃ alert, createdAlert (.obj []) = some alert ∧
      ¬ RunsAsRequested (sampleInput 0 firstAlert).outcome (some (.obj [])) alert
        (processAlertEvent (sampleInput 0 firstAlert) (eventWithActions (.obj [])) .empty) := by
  have hsaved : (createdAlert (.obj [])).isSome := by decide +kernel
  obtain ⟨alert, halert⟩ := Option.isSome_iff_exists.mp hsaved
  refine ⟨alert, halert, fun hruns => ?_⟩
  have hrejects : (processAlertEvent (sampleInput 0 firstAlert) (eventWithActions (.obj []))
      .empty).promise.toOption = none := by decide +kernel
  simp [hruns.resolves, Except.toOption] at hrejects

/-- Actions that are a text: `webhook` runs, though it is in no array. -/
example : (processAlertEvent (sampleInput 0 firstAlert) (eventWithActions (.str "no webhook"))
    .empty).executed = [(.db, .success), (.webhook, .success)] := by decide +kernel

end RulesEngine.Alerts
