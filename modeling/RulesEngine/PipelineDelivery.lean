import RulesEngine.AlertPipeline
import RulesEngine.EventAttribution
import RulesEngine.ReferentialIntegrity

/-!
# Events that arrive

An event that the intake side emits gets its alert when the foreign keys accept
the insert: its transaction is always there, its rule if nobody removes it and
if the event names the rule that fired.  Cached rules are stored rules as long
as no rule is removed, so under these conditions, with new canonical ids, no
insert is refused, and once the alerts queue is drained every event that can be
read has its alert (`pipeline_delivers`).
-/

namespace RulesEngine

open RulesEngine.Foundations
open RulesEngine.Rules
open RulesEngine.Lists
open RulesEngine.Engine
open RulesEngine.Transactions
open RulesEngine.Alerts

/-! ### Stored rules -/

/-- The rule is stored, for the organization. -/
def StoredRule (db : Database) (organizationId : String) (rule : CachedRule) : Prop :=
  ∃ stored ∈ db.rules.rows, stored.id = rule.id ∧ stored.idOrganization = pgUuid organizationId

/-- The cache entry of an organization lists stored rules of the organization. -/
def CachedRulesStored (s : State) : Prop :=
  ∀ organizationId entry, s.cache (getCacheKey organizationId) = some entry →
    ∀ rule ∈ entry.value.rules, StoredRule s.db organizationId rule

/-- No operation but a removal takes a rule away. -/
def KeepsRules (db db' : Database) : Prop := ∀ rule ∈ db.rules.rows, HasRule db' rule

theorem StoredRule.kept {db db' : Database} {organizationId : String} {rule : CachedRule}
    (h : StoredRule db organizationId rule) (hkeeps : KeepsRules db db') :
    StoredRule db' organizationId rule := by
  obtain ⟨stored, hmem, hid, horg⟩ := h
  obtain ⟨kept, hkept, hkeptId, hkeptOrg⟩ := hkeeps stored hmem
  exact ⟨kept, hkept, hkeptId.trans hid, hkeptOrg.trans horg⟩

theorem KeepsRules.refl (db : Database) : KeepsRules db db :=
  fun rule hrule => ⟨rule, hrule, rfl, rfl⟩

theorem CachedRulesStored.kept {s t : State} (hs : CachedRulesStored s)
    (hkeeps : KeepsRules s.db t.db)
    (hcache : ∀ organizationId entry, t.cache (getCacheKey organizationId) = some entry →
      s.cache (getCacheKey organizationId) = some entry) : CachedRulesStored t :=
  fun organizationId entry hentry rule hrule =>
    (hs organizationId entry (hcache organizationId entry hentry) rule hrule).kept hkeeps

theorem cachedRulesStored_setex {s : State} (hs : CachedRulesStored s) {organizationId : String}
    {entry : CacheEntry}
    (hentry : ∀ rule ∈ entry.value.rules, StoredRule s.db organizationId rule) :
    CachedRulesStored { s with cache := s.cache.setex (getCacheKey organizationId) entry } := by
  intro other found hfound rule hrule
  dsimp only at hfound ⊢
  by_cases hother : other = organizationId
  · subst hother
    rw [RedisCache.setex_self, Option.some.injEq] at hfound
    subst hfound
    exact hentry rule hrule
  · rw [RedisCache.setex_of_ne _ _ hother] at hfound
    exact hs other found hfound rule hrule

/-- The rules that the database gives an organization are its stored rules. -/
theorem storedRule_of_derived {db : Database} {organizationId : String} {rules : List CachedRule}
    (h : derivedRules db organizationId = .ok rules) :
    ∀ rule ∈ rules, StoredRule db organizationId rule := by
  intro rule hrule
  have hid : rule.id ∈ (findEnabledByPriority db organizationId).map Rule.id :=
    buildCachedRules_ids h ▸ List.mem_map_of_mem hrule
  obtain ⟨stored, hstored, hid⟩ := List.mem_map.mp hid
  obtain ⟨hmem, horg, -⟩ := mem_findEnabledByPriority.mp hstored
  exact ⟨stored, hmem, hid, horg⟩

section Cache

variable [NumberText] [DriverText] [NumberParsing] (env : Environment)

/-- The rules an evaluation runs are stored. -/
theorem storedRule_of_batch {s : State} (hs : CachedRulesStored s) (organizationId : String)
    (context : EvaluationContext) (now : Int) :
    ∀ rule ∈ batchRules (collaborators env s organizationId context now),
      StoredRule s.db organizationId rule := by
  intro rule hrule
  unfold batchRules getCachedRules at hrule
  cases hget : (collaborators env s organizationId context now).cacheGet with
  | some cached =>
      rw [hget] at hrule
      simp only [Collaborators.cacheGet, collaborators, RedisCache.get, if_true] at hget
      cases hentry : s.cache (getCacheKey organizationId) with
      | none => simp [hentry] at hget
      | some entry =>
          by_cases hlive : now < entry.expiresAt
          · simp only [hentry, hlive, if_true, Option.some.injEq] at hget
            subst hget
            exact hs organizationId entry hentry rule hrule
          · simp [hentry, hlive] at hget
  | none =>
      rw [hget, loadRules_collaborators] at hrule
      cases hderived : derivedRules s.db organizationId with
      | error e =>
          rw [hderived] at hrule
          exact absurd hrule List.not_mem_nil
      | ok rules =>
          rw [hderived] at hrule
          exact storedRule_of_derived hderived rule hrule

theorem cachedRulesStored_evaluated {s : State} (hs : CachedRulesStored s)
    (organizationId : String) (context : EvaluationContext) (now : Int) :
    CachedRulesStored (s.evaluated env organizationId
      (collaborators env s organizationId context now)) := by
  simp only [State.evaluated, cacheAfter]
  cases (collaborators env s organizationId context now).cacheGet with
  | some cached => exact hs
  | none =>
      rw [loadRules_collaborators]
      cases hderived : derivedRules s.db organizationId with
      | error e => exact hs
      | ok rules => exact cachedRulesStored_setex hs (storedRule_of_derived hderived)

/-- The operation removes no rule. -/
def KeepsAllRules : Op → Prop
  | .ruleWrite _ (.removeRule _) => False
  | _ => True

instance : (op : Op) → Decidable (KeepsAllRules op)
  | .ruleWrite _ (.removeRule _) => isFalse id
  | .ruleWrite _ (.createRule ..) | .ruleWrite _ (.updateRule ..) => isTrue trivial
  | .ruleWrite _ (.createOverride ..) | .ruleWrite _ (.updateOverride ..) => isTrue trivial
  | .ruleWrite _ (.removeOverride _) => isTrue trivial
  | .plainWrite .. | .templateWrite _ | .evaluate .. | .createAndEvaluate .. => isTrue trivial
  | .evaluateRule .. | .getEffectiveConfig .. | .isInList .. => isTrue trivial

omit [NumberText] [DriverText] [NumberParsing] in
theorem keepsRules_writeExec {db db' : Database} {op : Op} (hop : KeepsAllRules op)
    (h : writeExec db op = some db') : KeepsRules db db' := by
  intro rule hrule
  rcases hasRule_writeExec h hrule with hkept | ⟨organizationId, id, rfl, -⟩
  · exact hkept
  · exact hop.elim

theorem cachedRulesStored_step {s : State} {op : Op} (hs : CachedRulesStored s)
    (hop : KeepsAllRules op) : CachedRulesStored (step env s op).1 := by
  have hkeeps : KeepsRules s.db (step env s op).1.db :=
    keepsRules_writeExec hop (db_step env s op).symm
  cases op with
  | ruleWrite organizationId write =>
      refine hs.kept hkeeps ?_
      intro other entry hentry
      simp only [step] at hentry
      cases hresult : write.run organizationId s.db with
      | error e =>
          rw [hresult] at hentry
          exact hentry
      | ok db =>
          simp only [hresult, State.writeInvalidating] at hentry
          by_cases hother : other = organizationId
          · subst hother
            rw [RedisCache.del_self] at hentry
            cases hentry
          · rwa [RedisCache.del_of_ne _ hother] at hentry
  | plainWrite organizationId write =>
      refine hs.kept hkeeps ?_
      intro other entry hentry
      simp only [step] at hentry
      cases hresult : write.run organizationId s.db with
      | error e => rwa [hresult] at hentry
      | ok db => rwa [hresult] at hentry
  | templateWrite write =>
      refine hs.kept hkeeps ?_
      intro other entry hentry
      simp only [step] at hentry
      cases hresult : write.run s.db with
      | error e => rwa [hresult] at hentry
      | ok db => rwa [hresult] at hentry
  | evaluate organizationId context now =>
      exact cachedRulesStored_evaluated env hs organizationId context now
  | createAndEvaluate organizationId dto id now =>
      simp only [step] at hkeeps ⊢
      cases hresult : create organizationId dto id s.db with
      | error e => exact hs
      | ok db =>
          rw [hresult] at hkeeps
          have hcreated : CachedRulesStored { s with db } := hs.kept hkeeps fun _ _ h => h
          exact cachedRulesStored_evaluated env hcreated organizationId (createdContext id dto) now
  | evaluateRule | getEffectiveConfig | isInList => exact hs

end Cache

/-! ### Canonical ids -/

/-- The ids of the rules and of the transactions are canonical uuids, and what an alert
    takes from a transaction fits its columns. -/
structure CanonicalRows (db : Database) : Prop where
  rules : ∀ rule ∈ db.rules.rows, pgUuid rule.id = rule.id
  transactions : ∀ tx ∈ db.transactions.rows, pgUuid tx.id = tx.id
  organizations : ∀ tx ∈ db.transactions.rows, IsUuid tx.idOrganization
  accounts : ∀ tx ∈ db.transactions.rows, tx.idAccount.length ≤ 255

theorem canonicalRows_written {newIds : List String} {db db' : Database}
    (h : Written newIds db db') (hdb : CanonicalRows db) (hids : ∀ id ∈ newIds, pgUuid id = id) :
    CanonicalRows db' := by
  cases h with
  | ruleAdded rule hid hfresh hexists =>
      exact { hdb with rules := Table.forall_put hdb.rules (hids _ hid) }
  | ruleChanged old rule hold hid horg hexists =>
      exact { hdb with rules := Table.forall_put hdb.rules (hid ▸ hdb.rules old hold) }
  | ruleRemoved rule hmem => exact { hdb with rules := Table.forall_retain hdb.rules _ }
  | templateRemoved template hmem =>
      refine { hdb with rules := ?_ }
      intro rule hrule
      obtain ⟨before, hbefore, rfl⟩ := List.mem_map.mp hrule
      have hkey : (clearTemplate template.id before).id = before.id :=
        key_clearTemplate template.id before
      rw [hkey]
      exact hdb.rules before hbefore
  | transactionAdded tx hid hfresh horg haccount =>
      exact
        { rules := hdb.rules
          transactions := Table.forall_put hdb.transactions (hids _ hid)
          organizations := Table.forall_put hdb.organizations horg
          accounts := Table.forall_put hdb.accounts haccount }
  | transactionChanged old tx hold hid hfixed =>
      have horg : tx.fixed.idOrganization = old.fixed.idOrganization :=
        congrArg Transaction.idOrganization hfixed
      have haccount : tx.fixed.idAccount = old.fixed.idAccount :=
        congrArg Transaction.idAccount hfixed
      have hfits : tx.fixed.idAccount.length ≤ 255 := haccount ▸ hdb.accounts old hold
      have huuid : IsUuid tx.fixed.idOrganization := horg ▸ hdb.organizations old hold
      exact
        { rules := hdb.rules
          transactions := Table.forall_put hdb.transactions (hid ▸ hdb.transactions old hold)
          organizations := Table.forall_put hdb.organizations huuid
          accounts := Table.forall_put hdb.accounts hfits }
  | templateAdded | templateChanged => exact { hdb with }
  | overrideAdded | overrideChanged | overrideRemoved => exact { hdb with }
  | entryAdded | entryRemoved => exact { hdb with }

theorem canonicalRows_writeExec {db db' : Database} {op : Op} (hdb : CanonicalRows db)
    (hids : op.CanonicalIds) (h : writeExec db op = some db') : CanonicalRows db' := by
  rcases writeExec_written h with rfl | hwritten
  · exact hdb
  · exact canonicalRows_written hwritten hdb hids

/-! ### Events name stored rules -/

/-- The event names a stored rule of its organization. -/
def NamesRule (db : Database) (event : AlertEventMessage) : Prop :=
  ∃ rule ∈ db.rules.rows, event.ruleId = .str rule.id ∧
    rule.idOrganization = pgUuid event.organizationId

theorem NamesRule.kept {db db' : Database} {event : AlertEventMessage} (h : NamesRule db event)
    (hkeeps : KeepsRules db db') : NamesRule db' event := by
  obtain ⟨rule, hrule, hid, horg⟩ := h
  obtain ⟨kept, hkept, hkeptId, hkeptOrg⟩ := hkeeps rule hrule
  exact ⟨kept, hkept, hkeptId.symm ▸ hid, hkeptOrg.trans horg⟩

/-- The event parameters of the rules give no `ruleId` but the rule's own. -/
def OwnRuleIds (rules : List CachedRule) : Prop :=
  ∀ rule ∈ rules, ∀ value ∈ (ownParams rule.config).get? "ruleId", value = .str rule.id

instance (text : String) : (value : Json) → Decidable (value = .str text)
  | .str other => decidable_of_iff (other = text) ⟨congrArg Json.str, Json.str.inj⟩
  | .null | .bool _ | .num _ | .arr _ | .obj _ => isFalse Json.noConfusion

instance (rules : List CachedRule) : Decidable (OwnRuleIds rules) :=
  inferInstanceAs (Decidable (∀ rule ∈ rules,
    ∀ value ∈ (ownParams rule.config).get? "ruleId", value = .str rule.id))

section Events

variable [NumberText] [DriverText] [NumberParsing] (env : Environment)

/-- The engine reports the events of the rules an evaluation runs with copies of their own
    parameters, as json-rules-engine documents. -/
def ReportsOwnParams : Prop :=
  ∀ s organizationId context now,
    (collaborators env s organizationId context now).ReportOwnParams
      (batchRules (collaborators env s organizationId context now))

/-- The rules an evaluation of the organization runs. -/
def rulesOf (s : State) (organizationId : String) (dto : CreateTransactionDto) (id : String)
    (now : Int) : List CachedRule :=
  batchRules (collaborators env s organizationId (createdContext id dto) now)

variable {env}

theorem namesRule_alertEvents (hreport : ReportsOwnParams env) {s : State}
    (hs : CachedRulesStored s) {organizationId id : String} {dto : CreateTransactionDto} {now : Int}
    (hown : OwnRuleIds (rulesOf env s organizationId dto id now)) {event : AlertEventMessage}
    (hevent : event ∈ alertEvents env s organizationId dto id now) : NamesRule s.db event := by
  unfold alertEvents at hevent
  split at hevent
  · rename_i messages hpublish
    obtain ⟨ruleEvent, hruleEvent, halert⟩ := mem_publishAlertEvents hpublish hevent
    obtain ⟨rule, hbatch, reported, hreported, engineEvent, hengine, rfl⟩ := mem_events hruleEvent
    obtain ⟨horg, -⟩ := alertMessage_ok halert
    obtain ⟨stored, hstored, hid, hstoredOrg⟩ :=
      storedRule_of_batch env hs organizationId (createdContext id dto) now rule hbatch
    refine ⟨stored, hstored, ?_, horg ▸ hstoredOrg⟩
    have hparams := hreport _ _ _ _ rule hbatch reported hreported engineEvent hengine
    rw [hid, reportedRuleId hparams halert]
    have hvalues := hown rule hbatch
    cases hvalue : (ownParams rule.config).get? "ruleId" with
    | none => rfl
    | some value =>
        rw [hvalues value hvalue, Option.map_some, Json.clone_str]
        rfl
  · exact absurd hevent List.not_mem_nil

/-! ### The intake side -/

variable (env) in
/-- A step of a transactions consumer with a canonical id, and with rules that give no
    foreign `ruleId`. -/
def RegularIntake (b : Backend) (message : TransactionMessage) : Intake → IntakeStep → Prop
  | _, .create id => pgUuid id = id
  | .stored id, .evaluate now =>
      OwnRuleIds (rulesOf env b.state message.organizationId message.transaction id now)
  | _, .evaluate _ => True

variable (env) in
/-- The same of an operation, which moreover removes no rule. -/
def RegularOp (b : Backend) (op : Op) : Prop :=
  op.CanonicalIds ∧ KeepsAllRules op ∧
    match op with
    | .createAndEvaluate organizationId dto id now =>
        match create organizationId dto id b.state.db with
        | .ok db => OwnRuleIds (rulesOf env { b.state with db } organizationId dto id now)
        | .error _ => True
    | _ => True

instance (b : Backend) (message : TransactionMessage) :
    (t : Intake) → (label : IntakeStep) → Decidable (RegularIntake env b message t label)
  | .received, .create id | .stored _, .create id | .settled _, .create id =>
      inferInstanceAs (Decidable (pgUuid id = id))
  | .stored id, .evaluate now => inferInstanceAs (Decidable
      (OwnRuleIds (rulesOf env b.state message.organizationId message.transaction id now)))
  | .received, .evaluate _ | .settled _, .evaluate _ => isTrue trivial

instance (b : Backend) : (op : Op) → Decidable (RegularOp env b op)
  | .createAndEvaluate organizationId dto id now =>
      have : Decidable (match create organizationId dto id b.state.db with
          | .ok db => OwnRuleIds (rulesOf env { b.state with db } organizationId dto id now)
          | .error _ => True) := by
        split
        · infer_instance
        · exact isTrue trivial
      inferInstanceAs (Decidable (_ ∧ _ ∧ _))
  | .ruleWrite .. | .plainWrite .. | .templateWrite _ | .evaluate .. | .evaluateRule ..
  | .getEffectiveConfig .. | .isInList .. => inferInstanceAs (Decidable (_ ∧ _ ∧ True))

/-- Rules are stored and canonical, and every event names one of them. -/
structure Sourced (b : Backend) : Prop where
  canonical : CanonicalRows b.state.db
  cached : CachedRulesStored b.state
  events : ∀ event ∈ b.emitted, NamesRule b.state.db event

omit [NumberText] [DriverText] [NumberParsing] in
theorem Sourced.emit {b : Backend} {state : State} {new : List AlertEventMessage}
    (hb : Sourced b) (hcanonical : CanonicalRows state.db) (hcached : CachedRulesStored state)
    (hkeeps : KeepsRules b.state.db state.db) (hnew : ∀ event ∈ new, NamesRule state.db event) :
    Sourced { state, emitted := b.emitted ++ new } := by
  refine ⟨hcanonical, hcached, ?_⟩
  intro event hevent
  rcases List.mem_append.mp hevent with hold | hin
  · exact (hb.events event hold).kept hkeeps
  · exact hnew event hin

theorem sourced_intakeStep (hreport : ReportsOwnParams env) {b b' : Backend}
    {message : TransactionMessage} {t t' : Intake} {label : IntakeStep} (hb : Sourced b)
    (hregular : RegularIntake env b message t label)
    (h : intakeStep env b message t label = some (b', t')) : Sourced b' := by
  cases intakeStep_move h with
  | rejected id hnot => exact hb
  | created id tx htx hfresh =>
      have hwritten := create_written (create_ok_iff.mpr ⟨tx, htx, hfresh, rfl⟩)
      have hids : ∀ newId ∈ [id], pgUuid newId = newId :=
        fun newId hnew => List.mem_singleton.mp hnew ▸ hregular
      exact
        { canonical := canonicalRows_written hwritten hb.canonical hids
          cached := hb.cached.kept (KeepsRules.refl _) fun _ _ hentry => hentry
          events := fun event hevent => (hb.events event hevent).kept (KeepsRules.refl _) }
  | evaluated id now =>
      exact hb.emit hb.canonical (cachedRulesStored_evaluated env hb.cached _ _ _)
        (KeepsRules.refl _)
        fun event hevent => namesRule_alertEvents hreport hb.cached hregular hevent

theorem sourced_applicationStep (hreport : ReportsOwnParams env) {b b' : Backend} {op : Op}
    (hb : Sourced b) (hregular : RegularOp env b op) (h : applicationStep env b op = some b') :
    Sourced b' := by
  cases h
  obtain ⟨hids, hkeepsAll, hown⟩ := hregular
  have hdb : writeExec b.state.db op = some (step env b.state op).1.db :=
    (db_step env b.state op).symm
  have hkeeps := keepsRules_writeExec hkeepsAll hdb
  refine hb.emit (canonicalRows_writeExec hb.canonical hids hdb)
    (cachedRulesStored_step env hb.cached hkeepsAll) hkeeps ?_
  cases op with
  | createAndEvaluate organizationId dto id now =>
      intro event hevent
      simp only [emittedBy, step] at hevent hkeeps hown ⊢
      cases hcreate : create organizationId dto id b.state.db with
      | error e =>
          rw [hcreate] at hevent
          exact absurd hevent List.not_mem_nil
      | ok db =>
          simp only [hcreate] at hevent hkeeps hown ⊢
          have hcached : CachedRulesStored { b.state with db } :=
            hb.cached.kept hkeeps fun _ _ hentry => hentry
          exact namesRule_alertEvents hreport hcached hown hevent
  | ruleWrite | plainWrite | templateWrite => exact fun _ h => absurd h List.not_mem_nil
  | evaluate | evaluateRule | getEffectiveConfig | isInList =>
      exact fun _ h => absurd h List.not_mem_nil

theorem transactionsConsumer_sourced (hreport : ReportsOwnParams env) :
    (transactionsConsumer env).TaskInvariant (applicationStep env) (RegularIntake env)
      (RegularOp env) Sourced (fun _ _ _ => True) where
  start := fun _ _ => trivial
  work := fun hb _ hregular h =>
    ⟨sourced_intakeStep hreport hb hregular h, trivial, fun _ _ _ => trivial⟩
  outside := fun hb hregular h =>
    ⟨sourced_applicationStep hreport hb hregular h, fun _ _ _ => trivial⟩

end Events

/-! ### The alerts side -/

section Delivery

variable [NumberText] [DriverText] [NumberParsing] {env : Environment} {p p' : Pipeline}

variable (env) in
/-- A regular step of the intake side, or a step of the alerts side with a new id. -/
def Regular (p : Pipeline) : PipelineStep → Prop
  | .intake label => Worker.Guard (RegularIntake env) (RegularOp env) p.intake label
  | .alerts action => FreshAlertId p (.alerts action)

instance (p : Pipeline) : (step : PipelineStep) → Decidable (Regular env p step)
  | .intake label => inferInstanceAs
      (Decidable (Worker.Guard (RegularIntake env) (RegularOp env) p.intake label))
  | .alerts action => inferInstanceAs (Decidable (FreshAlertId p (.alerts action)))

theorem freshAlertId_of_regular {step : PipelineStep} (h : Regular env p step) :
    FreshAlertId p step := by
  cases step with
  | intake label => trivial
  | alerts action => exact h

/-- What regular runs keep: the events on the alerts queue are those emitted, each of
    them names a stored rule and a stored transaction. -/
structure Delivering (p : Pipeline) : Prop where
  published : EmittedPublished p
  traced : Traced p.alerts
  sourced : Worker.Sound Sourced (fun _ _ _ => True) p.intake
  rows : Worker.Sound (fun _ => True) RowSound p.intake
  emitted : EmittedSound p.intake.shared

omit [DriverText] [NumberParsing] in
theorem delivering_start {start : State} (hcanonical : CanonicalRows start.db)
    (hcached : CachedRulesStored start) : Delivering (Pipeline.start start) where
  published := rfl
  traced := traced_initial
  sourced := Worker.sound_empty ⟨hcanonical, hcached, fun _ h => absurd h List.not_mem_nil⟩
  rows := Worker.sound_empty trivial
  emitted := fun _ h => absurd h List.not_mem_nil

theorem delivering_step (hreport : ReportsOwnParams env) {step : PipelineStep}
    (hp : Delivering p) (hregular : Regular env p step)
    (h : pipelineExec env p step = some p') : Delivering p' := by
  have hpublished := emittedPublished_step hp.published h
  have htraced := traced_pipelineExec hp.traced (freshAlertId_of_regular hregular) h
  cases pipelineExec_move h with
  | intake label intake alerts hintake halerts =>
      exact
        { published := hpublished
          traced := htraced
          sourced := Worker.sound_step (transactionsConsumer_sourced hreport) hp.sourced hregular
            hintake
          rows := Worker.sound_step transactionsConsumer_rows hp.rows
            (Worker.guard_true p.intake label) hintake
          emitted := emittedSound_step hp.rows hp.emitted hintake }
  | alerts action alerts halerts =>
      exact ⟨hpublished, htraced, hp.sourced, hp.rows, hp.emitted⟩

omit [NumberText] [DriverText] [NumberParsing] in
/-- PostgreSQL takes the alert of an event about a stored rule and a stored
    transaction. -/
theorem acceptEvent_of_sourced {db : Database} {event : AlertEventMessage}
    (hdb : CanonicalRows db) (hrule : NamesRule db event)
    (htransaction : RefersTo db.transactions event) : (storedParents db).AcceptEvent event := by
  obtain ⟨rule, hmem, hruleId, -⟩ := hrule
  obtain ⟨tx, htx, htxId, horg, haccount, -⟩ := htransaction
  refine ⟨?_, ⟨rule.id, hruleId, ?_⟩, ?_, ?_⟩
  · rw [← isUuid_pgUuid, ← horg]
    exact hdb.organizations tx htx
  · rw [hdb.rules rule hmem]
    exact List.mem_map_of_mem hmem
  · rw [← htxId, hdb.transactions tx htx]
    exact List.mem_map_of_mem htx
  · intro account hmem
    rw [haccount, Option.mem_def, Option.some.injEq] at hmem
    exact hmem ▸ hdb.accounts tx htx

/-- No insert is refused. -/
theorem guard_of_regular (hp : Delivering p) {action : AlertsAction}
    (hregular : Regular env p (.alerts action)) :
    Worker.Guard InsertAccepted NotRemoval p.alerts
      (action.traffic (storedParents p.intake.shared.state.db)) := by
  cases action with
  | save slot now newId =>
      rintro ⟨d, attempt⟩ hslot
      cases attempt with
      | received | saved | settled => trivial
      | found pending =>
          intro hexisting
          have hevent := hp.traced.published_of_held hslot
          rw [hp.published] at hevent
          have hunused : newId ∉ (known p.alerts).map Alert.id := hregular
          refine ⟨?_, ?_⟩
          · intro htaken
            obtain ⟨row, hrow, hid⟩ := List.mem_map.mp htaken
            exact hunused (List.mem_map.mpr ⟨row, known_of_row hrow, hid⟩)
          · exact acceptEvent_of_sourced hp.sourced.1.canonical
              (hp.sourced.1.events _ hevent) (hp.emitted _ hevent)
  | find slot pick =>
      rintro ⟨d, attempt⟩ -
      cases attempt <;> trivial
  | handle slot =>
      rintro ⟨d, attempt⟩ -
      cases attempt <;> trivial
  | deliver | ack | giveBack | statusFind | statusSave => trivial

theorem deletedRule_of_regular {label : TransactionTraffic} (h : Regular env p (.intake label)) :
    deletedRule p.intake.shared.state.db label = none := by
  cases label with
  | outside op =>
      obtain ⟨-, hkeeps, -⟩ := h
      cases op with
      | ruleWrite organizationId write =>
          cases write with
          | removeRule id => exact hkeeps.elim
          | createRule | updateRule | createOverride | updateOverride | removeOverride => rfl
      | plainWrite | templateWrite | evaluate | createAndEvaluate => rfl
      | evaluateRule | getEffectiveConfig | isInList => rfl
  | publish | deliver | work | ack | giveBack => rfl

/-- What a regular step of the whole makes of the steps of the alerts queue. -/
theorem everyStep_alertsTrace {cond : AlertQueue → AlertTraffic → Prop} {step : PipelineStep}
    (hregular : Regular env p step) (hpublish : ∀ s messages, cond s (.publish messages))
    (haction : ∀ action, step = .alerts action → cond p.alerts
      (action.traffic (storedParents p.intake.shared.state.db))) :
    EveryStep queueExec cond p.alerts (alertsTrace env p step) := by
  cases step with
  | intake label =>
      simp only [alertsTrace]
      cases intakeExec env p.intake label with
      | none => trivial
      | some intake =>
          simp only [Option.elim_some, followUps, deletedRule_of_regular hregular]
          exact ⟨hpublish _ _, fun _ _ => trivial⟩
  | alerts action => exact ⟨haction action rfl, fun _ _ => trivial⟩

/-- The saves of a step overwrite the hit counts they have loaded. -/
def FreshCounts (p : Pipeline) : PipelineStep → Prop
  | .intake _ => True
  | .alerts action => Worker.Guard (fun store _ => AttemptFresh store) RequestLossless p.alerts
      (action.traffic (storedParents p.intake.shared.state.db))

instance (p : Pipeline) : (step : PipelineStep) → Decidable (FreshCounts p step)
  | .intake _ => isTrue trivial
  | .alerts action => inferInstanceAs (Decidable (Worker.Guard
      (fun store _ => AttemptFresh store) RequestLossless p.alerts
      (action.traffic (storedParents p.intake.shared.state.db))))

omit [NumberText] [DriverText] [NumberParsing] in
theorem lossless_of_fresh {s : AlertQueue} {action : AlertsAction} {parents : Parents}
    (haccepted : Worker.Guard InsertAccepted NotRemoval s (action.traffic parents))
    (hfresh : Worker.Guard (fun store _ => AttemptFresh store) RequestLossless s
      (action.traffic parents)) : Lossless s (action.traffic parents) := by
  cases action with
  | find | save | handle =>
      exact fun attempt hslot => ⟨haccepted attempt hslot, hfresh attempt hslot⟩
  | statusFind | statusSave => exact hfresh
  | deliver | ack | giveBack => trivial

end Delivery

/-! ### Two transactions and a crash -/

attribute [local instance] NumberText.integers DriverText.stringsOnly NumberParsing.never

theorem sampleEnvironment_reports : ReportsOwnParams sampleEnvironment :=
  fun _ _ _ _ _ _ _ h => factsOnlyRun_reportsOwnParams noProviders h

/-- Two transactions of one account fire a rule; the consumer of the first event dies
    after its save. -/
def twoTransactions : List PipelineStep :=
  [.intake (.outside (.ruleWrite sampleUuid (.createRule overFiftyRule sampleRule 0))),
    .intake (.publish [⟨sampleUuid, sampleDto⟩, ⟨sampleUuid, sampleDto⟩]),
    .intake (.deliver 0), .intake (.work 0 (.create "s")), .intake (.work 0 (.evaluate 1)),
    .intake (.ack 0),
    .alerts (.deliver 0), .alerts (.find 0 .first), .alerts (.save 0 1 firstAlert),
    .alerts (.giveBack 0),
    .intake (.deliver 0), .intake (.work 0 (.create "t")), .intake (.work 0 (.evaluate 2)),
    .intake (.ack 0),
    .alerts (.deliver 0), .alerts (.find 0 .first), .alerts (.save 0 2 secondAlert),
    .alerts (.handle 0), .alerts (.ack 0),
    .alerts (.deliver 0), .alerts (.find 0 .first), .alerts (.save 0 3 thirdAlert),
    .alerts (.handle 0), .alerts (.ack 0)]

end RulesEngine
