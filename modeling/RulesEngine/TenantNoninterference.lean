import RulesEngine.TenantWrites
import RulesEngine.Foundations.TransitionSystem

/-!
# Evaluations of one organization do not depend on the others

Two runs are compared: one with the operations of every organization, and one
from which those of all organizations but one are removed.  The relation
carried along says that the two states look the same to the organization that
stays, in the database and at its key of the cache.  Its own operations read
nothing else (`step_agree`); an operation of another organization changes
nothing else (`step_hidden`).

Of json-rules-engine this uses that a run consults the registered facts only
through the almanac, and that the almanac resolves the facts passed to `run`.
Of PostgreSQL it uses that generated ids are new.
-/

namespace RulesEngine

open RulesEngine.Foundations
open RulesEngine.Rules
open RulesEngine.Lists
open RulesEngine.Engine
open RulesEngine.Transactions

/-! ### The engine package -/

/-- The almanac of a run resolves the facts the run was given. -/
def Resolves (facts : Facts) (almanac : Almanac) : Prop :=
  ∀ name value, facts.lookup name = some value → almanac name = .ok value

/-- Providers that answer alike in every run with the facts. -/
structure AnswerAlike (facts : Facts) (p q : FactProviders) : Prop where
  transactionHistory : ∀ params almanac, Resolves facts almanac →
    p.transactionHistory params almanac = q.transactionHistory params almanac
  account : ∀ params almanac, Resolves facts almanac →
    p.account params almanac = q.account params almanac
  listLookup : ∀ params almanac, Resolves facts almanac →
    p.listLookup params almanac = q.listLookup params almanac

/-- A run sees the providers only through their answers. -/
def ResolvesFacts (engineRun : EngineRun) : Prop :=
  ∀ rule facts p q, AnswerAlike facts p q → engineRun rule facts p = engineRun rule facts q

theorem lookup_organizationId (context : EvaluationContext) (organizationId : String) :
    (buildFactsFromContext context organizationId).lookup "organizationId" =
      some (.json (.str organizationId)) := rfl

/-! ### Reads of an organization -/

section Reads

variable {organizationId : String} {a b : Database}

theorem isInList_congr [DriverText] (h : SameView (pgUuid organizationId) a b)
    (listType entityType entityValue : JsValue) (now : Int) :
    Lists.isInList a.listEntries organizationId listType entityType entityValue now =
      Lists.isInList b.listEntries organizationId listType entityType entityValue now := by
  have hread : ∀ (db : Database) (p q : ListEntry → Prop),
      (∃ entry ∈ db.listEntries.rows, (entry.idOrganization = pgUuid organizationId ∧ p entry) ∨
        ((entry.idOrganization = pgUuid organizationId ∧ p entry) ∧ q entry)) ↔
        ∃ entry ∈ ownedBy (pgUuid organizationId) db.listEntries, p entry := by
    intro db p q
    constructor
    · rintro ⟨entry, hmem, ⟨horg, hp⟩ | ⟨⟨horg, hp⟩, -⟩⟩
      · exact ⟨entry, mem_ownedBy.mpr ⟨hmem, horg⟩, hp⟩
      · exact ⟨entry, mem_ownedBy.mpr ⟨hmem, horg⟩, hp⟩
    · rintro ⟨entry, hmem, hp⟩
      obtain ⟨hrow, horg⟩ := mem_ownedBy.mp hmem
      exact ⟨entry, hrow, Or.inl ⟨horg, hp⟩⟩
  unfold Lists.isInList
  simp only [hread, h.listEntries]

theorem selectHistory_congr (h : SameView (pgUuid organizationId) a b) (accountId : String)
    (startDate : Int) (transactionType : Option String) :
    selectHistory a.transactions organizationId accountId startDate transactionType =
      selectHistory b.transactions organizationId accountId startDate transactionType := by
  have hread : ∀ db : Database,
      selectHistory db.transactions organizationId accountId startDate transactionType =
        (ownedBy (pgUuid organizationId) db.transactions).filter fun tx =>
          tx.idAccount = accountId ∧ (∃ datetime ∈ tx.datetime, startDate < datetime) ∧
            tx.isVoided = false ∧ tx.isDeleted = false ∧ Meets transactionType tx.type := by
    intro db
    rw [ownedBy, List.filter_filter]
    unfold selectHistory
    congr 1
    funext tx
    simp only [Bool.decide_and, Bool.and_comm, Bool.and_assoc]
    rfl
  rw [hread a, hread b, h.transactions]

variable [NumberText] [DriverText] [NumberParsing]

theorem answerAlike_of_sameView (h : SameView (pgUuid organizationId) a b)
    (context : EvaluationContext) (maxTimeWindowDays : ℚ) (now : Int) :
    AnswerAlike (buildFactsFromContext context organizationId)
      (createConfiguredEngine ⟨a.transactions, a.listEntries, maxTimeWindowDays, now⟩)
      (createConfiguredEngine ⟨b.transactions, b.listEntries, maxTimeWindowDays, now⟩) := by
  have horg : ∀ almanac, Resolves (buildFactsFromContext context organizationId) almanac →
      almanac "organizationId" = .ok (.json (.str organizationId)) := by
    intro almanac hresolves
    exact hresolves _ _ (lookup_organizationId context organizationId)
  constructor
  · intro params almanac hresolves
    simp only [createConfiguredEngine, horg almanac hresolves, bind, Except.bind, pgText,
      Engine.transactionHistory, selectHistory_congr h]
  · intro params almanac _
    rfl
  · intro params almanac hresolves
    simp only [createConfiguredEngine, horg almanac hresolves, bind, Except.bind, pgText,
      Engine.listLookup, isInList_congr h]

variable {env : Environment}

theorem evaluateAgainst_congr (hengine : ResolvesFacts env.engineRun)
    (h : SameView (pgUuid organizationId) a b) (context : EvaluationContext) (now : Int) :
    evaluateAgainst env a organizationId context now =
      evaluateAgainst env b organizationId context now := by
  funext rule
  exact hengine _ _ _ _ (answerAlike_of_sameView h context env.maxTimeWindowDays now)

end Reads

/-! ### States that look the same -/

/-- Two states that the organization cannot tell apart. -/
structure SameState (organizationId : String) (s t : State) : Prop where
  view : SameView organizationId s.db t.db
  cache : s.cache (getCacheKey organizationId) = t.cache (getCacheKey organizationId)

theorem SameState.trans {organizationId : String} {s t u : State}
    (h : SameState organizationId s t) (h' : SameState organizationId t u) :
    SameState organizationId s u :=
  ⟨h.view.trans h'.view, h.cache.trans h'.cache⟩

section Writes

variable {organizationId : String} {s t : State} {x y : Except Thrown Database}

theorem write_agree (h : SameState organizationId s t) (hxy : Agree (SameView organizationId) x y) :
    (s.write x).2 = (t.write y).2 ∧ SameState organizationId (s.write x).1 (t.write y).1 := by
  rcases hxy.cases with ⟨e, rfl, rfl⟩ | ⟨db, db', rfl, rfl, hview⟩
  · exact ⟨rfl, h⟩
  · exact ⟨rfl, hview, h.cache⟩

theorem writeInvalidating_agree (h : SameState organizationId s t)
    (hxy : Agree (SameView organizationId) x y) :
    (s.writeInvalidating organizationId x).2 = (t.writeInvalidating organizationId y).2 ∧
      SameState organizationId (s.writeInvalidating organizationId x).1
        (t.writeInvalidating organizationId y).1 := by
  rcases hxy.cases with ⟨e, rfl, rfl⟩ | ⟨db, db', rfl, rfl, hview⟩
  · exact ⟨rfl, h⟩
  · refine ⟨rfl, hview, ?_⟩
    simp only [State.writeInvalidating, RedisCache.del_self]

end Writes

section Evaluations

variable {env : Environment} {organizationId : String} {s t : State}

theorem collaborators_congr [NumberText] [DriverText] [NumberParsing]
    (hengine : ResolvesFacts env.engineRun)
    (horg : pgUuid organizationId = organizationId) (h : SameState organizationId s t)
    (context : EvaluationContext) (now : Int) :
    collaborators env s organizationId context now =
      collaborators env t organizationId context now := by
  have hview : SameView (pgUuid organizationId) s.db t.db := horg.symm ▸ h.view
  unfold collaborators
  rw [findEnabledByPriority_congr hview.toSameConfig, getEffectiveConfig_congr hview.toSameConfig,
    evaluateAgainst_congr hengine hview, RedisCache.get, RedisCache.get, h.cache]

theorem evaluated_agree (h : SameState organizationId s t) (c : Collaborators) :
    SameState organizationId (s.evaluated env organizationId c)
      (t.evaluated env organizationId c) := by
  refine ⟨h.view, ?_⟩
  simp only [State.evaluated, cacheAfter]
  cases c.cacheGet with
  | some cached => exact h.cache
  | none =>
      cases loadRules c with
      | error e => exact h.cache
      | ok cached => simp only [RedisCache.setex_self]

theorem evaluated_hidden {other : String} (hne : other ≠ organizationId) (c : Collaborators) :
    SameState organizationId (s.evaluated env other c) s := by
  refine ⟨SameView.refl _ _, ?_⟩
  simp only [State.evaluated, cacheAfter]
  cases c.cacheGet with
  | some cached => rfl
  | none =>
      cases loadRules c with
      | error e => rfl
      | ok cached => exact RedisCache.setex_of_ne _ _ hne.symm

end Evaluations

/-! ### Operations -/

/-- The organization that performs an operation. -/
def Op.organization : Op → Option String
  | .ruleWrite organizationId _ => some organizationId
  | .plainWrite organizationId _ => some organizationId
  | .templateWrite _ => none
  | .evaluate organizationId _ _ => some organizationId
  | .createAndEvaluate organizationId _ _ _ => some organizationId
  | .evaluateRule organizationId _ _ _ => some organizationId
  | .getEffectiveConfig organizationId _ => some organizationId
  | .isInList organizationId _ _ _ _ => some organizationId

/-- The organization is a canonical uuid. -/
def Op.Canonical (op : Op) : Prop := ∀ organizationId ∈ op.organization,
  pgUuid organizationId = organizationId

/-- The operations that stay: the organization's own and those on templates. -/
def visibleTo (organizationId : String) (op : Op) : Bool :=
  op.organization = none ∨ op.organization = some organizationId

def Op.generatedIds : Op → List String
  | .ruleWrite _ write => write.generatedIds
  | .plainWrite _ write => write.generatedIds
  | .templateWrite write => write.generatedIds
  | .createAndEvaluate _ _ id _ => [id]
  | _ => []

/-- The ids generated in the course of the operations are new, each of them. -/
structure FreshIds (ops : List Op) (db : Database) : Prop where
  nodup : (ops.flatMap Op.generatedIds).Nodup
  unused : ∀ id ∈ ops.flatMap Op.generatedIds, ¬ db.Uses id

theorem FreshIds.head {op : Op} {ops : List Op} {db : Database} (h : FreshIds (op :: ops) db) :
    ∀ id ∈ op.generatedIds, ¬ db.Uses id := by
  intro id hid
  apply h.unused id
  rw [List.flatMap_cons]
  exact List.mem_append_left _ hid

theorem FreshIds.tail {op : Op} {ops : List Op} {db : Database} (h : FreshIds (op :: ops) db) :
    FreshIds ops db := by
  obtain ⟨hnodup, hunused⟩ := h
  rw [List.flatMap_cons] at hnodup hunused
  exact ⟨(List.nodup_append.mp hnodup).2.1, fun id hid =>
    hunused id (List.mem_append_right _ hid)⟩

section Unwinding

variable [NumberText] [DriverText] [NumberParsing] {env : Environment}
variable {organizationId : String} {s t : State} {op : Op}

theorem step_uses {id : String} (h : (step env s op).1.db.Uses id) :
    s.db.Uses id ∨ id ∈ op.generatedIds := by
  cases op with
  | ruleWrite o write =>
      cases hresult : write.run o s.db with
      | error e =>
          simp only [step, hresult, State.writeInvalidating] at h
          exact Or.inl h
      | ok db =>
          simp only [step, hresult, State.writeInvalidating] at h
          exact (RuleWrite.commit hresult).uses h
  | plainWrite o write =>
      cases hresult : write.run o s.db with
      | error e =>
          simp only [step, hresult, State.write] at h
          exact Or.inl h
      | ok db =>
          simp only [step, hresult, State.write] at h
          exact (PlainWrite.commit hresult).uses h
  | templateWrite write =>
      cases hresult : write.run s.db with
      | error e =>
          simp only [step, hresult, State.write] at h
          exact Or.inl h
      | ok db =>
          simp only [step, hresult, State.write] at h
          exact TemplateWrite.uses hresult h
  | createAndEvaluate o dto newId now =>
      cases hresult : create o dto newId s.db with
      | error e =>
          simp only [step, hresult] at h
          exact Or.inl h
      | ok db =>
          simp only [step, hresult, State.evaluated] at h
          exact (create_commit hresult).uses h
  | evaluate o context now => exact Or.inl h
  | evaluateRule o ruleId context now => exact Or.inl h
  | getEffectiveConfig o ruleId => exact Or.inl h
  | isInList o listType entityType entityValue now => exact Or.inl h

theorem FreshIds.step {ops : List Op} (h : FreshIds (op :: ops) s.db) :
    FreshIds ops (step env s op).1.db := by
  refine ⟨h.tail.nodup, fun id hid huses => ?_⟩
  rcases step_uses huses with hold | hgenerated
  · exact h.tail.unused id hid hold
  · have hnodup := h.nodup
    rw [List.flatMap_cons] at hnodup
    exact (List.nodup_append.mp hnodup).2.2 id hgenerated id hid rfl

theorem step_hidden (hhidden : visibleTo organizationId op = false) (hop : op.Canonical) :
    SameState organizationId (step env s op).1 s := by
  simp only [visibleTo, decide_eq_false_iff_not, not_or] at hhidden
  obtain ⟨hsome, hne⟩ := hhidden
  obtain ⟨other, horg⟩ := Option.ne_none_iff_exists'.mp hsome
  have hcanonical : pgUuid other = other := hop other horg
  have hother : other ≠ organizationId := fun heq => hne (heq ▸ horg)
  have hframe : ∀ {newIds db}, Commit (pgUuid other) newIds s.db db →
      SameView organizationId db s.db := by
    intro newIds db hcommit
    exact hcommit.frame (hcanonical.symm ▸ hother)
  have hsame : SameState organizationId s s := ⟨SameView.refl _ _, rfl⟩
  cases op with
  | templateWrite write => cases horg
  | ruleWrite o write =>
      cases horg
      cases hresult : write.run other s.db with
      | error e => simpa only [step, hresult, State.writeInvalidating] using hsame
      | ok db =>
          simp only [step, hresult, State.writeInvalidating]
          exact ⟨hframe (RuleWrite.commit hresult), RedisCache.del_of_ne _ hother.symm⟩
  | plainWrite o write =>
      cases horg
      cases hresult : write.run other s.db with
      | error e => simpa only [step, hresult, State.write] using hsame
      | ok db =>
          simp only [step, hresult, State.write]
          exact ⟨hframe (PlainWrite.commit hresult), rfl⟩
  | createAndEvaluate o dto newId now =>
      cases horg
      cases hresult : create other dto newId s.db with
      | error e => simpa only [step, hresult] using hsame
      | ok db =>
          simp only [step, hresult]
          refine SameState.trans (evaluated_hidden hother _) ?_
          exact ⟨hframe (create_commit hresult), rfl⟩
  | evaluate o context now =>
      cases horg
      exact evaluated_hidden hother _
  | evaluateRule o ruleId context now => exact hsame
  | getEffectiveConfig o ruleId => exact hsame
  | isInList o listType entityType entityValue now => exact hsame

/-- An operation that stays ends the same way on states that look the same. -/
theorem step_agree (hengine : ResolvesFacts env.engineRun) (h : SameState organizationId s t)
    (hvisible : visibleTo organizationId op = true) (hop : op.Canonical)
    (hfresh : ∀ id ∈ op.generatedIds, ¬ s.db.Uses id ∧ ¬ t.db.Uses id) :
    (step env s op).2 = (step env t op).2 ∧
      SameState organizationId (step env s op).1 (step env t op).1 := by
  simp only [visibleTo, decide_eq_true_eq] at hvisible
  rcases hvisible with hnone | hown
  · cases op with
    | templateWrite write => exact write_agree h (TemplateWrite.agree h.view write)
    | _ => cases hnone
  · have horg : pgUuid organizationId = organizationId := hop _ hown
    have hview : SameView (pgUuid organizationId) s.db t.db := horg.symm ▸ h.view
    cases op with
    | templateWrite write => cases hown
    | ruleWrite o write =>
        cases hown
        have hwrite := RuleWrite.agree hview write hfresh
        rw [horg] at hwrite
        exact writeInvalidating_agree h hwrite
    | plainWrite o write =>
        cases hown
        have hwrite := PlainWrite.agree hview write hfresh
        rw [horg] at hwrite
        exact write_agree h hwrite
    | evaluate o context now =>
        cases hown
        simp only [step, collaborators_congr hengine horg h]
        exact ⟨trivial, evaluated_agree h _⟩
    | createAndEvaluate o dto newId now =>
        cases hown
        obtain ⟨hs, ht⟩ := hfresh newId List.mem_cons_self
        have hcreate := create_agree hview dto (mt Database.uses_transactions hs)
          (mt Database.uses_transactions ht)
        simp only [step]
        rcases hcreate.cases with ⟨e, hx, hy⟩ | ⟨db, db', hx, hy, hdb⟩
        · rw [hx, hy]
          exact ⟨rfl, h⟩
        · have hcreated : SameState organizationId { s with db } { t with db := db' } :=
            ⟨horg ▸ hdb, h.cache⟩
          simp only [hx, hy, collaborators_congr hengine horg hcreated]
          exact ⟨trivial, evaluated_agree hcreated _⟩
    | evaluateRule o ruleId context now =>
        cases hown
        simp only [step, findRule_congr hview.toSameConfig,
          getEffectiveConfig_congr hview.toSameConfig, evaluateAgainst_congr hengine hview]
        exact ⟨trivial, h⟩
    | getEffectiveConfig o ruleId =>
        cases hown
        simp only [step, getEffectiveConfigById_congr hview.toSameConfig]
        exact ⟨trivial, h⟩
    | isInList o listType entityType entityValue now =>
        cases hown
        simp only [step, isInList_congr hview]
        exact ⟨trivial, h⟩

end Unwinding

/-! ### Runs -/

/-- The states of the two runs before the operations that are still to come. -/
structure Related (organizationId : String) (ops : List Op) (s t : State) : Prop
    extends SameState organizationId s t where
  canonical : ∀ op ∈ ops, op.Canonical
  left : FreshIds ops s.db
  right : FreshIds ops t.db

/-- **Noninterference.**  What the organization observes is what it observes in
    the run from which the operations of all other organizations are removed. -/
theorem evaluation_noninterference [NumberText] [DriverText] [NumberParsing] (env : Environment)
    (hengine : ResolvesFacts env.engineRun) (organizationId : String) (s : State) (ops : List Op)
    (hcanonical : ∀ op ∈ ops, op.Canonical) (hfresh : FreshIds ops s.db) :
    visibleOutputs (step env) (visibleTo organizationId) s ops =
      visibleOutputs (step env) (visibleTo organizationId) s
        (ops.filter (visibleTo organizationId)) := by
  apply visibleOutputs_purge (R := Related organizationId)
  · intro op ops s t hvisible h
    have hop : op.Canonical := h.canonical op List.mem_cons_self
    obtain ⟨hout, hsame⟩ := step_agree hengine h.toSameState hvisible hop
      fun id hid => ⟨h.left.head id hid, h.right.head id hid⟩
    exact ⟨hout, hsame, fun other hother => h.canonical other (List.mem_cons_of_mem _ hother),
      h.left.step, h.right.step⟩
  · intro op ops s t hhidden h
    have hop : op.Canonical := h.canonical op List.mem_cons_self
    exact ⟨(step_hidden hhidden hop).trans h.toSameState,
      fun other hother => h.canonical other (List.mem_cons_of_mem _ hother),
      h.left.step, h.right.tail⟩
  · exact ⟨⟨SameView.refl _ _, rfl⟩, hcanonical, hfresh, hfresh⟩

/-! ### A sample run -/

/-- An engine for rules with the one condition that a list lookup finds
    something. -/
def lookupEngine : EngineRun := fun rule facts providers =>
  match rule.conditions with
  | some (.obj [("all", .arr [.obj [("fact", .str "listLookup"), ("params", params),
      ("operator", .str "equal"), ("value", .bool true)]])]) => do
        let found ← providers.listLookup params fun name =>
          .ok ((facts.lookup name).getD .undefined)
        match found with
        | .json (.bool true) =>
            return [{ type := (Json.prop? rule.event "type").getD .null
                      params := Json.prop? rule.event "params" }]
        | _ => return []
  | _ => .error (.error "Unknown condition")

theorem resolvesFacts_lookupEngine : ResolvesFacts lookupEngine := by
  intro rule facts p q halike
  have hresolves : Resolves facts fun name => .ok ((facts.lookup name).getD .undefined) := by
    intro name value hlookup
    simp only [hlookup, Option.getD_some]
  unfold lookupEngine
  split
  · rw [halike.listLookup _ _ hresolves]
  · rfl

def lookupEnvironment : Environment := { sampleEnvironment with engineRun := lookupEngine }

/-- A rule that reports transactions from blacklisted countries. -/
def countryRule : CreateRuleDto where
  idTemplate := .absent
  name := "country"
  enabled := .absent
  priority := .absent
  config := .value
    [("conditions", .obj [("all", .arr [.obj [("fact", .str "listLookup"),
        ("params", .obj [("listType", .str "BLACKLIST"), ("entityType", .str "COUNTRY"),
          ("value", .str "US")]),
        ("operator", .str "equal"), ("value", .bool true)]])]),
      ("event", .obj [("type", .str "alert")])]

/-- Two organizations with the same rule, of which one blacklists the country. -/
def blacklistRun : List Op :=
  [.ruleWrite "other" (.createRule countryRule "ra" 0),
    .ruleWrite "org" (.createRule countryRule "rb" 0),
    .plainWrite "other" (.createListEntry ⟨.BLACKLIST, .COUNTRY, "US", none⟩ "entry"),
    .evaluate "other" sampleContext 1,
    .evaluate "org" sampleContext 2]

section Sample

attribute [local instance] NumberText.integers DriverText.stringsOnly NumberParsing.never

theorem evaluation_noninterference_sample :
    visibleOutputs (step lookupEnvironment) (visibleTo "org") State.initial blacklistRun =
      visibleOutputs (step lookupEnvironment) (visibleTo "org") State.initial
        (blacklistRun.filter (visibleTo "org")) := by
  apply evaluation_noninterference lookupEnvironment resolvesFacts_lookupEngine
  · have horg : pgUuid "org" = "org" ∧ pgUuid "other" = "other" := by decide
    simp [blacklistRun, Op.Canonical, Op.organization, horg]
  · exact ⟨by decide, by decide⟩

/-- Its own entry is what the other organization's evaluation reports. -/
example : (visibleOutputs (step lookupEnvironment) (visibleTo "other") State.initial
    blacklistRun).map (fun
      | .evaluation result => result.events.length
      | _ => 0) = [0, 0, 1] := by decide +kernel

end Sample

end RulesEngine
