import RulesEngine.Application
import RulesEngine.TenantWrites
import RulesEngine.Foundations.LookAside
import RulesEngine.Foundations.TransitionSystem

/-!
# The rule cache, one operation at a time

A cache entry is coherent when it holds the rule list the database gives its
organization now.  Evaluations store coherent entries, and a write to rules or
overrides deletes the entry of the organization it is made for, the only one
whose list it can change.  A template write deletes nothing, so the entries of
all organizations that use the template are left behind:
`coherent_iff_leavesCached` is the exact condition, `cache_transparent` what it
means for the evaluations.
-/

namespace RulesEngine

open RulesEngine.Foundations
open RulesEngine.Rules
open RulesEngine.Lists
open RulesEngine.Engine
open RulesEngine.Transactions

/-! ### A new template is used by no rule yet -/

theorem findTemplate_create {dto : CreateRuleTemplateDto} {newId : String} {db db' : Database}
    (h : createTemplate dto newId db = .ok db') {id : String} {template : RuleTemplate}
    (hfound : findTemplate db id = .ok template) : findTemplate db' id = .ok template := by
  unfold createTemplate at h
  obtain ⟨-, -, h⟩ := bind_eq_ok.mp h
  obtain ⟨table, hinsert, h⟩ := bind_eq_ok.mp h
  cases h
  unfold insertRow at hinsert
  split at hinsert
  · cases hinsert
  · rename_i hfresh
    cases hinsert
    unfold findTemplate at hfound ⊢
    cases hget : db.templates.get? (pgUuid id) with
    | none => simp [hget] at hfound
    | some found =>
        have hne : pgUuid id ≠ newId := by
          intro heq
          obtain ⟨hmem, hid⟩ := Table.mem_of_get? hget
          exact hfresh (List.mem_map.mpr ⟨found, hmem, hid.trans heq⟩)
        rw [Table.get?_put_of_ne _ hne, hget]
        rw [hget] at hfound
        exact hfound

theorem overrides_createTemplate {dto : CreateRuleTemplateDto} {newId : String} {db db' : Database}
    (h : createTemplate dto newId db = .ok db') :
    db'.overrides = db.overrides ∧ db'.rules = db.rules := by
  unfold createTemplate at h
  obtain ⟨-, -, h⟩ := bind_eq_ok.mp h
  obtain ⟨table, -, h⟩ := bind_eq_ok.mp h
  cases h
  exact ⟨rfl, rfl⟩

theorem getEffectiveConfig_createTemplate {dto : CreateRuleTemplateDto} {newId : String}
    {db db' : Database} (h : createTemplate dto newId db = .ok db') {organizationId : String}
    {rule : Rule} {config : JsonObject}
    (hconfig : Rules.getEffectiveConfig db organizationId rule = .ok config) :
    Rules.getEffectiveConfig db' organizationId rule = .ok config := by
  unfold Rules.getEffectiveConfig at hconfig ⊢
  cases htemplate : rule.idTemplate with
  | none => simpa [htemplate] using hconfig
  | some idTemplate =>
      by_cases hempty : idTemplate = ""
      · simpa [htemplate, hempty] using hconfig
      · simp only [htemplate, if_neg hempty] at hconfig ⊢
        obtain ⟨merged, hmerged, hresult⟩ := bind_eq_ok.mp hconfig
        refine bind_eq_ok.mpr ⟨merged, ?_, hresult⟩
        unfold getMergedConfig at hmerged ⊢
        obtain ⟨template, hfound, hmerged⟩ := bind_eq_ok.mp hmerged
        refine bind_eq_ok.mpr ⟨template, findTemplate_create h hfound, ?_⟩
        unfold findByTemplate at hmerged ⊢
        rw [(overrides_createTemplate h).1]
        exact hmerged

theorem derivedRules_createTemplate {dto : CreateRuleTemplateDto} {newId : String}
    {db db' : Database} (h : createTemplate dto newId db = .ok db') {organizationId : String}
    {cached : List CachedRule} (hderived : derivedRules db organizationId = .ok cached) :
    derivedRules db' organizationId = .ok cached := by
  have hrules : findEnabledByPriority db' organizationId =
      findEnabledByPriority db organizationId := by
    unfold findEnabledByPriority
    rw [(overrides_createTemplate h).2]
  unfold derivedRules
  rw [hrules]
  exact buildCachedRules_mono (fun _ _ => getEffectiveConfig_createTemplate h) hderived

/-! ### Coherence -/

/-- Every entry holds the list the database gives its organization now. -/
def Coherent (s : State) : Prop :=
  ∀ organizationId entry, s.cache (getCacheKey organizationId) = some entry →
    derivedRules s.db organizationId = .ok entry.value.rules

/-- The state as a look-aside cache of the derived rule lists, which announces
    nothing. -/
def State.lookAside (s : State) :
    LookAside String Database (Except Thrown (List CachedRule)) where
  source := s.db
  entry := fun organizationId =>
    (s.cache (getCacheKey organizationId)).map fun entry => .ok entry.value.rules
  announced := fun _ => False

theorem coherent_iff_settled {s : State} : Coherent s ↔ s.lookAside.Settled derivedRules := by
  rw [LookAside.settled_iff_of_quiet fun _ h => h]
  constructor
  · intro h organizationId rules hentry
    obtain ⟨entry, hcached, rfl⟩ := Option.map_eq_some_iff.mp hentry
    exact h organizationId entry hcached
  · intro h organizationId entry hcached
    exact h organizationId _ (Option.map_eq_some_iff.mpr ⟨entry, hcached, rfl⟩)

theorem coherent_initial : Coherent State.initial := fun _ _ h => absurd h (by simp [State.initial])

/-- A template update or removal leaves the list of every organization with an
    entry as it was; and so does a write made under one spelling of an
    organization's uuid for an entry under another spelling. -/
def LeavesCached (s : State) : Op → Prop
  | .templateWrite (.update id dto) => ∀ db, updateTemplate id dto s.db = .ok db →
      ∀ organizationId, s.cache (getCacheKey organizationId) ≠ none →
        derivedRules db organizationId = derivedRules s.db organizationId
  | .templateWrite (.remove id) => ∀ db, removeTemplate id s.db = .ok db →
      ∀ organizationId, s.cache (getCacheKey organizationId) ≠ none →
        derivedRules db organizationId = derivedRules s.db organizationId
  | .ruleWrite organizationId write => ∀ db, write.run organizationId s.db = .ok db →
      ∀ other, other ≠ organizationId → pgUuid other = pgUuid organizationId →
        s.cache (getCacheKey other) ≠ none →
          derivedRules db other = derivedRules s.db other
  | _ => True

/-- With the cache untouched, coherence survives exactly when the lists of the
    organizations with an entry do. -/
theorem coherent_of_db_iff {s : State} (hs : Coherent s) (db : Database) :
    Coherent { s with db } ↔ ∀ organizationId, s.cache (getCacheKey organizationId) ≠ none →
      derivedRules db organizationId = derivedRules s.db organizationId := by
  rw [coherent_iff_settled]
  refine (LookAside.settled_change_iff (coherent_iff_settled.mp hs) db fun _ h => h).trans ?_
  simp only [State.lookAside, ne_eq, Option.map_eq_none_iff, not_false_eq_true, forall_const]

theorem coherent_del {s : State} (hs : Coherent s) (organizationId : String) :
    Coherent { s with cache := s.cache.del (getCacheKey organizationId) } := by
  rw [coherent_iff_settled] at *
  apply LookAside.settled_clear (k := organizationId) hs
  · simp only [RedisCache.del_self, Option.map_none]
  · intro other hne
    simp only [State.lookAside, RedisCache.del_of_ne _ hne]
  · exact fun _ _ h => h

theorem coherent_setex {s : State} (hs : Coherent s) {organizationId : String} {entry : CacheEntry}
    (hentry : derivedRules s.db organizationId = .ok entry.value.rules) :
    Coherent { s with cache := s.cache.setex (getCacheKey organizationId) entry } := by
  rw [coherent_iff_settled] at *
  refine (LookAside.settled_store_iff hs (k := organizationId) ?_ ?_).mpr (Or.inl hentry)
  · simp only [RedisCache.setex_self, Option.map_some]
  · intro other hne
    simp only [State.lookAside, RedisCache.setex_of_ne _ _ hne]

theorem coherent_ruleWrite_iff {s : State} (hs : Coherent s) {organizationId : String}
    {write : RuleWrite} {db : Database} (h : write.run organizationId s.db = .ok db) :
    Coherent { db, cache := s.cache.del (getCacheKey organizationId) } ↔
      ∀ other, other ≠ organizationId → pgUuid other = pgUuid organizationId →
        s.cache (getCacheKey other) ≠ none → derivedRules db other = derivedRules s.db other := by
  refine (coherent_of_db_iff (coherent_del hs organizationId) db).trans ?_
  constructor
  · intro hsame other hne _ hentry
    exact hsame other (by simpa only [RedisCache.del_of_ne _ hne] using hentry)
  · intro hleaves other hentry
    have hne : other ≠ organizationId := by
      rintro rfl
      exact hentry (RedisCache.del_self _)
    simp only [RedisCache.del_of_ne _ hne] at hentry
    by_cases huuid : pgUuid other = pgUuid organizationId
    · exact hleaves other hne huuid hentry
    · exact derivedRules_congr ((RuleWrite.commit h).frame (Ne.symm huuid)).toSameConfig

section Steps

variable [NumberText] [DriverText] [NumberParsing] (env : Environment)

theorem loadRules_collaborators (s : State) (organizationId : String) (context : EvaluationContext)
    (now : Int) :
    loadRules (collaborators env s organizationId context now) =
      (derivedRules s.db organizationId).map fun rules => { rules, cachedAt := now } := rfl

theorem coherent_evaluated {s : State} (hs : Coherent s) (organizationId : String)
    (context : EvaluationContext) (now : Int) :
    Coherent (s.evaluated env organizationId
      (collaborators env s organizationId context now)) := by
  simp only [State.evaluated, cacheAfter]
  cases (collaborators env s organizationId context now).cacheGet with
  | some cached => exact hs
  | none =>
      rw [loadRules_collaborators]
      cases hderived : derivedRules s.db organizationId with
      | error e => exact hs
      | ok rules => exact coherent_setex hs hderived

theorem coherent_step_iff {s : State} (hs : Coherent s) (op : Op) :
    Coherent (step env s op).1 ↔ LeavesCached s op := by
  cases op with
  | ruleWrite organizationId write =>
      simp only [step, LeavesCached]
      cases hresult : write.run organizationId s.db with
      | error e => simp [State.writeInvalidating, hs]
      | ok db =>
          simp only [State.writeInvalidating, Except.ok.injEq, forall_eq']
          exact coherent_ruleWrite_iff hs hresult
  | plainWrite organizationId write =>
      refine ⟨fun _ => trivial, fun _ => ?_⟩
      simp only [step]
      cases hresult : write.run organizationId s.db with
      | error e => exact hs
      | ok db =>
          refine (coherent_of_db_iff hs db).mpr ?_
          intro other _
          exact derivedRules_congr (PlainWrite.sameConfig hresult (pgUuid other))
  | templateWrite write =>
      simp only [step]
      cases write with
      | create dto id =>
          refine ⟨fun _ => trivial, fun _ => ?_⟩
          cases hresult : (TemplateWrite.create dto id).run s.db with
          | error e => exact hs
          | ok db =>
              intro other entry hentry
              exact derivedRules_createTemplate hresult (hs other entry hentry)
      | update id dto =>
          simp only [TemplateWrite.run, LeavesCached]
          cases hresult : updateTemplate id dto s.db with
          | error e => simp [State.write, hs]
          | ok db =>
              simp only [State.write, Except.ok.injEq, forall_eq']
              exact coherent_of_db_iff hs db
      | remove id =>
          simp only [TemplateWrite.run, LeavesCached]
          cases hresult : removeTemplate id s.db with
          | error e => simp [State.write, hs]
          | ok db =>
              simp only [State.write, Except.ok.injEq, forall_eq']
              exact coherent_of_db_iff hs db
  | evaluate organizationId context now =>
      exact ⟨fun _ => trivial, fun _ => coherent_evaluated env hs organizationId context now⟩
  | createAndEvaluate organizationId dto id now =>
      refine ⟨fun _ => trivial, fun _ => ?_⟩
      simp only [step]
      cases hresult : create organizationId dto id s.db with
      | error e => exact hs
      | ok db =>
          have hcreated : Coherent { s with db } := by
            refine (coherent_of_db_iff hs db).mpr ?_
            intro other _
            exact derivedRules_congr (create_sameConfig hresult (pgUuid other))
          exact coherent_evaluated env hcreated organizationId (createdContext id dto) now
  | evaluateRule => exact ⟨fun _ => trivial, fun _ => hs⟩
  | getEffectiveConfig => exact ⟨fun _ => trivial, fun _ => hs⟩
  | isInList => exact ⟨fun _ => trivial, fun _ => hs⟩

/-- **The exact condition.**  The cache is coherent throughout a run if and only
    if every operation leaves the cached lists as they were. -/
theorem coherent_iff_leavesCached (ops : List Op) :
    EveryState (execOp env) Coherent State.initial ops ↔
      EveryStep (execOp env) LeavesCached State.initial ops := by
  apply everyState_iff_everyStep (J := fun _ => True)
  · intro s op t _ _
    trivial
  · intro s op h
    cases h
  · intro s op t _ hs h
    cases h
    exact coherent_step_iff env hs op
  · trivial
  · exact coherent_initial

/-! ### The evaluations -/

/-- An evaluation uses the list the database derives, so it ends as it would
    without the cache. -/
def UsesDerived (s : State) (organizationId : String) (context : EvaluationContext)
    (now : Int) : Prop :=
  let c := collaborators env s organizationId context now
  (getCachedRules c).map CachedRules.rules = derivedRules s.db organizationId ∧
    Engine.evaluate c = Engine.evaluate { c with clientGet := .ok none }

/-- The evaluation an operation makes, if any, uses the derived list. -/
def Transparent (s : State) : Op → Prop
  | .evaluate organizationId context now => UsesDerived env s organizationId context now
  | .createAndEvaluate organizationId dto id now => ∀ db,
      create organizationId dto id s.db = .ok db →
        UsesDerived env { s with db } organizationId (createdContext id dto) now
  | _ => True

theorem usesDerived_of_coherent {s : State} (hs : Coherent s) (organizationId : String)
    (context : EvaluationContext) (now : Int) : UsesDerived env s organizationId context now := by
  have hload : ∀ c : Collaborators, loadRules c =
      (derivedRules s.db organizationId).map (fun rules => { rules, cachedAt := now }) →
      (loadRules c).map CachedRules.rules = derivedRules s.db organizationId := by
    intro c h
    rw [h]
    cases derivedRules s.db organizationId <;> rfl
  have hrules : (getCachedRules (collaborators env s organizationId context now)).map
      CachedRules.rules = derivedRules s.db organizationId := by
    unfold getCachedRules
    cases hget : (collaborators env s organizationId context now).cacheGet with
    | none => exact hload _ (loadRules_collaborators env s organizationId context now)
    | some cached =>
        simp only [Collaborators.cacheGet, collaborators, RedisCache.get, if_true] at hget
        cases hentry : s.cache (getCacheKey organizationId) with
        | none => simp [hentry] at hget
        | some entry =>
            by_cases hlive : now < entry.expiresAt
            · simp only [hentry, hlive, if_true, Option.some.injEq] at hget
              subst hget
              exact (hs organizationId entry hentry).symm
            · simp [hentry, hlive] at hget
  refine ⟨hrules, evaluate_congr (hrules.trans ?_) rfl⟩
  exact (hload _ (loadRules_collaborators env s organizationId context now)).symm

theorem transparent_of_coherent {s : State} (hs : Coherent s) (op : Op) : Transparent env s op := by
  cases op with
  | evaluate organizationId context now => exact usesDerived_of_coherent env hs _ _ _
  | createAndEvaluate organizationId dto id now =>
      intro db hdb
      have hcreated : Coherent { s with db } := by
        refine (coherent_of_db_iff hs db).mpr ?_
        intro other _
        exact derivedRules_congr (create_sameConfig hdb (pgUuid other))
      exact usesDerived_of_coherent env hcreated _ _ _
  | ruleWrite => trivial
  | plainWrite => trivial
  | templateWrite => trivial
  | evaluateRule => trivial
  | getEffectiveConfig => trivial
  | isInList => trivial

/-- **Transparency.**  In a run whose template updates and removals leave the
    cached lists as they were, every evaluation uses the rule list the database
    holds at that moment. -/
theorem cache_transparent {ops : List Op}
    (hleaves : EveryStep (execOp env) LeavesCached State.initial ops) :
    EveryStep (execOp env) (Transparent env) State.initial ops := by
  refine everyStep_of_invariant (I := Coherent) ?_ ?_ coherent_initial hleaves
  · intro s op t hs hop h
    cases h
    exact (coherent_step_iff env hs op).mpr hop
  · intro s op hs _
    exact transparent_of_coherent env hs op

end Steps

attribute [local instance] NumberText.integers DriverText.stringsOnly NumberParsing.never

/-- A rule is created from a template and evaluated, first from the database
    and then from the cache. -/
def cachedRun : List Op :=
  [.templateWrite (.create ⟨"base", .absent⟩ "t"),
    .ruleWrite "org" (.createRule inheritingRule "r" 0),
    .evaluate "org" sampleContext 1,
    .evaluate "org" sampleContext 2]

theorem cache_transparent_sample :
    EveryStep (execOp sampleEnvironment) (Transparent sampleEnvironment) State.initial
      cachedRun := by
  apply cache_transparent sampleEnvironment
  refine ⟨trivial, fun t ht => ⟨?_, fun _ _ => ⟨trivial, fun _ _ => ⟨trivial, fun _ _ => trivial⟩⟩⟩⟩
  cases ht
  intro db _ other _ _ hentry
  exact absurd rfl hentry

/-- The template changes while the rule list is cached. -/
def staleTemplate : List Op :=
  [.templateWrite (.create ⟨"base", .absent⟩ "t"),
    .ruleWrite "org" (.createRule inheritingRule "r" 0),
    .evaluate "org" sampleContext 1,
    .templateWrite (.update "t" ⟨.absent, .value [("timeWindow", .str "1h")]⟩)]

/-- The next evaluation uses the configuration without the new property. -/
theorem stale_template_evaluated :
    ∃ s, runFrom (execOp sampleEnvironment) State.initial staleTemplate = some s ∧
      (getCachedRules (collaborators sampleEnvironment s "org" sampleContext 2)).map
        (fun cached => cached.rules.map fun rule => rule.config.length) = .ok [0] ∧
      (derivedRules s.db "org").map (fun rules => rules.map fun rule => rule.config.length) =
        .ok [1] := by
  have hfinal : (runFrom (execOp sampleEnvironment) State.initial staleTemplate).map (fun s =>
      ((getCachedRules (collaborators sampleEnvironment s "org" sampleContext 2)).map
          (fun cached => cached.rules.map fun rule => rule.config.length),
        (derivedRules s.db "org").map (fun rules => rules.map fun rule => rule.config.length))) =
      some (.ok [0], .ok [1]) := by
    decide +kernel
  obtain ⟨s, hrun, hvalues⟩ := Option.map_eq_some_iff.mp hfinal
  simp only [Prod.mk.injEq] at hvalues
  exact ⟨s, hrun, hvalues.1, hvalues.2⟩

end RulesEngine
