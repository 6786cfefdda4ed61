import RulesEngine.RuleConditions
import RulesEngine.TransactionsService

/-!
# The application

One database, one Redis cache, and the operations of all services run one at a
time: each write with the invalidation it emits, each evaluation with its cache
lookup and, after a miss, its `SETEX`.  An entry of the cache lives until its TTL
has passed on the clock of the reading operation.  Generated ids and clock
readings are part of the operations.

json-rules-engine and the configuration of the process are the `Environment`.
-/

namespace RulesEngine

open RulesEngine.Foundations
open RulesEngine.Rules
open RulesEngine.Lists
open RulesEngine.Engine
open RulesEngine.Transactions

structure Environment where
  engineRun : EngineRun
  maxTimeWindowDays : ℚ
  ruleCacheTtlMs : Int

/-! ### Redis -/

structure CacheEntry where
  value : CachedRules
  expiresAt : Int

/-- The keys of Redis, with their live or expired entries. -/
abbrev RedisCache := String → Option CacheEntry

/-- `GET` at a time: an entry counts before its expiry. -/
def RedisCache.get (cache : RedisCache) (key : String) (now : Int) : Option CachedRules :=
  match cache key with
  | some entry => if now < entry.expiresAt then some entry.value else none
  | none => none

def RedisCache.setex (cache : RedisCache) (key : String) (entry : CacheEntry) : RedisCache :=
  fun other => if other = key then some entry else cache other

def RedisCache.del (cache : RedisCache) (key : String) : RedisCache :=
  fun other => if other = key then none else cache other

def getCacheKey (organizationId : String) : String := "rules:engine:" ++ organizationId

theorem getCacheKey_inj {a b : String} : getCacheKey a = getCacheKey b ↔ a = b := by
  unfold getCacheKey
  exact String.append_right_inj _

section Keys

variable (cache : RedisCache) {organizationId other : String}

@[simp] theorem RedisCache.del_self :
    cache.del (getCacheKey organizationId) (getCacheKey organizationId) = none :=
  if_pos rfl

theorem RedisCache.del_of_ne (h : other ≠ organizationId) :
    cache.del (getCacheKey organizationId) (getCacheKey other) = cache (getCacheKey other) :=
  if_neg fun heq => h (getCacheKey_inj.mp heq)

@[simp] theorem RedisCache.setex_self (entry : CacheEntry) :
    cache.setex (getCacheKey organizationId) entry (getCacheKey organizationId) = some entry :=
  if_pos rfl

theorem RedisCache.setex_of_ne (entry : CacheEntry) (h : other ≠ organizationId) :
    cache.setex (getCacheKey organizationId) entry (getCacheKey other) =
      cache (getCacheKey other) :=
  if_neg fun heq => h (getCacheKey_inj.mp heq)

end Keys

structure State where
  db : Database
  cache : RedisCache

def State.initial : State := ⟨Database.empty, fun _ => none⟩

/-! ### Operations -/

/-- The writes that announce a cache invalidation. -/
inductive RuleWrite where
  | createRule (dto : CreateRuleDto) (id : String) (createdAt : Int)
  | updateRule (id : String) (dto : UpdateRuleDto)
  | removeRule (id : String)
  | createOverride (dto : CreateTemplateOverrideDto) (id : String)
  | updateOverride (id : String) (dto : UpdateTemplateOverrideDto)
  | removeOverride (id : String)

def RuleWrite.run (organizationId : String) : RuleWrite → Database → Except Thrown Database
  | .createRule dto id createdAt => Rules.createRule organizationId dto id createdAt
  | .updateRule id dto => Rules.updateRule organizationId id dto
  | .removeRule id => Rules.removeRule organizationId id
  | .createOverride dto id => Rules.createOverride organizationId dto id
  | .updateOverride id dto => Rules.updateOverride organizationId id dto
  | .removeOverride id => Rules.removeOverride organizationId id

/-- The writes on which no cached value depends. -/
inductive PlainWrite where
  | createListEntry (dto : CreateListEntryDto) (id : String)
  | removeListEntry (id : String)
  | createTransaction (dto : CreateTransactionDto) (id : String)
  | updateTransaction (id : String) (dto : UpdateTransactionDto)

def PlainWrite.run (organizationId : String) : PlainWrite → Database → Except Thrown Database
  | .createListEntry dto id => Lists.createListEntry organizationId dto id
  | .removeListEntry id => Lists.removeListEntry organizationId id
  | .createTransaction dto id => create organizationId dto id
  | .updateTransaction id dto => update organizationId id dto

/-- The writes of `RuleTemplatesService`, which belong to no organization. -/
inductive TemplateWrite where
  | create (dto : CreateRuleTemplateDto) (id : String)
  | update (id : String) (dto : UpdateRuleTemplateDto)
  | remove (id : String)

def TemplateWrite.run : TemplateWrite → Database → Except Thrown Database
  | .create dto id => createTemplate dto id
  | .update id dto => updateTemplate id dto
  | .remove id => removeTemplate id

inductive Op where
  | ruleWrite (organizationId : String) (write : RuleWrite)
  | plainWrite (organizationId : String) (write : PlainWrite)
  | templateWrite (write : TemplateWrite)
  | evaluate (organizationId : String) (context : EvaluationContext) (now : Int)
  | createAndEvaluate (organizationId : String) (dto : CreateTransactionDto) (id : String)
      (now : Int)
  | evaluateRule (organizationId ruleId : String) (context : EvaluationContext) (now : Int)
  | getEffectiveConfig (organizationId ruleId : String)
  | isInList (organizationId : String) (listType entityType entityValue : JsValue) (now : Int)

/-- What the caller gets back. -/
inductive Output where
  | done
  | failed (e : Thrown)
  | evaluation (result : EvaluationResult)
  | config (outcome : Except Thrown JsonObject)
  | membership (outcome : Except Thrown Bool)

/-! ### Steps -/

/-- A write that leaves the cache alone. -/
def State.write (s : State) : Except Thrown Database → State × Output
  | .ok db => ({ s with db }, .done)
  | .error e => (s, .failed e)

/-- A write followed by the invalidation it emits. -/
def State.writeInvalidating (s : State) (organizationId : String) :
    Except Thrown Database → State × Output
  | .ok db => ({ db, cache := s.cache.del (getCacheKey organizationId) }, .done)
  | .error e => (s, .failed e)

section Steps

variable [NumberText] [DriverText] [NumberParsing] (env : Environment)

/-- The evaluation of one rule against the tables of the state. -/
def evaluateAgainst (db : Database) (organizationId : String) (context : EvaluationContext)
    (now : Int) : CachedRule → Except Thrown (List EngineEvent) :=
  evaluateSingleRule env.engineRun
    (createConfiguredEngine
      { transactions := db.transactions
        listEntries := db.listEntries
        maxTimeWindowDays := env.maxTimeWindowDays
        now })
    context organizationId

/-- The collaborators of an evaluation, none of which fails. -/
def collaborators (s : State) (organizationId : String) (context : EvaluationContext)
    (now : Int) : Collaborators where
  isConnected := true
  clientGet := .ok (s.cache.get (getCacheKey organizationId) now)
  findEnabledByPriority := .ok (findEnabledByPriority s.db organizationId)
  getEffectiveConfig := Rules.getEffectiveConfig s.db organizationId
  evaluateSingleRule := evaluateAgainst env s.db organizationId context now
  now := now

/-- The cache after `getCachedRules`: a successful load is stored. -/
def cacheAfter (s : State) (organizationId : String) (c : Collaborators) : RedisCache :=
  match c.cacheGet with
  | some _ => s.cache
  | none =>
      match loadRules c with
      | .ok cached =>
          s.cache.setex (getCacheKey organizationId)
            { value := cached, expiresAt := c.now + env.ruleCacheTtlMs }
      | .error _ => s.cache

/-- The state and the collaborators of an evaluation after it has used them. -/
def State.evaluated (s : State) (organizationId : String) (c : Collaborators) : State :=
  { s with cache := cacheAfter env s organizationId c }

def step (s : State) : Op → State × Output
  | .ruleWrite organizationId write =>
      s.writeInvalidating organizationId (write.run organizationId s.db)
  | .plainWrite organizationId write => s.write (write.run organizationId s.db)
  | .templateWrite write => s.write (write.run s.db)
  | .evaluate organizationId context now =>
      let c := collaborators env s organizationId context now
      (s.evaluated env organizationId c, .evaluation (Engine.evaluate c))
  | .createAndEvaluate organizationId dto id now =>
      match create organizationId dto id s.db with
      | .error e => (s, .failed e)
      | .ok db =>
          let created : State := { s with db }
          let c := collaborators env created organizationId (createdContext id dto) now
          (created.evaluated env organizationId c,
            .evaluation (evaluateCreated c organizationId ⟨id, dto.idAccount, dto.datetime⟩))
  | .evaluateRule organizationId ruleId context now =>
      (s, .evaluation (Engine.evaluateRule ruleId (findRule s.db organizationId ruleId)
        (Rules.getEffectiveConfig s.db organizationId)
        (evaluateAgainst env s.db organizationId context now)))
  | .getEffectiveConfig organizationId ruleId =>
      (s, .config (getEffectiveConfigById s.db organizationId ruleId))
  | .isInList organizationId listType entityType entityValue now =>
      (s, .membership
        (Lists.isInList s.db.listEntries organizationId listType entityType entityValue now))

/-- The state component of a step, as a run executes it. -/
def execOp (s : State) (op : Op) : Option State := some (step env s op).1

end Steps

/-- The list `findEnabledByPriority` and `getEffectiveConfig` compute from the
    database. -/
def derivedRules (db : Database) (organizationId : String) : Except Thrown (List CachedRule) :=
  buildCachedRules (Rules.getEffectiveConfig db organizationId)
    (findEnabledByPriority db organizationId)

/-! ### Sample values -/

/-- An engine that judges conditions by the runtime facts. -/
def sampleEnvironment : Environment where
  engineRun := factsOnlyRun
  maxTimeWindowDays := 30
  ruleCacheTtlMs := 300000

def sampleDto : CreateTransactionDto where
  idAccount := "acc"
  amount := 100
  amountNormalized := 100
  currency := "USD"
  type := "CASH_IN"
  subType := .absent
  datetime := some 0
  date := "1970-01-01"
  day := some "1970-01-01"
  isVoided := .absent
  isBlocked := .absent
  isDeleted := .absent
  origin := .absent
  data := .absent
  externalCode := .absent
  country := .absent
  counterpartyId := .absent
  counterpartyCountry := .absent

def sampleContext : EvaluationContext := createdContext "tx" sampleDto

/-- A rule that inherits its configuration from template `t`. -/
def inheritingRule : CreateRuleDto where
  idTemplate := .value "t"
  name := "amount"
  enabled := .absent
  priority := .absent
  config := .absent

/-- A rule without a template, for amounts over 50. -/
def overFiftyRule : CreateRuleDto where
  idTemplate := .absent
  name := "amount"
  enabled := .absent
  priority := .absent
  config := .value (overFiftyConfig [] [])

end RulesEngine
