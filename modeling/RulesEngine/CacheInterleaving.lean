import RulesEngine.Application
import RulesEngine.Foundations.TransitionSystem

/-!
# Several instances on one cache

Evaluations, writes and invalidations of any number of instances run at once,
over one database and one Redis.  An evaluation that misses the cache is in
flight from its `GET` to its `SETEX`, and between them sends the queries of
`findEnabledByPriority` and, for each rule in turn, of `getEffectiveConfig`.  A
write commits and emits an event; the handler sends a `DEL` and then a
`PUBLISH`; every instance, the publisher included, receives the message and
sends a `DEL` of its own.  Each of these accesses is one step, and any number of
others may fall between two of them.
-/

namespace RulesEngine.Interleaving

open RulesEngine.Foundations
open RulesEngine.Rules
open RulesEngine.Engine

/-! ### Loads -/

/-- What a load has read, and what it reads next. -/
inductive Progress where
  /-- `findEnabledByPriority` is next. -/
  | missed
  /-- The rules in `todo` still need their configuration. -/
  | configuring (done : List CachedRule) (todo : List Rule)
  /-- `getMergedConfig` of `rule` has read the template; `findByTemplate` is
      next. -/
  | merging (done : List CachedRule) (rule : Rule) (idTemplate : String) (template : RuleTemplate)
      (todo : List Rule)

/-- A `getCachedRules` call between its cache miss and its `SETEX`. -/
structure Load where
  organizationId : String
  progress : Progress

/-- The end of `getMergedConfig`, after its two reads. -/
def mergedConfig (template : RuleTemplate) (override : Option TemplateOverride) : JsonObject :=
  match override with
  | none => template.config
  | some override =>
      if override.enabled then deepMerge template.config override.overrides else template.config

/-- The next query of a load, unless it has read everything. -/
def Load.read (db : Database) (load : Load) : Option (Except Thrown Load) :=
  match load.progress with
  | .missed =>
      some (.ok { load with
        progress := .configuring [] (findEnabledByPriority db load.organizationId) })
  | .configuring _ [] => none
  | .configuring done (rule :: todo) =>
      -- a rule without a template is configured without a query
      let ownConfig : Load :=
        { load with progress := .configuring (done ++ [cachedRule rule rule.config]) todo }
      match rule.idTemplate with
      | none => some (.ok ownConfig)
      | some idTemplate =>
          if idTemplate = "" then some (.ok ownConfig)
          else
            some ((findTemplate db idTemplate).map fun template =>
              { load with progress := .merging done rule idTemplate template todo })
  | .merging done rule idTemplate template todo =>
      let templateConfig :=
        mergedConfig template (findByTemplate db load.organizationId idTemplate)
      some (.ok { load with
        progress := .configuring
          (done ++ [cachedRule rule (deepMerge templateConfig rule.config)]) todo })

/-- The list a load is about to store. -/
def Load.result (load : Load) : Option (List CachedRule) :=
  match load.progress with
  | .configuring done [] => some done
  | _ => none

/-! ### Invalidations -/

/-- How far an invalidation has come. -/
inductive Stage where
  /-- The event is emitted; the `DEL` of the handler is next. -/
  | emitted
  /-- The `PUBLISH` of the handler is next. -/
  | deleted
  /-- The message is on its way to an instance. -/
  | published (instanceId : Nat)
  /-- The `DEL` of the subscriber is next. -/
  | received (instanceId : Nat)
deriving DecidableEq

structure Invalidation where
  organizationId : String
  stage : Stage
deriving DecidableEq

/-- The two stages whose next step is a `DEL`. -/
def Stage.Deletes : Stage → Prop
  | .emitted => True
  | .deleted => False
  | .published _ => False
  | .received _ => True

instance : DecidablePred Stage.Deletes
  | .emitted => isTrue trivial
  | .deleted => isFalse id
  | .published _ => isFalse id
  | .received _ => isTrue trivial

/-- The deployment: the instances besides one, and the TTL. -/
structure Deployment where
  otherInstances : Nat
  ruleCacheTtlMs : Int

/-- What is left of an invalidation after its next step. -/
def Invalidation.next (d : Deployment) (invalidation : Invalidation) : List Invalidation :=
  match invalidation.stage with
  | .emitted => [{ invalidation with stage := .deleted }]
  | .deleted => (List.range (d.otherInstances + 1)).map fun instanceId =>
      { invalidation with stage := .published instanceId }
  | .published instanceId => [{ invalidation with stage := .received instanceId }]
  | .received _ => []

/-! ### The interleaved system -/

structure System extends State where
  clock : Int
  loads : List Load
  invalidations : List Invalidation

/-- A database that is in use, before the first request. -/
def System.start (db : Database) (now : Int) : System where
  db := db
  cache := fun _ => none
  clock := now
  loads := []
  invalidations := []

/-- One access of some evaluation, write or invalidation, or the passing of
    time. -/
inductive Label where
  /-- The `GET` of an evaluation. -/
  | get (organizationId : String)
  /-- The next query of a load. -/
  | read (load : Nat)
  /-- A query of a load that fails. -/
  | readFails (load : Nat)
  | setex (load : Nat)
  | ruleWrite (organizationId : String) (write : RuleWrite)
  | plainWrite (organizationId : String) (write : PlainWrite)
  | invalidate (invalidation : Invalidation)
  | tick (ms : Nat)

/-- The next step of an invalidation. -/
def System.invalidate (d : Deployment) (s : System) (invalidation : Invalidation) : System :=
  { s with
    cache :=
      if invalidation.stage.Deletes then s.cache.del (getCacheKey invalidation.organizationId)
      else s.cache
    invalidations := s.invalidations.erase invalidation ++ invalidation.next d }

/-- The `SETEX` at the end of a load. -/
def System.setex (d : Deployment) (s : System) (index : Nat) (organizationId : String)
    (rules : List CachedRule) : System :=
  { s with
    cache := s.cache.setex (getCacheKey organizationId)
      { value := { rules, cachedAt := s.clock }, expiresAt := s.clock + d.ruleCacheTtlMs }
    loads := s.loads.eraseIdx index }

def exec (d : Deployment) (s : System) : Label → Option System
  | .get organizationId =>
      match s.cache.get (getCacheKey organizationId) s.clock with
      | some _ => some s
      | none => some { s with loads := s.loads ++ [⟨organizationId, .missed⟩] }
  | .read index =>
      s.loads[index]?.bind fun load => (load.read s.db).map fun
        | .ok load' => { s with loads := s.loads.set index load' }
        | .error _ => { s with loads := s.loads.eraseIdx index }
  | .readFails index =>
      s.loads[index]?.map fun _ => { s with loads := s.loads.eraseIdx index }
  | .setex index =>
      s.loads[index]?.bind fun load =>
        load.result.map (s.setex d index load.organizationId)
  | .ruleWrite organizationId write =>
      match write.run organizationId s.db with
      | .ok db =>
          some { s with db, invalidations := s.invalidations ++ [⟨organizationId, .emitted⟩] }
      | .error _ => some s
  | .plainWrite organizationId write =>
      match write.run organizationId s.db with
      | .ok db => some { s with db }
      | .error _ => some s
  | .invalidate invalidation =>
      if invalidation ∈ s.invalidations then some (s.invalidate d invalidation) else none
  | .tick ms => some { s with clock := s.clock + ms }

/-! ### What a step does -/

/-- Everything a step can do to the system. -/
inductive Move (d : Deployment) (s : System) : Label → System → Prop where
  | hit (organizationId : String) (cached : CachedRules) :
      s.cache.get (getCacheKey organizationId) s.clock = some cached →
      Move d s (.get organizationId) s
  | missed (organizationId : String) :
      s.cache.get (getCacheKey organizationId) s.clock = none →
      Move d s (.get organizationId)
        { s with loads := s.loads ++ [⟨organizationId, .missed⟩] }
  | queried (index : Nat) (load load' : Load) : s.loads[index]? = some load →
      load.read s.db = some (.ok load') →
      Move d s (.read index) { s with loads := s.loads.set index load' }
  | threw (index : Nat) (load : Load) (e : Thrown) : s.loads[index]? = some load →
      load.read s.db = some (.error e) →
      Move d s (.read index) { s with loads := s.loads.eraseIdx index }
  | failed (index : Nat) (load : Load) : s.loads[index]? = some load →
      Move d s (.readFails index) { s with loads := s.loads.eraseIdx index }
  | stored (index : Nat) (load : Load) (rules : List CachedRule) :
      s.loads[index]? = some load → load.result = some rules →
      Move d s (.setex index) (s.setex d index load.organizationId rules)
  | committed (organizationId : String) (write : RuleWrite) (db : Database) :
      write.run organizationId s.db = .ok db →
      Move d s (.ruleWrite organizationId write)
        { s with db, invalidations := s.invalidations ++ [⟨organizationId, .emitted⟩] }
  | rejected (organizationId : String) (write : RuleWrite) (e : Thrown) :
      write.run organizationId s.db = .error e →
      Move d s (.ruleWrite organizationId write) s
  | plainCommitted (organizationId : String) (write : PlainWrite) (db : Database) :
      write.run organizationId s.db = .ok db →
      Move d s (.plainWrite organizationId write) { s with db }
  | plainRejected (organizationId : String) (write : PlainWrite) :
      Move d s (.plainWrite organizationId write) s
  | invalidated (invalidation : Invalidation) : invalidation ∈ s.invalidations →
      Move d s (.invalidate invalidation) (s.invalidate d invalidation)
  | ticked (ms : Nat) : Move d s (.tick ms) { s with clock := s.clock + ms }

theorem exec_move {d : Deployment} {s t : System} {label : Label} (h : exec d s label = some t) :
    Move d s label t := by
  cases label with
  | get organizationId =>
      simp only [exec] at h
      cases hget : s.cache.get (getCacheKey organizationId) s.clock with
      | some cached =>
          simp only [hget, Option.some.injEq] at h
          exact h ▸ .hit organizationId cached hget
      | none =>
          simp only [hget, Option.some.injEq] at h
          exact h ▸ .missed organizationId hget
  | read index =>
      obtain ⟨load, hload, h⟩ := Option.bind_eq_some_iff.mp h
      obtain ⟨outcome, hread, h⟩ := Option.map_eq_some_iff.mp h
      cases outcome with
      | ok load' => exact h ▸ .queried index load load' hload hread
      | error e => exact h ▸ .threw index load e hload hread
  | readFails index =>
      obtain ⟨load, hload, h⟩ := Option.map_eq_some_iff.mp h
      exact h ▸ .failed index load hload
  | setex index =>
      obtain ⟨load, hload, h⟩ := Option.bind_eq_some_iff.mp h
      obtain ⟨rules, hresult, h⟩ := Option.map_eq_some_iff.mp h
      exact h ▸ .stored index load rules hload hresult
  | ruleWrite organizationId write =>
      simp only [exec] at h
      cases hrun : write.run organizationId s.db with
      | ok db =>
          simp only [hrun, Option.some.injEq] at h
          exact h ▸ .committed organizationId write db hrun
      | error e =>
          simp only [hrun, Option.some.injEq] at h
          exact h ▸ .rejected organizationId write e hrun
  | plainWrite organizationId write =>
      simp only [exec] at h
      cases hrun : write.run organizationId s.db with
      | ok db =>
          simp only [hrun, Option.some.injEq] at h
          exact h ▸ .plainCommitted organizationId write db hrun
      | error e =>
          simp only [hrun, Option.some.injEq] at h
          exact h ▸ .plainRejected organizationId write
  | invalidate invalidation =>
      simp only [exec] at h
      split at h
      · rename_i hmem
        cases h
        exact .invalidated invalidation hmem
      · cases h
  | tick ms =>
      cases h
      exact .ticked ms

end RulesEngine.Interleaving
