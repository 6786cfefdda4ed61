import RulesEngine.CacheTransparency

/-!
# The organization header

`OrganizationGuard` accepts a header that `uuid.validate` accepts and hands on
its text as it is.  The database compares uuids by value, the cache compares the
text of a key: two accepted headers that differ in the case of a digit name one
organization and two cache entries, and a write made under one of them
invalidates only its own.  So every evaluation uses the current rules, whatever
is sent under two such headers, exactly when they are the same text
(`one_entry_iff`).

`uuid.validate` comes with a package and is a parameter.
-/

namespace RulesEngine

open RulesEngine.Foundations
open RulesEngine.Rules
open RulesEngine.Lists
open RulesEngine.Engine

/-! ### OrganizationGuard -/

section Guard

variable (isValidUUID : String → Bool)

/-- The organization id of an accepted request. -/
def canActivate (header : Option String) : Except Thrown String :=
  match header with
  | none => .error (.error "Missing required header: x-organization-id")
  | some organizationId =>
      if organizationId = "" then .error (.error "Missing required header: x-organization-id")
      else if isValidUUID organizationId then .ok organizationId
      else .error (.error "Invalid organization ID format. Expected UUID.")

/-- The guard changes nothing in the text. -/
theorem canActivate_eq {header : Option String} {organizationId : String}
    (h : canActivate isValidUUID header = .ok organizationId) : header = some organizationId := by
  unfold canActivate at h
  cases header with
  | none => cases h
  | some text =>
      simp only at h
      split at h
      · cases h
      · split at h
        · cases h
          rfl
        · cases h

/-! ### Requests -/

/-- A write to rules or overrides, or an evaluation. -/
inductive Call where
  | write (ruleWrite : RuleWrite)
  | evaluate (context : EvaluationContext) (now : Int)

def Call.op (organizationId : String) : Call → Op
  | .write ruleWrite => .ruleWrite organizationId ruleWrite
  | .evaluate context now => .evaluate organizationId context now

structure Request where
  header : Option String
  call : Call

/-- The request carries one of two headers. -/
def Request.Under (a b : String) (request : Request) : Prop :=
  request.header = some a ∨ request.header = some b

/-- A write leaves the list of every entry stored under another spelling of its
    organization as it was. -/
def LeavesSpellings (s : State) (request : Request) : Prop :=
  ∀ organizationId, canActivate isValidUUID request.header = .ok organizationId →
    LeavesCached s (request.call.op organizationId)

/-- No entry yet. -/
def State.uncached (db : Database) : State := ⟨db, fun _ => none⟩

theorem coherent_uncached (db : Database) : Coherent (State.uncached db) := by
  intro organizationId entry h
  cases h

/-- Every entry is stored under the one header. -/
def OnlyUnder (a : String) (s : State) : Prop :=
  ∀ organizationId, s.cache (getCacheKey organizationId) ≠ none → organizationId = a

theorem onlyUnder_evaluated (env : Environment) {a : String} {s : State} (hs : OnlyUnder a s)
    (c : Collaborators) : OnlyUnder a (s.evaluated env a c) := by
  intro organizationId hentry
  simp only [State.evaluated, cacheAfter] at hentry
  by_contra hne
  apply hne
  apply hs
  cases hget : c.cacheGet with
  | some cached => simpa only [hget] using hentry
  | none =>
      cases hload : loadRules c with
      | error e => simpa only [hget, hload] using hentry
      | ok cached => simpa only [hget, hload, RedisCache.setex_of_ne _ _ hne] using hentry

theorem onlyUnder_write {a : String} {s : State} (hs : OnlyUnder a s)
    (outcome : Except Thrown Database) : OnlyUnder a (s.writeInvalidating a outcome).1 := by
  cases outcome with
  | error e => exact hs
  | ok db =>
      intro organizationId hentry
      apply hs
      intro hnone
      apply hentry
      simp only [State.writeInvalidating, RedisCache.del, hnone, ite_self]

/-- Under one header there is no other spelling. -/
theorem leavesSpellings_of_onlyUnder {a : String} {s : State} (hs : OnlyUnder a s)
    {request : Request} (hunder : request.header = some a) :
    LeavesSpellings isValidUUID s request := by
  intro organizationId haccept
  have heq : organizationId = a :=
    Option.some.inj ((canActivate_eq isValidUUID haccept).symm.trans hunder)
  subst heq
  cases request.call with
  | evaluate context now => trivial
  | write ruleWrite =>
      intro db _ other hne _ hentry
      exact absurd (hs other hentry) hne

/-! ### Two spellings -/

/-- A rule that inherits nothing. -/
def standaloneDto : CreateRuleDto where
  idTemplate := .absent
  name := "amount"
  enabled := .absent
  priority := .absent
  config := .absent

/-- An evaluation under one header, a new rule under another, and an evaluation
    under the first again. -/
def writeBetweenEvaluations (a b : String) : List Request :=
  [⟨some a, .evaluate sampleContext 0⟩,
    ⟨some b, .write (.createRule standaloneDto "r" 0)⟩,
    ⟨some a, .evaluate sampleContext 0⟩]

/-- The row the write stores. -/
def writtenRule (organizationId : String) : Rule where
  id := "r"
  idOrganization := pgUuid organizationId
  idTemplate := none
  name := "amount"
  enabled := true
  priority := 0
  config := []
  createdAt := 0

theorem derivedRules_written {a b : String} (h : pgUuid a = pgUuid b) :
    derivedRules { Database.empty with rules := Table.empty.put (writtenRule b) } a =
      .ok [cachedRule (writtenRule b) []] := by
  have henabled : findEnabledByPriority
      { Database.empty with rules := Table.empty.put (writtenRule b) } a = [writtenRule b] := by
    simp [findEnabledByPriority, Table.put, Table.empty, putRow, writtenRule, h]
  unfold derivedRules
  rw [henabled]
  rfl

/-- The first evaluation under the first header has stored that there are no
    rules. -/
def emptyEntry (env : Environment) (a : String) : RedisCache :=
  RedisCache.setex (fun _ => none) (getCacheKey a)
    { value := { rules := [], cachedAt := 0 }, expiresAt := 0 + env.ruleCacheTtlMs }

/-! ### Runs -/

variable [NumberText] [DriverText] [NumberParsing] (env : Environment)

/-- A request that the guard rejects reaches no service. -/
def serve (s : State) (request : Request) : State × Output :=
  match canActivate isValidUUID request.header with
  | .error e => (s, .failed e)
  | .ok organizationId => step env s (request.call.op organizationId)

def execRequest (s : State) (request : Request) : Option State :=
  some (serve isValidUUID env s request).1

/-- The evaluation a request makes, if any, uses the rules and configurations
    the database holds now. -/
def UsesCurrent (s : State) (request : Request) : Prop :=
  ∀ organizationId, canActivate isValidUUID request.header = .ok organizationId →
    Transparent env s (request.call.op organizationId)

variable {isValidUUID}

theorem coherent_serve {s : State} (hs : Coherent s) {request : Request}
    (hleaves : LeavesSpellings isValidUUID s request) :
    Coherent (serve isValidUUID env s request).1 := by
  unfold serve
  cases haccept : canActivate isValidUUID request.header with
  | error e => exact hs
  | ok organizationId => exact (coherent_step_iff env hs _).mpr (hleaves organizationId haccept)

/-- In a run whose writes leave the entries of other spellings current, every
    evaluation uses what the database holds. -/
theorem usesCurrent_of_leavesSpellings (db : Database) {requests : List Request}
    (h : EveryStep (execRequest isValidUUID env) (LeavesSpellings isValidUUID)
      (State.uncached db) requests) :
    EveryStep (execRequest isValidUUID env) (UsesCurrent isValidUUID env)
      (State.uncached db) requests := by
  refine everyStep_of_invariant (I := Coherent) ?_ ?_ (coherent_uncached db) h
  · intro s request t hs hleaves hexec
    cases hexec
    exact coherent_serve env hs hleaves
  · intro s request hs _ organizationId _
    exact transparent_of_coherent env hs _

theorem onlyUnder_serve {a : String} {s : State} (hs : OnlyUnder a s) {request : Request}
    (hunder : request.header = some a) : OnlyUnder a (serve isValidUUID env s request).1 := by
  unfold serve
  cases haccept : canActivate isValidUUID request.header with
  | error e => exact hs
  | ok organizationId =>
      have heq : organizationId = a :=
        Option.some.inj ((canActivate_eq isValidUUID haccept).symm.trans hunder)
      subst heq
      cases request.call with
      | write ruleWrite => exact onlyUnder_write hs _
      | evaluate context now => exact onlyUnder_evaluated env hs _

theorem leavesSpellings_of_one_header (a : String) (db : Database) {requests : List Request}
    (h : ∀ request ∈ requests, request.header = some a) :
    EveryStep (execRequest isValidUUID env) (LeavesSpellings isValidUUID)
      (State.uncached db) requests := by
  have hunder : EveryStep (execRequest isValidUUID env)
      (fun _ request => request.header = some a) (State.uncached db) requests :=
    everyStep_of_mem h
  refine everyStep_of_invariant (I := OnlyUnder a) ?_ ?_ ?_ hunder
  · intro s request t hs hheader hexec
    cases hexec
    exact onlyUnder_serve env hs hheader
  · intro s request hs hheader
    exact leavesSpellings_of_onlyUnder isValidUUID hs hheader
  · intro organizationId hentry
    exact absurd rfl hentry

theorem serve_first_evaluation {a : String} (ha : canActivate isValidUUID (some a) = .ok a) :
    (serve isValidUUID env (State.uncached Database.empty)
      ⟨some a, .evaluate sampleContext 0⟩).1 = ⟨Database.empty, emptyEntry env a⟩ := by
  simp only [serve, ha]
  rfl

theorem serve_write_other {a b : String} (hb : canActivate isValidUUID (some b) = .ok b) :
    (serve isValidUUID env ⟨Database.empty, emptyEntry env a⟩
      ⟨some b, .write (.createRule standaloneDto "r" 0)⟩).1 =
        ⟨{ Database.empty with rules := Table.empty.put (writtenRule b) },
          (emptyEntry env a).del (getCacheKey b)⟩ := by
  simp only [serve, hb]
  rfl

/-- The write has left the entry, which is still live, in place. -/
theorem getCachedRules_stale (httl : 0 < env.ruleCacheTtlMs) {a b : String} (hne : a ≠ b)
    (db : Database) :
    getCachedRules (collaborators env ⟨db, (emptyEntry env a).del (getCacheKey b)⟩ a
      sampleContext 0) = .ok { rules := [], cachedAt := 0 } := by
  have hget : ((emptyEntry env a).del (getCacheKey b)).get (getCacheKey a) 0 =
      some { rules := [], cachedAt := 0 } := by
    simp [RedisCache.get, RedisCache.del_of_ne _ hne, emptyEntry, httl]
  simp only [getCachedRules, Collaborators.cacheGet, collaborators, if_true, hget]

/-- The second evaluation under the first header misses the new rule. -/
theorem second_spelling_stale (httl : 0 < env.ruleCacheTtlMs) {a b : String}
    (ha : canActivate isValidUUID (some a) = .ok a) (hb : canActivate isValidUUID (some b) = .ok b)
    (huuid : pgUuid a = pgUuid b) (hne : a ≠ b) :
    ¬ EveryStep (execRequest isValidUUID env) (UsesCurrent isValidUUID env)
      (State.uncached Database.empty) (writeBetweenEvaluations a b) := by
  intro h
  obtain ⟨-, h⟩ := h
  obtain ⟨-, h⟩ := h _ (congrArg some (serve_first_evaluation env ha))
  obtain ⟨hcurrent, -⟩ := h _ (congrArg some (serve_write_other env hb))
  have hrules := (hcurrent a ha).1
  rw [getCachedRules_stale env httl hne, derivedRules_written huuid] at hrules
  simp [Except.map] at hrules

/-- **One organization, one entry.**  For two accepted headers of one uuid, every
    evaluation of a run uses the current rules when the writes leave the entries
    stored under the other spelling current; and that it does so in all runs
    means that the headers are the same text. -/
theorem one_entry_iff (httl : 0 < env.ruleCacheTtlMs) {a b : String}
    (ha : canActivate isValidUUID (some a) = .ok a) (hb : canActivate isValidUUID (some b) = .ok b)
    (huuid : pgUuid a = pgUuid b) :
    (∀ db requests, EveryStep (execRequest isValidUUID env) (LeavesSpellings isValidUUID)
        (State.uncached db) requests →
      EveryStep (execRequest isValidUUID env) (UsesCurrent isValidUUID env)
        (State.uncached db) requests) ∧
      ((∀ db requests, (∀ request ∈ requests, Request.Under a b request) →
        EveryStep (execRequest isValidUUID env) (UsesCurrent isValidUUID env)
          (State.uncached db) requests) ↔ a = b) := by
  refine ⟨fun db _ h => usesCurrent_of_leavesSpellings env db h, ?_, ?_⟩
  · intro hall
    by_contra hne
    refine second_spelling_stale env httl ha hb huuid hne (hall Database.empty _ ?_)
    intro request hrequest
    simp only [writeBetweenEvaluations, List.mem_cons, List.not_mem_nil, or_false] at hrequest
    rcases hrequest with rfl | rfl | rfl
    · exact Or.inl rfl
    · exact Or.inr rfl
    · exact Or.inl rfl
  · rintro rfl db requests hunder
    apply usesCurrent_of_leavesSpellings
    apply leavesSpellings_of_one_header env a
    intro request hrequest
    exact (hunder request hrequest).elim id id

end Guard

/-! ### Sample headers -/

/-- The pattern `uuid.validate` documents, the nil and the max uuid aside:
    versions 1 to 8, with digits of either case. -/
def documentedUuid (text : String) : Bool :=
  let hex : Char → Bool := fun c => ('0' ≤ c && c ≤ '9') || ('a' ≤ c.toLower && c.toLower ≤ 'f')
  let groups := text.toList.splitOn '-'
  groups.map List.length = [8, 4, 4, 4, 12] && groups.all (fun group => group.all hex) &&
    (groups[2]?.bind List.head?).any (fun c => '1' ≤ c && c ≤ '8') &&
    (groups[3]?.bind List.head?).any (fun c => c ∈ ['8', '9', 'a', 'b', 'A', 'B'])

attribute [local instance] NumberText.integers DriverText.stringsOnly NumberParsing.never

/-- Two headers that differ in the case of one digit. -/
def lowerHeader : String := "a0000000-0000-4000-8000-000000000000"
def upperHeader : String := "A0000000-0000-4000-8000-000000000000"

theorem lowerHeader_accepted : canActivate documentedUuid (some lowerHeader) = .ok lowerHeader := by
  decide +kernel

theorem upperHeader_accepted : canActivate documentedUuid (some upperHeader) = .ok upperHeader := by
  decide +kernel

theorem pgUuid_headers : pgUuid lowerHeader = pgUuid upperHeader := by decide +kernel

/-- Both headers are accepted and name one organization, and the run sent under
    them evaluates with a list without the stored rule. -/
theorem upper_case_header_stale :
    canActivate documentedUuid (some lowerHeader) = .ok lowerHeader ∧
      canActivate documentedUuid (some upperHeader) = .ok upperHeader ∧
      pgUuid lowerHeader = pgUuid upperHeader ∧
      ¬ EveryStep (execRequest documentedUuid sampleEnvironment)
        (UsesCurrent documentedUuid sampleEnvironment) (State.uncached Database.empty)
        (writeBetweenEvaluations lowerHeader upperHeader) :=
  ⟨lowerHeader_accepted, upperHeader_accepted, pgUuid_headers,
    second_spelling_stale sampleEnvironment (by decide) lowerHeader_accepted upperHeader_accepted
      pgUuid_headers (by decide)⟩

/-- Under one header all runs are served with the current rules, and under its two
    spellings not all are. -/
theorem one_entry_iff_sample :
    (∀ db requests, EveryStep (execRequest documentedUuid sampleEnvironment)
        (LeavesSpellings documentedUuid) (State.uncached db) requests →
      EveryStep (execRequest documentedUuid sampleEnvironment)
        (UsesCurrent documentedUuid sampleEnvironment) (State.uncached db) requests) ∧
      ((∀ db requests, (∀ request ∈ requests, Request.Under lowerHeader lowerHeader request) →
        EveryStep (execRequest documentedUuid sampleEnvironment)
          (UsesCurrent documentedUuid sampleEnvironment) (State.uncached db) requests) ↔
        lowerHeader = lowerHeader) ∧
      ((∀ db requests, (∀ request ∈ requests, Request.Under lowerHeader upperHeader request) →
        EveryStep (execRequest documentedUuid sampleEnvironment)
          (UsesCurrent documentedUuid sampleEnvironment) (State.uncached db) requests) ↔
        lowerHeader = upperHeader) := by
  obtain ⟨hruns, hone⟩ := one_entry_iff sampleEnvironment (by decide) lowerHeader_accepted
    lowerHeader_accepted rfl
  exact ⟨hruns, hone, (one_entry_iff sampleEnvironment (by decide) lowerHeader_accepted
    upperHeader_accepted pgUuid_headers).2⟩

end RulesEngine
