import RulesEngine.ListLedger

/-!
# Organizations

`organizations/organizations.service.ts` and the one foreign key that knows
organizations: an entry of `list_entries` belongs to an existing organization, and
goes when that organization goes.  No other table has such a key, and no service
asks whether an organization exists.

So in every run, with the sweeps of `removeExpired` in it, every list entry has
its organization and an organization once removed is on no list again
(`removed_organization_unlisted`), while everything else is as if organizations
did not exist (`organizations_touch_lists_only`): rules, overrides and
transactions of a removed one go on.
-/

namespace RulesEngine

open RulesEngine.Foundations
open RulesEngine.Rules
open RulesEngine.Lists
open RulesEngine.Engine
open RulesEngine.Transactions

/-! ### The service -/

structure Organization where
  id : String
  name : String
  settings : JsonObject

instance : Keyed Organization String := ⟨Organization.id⟩

structure CreateOrganizationDto where
  name : String
  settings : Patch JsonObject

structure UpdateOrganizationDto where
  name : Patch String
  settings : Patch JsonObject

namespace Organizations

variable (organizations : Table Organization)

def create (dto : CreateOrganizationDto) (id : String) : Except Thrown (Table Organization) :=
  insertRow organizations { id, name := dto.name, settings := dto.settings.getD [] }

def findOne (id : String) : Except Thrown Organization :=
  match organizations.get? (pgUuid id) with
  | some organization => .ok organization
  | none => .error (.error ("Organization with ID \"" ++ id ++ "\" not found"))

def update (id : String) (dto : UpdateOrganizationDto) : Except Thrown (Table Organization) := do
  let organization ← findOne organizations id
  let name ← dto.name.notNull "name" organization.name
  let settings ← dto.settings.notNull "settings" organization.settings
  return organizations.put { organization with name, settings }

/-- `remove`; `list_entries` cascades. -/
def remove (id : String) (db : Database) : Except Thrown (Table Organization × Database) := do
  let organization ← findOne organizations id
  return (organizations.retain fun other => other.id ≠ organization.id,
    { db with
      listEntries := db.listEntries.retain fun entry => entry.idOrganization ≠ organization.id })

end Organizations

/-! ### The application and its organizations -/

structure Tenancy where
  organizations : Table Organization
  state : State

inductive TenancyOp where
  | application (op : Op)
  | create (dto : CreateOrganizationDto) (id : String)
  | update (id : String) (dto : UpdateOrganizationDto)
  | remove (id : String)
  | removeExpired (organizationId : Option String) (now : Int)

/-- The organization that an operation inserts a list entry for. -/
def Op.entryOrganization : Op → Option String
  | .plainWrite organizationId (.createListEntry _ _) => some (pgUuid organizationId)
  | _ => none

/-- The foreign key lets an insert pass. -/
def Tenancy.Admits (t : Tenancy) (op : Op) : Prop :=
  ∀ id ∈ op.entryOrganization, t.organizations.Taken id

instance (t : Tenancy) (op : Op) : Decidable (t.Admits op) :=
  inferInstanceAs (Decidable (∀ id ∈ op.entryOrganization, id ∈ t.organizations.rows.map key))

theorem admits_of_none {t : Tenancy} {op : Op} (h : op.entryOrganization = none) : t.Admits op := by
  intro id hid
  rw [h] at hid
  cases hid

/-- The organizations after a write that may throw. -/
def Tenancy.saved (t : Tenancy) : Except Thrown (Table Organization) → Tenancy
  | .ok organizations => { t with organizations }
  | .error _ => t

section Steps

variable [NumberText] [DriverText] [NumberParsing] (env : Environment)

/-- One call; a call that throws, as an insert does against the foreign key, has
    changed nothing. -/
def tenancyExec (t : Tenancy) : TenancyOp → Option Tenancy
  | .application op =>
      if t.Admits op then (execOp env t.state op).map fun state => { t with state } else some t
  | .create dto id => some (t.saved (Organizations.create t.organizations dto id))
  | .update id dto => some (t.saved (Organizations.update t.organizations id dto))
  | .remove id =>
      match Organizations.remove t.organizations id t.state.db with
      | .ok (organizations, db) => some { organizations, state := { t.state with db } }
      | .error _ => some t
  | .removeExpired organizationId now =>
      some { t with
        state := { t.state with db := (Lists.removeExpired organizationId now t.state.db).2 } }

end Steps

theorem exists_tenancyExec [NumberText] [DriverText] [NumberParsing] (env : Environment)
    (t : Tenancy) (op : TenancyOp) : ∃ t', tenancyExec env t op = some t' := by
  cases op with
  | application op =>
      by_cases hadmits : t.Admits op
      · exact ⟨_, if_pos hadmits⟩
      · exact ⟨_, if_neg hadmits⟩
  | remove id =>
      simp only [tenancyExec]
      split <;> exact ⟨_, rfl⟩
  | create | update | removeExpired => exact ⟨_, rfl⟩

/-! ### Entries have their organization -/

/-- The foreign key. -/
def EntriesGrounded (t : Tenancy) : Prop :=
  ∀ entry ∈ t.state.db.listEntries.rows, t.organizations.Taken entry.idOrganization

theorem findOne_ok {organizations : Table Organization} {id : String} {organization : Organization}
    (h : Organizations.findOne organizations id = .ok organization) :
    organization ∈ organizations.rows ∧ organization.id = pgUuid id := by
  unfold Organizations.findOne at h
  cases hget : organizations.get? (pgUuid id) with
  | none =>
      rw [hget] at h
      cases h
  | some found =>
      rw [hget] at h
      cases h
      exact Table.mem_of_get? hget

theorem findOne_error {organizations : Table Organization} {id : String} {e : Thrown}
    (h : Organizations.findOne organizations id = .error e) :
    ¬ organizations.Taken (pgUuid id) := by
  unfold Organizations.findOne at h
  cases hget : organizations.get? (pgUuid id) with
  | none => exact Table.get?_eq_none_iff.mp hget
  | some found =>
      rw [hget] at h
      cases h

section Runs

variable [NumberText] [DriverText] [NumberParsing]

/-- Everything a call can do. -/
inductive TenancyMove (env : Environment) (t : Tenancy) : TenancyOp → Tenancy → Prop where
  | applied (op : Op) : t.Admits op →
      TenancyMove env t (.application op) { t with state := (step env t.state op).1 }
  | unapplied (op : Op) : ¬ t.Admits op → TenancyMove env t (.application op) t
  | created (dto : CreateOrganizationDto) (organization : Organization) :
      TenancyMove env t (.create dto organization.id)
        { t with organizations := t.organizations.put organization }
  | uncreated (dto : CreateOrganizationDto) (id : String) : TenancyMove env t (.create dto id) t
  | updated (id : String) (dto : UpdateOrganizationDto) (organization : Organization) :
      t.organizations.Taken organization.id →
      TenancyMove env t (.update id dto)
        { t with organizations := t.organizations.put organization }
  | unchanged (id : String) (dto : UpdateOrganizationDto) : TenancyMove env t (.update id dto) t
  | removed (id : String) :
      TenancyMove env t (.remove id)
        { organizations := t.organizations.retain fun other => other.id ≠ pgUuid id
          state := { t.state with db := { t.state.db with
            listEntries := t.state.db.listEntries.retain fun entry =>
              entry.idOrganization ≠ pgUuid id } } }
  | unknown (id : String) : ¬ t.organizations.Taken (pgUuid id) →
      TenancyMove env t (.remove id) t
  | swept (organizationId : Option String) (now : Int) :
      TenancyMove env t (.removeExpired organizationId now)
        { t with state := { t.state with
          db := (Lists.removeExpired organizationId now t.state.db).2 } }

variable {env : Environment} {t t' : Tenancy}

theorem tenancyExec_move {op : TenancyOp} (h : tenancyExec env t op = some t') :
    TenancyMove env t op t' := by
  cases op with
  | application op =>
      simp only [tenancyExec] at h
      split at h
      · rename_i hadmits
        cases h
        exact .applied op hadmits
      · rename_i hrefused
        cases h
        exact .unapplied op hrefused
  | create dto id =>
      obtain rfl := Option.some.inj h
      cases hcreate : Organizations.create t.organizations dto id with
      | error e => exact .uncreated dto id
      | ok table =>
          obtain ⟨-, rfl⟩ := insertRow_ok hcreate
          exact .created dto ⟨id, dto.name, dto.settings.getD []⟩
  | update id dto =>
      obtain rfl := Option.some.inj h
      cases hupdate : Organizations.update t.organizations id dto with
      | error e => exact .unchanged id dto
      | ok table =>
          obtain ⟨organization, hfind, hupdate⟩ := bind_eq_ok.mp hupdate
          obtain ⟨name, -, hupdate⟩ := bind_eq_ok.mp hupdate
          obtain ⟨settings, -, hupdate⟩ := bind_eq_ok.mp hupdate
          cases hupdate
          have htaken : t.organizations.Taken organization.id :=
            Table.taken_of_mem (findOne_ok hfind).1
          exact .updated id dto { organization with name, settings } htaken
  | remove id =>
      cases hfind : Organizations.findOne t.organizations id with
      | error e =>
          simp only [tenancyExec, Organizations.remove, hfind] at h
          cases h
          exact .unknown id (findOne_error hfind)
      | ok organization =>
          simp only [tenancyExec, Organizations.remove, hfind] at h
          cases h
          rw [(findOne_ok hfind).2]
          exact .removed id
  | removeExpired organizationId now =>
      cases h
      exact .swept organizationId now

/-- What a step of the application does to the entries: those it adds have their
    organization. -/
theorem mem_entries_application {op : Op} (hadmits : t.Admits op) {entry : ListEntry}
    (hentry : entry ∈ (step env t.state op).1.db.listEntries.rows) :
    entry ∈ t.state.db.listEntries.rows ∨ t.organizations.Taken entry.idOrganization := by
  have hdb : writeExec t.state.db op = some (step env t.state op).1.db :=
    (db_step env t.state op).symm
  unfold writeExec at hdb
  split at hdb
  · rename_i next hwrite
    rw [← Option.some.inj hdb] at hentry
    rcases (mem_listEntries_write hwrite entry).mp hentry with hcreates | ⟨hold, -⟩
    · cases op with
      | plainWrite organizationId write =>
          cases write with
          | createListEntry dto id =>
              have horg : entry.idOrganization = pgUuid organizationId :=
                congrArg ListEntry.idOrganization hcreates.2
              exact Or.inr (horg ▸ hadmits _ rfl)
          | removeListEntry | createTransaction | updateTransaction => cases hcreates
      | ruleWrite | templateWrite | createAndEvaluate => cases hcreates
      | evaluate | evaluateRule | getEffectiveConfig | isInList => cases hcreates
    · exact Or.inl hold
  · rw [← Option.some.inj hdb] at hentry
    exact Or.inl hentry

/-- **Step.**  No call leaves an entry without its organization. -/
theorem entriesGrounded_step {op : TenancyOp} (ht : EntriesGrounded t)
    (h : tenancyExec env t op = some t') : EntriesGrounded t' := by
  intro entry hentry
  cases tenancyExec_move h with
  | applied op hadmits =>
      rcases mem_entries_application hadmits hentry with hold | htaken
      · exact ht entry hold
      · exact htaken
  | created dto organization => exact Table.taken_put _ _ (ht entry hentry)
  | updated id dto organization htaken => exact Table.taken_put _ _ (ht entry hentry)
  | removed id =>
      -- the entries of other organizations stay, and so do these organizations
      obtain ⟨hold, hne⟩ := List.mem_filter.mp hentry
      refine Table.taken_retain (ht entry hold) fun other _ hkey => ?_
      have hid : other.id = entry.idOrganization := hkey
      simpa [hid] using hne
  | swept organizationId now => exact ht entry (List.mem_filter.mp hentry).1
  | unapplied | uncreated | unchanged | unknown => exact ht entry hentry

/-! ### Removed organizations -/

theorem not_taken_removed {id : String} (h : tenancyExec env t (.remove id) = some t') :
    ¬ t'.organizations.Taken (pgUuid id) := by
  cases tenancyExec_move h with
  | removed =>
      intro htaken
      obtain ⟨other, hother, hkey⟩ := List.mem_map.mp htaken
      have hid : other.id = pgUuid id := hkey
      simp [hid] at hother
  | unknown hnot => assumption

/-- An organization comes into being by its creation only. -/
theorem not_taken_step {op : TenancyOp} {k : String} (hk : ¬ t.organizations.Taken k)
    (hop : ∀ dto, op ≠ .create dto k) (h : tenancyExec env t op = some t') :
    ¬ t'.organizations.Taken k := by
  intro htaken
  cases tenancyExec_move h with
  | created dto organization =>
      rcases Table.taken_of_put htaken with hold | rfl
      · exact hk hold
      · exact hop dto rfl
  | updated id dto organization hthere =>
      rcases Table.taken_of_put htaken with hold | rfl
      · exact hk hold
      · exact hk hthere
  | removed id => exact hk (Table.taken_of_retain htaken)
  | applied | unapplied | uncreated | unchanged | unknown | swept => exact hk htaken

/-- **Removed for good.**  In every run, whatever the application and the sweeps do
    in between, each list entry has its organization; and after an organization was
    removed, none of its values is on any list and no entry can be added for it,
    unless an organization is created under the same id. -/
theorem removed_organization_unlisted {start : Tenancy} (hstart : EntriesGrounded start)
    {before after : List TenancyOp} {id : String}
    (hrun : runFrom (tenancyExec env) start (before ++ .remove id :: after) = some t)
    (hnew : ∀ op ∈ after, ∀ dto, op ≠ .create dto (pgUuid id)) :
    EntriesGrounded t ∧
      ∀ organizationId, pgUuid organizationId = pgUuid id →
        (∀ listType entityType value now,
          isListed t.state.db.listEntries organizationId listType entityType value now =
            .ok false) ∧
        ∀ dto entryId, tenancyExec env t
          (.application (.plainWrite organizationId (.createListEntry dto entryId))) = some t := by
  have hgrounded : EntriesGrounded t :=
    runFrom_invariant (fun _ _ _ ht h => entriesGrounded_step ht h) hstart hrun
  rw [runFrom_append] at hrun
  obtain ⟨s, -, hrest⟩ := Option.bind_eq_some_iff.mp hrun
  obtain ⟨removed, hremove, hafter⟩ := runFrom_cons_eq_some.mp hrest
  have hsteps : EveryStep (tenancyExec env) (fun _ op => ∀ dto, op ≠ .create dto (pgUuid id))
      removed after := everyStep_of_mem hnew
  have hgone : ¬ t.organizations.Taken (pgUuid id) :=
    runFrom_guarded_invariant (I := fun t => ¬ t.organizations.Taken (pgUuid id))
      (fun _ _ _ hk hop h => not_taken_step hk hop h) (not_taken_removed hremove) hsteps hafter
  refine ⟨hgrounded, fun organizationId horg => ⟨?_, ?_⟩⟩
  · intro listType entityType value now
    have htext : whereText (.json (.str value)) = some value := rfl
    obtain ⟨found, hfound, hiff⟩ :=
      isInList_ok t.state.db.listEntries organizationId listType entityType htext now
    cases found with
    | false => exact hfound
    | true =>
        obtain ⟨entry, hentry, hfor⟩ := hiff.mp rfl
        exact absurd (horg ▸ hfor.1 ▸ hgrounded entry hentry) hgone
  · intro dto entryId
    refine if_neg fun hadmits => hgone ?_
    exact horg ▸ hadmits _ rfl

end Runs

/-! ### Everything but the lists -/

def State.withLists (s : State) (entries : Table ListEntry) : State :=
  { s with db := s.db.withLists entries }

/-- What a state is apart from its list entries. -/
def State.withoutLists (s : State) : State := s.withLists Table.empty

theorem map_bind_except {ε α β γ : Type} (x : Except ε α) (f : α → Except ε β) (g : β → γ) :
    (x >>= f).map g = x >>= fun a => (f a).map g := by
  cases x <;> rfl

section Writes

variable (organizationId : String) (db : Database) (entries : Table ListEntry)

theorem RuleWrite.run_withLists (write : RuleWrite) :
    write.run organizationId (db.withLists entries) =
      (write.run organizationId db).map fun db => db.withLists entries := by
  cases write with
  | createRule dto id createdAt =>
      simp only [RuleWrite.run, Rules.createRule, map_bind_except]
      rfl
  | updateRule id dto =>
      simp only [RuleWrite.run, Rules.updateRule, map_bind_except]
      rfl
  | removeRule id =>
      simp only [RuleWrite.run, Rules.removeRule, map_bind_except]
      rfl
  | createOverride dto id =>
      have hfind : findByTemplate (db.withLists entries) organizationId dto.idTemplate =
        findByTemplate db organizationId dto.idTemplate := rfl
      simp only [RuleWrite.run, Rules.createOverride, map_bind_except, hfind]
      cases findByTemplate db organizationId dto.idTemplate with
      | some override => rfl
      | none =>
          simp only [map_bind_except]
          rfl
  | updateOverride id dto =>
      simp only [RuleWrite.run, Rules.updateOverride, map_bind_except]
      rfl
  | removeOverride id =>
      simp only [RuleWrite.run, Rules.removeOverride, map_bind_except]
      rfl

theorem TemplateWrite.run_withLists (write : TemplateWrite) :
    write.run (db.withLists entries) = (write.run db).map fun db => db.withLists entries := by
  cases write with
  | create dto id =>
      simp only [TemplateWrite.run, createTemplate, map_bind_except]
      rfl
  | update id dto =>
      simp only [TemplateWrite.run, updateTemplate, map_bind_except]
      rfl
  | remove id =>
      simp only [TemplateWrite.run, removeTemplate, map_bind_except]
      rfl

theorem create_withLists (dto : CreateTransactionDto) (id : String) :
    Transactions.create organizationId dto id (db.withLists entries) =
      (Transactions.create organizationId dto id db).map fun db => db.withLists entries := by
  simp only [Transactions.create, map_bind_except]
  rfl

theorem update_withLists (id : String) (dto : UpdateTransactionDto) :
    Transactions.update organizationId id dto (db.withLists entries) =
      (Transactions.update organizationId id dto db).map fun db => db.withLists entries := by
  simp only [Transactions.update, map_bind_except]
  rfl

end Writes

/-- A write to the lists changes nothing else. -/
theorem write_withoutLists (s : State) {result : Except Thrown Database}
    (h : ∀ db, result = .ok db → db = s.db.withLists db.listEntries) :
    (s.write result).1.withoutLists = s.withoutLists := by
  cases result with
  | error e => rfl
  | ok db =>
      have hdb : (s.write (.ok db)).1 = s.withLists db.listEntries := by
        rw [State.withLists, ← h db rfl]
        rfl
      rw [hdb]
      rfl

section Steps

variable [NumberText] [DriverText] [NumberParsing] (env : Environment)

/-- What an evaluation caches is derived from the other tables. -/
theorem cacheAfter_withLists (s : State) (entries : Table ListEntry) (organizationId : String)
    (context : EvaluationContext) (now : Int) :
    cacheAfter env (s.withLists entries) organizationId
        (collaborators env (s.withLists entries) organizationId context now) =
      cacheAfter env s organizationId (collaborators env s organizationId context now) := by
  have hrules : findEnabledByPriority (s.db.withLists entries) organizationId =
      findEnabledByPriority s.db organizationId := rfl
  have hconfig : Rules.getEffectiveConfig (s.db.withLists entries) organizationId =
      Rules.getEffectiveConfig s.db organizationId := rfl
  simp only [cacheAfter, collaborators, Collaborators.cacheGet, loadRules, State.withLists, hrules,
    hconfig]

/-- The state an evaluation leaves, apart from the lists. -/
theorem evaluated_withLists (s : State) (entries : Table ListEntry) (organizationId : String)
    (context : EvaluationContext) (now : Int) :
    ((s.withLists entries).evaluated env organizationId
        (collaborators env (s.withLists entries) organizationId context now)).withoutLists =
      (s.evaluated env organizationId
        (collaborators env s organizationId context now)).withoutLists := by
  simp only [State.evaluated, cacheAfter_withLists]
  rfl

/-- **Step.**  What an operation does apart from the lists does not depend on them. -/
theorem step_withLists (s : State) (entries : Table ListEntry) (op : Op) :
    (step env (s.withLists entries) op).1.withoutLists = (step env s op).1.withoutLists := by
  cases op with
  | ruleWrite organizationId write =>
      have hrun := RuleWrite.run_withLists organizationId s.db entries write
      simp only [step, State.withLists, hrun]
      cases write.run organizationId s.db <;> rfl
  | templateWrite write =>
      have hrun := TemplateWrite.run_withLists s.db entries write
      simp only [step, State.withLists, hrun]
      cases write.run s.db <;> rfl
  | plainWrite organizationId write =>
      cases write with
      | createListEntry dto id =>
          refine (write_withoutLists (s.withLists entries) ?_).trans (write_withoutLists s ?_).symm
          · exact fun db hdb => createListEntry_withLists hdb
          · exact fun db hdb => createListEntry_withLists hdb
      | removeListEntry id =>
          refine (write_withoutLists (s.withLists entries) ?_).trans (write_withoutLists s ?_).symm
          · exact fun db hdb => removeListEntry_withLists hdb
          · exact fun db hdb => removeListEntry_withLists hdb
      | createTransaction dto id =>
          have hrun := create_withLists organizationId s.db entries dto id
          simp only [step, PlainWrite.run, State.withLists, hrun]
          cases Transactions.create organizationId dto id s.db <;> rfl
      | updateTransaction id dto =>
          have hrun := update_withLists organizationId s.db entries id dto
          simp only [step, PlainWrite.run, State.withLists, hrun]
          cases Transactions.update organizationId id dto s.db <;> rfl
  | createAndEvaluate organizationId dto id now =>
      have hrun := create_withLists organizationId s.db entries dto id
      simp only [step, State.withLists, hrun]
      cases Transactions.create organizationId dto id s.db with
      | error e => rfl
      | ok db =>
          exact evaluated_withLists env { s with db } entries organizationId
            (createdContext id dto) now
  | evaluate organizationId context now =>
      exact evaluated_withLists env s entries organizationId context now
  | evaluateRule organizationId ruleId context now => rfl
  | getEffectiveConfig organizationId ruleId => rfl
  | isInList organizationId listType entityType entityValue now => rfl

/-- States that agree apart from the lists go on to agree. -/
theorem step_withoutLists_congr {a b : State} (h : a.withoutLists = b.withoutLists) (op : Op) :
    (step env a op).1.withoutLists = (step env b op).1.withoutLists := by
  rw [← step_withLists env a Table.empty op, ← step_withLists env b Table.empty op]
  exact congrArg (fun s : State => (step env s op).1.withoutLists) h

/-- The operation of the application in a call, if it is one. -/
def TenancyOp.applied : TenancyOp → Option Op
  | .application op => some op
  | _ => none

/-- A step of the whole is one of the application or touches the lists only. -/
theorem withoutLists_step {t t' : Tenancy} {s : State} {op : TenancyOp}
    (hs : t.state.withoutLists = s.withoutLists) (h : tenancyExec env t op = some t') :
    ∃ s', runFrom (execOp env) s op.applied.toList = some s' ∧
      t'.state.withoutLists = s'.withoutLists := by
  cases tenancyExec_move h with
  | applied op hadmits => exact ⟨(step env s op).1, rfl, step_withoutLists_congr env hs op⟩
  | unapplied op hrefused =>
      -- the insert that the foreign key refuses would have changed the lists only
      refine ⟨(step env s op).1, rfl, hs.trans (Eq.symm ?_)⟩
      cases op with
      | plainWrite organizationId write =>
          cases write with
          | createListEntry dto id =>
              exact write_withoutLists s fun db hdb => createListEntry_withLists hdb
          | removeListEntry | createTransaction | updateTransaction =>
              exact absurd (admits_of_none rfl) hrefused
      | ruleWrite | templateWrite | createAndEvaluate =>
          exact absurd (admits_of_none rfl) hrefused
      | evaluate | evaluateRule | getEffectiveConfig | isInList =>
          exact absurd (admits_of_none rfl) hrefused
  | created | uncreated | updated | unchanged | removed | unknown | swept => exact ⟨s, rfl, hs⟩

/-- **Organizations touch the lists only.**  Whatever organizations a run creates,
    changes and removes, and whatever expired entries it sweeps, the templates, the
    overrides, the rules, the transactions and the cache at its end are those that
    the operations of the application alone lead to: a removed organization goes on
    with all of them. -/
theorem organizations_touch_lists_only {t t' : Tenancy} {ops : List TenancyOp}
    (hrun : runFrom (tenancyExec env) t ops = some t') :
    ∃ s, runFrom (execOp env) t.state (ops.filterMap TenancyOp.applied) = some s ∧
      t'.state.withoutLists = s.withoutLists := by
  have hall : ∀ s : State, t.state.withoutLists = s.withoutLists →
      ∃ s', runFrom (execOp env) s (ops.filterMap TenancyOp.applied) = some s' ∧
        t'.state.withoutLists = s'.withoutLists := by
    induction ops generalizing t with
    | nil => exact fun s hs => ⟨s, rfl, Option.some.inj hrun ▸ hs⟩
    | cons op ops ih =>
        intro s hs
        obtain ⟨m, hm, hrest⟩ := runFrom_cons_eq_some.mp hrun
        obtain ⟨n, hn, hmn⟩ := withoutLists_step env hs hm
        obtain ⟨s', hs', heq⟩ := ih hrest n hmn
        refine ⟨s', ?_, heq⟩
        rw [List.filterMap_eq_flatMap_toList, List.flatMap_cons, runFrom_append, hn,
          Option.bind_some, ← List.filterMap_eq_flatMap_toList]
        exact hs'
  exact hall t.state rfl

end Steps

/-! ### An organization comes and goes -/

section Sample

attribute [local instance] NumberText.integers DriverText.stringsOnly NumberParsing.never

def Tenancy.initial : Tenancy := ⟨Table.empty, State.initial⟩

/-- An organization with a blacklisted country and a transaction. -/
def acmeArrives : List TenancyOp :=
  [.create ⟨"Acme Corporation", .absent⟩ sampleUuid,
    .application
      (.plainWrite sampleUuid (.createListEntry ⟨.BLACKLIST, .COUNTRY, "AR", none⟩ "entry")),
    .application (.plainWrite sampleUuid (.createTransaction sampleDto "tx"))]

/-- Afterwards it has another transaction evaluated, and tries the list again. -/
def acmeGoesOn : List TenancyOp :=
  [.application (.createAndEvaluate sampleUuid sampleDto "later" 0),
    .application
      (.plainWrite sampleUuid (.createListEntry ⟨.BLACKLIST, .COUNTRY, "AR", none⟩ "again"))]

theorem removed_organization_unlisted_sample :
    ∃ t, runFrom (tenancyExec sampleEnvironment) Tenancy.initial
        (acmeArrives ++ .remove sampleUuid :: acmeGoesOn) = some t ∧
      EntriesGrounded t ∧
        ∀ organizationId, pgUuid organizationId = pgUuid sampleUuid →
          (∀ listType entityType value now,
            isListed t.state.db.listEntries organizationId listType entityType value now =
              .ok false) ∧
          ∀ dto entryId, tenancyExec sampleEnvironment t
            (.application (.plainWrite organizationId (.createListEntry dto entryId))) =
              some t := by
  obtain ⟨t, ht⟩ := exists_runFrom (exists_tenancyExec sampleEnvironment) Tenancy.initial
    (acmeArrives ++ .remove sampleUuid :: acmeGoesOn)
  refine ⟨t, ht, removed_organization_unlisted ?_ ht ?_⟩
  · exact fun _ h => absurd h List.not_mem_nil
  · intro op hop dto
    rcases List.mem_cons.mp hop with rfl | hop
    · exact TenancyOp.noConfusion
    · rw [List.mem_singleton.mp hop]
      exact TenancyOp.noConfusion

theorem organizations_touch_lists_only_sample :
    ∃ t s, runFrom (tenancyExec sampleEnvironment) Tenancy.initial
        (acmeArrives ++ .remove sampleUuid :: acmeGoesOn) = some t ∧
      runFrom (execOp sampleEnvironment) State.initial
        ((acmeArrives ++ .remove sampleUuid :: acmeGoesOn).filterMap TenancyOp.applied) = some s ∧
      t.state.withoutLists = s.withoutLists := by
  obtain ⟨t, ht⟩ := exists_runFrom (exists_tenancyExec sampleEnvironment) Tenancy.initial
    (acmeArrives ++ .remove sampleUuid :: acmeGoesOn)
  obtain ⟨s, hs, heq⟩ := organizations_touch_lists_only sampleEnvironment ht
  exact ⟨t, s, ht, hs, heq⟩

end Sample

end RulesEngine
