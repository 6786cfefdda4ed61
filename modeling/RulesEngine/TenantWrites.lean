import RulesEngine.Application
import RulesEngine.TenantViews

/-!
# The writes of the services, seen from outside and from inside

For each write of `RulesService`, `TemplateOverridesService`, `ListsService` and
`TransactionsService`: it commits to the tables of its own organization
(`_commit`), and on databases with the same view for that organization it ends
the same way (`_agree`).  Templates belong to nobody, so their writes have only
the second property, and for every organization.
-/

namespace RulesEngine

open RulesEngine.Foundations
open RulesEngine.Rules
open RulesEngine.Lists
open RulesEngine.Engine
open RulesEngine.Transactions

/-! ### Outside: commits -/

theorem findTemplate_mem {db : Database} {id : String} {template : RuleTemplate}
    (h : findTemplate db id = .ok template) : template ∈ db.templates.rows := by
  unfold findTemplate at h
  cases hget : db.templates.get? (pgUuid id) with
  | none => simp [hget] at h
  | some found =>
      rw [hget] at h
      cases h
      exact (Table.mem_of_get? hget).1

section Commits

variable {organizationId id : String} {db db' : Database}

theorem createRule_commit {dto : CreateRuleDto} {createdAt : Int}
    (h : createRule organizationId dto id createdAt db = .ok db') :
    Commit (pgUuid organizationId) [id] db db' := by
  unfold createRule at h
  obtain ⟨-, -, h⟩ := bind_eq_ok.mp h
  obtain ⟨table, hinsert, h⟩ := bind_eq_ok.mp h
  cases h
  obtain ⟨hfresh, rfl⟩ := insertRow_ok hinsert
  exact .rules _ (.inserted _ rfl List.mem_cons_self hfresh)

theorem updateRule_commit {dto : UpdateRuleDto}
    (h : updateRule organizationId id dto db = .ok db') :
    Commit (pgUuid organizationId) [] db db' := by
  unfold updateRule at h
  obtain ⟨rule, hfind, h⟩ := bind_eq_ok.mp h
  obtain ⟨rule', hassign, h⟩ := bind_eq_ok.mp h
  obtain ⟨-, -, h⟩ := bind_eq_ok.mp h
  cases h
  obtain ⟨hmem, -, horg⟩ := findOneOf_ok hfind
  obtain ⟨hid, horg', -⟩ := assignRule_ok hassign
  exact .rules _ (.replaced rule rule' hmem hid.symm horg (horg'.trans horg))

theorem removeRule_commit (h : removeRule organizationId id db = .ok db') :
    Commit (pgUuid organizationId) [] db db' := by
  unfold removeRule at h
  obtain ⟨rule, hfind, h⟩ := bind_eq_ok.mp h
  cases h
  obtain ⟨hmem, -, horg⟩ := findOneOf_ok hfind
  exact .rules _ (.removed rule hmem horg)

theorem createOverride_commit {dto : CreateTemplateOverrideDto}
    (h : createOverride organizationId dto id db = .ok db') :
    Commit (pgUuid organizationId) [id] db db' := by
  unfold createOverride at h
  obtain ⟨template, -, h⟩ := bind_eq_ok.mp h
  cases hfound : findByTemplate db organizationId dto.idTemplate with
  | some override => simp [hfound] at h
  | none =>
      simp only [hfound] at h
      obtain ⟨table, hinsert, h⟩ := bind_eq_ok.mp h
      cases h
      obtain ⟨hfresh, rfl⟩ := insertRow_ok hinsert
      exact .overrides _ (.inserted _ rfl List.mem_cons_self hfresh)

theorem updateOverride_commit {dto : UpdateTemplateOverrideDto}
    (h : updateOverride organizationId id dto db = .ok db') :
    Commit (pgUuid organizationId) [] db db' := by
  unfold updateOverride at h
  obtain ⟨override, hfind, h⟩ := bind_eq_ok.mp h
  obtain ⟨overrides, -, h⟩ := bind_eq_ok.mp h
  obtain ⟨enabled, -, h⟩ := bind_eq_ok.mp h
  cases h
  obtain ⟨hmem, -, horg⟩ := findOneOf_ok hfind
  exact .overrides _ (.replaced override _ hmem rfl horg horg)

theorem removeOverride_commit (h : removeOverride organizationId id db = .ok db') :
    Commit (pgUuid organizationId) [] db db' := by
  unfold removeOverride at h
  obtain ⟨override, hfind, h⟩ := bind_eq_ok.mp h
  cases h
  obtain ⟨hmem, -, horg⟩ := findOneOf_ok hfind
  exact .overrides _ (.removed override hmem horg)

theorem createListEntry_commit {dto : CreateListEntryDto}
    (h : createListEntry organizationId dto id db = .ok db') :
    Commit (pgUuid organizationId) [id] db db' := by
  unfold createListEntry at h
  split at h
  · cases h
  · obtain ⟨expiresAt, -, h⟩ := bind_eq_ok.mp h
    obtain ⟨table, hinsert, h⟩ := bind_eq_ok.mp h
    cases h
    obtain ⟨hfresh, rfl⟩ := insertRow_ok hinsert
    exact .listEntries _ (.inserted _ rfl List.mem_cons_self hfresh)

theorem removeListEntry_commit (h : removeListEntry organizationId id db = .ok db') :
    Commit (pgUuid organizationId) [] db db' := by
  unfold removeListEntry at h
  obtain ⟨entry, hfind, h⟩ := bind_eq_ok.mp h
  cases h
  obtain ⟨hmem, -, horg⟩ := findOneOf_ok hfind
  exact .listEntries _ (.removed entry hmem horg)

theorem create_commit {dto : CreateTransactionDto}
    (h : create organizationId dto id db = .ok db') :
    Commit (pgUuid organizationId) [id] db db' := by
  obtain ⟨tx, htx, hfresh, rfl⟩ := create_ok_iff.mp h
  have hrow := createdRow_ok htx
  exact .transactions _ (.inserted tx hrow.organization
    (List.mem_singleton.mpr hrow.id) (hrow.fresh hfresh))

theorem create_sameConfig {dto : CreateTransactionDto}
    (h : create organizationId dto id db = .ok db') (o : String) : SameConfig o db' db := by
  obtain ⟨tx, -, -, rfl⟩ := create_ok_iff.mp h
  exact ⟨rfl, rfl, rfl⟩

theorem update_commit {dto : UpdateTransactionDto}
    (h : update organizationId id dto db = .ok db') :
    Commit (pgUuid organizationId) [] db db' := by
  unfold update at h
  obtain ⟨transaction, hfind, h⟩ := bind_eq_ok.mp h
  obtain ⟨isBlocked, -, h⟩ := bind_eq_ok.mp h
  obtain ⟨isVoided, -, h⟩ := bind_eq_ok.mp h
  cases h
  obtain ⟨hmem, -, horg⟩ := findOneOf_ok hfind
  exact .transactions _ (.replaced transaction _ hmem rfl horg horg)

end Commits

/-- The ids PostgreSQL generates for a write. -/
def RuleWrite.generatedIds : RuleWrite → List String
  | .createRule _ id _ => [id]
  | .updateRule .. => []
  | .removeRule _ => []
  | .createOverride _ id => [id]
  | .updateOverride .. => []
  | .removeOverride _ => []

def PlainWrite.generatedIds : PlainWrite → List String
  | .createListEntry _ id => [id]
  | .removeListEntry _ => []
  | .createTransaction _ id => [id]
  | .updateTransaction .. => []

def TemplateWrite.generatedIds : TemplateWrite → List String
  | .create _ id => [id]
  | .update .. => []
  | .remove _ => []

section Outside

variable {organizationId : String} {db db' : Database}

theorem RuleWrite.commit {write : RuleWrite} (h : write.run organizationId db = .ok db') :
    Commit (pgUuid organizationId) write.generatedIds db db' := by
  cases write with
  | createRule dto id createdAt => exact createRule_commit h
  | updateRule id dto => exact updateRule_commit h
  | removeRule id => exact removeRule_commit h
  | createOverride dto id => exact createOverride_commit h
  | updateOverride id dto => exact updateOverride_commit h
  | removeOverride id => exact removeOverride_commit h

theorem PlainWrite.commit {write : PlainWrite} (h : write.run organizationId db = .ok db') :
    Commit (pgUuid organizationId) write.generatedIds db db' := by
  cases write with
  | createListEntry dto id => exact createListEntry_commit h
  | removeListEntry id => exact removeListEntry_commit h
  | createTransaction dto id => exact create_commit h
  | updateTransaction id dto => exact update_commit h

/-- List entries and transactions do not enter the configuration. -/
theorem PlainWrite.sameConfig {write : PlainWrite} (h : write.run organizationId db = .ok db')
    (o : String) : SameConfig o db' db := by
  cases write with
  | createListEntry dto id =>
      simp only [PlainWrite.run, Lists.createListEntry] at h
      split at h
      · cases h
      · obtain ⟨expiresAt, -, h⟩ := bind_eq_ok.mp h
        obtain ⟨table, -, h⟩ := bind_eq_ok.mp h
        cases h
        exact ⟨rfl, rfl, rfl⟩
  | removeListEntry id =>
      obtain ⟨entry, -, h⟩ := bind_eq_ok.mp h
      cases h
      exact ⟨rfl, rfl, rfl⟩
  | createTransaction dto id => exact create_sameConfig h o
  | updateTransaction id dto =>
      obtain ⟨transaction, -, h⟩ := bind_eq_ok.mp h
      obtain ⟨isBlocked, -, h⟩ := bind_eq_ok.mp h
      obtain ⟨isVoided, -, h⟩ := bind_eq_ok.mp h
      cases h
      exact ⟨rfl, rfl, rfl⟩

theorem TemplateWrite.uses {write : TemplateWrite} (h : write.run db = .ok db') {id : String}
    (huses : db'.Uses id) : db.Uses id ∨ id ∈ write.generatedIds := by
  cases write with
  | create dto newId =>
      simp only [TemplateWrite.run, createTemplate] at h
      obtain ⟨-, -, h⟩ := bind_eq_ok.mp h
      obtain ⟨table, hinsert, h⟩ := bind_eq_ok.mp h
      cases h
      obtain ⟨-, rfl⟩ := insertRow_ok hinsert
      rcases huses with htaken | hrest
      · rcases Table.taken_of_put htaken with hold | rfl
        · exact Or.inl (Or.inl hold)
        · exact Or.inr List.mem_cons_self
      · exact Or.inl (Or.inr hrest)
  | update templateId dto =>
      simp only [TemplateWrite.run, updateTemplate] at h
      obtain ⟨template, hfind, h⟩ := bind_eq_ok.mp h
      obtain ⟨name, -, h⟩ := bind_eq_ok.mp h
      obtain ⟨config, -, h⟩ := bind_eq_ok.mp h
      obtain ⟨-, -, h⟩ := bind_eq_ok.mp h
      cases h
      have hupdated : db.templates.Taken template.id := Table.taken_of_mem (findTemplate_mem hfind)
      rcases huses with htaken | hrest
      · rcases Table.taken_of_put htaken with hold | rfl
        · exact Or.inl (Or.inl hold)
        · exact Or.inl (Or.inl hupdated)
      · exact Or.inl (Or.inr hrest)
  | remove templateId =>
      simp only [TemplateWrite.run, removeTemplate] at h
      obtain ⟨template, -, h⟩ := bind_eq_ok.mp h
      cases h
      refine Or.inl ?_
      rcases huses with htaken | htaken | htaken | hrest
      · exact Or.inl (Table.taken_of_retain htaken)
      · exact Or.inr (Or.inl (Table.taken_of_retain htaken))
      · have hbefore := Table.taken_of_mapRows (key_clearTemplate template.id) htaken
        exact Or.inr (Or.inr (Or.inl hbefore))
      · exact Or.inr (Or.inr (Or.inr hrest))

end Outside

/-! ### Inside: tables with the same rows of an organization -/

section Tables

variable {ρ : Type} [TenantRow ρ] {o : String} {a b : Table ρ}

theorem insertRow_agree (h : ownedBy o a = ownedBy o b) {row : ρ} (horg : organization row = o)
    (ha : ¬ a.Taken (key row)) (hb : ¬ b.Taken (key row)) :
    Agree (fun a' b' => ownedBy o a' = ownedBy o b') (insertRow a row) (insertRow b row) := by
  have hput : ∀ table : Table ρ, ¬ table.Taken (key row) →
      ownedBy o (table.put row) = putRow row (ownedBy o table) := by
    intro table hfresh
    apply ownedBy_put_own horg
    intro old hold hkey
    exact absurd (List.mem_map.mpr ⟨old, hold, hkey⟩) hfresh
  unfold insertRow
  rw [if_neg ha, if_neg hb]
  exact (hput a ha).trans ((congrArg (putRow row) h).trans (hput b hb).symm)

theorem ownedBy_replace (h : ownedBy o a = ownedBy o b) {old : ρ} (row : ρ)
    (hold : old ∈ ownedBy o a) (hkey : key old = key row) (horg : organization row = o) :
    ownedBy o (a.put row) = ownedBy o (b.put row) := by
  have hput : ∀ table : Table ρ, old ∈ ownedBy o table →
      ownedBy o (table.put row) = putRow row (ownedBy o table) := by
    intro table hmem
    obtain ⟨hin, holdOrg⟩ := mem_ownedBy.mp hmem
    apply ownedBy_put_own horg
    intro other hother hotherKey
    exact (Table.eq_of_key_eq hother hin (hotherKey.trans hkey.symm)) ▸ holdOrg
  exact (hput a hold).trans ((congrArg (putRow row) h).trans (hput b (h ▸ hold)).symm)

theorem ownedBy_remove (h : ownedBy o a = ownedBy o b) (p : ρ → Bool) :
    ownedBy o (a.retain p) = ownedBy o (b.retain p) := by
  rw [ownedBy_retain, ownedBy_retain, h]

end Tables

/-! ### Inside: reads -/

section Reads

variable {organizationId : String} {a b : Database}

theorem findTemplate_congr {o : String} (h : SameConfig o a b) (id : String) :
    findTemplate a id = findTemplate b id := by
  unfold findTemplate
  rw [h.templates]

theorem templateExists_congr {o : String} (h : SameConfig o a b) (idTemplate : Option String) :
    templateExists a idTemplate = templateExists b idTemplate := by
  unfold templateExists
  rw [h.templates]

theorem findRule_congr (h : SameConfig (pgUuid organizationId) a b) (id : String) :
    findRule a organizationId id = findRule b organizationId id :=
  findOneOf_congr h.rules "Rule" id

theorem findOverride_congr (h : SameConfig (pgUuid organizationId) a b) (id : String) :
    findOverride a organizationId id = findOverride b organizationId id :=
  findOneOf_congr h.overrides "Template override" id

theorem findListEntry_congr (h : SameView (pgUuid organizationId) a b) (id : String) :
    findListEntry a organizationId id = findListEntry b organizationId id :=
  findOneOf_congr h.listEntries "List entry" id

theorem findTransaction_congr (h : SameView (pgUuid organizationId) a b) (id : String) :
    findTransaction a organizationId id = findTransaction b organizationId id :=
  findOneOf_congr h.transactions "Transaction" id

theorem findByTemplate_congr (h : SameConfig (pgUuid organizationId) a b) (templateId : String) :
    findByTemplate a organizationId templateId = findByTemplate b organizationId templateId := by
  have hread : ∀ db : Database, findByTemplate db organizationId templateId =
      (ownedBy (pgUuid organizationId) db.overrides).find? fun override =>
        override.idTemplate = pgUuid templateId := by
    intro db
    rw [ownedBy, List.find?_filter]
    unfold findByTemplate
    congr 1
    funext override
    simp only [Bool.decide_and, Bool.decide_eq_true]
    rfl
  rw [hread a, hread b, h.overrides]

theorem getMergedConfig_congr (h : SameConfig (pgUuid organizationId) a b) (templateId : String) :
    getMergedConfig a organizationId templateId = getMergedConfig b organizationId templateId := by
  unfold getMergedConfig
  rw [findTemplate_congr h, findByTemplate_congr h]

theorem getEffectiveConfig_congr (h : SameConfig (pgUuid organizationId) a b) :
    Rules.getEffectiveConfig a organizationId = Rules.getEffectiveConfig b organizationId := by
  funext rule
  unfold Rules.getEffectiveConfig
  simp only [getMergedConfig_congr h]

theorem getEffectiveConfigById_congr (h : SameConfig (pgUuid organizationId) a b)
    (ruleId : String) :
    getEffectiveConfigById a organizationId ruleId =
      getEffectiveConfigById b organizationId ruleId := by
  unfold getEffectiveConfigById
  rw [findRule_congr h]
  simp only [getEffectiveConfig_congr h]

theorem findEnabledByPriority_congr (h : SameConfig (pgUuid organizationId) a b) :
    findEnabledByPriority a organizationId = findEnabledByPriority b organizationId := by
  have hread : ∀ db : Database, findEnabledByPriority db organizationId =
      ((ownedBy (pgUuid organizationId) db.rules).filter fun rule =>
        rule.enabled).insertionSort RuleOrder := by
    intro db
    rw [ownedBy, List.filter_filter]
    unfold findEnabledByPriority
    congr 2
    funext rule
    simp only [Bool.decide_and, Bool.decide_eq_true, Bool.and_comm]
    rfl
  rw [hread a, hread b, h.rules]

theorem derivedRules_congr (h : SameConfig (pgUuid organizationId) a b) :
    derivedRules a organizationId = derivedRules b organizationId := by
  unfold derivedRules
  rw [getEffectiveConfig_congr h, findEnabledByPriority_congr h]

end Reads

/-! ### Inside: writes -/

section Writes

variable {organizationId id : String} {a b : Database}

theorem createRule_agree (h : SameView (pgUuid organizationId) a b) (dto : CreateRuleDto)
    (createdAt : Int) (ha : ¬ a.rules.Taken id) (hb : ¬ b.rules.Taken id) :
    Agree (SameView (pgUuid organizationId)) (createRule organizationId dto id createdAt a)
      (createRule organizationId dto id createdAt b) := by
  unfold createRule
  simp only [templateExists_congr h.toSameConfig]
  apply Agree.bind_same
  intro _ _
  apply Agree.bind (insertRow_agree h.rules rfl ha hb)
  intro table table' hrows
  exact { h with rules := hrows }

theorem updateRule_agree (h : SameView (pgUuid organizationId) a b) (dto : UpdateRuleDto) :
    Agree (SameView (pgUuid organizationId)) (updateRule organizationId id dto a)
      (updateRule organizationId id dto b) := by
  unfold updateRule
  simp only [templateExists_congr h.toSameConfig, ← findRule_congr h.toSameConfig]
  apply Agree.bind_same
  intro rule hfind
  apply Agree.bind_same
  intro rule' hassign
  apply Agree.bind_same
  intro _ _
  obtain ⟨hmem, -, horg⟩ := findOneOf_ok hfind
  obtain ⟨hid, horg', -⟩ := assignRule_ok hassign
  have hrows := ownedBy_replace h.rules rule' (mem_ownedBy.mpr ⟨hmem, horg⟩) hid.symm
    (horg'.trans horg)
  exact { h with rules := hrows }

theorem removeRule_agree (h : SameView (pgUuid organizationId) a b) :
    Agree (SameView (pgUuid organizationId)) (removeRule organizationId id a)
      (removeRule organizationId id b) := by
  unfold removeRule
  simp only [← findRule_congr h.toSameConfig]
  apply Agree.bind_same
  intro rule _
  exact { h with rules := ownedBy_remove h.rules _ }

theorem createOverride_agree (h : SameView (pgUuid organizationId) a b)
    (dto : CreateTemplateOverrideDto) (ha : ¬ a.overrides.Taken id)
    (hb : ¬ b.overrides.Taken id) :
    Agree (SameView (pgUuid organizationId)) (createOverride organizationId dto id a)
      (createOverride organizationId dto id b) := by
  unfold createOverride
  simp only [findTemplate_congr h.toSameConfig, findByTemplate_congr h.toSameConfig]
  apply Agree.bind_same
  intro template _
  split
  · exact Agree.error _
  · apply Agree.bind (insertRow_agree h.overrides rfl ha hb)
    intro table table' hrows
    exact { h with overrides := hrows }

theorem updateOverride_agree (h : SameView (pgUuid organizationId) a b)
    (dto : UpdateTemplateOverrideDto) :
    Agree (SameView (pgUuid organizationId)) (updateOverride organizationId id dto a)
      (updateOverride organizationId id dto b) := by
  unfold updateOverride
  simp only [← findOverride_congr h.toSameConfig]
  apply Agree.bind_same
  intro override hfind
  apply Agree.bind_same
  intro overrides _
  apply Agree.bind_same
  intro enabled _
  obtain ⟨hmem, -, horg⟩ := findOneOf_ok hfind
  have hrows := ownedBy_replace h.overrides { override with overrides, enabled }
    (mem_ownedBy.mpr ⟨hmem, horg⟩) rfl horg
  exact { h with overrides := hrows }

theorem removeOverride_agree (h : SameView (pgUuid organizationId) a b) :
    Agree (SameView (pgUuid organizationId)) (removeOverride organizationId id a)
      (removeOverride organizationId id b) := by
  unfold removeOverride
  simp only [← findOverride_congr h.toSameConfig]
  apply Agree.bind_same
  intro override _
  exact { h with overrides := ownedBy_remove h.overrides _ }

theorem createListEntry_agree (h : SameView (pgUuid organizationId) a b)
    (dto : CreateListEntryDto) (ha : ¬ a.listEntries.Taken id) (hb : ¬ b.listEntries.Taken id) :
    Agree (SameView (pgUuid organizationId)) (createListEntry organizationId dto id a)
      (createListEntry organizationId dto id b) := by
  have hread : ∀ (db : Database) (p : ListEntry → Prop),
      (∃ entry ∈ db.listEntries.rows, entry.idOrganization = pgUuid organizationId ∧ p entry) ↔
        ∃ entry ∈ ownedBy (pgUuid organizationId) db.listEntries, p entry := by
    intro db p
    simp only [mem_ownedBy, and_assoc]
    rfl
  unfold createListEntry
  simp only [hread, h.listEntries]
  split
  · exact Agree.error _
  · apply Agree.bind_same
    intro expiresAt _
    apply Agree.bind (insertRow_agree h.listEntries rfl ha hb)
    intro table table' hrows
    exact { h with listEntries := hrows }

theorem removeListEntry_agree (h : SameView (pgUuid organizationId) a b) :
    Agree (SameView (pgUuid organizationId)) (removeListEntry organizationId id a)
      (removeListEntry organizationId id b) := by
  unfold removeListEntry
  simp only [← findListEntry_congr h]
  apply Agree.bind_same
  intro entry _
  exact { h with listEntries := ownedBy_remove h.listEntries _ }

theorem create_agree (h : SameView (pgUuid organizationId) a b) (dto : CreateTransactionDto)
    (ha : ¬ a.transactions.Taken id) (hb : ¬ b.transactions.Taken id) :
    Agree (SameView (pgUuid organizationId)) (create organizationId dto id a)
      (create organizationId dto id b) := by
  unfold create
  apply Agree.bind_same
  intro tx htx
  have hrow := createdRow_ok htx
  apply Agree.bind (insertRow_agree h.transactions hrow.organization (hrow.fresh ha)
    (hrow.fresh hb))
  intro table table' hrows
  exact { h with transactions := hrows }

theorem update_agree (h : SameView (pgUuid organizationId) a b) (dto : UpdateTransactionDto) :
    Agree (SameView (pgUuid organizationId)) (update organizationId id dto a)
      (update organizationId id dto b) := by
  unfold update
  simp only [← findTransaction_congr h]
  apply Agree.bind_same
  intro transaction hfind
  apply Agree.bind_same
  intro isBlocked _
  apply Agree.bind_same
  intro isVoided _
  obtain ⟨hmem, -, horg⟩ := findOneOf_ok hfind
  have hrows := ownedBy_replace h.transactions { transaction with isBlocked, isVoided }
    (mem_ownedBy.mpr ⟨hmem, horg⟩) rfl horg
  exact { h with transactions := hrows }

theorem RuleWrite.agree (h : SameView (pgUuid organizationId) a b) (write : RuleWrite)
    (hfresh : ∀ id ∈ write.generatedIds, ¬ a.Uses id ∧ ¬ b.Uses id) :
    Agree (SameView (pgUuid organizationId)) (write.run organizationId a)
      (write.run organizationId b) := by
  cases write with
  | createRule dto newId createdAt =>
      obtain ⟨ha, hb⟩ := hfresh newId List.mem_cons_self
      exact createRule_agree h dto createdAt (mt Database.uses_rules ha) (mt Database.uses_rules hb)
  | updateRule ruleId dto => exact updateRule_agree h dto
  | removeRule ruleId => exact removeRule_agree h
  | createOverride dto newId =>
      obtain ⟨ha, hb⟩ := hfresh newId List.mem_cons_self
      exact createOverride_agree h dto (mt Database.uses_overrides ha)
        (mt Database.uses_overrides hb)
  | updateOverride overrideId dto => exact updateOverride_agree h dto
  | removeOverride overrideId => exact removeOverride_agree h

theorem PlainWrite.agree (h : SameView (pgUuid organizationId) a b) (write : PlainWrite)
    (hfresh : ∀ id ∈ write.generatedIds, ¬ a.Uses id ∧ ¬ b.Uses id) :
    Agree (SameView (pgUuid organizationId)) (write.run organizationId a)
      (write.run organizationId b) := by
  cases write with
  | createListEntry dto newId =>
      obtain ⟨ha, hb⟩ := hfresh newId List.mem_cons_self
      exact createListEntry_agree h dto (mt Database.uses_listEntries ha)
        (mt Database.uses_listEntries hb)
  | removeListEntry entryId => exact removeListEntry_agree h
  | createTransaction dto newId =>
      obtain ⟨ha, hb⟩ := hfresh newId List.mem_cons_self
      exact create_agree h dto (mt Database.uses_transactions ha)
        (mt Database.uses_transactions hb)
  | updateTransaction transactionId dto => exact update_agree h dto

/-- Template writes look the same to every organization. -/
theorem TemplateWrite.agree {o : String} (h : SameView o a b) (write : TemplateWrite) :
    Agree (SameView o) (write.run a) (write.run b) := by
  have hname : ∀ template, uniqueName a template = uniqueName b template := by
    intro template
    unfold uniqueName
    rw [h.templates]
  cases write with
  | create dto newId =>
      simp only [TemplateWrite.run, createTemplate, hname, h.templates]
      apply Agree.bind_same
      intro _ _
      apply Agree.bind_same
      intro templates _
      exact { h with templates := rfl }
  | update id dto =>
      simp only [TemplateWrite.run, updateTemplate, hname, findTemplate_congr h.toSameConfig,
        h.templates]
      apply Agree.bind_same
      intro template _
      apply Agree.bind_same
      intro name _
      apply Agree.bind_same
      intro config _
      apply Agree.bind_same
      intro _ _
      exact { h with templates := rfl }
  | remove id =>
      simp only [TemplateWrite.run, removeTemplate, findTemplate_congr h.toSameConfig,
        h.templates]
      apply Agree.bind_same
      intro template _
      have horg : ∀ rule, organization (clearTemplate template.id rule) = organization rule := by
        intro rule
        unfold clearTemplate
        split <;> rfl
      refine ⟨⟨rfl, ownedBy_remove h.overrides _, ?_⟩, h.listEntries, h.transactions⟩
      rw [ownedBy_mapRows o a.rules _ horg, ownedBy_mapRows o b.rules _ horg, h.rules]

end Writes

end RulesEngine
