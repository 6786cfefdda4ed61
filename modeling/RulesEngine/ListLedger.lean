import RulesEngine.DatabaseWrites
import RulesEngine.ListExpiry

/-!
# The ledger of list entries

Entries come to `list_entries` by `create` and go by `remove`, each of which may
be refused.  After every run of the application the table holds the entries that
the requests that went through leave (`mem_listEntries_iff`): whatever else was
written in between, whoever asked, and whatever expiry an entry has.
-/

namespace RulesEngine

open RulesEngine.Foundations
open RulesEngine.Rules
open RulesEngine.Lists
open RulesEngine.Engine
open RulesEngine.Transactions

/-! ### The log -/

/-- The entry in the log for an operation: none if its write throws. -/
def Op.accepted (db : Database) (op : Op) : List Op :=
  match op.write db with
  | .ok _ => [op]
  | .error _ => []

/-- The operations of a run whose write went through. -/
def acceptedOps : Database → List Op → List Op := traceOf writeExec Op.accepted

/-- The row of an accepted creation. -/
def createdEntry (organizationId : String) (dto : CreateListEntryDto) (id : String)
    (expiresAt : Option Int) : ListEntry where
  id := id
  idOrganization := pgUuid organizationId
  listType := dto.listType
  entityType := dto.entityType
  entityValue := dto.entityValue
  expiresAt := expiresAt

def CreatesEntry : Op → ListEntry → Prop
  | .plainWrite organizationId (.createListEntry dto id), entry =>
      storedTimestamp dto.expiresAt = .ok entry.expiresAt ∧
        entry = createdEntry organizationId dto id entry.expiresAt
  | _, _ => False

/-- An accepted removal names the entry by its id; `remove` has checked the
    organization. -/
def RemovesEntry : Op → ListEntry → Prop
  | .plainWrite _ (.removeListEntry id), entry => entry.id = pgUuid id
  | _, _ => False

/-! ### Writes elsewhere -/

section Writes

variable {organizationId : String} {db db' : Database}

theorem RuleWrite.keeps_plain {write : RuleWrite} (h : write.run organizationId db = .ok db') :
    db'.listEntries = db.listEntries ∧ db'.transactions = db.transactions := by
  cases write with
  | createRule dto id createdAt =>
      obtain ⟨⟨⟩, -, h⟩ := bind_eq_ok.mp h
      obtain ⟨table, -, h⟩ := bind_eq_ok.mp h
      cases h
      exact ⟨rfl, rfl⟩
  | updateRule id dto =>
      obtain ⟨rule, -, h⟩ := bind_eq_ok.mp h
      obtain ⟨rule', -, h⟩ := bind_eq_ok.mp h
      obtain ⟨⟨⟩, -, h⟩ := bind_eq_ok.mp h
      cases h
      exact ⟨rfl, rfl⟩
  | removeRule id =>
      obtain ⟨rule, -, h⟩ := bind_eq_ok.mp h
      cases h
      exact ⟨rfl, rfl⟩
  | createOverride dto id =>
      obtain ⟨template, -, h⟩ := bind_eq_ok.mp h
      cases hfound : findByTemplate db organizationId dto.idTemplate with
      | some override =>
          rw [hfound] at h
          cases h
      | none =>
          rw [hfound] at h
          obtain ⟨table, -, h⟩ := bind_eq_ok.mp h
          cases h
          exact ⟨rfl, rfl⟩
  | updateOverride id dto =>
      obtain ⟨override, -, h⟩ := bind_eq_ok.mp h
      obtain ⟨overrides, -, h⟩ := bind_eq_ok.mp h
      obtain ⟨enabled, -, h⟩ := bind_eq_ok.mp h
      cases h
      exact ⟨rfl, rfl⟩
  | removeOverride id =>
      obtain ⟨override, -, h⟩ := bind_eq_ok.mp h
      cases h
      exact ⟨rfl, rfl⟩

theorem create_listEntries_eq {dto : CreateTransactionDto} {id : String}
    (h : create organizationId dto id db = .ok db') : db'.listEntries = db.listEntries := by
  obtain ⟨tx, -, -, rfl⟩ := create_ok_iff.mp h
  rfl

theorem update_listEntries_eq {id : String} {dto : UpdateTransactionDto}
    (h : Transactions.update organizationId id dto db = .ok db') :
    db'.listEntries = db.listEntries := by
  obtain ⟨tx, -, h⟩ := bind_eq_ok.mp h
  obtain ⟨isBlocked, -, h⟩ := bind_eq_ok.mp h
  obtain ⟨isVoided, -, h⟩ := bind_eq_ok.mp h
  cases h
  rfl

theorem TemplateWrite.keeps_plain {write : TemplateWrite} (h : write.run db = .ok db') :
    db'.listEntries = db.listEntries ∧ db'.transactions = db.transactions := by
  cases write with
  | create dto id =>
      obtain ⟨⟨⟩, -, h⟩ := bind_eq_ok.mp h
      obtain ⟨table, -, h⟩ := bind_eq_ok.mp h
      cases h
      exact ⟨rfl, rfl⟩
  | update id dto =>
      obtain ⟨template, -, h⟩ := bind_eq_ok.mp h
      obtain ⟨name, -, h⟩ := bind_eq_ok.mp h
      obtain ⟨config, -, h⟩ := bind_eq_ok.mp h
      obtain ⟨⟨⟩, -, h⟩ := bind_eq_ok.mp h
      cases h
      exact ⟨rfl, rfl⟩
  | remove id =>
      obtain ⟨template, -, h⟩ := bind_eq_ok.mp h
      cases h
      exact ⟨rfl, rfl⟩

/-! ### Writes to the table -/

/-- The database with other list entries. -/
def Database.withLists (db : Database) (entries : Table ListEntry) : Database :=
  { db with listEntries := entries }

/-- `create` changes nothing else. -/
theorem createListEntry_withLists {dto : CreateListEntryDto} {id : String}
    (h : createListEntry organizationId dto id db = .ok db') :
    db' = db.withLists db'.listEntries := by
  unfold createListEntry at h
  split at h
  · cases h
  · obtain ⟨expiresAt, -, h⟩ := bind_eq_ok.mp h
    obtain ⟨table, -, h⟩ := bind_eq_ok.mp h
    cases h
    rfl

/-- `remove` changes nothing else. -/
theorem removeListEntry_withLists {id : String}
    (h : removeListEntry organizationId id db = .ok db') :
    db' = db.withLists db'.listEntries := by
  obtain ⟨entry, -, h⟩ := bind_eq_ok.mp h
  cases h
  rfl

/-- `create` stores one entry, under an id no entry had. -/
theorem mem_createListEntry {dto : CreateListEntryDto} {id : String}
    (h : createListEntry organizationId dto id db = .ok db') (entry : ListEntry) :
    entry ∈ db'.listEntries.rows ↔
      (storedTimestamp dto.expiresAt = .ok entry.expiresAt ∧
        entry = createdEntry organizationId dto id entry.expiresAt) ∨
      entry ∈ db.listEntries.rows := by
  unfold createListEntry at h
  split at h
  · cases h
  · obtain ⟨expiresAt, hexpiry, h⟩ := bind_eq_ok.mp h
    obtain ⟨table, hinsert, h⟩ := bind_eq_ok.mp h
    cases h
    obtain ⟨hfresh, rfl⟩ := insertRow_ok hinsert
    rw [Table.mem_put]
    constructor
    · rintro (rfl | ⟨hold, -⟩)
      · exact Or.inl ⟨hexpiry, rfl⟩
      · exact Or.inr hold
    · rintro (⟨hstored, hentry⟩ | hold)
      · obtain rfl := Except.ok.inj (hexpiry.symm.trans hstored)
        exact Or.inl hentry
      · refine Or.inr ⟨hold, fun hkey => hfresh ?_⟩
        exact hkey ▸ Table.taken_of_mem hold

/-- `remove` deletes the entry with the id, which belongs to the organization. -/
theorem mem_removeListEntry {id : String} (h : removeListEntry organizationId id db = .ok db')
    (entry : ListEntry) :
    entry ∈ db'.listEntries.rows ↔ entry ∈ db.listEntries.rows ∧ ¬ entry.id = pgUuid id := by
  obtain ⟨found, hfind, h⟩ := bind_eq_ok.mp h
  cases h
  obtain ⟨-, hkey, -⟩ := findOneOf_ok hfind
  have hid : found.id = pgUuid id := hkey
  simp only [Table.rows_retain, List.mem_filter, hid, decide_eq_true_eq, ne_eq]

/-- **Step.**  What a write that goes through does to the table is in the log. -/
theorem mem_listEntries_write {op : Op} (h : op.write db = .ok db') (entry : ListEntry) :
    entry ∈ db'.listEntries.rows ↔
      CreatesEntry op entry ∨ entry ∈ db.listEntries.rows ∧ ¬ RemovesEntry op entry := by
  have hkept : db'.listEntries = db.listEntries → ¬ CreatesEntry op entry →
      ¬ RemovesEntry op entry →
      (entry ∈ db'.listEntries.rows ↔
        CreatesEntry op entry ∨ entry ∈ db.listEntries.rows ∧ ¬ RemovesEntry op entry) := by
    intro heq hcreates hremoves
    rw [heq]
    tauto
  cases op with
  | ruleWrite organizationId write => exact hkept (RuleWrite.keeps_plain h).1 id id
  | plainWrite organizationId write =>
      cases write with
      | createListEntry dto id =>
          refine (mem_createListEntry h entry).trans (or_congr Iff.rfl ?_)
          exact (and_iff_left not_false).symm
      | removeListEntry id =>
          exact (mem_removeListEntry h entry).trans (or_iff_right not_false).symm
      | createTransaction dto newId => exact hkept (create_listEntries_eq h) id id
      | updateTransaction txId dto => exact hkept (update_listEntries_eq h) id id
  | templateWrite write => exact hkept (TemplateWrite.keeps_plain h).1 id id
  | createAndEvaluate organizationId dto newId now => exact hkept (create_listEntries_eq h) id id
  | evaluate | evaluateRule | getEffectiveConfig | isInList =>
      obtain rfl := Except.ok.inj h
      exact hkept rfl id id

end Writes

/-! ### Membership -/

/-- A value that adds a condition to the query is found like its text. -/
theorem isInList_ok [DriverText] (listEntries : Table ListEntry) (organizationId : String)
    (listType : ListType) (entityType : EntityType) {value : JsValue} {text : String}
    (h : whereText value = some text) (now : Int) :
    ∃ found, isInList listEntries organizationId (.json (.str (ListType.name listType)))
        (.json (.str (EntityType.name entityType))) value now = .ok found ∧
      (found = true ↔ ∃ entry ∈ listEntries.rows,
        entry.IsFor organizationId listType entityType text) := by
  have hlist : whereEnum listTypes (.json (.str (ListType.name listType))) =
      .ok (some listType) := by
    simp only [whereEnum, whereText, pgText, lookup_listTypes]
  have hentity : whereEnum entityTypes (.json (.str (EntityType.name entityType))) =
      .ok (some entityType) := by
    simp only [whereEnum, whereText, pgText, lookup_entityTypes]
  have htext : whereText (.json (.str text)) = some text := rfl
  have hsame : isInList listEntries organizationId (.json (.str (ListType.name listType)))
        (.json (.str (EntityType.name entityType))) value now =
      isListed listEntries organizationId listType entityType text now := by
    simp only [isListed, isInList, h, htext]
  have hok : ∃ found, isListed listEntries organizationId listType entityType text now =
      .ok found := by
    unfold isListed isInList
    rw [hlist, hentity]
    exact ⟨_, rfl⟩
  obtain ⟨found, hfound⟩ := hok
  refine ⟨found, hsame.trans hfound, ?_⟩
  rw [← isListed_iff listEntries organizationId listType entityType text now, hfound]
  exact ⟨congrArg Except.ok, Except.ok.inj⟩

/-! ### Runs -/

section Runs

variable [NumberText] [DriverText] [NumberParsing] {env : Environment} {start final : State}
  {ops : List Op}

/-- The entries a run leaves, in terms of the requests that went through. -/
def StandingEntry (start : State) (ops : List Op) : ListEntry → Prop :=
  Standing CreatesEntry RemovesEntry (fun entry => entry ∈ start.db.listEntries.rows)
    (acceptedOps start.db ops)

/-- **The ledger.**  After a run the table holds the entries of the start that no
    accepted request removed, and the created ones that no later one removed. -/
theorem mem_listEntries_iff (hrun : runFrom (execOp env) start ops = some final)
    (entry : ListEntry) : entry ∈ final.db.listEntries.rows ↔ StandingEntry start ops entry := by
  have hdb : runFrom writeExec start.db ops = some final.db := by
    rw [← runFrom_db env start ops, hrun]
    rfl
  refine members_iff_standing (fun db entry => entry ∈ db.listEntries.rows) ?_ hdb entry
  intro db op db' h
  unfold writeExec at h
  split at h
  · rename_i next hwrite
    obtain rfl := Option.some.inj h
    refine Or.inr ⟨op, ?_, mem_listEntries_write hwrite⟩
    simp only [Op.accepted, hwrite]
  · rename_i e hwrite
    obtain rfl := Option.some.inj h
    refine Or.inl ⟨?_, fun _ => Iff.rfl⟩
    simp only [Op.accepted, hwrite]

end Runs

end RulesEngine
