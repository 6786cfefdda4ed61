import RulesEngine.Foundations.TransitionSystem
import RulesEngine.TenantViews

/-!
# List membership and expiry

`isInList` asks for an entry without an expiry or with one in the future, but
its `expiresAt: null` adds no condition, so it finds every entry of the value.
The table holds at most one such entry (`oneEntry_run`), hence membership is
right as long as that entry has not expired (`membership_respects_expiry_iff`),
and expired entries stay until the next `removeExpired` (`live_after_removeExpired`).
-/

namespace RulesEngine

open RulesEngine.Foundations
open RulesEngine.Lists

/-! ### Runs of the service -/

/-- The calls that change `list_entries`. -/
inductive ListWrite where
  | create (organizationId : String) (dto : CreateListEntryDto) (id : String)
  | remove (organizationId id : String)
  | removeExpired (organizationId : Option String) (now : Int)

def ListWrite.run : ListWrite → Database → Except Thrown Database
  | .create organizationId dto id => createListEntry organizationId dto id
  | .remove organizationId id => removeListEntry organizationId id
  | .removeExpired organizationId now => fun db => .ok (Lists.removeExpired organizationId now db).2

/-- One call; a call that throws has changed nothing. -/
def listExec (db : Database) (write : ListWrite) : Option Database :=
  match write.run db with
  | .ok db' => some db'
  | .error _ => some db

/-! ### One entry for a value -/

/-- The entry puts a value on a list of an organization. -/
def ListEntry.IsFor (entry : ListEntry) (organizationId : String) (listType : ListType)
    (entityType : EntityType) (value : String) : Prop :=
  entry.idOrganization = pgUuid organizationId ∧ entry.listType = listType ∧
    entry.entityType = entityType ∧ entry.entityValue = value

/-- The entry has no expiry, or one later than `now`. -/
def ListEntry.LiveAt (now : Int) (entry : ListEntry) : Prop :=
  ∀ expiry ∈ entry.expiresAt, now < expiry

/-- No value is on a list of an organization twice. -/
def OneEntry (table : Table ListEntry) : Prop :=
  ∀ a ∈ table.rows, ∀ b ∈ table.rows, a.idOrganization = b.idOrganization →
    a.listType = b.listType → a.entityType = b.entityType → a.entityValue = b.entityValue → a = b

theorem oneEntry_retain {table : Table ListEntry} (h : OneEntry table) (p : ListEntry → Bool) :
    OneEntry (table.retain p) := by
  intro a ha b hb
  exact h a (List.mem_filter.mp ha).1 b (List.mem_filter.mp hb).1

/-- `create` adds an entry for a value that has none. -/
theorem oneEntry_create {organizationId id : String} {dto : CreateListEntryDto}
    {db db' : Database} (hone : OneEntry db.listEntries)
    (h : createListEntry organizationId dto id db = .ok db') : OneEntry db'.listEntries := by
  unfold createListEntry at h
  split at h
  · cases h
  · rename_i hnone
    obtain ⟨expiresAt, -, h⟩ := bind_eq_ok.mp h
    obtain ⟨table, hinsert, h⟩ := bind_eq_ok.mp h
    cases h
    obtain ⟨-, rfl⟩ := insertRow_ok hinsert
    intro a ha b hb horg hlist hentity hvalue
    rcases Table.mem_put.mp ha with rfl | ⟨haOld, -⟩
    · rcases Table.mem_put.mp hb with rfl | ⟨hbOld, -⟩
      · rfl
      · exact absurd ⟨b, hbOld, horg.symm, hlist.symm, hentity.symm, hvalue.symm⟩ hnone
    · rcases Table.mem_put.mp hb with rfl | ⟨hbOld, -⟩
      · exact absurd ⟨a, haOld, horg, hlist, hentity, hvalue⟩ hnone
      · exact hone a haOld b hbOld horg hlist hentity hvalue

theorem oneEntry_step {db db' : Database} {write : ListWrite} (hone : OneEntry db.listEntries)
    (h : listExec db write = some db') : OneEntry db'.listEntries := by
  unfold listExec at h
  split at h
  · rename_i hrun
    obtain rfl := Option.some.inj h
    cases write with
    | create organizationId dto id => exact oneEntry_create hone hrun
    | remove organizationId id =>
        obtain ⟨entry, -, hremove⟩ := bind_eq_ok.mp hrun
        cases hremove
        exact oneEntry_retain hone _
    | removeExpired organizationId now =>
        cases hrun
        exact oneEntry_retain hone _
  · exact Option.some.inj h ▸ hone

theorem oneEntry_run {start db : Database} (hstart : start.listEntries = Table.empty)
    {writes : List ListWrite} (hrun : runFrom listExec start writes = some db) :
    OneEntry db.listEntries := by
  have hempty : OneEntry start.listEntries := by
    rw [hstart]
    exact fun _ h => absurd h List.not_mem_nil
  exact runFrom_invariant (I := fun db => OneEntry db.listEntries)
    (fun _ _ _ hone hstep => oneEntry_step hone hstep) hempty hrun

/-! ### Membership -/

theorem lookup_listTypes (listType : ListType) :
    listTypes.lookup (ListType.name listType) = some listType := by
  cases listType <;> decide

theorem lookup_entityTypes (entityType : EntityType) :
    entityTypes.lookup (EntityType.name entityType) = some entityType := by
  cases entityType <;> decide

section Membership

variable [DriverText] (table : Table ListEntry) (organizationId : String) (listType : ListType)
  (entityType : EntityType) (value : String) (now : Int)

/-- `isInList` with arguments of the declared types. -/
def isListed : Except Thrown Bool :=
  isInList table organizationId (.json (.str (ListType.name listType)))
    (.json (.str (EntityType.name entityType))) (.json (.str value)) now

/-- The entry the second alternative of the query finds, the first one finds. -/
theorem isListed_iff : isListed table organizationId listType entityType value now = .ok true ↔
    ∃ entry ∈ table.rows, entry.IsFor organizationId listType entityType value := by
  have hlist : whereEnum listTypes (.json (.str (ListType.name listType))) =
      .ok (some listType) := by
    simp only [whereEnum, whereText, pgText, lookup_listTypes]
  have hentity : whereEnum entityTypes (.json (.str (EntityType.name entityType))) =
      .ok (some entityType) := by
    simp only [whereEnum, whereText, pgText, lookup_entityTypes]
  have hnamed : ∀ entry : ListEntry, entry.IsFor organizationId listType entityType value ↔
      entry.idOrganization = pgUuid organizationId ∧ Meets (some listType) entry.listType ∧
        Meets (some entityType) entry.entityType ∧
        Meets (whereText (.json (.str value))) entry.entityValue := by
    intro entry
    simp [ListEntry.IsFor, Meets, whereText, pgText]
  unfold isListed isInList
  simp only [hlist, hentity, bind, Except.bind, pure, Except.pure, Except.ok.injEq]
  rw [decide_eq_true_iff]
  constructor
  · rintro ⟨entry, hentry, hfor | ⟨hfor, -⟩⟩
    · exact ⟨entry, hentry, (hnamed entry).mpr hfor⟩
    · exact ⟨entry, hentry, (hnamed entry).mpr hfor⟩
  · rintro ⟨entry, hentry, hfor⟩
    exact ⟨entry, hentry, Or.inl ((hnamed entry).mp hfor)⟩

/-- The value is on the list: some entry for it has not expired. -/
def OnList : Prop :=
  ∃ entry ∈ table.rows, entry.IsFor organizationId listType entityType value ∧ entry.LiveAt now

end Membership

theorem eq_of_isFor {table : Table ListEntry} (hone : OneEntry table) {a b : ListEntry}
    (ha : a ∈ table.rows) (hb : b ∈ table.rows) {organizationId : String} {listType : ListType}
    {entityType : EntityType} {value : String}
    (hforA : a.IsFor organizationId listType entityType value)
    (hforB : b.IsFor organizationId listType entityType value) : a = b := by
  obtain ⟨horg, hlist, hentity, hvalue⟩ := hforA
  obtain ⟨horg', hlist', hentity', hvalue'⟩ := hforB
  exact hone a ha b hb (horg.trans horg'.symm) (hlist.trans hlist'.symm)
    (hentity.trans hentity'.symm) (hvalue.trans hvalue'.symm)

/-- **Membership and expiry.**  In every state that runs of `create`, `remove` and
    `removeExpired` reach, `isInList` answers whether an entry without an expiry
    or with a later one is there, except when the entry for the value has
    expired and still is in the table. -/
theorem membership_respects_expiry_iff [DriverText] {start db : Database}
    (hstart : start.listEntries = Table.empty) {writes : List ListWrite}
    (hrun : runFrom listExec start writes = some db) (organizationId : String)
    (listType : ListType) (entityType : EntityType) (value : String) (now : Int) :
    (isListed db.listEntries organizationId listType entityType value now = .ok true ↔
        OnList db.listEntries organizationId listType entityType value now) ↔
      ¬ ∃ entry ∈ db.listEntries.rows, entry.IsFor organizationId listType entityType value ∧
        ∃ expiry ∈ entry.expiresAt, expiry ≤ now := by
  have hone := oneEntry_run hstart hrun
  rw [isListed_iff]
  constructor
  · rintro hrespects ⟨entry, hentry, hfor, expiry, hexpiry, hexpired⟩
    obtain ⟨live, hlive, hforLive, hlater⟩ := hrespects.mp ⟨entry, hentry, hfor⟩
    obtain rfl := eq_of_isFor hone hlive hentry hforLive hfor
    have hlt := hlater expiry hexpiry
    omega
  · intro hnone
    constructor
    · rintro ⟨entry, hentry, hfor⟩
      refine ⟨entry, hentry, hfor, ?_⟩
      intro expiry hexpiry
      by_contra hnot
      exact hnone ⟨entry, hentry, hfor, expiry, hexpiry, Int.not_lt.mp hnot⟩
    · rintro ⟨entry, hentry, hfor, -⟩
      exact ⟨entry, hentry, hfor⟩

/-- What `removeExpired` leaves behind for an organization expires later, or at
    that very instant. -/
theorem live_after_removeExpired (organizationId : Option String) (now : Int) (db : Database)
    {entry : ListEntry} (hentry : entry ∈ (removeExpired organizationId now db).2.listEntries.rows)
    (hcovered : ∀ id ∈ organizationId, id = "" ∨ entry.idOrganization = pgUuid id) :
    ∀ expiry ∈ entry.expiresAt, now ≤ expiry := by
  intro expiry hexpiry
  have hkept := (List.mem_filter.mp hentry).2
  by_contra hlt
  have hmeets : Meets ((organizationId.filter (· ≠ "")).map pgUuid) entry.idOrganization := by
    intro wanted hwanted
    obtain ⟨id, hid, rfl⟩ := Option.map_eq_some_iff.mp hwanted
    obtain ⟨hmem, hne⟩ := Option.filter_eq_some_iff.mp hid
    rcases hcovered id hmem with rfl | horg
    · simp at hne
    · exact horg
  have hexpired : expiredFor organizationId now entry = true :=
    decide_eq_true ⟨⟨expiry, hexpiry, Int.not_le.mp hlt⟩, hmeets⟩
  simp [hexpired] at hkept

/-! ### An expired entry -/

section Sample

attribute [local instance] DriverText.stringsOnly

/-- A country is blacklisted until instant 5. -/
def expiringEntry : ListWrite :=
  .create "org" ⟨.BLACKLIST, .COUNTRY, "AR", some (some 5)⟩ "entry"

/-- The entry as it is stored. -/
def storedEntry : ListEntry := ⟨"entry", "org", .BLACKLIST, .COUNTRY, "AR", some 5⟩

def expiringDatabase : Database :=
  { Database.empty with listEntries := ⟨[storedEntry], by decide⟩ }

theorem run_expiringEntry :
    runFrom listExec Database.empty [expiringEntry] = some expiringDatabase := by
  rfl

/-- At instant 10 the country still is on the blacklist. -/
theorem expired_entry_listed :
    runFrom listExec Database.empty [expiringEntry] = some expiringDatabase ∧
      ¬ (isListed expiringDatabase.listEntries "org" .BLACKLIST .COUNTRY "AR" 10 = .ok true ↔
        OnList expiringDatabase.listEntries "org" .BLACKLIST .COUNTRY "AR" 10) := by
  refine ⟨run_expiringEntry, ?_⟩
  have hlisted : isListed expiringDatabase.listEntries "org" .BLACKLIST .COUNTRY "AR" 10 =
      .ok true := by decide +kernel
  rw [hlisted]
  intro hrespects
  obtain ⟨entry, hentry, -, hlive⟩ := hrespects.mp rfl
  obtain rfl := List.mem_singleton.mp hentry
  exact absurd (hlive 5 rfl) (by decide)

theorem membership_respects_expiry_iff_sample :
    (isListed expiringDatabase.listEntries "org" .BLACKLIST .COUNTRY "AR" 4 = .ok true ↔
        OnList expiringDatabase.listEntries "org" .BLACKLIST .COUNTRY "AR" 4) ↔
      ¬ ∃ entry ∈ expiringDatabase.listEntries.rows, entry.IsFor "org" .BLACKLIST .COUNTRY "AR" ∧
        ∃ expiry ∈ entry.expiresAt, expiry ≤ 4 :=
  membership_respects_expiry_iff rfl run_expiringEntry "org" .BLACKLIST .COUNTRY "AR" 4

end Sample

end RulesEngine
