import RulesEngine.TransactionsService

/-!
# What an organization sees of the database

An organization's view of the database is its own rows of every tenant table
and all templates.  Every write names the organization it is made for and
touches only rows of that organization (`Commit`), so it changes no other
organization's view; and it reads nothing but the view of its own
organization, so on two databases with the same view it ends the same way and
leaves the same view.
-/

namespace RulesEngine

open RulesEngine.Foundations
open RulesEngine.Rules
open RulesEngine.Lists
open RulesEngine.Transactions

/-! ### Fallible steps -/

section Steps

variable {α β : Type}

/-- Two outcomes are both failures with the same error, or both successes with
    related values. -/
def Agree (related : α → β → Prop) : Except Thrown α → Except Thrown β → Prop
  | .ok a, .ok b => related a b
  | .error e, .error e' => e = e'
  | .ok _, .error _ => False
  | .error _, .ok _ => False

theorem Agree.error {related : α → β → Prop} (e : Thrown) :
    Agree related (.error e) (.error e) := by
  exact rfl

theorem Agree.cases {related : α → β → Prop} {x : Except Thrown α} {y : Except Thrown β}
    (h : Agree related x y) : (∃ e, x = .error e ∧ y = .error e) ∨
      ∃ a b, x = .ok a ∧ y = .ok b ∧ related a b := by
  cases x with
  | error e =>
      cases y with
      | error e' => exact Or.inl ⟨e, rfl, congrArg Except.error h.symm⟩
      | ok b => exact h.elim
  | ok a =>
      cases y with
      | error e => exact h.elim
      | ok b => exact Or.inr ⟨a, b, rfl, rfl, h⟩

/-- Related steps, then related continuations. -/
theorem Agree.bind {γ δ : Type} {related : α → β → Prop} {related' : γ → δ → Prop}
    {x : Except Thrown α} {y : Except Thrown β} {f : α → Except Thrown γ}
    {g : β → Except Thrown δ} (hxy : Agree related x y)
    (hfg : ∀ a b, related a b → Agree related' (f a) (g b)) :
    Agree related' (x >>= f) (y >>= g) := by
  rcases hxy.cases with ⟨e, rfl, rfl⟩ | ⟨a, b, rfl, rfl, hab⟩
  · exact Agree.error e
  · exact hfg a b hab

/-- The same step on both sides, then related continuations. -/
theorem Agree.bind_same {γ δ : Type} {related : γ → δ → Prop} {x : Except Thrown α}
    {f : α → Except Thrown γ} {g : α → Except Thrown δ}
    (h : ∀ a, x = .ok a → Agree related (f a) (g a)) : Agree related (x >>= f) (x >>= g) := by
  cases x with
  | error e => exact rfl
  | ok a => exact h a rfl

end Steps

/-! ### The rows of an organization -/

section Rows

variable {ρ : Type} [TenantRow ρ]

/-- The rows of an organization, in storage order. -/
def ownedBy (o : String) (table : Table ρ) : List ρ :=
  table.rows.filter fun row => organization row = o

theorem mem_ownedBy {o : String} {table : Table ρ} {row : ρ} :
    row ∈ ownedBy o table ↔ row ∈ table.rows ∧ organization row = o := by
  simp only [ownedBy, List.mem_filter, decide_eq_true_eq]

theorem findOneOf_ok {entity : String} {table : Table ρ} {organizationId id : String} {row : ρ}
    (h : findOneOf entity table organizationId id = .ok row) :
    row ∈ table.rows ∧ key row = pgUuid id ∧ organization row = pgUuid organizationId := by
  unfold findOneOf at h
  cases hfind : table.rows.find? fun row =>
      key row = pgUuid id ∧ organization row = pgUuid organizationId with
  | none =>
      rw [hfind] at h
      cases h
  | some found =>
      rw [hfind] at h
      cases h
      have hmatch := List.find?_some hfind
      simp only [decide_eq_true_eq] at hmatch
      exact ⟨List.mem_of_find?_eq_some hfind, hmatch⟩

theorem findOneOf_congr {a b : Table ρ} {organizationId : String}
    (h : ownedBy (pgUuid organizationId) a = ownedBy (pgUuid organizationId) b)
    (entity id : String) :
    findOneOf entity a organizationId id = findOneOf entity b organizationId id := by
  have hread : ∀ table : Table ρ,
      table.rows.find? (fun row =>
        decide (key row = pgUuid id ∧ organization row = pgUuid organizationId)) =
        (ownedBy (pgUuid organizationId) table).find? fun row => decide (key row = pgUuid id) := by
    intro table
    rw [ownedBy, List.find?_filter]
    congr 1
    funext row
    simp only [Bool.decide_and, Bool.and_comm, Bool.decide_eq_true]
  unfold findOneOf
  rw [hread a, hread b, h]

theorem ownedBy_put_own {o : String} {table : Table ρ} {x : ρ} (hx : organization x = o)
    (hrows : ∀ row ∈ table.rows, key row = key x → organization row = o) :
    ownedBy o (table.put x) = putRow x (ownedBy o table) := by
  apply filter_putRow_visible
  · simpa using hx
  · intro row hrow hkey
    simpa using hrows row hrow hkey

theorem ownedBy_put_other {o : String} {table : Table ρ} {x : ρ} (hx : organization x ≠ o)
    (hrows : ∀ row ∈ table.rows, key row = key x → organization row ≠ o) :
    ownedBy o (table.put x) = ownedBy o table := by
  apply filter_putRow_hidden
  · simpa using hx
  · intro row hrow hkey
    simpa using hrows row hrow hkey

theorem ownedBy_retain (o : String) (table : Table ρ) (p : ρ → Bool) :
    ownedBy o (table.retain p) = (ownedBy o table).filter p := by
  simp only [ownedBy, Table.rows_retain, List.filter_filter, Bool.and_comm]

theorem ownedBy_mapRows (o : String) (table : Table ρ) {f : ρ → ρ}
    (hkey : ∀ row, key (f row) = key row) (horg : ∀ row, organization (f row) = organization row) :
    ownedBy o (table.mapRows f hkey) = (ownedBy o table).map f := by
  rw [ownedBy, Table.rows_mapRows, List.filter_map]
  simp only [Function.comp_def, horg]
  rfl

end Rows

/-! ### Writes of an organization -/

section Commits

variable {ρ : Type} [TenantRow ρ]

/-- What a write of the organization `o` with the generated ids `newIds` can do
    to a table. -/
inductive TableCommit (o : String) (newIds : List String) (table : Table ρ) : Table ρ → Prop where
  | inserted (row : ρ) : organization row = o → key row ∈ newIds → ¬ table.Taken (key row) →
      TableCommit o newIds table (table.put row)
  | replaced (old row : ρ) : old ∈ table.rows → key old = key row → organization old = o →
      organization row = o → TableCommit o newIds table (table.put row)
  | removed (old : ρ) : old ∈ table.rows → organization old = o →
      TableCommit o newIds table (table.retain fun row => key row ≠ key old)

variable {o other : String} {newIds : List String} {table table' : Table ρ}

/-- A write leaves the rows of every other organization in place. -/
theorem TableCommit.frame (h : TableCommit o newIds table table') (hne : o ≠ other) :
    ownedBy other table' = ownedBy other table := by
  cases h with
  | inserted row horg hid hfresh =>
      apply ownedBy_put_other (horg ▸ hne)
      intro old hold hkey
      exact absurd (List.mem_map.mpr ⟨old, hold, hkey⟩) hfresh
  | replaced old row hold hkey holdOrg horg =>
      apply ownedBy_put_other (horg ▸ hne)
      intro row' hrow' hkey'
      have heq : row' = old := Table.eq_of_key_eq hrow' hold (hkey'.trans hkey.symm)
      exact heq ▸ holdOrg ▸ hne
  | removed old hold horg =>
      rw [ownedBy_retain, List.filter_eq_self]
      intro row hrow
      obtain ⟨hmem, hrowOrg⟩ := mem_ownedBy.mp hrow
      simp only [decide_eq_true_eq]
      intro hkey
      have heq : row = old := Table.eq_of_key_eq hmem hold hkey
      exact hne (horg.symm.trans (heq ▸ hrowOrg))

theorem TableCommit.taken (h : TableCommit o newIds table table') (id : String)
    (htaken : table'.Taken id) : table.Taken id ∨ id ∈ newIds := by
  cases h with
  | inserted row horg hid hfresh =>
      rcases Table.taken_of_put htaken with hold | rfl
      · exact Or.inl hold
      · exact Or.inr hid
  | replaced old row hold hkey holdOrg horg =>
      rcases Table.taken_of_put htaken with hkept | rfl
      · exact Or.inl hkept
      · exact Or.inl (hkey ▸ Table.taken_of_mem hold)
  | removed old hold horg => exact Or.inl (Table.taken_of_retain htaken)

end Commits

/-- A write of the organization `o`: a commit on one of the tenant tables. -/
inductive Commit (o : String) (newIds : List String) (db : Database) : Database → Prop where
  | rules (table : Table Rule) : TableCommit o newIds db.rules table →
      Commit o newIds db { db with rules := table }
  | overrides (table : Table TemplateOverride) : TableCommit o newIds db.overrides table →
      Commit o newIds db { db with overrides := table }
  | listEntries (table : Table ListEntry) : TableCommit o newIds db.listEntries table →
      Commit o newIds db { db with listEntries := table }
  | transactions (table : Table Transaction) : TableCommit o newIds db.transactions table →
      Commit o newIds db { db with transactions := table }

/-- Some row of the database has the id. -/
def Database.Uses (db : Database) (id : String) : Prop :=
  db.templates.Taken id ∨ db.overrides.Taken id ∨ db.rules.Taken id ∨ db.listEntries.Taken id ∨
    db.transactions.Taken id

instance (db : Database) (id : String) : Decidable (db.Uses id) :=
  inferInstanceAs (Decidable (_ ∨ _))

section Uses

variable {db : Database} {id : String}

theorem Database.uses_overrides (h : db.overrides.Taken id) : db.Uses id := Or.inr (Or.inl h)

theorem Database.uses_rules (h : db.rules.Taken id) : db.Uses id := Or.inr (Or.inr (Or.inl h))

theorem Database.uses_listEntries (h : db.listEntries.Taken id) : db.Uses id :=
  Or.inr (Or.inr (Or.inr (Or.inl h)))

theorem Database.uses_transactions (h : db.transactions.Taken id) : db.Uses id :=
  Or.inr (Or.inr (Or.inr (Or.inr h)))

end Uses

theorem Commit.uses {o : String} {newIds : List String} {db db' : Database}
    (h : Commit o newIds db db') {id : String} (huses : db'.Uses id) :
    db.Uses id ∨ id ∈ newIds := by
  unfold Database.Uses at *
  cases h with
  | rules table hcommit =>
      have htaken := hcommit.taken id
      tauto
  | overrides table hcommit =>
      have htaken := hcommit.taken id
      tauto
  | listEntries table hcommit =>
      have htaken := hcommit.taken id
      tauto
  | transactions table hcommit =>
      have htaken := hcommit.taken id
      tauto

/-- Two databases that give the rules of the organization `o` the same
    configuration. -/
structure SameConfig (o : String) (a b : Database) : Prop where
  templates : a.templates = b.templates
  overrides : ownedBy o a.overrides = ownedBy o b.overrides
  rules : ownedBy o a.rules = ownedBy o b.rules

/-- Two databases that the organization `o` cannot tell apart. -/
structure SameView (o : String) (a b : Database) : Prop extends SameConfig o a b where
  listEntries : ownedBy o a.listEntries = ownedBy o b.listEntries
  transactions : ownedBy o a.transactions = ownedBy o b.transactions

theorem SameConfig.symm {o : String} {a b : Database} (h : SameConfig o a b) : SameConfig o b a :=
  ⟨h.templates.symm, h.overrides.symm, h.rules.symm⟩

theorem SameView.refl (o : String) (db : Database) : SameView o db db :=
  ⟨⟨rfl, rfl, rfl⟩, rfl, rfl⟩

theorem SameView.trans {o : String} {a b c : Database} (h : SameView o a b)
    (h' : SameView o b c) : SameView o a c where
  templates := h.templates.trans h'.templates
  overrides := h.overrides.trans h'.overrides
  rules := h.rules.trans h'.rules
  listEntries := h.listEntries.trans h'.listEntries
  transactions := h.transactions.trans h'.transactions

/-- **Frame.**  A write of one organization is invisible to every other. -/
theorem Commit.frame {o other : String} {newIds : List String} {db db' : Database}
    (h : Commit o newIds db db') (hne : o ≠ other) : SameView other db' db := by
  cases h with
  | rules table hcommit => exact { SameView.refl other db with rules := hcommit.frame hne }
  | overrides table hcommit => exact { SameView.refl other db with overrides := hcommit.frame hne }
  | listEntries table hcommit =>
      exact { SameView.refl other db with listEntries := hcommit.frame hne }
  | transactions table hcommit =>
      exact { SameView.refl other db with transactions := hcommit.frame hne }

end RulesEngine
