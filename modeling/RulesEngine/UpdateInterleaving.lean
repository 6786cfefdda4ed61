import RulesEngine.TenantViews
import RulesEngine.Foundations.PartialUpdates

/-!
# Concurrent updates of one transaction or rule

`TransactionsService.update` and `RulesService.update` load a row, assign the
fields of the request and save the entity.  The save writes every column whose
value in memory differs from the row at that moment, so it leaves the row equal
to the entity, with the columns as they were loaded wherever the request says
nothing.  Here the two accesses of any number of updates of one row run
interleaved; `updates_unclobbered_iff` says for which runs they leave each other
alone.
-/

namespace RulesEngine

open RulesEngine.Foundations
open RulesEngine.Foundations.PartialUpdate
open RulesEngine.Rules
open RulesEngine.Transactions

/-! ### Rows of a table -/

section Access

variable {ρ : Type} [TenantRow ρ]

theorem findOneOf_put {table : Table ρ} {organizationId id : String} {row : ρ}
    (hkey : key row = pgUuid id) (horganization : organization row = pgUuid organizationId)
    (entity : String) : findOneOf entity (table.put row) organizationId id = .ok row := by
  have hmem := Table.mem_put_self table row
  unfold findOneOf
  cases hfind : (table.put row).rows.find? fun other =>
      key other = pgUuid id ∧ organization other = pgUuid organizationId with
  | none =>
      have hnot := List.find?_eq_none.mp hfind row hmem
      simp [hkey, horganization] at hnot
  | some found =>
      have hmatch := List.find?_some hfind
      simp only [decide_eq_true_eq] at hmatch
      rw [Table.eq_of_key_eq (List.mem_of_find?_eq_some hfind) hmem (hmatch.1.trans hkey.symm)]

theorem fits_of_findOneOf {entity : String} {table : Table ρ} {organizationId id : String}
    {row : ρ} (h : (findOneOf entity table organizationId id).toOption = some row) :
    key row = pgUuid id ∧ organization row = pgUuid organizationId :=
  (findOneOf_ok (toOption_eq_some.mp h)).2

/-- `findOne` and `save` of a service on the row with an id of an organization. -/
def rowAccess (entity : String) (table : Database → Table ρ)
    (withTable : Table ρ → Database → Database)
    (htable : ∀ rows db, table (withTable rows db) = rows) (organizationId id : String) :
    RowAccess Database ρ where
  load := fun db => (findOneOf entity (table db) organizationId id).toOption
  store := fun row db => withTable ((table db).put row) db
  Fits := fun row => key row = pgUuid id ∧ organization row = pgUuid organizationId
  fits_of_load := fun _ _ h => fits_of_findOneOf h
  load_store := fun db _ hfits => by
    rw [htable]
    exact toOption_eq_some.mpr (findOneOf_put hfits.1 hfits.2 entity)

end Access

/-- The value a patch gives to a `NOT NULL` column. -/
def Patch.given {α : Type} : Patch α → Option α
  | .value a => some a
  | _ => none

theorem Patch.getD_given {α : Type} (patch : Patch α) (current : α) :
    patch.given.getD current = patch.getD current := by
  cases patch <;> rfl

/-- The value a patch gives to a nullable column. -/
def Patch.givenNullable {α : Type} : Patch α → Option (Option α)
  | .absent => none
  | .null => some none
  | .value a => some (some a)

/-! ### TransactionsService.update -/

/-- The assignments of `update`, as far as the table accepts them. -/
def assignTransaction (dto : UpdateTransactionDto) (tx : Transaction) :
    Except Thrown Transaction := do
  let isBlocked ← dto.isBlocked.notNull "is_blocked" tx.isBlocked
  let isVoided ← dto.isVoided.notNull "is_voided" tx.isVoided
  return { tx with isBlocked, isVoided }

/-- The two columns `update` can change, and the rest of the row. -/
inductive TransactionColumn where
  | isBlocked
  | isVoided
  | others

def TransactionColumn.Value : TransactionColumn → Type
  | isBlocked => Bool
  | isVoided => Bool
  | others => Transaction

def TransactionColumn.value : (column : TransactionColumn) → Transaction → column.Value
  | isBlocked, tx => tx.isBlocked
  | isVoided, tx => tx.isVoided
  | others, tx => { tx with isBlocked := false, isVoided := false }

theorem assignTransaction_ok {dto : UpdateTransactionDto} {tx tx' : Transaction}
    (h : assignTransaction dto tx = .ok tx') :
    tx' = { tx with isBlocked := dto.isBlocked.getD tx.isBlocked
                    isVoided := dto.isVoided.getD tx.isVoided } := by
  obtain ⟨isBlocked, hblocked, h⟩ := bind_eq_ok.mp h
  obtain ⟨isVoided, hvoided, h⟩ := bind_eq_ok.mp h
  cases h
  rw [notNull_ok hblocked, notNull_ok hvoided]

def transactionAccess : String → String → RowAccess Database Transaction :=
  rowAccess "Transaction" Database.transactions (fun transactions db => { db with transactions })
    fun _ _ => rfl

/-- The values a request gives to the columns. -/
def givenTransaction (dto : UpdateTransactionDto) :
    (column : TransactionColumn) → Option column.Value
  | .isBlocked => dto.isBlocked.given
  | .isVoided => dto.isVoided.given
  | .others => none

theorem value_assignTransaction {dto : UpdateTransactionDto} {tx tx' : Transaction}
    (h : assignTransaction dto tx = .ok tx') (column : TransactionColumn) :
    column.value tx' = (givenTransaction dto column).getD (column.value tx) := by
  rw [assignTransaction_ok h]
  cases column with
  | isBlocked => exact (Patch.getD_given dto.isBlocked tx.isBlocked).symm
  | isVoided => exact (Patch.getD_given dto.isVoided tx.isVoided).symm
  | others => rfl

theorem fits_assignTransaction {dto : UpdateTransactionDto} {tx tx' : Transaction}
    (h : assignTransaction dto tx = .ok tx') :
    key tx' = key tx ∧ organization tx' = organization tx := by
  rw [assignTransaction_ok h]
  exact ⟨rfl, rfl⟩

/-- `update` as a partial update of a row. -/
def transactionUpdate (organizationId id : String) (dto : UpdateTransactionDto) :
    PartialUpdate (transactionAccess organizationId id) TransactionColumn.value where
  given := givenTransaction dto
  assigned := fun _ _ => givenTransaction dto
  given_of_assigned := fun _ _ _ _ h => h
  assign := fun _ tx => (assignTransaction dto tx).toOption
  fits_assign := fun _ _ _ h hfits =>
    have hassign := fits_assignTransaction (toOption_eq_some.mp h)
    ⟨hassign.1.trans hfits.1, hassign.2.trans hfits.2⟩
  value_assign := fun _ _ _ h => value_assignTransaction (toOption_eq_some.mp h)

/-- Run without interruption, the two accesses are `update`. -/
theorem exec_transactionUpdate {organizationId id : String} {dto : UpdateTransactionDto}
    {db db' : Database} (h : update organizationId id dto db = .ok db') :
    runFrom (exec [transactionUpdate organizationId id dto]) (start db 1) [.find 0, .save 0] =
      some ⟨db', [.saved]⟩ := by
  obtain ⟨tx, hfind, h⟩ := bind_eq_ok.mp h
  obtain ⟨isBlocked, hblocked, h⟩ := bind_eq_ok.mp h
  obtain ⟨isVoided, hvoided, h⟩ := bind_eq_ok.mp h
  cases h
  refine exec_serial (toOption_eq_some.mpr hfind) (toOption_eq_some.mpr ?_)
  simp only [assignTransaction, hblocked, hvoided]
  rfl

/-! ### RulesService.update -/

/-- The template of a rule as it is in the database. -/
def storedTemplate (db : Database) (rule : Rule) : Option String :=
  (db.rules.get? rule.id).bind Rule.idTemplate

/-- The assignments of `update` and the checks of the table. -/
def saveRule (dto : UpdateRuleDto) (db : Database) (rule : Rule) : Except Thrown Rule := do
  let rule' ← assignRule dto (storedTemplate db rule) rule
  templateExists db rule'.idTemplate
  return rule'

/-- The columns `update` can change, and the rest of the row. -/
inductive RuleColumn where
  | idTemplate
  | name
  | enabled
  | priority
  | config
  | others

def RuleColumn.Value : RuleColumn → Type
  | idTemplate => Option String
  | name => String
  | enabled => Bool
  | priority => Nat
  | config => JsonObject
  | others => Rule

def RuleColumn.value : (column : RuleColumn) → Rule → column.Value
  | idTemplate, rule => rule.idTemplate
  | name, rule => rule.name
  | enabled, rule => rule.enabled
  | priority, rule => rule.priority
  | config, rule => rule.config
  | others, rule =>
      { rule with idTemplate := none, name := "", enabled := false, priority := 0, config := [] }

def givenRule (dto : UpdateRuleDto) : (column : RuleColumn) → Option column.Value
  | .idTemplate => dto.idTemplate.givenNullable.map (Option.map pgUuid)
  | .name => dto.name.given
  | .enabled => dto.enabled.given
  | .priority => dto.priority.given
  | .config => dto.config.given
  | .others => none

/-- The template that `save` takes from the request.  It brings back the template of a
    rule that was loaded with one, and the missing template where the row has the
    requested one already. -/
def assignedTemplate (dto : UpdateRuleDto) (stored : Option String) (rule : Rule) :
    Option (Option String) :=
  if rule.idTemplate ≠ none ∨ dto.idTemplate.nullable none = stored then none
  else dto.idTemplate.givenNullable.map (Option.map pgUuid)

def assignedRule (dto : UpdateRuleDto) (db : Database) (rule : Rule) :
    (column : RuleColumn) → Option column.Value
  | .idTemplate => assignedTemplate dto (storedTemplate db rule) rule
  | .name => dto.name.given
  | .enabled => dto.enabled.given
  | .priority => dto.priority.given
  | .config => dto.config.given
  | .others => none

theorem given_of_assignedRule {dto : UpdateRuleDto} {db : Database} {rule : Rule}
    {column : RuleColumn} {v : column.Value} (h : assignedRule dto db rule column = some v) :
    givenRule dto column = some v := by
  cases column with
  | idTemplate => exact (Option.ite_none_left_eq_some.mp h).2
  | name | enabled | priority | config | others => exact h

theorem saveRule_ok {dto : UpdateRuleDto} {db : Database} {rule rule' : Rule}
    (h : saveRule dto db rule = .ok rule') :
    assignRule dto (storedTemplate db rule) rule = .ok rule' := by
  obtain ⟨assigned, hassign, h⟩ := bind_eq_ok.mp h
  obtain ⟨-, -, h⟩ := bind_eq_ok.mp h
  cases h
  exact hassign

theorem value_savedTemplate (dto : UpdateRuleDto) (stored : Option String) (rule : Rule) :
    savedTemplate dto stored rule = (assignedTemplate dto stored rule).getD rule.idTemplate := by
  unfold savedTemplate assignedTemplate
  cases hloaded : rule.idTemplate with
  | some idTemplate => rw [if_pos (Or.inl (Option.some_ne_none _)), Option.getD_none]
  | none =>
      by_cases hsame : dto.idTemplate.nullable none = stored
      · rw [if_pos (Or.inr hsame), Option.getD_none]
        exact if_pos hsame
      · have hgiven :
            ¬ ((none : Option String) ≠ none ∨ dto.idTemplate.nullable none = stored) := by
          simp [hsame]
        rw [if_neg hgiven]
        dsimp only
        rw [if_neg hsame]
        cases dto.idTemplate <;> rfl

theorem value_saveRule {dto : UpdateRuleDto} {db : Database} {rule rule' : Rule}
    (h : saveRule dto db rule = .ok rule') (column : RuleColumn) :
    column.value rule' = (assignedRule dto db rule column).getD (column.value rule) := by
  rw [assignRule_eq (saveRule_ok h)]
  cases column with
  | idTemplate => exact value_savedTemplate dto _ rule
  | name => exact (Patch.getD_given dto.name rule.name).symm
  | enabled => exact (Patch.getD_given dto.enabled rule.enabled).symm
  | priority => exact (Patch.getD_given dto.priority rule.priority).symm
  | config => exact (Patch.getD_given dto.config rule.config).symm
  | others => rfl

theorem fits_saveRule {dto : UpdateRuleDto} {db : Database} {rule rule' : Rule}
    (h : saveRule dto db rule = .ok rule') :
    key rule' = key rule ∧ organization rule' = organization rule := by
  obtain ⟨hid, horg, -⟩ := assignRule_ok (saveRule_ok h)
  exact ⟨hid, horg⟩

/-- A rule that has just been found has the template it was found with. -/
theorem storedTemplate_of_found {organizationId id : String} {db : Database} {rule : Rule}
    (hfind : findRule db organizationId id = .ok rule) :
    storedTemplate db rule = rule.idTemplate := by
  have hget : db.rules.get? rule.id = some rule :=
    Table.get?_eq_some_iff.mpr ⟨(findOneOf_ok hfind).1, rfl⟩
  rw [storedTemplate, hget, Option.bind_some]

def ruleAccess : String → String → RowAccess Database Rule :=
  rowAccess "Rule" Database.rules (fun rules db => { db with rules }) fun _ _ => rfl

/-- `update` as a partial update of a row. -/
def ruleUpdate (organizationId id : String) (dto : UpdateRuleDto) :
    PartialUpdate (ruleAccess organizationId id) RuleColumn.value where
  given := givenRule dto
  assigned := assignedRule dto
  assign := fun db rule => (saveRule dto db rule).toOption
  given_of_assigned := fun _ _ _ _ => given_of_assignedRule
  fits_assign := fun _ _ _ h hfits =>
    have hassign := fits_saveRule (toOption_eq_some.mp h)
    ⟨hassign.1.trans hfits.1, hassign.2.trans hfits.2⟩
  value_assign := fun _ _ _ h => value_saveRule (toOption_eq_some.mp h)

theorem exec_ruleUpdate {organizationId id : String} {dto : UpdateRuleDto} {db db' : Database}
    (h : updateRule organizationId id dto db = .ok db') :
    runFrom (exec [ruleUpdate organizationId id dto]) (start db 1) [.find 0, .save 0] =
      some ⟨db', [.saved]⟩ := by
  obtain ⟨rule, hfind, h⟩ := bind_eq_ok.mp h
  obtain ⟨rule', hassign, h⟩ := bind_eq_ok.mp h
  obtain ⟨_, htemplate, h⟩ := bind_eq_ok.mp h
  cases h
  apply exec_serial
  · exact toOption_eq_some.mpr hfind
  · apply toOption_eq_some.mpr
    rw [← storedTemplate_of_found hfind] at hassign
    simp only [saveRule, hassign, bind, Except.bind, htemplate]
    rfl

/-! ### Interleaved updates -/

/-- **Concurrent updates.**  Whatever updates of one transaction, or of one
    rule, run at once: in every state of the run no update is clobbered if and
    only if no save of the run brings back a column. -/
theorem updates_unclobbered_iff (organizationId id : String) (db : Database)
    (labels : List Access) :
    (∀ before, findTransaction db organizationId id = .ok before →
      ∀ dtos : List UpdateTransactionDto,
        let updates := dtos.map (transactionUpdate organizationId id)
        (EveryState (exec updates) (Unclobbered updates before) (start db dtos.length) labels ↔
          EveryStep (exec updates) (KeepsGiven updates) (start db dtos.length) labels)) ∧
    ∀ before, findRule db organizationId id = .ok before →
      ∀ dtos : List UpdateRuleDto,
        let updates := dtos.map (ruleUpdate organizationId id)
        (EveryState (exec updates) (Unclobbered updates before) (start db dtos.length) labels ↔
          EveryStep (exec updates) (KeepsGiven updates) (start db dtos.length) labels) :=
  ⟨fun _ hfind dtos =>
      everyState_unclobbered_iff (toOption_eq_some.mpr hfind) dtos.length labels,
    fun _ hfind dtos =>
      everyState_unclobbered_iff (toOption_eq_some.mpr hfind) dtos.length labels⟩

def openDatabase : Database :=
  { Database.empty with transactions := Table.empty.put openTransaction }

/-- One request voids the transaction, the other blocks it. -/
def voidAndBlock :
    List (PartialUpdate (transactionAccess sampleUuid openTransaction.id)
      TransactionColumn.value) :=
  [⟨.absent, .value true⟩, ⟨.value true, .absent⟩].map
    (transactionUpdate sampleUuid openTransaction.id)

/-- Both requests load the transaction, and one of them saves it. -/
theorem updates_unclobbered_iff_sample :
    EveryState (exec voidAndBlock) (Unclobbered voidAndBlock openTransaction)
      (start openDatabase 2) [.find 0, .find 1, .save 0] := by
  apply ((updates_unclobbered_iff sampleUuid openTransaction.id openDatabase
    [.find 0, .find 1, .save 0]).1 openTransaction rfl
      [⟨.absent, .value true⟩, ⟨.value true, .absent⟩]).mpr
  refine ⟨trivial, fun s hs => ⟨trivial, fun t ht => ⟨?_, fun _ _ => trivial⟩⟩⟩
  cases hs
  cases ht
  rintro row update row' - hupdate - column hassigned (⟨index, update', ⟨hsaved, -⟩, -⟩ | hnames)
  · -- nothing has been saved yet
    match index with
    | 0 => cases hsaved
    | 1 => cases hsaved
    | _ + 2 => cases hsaved
  · -- what the request names is assigned
    cases hupdate
    exact absurd hassigned hnames

/-- Both requests complete, and the transaction is not voided: saving the one
    that blocks it brought back the flag it had loaded. -/
theorem voided_flag_reverted :
    ∃ final, runFrom (exec voidAndBlock) (start openDatabase 2)
        [.find 0, .find 1, .save 0, .save 1] = some final ∧
      (∀ phase ∈ final.phases, phase = .saved) ∧
      ¬ Unclobbered voidAndBlock openTransaction final := by
  refine ⟨_, rfl, ?_, ?_⟩
  · intro phase hphase
    rcases List.mem_cons.mp hphase with rfl | hphase
    · rfl
    · exact List.mem_singleton.mp hphase
  · intro h
    have hvoided := h.sole _ rfl .isVoided 0 _ true ⟨rfl, rfl⟩ rfl ?_
    · cases hvoided
    · -- only the first request names the flag
      rintro other update ⟨-, hupdate⟩ hnames
      match other with
      | 0 => rfl
      | 1 =>
          cases hupdate
          exact absurd rfl hnames
      | _ + 2 => cases hupdate

end RulesEngine
