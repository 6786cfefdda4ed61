import RulesEngine.AlertsService
import RulesEngine.Foundations.Paging
import RulesEngine.TenantViews
import Mathlib.Algebra.Order.Floor.Semiring
import Mathlib.Order.WithBot

/-!
# Paginated queries

`findByOrganization` of the transactions and of the alerts: the rows a `where`
selects, sorted by one column with the newest first, from
`skip = (page - 1) * limit` on.  Rows with the same value of the column come in
whatever order the query of a page happens to produce, so the pages of one
listing hold every row exactly once only if no such rows lie on both sides of a
page border (`pages_cover_once_iff`).
-/

namespace RulesEngine

open RulesEngine.Foundations
open RulesEngine.Alerts

/-! ### Queries and results -/

/-- The query parameters as validation lets them through. -/
structure PaginationQueryDto where
  page : Option Nat
  limit : Option Nat
  page_min : ∀ n ∈ page, 1 ≤ n
  limit_min : ∀ n ∈ limit, 1 ≤ n
  limit_max : ∀ n ∈ limit, n ≤ 100

structure PaginatedResult (ρ : Type) where
  data : List ρ
  total : Nat
  page : Nat
  limit : Nat
  totalPages : Nat
deriving DecidableEq, Repr

def PaginationQueryDto.pageSize (query : PaginationQueryDto) : Nat := query.limit.getD 10

/-- What both services make of a query whose matching rows come in the order
    given: `findAndCount` with `skip` and `take`, and the result around it. -/
def paginate {ρ : Type} (query : PaginationQueryDto) (order : List ρ) : PaginatedResult ρ :=
  let page := query.page.getD 1
  let limit := query.pageSize
  let skip := (page - 1) * limit
  { data := slice order skip limit
    total := order.length
    page
    limit
    totalPages := ⌈(order.length / limit : ℚ)⌉₊ }

/-- The same query for another page, counted from 0 here. -/
def PaginationQueryDto.atPage (query : PaginationQueryDto) (i : Nat) : PaginationQueryDto :=
  { query with
    page := some (i + 1)
    page_min := fun _ hn => Option.some.inj hn ▸ Nat.le_add_left 1 i }

/-! ### The two listings -/

/-- `timestamp` values order by time; `NULL` sorts as the greatest. -/
def Transaction.sortKey (transaction : Transaction) : WithTop Int := transaction.datetime

/-- `transactionRepository.findAndCount({ where: { idOrganization }, … })`. -/
def matchingTransactions (db : Database) (organizationId : String) : List Transaction :=
  ownedBy (pgUuid organizationId) db.transactions

/-- `TransactionsService.findByOrganization`. -/
def Transactions.findByOrganization {db : Database} {organizationId : String}
    (query : PaginationQueryDto)
    (answer : Answer Transaction.sortKey (matchingTransactions db organizationId)) :
    PaginatedResult Transaction :=
  paginate query answer.order

structure AlertQueryDto extends PaginationQueryDto where
  status : Option AlertStatus
  severity : Option AlertSeverity
  category : Option AlertCategory
  ruleId : Option String

/-- The `where` of `AlertsService.findByOrganization`: a filter that is absent or
    empty is left out, and ids are compared as `uuid` values. -/
def AlertQueryDto.selects (query : AlertQueryDto) (organizationId : String) (alert : Alert) :
    Bool :=
  pgUuid alert.idOrganization = pgUuid organizationId &&
  query.status.all (fun status => alert.status = status) &&
  query.severity.all (fun severity => alert.severity = severity) &&
  query.category.all (fun category => alert.category = category) &&
  (query.ruleId.filter (· ≠ "")).all fun ruleId =>
    match alert.idRule with
    | .str idRule => pgUuid idRule = pgUuid ruleId
    | _ => false

/-- The same filters for another page. -/
def AlertQueryDto.atPage (query : AlertQueryDto) (i : Nat) : AlertQueryDto :=
  { query with toPaginationQueryDto := query.toPaginationQueryDto.atPage i }

def matchingAlerts (table : Table Alert) (organizationId : String) (query : AlertQueryDto) :
    List Alert :=
  table.rows.filter (query.selects organizationId)

/-- `AlertsService.findByOrganization`. -/
def Alerts.findByOrganization {table : Table Alert} {organizationId : String}
    (query : AlertQueryDto)
    (answer : Answer Alert.lastTriggeredAt (matchingAlerts table organizationId query)) :
    PaginatedResult Alert :=
  paginate query.toPaginationQueryDto answer.order

/-! ### Reading all pages -/

/-- The pages 1 to `totalPages` together hold every row exactly once, and all
    later pages are empty; page `i + 1` is what `read i` returns. -/
structure CoversOnce {ρ : Type} (rows : List ρ) (read : Nat → PaginatedResult ρ) : Prop where
  together : ((List.range (read 0).totalPages).flatMap fun i => (read i).data).Perm rows
  beyond : ∀ i, (read 0).totalPages ≤ i → (read i).data = []

theorem pageSize_pos (query : PaginationQueryDto) : 0 < query.pageSize := by
  unfold PaginationQueryDto.pageSize
  cases hlimit : query.limit with
  | none => decide
  | some limit => exact query.limit_min limit hlimit

/-- `totalPages` pages are enough for all rows, and none of them is in vain. -/
theorem totalPages_le_iff {ρ : Type} (query : PaginationQueryDto) (order : List ρ) (count : Nat) :
    (paginate query order).totalPages ≤ count ↔ order.length ≤ count * query.pageSize := by
  have hpos : (0 : ℚ) < query.pageSize := by exact_mod_cast pageSize_pos query
  simp only [paginate]
  rw [Nat.ceil_le, div_le_iff₀ hpos]
  exact_mod_cast Iff.rfl

theorem data_atPage {ρ : Type} (query : PaginationQueryDto) (order : List ρ) (i : Nat) :
    (paginate (query.atPage i) order).data =
      slice order (i * query.pageSize) query.pageSize := rfl

section Listing

variable {ρ κ : Type} [LinearOrder κ] {sortKey : ρ → κ} {rows : List ρ}

/-- Any answer makes the same number of pages. -/
theorem totalPages_answer (query : PaginationQueryDto) (answer : Answer sortKey rows) (i : Nat) :
    (paginate (query.atPage i) answer.order).totalPages = (paginate query rows).totalPages := by
  simp only [paginate, answer.perm.length_eq]
  rfl

/-- One listing, each page of it read with an answer of its own. -/
theorem coversOnce_iff (hnodup : rows.Nodup) (query : PaginationQueryDto) :
    (∀ answers : Nat → Answer sortKey rows,
      CoversOnce rows fun i => paginate (query.atPage i) (answers i).order) ↔
      ∀ i, ¬ Straddles sortKey rows (i * query.pageSize) := by
  have hcount : rows.length ≤ (paginate query rows).totalPages * query.pageSize :=
    (totalPages_le_iff query rows _).mp le_rfl
  rw [← pages_cover_iff hnodup hcount]
  refine forall_congr' fun answers => ⟨fun h => ?_, fun h => ⟨?_, ?_⟩⟩
  · have htogether := h.together
    rwa [totalPages_answer] at htogether
  · rw [totalPages_answer]
    exact h
  · intro i hi
    rw [totalPages_answer, totalPages_le_iff, ← (answers i).perm.length_eq] at hi
    rw [data_atPage, slice_of_length_le hi]

end Listing

theorem nodup_matchingTransactions (db : Database) (organizationId : String) :
    (matchingTransactions db organizationId).Nodup :=
  (List.Nodup.of_map _ db.transactions.unique).filter _

theorem nodup_matchingAlerts (table : Table Alert) (organizationId : String)
    (query : AlertQueryDto) : (matchingAlerts table organizationId query).Nodup :=
  (List.Nodup.of_map _ table.unique).filter _

/-- **Paging covers the rows once.**  Of the transactions of an organization, and
    of the alerts a query selects, the pages hold every row exactly once,
    whatever the order of rows with the same key, if and only if no page border
    separates two such rows. -/
theorem pages_cover_once_iff (db : Database) (table : Table Alert) (organizationId : String)
    (query : PaginationQueryDto) (alertQuery : AlertQueryDto) :
    ((∀ answers : Nat → Answer Transaction.sortKey (matchingTransactions db organizationId),
        CoversOnce (matchingTransactions db organizationId) fun i =>
          Transactions.findByOrganization (query.atPage i) (answers i)) ↔
      ∀ i, ¬ Straddles Transaction.sortKey (matchingTransactions db organizationId)
        (i * query.pageSize)) ∧
    ((∀ answers : Nat →
          Answer Alert.lastTriggeredAt (matchingAlerts table organizationId alertQuery),
        CoversOnce (matchingAlerts table organizationId alertQuery) fun i =>
          Alerts.findByOrganization (alertQuery.atPage i) (answers i)) ↔
      ∀ i, ¬ Straddles Alert.lastTriggeredAt (matchingAlerts table organizationId alertQuery)
        (i * alertQuery.pageSize)) :=
  ⟨coversOnce_iff (nodup_matchingTransactions db organizationId) query,
    coversOnce_iff (nodup_matchingAlerts table organizationId alertQuery)
      alertQuery.toPaginationQueryDto⟩

def twinTransaction : Transaction := { openTransaction with id := "twin" }

/-- Two transactions of one instant. -/
def twinDatabase : Database :=
  { Database.empty with transactions := (Table.empty.put openTransaction).put twinTransaction }

def onePerPage : PaginationQueryDto where
  page := none
  limit := some 1
  page_min := fun _ h => nomatch h
  limit_min := fun _ h => Option.some.inj h ▸ le_rfl
  limit_max := fun _ h => Option.some.inj h ▸ by decide

/-- The query of the first page returns the two in one order, those of the other
    pages in the other. -/
def twinAnswers (i : Nat) :
    Answer Transaction.sortKey (matchingTransactions twinDatabase sampleUuid) :=
  if i = 0 then
    { order := [openTransaction, twinTransaction]
      perm := List.Perm.refl _
      sorted := List.pairwise_pair.mpr (le_refl openTransaction.sortKey) }
  else
    { order := [twinTransaction, openTransaction]
      perm := List.Perm.swap _ _ _
      sorted := List.pairwise_pair.mpr (le_refl openTransaction.sortKey) }

/-- Both pages of one transaction each hold the same one. -/
theorem twin_repeated :
    ¬ CoversOnce (matchingTransactions twinDatabase sampleUuid) fun i =>
      Transactions.findByOrganization (onePerPage.atPage i) (twinAnswers i) := by
  intro h
  have hids := h.together.map Transaction.id
  exact absurd hids (by decide +kernel)

end RulesEngine
