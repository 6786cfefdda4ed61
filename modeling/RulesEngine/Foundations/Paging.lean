import Mathlib.Data.List.Perm.Basic
import Mathlib.Order.Lattice

/-!
# Paging

Rows are read page by page, each page by a query of its own, which sorts them by
a key with the greatest first and leaves the order of equal keys open.  Whatever
orders the queries happen to use, the pages hold every row exactly once if and
only if no group of equal keys lies across the border between two pages
(`pages_cover_iff`).
-/

namespace RulesEngine.Foundations

universe u v

section Slices

variable {α : Type u}

/-- The rows of a list from `skip` on, at most `limit` of them. -/
def slice (rows : List α) (skip limit : Nat) : List α := (rows.drop skip).take limit

theorem slice_of_length_le {rows : List α} {skip : Nat} (h : rows.length ≤ skip) (limit : Nat) :
    slice rows skip limit = [] := by
  rw [slice, List.drop_eq_nil_of_le h, List.take_nil]

/-- Consecutive slices of one list are an initial part of it. -/
theorem flatMap_slice (rows : List α) (limit count : Nat) :
    ((List.range count).flatMap fun i => slice rows (i * limit) limit) =
      rows.take (count * limit) := by
  induction count with
  | zero => simp
  | succ count ih =>
      rw [List.range_succ, List.flatMap_append, ih, Nat.succ_mul, List.take_add]
      simp [slice]

/-- Two lists with the same rows up to both ends of a slice have the same rows in
    it. -/
theorem slice_perm {as bs : List α} {skip limit : Nat}
    (hstart : (as.take skip).Perm (bs.take skip))
    (hend : (as.take (skip + limit)).Perm (bs.take (skip + limit))) :
    (slice as skip limit).Perm (slice bs skip limit) := by
  rw [List.take_add, List.take_add] at hend
  have hsame : (as.take skip ++ slice as skip limit).Perm (as.take skip ++ slice bs skip limit) :=
    hend.trans (hstart.symm.append_right _)
  exact (List.perm_append_left_iff _).mp hsame

/-- Reversing distinct rows changes which of them come first, unless none or all
    of them do. -/
theorem not_perm_take_reverse {rows : List α} (hnodup : rows.Nodup) {n : Nat} (hpos : 0 < n)
    (hlt : n < rows.length) : ¬ (rows.take n).Perm (rows.reverse.take n) := by
  intro hperm
  cases rows with
  | nil => simp at hlt
  | cons row rest =>
      have hfirst : row ∈ (row :: rest).take n := by
        obtain ⟨m, rfl⟩ := Nat.exists_eq_succ_of_ne_zero hpos.ne'
        simp
      have hlast : row ∈ rest.reverse.take n := by
        have hle : n ≤ rest.reverse.length := by simpa using Nat.lt_succ_iff.mp hlt
        have hmem := hperm.mem_iff.mp hfirst
        rwa [List.reverse_cons, List.take_append_of_le_length hle] at hmem
      exact (List.nodup_cons.mp hnodup).1 (List.mem_reverse.mp (List.mem_of_mem_take hlast))

end Slices

variable {α : Type u} {κ : Type v} [LinearOrder κ] {sortKey : α → κ} {rows : List α}

/-- One answer of a query that sorts the rows by a key, the greatest first. -/
structure Answer (sortKey : α → κ) (rows : List α) where
  order : List α
  perm : order.Perm rows
  sorted : order.Pairwise fun a b => sortKey b ≤ sortKey a

/-- Rows of one key lie on both sides of a position: fewer rows than that have a
    greater key, and more have a key at least as great. -/
def Straddles (sortKey : α → κ) (rows : List α) (position : Nat) : Prop :=
  ∃ t, (rows.countP fun row => t < sortKey row) < position ∧
    position < rows.countP fun row => t ≤ sortKey row

/-! ### What all answers share -/

/-- In a sorted list the rows above a bound come first. -/
theorem filter_eq_take {order : List α}
    (hsorted : order.Pairwise fun a b => sortKey b ≤ sortKey a) {above : α → Bool}
    (habove : ∀ a b, sortKey b ≤ sortKey a → above b = true → above a = true) :
    order.filter above = order.take (order.countP above) := by
  induction order with
  | nil => rfl
  | cons row rest ih =>
      obtain ⟨hfirst, hrest⟩ := List.pairwise_cons.mp hsorted
      by_cases hrow : above row = true
      · rw [List.filter_cons_of_pos hrow, List.countP_cons_of_pos hrow, List.take_succ_cons,
          ih hrest]
      · have hnone : ∀ other ∈ rest, ¬ above other = true :=
          fun other hother hin => hrow (habove row other (hfirst other hother) hin)
        rw [List.filter_cons_of_neg hrow, List.countP_cons_of_neg hrow,
          List.filter_eq_nil_iff.mpr hnone, List.countP_eq_zero.mpr hnone, List.take_zero]

theorem countP_le_eq_add (sortKey : α → κ) (rows : List α) (t : κ) :
    (rows.countP fun row => t ≤ sortKey row) =
      (rows.countP fun row => t < sortKey row) +
        (rows.filter fun row => sortKey row = t).length := by
  induction rows with
  | nil => rfl
  | cons row rest ih =>
      simp only [List.countP_cons, List.filter_cons, ih, decide_eq_true_eq]
      rcases lt_trichotomy t (sortKey row) with hlt | heq | hgt
      · rw [if_pos hlt.le, if_pos hlt, if_neg hlt.ne']
        omega
      · rw [if_pos heq.le, if_neg heq.not_lt, if_pos heq.symm, List.length_cons]
        omega
      · rw [if_neg hgt.not_ge, if_neg hgt.not_gt, if_neg hgt.ne]
        omega

/-- A list sorted by hand: the rows above a key, at it, and below it. -/
theorem perm_three_way (sortKey : α → κ) (rows : List α) (t : κ) :
    ((rows.filter fun row => t < sortKey row) ++ ((rows.filter fun row => sortKey row = t) ++
      rows.filter fun row => sortKey row < t)).Perm rows := by
  induction rows with
  | nil => exact List.Perm.refl _
  | cons row rest ih =>
      simp only [List.filter_cons, decide_eq_true_eq]
      rcases lt_trichotomy t (sortKey row) with hlt | heq | hgt
      · rw [if_pos hlt, if_neg hlt.ne', if_neg hlt.not_gt]
        exact ih.cons row
      · rw [if_neg heq.not_lt, if_pos heq.symm, if_neg heq.not_gt]
        exact List.perm_middle.trans (ih.cons row)
      · rw [if_neg hgt.not_gt, if_neg hgt.ne, if_pos hgt, ← List.append_assoc]
        exact List.perm_middle.trans ((List.append_assoc _ _ _ ▸ ih).cons row)

theorem perm_reorder {order ties : List α} (horder : order.Perm rows) (t : κ)
    (h : ties.Perm (rows.filter fun row => sortKey row = t)) :
    ((order.filter fun row => t < sortKey row) ++
      (ties ++ order.filter fun row => sortKey row < t)).Perm rows := by
  have hparts := (horder.filter fun row => t < sortKey row).append
    (h.append (horder.filter fun row => sortKey row < t))
  exact hparts.trans (perm_three_way sortKey rows t)

theorem sorted_reorder {order ties : List α}
    (hsorted : order.Pairwise fun a b => sortKey b ≤ sortKey a) (t : κ)
    (hties : ∀ row ∈ ties, sortKey row = t) :
    ((order.filter fun row => t < sortKey row) ++
      (ties ++ order.filter fun row => sortKey row < t)).Pairwise
        fun a b => sortKey b ≤ sortKey a := by
  have hbelow : ∀ row ∈ order.filter (fun row => sortKey row < t), sortKey row < t := by
    simp
  rw [List.pairwise_append, List.pairwise_append]
  refine ⟨hsorted.filter _, ⟨?_, hsorted.filter _, ?_⟩, ?_⟩
  · exact List.pairwise_of_forall_mem_list fun a ha b hb => (hties b hb).trans_le (hties a ha).ge
  · intro a ha b hb
    exact (hbelow b hb).le.trans (hties a ha).ge
  · intro a ha b hb
    have hgreater : t < sortKey a := by simpa using (List.mem_filter.mp ha).2
    rcases List.mem_append.mp hb with hb | hb
    · exact (hties b hb).trans_le hgreater.le
    · exact ((hbelow b hb).trans hgreater).le

theorem pairwise_mergeSort (sortKey : α → κ) (rows : List α) :
    (rows.mergeSort fun a b => sortKey b ≤ sortKey a).Pairwise
      fun a b => sortKey b ≤ sortKey a := by
  have htrans : ∀ a b c : α, decide (sortKey b ≤ sortKey a) = true →
      decide (sortKey c ≤ sortKey b) = true → decide (sortKey c ≤ sortKey a) = true := by
    intro a b c hab hbc
    simp only [decide_eq_true_eq] at hab hbc ⊢
    exact hbc.trans hab
  have htotal : ∀ a b : α,
      (decide (sortKey b ≤ sortKey a) || decide (sortKey a ≤ sortKey b)) = true := by
    intro a b
    simpa using le_total (sortKey b) (sortKey a)
  exact (List.pairwise_mergeSort htrans htotal rows).imp fun h => of_decide_eq_true h

namespace Answer

theorem take_countP_le (a : Answer sortKey rows) (t : κ) :
    a.order.take (rows.countP fun row => t ≤ sortKey row) =
      a.order.filter fun row => t ≤ sortKey row := by
  rw [← a.perm.countP_eq]
  refine (filter_eq_take a.sorted fun x y hle hy => ?_).symm
  simp only [decide_eq_true_eq] at hy ⊢
  exact hy.trans hle

theorem take_countP_lt (a : Answer sortKey rows) (t : κ) :
    a.order.take (rows.countP fun row => t < sortKey row) =
      a.order.filter fun row => t < sortKey row := by
  rw [← a.perm.countP_eq]
  refine (filter_eq_take a.sorted fun x y hle hy => ?_).symm
  simp only [decide_eq_true_eq] at hy ⊢
  exact hy.trans_le hle

/-- Taken as the bound, the key of the last row before a position that no group
    straddles puts exactly the rows before the position above it. -/
theorem exists_countP_eq (a : Answer sortKey rows) {n : Nat} (h : ¬ Straddles sortKey rows n)
    (hpos : 0 < n) (hle : n ≤ rows.length) :
    ∃ t, (rows.countP fun row => t ≤ sortKey row) = n := by
  obtain ⟨m, rfl⟩ := Nat.exists_eq_succ_of_ne_zero hpos.ne'
  have hm : m < a.order.length := by rw [a.perm.length_eq]; omega
  have hlast : a.order.take (m + 1) = a.order.take m ++ [a.order[m]] :=
    List.take_succ_eq_append_getElem hm
  refine ⟨sortKey a.order[m], ?_⟩
  have hbelow : (rows.countP fun row => sortKey a.order[m] < sortKey row) < m + 1 := by
    by_contra hge
    have hin : a.order[m] ∈ a.order.take (m + 1) := by
      rw [hlast]
      exact List.mem_append_right _ (List.mem_singleton_self _)
    have habove := (List.take_subset_take_left _ (Nat.le_of_not_lt hge)) hin
    rw [a.take_countP_lt, List.mem_filter, decide_eq_true_eq] at habove
    exact lt_irrefl _ habove.2
  have hall : ∀ row ∈ a.order.take (m + 1), sortKey a.order[m] ≤ sortKey row := by
    intro row hrow
    rw [hlast] at hrow
    have hsorted := a.sorted.sublist (List.take_sublist (m + 1) _)
    rw [hlast, List.pairwise_append] at hsorted
    rcases List.mem_append.mp hrow with hrow | hrow
    · exact hsorted.2.2 row hrow _ (List.mem_singleton_self _)
    · rw [List.mem_singleton.mp hrow]
  have hatLeast : m + 1 ≤ rows.countP fun row => sortKey a.order[m] ≤ sortKey row := by
    have hcount := List.countP_eq_length.mpr fun row hrow => decide_eq_true (hall row hrow)
    have hsub := (List.take_sublist (m + 1) a.order).countP_le
      (p := fun row => decide (sortKey a.order[m] ≤ sortKey row))
    rw [hcount, List.length_take, a.perm.countP_eq] at hsub
    omega
  have hnot : ¬ m + 1 < rows.countP fun row => sortKey a.order[m] ≤ sortKey row :=
    fun hlt => h ⟨_, hbelow, hlt⟩
  omega

/-- Where no group straddles a position, all answers have the same rows before
    it. -/
theorem take_perm (a b : Answer sortKey rows) {n : Nat} (h : ¬ Straddles sortKey rows n) :
    (a.order.take n).Perm (b.order.take n) := by
  rcases Nat.eq_zero_or_pos n with rfl | hpos
  · simp
  by_cases hle : n ≤ rows.length
  · obtain ⟨t, ht⟩ := a.exists_countP_eq h hpos hle
    rw [← ht, a.take_countP_le, b.take_countP_le]
    exact (a.perm.trans b.perm.symm).filter _
  · have hshort : ∀ c : Answer sortKey rows, c.order.take n = c.order :=
      fun c => List.take_of_length_le (c.perm.length_eq.trans_le (Nat.le_of_not_le hle))
    rw [hshort a, hshort b]
    exact a.perm.trans b.perm.symm

/-! ### Two answers that differ -/

/-- The rows sorted by their keys, ties as they stand. -/
def sort (sortKey : α → κ) (rows : List α) : Answer sortKey rows where
  order := rows.mergeSort fun a b => sortKey b ≤ sortKey a
  perm := List.mergeSort_perm _ _
  sorted := pairwise_mergeSort sortKey rows

/-- The answer with the rows of one key in the order given. -/
def reorder (a : Answer sortKey rows) (t : κ) {ties : List α}
    (h : ties.Perm (rows.filter fun row => sortKey row = t)) : Answer sortKey rows where
  order := (a.order.filter fun row => t < sortKey row) ++
    (ties ++ a.order.filter fun row => sortKey row < t)
  perm := perm_reorder a.perm t h
  sorted := sorted_reorder a.sorted t fun _ hrow =>
    of_decide_eq_true (List.mem_filter.mp (h.mem_iff.mp hrow)).2

/-- Up to a position among the rows of the key, the answer holds the rows with a
    greater key and the first ones of that key. -/
theorem take_reorder (a : Answer sortKey rows) (t : κ) {ties : List α}
    (h : ties.Perm (rows.filter fun row => sortKey row = t)) {m : Nat} (hm : m ≤ ties.length) :
    ((a.reorder t h).order.take ((rows.countP fun row => t < sortKey row) + m)) =
      (a.order.filter fun row => t < sortKey row) ++ ties.take m := by
  have hlength : (a.order.filter fun row => t < sortKey row).length =
      rows.countP fun row => t < sortKey row := by
    rw [← List.countP_eq_length_filter, a.perm.countP_eq]
  rw [← hlength, reorder, List.take_length_add_append, List.take_append_of_le_length hm]

end Answer

/-- Where a group straddles a position, two answers have different rows before
    it. -/
theorem exists_not_perm_take (hnodup : rows.Nodup) {n : Nat} (h : Straddles sortKey rows n) :
    ∃ a b : Answer sortKey rows, ¬ (a.order.take n).Perm (b.order.take n) := by
  obtain ⟨t, hgreater, hatLeast⟩ := h
  obtain ⟨m, rfl⟩ := Nat.exists_eq_add_of_lt hgreater
  rw [countP_le_eq_add] at hatLeast
  have hm : m + 1 < (rows.filter fun row => sortKey row = t).length := by omega
  let a := Answer.sort sortKey rows
  refine ⟨a.reorder t (List.Perm.refl _), a.reorder t (List.reverse_perm _), fun hperm => ?_⟩
  rw [Nat.add_assoc, a.take_reorder t _ hm.le,
    a.take_reorder t _ (hm.le.trans_eq (List.length_reverse).symm),
    List.perm_append_left_iff] at hperm
  exact not_perm_take_reverse (hnodup.filter _) (Nat.succ_pos m) hm hperm

/-! ### Pages -/

/-- The pages of size `limit`, each read with an answer of its own. -/
def pages (limit : Nat) (answers : Nat → Answer sortKey rows) (count : Nat) : List α :=
  (List.range count).flatMap fun i => slice (answers i).order (i * limit) limit

/-- Where no group straddles a border, the pages together hold the first rows of
    any one answer. -/
theorem pages_perm {limit : Nat} (h : ∀ i, ¬ Straddles sortKey rows (i * limit))
    (answers : Nat → Answer sortKey rows) (a : Answer sortKey rows) (count : Nat) :
    (pages limit answers count).Perm (a.order.take (count * limit)) := by
  rw [← flatMap_slice]
  refine List.Perm.flatMap_left _ fun i _ => ?_
  refine slice_perm ((answers i).take_perm a (h i)) ?_
  rw [← Nat.succ_mul]
  exact (answers i).take_perm a (h (i + 1))

/-- Pages read with one answer up to a border and with another from there on. -/
theorem pages_ite (limit : Nat) (a b : Answer sortKey rows) (border rest : Nat) :
    pages limit (fun i => if i < border then a else b) (border + rest) =
      a.order.take (border * limit) ++ (b.order.drop (border * limit)).take (rest * limit) := by
  rw [pages, List.range_add, List.flatMap_append, List.flatMap_map, ← flatMap_slice,
    ← flatMap_slice]
  congr 1
  · refine List.flatMap_congr fun i hi => ?_
    rw [if_pos (List.mem_range.mp hi)]
  · refine List.flatMap_congr fun i _ => ?_
    rw [if_neg (by omega), slice, slice, List.drop_drop, Nat.add_mul]

/-- **Paging.**  The pages hold every row exactly once, whatever the queries
    answer, if and only if no group of equal keys straddles a border. -/
theorem pages_cover_iff (hnodup : rows.Nodup) {limit count : Nat}
    (hcount : rows.length ≤ count * limit) :
    (∀ answers : Nat → Answer sortKey rows, (pages limit answers count).Perm rows) ↔
      ∀ i, ¬ Straddles sortKey rows (i * limit) := by
  constructor
  · intro hcover i hstraddles
    obtain ⟨a, b, hdiffer⟩ := exists_not_perm_take hnodup hstraddles
    -- the border lies before the last page: some rows stand behind it
    have hborder : i ≤ count := by
      obtain ⟨t, -, hlt⟩ := hstraddles
      have hbound : i * limit < count * limit :=
        (hlt.trans_le List.countP_le_length).trans_le hcount
      exact (Nat.lt_of_mul_lt_mul_right hbound).le
    obtain ⟨rest, rfl⟩ := Nat.exists_eq_add_of_le hborder
    have hpages := hcover fun j => if j < i then a else b
    have htail : (b.order.drop (i * limit)).take (rest * limit) = b.order.drop (i * limit) := by
      apply List.take_of_length_le
      rw [List.length_drop, b.perm.length_eq, Nat.sub_le_iff_le_add, ← Nat.add_mul, Nat.add_comm]
      exact hcount
    rw [pages_ite, htail] at hpages
    have hsame := hpages.trans b.perm.symm
    have hsplit : (a.order.take (i * limit) ++ b.order.drop (i * limit)).Perm
        (b.order.take (i * limit) ++ b.order.drop (i * limit)) := by
      rwa [List.take_append_drop]
    exact hdiffer ((List.perm_append_right_iff _).mp hsplit)
  · intro h answers
    have hall := pages_perm h answers (answers 0) count
    rw [List.take_of_length_le ((answers 0).perm.length_eq.trans_le hcount)] at hall
    exact hall.trans (answers 0).perm

end RulesEngine.Foundations
