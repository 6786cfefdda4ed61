import Mathlib.Order.Lattice
import Mathlib.Data.Int.Order.Basic

/-!
# Buckets on a ruler

A ruler divides the instants into cells (days, years) and numbers marks from
zero in each cell.  Rounding the position of an instant in its cell down to a
multiple of `n` gives its bucket: an interval that starts at a mark, lies in one
cell and is at most `n` marks long.
-/

namespace RulesEngine.Foundations

universe u v

structure Ruler (τ : Type u) (γ : Type v) [LinearOrder τ] [LinearOrder γ] where
  cell : τ → γ
  /-- The last mark of the cell that has been passed. -/
  position : τ → ℤ
  /-- The instant of a mark. -/
  mark : γ → ℤ → τ
  position_nonneg : ∀ t, 0 ≤ position t
  mark_le : ∀ t, mark (cell t) (position t) ≤ t
  lt_mark : ∀ t, t < mark (cell t) (position t + 1)
  mark_mono : ∀ c p q, p ≤ q → mark c p ≤ mark c q
  cell_mark : ∀ t p, 0 ≤ p → p ≤ position t → cell (mark (cell t) p) = cell t
  position_mark : ∀ t p, 0 ≤ p → p ≤ position t → position (mark (cell t) p) = p
  cell_mono : ∀ t u, t ≤ u → cell t ≤ cell u

namespace Ruler

variable {τ : Type u} {γ : Type v} [LinearOrder τ] [LinearOrder γ] (r : Ruler τ γ) (n : ℕ)

/-- The mark at which the bucket of an instant starts. -/
def floor (t : τ) : ℤ := r.position t / n * n

/-- The start of the bucket of an instant. -/
def bucket (t : τ) : τ := r.mark (r.cell t) (r.floor n t)

theorem floor_nonneg (t : τ) : 0 ≤ r.floor n t :=
  Int.mul_nonneg (Int.ediv_nonneg (r.position_nonneg t) (Int.natCast_nonneg n))
    (Int.natCast_nonneg n)

variable {n} (hn : 0 < n)

include hn

theorem floor_le (t : τ) : r.floor n t ≤ r.position t :=
  Int.ediv_mul_le _ (by omega)

theorem position_lt_floor (t : τ) : r.position t + 1 ≤ r.floor n t + n := by
  have hlt := Int.lt_ediv_add_one_mul_self (r.position t) (Int.natCast_pos.mpr hn)
  rw [Int.add_mul, Int.one_mul] at hlt
  exact hlt

theorem cell_bucket (t : τ) : r.cell (r.bucket n t) = r.cell t :=
  r.cell_mark t _ (r.floor_nonneg n t) (r.floor_le hn t)

theorem position_bucket (t : τ) : r.position (r.bucket n t) = r.floor n t :=
  r.position_mark t _ (r.floor_nonneg n t) (r.floor_le hn t)

theorem bucket_le (t : τ) : r.bucket n t ≤ t :=
  le_trans (r.mark_mono _ _ _ (r.floor_le hn t)) (r.mark_le t)

/-- An instant comes before the mark `n` marks after the start of its bucket. -/
theorem lt_bucket_end (t : τ) : t < r.mark (r.cell t) (r.floor n t + n) :=
  lt_of_lt_of_le (r.lt_mark t) (r.mark_mono _ _ _ (r.position_lt_floor hn t))

theorem floor_bucket (t : τ) : r.floor n (r.bucket n t) = r.floor n t := by
  have hpos : (n : ℤ) ≠ 0 := by omega
  unfold floor
  rw [r.position_bucket hn, floor, Int.mul_ediv_cancel _ hpos]

omit hn in
theorem position_le {t u : τ} (h : t ≤ u) (hcell : r.cell t = r.cell u) :
    r.position t ≤ r.position u := by
  by_contra hlt
  have hmark : r.mark (r.cell u) (r.position u + 1) ≤ r.mark (r.cell t) (r.position t) := by
    rw [hcell]
    exact r.mark_mono _ _ _ (by omega)
  exact absurd (lt_of_lt_of_le (r.lt_mark u) (le_trans hmark (r.mark_le t))) (not_lt.mpr h)

/-- Later instants have later buckets. -/
theorem bucket_mono {t u : τ} (h : t ≤ u) : r.bucket n t ≤ r.bucket n u := by
  by_cases hcell : r.cell t = r.cell u
  · have hfloor : r.floor n t ≤ r.floor n u :=
      Int.mul_le_mul_of_nonneg_right
        (Int.ediv_le_ediv (Int.natCast_pos.mpr hn) (r.position_le h hcell)) (by omega)
    unfold bucket
    rw [hcell]
    exact r.mark_mono _ _ _ hfloor
  · by_contra hlt
    have hback := r.cell_mono _ _ (le_of_not_ge hlt)
    rw [r.cell_bucket hn, r.cell_bucket hn] at hback
    exact hcell (le_antisymm (r.cell_mono t u h) hback)

/-- Two instants share a bucket when they share the cell and the rounded
    position. -/
theorem bucket_eq_iff {t u : τ} :
    r.bucket n t = r.bucket n u ↔ r.cell t = r.cell u ∧ r.floor n t = r.floor n u := by
  constructor
  · intro h
    have hcell := congrArg r.cell h
    have hposition := congrArg r.position h
    rw [r.cell_bucket hn, r.cell_bucket hn] at hcell
    rw [r.position_bucket hn, r.position_bucket hn] at hposition
    exact ⟨hcell, hposition⟩
  · rintro ⟨hcell, hfloor⟩
    unfold bucket
    rw [hcell, hfloor]

/-- The start of a bucket is in it. -/
theorem bucket_bucket (t : τ) : r.bucket n (r.bucket n t) = r.bucket n t :=
  (r.bucket_eq_iff hn).mpr ⟨r.cell_bucket hn t, r.floor_bucket hn t⟩

/-- Two instants share a bucket when they share the cell and the number of the
    bucket in it. -/
theorem bucket_eq_iff_number {t u : τ} :
    r.bucket n t = r.bucket n u ↔
      r.cell t = r.cell u ∧ r.position t / n = r.position u / n := by
  have hpos : (n : ℤ) ≠ 0 := by omega
  rw [r.bucket_eq_iff hn]
  constructor
  · rintro ⟨hcell, hfloor⟩
    exact ⟨hcell, Int.eq_of_mul_eq_mul_right hpos hfloor⟩
  · rintro ⟨hcell, hnumber⟩
    exact ⟨hcell, congrArg (· * (n : ℤ)) hnumber⟩

end Ruler

end RulesEngine.Foundations
