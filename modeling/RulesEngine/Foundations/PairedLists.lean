import Mathlib.Data.List.Forall2

/-!
# Lists kept in step

Two lists whose entries belong together position by position: `List.Forall₂`
with the operations by which a list of tasks in flight changes.
-/

namespace RulesEngine.Foundations

universe u v w

variable {α : Type u} {β : Type v} {R : α → β → Prop} {as : List α} {bs : List β}

theorem forall₂_getElem? (h : List.Forall₂ R as bs) {i : Nat} {a : α} (ha : as[i]? = some a) :
    ∃ b, bs[i]? = some b ∧ R a b := by
  induction h generalizing i with
  | nil => simp at ha
  | cons hab _ ih =>
      cases i with
      | zero =>
          simp only [List.getElem?_cons_zero, Option.some.injEq] at ha ⊢
          exact ⟨_, rfl, ha ▸ hab⟩
      | succ i =>
          simp only [List.getElem?_cons_succ] at ha ⊢
          exact ih ha

theorem forall₂_eraseIdx (h : List.Forall₂ R as bs) (i : Nat) :
    List.Forall₂ R (as.eraseIdx i) (bs.eraseIdx i) := by
  induction h generalizing i with
  | nil => exact List.Forall₂.nil
  | cons hab hrest ih =>
      cases i with
      | zero => exact hrest
      | succ i => exact List.Forall₂.cons hab (ih i)

/-- Replacing an entry on the left keeps the lists in step when the new entry
    belongs to what stands beside it. -/
theorem forall₂_set_left (h : List.Forall₂ R as bs) {i : Nat} {a : α}
    (ha : ∀ b, bs[i]? = some b → R a b) : List.Forall₂ R (as.set i a) bs := by
  induction h generalizing i with
  | nil => exact List.Forall₂.nil
  | cons hab hrest ih =>
      cases i with
      | zero => exact List.Forall₂.cons (ha _ rfl) hrest
      | succ i => exact List.Forall₂.cons hab (ih ha)

/-- Two lists in step have the same selected values when the entries of a pair
    are selected together and have the same value. -/
theorem map_filter_of_forall₂ {γ : Type w} {p : α → Bool} {q : β → Bool} {f : α → γ} {g : β → γ}
    (hpq : ∀ a b, R a b → p a = q b) (hfg : ∀ a b, R a b → f a = g b)
    (h : List.Forall₂ R as bs) : (as.filter p).map f = (bs.filter q).map g := by
  induction h with
  | nil => rfl
  | @cons a b as bs hab _ ih =>
      rw [List.filter_cons, List.filter_cons, hpq a b hab]
      by_cases hb : q b = true
      · rw [if_pos hb, if_pos hb, List.map_cons, List.map_cons, hfg a b hab, ih]
      · rw [if_neg hb, if_neg hb, ih]

end RulesEngine.Foundations
