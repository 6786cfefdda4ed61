import Mathlib.Algebra.GroupWithZero.Nat
import Mathlib.Data.List.Nodup
import Mathlib.Data.List.Basic

/-!
# Tables with a primary key

A table is the list of its rows in storage order together with the proof that
no two rows share a key, so a table that breaks its primary key cannot be
built.  `put` is what saving an entity does: the row with the entity's key is
replaced where it stands, and an entity with a new key is appended.
-/

namespace RulesEngine.Foundations

universe u v

/-- A row type with a primary key. -/
class Keyed (ρ : Type u) (κ : outParam (Type v)) where
  key : ρ → κ

export Keyed (key)

/-! ### Rows as lists -/

section Rows

variable {ρ : Type u} {κ : Type v} [Keyed ρ κ] [DecidableEq κ]

/-- Replace the row with `x`'s key by `x`, or append `x`. -/
def putRow (x : ρ) : List ρ → List ρ
  | [] => [x]
  | y :: ys => if key y = key x then x :: ys else y :: putRow x ys

theorem mem_putRow {x z : ρ} {rows : List ρ} (hunique : (rows.map key).Nodup) :
    z ∈ putRow x rows ↔ z = x ∨ (z ∈ rows ∧ key z ≠ key x) := by
  induction rows with
  | nil => simp [putRow]
  | cons y ys ih =>
      obtain ⟨hy, hys⟩ := List.nodup_cons.mp hunique
      by_cases h : key y = key x
      · have hne : ∀ w ∈ ys, key w ≠ key x := by
          intro w hw heq
          exact hy (List.mem_map.mpr ⟨w, hw, heq.trans h.symm⟩)
        simp only [putRow, if_pos h, List.mem_cons]
        constructor
        · rintro (rfl | hz)
          · exact Or.inl rfl
          · exact Or.inr ⟨Or.inr hz, hne z hz⟩
        · rintro (rfl | ⟨rfl | hz, hk⟩)
          · exact Or.inl rfl
          · exact absurd h hk
          · exact Or.inr hz
      · simp only [putRow, if_neg h, List.mem_cons, ih hys]
        constructor
        · rintro (rfl | rfl | ⟨hz, hk⟩)
          · exact Or.inr ⟨Or.inl rfl, h⟩
          · exact Or.inl rfl
          · exact Or.inr ⟨Or.inr hz, hk⟩
        · rintro (rfl | ⟨rfl | hz, hk⟩)
          · exact Or.inr (Or.inl rfl)
          · exact Or.inl rfl
          · exact Or.inr (Or.inr ⟨hz, hk⟩)

theorem nodup_putRow (x : ρ) {rows : List ρ} (hunique : (rows.map key).Nodup) :
    ((putRow x rows).map key).Nodup := by
  induction rows with
  | nil => simp [putRow]
  | cons y ys ih =>
      obtain ⟨hy, hys⟩ := List.nodup_cons.mp hunique
      by_cases h : key y = key x
      · simp only [putRow, if_pos h, List.map_cons, List.nodup_cons]
        exact ⟨h ▸ hy, hys⟩
      · simp only [putRow, if_neg h, List.map_cons, List.nodup_cons]
        refine ⟨?_, ih hys⟩
        intro hmem
        obtain ⟨w, hw, hwk⟩ := List.mem_map.mp hmem
        rcases (mem_putRow hys).mp hw with rfl | ⟨hw', -⟩
        · exact h hwk.symm
        · exact hy (List.mem_map.mpr ⟨w, hw', hwk⟩)

theorem putRow_of_fresh {x : ρ} {rows : List ρ} (h : key x ∉ rows.map key) :
    putRow x rows = rows ++ [x] := by
  induction rows with
  | nil => rfl
  | cons y ys ih =>
      simp only [List.map_cons, List.mem_cons, not_or] at h
      simp only [putRow, if_neg (Ne.symm h.1), ih h.2, List.cons_append]

/-- Saving a row of the table with changed columns changes it where it stands. -/
theorem putRow_eq_map {f : ρ → ρ} (hf : ∀ y, key (f y) = key y) {x : ρ} {rows : List ρ}
    (hunique : (rows.map key).Nodup) (hx : x ∈ rows) :
    putRow (f x) rows = rows.map fun y => if key y = key x then f y else y := by
  induction rows with
  | nil => exact absurd hx List.not_mem_nil
  | cons y ys ih =>
      obtain ⟨hy, hys⟩ := List.nodup_cons.mp hunique
      rw [putRow, hf, List.map_cons]
      by_cases h : key y = key x
      · have hother : ∀ z ∈ ys, key z ≠ key x := by
          intro z hz heq
          exact hy (List.mem_map.mpr ⟨z, hz, heq.trans h.symm⟩)
        have hxy : x = y := by
          rcases List.mem_cons.mp hx with heq | hin
          · exact heq
          · exact absurd rfl (hother x hin)
        rw [if_pos h, if_pos h, hxy, List.map_congr_left fun z hz =>
          if_neg (hxy ▸ hother z hz), List.map_id']
      · rcases List.mem_cons.mp hx with rfl | hin
        · exact absurd rfl h
        · rw [if_neg h, if_neg h, ih hys hin]

/-- Saving over a row that `f` does not tell from the saved one. -/
theorem map_putRow_of_eq {β : Type*} (f : ρ → β) {x old : ρ} {rows : List ρ}
    (hunique : (rows.map key).Nodup) (hold : old ∈ rows) (hkey : key old = key x)
    (hf : f x = f old) : (putRow x rows).map f = rows.map f := by
  induction rows with
  | nil => exact absurd hold List.not_mem_nil
  | cons y ys ih =>
      obtain ⟨hy, hys⟩ := List.nodup_cons.mp hunique
      by_cases h : key y = key x
      · have heq : old = y := by
          rcases List.mem_cons.mp hold with rfl | hin
          · rfl
          · exact absurd (List.mem_map.mpr ⟨old, hin, hkey.trans h.symm⟩) hy
        rw [putRow, if_pos h, List.map_cons, List.map_cons, hf, heq]
      · rcases List.mem_cons.mp hold with rfl | hin
        · exact absurd hkey h
        · rw [putRow, if_neg h, List.map_cons, List.map_cons, ih hys hin]

/-- A row outside `p`, saved over no row inside `p`, is invisible through `p`. -/
theorem filter_putRow_hidden {p : ρ → Bool} {x : ρ} {rows : List ρ} (hx : p x = false)
    (hrows : ∀ y ∈ rows, key y = key x → p y = false) :
    (putRow x rows).filter p = rows.filter p := by
  induction rows with
  | nil => simp [putRow, hx]
  | cons y ys ih =>
      have hys := ih (fun z hz => hrows z (List.mem_cons_of_mem _ hz))
      by_cases h : key y = key x
      · simp only [putRow, if_pos h, List.filter_cons, hx, hrows y (List.mem_cons_self) h,
          Bool.false_eq_true, if_false]
      · simp only [putRow, if_neg h, List.filter_cons, hys]

/-- A row inside `p`, saved over no row outside `p`, is saved the same way among
    the rows inside `p`. -/
theorem filter_putRow_visible {p : ρ → Bool} {x : ρ} {rows : List ρ} (hx : p x = true)
    (hrows : ∀ y ∈ rows, key y = key x → p y = true) :
    (putRow x rows).filter p = putRow x (rows.filter p) := by
  induction rows with
  | nil => simp [putRow, hx]
  | cons y ys ih =>
      have hys := ih (fun z hz => hrows z (List.mem_cons_of_mem _ hz))
      by_cases h : key y = key x
      · have hy := hrows y (List.mem_cons_self) h
        simp only [putRow, if_pos h, List.filter_cons, hx, hy, if_true]
      · by_cases hy : p y = true
        · simp only [putRow, if_neg h, List.filter_cons, hy, if_true, hys]
        · simp only [putRow, if_neg h, List.filter_cons, hy, hys]
          rfl

theorem sum_putRow (f : ρ → Nat) {x old : ρ} {rows : List ρ}
    (hunique : (rows.map key).Nodup) (hold : old ∈ rows) (hkey : key old = key x) :
    ((putRow x rows).map f).sum + f old = (rows.map f).sum + f x := by
  induction rows with
  | nil => simp at hold
  | cons y ys ih =>
      obtain ⟨hy, hys⟩ := List.nodup_cons.mp hunique
      by_cases h : key y = key x
      · have heq : old = y := by
          rcases List.mem_cons.mp hold with rfl | hin
          · rfl
          · exact absurd (List.mem_map.mpr ⟨old, hin, hkey.trans h.symm⟩) hy
        subst heq
        simp only [putRow, if_pos h, List.map_cons, List.sum_cons]
        omega
      · have hin : old ∈ ys := by
          rcases List.mem_cons.mp hold with rfl | hin
          · exact absurd hkey h
          · exact hin
        have hrest := ih hys hin
        simp only [putRow, if_neg h, List.map_cons, List.sum_cons]
        omega

end Rows

/-! ### Tables -/

/-- A table: its rows in storage order, no two with the same key. -/
structure Table (ρ : Type u) {κ : Type v} [Keyed ρ κ] where
  rows : List ρ
  unique : (rows.map key).Nodup

namespace Table

variable {ρ : Type u} {κ : Type v} [Keyed ρ κ]

def empty : Table ρ := ⟨[], List.nodup_nil⟩

/-- A key is taken when some row has it. -/
def Taken (t : Table ρ) (k : κ) : Prop := k ∈ t.rows.map key

instance [DecidableEq κ] (t : Table ρ) (k : κ) : Decidable (t.Taken k) :=
  inferInstanceAs (Decidable (k ∈ t.rows.map key))

/-- Delete the rows that do not satisfy `p`. -/
def retain (t : Table ρ) (p : ρ → Bool) : Table ρ :=
  ⟨t.rows.filter p, (List.filter_sublist.map key).nodup t.unique⟩

/-- Rewrite every row without touching its key. -/
def mapRows (t : Table ρ) (f : ρ → ρ) (hf : ∀ r, key (f r) = key r) : Table ρ :=
  ⟨t.rows.map f, by
    have hkeys : (t.rows.map f).map key = t.rows.map key := by
      simp only [List.map_map, Function.comp_def, hf]
    exact hkeys ▸ t.unique⟩

@[simp] theorem rows_retain (t : Table ρ) (p : ρ → Bool) :
    (t.retain p).rows = t.rows.filter p := rfl

@[simp] theorem rows_mapRows (t : Table ρ) (f : ρ → ρ) (hf : ∀ r, key (f r) = key r) :
    (t.mapRows f hf).rows = t.rows.map f := rfl

theorem taken_of_mem {t : Table ρ} {r : ρ} (h : r ∈ t.rows) : t.Taken (key r) :=
  List.mem_map.mpr ⟨r, h, rfl⟩

theorem taken_of_retain {t : Table ρ} {p : ρ → Bool} {k : κ} (h : (t.retain p).Taken k) :
    t.Taken k := by
  obtain ⟨r, hr, rfl⟩ := List.mem_map.mp h
  exact taken_of_mem (List.mem_filter.mp hr).1

theorem taken_retain {t : Table ρ} {p : ρ → Bool} {k : κ} (h : t.Taken k)
    (hp : ∀ r ∈ t.rows, key r = k → p r = true) : (t.retain p).Taken k := by
  obtain ⟨r, hr, rfl⟩ := List.mem_map.mp h
  exact taken_of_mem (List.mem_filter.mpr ⟨hr, hp r hr rfl⟩)

theorem forall_retain {t : Table ρ} {P : ρ → Prop} (h : ∀ r ∈ t.rows, P r) (p : ρ → Bool) :
    ∀ r ∈ (t.retain p).rows, P r :=
  fun r hr => h r (List.mem_filter.mp hr).1

theorem taken_of_mapRows {t : Table ρ} {f : ρ → ρ} (hf : ∀ r, key (f r) = key r) {k : κ}
    (h : (t.mapRows f hf).Taken k) : t.Taken k := by
  simpa only [Taken, rows_mapRows, List.map_map, Function.comp_def, hf] using h

theorem eq_of_key_eq {t : Table ρ} {r s : ρ} (hr : r ∈ t.rows) (hs : s ∈ t.rows)
    (h : key r = key s) : r = s :=
  List.inj_on_of_nodup_map t.unique hr hs h

section Lookup

variable [DecidableEq κ]

/-- The row with a given key. -/
def get? (t : Table ρ) (k : κ) : Option ρ := t.rows.find? fun r => key r = k

/-- Save a row: replace the row with its key, or append it. -/
def put (t : Table ρ) (x : ρ) : Table ρ := ⟨putRow x t.rows, nodup_putRow x t.unique⟩

@[simp] theorem rows_put (t : Table ρ) (x : ρ) : (t.put x).rows = putRow x t.rows := rfl

theorem mem_put {t : Table ρ} {x z : ρ} :
    z ∈ (t.put x).rows ↔ z = x ∨ (z ∈ t.rows ∧ key z ≠ key x) :=
  mem_putRow t.unique

theorem mem_put_self (t : Table ρ) (x : ρ) : x ∈ (t.put x).rows := mem_put.mpr (Or.inl rfl)

/-- Saving a row leaves the rows with other keys in the table. -/
theorem mem_put_of_ne {t : Table ρ} {x z : ρ} (hz : z ∈ t.rows) (h : key z ≠ key x) :
    z ∈ (t.put x).rows :=
  mem_put.mpr (Or.inr ⟨hz, h⟩)

/-- What holds of the rows of a table and of a saved row holds of all rows
    afterwards. -/
theorem forall_put {t : Table ρ} {x : ρ} {P : ρ → Prop} (h : ∀ r ∈ t.rows, P r) (hx : P x) :
    ∀ r ∈ (t.put x).rows, P r := by
  intro r hr
  rcases mem_put.mp hr with rfl | ⟨hold, -⟩
  · exact hx
  · exact h r hold

theorem taken_put (t : Table ρ) (x : ρ) {k : κ} (h : t.Taken k) : (t.put x).Taken k := by
  obtain ⟨y, hy, rfl⟩ := List.mem_map.mp h
  by_cases hkey : key y = key x
  · exact hkey ▸ taken_of_mem (mem_put_self t x)
  · exact taken_of_mem (mem_put_of_ne hy hkey)

theorem taken_of_put {t : Table ρ} {x : ρ} {k : κ} (h : (t.put x).Taken k) :
    t.Taken k ∨ k = key x := by
  obtain ⟨y, hy, rfl⟩ := List.mem_map.mp h
  rcases mem_put.mp hy with rfl | ⟨hin, -⟩
  · exact Or.inr rfl
  · exact Or.inl (taken_of_mem hin)

theorem mem_of_get? {t : Table ρ} {k : κ} {r : ρ} (h : t.get? k = some r) :
    r ∈ t.rows ∧ key r = k :=
  ⟨List.mem_of_find?_eq_some h, by simpa using List.find?_some h⟩

theorem get?_eq_some_iff {t : Table ρ} {k : κ} {r : ρ} :
    t.get? k = some r ↔ r ∈ t.rows ∧ key r = k := by
  constructor
  · exact mem_of_get?
  · rintro ⟨hr, hk⟩
    cases h : t.get? k with
    | none =>
        have hnone := List.find?_eq_none.mp h r hr
        simp [hk] at hnone
    | some s =>
        obtain ⟨hs, hsk⟩ := mem_of_get? h
        rw [eq_of_key_eq hr hs (hk.trans hsk.symm)]

theorem get?_eq_none_iff {t : Table ρ} {k : κ} : t.get? k = none ↔ ¬ t.Taken k := by
  simp only [get?, List.find?_eq_none, Taken, List.mem_map, not_exists, not_and,
    decide_eq_true_eq]

@[simp] theorem get?_put_self (t : Table ρ) (x : ρ) : (t.put x).get? (key x) = some x :=
  get?_eq_some_iff.mpr ⟨mem_put_self t x, rfl⟩

theorem get?_put_of_ne (t : Table ρ) {x : ρ} {k : κ} (h : k ≠ key x) :
    (t.put x).get? k = t.get? k := by
  apply Option.ext
  intro r
  rw [get?_eq_some_iff, get?_eq_some_iff, mem_put]
  constructor
  · rintro ⟨rfl | ⟨hr, -⟩, hk⟩
    · exact absurd hk.symm h
    · exact ⟨hr, hk⟩
  · rintro ⟨hr, hk⟩
    exact ⟨Or.inr ⟨hr, hk ▸ h⟩, hk⟩

end Lookup

/-! ### Unique indexes -/

section Index

variable {β : Type*} {f : ρ → β}

/-- A unique index on `f`: no two rows have the same value of it. -/
def UniqueOn (f : ρ → β) (t : Table ρ) : Prop :=
  ∀ r ∈ t.rows, ∀ s ∈ t.rows, f r = f s → r = s

theorem uniqueOn_empty : UniqueOn f (empty : Table ρ) :=
  fun _ hr => absurd hr List.not_mem_nil

/-- Saving a row keeps the index when no other row has its value. -/
theorem UniqueOn.put [DecidableEq κ] {t : Table ρ} (h : UniqueOn f t) {x : ρ}
    (hx : ∀ r ∈ t.rows, f r = f x → key r = key x) : UniqueOn f (t.put x) := by
  intro r hr s hs heq
  rcases mem_put.mp hr with hrx | ⟨hrOld, hrKey⟩
  · rcases mem_put.mp hs with hsx | ⟨hsOld, hsKey⟩
    · exact hrx.trans hsx.symm
    · exact absurd (hx s hsOld (heq.symm.trans (congrArg f hrx))) hsKey
  · rcases mem_put.mp hs with hsx | ⟨hsOld, -⟩
    · exact absurd (hx r hrOld (heq.trans (congrArg f hsx))) hrKey
    · exact h r hrOld s hsOld heq

theorem UniqueOn.retain {t : Table ρ} (h : UniqueOn f t) (p : ρ → Bool) :
    UniqueOn f (t.retain p) :=
  fun r hr s hs => h r (List.mem_filter.mp hr).1 s (List.mem_filter.mp hs).1

end Index

/-! ### Append-only tables -/

section Continuation

variable {β : Type*} {f : ρ → β}

/-- As far as `f` shows, `t'` is `t` with rows added behind it. -/
def Continues (f : ρ → β) (t t' : Table ρ) : Prop := t.rows.map f <+: t'.rows.map f

theorem Continues.refl (f : ρ → β) (t : Table ρ) : Continues f t t := List.prefix_refl _

theorem Continues.trans {t t' t'' : Table ρ} (h : Continues f t t') (h' : Continues f t' t'') :
    Continues f t t'' := List.IsPrefix.trans h h'

theorem Continues.exists_row {t t' : Table ρ} (h : Continues f t t') {r : ρ} (hr : r ∈ t.rows) :
    ∃ r' ∈ t'.rows, f r' = f r :=
  List.mem_map.mp (h.subset (List.mem_map.mpr ⟨r, hr, rfl⟩))

theorem continues_put_new [DecidableEq κ] {t : Table ρ} {x : ρ} (hfresh : ¬ t.Taken (key x)) :
    Continues f t (t.put x) := by
  rw [Continues, rows_put, putRow_of_fresh hfresh, List.map_append]
  exact List.prefix_append _ _

theorem continues_put_replaced [DecidableEq κ] {t : Table ρ} {x old : ρ} (hold : old ∈ t.rows)
    (hkey : key old = key x) (hf : f x = f old) : Continues f t (t.put x) := by
  have hrows : (t.put x).rows.map f = t.rows.map f := map_putRow_of_eq f t.unique hold hkey hf
  exact ⟨[], by rw [List.append_nil, hrows]⟩

end Continuation

/-! ### Adding up a column -/

/-- The sum of a column over the whole table. -/
def sum (t : Table ρ) (f : ρ → Nat) : Nat := (t.rows.map f).sum

theorem sum_put_of_mem [DecidableEq κ] {t : Table ρ} (f : ρ → Nat) {x old : ρ}
    (hold : old ∈ t.rows) (hkey : key old = key x) :
    (t.put x).sum f + f old = t.sum f + f x :=
  sum_putRow f t.unique hold hkey

theorem sum_put_of_fresh [DecidableEq κ] {t : Table ρ} (f : ρ → Nat) {x : ρ}
    (hfresh : ¬ t.Taken (key x)) : (t.put x).sum f = t.sum f + f x := by
  simp only [sum, rows_put, putRow_of_fresh hfresh, List.map_append, List.sum_append,
    List.map_cons, List.map_nil, List.sum_cons, List.sum_nil, Nat.add_zero]

end Table

end RulesEngine.Foundations
