import RulesEngine.Foundations.Json

/-!
# Reading JSON by key paths

A key path descends through objects only, so a value that is no object is a
leaf: nothing lies below it (`valueAt_append`).  `LaidOver` says of three
objects that the third is what a layer makes of a base, path by path, whatever
algorithm merged them: the layer's leaves and objects stand, nothing lies below
its leaves, and every other path is the base's.
-/

namespace RulesEngine.Foundations

namespace Json

/-- A value with properties of its own to descend into. -/
def IsObject : Json → Prop
  | .obj _ => True
  | _ => False

/-- The value at a key path; `none` when there is nothing. -/
def valueAt : Json → List String → Option Json
  | value, [] => some value
  | .obj fields, name :: path => (JsonObject.get? fields name).bind fun value => valueAt value path
  | _, _ :: _ => none

@[simp] theorem valueAt_nil (value : Json) : valueAt value [] = some value := by
  cases value <;> rfl

@[simp] theorem valueAt_obj_cons (fields : JsonObject) (name : String) (path : List String) :
    valueAt (.obj fields) (name :: path) =
      (JsonObject.get? fields name).bind fun value => valueAt value path := rfl

theorem valueAt_leaf {value : Json} (h : ¬ value.IsObject) (name : String) (path : List String) :
    valueAt value (name :: path) = none := by
  cases value with
  | obj fields => exact absurd trivial h
  | null => rfl
  | bool b => rfl
  | num q => rfl
  | str s => rfl
  | arr items => rfl

/-- Reading along two paths in turn. -/
theorem valueAt_append (value : Json) (path rest : List String) :
    valueAt value (path ++ rest) = (valueAt value path).bind fun inner => valueAt inner rest := by
  induction path generalizing value with
  | nil => simp
  | cons name path ih =>
      by_cases h : value.IsObject
      · cases value with
        | obj fields =>
            simp only [List.cons_append, valueAt_obj_cons]
            cases JsonObject.get? fields name with
            | none => rfl
            | some inner => exact ih inner
        | _ => exact h.elim
      · rw [List.cons_append, valueAt_leaf h, valueAt_leaf h]
        rfl

/-- The value has a leaf at the path. -/
def LeafAt (value : Json) (path : List String) (leaf : Json) : Prop :=
  valueAt value path = some leaf ∧ ¬ leaf.IsObject

/-- The value has a leaf at a proper prefix of the path. -/
def LeafAbove (value : Json) (path : List String) : Prop :=
  ∃ above below leaf, path = above ++ below ∧ below ≠ [] ∧ LeafAt value above leaf

/-- The value says nothing about the path. -/
def Silent (value : Json) (path : List String) : Prop :=
  valueAt value path = none ∧ ¬ LeafAbove value path

theorem valueAt_of_leafAbove {value : Json} {path : List String} (h : LeafAbove value path) :
    valueAt value path = none := by
  obtain ⟨above, below, leaf, rfl, hne, hvalue, hleaf⟩ := h
  obtain ⟨name, rest, rfl⟩ := List.exists_cons_of_ne_nil hne
  rw [valueAt_append, hvalue]
  exact valueAt_leaf hleaf name rest

/-! ### Layers -/

/-- `result` is `base` with `layer` laid over it. -/
structure LaidOver (base layer result : Json) : Prop where
  leaf : ∀ path value, LeafAt layer path value → LeafAt result path value
  above : ∀ path, LeafAbove layer path → valueAt result path = none
  object : ∀ path inner, valueAt layer path = some inner → inner.IsObject →
    ∃ merged, valueAt result path = some merged ∧ merged.IsObject
  silent : ∀ path, Silent layer path → valueAt result path = valueAt base path

/-- What two layers both leave alone is the base's. -/
theorem LaidOver.untouched {base lower upper merged result : Json}
    (hlower : LaidOver base lower merged) (hupper : LaidOver merged upper result)
    {path : List String} (hlow : Silent lower path) (hup : Silent upper path) :
    valueAt result path = valueAt base path :=
  (hupper.silent path hup).trans (hlower.silent path hlow)

end Json

end RulesEngine.Foundations
