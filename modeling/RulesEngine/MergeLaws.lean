import RulesEngine.ConfigurationInheritance
import RulesEngine.Foundations.OverlayLaws

/-!
# Laws of deepMerge

The inheritance chain of a rule merges a template's config, the overrides of its
organization and the rule's own config from below.  `deepMerge` is idempotent in
its source, and merging the upper two first gives the same configuration except
where the overrides put a leaf between two objects: merging from below drops the
template's object there, and merging the upper two first brings it back
(`deepMerge_laws`).
-/

namespace RulesEngine.Rules

open RulesEngine.Foundations
open RulesEngine.Foundations.Json

/-! ### Objects as finite maps -/

/-- Two objects are the same when every name has the same value, or none, in
    both. -/
theorem same_obj_iff {fields fields' : JsonObject} :
    Same (.obj fields) (.obj fields') ↔
      ∀ name, Option.Rel Same (fields.get? name) (fields'.get? name) := by
  constructor
  · intro h name
    exact optionRel_same_iff.mpr fun path => h (name :: path)
  · intro h path
    cases path with
    | nil => rfl
    | cons name path => exact optionRel_same_iff.mp (h name) path

theorem outline_leaf {value : Json} (h : ¬ value.IsObject) : value.outline = .leaf value := by
  cases value with
  | obj fields => exact absurd trivial h
  | _ => rfl

theorem same_leaf_iff {a b : Json} (h : ¬ a.IsObject) : Same a b ↔ a = b := by
  constructor
  · intro hsame
    have hroot := hsame []
    simp only [outlineAt, valueAt_nil, Option.map_some, Option.some.injEq,
      outline_leaf h] at hroot
    by_cases hb : b.IsObject
    · rw [outline_object hb] at hroot
      cases hroot
    · rw [outline_leaf hb] at hroot
      exact Outline.leaf.inj hroot
  · rintro rfl
    exact fun path => rfl

/-! ### Merging three objects -/

/-- `o` holds a value that is no object at the path, and `t` and `r` both hold
    objects there. -/
def MergeConflict (t o r : JsonObject) (path : List String) : Prop :=
  Conflict (.obj t) (.obj o) (.obj r) path

/-- What the two orders of merging show along a path is the same exactly unless a
    conflict above it covers what `t` shows and `r` leaves alone. -/
theorem outlineAt_deepMerge_assoc_iff (t o r : JsonObject) (path : List String) :
    outlineAt (.obj (deepMerge (deepMerge t o) r)) path =
        outlineAt (.obj (deepMerge t (deepMerge o r))) path ↔
      ¬ Covered (.obj t) (.obj o) (.obj r) path :=
  (laidOver_deepMerge t o).assoc_iff (laidOver_deepMerge (deepMerge t o) r)
    (laidOver_deepMerge o r) (laidOver_deepMerge t (deepMerge o r)) path

theorem outlineAt_deepMerge_assoc {t o r : JsonObject} {path : List String}
    (h : ∀ above below, path = above ++ below → ¬ MergeConflict t o r above) :
    outlineAt (.obj (deepMerge (deepMerge t o) r)) path =
      outlineAt (.obj (deepMerge t (deepMerge o r))) path := by
  refine (outlineAt_deepMerge_assoc_iff t o r path).mpr fun hcovered => ?_
  obtain ⟨above, below, hpath, hconflict⟩ := hcovered.conflict
  exact h above below hpath hconflict

/-- **Laws of deepMerge.**  Merging the same source again changes nothing.  The two
    orders of merging three objects show the same at every path without a
    conflict at it or above it, and have the same value there when there is no
    conflict below it either. -/
theorem deepMerge_laws :
    (∀ t o : JsonObject, Same (.obj (deepMerge (deepMerge t o) o)) (.obj (deepMerge t o))) ∧
    ∀ (t o r : JsonObject) (path : List String),
      (∀ above below, path = above ++ below → ¬ MergeConflict t o r above) →
      outlineAt (.obj (deepMerge (deepMerge t o) r)) path =
          outlineAt (.obj (deepMerge t (deepMerge o r))) path ∧
        ((∀ below, ¬ MergeConflict t o r (path ++ below)) →
          Option.Rel Same (valueAt (.obj (deepMerge (deepMerge t o) r)) path)
            (valueAt (.obj (deepMerge t (deepMerge o r))) path)) := by
  refine ⟨fun t o => (laidOver_deepMerge t o).idempotent (laidOver_deepMerge (deepMerge t o) o),
    fun t o r path habove => ⟨outlineAt_deepMerge_assoc habove, fun hbelow => ?_⟩⟩
  rw [same_valueAt_iff]
  intro below
  refine outlineAt_deepMerge_assoc fun upper rest hsplit => ?_
  -- a part of the longer path ends at the path, above it or below it
  rcases List.append_eq_append_iff.mp hsplit with ⟨middle, rfl, -⟩ | ⟨middle, hpath, -⟩
  · exact hbelow middle
  · exact habove upper middle hpath

def conflictTarget : JsonObject :=
  [("b", .obj [("a", .obj [("x", .num 1)])]), ("n", .obj [("u", .num 1)])]

def conflictMiddle : JsonObject := [("b", .obj [("a", .num 1)])]

def conflictUpper : JsonObject := [("b", .obj [("a", .obj [("y", .num 2)])])]

/-- The three conflict at `b.a`, and not along `n`. -/
theorem deepMerge_laws_sample :
    Option.Rel Same
      (valueAt (.obj (deepMerge (deepMerge conflictTarget conflictMiddle) conflictUpper)) ["n"])
      (valueAt (.obj (deepMerge conflictTarget (deepMerge conflictMiddle conflictUpper)))
        ["n"]) := by
  have hfree : ∀ below,
      ¬ MergeConflict conflictTarget conflictMiddle conflictUpper ("n" :: below) := by
    rintro below ⟨-, ⟨leaf, hvalue, -⟩, -⟩
    cases hvalue
  refine (deepMerge_laws.2 _ _ _ ["n"] ?_).2 hfree
  intro above below hsplit
  cases above with
  | nil =>
      rintro ⟨-, ⟨leaf, hvalue, hleaf⟩, -⟩
      cases hvalue
      exact hleaf trivial
  | cons name above =>
      obtain ⟨rfl, -⟩ := List.cons.inj hsplit
      exact hfree above

/-- The conflict at `b.a` shows in the whole value of `b`, though neither `b` nor
    the root is one: with the upper two merged first, `b.a.x` is back. -/
theorem conflict_below_shows :
    (∀ above below, ["b"] = above ++ below →
        ¬ MergeConflict conflictTarget conflictMiddle conflictUpper above) ∧
      ¬ Option.Rel Same
        (valueAt (.obj (deepMerge (deepMerge conflictTarget conflictMiddle) conflictUpper)) ["b"])
        (valueAt (.obj (deepMerge conflictTarget (deepMerge conflictMiddle conflictUpper)))
          ["b"]) := by
  constructor
  · rintro above below hsplit ⟨-, ⟨leaf, hvalue, hleaf⟩, -⟩
    cases above with
    | nil =>
        cases hvalue
        exact hleaf trivial
    | cons name above =>
        obtain ⟨rfl, hrest⟩ := List.cons.inj hsplit
        obtain ⟨rfl, -⟩ := List.append_eq_nil_iff.mp hrest.symm
        cases hvalue
        exact hleaf trivial
  · intro h
    have hshown := same_valueAt_iff.mp h ["a", "x"]
    cases hshown

end RulesEngine.Rules
