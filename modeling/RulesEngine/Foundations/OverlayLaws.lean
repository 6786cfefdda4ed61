import RulesEngine.Foundations.JsonPaths

/-!
# Laws of laying JSON over JSON

What a value shows along a path is its outline there: an object, a leaf, or
nothing.  Two values with the same outlines along every path are the same, with
objects compared as finite maps.  Laying a layer over a base twice is
laying it once (`LaidOver.idempotent`), and laying three layers over each other
shows the same from either end, except along paths of the lowest that a conflict
of the other two covers (`LaidOver.assoc_iff`).
-/

namespace RulesEngine.Foundations

namespace Json

/-! ### Outlines -/

/-- What a path shows of a value: an object, or a leaf. -/
inductive Outline where
  | object
  | leaf (value : Json)

def outline : Json → Outline
  | .obj _ => .object
  | value => .leaf value

theorem outline_object {value : Json} (h : value.IsObject) : value.outline = .object := by
  cases value with
  | obj fields => rfl
  | _ => exact h.elim

def outlineAt (value : Json) (path : List String) : Option Outline :=
  (valueAt value path).map outline

theorem outlineAt_eq_none_iff {value : Json} {path : List String} :
    outlineAt value path = none ↔ valueAt value path = none := Option.map_eq_none_iff

/-- The same value, with objects compared as finite maps. -/
def Same (a b : Json) : Prop := ∀ path, outlineAt a path = outlineAt b path

/-- Optional values are the same when they show the same along every path. -/
theorem optionRel_same_iff {x y : Option Json} :
    Option.Rel Same x y ↔
      ∀ path, (x.bind fun a => valueAt a path).map outline =
        (y.bind fun b => valueAt b path).map outline := by
  constructor
  · rintro (h | _) path
    · exact h path
    · rfl
  · intro h
    cases x with
    | none =>
        cases y with
        | none => exact .none
        | some b => simpa using h []
    | some a =>
        cases y with
        | none => simpa using h []
        | some b => exact .some fun path => h path

theorem same_valueAt_iff {a b : Json} {path : List String} :
    Option.Rel Same (valueAt a path) (valueAt b path) ↔
      ∀ below, outlineAt a (path ++ below) = outlineAt b (path ++ below) := by
  simp only [optionRel_same_iff, outlineAt, valueAt_append]

/-! ### What a layer says about a path -/

/-- The value has an object at the path. -/
def ObjectAt (value : Json) (path : List String) : Prop :=
  ∃ inner, valueAt value path = some inner ∧ inner.IsObject

theorem leafAbove_silent_or_value (value : Json) (path : List String) :
    LeafAbove value path ∨ Silent value path ∨ ∃ inner, valueAt value path = some inner := by
  by_cases habove : LeafAbove value path
  · exact .inl habove
  · cases hvalue : valueAt value path with
    | none => exact .inr (.inl ⟨hvalue, habove⟩)
    | some inner => exact .inr (.inr ⟨inner, rfl⟩)

theorem LeafAbove.append {value : Json} {path : List String} (h : LeafAbove value path)
    (rest : List String) : LeafAbove value (path ++ rest) := by
  obtain ⟨above, below, leaf, rfl, hne, hleaf⟩ := h
  exact ⟨above, below ++ rest, leaf, List.append_assoc _ _ _, by simp [hne], hleaf⟩

theorem LeafAt.above {value leaf : Json} {path rest : List String} (h : LeafAt value path leaf)
    (hrest : rest ≠ []) : LeafAbove value (path ++ rest) := ⟨path, rest, leaf, rfl, hrest, h⟩

theorem valueAt_append_of_not_objectAt {value : Json} {path rest : List String}
    (h : ¬ ObjectAt value path) (hrest : rest ≠ []) : valueAt value (path ++ rest) = none := by
  obtain ⟨name, rest, rfl⟩ := List.exists_cons_of_ne_nil hrest
  rw [valueAt_append]
  cases hvalue : valueAt value path with
  | none => rfl
  | some inner => exact valueAt_leaf (fun hobject => h ⟨inner, hvalue, hobject⟩) name rest

namespace LaidOver

variable {base layer result : Json} {path : List String}

theorem outlineAt_above (h : LaidOver base layer result) (habove : LeafAbove layer path) :
    outlineAt result path = none := outlineAt_eq_none_iff.mpr (h.above path habove)

theorem outlineAt_silent (h : LaidOver base layer result) (hsilent : Silent layer path) :
    outlineAt result path = outlineAt base path :=
  congrArg (Option.map outline) (h.silent path hsilent)

theorem outlineAt_value (h : LaidOver base layer result) {inner : Json}
    (hinner : valueAt layer path = some inner) : outlineAt result path = outlineAt layer path := by
  by_cases hobject : inner.IsObject
  · obtain ⟨merged, hmerged, hmergedObject⟩ := h.object path inner hinner hobject
    simp only [outlineAt, hmerged, hinner, Option.map_some, outline_object hobject,
      outline_object hmergedObject]
  · have hleaf := h.leaf path inner ⟨hinner, hobject⟩
    simp only [outlineAt, hleaf.1, hinner]

/-- The result has a leaf above a path because the layer has one, or because the
    base has one of which the layer says nothing. -/
theorem leafAbove (h : LaidOver base layer result) (habove : LeafAbove result path) :
    LeafAbove layer path ∨ LeafAbove base path := by
  obtain ⟨above, below, leaf, rfl, hne, hvalue, hleaf⟩ := habove
  rcases leafAbove_silent_or_value layer above with hlayer | hsilent | ⟨inner, hinner⟩
  · exact .inl (hlayer.append below)
  · exact .inr (LeafAt.above ⟨(h.silent above hsilent).symm.trans hvalue, hleaf⟩ hne)
  · by_cases hobject : inner.IsObject
    · obtain ⟨merged, hmerged, hmergedObject⟩ := h.object above inner hinner hobject
      rw [hvalue, Option.some.injEq] at hmerged
      exact absurd (hmerged ▸ hmergedObject) hleaf
    · exact .inl (LeafAt.above ⟨hinner, hobject⟩ hne)

/-- A leaf of the base that the result no longer has above a path has given way to
    an object of the layer. -/
theorem objectAt_of_replaced (h : LaidOver base layer result) {above below : List String}
    {leaf : Json} (hleaf : LeafAt base above leaf) (hne : below ≠ [])
    (hlayer : ¬ LeafAbove layer (above ++ below)) (hresult : ¬ LeafAbove result (above ++ below)) :
    ObjectAt layer above := by
  rcases leafAbove_silent_or_value layer above with habove | hsilent | ⟨inner, hinner⟩
  · exact absurd (habove.append below) hlayer
  · have hkept : LeafAt result above leaf := ⟨(h.silent above hsilent).trans hleaf.1, hleaf.2⟩
    exact absurd (hkept.above hne) hresult
  · refine ⟨inner, hinner, ?_⟩
    by_contra hinnerLeaf
    exact hlayer (LeafAt.above ⟨hinner, hinnerLeaf⟩ hne)

/-- **Idempotence.** -/
theorem idempotent (hbase : LaidOver base layer result) {again : Json}
    (hagain : LaidOver result layer again) : Same again result := by
  intro path
  rcases leafAbove_silent_or_value layer path with habove | hsilent | ⟨inner, hinner⟩
  · rw [hbase.outlineAt_above habove, hagain.outlineAt_above habove]
  · exact hagain.outlineAt_silent hsilent
  · rw [hbase.outlineAt_value hinner, hagain.outlineAt_value hinner]

end LaidOver

/-- The middle one of three layers has a leaf where the others have objects. -/
structure Conflict (base layer upper : Json) (path : List String) : Prop where
  base : ObjectAt base path
  layer : ∃ leaf, LeafAt layer path leaf
  upper : ObjectAt upper path

/-- The base has something at the path that the conflicting layers, laid one
    after the other, cover, and the upper layer says nothing of it. -/
structure Covered (base layer upper : Json) (path : List String) : Prop where
  conflict : ∃ above below, path = above ++ below ∧ Conflict base layer upper above
  silent : Silent upper path
  shown : outlineAt base path ≠ none

/-- Where the layers conflict above a path, and the upper one says nothing of it,
    the two together say nothing of it either. -/
theorem LaidOver.silent_of_conflict {base layer upper merged : Json}
    (h : LaidOver layer upper merged) {above below : List String} (hne : below ≠ [])
    (hconflict : Conflict base layer upper above) (hsilent : Silent upper (above ++ below)) :
    Silent merged (above ++ below) := by
  obtain ⟨-, ⟨leaf, hleaf⟩, inner, hinner, -⟩ := hconflict
  refine ⟨(h.silent _ hsilent).trans (valueAt_of_leafAbove (hleaf.above hne)), ?_⟩
  rintro ⟨top, rest, other, hsplit, hrest, hother⟩
  rcases leafAbove_silent_or_value upper top with habove | htop | ⟨value, hvalue⟩
  · exact hsilent.2 (hsplit ▸ habove.append rest)
  · -- a leaf of the lower layer, which has its only one on this path at the conflict
    have hlayer := (h.silent top htop).symm.trans hother.1
    rcases List.append_eq_append_iff.mp hsplit with ⟨middle, rfl, -⟩ | ⟨middle, rfl, -⟩
    · cases middle with
      | nil =>
          rw [List.append_nil, Silent, hinner] at htop
          cases htop.1
      | cons name middle =>
          rw [valueAt_of_leafAbove (hleaf.above (List.cons_ne_nil name middle))] at hlayer
          cases hlayer
    · rw [valueAt_append, htop.1] at hinner
      cases hinner
  · by_cases hobject : value.IsObject
    · obtain ⟨replaced, hreplaced, hreplacedObject⟩ := h.object top value hvalue hobject
      rw [hother.1, Option.some.injEq] at hreplaced
      exact hother.2 (hreplaced ▸ hreplacedObject)
    · exact hsilent.2 (hsplit ▸ LeafAt.above ⟨hvalue, hobject⟩ hrest)

theorem Conflict.below_ne_nil {base layer upper : Json} {above below : List String}
    (h : Conflict base layer upper above) (hsilent : Silent upper (above ++ below)) :
    below ≠ [] := by
  rintro rfl
  obtain ⟨inner, hinner, -⟩ := h.upper
  rw [List.append_nil, Silent, hinner] at hsilent
  cases hsilent.1

/-- **Associativity.**  Laying `layer` and then `upper` over a base shows the same
    along a path as laying both together over it, unless the base is covered
    there. -/
theorem LaidOver.assoc_iff {base layer upper lower left merged right : Json}
    (hlower : LaidOver base layer lower) (hleft : LaidOver lower upper left)
    (hmerged : LaidOver layer upper merged) (hright : LaidOver base merged right)
    (path : List String) :
    outlineAt left path = outlineAt right path ↔ ¬ Covered base layer upper path := by
  constructor
  · rintro hsame ⟨⟨above, below, rfl, hconflict⟩, hsilent, hshown⟩
    have hne := Conflict.below_ne_nil hconflict hsilent
    obtain ⟨leaf, hleaf⟩ := hconflict.layer
    rw [hleft.outlineAt_silent hsilent, hlower.outlineAt_above (hleaf.above hne),
      hright.outlineAt_silent (hmerged.silent_of_conflict hne hconflict hsilent)] at hsame
    exact hshown hsame.symm
  · intro h
    rcases leafAbove_silent_or_value upper path with habove | hsilent | ⟨inner, hinner⟩
    · -- under a leaf of the upper layer both have nothing
      obtain ⟨above, below, leaf, rfl, hne, hleaf⟩ := habove
      rw [hleft.outlineAt_above (hleaf.above hne),
        hright.outlineAt_above ((hmerged.leaf above leaf hleaf).above hne)]
    · rw [hleft.outlineAt_silent hsilent]
      have hmergedPath := hmerged.silent path hsilent
      rcases leafAbove_silent_or_value layer path with habove | hlayer | ⟨inner, hinner⟩
      · obtain ⟨above, below, leaf, rfl, hne, hleaf⟩ := habove
        rw [hlower.outlineAt_above (hleaf.above hne)]
        symm
        by_cases hunder : LeafAbove merged (above ++ below)
        · exact hright.outlineAt_above hunder
        · -- the upper layer has put an object in the place of the leaf
          have hupper := hmerged.objectAt_of_replaced hleaf hne hsilent.2 hunder
          have hnone := hmergedPath.trans (valueAt_of_leafAbove (hleaf.above hne))
          rw [hright.outlineAt_silent ⟨hnone, hunder⟩]
          by_contra hshown
          have hbase : ObjectAt base above := by
            by_contra hbase
            exact hshown (outlineAt_eq_none_iff.mpr (valueAt_append_of_not_objectAt hbase hne))
          exact h ⟨⟨above, below, rfl, hbase, ⟨leaf, hleaf⟩, hupper⟩, hsilent, hshown⟩
      · have hmergedSilent : Silent merged path := by
          refine ⟨hmergedPath.trans hlayer.1, fun habove => ?_⟩
          rcases hmerged.leafAbove habove with hupper | hbelow
          · exact hsilent.2 hupper
          · exact hlayer.2 hbelow
        rw [hlower.outlineAt_silent hlayer, hright.outlineAt_silent hmergedSilent]
      · rw [hlower.outlineAt_value hinner, hright.outlineAt_value (hmergedPath.trans hinner)]
        exact (congrArg (Option.map outline) hmergedPath).symm
    · -- what the upper layer shows, both show
      have hshown := hmerged.outlineAt_value hinner
      obtain ⟨value, hvalue⟩ : ∃ value, valueAt merged path = some value := by
        rw [← Option.ne_none_iff_exists']
        intro hnone
        rw [outlineAt_eq_none_iff.mpr hnone] at hshown
        rw [outlineAt_eq_none_iff.mp hshown.symm] at hinner
        cases hinner
      rw [hleft.outlineAt_value hinner, hright.outlineAt_value hvalue, hshown]

end Json

end RulesEngine.Foundations
