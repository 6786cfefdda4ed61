import RulesEngine.RuleConfiguration
import RulesEngine.Foundations.JsonPaths

/-!
# What a rule inherits

`deepMerge` walks two trees at once; `mergeFields` is its loop.  Path by path it
is a layer laid over a base (`laidOver_deepMerge`), and the effective
configuration of a rule is two such layers: the enabled override over the
template's config, and the rule's own config over both
(`effective_config_inherits`).

An own property `__proto__`, which an assignment does not create, is the one
name the merge treats differently in JavaScript; it is not modelled.
-/

namespace RulesEngine.Rules

open RulesEngine.Foundations
open RulesEngine.Foundations.Json

/-! ### One level -/

/-- What the merged object has under a name. -/
theorem get?_deepMerge (target source : JsonObject) (name : String) :
    (deepMerge target source).get? name =
      match source.get? name with
      | some value => some (mergeValue (target.get? name) value)
      | none => target.get? name := by
  have hloop : ∀ rest : JsonObject, (mergeFields target target rest).get? name =
      match rest.get? name with
      | some value => some (mergeValue (target.get? name) value)
      | none => target.get? name := by
    intro rest
    induction rest with
    | nil => rfl
    | cons field rest ih =>
        obtain ⟨other, value⟩ := field
        rw [mergeFields, JsonObject.get?_set, JsonObject.get?_cons, ih]
        by_cases hname : other = name
        · simp only [hname, if_true]
        · simp only [hname, if_false]
  exact hloop source

theorem mergeValue_leaf (current : Option Json) {value : Json} (h : ¬ value.IsObject) :
    mergeValue current value = value := by
  cases value with
  | obj fields => exact absurd trivial h
  | _ => simp only [mergeValue]

theorem mergeValue_none (value : Json) : mergeValue none value = value := by
  cases value <;> simp only [mergeValue]

theorem mergeValue_objects (target source : JsonObject) :
    mergeValue (some (.obj target)) (.obj source) = .obj (deepMerge target source) := by
  simp only [mergeValue, deepMerge]

theorem mergeValue_over_leaf {current : Json} (h : ¬ current.IsObject) (value : Json) :
    mergeValue (some current) value = value := by
  cases current with
  | obj fields => exact absurd trivial h
  | _ => cases value <;> simp only [mergeValue]

theorem isObject_mergeValue (current : Option Json) {value : Json} (h : value.IsObject) :
    (mergeValue current value).IsObject := by
  cases value with
  | obj source =>
      cases current with
      | none => simp [mergeValue, IsObject]
      | some target => cases target <;> simp [mergeValue, IsObject]
  | _ => exact h.elim

/-! ### Along a path -/

/-- Where the source has a value, the result merges it with what the target has
    at the same path. -/
theorem valueAt_deepMerge_some (target source : JsonObject) {path : List String} {value : Json}
    (h : valueAt (.obj source) path = some value) :
    valueAt (.obj (deepMerge target source)) path =
      some (mergeValue (valueAt (.obj target) path) value) := by
  induction path generalizing target source with
  | nil =>
      simp only [valueAt_nil, Option.some.injEq] at h ⊢
      rw [← h, mergeValue_objects]
  | cons name path ih =>
      rw [valueAt_obj_cons] at h
      obtain ⟨inner, hinner, hvalue⟩ := Option.bind_eq_some_iff.mp h
      rw [valueAt_obj_cons, valueAt_obj_cons, get?_deepMerge, hinner]
      simp only [Option.bind_some]
      cases htarget : target.get? name with
      | none => simp only [mergeValue_none, hvalue, Option.bind_none]
      | some current =>
          by_cases hcurrent : current.IsObject
          · by_cases hobject : inner.IsObject
            · cases current with
              | obj current =>
                  cases inner with
                  | obj inner =>
                      rw [mergeValue_objects]
                      exact ih current inner hvalue
                  | _ => exact hobject.elim
              | _ => exact hcurrent.elim
            · -- the path ends at a leaf of the source
              cases path with
              | nil =>
                  simp only [valueAt_nil, Option.bind_some, Option.some.injEq] at hvalue ⊢
                  rw [hvalue]
              | cons next path =>
                  rw [valueAt_leaf hobject] at hvalue
                  cases hvalue
          · rw [mergeValue_over_leaf hcurrent, hvalue, Option.bind_some]
            cases path with
            | nil => rw [valueAt_nil, mergeValue_over_leaf hcurrent]
            | cons next path => rw [valueAt_leaf hcurrent, mergeValue_none]

/-- Where the source says nothing, the result is the target. -/
theorem valueAt_deepMerge_silent (target source : JsonObject) {path : List String}
    (h : Silent (.obj source) path) :
    valueAt (.obj (deepMerge target source)) path = valueAt (.obj target) path := by
  induction path generalizing target source with
  | nil => simp [Silent] at h
  | cons name path ih =>
      obtain ⟨hnone, habove⟩ := h
      rw [valueAt_obj_cons] at hnone
      rw [valueAt_obj_cons, valueAt_obj_cons, get?_deepMerge]
      cases hinner : source.get? name with
      | none => rfl
      | some inner =>
          simp only [hinner, Option.bind_some] at hnone ⊢
          have hpath : path ≠ [] := by
            rintro rfl
            simp at hnone
          have hobject : inner.IsObject := by
            by_contra hleaf
            refine habove ⟨[name], path, inner, rfl, hpath, ?_, hleaf⟩
            simp [hinner]
          have hbelow : Silent inner path := by
            refine ⟨hnone, ?_⟩
            rintro ⟨above, below, leaf, rfl, hne, hleaf⟩
            refine habove ⟨name :: above, below, leaf, rfl, hne, ?_, hleaf.2⟩
            simp [hinner, hleaf.1]
          cases inner with
          | obj inner =>
              cases htarget : target.get? name with
              | none => rw [mergeValue_none, hnone, Option.bind_none]
              | some current =>
                  by_cases hcurrent : current.IsObject
                  · cases current with
                    | obj current =>
                        rw [mergeValue_objects]
                        exact ih current inner hbelow
                    | _ => exact hcurrent.elim
                  · obtain ⟨next, rest, rfl⟩ := List.exists_cons_of_ne_nil hpath
                    rw [mergeValue_over_leaf hcurrent, hnone, Option.bind_some,
                      valueAt_leaf hcurrent]
          | _ => exact hobject.elim

/-- Under a leaf of the source the result has nothing. -/
theorem valueAt_deepMerge_above (target source : JsonObject) {path : List String}
    (h : LeafAbove (.obj source) path) : valueAt (.obj (deepMerge target source)) path = none := by
  obtain ⟨above, below, leaf, rfl, hne, hvalue, hleaf⟩ := h
  refine valueAt_of_leafAbove ⟨above, below, leaf, rfl, hne, ?_, hleaf⟩
  rw [valueAt_deepMerge_some target source hvalue, mergeValue_leaf _ hleaf]

/-- **deepMerge lays the source over the target.** -/
theorem laidOver_deepMerge (target source : JsonObject) :
    LaidOver (.obj target) (.obj source) (.obj (deepMerge target source)) where
  leaf := by
    rintro path value ⟨hvalue, hleaf⟩
    refine ⟨?_, hleaf⟩
    rw [valueAt_deepMerge_some target source hvalue, mergeValue_leaf _ hleaf]
  above := fun _ h => valueAt_deepMerge_above target source h
  object := fun _ _ hinner hobject =>
    ⟨_, valueAt_deepMerge_some target source hinner, isObject_mergeValue _ hobject⟩
  silent := fun _ h => valueAt_deepMerge_silent target source h

/-- The result at a path depends on the target at that path only. -/
theorem valueAt_deepMerge_congr {target target' : JsonObject} (source : JsonObject)
    {path : List String} (h : valueAt (.obj target) path = valueAt (.obj target') path) :
    valueAt (.obj (deepMerge target source)) path =
      valueAt (.obj (deepMerge target' source)) path := by
  by_cases habove : LeafAbove (.obj source) path
  · rw [valueAt_deepMerge_above target source habove, valueAt_deepMerge_above target' source habove]
  · cases hvalue : valueAt (.obj source) path with
    | none =>
        rw [valueAt_deepMerge_silent target source ⟨hvalue, habove⟩,
          valueAt_deepMerge_silent target' source ⟨hvalue, habove⟩, h]
    | some value =>
        rw [valueAt_deepMerge_some target source hvalue,
          valueAt_deepMerge_some target' source hvalue, h]

/-- Where the source has a leaf, the target does not matter. -/
theorem valueAt_deepMerge_leaf (target source : JsonObject) {path : List String} {leaf : Json}
    (h : LeafAt (.obj source) path leaf) :
    valueAt (.obj (deepMerge target source)) path = some leaf :=
  ((laidOver_deepMerge target source).leaf path leaf h).1

/-! ### The inheritance chain -/

/-- The overrides of an organization for a template, when they are enabled. -/
def enabledOverrides (db : Database) (organizationId idTemplate : String) : Option JsonObject :=
  (findByTemplate db organizationId idTemplate).bind fun override =>
    if override.enabled then some override.overrides else none

/-- The template's config as the organization sees it. -/
def overridden (template : JsonObject) : Option JsonObject → JsonObject
  | none => template
  | some overrides => deepMerge template overrides

theorem getMergedConfig_overridden (db : Database) (organizationId idTemplate : String) :
    getMergedConfig db organizationId idTemplate =
      (findTemplate db idTemplate).map fun template =>
        overridden template.config (enabledOverrides db organizationId idTemplate) := by
  unfold getMergedConfig enabledOverrides
  cases findTemplate db idTemplate with
  | error e => rfl
  | ok template =>
      cases findByTemplate db organizationId idTemplate with
      | none => rfl
      | some override => cases henabled : override.enabled <;> simp [henabled] <;> rfl

/-- What the effective configuration `effective` of a rule is made of: the
    template's config, the enabled overrides and the rule's own config. -/
structure Inherits (template : JsonObject) (overrides : Option JsonObject)
    (own effective : JsonObject) : Prop where
  /-- The rule's own config is laid over the merged one. -/
  ownLayer : LaidOver (.obj (overridden template overrides)) (.obj own) (.obj effective)
  /-- Enabled overrides are laid over the template's config. -/
  overrideLayer : ∀ config ∈ overrides,
    LaidOver (.obj template) (.obj config) (.obj (overridden template overrides))
  /-- Without them the template's config is the merged one. -/
  noOverride : overrides = none → overridden template overrides = template
  /-- At a leaf of the overrides or of the rule's config, any other template
      would give the same value. -/
  independent : ∀ path, ((∃ leaf, LeafAt (.obj own) path leaf) ∨
      ∃ config ∈ overrides, ∃ leaf, LeafAt (.obj config) path leaf) →
    ∀ other, valueAt (.obj (deepMerge (overridden other overrides) own)) path =
      valueAt (.obj effective) path
  /-- Where neither says anything, the template shows through. -/
  untouched : ∀ path, Silent (.obj own) path → (∀ config ∈ overrides, Silent (.obj config) path) →
    valueAt (.obj effective) path = valueAt (.obj template) path

theorem inherits_deepMerge (template : JsonObject) (overrides : Option JsonObject)
    (own : JsonObject) :
    Inherits template overrides own (deepMerge (overridden template overrides) own) where
  ownLayer := laidOver_deepMerge _ own
  overrideLayer := by
    rintro config hconfig
    cases Option.mem_def.mp hconfig
    exact laidOver_deepMerge template config
  noOverride := by
    rintro rfl
    rfl
  independent := by
    rintro path (⟨leaf, hleaf⟩ | ⟨config, hconfig, leaf, hleaf⟩) other
    · rw [valueAt_deepMerge_leaf _ own hleaf, valueAt_deepMerge_leaf _ own hleaf]
    · cases Option.mem_def.mp hconfig
      apply valueAt_deepMerge_congr
      exact (valueAt_deepMerge_leaf other config hleaf).trans
        (valueAt_deepMerge_leaf template config hleaf).symm
  untouched := by
    intro path hown hoverrides
    rw [valueAt_deepMerge_silent _ own hown]
    cases overrides with
    | none => rfl
    | some config => exact valueAt_deepMerge_silent template config (hoverrides config rfl)

/-- **The inheritance chain.**  Without a template the effective configuration is
    the rule's own config; with one, it inherits from the template's config and
    the enabled overrides. -/
theorem effective_config_inherits (db : Database) (organizationId : String) (rule : Rule) :
    ((∀ idTemplate ∈ rule.idTemplate, idTemplate = "") →
        getEffectiveConfig db organizationId rule = .ok rule.config) ∧
      ∀ idTemplate ∈ rule.idTemplate, idTemplate ≠ "" →
        ∀ template, findTemplate db idTemplate = .ok template →
          ∃ effective, getEffectiveConfig db organizationId rule = .ok effective ∧
            Inherits template.config (enabledOverrides db organizationId idTemplate) rule.config
              effective := by
  constructor
  · intro hnone
    unfold getEffectiveConfig
    cases hid : rule.idTemplate with
    | none => rfl
    | some idTemplate => simp [hnone idTemplate hid]
  · intro idTemplate hid hne template hfound
    refine ⟨deepMerge (overridden template.config (enabledOverrides db organizationId idTemplate))
      rule.config, ?_, inherits_deepMerge _ _ _⟩
    simp only [getEffectiveConfig, Option.mem_def.mp hid, if_neg hne, getMergedConfig_overridden,
      hfound]
    rfl

/-- An override over a template with a nested config. -/
def overriddenTemplate : Database :=
  { Database.empty with
    templates := Table.empty.put
      { id := "t"
        name := "base"
        config := [("event", .obj [("severity", .str "LOW"), ("category", .str "AML")])] }
    overrides := Table.empty.put
      { id := "o"
        idOrganization := "org"
        idTemplate := "t"
        overrides := [("event", .obj [("severity", .str "HIGH")])]
        enabled := true } }

/-- A rule of the template that replaces nothing. -/
def bareRule : Rule where
  id := "r"
  idOrganization := "org"
  idTemplate := some "t"
  name := "amount"
  enabled := true
  priority := 0
  config := []
  createdAt := 0

/-- The override's severity stands, and the template's category shows through. -/
theorem effective_config_inherits_sample :
    ∃ effective, getEffectiveConfig overriddenTemplate "org" bareRule = .ok effective ∧
      valueAt (.obj effective) ["event", "severity"] = some (.str "HIGH") ∧
      valueAt (.obj effective) ["event", "category"] = some (.str "AML") := by
  obtain ⟨effective, hresult, hinherits⟩ :=
    (effective_config_inherits overriddenTemplate "org" bareRule).2 "t" rfl (by decide) _ rfl
  refine ⟨effective, hresult, ?_, ?_⟩
  · exact (hinherits.independent ["event", "severity"]
      (Or.inr ⟨_, rfl, .str "HIGH", rfl, id⟩) []).symm
  · cases hresult
    rfl

end RulesEngine.Rules
