import Mathlib.Data.Rat.Defs
import Mathlib.Data.List.Basic

/-!
# JSON values as JavaScript reads them

Configuration columns, event parameters and queue messages carry unvalidated
JSON that the program reads through casts, so what matters is what JavaScript
does with a value of the wrong shape: an absent property is `undefined` (here
`none`), `a || b` tests truthiness, an object spread copies own properties, and
a template literal converts its holes to strings, which can throw.

Numbers are exact rationals.  Their decimal rendering inside a template literal
is left to an instance of `NumberText`, over which every result is quantified.
-/

namespace RulesEngine.Foundations

/-- What a `throw` (or a rejected promise) carries: an `Error` with its message,
    or a value that is no `Error`. -/
inductive Thrown where
  | error (message : String)
  | other
deriving DecidableEq, Repr

section Fallible

variable {α β : Type}

theorem bind_eq_ok {x : Except Thrown α} {f : α → Except Thrown β} {b : β} :
    x >>= f = .ok b ↔ ∃ a, x = .ok a ∧ f a = .ok b := by
  cases x <;> simp [bind, Except.bind]

theorem ok_bind (a : α) (f : α → Except Thrown β) : Except.ok a >>= f = f a := rfl

theorem error_bind (e : Thrown) (f : α → Except Thrown β) : Except.error e >>= f = .error e := rfl

theorem error_ne_ok {e : Thrown} {a : α} : (.error e : Except Thrown α) ≠ .ok a :=
  fun h => by cases h

theorem isOk_iff {x : Except Thrown α} : x.isOk = true ↔ ∃ a, x = .ok a := by
  cases x <;> simp [Except.isOk, Except.toBool]

theorem toOption_eq_some {x : Except Thrown α} {a : α} : x.toOption = some a ↔ x = .ok a := by
  cases x <;> simp [Except.toOption]

end Fallible

inductive Json where
  | null
  | bool (value : Bool)
  | num (value : ℚ)
  | str (value : String)
  | arr (items : List Json)
  | obj (fields : List (String × Json))

/-- The own properties of an object, in insertion order. -/
abbrev JsonObject := List (String × Json)

/-! ### Objects -/

namespace JsonObject

/-- `fields[name]`; `none` is `undefined`. -/
def get? (fields : JsonObject) (name : String) : Option Json :=
  (fields.find? fun field => field.1 = name).map Prod.snd

/-- `fields[name] = value`: an existing property keeps its place, a new one
    comes last. -/
def set (name : String) (value : Json) : JsonObject → JsonObject
  | [] => [(name, value)]
  | field :: rest =>
      if field.1 = name then (name, value) :: rest else field :: set name value rest

/-- `{ ...target, ...source }`: copy every own property of `source`. -/
def assign (target source : JsonObject) : JsonObject :=
  (source.map Prod.fst).foldl (fun result name =>
    match source.get? name with
    | some value => result.set name value
    | none => result) target

theorem get?_cons (field : String × Json) (rest : JsonObject) (name : String) :
    get? (field :: rest) name = if field.1 = name then some field.2 else get? rest name := by
  by_cases h : field.1 = name <;> simp [get?, h]

@[simp] theorem get?_nil (name : String) : get? [] name = none := rfl

theorem get?_set (name other : String) (value : Json) (fields : JsonObject) :
    (fields.set name value).get? other =
      if name = other then some value else fields.get? other := by
  induction fields with
  | nil => simp [set, get?_cons]
  | cons field rest ih =>
      by_cases h : field.1 = name
      · subst h
        by_cases ho : field.1 = other <;> simp [set, get?_cons, ho]
      · simp only [set, if_neg h, get?_cons, ih]
        by_cases ho : field.1 = other
        · subst ho
          simp [Ne.symm h]
        · simp [ho]

theorem get?_eq_none_of_not_mem {fields : JsonObject} {name : String}
    (h : name ∉ fields.map Prod.fst) : fields.get? name = none := by
  induction fields with
  | nil => rfl
  | cons field rest ih =>
      simp only [List.map_cons, List.mem_cons, not_or] at h
      rw [get?_cons, if_neg (Ne.symm h.1), ih h.2]

/-- After a spread, a property has the source's value when the source has the
    property, and the target's otherwise. -/
theorem get?_assign (target source : JsonObject) (name : String) :
    (assign target source).get? name = (source.get? name).or (target.get? name) := by
  have hfold : ∀ (names : List String) (result : JsonObject),
      (names.foldl (fun result name =>
        match source.get? name with
        | some value => result.set name value
        | none => result) result).get? name =
        if name ∈ names then (source.get? name).or (result.get? name)
        else result.get? name := by
    intro names
    induction names with
    | nil => intro result; simp
    | cons head tail ih =>
        intro result
        rw [List.foldl_cons, ih]
        by_cases hhead : head = name
        · subst hhead
          cases hs : source.get? head with
          | none => simp
          | some value => by_cases htail : head ∈ tail <;> simp [htail, get?_set]
        · have hkeep : (match source.get? head with
              | some value => result.set head value
              | none => result).get? name = result.get? name := by
            cases source.get? head with
            | none => rfl
            | some value => simp [get?_set, hhead]
          simp only [hkeep, List.mem_cons, Ne.symm hhead, false_or]
  rw [assign, hfold]
  by_cases hmem : name ∈ source.map Prod.fst
  · rw [if_pos hmem]
  · rw [if_neg hmem, get?_eq_none_of_not_mem hmem, Option.none_or]

end JsonObject

/-! ### Reading a value of unknown shape -/

namespace Json

/-- `value?.name` for a name that no built-in prototype defines. -/
def prop? : Option Json → String → Option Json
  | some (.obj fields), name => JsonObject.get? fields name
  | _, _ => none

/-- JavaScript truthiness; `none` is `undefined`. -/
def truthy : Option Json → Bool
  | none => false
  | some .null => false
  | some (.bool b) => b
  | some (.num q) => decide (q ≠ 0)
  | some (.str s) => decide (s ≠ "")
  | some (.arr _) => true
  | some (.obj _) => true

/-- `value || fallback`. -/
def orElse (value : Option Json) (fallback : Json) : Json :=
  match value with
  | some v => if truthy (some v) then v else fallback
  | none => fallback

/-- The own properties an object spread copies out of a value: those of an
    object, the elements of an array and the characters of a string under
    their indices, and nothing for any other value. -/
def ownProperties : Option Json → JsonObject
  | some (.obj fields) => fields
  | some (.arr items) => items.zipIdx.map fun (item, index) => (toString index, item)
  | some (.str text) =>
      text.toList.zipIdx.map fun (c, index) => (toString index, .str (String.singleton c))
  | _ => []

end Json

/-! ### Deep copies -/

/-- The names every object literal inherits from `Object.prototype`. -/
def inheritedNames : List String :=
  ["constructor", "__defineGetter__", "__defineSetter__", "hasOwnProperty", "__lookupGetter__",
    "__lookupSetter__", "isPrototypeOf", "propertyIsEnumerable", "toString", "valueOf",
    "__proto__", "toLocaleString"]

namespace Json

mutual

/-- The deep copy the `clone` package makes of a JSON value, as it prints again:
    a property under an inherited name is not copied, and one called `__proto__`
    sets the prototype of the copy. -/
def clone : Json → Json
  | .null => .null
  | .bool b => .bool b
  | .num q => .num q
  | .str text => .str text
  | .arr items => .arr (cloneItems items)
  | .obj fields => .obj (cloneFields fields)

def cloneItems : List Json → List Json
  | [] => []
  | item :: rest => clone item :: cloneItems rest

def cloneFields : List (String × Json) → JsonObject
  | [] => []
  | (name, value) :: rest =>
      if name ∈ inheritedNames then cloneFields rest else (name, clone value) :: cloneFields rest

end

@[simp] theorem clone_str (text : String) : clone (.str text) = .str text := by rw [clone]

theorem cloneItems_eq_map (items : List Json) : cloneItems items = items.map clone := by
  induction items with
  | nil => rw [cloneItems, List.map_nil]
  | cons item rest ih => rw [cloneItems, ih, List.map_cons]

/-- A copy has the properties of the original, copied, under every other name. -/
theorem get?_cloneFields {name : String} (h : name ∉ inheritedNames) (fields : JsonObject) :
    JsonObject.get? (cloneFields fields) name = (JsonObject.get? fields name).map clone := by
  induction fields with
  | nil => rw [cloneFields, JsonObject.get?_nil, Option.map_none]
  | cons field rest ih =>
      obtain ⟨other, value⟩ := field
      rw [cloneFields, JsonObject.get?_cons]
      by_cases hname : other = name
      · subst hname
        rw [if_neg h, JsonObject.get?_cons, if_pos rfl, if_pos rfl, Option.map_some]
      · rw [if_neg hname, ← ih]
        split
        · rfl
        · rw [JsonObject.get?_cons, if_neg hname]

/-- A copy has no property under an inherited name. -/
theorem get?_cloneFields_inherited {name : String} (h : name ∈ inheritedNames)
    (fields : JsonObject) : JsonObject.get? (cloneFields fields) name = none := by
  induction fields with
  | nil => rw [cloneFields, JsonObject.get?_nil]
  | cons field rest ih =>
      obtain ⟨other, value⟩ := field
      rw [cloneFields]
      split
      · exact ih
      · rename_i hother
        have hne : other ≠ name := fun heq => hother (heq ▸ h)
        rw [JsonObject.get?_cons, if_neg hne, ih]

/-- Spreading a copy gives copies of the properties spreading the original does,
    but for inherited names. -/
theorem get?_ownProperties_clone {name : String} (h : name ∉ inheritedNames)
    (value : Option Json) :
    JsonObject.get? (ownProperties (value.map clone)) name =
      (JsonObject.get? (ownProperties value) name).map clone := by
  have hindexed : ∀ (items : List Json) (start : Nat),
      JsonObject.get? (((items.map clone).zipIdx start).map fun (item, i) => (toString i, item))
          name =
        (JsonObject.get? ((items.zipIdx start).map fun (item, i) => (toString i, item)) name).map
          clone := by
    intro items
    induction items with
    | nil => intro start; rfl
    | cons item rest ih =>
        intro start
        simp only [List.map_cons, List.zipIdx_cons, JsonObject.get?_cons, ih]
        split <;> rfl
  have htext : ∀ (text : List Char) (start : Nat),
      JsonObject.get? ((text.zipIdx start).map fun (c, i) =>
          (toString i, Json.str (String.singleton c))) name =
        (JsonObject.get? ((text.zipIdx start).map fun (c, i) =>
          (toString i, Json.str (String.singleton c))) name).map clone := by
    intro text
    induction text with
    | nil => intro start; rfl
    | cons c rest ih =>
        intro start
        simp only [List.zipIdx_cons, List.map_cons, JsonObject.get?_cons]
        split
        · rw [Option.map_some, clone_str]
        · exact ih _
  match value with
  | none => rfl
  | some (.obj fields) =>
      rw [Option.map_some, clone]
      exact get?_cloneFields h fields
  | some (.arr items) =>
      rw [Option.map_some, clone, cloneItems_eq_map]
      exact hindexed items 0
  | some (.str text) =>
      rw [Option.map_some, clone_str]
      exact htext text.toList 0
  | some .null => rw [Option.map_some, clone]; rfl
  | some (.bool b) => rw [Option.map_some, clone]; rfl
  | some (.num q) => rw [Option.map_some, clone]; rfl

end Json

/-! ### Template literals -/

/-- How the runtime renders a JSON number inside a template literal. -/
class NumberText where
  render : ℚ → String

/-- A rendering that is right on the integers below `10 ^ 21`. -/
@[reducible] def NumberText.integers : NumberText := ⟨fun q => toString q.num⟩

namespace Json

section TemplateText

variable [NumberText]

mutual

/-- `${value}`.  An object without an own `toString` prints as
    `[object Object]`; an own `toString`, which JSON cannot make callable,
    leaves the conversion without a method to call. -/
def templateText : Json → Except Thrown String
  | .null => .ok "null"
  | .bool true => .ok "true"
  | .bool false => .ok "false"
  | .num q => .ok (NumberText.render q)
  | .str s => .ok s
  | .arr items => (joinTexts items).map fun parts => ",".intercalate parts
  | .obj fields =>
      if (JsonObject.get? fields "toString").isSome then
        .error (.error "Cannot convert object to primitive value")
      else .ok "[object Object]"

/-- The element texts `Array.prototype.join` concatenates; `null` prints as the
    empty text. -/
def joinTexts : List Json → Except Thrown (List String)
  | [] => .ok []
  | .null :: rest => (joinTexts rest).map ("" :: ·)
  | item :: rest =>
      match templateText item with
      | .error e => .error e
      | .ok text => (joinTexts rest).map (text :: ·)

end

/-- A value that a template literal can print. -/
def Printable (value : Json) : Prop := ∃ text, templateText value = .ok text

@[simp] theorem templateText_str (s : String) : templateText (.str s) = .ok s := rfl

theorem printable_str (s : String) : (Json.str s).Printable := ⟨s, rfl⟩

/-- A copy can always be printed: it has no `toString` of its own at any depth. -/
theorem clone_printable (value : Json) : (clone value).Printable := by
  have hitems : ∀ items : List Json, (∀ item ∈ items, (clone item).Printable) →
      ∃ texts, joinTexts (cloneItems items) = .ok texts := by
    intro items
    induction items with
    | nil =>
        intro _
        exact ⟨[], by rw [cloneItems, joinTexts]⟩
    | cons item rest ih =>
        intro h
        obtain ⟨text, htext⟩ := h item List.mem_cons_self
        obtain ⟨texts, htexts⟩ := ih fun other hother => h other (List.mem_cons_of_mem _ hother)
        rw [cloneItems]
        by_cases hnull : clone item = .null
        · exact ⟨"" :: texts, by rw [hnull, joinTexts, htexts]; rfl⟩
        · refine ⟨text :: texts, ?_⟩
          rw [joinTexts.eq_3 _ _ (fun h => hnull h), htext, htexts]
          rfl
  match value with
  | .null => exact ⟨_, by rw [clone, templateText]⟩
  | .bool true => exact ⟨_, by rw [clone, templateText]⟩
  | .bool false => exact ⟨_, by rw [clone, templateText]⟩
  | .num q => exact ⟨_, by rw [clone, templateText]⟩
  | .str text => exact ⟨text, by rw [clone_str, templateText_str]⟩
  | .arr items =>
      obtain ⟨texts, htexts⟩ := hitems items fun item _ => clone_printable item
      exact ⟨_, by rw [clone, templateText, htexts]; rfl⟩
  | .obj fields =>
      refine ⟨"[object Object]", ?_⟩
      have hinherited : "toString" ∈ inheritedNames := by decide
      have hnone := get?_cloneFields_inherited hinherited fields
      rw [clone, templateText, hnone]
      rfl

end TemplateText

end Json

end RulesEngine.Foundations
